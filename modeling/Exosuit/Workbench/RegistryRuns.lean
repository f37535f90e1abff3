import Exosuit.Workbench.LimitRuns
import Exosuit.Workbench.TicketLedger
import Exosuit.Workbench.WorkspaceStore

/-!
# Runs of the registry

All threads of a host manager, and managers that replace one another: a new one reads the stores
and has issued nothing. The registry stays sound as long as a launch binds its origin only while
the workspace is still registered, which the code does not check.
-/

namespace Exosuit.Workbench

open Lib (Table)
open WorkbenchHostInner

variable {ι : Type} {env : Env}

/-! ## What one step does to the registry -/

/-- The actions that run `register_workspace`. -/
def Action.registers : Action → Bool
  | .register .. | .other (.observeWorkspace ..) => true
  | _ => false

/-- The entry transition whose displaced bindings a thread may put back. -/
def Local.transition : Local → Option EntryTransition
  | .launchFailing _ t | .hostPlanned _ (some (_, t)) => some t
  | _ => none

inductive RegistryMoved (env : Env) (a : Action) (l : Local) (h h' : WorkbenchHostInner) : Prop
  | kept (hKept : RegistrySound h.state → Kept h.state h'.state)
  | bound (key : String) (entry : WorkbenchEntryBinding) (hAction : a = .bindOrigin entry)
      (hState : h'.state = bindOrigin h.state key entry)
  | restored (key : String) (t : EntryTransition) (hAction : a = .restoreOrigins)
      (hLocal : l.transition = some t)
      (hState : h'.state = restoreOrigins h.state key t.entry t.previousBindings)
  | registered (root : String) (git : GitSnapshot) (now : Nat) (w : WorkspaceRegistration)
      (hAction : a.registers = true)
      (hState : registerWorkspaceWithGit env h.state root git now = some (h'.state, w))

theorem RegistryMoved.same {a : Action} {l : Local} {h h' : WorkbenchHostInner}
    (hSame : SameRegistry h.state h'.state) : RegistryMoved env a l h h' :=
  .kept hSame.kept

theorem redeemMove_registry {i : ι} {a : Action} {l l' : Local} {sh sh' : Shared ι}
    (h : redeemMove env i a l sh = some (l', sh')) :
    SameRegistry sh.inner.state sh'.inner.state ∧ sh'.issued = sh.issued := by
  unfold redeemMove at h
  split at h
  case h_1 =>
    split at h
    · cases h; exact ⟨.refl _, rfl⟩
    · split at h <;> cases h <;> exact ⟨.refl _, rfl⟩
  case h_2 => split at h <;> cases h; exact ⟨.refl _, rfl⟩
  case h_3 =>
    obtain rfl := congrArg Prod.snd (Option.some.inj h)
    unfold lookupSection
    dsimp only
    split <;> exact ⟨.of_eq rfl rfl rfl rfl rfl, rfl⟩
  case h_4 w _ => cases h; cases w <;> exact ⟨.refl _, rfl⟩
  case h_5 => cases h; exact ⟨.of_eq rfl rfl rfl rfl rfl, rfl⟩
  case h_6 => cases h; exact ⟨.of_eq rfl rfl rfl rfl rfl, rfl⟩
  case h_7 => cases h

theorem enrollMove_registry {i : ι} {a : Action} {l l' : Local} {sh sh' : Shared ι}
    (h : enrollMove env i a l sh = some (l', sh')) :
    SameRegistry sh.inner.state sh'.inner.state ∧ sh'.issued = sh.issued := by
  unfold enrollMove at h
  split at h
  case h_1 =>
    split at h
    · split at h <;> cases h <;> exact ⟨.refl _, rfl⟩
    · cases h; exact ⟨.refl _, rfl⟩
  case h_2 => split at h <;> cases h; exact ⟨.refl _, rfl⟩
  case h_3 w p presentedPairing tokens =>
    obtain rfl := congrArg Prod.snd (Option.some.inj h)
    unfold enrollSection
    dsimp only
    split
    · exact ⟨.of_eq rfl rfl rfl rfl rfl, rfl⟩
    · cases w <;> exact ⟨.of_eq rfl rfl rfl rfl rfl, rfl⟩
  case h_4 => cases h

theorem sameRegistry_of_adopt {h h' : WorkbenchHostInner} {w : StoreWrite} {a : Authorizations}
    {gone : WorkbenchSession → Bool} {ok : Bool} (hAdopt : h.adopt w a gone = (h', ok)) :
    SameRegistry h.state h'.state := by
  have hSame := sameRegistry_adopt h w a gone
  rwa [hAdopt] at hSame

theorem sameRegistry_reconcilePublished (h : WorkbenchHostInner) (workspace : WorkspaceRegistration)
    (entry : WorkbenchEntryBinding) (now : Nat) (w : StoreWrite) :
    SameRegistry h.state (reconcilePublishedWorkspaceMove env h workspace entry now w).1.state := by
  unfold reconcilePublishedWorkspaceMove
  split
  · exact .refl _
  · exact .refl _
  · have hPruned : SameRegistry h.state (retainLiveAuthorizations h.state now) :=
      .of_eq rfl rfl rfl rfl rfl
    dsimp only
    split
    · exact hPruned
    · split
      · next hAdopt => exact hPruned.trans (sameRegistry_of_adopt hAdopt)
      · next hAdopt =>
        refine (hPruned.trans (sameRegistry_of_adopt hAdopt)).trans ⟨rfl, rfl, rfl, rfl, ?_⟩
        exact fun origin b hb => (Table.lookup_retain_eq_some.mp hb).1

theorem launchMove_registry {i : ι} {a : Action} {l l' : Local} {sh sh' : Shared ι}
    (h : launchMove env i a l sh = some (l', sh')) : RegistryMoved env a l sh.inner sh'.inner := by
  unfold launchMove at h
  split at h
  case h_1 root git now => -- register
    split at h
    · cases h; exact .same (.refl _)
    · next hRegister => cases h; exact .registered root git now _ rfl hRegister
  case h_2 => split at h <;> cases h; exact .same (.refl _)
  case h_3 => -- prepare
    split at h
    · cases h; exact .same (.refl _)
    · next hPrepare =>
      cases h
      refine .same ?_
      rw [prepareHost_state hPrepare]
      exact .refl _
  case h_4 => cases h; exact .same (.refl _)
  case h_5 => -- move published pairings
    cases h
    exact .same (sameRegistry_reconcilePublished ..)
  case h_6 entry workspace plan t => -- bind the origin
    cases h
    exact .bound workspace.key entry rfl rfl
  case h_7 plan _ => -- start the host
    cases h
    refine .same ?_
    cases plan <;> exact .of_eq rfl rfl rfl rfl rfl
  case h_8 => cases h; exact .same (.refl _)
  case h_9 => cases h; exact .same (.refl _)
  case h_10 w _ _ transition => -- failed after a transition
    apply RegistryMoved.same
    split at h
    · cases h; exact .refl _
    · next rollback _ =>
      cases w <;> cases h <;> exact .of_eq rfl rfl rfl rfl rfl
  case h_11 workspace t => -- put bindings back
    cases h
    exact .restored workspace.key t rfl rfl rfl
  case h_12 index now w workspace plan entry => -- direct move
    split at h
    · cases h; exact .same (.refl _)
    · apply RegistryMoved.kept
      intro hs
      have hKept := reconcileDirectWorkspaceMove_kept hs workspace index now w
      split at h <;>
      · next hReconcile =>
        cases h
        rw [hReconcile] at hKept
        exact hKept
  case h_13 => -- release bindings
    cases h
    exact .same ⟨rfl, rfl, rfl, rfl, fun origin b hb => (Table.lookup_retain_eq_some.mp hb).1⟩
  case h_14 => split at h <;> cases h <;> exact .same (.refl _)
  case h_15 => -- issue
    split at h
    · cases h; exact .same (.refl _)
    · next hIssue =>
      cases h
      unfold issueCapability at hIssue
      dsimp only at hIssue
      split at hIssue
      · cases hIssue; exact .same (.of_eq rfl rfl rfl rfl rfl)
      · cases hIssue
  case h_16 => cases h

theorem hostMove_registry {a : Action} {l l' : Local} {sh sh' : Shared ι}
    (h : hostMove a l sh = some (l', sh')) : RegistryMoved env a l sh.inner sh'.inner := by
  unfold hostMove at h
  split at h
  case h_1 =>
    split at h
    · cases h; exact .same (.refl _)
    · next hPrepare =>
      cases h
      refine .same ?_
      rw [prepareHost_state hPrepare]
      exact .refl _
  case h_2 plan _ =>
    cases h
    refine .same ?_
    cases plan <;> exact .of_eq rfl rfl rfl rfl rfl
  case h_3 => cases h; exact .same (.refl _)
  case h_4 entry plan key t =>
    split at h <;> cases h
    exact .bound key entry rfl rfl
  case h_5 => cases h; exact .same (.refl _)
  case h_6 plan key t => cases h; exact .restored key t rfl rfl rfl
  case h_7 => cases h; exact .same (.refl _)
  case h_8 => cases h

theorem apply_registry (op : HostOp) (l : Local) (h : WorkbenchHostInner) :
    RegistryMoved env (.other op) l h (op.apply env h) := by
  cases op with
  | observeWorkspace root git now =>
    unfold HostOp.apply
    dsimp only
    split
    · exact .same (.refl _)
    · next hRegister => exact .registered root git now _ rfl hRegister
  | projectWorkspaces discovered index root key now w =>
    exact .kept fun hs => projectWorkspaceProjections_kept hs discovered index root key now w
  | restoreSession digest grant git now =>
    exact .kept fun hs => restoreSession_kept hs digest grant git now
  | serverStopped generation =>
    refine .same ?_
    change SameRegistry h.state (h.serverStopped generation).state
    unfold serverStopped
    split
    · split
      · exact .of_eq rfl rfl rfl rfl rfl
      · exact .refl _
    · exact .refl _
  | markHostInactive => exact .same (.of_eq rfl rfl rfl rfl rfl)
  | residency now => exact .same (.of_eq rfl rfl rfl rfl rfl)
  | setLaunchReplays replays => exact .same (.of_eq rfl rfl rfl rfl rfl)
  | manageAuthorizations pruneAt authorizations sessions store =>
    cases pruneAt <;> exact .same (.of_eq rfl rfl rfl rfl rfl)

theorem move_registry {i : ι} {a : Action} {l l' : Local} {sh sh' : Shared ι}
    (h : move env i a l sh = some (l', sh')) : RegistryMoved env a l sh.inner sh'.inner := by
  unfold move at h
  split at h
  case h_1 => cases h; exact .same (.refl _)
  case h_2 op _ =>
    split at h <;> cases h
    exact apply_registry op _ _
  case h_3 =>
    simp only [Option.or_eq_some_iff] at h
    rcases h with (h | ⟨-, h⟩) | ⟨-, h | ⟨-, h⟩⟩
    · exact .same (redeemMove_registry h).1
    · exact .same (enrollMove_registry h).1
    · exact launchMove_registry h
    · exact hostMove_registry h

theorem launchMove_issued {i : ι} {a : Action} {l l' : Local} {sh sh' : Shared ι}
    (hKeyed : sh.inner.state.workspacesByKey.All fun key w => w.key = key)
    (h : launchMove env i a l sh = some (l', sh')) {issue : Issue} (hIssue : issue ∈ sh'.issued) :
    issue ∈ sh.issued ∨ sh.inner.state.workspaceRegistrationGenerations.lookup
      issue.pending.workspaceKey = some issue.pending.workspaceRegistrationGeneration := by
  unfold launchMove at h
  split at h
  case h_15 =>
    split at h
    · cases h; exact .inl hIssue
    · next hCapability =>
      cases h
      rcases List.mem_cons.mp hIssue with rfl | hOld
      · right
        unfold issueCapability at hCapability
        dsimp only at hCapability
        split at hCapability
        · next generation host hGeneration _ =>
          cases hCapability
          obtain ⟨registered, hRegistered, hGiven⟩ := Option.bind_eq_some_iff.mp hGeneration
          rwa [hKeyed _ _ (Option.filter_eq_some_iff.mp hRegistered).1] at hGiven
        · cases hCapability
      · exact .inl hOld
  case h_10 | h_12 =>
    left
    split at h
    · cases h; exact hIssue
    · split at h <;> cases h <;> exact hIssue
  case h_1 | h_2 | h_3 | h_14 => split at h <;> cases h <;> exact .inl hIssue
  case h_4 | h_5 | h_6 | h_7 | h_8 | h_9 | h_11 | h_13 => cases h; exact .inl hIssue
  case h_16 => cases h

theorem move_issued {i : ι} {a : Action} {l l' : Local} {sh sh' : Shared ι}
    (hKeyed : sh.inner.state.workspacesByKey.All fun key w => w.key = key)
    (h : move env i a l sh = some (l', sh')) {issue : Issue} (hIssue : issue ∈ sh'.issued) :
    issue ∈ sh.issued ∨ sh.inner.state.workspaceRegistrationGenerations.lookup
      issue.pending.workspaceKey = some issue.pending.workspaceRegistrationGeneration := by
  unfold move at h
  split at h
  case h_1 => cases h; exact .inl hIssue
  case h_2 =>
    split at h <;> cases h
    exact .inl hIssue
  case h_3 =>
    simp only [Option.or_eq_some_iff] at h
    rcases h with (h | ⟨-, h⟩) | ⟨-, h | ⟨-, h⟩⟩
    · exact .inl ((redeemMove_registry h).2 ▸ hIssue)
    · exact .inl ((enrollMove_registry h).2 ▸ hIssue)
    · exact launchMove_issued hKeyed h hIssue
    · exact .inl ((hostMove_quiet h).issued ▸ hIssue)

theorem Moved.pending {a : Action} {l : Local} {sh sh' : Shared ι} (hMoved : Moved env a l sh sh')
    (h : ∀ c p, sh.pendingAt c = some p → sh.Issued c p) {c : String} {p : PendingCapability}
    (hPending : sh'.pendingAt c = some p) : sh'.Issued c p := by
  unfold Shared.Issued
  cases hMoved with
  | quiet hQuiet =>
    rw [hQuiet.issued]
    exact h c p (hQuiet.pending c p hPending)
  | signed r issuedAt hAction hSigned hState =>
    rw [hState] at hPending ⊢
    exact h c p hPending
  | issued issue hSigning hNew hSigned hIssued hExchanges =>
    rw [hIssued]
    obtain ⟨hKey, hValue⟩ | hOld := hNew c p hPending
    · exact ⟨issue, List.mem_cons_self, hKey.symm, hValue.symm⟩
    · obtain ⟨old, hMem, hOld⟩ := h c p hOld
      exact ⟨old, List.mem_cons_of_mem _ hMem, hOld⟩
  | exchanged e hFound hRest hSigned hIssued hExchanges =>
    rw [hIssued]
    exact h c p (hRest c p hPending).2

/-! ## Runs -/

def Action.eviction (env : Env) (h : WorkbenchHostInner) : Action → Option Eviction
  | .register root git now | .other (.observeWorkspace root git now) =>
    (registering env h.state root git now).map fun r => ⟨r.1, r.2.key, now⟩
  | .other (.restoreSession credentialDigest grant git now) =>
    (restoring h credentialDigest grant git now).map fun state => ⟨state, grant.workspaceKey, now⟩
  | .other (.projectWorkspaces discovered worktreeIndex currentRoot current now w) =>
    match projecting h discovered worktreeIndex currentRoot now w with
    | (h, true) => some ⟨h.state, current, now⟩
    | (_, false) => none
  | _ => none

def newGenerations (s t : WorkbenchState) : List Nat :=
  (t.workspaceRegistrationGenerations.entries.filter fun e =>
    decide (s.workspaceRegistrationGenerations.lookup e.1 ≠ some e.2)).map Sigma.snd

/-- The issued capabilities whose workspace is not registered. -/
def Shared.withdrawn (sh : Shared ι) : List PendingCapability :=
  (sh.issued.map (·.pending)).filter fun p =>
    decide (p.workspaceKey ∉ sh.inner.state.workspacesByKey)

/-- A manager and what it has done: the generations it has given out, the capabilities it has
issued whose workspace was not registered at some time since, and the evictions, those of the
managers before it included. -/
structure Registry (ι : Type) where
  system : System ι
  given : List Nat
  withdrawn : List PendingCapability
  evictions : List Eviction

inductive RegistryEvent (ι : Type)
  | act (i : ι) (a : Action)
  | reload (file : Option WorkbenchWorkspaceStoreV1) (now : Nat)

namespace Registry

def state (r : Registry ι) : WorkbenchState := r.system.shared.inner.state

def new (env : Env) (store : Authorizations) (file : Option WorkbenchWorkspaceStoreV1)
    (now : Nat) : Registry ι where
  system :=
    { shared :=
        { inner := ⟨loadedState env store file now, store, 0⟩
          gate := none
          signed := []
          issued := []
          exchanges := [] }
      thread := fun _ => .done .finished }
  given := (loadedState env store file now).workspaceRegistrationGenerations.values
  withdrawn := []
  evictions := []

variable (env) in
/-- One locked section of a thread, or a new manager over what the store and the file hold. -/
def next [DecidableEq ι] (r : Registry ι) : RegistryEvent ι → Option (Registry ι)
  | .act i a => (systemStep env r.system (i, a)).map fun system =>
    { system := system
      given := newGenerations r.state system.shared.inner.state ++ r.given
      withdrawn := system.shared.withdrawn ++ r.withdrawn
      evictions := (a.eviction env r.system.shared.inner).toList ++ r.evictions }
  | .reload file now =>
    some { new env r.system.shared.inner.store file now with evictions := r.evictions }

/-- Whoever binds an origin, or puts a binding back, finds the workspace registered, and the
counter of generations has not come to its end. -/
def inPlace (r : Registry ι) : RegistryEvent ι → Bool
  | .act _ (.bindOrigin entry) => namesRegistered r.state entry
  | .act i .restoreOrigins => (r.system.thread i).transition.all fun t =>
    t.previousBindings.all fun e => namesRegistered r.state e.2
  | .act _ a => !a.registers || decide (r.state.nextWorkspaceRegistrationGeneration < U64_MAX)
  | .reload .. => true

structure Consistent (r : Registry ι) : Prop where
  inverse : ∀ root key, r.state.workspacesByRoot.lookup root = some key ↔
    ∃ w, r.state.workspacesByKey.lookup key = some w ∧ w.key = key ∧ w.root = root
  generations : r.given.Nodup
  issued : ∀ c p, r.state.pendingCapabilities.lookup c = some p → r.system.shared.Issued c p
  withdrawn : ∀ p ∈ r.withdrawn, ∀ now, pendingCapabilityIssuanceCurrent r.state p now = false
  bindings : ∀ origin b key, r.state.originBindings.lookup origin = some b →
    b.workspaceKey = some key → key ∈ r.state.workspacesByKey
  evictions : ∀ e ∈ r.evictions, e.Sound

end Registry

/-! ## The generations given -/

/-- The list has every generation in use, none twice, and none that is still to come. -/
structure Accounted (state : WorkbenchState) (given : List Nat) : Prop where
  listed : state.workspaceRegistrationGenerations.All fun _ g => g ∈ given
  once : given.Nodup
  below : ∀ g ∈ given, g ≤ state.nextWorkspaceRegistrationGeneration

theorem newGenerations_of_kept {s t : WorkbenchState}
    (hKept : ∀ key g, t.workspaceRegistrationGenerations.lookup key = some g →
      s.workspaceRegistrationGenerations.lookup key = some g) : newGenerations s t = [] := by
  unfold newGenerations
  rw [List.map_eq_nil_iff, List.filter_eq_nil_iff]
  intro e he
  rw [decide_eq_true_eq, not_not]
  exact hKept e.1 e.2 (Table.lookup_eq_some.mpr he)

theorem newGenerations_of_numbered {s t : WorkbenchState} {new : String} {g : Nat}
    (hKept : ∀ key g', t.workspaceRegistrationGenerations.lookup key = some g' →
      s.workspaceRegistrationGenerations.lookup key = some g' ∨ key = new ∧ g' = g) :
    newGenerations s t = [] ∨ newGenerations s t = [g] := by
  unfold newGenerations
  generalize hNew : List.filter _ _ = entries
  have hNodup : entries.Nodup := by
    rw [← hNew]
    exact (List.NodupKeys.nodup t.workspaceRegistrationGenerations.nodupKeys).filter _
  have hAll : ∀ e ∈ entries, e = ⟨new, g⟩ := by
    intro e he
    rw [← hNew] at he
    obtain ⟨hEntry, hOther⟩ := List.mem_filter.mp he
    obtain hOld | ⟨hKey, hGeneration⟩ := hKept e.1 e.2 (Table.lookup_eq_some.mpr hEntry)
    · exact absurd hOld (of_decide_eq_true hOther)
    · exact Sigma.ext hKey (heq_of_eq hGeneration)
  match entries, hNodup, hAll with
  | [], _, _ => exact .inl rfl
  | [e], _, hAll =>
    rw [hAll e List.mem_cons_self]
    exact .inr rfl
  | e :: e' :: rest, hNodup, hAll =>
    have hFirst := hAll e List.mem_cons_self
    have hSecond := hAll e' (List.mem_cons_of_mem _ List.mem_cons_self)
    rw [hFirst, hSecond] at hNodup
    exact absurd List.mem_cons_self (List.nodup_cons.mp hNodup).1

theorem Accounted.step {s t : WorkbenchState} {given : List Nat} (h : Accounted s given)
    (hNumbered : Numbered s t)
    (hRoom : s.nextWorkspaceRegistrationGeneration < U64_MAX ∨ Kept s t) :
    Accounted t (newGenerations s t ++ given) ∧
      ∀ key g, g ∈ given → t.workspaceRegistrationGenerations.lookup key = some g →
        s.workspaceRegistrationGenerations.lookup key = some g := by
  have hNothing : ∀ hKept : (∀ key g, t.workspaceRegistrationGenerations.lookup key = some g →
      s.workspaceRegistrationGenerations.lookup key = some g),
      t.nextWorkspaceRegistrationGeneration = s.nextWorkspaceRegistrationGeneration →
      Accounted t (newGenerations s t ++ given) := by
    intro hKept hNext
    rw [newGenerations_of_kept hKept, List.nil_append]
    exact ⟨fun key g hg => h.listed key g (hKept key g hg), h.once,
      fun g hg => (h.below g hg).trans_eq hNext.symm⟩
  rcases hRoom with hRoom | hKept
  · cases hNumbered with
    | kept hNext hKept => exact ⟨hNothing hKept hNext, fun key g _ hg => hKept key g hg⟩
    | numbered new hNext hKept =>
      have hAbove : t.nextWorkspaceRegistrationGeneration = s.nextWorkspaceRegistrationGeneration + 1 := by
        rw [hNext]
        unfold saturatingAdd
        omega
      have hFresh : t.nextWorkspaceRegistrationGeneration ∉ given := by
        intro hOld
        have hLe := h.below _ hOld
        omega
      refine ⟨⟨fun key g hg => ?_, ?_, ?_⟩, fun key g hGiven hg => ?_⟩
      · by_cases hOld : s.workspaceRegistrationGenerations.lookup key = some g
        · exact List.mem_append_right _ (h.listed key g hOld)
        · refine List.mem_append_left _ (List.mem_map.mpr ⟨⟨key, g⟩, List.mem_filter.mpr
            ⟨Table.lookup_eq_some.mp hg, decide_eq_true hOld⟩, rfl⟩)
      · rcases newGenerations_of_numbered hKept with hNone | hOne
        · rw [hNone]
          exact h.once
        · rw [hOne]
          exact List.nodup_cons.mpr ⟨hFresh, h.once⟩
      · intro g hg
        have hOld : ∀ g ∈ given, g ≤ t.nextWorkspaceRegistrationGeneration := fun g hg =>
          (h.below g hg).trans (by omega)
        rcases newGenerations_of_numbered hKept with hNone | hOne
        · rw [hNone] at hg
          exact hOld g hg
        · rw [hOne] at hg
          rcases List.mem_cons.mp hg with rfl | hg
          · exact le_refl _
          · exact hOld g hg
      · obtain hOld | ⟨-, rfl⟩ := hKept key g hg
        · exact hOld
        · exact absurd hGiven hFresh
  · exact ⟨hNothing hKept.generations hKept.next, fun key g _ hg => hKept.generations key g hg⟩

/-! ## The invariant -/

namespace Registry

structure Invariant (r : Registry ι) : Prop where
  sound : RegistrySound r.state
  accounted : Accounted r.state r.given
  pending : ∀ c p, r.system.shared.pendingAt c = some p → r.system.shared.Issued c p
  issued : ∀ issue ∈ r.system.shared.issued, issue.pending.workspaceRegistrationGeneration ∈ r.given
  withdrawn : ∀ p ∈ r.withdrawn, p.workspaceRegistrationGeneration ∈ r.given ∧
    r.state.workspaceRegistrationGenerations.lookup p.workspaceKey ≠
      some p.workspaceRegistrationGeneration
  evictions : ∀ e ∈ r.evictions, e.Sound

theorem Invariant.consistent {r : Registry ι} (h : r.Invariant) : r.Consistent where
  inverse root key := by
    rw [h.sound.registered.inverse root key]
    refine exists_congr fun w => ⟨fun ⟨hw, hRoot⟩ => ?_, fun ⟨hw, _, hRoot⟩ => ⟨hw, hRoot⟩⟩
    exact ⟨hw, h.sound.registered.keyed key w hw, hRoot⟩
  generations := h.accounted.once
  issued := h.pending
  withdrawn p hp now := by
    unfold pendingCapabilityIssuanceCurrent
    have hOther := (h.withdrawn p hp).2
    cases r.state.workspacesByKey.lookup p.workspaceKey <;> simp [hOther]
  bindings origin b key hb hKey := namesRegistered_iff.mp (h.sound.bound origin b hb) key hKey
  evictions := h.evictions

theorem invariant_new (env : Env) (store : Authorizations) (file : Option WorkbenchWorkspaceStoreV1)
    (now : Nat) : (new env store file now : Registry ι).Invariant where
  sound := by
    have hLoaded := loaded_loadedState env store file now
    refine ⟨hLoaded.registered, fun origin b hb => ?_⟩
    change (loadedState env store file now).originBindings.lookup origin = some b at hb
    rw [hLoaded.unbound] at hb
    cases hb
  accounted := by
    have hLoaded := loaded_loadedState env store file now
    exact ⟨fun key g hg => Table.mem_values.mpr ⟨key, hg⟩, hLoaded.once, hLoaded.below⟩
  pending c p hp := by
    change (loadedState env store file now).pendingCapabilities.lookup c = some p at hp
    rw [loadedState_pendingCapabilities] at hp
    cases hp
  issued := nofun
  withdrawn := nofun
  evictions := nofun

theorem eviction_sound {a : Action} {h : WorkbenchHostInner} (hs : RegistrySound h.state)
    {e : Eviction} (he : a.eviction env h = some e) : e.Sound := by
  have hRegistering : ∀ {root : String} {git : GitSnapshot} {now : Nat},
      (registering env h.state root git now).map (fun r => (⟨r.1, r.2.key, now⟩ : Eviction)) = some e →
        e.Sound := by
    intro root git now hMap
    obtain ⟨⟨t, w⟩, hSome, rfl⟩ := Option.map_eq_some_iff.mp hMap
    exact Eviction.sound (registering_sound hs hSome).1.registered.keyed
  unfold Action.eviction at he
  split at he
  · exact hRegistering he
  · exact hRegistering he
  · obtain ⟨t, hSome, rfl⟩ := Option.map_eq_some_iff.mp he
    exact Eviction.sound (restoring_kept hs hSome).sound.registered.keyed
  · next discovered index root current now w =>
    have hKept := projecting_kept hs discovered index root now w
    split at he
    · next hProject =>
      rw [hProject] at hKept
      cases he
      exact Eviction.sound hKept.sound.registered.keyed
    · cases he
  · cases he

theorem kept_bindings {s t : WorkbenchState} (hs : RegistrySound s)
    (hRoots : t.workspacesByRoot = s.workspacesByRoot)
    (hKeys : t.workspacesByKey = s.workspacesByKey)
    (hGenerations : t.workspaceRegistrationGenerations = s.workspaceRegistrationGenerations)
    (hNext : t.nextWorkspaceRegistrationGeneration = s.nextWorkspaceRegistrationGeneration)
    (hBindings : t.originBindings.All fun _ b => namesRegistered s b = true) : Kept s t where
  sound := by
    have hSame : SameRegistry s { t with originBindings := s.originBindings } :=
      .of_eq hRoots hKeys hGenerations hNext rfl
    have hRegistered := hSame.registered hs.registered
    refine ⟨⟨hRegistered.inverse, hRegistered.keyed, hRegistered.generations⟩, fun origin b hb => ?_⟩
    have hNames := hBindings origin b hb
    unfold namesRegistered at hNames ⊢
    rwa [hKeys]
  next := hNext
  generations key g hg := by rwa [hGenerations] at hg

theorem moved_sound {r : Registry ι} {i : ι} {a : Action} {h' : WorkbenchHostInner}
    (hs : RegistrySound r.state) (hPlace : r.inPlace (.act i a) = true)
    (hMoved : RegistryMoved env a (r.system.thread i) r.system.shared.inner h') :
    RegistrySound h'.state ∧ Numbered r.state h'.state ∧
      (r.state.nextWorkspaceRegistrationGeneration < U64_MAX ∨ Kept r.state h'.state) := by
  have hKeeps : Kept r.state h'.state → RegistrySound h'.state ∧ Numbered r.state h'.state ∧
      (r.state.nextWorkspaceRegistrationGeneration < U64_MAX ∨ Kept r.state h'.state) := fun hKept =>
    ⟨hKept.sound, .kept hKept.next hKept.generations, .inr hKept⟩
  have hDropped : ∀ key entry, (dropConflicting r.state key entry).originBindings.All
      fun _ b => namesRegistered r.state b = true := fun key entry => hs.bound.retain _
  cases hMoved with
  | kept hKept => exact hKeeps (hKept hs)
  | bound key entry hAction hState =>
    subst hAction
    rw [hState] at hKeeps ⊢
    exact hKeeps (kept_bindings hs rfl rfl rfl rfl ((hDropped key entry).insert hPlace))
  | restored key t hAction hLocal hState =>
    subst hAction
    rw [hState] at hKeeps ⊢
    refine hKeeps (kept_bindings hs rfl rfl rfl rfl ((hDropped key t.entry).extend fun e he => ?_))
    dsimp only [inPlace] at hPlace
    rw [hLocal, Option.all_some, List.all_eq_true] at hPlace
    exact hPlace e he
  | registered root git now w hAction hState =>
    obtain ⟨hSound, hNumbered⟩ := registerWorkspaceWithGit_sound hs hState
    refine ⟨hSound, hNumbered, .inl ?_⟩
    unfold inPlace at hPlace
    split at hPlace
    · next hEvent => cases hEvent; cases hAction
    · next hEvent => cases hEvent; cases hAction
    · next hEvent =>
      cases hEvent
      rwa [hAction, Bool.not_true, Bool.false_or, decide_eq_true_eq] at hPlace
    · next hEvent => cases hEvent

variable [DecidableEq ι]

theorem Invariant.act {r : Registry ι} {i : ι} {a : Action} {system : System ι} (h : r.Invariant)
    (hPlace : r.inPlace (.act i a) = true) (hStep : systemStep env r.system (i, a) = some system) :
    Invariant
      { system := system
        given := newGenerations r.state system.shared.inner.state ++ r.given
        withdrawn := system.shared.withdrawn ++ r.withdrawn
        evictions := (a.eviction env r.system.shared.inner).toList ++ r.evictions } := by
  obtain ⟨l', sh', hMove, rfl⟩ := Lib.Interleaving.step_eq_some.mp hStep
  obtain ⟨hSound, hNumbered, hRoom⟩ := moved_sound h.sound hPlace (move_registry hMove)
  obtain ⟨hAccounted, hOld⟩ := h.accounted.step hNumbered hRoom
  have hIssued : ∀ issue ∈ sh'.issued, issue.pending.workspaceRegistrationGeneration ∈
      newGenerations r.state sh'.inner.state ++ r.given := by
    intro issue hIssue
    refine List.mem_append_right _ ?_
    rcases move_issued h.sound.registered.keyed hMove hIssue with hBefore | hNew
    · exact h.issued issue hBefore
    · exact h.accounted.listed _ _ hNew
  refine ⟨hSound, hAccounted, fun c p hp => (move_moved hMove).pending h.pending hp, hIssued,
    fun p hp => ?_, fun e he => ?_⟩
  · rcases List.mem_append.mp hp with hNow | hBefore
    · obtain ⟨hMem, hGone⟩ := List.mem_filter.mp hNow
      obtain ⟨issue, hIssue, rfl⟩ := List.mem_map.mp hMem
      exact ⟨hIssued issue hIssue, fun hLookup =>
        of_decide_eq_true hGone (hSound.registered.generations _ _ hLookup)⟩
    · obtain ⟨hGiven, hOther⟩ := h.withdrawn p hBefore
      exact ⟨List.mem_append_right _ hGiven, fun hLookup => hOther (hOld _ _ hGiven hLookup)⟩
  · rcases List.mem_append.mp he with hNow | hBefore
    · exact eviction_sound h.sound (Option.mem_toList.mp hNow)
    · exact h.evictions e hBefore

theorem Invariant.next {r r' : Registry ι} {e : RegistryEvent ι} (h : r.Invariant)
    (hPlace : r.inPlace e = true) (hNext : r.next env e = some r') : r'.Invariant := by
  cases e with
  | act i a =>
    obtain ⟨system, hStep, rfl⟩ := Option.map_eq_some_iff.mp hNext
    exact h.act hPlace hStep
  | reload file now =>
    cases hNext
    have hNew := invariant_new (ι := ι) env r.system.shared.inner.store file now
    exact ⟨hNew.sound, hNew.accounted, hNew.pending, hNew.issued, hNew.withdrawn, h.evictions⟩

/-- The registry is consistent as long as bindings are made in place. -/
theorem consistent_while_in_place (env : Env) (store : Authorizations)
    (file : Option WorkbenchWorkspaceStoreV1) (now : Nat) {events : List (RegistryEvent ι)}
    {r : Registry ι}
    (hPlace : Lib.Along (Registry.next env) (fun r e => r.inPlace e = true)
      (new env store file now) events)
    (hRun : Lib.run (Registry.next env) (new env store file now) events = some r) : r.Consistent :=
  (Lib.invariant_of_along (fun _ _ _ h hPlace hNext => h.next hPlace hNext)
    (invariant_new env store file now) hPlace hRun).consistent

end Registry

/-! ## A worktree that goes while its launch waits -/

def launchEntry : WorkbenchEntryBinding := ⟨.published, "https://exo", some "instance", some "/a"⟩

def noGit : GitSnapshot := ⟨none, none, none⟩

/-- A launch at `/a` is registered and waits for the gate. -/
def launchWaits : List (RegistryEvent Bool) :=
  [.act true (.call .launch), .act true (.register "/a" noGit 0)]

/-- The worktree `/a` is gone when the projections of `/b` are next asked for. -/
def worktreeGoes : List (RegistryEvent Bool) :=
  [.act false (.other (.observeWorkspace "/b" noGit 0)),
    .act false (.other (.projectWorkspaces [] (some ["/b"]) (some "/b") "/b" 0 .done))]

/-- The launch binds its origin and comes to the issue of its capability. -/
def launchGoesOn : List (RegistryEvent Bool) :=
  [.act true .acquire, .act true (.prepare "http://localhost" []),
    .act true (.recordTransition "/a" launchEntry),
    .act true (.reconcilePublished launchEntry 0 .done), .act true (.bindOrigin launchEntry),
    .act true .ensureStarted, .act true (.resolve launchEntry), .act true (.reconcile none 0 .done),
    .act true (.sign "capability" 0), .act true .issue]

def Local.outcome : Local → Option Outcome
  | .done o => some o
  | _ => none

/-- The launch has failed, and its origin stays bound to a workspace that is not registered. -/
theorem removed_workspace_stays_bound : ∃ r : Registry Bool,
    Lib.run (Registry.next plainEnv) (Registry.new plainEnv ⟨∅, ∅, ∅⟩ none 0)
      (launchWaits ++ worktreeGoes ++ launchGoesOn) = some r ∧
        (r.system.thread true).outcome = some .failed ∧ ¬ r.Consistent := by
  have hBound : (Lib.run (Registry.next plainEnv) (Registry.new plainEnv ⟨∅, ∅, ∅⟩ none 0)
      (launchWaits ++ worktreeGoes ++ launchGoesOn)).map (fun r =>
        ((r.system.thread true).outcome, r.state.originBindings.lookup "https://exo",
          decide ("/a" ∈ r.state.workspacesByKey))) =
      some (some .failed, some launchEntry, false) := by
    decide +kernel
  obtain ⟨r, hRun, hState⟩ := Option.map_eq_some_iff.mp hBound
  obtain ⟨hFailed, hRest⟩ := Prod.mk.inj hState
  obtain ⟨hBinding, hGone⟩ := Prod.mk.inj hRest
  refine ⟨r, hRun, hFailed, fun h => ?_⟩
  exact of_decide_eq_false hGone (h.bindings _ _ "/a" hBinding rfl)

theorem consistent_while_in_place_sample : ∃ r : Registry Bool,
    Lib.run (Registry.next plainEnv) (Registry.new plainEnv ⟨∅, ∅, ∅⟩ none 0)
      (launchWaits ++ launchGoesOn ++ worktreeGoes) = some r ∧ r.Consistent := by
  have hPlace : Lib.check (Registry.next plainEnv) Registry.inPlace
      (Registry.new plainEnv ⟨∅, ∅, ∅⟩ none 0) (launchWaits ++ launchGoesOn ++ worktreeGoes) = true := by
    decide +kernel
  have hRuns : (Lib.run (Registry.next plainEnv) (Registry.new plainEnv ⟨∅, ∅, ∅⟩ none 0)
      (launchWaits ++ launchGoesOn ++ worktreeGoes)).isSome = true := by
    decide +kernel
  obtain ⟨r, hRun⟩ := Option.isSome_iff_exists.mp hRuns
  exact ⟨r, hRun, Registry.consistent_while_in_place plainEnv ⟨∅, ∅, ∅⟩ none 0
    (Lib.along_of_check hPlace) hRun⟩

end Exosuit.Workbench
