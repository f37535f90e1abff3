import Exosuit.Workbench.System

/-!
# What one step can do

Every step either only loses pending capabilities, or signs a ticket, or issues a
capability, or completes an exchange.
-/

namespace Exosuit.Workbench

open Lib (Table)
open WorkbenchHostInner

variable {ι : Type} {env : Env}

def Shared.pendingAt (sh : Shared ι) (c : String) : Option PendingCapability :=
  sh.inner.state.pendingCapabilities.lookup c

namespace Local

def holdsGate : Local → Bool
  | redeemGated _ | redeemInserted _ | redeemPersisted _ | redeemUnpersisted _ => true
  | enrollGated .. => true
  | launchGated _ | launchResolving .. | launchResolved .. | launchReconciled .. => true
  | launchFailing .. | launchSigning .. | launchSigned .. => true
  | _ => false

/-- The verified ticket a thread carries. -/
def presented : Local → Option Presented
  | redeemVerified p | redeemGated p => some p
  | redeemInserted r | redeemPersisted r | redeemUnpersisted r => some r.toPresented
  | enrollVerified p _ _ | enrollGated p _ _ => some p
  | _ => none

def redemption : Local → Option Redemption
  | redeemInserted r | redeemPersisted r | redeemUnpersisted r => some r
  | _ => none

def signing : Local → Option (String × Ticket)
  | launchSigned _ _ _ capabilityId _ ticket => some (capabilityId, ticket)
  | _ => none

/-- The ticket of an exchange that has been called and not verified. -/
def called : Local → Option Ticket
  | redeemCalled ticket | enrollCalled ticket _ _ => some ticket
  | _ => none

end Local

def SignedTicket.WellSigned (env : Env) (r : SignedTicket) : Prop :=
  ∃ workspaceKey entry issuedAt,
    launchTicket env r.secret workspaceKey entry r.capabilityId issuedAt = some r.ticket ∧
      r.payload = signedPayload env workspaceKey entry r.capabilityId issuedAt

/-- The run's record is as before, up to pending capabilities that are gone. -/
structure Quiet (sh sh' : Shared ι) : Prop where
  pending : ∀ c p, sh'.pendingAt c = some p → sh.pendingAt c = some p
  signed : sh'.signed = sh.signed
  issued : sh'.issued = sh.issued
  exchanges : sh'.exchanges = sh.exchanges

inductive Moved (env : Env) (a : Action) (l : Local) (sh sh' : Shared ι) : Prop
  | quiet (h : Quiet sh sh')
  | signed (r : SignedTicket) (issuedAt : Nat) (hAction : a = .sign r.capabilityId issuedAt)
      (hSigned : r.WellSigned env)
      (h : sh' = { sh with signed := r :: sh.signed })
  | issued (issue : Issue) (hSigning : l.signing = some (issue.capabilityId, issue.ticket))
      (hPending : ∀ c p, sh'.pendingAt c = some p →
        (c = issue.capabilityId ∧ p = issue.pending) ∨ sh.pendingAt c = some p)
      (hSigned : sh'.signed = sh.signed) (hIssued : sh'.issued = issue :: sh.issued)
      (hExchanges : sh'.exchanges = sh.exchanges)
  | exchanged (e : Exchange)
      (hFound : (∃ r, l = .redeemPersisted r ∧
          e = ⟨r.ticket, r.payload.capabilityId, r.now, r.before, r.pending⟩) ∨
        ∃ p presentedPairing tokens, l = .enrollGated p presentedPairing tokens ∧
          matchingPending (enrollPruned sh.inner.state p.now) p.payload p.now = some e.pending ∧
          e = ⟨p.ticket, p.payload.capabilityId, p.now, sh.inner.state, e.pending⟩)
      (hPending : ∀ c p, sh'.pendingAt c = some p →
        c ≠ e.capabilityId ∧ sh.pendingAt c = some p)
      (hSigned : sh'.signed = sh.signed) (hIssued : sh'.issued = sh.issued)
      (hExchanges : sh'.exchanges = sh.exchanges ++ [e])

theorem Quiet.refl (sh : Shared ι) : Quiet sh sh := ⟨fun _ _ => id, rfl, rfl, rfl⟩

theorem Quiet.of_eq {sh sh' : Shared ι}
    (hPending : sh'.inner.state.pendingCapabilities = sh.inner.state.pendingCapabilities)
    (hSigned : sh'.signed = sh.signed) (hIssued : sh'.issued = sh.issued)
    (hExchanges : sh'.exchanges = sh.exchanges) : Quiet sh sh' where
  pending c p h := by rwa [Shared.pendingAt, hPending] at h
  signed := hSigned
  issued := hIssued
  exchanges := hExchanges

theorem matchingPending_eq_some {state : WorkbenchState} {payload : VerifiedWorkbenchTicket}
    {now : Nat} {p : PendingCapability} (h : matchingPending state payload now = some p) :
    state.pendingCapabilities.lookup payload.capabilityId = some p ∧
      p.workspaceKey = payload.workspaceKey ∧ p.entry = payload.entry ∧
      p.expiresAt = payload.expiresAt ∧ pendingCapabilityIssuanceCurrent state p now = true := by
  unfold matchingPending at h
  rw [Option.filter_eq_some_iff] at h
  simpa [and_assoc] using h

theorem redeemable_eq_ok {state : WorkbenchState} {payload : VerifiedWorkbenchTicket} {now : Nat}
    {rootValid : Bool} {tokens : Option RedeemTokens} {r : PendingCapability × RedeemTokens}
    (h : redeemable state payload now rootValid tokens = .ok r) :
    matchingPending state payload now = some r.1 := by
  unfold redeemable at h
  split at h
  · cases h
  · split at h
    · next hMatch => cases h; exact hMatch
    · cases h

theorem enrollmentFor_pending {state : WorkbenchState} {payload : VerifiedWorkbenchTicket}
    {pending : PendingCapability} {presentedPairing : Option (String × String)} {now : Nat}
    {tokens : EnrollTokens} {e : Enrollment}
    (h : enrollmentFor env state payload pending presentedPairing now tokens = .ok e) :
    e.pending = pending := by
  unfold enrollmentFor at h
  simp only at h
  split at h
  · cases h
  · cases h; rfl

theorem enrollable_eq_ok {state : WorkbenchState} {payload : VerifiedWorkbenchTicket}
    {presentedPairing : Option (String × String)} {now : Nat} {rootValid : Bool}
    {tokens : EnrollTokens} {e : Enrollment}
    (h : enrollable env state payload presentedPairing now rootValid tokens = .ok e) :
    matchingPending state payload now = some e.pending := by
  unfold enrollable at h
  split at h
  · cases h
  · split at h
    · cases h
    · next hMatch =>
      split at h
      · rw [hMatch, enrollmentFor_pending h]
      · cases h

theorem lookup_spendCapability {state : WorkbenchState} {c c' : String} {p : PendingCapability}
    (h : (spendCapability state c).pendingCapabilities.lookup c' = some p) :
    c' ≠ c ∧ state.pendingCapabilities.lookup c' = some p := by
  change (AList.erase c state.pendingCapabilities).lookup c' = some p at h
  rw [Lib.Table.lookup_erase] at h
  split at h
  · cases h
  · next hne => exact ⟨hne, h⟩

theorem issueCapability_eq_some {state state' : WorkbenchState} {workspace : WorkspaceRegistration}
    {entry : WorkbenchEntryBinding} {generation : Nat} {capabilityId : String} {issuedAt : Nat}
    {pending : PendingCapability}
    (h : issueCapability state workspace entry generation capabilityId issuedAt =
      some (state', pending)) {c : String} {p : PendingCapability}
    (hLookup : state'.pendingCapabilities.lookup c = some p) :
    (c = capabilityId ∧ p = pending) ∨ state.pendingCapabilities.lookup c = some p := by
  unfold issueCapability at h
  simp only at h
  split at h
  · cases h
    rw [Lib.Table.lookup_insert] at hLookup
    split at hLookup
    · next hEq => cases hLookup; exact .inl ⟨hEq, rfl⟩
    · exact .inr (lookup_retainLivePendingCapabilities.mp hLookup).1
  · cases h

/-! ## The threads' moves -/

theorem lookupSection_quiet (p : Presented) (rootValid : Bool) (tokens : Option RedeemTokens)
    (sh : Shared ι) : Quiet sh (lookupSection env p rootValid tokens sh).2 := by
  have hPruned : ∀ c q, (redeemPruned sh.inner.state p.now).pendingCapabilities.lookup c = some q →
      sh.pendingAt c = some q := fun c q h => (lookup_retainLivePendingCapabilities.mp h).1
  unfold lookupSection
  simp only
  split
  · exact ⟨hPruned, rfl, rfl, rfl⟩
  · exact ⟨hPruned, rfl, rfl, rfl⟩

theorem redeemMove_moved {i : ι} {a : Action} {l l' : Local} {sh sh' : Shared ι}
    (h : redeemMove env i a l sh = some (l', sh')) : Moved env a l sh sh' := by
  unfold redeemMove at h
  split at h
  case h_1 =>
    apply Moved.quiet
    split at h
    · cases h; exact .refl sh
    · split at h <;> cases h <;> exact .refl sh
  case h_2 =>
    apply Moved.quiet
    split at h <;> cases h
    exact .of_eq rfl rfl rfl rfl
  case h_3 =>
    obtain rfl := congrArg Prod.snd (Option.some.inj h)
    exact .quiet (lookupSection_quiet ..)
  case h_4 =>
    cases h
    exact .quiet (.of_eq (by simp) rfl rfl rfl)
  case h_5 _ r =>
    cases h
    exact .exchanged _ (.inl ⟨r, rfl, rfl⟩) (fun c p hp => lookup_spendCapability hp) rfl rfl rfl
  case h_6 =>
    cases h
    exact .quiet (.of_eq rfl rfl rfl rfl)
  case h_7 => cases h

theorem enrollSection_moved (p : Presented) (presentedPairing : Option (String × String))
    (tokens : EnrollTokens) (rootValid : Bool) (w : StoreWrite) (a : Action) (sh : Shared ι) :
    Moved env a (.enrollGated p presentedPairing tokens) sh
      (enrollSection env p presentedPairing tokens rootValid w sh).2 := by
  have hPruned : ∀ c q, (enrollPruned sh.inner.state p.now).pendingCapabilities.lookup c = some q →
      sh.pendingAt c = some q := fun c q h => (lookup_retainLivePendingCapabilities.mp h).1
  unfold enrollSection
  simp only
  split
  · exact .quiet ⟨hPruned, rfl, rfl, rfl⟩
  · next e hOk =>
    cases w with
    | done =>
      refine .exchanged _ (.inr ⟨p, presentedPairing, tokens, rfl, enrollable_eq_ok hOk, rfl⟩)
        (fun c q hq => ?_) rfl rfl rfl
      obtain ⟨hne, hq⟩ := lookup_spendCapability hq
      exact ⟨hne, hPruned c q hq⟩
    | refused => exact .quiet ⟨hPruned, rfl, rfl, rfl⟩
    | lateError => exact .quiet ⟨hPruned, rfl, rfl, rfl⟩

theorem enrollMove_moved {i : ι} {a : Action} {l l' : Local} {sh sh' : Shared ι}
    (h : enrollMove env i a l sh = some (l', sh')) : Moved env a l sh sh' := by
  unfold enrollMove at h
  split at h
  case h_1 =>
    apply Moved.quiet
    split at h
    · split at h <;> cases h <;> exact .refl sh
    · cases h; exact .refl sh
  case h_2 =>
    apply Moved.quiet
    split at h <;> cases h
    exact .of_eq rfl rfl rfl rfl
  case h_3 =>
    obtain rfl := congrArg Prod.snd (Option.some.inj h)
    exact enrollSection_moved ..
  case h_4 => cases h

theorem launchMove_moved {i : ι} {a : Action} {l l' : Local} {sh sh' : Shared ι}
    (h : launchMove env i a l sh = some (l', sh')) : Moved env a l sh sh' := by
  unfold launchMove at h
  split at h
  case h_1 => -- register
    apply Moved.quiet
    split at h
    · cases h; exact .refl sh
    · next hRegister =>
      cases h
      exact .of_eq (registerWorkspaceWithGit_pendingCapabilities hRegister) rfl rfl rfl
  case h_2 => -- acquire
    apply Moved.quiet
    split at h <;> cases h
    exact .of_eq rfl rfl rfl rfl
  case h_3 => -- prepare
    apply Moved.quiet
    split at h
    · cases h; exact .of_eq rfl rfl rfl rfl
    · next hPrepare => cases h; exact .of_eq (by rw [prepareHost_state hPrepare]) rfl rfl rfl
  case h_4 => -- record a transition
    cases h
    exact .quiet (.refl sh)
  case h_5 => -- move published pairings
    cases h
    exact .quiet (.of_eq (reconcilePublishedWorkspaceMove_pendingCapabilities ..) rfl rfl rfl)
  case h_6 => -- bind the origin
    cases h
    exact .quiet (.of_eq rfl rfl rfl rfl)
  case h_7 => -- start the host
    cases h
    exact .quiet (.of_eq (startHostPlan_pendingCapabilities ..) rfl rfl rfl)
  case h_8 => -- resolved
    cases h
    exact .quiet (.refl sh)
  case h_9 => -- failed without a transition
    cases h
    exact .quiet (.of_eq rfl rfl rfl rfl)
  case h_10 w _ _ transition => -- failed with one
    apply Moved.quiet
    split at h
    · cases h; exact .refl sh
    · next rollback _ =>
      have hPending := restorePublishedWorkspaceMove_pendingCapabilities sh.inner rollback w
      split at h <;>
      · next hRestore =>
        cases h
        rw [hRestore] at hPending
        exact .of_eq hPending rfl rfl rfl
  case h_11 => -- bindings restored
    cases h
    exact .quiet (.of_eq rfl rfl rfl rfl)
  case h_12 index now w workspace plan entry => -- direct move
    apply Moved.quiet
    split at h
    · cases h; exact .refl sh
    · have hPending := reconcileDirectWorkspaceMove_pendingCapabilities sh.inner workspace index now w
      split at h <;>
      · next hReconcile =>
        cases h
        rw [hReconcile] at hPending
        exact .of_eq hPending rfl rfl rfl
  case h_13 => -- bindings released
    cases h
    exact .quiet (.of_eq rfl rfl rfl rfl)
  case h_14 capabilityId issuedAt workspace plan entry => -- sign
    split at h
    · cases h; exact .quiet (.of_eq rfl rfl rfl rfl)
    · next ticket hTicket =>
      cases h
      exact .signed _ issuedAt rfl ⟨workspace.key, entry, issuedAt, hTicket, rfl⟩ rfl
  case h_15 workspace plan entry capabilityId issuedAt ticket => -- issue
    split at h
    · cases h; exact .quiet (.of_eq rfl rfl rfl rfl)
    · next state pending hIssue =>
      cases h
      exact .issued ⟨ticket, capabilityId, pending⟩ rfl
        (fun c p hp => issueCapability_eq_some hIssue hp) rfl rfl rfl
  case h_16 => cases h

theorem hostMove_quiet {a : Action} {l l' : Local} {sh sh' : Shared ι}
    (h : hostMove a l sh = some (l', sh')) : Quiet sh sh' := by
  unfold hostMove at h
  split at h
  case h_1 =>
    split at h
    · cases h; exact .refl sh
    · next hPrepare => cases h; exact .of_eq (by rw [prepareHost_state hPrepare]) rfl rfl rfl
  case h_2 => cases h; exact .of_eq (startHostPlan_pendingCapabilities ..) rfl rfl rfl
  case h_3 => cases h; exact .refl sh
  case h_4 =>
    split at h <;> cases h
    exact .of_eq rfl rfl rfl rfl
  case h_5 => cases h; exact .refl sh
  case h_6 => cases h; exact .of_eq rfl rfl rfl rfl
  case h_7 => cases h; exact .refl sh
  case h_8 => cases h

theorem apply_quiet (op : HostOp) (sh : Shared ι) :
    Quiet sh { sh with inner := op.apply env sh.inner } := by
  refine ⟨fun c p hp => ?_, rfl, rfl, rfl⟩
  change (op.apply env sh.inner).state.pendingCapabilities.lookup c = some p at hp
  change sh.inner.state.pendingCapabilities.lookup c = some p
  cases op with
  | observeWorkspace root git now =>
    rcases hRegister : registerWorkspaceWithGit env sh.inner.state root git now with _ | ⟨state, _⟩
    · simpa [HostOp.apply, hRegister] using hp
    · rw [← registerWorkspaceWithGit_pendingCapabilities hRegister]
      simpa [HostOp.apply, hRegister] using hp
  | projectWorkspaces discovered index root key now w => simpa [HostOp.apply] using hp
  | restoreSession digest grant git now => simpa [HostOp.apply] using hp
  | serverStopped generation => simpa [HostOp.apply] using hp
  | markHostInactive => exact hp
  | residency now => exact (lookup_retainLivePendingCapabilities.mp hp).1
  | setLaunchReplays replays => exact hp
  | manageAuthorizations pruneAt authorizations sessions store =>
    cases pruneAt with
    | none => exact hp
    | some now => exact (lookup_retainLivePendingCapabilities.mp hp).1

theorem move_moved {i : ι} {a : Action} {l l' : Local} {sh sh' : Shared ι}
    (h : move env i a l sh = some (l', sh')) : Moved env a l sh sh' := by
  unfold move at h
  split at h
  case h_1 => cases h; exact .quiet (.refl sh)
  case h_2 op _ =>
    split at h <;> cases h
    exact .quiet (apply_quiet op sh)
  case h_3 =>
    simp only [Option.or_eq_some_iff] at h
    rcases h with (h | ⟨-, h⟩) | ⟨-, h | ⟨-, h⟩⟩
    · exact redeemMove_moved h
    · exact enrollMove_moved h
    · exact launchMove_moved h
    · exact .quiet (hostMove_quiet h)

/-! ## Where the moving thread stands -/

/-- A thread keeps what it holds of the gate, takes the gate when it is free, or gives it back. -/
inductive GateMove (i : ι) (l l' : Local) (g g' : Option ι) : Prop
  | keep (hLocal : l'.holdsGate = l.holdsGate) (hGate : g' = g)
  | acquire (hFree : g = none) (hLocal : l'.holdsGate = true) (hGate : g' = some i)
  | release (hHeld : l.holdsGate = true) (hLocal : l'.holdsGate = false) (hGate : g' = none)

/-- What the thread carries after its step, and where it has it from. -/
inductive Carried (env : Env) (a : Action) (l l' : Local) (sh sh' : Shared ι) : Prop
  | nothing (hPresented : l'.presented = none) (hRedemption : l'.redemption = none)
      (hSigning : l'.signing = none)
  | same (hPresented : l'.presented = l.presented) (hRedemption : l'.redemption = l.redemption)
      (hSigning : l'.signing = none) (hExchanges : sh'.exchanges = sh.exchanges)
  | verified (p : Presented) (hCalled : l.called = some p.ticket) (verifiedAt : Nat)
      (hVerify : env.verifyTicket sh.inner.state.host p.ticket verifiedAt = .ok p.payload)
      (hPresented : l'.presented = some p) (hRedemption : l'.redemption = none)
      (hSigning : l'.signing = none)
  | inserted (r : Redemption) (hGated : l = .redeemGated r.toPresented)
      (hBefore : r.before = sh.inner.state)
      (hMatch : matchingPending (redeemPruned sh.inner.state r.now) r.payload r.now = some r.pending)
      (hLocal : l' = .redeemInserted r) (hExchanges : sh'.exchanges = sh.exchanges)
  | signed (r : SignedTicket) (issuedAt : Nat) (hAction : a = .sign r.capabilityId issuedAt)
      (hPresented : l'.presented = none) (hRedemption : l'.redemption = none)
      (hSigning : l'.signing = some (r.capabilityId, r.ticket))
      (hShared : sh' = { sh with signed := r :: sh.signed })

theorem redeemMove_gate {i : ι} {a : Action} {l l' : Local} {sh sh' : Shared ι}
    (h : redeemMove env i a l sh = some (l', sh')) : GateMove i l l' sh.gate sh'.gate := by
  unfold redeemMove at h
  split at h
  case h_1 =>
    split at h
    · cases h; exact .keep rfl rfl
    · split at h <;> cases h <;> exact .keep rfl rfl
  case h_2 =>
    split at h <;> cases h
    next hFree => exact .acquire (Option.isNone_iff_eq_none.mp hFree) rfl rfl
  case h_3 =>
    unfold lookupSection at h
    simp only at h
    split at h <;> cases h
    · exact .release rfl rfl rfl
    · exact .keep rfl rfl
  case h_4 w _ =>
    cases h
    cases w <;> exact .keep rfl rfl
  case h_5 => cases h; exact .release rfl rfl rfl
  case h_6 => cases h; exact .release rfl rfl rfl
  case h_7 => cases h

theorem enrollMove_gate {i : ι} {a : Action} {l l' : Local} {sh sh' : Shared ι}
    (h : enrollMove env i a l sh = some (l', sh')) : GateMove i l l' sh.gate sh'.gate := by
  unfold enrollMove at h
  split at h
  case h_1 =>
    split at h
    · split at h <;> cases h <;> exact .keep rfl rfl
    · cases h; exact .keep rfl rfl
  case h_2 =>
    split at h <;> cases h
    next hFree => exact .acquire (Option.isNone_iff_eq_none.mp hFree) rfl rfl
  case h_3 w _ _ _ =>
    unfold enrollSection at h
    simp only at h
    split at h
    · cases h; exact .release rfl rfl rfl
    · cases w <;> cases h <;> exact .release rfl rfl rfl
  case h_4 => cases h

theorem launchMove_gate {i : ι} {a : Action} {l l' : Local} {sh sh' : Shared ι}
    (h : launchMove env i a l sh = some (l', sh')) : GateMove i l l' sh.gate sh'.gate := by
  unfold launchMove at h
  split at h
  case h_1 => split at h <;> cases h <;> exact .keep rfl rfl
  case h_2 =>
    split at h <;> cases h
    next hFree => exact .acquire (Option.isNone_iff_eq_none.mp hFree) rfl rfl
  case h_10 =>
    split at h
    · cases h; exact .keep rfl rfl
    · split at h <;> cases h
      · exact .release rfl rfl rfl
      · exact .keep rfl rfl
  case h_12 =>
    split at h
    · cases h; exact .keep rfl rfl
    · split at h <;> cases h
      · exact .release rfl rfl rfl
      · exact .keep rfl rfl
  case h_3 | h_14 =>
    split at h <;> cases h
    · exact .release rfl rfl rfl
    · exact .keep rfl rfl
  case h_15 => split at h <;> cases h <;> exact .release rfl rfl rfl
  case h_4 | h_5 | h_6 | h_7 | h_8 | h_13 => cases h; exact .keep rfl rfl
  case h_9 | h_11 => cases h; exact .release rfl rfl rfl
  case h_16 => cases h

theorem hostMove_gate {i : ι} {a : Action} {l l' : Local} {sh sh' : Shared ι}
    (h : hostMove a l sh = some (l', sh')) : GateMove i l l' sh.gate sh'.gate := by
  unfold hostMove at h
  split at h
  case h_1 | h_4 => split at h <;> cases h <;> exact .keep rfl rfl
  case h_2 | h_3 | h_5 | h_6 | h_7 => cases h; exact .keep rfl rfl
  case h_8 => cases h

theorem move_gate {i : ι} {a : Action} {l l' : Local} {sh sh' : Shared ι}
    (h : move env i a l sh = some (l', sh')) : GateMove i l l' sh.gate sh'.gate := by
  unfold move at h
  split at h
  case h_1 c _ => cases h; cases c <;> exact .keep rfl rfl
  case h_2 => split at h <;> cases h; exact .keep rfl rfl
  case h_3 =>
    simp only [Option.or_eq_some_iff] at h
    rcases h with (h | ⟨-, h⟩) | ⟨-, h | ⟨-, h⟩⟩
    · exact redeemMove_gate h
    · exact enrollMove_gate h
    · exact launchMove_gate h
    · exact hostMove_gate h

theorem redeemMove_carried {i : ι} {a : Action} {l l' : Local} {sh sh' : Shared ι}
    (h : redeemMove env i a l sh = some (l', sh')) : Carried env a l l' sh sh' := by
  unfold redeemMove at h
  split at h
  case h_1 =>
    split at h
    · cases h; exact .nothing rfl rfl rfl
    · next hVerify =>
      split at h <;> cases h
      · exact .verified _ rfl _ hVerify rfl rfl rfl
      · exact .nothing rfl rfl rfl
  case h_2 => split at h <;> cases h; exact .same rfl rfl rfl rfl
  case h_3 =>
    unfold lookupSection at h
    simp only at h
    split at h
    · cases h; exact .nothing rfl rfl rfl
    · next hOk => cases h; exact .inserted _ rfl rfl (redeemable_eq_ok hOk) rfl rfl
  case h_4 w _ => cases h; cases w <;> exact .same rfl rfl rfl rfl
  case h_5 => cases h; exact .nothing rfl rfl rfl
  case h_6 => cases h; exact .nothing rfl rfl rfl
  case h_7 => cases h

theorem enrollMove_carried {i : ι} {a : Action} {l l' : Local} {sh sh' : Shared ι}
    (h : enrollMove env i a l sh = some (l', sh')) : Carried env a l l' sh sh' := by
  unfold enrollMove at h
  split at h
  case h_1 =>
    split at h
    · next hVerify =>
      split at h <;> cases h
      · exact .verified _ rfl _ hVerify rfl rfl rfl
      · exact .nothing rfl rfl rfl
    · cases h; exact .nothing rfl rfl rfl
  case h_2 => split at h <;> cases h; exact .same rfl rfl rfl rfl
  case h_3 w _ _ _ =>
    unfold enrollSection at h
    simp only at h
    split at h
    · cases h; exact .nothing rfl rfl rfl
    · cases w <;> cases h <;> exact .nothing rfl rfl rfl
  case h_4 => cases h

theorem launchMove_carried {i : ι} {a : Action} {l l' : Local} {sh sh' : Shared ι}
    (h : launchMove env i a l sh = some (l', sh')) : Carried env a l l' sh sh' := by
  unfold launchMove at h
  split at h
  case h_14 =>
    split at h <;> cases h
    · exact .nothing rfl rfl rfl
    · exact .signed _ _ rfl rfl rfl rfl rfl
  case h_10 | h_12 =>
    split at h
    · cases h; exact .nothing rfl rfl rfl
    · split at h <;> cases h <;> exact .nothing rfl rfl rfl
  case h_1 | h_2 | h_3 | h_15 => split at h <;> cases h <;> exact .nothing rfl rfl rfl
  case h_4 | h_5 | h_6 | h_7 | h_8 | h_9 | h_11 | h_13 => cases h; exact .nothing rfl rfl rfl
  case h_16 => cases h

theorem hostMove_carried {a : Action} {l l' : Local} {sh sh' : Shared ι}
    (h : hostMove a l sh = some (l', sh')) : Carried env a l l' sh sh' := by
  unfold hostMove at h
  split at h
  case h_1 | h_4 => split at h <;> cases h <;> exact .nothing rfl rfl rfl
  case h_2 | h_3 | h_5 | h_6 | h_7 => cases h; exact .nothing rfl rfl rfl
  case h_8 => cases h

theorem move_carried {i : ι} {a : Action} {l l' : Local} {sh sh' : Shared ι}
    (h : move env i a l sh = some (l', sh')) : Carried env a l l' sh sh' := by
  unfold move at h
  split at h
  case h_1 c _ => cases h; cases c <;> exact .nothing rfl rfl rfl
  case h_2 => split at h <;> cases h; exact .nothing rfl rfl rfl
  case h_3 =>
    simp only [Option.or_eq_some_iff] at h
    rcases h with (h | ⟨-, h⟩) | ⟨-, h | ⟨-, h⟩⟩
    · exact redeemMove_carried h
    · exact enrollMove_carried h
    · exact launchMove_carried h
    · exact hostMove_carried h

end Exosuit.Workbench
