import Exosuit.Workbench.Limits

/-!
# Runs within the limits

The limits hold in every state of a run whose replays and published moves find the
room that these two, alone of all operations, do not check for.
-/

namespace Exosuit.Workbench

open Lib (Table)
open WorkbenchHostInner

/-- A host that has granted nothing yet. -/
structure Authority.Fresh (σ : Authority) : Prop where
  memory : σ.inner.state.toAuthorizations = ⟨∅, ∅, ∅⟩
  sessions : σ.inner.state.sessions = ∅
  store : σ.inner.store = ⟨∅, ∅, ∅⟩
  holder : σ.holder = .free

structure LimitsHold (state : WorkbenchState) (now : Nat) : Prop where
  sessions : state.sessionGrants.count (fun _ g => g.isLive now) ≤ MAX_SESSIONS
  pairings : state.pairingGrants.count (fun _ p => p.isLive now) ≤ MAX_ACTIVE_PAIRINGS
  workspaces : ∀ key, state.pairingGrants.count (fun _ p => p.workspaceKey == key && p.isLive now) ≤
    MAX_ACTIVE_PAIRINGS_PER_WORKSPACE
  outcomes : state.resumeOutcomes.size ≤ MAX_RESUME_OUTCOMES
  pairingOutcomes : ∀ selector,
    state.resumeOutcomes.count (fun key _ => key.1 == selector) ≤ MAX_RESUME_OUTCOMES_PER_PAIRING
  backed : ∀ id session, state.sessions.lookup id = some session →
    ∃ g, state.sessionGrants.lookup id = some g ∧ g.selector = session.selector ∧
      g.workspaceKey = session.workspaceKey ∧ g.pairingSelector = session.pairingSelector

/-- A replayed resume and a published move find room for what they bring back. -/
def Roomy (env : Env) (σ : Authority) : AuthorityAction → Prop
  | .finishResume _ _ => ∀ r now pairing, σ.holder = .resuming r now pairing →
      ReplayRoom env (retainLiveAuthorizations σ.inner.state now) r
  | .reconcile workspace entry now _ =>
      MoveRoom env (retainLiveAuthorizations σ.inner.state now) workspace entry
  | _ => True

theorem live_of_pruned (s : WorkbenchState) (now : Nat) :
    (retainLiveAuthorizations s now).pairingGrants.All fun _ p =>
      unrevoked p = true → p.isLive now = true := by
  intro selector p hp hUnrevoked
  rw [pruned_pairingGrants] at hp
  obtain ⟨-, hRetained⟩ := Table.lookup_retain_eq_some.mp (Table.lookup_retain_eq_some.mp hp).1
  unfold WorkbenchPairingGrant.isRetained at hRetained
  rwa [Option.isNone_iff_eq_none.mp hUnrevoked] at hRetained

def WithinKeyed (a : Authorizations) (sessions : Table String WorkbenchSession) : Prop :=
  WellKeyed a sessions ∧ Within a

theorem within_preserves (env : Env) :
    Authority.Preserves env (fun _ => True) (Roomy env) WithinKeyed WithinKeyed :=
  have hKeys := WellKeyed.preserves env (T := fun _ => True) (P := Roomy env) fun _ _ => trivial
  { clock := fun _ _ => trivial
    saves := id
    restores := fun _ _ h => h
    fewerSessions := fun keep h => ⟨hKeys.fewerSessions keep h.1, h.2⟩
    pruneSessions := fun hT h => ⟨hKeys.pruneSessions hT h.1, h.2.below (below_pruneSessions _ _)⟩
    prune := fun hT h => ⟨hKeys.prune hT h.1, h.2.below (below_prune _ _)⟩
    redeem := fun hP h hRedeemable => ⟨hKeys.redeem hP h.1 hRedeemable,
      within_redeem h.2 hRedeemable _⟩
    withdraw := fun sessionId h => ⟨hKeys.withdraw sessionId h.1,
      h.2.below (below_withdraw _ sessionId)⟩
    enroll := fun hP h hEnrollable => by
      obtain ⟨pending, evicted, hEnrolls⟩ := enrollable_ok hEnrollable
      exact ⟨hKeys.enroll hP h.1 hEnrollable,
        within_enroll h.1 h.2 (live_of_pruned _ _) hEnrolls⟩
    terminal := fun hHolder hP hs h hNew hRoom => ⟨hKeys.terminal hHolder hP hs h.1 hNew hRoom,
      within_terminal h.2 _ _ hRoom⟩
    expire := fun hHolder hP hs h hMem hRoom => ⟨hKeys.expire hHolder hP hs h.1 hMem hRoom,
      within_expire h.2 _ _ _ hRoom⟩
    resume := fun hHolder hP hs h hSecret hSelector hResumable =>
      ⟨hKeys.resume hHolder hP hs h.1 hSecret hSelector hResumable,
        within_resume h.1 h.2 (hs ▸ hP _ _ _ hHolder) hSecret hResumable⟩
    revoke := fun selector hP hs h hMem => ⟨hKeys.revoke selector hP hs h.1 hMem,
      h.2.below (below_revocation _ _ _)⟩
    forget := fun selector hP hs h => ⟨hKeys.forget selector hP hs h.1, h.2.below (below_forget _ _)⟩
    rename := fun selector nickname h => ⟨hKeys.rename selector nickname h.1,
      h.2.below (below_rename _ selector nickname)⟩
    restore := fun {h digest grant git now} hHeld => by
      refine ⟨hKeys.restore hHeld.1, ?_⟩
      obtain hSame | ⟨-, -, hAuthorizations, -⟩ := restoreSession_cases h digest grant git now
      · rw [hSame]
        exact hHeld.2
      · rw [hAuthorizations]
        exact hHeld.2
    activity := fun persistedAt hP hs h hLookup => ⟨hKeys.activity persistedAt hP hs h.1 hLookup,
      h.2.below (below_activity _ _ _ _)⟩
    renew := fun hP h hRenew => ⟨hKeys.renew hP h.1 hRenew, within_renew h.1 h.2 hRenew⟩
    invalidate := fun keys _ hT h => ⟨hKeys.invalidate keys hT h.1,
      h.2.below (below_invalidated _ keys _)⟩
    reconcile := fun hP hPublished hInstance hs h hMoved hReplaced => by
      refine ⟨hKeys.reconcile hP hPublished hInstance hs h.1 hMoved hReplaced, ?_⟩
      subst hMoved hReplaced
      exact within_reconcile h.2 (hs ▸ hP) hPublished hInstance _
    reload := fun hP h => ⟨hKeys.reload hP h.1, within_reload env h.2 h.1.outcomes _⟩ }

theorem withinKeyed_empty : WithinKeyed ⟨∅, ∅, ∅⟩ ∅ :=
  ⟨⟨Table.All.empty, Table.All.empty, Table.All.empty, Table.All.empty⟩,
    ⟨Nat.zero_le _, Nat.zero_le _, fun _ => Nat.zero_le _, ⟨Nat.zero_le _, fun _ => Nat.zero_le _⟩⟩⟩

theorem Authority.Fresh.holds {σ : Authority} (h : σ.Fresh) : Authority.Holds WithinKeyed WithinKeyed σ where
  host := by
    refine ⟨?_, ?_⟩
    · unfold Authority.On
      rw [h.memory, h.sessions]
      exact withinKeyed_empty
    · rw [h.store]
      exact withinKeyed_empty
  rollback r hr := by
    rw [h.holder] at hr
    cases hr

theorem WithinKeyed.limitsHold {state : WorkbenchState}
    (h : WithinKeyed state.toAuthorizations state.sessions) (now : Nat) : LimitsHold state now where
  sessions := by
    refine le_trans ?_ h.2.sessions
    rw [← Table.count_true]
    exact Table.count_le_count fun id g hg _ => ⟨g, hg, rfl⟩
  pairings := le_trans (Table.count_le_count fun selector p hp hLive =>
    ⟨p, hp, unrevoked_of_isLive hLive⟩) h.2.pairings
  workspaces key := le_trans (Table.count_le_count fun selector p hp hLive => by
    obtain ⟨hKey, hNow⟩ := Bool.and_eq_true_iff.mp hLive
    exact ⟨p, hp, Bool.and_eq_true_iff.mpr ⟨hKey, unrevoked_of_isLive hNow⟩⟩) (h.2.workspaces key)
  outcomes := h.2.outcomes.size
  pairingOutcomes := h.2.outcomes.pairing
  backed id session hSession := by
    obtain ⟨-, g, hg, hSame⟩ := h.1.backed id session hSession
    exact ⟨g, hg, hSame.selector, hSame.workspaceKey, hSame.pairingSelector⟩

/-- The limits hold as long as replays and moves find room. -/
theorem limits_hold_while_roomy (env : Env) {σ σ' : Authority} {actions : List AuthorityAction}
    (hFresh : σ.Fresh) (hRoomy : Lib.Along (Authority.next env) (Roomy env) σ actions)
    (hRun : Lib.run (Authority.next env) σ actions = some σ') (now : Nat) :
    LimitsHold σ'.inner.state now :=
  WithinKeyed.limitsHold ((within_preserves env).run hFresh.holds hRoomy hRun).host.memory now

/-! ## A workspace that went missing -/

def plainEnv : Env where
  projectId := "exo"
  instanceId := "host"
  deterministicWorkspaceKey := fun _ root => root
  sessionCredentialDigest := id
  mac := fun _ b => b
  encode := fun _ => ""
  decode := fun _ => none
  toVecV1 := fun _ => []
  toVecV2 := fun _ => []
  fromSliceV1 := fun _ => none
  fromSliceV2 := fun _ => none

def plainWorkspace (key : String) : WorkspaceRegistration :=
  ⟨key, "/" ++ key, key, none, none, none, none, 0⟩

def plainEntry (key : String) : WorkbenchEntryBinding :=
  ⟨.published, "https://exo", some "instance", some key⟩

/-- A host whose one workspace has a capability to spend. -/
def plainState : WorkbenchState where
  sessionGrants := ∅
  pairingGrants := ∅
  resumeOutcomes := ∅
  host := some ⟨0, "http://localhost", [], true, true⟩
  originBindings := AList.singleton "https://exo" (plainEntry "b")
  workspacesByRoot := AList.singleton "/b" "b"
  workspacesByKey := AList.singleton "b" (plainWorkspace "b")
  workspaceRegistrationGenerations := AList.singleton "b" 0
  nextWorkspaceRegistrationGeneration := 1
  pendingCapabilities := AList.singleton "capability" ⟨"b", "/b", 0, plainEntry "b", 0, 3600⟩
  launchReplays := ∅
  sessions := ∅

def freshAuthority : Authority where
  inner := { state := plainState, store := ⟨∅, ∅, ∅⟩, hostGeneration := 0 }
  holder := .free
  renewals := []

theorem freshAuthority_fresh : freshAuthority.Fresh := ⟨rfl, rfl, rfl, rfl⟩

/-- The host's capability is there again, and a device enrols with it. -/
def enrolAgain (device : String) : List AuthorityAction :=
  [.elsewhere plainState 0,
    .enroll ⟨"capability", "exo", "b", plainEntry "b", [], 3600⟩ none 0 true
      ⟨device, device, device, device⟩ .done]

def moveAway : List AuthorityAction :=
  [.launch, .reconcile (plainWorkspace "c") (plainEntry "c") 0 .done]

/-- A device enrols, its workspace goes missing, eight more enrol at the workspace, and all move. -/
def ninthPairing : List AuthorityAction :=
  enrolAgain "0" ++ .projectWorkspaces [] (some []) none "" 0 .done ::
    ["1", "2", "3", "4", "5", "6", "7", "8"].flatMap enrolAgain ++ moveAway

theorem move_revives_a_ninth_pairing : freshAuthority.Fresh ∧
    ∃ σ, Lib.run (Authority.next plainEnv) freshAuthority ninthPairing = some σ ∧
      ¬ LimitsHold σ.inner.state 0 := by
  refine ⟨freshAuthority_fresh, ?_⟩
  have hNine : (Lib.run (Authority.next plainEnv) freshAuthority ninthPairing).map
      (fun σ => σ.inner.state.pairingGrants.count fun _ p => p.workspaceKey == "c" && p.isLive 0) =
        some 9 := by
    decide +kernel
  obtain ⟨σ, hRun, hCount⟩ := Option.map_eq_some_iff.mp hNine
  refine ⟨σ, hRun, fun hHold => ?_⟩
  have hLimit := hHold.workspaces "c"
  rw [hCount] at hLimit
  exact absurd hLimit (by decide)

theorem moveRoom_of_few {s : WorkbenchState}
    (h : s.pairingGrants.size ≤ MAX_ACTIVE_PAIRINGS_PER_WORKSPACE) (env : Env)
    (workspace : WorkspaceRegistration) (entry : WorkbenchEntryBinding) :
    MoveRoom env s workspace entry := by
  have hCount : ∀ p : String → WorkbenchPairingGrant → Bool,
      s.pairingGrants.count p ≤ MAX_ACTIVE_PAIRINGS_PER_WORKSPACE := by
    intro p
    refine le_trans ?_ h
    rw [← Table.count_true]
    exact Table.count_le_count fun selector p hp _ => ⟨p, hp, rfl⟩
  intro projectInstanceId _ _
  exact ⟨le_trans (hCount _) (by decide), hCount _⟩

theorem limits_hold_while_roomy_sample :
    ∃ σ, Lib.run (Authority.next plainEnv) freshAuthority (enrolAgain "0" ++ moveAway) = some σ ∧
      LimitsHold σ.inner.state 0 := by
  have hRuns : (Lib.run (Authority.next plainEnv) freshAuthority
      (enrolAgain "0" ++ moveAway)).isSome = true := by
    decide +kernel
  have hFew : (Lib.run (Authority.next plainEnv) freshAuthority (enrolAgain "0" ++ [.launch])).all
      (fun σ => decide ((retainLiveAuthorizations σ.inner.state 0).pairingGrants.size ≤
        MAX_ACTIVE_PAIRINGS_PER_WORKSPACE)) = true := by
    decide +kernel
  obtain ⟨σ, hRun⟩ := Option.isSome_iff_exists.mp hRuns
  refine ⟨σ, hRun, limits_hold_while_roomy plainEnv freshAuthority_fresh ?_ hRun 0⟩
  refine ⟨trivial, fun σ₁ h₁ => ⟨trivial, fun σ₂ h₂ => ⟨trivial, fun σ₃ h₃ => ⟨?_, fun _ _ => trivial⟩⟩⟩⟩
  have hPath : Lib.run (Authority.next plainEnv) freshAuthority (enrolAgain "0" ++ [.launch]) =
      some σ₃ :=
    (Lib.run_cons_eq_some _).mpr ⟨σ₁, h₁, (Lib.run_cons_eq_some _).mpr ⟨σ₂, h₂,
      (Lib.run_cons_eq_some _).mpr ⟨σ₃, h₃, rfl⟩⟩⟩
  rw [hPath, Option.all_some, decide_eq_true_eq] at hFew
  exact moveRoom_of_few hFew plainEnv _ _

end Exosuit.Workbench
