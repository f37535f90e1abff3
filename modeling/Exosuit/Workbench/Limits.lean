import Exosuit.Workbench.AuthorityKeys

/-!
# Limits of the authorizations

How many session grants, live pairings and resume outcomes there are, in the memory
and in the store.
-/

namespace Exosuit.Workbench

open Lib (Table)
open WorkbenchHostInner

def unrevoked (p : WorkbenchPairingGrant) : Bool := p.revokedAt.isNone

def unrevokedAt (workspaceKey : String) (p : WorkbenchPairingGrant) : Bool :=
  p.workspaceKey == workspaceKey && unrevoked p

structure OutcomesWithin (t : Table WorkbenchResumeOutcomeKey WorkbenchResumeOutcome) : Prop where
  size : t.size ≤ MAX_RESUME_OUTCOMES
  pairing : ∀ selector,
    t.count (fun key _ => key.1 == selector) ≤ MAX_RESUME_OUTCOMES_PER_PAIRING

/-- A pairing that is not revoked counts whether it is live or not. -/
structure Within (a : Authorizations) : Prop where
  sessions : a.sessionGrants.size ≤ MAX_SESSIONS
  pairings : a.pairingGrants.count (fun _ => unrevoked) ≤ MAX_ACTIVE_PAIRINGS
  workspaces : ∀ key,
    a.pairingGrants.count (fun _ => unrevokedAt key) ≤ MAX_ACTIVE_PAIRINGS_PER_WORKSPACE
  outcomes : OutcomesWithin a.resumeOutcomes

/-! ## Updates that only take away -/

def PairingsBelow (t t' : Table String WorkbenchPairingGrant) : Prop :=
  ∀ selector p, t.lookup selector = some p → unrevoked p = true →
    ∃ p', t'.lookup selector = some p' ∧ unrevoked p' = true ∧ p'.workspaceKey = p.workspaceKey

structure Below (a a' : Authorizations) : Prop where
  sessions : ∀ id, id ∈ a.sessionGrants → id ∈ a'.sessionGrants
  pairings : PairingsBelow a.pairingGrants a'.pairingGrants
  outcomes : ∀ key, key ∈ a.resumeOutcomes → key ∈ a'.resumeOutcomes

theorem PairingsBelow.refl (t : Table String WorkbenchPairingGrant) : PairingsBelow t t :=
  fun _ p hp hUnrevoked => ⟨p, hp, hUnrevoked, rfl⟩

theorem PairingsBelow.trans {t t' t'' : Table String WorkbenchPairingGrant} (h : PairingsBelow t t')
    (h' : PairingsBelow t' t'') : PairingsBelow t t'' := by
  intro selector p hp hUnrevoked
  obtain ⟨p', hp', hUnrevoked', hKey⟩ := h selector p hp hUnrevoked
  obtain ⟨p'', hp'', hUnrevoked'', hKey'⟩ := h' selector p' hp' hUnrevoked'
  exact ⟨p'', hp'', hUnrevoked'', hKey'.trans hKey⟩

theorem PairingsBelow.retain (t : Table String WorkbenchPairingGrant)
    (keep : String → WorkbenchPairingGrant → Bool) : PairingsBelow (t.retain keep) t :=
  fun _ p hp hUnrevoked => ⟨p, (Table.lookup_retain_eq_some.mp hp).1, hUnrevoked, rfl⟩

theorem PairingsBelow.prune (t : Table String WorkbenchPairingGrant) :
    PairingsBelow (pruneRetainedRevokedPairings t) t :=
  .retain t _

theorem not_unrevoked_revoke (p : WorkbenchPairingGrant) (now : Nat)
    (cause : WorkbenchPairingRevocationCause) : unrevoked (p.revoke now cause) = false := by
  unfold unrevoked WorkbenchPairingGrant.revoke
  cases p.revokedAt <;> rfl

theorem PairingsBelow.revoke (t : Table String WorkbenchPairingGrant) (selector : String) (now : Nat)
    (cause : WorkbenchPairingRevocationCause) :
    PairingsBelow (t.modify selector fun p => p.revoke now cause) t := by
  intro other p hp hUnrevoked
  rw [Table.lookup_modify] at hp
  split at hp
  · obtain ⟨p', -, rfl⟩ := Option.map_eq_some_iff.mp hp
    rw [not_unrevoked_revoke] at hUnrevoked
    cases hUnrevoked
  · exact ⟨p, hp, hUnrevoked, rfl⟩

theorem PairingsBelow.foldl_revoke (t : Table String WorkbenchPairingGrant) (selectors : List String)
    (now : Nat) (cause : WorkbenchPairingRevocationCause) :
    PairingsBelow (selectors.foldl (fun t selector => t.modify selector fun p => p.revoke now cause) t)
      t := by
  induction selectors generalizing t with
  | nil => exact .refl t
  | cons selector selectors ih => exact (ih _).trans (.revoke t selector now cause)

theorem PairingsBelow.rename (t : Table String WorkbenchPairingGrant) (selector nickname : String) :
    PairingsBelow (t.modify selector fun p => { p with nickname := some nickname }) t := by
  intro other p hp hUnrevoked
  rw [Table.lookup_modify] at hp
  split at hp
  · next hKey =>
    obtain ⟨p', hp', rfl⟩ := Option.map_eq_some_iff.mp hp
    exact ⟨p', hKey ▸ hp', hUnrevoked, rfl⟩
  · exact ⟨p, hp, hUnrevoked, rfl⟩

theorem PairingsBelow.erase (t : Table String WorkbenchPairingGrant) (selector : String) :
    PairingsBelow (AList.erase selector t) t := by
  intro other p hp hUnrevoked
  rw [Table.lookup_erase] at hp
  split at hp
  · cases hp
  · exact ⟨p, hp, hUnrevoked, rfl⟩

theorem PairingsBelow.count_le {t t' : Table String WorkbenchPairingGrant} (h : PairingsBelow t t') :
    t.count (fun _ => unrevoked) ≤ t'.count (fun _ => unrevoked) := by
  refine Table.count_le_count fun selector p hp hUnrevoked => ?_
  obtain ⟨p', hp', hUnrevoked', -⟩ := h selector p hp hUnrevoked
  exact ⟨p', hp', hUnrevoked'⟩

theorem PairingsBelow.countAt_le {t t' : Table String WorkbenchPairingGrant} (h : PairingsBelow t t')
    (key : String) : t.count (fun _ => unrevokedAt key) ≤ t'.count (fun _ => unrevokedAt key) := by
  refine Table.count_le_count fun selector p hp hAt => ?_
  obtain ⟨hKey, hUnrevoked⟩ := Bool.and_eq_true_iff.mp hAt
  obtain ⟨p', hp', hUnrevoked', hSame⟩ := h selector p hp hUnrevoked
  exact ⟨p', hp', Bool.and_eq_true_iff.mpr ⟨by rwa [hSame], hUnrevoked'⟩⟩

theorem Below.trans {a a' a'' : Authorizations} (h : Below a a') (h' : Below a' a'') : Below a a'' :=
  ⟨fun id hId => h'.sessions id (h.sessions id hId), h.pairings.trans h'.pairings,
    fun key hKey => h'.outcomes key (h.outcomes key hKey)⟩

namespace OutcomesWithin

variable {t t' : Table WorkbenchResumeOutcomeKey WorkbenchResumeOutcome}

theorem below (h : OutcomesWithin t') (hBelow : ∀ key, key ∈ t → key ∈ t') : OutcomesWithin t where
  size := le_trans (Table.size_le_size hBelow) h.size
  pairing selector := by
    refine le_trans (Table.count_le_count fun key o ho hKey => ?_) (h.pairing selector)
    obtain ⟨o', ho'⟩ := Option.isSome_iff_exists.mp (AList.lookup_isSome.mpr
      (hBelow key (AList.lookup_isSome.mp (ho ▸ rfl))))
    exact ⟨o', ho', hKey⟩

theorem insert (h : OutcomesWithin t) {key : WorkbenchResumeOutcomeKey}
    (hRoom : resumeOutcomeCapacity t key = true) (o : WorkbenchResumeOutcome) :
    OutcomesWithin (AList.insert key o t) := by
  rcases Bool.or_eq_true_iff.mp hRoom with hMem | hBoth
  · have hOld := of_decide_eq_true hMem
    obtain ⟨o', ho'⟩ := Option.isSome_iff_exists.mp (AList.lookup_isSome.mpr hOld)
    exact ⟨(Table.size_insert_of_mem hOld o).trans_le h.size,
      fun selector => le_trans (Table.count_insert_of_lookup ho' id) (h.pairing selector)⟩
  · obtain ⟨hTotal, hPairing⟩ := Bool.and_eq_true_iff.mp hBoth
    refine ⟨le_trans (Table.size_insert_le _ _ _) (of_decide_eq_true hTotal), fun selector => ?_⟩
    refine le_trans Table.count_insert_le ?_
    split
    · next hKey =>
      rw [beq_iff_eq] at hKey
      exact hKey ▸ of_decide_eq_true hPairing
    · exact h.pairing selector

end OutcomesWithin

theorem Within.below {a a' : Authorizations} (h : Within a') (hBelow : Below a a') : Within a where
  sessions := le_trans (Table.size_le_size hBelow.sessions) h.sessions
  pairings := le_trans hBelow.pairings.count_le h.pairings
  workspaces key := le_trans (hBelow.pairings.countAt_le key) (h.workspaces key)
  outcomes := h.outcomes.below hBelow.outcomes

theorem below_prune (s : WorkbenchState) (now : Nat) :
    Below (retainLiveAuthorizations s now).toAuthorizations s.toAuthorizations where
  sessions id hId := by
    rw [pruned_sessionGrants] at hId
    exact Table.mem_retain (Table.mem_retain hId)
  pairings := by
    rw [pruned_pairingGrants]
    exact (PairingsBelow.prune _).trans (.retain _ _)
  outcomes key hKey := by
    rw [pruned_resumeOutcomes] at hKey
    exact Table.mem_retain hKey

theorem below_retire (a : Authorizations) (selector : String) (now : Nat) :
    Below (retirePairing a selector now) a where
  sessions _ hId := Table.mem_retain hId
  pairings := .revoke _ _ _ _
  outcomes _ hKey := Table.mem_retain hKey

theorem below_retired (a : Authorizations) (retired : List String) (now : Nat) :
    Below (retired.foldl (retirePairing · · now) a) a := by
  induction retired generalizing a with
  | nil => exact ⟨fun _ => id, .refl _, fun _ => id⟩
  | cons selector retired ih => exact (ih _).trans (below_retire a selector now)

theorem below_revocation (a : Authorizations) (selector : String) (now : Nat) :
    Below (revocationCandidates a selector now none) a where
  sessions _ hId := Table.mem_retain hId
  pairings := (PairingsBelow.prune _).trans (.revoke _ _ _ _)
  outcomes _ hKey := Table.mem_retain (Table.mem_retain hKey)

theorem below_forget (a : Authorizations) (selector : String) :
    Below (forgetCandidates a selector) a where
  sessions _ hId := Table.mem_retain hId
  pairings := .erase _ _
  outcomes _ hKey := Table.mem_retain hKey

theorem below_invalidated (s : WorkbenchState) (keys : List String) (now : Nat) :
    Below (invalidated s keys now) s.toAuthorizations where
  sessions _ hId := Table.mem_retain hId
  pairings := (PairingsBelow.prune _).trans (.foldl_revoke _ _ _ _)
  outcomes _ hKey := Table.mem_retain (Table.mem_retain hKey)

theorem below_pruneSessions (s : WorkbenchState) (now : Nat) :
    Below (retainLiveSessions s now).toAuthorizations s.toAuthorizations where
  sessions id hId := by
    have hGrants : (retainLiveSessions s now).sessionGrants =
        s.sessionGrants.retain fun _ g => g.isLive now := rfl
    rw [hGrants] at hId
    exact Table.mem_retain hId
  pairings := .refl s.pairingGrants
  outcomes _ hKey := hKey

theorem below_withdraw (s : WorkbenchState) (sessionId : String) :
    Below (removeSession s sessionId).toAuthorizations s.toAuthorizations where
  sessions _ hId := (AList.mem_erase.mp hId).2
  pairings := .refl s.pairingGrants
  outcomes _ hKey := hKey

theorem below_rename (a : Authorizations) (selector nickname : String) :
    Below (renameCandidates a selector nickname) a where
  sessions _ hId := hId
  pairings := .rename _ _ _
  outcomes _ hKey := hKey

theorem below_activity (s : WorkbenchState) (digest : String) (session : WorkbenchSession)
    (now : Nat) : Below (noteActivity s digest session now).toAuthorizations s.toAuthorizations where
  sessions _ hId := Table.mem_of_mem_modify hId
  pairings := .refl s.pairingGrants
  outcomes _ hKey := hKey

/-! ## Updates that add -/

variable {a : Authorizations}

theorem within_terminal (h : Within a) {key : WorkbenchResumeOutcomeKey}
    (error : WorkbenchResumeTerminalError) (now : Nat)
    (hRoom : resumeOutcomeCapacity a.resumeOutcomes key = true) :
    Within (terminalCandidates a key error now) :=
  ⟨h.sessions, h.pairings, h.workspaces, h.outcomes.insert hRoom _⟩

theorem within_expire (h : Within a) {key : WorkbenchResumeOutcomeKey} (o : WorkbenchResumeOutcome)
    (selector : String) (now : Nat) (hRoom : resumeOutcomeCapacity a.resumeOutcomes key = true) :
    Within (revocationCandidates a selector now (some (key, o))) := by
  have hRevoked := h.below (below_revocation a selector now)
  refine ⟨hRevoked.sessions, hRevoked.pairings, hRevoked.workspaces, ?_⟩
  refine (h.outcomes.insert hRoom o).below fun k hk => ?_
  refine (AList.mem_insert _).mpr (((AList.mem_insert _).mp (Table.mem_retain hk)).imp_right ?_)
  exact Table.mem_retain

theorem within_redeem {s : WorkbenchState} (h : Within s.toAuthorizations)
    {payload : VerifiedWorkbenchTicket} {now : Nat} {rootValid : Bool} {tokens : Option RedeemTokens}
    {found : PendingCapability × RedeemTokens}
    (hRedeemable : redeemable s payload now rootValid tokens = .ok found)
    (session : WorkbenchSession) : Within (insertSession s session).toAuthorizations := by
  unfold redeemable at hRedeemable
  split at hRedeemable
  · cases hRedeemable
  · next hRoom =>
    exact ⟨le_trans (Table.size_insert_le _ _ _) (Nat.lt_of_not_le hRoom), h.pairings, h.workspaces,
      h.outcomes⟩

theorem within_renew {s state : WorkbenchState} {key id : String} {now : Nat}
    {renewed : WorkbenchSession} (hKeyed : WellKeyed s.toAuthorizations s.sessions)
    (h : Within s.toAuthorizations) (hRenew : renewSession s key id now = (state, some renewed)) :
    Within state.toAuthorizations := by
  unfold renewSession at hRenew
  split at hRenew
  · cases hRenew
  · next current hCurrent =>
    cases hRenew
    obtain ⟨-, g, hg, -⟩ := hKeyed.backed id current (Option.filter_eq_some_iff.mp hCurrent).1
    have hMem : id ∈ s.sessionGrants := AList.lookup_isSome.mp (hg ▸ rfl)
    exact ⟨(Table.size_insert_of_mem hMem _).trans_le h.sessions, h.pairings, h.workspaces,
      h.outcomes⟩

/-! ## Resumptions -/

/-- A replay whose session is gone finds room for one more. -/
def ReplayRoom (env : Env) (s : WorkbenchState) (r : ResumeRequest) : Prop :=
  r.key ∈ s.resumeOutcomes → ∀ secret,
    env.derivePairingToken r.pairingSecret r.requestId SESSION_SECRET_DOMAIN = some secret →
      env.sessionCredentialDigest secret ∈ s.sessionGrants ∨ s.sessionGrants.size < MAX_SESSIONS

theorem resumeReplay_ok {s : WorkbenchState} {key : WorkbenchResumeOutcomeKey}
    {sessionSelector sessionId : String} {replay : Option (Nat × Nat)}
    (h : resumeReplay s key sessionSelector sessionId = .ok replay) :
    resumeOutcomeCapacity s.resumeOutcomes key = true ∧
      (key ∈ s.resumeOutcomes ∨ s.sessionGrants.size < MAX_SESSIONS) := by
  unfold resumeReplay at h
  split at h
  · next o ho =>
    have hMem : key ∈ s.resumeOutcomes := AList.lookup_isSome.mp (ho ▸ rfl)
    exact ⟨Bool.or_eq_true_iff.mpr (.inl (decide_eq_true hMem)), .inl hMem⟩
  · split at h
    · next hRoom =>
      split at h
      · cases h
      · next hSessions => exact ⟨hRoom, .inr (Nat.lt_of_not_le hSessions)⟩
    · cases h

theorem below_used {t : Table String WorkbenchPairingGrant} {pairing : WorkbenchPairingGrant}
    {selector : String} (hLookup : t.lookup selector = some pairing)
    (hUnrevoked : unrevoked pairing = true) {used : WorkbenchPairingGrant}
    (hKey : pairing.workspaceKey = used.workspaceKey) :
    PairingsBelow (AList.insert selector used t) t := by
  intro other p hp hOther
  rw [Table.lookup_insert] at hp
  split at hp
  · next hSelector =>
    cases hp
    exact ⟨pairing, hSelector ▸ hLookup, hUnrevoked, hKey⟩
  · exact ⟨p, hp, hOther, rfl⟩

theorem unrevoked_of_isLive {p : WorkbenchPairingGrant} {now : Nat} (h : p.isLive now = true) :
    unrevoked p = true := by
  unfold WorkbenchPairingGrant.isLive at h
  simp only [Bool.and_eq_true] at h
  exact h.1.1.1.1.2

theorem within_resume {env : Env} {s : WorkbenchState} {r : ResumeRequest}
    {pairing : WorkbenchPairingGrant} {sessionSecret sessionSelector : String} {now : Nat}
    {e : Resumption} (hKeyed : WellKeyed s.toAuthorizations s.sessions)
    (h : Within s.toAuthorizations) (hRoom : ReplayRoom env s r)
    (hSecret : env.derivePairingToken r.pairingSecret r.requestId SESSION_SECRET_DOMAIN =
      some sessionSecret)
    (hResumable : resumable env s r pairing sessionSecret sessionSelector now = .ok e) :
    Within (adoptResumption s e).toAuthorizations := by
  obtain ⟨hLookup, hLive, replay, hReplay, rfl⟩ := resumable_ok hResumable
  obtain ⟨hOutcome, hSession⟩ := resumeReplay_ok hReplay
  have hSelector : pairing.selector = r.pairingSelector := hKeyed.pairings _ _ hLookup
  have hPairings : PairingsBelow
      (AList.insert pairing.selector (usedPairing pairing now) s.pairingGrants) s.pairingGrants :=
    below_used (hSelector ▸ hLookup) (unrevoked_of_isLive hLive) rfl
  refine ⟨?_, le_trans hPairings.count_le h.pairings,
    fun key => le_trans (hPairings.countAt_le key) (h.workspaces key),
    h.outcomes.insert hOutcome _⟩
  have hFits : env.sessionCredentialDigest sessionSecret ∈ s.sessionGrants ∨
      s.sessionGrants.size < MAX_SESSIONS :=
    hSession.elim (fun hMem => hRoom hMem sessionSecret hSecret) .inr
  rcases hFits with hMem | hLt
  · exact (Table.size_insert_of_mem hMem _).trans_le h.sessions
  · exact le_trans (Table.size_insert_le _ _ _) hLt

/-! ## Moves -/

/-- The pairings that a published move takes to the workspace, with those it leaves there, keep the
limits; the others are not counted twice. -/
def MoveRoom (env : Env) (s : WorkbenchState) (workspace : WorkspaceRegistration)
    (entry : WorkbenchEntryBinding) : Prop :=
  ∀ projectInstanceId, entry.isPublished = true → entry.projectInstanceId = some projectInstanceId →
    s.pairingGrants.count (fun selector p =>
        decide (selector ∈ movedPairings env s workspace entry projectInstanceId) ||
          unrevoked p && decide (selector ∉ replacedPairings env s workspace projectInstanceId)) ≤
      MAX_ACTIVE_PAIRINGS ∧
    s.pairingGrants.count (fun selector p =>
        decide (selector ∈ movedPairings env s workspace entry projectInstanceId) ||
          unrevokedAt workspace.key p &&
            decide (selector ∉ replacedPairings env s workspace projectInstanceId)) ≤
      MAX_ACTIVE_PAIRINGS_PER_WORKSPACE

theorem movePairing_twice (workspace : WorkspaceRegistration) (entry : WorkbenchEntryBinding)
    (p : WorkbenchPairingGrant) :
    movePairing workspace entry (movePairing workspace entry p) = movePairing workspace entry p := by
  unfold movePairing WorkbenchPairingGrant.restoreMissingWorkspaceMove
  grind

theorem revoke_twice (p : WorkbenchPairingGrant) (now : Nat) (cause : WorkbenchPairingRevocationCause) :
    (p.revoke now cause).revoke now cause = p.revoke now cause := by
  unfold WorkbenchPairingGrant.revoke
  cases cause <;> cases p.revokedAt <;> cases p.revocationCause <;> rfl

theorem workspaceKey_movePairing (workspace : WorkspaceRegistration) (entry : WorkbenchEntryBinding)
    (p : WorkbenchPairingGrant) : (movePairing workspace entry p).workspaceKey = workspace.key := by
  unfold movePairing WorkbenchPairingGrant.restoreMissingWorkspaceMove
  split <;> rfl

theorem unrevoked_moved {t : Table String WorkbenchPairingGrant} {workspace : WorkspaceRegistration}
    {entry : WorkbenchEntryBinding} {moved replaced : List String} {now : Nat} {selector : String}
    {p : WorkbenchPairingGrant}
    (h : (replaced.foldl (fun t selector => t.modify selector fun p => p.revoke now .replaced)
      (moved.foldl (fun t selector => t.modify selector (movePairing workspace entry)) t)).lookup
        selector = some p)
    (hUnrevoked : unrevoked p = true) :
    selector ∉ replaced ∧ ∃ old, t.lookup selector = some old ∧
      (selector ∈ moved ∧ p = movePairing workspace entry old ∨ p = old) := by
  rw [Table.lookup_foldl_modify replaced (revoke_twice · now .replaced)] at h
  split at h
  · obtain ⟨p', -, rfl⟩ := Option.map_eq_some_iff.mp h
    rw [not_unrevoked_revoke] at hUnrevoked
    cases hUnrevoked
  · next hReplaced =>
    rw [Table.lookup_foldl_modify moved (movePairing_twice workspace entry)] at h
    refine ⟨hReplaced, ?_⟩
    split at h
    · next hMoved =>
      obtain ⟨old, hOld, rfl⟩ := Option.map_eq_some_iff.mp h
      exact ⟨old, hOld, .inl ⟨hMoved, rfl⟩⟩
    · exact ⟨p, h, .inr rfl⟩

theorem within_reconcile {env : Env} {s : WorkbenchState} {workspace : WorkspaceRegistration}
    {entry : WorkbenchEntryBinding} {projectInstanceId : String} (h : Within s.toAuthorizations)
    (hRoom : MoveRoom env s workspace entry) (hPublished : entry.isPublished = true)
    (hInstance : entry.projectInstanceId = some projectInstanceId) (now : Nat) :
    Within (moveCandidates s workspace entry (movedPairings env s workspace entry projectInstanceId)
      (replacedPairings env s workspace projectInstanceId) now) := by
  obtain ⟨hTotal, hAt⟩ := hRoom projectInstanceId hPublished hInstance
  refine ⟨le_trans (Table.size_le_size fun _ => Table.mem_retain) h.sessions, ?_, fun key => ?_,
    h.outcomes.below fun key hKey => Table.mem_retain (Table.mem_retain hKey)⟩
  · refine le_trans (PairingsBelow.prune _).count_le (le_trans ?_ hTotal)
    refine Table.count_le_count fun selector p hp hUnrevoked => ?_
    obtain ⟨hReplaced, old, hOld, ⟨hMoved, -⟩ | rfl⟩ := unrevoked_moved hp hUnrevoked
    · exact ⟨old, hOld, by simp [hMoved]⟩
    · exact ⟨p, hOld, by simp [hUnrevoked, hReplaced]⟩
  · refine le_trans ((PairingsBelow.prune _).countAt_le key) ?_
    by_cases hKey : key = workspace.key
    · subst hKey
      refine le_trans (Table.count_le_count fun selector p hp hHere => ?_) hAt
      obtain ⟨hReplaced, old, hOld, ⟨hMoved, -⟩ | rfl⟩ :=
        unrevoked_moved hp (Bool.and_eq_true_iff.mp hHere).2
      · exact ⟨old, hOld, by simp [hMoved]⟩
      · exact ⟨p, hOld, by simp [hHere, hReplaced]⟩
    · refine le_trans (Table.count_le_count fun selector p hp hHere => ?_) (h.workspaces key)
      obtain ⟨hSame, hUnrevoked⟩ := Bool.and_eq_true_iff.mp hHere
      obtain ⟨-, old, hOld, ⟨-, rfl⟩ | rfl⟩ := unrevoked_moved hp hUnrevoked
      · rw [workspaceKey_movePairing, beq_iff_eq] at hSame
        exact absurd hSame.symm hKey
      · exact ⟨p, hOld, hHere⟩

/-! ## Enrolments -/

theorem lru_some {pairings : Table String WorkbenchPairingGrant}
    {sessions : Table String WorkbenchSessionGrant} {key : String} {excluded : Option String}
    {now : Nat} {selector : String}
    (h : leastRecentlyUsedPairingWithoutLiveSession pairings sessions key excluded now =
      some selector) :
    ∃ p ∈ pairings.values, p.selector = selector ∧ p.workspaceKey = key ∧ p.isLive now = true ∧
      excluded ≠ some selector := by
  unfold leastRecentlyUsedPairingWithoutLiveSession at h
  obtain ⟨p, hHead, rfl⟩ := Option.map_eq_some_iff.mp h
  have hMem := (List.mergeSort_perm _ _).mem_iff.mp (List.mem_of_head? hHead)
  obtain ⟨hValue, hIdle⟩ := List.mem_filter.mp hMem
  simp only [Bool.and_eq_true, beq_iff_eq, bne_iff_ne] at hIdle
  exact ⟨p, hValue, rfl, hIdle.1.1.1, hIdle.1.1.2, hIdle.1.2⟩

def one (o : Option String) : Nat := if o.isSome then 1 else 0

theorem pairingRoom_ok {s : WorkbenchState} {key : String} {replaced evicted : Option String}
    {now : Nat} (h : pairingRoom s key replaced now = .ok evicted) :
    s.pairingGrants.count (fun _ p => p.isLive now) - one replaced - one evicted <
        MAX_ACTIVE_PAIRINGS ∧
      s.pairingGrants.count (fun _ p =>
          p.workspaceKey == key && replaced != some p.selector && p.isLive now) - one evicted <
        MAX_ACTIVE_PAIRINGS_PER_WORKSPACE ∧
      ∀ selector, evicted = some selector → ∃ p ∈ s.pairingGrants.values, p.selector = selector ∧
        p.workspaceKey = key ∧ p.isLive now = true ∧ replaced ≠ some selector := by
  unfold pairingRoom at h
  dsimp only at h
  rw [List.filter_filter, Table.length_filter_values, Table.length_filter_values] at h
  generalize hCandidate : (ite (MAX_ACTIVE_PAIRINGS_PER_WORKSPACE ≤ _)
    (leastRecentlyUsedPairingWithoutLiveSession _ _ _ _ _) none : Option String) = candidate at h
  have hOne : ∀ o : Option String, (if o.isSome = true then 1 else 0) = one o := fun _ => rfl
  rw [hOne, hOne] at h
  split at h
  · cases h
  · next hWorkspace =>
    split at h
    · cases h
    · next hTotal =>
      obtain rfl := Except.ok.inj h
      refine ⟨Nat.lt_of_not_le hTotal, ?_, fun selector hSelector => ?_⟩
      · unfold one
        cases candidate with
        | none =>
          have hBelow := fun hFull => hWorkspace ⟨hFull, .inl rfl⟩
          exact Nat.lt_of_not_le hBelow
        | some selector =>
          dsimp only [Option.isSome_some]
          rw [if_pos rfl]
          by_contra hFull
          exact hWorkspace ⟨by omega, .inr (by omega)⟩
      · subst hSelector
        split at hCandidate
        · exact lru_some hCandidate
        · cases hCandidate

theorem unrevoked_retired {retired : List String} {now : Nat} {selector : String}
    {p : WorkbenchPairingGrant}
    (h : (retired.foldl (retirePairing · · now) a).pairingGrants.lookup selector = some p)
    (hUnrevoked : unrevoked p = true) :
    selector ∉ retired ∧ a.pairingGrants.lookup selector = some p := by
  induction retired generalizing a with
  | nil => exact ⟨List.not_mem_nil, h⟩
  | cons head rest ih =>
    obtain ⟨hRest, hOld⟩ := ih h
    unfold retirePairing at hOld
    rw [Table.lookup_modify] at hOld
    split at hOld
    · obtain ⟨old, -, rfl⟩ := Option.map_eq_some_iff.mp hOld
      rw [not_unrevoked_revoke] at hUnrevoked
      cases hUnrevoked
    · next hHead => exact ⟨fun hMem => (List.mem_cons.mp hMem).elim hHead hRest, hOld⟩

theorem length_toList (o : Option String) : o.toList.length = one o := by
  cases o <;> rfl

section Enrolling

variable {env : Env} {s : WorkbenchState} {payload : VerifiedWorkbenchTicket}
  {presented : Option (String × String)} {now : Nat} {tokens : EnrollTokens}
  {pending : PendingCapability} {evicted : Option String} {e : Enrollment}

theorem presented_some {p : WorkbenchPairingGrant}
    (h : presentedGrant env s payload presented now = some p)
    (hKeyed : WellKeyed s.toAuthorizations s.sessions) :
    s.pairingGrants.lookup p.selector = some p ∧ p.isLive now = true := by
  unfold presentedGrant at h
  obtain ⟨given, -, hFilter⟩ := Option.bind_eq_some_iff.mp h
  obtain ⟨hLookup, hValid⟩ := Option.filter_eq_some_iff.mp hFilter
  have hSelector : p.selector = given.1 := hKeyed.pairings _ _ hLookup
  simp only [Bool.and_eq_true] at hValid
  exact ⟨hSelector ▸ hLookup, hValid.1.1⟩

theorem replaced_of_reusable (h : (reusablePairing env s payload presented now).isSome = true) :
    replacedPairing env s payload presented now = none := by
  obtain ⟨p, hReusable⟩ := Option.isSome_iff_exists.mp h
  obtain ⟨hPresented, hSame⟩ := Option.filter_eq_some_iff.mp hReusable
  unfold replacedPairing
  rw [hPresented, Option.filter_some, bne, hSame]
  rfl

theorem replaced_some {selector : String}
    (h : replacedPairing env s payload presented now = some selector)
    (hKeyed : WellKeyed s.toAuthorizations s.sessions) :
    ∃ p, s.pairingGrants.lookup selector = some p ∧ p.isLive now = true := by
  obtain ⟨p, hFilter, rfl⟩ := Option.map_eq_some_iff.mp h
  exact ⟨p, presented_some (Option.filter_eq_some_iff.mp hFilter).1 hKeyed⟩

theorem within_insert (h : Within a) {pairings : Table String WorkbenchPairingGrant}
    {pairing : WorkbenchPairingGrant}
    (hTotal : pairings.count (fun _ => unrevoked) < MAX_ACTIVE_PAIRINGS)
    (hAt : pairings.count (fun _ => unrevokedAt pairing.workspaceKey) <
      MAX_ACTIVE_PAIRINGS_PER_WORKSPACE)
    (hBelow : PairingsBelow pairings a.pairingGrants) :
    Table.count (fun _ => unrevoked) (AList.insert pairing.selector pairing pairings) ≤
        MAX_ACTIVE_PAIRINGS ∧
      ∀ key, Table.count (fun _ => unrevokedAt key)
          (AList.insert pairing.selector pairing pairings) ≤ MAX_ACTIVE_PAIRINGS_PER_WORKSPACE := by
  refine ⟨le_trans Table.count_insert_le ?_, fun key => le_trans Table.count_insert_le ?_⟩
  · split <;> omega
  · have hOld := le_trans (hBelow.countAt_le key) (h.workspaces key)
    split
    · next hHere =>
      obtain ⟨hKey, -⟩ := Bool.and_eq_true_iff.mp hHere
      rw [beq_iff_eq] at hKey
      subst hKey
      exact hAt
    · exact hOld

theorem enrolled_pairings (hKeyed : WellKeyed s.toAuthorizations s.sessions)
    (h : Within s.toAuthorizations)
    (hPruned : s.pairingGrants.All fun _ p => unrevoked p = true → p.isLive now = true)
    (hEnrolls : Enrolls env s payload presented now tokens pending evicted e)
    {pairings : Table String WorkbenchPairingGrant}
    (hPairings : pairings = AList.insert
      (enrolledPairing env s payload presented now tokens pending).selector
      (enrolledPairing env s payload presented now tokens pending)
      (e.retired.foldl (retirePairing · · now) s.toAuthorizations).pairingGrants) :
    pairings.count (fun _ => unrevoked) ≤ MAX_ACTIVE_PAIRINGS ∧
      ∀ key, pairings.count (fun _ => unrevokedAt key) ≤ MAX_ACTIVE_PAIRINGS_PER_WORKSPACE := by
  rcases hEnrolls.evicts with ⟨hReusable, rfl⟩ | ⟨hNew, hRoom⟩
  · obtain ⟨p, hp⟩ := Option.isSome_iff_exists.mp hReusable
    obtain ⟨hLookup, hLive⟩ := presented_some (Option.filter_eq_some_iff.mp hp).1 hKeyed
    have hBelow : PairingsBelow pairings s.pairingGrants := by
      rw [hPairings, hEnrolls.retired, replaced_of_reusable hReusable]
      unfold enrolledPairing
      rw [hp]
      exact below_used hLookup (unrevoked_of_isLive hLive) rfl
    exact ⟨le_trans hBelow.count_le h.pairings,
      fun key => le_trans (hBelow.countAt_le key) (h.workspaces key)⟩
  · obtain ⟨hTotal, hAt, hEvicted⟩ := pairingRoom_ok hRoom
    have hKey : (enrolledPairing env s payload presented now tokens pending).workspaceKey =
        payload.workspaceKey := by
      unfold enrolledPairing
      rw [hNew]
      rfl
    have hGone : ∀ selector, evicted = some selector →
        ∃ p, s.pairingGrants.lookup selector = some p ∧ p.selector = selector ∧
          p.workspaceKey = payload.workspaceKey ∧ p.isLive now = true := by
      intro selector hSelector
      obtain ⟨p, hValue, rfl, hWorkspace, hLive, -⟩ := hEvicted selector hSelector
      obtain ⟨entry, hEntry, rfl⟩ := List.mem_map.mp hValue
      have hLookup := Table.lookup_eq_some.mpr hEntry
      exact ⟨entry.2, hKeyed.pairings _ _ hLookup ▸ hLookup, rfl, hWorkspace, hLive⟩
    have hOther : ∀ selector, evicted = some selector →
        replacedPairing env s payload presented now ≠ some selector := by
      intro selector hSelector
      obtain ⟨p, -, -, -, -, hNe⟩ := hEvicted selector hSelector
      exact hNe
    rw [hPairings]
    refine within_insert h ?_ ?_ (below_retired s.toAuthorizations e.retired now).pairings
    · have hNodup : (evicted.toList ++ (replacedPairing env s payload presented now).toList).Nodup := by
        cases evicted with
        | none => cases replacedPairing env s payload presented now <;> simp
        | some selector =>
          have hNe := hOther selector rfl
          cases hReplaced : replacedPairing env s payload presented now with
          | none => simp
          | some other =>
            rw [hReplaced] at hNe
            simpa [eq_comm] using hNe
      have hRetired := Table.count_notMem (p := fun _ p => p.isLive now) (t := s.pairingGrants) hNodup
        fun selector hMem => by
          rcases List.mem_append.mp hMem with hEvictedMem | hReplacedMem
          · obtain ⟨p, hp, -, -, hLive⟩ := hGone selector (Option.mem_toList.mp hEvictedMem)
            exact ⟨p, hp, hLive⟩
          · exact replaced_some (Option.mem_toList.mp hReplacedMem) hKeyed
      rw [List.length_append, length_toList, length_toList] at hRetired
      refine lt_of_le_of_lt ?_ hTotal
      refine le_trans ?_ (Nat.le_sub_of_add_le (Nat.le_sub_of_add_le
        ((Nat.add_assoc _ _ _).trans_le hRetired)))
      refine Table.count_le_count fun selector p hp hUnrevoked => ?_
      obtain ⟨hKept, hOld⟩ := unrevoked_retired hp hUnrevoked
      rw [hEnrolls.retired] at hKept
      exact ⟨p, hOld, by simp only [hPruned selector p hOld hUnrevoked, hKept]; rfl⟩
    · rw [hKey]
      have hRetired := Table.count_notMem
        (p := fun _ p => p.workspaceKey == payload.workspaceKey &&
          replacedPairing env s payload presented now != some p.selector && p.isLive now)
        (t := s.pairingGrants) (Option.toList_nodup evicted) fun selector hMem => by
          have hEq := Option.mem_toList.mp hMem
          obtain ⟨p, hp, hOwn, hWorkspace, hLive⟩ := hGone selector hEq
          exact ⟨p, hp, by simp [hOwn, hWorkspace, hLive, hOther selector hEq]⟩
      rw [length_toList] at hRetired
      refine lt_of_le_of_lt ?_ hAt
      refine le_trans ?_ (Nat.le_sub_of_add_le hRetired)
      refine Table.count_le_count fun selector p hp hHere => ?_
      obtain ⟨hWorkspace, hUnrevoked⟩ := Bool.and_eq_true_iff.mp hHere
      obtain ⟨hKept, hOld⟩ := unrevoked_retired hp hUnrevoked
      rw [hEnrolls.retired, List.mem_append, not_or, Option.mem_toList, Option.mem_toList] at hKept
      have hOwn : p.selector = selector := hKeyed.pairings _ _ hOld
      refine ⟨p, hOld, ?_⟩
      simp only [hWorkspace, hPruned selector p hOld hUnrevoked, Bool.true_and, Bool.and_true,
        Bool.and_eq_true, bne_iff_ne, ne_eq, decide_eq_true_eq, Option.mem_toList]
      rw [hOwn]
      exact ⟨hKept.2, hKept.1⟩

theorem within_enroll (hKeyed : WellKeyed s.toAuthorizations s.sessions)
    (h : Within s.toAuthorizations)
    (hPruned : s.pairingGrants.All fun _ p => unrevoked p = true → p.isLive now = true)
    (hEnrolls : Enrolls env s payload presented now tokens pending evicted e) :
    Within (adoptEnrollment s payload.capabilityId e).toAuthorizations := by
  have hKept := h.below (below_retired s.toAuthorizations e.retired now)
  obtain ⟨hTotal, hAt⟩ := enrolled_pairings hKeyed h hPruned hEnrolls rfl
  have hCandidates : (adoptEnrollment s payload.capabilityId e).toAuthorizations = e.candidates := rfl
  rw [hCandidates, hEnrolls.candidates]
  refine ⟨?_, le_trans (PairingsBelow.prune _).count_le hTotal,
    fun key => le_trans ((PairingsBelow.prune _).countAt_le key) (hAt key),
    hKept.outcomes.below fun _ => Table.mem_retain⟩
  refine le_trans (Table.size_insert_le _ _ _) (Nat.succ_le_of_lt (lt_of_le_of_lt ?_ hEnrolls.room))
  exact Table.size_le_size (below_retired s.toAuthorizations e.retired now).sessions

end Enrolling

/-! ## Reading the store -/

theorem within_reload (env : Env) {store : Authorizations} (h : Within store)
    (hKeyed : store.resumeOutcomes.All fun key o => (o.pairingSelector, o.requestId) = key)
    (now : Nat) : Within (readAuthorizationStore env store now) where
  sessions := by
    refine le_trans (Table.size_keyed_le _ _) (le_trans ?_ h.sessions)
    rw [List.length_map, ← Table.length_values]
    exact List.length_filter_le _ _
  pairings := by
    refine le_trans (PairingsBelow.prune _).count_le (le_trans ?_ h.pairings)
    refine le_trans (Table.count_keyed_le _ _) (le_trans (List.filter_sublist.countP_le) ?_)
    rw [← Table.length_filter_values, List.countP_eq_length_filter]
  workspaces key := by
    refine le_trans ((PairingsBelow.prune _).countAt_le key) (le_trans ?_ (h.workspaces key))
    refine le_trans (Table.count_keyed_le _ _) (le_trans (List.filter_sublist.countP_le) ?_)
    rw [← Table.length_filter_values, List.countP_eq_length_filter]
  outcomes := by
    refine ⟨?_, fun selector => ?_⟩
    · refine le_trans (Table.size_keyed_le _ _) (le_trans ?_ h.outcomes.size)
      rw [← Table.length_values]
      exact List.length_filter_le _ _
    refine le_trans (Table.count_keyed_le _ _) (le_trans (List.filter_sublist.countP_le) ?_)
    refine le_trans ?_ (h.outcomes.pairing selector)
    rw [List.countP_eq_length_filter, Table.length_filter_values]
    refine Table.count_le_count fun key o ho hSelector => ⟨o, ho, ?_⟩
    have hFirst : o.pairingSelector = key.1 := congrArg Prod.fst (hKeyed key o ho)
    rwa [hFirst] at hSelector

end Exosuit.Workbench
