import Exosuit.Workbench.AuthorityRule

/-!
# Keys of the authorization tables

Every entry is under the key that it names itself, and every live session has its grant.
-/

namespace Exosuit.Workbench

open Lib (Table)
open WorkbenchHostInner

def livePairings (s : WorkbenchState) (now : Nat) : List String :=
  ((pruneRetainedRevokedPairings (s.pairingGrants.retain fun _ p => p.isRetained now)).values.filter
    fun p => p.isLive now).map (·.selector)

section Pruning

variable (s : WorkbenchState) (now : Nat)

theorem pruned_sessionGrants : (retainLiveAuthorizations s now).sessionGrants =
    (s.sessionGrants.retain fun _ g => g.isLive now).retain fun _ g =>
      g.pairingSelector.all fun selector => decide (selector ∈ livePairings s now) := rfl

theorem pruned_sessions : (retainLiveAuthorizations s now).sessions =
    (s.sessions.retain fun _ session => session.isLive now).retain fun _ session =>
      session.pairingSelector.all fun selector => decide (selector ∈ livePairings s now) := rfl

theorem pruned_pairingGrants : (retainLiveAuthorizations s now).pairingGrants =
    pruneRetainedRevokedPairings (s.pairingGrants.retain fun _ p => p.isRetained now) := rfl

theorem pruned_resumeOutcomes : (retainLiveAuthorizations s now).resumeOutcomes =
    retainCandidateResumeOutcomes s.resumeOutcomes
      (retainLiveAuthorizations s now).pairingGrants now := rfl

end Pruning

/-! ## Enrolments -/

def reusablePairing (env : Env) (s : WorkbenchState) (payload : VerifiedWorkbenchTicket)
    (presented : Option (String × String)) (now : Nat) : Option WorkbenchPairingGrant :=
  (presentedGrant env s payload presented now).filter fun p =>
    p.capabilities == upgradedSessionCapabilities payload.capabilities

def replacedPairing (env : Env) (s : WorkbenchState) (payload : VerifiedWorkbenchTicket)
    (presented : Option (String × String)) (now : Nat) : Option String :=
  ((presentedGrant env s payload presented now).filter fun p =>
    p.capabilities != upgradedSessionCapabilities payload.capabilities).map (·.selector)

def enrolledPairing (env : Env) (s : WorkbenchState) (payload : VerifiedWorkbenchTicket)
    (presented : Option (String × String)) (now : Nat) (tokens : EnrollTokens)
    (pending : PendingCapability) : WorkbenchPairingGrant :=
  usedPairing ((reusablePairing env s payload presented now).getD
    (newPairing env payload pending.workspaceRoot (upgradedSessionCapabilities payload.capabilities)
      now tokens)) now

/-- What an enrolment that goes through decided. -/
structure Enrolls (env : Env) (s : WorkbenchState) (payload : VerifiedWorkbenchTicket)
    (presented : Option (String × String)) (now : Nat) (tokens : EnrollTokens)
    (pending : PendingCapability) (evicted : Option String) (e : Enrollment) : Prop where
  room : s.sessionGrants.size < MAX_SESSIONS
  isPending : matchingPending s payload now = some pending
  evicts : (reusablePairing env s payload presented now).isSome = true ∧ evicted = none ∨
    reusablePairing env s payload presented now = none ∧
      pairingRoom s payload.workspaceKey (replacedPairing env s payload presented now) now = .ok evicted
  retired : e.retired = evicted.toList ++ (replacedPairing env s payload presented now).toList
  id : e.session.id = env.sessionCredentialDigest tokens.sessionSecret
  selector : e.session.selector = tokens.sessionSelector
  workspaceKey : e.session.workspaceKey = payload.workspaceKey
  pairing : e.session.pairingSelector =
    some (enrolledPairing env s payload presented now tokens pending).selector
  candidates : e.candidates =
    let kept := e.retired.foldl (retirePairing · · now) s.toAuthorizations
    let pairing := enrolledPairing env s payload presented now tokens pending
    let pairings :=
      pruneRetainedRevokedPairings (AList.insert pairing.selector pairing kept.pairingGrants)
    { sessionGrants := AList.insert e.session.id (.from e.session) kept.sessionGrants
      pairingGrants := pairings
      resumeOutcomes := retainCandidateResumeOutcomes kept.resumeOutcomes pairings now }

theorem enrollable_ok {env : Env} {s : WorkbenchState} {payload : VerifiedWorkbenchTicket}
    {presented : Option (String × String)} {now : Nat} {rootValid : Bool} {tokens : EnrollTokens}
    {e : Enrollment} (h : enrollable env s payload presented now rootValid tokens = .ok e) :
    ∃ pending evicted, Enrolls env s payload presented now tokens pending evicted e := by
  unfold enrollable at h
  split at h
  · cases h
  · next hRoom =>
    split at h
    · cases h
    · next pending hPending =>
      split at h
      · unfold enrollmentFor at h
        dsimp only at h
        cases hReusable : reusablePairing env s payload presented now with
        | some reusable =>
          have hSome : ((presentedGrant env s payload presented now).filter fun p =>
              p.capabilities == upgradedSessionCapabilities payload.capabilities) = some reusable :=
            hReusable
          rw [hSome] at h
          cases h
          refine ⟨pending, none, ⟨Nat.lt_of_not_le hRoom, hPending, .inl ⟨by rw [hReusable]; rfl, rfl⟩,
            rfl, rfl, rfl, rfl, ?_, ?_⟩⟩
          · unfold enrolledPairing
            rw [hReusable]
            rfl
          · unfold enrolledPairing
            rw [hReusable]
            rfl
        | none =>
          have hNone : ((presentedGrant env s payload presented now).filter fun p =>
              p.capabilities == upgradedSessionCapabilities payload.capabilities) = none := hReusable
          rw [hNone] at h
          split at h
          · cases h
          · next evicted hEvicted =>
            cases h
            refine ⟨pending, evicted, ⟨Nat.lt_of_not_le hRoom, hPending, .inr ⟨hReusable, hEvicted⟩,
              rfl, rfl, rfl, rfl, ?_, ?_⟩⟩
            · unfold enrolledPairing
              rw [hReusable]
              rfl
            · unfold enrolledPairing
              rw [hReusable]
              rfl
      · cases h

/-! ## Resumptions and restorations -/

structure SameSession (g : WorkbenchSessionGrant) (s : WorkbenchSession) : Prop where
  selector : g.selector = s.selector
  projectId : g.projectId = s.projectId
  workspaceKey : g.workspaceKey = s.workspaceKey
  pairingSelector : g.pairingSelector = s.pairingSelector
  lastActivity : g.lastActivity = s.lastActivity
  expiresAt : g.expiresAt = s.expiresAt

theorem resumable_ok {env : Env} {s : WorkbenchState} {r : ResumeRequest}
    {pairing : WorkbenchPairingGrant} {sessionSecret sessionSelector : String} {now : Nat}
    {e : Resumption} (h : resumable env s r pairing sessionSecret sessionSelector now = .ok e) :
    s.pairingGrants.lookup r.pairingSelector = some pairing ∧ pairing.isLive now = true ∧
      ∃ replay, resumeReplay s r.key sessionSelector (env.sessionCredentialDigest sessionSecret) =
          .ok replay ∧
        e = resumption s r pairing
          (resumedSession env pairing sessionSecret sessionSelector replay now) sessionSecret now := by
  unfold resumable at h
  split at h
  · cases h
  · next hPairing =>
    obtain ⟨hLookup, hLive⟩ := Option.filter_eq_some_iff.mp (not_not.mp hPairing)
    split at h
    · cases h
    · next replay hReplay =>
      cases h
      exact ⟨hLookup, hLive, replay, hReplay, rfl⟩

def restoredSession (digest : String) (grant : WorkbenchSessionGrant) (entry : WorkbenchEntryBinding) :
    WorkbenchSession where
  id := digest
  selector := grant.selector
  projectId := grant.projectId
  workspaceKey := grant.workspaceKey
  workspaceRoot := grant.workspaceRoot
  capabilities := grant.capabilities
  entry := entry
  pairingSelector := grant.pairingSelector
  createdAt := grant.createdAt
  lastActivity := grant.lastActivity
  expiresAt := grant.expiresAt
  lastPersistedAt := grant.lastActivity

theorem restoreSession_cases (h : WorkbenchHostInner) (digest : String) (grant : WorkbenchSessionGrant)
    (git : GitSnapshot) (now : Nat) :
    WorkbenchHostInner.restoreSession h digest grant git now = h ∨
      h.state.sessionGrants.lookup digest = some grant ∧ ∃ entry,
        (WorkbenchHostInner.restoreSession h digest grant git now).state.toAuthorizations =
          h.state.toAuthorizations ∧
        (WorkbenchHostInner.restoreSession h digest grant git now).state.sessions =
          AList.insert digest (restoredSession digest grant entry) h.state.sessions := by
  unfold WorkbenchHostInner.restoreSession
  dsimp only
  split
  · exact .inl rfl
  · next hBound =>
    refine .inr ⟨not_not.mp fun hNe => hBound (.inl hNe),
      grant.entry.getD (.direct ((h.state.host.map (·.origin)).getD "")), ?_, ?_⟩
    · unfold retainProjectWorkspaceLimit
      split <;> rfl
    · unfold retainProjectWorkspaceLimit
      split <;> rfl

/-! ## Keys -/

def Backed (grants : Table String WorkbenchSessionGrant) (sessions : Table String WorkbenchSession) :
    Prop :=
  sessions.All fun id s => s.id = id ∧ ∃ g, grants.lookup id = some g ∧ SameSession g s

structure WellKeyed (a : Authorizations) (sessions : Table String WorkbenchSession) : Prop where
  grants : a.sessionGrants.All fun id g => g.credentialDigest = id
  pairings : a.pairingGrants.All fun selector p => p.selector = selector
  outcomes : a.resumeOutcomes.All fun key o => (o.pairingSelector, o.requestId) = key
  backed : Backed a.sessionGrants sessions

theorem sameSession_from (s : WorkbenchSession) : SameSession (.from s) s :=
  ⟨rfl, rfl, rfl, rfl, rfl, rfl⟩

theorem SameSession.isLive_eq {g : WorkbenchSessionGrant} {s : WorkbenchSession} (h : SameSession g s)
    (now : Nat) : g.isLive now = s.isLive now := by
  unfold WorkbenchSessionGrant.isLive WorkbenchSession.isLive
  rw [h.lastActivity, h.expiresAt]

namespace Backed

variable {grants : Table String WorkbenchSessionGrant} {sessions : Table String WorkbenchSession}

theorem fewer (h : Backed grants sessions) (keep : String → WorkbenchSession → Bool) :
    Backed grants (sessions.retain keep) :=
  Table.All.retain h keep

theorem retain (h : Backed grants sessions) (keep : WorkbenchSession → Bool)
    (keep' : WorkbenchSessionGrant → Bool)
    (hKeep : ∀ g s, SameSession g s → keep s = true → keep' g = true) :
    Backed (grants.retain fun _ => keep') (sessions.retain fun _ => keep) := by
  intro id s hs
  obtain ⟨hOld, hKept⟩ := Table.lookup_retain_eq_some.mp hs
  obtain ⟨hId, g, hg, hSame⟩ := h id s hOld
  exact ⟨hId, g, Table.lookup_retain_eq_some.mpr ⟨hg, hKeep g s hSame hKept⟩, hSame⟩

theorem insert (h : Backed grants sessions) (s : WorkbenchSession) :
    Backed (AList.insert s.id (.from s) grants) (AList.insert s.id s sessions) := by
  intro id s' hs'
  rw [Table.lookup_insert] at hs'
  rw [Table.lookup_insert]
  split at hs'
  · next hId =>
    cases hs'
    exact ⟨hId.symm, _, if_pos hId, sameSession_from s⟩
  · next hId =>
    rw [if_neg hId]
    exact h id s' hs'

theorem erase (h : Backed grants sessions) (id : String) :
    Backed (AList.erase id grants) (AList.erase id sessions) := by
  intro id' s hs
  rw [Table.lookup_erase] at hs ⊢
  split at hs
  · cases hs
  · next hId =>
    rw [if_neg hId]
    exact h id' s hs

end Backed

namespace WellKeyed

variable {a : Authorizations} {ss : Table String WorkbenchSession}

theorem prunePairings {t : Table String WorkbenchPairingGrant}
    (h : t.All fun selector p => p.selector = selector) :
    (pruneRetainedRevokedPairings t).All fun selector p => p.selector = selector :=
  h.retain _

theorem liveSessions {grants : Table String WorkbenchSessionGrant} (h : Backed grants ss) (now : Nat) :
    Backed (grants.retain fun _ g => g.isLive now) (ss.retain fun _ s => s.isLive now) := by
  refine Backed.retain h (·.isLive now) (·.isLive now) fun g session hSame hLive => ?_
  rw [hSame.isLive_eq now]
  exact hLive

theorem byPairing {grants : Table String WorkbenchSessionGrant} (h : Backed grants ss)
    (keep : Option String → Bool) :
    Backed (grants.retain fun _ g => keep g.pairingSelector)
      (ss.retain fun _ s => keep s.pairingSelector) := by
  refine h.retain (fun s => keep s.pairingSelector) (fun g => keep g.pairingSelector)
    fun g s hSame hKept => ?_
  rw [hSame.pairingSelector]
  exact hKept

theorem prune {s : WorkbenchState} (now : Nat) (h : WellKeyed s.toAuthorizations s.sessions) :
    WellKeyed (retainLiveAuthorizations s now).toAuthorizations
      (retainLiveAuthorizations s now).sessions where
  grants := by
    rw [pruned_sessionGrants]
    exact (h.grants.retain _).retain _
  pairings := by
    rw [pruned_pairingGrants]
    exact prunePairings (h.pairings.retain _)
  outcomes := by
    rw [pruned_resumeOutcomes]
    exact h.outcomes.retain _
  backed := by
    rw [pruned_sessionGrants, pruned_sessions]
    exact byPairing (liveSessions h.backed now) fun pairing =>
      pairing.all fun selector => decide (selector ∈ livePairings s now)

theorem retirePairing (h : WellKeyed a ss) (selector : String) (now : Nat) :
    WellKeyed (WorkbenchHostInner.retirePairing a selector now)
      (ss.retain fun _ s => s.pairingSelector != some selector) where
  grants := h.grants.retain _
  pairings := h.pairings.modify fun _ hp => hp
  outcomes := h.outcomes.retain _
  backed := byPairing h.backed (· != some selector)

theorem retirePairings (h : WellKeyed a ss) (retired : List String) (now : Nat) :
    WellKeyed (retired.foldl (WorkbenchHostInner.retirePairing · · now) a)
      (ss.retain fun _ s => s.pairingSelector.all fun selector => decide (selector ∉ retired)) := by
  induction retired generalizing a ss with
  | nil => exact ⟨h.grants, h.pairings, h.outcomes, h.backed.fewer _⟩
  | cons selector retired ih =>
    have hRest := ih (h.retirePairing selector now)
    refine ⟨hRest.grants, hRest.pairings, hRest.outcomes, fun id s hs => ?_⟩
    obtain ⟨hOld, hKept⟩ := Table.lookup_retain_eq_some.mp hs
    refine hRest.backed id s (Table.lookup_retain_eq_some.mpr
      ⟨Table.lookup_retain_eq_some.mpr ⟨hOld, ?_⟩, ?_⟩)
    · cases hPairing : s.pairingSelector with
      | none => rfl
      | some other =>
        rw [hPairing, Option.all_some, decide_eq_true_eq, List.mem_cons, not_or] at hKept
        exact bne_iff_ne.mpr fun hEq => hKept.1 (Option.some.inj hEq)
    · cases hPairing : s.pairingSelector with
      | none => rfl
      | some other =>
        rw [hPairing, Option.all_some, decide_eq_true_eq, List.mem_cons, not_or] at hKept
        exact decide_eq_true hKept.2

theorem enroll {env : Env} {s : WorkbenchState} {payload : VerifiedWorkbenchTicket}
    {presented : Option (String × String)} {now : Nat} {tokens : EnrollTokens}
    {pending : PendingCapability} {evicted : Option String} {e : Enrollment}
    (h : WellKeyed s.toAuthorizations s.sessions)
    (hEnrolls : Enrolls env s payload presented now tokens pending evicted e) :
    WellKeyed (adoptEnrollment s payload.capabilityId e).toAuthorizations
      (adoptEnrollment s payload.capabilityId e).sessions := by
  have hKept := h.retirePairings e.retired now
  have hCandidates : (adoptEnrollment s payload.capabilityId e).toAuthorizations = e.candidates := rfl
  rw [hCandidates, hEnrolls.candidates]
  refine ⟨hKept.grants.insert rfl, prunePairings (hKept.pairings.insert rfl),
    hKept.outcomes.retain _, ?_⟩
  exact hKept.backed.insert e.session

theorem resume {env : Env} {s : WorkbenchState} {r : ResumeRequest} {pairing : WorkbenchPairingGrant}
    {sessionSecret sessionSelector : String} {now : Nat} {e : Resumption}
    (h : WellKeyed s.toAuthorizations s.sessions)
    (hResumable : resumable env s r pairing sessionSecret sessionSelector now = .ok e) :
    WellKeyed (adoptResumption s e).toAuthorizations (adoptResumption s e).sessions := by
  obtain ⟨hLookup, -, replay, -, rfl⟩ := resumable_ok hResumable
  refine ⟨h.grants.insert rfl, h.pairings.insert rfl, h.outcomes.insert ?_, h.backed.insert _⟩
  exact congrArg (·, r.requestId) (h.pairings _ _ hLookup)

theorem activity {s : WorkbenchState} {digest : String} {session : WorkbenchSession}
    {now persistedAt : Nat} (h : WellKeyed s.toAuthorizations s.sessions)
    (hLookup : s.sessions.lookup digest = some session) :
    WellKeyed (noteActivity s digest
        { session with lastActivity := now, lastPersistedAt := persistedAt } now).toAuthorizations
      (noteActivity s digest
        { session with lastActivity := now, lastPersistedAt := persistedAt } now).sessions := by
  refine ⟨h.grants.modify fun _ hg => hg, h.pairings, h.outcomes, fun id s' hs' => ?_⟩
  unfold noteActivity at hs' ⊢
  dsimp only at hs' ⊢
  rw [Table.lookup_insert] at hs'
  rw [Table.lookup_modify]
  split at hs'
  · next hId =>
    cases hs'
    obtain ⟨hOwn, g, hg, hSame⟩ := h.backed digest session hLookup
    refine ⟨hOwn.trans hId.symm, { g with lastActivity := now }, ?_, ?_⟩
    · rw [if_pos hId, hg]
      rfl
    · exact ⟨hSame.selector, hSame.projectId, hSame.workspaceKey, hSame.pairingSelector, rfl,
        hSame.expiresAt⟩
  · next hId =>
    rw [if_neg hId]
    exact h.backed id s' hs'

theorem renew {s state : WorkbenchState} {key id : String} {now : Nat} {renewed : WorkbenchSession}
    (h : WellKeyed s.toAuthorizations s.sessions)
    (hRenew : renewSession s key id now = (state, some renewed)) :
    WellKeyed state.toAuthorizations state.sessions := by
  unfold renewSession at hRenew
  split at hRenew
  · cases hRenew
  · next current hCurrent =>
    cases hRenew
    have hOwn : current.id = id := (h.backed id current (Option.filter_eq_some_iff.mp hCurrent).1).1
    subst hOwn
    exact ⟨h.grants.insert rfl, h.pairings, h.outcomes, h.backed.insert
      { current with
        lastActivity := now
        lastPersistedAt := now
        expiresAt := saturatingAdd now SESSION_RENEWAL_LIFETIME }⟩

theorem restore {h : WorkbenchHostInner} {digest : String} {grant : WorkbenchSessionGrant}
    {git : GitSnapshot} {now : Nat} (hKeyed : WellKeyed h.state.toAuthorizations h.state.sessions) :
    WellKeyed (WorkbenchHostInner.restoreSession h digest grant git now).state.toAuthorizations
      (WorkbenchHostInner.restoreSession h digest grant git now).state.sessions := by
  obtain hSame | ⟨hGrant, entry, hAuthorizations, hSessions⟩ :=
    restoreSession_cases h digest grant git now
  · rw [hSame]
    exact hKeyed
  · rw [hAuthorizations, hSessions]
    refine ⟨hKeyed.grants, hKeyed.pairings, hKeyed.outcomes, ?_⟩
    exact Table.All.insert hKeyed.backed ⟨rfl, grant, hGrant, rfl, rfl, rfl, rfl, rfl, rfl⟩

theorem reload (env : Env) (store : Authorizations) (now : Nat) :
    WellKeyed (readAuthorizationStore env store now) ∅ :=
  ⟨Table.All.keyed fun _ _ => rfl, prunePairings (Table.All.keyed fun _ _ => rfl),
    Table.All.keyed fun _ _ => rfl, Table.All.empty⟩

theorem invalidate {s : WorkbenchState} (h : WellKeyed s.toAuthorizations s.sessions)
    (keys : List String) (now : Nat) :
    WellKeyed (invalidated s keys now)
      (s.sessions.retain fun _ session => !decide (session.workspaceKey ∈ keys)) := by
  refine ⟨h.grants.retain _, prunePairings (h.pairings.foldl_modify _ fun _ _ hp => hp),
    (h.outcomes.retain _).retain _, ?_⟩
  refine h.backed.retain (fun session => !decide (session.workspaceKey ∈ keys))
    (fun g => decide (g.workspaceKey ∉ keys)) fun g session hSame hKept => ?_
  rw [hSame.workspaceKey]
  simpa using hKept

theorem selector_movePairing (workspace : WorkspaceRegistration) (entry : WorkbenchEntryBinding)
    (p : WorkbenchPairingGrant) : (movePairing workspace entry p).selector = p.selector := by
  unfold movePairing WorkbenchPairingGrant.restoreMissingWorkspaceMove
  split <;> rfl

theorem reconcile {s : WorkbenchState} (h : WellKeyed s.toAuthorizations s.sessions)
    (workspace : WorkspaceRegistration) (entry : WorkbenchEntryBinding)
    (moved replaced : List String) (now : Nat) :
    WellKeyed (moveCandidates s workspace entry moved replaced now)
      (s.sessions.retain fun _ session => !(session.pairingSelector.any fun selector =>
        decide (selector ∈ moved) || decide (selector ∈ replaced))) := by
  refine ⟨h.grants.retain _, prunePairings (Table.All.foldl_modify replaced
      (h.pairings.foldl_modify moved fun _ p hp => (selector_movePairing workspace entry p).trans hp)
      fun _ _ hp => hp), (h.outcomes.retain _).retain _, ?_⟩
  refine h.backed.retain (fun session => !(session.pairingSelector.any fun selector =>
      decide (selector ∈ moved) || decide (selector ∈ replaced)))
    (fun g => g.pairingSelector.all fun selector =>
      decide (selector ∉ moved) && decide (selector ∉ replaced)) fun g session hSame hKept => ?_
  rw [hSame.pairingSelector]
  cases hPairing : session.pairingSelector with
  | none => rfl
  | some selector => simpa [hPairing] using hKept

theorem revocation {s : WorkbenchState} (h : WellKeyed s.toAuthorizations s.sessions)
    (selector : String) (now : Nat)
    (outcome : Option (WorkbenchResumeOutcomeKey × WorkbenchResumeOutcome))
    (hOutcome : ∀ key o, outcome = some (key, o) → (o.pairingSelector, o.requestId) = key) :
    WellKeyed (revocationCandidates s.toAuthorizations selector now outcome)
      (s.sessions.retain fun _ session => !(session.pairingSelector == some selector)) := by
  refine ⟨h.grants.retain _, prunePairings (h.pairings.modify fun _ hp => hp), ?_,
    byPairing h.backed (· != some selector)⟩
  cases outcome with
  | none => exact (h.outcomes.retain _).retain _
  | some o => exact ((h.outcomes.retain _).insert (hOutcome o.1 o.2 rfl)).retain _

theorem preserves (env : Env) {T : Nat → Prop} {P : Authority → AuthorityAction → Prop}
    (hClock : ∀ {σ : Authority} {a now}, P σ a → σ.reading a = some now → T now) :
    Authority.Preserves env T P WellKeyed WellKeyed where
  clock := hClock
  saves := id
  restores _ _ h := h
  fewerSessions keep h := ⟨h.grants, h.pairings, h.outcomes, h.backed.fewer keep⟩
  pruneSessions {_ now} _ h := ⟨h.grants.retain (fun _ g => g.isLive now), h.pairings, h.outcomes,
    liveSessions h.backed now⟩
  prune _ h := h.prune _
  redeem _ h _ := ⟨h.grants.insert rfl, h.pairings, h.outcomes, h.backed.insert _⟩
  withdraw id h := ⟨h.grants.erase id, h.pairings, h.outcomes, h.backed.erase id⟩
  enroll _ h hEnrollable := by
    obtain ⟨pending, evicted, hEnrolls⟩ := enrollable_ok hEnrollable
    exact h.enroll hEnrolls
  terminal _ _ _ h _ _ := ⟨h.grants, h.pairings, h.outcomes.insert rfl, h.backed⟩
  expire _ _ _ h _ _ := h.revocation _ _ _ fun key o ho => by
    obtain ⟨rfl, rfl⟩ := Prod.mk.inj (Option.some.inj ho)
    rfl
  resume _ _ _ h _ _ hResumable := h.resume hResumable
  revoke selector _ _ h _ := h.revocation selector _ none nofun
  forget selector _ _ h := ⟨h.grants.retain _, h.pairings.erase selector, h.outcomes.retain _,
    byPairing h.backed (· != some selector)⟩
  rename selector _ h := ⟨h.grants, h.pairings.modify fun _ hp => hp, h.outcomes, h.backed⟩
  restore h := h.restore
  activity _ _ _ h hLookup := h.activity hLookup
  renew _ h hRenew := h.renew hRenew
  invalidate keys _ _ h := h.invalidate keys _
  reconcile _ _ _ _ h _ _ := h.reconcile _ _ _ _ _
  reload _ _ := reload env _ _

end WellKeyed

end Exosuit.Workbench
