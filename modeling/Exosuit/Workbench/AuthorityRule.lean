import Exosuit.Workbench.Authority

/-!
# The rule for authorization invariants

What an invariant of the authorizations and the live sessions must be kept by, so that
it holds of the memory and of the store, in every state of every run.
-/

namespace Exosuit.Workbench

open Lib (Table)
open WorkbenchHostInner

def invalidated (state : WorkbenchState) (workspaceKeys : List String) (now : Nat) : Authorizations :=
  let selectors := (state.pairingGrants.values.filter fun p =>
    decide (p.workspaceKey ∈ workspaceKeys)).map (·.selector)
  let pairings := pruneRetainedRevokedPairings <|
    selectors.foldl (fun t selector => t.modify selector fun p => p.revoke now .workspaceMissing)
      state.pairingGrants
  { sessionGrants := state.sessionGrants.retain fun _ s => decide (s.workspaceKey ∉ workspaceKeys)
    pairingGrants := pairings
    resumeOutcomes := retainCandidateResumeOutcomes
      (state.resumeOutcomes.retain fun key outcome =>
        decide (key.1 ∉ selectors) || outcome.isTerminal) pairings now }

namespace Authority

variable {env : Env} {T : Nat → Prop} {P : Authority → AuthorityAction → Prop}
  {I R : Authorizations → Table String WorkbenchSession → Prop}

/-- The condition on a host's memory. -/
abbrev On (I : Authorizations → Table String WorkbenchSession → Prop) (state : WorkbenchState) : Prop :=
  I state.toAuthorizations state.sessions

/-- Along steps that meet `P`, whose clock readings then meet `T`, every update keeps `I`; what a
launch may roll back to meets `R`. -/
structure Preserves (env : Env) (T : Nat → Prop) (P : Authority → AuthorityAction → Prop)
    (I R : Authorizations → Table String WorkbenchSession → Prop) : Prop where
  clock : ∀ {σ a now}, P σ a → σ.reading a = some now → T now
  saves : ∀ {a ss}, I a ss → R a ss
  restores : ∀ {σ w r}, P σ (.rollBack w) → σ.holder = .launching (some r) →
    R r.authorizations r.sessions → I r.authorizations r.sessions
  fewerSessions : ∀ {a ss} (keep : String → WorkbenchSession → Bool), I a ss → I a (ss.retain keep)
  pruneSessions : ∀ {s : WorkbenchState} {now : Nat}, T now → On I s →
    On I (retainLiveSessions s now)
  prune : ∀ {s : WorkbenchState} {now : Nat}, T now → On I s →
    On I (retainLiveAuthorizations s now)
  redeem : ∀ {σ payload now rootValid tokens pending tokens'},
    P σ (.redeem payload now rootValid tokens) → On I (redeemPruned σ.inner.state now) →
      redeemable (redeemPruned σ.inner.state now) payload now rootValid tokens =
        .ok (pending, tokens') →
      On I (insertSession (redeemPruned σ.inner.state now)
        (redeemedSession env payload pending now tokens'))
  withdraw : ∀ {s : WorkbenchState} (sessionId : String), On I s → On I (removeSession s sessionId)
  enroll : ∀ {σ payload presented now rootValid tokens w e},
    P σ (.enroll payload presented now rootValid tokens w) → On I (enrollPruned σ.inner.state now) →
      enrollable env (enrollPruned σ.inner.state now) payload presented now rootValid tokens = .ok e →
      On I (adoptEnrollment (enrollPruned σ.inner.state now) payload.capabilityId e)
  terminal : ∀ {σ r now pairing rootValid w s}, σ.holder = .resuming r now pairing →
    P σ (.finishResume rootValid w) → s = retainLiveAuthorizations σ.inner.state now → On I s →
      r.key ∉ s.resumeOutcomes → resumeOutcomeCapacity s.resumeOutcomes r.key = true →
      I (terminalCandidates s.toAuthorizations r.key .invalid now) s.sessions
  expire : ∀ {σ r now pairing rootValid w s}, σ.holder = .resuming r now pairing →
    P σ (.finishResume rootValid w) → s = retainLiveAuthorizations σ.inner.state now → On I s →
      r.pairingSelector ∈ s.pairingGrants → resumeOutcomeCapacity s.resumeOutcomes r.key = true →
      I (revocationCandidates s.toAuthorizations r.pairingSelector now
          (some (r.key, terminalResumeOutcome r.key .expired now)))
        (s.sessions.retain fun _ session => !(session.pairingSelector == some r.pairingSelector))
  resume : ∀ {σ r now pairing rootValid w s sessionSecret sessionSelector e},
    σ.holder = .resuming r now pairing → P σ (.finishResume rootValid w) →
      s = retainLiveAuthorizations σ.inner.state now → On I s →
      env.derivePairingToken r.pairingSecret r.requestId SESSION_SECRET_DOMAIN = some sessionSecret →
      env.derivePairingToken r.pairingSecret r.requestId SESSION_SELECTOR_DOMAIN =
        some sessionSelector →
      resumable env s r pairing sessionSecret sessionSelector now = .ok e →
      On I (adoptResumption s e)
  revoke : ∀ {σ reference workspaceKey now w s} (selector : String),
    P σ (.revoke reference workspaceKey now w) → s = enrollPruned σ.inner.state now → On I s →
      selector ∈ s.pairingGrants →
      I (revocationCandidates s.toAuthorizations selector now none)
        (s.sessions.retain fun _ session => !(session.pairingSelector == some selector))
  forget : ∀ {σ reference workspaceKey now w s} (selector : String),
    P σ (.forget reference workspaceKey now w) → s = enrollPruned σ.inner.state now → On I s →
      I (forgetCandidates s.toAuthorizations selector)
        (s.sessions.retain fun _ session => !(session.pairingSelector == some selector))
  rename : ∀ {s : WorkbenchState} (selector nickname : String), On I s →
      I (renameCandidates s.toAuthorizations selector nickname) s.sessions
  restore : ∀ {h credentialDigest grant git now}, On I h.state →
      On I (WorkbenchHostInner.restoreSession h credentialDigest grant git now).state
  activity : ∀ {σ now s credentialDigest session} (persistedAt : Nat), P σ (.finishRead now) →
      s = retainLiveAuthorizations σ.inner.state now → On I s →
      s.sessions.lookup credentialDigest = some session →
      On I (noteActivity s credentialDigest
        { session with lastActivity := now, lastPersistedAt := persistedAt } now)
  renew : ∀ {σ sessionKey sessionId now state renewed}, P σ (.renew sessionKey sessionId now) →
      On I σ.inner.state → renewSession σ.inner.state sessionKey sessionId now = (state, some renewed) →
      On I state
  invalidate : ∀ {s : WorkbenchState} (workspaceKeys : List String) {now : Nat}, T now → On I s →
      I (invalidated s workspaceKeys now)
        (s.sessions.retain fun _ session => !decide (session.workspaceKey ∈ workspaceKeys))
  reconcile : ∀ {σ workspace entry now w s projectInstanceId moved replaced},
    P σ (.reconcile workspace entry now w) → entry.isPublished = true →
      entry.projectInstanceId = some projectInstanceId →
      s = retainLiveAuthorizations σ.inner.state now → On I s →
      moved = movedPairings env s workspace entry projectInstanceId →
      replaced = replacedPairings env s workspace projectInstanceId →
      I (moveCandidates s workspace entry moved replaced now)
        (s.sessions.retain fun _ session => !(session.pairingSelector.any fun selector =>
          decide (selector ∈ moved) || decide (selector ∈ replaced)))
  reload : ∀ {σ rest now store}, P σ (.restart rest now) → I store ∅ →
      I (readAuthorizationStore env store now) ∅

/-! ## Hosts -/

structure HostHolds (I : Authorizations → Table String WorkbenchSession → Prop)
    (h : WorkbenchHostInner) : Prop where
  memory : On I h.state
  store : I h.store ∅

structure Holds (I R : Authorizations → Table String WorkbenchSession → Prop) (σ : Authority) :
    Prop where
  host : HostHolds I σ.inner
  rollback : ∀ r, σ.holder = .launching (some r) → R r.authorizations r.sessions

namespace Preserves

theorem noSessions (hI : Preserves env T P I R) {a : Authorizations} {ss : Table String WorkbenchSession}
    (h : I a ss) : I a ∅ := by
  have hNone : ss.retain (fun _ _ => false) = ∅ := AList.ext (List.filter_eq_nil_iff.mpr (by simp))
  exact hNone ▸ hI.fewerSessions (fun _ _ => false) h

variable {h : WorkbenchHostInner}

theorem write (hI : Preserves env T P I R) (w : StoreWrite) {a : Authorizations}
    {ss : Table String WorkbenchSession} (ha : I a ss) (hHost : HostHolds I h) :
    HostHolds I (h.writeAuthorizationStore w a) := by
  cases w with
  | refused => exact hHost
  | done => exact ⟨hHost.memory, hI.noSessions ha⟩
  | lateError => exact ⟨hHost.memory, hI.noSessions ha⟩

theorem adopt (hI : Preserves env T P I R) (w : StoreWrite) {a : Authorizations}
    {gone : WorkbenchSession → Bool} (ha : I a (h.state.sessions.retain fun _ s => !gone s))
    (hHost : HostHolds I h) : HostHolds I (h.adopt w a gone).1 := by
  have hWritten := hI.write w ha hHost
  cases w with
  | refused => exact hWritten
  | lateError => exact hWritten
  | done => exact ⟨ha, hWritten.store⟩

theorem persistPairingRevocation (hI : Preserves env T P I R) {selector : String} {now : Nat}
    {outcome : Option (WorkbenchResumeOutcomeKey × WorkbenchResumeOutcome)} (w : StoreWrite)
    (hT : T now) (ha : selector ∈ h.state.pairingGrants →
      I (revocationCandidates h.state.toAuthorizations selector now outcome)
        (h.state.sessions.retain fun _ s => !(s.pairingSelector == some selector)))
    (hHost : HostHolds I h) :
    HostHolds I (WorkbenchHostInner.persistPairingRevocation h selector now outcome w).1 := by
  unfold WorkbenchHostInner.persistPairingRevocation
  split
  · next hMem =>
    have hAdopted := hI.adopt w (ha hMem) hHost
    split
    · next hDone =>
      rw [hDone] at hAdopted
      exact ⟨hI.pruneSessions hT hAdopted.memory, hAdopted.store⟩
    · next hFailed =>
      rw [hFailed] at hAdopted
      exact hAdopted
  · exact hHost

theorem persistTerminalResumeOutcome (hI : Preserves env T P I R) {key : WorkbenchResumeOutcomeKey}
    {error : WorkbenchResumeTerminalError} {now : Nat} (w : StoreWrite)
    (ha : key ∉ h.state.resumeOutcomes → resumeOutcomeCapacity h.state.resumeOutcomes key = true →
      I (terminalCandidates h.state.toAuthorizations key error now) h.state.sessions)
    (hHost : HostHolds I h) :
    HostHolds I (WorkbenchHostInner.persistTerminalResumeOutcome h key error now w).1 := by
  unfold WorkbenchHostInner.persistTerminalResumeOutcome
  split
  · exact hHost
  · next hNew =>
    split
    · next hRoom =>
      have hAdopted := hI.adopt w (hI.fewerSessions (fun _ s => !(fun _ => false) s) (ha hNew hRoom))
        hHost
      split <;> next hAdopt =>
        rw [hAdopt] at hAdopted
        exact hAdopted
    · exact hHost

theorem resumePairing (hI : Preserves env T P I R) {σ : Authority} {r : ResumeRequest} {now : Nat}
    {pairing : WorkbenchPairingGrant} {rootValid : Bool} {w : StoreWrite}
    (hHolder : σ.holder = .resuming r now pairing) (hP : P σ (.finishResume rootValid w))
    (hHost : HostHolds I σ.inner) :
    HostHolds I (WorkbenchHostInner.resumePairing env σ.inner r pairing now rootValid w).1 := by
  let pruned := σ.inner.withState (retainLiveAuthorizations σ.inner.state now)
  have hT : T now := hI.clock hP (by unfold Authority.reading; rw [hHolder])
  have hPruned : HostHolds I pruned := ⟨hI.prune hT hHost.memory, hHost.store⟩
  unfold WorkbenchHostInner.resumePairing
  dsimp only
  split
  · have hTerminal := hI.persistTerminalResumeOutcome w
      (fun hNew hRoom => hI.terminal hHolder hP rfl hPruned.memory hNew hRoom) hPruned
    generalize WorkbenchHostInner.persistTerminalResumeOutcome pruned r.key .invalid now w = persisted
      at hTerminal
    obtain ⟨h, answer⟩ := persisted
    cases answer <;> exact hTerminal
  · split
    · split
      · next hRoom =>
        have hRevoked := hI.persistPairingRevocation w hT
          (fun hMem => hI.expire hHolder hP rfl hPruned.memory hMem hRoom) hPruned
        generalize WorkbenchHostInner.persistPairingRevocation pruned r.pairingSelector now
          (some (r.key, terminalResumeOutcome r.key .expired now)) w = persisted at hRevoked
        obtain ⟨h, done⟩ := persisted
        cases done <;> exact hRevoked
      · exact hPruned
    · split
      · next sessionSecret sessionSelector hSecret hSelector =>
        split
        · exact hPruned
        · next e hResumable =>
          have hAdopted := hI.resume hHolder hP rfl hPruned.memory hSecret hSelector hResumable
          have hWritten := hI.write w hAdopted hPruned
          cases w with
          | done => exact ⟨hAdopted, hWritten.store⟩
          | refused => exact hWritten
          | lateError => exact hWritten
      · exact hHost

theorem enrollPruned (hI : Preserves env T P I R) {now : Nat} (hT : T now) (hHost : HostHolds I h) :
    HostHolds I (h.withState (WorkbenchHostInner.enrollPruned h.state now)) :=
  ⟨hI.prune (s := retainLivePendingCapabilities h.state now) hT hHost.memory, hHost.store⟩

theorem revokePairing (hI : Preserves env T P I R) {σ : Authority} {reference : String}
    {workspaceKey : Option String} {now : Nat} {w : StoreWrite}
    (hP : P σ (.revoke reference workspaceKey now w)) (hHost : HostHolds I σ.inner) :
    HostHolds I (WorkbenchHostInner.revokePairing σ.inner reference workspaceKey now w).1 := by
  have hT : T now := hI.clock hP rfl
  have hPruned := hI.enrollPruned hT hHost
  unfold WorkbenchHostInner.revokePairing
  split
  · dsimp only
    split
    · exact hPruned
    · next selector _ =>
      have hRevoked := hI.persistPairingRevocation w hT
        (fun hMem => hI.revoke selector hP rfl hPruned.memory hMem) hPruned
      split <;> next hPersist =>
        rw [hPersist] at hRevoked
        exact hRevoked
  · exact hHost

theorem forgetPairing (hI : Preserves env T P I R) {σ : Authority} {reference : String}
    {workspaceKey : Option String} {now : Nat} {w : StoreWrite}
    (hP : P σ (.forget reference workspaceKey now w)) (hHost : HostHolds I σ.inner) :
    HostHolds I (WorkbenchHostInner.forgetPairing σ.inner reference workspaceKey now w).1 := by
  have hT : T now := hI.clock hP rfl
  have hPruned := hI.enrollPruned hT hHost
  unfold WorkbenchHostInner.forgetPairing
  split
  · dsimp only
    split
    · exact hPruned
    · next selector _ =>
      have hForgotten := hI.adopt w (hI.forget selector hP rfl hPruned.memory) hPruned
      split
      · next hAdopt =>
        rw [hAdopt] at hForgotten
        exact ⟨hI.pruneSessions hT hForgotten.memory, hForgotten.store⟩
      · next hAdopt =>
        rw [hAdopt] at hForgotten
        exact hForgotten
  · exact hHost

theorem renamePairing (hI : Preserves env T P I R) (reference nickname : String)
    (workspaceKey : Option String) {now : Nat} (hT : T now) (w : StoreWrite) (hHost : HostHolds I h) :
    HostHolds I (WorkbenchHostInner.renamePairing h reference nickname workspaceKey now w).1 := by
  have hPruned : HostHolds I (h.withState (retainLiveAuthorizations h.state now)) :=
    ⟨hI.prune hT hHost.memory, hHost.store⟩
  unfold WorkbenchHostInner.renamePairing
  dsimp only
  split
  · split
    · exact hPruned
    · next selector _ =>
      have hRenamed := hI.adopt w (hI.fewerSessions (fun _ s => !(fun _ => false) s)
        (hI.rename selector (Lib.Text.trim nickname) hPruned.memory)) hPruned
      split <;> next hAdopt =>
        rw [hAdopt] at hRenamed
        exact hRenamed
  · exact hHost

/-! ## Workspaces -/

theorem invalidateRemoved (hI : Preserves env T P I R) (workspaceKeys : List String) {now : Nat} (hT : T now)
    (w : StoreWrite) (hHost : HostHolds I h) :
    HostHolds I (h.invalidateRemovedWorkspaceAuthorizations workspaceKeys now w).1 := by
  have hAdopted := hI.adopt w (hI.invalidate workspaceKeys hT hHost.memory) hHost
  unfold WorkbenchHostInner.invalidateRemovedWorkspaceAuthorizations
  dsimp only
  split
  · exact hHost
  · split
    · exact ⟨hI.fewerSessions (fun _ s => !decide (s.workspaceKey ∈ workspaceKeys)) hHost.memory,
        hHost.store⟩
    · exact hAdopted

theorem removeRoot_on (roots : List String) {s : WorkbenchState} (hMemory : On I s) :
    On I (roots.foldl removeRoot s) := by
  induction roots generalizing s with
  | nil => exact hMemory
  | cons root roots ih =>
    refine ih ?_
    unfold removeRoot
    split <;> exact hMemory

theorem removeRoots (hI : Preserves env T P I R) (roots : List String) {now : Nat} (hT : T now)
    (w : StoreWrite) (hHost : HostHolds I h) : HostHolds I (h.removeRoots roots now w).1 := by
  have hRemoved := hI.invalidateRemoved
    (roots.filterMap fun root => h.state.workspacesByRoot.lookup root) hT w hHost
  unfold WorkbenchHostInner.removeRoots
  dsimp only
  split <;> next hInvalidate =>
    rw [hInvalidate] at hRemoved
    first
    | exact hRemoved
    | exact ⟨removeRoot_on roots hRemoved.memory, hRemoved.store⟩

theorem reconcileDirect (hI : Preserves env T P I R) (workspace : WorkspaceRegistration)
    (index : Option (List String)) {now : Nat} (hT : T now) (w : StoreWrite) (hHost : HostHolds I h) :
    HostHolds I (h.reconcileDirectWorkspaceMove workspace index now w).1 := by
  cases index with
  | none => exact hHost
  | some index => exact hI.removeRoots _ hT w hHost

theorem insertDiscovered_on (workspaces : List WorkspaceRegistration) {s : WorkbenchState}
    (hMemory : On I s) : On I (workspaces.foldl insertDiscoveredWorkspace s) := by
  induction workspaces generalizing s with
  | nil => exact hMemory
  | cons workspace workspaces ih =>
    refine ih ?_
    unfold insertDiscoveredWorkspace
    split <;> exact hMemory

theorem workspaceLimit_on (key : String) (now : Nat) {s : WorkbenchState} (hMemory : On I s) :
    On I (retainProjectWorkspaceLimit s key now).1 := by
  unfold retainProjectWorkspaceLimit
  split <;> exact hMemory

theorem projectWorkspaces (hI : Preserves env T P I R) (discovered : List WorkspaceRegistration)
    (index : Option (List String)) (currentRoot : Option String) (key : String) {now : Nat}
    (hT : T now) (w : StoreWrite) (hHost : HostHolds I h) :
    HostHolds I (h.projectWorkspaceProjections discovered index currentRoot key now w) := by
  have hDiscovered : HostHolds I
      { h with state := discovered.foldl insertDiscoveredWorkspace h.state } :=
    ⟨insertDiscovered_on discovered hHost.memory, hHost.store⟩
  unfold WorkbenchHostInner.projectWorkspaceProjections
  dsimp only
  generalize hRoots : WorkbenchHostInner.removeRoots _ _ now w = result
  have hRemoved : HostHolds I result.1 := hRoots ▸ hI.removeRoots _ hT w hDiscovered
  obtain ⟨h', done⟩ := result
  cases done with
  | false => exact hRemoved
  | true => exact ⟨workspaceLimit_on key now hRemoved.memory, hRemoved.store⟩

theorem reconcilePublished (hI : Preserves env T P I R) {σ : Authority}
    {workspace : WorkspaceRegistration} {entry : WorkbenchEntryBinding} {now : Nat} {w : StoreWrite}
    (hP : P σ (.reconcile workspace entry now w)) (hHost : HostHolds I σ.inner) :
    HostHolds I (reconcilePublishedWorkspaceMove env σ.inner workspace entry now w).1 ∧
      ∀ r, (reconcilePublishedWorkspaceMove env σ.inner workspace entry now w).2 = some (some r) →
        R r.authorizations r.sessions := by
  unfold reconcilePublishedWorkspaceMove
  cases hPublished : entry.isPublished with
  | false => exact ⟨hHost, fun r hr => by cases hr⟩
  | true =>
    cases hInstance : entry.projectInstanceId with
    | none => exact ⟨hHost, fun r hr => by cases hr⟩
    | some projectInstanceId =>
      have hPruned : HostHolds I
          { σ.inner with state := retainLiveAuthorizations σ.inner.state now } :=
        ⟨hI.prune (hI.clock hP rfl) hHost.memory, hHost.store⟩
      dsimp only
      split
      · exact ⟨hPruned, fun r hr => by cases hr⟩
      · have hAdopted := hI.adopt w
          (hI.reconcile hP hPublished hInstance rfl hPruned.memory rfl rfl) hPruned
        split
        · next hAdopt =>
          rw [hAdopt] at hAdopted
          exact ⟨hAdopted, fun r hr => by cases hr⟩
        · next hAdopt =>
          rw [hAdopt] at hAdopted
          refine ⟨⟨hAdopted.memory, hAdopted.store⟩, fun r hr => ?_⟩
          cases hr
          exact hI.saves hPruned.memory

/-! ## Steps -/

variable {σ σ' : Authority} {reply : Reply}

theorem holds_setState (hHolds : Holds I R σ) {state : WorkbenchState} (hState : On I state) :
    Holds I R (σ.setState state) :=
  ⟨⟨hState, hHolds.host.store⟩, hHolds.rollback⟩

theorem holds_setInner (hHolds : Holds I R σ) (hHost : HostHolds I h) : Holds I R (σ.setInner h) :=
  ⟨hHost, hHolds.rollback⟩

theorem holds_hold (hHolds : Holds I R σ) {holder : Holder}
    (hHolder : ∀ r, holder = .launching (some r) → R r.authorizations r.sessions) :
    Holds I R (σ.hold holder) :=
  ⟨hHolds.host, hHolder⟩

theorem holds_persisted (hI : Preserves env T P I R) (w : StoreWrite) (hHolds : Holds I R σ) :
    Holds I R (σ.persisted w) :=
  holds_setInner hHolds (hI.write w hHolds.host.memory hHolds.host)

theorem holds_managed (hHolds : Holds I R σ)
    {r : WorkbenchHostInner × Except PairingManagementError String} (hHost : HostHolds I r.1) :
    Holds I R (σ.managed r).1 := by
  obtain ⟨h', answer⟩ := r
  cases answer with
  | ok selector => exact holds_setInner hHolds hHost
  | error e => cases e <;> exact holds_setInner hHolds hHost

theorem redeemSection (hI : Preserves env T P I R) {payload : VerifiedWorkbenchTicket} {now : Nat}
    {rootValid : Bool} {tokens : Option RedeemTokens}
    (hP : P σ (.redeem payload now rootValid tokens)) (hHolds : Holds I R σ) :
    Holds I R (σ.redeemSection env payload now rootValid tokens).1 := by
  have hPruned : On I (redeemPruned σ.inner.state now) :=
    hI.pruneSessions (s := retainLivePendingCapabilities σ.inner.state now) (hI.clock hP rfl)
      hHolds.host.memory
  unfold Authority.redeemSection
  dsimp only
  split
  · exact holds_setState hHolds hPruned
  · next pending tokens' hRedeemable =>
    exact holds_hold (holds_setState hHolds (hI.redeem hP hPruned hRedeemable)) nofun

theorem enrollSection (hI : Preserves env T P I R) {payload : VerifiedWorkbenchTicket}
    {presented : Option (String × String)} {now : Nat} {rootValid : Bool} {tokens : EnrollTokens}
    {w : StoreWrite} (hP : P σ (.enroll payload presented now rootValid tokens w))
    (hHolds : Holds I R σ) :
    Holds I R (σ.enrollSection env payload presented now rootValid tokens w).1 := by
  have hPruned := hI.enrollPruned (hI.clock hP rfl) hHolds.host
  unfold Authority.enrollSection
  dsimp only
  split
  · exact holds_setState hHolds hPruned.memory
  · next e hEnrollable =>
    have hAdopted := hI.enroll hP hPruned.memory hEnrollable
    have hWritten := hI.write w hAdopted hPruned
    cases w with
    | done => exact ⟨⟨hAdopted, hWritten.store⟩, hHolds.rollback⟩
    | refused => exact ⟨hWritten, hHolds.rollback⟩
    | lateError => exact ⟨hWritten, hHolds.rollback⟩

theorem readSection (hI : Preserves env T P I R) (key digest : String) (forRenewal : Bool) {now : Nat}
    (hT : T now)    (hHolds : Holds I R σ) : Holds I R (σ.readSection env key digest forRenewal now).1 := by
  have hPruned := holds_setState hHolds (hI.pruneSessions hT hHolds.host.memory)
  unfold Authority.readSection
  dsimp only
  split
  · exact holds_hold hPruned nofun
  · exact holds_hold hPruned nofun
  · exact hPruned

theorem restoreSection (hI : Preserves env T P I R) (key digest : String) (forRenewal : Bool)
    (grant : WorkbenchSessionGrant) (rootValid : Bool) (git : GitSnapshot) (now : Nat)
    (hHolds : Holds I R σ) :
    Holds I R (σ.restoreSection key digest forRenewal grant rootValid git now).1 := by
  unfold Authority.restoreSection
  split
  · have hStore : (WorkbenchHostInner.restoreSession σ.inner digest grant git now).store =
        σ.inner.store := by
      unfold WorkbenchHostInner.restoreSession
      dsimp only
      split <;> rfl
    have hRestored : HostHolds I (WorkbenchHostInner.restoreSession σ.inner digest grant git now) :=
      ⟨hI.restore hHolds.host.memory, hStore ▸ hHolds.host.store⟩
    dsimp only
    split
    · exact holds_hold (holds_setInner hHolds hRestored) nofun
    · exact holds_hold (holds_setInner hHolds hRestored) nofun
  · exact holds_hold hHolds nofun

theorem finishRead (hI : Preserves env T P I R) {key digest : String} {forRenewal : Bool} {now : Nat}
    (hP : P σ (.finishRead now)) (hHolds : Holds I R σ) :
    Holds I R (σ.finishRead env key digest forRenewal now).1 := by
  have hPruned : On I (retainLiveAuthorizations σ.inner.state now) :=
    hI.prune (hI.clock hP rfl) hHolds.host.memory
  unfold Authority.finishRead WorkbenchHostInner.readSession
  dsimp only
  cases hBound : ((retainLiveAuthorizations σ.inner.state now).sessions.lookup digest).filter
      (sessionIsBound env (retainLiveAuthorizations σ.inner.state now) key) with
  | none => exact holds_hold (holds_setState hHolds hPruned) nofun
  | some session =>
    have hLookup := (Option.filter_eq_some_iff.mp hBound).1
    dsimp only
    split <;> cases forRenewal <;>
      exact ⟨⟨hI.activity _ hP rfl hPruned hLookup, hHolds.host.store⟩, nofun⟩

theorem renewSection (hI : Preserves env T P I R) {key id : String} {now : Nat}
    (hP : P σ (.renew key id now)) (hHolds : Holds I R σ) {renewals : List (String × String)} :
    Holds I R (({ σ with renewals := renewals } : Authority).renewSection key id now).1 := by
  unfold Authority.renewSection
  cases hRenew : renewSession σ.inner.state key id now with
  | mk state answer =>
    cases answer with
    | none =>
      have hSame : state = σ.inner.state := by
        unfold renewSession at hRenew
        split at hRenew <;> cases hRenew
        rfl
      subst hSame
      exact ⟨hHolds.host, hHolds.rollback⟩
    | some renewed => exact ⟨⟨hI.renew hP hHolds.host.memory hRenew, hHolds.host.store⟩, nofun⟩

theorem finishResume (hI : Preserves env T P I R) {r : ResumeRequest} {now : Nat}
    {pairing : WorkbenchPairingGrant} {rootValid : Bool} {w : StoreWrite}
    (hHolder : σ.holder = .resuming r now pairing) (hP : P σ (.finishResume rootValid w))
    (hHolds : Holds I R σ) : Holds I R (σ.finishResume env r now pairing rootValid w).1 := by
  have hResumed := hI.resumePairing hHolder hP hHolds.host
  unfold Authority.finishResume
  split <;> next hResume =>
    rw [hResume] at hResumed
    exact holds_hold (holds_setInner hHolds hResumed) nofun

theorem reconcileSection (hI : Preserves env T P I R) {rollback : Option WorkbenchAuthorizationRollback}
    {workspace : WorkspaceRegistration} {entry : WorkbenchEntryBinding} {now : Nat} {w : StoreWrite}
    (hHolder : σ.holder = .launching rollback) (hP : P σ (.reconcile workspace entry now w))
    (hHolds : Holds I R σ) : Holds I R (σ.reconcileSection env rollback workspace entry now w).1 := by
  obtain ⟨hMoved, hRollback⟩ := hI.reconcilePublished hP hHolds.host
  unfold Authority.reconcileSection
  split
  · next hReconcile =>
    rw [hReconcile] at hMoved
    exact holds_setInner hHolds hMoved
  · next rollback' hReconcile =>
    rw [hReconcile] at hMoved hRollback
    refine holds_hold (holds_setInner hHolds hMoved) fun r hr => ?_
    have hOr : rollback.or rollback' = some r := Holder.launching.inj hr
    rcases Option.or_eq_some_iff.mp hOr with hOld | ⟨-, hNew⟩
    · exact hHolds.rollback r (hHolder.trans (congrArg Holder.launching hOld))
    · exact hRollback r (congrArg some hNew)

theorem rollBack (hI : Preserves env T P I R) {rollback : Option WorkbenchAuthorizationRollback}
    {w : StoreWrite} (hHolder : σ.holder = .launching rollback) (hP : P σ (.rollBack w))
    (hHolds : Holds I R σ) : Holds I R (σ.rollBack rollback w).1 := by
  cases rollback with
  | none => exact holds_hold hHolds nofun
  | some r =>
    have hPrior := hI.restores hP hHolder (hHolds.rollback r hHolder)
    have hWritten := hI.write w hPrior hHolds.host
    unfold Authority.rollBack restorePublishedWorkspaceMove
    cases w with
    | done => exact ⟨⟨hPrior, hWritten.store⟩, nofun⟩
    | refused => exact ⟨hWritten, nofun⟩
    | lateError => exact ⟨hWritten, nofun⟩

theorem first_holds {r : Authority × Reply} (hr : some r = some (σ', reply)) (hHolds : Holds I R r.1) :
    Holds I R σ' := by
  cases hr
  exact hHolds

theorem enter (hI : Preserves env T P I R) {a : AuthorityAction} (hP : P σ a) (hHolds : Holds I R σ)
    (hEnter : Authority.enter env a σ = some (σ', reply)) : Holds I R σ' := by
  cases a with
  | redeem payload now rootValid tokens => exact first_holds hEnter (hI.redeemSection hP hHolds)
  | enroll payload presented now rootValid tokens w => exact first_holds hEnter (hI.enrollSection hP hHolds)
  | resume r now =>
    refine first_holds hEnter ?_
    have hPruned := holds_setState hHolds (hI.prune (hI.clock hP rfl) hHolds.host.memory)
    unfold Authority.resumeSection
    split
    · dsimp only
      split
      · exact hPruned
      · exact holds_hold hPruned nofun
    · exact hHolds
  | revoke reference key now w =>
    exact first_holds hEnter (holds_managed hHolds (hI.revokePairing hP hHolds.host))
  | forget reference key now w =>
    exact first_holds hEnter (holds_managed hHolds (hI.forgetPairing hP hHolds.host))
  | rename reference nickname key now w =>
    exact first_holds hEnter (holds_managed hHolds (hI.renamePairing _ _ _ (hI.clock hP rfl) _ hHolds.host))
  | read key digest forRenewal now => 
    exact first_holds hEnter (hI.readSection key digest forRenewal (hI.clock hP rfl) hHolds)
  | renew key id now =>
    unfold Authority.enter at hEnter
    dsimp only at hEnter
    split at hEnter
    · exact first_holds hEnter (hI.renewSection hP hHolds)
    · cases hEnter
  | projectWorkspaces discovered index currentRoot key now w =>
    exact first_holds hEnter (holds_setInner hHolds
      (hI.projectWorkspaces discovered index currentRoot key (hI.clock hP rfl) w hHolds.host))
  | launch => exact first_holds hEnter (holds_hold hHolds nofun)
  | persist w => exact first_holds hEnter (hI.holds_persisted w hHolds)
  | _ => cases hEnter

theorem resumeHolder (hI : Preserves env T P I R) {a : AuthorityAction} (hP : P σ a)
    (hHolds : Holds I R σ)
    (hNext : Authority.resumeHolder env a σ.holder σ = some (σ', reply)) : Holds I R σ' := by
  cases hHolder : σ.holder with
  | free => rw [hHolder] at hNext; cases a <;> cases hNext
  | redeeming capabilityId session =>
    rw [hHolder] at hNext
    cases a with
    | persistRedemption w =>
      refine first_holds hNext ?_
      unfold Authority.persistRedemption
      split <;> exact holds_hold (hI.holds_persisted w hHolds) nofun
    | _ => cases hNext
  | redeemed capabilityId =>
    rw [hHolder] at hNext
    cases a with
    | finishRedemption => exact first_holds hNext ⟨⟨hHolds.host.memory, hHolds.host.store⟩, nofun⟩
    | _ => cases hNext
  | unpersisted sessionId =>
    rw [hHolder] at hNext
    cases a with
    | finishRedemption =>
      exact first_holds hNext
        (holds_hold (holds_setState hHolds (hI.withdraw sessionId hHolds.host.memory)) nofun)
    | _ => cases hNext
  | resuming r now pairing =>
    rw [hHolder] at hNext
    cases a with
    | finishResume rootValid w => exact first_holds hNext (hI.finishResume hHolder hP hHolds)
    | _ => cases hNext
  | restoring key digest forRenewal grant =>
    rw [hHolder] at hNext
    cases a with
    | restore rootValid git now =>
      exact first_holds hNext (hI.restoreSection key digest forRenewal grant rootValid git now hHolds)
    | _ => cases hNext
  | reading key digest forRenewal =>
    rw [hHolder] at hNext
    cases a with
    | finishRead now => exact first_holds hNext (hI.finishRead hP hHolds)
    | _ => cases hNext
  | noting session =>
    rw [hHolder] at hNext
    cases a with
    | persistActivity w => exact first_holds hNext (holds_hold (hI.holds_persisted w hHolds) nofun)
    | _ => cases hNext
  | renewing session =>
    rw [hHolder] at hNext
    cases a with
    | persistRenewal w => exact first_holds hNext (holds_hold (hI.holds_persisted w hHolds) nofun)
    | _ => cases hNext
  | launching rollback =>
    rw [hHolder] at hNext
    cases a with
    | reconcile workspace entry now w => exact first_holds hNext (hI.reconcileSection hHolder hP hHolds)
    | rollBack w => exact first_holds hNext (hI.rollBack hHolder hP hHolds)
    | directMove workspace index now w =>
      have hMoved := hI.reconcileDirect workspace index (hI.clock hP rfl) w hHolds.host
      unfold Authority.resumeHolder at hNext
      dsimp only at hNext
      split at hNext <;> next hMove =>
        rw [hMove] at hMoved
        first
        | exact first_holds hNext (holds_setInner hHolds hMoved)
        | exact first_holds hNext (holds_hold (holds_setInner hHolds hMoved) nofun)
    | finishLaunch => exact first_holds hNext (holds_hold hHolds nofun)
    | _ => cases hNext

theorem step (hI : Preserves env T P I R) {a : AuthorityAction} (hP : P σ a) (hHolds : Holds I R σ)
    (hStep : Authority.step env σ a = some (σ', reply)) : Holds I R σ' := by
  cases a with
  | elsewhere rest hostGeneration =>
    cases hStep
    exact ⟨⟨hHolds.host.memory, hHolds.host.store⟩, hHolds.rollback⟩
  | pruningRead now =>
    cases hStep
    exact holds_setState hHolds (hI.prune (hI.clock hP rfl) hHolds.host.memory)
  | restart rest now =>
    cases hStep
    exact ⟨⟨hI.reload hP hHolds.host.store, hHolds.host.store⟩, nofun⟩
  | _ =>
    unfold Authority.step at hStep
    dsimp only at hStep
    split at hStep
    · exact hI.enter hP hHolds hStep
    · exact hI.resumeHolder hP hHolds hStep

theorem run (hI : Preserves env T P I R) {actions : List AuthorityAction} (hHolds : Holds I R σ)
    (hAlong : Lib.Along (Authority.next env) P σ actions)
    (hRun : Lib.run (Authority.next env) σ actions = some σ') : Holds I R σ' := by
  refine Lib.invariant_of_along (fun σ a σ' hHolds hP hNext => ?_) hHolds hAlong hRun
  obtain ⟨⟨_, reply⟩, hStep, rfl⟩ := Option.map_eq_some_iff.mp hNext
  exact hI.step hP hHolds hStep

end Preserves

end Authority

end Exosuit.Workbench
