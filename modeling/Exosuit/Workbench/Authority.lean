import Exosuit.Lib.Run
import Exosuit.Workbench.Pairings

/-!
# Runs of the authorization operations

The operations that grant, use and withdraw authority, one locked section a step.
Whoever holds the authorization store gate is part of the state; the pruning read of
`pairing_session_selectors` runs without it. Clock readings, random tokens, store
writes and what the file system, git and the entry provider answer are chosen by the
step. Everything else that a host manager keeps may change between any two sections.
-/

namespace Exosuit.Workbench

open Lib (Table)
open WorkbenchHostInner

/-- The operation that holds the gate, with what it carries from its last section. -/
inductive Holder
  | free
  | redeeming (capabilityId : String) (session : WorkbenchSession)
  | redeemed (capabilityId : String)
  | unpersisted (sessionId : String)
  | resuming (r : ResumeRequest) (now : Nat) (pairing : WorkbenchPairingGrant)
  | restoring (sessionKey credentialDigest : String) (forRenewal : Bool) (grant : WorkbenchSessionGrant)
  | reading (sessionKey credentialDigest : String) (forRenewal : Bool)
  | noting (session : WorkbenchSession)
  | renewing (session : WorkbenchSession)
  | launching (rollback : Option WorkbenchAuthorizationRollback)

/-- `renewals` are the session keys and ids of renewals that have read their session. -/
structure Authority where
  inner : WorkbenchHostInner
  holder : Holder
  renewals : List (String × String)

inductive AuthorityAction
  | elsewhere (rest : WorkbenchState) (hostGeneration : Nat)
  | pruningRead (now : Nat)
  | redeem (payload : VerifiedWorkbenchTicket) (now : Nat) (rootValid : Bool)
      (tokens : Option RedeemTokens)
  | persistRedemption (w : StoreWrite)
  | finishRedemption
  | enroll (payload : VerifiedWorkbenchTicket) (presentedPairing : Option (String × String))
      (now : Nat) (rootValid : Bool) (tokens : EnrollTokens) (w : StoreWrite)
  | resume (r : ResumeRequest) (now : Nat)
  | finishResume (rootValid : Bool) (w : StoreWrite)
  | revoke (selectorReference : String) (workspaceKey : Option String) (now : Nat) (w : StoreWrite)
  | forget (selectorReference : String) (workspaceKey : Option String) (now : Nat) (w : StoreWrite)
  | rename (selectorReference nickname : String) (workspaceKey : Option String) (now : Nat)
      (w : StoreWrite)
  | read (sessionKey credentialDigest : String) (forRenewal : Bool) (now : Nat)
  | restore (rootValid : Bool) (git : GitSnapshot) (now : Nat)
  | finishRead (now : Nat)
  | persistActivity (w : StoreWrite)
  | renew (sessionKey sessionId : String) (now : Nat)
  | persistRenewal (w : StoreWrite)
  | projectWorkspaces (discovered : List WorkspaceRegistration)
      (worktreeIndex : Option (List String)) (currentRoot : Option String)
      (currentWorkspaceKey : String) (now : Nat) (w : StoreWrite)
  | launch
  | reconcile (workspace : WorkspaceRegistration) (entry : WorkbenchEntryBinding) (now : Nat)
      (w : StoreWrite)
  | rollBack (w : StoreWrite)
  | directMove (workspace : WorkspaceRegistration) (worktreeIndex : Option (List String)) (now : Nat)
      (w : StoreWrite)
  | finishLaunch
  | persist (w : StoreWrite)
  | restart (rest : WorkbenchState) (now : Nat)

/-- What a call answers when a section ends it. -/
inductive Reply
  | pending
  | refused
  | redeemed (session : WorkbenchSession)
  | enrolled (session : WorkbenchSession)
  | resumed (result : PairingResumeResult)
  | resumeRefused (error : PairingExchangeError)
  | managed (selector : String)
  | session (session : WorkbenchSession)
  | renewed (session : WorkbenchSession)
  | failed
  | finished

namespace Authority

variable (env : Env)

/-- Everything of the host but its authorizations and its live sessions. -/
def elsewhere (state rest : WorkbenchState) : WorkbenchState :=
  { rest with toAuthorizations := state.toAuthorizations, sessions := state.sessions }

def setInner (σ : Authority) (h : WorkbenchHostInner) : Authority := { σ with inner := h }

def setState (σ : Authority) (state : WorkbenchState) : Authority :=
  σ.setInner (σ.inner.withState state)

def hold (σ : Authority) (holder : Holder) : Authority := { σ with holder := holder }

def persisted (σ : Authority) (w : StoreWrite) : Authority :=
  σ.setInner (σ.inner.writeAuthorizationStore w σ.inner.state.toAuthorizations)

/-! ## Exchanges -/

def redeemSection (σ : Authority) (payload : VerifiedWorkbenchTicket) (now : Nat) (rootValid : Bool)
    (tokens : Option RedeemTokens) : Authority × Reply :=
  let state := redeemPruned σ.inner.state now
  match redeemable state payload now rootValid tokens with
  | .error _ => (σ.setState state, .refused)
  | .ok (pending, tokens) =>
    let session := redeemedSession env payload pending now tokens
    ((σ.setState (insertSession state session)).hold (.redeeming payload.capabilityId session), .pending)

def persistRedemption (σ : Authority) (capabilityId : String) (session : WorkbenchSession)
    (w : StoreWrite) : Authority × Reply :=
  if w = .done then ((σ.persisted w).hold (.redeemed capabilityId), .redeemed session)
  else ((σ.persisted w).hold (.unpersisted session.id), .failed)

def enrollSection (σ : Authority) (payload : VerifiedWorkbenchTicket)
    (presentedPairing : Option (String × String)) (now : Nat) (rootValid : Bool)
    (tokens : EnrollTokens) (w : StoreWrite) : Authority × Reply :=
  let state := enrollPruned σ.inner.state now
  let σ := σ.setState state
  match enrollable env state payload presentedPairing now rootValid tokens with
  | .error _ => (σ, .refused)
  | .ok e =>
    let written := σ.setInner (σ.inner.writeAuthorizationStore w e.candidates)
    match w with
    | .done => (written.setState (adoptEnrollment state payload.capabilityId e), .enrolled e.session)
    | .refused | .lateError => (written, .failed)

/-! ## Resuming -/

def resumeSection (σ : Authority) (r : ResumeRequest) (now : Nat) : Authority × Reply :=
  if r.wellFormed then
    let σ := σ.setState (retainLiveAuthorizations σ.inner.state now)
    match resumeLookup env σ.inner.state r now with
    | .error e => (σ, .resumeRefused e)
    | .ok pairing => (σ.hold (.resuming r now pairing), .pending)
  else (σ, .resumeRefused .invalid)

def finishResume (σ : Authority) (r : ResumeRequest) (now : Nat) (pairing : WorkbenchPairingGrant)
    (rootValid : Bool) (w : StoreWrite) : Authority × Reply :=
  match resumePairing env σ.inner r pairing now rootValid w with
  | (h, .ok result) => ((σ.setInner h).hold .free, .resumed result)
  | (h, .error e) => ((σ.setInner h).hold .free, .resumeRefused e)

def managed (σ : Authority) (r : WorkbenchHostInner × Except PairingManagementError String) :
    Authority × Reply :=
  match r with
  | (h, .ok selector) => (σ.setInner h, .managed selector)
  | (h, .error .unavailable) => (σ.setInner h, .failed)
  | (h, .error _) => (σ.setInner h, .refused)

/-! ## Sessions -/

def readSection (σ : Authority) (sessionKey credentialDigest : String) (forRenewal : Bool)
    (now : Nat) : Authority × Reply :=
  let σ := σ.setState (retainLiveSessions σ.inner.state now)
  match restorable env σ.inner.state sessionKey credentialDigest now with
  | .current => (σ.hold (.reading sessionKey credentialDigest forRenewal), .pending)
  | .stored grant => (σ.hold (.restoring sessionKey credentialDigest forRenewal grant), .pending)
  | .missing => (σ, .refused)

def restoreSection (σ : Authority) (sessionKey credentialDigest : String) (forRenewal : Bool)
    (grant : WorkbenchSessionGrant) (rootValid : Bool) (git : GitSnapshot) (now : Nat) :
    Authority × Reply :=
  if rootValid then
    let h := WorkbenchHostInner.restoreSession σ.inner credentialDigest grant git now
    if credentialDigest ∈ h.state.sessions then
      ((σ.setInner h).hold (.reading sessionKey credentialDigest forRenewal), .pending)
    else ((σ.setInner h).hold .free, .refused)
  else (σ.hold .free, .refused)

def finishRead (σ : Authority) (sessionKey credentialDigest : String) (forRenewal : Bool)
    (now : Nat) : Authority × Reply :=
  match readSession env σ.inner.state sessionKey credentialDigest now with
  | (state, none) => ((σ.setState state).hold .free, .refused)
  | (state, some (session, persistActivity)) =>
    let σ := σ.setState state
    let σ := if forRenewal then { σ with renewals := (sessionKey, session.id) :: σ.renewals } else σ
    if persistActivity then (σ.hold (.noting session), .pending)
    else (σ.hold .free, .session session)

def renewSection (σ : Authority) (sessionKey sessionId : String) (now : Nat) : Authority × Reply :=
  match renewSession σ.inner.state sessionKey sessionId now with
  | (state, none) => (σ.setState state, .refused)
  | (state, some renewed) => ((σ.setState state).hold (.renewing renewed), .pending)

/-! ## Launches and removals -/

def reconcileSection (σ : Authority) (rollback : Option WorkbenchAuthorizationRollback)
    (workspace : WorkspaceRegistration) (entry : WorkbenchEntryBinding) (now : Nat)
    (w : StoreWrite) : Authority × Reply :=
  match reconcilePublishedWorkspaceMove env σ.inner workspace entry now w with
  | (h, none) => (σ.setInner h, .failed)
  | (h, some rollback') => ((σ.setInner h).hold (.launching (rollback.or rollback')), .pending)

def rollBack (σ : Authority) (rollback : Option WorkbenchAuthorizationRollback) (w : StoreWrite) :
    Authority × Reply :=
  match rollback with
  | none => (σ.hold .free, .refused)
  | some rollback =>
    let (h, _) := restorePublishedWorkspaceMove σ.inner rollback w
    ((σ.setInner h).hold .free, .failed)

/-- A manager that has just read the store. -/
def restarted (σ : Authority) (rest : WorkbenchState) (now : Nat) : Authority where
  inner :=
    { state :=
        { rest with
          toAuthorizations := readAuthorizationStore env σ.inner.store now
          sessions := ∅ }
      store := σ.inner.store
      hostGeneration := 0 }
  holder := .free
  renewals := []

/-! ## Steps -/

/-- The sections of operations that do not hold the gate yet. -/
def enter : AuthorityAction → Authority → Option (Authority × Reply)
  | .redeem payload now rootValid tokens, σ => some (σ.redeemSection env payload now rootValid tokens)
  | .enroll payload presentedPairing now rootValid tokens w, σ =>
    some (σ.enrollSection env payload presentedPairing now rootValid tokens w)
  | .resume r now, σ => some (σ.resumeSection env r now)
  | .revoke reference workspaceKey now w, σ =>
    some (σ.managed (revokePairing σ.inner reference workspaceKey now w))
  | .forget reference workspaceKey now w, σ =>
    some (σ.managed (forgetPairing σ.inner reference workspaceKey now w))
  | .rename reference nickname workspaceKey now w, σ =>
    some (σ.managed (renamePairing σ.inner reference nickname workspaceKey now w))
  | .read sessionKey credentialDigest forRenewal now, σ =>
    some (σ.readSection env sessionKey credentialDigest forRenewal now)
  | .renew sessionKey sessionId now, σ =>
    if (sessionKey, sessionId) ∈ σ.renewals then
      some ({ σ with renewals := σ.renewals.erase (sessionKey, sessionId) }.renewSection
        sessionKey sessionId now)
    else none
  | .projectWorkspaces discovered worktreeIndex currentRoot currentWorkspaceKey now w, σ =>
    some (σ.setInner (projectWorkspaceProjections σ.inner discovered worktreeIndex currentRoot
      currentWorkspaceKey now w), .finished)
  | .launch, σ => some (σ.hold (.launching none), .pending)
  | .persist w, σ => some (σ.persisted w, .finished)
  | _, _ => none

/-- The next section of the operation that holds the gate. -/
def resumeHolder : AuthorityAction → Holder → Authority → Option (Authority × Reply)
  | .persistRedemption w, .redeeming capabilityId session, σ =>
    some (σ.persistRedemption capabilityId session w)
  | .finishRedemption, .redeemed capabilityId, σ =>
    some ((σ.setState (spendCapability σ.inner.state capabilityId)).hold .free, .finished)
  | .finishRedemption, .unpersisted sessionId, σ =>
    some ((σ.setState (removeSession σ.inner.state sessionId)).hold .free, .finished)
  | .finishResume rootValid w, .resuming r now pairing, σ =>
    some (σ.finishResume env r now pairing rootValid w)
  | .restore rootValid git now, .restoring sessionKey credentialDigest forRenewal grant, σ =>
    some (σ.restoreSection sessionKey credentialDigest forRenewal grant rootValid git now)
  | .finishRead now, .reading sessionKey credentialDigest forRenewal, σ =>
    some (σ.finishRead env sessionKey credentialDigest forRenewal now)
  | .persistActivity w, .noting session, σ => some ((σ.persisted w).hold .free, .session session)
  | .persistRenewal w, .renewing session, σ =>
    some ((σ.persisted w).hold .free, if w = .done then .renewed session else .failed)
  | .reconcile workspace entry now w, .launching rollback, σ =>
    some (σ.reconcileSection env rollback workspace entry now w)
  | .rollBack w, .launching rollback, σ => some (σ.rollBack rollback w)
  | .directMove workspace worktreeIndex now w, .launching _, σ =>
    match reconcileDirectWorkspaceMove σ.inner workspace worktreeIndex now w with
    | (h, true) => some (σ.setInner h, .pending)
    | (h, false) => some ((σ.setInner h).hold .free, .failed)
  | .finishLaunch, .launching _, σ => some (σ.hold .free, .finished)
  | _, _, _ => none

def step (σ : Authority) : AuthorityAction → Option (Authority × Reply)
  | .elsewhere rest hostGeneration =>
    some (σ.setInner
      { σ.inner with
        state := elsewhere σ.inner.state rest
        hostGeneration := hostGeneration }, .finished)
  | .pruningRead now => some (σ.setState (retainLiveAuthorizations σ.inner.state now), .finished)
  | .restart rest now => some (σ.restarted env rest now, .finished)
  | a =>
    match σ.holder with
    | .free => enter env a σ
    | holder => resumeHolder env a holder σ

/-- The clock reading that the section uses; `resume_pairing` reads the clock once. -/
def reading (σ : Authority) : AuthorityAction → Option Nat
  | .pruningRead now | .redeem _ now _ _ | .enroll _ _ now _ _ _ | .resume _ now | .revoke _ _ now _
  | .forget _ _ now _ | .rename _ _ _ now _ | .read _ _ _ now | .restore _ _ now | .finishRead now
  | .renew _ _ now | .projectWorkspaces _ _ _ _ now _ | .reconcile _ _ now _ | .directMove _ _ now _
  | .restart _ now => some now
  | .finishResume _ _ =>
    match σ.holder with
    | .resuming _ now _ => some now
    | _ => none
  | .elsewhere _ _ | .persistRedemption _ | .finishRedemption | .persistActivity _ | .persistRenewal _
  | .launch | .rollBack _ | .finishLaunch | .persist _ => none

def next (σ : Authority) (a : AuthorityAction) : Option Authority := (step env σ a).map Prod.fst

end Authority

end Exosuit.Workbench
