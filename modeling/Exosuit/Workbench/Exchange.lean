import Exosuit.Workbench.Workspaces

/-!
# Ticket exchanges

The locked sections of `redeem_ticket` and `enroll_pairing`.
-/

namespace Exosuit.Workbench

open Lib (Table)

namespace WorkbenchHostInner

def upgradedSessionCapabilities (capabilities : List String) : List String :=
  match capabilities.idxOf? "workbench.snapshot" with
  | some i =>
    if "workbench.inspect" ∈ capabilities then capabilities
    else capabilities.insertIdx (i + 1) "workbench.inspect"
  | none => capabilities

def matchingPending (state : WorkbenchState) (payload : VerifiedWorkbenchTicket) (now : Nat) :
    Option PendingCapability :=
  (state.pendingCapabilities.lookup payload.capabilityId).filter fun pending =>
    pending.workspaceKey == payload.workspaceKey && pending.entry == payload.entry &&
      pending.expiresAt == payload.expiresAt && pendingCapabilityIssuanceCurrent state pending now

/-! ## Redeeming at the loopback origin -/

structure RedeemTokens where
  sessionSecret : String
  sessionKey : String
deriving DecidableEq

def redeemedSession (env : Env) (payload : VerifiedWorkbenchTicket) (pending : PendingCapability)
    (now : Nat) (tokens : RedeemTokens) : WorkbenchSession where
  id := env.sessionCredentialDigest tokens.sessionSecret
  selector := tokens.sessionKey
  projectId := payload.projectId
  workspaceKey := payload.workspaceKey
  workspaceRoot := pending.workspaceRoot
  capabilities := upgradedSessionCapabilities payload.capabilities
  entry := payload.entry
  pairingSelector := none
  createdAt := now
  lastActivity := now
  expiresAt := saturatingAdd now SESSION_RENEWAL_LIFETIME
  lastPersistedAt := now

def redeemPruned (state : WorkbenchState) (now : Nat) : WorkbenchState :=
  retainLiveSessions (retainLivePendingCapabilities state now) now

/-- The checks of the first locked section. `rootValid` is what the file system and the
project resolver say of the workspace root, `tokens` are new random ones. -/
def redeemable (state : WorkbenchState) (payload : VerifiedWorkbenchTicket) (now : Nat)
    (rootValid : Bool) (tokens : Option RedeemTokens) :
    Except TicketExchangeError (PendingCapability × RedeemTokens) :=
  if MAX_SESSIONS ≤ state.sessionGrants.size then .error .busy
  else match matchingPending state payload now, rootValid, tokens with
    | some pending, true, some tokens => .ok (pending, tokens)
    | _, _, _ => .error .invalid

def insertSession (state : WorkbenchState) (session : WorkbenchSession) : WorkbenchState :=
  { state with
    sessionGrants := AList.insert session.id (.from session) state.sessionGrants
    sessions := AList.insert session.id session state.sessions }

def removeSession (state : WorkbenchState) (credentialDigest : String) : WorkbenchState :=
  { state with
    sessionGrants := AList.erase credentialDigest state.sessionGrants
    sessions := AList.erase credentialDigest state.sessions }

/-- The section after the store write. -/
def spendCapability (state : WorkbenchState) (capabilityId : String) : WorkbenchState :=
  removeLaunchReplaysForCapability
    { state with pendingCapabilities := AList.erase capabilityId state.pendingCapabilities }
    capabilityId

/-! ## Enrolling at a published origin -/

inductive PairingExchangeError
  | invalid
  | expired
  | limit
  | busy
  | unavailable
deriving DecidableEq, Repr

structure EnrollTokens where
  pairingSecret : String
  pairingSelector : String
  sessionSecret : String
  sessionSelector : String
deriving DecidableEq

def presentedGrant (env : Env) (state : WorkbenchState) (payload : VerifiedWorkbenchTicket)
    (presentedPairing : Option (String × String)) (now : Nat) : Option WorkbenchPairingGrant :=
  presentedPairing.bind fun presented =>
    (state.pairingGrants.lookup presented.1).filter fun pairing =>
      pairing.isLive now && pairing.credentialDigest == env.sessionCredentialDigest presented.2 &&
        pairing.entry == payload.entry

/-- The pairing to evict for a new one, or the refusal when a limit stands. -/
def pairingRoom (state : WorkbenchState) (workspaceKey : String) (replaced : Option String)
    (now : Nat) : Except PairingExchangeError (Option String) :=
  let live := state.pairingGrants.values.filter fun p => p.isLive now
  let projectPairings := live.length - (if replaced.isSome then 1 else 0)
  let workspacePairings := (live.filter fun p => p.workspaceKey == workspaceKey &&
    replaced != some p.selector).length
  let evicted :=
    if MAX_ACTIVE_PAIRINGS_PER_WORKSPACE ≤ workspacePairings then
      leastRecentlyUsedPairingWithoutLiveSession state.pairingGrants state.sessionGrants workspaceKey
        replaced now
    else none
  if MAX_ACTIVE_PAIRINGS_PER_WORKSPACE ≤ workspacePairings ∧
      (evicted = none ∨ MAX_ACTIVE_PAIRINGS_PER_WORKSPACE ≤ workspacePairings - 1) then .error .limit
  else if MAX_ACTIVE_PAIRINGS ≤ projectPairings - (if evicted.isSome then 1 else 0) then
    .error .limit
  else .ok evicted

def newPairing (env : Env) (payload : VerifiedWorkbenchTicket) (workspaceRoot : String)
    (capabilities : List String) (now : Nat) (tokens : EnrollTokens) : WorkbenchPairingGrant where
  selector := tokens.pairingSelector
  credentialDigest := env.sessionCredentialDigest tokens.pairingSecret
  projectId := payload.projectId
  workspaceKey := payload.workspaceKey
  workspaceRoot := workspaceRoot
  launchMode := .published
  projectInstanceId := payload.entry.projectInstanceId.getD ""
  canonicalOrigin := payload.entry.canonicalOrigin
  capabilities := capabilities
  createdAt := now
  lastUsedAt := now
  idleExpiresAt := saturatingAdd now PAIRING_IDLE_LIFETIME
  absoluteExpiresAt := saturatingAdd now PAIRING_ABSOLUTE_LIFETIME
  nickname := none
  revokedAt := none
  revocationCause := none

/-- What an enrolment is about to persist and adopt. -/
structure Enrollment where
  pending : PendingCapability
  session : WorkbenchSession
  candidates : Authorizations
  retired : List String

/-- The candidates once a pairing gives way: its sessions and open outcomes go, and it is revoked. -/
def retirePairing (a : Authorizations) (selector : String) (now : Nat) : Authorizations where
  sessionGrants := a.sessionGrants.retain fun _ s => s.pairingSelector != some selector
  pairingGrants := a.pairingGrants.modify selector fun p => p.revoke now .replaced
  resumeOutcomes := a.resumeOutcomes.retain fun key outcome =>
    key.1 != selector || outcome.isTerminal

def enrollPruned (state : WorkbenchState) (now : Nat) : WorkbenchState :=
  retainLiveAuthorizations (retainLivePendingCapabilities state now) now

def enrollmentFor (env : Env) (state : WorkbenchState) (payload : VerifiedWorkbenchTicket)
    (pending : PendingCapability) (presentedPairing : Option (String × String)) (now : Nat)
    (tokens : EnrollTokens) : Except PairingExchangeError Enrollment :=
  let capabilities := upgradedSessionCapabilities payload.capabilities
  let presented := presentedGrant env state payload presentedPairing now
  let replaced := (presented.filter fun p => p.capabilities != capabilities).map (·.selector)
  let reusable := presented.filter fun p => p.capabilities == capabilities
  match (if reusable.isSome then .ok none
      else pairingRoom state payload.workspaceKey replaced now) with
  | .error e => .error e
  | .ok evicted =>
    let pairing := reusable.getD
      (newPairing env payload pending.workspaceRoot capabilities now tokens)
    let pairing :=
      { pairing with
        lastUsedAt := now
        idleExpiresAt := min (saturatingAdd now PAIRING_IDLE_LIFETIME) pairing.absoluteExpiresAt }
    let session : WorkbenchSession :=
      { id := env.sessionCredentialDigest tokens.sessionSecret
        selector := tokens.sessionSelector
        projectId := payload.projectId
        workspaceKey := payload.workspaceKey
        workspaceRoot := pending.workspaceRoot
        capabilities := capabilities
        entry := payload.entry
        pairingSelector := some pairing.selector
        createdAt := now
        lastActivity := now
        expiresAt := saturatingAdd now SESSION_RENEWAL_LIFETIME
        lastPersistedAt := now }
    let retired := evicted.toList ++ replaced.toList
    let kept := retired.foldl (retirePairing · · now) state.toAuthorizations
    let pairings := pruneRetainedRevokedPairings
      (AList.insert pairing.selector pairing kept.pairingGrants)
    .ok
      { pending := pending
        session := session
        candidates :=
          { sessionGrants := AList.insert session.id (.from session) kept.sessionGrants
            pairingGrants := pairings
            resumeOutcomes := retainCandidateResumeOutcomes kept.resumeOutcomes pairings now }
        retired := retired }

/-- Everything `enroll_pairing` decides under the lock before it writes the store. -/
def enrollable (env : Env) (state : WorkbenchState) (payload : VerifiedWorkbenchTicket)
    (presentedPairing : Option (String × String)) (now : Nat) (rootValid : Bool)
    (tokens : EnrollTokens) : Except PairingExchangeError Enrollment :=
  if MAX_SESSIONS ≤ state.sessionGrants.size then .error .busy
  else match matchingPending state payload now with
    | none => .error .invalid
    | some pending =>
      if rootValid then enrollmentFor env state payload pending presentedPairing now tokens
      else .error .expired

/-- After the store write the capability goes and the candidates become current. -/
def adoptEnrollment (state : WorkbenchState) (capabilityId : String) (e : Enrollment) :
    WorkbenchState :=
  let state := spendCapability state capabilityId
  { state with
    toAuthorizations := e.candidates
    sessions := AList.insert e.session.id e.session <|
      state.sessions.retain fun _ s => s.pairingSelector.all fun selector =>
        decide (selector ∉ e.retired) }

end WorkbenchHostInner

end Exosuit.Workbench
