import Exosuit.Lib.Text
import Exosuit.Workbench.Launch

/-!
# Pairings

The locked sections of `resume_pairing`, of the management of pairings, of the
reading and renewal of sessions, and the reading of the authorization store.
-/

namespace Exosuit.Workbench

open Lib (Table)

/-! ## Tokens -/

def validPublicToken (value : String) : Bool :=
  value.utf8ByteSize == 43 && value.toList.all fun c => c.isAlphanum || c == '-' || c == '_'

def isAsciiHexdigit (c : Char) : Bool :=
  c.isDigit || (decide ('a' ≤ c) && decide (c ≤ 'f')) || (decide ('A' ≤ c) && decide (c ≤ 'F'))

def validCredentialDigest (value : String) : Bool :=
  value.utf8ByteSize == 64 && value.toList.all isAsciiHexdigit

def isAbsolute (path : String) : Bool := (stripPrefix "/" path).isSome

def utf8 (s : String) : Bytes := s.toUTF8.data.toList

def Env.derivePairingToken (env : Env) (pairingSecret requestId domain : String) : Option String :=
  (env.decode pairingSecret).bind fun secret =>
    if secret.length = 32 then some (env.encode (env.mac secret (utf8 domain ++ 0 :: utf8 requestId)))
    else none

def SESSION_SECRET_DOMAIN : String := "exo.workbench.resume.session.secret.v1"
def SESSION_SELECTOR_DOMAIN : String := "exo.workbench.resume.session.selector.v1"

namespace WorkbenchHostInner

def withState (h : WorkbenchHostInner) (state : WorkbenchState) : WorkbenchHostInner :=
  { h with state := state }

/-! ## Resume outcomes -/

def terminalError : WorkbenchResumeTerminalError → PairingExchangeError
  | .invalid => .invalid
  | .expired => .expired

def terminalErrorOf (outcome : WorkbenchResumeOutcome) : Option PairingExchangeError :=
  match outcome.result with
  | .terminal e => some (terminalError e)
  | .session .. => none

def terminalResumeOutcome (key : WorkbenchResumeOutcomeKey) (error : WorkbenchResumeTerminalError)
    (now : Nat) : WorkbenchResumeOutcome where
  pairingSelector := key.1
  requestId := key.2
  createdAt := now
  retainedUntil := saturatingAdd now TERMINAL_RESUME_OUTCOME_LIFETIME
  result := .terminal error

def resumeOutcomeCapacity (outcomes : Table WorkbenchResumeOutcomeKey WorkbenchResumeOutcome)
    (key : WorkbenchResumeOutcomeKey) : Bool :=
  decide (key ∈ outcomes) ||
    (decide (outcomes.size < MAX_RESUME_OUTCOMES) &&
      decide (outcomes.count (fun k _ => k.1 == key.1) < MAX_RESUME_OUTCOMES_PER_PAIRING))

/-! ## Resuming -/

structure ResumeRequest where
  pairingSelector : String
  pairingSecret : String
  requestId : String
  entry : WorkbenchEntryBinding
deriving DecidableEq

namespace ResumeRequest

def key (r : ResumeRequest) : WorkbenchResumeOutcomeKey := (r.pairingSelector, r.requestId)

def wellFormed (r : ResumeRequest) : Bool :=
  validPublicToken r.pairingSelector && validPublicToken r.pairingSecret &&
    validPublicToken r.requestId && r.entry.isPublished

end ResumeRequest

/-- The first locked section, on a pruned state. -/
def resumeLookup (env : Env) (state : WorkbenchState) (r : ResumeRequest) (now : Nat) :
    Except PairingExchangeError WorkbenchPairingGrant :=
  match state.pairingGrants.lookup r.pairingSelector with
  | none => .error .expired
  | some pairing =>
    if pairing.credentialDigest ≠ env.sessionCredentialDigest r.pairingSecret then .error .invalid
    else
      match (state.resumeOutcomes.lookup r.key).bind terminalErrorOf with
      | some e => .error e
      | none => if pairing.isLive now then .ok pairing else .error .expired

def terminalCandidates (a : Authorizations) (key : WorkbenchResumeOutcomeKey)
    (error : WorkbenchResumeTerminalError) (now : Nat) : Authorizations :=
  { a with
    resumeOutcomes := AList.insert key (terminalResumeOutcome key error now) a.resumeOutcomes }

def persistTerminalResumeOutcome (h : WorkbenchHostInner) (key : WorkbenchResumeOutcomeKey)
    (error : WorkbenchResumeTerminalError) (now : Nat) (w : StoreWrite) :
    WorkbenchHostInner × Except PairingExchangeError Unit :=
  if key ∈ h.state.resumeOutcomes then (h, .ok ())
  else if resumeOutcomeCapacity h.state.resumeOutcomes key then
    match adopt h w (terminalCandidates h.state.toAuthorizations key error now) fun _ => false with
    | (h, true) => (h, .ok ())
    | (h, false) => (h, .error .unavailable)
  else (h, .error .busy)

def revocationCandidates (a : Authorizations) (selector : String) (now : Nat)
    (terminalOutcome : Option (WorkbenchResumeOutcomeKey × WorkbenchResumeOutcome)) : Authorizations :=
  let pairings := pruneRetainedRevokedPairings
    (a.pairingGrants.modify selector fun p => p.revoke now .explicit)
  let outcomes := a.resumeOutcomes.retain fun key outcome => key.1 != selector || outcome.isTerminal
  let outcomes := match terminalOutcome with
    | some (key, outcome) => AList.insert key outcome outcomes
    | none => outcomes
  { sessionGrants := a.sessionGrants.retain fun _ s => s.pairingSelector != some selector
    pairingGrants := pairings
    resumeOutcomes := retainCandidateResumeOutcomes outcomes pairings now }

def persistPairingRevocation (h : WorkbenchHostInner) (selector : String) (now : Nat)
    (terminalOutcome : Option (WorkbenchResumeOutcomeKey × WorkbenchResumeOutcome)) (w : StoreWrite) :
    WorkbenchHostInner × Bool :=
  if selector ∈ h.state.pairingGrants then
    match adopt h w (revocationCandidates h.state.toAuthorizations selector now terminalOutcome)
        fun s => s.pairingSelector == some selector with
    | (h, true) => (h.withState (retainLiveSessions h.state now), true)
    | (h, false) => (h, false)
  else (h, false)

structure PairingResumeResult where
  sessionSecret : String
  sessionSelector : String
  projectId : String
  workspaceKey : String
  expiresAt : Nat
  pairingMaxAge : Nat
deriving DecidableEq

/-- What a resume is about to persist and adopt. -/
structure Resumption where
  session : WorkbenchSession
  candidates : Authorizations
  result : PairingResumeResult

def resumeReplay (state : WorkbenchState) (key : WorkbenchResumeOutcomeKey)
    (sessionSelector sessionId : String) : Except PairingExchangeError (Option (Nat × Nat)) :=
  match state.resumeOutcomes.lookup key with
  | some outcome =>
    match outcome.result with
    | .terminal e => .error (terminalError e)
    | .session replaySelector replayDigest expiresAt =>
      if replaySelector = sessionSelector ∧ replayDigest = sessionId then
        .ok (some (outcome.createdAt, expiresAt))
      else .error .invalid
  | none =>
    if resumeOutcomeCapacity state.resumeOutcomes key then
      if MAX_SESSIONS ≤ state.sessionGrants.size then .error .busy else .ok none
    else .error .busy

def resumedSession (env : Env) (pairing : WorkbenchPairingGrant)
    (sessionSecret sessionSelector : String) (replay : Option (Nat × Nat)) (now : Nat) :
    WorkbenchSession where
  id := env.sessionCredentialDigest sessionSecret
  selector := sessionSelector
  projectId := pairing.projectId
  workspaceKey := pairing.workspaceKey
  workspaceRoot := pairing.workspaceRoot
  capabilities := pairing.capabilities
  entry := pairing.entry
  pairingSelector := some pairing.selector
  createdAt := (replay.map (·.1)).getD now
  lastActivity := now
  expiresAt := max ((replay.map (·.2)).getD (saturatingAdd now SESSION_RENEWAL_LIFETIME))
    (saturatingAdd now 1)
  lastPersistedAt := now

def resumeOutcome (pairing : WorkbenchPairingGrant) (requestId : String) (session : WorkbenchSession)
    (now : Nat) : WorkbenchResumeOutcome where
  pairingSelector := pairing.selector
  requestId := requestId
  createdAt := session.createdAt
  retainedUntil := min session.expiresAt (saturatingAdd now RESUME_OUTCOME_LIFETIME)
  result := .session session.selector session.id session.expiresAt

def usedPairing (pairing : WorkbenchPairingGrant) (now : Nat) : WorkbenchPairingGrant :=
  { pairing with
    lastUsedAt := now
    idleExpiresAt := min (saturatingAdd now PAIRING_IDLE_LIFETIME) pairing.absoluteExpiresAt }

def resumption (state : WorkbenchState) (r : ResumeRequest) (pairing : WorkbenchPairingGrant)
    (session : WorkbenchSession) (sessionSecret : String) (now : Nat) : Resumption where
  session := session
  candidates :=
    { sessionGrants := AList.insert session.id (.from session) state.sessionGrants
      pairingGrants := AList.insert pairing.selector (usedPairing pairing now) state.pairingGrants
      resumeOutcomes :=
        AList.insert r.key (resumeOutcome pairing r.requestId session now) state.resumeOutcomes }
  result :=
    { sessionSecret := sessionSecret
      sessionSelector := session.selector
      projectId := pairing.projectId
      workspaceKey := pairing.workspaceKey
      expiresAt := session.expiresAt
      pairingMaxAge :=
        min (usedPairing pairing now).idleExpiresAt pairing.absoluteExpiresAt - now }

/-- Everything the last section of `resume_pairing` decides before it writes the store, on a
pruned state. -/
def resumable (env : Env) (state : WorkbenchState) (r : ResumeRequest)
    (pairing : WorkbenchPairingGrant) (sessionSecret sessionSelector : String) (now : Nat) :
    Except PairingExchangeError Resumption :=
  if (state.pairingGrants.lookup r.pairingSelector).filter (fun p => p.isLive now) ≠ some pairing then
    .error .expired
  else
    match resumeReplay state r.key sessionSelector (env.sessionCredentialDigest sessionSecret) with
    | .error e => .error e
    | .ok replay =>
      let session := resumedSession env pairing sessionSecret sessionSelector replay now
      .ok (resumption state r pairing session sessionSecret now)

/-- After the store write the candidates become current. -/
def adoptResumption (state : WorkbenchState) (e : Resumption) : WorkbenchState :=
  { state with
    toAuthorizations := e.candidates
    sessions := AList.insert e.session.id e.session state.sessions }

/-- `resume_pairing` from the check of the entry on. `rootValid` is what the file system and the
project resolver say of the pairing's workspace. -/
def resumePairing (env : Env) (h : WorkbenchHostInner) (r : ResumeRequest)
    (pairing : WorkbenchPairingGrant) (now : Nat) (rootValid : Bool) (w : StoreWrite) :
    WorkbenchHostInner × Except PairingExchangeError PairingResumeResult :=
  let pruned := h.withState (retainLiveAuthorizations h.state now)
  if pairing.entry ≠ r.entry then
    match persistTerminalResumeOutcome pruned r.key .invalid now w with
    | (h, .ok ()) => (h, .error .invalid)
    | (h, .error e) => (h, .error e)
  else if !rootValid then
    if resumeOutcomeCapacity pruned.state.resumeOutcomes r.key then
      match persistPairingRevocation pruned r.pairingSelector now
          (some (r.key, terminalResumeOutcome r.key .expired now)) w with
      | (h, true) => (h, .error .expired)
      | (h, false) => (h, .error .unavailable)
    else (pruned, .error .busy)
  else
    match env.derivePairingToken r.pairingSecret r.requestId SESSION_SECRET_DOMAIN,
      env.derivePairingToken r.pairingSecret r.requestId SESSION_SELECTOR_DOMAIN with
    | some sessionSecret, some sessionSelector =>
      match resumable env pruned.state r pairing sessionSecret sessionSelector now with
      | .error e => (pruned, .error e)
      | .ok e =>
        let h := pruned.writeAuthorizationStore w e.candidates
        match w with
        | .done => (h.withState (adoptResumption h.state e), .ok e.result)
        | .refused | .lateError => (h, .error .unavailable)
    | _, _ => (h, .error .invalid)

/-! ## Managing pairings -/

inductive PairingManagementError
  | invalid
  | notFound
  | unavailable
deriving DecidableEq, Repr

def validPairingSelectorReference (value : String) : Bool :=
  decide (8 ≤ value.utf8ByteSize) && decide (value.utf8ByteSize ≤ 43) &&
    value.toList.all fun c => c.isAlphanum || c == '-' || c == '_'

def resolvePairingSelector (state : WorkbenchState) (selectorReference : String)
    (workspaceKey : Option String) : Option String :=
  match (state.pairingGrants.values.filter fun p =>
      (stripPrefix selectorReference p.selector).isSome &&
        workspaceKey.all fun key => p.workspaceKey == key).map (·.selector) with
  | [selector] => some selector
  | _ => none

def revokePairing (h : WorkbenchHostInner) (selectorReference : String)
    (workspaceKey : Option String) (now : Nat) (w : StoreWrite) :
    WorkbenchHostInner × Except PairingManagementError String :=
  if validPairingSelectorReference selectorReference then
    let h := h.withState (enrollPruned h.state now)
    match resolvePairingSelector h.state selectorReference workspaceKey with
    | none => (h, .error .notFound)
    | some selector =>
      match persistPairingRevocation h selector now none w with
      | (h, true) => (h, .ok selector)
      | (h, false) => (h, .error .unavailable)
  else (h, .error .invalid)

def forgetCandidates (a : Authorizations) (selector : String) : Authorizations where
  sessionGrants := a.sessionGrants.retain fun _ s => s.pairingSelector != some selector
  pairingGrants := AList.erase selector a.pairingGrants
  resumeOutcomes := a.resumeOutcomes.retain fun key _ => key.1 != selector

def forgetPairing (h : WorkbenchHostInner) (selectorReference : String)
    (workspaceKey : Option String) (now : Nat) (w : StoreWrite) :
    WorkbenchHostInner × Except PairingManagementError String :=
  if validPairingSelectorReference selectorReference then
    let h := h.withState (enrollPruned h.state now)
    match resolvePairingSelector h.state selectorReference workspaceKey with
    | none => (h, .error .notFound)
    | some selector =>
      match adopt h w (forgetCandidates h.state.toAuthorizations selector)
          fun s => s.pairingSelector == some selector with
      | (h, true) => (h.withState (retainLiveSessions h.state now), .ok selector)
      | (h, false) => (h, .error .unavailable)
  else (h, .error .invalid)

def renameCandidates (a : Authorizations) (selector nickname : String) : Authorizations :=
  { a with
    pairingGrants := a.pairingGrants.modify selector fun p => { p with nickname := some nickname } }

def renamePairing (h : WorkbenchHostInner) (selectorReference nickname : String)
    (workspaceKey : Option String) (now : Nat) (w : StoreWrite) :
    WorkbenchHostInner × Except PairingManagementError String :=
  let nickname := Lib.Text.trim nickname
  if validPairingSelectorReference selectorReference ∧ nickname ≠ "" ∧
      nickname.length ≤ MAX_PAIRING_NICKNAME_CHARS then
    let h := h.withState (retainLiveAuthorizations h.state now)
    match resolvePairingSelector h.state selectorReference workspaceKey with
    | none => (h, .error .notFound)
    | some selector =>
      match adopt h w (renameCandidates h.state.toAuthorizations selector nickname)
          fun _ => false with
      | (h, true) => (h, .ok selector)
      | (h, false) => (h, .error .unavailable)
  else (h, .error .invalid)

/-! ## Reading and renewing sessions -/

/-- What the first section of `restore_session` finds: the session itself, a grant that may bring
it back, or neither. -/
inductive Restorable
  | current
  | stored (grant : WorkbenchSessionGrant)
  | missing

def restorable (env : Env) (state : WorkbenchState) (sessionKey credentialDigest : String)
    (now : Nat) : Restorable :=
  if credentialDigest ∈ state.sessions then .current
  else
    match state.sessionGrants.lookup credentialDigest with
    | none => .missing
    | some grant =>
      if grant.selector = sessionKey ∧ grant.projectId = env.projectId ∧ grant.isLive now then
        .stored grant
      else .missing

def sessionIsBound (env : Env) (state : WorkbenchState) (sessionKey : String)
    (session : WorkbenchSession) : Bool :=
  session.selector == sessionKey && session.projectId == env.projectId &&
    (state.workspacesByKey.lookup session.workspaceKey).any fun workspace =>
      workspace.root == session.workspaceRoot

def noteActivity (state : WorkbenchState) (credentialDigest : String) (session : WorkbenchSession)
    (now : Nat) : WorkbenchState :=
  { state with
    sessions := AList.insert credentialDigest session state.sessions
    sessionGrants := state.sessionGrants.modify credentialDigest fun grant =>
      { grant with lastActivity := now } }

/-- The last section of `session_by_digest`: the session, and whether its activity is to be
persisted. -/
def readSession (env : Env) (state : WorkbenchState) (sessionKey credentialDigest : String)
    (now : Nat) : WorkbenchState × Option (WorkbenchSession × Bool) :=
  let state := retainLiveAuthorizations state now
  match (state.sessions.lookup credentialDigest).filter (sessionIsBound env state sessionKey) with
  | none => (state, none)
  | some session =>
    let persistActivity := decide (SESSION_PERSIST_INTERVAL ≤ now - session.lastPersistedAt)
    let session :=
      { session with
        lastActivity := now
        lastPersistedAt := if persistActivity then now else session.lastPersistedAt }
    (noteActivity state credentialDigest session now, some (session, persistActivity))

/-- The section of `renew_session` after the session was read; the store is written after it. -/
def renewSession (state : WorkbenchState) (sessionKey sessionId : String) (now : Nat) :
    WorkbenchState × Option WorkbenchSession :=
  match (state.sessions.lookup sessionId).filter fun s => s.selector == sessionKey with
  | none => (state, none)
  | some current =>
    let renewed :=
      { current with
        lastActivity := now
        lastPersistedAt := now
        expiresAt := saturatingAdd now SESSION_RENEWAL_LIFETIME }
    ({ state with
      sessions := AList.insert sessionId renewed state.sessions
      sessionGrants := AList.insert sessionId (.from renewed) state.sessionGrants }, some renewed)

/-! ## Reading the store -/

def validSessionGrant (env : Env) (grant : WorkbenchSessionGrant) (now : Nat) : Bool :=
  grant.projectId == env.projectId && isAbsolute grant.workspaceRoot && grant.isLive now &&
    validPublicToken grant.selector && validCredentialDigest grant.credentialDigest

def restoredGrant (grant : WorkbenchSessionGrant) : WorkbenchSessionGrant :=
  { grant with capabilities := upgradedSessionCapabilities grant.capabilities }

def validPairingGrant (env : Env) (p : WorkbenchPairingGrant) (now : Nat) : Bool :=
  p.projectId == env.projectId && isAbsolute p.workspaceRoot && p.isRetained now &&
    decide (p.createdAt ≤ p.idleExpiresAt) && decide (p.createdAt ≤ p.absoluteExpiresAt) &&
    validPublicToken p.selector && validCredentialDigest p.credentialDigest &&
    p.projectInstanceId != "" && (stripPrefix "https://" p.canonicalOrigin).isSome &&
    (expectedHostFromOrigin p.canonicalOrigin).isSome &&
    (p.revocationCause.isNone || p.revokedAt.isSome)

def validOutcome (outcome : WorkbenchResumeOutcome) : Bool :=
  validPublicToken outcome.pairingSelector && validPublicToken outcome.requestId &&
    match outcome.result with
    | .session sessionSelector sessionCredentialDigest sessionExpiresAt =>
      validPublicToken sessionSelector && validCredentialDigest sessionCredentialDigest &&
        decide (outcome.createdAt ≤ sessionExpiresAt)
    | .terminal _ => true

/-- `read_authorization_store`: the entries of the store that are still good, each under the key
it names itself. -/
def readAuthorizationStore (env : Env) (store : Authorizations) (now : Nat) : Authorizations :=
  let pairings := pruneRetainedRevokedPairings <| Table.keyed (·.selector)
    (store.pairingGrants.values.filter fun p => validPairingGrant env p now)
  { sessionGrants := Table.keyed (·.credentialDigest)
      ((store.sessionGrants.values.filter fun g => validSessionGrant env g now).map restoredGrant)
    pairingGrants := pairings
    resumeOutcomes := Table.keyed (fun o => (o.pairingSelector, o.requestId))
      (store.resumeOutcomes.values.filter fun o =>
        decide (now < o.retainedUntil) && validOutcome o && decide (o.pairingSelector ∈ pairings)) }

end WorkbenchHostInner

end Exosuit.Workbench
