import Mathlib.Algebra.Group.Nat.Defs
import Exosuit.Lib.Table

/-!
# The workbench host state

Hosts, workspace registrations, pending launch capabilities, sessions and
pairings, with the predicates that say which of them are current.
Times and generations are `u64`.
-/

namespace Exosuit.Workbench

open Lib (Table)

def U64_MAX : Nat := 2 ^ 64 - 1

def saturatingAdd (a b : Nat) : Nat := min (a + b) U64_MAX

def TICKET_LIFETIME : Nat := 60 * 60
def SESSION_RENEWAL_LIFETIME : Nat := 12 * 60 * 60
def SESSION_IDLE_LIFETIME : Nat := 30 * 60
def PAIRING_IDLE_LIFETIME : Nat := 30 * 24 * 60 * 60
def PAIRING_ABSOLUTE_LIFETIME : Nat := 180 * 24 * 60 * 60
def SESSION_PERSIST_INTERVAL : Nat := 5 * 60
def RESUME_OUTCOME_LIFETIME : Nat := 24 * 60 * 60
def TERMINAL_RESUME_OUTCOME_LIFETIME : Nat := 5 * 60
def MAX_SESSIONS : Nat := 64
def MAX_ACTIVE_PAIRINGS : Nat := 64
def MAX_ACTIVE_PAIRINGS_PER_WORKSPACE : Nat := 8
def MAX_RETAINED_REVOKED_PAIRINGS : Nat := 64
def MAX_RETAINED_REVOKED_PAIRINGS_PER_WORKSPACE : Nat := 8
def MAX_RESUME_OUTCOMES : Nat := 256
def MAX_RESUME_OUTCOMES_PER_PAIRING : Nat := 32
def MAX_PAIRING_NICKNAME_CHARS : Nat := 80
def MAX_PROJECT_WORKSPACES : Nat := 128

inductive WorkbenchLaunchMode
  | directLoopback
  | published
deriving DecidableEq, Repr

structure WorkbenchEntryBinding where
  launchMode : WorkbenchLaunchMode
  canonicalOrigin : String
  projectInstanceId : Option String
  workspaceKey : Option String
deriving DecidableEq, Repr

structure BoundHost where
  generation : Nat
  origin : String
  secret : List UInt8
  publicationListener : Bool
  serverTaskAlive : Bool
deriving DecidableEq

structure WorkspaceRegistration where
  key : String
  root : String
  label : String
  branch : Option String
  head : Option String
  dirty : Option Bool
  observedAt : Option Nat
  registeredAt : Nat
deriving DecidableEq

structure PendingCapability where
  workspaceKey : String
  workspaceRoot : String
  workspaceRegistrationGeneration : Nat
  entry : WorkbenchEntryBinding
  hostGeneration : Nat
  expiresAt : Nat
deriving DecidableEq

structure WorkbenchLaunchReplay where
  capabilityId : String
  expiresAt : Nat
deriving DecidableEq

structure WorkbenchSession where
  id : String
  selector : String
  projectId : String
  workspaceKey : String
  workspaceRoot : String
  capabilities : List String
  entry : WorkbenchEntryBinding
  pairingSelector : Option String
  createdAt : Nat
  lastActivity : Nat
  expiresAt : Nat
  lastPersistedAt : Nat
deriving DecidableEq

inductive WorkbenchPairingRevocationCause
  | explicit
  | replaced
  | workspaceMissing
deriving DecidableEq

structure WorkbenchPairingGrant where
  selector : String
  credentialDigest : String
  projectId : String
  workspaceKey : String
  workspaceRoot : String
  launchMode : WorkbenchLaunchMode
  projectInstanceId : String
  canonicalOrigin : String
  capabilities : List String
  createdAt : Nat
  lastUsedAt : Nat
  idleExpiresAt : Nat
  absoluteExpiresAt : Nat
  nickname : Option String
  revokedAt : Option Nat
  revocationCause : Option WorkbenchPairingRevocationCause
deriving DecidableEq

/-- The key is the pairing's selector with the request's id. -/
abbrev WorkbenchResumeOutcomeKey := String × String

inductive WorkbenchResumeTerminalError
  | invalid
  | expired
deriving DecidableEq, Repr

inductive WorkbenchResumeOutcomeResult
  | session (sessionSelector sessionCredentialDigest : String) (sessionExpiresAt : Nat)
  | terminal (terminalError : WorkbenchResumeTerminalError)
deriving DecidableEq

structure WorkbenchResumeOutcome where
  pairingSelector : String
  requestId : String
  createdAt : Nat
  retainedUntil : Nat
  result : WorkbenchResumeOutcomeResult
deriving DecidableEq

def WorkbenchResumeOutcome.isTerminal (o : WorkbenchResumeOutcome) : Bool :=
  match o.result with
  | .terminal _ => true
  | .session .. => false

/-- A session grant is the stored half of a session. -/
structure WorkbenchSessionGrant where
  credentialDigest : String
  selector : String
  projectId : String
  workspaceKey : String
  workspaceRoot : String
  capabilities : List String
  entry : Option WorkbenchEntryBinding
  pairingSelector : Option String
  createdAt : Nat
  lastActivity : Nat
  expiresAt : Nat
deriving DecidableEq

structure Authorizations where
  sessionGrants : Table String WorkbenchSessionGrant
  pairingGrants : Table String WorkbenchPairingGrant
  resumeOutcomes : Table WorkbenchResumeOutcomeKey WorkbenchResumeOutcome

structure WorkbenchState extends Authorizations where
  host : Option BoundHost
  originBindings : Table String WorkbenchEntryBinding
  workspacesByRoot : Table String String
  workspacesByKey : Table String WorkspaceRegistration
  workspaceRegistrationGenerations : Table String Nat
  nextWorkspaceRegistrationGeneration : Nat
  pendingCapabilities : Table String PendingCapability
  launchReplays : Table String WorkbenchLaunchReplay
  sessions : Table String WorkbenchSession

/-! ## Entry bindings -/

def stripPrefix ( pre s : String) : Option String :=
  (s.toList.dropPrefix? pre.toList).map String.ofList

def isAsciiWhitespace (c : Char) : Bool :=
  c == ' ' || c == '\t' || c == '\n' || c == '\r' || c == Char.ofNat 12

def expectedHostFromOrigin (origin : String) : Option String :=
  match (stripPrefix "https://" origin).or (stripPrefix "http://" origin) with
  | none => none
  | some authority =>
    if authority.toList.isEmpty || authority.toList.any (fun c => c ∈ ['/', '?', '#', '@']) ||
        authority.toList.any isAsciiWhitespace then none
    else some authority

namespace WorkbenchEntryBinding

def direct (canonicalOrigin : String) : WorkbenchEntryBinding where
  launchMode := .directLoopback
  canonicalOrigin := canonicalOrigin
  projectInstanceId := none
  workspaceKey := none

def published (canonicalOrigin projectInstanceId workspaceKey : String) :
    Option WorkbenchEntryBinding :=
  if (stripPrefix "https://" canonicalOrigin).isNone ||
      (expectedHostFromOrigin canonicalOrigin).isNone ||
      projectInstanceId.toList.isEmpty || workspaceKey.toList.isEmpty then none
  else some ⟨.published, canonicalOrigin, some projectInstanceId, some workspaceKey⟩

def isPublished (b : WorkbenchEntryBinding) : Bool := b.launchMode == .published

def conflictsWithTransition (b : WorkbenchEntryBinding) (workspaceKey : String)
    (replacement : WorkbenchEntryBinding) : Bool :=
  b.workspaceKey == some workspaceKey || b.canonicalOrigin == replacement.canonicalOrigin ||
    (replacement.projectInstanceId.isSome &&
      b.projectInstanceId == replacement.projectInstanceId)

end WorkbenchEntryBinding

/-! ## Pending capabilities -/

def pendingCapabilityIssuanceCurrent (state : WorkbenchState) (pending : PendingCapability)
    (now : Nat) : Bool :=
  let workspaceCurrent := (state.workspacesByKey.lookup pending.workspaceKey).any fun workspace =>
    workspace.root == pending.workspaceRoot &&
      state.workspacesByRoot.lookup pending.workspaceRoot == some pending.workspaceKey &&
      state.workspaceRegistrationGenerations.lookup pending.workspaceKey ==
        some pending.workspaceRegistrationGeneration
  let hostCurrent := state.host.any fun host =>
    host.serverTaskAlive && host.generation == pending.hostGeneration &&
      (pending.entry.isPublished || host.origin == pending.entry.canonicalOrigin)
  let entryCurrent := !pending.entry.isPublished ||
    state.originBindings.lookup pending.entry.canonicalOrigin == some pending.entry
  decide (now < pending.expiresAt) && workspaceCurrent && hostCurrent && entryCurrent

def retainLivePendingCapabilities (state : WorkbenchState) (now : Nat) : WorkbenchState :=
  let live := state.pendingCapabilities.retain fun _ pending =>
    pendingCapabilityIssuanceCurrent state pending now
  { state with
    pendingCapabilities := live
    launchReplays := state.launchReplays.retain fun _ replay =>
      decide (now < replay.expiresAt) && decide (replay.capabilityId ∈ live) }

def removeLaunchReplaysForCapability (state : WorkbenchState) (capabilityId : String) :
    WorkbenchState :=
  { state with
    launchReplays := state.launchReplays.retain fun _ replay => replay.capabilityId != capabilityId }

/-! ## Sessions and pairings -/

def WorkbenchSession.isLive (s : WorkbenchSession) (now : Nat) : Bool :=
  decide (now < s.expiresAt) && decide (now < saturatingAdd s.lastActivity SESSION_IDLE_LIFETIME)

def WorkbenchSessionGrant.isLive (s : WorkbenchSessionGrant) (now : Nat) : Bool :=
  decide (now < s.expiresAt) && decide (now < saturatingAdd s.lastActivity SESSION_IDLE_LIFETIME)

def WorkbenchSessionGrant.from (s : WorkbenchSession) : WorkbenchSessionGrant where
  credentialDigest := s.id
  selector := s.selector
  projectId := s.projectId
  workspaceKey := s.workspaceKey
  workspaceRoot := s.workspaceRoot
  capabilities := s.capabilities
  entry := some s.entry
  pairingSelector := s.pairingSelector
  createdAt := s.createdAt
  lastActivity := s.lastActivity
  expiresAt := s.expiresAt

namespace WorkbenchPairingGrant

def isLive (p : WorkbenchPairingGrant) (now : Nat) : Bool :=
  p.launchMode == .published && p.revokedAt.isNone && decide (p.createdAt ≤ now) &&
    decide (p.lastUsedAt ≤ now) && decide (now < p.idleExpiresAt) &&
    decide (now < p.absoluteExpiresAt)

def isRetained (p : WorkbenchPairingGrant) (now : Nat) : Bool :=
  match p.revokedAt with
  | some revokedAt =>
    p.launchMode == .published && decide (p.createdAt ≤ p.lastUsedAt) &&
      decide (p.lastUsedAt ≤ revokedAt) && decide (revokedAt ≤ now)
  | none => p.isLive now

def revoke (p : WorkbenchPairingGrant) (now : Nat) (cause : WorkbenchPairingRevocationCause) :
    WorkbenchPairingGrant :=
  { p with
    revokedAt := p.revokedAt.or (some now)
    revocationCause := match cause with
      | .workspaceMissing => p.revocationCause.or (some cause)
      | .explicit | .replaced => some cause }

def restoreMissingWorkspaceMove (p : WorkbenchPairingGrant) : WorkbenchPairingGrant :=
  if p.revocationCause = some .workspaceMissing then
    { p with revokedAt := none, revocationCause := none }
  else p

def entry (p : WorkbenchPairingGrant) : WorkbenchEntryBinding :=
  ⟨.published, p.canonicalOrigin, some p.projectInstanceId, some p.workspaceKey⟩

end WorkbenchPairingGrant

def retainLiveSessions (state : WorkbenchState) (now : Nat) : WorkbenchState :=
  { state with
    sessionGrants := state.sessionGrants.retain fun _ s => s.isLive now
    sessions := state.sessions.retain fun _ s => s.isLive now }

/-- Keeps the youngest revoked pairings, up to a limit overall and for each workspace. -/
def pruneRevoked : List WorkbenchPairingGrant → Nat → List String → List String
  | [], _, _ => []
  | p :: ps, kept, keptKeys =>
    if kept < MAX_RETAINED_REVOKED_PAIRINGS ∧
        keptKeys.count p.workspaceKey < MAX_RETAINED_REVOKED_PAIRINGS_PER_WORKSPACE then
      pruneRevoked ps (kept + 1) (p.workspaceKey :: keptKeys)
    else p.selector :: pruneRevoked ps kept keptKeys

def pruneRetainedRevokedPairings (pairings : Table String WorkbenchPairingGrant) :
    Table String WorkbenchPairingGrant :=
  let revoked := (pairings.values.filter fun p => p.revokedAt.isSome).mergeSort fun left right =>
    ((compare right.revokedAt left.revokedAt).then (compare right.selector left.selector)).isLE
  let remove := pruneRevoked revoked 0 []
  pairings.retain fun selector _ => decide (selector ∉ remove)

def retainCandidateResumeOutcomes
    (outcomes : Table WorkbenchResumeOutcomeKey WorkbenchResumeOutcome)
    (pairings : Table String WorkbenchPairingGrant) (now : Nat) :
    Table WorkbenchResumeOutcomeKey WorkbenchResumeOutcome :=
  outcomes.retain fun key outcome => decide (now < outcome.retainedUntil) &&
    (pairings.lookup key.1).any fun pairing => outcome.isTerminal || pairing.isLive now

def retainLiveAuthorizations (state : WorkbenchState) (now : Nat) : WorkbenchState :=
  let state := retainLiveSessions state now
  let pairings := pruneRetainedRevokedPairings (state.pairingGrants.retain fun _ p => p.isRetained now)
  let livePairings := (pairings.values.filter fun p => p.isLive now).map (·.selector)
  { state with
    pairingGrants := pairings
    resumeOutcomes := retainCandidateResumeOutcomes state.resumeOutcomes pairings now
    sessionGrants := state.sessionGrants.retain fun _ s =>
      s.pairingSelector.all fun selector => decide (selector ∈ livePairings)
    sessions := state.sessions.retain fun _ s =>
      s.pairingSelector.all fun selector => decide (selector ∈ livePairings) }

def leastRecentlyUsedPairingWithoutLiveSession (pairings : Table String WorkbenchPairingGrant)
    (sessions : Table String WorkbenchSessionGrant) (workspaceKey : String)
    (excludedSelector : Option String) (now : Nat) : Option String :=
  let activePairings := (sessions.values.filter fun s => s.isLive now).filterMap (·.pairingSelector)
  let idle := pairings.values.filter fun p => p.workspaceKey == workspaceKey && p.isLive now &&
    excludedSelector != some p.selector && decide (p.selector ∉ activePairings)
  (idle.mergeSort fun left right =>
    (((compare left.lastUsedAt right.lastUsedAt).then
      (compare left.createdAt right.createdAt)).then
        (compare left.selector right.selector)).isLE).head?.map (·.selector)

/-! ## What pruning keeps -/

theorem lookup_retainLivePendingCapabilities {state : WorkbenchState} {now : Nat} {c : String}
    {p : PendingCapability} :
    (retainLivePendingCapabilities state now).pendingCapabilities.lookup c = some p ↔
      state.pendingCapabilities.lookup c = some p ∧
        pendingCapabilityIssuanceCurrent state p now = true := by
  unfold retainLivePendingCapabilities
  exact Lib.Table.lookup_retain_eq_some

@[simp] theorem current_retainLivePendingCapabilities (state : WorkbenchState) (at' now : Nat)
    (p : PendingCapability) :
    pendingCapabilityIssuanceCurrent (retainLivePendingCapabilities state at') p now =
      pendingCapabilityIssuanceCurrent state p now := rfl

@[simp] theorem current_retainLiveSessions (state : WorkbenchState) (at' now : Nat)
    (p : PendingCapability) :
    pendingCapabilityIssuanceCurrent (retainLiveSessions state at') p now =
      pendingCapabilityIssuanceCurrent state p now := rfl

@[simp] theorem current_retainLiveAuthorizations (state : WorkbenchState) (at' now : Nat)
    (p : PendingCapability) :
    pendingCapabilityIssuanceCurrent (retainLiveAuthorizations state at') p now =
      pendingCapabilityIssuanceCurrent state p now := rfl

@[simp] theorem retainLiveSessions_pendingCapabilities (state : WorkbenchState) (now : Nat) :
    (retainLiveSessions state now).pendingCapabilities = state.pendingCapabilities := rfl

@[simp] theorem retainLiveAuthorizations_pendingCapabilities (state : WorkbenchState) (now : Nat) :
    (retainLiveAuthorizations state now).pendingCapabilities = state.pendingCapabilities := rfl

end Exosuit.Workbench
