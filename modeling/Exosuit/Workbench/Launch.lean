import Exosuit.Workbench.Exchange

/-!
# Launches

The locked sections of `launch`: the entry transition with its rollback, the
direct move, and the issue of a capability for a signed ticket.
-/

namespace Exosuit.Workbench

open Lib (Table)

namespace WorkbenchHostInner

structure WorkbenchAuthorizationRollback where
  authorizations : Authorizations
  sessions : Table String WorkbenchSession

def movedPairings (env : Env) (state : WorkbenchState) (workspace : WorkspaceRegistration)
    (entry : WorkbenchEntryBinding) (projectInstanceId : String) : List String :=
  (state.pairingGrants.values.filter fun p =>
    p.projectId == env.projectId && p.projectInstanceId == projectInstanceId &&
      (p.revokedAt.isNone || p.revocationCause == some .workspaceMissing) &&
      (p.workspaceKey != workspace.key || p.workspaceRoot != workspace.root ||
        p.canonicalOrigin != entry.canonicalOrigin)).map (·.selector)

def replacedPairings (env : Env) (state : WorkbenchState) (workspace : WorkspaceRegistration)
    (projectInstanceId : String) : List String :=
  (state.pairingGrants.values.filter fun p =>
    p.projectId == env.projectId && p.workspaceKey == workspace.key &&
      p.projectInstanceId != projectInstanceId &&
      p.revocationCause != some .replaced).map (·.selector)

def movePairing (workspace : WorkspaceRegistration) (entry : WorkbenchEntryBinding)
    (p : WorkbenchPairingGrant) : WorkbenchPairingGrant :=
  { p with
    workspaceKey := workspace.key
    workspaceRoot := workspace.root
    canonicalOrigin := entry.canonicalOrigin }.restoreMissingWorkspaceMove

def moveCandidates (state : WorkbenchState) (workspace : WorkspaceRegistration)
    (entry : WorkbenchEntryBinding) (moved replaced : List String) (now : Nat) : Authorizations :=
  let pairings := moved.foldl (fun t selector => t.modify selector (movePairing workspace entry))
    state.pairingGrants
  let pairings := pruneRetainedRevokedPairings <|
    replaced.foldl (fun t selector => t.modify selector fun p => p.revoke now .replaced) pairings
  let outcomes := state.resumeOutcomes.retain fun key outcome =>
    (decide (key.1 ∉ moved) || outcome.isTerminal) &&
      (decide (key.1 ∉ replaced) || outcome.isTerminal)
  { sessionGrants := state.sessionGrants.retain fun _ s => s.pairingSelector.all fun selector =>
      decide (selector ∉ moved) && decide (selector ∉ replaced)
    pairingGrants := pairings
    resumeOutcomes := retainCandidateResumeOutcomes outcomes pairings now }

/-- Moves a project instance's pairings to the workspace; the result says whether the store
write went through and what a rollback restores. -/
def reconcilePublishedWorkspaceMove (env : Env) (h : WorkbenchHostInner)
    (workspace : WorkspaceRegistration) (entry : WorkbenchEntryBinding) (now : Nat)
    (w : StoreWrite) : WorkbenchHostInner × Option (Option WorkbenchAuthorizationRollback) :=
  match entry.isPublished, entry.projectInstanceId with
  | false, _ => (h, some none)
  | true, none => (h, none)
  | true, some projectInstanceId =>
    let state := retainLiveAuthorizations h.state now
    let h := { h with state := state }
    let moved := movedPairings env state workspace entry projectInstanceId
    let replaced := replacedPairings env state workspace projectInstanceId
    if moved.isEmpty && replaced.isEmpty then (h, some none)
    else
      let rollback : WorkbenchAuthorizationRollback := ⟨state.toAuthorizations, state.sessions⟩
      match adopt h w (moveCandidates state workspace entry moved replaced now) fun s =>
          s.pairingSelector.any fun selector =>
            decide (selector ∈ moved) || decide (selector ∈ replaced) with
      | (h, false) => (h, none)
      | (h, true) =>
        let originBindings := h.state.originBindings.retain fun _ b =>
          b.projectInstanceId != some projectInstanceId || b.canonicalOrigin == entry.canonicalOrigin
        ({ h with state := { h.state with originBindings := originBindings } }, some (some rollback))

def restorePublishedWorkspaceMove (h : WorkbenchHostInner)
    (rollback : WorkbenchAuthorizationRollback) (w : StoreWrite) : WorkbenchHostInner × Bool :=
  let h := h.writeAuthorizationStore w rollback.authorizations
  match w with
  | .done =>
    ({ h with state :=
        { h.state with
          toAuthorizations := rollback.authorizations
          sessions := rollback.sessions } }, true)
  | .refused | .lateError => (h, false)

def conflictingBindings (state : WorkbenchState) (workspaceKey : String)
    (entry : WorkbenchEntryBinding) : List (String × WorkbenchEntryBinding) :=
  (state.originBindings.entries.filter fun e =>
    e.2.conflictsWithTransition workspaceKey entry).map fun e => (e.1, e.2)

def dropConflicting (state : WorkbenchState) (workspaceKey : String)
    (entry : WorkbenchEntryBinding) : WorkbenchState :=
  { state with
    originBindings := state.originBindings.retain fun _ b =>
      !b.conflictsWithTransition workspaceKey entry }

def bindOrigin (state : WorkbenchState) (workspaceKey : String) (entry : WorkbenchEntryBinding) :
    WorkbenchState :=
  let state := dropConflicting state workspaceKey entry
  { state with
    originBindings := AList.insert entry.canonicalOrigin entry state.originBindings }

def restoreOrigins (state : WorkbenchState) (workspaceKey : String)
    (replacement : WorkbenchEntryBinding) (previous : List (String × WorkbenchEntryBinding)) :
    WorkbenchState :=
  let state := dropConflicting state workspaceKey replacement
  { state with originBindings := state.originBindings.extend previous }

def releaseWorkspaceBindings (state : WorkbenchState) (workspaceKey : String) : WorkbenchState :=
  { state with
    originBindings := state.originBindings.retain fun _ b => b.workspaceKey != some workspaceKey }

@[simp] theorem reconcilePublishedWorkspaceMove_pendingCapabilities (env : Env)
    (h : WorkbenchHostInner) (workspace : WorkspaceRegistration) (entry : WorkbenchEntryBinding)
    (now : Nat) (w : StoreWrite) :
    (reconcilePublishedWorkspaceMove env h workspace entry now w).1.state.pendingCapabilities =
      h.state.pendingCapabilities := by
  unfold reconcilePublishedWorkspaceMove
  split
  · rfl
  · rfl
  · simp only
    split
    · rfl
    · split
      · next hAdopt =>
        have hPending := congrArg (fun r => r.1.state.pendingCapabilities) hAdopt
        simpa using hPending.symm
      · next hAdopt =>
        have hPending := congrArg (fun r => r.1.state.pendingCapabilities) hAdopt
        simpa using hPending.symm

@[simp] theorem restorePublishedWorkspaceMove_pendingCapabilities (h : WorkbenchHostInner)
    (rollback : WorkbenchAuthorizationRollback) (w : StoreWrite) :
    (h.restorePublishedWorkspaceMove rollback w).1.state.pendingCapabilities =
      h.state.pendingCapabilities := by
  cases w <;> rfl

/-! ## Issuing -/

def PLANNING_CAPABILITIES : List String :=
  ["workbench.task.add", "workbench.task.update", "workbench.task.reorder", "workbench.task.start",
    "workbench.task.log", "workbench.task.complete.review", "workbench.task.complete.approve"]

def launchCapabilities (entry : WorkbenchEntryBinding) : List String :=
  ["workbench.snapshot", "workbench.inspect", "lane.focus"] ++
    (if entry.isPublished then ["workbench.pairing.manage"] else []) ++ PLANNING_CAPABILITIES

def launchPayload (env : Env) (version : Nat) (workspaceKey : String)
    (entry : WorkbenchEntryBinding) (capabilityId : String) (issuedAt : Nat) :
    WorkbenchTicketV1 where
  version := version
  capabilityId := capabilityId
  instanceId := env.instanceId
  projectId := env.projectId
  workspaceKey := workspaceKey
  capabilities := launchCapabilities entry
  issuedAt := issuedAt
  expiresAt := saturatingAdd issuedAt TICKET_LIFETIME

def launchTicket (env : Env) (secret : Bytes) (workspaceKey : String)
    (entry : WorkbenchEntryBinding) (capabilityId : String) (issuedAt : Nat) : Option Ticket :=
  if entry.isPublished then
    entry.projectInstanceId.map fun projectInstanceId =>
      env.signTicketV2 secret
        { launchPayload env 2 workspaceKey entry capabilityId issuedAt with
          entryMode := entry.launchMode
          projectInstanceId := projectInstanceId
          canonicalOrigin := entry.canonicalOrigin }
  else
    some (env.signTicketV1 secret (launchPayload env 1 workspaceKey entry capabilityId issuedAt))

/-- The last locked section: the registration and the host must still be the launch's own. -/
def issueCapability (state : WorkbenchState) (workspace : WorkspaceRegistration)
    (entry : WorkbenchEntryBinding) (listenerGeneration : Nat) (capabilityId : String)
    (issuedAt : Nat) : Option (WorkbenchState × PendingCapability) :=
  let registered := (state.workspacesByKey.lookup workspace.key).filter fun registered =>
    registered.root == workspace.root
  let generation := registered.bind fun registered =>
    state.workspaceRegistrationGenerations.lookup registered.key
  let host := state.host.filter fun host =>
    host.serverTaskAlive && host.generation == listenerGeneration
  match generation, host with
  | some generation, some host =>
    let state := retainLivePendingCapabilities state issuedAt
    let pending : PendingCapability :=
      { workspaceKey := workspace.key
        workspaceRoot := workspace.root
        workspaceRegistrationGeneration := generation
        entry := entry
        hostGeneration := host.generation
        expiresAt := saturatingAdd issuedAt TICKET_LIFETIME }
    some ({ state with
      pendingCapabilities := AList.insert capabilityId pending state.pendingCapabilities }, pending)
  | _, _ => none

end WorkbenchHostInner

end Exosuit.Workbench
