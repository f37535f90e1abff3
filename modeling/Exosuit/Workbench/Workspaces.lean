import Mathlib.Data.List.MinMax
import Exosuit.Workbench.Tickets

/-!
# Hosts, workspaces and origins

The locked sections that replace the host, register, move or evict workspaces
and rebind origins. None of them touches a pending capability.
-/

namespace Exosuit.Workbench

open Lib (Table)

/-- How the replacement of the authorization store on disk ends: done, refused before the
rename, or reported as failed after it. -/
inductive StoreWrite
  | done
  | refused
  | lateError
deriving DecidableEq, Repr

/-- The host's memory, its authorization store on disk, and its generation counter. -/
structure WorkbenchHostInner where
  state : WorkbenchState
  store : Authorizations
  hostGeneration : Nat

namespace WorkbenchHostInner

def writeAuthorizationStore (h : WorkbenchHostInner) (w : StoreWrite) (store : Authorizations) :
    WorkbenchHostInner :=
  match w with
  | .refused => h
  | .done | .lateError => { h with store := store }

/-! ## The bound host -/

inductive HostLaunchPlan
  | existing (generation : Nat) (origin : String) (secret : List UInt8)
  | candidate (generation : Nat) (origin : String) (secret : List UInt8)
deriving DecidableEq

def HostLaunchPlan.generation : HostLaunchPlan → Nat
  | existing generation _ _ => generation
  | candidate generation _ _ => generation

def HostLaunchPlan.secret : HostLaunchPlan → List UInt8
  | existing _ _ secret => secret
  | candidate _ _ secret => secret

/-- `listener` is the origin of a newly bound loopback listener and `fresh` new random
bytes; a stopped host passes its secret on. -/
def prepareHost (h : WorkbenchHostInner) (listener : String) (fresh : List UInt8) :
    Option (WorkbenchHostInner × HostLaunchPlan) :=
  let bumped := { h with hostGeneration := (h.hostGeneration + 1) % 2 ^ 64 }
  let generation := saturatingAdd h.hostGeneration 1
  match h.state.host with
  | some host =>
    if host.serverTaskAlive then
      if host.publicationListener then
        some (h, .existing host.generation host.origin host.secret)
      else none
    else if host.publicationListener then
      some (bumped, .candidate generation host.origin host.secret)
    else some (bumped, .candidate generation listener host.secret)
  | none => some (bumped, .candidate generation listener fresh)

def startHostPlan (h : WorkbenchHostInner) : HostLaunchPlan → WorkbenchHostInner × HostLaunchPlan
  | .existing generation origin secret => (h, .existing generation origin secret)
  | .candidate generation origin secret =>
    let host : BoundHost :=
      { generation := generation
        origin := origin
        secret := secret
        publicationListener := true
        serverTaskAlive := true }
    ({ h with state := { h.state with host := some host } }, .existing generation origin secret)

def serverStopped (h : WorkbenchHostInner) (generation : Nat) : WorkbenchHostInner :=
  match h.state.host with
  | some host =>
    if host.generation = generation then
      { h with state := { h.state with host := some { host with serverTaskAlive := false } } }
    else h
  | none => h

def markHostInactive (h : WorkbenchHostInner) : WorkbenchHostInner :=
  { h with state := { h.state with host := h.state.host.map fun host =>
      { host with serverTaskAlive := false, publicationListener := false } } }

/-! ## Registrations -/

def retainKeys (state : WorkbenchState) (keep : String → Bool) : WorkbenchState :=
  { state with
    workspacesByKey := state.workspacesByKey.retain fun key _ => keep key
    workspacesByRoot := state.workspacesByRoot.retain fun _ key => keep key
    workspaceRegistrationGenerations :=
      state.workspaceRegistrationGenerations.retain fun key _ => keep key }

def releaseBindings (state : WorkbenchState) (keys : List String) : WorkbenchState :=
  { state with
    originBindings := state.originBindings.retain fun _ binding =>
      binding.workspaceKey.all fun key => decide (key ∉ keys) }

def retainProjectWorkspaceLimit (state : WorkbenchState) (currentWorkspaceKey : String)
    (now : Nat) : WorkbenchState × List String :=
  if state.workspacesByKey.size ≤ MAX_PROJECT_WORKSPACES then (state, [])
  else
    let holders := currentWorkspaceKey ::
      ((state.pendingCapabilities.values.filter fun p =>
          pendingCapabilityIssuanceCurrent state p now).map (·.workspaceKey) ++
        (state.sessions.values.filter fun s => s.isLive now).map (·.workspaceKey) ++
        (state.sessionGrants.values.filter fun s => s.isLive now).map (·.workspaceKey) ++
        (state.pairingGrants.values.filter fun p => p.isLive now).map (·.workspaceKey))
    let isProtected := state.workspacesByKey.keys.filter fun key => decide (key ∈ holders)
    let registrations := state.workspacesByKey.values.mergeSort fun left right =>
      ((((((compare (right.key == currentWorkspaceKey) (left.key == currentWorkspaceKey)).then
        (compare (decide (right.key ∈ isProtected)) (decide (left.key ∈ isProtected)))).then
        (compare right.observedAt left.observedAt)).then
        (compare right.registeredAt left.registeredAt)).then
        (compare left.key right.key))).isLE
    let retained := (registrations.take (max MAX_PROJECT_WORKSPACES isProtected.length)).map (·.key)
    (retainKeys state fun key => decide (key ∈ retained),
      state.workspacesByKey.keys.filter fun key => decide (key ∉ retained))

structure GitSnapshot where
  branch : Option String
  head : Option String
  dirty : Option Bool
deriving DecidableEq

def GitSnapshot.observed (g : GitSnapshot) : Bool :=
  g.branch.isSome || g.head.isSome || g.dirty.isSome

def workspaceLabel (branch head : Option String) (key : String) : String :=
  (branch.or (head.map fun head => "detached@" ++ String.ofList (head.toList.take 8))).getD
    ("Workspace " ++ String.ofList (key.toList.take 8))

def observedRegistration (previous : Option WorkspaceRegistration) (key root : String)
    (git : GitSnapshot) (now registeredAt : Nat) : WorkspaceRegistration :=
  let branch := if git.observed then git.branch else previous.bind (·.branch)
  let head := if git.observed then git.head else previous.bind (·.head)
  { key := key
    root := root
    label := workspaceLabel branch head key
    branch := branch
    head := head
    dirty := if git.observed then git.dirty else previous.bind (·.dirty)
    observedAt := if git.observed then some now else previous.bind (·.observedAt)
    registeredAt := (previous.map (·.registeredAt)).getD registeredAt }

/-- A registration that is new, or was only discovered so far, gets the next generation. -/
def nextGeneration (state : WorkbenchState) (key : String) : WorkbenchState :=
  let generation := saturatingAdd state.nextWorkspaceRegistrationGeneration 1
  if key ∈ state.workspacesByKey ∧ key ∈ state.workspaceRegistrationGenerations then state
  else
    { state with
      nextWorkspaceRegistrationGeneration := generation
      workspaceRegistrationGenerations :=
        AList.insert key generation state.workspaceRegistrationGenerations }

def insertRegistration (state : WorkbenchState) (workspace : WorkspaceRegistration) :
    WorkbenchState :=
  { state with
    workspacesByRoot := AList.insert workspace.root workspace.key state.workspacesByRoot
    workspacesByKey := AList.insert workspace.key workspace state.workspacesByKey }

/-- `none` is the workspace key collision. -/
def registerWorkspaceWithGit (env : Env) (state : WorkbenchState) (root : String)
    (git : GitSnapshot) (now : Nat) : Option (WorkbenchState × WorkspaceRegistration) :=
  let granted := (state.sessionGrants.values.filter fun grant =>
    grant.projectId == env.projectId && grant.workspaceRoot == root && grant.isLive now).argmax
      (·.lastActivity)
  let key := ((state.workspacesByRoot.lookup root).or (granted.map (·.workspaceKey))).getD
    (env.deterministicWorkspaceKey env.projectId root)
  let previous := state.workspacesByKey.lookup key
  if previous.any fun workspace => workspace.root != root then none
  else
    let workspace := observedRegistration previous key root git now now
    let state := insertRegistration (nextGeneration state key) workspace
    let (state, evicted) := retainProjectWorkspaceLimit state key now
    some (releaseBindings state evicted, workspace)

def insertDiscoveredWorkspace (state : WorkbenchState) (workspace : WorkspaceRegistration) :
    WorkbenchState :=
  if workspace.root ∈ state.workspacesByRoot ∨ workspace.key ∈ state.workspacesByKey then state
  else insertRegistration state workspace

/-! ## Moves and removals -/

def setAuthorizations (h : WorkbenchHostInner) (a : Authorizations) : WorkbenchHostInner :=
  { h with state := { h.state with toAuthorizations := a } }

def dropSessions (h : WorkbenchHostInner) (gone : WorkbenchSession → Bool) : WorkbenchHostInner :=
  { h with state := { h.state with sessions := h.state.sessions.retain fun _ s => !gone s } }

/-- Persists the candidate collections and, once they are on disk, adopts them. -/
def adopt (h : WorkbenchHostInner) (w : StoreWrite) (a : Authorizations)
    (gone : WorkbenchSession → Bool) : WorkbenchHostInner × Bool :=
  let h := h.writeAuthorizationStore w a
  match w with
  | .done => (dropSessions (setAuthorizations h a) gone, true)
  | .refused | .lateError => (h, false)

def invalidateRemovedWorkspaceAuthorizations (h : WorkbenchHostInner) (workspaceKeys : List String)
    (now : Nat) (w : StoreWrite) : WorkbenchHostInner × Bool :=
  let state := h.state
  let removedSession (s : WorkbenchSession) : Bool := decide (s.workspaceKey ∈ workspaceKeys)
  if workspaceKeys.isEmpty then (h, true)
  else
    let pairings := state.pairingGrants.values.filter fun p => decide (p.workspaceKey ∈ workspaceKeys)
    let selectors := pairings.map (·.selector)
    let hasSessions := state.sessionGrants.values.any fun s => decide (s.workspaceKey ∈ workspaceKeys)
    let hasLivePairings := selectors.any fun selector =>
      (state.pairingGrants.lookup selector).any fun p => p.revokedAt.isNone
    let hasNonterminalOutcomes := state.resumeOutcomes.entries.any fun e =>
      decide (e.1.1 ∈ selectors) && !e.2.isTerminal
    if !hasSessions && !hasLivePairings && !hasNonterminalOutcomes then
      (dropSessions h removedSession, true)
    else
      let candidatePairings := pruneRetainedRevokedPairings <|
        selectors.foldl (fun t selector => t.modify selector fun p => p.revoke now .workspaceMissing)
          state.pairingGrants
      let candidateOutcomes := retainCandidateResumeOutcomes
        (state.resumeOutcomes.retain fun key outcome =>
          decide (key.1 ∉ selectors) || outcome.isTerminal) candidatePairings now
      adopt h w
        { sessionGrants := state.sessionGrants.retain fun _ s =>
            decide (s.workspaceKey ∉ workspaceKeys)
          pairingGrants := candidatePairings
          resumeOutcomes := candidateOutcomes } removedSession

def workspaceRegistrationsShareGitIdentity (previous candidate : WorkspaceRegistration) : Bool :=
  match previous.branch, candidate.branch with
  | some p, some c => p == c
  | none, none => previous.head.isSome && previous.head == candidate.head
  | _, _ => false

def removeRoot (state : WorkbenchState) (root : String) : WorkbenchState :=
  match state.workspacesByRoot.lookup root with
  | some key =>
    { state with
      workspacesByRoot := AList.erase root state.workspacesByRoot
      workspacesByKey := AList.erase key state.workspacesByKey
      workspaceRegistrationGenerations :=
        AList.erase key state.workspaceRegistrationGenerations }
  | none => state

def removeRoots (h : WorkbenchHostInner) (roots : List String) (now : Nat) (w : StoreWrite) :
    WorkbenchHostInner × Bool :=
  let keys := roots.filterMap fun root => h.state.workspacesByRoot.lookup root
  match invalidateRemovedWorkspaceAuthorizations h keys now w with
  | (h, false) => (h, false)
  | (h, true) =>
    ({ h with state := releaseBindings (roots.foldl removeRoot h.state) keys }, true)

/-- `worktreeIndex` lists the roots of the project's git worktrees. -/
def reconcileDirectWorkspaceMove (h : WorkbenchHostInner) (workspace : WorkspaceRegistration)
    (worktreeIndex : Option (List String)) (now : Nat) (w : StoreWrite) :
    WorkbenchHostInner × Bool :=
  match worktreeIndex with
  | none => (h, true)
  | some index =>
    let removedRoots := (h.state.workspacesByKey.values.filter fun candidate =>
      candidate.key != workspace.key && decide (candidate.root ∉ index) &&
        workspaceRegistrationsShareGitIdentity candidate workspace).map (·.root)
    removeRoots h removedRoots now w

/-- The second locked section: it enters what was discovered, drops what left the index. -/
def projectWorkspaceProjections (h : WorkbenchHostInner) (discovered : List WorkspaceRegistration)
    (worktreeIndex : Option (List String)) (currentRoot : Option String)
    (currentWorkspaceKey : String) (now : Nat) (w : StoreWrite) : WorkbenchHostInner :=
  let h := { h with state := discovered.foldl insertDiscoveredWorkspace h.state }
  let removed := match worktreeIndex with
    | none => []
    | some index => h.state.workspacesByRoot.keys.filter fun root =>
      decide (currentRoot ≠ some root) && decide (root ∉ index)
  match removeRoots h removed now w with
  | (h, false) => h
  | (h, true) =>
    let (state, evicted) := retainProjectWorkspaceLimit h.state currentWorkspaceKey now
    { h with state := releaseBindings state evicted }

def restoreSession (h : WorkbenchHostInner) (credentialDigest : String)
    (grant : WorkbenchSessionGrant) (git : GitSnapshot) (now : Nat) : WorkbenchHostInner :=
  let state := h.state
  let root := grant.workspaceRoot
  let entry := grant.entry.getD
    (.direct ((state.host.map (·.origin)).getD ""))
  if state.sessionGrants.lookup credentialDigest ≠ some grant ∨
      (state.workspacesByRoot.lookup root).any (· != grant.workspaceKey) ∨
      ((state.workspacesByKey.lookup grant.workspaceKey).any fun w => w.root != root) ∨
      entry.canonicalOrigin = "" then h
  else
    let previous := state.workspacesByKey.lookup grant.workspaceKey
    let workspace := observedRegistration previous grant.workspaceKey root git now grant.createdAt
    let (state, evicted) :=
      retainProjectWorkspaceLimit (insertRegistration state workspace) grant.workspaceKey now
    let state := releaseBindings state evicted
    let session : WorkbenchSession :=
      { id := credentialDigest
        selector := grant.selector
        projectId := grant.projectId
        workspaceKey := grant.workspaceKey
        workspaceRoot := grant.workspaceRoot
        capabilities := grant.capabilities
        entry := entry
        pairingSelector := grant.pairingSelector
        createdAt := grant.createdAt
        lastActivity := grant.lastActivity
        expiresAt := grant.expiresAt
        lastPersistedAt := grant.lastActivity }
    { h with state := { state with sessions := AList.insert credentialDigest session state.sessions } }

/-! ## None of them touches a pending capability -/

@[simp] theorem writeAuthorizationStore_state (h : WorkbenchHostInner) (w : StoreWrite)
    (a : Authorizations) : (h.writeAuthorizationStore w a).state = h.state := by
  cases w <;> rfl

theorem prepareHost_state {h h' : WorkbenchHostInner} {listener : String} {fresh : Bytes}
    {plan : HostLaunchPlan} (hPrepare : h.prepareHost listener fresh = some (h', plan)) :
    h'.state = h.state := by
  unfold prepareHost at hPrepare
  grind

@[simp] theorem startHostPlan_pendingCapabilities (h : WorkbenchHostInner) (plan : HostLaunchPlan) :
    (h.startHostPlan plan).1.state.pendingCapabilities = h.state.pendingCapabilities := by
  cases plan <;> rfl

@[simp] theorem serverStopped_pendingCapabilities (h : WorkbenchHostInner) (generation : Nat) :
    (h.serverStopped generation).state.pendingCapabilities = h.state.pendingCapabilities := by
  unfold serverStopped
  grind

@[simp] theorem retainProjectWorkspaceLimit_pendingCapabilities (state : WorkbenchState)
    (key : String) (now : Nat) :
    (retainProjectWorkspaceLimit state key now).1.pendingCapabilities =
      state.pendingCapabilities := by
  unfold retainProjectWorkspaceLimit
  split <;> rfl

@[simp] theorem nextGeneration_pendingCapabilities (state : WorkbenchState) (key : String) :
    (nextGeneration state key).pendingCapabilities = state.pendingCapabilities := by
  unfold nextGeneration
  split <;> rfl

theorem registerWorkspaceWithGit_pendingCapabilities {env : Env} {state state' : WorkbenchState}
    {root : String} {git : GitSnapshot} {now : Nat} {workspace : WorkspaceRegistration}
    (h : registerWorkspaceWithGit env state root git now = some (state', workspace)) :
    state'.pendingCapabilities = state.pendingCapabilities := by
  unfold registerWorkspaceWithGit at h
  simp only at h
  split at h
  · cases h
  · cases h
    simp [releaseBindings, insertRegistration]

@[simp] theorem insertDiscoveredWorkspaces_pendingCapabilities (ws : List WorkspaceRegistration)
    (state : WorkbenchState) :
    (ws.foldl insertDiscoveredWorkspace state).pendingCapabilities = state.pendingCapabilities := by
  induction ws generalizing state with
  | nil => rfl
  | cons w ws ih =>
    rw [List.foldl_cons, ih]
    unfold insertDiscoveredWorkspace
    split <;> rfl

@[simp] theorem removeRoots_foldl_pendingCapabilities (roots : List String)
    (state : WorkbenchState) :
    (roots.foldl removeRoot state).pendingCapabilities = state.pendingCapabilities := by
  induction roots generalizing state with
  | nil => rfl
  | cons root roots ih =>
    rw [List.foldl_cons, ih]
    unfold removeRoot
    split <;> rfl

@[simp] theorem adopt_pendingCapabilities (h : WorkbenchHostInner) (w : StoreWrite)
    (a : Authorizations) (gone : WorkbenchSession → Bool) :
    (h.adopt w a gone).1.state.pendingCapabilities = h.state.pendingCapabilities := by
  cases w <;> rfl

@[simp] theorem invalidateRemoved_pendingCapabilities (h : WorkbenchHostInner)
    (keys : List String) (now : Nat) (w : StoreWrite) :
    (h.invalidateRemovedWorkspaceAuthorizations keys now w).1.state.pendingCapabilities =
      h.state.pendingCapabilities := by
  unfold invalidateRemovedWorkspaceAuthorizations
  simp only
  split
  · rfl
  · split
    · rfl
    · exact adopt_pendingCapabilities ..

@[simp] theorem removeRoots_pendingCapabilities (h : WorkbenchHostInner) (roots : List String)
    (now : Nat) (w : StoreWrite) :
    (h.removeRoots roots now w).1.state.pendingCapabilities = h.state.pendingCapabilities := by
  have hKeys := invalidateRemoved_pendingCapabilities h
    (roots.filterMap fun root => h.state.workspacesByRoot.lookup root) now w
  unfold removeRoots
  simp only
  split
  · next hInvalidate => rw [hInvalidate] at hKeys; exact hKeys
  · next hInvalidate =>
    rw [hInvalidate] at hKeys
    simpa [releaseBindings] using hKeys

@[simp] theorem reconcileDirectWorkspaceMove_pendingCapabilities (h : WorkbenchHostInner)
    (workspace : WorkspaceRegistration) (index : Option (List String)) (now : Nat)
    (w : StoreWrite) :
    (h.reconcileDirectWorkspaceMove workspace index now w).1.state.pendingCapabilities =
      h.state.pendingCapabilities := by
  cases index with
  | none => rfl
  | some index => exact removeRoots_pendingCapabilities ..

@[simp] theorem projectWorkspaceProjections_pendingCapabilities (h : WorkbenchHostInner)
    (discovered : List WorkspaceRegistration) (index : Option (List String))
    (currentRoot : Option String) (key : String) (now : Nat) (w : StoreWrite) :
    (h.projectWorkspaceProjections discovered index currentRoot key now w).state.pendingCapabilities =
      h.state.pendingCapabilities := by
  unfold projectWorkspaceProjections
  simp only
  split
  · next hRemove =>
    have hPending := congrArg (fun r => r.1.state.pendingCapabilities) hRemove
    simpa using hPending.symm
  · next hRemove =>
    have hPending := congrArg (fun r => r.1.state.pendingCapabilities) hRemove
    simpa [releaseBindings] using hPending.symm

@[simp] theorem restoreSession_pendingCapabilities (h : WorkbenchHostInner) (digest : String)
    (grant : WorkbenchSessionGrant) (git : GitSnapshot) (now : Nat) :
    (h.restoreSession digest grant git now).state.pendingCapabilities =
      h.state.pendingCapabilities := by
  unfold restoreSession
  simp only
  split
  · rfl
  · simp [releaseBindings, insertRegistration]

end WorkbenchHostInner

end Exosuit.Workbench
