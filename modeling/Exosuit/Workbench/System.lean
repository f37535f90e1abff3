import Exosuit.Lib.Interleaving
import Exosuit.Workbench.Launch

/-!
# Threads of the workbench host

Redemptions, enrolments, launches and host restorations as threads that take one
locked section a step. A redemption or enrolment holds the authorization store gate
from before its lookup to its end, a launch from before it prepares the host. The
launch gate is left out, so orders it would exclude are runs here too. Clock
readings, random tokens and what the file system, git and the entry provider answer
are chosen by the step.
-/

namespace Exosuit.Workbench

open Lib (Table)
open WorkbenchHostInner

inductive Call
  | redeemTicket (ticket : Ticket)
  | enrollPairing (ticket : Ticket) (presentedPairing : Option (String × String))
      (requestEntry : WorkbenchEntryBinding)
  | launch
  | restoreHost

/-- An entry transition in progress: the new entry, the bindings it displaced, and the
authorizations it displaced. -/
structure EntryTransition where
  entry : WorkbenchEntryBinding
  previousBindings : List (String × WorkbenchEntryBinding)
  rollback : Option WorkbenchAuthorizationRollback

/-- A verified ticket on its way, with the clock the exchange read. -/
structure Presented where
  ticket : Ticket
  payload : VerifiedWorkbenchTicket
  now : Nat

/-- What the first locked section of a redemption found and made. -/
structure Redemption extends Presented where
  before : WorkbenchState
  pending : PendingCapability
  session : WorkbenchSession

inductive Outcome
  | exchanged
  | refused
  | issued (ticket : Ticket)
  | failed
  | finished
deriving DecidableEq

inductive Local
  | done (outcome : Outcome)
  | redeemCalled (ticket : Ticket)
  | redeemVerified (p : Presented)
  | redeemGated (p : Presented)
  | redeemInserted (r : Redemption)
  | redeemPersisted (r : Redemption)
  | redeemUnpersisted (r : Redemption)
  | enrollCalled (ticket : Ticket) (presentedPairing : Option (String × String))
      (requestEntry : WorkbenchEntryBinding)
  | enrollVerified (p : Presented) (presentedPairing : Option (String × String))
      (tokens : EnrollTokens)
  | enrollGated (p : Presented) (presentedPairing : Option (String × String))
      (tokens : EnrollTokens)
  | launchCalled
  | launchRegistered (workspace : WorkspaceRegistration)
  | launchGated (workspace : WorkspaceRegistration)
  | launchResolving (workspace : WorkspaceRegistration) (plan : HostLaunchPlan)
      (transition : Option EntryTransition)
  | launchResolved (workspace : WorkspaceRegistration) (plan : HostLaunchPlan)
      (entry : WorkbenchEntryBinding)
  | launchReconciled (workspace : WorkspaceRegistration) (plan : HostLaunchPlan)
      (entry : WorkbenchEntryBinding)
  | launchFailing (workspace : WorkspaceRegistration) (transition : EntryTransition)
  | launchSigning (workspace : WorkspaceRegistration) (plan : HostLaunchPlan)
      (entry : WorkbenchEntryBinding)
  | launchSigned (workspace : WorkspaceRegistration) (plan : HostLaunchPlan)
      (entry : WorkbenchEntryBinding) (capabilityId : String) (issuedAt : Nat) (ticket : Ticket)
  | hostCalled
  | hostPlanned (plan : HostLaunchPlan) (transition : Option (String × EntryTransition))

/-- Locked sections of the other operations. -/
inductive HostOp
  | observeWorkspace (root : String) (git : GitSnapshot) (now : Nat)
  | projectWorkspaces (discovered : List WorkspaceRegistration)
      (worktreeIndex : Option (List String)) (currentRoot : Option String)
      (currentWorkspaceKey : String) (now : Nat) (w : StoreWrite)
  | restoreSession (credentialDigest : String) (grant : WorkbenchSessionGrant)
      (git : GitSnapshot) (now : Nat)
  | serverStopped (generation : Nat)
  | markHostInactive
  | residency (now : Nat)
  | setLaunchReplays (replays : Table String WorkbenchLaunchReplay)
  | manageAuthorizations (pruneAt : Option Nat) (authorizations : Authorizations)
      (sessions : Table String WorkbenchSession) (store : Authorizations)

inductive Action
  | call (c : Call)
  | verify (verifiedAt now : Nat) (tokens : Option EnrollTokens)
  | acquire
  | lookup (rootValid : Bool) (tokens : Option RedeemTokens)
  | persist (w : StoreWrite)
  | finish
  | enroll (rootValid : Bool) (w : StoreWrite)
  | register (root : String) (git : GitSnapshot) (now : Nat)
  | prepare (listener : String) (fresh : Bytes)
  | recordTransition (workspaceKey : String) (entry : WorkbenchEntryBinding)
  | reconcilePublished (entry : WorkbenchEntryBinding) (now : Nat) (w : StoreWrite)
  | bindOrigin (entry : WorkbenchEntryBinding)
  | ensureStarted
  | resolve (entry : WorkbenchEntryBinding)
  | resolveFailed (w : StoreWrite)
  | restoreOrigins
  | releaseBindings
  | reconcile (worktreeIndex : Option (List String)) (now : Nat) (w : StoreWrite)
  | sign (capabilityId : String) (issuedAt : Nat)
  | issue
  | other (op : HostOp)

structure SignedTicket where
  secret : Bytes
  payload : Bytes
  capabilityId : String
  ticket : Ticket

/-- A capability as issued, with the ticket the launch answers. -/
structure Issue where
  ticket : Ticket
  capabilityId : String
  pending : PendingCapability

/-- A successful exchange, with the state its lookup saw. -/
structure Exchange where
  ticket : Ticket
  capabilityId : String
  now : Nat
  before : WorkbenchState
  pending : PendingCapability

/-- The host shared by all threads. `signed`, `issued` and `exchanges` record what the run has
done: the tickets signed, the capabilities issued and the exchanges that succeeded. -/
structure Shared (ι : Type) where
  inner : WorkbenchHostInner
  gate : Option ι
  signed : List SignedTicket
  issued : List Issue
  exchanges : List Exchange

variable {ι : Type}

def Shared.setState (sh : Shared ι) (state : WorkbenchState) : Shared ι :=
  { sh with inner := { sh.inner with state := state } }

/-- The thread ends and gives the gate back. -/
def Shared.release (sh : Shared ι) : Shared ι := { sh with gate := none }

def Shared.recordExchange (sh : Shared ι) (e : Exchange) : Shared ι :=
  { sh with exchanges := sh.exchanges ++ [e] }

variable (env : Env)

/-! ## Redemption -/

def lookupSection (p : Presented) (rootValid : Bool) (tokens : Option RedeemTokens)
    (sh : Shared ι) : Local × Shared ι :=
  let state := redeemPruned sh.inner.state p.now
  match redeemable state p.payload p.now rootValid tokens with
  | .error _ => (.done .refused, (sh.setState state).release)
  | .ok (pending, tokens) =>
    let session := redeemedSession env p.payload pending p.now tokens
    (.redeemInserted { p with before := sh.inner.state, pending := pending, session := session },
      sh.setState (insertSession state session))

def redeemMove (i : ι) : Action → Local → Shared ι → Option (Local × Shared ι)
  | .verify verifiedAt now _, .redeemCalled ticket, sh =>
    match env.verifyTicket sh.inner.state.host ticket verifiedAt with
    | .error _ => some (.done .refused, sh)
    | .ok payload =>
      if payload.entry.launchMode = .directLoopback then
        some (.redeemVerified ⟨ticket, payload, now⟩, sh)
      else some (.done .refused, sh)
  | .acquire, .redeemVerified p, sh =>
    if sh.gate.isNone then some (.redeemGated p, { sh with gate := some i }) else none
  | .lookup rootValid tokens, .redeemGated p, sh => some (lookupSection env p rootValid tokens sh)
  | .persist w, .redeemInserted r, sh =>
    let inner := sh.inner.writeAuthorizationStore w sh.inner.state.toAuthorizations
    some (if w = .done then .redeemPersisted r else .redeemUnpersisted r, { sh with inner := inner })
  | .finish, .redeemPersisted r, sh =>
    let sh := sh.setState (spendCapability sh.inner.state r.payload.capabilityId)
    some (.done .exchanged,
      (sh.recordExchange ⟨r.ticket, r.payload.capabilityId, r.now, r.before, r.pending⟩).release)
  | .finish, .redeemUnpersisted r, sh =>
    some (.done .refused, (sh.setState (removeSession sh.inner.state r.session.id)).release)
  | _, _, _ => none

/-! ## Enrolment -/

def enrollSection (p : Presented) (presentedPairing : Option (String × String))
    (tokens : EnrollTokens) (rootValid : Bool) (w : StoreWrite) (sh : Shared ι) :
    Local × Shared ι :=
  let state := enrollPruned sh.inner.state p.now
  match enrollable env state p.payload presentedPairing p.now rootValid tokens with
  | .error _ => (.done .refused, (sh.setState state).release)
  | .ok e =>
    let inner := { sh.inner with state := state }.writeAuthorizationStore w e.candidates
    let written := { sh with inner := inner }
    match w with
    | .done =>
      let adopted := written.setState (adoptEnrollment state p.payload.capabilityId e)
      (.done .exchanged, (adopted.recordExchange
        ⟨p.ticket, p.payload.capabilityId, p.now, sh.inner.state, e.pending⟩).release)
    | .refused | .lateError => (.done .refused, written.release)

def enrollMove (i : ι) : Action → Local → Shared ι → Option (Local × Shared ι)
  | .verify verifiedAt now tokens, .enrollCalled ticket presentedPairing requestEntry, sh =>
    match env.verifyTicket sh.inner.state.host ticket verifiedAt, tokens with
    | .ok payload, some tokens =>
      if payload.entry.isPublished ∧ payload.entry = requestEntry then
        some (.enrollVerified ⟨ticket, payload, now⟩ presentedPairing tokens, sh)
      else some (.done .refused, sh)
    | _, _ => some (.done .refused, sh)
  | .acquire, .enrollVerified p presentedPairing tokens, sh =>
    if sh.gate.isNone then
      some (.enrollGated p presentedPairing tokens, { sh with gate := some i })
    else none
  | .enroll rootValid w, .enrollGated p presentedPairing tokens, sh =>
    some (enrollSection env p presentedPairing tokens rootValid w sh)
  | _, _, _ => none

/-! ## Launch -/

def signedPayload (workspaceKey : String) (entry : WorkbenchEntryBinding) (capabilityId : String)
    (issuedAt : Nat) : Bytes :=
  match entry.isPublished, entry.projectInstanceId with
  | true, some projectInstanceId => env.toVecV2
      { launchPayload env 2 workspaceKey entry capabilityId issuedAt with
        entryMode := entry.launchMode
        projectInstanceId := projectInstanceId
        canonicalOrigin := entry.canonicalOrigin }
  | _, _ => env.toVecV1 (launchPayload env 1 workspaceKey entry capabilityId issuedAt)

def launchMove (i : ι) : Action → Local → Shared ι → Option (Local × Shared ι)
  | .register root git now, .launchCalled, sh =>
    match registerWorkspaceWithGit env sh.inner.state root git now with
    | none => some (.done .failed, sh)
    | some (state, workspace) => some (.launchRegistered workspace, sh.setState state)
  | .acquire, .launchRegistered workspace, sh =>
    if sh.gate.isNone then some (.launchGated workspace, { sh with gate := some i }) else none
  | .prepare listener fresh, .launchGated workspace, sh =>
    match sh.inner.prepareHost listener fresh with
    | none => some (.done .failed, sh.release)
    | some (h, plan) => some (.launchResolving workspace plan none, { sh with inner := h })
  | .recordTransition _ entry, .launchResolving workspace plan none, sh =>
    some (.launchResolving workspace plan
      (some ⟨entry, conflictingBindings sh.inner.state workspace.key entry, none⟩), sh)
  | .reconcilePublished entry now w, .launchResolving workspace plan (some transition), sh =>
    match reconcilePublishedWorkspaceMove env sh.inner workspace entry now w with
    | (h, rollback) => some (.launchResolving workspace plan
        (some { transition with rollback := transition.rollback.or rollback.join }),
        { sh with inner := h })
  | .bindOrigin entry, .launchResolving workspace plan (some transition), sh =>
    some (.launchResolving workspace plan (some transition),
      sh.setState (WorkbenchHostInner.bindOrigin sh.inner.state workspace.key entry))
  | .ensureStarted, .launchResolving workspace plan transition, sh =>
    let (h, plan) := sh.inner.startHostPlan plan
    some (.launchResolving workspace plan transition, { sh with inner := h })
  | .resolve entry, .launchResolving workspace plan _, sh =>
    some (.launchResolved workspace plan entry, sh)
  | .resolveFailed _, .launchResolving _ _ none, sh => some (.done .failed, sh.release)
  | .resolveFailed w, .launchResolving workspace _ (some transition), sh =>
    match transition.rollback with
    | none => some (.launchFailing workspace transition, sh)
    | some rollback =>
      match restorePublishedWorkspaceMove sh.inner rollback w with
      | (h, false) => some (.done .failed, ({ sh with inner := h }).release)
      | (h, true) => some (.launchFailing workspace transition, { sh with inner := h })
  | .restoreOrigins, .launchFailing workspace t, sh =>
    some (.done .failed, (sh.setState
      (WorkbenchHostInner.restoreOrigins sh.inner.state workspace.key t.entry t.previousBindings)).release)
  | .reconcile worktreeIndex now w, .launchResolved workspace plan entry, sh =>
    if entry.isPublished then some (.launchSigning workspace plan entry, sh)
    else match reconcileDirectWorkspaceMove sh.inner workspace worktreeIndex now w with
      | (h, false) => some (.done .failed, ({ sh with inner := h }).release)
      | (h, true) => some (.launchReconciled workspace plan entry, { sh with inner := h })
  | .releaseBindings, .launchReconciled workspace plan entry, sh =>
    some (.launchSigning workspace plan entry,
      sh.setState (releaseWorkspaceBindings sh.inner.state workspace.key))
  | .sign capabilityId issuedAt, .launchSigning workspace plan entry, sh =>
    match launchTicket env plan.secret workspace.key entry capabilityId issuedAt with
    | none => some (.done .failed, sh.release)
    | some ticket =>
      let payload := signedPayload env workspace.key entry capabilityId issuedAt
      some (.launchSigned workspace plan entry capabilityId issuedAt ticket,
        { sh with signed := ⟨plan.secret, payload, capabilityId, ticket⟩ :: sh.signed })
  | .issue, .launchSigned workspace plan entry capabilityId issuedAt ticket, sh =>
    match issueCapability sh.inner.state workspace entry plan.generation capabilityId issuedAt with
    | none => some (.done .failed, sh.release)
    | some (state, pending) =>
      some (.done (.issued ticket),
        { (sh.setState state).release with issued := ⟨ticket, capabilityId, pending⟩ :: sh.issued })
  | _, _, _ => none

/-! ## Host restoration -/

/-- `ensure_host` and `restore_prior_host`: only their `authorize` callback takes the gate,
and only for that section. -/
def hostMove : Action → Local → Shared ι → Option (Local × Shared ι)
  | .prepare listener fresh, .hostCalled, sh =>
    match sh.inner.prepareHost listener fresh with
    | none => some (.done .failed, sh)
    | some (h, plan) => some (.hostPlanned plan none, { sh with inner := h })
  | .ensureStarted, .hostPlanned plan transition, sh =>
    let (h, plan) := sh.inner.startHostPlan plan
    some (.hostPlanned plan transition, { sh with inner := h })
  | .recordTransition workspaceKey entry, .hostPlanned plan none, sh =>
    some (.hostPlanned plan (some (workspaceKey,
      ⟨entry, conflictingBindings sh.inner.state workspaceKey entry, none⟩)), sh)
  | .bindOrigin entry, .hostPlanned plan (some (workspaceKey, t)), sh =>
    if sh.gate.isNone ∧ entry = t.entry then
      some (.hostPlanned plan (some (workspaceKey, t)),
        sh.setState (WorkbenchHostInner.bindOrigin sh.inner.state workspaceKey entry))
    else none
  | .resolve _, .hostPlanned plan (some _), sh => some (.hostPlanned plan none, sh)
  | .restoreOrigins, .hostPlanned plan (some (workspaceKey, t)), sh =>
    some (.hostPlanned plan none, sh.setState
      (WorkbenchHostInner.restoreOrigins sh.inner.state workspaceKey t.entry t.previousBindings))
  | .finish, .hostPlanned _ _, sh => some (.done .finished, sh)
  | _, _, _ => none

/-! ## Other operations -/

def HostOp.needsGate : HostOp → Bool
  | projectWorkspaces .. | restoreSession .. | manageAuthorizations .. => true
  | _ => false

def HostOp.apply : HostOp → WorkbenchHostInner → WorkbenchHostInner
  | observeWorkspace root git now, h =>
    match registerWorkspaceWithGit env h.state root git now with
    | none => h
    | some (state, _) => { h with state := state }
  | projectWorkspaces discovered worktreeIndex currentRoot currentWorkspaceKey now w, h =>
    projectWorkspaceProjections h discovered worktreeIndex currentRoot currentWorkspaceKey now w
  | restoreSession credentialDigest grant git now, h =>
    WorkbenchHostInner.restoreSession h credentialDigest grant git now
  | serverStopped generation, h => h.serverStopped generation
  | markHostInactive, h => h.markHostInactive
  | residency now, h => { h with state := retainLivePendingCapabilities h.state now }
  | setLaunchReplays replays, h => { h with state := { h.state with launchReplays := replays } }
  | manageAuthorizations pruneAt authorizations sessions store, h =>
    let state := pruneAt.elim h.state (retainLivePendingCapabilities h.state)
    { h with
      state := { state with toAuthorizations := authorizations, sessions := sessions }
      store := store }

def callMove : Call → Local
  | .redeemTicket ticket => .redeemCalled ticket
  | .enrollPairing ticket presentedPairing requestEntry =>
    .enrollCalled ticket presentedPairing requestEntry
  | .launch => .launchCalled
  | .restoreHost => .hostCalled

def move (i : ι) (a : Action) (l : Local) (sh : Shared ι) : Option (Local × Shared ι) :=
  match a, l with
  | .call c, .done _ => some (callMove c, sh)
  | .other op, .done o =>
    if op.needsGate && sh.gate.isSome then none
    else some (.done o, { sh with inner := op.apply env sh.inner })
  | a, l => ((redeemMove env i a l sh).or (enrollMove env i a l sh)).or
      ((launchMove env i a l sh).or (hostMove a l sh))

abbrev System (ι : Type) := Lib.Interleaving ι Local (Shared ι)

def systemStep [DecidableEq ι] (s : System ι) (a : ι × Action) : Option (System ι) :=
  Lib.Interleaving.step (move env) s a

/-- A host manager just built: no capability is pending and no call has been made. -/
structure Initial (s : System ι) : Prop where
  pending : s.shared.inner.state.pendingCapabilities = ∅
  gate : s.shared.gate = none
  signed : s.shared.signed = []
  issued : s.shared.issued = []
  exchanges : s.shared.exchanges = []
  thread : ∀ i, s.thread i = .done .finished

end Exosuit.Workbench
