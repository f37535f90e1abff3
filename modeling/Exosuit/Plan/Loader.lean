import Exosuit.Plan.Calls

/-!
# The loader

What the commands read: the plan in its order, the workspace's active phase, the
tasks of that phase under their display ids, and the completion claims of an
entity.
-/

namespace Exosuit.Plan

open Lib PhaseOwner

inductive WorkflowConfirmationDecision
  | yesComplete
  | reviseOutcome
  | notCompleteYet
  | discuss
deriving DecidableEq, Repr

structure WorkflowConfirmationInput where
  kind : String
  entityType : String
  entityId : String
  decision : WorkflowConfirmationDecision
  outcome : String
deriving DecidableEq, Repr

/-- A git command that could not be run, or that failed. -/
structure GitFailure where
  code : Option Daemon.ErrorCode
  message : String
deriving DecidableEq

def GitFailure.failure (e : GitFailure) : Failure := e.code.elim (.anyhow e.message) (.exo · e.message)

/-- What a command finds outside the database. -/
structure Env where
  /-- who the workspace is, as an owner of phases -/
  current : CurrentPhaseOwner
  workspaceRoot : Option String
  /-- the ULID that the command generates -/
  newId : String
  now : String
  parseUlid : String → Option Nat
  /-- whether the worktree or the branch of an owner is gone -/
  stale : PhaseOwnerData → Bool
  workflowConfirmation : Option WorkflowConfirmationInput
  /-- how the git part of a phase finish ends -/
  commitWorkingTree : Except GitFailure Unit

/-! ## The plan -/

def parseCanonicalRef (env : Env) (s : String) : Option Nat :=
  (Text.splitOnce "@" s).bind fun (typeName, ulid) =>
    if typeName = "" then none else env.parseUlid ulid

def matchesId (env : Env) (textId : String) (slug : Option String) (aliases : List String)
    (lookup : String) : Bool :=
  let ulid := env.parseUlid textId
  match parseCanonicalRef env lookup with
  | some ref => ulid = some ref
  | none =>
    ((env.parseUlid lookup).isSome && env.parseUlid lookup = ulid) || slug = some lookup ||
      textId = lookup || lookup ∈ aliases

namespace Database

variable (db : Database)

def planEpochs : List (Row EpochData) :=
  orderBy (fun a b => leKey (some a.data.sortKey, a.id) (some b.data.sortKey, b.id)) db.epochs.rows

def phasesOf (epochId : Nat) : List (Row PhaseData) :=
  orderBy (fun a b => leKey (a.data.sortKey, a.id) (b.data.sortKey, b.id))
    (db.phases.rows.filter fun row => row.data.epochId = epochId)

def goalsOf (phaseId : Nat) : List (Row GoalData) :=
  orderBy (fun a b => leKey (a.data.sortKey, a.id) (b.data.sortKey, b.id))
    (db.goals.rows.filter fun row => row.data.phaseId = phaseId)

def tasksOf (goalId : Nat) : List (Row TaskData) :=
  orderBy (fun a b => leKey (a.data.sortKey, a.id) (b.data.sortKey, b.id))
    (db.tasks.rows.filter fun row => row.data.goalId = goalId)

def planPhases : List (Row PhaseData) := db.planEpochs.flatMap fun epoch => db.phasesOf epoch.id

def planGoals : List (Row GoalData) := db.planPhases.flatMap fun phase => db.goalsOf phase.id

def findEpochById (env : Env) (id : String) : Option (Row EpochData) :=
  db.planEpochs.find? fun epoch =>
    matchesId env epoch.textId epoch.data.slug (db.entityAliasesForRow .epoch epoch.id) id

def findPhaseById (env : Env) (id : String) : Option (Row PhaseData) :=
  db.planPhases.find? fun phase =>
    matchesId env phase.textId phase.data.slug (db.entityAliasesForRow .phase phase.id) id

def findPhaseByTextId (textId : String) : Option (Row PhaseData) :=
  db.planPhases.find? fun phase => phase.textId = textId

def derivedStatus (epoch : Row EpochData) : Status :=
  let statuses := (db.phasesOf epoch.id).map fun phase => phase.data.status
  if .inProgress ∈ statuses then .inProgress
  else if .abandoned ∈ statuses then .abandoned
  else if statuses = [] then .pending
  else if statuses.all (· = .completed) then .completed
  else if (statuses.filter (· ≠ .completed)).all (· = .deferred) then .deferred
  else if .completed ∈ statuses ∧ .pending ∈ statuses then .inProgress
  else .pending

/-! ## The active phase -/

def workspaceActivePhasePin (env : Env) : Option String :=
  env.workspaceRoot.bind fun root =>
    (db.workspaceActivePhase.lookup root).bind fun phaseId =>
      (db.phases.byId phaseId).map fun phase => phase.textId

def findSingleGlobalActivePhase : Option (Row PhaseData) :=
  match db.planPhases.filter fun phase => phase.data.status = .inProgress with
  | [phase] => some phase
  | _ => none

def findWorkspaceActivePhase (env : Env) : Option (Row PhaseData) :=
  match db.workspaceActivePhasePin env with
  | some pinned => (db.findPhaseByTextId pinned).filter fun phase => phase.data.status = .inProgress
  | none => db.findSingleGlobalActivePhase

def epochOfPhase (phase : Row PhaseData) : Option (Row EpochData) :=
  db.epochs.byId phase.data.epochId

def findWorkspaceActiveEpoch (env : Env) : Option (Row EpochData) :=
  match db.workspaceActivePhasePin env with
  | some pinned => ((db.findPhaseByTextId pinned).bind db.epochOfPhase).filter
      fun epoch => db.derivedStatus epoch ≠ .completed
  | none => db.findSingleGlobalActivePhase.bind db.epochOfPhase

/-- The same phase as the loader's queries find it. -/
def resolveActivePhaseRowid (workspaceRoot : Option String) : Option Nat :=
  let pinned := workspaceRoot.bind fun root =>
    (db.workspaceActivePhase.lookup root).bind db.phases.byId
  match pinned with
  | some phase => if phase.data.status = .inProgress then some phase.id else none
  | none =>
    match db.phases.rows.filter fun phase => phase.data.status = .inProgress with
    | [phase] => some phase.id
    | _ => none

structure ListedTask where
  compositeId : String
  title : String
  status : TaskStatus
deriving DecidableEq, Repr

def compositeId (goalTextId taskId title : String) : String :=
  if goalTextId ≠ "" ∧ taskId ≠ "" then qualified goalTextId taskId
  else if taskId ≠ "" then taskId
  else title

def listActivePhaseTasks (workspaceRoot : Option String) : List ListedTask :=
  match db.resolveActivePhaseRowid workspaceRoot with
  | none => []
  | some phaseId =>
    (db.goalsOf phaseId).flatMap fun goal =>
      (db.tasksOf goal.id).map fun task =>
        ⟨compositeId goal.textId task.textId task.data.title, task.data.title, task.data.status⟩

def phaseHasStartedWork (phase : Row PhaseData) : Bool :=
  ((db.goalsOf phase.id).any fun goal =>
      goal.data.status ≠ .pending || goal.data.startedAt.isSome || goal.data.completionLog.isSome) ||
    db.tasks.rows.any fun task =>
      ((db.goals.byId task.data.goalId).any fun goal => goal.data.phaseId = phase.id) &&
        (task.data.status ≠ .pending || task.data.startedAt.isSome ||
          task.data.completionLog.isSome || db.taskLogs.any (fun row => row.taskId = task.id) ||
          task.id ∈ db.taskVerifications)

/-! ## Owners, lanes and claims -/

def loadPhaseOwner (phaseTextId : String) : Option PhaseOwnerData :=
  (db.phases.byTextId phaseTextId).bind fun phase => db.phaseOwnership.lookup phase.id

structure WorkbenchLane where
  row : Row LaneData
  phaseTextId : String
deriving DecidableEq, Repr

def loadWorkbenchLanes : List WorkbenchLane :=
  (orderBy (fun a b => decide (a.data.createdAt < b.data.createdAt) ||
      (a.data.createdAt == b.data.createdAt && !decide (b.textId < a.textId))) db.lanes.rows).filterMap
    fun row => (db.phases.byId row.data.executionPhaseId).map fun phase => ⟨row, phase.textId⟩

inductive CompletionClaimStatus
  | noClaim
  | humanClaim
  | agentClaimAcknowledged
  | agentClaimPending
deriving DecidableEq, Repr

def isActiveClaim (entityType entityId : String) (row : Row InboxData) : Bool :=
  row.data.entityType = entityType && row.data.entityId = some entityId &&
    row.data.intent = "claim" && (row.data.status = .pending || row.data.status = .acknowledged)

def hasCompletionClaim (entityType entityId : String) : CompletionClaimStatus :=
  let claims := orderBy (fun a b => !decide (a.data.createdAt < b.data.createdAt))
    (db.inbox.rows.filter (isActiveClaim entityType entityId))
  match claims.head? with
  | none => .noClaim
  | some row =>
    match row.data.agentId with
    | none => .humanClaim
    | some _ =>
      if row.data.status = .acknowledged then .agentClaimAcknowledged else .agentClaimPending

end Database

end Exosuit.Plan
