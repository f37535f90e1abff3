import Exosuit.Daemon.Protocol
import Exosuit.Lib.Rows
import Exosuit.Lib.Table
import Exosuit.Lib.Text
import Exosuit.Plan.PhaseOwner

/-!
# The plan's tables

The columns that the plan commands read or write, the constraints on them, and
what a deletion takes with it. The UNIQUE constraints on row ids and text ids
are part of `Lib.Rows`; a status outside the schema's list cannot be stored.
-/

namespace Exosuit.Plan

open Lib PhaseOwner

/-- An error of a command: its message, its code when it has one, and the owner
that the details of an ownership conflict name. -/
inductive Failure
  | anyhow (message : String)
  | exo (code : Daemon.ErrorCode) (message : String)
  | ownershipConflict (phaseId : String) (owner : PhaseOwnerData)
deriving DecidableEq

/-! ## Columns -/

/-- The status of a phase or a goal. -/
inductive Status
  | pending
  | inProgress
  | completed
  | deferred
  | abandoned
deriving DecidableEq, Repr

def Status.name : Status → String
  | pending => "pending"
  | inProgress => "in-progress"
  | completed => "completed"
  | deferred => "deferred"
  | abandoned => "abandoned"

/-- The CHECK on the column. -/
def Status.fromName (name : String) : Option Status :=
  [pending, inProgress, completed, deferred, abandoned].find? fun s => s.name = name

inductive TaskStatus
  | pending
  | inProgress
  | completed
  | deferred
  | skipped
deriving DecidableEq, Repr

inductive InboxStatus
  | pending
  | acknowledged
  | resolved
  | archived
deriving DecidableEq, Repr

inductive LaneState
  | prepared
  | executing
deriving DecidableEq, Repr

def LaneState.name : LaneState → String
  | prepared => "prepared"
  | executing => "executing"

inductive PhaseKind
  | regular
  | chore
deriving DecidableEq, Repr

inductive EntityType
  | epoch
  | phase
  | goal
  | task
deriving DecidableEq, Repr

structure EpochData where
  title : String
  slug : Option String
  reviewed : Bool
  sortKey : String
deriving DecidableEq, Repr

structure PhaseData where
  title : String
  status : Status
  epochId : Nat
  kind : PhaseKind
  sortKey : Option String
  slug : Option String
  completedAt : Option String
deriving DecidableEq, Repr

structure GoalData where
  label : String
  status : Status
  phaseId : Nat
  sortKey : Option String
  rfc : Option String
  targetStage : Option Nat
  startedAt : Option String
  slug : Option String
  completionLog : Option String
deriving DecidableEq, Repr

structure TaskData where
  title : String
  status : TaskStatus
  goalId : Nat
  sortKey : Option String
  notes : Option String
  startedAt : Option String
  completedAt : Option String
  completionLog : Option String
deriving DecidableEq, Repr

structure LaneData where
  title : String
  intent : String
  state : LaneState
  executionPhaseId : Nat
  createdAt : String
deriving DecidableEq, Repr

structure InboxData where
  createdAt : String
  status : InboxStatus
  entityType : String
  entityId : Option String
  intent : String
  agentId : Option String
deriving DecidableEq, Repr

structure TaskLogRow where
  taskId : Nat
  kind : String
  message : String
deriving DecidableEq, Repr

structure Database where
  epochs : Rows EpochData
  phases : Rows PhaseData
  goals : Rows GoalData
  tasks : Rows TaskData
  /-- the entity's row id for each type and alias -/
  entityAliases : Table (EntityType × String) Nat
  lanes : Rows LaneData
  phaseOwnership : Table Nat PhaseOwnerData
  /-- the pinned phase of a workspace root -/
  workspaceActivePhase : Table String Nat
  /-- the focused lane of a workspace root -/
  workspaceLaneFocus : Table String Nat
  phaseRfcs : List (Nat × String)
  taskLogs : List TaskLogRow
  /-- the tasks of the verification rows -/
  taskVerifications : List Nat
  inbox : Rows InboxData
deriving DecidableEq

def Database.empty : Database where
  epochs := .empty
  phases := .empty
  goals := .empty
  tasks := .empty
  entityAliases := ∅
  lanes := .empty
  phaseOwnership := ∅
  workspaceActivePhase := ∅
  workspaceLaneFocus := ∅
  phaseRfcs := []
  taskLogs := []
  taskVerifications := []
  inbox := .empty

/-! ## Deletions -/

namespace Database

variable (db : Database)

def deleteAliases (entityType : EntityType) (p : Nat → Bool) : Database :=
  { db with entityAliases := db.entityAliases.retain fun key id => !(key.1 = entityType && p id) }

def deleteTasks (p : Row TaskData → Bool) : Database :=
  let doomed := fun id => db.tasks.rows.any fun t => t.id == id && p t
  { db with
    tasks := db.tasks.filter fun t => !p t
    taskLogs := db.taskLogs.filter fun row => !doomed row.taskId
    taskVerifications := db.taskVerifications.filter fun id => !doomed id }

def deleteGoals (p : Row GoalData → Bool) : Database :=
  let doomed := fun id => db.goals.rows.any fun g => g.id == id && p g
  { db with goals := db.goals.filter fun g => !p g }.deleteTasks fun t => doomed t.data.goalId

/-- The deletion of phases, refused while a lane executes one of them. -/
def deletePhases (p : Row PhaseData → Bool) : Option Database :=
  let doomed := fun id => db.phases.rows.any fun r => r.id == id && p r
  if db.lanes.rows.any fun lane => doomed lane.data.executionPhaseId then none
  else
    some <|
      { db with
        phases := db.phases.filter fun r => !p r
        phaseOwnership := db.phaseOwnership.retain fun id _ => !doomed id
        workspaceActivePhase := db.workspaceActivePhase.retain fun _ id => !doomed id
        phaseRfcs := db.phaseRfcs.filter fun row => !doomed row.1 }.deleteGoals
          fun g => doomed g.data.phaseId

def deleteEpochs (p : Row EpochData → Bool) : Option Database :=
  let doomed := fun id => db.epochs.rows.any fun e => e.id == id && p e
  { db with epochs := db.epochs.filter fun e => !p e }.deletePhases fun r => doomed r.data.epochId

def deleteLanes (p : Row LaneData → Bool) : Database :=
  let doomed := fun id => db.lanes.rows.any fun l => l.id == id && p l
  { db with
    lanes := db.lanes.filter fun l => !p l
    workspaceLaneFocus := db.workspaceLaneFocus.retain fun _ id => !doomed id }

end Database

/-! ## Sort keys -/

/-- The crate of the sort keys. -/
structure FractionalIndex where
  Key : Type
  fromString : String → Except String Key
  toString : Key → String
  default : Key
  newAfter : Key → Key
  newBefore : Key → Key
  newBetween : Key → Key → Option Key

/-- The order `sort_key NULLS LAST, id`. -/
def leKey (a b : Option String × Nat) : Bool :=
  match a.1, b.1 with
  | some x, some y => decide (x < y) || (x == y && decide (a.2 ≤ b.2))
  | some _, none => true
  | none, some _ => false
  | none, none => decide (a.2 ≤ b.2)

end Exosuit.Plan
