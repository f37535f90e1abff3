import Exosuit.Lib.Program
import Exosuit.Plan.Writer

/-!
# Calls of the writer

A command opens the writer, which commits each call on its own. Commands are
programs over these calls.
-/

namespace Exosuit.Plan

open Lib PhaseOwner

inductive WriterCall
  | addEpoch (textId title : String)
  | removeEpoch (textId : String)
  | updateEpochReviewed (textId : String) (reviewed : Bool)
  | updateEpochTitle (textId title : String)
  | bankruptEpoch (textId : String)
  | reorderEpoch (textId position : String)
  | addPhase (textId epochTextId title : String) (kind : PhaseKind)
  | removePhase (textId : String)
  | updatePhaseStatus (textId status now : String)
  | updatePhaseTitle (textId title : String)
  | replacePhaseRfcs (textId : String) (rfcs : List String)
  | reorderPhase (textId position : String)
  | movePhaseToEpoch (textId epochTextId : String) (position : Option String)
  | focusPhaseForWorkspace (root phaseTextId : String)
  | completePhaseAndClearLaneFocus (phaseTextId now : String)
  | addWorkbenchLane (textId title intent phaseTextId now : String)
  | focusWorkbenchLane (root laneTextId phaseTextId : String)
  | startAndFocusWorkbenchLane (root laneTextId phaseTextId : String)
  | removePreparedWorkbenchLane (laneTextId : String)
  | claimPhaseOwnerIfCurrent (phaseTextId : String) (current : CurrentPhaseOwner)
      (expectedOwner : Option Identity) (now : String)
  | clearPhaseOwner (phaseTextId : String)
  | clearPhaseOwnerIfCurrent (phaseTextId : String) (expected : Identity)
  | addGoal (phaseTextId goalId label : String) (rfc : Option String) (targetStage : Option Nat)
  | removeGoal (textId : String)
  | updateGoalStatus (textId status : String)
  | updateGoalLabel (textId label : String)
  | updateGoalCompletionLog (textId log : String)
  | reorderGoal (textId position : String)
  | moveGoalToPhasePosition (textId phaseTextId : String) (position : Option String)
  | addTask (goalTextId taskId title : String) (notes : Option String)
  | renameTaskHandle (taskRowId : Nat) (oldTaskId newTaskId : String)
  | removeTaskByRowId (taskRowId : Nat)
  | updateTaskStatusByRowId (taskRowId : Nat) (status : TaskStatus) (now : String)
  | updateTaskTitleByRowId (taskRowId : Nat) (title : String)
  | completeTaskByRowId (taskRowId : Nat) (log now : String)
  | addTaskLogByRowId (taskRowId : Nat) (kind message : String)
  | reorderTaskByRowId (taskRowId : Nat) (position : String)
  | addInboxItem (textId entityType : String) (entityId : Option String) (intent : String)
      (agentId : Option String) (now : String)
  | updateInboxStatus (textId : String) (status : InboxStatus)
deriving DecidableEq

/-- A failure leaves the database as it was. -/
def commit (db : Database) : Except Failure Database → Except Failure Bool × Database
  | .ok db' => (.ok true, db')
  | .error e => (.error e, db)

/-- As `commit`, with the reply of the call. -/
def commitReply (db : Database) : Except Failure (Bool × Database) → Except Failure Bool × Database
  | .ok (reply, db') => (.ok reply, db')
  | .error e => (.error e, db)

def WriterCall.exec (fx : FractionalIndex) (op : WriterCall) (db : Database) :
    Except Failure Bool × Database :=
  match op with
  | addEpoch textId title => commit db (SqliteWriter.addEpoch fx textId title db)
  | removeEpoch textId => commit db (SqliteWriter.removeEpoch textId db)
  | updateEpochReviewed textId reviewed =>
    commit db (SqliteWriter.updateEpochReviewed textId reviewed db)
  | updateEpochTitle textId title => commit db (SqliteWriter.updateEpochTitle textId title db)
  | bankruptEpoch textId => commit db (SqliteWriter.bankruptEpoch textId db)
  | reorderEpoch textId position => commit db (SqliteWriter.reorderEpoch fx textId position db)
  | addPhase textId epochTextId title kind =>
    commit db (SqliteWriter.addPhase fx textId epochTextId title kind db)
  | removePhase textId => commit db (SqliteWriter.removePhase textId db)
  | updatePhaseStatus textId status now =>
    commit db (SqliteWriter.updatePhaseStatus textId status now db)
  | updatePhaseTitle textId title => commit db (SqliteWriter.updatePhaseTitle textId title db)
  | replacePhaseRfcs textId rfcs => SqliteWriter.replacePhaseRfcs textId rfcs db
  | reorderPhase textId position => commit db (SqliteWriter.reorderPhase fx textId position db)
  | movePhaseToEpoch textId epochTextId position =>
    commit db (SqliteWriter.movePhaseToEpoch fx textId epochTextId position db)
  | focusPhaseForWorkspace root phaseTextId =>
    commit db (SqliteWriter.focusPhaseForWorkspace root phaseTextId db)
  | completePhaseAndClearLaneFocus phaseTextId now =>
    commit db (SqliteWriter.completePhaseAndClearLaneFocus phaseTextId now db)
  | addWorkbenchLane textId title intent phaseTextId now =>
    commit db (SqliteWriter.addWorkbenchLane textId title intent phaseTextId now db)
  | focusWorkbenchLane root laneTextId phaseTextId =>
    commit db (SqliteWriter.focusWorkbenchLane root laneTextId phaseTextId db)
  | startAndFocusWorkbenchLane root laneTextId phaseTextId =>
    commit db (SqliteWriter.startAndFocusWorkbenchLane root laneTextId phaseTextId db)
  | removePreparedWorkbenchLane laneTextId =>
    commit db (SqliteWriter.removePreparedWorkbenchLane laneTextId db)
  | claimPhaseOwnerIfCurrent phaseTextId current expectedOwner now =>
    commitReply db (SqliteWriter.claimPhaseOwnerIfCurrent phaseTextId current expectedOwner now db)
  | clearPhaseOwner phaseTextId => commit db (SqliteWriter.clearPhaseOwner phaseTextId db)
  | clearPhaseOwnerIfCurrent phaseTextId expected =>
    commitReply db (SqliteWriter.clearPhaseOwnerIfCurrent phaseTextId expected db)
  | addGoal phaseTextId goalId label rfc targetStage =>
    commit db (SqliteWriter.addGoal fx phaseTextId goalId label rfc targetStage db)
  | removeGoal textId => commit db (SqliteWriter.removeGoal textId db)
  | updateGoalStatus textId status => commit db (SqliteWriter.updateGoalStatus textId status db)
  | updateGoalLabel textId label => commit db (SqliteWriter.updateGoalLabel textId label db)
  | updateGoalCompletionLog textId log =>
    commit db (SqliteWriter.updateGoalCompletionLog textId log db)
  | reorderGoal textId position => commit db (SqliteWriter.reorderGoal fx textId position db)
  | moveGoalToPhasePosition textId phaseTextId position =>
    commit db (SqliteWriter.moveGoalToPhasePosition fx textId phaseTextId position db)
  | addTask goalTextId taskId title notes =>
    commit db (SqliteWriter.addTask fx goalTextId taskId title notes db)
  | renameTaskHandle taskRowId oldTaskId newTaskId =>
    commit db (SqliteWriter.renameTaskHandle taskRowId oldTaskId newTaskId db)
  | removeTaskByRowId taskRowId => SqliteWriter.removeTaskByRowId taskRowId db
  | updateTaskStatusByRowId taskRowId status now =>
    commit db (SqliteWriter.updateTaskStatusByRowId taskRowId status now db)
  | updateTaskTitleByRowId taskRowId title =>
    commit db (SqliteWriter.updateTaskTitleByRowId taskRowId title db)
  | completeTaskByRowId taskRowId log now =>
    commit db (SqliteWriter.completeTaskByRowId taskRowId log now db)
  | addTaskLogByRowId taskRowId kind message =>
    commit db (SqliteWriter.addTaskLogByRowId taskRowId kind message db)
  | reorderTaskByRowId taskRowId position =>
    commit db (SqliteWriter.reorderTaskByRowId fx taskRowId position db)
  | addInboxItem textId entityType entityId intent agentId now =>
    commit db (SqliteWriter.addInboxItem textId entityType entityId intent agentId now db)
  | updateInboxStatus textId status =>
    commit db (SqliteWriter.updateInboxStatus textId status db)

/-- A command: it reads the database and calls the writer. -/
abbrev Cmd := Program Database WriterCall Failure Bool

namespace Cmd

def fail {α : Type} (e : Failure) : Cmd α := Program.fail e

def anyhow {α : Type} (message : String) : Cmd α := Program.fail (.anyhow message)

def exo {α : Type} (code : Daemon.ErrorCode) (message : String) : Cmd α :=
  Program.fail (.exo code message)

def query {α : Type} (f : Database → α) : Cmd α := Program.reading f

def tryQuery {α : Type} (f : Database → Except Failure α) : Cmd α := do
  Program.ofExcept (← Cmd.query f)

/-- A call whose reply is not used. -/
def call (op : WriterCall) : Cmd Unit := do let _ ← Program.perform op

section

variable {α : Type} (exec : WriterCall → Database → Except Failure Bool × Database) (db : Database)

@[simp] theorem run_query (f : Database → α) : (query f).run exec db = (.ok (f db), db) := rfl

@[simp] theorem run_tryQuery (f : Database → Except Failure α) :
    (tryQuery f).run exec db = (f db, db) := by
  rw [tryQuery, Program.run_bind_of_ok (run_query exec db f), Program.run_ofExcept]

@[simp] theorem run_call (op : WriterCall) :
    (call op).run exec db = ((exec op db).1.map fun _ => (), (exec op db).2) := by
  rw [call, Program.run_bind, Program.run_perform]
  rcases exec op db with ⟨_ | _, db'⟩ <;> rfl

variable {exec db} {β : Type} {g : α → Cmd β} {b : β} {db' : Database}

@[simp] theorem run_query_bind (f : Database → α) :
    (query f >>= g).run exec db = (g (f db)).run exec db := rfl

theorem run_tryQuery_bind_eq_ok {f : Database → Except Failure α} :
    (tryQuery f >>= g).run exec db = (.ok b, db') ↔
      ∃ a, f db = .ok a ∧ (g a).run exec db = (.ok b, db') := by
  rw [Program.run_bind, run_tryQuery]
  cases f db with
  | ok a => exact ⟨fun h => ⟨a, rfl, h⟩, fun ⟨_, ha, h⟩ => Except.ok.inj ha ▸ h⟩
  | error e => exact ⟨fun h => absurd (congrArg Prod.fst h) nofun, fun ⟨_, ha, _⟩ => nomatch ha⟩

theorem run_call_eq_ok {op : WriterCall} :
    (call op).run exec db = (.ok (), db') ↔ ∃ reply, exec op db = (.ok reply, db') := by
  rw [run_call]
  rcases exec op db with ⟨_ | reply, db''⟩
  · exact ⟨fun h => absurd (congrArg Prod.fst h) nofun, fun ⟨_, h⟩ => absurd (congrArg Prod.fst h) nofun⟩
  · exact ⟨fun h => ⟨reply, by cases h; rfl⟩, fun ⟨_, h⟩ => by cases h; rfl⟩

end

end Cmd

end Exosuit.Plan
