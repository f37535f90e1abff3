import Exosuit.Plan.Database

/-!
# References to goals and tasks

How a reference string is resolved, and which tasks own it: a task by its text
id, by an alias, or by one of these behind a handle of its goal.
-/

namespace Exosuit.Plan

open Lib

structure ResolvedTaskReference where
  rowId : Nat
  taskId : String
  title : String
  goalId : String
  phaseId : String
  phaseStatus : Status
deriving DecidableEq, Repr

/-- The display id of a task handle under a goal handle. -/
def qualified (goalHandle taskHandle : String) : String := goalHandle ++ "::" ++ taskHandle

namespace Database

variable (db : Database)

def entityAliasesForRow (entityType : EntityType) (rowId : Nat) : List String :=
  db.entityAliases.entries.filterMap fun e =>
    if e.1.1 = entityType ∧ e.2 = rowId then some e.1.2 else none

def resolveGoalRowId (reference : String) : Option Nat :=
  match db.goals.byTextId reference with
  | some goal => some goal.id
  | none => db.entityAliases.lookup (.goal, reference)

def resolveGoalReference (reference : String) : Option String :=
  (db.resolveGoalRowId reference).bind fun rowId =>
    (db.goals.byId rowId).map fun goal => goal.textId

def queryTaskReference (reference : String) (goalRowId : Option Nat) (byAlias : Bool) :
    Option ResolvedTaskReference :=
  let task? :=
    if byAlias then (db.entityAliases.lookup (.task, reference)).bind db.tasks.byId
    else db.tasks.byTextId reference
  task?.bind fun task =>
    (db.goals.byId task.data.goalId).bind fun goal =>
      (db.phases.byId goal.data.phaseId).bind fun phase =>
        if goalRowId.all (· = goal.id) then
          some
            { rowId := task.id, taskId := task.textId, title := task.data.title,
              goalId := goal.textId, phaseId := phase.textId, phaseStatus := phase.data.status }
        else none

def resolveTaskReference (reference : String) : Option ResolvedTaskReference :=
  let inGoal := (Text.splitOnce "::" reference).bind fun (goalReference, taskReference) =>
    (db.resolveGoalRowId goalReference).bind fun goalRowId =>
      (db.queryTaskReference taskReference (some goalRowId) false).or
        (db.queryTaskReference taskReference (some goalRowId) true)
  inGoal.or ((db.queryTaskReference reference none false).or
    (db.queryTaskReference reference none true))

/-- The rows of the six queries, each task once. -/
def taskHandleOwners (handle : String) : List Nat :=
  let goalIds (t : Row TaskData) := (db.goals.byId t.data.goalId).toList.map Row.textId
  let goalAliases (t : Row TaskData) := db.entityAliasesForRow .goal t.data.goalId
  let taskAliases (t : Row TaskData) := db.entityAliasesForRow .task t.id
  let select (p : Row TaskData → Bool) := (db.tasks.rows.filter p).map Row.id
  (select (fun t => t.textId = handle)
    ++ (db.entityAliases.lookup (.task, handle)).toList
    ++ select (fun t => (goalIds t).any fun g => qualified g t.textId = handle)
    ++ select (fun t => (goalAliases t).any fun g => qualified g t.textId = handle)
    ++ select (fun t => (goalIds t).any fun g => (taskAliases t).any fun a => qualified g a = handle)
    ++ select (fun t =>
      (goalAliases t).any fun g => (taskAliases t).any fun a => qualified g a = handle)).dedup

def goalReferenceHandles (goalRowId : Nat) : Except Failure (List String) :=
  match db.goals.byId goalRowId with
  | some goal => .ok (db.entityAliasesForRow .goal goalRowId ++ [goal.textId])
  | none => .error (.anyhow "Failed to read canonical goal handle")

def taskHandleConflicts (goalRowId : Nat) (handle : String) (allowedOwner : Option Nat) :
    Except Failure Bool :=
  (db.goalReferenceHandles goalRowId).map fun handles =>
    (handle :: handles.map fun g => qualified g handle).any fun reference =>
      (db.taskHandleOwners reference).any fun owner => some owner ≠ allowedOwner

def taskHandleConflictsForGoal (goalReference handle : String) (taskRowId : Nat) :
    Except Failure Bool :=
  match db.resolveGoalRowId goalReference with
  | some goalRowId => db.taskHandleConflicts goalRowId handle (some taskRowId)
  | none => .error (.anyhow s!"Goal not found: {goalReference}")

end Database

/-! ## What a resolution finds -/

variable {db : Database} {reference : String} {task : ResolvedTaskReference}

structure Resolves (db : Database) (task : ResolvedTaskReference) (row : Row TaskData)
    (goal : Row GoalData) (phase : Row PhaseData) : Prop where
  row_mem : db.tasks.byId task.rowId = some row
  goal_mem : db.goals.byId row.data.goalId = some goal
  phase_mem : db.phases.byId goal.data.phaseId = some phase
  taskId : task.taskId = row.textId
  goalId : task.goalId = goal.textId
  phaseId : task.phaseId = phase.textId
  phaseStatus : task.phaseStatus = phase.data.status

def Database.taskByHandle (db : Database) (reference : String) (byAlias : Bool) :
    Option (Row TaskData) :=
  if byAlias then (db.entityAliases.lookup (.task, reference)).bind db.tasks.byId
  else db.tasks.byTextId reference

theorem mem_of_taskByHandle {byAlias : Bool} {row : Row TaskData}
    (h : db.taskByHandle reference byAlias = some row) : row ∈ db.tasks := by
  unfold Database.taskByHandle at h
  split at h
  · obtain ⟨id, -, hRow⟩ := Option.bind_eq_some_iff.mp h
    exact (Rows.byId_eq_some.mp hRow).1
  · exact (Rows.byTextId_eq_some.mp h).1

theorem queryTaskReference_eq_some {goalRowId : Option Nat} {byAlias : Bool} :
    db.queryTaskReference reference goalRowId byAlias = some task ↔
      ∃ row goal phase, db.taskByHandle reference byAlias = some row ∧
        db.goals.byId row.data.goalId = some goal ∧ db.phases.byId goal.data.phaseId = some phase ∧
        goalRowId.all (· = goal.id) = true ∧
        task = ⟨row.id, row.textId, row.data.title, goal.textId, phase.textId, phase.data.status⟩ := by
  unfold Database.queryTaskReference
  simp only [Option.bind_eq_some_iff]
  constructor
  · rintro ⟨row, hRow, goal, hGoal, phase, hPhase, h⟩
    split at h
    · next hAll => exact ⟨row, goal, phase, hRow, hGoal, hPhase, hAll, (Option.some.inj h).symm⟩
    · cases h
  · rintro ⟨row, goal, phase, hRow, hGoal, hPhase, hAll, rfl⟩
    exact ⟨row, hRow, goal, hGoal, phase, hPhase, if_pos hAll⟩

theorem resolves_of_query {goalRowId : Option Nat} {byAlias : Bool}
    (h : db.queryTaskReference reference goalRowId byAlias = some task) :
    ∃ row goal phase, Resolves db task row goal phase := by
  obtain ⟨row, goal, phase, hRow, hGoal, hPhase, -, rfl⟩ := queryTaskReference_eq_some.mp h
  exact ⟨row, goal, phase, Rows.byId_eq_some.mpr ⟨mem_of_taskByHandle hRow, rfl⟩, hGoal, hPhase,
    rfl, rfl, rfl, rfl⟩

theorem resolves_of_resolveTaskReference (h : db.resolveTaskReference reference = some task) :
    ∃ row goal phase, Resolves db task row goal phase := by
  unfold Database.resolveTaskReference at h
  rcases Option.or_eq_some_iff.mp h with hInGoal | ⟨-, h⟩
  · obtain ⟨⟨goalReference, taskReference⟩, -, hInGoal⟩ := Option.bind_eq_some_iff.mp hInGoal
    obtain ⟨goalRowId, -, hInGoal⟩ := Option.bind_eq_some_iff.mp hInGoal
    rcases Option.or_eq_some_iff.mp hInGoal with h | ⟨-, h⟩
    · exact resolves_of_query h
    · exact resolves_of_query h
  · rcases Option.or_eq_some_iff.mp h with h | ⟨-, h⟩
    · exact resolves_of_query h
    · exact resolves_of_query h

end Exosuit.Plan
