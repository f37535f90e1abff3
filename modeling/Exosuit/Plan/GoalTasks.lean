import Exosuit.Plan.Completion

/-!
# The tasks of a completed goal

Both ways of completing a goal look for pending tasks in the listing of the
active phase, under display ids that begin with the goal's id. A task that the
listing does not show so is not seen.
-/

namespace Exosuit.Plan

open Lib SqliteWriter

variable {fx : FractionalIndex} {env : Env} {command : Command} {db db' : Database}
  {goal : Row GoalData} {task : Row TaskData}

/-- The goal that the command marks completed when it succeeds. -/
def Marks (db : Database) (command : Command) (goal : Row GoalData) : Prop :=
  match command with
  | .goalComplete id _ => goal.textId = id
  | .taskComplete id _ => goal.textId = id ∧ db.resolveTaskReference id = none
  | _ => False

instance : Decidable (Marks db command goal) := by
  unfold Marks
  split <;> infer_instance

/-- A goal is marked completed only when every task of it is completed. -/
def CompletesOnlyDone (fx : FractionalIndex) (env : Env) (command : Command) (db : Database) : Prop :=
  ∀ goal ∈ db.goals.rows, Marks db command goal → (dispatchMut fx env command db).1 = .ok () →
    ∀ task ∈ db.tasks.rows, task.data.goalId = goal.id → task.data.status = .completed

/-- The listing shows the task, under a display id that begins with the goal's id. -/
def ListedUnder (env : Env) (db : Database) (goal : Row GoalData) (task : Row TaskData) : Prop :=
  db.resolveActivePhaseRowid env.workspaceRoot = some goal.data.phaseId ∧
    (Text.split "::" (Database.compositeId goal.textId task.textId task.data.title)).head? =
      some goal.textId

/-- A task of the goal is not completed, and the listing does not show it. -/
def HidesTask (env : Env) (db : Database) (goal : Row GoalData) : Prop :=
  ∃ task ∈ db.tasks, task.data.goalId = goal.id ∧ task.data.status ≠ .completed ∧
    ¬ ListedUnder env db goal task

theorem head?_split_qualified (g t : String) :
    (Text.split "::" (qualified g t)).head? = some g ↔ Text.Separable "::".toList g.toList := by
  have hSep : "::".toList ≠ [] := List.cons_ne_nil _ _
  have hList : (qualified g t).toList = g.toList ++ "::".toList ++ t.toList := by
    rw [qualified, String.toList_append, String.toList_append]
  rw [Text.split, List.head?_map, Text.head?_pieces, hList, Option.map_some, Option.some_inj]
  by_cases h : Text.Separable "::".toList g.toList
  · rw [Text.splitOnceList_append hSep h]
    exact iff_of_true (String.ofList_toList) h
  · obtain ⟨p, q, hSplit, hLt⟩ := Text.exists_splitOnceList_append (t := t.toList) hSep h
    rw [hSplit]
    refine iff_of_false (fun hEq => ?_) h
    have hLen := congrArg (fun s => s.toList.length) hEq
    simp only [Option.map_some, Option.getD_some, String.toList_ofList] at hLen
    omega

theorem listedUnder_iff (hGoal : goal.textId ≠ "") (hTask : task.textId ≠ "") :
    ListedUnder env db goal task ↔
      db.resolveActivePhaseRowid env.workspaceRoot = some goal.data.phaseId ∧
        Text.Separable "::".toList goal.textId.toList := by
  rw [ListedUnder, Database.compositeId, if_pos ⟨hGoal, hTask⟩, head?_split_qualified]

/-- What the command checks, with the goal that it finds. -/
def Passes (env : Env) (command : Command) (db : Database) : Prop :=
  match command with
  | .goalComplete id log =>
    ∃ phase goal db₁ db₂, GoalCompletion env id log db phase goal db₁ db₂
  | .taskComplete id log => ∃ phase db₁ db₂, FallbackCompletion env id log db phase db₁ db₂
  | _ => False

theorem completed_of_listed (hGoal : goal ∈ db.goals) (hTask : task ∈ db.tasks)
    (hTaskGoal : task.data.goalId = goal.id) (hListed : ListedUnder env db goal task)
    (hPending : db.pendingCount env.workspaceRoot goal.textId = 0) :
    task.data.status = .completed := by
  obtain ⟨hPhase, hHead⟩ := hListed
  by_contra hStatus
  have hGoals : goal ∈ db.goalsOf goal.data.phaseId :=
    mem_orderBy.mpr (List.mem_filter.mpr ⟨hGoal, decide_eq_true rfl⟩)
  have hTasks : task ∈ db.tasksOf goal.id :=
    mem_orderBy.mpr (List.mem_filter.mpr ⟨hTask, decide_eq_true hTaskGoal⟩)
  have hShown : (⟨Database.compositeId goal.textId task.textId task.data.title, task.data.title,
      task.data.status⟩ : Database.ListedTask) ∈ db.listActivePhaseTasks env.workspaceRoot := by
    unfold Database.listActivePhaseTasks
    rw [hPhase]
    exact List.mem_flatMap.mpr ⟨goal, hGoals, List.mem_map_of_mem hTasks⟩
  rw [Database.pendingCount, List.length_eq_zero_iff, List.filter_eq_nil_iff] at hPending
  have hListed : _ ∈ db.listedGoalTasks env.workspaceRoot goal.textId :=
    List.mem_filter.mpr ⟨hShown, decide_eq_true hHead⟩
  exact hPending _ hListed (decide_eq_true hStatus)

theorem ok_iff_passes (hMarks : Marks db command goal) :
    (dispatchMut fx env command db).1 = .ok () ↔ Passes env command db := by
  unfold Marks at hMarks
  unfold Passes
  split at hMarks
  · next id log =>
    refine Program.fst_eq_ok_iff_of_wp (Program.wp_mono wp_goalComplete ?_ ?_)
    · rintro _ _ ⟨phase, goal, db₁, db₂, h, -⟩
      exact ⟨phase, goal, db₁, db₂, h⟩
    · rintro _ _ ⟨-, hNone⟩ ⟨phase, goal, db₁, db₂, h⟩
      exact hNone phase goal db₁ db₂ h
  · next id log =>
    refine Program.fst_eq_ok_iff_of_wp (Program.wp_mono wp_taskComplete ?_ ?_)
    · rintro _ _ (⟨task, _, _, h, -⟩ | ⟨phase, db₁, db₂, h, -⟩)
      · exact nomatch hMarks.2.symm.trans h.resolved
      · exact ⟨phase, db₁, db₂, h⟩
    · rintro _ _ ⟨-, -, hNone⟩ ⟨phase, db₁, db₂, h⟩
      exact hNone phase db₁ db₂ h
  · cases hMarks

theorem nothingPending_of_passes (hMarks : Marks db command goal) (hPasses : Passes env command db) :
    db.pendingCount env.workspaceRoot goal.textId = 0 := by
  unfold Marks at hMarks
  unfold Passes at hPasses
  split at hMarks
  · obtain ⟨_, _, _, _, h⟩ := hPasses
    rw [hMarks]
    exact h.nothingPending
  · obtain ⟨_, _, _, h⟩ := hPasses
    rw [hMarks.1]
    exact h.nothingPending
  · cases hMarks

/-- The goal's tasks are all completed unless the command passes while one is hidden. -/
theorem completesOnlyDone_iff :
    CompletesOnlyDone fx env command db ↔
      ∀ goal ∈ db.goals.rows, Marks db command goal → Passes env command db →
        ¬ HidesTask env db goal := by
  constructor
  · rintro h goal hGoal hMarks hPasses ⟨task, hTask, hTaskGoal, hStatus, -⟩
    exact hStatus (h goal hGoal hMarks ((ok_iff_passes hMarks).mpr hPasses) task hTask hTaskGoal)
  · intro h goal hGoal hMarks hOk task hTask hTaskGoal
    have hPasses := (ok_iff_passes hMarks).mp hOk
    by_contra hStatus
    refine h goal hGoal hMarks hPasses ⟨task, hTask, hTaskGoal, hStatus, fun hListed => hStatus ?_⟩
    exact completed_of_listed hGoal hTask hTaskGoal hListed (nothingPending_of_passes hMarks hPasses)

instance : Decidable (CompletesOnlyDone fx env command db) := by
  unfold CompletesOnlyDone
  infer_instance

/-- A goal whose id has two colons is completed while its task is pending. -/
theorem not_completesOnlyDone_of_colons :
    ∃ db, run (step sampleIndex) .empty (sampleRequests.take 3 ++
        [ ⟨sampleEnv "a" "", .goalAdd "a::b" "Goal" none none none⟩,
          ⟨sampleEnv "a" "", .taskAdd "t" "Task" none⟩ ]) = some db ∧
      ¬ CompletesOnlyDone sampleIndex (confirmingEnv "goal" "a::b" "Done" "i1")
        (.goalComplete "a::b" "Done") db :=
  ⟨_, rfl, by decide +kernel⟩

end Exosuit.Plan
