import Exosuit.Plan.GoalCommands

/-!
# Commands on tasks
-/

namespace Exosuit.Plan

open Lib PhaseOwner

variable (env : Env)

/-! ## The goal of a new task -/

structure ResolvedTaskGoal where
  goalId : String
  phaseId : String
deriving DecidableEq, Repr

def Database.goalsForTaskAdd (db : Database) (goalId : String) :
    List (Row PhaseData × Row GoalData) :=
  (db.planPhases.filter fun phase => SqliteWriter.isOpen phase.data.status).flatMap fun phase =>
    ((db.goalsOf phase.id).filter fun goal =>
      SqliteWriter.isOpen goal.data.status &&
        (goal.textId = goalId || goalId ∈ db.entityAliasesForRow .goal goal.id)).map
          fun goal => (phase, goal)

def Database.resolveGoalForTaskAdd (db : Database) (goalId : String) :
    Except Failure (Option ResolvedTaskGoal) :=
  match db.goalsForTaskAdd goalId with
  | [] => .ok none
  | [(phase, goal)] => .ok (some ⟨goal.textId, phase.textId⟩)
  | found =>
    let available := String.intercalate ", "
      (found.map fun (phase, goal) => s!"{goal.textId}: {goal.data.label} (phase {phase.textId})")
    .error (.exo .invalidInput
      s!"Goal '{goalId}' is ambiguous across active or pending phases: {available}. Move or rename goals before adding a task.")

def formatGoalList (goals : List (Row GoalData)) : String :=
  String.intercalate ", " (goals.map fun goal =>
    s!"{goal.textId}: {goal.data.label} ({goal.data.status.name})")

/-- The goal in progress when there is one, else the only goal. -/
def Database.defaultGoalForTaskAdd (db : Database) : Except Failure ResolvedTaskGoal :=
  match db.findWorkspaceActivePhase env with
  | none => .error (.exo .invalidInput
      "No active phase found. Use `exo phase start <id>` to start one.")
  | some phase =>
    let goals := db.goalsOf phase.id
    let activeGoals := goals.filter fun goal => goal.data.status = .inProgress
    match goals, activeGoals with
    | [], _ => .error (.exo .invalidInput
        "No goals in active phase. Create one with `exo goal add \"Goal label\"`")
    | _, [goal] => .ok ⟨goal.textId, phase.textId⟩
    | [goal], _ => .ok ⟨goal.textId, phase.textId⟩
    | _, [] =>
      let available := formatGoalList goals
      .error (.exo .invalidInput
        s!"No active goals in the active phase. Available goals: {available}. Use `--goal <id>` to choose one.")
    | _, _ =>
      let available := formatGoalList activeGoals
      .error (.exo .invalidInput
        s!"Multiple active goals found: {available}. Use `--goal <id>` to choose one.")

def Database.goalForTaskAdd (db : Database) (goal : Option String) :
    Except Failure ResolvedTaskGoal :=
  match goal with
  | none => db.defaultGoalForTaskAdd env
  | some goalId => do
    match ← db.resolveGoalForTaskAdd goalId with
    | some resolved => pure resolved
    | none => throw (.exo .invalidInput
        s!"Goal '{goalId}' not found. Use `exo phase read-goals <phase-id>` or `exo plan read` to see available goals.")

/-- The goal that the id's own prefix names, looked up when a goal was asked for. -/
def Database.prefixGoalId (db : Database) (id : String) (goal : Option String) :
    Except Failure (Option String) :=
  match goal, Text.splitOnce "::" id with
  | some _, some (prefix_, _) =>
    if prefix_ = "" then pure none
    else (db.resolveGoalForTaskAdd prefix_).map fun resolved => resolved.map ResolvedTaskGoal.goalId
  | _, _ => pure none

def normalizeTaskAddIdForGoal (id : String) (requestedGoal : Option String)
    (resolvedGoalId : String) (prefixGoalId : Option String) : Except Failure String :=
  match requestedGoal, Text.splitOnce "::" id with
  | none, _ => .ok id
  | some _, none => .ok id
  | some requestedGoal, some (prefix_, suffix) =>
    if prefix_ = "" then
      .error (.exo .invalidInput
        s!"Task id '{id}' has an empty goal prefix. Use `--id {suffix}` with `--goal {requestedGoal}`.")
    else
      match prefixGoalId with
      | none => .ok id
      | some prefixGoalId =>
        if suffix = "" then
          .error (.exo .invalidInput
            s!"Task id '{id}' has an empty task component. Use `--id <task-id>` with `--goal {requestedGoal}`.")
        else if prefixGoalId = resolvedGoalId then .ok suffix
        else
          .error (.exo .invalidInput
            s!"Task id prefix '{prefix_}' resolves to goal {prefixGoalId}, but --goal {requestedGoal} resolves to {resolvedGoalId}. Use `--goal {prefix_}` or `--id {suffix}`.")

def Database.placeForTaskAdd (db : Database) (id : String) (goal : Option String) :
    Except Failure (ResolvedTaskGoal × String) := do
  let resolved ← db.goalForTaskAdd env goal
  let prefixGoalId ← db.prefixGoalId id goal
  let taskId ← normalizeTaskAddIdForGoal id goal resolved.goalId prefixGoalId
  pure (resolved, taskId)

def taskAdd (id label : String) (goal : Option String) : Cmd Unit := do
  let (resolved, taskId) ← Cmd.tryQuery (·.placeForTaskAdd env id goal)
  ensurePhaseWriteAllowed env resolved.phaseId
  Cmd.call (.addTask resolved.goalId taskId label none)

/-! ## Lifecycle -/

def ensurePhaseInProgress (phaseId : String) (phaseStatus : Status) (failure : Failure) :
    Cmd Unit :=
  if phaseStatus = .inProgress then ensurePhaseWriteAllowed env phaseId else Cmd.fail failure

def taskLifecycleFailure (taskId phaseId : String) (phaseStatus : Status) : Failure :=
  .exo .invalidInput
    s!"Task '{taskId}' belongs to phase '{phaseId}' ({phaseStatus.name}) and cannot be changed by task lifecycle commands until that phase starts. Use `exo phase read-tasks {phaseId}` to review planned tasks."

def goalLifecycleFailure (goalId phaseId : String) (phaseStatus : Status) : Failure :=
  .exo .invalidInput
    s!"Goal '{goalId}' belongs to phase '{phaseId}' ({phaseStatus.name}) and cannot be completed through `exo task complete` until that phase starts. Use `exo phase read-goals {phaseId}` to review planned goals."

def ensureTaskLifecycleAllowed (taskId : String) : Cmd Unit := do
  match ← Cmd.query (·.resolveTaskReference taskId) with
  | none => pure ()
  | some task =>
    ensurePhaseInProgress env task.phaseId task.phaseStatus
      (taskLifecycleFailure taskId task.phaseId task.phaseStatus)

def Database.findGoalPhase (db : Database) (goalId : String) : Option (Row PhaseData) :=
  (db.goals.byTextId goalId).bind fun goal => db.phases.byId goal.data.phaseId

def ensureTaskCompleteLifecycleAllowed (entityId : String) : Cmd Unit := do
  match ← Cmd.query (·.resolveTaskReference entityId) with
  | some _ => ensureTaskLifecycleAllowed env entityId
  | none =>
    match ← Cmd.query (·.findGoalPhase entityId) with
    | none => pure ()
    | some phase =>
      ensurePhaseInProgress env phase.textId phase.data.status
        (goalLifecycleFailure entityId phase.textId phase.data.status)

/-- The claim about the task under its canonical id or the reference, else about a goal. -/
def Database.completionClaimForTask (db : Database) (canonicalId id : String) :
    CompletionClaimStatus :=
  let claim := match db.hasCompletionClaim "task" canonicalId with
    | .noClaim => if id ≠ canonicalId then db.hasCompletionClaim "task" id else .noClaim
    | other => other
  match claim with
  | .noClaim => db.hasCompletionClaim "goal" canonicalId
  | other => other

def requireTaskApproval (entityType canonicalId id log : String) : Cmd Unit := do
  recordWorkflowCompletionEvidence env entityType canonicalId log
  let claim ← Cmd.query (·.completionClaimForTask canonicalId id)
  if claim.approves then pure () else Cmd.fail (outcomeReviewFailure entityType canonicalId)

def completeGoalAsTask (id log : String) : Cmd Unit := do
  match ← (Cmd.call (.updateGoalStatus id "completed")).attempt with
  | .error _ => Cmd.anyhow s!"Task not found: {id}"
  | .ok _ =>
    if log = "" then pure ()
    else
      let _ ← (Cmd.call (.updateGoalCompletionLog id log)).attempt

def taskComplete (id log : String) : Cmd Unit := do
  ensureTaskCompleteLifecycleAllowed env id
  let resolvedTask ← Cmd.query (·.resolveTaskReference id)
  let goalPhase ← Cmd.query (·.findGoalPhase id)
  match resolvedTask, goalPhase with
  | some task, _ =>
    requireTaskApproval env "task" task.taskId id log
    Cmd.call (.completeTaskByRowId task.rowId log env.now)
  | none, some _ =>
    requireNothingPending env id
    requireTaskApproval env "goal" id id log
    completeGoalAsTask id log
  | none, none => Cmd.anyhow s!"Task not found: {id}"

def onTask (id : String) (change : ResolvedTaskReference → WriterCall) : Cmd Unit := do
  ensureTaskLifecycleAllowed env id
  match ← Cmd.query (·.resolveTaskReference id) with
  | some task => Cmd.call (change task)
  | none => Cmd.anyhow s!"Task not found: {id}"

def taskLog (id message : String) : Cmd Unit :=
  onTask env id fun task => .addTaskLogByRowId task.rowId "progress" message

def taskStart (id : String) : Cmd Unit :=
  onTask env id fun task => .updateTaskStatusByRowId task.rowId .inProgress env.now

def taskRemove (id : String) : Cmd Unit := onTask env id fun task => .removeTaskByRowId task.rowId

def taskReorder (id position : String) : Cmd Unit :=
  onTask env id fun task => .reorderTaskByRowId task.rowId position

def taskUpdate (id title : String) : Cmd Unit :=
  onTask env id fun task => .updateTaskTitleByRowId task.rowId title

def invalidTaskRename (message : String) : Failure := .exo .invalidInput message

def Database.normalizeTaskRenameId (db : Database) (requested currentGoalId : String) :
    Except Failure String :=
  if requested = "" then .error (invalidTaskRename "The new task ID cannot be empty.")
  else if "" ∈ Text.split "::" requested then
    .error (invalidTaskRename s!"Task ID '{requested}' has an empty hierarchy component.")
  else
    match Text.splitOnce "::" requested with
    | none => .ok requested
    | some (prefix_, suffix) =>
      match db.resolveGoalReference prefix_ with
      | none => .ok requested
      | some prefixGoalId =>
        if prefixGoalId = currentGoalId then .ok suffix
        else .error (invalidTaskRename
          s!"Task ID prefix '{prefix_}' resolves to goal '{prefixGoalId}', but the task belongs to goal '{currentGoalId}'. Use `--to {suffix}` or move the task separately.")

def Database.newTaskHandle (db : Database) (task : ResolvedTaskReference) (requested : String) :
    Except Failure String := do
  let newTaskId ← db.normalizeTaskRenameId requested task.goalId
  if newTaskId = task.taskId then
    throw (invalidTaskRename s!"Task '{task.taskId}' already uses that canonical handle.")
  if ← db.taskHandleConflictsForGoal task.goalId newTaskId task.rowId then
    throw (invalidTaskRename
      s!"Task handle '{newTaskId}' conflicts with another canonical, alias, or goal-qualified task reference.")
  pure newTaskId

def taskRename (id requested : String) : Cmd Unit := do
  ensureTaskLifecycleAllowed env id
  match ← Cmd.query (·.resolveTaskReference id) with
  | none => Cmd.fail (invalidTaskRename s!"Task not found: {id}")
  | some task =>
    let newTaskId ← Cmd.tryQuery (·.newTaskHandle task requested)
    Cmd.call (.renameTaskHandle task.rowId task.taskId newTaskId)

end Exosuit.Plan
