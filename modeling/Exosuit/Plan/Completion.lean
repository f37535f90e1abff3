import Exosuit.Plan.Commands
import Exosuit.Plan.GuardSpec

/-!
# Completions

When `goal complete` and `task complete` write, what they checked before, and
what they leave. A run that fails leaves every goal and task as it was.
-/

namespace Exosuit.Plan

open Lib SqliteWriter

variable {fx : FractionalIndex} {env : Env} {db db' db₁ db₂ : Database} {id log : String}

/-- The database after the evidence that the request carries is recorded. -/
def recorded (env : Env) (entityType entityId log : String) (db : Database) :
    Except Failure Database :=
  if env.confirms entityType entityId log then
    match db.inbox.insert env.newId
      { createdAt := env.now, status := .pending, entityType, entityId := some entityId,
        intent := "claim", agentId := none } with
    | none => .error (.anyhow "Failed to insert inbox item")
    | some inbox => .ok { db with
        inbox := inbox.update (fun row => row.textId = env.newId) fun data =>
          { data with status := .acknowledged } }
  else .ok db

theorem run_recordWorkflowCompletionEvidence {entityType entityId : String} :
    (recordWorkflowCompletionEvidence env entityType entityId log).run (WriterCall.exec fx) db =
      outcome db (recorded env entityType entityId log db) := by
  unfold recordWorkflowCompletionEvidence recorded
  split
  · unfold recordCompletionApprovalEvidence
    cases hInsert : db.inbox.insert env.newId
      { createdAt := env.now, status := .pending, entityType, entityId := some entityId,
        intent := "claim", agentId := none } with
    | none =>
      refine Program.run_bind_of_error ((Cmd.run_call _ _ _).trans ?_)
      simp only [WriterCall.exec, addInboxItem, insertRow, hInsert]
      rfl
    | some inbox =>
      have hAdd : (Cmd.call (.addInboxItem env.newId entityType (some entityId) "claim" none
          env.now)).run (WriterCall.exec fx) db = (.ok (), { db with inbox }) := by
        refine (Cmd.run_call _ _ _).trans ?_
        simp only [WriterCall.exec, addInboxItem, insertRow, hInsert]
        rfl
      have hRow : inbox.byTextId env.newId ≠ none := by
        rw [Ne, Rows.byTextId_eq_none, not_forall]
        exact ⟨_, fun h => h ((Rows.mem_of_insert hInsert).mpr (.inr rfl)) rfl⟩
      obtain ⟨row, hRow⟩ := Option.ne_none_iff_exists'.mp hRow
      refine (Program.run_bind_of_ok hAdd).trans ((Cmd.run_call _ _ _).trans ?_)
      simp only [WriterCall.exec, updateInboxStatus, updateRow, hRow]
      rfl
  · rfl

theorem recorded_frame {entityType entityId : String}
    (h : recorded env entityType entityId log db = .ok db') : ∃ inbox, db' = { db with inbox } := by
  unfold recorded at h
  split at h
  · split at h
    · cases h
    · exact ⟨_, (Except.ok.inj h).symm⟩
  · exact ⟨_, (Except.ok.inj h).symm⟩

theorem recorded_of_not_confirms {entityType entityId : String}
    (h : env.confirms entityType entityId log = false) :
    recorded env entityType entityId log db = .ok db := by
  rw [recorded, h]
  rfl

theorem run_requireNothingPending :
    (requireNothingPending env id).run (WriterCall.exec fx) db =
      outcome db (if db.pendingCount env.workspaceRoot id = 0 then .ok db
        else .error (tasksPendingFailure id (db.pendingCount env.workspaceRoot id))) := by
  unfold requireNothingPending
  rw [Cmd.run_query_bind]
  split <;> rfl

/-! ## Goal complete -/

def completeGoal (id log : String) (db : Database) : Database :=
  { db with
    goals := (db.goals.update (fun row => row.textId = id) fun data =>
      { data with status := .completed }).update (fun row => row.textId = id) fun data =>
        { data with completionLog := some log } }

theorem goals_completeGoal (id log : String) (db : Database) :
    ∃ f : GoalData → GoalData, (∀ data, (f data).status = .completed) ∧
      (completeGoal id log db).goals = db.goals.update (fun row => row.textId = id) f := by
  refine ⟨fun data => { data with status := .completed, completionLog := some log }, fun _ => rfl, ?_⟩
  refine Eq.trans (by unfold completeGoal; rfl) (Rows.update_update (p := fun row => row.textId = id)
    (f := fun data : GoalData => { data with status := .completed })
    (g := fun data => { data with completionLog := some log }) ?_)
  exact fun _ => rfl

/-- What `goal complete` finds when it completes the goal. -/
structure GoalCompletion (env : Env) (id log : String) (db : Database) (phase : Row PhaseData)
    (goal : Row GoalData) (db₁ db₂ : Database) : Prop where
  active : db.findWorkspaceActivePhase env = some phase
  writable : guarded env phase.textId db = .ok db₁
  found : (db.goalsOf phase.id).find? (fun goal => goal.textId = id) = some goal
  notCompleted : goal.data.status ≠ .completed
  notAbandoned : goal.data.status ≠ .abandoned
  nothingPending : db.pendingCount env.workspaceRoot id = 0
  evidence : recorded env "goal" id log db₁ = .ok db₂
  approved : (db₂.hasCompletionClaim "goal" id).approves = true

def SameWork (db db' : Database) : Prop := db'.goals = db.goals ∧ db'.tasks = db.tasks

theorem mem_of_mem_goalsOf {phaseId : Nat} {goal : Row GoalData} (h : goal ∈ db.goalsOf phaseId) :
    goal ∈ db.goals ∧ goal.data.phaseId = phaseId := by
  obtain ⟨hMem, hPhase⟩ := List.mem_filter.mp (mem_orderBy.mp h)
  exact ⟨hMem, of_decide_eq_true hPhase⟩

theorem byTextId_of_find? {phaseId : Nat} {goal : Row GoalData}
    (h : (db.goalsOf phaseId).find? (fun goal => goal.textId = id) = some goal) :
    db.goals.byTextId id = some goal :=
  Rows.byTextId_eq_some.mpr ⟨(mem_of_mem_goalsOf (List.mem_of_find?_eq_some h)).1,
    by simpa using List.find?_some h⟩

theorem exec_updateGoalStatus_completed {goal : Row GoalData}
    (hGoal : db.goals.byTextId id = some goal) :
    (WriterCall.updateGoalStatus id "completed").exec fx db =
      (.ok true, { db with
        goals := db.goals.update (fun row => row.textId = id) fun data =>
          { data with status := .completed } }) := by
  simp only [WriterCall.exec, updateGoalStatus, hGoal, updateRow]
  rfl

theorem exec_updateGoalCompletionLog {goal : Row GoalData}
    (hGoal : db.goals.byTextId id = some goal) :
    (WriterCall.updateGoalCompletionLog id log).exec fx db =
      (.ok true, { db with
        goals := db.goals.update (fun row => row.textId = id) fun data =>
          { data with completionLog := some log } }) := by
  simp only [WriterCall.exec, updateGoalCompletionLog, hGoal, updateRow]
  rfl

theorem byTextId_updateGoals {goal : Row GoalData} {f : GoalData → GoalData}
    (hGoal : db.goals.byTextId id = some goal) :
    ∃ goal', (db.goals.update (fun row => row.textId = id) f).byTextId id = some goal' := by
  rw [Rows.byTextId_update, hGoal]
  exact ⟨_, rfl⟩

theorem run_completeGoal {goal : Row GoalData} (hGoal : db.goals.byTextId id = some goal) :
    (do
      Cmd.call (.updateGoalStatus id "completed")
      Cmd.call (.updateGoalCompletionLog id log) : Cmd Unit).run (WriterCall.exec fx) db =
        (.ok (), completeGoal id log db) := by
  obtain ⟨goal', hGoal'⟩ := byTextId_updateGoals
    (f := fun data => { data with status := .completed }) hGoal
  refine (Program.run_bind_of_ok ((Cmd.run_call _ _ _).trans
    (by rw [exec_updateGoalStatus_completed hGoal]; rfl))).trans ?_
  refine (Cmd.run_call _ _ _).trans ?_
  rw [exec_updateGoalCompletionLog hGoal']
  rfl

section

variable {α : Type} {Q : α → Database → Prop} {R : Row GoalData → Database → Prop}
  {E : Failure → Database → Prop} {message : String}

theorem run_requireActivePhase :
    (requireActivePhase env message).run (WriterCall.exec fx) db =
      match db.findWorkspaceActivePhase env with
      | some phase => (.ok phase, db)
      | none => (.error (.anyhow message), db) := by
  unfold requireActivePhase
  rw [Cmd.run_query_bind]
  cases db.findWorkspaceActivePhase env <;> rfl

theorem wp_requireActiveGoal
    (hOk : ∀ phase goal db₁, db.findWorkspaceActivePhase env = some phase →
      guarded env phase.textId db = .ok db₁ →
      (db.goalsOf phase.id).find? (fun goal => goal.textId = id) = some goal → R goal db₁)
    (hNone : db.findWorkspaceActivePhase env = none → E (.anyhow message) db)
    (hGuard : ∀ phase e, db.findWorkspaceActivePhase env = some phase →
      guarded env phase.textId db = .error e → E e db)
    (hMissing : ∀ phase e db₁, db.findWorkspaceActivePhase env = some phase →
      guarded env phase.textId db = .ok db₁ →
      (db.goalsOf phase.id).find? (fun goal => goal.textId = id) = none → E e db₁) :
    (requireActiveGoal env id message).wp (WriterCall.exec fx) R E db := by
  unfold requireActiveGoal
  rw [Program.wp_bind]
  cases hPhase : db.findWorkspaceActivePhase env with
  | none =>
    rw [Program.wp_of_run_error (run_requireActivePhase.trans (by rw [hPhase]))]
    exact hNone hPhase
  | some phase =>
    rw [Program.wp_of_run_ok (run_requireActivePhase.trans (by rw [hPhase])), Program.wp_bind,
      wp_ensurePhaseWriteAllowed]
    refine ends_of (fun db₁ hOk₁ => ?_) fun e hError => hGuard phase e hPhase hError
    obtain ⟨_, rfl⟩ := guarded_frame hOk₁
    refine (wp_query _).mpr ?_
    split
    · next goal hFind => exact hOk phase goal _ hPhase hOk₁ hFind
    · next hFind => exact hMissing phase _ _ hPhase hOk₁ hFind

end

theorem wp_recordWorkflowCompletionEvidence {entityType entityId : String}
    {Q : Unit → Database → Prop} {E : Failure → Database → Prop} :
    (recordWorkflowCompletionEvidence env entityType entityId log).wp (WriterCall.exec fx) Q E db ↔
      Ends Q E db (recorded env entityType entityId log db) :=
  wp_of_outcome run_recordWorkflowCompletionEvidence

theorem wp_goalComplete :
    (goalComplete env id log).wp (WriterCall.exec fx)
      (fun _ db' => ∃ phase goal db₁ db₂, GoalCompletion env id log db phase goal db₁ db₂ ∧
        db' = completeGoal id log db₂)
      (fun _ db' => SameWork db db' ∧
        ∀ phase goal db₁ db₂, ¬ GoalCompletion env id log db phase goal db₁ db₂) db := by
  unfold goalComplete
  rw [Program.wp_bind]
  apply wp_requireActiveGoal
  case hNone =>
    exact fun hNone => ⟨⟨rfl, rfl⟩, fun _ _ _ _ h => nomatch hNone.symm.trans h.active⟩
  case hGuard =>
    intro phase e hPhase hGuard
    refine ⟨⟨rfl, rfl⟩, fun phase' _ _ _ h => ?_⟩
    obtain rfl := Option.some.inj (hPhase.symm.trans h.active)
    exact nomatch hGuard.symm.trans h.writable
  case hMissing =>
    intro phase e db₁ hPhase hGuard hFind
    obtain ⟨_, rfl⟩ := guarded_frame hGuard
    refine ⟨⟨rfl, rfl⟩, fun phase' _ _ _ h => ?_⟩
    obtain rfl := Option.some.inj (hPhase.symm.trans h.active)
    exact nomatch hFind.symm.trans h.found
  intro phase goal db₁ hPhase hGuard hFind
  have hSame (goal' : Row GoalData) (phase' : Row PhaseData) (db₁' db₂' : Database)
      (h : GoalCompletion env id log db phase' goal' db₁' db₂') : goal' = goal ∧ db₁' = db₁ := by
    obtain rfl := Option.some.inj (hPhase.symm.trans h.active)
    exact ⟨Option.some.inj (h.found.symm.trans hFind), Except.ok.inj (h.writable.symm.trans hGuard)⟩
  obtain ⟨_, hEq⟩ := guarded_frame hGuard
  have hWork : SameWork db db₁ := hEq ▸ ⟨rfl, rfl⟩
  split
  · next hStatus =>
    refine ⟨hWork, fun phase' goal' db₁' db₂' h => h.notCompleted ?_⟩
    rw [(hSame _ _ _ _ h).1, hStatus]
  · next hNotCompleted =>
    split
    · next hStatus =>
      refine ⟨hWork, fun phase' goal' db₁' db₂' h => h.notAbandoned ?_⟩
      rw [(hSame _ _ _ _ h).1, hStatus]
    · next hNotAbandoned =>
      have hCount : db₁.pendingCount env.workspaceRoot id = db.pendingCount env.workspaceRoot id :=
        hEq ▸ rfl
      rw [Program.wp_bind, wp_of_outcome run_requireNothingPending, hCount]
      split
      · next hPending =>
        rw [ends_ok, Program.wp_bind, wp_recordWorkflowCompletionEvidence]
        refine ends_of (fun db₂ hRecorded => ?_) fun e hRecorded => ⟨hWork, fun _ _ db₁' _ h => ?_⟩
        · refine (wp_query _).mpr ?_
          obtain ⟨_, hEq₂⟩ := recorded_frame hRecorded
          split
          · next hApproved =>
            have hGoal := byTextId_of_find? hFind
            refine (Program.wp_of_run_ok (run_completeGoal (by rw [hEq₂, hEq]; exact hGoal))).mpr ?_
            exact ⟨phase, goal, db₁, db₂, ⟨hPhase, hGuard, hFind, hNotCompleted, hNotAbandoned, hPending,
              hRecorded, hApproved⟩, rfl⟩
          · next hApproved =>
            refine ⟨hEq₂ ▸ hWork, fun _ _ db₁' db₂' h => hApproved ?_⟩
            obtain rfl := (hSame _ _ _ _ h).2
            obtain rfl := Except.ok.inj (hRecorded.symm.trans h.evidence)
            exact h.approved
        · obtain rfl := (hSame _ _ _ _ h).2
          exact nomatch hRecorded.symm.trans h.evidence
      · next hPending => exact ⟨hWork, fun _ _ _ _ h => hPending h.nothingPending⟩

/-! ## Task complete -/

def completeTask (rowId : Nat) (log now : String) (db : Database) : Database :=
  { db with
    tasks := db.tasks.update (fun row => row.id = rowId) fun data =>
      { data with status := .completed, completionLog := some log, completedAt := some now } }

/-- What `task complete` leaves of a goal: an empty log is not stored. -/
def completeGoalUnderTask (id log : String) (db : Database) : Database :=
  if log = "" then
    { db with
      goals := db.goals.update (fun row => row.textId = id) fun data =>
        { data with status := .completed } }
  else completeGoal id log db

theorem goals_completeGoalUnderTask (id log : String) (db : Database) :
    ∃ f : GoalData → GoalData, (∀ data, (f data).status = .completed) ∧
      (completeGoalUnderTask id log db).goals = db.goals.update (fun row => row.textId = id) f := by
  unfold completeGoalUnderTask
  split
  · exact ⟨fun data => { data with status := .completed }, fun _ => rfl, rfl⟩
  · exact goals_completeGoal id log db

/-- What `task complete` finds when it completes a task. -/
structure TaskCompletion (env : Env) (id log : String) (db : Database)
    (task : ResolvedTaskReference) (db₁ db₂ : Database) : Prop where
  resolved : db.resolveTaskReference id = some task
  inProgress : task.phaseStatus = .inProgress
  writable : guarded env task.phaseId db = .ok db₁
  evidence : recorded env "task" task.taskId log db₁ = .ok db₂
  approved : (db₂.completionClaimForTask task.taskId id).approves = true

/-- What `task complete` finds when it completes a goal. -/
structure FallbackCompletion (env : Env) (id log : String) (db : Database) (phase : Row PhaseData)
    (db₁ db₂ : Database) : Prop where
  unresolved : db.resolveTaskReference id = none
  goalPhase : db.findGoalPhase id = some phase
  inProgress : phase.data.status = .inProgress
  writable : guarded env phase.textId db = .ok db₁
  nothingPending : db.pendingCount env.workspaceRoot id = 0
  evidence : recorded env "goal" id log db₁ = .ok db₂
  approved : (db₂.completionClaimForTask id id).approves = true

theorem run_ensurePhaseInProgress {phaseId : String} {phaseStatus : Status} {failure : Failure} :
    (ensurePhaseInProgress env phaseId phaseStatus failure).run (WriterCall.exec fx) db =
      outcome db (if phaseStatus = .inProgress then guarded env phaseId db else .error failure) := by
  unfold ensurePhaseInProgress
  split
  · exact run_ensurePhaseWriteAllowed
  · rfl

def lifecycle (env : Env) (id : String) (db : Database) : Except Failure Database :=
  match db.resolveTaskReference id with
  | none => .ok db
  | some task =>
    if task.phaseStatus = .inProgress then guarded env task.phaseId db
    else .error (taskLifecycleFailure id task.phaseId task.phaseStatus)

theorem run_ensureTaskLifecycleAllowed :
    (ensureTaskLifecycleAllowed env id).run (WriterCall.exec fx) db =
      outcome db (lifecycle env id db) := by
  unfold ensureTaskLifecycleAllowed lifecycle
  rw [Cmd.run_query_bind]
  cases db.resolveTaskReference id with
  | none => rfl
  | some task => exact run_ensurePhaseInProgress

/-- The database after the lifecycle check of `task complete`. -/
def completeLifecycle (env : Env) (id : String) (db : Database) : Except Failure Database :=
  match db.resolveTaskReference id, db.findGoalPhase id with
  | some _, _ => lifecycle env id db
  | none, none => .ok db
  | none, some phase =>
    if phase.data.status = .inProgress then guarded env phase.textId db
    else .error (goalLifecycleFailure id phase.textId phase.data.status)

theorem run_ensureTaskCompleteLifecycleAllowed :
    (ensureTaskCompleteLifecycleAllowed env id).run (WriterCall.exec fx) db =
      outcome db (completeLifecycle env id db) := by
  unfold ensureTaskCompleteLifecycleAllowed completeLifecycle
  rw [Cmd.run_query_bind]
  cases hTask : db.resolveTaskReference id with
  | some task => exact run_ensureTaskLifecycleAllowed
  | none =>
    refine (Cmd.run_query_bind _).trans ?_
    cases hGoal : db.findGoalPhase id with
    | none => rfl
    | some phase => exact run_ensurePhaseInProgress

theorem wp_requireTaskApproval {entityType canonicalId : String} {Q : Unit → Database → Prop}
    {E : Failure → Database → Prop}
    (hOk : ∀ db₂, recorded env entityType canonicalId log db = .ok db₂ →
      (db₂.completionClaimForTask canonicalId id).approves = true → Q () db₂)
    (hError : ∀ e, recorded env entityType canonicalId log db = .error e → E e db)
    (hRefused : ∀ e db₂, recorded env entityType canonicalId log db = .ok db₂ →
      ¬ (db₂.completionClaimForTask canonicalId id).approves = true → E e db₂) :
    (requireTaskApproval env entityType canonicalId id log).wp (WriterCall.exec fx) Q E db := by
  unfold requireTaskApproval
  rw [Program.wp_bind, wp_recordWorkflowCompletionEvidence]
  refine ends_of (fun db₂ hRecorded => ?_) hError
  refine (wp_query _).mpr ?_
  split
  · next hApproved => exact hOk db₂ hRecorded hApproved
  · next hRefuse => exact hRefused _ db₂ hRecorded hRefuse

theorem exec_completeTaskByRowId {row : Row TaskData} {rowId : Nat} {now : String}
    (hRow : db.tasks.byId rowId = some row) :
    (WriterCall.completeTaskByRowId rowId log now).exec fx db =
      (.ok true, completeTask rowId log now db) := by
  simp only [WriterCall.exec, completeTaskByRowId, updateRowById, hRow]
  rfl

theorem run_completeGoalAsTask {goal : Row GoalData} (hGoal : db.goals.byTextId id = some goal) :
    (completeGoalAsTask id log).run (WriterCall.exec fx) db =
      (.ok (), completeGoalUnderTask id log db) := by
  obtain ⟨goal', hGoal'⟩ := byTextId_updateGoals
    (f := fun data => { data with status := .completed }) hGoal
  have hStatus : (Cmd.call (.updateGoalStatus id "completed")).attempt.run (WriterCall.exec fx) db =
      (.ok (.ok ()), { db with
        goals := db.goals.update (fun row => row.textId = id) fun data =>
          { data with status := .completed } }) := by
    rw [Program.run_attempt, Cmd.run_call, exec_updateGoalStatus_completed hGoal]
    rfl
  have hLog : (Cmd.call (.updateGoalCompletionLog id log)).attempt.run (WriterCall.exec fx)
      { db with
        goals := db.goals.update (fun row => row.textId = id) fun data =>
          { data with status := .completed } } = (.ok (.ok ()), completeGoal id log db) := by
    rw [Program.run_attempt, Cmd.run_call, exec_updateGoalCompletionLog hGoal']
    rfl
  unfold completeGoalAsTask completeGoalUnderTask
  rw [Program.run_bind_of_ok hStatus]
  dsimp only
  split
  · rfl
  · exact Program.run_bind_of_ok hLog

theorem wp_taskComplete :
    (taskComplete env id log).wp (WriterCall.exec fx)
      (fun _ db' =>
        (∃ task db₁ db₂, TaskCompletion env id log db task db₁ db₂ ∧
          db' = completeTask task.rowId log env.now db₂) ∨
        ∃ phase db₁ db₂, FallbackCompletion env id log db phase db₁ db₂ ∧
          db' = completeGoalUnderTask id log db₂)
      (fun _ db' => SameWork db db' ∧
        (∀ task db₁ db₂, ¬ TaskCompletion env id log db task db₁ db₂) ∧
        ∀ phase db₁ db₂, ¬ FallbackCompletion env id log db phase db₁ db₂) db := by
  unfold taskComplete
  rw [Program.wp_bind, wp_of_outcome run_ensureTaskCompleteLifecycleAllowed]
  cases hTask : db.resolveTaskReference id with
  | some task =>
    have hLifecycle : completeLifecycle env id db =
        if task.phaseStatus = .inProgress then guarded env task.phaseId db
        else .error (taskLifecycleFailure id task.phaseId task.phaseStatus) := by
      unfold completeLifecycle lifecycle
      rw [hTask]
    have hSame (task' : ResolvedTaskReference) (db₁ db₂ : Database)
        (h : TaskCompletion env id log db task' db₁ db₂) : task' = task :=
      Option.some.inj (h.resolved.symm.trans hTask)
    have hFallback (phase : Row PhaseData) (db₁ db₂ : Database) :
        ¬ FallbackCompletion env id log db phase db₁ db₂ :=
      fun h => nomatch hTask.symm.trans h.unresolved
    rw [hLifecycle]
    split
    · next hStatus =>
      refine ends_of (fun db₁ hGuard => ?_) fun e hGuard => ⟨⟨rfl, rfl⟩, fun _ _ _ h => ?_, hFallback⟩
      · obtain ⟨_, hEq⟩ := guarded_frame hGuard
        have hWork : SameWork db db₁ := hEq ▸ ⟨rfl, rfl⟩
        have hTask₁ : db₁.resolveTaskReference id = some task := hEq ▸ hTask
        refine (wp_query _).mpr ((wp_query _).mpr ?_)
        rw [hTask₁]
        dsimp only
        rw [Program.wp_bind]
        apply wp_requireTaskApproval
        case hOk =>
          intro db₂ hRecorded hApproved
          obtain ⟨_, hEq₂⟩ := recorded_frame hRecorded
          obtain ⟨row, _, _, hResolves⟩ := resolves_of_resolveTaskReference hTask
          have hRow : db₂.tasks.byId task.rowId = some row := by
            rw [hEq₂, hEq]
            exact hResolves.row_mem
          refine (Program.wp_of_run_ok ((Cmd.run_call _ _ _).trans
            (by rw [exec_completeTaskByRowId hRow]; rfl))).mpr ?_
          exact .inl ⟨task, db₁, db₂, ⟨hTask, hStatus, hGuard, hRecorded, hApproved⟩, rfl⟩
        case hError =>
          intro e hRecorded
          refine ⟨hWork, fun _ db₁' _ h => ?_, hFallback⟩
          obtain rfl := hSame _ _ _ h
          obtain rfl := Except.ok.inj (hGuard.symm.trans h.writable)
          exact nomatch hRecorded.symm.trans h.evidence
        case hRefused =>
          intro e db₂ hRecorded hRefused
          obtain ⟨_, hEq₂⟩ := recorded_frame hRecorded
          refine ⟨hEq₂ ▸ hWork, fun _ db₁' _ h => hRefused ?_, hFallback⟩
          obtain rfl := hSame _ _ _ h
          obtain rfl := Except.ok.inj (hGuard.symm.trans h.writable)
          obtain rfl := Except.ok.inj (hRecorded.symm.trans h.evidence)
          exact h.approved
      · obtain rfl := hSame _ _ _ h
        exact nomatch hGuard.symm.trans h.writable
    · next hStatus =>
      refine ⟨⟨rfl, rfl⟩, fun _ _ _ h => hStatus ?_, hFallback⟩
      rw [← hSame _ _ _ h]
      exact h.inProgress
  | none =>
    have hTaskCompletion (task : ResolvedTaskReference) (db₁ db₂ : Database) :
        ¬ TaskCompletion env id log db task db₁ db₂ :=
      fun h => nomatch hTask.symm.trans h.resolved
    cases hPhase : db.findGoalPhase id with
    | none =>
      have hLifecycle : completeLifecycle env id db = .ok db := by
        unfold completeLifecycle
        rw [hTask, hPhase]
      rw [hLifecycle, ends_ok]
      refine (wp_query _).mpr ((wp_query _).mpr ?_)
      rw [hTask, hPhase]
      exact ⟨⟨rfl, rfl⟩, hTaskCompletion, fun _ _ _ h => nomatch hPhase.symm.trans h.goalPhase⟩
    | some phase =>
      have hLifecycle : completeLifecycle env id db =
          if phase.data.status = .inProgress then guarded env phase.textId db
          else .error (goalLifecycleFailure id phase.textId phase.data.status) := by
        unfold completeLifecycle
        rw [hTask, hPhase]
      have hSame (phase' : Row PhaseData) (db₁ db₂ : Database)
          (h : FallbackCompletion env id log db phase' db₁ db₂) : phase' = phase :=
        Option.some.inj (h.goalPhase.symm.trans hPhase)
      rw [hLifecycle]
      split
      · next hStatus =>
        refine ends_of (fun db₁ hGuard => ?_)
          fun e hGuard => ⟨⟨rfl, rfl⟩, hTaskCompletion, fun _ _ _ h => ?_⟩
        · obtain ⟨_, hEq⟩ := guarded_frame hGuard
          have hWork : SameWork db db₁ := hEq ▸ ⟨rfl, rfl⟩
          have hTask₁ : db₁.resolveTaskReference id = none := hEq ▸ hTask
          have hPhase₁ : db₁.findGoalPhase id = some phase := hEq ▸ hPhase
          have hCount : db₁.pendingCount env.workspaceRoot id = db.pendingCount env.workspaceRoot id :=
            hEq ▸ rfl
          refine (wp_query _).mpr ((wp_query _).mpr ?_)
          rw [hTask₁, hPhase₁]
          dsimp only
          rw [Program.wp_bind, wp_of_outcome run_requireNothingPending, hCount]
          split
          · next hPending =>
            rw [ends_ok, Program.wp_bind]
            apply wp_requireTaskApproval
            case hOk =>
              intro db₂ hRecorded hApproved
              obtain ⟨_, hEq₂⟩ := recorded_frame hRecorded
              obtain ⟨goal, hGoal, -⟩ := Option.bind_eq_some_iff.mp hPhase
              refine (Program.wp_of_run_ok (run_completeGoalAsTask
                (by rw [hEq₂, hEq]; exact hGoal))).mpr ?_
              exact .inr ⟨phase, db₁, db₂,
                ⟨hTask, hPhase, hStatus, hGuard, hPending, hRecorded, hApproved⟩, rfl⟩
            case hError =>
              intro e hRecorded
              refine ⟨hWork, hTaskCompletion, fun _ db₁' _ h => ?_⟩
              obtain rfl := hSame _ _ _ h
              obtain rfl := Except.ok.inj (hGuard.symm.trans h.writable)
              exact nomatch hRecorded.symm.trans h.evidence
            case hRefused =>
              intro e db₂ hRecorded hRefused
              obtain ⟨_, hEq₂⟩ := recorded_frame hRecorded
              refine ⟨hEq₂ ▸ hWork, hTaskCompletion, fun _ db₁' _ h => hRefused ?_⟩
              obtain rfl := hSame _ _ _ h
              obtain rfl := Except.ok.inj (hGuard.symm.trans h.writable)
              obtain rfl := Except.ok.inj (hRecorded.symm.trans h.evidence)
              exact h.approved
          · next hPending =>
            exact ⟨hWork, hTaskCompletion, fun _ _ _ h => hPending h.nothingPending⟩
        · obtain rfl := hSame _ _ _ h
          exact nomatch hGuard.symm.trans h.writable
      · next hStatus =>
        refine ⟨⟨rfl, rfl⟩, hTaskCompletion, fun _ _ _ h => hStatus ?_⟩
        rw [← hSame _ _ _ h]
        exact h.inProgress

end Exosuit.Plan
