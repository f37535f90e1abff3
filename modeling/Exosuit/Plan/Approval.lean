import Exosuit.Plan.Completion

/-!
# The approval that a completion rests on

A completion should rest on a claim about that same task or goal. The claims are
looked up by a type and a string, and `task complete` falls back from the one
type to the other.
-/

namespace Exosuit.Plan

open Lib SqliteWriter

variable {fx : FractionalIndex} {env : Env} {db db' db₁ db₂ : Database} {id log : String}

/-- A person's claim, or an agent's that was acknowledged, about an entity with such an id. -/
def ClaimRecorded (db : Database) (entityType : String) (p : String → Prop) : Prop :=
  ∃ row ∈ db.inbox, ∃ entityId, p entityId ∧ Database.isActiveClaim entityType entityId row = true ∧
    (row.data.agentId = none ∨ row.data.status = .acknowledged)

def IsHandle {δ : Type} (db : Database) (entityType : EntityType) (row : Row δ) (handle : String) :
    Prop := handle = row.textId ∨ handle ∈ db.entityAliasesForRow entityType row.id

def TaskApproved (env : Env) (db : Database) (log : String) (task : Row TaskData) : Prop :=
  env.confirms "task" task.textId log = true ∨ ClaimRecorded db "task" (IsHandle db .task task)

def GoalApproved (env : Env) (db : Database) (log : String) (goal : Row GoalData) : Prop :=
  env.confirms "goal" goal.textId log = true ∨ ClaimRecorded db "goal" (IsHandle db .goal goal)

def TaskBecomesCompleted (db db' : Database) (task : Row TaskData) : Prop :=
  task ∈ db.tasks ∧ task.data.status ≠ .completed ∧
    ∃ task' ∈ db'.tasks, task'.id = task.id ∧ task'.data.status = .completed

def GoalBecomesCompleted (db db' : Database) (goal : Row GoalData) : Prop :=
  goal ∈ db.goals ∧ goal.data.status ≠ .completed ∧
    ∃ goal' ∈ db'.goals, goal'.id = goal.id ∧ goal'.data.status = .completed

/-- What becomes completed from one state to the next was approved in the first. -/
def ApprovedBetween (env : Env) (log : String) (db db' : Database) : Prop :=
  (∀ task, TaskBecomesCompleted db db' task → TaskApproved env db log task) ∧
    ∀ goal, GoalBecomesCompleted db db' goal → GoalApproved env db log goal

/-- The claim's property for one request. -/
def CompletionApproved (fx : FractionalIndex) (db : Database) (request : Request) : Prop :=
  match request.command with
  | .goalComplete _ log =>
    ApprovedBetween request.env log db (dispatchMut fx request.env request.command db).2
  | .taskComplete _ log =>
    ApprovedBetween request.env log db (dispatchMut fx request.env request.command db).2
  | _ => True

/-! ## Claims -/

theorem claimRecorded_of_approves {entityType entityId : String}
    (h : (db.hasCompletionClaim entityType entityId).approves = true) :
    ClaimRecorded db entityType (· = entityId) := by
  unfold Database.hasCompletionClaim at h
  dsimp only at h
  split at h
  · cases h
  · next row hHead =>
    obtain ⟨hMem, hActive⟩ := List.mem_filter.mp (mem_orderBy.mp (List.mem_of_head? hHead))
    refine ⟨row, hMem, entityId, rfl, hActive, ?_⟩
    split at h
    · next hAgent => exact .inl hAgent
    · split at h
      · next hStatus => exact .inr hStatus
      · cases h

theorem not_claimRecorded_of_noClaim {entityType entityId : String}
    (h : db.hasCompletionClaim entityType entityId = .noClaim) :
    ¬ ClaimRecorded db entityType (· = entityId) := by
  rintro ⟨row, hRow, _, rfl, hActive, -⟩
  unfold Database.hasCompletionClaim at h
  dsimp only at h
  split at h
  · next hHead =>
    have hNil := List.head?_eq_none_iff.mp hHead
    exact List.not_mem_nil (hNil ▸ mem_orderBy.mpr (List.mem_filter.mpr ⟨hRow, hActive⟩))
  · split at h
    · cases h
    · split at h <;> cases h

theorem not_taskApproved_of_noClaim {task : Row TaskData}
    (hConfirms : env.confirms "task" task.textId log = false)
    (hClaim : db.hasCompletionClaim "task" task.textId = .noClaim)
    (hAliases : db.entityAliasesForRow .task task.id = []) : ¬ TaskApproved env db log task := by
  rintro (hYes | ⟨row, hRow, entityId, rfl | hAlias, hActive, hHuman⟩)
  · exact nomatch hConfirms.symm.trans hYes
  · exact not_claimRecorded_of_noClaim hClaim ⟨row, hRow, _, rfl, hActive, hHuman⟩
  · exact List.not_mem_nil (hAliases ▸ hAlias)

theorem ClaimRecorded.mono {entityType : String} {p q : String → Prop}
    (h : ClaimRecorded db entityType p) (hpq : ∀ entityId, p entityId → q entityId) :
    ClaimRecorded db entityType q := by
  obtain ⟨row, hRow, entityId, hp, hActive, hHuman⟩ := h
  exact ⟨row, hRow, entityId, hpq entityId hp, hActive, hHuman⟩

theorem claimRecorded_or {entityType : String} {p q : String → Prop}
    (h : ClaimRecorded db entityType fun entityId => p entityId ∨ q entityId) :
    ClaimRecorded db entityType p ∨ ClaimRecorded db entityType q := by
  obtain ⟨row, hRow, entityId, hp | hq, hActive, hHuman⟩ := h
  · exact .inl ⟨row, hRow, entityId, hp, hActive, hHuman⟩
  · exact .inr ⟨row, hRow, entityId, hq, hActive, hHuman⟩

theorem approves_completionClaimForTask {canonicalId : String}
    (h : (db.completionClaimForTask canonicalId id).approves = true) :
    (db.hasCompletionClaim "task" canonicalId).approves = true ∨
      db.hasCompletionClaim "task" canonicalId = .noClaim ∧
        (id ≠ canonicalId ∧ (db.hasCompletionClaim "task" id).approves = true ∨
          (id = canonicalId ∨ db.hasCompletionClaim "task" id = .noClaim) ∧
            (db.hasCompletionClaim "goal" canonicalId).approves = true) := by
  unfold Database.completionClaimForTask at h
  cases hClaim : db.hasCompletionClaim "task" canonicalId with
  | humanClaim => exact .inl rfl
  | agentClaimAcknowledged => exact .inl rfl
  | agentClaimPending =>
    rw [hClaim] at h
    cases h
  | noClaim =>
    rw [hClaim] at h
    refine .inr ⟨rfl, ?_⟩
    by_cases hId : id = canonicalId
    · rw [hId] at h
      simp only [ne_eq, not_true_eq_false, if_false] at h
      exact .inr ⟨.inl hId, h⟩
    · dsimp only at h
      rw [if_pos hId] at h
      cases hReference : db.hasCompletionClaim "task" id with
      | noClaim =>
        rw [hReference] at h
        exact .inr ⟨.inr rfl, h⟩
      | humanClaim => exact .inl ⟨hId, rfl⟩
      | agentClaimAcknowledged => exact .inl ⟨hId, rfl⟩
      | agentClaimPending =>
        rw [hReference] at h
        cases h

/-! ## Evidence about something else -/

/-- Nothing approves the task itself, and what `task complete` finds is a claim under a qualified
reference, or a claim about a goal with the task's id. -/
def StrayTaskEvidence (db : Database) (id : String) (task : Row TaskData) : Prop :=
  db.hasCompletionClaim "task" task.textId = .noClaim ∧
    (¬ IsHandle db .task task id ∧ (db.hasCompletionClaim "task" id).approves = true ∨
      (id = task.textId ∨ db.hasCompletionClaim "task" id = .noClaim) ∧
        (db.hasCompletionClaim "goal" task.textId).approves = true) ∧
    ¬ ClaimRecorded db "task" (· ∈ db.entityAliasesForRow .task task.id)

/-- Nothing approves the goal itself, and what `task complete` finds is a claim about a task. -/
def StrayGoalEvidence (db : Database) (goal : Row GoalData) : Prop :=
  (db.hasCompletionClaim "task" goal.textId).approves = true ∧
    ¬ ClaimRecorded db "goal" (IsHandle db .goal goal)

/-- The request completes something on evidence about something else. -/
def RestsElsewhere (db : Database) (request : Request) : Prop :=
  match request.command with
  | .taskComplete id log =>
    (∃ task db₁ db₂ row, TaskCompletion request.env id log db task db₁ db₂ ∧
      db.tasks.byId task.rowId = some row ∧ row.data.status ≠ .completed ∧
      request.env.confirms "task" row.textId log = false ∧ StrayTaskEvidence db id row) ∨
    ∃ phase db₁ db₂ goal, FallbackCompletion request.env id log db phase db₁ db₂ ∧
      db.goals.byTextId id = some goal ∧ goal.data.status ≠ .completed ∧
      request.env.confirms "goal" goal.textId log = false ∧ StrayGoalEvidence db goal
  | _ => False

theorem strayTaskEvidence_of_approves {task : Row TaskData}
    (hApproved : (db.completionClaimForTask task.textId id).approves = true)
    (hNone : ¬ ClaimRecorded db "task" (IsHandle db .task task)) : StrayTaskEvidence db id task := by
  have hOwn : ¬ (db.hasCompletionClaim "task" task.textId).approves = true := fun h =>
    hNone ((claimRecorded_of_approves h).mono fun _ hEq => .inl hEq)
  have hAliases : ¬ ClaimRecorded db "task" (· ∈ db.entityAliasesForRow .task task.id) := fun h =>
    hNone (h.mono fun _ hMem => .inr hMem)
  obtain h | ⟨hNoClaim, ⟨-, hReference⟩ | hGoal⟩ := approves_completionClaimForTask hApproved
  · exact absurd h hOwn
  · refine ⟨hNoClaim, .inl ⟨fun hHandle => ?_, hReference⟩, hAliases⟩
    exact hNone ((claimRecorded_of_approves hReference).mono fun _ hEq => hEq ▸ hHandle)
  · exact ⟨hNoClaim, .inr hGoal, hAliases⟩

theorem not_claimRecorded_of_stray {task : Row TaskData} (h : StrayTaskEvidence db id task) :
    ¬ ClaimRecorded db "task" (IsHandle db .task task) := by
  intro hRecorded
  rcases claimRecorded_or hRecorded with hOwn | hAlias
  · exact not_claimRecorded_of_noClaim h.1 hOwn
  · exact h.2.2 hAlias

theorem strayGoalEvidence_of_approves {goal : Row GoalData}
    (hApproved : (db.completionClaimForTask goal.textId goal.textId).approves = true)
    (hNone : ¬ ClaimRecorded db "goal" (IsHandle db .goal goal)) : StrayGoalEvidence db goal := by
  refine ⟨?_, hNone⟩
  obtain h | ⟨-, ⟨hNe, -⟩ | ⟨-, hGoal⟩⟩ := approves_completionClaimForTask hApproved
  · exact h
  · exact absurd rfl hNe
  · exact absurd ((claimRecorded_of_approves hGoal).mono fun _ hEq => .inl hEq) hNone

/-! ## What becomes completed -/

theorem not_taskBecomesCompleted_of_same (hSame : db'.tasks = db.tasks) (task : Row TaskData) :
    ¬ TaskBecomesCompleted db db' task := by
  rintro ⟨hTask, hStatus, task', hTask', hId, hDone⟩
  rw [hSame] at hTask'
  exact hStatus (Rows.eq_of_id hTask' hTask hId ▸ hDone)

theorem not_goalBecomesCompleted_of_same (hSame : db'.goals = db.goals) (goal : Row GoalData) :
    ¬ GoalBecomesCompleted db db' goal := by
  rintro ⟨hGoal, hStatus, goal', hGoal', hId, hDone⟩
  rw [hSame] at hGoal'
  exact hStatus (Rows.eq_of_id hGoal' hGoal hId ▸ hDone)

theorem SameWork.approvedBetween (h : SameWork db db') : ApprovedBetween env log db db' :=
  ⟨fun task hBecomes => absurd hBecomes (not_taskBecomesCompleted_of_same h.2 task),
    fun goal hBecomes => absurd hBecomes (not_goalBecomesCompleted_of_same h.1 goal)⟩

theorem id_of_taskBecomesCompleted {rowId : Nat} {now : String} {task : Row TaskData}
    (hTasks : db'.tasks = (completeTask rowId log now db).tasks)
    (h : TaskBecomesCompleted db db' task) : task.id = rowId := by
  obtain ⟨hTask, hStatus, task', hTask', hId, hDone⟩ := h
  rw [hTasks] at hTask'
  obtain ⟨old, hOld, rfl⟩ := Rows.mem_update.mp hTask'
  by_contra hNe
  have hCond : ¬ decide (old.id = rowId) = true := by
    intro hCond
    rw [if_pos hCond] at hId
    exact hNe (hId.symm.trans (of_decide_eq_true hCond))
  rw [if_neg hCond] at hId hDone
  exact hStatus (Rows.eq_of_id hOld hTask hId ▸ hDone)

theorem taskBecomesCompleted_of_byId {rowId : Nat} {task task' : Row TaskData}
    (hTask : db.tasks.byId rowId = some task) (hStatus : task.data.status ≠ .completed)
    (hTask' : db'.tasks.byId rowId = some task') (hDone : task'.data.status = .completed) :
    TaskBecomesCompleted db db' task := by
  obtain ⟨hMem, hId⟩ := Rows.byId_eq_some.mp hTask
  obtain ⟨hMem', hId'⟩ := Rows.byId_eq_some.mp hTask'
  exact ⟨hMem, hStatus, task', hMem', hId'.trans hId.symm, hDone⟩

theorem taskBecomesCompleted_of_update {rowId : Nat} {now : String} {task : Row TaskData}
    (hTask : db.tasks.byId rowId = some task) (hStatus : task.data.status ≠ .completed)
    (hTasks : db'.tasks = (completeTask rowId log now db).tasks) :
    TaskBecomesCompleted db db' task := by
  obtain ⟨hMem, hId⟩ := Rows.byId_eq_some.mp hTask
  refine ⟨hMem, hStatus, ⟨task.id, task.textId, { task.data with
    status := .completed, completionLog := some log, completedAt := some now }⟩, ?_, rfl, rfl⟩
  rw [hTasks]
  exact Rows.mem_update_of_mem hMem (decide_eq_true hId)

theorem textId_of_goalBecomesCompleted {f : GoalData → GoalData} {goal : Row GoalData}
    (hGoals : db'.goals = db.goals.update (fun row => row.textId = id) f)
    (h : GoalBecomesCompleted db db' goal) : goal.textId = id := by
  obtain ⟨hGoal, hStatus, goal', hGoal', hId, hDone⟩ := h
  rw [hGoals] at hGoal'
  obtain ⟨old, hOld, rfl⟩ := Rows.mem_update.mp hGoal'
  by_contra hNe
  have hCond : ¬ decide (old.textId = id) = true := by
    intro hCond
    rw [if_pos hCond] at hId
    exact hNe (Rows.eq_of_id hOld hGoal hId ▸ of_decide_eq_true hCond)
  rw [if_neg hCond] at hId hDone
  exact hStatus (Rows.eq_of_id hOld hGoal hId ▸ hDone)

theorem goalBecomesCompleted_of_update {f : GoalData → GoalData} {goal : Row GoalData}
    (hGoal : db.goals.byTextId id = some goal) (hStatus : goal.data.status ≠ .completed)
    (hf : ∀ data, (f data).status = .completed)
    (hGoals : db'.goals = db.goals.update (fun row => row.textId = id) f) :
    GoalBecomesCompleted db db' goal := by
  obtain ⟨hMem, hText⟩ := Rows.byTextId_eq_some.mp hGoal
  refine ⟨hMem, hStatus, ⟨goal.id, goal.textId, f goal.data⟩, ?_, rfl, hf goal.data⟩
  rw [hGoals]
  exact Rows.mem_update_of_mem hMem (decide_eq_true hText)

theorem evidence_of_not_confirms {entityType entityId phaseId : String}
    (hGuard : guarded env phaseId db = .ok db₁)
    (hRecorded : recorded env entityType entityId log db₁ = .ok db₂)
    (hConfirms : env.confirms entityType entityId log = false) :
    ∃ phaseOwnership, db₂ = { db with phaseOwnership } := by
  rw [recorded_of_not_confirms hConfirms] at hRecorded
  rw [← Except.ok.inj hRecorded]
  exact guarded_frame hGuard

theorem completionApproved_goalComplete :
    ApprovedBetween env log db (dispatchMut fx env (.goalComplete id log) db).2 := by
  refine Program.snd_of_wp (Program.wp_mono wp_goalComplete ?_ fun _ _ h => h.1.approvedBetween)
  rintro _ db' ⟨phase, goal, db₁, db₂, h, rfl⟩
  obtain ⟨_, hEq₁⟩ := guarded_frame h.writable
  obtain ⟨_, hEq₂⟩ := recorded_frame h.evidence
  have hFound := byTextId_of_find? h.found
  refine ⟨fun task hBecomes => ?_, fun goal' hBecomes => ?_⟩
  · exact absurd hBecomes (not_taskBecomesCompleted_of_same (by rw [hEq₂, hEq₁]; rfl) task)
  · obtain ⟨f, -, hGoals⟩ := goals_completeGoal id log db₂
    have hText : goal'.textId = id :=
      textId_of_goalBecomesCompleted (by rw [hGoals, hEq₂, hEq₁]) hBecomes
    cases hConfirms : env.confirms "goal" id log with
    | true => exact .inl (hText ▸ hConfirms)
    | false =>
      obtain ⟨_, rfl⟩ := evidence_of_not_confirms h.writable h.evidence hConfirms
      exact .inr ((claimRecorded_of_approves h.approved).mono fun _ hEq => .inl (hEq.trans hText.symm))

theorem approvedBetween_of_taskCompletion {task : ResolvedTaskReference}
    (h : TaskCompletion env id log db task db₁ db₂)
    (hOwn : ∀ row, db.tasks.byId task.rowId = some row → row.data.status ≠ .completed →
      env.confirms "task" row.textId log = false → ¬ StrayTaskEvidence db id row) :
    ApprovedBetween env log db (completeTask task.rowId log env.now db₂) := by
  obtain ⟨_, hEq₁⟩ := guarded_frame h.writable
  obtain ⟨_, hEq₂⟩ := recorded_frame h.evidence
  obtain ⟨row, _, _, hResolves⟩ := resolves_of_resolveTaskReference h.resolved
  refine ⟨fun row' hBecomes => ?_, fun goal hBecomes => ?_⟩
  · have hId : row'.id = task.rowId := id_of_taskBecomesCompleted
      (by rw [hEq₂, hEq₁]; rfl) hBecomes
    obtain rfl : row' = row := Rows.eq_of_id hBecomes.1 (Rows.byId_eq_some.mp hResolves.row_mem).1
      (hId.trans (Rows.byId_eq_some.mp hResolves.row_mem).2.symm)
    cases hConfirms : env.confirms "task" row'.textId log with
    | true => exact .inl hConfirms
    | false =>
      refine .inr (by_contra fun hNone => ?_)
      obtain ⟨_, rfl⟩ :=
        evidence_of_not_confirms h.writable (hResolves.taskId ▸ h.evidence) hConfirms
      exact hOwn row' hResolves.row_mem hBecomes.2.1 hConfirms
        (strayTaskEvidence_of_approves (hResolves.taskId ▸ h.approved) hNone)
  · exact absurd hBecomes (not_goalBecomesCompleted_of_same (by rw [hEq₂, hEq₁]; rfl) goal)

theorem approvedBetween_of_fallbackCompletion {phase : Row PhaseData}
    (h : FallbackCompletion env id log db phase db₁ db₂)
    (hOwn : ∀ goal, db.goals.byTextId id = some goal → goal.data.status ≠ .completed →
      env.confirms "goal" goal.textId log = false → ¬ StrayGoalEvidence db goal) :
    ApprovedBetween env log db (completeGoalUnderTask id log db₂) := by
  obtain ⟨_, hEq₁⟩ := guarded_frame h.writable
  obtain ⟨_, hEq₂⟩ := recorded_frame h.evidence
  obtain ⟨f, hf, hGoals⟩ := goals_completeGoalUnderTask id log db₂
  refine ⟨fun task hBecomes => ?_, fun goal hBecomes => ?_⟩
  · refine absurd hBecomes (not_taskBecomesCompleted_of_same ?_ task)
    unfold completeGoalUnderTask
    split
    · rw [hEq₂, hEq₁]
    · rw [hEq₂, hEq₁]
      rfl
  · have hText : goal.textId = id :=
      textId_of_goalBecomesCompleted (by rw [hGoals, hEq₂, hEq₁]) hBecomes
    cases hConfirms : env.confirms "goal" id log with
    | true => exact .inl (hText ▸ hConfirms)
    | false =>
      refine .inr (by_contra fun hNone => ?_)
      obtain ⟨_, rfl⟩ := evidence_of_not_confirms h.writable h.evidence hConfirms
      exact hOwn goal (Rows.byTextId_eq_some.mpr ⟨hBecomes.1, hText⟩) hBecomes.2.1 (hText ▸ hConfirms)
        (strayGoalEvidence_of_approves (hText ▸ h.approved) hNone)

/-! ## Runs -/

theorem completionApproved_taskComplete
    (h : ¬ RestsElsewhere db ⟨env, .taskComplete id log⟩) :
    ApprovedBetween env log db (dispatchMut fx env (.taskComplete id log) db).2 := by
  refine Program.snd_of_wp (Program.wp_mono wp_taskComplete ?_ fun _ _ hEnd => hEnd.1.approvedBetween)
  rintro _ _ (⟨task, db₁, db₂, hTask, rfl⟩ | ⟨phase, db₁, db₂, hGoal, rfl⟩)
  · exact approvedBetween_of_taskCompletion hTask fun row hRow hStatus hConfirms hStray =>
      h (.inl ⟨task, db₁, db₂, row, hTask, hRow, hStatus, hConfirms, hStray⟩)
  · exact approvedBetween_of_fallbackCompletion hGoal fun goal hFound hStatus hConfirms hStray =>
      h (.inr ⟨phase, db₁, db₂, goal, hGoal, hFound, hStatus, hConfirms, hStray⟩)

theorem not_approvedBetween_of_strayTask {task : ResolvedTaskReference} {row : Row TaskData}
    (h : TaskCompletion env id log db task db₁ db₂) (hRow : db.tasks.byId task.rowId = some row)
    (hStatus : row.data.status ≠ .completed) (hConfirms : env.confirms "task" row.textId log = false)
    (hStray : StrayTaskEvidence db id row) :
    ¬ ApprovedBetween env log db (completeTask task.rowId log env.now db₂) := by
  obtain ⟨_, hEq₁⟩ := guarded_frame h.writable
  obtain ⟨_, hEq₂⟩ := recorded_frame h.evidence
  intro hApproved
  have hBecomes : TaskBecomesCompleted db (completeTask task.rowId log env.now db₂) row := by
    apply taskBecomesCompleted_of_update hRow hStatus
    rw [hEq₂, hEq₁]
    rfl
  rcases hApproved.1 row hBecomes with hYes | hRecorded
  · exact nomatch hConfirms.symm.trans hYes
  · exact not_claimRecorded_of_stray hStray hRecorded

theorem not_approvedBetween_of_strayGoal {phase : Row PhaseData} {goal : Row GoalData}
    (h : FallbackCompletion env id log db phase db₁ db₂) (hGoal : db.goals.byTextId id = some goal)
    (hStatus : goal.data.status ≠ .completed) (hConfirms : env.confirms "goal" goal.textId log = false)
    (hStray : StrayGoalEvidence db goal) :
    ¬ ApprovedBetween env log db (completeGoalUnderTask id log db₂) := by
  obtain ⟨_, hEq₁⟩ := guarded_frame h.writable
  obtain ⟨_, hEq₂⟩ := recorded_frame h.evidence
  obtain ⟨f, hf, hGoals⟩ := goals_completeGoalUnderTask id log db₂
  intro hApproved
  have hBecomes : GoalBecomesCompleted db (completeGoalUnderTask id log db₂) goal := by
    apply goalBecomesCompleted_of_update hGoal hStatus hf
    rw [hGoals, hEq₂, hEq₁]
  rcases hApproved.2 goal hBecomes with hYes | hRecorded
  · exact nomatch hConfirms.symm.trans hYes
  · exact hStray.2 hRecorded

theorem not_approvedBetween_of_restsElsewhere (h : RestsElsewhere db ⟨env, .taskComplete id log⟩) :
    ¬ ApprovedBetween env log db (dispatchMut fx env (.taskComplete id log) db).2 := by
  refine Program.snd_of_wp (I := fun db' => ¬ ApprovedBetween env log db db')
    (Program.wp_mono wp_taskComplete ?_ ?_)
  · rintro _ _ (⟨task, db₁, db₂, hTask, rfl⟩ | ⟨phase, db₁, db₂, hGoal, rfl⟩)
    · rcases h with ⟨task', _, _, row, h', hRow, hStatus, hConfirms, hStray⟩ | ⟨_, _, _, _, h', -⟩
      · obtain rfl : task' = task := Option.some.inj (h'.resolved.symm.trans hTask.resolved)
        exact not_approvedBetween_of_strayTask hTask hRow hStatus hConfirms hStray
      · exact nomatch h'.unresolved.symm.trans hTask.resolved
    · rcases h with ⟨_, _, _, _, h', -⟩ | ⟨_, _, _, goal, -, hFound, hStatus, hConfirms, hStray⟩
      · exact nomatch h'.resolved.symm.trans hGoal.unresolved
      · exact not_approvedBetween_of_strayGoal hGoal hFound hStatus hConfirms hStray
  · rintro _ _ ⟨-, hTask, hGoal⟩ -
    rcases h with ⟨task, db₁, db₂, _, h', -⟩ | ⟨phase, db₁, db₂, _, h', -⟩
    · exact hTask task db₁ db₂ h'
    · exact hGoal phase db₁ db₂ h'

theorem completionApproved_iff (request : Request) :
    CompletionApproved fx db request ↔ ¬ RestsElsewhere db request := by
  obtain ⟨env, command⟩ := request
  cases command
  case goalComplete id log => exact ⟨fun _ => not_false, fun _ => completionApproved_goalComplete⟩
  case taskComplete id log =>
    exact ⟨fun hApproved h => not_approvedBetween_of_restsElsewhere h hApproved,
      completionApproved_taskComplete⟩
  all_goals exact ⟨fun _ => not_false, fun _ => trivial⟩

/-- Along a run every completion is approved just when none rests on other evidence. -/
theorem along_completionApproved_iff (requests : List Request) :
    Along (step fx) (CompletionApproved fx) db requests ↔
      Along (step fx) (fun db request => ¬ RestsElsewhere db request) db requests :=
  along_congr fun _ => completionApproved_iff

/-- A goal's claim completes the task of the same id under another goal. -/
theorem goal_claim_completes_task :
    ∃ db, run (step sampleIndex) .empty (sampleRequests ++
        [ ⟨sampleEnv "a" "", .goalAdd "t" "Goal" none none none⟩,
          ⟨sampleEnv "a" "", .taskAdd "t" "Task" (some "g1")⟩,
          ⟨confirmingEnv "goal" "t" "Done" "i1", .goalComplete "t" "Done"⟩ ]) = some db ∧
      ¬ CompletionApproved sampleIndex db ⟨sampleEnv "a" "", .taskComplete "t" "Done"⟩ := by
  refine ⟨_, rfl, fun h => ?_⟩
  refine not_taskApproved_of_noClaim rfl rfl rfl
    (h.1 _ (@taskBecomesCompleted_of_byId _ _ 1 _ _ rfl ?_ rfl rfl))
  decide

end Exosuit.Plan
