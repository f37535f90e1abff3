import Exosuit.Plan.WriterSpec

/-!
# Writes that spare a phase

A write that names another phase, or a goal or task of another phase, leaves a phase as it is: its
row, its owner, its goals and their tasks.
-/

namespace Exosuit.Plan

open Lib PhaseOwner SqliteWriter

variable {fx : FractionalIndex} {phaseId : Nat} {db db' db'' : Database}

/-! ## Rows that a write passes over -/

section

variable {δ : Type} {t t' : Rows δ} {C : Row δ → Prop} {r : Row δ}

theorem mem_update_iff {p : Row δ → Bool} {f : δ → δ}
    (hOther : ∀ a ∈ t, p a = true → ¬ C a ∧ ¬ C { a with data := f a.data }) (hC : C r) :
    r ∈ t.update p f ↔ r ∈ t := by
  rw [Rows.mem_update]
  constructor
  · rintro ⟨a, ha, rfl⟩
    split at hC
    · next hp => exact absurd hC (hOther a ha hp).2
    · next hp =>
      rw [if_neg hp]
      exact ha
  · intro hr
    refine ⟨r, hr, ?_⟩
    split
    · next hp => exact absurd hC (hOther r hr hp).1
    · rfl

theorem mem_filter_iff {p : Row δ → Bool} (hOther : ∀ a ∈ t, p a = true → ¬ C a) (hC : C r) :
    (r ∈ t.filter fun a => !p a) ↔ r ∈ t := by
  rw [Rows.mem_filter, Bool.not_eq_true']
  exact ⟨And.left, fun hr => ⟨hr, Bool.eq_false_of_not_eq_true fun hp => hOther r hr hp hC⟩⟩

theorem mem_insert_iff {textId : String} {data : δ} (h : t.insert textId data = some t')
    (hOther : ¬ C ⟨t.nextId, textId, data⟩) (hC : C r) : r ∈ t' ↔ r ∈ t := by
  rw [Rows.mem_of_insert h]
  exact or_iff_left fun hEq => hOther (hEq ▸ hC)

theorem mem_setTextId_iff {id : Nat} {textId : String} (h : t.setTextId id textId = some t')
    (hOther : ∀ a ∈ t, a.id = id → ¬ C a ∧ ¬ C { a with textId }) (hC : C r) : r ∈ t' ↔ r ∈ t := by
  rw [Rows.mem_of_setTextId h]
  constructor
  · rintro ⟨a, ha, rfl⟩
    split at hC
    · next hId => exact absurd hC (hOther a ha hId).2
    · next hId =>
      rw [if_neg hId]
      exact ha
  · intro hr
    refine ⟨r, hr, ?_⟩
    split
    · next hId => exact absurd hC (hOther r hr hId).1
    · rfl

theorem byId_congr {id : Nat} (h : ∀ r, r.id = id → (r ∈ t' ↔ r ∈ t)) : t'.byId id = t.byId id := by
  ext r
  rw [Rows.byId_eq_some, Rows.byId_eq_some]
  exact and_congr_left fun hId => h r hId

theorem map_textId_update (p : Row δ → Bool) (f : δ → δ) (id : Nat) :
    ((t.update p f).byId id).map Row.textId = (t.byId id).map Row.textId := by
  rw [Rows.byId_update, Option.map_map]
  congr 1
  funext r
  rw [Function.comp_apply]
  split <;> rfl

end

/-! ## What belongs to a phase -/

def Database.InPhase (db : Database) (phaseId goalId : Nat) : Prop :=
  ∃ goal ∈ db.goals, goal.id = goalId ∧ goal.data.phaseId = phaseId

/-- The phase, its owner, its goals and their tasks are as they were. -/
structure Spared (phaseId : Nat) (db db' : Database) : Prop where
  phase : db'.phases.byId phaseId = db.phases.byId phaseId
  owner : db'.phaseOwnership.lookup phaseId = db.phaseOwnership.lookup phaseId
  goals : ∀ goal : Row GoalData, goal.data.phaseId = phaseId → (goal ∈ db'.goals ↔ goal ∈ db.goals)
  tasks : ∀ task : Row TaskData, db.InPhase phaseId task.data.goalId → (task ∈ db'.tasks ↔ task ∈ db.tasks)
  /-- the text id of its epoch -/
  epoch : ∀ phase, db.phases.byId phaseId = some phase →
    (db'.epochs.byId phase.data.epochId).map Row.textId = (db.epochs.byId phase.data.epochId).map Row.textId

theorem Spared.refl (phaseId : Nat) (db : Database) : Spared phaseId db db :=
  ⟨rfl, rfl, fun _ _ => Iff.rfl, fun _ _ => Iff.rfl, fun _ _ => rfl⟩

theorem Spared.inPhase (h : Spared phaseId db db') {goalId : Nat} :
    db'.InPhase phaseId goalId ↔ db.InPhase phaseId goalId := by
  constructor
  · rintro ⟨goal, hGoal, hId, hPhase⟩
    exact ⟨goal, (h.goals goal hPhase).mp hGoal, hId, hPhase⟩
  · rintro ⟨goal, hGoal, hId, hPhase⟩
    exact ⟨goal, (h.goals goal hPhase).mpr hGoal, hId, hPhase⟩

theorem Spared.symm (h : Spared phaseId db db') : Spared phaseId db' db where
  phase := h.phase.symm
  owner := h.owner.symm
  goals goal hPhase := (h.goals goal hPhase).symm
  tasks task hIn := (h.tasks task (h.inPhase.mp hIn)).symm
  epoch phase hPhase := (h.epoch phase (h.phase.symm.trans hPhase)).symm

theorem Spared.trans (h : Spared phaseId db db') (h' : Spared phaseId db' db'') : Spared phaseId db db'' where
  phase := h'.phase.trans h.phase
  owner := h'.owner.trans h.owner
  goals goal hPhase := (h'.goals goal hPhase).trans (h.goals goal hPhase)
  tasks task hIn := (h'.tasks task (h.inPhase.mpr hIn)).trans (h.tasks task hIn)
  epoch phase hPhase := (h'.epoch phase (h.phase.trans hPhase)).trans (h.epoch phase hPhase)

/-- The rule for the writes that leave the tables of a phase alone. -/
theorem Spared.congr (hPhases : db'.phases = db.phases) (hOwners : db'.phaseOwnership = db.phaseOwnership)
    (hGoals : db'.goals = db.goals) (hTasks : db'.tasks = db.tasks) (hEpochs : db'.epochs = db.epochs) :
    Spared phaseId db db' := by
  refine ⟨?_, ?_, fun _ _ => ?_, fun _ _ => ?_, fun _ _ => ?_⟩
  · rw [hPhases]
  · rw [hOwners]
  · rw [hGoals]
  · rw [hTasks]
  · rw [hEpochs]

/-- The phase is there, and so is its epoch. -/
def Placed (phaseId : Nat) (db : Database) : Prop :=
  ∃ phase epoch, db.phases.byId phaseId = some phase ∧ db.epochs.byId phase.data.epochId = some epoch

theorem Placed.mono (h : Placed phaseId db) (hSpared : Spared phaseId db db') : Placed phaseId db' := by
  obtain ⟨phase, epoch, hPhase, hEpoch⟩ := h
  have hText := hSpared.epoch phase hPhase
  rw [hEpoch, Option.map_some] at hText
  obtain ⟨epoch', hEpoch', -⟩ := Option.map_eq_some_iff.mp hText
  exact ⟨phase, epoch', hSpared.phase.trans hPhase, hEpoch'⟩

/-! ## One table at a time -/

theorem Spared.ofEpochs {epochs : Rows EpochData}
    (h : ∀ phase, db.phases.byId phaseId = some phase →
      (epochs.byId phase.data.epochId).map Row.textId = (db.epochs.byId phase.data.epochId).map Row.textId) :
    Spared phaseId db { db with epochs } :=
  ⟨rfl, rfl, fun _ _ => Iff.rfl, fun _ _ => Iff.rfl, h⟩

theorem Spared.updateEpochs (p : Row EpochData → Bool) (f : EpochData → EpochData) :
    Spared phaseId db { db with epochs := db.epochs.update p f } :=
  .ofEpochs fun _ _ => map_textId_update p f _

theorem Spared.ofPhases {phases : Rows PhaseData} (h : phases.byId phaseId = db.phases.byId phaseId) :
    Spared phaseId db { db with phases } :=
  ⟨h, rfl, fun _ _ => Iff.rfl, fun _ _ => Iff.rfl, fun _ _ => rfl⟩

theorem Spared.updatePhases {p : Row PhaseData → Bool} {f : PhaseData → PhaseData}
    (h : ∀ phase, db.phases.byId phaseId = some phase → p phase = false) :
    Spared phaseId db { db with phases := db.phases.update p f } := by
  refine .ofPhases (byId_congr fun r hId => mem_update_iff (C := fun a => a.id = phaseId)
    (fun a ha hp => ?_) hId)
  have hNe : a.id ≠ phaseId := fun hId' => by
    rw [h a (Rows.byId_eq_some.mpr ⟨ha, hId'⟩)] at hp
    cases hp
  exact ⟨hNe, hNe⟩

theorem Spared.ofOwners {phaseOwnership : Table Nat PhaseOwnerData}
    (h : phaseOwnership.lookup phaseId = db.phaseOwnership.lookup phaseId) :
    Spared phaseId db { db with phaseOwnership } :=
  ⟨rfl, h, fun _ _ => Iff.rfl, fun _ _ => Iff.rfl, fun _ _ => rfl⟩

theorem Spared.ofGoals {goals : Rows GoalData}
    (h : ∀ goal : Row GoalData, goal.data.phaseId = phaseId → (goal ∈ goals ↔ goal ∈ db.goals)) :
    Spared phaseId db { db with goals } :=
  ⟨rfl, rfl, h, fun _ _ => Iff.rfl, fun _ _ => rfl⟩

theorem Spared.ofTasks {tasks : Rows TaskData}
    (h : ∀ task : Row TaskData, db.InPhase phaseId task.data.goalId → (task ∈ tasks ↔ task ∈ db.tasks)) :
    Spared phaseId db { db with tasks } :=
  ⟨rfl, rfl, fun _ _ => Iff.rfl, h, fun _ _ => rfl⟩

/-! ## Deletions -/

theorem Spared.deleteTasks {p : Row TaskData → Bool}
    (h : ∀ task ∈ db.tasks, p task = true → ¬ db.InPhase phaseId task.data.goalId) :
    Spared phaseId db (db.deleteTasks p) :=
  ⟨rfl, rfl, fun _ _ => Iff.rfl,
    fun _ hIn => mem_filter_iff (C := fun task => db.InPhase phaseId task.data.goalId) h hIn, fun _ _ => rfl⟩

theorem Spared.deleteGoals {p : Row GoalData → Bool}
    (h : ∀ goal ∈ db.goals, p goal = true → goal.data.phaseId ≠ phaseId) :
    Spared phaseId db (db.deleteGoals p) := by
  have hGoals : Spared phaseId db { db with goals := db.goals.filter fun g => !p g } :=
    .ofGoals fun goal hPhase => mem_filter_iff (C := fun goal => goal.data.phaseId = phaseId) h hPhase
  refine hGoals.trans (Spared.deleteTasks fun task _ hDoomed hIn => ?_)
  obtain ⟨goal, hGoal, hId, hPhase⟩ := hGoals.inPhase.mp hIn
  rw [List.any_eq_true] at hDoomed
  obtain ⟨doomed, hDoomed, hBoth⟩ := hDoomed
  rw [Bool.and_eq_true, beq_iff_eq] at hBoth
  have hSame := Rows.eq_of_id hDoomed hGoal (hBoth.1.trans hId.symm)
  exact h goal hGoal (hSame ▸ hBoth.2) hPhase

theorem Spared.deletePhases {p : Row PhaseData → Bool}
    (h : ∀ phase, db.phases.byId phaseId = some phase → p phase = false)
    (hOk : db.deletePhases p = some db') :
    Spared phaseId db db' := by
  obtain ⟨-, rfl⟩ := deletePhases_eq_some hOk
  have hKept : doomedPhase p db phaseId = false := by
    rw [doomedPhase, List.any_eq_false]
    intro phase hPhase hBoth
    rw [Bool.and_eq_true, beq_iff_eq] at hBoth
    rw [h phase (Rows.byId_eq_some.mpr ⟨hPhase, hBoth.1⟩)] at hBoth
    exact Bool.false_ne_true hBoth.2
  have hPhases : Spared phaseId db { db with
      phases := db.phases.filter fun phase => !p phase
      phaseOwnership := db.phaseOwnership.retain fun id _ => !doomedPhase p db id
      workspaceActivePhase := db.workspaceActivePhase.retain fun _ id => !doomedPhase p db id
      phaseRfcs := db.phaseRfcs.filter fun row => !doomedPhase p db row.1 } := by
    refine ⟨?_, ?_, fun _ _ => Iff.rfl, fun _ _ => Iff.rfl, fun _ _ => rfl⟩
    · refine byId_congr fun r hId => mem_filter_iff (C := fun a => a.id = phaseId)
        (fun a ha hp hId' => ?_) hId
      rw [h a (Rows.byId_eq_some.mpr ⟨ha, hId'⟩)] at hp
      cases hp
    · dsimp only
      rw [Table.lookup_retain, hKept]
      cases db.phaseOwnership.lookup phaseId <;> rfl
  refine hPhases.trans (Spared.deleteGoals fun goal _ hDoomed hPhase => ?_)
  rw [hPhase, hKept] at hDoomed
  cases hDoomed

theorem Spared.deleteEntityAliases (entityType : EntityType) (rowId : Nat) :
    Spared phaseId db (deleteEntityAliases entityType rowId db) := by
  cases entityType <;> exact .congr rfl rfl rfl rfl rfl

/-! ## Calls that name something else -/

def OtherEpoch (phaseId : Nat) (db : Database) (textId : String) : Prop :=
  ∀ epoch phase, db.epochs.byTextId textId = some epoch → db.phases.byId phaseId = some phase →
    phase.data.epochId ≠ epoch.id

def OtherPhase (phaseId : Nat) (db : Database) (textId : String) : Prop :=
  ∀ phase, db.phases.byTextId textId = some phase → phase.id ≠ phaseId

def OtherGoal (phaseId : Nat) (db : Database) (textId : String) : Prop :=
  ∀ goal, db.goals.byTextId textId = some goal → goal.data.phaseId ≠ phaseId

def OtherTask (phaseId : Nat) (db : Database) (rowId : Nat) : Prop :=
  ∀ task, db.tasks.byId rowId = some task → ¬ db.InPhase phaseId task.data.goalId

def Misses (phaseId : Nat) (db : Database) : WriterCall → Prop
  | .removeEpoch textId => OtherEpoch phaseId db textId
  | .bankruptEpoch textId => OtherEpoch phaseId db textId
  | .removePhase textId => OtherPhase phaseId db textId
  | .updatePhaseStatus textId _ _ => OtherPhase phaseId db textId
  | .updatePhaseTitle textId _ => OtherPhase phaseId db textId
  | .reorderPhase textId _ => OtherPhase phaseId db textId
  | .movePhaseToEpoch textId _ _ => OtherPhase phaseId db textId
  | .completePhaseAndClearLaneFocus textId _ => OtherPhase phaseId db textId
  | .claimPhaseOwnerIfCurrent textId _ _ _ => OtherPhase phaseId db textId
  | .clearPhaseOwner textId => OtherPhase phaseId db textId
  | .clearPhaseOwnerIfCurrent textId _ => OtherPhase phaseId db textId
  | .addGoal phaseTextId _ _ _ _ => OtherPhase phaseId db phaseTextId
  | .removeGoal textId => OtherGoal phaseId db textId
  | .updateGoalStatus textId _ => OtherGoal phaseId db textId
  | .updateGoalLabel textId _ => OtherGoal phaseId db textId
  | .updateGoalCompletionLog textId _ => OtherGoal phaseId db textId
  | .reorderGoal textId _ => OtherGoal phaseId db textId
  | .moveGoalToPhasePosition textId phaseTextId _ =>
    OtherGoal phaseId db textId ∧ OtherPhase phaseId db phaseTextId
  | .addTask goalTextId _ _ _ => OtherGoal phaseId db goalTextId
  | .renameTaskHandle rowId _ _ => OtherTask phaseId db rowId
  | .removeTaskByRowId rowId => OtherTask phaseId db rowId
  | .updateTaskStatusByRowId rowId _ _ => OtherTask phaseId db rowId
  | .updateTaskTitleByRowId rowId _ => OtherTask phaseId db rowId
  | .completeTaskByRowId rowId _ _ => OtherTask phaseId db rowId
  | .reorderTaskByRowId rowId _ => OtherTask phaseId db rowId
  | _ => True

theorem OtherPhase.mono {textId : String} (h : OtherPhase phaseId db textId)
    (hSpared : Spared phaseId db db') :
    OtherPhase phaseId db' textId := by
  intro phase hPhase hId
  obtain ⟨hMem, hText⟩ := Rows.byTextId_eq_some.mp hPhase
  have hOld := Rows.byId_eq_some.mp (hSpared.phase.symm.trans (Rows.byId_eq_some.mpr ⟨hMem, hId⟩))
  exact h phase (Rows.byTextId_eq_some.mpr ⟨hOld.1, hText⟩) hId

theorem OtherGoal.mono {textId : String} (h : OtherGoal phaseId db textId) (hSpared : Spared phaseId db db') :
    OtherGoal phaseId db' textId := by
  intro goal hGoal hPhase
  obtain ⟨hMem, hText⟩ := Rows.byTextId_eq_some.mp hGoal
  exact h goal (Rows.byTextId_eq_some.mpr ⟨(hSpared.goals goal hPhase).mp hMem, hText⟩) hPhase

theorem OtherTask.mono {rowId : Nat} (h : OtherTask phaseId db rowId) (hSpared : Spared phaseId db db') :
    OtherTask phaseId db' rowId := by
  intro task hTask hIn
  obtain ⟨hMem, hId⟩ := Rows.byId_eq_some.mp hTask
  have hOld := hSpared.inPhase.mp hIn
  exact h task (Rows.byId_eq_some.mpr ⟨(hSpared.tasks task hOld).mp hMem, hId⟩) hOld

/-! ## The writes -/

theorem Spared.updatePhase {textId : String} {f : PhaseData → PhaseData} (h : OtherPhase phaseId db textId) :
    Spared phaseId db { db with phases := db.phases.update (fun row => row.textId = textId) f } := by
  refine .updatePhases fun phase hPhase => decide_eq_false fun hText => ?_
  obtain ⟨hMem, hId⟩ := Rows.byId_eq_some.mp hPhase
  exact h phase (Rows.byTextId_eq_some.mpr ⟨hMem, hText⟩) hId

theorem Spared.updateGoals {p : Row GoalData → Bool} {f : GoalData → GoalData}
    (h : ∀ goal ∈ db.goals, p goal = true → goal.data.phaseId ≠ phaseId ∧ (f goal.data).phaseId ≠ phaseId) :
    Spared phaseId db { db with goals := db.goals.update p f } :=
  .ofGoals fun _ hPhase => mem_update_iff (C := fun goal => goal.data.phaseId = phaseId) h hPhase

theorem Spared.updateGoal {textId : String} {f : GoalData → GoalData} (h : OtherGoal phaseId db textId)
    (hf : ∀ data, (f data).phaseId = data.phaseId) :
    Spared phaseId db { db with goals := db.goals.update (fun row => row.textId = textId) f } := by
  refine .updateGoals fun goal hGoal hText => ?_
  have hNe := h goal (Rows.byTextId_eq_some.mpr ⟨hGoal, of_decide_eq_true hText⟩)
  exact ⟨hNe, (hf _).symm ▸ hNe⟩

theorem Spared.updateTasks {p : Row TaskData → Bool} {f : TaskData → TaskData}
    (h : ∀ task ∈ db.tasks, p task = true → ¬ db.InPhase phaseId task.data.goalId)
    (hf : ∀ data, (f data).goalId = data.goalId) :
    Spared phaseId db { db with tasks := db.tasks.update p f } := by
  refine .ofTasks fun task hIn => mem_update_iff (C := fun task => db.InPhase phaseId task.data.goalId)
    (fun other hOther hp => ?_) hIn
  have hNot := h other hOther hp
  exact ⟨hNot, by dsimp only; rw [hf]; exact hNot⟩

theorem Spared.updateTask {rowId : Nat} {f : TaskData → TaskData} (h : OtherTask phaseId db rowId)
    (hf : ∀ data, (f data).goalId = data.goalId) :
    Spared phaseId db { db with tasks := db.tasks.update (fun row => row.id = rowId) f } :=
  .updateTasks (fun task hTask hId => h task (Rows.byId_eq_some.mpr ⟨hTask, of_decide_eq_true hId⟩)) hf

theorem Spared.clearPhaseFocus (id : Nat) (h : Spared phaseId db db') :
    Spared phaseId db (clearPhaseFocus id db') :=
  h.trans (.congr rfl rfl rfl rfl rfl)

section

variable {textId : String}

theorem Spared.removeEpoch (h : OtherEpoch phaseId db textId)
    (hOk : SqliteWriter.removeEpoch textId db = .ok db') :
    Spared phaseId db db' := by
  obtain ⟨epoch, hEpoch, hDelete⟩ := removeEpoch_eq_ok hOk
  have hAliases : Spared phaseId db (SqliteWriter.deleteEntityAliases .epoch epoch.id db) :=
    .deleteEntityAliases _ _
  refine hAliases.trans ?_
  have hEpochs : (SqliteWriter.deleteEntityAliases .epoch epoch.id db).epochs = db.epochs := rfl
  have hNe : ∀ phase, db.phases.byId phaseId = some phase → ∀ row ∈ db.epochs, row.textId = textId →
      row.id ≠ phase.data.epochId := by
    intro phase hPhase row hRow hText hId
    have hFound := Rows.byTextId_eq_some.mpr ⟨hRow, hText⟩
    exact h row phase hFound hPhase hId.symm
  refine Spared.trans (.ofEpochs fun phase hPhase => ?_) (.deletePhases (fun phase hPhase => ?_)
    (deleteEpochs_eq_some hDelete))
  · rw [hEpochs]
    congr 1
    refine byId_congr fun row hId => mem_filter_iff (C := fun row => row.id = phase.data.epochId)
      (fun other hOther hText => hNe phase hPhase other hOther (of_decide_eq_true hText)) hId
  · rw [List.any_eq_false]
    intro row hRow hBoth
    rw [Bool.and_eq_true, beq_iff_eq] at hBoth
    exact hNe phase hPhase row hRow (of_decide_eq_true hBoth.2) hBoth.1

theorem Spared.bankruptEpoch (h : OtherEpoch phaseId db textId)
    (hOk : SqliteWriter.bankruptEpoch textId db = .ok db') : Spared phaseId db db' := by
  obtain ⟨epoch, hEpoch, rfl⟩ := bankruptEpoch_eq_ok hOk
  have hPhases : Spared phaseId db { db with phases := bankruptPhases epoch.id db } := by
    refine .updatePhases fun phase hPhase => ?_
    rw [decide_eq_false (h epoch phase hEpoch hPhase), Bool.false_and]
  refine hPhases.trans (Spared.trans (.updateGoals (p := fun row =>
    (db.phases.byId row.data.phaseId).any (fun phase => phase.data.epochId = epoch.id) &&
      isOpen row.data.status) (f := fun data => { data with status := .abandoned }) ?_)
        (.congr rfl rfl rfl rfl rfl))
  intro goal _ hGoal
  have hNe : goal.data.phaseId ≠ phaseId := by
    intro hId
    rw [hId, Bool.and_eq_true, Option.any_eq_true] at hGoal
    obtain ⟨⟨phase, hPhase, hEpochId⟩, -⟩ := hGoal
    exact h epoch phase hEpoch hPhase (of_decide_eq_true hEpochId)
  exact ⟨hNe, hNe⟩

theorem Spared.updatePhaseStatus {status now : String} (h : OtherPhase phaseId db textId)
    (hOk : SqliteWriter.updatePhaseStatus textId status now db = .ok db') : Spared phaseId db db' := by
  obtain ⟨phase, newStatus, phases, -, -, rfl, rfl⟩ := updatePhaseStatus_eq_ok hOk
  split
  · exact (Spared.updatePhase h).clearPhaseFocus phase.id
  · exact .updatePhase h

theorem Spared.removePhase (h : OtherPhase phaseId db textId)
    (hOk : SqliteWriter.removePhase textId db = .ok db') :
    Spared phaseId db db' := by
  obtain ⟨phase, -, hDelete⟩ := removePhase_eq_ok hOk
  have hAliases : Spared phaseId db (SqliteWriter.deleteEntityAliases .phase phase.id db) :=
    .deleteEntityAliases _ _
  refine hAliases.trans (.deletePhases (fun row hRow => decide_eq_false fun hText => ?_) hDelete)
  obtain ⟨hMem, hId⟩ := Rows.byId_eq_some.mp (hAliases.phase.symm.trans hRow)
  exact h row (Rows.byTextId_eq_some.mpr ⟨hMem, hText⟩) hId

theorem Spared.movePhaseToEpoch {epochTextId : String} {position : Option String}
    (h : OtherPhase phaseId db textId)
    (hOk : SqliteWriter.movePhaseToEpoch fx textId epochTextId position db = .ok db') :
    Spared phaseId db db' := by
  obtain ⟨epoch, sortKey, -, rfl⟩ := movePhaseToEpoch_eq_ok hOk
  exact .updatePhase h

theorem Spared.completePhaseAndClearLaneFocus {now : String} (h : OtherPhase phaseId db textId)
    (hOk : SqliteWriter.completePhaseAndClearLaneFocus textId now db = .ok db') : Spared phaseId db db' := by
  obtain ⟨phase, hPhase, rfl⟩ := completePhaseAndClearLaneFocus_eq_ok hOk
  refine Spared.clearPhaseFocus phase.id (.updatePhases fun row hRow => decide_eq_false fun hId => ?_)
  exact h phase hPhase (hId.symm.trans (Rows.byId_eq_some.mp hRow).2)

theorem Spared.addPhase {epochTextId title : String} {kind : PhaseKind} (hPlaced : Placed phaseId db)
    (hOk : SqliteWriter.addPhase fx textId epochTextId title kind db = .ok db') : Spared phaseId db db' := by
  obtain ⟨epoch, sortKey, phases, -, hInsert, rfl⟩ := addPhase_eq_ok hOk
  obtain ⟨phase, -, hPhase, -⟩ := hPlaced
  obtain ⟨hMem, hId⟩ := Rows.byId_eq_some.mp hPhase
  refine .ofPhases
    (byId_congr fun row hRow => mem_insert_iff (C := fun row => row.id = phaseId) hInsert ?_ hRow)
  have hLt := Rows.lt_nextId hMem
  dsimp only
  omega

theorem Spared.addEpoch {title : String} (hPlaced : Placed phaseId db)
    (hOk : SqliteWriter.addEpoch fx textId title db = .ok db') : Spared phaseId db db' := by
  obtain ⟨sortKey, epochs, hInsert, rfl⟩ := addEpoch_eq_ok hOk
  obtain ⟨placed, epoch, hPlaced, hEpoch⟩ := hPlaced
  refine .ofEpochs fun phase hPhase => congrArg _ ?_
  obtain rfl : placed = phase := Option.some.inj (hPlaced.symm.trans hPhase)
  obtain ⟨hMem, hId⟩ := Rows.byId_eq_some.mp hEpoch
  refine byId_congr fun row hRow => mem_insert_iff
    (C := fun row => row.id = placed.data.epochId) hInsert ?_ hRow
  have hLt := Rows.lt_nextId hMem
  dsimp only
  omega

theorem Spared.setOwner {phase : Row PhaseData} (h : OtherPhase phaseId db textId)
    (hPhase : db.phases.byTextId textId = some phase) (owner : PhaseOwnerData) :
    Spared phaseId db { db with phaseOwnership := db.phaseOwnership.insert phase.id owner } := by
  refine .ofOwners ?_
  rw [Table.lookup_insert, if_neg (h phase hPhase).symm]

theorem Spared.eraseOwner {phase : Row PhaseData} (h : OtherPhase phaseId db textId)
    (hPhase : db.phases.byTextId textId = some phase) :
    Spared phaseId db { db with phaseOwnership := db.phaseOwnership.erase phase.id } := by
  refine .ofOwners ?_
  rw [Table.lookup_erase, if_neg (h phase hPhase).symm]

theorem Spared.addGoal {goalId label : String} {rfc : Option String} {targetStage : Option Nat}
    (h : OtherPhase phaseId db textId)
    (hOk : SqliteWriter.addGoal fx textId goalId label rfc targetStage db = .ok db') :
    Spared phaseId db db' := by
  obtain ⟨phase, sortKey, goals, hPhase, hInsert, rfl⟩ := addGoal_eq_ok hOk
  exact .ofGoals fun goal hGoal => mem_insert_iff (C := fun goal => goal.data.phaseId = phaseId) hInsert
    (h phase hPhase) hGoal

theorem Spared.removeGoal (h : OtherGoal phaseId db textId)
    (hOk : SqliteWriter.removeGoal textId db = .ok db') :
    Spared phaseId db db' := by
  obtain ⟨goal, -, rfl⟩ := removeGoal_eq_ok hOk
  have hAliases : Spared phaseId db (SqliteWriter.deleteEntityAliases .goal goal.id db) :=
    .deleteEntityAliases _ _
  refine hAliases.trans (.deleteGoals fun goal hGoal hText => ?_)
  exact h goal (Rows.byTextId_eq_some.mpr ⟨hGoal, of_decide_eq_true hText⟩)

theorem Spared.moveGoalToPhasePosition {phaseTextId : String} {position : Option String}
    (h : OtherGoal phaseId db textId) (hTarget : OtherPhase phaseId db phaseTextId)
    (hOk : SqliteWriter.moveGoalToPhasePosition fx textId phaseTextId position db = .ok db') :
    Spared phaseId db db' := by
  obtain ⟨phase, goal, sortKey, hPhase, -, rfl⟩ := moveGoalToPhasePosition_eq_ok hOk
  refine .updateGoals fun goal hGoal hText => ⟨?_, hTarget phase hPhase⟩
  exact h goal (Rows.byTextId_eq_some.mpr ⟨hGoal, of_decide_eq_true hText⟩)

theorem Spared.addTask {taskId title : String} {notes : Option String} (h : OtherGoal phaseId db textId)
    (hOk : SqliteWriter.addTask fx textId taskId title notes db = .ok db') : Spared phaseId db db' := by
  obtain ⟨goal, sortKey, tasks, hGoal, -, hInsert, rfl⟩ := addTask_eq_ok hOk
  refine .ofTasks fun task hTask => mem_insert_iff (C := fun task => db.InPhase phaseId task.data.goalId)
    hInsert ?_ hTask
  rintro ⟨other, hOther, hId, hPhase⟩
  obtain ⟨hMem, -⟩ := Rows.byTextId_eq_some.mp hGoal
  exact h goal hGoal (Rows.eq_of_id hOther hMem hId ▸ hPhase)

end

section

variable {rowId : Nat}

theorem Spared.renameTaskHandle {oldTaskId newTaskId : String} (h : OtherTask phaseId db rowId)
    (hOk : SqliteWriter.renameTaskHandle rowId oldTaskId newTaskId db = .ok db') : Spared phaseId db db' := by
  obtain ⟨task, goal, tasks, inbox, hTask, -, -, hTasks, -, rfl⟩ := renameTaskHandle_eq_ok hOk
  have hRenamed : Spared phaseId db { db with tasks } := by
    refine .ofTasks fun row hIn => mem_setTextId_iff
      (C := fun row => db.InPhase phaseId row.data.goalId) hTasks
      (fun other hOther hId => ?_) hIn
    have hNot := h other (Rows.byId_eq_some.mpr ⟨hOther, hId⟩)
    exact ⟨hNot, hNot⟩
  exact hRenamed.trans (.congr rfl rfl rfl rfl rfl)

theorem Spared.removeTaskByRowId (h : OtherTask phaseId db rowId) :
    Spared phaseId db (SqliteWriter.removeTaskByRowId rowId db).2 := by
  rw [removeTaskByRowId_snd]
  have hAliases : Spared phaseId db (db.deleteAliases .task fun id => id = rowId) :=
    .congr rfl rfl rfl rfl rfl
  refine hAliases.trans (.deleteTasks fun task hTask hId hIn => ?_)
  exact h task (Rows.byId_eq_some.mpr ⟨hTask, of_decide_eq_true hId⟩) (hAliases.inPhase.mp hIn)

theorem Spared.reorderTaskByRowId {position : String} (h : OtherTask phaseId db rowId)
    (hOk : SqliteWriter.reorderTaskByRowId fx rowId position db = .ok db') : Spared phaseId db db' := by
  obtain ⟨task, sortKey, hTask, rfl⟩ := reorderTaskByRowId_eq_ok hOk
  refine .updateTasks (fun row hRow hText => ?_) fun _ => rfl
  obtain ⟨hMem, -⟩ := Rows.byId_eq_some.mp hTask
  obtain rfl := Rows.eq_of_textId hRow hMem (of_decide_eq_true hText)
  exact h row hTask

end

theorem Spared.exec (hPlaced : Placed phaseId db) (op : WriterCall) (h : Misses phaseId db op) :
    Spared phaseId db (op.exec fx db).2 := by
  have hRefl := Spared.refl phaseId db
  cases op with
  | addEpoch textId title => exact commit_snd hRefl fun _ => .addEpoch hPlaced
  | removeEpoch textId => exact commit_snd hRefl fun _ => .removeEpoch h
  | updateEpochReviewed textId reviewed =>
    refine commit_snd hRefl fun db' hOk => ?_
    obtain rfl := updateEpochReviewed_eq_ok hOk
    exact .updateEpochs _ _
  | updateEpochTitle textId title =>
    refine commit_snd hRefl fun db' hOk => ?_
    obtain rfl := updateEpochTitle_eq_ok hOk
    exact .updateEpochs _ _
  | bankruptEpoch textId => exact commit_snd hRefl fun _ => .bankruptEpoch h
  | reorderEpoch textId position =>
    refine commit_snd hRefl fun db' hOk => ?_
    obtain ⟨sortKey, rfl⟩ := reorderEpoch_eq_ok hOk
    exact .updateEpochs _ _
  | addPhase textId epochTextId title kind => exact commit_snd hRefl fun _ => .addPhase hPlaced
  | removePhase textId => exact commit_snd hRefl fun _ => .removePhase h
  | updatePhaseStatus textId status now => exact commit_snd hRefl fun _ => .updatePhaseStatus h
  | updatePhaseTitle textId title =>
    refine commit_snd hRefl fun db' hOk => ?_
    obtain rfl := updatePhaseTitle_eq_ok hOk
    exact .updatePhase h
  | replacePhaseRfcs textId rfcs =>
    obtain ⟨phaseRfcs, hEq⟩ := replacePhaseRfcs_snd textId rfcs db
    rw [WriterCall.exec, hEq]
    exact .congr rfl rfl rfl rfl rfl
  | reorderPhase textId position =>
    refine commit_snd hRefl fun db' hOk => ?_
    obtain ⟨sortKey, rfl⟩ := reorderPhase_eq_ok hOk
    exact .updatePhase h
  | movePhaseToEpoch textId epochTextId position => exact commit_snd hRefl fun _ => .movePhaseToEpoch h
  | focusPhaseForWorkspace root phaseTextId =>
    refine commit_snd hRefl fun db' hOk => ?_
    obtain ⟨phase, focus, -, -, rfl⟩ := focusPhaseForWorkspace_eq_ok hOk
    exact .congr rfl rfl rfl rfl rfl
  | completePhaseAndClearLaneFocus phaseTextId now =>
    exact commit_snd hRefl fun _ => .completePhaseAndClearLaneFocus h
  | addWorkbenchLane textId title intent phaseTextId now =>
    refine commit_snd hRefl fun db' hOk => ?_
    obtain ⟨phase, lanes, -, -, rfl⟩ := addWorkbenchLane_eq_ok hOk
    exact .congr rfl rfl rfl rfl rfl
  | focusWorkbenchLane root laneTextId phaseTextId =>
    refine commit_snd hRefl fun db' hOk => ?_
    obtain ⟨lane, phase, -, -, -, -, rfl⟩ := focusWorkbenchLane_eq_ok hOk
    exact .congr rfl rfl rfl rfl rfl
  | startAndFocusWorkbenchLane root laneTextId phaseTextId =>
    refine commit_snd hRefl fun db' hOk => ?_
    obtain ⟨lane, phase, -, -, -, -, -, rfl⟩ := startAndFocusWorkbenchLane_eq_ok hOk
    exact .congr rfl rfl rfl rfl rfl
  | removePreparedWorkbenchLane laneTextId =>
    refine commit_snd hRefl fun db' hOk => ?_
    obtain ⟨lane, -, -, rfl⟩ := removePreparedWorkbenchLane_eq_ok hOk
    exact .congr rfl rfl rfl rfl rfl
  | claimPhaseOwnerIfCurrent phaseTextId current expectedOwner now =>
    refine commitReply_snd hRefl fun reply db' hOk => ?_
    obtain ⟨phase, hPhase, ⟨owner, -, -, rfl⟩ | ⟨-, -, rfl⟩⟩ := claimPhaseOwnerIfCurrent_eq_ok hOk
    · exact .setOwner h hPhase owner
    · exact hRefl
  | clearPhaseOwner phaseTextId =>
    refine commit_snd hRefl fun db' hOk => ?_
    obtain ⟨phase, hPhase, rfl⟩ := clearPhaseOwner_eq_ok hOk
    exact .eraseOwner h hPhase
  | clearPhaseOwnerIfCurrent phaseTextId expected =>
    refine commitReply_snd hRefl fun reply db' hOk => ?_
    obtain ⟨phase, hPhase, rfl | rfl⟩ := clearPhaseOwnerIfCurrent_eq_ok hOk
    · exact .eraseOwner h hPhase
    · exact hRefl
  | addGoal phaseTextId goalId label rfc targetStage => exact commit_snd hRefl fun _ => .addGoal h
  | removeGoal textId => exact commit_snd hRefl fun _ => .removeGoal h
  | updateGoalStatus textId status =>
    refine commit_snd hRefl fun db' hOk => ?_
    obtain ⟨goal, newStatus, -, -, rfl⟩ := updateGoalStatus_eq_ok hOk
    exact .updateGoal h fun _ => rfl
  | updateGoalLabel textId label =>
    refine commit_snd hRefl fun db' hOk => ?_
    obtain ⟨goal, -, rfl⟩ := updateGoalLabel_eq_ok hOk
    exact .updateGoal h fun _ => rfl
  | updateGoalCompletionLog textId log =>
    refine commit_snd hRefl fun db' hOk => ?_
    obtain ⟨goal, -, rfl⟩ := updateGoalCompletionLog_eq_ok hOk
    exact .updateGoal h fun _ => rfl
  | reorderGoal textId position =>
    refine commit_snd hRefl fun db' hOk => ?_
    obtain ⟨goal, sortKey, -, rfl⟩ := reorderGoal_eq_ok hOk
    exact .updateGoal h fun _ => rfl
  | moveGoalToPhasePosition textId phaseTextId position =>
    exact commit_snd hRefl fun _ => .moveGoalToPhasePosition h.1 h.2
  | addTask goalTextId taskId title notes => exact commit_snd hRefl fun _ => .addTask h
  | renameTaskHandle rowId oldTaskId newTaskId => exact commit_snd hRefl fun _ => .renameTaskHandle h
  | removeTaskByRowId rowId => exact .removeTaskByRowId h
  | updateTaskStatusByRowId rowId status now =>
    refine commit_snd hRefl fun db' hOk => ?_
    obtain ⟨task, -, rfl⟩ := updateTaskStatusByRowId_eq_ok hOk
    exact .updateTask h fun _ => rfl
  | updateTaskTitleByRowId rowId title =>
    refine commit_snd hRefl fun db' hOk => ?_
    obtain ⟨task, -, rfl⟩ := updateTaskTitleByRowId_eq_ok hOk
    exact .updateTask h fun _ => rfl
  | completeTaskByRowId rowId log now =>
    refine commit_snd hRefl fun db' hOk => ?_
    obtain ⟨task, -, rfl⟩ := completeTaskByRowId_eq_ok hOk
    exact .updateTask h fun _ => rfl
  | addTaskLogByRowId rowId kind message =>
    refine commit_snd hRefl fun db' hOk => ?_
    obtain ⟨task, -, rfl⟩ := addTaskLogByRowId_eq_ok hOk
    exact .congr rfl rfl rfl rfl rfl
  | reorderTaskByRowId rowId position => exact commit_snd hRefl fun _ => .reorderTaskByRowId h
  | addInboxItem textId entityType entityId intent agentId now =>
    refine commit_snd hRefl fun db' hOk => ?_
    obtain ⟨inbox, -, rfl⟩ := addInboxItem_eq_ok hOk
    exact .congr rfl rfl rfl rfl rfl
  | updateInboxStatus textId status =>
    refine commit_snd hRefl fun db' hOk => ?_
    obtain rfl := updateInboxStatus_eq_ok hOk
    exact .congr rfl rfl rfl rfl rfl

end Exosuit.Plan
