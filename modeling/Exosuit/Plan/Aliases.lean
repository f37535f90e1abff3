import Exosuit.Plan.WriterSpec

/-!
# Aliases of entities

An alias is a row id without a foreign key. The adds that take aliases, and what every call of the
writer leaves of the aliases and of the rows that they point to.
-/

namespace Exosuit.Plan

open Lib SqliteWriter

def Database.rowIds (db : Database) : EntityType → List Nat
  | .epoch => db.epochs.ids
  | .phase => db.phases.ids
  | .goal => db.goals.ids
  | .task => db.tasks.ids

def Database.entity (db : Database) (entityType : EntityType) (textId : String) : Option (EntityType × Nat) :=
  (match entityType with
    | .epoch => (db.epochs.byTextId textId).map Row.id
    | .phase => (db.phases.byTextId textId).map Row.id
    | .goal => (db.goals.byTextId textId).map Row.id
    | .task => (db.tasks.byTextId textId).map Row.id).map (entityType, ·)

namespace SqliteWriter

/-- Inserts one alias after another; `(entity_type, alias)` is the primary key. -/
def insertAliases (entityType : EntityType) (rowId : Nat) :
    List String → Database → Except Failure Bool × Database
  | [], db => (.ok true, db)
  | alias_ :: aliases, db =>
    if (db.entityAliases.lookup (entityType, alias_)).isSome then
      (.error (.anyhow s!"Failed to insert alias '{alias_}'"), db)
    else
      insertAliases entityType rowId aliases
        { db with entityAliases := db.entityAliases.insert (entityType, alias_) rowId }

def insertWithAliases (entityType : EntityType) (rowId : Nat) (aliases : List String) (db : Database) :
    Except Failure Database → Except Failure Bool × Database
  | .ok db' => insertAliases entityType rowId aliases db'
  | .error e => (.error e, db)

end SqliteWriter

/-- The calls of the writer, and the adds with their aliases. -/
inductive AliasCall
  | call (op : WriterCall)
  | addEpoch (textId title : String) (aliases : List String)
  | addPhase (textId epochTextId title : String) (kind : PhaseKind) (aliases : List String)
  | addGoal (phaseTextId goalId label : String) (rfc : Option String) (targetStage : Option Nat)
      (aliases : List String)

/-- The row id of an add is the one that the table gives next. -/
def AliasCall.exec (fx : FractionalIndex) (op : AliasCall) (db : Database) :
    Except Failure Bool × Database :=
  match op with
  | call op => op.exec fx db
  | addEpoch textId title aliases =>
    insertWithAliases .epoch db.epochs.nextId aliases db (SqliteWriter.addEpoch fx textId title db)
  | addPhase textId epochTextId title kind aliases =>
    insertWithAliases .phase db.phases.nextId aliases db
      (SqliteWriter.addPhase fx textId epochTextId title kind db)
  | addGoal phaseTextId goalId label rfc targetStage aliases =>
    insertWithAliases .goal db.goals.nextId aliases db
      (SqliteWriter.addGoal fx phaseTextId goalId label rfc targetStage db)

def WriterCall.subject : WriterCall → Option (EntityType × Nat)
  | renameTaskHandle taskRowId _ _ => some (.task, taskRowId)
  | _ => none

/-- The entity whose aliases the call creates: the one it adds, found by its text id, or the one it
renames. -/
def AliasCall.subject (op : AliasCall) (db' : Database) : Option (EntityType × Nat) :=
  match op with
  | call op => op.subject
  | addEpoch textId _ _ => db'.entity .epoch textId
  | addPhase textId _ _ _ _ => db'.entity .phase textId
  | addGoal _ goalId _ _ _ _ => db'.entity .goal goalId

/-! ## What a call leaves of the aliases -/

/-- An alias is as before and its row too, or it is new and names the subject of the call. -/
structure AliasStep (db : Database) (subject : Option (EntityType × Nat)) (db' : Database) : Prop where
  alias_cases : ∀ t handle id, db'.entityAliases.lookup (t, handle) = some id →
    (db.entityAliases.lookup (t, handle) = some id ∧ (id ∈ db.rowIds t → id ∈ db'.rowIds t)) ∨
      (db.entityAliases.lookup (t, handle) = none ∧ id ∈ db'.rowIds t ∧ subject = some (t, id))

variable {fx : FractionalIndex} {db db' : Database} {subject : Option (EntityType × Nat)}

theorem AliasStep.of_kept (hIds : ∀ t, ∀ id ∈ db.rowIds t, id ∈ db'.rowIds t)
    (hAliases : db'.entityAliases = db.entityAliases) : AliasStep db subject db' :=
  ⟨fun t _ id h => .inl ⟨hAliases ▸ h, hIds t id⟩⟩

theorem AliasStep.refl : AliasStep db subject db := .of_kept (fun _ _ h => h) rfl


/-! ## Removals -/

/-- The row is that of the entity, or beneath it by the foreign keys. -/
inductive Beneath (db : Database) (t : EntityType) (rowId : Nat) : EntityType → Nat → Prop
  | self : Beneath db t rowId t rowId
  | phase {id : Nat} {phase : Row PhaseData} (hPhase : db.phases.byId id = some phase)
      (hEpoch : Beneath db t rowId .epoch phase.data.epochId) : Beneath db t rowId .phase id
  | goal {id : Nat} {goal : Row GoalData} (hGoal : db.goals.byId id = some goal)
      (hPhase : Beneath db t rowId .phase goal.data.phaseId) : Beneath db t rowId .goal id
  | task {id : Nat} {task : Row TaskData} (hTask : db.tasks.byId id = some task)
      (hGoal : Beneath db t rowId .goal task.data.goalId) : Beneath db t rowId .task id

section

variable {t u : EntityType} {rowId id : Nat} {handle : String}

theorem beneath_epoch : Beneath db u rowId .epoch id ↔ u = .epoch ∧ id = rowId := by
  constructor
  · rintro ⟨⟩
    exact ⟨rfl, rfl⟩
  · rintro ⟨rfl, rfl⟩
    exact .self

theorem beneath_phase : Beneath db u rowId .phase id ↔ (u = .phase ∧ id = rowId) ∨
    ∃ phase, db.phases.byId id = some phase ∧ Beneath db u rowId .epoch phase.data.epochId := by
  constructor
  · rintro (_ | ⟨hPhase, hEpoch⟩)
    · exact .inl ⟨rfl, rfl⟩
    · exact .inr ⟨_, hPhase, hEpoch⟩
  · rintro (⟨rfl, rfl⟩ | ⟨phase, hPhase, hEpoch⟩)
    · exact .self
    · exact .phase hPhase hEpoch

theorem beneath_goal : Beneath db u rowId .goal id ↔ (u = .goal ∧ id = rowId) ∨
    ∃ goal, db.goals.byId id = some goal ∧ Beneath db u rowId .phase goal.data.phaseId := by
  constructor
  · rintro (_ | _ | ⟨hGoal, hPhase⟩)
    · exact .inl ⟨rfl, rfl⟩
    · exact .inr ⟨_, hGoal, hPhase⟩
  · rintro (⟨rfl, rfl⟩ | ⟨goal, hGoal, hPhase⟩)
    · exact .self
    · exact .goal hGoal hPhase

theorem beneath_task : Beneath db u rowId .task id ↔ (u = .task ∧ id = rowId) ∨
    ∃ task, db.tasks.byId id = some task ∧ Beneath db u rowId .goal task.data.goalId := by
  constructor
  · rintro (_ | _ | _ | ⟨hTask, hGoal⟩)
    · exact .inl ⟨rfl, rfl⟩
    · exact .inr ⟨_, hTask, hGoal⟩
  · rintro (⟨rfl, rfl⟩ | ⟨task, hTask, hGoal⟩)
    · exact .self
    · exact .task hTask hGoal

theorem lookup_deleteAliases {p : Nat → Bool} :
    (db.deleteAliases u p).entityAliases.lookup (t, handle) = some id ↔
      db.entityAliases.lookup (t, handle) = some id ∧ (t = u → p id = false) := by
  rw [Database.deleteAliases, Table.lookup_retain_eq_some]
  simp [imp_iff_not_or]

theorem not_beneath_of_lookup
    (h : (deleteEntityAliases u rowId db).entityAliases.lookup (t, handle) = some id) :
    db.entityAliases.lookup (t, handle) = some id ∧ ¬ Beneath db u rowId t id := by
  cases u <;> simp only [deleteEntityAliases, lookup_deleteAliases] at h <;> cases t <;>
    simp_all [beneath_epoch, beneath_phase, beneath_goal, beneath_task, Option.bind_eq_some_iff,
      Option.map_eq_some_iff]

section Cascade

/-! What a cascade takes has whatever property passes from the rows it starts at to those beneath. -/

variable {B : EntityType → Nat → Prop}

theorem of_deleteGoals {p : Row GoalData → Bool} (hOut : id ∉ (db.deleteGoals p).rowIds t)
    (hIn : id ∈ db.rowIds t) (hp : ∀ goal ∈ db.goals, p goal = true → B .goal goal.id)
    (hTasks : ∀ task ∈ db.tasks, B .goal task.data.goalId → B .task task.id) : B t id := by
  cases t with
  | epoch => exact absurd hIn hOut
  | phase => exact absurd hIn hOut
  | goal =>
    obtain ⟨goal, hGoal, hNot⟩ := Rows.exists_of_notMem_filter hIn hOut
    obtain ⟨hMem, rfl⟩ := Rows.byId_eq_some.mp hGoal
    exact hp goal hMem (by simpa using hNot)
  | task =>
    obtain ⟨task, hTask, hNot⟩ := Rows.exists_of_notMem_filter hIn hOut
    obtain ⟨hMem, rfl⟩ := Rows.byId_eq_some.mp hTask
    rw [Bool.not_eq_false', List.any_eq_true] at hNot
    obtain ⟨goal, hGoal, hNot⟩ := hNot
    rw [Bool.and_eq_true, beq_iff_eq] at hNot
    exact hTasks task hMem (hNot.1 ▸ hp goal hGoal hNot.2)

theorem of_deletePhases {p : Row PhaseData → Bool} (h : db.deletePhases p = some db')
    (hp : ∀ phase ∈ db.phases, p phase = true → B .phase phase.id)
    (hGoals : ∀ goal ∈ db.goals, B .phase goal.data.phaseId → B .goal goal.id)
    (hTasks : ∀ task ∈ db.tasks, B .goal task.data.goalId → B .task task.id)
    (hIn : id ∈ db.rowIds t) (hOut : id ∉ db'.rowIds t) : B t id := by
  obtain ⟨-, rfl⟩ := deletePhases_eq_some h
  by_cases hPhase : t = .phase
  · subst hPhase
    obtain ⟨phase, hPhase, hNot⟩ := Rows.exists_of_notMem_filter hIn hOut
    obtain ⟨hMem, rfl⟩ := Rows.byId_eq_some.mp hPhase
    exact hp phase hMem (by simpa using hNot)
  · refine of_deleteGoals hOut ?_ (fun goal hGoal hDoomed => hGoals goal hGoal ?_) hTasks
    · cases t with
      | phase => exact absurd rfl hPhase
      | _ => exact hIn
    · rw [doomedPhase, List.any_eq_true] at hDoomed
      obtain ⟨phase, hMem, hDoomed⟩ := hDoomed
      rw [Bool.and_eq_true, beq_iff_eq] at hDoomed
      exact hDoomed.1 ▸ hp phase hMem hDoomed.2

theorem of_deleteEpochs {p : Row EpochData → Bool} (h : db.deleteEpochs p = some db')
    (hp : ∀ epoch ∈ db.epochs, p epoch = true → B .epoch epoch.id)
    (hPhases : ∀ phase ∈ db.phases, B .epoch phase.data.epochId → B .phase phase.id)
    (hGoals : ∀ goal ∈ db.goals, B .phase goal.data.phaseId → B .goal goal.id)
    (hTasks : ∀ task ∈ db.tasks, B .goal task.data.goalId → B .task task.id)
    (hIn : id ∈ db.rowIds t) (hOut : id ∉ db'.rowIds t) : B t id := by
  have hDelete := deleteEpochs_eq_some h
  by_cases hEpoch : t = .epoch
  · subst hEpoch
    obtain ⟨-, rfl⟩ := deletePhases_eq_some hDelete
    obtain ⟨epoch, hEpoch, hNot⟩ := Rows.exists_of_notMem_filter hIn hOut
    obtain ⟨hMem, rfl⟩ := Rows.byId_eq_some.mp hEpoch
    exact hp epoch hMem (by simpa using hNot)
  · refine of_deletePhases hDelete (fun phase hPhase hDoomed => hPhases phase hPhase ?_) hGoals hTasks
      ?_ hOut
    · rw [List.any_eq_true] at hDoomed
      obtain ⟨epoch, hMem, hDoomed⟩ := hDoomed
      rw [Bool.and_eq_true, beq_iff_eq] at hDoomed
      exact hDoomed.1 ▸ hp epoch hMem hDoomed.2
    · cases t with
      | epoch => exact absurd rfl hEpoch
      | _ => exact hIn

end Cascade

theorem mem_rowIds_delete (h : id ∈ db.rowIds t) : id ∈ (deleteEntityAliases u rowId db).rowIds t := by
  cases u <;> exact h

end

theorem AliasStep.of_removed (u : EntityType) (rowId : Nat)
    (hAliases : db'.entityAliases = (deleteEntityAliases u rowId db).entityAliases)
    (hRows : ∀ t id, id ∈ db.rowIds t → id ∉ db'.rowIds t → Beneath db u rowId t id) :
    AliasStep db subject db' := by
  refine ⟨fun t handle id h => .inl ?_⟩
  rw [hAliases] at h
  obtain ⟨hBefore, hNot⟩ := not_beneath_of_lookup h
  exact ⟨hBefore, fun hIn => by_contra fun hOut => hNot (hRows t id hIn hOut)⟩

theorem eq_self_of_byTextId {δ : Type} {rows : Rows δ} {row row' : Row δ} {textId : String}
    (h : rows.byTextId textId = some row) (hMem : row' ∈ rows)
    (hText : decide (row'.textId = textId) = true) : row'.id = row.id := by
  obtain ⟨hRow, hSame⟩ := Rows.byTextId_eq_some.mp h
  rw [Rows.eq_of_textId hMem hRow ((of_decide_eq_true hText).trans hSame.symm)]

section

variable (db : Database) {rowId : Nat} {u : EntityType}

theorem beneath_of_phase (phase : Row PhaseData) (hPhase : phase ∈ db.phases)
    (hEpoch : Beneath db u rowId .epoch phase.data.epochId) : Beneath db u rowId .phase phase.id :=
  .phase (Rows.byId_eq_some.mpr ⟨hPhase, rfl⟩) hEpoch

theorem beneath_of_goal (goal : Row GoalData) (hGoal : goal ∈ db.goals)
    (hPhase : Beneath db u rowId .phase goal.data.phaseId) : Beneath db u rowId .goal goal.id :=
  .goal (Rows.byId_eq_some.mpr ⟨hGoal, rfl⟩) hPhase

theorem beneath_of_task (task : Row TaskData) (hTask : task ∈ db.tasks)
    (hGoal : Beneath db u rowId .goal task.data.goalId) : Beneath db u rowId .task task.id :=
  .task (Rows.byId_eq_some.mpr ⟨hTask, rfl⟩) hGoal

end

theorem aliasStep_removeEpoch {textId : String} (h : removeEpoch textId db = .ok db') :
    AliasStep db subject db' := by
  obtain ⟨epoch, hEpoch, hDelete⟩ := removeEpoch_eq_ok h
  refine .of_removed .epoch epoch.id ?_ fun t id hIn hOut => ?_
  · obtain ⟨-, rfl⟩ := deletePhases_eq_some (deleteEpochs_eq_some hDelete)
    rfl
  · refine of_deleteEpochs hDelete (fun row hRow hText => ?_) (beneath_of_phase db)
      (beneath_of_goal db) (beneath_of_task db) (mem_rowIds_delete hIn) hOut
    exact eq_self_of_byTextId hEpoch hRow hText ▸ .self

theorem aliasStep_removePhase {textId : String} (h : removePhase textId db = .ok db') :
    AliasStep db subject db' := by
  obtain ⟨phase, hPhase, hDelete⟩ := removePhase_eq_ok h
  refine .of_removed .phase phase.id ?_ fun t id hIn hOut => ?_
  · obtain ⟨-, rfl⟩ := deletePhases_eq_some hDelete
    rfl
  · refine of_deletePhases hDelete (fun row hRow hText => ?_) (beneath_of_goal db)
      (beneath_of_task db) (mem_rowIds_delete hIn) hOut
    exact eq_self_of_byTextId hPhase hRow hText ▸ .self

theorem aliasStep_removeGoal {textId : String} (h : removeGoal textId db = .ok db') :
    AliasStep db subject db' := by
  obtain ⟨goal, hGoal, rfl⟩ := removeGoal_eq_ok h
  refine .of_removed .goal goal.id rfl fun t id hIn hOut => ?_
  refine of_deleteGoals hOut (mem_rowIds_delete hIn) (fun row hRow hText => ?_)
    (beneath_of_task db)
  exact eq_self_of_byTextId hGoal hRow hText ▸ .self

theorem aliasStep_removeTask (taskRowId : Nat) :
    AliasStep db subject (removeTaskByRowId taskRowId db).2 := by
  rw [removeTaskByRowId_snd]
  refine .of_removed .task taskRowId rfl fun t id hIn hOut => ?_
  cases t with
  | task =>
    obtain ⟨task, hTask, hNot⟩ := Rows.exists_of_notMem_filter hIn hOut
    obtain ⟨hMem, rfl⟩ := Rows.byId_eq_some.mp hTask
    have hSame : task.id = taskRowId := by simpa using hNot
    exact hSame ▸ .self
  | _ => exact absurd hIn hOut

/-! ## Adds and renames -/

theorem aliasStep_rename {taskRowId : Nat} {oldTaskId newTaskId : String}
    (h : renameTaskHandle taskRowId oldTaskId newTaskId db = .ok db') :
    AliasStep db (some (.task, taskRowId)) db' := by
  obtain ⟨task, goal, tasks, inbox, hTask, -, -, hTasks, hFree, hEq⟩ := renameTaskHandle_eq_ok h
  have hIds : ∀ t, db'.rowIds t = db.rowIds t := fun t => by
    rw [hEq]
    cases t with
    | task => exact Rows.ids_setTextId hTasks
    | _ => rfl
  refine ⟨fun t handle id hLookup => ?_⟩
  rw [hEq, Table.lookup_insert] at hLookup
  split at hLookup
  · next hKey =>
    cases hKey
    cases hLookup
    have hIn : taskRowId ∈ db.rowIds .task := by
      obtain ⟨hMem, hId⟩ := Rows.byId_eq_some.mp hTask
      exact Rows.mem_ids.mpr ⟨task, hMem, hId⟩
    cases hBefore : db.entityAliases.lookup (.task, oldTaskId) with
    | none => exact .inr ⟨rfl, hIds .task ▸ hIn, rfl⟩
    | some id =>
      -- the alias was the handle that the task gets
      rw [Table.lookup_retain, hBefore] at hFree
      have hSame : id = taskRowId := by
        by_contra hOther
        simp [hOther] at hFree
      exact .inl ⟨congrArg some hSame, fun hIn => hIds .task ▸ hIn⟩
  · exact .inl ⟨(Table.lookup_retain_eq_some.mp hLookup).1, fun hIn => hIds t ▸ hIn⟩

theorem insertAliases_snd {entityType : EntityType} {rowId : Nat} (aliases : List String)
    (db : Database) :
    ∃ entityAliases, (insertAliases entityType rowId aliases db).2 = { db with entityAliases } ∧
      ∀ t handle id, entityAliases.lookup (t, handle) = some id →
        db.entityAliases.lookup (t, handle) = some id ∨
          (db.entityAliases.lookup (t, handle) = none ∧ t = entityType ∧ id = rowId) := by
  induction aliases generalizing db with
  | nil => exact ⟨_, rfl, fun _ _ _ h => .inl h⟩
  | cons alias_ aliases ih =>
    rw [insertAliases]
    split
    · exact ⟨_, rfl, fun _ _ _ h => .inl h⟩
    · next hFree =>
      obtain ⟨entityAliases, hEq, hAliases⟩ := ih { db with
        entityAliases := db.entityAliases.insert (entityType, alias_) rowId }
      refine ⟨entityAliases, hEq, fun t handle id h => ?_⟩
      have hCases := hAliases t handle id h
      dsimp only at hCases
      rw [Table.lookup_insert] at hCases
      split at hCases
      · next hKey =>
        cases hKey
        rcases hCases with hSame | ⟨hNone, -⟩
        · exact .inr ⟨Option.not_isSome_iff_eq_none.mp hFree, rfl, (Option.some.inj hSame).symm⟩
        · cases hNone
      · exact hCases

structure Added (db db₁ : Database) (t : EntityType) (textId : String) (rowId : Nat) : Prop where
  aliases : db₁.entityAliases = db.entityAliases
  rows : ∀ u, ∀ id ∈ db.rowIds u, id ∈ db₁.rowIds u
  row : rowId ∈ db₁.rowIds t
  entity : db₁.entity t textId = some (t, rowId)

theorem aliasStep_insert {t : EntityType} {textId : String} {rowId : Nat} {aliases : List String}
    {result : Except Failure Database}
    (hAdded : ∀ db₁, result = .ok db₁ → Added db db₁ t textId rowId) :
    AliasStep db ((insertWithAliases t rowId aliases db result).2.entity t textId)
      (insertWithAliases t rowId aliases db result).2 := by
  cases result with
  | error e => exact .of_kept (fun _ _ h => h) rfl
  | ok db₁ =>
    have h := hAdded db₁ rfl
    obtain ⟨entityAliases, hEq, hAliases⟩ := insertAliases_snd aliases db₁
    rw [insertWithAliases, hEq]
    have hIds : ∀ u, Database.rowIds { db₁ with entityAliases } u = db₁.rowIds u := fun u => by
      cases u <;> rfl
    refine ⟨fun u handle id hLookup => ?_⟩
    rcases hAliases u handle id hLookup with hBefore | ⟨hNone, rfl, rfl⟩
    · exact .inl ⟨h.aliases ▸ hBefore, fun hIn => hIds u ▸ h.rows u id hIn⟩
    · exact .inr ⟨h.aliases ▸ hNone, hIds u ▸ h.row, h.entity⟩

theorem added_addEpoch {textId title : String} {db₁ : Database}
    (h : SqliteWriter.addEpoch fx textId title db = .ok db₁) :
    Added db db₁ .epoch textId db.epochs.nextId := by
  obtain ⟨sortKey, epochs, hEpochs, rfl⟩ := addEpoch_eq_ok h
  refine ⟨rfl, fun u id hIn => ?_, ?_, ?_⟩
  · cases u with
    | epoch => exact (Rows.mem_ids_insert hEpochs).mpr (.inl hIn)
    | _ => exact hIn
  · exact (Rows.mem_ids_insert hEpochs).mpr (.inr rfl)
  · rw [Database.entity, Rows.byTextId_insert hEpochs]
    rfl

theorem added_addPhase {textId epochTextId title : String} {kind : PhaseKind} {db₁ : Database}
    (h : SqliteWriter.addPhase fx textId epochTextId title kind db = .ok db₁) :
    Added db db₁ .phase textId db.phases.nextId := by
  obtain ⟨epoch, sortKey, phases, -, hPhases, rfl⟩ := addPhase_eq_ok h
  refine ⟨rfl, fun u id hIn => ?_, ?_, ?_⟩
  · cases u with
    | phase => exact (Rows.mem_ids_insert hPhases).mpr (.inl hIn)
    | _ => exact hIn
  · exact (Rows.mem_ids_insert hPhases).mpr (.inr rfl)
  · rw [Database.entity, Rows.byTextId_insert hPhases]
    rfl

theorem added_addGoal {phaseTextId goalId label : String} {rfc : Option String}
    {targetStage : Option Nat} {db₁ : Database}
    (h : SqliteWriter.addGoal fx phaseTextId goalId label rfc targetStage db = .ok db₁) :
    Added db db₁ .goal goalId db.goals.nextId := by
  obtain ⟨phase, sortKey, goals, -, hGoals, rfl⟩ := addGoal_eq_ok h
  refine ⟨rfl, fun u id hIn => ?_, ?_, ?_⟩
  · cases u with
    | goal => exact (Rows.mem_ids_insert hGoals).mpr (.inl hIn)
    | _ => exact hIn
  · exact (Rows.mem_ids_insert hGoals).mpr (.inr rfl)
  · rw [Database.entity, Rows.byTextId_insert hGoals]
    rfl

/-! ## Every call -/

theorem AliasStep.of_ids (hEpochs : db'.epochs.ids = db.epochs.ids) (hPhases : db'.phases.ids = db.phases.ids)
    (hGoals : db'.goals.ids = db.goals.ids) (hTasks : db'.tasks.ids = db.tasks.ids)
    (hAliases : db'.entityAliases = db.entityAliases) : AliasStep db subject db' := by
  refine .of_kept (fun t id hIn => ?_) hAliases
  cases t with
  | epoch =>
    rw [Database.rowIds, hEpochs]
    exact hIn
  | phase =>
    rw [Database.rowIds, hPhases]
    exact hIn
  | goal =>
    rw [Database.rowIds, hGoals]
    exact hIn
  | task =>
    rw [Database.rowIds, hTasks]
    exact hIn

theorem aliasStep_writerCall (op : WriterCall) :
    AliasStep db op.subject (op.exec fx db).2 := by
  cases op with
  | removeEpoch textId => exact commit_snd .refl fun _ => aliasStep_removeEpoch
  | removePhase textId => exact commit_snd .refl fun _ => aliasStep_removePhase
  | removeGoal textId => exact commit_snd .refl fun _ => aliasStep_removeGoal
  | removeTaskByRowId taskRowId => exact aliasStep_removeTask taskRowId
  | renameTaskHandle taskRowId oldTaskId newTaskId => exact commit_snd .refl fun _ => aliasStep_rename
  | addEpoch textId title =>
    refine commit_snd .refl fun db' hOk => ?_
    exact .of_kept (added_addEpoch hOk).rows (added_addEpoch hOk).aliases
  | addPhase textId epochTextId title kind =>
    refine commit_snd .refl fun db' hOk => ?_
    exact .of_kept (added_addPhase hOk).rows (added_addPhase hOk).aliases
  | addGoal phaseTextId goalId label rfc targetStage =>
    refine commit_snd .refl fun db' hOk => ?_
    exact .of_kept (added_addGoal hOk).rows (added_addGoal hOk).aliases
  | addTask goalTextId taskId title notes =>
    refine commit_snd .refl fun db' hOk => ?_
    obtain ⟨goal, sortKey, tasks, -, -, hTasks, rfl⟩ := addTask_eq_ok hOk
    refine .of_kept (fun t id hIn => ?_) rfl
    cases t with
    | task => exact (Rows.mem_ids_insert hTasks).mpr (.inl hIn)
    | _ => exact hIn
  | updateEpochReviewed textId reviewed =>
    refine commit_snd .refl fun db' hOk => ?_
    obtain rfl := updateEpochReviewed_eq_ok hOk
    exact .of_ids (Rows.ids_update _ _ _) rfl rfl rfl rfl
  | updateEpochTitle textId title =>
    refine commit_snd .refl fun db' hOk => ?_
    obtain rfl := updateEpochTitle_eq_ok hOk
    exact .of_ids (Rows.ids_update _ _ _) rfl rfl rfl rfl
  | bankruptEpoch textId =>
    refine commit_snd .refl fun db' hOk => ?_
    obtain ⟨epoch, -, rfl⟩ := bankruptEpoch_eq_ok hOk
    exact .of_ids rfl (Rows.ids_update _ _ _) (Rows.ids_update _ _ _) rfl rfl
  | reorderEpoch textId position =>
    refine commit_snd .refl fun db' hOk => ?_
    obtain ⟨sortKey, rfl⟩ := reorderEpoch_eq_ok hOk
    exact .of_ids (Rows.ids_update _ _ _) rfl rfl rfl rfl
  | updatePhaseStatus textId status now =>
    refine commit_snd .refl fun db' hOk => ?_
    obtain ⟨phase, newStatus, phases, -, -, rfl, rfl⟩ := updatePhaseStatus_eq_ok hOk
    split
    · exact .of_ids rfl (Rows.ids_update _ _ _) rfl rfl rfl
    · exact .of_ids rfl (Rows.ids_update _ _ _) rfl rfl rfl
  | updatePhaseTitle textId title =>
    refine commit_snd .refl fun db' hOk => ?_
    obtain rfl := updatePhaseTitle_eq_ok hOk
    exact .of_ids rfl (Rows.ids_update _ _ _) rfl rfl rfl
  | replacePhaseRfcs textId rfcs =>
    obtain ⟨phaseRfcs, hEq⟩ := replacePhaseRfcs_snd textId rfcs db
    rw [WriterCall.exec, hEq]
    exact .of_ids rfl rfl rfl rfl rfl
  | reorderPhase textId position =>
    refine commit_snd .refl fun db' hOk => ?_
    obtain ⟨sortKey, rfl⟩ := reorderPhase_eq_ok hOk
    exact .of_ids rfl (Rows.ids_update _ _ _) rfl rfl rfl
  | movePhaseToEpoch textId epochTextId position =>
    refine commit_snd .refl fun db' hOk => ?_
    obtain ⟨epoch, sortKey, -, rfl⟩ := movePhaseToEpoch_eq_ok hOk
    exact .of_ids rfl (Rows.ids_update _ _ _) rfl rfl rfl
  | focusPhaseForWorkspace root phaseTextId =>
    refine commit_snd .refl fun db' hOk => ?_
    obtain ⟨phase, focus, -, -, rfl⟩ := focusPhaseForWorkspace_eq_ok hOk
    exact .of_ids rfl rfl rfl rfl rfl
  | completePhaseAndClearLaneFocus phaseTextId now =>
    refine commit_snd .refl fun db' hOk => ?_
    obtain ⟨phase, -, rfl⟩ := completePhaseAndClearLaneFocus_eq_ok hOk
    exact .of_ids rfl (Rows.ids_update _ _ _) rfl rfl rfl
  | addWorkbenchLane textId title intent phaseTextId now =>
    refine commit_snd .refl fun db' hOk => ?_
    obtain ⟨phase, lanes, -, -, rfl⟩ := addWorkbenchLane_eq_ok hOk
    exact .of_ids rfl rfl rfl rfl rfl
  | focusWorkbenchLane root laneTextId phaseTextId =>
    refine commit_snd .refl fun db' hOk => ?_
    obtain ⟨lane, phase, -, -, -, -, rfl⟩ := focusWorkbenchLane_eq_ok hOk
    exact .of_ids rfl rfl rfl rfl rfl
  | startAndFocusWorkbenchLane root laneTextId phaseTextId =>
    refine commit_snd .refl fun db' hOk => ?_
    obtain ⟨lane, phase, -, -, -, -, -, rfl⟩ := startAndFocusWorkbenchLane_eq_ok hOk
    exact .of_ids rfl rfl rfl rfl rfl
  | removePreparedWorkbenchLane laneTextId =>
    refine commit_snd .refl fun db' hOk => ?_
    obtain ⟨lane, -, -, rfl⟩ := removePreparedWorkbenchLane_eq_ok hOk
    exact .of_ids rfl rfl rfl rfl rfl
  | claimPhaseOwnerIfCurrent phaseTextId current expectedOwner now =>
    refine commitReply_snd .refl fun reply db' hOk => ?_
    obtain ⟨phase, -, ⟨owner, -, -, rfl⟩ | ⟨-, -, rfl⟩⟩ := claimPhaseOwnerIfCurrent_eq_ok hOk
    · exact .of_ids rfl rfl rfl rfl rfl
    · exact .refl
  | clearPhaseOwner phaseTextId =>
    refine commit_snd .refl fun db' hOk => ?_
    obtain ⟨phase, -, rfl⟩ := clearPhaseOwner_eq_ok hOk
    exact .of_ids rfl rfl rfl rfl rfl
  | clearPhaseOwnerIfCurrent phaseTextId expected =>
    refine commitReply_snd .refl fun reply db' hOk => ?_
    obtain ⟨phase, -, rfl | rfl⟩ := clearPhaseOwnerIfCurrent_eq_ok hOk
    · exact .of_ids rfl rfl rfl rfl rfl
    · exact .refl
  | updateGoalStatus textId status =>
    refine commit_snd .refl fun db' hOk => ?_
    obtain ⟨goal, newStatus, -, -, rfl⟩ := updateGoalStatus_eq_ok hOk
    exact .of_ids rfl rfl (Rows.ids_update _ _ _) rfl rfl
  | updateGoalLabel textId label =>
    refine commit_snd .refl fun db' hOk => ?_
    obtain ⟨goal, -, rfl⟩ := updateGoalLabel_eq_ok hOk
    exact .of_ids rfl rfl (Rows.ids_update _ _ _) rfl rfl
  | updateGoalCompletionLog textId log =>
    refine commit_snd .refl fun db' hOk => ?_
    obtain ⟨goal, -, rfl⟩ := updateGoalCompletionLog_eq_ok hOk
    exact .of_ids rfl rfl (Rows.ids_update _ _ _) rfl rfl
  | reorderGoal textId position =>
    refine commit_snd .refl fun db' hOk => ?_
    obtain ⟨goal, sortKey, -, rfl⟩ := reorderGoal_eq_ok hOk
    exact .of_ids rfl rfl (Rows.ids_update _ _ _) rfl rfl
  | moveGoalToPhasePosition textId phaseTextId position =>
    refine commit_snd .refl fun db' hOk => ?_
    obtain ⟨phase, goal, sortKey, -, -, rfl⟩ := moveGoalToPhasePosition_eq_ok hOk
    exact .of_ids rfl rfl (Rows.ids_update _ _ _) rfl rfl
  | updateTaskStatusByRowId taskRowId status now =>
    refine commit_snd .refl fun db' hOk => ?_
    obtain ⟨task, -, rfl⟩ := updateTaskStatusByRowId_eq_ok hOk
    exact .of_ids rfl rfl rfl (Rows.ids_update _ _ _) rfl
  | updateTaskTitleByRowId taskRowId title =>
    refine commit_snd .refl fun db' hOk => ?_
    obtain ⟨task, -, rfl⟩ := updateTaskTitleByRowId_eq_ok hOk
    exact .of_ids rfl rfl rfl (Rows.ids_update _ _ _) rfl
  | completeTaskByRowId taskRowId log now =>
    refine commit_snd .refl fun db' hOk => ?_
    obtain ⟨task, -, rfl⟩ := completeTaskByRowId_eq_ok hOk
    exact .of_ids rfl rfl rfl (Rows.ids_update _ _ _) rfl
  | addTaskLogByRowId taskRowId kind message =>
    refine commit_snd .refl fun db' hOk => ?_
    obtain ⟨task, -, rfl⟩ := addTaskLogByRowId_eq_ok hOk
    exact .of_ids rfl rfl rfl rfl rfl
  | reorderTaskByRowId taskRowId position =>
    refine commit_snd .refl fun db' hOk => ?_
    obtain ⟨task, sortKey, -, rfl⟩ := reorderTaskByRowId_eq_ok hOk
    exact .of_ids rfl rfl rfl (Rows.ids_update _ _ _) rfl
  | addInboxItem textId entityType entityId intent agentId now =>
    refine commit_snd .refl fun db' hOk => ?_
    obtain ⟨inbox, -, rfl⟩ := addInboxItem_eq_ok hOk
    exact .of_ids rfl rfl rfl rfl rfl
  | updateInboxStatus textId status =>
    refine commit_snd .refl fun db' hOk => ?_
    obtain rfl := updateInboxStatus_eq_ok hOk
    exact .of_ids rfl rfl rfl rfl rfl

theorem aliasStep_exec (op : AliasCall) :
    AliasStep db (op.subject (op.exec fx db).2) (op.exec fx db).2 := by
  cases op with
  | call op => exact aliasStep_writerCall op
  | addEpoch textId title aliases => exact aliasStep_insert fun _ => added_addEpoch
  | addPhase textId epochTextId title kind aliases => exact aliasStep_insert fun _ => added_addPhase
  | addGoal phaseTextId goalId label rfc targetStage aliases =>
    exact aliasStep_insert fun _ => added_addGoal

/-! ## Runs -/

/-- An entity is its row and the time at which the row was inserted: row ids are used again. -/
structure EntityIdentity where
  entityType : EntityType
  rowId : Nat
  born : Nat
deriving DecidableEq, Repr

/-- The database of a run, with the time of each row and the entity that each alias was created for. -/
structure AliasHistory where
  db : Database
  time : Nat
  born : EntityType → Nat → Nat
  createdFor : EntityType → String → Option EntityIdentity

namespace AliasHistory

def empty : AliasHistory where
  db := .empty
  time := 0
  born := fun _ _ => 0
  createdFor := fun _ _ => none

def step (fx : FractionalIndex) (s : AliasHistory) (op : AliasCall) : AliasHistory :=
  let db' := (op.exec fx s.db).2
  let born t id := if id ∈ db'.rowIds t ∧ id ∉ s.db.rowIds t then s.time else s.born t id
  { db := db'
    time := s.time + 1
    born
    createdFor := fun t handle =>
      if (db'.entityAliases.lookup (t, handle)).isSome ∧ s.db.entityAliases.lookup (t, handle) = none then
        (op.subject db').map fun (u, id) => ⟨u, id, born u id⟩
      else s.createdFor t handle }

def run (fx : FractionalIndex) (calls : List AliasCall) : AliasHistory := calls.foldl (step fx) empty

/-- Each alias is that of a row, and of the entity that it was created for. -/
structure Sound (s : AliasHistory) : Prop where
  row_exists : ∀ t handle id, s.db.entityAliases.lookup (t, handle) = some id → id ∈ s.db.rowIds t
  entity_same : ∀ t handle id, s.db.entityAliases.lookup (t, handle) = some id →
    s.createdFor t handle = some ⟨t, id, s.born t id⟩
  /-- a row inserted next is not mistaken for an earlier one -/
  born_lt : ∀ t, ∀ id ∈ s.db.rowIds t, s.born t id < s.time

theorem Sound.step {fx : FractionalIndex} {s : AliasHistory} (h : Sound s) (op : AliasCall) :
    Sound (s.step fx op) := by
  have hStep : AliasStep s.db (op.subject (op.exec fx s.db).2) (op.exec fx s.db).2 := aliasStep_exec op
  constructor
  case row_exists =>
    intro t handle id hLookup
    rcases hStep.alias_cases t handle id hLookup with ⟨hBefore, hKept⟩ | ⟨-, hIn, -⟩
    · exact hKept (h.row_exists t handle id hBefore)
    · exact hIn
  case entity_same =>
    intro t handle id hLookup
    dsimp only [AliasHistory.step] at hLookup ⊢
    rcases hStep.alias_cases t handle id hLookup with ⟨hBefore, hKept⟩ | ⟨hNone, -, hSubject⟩
    · have hOld := h.row_exists t handle id hBefore
      rw [if_neg (by simp [hBefore]), if_neg (fun hNew => hNew.2 hOld)]
      exact h.entity_same t handle id hBefore
    · rw [if_pos ⟨by rw [hLookup]; rfl, hNone⟩, hSubject]
      rfl
  case born_lt =>
    intro t id hIn
    dsimp only [AliasHistory.step] at hIn ⊢
    by_cases hOld : id ∈ s.db.rowIds t
    · rw [if_neg (fun hNew => hNew.2 hOld)]
      have := h.born_lt t id hOld
      omega
    · rw [if_pos ⟨hIn, hOld⟩]
      omega

theorem sound_empty : Sound empty := by
  refine ⟨?_, ?_, fun t id h => ?_⟩
  · exact nofun
  · exact nofun
  · cases t <;> cases h

end AliasHistory

/-- After every sequence of calls, no alias dangles and each is the alias of the entity that it was
created for. -/
theorem aliases_keep_their_entity (fx : FractionalIndex) (calls : List AliasCall) :
    (AliasHistory.run fx calls).Sound :=
  List.foldlRecOn calls (AliasHistory.step fx) AliasHistory.sound_empty fun _ hs op _ => hs.step op

end Exosuit.Plan
