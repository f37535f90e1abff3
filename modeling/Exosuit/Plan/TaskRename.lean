import Exosuit.Plan.Handles
import Exosuit.Plan.TaskCommands
import Exosuit.Plan.WriterSpec

/-!
# Renaming a task

What a rename leaves of the references to the task and to others, of the inbox items and agent
events that name it, and when it does what it is for.
-/

namespace Exosuit.Plan

open Lib

structure AgentEventData where
  entityType : Option String
  entityId : Option String
deriving DecidableEq, Repr

/-- The plan's tables and the event log of the agents. -/
structure PlanStore where
  db : Database
  agentEvents : Rows AgentEventData

def Database.renamedReferences (db : Database) (taskRowId : Nat) (oldTaskId : String) : List String :=
  match (db.tasks.byId taskRowId).bind fun task => db.goals.byId task.data.goalId with
  | none => []
  | some goal =>
    SqliteWriter.exclusivelyOwnedReferences taskRowId (db.entityAliasesForRow .task taskRowId ++ [oldTaskId])
      (db.entityAliasesForRow .goal goal.id ++ [goal.textId]) db

namespace PlanStore

/-- `rename_task_handle` with the event log: both tables are rewritten alike. -/
def renameTaskHandle (taskRowId : Nat) (oldTaskId newTaskId : String) (s : PlanStore) :
    Except Failure PlanStore := do
  let db ← SqliteWriter.renameTaskHandle taskRowId oldTaskId newTaskId s.db
  pure
    { db
      agentEvents := s.agentEvents.update
        (fun row => row.data.entityType = some "task" &&
          row.data.entityId.any fun id => id ∈ s.db.renamedReferences taskRowId oldTaskId)
        fun data => { data with entityId := some newTaskId } }

/-- The outcome and the store that the call leaves: a failure rolls the savepoint back. -/
def commitRename (taskRowId : Nat) (oldTaskId newTaskId : String) (s : PlanStore) :
    Except Failure Unit × PlanStore :=
  match s.renameTaskHandle taskRowId oldTaskId newTaskId with
  | .ok s' => (.ok (), s')
  | .error e => (.error e, s)

end PlanStore

/-! ## The tables after a rename -/

structure Renamed (db db' : Database) (task : Row TaskData) (goal : Row GoalData) (newTaskId : String) :
    Prop where
  task_mem : task ∈ db.tasks
  goal_eq : db.goals.byId task.data.goalId = some goal
  textOwner : ∀ h, db'.textOwner h = if h = newTaskId then some task.id
    else if h = task.textId then none else db.textOwner h
  aliasOwner : ∀ h, db'.aliasOwner h = if h = task.textId then some task.id
    else if h = newTaskId then (db.aliasOwner h).filter (· ≠ task.id) else db.aliasOwner h
  placedIn : ∀ goalRowId id, db'.placedIn goalRowId id = db.placedIn goalRowId id
  resolveGoal : ∀ g, db'.resolveGoalRowId g = db.resolveGoalRowId g
  free : db.textOwner newTaskId = none
  unaliased : db.aliasOwner task.textId = none

variable {db db' : Database} {taskRowId : Nat} {oldTaskId newTaskId : String}

theorem inbox_renameTaskHandle
    (h : SqliteWriter.renameTaskHandle taskRowId oldTaskId newTaskId db = .ok db') :
    db'.inbox = db.inbox.update
      (fun row => row.data.entityType = "task" &&
        row.data.entityId.any fun id => id ∈ db.renamedReferences taskRowId oldTaskId)
      fun data => { data with entityId := some newTaskId } := by
  obtain ⟨task, goal, tasks, inbox, hTask, hGoal, hOld, hTasks, hFree, hEq⟩ :=
    SqliteWriter.renameTaskHandle_eq_ok h
  unfold SqliteWriter.renameTaskHandle at h
  simp only [hTask, hGoal, hOld, ne_eq, not_true_eq_false, if_false, hTasks, hFree, Option.isSome_none,
    Bool.false_eq_true, Except.ok.injEq] at h
  rw [← h, Database.renamedReferences, hTask, Option.bind_some, hGoal]

theorem renamed_of_ok (hNew : newTaskId ≠ oldTaskId)
    (h : SqliteWriter.renameTaskHandle taskRowId oldTaskId newTaskId db = .ok db') :
    ∃ task goal, task.id = taskRowId ∧ task.textId = oldTaskId ∧ Renamed db db' task goal newTaskId := by
  obtain ⟨task, goal, tasks, inbox, hTask, hGoal, rfl, hTasks, hFree, rfl⟩ :=
    SqliteWriter.renameTaskHandle_eq_ok h
  obtain ⟨hMem, rfl⟩ := Rows.byId_eq_some.mp hTask
  have hOther : ∀ row ∈ db.tasks, row.textId ≠ newTaskId := fun row hRow hSame => by
    obtain rfl := Rows.eq_of_id hRow hMem ((Rows.setTextId_eq_some.mp hTasks).1 row hRow hSame)
    exact hNew hSame.symm
  refine ⟨task, goal, rfl, rfl, hMem, hGoal, fun handle => ?_, fun handle => ?_, fun goalRowId id => ?_,
    fun g => ?_, ?_, ?_⟩
  · ext id
    rw [textOwner_eq_some]
    simp only [Rows.mem_of_setTextId hTasks]
    constructor
    · rintro ⟨row, ⟨a, ha, rfl⟩, hText, hId⟩
      by_cases hSame : a.id = task.id
      · rw [if_pos hSame] at hText hId
        rw [if_pos hText.symm, ← hId, ← hSame]
      · rw [if_neg hSame] at hText hId
        have hOld : handle ≠ task.textId := fun hOld =>
          hSame (congrArg Row.id (Rows.eq_of_textId ha hMem (hText.trans hOld)))
        rw [if_neg (fun hIs => hOther a ha (hText.trans hIs)), if_neg hOld]
        exact textOwner_eq_some.mpr ⟨a, ha, hText, hId⟩
    · intro hOwner
      by_cases hIs : handle = newTaskId
      · rw [if_pos hIs] at hOwner
        exact ⟨_, ⟨task, hMem, rfl⟩, by rw [if_pos rfl, hIs], by rw [if_pos rfl, ← Option.some.inj hOwner]⟩
      · rw [if_neg hIs] at hOwner
        by_cases hOld : handle = task.textId
        · rw [if_pos hOld] at hOwner
          exact nomatch hOwner
        · rw [if_neg hOld] at hOwner
          obtain ⟨a, ha, hText, hId⟩ := textOwner_eq_some.mp hOwner
          have hDiffers : ¬ a.id = task.id := fun hSame =>
            hOld (hText.symm.trans (congrArg Row.textId (Rows.eq_of_id ha hMem hSame)))
          exact ⟨a, ⟨a, ha, by rw [if_neg hDiffers]⟩, hText, hId⟩
  · rw [Database.aliasOwner, Database.aliasOwner, Table.lookup_insert, Table.lookup_retain]
    by_cases hOld : handle = task.textId
    · rw [if_pos (by rw [hOld]), if_pos hOld]
    · rw [if_neg (by simpa using hOld), if_neg hOld]
      by_cases hIs : handle = newTaskId
      · rw [if_pos hIs, hIs]
        simp
      · rw [if_neg hIs]
        cases db.entityAliases.lookup (.task, handle) <;> simp [hIs]
  · rw [Database.placedIn, Database.placedIn, Rows.byId_setTextId hTasks, Option.any_map]
    refine congrArg (fun p => Option.any p _) (funext fun row => ?_)
    dsimp only [Function.comp]
    split <;> rfl
  · have hAlias : (db.entityAliases.lookup (.goal, g)).filter (fun id =>
        !((EntityType.goal, g) = (.task, newTaskId) && id = task.id)) = db.entityAliases.lookup (.goal, g) := by
      cases db.entityAliases.lookup (.goal, g) <;> simp
    rw [Database.resolveGoalRowId, Database.resolveGoalRowId, Table.lookup_insert, Table.lookup_retain,
      if_neg (by simp), hAlias]
  · exact Option.map_eq_none_iff.mpr (Rows.byTextId_eq_none.mpr hOther)
  · rw [Table.lookup_retain, Option.filter_eq_none_iff] at hFree
    rw [Database.aliasOwner, Option.eq_none_iff_forall_ne_some]
    intro id hAlias
    exact hFree id hAlias (by simp [hNew.symm])

/-! ## References after a rename -/

variable {task : Row TaskData} {goal : Row GoalData}

/-- What the rename is checked against: nothing but the task has the new handle. -/
structure HandleFree (db : Database) (task : Row TaskData) (newTaskId : String) : Prop where
  differs : newTaskId ≠ task.textId
  alone : ∀ owner ∈ db.taskHandleOwners newTaskId, owner = task.id

theorem handleOwner_renamed (h : Renamed db db' task goal newTaskId) (hFree : HandleFree db task newTaskId)
    (goalRowId : Option Nat) (handle : String) :
    db'.handleOwner goalRowId handle =
      if handle = newTaskId then (some task.id).filter (db.placedIn goalRowId)
      else db.handleOwner goalRowId handle := by
  have hText : db.textOwner task.textId = some task.id := textOwner_eq_some.mpr ⟨task, h.task_mem, rfl, rfl⟩
  have hPlaced : db'.placedIn goalRowId = db.placedIn goalRowId := funext (h.placedIn goalRowId)
  rw [Database.handleOwner, Database.handleOwner, hPlaced, h.textOwner, h.aliasOwner]
  by_cases hIs : handle = newTaskId
  · rw [if_pos hIs, if_neg (hIs ▸ hFree.differs), if_pos hIs, if_pos hIs]
    have hAlias : (db.aliasOwner handle).filter (· ≠ task.id) = none := by
      refine Option.filter_eq_none_iff.mpr fun id hOwner hNot => ?_
      have hSame := hFree.alone id (mem_owners_of_hasHandle (.inr (hIs ▸ hOwner)))
      simp [hSame] at hNot
    rw [hAlias]
    simp
  · rw [if_neg hIs, if_neg hIs, if_neg hIs]
    by_cases hOld : handle = task.textId
    · rw [if_pos hOld, if_pos hOld, hOld, hText, h.unaliased]
      simp
    · rw [if_neg hOld, if_neg hOld]

theorem handleOwner_free (hFree : HandleFree db task newTaskId) {goalRowId : Option Nat} {id : Nat}
    (h : db.handleOwner goalRowId newTaskId = some id) : id = task.id :=
  hFree.alone id (mem_owners_of_hasHandle (handleOwner_eq_some h).1)

theorem placedIn_task (h : Renamed db db' task goal newTaskId)
    (hPhase : (db.phases.byId goal.data.phaseId).isSome = true) {goalRowId : Option Nat} :
    db.placedIn goalRowId task.id = true ↔ ∀ g ∈ goalRowId, g = goal.id := by
  have hTask : db.tasks.byId task.id = some task := Rows.byId_eq_some.mpr ⟨h.task_mem, rfl⟩
  rw [placedIn_eq_true]
  constructor
  · rintro ⟨task', goal', hTask', hGoal', -, hAll⟩
    cases hTask.symm.trans hTask'
    cases h.goal_eq.symm.trans hGoal'
    exact hAll
  · exact fun hAll => ⟨task, goal, hTask, h.goal_eq, hPhase, hAll⟩

theorem resolvesTo_unchanged (h : Renamed db db' task goal newTaskId) (hFree : HandleFree db task newTaskId)
    (hPhase : (db.phases.byId goal.data.phaseId).isSome = true) {reference : String}
    (hBare : reference ≠ newTaskId)
    (hSplit : ∀ g, Text.splitOnce "::" reference = some (g, newTaskId) →
      db.resolveGoalRowId g ≠ some goal.id) : db'.resolvesTo reference = db.resolvesTo reference := by
  rw [resolvesTo_eq, resolvesTo_eq, handleOwner_renamed h hFree, if_neg hBare]
  congr 1
  unfold Database.qualifiedOwner
  cases hParts : Text.splitOnce "::" reference with
  | none => rfl
  | some parts =>
    obtain ⟨g, handle⟩ := parts
    simp only [Option.bind_some, h.resolveGoal]
    cases hGoal : db.resolveGoalRowId g with
    | none => rfl
    | some goalRowId =>
      rw [Option.bind_some, Option.bind_some, handleOwner_renamed h hFree]
      by_cases hIs : handle = newTaskId
      · subst hIs
        have hElse : ¬ db.placedIn (some goalRowId) task.id = true := fun hPlaced =>
          hSplit g hParts (by rw [hGoal, (placedIn_task h hPhase).mp hPlaced goalRowId rfl])
        have hBefore : db.handleOwner (some goalRowId) handle = none := by
          rw [Option.eq_none_iff_forall_ne_some]
          intro id hId
          obtain rfl := handleOwner_free hFree hId
          exact hElse (handleOwner_eq_some hId).2
        rw [if_pos rfl, hBefore, Option.filter_some, if_neg hElse]
      · rw [if_neg hIs]

theorem length_lt_of_splitOnce {reference g handle : String}
    (h : Text.splitOnce "::" reference = some (g, handle)) : handle.length < reference.length := by
  rw [← qualified_of_splitOnce h, qualified, String.length_append, String.length_append]
  have hSep : "::".length = 2 := rfl
  omega

theorem resolvesTo_new (h : Renamed db db' task goal newTaskId) (hFree : HandleFree db task newTaskId)
    (hPhase : (db.phases.byId goal.data.phaseId).isSome = true) :
    db'.resolvesTo newTaskId = some task.id := by
  have hQualified : db'.qualifiedOwner newTaskId = db.qualifiedOwner newTaskId := by
    unfold Database.qualifiedOwner
    cases hParts : Text.splitOnce "::" newTaskId with
    | none => rfl
    | some parts =>
      obtain ⟨g, handle⟩ := parts
      have hShorter : handle ≠ newTaskId := fun hSame =>
        absurd (length_lt_of_splitOnce hParts) (by rw [hSame]; exact Nat.lt_irrefl _)
      simp only [Option.bind_some, h.resolveGoal, handleOwner_renamed h hFree, if_neg hShorter]
  rw [resolvesTo_eq, hQualified, handleOwner_renamed h hFree, if_pos rfl, Option.filter_some,
    if_pos ((placedIn_task h hPhase).mpr (by simp))]
  cases hOwner : db.qualifiedOwner newTaskId with
  | none => rfl
  | some id =>
    have hResolves : db.resolvesTo newTaskId = some id := by
      rw [resolvesTo_eq, hOwner]
      rfl
    rw [Option.some_or, hFree.alone id (mem_owners_of_resolvesTo hResolves)]

theorem splitOnce_qualified {g : String} (handle : String) (h : Text.Separable "::".toList g.toList) :
    Text.splitOnce "::" (qualified g handle) = some (g, handle) := by
  have hSplit := Text.splitOnceList_append (t := handle.toList) (by simp) h
  rw [Text.splitOnce, qualified, String.toList_append, String.toList_append, hSplit]
  simp

theorem not_splitOnce_qualified {g g' : String} (handle : String)
    (h : ¬ Text.Separable "::".toList g.toList) :
    Text.splitOnce "::" (qualified g handle) ≠ some (g', handle) := by
  intro hSplit
  obtain ⟨p, q, hFirst, hShort⟩ :=
    Text.exists_splitOnceList_append (t := handle.toList) (by simp) h
  rw [Text.splitOnce, qualified, String.toList_append, String.toList_append, hFirst] at hSplit
  obtain ⟨hp, hq⟩ := Prod.mk.inj (Option.some.inj hSplit)
  have hRest : q = handle.toList := by rw [← hq, String.toList_ofList]
  have hLen := congrArg List.length ((Text.splitOnceList_eq_some (by simp)).mp hFirst).1
  rw [hRest] at hLen
  simp only [List.length_append] at hLen
  omega

theorem resolvesTo_qualified_iff (h : Renamed db db' task goal newTaskId)
    (hFree : HandleFree db task newTaskId) (hPhase : (db.phases.byId goal.data.phaseId).isSome = true)
    {g : String} (hGoal : db.resolveGoalRowId g = some goal.id) :
    db'.resolvesTo (qualified g newTaskId) = some task.id ↔
      Text.Separable "::".toList g.toList ∨ db.resolvesTo (qualified g newTaskId) = some task.id := by
  by_cases hSep : Text.Separable "::".toList g.toList
  · refine iff_of_true ?_ (.inl hSep)
    rw [resolvesTo_eq, Database.qualifiedOwner, splitOnce_qualified newTaskId hSep]
    simp only [Option.bind_some, h.resolveGoal, hGoal, handleOwner_renamed h hFree, if_pos, Option.filter_some]
    rw [if_pos ((placedIn_task h hPhase).mpr (by simp))]
    rfl
  · have hBare : qualified g newTaskId ≠ newTaskId := by
      intro hSame
      have hLen := congrArg String.length hSame
      rw [qualified, String.length_append, String.length_append, show "::".length = 2 from rfl] at hLen
      omega
    rw [resolvesTo_unchanged h hFree hPhase hBare fun g' hParts => absurd hParts
      (not_splitOnce_qualified newTaskId hSep), or_iff_right hSep]

theorem resolvesTo_kept (h : Renamed db db' task goal newTaskId) (hFree : HandleFree db task newTaskId)
    (hPhase : (db.phases.byId goal.data.phaseId).isSome = true) {reference : String}
    (hBefore : db.resolvesTo reference = some task.id) : db'.resolvesTo reference = some task.id := by
  by_cases hBare : reference = newTaskId
  · rw [hBare]
    exact resolvesTo_new h hFree hPhase
  by_cases hSplit : ∃ g, Text.splitOnce "::" reference = some (g, newTaskId) ∧
      db.resolveGoalRowId g = some goal.id
  · obtain ⟨g, hParts, hGoal⟩ := hSplit
    rw [← qualified_of_splitOnce hParts] at hBefore ⊢
    exact (resolvesTo_qualified_iff h hFree hPhase hGoal).mpr (.inr hBefore)
  · rw [resolvesTo_unchanged h hFree hPhase hBare fun g hParts hGoal => hSplit ⟨g, hParts, hGoal⟩]
    exact hBefore

/-! ## The references that are rewritten -/

/-- The item is about the task: it names a task, by a reference that resolves to the row. -/
def NamesTask (db : Database) (entityType entityId : Option String) (taskRowId : Nat) : Prop :=
  entityType = some "task" ∧ ∃ reference ∈ entityId, db.resolvesTo reference = some taskRowId

/-- The item is about another entity. -/
def NamesOther (db : Database) (entityType entityId : Option String) (taskRowId : Nat) : Prop :=
  entityType ≠ some "task" ∨
    ∃ reference ∈ entityId, ∃ other, db.resolvesTo reference = some other ∧ other ≠ taskRowId

theorem mem_handles_of_resolvesTo (hTask : task ∈ db.tasks)
    (hGoal : db.goals.byId task.data.goalId = some goal) {reference : String}
    (h : db.resolvesTo reference = some task.id) :
    reference ∈ (db.entityAliasesForRow .task task.id ++ [task.textId]) ++
      (db.entityAliasesForRow .task task.id ++ [task.textId]).flatMap fun t =>
        (db.entityAliasesForRow .goal goal.id ++ [goal.textId]).map fun g => qualified g t := by
  have hHandle : ∀ {handle}, HasHandle db task.id handle →
      handle ∈ db.entityAliasesForRow .task task.id ++ [task.textId] := by
    intro handle hHas
    rcases (hasHandle_iff hTask).mp hHas with rfl | hAlias
    · exact List.mem_append_right _ List.mem_cons_self
    · exact List.mem_append_left _ hAlias
  rw [resolvesTo_eq] at h
  rcases Option.or_eq_some_iff.mp h with h | ⟨-, h⟩
  · obtain ⟨task', goal', g, handle, hTask', hId, hGoal', hResolve, hHas, hParts⟩ :=
      qualifiedOwner_eq_some h
    cases Rows.eq_of_id hTask' hTask hId
    cases hGoal.symm.trans hGoal'
    refine List.mem_append_right _ (List.mem_flatMap.mpr ⟨handle, hHandle hHas, ?_⟩)
    refine List.mem_map.mpr ⟨g, ?_, qualified_of_splitOnce hParts⟩
    rcases goalHandle_of_resolve (Rows.byId_eq_some.mp hGoal).1 hResolve with rfl | hAlias
    · exact List.mem_append_right _ List.mem_cons_self
    · exact List.mem_append_left _ (mem_entityAliasesForRow.mpr hAlias)
  · exact List.mem_append_left _ (hHandle (handleOwner_eq_some h).1)

theorem mem_renamedReferences (hTask : task ∈ db.tasks)
    (hGoal : db.goals.byId task.data.goalId = some goal) {reference : String} :
    (reference ∈ db.renamedReferences task.id task.textId →
      ∀ owner ∈ db.taskHandleOwners reference, owner = task.id) ∧
    (db.resolvesTo reference = some task.id →
      (∀ owner ∈ db.taskHandleOwners reference, owner = task.id) →
        reference ∈ db.renamedReferences task.id task.textId) := by
  have hById : db.tasks.byId task.id = some task := Rows.byId_eq_some.mpr ⟨hTask, rfl⟩
  rw [Database.renamedReferences, hById, Option.bind_some, hGoal]
  dsimp only
  rw [SqliteWriter.exclusivelyOwnedReferences, List.mem_filter]
  constructor
  · rintro ⟨-, hOwned⟩ owner hOwner
    rw [Bool.and_eq_true, List.all_eq_true] at hOwned
    exact of_decide_eq_true (hOwned.2 owner hOwner)
  · intro hResolves hAlone
    refine ⟨mem_handles_of_resolvesTo hTask hGoal hResolves, ?_⟩
    rw [Bool.and_eq_true, List.all_eq_true]
    refine ⟨decide_eq_true (List.ne_nil_of_mem (mem_owners_of_resolvesTo hResolves)), fun owner hOwner => ?_⟩
    exact decide_eq_true (hAlone owner hOwner)

section Items

variable {δ : Type} (entityType entityId : δ → Option String) (setEntityId : δ → δ)

def OwnedAlone (db : Database) (taskRowId : Nat) (entityId : Option String) : Prop :=
  ∀ reference ∈ entityId, ∀ owner ∈ db.taskHandleOwners reference, owner = taskRowId

/-- The items about the task name its new id, unless their reference is another task's as well; those
about another entity are as before. -/
structure ItemsRenamed (db : Database) (taskRowId : Nat) (items items' : Rows δ) : Prop where
  own : ∀ row ∈ items, NamesTask db (entityType row.data) (entityId row.data) taskRowId →
    OwnedAlone db taskRowId (entityId row.data) → { row with data := setEntityId row.data } ∈ items'
  shared : ∀ row ∈ items, NamesTask db (entityType row.data) (entityId row.data) taskRowId →
    ¬ OwnedAlone db taskRowId (entityId row.data) → row ∈ items'
  others : ∀ row ∈ items, NamesOther db (entityType row.data) (entityId row.data) taskRowId →
    row ∈ items'

theorem itemsRenamed_update (hTask : task ∈ db.tasks)
    (hGoal : db.goals.byId task.data.goalId = some goal) (items : Rows δ) (picks : Row δ → Bool)
    (hPicks : ∀ row, picks row = true ↔ entityType row.data = some "task" ∧
      ∃ reference ∈ entityId row.data, reference ∈ db.renamedReferences task.id task.textId) :
    ItemsRenamed entityType entityId setEntityId db task.id items (items.update picks setEntityId) := by
  obtain ⟨hAlone, hOwned⟩ := forall_and.mp fun reference =>
    @mem_renamedReferences _ _ _ hTask hGoal reference
  have hKept : ∀ row ∈ items, ¬ picks row = true → row ∈ items.update picks setEntityId :=
    fun row hRow hPick => Rows.mem_update.mpr ⟨row, hRow, (if_neg hPick).symm⟩
  constructor
  case own =>
    rintro row hRow ⟨hType, reference, hReference, hResolves⟩ hAll
    refine Rows.mem_update_of_mem hRow ((hPicks row).mpr ⟨hType, reference, hReference, ?_⟩)
    exact hOwned reference hResolves (hAll reference hReference)
  case shared =>
    refine fun row hRow _ hNot => hKept row hRow fun hPick => hNot ?_
    obtain ⟨-, reference, hReference, hMem⟩ := (hPicks row).mp hPick
    intro reference' hReference'
    cases hReference.symm.trans hReference'
    exact hAlone reference hMem
  case others =>
    refine fun row hRow hOther => hKept row hRow fun hPick => ?_
    obtain ⟨hType, reference, hReference, hMem⟩ := (hPicks row).mp hPick
    rcases hOther with hNot | ⟨reference', hReference', other, hResolves, hDiffers⟩
    · exact hNot hType
    · cases hReference.symm.trans hReference'
      exact hDiffers (hAlone reference hMem other (mem_owners_of_resolvesTo hResolves))

end Items

/-! ## The rename of a checked handle -/

def InboxData.namedType (data : InboxData) : Option String := some data.entityType

/-- What a rename is for: the references, and what names the task or others by them. -/
structure ReferencesPreserved (s s' : PlanStore) (task : ResolvedTaskReference) (newTaskId : String) :
    Prop where
  kept : ∀ reference, s.db.resolvesTo reference = some task.rowId →
    s'.db.resolvesTo reference = some task.rowId
  bare : s'.db.resolvesTo newTaskId = some task.rowId
  /-- behind the goal's handles that the first separator ends -/
  inGoal : ∀ g, s.db.resolveGoalReference g = some task.goalId → Text.Separable "::".toList g.toList →
    s'.db.resolvesTo (qualified g newTaskId) = some task.rowId
  others : ∀ reference, s.db.resolvesTo reference ≠ some task.rowId → reference ≠ newTaskId →
    (∀ g, s.db.resolveGoalReference g = some task.goalId → reference ≠ qualified g newTaskId) →
    s'.db.resolvesTo reference = s.db.resolvesTo reference
  inbox : ItemsRenamed InboxData.namedType InboxData.entityId
    (fun data => { data with entityId := some newTaskId }) s.db task.rowId s.db.inbox s'.db.inbox
  agentEvents : ItemsRenamed AgentEventData.entityType AgentEventData.entityId
    (fun data => { data with entityId := some newTaskId }) s.db task.rowId s.agentEvents s'.agentEvents

theorem resolveGoalReference_iff (hGoal : goal ∈ db.goals) {g : String} :
    db.resolveGoalReference g = some goal.textId ↔ db.resolveGoalRowId g = some goal.id := by
  rw [Database.resolveGoalReference, Option.bind_eq_some_iff]
  constructor
  · rintro ⟨rowId, hRowId, hText⟩
    obtain ⟨row, hRow, hSame⟩ := Option.map_eq_some_iff.mp hText
    obtain ⟨hMem, rfl⟩ := Rows.byId_eq_some.mp hRow
    rw [hRowId, Rows.eq_of_textId hMem hGoal hSame]
  · intro hRowId
    exact ⟨goal.id, hRowId, by rw [Rows.byId_eq_some.mpr ⟨hGoal, rfl⟩]; rfl⟩

theorem handleFree_of_newTaskHandle {resolved : ResolvedTaskReference} {requested : String}
    (hText : resolved.taskId = task.textId) (hId : resolved.rowId = task.id)
    (h : db.newTaskHandle resolved requested = .ok newTaskId) : HandleFree db task newTaskId := by
  obtain ⟨handle, -, h⟩ := bind_eq_ok.mp h
  split at h
  · exact nomatch h
  · next hDiffers =>
    obtain ⟨conflicts, hConflicts, h⟩ := bind_eq_ok.mp h
    split at h
    · exact nomatch h
    · next hNo =>
      cases h
      refine ⟨hText ▸ hDiffers, fun owner hOwner => ?_⟩
      unfold Database.taskHandleConflictsForGoal Database.taskHandleConflicts at hConflicts
      split at hConflicts
      · next goalRowId hGoal =>
        obtain ⟨handles, -, rfl⟩ := map_eq_ok.mp hConflicts
        by_contra hOther
        refine hNo (List.any_eq_true.mpr ⟨newTaskId, List.mem_cons_self, ?_⟩)
        exact List.any_eq_true.mpr ⟨owner, hOwner, by simpa [hId] using hOther⟩
      · exact nomatch hConflicts

theorem referencesPreserved_of_ok {s s' : PlanStore} {id requested newTaskId : String}
    {task : ResolvedTaskReference} (hTask : s.db.resolveTaskReference id = some task)
    (hNew : s.db.newTaskHandle task requested = .ok newTaskId)
    (h : s.renameTaskHandle task.rowId task.taskId newTaskId = .ok s') :
    ReferencesPreserved s s' task newTaskId := by
  obtain ⟨row, goal, phase, hResolves⟩ := resolves_of_resolveTaskReference hTask
  have hMem := (Rows.byId_eq_some.mp hResolves.row_mem).1
  have hRowId : task.rowId = row.id := (Rows.byId_eq_some.mp hResolves.row_mem).2.symm
  have hFree := handleFree_of_newTaskHandle hResolves.taskId hRowId hNew
  obtain ⟨db', hDb, h⟩ := bind_eq_ok.mp h
  have hInbox := inbox_renameTaskHandle hDb
  have hDiffers : newTaskId ≠ task.taskId := hResolves.taskId ▸ hFree.differs
  obtain ⟨row', goal', hId, -, hRenamed⟩ := renamed_of_ok hDiffers hDb
  obtain rfl := Rows.eq_of_id hRenamed.task_mem hMem (hId.trans hRowId)
  cases hRenamed.goal_eq.symm.trans hResolves.goal_mem
  have hPhase : (s.db.phases.byId goal.data.phaseId).isSome = true := by rw [hResolves.phase_mem]; rfl
  have hGoalMem := (Rows.byId_eq_some.mp hRenamed.goal_eq).1
  have hGoal : ∀ g, s.db.resolveGoalReference g = some task.goalId ↔
      s.db.resolveGoalRowId g = some goal.id := fun g => by
    rw [hResolves.goalId, resolveGoalReference_iff hGoalMem]
  cases h
  refine ⟨fun reference hBefore => ?_, ?_, fun g hG hSep => ?_, fun reference hNot hBare hQualified => ?_,
    ?_, ?_⟩
  · rw [hRowId] at hBefore ⊢
    exact resolvesTo_kept hRenamed hFree hPhase hBefore
  · rw [hRowId]
    exact resolvesTo_new hRenamed hFree hPhase
  · rw [hRowId]
    exact (resolvesTo_qualified_iff hRenamed hFree hPhase ((hGoal g).mp hG)).mpr (.inl hSep)
  · refine resolvesTo_unchanged hRenamed hFree hPhase hBare fun g hParts hG => ?_
    exact hQualified g ((hGoal g).mpr hG) (qualified_of_splitOnce hParts).symm
  · rw [hInbox, hRowId, hResolves.taskId]
    refine itemsRenamed_update _ _ _ hMem hRenamed.goal_eq _ _ fun item => ?_
    simp [InboxData.namedType, Option.any_eq_true]
  · rw [hRowId, hResolves.taskId]
    refine itemsRenamed_update _ _ _ hMem hRenamed.goal_eq _ _ fun item => ?_
    simp [Option.any_eq_true]

theorem rename_preserves_references {s : PlanStore} {id requested newTaskId : String}
    {task : ResolvedTaskReference} (hTask : s.db.resolveTaskReference id = some task)
    (hNew : s.db.newTaskHandle task requested = .ok newTaskId) :
    (∀ e s', s.commitRename task.rowId task.taskId newTaskId = (.error e, s') → s' = s) ∧
      ∀ s', s.commitRename task.rowId task.taskId newTaskId = (.ok (), s') →
        ReferencesPreserved s s' task newTaskId := by
  unfold PlanStore.commitRename
  cases hRun : s.renameTaskHandle task.rowId task.taskId newTaskId with
  | error e => exact ⟨fun _ _ h => (Prod.mk.inj h).2.symm, nofun⟩
  | ok s'' =>
    refine ⟨nofun, fun s' h => ?_⟩
    cases h
    exact referencesPreserved_of_ok hTask hNew hRun

/-- Two tasks own the reference of the inbox item: one in its goal, the other by its id. -/
def sharedStore : PlanStore where
  db := { Database.empty with
    phases := ⟨[⟨1, "phase-1", ⟨"Phase", .inProgress, 1, .regular, none, none, none⟩⟩], by decide, by decide⟩
    goals := ⟨[⟨1, "goal-1", ⟨"Goal 1", .pending, 1, none, none, none, none, none, none⟩⟩,
      ⟨2, "goal-2", ⟨"Goal 2", .pending, 1, none, none, none, none, none, none⟩⟩], by decide, by decide⟩
    tasks := ⟨[⟨1, "foo", ⟨"Qualified task", .pending, 1, none, none, none, none, none⟩⟩,
      ⟨2, "goal-1::foo", ⟨"Legacy task", .pending, 2, none, none, none, none, none⟩⟩], by decide, by decide⟩
    inbox := ⟨[⟨1, "i1", ⟨"", .pending, "task", some "goal-1::foo", "fyi", none⟩⟩], by decide, by decide⟩ }
  agentEvents := .empty

def sharedTask : ResolvedTaskReference := ⟨1, "foo", "Qualified task", "goal-1", "phase-1", .inProgress⟩

theorem rename_preserves_references_shared :
    ∃ s', sharedStore.commitRename 1 "foo" "bar" = (.ok (), s') ∧
      ReferencesPreserved sharedStore s' sharedTask "bar" := by
  have hRun : (sharedStore.commitRename 1 "foo" "bar").1 = .ok () := by decide +kernel
  exact ⟨_, Prod.ext hRun rfl, (@rename_preserves_references sharedStore "foo" "bar" "bar" sharedTask
    (by decide +kernel) (by decide +kernel)).2 _ (Prod.ext hRun rfl)⟩

/-- The item names the renamed task, and is left with the old reference. -/
theorem shared_reference_kept :
    sharedStore.db.resolveTaskReference "foo" = some sharedTask ∧
      sharedStore.db.newTaskHandle sharedTask "bar" = .ok "bar" ∧
      (sharedStore.commitRename 1 "foo" "bar").1 = .ok () ∧
      (sharedStore.commitRename 1 "foo" "bar").2.db.inbox = sharedStore.db.inbox ∧
      ∃ row ∈ sharedStore.db.inbox.rows,
        NamesTask sharedStore.db (some row.data.entityType) row.data.entityId 1 ∧
          row.data.entityId ≠ some "bar" := by
  refine ⟨?_, ?_, ?_, ?_, _, List.mem_cons_self, ⟨rfl, "goal-1::foo", rfl, ?_⟩, ?_⟩ <;> decide +kernel

end Exosuit.Plan
