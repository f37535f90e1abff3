import Exosuit.Plan.Writer
import Mathlib.Data.List.Dedup

/-!
# Handles of tasks

The row that a reference names, read off the owners of text ids and aliases: what the resolution
looks up, and that a resolved reference is owned by the row it names.
-/

namespace Exosuit.Plan

open Lib

namespace Database

variable (db : Database)

def textOwner (handle : String) : Option Nat := (db.tasks.byTextId handle).map Row.id

def aliasOwner (handle : String) : Option Nat := db.entityAliases.lookup (.task, handle)

def placedIn (goalRowId : Option Nat) (rowId : Nat) : Bool :=
  (db.tasks.byId rowId).any fun task => (db.goals.byId task.data.goalId).any fun goal =>
    (db.phases.byId goal.data.phaseId).isSome && goalRowId.all (· = goal.id)

def handleOwner (goalRowId : Option Nat) (handle : String) : Option Nat :=
  ((db.textOwner handle).filter (db.placedIn goalRowId)).or
    ((db.aliasOwner handle).filter (db.placedIn goalRowId))

/-- The task a reference names by what stands behind its first separator. -/
def qualifiedOwner (reference : String) : Option Nat :=
  (Text.splitOnce "::" reference).bind fun (goalReference, handle) =>
    (db.resolveGoalRowId goalReference).bind fun goalRowId => db.handleOwner (some goalRowId) handle

def resolvesTo (reference : String) : Option Nat := (db.resolveTaskReference reference).map (·.rowId)

end Database

variable {db : Database} {reference handle : String} {id : Nat}

theorem textOwner_eq_some :
    db.textOwner handle = some id ↔ ∃ task ∈ db.tasks, task.textId = handle ∧ task.id = id := by
  rw [Database.textOwner, Option.map_eq_some_iff]
  simp only [Rows.byTextId_eq_some, and_assoc]

theorem rowId_query (goalRowId : Option Nat) (byAlias : Bool) :
    (db.queryTaskReference handle goalRowId byAlias).map (·.rowId) =
      (if byAlias then db.aliasOwner handle else db.textOwner handle).filter
        (db.placedIn goalRowId) := by
  have hRow : ∀ row : Row TaskData, row ∈ db.tasks →
      ((db.goals.byId row.data.goalId).bind fun goal =>
        (db.phases.byId goal.data.phaseId).bind fun phase =>
          if goalRowId.all (· = goal.id) then
            some (ResolvedTaskReference.mk row.id row.textId row.data.title goal.textId phase.textId
              phase.data.status)
          else none).map (·.rowId) = (some row.id).filter (db.placedIn goalRowId) := by
    intro row hMem
    have hById : db.tasks.byId row.id = some row := Rows.byId_eq_some.mpr ⟨hMem, rfl⟩
    rw [Option.filter_some, Database.placedIn, hById]
    cases hGoal : db.goals.byId row.data.goalId with
    | none => simp [hGoal]
    | some goal =>
      cases hPhase : db.phases.byId goal.data.phaseId with
      | none => simp [hGoal, hPhase]
      | some phase => by_cases hAll : goalRowId.all (· = goal.id) <;> simp [hGoal, hPhase, hAll]
  unfold Database.queryTaskReference
  cases byAlias with
  | false =>
    cases hFound : db.tasks.byTextId handle with
    | none => simp [Database.textOwner, hFound]
    | some row =>
      simp only [Database.textOwner, hFound, Bool.false_eq_true, if_false, Option.bind_some,
        Option.map_some]
      exact hRow row (Rows.byTextId_eq_some.mp hFound).1
  | true =>
    simp only [if_true, Database.aliasOwner]
    cases hAlias : db.entityAliases.lookup (.task, handle) with
    | none => rfl
    | some rowId =>
      cases hFound : db.tasks.byId rowId with
      | none =>
        rw [Option.filter_some, Database.placedIn, hFound]
        simp [hFound]
      | some row =>
        obtain ⟨hMem, rfl⟩ := Rows.byId_eq_some.mp hFound
        rw [Option.bind_some, hFound, Option.bind_some]
        exact hRow row hMem

theorem rowId_handle (goalRowId : Option Nat) :
    ((db.queryTaskReference handle goalRowId false).or
      (db.queryTaskReference handle goalRowId true)).map (·.rowId) = db.handleOwner goalRowId handle := by
  rw [Option.map_or, rowId_query, rowId_query]
  rfl

theorem resolvesTo_eq (reference : String) :
    db.resolvesTo reference = (db.qualifiedOwner reference).or (db.handleOwner none reference) := by
  rw [Database.resolvesTo, Database.resolveTaskReference, Option.map_or, rowId_handle]
  congr 1
  rw [Database.qualifiedOwner, Option.map_bind]
  refine congrArg _ (funext fun parts => ?_)
  obtain ⟨goalReference, handle⟩ := parts
  rw [Function.comp_apply, Option.map_bind]
  refine congrArg _ (funext fun goalRowId => ?_)
  exact rowId_handle (some goalRowId)

/-! ## What a handle's owner has -/

theorem placedIn_eq_true {goalRowId : Option Nat} : db.placedIn goalRowId id = true ↔
    ∃ task goal, db.tasks.byId id = some task ∧ db.goals.byId task.data.goalId = some goal ∧
      (db.phases.byId goal.data.phaseId).isSome = true ∧ ∀ g ∈ goalRowId, g = goal.id := by
  simp only [Database.placedIn, Option.any_eq_true, Bool.and_eq_true, Option.all_eq_true,
    decide_eq_true_eq]
  constructor
  · rintro ⟨task, hTask, goal, hGoal, hPhase, hAll⟩
    exact ⟨task, goal, hTask, hGoal, hPhase, hAll⟩
  · rintro ⟨task, goal, hTask, hGoal, hPhase, hAll⟩
    exact ⟨task, hTask, goal, hGoal, hPhase, hAll⟩

def HasHandle (db : Database) (id : Nat) (handle : String) : Prop :=
  db.textOwner handle = some id ∨ db.aliasOwner handle = some id

theorem handleOwner_eq_some {goalRowId : Option Nat} (h : db.handleOwner goalRowId handle = some id) :
    HasHandle db id handle ∧ db.placedIn goalRowId id = true := by
  rcases Option.or_eq_some_iff.mp h with h | ⟨-, h⟩
  · obtain ⟨hOwner, hPlaced⟩ := Option.filter_eq_some_iff.mp h
    exact ⟨.inl hOwner, hPlaced⟩
  · obtain ⟨hOwner, hPlaced⟩ := Option.filter_eq_some_iff.mp h
    exact ⟨.inr hOwner, hPlaced⟩

theorem mem_entityAliasesForRow {entityType : EntityType} :
    handle ∈ db.entityAliasesForRow entityType id ↔ db.entityAliases.lookup (entityType, handle) = some id := by
  rw [Database.entityAliasesForRow, List.mem_filterMap, Table.lookup_eq_some]
  constructor
  · rintro ⟨⟨⟨entityType', handle'⟩, id'⟩, hMem, hIf⟩
    split at hIf
    · next hSame =>
      obtain ⟨rfl, rfl⟩ := hSame
      cases hIf
      exact hMem
    · exact nomatch hIf
  · exact fun hMem => ⟨_, hMem, if_pos ⟨rfl, rfl⟩⟩

def GoalHandle (db : Database) (goal : Row GoalData) (handle : String) : Prop :=
  handle = goal.textId ∨ db.entityAliases.lookup (.goal, handle) = some goal.id

theorem goalHandle_of_resolve {goal : Row GoalData} (hGoal : goal ∈ db.goals)
    (h : db.resolveGoalRowId handle = some goal.id) : GoalHandle db goal handle := by
  unfold Database.resolveGoalRowId at h
  split at h
  · next row hRow =>
    obtain ⟨hMem, rfl⟩ := Rows.byTextId_eq_some.mp hRow
    exact .inl (congrArg Row.textId (Rows.eq_of_id hMem hGoal (Option.some.inj h)))
  · exact .inr h

theorem hasHandle_iff {task : Row TaskData} (hTask : task ∈ db.tasks) :
    HasHandle db task.id handle ↔ task.textId = handle ∨ handle ∈ db.entityAliasesForRow .task task.id := by
  rw [HasHandle, mem_entityAliasesForRow, Database.aliasOwner]
  refine or_congr_left ⟨fun h => ?_, fun h => textOwner_eq_some.mpr ⟨task, hTask, h, rfl⟩⟩
  obtain ⟨row, hMem, rfl, hId⟩ := textOwner_eq_some.mp h
  rw [Rows.eq_of_id hMem hTask hId]

theorem mem_owners_of_hasHandle (h : HasHandle db id reference) : id ∈ db.taskHandleOwners reference := by
  simp only [Database.taskHandleOwners, List.mem_dedup, List.mem_append, Option.mem_toList]
  rcases h with hText | hAlias
  · obtain ⟨task, hMem, hSame, rfl⟩ := textOwner_eq_some.mp hText
    refine .inl (.inl (.inl (.inl (.inl ?_))))
    exact List.mem_map_of_mem (List.mem_filter.mpr ⟨hMem, decide_eq_true hSame⟩)
  · exact .inl (.inl (.inl (.inl (.inr hAlias))))

theorem mem_owners_of_qualified {task : Row TaskData} {goal : Row GoalData} {goalHandle : String}
    (hTask : task ∈ db.tasks) (hGoal : db.goals.byId task.data.goalId = some goal)
    (hGoalHandle : GoalHandle db goal goalHandle) (hHandle : HasHandle db task.id handle) :
    task.id ∈ db.taskHandleOwners (qualified goalHandle handle) := by
  have hSelect : ∀ p : Row TaskData → Bool, p task = true →
      task.id ∈ (db.tasks.rows.filter p).map Row.id := fun p hp =>
    List.mem_map_of_mem (List.mem_filter.mpr ⟨hTask, hp⟩)
  have hId : goal.id = task.data.goalId := (Rows.byId_eq_some.mp hGoal).2
  simp only [Database.taskHandleOwners, List.mem_dedup, List.mem_append]
  rcases hGoalHandle with rfl | hGoalAlias
  · rcases (hasHandle_iff hTask).mp hHandle with rfl | hAlias
    · exact .inl (.inl (.inl (.inr (hSelect _ (by simp [hGoal])))))
    · exact .inl (.inr (hSelect _ (by simpa [hGoal] using ⟨handle, hAlias, rfl⟩)))
  · have hMem : goalHandle ∈ db.entityAliasesForRow .goal task.data.goalId :=
      mem_entityAliasesForRow.mpr (hId ▸ hGoalAlias)
    rcases (hasHandle_iff hTask).mp hHandle with rfl | hAlias
    · refine .inl (.inl (.inr (hSelect _ ?_)))
      exact List.any_eq_true.mpr ⟨goalHandle, hMem, decide_eq_true rfl⟩
    · refine .inr (hSelect _ ?_)
      exact List.any_eq_true.mpr ⟨goalHandle, hMem,
        List.any_eq_true.mpr ⟨handle, hAlias, decide_eq_true rfl⟩⟩

theorem qualified_of_splitOnce {goalReference : String}
    (h : Text.splitOnce "::" reference = some (goalReference, handle)) :
    qualified goalReference handle = reference := by
  rw [Text.splitOnce, Option.map_eq_some_iff] at h
  obtain ⟨⟨p, q⟩, hSplit, hParts⟩ := h
  have hText := ((Text.splitOnceList_eq_some (by simp)).mp hSplit).1
  cases hParts
  refine String.toList_inj.mp ?_
  rw [hText, qualified]
  simp only [String.toList_append, String.toList_ofList]

theorem qualifiedOwner_eq_some (h : db.qualifiedOwner reference = some id) :
    ∃ task goal goalHandle handle, task ∈ db.tasks ∧ task.id = id ∧
      db.goals.byId task.data.goalId = some goal ∧ db.resolveGoalRowId goalHandle = some goal.id ∧
      HasHandle db id handle ∧ Text.splitOnce "::" reference = some (goalHandle, handle) := by
  obtain ⟨⟨goalHandle, handle⟩, hSplit, h⟩ := Option.bind_eq_some_iff.mp h
  obtain ⟨goalRowId, hResolve, h⟩ := Option.bind_eq_some_iff.mp h
  obtain ⟨hHandle, hPlaced⟩ := handleOwner_eq_some h
  obtain ⟨task, goal, hTask, hGoal, -, hSame⟩ := placedIn_eq_true.mp hPlaced
  obtain ⟨hMem, hId⟩ := Rows.byId_eq_some.mp hTask
  exact ⟨task, goal, goalHandle, handle, hMem, hId, hGoal, hSame goalRowId rfl ▸ hResolve, hHandle, hSplit⟩

theorem mem_owners_of_resolvesTo (h : db.resolvesTo reference = some id) :
    id ∈ db.taskHandleOwners reference := by
  rw [resolvesTo_eq] at h
  rcases Option.or_eq_some_iff.mp h with h | ⟨-, h⟩
  · obtain ⟨task, goal, goalHandle, handle, hMem, rfl, hGoal, hResolve, hHandle, hSplit⟩ :=
      qualifiedOwner_eq_some h
    have hGoalHandle := goalHandle_of_resolve (Rows.byId_eq_some.mp hGoal).1 hResolve
    exact qualified_of_splitOnce hSplit ▸ mem_owners_of_qualified hMem hGoal hGoalHandle hHandle
  · exact mem_owners_of_hasHandle (handleOwner_eq_some h).1

end Exosuit.Plan
