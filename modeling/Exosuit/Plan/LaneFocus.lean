import Exosuit.Plan.Commands
import Exosuit.Plan.GuardSpec

/-!
# Lane focus

Every workspace's focus is on a lane of a phase in progress. Each write of the
writer keeps it so, hence so does every command.
-/

namespace Exosuit.Plan

open Lib SqliteWriter

variable {fx : FractionalIndex} {db db' : Database}

/-- The lane is there, and the phase that it executes is in progress. -/
def LaneInProgress (db : Database) (laneId : Nat) : Prop :=
  ∃ lane phase, db.lanes.byId laneId = some lane ∧
    db.phases.byId lane.data.executionPhaseId = some phase ∧ phase.data.status = .inProgress

def FocusValid (db : Database) : Prop :=
  ∀ root laneId, db.workspaceLaneFocus.lookup root = some laneId → LaneInProgress db laneId

def KeepsInProgress (db db' : Database) (phaseId : Nat) : Prop :=
  ∀ phase, db.phases.byId phaseId = some phase → phase.data.status = .inProgress →
    ∃ phase', db'.phases.byId phaseId = some phase' ∧ phase'.data.status = .inProgress

theorem LaneInProgress.mono {laneId : Nat} (h : LaneInProgress db laneId)
    (hLanes : ∀ lane, db.lanes.byId laneId = some lane → ∃ lane', db'.lanes.byId laneId = some lane' ∧
      lane'.data.executionPhaseId = lane.data.executionPhaseId ∧
      KeepsInProgress db db' lane.data.executionPhaseId) : LaneInProgress db' laneId := by
  obtain ⟨lane, phase, hLane, hPhase, hStatus⟩ := h
  obtain ⟨lane', hLane', hId, hKeeps⟩ := hLanes lane hLane
  obtain ⟨phase', hPhase', hStatus'⟩ := hKeeps phase hPhase hStatus
  exact ⟨lane', phase', hLane', hId ▸ hPhase', hStatus'⟩

/-- The rule for the writes that leave the lanes alone. -/
theorem FocusValid.of_phases (h : FocusValid db) (hLanes : db'.lanes = db.lanes)
    (hFocus : ∀ root laneId, db'.workspaceLaneFocus.lookup root = some laneId →
      db.workspaceLaneFocus.lookup root = some laneId ∧
        ∀ lane, db.lanes.byId laneId = some lane →
          KeepsInProgress db db' lane.data.executionPhaseId) : FocusValid db' := by
  intro root laneId hLookup
  obtain ⟨hOld, hKeeps⟩ := hFocus root laneId hLookup
  refine (h root laneId hOld).mono fun lane hLane => ⟨lane, ?_, rfl, hKeeps lane hLane⟩
  rw [hLanes]
  exact hLane

theorem FocusValid.congr (h : FocusValid db) (hLanes : db'.lanes = db.lanes)
    (hPhases : db'.phases = db.phases) (hFocus : db'.workspaceLaneFocus = db.workspaceLaneFocus) :
    FocusValid db' :=
  h.of_phases hLanes fun _ _ hLookup =>
    ⟨hFocus ▸ hLookup, fun _ _ phase hPhase hStatus => ⟨phase, hPhases ▸ hPhase, hStatus⟩⟩

theorem keepsInProgress_update {p : Row PhaseData → Bool} {f : PhaseData → PhaseData} {phaseId : Nat}
    (hPhases : db'.phases = db.phases.update p f)
    (hf : ∀ phase, db.phases.byId phaseId = some phase → p phase = true →
      phase.data.status = .inProgress → (f phase.data).status = .inProgress) :
    KeepsInProgress db db' phaseId := by
  intro phase hPhase hStatus
  rw [hPhases, Rows.byId_update, hPhase, Option.map_some]
  refine ⟨_, rfl, ?_⟩
  split
  · next hp => exact hf phase hPhase hp hStatus
  · exact hStatus

theorem FocusValid.updatePhases {p : Row PhaseData → Bool} {f : PhaseData → PhaseData}
    (h : FocusValid db) (hf : ∀ data, (f data).status = data.status) :
    FocusValid { db with phases := db.phases.update p f } :=
  h.of_phases rfl fun _ _ hLookup =>
    ⟨hLookup, fun _ _ => keepsInProgress_update rfl fun _ _ _ hStatus => (hf _).trans hStatus⟩

theorem FocusValid.of_cleared (h : FocusValid db) (p : Row PhaseData → Bool)
    (hLanes : db'.lanes = db.lanes)
    (hPhases : ∀ id phase, db.phases.byId id = some phase → p phase = false →
      db'.phases.byId id = some phase)
    (hFocus : ∀ root laneId, db'.workspaceLaneFocus.lookup root = some laneId →
      db.workspaceLaneFocus.lookup root = some laneId ∧
        ∀ lane phase, db.lanes.byId laneId = some lane →
          db.phases.byId lane.data.executionPhaseId = some phase → p phase = false) :
    FocusValid db' := by
  refine h.of_phases hLanes fun root laneId hLookup => ?_
  obtain ⟨hOld, hKept⟩ := hFocus root laneId hLookup
  refine ⟨hOld, fun lane hLane phase hPhase hStatus => ⟨phase, ?_, hStatus⟩⟩
  exact hPhases _ phase hPhase (hKept lane phase hLane hPhase)

theorem lookup_clearPhaseFocus {phaseId laneId : Nat} {root : String}
    (h : (clearPhaseFocus phaseId db).workspaceLaneFocus.lookup root = some laneId) :
    db.workspaceLaneFocus.lookup root = some laneId ∧
      ∀ lane, db.lanes.byId laneId = some lane → lane.data.executionPhaseId ≠ phaseId := by
  obtain ⟨hOld, hKept⟩ := Table.lookup_retain_eq_some.mp h
  refine ⟨hOld, fun lane hLane hId => ?_⟩
  rw [hLane] at hKept
  simp [hId] at hKept

theorem FocusValid.updatePhaseStatus {textId status now : String} (h : FocusValid db)
    (hOk : SqliteWriter.updatePhaseStatus textId status now db = .ok db') : FocusValid db' := by
  obtain ⟨phase, newStatus, phases, hPhase, -, rfl, rfl⟩ := updatePhaseStatus_eq_ok hOk
  split
  · refine h.of_cleared (fun row => row.textId = textId) rfl ?_ fun root laneId hLookup => ?_
    · intro id phase' hPhase' hp
      rw [clearPhaseFocus_phases]
      exact Rows.byId_update_of_false hPhase' hp
    obtain ⟨hOld, hKept⟩ := lookup_clearPhaseFocus hLookup
    refine ⟨hOld, fun lane phase' hLane hPhase' => decide_eq_false fun hTextId => ?_⟩
    have hEq := Rows.eq_of_textId (Rows.byId_eq_some.mp hPhase').1 (Rows.byTextId_eq_some.mp hPhase).1
      (hTextId.trans (Rows.byTextId_eq_some.mp hPhase).2.symm)
    exact hKept lane hLane ((Rows.byId_eq_some.mp hPhase').2.symm.trans (congrArg Row.id hEq))
  · next hStatus =>
    refine h.of_phases rfl fun _ _ hLookup => ⟨hLookup, fun _ _ phase hPhase hOld => ?_⟩
    refine ⟨_, (Rows.byId_update _ _ _).trans (by rw [hPhase, Option.map_some]), ?_⟩
    split
    · exact not_not.mp hStatus
    · exact hOld

theorem FocusValid.completePhaseAndClearLaneFocus {textId now : String} (h : FocusValid db)
    (hOk : SqliteWriter.completePhaseAndClearLaneFocus textId now db = .ok db') : FocusValid db' := by
  obtain ⟨phase, -, rfl⟩ := completePhaseAndClearLaneFocus_eq_ok hOk
  refine h.of_cleared (fun row => row.id = phase.id) rfl ?_ fun root laneId hLookup => ?_
  · intro id phase' hPhase' hp
    rw [clearPhaseFocus_phases]
    exact Rows.byId_update_of_false hPhase' hp
  obtain ⟨hOld, hKept⟩ := lookup_clearPhaseFocus hLookup
  exact ⟨hOld, fun lane phase' hLane hPhase' => decide_eq_false fun hId =>
    hKept lane hLane ((Rows.byId_eq_some.mp hPhase').2.symm.trans hId)⟩

theorem FocusValid.bankruptEpoch {textId : String} (h : FocusValid db)
    (hOk : SqliteWriter.bankruptEpoch textId db = .ok db') : FocusValid db' := by
  obtain ⟨epoch, -, rfl⟩ := bankruptEpoch_eq_ok hOk
  refine h.of_cleared (fun row => row.data.epochId = epoch.id && isOpen row.data.status) rfl ?_
    fun root laneId hLookup => ?_
  · intro id phase hPhase hp
    dsimp only [bankruptPhases]
    exact Rows.byId_update_of_false hPhase hp
  obtain ⟨hOld, hKept⟩ := Table.lookup_retain_eq_some.mp hLookup
  refine ⟨hOld, fun lane phase hLane hPhase => Bool.eq_false_of_not_eq_true fun hp => ?_⟩
  rw [hLane, Option.any_some, bankruptPhases, Rows.byId_update, hPhase, Option.map_some,
    Option.any_some, if_pos hp] at hKept
  rw [Bool.and_eq_true] at hp
  simp [of_decide_eq_true hp.1] at hKept

theorem FocusValid.deletePhases {p : Row PhaseData → Bool} (h : FocusValid db)
    (hDelete : db.deletePhases p = some db') : FocusValid db' := by
  obtain ⟨hLanes, rfl⟩ := deletePhases_eq_some hDelete
  refine h.of_phases rfl fun root laneId hLookup => ⟨hLookup, fun lane hLane phase hPhase hStatus => ?_⟩
  have hp := hLanes lane (Rows.byId_eq_some.mp hLane).1
  obtain ⟨hMem, hId⟩ := Rows.byId_eq_some.mp hPhase
  rw [← hId, Bool.eq_false_iff, Ne, doomedPhase_eq_true hMem] at hp
  refine ⟨phase, ?_, hStatus⟩
  refine (Rows.byId_filter _ _).trans ?_
  rw [hPhase, Option.filter_some, if_pos (by simpa using hp)]

theorem FocusValid.deleteEntityAliases {entityType : EntityType} {rowId : Nat} (h : FocusValid db) :
    FocusValid (SqliteWriter.deleteEntityAliases entityType rowId db) := by
  cases entityType <;> exact h.congr rfl rfl rfl

theorem FocusValid.removeEpoch {textId : String} (h : FocusValid db)
    (hOk : SqliteWriter.removeEpoch textId db = .ok db') : FocusValid db' := by
  obtain ⟨epoch, -, hDelete⟩ := removeEpoch_eq_ok hOk
  refine FocusValid.deletePhases ?_ (deleteEpochs_eq_some hDelete)
  exact h.deleteEntityAliases.congr rfl rfl rfl

theorem FocusValid.removePhase {textId : String} (h : FocusValid db)
    (hOk : SqliteWriter.removePhase textId db = .ok db') : FocusValid db' := by
  obtain ⟨phase, -, hDelete⟩ := removePhase_eq_ok hOk
  exact h.deleteEntityAliases.deletePhases hDelete

theorem FocusValid.addPhase {textId epochTextId title : String} {kind : PhaseKind} (h : FocusValid db)
    (hOk : SqliteWriter.addPhase fx textId epochTextId title kind db = .ok db') : FocusValid db' := by
  obtain ⟨epoch, sortKey, phases, -, hPhases, rfl⟩ := addPhase_eq_ok hOk
  refine h.of_phases rfl fun _ _ hLookup => ⟨hLookup, fun lane _ phase hPhase hStatus => ?_⟩
  have hId := (Rows.byId_eq_some.mp hPhase).2
  rw [← hId] at hPhase ⊢
  exact ⟨phase, Rows.byId_insert hPhases hPhase, hStatus⟩

/-! ## Lanes -/

theorem FocusValid.addWorkbenchLane {textId title intent phaseTextId now : String}
    (h : FocusValid db)
    (hOk : SqliteWriter.addWorkbenchLane textId title intent phaseTextId now db = .ok db') :
    FocusValid db' := by
  obtain ⟨phase, lanes, -, hLanes, rfl⟩ := addWorkbenchLane_eq_ok hOk
  intro root laneId hLookup
  refine (h root laneId hLookup).mono fun lane hLane =>
    ⟨lane, ?_, rfl, fun phase hPhase hStatus => ⟨phase, hPhase, hStatus⟩⟩
  have hId := (Rows.byId_eq_some.mp hLane).2
  rw [← hId] at hLane ⊢
  exact Rows.byId_insert hLanes hLane

theorem FocusValid.insert {root : String} {lane : Row LaneData} {phase : Row PhaseData}
    {workspaceActivePhase : Table String Nat} (h : FocusValid db)
    (hLane : db.lanes.byId lane.id = some lane)
    (hPhase : db.phases.byId lane.data.executionPhaseId = some phase)
    (hStatus : phase.data.status = .inProgress) :
    FocusValid { db with
      workspaceActivePhase
      workspaceLaneFocus := db.workspaceLaneFocus.insert root lane.id } := by
  intro root' laneId hLookup
  rw [Table.lookup_insert] at hLookup
  split at hLookup
  · obtain rfl := Option.some.inj hLookup
    exact ⟨lane, phase, hLane, hPhase, hStatus⟩
  · exact h root' laneId hLookup

theorem FocusValid.updateLanes {p : Row LaneData → Bool} {f : LaneData → LaneData}
    (h : FocusValid db) (hf : ∀ data, (f data).executionPhaseId = data.executionPhaseId) :
    FocusValid { db with lanes := db.lanes.update p f } := by
  intro root laneId hLookup
  refine (h root laneId hLookup).mono fun lane hLane => ?_
  dsimp only
  rw [Rows.byId_update, hLane, Option.map_some]
  refine ⟨_, rfl, ?_, fun phase hPhase hStatus => ⟨phase, hPhase, hStatus⟩⟩
  split
  · exact hf _
  · rfl

theorem byId_of_byTextId {δ : Type} {rows : Rows δ} {row : Row δ} {textId : String}
    (h : rows.byTextId textId = some row) : rows.byId row.id = some row :=
  Rows.byId_eq_some.mpr ⟨(Rows.byTextId_eq_some.mp h).1, rfl⟩

theorem FocusValid.focusWorkbenchLane {root laneTextId phaseTextId : String} (h : FocusValid db)
    (hOk : SqliteWriter.focusWorkbenchLane root laneTextId phaseTextId db = .ok db') :
    FocusValid db' := by
  obtain ⟨lane, phase, hLane, hPhase, -, hStatus, rfl⟩ := focusWorkbenchLane_eq_ok hOk
  exact h.insert (byId_of_byTextId hLane) hPhase hStatus

theorem FocusValid.startAndFocusWorkbenchLane {root laneTextId phaseTextId : String}
    (h : FocusValid db)
    (hOk : SqliteWriter.startAndFocusWorkbenchLane root laneTextId phaseTextId db = .ok db') :
    FocusValid db' := by
  obtain ⟨lane, phase, hLane, -, hPhase, -, hStatus, rfl⟩ := startAndFocusWorkbenchLane_eq_ok hOk
  exact (h.insert (byId_of_byTextId hLane) hPhase hStatus).updateLanes fun _ => rfl

theorem FocusValid.removePreparedWorkbenchLane {textId : String} (h : FocusValid db)
    (hOk : SqliteWriter.removePreparedWorkbenchLane textId db = .ok db') : FocusValid db' := by
  obtain ⟨lane, hLane, -, rfl⟩ := removePreparedWorkbenchLane_eq_ok hOk
  intro root laneId hLookup
  obtain ⟨hKept, -⟩ := Table.lookup_retain_eq_some.mp hLookup
  obtain ⟨hOld, hNe⟩ := Table.lookup_retain_eq_some.mp hKept
  refine (h root laneId hOld).mono fun lane' hLane' =>
    ⟨lane', ?_, rfl, fun phase hPhase hStatus => ⟨phase, hPhase, hStatus⟩⟩
  refine (Rows.byId_filter _ _).trans ?_
  rw [hLane', Option.filter_some, if_pos]
  refine Bool.not_eq_true' .. ▸ Bool.and_eq_false_imp.mpr fun hTextId => ?_
  have hEq := Rows.eq_of_textId (Rows.byId_eq_some.mp hLane').1 (Rows.byTextId_eq_some.mp hLane).1
    ((of_decide_eq_true hTextId).trans (Rows.byTextId_eq_some.mp hLane).2.symm)
  exact absurd ((Rows.byId_eq_some.mp hLane').2.symm.trans (congrArg Row.id hEq)) (of_decide_eq_true hNe)

/-! ## Commands -/

theorem FocusValid.exec (op : WriterCall) (h : FocusValid db) : FocusValid (op.exec fx db).2 := by
  cases op with
  | removeEpoch textId => exact commit_snd h fun _ => h.removeEpoch
  | bankruptEpoch textId => exact commit_snd h fun _ => h.bankruptEpoch
  | addPhase textId epochTextId title kind => exact commit_snd h fun _ => h.addPhase
  | removePhase textId => exact commit_snd h fun _ => h.removePhase
  | updatePhaseStatus textId status now => exact commit_snd h fun _ => h.updatePhaseStatus
  | updatePhaseTitle textId title =>
    refine commit_snd h fun db' hOk => ?_
    obtain rfl := updatePhaseTitle_eq_ok hOk
    exact h.updatePhases fun _ => rfl
  | reorderPhase textId position =>
    refine commit_snd h fun db' hOk => ?_
    obtain ⟨sortKey, rfl⟩ := reorderPhase_eq_ok hOk
    exact h.updatePhases fun _ => rfl
  | movePhaseToEpoch textId epochTextId position =>
    refine commit_snd h fun db' hOk => ?_
    obtain ⟨epoch, sortKey, -, rfl⟩ := movePhaseToEpoch_eq_ok hOk
    exact h.updatePhases fun _ => rfl
  | focusPhaseForWorkspace root phaseTextId =>
    refine commit_snd h fun db' hOk => ?_
    obtain ⟨phase, focus, -, rfl | rfl, rfl⟩ := focusPhaseForWorkspace_eq_ok hOk
    · exact h.congr rfl rfl rfl
    · refine h.of_phases rfl fun root' laneId hLookup => ⟨?_, fun _ _ phase hPhase hStatus =>
        ⟨phase, hPhase, hStatus⟩⟩
      dsimp only at hLookup
      rw [Table.lookup_erase] at hLookup
      split at hLookup
      · cases hLookup
      · exact hLookup
  | completePhaseAndClearLaneFocus phaseTextId now =>
    exact commit_snd h fun _ => h.completePhaseAndClearLaneFocus
  | addWorkbenchLane textId title intent phaseTextId now =>
    exact commit_snd h fun _ => h.addWorkbenchLane
  | focusWorkbenchLane root laneTextId phaseTextId =>
    exact commit_snd h fun _ => h.focusWorkbenchLane
  | startAndFocusWorkbenchLane root laneTextId phaseTextId =>
    exact commit_snd h fun _ => h.startAndFocusWorkbenchLane
  | removePreparedWorkbenchLane laneTextId =>
    exact commit_snd h fun _ => h.removePreparedWorkbenchLane
  | addEpoch textId title =>
    refine commit_snd h fun db' hOk => ?_
    obtain ⟨sortKey, epochs, -, rfl⟩ := addEpoch_eq_ok hOk
    exact h.congr rfl rfl rfl
  | updateEpochReviewed textId reviewed =>
    refine commit_snd h fun db' hOk => ?_
    obtain rfl := updateEpochReviewed_eq_ok hOk
    exact h.congr rfl rfl rfl
  | updateEpochTitle textId title =>
    refine commit_snd h fun db' hOk => ?_
    obtain rfl := updateEpochTitle_eq_ok hOk
    exact h.congr rfl rfl rfl
  | reorderEpoch textId position =>
    refine commit_snd h fun db' hOk => ?_
    obtain ⟨sortKey, rfl⟩ := reorderEpoch_eq_ok hOk
    exact h.congr rfl rfl rfl
  | clearPhaseOwner phaseTextId =>
    refine commit_snd h fun db' hOk => ?_
    obtain ⟨phase, -, rfl⟩ := clearPhaseOwner_eq_ok hOk
    exact h.congr rfl rfl rfl
  | addGoal phaseTextId goalId label rfc targetStage =>
    refine commit_snd h fun db' hOk => ?_
    obtain ⟨phase, sortKey, goals, -, -, rfl⟩ := addGoal_eq_ok hOk
    exact h.congr rfl rfl rfl
  | removeGoal textId =>
    refine commit_snd h fun db' hOk => ?_
    obtain ⟨goal, -, rfl⟩ := removeGoal_eq_ok hOk
    exact h.congr rfl rfl rfl
  | updateGoalStatus textId status =>
    refine commit_snd h fun db' hOk => ?_
    obtain ⟨goal, newStatus, -, -, rfl⟩ := updateGoalStatus_eq_ok hOk
    exact h.congr rfl rfl rfl
  | updateGoalLabel textId label =>
    refine commit_snd h fun db' hOk => ?_
    obtain ⟨goal, -, rfl⟩ := updateGoalLabel_eq_ok hOk
    exact h.congr rfl rfl rfl
  | updateGoalCompletionLog textId log =>
    refine commit_snd h fun db' hOk => ?_
    obtain ⟨goal, -, rfl⟩ := updateGoalCompletionLog_eq_ok hOk
    exact h.congr rfl rfl rfl
  | reorderGoal textId position =>
    refine commit_snd h fun db' hOk => ?_
    obtain ⟨goal, sortKey, -, rfl⟩ := reorderGoal_eq_ok hOk
    exact h.congr rfl rfl rfl
  | moveGoalToPhasePosition textId phaseTextId position =>
    refine commit_snd h fun db' hOk => ?_
    obtain ⟨phase, goal, sortKey, -, -, rfl⟩ := moveGoalToPhasePosition_eq_ok hOk
    exact h.congr rfl rfl rfl
  | addTask goalTextId taskId title notes =>
    refine commit_snd h fun db' hOk => ?_
    obtain ⟨goal, sortKey, tasks, -, -, -, rfl⟩ := addTask_eq_ok hOk
    exact h.congr rfl rfl rfl
  | renameTaskHandle taskRowId oldTaskId newTaskId =>
    refine commit_snd h fun db' hOk => ?_
    obtain ⟨task, goal, tasks, inbox, -, -, -, -, -, rfl⟩ := renameTaskHandle_eq_ok hOk
    exact h.congr rfl rfl rfl
  | updateTaskStatusByRowId taskRowId status now =>
    refine commit_snd h fun db' hOk => ?_
    obtain ⟨task, -, rfl⟩ := updateTaskStatusByRowId_eq_ok hOk
    exact h.congr rfl rfl rfl
  | updateTaskTitleByRowId taskRowId title =>
    refine commit_snd h fun db' hOk => ?_
    obtain ⟨task, -, rfl⟩ := updateTaskTitleByRowId_eq_ok hOk
    exact h.congr rfl rfl rfl
  | completeTaskByRowId taskRowId log now =>
    refine commit_snd h fun db' hOk => ?_
    obtain ⟨task, -, rfl⟩ := completeTaskByRowId_eq_ok hOk
    exact h.congr rfl rfl rfl
  | addTaskLogByRowId taskRowId kind message =>
    refine commit_snd h fun db' hOk => ?_
    obtain ⟨task, -, rfl⟩ := addTaskLogByRowId_eq_ok hOk
    exact h.congr rfl rfl rfl
  | reorderTaskByRowId taskRowId position =>
    refine commit_snd h fun db' hOk => ?_
    obtain ⟨task, sortKey, -, rfl⟩ := reorderTaskByRowId_eq_ok hOk
    exact h.congr rfl rfl rfl
  | addInboxItem textId entityType entityId intent agentId now =>
    refine commit_snd h fun db' hOk => ?_
    obtain ⟨inbox, -, rfl⟩ := addInboxItem_eq_ok hOk
    exact h.congr rfl rfl rfl
  | updateInboxStatus textId status =>
    refine commit_snd h fun db' hOk => ?_
    obtain rfl := updateInboxStatus_eq_ok hOk
    exact h.congr rfl rfl rfl
  | removeTaskByRowId taskRowId =>
    rw [WriterCall.exec, removeTaskByRowId_snd]
    exact h.congr rfl rfl rfl
  | replacePhaseRfcs textId rfcs =>
    obtain ⟨phaseRfcs, hEq⟩ := replacePhaseRfcs_snd textId rfcs db
    rw [WriterCall.exec, hEq]
    exact h.congr rfl rfl rfl
  | claimPhaseOwnerIfCurrent phaseTextId current expectedOwner now =>
    refine commitReply_snd h fun reply db' hOk => ?_
    obtain ⟨phase, -, ⟨owner, -, -, rfl⟩ | ⟨-, -, rfl⟩⟩ := claimPhaseOwnerIfCurrent_eq_ok hOk
    · exact h.congr rfl rfl rfl
    · exact h
  | clearPhaseOwnerIfCurrent phaseTextId expected =>
    refine commitReply_snd h fun reply db' hOk => ?_
    obtain ⟨phase, -, rfl | rfl⟩ := clearPhaseOwnerIfCurrent_eq_ok hOk
    · exact h.congr rfl rfl rfl
    · exact h

theorem FocusValid.dispatchMut {env : Env} {command : Command} (h : FocusValid db) :
    FocusValid (Plan.dispatchMut fx env command db).2 :=
  Program.invariant_run (fun _ _ hs => hs.exec _) _ h

theorem focusValid_empty : FocusValid .empty := fun _ _ h => nomatch h

theorem focusValid_of_run {requests : List Request}
    (hRun : run (step fx) Database.empty requests = some db) : FocusValid db := by
  refine invariant_of_step (fun s request s' hs hStep => ?_) focusValid_empty hRun
  exact Option.some.inj hStep ▸ hs.dispatchMut

/-! ## The pin -/

/-- The workspace's focus is on the lane, and its pin on the lane's phase. -/
def PinnedTo (db : Database) (root : String) (lane : Row LaneData) : Prop :=
  db.workspaceLaneFocus.lookup root = some lane.id ∧
    db.workspaceActivePhase.lookup root = some lane.data.executionPhaseId

theorem pinnedTo_of_focusWorkbenchLane {root phaseTextId : String} {lane : Row LaneData}
    (hLane : lane ∈ db.lanes)
    (hOk : SqliteWriter.focusWorkbenchLane root lane.textId phaseTextId db = .ok db') :
    PinnedTo db' root lane := by
  obtain ⟨lane', phase, hLane', hPhase, -, -, rfl⟩ := focusWorkbenchLane_eq_ok hOk
  obtain ⟨hMem, hText⟩ := Rows.byTextId_eq_some.mp hLane'
  obtain rfl := Rows.eq_of_textId hMem hLane hText
  exact ⟨AList.lookup_insert _, by
    rw [← (Rows.byId_eq_some.mp hPhase).2]
    exact AList.lookup_insert _⟩

theorem pinnedTo_of_startAndFocusWorkbenchLane {root phaseTextId : String} {lane : Row LaneData}
    (hLane : lane ∈ db.lanes)
    (hOk : SqliteWriter.startAndFocusWorkbenchLane root lane.textId phaseTextId db = .ok db') :
    PinnedTo db' root lane := by
  obtain ⟨lane', phase, hLane', -, hPhase, -, -, rfl⟩ := startAndFocusWorkbenchLane_eq_ok hOk
  obtain ⟨hMem, hText⟩ := Rows.byTextId_eq_some.mp hLane'
  obtain rfl := Rows.eq_of_textId hMem hLane hText
  exact ⟨AList.lookup_insert _, by
    rw [← (Rows.byId_eq_some.mp hPhase).2]
    exact AList.lookup_insert _⟩

theorem mem_of_lane {id : String} {lane : Database.WorkbenchLane} (h : db.lane id = .ok lane) :
    lane.row ∈ db.lanes := by
  have hLoad : lane ∈ db.loadWorkbenchLanes := by
    unfold Database.lane at h
    split at h
    · next hFind => exact Except.ok.inj h ▸ List.mem_of_find?_eq_some hFind
    · split at h
      · cases h
      · split at h
        · next hFilter =>
          exact (List.mem_filter.mp (hFilter ▸ List.mem_singleton.mpr (Except.ok.inj h).symm)).1
        · cases h
        · cases h
  obtain ⟨row, hRow, hMap⟩ := List.mem_filterMap.mp hLoad
  obtain ⟨phase, -, rfl⟩ := Option.map_eq_some_iff.mp hMap
  exact mem_orderBy.mp hRow

theorem run_requireWorkspaceRoot_eq_ok {env : Env} {root : String}
    {exec : WriterCall → Database → Except Failure Bool × Database}
    (h : (requireWorkspaceRoot env).run exec db = (.ok root, db')) :
    env.workspaceRoot = some root ∧ db = db' := by
  unfold requireWorkspaceRoot at h
  split at h
  · next root' hRoot =>
    cases h
    exact ⟨hRoot, rfl⟩
  · cases h

theorem run_laneMutationOutput_eq_ok {env : Env} {laneId : String}
    {exec : WriterCall → Database → Except Failure Bool × Database}
    (h : (laneMutationOutput env laneId).run exec db = (.ok (), db')) : db = db' := by
  obtain ⟨_, -, h⟩ := Cmd.run_tryQuery_bind_eq_ok.mp h
  cases h
  rfl

theorem pinnedTo_of_laneFocus {env : Env} {id : String}
    (h : dispatchMut fx env (.laneFocus id) db = (.ok (), db')) :
    ∃ root lane, env.workspaceRoot = some root ∧ db.lane id = .ok lane ∧
      PinnedTo db' root lane.row := by
  unfold dispatchMut Command.executeMut Plan.laneFocus at h
  obtain ⟨⟨lane, phase⟩, hFind, h⟩ := Cmd.run_tryQuery_bind_eq_ok.mp h
  obtain ⟨lane', hLane, hPhase⟩ := bind_eq_ok.mp hFind
  obtain ⟨phase', -, hPair⟩ := bind_eq_ok.mp hPhase
  cases hPair
  dsimp only at h
  split at h
  · obtain ⟨root, db₁, hRoot, h⟩ := Program.run_bind_eq_ok.mp h
    obtain ⟨hSome, rfl⟩ := run_requireWorkspaceRoot_eq_ok hRoot
    obtain ⟨_, db₂, hCall, h⟩ := Program.run_bind_eq_ok.mp h
    obtain ⟨reply, hExec⟩ := Cmd.run_call_eq_ok.mp hCall
    obtain rfl := run_laneMutationOutput_eq_ok h
    exact ⟨root, lane, hSome, hLane,
      pinnedTo_of_focusWorkbenchLane (mem_of_lane hLane) (commit_eq_ok hExec)⟩
  · exact absurd (congrArg Prod.fst h) nofun

theorem pinnedTo_of_laneStart {env : Env} {id : String}
    (h : dispatchMut fx env (.laneStart id) db = (.ok (), db')) :
    ∃ root lane, env.workspaceRoot = some root ∧ db.lane id = .ok lane ∧
      PinnedTo db' root lane.row := by
  unfold dispatchMut Command.executeMut Plan.laneStart at h
  obtain ⟨⟨lane, phase⟩, hFind, h⟩ := Cmd.run_tryQuery_bind_eq_ok.mp h
  obtain ⟨lane', hLane, hPhase⟩ := bind_eq_ok.mp hFind
  obtain ⟨phase', -, hPair⟩ := bind_eq_ok.mp hPhase
  cases hPair
  dsimp only at h
  split at h
  · exact absurd (congrArg Prod.fst h) nofun
  · split at h
    · exact absurd (congrArg Prod.fst h) nofun
    · obtain ⟨_, db₁, hGuard, h⟩ := Program.run_bind_eq_ok.mp h
      obtain ⟨_, rfl⟩ := guarded_frame (run_ensurePhaseWriteAllowed_eq_ok.mp hGuard)
      obtain ⟨root, db₂, hRoot, h⟩ := Program.run_bind_eq_ok.mp h
      obtain ⟨hSome, rfl⟩ := run_requireWorkspaceRoot_eq_ok hRoot
      obtain ⟨_, db₃, hCall, h⟩ := Program.run_bind_eq_ok.mp h
      obtain ⟨reply, hExec⟩ := Cmd.run_call_eq_ok.mp hCall
      obtain rfl := run_laneMutationOutput_eq_ok h
      refine ⟨root, lane, hSome, hLane, ?_⟩
      exact pinnedTo_of_startAndFocusWorkbenchLane (by exact mem_of_lane hLane) (commit_eq_ok hExec)

/-- In every reachable state each focus is on a lane of a phase in progress, and a
lane focus or a lane start pins the workspace to the phase of the lane. -/
theorem lane_focus_stays_valid {requests : List Request}
    (hRun : run (step fx) Database.empty requests = some db) :
    FocusValid db ∧
      ∀ env id db', (dispatchMut fx env (.laneFocus id) db = (.ok (), db') ∨
          dispatchMut fx env (.laneStart id) db = (.ok (), db')) →
        ∃ root lane, env.workspaceRoot = some root ∧ db.lane id = .ok lane ∧
          PinnedTo db' root lane.row := by
  refine ⟨focusValid_of_run hRun, fun env id db' h => ?_⟩
  obtain h | h := h
  · exact pinnedTo_of_laneFocus h
  · exact pinnedTo_of_laneStart h

/-- A run that starts a lane. -/
theorem lane_focus_stays_valid_sample :
    ∃ db, FocusValid db ∧ db.workspaceLaneFocus.lookup "/work/a" = some 1 :=
  ⟨_, (@lane_focus_stays_valid sampleIndex _ (sampleRequests ++
      [ ⟨sampleEnv "a" "l1", .laneCreate "Lane" "Try it" "p1"⟩,
        ⟨sampleEnv "a" "", .laneStart "l1"⟩ ]) rfl).1, by decide +kernel⟩

end Exosuit.Plan
