import Exosuit.Plan.Calls

/-!
# What a successful write leaves

One lemma for each function of the writer: what it found, and the database it
commits. Later proofs use these and do not unfold the writer.
-/

namespace Exosuit.Plan

open Lib PhaseOwner

/-! ## Commits -/

theorem commit_snd {I : Database → Prop} {db : Database} {r : Except Failure Database} (h : I db)
    (hOk : ∀ db', r = .ok db' → I db') : I (commit db r).2 := by
  cases r with
  | ok db' => exact hOk db' rfl
  | error e => exact h

theorem commitReply_snd {I : Database → Prop} {db : Database} {r : Except Failure (Bool × Database)}
    (h : I db) (hOk : ∀ reply db', r = .ok (reply, db') → I db') : I (commitReply db r).2 := by
  cases r with
  | ok result => exact hOk result.1 result.2 rfl
  | error e => exact h

theorem commit_eq_ok {db db' : Database} {r : Except Failure Database} {reply : Bool}
    (h : commit db r = (.ok reply, db')) : r = .ok db' := by
  cases r with
  | ok db'' =>
    cases h
    rfl
  | error e => cases h

namespace SqliteWriter

variable {fx : FractionalIndex} {db db' : Database}

section Rows

variable {δ : Type} {rows rows' : Rows δ} {textId table entity : String} {rowId : Nat} {f : δ → δ}
  {data : δ}

theorem resolveId_eq_ok :
    resolveId table rows textId = .ok rowId ↔ ∃ row, rows.byTextId textId = some row ∧ row.id = rowId := by
  rw [resolveId]
  cases rows.byTextId textId with
  | none => exact ⟨nofun, fun ⟨_, h, _⟩ => nomatch h⟩
  | some row =>
    exact ⟨fun h => ⟨row, rfl, Except.ok.inj h⟩, fun ⟨_, h, hId⟩ =>
      congrArg Except.ok (Option.some.inj h ▸ hId)⟩

theorem updateRow_eq_ok :
    updateRow entity rows textId f = .ok rows' ↔
      (∃ row, rows.byTextId textId = some row) ∧
        rows.update (fun row => row.textId = textId) f = rows' := by
  rw [updateRow]
  cases rows.byTextId textId with
  | none => exact ⟨nofun, fun ⟨⟨_, h⟩, _⟩ => nomatch h⟩
  | some row => exact ⟨fun h => ⟨⟨row, rfl⟩, Except.ok.inj h⟩, fun h => congrArg Except.ok h.2⟩

theorem updateRowById_eq_ok :
    updateRowById entity rows rowId f = .ok rows' ↔
      (∃ row, rows.byId rowId = some row) ∧ rows.update (fun row => row.id = rowId) f = rows' := by
  rw [updateRowById]
  cases rows.byId rowId with
  | none => exact ⟨nofun, fun ⟨⟨_, h⟩, _⟩ => nomatch h⟩
  | some row => exact ⟨fun h => ⟨⟨row, rfl⟩, Except.ok.inj h⟩, fun h => congrArg Except.ok h.2⟩

theorem insertRow_eq_ok :
    insertRow entity rows textId data = .ok rows' ↔ rows.insert textId data = some rows' := by
  rw [insertRow]
  cases rows.insert textId data with
  | none => exact ⟨nofun, nofun⟩
  | some rows'' => exact ⟨fun h => congrArg some (Except.ok.inj h), fun h => congrArg Except.ok (Option.some.inj h)⟩

end Rows

/-! ## Deletions -/

def doomedPhase (p : Row PhaseData → Bool) (db : Database) (id : Nat) : Bool :=
  db.phases.rows.any fun phase => phase.id == id && p phase

theorem deletePhases_eq_some {p : Row PhaseData → Bool} (h : db.deletePhases p = some db') :
    (∀ lane ∈ db.lanes, doomedPhase p db lane.data.executionPhaseId = false) ∧
      db' = Database.deleteGoals
        { db with
          phases := db.phases.filter fun phase => !p phase
          phaseOwnership := db.phaseOwnership.retain fun id _ => !doomedPhase p db id
          workspaceActivePhase := db.workspaceActivePhase.retain fun _ id => !doomedPhase p db id
          phaseRfcs := db.phaseRfcs.filter fun row => !doomedPhase p db row.1 }
        fun goal => doomedPhase p db goal.data.phaseId := by
  unfold Database.deletePhases at h
  dsimp only at h
  split at h
  · cases h
  · next hLanes =>
    refine ⟨fun lane hLane => ?_, (Option.some.inj h).symm⟩
    rw [Bool.not_eq_true, List.any_eq_false] at hLanes
    exact Bool.eq_false_of_not_eq_true (hLanes lane hLane)

theorem doomedPhase_eq_true {p : Row PhaseData → Bool} {phase : Row PhaseData}
    (hPhase : phase ∈ db.phases) : doomedPhase p db phase.id = true ↔ p phase = true := by
  rw [doomedPhase, List.any_eq_true]
  constructor
  · rintro ⟨row, hRow, hp⟩
    rw [Bool.and_eq_true, beq_iff_eq] at hp
    rw [← Rows.eq_of_id hRow hPhase hp.1]
    exact hp.2
  · intro hp
    exact ⟨phase, hPhase, by simp [hp]⟩

theorem deleteEpochs_eq_some {p : Row EpochData → Bool} (h : db.deleteEpochs p = some db') :
    { db with epochs := db.epochs.filter fun epoch => !p epoch }.deletePhases
      (fun phase => db.epochs.rows.any fun epoch => epoch.id == phase.data.epochId && p epoch) =
        some db' := h

/-! ## Epochs -/

theorem addEpoch_eq_ok {textId title : String} (h : addEpoch fx textId title db = .ok db') :
    ∃ sortKey epochs,
      db.epochs.insert textId { title, slug := none, reviewed := false, sortKey } = some epochs ∧
        db' = { db with epochs } := by
  simp only [addEpoch, bind_eq_ok, insertRow_eq_ok, pure_eq_ok] at h
  obtain ⟨sortKey, -, epochs, hEpochs, rfl⟩ := h
  exact ⟨sortKey, epochs, hEpochs, rfl⟩

theorem removeEpoch_eq_ok {textId : String} (h : removeEpoch textId db = .ok db') :
    ∃ epoch, db.epochs.byTextId textId = some epoch ∧
      (deleteEntityAliases .epoch epoch.id db).deleteEpochs (fun row => row.textId = textId) =
        some db' := by
  unfold removeEpoch at h
  split at h
  · cases h
  · next epoch hEpoch =>
    split at h
    · next hDelete => exact ⟨epoch, hEpoch, Except.ok.inj h ▸ hDelete⟩
    · cases h

theorem updateEpochReviewed_eq_ok {textId : String} {reviewed : Bool}
    (h : updateEpochReviewed textId reviewed db = .ok db') :
    db' = { db with
      epochs := db.epochs.update (fun row => row.textId = textId) fun data => { data with reviewed } } := by
  simp only [updateEpochReviewed, bind_eq_ok, updateRow_eq_ok, pure_eq_ok] at h
  obtain ⟨_, ⟨-, rfl⟩, rfl⟩ := h
  rfl

theorem updateEpochTitle_eq_ok {textId title : String}
    (h : updateEpochTitle textId title db = .ok db') :
    db' = { db with
      epochs := db.epochs.update (fun row => row.textId = textId) fun data => { data with title } } := by
  simp only [updateEpochTitle, bind_eq_ok, updateRow_eq_ok, pure_eq_ok] at h
  obtain ⟨_, ⟨-, rfl⟩, rfl⟩ := h
  rfl

theorem reorderEpoch_eq_ok {textId position : String}
    (h : reorderEpoch fx textId position db = .ok db') :
    ∃ sortKey, db' = { db with
      epochs := db.epochs.update (fun row => row.textId = textId) fun data =>
        { data with sortKey } } := by
  unfold reorderEpoch at h
  split at h
  · cases h
  · simp only [bind_eq_ok, updateRow_eq_ok, pure_eq_ok] at h
    obtain ⟨key, -, _, ⟨-, rfl⟩, rfl⟩ := h
    exact ⟨fx.toString key, rfl⟩

def bankruptPhases (epochId : Nat) (db : Database) : Rows PhaseData :=
  db.phases.update (fun row => row.data.epochId = epochId && isOpen row.data.status)
    fun data => { data with status := .abandoned }

theorem bankruptEpoch_eq_ok {textId : String} (h : bankruptEpoch textId db = .ok db') :
    ∃ epoch, db.epochs.byTextId textId = some epoch ∧
      db' = { db with
        phases := bankruptPhases epoch.id db
        goals := db.goals.update
          (fun row => (db.phases.byId row.data.phaseId).any (fun phase => phase.data.epochId = epoch.id) &&
            isOpen row.data.status)
          fun data => { data with status := .abandoned }
        workspaceLaneFocus := db.workspaceLaneFocus.retain fun _ laneId =>
          !(db.lanes.byId laneId).any fun lane =>
            ((bankruptPhases epoch.id db).byId lane.data.executionPhaseId).any fun phase =>
              phase.data.epochId = epoch.id && phase.data.status = .abandoned } := by
  simp only [bankruptEpoch, bind_eq_ok, resolveId_eq_ok, pure_eq_ok] at h
  obtain ⟨_, ⟨epoch, hEpoch, rfl⟩, rfl⟩ := h
  exact ⟨epoch, hEpoch, rfl⟩

/-! ## Phases -/

theorem addPhase_eq_ok {textId epochTextId title : String} {kind : PhaseKind}
    (h : addPhase fx textId epochTextId title kind db = .ok db') :
    ∃ epoch sortKey phases, db.epochs.byTextId epochTextId = some epoch ∧
      db.phases.insert textId
        { title, status := .pending, epochId := epoch.id, kind, sortKey, slug := none,
          completedAt := none } = some phases ∧
        db' = { db with phases } := by
  simp only [addPhase, bind_eq_ok, resolveId_eq_ok, insertRow_eq_ok, pure_eq_ok] at h
  obtain ⟨_, ⟨epoch, hEpoch, rfl⟩, sortKey, -, phases, hPhases, rfl⟩ := h
  exact ⟨epoch, sortKey, phases, hEpoch, hPhases, rfl⟩

theorem removePhase_eq_ok {textId : String} (h : removePhase textId db = .ok db') :
    ∃ phase, db.phases.byTextId textId = some phase ∧
      (deleteEntityAliases .phase phase.id db).deletePhases (fun row => row.textId = textId) =
        some db' := by
  unfold removePhase at h
  split at h
  · cases h
  · next phase hPhase =>
    split at h
    · next hDelete => exact ⟨phase, hPhase, Except.ok.inj h ▸ hDelete⟩
    · cases h

@[simp] theorem clearPhaseFocus_phases (phaseId : Nat) (db : Database) :
    (clearPhaseFocus phaseId db).phases = db.phases := rfl

theorem updatePhaseStatus_eq_ok {textId status now : String}
    (h : updatePhaseStatus textId status now db = .ok db') :
    ∃ phase newStatus phases, db.phases.byTextId textId = some phase ∧
      Status.fromName status = some newStatus ∧
      phases = db.phases.update (fun row => row.textId = textId) (fun data =>
        { data with
          status := newStatus
          completedAt := if newStatus = .completed then some (data.completedAt.getD now) else none }) ∧
      db' = if newStatus ≠ .inProgress then clearPhaseFocus phase.id { db with phases }
        else { db with phases } := by
  unfold updatePhaseStatus at h
  split at h
  · cases h
  · next phase hPhase =>
    split at h
    · cases h
    · next newStatus hStatus =>
      exact ⟨phase, newStatus, _, hPhase, hStatus, rfl, (Except.ok.inj h).symm⟩

theorem updatePhaseTitle_eq_ok {textId title : String}
    (h : updatePhaseTitle textId title db = .ok db') :
    db' = { db with
      phases := db.phases.update (fun row => row.textId = textId) fun data => { data with title } } := by
  simp only [updatePhaseTitle, bind_eq_ok, updateRow_eq_ok, pure_eq_ok] at h
  obtain ⟨_, ⟨-, rfl⟩, rfl⟩ := h
  rfl

theorem reorderPhase_eq_ok {textId position : String}
    (h : reorderPhase fx textId position db = .ok db') :
    ∃ sortKey, db' = { db with
      phases := db.phases.update (fun row => row.textId = textId) fun data =>
        { data with sortKey } } := by
  unfold reorderPhase at h
  split at h
  · cases h
  · simp only [bind_eq_ok, updateRow_eq_ok, pure_eq_ok] at h
    obtain ⟨sortKey, -, _, ⟨-, rfl⟩, rfl⟩ := h
    exact ⟨sortKey, rfl⟩

theorem movePhaseToEpoch_eq_ok {textId epochTextId : String} {position : Option String}
    (h : movePhaseToEpoch fx textId epochTextId position db = .ok db') :
    ∃ epoch sortKey, db.epochs.byTextId epochTextId = some epoch ∧
      db' = { db with
        phases := db.phases.update (fun row => row.textId = textId) fun data =>
          { data with epochId := epoch.id, sortKey } } := by
  unfold movePhaseToEpoch at h
  split at h
  · cases h
  · cases h
  · next epoch _ hEpoch _ =>
    simp only [bind_eq_ok, updateRow_eq_ok, pure_eq_ok] at h
    obtain ⟨sortKey, -, _, ⟨-, rfl⟩, rfl⟩ := h
    exact ⟨epoch, sortKey, hEpoch, rfl⟩

theorem insertPhaseRfcs_snd (phaseId : Nat) (rfcs : List String) (db : Database) :
    ∃ phaseRfcs, (insertPhaseRfcs phaseId rfcs db).2 = { db with phaseRfcs } := by
  induction rfcs generalizing db with
  | nil => exact ⟨_, rfl⟩
  | cons rfcId rfcs ih =>
    rw [insertPhaseRfcs]
    split
    · exact ⟨_, rfl⟩
    · obtain ⟨phaseRfcs, h⟩ := ih { db with phaseRfcs := db.phaseRfcs ++ [(phaseId, rfcId)] }
      exact ⟨phaseRfcs, h⟩

theorem replacePhaseRfcs_snd (textId : String) (rfcs : List String) (db : Database) :
    ∃ phaseRfcs, (replacePhaseRfcs textId rfcs db).2 = { db with phaseRfcs } := by
  rw [replacePhaseRfcs]
  split
  · exact ⟨_, rfl⟩
  · exact insertPhaseRfcs_snd _ _ _

/-! ## Pins, lanes and owners -/

theorem setWorkspaceActivePhase_eq_ok {root phaseTextId : String}
    (h : setWorkspaceActivePhase root phaseTextId db = .ok db') :
    ∃ phase, db.phases.byTextId phaseTextId = some phase ∧
      db' = { db with workspaceActivePhase := db.workspaceActivePhase.insert root phase.id } := by
  simp only [setWorkspaceActivePhase, bind_eq_ok, resolveId_eq_ok, pure_eq_ok] at h
  obtain ⟨_, ⟨phase, hPhase, rfl⟩, rfl⟩ := h
  exact ⟨phase, hPhase, rfl⟩

theorem setWorkspaceLaneFocus_eq_ok {root laneTextId : String}
    (h : setWorkspaceLaneFocus root laneTextId db = .ok db') :
    ∃ lane, db.lanes.byTextId laneTextId = some lane ∧
      db' = { db with workspaceLaneFocus := db.workspaceLaneFocus.insert root lane.id } := by
  simp only [setWorkspaceLaneFocus, bind_eq_ok, resolveId_eq_ok, pure_eq_ok] at h
  obtain ⟨_, ⟨lane, hLane, rfl⟩, rfl⟩ := h
  exact ⟨lane, hLane, rfl⟩

theorem focusPhaseForWorkspace_eq_ok {root phaseTextId : String}
    (h : focusPhaseForWorkspace root phaseTextId db = .ok db') :
    ∃ phase workspaceLaneFocus, db.phases.byTextId phaseTextId = some phase ∧
      (workspaceLaneFocus = db.workspaceLaneFocus ∨
        workspaceLaneFocus = db.workspaceLaneFocus.erase root) ∧
      db' = { db with
        workspaceActivePhase := db.workspaceActivePhase.insert root phase.id
        workspaceLaneFocus } := by
  simp only [focusPhaseForWorkspace, bind_eq_ok, pure_eq_ok] at h
  obtain ⟨db₁, hSet, rfl⟩ := h
  obtain ⟨phase, hPhase, rfl⟩ := setWorkspaceActivePhase_eq_ok hSet
  split
  · exact ⟨phase, _, hPhase, .inl rfl, rfl⟩
  · exact ⟨phase, _, hPhase, .inr rfl, rfl⟩

theorem completePhaseAndClearLaneFocus_eq_ok {textId now : String}
    (h : completePhaseAndClearLaneFocus textId now db = .ok db') :
    ∃ phase, db.phases.byTextId textId = some phase ∧
      db' = clearPhaseFocus phase.id { db with
        phases := db.phases.update (fun row => row.id = phase.id) fun data =>
          { data with status := .completed, completedAt := some (data.completedAt.getD now) } } := by
  simp only [completePhaseAndClearLaneFocus, bind_eq_ok, resolveId_eq_ok, updateRowById_eq_ok,
    pure_eq_ok] at h
  obtain ⟨_, ⟨phase, hPhase, rfl⟩, _, ⟨-, rfl⟩, rfl⟩ := h
  exact ⟨phase, hPhase, rfl⟩

theorem addWorkbenchLane_eq_ok {textId title intent phaseTextId now : String}
    (h : addWorkbenchLane textId title intent phaseTextId now db = .ok db') :
    ∃ phase lanes, db.phases.byTextId phaseTextId = some phase ∧
      db.lanes.insert textId
        { title, intent, state := .prepared, executionPhaseId := phase.id, createdAt := now } =
          some lanes ∧
        db' = { db with lanes } := by
  simp only [addWorkbenchLane, bind_eq_ok, resolveId_eq_ok] at h
  obtain ⟨_, ⟨phase, hPhase, rfl⟩, h⟩ := h
  split at h
  · cases h
  · simp only [bind_eq_ok, insertRow_eq_ok, pure_eq_ok] at h
    obtain ⟨lanes, hLanes, rfl⟩ := h
    exact ⟨phase, lanes, hPhase, hLanes, rfl⟩

theorem startWorkbenchLane_eq_ok {textId : String} (h : startWorkbenchLane textId db = .ok db') :
    ∃ lane, db.lanes.byTextId textId = some lane ∧ lane.data.state = .prepared ∧
      db' = { db with
        lanes := db.lanes.update (fun row => row.textId = textId) fun data =>
          { data with state := .executing } } := by
  unfold startWorkbenchLane at h
  split at h
  · cases h
  · next lane hLane =>
    split at h
    · next hState => exact ⟨lane, hLane, hState, (Except.ok.inj h).symm⟩
    · cases h

theorem requireLanePhaseInProgress_eq_ok {laneTextId phaseTextId : String}
    (h : requireLanePhaseInProgress laneTextId phaseTextId db = .ok ()) :
    ∃ lane phase, db.lanes.byTextId laneTextId = some lane ∧
      db.phases.byId lane.data.executionPhaseId = some phase ∧ phase.textId = phaseTextId ∧
        phase.data.status = .inProgress := by
  unfold requireLanePhaseInProgress at h
  dsimp only at h
  split at h
  · next phase hPhase =>
    obtain ⟨lane, hLane, hFilter⟩ := Option.bind_eq_some_iff.mp hPhase
    obtain ⟨hById, hTextId⟩ := Option.filter_eq_some_iff.mp hFilter
    split at h
    · next hStatus => exact ⟨lane, phase, hLane, hById, by simpa using hTextId, hStatus⟩
    · cases h
  · cases h

theorem focusWorkbenchLane_eq_ok {root laneTextId phaseTextId : String}
    (h : focusWorkbenchLane root laneTextId phaseTextId db = .ok db') :
    ∃ lane phase, db.lanes.byTextId laneTextId = some lane ∧
      db.phases.byId lane.data.executionPhaseId = some phase ∧ phase.textId = phaseTextId ∧
        phase.data.status = .inProgress ∧
      db' = { db with
        workspaceActivePhase := db.workspaceActivePhase.insert root phase.id
        workspaceLaneFocus := db.workspaceLaneFocus.insert root lane.id } := by
  simp only [focusWorkbenchLane, bind_eq_ok] at h
  obtain ⟨_, hRequire, db₁, hSet, hFocus⟩ := h
  obtain ⟨lane, phase, hLane, hPhase, hTextId, hStatus⟩ := requireLanePhaseInProgress_eq_ok hRequire
  obtain ⟨phase', hPhase', rfl⟩ := setWorkspaceActivePhase_eq_ok hSet
  obtain ⟨lane', hLane', rfl⟩ := setWorkspaceLaneFocus_eq_ok hFocus
  obtain rfl : lane' = lane := Option.some.inj (hLane'.symm.trans hLane)
  obtain rfl : phase' = phase := Rows.eq_of_textId (Rows.byTextId_eq_some.mp hPhase').1
    (Rows.byId_eq_some.mp hPhase).1 ((Rows.byTextId_eq_some.mp hPhase').2.trans hTextId.symm)
  exact ⟨lane', phase', hLane, hPhase, hTextId, hStatus, rfl⟩

theorem startAndFocusWorkbenchLane_eq_ok {root laneTextId phaseTextId : String}
    (h : startAndFocusWorkbenchLane root laneTextId phaseTextId db = .ok db') :
    ∃ lane phase, db.lanes.byTextId laneTextId = some lane ∧ lane.data.state = .prepared ∧
      db.phases.byId lane.data.executionPhaseId = some phase ∧ phase.textId = phaseTextId ∧
        phase.data.status = .inProgress ∧
      db' = { db with
        lanes := db.lanes.update (fun row => row.textId = laneTextId) fun data =>
          { data with state := .executing }
        workspaceActivePhase := db.workspaceActivePhase.insert root phase.id
        workspaceLaneFocus := db.workspaceLaneFocus.insert root lane.id } := by
  simp only [startAndFocusWorkbenchLane, bind_eq_ok] at h
  obtain ⟨_, hRequire, db₁, hStart, db₂, hSet, hFocus⟩ := h
  obtain ⟨lane, phase, hLane, hPhase, hTextId, hStatus⟩ := requireLanePhaseInProgress_eq_ok hRequire
  obtain ⟨lane₁, hLane₁, hState, rfl⟩ := startWorkbenchLane_eq_ok hStart
  obtain ⟨phase', hPhase', rfl⟩ := setWorkspaceActivePhase_eq_ok hSet
  obtain ⟨lane', hLane', rfl⟩ := setWorkspaceLaneFocus_eq_ok hFocus
  obtain rfl : lane₁ = lane := Option.some.inj (hLane₁.symm.trans hLane)
  obtain rfl : phase' = phase := Rows.eq_of_textId (Rows.byTextId_eq_some.mp hPhase').1
    (Rows.byId_eq_some.mp hPhase).1 ((Rows.byTextId_eq_some.mp hPhase').2.trans hTextId.symm)
  have hId : lane'.id = lane₁.id := by
    dsimp only at hLane'
    rw [Rows.byTextId_update, hLane, Option.map_some] at hLane'
    rw [← Option.some.inj hLane']
    split <;> rfl
  exact ⟨lane₁, phase', hLane, hState, hPhase, hTextId, hStatus, by rw [hId]⟩

theorem removePreparedWorkbenchLane_eq_ok {textId : String}
    (h : removePreparedWorkbenchLane textId db = .ok db') :
    ∃ lane, db.lanes.byTextId textId = some lane ∧ lane.data.state = .prepared ∧
      db' = Database.deleteLanes
        { db with workspaceLaneFocus := db.workspaceLaneFocus.retain fun _ id => id ≠ lane.id }
        fun row => row.textId = textId && row.data.state = .prepared := by
  unfold removePreparedWorkbenchLane at h
  split at h
  · cases h
  · next lane hLane =>
    split at h
    · next hState => exact ⟨lane, hLane, hState, (Except.ok.inj h).symm⟩
    · cases h

/-! ## Owners -/

theorem claimPhaseOwnerIfCurrent_eq_ok {textId now : String} {current : CurrentPhaseOwner}
    {expectedOwner : Option Identity} {reply : Bool}
    (h : claimPhaseOwnerIfCurrent textId current expectedOwner now db = .ok (reply, db')) :
    ∃ phase, db.phases.byTextId textId = some phase ∧
      ((∃ owner, PhaseOwner.claimPhaseOwnerIfCurrent now current expectedOwner
            (db.phaseOwnership.lookup phase.id) = some owner ∧ reply = true ∧
          db' = { db with phaseOwnership := db.phaseOwnership.insert phase.id owner }) ∨
        (PhaseOwner.claimPhaseOwnerIfCurrent now current expectedOwner
            (db.phaseOwnership.lookup phase.id) = none ∧ reply = false ∧ db' = db)) := by
  simp only [claimPhaseOwnerIfCurrent, bind_eq_ok, resolveId_eq_ok] at h
  obtain ⟨_, ⟨phase, hPhase, rfl⟩, h⟩ := h
  refine ⟨phase, hPhase, ?_⟩
  split at h
  · next owner hOwner =>
    cases h
    exact .inl ⟨owner, hOwner, rfl, rfl⟩
  · next hOwner =>
    cases h
    exact .inr ⟨hOwner, rfl, rfl⟩

theorem clearPhaseOwner_eq_ok {textId : String} (h : clearPhaseOwner textId db = .ok db') :
    ∃ phase, db.phases.byTextId textId = some phase ∧
      db' = { db with phaseOwnership := db.phaseOwnership.erase phase.id } := by
  simp only [clearPhaseOwner, bind_eq_ok, resolveId_eq_ok, pure_eq_ok] at h
  obtain ⟨_, ⟨phase, hPhase, rfl⟩, rfl⟩ := h
  exact ⟨phase, hPhase, rfl⟩

theorem clearPhaseOwnerIfCurrent_eq_ok {textId : String} {expected : Identity} {reply : Bool}
    (h : clearPhaseOwnerIfCurrent textId expected db = .ok (reply, db')) :
    ∃ phase, db.phases.byTextId textId = some phase ∧
      (db' = { db with phaseOwnership := db.phaseOwnership.erase phase.id } ∨ db' = db) := by
  simp only [clearPhaseOwnerIfCurrent, bind_eq_ok, resolveId_eq_ok] at h
  obtain ⟨_, ⟨phase, hPhase, rfl⟩, h⟩ := h
  refine ⟨phase, hPhase, ?_⟩
  split at h
  · cases h
    exact .inl rfl
  · cases h
    exact .inr rfl

/-! ## Goals -/

theorem addGoal_eq_ok {phaseTextId goalId label : String} {rfc : Option String}
    {targetStage : Option Nat} (h : addGoal fx phaseTextId goalId label rfc targetStage db = .ok db') :
    ∃ phase sortKey goals, db.phases.byTextId phaseTextId = some phase ∧
      db.goals.insert goalId
        { label, status := .pending, phaseId := phase.id, sortKey, rfc, targetStage,
          startedAt := none, slug := none, completionLog := none } = some goals ∧
        db' = { db with goals } := by
  simp only [addGoal, bind_eq_ok, resolveId_eq_ok, insertRow_eq_ok, pure_eq_ok] at h
  obtain ⟨_, ⟨phase, hPhase, rfl⟩, sortKey, -, goals, hGoals, rfl⟩ := h
  exact ⟨phase, sortKey, goals, hPhase, hGoals, rfl⟩

theorem removeGoal_eq_ok {textId : String} (h : removeGoal textId db = .ok db') :
    ∃ goal, db.goals.byTextId textId = some goal ∧
      db' = (deleteEntityAliases .goal goal.id db).deleteGoals fun row => row.textId = textId := by
  unfold removeGoal at h
  split at h
  · cases h
  · next goal hGoal => exact ⟨goal, hGoal, (Except.ok.inj h).symm⟩

theorem updateGoalStatus_eq_ok {textId status : String}
    (h : updateGoalStatus textId status db = .ok db') :
    ∃ goal newStatus, db.goals.byTextId textId = some goal ∧
      Status.fromName status = some newStatus ∧
      db' = { db with
        goals := db.goals.update (fun row => row.textId = textId) fun data =>
          { data with status := newStatus } } := by
  unfold updateGoalStatus at h
  split at h
  · cases h
  · next goal hGoal =>
    split at h
    · cases h
    · next newStatus hStatus =>
      simp only [bind_eq_ok, updateRow_eq_ok, pure_eq_ok] at h
      obtain ⟨_, ⟨-, rfl⟩, rfl⟩ := h
      exact ⟨goal, newStatus, hGoal, hStatus, rfl⟩

theorem updateGoalLabel_eq_ok {textId label : String}
    (h : updateGoalLabel textId label db = .ok db') :
    ∃ goal, db.goals.byTextId textId = some goal ∧ db' = { db with
      goals := db.goals.update (fun row => row.textId = textId) fun data => { data with label } } := by
  simp only [updateGoalLabel, bind_eq_ok, updateRow_eq_ok, pure_eq_ok] at h
  obtain ⟨_, ⟨⟨goal, hGoal⟩, rfl⟩, rfl⟩ := h
  exact ⟨goal, hGoal, rfl⟩

theorem updateGoalCompletionLog_eq_ok {textId log : String}
    (h : updateGoalCompletionLog textId log db = .ok db') :
    ∃ goal, db.goals.byTextId textId = some goal ∧ db' = { db with
      goals := db.goals.update (fun row => row.textId = textId) fun data =>
        { data with completionLog := some log } } := by
  simp only [updateGoalCompletionLog, bind_eq_ok, updateRow_eq_ok, pure_eq_ok] at h
  obtain ⟨_, ⟨⟨goal, hGoal⟩, rfl⟩, rfl⟩ := h
  exact ⟨goal, hGoal, rfl⟩

theorem reorderGoal_eq_ok {textId position : String}
    (h : reorderGoal fx textId position db = .ok db') :
    ∃ goal sortKey, db.goals.byTextId textId = some goal ∧ db' = { db with
      goals := db.goals.update (fun row => row.textId = textId) fun data =>
        { data with sortKey } } := by
  unfold reorderGoal at h
  split at h
  · cases h
  · next goal hGoal =>
    simp only [bind_eq_ok, updateRow_eq_ok, pure_eq_ok] at h
    obtain ⟨sortKey, -, _, ⟨-, rfl⟩, rfl⟩ := h
    exact ⟨goal, sortKey, hGoal, rfl⟩

theorem moveGoalToPhasePosition_eq_ok {textId phaseTextId : String} {position : Option String}
    (h : moveGoalToPhasePosition fx textId phaseTextId position db = .ok db') :
    ∃ phase goal sortKey, db.phases.byTextId phaseTextId = some phase ∧
      db.goals.byTextId textId = some goal ∧
      db' = { db with
        goals := db.goals.update (fun row => row.textId = textId) fun data =>
          { data with phaseId := phase.id, sortKey } } := by
  unfold moveGoalToPhasePosition at h
  split at h
  · cases h
  · cases h
  · next phase goal hPhase hGoal =>
    simp only [bind_eq_ok, updateRow_eq_ok, pure_eq_ok] at h
    obtain ⟨sortKey, -, _, ⟨-, rfl⟩, rfl⟩ := h
    exact ⟨phase, goal, sortKey, hPhase, hGoal, rfl⟩

/-! ## Tasks -/

theorem addTask_eq_ok {goalTextId taskId title : String} {notes : Option String}
    (h : addTask fx goalTextId taskId title notes db = .ok db') :
    ∃ goal sortKey tasks, db.goals.byTextId goalTextId = some goal ∧
      db.taskHandleConflicts goal.id taskId none = .ok false ∧
      db.tasks.insert taskId
        { title, status := .pending, goalId := goal.id, sortKey, notes, startedAt := none,
          completedAt := none, completionLog := none } = some tasks ∧
        db' = { db with tasks } := by
  simp only [addTask, bind_eq_ok, resolveId_eq_ok] at h
  obtain ⟨_, ⟨goal, hGoal, rfl⟩, conflicts, hConflicts, h⟩ := h
  cases conflicts with
  | true => cases h
  | false =>
    simp only [Bool.false_eq_true, if_false, bind_eq_ok, insertRow_eq_ok, pure_eq_ok] at h
    obtain ⟨sortKey, -, tasks, hTasks, rfl⟩ := h
    exact ⟨goal, sortKey, tasks, hGoal, hConflicts, hTasks, rfl⟩

theorem renameTaskHandle_eq_ok {taskRowId : Nat} {oldTaskId newTaskId : String}
    (h : renameTaskHandle taskRowId oldTaskId newTaskId db = .ok db') :
    ∃ task goal tasks inbox, db.tasks.byId taskRowId = some task ∧
      db.goals.byId task.data.goalId = some goal ∧ task.textId = oldTaskId ∧
      db.tasks.setTextId taskRowId newTaskId = some tasks ∧
      (db.entityAliases.retain fun key id =>
        !(key = (.task, newTaskId) && id = taskRowId)).lookup (.task, oldTaskId) = none ∧
      db' = { db with
        tasks
        entityAliases := (db.entityAliases.retain fun key id =>
          !(key = (.task, newTaskId) && id = taskRowId)).insert (.task, oldTaskId) taskRowId
        inbox } := by
  unfold renameTaskHandle at h
  split at h
  · cases h
  · next task hTask =>
    split at h
    · cases h
    · next goal hGoal =>
      dsimp only at h
      split at h
      · cases h
      · next hOld =>
        split at h
        · cases h
        · next tasks hTasks =>
          split at h
          · cases h
          · next hFree =>
            exact ⟨task, goal, tasks, _, hTask, hGoal, not_not.mp hOld, hTasks,
              Option.not_isSome_iff_eq_none.mp hFree, (Except.ok.inj h).symm⟩

theorem removeTaskByRowId_snd (taskRowId : Nat) (db : Database) :
    (removeTaskByRowId taskRowId db).2 =
      (db.deleteAliases .task fun id => id = taskRowId).deleteTasks fun row => row.id = taskRowId := by
  rw [removeTaskByRowId]
  split
  · next h =>
    have hNone : ∀ row ∈ db.tasks.rows, ¬ row.id = taskRowId := Rows.byId_eq_none.mp h
    have hFalse : ∀ id, (db.tasks.rows.any fun t => t.id == id && decide (t.id = taskRowId)) = false := by
      intro id
      rw [List.any_eq_false]
      intro row hRow
      simp [hNone row hRow]
    have hTasks : db.tasks.filter (fun row => !decide (row.id = taskRowId)) = db.tasks := by
      refine Rows.ext (List.filter_eq_self.mpr fun row hRow => ?_)
      simp [hNone row hRow]
    simp [Database.deleteTasks, Database.deleteAliases, hFalse, hTasks]
  · rfl

theorem updateTaskStatusByRowId_eq_ok {taskRowId : Nat} {status : TaskStatus} {now : String}
    (h : updateTaskStatusByRowId taskRowId status now db = .ok db') :
    ∃ task, db.tasks.byId taskRowId = some task ∧ db' = { db with
      tasks := db.tasks.update (fun row => row.id = taskRowId) fun data =>
        { data with
          status
          startedAt :=
            if status = .inProgress then some (data.startedAt.getD now) else data.startedAt } } := by
  simp only [updateTaskStatusByRowId, bind_eq_ok, updateRowById_eq_ok, pure_eq_ok] at h
  obtain ⟨_, ⟨⟨task, hTask⟩, rfl⟩, rfl⟩ := h
  exact ⟨task, hTask, rfl⟩

theorem updateTaskTitleByRowId_eq_ok {taskRowId : Nat} {title : String}
    (h : updateTaskTitleByRowId taskRowId title db = .ok db') :
    ∃ task, db.tasks.byId taskRowId = some task ∧ db' = { db with
      tasks := db.tasks.update (fun row => row.id = taskRowId) fun data => { data with title } } := by
  simp only [updateTaskTitleByRowId, bind_eq_ok, updateRowById_eq_ok, pure_eq_ok] at h
  obtain ⟨_, ⟨⟨task, hTask⟩, rfl⟩, rfl⟩ := h
  exact ⟨task, hTask, rfl⟩

theorem completeTaskByRowId_eq_ok {taskRowId : Nat} {log now : String}
    (h : completeTaskByRowId taskRowId log now db = .ok db') :
    ∃ task, db.tasks.byId taskRowId = some task ∧ db' = { db with
      tasks := db.tasks.update (fun row => row.id = taskRowId) fun data =>
        { data with status := .completed, completionLog := some log, completedAt := some now } } := by
  simp only [completeTaskByRowId, bind_eq_ok, updateRowById_eq_ok, pure_eq_ok] at h
  obtain ⟨_, ⟨⟨task, hTask⟩, rfl⟩, rfl⟩ := h
  exact ⟨task, hTask, rfl⟩

theorem addTaskLogByRowId_eq_ok {taskRowId : Nat} {kind message : String}
    (h : addTaskLogByRowId taskRowId kind message db = .ok db') :
    ∃ task, db.tasks.byId taskRowId = some task ∧
      db' = { db with taskLogs := db.taskLogs ++ [⟨taskRowId, kind, message⟩] } := by
  unfold addTaskLogByRowId at h
  split at h
  · cases h
  · next task hTask => exact ⟨task, hTask, (Except.ok.inj h).symm⟩

theorem reorderTaskByRowId_eq_ok {taskRowId : Nat} {position : String}
    (h : reorderTaskByRowId fx taskRowId position db = .ok db') :
    ∃ task sortKey, db.tasks.byId taskRowId = some task ∧ db' = { db with
      tasks := db.tasks.update (fun row => row.textId = task.textId) fun data =>
        { data with sortKey } } := by
  unfold reorderTaskByRowId at h
  split at h
  · cases h
  · next task hTask =>
    simp only [bind_eq_ok, updateRow_eq_ok, pure_eq_ok] at h
    obtain ⟨sortKey, -, _, ⟨-, rfl⟩, rfl⟩ := h
    exact ⟨task, sortKey, hTask, rfl⟩

/-! ## Inbox -/

theorem addInboxItem_eq_ok {textId entityType intent now : String} {entityId agentId : Option String}
    (h : addInboxItem textId entityType entityId intent agentId now db = .ok db') :
    ∃ inbox,
      db.inbox.insert textId
        { createdAt := now, status := .pending, entityType, entityId, intent, agentId } = some inbox ∧
      db' = { db with inbox } := by
  simp only [addInboxItem, bind_eq_ok, insertRow_eq_ok, pure_eq_ok] at h
  obtain ⟨inbox, hInbox, rfl⟩ := h
  exact ⟨inbox, hInbox, rfl⟩

theorem updateInboxStatus_eq_ok {textId : String} {status : InboxStatus}
    (h : updateInboxStatus textId status db = .ok db') :
    db' = { db with
      inbox := db.inbox.update (fun row => row.textId = textId) fun data => { data with status } } := by
  simp only [updateInboxStatus, bind_eq_ok, updateRow_eq_ok, pure_eq_ok] at h
  obtain ⟨_, ⟨-, rfl⟩, rfl⟩ := h
  rfl

end SqliteWriter

end Exosuit.Plan
