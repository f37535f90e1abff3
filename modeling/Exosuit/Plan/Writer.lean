import Exosuit.Plan.References

/-!
# The writer

The writes of the plan's database. Each function answers the database that it
commits, and a failure commits nothing. `replacePhaseRfcs` and
`removeTaskByRowId` commit their statements one by one, and answer the database
they leave with their outcome.
-/

namespace Exosuit.Plan

open Lib PhaseOwner

namespace SqliteWriter

def resolveId {δ : Type} (table : String) (rows : Rows δ) (textId : String) : Except Failure Nat :=
  match rows.byTextId textId with
  | some row => .ok row.id
  | none => .error (.anyhow s!"Entity not found in {table}: {textId}")

/-- `UPDATE … WHERE text_id = ?`, an error when no row has it. -/
def updateRow {δ : Type} (entity : String) (rows : Rows δ) (textId : String) (f : δ → δ) :
    Except Failure (Rows δ) :=
  match rows.byTextId textId with
  | some _ => .ok (rows.update (fun row => row.textId = textId) f)
  | none => .error (.anyhow s!"{entity} not found: {textId}")

/-- `UPDATE … WHERE id = ?`, an error when no row has it. -/
def updateRowById {δ : Type} (entity : String) (rows : Rows δ) (rowId : Nat) (f : δ → δ) :
    Except Failure (Rows δ) :=
  match rows.byId rowId with
  | some _ => .ok (rows.update (fun row => row.id = rowId) f)
  | none => .error (.anyhow s!"{entity} not found: {rowId}")

/-- `INSERT`, an error when the text id is taken. -/
def insertRow {δ : Type} (entity : String) (rows : Rows δ) (textId : String) (data : δ) :
    Except Failure (Rows δ) :=
  match rows.insert textId data with
  | some rows => .ok rows
  | none => .error (.anyhow s!"Failed to insert {entity}")

/-! ## Positions among siblings -/

section

variable (fx : FractionalIndex)

def parseKey (s : String) : Except Failure fx.Key :=
  match fx.fromString s with
  | .ok key => .ok key
  | .error e => .error (.anyhow s!"Invalid sort_key '{s}': {e}")

def newBetween (a b : String) : Except Failure fx.Key := do
  let before ← parseKey fx a
  let after ← parseKey fx b
  match fx.newBetween before after with
  | some key => pure key
  | none => .error (.anyhow "Cannot compute sort_key between adjacent items")

/-- The key of the place before `others[idx]`. -/
def keyBefore (others : List (String × String)) (idx : Nat) : Except Failure fx.Key :=
  match others[idx - 1]?, others[idx]? with
  | some previous, some item =>
    if idx = 0 then (parseKey fx item.2).map fx.newBefore else newBetween fx previous.2 item.2
  | _, _ => pure fx.default

/-- The key of the place after `others[idx]`. -/
def keyAfter (others : List (String × String)) (idx : Nat) : Except Failure fx.Key :=
  match others[idx]?, others[idx + 1]? with
  | some item, none => (parseKey fx item.2).map fx.newAfter
  | some item, some next => newBetween fx item.2 next.2
  | none, _ => pure fx.default

def anchorIndex (others : List (String × String)) (anchorId : String) : Except Failure Nat :=
  match others.findIdx? fun item => item.1 = anchorId with
  | some idx => .ok idx
  | none => .error (.anyhow s!"Anchor item not found: {anchorId}")

def computePosition (position : String) (others : List (String × String)) :
    Except Failure fx.Key :=
  match Text.stripPrefix "before:" position, Text.stripPrefix "after:" position with
  | some anchorId, _ => do keyBefore fx others (← anchorIndex others anchorId)
  | none, some anchorId => do keyAfter fx others (← anchorIndex others anchorId)
  | none, none =>
    if position = "top" then
      match others.head? with
      | some first => (parseKey fx first.2).map fx.newBefore
      | none => pure fx.default
    else if position = "bottom" then
      match others.getLast? with
      | some last => (parseKey fx last.2).map fx.newAfter
      | none => pure fx.default
    else
      match Text.parseUsize position with
      | none => .error (.anyhow
          s!"Invalid position: '{position}'. Use top, bottom, before:<id>, after:<id>, or a number.")
      | some idx =>
        match others.getLast? with
        | none => pure fx.default
        | some last =>
          if others.length ≤ idx then (parseKey fx last.2).map fx.newAfter
          else keyBefore fx others idx

def siblings {δ : Type} (rows : Rows δ) (parent : δ → Nat) (sortKey : δ → Option String)
    (parentId : Nat) : List (String × String) :=
  (orderBy (fun a b => leKey (sortKey a.data, a.id) (sortKey b.data, b.id))
    (rows.rows.filter fun row => parent row.data = parentId)).filterMap
      fun row => (sortKey row.data).map fun key => (row.textId, key)

def lastKey (keys : List String) : Option String :=
  keys.foldl (fun last key => some (last.elim key fun l => if l < key then key else l)) none

def appendKey (keys : List String) : Except Failure String :=
  match lastKey keys with
  | some key => (parseKey fx key).map fun prev => fx.toString (fx.newAfter prev)
  | none => pure (fx.toString fx.default)

def appendSortKey {δ : Type} (rows : Rows δ) (parent : δ → Nat) (sortKey : δ → Option String)
    (parentId : Nat) : Except Failure String :=
  appendKey fx ((siblings rows parent sortKey parentId).map Prod.snd)

def reorderKey {δ : Type} (rows : Rows δ) (parent : δ → Nat) (sortKey : δ → Option String)
    (parentId : Nat) (textId position : String) : Except Failure String :=
  (computePosition fx position
    ((siblings rows parent sortKey parentId).filter fun item => item.1 ≠ textId)).map fx.toString

/-! ## Epochs -/

def addEpoch (textId title : String) (db : Database) : Except Failure Database := do
  let sortKey ← appendKey fx (db.epochs.rows.map fun row => row.data.sortKey)
  let epochs ← insertRow "epoch" db.epochs textId
    { title, slug := none, reviewed := false, sortKey }
  pure { db with epochs }

end

def deleteEntityAliases (entityType : EntityType) (rowId : Nat) (db : Database) : Database :=
  let phaseOf := fun goalId => (db.goals.byId goalId).map fun goal => goal.data.phaseId
  let goalOf := fun taskId => (db.tasks.byId taskId).map fun task => task.data.goalId
  let epochOf := fun phaseId => (db.phases.byId phaseId).map fun phase => phase.data.epochId
  let own := db.deleteAliases entityType fun id => id = rowId
  match entityType with
  | .epoch =>
    ((own.deleteAliases .phase fun id => epochOf id = some rowId).deleteAliases .goal
      fun id => (phaseOf id).bind epochOf = some rowId).deleteAliases .task
      fun id => ((goalOf id).bind phaseOf).bind epochOf = some rowId
  | .phase =>
    (own.deleteAliases .goal fun id => phaseOf id = some rowId).deleteAliases .task
      fun id => (goalOf id).bind phaseOf = some rowId
  | .goal => own.deleteAliases .task fun id => goalOf id = some rowId
  | .task => own

def removeEpoch (textId : String) (db : Database) : Except Failure Database :=
  match db.epochs.byTextId textId with
  | none => .error (.anyhow s!"Epoch not found: {textId}")
  | some epoch =>
    match (deleteEntityAliases .epoch epoch.id db).deleteEpochs fun row => row.textId = textId with
    | some db => .ok db
    | none => .error (.anyhow "Failed to delete epoch")

def updateEpochReviewed (textId : String) (reviewed : Bool) (db : Database) :
    Except Failure Database := do
  let epochs ← updateRow "Epoch" db.epochs textId fun data => { data with reviewed }
  pure { db with epochs }

def updateEpochTitle (textId title : String) (db : Database) : Except Failure Database := do
  let epochs ← updateRow "Epoch" db.epochs textId fun data => { data with title }
  pure { db with epochs }

def isOpen (status : Status) : Bool := status = .pending || status = .inProgress

def bankruptEpoch (textId : String) (db : Database) : Except Failure Database := do
  let epochId ← resolveId "epochs_data" db.epochs textId
  let inEpoch := fun phaseId => (db.phases.byId phaseId).any fun phase => phase.data.epochId = epochId
  let phases := db.phases.update
    (fun row => row.data.epochId = epochId && isOpen row.data.status)
    fun data => { data with status := .abandoned }
  let goals := db.goals.update (fun row => inEpoch row.data.phaseId && isOpen row.data.status)
    fun data => { data with status := .abandoned }
  let abandoned := fun laneId => (db.lanes.byId laneId).any fun lane =>
    (phases.byId lane.data.executionPhaseId).any fun phase =>
      phase.data.epochId = epochId && phase.data.status = .abandoned
  pure { db with
    phases, goals,
    workspaceLaneFocus := db.workspaceLaneFocus.retain fun _ laneId => !abandoned laneId }

/-! ## Phases -/

def addPhase (fx : FractionalIndex) (textId epochTextId title : String) (kind : PhaseKind)
    (db : Database) : Except Failure Database := do
  let epochId ← resolveId "epochs_data" db.epochs epochTextId
  let sortKey ← appendSortKey fx db.phases PhaseData.epochId PhaseData.sortKey epochId
  let phases ← insertRow "phase" db.phases textId
    { title, status := .pending, epochId, kind, sortKey, slug := none, completedAt := none }
  pure { db with phases }

def removePhase (textId : String) (db : Database) : Except Failure Database :=
  match db.phases.byTextId textId with
  | none => .error (.anyhow s!"Phase not found: {textId}")
  | some phase =>
    match (deleteEntityAliases .phase phase.id db).deletePhases fun row => row.textId = textId with
    | some db => .ok db
    | none => .error (.anyhow "Failed to delete phase")

def clearPhaseFocus (phaseId : Nat) (db : Database) : Database :=
  { db with
    workspaceLaneFocus := db.workspaceLaneFocus.retain fun _ laneId =>
      !(db.lanes.byId laneId).any fun lane => lane.data.executionPhaseId = phaseId }

def updatePhaseStatus (textId status now : String) (db : Database) : Except Failure Database :=
  match db.phases.byTextId textId with
  | none => .error (.anyhow s!"Phase not found: {textId}")
  | some phase =>
    match Status.fromName status with
    | none => .error (.anyhow "Failed to update phase status")
    | some status =>
      let phases := db.phases.update (fun row => row.textId = textId) fun data =>
        { data with
          status
          completedAt := if status = .completed then some (data.completedAt.getD now) else none }
      let db := { db with phases }
      .ok (if status ≠ .inProgress then clearPhaseFocus phase.id db else db)

def updatePhaseTitle (textId title : String) (db : Database) : Except Failure Database := do
  let phases ← updateRow "Phase" db.phases textId fun data => { data with title }
  pure { db with phases }

/-- Inserts one association after another; `(phase_id, rfc_id)` is unique. -/
def insertPhaseRfcs (phaseId : Nat) : List String → Database → Except Failure Bool × Database
  | [], db => (.ok true, db)
  | rfcId :: rfcs, db =>
    if (phaseId, rfcId) ∈ db.phaseRfcs then
      (.error (.anyhow s!"Failed to insert phase RFC '{rfcId}'"), db)
    else insertPhaseRfcs phaseId rfcs { db with phaseRfcs := db.phaseRfcs ++ [(phaseId, rfcId)] }

def replacePhaseRfcs (textId : String) (rfcs : List String) (db : Database) :
    Except Failure Bool × Database :=
  match resolveId "phases_data" db.phases textId with
  | .error e => (.error e, db)
  | .ok phaseId =>
    insertPhaseRfcs phaseId rfcs
      { db with phaseRfcs := db.phaseRfcs.filter fun row => row.1 ≠ phaseId }

def reorderPhase (fx : FractionalIndex) (textId position : String) (db : Database) :
    Except Failure Database :=
  match db.phases.byTextId textId with
  | none => .error (.anyhow s!"Phase not found: {textId}")
  | some phase => do
    let sortKey ← reorderKey fx db.phases PhaseData.epochId PhaseData.sortKey phase.data.epochId
      textId position
    let phases ← updateRow "Phase" db.phases textId fun data => { data with sortKey }
    pure { db with phases }

def movePhaseToEpoch (fx : FractionalIndex) (textId epochTextId : String)
    (position : Option String) (db : Database) : Except Failure Database :=
  match db.epochs.byTextId epochTextId, db.phases.byTextId textId with
  | none, _ => .error (.anyhow s!"Target epoch not found: {epochTextId}")
  | some _, none => .error (.anyhow s!"Phase not found: {textId}")
  | some epoch, some _ => do
    let sortKey ← reorderKey fx db.phases PhaseData.epochId PhaseData.sortKey epoch.id textId
      (position.getD "bottom")
    let phases ← updateRow "Phase" db.phases textId fun data =>
      { data with epochId := epoch.id, sortKey }
    pure { db with phases }

def reorderEpoch (fx : FractionalIndex) (textId position : String) (db : Database) :
    Except Failure Database :=
  match db.epochs.byTextId textId with
  | none => .error (.anyhow s!"Epoch not found: {textId}")
  | some _ => do
    let siblings := (orderBy (fun a b => leKey (some a.data.sortKey, a.id) (some b.data.sortKey, b.id))
      db.epochs.rows).map fun row => (row.textId, row.data.sortKey)
    let key ← computePosition fx position (siblings.filter fun item => item.1 ≠ textId)
    let epochs ← updateRow "Epoch" db.epochs textId fun data =>
      { data with sortKey := fx.toString key }
    pure { db with epochs }

/-! ## Pins, lanes and owners -/

def setWorkspaceActivePhase (root phaseTextId : String) (db : Database) :
    Except Failure Database := do
  let phaseId ← resolveId "phases_data" db.phases phaseTextId
  pure { db with workspaceActivePhase := db.workspaceActivePhase.insert root phaseId }

def setWorkspaceLaneFocus (root laneTextId : String) (db : Database) : Except Failure Database := do
  let laneId ← resolveId "workbench_lanes_data" db.lanes laneTextId
  pure { db with workspaceLaneFocus := db.workspaceLaneFocus.insert root laneId }

def clearWorkspaceLaneFocus (root : String) (db : Database) : Database :=
  { db with workspaceLaneFocus := db.workspaceLaneFocus.erase root }

def focusPhaseForWorkspace (root phaseTextId : String) (db : Database) :
    Except Failure Database := do
  let db ← setWorkspaceActivePhase root phaseTextId db
  let matchingInProgressLane := (db.workspaceLaneFocus.lookup root).any fun laneId =>
    (db.lanes.byId laneId).any fun lane =>
      (db.phases.byId lane.data.executionPhaseId).any fun phase =>
        phase.textId = phaseTextId && phase.data.status = .inProgress
  pure (if matchingInProgressLane then db else clearWorkspaceLaneFocus root db)

def completePhaseAndClearLaneFocus (textId now : String) (db : Database) :
    Except Failure Database := do
  let phaseId ← resolveId "phases_data" db.phases textId
  let phases ← updateRowById "Phase" db.phases phaseId fun data =>
    { data with status := .completed, completedAt := some (data.completedAt.getD now) }
  pure (clearPhaseFocus phaseId { db with phases })

/-- The whitespace that the CHECK on a lane's texts trims. -/
def isBlank (s : String) : Bool :=
  s.toList.all fun c => c = '\t' || c = '\n' || c.toNat = 11 || c.toNat = 12 || c = '\r' || c = ' '

def addWorkbenchLane (textId title intent phaseTextId now : String) (db : Database) :
    Except Failure Database := do
  let executionPhaseId ← resolveId "phases_data" db.phases phaseTextId
  if isBlank title || isBlank intent then throw (.anyhow "Failed to insert workbench lane")
  let lanes ← insertRow "workbench lane" db.lanes textId
    { title, intent, state := .prepared, executionPhaseId, createdAt := now }
  pure { db with lanes }

def startWorkbenchLane (textId : String) (db : Database) : Except Failure Database :=
  match db.lanes.byTextId textId with
  | none => .error (.anyhow s!"Workbench lane not found: {textId}")
  | some lane =>
    if lane.data.state = .prepared then
      .ok { db with
        lanes := db.lanes.update (fun row => row.textId = textId) fun data =>
          { data with state := .executing } }
    else .error (.anyhow s!"Workbench lane {textId} cannot start from state {lane.data.state.name}")

def requireLanePhaseInProgress (laneTextId phaseTextId : String) (db : Database) :
    Except Failure Unit :=
  let phase? := (db.lanes.byTextId laneTextId).bind fun lane =>
    (db.phases.byId lane.data.executionPhaseId).filter fun phase => phase.textId = phaseTextId
  match phase? with
  | some phase =>
    if phase.data.status = .inProgress then .ok ()
    else .error (.exo .preconditionFailed
      s!"Cannot focus workbench lane '{laneTextId}' while phase '{phaseTextId}' is {phase.data.status.name}")
  | none => .error (.anyhow
      s!"Workbench lane {laneTextId} is not attached to phase {phaseTextId}")

def focusWorkbenchLane (root laneTextId phaseTextId : String) (db : Database) :
    Except Failure Database := do
  requireLanePhaseInProgress laneTextId phaseTextId db
  let db ← setWorkspaceActivePhase root phaseTextId db
  setWorkspaceLaneFocus root laneTextId db

def startAndFocusWorkbenchLane (root laneTextId phaseTextId : String) (db : Database) :
    Except Failure Database := do
  requireLanePhaseInProgress laneTextId phaseTextId db
  let db ← startWorkbenchLane laneTextId db
  let db ← setWorkspaceActivePhase root phaseTextId db
  setWorkspaceLaneFocus root laneTextId db

def removePreparedWorkbenchLane (textId : String) (db : Database) : Except Failure Database :=
  match db.lanes.byTextId textId with
  | none => .error (.anyhow s!"Workbench lane not found: {textId}")
  | some lane =>
    if lane.data.state = .prepared then
      let db := { db with workspaceLaneFocus := db.workspaceLaneFocus.retain fun _ id => id ≠ lane.id }
      .ok (db.deleteLanes fun row => row.textId = textId && row.data.state = .prepared)
    else
      .error (.anyhow s!"Workbench lane {textId} cannot be removed from state {lane.data.state.name}")

/-- With whether a row was written. -/
def claimPhaseOwnerIfCurrent (textId : String) (current : CurrentPhaseOwner)
    (expectedOwner : Option Identity) (now : String) (db : Database) :
    Except Failure (Bool × Database) := do
  let phaseId ← resolveId "phases_data" db.phases textId
  match PhaseOwner.claimPhaseOwnerIfCurrent now current expectedOwner
      (db.phaseOwnership.lookup phaseId) with
  | some owner => pure (true, { db with phaseOwnership := db.phaseOwnership.insert phaseId owner })
  | none => pure (false, db)

def clearPhaseOwner (textId : String) (db : Database) : Except Failure Database := do
  let phaseId ← resolveId "phases_data" db.phases textId
  pure { db with phaseOwnership := db.phaseOwnership.erase phaseId }

/-- With whether a row was deleted. -/
def clearPhaseOwnerIfCurrent (textId : String) (expected : Identity) (db : Database) :
    Except Failure (Bool × Database) := do
  let phaseId ← resolveId "phases_data" db.phases textId
  match PhaseOwner.clearPhaseOwnerIfCurrent expected (db.phaseOwnership.lookup phaseId) with
  | some _ => pure (true, { db with phaseOwnership := db.phaseOwnership.erase phaseId })
  | none => pure (false, db)

/-! ## Goals -/

def addGoal (fx : FractionalIndex) (phaseTextId goalId label : String) (rfc : Option String)
    (targetStage : Option Nat) (db : Database) : Except Failure Database := do
  let phaseId ← resolveId "phases_data" db.phases phaseTextId
  let sortKey ← appendSortKey fx db.goals GoalData.phaseId GoalData.sortKey phaseId
  let goals ← insertRow "goal" db.goals goalId
    { label, status := .pending, phaseId, sortKey, rfc, targetStage, startedAt := none,
      slug := none, completionLog := none }
  pure { db with goals }

def removeGoal (textId : String) (db : Database) : Except Failure Database :=
  match db.goals.byTextId textId with
  | none => .error (.anyhow s!"Goal not found: {textId}")
  | some goal =>
    .ok ((deleteEntityAliases .goal goal.id db).deleteGoals fun row => row.textId = textId)

def updateGoalStatus (textId status : String) (db : Database) : Except Failure Database :=
  match db.goals.byTextId textId with
  | none => .error (.anyhow s!"Goal not found: {textId}")
  | some _ =>
    match Status.fromName status with
    | none => .error (.anyhow "Failed to update goal status")
    | some status => do
      let goals ← updateRow "Goal" db.goals textId fun data => { data with status }
      pure { db with goals }

def updateGoalLabel (textId label : String) (db : Database) : Except Failure Database := do
  let goals ← updateRow "Goal" db.goals textId fun data => { data with label }
  pure { db with goals }

def updateGoalCompletionLog (textId log : String) (db : Database) : Except Failure Database := do
  let goals ← updateRow "Goal" db.goals textId fun data => { data with completionLog := some log }
  pure { db with goals }

def reorderGoal (fx : FractionalIndex) (textId position : String) (db : Database) :
    Except Failure Database :=
  match db.goals.byTextId textId with
  | none => .error (.anyhow s!"Goal not found: {textId}")
  | some goal => do
    let sortKey ← reorderKey fx db.goals GoalData.phaseId GoalData.sortKey goal.data.phaseId
      textId position
    let goals ← updateRow "Goal" db.goals textId fun data => { data with sortKey }
    pure { db with goals }

def moveGoalToPhasePosition (fx : FractionalIndex) (textId phaseTextId : String)
    (position : Option String) (db : Database) : Except Failure Database :=
  match db.phases.byTextId phaseTextId, db.goals.byTextId textId with
  | none, _ => .error (.anyhow s!"Target phase not found: {phaseTextId}")
  | some _, none => .error (.anyhow s!"Goal not found: {textId}")
  | some phase, some _ => do
    let sortKey ← reorderKey fx db.goals GoalData.phaseId GoalData.sortKey phase.id textId
      (position.getD "bottom")
    let goals ← updateRow "Goal" db.goals textId fun data =>
      { data with phaseId := phase.id, sortKey }
    pure { db with goals }

/-! ## Tasks -/

def addTask (fx : FractionalIndex) (goalTextId taskId title : String) (notes : Option String)
    (db : Database) : Except Failure Database := do
  let goalId ← resolveId "goals_data" db.goals goalTextId
  if ← db.taskHandleConflicts goalId taskId none then
    throw (.exo .invalidInput
      s!"Task handle '{taskId}' conflicts with an existing canonical, alias, or goal-qualified task reference.")
  let sortKey ← appendSortKey fx db.tasks TaskData.goalId TaskData.sortKey goalId
  let tasks ← insertRow "task" db.tasks taskId
    { title, status := .pending, goalId, sortKey, notes, startedAt := none, completedAt := none,
      completionLog := none }
  pure { db with tasks }

/-- The references of the task that no other task owns. -/
def exclusivelyOwnedReferences (taskRowId : Nat) (taskHandles goalHandles : List String)
    (db : Database) : List String :=
  (taskHandles ++ taskHandles.flatMap fun t => goalHandles.map fun g => qualified g t).filter
    fun reference =>
      let owners := db.taskHandleOwners reference
      owners ≠ [] && owners.all fun owner => owner = taskRowId

def renameTaskHandle (taskRowId : Nat) (oldTaskId newTaskId : String) (db : Database) :
    Except Failure Database :=
  match db.tasks.byId taskRowId with
  | none => .error (.anyhow "Failed to read task goal before rename")
  | some task =>
    match db.goals.byId task.data.goalId with
    | none => .error (.anyhow "Failed to read task goal before rename")
    | some goal =>
      let taskHandles := db.entityAliasesForRow .task taskRowId ++ [oldTaskId]
      let goalHandles := db.entityAliasesForRow .goal goal.id ++ [goal.textId]
      let owned := exclusivelyOwnedReferences taskRowId taskHandles goalHandles db
      let aliases := db.entityAliases.retain fun key id =>
        !(key = (.task, newTaskId) && id = taskRowId)
      if task.textId ≠ oldTaskId then
        .error (.anyhow s!"Task '{oldTaskId}' changed before its handle could be renamed")
      else
        match db.tasks.setTextId taskRowId newTaskId with
        | none => .error (.anyhow s!"Failed to rename task '{oldTaskId}'")
        | some tasks =>
          if (aliases.lookup (.task, oldTaskId)).isSome then
            .error (.anyhow s!"Failed to preserve task alias '{oldTaskId}'")
          else
            .ok { db with
              tasks
              entityAliases := aliases.insert (.task, oldTaskId) taskRowId
              inbox := db.inbox.update
                (fun row => row.data.entityType = "task" &&
                  row.data.entityId.any fun id => id ∈ owned)
                fun data => { data with entityId := some newTaskId } }

/-- The aliases go first, whether the row exists or not. -/
def removeTaskByRowId (taskRowId : Nat) (db : Database) : Except Failure Bool × Database :=
  let db' := db.deleteAliases .task fun id => id = taskRowId
  match db.tasks.byId taskRowId with
  | none => (.error (.anyhow s!"Task row not found: {taskRowId}"), db')
  | some _ => (.ok true, db'.deleteTasks fun row => row.id = taskRowId)

def updateTaskStatusByRowId (taskRowId : Nat) (status : TaskStatus) (now : String) (db : Database) :
    Except Failure Database := do
  let tasks ← updateRowById "Task row" db.tasks taskRowId fun data =>
    { data with
      status
      startedAt := if status = .inProgress then some (data.startedAt.getD now) else data.startedAt }
  pure { db with tasks }

def updateTaskTitleByRowId (taskRowId : Nat) (title : String) (db : Database) :
    Except Failure Database := do
  let tasks ← updateRowById "Task row" db.tasks taskRowId fun data => { data with title }
  pure { db with tasks }

def completeTaskByRowId (taskRowId : Nat) (log now : String) (db : Database) :
    Except Failure Database := do
  let tasks ← updateRowById "Task row" db.tasks taskRowId fun data =>
    { data with status := .completed, completionLog := some log, completedAt := some now }
  pure { db with tasks }

def addTaskLogByRowId (taskRowId : Nat) (kind message : String) (db : Database) :
    Except Failure Database :=
  match db.tasks.byId taskRowId with
  | none => .error (.anyhow "Failed to insert task log")
  | some _ => .ok { db with taskLogs := db.taskLogs ++ [⟨taskRowId, kind, message⟩] }

def reorderTaskByRowId (fx : FractionalIndex) (taskRowId : Nat) (position : String)
    (db : Database) : Except Failure Database :=
  match db.tasks.byId taskRowId with
  | none => .error (.anyhow s!"Task row not found: {taskRowId}")
  | some task => do
    let sortKey ← reorderKey fx db.tasks TaskData.goalId TaskData.sortKey task.data.goalId
      task.textId position
    let tasks ← updateRow "Task" db.tasks task.textId fun data => { data with sortKey }
    pure { db with tasks }

/-! ## Inbox -/

def addInboxItem (textId entityType : String) (entityId : Option String) (intent : String)
    (agentId : Option String) (now : String) (db : Database) : Except Failure Database := do
  let inbox ← insertRow "inbox item" db.inbox textId
    { createdAt := now, status := .pending, entityType, entityId, intent, agentId }
  pure { db with inbox }

def updateInboxStatus (textId : String) (status : InboxStatus) (db : Database) :
    Except Failure Database := do
  let inbox ← updateRow "Inbox item" db.inbox textId fun data => { data with status }
  pure { db with inbox }

end SqliteWriter

end Exosuit.Plan
