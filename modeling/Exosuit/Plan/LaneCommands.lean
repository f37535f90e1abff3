import Exosuit.Plan.Guard

/-!
# Commands on workbench lanes
-/

namespace Exosuit.Plan

open Lib PhaseOwner

variable (env : Env)

def laneNotFoundFailure (id : String) : Failure := .exo .notFound s!"Workbench lane not found: {id}"

def laneAmbiguousFailure (id : String) (lanes : List Database.WorkbenchLane) : Failure :=
  let laneIds := String.intercalate ", " (lanes.map fun lane => lane.row.textId)
  .exo .invalidInput s!"Workbench lane prefix '{id}' is ambiguous; matching lanes: {laneIds}"

/-- The lane with this id, else the only one whose id begins with it. -/
def Database.lane (db : Database) (id : String) : Except Failure WorkbenchLane :=
  match db.loadWorkbenchLanes.find? fun lane => lane.row.textId = id with
  | some lane => .ok lane
  | none =>
    if id = "" then .error (laneNotFoundFailure id)
    else
      match db.loadWorkbenchLanes.filter fun lane =>
        Text.startsWith lane.row.textId (Text.toAsciiLowercase id) with
      | [lane] => .ok lane
      | [] => .error (laneNotFoundFailure id)
      | lanes => .error (laneAmbiguousFailure id lanes)

def Database.lanePhase (db : Database) (phaseId : String) : Except Failure (Row PhaseData) :=
  match db.findPhaseById env phaseId with
  | some phase => .ok phase
  | none => .error (.exo .notFound s!"Phase not found for workbench lane: {phaseId}")

def Database.laneAndPhase (db : Database) (id : String) :
    Except Failure (WorkbenchLane × Row PhaseData) := do
  let lane ← db.lane id
  let phase ← db.lanePhase env lane.phaseTextId
  pure (lane, phase)

def phasePreconditionFailure (lane : Option String) (phase : Row PhaseData) (operation : String) :
    Failure :=
  let laneId := lane.elim "" fun id => s!" '{id}'"
  .exo .preconditionFailed
    s!"Cannot {operation} workbench lane{laneId} while phase '{phase.textId}' is {phase.data.status.name}"

def laneNotPreparedFailure (lane : Row LaneData) (attempt : String) : Failure :=
  .exo .preconditionFailed
    s!"Cannot {attempt} workbench lane '{lane.textId}' from state {lane.data.state.name}"

def requireWorkspaceRoot : Cmd String :=
  match env.workspaceRoot with
  | some root => pure root
  | none => Cmd.exo .preconditionFailed "Workbench lane focus requires a resolved workspace root"

def requireNonempty (value name : String) : Cmd Unit :=
  if Text.trim value = "" then Cmd.exo .invalidInput s!"Lane {name} cannot be empty" else pure ()

def laneMutationOutput (laneId : String) : Cmd Unit := do
  let _ ← Cmd.tryQuery (·.laneAndPhase env laneId)

def laneCreate (title intent phaseId : String) : Cmd Unit := do
  requireNonempty title "title"
  requireNonempty intent "intent"
  let phase ← Cmd.tryQuery (·.lanePhase env phaseId)
  if SqliteWriter.isOpen phase.data.status then
    ensurePhaseWriteAllowed env phase.textId
    Cmd.call (.addWorkbenchLane env.newId (Text.trim title) (Text.trim intent) phase.textId env.now)
    laneMutationOutput env env.newId
  else Cmd.fail (phasePreconditionFailure none phase "create a")

def laneFocus (id : String) : Cmd Unit := do
  let (lane, phase) ← Cmd.tryQuery (·.laneAndPhase env id)
  if phase.data.status = .inProgress then
    let root ← requireWorkspaceRoot env
    Cmd.call (.focusWorkbenchLane root lane.row.textId phase.textId)
    laneMutationOutput env lane.row.textId
  else Cmd.fail (phasePreconditionFailure (some lane.row.textId) phase "focus")

def laneStart (id : String) : Cmd Unit := do
  let (lane, phase) ← Cmd.tryQuery (·.laneAndPhase env id)
  if phase.data.status ≠ .inProgress then
    Cmd.fail (phasePreconditionFailure (some lane.row.textId) phase "start")
  else if lane.row.data.state ≠ .prepared then Cmd.fail (laneNotPreparedFailure lane.row "start")
  else
    ensurePhaseWriteAllowed env phase.textId
    let root ← requireWorkspaceRoot env
    Cmd.call (.startAndFocusWorkbenchLane root lane.row.textId phase.textId)
    laneMutationOutput env lane.row.textId

def laneRemove (id : String) : Cmd Unit := do
  let (lane, phase) ← Cmd.tryQuery (·.laneAndPhase env id)
  if lane.row.data.state ≠ .prepared then Cmd.fail (laneNotPreparedFailure lane.row "remove")
  else
    ensurePhaseWriteAllowed env phase.textId
    Cmd.call (.removePreparedWorkbenchLane lane.row.textId)

end Exosuit.Plan
