import Exosuit.Plan.Guard

/-!
# Commands on epochs and phases
-/

namespace Exosuit.Plan

open Lib PhaseOwner

variable (env : Env)

def requireEpoch (id : String) : Cmd (Row EpochData) := do
  match ← Cmd.query (·.findEpochById env id) with
  | some epoch => pure epoch
  | none => Cmd.anyhow s!"Epoch not found: {id}"

def requirePhase (id : String) : Cmd (Row PhaseData) := do
  match ← Cmd.query (·.findPhaseByTextId id) with
  | some phase => pure phase
  | none => Cmd.anyhow s!"Phase not found: {id}"

/-! ## Epochs -/

def epochReview (epochId : String) : Cmd Unit := do
  let epoch ← requireEpoch env epochId
  let status ← Cmd.query (·.derivedStatus epoch)
  if epoch.data.reviewed then pure ()
  else if status ≠ .completed then
    Cmd.anyhow
      s!"Epoch '{epoch.data.title}' is not yet completed (status: {status.name}). Only completed epochs can be reviewed."
  else Cmd.call (.updateEpochReviewed epoch.textId true)

/-- Nobody owns the phase, or the workspace does. -/
def Database.startableHere (db : Database) (phase : Row PhaseData) : Bool :=
  (db.loadPhaseOwner phase.textId).all fun owner => ownerMatches owner env.current

def Database.firstSuitable (db : Database) (epoch : Row EpochData) : Option (Row PhaseData) :=
  ((db.phasesOf epoch.id).find? fun p => p.data.status = .inProgress && db.startableHere env p).or
    ((db.phasesOf epoch.id).find? fun p => p.data.status = .pending && db.startableHere env p)

/-- Focuses the phase when the workspace has a root. -/
def focusHere (phaseId : String) : Cmd Unit :=
  match env.workspaceRoot with
  | some root => Cmd.call (.focusPhaseForWorkspace root phaseId)
  | none => pure ()

def epochStart (epochId : String) : Cmd Unit := do
  let epoch ← requireEpoch env epochId
  let status ← Cmd.query (·.derivedStatus epoch)
  if status = .completed then
    Cmd.anyhow s!"Epoch '{epoch.data.title}' is already completed and cannot be started."
  else
    match ← Cmd.query (·.firstSuitable env epoch) with
    | none => Cmd.anyhow s!"No startable phases found in epoch '{epoch.data.title}'."
    | some phase =>
      claimPhaseForCurrentOwner env phase.textId false
      if phase.data.status ≠ .inProgress then
        Cmd.call (.updatePhaseStatus phase.textId "in-progress" env.now)
      focusHere env phase.textId

/-- It only reports: an epoch is finished when its phases are. -/
def epochFinish : Cmd Unit := do
  match ← Cmd.query (·.findWorkspaceActiveEpoch env) with
  | none => Cmd.anyhow "No active epoch found."
  | some epoch =>
    let phases ← Cmd.query (·.phasesOf epoch.id)
    let incomplete := phases.filter fun phase => phase.data.status ≠ .completed
    if incomplete = [] then pure ()
    else
      let titles := String.intercalate ", " (incomplete.map fun phase => phase.data.title)
      Cmd.anyhow
        s!"Cannot finish epoch '{epoch.data.title}'. The following phases are not completed: {titles}"

def epochAdd (title : String) (after : Option String) : Cmd Unit := do
  match after with
  | none => Cmd.call (.addEpoch env.newId title)
  | some afterId =>
    let epochs ← Cmd.query (·.planEpochs)
    if epochs.any fun epoch => epoch.textId = afterId then
      Cmd.call (.addEpoch env.newId title)
      Cmd.call (.reorderEpoch env.newId ("after:" ++ afterId))
    else Cmd.exo .notFound s!"Epoch '{afterId}' not found (required by --after)"

def epochUpdate (id title : String) : Cmd Unit := Cmd.call (.updateEpochTitle id title)

def epochReorder (id position : String) : Cmd Unit := do
  let _ ← requireEpoch env id
  Cmd.call (.reorderEpoch id position)

/-- The writer is called with the reference as it was given. -/
def epochRemove (id : String) : Cmd Unit := do
  let _ ← requireEpoch env id
  Cmd.call (.removeEpoch id)

def ensureAll : List (Row PhaseData) → Cmd Unit
  | [] => pure ()
  | phase :: phases => do
    ensurePhaseWriteAllowed env phase.textId
    ensureAll phases

def epochBankrupt (id : String) : Cmd Unit := do
  let epochs ← Cmd.query (·.planEpochs)
  match epochs.find? fun epoch => epoch.textId = id with
  | none => Cmd.anyhow s!"Epoch not found: {id}"
  | some epoch =>
    let phases ← Cmd.query (·.phasesOf epoch.id)
    ensureAll env phases
    Cmd.call (.bankruptEpoch id)

/-! ## Phases -/

def Database.findStartablePhase (db : Database) (id : String) : Option (Row PhaseData) :=
  db.planPhases.find? fun phase => phase.textId = id && SqliteWriter.isOpen phase.data.status

/-- The active phase, else the first pending one. -/
def Database.findNextPendingPhase (db : Database) : Option (Row PhaseData) :=
  (db.findWorkspaceActivePhase env).or
    (db.planPhases.find? fun phase => phase.data.status = .pending)

def phaseToStart (id : Option String) : Cmd (Row PhaseData) := do
  let found ← Cmd.query (fun db => id.elim (db.findNextPendingPhase env) db.findStartablePhase)
  match found, id with
  | some phase, _ => pure phase
  | none, some id =>
    Cmd.exo .preconditionFailed s!"Phase '{id}' is not pending, in-progress, or does not exist"
  | none, none => Cmd.exo .notFound "No pending phase found to start"

/-- The active phase goes back to pending, unless it belongs to somebody else. -/
def activePhaseToDemote (next : Row PhaseData) : Cmd (Option String) := do
  match ← Cmd.query (·.findWorkspaceActivePhase env) with
  | none => pure none
  | some active =>
    if active.textId = next.textId then pure none
    else
      let owner ← Cmd.query (·.loadPhaseOwner active.textId)
      if owner.any fun owner => !ownerMatches owner env.current then pure none
      else if ← Cmd.query (·.phaseHasStartedWork active) then
        Cmd.exo .preconditionFailed
          s!"Cannot start phase '{next.data.title}' while '{active.data.title}' has started work"
      else pure (some active.textId)

def phaseStart (id : Option String) (takeOver : Bool) : Cmd Unit := do
  let next ← phaseToStart env id
  let demote ← activePhaseToDemote env next
  claimPhaseForCurrentOwner env next.textId takeOver
  match demote with
  | none => pure ()
  | some active =>
    match ← (ensurePhaseWriteAllowed env active).attempt with
    | .ok _ => Cmd.call (.updatePhaseStatus active "pending" env.now)
    | .error _ => pure ()
  if next.data.status ≠ .inProgress then
    Cmd.call (.updatePhaseStatus next.textId "in-progress" env.now)
  focusHere env next.textId

def phaseFocus (phaseId : String) : Cmd Unit := do
  let _ ← requirePhase phaseId
  focusHere env phaseId

def phaseRelease (phaseId : String) : Cmd Unit := do
  let _ ← requirePhase phaseId
  releasePhaseOwner env phaseId

structure PhaseAddArgs where
  title : String
  epoch : Option String
  after : Option String
  before : Option String
  first : Bool
  kind : PhaseKind
deriving DecidableEq, Repr

/-- The reorder that follows the insertion. -/
def PhaseAddArgs.position (args : PhaseAddArgs) : Option String :=
  if args.first then some "top"
  else
    match args.after, args.before with
    | some afterId, _ => some ("after:" ++ afterId)
    | none, some beforeId => some ("before:" ++ beforeId)
    | none, none => none

def epochForPhase (epoch : Option String) : Cmd String := do
  let active ← Cmd.query (·.findWorkspaceActiveEpoch env)
  match epoch, active with
  | some id, _ => pure id
  | none, some epoch => pure epoch.textId
  | none, none => Cmd.anyhow "No active epoch found. Use --epoch <id> to specify an epoch."

def phaseAdd (args : PhaseAddArgs) : Cmd Unit := do
  let epochId ← epochForPhase env args.epoch
  Cmd.call (.addPhase env.newId epochId args.title args.kind)
  match args.position with
  | some position => Cmd.call (.reorderPhase env.newId position)
  | none => pure ()

def phaseRemove (id : String) : Cmd Unit := do
  ensurePhaseWriteAllowed env id
  let all ← Cmd.query (·.loadWorkbenchLanes)
  let lanes := all.filter fun lane => lane.phaseTextId = id
  if lanes ≠ [] then
    let s := if lanes.length = 1 then "" else "s"
    Cmd.exo .preconditionFailed
      s!"Phase '{id}' cannot be removed while it has {lanes.length} workbench lane{s}"
  else Cmd.call (.removePhase id)

def phaseUpdate (phaseId : String) (title : Option String) (rfcs : Option (List String)) :
    Cmd Unit := do
  let _ ← requirePhase phaseId
  ensurePhaseWriteAllowed env phaseId
  match title with
  | some title => Cmd.call (.updatePhaseTitle phaseId title)
  | none => pure ()
  match rfcs with
  | some rfcs => Cmd.call (.replacePhaseRfcs phaseId rfcs)
  | none => pure ()

def phaseReorder (phaseId position : String) : Cmd Unit := do
  ensurePhaseWriteAllowed env phaseId
  Cmd.call (.reorderPhase phaseId position)

def phaseMove (phaseId epochId : String) (position : Option String) : Cmd Unit := do
  ensurePhaseWriteAllowed env phaseId
  Cmd.call (.movePhaseToEpoch phaseId epochId position)

def phaseFinish : Cmd Unit := do
  match ← Cmd.query (·.findWorkspaceActivePhase env) with
  | none => Cmd.exo .notFound "No active phase found to finish."
  | some active =>
    ensurePhaseWriteAllowed env active.textId
    Program.ofExcept (env.commitWorkingTree.mapError GitFailure.failure)
    Cmd.call (.completePhaseAndClearLaneFocus active.textId env.now)
    Cmd.call (.clearPhaseOwner active.textId)

end Exosuit.Plan
