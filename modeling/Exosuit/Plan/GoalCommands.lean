import Exosuit.Plan.Guard

/-!
# Commands on goals, and the plan's own commands
-/

namespace Exosuit.Plan

open Lib PhaseOwner

/-! ## Evidence for a completion -/

def isWorkflowCompletionConfirmationKind (kind : String) : Bool :=
  kind = "workflow_completion_confirmation" || kind = "outcome_review"

def workflowCompletionConfirmationMatches (confirmation : WorkflowConfirmationInput)
    (entityType entityId outcome : String) : Bool :=
  isWorkflowCompletionConfirmationKind confirmation.kind &&
    confirmation.entityType = entityType && confirmation.entityId = entityId &&
    confirmation.decision = .yesComplete && confirmation.outcome = outcome

/-- The request confirms the completion of this entity with this outcome. -/
def Env.confirms (env : Env) (entityType entityId outcome : String) : Bool :=
  env.workflowConfirmation.any fun confirmation =>
    workflowCompletionConfirmationMatches confirmation entityType entityId outcome

/-- The claim that the listing of the inbox sees as a person's own. -/
def recordCompletionApprovalEvidence (env : Env) (entityType entityId : String) : Cmd Unit := do
  Cmd.call (.addInboxItem env.newId entityType (some entityId) "claim" none env.now)
  Cmd.call (.updateInboxStatus env.newId .acknowledged)

def recordWorkflowCompletionEvidence (env : Env) (entityType entityId outcome : String) :
    Cmd Unit :=
  if env.confirms entityType entityId outcome then
    recordCompletionApprovalEvidence env entityType entityId
  else pure ()

def outcomeReviewFailure (entityType entityId : String) : Failure :=
  .exo .preconditionFailed
    s!"Outcome review needed for {entityType} '{entityId}': Outcome ready for review. Approve, revise, continue, or discuss the outcome before recording completion."

/-- A completion needs a person's claim, or an agent's that somebody acknowledged. -/
def Database.CompletionClaimStatus.approves : CompletionClaimStatus → Bool
  | .humanClaim => true
  | .agentClaimAcknowledged => true
  | .noClaim => false
  | .agentClaimPending => false

/-- The tasks of the listing whose display id begins with the goal's id. -/
def Database.listedGoalTasks (db : Database) (workspaceRoot : Option String) (goalId : String) :
    List ListedTask :=
  (db.listActivePhaseTasks workspaceRoot).filter fun task =>
    (Text.split "::" task.compositeId).head? = some goalId

def Database.pendingCount (db : Database) (workspaceRoot : Option String) (goalId : String) : Nat :=
  ((db.listedGoalTasks workspaceRoot goalId).filter fun task => task.status ≠ .completed).length

def tasksPendingFailure (goalId : String) (pendingCount : Nat) : Failure :=
  .anyhow
    s!"Cannot complete goal '{goalId}': {pendingCount} task(s) still pending. Complete tasks first or use `exo goal abandon {goalId} --log '...'`"

variable (env : Env)

def requireNothingPending (goalId : String) : Cmd Unit := do
  let pendingCount ← Cmd.query (·.pendingCount env.workspaceRoot goalId)
  if pendingCount = 0 then pure () else Cmd.fail (tasksPendingFailure goalId pendingCount)

/-! ## Goals -/

def Database.goalPhaseId (db : Database) (goalId : String) : Option String :=
  (db.goals.byTextId goalId).bind fun goal =>
    (db.phases.byId goal.data.phaseId).map fun phase => phase.textId

def requireGoalPhaseId (goalId : String) : Cmd String := do
  match ← Cmd.query (·.goalPhaseId goalId) with
  | some phaseId => pure phaseId
  | none => Cmd.anyhow s!"Goal not found: {goalId}"

def ensureGoalRequestedPhase (goalId actualPhase requestedPhase : String) : Cmd Unit :=
  if actualPhase = requestedPhase then pure ()
  else
    Cmd.anyhow
      s!"Goal '{goalId}' belongs to phase '{actualPhase}', not phase '{requestedPhase}'."

def requireActivePhase (message : String) : Cmd (Row PhaseData) := do
  match ← Cmd.query (·.findWorkspaceActivePhase env) with
  | some phase => pure phase
  | none => Cmd.anyhow message

def requestedPhase (phase : Option String) : Cmd String :=
  match phase with
  | some phaseId => pure phaseId
  | none => do
    let active ← requireActivePhase env "No active phase. Start a phase or use --phase <id>."
    pure active.textId

def requireActiveGoal (id message : String) : Cmd (Row GoalData) := do
  let phase ← requireActivePhase env message
  ensurePhaseWriteAllowed env phase.textId
  let goals ← Cmd.query (·.goalsOf phase.id)
  match goals.find? fun goal => goal.textId = id with
  | some goal => pure goal
  | none =>
    Cmd.anyhow
      s!"Goal '{id}' not found in active phase. Use `exo goal list` to see available goals."

def goalAdd (id label : String) (rfc : Option String) (targetStage : Option Nat)
    (phase : Option String) : Cmd Unit := do
  let phaseId ← requestedPhase env phase
  ensurePhaseWriteAllowed env phaseId
  Cmd.call (.addGoal phaseId id label rfc targetStage)

def goalReorder (id position : String) : Cmd Unit := do
  let active ← requireActivePhase env "No active phase. Start a phase before reordering goals."
  let phaseId ← requireGoalPhaseId id
  ensurePhaseWriteAllowed env phaseId
  ensureGoalRequestedPhase id phaseId active.textId
  Cmd.call (.reorderGoal id position)

def goalMove (id phaseId : String) (position : Option String) : Cmd Unit := do
  let sourcePhaseId ← requireGoalPhaseId id
  ensurePhaseWriteAllowed env sourcePhaseId
  ensurePhaseWriteAllowed env phaseId
  Cmd.call (.moveGoalToPhasePosition id phaseId position)

/-- A completed goal can be abandoned too. -/
def goalAbandon (id log : String) : Cmd Unit := do
  let goal ← requireActiveGoal env id "No active phase. Start a phase before abandoning goals."
  if goal.data.status = .abandoned then Cmd.anyhow s!"Goal '{id}' is already abandoned."
  else
    Cmd.call (.updateGoalStatus id "abandoned")
    Cmd.call (.updateGoalCompletionLog id log)

def goalComplete (id log : String) : Cmd Unit := do
  let goal ← requireActiveGoal env id "No active phase. Start a phase before completing goals."
  if goal.data.status = .completed then Cmd.anyhow s!"Goal '{id}' is already completed."
  else if goal.data.status = .abandoned then Cmd.anyhow s!"Goal '{id}' is already abandoned."
  else
    requireNothingPending env id
    recordWorkflowCompletionEvidence env "goal" id log
    let claim ← Cmd.query (·.hasCompletionClaim "goal" id)
    if claim.approves then
      Cmd.call (.updateGoalStatus id "completed")
      Cmd.call (.updateGoalCompletionLog id log)
    else Cmd.fail (outcomeReviewFailure "goal" id)

def goalRemove (id : String) (phase : Option String) : Cmd Unit := do
  let requestedPhaseId ← requestedPhase env phase
  let phaseId ← requireGoalPhaseId id
  ensurePhaseWriteAllowed env phaseId
  ensureGoalRequestedPhase id phaseId requestedPhaseId
  Cmd.call (.removeGoal id)

def goalUpdate (id label : String) : Cmd Unit := do
  let _ ← requireActiveGoal env id "No active phase. Start a phase before updating goals."
  Cmd.call (.updateGoalLabel id label)

/-! ## The plan's commands -/

def Database.findGoalById (db : Database) (id : String) : Option (Row GoalData) :=
  db.planGoals.find? fun goal => goal.textId = id

def Database.findPhaseForStatusTarget (db : Database) (id : String) : Option String :=
  ((db.planPhases.find? fun phase => (db.goalsOf phase.id).any fun goal => goal.textId = id).or
    (db.findPhaseByTextId id)).map fun phase => phase.textId

def ensureStatusTargetAllowed (id : String) : Cmd Unit := do
  match ← Cmd.query (·.findPhaseForStatusTarget id) with
  | some phaseId => ensurePhaseWriteAllowed env phaseId
  | none => pure ()

def planUpdateStatus (id status : String) : Cmd Unit := do
  let goal ← Cmd.query (·.findGoalById id)
  if status = "completed" ∧ goal.any fun goal => goal.data.completionLog.isNone then
    Cmd.anyhow s!"Cannot set goal '{id}' to 'completed' directly.\n\n[Next Step]\nUse: exo goal complete {id} --log '<what was accomplished>'\n\nThe completion log captures what was learned or delivered—it's the final deliverable, not bookkeeping."
  else
    ensureStatusTargetAllowed env id
    match ← (Cmd.call (.updateGoalStatus id status)).attempt with
    | .ok _ => pure ()
    | .error _ => Cmd.call (.updatePhaseStatus id status env.now)

/-- Each move commits on its own. -/
def moveGoals (targetPhaseId : String) : List String → Cmd Unit
  | [] => pure ()
  | goalId :: goalIds => do
    Cmd.call (.moveGoalToPhasePosition goalId targetPhaseId none)
    moveGoals targetPhaseId goalIds

def planMoveGoals (sourcePhaseId targetPhaseId : String) (goalIds : List String) : Cmd Unit := do
  let source ← Cmd.query (·.findPhaseByTextId sourcePhaseId)
  let target ← Cmd.query (·.findPhaseByTextId targetPhaseId)
  match source, target with
  | none, _ => Cmd.anyhow s!"Source phase not found: {sourcePhaseId}"
  | some _, none => Cmd.anyhow s!"Target phase not found: {targetPhaseId}"
  | some source, some _ =>
    let goals ← Cmd.query (·.goalsOf source.id)
    match goalIds.find? fun goalId => goalId ∉ goals.map Row.textId with
    | some goalId => Cmd.anyhow s!"Goal '{goalId}' not found in source phase '{sourcePhaseId}'"
    | none =>
      ensurePhaseWriteAllowed env sourcePhaseId
      ensurePhaseWriteAllowed env targetPhaseId
      moveGoals targetPhaseId goalIds

end Exosuit.Plan
