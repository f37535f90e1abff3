import Exosuit.Plan.RoadmapCommands
import Exosuit.Plan.TaskCommands
import Exosuit.Plan.LaneCommands

/-!
# The mutating commands of the plan

A project is a database that workspaces send commands to, one after another,
each with what it finds outside.
-/

namespace Exosuit.Plan

open Lib

inductive Command
  | epochReview (epochId : String)
  | epochStart (epochId : String)
  | epochFinish
  | epochAdd (title : String) (after : Option String)
  | epochUpdate (id title : String)
  | epochReorder (id position : String)
  | epochRemove (id : String)
  | epochBankrupt (id : String)
  | phaseStart (id : Option String) (takeOver : Bool)
  | phaseFocus (phaseId : String)
  | phaseRelease (phaseId : String)
  | phaseAdd (args : PhaseAddArgs)
  | phaseRemove (id : String)
  | phaseUpdate (phaseId : String) (title : Option String) (rfcs : Option (List String))
  | phaseReorder (phaseId position : String)
  | phaseMove (phaseId epochId : String) (position : Option String)
  | phaseFinish
  | goalAdd (id label : String) (rfc : Option String) (targetStage : Option Nat)
      (phase : Option String)
  | goalReorder (id position : String)
  | goalMove (id phaseId : String) (position : Option String)
  | goalAbandon (id log : String)
  | goalComplete (id log : String)
  | goalRemove (id : String) (phase : Option String)
  | goalUpdate (id label : String)
  | taskAdd (id label : String) (goal : Option String)
  | taskComplete (id log : String)
  | taskLog (id message : String)
  | taskStart (id : String)
  | taskRemove (id : String)
  | taskReorder (id position : String)
  | taskRename (id requested : String)
  | taskUpdate (id title : String)
  | laneCreate (title intent phaseId : String)
  | laneFocus (id : String)
  | laneStart (id : String)
  | laneRemove (id : String)
  | planUpdateStatus (id status : String)
  | planMoveGoals (sourcePhaseId targetPhaseId : String) (goalIds : List String)
deriving DecidableEq

namespace Command

def executeMut (env : Env) : Command → Cmd Unit
  | epochReview epochId => Plan.epochReview env epochId
  | epochStart epochId => Plan.epochStart env epochId
  | epochFinish => Plan.epochFinish env
  | epochAdd title after => Plan.epochAdd env title after
  | epochUpdate id title => Plan.epochUpdate id title
  | epochReorder id position => Plan.epochReorder env id position
  | epochRemove id => Plan.epochRemove env id
  | epochBankrupt id => Plan.epochBankrupt env id
  | phaseStart id takeOver => Plan.phaseStart env id takeOver
  | phaseFocus phaseId => Plan.phaseFocus env phaseId
  | phaseRelease phaseId => Plan.phaseRelease env phaseId
  | phaseAdd args => Plan.phaseAdd env args
  | phaseRemove id => Plan.phaseRemove env id
  | phaseUpdate phaseId title rfcs => Plan.phaseUpdate env phaseId title rfcs
  | phaseReorder phaseId position => Plan.phaseReorder env phaseId position
  | phaseMove phaseId epochId position => Plan.phaseMove env phaseId epochId position
  | phaseFinish => Plan.phaseFinish env
  | goalAdd id label rfc targetStage phase => Plan.goalAdd env id label rfc targetStage phase
  | goalReorder id position => Plan.goalReorder env id position
  | goalMove id phaseId position => Plan.goalMove env id phaseId position
  | goalAbandon id log => Plan.goalAbandon env id log
  | goalComplete id log => Plan.goalComplete env id log
  | goalRemove id phase => Plan.goalRemove env id phase
  | goalUpdate id label => Plan.goalUpdate env id label
  | taskAdd id label goal => Plan.taskAdd env id label goal
  | taskComplete id log => Plan.taskComplete env id log
  | taskLog id message => Plan.taskLog env id message
  | taskStart id => Plan.taskStart env id
  | taskRemove id => Plan.taskRemove env id
  | taskReorder id position => Plan.taskReorder env id position
  | taskRename id requested => Plan.taskRename env id requested
  | taskUpdate id title => Plan.taskUpdate env id title
  | laneCreate title intent phaseId => Plan.laneCreate env title intent phaseId
  | laneFocus id => Plan.laneFocus env id
  | laneStart id => Plan.laneStart env id
  | laneRemove id => Plan.laneRemove env id
  | planUpdateStatus id status => Plan.planUpdateStatus env id status
  | planMoveGoals sourcePhaseId targetPhaseId goalIds =>
    Plan.planMoveGoals env sourcePhaseId targetPhaseId goalIds

end Command

variable (fx : FractionalIndex)

/-- The command's outcome, and the database that it leaves. -/
def dispatchMut (env : Env) (command : Command) (db : Database) : Except Failure Unit × Database :=
  (command.executeMut env).run (WriterCall.exec fx) db

/-- A request: a command with what it finds outside the database. -/
structure Request where
  env : Env
  command : Command

def step (db : Database) (request : Request) : Option Database :=
  some (dispatchMut fx request.env request.command db).2

/-! ## A small project -/

/-- The first keys of the crate, one after another. -/
def sampleIndex : FractionalIndex where
  Key := String
  fromString := .ok
  toString := id
  default := "80"
  newAfter key := if key = "80" then "8180" else if key = "8180" then "8280" else "8380"
  newBefore key := if key = "80" then "7f80" else "80"
  newBetween _ _ := some "817f80"

/-- A workspace that generates the id `newId`. -/
def sampleEnv (workspace newId : String) : Env where
  current := ⟨"workspace", workspace, workspace, some ("/work/" ++ workspace)⟩
  workspaceRoot := some ("/work/" ++ workspace)
  newId
  now := "2026-01-01T00:00:00Z"
  parseUlid _ := none
  stale _ := false
  workflowConfirmation := none
  commitWorkingTree := .ok ()

/-- Workspace `a` with a confirmation in the request. -/
def confirmingEnv (entityType entityId outcome newId : String) : Env :=
  { sampleEnv "a" newId with
    workflowConfirmation :=
      some ⟨"workflow_completion_confirmation", entityType, entityId, .yesComplete, outcome⟩ }

/-- Workspace `a` starts a phase and adds a goal to it. -/
def sampleRequests : List Request :=
  [ ⟨sampleEnv "a" "e1", .epochAdd "Epoch" none⟩,
    ⟨sampleEnv "a" "p1", .phaseAdd ⟨"Phase", some "e1", none, none, false, .regular⟩⟩,
    ⟨sampleEnv "a" "", .phaseStart (some "p1") false⟩,
    ⟨sampleEnv "a" "", .goalAdd "g1" "Goal" none none none⟩ ]

end Exosuit.Plan
