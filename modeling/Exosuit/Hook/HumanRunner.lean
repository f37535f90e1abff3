import Exosuit.Hook.JsonlRunner

/-!
# The human runner

The runner of the terminal formats knows commands only: the planner leaves skipped
checks out and invokes the tools itself. What is printed is left out.
-/

namespace Exosuit.Hook

/-- `run_command_streaming` and `run_command_capture`; `none` when they panic. -/
def runCommand (command : CommandOutcome) : Option (Except String CheckResult) :=
  match command with
  | .exited code chunks => some (.ok ⟨code, chunks.bytes .stdout, chunks.bytes .stderr⟩)
  | .notSpawned error | .notWaited error _ => some (.error error)
  | .panicked _ => none

def emptyArgv (plan : CheckPlan) : String := "check '" ++ plan.id ++ "' argv must not be empty"

/-- What a check leaves in its slot: an error, or whether its command succeeded. -/
structure Slot where
  plan : CheckPlan
  result : Except String CheckResult

def Slot.failed (slot : Slot) : Bool :=
  match slot.result with
  | .ok result => !result.success
  | .error _ => true

def runThreadHuman (e : Nat × Attempt) : Nat × Slot :=
  let plan := e.2.plan
  let result := if plan.parts = [] then some (.error (emptyArgv plan)) else runCommand e.2.command
  (e.1, ⟨plan, result.getD (.error "check thread panicked")⟩)

/-- How the loop over the sequential group ends, besides running to where it breaks. -/
inductive LoopEnd
  | broke (slots : List (Nat × Slot))
  | returned (error : String)
  | panicked

def LoopEnd.cons (slot : Nat × Slot) : LoopEnd → LoopEnd
  | .broke slots => .broke (slot :: slots)
  | ended => ended

def runSequentialHuman (scopeBase : Option String) : List (Nat × Attempt) → LoopEnd
  | [] => .broke []
  | (index, a) :: rest =>
    let plan := a.plan
    if plan.parts = [] then .returned (emptyArgv plan)
    else
      match runCommand a.command with
      | none => .panicked
      | some (.error error) => .broke [(index, ⟨plan, .error error⟩)]
      | some (.ok result) =>
        if !result.success then .broke [(index, ⟨plan, .ok result⟩)]
        else if plan.restage = .auto then
          match applyRestageIfNeeded scopeBase plan a.git with
          | .error error => .broke [(index, ⟨plan, .error error⟩)]
          | .ok () => (runSequentialHuman scopeBase rest).cons (index, ⟨plan, .ok result⟩)
        else (runSequentialHuman scopeBase rest).cons (index, ⟨plan, .ok result⟩)

/-- `run_check_plans`; `none` when it panics. -/
def runCheckPlans (lane : String) (attempts : List Attempt) (laneParallel : Bool)
    (scopeBase : Option String) : Option (Except String Unit) :=
  let threads := (parallelPlans laneParallel scopeBase attempts).map runThreadHuman
  match runSequentialHuman scopeBase (sequentialPlans laneParallel scopeBase attempts) with
  | .panicked => none
  | .returned error => some (.error error)
  | .broke slots =>
    let ran := (placed attempts).filterMap fun e =>
      ((threads ++ slots).find? fun slot => slot.1 == e.1).map Prod.snd
    match ran.filter Slot.failed with
    | [] => some (.ok ())
    | slot :: slots =>
      let firstErr := (slot :: slots).findSome? fun s => match s.result with
        | .ok _ => none
        | .error error => some error
      some (.error (if laneParallel then
          "lane '" ++ lane ++ "' failed checks: " ++
            ", ".intercalate ((slot :: slots).map fun s => s.plan.id)
        else firstErr.getD ("check '" ++ slot.plan.id ++ "' failed")))

end Exosuit.Hook
