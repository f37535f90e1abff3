import Exosuit.Hook.Plans
import Exosuit.Lib.Schedule

/-!
# The JSONL runner

The checks of the parallel group run in threads that emit into one stream, those of the
sequential group one after the other. Every event carries the place of its check beside
it; the place is not part of the event.
-/

namespace Exosuit.Hook

open Lib

inductive CheckStatus
  | success
  | failure
  | timeout
  | cancelled
  | skipped
deriving DecidableEq, Repr

inductive SkipReason
  | noMatchingFiles
  | failFast (failedCheck : String)
deriving DecidableEq, Repr

inductive LaneStatus
  | success
  | failure
deriving DecidableEq, Repr

structure CheckSummary where
  id : String
  status : CheckStatus
  exitCode : Option Int32
  outputPreview : Option String
  skipReason : Option SkipReason
deriving DecidableEq

inductive JsonlEvent
  | laneStarted (lane : String) (checkCount : Nat) (parallel : Bool)
  | checkEnqueued (checkId lane : String) (index : Nat) (label : String)
  | checkStarted (checkId lane : String) (index : Nat) (command : String) (workingDir : Option String)
      (filters : List String) (matchedFiles : Option (List String))
  | checkOutput (checkId lane : String) (stream : OutputStream) (data : String)
  | checkCompleted (checkId lane : String) (status : CheckStatus) (exitCode : Option Int32)
      (outputBytes : Nat) (skipReason : Option SkipReason)
  | restageFailed (checkId lane error : String)
  | laneCompleted (lane : String) (status : LaneStatus) (passed failed skipped : Nat)
  | summary (protocolVersion : Nat) (lane : String) (status : LaneStatus) (checks : List CheckSummary)
deriving DecidableEq

/-! ## One check -/

def planCommandString (plan : CheckPlan) : String :=
  match plan.tool with
  | some tool => "tool:" ++ ".".intercalate tool.toolAddress
  | none => " ".intercalate plan.parts

/-- The first 500 characters of both streams. -/
def outputPreview (stdout stderr : List UInt8) : Option String :=
  if stdout ++ stderr = [] then none
  else some (String.ofList ((Text.fromUtf8Lossy (stdout ++ stderr)).toList.take 500))

/-- The result of a command that was spawned and waited for. -/
structure CheckResult where
  code : Option Int32
  stdout : List UInt8
  stderr : List UInt8

def CheckResult.success (r : CheckResult) : Bool := r.code == some 0

/-- What a piece of code emits, and how it ends; `none` when it panics. -/
structure Emission (α : Type) where
  events : List JsonlEvent
  result : Option (Except String α)

def outputEvents (checkId lane : String) (chunks : Chunks) : List JsonlEvent :=
  chunks.filterMap fun c =>
    let text := Text.fromUtf8Lossy c.2
    if text = "" then none else some (.checkOutput checkId lane c.1 text)

/-- `run_command_capture_jsonl` -/
def runCommandCaptureJsonl (checkId lane : String) (command : CommandOutcome) :
    Emission CheckResult :=
  match command with
  | .exited code chunks =>
    ⟨outputEvents checkId lane chunks, some (.ok ⟨code, chunks.bytes .stdout, chunks.bytes .stderr⟩)⟩
  | .notSpawned error => ⟨[], some (.error error)⟩
  | .notWaited error chunks => ⟨outputEvents checkId lane chunks, some (.error error)⟩
  | .panicked chunks => ⟨outputEvents checkId lane chunks, none⟩

def startedEvent (lane : String) (index : Nat) (plan : CheckPlan) : JsonlEvent :=
  .checkStarted plan.id lane index (planCommandString plan) (some plan.workdir) plan.filters
    plan.matchedFiles

def completedEvent (lane : String) (summary : CheckSummary) (outputBytes : Nat) : JsonlEvent :=
  .checkCompleted summary.id lane summary.status summary.exitCode outputBytes summary.skipReason

def statusOf (success : Bool) : CheckStatus := if success then .success else .failure

def toolSummary (plan : CheckPlan) (success : Bool) (message : Option String) : CheckSummary where
  id := plan.id
  status := statusOf success
  exitCode := none
  outputPreview := if success then none else message
  skipReason := none

def commandSummary (plan : CheckPlan) (result : CheckResult) : CheckSummary where
  id := plan.id
  status := statusOf result.success
  exitCode := result.code
  outputPreview := if result.success then none else outputPreview result.stdout result.stderr
  skipReason := none

def skippedSummary (plan : CheckPlan) : CheckSummary :=
  ⟨plan.id, .skipped, none, none, some .noMatchingFiles⟩

/-- `run_jsonl_check`. An error of a command leaves by `?`, one of a tool is completed. -/
def runJsonlCheck (lane : String) (index : Nat) (a : Attempt) : Emission CheckSummary :=
  let plan := a.plan
  let started := startedEvent lane index plan
  if plan.skipped then
    ⟨[started, completedEvent lane (skippedSummary plan) 0], some (.ok (skippedSummary plan))⟩
  else if plan.tool.isSome then
    match a.tool with
    | .answered success message =>
      let summary := toolSummary plan success message
      let outputBytes := (summary.outputPreview.map String.utf8ByteSize).getD 0
      ⟨[started, completedEvent lane summary outputBytes], some (.ok summary)⟩
    | .failed error =>
      ⟨[started, .checkCompleted plan.id lane .failure none 0 none], some (.error error)⟩
    | .panicked => ⟨[started], none⟩
  else if plan.parts = [] then
    ⟨[started], some (.error ("check '" ++ plan.id ++ "' argv must not be empty"))⟩
  else
    let run := runCommandCaptureJsonl plan.id lane a.command
    match run.result with
    | some (.ok result) =>
      let summary := commandSummary plan result
      ⟨started :: run.events ++
          [completedEvent lane summary (result.stdout.length + result.stderr.length)],
        some (.ok summary)⟩
    | some (.error error) => ⟨started :: run.events, some (.error error)⟩
    | none => ⟨started :: run.events, none⟩

/-! ## A lane -/

/-- What was emitted for a plan that ran, and what is recorded of it. -/
structure Executed where
  index : Nat
  events : List JsonlEvent
  result : Option (Except String CheckSummary)

/-- A thread of the parallel group: a panic is recorded when it is joined. -/
def runThread (lane : String) (e : Nat × Attempt) : Executed :=
  let run := runJsonlCheck lane e.1 e.2
  ⟨e.1, run.events, some (run.result.getD (.error "check thread panicked"))⟩

def restageError (scopeBase : Option String) (a : Attempt) (summary : CheckSummary) : Option String :=
  if a.plan.restage = .auto ∧ summary.status = .success then
    match applyRestageIfNeeded scopeBase a.plan a.git with
    | .error error => some error
    | .ok () => none
  else none

/-- The loop over the sequential group, up to where it breaks or panics. -/
def runSequential (lane : String) (scopeBase : Option String) : List (Nat × Attempt) → List Executed
  | [] => []
  | (index, a) :: rest =>
    let run := runJsonlCheck lane index a
    match run.result with
    | some (.ok summary) =>
      match restageError scopeBase a summary with
      | some error =>
        [⟨index, run.events ++ [.restageFailed a.plan.id lane error], some (.error error)⟩]
      | none =>
        ⟨index, run.events, some (.ok summary)⟩ ::
          if summary.status = .success then runSequential lane scopeBase rest else []
    | result => [⟨index, run.events, result⟩]

abbrev Results := Nat → Option (Except String CheckSummary)

def resultsOf (executed : List Executed) : Results := fun index =>
  (executed.find? fun e => e.index == index).bind Executed.result

/-- Whom the fail-fast events name: the first plan whose result is a failure or an error. -/
def failedCheckId (results : Results) (attempts : List Attempt) : Option String :=
  (placed attempts).findSome? fun e =>
    match results e.1 with
    | some (.ok summary) => if summary.status = .failure then some e.2.plan.id else none
    | some (.error _) => some e.2.plan.id
    | none => none

def failFastEvents (lane : String) (failedId : String) (index : Nat) (plan : CheckPlan) :
    List JsonlEvent :=
  [startedEvent lane index plan,
    .checkCompleted plan.id lane .skipped none 0 (some (.failFast failedId))]

/-- The checks that were never run, as long as some check failed. -/
def failFast (lane : String) (results : Results) (attempts : List Attempt) :
    List (Option Nat × JsonlEvent) :=
  match failedCheckId results attempts with
  | some failedId =>
    (placed attempts).flatMap fun e =>
      if (results e.1).isNone && !e.2.plan.skipped then
        (failFastEvents lane failedId e.1 e.2.plan).map (some e.1, ·)
      else []
  | none => []

/-- The results that are there, in the order of the plans. -/
def ranResults (results : Results) (attempts : List Attempt) :
    List (Attempt × Except String CheckSummary) :=
  (placed attempts).filterMap fun e => (results e.1).map (e.2, ·)

/-- What the summary says of a result; an error counts as a failure. -/
def summaryOf (r : Attempt × Except String CheckSummary) : CheckSummary :=
  match r.2 with
  | .ok summary => summary
  | .error error => ⟨r.1.plan.id, .failure, none, some error, none⟩

def passedOf (summaries : List CheckSummary) : Nat := summaries.countP fun s => s.status == .success

def skippedOf (summaries : List CheckSummary) : Nat := summaries.countP fun s => s.status == .skipped

def failedOf (summaries : List CheckSummary) : Nat :=
  summaries.countP fun s => s.status != .success && s.status != .skipped

def laneStatusOf (summaries : List CheckSummary) : LaneStatus :=
  if failedOf summaries = 0 then .success else .failure

structure LaneRun where
  /-- the events, each with the place of the check that it is about -/
  events : List (Option Nat × JsonlEvent)
  results : Results
  /-- `none` when the runner itself panics -/
  outcome : Option (Except String Unit)

def laneHeader (lane : String) (attempts : List Attempt) (laneParallel : Bool) :
    List (Option Nat × JsonlEvent) :=
  (none, .laneStarted lane attempts.length laneParallel) ::
    (placed attempts).map fun e => (some e.1, .checkEnqueued e.2.plan.id lane e.1 e.2.plan.label)

def threadEvents (threads : List Executed) (schedule : List Nat) : List (Option Nat × JsonlEvent) :=
  (Schedule.merge (threads.map Executed.index) schedule fun index =>
    ((threads.find? fun e => e.index == index).map Executed.events).getD []).map
      fun e => (some e.1, e.2)

def loopEvents (executed : List Executed) : List (Option Nat × JsonlEvent) :=
  executed.flatMap fun e => e.events.map (some e.index, ·)

/-- `run_check_plans_jsonl` under a schedule of the parallel checks' events. -/
def runCheckPlansJsonl (lane : String) (attempts : List Attempt) (laneParallel : Bool)
    (scopeBase : Option String) (schedule : List Nat) : LaneRun :=
  let threads := (parallelPlans laneParallel scopeBase attempts).map (runThread lane)
  let loop := runSequential lane scopeBase (sequentialPlans laneParallel scopeBase attempts)
  let results := resultsOf (threads ++ loop)
  let events := laneHeader lane attempts laneParallel ++ threadEvents threads schedule ++
    loopEvents loop
  if loop.any fun e => e.result.isNone then ⟨events, results, none⟩
  else
    let ran := ranResults results attempts
    let summaries := ran.map summaryOf
    let status := laneStatusOf summaries
    let firstErr := ran.findSome? fun r => match r.2 with
      | .ok _ => none
      | .error error => some error
    { events := events ++ failFast lane results attempts ++
        [(none, .laneCompleted lane status (passedOf summaries) (failedOf summaries)
            (skippedOf summaries)),
          (none, .summary 1 lane status summaries)]
      results
      outcome := some (if failedOf summaries = 0 then .ok ()
        else .error (firstErr.getD ("lane '" ++ lane ++ "' failed"))) }

end Exosuit.Hook
