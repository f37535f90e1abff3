import Exosuit.Daemon.Refusals

/-!
# Dispatch of a request

A daemon first looks for a terminal outcome of the request
(`terminal_outcome_before_preparation_with_launch_replay`) and, without one, runs
it on one of the three paths. Only a launch takes the launch path.
-/

namespace Exosuit.Daemon

open Lib (Json Interleaving)

def requestCommandPath (q : RequestEnvelope) : Option (String × String) :=
  let address := (q.op.get "params").bind fun params => params.get "address"
  if (q.op.get "kind").bind Json.asStr = some "call" ∧
      (address.bind fun a => (a.get "kind").bind Json.asStr) = some "operation" then
    match address.bind fun a => a.get "path" with
    | some (.array [.string operation]) => some ("", operation)
    | some (.array [.string namespace_, .string operation]) => some (namespace_, operation)
    | some (.array [.string namespace_, .string first, .string second]) =>
      some (namespace_, first ++ "." ++ second)
    | _ => none
  else none

def isWorkbenchLaunchRequest (q : RequestEnvelope) : Bool :=
  requestCommandPath q = some ("workbench", "launch")

inductive DaemonPhase (H : Type*)
  | running (p : RequestPhase)
  | replacing (c : Call) (hash : H) (effect : Effect) (json : Json)
  | discarding (c : Call) (hash : H) (json : Json)
  | answering (c : Call) (effect : Effect) (completion : PersistedCompletion)
  | probed (c : Call) (o : Option OutcomeExecution)

inductive DaemonAction
  | launch (a : ExternalAction)
  | execute (a : ExternalAction)
  | atomic (a : AtomicAction)
  | dispatch (p : RequestPhase)
  | probe (c : Call)
  | probeFails (c : Call)
  | replaceLegacy
  | replaceLegacyFails
  | discard
  | discardFails
  | answer (current : Bool)
  | crash

namespace Dispatch

variable {ι H : Type*}

def between : DaemonPhase H → Bool
  | .running p => Refusals.between p
  | .probed _ _ => true
  | _ => false

/-- The launch path takes only launches, and the other external path takes none and has
no replay callback. -/
def admits (launch : Bool) : ExternalAction → Bool
  | .call c | .fingerprintFails c _ => isWorkbenchLaunchRequest c.request == launch
  | .replay _ | .retain | .retainFails _ => launch
  | _ => true

def admitsAtomic : AtomicAction → Bool
  | .call c | .fingerprintFails c _ => !isWorkbenchLaunchRequest c.request
  | _ => true

/-- The conflict answer of the probe: a row of an atomic request commits no effect. -/
def conflictResponse (c : Call) (effect : Effect) (recoveryClass : Option RecoveryClass) :
    ResponseEnvelope :=
  match recoveryClass with
  | none | some .atomicProjectState =>
    withoutCommittedEffect (requestIdConflictResponse c.request.id effect)
  | some _ => requestIdConflictResponse c.request.id effect

section

variable [DecidableEq H] (fingerprint : RequestEnvelope → H)

/-- The read of the probe; an answer `none` lets the request go on to its path. -/
def terminalOutcome (c : Call) (w : World ι H) : DaemonPhase H :=
  match w.ledger c.request.id with
  | none => .probed c none
  | some row =>
    match effectFromName row.effect with
    | none => .probed c none
    | some effect =>
      if ¬ (requestHashes fingerprint c.request).Matches row.requestHash then
        .probed c (some
          ⟨conflictResponse c effect (row.recoveryClass.bind recoveryClassFromName), false⟩)
      else
        match row.responseJson with
        | none => .probed c none
        | some json =>
          if isWorkbenchLaunchRequest c.request && rawResponseIsWorkbenchLaunch json then
            .replacing c row.requestHash effect json
          else
            match persistedCompletionFromJson json with
            | .error _ => .probed c none
            | .ok completion =>
              if isWorkbenchLaunchRequest c.request then .answering c effect completion
              else
                match completion with
                | .workbenchLaunchMarker => .probed c none
                | .response r =>
                  if c.request.auth.any (·.confirm) && isTransientExecutionConfirmation r then
                    .discarding c row.requestHash json
                  else .probed c (some ⟨r, true⟩)

/-- `UPDATE … SET response_json = marker`, for a row that still holds the raw response. -/
def replaceLegacyWorkbenchLaunchResponse (ledger : Ledger H) (id : String) (hash : H) (json : Json) :
    Ledger H :=
  match ledger id with
  | some row =>
    if row.requestHash = hash ∧ row.responseJson = some json then
      Function.update ledger id
        (some { row with responseJson := some workbenchLaunchCompletionMarkerJson })
    else ledger
  | none => ledger

/-- `DELETE … WHERE request_id AND request_hash AND response_json`. -/
def discardConfirmation (ledger : Ledger H) (id : String) (hash : H) (json : Json) : Ledger H :=
  match ledger id with
  | some row =>
    if row.requestHash = hash ∧ row.responseJson = some json then Function.update ledger id none
    else ledger
  | none => ledger

def answer (c : Call) (effect : Effect) (completion : PersistedCompletion) (current : Bool)
    (w : World ι H) : DaemonPhase H :=
  let retained := if current then w.launches (c.instanceId, c.request.id) else none
  .probed c (some
    ⟨External.replayWorkbenchLaunchCompletion c.request.id effect retained completion, true⟩)

def crash [DecidableEq ι] (i : ι) (w : World ι H) : DaemonPhase H × World ι H :=
  (.running (.atomic .idle), Atomic.crash i w)

variable [DecidableEq ι]

def step (i : ι) : DaemonAction → DaemonPhase H → World ι H → Option (DaemonPhase H × World ι H)
  | .launch a, .running (.external .workbenchLaunch p), w =>
    if admits true a then
      (External.step .workbenchLaunch fingerprint i a p w).map fun q =>
        (.running (.external .workbenchLaunch q.1), q.2)
    else none
  | .execute a, .running (.external .execute p), w =>
    if admits false a then
      (External.step .execute fingerprint i a p w).map fun q =>
        (.running (.external .execute q.1), q.2)
    else none
  | .atomic a, .running (.atomic p), w =>
    if admitsAtomic a then
      (Atomic.step fingerprint i a p w).map fun q => (.running (.atomic q.1), q.2)
    else none
  | .dispatch target, p, w =>
    if between p && Refusals.isIdle target then some (.running target, w) else none
  | .probe c, p, w => if between p then some (terminalOutcome fingerprint c w, w) else none
  | .probeFails c, p, w => if between p then some (.probed c none, w) else none
  | .replaceLegacy, .replacing c hash effect json, w =>
    some (.answering c effect .workbenchLaunchMarker,
      { w with
        ledger := replaceLegacyWorkbenchLaunchResponse w.ledger c.request.id hash json })
  | .replaceLegacyFails, .replacing c _ _ _, w => some (.probed c none, w)
  | .discard, .discarding c hash json, w =>
    some (.probed c none, { w with ledger := discardConfirmation w.ledger c.request.id hash json })
  | .discardFails, .discarding c _ _, w => some (.probed c none, w)
  | .answer current, .answering c effect completion, w => some (answer c effect completion current w, w)
  | .crash, _, w => some (crash i w)
  | _, _, _ => none

end

def launchAnswer : DaemonPhase H → Option (Call × OutcomeExecution)
  | .running (.external .workbenchLaunch (.returned c o)) => some (c, o)
  | .probed c (some o) => if isWorkbenchLaunchRequest c.request then some (c, o) else none
  | _ => none

end Dispatch

/-- The threads of all daemon instances, with what they share. -/
abbrev DaemonState (ι H : Type*) := Interleaving ι (DaemonPhase H) (World ι H)

def daemonStep {ι H : Type*} [DecidableEq H] [DecidableEq ι] (fingerprint : RequestEnvelope → H) :
    DaemonState ι H → ι × DaemonAction → Option (DaemonState ι H) :=
  Interleaving.step (Dispatch.step fingerprint)

end Exosuit.Daemon
