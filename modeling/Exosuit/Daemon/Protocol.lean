import Mathlib.Data.Option.Basic
import Exosuit.Lib.Json

/-!
# The daemon protocol

Request and response envelopes, their persisted JSON form, and the predicates
that classify a handler's response.
-/

namespace Exosuit.Daemon

open Lib (Json)

inductive Status
  | ok
  | needsInput
  | confirmRequired
  | error
deriving DecidableEq, Repr

inductive Effect
  | pure
  | write
  | exec
deriving DecidableEq, Repr

inductive RecoveryClass
  | replayableRead
  | atomicProjectState
  | externalAtMostOnce
deriving DecidableEq, Repr

inductive ErrorCode
  | unknownAddress
  | unknownListKind
  | invalidInput
  | unknownCommand
  | missingArg
  | typeMismatch
  | missingTicket
  | ticketInvalid
  | confirmRequired
  | notFound
  | internal
  | versionMismatch
  | preconditionFailed
deriving DecidableEq, Repr

structure ErrorBody where
  code : ErrorCode
  message : String
  details : Option Json
deriving DecidableEq

structure Auth where
  ticket : String
  confirm : Bool
  requestId : Option String
  workspaceRoot : Option String
deriving DecidableEq

structure RequestEnvelope where
  protocolVersion : UInt32
  id : String
  op : Json
  workspaceRoot : Option String
  auth : Option Auth
  workflowConfirmation : Option Json
  agentId : Option String
deriving DecidableEq

structure ResponseEnvelope where
  protocolVersion : UInt32
  id : String
  status : Status
  result : Option Json
  error : Option ErrorBody
  effect : Option Effect
deriving DecidableEq

def PROTOCOL_VERSION : UInt32 := 1

/-! ## Names on the wire -/

def Status.name : Status → String
  | ok => "ok"
  | needsInput => "needs_input"
  | confirmRequired => "confirm_required"
  | error => "error"

def Status.fromName : String → Option Status
  | "ok" => some ok
  | "needs_input" => some needsInput
  | "confirm_required" => some confirmRequired
  | "error" => some error
  | _ => none

def effectName : Effect → String
  | .pure => "pure"
  | .write => "write"
  | .exec => "exec"

def effectFromName : String → Option Effect
  | "pure" => some .pure
  | "write" => some .write
  | "exec" => some .exec
  | _ => none

def recoveryClassName : RecoveryClass → String
  | .replayableRead => "replayable_read"
  | .atomicProjectState => "atomic_project_state"
  | .externalAtMostOnce => "external_at_most_once"

def recoveryClassFromName : String → Option RecoveryClass
  | "replayable_read" => some .replayableRead
  | "atomic_project_state" => some .atomicProjectState
  | "external_at_most_once" => some .externalAtMostOnce
  | _ => none

def ErrorCode.name : ErrorCode → String
  | unknownAddress => "unknown_address"
  | unknownListKind => "unknown_list_kind"
  | invalidInput => "invalid_input"
  | unknownCommand => "unknown_command"
  | missingArg => "missing_arg"
  | typeMismatch => "type_mismatch"
  | missingTicket => "missing_ticket"
  | ticketInvalid => "ticket_invalid"
  | confirmRequired => "confirm_required"
  | notFound => "not_found"
  | internal => "internal"
  | versionMismatch => "version_mismatch"
  | preconditionFailed => "precondition_failed"

def ErrorCode.fromName : String → Option ErrorCode
  | "unknown_address" => some unknownAddress
  | "unknown_list_kind" => some unknownListKind
  | "invalid_input" => some invalidInput
  | "unknown_command" => some unknownCommand
  | "missing_arg" => some missingArg
  | "type_mismatch" => some typeMismatch
  | "missing_ticket" => some missingTicket
  | "ticket_invalid" => some ticketInvalid
  | "confirm_required" => some confirmRequired
  | "not_found" => some notFound
  | "internal" => some internal
  | "version_mismatch" => some versionMismatch
  | "precondition_failed" => some preconditionFailed
  | _ => none

@[simp] theorem Status.fromName_name (s : Status) : fromName s.name = some s := by
  cases s <;> rfl

@[simp] theorem effectFromName_name (e : Effect) : effectFromName (effectName e) = some e := by
  cases e <;> rfl

@[simp] theorem ErrorCode.fromName_name (c : ErrorCode) : fromName c.name = some c := by
  cases c <;> rfl

/-! ## The persisted response -/

def ErrorBody.toJson (e : ErrorBody) : Json :=
  .object (Json.field "code" (some (.string e.code.name)) ++
    Json.field "message" (some (.string e.message)) ++ Json.field "details" e.details)

def ErrorBody.fromJson (v : Json) : Option ErrorBody := do
  let code ← ((v.get "code").bind Json.asStr).bind ErrorCode.fromName
  let message ← (v.get "message").bind Json.asStr
  return { code, message, details := Json.optional (v.get "details") }

namespace ResponseEnvelope

def toJson (r : ResponseEnvelope) : Json :=
  .object (Json.field "protocol_version" (some (.posInt r.protocolVersion.toNat)) ++
    Json.field "id" (some (.string r.id)) ++ Json.field "status" (some (.string r.status.name)) ++
    Json.field "result" r.result ++ Json.field "error" (r.error.map ErrorBody.toJson) ++
    Json.field "effect" (r.effect.map fun e => .string (effectName e)))

def fromJson (v : Json) : Option ResponseEnvelope := do
  let version ← (v.get "protocol_version").bind Json.asU64
  guard (version < UInt32.size)
  let id ← (v.get "id").bind Json.asStr
  let status ← ((v.get "status").bind Json.asStr).bind Status.fromName
  let error ← match Json.optional (v.get "error") with
    | none => some none
    | some e => (ErrorBody.fromJson e).map some
  let effect ← match Json.optional (v.get "effect") with
    | none => some none
    | some e => (e.asStr.bind effectFromName).map some
  return { protocolVersion := UInt32.ofNat version, id, status
           result := Json.optional (v.get "result"), error, effect }

/-- The response as its persisted JSON reads back: a field that holds `null` is absent. -/
def readBack (r : ResponseEnvelope) : ResponseEnvelope :=
  { r with
    result := Json.optional r.result
    error := r.error.map fun e => { e with details := Json.optional e.details } }

end ResponseEnvelope

@[simp] theorem ErrorBody.fromJson_toJson (e : ErrorBody) :
    fromJson e.toJson = some { e with details := Json.optional e.details } := by
  simp [fromJson, toJson, Json.lookup_field_append, Json.lookup_field]

@[simp] theorem ErrorBody.optional_toJson (e : ErrorBody) :
    Json.optional (some e.toJson) = some e.toJson := rfl

namespace ResponseEnvelope

theorem fromJson_toJson (r : ResponseEnvelope) : fromJson r.toJson = some r.readBack := by
  have hVersion : r.protocolVersion.toNat < UInt32.size := r.protocolVersion.toNat_lt
  cases hError : r.error <;> cases hEffect : r.effect <;>
    simp [fromJson, toJson, readBack, Json.lookup_field_append, Json.lookup_field, hVersion,
      hError, hEffect]

theorem readBack_readBack (r : ResponseEnvelope) : r.readBack.readBack = r.readBack := by
  cases hError : r.error <;> simp [readBack, hError]

end ResponseEnvelope

/-! ## Classification of a handler's response -/

def isBusyDetails (details : Json) : Bool :=
  (details.get "kind").bind Json.asStr = some "daemon.busy" &&
    (details.get "retry_with_same_request_id").bind Json.asBool = some true &&
    (details.get "request_outcome_checked").bind Json.asBool = some false &&
    (details.get "retryable").bind Json.asBool = some true

mutual

def retryableDaemonBusyDetails : Json → Option Json
  | .object fields =>
    if isBusyDetails (.object fields) then some (.object fields) else busyDetailsField fields
  | _ => none

/-- The retryable details inside the field `details`. -/
def busyDetailsField : List (String × Json) → Option Json
  | [] => none
  | (key, v) :: rest => if key = "details" then retryableDaemonBusyDetails v else busyDetailsField rest

end

mutual

def containsRecordedWorkflowConfirmation : Json → Bool
  | .object fields =>
    ((((Json.object fields).get "workflow_confirmation").bind Json.asObject).bind
      fun workflow => (workflow.lookup "evidence_recorded").bind Json.asBool) = some true ||
      fieldsContainRecordedConfirmation fields
  | .array items => itemsContainRecordedConfirmation items
  | _ => false

def fieldsContainRecordedConfirmation : List (String × Json) → Bool
  | [] => false
  | (_, v) :: rest => containsRecordedWorkflowConfirmation v || fieldsContainRecordedConfirmation rest

def itemsContainRecordedConfirmation : List Json → Bool
  | [] => false
  | v :: rest => containsRecordedWorkflowConfirmation v || itemsContainRecordedConfirmation rest

end

def hasRetryableDaemonBusyDetails (details : Json) : Bool :=
  (retryableDaemonBusyDetails details).isSome

def isRetryableDaemonBusyResponse (r : ResponseEnvelope) : Bool :=
  r.status = .error && r.error.any fun e =>
    e.code = .preconditionFailed && e.details.any hasRetryableDaemonBusyDetails

def isRejectedExecutionConfirmation (r : ResponseEnvelope) : Bool :=
  r.status = .error && r.error.any fun e => e.code = .confirmRequired

def isTransientExecutionConfirmation (r : ResponseEnvelope) : Bool :=
  r.status = .confirmRequired || isRejectedExecutionConfirmation r

def atomicResponseCommits (r : ResponseEnvelope) : Bool :=
  r.status = .ok || (r.status = .error && (r.error.any fun e => e.code = .preconditionFailed) &&
    r.error.any fun e => e.details.any containsRecordedWorkflowConfirmation)

/-- A response that asks the client to send the request again. -/
def asksForRetry (r : ResponseEnvelope) : Bool :=
  isRetryableDaemonBusyResponse r || isTransientExecutionConfirmation r

def withoutCommittedEffect (r : ResponseEnvelope) : ResponseEnvelope :=
  { r with effect := none }

def normalizeRetryableDaemonBusyResponse (r : ResponseEnvelope) : ResponseEnvelope :=
  withoutCommittedEffect
    { r with
      error := r.error.map fun e =>
        match e.details.bind retryableDaemonBusyDetails with
        | some details => { e with details := some details }
        | none => e }

/-! ## Reports of the outcome ledger -/

/-- An error of the store, with the writer compatibility failure found in its chain. -/
structure LedgerError where
  message : String
  writerCompatibility : Option ErrorBody

def responseError (id : String) (effect : Effect) (code : ErrorCode) (message : String)
    (details : Json) : ResponseEnvelope where
  protocolVersion := PROTOCOL_VERSION
  id := id
  status := .error
  result := none
  error := some ⟨code, message, some details⟩
  effect := some effect

def requestIdConflictResponse (id : String) (effect : Effect) : ResponseEnvelope :=
  responseError id effect .invalidInput
    ("daemon request id " ++ id ++ " was reused with a different request payload")
    (.object [("kind", .string "daemon.request_id_conflict"), ("request_id", .string id),
      ("mutation_performed", .bool false)])

def inFlightResponse (id : String) (effect : Effect) (ownerInstanceId : String)
    (previousInstance : Bool) : ResponseEnvelope :=
  let kind :=
    if previousInstance then "daemon.request_outcome_indeterminate"
    else "daemon.request_outcome_pending"
  let message :=
    if previousInstance then
      "The daemon was replaced while this request was in progress. Exo preserved the request identity and will not execute it twice, but no completed outcome was recorded."
    else
      "The original daemon request is still in progress. Exo preserved the request identity and did not execute it twice."
  responseError id effect .preconditionFailed message
    (.object [("kind", .string kind), ("request_id", .string id),
      ("effect", .string (effectName effect)), ("owner_instance_id", .string ownerInstanceId),
      ("previous_instance", .bool previousInstance), ("mutation_replayed", .bool false)])

def workbenchLaunchReplayUnavailableResponse (id : String) (effect : Effect) : ResponseEnvelope :=
  responseError id effect .preconditionFailed
    "The original workbench launch cannot be replayed safely. Use a new request ID to issue a fresh one-time enrollment link."
    (.object [("kind", .string "workbench.launch_replay_unavailable"), ("request_id", .string id),
      ("retry_with_new_request_id", .bool true), ("mutation_replayed", .bool false)])

def ledgerErrorResponse (id : String) (effect : Effect) (kind : String) (error : LedgerError)
    (mutationMayHaveCompleted : Bool) : ResponseEnvelope :=
  match error.writerCompatibility with
  | some failure =>
    responseError id effect failure.code failure.message (failure.details.getD (.object []))
  | none =>
    responseError id effect .internal
      ("daemon request outcome persistence failed: " ++ error.message)
      (.object [("kind", .string kind), ("request_id", .string id),
        ("effect", .string (effectName effect)),
        ("mutation_may_have_completed", .bool mutationMayHaveCompleted),
        ("mutation_replayed", .bool false)])

end Exosuit.Daemon
