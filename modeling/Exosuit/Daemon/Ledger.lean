import Mathlib.Logic.Function.Basic
import Exosuit.Daemon.Protocol

/-!
# The outcome ledger

One row for each request id, and the ledger transactions of the daemon. Each
transaction is one step; a failed one leaves the ledger as it was.
-/

namespace Exosuit.Daemon

open Lib (Json)

def COMPLETED_OUTCOME_RETENTION_SECS : Int := 7 * 24 * 60 * 60

def WORKBENCH_LAUNCH_COMPLETION_KIND : String := "workbench.launch.completed"

def WORKBENCH_LAUNCH_COMPLETION_SCHEMA_VERSION : Nat := 1

/-- A row of `daemon_request_outcomes`; the table is keyed by the request id. -/
structure LedgerRow (H : Type*) where
  requestHash : H
  effect : String
  instanceId : String
  recoveryClass : Option String
  responseJson : Option Json
  startedAt : Int
  completedAt : Option Int

abbrev Ledger (H : Type*) := String → Option (LedgerRow H)

structure RequestHashes (H : Type*) where
  current : H
  legacy : H

variable {H : Type*}

/-- `fingerprint` is the digest of the serialised request. -/
def requestHashes (fingerprint : RequestEnvelope → H) (q : RequestEnvelope) : RequestHashes H where
  current := fingerprint { q with auth := none }
  legacy := fingerprint q

def RequestHashes.Matches (h : RequestHashes H) (stored : H) : Prop :=
  stored = h.current ∨ stored = h.legacy

instance [DecidableEq H] (h : RequestHashes H) (stored : H) : Decidable (h.Matches stored) :=
  inferInstanceAs (Decidable (_ ∨ _))

inductive PersistedCompletion
  | response (r : ResponseEnvelope)
  | workbenchLaunchMarker

def workbenchLaunchCompletionMarkerJson : Json :=
  .object [("kind", .string WORKBENCH_LAUNCH_COMPLETION_KIND),
    ("schema_version", .posInt WORKBENCH_LAUNCH_COMPLETION_SCHEMA_VERSION)]

def isWorkbenchLaunchMarker (v : Json) : Bool :=
  (v.get "kind").bind Json.asStr = some WORKBENCH_LAUNCH_COMPLETION_KIND &&
    (v.get "schema_version").bind Json.asU64 = some WORKBENCH_LAUNCH_COMPLETION_SCHEMA_VERSION

/-- A full launch response, as old versions recorded it. -/
def rawResponseIsWorkbenchLaunch (v : Json) : Bool :=
  ((v.get "result").bind fun result => (result.get "kind").bind Json.asStr) = some "workbench.launch"

def persistedCompletionFromJson (v : Json) : Except LedgerError PersistedCompletion :=
  if isWorkbenchLaunchMarker v then .ok .workbenchLaunchMarker
  else
    match ResponseEnvelope.fromJson v with
    | some r => .ok (.response r)
    | none => .error ⟨"deserialize recorded daemon response", none⟩

theorem isWorkbenchLaunchMarker_toJson (r : ResponseEnvelope) :
    isWorkbenchLaunchMarker r.toJson = false := by
  simp [isWorkbenchLaunchMarker, ResponseEnvelope.toJson, Json.lookup_field_append, Json.lookup_field]

theorem persistedCompletionFromJson_toJson (r : ResponseEnvelope) :
    persistedCompletionFromJson r.toJson = .ok (.response r.readBack) := by
  simp [persistedCompletionFromJson, isWorkbenchLaunchMarker_toJson, ResponseEnvelope.fromJson_toJson]

inductive Reservation
  | execute
  | replay (completion : PersistedCompletion)
  | inFlight (instanceId : String) (recoveryClass : Option RecoveryClass)
  | conflict

inductive WaitForResponse
  | completed (completion : PersistedCompletion)
  | timedOut
  | reservationReleased

namespace Ledger

section Transactions

variable [DecidableEq H]

/-- The row after a matching legacy digest is replaced by the current one. -/
def upgradeHash (row : LedgerRow H) (hashes : RequestHashes H) : LedgerRow H :=
  if hashes.Matches row.requestHash then { row with requestHash := hashes.current } else row

/-- One immediate transaction; a recorded completion that does not parse aborts it. -/
def reserveCompatible (ledger : Ledger H) (id : String) (hashes : RequestHashes H)
    (effect : Effect) (recoveryClass : RecoveryClass) (instanceId : String) (now : Int) :
    Except LedgerError (Reservation × Ledger H) :=
  match ledger id with
  | some row =>
    let upgraded := Function.update ledger id (some (upgradeHash row hashes))
    if hashes.Matches row.requestHash then
      match row.responseJson with
      | some json =>
        match persistedCompletionFromJson json with
        | .ok completion => .ok (.replay completion, upgraded)
        | .error e => .error e
      | none =>
        .ok (.inFlight row.instanceId (row.recoveryClass.bind recoveryClassFromName), upgraded)
    else .ok (.conflict, ledger)
  | none =>
    .ok (.execute, Function.update ledger id (some
      { requestHash := hashes.current, effect := effectName effect, instanceId
        recoveryClass := some (recoveryClassName recoveryClass), responseJson := none
        startedAt := now, completedAt := none }))

/-- `UPDATE … WHERE request_id AND request_hash AND response_json IS NULL`. -/
def recordCompletion (ledger : Ledger H) (id : String) (hash : H) (json : Json) (now : Int)
    (lost : String) : Except LedgerError (Ledger H) :=
  match ledger id with
  | some row =>
    if row.requestHash = hash ∧ row.responseJson.isNone then
      .ok (Function.update ledger id
        (some { row with responseJson := some json, completedAt := some now }))
    else .error ⟨lost, none⟩
  | none => .error ⟨lost, none⟩

def complete (ledger : Ledger H) (id : String) (hash : H) (response : ResponseEnvelope)
    (now : Int) : Except LedgerError (Ledger H) :=
  recordCompletion ledger id hash response.toJson now
    "daemon outcome reservation disappeared before completion"

def completeWorkbenchLaunchMarker (ledger : Ledger H) (id : String) (hash : H) (now : Int) :
    Except LedgerError (Ledger H) :=
  recordCompletion ledger id hash workbenchLaunchCompletionMarkerJson now
    "daemon outcome reservation disappeared before workbench launch completion"

/-- `DELETE … WHERE request_id AND request_hash AND instance_id AND response_json IS NULL`. -/
def abandon (ledger : Ledger H) (id : String) (hash : H) (instanceId : String) :
    Except LedgerError (Ledger H) :=
  match ledger id with
  | some row =>
    if row.requestHash = hash ∧ row.instanceId = instanceId ∧ row.responseJson.isNone then
      .ok (Function.update ledger id none)
    else .error ⟨"daemon outcome reservation disappeared before abandonment", none⟩
  | none => .error ⟨"daemon outcome reservation disappeared before abandonment", none⟩

/-- One poll of `wait_for_response`; `none` keeps waiting. -/
def waitForResponse (ledger : Ledger H) (id : String) (hash : H) (pastDeadline : Bool) :
    Except LedgerError (Option WaitForResponse) :=
  match ledger id with
  | some row =>
    if row.requestHash ≠ hash then .error ⟨"request id was reused with a different payload", none⟩
    else
      match row.responseJson with
      | some json =>
        match persistedCompletionFromJson json with
        | .ok completion => .ok (some (.completed completion))
        | .error e => .error e
      | none => .ok (if pastDeadline then some .timedOut else none)
  | none => .ok (some .reservationReleased)

end Transactions

/-- Completed before the retention window; a launch marker never expires. -/
def expired (row : LedgerRow H) (now : Int) : Bool :=
  (row.completedAt.any fun completedAt => completedAt < now - COMPLETED_OUTCOME_RETENTION_SECS) &&
    row.responseJson.any fun json => json ≠ workbenchLaunchCompletionMarkerJson

def pruneCompleted (ledger : Ledger H) (now : Int) : Ledger H :=
  fun id => (ledger id).filter fun row => !expired row now

def sanitizedRow (row : LedgerRow H) : LedgerRow H :=
  if row.responseJson.any rawResponseIsWorkbenchLaunch then
    { row with responseJson := some workbenchLaunchCompletionMarkerJson }
  else row

def sanitizeLegacyWorkbenchLaunchResponses (ledger : Ledger H) : Ledger H :=
  fun id => (ledger id).map sanitizedRow

def opened (ledger : Ledger H) (now : Int) : Ledger H :=
  ledger.sanitizeLegacyWorkbenchLaunchResponses.pruneCompleted now

theorem expired_sanitizedRow {row : LedgerRow H} {now : Int} (h : expired row now = false) :
    expired (sanitizedRow row) now = false := by
  unfold sanitizedRow
  split
  · simp [expired]
  · exact h

@[simp] theorem sanitizedRow_requestHash (row : LedgerRow H) :
    (sanitizedRow row).requestHash = row.requestHash := by
  unfold sanitizedRow
  split <;> rfl

theorem sanitizedRow_of_open {row : LedgerRow H} (h : row.responseJson = none) :
    sanitizedRow row = row := by
  simp [sanitizedRow, h]

theorem expired_of_open {row : LedgerRow H} (h : row.responseJson = none) (now : Int) :
    expired row now = false := by
  simp [expired, h]

variable {ledger ledger' : Ledger H} {id : String} {hash : H}

theorem pruneCompleted_of_kept {row : LedgerRow H} {now : Int} (hRow : ledger id = some row)
    (h : expired row now = false) : ledger.pruneCompleted now id = some row := by
  simp [pruneCompleted, hRow, h]

theorem opened_of_kept {row : LedgerRow H} {now : Int} (hRow : ledger id = some row)
    (h : expired row now = false) : ledger.opened now id = some (sanitizedRow row) := by
  have hSanitized : ledger.sanitizeLegacyWorkbenchLaunchResponses id = some (sanitizedRow row) := by
    simp [sanitizeLegacyWorkbenchLaunchResponses, hRow]
  exact pruneCompleted_of_kept hSanitized (expired_sanitizedRow h)

theorem pruneCompleted_of_none {now : Int} (hRow : ledger id = none) :
    ledger.pruneCompleted now id = none := by
  simp [pruneCompleted, hRow]

theorem opened_of_none {now : Int} (hRow : ledger id = none) : ledger.opened now id = none := by
  simp [opened, pruneCompleted, sanitizeLegacyWorkbenchLaunchResponses, hRow]

variable [DecidableEq H]

theorem upgradeHash_of_not_matches {row : LedgerRow H} {hashes : RequestHashes H}
    (h : ¬ hashes.Matches row.requestHash) : upgradeHash row hashes = row := if_neg h

@[simp] theorem upgradeHash_responseJson (row : LedgerRow H) (hashes : RequestHashes H) :
    (upgradeHash row hashes).responseJson = row.responseJson := by
  unfold upgradeHash
  split <;> rfl

theorem upgradeHash_of_current {row : LedgerRow H} {hashes : RequestHashes H}
    (h : hashes.Matches row.requestHash → row.requestHash = hashes.current) :
    upgradeHash row hashes = row := by
  unfold upgradeHash
  split
  · rename_i hMatches
    rw [← h hMatches]
  · rfl

theorem reserveCompatible_of_none (hashes : RequestHashes H) (effect : Effect)
    (recoveryClass : RecoveryClass) (instanceId : String) (now : Int) (h : ledger id = none) :
    ledger.reserveCompatible id hashes effect recoveryClass instanceId now =
      .ok (.execute, Function.update ledger id (some
        { requestHash := hashes.current, effect := effectName effect, instanceId
          recoveryClass := some (recoveryClassName recoveryClass), responseJson := none
          startedAt := now, completedAt := none })) := by
  simp [reserveCompatible, h]

theorem reserveCompatible_of_some {row : LedgerRow H} {hashes : RequestHashes H} {effect : Effect}
    {recoveryClass : RecoveryClass} {instanceId : String} {now : Int} {res : Reservation}
    (hRow : ledger id = some row)
    (h : ledger.reserveCompatible id hashes effect recoveryClass instanceId now = .ok (res, ledger')) :
    ledger' = Function.update ledger id (some (upgradeHash row hashes)) ∧ res ≠ .execute := by
  simp only [reserveCompatible, hRow] at h
  split at h
  · split at h
    · split at h
      · cases h
        exact ⟨rfl, nofun⟩
      · cases h
    · cases h
      exact ⟨rfl, nofun⟩
  · rename_i hConflict
    cases h
    rw [upgradeHash_of_not_matches hConflict, ← hRow, Function.update_eq_self]
    exact ⟨rfl, nofun⟩

theorem upgradeHash_of_matches {row : LedgerRow H} {hashes : RequestHashes H}
    (h : hashes.Matches row.requestHash) :
    upgradeHash row hashes = { row with requestHash := hashes.current } := if_pos h

theorem reserveCompatible_of_open {row : LedgerRow H} {hashes : RequestHashes H} (effect : Effect)
    (recoveryClass : RecoveryClass) (instanceId : String) (now : Int) (hRow : ledger id = some row)
    (hOpen : row.responseJson = none) (h : hashes.Matches row.requestHash) :
    ledger.reserveCompatible id hashes effect recoveryClass instanceId now =
      .ok (.inFlight row.instanceId (row.recoveryClass.bind recoveryClassFromName),
        Function.update ledger id (some (upgradeHash row hashes))) := by
  simp [reserveCompatible, hRow, hOpen, h]

theorem reserveCompatible_of_conflict {row : LedgerRow H} {hashes : RequestHashes H}
    (effect : Effect) (recoveryClass : RecoveryClass) (instanceId : String) (now : Int)
    (hRow : ledger id = some row) (h : ¬ hashes.Matches row.requestHash) :
    ledger.reserveCompatible id hashes effect recoveryClass instanceId now =
      .ok (.conflict, ledger) := by
  simp [reserveCompatible, hRow, h]

theorem reserveCompatible_of_response {row : LedgerRow H} {hashes : RequestHashes H}
    (effect : Effect) (recoveryClass : RecoveryClass) (instanceId : String) (now : Int)
    {r : ResponseEnvelope} (hRow : ledger id = some row) (hJson : row.responseJson = some r.toJson)
    (h : hashes.Matches row.requestHash) :
    ledger.reserveCompatible id hashes effect recoveryClass instanceId now =
      .ok (.replay (.response r.readBack),
        Function.update ledger id (some (upgradeHash row hashes))) := by
  simp [reserveCompatible, hRow, hJson, h, persistedCompletionFromJson_toJson]

theorem recordCompletion_eq_ok {json : Json} {now : Int} {lost : String}
    (h : ledger.recordCompletion id hash json now lost = .ok ledger') :
    ∃ row, ledger id = some row ∧ row.requestHash = hash ∧ row.responseJson = none ∧
      ledger' = Function.update ledger id
        (some { row with responseJson := some json, completedAt := some now }) := by
  unfold recordCompletion at h
  split at h
  · rename_i row hRow
    split at h
    · rename_i hOpen
      cases h
      exact ⟨row, hRow, hOpen.1, Option.isNone_iff_eq_none.mp hOpen.2, rfl⟩
    · cases h
  · cases h

theorem recordCompletion_of_open {row : LedgerRow H} (json : Json) (now : Int) (lost : String)
    (hRow : ledger id = some row) (hHash : row.requestHash = hash) (hOpen : row.responseJson = none) :
    ledger.recordCompletion id hash json now lost = .ok (Function.update ledger id
      (some { row with responseJson := some json, completedAt := some now })) := by
  simp [recordCompletion, hRow, hHash, hOpen]

theorem abandon_eq_ok {instanceId : String} (h : ledger.abandon id hash instanceId = .ok ledger') :
    ledger' = Function.update ledger id none ∧ ∃ row, ledger id = some row ∧
      row.requestHash = hash ∧ row.instanceId = instanceId ∧ row.responseJson = none := by
  unfold abandon at h
  split at h
  · rename_i row hRow
    split at h
    · rename_i hOpen
      cases h
      exact ⟨rfl, row, hRow, hOpen.1, hOpen.2.1, Option.isNone_iff_eq_none.mp hOpen.2.2⟩
    · cases h
  · cases h

end Ledger

/-- A row of `atomic_request_outcomes` in the project database. -/
structure CanonicalRow (H : Type*) where
  requestHash : H
  effect : String
  responseJson : Json
  committedAt : Int

structure Call where
  request : RequestEnvelope
  effect : Effect
  instanceId : String

structure OutcomeExecution where
  response : ResponseEnvelope
  replayed : Bool

/-- One run of a request's handler. -/
structure Execution (ι : Type*) where
  thread : ι
  call : Call
  response : Option ResponseEnvelope
  abandoned : Bool

/-- What the threads of all daemon instances share; `launches` is kept for each
instance. The fields after it are history: no step reads them. -/
structure World (ι H : Type*) where
  ledger : Ledger H
  canonical : String → Option (CanonicalRow H)
  projectWriter : Option ι
  launches : String × String → Option ResponseEnvelope
  executions : String → List (Execution ι)
  terminal : List (String × ResponseEnvelope)
  committed : String → List (ι × Call × ResponseEnvelope)
  prunings : String → Nat

/-- No request has been seen. -/
def World.empty {ι : Type*} : World ι H :=
  ⟨fun _ => none, fun _ => none, none, fun _ => none, fun _ => [], [], fun _ => [], fun _ => 0⟩

end Exosuit.Daemon
