import Exosuit.Daemon.External

/-!
# Atomic project-state requests

The control points of `execute_atomic_project_state_after_compatibility_preflight`
and of the core transaction inside it. The transaction holds the write lock of the
project database from its begin to its commit or rollback.
-/

namespace Exosuit.Daemon

open Lib (Json)

/-- What the core transaction answers. -/
structure AtomicCoreExecution where
  response : ResponseEnvelope
  committed : Bool
  replayed : Bool
  requestIdConflict : Bool

/-- `owns` is the ownership of the runtime reservation; `fresh` records that this
call's own transaction has committed. -/
inductive AtomicPhase
  | idle
  | reserving (c : Call)
  | waiting (c : Call) (owner : String)
  | preflight (c : Call) (owner : String)
  | lookup (c : Call) (owner : String)
  | beginning (c : Call) (owns : Bool)
  | reading (c : Call) (owns : Bool)
  | handling (c : Call) (owns : Bool) (run : Nat)
  | rollingBack (c : Call) (owns : Bool) (core : AtomicCoreExecution)
  | committing (c : Call) (owns : Bool) (response : ResponseEnvelope)
  | finalizing (c : Call) (owns : Bool) (response : ResponseEnvelope) (replayed : Bool)
  | completing (c : Call) (owns : Bool) (o : OutcomeExecution) (fresh : Bool)
  | pruning (c : Call) (o : OutcomeExecution) (fresh : Bool)
  | releasing (c : Call) (o : OutcomeExecution) (fresh : Bool)
  | canonicalPruning (c : Call) (o : OutcomeExecution) (fresh : Bool)
  | abandoning (c : Call) (o : OutcomeExecution) (fresh : Bool)
  | returned (c : Call) (o : OutcomeExecution) (fresh : Bool)

inductive AtomicAction
  | call (c : Call)
  | fingerprintFails (c : Call) (e : LedgerError)
  | reserve (now : Int)
  | reserveFails (e : LedgerError)
  | poll (pastDeadline : Bool)
  | pollFails (e : LedgerError)
  | preflight
  | preflightFails (e : LedgerError)
  | lookup
  | lookupFails (e : LedgerError)
  | begin
  | beginFails (e : LedgerError)
  | read
  | readFails (e : LedgerError)
  | respond (r : ResponseEnvelope)
  | rollback
  | rollbackFails (e : LedgerError)
  | commit (now : Int)
  | commitFails (e : LedgerError)
  | finalize (report : Except ResponseEnvelope (Option Json))
  | complete (now : Int)
  | completeFails (e : LedgerError)
  | prune (now : Int)
  | pruneFails
  | abandon
  | abandonFails (e : LedgerError)
  | pruneCanonical (now : Int)
  | pruneCanonicalFails
  | crash
  | openLedger (now : Int)

/-- The thread begins another call, or fails to. -/
def AtomicAction.NewCall : AtomicAction → Prop
  | .call _ | .fingerprintFails _ _ => True
  | _ => False

namespace Atomic

variable {ι H : Type*}

/-- A failure before any effect is committed. -/
def fail (c : Call) (kind : String) (e : LedgerError) : OutcomeExecution :=
  ⟨withoutCommittedEffect (ledgerErrorResponse c.request.id c.effect kind e false), false⟩

def lookupFailed (c : Call) (e : LedgerError) : AtomicPhase :=
  .returned c (fail c "daemon.request_outcome_lookup_failed" e) false

/-- Returns `o`, after giving back a reservation that the call owns. -/
def giveUp (c : Call) (owns : Bool) (o : OutcomeExecution) (fresh : Bool) : AtomicPhase :=
  if owns then .abandoning c o fresh else .returned c o fresh

def coreFailed (c : Call) (owns : Bool) (e : LedgerError) : AtomicPhase :=
  giveUp c owns (fail c "daemon.atomic_request_commit_failed" e) false

def afterCore (c : Call) (owns : Bool) (core : AtomicCoreExecution) : AtomicPhase :=
  if core.requestIdConflict then giveUp c owns ⟨core.response, false⟩ false
  else if core.committed then .finalizing c owns core.response core.replayed
  else .completing c owns ⟨core.response, core.replayed⟩ false

/-- `report` is the outcome of the persistence work, or the response built from its error. -/
def finalizeAtomicResponseAfterCommit (effect : Effect) (response : ResponseEnvelope)
    (report : Except ResponseEnvelope (Option Json)) : Except ResponseEnvelope ResponseEnvelope :=
  match report with
  | .error e => .error { e with effect := some effect }
  | .ok (some v) =>
    match response.result with
    | some (.object fields) =>
      .ok { response with result := some (.object (Json.insert fields "post_write" v)) }
    | _ => .ok response
  | .ok none => .ok response

/-- Rows that the pruning deletes: past the window and without a reservation in flight. -/
def prunable (ledger : Ledger H) (now : Int) (id : String) (row : CanonicalRow H) : Bool :=
  row.committedAt < now - COMPLETED_OUTCOME_RETENTION_SECS &&
    !(ledger id).any fun reserved => reserved.responseJson.isNone

def pruneCanonicalOutcomes (w : World ι H) (now : Int) : World ι H :=
  { w with
    canonical := fun id => (w.canonical id).filter fun row => !prunable w.ledger now id row
    prunings := fun id =>
      w.prunings id + if (w.canonical id).any (prunable w.ledger now id) then 1 else 0 }

def unlock (w : World ι H) : World ι H := { w with projectWriter := none }

variable [DecidableEq H] (fingerprint : RequestEnvelope → H)

def reserve (c : Call) (now : Int) (w : World ι H) : AtomicPhase × World ι H :=
  match w.ledger.reserveCompatible c.request.id (requestHashes fingerprint c.request) c.effect
      .atomicProjectState c.instanceId now with
  | .error _ => (.beginning c false, w)
  | .ok (.replay completion, ledger) =>
    (.returned c ⟨External.genericReplayResponse c.request.id c.effect completion, true⟩ false,
      { w with ledger })
  | .ok (.conflict, ledger) =>
    (.returned c
      ⟨withoutCommittedEffect (requestIdConflictResponse c.request.id c.effect), false⟩ false,
      { w with ledger })
  | .ok (.inFlight owner recoveryClass, ledger) =>
    if owner = c.instanceId then (.waiting c owner, { w with ledger })
    else if recoveryClass = some .atomicProjectState then (.beginning c false, { w with ledger })
    else
      (.returned c ⟨inFlightResponse c.request.id c.effect owner true, false⟩ false,
        { w with ledger })
  | .ok (.execute, ledger) => (.beginning c true, { w with ledger })

def poll (c : Call) (owner : String) (pastDeadline : Bool) (w : World ι H) : AtomicPhase :=
  match w.ledger.waitForResponse c.request.id (requestHashes fingerprint c.request).current
      pastDeadline with
  | .error e => lookupFailed c e
  | .ok none => .waiting c owner
  | .ok (some (.completed completion)) =>
    .returned c ⟨External.genericReplayResponse c.request.id c.effect completion, true⟩ false
  | .ok (some .timedOut) => .preflight c owner
  | .ok (some .reservationReleased) =>
    lookupFailed c ⟨"daemon outcome reservation disappeared", none⟩

/-- `canonical_atomic_outcome_exists` after a wait that timed out. -/
def lookup (c : Call) (owner : String) (w : World ι H) : AtomicPhase :=
  if (w.canonical c.request.id).isSome then .beginning c false
  else .returned c ⟨inFlightResponse c.request.id c.effect owner false, false⟩ false

/-- Reads the canonical row inside the transaction; without one the handler runs. -/
def read (i : ι) (c : Call) (owns : Bool) (w : World ι H) : AtomicPhase × World ι H :=
  match w.canonical c.request.id with
  | some row =>
    if row.requestHash ≠ (requestHashes fingerprint c.request).current then
      (.rollingBack c owns
        ⟨withoutCommittedEffect (requestIdConflictResponse c.request.id c.effect), false, false,
          true⟩, w)
    else
      match ResponseEnvelope.fromJson row.responseJson with
      | some r => (.rollingBack c owns ⟨r, true, true, false⟩, w)
      | none =>
        (coreFailed c owns ⟨"deserialize canonical atomic request outcome", none⟩, unlock w)
  | none =>
    (.handling c owns (w.executions c.request.id).length,
      { w with
        executions := Function.update w.executions c.request.id
          (w.executions c.request.id ++ [⟨i, c, none, false⟩]) })

def respond (c : Call) (owns : Bool) (r : ResponseEnvelope) : AtomicPhase :=
  if atomicResponseCommits r then .committing c owns { r with effect := r.effect.or (some c.effect) }
  else .rollingBack c owns ⟨{ r with effect := none }, false, false, false⟩

/-- Inserts the row and commits it with the project state. -/
def commit (i : ι) (c : Call) (owns : Bool) (r : ResponseEnvelope) (now : Int) (w : World ι H) :
    AtomicPhase × World ι H :=
  match w.canonical c.request.id with
  | some _ => (coreFailed c owns ⟨"UNIQUE constraint failed: atomic_request_outcomes.request_id",
      none⟩, unlock w)
  | none =>
    (afterCore c owns ⟨r, true, false, false⟩,
      { w with
        projectWriter := none
        canonical := Function.update w.canonical c.request.id (some
          { requestHash := (requestHashes fingerprint c.request).current
            effect := effectName c.effect, responseJson := r.toJson, committedAt := now })
        terminal := w.terminal ++ [(c.request.id, r)]
        committed := Function.update w.committed c.request.id
          (w.committed c.request.id ++ [(i, c, r)]) })

def finalize (c : Call) (owns : Bool) (r : ResponseEnvelope) (replayed : Bool)
    (report : Except ResponseEnvelope (Option Json)) : AtomicPhase :=
  match finalizeAtomicResponseAfterCommit c.effect r report with
  | .ok r => .completing c owns ⟨r, replayed⟩ !replayed
  | .error r => giveUp c owns ⟨r, replayed⟩ !replayed

def completeFailed (c : Call) (owns : Bool) (o : OutcomeExecution) (fresh : Bool) : AtomicPhase :=
  if owns then .releasing c o fresh else .canonicalPruning c o fresh

def complete (c : Call) (owns : Bool) (o : OutcomeExecution) (fresh : Bool) (now : Int)
    (w : World ι H) : AtomicPhase × World ι H :=
  match w.ledger.complete c.request.id (requestHashes fingerprint c.request).current o.response
      now with
  | .error _ => (completeFailed c owns o fresh, w)
  | .ok ledger =>
    (.pruning c o fresh, { w with ledger, terminal := w.terminal ++ [(c.request.id, o.response)] })

/-- The result of the abandonment is ignored. -/
def abandon (c : Call) (w : World ι H) : World ι H :=
  match w.ledger.abandon c.request.id (requestHashes fingerprint c.request).current c.instanceId with
  | .error _ => w
  | .ok ledger => { w with ledger }

variable [DecidableEq ι]

/-- A thread that dies inside its transaction rolls it back. -/
def crash (i : ι) (w : World ι H) : World ι H :=
  if w.projectWriter = some i then unlock w else w

def step (i : ι) : AtomicAction → AtomicPhase → World ι H → Option (AtomicPhase × World ι H)
  | .call c, .idle, w | .call c, .returned _ _ _, w => some (.reserving c, w)
  | .fingerprintFails c e, .idle, w | .fingerprintFails c e, .returned _ _ _, w =>
    some (.returned c (fail c "daemon.request_outcome_fingerprint_failed" e) false, w)
  | .reserve now, .reserving c, w => some (reserve fingerprint c now w)
  | .reserveFails _, .reserving c, w => some (.beginning c false, w)
  | .poll pastDeadline, .waiting c owner, w => some (poll fingerprint c owner pastDeadline w, w)
  | .pollFails e, .waiting c _, w => some (lookupFailed c e, w)
  | .preflight, .preflight c owner, w => some (.lookup c owner, w)
  | .preflightFails e, .preflight c _, w => some (lookupFailed c e, w)
  | .lookup, .lookup c owner, w => some (lookup c owner w, w)
  | .lookupFails e, .lookup c _, w => some (lookupFailed c e, w)
  | .begin, .beginning c owns, w =>
    if w.projectWriter = none then some (.reading c owns, { w with projectWriter := some i })
    else none
  | .beginFails e, .beginning c owns, w => some (coreFailed c owns e, w)
  | .read, .reading c owns, w => some (read fingerprint i c owns w)
  | .readFails e, .reading c owns, w => some (coreFailed c owns e, unlock w)
  | .respond r, .handling c owns run, w =>
    some (respond c owns r,
      { w with
        executions := Function.update w.executions c.request.id
          (External.setResponse (w.executions c.request.id) run r) })
  | .rollback, .rollingBack c owns core, w => some (afterCore c owns core, unlock w)
  | .rollbackFails e, .rollingBack c owns _, w => some (coreFailed c owns e, unlock w)
  | .commit now, .committing c owns r, w => some (commit fingerprint i c owns r now w)
  | .commitFails e, .committing c owns _, w => some (coreFailed c owns e, unlock w)
  | .finalize report, .finalizing c owns r replayed, w => some (finalize c owns r replayed report, w)
  | .complete now, .completing c owns o fresh, w => some (complete fingerprint c owns o fresh now w)
  | .completeFails _, .completing c owns o fresh, w => some (completeFailed c owns o fresh, w)
  | .prune now, .pruning c o fresh, w =>
    some (.canonicalPruning c o fresh, { w with ledger := w.ledger.pruneCompleted now })
  | .pruneFails, .pruning c o fresh, w => some (.canonicalPruning c o fresh, w)
  | .abandon, .releasing c o fresh, w => some (.canonicalPruning c o fresh, abandon fingerprint c w)
  | .abandonFails _, .releasing c o fresh, w => some (.canonicalPruning c o fresh, w)
  | .abandon, .abandoning c o fresh, w => some (.returned c o fresh, abandon fingerprint c w)
  | .abandonFails _, .abandoning c o fresh, w => some (.returned c o fresh, w)
  | .pruneCanonical now, .canonicalPruning c o fresh, w =>
    if w.projectWriter = none then some (.returned c o fresh, pruneCanonicalOutcomes w now) else none
  | .pruneCanonicalFails, .canonicalPruning c o fresh, w => some (.returned c o fresh, w)
  | .crash, _, w => some (.idle, crash i w)
  | .openLedger now, .idle, w => some (.idle, { w with ledger := w.ledger.opened now })
  | _, _, _ => none

end Atomic

end Exosuit.Daemon
