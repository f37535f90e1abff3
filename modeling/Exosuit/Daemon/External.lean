import Exosuit.Daemon.Ledger

/-!
# External requests

The control points of `execute` and of `execute_workbench_launch`, which share
everything but how a completion is recorded and replayed.
-/

namespace Exosuit.Daemon

open Lib (Json)

inductive ExternalPath
  | execute
  | workbenchLaunch
deriving DecidableEq, Repr

inductive ExternalPhase
  | idle
  | reserving (c : Call)
  | waiting (c : Call) (owner : String)
  | replaying (c : Call) (completion : PersistedCompletion)
  | executing (c : Call) (run : Nat)
  | abandoning (c : Call) (run : Nat) (reply : ResponseEnvelope)
  | retaining (c : Call) (run : Nat) (response : ResponseEnvelope)
  | completing (c : Call) (run : Nat) (response : ResponseEnvelope) (retained : Option LedgerError)
  | pruning (c : Call) (o : OutcomeExecution)
  | returned (c : Call) (o : OutcomeExecution)

def ExternalPhase.call? : ExternalPhase → Option Call
  | .idle => none
  | .reserving c | .waiting c _ | .replaying c _ | .executing c _ | .abandoning c _ _
  | .retaining c _ _ | .completing c _ _ _ | .pruning c _ | .returned c _ => some c

inductive ExternalAction
  | call (c : Call)
  | fingerprintFails (c : Call) (e : LedgerError)
  | reserve (now : Int)
  | reserveFails (e : LedgerError)
  | poll (pastDeadline : Bool)
  | pollFails (e : LedgerError)
  | replay (current : Bool)
  | respond (r : ResponseEnvelope)
  | abandon
  | abandonFails (e : LedgerError)
  | retain
  | retainFails (e : LedgerError)
  | complete (now : Int)
  | completeFails (e : LedgerError)
  | prune (now : Int)
  | pruneFails
  | crash
  | openLedger (now : Int)

/-- An access to the ledger that fails before the closure can run. -/
def ExternalAction.LedgerFails : ExternalAction → Prop
  | .fingerprintFails _ _ | .reserveFails _ | .pollFails _ => True
  | _ => False

/-- The thread comes in with a call. -/
def ExternalAction.Begins : ExternalAction → Prop
  | .call _ | .fingerprintFails _ _ => True
  | _ => False

namespace External

variable {ι H : Type*}

def fail (c : Call) (kind : String) (e : LedgerError) (mayHaveCompleted : Bool) : OutcomeExecution :=
  ⟨ledgerErrorResponse c.request.id c.effect kind e mayHaveCompleted, false⟩

def genericReplayResponse (id : String) (effect : Effect) : PersistedCompletion → ResponseEnvelope
  | .response r => r
  | .workbenchLaunchMarker => workbenchLaunchReplayUnavailableResponse id effect

/-- `retained` is the answer of the replay callback. -/
def replayWorkbenchLaunchCompletion (id : String) (effect : Effect)
    (retained : Option ResponseEnvelope) : PersistedCompletion → ResponseEnvelope
  | .response _ => workbenchLaunchReplayUnavailableResponse id effect
  | .workbenchLaunchMarker =>
    match retained with
    | some r => { r with id := id }
    | none => workbenchLaunchReplayUnavailableResponse id effect

/-- Where a recorded completion leads. -/
def replayPhase (path : ExternalPath) (c : Call) (completion : PersistedCompletion) : ExternalPhase :=
  match path with
  | .execute => .returned c ⟨genericReplayResponse c.request.id c.effect completion, true⟩
  | .workbenchLaunch => .replaying c completion

def foreignReservation (path : ExternalPath) (c : Call) (owner : String) : ResponseEnvelope :=
  match path with
  | .execute => inFlightResponse c.request.id c.effect owner true
  | .workbenchLaunch => workbenchLaunchReplayUnavailableResponse c.request.id c.effect

/-- Where the handler's response leads: a refusal gives the reservation back. -/
def classify (path : ExternalPath) (c : Call) (run : Nat) (r : ResponseEnvelope) : ExternalPhase :=
  if isRetryableDaemonBusyResponse r then
    .abandoning c run (normalizeRetryableDaemonBusyResponse r)
  else if r.status = .confirmRequired || isRejectedExecutionConfirmation r then .abandoning c run r
  else
    match path with
    | .execute => .completing c run r none
    | .workbenchLaunch => .retaining c run r

def setResponse (executions : List (Execution ι)) (run : Nat) (r : ResponseEnvelope) :
    List (Execution ι) :=
  executions.modify run fun x => { x with response := some r }

def setAbandoned (executions : List (Execution ι)) (run : Nat) : List (Execution ι) :=
  executions.modify run fun x => { x with abandoned := true }

variable [DecidableEq H] (path : ExternalPath) (fingerprint : RequestEnvelope → H)

def reserve (i : ι) (c : Call) (now : Int) (w : World ι H) : ExternalPhase × World ι H :=
  match w.ledger.reserveCompatible c.request.id (requestHashes fingerprint c.request) c.effect
      .externalAtMostOnce c.instanceId now with
  | .error e => (.returned c (fail c "daemon.request_outcome_reservation_failed" e false), w)
  | .ok (.replay completion, ledger) => (replayPhase path c completion, { w with ledger })
  | .ok (.conflict, ledger) =>
    (.returned c ⟨requestIdConflictResponse c.request.id c.effect, false⟩, { w with ledger })
  | .ok (.inFlight owner _, ledger) =>
    if owner = c.instanceId then (.waiting c owner, { w with ledger })
    else (.returned c ⟨foreignReservation path c owner, false⟩, { w with ledger })
  | .ok (.execute, ledger) =>
    (.executing c (w.executions c.request.id).length,
      { w with
        ledger
        executions := Function.update w.executions c.request.id
          (w.executions c.request.id ++ [⟨i, c, none, false⟩]) })

def poll (c : Call) (owner : String) (pastDeadline : Bool) (w : World ι H) : ExternalPhase :=
  match w.ledger.waitForResponse c.request.id (requestHashes fingerprint c.request).current
      pastDeadline with
  | .error e => .returned c (fail c "daemon.request_outcome_lookup_failed" e false)
  | .ok none => .waiting c owner
  | .ok (some (.completed completion)) => replayPhase path c completion
  | .ok (some .timedOut) => .returned c ⟨inFlightResponse c.request.id c.effect owner false, false⟩
  | .ok (some .reservationReleased) => .reserving c

/-- The report of a reservation that could not be given back. -/
def abandonFailed (c : Call) (e : LedgerError) : OutcomeExecution :=
  ⟨withoutCommittedEffect
    (ledgerErrorResponse c.request.id c.effect "daemon.request_outcome_abandon_failed" e false), false⟩

def abandon (c : Call) (run : Nat) (reply : ResponseEnvelope) (w : World ι H) :
    ExternalPhase × World ι H :=
  match w.ledger.abandon c.request.id (requestHashes fingerprint c.request).current c.instanceId with
  | .error e => (.returned c (abandonFailed c e), w)
  | .ok ledger =>
    (.returned c ⟨reply, false⟩,
      { w with
        ledger
        executions := Function.update w.executions c.request.id
          (setAbandoned (w.executions c.request.id) run) })

/-- The report of a completion that was not recorded; a launch also drops what it retained. -/
def completeFailed (c : Call) (e : LedgerError) (w : World ι H) : ExternalPhase × World ι H :=
  (.returned c (fail c "daemon.request_outcome_persist_failed" e true),
    match path with
    | .execute => w
    | .workbenchLaunch => { w with launches := Function.update w.launches (c.instanceId, c.request.id) none })

def completedReply (c : Call) (response : ResponseEnvelope) : Option LedgerError → OutcomeExecution
  | none => ⟨response, false⟩
  | some e => fail c "workbench.launch_replay_cache_failed" e true

/-- Only a successful launch is retained. -/
def retain (c : Call) (response : ResponseEnvelope) (w : World ι H) : World ι H :=
  { w with
    launches :=
      if response.status = .ok then
        Function.update w.launches (c.instanceId, c.request.id) (some response)
      else w.launches }

def complete (c : Call) (response : ResponseEnvelope) (retained : Option LedgerError) (now : Int)
    (w : World ι H) : ExternalPhase × World ι H :=
  let hash := (requestHashes fingerprint c.request).current
  let completed :=
    match path with
    | .execute => w.ledger.complete c.request.id hash response now
    | .workbenchLaunch => w.ledger.completeWorkbenchLaunchMarker c.request.id hash now
  match completed with
  | .error e => completeFailed path c e w
  | .ok ledger =>
    (.pruning c (completedReply c response retained),
      { w with ledger, terminal := w.terminal ++ [(c.request.id, response)] })

def step (i : ι) : ExternalAction → ExternalPhase → World ι H → Option (ExternalPhase × World ι H)
  | .call c, .idle, w | .call c, .returned _ _, w => some (.reserving c, w)
  | .fingerprintFails c e, .idle, w | .fingerprintFails c e, .returned _ _, w =>
    some (.returned c (fail c "daemon.request_outcome_fingerprint_failed" e false), w)
  | .reserve now, .reserving c, w => some (reserve path fingerprint i c now w)
  | .reserveFails e, .reserving c, w =>
    some (.returned c (fail c "daemon.request_outcome_reservation_failed" e false), w)
  | .poll pastDeadline, .waiting c owner, w => some (poll path fingerprint c owner pastDeadline w, w)
  | .pollFails e, .waiting c _, w =>
    some (.returned c (fail c "daemon.request_outcome_lookup_failed" e false), w)
  | .replay current, .replaying c completion, w =>
    let retained := if current then w.launches (c.instanceId, c.request.id) else none
    some (.returned c
      ⟨replayWorkbenchLaunchCompletion c.request.id c.effect retained completion, true⟩, w)
  | .respond r, .executing c run, w =>
    some (classify path c run r,
      { w with
        executions := Function.update w.executions c.request.id
          (setResponse (w.executions c.request.id) run r) })
  | .abandon, .abandoning c run reply, w => some (abandon fingerprint c run reply w)
  | .abandonFails e, .abandoning c _ _, w => some (.returned c (abandonFailed c e), w)
  | .retain, .retaining c run response, w =>
    some (.completing c run response none, retain c response w)
  | .retainFails e, .retaining c run response, w => some (.completing c run response (some e), w)
  | .complete now, .completing c _ response retained, w =>
    some (complete path fingerprint c response retained now w)
  | .completeFails e, .completing c _ _ _, w => some (completeFailed path c e w)
  | .prune now, .pruning c o, w =>
    some (.returned c o, { w with ledger := w.ledger.pruneCompleted now })
  | .pruneFails, .pruning c o, w => some (.returned c o, w)
  | .crash, _, w => some (.idle, w)
  | .openLedger now, .idle, w => some (.idle, { w with ledger := w.ledger.opened now })
  | _, _, _ => none

/-! ## What a step can do -/

/-- The call and the run whose reservation a control point holds. -/
def holding : ExternalPhase → Option (Call × Nat)
  | .executing c run | .abandoning c run _ | .retaining c run _ | .completing c run _ _ => some (c, run)
  | _ => none

inductive Move (i : ι) (a : ExternalAction) :
    ExternalPhase → World ι H → ExternalPhase → World ι H → Prop
  | leave {p p' w} : holding p' = none → Move i a p w p' w
  | drop {p p' w launches} : holding p' = none → Move i a p w p' { w with launches }
  | clean {p p' w ledger} (now : Int) :
      a = .prune now ∧ ledger = w.ledger.pruneCompleted now ∨
        a = .openLedger now ∧ ledger = w.ledger.opened now →
      holding p = none → holding p' = none → Move i a p w p' { w with ledger }
  | touch {p' w} (c : Call) (row : LedgerRow H) : w.ledger c.request.id = some row →
      holding p' = none →
      Move i a (.reserving c) w p'
        { w with
          ledger := Function.update w.ledger c.request.id
            (some (Ledger.upgradeHash row (requestHashes fingerprint c.request))) }
  | acquire {w} (c : Call) (now : Int) : w.ledger c.request.id = none →
      Move i a (.reserving c) w (.executing c (w.executions c.request.id).length)
        { w with
          ledger := Function.update w.ledger c.request.id (some
            { requestHash := (requestHashes fingerprint c.request).current
              effect := effectName c.effect, instanceId := c.instanceId
              recoveryClass := some (recoveryClassName .externalAtMostOnce)
              responseJson := none, startedAt := now, completedAt := none })
          executions := Function.update w.executions c.request.id
            (w.executions c.request.id ++ [⟨i, c, none, false⟩]) }
  | respond {w} (c : Call) (run : Nat) (r : ResponseEnvelope) :
      Move i a (.executing c run) w (classify path c run r)
        { w with
          executions := Function.update w.executions c.request.id
            (setResponse (w.executions c.request.id) run r) }
  | release {w} (c : Call) (run : Nat) (reply : ResponseEnvelope) :
      Move i a (.abandoning c run reply) w (.returned c ⟨reply, false⟩)
        { w with
          ledger := Function.update w.ledger c.request.id none
          executions := Function.update w.executions c.request.id
            (setAbandoned (w.executions c.request.id) run) }
  | retain {w launches} (c : Call) (run : Nat) (r : ResponseEnvelope) (e : Option LedgerError) :
      Move i a (.retaining c run r) w (.completing c run r e) { w with launches }
  | record {w} (c : Call) (run : Nat) (r : ResponseEnvelope) (e : Option LedgerError) (now : Int)
      (row : LedgerRow H) (json : Json) : w.ledger c.request.id = some row →
      json = (match path with
        | .execute => r.toJson
        | .workbenchLaunch => workbenchLaunchCompletionMarkerJson) →
      Move i a (.completing c run r e) w (.pruning c (completedReply c r e))
        { w with
          ledger := Function.update w.ledger c.request.id
            (some { row with responseJson := some json, completedAt := some now })
          terminal := w.terminal ++ [(c.request.id, r)] }

variable {path fingerprint}

@[simp] theorem holding_replayPhase (c : Call) (completion : PersistedCompletion) :
    holding (replayPhase path c completion) = none := by
  cases path <;> rfl

variable {a : ExternalAction}

theorem reserve_move (i : ι) (c : Call) (now : Int) (w : World ι H) :
    Move path fingerprint i a (.reserving c) w (reserve path fingerprint i c now w).1
      (reserve path fingerprint i c now w).2 := by
  cases hRow : w.ledger c.request.id with
  | none =>
    have h := Ledger.reserveCompatible_of_none (requestHashes fingerprint c.request) c.effect
      .externalAtMostOnce c.instanceId now hRow
    simp only [reserve, h]
    exact .acquire c now hRow
  | some row =>
    unfold reserve
    split
    · exact .leave rfl
    all_goals
      rename_i h
      obtain ⟨rfl, hNe⟩ := Ledger.reserveCompatible_of_some hRow h
    · exact .touch c row hRow (holding_replayPhase c _)
    · exact .touch c row hRow rfl
    · split
      · exact .touch c row hRow rfl
      · exact .touch c row hRow rfl
    · exact absurd rfl hNe

theorem poll_holding (c : Call) (owner : String) (pastDeadline : Bool) (w : World ι H) :
    holding (poll path fingerprint c owner pastDeadline w) = none := by
  unfold poll
  split <;> first | rfl | exact holding_replayPhase c _

theorem abandon_move (i : ι) (c : Call) (run : Nat) (reply : ResponseEnvelope) (w : World ι H) :
    Move path fingerprint i a (.abandoning c run reply) w (abandon fingerprint c run reply w).1
      (abandon fingerprint c run reply w).2 := by
  unfold abandon
  split
  · exact .leave rfl
  · rename_i h
    obtain ⟨rfl, -⟩ := Ledger.abandon_eq_ok h
    exact .release c run reply

theorem completeFailed_move (i : ι) (p : ExternalPhase) (c : Call) (e : LedgerError)
    (w : World ι H) : Move path fingerprint i a p w (completeFailed path c e w).1
      (completeFailed path c e w).2 := by
  cases path
  · exact .leave rfl
  · exact .drop rfl

theorem complete_move (i : ι) (c : Call) (run : Nat) (r : ResponseEnvelope)
    (retained : Option LedgerError) (now : Int) (w : World ι H) :
    Move path fingerprint i a (.completing c run r retained) w
      (complete path fingerprint c r retained now w).1
      (complete path fingerprint c r retained now w).2 := by
  unfold complete
  cases path with
  | execute =>
    dsimp only
    split
    · exact completeFailed_move i _ c _ w
    · rename_i h
      obtain ⟨row, hRow, -, -, rfl⟩ := Ledger.recordCompletion_eq_ok h
      exact .record c run r retained now row _ hRow rfl
  | workbenchLaunch =>
    dsimp only
    split
    · exact completeFailed_move i _ c _ w
    · rename_i h
      obtain ⟨row, hRow, -, -, rfl⟩ := Ledger.recordCompletion_eq_ok h
      exact .record c run r retained now row _ hRow rfl

theorem step_move {i : ι} {p : ExternalPhase} {w : World ι H}
    {r : ExternalPhase × World ι H} (h : step path fingerprint i a p w = some r) :
    Move path fingerprint i a p w r.1 r.2 := by
  unfold step at h
  split at h <;> first | obtain rfl := Option.some.inj h | cases h
  case h_5 => exact reserve_move i _ _ w
  case h_7 => exact .leave (poll_holding _ _ _ w)
  case h_10 => exact .respond _ _ _
  case h_11 => exact abandon_move i _ _ _ w
  case h_13 => exact .retain _ _ _ none
  case h_14 => exact .retain _ _ _ (some _)
  case h_15 => exact complete_move i _ _ _ _ _ w
  case h_16 => exact completeFailed_move i _ _ _ w
  case h_17 => exact .clean _ (.inl ⟨rfl, rfl⟩) rfl rfl
  case h_20 => exact .clean _ (.inr ⟨rfl, rfl⟩) rfl rfl
  all_goals exact .leave rfl

@[simp] theorem call?_replayPhase (c : Call) (completion : PersistedCompletion) :
    (replayPhase path c completion).call? = some c := by
  cases path <;> rfl

theorem reserve_call (i : ι) (c : Call) (now : Int) (w : World ι H) :
    (reserve path fingerprint i c now w).1.call? = some c := by
  unfold reserve
  split
  case h_4 => split <;> rfl
  all_goals first | rfl | exact call?_replayPhase c _

theorem poll_call (c : Call) (owner : String) (pastDeadline : Bool) (w : World ι H) :
    (poll path fingerprint c owner pastDeadline w).call? = some c := by
  unfold poll
  split <;> first | rfl | exact call?_replayPhase c _

theorem classify_call (c : Call) (run : Nat) (r : ResponseEnvelope) :
    (classify path c run r).call? = some c := by
  unfold classify
  split
  · rfl
  · split
    · rfl
    · cases path <;> rfl

theorem abandon_call (c : Call) (run : Nat) (reply : ResponseEnvelope) (w : World ι H) :
    (abandon fingerprint c run reply w).1.call? = some c := by
  unfold abandon
  split <;> rfl

theorem complete_call (c : Call) (r : ResponseEnvelope) (retained : Option LedgerError) (now : Int)
    (w : World ι H) : (complete path fingerprint c r retained now w).1.call? = some c := by
  unfold complete
  dsimp only
  split <;> rfl

theorem step_call {i : ι} {p : ExternalPhase} {w : World ι H} {r : ExternalPhase × World ι H}
    (h : step path fingerprint i a p w = some r) :
    r.1.call? = none ∨ (∃ c, a = .call c ∧ r.1 = .reserving c) ∨ (∃ c e, a = .fingerprintFails c e) ∨
      r.1.call? = p.call? := by
  unfold step at h
  split at h <;> first | obtain rfl := Option.some.inj h | cases h
  case h_1 => exact .inr (.inl ⟨_, rfl, rfl⟩)
  case h_2 => exact .inr (.inl ⟨_, rfl, rfl⟩)
  case h_3 => exact .inr (.inr (.inl ⟨_, _, rfl⟩))
  case h_4 => exact .inr (.inr (.inl ⟨_, _, rfl⟩))
  case h_5 => exact .inr (.inr (.inr (reserve_call i _ _ w)))
  case h_7 => exact .inr (.inr (.inr (poll_call _ _ _ w)))
  case h_10 => exact .inr (.inr (.inr (classify_call _ _ _)))
  case h_11 => exact .inr (.inr (.inr (abandon_call _ _ _ w)))
  case h_15 => exact .inr (.inr (.inr (complete_call _ _ _ _ w)))
  case h_19 => exact .inl rfl
  case h_20 => exact .inl rfl
  all_goals exact .inr (.inr (.inr rfl))

theorem step_reserving {i : ι} {c : Call} {w : World ι H} {r : ExternalPhase × World ι H}
    (h : step path fingerprint i a (.reserving c) w = some r) :
    (∃ now, a = .reserve now ∧ r = reserve path fingerprint i c now w) ∨
      (∃ e, a = .reserveFails e) ∨ r.1 = .idle := by
  cases a <;> cases h
  case reserve now => exact .inl ⟨now, rfl, rfl⟩
  case reserveFails e => exact .inr (.inl ⟨e, rfl⟩)
  case crash => exact .inr (.inr rfl)

theorem step_waiting {i : ι} {c : Call} {owner : String} {w : World ι H}
    {r : ExternalPhase × World ι H} (h : step path fingerprint i a (.waiting c owner) w = some r) :
    (∃ past, a = .poll past ∧ r = (poll path fingerprint c owner past w, w)) ∨
      (∃ e, a = .pollFails e) ∨ r.1 = .idle := by
  cases a <;> cases h
  case poll past => exact .inl ⟨past, rfl, rfl⟩
  case pollFails e => exact .inr (.inl ⟨e, rfl⟩)
  case crash => exact .inr (.inr rfl)

theorem step_executing {i : ι} {c : Call} {k : Nat} {w : World ι H} {r : ExternalPhase × World ι H}
    (h : step path fingerprint i a (.executing c k) w = some r) :
    (∃ response, a = .respond response ∧ r.1 = classify path c k response) ∨ r.1 = .idle := by
  cases a <;> cases h
  case respond response => exact .inl ⟨response, rfl, rfl⟩
  case crash => exact .inr rfl

theorem step_abandoning {i : ι} {c : Call} {k : Nat} {reply : ResponseEnvelope} {w : World ι H}
    {r : ExternalPhase × World ι H}
    (h : step path fingerprint i a (.abandoning c k reply) w = some r) :
    r.1 = .returned c ⟨reply, false⟩ ∨ (∃ e, r.1 = .returned c (abandonFailed c e)) ∨ r.1 = .idle := by
  cases a <;> cases h
  case abandon =>
    unfold abandon
    split
    · exact .inr (.inl ⟨_, rfl⟩)
    · exact .inl rfl
  case abandonFails e => exact .inr (.inl ⟨e, rfl⟩)
  case crash => exact .inr (.inr rfl)

theorem step_completing {i : ι} {c : Call} {k : Nat} {response : ResponseEnvelope}
    {retained : Option LedgerError} {w : World ι H} {r : ExternalPhase × World ι H}
    (h : step path fingerprint i a (.completing c k response retained) w = some r) :
    (∃ now, a = .complete now ∧ r = complete path fingerprint c response retained now w) ∨
      (∃ e, a = .completeFails e ∧
        r.1 = .returned c (fail c "daemon.request_outcome_persist_failed" e true)) ∨
      r.1 = .idle := by
  cases a <;> cases h
  case complete now => exact .inl ⟨now, rfl, rfl⟩
  case completeFails e => exact .inr (.inl ⟨e, rfl, rfl⟩)
  case crash => exact .inr (.inr rfl)

theorem step_pruning {i : ι} {c : Call} {o : OutcomeExecution} {w : World ι H}
    {r : ExternalPhase × World ι H} (h : step path fingerprint i a (.pruning c o) w = some r) :
    r.1 = .returned c o ∨ r.1 = .idle := by
  cases a <;> cases h
  case prune | pruneFails => exact .inl rfl
  case crash => exact .inr rfl

theorem step_returned {i : ι} {c : Call} {o : OutcomeExecution} {w : World ι H}
    {r : ExternalPhase × World ι H} (h : step path fingerprint i a (.returned c o) w = some r) :
    (∃ c', a = .call c' ∧ r.1 = .reserving c') ∨ (∃ c' e, a = .fingerprintFails c' e) ∨
      r.1 = .idle := by
  cases a <;> cases h
  case call c' => exact .inl ⟨c', rfl, rfl⟩
  case fingerprintFails c' e => exact .inr (.inl ⟨c', e, rfl⟩)
  case crash => exact .inr (.inr rfl)

theorem step_idle {i : ι} {w : World ι H} {r : ExternalPhase × World ι H}
    (h : step path fingerprint i a .idle w = some r) : a.Begins ∨ r.1 = .idle := by
  cases a <;> cases h
  case call | fingerprintFails => exact .inl trivial
  case crash | openLedger => exact .inr rfl

end External

end Exosuit.Daemon
