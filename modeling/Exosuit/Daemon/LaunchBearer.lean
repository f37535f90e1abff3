import Exosuit.Daemon.Dispatch

/-!
# Launch bearers

The bearer of a launch is in the URL of its result. The persisted state is the
same for two runs whose launches answer with different results, and a replay
answers with a result only as long as the daemon vouches for the launch.
-/

namespace Exosuit.Daemon

open Lib (Json Interleaving)

def ResponseEnvelope.withoutBearer (r : ResponseEnvelope) : ResponseEnvelope :=
  { r with result := none }

def OutcomeExecution.withoutBearer (o : OutcomeExecution) : OutcomeExecution :=
  { o with response := o.response.withoutBearer }

namespace LaunchBearer

variable {ι H : Type*}

/-! ## What is left without the bearers -/

def eraseExternal : ExternalPhase → ExternalPhase
  | .abandoning c run reply => .abandoning c run reply.withoutBearer
  | .retaining c run r => .retaining c run r.withoutBearer
  | .completing c run r e => .completing c run r.withoutBearer e
  | .pruning c o => .pruning c o.withoutBearer
  | .returned c o => .returned c o.withoutBearer
  | p => p

def erasePhase : DaemonPhase H → DaemonPhase H
  | .running (.external .workbenchLaunch p) => .running (.external .workbenchLaunch (eraseExternal p))
  | .probed c o => .probed c (o.map OutcomeExecution.withoutBearer)
  | p => p

/-- The shared state without bearers and without the history that no step reads. -/
structure Observation (ι H : Type*) where
  ledger : Ledger H
  canonical : String → Option (CanonicalRow H)
  projectWriter : Option ι
  launches : String × String → Option ResponseEnvelope
  runs : String → Nat

def observe (w : World ι H) : Observation ι H where
  ledger := w.ledger
  canonical := w.canonical
  projectWriter := w.projectWriter
  launches key := (w.launches key).map ResponseEnvelope.withoutBearer
  runs id := (w.executions id).length

def eraseResponse : ExternalAction → ExternalAction
  | .respond r => .respond r.withoutBearer
  | a => a

def eraseAction : DaemonAction → DaemonAction
  | .launch a => .launch (eraseResponse a)
  | a => a

/-- Two worlds with the same observation. -/
structure Alike (w w' : World ι H) : Prop where
  ledger : w'.ledger = w.ledger
  canonical : w'.canonical = w.canonical
  projectWriter : w'.projectWriter = w.projectWriter
  launches : ∀ key, (w'.launches key).map ResponseEnvelope.withoutBearer =
    (w.launches key).map ResponseEnvelope.withoutBearer
  runs : ∀ id, (w'.executions id).length = (w.executions id).length

theorem Alike.observe_eq {w w' : World ι H} (h : Alike w w') : observe w' = observe w := by
  unfold observe
  rw [h.ledger, h.canonical, h.projectWriter, funext h.launches, funext h.runs]

theorem alike_of_observe_eq {w w' : World ι H} (h : observe w' = observe w) : Alike w w' := by
  obtain ⟨hLedger, hCanonical, hWriter, hLaunches, hRuns⟩ := Observation.mk.inj h
  exact ⟨hLedger, hCanonical, hWriter, congrFun hLaunches, congrFun hRuns⟩

variable {w w' : World ι H}

theorem Alike.withLedger (h : Alike w w') (ledger : Ledger H) :
    Alike { w with ledger } { w' with ledger } :=
  { h with ledger := rfl }

theorem Alike.withExecutions (h : Alike w w') (id : String) {runs runs' : List (Execution ι)}
    (hLength : runs'.length = runs.length) :
    Alike { w with executions := Function.update w.executions id runs }
      { w' with executions := Function.update w'.executions id runs' } := by
  refine { h with runs := fun id' => ?_ }
  rcases eq_or_ne id' id with rfl | hId
  · simpa using hLength
  · simpa [Function.update_of_ne hId] using h.runs id'

theorem Alike.withLaunch (h : Alike w w') (key : String × String)
    {launch launch' : Option ResponseEnvelope}
    (hEq : launch'.map ResponseEnvelope.withoutBearer = launch.map ResponseEnvelope.withoutBearer) :
    Alike { w with launches := Function.update w.launches key launch }
      { w' with launches := Function.update w'.launches key launch' } := by
  refine { h with launches := fun key' => ?_ }
  rcases eq_or_ne key' key with rfl | hKey
  · simpa using hEq
  · simpa [Function.update_of_ne hKey] using h.launches key'

@[simp] theorem length_setResponse (executions : List (Execution ι)) (run : Nat)
    (r : ResponseEnvelope) : (External.setResponse executions run r).length = executions.length :=
  List.length_modify ..

@[simp] theorem length_setAbandoned (executions : List (Execution ι)) (run : Nat) :
    (External.setAbandoned executions run).length = executions.length :=
  List.length_modify ..

/-- Two outcomes of a step that agree up to bearers. -/
def Agree {L : Type*} (f : L → L) (r r' : Option (L × World ι H)) : Prop :=
  r'.map (Prod.map f observe) = r.map (Prod.map f observe)

theorem agree_some {L : Type*} {f : L → L} {q q' : L × World ι H} (hPhase : f q'.1 = f q.1)
    (hWorld : Alike q.2 q'.2) : Agree f (some q) (some q') :=
  congrArg some (Prod.ext hPhase hWorld.observe_eq)

/-- The step of a path is a step of the daemon. -/
theorem Agree.lift {L : Type*} {f : L → L} {k : L → DaemonPhase H} {r r' : Option (L × World ι H)}
    (h : Agree f r r') (hPhase : ∀ p, erasePhase (k p) = k (f p)) :
    Agree erasePhase (r.map fun q => (k q.1, q.2)) (r'.map fun q => (k q.1, q.2)) := by
  have hLift : ∀ o : Option (L × World ι H),
      (o.map fun q => (k q.1, q.2)).map (Prod.map erasePhase observe) =
        (o.map (Prod.map f observe)).map fun q => (k q.1, q.2) := by
    intro o
    cases o with
    | none => rfl
    | some q => exact congrArg some (Prod.ext (hPhase q.1) rfl)
  unfold Agree at h ⊢
  rw [hLift, hLift, h]

/-! ## The external paths -/

variable {path : ExternalPath} {c : Call}

theorem completeFailed_alike (h : Alike w w') (e : LedgerError) :
    (External.completeFailed path c e w').1 = (External.completeFailed path c e w).1 ∧
      Alike (External.completeFailed path c e w).2 (External.completeFailed path c e w').2 := by
  cases path with
  | execute => exact ⟨rfl, h⟩
  | workbenchLaunch => exact ⟨rfl, h.withLaunch _ rfl⟩

theorem retain_alike (h : Alike w w') (r : ResponseEnvelope) :
    Alike (External.retain c r w) (External.retain c r.withoutBearer w') := by
  have hStatus : r.withoutBearer.status = r.status := rfl
  unfold External.retain
  rw [hStatus]
  split
  · exact h.withLaunch _ rfl
  · exact h

theorem classify_withoutBearer (run : Nat) (r : ResponseEnvelope) :
    eraseExternal (External.classify .workbenchLaunch c run r.withoutBearer) =
      eraseExternal (External.classify .workbenchLaunch c run r) := by
  have hBusy : isRetryableDaemonBusyResponse r.withoutBearer = isRetryableDaemonBusyResponse r := rfl
  have hConfirm : (r.withoutBearer.status = .confirmRequired ||
      isRejectedExecutionConfirmation r.withoutBearer) =
        (r.status = .confirmRequired || isRejectedExecutionConfirmation r) := rfl
  unfold External.classify
  rw [hBusy, hConfirm]
  split
  · rfl
  · split
    · rfl
    · rfl

theorem replay_withoutBearer (h : Alike w w') (effect : Effect) (current : Bool)
    (completion : PersistedCompletion) :
    OutcomeExecution.withoutBearer ⟨External.replayWorkbenchLaunchCompletion c.request.id effect
        (if current then w'.launches (c.instanceId, c.request.id) else none) completion, true⟩ =
      OutcomeExecution.withoutBearer ⟨External.replayWorkbenchLaunchCompletion c.request.id effect
        (if current then w.launches (c.instanceId, c.request.id) else none) completion, true⟩ := by
  have hLaunch := h.launches (c.instanceId, c.request.id)
  cases completion with
  | response r => rfl
  | workbenchLaunchMarker =>
    cases current with
    | false => rfl
    | true =>
      cases hOld : w.launches (c.instanceId, c.request.id) with
      | none =>
        rw [hOld] at hLaunch
        simp [Option.map_eq_none_iff.mp hLaunch]
      | some r =>
        rw [hOld] at hLaunch
        obtain ⟨r', hNew, hBearer⟩ := Option.map_eq_some_iff.mp hLaunch
        simp only [if_true, hNew]
        exact congrArg (fun r => (⟨{ r with id := c.request.id }, true⟩ : OutcomeExecution)) hBearer

variable [DecidableEq H] {fingerprint : RequestEnvelope → H} {i : ι}

theorem reserve_alike (h : Alike w w') (now : Int) :
    (External.reserve path fingerprint i c now w').1 =
        (External.reserve path fingerprint i c now w).1 ∧
      Alike (External.reserve path fingerprint i c now w).2
        (External.reserve path fingerprint i c now w').2 := by
  unfold External.reserve
  rw [h.ledger, h.runs]
  generalize w.ledger.reserveCompatible c.request.id (requestHashes fingerprint c.request) c.effect
    .externalAtMostOnce c.instanceId now = reserved
  rcases reserved with e | ⟨reserved, ledger⟩
  · exact ⟨rfl, h⟩
  cases reserved with
  | execute =>
    refine ⟨rfl, (h.withLedger ledger).withExecutions c.request.id ?_⟩
    rw [List.length_append, List.length_append, h.runs]
  | replay completion => exact ⟨rfl, h.withLedger ledger⟩
  | conflict => exact ⟨rfl, h.withLedger ledger⟩
  | inFlight owner recoveryClass =>
    dsimp only
    split
    · exact ⟨rfl, h.withLedger ledger⟩
    · exact ⟨rfl, h.withLedger ledger⟩

theorem poll_alike (h : Alike w w') (owner : String) (past : Bool) :
    External.poll path fingerprint c owner past w' = External.poll path fingerprint c owner past w := by
  unfold External.poll
  rw [h.ledger]

theorem abandon_alike (h : Alike w w') (run : Nat) (reply : ResponseEnvelope) :
    (External.abandon fingerprint c run reply w').1 = (External.abandon fingerprint c run reply w).1 ∧
      eraseExternal (External.abandon fingerprint c run reply.withoutBearer w').1 =
        eraseExternal (External.abandon fingerprint c run reply w).1 ∧
      ∀ reply', Alike (External.abandon fingerprint c run reply w).2
        (External.abandon fingerprint c run reply' w').2 := by
  unfold External.abandon
  rw [h.ledger]
  generalize w.ledger.abandon c.request.id (requestHashes fingerprint c.request).current
    c.instanceId = abandoned
  cases abandoned with
  | error e => exact ⟨rfl, rfl, fun _ => h⟩
  | ok ledger =>
    exact ⟨rfl, rfl, fun _ => (h.withLedger ledger).withExecutions c.request.id (by simp [h.runs])⟩

theorem complete_launch_alike (h : Alike w w') (r : ResponseEnvelope) (retained : Option LedgerError)
    (now : Int) :
    eraseExternal (External.complete .workbenchLaunch fingerprint c r.withoutBearer retained now w').1 =
        eraseExternal (External.complete .workbenchLaunch fingerprint c r retained now w).1 ∧
      Alike (External.complete .workbenchLaunch fingerprint c r retained now w).2
        (External.complete .workbenchLaunch fingerprint c r.withoutBearer retained now w').2 := by
  have hReply : (External.completedReply c r.withoutBearer retained).withoutBearer =
      (External.completedReply c r retained).withoutBearer := by
    cases retained with
    | none => rfl
    | some e => rfl
  unfold External.complete
  dsimp only
  rw [h.ledger]
  generalize w.ledger.completeWorkbenchLaunchMarker c.request.id
    (requestHashes fingerprint c.request).current now = recorded
  cases recorded with
  | error e =>
    obtain ⟨hPhase, hWorld⟩ := completeFailed_alike h e
    exact ⟨congrArg eraseExternal hPhase, hWorld⟩
  | ok ledger => exact ⟨congrArg (ExternalPhase.pruning c) hReply, { h.withLedger ledger with }⟩

theorem complete_execute_alike (h : Alike w w') (r : ResponseEnvelope) (retained : Option LedgerError)
    (now : Int) :
    (External.complete .execute fingerprint c r retained now w').1 =
        (External.complete .execute fingerprint c r retained now w).1 ∧
      Alike (External.complete .execute fingerprint c r retained now w).2
        (External.complete .execute fingerprint c r retained now w').2 := by
  unfold External.complete
  dsimp only
  rw [h.ledger]
  generalize w.ledger.complete c.request.id (requestHashes fingerprint c.request).current r now =
    recorded
  cases recorded with
  | error e => exact completeFailed_alike h e
  | ok ledger => exact ⟨rfl, { h.withLedger ledger with }⟩

theorem step_launch_agree (h : Alike w w') (a : ExternalAction) (p : ExternalPhase) :
    Agree eraseExternal (External.step .workbenchLaunch fingerprint i a p w)
      (External.step .workbenchLaunch fingerprint i (eraseResponse a) (eraseExternal p) w') := by
  cases a <;> cases p <;> try rfl
  case reserve.reserving now c =>
    obtain ⟨hPhase, hWorld⟩ := reserve_alike h now
    exact agree_some (congrArg eraseExternal hPhase) hWorld
  case poll.waiting past c owner =>
    exact agree_some (congrArg eraseExternal (poll_alike h owner past)) h
  case replay.replaying current c completion =>
    exact agree_some (congrArg (ExternalPhase.returned c) (replay_withoutBearer h c.effect current completion)) h
  case respond.executing r c run =>
    refine agree_some (classify_withoutBearer run r) (h.withExecutions _ ?_)
    rw [length_setResponse, length_setResponse, h.runs]
  case abandon.abandoning c run reply =>
    obtain ⟨-, hPhase, hWorld⟩ := abandon_alike h run reply
    exact agree_some hPhase (hWorld _)
  case retain.retaining c run r => exact agree_some rfl (retain_alike h r)
  case complete.completing now c run r e =>
    obtain ⟨hPhase, hWorld⟩ := complete_launch_alike h r e now
    exact agree_some hPhase hWorld
  case completeFails.completing e c run r e' =>
    obtain ⟨hPhase, hWorld⟩ := completeFailed_alike h e
    exact agree_some (congrArg eraseExternal hPhase) hWorld
  case prune.pruning now c o => exact agree_some rfl (h.ledger ▸ h.withLedger _)
  case openLedger.idle now => exact agree_some rfl (h.ledger ▸ h.withLedger _)
  all_goals exact agree_some rfl h

theorem step_execute_agree (h : Alike w w') {a : ExternalAction}
    (hAdmits : Dispatch.admits false a = true) (p : ExternalPhase) :
    Agree id (External.step .execute fingerprint i a p w)
      (External.step .execute fingerprint i a p w') := by
  cases a <;> cases p <;> try rfl
  case reserve.reserving now c =>
    obtain ⟨hPhase, hWorld⟩ := reserve_alike h now
    exact agree_some hPhase hWorld
  case poll.waiting past c owner => exact agree_some (poll_alike h owner past) h
  case replay.replaying current c completion => cases hAdmits
  case respond.executing r c run =>
    refine agree_some rfl (h.withExecutions _ ?_)
    rw [length_setResponse, length_setResponse, h.runs]
  case abandon.abandoning c run reply =>
    obtain ⟨hPhase, -, hWorld⟩ := abandon_alike h run reply
    exact agree_some hPhase (hWorld _)
  case retain.retaining c run r => cases hAdmits
  case complete.completing now c run r e =>
    obtain ⟨hPhase, hWorld⟩ := complete_execute_alike h r e now
    exact agree_some hPhase hWorld
  case completeFails.completing e c run r e' =>
    obtain ⟨hPhase, hWorld⟩ := completeFailed_alike h e
    exact agree_some hPhase hWorld
  case prune.pruning now c o => exact agree_some rfl (h.ledger ▸ h.withLedger _)
  case openLedger.idle now => exact agree_some rfl (h.ledger ▸ h.withLedger _)
  all_goals exact agree_some rfl h

/-! ## The atomic path -/

theorem atomic_reserve_alike (h : Alike w w') (now : Int) :
    (Atomic.reserve fingerprint c now w').1 = (Atomic.reserve fingerprint c now w).1 ∧
      Alike (Atomic.reserve fingerprint c now w).2 (Atomic.reserve fingerprint c now w').2 := by
  unfold Atomic.reserve
  rw [h.ledger]
  generalize w.ledger.reserveCompatible c.request.id (requestHashes fingerprint c.request) c.effect
    .atomicProjectState c.instanceId now = reserved
  rcases reserved with e | ⟨reserved, ledger⟩
  · exact ⟨rfl, h⟩
  cases reserved with
  | inFlight owner recoveryClass =>
    dsimp only
    split
    · exact ⟨rfl, h.withLedger ledger⟩
    · split
      · exact ⟨rfl, h.withLedger ledger⟩
      · exact ⟨rfl, h.withLedger ledger⟩
  | execute => exact ⟨rfl, h.withLedger ledger⟩
  | replay completion => exact ⟨rfl, h.withLedger ledger⟩
  | conflict => exact ⟨rfl, h.withLedger ledger⟩

theorem atomic_poll_alike (h : Alike w w') (owner : String) (past : Bool) :
    Atomic.poll fingerprint c owner past w' = Atomic.poll fingerprint c owner past w := by
  unfold Atomic.poll
  rw [h.ledger]

theorem atomic_read_alike (h : Alike w w') (owns : Bool) :
    (Atomic.read fingerprint i c owns w').1 = (Atomic.read fingerprint i c owns w).1 ∧
      Alike (Atomic.read fingerprint i c owns w).2 (Atomic.read fingerprint i c owns w').2 := by
  have hUnlock : Alike (Atomic.unlock w) (Atomic.unlock w') := { h with projectWriter := rfl }
  unfold Atomic.read
  rw [h.canonical, h.runs]
  cases w.canonical c.request.id with
  | none =>
    let run : Execution ι := ⟨i, c, none, false⟩
    have hLength : (w'.executions c.request.id ++ [run]).length =
        (w.executions c.request.id ++ [run]).length := by
      rw [List.length_append, List.length_append, h.runs]
    exact ⟨rfl, { h with canonical := rfl, runs := (h.withExecutions c.request.id hLength).runs }⟩
  | some row =>
    dsimp only
    split
    · exact ⟨rfl, h⟩
    · split
      · exact ⟨rfl, h⟩
      · exact ⟨rfl, hUnlock⟩

omit [DecidableEq H] in
theorem atomic_commit_alike (h : Alike w w') (owns : Bool) (r : ResponseEnvelope) (now : Int) :
    (Atomic.commit fingerprint i c owns r now w').1 =
        (Atomic.commit fingerprint i c owns r now w).1 ∧
      Alike (Atomic.commit fingerprint i c owns r now w).2
        (Atomic.commit fingerprint i c owns r now w').2 := by
  unfold Atomic.commit
  rw [h.canonical]
  cases w.canonical c.request.id with
  | none => exact ⟨rfl, { h with canonical := rfl, projectWriter := rfl }⟩
  | some row => exact ⟨rfl, { h with projectWriter := rfl }⟩

theorem atomic_complete_alike (h : Alike w w') (owns : Bool) (o : OutcomeExecution) (fresh : Bool)
    (now : Int) :
    (Atomic.complete fingerprint c owns o fresh now w').1 =
        (Atomic.complete fingerprint c owns o fresh now w).1 ∧
      Alike (Atomic.complete fingerprint c owns o fresh now w).2
        (Atomic.complete fingerprint c owns o fresh now w').2 := by
  unfold Atomic.complete
  rw [h.ledger]
  cases w.ledger.complete c.request.id (requestHashes fingerprint c.request).current o.response now with
  | error e => exact ⟨rfl, h⟩
  | ok ledger => exact ⟨rfl, { h.withLedger ledger with }⟩

theorem atomic_abandon_alike (h : Alike w w') :
    Alike (Atomic.abandon fingerprint c w) (Atomic.abandon fingerprint c w') := by
  unfold Atomic.abandon
  rw [h.ledger]
  cases w.ledger.abandon c.request.id (requestHashes fingerprint c.request).current c.instanceId with
  | error e => exact h
  | ok ledger => exact h.withLedger ledger

omit [DecidableEq H] in
theorem pruneCanonicalOutcomes_alike (h : Alike w w') (now : Int) :
    Alike (Atomic.pruneCanonicalOutcomes w now) (Atomic.pruneCanonicalOutcomes w' now) := by
  refine { h with canonical := ?_ }
  dsimp only [Atomic.pruneCanonicalOutcomes]
  rw [h.ledger, h.canonical]

variable [DecidableEq ι]

omit [DecidableEq H] in
theorem crash_alike (h : Alike w w') : Alike (Atomic.crash i w) (Atomic.crash i w') := by
  unfold Atomic.crash
  rw [h.projectWriter]
  split
  · exact { h with projectWriter := rfl }
  · exact h

theorem step_atomic_agree (h : Alike w w') (a : AtomicAction) (p : AtomicPhase) :
    Agree id (Atomic.step fingerprint i a p w) (Atomic.step fingerprint i a p w') := by
  have hUnlock : Alike (Atomic.unlock w) (Atomic.unlock w') := { h with projectWriter := rfl }
  have hAgree : ∀ {q q' : AtomicPhase × World ι H}, q'.1 = q.1 ∧ Alike q.2 q'.2 →
      Agree id (some q) (some q') := fun hBoth => agree_some hBoth.1 hBoth.2
  cases a <;> cases p <;> try rfl
  case reserve.reserving now c => exact hAgree (atomic_reserve_alike h now)
  case poll.waiting past c owner => exact hAgree ⟨atomic_poll_alike h owner past, h⟩
  case lookup.lookup c owner =>
    refine hAgree ⟨?_, h⟩
    dsimp only [Atomic.lookup]
    rw [h.canonical]
  case begin.beginning c owns =>
    dsimp only [Atomic.step]
    rw [h.projectWriter]
    split
    · exact hAgree ⟨rfl, { h with projectWriter := rfl }⟩
    · rfl
  case read.reading c owns => exact hAgree (atomic_read_alike h owns)
  case readFails.reading => exact hAgree ⟨rfl, hUnlock⟩
  case respond.handling r c owns run =>
    refine hAgree ⟨rfl, h.withExecutions c.request.id ?_⟩
    rw [length_setResponse, length_setResponse, h.runs]
  case rollback.rollingBack => exact hAgree ⟨rfl, hUnlock⟩
  case rollbackFails.rollingBack => exact hAgree ⟨rfl, hUnlock⟩
  case commit.committing now c owns r => exact hAgree (atomic_commit_alike h owns r now)
  case commitFails.committing => exact hAgree ⟨rfl, hUnlock⟩
  case complete.completing now c owns o fresh =>
    exact hAgree (atomic_complete_alike h owns o fresh now)
  case prune.pruning now c o fresh => exact hAgree ⟨rfl, h.ledger ▸ h.withLedger _⟩
  case abandon.releasing => exact hAgree ⟨rfl, atomic_abandon_alike h⟩
  case abandon.abandoning => exact hAgree ⟨rfl, atomic_abandon_alike h⟩
  case pruneCanonical.canonicalPruning now c o fresh =>
    dsimp only [Atomic.step]
    rw [h.projectWriter]
    split
    · exact hAgree ⟨rfl, pruneCanonicalOutcomes_alike h now⟩
    · rfl
  case openLedger.idle now => exact hAgree ⟨rfl, h.ledger ▸ h.withLedger _⟩
  all_goals first | exact hAgree ⟨rfl, h⟩ | exact hAgree ⟨rfl, crash_alike h⟩

/-! ## The daemon -/

omit [DecidableEq ι] in
theorem terminalOutcome_alike (h : Alike w w') :
    Dispatch.terminalOutcome fingerprint c w' = Dispatch.terminalOutcome fingerprint c w := by
  unfold Dispatch.terminalOutcome
  rw [h.ledger]

omit [DecidableEq H] in
theorem erase_between (p : DaemonPhase H) : Dispatch.between (erasePhase p) = Dispatch.between p := by
  unfold erasePhase
  split
  · next p => cases p <;> rfl
  · rfl
  · rfl

theorem admits_eraseResponse (a : ExternalAction) :
    Dispatch.admits true (eraseResponse a) = Dispatch.admits true a := by
  cases a <;> rfl

theorem step_agree (h : Alike w w') (a : DaemonAction) (p : DaemonPhase H) :
    Agree erasePhase (Dispatch.step fingerprint i a p w)
      (Dispatch.step fingerprint i (eraseAction a) (erasePhase p) w') := by
  cases a with
  | launch a =>
    rcases p with (⟨path, p⟩ | p) | _ | _ | _ | _ <;> try rfl
    cases path with
    | execute => rfl
    | workbenchLaunch =>
      dsimp only [Dispatch.step, eraseAction, erasePhase]
      rw [admits_eraseResponse]
      split
      · exact (step_launch_agree h a p).lift (k := fun p => .running (.external .workbenchLaunch p)) fun _ => rfl
      · rfl
  | execute a =>
    rcases p with (⟨path, p⟩ | p) | _ | _ | _ | _ <;> try rfl
    cases path with
    | workbenchLaunch => rfl
    | execute =>
      dsimp only [Dispatch.step, eraseAction, erasePhase]
      split
      · next hAdmits => exact (step_execute_agree h hAdmits p).lift (k := fun p => .running (.external .execute p)) fun _ => rfl
      · rfl
  | atomic a =>
    rcases p with (⟨path, p⟩ | p) | _ | _ | _ | _ <;> try rfl
    · cases path <;> rfl
    · dsimp only [Dispatch.step, eraseAction, erasePhase]
      split
      · exact (step_atomic_agree h a p).lift (k := fun p => .running (.atomic p)) fun _ => rfl
      · rfl
  | dispatch target =>
    dsimp only [Dispatch.step, eraseAction]
    rw [erase_between]
    split
    · exact agree_some rfl h
    · rfl
  | probe c =>
    dsimp only [Dispatch.step, eraseAction]
    rw [erase_between, terminalOutcome_alike h]
    split
    · exact agree_some rfl h
    · rfl
  | probeFails c =>
    dsimp only [Dispatch.step, eraseAction]
    rw [erase_between]
    split
    · exact agree_some rfl h
    · rfl
  | replaceLegacy =>
    rcases p with (⟨path | path, p⟩ | p) | _ | _ | _ | _ <;> try rfl
    exact agree_some rfl (h.ledger ▸ h.withLedger _)
  | replaceLegacyFails =>
    rcases p with (⟨path | path, p⟩ | p) | _ | _ | _ | _ <;> try rfl
    exact agree_some rfl h
  | discard =>
    rcases p with (⟨path | path, p⟩ | p) | _ | _ | _ | _ <;> try rfl
    exact agree_some rfl (h.ledger ▸ h.withLedger _)
  | discardFails =>
    rcases p with (⟨path | path, p⟩ | p) | _ | _ | _ | _ <;> try rfl
    exact agree_some rfl h
  | answer current =>
    rcases p with (⟨path | path, p⟩ | p) | _ | _ | ⟨c, effect, completion⟩ | _ <;> try rfl
    refine agree_some (congrArg (fun o => DaemonPhase.probed c (some o)) ?_) h
    exact replay_withoutBearer h effect current completion
  | crash => exact agree_some rfl (crash_alike h)

theorem run_with_other_bearers {s t : DaemonState ι H} {labels labels' : List (ι × DaemonAction)}
    (hSame : labels'.map (Prod.map id eraseAction) = labels.map (Prod.map id eraseAction))
    (hRun : Lib.run (daemonStep fingerprint) s labels = some t) :
    ∃ t', Lib.run (daemonStep fingerprint) s labels' = some t' ∧
      t'.shared.ledger = t.shared.ledger ∧ t'.shared.canonical = t.shared.canonical := by
  have hStep : ∀ (s s' : DaemonState ι H) a a', s.view erasePhase observe = s'.view erasePhase observe →
      Prod.map id eraseAction a = Prod.map id eraseAction a' →
      (daemonStep fingerprint s a).map (Interleaving.view erasePhase observe) =
        (daemonStep fingerprint s' a').map (Interleaving.view erasePhase observe) := by
    intro s s' a a' hs ha
    refine Interleaving.step_congr_view (fun i a a' l l' w w' hLabel hPhase hWorld => ?_) hs ha
    have hLeft : Agree erasePhase (Dispatch.step fingerprint i a l w)
        (Dispatch.step fingerprint i (eraseAction a) (erasePhase l) w) :=
      step_agree (alike_of_observe_eq rfl) a l
    have hRight : Agree erasePhase (Dispatch.step fingerprint i a' l' w')
        (Dispatch.step fingerprint i (eraseAction a') (erasePhase l') w) :=
      step_agree (alike_of_observe_eq hWorld) a' l'
    unfold Agree at hLeft hRight
    rw [← hLeft, ← hRight, hLabel, hPhase]
  have hView : (Lib.run (daemonStep fingerprint) s labels').map (Interleaving.view erasePhase observe) =
      (Lib.run (daemonStep fingerprint) s labels).map (Interleaving.view erasePhase observe) :=
    Lib.run_congr_view hStep rfl hSame
  rw [hRun, Option.map_some, Option.map_eq_some_iff] at hView
  obtain ⟨t', hRun', hEq⟩ := hView
  have hShared := alike_of_observe_eq (congrArg Interleaving.shared hEq)
  exact ⟨t', hRun', hShared.ledger, hShared.canonical⟩

end LaunchBearer

end Exosuit.Daemon
