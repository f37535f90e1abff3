import Exosuit.Lib.Interleaving
import Exosuit.Daemon.Atomic

/-!
# Refusals are not final

A response that asks the client to send the request again must not be recorded.
The threads here run all three execution paths over one ledger and one project
database.
-/

namespace Exosuit.Daemon

open Lib (Json Interleaving)

variable {ι H : Type*}

inductive RequestPhase
  | external (path : ExternalPath) (p : ExternalPhase)
  | atomic (p : AtomicPhase)

inductive RequestAction
  | external (a : ExternalAction)
  | atomic (a : AtomicAction)
  | dispatch (p : RequestPhase)

namespace Refusals

def between : RequestPhase → Bool
  | .external _ .idle | .external _ (.returned _ _) | .atomic .idle | .atomic (.returned _ _ _) => true
  | _ => false

def isIdle : RequestPhase → Bool
  | .external _ .idle | .atomic .idle => true
  | _ => false

def step [DecidableEq H] [DecidableEq ι] (fingerprint : RequestEnvelope → H) (i : ι) :
    RequestAction → RequestPhase → World ι H → Option (RequestPhase × World ι H)
  | .external a, .external path p, w =>
    (External.step path fingerprint i a p w).map fun q => (.external path q.1, q.2)
  | .atomic a, .atomic p, w => (Atomic.step fingerprint i a p w).map fun q => (.atomic q.1, q.2)
  | .dispatch target, p, w => if between p && isIdle target then some (target, w) else none
  | _, _, _ => none

/-! ## Responses that ask for a retry -/

theorem asks_congr {r r' : ResponseEnvelope} (hStatus : r'.status = r.status)
    (hError : r'.error = r.error) : asksForRetry r' = asksForRetry r := by
  simp [asksForRetry, isRetryableDaemonBusyResponse, isTransientExecutionConfirmation,
    isRejectedExecutionConfirmation, hStatus, hError]

theorem asks_readBack (r : ResponseEnvelope) : asksForRetry r.readBack = asksForRetry r := by
  have hDetails : ∀ o : Option Json, (Json.optional o).any hasRetryableDaemonBusyDetails =
      o.any hasRetryableDaemonBusyDetails := by
    intro o
    match o with
    | none | some (.bool _) | some (.posInt _) | some (.negInt _) | some (.float _)
    | some (.string _) | some (.array _) | some (.object _) => rfl
    | some .null => rfl
  cases hError : r.error <;>
    simp [asksForRetry, isRetryableDaemonBusyResponse, isTransientExecutionConfirmation,
      isRejectedExecutionConfirmation, ResponseEnvelope.readBack, hError, hDetails]

theorem asks_conflict (id : String) (effect : Effect) :
    asksForRetry (withoutCommittedEffect (requestIdConflictResponse id effect)) = false := rfl

theorem asks_finalize {effect : Effect} {r : ResponseEnvelope}
    {report : Except ResponseEnvelope (Option Json)} {r' : ResponseEnvelope}
    (h : Atomic.finalizeAtomicResponseAfterCommit effect r report = .ok r') :
    asksForRetry r' = asksForRetry r := by
  unfold Atomic.finalizeAtomicResponseAfterCommit at h
  split at h
  · cases h
  · split at h <;> cases h
    · exact asks_congr rfl rfl
    · rfl
  · cases h
    rfl

/-! ## Recorded outcomes -/

/-- The column does not read back as a refusal. -/
def Final (json : Json) : Prop :=
  ∀ r, ResponseEnvelope.fromJson json = some r → asksForRetry r = false

theorem final_toJson {r : ResponseEnvelope} (h : asksForRetry r = false) : Final r.toJson := by
  intro r' hRead
  rw [ResponseEnvelope.fromJson_toJson] at hRead
  cases hRead
  rw [asks_readBack, h]

theorem final_marker : Final workbenchLaunchCompletionMarkerJson := by
  intro r hRead
  cases hRead

def FinalLedger (ledger : Ledger H) : Prop :=
  ∀ id row json, ledger id = some row → row.responseJson = some json → Final json

/-- No outcome that the daemon keeps is a refusal. -/
structure Clean (w : World ι H) : Prop where
  ledger : FinalLedger w.ledger
  canonical : ∀ id row, w.canonical id = some row → Final row.responseJson
  launches : ∀ key r, w.launches key = some r → asksForRetry r = false
  terminal : ∀ id r, (id, r) ∈ w.terminal → asksForRetry r = false

theorem clean_empty : Clean (.empty : World ι H) where
  ledger _ _ _ h := by cases h
  canonical _ _ h := by cases h
  launches _ _ h := by cases h
  terminal _ _ h := by cases h

def FinalCompletion : PersistedCompletion → Prop
  | .response r => asksForRetry r = false
  | .workbenchLaunchMarker => True

theorem finalCompletion_of_json {json : Json} {completion : PersistedCompletion}
    (hFinal : Final json) (h : persistedCompletionFromJson json = .ok completion) :
    FinalCompletion completion := by
  unfold persistedCompletionFromJson at h
  split at h
  · cases h
    trivial
  · split at h <;> cases h
    exact hFinal _ ‹_›

theorem FinalLedger.update {ledger : Ledger H} (h : FinalLedger ledger) {id : String}
    {row : Option (LedgerRow H)}
    (hRow : ∀ row' json, row = some row' → row'.responseJson = some json → Final json) :
    FinalLedger (Function.update ledger id row) := by
  intro id' row' json hStored hJson
  by_cases hId : id' = id
  · subst hId
    rw [Function.update_self] at hStored
    exact hRow row' json hStored hJson
  · rw [Function.update_of_ne hId] at hStored
    exact h id' row' json hStored hJson

theorem FinalLedger.pruneCompleted {ledger : Ledger H} (h : FinalLedger ledger) (now : Int) :
    FinalLedger (ledger.pruneCompleted now) := by
  intro id row json hStored hJson
  rw [Ledger.pruneCompleted, Option.filter_eq_some_iff] at hStored
  exact h id row json hStored.1 hJson

theorem FinalLedger.opened {ledger : Ledger H} (h : FinalLedger ledger) (now : Int) :
    FinalLedger (ledger.opened now) := by
  refine FinalLedger.pruneCompleted ?_ now
  intro id row json hStored hJson
  obtain ⟨row', hRow', rfl⟩ := Option.map_eq_some_iff.mp hStored
  unfold Ledger.sanitizedRow at hJson
  split at hJson
  · cases hJson
    exact final_marker
  · exact h id row' json hRow' hJson

variable [DecidableEq H]

theorem FinalLedger.reserve {ledger ledger' : Ledger H} (h : FinalLedger ledger) {id : String}
    {hashes : RequestHashes H} {effect : Effect} {recoveryClass : RecoveryClass}
    {instanceId : String} {now : Int} {res : Reservation}
    (hReserve : ledger.reserveCompatible id hashes effect recoveryClass instanceId now =
      .ok (res, ledger')) :
    FinalLedger ledger' ∧ ∀ completion, res = .replay completion → FinalCompletion completion := by
  cases hRow : ledger id with
  | none =>
    rw [Ledger.reserveCompatible_of_none _ _ _ _ _ hRow] at hReserve
    cases hReserve
    refine ⟨h.update fun row' json hRow' hJson => ?_, fun _ hRes => by cases hRes⟩
    cases hRow'
    cases hJson
  | some row =>
    obtain ⟨rfl, -⟩ := Ledger.reserveCompatible_of_some hRow hReserve
    refine ⟨h.update fun row' json hRow' hJson => ?_, fun completion hRes => ?_⟩
    · cases hRow'
      rw [Ledger.upgradeHash_responseJson] at hJson
      exact h id row json hRow hJson
    · subst hRes
      simp only [Ledger.reserveCompatible, hRow] at hReserve
      split at hReserve
      · split at hReserve
        · rename_i json hJson
          split at hReserve
          · rename_i hCompletion
            cases hReserve
            exact finalCompletion_of_json (h id row json hRow hJson) hCompletion
          · cases hReserve
        · cases hReserve
      · cases hReserve

theorem FinalLedger.record {ledger ledger' : Ledger H} (h : FinalLedger ledger) {id : String}
    {hash : H} {json : Json} {now : Int} {lost : String} (hFinal : Final json)
    (hRecord : ledger.recordCompletion id hash json now lost = .ok ledger') :
    FinalLedger ledger' := by
  obtain ⟨row, -, -, -, rfl⟩ := Ledger.recordCompletion_eq_ok hRecord
  refine h.update fun row' json' hRow' hJson => ?_
  cases hRow'
  cases hJson
  exact hFinal

theorem FinalLedger.abandon {ledger ledger' : Ledger H} (h : FinalLedger ledger) {id : String}
    {hash : H} {instanceId : String} (hAbandon : ledger.abandon id hash instanceId = .ok ledger') :
    FinalLedger ledger' := by
  obtain ⟨rfl, -⟩ := Ledger.abandon_eq_ok hAbandon
  exact h.update fun row' json hRow' => by cases hRow'

/-! ## The external paths -/

def FineExternal : ExternalPhase → Prop
  | .retaining _ _ r | .completing _ _ r _ => asksForRetry r = false
  | _ => True

theorem fine_of_not_holding {p : ExternalPhase} (h : External.holding p = none) :
    FineExternal p := by
  cases p <;> trivial

variable {path : ExternalPath} {fingerprint : RequestEnvelope → H} {i : ι} {w : World ι H}

omit [DecidableEq H] in
theorem Clean.withLedger (h : Clean w) {ledger : Ledger H} (hLedger : FinalLedger ledger) :
    Clean { w with ledger } :=
  ⟨hLedger, h.canonical, h.launches, h.terminal⟩

omit [DecidableEq H] in
theorem Clean.withLaunch (h : Clean w) (key : String × String) (launch : Option ResponseEnvelope)
    (hLaunch : ∀ r, launch = some r → asksForRetry r = false) :
    Clean { w with launches := Function.update w.launches key launch } := by
  refine ⟨h.ledger, h.canonical, fun key' r hStored => ?_, h.terminal⟩
  dsimp only at hStored
  by_cases hKey : key' = key
  · subst hKey
    rw [Function.update_self] at hStored
    exact hLaunch r hStored
  · rw [Function.update_of_ne hKey] at hStored
    exact h.launches key' r hStored

theorem external_reserve {c : Call} {now : Int} (h : Clean w) :
    Clean (External.reserve path fingerprint i c now w).2 ∧
      FineExternal (External.reserve path fingerprint i c now w).1 := by
  unfold External.reserve
  split
  · exact ⟨h, trivial⟩
  all_goals
    rename_i hReserve
    have hClean := h.withLedger (h.ledger.reserve hReserve).1
  · exact ⟨hClean, fine_of_not_holding (External.holding_replayPhase c _)⟩
  · exact ⟨hClean, trivial⟩
  · split <;> exact ⟨hClean, trivial⟩
  · exact ⟨⟨hClean.ledger, h.canonical, h.launches, h.terminal⟩, trivial⟩

theorem external_classify {c : Call} {run : Nat} {r : ResponseEnvelope} :
    FineExternal (External.classify path c run r) := by
  unfold External.classify
  split
  · trivial
  · split
    · trivial
    · rename_i hBusy hConfirm
      have hAsks : asksForRetry r = false := by
        simp only [asksForRetry, isTransientExecutionConfirmation, Bool.or_eq_false_iff]
        simpa [hBusy] using hConfirm
      cases path <;> exact hAsks

theorem external_abandon {c : Call} {run : Nat} {reply : ResponseEnvelope} (h : Clean w) :
    Clean (External.abandon fingerprint c run reply w).2 ∧
      FineExternal (External.abandon fingerprint c run reply w).1 := by
  unfold External.abandon
  split
  · exact ⟨h, trivial⟩
  · rename_i hAbandon
    exact ⟨⟨h.ledger.abandon hAbandon, h.canonical, h.launches, h.terminal⟩, trivial⟩

omit [DecidableEq H] in
theorem external_completeFailed {c : Call} {e : LedgerError} (h : Clean w) :
    Clean (External.completeFailed path c e w).2 ∧
      FineExternal (External.completeFailed path c e w).1 := by
  cases path with
  | execute => exact ⟨h, trivial⟩
  | workbenchLaunch => exact ⟨h.withLaunch _ none (fun r hNone => by cases hNone), trivial⟩

omit [DecidableEq H] in
theorem external_retain {c : Call} {r : ResponseEnvelope} (h : Clean w) (hr : asksForRetry r = false) :
    Clean (External.retain c r w) := by
  unfold External.retain
  split
  · refine h.withLaunch _ _ fun r' hSome => ?_
    cases hSome
    exact hr
  · exact h

theorem terminal_append {terminal : List (String × ResponseEnvelope)} {id : String}
    {r : ResponseEnvelope} (hr : asksForRetry r = false)
    (h : ∀ id r, (id, r) ∈ terminal → asksForRetry r = false) :
    ∀ id' r', (id', r') ∈ terminal ++ [(id, r)] → asksForRetry r' = false := by
  intro id' r' hMem
  rcases List.mem_append.mp hMem with hOld | hNew
  · exact h id' r' hOld
  · cases List.mem_singleton.mp hNew
    exact hr

theorem external_complete {c : Call} {r : ResponseEnvelope} {retained : Option LedgerError}
    {now : Int} (h : Clean w) (hr : asksForRetry r = false) :
    Clean (External.complete path fingerprint c r retained now w).2 ∧
      FineExternal (External.complete path fingerprint c r retained now w).1 := by
  cases path with
  | execute =>
    unfold External.complete
    dsimp only
    split
    · exact external_completeFailed h
    · rename_i hRecord
      exact ⟨⟨h.ledger.record (final_toJson hr) hRecord, h.canonical, h.launches,
        terminal_append hr h.terminal⟩, trivial⟩
  | workbenchLaunch =>
    unfold External.complete
    dsimp only
    split
    · exact external_completeFailed h
    · rename_i hRecord
      exact ⟨⟨h.ledger.record final_marker hRecord, h.canonical, h.launches,
        terminal_append hr h.terminal⟩, trivial⟩

theorem external_step {a : ExternalAction} {p : ExternalPhase} {q : ExternalPhase × World ι H}
    (h : Clean w) (hp : FineExternal p) (hStep : External.step path fingerprint i a p w = some q) :
    Clean q.2 ∧ FineExternal q.1 := by
  unfold External.step at hStep
  split at hStep <;> first | obtain rfl := Option.some.inj hStep | cases hStep
  case h_5 => exact external_reserve h
  case h_7 => exact ⟨h, fine_of_not_holding (External.poll_holding _ _ _ w)⟩
  case h_10 => exact ⟨⟨h.ledger, h.canonical, h.launches, h.terminal⟩, external_classify⟩
  case h_11 => exact external_abandon h
  case h_13 => exact ⟨external_retain h hp, hp⟩
  case h_15 => exact external_complete h hp
  case h_16 => exact external_completeFailed h
  case h_17 => exact ⟨h.withLedger (h.ledger.pruneCompleted _), trivial⟩
  case h_20 => exact ⟨h.withLedger (h.ledger.opened _), trivial⟩
  all_goals first | exact ⟨h, trivial⟩ | exact ⟨h, hp⟩

/-! ## The atomic path -/

def FineAtomic : AtomicPhase → Prop
  | .rollingBack _ _ core => asksForRetry core.response = false
  | .committing _ _ r | .finalizing _ _ r _ => asksForRetry r = false
  | .completing _ _ o _ => asksForRetry o.response = false
  | _ => True

theorem fine_giveUp {c : Call} {owns : Bool} {o : OutcomeExecution} {f : Bool} :
    FineAtomic (Atomic.giveUp c owns o f) := by
  unfold Atomic.giveUp
  split <;> trivial

theorem fine_afterCore {c : Call} {owns : Bool} {core : AtomicCoreExecution}
    (h : asksForRetry core.response = false) : FineAtomic (Atomic.afterCore c owns core) := by
  unfold Atomic.afterCore
  split
  · exact fine_giveUp
  · split <;> exact h

omit [DecidableEq H] in
theorem Clean.unlock (h : Clean w) : Clean (Atomic.unlock w) :=
  ⟨h.ledger, h.canonical, h.launches, h.terminal⟩

theorem atomic_reserve {c : Call} {now : Int} (h : Clean w) :
    Clean (Atomic.reserve fingerprint c now w).2 ∧
      FineAtomic (Atomic.reserve fingerprint c now w).1 := by
  unfold Atomic.reserve
  split
  · exact ⟨h, trivial⟩
  all_goals
    rename_i hReserve
    have hClean := h.withLedger (h.ledger.reserve hReserve).1
  case h_4 => split <;> [skip; split] <;> exact ⟨hClean, trivial⟩
  all_goals exact ⟨hClean, trivial⟩

theorem atomic_poll {c : Call} {owner : String} {past : Bool} :
    FineAtomic (Atomic.poll fingerprint c owner past w) := by
  unfold Atomic.poll
  split <;> trivial

theorem atomic_read {c : Call} {owns : Bool} (h : Clean w) :
    Clean (Atomic.read fingerprint i c owns w).2 ∧
      FineAtomic (Atomic.read fingerprint i c owns w).1 := by
  unfold Atomic.read
  split
  · rename_i row hRow
    split
    · exact ⟨h, asks_conflict _ _⟩
    · split
      · rename_i hRead
        exact ⟨h, h.canonical _ row hRow _ hRead⟩
      · exact ⟨h.unlock, fine_giveUp⟩
  · exact ⟨⟨h.ledger, h.canonical, h.launches, h.terminal⟩, trivial⟩

theorem atomic_respond {c : Call} {owns : Bool} {r : ResponseEnvelope}
    (h : asksForRetry r = false) : FineAtomic (Atomic.respond c owns r) := by
  unfold Atomic.respond
  split
  · exact (asks_congr rfl rfl).trans h
  · exact (asks_congr (r := r) rfl rfl).trans h

omit [DecidableEq H] in
theorem atomic_commit {c : Call} {owns : Bool} {r : ResponseEnvelope} {now : Int} (h : Clean w)
    (hr : asksForRetry r = false) :
    Clean (Atomic.commit fingerprint i c owns r now w).2 ∧
      FineAtomic (Atomic.commit fingerprint i c owns r now w).1 := by
  unfold Atomic.commit
  split
  · exact ⟨h.unlock, fine_giveUp⟩
  · refine ⟨⟨h.ledger, fun id row hRow => ?_, h.launches, terminal_append hr h.terminal⟩, hr⟩
    dsimp only at hRow
    by_cases hId : id = c.request.id
    · subst hId
      rw [Function.update_self] at hRow
      cases hRow
      exact final_toJson hr
    · rw [Function.update_of_ne hId] at hRow
      exact h.canonical id row hRow

theorem atomic_finalize {c : Call} {owns replayed : Bool} {r : ResponseEnvelope}
    {report : Except ResponseEnvelope (Option Json)} (hr : asksForRetry r = false) :
    FineAtomic (Atomic.finalize c owns r replayed report) := by
  unfold Atomic.finalize
  split
  · rename_i hFinal
    exact (asks_finalize hFinal).trans hr
  · exact fine_giveUp

theorem atomic_complete {c : Call} {owns f : Bool} {o : OutcomeExecution} {now : Int}
    (h : Clean w) (ho : asksForRetry o.response = false) :
    Clean (Atomic.complete fingerprint c owns o f now w).2 ∧
      FineAtomic (Atomic.complete fingerprint c owns o f now w).1 := by
  unfold Atomic.complete
  split
  · unfold Atomic.completeFailed
    split <;> exact ⟨h, trivial⟩
  · rename_i hRecord
    exact ⟨⟨h.ledger.record (final_toJson ho) hRecord, h.canonical, h.launches,
      terminal_append ho h.terminal⟩, trivial⟩

theorem atomic_abandon {c : Call} (h : Clean w) : Clean (Atomic.abandon fingerprint c w) := by
  unfold Atomic.abandon
  split
  · exact h
  · rename_i hAbandon
    exact h.withLedger (h.ledger.abandon hAbandon)

omit [DecidableEq H] in
theorem Clean.pruneCanonical (h : Clean w) (now : Int) :
    Clean (Atomic.pruneCanonicalOutcomes w now) := by
  refine ⟨h.ledger, fun id row hRow => ?_, h.launches, h.terminal⟩
  rw [Atomic.pruneCanonicalOutcomes, Option.filter_eq_some_iff] at hRow
  exact h.canonical id row hRow.1

variable [DecidableEq ι]

theorem atomic_step {a : AtomicAction} {p : AtomicPhase} {q : AtomicPhase × World ι H}
    (h : Clean w) (hp : FineAtomic p) (hHandler : ∀ r, a = .respond r → asksForRetry r = false)
    (hStep : Atomic.step fingerprint i a p w = some q) : Clean q.2 ∧ FineAtomic q.1 := by
  unfold Atomic.step at hStep
  split at hStep
  case h_13 => split at hStep <;> cases hStep; exact ⟨⟨h.1, h.2, h.3, h.4⟩, trivial⟩
  case h_31 => split at hStep <;> cases hStep; exact ⟨h.pruneCanonical _, trivial⟩
  all_goals first | obtain rfl := Option.some.inj hStep | cases hStep
  case h_5 => exact atomic_reserve h
  case h_7 => exact ⟨h, atomic_poll⟩
  case h_11 => exact ⟨h, by unfold Atomic.lookup; split <;> trivial⟩
  case h_14 => exact ⟨h, fine_giveUp⟩
  case h_15 => exact atomic_read h
  case h_16 => exact ⟨h.unlock, fine_giveUp⟩
  case h_17 =>
    exact ⟨⟨h.ledger, h.canonical, h.launches, h.terminal⟩, atomic_respond (hHandler _ rfl)⟩
  case h_18 => exact ⟨h.unlock, fine_afterCore hp⟩
  case h_19 => exact ⟨h.unlock, fine_giveUp⟩
  case h_20 => exact atomic_commit h hp
  case h_21 => exact ⟨h.unlock, fine_giveUp⟩
  case h_22 => exact ⟨h, atomic_finalize hp⟩
  case h_23 => exact atomic_complete h hp
  case h_24 => exact ⟨h, by unfold Atomic.completeFailed; split <;> trivial⟩
  case h_25 => exact ⟨h.withLedger (h.ledger.pruneCompleted _), trivial⟩
  case h_27 => exact ⟨atomic_abandon h, trivial⟩
  case h_29 => exact ⟨atomic_abandon h, trivial⟩
  case h_33 =>
    refine ⟨?_, trivial⟩
    unfold Atomic.crash
    split
    · exact h.unlock
    · exact h
  case h_34 => exact ⟨h.withLedger (h.ledger.opened _), trivial⟩
  all_goals exact ⟨h, trivial⟩

/-! ## Runs of all three paths -/

def Fine : RequestPhase → Prop
  | .external _ p => FineExternal p
  | .atomic p => FineAtomic p

variable (fingerprint) in
def systemStep : Interleaving ι RequestPhase (World ι H) → ι × RequestAction →
    Option (Interleaving ι RequestPhase (World ι H)) :=
  Interleaving.step (step fingerprint)

/-- The step is not a handler of the atomic path that returns a refusal. -/
def HandlerDecides (_ : Interleaving ι RequestPhase (World ι H)) (a : ι × RequestAction) : Prop :=
  ∀ r, a.2 = .atomic (.respond r) → asksForRetry r = false

theorem fine_of_isIdle {p : RequestPhase} (h : isIdle p = true) : Fine p := by
  cases p with
  | external path p => cases p <;> cases h; trivial
  | atomic p => cases p <;> cases h; trivial

theorem step_fine {a : RequestAction} {p : RequestPhase} {q : RequestPhase × World ι H}
    (h : Clean w) (hp : Fine p) (hHandler : ∀ r, a = .atomic (.respond r) → asksForRetry r = false)
    (hStep : step fingerprint i a p w = some q) : Clean q.2 ∧ Fine q.1 := by
  cases a with
  | external a =>
    cases p with
    | atomic p => cases hStep
    | external path p =>
      obtain ⟨q', hStep', rfl⟩ := Option.map_eq_some_iff.mp hStep
      exact external_step h hp hStep'
  | atomic a =>
    cases p with
    | external path p => cases hStep
    | atomic p =>
      obtain ⟨q', hStep', rfl⟩ := Option.map_eq_some_iff.mp hStep
      exact atomic_step h hp (fun r ha => hHandler r (congrArg _ ha)) hStep'
  | dispatch target =>
    rw [step] at hStep
    split at hStep
    · rename_i hDispatch
      obtain rfl := Option.some.inj hStep
      exact ⟨h, fine_of_isIdle (Bool.and_eq_true_iff.mp hDispatch).2⟩
    · cases hStep

variable {s t : Interleaving ι RequestPhase (World ι H)}

theorem holds_systemStep {a : ι × RequestAction} (hs : Interleaving.Holds Clean (fun _ p _ => Fine p) s)
    (hHandler : HandlerDecides s a) (h : systemStep fingerprint s a = some t) :
    Interleaving.Holds Clean (fun _ p _ => Fine p) t :=
  Interleaving.holds_step (fun _ _ hStep => step_fine hs.1 (hs.2 a.1) hHandler hStep)
    (fun _ _ _ _ hFine _ => hFine) hs h

/-- As long as no handler of the atomic path returns a refusal, no refusal is recorded
or replayed, and a request that was refused runs its handler again. -/
theorem refusals_not_recorded {as : List (ι × RequestAction)} (hClean : Clean s.shared)
    (hIdle : ∀ i, isIdle (s.thread i) = true)
    (hHandlers : Lib.Along (systemStep fingerprint) HandlerDecides s as)
    (hRun : Lib.run (systemStep fingerprint) s as = some t) :
    Clean t.shared ∧
    (∀ id hashes effect recoveryClass instanceId now completion ledger',
      t.shared.ledger.reserveCompatible id hashes effect recoveryClass instanceId now =
        .ok (.replay completion, ledger') → FinalCompletion completion) ∧
    (∀ i path c run reply t', t.thread i = .external path (.abandoning c run reply) →
      systemStep fingerprint t (i, .external .abandon) = some t' →
      t'.shared.ledger c.request.id = none ∨
        ∃ e, t'.thread i = .external path (.returned c (External.abandonFailed c e))) ∧
    (∀ i path c now, t.thread i = .external path (.reserving c) →
      t.shared.ledger c.request.id = none →
      ∃ t' run, systemStep fingerprint t (i, .external (.reserve now)) = some t' ∧
        t'.thread i = .external path (.executing c run)) := by
  have hHolds : Interleaving.Holds Clean (fun _ p _ => Fine p) t :=
    Lib.invariant_of_along (fun _ _ _ hs hHandler h => holds_systemStep hs hHandler h)
      ⟨hClean, fun i => fine_of_isIdle (hIdle i)⟩ hHandlers hRun
  refine ⟨hHolds.1, ?_, ?_, ?_⟩
  · intro id hashes effect recoveryClass instanceId now completion ledger' hReserve
    exact (hHolds.1.ledger.reserve hReserve).2 completion rfl
  · intro i path c run reply t' hThread hStep
    obtain ⟨p, w, hMove, rfl⟩ := Interleaving.step_eq_some.mp hStep
    rw [hThread] at hMove
    cases hMove
    simp only [Function.update_self]
    unfold External.abandon
    split
    · exact .inr ⟨_, rfl⟩
    · rename_i hAbandon
      obtain ⟨rfl, -⟩ := Ledger.abandon_eq_ok hAbandon
      exact .inl (Function.update_self ..)
  · intro i path c now hThread hRow
    let q := External.reserve path fingerprint i c now t.shared
    have hMove : step fingerprint i (.external (.reserve now)) (t.thread i) t.shared =
        some (.external path q.1, q.2) := by
      rw [hThread]
      rfl
    have hExecuting : q.1 = .executing c (t.shared.executions c.request.id).length := by
      simp only [q, External.reserve, Ledger.reserveCompatible_of_none _ _ _ _ _ hRow]
    refine ⟨_, (t.shared.executions c.request.id).length,
      Interleaving.step_eq_some.mpr ⟨_, _, hMove, rfl⟩, ?_⟩
    simp only [Function.update_self, hExecuting]

def busyResponse : ResponseEnvelope where
  protocolVersion := 1
  id := "r"
  status := .error
  result := none
  error := some ⟨.preconditionFailed, "RFC reconciliation is busy; retry later with the same request ID",
    some (.object [("kind", .string "daemon.busy"), ("reason", .string "rfc_reconcile_lock"),
      ("retryable", .bool true), ("retry_with_same_request_id", .bool true),
      ("request_outcome_checked", .bool false)])⟩
  effect := none

def rfcUpdate : Call :=
  ⟨⟨1, "r", .string "rfc.update", none, none, none, none⟩, .write, "a"⟩

/-- The handler is refused once, and the client sends the request again. -/
def refusedRun : List (Bool × RequestAction) :=
  [(false, .atomic (.call rfcUpdate)), (false, .atomic (.reserve 0)), (false, .atomic .begin),
    (false, .atomic .read), (false, .atomic (.respond busyResponse)), (false, .atomic .rollback),
    (false, .atomic (.complete 1)), (true, .atomic (.call rfcUpdate)),
    (true, .atomic (.reserve 2))]

/-- What the thread was answered: whether it is a refusal, and whether it was replayed. -/
def refusal : RequestPhase → Option (Bool × Bool)
  | .atomic (.returned _ o _) => some (asksForRetry o.response, o.replayed)
  | _ => none

/-- The atomic path records the refusal of its handler and replays it. -/
theorem refusal_replayed :
    (Lib.run (systemStep id) ⟨(.empty : World Bool RequestEnvelope), fun _ => .atomic .idle⟩
      refusedRun).map (fun t => (refusal (t.thread true), (t.shared.executions "r").length)) =
      some (some (true, true), 1) := by
  decide +kernel

def externalRefusedRun : List (Bool × RequestAction) :=
  [(false, .external (.call rfcUpdate)), (false, .external (.reserve 0)),
    (false, .external (.respond busyResponse)), (false, .external .abandon)]

theorem refusals_not_recorded_external :
    ∃ t : Interleaving Bool RequestPhase (World Bool RequestEnvelope),
      Lib.run (systemStep id) ⟨.empty, fun _ => .external .execute .idle⟩ externalRefusedRun =
        some t ∧ Clean t.shared ∧ (t.shared.ledger "r").isNone = true := by
  have hReleased : (Lib.run (systemStep id)
      ⟨(.empty : World Bool RequestEnvelope), fun _ => .external .execute .idle⟩
      externalRefusedRun).map (fun t => (t.shared.ledger "r").isNone) = some true := by
    decide +kernel
  obtain ⟨t, hRun, hNone⟩ := Option.map_eq_some_iff.mp hReleased
  refine ⟨t, hRun, (refusals_not_recorded clean_empty (fun _ => rfl)
    (Lib.along_of_mem fun _ a (ha : a ∈ externalRefusedRun) r h => ?_) hRun).1, hNone⟩
  simp only [externalRefusedRun, List.mem_cons, List.not_mem_nil, or_false] at ha
  rcases ha with rfl | rfl | rfl | rfl <;> cases h

end Refusals

end Exosuit.Daemon
