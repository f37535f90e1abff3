import Exosuit.Daemon.LaunchBearer

/-!
# Replays of launches

The launch path records nothing but markers, and a replayed launch is one that
the daemon itself has issued and still vouches for.
-/

namespace Exosuit.Daemon

open Lib (Json Interleaving)

namespace LaunchBearer

variable {ι H : Type*}

/-! ## What the launch path records -/

/-- The ledger keeps the response under the request id. -/
def Records (ledger : Ledger H) (id : String) (json : Json) : Prop :=
  ∃ row, ledger id = some row ∧ row.responseJson = some json

/-- Every recorded response is the marker, or was recorded before. -/
def RecordsMarkers (ledger ledger' : Ledger H) : Prop :=
  ∀ id json, Records ledger' id json →
    json = workbenchLaunchCompletionMarkerJson ∨ Records ledger id json

theorem recordsMarkers_refl (ledger : Ledger H) : RecordsMarkers ledger ledger :=
  fun _ _ h => .inr h

theorem RecordsMarkers.trans {ledger ledger' ledger'' : Ledger H} (h : RecordsMarkers ledger ledger')
    (h' : RecordsMarkers ledger' ledger'') : RecordsMarkers ledger ledger'' := by
  intro id json hRecords
  rcases h' id json hRecords with hMarker | hRecords
  · exact .inl hMarker
  · exact h id json hRecords

theorem recordsMarkers_update {ledger : Ledger H} {id : String} {row : Option (LedgerRow H)}
    (hRow : ∀ row' json, row = some row' → row'.responseJson = some json →
      json = workbenchLaunchCompletionMarkerJson ∨ Records ledger id json) :
    RecordsMarkers ledger (Function.update ledger id row) := by
  rintro id' json ⟨row', hStored, hJson⟩
  rcases eq_or_ne id' id with rfl | hId
  · rw [Function.update_self] at hStored
    exact hRow row' json hStored hJson
  · rw [Function.update_of_ne hId] at hStored
    exact .inr ⟨row', hStored, hJson⟩

theorem recordsMarkers_pruneCompleted (ledger : Ledger H) (now : Int) :
    RecordsMarkers ledger (ledger.pruneCompleted now) := by
  rintro id json ⟨row, hStored, hJson⟩
  rw [Ledger.pruneCompleted, Option.filter_eq_some_iff] at hStored
  exact .inr ⟨row, hStored.1, hJson⟩

theorem recordsMarkers_opened (ledger : Ledger H) (now : Int) :
    RecordsMarkers ledger (ledger.opened now) := by
  refine RecordsMarkers.trans ?_ (recordsMarkers_pruneCompleted _ now)
  rintro id json ⟨row, hStored, hJson⟩
  obtain ⟨row', hRow', rfl⟩ := Option.map_eq_some_iff.mp hStored
  unfold Ledger.sanitizedRow at hJson
  split at hJson
  · exact .inl (Option.some.inj hJson).symm
  · exact .inr ⟨row', hRow', hJson⟩

theorem recordsMarkers_replaceLegacy [DecidableEq H] (ledger : Ledger H) (id : String) (hash : H)
    (json : Json) :
    RecordsMarkers ledger (Dispatch.replaceLegacyWorkbenchLaunchResponse ledger id hash json) := by
  unfold Dispatch.replaceLegacyWorkbenchLaunchResponse
  split
  · split
    · refine recordsMarkers_update fun row' json' hRow hJson => ?_
      cases hRow
      exact .inl (Option.some.inj hJson).symm
    · exact recordsMarkers_refl ledger
  · exact recordsMarkers_refl ledger

theorem recordsMarkers_discard [DecidableEq H] (ledger : Ledger H) (id : String) (hash : H)
    (json : Json) : RecordsMarkers ledger (Dispatch.discardConfirmation ledger id hash json) := by
  unfold Dispatch.discardConfirmation
  split
  · split
    · exact recordsMarkers_update fun _ _ hRow => nomatch hRow
    · exact recordsMarkers_refl ledger
  · exact recordsMarkers_refl ledger

variable [DecidableEq H] {fingerprint : RequestEnvelope → H} {i : ι} {w : World ι H}

theorem move_records {a : ExternalAction} {p p' : ExternalPhase} {w' : World ι H}
    (h : External.Move .workbenchLaunch fingerprint i a p w p' w') :
    w'.canonical = w.canonical ∧ RecordsMarkers w.ledger w'.ledger := by
  cases h with
  | leave | drop | respond | retain => exact ⟨rfl, recordsMarkers_refl _⟩
  | clean now hLedger =>
    rcases hLedger with ⟨-, rfl⟩ | ⟨-, rfl⟩
    · exact ⟨rfl, recordsMarkers_pruneCompleted _ now⟩
    · exact ⟨rfl, recordsMarkers_opened _ now⟩
  | touch c row hRow =>
    refine ⟨rfl, recordsMarkers_update fun row' json hSome hJson => ?_⟩
    cases hSome
    rw [Ledger.upgradeHash_responseJson] at hJson
    exact .inr ⟨row, hRow, hJson⟩
  | acquire c now hRow =>
    refine ⟨rfl, recordsMarkers_update fun row' json hSome hJson => ?_⟩
    cases hSome
    cases hJson
  | release c run reply => exact ⟨rfl, recordsMarkers_update fun _ _ hSome => nomatch hSome⟩
  | record c run r e now row json hRow hJson =>
    refine ⟨rfl, recordsMarkers_update fun row' json' hSome hJson' => ?_⟩
    cases hSome
    exact .inl ((Option.some.inj hJson').symm.trans hJson)

/-- The action is one of the launch path, of the probe before it, or of neither other path. -/
def offOtherPaths : DaemonAction → Bool
  | .execute _ | .atomic _ => false
  | _ => true

variable [DecidableEq ι]

omit [DecidableEq H] in
theorem crash_records (w : World ι H) :
    (Atomic.crash i w).canonical = w.canonical ∧
      RecordsMarkers w.ledger (Atomic.crash i w).ledger := by
  unfold Atomic.crash
  split
  · exact ⟨rfl, recordsMarkers_refl _⟩
  · exact ⟨rfl, recordsMarkers_refl _⟩

theorem step_records {a : DaemonAction} {p : DaemonPhase H} {q : DaemonPhase H × World ι H}
    (ha : offOtherPaths a = true) (h : Dispatch.step fingerprint i a p w = some q) :
    q.2.canonical = w.canonical ∧ RecordsMarkers w.ledger q.2.ledger := by
  unfold Dispatch.step at h
  split at h
  case h_1 a p w =>
    split at h
    · obtain ⟨q', hStep, rfl⟩ := Option.map_eq_some_iff.mp h
      exact move_records (External.step_move hStep)
    · cases h
  case h_2 => cases ha
  case h_3 => cases ha
  case h_4 => split at h <;> cases h; exact ⟨rfl, recordsMarkers_refl _⟩
  case h_5 => split at h <;> cases h; exact ⟨rfl, recordsMarkers_refl _⟩
  case h_6 => split at h <;> cases h; exact ⟨rfl, recordsMarkers_refl _⟩
  case h_7 => cases h; exact ⟨rfl, recordsMarkers_replaceLegacy _ _ _ _⟩
  case h_9 => cases h; exact ⟨rfl, recordsMarkers_discard _ _ _ _⟩
  case h_12 =>
    cases h
    exact crash_records w
  all_goals
    cases h
    try exact ⟨rfl, recordsMarkers_refl _⟩

theorem run_records {s t : DaemonState ι H} {labels : List (ι × DaemonAction)}
    (hLabels : ∀ a ∈ labels, offOtherPaths a.2 = true)
    (hRun : Lib.run (daemonStep fingerprint) s labels = some t) :
    t.shared.canonical = s.shared.canonical ∧ RecordsMarkers s.shared.ledger t.shared.ledger := by
  have hStep : ∀ (u : DaemonState ι H) a u', (u.shared.canonical = s.shared.canonical ∧
      RecordsMarkers s.shared.ledger u.shared.ledger) → offOtherPaths a.2 = true →
      daemonStep fingerprint u a = some u' →
      u'.shared.canonical = s.shared.canonical ∧ RecordsMarkers s.shared.ledger u'.shared.ledger := by
    intro u a u' ⟨hCanonical, hLedger⟩ ha hStep
    obtain ⟨p, w, hMove, rfl⟩ := Interleaving.step_eq_some.mp hStep
    obtain ⟨hCanonical', hLedger'⟩ := step_records ha hMove
    exact ⟨hCanonical'.trans hCanonical, hLedger.trans hLedger'⟩
  exact Lib.invariant_of_along hStep ⟨rfl, recordsMarkers_refl _⟩
    (Lib.along_of_mem fun _ a ha => hLabels a ha) hRun

/-! ## What a replay answers -/

/-- A launch of the request has answered with the response, in a daemon of the instance. -/
def Issued (fingerprint : RequestEnvelope → H) (s : DaemonState ι H)
    (labels : List (ι × DaemonAction)) (key : String × String) (r : ResponseEnvelope) : Prop :=
  ∃ before i after c run u, labels = before ++ (i, .launch (.respond r)) :: after ∧
    Lib.run (daemonStep fingerprint) s before = some u ∧
    u.thread i = .running (.external .workbenchLaunch (.executing c run)) ∧
    key = (c.instanceId, c.request.id)

theorem Issued.append {s : DaemonState ι H} {labels : List (ι × DaemonAction)} {key : String × String}
    {r : ResponseEnvelope} (h : Issued fingerprint s labels key r) (a : ι × DaemonAction) :
    Issued fingerprint s (labels ++ [a]) key r := by
  obtain ⟨before, i, after, c, run, u, rfl, hRest⟩ := h
  exact ⟨before, i, after ++ [a], c, run, u, by simp, hRest⟩

/-- What is kept of launches: in memory for replays, and in the threads that retain one. -/
def Keeps (Q : String × String → ResponseEnvelope → Prop) : DaemonPhase H → Prop
  | .running (.external .workbenchLaunch (.retaining c _ r)) => Q (c.instanceId, c.request.id) r
  | .running (.external .workbenchLaunch (.pruning _ o)) => o.replayed = false
  | _ => True

omit [DecidableEq H] [DecidableEq ι] in
theorem Keeps.mono {Q Q' : String × String → ResponseEnvelope → Prop} (hQ : ∀ key r, Q key r → Q' key r)
    {p : DaemonPhase H} (h : Keeps Q p) : Keeps Q' p := by
  unfold Keeps at h ⊢
  split
  · exact hQ _ _ h
  · exact h
  · trivial

def AllKept (Q : String × String → ResponseEnvelope → Prop) (w : World ι H) : Prop :=
  ∀ key r, w.launches key = some r → Q key r

section Keeping

variable {Q : String × String → ResponseEnvelope → Prop} {c : Call}

omit [DecidableEq H] [DecidableEq ι] in
theorem AllKept.withLaunch (h : AllKept Q w) {key : String × String} {launch : Option ResponseEnvelope}
    (hLaunch : ∀ r, launch = some r → Q key r) :
    AllKept Q { w with launches := Function.update w.launches key launch } := by
  intro key' r hStored
  dsimp only at hStored
  rcases eq_or_ne key' key with rfl | hKey
  · rw [Function.update_self] at hStored
    exact hLaunch r hStored
  · rw [Function.update_of_ne hKey] at hStored
    exact h key' r hStored

abbrev KeepsLaunch (H : Type*) (Q : String × String → ResponseEnvelope → Prop) (p : ExternalPhase) : Prop :=
  Keeps Q (.running (.external .workbenchLaunch p) : DaemonPhase H)

omit [DecidableEq ι] in
theorem keeps_reserve (h : AllKept Q w) (now : Int) :
    AllKept Q (External.reserve .workbenchLaunch fingerprint i c now w).2 ∧
      KeepsLaunch H Q (External.reserve .workbenchLaunch fingerprint i c now w).1 := by
  unfold External.reserve
  split
  case h_4 => split <;> exact ⟨h, trivial⟩
  all_goals exact ⟨h, trivial⟩

omit [DecidableEq ι] in
theorem keeps_poll (owner : String) (past : Bool) :
    KeepsLaunch H Q (External.poll .workbenchLaunch fingerprint c owner past w) := by
  unfold External.poll
  split <;> trivial

omit [DecidableEq H] [DecidableEq ι] in
theorem keeps_classify (run : Nat) {r : ResponseEnvelope} (h : Q (c.instanceId, c.request.id) r) :
    KeepsLaunch H Q (External.classify .workbenchLaunch c run r) := by
  unfold External.classify
  split
  · trivial
  · split
    · trivial
    · exact h

omit [DecidableEq ι] in
theorem keeps_abandon (h : AllKept Q w) (run : Nat) (reply : ResponseEnvelope) :
    AllKept Q (External.abandon fingerprint c run reply w).2 ∧
      KeepsLaunch H Q (External.abandon fingerprint c run reply w).1 := by
  unfold External.abandon
  split <;> exact ⟨h, trivial⟩

omit [DecidableEq H] [DecidableEq ι] in
theorem keeps_retain (h : AllKept Q w) {r : ResponseEnvelope} (hr : Q (c.instanceId, c.request.id) r) :
    AllKept Q (External.retain c r w) := by
  unfold External.retain
  split
  · refine h.withLaunch fun r' hSome => ?_
    cases hSome
    exact hr
  · exact h

omit [DecidableEq H] [DecidableEq ι] in
theorem keeps_completeFailed (h : AllKept Q w) (e : LedgerError) :
    AllKept Q (External.completeFailed .workbenchLaunch c e w).2 :=
  h.withLaunch fun _ hNone => nomatch hNone

omit [DecidableEq ι] in
theorem keeps_complete (h : AllKept Q w) (r : ResponseEnvelope) (e : Option LedgerError) (now : Int) :
    AllKept Q (External.complete .workbenchLaunch fingerprint c r e now w).2 ∧
      KeepsLaunch H Q (External.complete .workbenchLaunch fingerprint c r e now w).1 := by
  have hReply : (External.completedReply c r e).replayed = false := by cases e <;> rfl
  unfold External.complete
  dsimp only
  split
  · exact ⟨keeps_completeFailed h _, trivial⟩
  · exact ⟨h, hReply⟩

omit [DecidableEq ι] in
theorem launch_step_keeps {a : ExternalAction} {p : ExternalPhase} {q : ExternalPhase × World ι H}
    (h : AllKept Q w) (hp : KeepsLaunch H Q p)
    (hRespond : ∀ c run r, p = .executing c run → a = .respond r → Q (c.instanceId, c.request.id) r)
    (hStep : External.step .workbenchLaunch fingerprint i a p w = some q) :
    AllKept Q q.2 ∧ KeepsLaunch H Q q.1 := by
  unfold External.step at hStep
  split at hStep <;> first | obtain rfl := Option.some.inj hStep | cases hStep
  case h_5 => exact keeps_reserve h _
  case h_7 => exact ⟨h, keeps_poll _ _⟩
  case h_10 r c run => exact ⟨h, keeps_classify run (hRespond c run r rfl rfl)⟩
  case h_11 => exact keeps_abandon h _ _
  case h_13 => exact ⟨keeps_retain h hp, trivial⟩
  case h_15 => exact keeps_complete h _ _ _
  case h_16 => exact ⟨keeps_completeFailed h _, trivial⟩
  all_goals exact ⟨h, trivial⟩

omit [DecidableEq ι] in
theorem reserve_answer {now : Int} {c' : Call} {o : OutcomeExecution}
    (h : (External.reserve .workbenchLaunch fingerprint i c now w).1 = .returned c' o) :
    o.replayed = false := by
  unfold External.reserve at h
  split at h
  case h_4 => split at h <;> cases h; rfl
  all_goals cases h
  all_goals rfl

omit [DecidableEq ι] in
theorem poll_answer {owner : String} {past : Bool} {c' : Call} {o : OutcomeExecution}
    (h : External.poll .workbenchLaunch fingerprint c owner past w = .returned c' o) :
    o.replayed = false := by
  unfold External.poll at h
  split at h <;> cases h
  · rfl
  · rfl

omit [DecidableEq H] [DecidableEq ι] in
theorem classify_answer {run : Nat} {r : ResponseEnvelope} {c' : Call} {o : OutcomeExecution} :
    External.classify .workbenchLaunch c run r ≠ .returned c' o := by
  unfold External.classify
  split
  · exact nofun
  · split
    · exact nofun
    · exact nofun

omit [DecidableEq ι] in
theorem abandon_answer {run : Nat} {reply : ResponseEnvelope} {c' : Call} {o : OutcomeExecution}
    (h : (External.abandon fingerprint c run reply w).1 = .returned c' o) : o.replayed = false := by
  unfold External.abandon at h
  split at h <;> cases h
  · rfl
  · rfl

omit [DecidableEq ι] in
theorem complete_answer {r : ResponseEnvelope} {e : Option LedgerError} {now : Int} {c' : Call}
    {o : OutcomeExecution}
    (h : (External.complete .workbenchLaunch fingerprint c r e now w).1 = .returned c' o) :
    o.replayed = false := by
  unfold External.complete at h
  dsimp only at h
  split at h <;> cases h
  rfl

omit [DecidableEq ι] in
theorem launch_step_answer {a : ExternalAction} {p : ExternalPhase} {q : ExternalPhase × World ι H}
    {o : OutcomeExecution} (hp : KeepsLaunch H Q p)
    (hStep : External.step .workbenchLaunch fingerprint i a p w = some q)
    (hAnswer : q.1 = .returned c o) (hReplayed : o.replayed = true) :
    ∃ current completion, a = .replay current ∧
      o.response = External.replayWorkbenchLaunchCompletion c.request.id c.effect
        (if current then w.launches (c.instanceId, c.request.id) else none) completion := by
  have hFresh : o.replayed ≠ false := by simp [hReplayed]
  unfold External.step at hStep
  split at hStep <;> first | obtain rfl := Option.some.inj hStep | cases hStep
  case h_5 => exact absurd (reserve_answer hAnswer) hFresh
  case h_7 => exact absurd (poll_answer hAnswer) hFresh
  case h_9 current c' completion => 
    cases hAnswer
    exact ⟨current, completion, rfl, rfl⟩
  case h_10 => exact absurd hAnswer classify_answer
  case h_11 => exact absurd (abandon_answer hAnswer) hFresh
  case h_15 => exact absurd (complete_answer hAnswer) hFresh
  case h_17 =>
    cases hAnswer
    exact absurd hp hFresh
  case h_18 =>
    cases hAnswer
    exact absurd hp hFresh
  all_goals cases hAnswer
  all_goals exact absurd rfl hFresh

omit [DecidableEq ι] in
theorem execute_launches {a : ExternalAction} {p : ExternalPhase} {q : ExternalPhase × World ι H}
    (hAdmits : Dispatch.admits false a = true)
    (hStep : External.step .execute fingerprint i a p w = some q) : q.2.launches = w.launches := by
  unfold External.step at hStep
  split at hStep <;> first | obtain rfl := Option.some.inj hStep | cases hStep
  case h_5 =>
    unfold External.reserve
    split
    case h_4 => split <;> rfl
    all_goals rfl
  case h_11 =>
    unfold External.abandon
    split <;> rfl
  case h_13 => cases hAdmits
  case h_15 =>
    unfold External.complete
    dsimp only
    split <;> rfl
  all_goals rfl

theorem atomic_launches {a : AtomicAction} {p : AtomicPhase} {q : AtomicPhase × World ι H}
    (hStep : Atomic.step fingerprint i a p w = some q) : q.2.launches = w.launches := by
  have hAbandon : ∀ c, (Atomic.abandon fingerprint c w).launches = w.launches := by
    intro c
    unfold Atomic.abandon
    split <;> rfl
  unfold Atomic.step at hStep
  split at hStep
  case h_13 => split at hStep <;> cases hStep; rfl
  case h_31 => split at hStep <;> cases hStep; rfl
  all_goals first | obtain rfl := Option.some.inj hStep | cases hStep
  case h_5 =>
    unfold Atomic.reserve
    split
    case h_4 => split <;> [rfl; (split <;> rfl)]
    all_goals rfl
  case h_15 =>
    unfold Atomic.read
    split
    · split
      · rfl
      · split <;> rfl
    · rfl
  case h_20 =>
    unfold Atomic.commit
    split <;> rfl
  case h_23 =>
    unfold Atomic.complete
    split <;> rfl
  case h_27 => exact hAbandon _
  case h_29 => exact hAbandon _
  case h_33 =>
    unfold Atomic.crash
    split <;> rfl
  all_goals rfl

omit [DecidableEq ι] in
theorem keeps_terminalOutcome : Keeps Q (Dispatch.terminalOutcome fingerprint c w) := by
  unfold Dispatch.terminalOutcome
  repeat' split
  all_goals trivial

omit [DecidableEq H] [DecidableEq ι] in
theorem keeps_isIdle {p : RequestPhase} (h : Refusals.isIdle p = true) :
    Keeps Q (.running p : DaemonPhase H) := by
  unfold Refusals.isIdle at h
  split at h
  · next path => cases path <;> trivial
  · trivial
  · cases h

theorem step_keeps {a : DaemonAction} {p : DaemonPhase H} {q : DaemonPhase H × World ι H}
    (h : AllKept Q w) (hp : Keeps Q p)
    (hRespond : ∀ c run r, p = .running (.external .workbenchLaunch (.executing c run)) →
      a = .launch (.respond r) → Q (c.instanceId, c.request.id) r)
    (hStep : Dispatch.step fingerprint i a p w = some q) : AllKept Q q.2 ∧ Keeps Q q.1 := by
  unfold Dispatch.step at hStep
  split at hStep
  case h_1 a p w =>
    split at hStep
    · obtain ⟨q', hStep', rfl⟩ := Option.map_eq_some_iff.mp hStep
      exact launch_step_keeps h hp
        (fun c run r hp' ha => hRespond c run r (by rw [hp']) (by rw [ha])) hStep'
    · cases hStep
  case h_2 =>
    split at hStep
    · next hAdmits =>
      obtain ⟨q', hStep', rfl⟩ := Option.map_eq_some_iff.mp hStep
      refine ⟨?_, trivial⟩
      rw [AllKept, execute_launches hAdmits hStep']
      exact h
    · cases hStep
  case h_3 =>
    split at hStep
    · obtain ⟨q', hStep', rfl⟩ := Option.map_eq_some_iff.mp hStep
      refine ⟨?_, trivial⟩
      rw [AllKept, atomic_launches hStep']
      exact h
    · cases hStep
  case h_4 =>
    split at hStep
    · next hIdle =>
      cases hStep
      exact ⟨h, keeps_isIdle (Bool.and_eq_true_iff.mp hIdle).2⟩
    · cases hStep
  case h_5 => split at hStep <;> cases hStep; exact ⟨h, keeps_terminalOutcome⟩
  case h_6 => split at hStep <;> cases hStep; exact ⟨h, trivial⟩
  case h_12 =>
    cases hStep
    refine ⟨?_, trivial⟩
    dsimp only [Dispatch.crash, Atomic.crash]
    split <;> exact h
  all_goals
    cases hStep
    try exact ⟨h, trivial⟩

omit [DecidableEq ι] in
theorem terminalOutcome_answer {c' : Call} {o : OutcomeExecution}
    (h : Dispatch.launchAnswer (Dispatch.terminalOutcome fingerprint c w) = some (c', o)) :
    o.replayed = false := by
  have hProbed : ∀ o', Dispatch.launchAnswer (.probed c (some o') : DaemonPhase H) = some (c', o) →
      isWorkbenchLaunchRequest c.request = true ∧ o' = o := by
    intro o' hSome
    unfold Dispatch.launchAnswer at hSome
    dsimp only at hSome
    split at hSome
    · next hLaunch => exact ⟨hLaunch, (Prod.mk.inj (Option.some.inj hSome)).2⟩
    · cases hSome
  unfold Dispatch.terminalOutcome at h
  split at h
  · cases h
  split at h
  · cases h
  split at h
  · rw [← (hProbed _ h).2]
  split at h
  · cases h
  split at h
  · cases h
  split at h
  · cases h
  split at h
  · cases h
  next hNotLaunch =>
    split at h
    · cases h
    · split at h
      · cases h
      · exact absurd (hProbed _ h).1 hNotLaunch

omit [DecidableEq H] [DecidableEq ι] in
theorem launchAnswer_isIdle {p : RequestPhase} (h : Refusals.isIdle p = true) :
    Dispatch.launchAnswer (.running p : DaemonPhase H) = none := by
  unfold Refusals.isIdle at h
  split at h
  · next path => cases path <;> rfl
  · rfl
  · cases h

def vouches : DaemonAction → Bool
  | .launch (.replay current) | .answer current => current
  | _ => false

theorem step_answer {a : DaemonAction} {p : DaemonPhase H} {q : DaemonPhase H × World ι H}
    {o : OutcomeExecution} (hp : Keeps Q p) (hStep : Dispatch.step fingerprint i a p w = some q)
    (hAnswer : Dispatch.launchAnswer q.1 = some (c, o)) (hReplayed : o.replayed = true) :
    ∃ effect completion, o.response = External.replayWorkbenchLaunchCompletion c.request.id effect
      (if vouches a then w.launches (c.instanceId, c.request.id) else none) completion := by
  unfold Dispatch.step at hStep
  split at hStep
  case h_1 a p w =>
    split at hStep
    · obtain ⟨⟨p', w'⟩, hStep', rfl⟩ := Option.map_eq_some_iff.mp hStep
      have hReturned : p' = .returned c o := by
        cases p' <;> cases hAnswer
        rfl
      obtain ⟨current, completion, rfl, hResponse⟩ := launch_step_answer hp hStep' hReturned hReplayed
      exact ⟨_, completion, hResponse⟩
    · cases hStep
  case h_2 =>
    split at hStep
    · obtain ⟨q', hStep', rfl⟩ := Option.map_eq_some_iff.mp hStep
      cases hAnswer
    · cases hStep
  case h_3 =>
    split at hStep
    · obtain ⟨q', hStep', rfl⟩ := Option.map_eq_some_iff.mp hStep
      cases hAnswer
    · cases hStep
  case h_4 =>
    split at hStep
    · next hIdle =>
      cases hStep
      rw [launchAnswer_isIdle (Bool.and_eq_true_iff.mp hIdle).2] at hAnswer
      cases hAnswer
    · cases hStep
  case h_5 =>
    split at hStep <;> cases hStep
    rw [terminalOutcome_answer hAnswer] at hReplayed
    cases hReplayed
  case h_6 => split at hStep <;> cases hStep; cases hAnswer
  case h_11 =>
    cases hStep
    dsimp only [Dispatch.answer, Dispatch.launchAnswer] at hAnswer
    split at hAnswer
    · cases hAnswer
      exact ⟨_, _, rfl⟩
    · cases hAnswer
  all_goals
    cases hStep
    try cases hAnswer

end Keeping

theorem replay_response (id : String) (effect : Effect) (retained : Option ResponseEnvelope)
    (completion : PersistedCompletion) :
    External.replayWorkbenchLaunchCompletion id effect retained completion =
        workbenchLaunchReplayUnavailableResponse id effect ∨
      ∃ r, retained = some r ∧
        External.replayWorkbenchLaunchCompletion id effect retained completion = { r with id } := by
  cases completion with
  | response r => exact .inl rfl
  | workbenchLaunchMarker =>
    cases retained with
    | none => exact .inl rfl
    | some r => exact .inr ⟨r, rfl, rfl⟩

/-! ## Runs -/

variable {s t : DaemonState ι H} {labels : List (ι × DaemonAction)}

theorem run_keeps (hIdle : ∀ i, ∃ p, s.thread i = .running p ∧ Refusals.isIdle p = true)
    (hLaunches : ∀ key, s.shared.launches key = none)
    (hRun : Lib.run (daemonStep fingerprint) s labels = some t) :
    Interleaving.Holds (AllKept (Issued fingerprint s labels))
      (fun _ p _ => Keeps (Issued fingerprint s labels) p) t := by
  have hStart : Lib.run (daemonStep fingerprint) s [] = some s ∧
      Interleaving.Holds (AllKept (Issued fingerprint s []))
        (fun _ p _ => Keeps (Issued fingerprint s []) p) s := by
    refine ⟨rfl, fun key r hStored => ?_, fun i => ?_⟩
    · rw [hLaunches] at hStored
      cases hStored
    · obtain ⟨p, hThread, hp⟩ := hIdle i
      rw [hThread]
      exact keeps_isIdle hp
  refine (Lib.history_of_step (I := fun labels u => Lib.run (daemonStep fingerprint) s labels = some u ∧
    Interleaving.Holds (AllKept (Issued fingerprint s labels))
      (fun _ p _ => Keeps (Issued fingerprint s labels) p) u) hStart ?_ hRun).2
  intro labels u a u' ⟨hReach, hHolds⟩ hStep
  have hMono : ∀ key r, Issued fingerprint s labels key r → Issued fingerprint s (labels ++ [a]) key r :=
    fun key r h => h.append a
  refine ⟨?_, ?_⟩
  · rw [Lib.run_append, hReach]
    exact (Lib.run_cons_eq_some _).mpr ⟨u', hStep, rfl⟩
  · refine Interleaving.holds_step (fun p w hMove => ?_) (fun _ _ _ _ hKept _ => hKept)
      ⟨fun key r hStored => hMono key r (hHolds.1 key r hStored), fun i => (hHolds.2 i).mono hMono⟩ hStep
    refine step_keeps (fun key r hStored => hMono key r (hHolds.1 key r hStored))
      ((hHolds.2 a.1).mono hMono) (fun c run r hThread hLabel => ?_) hMove
    exact ⟨labels, a.1, [], c, run, u, by rw [← hLabel], hReach, hThread, rfl⟩

/-- Whatever bearers the launches of a run carry, the persisted state is the same; a step of
the launch path or of the probe persists nothing but markers; and a launch is replayed only
while the daemon that has issued it vouches for it. -/
theorem launch_bearers_stay_in_memory
    (hIdle : ∀ i, ∃ p, s.thread i = .running p ∧ Refusals.isIdle p = true)
    (hLaunches : ∀ key, s.shared.launches key = none)
    (hRun : Lib.run (daemonStep fingerprint) s labels = some t) :
    (∀ labels', labels'.map (Prod.map id eraseAction) = labels.map (Prod.map id eraseAction) →
      ∃ t', Lib.run (daemonStep fingerprint) s labels' = some t' ∧
        t'.shared.ledger = t.shared.ledger ∧ t'.shared.canonical = t.shared.canonical) ∧
    ((∀ a ∈ labels, offOtherPaths a.2 = true) →
      t.shared.canonical = s.shared.canonical ∧ RecordsMarkers s.shared.ledger t.shared.ledger) ∧
    (∀ a u, daemonStep fingerprint t a = some u → offOtherPaths a.2 = true →
      u.shared.canonical = t.shared.canonical ∧ RecordsMarkers t.shared.ledger u.shared.ledger) ∧
    (∀ a u c o, daemonStep fingerprint t a = some u →
      Dispatch.launchAnswer (u.thread a.1) = some (c, o) → o.replayed = true →
      (∃ effect, o.response = workbenchLaunchReplayUnavailableResponse c.request.id effect) ∨
      (vouches a.2 = true ∧ ∃ r, t.shared.launches (c.instanceId, c.request.id) = some r ∧
        o.response = { r with id := c.request.id } ∧
        Issued fingerprint s labels (c.instanceId, c.request.id) r)) := by
  refine ⟨fun labels' hSame => run_with_other_bearers hSame hRun, fun hLabels => run_records hLabels hRun,
    fun a u hStep ha => ?_, fun a u c o hStep hAnswer hReplayed => ?_⟩
  · obtain ⟨p, w, hMove, rfl⟩ := Interleaving.step_eq_some.mp hStep
    exact step_records ha hMove
  · obtain ⟨p, w, hMove, rfl⟩ := Interleaving.step_eq_some.mp hStep
    dsimp only at hAnswer
    rw [Function.update_self] at hAnswer
    have hKept := run_keeps hIdle hLaunches hRun
    obtain ⟨effect, completion, hResponse⟩ := step_answer (hKept.2 a.1) hMove hAnswer hReplayed
    rcases replay_response c.request.id effect _ completion with hNone | ⟨r, hRetained, hEq⟩
    · exact .inl ⟨effect, hResponse.trans hNone⟩
    · split at hRetained
      · next hVouches =>
        exact .inr ⟨hVouches, r, hRetained, hResponse.trans hEq, hKept.1 _ r hRetained⟩
      · cases hRetained

def launchRequest : RequestEnvelope where
  protocolVersion := 1
  id := "r"
  op := .object [("kind", .string "call"), ("params", .object [("address", .object
    [("kind", .string "operation"), ("path", .array [.string "workbench", .string "launch"])]),
    ("input", .object [])])]
  workspaceRoot := none
  auth := none
  workflowConfirmation := none
  agentId := none

def launchResponse (url : String) : ResponseEnvelope where
  protocolVersion := 1
  id := "r"
  status := .ok
  result := some (.object [("kind", .string "workbench.launch"), ("url", .string url)])
  error := none
  effect := some .exec

/-- A launch that is answered, recorded and asked for again. -/
def launchRun (url : String) : List (Bool × DaemonAction) :=
  [.launch (.call ⟨launchRequest, .exec, "a"⟩), .launch (.reserve 0),
    .launch (.respond (launchResponse url)), .launch .retain, .launch (.complete 1),
    .launch .pruneFails, .probe ⟨launchRequest, .exec, "a"⟩].map (false, ·)

def launchStart : DaemonState Bool RequestEnvelope :=
  ⟨.empty, fun _ => .running (.external .workbenchLaunch .idle)⟩

/-- The next step replays the bearer: the daemon still vouches for the launch. -/
example : ((Lib.run (daemonStep id) launchStart
    (launchRun "http://127.0.0.1/#ticket=s" ++ [(false, .answer true)])).bind fun t =>
      (Dispatch.launchAnswer (t.thread false)).bind fun answer => answer.2.response.result) =
    (launchResponse "http://127.0.0.1/#ticket=s").result := by
  decide +kernel

theorem launch_bearers_stay_in_memory_sample :
    ∃ t t' : DaemonState Bool RequestEnvelope,
      Lib.run (daemonStep id) launchStart (launchRun "http://127.0.0.1/#ticket=s") = some t ∧
      Lib.run (daemonStep id) launchStart (launchRun "http://127.0.0.1/#ticket=u") = some t' ∧
      t'.shared.ledger = t.shared.ledger ∧ t'.shared.canonical = t.shared.canonical := by
  have hRuns : (Lib.run (daemonStep id) launchStart
      (launchRun "http://127.0.0.1/#ticket=s")).isSome = true := by
    decide +kernel
  obtain ⟨t, hRun⟩ := Option.isSome_iff_exists.mp hRuns
  obtain ⟨t', hRun', hEq⟩ := (launch_bearers_stay_in_memory (fun _ => ⟨_, rfl, rfl⟩) (fun _ => rfl)
    hRun).1 (launchRun "http://127.0.0.1/#ticket=u") rfl
  exact ⟨t, t', hRun, hRun', hEq⟩

end LaunchBearer

end Exosuit.Daemon
