import Exosuit.Lib.Interleaving
import Exosuit.Daemon.Reservation

/-!
# External effects run at most once

The threads of any number of daemon instances run `execute` over one ledger, in
any order and with crashes at any point.
-/

namespace Exosuit.Daemon.External

open Lib (Json Interleaving)

variable {ι H : Type*} {fingerprint : RequestEnvelope → H} {rid : String} [DecidableEq H]

/-! ## What a call answers -/

/-- What a call gets once `x` has completed with `r`. -/
def Answers (x : Execution ι) (r : ResponseEnvelope) (c : Call) (o : OutcomeExecution) : Prop :=
  (SamePayload c.request x.call.request → o = ⟨r.readBack, true⟩) ∧
    (¬ SamePayload c.request x.call.request →
      o = ⟨requestIdConflictResponse c.request.id c.effect, false⟩)

/-- The report of a request that is in flight or was reused. -/
def Reports (c : Call) (o : OutcomeExecution) : Prop :=
  o = ⟨requestIdConflictResponse c.request.id c.effect, false⟩ ∨
    ∃ owner previous, o = ⟨inFlightResponse c.request.id c.effect owner previous, false⟩

theorem reserve_completed (hInjective : Function.Injective fingerprint) {i : ι} {c : Call}
    {now : Int} {w : World ι H} {row : LedgerRow H} {r : ResponseEnvelope} {x : Execution ι}
    (hRow : w.ledger c.request.id = some row) (hJson : row.responseJson = some r.toJson)
    (hHash : row.requestHash = fingerprint { x.call.request with auth := none }) :
    ∃ o, (reserve .execute fingerprint i c now w).1 = .returned c o ∧ Answers x r c o := by
  by_cases hSame : SamePayload c.request x.call.request
  · have hMatches := (matches_iff_samePayload hInjective c.request x.call.request).mpr hSame
    rw [← hHash] at hMatches
    refine ⟨⟨r.readBack, true⟩, ?_, fun _ => rfl, fun h => absurd hSame h⟩
    rw [reserve, Ledger.reserveCompatible_of_response _ _ _ _ hRow hJson hMatches]
    rfl
  · have hConflict := mt (matches_iff_samePayload hInjective c.request x.call.request).mp hSame
    rw [← hHash] at hConflict
    refine ⟨_, ?_, fun h => absurd h hSame, fun _ => rfl⟩
    rw [reserve, Ledger.reserveCompatible_of_conflict _ _ _ _ hRow hConflict]

theorem reserve_conflict (hInjective : Function.Injective fingerprint) {i : ι} {c : Call}
    {now : Int} {w : World ι H} {row : LedgerRow H} {q : RequestEnvelope}
    (hRow : w.ledger c.request.id = some row)
    (hHash : row.requestHash = fingerprint { q with auth := none })
    (hOther : ¬ SamePayload c.request q) :
    reserve .execute fingerprint i c now w =
      (.returned c ⟨requestIdConflictResponse c.request.id c.effect, false⟩, w) := by
  have hConflict := mt (matches_iff_samePayload hInjective c.request q).mp hOther
  rw [← hHash] at hConflict
  rw [reserve, Ledger.reserveCompatible_of_conflict _ _ _ _ hRow hConflict]

theorem reserve_orphaned (fingerprint : RequestEnvelope → H) (i : ι) (now : Int) {c : Call}
    {w : World ι H} {row : LedgerRow H}
    (hRow : w.ledger c.request.id = some row) (hOpen : row.responseJson = none) :
    (∃ owner, (reserve .execute fingerprint i c now w).1 = .waiting c owner ∧
      (reserve .execute fingerprint i c now w).2.ledger c.request.id =
        some { row with requestHash := fingerprint { c.request with auth := none } }) ∨
      ∃ o, (reserve .execute fingerprint i c now w).1 = .returned c o ∧ Reports c o := by
  by_cases hMatches : (requestHashes fingerprint c.request).Matches row.requestHash
  · rw [reserve, Ledger.reserveCompatible_of_open _ _ _ _ hRow hOpen hMatches,
      Ledger.upgradeHash_of_matches hMatches]
    dsimp only
    split
    · exact .inl ⟨row.instanceId, rfl, Function.update_self ..⟩
    · exact .inr ⟨_, rfl, .inr ⟨row.instanceId, true, rfl⟩⟩
  · rw [reserve, Ledger.reserveCompatible_of_conflict _ _ _ _ hRow hMatches]
    exact .inr ⟨_, rfl, .inl rfl⟩

theorem poll_orphaned (fingerprint : RequestEnvelope → H) (owner : String) (pastDeadline : Bool)
    {c : Call} {w : World ι H}
    {row : LedgerRow H} (hRow : w.ledger c.request.id = some row) (hOpen : row.responseJson = none)
    (hHash : row.requestHash = fingerprint { c.request with auth := none }) :
    poll .execute fingerprint c owner pastDeadline w = .waiting c owner ∨
      ∃ o, poll .execute fingerprint c owner pastDeadline w = .returned c o ∧ Reports c o := by
  cases pastDeadline with
  | false => exact .inl (by simp [poll, Ledger.waitForResponse, hRow, hOpen, hHash, requestHashes])
  | true =>
    refine .inr ⟨⟨inFlightResponse c.request.id c.effect owner false, false⟩, ?_, .inr ⟨_, _, rfl⟩⟩
    simp [poll, Ledger.waitForResponse, hRow, hOpen, hHash, requestHashes]

/-- Where a call that began after the completion of `x` can be. -/
def Later (rid : String) (x : Execution ι) (r : ResponseEnvelope) (p : ExternalPhase) : Prop :=
  ∀ c, p.call? = some c → c.request.id = rid →
    p = .reserving c ∨ ∃ o, p = .returned c o ∧ Answers x r c o

theorem Later.step (hInjective : Function.Injective fingerprint) {i : ι} {a : ExternalAction}
    {p : ExternalPhase} {w : World ι H} {q : ExternalPhase × World ι H} {row : LedgerRow H}
    {x : Execution ι} {r : ResponseEnvelope} (hRow : w.ledger rid = some row)
    (hJson : row.responseJson = some r.toJson)
    (hHash : row.requestHash = fingerprint { x.call.request with auth := none })
    (hp : Later rid x r p) (hReach : ¬ a.LedgerFails)
    (h : External.step .execute fingerprint i a p w = some q) : Later rid x r q.1 := by
  intro c hCall hId
  obtain hNone | ⟨c', rfl, hq⟩ | ⟨c', e, rfl⟩ | hSame := step_call h
  · simp [hNone] at hCall
  · rw [hq] at hCall ⊢
    cases hCall
    exact .inl rfl
  · exact absurd trivial hReach
  · obtain rfl | ⟨o, rfl, hAnswers⟩ := hp c (hSame ▸ hCall) hId
    · obtain ⟨now, rfl, rfl⟩ | ⟨e, rfl⟩ | hIdle := step_reserving h
      · subst hId
        exact .inr (reserve_completed hInjective hRow hJson hHash)
      · exact absurd trivial hReach
      · simp [hIdle, ExternalPhase.call?] at hCall
    · obtain ⟨c', -, hq⟩ | ⟨c', e, rfl⟩ | hIdle := step_returned h
      · rw [hq] at hCall ⊢
        cases hCall
        exact .inl rfl
      · exact absurd trivial hReach
      · simp [hIdle, ExternalPhase.call?] at hCall

variable (fingerprint) in
/-- Where a call that meets an orphaned reservation can be; one that waits has put
its own digest on the row. -/
def Meets (rid : String) (p : ExternalPhase) (o : Option (LedgerRow H)) : Prop :=
  ∀ c, p.call? = some c → c.request.id = rid →
    p = .reserving c ∨
      (∃ owner, p = .waiting c owner ∧
        ∀ row ∈ o, row.requestHash = fingerprint { c.request with auth := none }) ∨
      ∃ out, p = .returned c out ∧ Reports c out

theorem Meets.other (hInjective : Function.Injective fingerprint) {p : ExternalPhase}
    {row row' : LedgerRow H} (hp : Meets fingerprint rid p (some row))
    (h : row' = row ∨ ∃ q, row' = Ledger.upgradeHash row (requestHashes fingerprint q)) :
    Meets fingerprint rid p (some row') := by
  intro c hCall hId
  obtain hPhase | ⟨owner, hPhase, hHash⟩ | hPhase := hp c hCall hId
  · exact .inl hPhase
  · refine .inr (.inl ⟨owner, hPhase, fun row'' hRow'' => ?_⟩)
    cases hRow''
    obtain rfl | ⟨q, rfl⟩ := h
    · exact hHash _ rfl
    · rw [upgradeHash_payload hInjective q (hHash row rfl)]
      exact hHash row rfl
  · exact .inr (.inr hPhase)

theorem Meets.step {i : ι} {a : ExternalAction} {p : ExternalPhase} {w : World ι H}
    {q : ExternalPhase × World ι H} {row : LedgerRow H} (hRow : w.ledger rid = some row)
    (hOpen : row.responseJson = none) (hp : Meets fingerprint rid p (some row))
    (hReach : ¬ a.LedgerFails) (h : External.step .execute fingerprint i a p w = some q) :
    Meets fingerprint rid q.1 (q.2.ledger rid) := by
  intro c hCall hId
  obtain hNone | ⟨c', rfl, hq⟩ | ⟨c', e, rfl⟩ | hSame := step_call h
  · simp [hNone] at hCall
  · rw [hq] at hCall ⊢
    cases hCall
    exact .inl rfl
  · exact absurd trivial hReach
  · subst hId
    obtain rfl | ⟨owner, rfl, hHash⟩ | ⟨out, rfl, hReports⟩ := hp c (hSame ▸ hCall) rfl
    · obtain ⟨now, rfl, rfl⟩ | ⟨e, rfl⟩ | hIdle := step_reserving h
      · obtain ⟨owner, hWaiting, hUpgraded⟩ | hReturned :=
          reserve_orphaned fingerprint i now hRow hOpen
        · refine .inr (.inl ⟨owner, hWaiting, fun row' hRow' => ?_⟩)
          cases hUpgraded.symm.trans hRow'
          rfl
        · exact .inr (.inr hReturned)
      · exact absurd trivial hReach
      · simp [hIdle, ExternalPhase.call?] at hCall
    · obtain ⟨past, rfl, rfl⟩ | ⟨e, rfl⟩ | hIdle := step_waiting h
      · obtain hWaiting | hReturned := poll_orphaned fingerprint owner past hRow hOpen
          (hHash row rfl)
        · exact .inr (.inl ⟨owner, hWaiting, fun row' hRow' =>
            hHash row' (hRow.symm.trans hRow')⟩)
        · exact .inr (.inr hReturned)
      · exact absurd trivial hReach
      · simp [hIdle, ExternalPhase.call?] at hCall
    · obtain ⟨c', -, hq⟩ | ⟨c', e, rfl⟩ | hIdle := step_returned h
      · rw [hq] at hCall ⊢
        cases hCall
        exact .inl rfl
      · exact absurd trivial hReach
      · simp [hIdle, ExternalPhase.call?] at hCall

/-! ## Runs -/

section Runs

/-- No call is in progress and no closure has run for `rid`; the ledger is arbitrary. -/
def Initial (rid : String) (s : Interleaving ι ExternalPhase (World ι H)) : Prop :=
  (∀ i, s.thread i = .idle) ∧ s.shared.executions rid = []

/-- The step does not prune the row of `rid`. -/
def Retains (rid : String) (s : Interleaving ι ExternalPhase (World ι H))
    (a : ι × ExternalAction) : Prop :=
  Kept a.2 (s.shared.ledger rid)

/-- The reservation of `rid` is in flight and no thread holds it. -/
def Orphaned (rid : String) (s : Interleaving ι ExternalPhase (World ι H)) : Prop :=
  (∃ row, s.shared.ledger rid = some row ∧ row.responseJson = none) ∧
    ∀ i c k, holding (s.thread i) = some (c, k) → c.request.id ≠ rid

variable (fingerprint rid) in
def Sound : Interleaving ι ExternalPhase (World ι H) → Prop :=
  Interleaving.Holds (fun w => Coherent fingerprint (w.ledger rid) (w.executions rid))
    (fun i p w => Owns rid i p (w.ledger rid) (w.executions rid))

variable {s t : Interleaving ι ExternalPhase (World ι H)} {a : ι × ExternalAction}

omit [DecidableEq H] in
theorem Initial.sound (h : Initial rid s) : Sound fingerprint rid s :=
  ⟨.inl h.2, fun i => .of_not_holding (by rw [h.1 i]; rfl)⟩

omit [DecidableEq H] in
theorem Sound.lastRun (hs : Sound fingerprint rid s) {before : List (Execution ι)}
    {x : Execution ι} (hRuns : s.shared.executions rid = before ++ [x]) :
    (∀ y ∈ before, Settled y) ∧ LastRun fingerprint x (s.shared.ledger rid) := by
  obtain hEmpty | ⟨before', x', hSplit, hBefore, hLast⟩ := hs.1
  · simp [hEmpty] at hRuns
  · obtain ⟨rfl, hx⟩ := List.append_inj' (hSplit.symm.trans hRuns) rfl
    cases hx
    exact ⟨hBefore, hLast⟩

omit [DecidableEq H] in
theorem Sound.not_holding (hs : Sound fingerprint rid s) {row : LedgerRow H} {json : Json}
    (hRow : s.shared.ledger rid = some row) (hJson : row.responseJson = some json) (i : ι)
    (c : Call) (k : Nat) (hHold : holding (s.thread i) = some (c, k)) : c.request.id ≠ rid := by
  intro hId
  obtain ⟨before, x, row', -, -, -, -, hRow', hOpen, -⟩ := hs.2 i c k hHold hId
  cases hRow.symm.trans hRow'
  rw [hJson] at hOpen
  cases hOpen

variable [DecidableEq ι]

variable (fingerprint) in
def systemStep : Interleaving ι ExternalPhase (World ι H) → ι × ExternalAction →
    Option (Interleaving ι ExternalPhase (World ι H)) :=
  Interleaving.step (step .execute fingerprint)

theorem systemStep_row (h : systemStep fingerprint s a = some t) :
    RowMove fingerprint rid a.1 a.2 (s.thread a.1) (s.shared.ledger rid) (s.shared.executions rid)
      (t.thread a.1) (t.shared.ledger rid) (t.shared.executions rid) := by
  obtain ⟨p, w, hStep, rfl⟩ := Interleaving.step_eq_some.mp h
  have hMove := (step_move hStep).row rid
  simpa using hMove

theorem systemStep_thread (h : systemStep fingerprint s a = some t) {j : ι} (hj : j ≠ a.1) :
    t.thread j = s.thread j := by
  obtain ⟨p, w, -, rfl⟩ := Interleaving.step_eq_some.mp h
  exact Function.update_of_ne hj _ _

theorem systemStep_own (h : systemStep fingerprint s a = some t) :
    step .execute fingerprint a.1 a.2 (s.thread a.1) s.shared = some (t.thread a.1, t.shared) := by
  obtain ⟨p, w, hStep, rfl⟩ := Interleaving.step_eq_some.mp h
  simpa using hStep

theorem Sound.step (hInjective : Function.Injective fingerprint) (hs : Sound fingerprint rid s)
    (hRetains : Retains rid s a) (h : systemStep fingerprint s a = some t) :
    Sound fingerprint rid t := by
  refine Interleaving.holds_step ?_ ?_ hs h
  · intro p w hStep
    have hMove := (step_move hStep).row rid
    exact ⟨hs.1.step hInjective hMove hRetains (hs.2 a.1), (hs.2 a.1).step hMove⟩
  · intro p w j hj hOwns hStep
    exact Owns.other hj ((step_move hStep).row rid) (hs.2 a.1) hOwns

theorem Orphaned.step (hs : Orphaned rid s) (h : systemStep fingerprint s a = some t) :
    Orphaned rid t ∧ t.shared.executions rid = s.shared.executions rid := by
  obtain ⟨⟨row, hRow, hOpen⟩, hFree⟩ := hs
  obtain ⟨hRuns, hOwn, row', hRow', hOpen', -⟩ :=
    (systemStep_row h).orphaned hRow hOpen (hFree a.1)
  refine ⟨⟨⟨row', hRow', hOpen'⟩, fun j c k hHold => ?_⟩, hRuns⟩
  by_cases hj : j = a.1
  · exact hOwn c k (hj ▸ hHold)
  · exact hFree j c k (systemStep_thread h hj ▸ hHold)

/-- A thread that dies with the reservation leaves it to nobody. -/
theorem Orphaned.of_crash {i : ι} (hs : Sound fingerprint rid s) {c : Call} {k : Nat}
    (hHold : holding (s.thread i) = some (c, k)) (hId : c.request.id = rid)
    (h : systemStep fingerprint s (i, .crash) = some t) : Orphaned rid t := by
  obtain ⟨before, x, row, -, -, -, -, hRow, hOpen, -⟩ := hs.2 i c k hHold hId
  cases h
  refine ⟨⟨row, hRow, hOpen⟩, fun j c' k' hHold' hId' => ?_⟩
  by_cases hj : j = i
  · subst hj
    simp [holding] at hHold'
  · simp only [Function.update_of_ne hj] at hHold'
    exact hj ((hs.2 j).unique (hs.2 i) hHold' hHold hId' hId)

structure CompletedAt (fingerprint : RequestEnvelope → H) (rid : String) (row : LedgerRow H)
    (E : List (Execution ι)) (s : Interleaving ι ExternalPhase (World ι H)) : Prop where
  sound : Sound fingerprint rid s
  row_eq : s.shared.ledger rid = some row
  runs_eq : s.shared.executions rid = E

theorem CompletedAt.step (hInjective : Function.Injective fingerprint) {row : LedgerRow H}
    {E : List (Execution ι)} {json : Json} {q : RequestEnvelope}
    (hJson : row.responseJson = some json) (hLaunch : rawResponseIsWorkbenchLaunch json = false)
    (hHash : row.requestHash = fingerprint { q with auth := none })
    (hs : CompletedAt fingerprint rid row E s) (hRetains : Retains rid s a)
    (h : systemStep fingerprint s a = some t) : CompletedAt fingerprint rid row E t := by
  have hSanitized : Ledger.sanitizedRow row = row := by simp [Ledger.sanitizedRow, hJson, hLaunch]
  obtain ⟨hRow, hRuns⟩ := (systemStep_row h).unheld hInjective hs.row_eq hHash
    (hs.sound.not_holding hs.row_eq hJson a.1) hRetains
  rw [hSanitized, or_self] at hRow
  exact ⟨hs.sound.step hInjective hRetains h, hRow, hRuns.trans hs.runs_eq⟩

theorem Sound.run (hInjective : Function.Injective fingerprint) {as : List (ι × ExternalAction)}
    (hs : Sound fingerprint rid s) (hRetains : Lib.Along (systemStep fingerprint) (Retains rid) s as)
    (hRun : Lib.run (systemStep fingerprint) s as = some t) : Sound fingerprint rid t :=
  Lib.invariant_of_along (fun _ _ _ hs hRetains h => hs.step hInjective hRetains h) hs hRetains hRun

theorem CompletedAt.run (hInjective : Function.Injective fingerprint) {row : LedgerRow H}
    {E : List (Execution ι)} {json : Json} {q : RequestEnvelope}
    (hJson : row.responseJson = some json) (hLaunch : rawResponseIsWorkbenchLaunch json = false)
    (hHash : row.requestHash = fingerprint { q with auth := none })
    {as : List (ι × ExternalAction)} (hs : CompletedAt fingerprint rid row E s)
    (hRetains : Lib.Along (systemStep fingerprint) (Retains rid) s as)
    (hRun : Lib.run (systemStep fingerprint) s as = some t) :
    CompletedAt fingerprint rid row E t :=
  Lib.invariant_of_along
    (fun _ _ _ hs hRetains h => hs.step hInjective hJson hLaunch hHash hRetains h) hs hRetains hRun

theorem Orphaned.run {as : List (ι × ExternalAction)} (hs : Orphaned rid s)
    (hRun : Lib.run (systemStep fingerprint) s as = some t) :
    Orphaned rid t ∧ t.shared.executions rid = s.shared.executions rid := by
  refine Lib.invariant_of_step (I := fun u => Orphaned rid u ∧
    u.shared.executions rid = s.shared.executions rid) ?_ ⟨hs, rfl⟩ hRun
  intro u a v hu h
  obtain ⟨hOrphaned, hRuns⟩ := hu.1.step h
  exact ⟨hOrphaned, hRuns.trans hu.2⟩

variable (fingerprint) in
/-- In the run `as` from `s` the thread `i` begins with a call, none of its accesses
to the ledger fails, and it returns from a call `c` for `rid` with `o`. -/
structure AnsweredLater (rid : String) (s : Interleaving ι ExternalPhase (World ι H)) (i : ι)
    (as : List (ι × ExternalAction)) (t : Interleaving ι ExternalPhase (World ι H)) (c : Call)
    (o : OutcomeExecution) : Prop where
  run_eq : Lib.run (systemStep fingerprint) s as = some t
  begins : ∃ c₀ bs, as = (i, .call c₀) :: bs
  reaches : ∀ a ∈ as, a.1 = i → ¬ a.2.LedgerFails
  returned : t.thread i = .returned c o
  id_eq : c.request.id = rid

theorem systemStep_call {i : ι} {c : Call} (h : systemStep fingerprint s (i, .call c) = some t) :
    t.thread i = .reserving c ∧ t.shared = s.shared := by
  have hOwn := systemStep_own h
  generalize t.thread i = p' at hOwn ⊢
  generalize s.thread i = p at hOwn
  cases p <;> simp [step] at hOwn <;> exact ⟨hOwn.1.symm, hOwn.2.symm⟩

theorem AnsweredLater.completed (hInjective : Function.Injective fingerprint) {row : LedgerRow H}
    {E : List (Execution ι)} {x : Execution ι} {r : ResponseEnvelope}
    (hJson : row.responseJson = some r.toJson)
    (hLaunch : rawResponseIsWorkbenchLaunch r.toJson = false)
    (hHash : row.requestHash = fingerprint { x.call.request with auth := none }) {i : ι}
    {as : List (ι × ExternalAction)} {c : Call} {o : OutcomeExecution}
    (hs : CompletedAt fingerprint rid row E s)
    (hRetains : Lib.Along (systemStep fingerprint) (Retains rid) s as)
    (h : AnsweredLater fingerprint rid s i as t c o) : Answers x r c o := by
  obtain ⟨c₀, bs, rfl⟩ := h.begins
  obtain ⟨u, hCall, hRest⟩ := (Lib.run_cons_eq_some _).mp h.run_eq
  obtain ⟨hThread, hShared⟩ := systemStep_call hCall
  have hFirst : Later rid x r (u.thread i) := by
    intro c' hCall' _
    rw [hThread] at hCall' ⊢
    cases hCall'
    exact .inl rfl
  have hAlong := (hRetains.2 u hCall).and_mem (Q := fun a => a.1 = i → ¬ a.2.LedgerFails)
    fun a ha => h.reaches a (List.mem_cons_of_mem _ ha)
  have hEnd := Lib.invariant_of_along
    (I := fun v => CompletedAt fingerprint rid row E v ∧ Later rid x r (v.thread i))
    (fun v a v' hv hP hStep => by
      refine ⟨hv.1.step hInjective hJson hLaunch hHash hP.1 hStep, ?_⟩
      by_cases hi : i = a.1
      · subst hi
        exact hv.2.step hInjective hv.1.row_eq hJson hHash (hP.2 rfl) (systemStep_own hStep)
      · rw [systemStep_thread hStep hi]
        exact hv.2)
    ⟨hs.step hInjective hJson hLaunch hHash hRetains.1 hCall, hFirst⟩ hAlong hRest
  obtain hReserving | ⟨o', hReturned, hAnswers⟩ :=
    hEnd.2 c (by rw [h.returned]; rfl) h.id_eq
  · rw [h.returned] at hReserving
    cases hReserving
  · rw [h.returned] at hReturned
    cases hReturned
    exact hAnswers

theorem AnsweredLater.orphaned (hInjective : Function.Injective fingerprint) {i : ι}
    {as : List (ι × ExternalAction)} {c : Call} {o : OutcomeExecution} (hs : Orphaned rid s)
    (h : AnsweredLater fingerprint rid s i as t c o) : Reports c o := by
  obtain ⟨c₀, bs, rfl⟩ := h.begins
  obtain ⟨u, hCall, hRest⟩ := (Lib.run_cons_eq_some _).mp h.run_eq
  obtain ⟨hThread, hShared⟩ := systemStep_call hCall
  have hFirst : Meets fingerprint rid (u.thread i) (u.shared.ledger rid) := by
    intro c' hCall' _
    rw [hThread] at hCall' ⊢
    cases hCall'
    exact .inl rfl
  have hAlong : Lib.Along (systemStep fingerprint) (fun _ a => a.1 = i → ¬ a.2.LedgerFails) u bs :=
    Lib.along_of_mem fun _ a ha => h.reaches a (List.mem_cons_of_mem _ ha)
  have hEnd := Lib.invariant_of_along
    (I := fun v => Orphaned rid v ∧ Meets fingerprint rid (v.thread i) (v.shared.ledger rid))
    (fun v a v' hv hP hStep => by
      obtain ⟨⟨row, hRow, hOpen⟩, hFree⟩ := hv.1
      refine ⟨(hv.1.step hStep).1, ?_⟩
      have hMeets := hRow ▸ hv.2
      by_cases hi : i = a.1
      · subst hi
        exact hMeets.step hRow hOpen (hP rfl) (systemStep_own hStep)
      · obtain ⟨-, -, row', hRow', -, hUpgraded⟩ :=
          (systemStep_row hStep).orphaned hRow hOpen (hFree a.1)
        rw [systemStep_thread hStep hi, hRow']
        exact hMeets.other hInjective hUpgraded)
    ⟨(hs.step hCall).1, hFirst⟩ hAlong hRest
  obtain hReserving | ⟨owner, hWaiting, -⟩ | ⟨o', hReturned, hReports⟩ :=
    hEnd.2 c (by rw [h.returned]; rfl) h.id_eq
  · rw [h.returned] at hReserving
    cases hReserving
  · rw [h.returned] at hWaiting
    cases hWaiting
  · rw [h.returned] at hReturned
    cases hReturned
    exact hReports

theorem Sound.ended (hInjective : Function.Injective fingerprint) (hs : Sound fingerprint rid s)
    {i : ι} {c : Call} {k : Nat} {as : List (ι × ExternalAction)} {o : OutcomeExecution}
    (hRuns : s.thread i = .executing c k) (hId : c.request.id = rid)
    (hRetains : Lib.Along (systemStep fingerprint) (Retains rid) s as)
    (hRun : Lib.run (systemStep fingerprint) s as = some t)
    (hBegins : ∀ a, (i, a) ∈ as → ¬ a.Begins) (hReturned : t.thread i = .returned c o) :
    Ended i c k (fun a => (i, a) ∈ as) o (t.shared.ledger rid) (t.shared.executions rid) := by
  have hAlong := hRetains.and_mem (Q := fun a => a ∈ as) fun a ha => ha
  have hEnd := Lib.invariant_of_along
    (I := fun v => Sound fingerprint rid v ∧
      Course i c k (fun a => (i, a) ∈ as) (v.shared.ledger rid) (v.shared.executions rid) (v.thread i))
    (fun v a v' hv hP hStep => by
      refine ⟨hv.1.step hInjective hP.1 hStep, ?_⟩
      by_cases hi : i = a.1
      · subst hi
        exact hv.2.step hInjective hId hP.2 (hBegins _ hP.2) (hv.1.2 a.1) hv.1.1 hP.1
          (systemStep_own hStep)
      · rw [systemStep_thread hStep hi]
        exact hv.2.keep fun r hRecorded =>
          hRecorded.step hInjective (systemStep_row hStep) (hv.1.2 a.1) hv.1.1 hP.1)
    ⟨hs, hRuns ▸ .executing⟩ hAlong hRun
  have hCourse := hEnd.2
  rw [hReturned] at hCourse
  cases hCourse with
  | returned o hEnded => exact hEnded

/-- Effects of one request id under any interleaving of its calls. -/
theorem execute_at_most_once (hInjective : Function.Injective fingerprint)
    {as : List (ι × ExternalAction)} (hInit : Initial rid s)
    (hRetains : Lib.Along (systemStep fingerprint) (Retains rid) s as)
    (hRun : Lib.run (systemStep fingerprint) s as = some t) :
    (∀ before x, t.shared.executions rid = before ++ [x] → ∀ y ∈ before, Settled y) ∧
    (∀ before x row json, t.shared.executions rid = before ++ [x] →
      t.shared.ledger rid = some row → row.responseJson = some json →
      ∃ r, x.response = some r ∧ asksForRetry r = false ∧
        (rawResponseIsWorkbenchLaunch r.toJson = false → ∀ bs u,
          Lib.Along (systemStep fingerprint) (Retains rid) t bs →
          Lib.run (systemStep fingerprint) t bs = some u →
          u.shared.executions rid = t.shared.executions rid ∧
            ∀ i c o, AnsweredLater fingerprint rid t i bs u c o → Answers x r c o)) ∧
    (∀ before x i c now, t.shared.executions rid = before ++ [x] → t.shared.ledger rid ≠ none →
      t.thread i = .reserving c → c.request.id = rid → ¬ SamePayload c.request x.call.request →
      systemStep fingerprint t (i, .reserve now) = some ⟨t.shared, Function.update t.thread i
        (.returned c ⟨requestIdConflictResponse c.request.id c.effect, false⟩)⟩) ∧
    (∀ i c k t', holding (t.thread i) = some (c, k) → c.request.id = rid →
      systemStep fingerprint t (i, .crash) = some t' → Orphaned rid t') ∧
    (Orphaned rid t → ∀ bs u, Lib.run (systemStep fingerprint) t bs = some u →
      u.shared.executions rid = t.shared.executions rid ∧
        ∀ i c o, AnsweredLater fingerprint rid t i bs u c o → Reports c o) ∧
    (∀ i c k bs u o, t.thread i = .executing c k → c.request.id = rid →
      Lib.Along (systemStep fingerprint) (Retains rid) t bs →
      Lib.run (systemStep fingerprint) t bs = some u → (∀ a, (i, a) ∈ bs → ¬ a.Begins) →
      u.thread i = .returned c o →
      Ended i c k (fun a => (i, a) ∈ bs) o (u.shared.ledger rid) (u.shared.executions rid)) := by
  have hSound : Sound fingerprint rid t := hInit.sound.run hInjective hRetains hRun
  refine ⟨fun before x hRuns => (hSound.lastRun hRuns).1, ?_, ?_,
    fun i c k t' hHold hId h => .of_crash hSound hHold hId h,
    fun hOrphaned bs u h => ⟨(hOrphaned.run h).2, fun i c o hAnswer =>
      hAnswer.orphaned hInjective hOrphaned⟩,
    fun i c k bs u o hRuns hId hRetains' hRun' hBegins hReturned =>
      hSound.ended hInjective hRuns hId hRetains' hRun' hBegins hReturned⟩
  · intro before x row json hRuns hRow hJson
    have hLast := (hSound.lastRun hRuns).2
    rw [hRow] at hLast
    obtain ⟨r, hResponse, hAsks, hRecorded⟩ := hLast.2.2 json hJson
    refine ⟨r, hResponse, hAsks, fun hLaunch bs u hRetains' hRun' => ?_⟩
    obtain rfl | ⟨hRaw, -⟩ := hRecorded
    · have hs : CompletedAt fingerprint rid row (t.shared.executions rid) t := ⟨hSound, hRow, rfl⟩
      exact ⟨(hs.run hInjective hJson hLaunch hLast.1 hRetains' hRun').runs_eq, fun i c o hAnswer =>
        hAnswer.completed hInjective hJson hLaunch hLast.1 hs hRetains'⟩
    · rw [hLaunch] at hRaw
      cases hRaw
  · intro before x i c now hRuns hReserved hThread hId hOther
    obtain ⟨row, hRow⟩ := Option.ne_none_iff_exists'.mp hReserved
    have hLast := (hSound.lastRun hRuns).2
    rw [hRow] at hLast
    subst hId
    simp only [systemStep, Interleaving.step, hThread, External.step,
      reserve_conflict hInjective hRow hLast.1 hOther, Option.map_some]

end Runs

def taskStart : RequestEnvelope :=
  ⟨1, "r", .string "task.start", none, none, none, none⟩

def firstCall : Call := ⟨taskStart, .exec, "a"⟩

/-- The same request at another instance. -/
def laterCall : Call := ⟨taskStart, .exec, "b"⟩

def started : ResponseEnvelope := ⟨1, "r", .ok, none, none, none⟩

def reservation : List (Bool × ExternalAction) := [(false, .call firstCall), (false, .reserve 0)]

def completion : List (Bool × ExternalAction) :=
  [(false, .respond started), (false, .complete 1), (false, .pruneFails)]

def repetition : List (Bool × ExternalAction) := [(true, .call laterCall), (true, .reserve 2)]

def idleThreads : Interleaving Bool ExternalPhase (World Bool RequestEnvelope) :=
  ⟨.empty, fun _ => .idle⟩

theorem retains_of_noPrune {as : List (Bool × ExternalAction)}
    (h : ∀ a ∈ as, ∀ now, a.2 ≠ .prune now ∧ a.2 ≠ .openLedger now)
    (s : Interleaving Bool ExternalPhase (World Bool RequestEnvelope)) :
    Lib.Along (systemStep id) (Retains "r") s as := by
  refine Lib.along_of_mem fun _ a ha now hClean => ?_
  rcases hClean with hPrune | hOpen
  · exact absurd hPrune (h a ha now).1
  · exact absurd hOpen (h a ha now).2

/-- The first call returns its response, which is on record then, and the second one gets it
replayed while nothing runs again. -/
theorem execute_at_most_once_replay :
    ∃ t u, Lib.run (systemStep id) idleThreads (reservation ++ completion) = some t ∧
      Lib.run (systemStep id) t repetition = some u ∧
      t.thread false = .returned firstCall ⟨started, false⟩ ∧
      Recorded false firstCall 0 started (t.shared.ledger "r") (t.shared.executions "r") ∧
      u.shared.executions "r" = t.shared.executions "r" ∧
      u.thread true = .returned laterCall ⟨started.readBack, true⟩ := by
  have hInit : Initial "r" idleThreads := ⟨fun _ => rfl, rfl⟩
  obtain ⟨s, hReserved, hExecuting⟩ : ∃ s, Lib.run (systemStep id) idleThreads reservation = some s ∧
      s.thread false = .executing firstCall 0 := ⟨_, rfl, rfl⟩
  obtain ⟨t, hCompleted, hReturned⟩ : ∃ t, Lib.run (systemStep id) s completion = some t ∧
      t.thread false = .returned firstCall ⟨started, false⟩ := by
    cases hReserved
    exact ⟨_, rfl, rfl⟩
  have hFirst : Lib.run (systemStep id) idleThreads (reservation ++ completion) = some t := by
    rw [Lib.run_append, hReserved]
    exact hCompleted
  obtain ⟨u, o, hRepeated, hLater⟩ : ∃ u o, Lib.run (systemStep id) t repetition = some u ∧
      u.thread true = .returned laterCall o := by
    cases hFirst
    exact ⟨_, _, rfl, rfl⟩
  have hRetains := fun as => @retains_of_noPrune as
  have hEnded := (execute_at_most_once Function.injective_id hInit
    (hRetains reservation (by simp [reservation]) _) hReserved).2.2.2.2.2 false firstCall 0 completion t
    ⟨started, false⟩ hExecuting rfl (hRetains _ (by simp [completion]) _) hCompleted
    (by simp [completion, ExternalAction.Begins]) hReturned
  have hRecorded : Recorded false firstCall 0 started (t.shared.ledger "r") (t.shared.executions "r") := by
    cases hEnded with
    | recorded r _ _ hSame hRecorded =>
      cases hSame
      exact hRecorded
    | unrecorded e hFails => simp [completion] at hFails
    | refused r hResponse hAsks =>
      simp only [completion, List.mem_cons, Prod.mk.injEq, ExternalAction.respond.injEq, true_and,
        List.not_mem_nil, or_false, reduceCtorEq, and_false] at hResponse
      cases hResponse
      cases hAsks
  obtain ⟨before, x, row, json, hRuns, hLength, hThread, hCall, hResponse, hRow, hJson⟩ := hRecorded
  obtain ⟨r, hAnswer, -, hReplays⟩ := (execute_at_most_once Function.injective_id hInit
    (hRetains (reservation ++ completion) (by simp [reservation, completion]) _) hFirst).2.1
    before x row json hRuns hRow hJson
  cases hResponse.symm.trans hAnswer
  obtain ⟨hSame, hAnswers⟩ := hReplays rfl repetition u (hRetains _ (by simp [repetition]) _) hRepeated
  have hReplay := (hAnswers true laterCall o ⟨hRepeated, ⟨laterCall, _, rfl⟩,
    by simp [repetition, ExternalAction.LedgerFails], hLater, rfl⟩).1 (by rw [hCall]; rfl)
  exact ⟨t, u, hFirst, hRepeated, hReturned,
    ⟨before, x, row, json, hRuns, hLength, hThread, hCall, hResponse, hRow, hJson⟩, hSame,
    hReplay ▸ hLater⟩

end Exosuit.Daemon.External
