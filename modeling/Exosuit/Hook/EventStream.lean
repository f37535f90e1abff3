import Exosuit.Hook.LaneAgreement

/-!
# The event stream

A stream is well formed when a display can follow it: each check starts, may write, and
completes once, and the counts at the end are those of the statuses before it.
-/

namespace Exosuit.Hook

open Lib

variable {lane : String} {scopeBase : Option String} {laneParallel : Bool} {attempts : List Attempt}
  {schedule : List Nat}

/-- The check starts, writes, and completes with the status. -/
def Interval (lane : String) (e : Nat × Attempt) (status : CheckStatus) (events : List JsonlEvent) :
    Prop :=
  ∃ (outputs : List JsonlEvent) (exitCode : Option Int32) (outputBytes : Nat) (reason : Option SkipReason),
    events = startedEvent lane e.1 e.2.plan ::
      (outputs ++ [.checkCompleted e.2.plan.id lane status exitCode outputBytes reason]) ∧
    ∀ output ∈ outputs, ∃ stream data, output = .checkOutput e.2.plan.id lane stream data

/-- The lane and its checks are announced, every check goes through its interval, the lane is
completed with the counts of the statuses, and the summary comes last. -/
def WellFormed (lane : String) (attempts : List Attempt) (laneParallel : Bool)
    (events : List (Option Nat × JsonlEvent)) : Prop :=
  ∃ (body : List (Option Nat × JsonlEvent)) (statuses : List CheckStatus) (status : LaneStatus)
    (passed failed skipped : Nat) (checks : List CheckSummary),
    events = laneHeader lane attempts laneParallel ++ body ++
      [(none, .laneCompleted lane status passed failed skipped), (none, .summary 1 lane status checks)] ∧
    (∀ e ∈ body, ∃ index < attempts.length, e.1 = some index) ∧
    statuses.length = attempts.length ∧
    (∀ e ∈ placed attempts, ∃ s, statuses[e.1]? = some s ∧
      Interval lane e s (Schedule.own (some e.1) body)) ∧
    passed = statuses.count .success ∧ skipped = statuses.count .skipped ∧
    passed + failed + skipped = attempts.length

/-! ## The events of one check -/

/-- The check is skipped, or its tool ends, or its command is there, is spawned and ends. -/
def Attempt.completes (a : Attempt) : Bool :=
  a.plan.skipped ||
    if a.plan.tool.isSome then
      match a.tool with
      | .panicked => false
      | _ => true
    else !a.plan.parts.isEmpty &&
      match a.command with
      | .exited _ _ => true
      | _ => false

theorem outputEvents_output {checkId : String} {chunks : Chunks} :
    ∀ output ∈ outputEvents checkId lane chunks, ∃ stream data,
      output = .checkOutput checkId lane stream data := by
  intro output hOutput
  obtain ⟨c, -, hText⟩ := List.mem_filterMap.mp hOutput
  dsimp only at hText
  split at hText
  · cases hText
  · exact ⟨_, _, (Option.some.inj hText).symm⟩

theorem interval_of_completes (lane : String) {e : Nat × Attempt} (h : e.2.completes = true) :
    ∃ r, (runJsonlCheck lane e.1 e.2).result = some r ∧
      Interval lane e (summaryOf (e.2, r)).status (runJsonlCheck lane e.1 e.2).events := by
  rw [runJsonlCheck]
  rw [Attempt.completes] at h
  cases hSkipped : e.2.plan.skipped with
  | true => exact ⟨_, rfl, [], none, 0, _, rfl, List.forall_mem_nil _⟩
  | false =>
    rw [hSkipped, Bool.false_or] at h
    rw [if_neg Bool.false_ne_true]
    cases hTool : e.2.plan.tool.isSome with
    | true =>
      rw [hTool, if_pos rfl] at h
      rw [if_pos rfl]
      cases hOutcome : e.2.tool with
      | answered success message => exact ⟨_, rfl, [], none, _, none, rfl, List.forall_mem_nil _⟩
      | failed error => exact ⟨_, rfl, [], none, 0, none, rfl, List.forall_mem_nil _⟩
      | panicked =>
        rw [hOutcome] at h
        cases h
    | false =>
      rw [hTool, if_neg Bool.false_ne_true, Bool.and_eq_true] at h
      rw [if_neg Bool.false_ne_true, if_neg (by simpa using h.1)]
      cases hOutcome : e.2.command with
      | exited code chunks =>
        refine ⟨_, rfl, outputEvents e.2.plan.id lane chunks, code, _, none, rfl, ?_⟩
        exact outputEvents_output
      | notSpawned | notWaited | panicked =>
        rw [hOutcome] at h
        cases h.2

theorem not_interval {e : Nat × Attempt} {s : CheckStatus} {events : List JsonlEvent}
    (hLast : ∀ checkId status exitCode outputBytes reason,
      events.getLast? ≠ some (.checkCompleted checkId lane status exitCode outputBytes reason)) :
    ¬ Interval lane e s events := by
  rintro ⟨outputs, exitCode, outputBytes, reason, rfl, -⟩
  refine hLast e.2.plan.id s exitCode outputBytes reason ?_
  rw [← List.cons_append, List.getLast?_concat]

theorem getLast?_started_outputs {index : Nat} {plan : CheckPlan} {chunks : Chunks}
    {checkId : String} {status : CheckStatus} {exitCode : Option Int32} {outputBytes : Nat}
    {reason : Option SkipReason} :
    (startedEvent lane index plan :: outputEvents plan.id lane chunks).getLast? ≠
      some (.checkCompleted checkId lane status exitCode outputBytes reason) := by
  intro hLast
  rcases List.mem_cons.mp (List.mem_of_getLast? hLast) with hEq | hOutput
  · cases hEq
  · obtain ⟨_, _, hEq⟩ := outputEvents_output _ hOutput
    cases hEq

theorem completes_of_interval {e : Nat × Attempt} {s : CheckStatus}
    (h : Interval lane e s (runJsonlCheck lane e.1 e.2).events) : e.2.completes = true := by
  by_contra hNot
  refine not_interval (fun checkId status exitCode outputBytes reason => ?_) h
  rw [Attempt.completes, Bool.not_eq_true] at hNot
  rw [runJsonlCheck]
  cases hSkipped : e.2.plan.skipped with
  | true =>
    rw [hSkipped] at hNot
    cases hNot
  | false =>
    rw [hSkipped, Bool.false_or] at hNot
    rw [if_neg Bool.false_ne_true]
    cases hTool : e.2.plan.tool.isSome with
    | true =>
      rw [hTool, if_pos rfl] at hNot
      rw [if_pos rfl]
      cases hOutcome : e.2.tool with
      | answered | failed =>
        rw [hOutcome] at hNot
        cases hNot
      | panicked => rintro ⟨⟩
    | false =>
      rw [hTool, if_neg Bool.false_ne_true] at hNot
      rw [if_neg Bool.false_ne_true]
      by_cases hParts : e.2.plan.parts = []
      · rw [if_pos hParts]
        rintro ⟨⟩
      · rw [if_neg hParts]
        cases hOutcome : e.2.command with
        | exited code chunks =>
          rw [hOutcome] at hNot
          simp [hParts] at hNot
        | notSpawned error => rintro ⟨⟩
        | notWaited error chunks | panicked chunks => exact getLast?_started_outputs

/-! ## The events of all checks -/

/-- What was emitted for the check at this place. -/
def eventsAt (l : List Executed) (index : Nat) : List JsonlEvent :=
  ((l.find? fun x => x.index == index).map Executed.events).getD []

theorem own_map_some {α : Type} (index : Nat) (l : List (Nat × α)) :
    Schedule.own (some index) (l.map fun e => (some e.1, e.2)) = Schedule.own index l := by
  induction l with
  | nil => rfl
  | cons e l ih =>
    rw [List.map_cons, Schedule.own_cons, Schedule.own_cons, ih]
    exact if_congr Option.some_inj rfl rfl

theorem eventsAt_eq_nil {l : List Executed} {index : Nat} (h : index ∉ l.map Executed.index) :
    eventsAt l index = [] := by
  rw [eventsAt, List.find?_eq_none.mpr ?_]
  · rfl
  · intro x hx hSame
    exact h (List.mem_map.mpr ⟨x, hx, by simpa using hSame⟩)

theorem eventsAt_cons (x : Executed) (l : List Executed) (index : Nat) :
    eventsAt (x :: l) index = if x.index = index then x.events else eventsAt l index := by
  by_cases h : x.index = index <;> simp [eventsAt, h]

theorem own_threadEvents {threads : List Executed} (hNodup : (threads.map Executed.index).Nodup)
    (schedule : List Nat) (index : Nat) :
    Schedule.own (some index) (threadEvents threads schedule) = eventsAt threads index := by
  rw [threadEvents, own_map_some]
  exact Schedule.own_merge hNodup schedule _ (fun i hi => eventsAt_eq_nil hi) index

theorem own_loopEvents {loop : List Executed} (hNodup : (loop.map Executed.index).Nodup) (index : Nat) :
    Schedule.own (some index) (loopEvents loop) = eventsAt loop index := by
  have hTagged : loopEvents loop =
      (loop.flatMap fun x => x.events.map (x.index, ·)).map fun e => (some e.1, e.2) := by
    rw [List.map_flatMap, loopEvents]
    simp only [List.map_map]
    rfl
  rw [hTagged, own_map_some]
  clear hTagged
  induction loop with
  | nil => rfl
  | cons x loop ih =>
    obtain ⟨hNew, hRest⟩ := List.nodup_cons.mp hNodup
    rw [List.flatMap_cons, Schedule.own_append, Schedule.own_map_tag, ih hRest, eventsAt_cons]
    split
    · next hSame => rw [← hSame, eventsAt_eq_nil hNew, List.append_nil]
    · rfl

/-- Every check that ran is read back from the stream. -/
theorem own_body {threads loop : List Executed} (hNodup : ((threads ++ loop).map Executed.index).Nodup)
    (schedule : List Nat) {x : Executed} (hx : x ∈ threads ++ loop) :
    Schedule.own (some x.index) (threadEvents threads schedule ++ loopEvents loop) = x.events := by
  have hAll := hNodup
  rw [List.map_append, List.nodup_append] at hNodup
  obtain ⟨hThreads, hLoop, -⟩ := hNodup
  rw [Schedule.own_append, own_threadEvents hThreads, own_loopEvents hLoop]
  rcases List.mem_append.mp hx with hThread | hMem
  · have hAway : x.index ∉ loop.map Executed.index := by
      rw [List.map_append, List.nodup_append] at hAll
      exact fun hBoth => hAll.2.2 _ (List.mem_map_of_mem hThread) _ hBoth rfl
    rw [eventsAt_eq_nil hAway, List.append_nil, eventsAt, find_of_nodup_map hThreads hThread]
    rfl
  · have hAway : x.index ∉ threads.map Executed.index := by
      rw [List.map_append, List.nodup_append] at hAll
      exact fun hBoth => hAll.2.2 _ hBoth _ (List.mem_map_of_mem hMem) rfl
    rw [eventsAt_eq_nil hAway, List.nil_append, eventsAt, find_of_nodup_map hLoop hMem]
    rfl

/-! ## How the loop goes -/

/-- Every check but the last one succeeds, and no restage step fails. -/
structure RunsThrough (scopeBase : Option String) (l : List (Nat × Attempt)) : Prop where
  goesOn : ∀ e ∈ l.dropLast, e.2.plan.skipped = false ∧ e.2.succeeds = true
  restages : ∀ e ∈ l, e.2.plan.skipped = false → e.2.succeeds = true → e.2.restages scopeBase = true

def runEntry (lane : String) (e : Nat × Attempt) : Executed :=
  ⟨e.1, (runJsonlCheck lane e.1 e.2).events, (runJsonlCheck lane e.1 e.2).result⟩

theorem runSequential_of_runsThrough {l : List (Nat × Attempt)} (h : RunsThrough scopeBase l) :
    runSequential lane scopeBase l = l.map (runEntry lane) := by
  induction l with
  | nil => rfl
  | cons e rest ih =>
    have hLast : ¬ (e.2.plan.skipped = false ∧ e.2.succeeds = true) → rest = [] := by
      intro hStops
      by_contra hMore
      refine hStops (h.goesOn e ?_)
      rw [List.dropLast_cons_of_ne_nil hMore]
      exact List.mem_cons_self
    have hStep := runSequential_cons lane scopeBase e rest
    generalize runSequential lane scopeBase (e :: rest) = executed at hStep
    cases hStep with
    | skipped hSkipped =>
      rw [hLast (by simp [hSkipped]), List.map_singleton, runEntry, runJsonlCheck_of_skipped hSkipped]
    | passed hSkipped hSucceeds hRestages s hStatus hResult =>
      rw [List.map_cons, runEntry, hResult, ih ?_]
      refine ⟨fun e' he' => h.goesOn e' ?_, fun e' he' => h.restages e' (List.mem_cons_of_mem _ he')⟩
      rw [List.dropLast_cons_of_ne_nil (List.ne_nil_of_mem (List.dropLast_subset _ he'))]
      exact List.mem_cons_of_mem _ he'
    | failed hSkipped hSucceeds hFailed =>
      rw [hLast (by simp [hSucceeds]), List.map_singleton, runEntry]
    | notRestaged hSkipped hSucceeds hRestages error =>
      exact absurd ((h.restages e List.mem_cons_self hSkipped hSucceeds).symm.trans hRestages) nofun

theorem goesOn_of_reached (lane : String) (scopeBase : Option String) {l : List (Nat × Attempt)}
    (hNodup : (l.map Prod.fst).Nodup)
    (h : ∀ e ∈ l, ∃ x ∈ runSequential lane scopeBase l, x.index = e.1) :
    ∀ e ∈ l.dropLast, e.2.plan.skipped = false ∧ e.2.succeeds = true := by
  induction l with
  | nil => exact List.forall_mem_nil _
  | cons e rest ih =>
    obtain ⟨hNew, hRest⟩ := List.nodup_cons.mp hNodup
    have hOther : ∀ e' ∈ rest, e.1 ≠ e'.1 := by
      rintro e' he' hSame
      exact hNew (List.mem_map.mpr ⟨e', he', hSame.symm⟩)
    have hStep := runSequential_cons lane scopeBase e rest
    generalize runSequential lane scopeBase (e :: rest) = executed at hStep h
    have hLast : ∀ {x : Executed}, executed = [x] → x.index = e.1 → rest = [] := by
      rintro x rfl hx
      refine List.eq_nil_iff_forall_not_mem.mpr fun e' he' => ?_
      obtain ⟨y, hy, hIndex⟩ := h e' (List.mem_cons_of_mem _ he')
      obtain rfl := List.mem_singleton.mp hy
      exact hOther e' he' (hx.symm.trans hIndex)
    cases hStep with
    | skipped | failed | notRestaged =>
      rw [hLast rfl rfl]
      exact List.forall_mem_nil _
    | passed hSkipped hSucceeds hRestages s hStatus hResult =>
      by_cases hMore : rest = []
      · rw [hMore]
        exact List.forall_mem_nil _
      · rw [List.dropLast_cons_of_ne_nil hMore, List.forall_mem_cons]
        refine ⟨⟨hSkipped, hSucceeds⟩, ih hRest fun e' he' => ?_⟩
        obtain ⟨x, hx, hIndex⟩ := h e' (List.mem_cons_of_mem _ he')
        rcases List.mem_cons.mp hx with rfl | hMem
        · exact absurd hIndex (hOther e' he')
        · exact ⟨x, hMem, hIndex⟩

theorem entry_of_mem_runSequential {l : List (Nat × Attempt)} {x : Executed}
    (hx : x ∈ runSequential lane scopeBase l) : ∃ e ∈ l, e.1 = x.index ∧
      ((x.events = (runJsonlCheck lane e.1 e.2).events ∧
          (e.2.plan.skipped = false → e.2.succeeds = true → e.2.restages scopeBase = true)) ∨
        ∃ error, x.events = (runJsonlCheck lane e.1 e.2).events ++
          [.restageFailed e.2.plan.id lane error]) := by
  induction l with
  | nil => cases hx
  | cons e rest ih =>
    have hStep := runSequential_cons lane scopeBase e rest
    generalize runSequential lane scopeBase (e :: rest) = executed at hStep hx
    cases hStep with
    | skipped hSkipped =>
      obtain rfl := List.mem_singleton.mp hx
      exact ⟨e, List.mem_cons_self, rfl, .inl ⟨rfl, fun h => absurd (hSkipped.symm.trans h) nofun⟩⟩
    | passed hSkipped hSucceeds hRestages s hStatus hResult =>
      rcases List.mem_cons.mp hx with rfl | hMem
      · exact ⟨e, List.mem_cons_self, rfl, .inl ⟨rfl, fun _ _ => hRestages⟩⟩
      · obtain ⟨e', he', hRest⟩ := ih hMem
        exact ⟨e', List.mem_cons_of_mem _ he', hRest⟩
    | failed hSkipped hSucceeds hFailed =>
      obtain rfl := List.mem_singleton.mp hx
      refine ⟨e, List.mem_cons_self, rfl, .inl ⟨rfl, fun _ h => absurd (hSucceeds.symm.trans h) nofun⟩⟩
    | notRestaged hSkipped hSucceeds hRestages error =>
      obtain rfl := List.mem_singleton.mp hx
      exact ⟨e, List.mem_cons_self, rfl, .inr ⟨error, rfl⟩⟩

/-! ## The end of a run -/

def laneSummaries (lane : String) (attempts : List Attempt) (laneParallel : Bool)
    (scopeBase : Option String) : List CheckSummary :=
  (ranResults (resultsOf (executedOf lane attempts laneParallel scopeBase)) attempts).map summaryOf

/-- The events between the announcements and the end. -/
def laneBody (lane : String) (attempts : List Attempt) (laneParallel : Bool)
    (scopeBase : Option String) (schedule : List Nat) : List (Option Nat × JsonlEvent) :=
  threadEvents ((parallelPlans laneParallel scopeBase attempts).map (runThread lane)) schedule ++
    loopEvents (runSequential lane scopeBase (sequentialPlans laneParallel scopeBase attempts))

theorem events_runCheckPlansJsonl (lane : String) (attempts : List Attempt) (laneParallel : Bool)
    (scopeBase : Option String) (schedule : List Nat) :
    ((runCheckPlansJsonl lane attempts laneParallel scopeBase schedule).events =
        laneHeader lane attempts laneParallel ++ laneBody lane attempts laneParallel scopeBase schedule ∧
      ∃ x ∈ executedOf lane attempts laneParallel scopeBase, x.result = none) ∨
    ((runCheckPlansJsonl lane attempts laneParallel scopeBase schedule).events =
        laneHeader lane attempts laneParallel ++
          (laneBody lane attempts laneParallel scopeBase schedule ++
            failFast lane (resultsOf (executedOf lane attempts laneParallel scopeBase)) attempts) ++
          [(none, .laneCompleted lane (laneStatusOf (laneSummaries lane attempts laneParallel scopeBase))
              (passedOf (laneSummaries lane attempts laneParallel scopeBase))
              (failedOf (laneSummaries lane attempts laneParallel scopeBase))
              (skippedOf (laneSummaries lane attempts laneParallel scopeBase))),
            (none, .summary 1 lane (laneStatusOf (laneSummaries lane attempts laneParallel scopeBase))
              (laneSummaries lane attempts laneParallel scopeBase))] ∧
      ∀ x ∈ executedOf lane attempts laneParallel scopeBase, x.result ≠ none) := by
  rw [runCheckPlansJsonl]
  split
  · next hPanic =>
    obtain ⟨x, hx, hNone⟩ := List.any_eq_true.mp hPanic
    exact .inl ⟨List.append_assoc .., x, List.mem_append_right _ hx, Option.isNone_iff_eq_none.mp hNone⟩
  · next hReturns =>
    refine .inr ⟨?_, fun x hx hNone => ?_⟩
    · dsimp only
      rw [← List.append_assoc, laneBody, ← List.append_assoc (laneHeader lane attempts laneParallel)]
      rfl
    · rcases List.mem_append.mp hx with hThread | hLoop
      · obtain ⟨e, -, rfl⟩ := List.mem_map.mp hThread
        cases hNone
      · exact hReturns (List.any_eq_true.mpr ⟨x, hLoop, Option.isNone_iff_eq_none.mpr hNone⟩)

theorem getElem?_placed {e : Nat × Attempt} (he : e ∈ placed attempts) :
    (placed attempts)[e.1]? = some e := by
  have hAt := mem_placed.mp he
  rw [placed, List.getElem?_map, List.getElem?_zipIdx, hAt]
  simp

theorem ranResults_eq_map {results : Results} (h : ∀ e ∈ placed attempts, results e.1 ≠ none) :
    ranResults results attempts =
      (placed attempts).map fun e => (e.2, (results e.1).getD (.error "")) := by
  rw [ranResults, ← List.filterMap_eq_map]
  refine List.filterMap_congr fun e he => ?_
  obtain ⟨r, hr⟩ := Option.ne_none_iff_exists'.mp (h e he)
  rw [Function.comp_apply, hr, Option.map_some, Option.getD_some]

theorem counts_add (summaries : List CheckSummary) :
    passedOf summaries + failedOf summaries + skippedOf summaries = summaries.length := by
  induction summaries with
  | nil => rfl
  | cons s summaries ih =>
    simp only [passedOf, failedOf, skippedOf, List.countP_cons, List.length_cons] at ih ⊢
    cases s.status <;> simp <;> omega

theorem length_laneSummaries_eq_iff :
    (laneSummaries lane attempts laneParallel scopeBase).length = attempts.length ↔
      ∀ e ∈ placed attempts,
        resultsOf (executedOf lane attempts laneParallel scopeBase) e.1 ≠ none := by
  have hLength : (placed attempts).length = attempts.length := by
    rw [← List.length_map Prod.fst, fst_placed, List.length_range]
  rw [laneSummaries, List.length_map, ranResults, ← hLength, List.filterMap_length_eq_length]
  refine forall₂_congr fun e _ => ?_
  rw [Option.isSome_map, Option.isSome_iff_ne_none]

theorem tagged_laneBody {e : Option Nat × JsonlEvent}
    (he : e ∈ laneBody lane attempts laneParallel scopeBase schedule) :
    ∃ index < attempts.length, e.1 = some index := by
  have hPlace : ∀ {x : Executed}, x ∈ executedOf lane attempts laneParallel scopeBase →
      x.index < attempts.length := by
    intro x hx
    obtain ⟨a, ha⟩ := index_mem_of_mem_executedOf hx
    exact (List.getElem?_eq_some_iff.mp (mem_placed.mp ha)).1
  rcases List.mem_append.mp he with hThreads | hLoop
  · obtain ⟨t, ht, rfl⟩ := List.mem_map.mp hThreads
    obtain ⟨x, hx, hIndex⟩ := List.mem_map.mp (Schedule.fst_mem_of_mem_merge
      (fun i hi => eventsAt_eq_nil hi) ht)
    exact ⟨t.1, hIndex ▸ hPlace (List.mem_append_left _ hx), rfl⟩
  · obtain ⟨x, hx, hEvents⟩ := List.mem_flatMap.mp hLoop
    obtain ⟨_, -, rfl⟩ := List.mem_map.mp hEvents
    exact ⟨x.index, hPlace (List.mem_append_right _ hx), rfl⟩

theorem own_laneBody (schedule : List Nat) {x : Executed}
    (hx : x ∈ executedOf lane attempts laneParallel scopeBase) :
    Schedule.own (some x.index) (laneBody lane attempts laneParallel scopeBase schedule) = x.events :=
  own_body (nodup_executedOf lane attempts laneParallel scopeBase) schedule hx

theorem failFast_eq_nil {results : Results} (h : ∀ e ∈ placed attempts, results e.1 ≠ none) :
    failFast lane results attempts = [] := by
  rw [failFast]
  split
  · rw [List.flatMap_eq_nil_iff]
    intro e he
    obtain ⟨r, hr⟩ := Option.ne_none_iff_exists'.mp (h e he)
    rw [hr]
    rfl
  · rfl

/-! ## Well-formed streams -/

/-- Every check completes, and the sequential group runs through. -/
structure Orderly (attempts : List Attempt) (laneParallel : Bool) (scopeBase : Option String) :
    Prop where
  completes : ∀ a ∈ attempts, a.completes = true
  runsThrough : RunsThrough scopeBase (sequentialPlans laneParallel scopeBase attempts)

theorem Orderly.executed (h : Orderly attempts laneParallel scopeBase) (lane : String) {e : Nat × Attempt}
    (he : e ∈ placed attempts) :
    runEntry lane e ∈ executedOf lane attempts laneParallel scopeBase := by
  rw [executedOf, runSequential_of_runsThrough h.runsThrough]
  cases hAlone : runsAlone laneParallel scopeBase e.2.plan with
  | false =>
    refine List.mem_append_left _ (List.mem_map.mpr ⟨e, mem_parallelPlans.mpr ⟨he, hAlone⟩, ?_⟩)
    have hCompletes := h.completes e.2 (List.mem_of_getElem? (mem_placed.mp he))
    obtain ⟨r, hr, -⟩ := interval_of_completes lane hCompletes
    rw [runThread, runEntry, hr]
    rfl
  | true => exact List.mem_append_right _ (List.mem_map_of_mem (mem_sequentialPlans.mpr ⟨he, hAlone⟩))

theorem Orderly.wellFormed (h : Orderly attempts laneParallel scopeBase) (lane : String)
    (schedule : List Nat) : WellFormed lane attempts laneParallel
      (runCheckPlansJsonl lane attempts laneParallel scopeBase schedule).events := by
  have hNodup := nodup_executedOf lane attempts laneParallel scopeBase
  have hResult : ∀ e ∈ placed attempts, ∃ r,
      resultsOf (executedOf lane attempts laneParallel scopeBase) e.1 = some r ∧
        Interval lane e (summaryOf (e.2, r)).status
          (Schedule.own (some e.1) (laneBody lane attempts laneParallel scopeBase schedule)) := by
    intro e he
    have hCompletes := h.completes e.2 (List.mem_of_getElem? (mem_placed.mp he))
    obtain ⟨r, hr, hInterval⟩ := interval_of_completes lane hCompletes
    refine ⟨r, (resultsOf_index hNodup (h.executed lane he)).trans hr, ?_⟩
    have hOwn := own_laneBody schedule (h.executed lane he)
    exact hOwn.symm ▸ hInterval
  have hSome : ∀ e ∈ placed attempts,
      resultsOf (executedOf lane attempts laneParallel scopeBase) e.1 ≠ none := by
    intro e he hNone
    obtain ⟨r, hr, -⟩ := hResult e he
    cases hr.symm.trans hNone
  rcases events_runCheckPlansJsonl lane attempts laneParallel scopeBase schedule with
    ⟨-, x, hx, hNone⟩ | ⟨hEvents, -⟩
  · obtain ⟨a, ha⟩ := index_mem_of_mem_executedOf hx
    exact absurd ((resultsOf_index hNodup hx).trans hNone) (hSome _ ha)
  rw [failFast_eq_nil hSome, List.append_nil] at hEvents
  have hLength := length_laneSummaries_eq_iff.mpr hSome
  refine ⟨laneBody lane attempts laneParallel scopeBase schedule,
    (laneSummaries lane attempts laneParallel scopeBase).map CheckSummary.status, _, _, _, _, _, hEvents,
    fun e he => tagged_laneBody he, (List.length_map _).trans hLength, fun e he => ?_, ?_, ?_, ?_⟩
  · obtain ⟨r, hr, hInterval⟩ := hResult e he
    refine ⟨_, ?_, hInterval⟩
    rw [laneSummaries, ranResults_eq_map hSome, List.map_map, List.map_map, List.getElem?_map,
      getElem?_placed he]
    simp only [Function.comp_apply, Option.map_some, hr, Option.getD_some]
  · rw [passedOf, List.count_eq_countP, List.countP_map]
    rfl
  · rw [skippedOf, List.count_eq_countP, List.countP_map]
    rfl
  · rw [counts_add, hLength]

theorem eq_of_placed {e e' : Nat × Attempt} (he : e ∈ placed attempts) (he' : e' ∈ placed attempts)
    (hIndex : e.1 = e'.1) : e = e' := by
  have hAt := mem_placed.mp he
  rw [hIndex, mem_placed.mp he'] at hAt
  exact Prod.ext hIndex (Option.some.inj hAt).symm

theorem not_interval_restageFailed {e : Nat × Attempt} {status : CheckStatus} {events : List JsonlEvent}
    {checkId error : String} :
    ¬ Interval lane e status (events ++ [.restageFailed checkId lane error]) := by
  refine not_interval fun _ _ _ _ _ hLast => ?_
  rw [List.getLast?_concat] at hLast
  cases hLast

theorem orderly_of_wellFormed (h : WellFormed lane attempts laneParallel
    (runCheckPlansJsonl lane attempts laneParallel scopeBase schedule).events) :
    Orderly attempts laneParallel scopeBase := by
  obtain ⟨body, statuses, status, passed, failed, skipped, checks, hEvents, -, -, hChecks, -, -, hSum⟩ := h
  rcases events_runCheckPlansJsonl lane attempts laneParallel scopeBase schedule with
    ⟨hCut, -⟩ | ⟨hEnds, -⟩
  · have hMem : (none, JsonlEvent.summary 1 lane status checks) ∈
        laneHeader lane attempts laneParallel ++ laneBody lane attempts laneParallel scopeBase schedule := by
      rw [← hCut, hEvents]
      exact List.mem_append_right _ (List.mem_cons_of_mem _ List.mem_cons_self)
    rw [laneBody, ← List.append_assoc] at hMem
    cases eq_laneStarted hMem rfl
  rw [hEvents] at hEnds
  obtain ⟨hFront, hTail⟩ := List.append_inj' hEnds rfl
  have hBody := List.append_cancel_left hFront
  have hCounts := (JsonlEvent.laneCompleted.inj (Prod.mk.inj (List.cons.inj hTail).1).2).2.2
  have hSome : ∀ e ∈ placed attempts,
      resultsOf (executedOf lane attempts laneParallel scopeBase) e.1 ≠ none := by
    rw [← length_laneSummaries_eq_iff, ← counts_add, ← hCounts.1, ← hCounts.2.1, ← hCounts.2.2, hSum]
  rw [failFast_eq_nil hSome, List.append_nil] at hBody
  subst hBody
  have hRan : ∀ e ∈ placed attempts, ∃ x ∈ executedOf lane attempts laneParallel scopeBase,
      x.index = e.1 ∧ ∃ s, Interval lane e s x.events := by
    intro e he
    obtain ⟨r, hr⟩ := Option.ne_none_iff_exists'.mp (hSome e he)
    obtain ⟨x, hx, hIndex, -⟩ := resultsOf_eq_some hr
    obtain ⟨s, -, hInterval⟩ := hChecks e he
    rw [← hIndex, own_laneBody schedule hx] at hInterval
    exact ⟨x, hx, hIndex, s, hInterval⟩
  have hLoop : ∀ e ∈ sequentialPlans laneParallel scopeBase attempts,
      ∃ x ∈ runSequential lane scopeBase (sequentialPlans laneParallel scopeBase attempts),
        x.index = e.1 ∧ ∃ s, Interval lane e s x.events := by
    intro e he
    obtain ⟨hPlaced, hAlone⟩ := mem_sequentialPlans.mp he
    obtain ⟨x, hx, hIndex, hInterval⟩ := hRan e hPlaced
    rcases List.mem_append.mp hx with hThread | hMem
    · obtain ⟨e', he', rfl⟩ := List.mem_map.mp hThread
      obtain ⟨hPlaced', hAlone'⟩ := mem_parallelPlans.mp he'
      cases eq_of_placed hPlaced' hPlaced hIndex
      cases hAlone.symm.trans hAlone'
    · exact ⟨x, hMem, hIndex, hInterval⟩
  have hEntry : ∀ e ∈ sequentialPlans laneParallel scopeBase attempts,
      e.2.completes = true ∧
        (e.2.plan.skipped = false → e.2.succeeds = true → e.2.restages scopeBase = true) := by
    intro e he
    obtain ⟨x, hx, hIndex, s, hInterval⟩ := hLoop e he
    obtain ⟨e', he', hIndex', hRest⟩ := entry_of_mem_runSequential hx
    cases eq_of_placed (mem_sequentialPlans.mp he').1 (mem_sequentialPlans.mp he).1
      (hIndex'.trans hIndex)
    rcases hRest with ⟨hOwn, hRestages⟩ | ⟨error, hOwn⟩
    · exact ⟨completes_of_interval (hOwn ▸ hInterval), hRestages⟩
    · exact absurd (hOwn ▸ hInterval) not_interval_restageFailed
  refine ⟨fun a ha => ?_, ⟨goesOn_of_reached lane scopeBase ?_ ?_,
    fun e he => (hEntry e he).2⟩⟩
  · obtain ⟨index, hIndex⟩ := List.mem_iff_getElem?.mp ha
    have hPlaced : (index, a) ∈ placed attempts := mem_placed.mpr hIndex
    obtain ⟨x, hx, hAt, s, hInterval⟩ := hRan _ hPlaced
    rcases List.mem_append.mp hx with hThread | hMem
    · obtain ⟨e', he', rfl⟩ := List.mem_map.mp hThread
      cases eq_of_placed (mem_parallelPlans.mp he').1 hPlaced hAt
      exact completes_of_interval hInterval
    · obtain ⟨e', he', hAt', -⟩ := entry_of_mem_runSequential hMem
      cases eq_of_placed (mem_sequentialPlans.mp he').1 hPlaced (hAt'.trans hAt)
      exact (hEntry _ he').1
  · have hGroups := nodup_groups laneParallel scopeBase attempts
    rw [List.map_append, List.nodup_append] at hGroups
    exact hGroups.2.1
  · intro e he
    obtain ⟨x, hx, hIndex, -⟩ := hLoop e he
    exact ⟨x, hx, hIndex⟩

/-- The stream is well formed exactly in an orderly lane, however the threads interleave. -/
theorem wellFormed_iff (lane : String) (attempts : List Attempt) (laneParallel : Bool)
    (scopeBase : Option String) (schedule : List Nat) :
    WellFormed lane attempts laneParallel
        (runCheckPlansJsonl lane attempts laneParallel scopeBase schedule).events ↔
      Orderly attempts laneParallel scopeBase :=
  ⟨orderly_of_wellFormed, fun h => h.wellFormed lane schedule⟩

/-! ## A command that cannot be spawned -/

/-- One check whose program is not there. -/
def missingProgram : List Attempt :=
  [⟨Fixes.fixPlan "lint" ["eslint"] false, .notSpawned "failed to spawn 'eslint'", .panicked, Fixes.clean⟩]

theorem started_never_completed :
    (runCheckPlansJsonl "pre-push" missingProgram true none []).events =
      [(none, .laneStarted "pre-push" 1 true), (some 0, .checkEnqueued "lint" "pre-push" 0 "lint"),
        (some 0, .checkStarted "lint" "pre-push" 0 "eslint" (some "/repo") [] none),
        (none, .laneCompleted "pre-push" .failure 0 1 0),
        (none, .summary 1 "pre-push" .failure
          [⟨"lint", .failure, none, some "failed to spawn 'eslint'", none⟩])] ∧
    ¬ WellFormed "pre-push" missingProgram true
      (runCheckPlansJsonl "pre-push" missingProgram true none []).events := by
  refine ⟨rfl, fun h => ?_⟩
  obtain ⟨body, statuses, status, p, f, s, checks, hEvents, -, -, hChecks, -⟩ := h
  obtain ⟨ended, -, outputs, exitCode, outputBytes, reason, hOwn, -⟩ := hChecks (0, missingProgram[0])
    (mem_placed.mpr rfl)
  have hAll : [_, _, _] ++ [_, _] = _ := hEvents
  obtain ⟨hFront, -⟩ := List.append_inj' hAll rfl
  change [_, _, _] = _ :: _ :: body at hFront
  obtain rfl := (List.cons.inj (List.cons.inj hFront).2).2
  have hLength := congrArg List.length hOwn
  rw [List.length_cons, List.length_append] at hLength
  cases hLength

end Exosuit.Hook
