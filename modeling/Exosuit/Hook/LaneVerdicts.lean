import Exosuit.Hook.HumanRunner

/-!
# When a lane passes

A check that is skipped stops the loop over the sequential group of the JSONL runner
as a failure does, but it does not count as one.
-/

namespace Exosuit.Hook

open Lib

variable {lane : String} {scopeBase : Option String} {laneParallel : Bool}

/-! ## What a check comes to -/

namespace Attempt

def commandSucceeds (a : Attempt) : Bool :=
  match a.command with
  | .exited code _ => code == some 0
  | _ => false

/-- The tool answers a success, or the command is there and succeeds. -/
def succeeds (a : Attempt) : Bool :=
  if a.plan.tool.isSome then
    match a.tool with
    | .answered success _ => success
    | _ => false
  else !a.plan.parts.isEmpty && a.commandSucceeds

def restages (scopeBase : Option String) (a : Attempt) : Bool :=
  a.plan.restage == .off ||
    match applyRestageIfNeeded scopeBase a.plan a.git with
    | .ok () => true
    | .error _ => false

end Attempt

/-- The result does not count as failed. -/
def Clean (result : Option (Except String CheckSummary)) : Prop :=
  ∃ s, result = some (.ok s) ∧ (s.status = .success ∨ s.status = .skipped)

theorem runJsonlCheck_of_skipped {index : Nat} {a : Attempt} (h : a.plan.skipped = true) :
    (runJsonlCheck lane index a).result = some (.ok (skippedSummary a.plan)) := by
  rw [runJsonlCheck, if_pos h]

theorem statusOf_eq_success {success : Bool} : statusOf success = .success ↔ success = true := by
  cases success <;> simp [statusOf]

theorem statusOf_ne_skipped (success : Bool) : statusOf success ≠ .skipped := by
  cases success <;> simp [statusOf]

theorem runJsonlCheck_of_run (lane : String) (index : Nat) {a : Attempt} (h : a.plan.skipped = false) :
    ((∃ s, (runJsonlCheck lane index a).result = some (.ok s) ∧ s.status = .success) ↔
      a.succeeds = true) ∧
    ∀ s, (runJsonlCheck lane index a).result = some (.ok s) → s.status ≠ .skipped := by
  rw [runJsonlCheck, if_neg (by rw [h]; nofun), Attempt.succeeds]
  by_cases hTool : a.plan.tool.isSome
  · rw [if_pos hTool, if_pos hTool]
    cases a.tool with
    | answered success message =>
      simp [toolSummary, statusOf_eq_success, statusOf_ne_skipped]
    | failed error => simp
    | panicked => simp
  · rw [if_neg hTool, if_neg hTool]
    by_cases hParts : a.plan.parts = []
    · simp [hParts]
    · rw [if_neg hParts, Attempt.commandSucceeds]
      cases a.command with
      | exited code chunks =>
        simp [runCommandCaptureJsonl, commandSummary, statusOf_eq_success, statusOf_ne_skipped,
          CheckResult.success, hParts]
      | notSpawned error => simp [runCommandCaptureJsonl]
      | notWaited error chunks => simp [runCommandCaptureJsonl]
      | panicked chunks => simp [runCommandCaptureJsonl]

theorem restageError_eq_none_iff {a : Attempt} {s : CheckSummary} (hStatus : s.status = .success) :
    restageError scopeBase a s = none ↔ a.restages scopeBase = true := by
  rw [restageError, Attempt.restages]
  cases hPolicy : a.plan.restage with
  | off => simp
  | auto =>
    cases applyRestageIfNeeded scopeBase a.plan a.git with
    | ok => simp
    | error e => simp [hStatus]

theorem restageError_of_ne {a : Attempt} {s : CheckSummary} (hStatus : s.status ≠ .success) :
    restageError scopeBase a s = none := by
  rw [restageError, if_neg fun h => hStatus h.2]

/-! ## The sequential group -/

inductive LoopStep (lane : String) (scopeBase : Option String) (e : Nat × Attempt)
    (rest : List (Nat × Attempt)) : List Executed → Prop
  | skipped (hSkipped : e.2.plan.skipped = true) :
    LoopStep lane scopeBase e rest
      [⟨e.1, (runJsonlCheck lane e.1 e.2).events, some (.ok (skippedSummary e.2.plan))⟩]
  | passed (hSkipped : e.2.plan.skipped = false) (hSucceeds : e.2.succeeds = true)
      (hRestages : e.2.restages scopeBase = true) (s : CheckSummary) (hStatus : s.status = .success)
      (hResult : (runJsonlCheck lane e.1 e.2).result = some (.ok s)) :
    LoopStep lane scopeBase e rest
      (⟨e.1, (runJsonlCheck lane e.1 e.2).events, some (.ok s)⟩ :: runSequential lane scopeBase rest)
  | failed (hSkipped : e.2.plan.skipped = false) (hSucceeds : e.2.succeeds = false)
      (hFailed : ¬ Clean (runJsonlCheck lane e.1 e.2).result) :
    LoopStep lane scopeBase e rest
      [⟨e.1, (runJsonlCheck lane e.1 e.2).events, (runJsonlCheck lane e.1 e.2).result⟩]
  | notRestaged (hSkipped : e.2.plan.skipped = false) (hSucceeds : e.2.succeeds = true)
      (hRestages : e.2.restages scopeBase = false) (error : String) :
    LoopStep lane scopeBase e rest
      [⟨e.1, (runJsonlCheck lane e.1 e.2).events ++ [.restageFailed e.2.plan.id lane error],
        some (.error error)⟩]

theorem not_clean_error {error : String} : ¬ Clean (some (.error error)) := by
  rintro ⟨s, hs, -⟩
  cases hs

theorem runSequential_cons (lane : String) (scopeBase : Option String) (e : Nat × Attempt)
    (rest : List (Nat × Attempt)) :
    LoopStep lane scopeBase e rest (runSequential lane scopeBase (e :: rest)) := by
  obtain ⟨index, a⟩ := e
  by_cases hSkipped : a.plan.skipped = true
  · have hStep : LoopStep lane scopeBase (index, a) rest _ := .skipped hSkipped
    have hNone : restageError scopeBase a (skippedSummary a.plan) = none := restageError_of_ne nofun
    have hRun : runSequential lane scopeBase ((index, a) :: rest) =
        [⟨index, (runJsonlCheck lane index a).events, some (.ok (skippedSummary a.plan))⟩] := by
      simp only [runSequential, runJsonlCheck_of_skipped hSkipped, hNone]
      rw [if_neg nofun]
    rwa [hRun]
  rw [Bool.not_eq_true] at hSkipped
  obtain ⟨hSuccess, hStatus⟩ := runJsonlCheck_of_run lane index hSkipped
  have hFailed : ∀ r, (runJsonlCheck lane index a).result = r →
      (∀ s, r = some (.ok s) → s.status ≠ .success) →
      LoopStep lane scopeBase (index, a) rest [⟨index, (runJsonlCheck lane index a).events, r⟩] := by
    rintro r rfl hNever
    refine .failed hSkipped ?_ ?_
    · rw [← Bool.not_eq_true]
      intro hSucceeds
      obtain ⟨s, hs, hSuccess'⟩ := hSuccess.mpr hSucceeds
      exact hNever s hs hSuccess'
    · rintro ⟨s, hs, hClean | hClean⟩
      · exact hNever s hs hClean
      · exact hStatus s hs hClean
  rw [runSequential]
  cases hResult : (runJsonlCheck lane index a).result with
  | none => exact hFailed none hResult nofun
  | some r =>
    cases r with
    | error error => exact hFailed _ hResult nofun
    | ok s =>
      by_cases hs : s.status = .success
      · have hSucceeds := hSuccess.mp ⟨s, hResult, hs⟩
        cases hRestage : restageError scopeBase a s with
        | none =>
          simp only [hRestage, if_pos hs]
          exact .passed hSkipped hSucceeds ((restageError_eq_none_iff hs).mp hRestage) s hs hResult
        | some error =>
          simp only [hRestage]
          refine .notRestaged hSkipped hSucceeds ?_ error
          rw [← Bool.not_eq_true, ← restageError_eq_none_iff hs, hRestage]
          nofun
      · simp only [restageError_of_ne hs, if_neg hs]
        refine hFailed _ hResult fun s' hs' => ?_
        cases hs'
        exact hs

/-- All checks up to the first skipped one pass. -/
def clears (scopeBase : Option String) : List (Nat × Attempt) → Bool
  | [] => true
  | (_, a) :: rest => a.plan.skipped || (a.succeeds && a.restages scopeBase && clears scopeBase rest)

/-- A check that is not skipped comes after one that is. -/
def late : List (Nat × Attempt) → Bool
  | [] => false
  | (_, a) :: rest => if a.plan.skipped then rest.any fun e => !e.2.plan.skipped else late rest

theorem runSequential_clean_iff (l : List (Nat × Attempt)) :
    (∀ x ∈ runSequential lane scopeBase l, Clean x.result) ↔ clears scopeBase l = true := by
  induction l with
  | nil => simp [runSequential, clears]
  | cons e rest ih =>
    have hStep := runSequential_cons lane scopeBase e rest
    generalize runSequential lane scopeBase (e :: rest) = executed at hStep
    cases hStep with
    | skipped hSkipped => simp [clears, hSkipped, Clean, skippedSummary]
    | passed hSkipped hSucceeds hRestages s hStatus hResult =>
      rw [List.forall_mem_cons, ih]
      simp [clears, hSkipped, hSucceeds, hRestages, Clean, hStatus]
    | failed hSkipped hSucceeds hFailed => simp [clears, hSkipped, hSucceeds, hFailed]
    | notRestaged hSkipped hSucceeds hRestages error =>
      simp [clears, hSkipped, hRestages, not_clean_error]

/-- Some entry says that the check at this place ran and passed. -/
def PassedAt (executed : List Executed) (index : Nat) : Prop :=
  ∃ x ∈ executed, x.index = index ∧ ∃ s, x.result = some (.ok s) ∧ s.status = .success

theorem index_mem_of_mem_runSequential {l : List (Nat × Attempt)} {x : Executed}
    (hx : x ∈ runSequential lane scopeBase l) : ∃ a, (x.index, a) ∈ l := by
  induction l with
  | nil => cases hx
  | cons e rest ih =>
    have hStep := runSequential_cons lane scopeBase e rest
    generalize runSequential lane scopeBase (e :: rest) = executed at hStep hx
    cases hStep with
    | skipped | failed | notRestaged =>
      obtain rfl := List.mem_singleton.mp hx
      exact ⟨e.2, List.mem_cons_self⟩
    | passed =>
      rcases List.mem_cons.mp hx with rfl | hRest
      · exact ⟨e.2, List.mem_cons_self⟩
      · obtain ⟨a, ha⟩ := ih hRest
        exact ⟨a, List.mem_cons_of_mem _ ha⟩

theorem runSequential_all_iff (lane : String) {l : List (Nat × Attempt)} (hNodup : (l.map Prod.fst).Nodup) :
    (∀ e ∈ l, e.2.plan.skipped = false → PassedAt (runSequential lane scopeBase l) e.1) ↔
      clears scopeBase l = true ∧ late l = false := by
  induction l with
  | nil => simp [clears, late]
  | cons e rest ih =>
    obtain ⟨hNew, hRest⟩ := List.nodup_cons.mp hNodup
    have hOther : ∀ e' ∈ rest, e'.1 ≠ e.1 := by
      rintro e' he' hSame
      exact hNew (List.mem_map.mpr ⟨e', he', hSame⟩)
    have hStep := runSequential_cons lane scopeBase e rest
    generalize runSequential lane scopeBase (e :: rest) = executed at hStep
    have hFirst : ∀ {x : Executed}, executed = [x] → x.index = e.1 → ∀ e' ∈ rest, ¬ PassedAt executed e'.1 := by
      rintro x rfl hx e' he' ⟨y, hy, hIndex, -⟩
      obtain rfl := List.mem_singleton.mp hy
      exact hOther e' he' (hIndex.symm.trans hx)
    rw [List.forall_mem_cons]
    cases hStep with
    | skipped hSkipped =>
      have hNone := hFirst rfl rfl
      simp only [clears, late, hSkipped, Bool.true_or, true_and, if_true, List.any_eq_false]
      constructor
      · rintro ⟨-, hAll⟩ e' he'
        by_contra hWaits
        exact hNone e' he' (hAll e' he' (by simpa using hWaits))
      · intro hAll
        refine ⟨nofun, fun e' he' hRun => ?_⟩
        exact absurd (hAll e' he') (by simp [hRun])
    | passed hSkipped hSucceeds hRestages s hStatus hResult =>
      have hSame : ∀ e' ∈ rest, PassedAt (⟨e.1, (runJsonlCheck lane e.1 e.2).events, some (.ok s)⟩ ::
          runSequential lane scopeBase rest) e'.1 ↔ PassedAt (runSequential lane scopeBase rest) e'.1 := by
        intro e' he'
        unfold PassedAt
        rw [List.exists_mem_cons_iff, or_iff_right]
        rintro ⟨hIndex, -⟩
        exact hOther e' he' hIndex.symm
      have hHead : PassedAt (⟨e.1, (runJsonlCheck lane e.1 e.2).events, some (.ok s)⟩ ::
          runSequential lane scopeBase rest) e.1 := ⟨_, List.mem_cons_self, rfl, s, rfl, hStatus⟩
      rw [and_iff_right fun _ => hHead]
      simp only [clears, late, hSkipped, hSucceeds, hRestages, Bool.false_or, Bool.true_and,
        Bool.false_eq_true, if_false]
      rw [← ih hRest]
      exact forall₃_congr fun e' he' _ => hSame e' he'
    | failed hSkipped hSucceeds hFailed =>
      refine iff_of_false (fun h => ?_) fun h => by simp [clears, hSkipped, hSucceeds] at h
      obtain ⟨x, hx, -, s, hResult, hStatus⟩ := h.1 hSkipped
      obtain rfl := List.mem_singleton.mp hx
      exact hFailed ⟨s, hResult, .inl hStatus⟩
    | notRestaged hSkipped hSucceeds hRestages error =>
      refine iff_of_false (fun h => ?_) fun h => by simp [clears, hSkipped, hRestages] at h
      obtain ⟨x, hx, -, s, hResult, -⟩ := h.1 hSkipped
      obtain rfl := List.mem_singleton.mp hx
      cases hResult

/-! ## The places of a lane -/

theorem fst_placed (attempts : List Attempt) :
    (placed attempts).map Prod.fst = List.range attempts.length := by
  rw [placed, List.map_map, List.range_eq_range']
  exact List.zipIdx_map_snd 0 attempts

theorem mem_placed {attempts : List Attempt} {e : Nat × Attempt} :
    e ∈ placed attempts ↔ attempts[e.1]? = some e.2 := by
  rw [placed, List.mem_map, ← List.mk_mem_zipIdx_iff_getElem?]
  constructor
  · rintro ⟨e', he', rfl⟩
    exact he'
  · exact fun he => ⟨(e.2, e.1), he, rfl⟩

theorem mem_parallelPlans {attempts : List Attempt} {e : Nat × Attempt} :
    e ∈ parallelPlans laneParallel scopeBase attempts ↔
      e ∈ placed attempts ∧ runsAlone laneParallel scopeBase e.2.plan = false := by
  rw [parallelPlans, List.mem_filter, Bool.not_eq_true']

theorem mem_sequentialPlans {attempts : List Attempt} {e : Nat × Attempt} :
    e ∈ sequentialPlans laneParallel scopeBase attempts ↔
      e ∈ placed attempts ∧ runsAlone laneParallel scopeBase e.2.plan = true := by
  rw [sequentialPlans, List.mem_filter]

theorem nodup_placed (attempts : List Attempt) : ((placed attempts).map Prod.fst).Nodup := by
  rw [fst_placed]
  exact List.nodup_range

theorem nodup_groups (laneParallel : Bool) (scopeBase : Option String) (attempts : List Attempt) :
    ((parallelPlans laneParallel scopeBase attempts ++
      sequentialPlans laneParallel scopeBase attempts).map Prod.fst).Nodup := by
  have hPerm := List.filter_append_perm
    (fun e : Nat × Attempt => runsAlone laneParallel scopeBase e.2.plan) (placed attempts)
  have hSwap := (List.perm_append_comm.trans hPerm).map Prod.fst
  exact hSwap.nodup_iff.mpr (nodup_placed attempts)

theorem index_isInitial (lane : String) (scopeBase : Option String) (l : List (Nat × Attempt)) :
    (runSequential lane scopeBase l).map Executed.index <+: l.map Prod.fst := by
  induction l with
  | nil => exact List.prefix_refl _
  | cons e rest ih =>
    have hStep := runSequential_cons lane scopeBase e rest
    generalize runSequential lane scopeBase (e :: rest) = executed at hStep
    cases hStep with
    | skipped | failed | notRestaged => exact ⟨rest.map Prod.fst, rfl⟩
    | passed => exact (List.prefix_cons_inj e.1).mpr ih

/-! ## The results -/

def executedOf (lane : String) (attempts : List Attempt) (laneParallel : Bool)
    (scopeBase : Option String) : List Executed :=
  (parallelPlans laneParallel scopeBase attempts).map (runThread lane) ++
    runSequential lane scopeBase (sequentialPlans laneParallel scopeBase attempts)

theorem nodup_executedOf (lane : String) (attempts : List Attempt) (laneParallel : Bool)
    (scopeBase : Option String) :
    ((executedOf lane attempts laneParallel scopeBase).map Executed.index).Nodup := by
  have hGroups := nodup_groups laneParallel scopeBase attempts
  have hThreads : ((parallelPlans laneParallel scopeBase attempts).map (runThread lane)).map
      Executed.index = (parallelPlans laneParallel scopeBase attempts).map Prod.fst := by
    rw [List.map_map]
    rfl
  rw [List.map_append] at hGroups
  rw [executedOf, List.map_append, hThreads]
  exact hGroups.sublist ((List.Sublist.refl _).append (index_isInitial lane scopeBase _).sublist)

theorem find_of_nodup_map {α : Type} {f : α → Nat} {l : List α} (hNodup : (l.map f).Nodup) {x : α}
    (hx : x ∈ l) : l.find? (fun e => f e == f x) = some x := by
  induction l with
  | nil => cases hx
  | cons y l ih =>
    obtain ⟨hNew, hRest⟩ := List.nodup_cons.mp hNodup
    rcases List.mem_cons.mp hx with rfl | hMem
    · rw [List.find?_cons_of_pos (by simp)]
    · rw [List.find?_cons_of_neg ?_, ih hRest hMem]
      rw [beq_iff_eq]
      exact fun hSame => hNew (List.mem_map.mpr ⟨x, hMem, hSame.symm⟩)

theorem resultsOf_index {l : List Executed} (hNodup : (l.map Executed.index).Nodup) {x : Executed}
    (hx : x ∈ l) : resultsOf l x.index = x.result := by
  rw [resultsOf, find_of_nodup_map hNodup hx]
  rfl

theorem resultsOf_eq_some {l : List Executed} {index : Nat} {r : Except String CheckSummary}
    (h : resultsOf l index = some r) : ∃ x ∈ l, x.index = index ∧ x.result = some r := by
  obtain ⟨x, hFound, hResult⟩ := Option.bind_eq_some_iff.mp h
  exact ⟨x, List.mem_of_find?_eq_some hFound, by simpa using List.find?_some hFound, hResult⟩

theorem clean_summaryOf {r : Attempt × Except String CheckSummary} :
    (summaryOf r).status = .success ∨ (summaryOf r).status = .skipped ↔ Clean (some r.2) := by
  obtain ⟨a, r⟩ := r
  cases r with
  | ok s => simp [summaryOf, Clean]
  | error error => simp [summaryOf, not_clean_error]

theorem failedOf_eq_zero {results : Results} {attempts : List Attempt} :
    failedOf ((ranResults results attempts).map summaryOf) = 0 ↔
      ∀ e ∈ placed attempts, ∀ r, results e.1 = some r → Clean (some r) := by
  rw [failedOf, List.countP_eq_zero, List.forall_mem_map, ranResults]
  simp only [List.mem_filterMap, Option.map_eq_some_iff, forall_exists_index, and_imp]
  constructor
  · intro h e he r hr
    refine (clean_summaryOf (r := (e.2, r))).mp (Classical.byContradiction fun hNot => ?_)
    exact h (e.2, r) e he r hr rfl (by simpa [not_or] using hNot)
  · rintro h _ e he r hr rfl
    have hClean := (clean_summaryOf (r := (e.2, r))).mpr (h e he r hr)
    rcases hClean with hStatus | hStatus <;> simp [hStatus]

variable {attempts : List Attempt} {schedule : List Nat}

theorem index_mem_of_mem_executedOf {x : Executed}
    (hx : x ∈ executedOf lane attempts laneParallel scopeBase) :
    ∃ a, (x.index, a) ∈ placed attempts := by
  rcases List.mem_append.mp hx with hThread | hLoop
  · obtain ⟨e, he, rfl⟩ := List.mem_map.mp hThread
    exact ⟨e.2, (mem_parallelPlans.mp he).1⟩
  · obtain ⟨a, ha⟩ := index_mem_of_mem_runSequential hLoop
    exact ⟨a, (mem_sequentialPlans.mp ha).1⟩

/-- The runner succeeds exactly when no result counts as failed. -/
theorem outcome_ok_iff :
    (runCheckPlansJsonl lane attempts laneParallel scopeBase schedule).outcome = some (.ok ()) ↔
      ∀ x ∈ executedOf lane attempts laneParallel scopeBase, Clean x.result := by
  rw [runCheckPlansJsonl]
  split
  · next hPanic =>
    obtain ⟨x, hx, hNone⟩ := List.any_eq_true.mp hPanic
    refine iff_of_false nofun fun h => ?_
    obtain ⟨s, hs, -⟩ := h x (List.mem_append_right _ hx)
    rw [hs] at hNone
    cases hNone
  · next hReturns =>
    have hSome : ∀ x ∈ executedOf lane attempts laneParallel scopeBase, x.result ≠ none := by
      intro x hx hNone
      rcases List.mem_append.mp hx with hThread | hLoop
      · obtain ⟨e, -, rfl⟩ := List.mem_map.mp hThread
        cases hNone
      · exact hReturns (List.any_eq_true.mpr ⟨x, hLoop, by rw [hNone]; rfl⟩)
    have hNodup := nodup_executedOf lane attempts laneParallel scopeBase
    have hFailed : failedOf ((ranResults (resultsOf (executedOf lane attempts laneParallel scopeBase))
        attempts).map summaryOf) = 0 ↔
          ∀ x ∈ executedOf lane attempts laneParallel scopeBase, Clean x.result := by
      rw [failedOf_eq_zero]
      constructor
      · intro h x hx
        obtain ⟨a, ha⟩ := index_mem_of_mem_executedOf hx
        obtain ⟨r, hr⟩ := Option.ne_none_iff_exists'.mp (hSome x hx)
        rw [hr]
        exact h (x.index, a) ha r ((resultsOf_index hNodup hx).trans hr)
      · intro h e he r hr
        obtain ⟨x, hx, -, hResult⟩ := resultsOf_eq_some hr
        exact hResult ▸ h x hx
    rw [← hFailed]
    change some (if failedOf ((ranResults (resultsOf (executedOf lane attempts laneParallel scopeBase))
      attempts).map summaryOf) = 0 then Except.ok () else _) = some (.ok ()) ↔ _
    split
    · next h => simp [h]
    · next h => simp [h]

theorem runThread_clean_iff (e : Nat × Attempt) :
    Clean (runThread lane e).result ↔ e.2.plan.skipped = true ∨ e.2.succeeds = true := by
  rw [runThread]
  cases hSkipped : e.2.plan.skipped with
  | true =>
    rw [runJsonlCheck_of_skipped hSkipped]
    exact iff_of_true ⟨_, rfl, .inr rfl⟩ (.inl rfl)
  | false =>
    obtain ⟨hSuccess, hStatus⟩ := runJsonlCheck_of_run lane e.1 hSkipped
    rw [or_iff_right nofun, ← hSuccess]
    cases hResult : (runJsonlCheck lane e.1 e.2).result with
    | none => exact iff_of_false not_clean_error nofun
    | some r =>
      constructor
      · rintro ⟨s, hs, hClean⟩
        cases hs
        exact ⟨s, rfl, hClean.resolve_right (hStatus s hResult)⟩
      · rintro ⟨s, hs, hClean⟩
        exact ⟨s, hs, .inl hClean⟩

theorem outcome_ok_iff_groups (lane : String) (schedule : List Nat) :
    (runCheckPlansJsonl lane attempts laneParallel scopeBase schedule).outcome = some (.ok ()) ↔
      (∀ e ∈ parallelPlans laneParallel scopeBase attempts,
        e.2.plan.skipped = true ∨ e.2.succeeds = true) ∧
      clears scopeBase (sequentialPlans laneParallel scopeBase attempts) = true := by
  rw [outcome_ok_iff, executedOf, List.forall_mem_append, List.forall_mem_map,
    runSequential_clean_iff]
  exact and_congr_left' (forall₂_congr fun e _ => runThread_clean_iff e)

/-- The runner ran the check at this place and it passed. -/
def Results.Passed (results : Results) (index : Nat) : Prop :=
  ∃ s, results index = some (.ok s) ∧ s.status = .success

theorem results_runCheckPlansJsonl :
    (runCheckPlansJsonl lane attempts laneParallel scopeBase schedule).results =
      resultsOf (executedOf lane attempts laneParallel scopeBase) := by
  rw [runCheckPlansJsonl]
  split <;> rfl

theorem passed_resultsOf_iff {l : List Executed} (hNodup : (l.map Executed.index).Nodup) {index : Nat} :
    (resultsOf l).Passed index ↔ PassedAt l index := by
  constructor
  · rintro ⟨s, hs, hStatus⟩
    obtain ⟨x, hx, hIndex, hResult⟩ := resultsOf_eq_some hs
    exact ⟨x, hx, hIndex, s, hResult, hStatus⟩
  · rintro ⟨x, hx, rfl, s, hResult, hStatus⟩
    exact ⟨s, (resultsOf_index hNodup hx).trans hResult, hStatus⟩

theorem passed_thread_iff (lane : String) {e : Nat × Attempt} (hSkipped : e.2.plan.skipped = false) :
    (∃ s, (runThread lane e).result = some (.ok s) ∧ s.status = .success) ↔ e.2.succeeds = true := by
  rw [← (runJsonlCheck_of_run lane e.1 hSkipped).1, runThread]
  cases (runJsonlCheck lane e.1 e.2).result with
  | none => exact iff_of_false nofun nofun
  | some r => rfl

theorem all_passed_iff :
    (∀ e ∈ placed attempts, e.2.plan.skipped = false →
      (runCheckPlansJsonl lane attempts laneParallel scopeBase schedule).results.Passed e.1) ↔
      (∀ e ∈ parallelPlans laneParallel scopeBase attempts,
        e.2.plan.skipped = true ∨ e.2.succeeds = true) ∧
      clears scopeBase (sequentialPlans laneParallel scopeBase attempts) = true ∧
      late (sequentialPlans laneParallel scopeBase attempts) = false := by
  have hNodup := nodup_executedOf lane attempts laneParallel scopeBase
  have hGroups := nodup_groups laneParallel scopeBase attempts
  rw [List.map_append, List.nodup_append] at hGroups
  obtain ⟨hParallel, hSequential, hApart⟩ := hGroups
  rw [results_runCheckPlansJsonl, ← runSequential_all_iff lane hSequential]
  have hThread : ∀ e ∈ parallelPlans laneParallel scopeBase attempts, e.2.plan.skipped = false →
      (PassedAt (executedOf lane attempts laneParallel scopeBase) e.1 ↔ e.2.succeeds = true) := by
    intro e he hSkipped
    have hMem : runThread lane e ∈ executedOf lane attempts laneParallel scopeBase :=
      List.mem_append_left _ (List.mem_map_of_mem he)
    rw [← passed_resultsOf_iff hNodup, ← passed_thread_iff lane hSkipped,
      ← resultsOf_index hNodup hMem]
    rfl
  have hLoop : ∀ e ∈ sequentialPlans laneParallel scopeBase attempts,
      (PassedAt (executedOf lane attempts laneParallel scopeBase) e.1 ↔
        PassedAt (runSequential lane scopeBase (sequentialPlans laneParallel scopeBase attempts)) e.1) := by
    intro e he
    constructor
    · rintro ⟨x, hx, hIndex, hPassed⟩
      rcases List.mem_append.mp hx with hMem | hMem
      · obtain ⟨e', he', rfl⟩ := List.mem_map.mp hMem
        exact absurd hIndex (hApart _ (List.mem_map_of_mem he') _ (List.mem_map_of_mem he))
      · exact ⟨x, hMem, hIndex, hPassed⟩
    · rintro ⟨x, hx, hRest⟩
      exact ⟨x, List.mem_append_right _ hx, hRest⟩
  constructor
  · intro h
    refine ⟨fun e he => ?_, fun e he hSkipped => ?_⟩
    · cases hSkipped : e.2.plan.skipped with
      | true => exact .inl rfl
      | false =>
        refine .inr ((hThread e he hSkipped).mp ?_)
        exact (passed_resultsOf_iff hNodup).mp (h e (mem_parallelPlans.mp he).1 hSkipped)
    · refine (hLoop e he).mp ((passed_resultsOf_iff hNodup).mp ?_)
      exact h e (mem_sequentialPlans.mp he).1 hSkipped
  · rintro ⟨hThreads, hAll⟩ e he hSkipped
    rw [passed_resultsOf_iff hNodup]
    cases hAlone : runsAlone laneParallel scopeBase e.2.plan with
    | false =>
      have hMem := mem_parallelPlans.mpr ⟨he, hAlone⟩
      refine (hThread e hMem hSkipped).mpr ((hThreads e hMem).resolve_left ?_)
      rw [hSkipped]
      nofun
    | true =>
      have hMem := mem_sequentialPlans.mpr ⟨he, hAlone⟩
      exact (hLoop e hMem).mpr (hAll e hMem hSkipped)

end Exosuit.Hook
