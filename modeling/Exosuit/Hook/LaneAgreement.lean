import Exosuit.Hook.LaneVerdicts

/-!
# The two runners

The runners agree on a lane without skipped checks and tools. The JSONL runner alone
takes skipped checks and tools.
-/

namespace Exosuit.Hook

open Lib

variable {lane : String} {scopeBase : Option String} {laneParallel : Bool} {attempts : List Attempt}
  {schedule : List Nat}

/-! ## What the JSONL runner reports -/

/-- The last two events say that the lane passed. -/
structure LaneRun.Reports (lane : String) (run : LaneRun) : Prop where
  completed : ∃ passed failed skipped,
    (none, .laneCompleted lane .success passed failed skipped) ∈ run.events
  summary : ∃ checks, (none, .summary 1 lane .success checks) ∈ run.events

/-- Beside the first one, every event before the last two is about a check. -/
theorem eq_laneStarted {e : Option Nat × JsonlEvent} {threads loop : List Executed}
    (he : e ∈ laneHeader lane attempts laneParallel ++ threadEvents threads schedule ++ loopEvents loop)
    (hNone : e.1 = none) : e.2 = .laneStarted lane attempts.length laneParallel := by
  rcases List.mem_append.mp he with hFirst | hLoop
  · rcases List.mem_append.mp hFirst with hHeader | hThreads
    · rcases List.mem_cons.mp hHeader with rfl | hEnqueued
      · rfl
      · obtain ⟨_, -, rfl⟩ := List.mem_map.mp hEnqueued
        cases hNone
    · obtain ⟨_, -, rfl⟩ := List.mem_map.mp hThreads
      cases hNone
  · obtain ⟨_, -, hEvents⟩ := List.mem_flatMap.mp hLoop
    obtain ⟨_, -, rfl⟩ := List.mem_map.mp hEvents
    cases hNone

theorem failFast_ne_none {results : Results} {e : Option Nat × JsonlEvent}
    (he : e ∈ failFast lane results attempts) : e.1 ≠ none := by
  rw [failFast] at he
  split at he
  · obtain ⟨_, -, hEvents⟩ := List.mem_flatMap.mp he
    split at hEvents
    · obtain ⟨_, -, rfl⟩ := List.mem_map.mp hEvents
      nofun
    · cases hEvents
  · cases he

theorem reports_iff_ok :
    (runCheckPlansJsonl lane attempts laneParallel scopeBase schedule).Reports lane ↔
      (runCheckPlansJsonl lane attempts laneParallel scopeBase schedule).outcome = some (.ok ()) := by
  rw [runCheckPlansJsonl]
  split
  · refine iff_of_false (fun h => ?_) (by rintro ⟨⟩)
    obtain ⟨passed, failed, skipped, hMem⟩ := h.completed
    cases eq_laneStarted hMem rfl
  · dsimp only
    generalize (ranResults _ attempts).map summaryOf = summaries
    constructor
    · rintro ⟨⟨passed, failed, skipped, hMem⟩, -⟩
      rcases List.mem_append.mp hMem with hBefore | hLast
      · rcases List.mem_append.mp hBefore with hEvents | hFailFast
        · cases eq_laneStarted hEvents rfl
        · exact absurd rfl (failFast_ne_none hFailFast)
      · have hStatus : laneStatusOf summaries = .success := by
          rcases List.mem_cons.mp hLast with hEq | hRest
          · exact (JsonlEvent.laneCompleted.inj (Prod.mk.inj hEq).2).2.1.symm
          · cases List.mem_singleton.mp hRest
        rw [laneStatusOf] at hStatus
        split at hStatus
        · next hFailed => rw [if_pos hFailed]
        · cases hStatus
    · intro hOk
      have hStatus : laneStatusOf summaries = .success := by
        rw [laneStatusOf]
        split at hOk
        · next hFailed => rw [if_pos hFailed]
        · cases hOk
      rw [hStatus]
      exact ⟨⟨_, _, _, List.mem_append_right _ List.mem_cons_self⟩,
        ⟨_, List.mem_append_right _ (List.mem_cons_of_mem _ List.mem_cons_self)⟩⟩

/-! ## What the human runner needs -/

/-- The command is there, it exits with zero, and the restage step, where there is one, works. -/
def Attempt.Runs (scopeBase : Option String) (alone : Bool) (a : Attempt) : Prop :=
  a.plan.parts ≠ [] ∧ a.commandSucceeds = true ∧ (alone = true → a.restages scopeBase = true)

theorem runThreadHuman_failed_iff (e : Nat × Attempt) :
    (runThreadHuman e).2.failed = false ↔ e.2.Runs scopeBase false := by
  rw [runThreadHuman, Attempt.Runs, Attempt.commandSucceeds]
  by_cases hParts : e.2.plan.parts = []
  · simp [hParts, Slot.failed]
  · cases e.2.command <;> simp [hParts, Slot.failed, runCommand, CheckResult.success]

def LoopEnd.Clear : LoopEnd → Prop
  | .broke slots => ∀ slot ∈ slots, slot.2.failed = false
  | .returned _ | .panicked => False

theorem LoopEnd.clear_cons {slot : Nat × Slot} (h : slot.2.failed = false) (ended : LoopEnd) :
    (ended.cons slot).Clear ↔ ended.Clear := by
  cases ended with
  | broke slots => simp [LoopEnd.cons, LoopEnd.Clear, h]
  | returned | panicked => rfl

theorem runSequentialHuman_clear_iff (l : List (Nat × Attempt)) :
    (runSequentialHuman scopeBase l).Clear ↔ ∀ e ∈ l, e.2.Runs scopeBase true := by
  induction l with
  | nil => simp [runSequentialHuman, LoopEnd.Clear]
  | cons e rest ih =>
    obtain ⟨index, a⟩ := e
    rw [List.forall_mem_cons, ← ih, runSequentialHuman, Attempt.Runs, Attempt.commandSucceeds,
      Attempt.restages]
    by_cases hParts : a.plan.parts = []
    · simp [hParts, LoopEnd.Clear]
    · cases a.command with
      | exited code chunks =>
        by_cases hCode : code = some 0
        · cases hPolicy : a.plan.restage with
          | off => simp [hParts, runCommand, CheckResult.success, hCode, LoopEnd.clear_cons, Slot.failed]
          | auto =>
            cases applyRestageIfNeeded scopeBase a.plan a.git with
            | ok => simp [hParts, runCommand, CheckResult.success, hCode, LoopEnd.clear_cons, Slot.failed]
            | error => simp [hParts, runCommand, CheckResult.success, hCode, LoopEnd.Clear, Slot.failed]
        · simp [hParts, runCommand, CheckResult.success, hCode, LoopEnd.Clear, Slot.failed]
      | notSpawned | notWaited | panicked => simp [hParts, runCommand, LoopEnd.Clear, Slot.failed]

theorem LoopEnd.cons_eq_broke {slot : Nat × Slot} {ended : LoopEnd} {slots : List (Nat × Slot)}
    (h : ended.cons slot = .broke slots) : ∃ rest, ended = .broke rest ∧ slots = slot :: rest := by
  cases ended with
  | broke rest =>
    cases h
    exact ⟨rest, rfl, rfl⟩
  | returned | panicked => cases h

theorem slot_isInitial {l : List (Nat × Attempt)} {slots : List (Nat × Slot)}
    (h : runSequentialHuman scopeBase l = .broke slots) : slots.map Prod.fst <+: l.map Prod.fst := by
  induction l generalizing slots with
  | nil =>
    cases h
    exact List.prefix_refl _
  | cons e rest ih =>
    obtain ⟨index, a⟩ := e
    have hOne : ∀ slot : Slot, [(index, slot)].map Prod.fst <+: ((index, a) :: rest).map Prod.fst :=
      fun _ => ⟨rest.map Prod.fst, rfl⟩
    have hMore : ∀ {slot : Slot}, (runSequentialHuman scopeBase rest).cons (index, slot) = .broke slots →
        slots.map Prod.fst <+: ((index, a) :: rest).map Prod.fst := by
      intro slot hCons
      obtain ⟨more, hRest, rfl⟩ := LoopEnd.cons_eq_broke hCons
      exact (List.prefix_cons_inj index).mpr (ih hRest)
    rw [runSequentialHuman] at h
    split at h
    · cases h
    · split at h
      · cases h
      · cases h
        exact hOne _
      · split at h
        · cases h
          exact hOne _
        · split at h
          · split at h
            · cases h
              exact hOne _
            · exact hMore h
          · exact hMore h

/-- The human runner succeeds exactly when every command and every restage step works. -/
theorem runCheckPlans_ok_iff :
    runCheckPlans lane attempts laneParallel scopeBase = some (.ok ()) ↔
      ∀ a ∈ attempts, a.Runs scopeBase (runsAlone laneParallel scopeBase a.plan) := by
  have hGroups : (∀ a ∈ attempts, a.Runs scopeBase (runsAlone laneParallel scopeBase a.plan)) ↔
      (∀ e ∈ parallelPlans laneParallel scopeBase attempts, e.2.Runs scopeBase false) ∧
        ∀ e ∈ sequentialPlans laneParallel scopeBase attempts, e.2.Runs scopeBase true := by
    constructor
    · intro h
      refine ⟨fun e he => ?_, fun e he => ?_⟩
      · obtain ⟨hPlaced, hAlone⟩ := mem_parallelPlans.mp he
        exact hAlone ▸ h e.2 (List.mem_of_getElem? (mem_placed.mp hPlaced))
      · obtain ⟨hPlaced, hAlone⟩ := mem_sequentialPlans.mp he
        exact hAlone ▸ h e.2 (List.mem_of_getElem? (mem_placed.mp hPlaced))
    · rintro ⟨hThreads, hLoop⟩ a ha
      obtain ⟨index, hIndex⟩ := List.mem_iff_getElem?.mp ha
      have hPlaced : (index, a) ∈ placed attempts := mem_placed.mpr hIndex
      cases hAlone : runsAlone laneParallel scopeBase a.plan with
      | false => exact hThreads _ (mem_parallelPlans.mpr ⟨hPlaced, hAlone⟩)
      | true => exact hLoop _ (mem_sequentialPlans.mpr ⟨hPlaced, hAlone⟩)
  rw [hGroups, ← runSequentialHuman_clear_iff, runCheckPlans]
  cases hEnd : runSequentialHuman scopeBase (sequentialPlans laneParallel scopeBase attempts) with
  | panicked => exact iff_of_false nofun fun h => h.2
  | returned error => exact iff_of_false nofun fun h => h.2
  | broke slots =>
    have hNodup : (((parallelPlans laneParallel scopeBase attempts).map runThreadHuman ++ slots).map
        Prod.fst).Nodup := by
      have hPlans := nodup_groups laneParallel scopeBase attempts
      have hThreads : ((parallelPlans laneParallel scopeBase attempts).map runThreadHuman).map Prod.fst =
          (parallelPlans laneParallel scopeBase attempts).map Prod.fst := by
        rw [List.map_map]
        rfl
      rw [List.map_append] at hPlans ⊢
      rw [hThreads]
      exact hPlans.sublist ((List.Sublist.refl _).append (slot_isInitial hEnd).sublist)
    have hPlace : ∀ slot ∈ (parallelPlans laneParallel scopeBase attempts).map runThreadHuman ++ slots,
        ∃ a, (slot.1, a) ∈ placed attempts := by
      intro slot hSlot
      rcases List.mem_append.mp hSlot with hThread | hLoop
      · obtain ⟨e, he, rfl⟩ := List.mem_map.mp hThread
        exact ⟨e.2, (mem_parallelPlans.mp he).1⟩
      · obtain ⟨e, he, hIndex⟩ :=
          List.mem_map.mp ((slot_isInitial hEnd).subset (List.mem_map_of_mem hLoop))
        exact ⟨e.2, hIndex ▸ (mem_sequentialPlans.mp he).1⟩
    have hAll : (∀ slot ∈ (parallelPlans laneParallel scopeBase attempts).map runThreadHuman ++ slots,
        slot.2.failed = false) ↔
          (∀ e ∈ parallelPlans laneParallel scopeBase attempts, e.2.Runs scopeBase false) ∧
            (LoopEnd.broke slots).Clear := by
      rw [List.forall_mem_append, List.forall_mem_map]
      exact and_congr_left' (forall₂_congr fun e _ => runThreadHuman_failed_iff e)
    rw [← hAll]
    dsimp only
    generalize (parallelPlans laneParallel scopeBase attempts).map runThreadHuman ++ slots = ran
      at hNodup hPlace ⊢
    split
    · next hNone =>
      refine iff_of_true rfl fun slot hSlot => ?_
      obtain ⟨a, ha⟩ := hPlace slot hSlot
      rw [List.filter_eq_nil_iff] at hNone
      rw [← Bool.not_eq_true]
      refine hNone slot.2 (List.mem_filterMap.mpr ⟨_, ha, ?_⟩)
      rw [find_of_nodup_map hNodup hSlot]
      rfl
    · next slot more hSome =>
      refine iff_of_false nofun fun h => ?_
      have hMem : slot ∈ slot :: more := List.mem_cons_self
      rw [← hSome, List.mem_filter] at hMem
      obtain ⟨e, -, hFound⟩ := List.mem_filterMap.mp hMem.1
      obtain ⟨slot', hSlot', rfl⟩ := Option.map_eq_some_iff.mp hFound
      exact Bool.false_ne_true ((h _ (List.mem_of_find?_eq_some hSlot')).symm.trans hMem.2)

/-! ## Agreement -/

/-- The planner gives the plan of a tool no command. -/
def Planned (attempts : List Attempt) : Prop :=
  ∀ a ∈ attempts, a.plan.tool.isSome → a.plan.parts = []

/-- The lane passes for the JSONL runner exactly when all its checks do, it says so, and the
human runner passes the lane without the skipped checks. -/
structure Agrees (lane : String) (attempts : List Attempt) (laneParallel : Bool)
    (scopeBase : Option String) (schedule : List Nat) : Prop where
  checked : (runCheckPlansJsonl lane attempts laneParallel scopeBase schedule).outcome = some (.ok ()) ↔
    ∀ e ∈ placed attempts, e.2.plan.skipped = false →
      (runCheckPlansJsonl lane attempts laneParallel scopeBase schedule).results.Passed e.1
  reported : (runCheckPlansJsonl lane attempts laneParallel scopeBase schedule).Reports lane ↔
    (runCheckPlansJsonl lane attempts laneParallel scopeBase schedule).outcome = some (.ok ())
  human : (runCheckPlansJsonl lane attempts laneParallel scopeBase schedule).outcome = some (.ok ()) ↔
    runCheckPlans lane (attempts.filter fun a => !a.plan.skipped) laneParallel scopeBase =
      some (.ok ())

/-- Nothing fails before a skipped check stops the loop, though a check waits behind it or a
tool takes part. -/
structure Unchecked (attempts : List Attempt) (laneParallel : Bool) (scopeBase : Option String) :
    Prop where
  threads : ∀ e ∈ parallelPlans laneParallel scopeBase attempts,
    e.2.plan.skipped = true ∨ e.2.succeeds = true
  loop : clears scopeBase (sequentialPlans laneParallel scopeBase attempts) = true
  hidden : late (sequentialPlans laneParallel scopeBase attempts) = true ∨
    ∃ a ∈ attempts, a.plan.skipped = false ∧ a.plan.tool.isSome = true

theorem clears_of_forall {l : List (Nat × Attempt)}
    (h : ∀ e ∈ l, e.2.plan.skipped = false → e.2.succeeds = true ∧ e.2.restages scopeBase = true) :
    clears scopeBase l = true := by
  induction l with
  | nil => rfl
  | cons e rest ih =>
    obtain ⟨hHead, hRest⟩ := List.forall_mem_cons.mp h
    rw [clears]
    cases hSkipped : e.2.plan.skipped with
    | true => rfl
    | false =>
      obtain ⟨hSucceeds, hRestages⟩ := hHead hSkipped
      rw [hSucceeds, hRestages, ih hRest]
      rfl

/-- Where nothing waits behind a skipped check, all checks pass. -/
theorem forall_of_clears {l : List (Nat × Attempt)} (hClears : clears scopeBase l = true)
    (hLate : late l = false) :
    ∀ e ∈ l, e.2.plan.skipped = false → e.2.succeeds = true ∧ e.2.restages scopeBase = true := by
  induction l with
  | nil => exact List.forall_mem_nil _
  | cons e rest ih =>
    obtain ⟨index, a⟩ := e
    rw [clears] at hClears
    rw [late] at hLate
    rw [List.forall_mem_cons]
    cases hSkipped : a.plan.skipped with
    | true =>
      rw [hSkipped, if_pos rfl, List.any_eq_false] at hLate
      refine ⟨by rintro ⟨⟩, fun e' he' hRun => absurd (hLate e' he') ?_⟩
      rw [hRun]
      exact not_not_intro rfl
    | false =>
      rw [hSkipped, Bool.false_or, Bool.and_eq_true, Bool.and_eq_true] at hClears
      rw [hSkipped, if_neg Bool.false_ne_true] at hLate
      exact ⟨fun _ => hClears.1, ih hClears.2 hLate⟩

theorem succeeds_iff_of_command {a : Attempt} (hTool : a.plan.tool.isSome = false) :
    a.succeeds = true ↔ a.plan.parts ≠ [] ∧ a.commandSucceeds = true := by
  rw [Attempt.succeeds, hTool]
  simp

theorem human_ok_iff (hPlanned : Planned attempts) :
    runCheckPlans lane (attempts.filter fun a => !a.plan.skipped) laneParallel scopeBase =
        some (.ok ()) ↔
      ∀ a ∈ attempts, a.plan.skipped = false → a.plan.tool.isSome = false ∧ a.succeeds = true ∧
        (runsAlone laneParallel scopeBase a.plan = true → a.restages scopeBase = true) := by
  rw [runCheckPlans_ok_iff]
  simp only [List.mem_filter, Bool.not_eq_true', and_imp]
  refine forall₃_congr fun a ha _ => ?_
  cases hTool : a.plan.tool.isSome with
  | true => exact iff_of_false (fun h => h.1 (hPlanned a ha hTool)) fun h => Bool.noConfusion h.1
  | false =>
    rw [and_iff_right rfl, Attempt.Runs, succeeds_iff_of_command hTool]
    exact (and_assoc).symm

/-- The runners agree on a lane exactly when it does not pass unchecked. -/
theorem agrees_iff (lane : String) (attempts : List Attempt) (laneParallel : Bool)
    (scopeBase : Option String) (schedule : List Nat) (hPlanned : Planned attempts) :
    Agrees lane attempts laneParallel scopeBase schedule ↔
      ¬ Unchecked attempts laneParallel scopeBase := by
  constructor
  · rintro h ⟨hThreads, hLoop, hHidden⟩
    have hOk := (outcome_ok_iff_groups lane schedule).mpr ⟨hThreads, hLoop⟩
    rcases hHidden with hLate | ⟨a, ha, hSkipped, hTool⟩
    · have hAll := (all_passed_iff.mp (h.checked.mp hOk)).2.2
      exact Bool.noConfusion (hLate.symm.trans hAll)
    · have hHuman := (human_ok_iff hPlanned).mp (h.human.mp hOk) a ha hSkipped
      exact Bool.noConfusion (hTool.symm.trans hHuman.1)
  · intro hNot
    have hSplit : (runCheckPlansJsonl lane attempts laneParallel scopeBase schedule).outcome =
        some (.ok ()) → late (sequentialPlans laneParallel scopeBase attempts) = false ∧
          ∀ a ∈ attempts, a.plan.skipped = false → a.plan.tool.isSome = false := by
      intro hOk
      obtain ⟨hThreads, hLoop⟩ := (outcome_ok_iff_groups lane schedule).mp hOk
      refine ⟨Bool.eq_false_iff.mpr fun hLate => ?_, fun a ha hSkipped =>
        Bool.eq_false_iff.mpr fun hTool => ?_⟩
      · exact hNot ⟨hThreads, hLoop, .inl hLate⟩
      · exact hNot ⟨hThreads, hLoop, .inr ⟨a, ha, hSkipped, hTool⟩⟩
    refine ⟨⟨fun hOk => ?_, fun hAll => ?_⟩, reports_iff_ok, fun hOk => ?_, fun hHuman => ?_⟩
    · obtain ⟨hThreads, hLoop⟩ := (outcome_ok_iff_groups lane schedule).mp hOk
      exact all_passed_iff.mpr ⟨hThreads, hLoop, (hSplit hOk).1⟩
    · obtain ⟨hThreads, hLoop, -⟩ := all_passed_iff.mp hAll
      exact (outcome_ok_iff_groups lane schedule).mpr ⟨hThreads, hLoop⟩
    · obtain ⟨hThreads, hLoop⟩ := (outcome_ok_iff_groups lane schedule).mp hOk
      obtain ⟨hLate, hTools⟩ := hSplit hOk
      refine (human_ok_iff hPlanned).mpr fun a ha hSkipped => ⟨hTools a ha hSkipped, ?_⟩
      obtain ⟨index, hIndex⟩ := List.mem_iff_getElem?.mp ha
      have hPlaced : (index, a) ∈ placed attempts := mem_placed.mpr hIndex
      cases hAlone : runsAlone laneParallel scopeBase a.plan with
      | false =>
        have hThread := hThreads _ (mem_parallelPlans.mpr ⟨hPlaced, hAlone⟩)
        exact ⟨hThread.resolve_left (by rw [hSkipped]; exact Bool.false_ne_true), by rintro ⟨⟩⟩
      | true =>
        have hPass := forall_of_clears hLoop hLate _ (mem_sequentialPlans.mpr ⟨hPlaced, hAlone⟩) hSkipped
        exact ⟨hPass.1, fun _ => hPass.2⟩
    · have hAll := (human_ok_iff hPlanned).mp hHuman
      refine (outcome_ok_iff_groups lane schedule).mpr ⟨fun e he => ?_, clears_of_forall fun e he hSkipped => ?_⟩
      · cases hSkipped : e.2.plan.skipped with
        | true => exact .inl rfl
        | false =>
          have hMem := List.mem_of_getElem? (mem_placed.mp (mem_parallelPlans.mp he).1)
          exact .inr (hAll e.2 hMem hSkipped).2.1
      · obtain ⟨hPlaced, hAlone⟩ := mem_sequentialPlans.mp he
        obtain ⟨-, hSucceeds, hRestages⟩ := hAll e.2 (List.mem_of_getElem? (mem_placed.mp hPlaced)) hSkipped
        exact ⟨hSucceeds, hRestages hAlone⟩

/-! ## A check behind a skipped one -/

namespace Fixes

def fixPlan (id : String) (parts : List String) (skipped : Bool) : CheckPlan where
  id := id
  label := id
  parts := parts
  workdir := "/repo"
  category := .mutate
  restage := .auto
  containment := .off
  tool := none
  skipped := skipped
  filters := []
  matchedFiles := none

def clean : GitAnswers := ⟨some [], some [], .ok ["src/lib.rs"], .ok ()⟩

/-- No file for the first fix, and a second one whose command fails. -/
def fixes : List Attempt :=
  [⟨fixPlan "fmt-ts" ["bash", "-lc", "prettier --write"] true, .exited (some 0) [], .panicked, clean⟩,
    ⟨fixPlan "fmt-rust" ["bash", "-lc", "cargo fmt"] false, .exited (some 1) [], .panicked, clean⟩]

/-- The fixes the other way round: the second one finds no file. -/
def reordered : List Attempt := fixes.reverse

theorem planned : Planned reordered := by
  intro a ha
  rcases List.mem_cons.mp ha with rfl | hRest
  · nofun
  · obtain rfl := List.mem_singleton.mp hRest
    nofun

end Fixes

theorem fix_never_run :
    (runCheckPlansJsonl "pre-commit" Fixes.fixes true (some "staged") []).outcome = some (.ok ()) ∧
    runCheckPlans "pre-commit" (Fixes.fixes.filter fun a => !a.plan.skipped) true (some "staged") =
      some (.error "lane 'pre-commit' failed checks: fmt-rust") ∧
    ¬ Agrees "pre-commit" Fixes.fixes true (some "staged") [] := by
  have hOk : (runCheckPlansJsonl "pre-commit" Fixes.fixes true (some "staged") []).outcome =
      some (.ok ()) := rfl
  refine ⟨hOk, rfl, fun h => ?_⟩
  obtain ⟨s, hs, -⟩ := h.checked.mp hOk (1, Fixes.fixes[1]) (mem_placed.mpr rfl) rfl
  cases hs

theorem agrees_reordered : Agrees "pre-commit" Fixes.reordered true (some "staged") [] := by
  refine (agrees_iff "pre-commit" Fixes.reordered true (some "staged") [] Fixes.planned).mpr ?_
  rintro ⟨-, hLoop, -⟩
  exact Bool.noConfusion (hLoop.symm.trans (rfl : _ = false))

end Exosuit.Hook
