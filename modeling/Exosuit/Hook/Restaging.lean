import Exosuit.Hook.LaneAgreement
import Mathlib.Data.List.Dedup

/-!
# Restaging

What a lane with staged scope starts, finishes and restages, step by step, and what is staged on the
way: by which branch a restage step stays safe, and where git's silence makes it unsafe.
-/

namespace Exosuit.Hook

open Lib

/-! ## The files and what git says of them -/

/-- The files with unstaged changes before a check and after it, and the staged ones. `git_lines` trims
the names: files whose names differ in blanks at their ends only are one file here. -/
structure Files where
  before : List String
  after : List String
  staged : List String

/-- An answer of git lists what is there; every query may fail. -/
structure GitAnswers.Tells (git : GitAnswers) (files : Files) : Prop where
  before : ∀ l, git.before = some l → l = files.before
  after : ∀ l, git.after = some l → l = files.after
  cached : ∀ l, git.cached = .ok l → l = files.staged

/-- What the index gains by a restage step: the paths of `git add`, unless the step fails. -/
def stagedBy (scopeBase : Option String) (a : Attempt) : List String :=
  if scopeBase ≠ some "staged" then []
  else
    match applyRestageIfNeeded scopeBase a.plan a.git, a.git.cached with
    | .ok (), .ok lane => (a.git.after.getD []).filter (· ∈ lane)
    | _, _ => []

/-- Why a restage step of a staged lane fails. -/
inductive Refused (check : CheckPlan) (git : GitAnswers) : Prop
  | unlisted (error : String) (hLane : git.cached = .error error)
  | unfinished (lane : List String) (hLane : git.cached = .ok lane) (file : String)
      (hBefore : file ∈ git.before.getD []) (hFile : file ∈ lane)
  | escaped (lane : List String) (hLane : git.cached = .ok lane) (hFail : check.containment = .fail)
      (file : String) (hAfter : file ∈ git.after.getD []) (hNew : file ∉ git.before.getD [])
      (hFile : file ∉ lane)
  | notAdded (lane : List String) (hLane : git.cached = .ok lane) (error : String)
      (hAdd : git.add = .error error) (file : String) (hAfter : file ∈ git.after.getD [])
      (hFile : file ∈ lane)

theorem applyRestage_of_lane {check : CheckPlan} (hAuto : check.restage = .auto) {git : GitAnswers}
    {lane : List String} (hLane : git.cached = .ok lane) :
    (∃ error, applyRestageIfNeeded (some "staged") check git = .error error) ↔
      (∃ file ∈ git.before.getD [], file ∈ lane) ∨
      ((∃ file ∈ git.after.getD [], file ∉ git.before.getD [] ∧ file ∉ lane) ∧ check.containment = .fail) ∨
      ((∃ file ∈ git.after.getD [], file ∈ lane) ∧ ∃ error, git.add = .error error) := by
  have hUnfinished : (git.before.getD []).dedup.filter (· ∈ lane) ≠ [] ↔
      ∃ file ∈ git.before.getD [], file ∈ lane := by
    simp
  have hEscaped : ((git.after.getD []).dedup.filter (· ∉ git.before.getD [])).filter (· ∉ lane) ≠ [] ↔
      ∃ file ∈ git.after.getD [], file ∉ git.before.getD [] ∧ file ∉ lane := by
    simp [and_comm]
  have hStage : (git.after.getD []).filter (· ∈ lane) ≠ [] ↔ ∃ file ∈ git.after.getD [], file ∈ lane := by
    simp
  rw [← hUnfinished, ← hEscaped, ← hStage]
  unfold applyRestageIfNeeded
  rw [if_neg (not_not.mpr hAuto), if_neg (not_not.mpr rfl), hLane]
  dsimp only [bind, Except.bind, throw, throwThe, MonadExceptOf.throw, pure, Except.pure]
  by_cases hFirst : (git.before.getD []).dedup.filter (· ∈ lane) ≠ []
  · rw [if_pos hFirst]
    exact iff_of_true ⟨_, rfl⟩ (.inl hFirst)
  · rw [if_neg hFirst, or_iff_right hFirst]
    by_cases hSecond : ((git.after.getD []).dedup.filter (· ∉ git.before.getD [])).filter (· ∉ lane) ≠ [] ∧
        check.containment = .fail
    · rw [if_pos hSecond]
      exact iff_of_true ⟨_, rfl⟩ (.inl hSecond)
    · rw [if_neg hSecond, or_iff_right hSecond]
      by_cases hThird : (git.after.getD []).filter (· ∈ lane) ≠ []
      · rw [if_pos hThird, and_iff_right hThird]
      · rw [if_neg hThird]
        exact iff_of_false nofun fun h => hThird h.1

theorem applyRestage_error_iff {check : CheckPlan} (hAuto : check.restage = .auto) (git : GitAnswers) :
    (∃ error, applyRestageIfNeeded (some "staged") check git = .error error) ↔ Refused check git := by
  cases hLane : git.cached with
  | error error =>
    refine iff_of_true ⟨error, ?_⟩ (.unlisted error hLane)
    unfold applyRestageIfNeeded
    rw [if_neg (not_not.mpr hAuto), if_neg (not_not.mpr rfl), hLane]
    rfl
  | ok lane =>
    rw [applyRestage_of_lane hAuto hLane]
    constructor
    · rintro (⟨file, hBefore, hFile⟩ | ⟨⟨file, hAfter, hNew, hFile⟩, hFail⟩ |
        ⟨⟨file, hAfter, hFile⟩, error, hAdd⟩)
      · exact .unfinished lane hLane file hBefore hFile
      · exact .escaped lane hLane hFail file hAfter hNew hFile
      · exact .notAdded lane hLane error hAdd file hAfter hFile
    · intro h
      cases h with
      | unlisted error hError => exact nomatch hLane.symm.trans hError
      | unfinished lane' hLane' file hBefore hFile =>
        cases hLane.symm.trans hLane'
        exact .inl ⟨file, hBefore, hFile⟩
      | escaped lane' hLane' hFail file hAfter hNew hFile =>
        cases hLane.symm.trans hLane'
        exact .inr (.inl ⟨⟨file, hAfter, hNew, hFile⟩, hFail⟩)
      | notAdded lane' hLane' error hAdd file hAfter hFile =>
        cases hLane.symm.trans hLane'
        exact .inr (.inr ⟨⟨file, hAfter, hFile⟩, error, hAdd⟩)

/-! ## One restage step -/

/-- The states of the work tree in which nothing may be staged. -/
inductive Unsafe (check : CheckPlan) (git : GitAnswers) (files : Files) : Prop
  | unfinished (file : String) (hStaged : file ∈ files.staged) (hBefore : file ∈ files.before)
  | escaped (hFail : check.containment = .fail) (file : String) (hAfter : file ∈ files.after)
      (hNew : file ∉ files.before) (hOut : file ∉ files.staged)
  | undetermined (hBefore : git.before = none)

/-- The step stages files of the lane only that were as staged before, and nothing where it may not. -/
structure SafeStep (a : Attempt) (files : Files) : Prop where
  own : ∀ file ∈ stagedBy (some "staged") a, file ∈ files.staged ∧ file ∉ files.before
  refuses : Unsafe a.plan a.git files → stagedBy (some "staged") a = [] ∧
    a.restages (some "staged") = false

/-- Git answers before the check, and after it where a file outside the lane has become dirty under
containment; else the step fails for another reason. -/
def Informed (a : Attempt) (files : Files) : Prop :=
  Refused a.plan a.git ∨
    (a.git.before ≠ none ∧ (a.plan.containment = .fail →
      (∃ file ∈ files.after, file ∉ files.before ∧ file ∉ files.staged) → a.git.after ≠ none))

theorem restages_eq_false_iff {a : Attempt} (hAuto : a.plan.restage = .auto) :
    a.restages (some "staged") = false ↔ Refused a.plan a.git := by
  rw [← applyRestage_error_iff hAuto, Attempt.restages, hAuto]
  cases applyRestageIfNeeded (some "staged") a.plan a.git <;> simp

theorem stagedBy_of_refused {a : Attempt} (hAuto : a.plan.restage = .auto) (h : Refused a.plan a.git) :
    stagedBy (some "staged") a = [] := by
  obtain ⟨error, hError⟩ := (applyRestage_error_iff hAuto a.git).mpr h
  rw [stagedBy, if_neg (not_not.mpr rfl), hError]

theorem safeStep_iff {a : Attempt} {files : Files} (hAuto : a.plan.restage = .auto)
    (hTells : a.git.Tells files) : SafeStep a files ↔ Informed a files := by
  constructor
  · intro h
    by_cases hRefused : Refused a.plan a.git
    · exact .inl hRefused
    · have hSafe : ¬ Unsafe a.plan a.git files := fun hUnsafe =>
        hRefused ((restages_eq_false_iff hAuto).mp (h.refuses hUnsafe).2)
      refine .inr ⟨fun hBefore => hSafe (.undetermined hBefore), ?_⟩
      rintro hFail ⟨file, hAfter, hNew, hOut⟩
      exact absurd (.escaped hFail file hAfter hNew hOut) hSafe
  · intro h
    by_cases hRefused : Refused a.plan a.git
    · have hNone := stagedBy_of_refused hAuto hRefused
      exact ⟨by simp [hNone], fun _ => ⟨hNone, (restages_eq_false_iff hAuto).mpr hRefused⟩⟩
    · obtain ⟨hBefore, hAfter⟩ := h.resolve_left hRefused
      obtain ⟨before, hBefore⟩ := Option.ne_none_iff_exists'.mp hBefore
      have hSame := hTells.before before hBefore
      cases hLane : a.git.cached with
      | error error => exact absurd (.unlisted error hLane) hRefused
      | ok lane =>
        have hStaged := hTells.cached lane hLane
        have hClean : ∀ file ∈ lane, file ∉ files.before := fun file hFile hDirty =>
          hRefused (.unfinished lane hLane file (by rw [hBefore, Option.getD_some, hSame]; exact hDirty) hFile)
        refine ⟨fun file hFile => ?_, fun hUnsafe => absurd ?_ hRefused⟩
        · have hMem : file ∈ lane := by
            rw [stagedBy, if_neg (not_not.mpr rfl), hLane] at hFile
            split at hFile
            · next hOk =>
              cases hOk
              simpa using (List.mem_filter.mp hFile).2
            · exact nomatch hFile
          exact ⟨hStaged ▸ hMem, hClean file hMem⟩
        · cases hUnsafe with
          | unfinished file hIn hDirty => exact absurd hDirty (hClean file (hStaged ▸ hIn))
          | escaped hFail file hDirty hNew hOut =>
            obtain ⟨after, hSome⟩ :=
              Option.ne_none_iff_exists'.mp (hAfter hFail ⟨file, hDirty, hNew, hOut⟩)
            refine .escaped lane hLane hFail file ?_ ?_ (hStaged ▸ hOut)
            · rw [hSome, Option.getD_some, hTells.after after hSome]
              exact hDirty
            · rw [hBefore, Option.getD_some, hSame]
              exact hNew
          | undetermined hNone => exact nomatch hBefore.symm.trans hNone

/-! ## The steps of a lane -/

inductive Step
  | start (index : Nat)
  | finish (index : Nat) (success : Bool)
  | restage (index : Nat) (staged : List String)
deriving DecidableEq

/-- How the runner leaves a check: before it starts, by a panic, or with its success. -/
inductive Ending
  | returned
  | panicked
  | ended (success : Bool)
deriving DecidableEq

inductive Runner
  | human
  | jsonl
deriving DecidableEq

namespace Runner

def ending (r : Runner) (lane : String) (e : Nat × Attempt) : Ending :=
  match r with
  | human =>
    if e.2.plan.parts = [] then .returned
    else
      match runCommand e.2.command with
      | none => .panicked
      | some (.error _) => .ended false
      | some (.ok result) => .ended result.success
  | jsonl =>
    match (runJsonlCheck lane e.1 e.2).result with
    | none => .panicked
    | some (.error _) => .ended false
    | some (.ok summary) => .ended (summary.status == .success)

def threadSteps (r : Runner) (lane : String) (e : Nat × Attempt) : List Step :=
  [.start e.1, .finish e.1 (r.ending lane e == .ended true)]

def loopSteps (r : Runner) (lane : String) (scopeBase : Option String) : List (Nat × Attempt) → List Step
  | [] => []
  | e :: rest =>
    match r.ending lane e with
    | .returned => []
    | .panicked => [.start e.1]
    | .ended false => [.start e.1, .finish e.1 false]
    | .ended true =>
      .start e.1 :: .finish e.1 true ::
        if e.2.plan.restage = .auto then
          .restage e.1 (stagedBy scopeBase e.2) ::
            match applyRestageIfNeeded scopeBase e.2.plan e.2.git with
            | .error _ => []
            | .ok () => loopSteps r lane scopeBase rest
        else loopSteps r lane scopeBase rest

def threadAt (r : Runner) (lane : String) (threads : List (Nat × Attempt)) (index : Nat) : List Step :=
  ((threads.find? fun e => e.1 == index).map (r.threadSteps lane)).getD []

def parallelSteps (r : Runner) (lane : String) (threads : List (Nat × Attempt)) (schedule : List Nat) :
    List Step :=
  (Schedule.merge (threads.map Prod.fst) schedule (r.threadAt lane threads)).map Prod.snd

/-- The steps of a lane: the parallel checks, then the loop. -/
def laneSteps (r : Runner) (lane : String) (attempts : List Attempt) (laneParallel : Bool)
    (scopeBase : Option String) (schedule : List Nat) : List Step :=
  r.parallelSteps lane (parallelPlans laneParallel scopeBase attempts) schedule ++
    r.loopSteps lane scopeBase (sequentialPlans laneParallel scopeBase attempts)

/-- What the runner answers; `none` when it panics. -/
def outcome (r : Runner) (lane : String) (attempts : List Attempt) (laneParallel : Bool)
    (scopeBase : Option String) (schedule : List Nat) : Option (Except String Unit) :=
  match r with
  | human => runCheckPlans lane attempts laneParallel scopeBase
  | jsonl => (runCheckPlansJsonl lane attempts laneParallel scopeBase schedule).outcome

end Runner

/-! ## Safe runs -/

/-- The check has started and has not finished. -/
def UnderWay (steps : List Step) (index : Nat) : Prop :=
  .start index ∈ steps ∧ ∀ success, .finish index success ∉ steps

/-- The run restages as it should: `truth` is what the files are at each check. -/
structure SafelyRestaged (attempts : List Attempt) (truth : Nat → Files) (steps : List Step)
    (outcome : Option (Except String Unit)) : Prop where
  follows : ∀ e ∈ placed attempts, e.2.plan.restage = .auto → ∀ post,
    .finish e.1 true :: post <:+ steps → ∃ staged rest, post = .restage e.1 staged :: rest
  alone : ∀ e ∈ placed attempts, e.2.plan.restage = .auto → ∀ pre, pre <+: steps →
    UnderWay pre e.1 → ∀ index, UnderWay pre index → index = e.1
  own : ∀ index staged, .restage index staged ∈ steps → ∀ file ∈ staged,
    file ∈ (truth index).staged ∧ file ∉ (truth index).before
  refuses : ∀ e ∈ placed attempts, ∀ staged, .restage e.1 staged ∈ steps →
    Unsafe e.2.plan e.2.git (truth e.1) → staged = [] ∧ outcome ≠ some (.ok ())

/-! ## The loop -/

def Step.index : Step → Nat
  | start index | finish index _ | restage index _ => index

variable {r : Runner} {lane : String} {scopeBase : Option String}

inductive LoopCase (r : Runner) (lane : String) (scopeBase : Option String) (e : Nat × Attempt)
    (rest : List (Nat × Attempt)) : List Step → Prop
  | returned : LoopCase r lane scopeBase e rest []
  | panicked : LoopCase r lane scopeBase e rest [.start e.1]
  | failed : LoopCase r lane scopeBase e rest [.start e.1, .finish e.1 false]
  | plain (hEnding : r.ending lane e = .ended true) (hOff : e.2.plan.restage ≠ .auto) :
    LoopCase r lane scopeBase e rest
      (.start e.1 :: .finish e.1 true :: r.loopSteps lane scopeBase rest)
  | restaged (hEnding : r.ending lane e = .ended true) (hAuto : e.2.plan.restage = .auto) :
    LoopCase r lane scopeBase e rest
      (.start e.1 :: .finish e.1 true :: .restage e.1 (stagedBy scopeBase e.2) ::
        r.loopSteps lane scopeBase rest)
  | refused (hEnding : r.ending lane e = .ended true) (hAuto : e.2.plan.restage = .auto) :
    LoopCase r lane scopeBase e rest
      [.start e.1, .finish e.1 true, .restage e.1 (stagedBy scopeBase e.2)]

theorem loopSteps_cons (r : Runner) (lane : String) (scopeBase : Option String) (e : Nat × Attempt)
    (rest : List (Nat × Attempt)) :
    LoopCase r lane scopeBase e rest (r.loopSteps lane scopeBase (e :: rest)) := by
  rw [Runner.loopSteps]
  cases hEnding : r.ending lane e with
  | returned => exact .returned
  | panicked => exact .panicked
  | ended success =>
    cases success with
    | false => exact .failed
    | true =>
      dsimp only
      split
      · next hAuto =>
        cases applyRestageIfNeeded scopeBase e.2.plan e.2.git with
        | error error => exact .refused hEnding hAuto
        | ok => exact .restaged hEnding hAuto
      · next hOff => exact .plain hEnding hOff

theorem index_mem_of_mem_loopSteps {l : List (Nat × Attempt)} {s : Step}
    (h : s ∈ r.loopSteps lane scopeBase l) : s.index ∈ l.map Prod.fst := by
  induction l with
  | nil => exact nomatch h
  | cons e rest ih =>
    have hCase := loopSteps_cons r lane scopeBase e rest
    generalize r.loopSteps lane scopeBase (e :: rest) = steps at h hCase
    rw [List.map_cons, List.mem_cons]
    cases hCase with
    | returned => exact nomatch h
    | panicked | failed | refused =>
      refine .inl ?_
      simp only [List.mem_cons, List.not_mem_nil, or_false] at h
      rcases h with rfl | rfl | rfl <;> rfl
    | plain =>
      simp only [List.mem_cons] at h
      rcases h with rfl | rfl | h
      · exact .inl rfl
      · exact .inl rfl
      · exact .inr (ih h)
    | restaged =>
      simp only [List.mem_cons] at h
      rcases h with rfl | rfl | rfl | h
      · exact .inl rfl
      · exact .inl rfl
      · exact .inl rfl
      · exact .inr (ih h)

theorem loop_follows {l : List (Nat × Attempt)} (hNodup : (l.map Prod.fst).Nodup) {e : Nat × Attempt}
    (he : e ∈ l) (hAuto : e.2.plan.restage = .auto) {post : List Step}
    (h : .finish e.1 true :: post <:+ r.loopSteps lane scopeBase l) :
    ∃ staged rest, post = .restage e.1 staged :: rest := by
  induction l with
  | nil => exact nomatch he
  | cons first rest ih =>
    obtain ⟨hNew, hRest⟩ := List.nodup_cons.mp hNodup
    have hLater : .finish e.1 true :: post <:+ r.loopSteps lane scopeBase rest →
        ∃ staged rest, post = .restage e.1 staged :: rest := by
      intro hSuffix
      have hIndex := index_mem_of_mem_loopSteps (hSuffix.subset List.mem_cons_self)
      rcases List.mem_cons.mp he with rfl | he
      · exact absurd hIndex hNew
      · exact ih hRest he hSuffix
    have hCase := loopSteps_cons r lane scopeBase first rest
    generalize r.loopSteps lane scopeBase (first :: rest) = steps at h hCase
    cases hCase with
    | returned => exact absurd h (by simp)
    | panicked => exact absurd h (by simp [List.suffix_cons_iff])
    | failed => exact absurd h (by simp [List.suffix_cons_iff])
    | plain hEnding hOff =>
      simp only [List.suffix_cons_iff, List.cons.injEq, reduceCtorEq, false_and, false_or,
        Step.finish.injEq, and_true] at h
      rcases h with ⟨hSame, -⟩ | h
      · rcases List.mem_cons.mp he with rfl | he
        · exact absurd hAuto hOff
        · exact absurd (hSame ▸ List.mem_map_of_mem he) hNew
      · exact hLater h
    | restaged hEnding hFirst =>
      simp only [List.suffix_cons_iff, List.cons.injEq, reduceCtorEq, false_and, false_or,
        Step.finish.injEq, and_true] at h
      rcases h with ⟨hSame, rfl⟩ | h
      · exact ⟨_, _, by rw [hSame]⟩
      · exact hLater h
    | refused hEnding hFirst =>
      simp only [List.suffix_cons_iff, List.cons.injEq, reduceCtorEq, false_and, false_or,
        Step.finish.injEq, and_true, List.suffix_nil] at h
      rcases h with ⟨hSame, rfl⟩ | h
      · exact ⟨_, _, by rw [hSame]⟩
      · exact nomatch h

theorem underWay_finished {steps : List Step} {k index : Nat} {success : Bool}
    (h : UnderWay (.start k :: .finish k success :: steps) index) : UnderWay steps index := by
  have hne : index ≠ k := by
    rintro rfl
    exact h.2 success (by simp)
  refine ⟨?_, fun other hMem => h.2 other (by simp [hMem])⟩
  simpa [hne] using h.1

theorem underWay_restage {steps : List Step} {k index : Nat} {staged : List String}
    (h : UnderWay (.restage k staged :: steps) index) : UnderWay steps index :=
  ⟨by simpa using h.1, fun success hMem => h.2 success (List.mem_cons_of_mem _ hMem)⟩

theorem not_underWay_nil {index : Nat} : ¬ UnderWay [] index := fun h => nomatch h.1

theorem alone_cons {tail pre : List Step} {k i j : Nat} {success : Bool}
    (hTail : ∀ t, t <+: tail → UnderWay t i → UnderWay t j → i = j)
    (h : pre <+: .start k :: .finish k success :: tail) (hi : UnderWay pre i) (hj : UnderWay pre j) :
    i = j := by
  rcases List.prefix_cons_iff.mp h with rfl | ⟨t, rfl, hRest⟩
  · exact absurd hi not_underWay_nil
  · rcases List.prefix_cons_iff.mp hRest with rfl | ⟨t, rfl, hMore⟩
    · have hk : ∀ index, UnderWay [.start k] index → index = k := fun index hIndex => by
        simpa using hIndex.1
      rw [hk i hi, hk j hj]
    · exact hTail t hMore (underWay_finished hi) (underWay_finished hj)

theorem alone_restage {tail : List Step} {k i j : Nat} {staged : List String}
    (hTail : ∀ t, t <+: tail → UnderWay t i → UnderWay t j → i = j) (t : List Step)
    (h : t <+: .restage k staged :: tail) (hi : UnderWay t i) (hj : UnderWay t j) : i = j := by
  rcases List.prefix_cons_iff.mp h with rfl | ⟨t, rfl, hRest⟩
  · exact absurd hi not_underWay_nil
  · exact hTail t hRest (underWay_restage hi) (underWay_restage hj)

theorem loop_alone {l : List (Nat × Attempt)} {i j : Nat} (pre : List Step)
    (h : pre <+: r.loopSteps lane scopeBase l) (hi : UnderWay pre i) (hj : UnderWay pre j) : i = j := by
  have hNil : ∀ t, t <+: [] → UnderWay t i → UnderWay t j → i = j := fun t ht hi _ =>
    absurd (List.prefix_nil.mp ht ▸ hi) not_underWay_nil
  induction l generalizing pre with
  | nil => exact hNil pre h hi hj
  | cons e rest ih =>
    have hCase := loopSteps_cons r lane scopeBase e rest
    generalize r.loopSteps lane scopeBase (e :: rest) = steps at h hCase
    cases hCase with
    | returned => exact hNil pre h hi hj
    | panicked => exact alone_cons hNil (h.trans ⟨[.finish e.1 false], rfl⟩) hi hj
    | failed => exact alone_cons hNil h hi hj
    | plain => exact alone_cons ih h hi hj
    | restaged => exact alone_cons (alone_restage ih) h hi hj
    | refused => exact alone_cons (alone_restage hNil) h hi hj

/-- The loop does not fail. -/
def Runner.Clears (r : Runner) (scopeBase : Option String) (l : List (Nat × Attempt)) : Prop :=
  match r with
  | human => ∀ e ∈ l, e.2.Runs scopeBase true
  | jsonl => clears scopeBase l = true

theorem Runner.clears_cons {e : Nat × Attempt} {rest : List (Nat × Attempt)}
    (hEnding : r.ending lane e = .ended true) (h : r.Clears scopeBase (e :: rest)) :
    e.2.restages scopeBase = true ∧ r.Clears scopeBase rest := by
  cases r with
  | human =>
    have hRuns : ∀ x ∈ e :: rest, x.2.Runs scopeBase true := h
    exact ⟨(hRuns e List.mem_cons_self).2.2 rfl, fun x hx => hRuns x (List.mem_cons_of_mem _ hx)⟩
  | jsonl =>
    have hNotSkipped : e.2.plan.skipped = false := by
      rw [← Bool.not_eq_true]
      intro hSkipped
      rw [ending, runJsonlCheck_of_skipped hSkipped] at hEnding
      exact nomatch hEnding
    have hClears : clears scopeBase (e :: rest) = true := h
    rw [clears, hNotSkipped, Bool.false_or, Bool.and_eq_true, Bool.and_eq_true] at hClears
    exact ⟨hClears.1.2, hClears.2⟩

theorem Runner.clears_of_outcome {attempts : List Attempt} {laneParallel : Bool} {schedule : List Nat}
    (h : r.outcome lane attempts laneParallel scopeBase schedule = some (.ok ())) :
    r.Clears scopeBase (sequentialPlans laneParallel scopeBase attempts) := by
  cases r with
  | human =>
    intro e he
    obtain ⟨hPlaced, hAlone⟩ := mem_sequentialPlans.mp he
    exact hAlone ▸ runCheckPlans_ok_iff.mp h e.2 (List.mem_of_getElem? (mem_placed.mp hPlaced))
  | jsonl => exact ((outcome_ok_iff_groups lane schedule).mp h).2

theorem restage_of_mem_loopSteps {l : List (Nat × Attempt)} {index : Nat} {staged : List String}
    (h : .restage index staged ∈ r.loopSteps lane scopeBase l) :
    ∃ a, (index, a) ∈ l ∧ a.plan.restage = .auto ∧ staged = stagedBy scopeBase a ∧
      (r.Clears scopeBase l → a.restages scopeBase = true) := by
  induction l with
  | nil => exact nomatch h
  | cons e rest ih =>
    have hLater (hEnding : r.ending lane e = .ended true)
        (hMem : .restage index staged ∈ r.loopSteps lane scopeBase rest) :
        ∃ a, (index, a) ∈ e :: rest ∧ a.plan.restage = .auto ∧ staged = stagedBy scopeBase a ∧
          (r.Clears scopeBase (e :: rest) → a.restages scopeBase = true) := by
      obtain ⟨a, hIn, hAuto, hStaged, hClears⟩ := ih hMem
      exact ⟨a, List.mem_cons_of_mem _ hIn, hAuto, hStaged,
        fun hAll => hClears (Runner.clears_cons hEnding hAll).2⟩
    have hCase := loopSteps_cons r lane scopeBase e rest
    generalize r.loopSteps lane scopeBase (e :: rest) = steps at h hCase
    cases hCase with
    | returned => exact nomatch h
    | panicked => exact absurd h (by simp)
    | failed => exact absurd h (by simp)
    | plain hEnding hOff => exact hLater hEnding (by simpa using h)
    | restaged hEnding hAuto =>
      simp only [List.mem_cons, reduceCtorEq, false_or, Step.restage.injEq] at h
      rcases h with ⟨rfl, rfl⟩ | h
      · exact ⟨e.2, List.mem_cons_self, hAuto, rfl, fun hAll => (Runner.clears_cons hEnding hAll).1⟩
      · exact hLater hEnding h
    | refused hEnding hAuto =>
      simp only [List.mem_cons, reduceCtorEq, false_or, Step.restage.injEq, List.not_mem_nil,
        or_false] at h
      obtain ⟨rfl, rfl⟩ := h
      exact ⟨e.2, List.mem_cons_self, hAuto, rfl, fun hAll => (Runner.clears_cons hEnding hAll).1⟩

/-! ## The threads -/

variable {attempts : List Attempt} {laneParallel : Bool} {schedule : List Nat}

theorem eq_of_placed_index {e e' : Nat × Attempt} (he : e ∈ placed attempts) (he' : e' ∈ placed attempts)
    (h : e.1 = e'.1) : e = e' := by
  have hAttempt := (mem_placed.mp he).symm.trans (h ▸ mem_placed.mp he')
  exact Prod.ext h (Option.some.inj hAttempt)

theorem threadAt_of_mem {threads : List (Nat × Attempt)} (hNodup : (threads.map Prod.fst).Nodup)
    {e : Nat × Attempt} (he : e ∈ threads) : r.threadAt lane threads e.1 = r.threadSteps lane e := by
  rw [Runner.threadAt, find_of_nodup_map hNodup he]
  rfl

theorem mem_parallelSteps {threads : List (Nat × Attempt)} (hNodup : (threads.map Prod.fst).Nodup)
    {s : Step} : s ∈ r.parallelSteps lane threads schedule ↔
      ∃ e ∈ threads, s ∈ r.threadSteps lane e := by
  have hOnly : ∀ i, i ∉ threads.map Prod.fst → r.threadAt lane threads i = [] := by
    intro i hi
    rw [Runner.threadAt, List.find?_eq_none.mpr]
    · rfl
    · intro e he hIndex
      exact hi (eq_of_beq hIndex ▸ List.mem_map_of_mem he)
  have hOwn (i : Nat) : s ∈ r.threadAt lane threads i ↔
      (i, s) ∈ Schedule.merge (threads.map Prod.fst) schedule (r.threadAt lane threads) := by
    rw [← Schedule.mem_own, Schedule.own_merge hNodup schedule _ hOnly i]
  rw [Runner.parallelSteps, List.mem_map]
  constructor
  · rintro ⟨⟨i, s⟩, hMem, rfl⟩
    obtain ⟨e, he, rfl⟩ := List.mem_map.mp (Schedule.fst_mem_of_mem_merge hOnly hMem)
    exact ⟨e, he, threadAt_of_mem hNodup he ▸ (hOwn e.1).mpr hMem⟩
  · rintro ⟨e, he, hMem⟩
    exact ⟨(e.1, s), (hOwn e.1).mp (threadAt_of_mem hNodup he ▸ hMem), rfl⟩

theorem suffix_of_not_mem {s : Step} {post l l' : List Step} (h : s :: post <:+ l ++ l') (hNot : s ∉ l) :
    s :: post <:+ l' := by
  induction l with
  | nil => exact h
  | cons x l ih =>
    rw [List.mem_cons, not_or] at hNot
    rcases List.suffix_cons_iff.mp h with hHead | h
    · exact absurd (List.cons.inj hHead).1 hNot.1
    · exact ih h hNot.2

theorem prefix_append_cases {pre l l' : List Step} (h : pre <+: l ++ l') :
    pre <+: l ∨ ∃ p, pre = l ++ p ∧ p <+: l' := by
  rcases List.prefix_or_prefix_of_prefix h (List.prefix_append l l') with hPre | ⟨p, rfl⟩
  · exact .inl hPre
  · exact .inr ⟨p, rfl, (List.prefix_append_right_inj l).mp h⟩

/-! ## Runs -/

theorem nodup_parallelPlans (laneParallel : Bool) (scopeBase : Option String) (attempts : List Attempt) :
    ((parallelPlans laneParallel scopeBase attempts).map Prod.fst).Nodup := by
  have hGroups := nodup_groups laneParallel scopeBase attempts
  rw [List.map_append] at hGroups
  exact hGroups.of_append_left

theorem nodup_sequentialPlans (laneParallel : Bool) (scopeBase : Option String) (attempts : List Attempt) :
    ((sequentialPlans laneParallel scopeBase attempts).map Prod.fst).Nodup := by
  have hGroups := nodup_groups laneParallel scopeBase attempts
  rw [List.map_append] at hGroups
  exact hGroups.of_append_right

/-- Every check that restages runs in the loop. -/
def AutoAlone (attempts : List Attempt) (laneParallel : Bool) : Prop :=
  ∀ a ∈ attempts, a.plan.restage = .auto → laneParallel = true → a.plan.category = .mutate

theorem runsAlone_of_autoAlone (h : AutoAlone attempts laneParallel) {a : Attempt} (ha : a ∈ attempts)
    (hAuto : a.plan.restage = .auto) : runsAlone laneParallel (some "staged") a.plan = true := by
  rw [runsAlone]
  split
  · next hParallel => simp [h a ha hAuto hParallel, hAuto]
  · rfl

theorem not_parallel_of_auto (h : AutoAlone attempts laneParallel) {e : Nat × Attempt}
    (he : e ∈ placed attempts) (hAuto : e.2.plan.restage = .auto) {s : Step} (hIndex : s.index = e.1) :
    s ∉ r.parallelSteps lane (parallelPlans laneParallel (some "staged") attempts) schedule := by
  intro hMem
  obtain ⟨e', he', hStep⟩ := (mem_parallelSteps (nodup_parallelPlans _ _ _)).mp hMem
  obtain ⟨hPlaced, hNot⟩ := mem_parallelPlans.mp he'
  have hSame : e.1 = e'.1 := by
    rw [← hIndex]
    simp only [Runner.threadSteps, List.mem_cons, List.not_mem_nil, or_false] at hStep
    rcases hStep with rfl | rfl <;> rfl
  obtain rfl := eq_of_placed_index he hPlaced hSame
  rw [runsAlone_of_autoAlone h (List.mem_of_getElem? (mem_placed.mp he)) hAuto] at hNot
  exact nomatch hNot

theorem restage_of_mem_laneSteps {index : Nat} {staged : List String}
    (h : .restage index staged ∈ r.laneSteps lane attempts laneParallel scopeBase schedule) :
    ∃ a, (index, a) ∈ placed attempts ∧ a.plan.restage = .auto ∧ staged = stagedBy scopeBase a ∧
      (r.outcome lane attempts laneParallel scopeBase schedule = some (.ok ()) →
        a.restages scopeBase = true) := by
  rcases List.mem_append.mp h with hThread | hLoop
  · obtain ⟨e, -, hStep⟩ := (mem_parallelSteps (nodup_parallelPlans _ _ _)).mp hThread
    simp [Runner.threadSteps] at hStep
  · obtain ⟨a, hMem, hAuto, hStaged, hClears⟩ := restage_of_mem_loopSteps hLoop
    exact ⟨a, (mem_sequentialPlans.mp hMem).1, hAuto, hStaged,
      fun hOk => hClears (Runner.clears_of_outcome hOk)⟩

namespace Restage

/-- A formatter that rewrites the one staged file, with what git answers around it. -/
def formatter (category : CheckCategory) (git : GitAnswers) : Attempt where
  plan := { Fixes.fixPlan "fmt-rust" ["bash", "-lc", "cargo fmt"] false with category }
  command := .exited (some 0) []
  tool := .panicked
  git := git

/-- The staged file has unfinished edits; the query before the check fails. -/
def silent : GitAnswers := ⟨none, some ["src/lib.rs"], .ok ["src/lib.rs"], .ok ()⟩

def edited : Files := ⟨["src/lib.rs"], ["src/lib.rs"], ["src/lib.rs"]⟩

/-- The staged file has no unstaged changes but those of the check. -/
def spoken : GitAnswers := { silent with before := some [] }

def untouched : Files := { edited with before := [] }

theorem tells_silent : silent.Tells edited := by
  constructor <;> intro l hl <;> cases hl <;> rfl

theorem tells_spoken : spoken.Tells untouched := by
  constructor <;> intro l hl <;> cases hl <;> rfl

end Restage

end Exosuit.Hook
