import Mathlib.Data.List.Induction
import Mathlib.Data.Nat.Init
import Mathlib.Order.Defs.PartialOrder

/-!
# Runs of a partial step function

A system is a step function that answers `none` when a label is not enabled.
`run` folds it over a list of labels, `Along` says that every step of a run
meets a condition, and the invariant rules package the induction once.
-/

namespace Exosuit.Lib

universe u v

variable {σ : Type u} {α : Type v} (step : σ → α → Option σ)

def run : σ → List α → Option σ
  | s, [] => some s
  | s, a :: as => (step s a).bind fun s' => run s' as

/-- Every step taken from `s` along the labels meets `P`. -/
def Along (P : σ → α → Prop) : σ → List α → Prop
  | _, [] => True
  | s, a :: as => P s a ∧ ∀ s', step s a = some s' → Along P s' as

@[simp] theorem run_nil (s : σ) : run step s [] = some s := rfl

theorem run_cons (s : σ) (a : α) (as : List α) :
    run step s (a :: as) = (step s a).bind fun s' => run step s' as := rfl

theorem run_cons_eq_some {s t : σ} {a : α} {as : List α} :
    run step s (a :: as) = some t ↔ ∃ s', step s a = some s' ∧ run step s' as = some t := by
  rw [run_cons, Option.bind_eq_some_iff]

theorem run_singleton (s : σ) (a : α) : run step s [a] = step s a := Option.bind_fun_some _

theorem run_append (s : σ) (as bs : List α) :
    run step s (as ++ bs) = (run step s as).bind fun t => run step t bs := by
  induction as generalizing s with
  | nil => rfl
  | cons a as ih =>
    rw [List.cons_append, run_cons, run_cons]
    cases step s a with
    | none => rfl
    | some s' => exact ih s'

variable {step}

theorem Along.and_mem {P : σ → α → Prop} {Q : α → Prop} {s : σ} {as : List α}
    (h : Along step P s as) (hMem : ∀ a ∈ as, Q a) :
    Along step (fun s a => P s a ∧ Q a) s as := by
  induction as generalizing s with
  | nil => trivial
  | cons a as ih =>
    exact ⟨⟨h.1, hMem a List.mem_cons_self⟩, fun s' hs' =>
      ih (h.2 s' hs') fun b hb => hMem b (List.mem_cons_of_mem a hb)⟩

theorem Along.mono {P Q : σ → α → Prop} (h : ∀ s a, P s a → Q s a) {s : σ} {as : List α}
    (hAlong : Along step P s as) : Along step Q s as := by
  induction as generalizing s with
  | nil => trivial
  | cons a as ih => exact ⟨h s a hAlong.1, fun s' hs' => ih (hAlong.2 s' hs')⟩

theorem Along.append {P : σ → α → Prop} {s t : σ} {as bs : List α}
    (h : Along step P s (as ++ bs)) (hRun : run step s as = some t) : Along step P t bs := by
  induction as generalizing s with
  | nil => exact Option.some.inj hRun ▸ h
  | cons a as ih =>
    obtain ⟨s', hs', hRest⟩ := (run_cons_eq_some step).mp hRun
    exact ih (h.2 s' hs') hRest

theorem along_congr {P Q : σ → α → Prop} (h : ∀ s a, P s a ↔ Q s a) {s : σ} {as : List α} :
    Along step P s as ↔ Along step Q s as := by
  have hEq : P = Q := funext fun s => funext fun a => propext (h s a)
  rw [hEq]

theorem along_of_mem {P : σ → α → Prop} {s : σ} {as : List α} (h : ∀ s, ∀ a ∈ as, P s a) :
    Along step P s as := by
  induction as generalizing s with
  | nil => trivial
  | cons a as ih =>
    exact ⟨h s a List.mem_cons_self, fun s' _ =>
      ih fun s b hb => h s b (List.mem_cons_of_mem a hb)⟩

variable (step) in
/-- Runs the labels and tests every step. -/
def check (p : σ → α → Bool) : σ → List α → Bool
  | _, [] => true
  | s, a :: as => p s a && (step s a).all fun s' => check p s' as

theorem along_of_check {p : σ → α → Bool} {s : σ} {as : List α} (h : check step p s as = true) :
    Along step (fun s a => p s a = true) s as := by
  induction as generalizing s with
  | nil => trivial
  | cons a as ih =>
    obtain ⟨hHead, hRest⟩ := Bool.and_eq_true_iff.mp h
    refine ⟨hHead, fun s' hs' => ih ?_⟩
    rwa [hs', Option.all_some] at hRest

/-- The rule for runs whose steps all meet a side condition. -/
theorem invariant_of_along {I : σ → Prop} {P : σ → α → Prop}
    (hStep : ∀ s a s', I s → P s a → step s a = some s' → I s')
    {s t : σ} {as : List α} (hs : I s) (hAlong : Along step P s as)
    (hRun : run step s as = some t) : I t := by
  induction as generalizing s with
  | nil => exact Option.some.inj hRun ▸ hs
  | cons a as ih =>
    obtain ⟨s', hs', hRest⟩ := (run_cons_eq_some step).mp hRun
    exact ih (hStep s a s' hs hAlong.1 hs') (hAlong.2 s' hs') hRest

theorem invariant_of_step {I : σ → Prop}
    (hStep : ∀ s a s', I s → step s a = some s' → I s')
    {s t : σ} {as : List α} (hs : I s) (hRun : run step s as = some t) : I t := by
  induction as generalizing s with
  | nil => exact Option.some.inj hRun ▸ hs
  | cons a as ih =>
    obtain ⟨s', hs', hRest⟩ := (run_cons_eq_some step).mp hRun
    exact ih (hStep s a s' hs hs') hRest

/-- The rule for what relates a state to the labels that led to it. -/
theorem history_of_step {I : List α → σ → Prop} {s t : σ} {as : List α} (hs : I [] s)
    (hStep : ∀ as s a s', I as s → step s a = some s' → I (as ++ [a]) s')
    (hRun : run step s as = some t) : I as t := by
  induction as using List.reverseRecOn generalizing t with
  | nil => exact Option.some.inj hRun ▸ hs
  | append_singleton as a ih =>
    rw [run_append] at hRun
    obtain ⟨u, hu, hLast⟩ := Option.bind_eq_some_iff.mp hRun
    obtain ⟨t', ht, hNil⟩ := (run_cons_eq_some step).mp hLast
    exact Option.some.inj hNil ▸ hStep as u a t' (ih hu) ht

theorem rel_run_iff_along {τ : Type*} {step' : τ → α → Option τ} {R O : σ → τ → Prop}
    {P : τ → α → Prop} (hObserved : ∀ s t, R s t → O s t)
    (hStep : ∀ s t a, R s t → P t a → Option.Rel R (step s a) (step' t a))
    (hApart : ∀ s t a, R s t → ¬ P t a → ¬ Option.Rel O (step s a) (step' t a)) {s : σ} {t : τ}
    (h : R s t) (as : List α) :
    (∀ before after, as = before ++ after → Option.Rel O (run step s before) (run step' t before)) ↔
      Along step' P t as := by
  induction as generalizing s t with
  | nil =>
    refine iff_of_true (fun before after hSplit => ?_) trivial
    obtain ⟨rfl, -⟩ := List.append_eq_nil_iff.mp hSplit.symm
    exact .some (hObserved s t h)
  | cons a as ih =>
    by_cases hP : P t a
    case neg =>
      refine iff_of_false (fun hAll => hApart s t a h hP ?_) fun hAlong => hP hAlong.1
      rw [← run_singleton step, ← run_singleton step']
      exact hAll [a] as rfl
    have hNext := hStep s t a h hP
    have hHere : (∀ before after, a :: as = before ++ after →
        Option.Rel O (run step s before) (run step' t before)) ↔
        ∀ before after, as = before ++ after →
          Option.Rel O (run step s (a :: before)) (run step' t (a :: before)) := by
      constructor
      · exact fun hAll before after hSplit => hAll (a :: before) after (congrArg _ hSplit)
      · intro hAll before after hSplit
        rcases List.cons_eq_append_iff.mp hSplit with ⟨rfl, -⟩ | ⟨rest, rfl, hRest⟩
        · exact .some (hObserved s t h)
        · exact hAll rest after hRest
    rw [hHere]
    simp only [run_cons, Along, hP, true_and]
    generalize step s a = next, step' t a = next' at hNext ⊢
    cases hNext with
    | none => exact iff_of_true (fun _ _ _ => .none) nofun
    | @some s' t' hRelated =>
      refine (ih hRelated).trans ⟨fun hAlong _ hSame => ?_, fun hAlong => hAlong t' rfl⟩
      exact Option.some.inj hSame ▸ hAlong

theorem run_congr_view {β γ : Type*} {f : σ → β} {g : α → γ}
    (hStep : ∀ s s' a a', f s = f s' → g a = g a' → (step s a).map f = (step s' a').map f)
    {s s' : σ} {as as' : List α} (hs : f s = f s') (has : as.map g = as'.map g) :
    (run step s as).map f = (run step s' as').map f := by
  induction as generalizing s s' as' with
  | nil =>
    obtain rfl := List.map_eq_nil_iff.mp has.symm
    exact congrArg some hs
  | cons a as ih =>
    obtain ⟨a', as', rfl, ha, has'⟩ := List.map_eq_cons_iff.mp has.symm
    have hView := hStep s s' a a' hs ha.symm
    rw [run_cons, run_cons]
    cases hNext : step s a with
    | none =>
      rw [hNext, Option.map_none] at hView
      rw [Option.map_eq_none_iff.mp hView.symm]
      rfl
    | some u =>
      rw [hNext, Option.map_some] at hView
      obtain ⟨u', hNext', hu⟩ := Option.map_eq_some_iff.mp hView.symm
      rw [hNext']
      exact ih hu.symm has'.symm

theorem monotone_of_step {β : Type*} [Preorder β] {I : σ → Prop} {f : σ → β}
    (hStep : ∀ s a s', I s → step s a = some s' → I s' ∧ f s ≤ f s')
    {s t : σ} {as : List α} (hs : I s) (hRun : run step s as = some t) : f s ≤ f t := by
  induction as generalizing s with
  | nil => exact Option.some.inj hRun ▸ le_refl _
  | cons a as ih =>
    obtain ⟨s', hs', hRest⟩ := (run_cons_eq_some step).mp hRun
    obtain ⟨hInv, hle⟩ := hStep s a s' hs hs'
    exact le_trans hle (ih hInv hRest)

/-! ## Runs that do not end -/

variable (step) in
/-- At every moment a step is taken, or none. -/
structure Endless (s : σ) (trace : Nat → σ) (labels : Nat → Option α) : Prop where
  start : trace 0 = s
  next : ∀ n, (labels n).elim (some (trace n)) (step (trace n)) = some (trace (n + 1))

theorem Endless.cases_next {s : σ} {trace : Nat → σ} {labels : Nat → Option α}
    (h : Endless step s trace labels) (n : Nat) :
    trace (n + 1) = trace n ∨ ∃ a, labels n = some a ∧ step (trace n) a = some (trace (n + 1)) := by
  have hNext := h.next n
  cases hLabel : labels n with
  | none =>
    rw [hLabel] at hNext
    exact .inl (Option.some.inj hNext).symm
  | some a =>
    rw [hLabel] at hNext
    exact .inr ⟨a, rfl, hNext⟩

theorem Endless.invariant {I : σ → Prop} {P : σ → α → Prop}
    (hStep : ∀ s a s', I s → P s a → step s a = some s' → I s')
    {s : σ} {trace : Nat → σ} {labels : Nat → Option α} (h : Endless step s trace labels) (hs : I s)
    (hLabels : ∀ n a, labels n = some a → P (trace n) a) (n : Nat) : I (trace n) := by
  induction n with
  | zero => exact h.start ▸ hs
  | succ n ih =>
    rcases h.cases_next n with hSame | ⟨a, ha, hNext⟩
    · exact hSame ▸ ih
    · exact hStep _ a _ ih (hLabels n a ha) hNext

theorem Endless.related {R : σ → σ → Prop} (hRefl : ∀ s, R s s) (hTrans : ∀ s t u, R s t → R t u → R s u)
    {s : σ} {trace : Nat → σ} {labels : Nat → Option α} (h : Endless step s trace labels)
    (hStep : ∀ n a, labels n = some a → step (trace n) a = some (trace (n + 1)) → R (trace n) (trace (n + 1)))
    {n m : Nat} (hnm : n ≤ m) : R (trace n) (trace m) := by
  induction m, hnm using Nat.le_induction with
  | base => exact hRefl _
  | succ m hnm ih =>
    rcases h.cases_next m with hSame | ⟨a, ha, hNext⟩
    · exact hSame ▸ ih
    · exact hTrans _ _ _ ih (hStep m a ha hNext)

end Exosuit.Lib
