import Mathlib.Data.List.Infix

/-!
# Spans between an opening and a closing symbol

A span goes from an opening symbol through the first closing one after it. A list is cut into its
spans and the symbols outside of them in one way only.
-/

namespace Exosuit.Lib.Spans

universe u

variable {σ : Type u}

inductive Piece (σ : Type u)
  | kept (x : σ)
  | span (x : σ) (body : List σ) (c : σ)

namespace Piece

def symbols : Piece σ → List σ
  | kept x => [x]
  | span x body c => x :: (body ++ [c])

def outer : Piece σ → List σ
  | kept x => [x]
  | span .. => []

end Piece

section

variable (opens closes : σ → Bool)

/-- The symbols outside of the spans. -/
def outside (inside : Bool) : List σ → List σ
  | [] => []
  | x :: l =>
    if inside then outside (!closes x) l
    else if opens x && l.any closes then outside true l
    else x :: outside false l

/-- The pieces of a list; the span that is open has begun with an opening symbol and a part of its body. -/
def pieces (span : Option (σ × List σ)) : List σ → List (Piece σ)
  | [] => []
  | y :: l =>
    match span with
    | some (x, body) =>
      if closes y then .span x body y :: pieces none l else pieces (some (x, body ++ [y])) l
    | none =>
      if opens y && l.any closes then pieces (some (y, [])) l else .kept y :: pieces none l

/-- No opening symbol has a closing one after it. -/
def bare : List σ → Bool
  | [] => true
  | x :: l => !(opens x && l.any closes) && bare l

end

variable {opens closes : σ → Bool} {l a b : List σ} {x c : σ}

theorem any_append_cons (hc : closes c = true) : (a ++ c :: b).any closes = true := by
  rw [List.any_append, List.any_cons, hc, Bool.true_or, Bool.or_true]

theorem bare_iff : bare opens closes l = true ↔
    ∀ a x b, l = a ++ x :: b → opens x = true → b.any closes = false := by
  induction l with
  | nil => exact iff_of_true rfl fun a x b h => absurd h.symm (List.append_ne_nil_of_right_ne_nil a (List.cons_ne_nil x b))
  | cons y l ih =>
    rw [bare, Bool.and_eq_true, Bool.not_eq_true', ih]
    constructor
    · rintro ⟨hHead, hTail⟩ a x b hSplit hx
      cases a with
      | nil =>
        rw [List.nil_append, List.cons.injEq] at hSplit
        obtain ⟨rfl, rfl⟩ := hSplit
        rwa [hx, Bool.true_and] at hHead
      | cons z a =>
        rw [List.cons_append, List.cons.injEq] at hSplit
        exact hTail a x b hSplit.2 hx
    · intro h
      constructor
      · cases hy : opens y with
        | false => rfl
        | true => rw [Bool.true_and, h [] y l rfl hy]
      · intro a x b hSplit hx
        exact h (y :: a) x b (by rw [hSplit, List.cons_append]) hx

/-! ## The pieces of a list -/

variable {span : Option (σ × List σ)}

theorem outer_pieces (span : Option (σ × List σ)) (l : List σ) :
    (pieces opens closes span l).flatMap Piece.outer = outside opens closes span.isSome l := by
  induction l generalizing span with
  | nil => rfl
  | cons y l ih =>
    cases span with
    | none =>
      rw [pieces, outside, Option.isSome_none, if_neg Bool.false_ne_true]
      split
      · exact ih _
      · exact congrArg (y :: ·) (ih none)
    | some open_ =>
      rw [pieces, outside, Option.isSome_some, if_pos rfl]
      cases closes y with
      | true => exact ih none
      | false => exact ih _

theorem symbols_pieces (hOpen : ∀ x ∈ span, l.any closes = true) :
    (pieces opens closes span l).flatMap Piece.symbols = (span.elim [] fun s => s.1 :: s.2) ++ l := by
  induction l generalizing span with
  | nil =>
    cases span with
    | none => rfl
    | some open_ => cases hOpen open_ rfl
  | cons y l ih =>
    cases span with
    | none =>
      rw [pieces]
      split
      · next hOpens =>
        rw [ih fun _ _ => (Bool.and_eq_true_iff.mp hOpens).2]
        rfl
      · exact congrArg (y :: ·) (ih (by simp))
    | some open_ =>
      have hAny := hOpen open_ rfl
      rw [List.any_cons, Bool.or_eq_true] at hAny
      rw [pieces]
      split
      · rw [List.flatMap_cons, ih (by simp)]
        simp [Piece.symbols]
      · next hCloses =>
        rw [ih fun _ _ => hAny.resolve_left hCloses]
        simp

structure Piece.Proper (opens closes : σ → Bool) (x : σ) (body : List σ) (c : σ) : Prop where
  opening : opens x = true
  body : body.any closes = false
  closing : closes c = true

theorem proper_of_mem_pieces
    (hOpen : ∀ s ∈ span, opens s.1 = true ∧ s.2.any closes = false) {body : List σ}
    (h : .span x body c ∈ pieces opens closes span l) : Piece.Proper opens closes x body c := by
  induction l generalizing span with
  | nil => cases h
  | cons y l ih =>
    cases span with
    | none =>
      rw [pieces] at h
      split at h
      · next hOpens =>
        refine ih (fun s hs => ?_) h
        cases hs
        exact ⟨(Bool.and_eq_true_iff.mp hOpens).1, rfl⟩
      · rcases List.mem_cons.mp h with hKept | hRest
        · cases hKept
        · exact ih (by simp) hRest
    | some open_ =>
      obtain ⟨hOpens, hBody⟩ := hOpen open_ rfl
      rw [pieces] at h
      split at h
      · next hCloses =>
        rcases List.mem_cons.mp h with hSpan | hRest
        · cases hSpan
          exact ⟨hOpens, hBody, hCloses⟩
        · exact ih (by simp) hRest
      · next hCloses =>
        refine ih (fun s hs => ?_) h
        cases hs
        refine ⟨hOpens, ?_⟩
        rw [List.any_append, hBody, List.any_cons, Bool.eq_false_iff.mpr hCloses]
        rfl

end Exosuit.Lib.Spans
