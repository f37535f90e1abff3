import Mathlib.Data.List.Basic

/-!
# Paths into values

A value has other values at its keys. `find` follows a path, `put` sets what a path leads to and may
make the values that are missing on the way. What a path leads to is what was put there, and a path
that leads elsewhere leads to what it led to.
-/

namespace Exosuit.Lib

variable {α κ : Type}

structure Children (α κ : Type) where
  get : α → κ → Option α
  set : α → κ → α → Option α
  get_set : ∀ {a k v b}, set a k v = some b → get b k = some v
  get_set_ne : ∀ {a k v b k'}, set a k v = some b → k' ≠ k → get b k' = get a k'

namespace Children

variable (C : Children α κ)

def find : α → List κ → Option α
  | a, [] => some a
  | a, k :: rest => (C.get a k).bind fun c => find c rest

/-- A missing value is `fresh`, where there is one. -/
def put (fresh : Option α) (v : α) : α → List κ → Option α
  | _, [] => some v
  | a, k :: rest => ((C.get a k).or fresh).bind fun c => (put fresh v c rest).bind (C.set a k)

variable {C}
variable {fresh : Option α} {a b v : α} {p q : List κ}

theorem put_cons {k : κ} (h : C.put fresh v a (k :: p) = some b) :
    ∃ c c', (C.get a k).or fresh = some c ∧ C.put fresh v c p = some c' ∧ C.set a k c' = some b := by
  obtain ⟨c, hc, h⟩ := Option.bind_eq_some_iff.1 h
  obtain ⟨c', hc', h⟩ := Option.bind_eq_some_iff.1 h
  exact ⟨c, c', hc, hc', h⟩

theorem find_put (h : C.put fresh v a p = some b) : C.find b p = some v := by
  induction p generalizing a b with
  | nil => exact congrArg some (Option.some.inj h).symm
  | cons k p ih =>
    obtain ⟨c, c', -, hPut, hSet⟩ := put_cons h
    rw [find, C.get_set hSet, Option.bind_some, ih hPut]

/-- Neither of two paths leads below the other. -/
def Apart (p q : List κ) : Prop := ¬ p <+: q ∧ ¬ q <+: p

theorem find_put_apart (hFresh : ∀ f, fresh = some f → ∀ k, C.get f k = none)
    (h : C.put fresh v a p = some b) (hApart : Apart p q) : C.find b q = C.find a q := by
  induction p generalizing a b q with
  | nil => exact absurd (List.nil_prefix) hApart.1
  | cons k p ih =>
    obtain ⟨c, c', hc, hPut, hSet⟩ := put_cons h
    rcases q with _ | ⟨k', q⟩
    · exact absurd (List.nil_prefix) hApart.2
    · rw [find, find]
      by_cases hKey : k' = k
      · subst hKey
        have hRest : Apart p q :=
          ⟨fun hp => hApart.1 (List.cons_prefix_cons.2 ⟨rfl, hp⟩),
            fun hq => hApart.2 (List.cons_prefix_cons.2 ⟨rfl, hq⟩)⟩
        rw [C.get_set hSet, Option.bind_some, ih hPut hRest]
        cases hGet : C.get a k' with
        | some d =>
          rw [hGet, Option.some_or] at hc
          rw [Option.some.inj hc, Option.bind_some]
        | none =>
          rw [hGet, Option.none_or] at hc
          rcases q with _ | ⟨k'', q⟩
          · exact absurd (List.nil_prefix) hRest.2
          · rw [find, hFresh c hc, Option.bind_none, Option.bind_none]
      · rw [C.get_set_ne hSet hKey]

theorem find_put_none (h : C.put none v a p = some b) (hApart : Apart p q) : C.find b q = C.find a q := by
  refine find_put_apart ?_ h hApart
  exact fun _ hNone => absurd hNone nofun

/-- What is there can be replaced. -/
theorem isSome_put_iff (hSet : ∀ a k c v, C.get a k = some c → (C.set a k v).isSome = true) :
    (C.put none v a p).isSome = true ↔ (C.find a p).isSome = true := by
  induction p generalizing a with
  | nil => exact Iff.rfl
  | cons k p ih =>
    rw [find, put, Option.or_none]
    cases hGet : C.get a k with
    | none => exact Iff.rfl
    | some c =>
      rw [Option.bind_some, Option.bind_some, ← ih]
      cases C.put none v c p with
      | none => exact Iff.rfl
      | some c' => exact iff_of_true (hSet a k c c' hGet) rfl

/-! ## A measure that decreases along a path -/

section

variable {depth : α → Nat}

theorem length_add_depth_le (hGet : ∀ a k c, C.get a k = some c → depth c < depth a)
    (h : C.find a p = some v) : p.length + depth v ≤ depth a := by
  induction p generalizing a with
  | nil =>
    have hEq : a = v := Option.some.inj h
    rw [hEq, List.length_nil]
    omega
  | cons k p ih =>
    obtain ⟨c, hc, h⟩ := Option.bind_eq_some_iff.1 h
    have hStep := hGet _ _ _ hc
    have hRest := ih h
    rw [List.length_cons]
    omega

theorem depth_put_le (hGet : ∀ a k c, C.get a k = some c → depth c < depth a)
    (hSet : ∀ a k v b, C.set a k v = some b → depth b ≤ max (depth a) (depth v + 1))
    (h : C.put none v a p = some b) : depth b ≤ max (depth a) (p.length + depth v) := by
  induction p generalizing a b with
  | nil =>
    have hEq : v = b := Option.some.inj h
    rw [hEq, List.length_nil]
    omega
  | cons k p ih =>
    obtain ⟨c, c', hc, hPut, hStep⟩ := put_cons h
    rw [Option.or_none] at hc
    have hBelow := hGet _ _ _ hc
    have hRest := ih hPut
    have hBound := hSet _ _ _ _ hStep
    rw [List.length_cons]
    omega

end

theorem find_map {f : α → α} (hMap : ∀ a k, C.get (f a) k = (C.get a k).map f) (a : α) (p : List κ) :
    C.find (f a) p = (C.find a p).map f := by
  induction p generalizing a with
  | nil => rfl
  | cons k p ih =>
    rw [find, find, hMap]
    cases C.get a k with
    | none => rfl
    | some c => exact ih c

end Children

end Exosuit.Lib
