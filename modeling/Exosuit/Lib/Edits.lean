import Mathlib.Algebra.Order.Group.Nat
import Mathlib.Algebra.Ring.Nat
import Mathlib.Algebra.BigOperators.Group.List.Basic

/-!
# Edits of a text

Ranges of a text are planned first and replaced from the last one to the first. A text with slots
says what stays and what is replaced; reading the result against it finds every slot again, since
nothing that has once fallen behind catches up.
-/

namespace Exosuit.Lib.Edits

universe u v

variable {α : Type u} {β : Type v}

/-! ## Ranges -/

/-- The length of a text, where a character may count for several units. -/
def size (w : α → Nat) (l : List α) : Nat := (l.map w).sum

/-- A text cut at an offset; no cut falls inside a character or behind the end. -/
def cut (w : α → Nat) : Nat → List α → Option (List α × List α)
  | 0, l => some ([], l)
  | _ + 1, [] => none
  | n + 1, c :: l =>
    if w c ≤ n + 1 then (cut w (n + 1 - w c) l).map fun p => (c :: p.1, p.2) else none

structure Edit (α : Type u) where
  start : Nat
  stop : Nat
  text : List α
  deriving DecidableEq

def replaceRange (w : α → Nat) (l : List α) (e : Edit α) : Option (List α) :=
  (cut w e.start l).bind fun p => (cut w (e.stop - e.start) p.2).map fun q => p.1 ++ e.text ++ q.2

/-- The edits are applied from the last one to the first. -/
def applyAll (w : α → Nat) (edits : List (Edit α)) (l : List α) : Option (List α) :=
  edits.foldr (fun e l => l.bind fun l => replaceRange w l e) (some l)

/-- What stays is given by its characters, what is replaced by a slot. -/
abbrev Template (α : Type u) (β : Type v) := List (α ⊕ β)

def fill (text : β → List α) (t : Template α β) : List α := t.flatMap (Sum.elim (fun c => [c]) text)

def edits (w : α → Nat) (old new : β → List α) : Nat → Template α β → List (Edit α)
  | _, [] => []
  | n, .inl c :: t => edits w old new (n + w c) t
  | n, .inr b :: t => ⟨n, n + size w (old b), new b⟩ :: edits w old new (n + size w (old b)) t

variable {w : α → Nat} {old new : β → List α} {t : Template α β} {l : List α}

theorem size_append (a b : List α) : size w (a ++ b) = size w a + size w b := by
  rw [size, size, size, List.map_append, List.sum_append]

theorem fill_cons (text : β → List α) (s : α ⊕ β) (t : Template α β) :
    fill text (s :: t) = Sum.elim (fun c => [c]) text s ++ fill text t := List.flatMap_cons

theorem fill_map_inl (text : β → List α) (l : List α) : fill text (l.map Sum.inl) = l := by
  induction l with
  | nil => rfl
  | cons c l ih => rw [List.map_cons, fill_cons, ih, Sum.elim_inl, List.singleton_append]

theorem edits_map_inl (n : Nat) (l : List α) (t : Template α β) :
    edits w old new n (l.map Sum.inl ++ t) = edits w old new (n + size w l) t := by
  induction l generalizing n with
  | nil => rfl
  | cons c l ih =>
    have hSize : n + w c + size w l = n + size w (c :: l) := by
      rw [size, size, List.map_cons, List.sum_cons]
      omega
    rw [List.map_cons, List.cons_append, edits, ih, hSize]

theorem le_start_of_mem_edits {e : Edit α} {n : Nat} (h : e ∈ edits w old new n t) : n ≤ e.start := by
  induction t generalizing n with
  | nil => exact absurd h List.not_mem_nil
  | cons s t ih =>
    cases s with
    | inl c => exact (Nat.le_add_right _ _).trans (ih h)
    | inr b =>
      rcases List.mem_cons.mp h with rfl | h
      · exact Nat.le_refl _
      · exact (Nat.le_add_right _ _).trans (ih h)

theorem pairwise_edits (n : Nat) (t : Template α β) :
    (edits w old new n t).Pairwise fun a b => a.start ≤ b.start := by
  induction t generalizing n with
  | nil => exact List.Pairwise.nil
  | cons s t ih =>
    cases s with
    | inl c => exact ih _
    | inr b =>
      refine List.Pairwise.cons (fun e hMem => ?_) (ih _)
      exact (Nat.le_add_right _ _).trans (le_start_of_mem_edits hMem)

theorem edits_ne_nil {b : β} (n : Nat) (h : Sum.inr b ∈ t) : edits w old new n t ≠ [] := by
  induction t generalizing n with
  | nil => exact absurd h List.not_mem_nil
  | cons s t ih =>
    cases s with
    | inl c => exact ih _ ((List.mem_cons.mp h).resolve_left nofun)
    | inr b => exact List.cons_ne_nil _ _

theorem cut_append (hw : ∀ c, 0 < w c) (a b : List α) : cut w (size w a) (a ++ b) = some (a, b) := by
  induction a with
  | nil => cases b <;> rfl
  | cons c a ih =>
    have hSize : size w (c :: a) = w c + size w a := by rw [size, size, List.map_cons, List.sum_cons]
    obtain ⟨n, hn⟩ := Nat.exists_eq_succ_of_ne_zero (Nat.ne_of_gt (hw c))
    have hShape : size w (c :: a) = (n + size w a) + 1 := by omega
    rw [hShape, List.cons_append, cut, if_pos (by omega)]
    have hRest : n + size w a + 1 - w c = size w a := by omega
    rw [hRest, ih]
    rfl

theorem replaceRange_append (hw : ∀ c, 0 < w c) (a b c text : List α) :
    replaceRange w (a ++ b ++ c) ⟨size w a, size w a + size w b, text⟩ = some (a ++ text ++ c) := by
  rw [replaceRange, List.append_assoc, cut_append hw, Option.bind_some]
  dsimp only
  rw [Nat.add_sub_cancel_left, cut_append hw, Option.map_some]

theorem applyAll_edits (hw : ∀ c, 0 < w c) (front : List α) (t : Template α β) :
    applyAll w (edits w old new (size w front) t) (front ++ fill old t) =
      some (front ++ fill new t) := by
  induction t generalizing front with
  | nil => rfl
  | cons s t ih =>
    cases s with
    | inl c =>
      have hSize : size w front + w c = size w (front ++ [c]) := by
        rw [size_append]
        rfl
      rw [edits, hSize, fill_cons, fill_cons, ← List.append_assoc, ← List.append_assoc]
      exact ih (front ++ [c])
    | inr b =>
      have hTail := ih (front ++ old b)
      rw [size_append] at hTail
      rw [edits, applyAll, List.foldr_cons, fill_cons, fill_cons, ← List.append_assoc]
      dsimp only [Sum.elim_inr]
      rw [applyAll] at hTail
      rw [hTail, Option.bind_some, replaceRange_append hw, List.append_assoc]

/-! ## Reading against a template -/

variable [DecidableEq α]

/-- A text read against a template: what stays must be there, and a slot is read up to the first
closing character. -/
def Reads (close : α) (ok : β → List α → Prop) : Template α β → List α → Prop
  | [], l => l = []
  | .inl c :: t, l => l.head? = some c ∧ Reads close ok t l.tail
  | .inr b :: t, l =>
    close ∈ l ∧ ok b (l.takeWhile (· ≠ close)) ∧ Reads close ok t (l.dropWhile (· ≠ close)).tail

instance decidableReads (close : α) (ok : β → List α → Prop) [∀ b l, Decidable (ok b l)] :
    ∀ t l, Decidable (Reads close ok t l)
  | [], l => inferInstanceAs (Decidable (l = []))
  | .inl _ :: t, l =>
    have := decidableReads close ok t l.tail
    inferInstanceAs (Decidable (_ ∧ _))
  | .inr _ :: t, l =>
    have := decidableReads close ok t (l.dropWhile (· ≠ close)).tail
    inferInstanceAs (Decidable (_ ∧ _ ∧ _))

variable {close : α} {ok : β → List α → Prop} {x : β → List α}

theorem takeWhile_append_close {a : List α} (h : close ∉ a) (b : List α) :
    (a ++ close :: b).takeWhile (· ≠ close) = a := by
  rw [List.takeWhile_append_of_pos, List.takeWhile_cons_of_neg (by simp), List.append_nil]
  intro c hc
  exact decide_eq_true (ne_of_mem_of_not_mem hc h)

theorem dropWhile_append_close {a : List α} (h : close ∉ a) (b : List α) :
    (a ++ close :: b).dropWhile (· ≠ close) = close :: b := by
  rw [List.dropWhile_append_of_pos, List.dropWhile_cons_of_neg (by simp)]
  intro c hc
  exact decide_eq_true (ne_of_mem_of_not_mem hc h)

/-- A reader that is behind, with a closing character in between, stays behind. -/
theorem not_reads_of_behind {lag : List α} (h : close ∈ lag) :
    ¬ Reads close ok t (lag ++ fill (fun b => x b ++ [close]) t) := by
  induction t generalizing lag with
  | nil =>
    intro hReads
    rw [(List.append_eq_nil_iff.mp hReads).1] at h
    exact List.not_mem_nil h
  | cons s t ih =>
    cases s with
    | inl c =>
      rintro ⟨hHead, hTail⟩
      obtain ⟨d, lag, rfl⟩ := List.exists_cons_of_ne_nil (List.ne_nil_of_mem h)
      rw [List.cons_append, List.head?_cons, Option.some.injEq] at hHead
      rw [fill_cons, List.cons_append, List.tail_cons, ← List.append_assoc] at hTail
      refine ih ?_ hTail
      rw [List.mem_append, Sum.elim_inl, List.mem_singleton]
      rcases List.mem_cons.mp h with h | h
      · exact Or.inr (h.trans hHead)
      · exact Or.inl h
    | inr b =>
      rintro ⟨-, -, hTail⟩
      obtain ⟨a, lag, rfl, ha⟩ := List.eq_append_cons_of_mem h
      rw [List.append_assoc, List.cons_append, dropWhile_append_close ha, List.tail_cons, fill_cons,
        ← List.append_assoc] at hTail
      refine ih ?_ hTail
      rw [List.mem_append, Sum.elim_inr, List.mem_append]
      exact Or.inr (Or.inr (List.mem_singleton_self close))

theorem reads_fill_iff : Reads close ok t (fill (fun b => x b ++ [close]) t) ↔
    ∀ b, Sum.inr b ∈ t → close ∉ x b ∧ ok b (x b) := by
  induction t with
  | nil => simp [Reads, fill]
  | cons s t ih =>
    cases s with
    | inl c =>
      rw [Reads, fill_cons, Sum.elim_inl, List.singleton_append, List.head?_cons, List.tail_cons, ih]
      simp
    | inr b =>
      rw [Reads, fill_cons, Sum.elim_inr, List.append_assoc, List.singleton_append]
      constructor
      · rintro ⟨-, hOk, hTail⟩
        have hFree : close ∉ x b := by
          intro hMem
          obtain ⟨a, lag, hx, ha⟩ := List.eq_append_cons_of_mem hMem
          rw [hx, List.append_assoc, List.cons_append, dropWhile_append_close ha, List.tail_cons,
            List.append_cons] at hTail
          refine not_reads_of_behind ?_ hTail
          exact List.mem_append_right _ (List.mem_singleton_self close)
        rw [takeWhile_append_close hFree] at hOk
        rw [dropWhile_append_close hFree, List.tail_cons, ih] at hTail
        intro b' hMem
        rcases List.mem_cons.mp hMem with hHead | hMem
        · rw [Sum.inr.inj hHead]
          exact ⟨hFree, hOk⟩
        · exact hTail b' hMem
      · intro h
        obtain ⟨hFree, hOk⟩ := h b List.mem_cons_self
        rw [takeWhile_append_close hFree, dropWhile_append_close hFree, List.tail_cons, ih]
        refine ⟨?_, hOk, fun b' hMem => h b' (List.mem_cons_of_mem _ hMem)⟩
        exact List.mem_append_right _ List.mem_cons_self

end Exosuit.Lib.Edits
