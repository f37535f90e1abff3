import Mathlib.Data.List.Forall2
import Mathlib.Order.Defs.LinearOrder
import Exosuit.Lib.Rows
import Exosuit.Lib.Traversal

/-!
# Lists in order

What stands in the order of a relation that no two different members share both ways, and where an
element goes that is put between the others.
-/

namespace Exosuit.Lib

universe u

variable {α : Type u} {le : α → α → Bool} {l l' : List α}

/-- The relation orders every list, and the members of this one without ties. -/
structure Orders (le : α → α → Bool) (l : List α) : Prop where
  total : ∀ a b, le a b = true ∨ le b a = true
  trans : ∀ a b c, le a b = true → le b c = true → le a c = true
  antisymm : ∀ a ∈ l, ∀ b ∈ l, le a b = true → le b a = true → a = b

theorem Orders.mono (h : Orders le l) (hSub : ∀ a ∈ l', a ∈ l) : Orders le l' :=
  ⟨h.total, h.trans, fun a ha b hb => h.antisymm a (hSub a ha) b (hSub b hb)⟩

theorem perm_orderBy (l : List α) : (orderBy le l).Perm l := List.perm_insertionSort _ l

theorem Orders.pairwise (h : Orders le l) : (orderBy le l).Pairwise fun a b => le a b = true := by
  have : Std.Total fun a b => le a b = true := ⟨h.total⟩
  have : IsTrans α fun a b => le a b = true := ⟨h.trans⟩
  exact List.pairwise_insertionSort _ l

theorem Orders.orderBy_eq (h : Orders le l) (hPerm : l'.Perm l)
    (hOrder : l'.Pairwise fun a b => le a b = true) : orderBy le l = l' := by
  refine List.Perm.eq_of_pairwise (fun a b ha hb hab hba => ?_) h.pairwise hOrder
    ((perm_orderBy l).trans hPerm.symm)
  exact h.antisymm a (mem_orderBy.mp ha) b (hPerm.mem_iff.mp hb) hab hba

theorem Orders.orderBy_filter (h : Orders le l) (p : α → Bool) :
    orderBy le (l.filter p) = (orderBy le l).filter p := by
  refine (h.mono fun a ha => (List.mem_filter.mp ha).1).orderBy_eq ?_ (h.pairwise.filter p)
  exact (perm_orderBy l).filter p

/-- An element that stands between the first `i` others and the rest is put there. -/
theorem Orders.orderBy_insert {x : α} {i : Nat} (h : Orders le l') (hPerm : l'.Perm (x :: l))
    (hBefore : ∀ a ∈ (orderBy le l).take i, le a x = true)
    (hAfter : ∀ a ∈ (orderBy le l).drop i, le x a = true) :
    orderBy le l' = (orderBy le l).take i ++ x :: (orderBy le l).drop i := by
  have hOrder : (orderBy le l).Pairwise fun a b => le a b = true :=
    (h.mono fun a ha => hPerm.mem_iff.mpr (List.mem_cons_of_mem _ ha)).pairwise
  rw [← List.take_append_drop i (orderBy le l), List.pairwise_append] at hOrder
  obtain ⟨hTake, hDrop, hBoth⟩ := hOrder
  refine h.orderBy_eq ?_ ?_
  · refine List.perm_middle.trans (List.Perm.trans (.cons x ?_) hPerm.symm)
    rw [List.take_append_drop]
    exact perm_orderBy l
  · refine List.pairwise_append.mpr ⟨hTake, List.pairwise_cons.mpr ⟨hAfter, hDrop⟩, ?_⟩
    intro a ha b hb
    rcases List.mem_cons.mp hb with rfl | hb
    · exact hBefore a ha
    · exact hBoth a ha b hb

/-! ## What comes first -/

section First

variable {p : α → Bool} {n : Nat}

theorem mem_take_of_first (hFirst : l.Pairwise fun a b => p b = true → p a = true)
    (hRoom : l.countP p ≤ n) {a : α} (ha : a ∈ l) (hp : p a = true) : a ∈ l.take n := by
  induction l generalizing n with
  | nil => cases ha
  | cons x l ih =>
    obtain ⟨hHead, hTail⟩ := List.pairwise_cons.mp hFirst
    have hx : p x = true := by
      rcases List.mem_cons.mp ha with rfl | hMem
      · exact hp
      · exact hHead a hMem hp
    rw [List.countP_cons_of_pos hx] at hRoom
    obtain ⟨m, rfl⟩ : ∃ m, n = m + 1 := ⟨n - 1, by omega⟩
    rw [List.take_succ_cons]
    rcases List.mem_cons.mp ha with rfl | hMem
    · exact List.mem_cons_self
    · exact List.mem_cons_of_mem _ (ih hTail (by omega) hMem)

theorem forall_mem_take_of_first (hFirst : l.Pairwise fun a b => p b = true → p a = true)
    (hRoom : n ≤ l.countP p) {a : α} (ha : a ∈ l.take n) : p a = true := by
  induction l generalizing n with
  | nil => simp at ha
  | cons x l ih =>
    obtain ⟨hHead, hTail⟩ := List.pairwise_cons.mp hFirst
    have hx : p x = true := by
      by_contra hx
      have hNone : (x :: l).countP p = 0 := by
        rw [List.countP_eq_zero]
        intro b hb hpb
        rcases List.mem_cons.mp hb with rfl | hb
        · exact hx hpb
        · exact hx (hHead b hb hpb)
      have hEmpty : n = 0 := by omega
      rw [hEmpty] at ha
      cases ha
    rw [List.countP_cons_of_pos hx] at hRoom
    cases n with
    | zero => cases ha
    | succ n =>
      rw [List.take_succ_cons] at ha
      rcases List.mem_cons.mp ha with rfl | hMem
      · exact hx
      · exact ih hTail (by omega) hMem

end First

/-! ## Ascending lists -/

section Ascending

variable {β : Type u} [LinearOrder β] {R : β → β → Prop} {m m' : List β} {a b : β}

/-- `b` may stand where `a` stands. -/
def Replaces (m : List β) (a b : β) : Prop := (∀ d ∈ m, d < a → d < b) ∧ ∀ d ∈ m, a < d → b < d

theorem replaces_ascending (hm : m.Pairwise (· < ·)) (h : Replaces m a b) {f : β → β} (hHere : f a = b)
    (hElse : ∀ d, d ≠ a → f d = d) : (m.map f).Pairwise (· < ·) := by
  refine List.pairwise_map.mpr (hm.imp_of_mem fun {c d} hc hd hLt => ?_)
  by_cases hca : c = a
  · subst hca
    rw [hHere, hElse d (ne_of_gt hLt)]
    exact h.2 d hd hLt
  · rw [hElse c hca]
    by_cases hda : d = a
    · subst hda
      rw [hHere]
      exact h.1 c hc hLt
    · rw [hElse d hda]
      exact hLt

theorem exists_replaces_higher (hm : m.Pairwise (· < ·)) (hm' : m'.Pairwise (· < ·)) (h : List.Forall₂ R m m')
    (hHigher : ¬ List.Forall₂ (fun a b => b ≤ a) m m') : ∃ a ∈ m, ∃ b, R a b ∧ a < b ∧ Replaces m a b := by
  induction h with
  | nil => exact absurd .nil hHigher
  | @cons x y l l' hHead _ ih =>
    obtain ⟨hFirst, hRest⟩ := List.pairwise_cons.mp hm
    obtain ⟨hFirst', hRest'⟩ := List.pairwise_cons.mp hm'
    by_cases hTail : List.Forall₂ (fun a b => b ≤ a) l l'
    · have hLt : x < y := lt_of_not_ge fun hLe => hHigher (.cons hLe hTail)
      refine ⟨x, List.mem_cons_self, y, hHead, hLt, fun d _ hda => hda.trans hLt, fun d hd had => ?_⟩
      rcases List.mem_cons.mp hd with rfl | hd
      · exact absurd had (lt_irrefl _)
      · obtain ⟨d', hd', hLe⟩ := Traversal.exists_of_forall₂_right hTail.flip hd
        exact lt_of_lt_of_le (hFirst' d' hd') hLe
    · obtain ⟨a, ha, b, hR, hLt, hBelow, hAbove⟩ := ih hRest hRest' hTail
      refine ⟨a, List.mem_cons_of_mem _ ha, b, hR, hLt, fun d _ hda => hda.trans hLt, fun d hd had => ?_⟩
      rcases List.mem_cons.mp hd with rfl | hd
      · exact absurd (had.trans (hFirst a ha)) (lt_irrefl a)
      · exact hAbove d hd had

theorem exists_replaces_lower (hm : m.Pairwise (· < ·)) (hm' : m'.Pairwise (· < ·)) (h : List.Forall₂ R m m')
    (hLower : List.Forall₂ (fun a b => b ≤ a) m m') (hne : m ≠ m') :
    ∃ a ∈ m, ∃ b ∈ m', R a b ∧ b < a ∧ Replaces m a b := by
  induction h with
  | nil => exact absurd rfl hne
  | @cons x y l l' hHead _ ih =>
    obtain ⟨hFirst, hRest⟩ := List.pairwise_cons.mp hm
    obtain ⟨hFirst', hRest'⟩ := List.pairwise_cons.mp hm'
    obtain ⟨hLe, hTail⟩ := List.forall₂_cons.mp hLower
    rcases hLe.lt_or_eq with hLt | hEq
    · refine ⟨x, List.mem_cons_self, y, List.mem_cons_self, hHead, hLt, fun d hd hda => ?_,
        fun d _ had => hLt.trans had⟩
      rcases List.mem_cons.mp hd with rfl | hd
      · exact absurd hda (lt_irrefl _)
      · exact absurd (hda.trans (hFirst d hd)) (lt_irrefl d)
    · subst hEq
      obtain ⟨a, ha, b, hb, hR, hLt, hBelow, hAbove⟩ :=
        ih hRest hRest' hTail fun hSame => hne (congrArg (y :: ·) hSame)
      refine ⟨a, List.mem_cons_of_mem _ ha, b, List.mem_cons_of_mem _ hb, hR, hLt, fun d hd hda => ?_,
        fun d _ had => hLt.trans had⟩
      rcases List.mem_cons.mp hd with rfl | hd
      · exact hFirst' b hb
      · exact hBelow d hd hda

theorem exists_replaces (hm : m.Pairwise (· < ·)) (hm' : m'.Pairwise (· < ·)) (h : List.Forall₂ R m m')
    (hne : m ≠ m') : ∃ a ∈ m, ∃ b, R a b ∧ b ≠ a ∧ Replaces m a b := by
  by_cases hLower : List.Forall₂ (fun a b => b ≤ a) m m'
  · obtain ⟨a, ha, b, -, hR, hLt, hReplaces⟩ := exists_replaces_lower hm hm' h hLower hne
    exact ⟨a, ha, b, hR, ne_of_lt hLt, hReplaces⟩
  · obtain ⟨a, ha, b, hR, hLt, hReplaces⟩ := exists_replaces_higher hm hm' h hLower
    exact ⟨a, ha, b, hR, ne_of_gt hLt, hReplaces⟩

end Ascending

end Exosuit.Lib
