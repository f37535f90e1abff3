import Mathlib.Data.List.Nodup
import Mathlib.Logic.Function.Basic

/-!
# Threads that write to one stream

Every thread writes its own items in order; a schedule says whose item comes next.
What a thread wrote is read back from the stream by its tag.
-/

namespace Exosuit.Lib.Schedule

variable {ι α : Type*} [DecidableEq ι]

/-- The items that carry the tag, in order. -/
def own (i : ι) (l : List (ι × α)) : List α := l.filterMap fun e => if e.1 = i then some e.2 else none

/-- The threads of `ids` write `q`; whatever the schedule leaves over follows thread by thread. -/
def merge (ids : List ι) : List ι → (ι → List α) → List (ι × α)
  | [], q => ids.flatMap fun i => (q i).map (i, ·)
  | i :: schedule, q =>
    match q i with
    | [] => merge ids schedule q
    | a :: rest => (i, a) :: merge ids schedule (Function.update q i rest)

@[simp] theorem own_nil (i : ι) : own i ([] : List (ι × α)) = [] := rfl

theorem own_cons (i : ι) (e : ι × α) (l : List (ι × α)) :
    own i (e :: l) = if e.1 = i then e.2 :: own i l else own i l := by
  by_cases h : e.1 = i <;> simp [own, h]

@[simp] theorem own_append (i : ι) (l l' : List (ι × α)) : own i (l ++ l') = own i l ++ own i l' :=
  List.filterMap_append

theorem mem_own {i : ι} {a : α} {l : List (ι × α)} : a ∈ own i l ↔ (i, a) ∈ l := by
  rw [own, List.mem_filterMap]
  constructor
  · rintro ⟨⟨j, b⟩, hMem, hOwn⟩
    split at hOwn
    · next hSame =>
      cases hSame
      cases hOwn
      exact hMem
    · exact nomatch hOwn
  · exact fun hMem => ⟨(i, a), hMem, if_pos rfl⟩

theorem own_map_tag (i j : ι) (l : List α) : own i (l.map (j, ·)) = if j = i then l else [] := by
  induction l with
  | nil => rw [List.map_nil, own_nil, ite_self]
  | cons a l ih =>
    rw [List.map_cons, own_cons, ih]
    split <;> rfl

theorem own_flatMap {ids : List ι} (hNodup : ids.Nodup) (q : ι → List α) (i : ι) :
    own i (ids.flatMap fun j => (q j).map (j, ·)) = if i ∈ ids then q i else [] := by
  induction ids with
  | nil => rfl
  | cons j ids ih =>
    obtain ⟨hNew, hRest⟩ := List.nodup_cons.mp hNodup
    rw [List.flatMap_cons, own_append, own_map_tag, ih hRest]
    split
    · next hSame =>
      subst hSame
      rw [if_neg hNew, if_pos List.mem_cons_self, List.append_nil]
    · next hne =>
      rw [List.nil_append]
      exact if_congr (by rw [List.mem_cons, or_iff_right (Ne.symm hne)]) rfl rfl

/-- Under every schedule each thread is read back whole. -/
theorem own_merge {ids : List ι} (hNodup : ids.Nodup) (schedule : List ι) (q : ι → List α)
    (hOnly : ∀ i, i ∉ ids → q i = []) (i : ι) : own i (merge ids schedule q) = q i := by
  induction schedule generalizing q with
  | nil =>
    rw [merge, own_flatMap hNodup]
    split
    · rfl
    · next hNot => exact (hOnly i hNot).symm
  | cons j schedule ih =>
    rw [merge]
    split
    · exact ih q hOnly
    · next a rest hItems =>
      have hOnly' : ∀ k, k ∉ ids → Function.update q j rest k = [] := by
        intro k hk
        rw [Function.update_apply]
        split
        · next hSame => cases (hSame ▸ hOnly k hk).symm.trans hItems
        · exact hOnly k hk
      rw [own_cons, ih _ hOnly', Function.update_apply]
      split
      · next hSame =>
        obtain rfl : j = i := hSame
        rw [if_pos rfl, hItems]
      · next hne => rw [if_neg (Ne.symm hne)]

/-- Only the threads write. -/
theorem fst_mem_of_mem_merge {ids schedule : List ι} {q : ι → List α}
    (hOnly : ∀ i, i ∉ ids → q i = []) {e : ι × α} (he : e ∈ merge ids schedule q) : e.1 ∈ ids := by
  induction schedule generalizing q with
  | nil =>
    obtain ⟨i, hi, hMem⟩ := List.mem_flatMap.mp he
    obtain ⟨a, -, rfl⟩ := List.mem_map.mp hMem
    exact hi
  | cons j schedule ih =>
    rw [merge] at he
    split at he
    · exact ih hOnly he
    · next a rest hItems =>
      have hj : j ∈ ids := by
        by_contra hNot
        cases (hOnly j hNot).symm.trans hItems
      rcases List.mem_cons.mp he with rfl | hRest
      · exact hj
      · refine ih (fun k hk => ?_) hRest
        have hne : k ≠ j := by
          rintro rfl
          exact hk hj
        rw [Function.update_of_ne hne]
        exact hOnly k hk

end Exosuit.Lib.Schedule
