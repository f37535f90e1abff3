import Exosuit.Extension.TraceCache
import Exosuit.Lib.Table

/-!
# The shape of a trace cache

What holds between the maps of a trace cache whatever the daemon answers: an entry has the
current key of its root, the fetch in flight is one that was sent for that root and has not
settled, and without a workspace nothing is cached or under way.
-/

namespace Exosuit.Extension.TraceCache

open Exosuit.Lib

variable {I D : Type} {s : TraceCache I D} {rootId : String}

/-! ## The map -/

theorem has_iff : s.has rootId = true ↔ ∃ e ∈ s.cache, e.rootId = rootId := by
  simp [has]

theorem mem_cacheSet {entry e : CacheEntry I D} (hMem : e ∈ (s.cacheSet entry).cache) :
    (e ∈ s.cache ∧ e.rootId ≠ entry.rootId) ∨
      (∃ slot, e = { entry with slot }) := by
  unfold cacheSet at hMem
  split at hMem
  case isTrue =>
    obtain ⟨old, hOld, hNew⟩ := List.mem_map.mp hMem
    split at hNew
    · exact .inr ⟨old.slot, hNew.symm⟩
    · exact .inl (hNew ▸ ⟨hOld, ‹_›⟩)
  case isFalse hHas =>
    rcases List.mem_append.mp hMem with hOld | hNew
    · refine .inl ⟨hOld, fun hId => hHas ?_⟩
      exact has_iff.mpr ⟨e, hOld, hId⟩
    · exact .inr ⟨s.nextSlot, List.mem_singleton.mp hNew⟩

theorem mem_cacheSet_of_ne {entry e : CacheEntry I D} (hMem : e ∈ s.cache)
    (hId : e.rootId ≠ entry.rootId) : e ∈ (s.cacheSet entry).cache := by
  unfold cacheSet
  split
  · exact List.mem_map.mpr ⟨e, hMem, if_neg hId⟩
  · exact List.mem_append_left _ hMem

theorem has_cacheSet (entry : CacheEntry I D) : (s.cacheSet entry).has entry.rootId = true := by
  unfold cacheSet
  split
  case isTrue hHas =>
    obtain ⟨e, hMem, hId⟩ := has_iff.mp hHas
    exact has_iff.mpr ⟨_, List.mem_map.mpr ⟨e, hMem, if_pos hId⟩, rfl⟩
  case isFalse => exact has_iff.mpr ⟨_, List.mem_append_right _ (List.mem_singleton.mpr rfl), rfl⟩

theorem mem_cacheDelete {e : CacheEntry I D} :
    e ∈ (s.cacheDelete rootId).cache ↔ e ∈ s.cache ∧ e.rootId ≠ rootId := by
  simp [cacheDelete]

theorem has_cacheDelete_of_ne {id : String} (hOther : id ≠ rootId) (hHas : s.has id = true) :
    (s.cacheDelete rootId).has id = true := by
  obtain ⟨e, hMem, rfl⟩ := has_iff.mp hHas
  exact has_iff.mpr ⟨e, mem_cacheDelete.mpr ⟨hMem, hOther⟩, rfl⟩

theorem cacheDelete_of_not_has (hHas : s.has rootId = false) : s.cacheDelete rootId = s := by
  have hFilter : s.cache.filter (fun e => e.rootId != rootId) = s.cache := by
    rw [List.filter_eq_self]
    intro e hMem
    by_contra hId
    have hHere : s.has rootId = true := has_iff.mpr ⟨e, hMem, by simpa using hId⟩
    exact Bool.false_ne_true (hHas.symm.trans hHere)
  rw [cacheDelete, hFilter]

/-- The entries stand in the order of their places, and new places come last. -/
def Ordered (cache : List (CacheEntry I D)) (nextSlot : Nat) : Prop :=
  cache.Pairwise (fun a b => a.slot < b.slot) ∧ ∀ e ∈ cache, e.slot < nextSlot

theorem Ordered.map {cache : List (CacheEntry I D)} {nextSlot : Nat} (h : Ordered cache nextSlot)
    {f : CacheEntry I D → CacheEntry I D} (hSlot : ∀ e, (f e).slot = e.slot) :
    Ordered (cache.map f) nextSlot := by
  constructor
  · rw [List.pairwise_map]
    simpa only [hSlot] using h.1
  · intro e hMem
    obtain ⟨old, hOld, rfl⟩ := List.mem_map.mp hMem
    exact hSlot old ▸ h.2 old hOld

theorem Ordered.filter {cache : List (CacheEntry I D)} {nextSlot : Nat}
    (h : Ordered cache nextSlot) (p : CacheEntry I D → Bool) : Ordered (cache.filter p) nextSlot :=
  ⟨h.1.filter p, fun e hMem => h.2 e (List.mem_filter.mp hMem).1⟩

theorem Ordered.cacheSet (h : Ordered s.cache s.nextSlot) (entry : CacheEntry I D) :
    Ordered (s.cacheSet entry).cache (s.cacheSet entry).nextSlot := by
  unfold TraceCache.cacheSet
  split
  · apply h.map
    intro e
    split <;> rfl
  · constructor
    · rw [List.pairwise_append]
      refine ⟨h.1, List.pairwise_singleton _ _, fun e hMem new hNew => ?_⟩
      obtain rfl := List.mem_singleton.mp hNew
      exact h.2 e hMem
    · intro e hMem
      rcases List.mem_append.mp hMem with hOld | hNew
      · exact Nat.lt_succ_of_lt (h.2 e hOld)
      · obtain rfl := List.mem_singleton.mp hNew
        exact Nat.lt_succ_self _

/-- Of two entries at places from a bound on, the one that is found comes first. -/
theorem Ordered.find_le {cache : List (CacheEntry I D)} {nextSlot slot : Nat}
    (h : Ordered cache nextSlot) {e e' : CacheEntry I D}
    (hFind : (cache.find? fun e => slot ≤ e.slot) = some e) (hMem : e' ∈ cache)
    (hSlot : slot ≤ e'.slot) : e' = e ∨ e.slot < e'.slot := by
  obtain ⟨-, front, back, rfl, hFront⟩ := List.find?_eq_some_iff_append.mp hFind
  rcases List.mem_append.mp hMem with hBefore | hAfter
  · exact absurd hSlot (by simpa using hFront e' hBefore)
  · rcases List.mem_cons.mp hAfter with rfl | hBack
    · exact .inl rfl
    · exact .inr (List.rel_of_pairwise_cons (List.pairwise_append.mp h.1).2.1 hBack)

/-! ## What an operation leaves alone -/

theorem cacheSet_frame (entry : CacheEntry I D) :
    s.cacheSet entry =
      { s with cache := (s.cacheSet entry).cache, nextSlot := (s.cacheSet entry).nextSlot } := by
  unfold cacheSet
  split <;> rfl

section Fetching

variable [Inhabited I]

theorem rootFetchKey_congr {t : TraceCache I D} (hWorkspace : t.workspaceRoot = s.workspaceRoot)
    (hRoot : t.roots rootId = s.roots rootId) : t.rootFetchKey rootId = s.rootFetchKey rootId := by
  unfold rootFetchKey
  rw [hWorkspace, hRoot]

variable [DecidableEq I]

theorem fetchRoot_cases (s : TraceCache I D) (rootId : String) :
    (s.roots rootId = none ∧ s.fetchRoot rootId = (s, none)) ∨
    (∃ root, s.noWorkspaceRoot = true ∧ s.fetchRoot rootId =
      (s.recordFetchDiagnostic rootId root .error (some ⟨none, "No workspace root selected", none⟩),
        none)) ∨
    (∃ flight, s.inFlight rootId = some flight ∧ flight.key = s.rootFetchKey rootId ∧
      flight.generation = s.generation ∧ s.fetchRoot rootId = (s, some flight.token)) ∨
    (∃ root, s.roots rootId = some root ∧ s.noWorkspaceRoot = false ∧
      s.fetchRoot rootId = (s.sendFetch rootId root, some s.sent)) := by
  unfold fetchRoot
  cases hRoot : s.roots rootId with
  | none => exact .inl ⟨rfl, rfl⟩
  | some root =>
    cases hNone : s.noWorkspaceRoot with
    | true => exact .inr (.inl ⟨root, rfl, rfl⟩)
    | false =>
      refine .inr (.inr ?_)
      cases hFlight : s.inFlight rootId with
      | none => exact .inr ⟨root, rfl, rfl, rfl⟩
      | some flight =>
        by_cases hSame : flight.key = s.rootFetchKey rootId ∧ flight.generation = s.generation
        · exact .inl ⟨flight, rfl, hSame.1, hSame.2, by simp [hSame]⟩
        · exact .inr ⟨root, rfl, rfl, by simp [hSame]⟩

end Fetching

end Exosuit.Extension.TraceCache
