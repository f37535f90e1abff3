import Exosuit.Lib.Ordering
import Exosuit.Workbench.Launch

/-!
# Evictions

An eviction sorts the registrations and keeps as many as fit. Those it must not touch come first
in the order, and the room is never less than their number.
-/

namespace Exosuit.Workbench

open Lib (Table)
open WorkbenchHostInner

/-- The workspaces that an eviction passes over. -/
def Held (state : WorkbenchState) (currentWorkspaceKey : String) (now : Nat) (key : String) : Prop :=
  key = currentWorkspaceKey ∨
    (∃ c p, state.pendingCapabilities.lookup c = some p ∧
      pendingCapabilityIssuanceCurrent state p now = true ∧ p.workspaceKey = key) ∨
    (∃ id s, state.sessions.lookup id = some s ∧ s.isLive now = true ∧ s.workspaceKey = key) ∨
    (∃ id g, state.sessionGrants.lookup id = some g ∧ g.isLive now = true ∧ g.workspaceKey = key) ∨
    ∃ id p, state.pairingGrants.lookup id = some p ∧ p.isLive now = true ∧ p.workspaceKey = key

/-- The state that a section hands to the eviction. -/
structure Eviction where
  state : WorkbenchState
  currentWorkspaceKey : String
  now : Nat

def Eviction.after (e : Eviction) : WorkbenchState :=
  (retainProjectWorkspaceLimit e.state e.currentWorkspaceKey e.now).1

structure Eviction.Sound (e : Eviction) : Prop where
  keeps : ∀ key ∈ e.state.workspacesByKey, Held e.state e.currentWorkspaceKey e.now key →
    key ∈ e.after.workspacesByKey
  limit : e.after.workspacesByKey.size ≤ MAX_PROJECT_WORKSPACES ∨
    ∀ key ∈ e.after.workspacesByKey, Held e.state e.currentWorkspaceKey e.now key

def holders (state : WorkbenchState) (currentWorkspaceKey : String) (now : Nat) : List String :=
  currentWorkspaceKey ::
    ((state.pendingCapabilities.values.filter fun p =>
        pendingCapabilityIssuanceCurrent state p now).map (·.workspaceKey) ++
      (state.sessions.values.filter fun s => s.isLive now).map (·.workspaceKey) ++
      (state.sessionGrants.values.filter fun s => s.isLive now).map (·.workspaceKey) ++
      (state.pairingGrants.values.filter fun p => p.isLive now).map (·.workspaceKey))

theorem mem_map_filter_values {α : Type} {t : Table String α} {p : α → Bool} {f : α → String}
    {key : String} : key ∈ (t.values.filter p).map f ↔
      ∃ k a, t.lookup k = some a ∧ p a = true ∧ f a = key := by
  rw [List.mem_map]
  constructor
  · rintro ⟨a, ha, hKey⟩
    obtain ⟨hMem, hp⟩ := List.mem_filter.mp ha
    obtain ⟨k, hk⟩ := Table.mem_values.mp hMem
    exact ⟨k, a, hk, hp, hKey⟩
  · rintro ⟨k, a, hk, hp, hKey⟩
    exact ⟨a, List.mem_filter.mpr ⟨Table.mem_values.mpr ⟨k, hk⟩, hp⟩, hKey⟩

theorem mem_holders {state : WorkbenchState} {current key : String} {now : Nat} :
    key ∈ holders state current now ↔ Held state current now key := by
  unfold holders Held
  rw [List.mem_cons, List.mem_append, List.mem_append, List.mem_append, mem_map_filter_values,
    mem_map_filter_values, mem_map_filter_values, mem_map_filter_values, or_assoc, or_assoc]

section Order

variable (isProtected : List String) (currentWorkspaceKey : String)

def registrationOrder (left right : WorkspaceRegistration) : Ordering :=
  (((((compare (right.key == currentWorkspaceKey) (left.key == currentWorkspaceKey)).then
    (compare (decide (right.key ∈ isProtected)) (decide (left.key ∈ isProtected)))).then
    (compare right.observedAt left.observedAt)).then
    (compare right.registeredAt left.registeredAt)).then
    (compare left.key right.key))

theorem registrationOrder_transCmp :
    Std.TransCmp (registrationOrder isProtected currentWorkspaceKey) := by
  have hLarger : ∀ f : WorkspaceRegistration → Bool,
      Std.TransCmp fun left right => compare (f right) (f left) := fun f =>
    inferInstanceAs (Std.TransCmp fun left right => compareOn f right left)
  have hCurrent := hLarger fun w => w.key == currentWorkspaceKey
  have hProtected := hLarger fun w => decide (w.key ∈ isProtected)
  have hObserved : Std.TransCmp fun left right : WorkspaceRegistration =>
      compare right.observedAt left.observedAt :=
    inferInstanceAs (Std.TransCmp fun left right =>
      compareOn WorkspaceRegistration.observedAt right left)
  have hRegistered : Std.TransCmp fun left right : WorkspaceRegistration =>
      compare right.registeredAt left.registeredAt :=
    inferInstanceAs (Std.TransCmp fun left right =>
      compareOn WorkspaceRegistration.registeredAt right left)
  have hKey : Std.TransCmp fun left right : WorkspaceRegistration =>
      compare left.key right.key :=
    inferInstanceAs (Std.TransCmp (compareOn WorkspaceRegistration.key))
  exact inferInstanceAs (Std.TransCmp
    (compareLex (compareLex (compareLex (compareLex _ _) _) _) _))

theorem pairwise_registrations (l : List WorkspaceRegistration) :
    (l.mergeSort fun left right =>
      (registrationOrder isProtected currentWorkspaceKey left right).isLE).Pairwise
        fun left right => (registrationOrder isProtected currentWorkspaceKey left right).isLE := by
  have := registrationOrder_transCmp isProtected currentWorkspaceKey
  refine List.pairwise_mergeSort (fun a b c => Std.TransCmp.isLE_trans) (fun a b => ?_) l
  have hSwap : registrationOrder isProtected currentWorkspaceKey b a =
      (registrationOrder isProtected currentWorkspaceKey a b).swap := Std.OrientedCmp.eq_swap
  rw [Bool.or_eq_true, hSwap]
  cases registrationOrder isProtected currentWorkspaceKey a b <;> simp

theorem protected_of_before {left right : WorkspaceRegistration}
    (hCurrent : left.key = currentWorkspaceKey → left.key ∈ isProtected)
    (hBefore : (registrationOrder isProtected currentWorkspaceKey left right).isLE = true)
    (hRight : right.key ∈ isProtected) : left.key ∈ isProtected := by
  by_contra hLeft
  have hOther : (left.key == currentWorkspaceKey) = false := by
    rw [beq_eq_false_iff_ne]
    exact fun hEq => hLeft (hCurrent hEq)
  unfold registrationOrder at hBefore
  rw [hOther, decide_eq_true hRight, decide_eq_false hLeft] at hBefore
  cases hKey : right.key == currentWorkspaceKey <;> rw [hKey] at hBefore <;> cases hBefore

end Order

theorem retainProjectWorkspaceLimit_cases {state : WorkbenchState}
    (hKeyed : state.workspacesByKey.All fun key w => w.key = key) (current : String) (now : Nat) :
    (state.workspacesByKey.size ≤ MAX_PROJECT_WORKSPACES ∧
      retainProjectWorkspaceLimit state current now = (state, [])) ∨
    ∃ retained : List String,
      retainProjectWorkspaceLimit state current now =
        (retainKeys state fun key => decide (key ∈ retained),
          state.workspacesByKey.keys.filter fun key => decide (key ∉ retained)) ∧
      (∀ key ∈ state.workspacesByKey, Held state current now key → key ∈ retained) ∧
      (retained.length ≤ MAX_PROJECT_WORKSPACES ∨ ∀ key ∈ retained, Held state current now key) := by
  by_cases hSize : state.workspacesByKey.size ≤ MAX_PROJECT_WORKSPACES
  · exact .inl ⟨hSize, by unfold retainProjectWorkspaceLimit; rw [if_pos hSize]⟩
  right
  let isProtected := state.workspacesByKey.keys.filter fun key => decide (key ∈ holders state current now)
  let registrations := state.workspacesByKey.values.mergeSort fun left right =>
    (registrationOrder isProtected current left right).isLE
  let room := max MAX_PROJECT_WORKSPACES isProtected.length
  have hProtected : ∀ key, key ∈ isProtected ↔ key ∈ state.workspacesByKey ∧ Held state current now key := by
    intro key
    rw [List.mem_filter, decide_eq_true_eq, mem_holders]
    rfl
  have hValues : ∀ w ∈ registrations, w.key ∈ state.workspacesByKey := by
    intro w hw
    obtain ⟨key, hKey⟩ := Table.mem_values.mp (List.mem_mergeSort.mp hw)
    rw [hKeyed key w hKey]
    exact AList.lookup_isSome.mp (hKey ▸ rfl)
  have hFirst : registrations.Pairwise fun left right =>
      decide (right.key ∈ isProtected) = true → decide (left.key ∈ isProtected) = true := by
    refine (pairwise_registrations isProtected current _).imp_of_mem fun hLeft _ hBefore hRight => ?_
    rw [decide_eq_true_eq] at hRight ⊢
    exact protected_of_before isProtected current
      (fun hCurrent => (hProtected _).mpr ⟨hValues _ hLeft, .inl hCurrent⟩) hBefore hRight
  have hCount : registrations.countP (fun w => decide (w.key ∈ isProtected)) = isProtected.length := by
    have hKeys : state.workspacesByKey.values.map (·.key) = state.workspacesByKey.keys :=
      Table.map_values fun e he => hKeyed e.1 e.2 (Table.lookup_eq_some.mpr he)
    rw [(List.mergeSort_perm _ _).countP_eq, ← List.countP_eq_length_filter, ← hKeys, List.countP_map]
    refine List.countP_congr fun w hw => ?_
    obtain ⟨key, hKey⟩ := Table.mem_values.mp hw
    rw [decide_eq_true_eq, hProtected, Function.comp_apply, decide_eq_true_eq, mem_holders,
      and_iff_right (hValues w (List.mem_mergeSort.mpr hw))]
  refine ⟨(registrations.take room).map (·.key), ?_, ?_, ?_⟩
  · unfold retainProjectWorkspaceLimit
    rw [if_neg hSize]
    rfl
  · intro key hMem hHeld
    obtain ⟨w, hw⟩ := Option.isSome_iff_exists.mp (AList.lookup_isSome.mpr hMem)
    obtain rfl := hKeyed key w hw
    refine List.mem_map.mpr ⟨w, ?_, rfl⟩
    exact Lib.mem_take_of_first hFirst (hCount.trans_le (le_max_right _ _))
      (List.mem_mergeSort.mpr (Table.mem_values.mpr ⟨_, hw⟩))
      (decide_eq_true ((hProtected _).mpr ⟨hMem, hHeld⟩))
  · rcases le_total isProtected.length MAX_PROJECT_WORKSPACES with hFew | hMany
    · left
      rw [List.length_map, List.length_take]
      exact le_trans (min_le_left _ _) (max_le (le_refl _) hFew)
    · right
      intro key hKey
      obtain ⟨w, hw, rfl⟩ := List.mem_map.mp hKey
      have hRoom : room ≤ registrations.countP fun w => decide (w.key ∈ isProtected) :=
        hCount ▸ max_le hMany (le_refl _)
      exact ((hProtected _).mp (of_decide_eq_true
        (Lib.forall_mem_take_of_first hFirst hRoom hw))).2

theorem Eviction.sound {e : Eviction} (hKeyed : e.state.workspacesByKey.All fun key w => w.key = key) :
    e.Sound := by
  obtain ⟨hFew, hSame⟩ | ⟨retained, hRetain, hHeld, hLimit⟩ :=
    retainProjectWorkspaceLimit_cases hKeyed e.currentWorkspaceKey e.now
  · constructor
    · intro key hMem _
      rwa [Eviction.after, hSame]
    · left
      rwa [Eviction.after, hSame]
  · have hKeys : ∀ key, key ∈ e.after.workspacesByKey ↔
        key ∈ e.state.workspacesByKey ∧ key ∈ retained := by
      intro key
      rw [Eviction.after, hRetain, ← decide_eq_true_eq (p := key ∈ retained)]
      exact Table.mem_retain_key
    constructor
    · intro key hMem hKey
      exact (hKeys key).mpr ⟨hMem, hHeld key hMem hKey⟩
    · refine hLimit.imp (fun hLength => ?_) fun hAll key hKey => hAll key ((hKeys key).mp hKey).2
      refine le_trans ?_ hLength
      have hSub := List.subperm_of_subset e.after.workspacesByKey.nodupKeys
        fun key hKey => ((hKeys key).mp hKey).2
      exact (List.length_map _).symm.trans_le hSub.length_le

end Exosuit.Workbench
