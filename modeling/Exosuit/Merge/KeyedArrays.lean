import Mathlib.Data.List.Count
import Mathlib.Data.List.Nodup
import Exosuit.Merge.Preserves

/-!
# The merge of arrays keyed by id

The index of an array keeps one element for an id and the order keeps every occurrence, so the
two agree as long as no side repeats an id.
-/

namespace Exosuit.Merge

/-- What is kept under an id, from what the three sides have there. -/
def chosen : (b a c : Option Value) → Option Value × Bool
  | b, some a, some c =>
    let merged := mergeValue (b.getD a) a c
    (some merged.1, merged.2)
  | some b, some a, none => if a == b then (none, false) else (some a, true)
  | some b, none, some c => if c == b then (none, false) else (some c, true)
  | none, some a, none => (some a, false)
  | none, none, some c => (some c, false)
  | _, none, none => (none, false)

def mergeArrayOfTablesById (base current other : List Value) : Option (List Value × Bool) := do
  let base ← indexArrayOfTablesById base
  let current ← indexArrayOfTablesById current
  let other ← indexArrayOfTablesById other
  let entries := (btreeSet (keysOf base.1 ++ keysOf current.1 ++ keysOf other.1)).map fun id =>
    let kept := chosen (base.1.lookup id) (current.1.lookup id) (other.1.lookup id)
    Entry.mk id kept.1 kept.2
  let keep := fun id => (entries.find? (·.name == id)).bind Entry.value
  pure (keptItems keep current other base, entries.any (·.conflicted))

/-- The merge of an id's last elements on the three sides. -/
def spotAt (base current other : List (String × Value) × List String) (id : String) : Spot :=
  ⟨.id, base.1.lookup id, current.1.lookup id, other.1.lookup id⟩

theorem chosen_eq_merge (b a c : Option Value) : chosen b a c = (Spot.mk .id b a c).merge := by
  cases b <;> cases a <;> cases c <;> rfl

section Indexed

variable {bs as cs : List Value} {base current other : List (String × Value) × List String}

theorem mergeArray_indexed (hb : indexArrayOfTablesById bs = some base)
    (ha : indexArrayOfTablesById as = some current) (hc : indexArrayOfTablesById cs = some other) :
    mergeArrayOfTablesById bs as cs =
      some (keptItems (fun id => (spotAt base current other id).merge.1) current other base,
        (btreeSet (keysOf base.1 ++ keysOf current.1 ++ keysOf other.1)).any
          fun id => (spotAt base current other id).merge.2) := by
  have hKeep : ∀ id, ((((btreeSet (keysOf base.1 ++ keysOf current.1 ++ keysOf other.1)).map fun id =>
      Entry.mk id (spotAt base current other id).merge.1 (spotAt base current other id).merge.2).find?
        (·.name == id)).bind Entry.value) = (spotAt base current other id).merge.1 := by
    intro id
    refine (find_entry _ _ _ id).trans (ite_eq_left_iff.mpr fun hId => ?_)
    rw [mem_btreeSet, List.mem_append, not_or, List.mem_append, not_or] at hId
    rw [Spot.merge_of_absent (lookup_eq_none_of_not_mem hId.1.2) (lookup_eq_none_of_not_mem hId.2)]
  rw [mergeArrayOfTablesById, hb, ha, hc]
  simp only [chosen_eq_merge]
  change some (keptItems (fun id => ((_ : List Entry).find? (·.name == id)).bind Entry.value) current other base,
    (List.map _ _).any _) = _
  rw [List.any_map]
  exact congrArg some (Prod.ext (congrArg (fun keep => keptItems keep current other base) (funext hKeep)) rfl)

theorem mergeValue_arrays (hb : indexArrayOfTablesById bs = some base)
    (ha : indexArrayOfTablesById as = some current) (hc : indexArrayOfTablesById cs = some other)
    (hSides : (Value.array as == Value.array cs) = false) (hLeft : (Value.array as == Value.array bs) = false)
    (hRight : (Value.array cs == Value.array bs) = false) :
    (mergeArrayOfTablesById bs as cs).map (fun r => (Value.array r.1, r.2)) =
      some (mergeValue (.array bs) (.array as) (.array cs)) := by
  let s : Spot := ⟨.root, some (.array bs), some (.array as), some (.array cs)⟩
  have hContested : s.Contested := ⟨nofun, nofun, hSides, hLeft, hRight⟩
  have hBelow : ∀ id, s.below (.id id) = spotAt base current other id := by
    intro id
    simp only [s, Spot.below, Spot.effectiveBase, child, Option.bind_some, Value.child, hb, ha, hc, Step.place,
      spotAt]
  have hMerge := mergeValue_array (s := s) rfl rfl rfl hb ha hc hContested
  simp only [hBelow] at hMerge
  rw [mergeArray_indexed hb ha hc, Option.map_some]
  exact congrArg some (Prod.ext (Option.some.inj (congrArg Prod.fst hMerge)).symm (congrArg Prod.snd hMerge).symm)

end Indexed

/-! ## Ids and their elements -/

def idsOf (items : List Value) : List String := items.filterMap Value.idOf

def elementsOf (id : String) (items : List Value) : List Value := items.filter fun v => v.idOf == some id

theorem elementsOf_cons (id : String) (v : Value) (rest : List Value) : elementsOf id (v :: rest) =
    if v.idOf == some id then v :: elementsOf id rest else elementsOf id rest :=
  List.filter_cons

theorem order_index {items : List Value} {index : List (String × Value) × List String}
    (h : indexArrayOfTablesById items = some index) : index.2 = idsOf items := by
  induction items generalizing index with
  | nil =>
    cases h
    rfl
  | cons v rest ih =>
    rw [index_cons] at h
    obtain ⟨id, hId, hRest⟩ := Option.bind_eq_some_iff.mp h
    obtain ⟨index', hIndex, rfl⟩ := Option.map_eq_some_iff.mp hRest
    rw [idsOf, List.filterMap_cons_some hId, ← idsOf, ← ih hIndex]

theorem lookup_index {items : List Value} {index : List (String × Value) × List String}
    (h : indexArrayOfTablesById items = some index) (id : String) :
    index.1.lookup id = (elementsOf id items).getLast? := by
  induction items generalizing index with
  | nil =>
    cases h
    rfl
  | cons v rest ih =>
    rw [index_cons] at h
    obtain ⟨id', hId, hRest⟩ := Option.bind_eq_some_iff.mp h
    obtain ⟨index', hIndex, rfl⟩ := Option.map_eq_some_iff.mp hRest
    rw [List.lookup_append, ih hIndex, List.lookup_cons, elementsOf_cons, hId]
    rcases eq_or_ne id id' with rfl | hne
    · rw [beq_self_eq_true, beq_self_eq_true, if_pos rfl, List.getLast?_cons]
      cases (elementsOf id rest).getLast? <;> rfl
    · have hFalse : (id == id') = false := by simpa using hne
      have hFalse' : (some id' == some id) = false := by simpa using Ne.symm hne
      rw [hFalse, hFalse', if_neg nofun]
      exact Option.or_none

theorem mem_idsOf_iff {id : String} {items : List Value} : id ∈ idsOf items ↔ elementsOf id items ≠ [] := by
  rw [idsOf, List.mem_filterMap, elementsOf, ne_eq, List.filter_eq_nil_iff]
  simp

theorem count_idsOf (id : String) (items : List Value) :
    (idsOf items).count id = (elementsOf id items).length := by
  induction items with
  | nil => rfl
  | cons v rest ih =>
    rw [idsOf, elementsOf, List.filterMap_cons, List.filter_cons]
    cases hId : v.idOf with
    | none => exact ih
    | some id' =>
      rcases eq_or_ne id' id with rfl | hne
      · rw [beq_self_eq_true, if_pos rfl, List.count_cons_self, List.length_cons]
        exact congrArg Nat.succ ih
      · have hFalse : (some id' == some id) = false := by simpa using hne
        rw [hFalse, if_neg nofun, List.count_cons_of_ne hne]
        exact ih

section Kept

variable {keep : String → Option Value} (hKeep : ∀ id v, keep id = some v → v.idOf = some id)
include hKeep

theorem idsOf_kept (order : List String) :
    idsOf (order.filterMap keep) = order.filter fun id => (keep id).isSome := by
  induction order with
  | nil => rfl
  | cons id order ih =>
    rw [List.filterMap_cons, List.filter_cons]
    cases hId : keep id with
    | none => exact ih
    | some v =>
      rw [Option.isSome_some, if_pos rfl, idsOf, List.filterMap_cons_some (hKeep id v hId)]
      exact congrArg _ ih

theorem elementsOf_kept {id : String} {v : Value} (hId : keep id = some v) (order : List String) :
    elementsOf id (order.filterMap keep) = List.replicate (order.count id) v := by
  induction order with
  | nil => rfl
  | cons id' order ih =>
    rcases eq_or_ne id' id with rfl | hne
    · have hHead : (v.idOf == some id') = true := by
        rw [hKeep id' v hId]
        exact beq_self_eq_true _
      rw [List.filterMap_cons_some hId, elementsOf, List.filter_cons, if_pos hHead, List.count_cons_self,
        List.replicate_succ]
      exact congrArg _ ih
    · rw [List.count_cons_of_ne hne, List.filterMap_cons]
      cases hId' : keep id' with
      | none => exact ih
      | some w =>
        have hFalse : (w.idOf == some id) = false := by
          rw [hKeep id' w hId']
          simpa using hne
        rw [elementsOf, List.filter_cons, hFalse, if_neg nofun]
        exact ih

end Kept

/-! ## The merged array -/

section Merged

variable {bs as cs : List Value} {base current other : List (String × Value) × List String}

theorem spotAt_eq (hb : indexArrayOfTablesById bs = some base) (ha : indexArrayOfTablesById as = some current)
    (hc : indexArrayOfTablesById cs = some other) (id : String) :
    spotAt base current other id = ⟨.id, (elementsOf id bs).getLast?, (elementsOf id as).getLast?,
      (elementsOf id cs).getLast?⟩ := by
  rw [spotAt, lookup_index hb, lookup_index ha, lookup_index hc]

theorem idOf_spotAt (ha : indexArrayOfTablesById as = some current)
    (hc : indexArrayOfTablesById cs = some other) (id : String) (v : Value)
    (h : (spotAt base current other id).merge.1 = some v) : v.idOf = some id :=
  idOf_kept h (fun _ hLookup => (mem_of_index ha (mem_of_lookup hLookup)).2)
    fun _ hLookup => (mem_of_index hc (mem_of_lookup hLookup)).2

/-- Whether something is kept under an id, when nothing there collides. -/
theorem Spot.isSome_merge {s : Spot} (hFlag : s.merge.2 = false) : s.merge.1.isSome ↔
    (s.current ≠ none ∧ (s.other ≠ none ∨ s.base = none)) ∨
      (s.other ≠ none ∧ s.current = none ∧ s.base = none) := by
  obtain ⟨place, b, a, c⟩ := s
  cases b <;> cases a <;> cases c <;> simp only [Spot.merge] at hFlag ⊢
  case some.some.none b a => cases hSame : a == b <;> simp [hSame] at hFlag ⊢
  case some.none.some b c => cases hSame : c == b <;> simp [hSame] at hFlag ⊢
  all_goals simp

theorem getLast?_eq_none {id : String} {items : List Value} :
    (elementsOf id items).getLast? = none ↔ id ∉ idsOf items := by
  rw [List.getLast?_eq_none_iff, mem_idsOf_iff, not_not]

theorem keptItems_order (ha : indexArrayOfTablesById as = some current) (hc : indexArrayOfTablesById cs = some other) :
    keptItems (fun id => (spotAt base current other id).merge.1) current other base =
      (idsOf as).filterMap (fun id => (spotAt base current other id).merge.1) ++
        ((idsOf cs).filter fun id => id ∉ idsOf as).filterMap
          fun id => (spotAt base current other id).merge.1 := by
  have hCurrent : ∀ id, (current.1.lookup id).isSome = decide (id ∈ idsOf as) := by
    intro id
    rw [Bool.eq_iff_iff, decide_eq_true_iff, lookup_index ha, Option.isSome_iff_ne_none, ne_eq,
      getLast?_eq_none, not_not]
  have hOther : ∀ id, (other.1.lookup id).isSome = decide (id ∈ idsOf cs) := by
    intro id
    rw [Bool.eq_iff_iff, decide_eq_true_iff, lookup_index hc, Option.isSome_iff_ne_none, ne_eq,
      getLast?_eq_none, not_not]
  have hBase : ((base.2.filter fun id => !((current.1.lookup id).isSome || (other.1.lookup id).isSome)).filterMap
      fun id => (spotAt base current other id).merge.1) = [] := by
    rw [List.filterMap_eq_nil_iff]
    intro id hId
    have hAbsent := (List.mem_filter.mp hId).2
    simp only [Bool.not_or, Bool.and_eq_true, Bool.not_eq_true', Option.isSome_eq_false_iff,
      Option.isNone_iff_eq_none] at hAbsent
    rw [Spot.merge_of_absent hAbsent.1 hAbsent.2]
  rw [keptItems, hBase, List.append_nil, order_index ha, order_index hc]
  simp only [hCurrent, decide_not]

theorem idsOf_merged (hb : indexArrayOfTablesById bs = some base)
    (ha : indexArrayOfTablesById as = some current) (hc : indexArrayOfTablesById cs = some other)
    (hFlag : ∀ id, (spotAt base current other id).merge.2 = false) :
    idsOf (keptItems (fun id => (spotAt base current other id).merge.1) current other base) =
      (idsOf as).filter (fun id => id ∈ idsOf cs ∨ id ∉ idsOf bs) ++
        (idsOf cs).filter (fun id => id ∉ idsOf as ∧ id ∉ idsOf bs) := by
  have hKeep : ∀ id v, (spotAt base current other id).merge.1 = some v → v.idOf = some id := idOf_spotAt ha hc
  have hStays : ∀ id, (spotAt base current other id).merge.1.isSome ↔
      (id ∈ idsOf as ∧ (id ∈ idsOf cs ∨ id ∉ idsOf bs)) ∨ (id ∈ idsOf cs ∧ id ∉ idsOf as ∧ id ∉ idsOf bs) := by
    intro id
    have hSpot := Spot.isSome_merge (hFlag id)
    rw [spotAt_eq hb ha hc] at hSpot ⊢
    simpa only [ne_eq, getLast?_eq_none, not_not] using hSpot
  rw [keptItems_order ha hc, idsOf, List.filterMap_append, ← idsOf, ← idsOf, idsOf_kept hKeep, idsOf_kept hKeep,
    List.filter_filter]
  congr 1
  · refine List.filter_congr fun id hId => Bool.eq_iff_iff.mpr ((hStays id).trans ?_)
    simp [hId]
  · refine List.filter_congr fun id hId => Bool.eq_iff_iff.mpr ?_
    rw [Bool.and_eq_true, hStays]
    simp [hId]
    tauto

theorem elementsOf_merged (ha : indexArrayOfTablesById as = some current) (hc : indexArrayOfTablesById cs = some other)
    {id : String} {v : Value} (hId : (spotAt base current other id).merge.1 = some v) :
    elementsOf id (keptItems (fun id => (spotAt base current other id).merge.1) current other base) =
      List.replicate (if id ∈ idsOf as then (elementsOf id as).length else (elementsOf id cs).length) v := by
  have hKeep : ∀ id v, (spotAt base current other id).merge.1 = some v → v.idOf = some id := idOf_spotAt ha hc
  rw [keptItems_order ha hc, elementsOf, List.filter_append, ← elementsOf, ← elementsOf,
    elementsOf_kept hKeep hId, elementsOf_kept hKeep hId, List.replicate_append_replicate, count_idsOf]
  congr 1
  split
  · next hMem =>
    have hNone : id ∉ (idsOf cs).filter fun id => id ∉ idsOf as := by simp [hMem]
    rw [List.count_eq_zero_of_not_mem hNone, Nat.add_zero]
  · next hMem =>
    have hEmpty : elementsOf id as = [] := not_not.mp (mem_idsOf_iff.not.mp hMem)
    rw [hEmpty, List.length_nil, Nat.zero_add, List.count_filter (by simp [hMem]), count_idsOf]

theorem elementsOf_merged_none (ha : indexArrayOfTablesById as = some current)
    (hc : indexArrayOfTablesById cs = some other) {id : String}
    (hId : (spotAt base current other id).merge.1 = none) :
    elementsOf id (keptItems (fun id => (spotAt base current other id).merge.1) current other base) = [] := by
  refine List.filter_eq_nil_iff.mpr fun v hMem hIdOf => ?_
  obtain ⟨id', hKept⟩ := mem_keptItems hMem
  cases (idOf_spotAt ha hc id' v hKept).symm.trans (beq_iff_eq.mp hIdOf)
  cases hId.symm.trans hKept

end Merged

/-! ## Repeated ids -/

/-- The merge of the elements that stand last under an id. -/
def lastSpot (bs as cs : List Value) (id : String) : Spot :=
  ⟨.id, (elementsOf id bs).getLast?, (elementsOf id as).getLast?, (elementsOf id cs).getLast?⟩

/-- What a merge without conflicts owes to three arrays. -/
structure KeepsElements (bs as cs out : List Value) : Prop where
  distinct : (idsOf bs).Nodup → (idsOf as).Nodup → (idsOf cs).Nodup → (idsOf out).Nodup
  survives : ∀ id, (id ∈ idsOf as ∧ ¬ (id ∈ idsOf bs ∧ id ∉ idsOf cs)) ∨
    (id ∈ idsOf cs ∧ ¬ (id ∈ idsOf bs ∧ id ∉ idsOf as)) → id ∈ idsOf out
  additions : ∀ v id, v.idOf = some id → id ∉ idsOf bs →
    (v ∈ as ∧ id ∉ idsOf cs) ∨ (v ∈ cs ∧ id ∉ idsOf as) → v ∈ out
  ordered : idsOf out = (idsOf as).filter (fun id => id ∈ idsOf cs ∨ id ∉ idsOf bs) ++
    (idsOf cs).filter (fun id => id ∉ idsOf as ∧ id ∉ idsOf bs)
  twiceInCurrent : ∀ id, 2 ≤ (idsOf as).count id → elementsOf id out = elementsOf id as
  twiceInOther : ∀ id, 2 ≤ (idsOf cs).count id → elementsOf id out = elementsOf id cs
  twiceInBase : ∀ id, 2 ≤ (idsOf bs).count id → elementsOf id as = elementsOf id bs →
    elementsOf id cs = elementsOf id bs → elementsOf id out = elementsOf id bs

/-- The element that stays under an id where nothing collides. -/
def Stays : (b a c : Option Value) → Value → Prop
  | b, some a, some c, v => (mergeValue (b.getD a) a c).1 = v
  | b, some a, none, v => a = v ∧ b = none
  | b, none, some c, v => c = v ∧ b = none
  | _, none, none, _ => False

theorem stays_iff {s : Spot} (hPlace : s.place = .id) (hFlag : s.merge.2 = false) (v : Value) :
    Stays s.base s.current s.other v ↔ s.merge.1 = some v := by
  obtain ⟨place, b, a, c⟩ := s
  cases hPlace
  cases b <;> cases a <;> cases c <;> simp only [Spot.merge, Stays] at hFlag ⊢
  case some.some.none b a => cases hSame : a == b <;> simp [hSame] at hFlag ⊢
  case some.none.some b c => cases hSame : c == b <;> simp [hSame] at hFlag ⊢
  all_goals simp [Spot.effectiveBase]

/-- Every id that a side repeats holds copies of one element there, which stays, and as many as the
current side has. -/
def RepeatsStay (bs as cs : List Value) : Prop :=
  ∀ id, (2 ≤ (idsOf as).count id → ∃ v, elementsOf id as = List.replicate ((idsOf as).count id) v ∧
      Stays (lastSpot bs as cs id).base (lastSpot bs as cs id).current (lastSpot bs as cs id).other v) ∧
    (2 ≤ (idsOf cs).count id → ∃ v, elementsOf id cs = List.replicate ((idsOf cs).count id) v ∧
      Stays (lastSpot bs as cs id).base (lastSpot bs as cs id).current (lastSpot bs as cs id).other v ∧
      (id ∈ idsOf as → (idsOf as).count id = (idsOf cs).count id))

theorem mem_of_elementsOf {id : String} {v : Value} {items : List Value} (h : v ∈ elementsOf id items) :
    v ∈ items :=
  (List.mem_filter.mp h).1

theorem elementsOf_once {id : String} {v : Value} {items : List Value} (hMem : v ∈ items)
    (hId : v.idOf = some id) (hOnce : (idsOf items).count id < 2) : elementsOf id items = [v] := by
  have hElement : v ∈ elementsOf id items := List.mem_filter.mpr ⟨hMem, beq_iff_eq.mpr hId⟩
  rw [count_idsOf] at hOnce
  have hPos := List.length_pos_of_mem hElement
  obtain ⟨w, hw⟩ := List.length_eq_one_iff.mp (show (elementsOf id items).length = 1 by omega)
  rw [hw] at hElement ⊢
  rw [List.mem_singleton.mp hElement]

theorem replicate_eq {v : Value} {n : Nat} {items : List Value} (h : List.replicate n v = items) :
    n = items.length := by
  rw [← h, List.length_replicate]

section Runs

variable {bs as cs : List Value} {base current other : List (String × Value) × List String}

theorem keepsElements_iff (hb : indexArrayOfTablesById bs = some base)
    (ha : indexArrayOfTablesById as = some current) (hc : indexArrayOfTablesById cs = some other)
    (hFlag : ∀ id, (spotAt base current other id).merge.2 = false) :
    KeepsElements bs as cs (keptItems (fun id => (spotAt base current other id).merge.1) current other base) ↔
      RepeatsStay bs as cs := by
  have hStays : ∀ id v, Stays (lastSpot bs as cs id).base (lastSpot bs as cs id).current
      (lastSpot bs as cs id).other v ↔ (spotAt base current other id).merge.1 = some v := by
    intro id v
    have hSpot := spotAt_eq hb ha hc id
    have hFlagHere := hFlag id
    rw [hSpot] at hFlagHere ⊢
    exact stays_iff rfl hFlagHere v
  have hOrdered := idsOf_merged hb ha hc hFlag
  -- what the array has under an id, from what is kept there
  have hKept : ∀ id, 1 ≤ (elementsOf id (keptItems
      (fun id => (spotAt base current other id).merge.1) current other base)).length →
      ∃ v, (spotAt base current other id).merge.1 = some v := by
    intro id hLength
    rw [← Option.isSome_iff_exists, Option.isSome_iff_ne_none]
    intro hNone
    rw [elementsOf_merged_none ha hc hNone] at hLength
    exact absurd hLength (by decide)
  constructor
  · intro h id
    constructor
    · intro hTwice
      have hSame := h.twiceInCurrent id hTwice
      rw [count_idsOf] at hTwice
      obtain ⟨v, hv⟩ := hKept id (by rw [hSame]; omega)
      have hMem : id ∈ idsOf as := mem_idsOf_iff.mpr (List.ne_nil_of_length_pos (by omega))
      rw [elementsOf_merged ha hc hv, if_pos hMem] at hSame
      exact ⟨v, by rw [count_idsOf, hSame], (hStays id v).mpr hv⟩
    · intro hTwice
      have hSame := h.twiceInOther id hTwice
      rw [count_idsOf] at hTwice
      obtain ⟨v, hv⟩ := hKept id (by rw [hSame]; omega)
      rw [elementsOf_merged ha hc hv] at hSame
      have hLength := replicate_eq hSame
      refine ⟨v, ?_, (hStays id v).mpr hv, fun hMem => ?_⟩
      · rw [count_idsOf, ← hLength, hSame]
      · rw [count_idsOf, count_idsOf, ← hLength, if_pos hMem]
  · intro h
    have hCurrent : ∀ id, 2 ≤ (idsOf as).count id → elementsOf id (keptItems
        (fun id => (spotAt base current other id).merge.1) current other base) = elementsOf id as := by
      intro id hTwice
      obtain ⟨v, hSame, hv⟩ := (h id).1 hTwice
      have hMem : id ∈ idsOf as := List.count_pos_iff.mp (by omega)
      rw [elementsOf_merged ha hc ((hStays id v).mp hv), if_pos hMem, ← count_idsOf, ← hSame]
    have hOther : ∀ id, 2 ≤ (idsOf cs).count id → elementsOf id (keptItems
        (fun id => (spotAt base current other id).merge.1) current other base) = elementsOf id cs := by
      intro id hTwice
      obtain ⟨v, hSame, hv, hCount⟩ := (h id).2 hTwice
      rw [elementsOf_merged ha hc ((hStays id v).mp hv), ← count_idsOf, ← count_idsOf, hSame]
      split
      · next hMem => rw [hCount hMem]
      · rfl
    have hAdded : ∀ v id, v.idOf = some id → id ∉ idsOf bs → (v ∈ as ∧ id ∉ idsOf cs) ∨
        (v ∈ cs ∧ id ∉ idsOf as) → v ∈ keptItems
          (fun id => (spotAt base current other id).merge.1) current other base := by
      intro v id hId hBase hSide
      have hSpot := spotAt_eq hb ha hc id
      apply mem_of_elementsOf
      change v ∈ elementsOf id _
      rcases hSide with ⟨hMem, hAbsent⟩ | ⟨hMem, hAbsent⟩
      · rcases Nat.lt_or_ge ((idsOf as).count id) 2 with hOnce | hTwice
        · have hElements := elementsOf_once hMem hId hOnce
          rw [getLast?_eq_none.mpr hBase, getLast?_eq_none.mpr hAbsent, hElements] at hSpot
          have hMerge : (spotAt base current other id).merge.1 = some v := by
            rw [hSpot]
            rfl
          have hIn : id ∈ idsOf as := List.mem_filterMap.mpr ⟨v, hMem, hId⟩
          rw [elementsOf_merged ha hc hMerge, if_pos hIn, hElements]
          exact List.mem_singleton_self v
        · rw [hCurrent id hTwice]
          exact List.mem_filter.mpr ⟨hMem, beq_iff_eq.mpr hId⟩
      · rcases Nat.lt_or_ge ((idsOf cs).count id) 2 with hOnce | hTwice
        · have hElements := elementsOf_once hMem hId hOnce
          rw [getLast?_eq_none.mpr hBase, getLast?_eq_none.mpr hAbsent, hElements] at hSpot
          have hMerge : (spotAt base current other id).merge.1 = some v := by
            rw [hSpot]
            rfl
          rw [elementsOf_merged ha hc hMerge, if_neg hAbsent, hElements]
          exact List.mem_singleton_self v
        · rw [hOther id hTwice]
          exact List.mem_filter.mpr ⟨hMem, beq_iff_eq.mpr hId⟩
    refine ⟨?_, ?_, hAdded, hOrdered, hCurrent, hOther, fun id hTwice hSame _ => ?_⟩
    · intro _ hNodup hNodup'
      rw [hOrdered]
      refine (hNodup.filter _).append (hNodup'.filter _) fun id hMem hMem' => ?_
      have hNot := (List.mem_filter.mp hMem').2
      rw [decide_eq_true_iff] at hNot
      exact hNot.1 (List.mem_filter.mp hMem).1
    · intro id hId
      rw [hOrdered, List.mem_append, List.mem_filter, List.mem_filter, decide_eq_true_iff, decide_eq_true_iff]
      tauto
    · refine (hCurrent id ?_).trans hSame
      rwa [count_idsOf, hSame, ← count_idsOf]

end Runs

theorem any_flag_iff (base current other : List (String × Value) × List String) :
    ((btreeSet (keysOf base.1 ++ keysOf current.1 ++ keysOf other.1)).any
      fun id => (spotAt base current other id).merge.2) = true ↔
      ∃ id, (spotAt base current other id).merge.2 = true := by
  rw [List.any_eq_true]
  constructor
  · rintro ⟨id, -, hFlag⟩
    exact ⟨id, hFlag⟩
  · rintro ⟨id, hFlag⟩
    refine ⟨id, ?_, hFlag⟩
    by_contra hId
    rw [mem_btreeSet, List.mem_append, not_or, List.mem_append, not_or] at hId
    rw [Spot.merge_of_absent (lookup_eq_none_of_not_mem hId.1.2) (lookup_eq_none_of_not_mem hId.2)] at hFlag
    cases hFlag

/-- A merge that reports no conflict keeps every element of three arrays keyed by id exactly when two
elements collide, or every repeated id stays as it is. -/
theorem mergeArray_keeps_iff (bs as cs : List Value) :
    (∀ out, mergeArrayOfTablesById bs as cs = some (out, false) → KeepsElements bs as cs out) ↔
      ((indexArrayOfTablesById bs).isSome → (indexArrayOfTablesById as).isSome →
        (indexArrayOfTablesById cs).isSome →
        (∃ id s, (lastSpot bs as cs id).Visits s ∧ s.Collides) ∨ RepeatsStay bs as cs) := by
  cases hb : indexArrayOfTablesById bs with
  | none => exact ⟨fun _ => nofun, fun _ out hMerge => by simp [mergeArrayOfTablesById, hb] at hMerge⟩
  | some base =>
    cases ha : indexArrayOfTablesById as with
    | none => exact ⟨fun _ _ => nofun, fun _ out hMerge => by simp [mergeArrayOfTablesById, ha, hb] at hMerge⟩
    | some current =>
      cases hc : indexArrayOfTablesById cs with
      | none =>
        exact ⟨fun _ _ _ => nofun, fun _ out hMerge => by simp [mergeArrayOfTablesById, ha, hb, hc] at hMerge⟩
      | some other =>
        have hCollides : (∃ id s, (lastSpot bs as cs id).Visits s ∧ s.Collides) ↔
            ∃ id, (spotAt base current other id).merge.2 = true := by
          refine exists_congr fun id => ?_
          rw [spotAt_eq hb ha hc, Spot.conflicted_iff]
          rfl
        rw [mergeArray_indexed hb ha hc, hCollides, ← any_flag_iff]
        simp only [Option.isSome_some, forall_const]
        cases hFlag : (btreeSet (keysOf base.1 ++ keysOf current.1 ++ keysOf other.1)).any
            fun id => (spotAt base current other id).merge.2 with
        | true => exact ⟨fun _ => .inl rfl, fun _ out hMerge => nomatch hMerge⟩
        | false =>
          have hFlags : ∀ id, (spotAt base current other id).merge.2 = false := by
            intro id
            rw [← Bool.not_eq_true]
            intro hHere
            have hAny := (any_flag_iff base current other).mpr ⟨id, hHere⟩
            rw [hFlag] at hAny
            cases hAny
          rw [← keepsElements_iff hb ha hc hFlags]
          constructor
          · exact fun h => .inr (h _ rfl)
          · rintro (hNever | hKeeps) out hMerge
            · cases hNever
            · cases hMerge
              exact hKeeps

/-! ## An id that stands twice -/

def twoIdeas : List Value := [idea 1, idea 2]

theorem merge_drops_repeated :
    mergeArrayOfTablesById [] twoIdeas [otherIdea] = some ([idea 2, idea 2, otherIdea], false) ∧
      ¬ KeepsElements [] twoIdeas [otherIdea] [idea 2, idea 2, otherIdea] := by
  constructor
  · rfl
  · intro h
    have hSame := h.twiceInCurrent "idea-1" (by decide)
    have hFirst := congrArg List.head? hSame
    cases hFirst

end Exosuit.Merge
