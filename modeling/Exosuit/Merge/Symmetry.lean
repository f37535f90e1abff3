import Exosuit.Merge.KeyedArrays

/-!
# The two sides of a merge

With the sides swapped the merge meets the swapped spots, up to the first one that both sides add
under an id: there the driver takes the other side.
-/

namespace Exosuit.Merge

/-! ## Values without repetitions -/

mutual

/-- No table repeats a key, and no array keyed by id repeats an id. -/
def Value.tidy : Value → Bool
  | .array items =>
    ((indexArrayOfTablesById items).isNone || decide (idsOf items).Nodup) && tidyItems items
  | .table entries => decide (keysOf entries).Nodup && tidyEntries entries
  | _ => true

def tidyItems : List Value → Bool
  | [] => true
  | v :: items => v.tidy && tidyItems items

def tidyEntries : List (String × Value) → Bool
  | [] => true
  | (_, v) :: entries => v.tidy && tidyEntries entries

end

def Tidy (v : Option Value) : Prop := ∀ w, v = some w → w.tidy = true

theorem tidyItems_mem {items : List Value} (h : tidyItems items = true) {v : Value} (hMem : v ∈ items) :
    v.tidy = true := by
  induction items with
  | nil => cases hMem
  | cons x items ih =>
    rw [tidyItems, Bool.and_eq_true] at h
    rcases List.mem_cons.mp hMem with rfl | hRest
    · exact h.1
    · exact ih h.2 hRest

theorem tidyEntries_mem {entries : List (String × Value)} (h : tidyEntries entries = true) {key : String}
    {v : Value} (hMem : (key, v) ∈ entries) : v.tidy = true := by
  induction entries with
  | nil => cases hMem
  | cons entry entries ih =>
    obtain ⟨k, x⟩ := entry
    rw [tidyEntries, Bool.and_eq_true] at h
    rcases List.mem_cons.mp hMem with hHead | hRest
    · cases hHead
      exact h.1
    · exact ih h.2 hRest

theorem Tidy.child {v : Option Value} (h : Tidy v) (step : Step) : Tidy (child v step) := by
  intro w hw
  obtain ⟨u, rfl, hChild⟩ := Option.bind_eq_some_iff.mp hw
  have hTidy := h u rfl
  unfold Value.child at hChild
  split at hChild
  · rw [Value.tidy, Bool.and_eq_true] at hTidy
    exact tidyEntries_mem hTidy.2 (mem_of_lookup hChild)
  · obtain ⟨index, hIndex, hLookup⟩ := Option.bind_eq_some_iff.mp hChild
    rw [Value.tidy, Bool.and_eq_true] at hTidy
    exact tidyItems_mem hTidy.2 (mem_of_index hIndex (mem_of_lookup hLookup)).1
  · cases hChild

/-! ## Agreement -/

def namesOf : Option Value → List String
  | some (.table entries) => keysOf entries
  | some (.array items) => idsOf items
  | _ => []

structure AgreeAt (u v : Option Value) : Prop where
  shape : shapeOf u = shapeOf v
  leaf : shapeOf u = .leaf → Has u v
  names : shapeOf u ≠ .leaf → (namesOf u).Perm (namesOf v)

/-- Equality up to the order of the elements of arrays keyed by id. -/
def Agree (u v : Option Value) : Prop := ∀ path, AgreeAt (follow u path) (follow v path)

variable {u v : Option Value}

theorem agree_iff : Agree u v ↔ AgreeAt u v ∧ ∀ step, Agree (child u step) (child v step) := by
  constructor
  · intro h
    exact ⟨h [], fun step path => h (step :: path)⟩
  · rintro ⟨hHere, hBelow⟩ path
    cases path with
    | nil => exact hHere
    | cons step path => exact hBelow step path

theorem AgreeAt.symm (h : AgreeAt u v) : AgreeAt v u where
  shape := h.shape.symm
  leaf hLeaf := (h.leaf (h.shape.trans hLeaf)).imp Eq.symm same_symm
  names hShape := (h.names fun hLeaf => hShape (h.shape.symm.trans hLeaf)).symm

theorem Agree.symm (h : Agree u v) : Agree v u := fun path => (h path).symm

theorem Agree.refl (u : Option Value) : Agree u u :=
  fun _ => ⟨rfl, fun _ => .refl _, fun _ => .refl _⟩

theorem keysOf_eqEntries {xs ys : List (String × Value)} (h : eqEntries xs ys = true) :
    keysOf xs = keysOf ys := by
  induction xs generalizing ys with
  | nil => cases ys <;> first | rfl | cases h
  | cons entry xs ih =>
    cases ys with
    | nil => cases h
    | cons entry' ys =>
      simp only [eqEntries, Bool.and_eq_true, beq_iff_eq] at h
      exact congrArg₂ List.cons h.1.1 (ih h.2)

theorem idsOf_eqItems {xs ys : List Value} (h : eqItems xs ys = true) : idsOf xs = idsOf ys := by
  induction xs generalizing ys with
  | nil => cases ys <;> first | rfl | cases h
  | cons x xs ih =>
    cases ys with
    | nil => cases h
    | cons y ys =>
      rw [eqItems, Bool.and_eq_true] at h
      have hRest := ih h.2
      rw [idsOf, idsOf] at hRest ⊢
      rw [List.filterMap_cons, List.filterMap_cons, idOf_eq h.1, hRest]

theorem namesOf_same (h : same u v = true) : namesOf u = namesOf v := by
  cases u <;> cases v
  case some.some x y =>
    change x.eq y = true at h
    cases x <;> cases y <;> simp only [Value.eq, Bool.false_eq_true] at h
    case array.array => exact idsOf_eqItems h
    case table.table => exact keysOf_eqEntries h
    all_goals rfl
  all_goals first | rfl | cases h

theorem agree_of_same (h : same u v = true) : Agree u v := by
  intro path
  have hHere := same_follow h path
  exact ⟨shapeOf_eq_of_same hHere, fun _ => .inr hHere, fun _ => by rw [namesOf_same hHere]⟩

theorem same_comm (u v : Option Value) : same u v = same v u :=
  Bool.eq_iff_iff.mpr ⟨same_symm, same_symm⟩

/-! ## Swapped spots -/

namespace Spot

def swap (s : Spot) : Spot := ⟨s.place, s.base, s.other, s.current⟩

/-- Both sides add the spot under an id. -/
structure Joint (s : Spot) : Prop where
  place : s.place = .id
  base : s.base = none
  current : s.current ≠ none
  other : s.other ≠ none

/-- The spots that the merge looks at up to a joint one. -/
inductive Reaches : Spot → Spot → Prop
  | here (s : Spot) : Reaches s s
  | descend {s s' : Spot} {step : Step} (h : s.Descends) (hJoint : ¬ s.Joint)
      (hReaches : Reaches (s.below step) s') : Reaches s s'

variable {s s' : Spot}

theorem Joint.swap (h : s.Joint) : s.swap.Joint := ⟨h.place, h.base, h.other, h.current⟩

theorem swap_effectiveBase (hCurrent : s.current ≠ none) (hOther : s.other ≠ none) (hJoint : ¬ s.Joint) :
    s.swap.effectiveBase = s.effectiveBase := by
  by_cases hBase : s.base = none
  · have hPlace : s.place ≠ .id := fun hPlace => hJoint ⟨hPlace, hBase, hCurrent, hOther⟩
    rw [effectiveBase_of_key hBase hPlace, effectiveBase_of_key (s := s.swap) hBase hPlace]
  · rw [effectiveBase_of_base hBase, effectiveBase_of_base (s := s.swap) hBase]
    rfl

theorem Contested.swap (h : s.Contested) (hJoint : ¬ s.Joint) : s.swap.Contested := by
  have hBase := swap_effectiveBase h.current h.other hJoint
  refine ⟨h.other, h.current, ?_, ?_, ?_⟩
  · exact (same_comm _ _).trans h.sides
  · rw [hBase]
    exact h.right
  · rw [hBase]
    exact h.left

theorem Descends.swap (h : s.Descends) (hJoint : ¬ s.Joint) : s.swap.Descends where
  toContested := h.toContested.swap hJoint
  container hLeaf := h.container (h.sameOther.symm.trans hLeaf)
  sameOther := h.sameOther.symm
  sameBase := by
    rw [swap_effectiveBase h.current h.other hJoint]
    exact h.sameBase.trans h.sameOther.symm

theorem swap_below (h : s.Descends) (hJoint : ¬ s.Joint) (step : Step) :
    s.swap.below step = (s.below step).swap := by
  rw [below, swap_effectiveBase h.current h.other hJoint]
  rfl

theorem Collides.swap (h : s.Collides) (hJoint : ¬ s.Joint) : s.swap.Collides := by
  rcases h with ⟨hContested, hNot⟩ | ⟨hBase, hCurrent, hOther, hSame⟩ | ⟨hBase, hCurrent, hOther, hSame⟩
  · exact .inl ⟨hContested.swap hJoint, fun hDescends => hNot (hDescends.swap fun h => hJoint h.swap)⟩
  · exact .inr (.inr ⟨hBase, hOther, hCurrent, hSame⟩)
  · exact .inr (.inl ⟨hBase, hOther, hCurrent, hSame⟩)

theorem Reaches.swap (h : s.Reaches s') : s.swap.Reaches s'.swap := by
  induction h with
  | here s => exact .here s.swap
  | @descend s s' step h hJoint _ ih =>
    rw [← swap_below h hJoint step] at ih
    exact .descend (h.swap hJoint) (fun hSwap => hJoint hSwap.swap) ih

theorem reaches_iff : s.Reaches s' ↔
    s' = s ∨ s.Descends ∧ ¬ s.Joint ∧ ∃ step, (s.below step).Reaches s' := by
  constructor
  · rintro (_ | ⟨hDescends, hJoint, hReaches⟩)
    · exact .inl rfl
    · exact .inr ⟨hDescends, hJoint, _, hReaches⟩
  · rintro (rfl | ⟨hDescends, hJoint, step, hReaches⟩)
    · exact .here s'
    · exact .descend hDescends hJoint hReaches

/-! ## Joint additions -/

theorem Joint.effectiveBase (h : s.Joint) : s.effectiveBase = s.current :=
  effectiveBase_of_id h.base h.place

end Spot

theorem self_item {items : List Value} (h : eqItems items items = false) :
    ∃ v ∈ items, (v == v) = false := by
  induction items with
  | nil => cases h
  | cons v items ih =>
    rw [eqItems, Bool.and_eq_false_iff] at h
    rcases h with hHead | hRest
    · exact ⟨v, List.mem_cons_self, hHead⟩
    · obtain ⟨w, hMem, hw⟩ := ih hRest
      exact ⟨w, List.mem_cons_of_mem v hMem, hw⟩

theorem self_entry {entries : List (String × Value)} (h : eqEntries entries entries = false) :
    ∃ key v, (key, v) ∈ entries ∧ (v == v) = false := by
  induction entries with
  | nil => cases h
  | cons entry entries ih =>
    obtain ⟨key, v⟩ := entry
    rw [eqEntries, beq_self_eq_true, Bool.true_and, Bool.and_eq_false_iff] at h
    rcases h with hHead | hRest
    · exact ⟨key, v, List.mem_cons_self, hHead⟩
    · obtain ⟨key', w, hMem, hw⟩ := ih hRest
      exact ⟨key', w, List.mem_cons_of_mem _ hMem, hw⟩

theorem lookup_of_nodup {entries : List (String × Value)} (h : (keysOf entries).Nodup) {key : String}
    {v : Value} (hMem : (key, v) ∈ entries) : entries.lookup key = some v := by
  obtain ⟨before, after, rfl⟩ := List.append_of_mem hMem
  have hNot : key ∉ keysOf before := by
    rw [keysOf, List.map_append, List.nodup_append] at h
    exact fun hBefore => h.2.2 key hBefore key List.mem_cons_self rfl
  rw [List.lookup_append, lookup_eq_none_of_not_mem hNot, Option.none_or, List.lookup_cons_self]

theorem idOf_isSome {items : List Value} {index : List (String × Value) × List String}
    (h : indexArrayOfTablesById items = some index) {v : Value} (hMem : v ∈ items) : v.idOf.isSome := by
  induction items generalizing index with
  | nil => cases hMem
  | cons x rest ih =>
    rw [index_cons] at h
    obtain ⟨id, hId, hRest⟩ := Option.bind_eq_some_iff.mp h
    obtain ⟨index', hIndex, -⟩ := Option.map_eq_some_iff.mp hRest
    rcases List.mem_cons.mp hMem with rfl | hMem
    · rw [hId]
      rfl
    · exact ih hIndex hMem

/-- What differs from itself has a part that does. -/
theorem self_child {v : Value} (hTidy : v.tidy = true) (hShape : v.shape ≠ .leaf) (hSelf : (v == v) = false) :
    ∃ step, same (child (some v) step) (child (some v) step) = false := by
  cases v with
  | table entries =>
    rw [Value.tidy, Bool.and_eq_true, decide_eq_true_iff] at hTidy
    obtain ⟨key, w, hMem, hw⟩ := self_entry hSelf
    refine ⟨.key key, ?_⟩
    rw [child, Option.bind_some, Value.child, lookup_of_nodup hTidy.1 hMem]
    exact hw
  | array items =>
    obtain ⟨x, hMem, hx⟩ := self_item hSelf
    cases hIndex : indexArrayOfTablesById items with
    | none =>
      rw [Value.shape, hIndex] at hShape
      exact absurd rfl hShape
    | some index =>
      rw [Value.tidy, hIndex, Bool.and_eq_true, Option.isNone_some, Bool.false_or, decide_eq_true_iff] at hTidy
      obtain ⟨id, hId⟩ := Option.isSome_iff_exists.mp (idOf_isSome hIndex hMem)
      have hOnce : (idsOf items).count id < 2 := Nat.lt_succ_of_le (List.nodup_iff_count_le_one.mp hTidy.1 id)
      refine ⟨.id id, ?_⟩
      rw [child, Option.bind_some, Value.child, hIndex, Option.bind_some, lookup_index hIndex,
        elementsOf_once hMem hId hOnce]
      exact hx
  | _ => exact absurd rfl hShape

namespace Spot

variable {s s' : Spot}

theorem conflicted_of_self (s : Spot) (hBase : s.effectiveBase = s.current)
    (hThere : s.base ≠ none ∨ s.other ≠ none) (hTidy : Tidy s.current)
    (hSelf : same s.current s.current = false) : s.merge.2 = true := by
  obtain ⟨a, hCurrent⟩ : ∃ a, s.current = some a := by
    rw [← Option.ne_none_iff_exists']
    intro hNone
    rw [hNone] at hSelf
    cases hSelf
  have hDiffers : ∀ v, same s.current v = false := by
    intro v
    rw [← Bool.not_eq_true]
    intro hSame
    rw [same_trans hSame (same_symm hSame)] at hSelf
    cases hSelf
  rcases Option.eq_none_or_eq_some s.other with hOther | ⟨c, hOther⟩
  · have hPresent : s.base ≠ none := hThere.resolve_right fun h => h hOther
    refine (merge_oneSided (.inr hOther)).1.mpr (.inr (.inl ⟨hPresent, ?_, hOther, hDiffers _⟩))
    rw [hCurrent]
    exact nofun
  · have hContested : s.Contested := by
      refine ⟨?_, ?_, hDiffers _, hDiffers _, ?_⟩
      · rw [hCurrent]
        exact nofun
      · rw [hOther]
        exact nofun
      · rw [hBase, same_comm]
        exact hDiffers _
    by_cases hDescends : s.Descends
    · have hShape : a.shape ≠ .leaf := by
        have hContainer := hDescends.container
        rwa [hCurrent] at hContainer
      rw [hCurrent] at hSelf
      obtain ⟨step, hChild⟩ := self_child (hTidy a hCurrent) hShape hSelf
      rw [← hCurrent] at hChild
      have hBelowBase : (s.below step).base = (s.below step).current := by rw [below, hBase]
      have hBelowPresent : (s.below step).base ≠ none := by
        intro hNone
        rw [hBelowBase] at hNone
        change child s.current step = none at hNone
        rw [hNone] at hChild
        cases hChild
      obtain ⟨r, conflicted, hMerge, hMerged⟩ := hDescends.merge
      rw [hMerge]
      refine hMerged.conflicted.mpr ⟨step, ?_⟩
      exact conflicted_of_self (s.below step) ((effectiveBase_of_base hBelowPresent).trans hBelowBase)
        (.inl hBelowPresent) (hTidy.child step) hChild
    · exact merge_undescended hContested hDescends
termination_by s.size
decreasing_by exact size_below hDescends step

theorem Joint.merge (h : s.Joint) (hTidy : Tidy s.current) :
    (same s.current s.other = true ∧ s.merge = (s.current, false)) ∨
    (same s.current s.other = false ∧ same s.current s.current = true ∧ s.merge = (s.other, false)) ∨
    (same s.current s.current = false ∧ s.merge.2 = true) := by
  obtain ⟨a, hCurrent⟩ := Option.ne_none_iff_exists'.mp h.current
  obtain ⟨c, hOther⟩ := Option.ne_none_iff_exists'.mp h.other
  cases hSelf : same s.current s.current with
  | false => exact .inr (.inr ⟨rfl, conflicted_of_self s h.effectiveBase (.inr h.other) hTidy hSelf⟩)
  | true =>
    have hLeft : same s.current s.effectiveBase = true := by rw [h.effectiveBase, hSelf]
    rcases merge_settled hCurrent hOther (fun hC => by simp [hC.left] at hLeft) with
      hSides | ⟨hSides, -, hMerge⟩ | ⟨-, hFalse, -⟩
    · exact .inl hSides
    · exact .inr (.inl ⟨hSides, rfl, hMerge⟩)
    · simp [hLeft] at hFalse

/-! ## Flags -/

/-- The spot sets the flag, or would if a joint addition could be compared. -/
def Breaks (s : Spot) : Prop :=
  (¬ s.Joint ∧ s.Collides) ∨ (s.Joint ∧ same s.current s.current = false)

theorem conflicted_iff_breaks (s : Spot) (hTidy : Tidy s.current) :
    s.merge.2 = true ↔ ∃ s', s.Reaches s' ∧ s'.Breaks := by
  by_cases hJoint : s.Joint
  · constructor
    · intro hFlag
      refine ⟨s, .here s, .inr ⟨hJoint, ?_⟩⟩
      rcases hJoint.merge hTidy with ⟨-, hMerge⟩ | ⟨-, -, hMerge⟩ | ⟨hSelf, -⟩
      · simp [hMerge] at hFlag
      · simp [hMerge] at hFlag
      · exact hSelf
    · rintro ⟨s', hReaches, hBreaks⟩
      rcases reaches_iff.mp hReaches with rfl | ⟨-, hNot, -⟩
      · rcases hBreaks with ⟨hNot, -⟩ | ⟨-, hSelf⟩
        · exact absurd hJoint hNot
        · exact conflicted_of_self s' hJoint.effectiveBase (.inr hJoint.other) hTidy hSelf
      · exact absurd hJoint hNot
  · by_cases hDescends : s.Descends
    · obtain ⟨r, conflicted, hMerge, hMerged⟩ := hDescends.merge
      rw [hMerge, hMerged.conflicted]
      constructor
      · rintro ⟨step, hFlag⟩
        obtain ⟨s', hReaches, hBreaks⟩ := (conflicted_iff_breaks (s.below step) (hTidy.child step)).mp hFlag
        exact ⟨s', .descend hDescends hJoint hReaches, hBreaks⟩
      · rintro ⟨s', hReaches, hBreaks⟩
        rcases reaches_iff.mp hReaches with rfl | ⟨-, -, step, hBelow⟩
        · exact absurd (hBreaks.resolve_right fun h => hJoint h.1).2 hDescends.not_collides
        · exact ⟨step, (conflicted_iff_breaks (s.below step) (hTidy.child step)).mpr ⟨s', hBelow, hBreaks⟩⟩
    · rw [conflicted_iff]
      constructor
      · rintro ⟨s', hVisits, hCollides⟩
        rcases visits_iff.mp hVisits with rfl | ⟨hDescends', -⟩
        · exact ⟨s', .here s', .inl ⟨hJoint, hCollides⟩⟩
        · exact absurd hDescends' hDescends
      · rintro ⟨s', hReaches, hBreaks⟩
        rcases reaches_iff.mp hReaches with rfl | ⟨hDescends', -⟩
        · exact ⟨s', .here s', (hBreaks.resolve_right fun h => hJoint h.1).2⟩
        · exact absurd hDescends' hDescends
termination_by s.size
decreasing_by all_goals exact size_below hDescends _

end Spot

/-! ## Names of a merged container -/

theorem mem_keysOf {entries : List (String × Value)} {key : String} :
    key ∈ keysOf entries ↔ entries.lookup key ≠ none := by
  constructor
  · intro hMem hNone
    obtain ⟨entry, hEntry, rfl⟩ := List.mem_map.mp hMem
    have hKey := List.lookup_eq_none_iff.mp hNone entry hEntry
    simp at hKey
  · intro hSome
    by_contra hMem
    exact hSome (lookup_eq_none_of_not_mem hMem)

theorem keysOf_kept (keys : List String) (g : String → Option Value) :
    keysOf (keptEntries keys g) = keys.filter fun key => (g key).isSome := by
  unfold keptEntries
  induction keys with
  | nil => rfl
  | cons key keys ih =>
    rw [List.filterMap_cons, List.filter_cons]
    cases g key with
    | none => exact ih
    | some v => exact congrArg _ ih

theorem nodup_btreeSet (keys : List String) : (btreeSet keys).Nodup :=
  (List.perm_insertionSort _ _).nodup_iff.mpr (List.nodup_dedup keys)

theorem mem_idsOf_index {items : List Value} {index : List (String × Value) × List String}
    (h : indexArrayOfTablesById items = some index) {id : String} :
    id ∈ idsOf items ↔ index.1.lookup id ≠ none := by
  rw [lookup_index h, ne_eq, getLast?_eq_none, not_not]

theorem names_perm (hShape : shapeOf u = shapeOf v) (hContainer : shapeOf u ≠ .leaf)
    (hu : (namesOf u).Nodup) (hv : (namesOf v).Nodup)
    (hChild : ∀ step, child u step = none ↔ child v step = none) : (namesOf u).Perm (namesOf v) := by
  rw [List.perm_ext_iff_of_nodup hu hv]
  intro name
  cases hu : shapeOf u with
  | leaf => exact absurd hu hContainer
  | table =>
    obtain ⟨xs, rfl⟩ := table_of_shape hu
    obtain ⟨ys, rfl⟩ := table_of_shape (hShape.symm.trans hu)
    exact mem_keysOf.trans ((hChild (.key name)).not.trans mem_keysOf.symm)
  | keyedArray =>
    obtain ⟨xs, index, rfl, hIndex⟩ := array_of_shape hu
    obtain ⟨ys, index', rfl, hIndex'⟩ := array_of_shape (hShape.symm.trans hu)
    have hId := (hChild (.id name)).not
    simp only [child, Option.bind_some, Value.child, hIndex, hIndex'] at hId
    exact (mem_idsOf_index hIndex).trans (hId.trans (mem_idsOf_index hIndex').symm)

namespace Spot

variable {s s' : Spot}

theorem Descends.names_nodup (h : s.Descends) (hCurrent : Tidy s.current) (hOther : Tidy s.other) :
    (namesOf s.merge.1).Nodup := by
  cases hShape : shapeOf s.current with
  | leaf => exact absurd hShape h.container
  | table =>
    obtain ⟨a, ha⟩ := table_of_shape hShape
    obtain ⟨c, hc⟩ := table_of_shape (h.sameOther.trans hShape)
    obtain ⟨b, hb⟩ := table_of_shape (h.sameBase.trans hShape)
    rw [mergeValue_table hb ha hc h.toContested, namesOf, keysOf_kept]
    exact (nodup_btreeSet _).filter _
  | keyedArray =>
    obtain ⟨as, current, ha, hIndexA⟩ := array_of_shape hShape
    obtain ⟨cs, other, hc, hIndexC⟩ := array_of_shape (h.sameOther.trans hShape)
    obtain ⟨bs, base, hb, hIndexB⟩ := array_of_shape (h.sameBase.trans hShape)
    have hBelow : ∀ id, s.below (.id id) = spotAt base current other id := by
      intro id
      simp only [below, hb, ha, hc, child, Option.bind_some, Value.child, hIndexA, hIndexB, hIndexC, Step.place,
        spotAt]
    have hNodup : ∀ {items : List Value} {index : List (String × Value) × List String},
        Tidy (some (.array items)) → indexArrayOfTablesById items = some index → (idsOf items).Nodup := by
      intro items index hTidy hIndex
      have hItems := hTidy _ rfl
      rw [Value.tidy, hIndex, Bool.and_eq_true, Option.isNone_some, Bool.false_or, decide_eq_true_iff] at hItems
      exact hItems.1
    have hKeep : ∀ id v, (spotAt base current other id).merge.1 = some v → v.idOf = some id :=
      idOf_spotAt hIndexA hIndexC
    rw [mergeValue_array hb ha hc hIndexB hIndexA hIndexC h.toContested, namesOf]
    simp only [hBelow]
    rw [keptItems_order hIndexA hIndexC, idsOf, List.filterMap_append, ← idsOf, ← idsOf, idsOf_kept hKeep,
      idsOf_kept hKeep]
    refine ((hNodup (ha ▸ hCurrent) hIndexA).filter _).append
      (((hNodup (hc ▸ hOther) hIndexC).filter _).filter _) fun id hMem hMem' => ?_
    have hNot := (List.mem_filter.mp (List.mem_filter.mp hMem').1).2
    rw [decide_eq_true_iff] at hNot
    exact hNot (List.mem_filter.mp hMem).1

theorem Descends.merge_shape (h : s.Descends) : shapeOf s.merge.1 = shapeOf s.current := by
  obtain ⟨r, conflicted, hMerge, hMerged⟩ := h.merge
  rw [hMerge]
  exact hMerged.shape

end Spot

theorem AgreeAt.none_iff (h : AgreeAt u v) : u = none ↔ v = none := by
  have hOne : ∀ {u v : Option Value}, AgreeAt u v → u = none → v = none := by
    rintro u v h rfl
    rcases h.leaf rfl with hEq | hSame
    · exact hEq.symm
    · cases v with
      | none => rfl
      | some v => cases hSame
  exact ⟨hOne h, hOne h.symm⟩

namespace Spot

variable {s s' : Spot}

theorem swap_merge_oneSided (h : s.current = none ∨ s.other = none) : s.swap.merge = s.merge := by
  obtain ⟨place, b, a, c⟩ := s
  rcases h with h | h
  · cases h
    cases c <;> rfl
  · cases h
    cases a <;> rfl

theorem swap_merge_settled (hCurrent : s.current ≠ none) (hOther : s.other ≠ none) (hJoint : ¬ s.Joint)
    (h : ¬ s.Contested) : Agree s.merge.1 s.swap.merge.1 := by
  obtain ⟨a, ha⟩ := Option.ne_none_iff_exists'.mp hCurrent
  obtain ⟨c, hc⟩ := Option.ne_none_iff_exists'.mp hOther
  have hBase := swap_effectiveBase hCurrent hOther hJoint
  have hSwap : ¬ s.swap.Contested := fun hSwap => h (hSwap.swap fun hj => hJoint hj.swap)
  have hSettled := merge_settled (s := s.swap) hc ha hSwap
  rw [hBase] at hSettled
  change (same s.other s.current = true ∧ s.swap.merge = (s.other, false)) ∨
    (same s.other s.current = false ∧ same s.other s.effectiveBase = true ∧ s.swap.merge = (s.current, false)) ∨
    (same s.other s.current = false ∧ same s.other s.effectiveBase = false ∧
      same s.current s.effectiveBase = true ∧ s.swap.merge = (s.other, false)) at hSettled
  rw [same_comm s.other s.current] at hSettled
  rcases merge_settled ha hc h with ⟨hSides, hMerge⟩ | ⟨hSides, hLeft, hMerge⟩ | ⟨hSides, hLeft, hRight, hMerge⟩
  · rcases hSettled with ⟨-, hMerge'⟩ | ⟨hNot, -⟩ | ⟨hNot, -⟩
    · rw [hMerge, hMerge']
      exact agree_of_same hSides
    · simp [hSides] at hNot
    · simp [hSides] at hNot
  · rcases hSettled with ⟨hYes, -⟩ | ⟨-, hRight, -⟩ | ⟨-, -, -, hMerge'⟩
    · simp [hSides] at hYes
    · have hYes := same_trans hLeft (same_symm hRight)
      simp [hSides] at hYes
    · rw [hMerge, hMerge']
      exact .refl _
  · rcases hSettled with ⟨hYes, -⟩ | ⟨-, -, hMerge'⟩ | ⟨-, hNot, -⟩
    · simp [hSides] at hYes
    · rw [hMerge, hMerge']
      exact .refl _
    · simp [hRight] at hNot

theorem agree_swap (s : Spot) (hCurrent : Tidy s.current) (hOther : Tidy s.other)
    (hFlag : s.merge.2 = false) (hFlag' : s.swap.merge.2 = false)
    (hAgree : ∀ s', s.Reaches s' → s'.Joint → Agree s'.current s'.other) : Agree s.merge.1 s.swap.merge.1 := by
  by_cases hAbsent : s.current = none ∨ s.other = none
  · rw [swap_merge_oneSided hAbsent]
    exact .refl _
  rw [not_or] at hAbsent
  by_cases hJoint : s.Joint
  · have hSides := hAgree s (.here s) hJoint
    rcases hJoint.merge hCurrent with ⟨hSame, hMerge⟩ | ⟨hSame, -, hMerge⟩ | ⟨-, hNot⟩
    · rcases hJoint.swap.merge hOther with ⟨-, hMerge'⟩ | ⟨-, -, hMerge'⟩ | ⟨-, hNot⟩
      · rw [hMerge, hMerge']
        exact hSides
      · rw [hMerge, hMerge']
        exact .refl _
      · simp [hFlag'] at hNot
    · rcases hJoint.swap.merge hOther with ⟨hYes, -⟩ | ⟨-, -, hMerge'⟩ | ⟨-, hNot⟩
      · exact absurd hYes (ne_true_of_eq_false ((same_comm _ _).trans hSame))
      · rw [hMerge, hMerge']
        exact hSides.symm
      · simp [hFlag'] at hNot
    · simp [hFlag] at hNot
  · by_cases hDescends : s.Descends
    · have hSwap := hDescends.swap hJoint
      have hStep : ∀ step, Agree (s.below step).merge.1 (s.below step).swap.merge.1 := by
        intro step
        refine agree_swap (s.below step) (hCurrent.child step) (hOther.child step)
          (hDescends.flag_below hFlag step) ?_ fun s' hReaches => hAgree s' (.descend hDescends hJoint hReaches)
        rw [← swap_below hDescends hJoint]
        exact hSwap.flag_below hFlag' step
      have hChild : ∀ step, Agree (child s.merge.1 step) (child s.swap.merge.1 step) := by
        intro step
        rw [hDescends.child_merge, hSwap.child_merge, swap_below hDescends hJoint]
        exact hStep step
      have hShape : shapeOf s.merge.1 = shapeOf s.swap.merge.1 := by
        rw [hDescends.merge_shape, hSwap.merge_shape]
        exact hDescends.sameOther.symm
      refine agree_iff.mpr ⟨⟨hShape, fun hLeaf => ?_, fun hContainer => ?_⟩, hChild⟩
      · exact absurd (hDescends.merge_shape.symm.trans hLeaf) hDescends.container
      · exact names_perm hShape hContainer (hDescends.names_nodup hCurrent hOther)
          (hSwap.names_nodup hOther hCurrent) fun step => (hChild step []).none_iff
    · by_cases hContested : s.Contested
      · simp [merge_undescended hContested hDescends] at hFlag
      · exact swap_merge_settled hAbsent.1 hAbsent.2 hJoint hContested
termination_by s.size
decreasing_by exact size_below hDescends _

theorem Reaches.agree (hReaches : s.Reaches s') (hJoint : s'.Joint) (hCurrent : Tidy s.current)
    (hOther : Tidy s.other) (hFlag : s.merge.2 = false) (hFlag' : s.swap.merge.2 = false)
    (hAgree : Agree s.merge.1 s.swap.merge.1) : Agree s'.current s'.other := by
  induction hReaches with
  | here s =>
    rcases hJoint.merge hCurrent with ⟨hSame, -⟩ | ⟨hSame, -, hMerge⟩ | ⟨-, hNot⟩
    · exact agree_of_same hSame
    · rcases hJoint.swap.merge hOther with ⟨hYes, -⟩ | ⟨-, -, hMerge'⟩ | ⟨-, hNot⟩
      · exact absurd hYes (ne_true_of_eq_false ((same_comm _ _).trans hSame))
      · rw [hMerge, hMerge'] at hAgree
        exact hAgree.symm
      · simp [hFlag'] at hNot
    · simp [hFlag] at hNot
  | @descend s s' step hDescends hNot _ ih =>
    have hSwap := hDescends.swap hNot
    have hBelow := swap_below hDescends hNot step
    have hChild := (agree_iff.mp hAgree).2 step
    rw [hDescends.child_merge, hSwap.child_merge, hBelow] at hChild
    refine ih hJoint (hCurrent.child step) (hOther.child step) (hDescends.flag_below hFlag step) ?_ hChild
    rw [← hBelow]
    exact hSwap.flag_below hFlag' step

end Spot

/-- The flag and, without one, the result do not depend on the order of the sides. -/
def Symmetric (base x y : Value) : Prop :=
  ((mergeValue base x y).2 = (mergeValue base y x).2) ∧
    ((mergeValue base x y).2 = false → Agree (some (mergeValue base x y).1) (some (mergeValue base y x).1))

/-- A spot that both sides add under an id, which differs from itself on the current side. -/
def JointNaN (start : Spot) : Prop := ∃ s, start.Reaches s ∧ s.Joint ∧ same s.current s.current = false

theorem breaks_iff (s : Spot) : (∃ s', s.Reaches s' ∧ s'.Breaks) ↔
    (∃ s', s.Reaches s' ∧ ¬ s'.Joint ∧ s'.Collides) ∨ JointNaN s := by
  constructor
  · rintro ⟨s', hReaches, hBreaks⟩
    exact hBreaks.imp (fun h => ⟨s', hReaches, h⟩) fun h => ⟨s', hReaches, h⟩
  · rintro (⟨s', hReaches, h⟩ | ⟨s', hReaches, h⟩)
    · exact ⟨s', hReaches, .inl h⟩
    · exact ⟨s', hReaches, .inr h⟩

theorem collides_swap (s : Spot) : (∃ s', s.Reaches s' ∧ ¬ s'.Joint ∧ s'.Collides) →
    ∃ s', s.swap.Reaches s' ∧ ¬ s'.Joint ∧ s'.Collides := by
  rintro ⟨s', hReaches, hJoint, hCollides⟩
  exact ⟨s'.swap, hReaches.swap, fun h => hJoint h.swap, hCollides.swap hJoint⟩

/-- The merge of tidy sides is symmetric exactly when it collides on the way, or what both sides add
under an id agrees. -/
theorem merge_symmetric_iff {x y : Value} (hx : x.tidy = true) (hy : y.tidy = true) (base : Value) :
    Symmetric base x y ↔
      (∃ s, (Spot.start base x y).Reaches s ∧ ¬ s.Joint ∧ s.Collides) ∨
      ((JointNaN (Spot.start base x y) ↔ JointNaN (Spot.start base y x)) ∧
        (¬ JointNaN (Spot.start base x y) →
          ∀ s, (Spot.start base x y).Reaches s → s.Joint → Agree s.current s.other)) := by
  have hTidy : ∀ {v : Value}, v.tidy = true → Tidy (some v) := by
    intro v hv w hw
    cases hw
    exact hv
  have hFlag : (mergeValue base x y).2 = true ↔ _ :=
    ((Spot.start base x y).conflicted_iff_breaks (hTidy hx)).trans (breaks_iff _)
  have hFlag' : (mergeValue base y x).2 = true ↔ _ :=
    ((Spot.start base y x).conflicted_iff_breaks (hTidy hy)).trans (breaks_iff _)
  have hCollides : (∃ s, (Spot.start base y x).Reaches s ∧ ¬ s.Joint ∧ s.Collides) ↔
      ∃ s, (Spot.start base x y).Reaches s ∧ ¬ s.Joint ∧ s.Collides :=
    ⟨collides_swap (Spot.start base y x), collides_swap (Spot.start base x y)⟩
  rw [hCollides] at hFlag'
  rw [Symmetric, Bool.eq_iff_iff, ← Bool.not_eq_true, hFlag, hFlag']
  by_cases hCollision : ∃ s, (Spot.start base x y).Reaches s ∧ ¬ s.Joint ∧ s.Collides
  · exact iff_of_true ⟨iff_of_true (.inl hCollision) (.inl hCollision), fun h => absurd (.inl hCollision) h⟩
      (.inl hCollision)
  · simp only [hCollision, false_or] at hFlag hFlag' ⊢
    refine and_congr_right fun hNaN => forall_congr' fun hNot => ?_
    have hClear : (Spot.start base x y).merge.2 = false := Bool.eq_false_iff.mpr (hFlag.not.mpr hNot)
    have hClear' : (Spot.start base x y).swap.merge.2 = false :=
      Bool.eq_false_iff.mpr (hFlag'.not.mpr (hNaN.not.mp hNot))
    constructor
    · intro hAgree s hReaches hJoint
      exact hReaches.agree hJoint (hTidy hx) (hTidy hy) hClear hClear' hAgree
    · intro hJoint
      exact Spot.agree_swap _ (hTidy hx) (hTidy hy) hClear hClear' hJoint

/-! ## Two ideas under one id -/

theorem merge_takes_other : (ideas [idea 1]).tidy = true ∧ (ideas [idea 2]).tidy = true ∧
    ¬ Symmetric (ideas []) (ideas [idea 1]) (ideas [idea 2]) := by
  refine ⟨by decide, by decide, ?_⟩
  rintro ⟨-, hAgree⟩
  have hFlag : (mergeValue (ideas []) (ideas [idea 1]) (ideas [idea 2])).2 = false := by decide +kernel
  have hValue := hAgree hFlag [.key "ideas", .id "idea-1", .key "value"]
  have hTwo : same (follow (some (mergeValue (ideas []) (ideas [idea 1]) (ideas [idea 2])).1)
      [.key "ideas", .id "idea-1", .key "value"]) (some (.integer 2)) = true := by decide +kernel
  have hOne : same (follow (some (mergeValue (ideas []) (ideas [idea 2]) (ideas [idea 1])).1)
      [.key "ideas", .id "idea-1", .key "value"]) (some (.integer 1)) = true := by decide +kernel
  have hDiffer : same (some (.integer 2)) (some (.integer 1)) = false := by decide
  rcases hValue.leaf (shapeOf_eq_of_same hTwo) with hEq | hSame
  · rw [← hEq] at hOne
    simp [same_trans (same_symm hTwo) hOne] at hDiffer
  · simp [same_trans (same_symm hTwo) (same_trans hSame hOne)] at hDiffer

theorem not_joint_of_apart {s : Spot}
    (hReaches : (Spot.start (ideas []) (ideas [idea 1]) (ideas [otherIdea])).Reaches s) : ¬ s.Joint := by
  intro hJoint
  rcases Spot.reaches_iff.mp hReaches with rfl | ⟨-, -, step, hReaches⟩
  · cases hJoint.place
  rcases Spot.reaches_iff.mp hReaches with rfl | ⟨hDescends, -, step', hReaches⟩
  · cases step with
    | key k => cases hJoint.place
    | id k => exact hJoint.current rfl
  cases step with
  | id k => exact hDescends.current rfl
  | key k =>
    by_cases hKey : k = "ideas"
    · subst hKey
      have hApart : child (some (.array [idea 1])) step' = none ∨
          child (some (.array [otherIdea])) step' = none := by
        cases step' with
        | key k => exact .inl rfl
        | id i =>
          by_cases hId : i = "idea-1"
          · subst hId
            exact .inr rfl
          · exact .inl (by simp [child, Value.child, indexArrayOfTablesById, idea, Value.idOf, Value.asStr, hId])
      rcases Spot.reaches_iff.mp hReaches with rfl | ⟨hBelow, -, -⟩
      · exact hApart.elim hJoint.current hJoint.other
      · exact hApart.elim hBelow.current hBelow.other
    · refine hDescends.current ?_
      simp [Spot.below, Spot.start, child, Value.child, ideas, hKey]

/-- Two ideas that the sides add under ids of their own come out the same either way. -/
theorem merge_symmetric_of_apart : Symmetric (ideas []) (ideas [idea 1]) (ideas [otherIdea]) := by
  refine (merge_symmetric_iff (by decide) (by decide) (ideas [])).mpr (.inr ⟨iff_of_false ?_ ?_, ?_⟩)
  · rintro ⟨s, hReaches, hJoint, -⟩
    exact not_joint_of_apart hReaches hJoint
  · rintro ⟨s, hReaches, hJoint, -⟩
    exact not_joint_of_apart hReaches.swap hJoint.swap
  · intro _ s hReaches hJoint
    exact absurd hJoint (not_joint_of_apart hReaches)

end Exosuit.Merge
