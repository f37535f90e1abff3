import Exosuit.Merge.Driver

/-!
# The spots of a merge

A spot is one place that the merge looks at, with what the three sides have
there. The driver is characterised by what it does at one spot and by the spots
below it.
-/

namespace Exosuit.Merge

inductive Place
  | root
  | key
  | id
deriving DecidableEq

structure Spot where
  place : Place
  base : Option Value
  current : Option Value
  other : Option Value

def Step.place : Step → Place
  | .key _ => .key
  | .id _ => .id

namespace Spot

/-- What the driver compares with: an absent base is an empty table under a key,
and the current side under an id. -/
def effectiveBase (s : Spot) : Option Value :=
  match s.base, s.place with
  | some b, _ => some b
  | none, .id => s.current
  | none, _ => some .emptyTable

def below (s : Spot) (step : Step) : Spot :=
  ⟨step.place, child s.effectiveBase step, child s.current step, child s.other step⟩

/-- The branches that the driver takes at a spot. -/
def merge (s : Spot) : Option Value × Bool :=
  match s.current, s.other with
  | some a, some c =>
    let merged := mergeValue (s.effectiveBase.getD .emptyTable) a c
    (some merged.1, merged.2)
  | some a, none =>
    match s.base with
    | some b => if a == b then (none, false) else (some a, true)
    | none => (some a, false)
  | none, some c =>
    match s.base with
    | some b => if c == b then (none, false) else (some c, true)
    | none => (some c, false)
  | none, none => (none, false)

/-- Both sides are there and differ from each other and from the base. -/
structure Contested (s : Spot) : Prop where
  current : s.current ≠ none
  other : s.other ≠ none
  sides : same s.current s.other = false
  left : same s.current s.effectiveBase = false
  right : same s.other s.effectiveBase = false

/-- The merge goes on with the parts of the three values. -/
structure Descends (s : Spot) : Prop extends Contested s where
  container : shapeOf s.current ≠ .leaf
  sameOther : shapeOf s.other = shapeOf s.current
  sameBase : shapeOf s.effectiveBase = shapeOf s.current

end Spot

theorem sizeOf_child {v w : Value} {step : Step} (h : v.child step = some w) : sizeOf w < sizeOf v := by
  unfold Value.child at h
  split at h
  · exact sizeOf_lookup h
  · obtain ⟨index, hIndex, hLookup⟩ := Option.bind_eq_some_iff.mp h
    exact sizeOf_index hIndex hLookup
  · cases h

/-! ## Settled spots -/

variable {b a c : Value}

theorem mergeValue_of_sides (hSides : (a == c) = true) : mergeValue b a c = (a, false) := by
  rw [mergeValue.eq_def, if_pos hSides]

theorem mergeValue_of_left (hSides : (a == c) = false) (hLeft : (a == b) = true) :
    mergeValue b a c = (c, false) := by
  rw [mergeValue.eq_def, if_neg (by simp [hSides]), if_pos hLeft]

theorem mergeValue_of_right (hSides : (a == c) = false) (hLeft : (a == b) = false)
    (hRight : (c == b) = true) : mergeValue b a c = (a, false) := by
  rw [mergeValue.eq_def, if_neg (by simp [hSides]), if_neg (by simp [hLeft]), if_pos hRight]

/-! ## Tables -/

def keptEntries (keys : List String) (g : String → Option Value) : List (String × Value) :=
  keys.filterMap fun key => (g key).map fun v => (key, v)

theorem lookup_keptEntries (keys : List String) (g : String → Option Value) (key : String) :
    (keptEntries keys g).lookup key = if key ∈ keys then g key else none := by
  unfold keptEntries
  induction keys with
  | nil => rfl
  | cons k keys ih =>
    rw [List.filterMap_cons]
    rcases eq_or_ne key k with rfl | hne
    · cases hk : g key with
      | none =>
        simp only [Option.map_none, ih, hk, ite_self, List.mem_cons, true_or]
      | some v => simp
    · have hFalse : (key == k) = false := by simpa using hne
      cases g k with
      | none => simp [hne, ih]
      | some v => simp [List.lookup_cons, hFalse, hne, ih]

theorem lookup_eq_none_of_not_mem {entries : List (String × Value)} {key : String}
    (h : key ∉ keysOf entries) : entries.lookup key = none := by
  rw [List.lookup_eq_none_iff]
  rintro ⟨k, v⟩ hMem
  have hne : key ≠ k := by
    rintro rfl
    exact h (List.mem_map_of_mem hMem)
  simpa using hne

/-- Where no side has anything, nothing is kept. -/
theorem Spot.merge_of_absent {s : Spot} (hCurrent : s.current = none) (hOther : s.other = none) :
    s.merge = (none, false) := by
  rw [Spot.merge, hCurrent, hOther]

theorem mergeValue_table {b a c : List (String × Value)} {s : Spot}
    (hBase : s.effectiveBase = some (.table b)) (hCurrent : s.current = some (.table a))
    (hOther : s.other = some (.table c)) (h : s.Contested) :
    s.merge = (some (.table (keptEntries (btreeSet (keysOf b ++ keysOf a ++ keysOf c))
        fun key => (s.below (.key key)).merge.1)),
      (btreeSet (keysOf b ++ keysOf a ++ keysOf c)).any fun key => (s.below (.key key)).merge.2) := by
  have hSides : (Value.table a == Value.table c) = false := by
    simpa [same, hCurrent, hOther] using h.sides
  have hLeft : (Value.table a == Value.table b) = false := by
    simpa [same, hCurrent, hBase] using h.left
  have hRight : (Value.table c == Value.table b) = false := by
    simpa [same, hOther, hBase] using h.right
  let entry := fun key => Entry.mk key (s.below (.key key)).merge.1 (s.below (.key key)).merge.2
  have hMerge : mergeValue (.table b) (.table a) (.table c) =
      (.table (((btreeSet (keysOf b ++ keysOf a ++ keysOf c)).map entry).filterMap fun e =>
        e.value.map fun v => (e.name, v)),
        ((btreeSet (keysOf b ++ keysOf a ++ keysOf c)).map entry).any (·.conflicted)) := by
    rw [mergeValue]
    simp only [hSides, hLeft, hRight, Bool.false_eq_true, if_false]
    refine congrArg (fun entries : List Entry => (Value.table (entries.filterMap fun e =>
      e.value.map fun v => (e.name, v)), entries.any (·.conflicted)))
      (List.map_congr_left fun key _ => ?_)
    have hBelow : s.below (.key key) = ⟨.key, b.lookup key, a.lookup key, c.lookup key⟩ := by
      rw [Spot.below, hBase, hCurrent, hOther]
      rfl
    simp only [entry, hBelow, Spot.merge, Spot.effectiveBase]
    split <;> rename_i hA hC <;> rw [hA, hC]
    · cases b.lookup key <;> rfl
    · cases b.lookup key with
      | none => rfl
      | some original => simp only; split <;> rfl
    · cases b.lookup key with
      | none => rfl
      | some original => simp only; split <;> rfl
  rw [Spot.merge, hCurrent, hOther]
  simp only [hBase, Option.getD_some]
  rw [hMerge, List.filterMap_map, List.any_map]
  rfl

theorem table_of_shape {v : Option Value} (h : shapeOf v = .table) : ∃ t, v = some (.table t) := by
  match v with
  | some (.table t) => exact ⟨t, rfl⟩
  | some (.array items) =>
    simp only [shapeOf, Value.shape] at h
    split at h <;> cases h
  | some (.string _) | some (.integer _) | some (.float _) | some (.boolean _)
  | some (.datetime _) | none => cases h

theorem array_of_shape {v : Option Value} (h : shapeOf v = .keyedArray) :
    ∃ items index, v = some (.array items) ∧ indexArrayOfTablesById items = some index := by
  match v with
  | some (.array items) =>
    simp only [shapeOf, Value.shape] at h
    split at h
    · rename_i hIndex
      obtain ⟨index, hIndex⟩ := Option.isSome_iff_exists.mp hIndex
      exact ⟨items, index, rfl, hIndex⟩
    · cases h
  | some (.string _) | some (.integer _) | some (.float _) | some (.boolean _)
  | some (.datetime _) | some (.table _) | none => cases h

/-- What the merge of a spot that it descends into yields. -/
structure Spot.Merged (s : Spot) (r : Value) (conflicted : Bool) : Prop where
  shape : r.shape = shapeOf s.current
  child : ∀ step, r.child step = (s.below step).merge.1
  conflicted : conflicted = true ↔ ∃ step, (s.below step).merge.2 = true

theorem Spot.below_absent {s : Spot} {step : Step} (hCurrent : child s.current step = none)
    (hOther : child s.other step = none) : (s.below step).merge = (none, false) :=
  Spot.merge_of_absent hCurrent hOther

theorem Spot.Descends.merge_table {s : Spot} (h : s.Descends) (hShape : shapeOf s.current = .table) :
    ∃ r conflicted, s.merge = (some r, conflicted) ∧ s.Merged r conflicted := by
  obtain ⟨a, hCurrent⟩ := table_of_shape hShape
  obtain ⟨c, hOther⟩ := table_of_shape (h.sameOther.trans hShape)
  obtain ⟨b, hBase⟩ := table_of_shape (h.sameBase.trans hShape)
  have hAbsent : ∀ key, key ∉ btreeSet (keysOf b ++ keysOf a ++ keysOf c) →
      (s.below (.key key)).merge = (none, false) := by
    intro key hKey
    rw [mem_btreeSet, List.mem_append, not_or, List.mem_append, not_or] at hKey
    refine Spot.below_absent ?_ ?_
    · rw [hCurrent]
      exact lookup_eq_none_of_not_mem hKey.1.2
    · rw [hOther]
      exact lookup_eq_none_of_not_mem hKey.2
  have hId : ∀ id, (s.below (.id id)).merge = (none, false) := by
    intro id
    refine Spot.below_absent ?_ ?_
    · rw [hCurrent]
      rfl
    · rw [hOther]
      rfl
  refine ⟨_, _, mergeValue_table hBase hCurrent hOther h.toContested, ?_⟩
  constructor
  · rw [hShape]
    rfl
  · intro step
    cases step with
    | key key =>
      refine (lookup_keptEntries _ _ key).trans (ite_eq_left_iff.mpr fun hKey => ?_)
      rw [hAbsent key hKey]
    | id id =>
      rw [hId id]
      rfl
  · rw [List.any_eq_true]
    constructor
    · rintro ⟨key, _, hConflict⟩
      exact ⟨.key key, hConflict⟩
    · rintro ⟨key | id, hConflict⟩
      · by_contra hNone
        refine absurd hConflict ?_
        rw [hAbsent key fun hMem => hNone ⟨key, hMem, hConflict⟩]
        exact Bool.false_ne_true
      · rw [hId id] at hConflict
        cases hConflict

/-! ## Arrays of tables -/

theorem idOf_eq_some {v : Value} {id : String} :
    v.idOf = some id ↔ ∃ t, v = .table t ∧ t.lookup "id" = some (.string id) := by
  constructor
  · intro h
    cases v with
    | table t =>
      obtain ⟨w, hLookup, hText⟩ := Option.bind_eq_some_iff.mp h
      cases w with
      | string text =>
        cases hText
        exact ⟨t, rfl, hLookup⟩
      | _ => cases hText
    | _ => cases h
  · rintro ⟨t, rfl, hLookup⟩
    rw [Value.idOf, hLookup]
    rfl

theorem idOf_mergeValue {id : String} (hCurrent : a.idOf = some id) (hOther : c.idOf = some id) :
    (mergeValue b a c).1.idOf = some id := by
  obtain ⟨t, rfl, ht⟩ := idOf_eq_some.mp hCurrent
  obtain ⟨u, rfl, hu⟩ := idOf_eq_some.mp hOther
  cases hSides : (Value.table t == Value.table u) with
  | true => rwa [mergeValue_of_sides hSides]
  | false =>
    cases hLeft : (Value.table t == b) with
    | true => rwa [mergeValue_of_left hSides hLeft]
    | false =>
      cases hRight : (Value.table u == b) with
      | true => rwa [mergeValue_of_right hSides hLeft hRight]
      | false =>
        cases b with
        | table w =>
          let s : Spot := ⟨.root, some (.table w), some (.table t), some (.table u)⟩
          have hDescends : s.Descends :=
            { current := nofun, other := nofun, sides := hSides, left := hLeft, right := hRight,
              container := nofun, sameOther := rfl, sameBase := rfl }
          obtain ⟨r, conflicted, hMerge, hMerged⟩ := hDescends.merge_table rfl
          have hBelow : (s.below (.key "id")).merge.1 = some (.string id) := by
            have hSame : (Value.string id == Value.string id) = true := by simp [BEq.beq, Value.eq]
            simp only [Spot.below, Spot.merge, s, child, Option.bind_some, Value.child, ht, hu,
              mergeValue_of_sides hSame]
          have hr : (mergeValue (.table w) (.table t) (.table u)).1 = r :=
            Option.some.inj (congrArg Prod.fst hMerge)
          obtain ⟨entries, hTable⟩ := table_of_shape (v := some r) hMerged.shape
          cases hTable
          rw [hr]
          exact idOf_eq_some.mpr ⟨entries, rfl, (hMerged.child (.key "id")).trans hBelow⟩
        | _ =>
          rw [mergeValue.eq_def, hSides, hLeft, hRight]
          exact hCurrent

theorem keysOf_index {items : List Value} {index : List (String × Value) × List String}
    (h : indexArrayOfTablesById items = some index) : keysOf index.1 = index.2.reverse := by
  induction items generalizing index with
  | nil => cases h; rfl
  | cons v rest ih =>
    rw [index_cons] at h
    obtain ⟨id, hId, hRest⟩ := Option.bind_eq_some_iff.mp h
    obtain ⟨index', hIndex, rfl⟩ := Option.map_eq_some_iff.mp hRest
    rw [List.reverse_cons, ← ih hIndex, keysOf, List.map_append]
    rfl

theorem mem_order {items : List Value} {index : List (String × Value) × List String}
    (h : indexArrayOfTablesById items = some index) {id : String} {v : Value}
    (hLookup : index.1.lookup id = some v) : id ∈ index.2 := by
  rw [← List.mem_reverse, ← keysOf_index h]
  exact List.mem_map_of_mem (mem_of_lookup hLookup)

/-- The array that the driver builds from what it keeps under each id. -/
def keptItems (keep : String → Option Value) (current other base : List (String × Value) × List String) :
    List Value :=
  current.2.filterMap keep ++
    (other.2.filter fun id => !(current.1.lookup id).isSome).filterMap keep ++
    (base.2.filter fun id =>
      !((current.1.lookup id).isSome || (other.1.lookup id).isSome)).filterMap keep

theorem find_entry (keys : List String) (g : String → Option Value) (d : String → Bool) (id : String) :
    (((keys.map fun key => Entry.mk key (g key) (d key)).find? (·.name == id)).bind Entry.value) =
      if id ∈ keys then g id else none := by
  induction keys with
  | nil => rfl
  | cons k keys ih =>
    rw [List.map_cons, List.find?_cons]
    rcases eq_or_ne k id with rfl | hne
    · simp
    · have hFalse : (k == id) = false := by simpa using hne
      simp only [hFalse, ih, List.mem_cons, Ne.symm hne, false_or]

theorem mergeValue_array {bs as cs : List Value} {base current other : List (String × Value) × List String}
    {s : Spot} (hBase : s.effectiveBase = some (.array bs)) (hCurrent : s.current = some (.array as))
    (hOther : s.other = some (.array cs)) (hb : indexArrayOfTablesById bs = some base)
    (ha : indexArrayOfTablesById as = some current) (hc : indexArrayOfTablesById cs = some other)
    (h : s.Contested) :
    s.merge = (some (.array (keptItems (fun id => (s.below (.id id)).merge.1) current other base)),
      (btreeSet (keysOf base.1 ++ keysOf current.1 ++ keysOf other.1)).any
        fun id => (s.below (.id id)).merge.2) := by
  have hSides : (Value.array as == Value.array cs) = false := by
    simpa [same, hCurrent, hOther] using h.sides
  have hLeft : (Value.array as == Value.array bs) = false := by
    simpa [same, hCurrent, hBase] using h.left
  have hRight : (Value.array cs == Value.array bs) = false := by
    simpa [same, hOther, hBase] using h.right
  let ids := btreeSet (keysOf base.1 ++ keysOf current.1 ++ keysOf other.1)
  let entry := fun id => Entry.mk id (s.below (.id id)).merge.1 (s.below (.id id)).merge.2
  have hMerge : mergeValue (.array bs) (.array as) (.array cs) =
      (.array (keptItems (fun id => ((ids.map entry).find? (·.name == id)).bind Entry.value)
        current other base), (ids.map entry).any (·.conflicted)) := by
    rw [mergeValue.eq_def, hSides, hLeft, hRight]
    simp only [Bool.false_eq_true, if_false]
    split
    · rename_i baseMap baseOrder currentMap currentOrder otherMap otherOrder hb' ha' hc'
      cases hb.symm.trans hb'
      cases ha.symm.trans ha'
      cases hc.symm.trans hc'
      refine congrArg (fun entries : List Entry => (Value.array (keptItems
        (fun id => (entries.find? (·.name == id)).bind Entry.value) (currentMap, currentOrder)
        (otherMap, otherOrder) (baseMap, baseOrder)), entries.any (·.conflicted)))
        (List.map_congr_left fun id _ => ?_)
      have hBelow : s.below (.id id) =
          ⟨.id, baseMap.lookup id, currentMap.lookup id, otherMap.lookup id⟩ := by
        simp only [Spot.below, hBase, hCurrent, hOther, child, Option.bind_some, Value.child, hb, ha,
          hc, Step.place]
      simp only [entry, hBelow, Spot.merge, Spot.effectiveBase]
      split <;> rename_i hA hC <;> simp only [hA, hC]
      · cases baseMap.lookup id <;> rfl
      · rename_i hB
        simp only [hB]
        split <;> rfl
      · rename_i hB
        simp only [hB]
        split <;> rfl
      · rename_i hB
        simp only [hB]
      · rename_i hB
        simp only [hB]
    · rename_i hNone
      exact absurd hc (hNone _ _ _ _ _ _ hb ha)
  have hKeep : (fun id => ((ids.map entry).find? (·.name == id)).bind Entry.value) =
      fun id => (s.below (.id id)).merge.1 := by
    funext id
    refine (find_entry ids _ _ id).trans (ite_eq_left_iff.mpr fun hId => ?_)
    rw [mem_btreeSet, List.mem_append, not_or, List.mem_append, not_or] at hId
    rw [Spot.below_absent]
    · simp only [hCurrent, child, Option.bind_some, Value.child, ha]
      exact lookup_eq_none_of_not_mem hId.1.2
    · simp only [hOther, child, Option.bind_some, Value.child, hc]
      exact lookup_eq_none_of_not_mem hId.2
  rw [Spot.merge, hCurrent, hOther]
  simp only [hBase, Option.getD_some]
  rw [hMerge, hKeep, List.any_map]
  rfl

theorem index_of_ids {items : List Value} {keep : String → Option Value}
    (h : ∀ v ∈ items, ∃ id, v.idOf = some id ∧ keep id = some v) :
    ∃ index, indexArrayOfTablesById items = some index ∧
      ∀ id v, index.1.lookup id = some v ↔ v ∈ items ∧ v.idOf = some id := by
  induction items with
  | nil => exact ⟨_, rfl, fun _ _ => ⟨nofun, fun hMem => nomatch hMem.1⟩⟩
  | cons x rest ih =>
    obtain ⟨index, hIndex, hLookup⟩ := ih fun v hv => h v (List.mem_cons_of_mem x hv)
    obtain ⟨idx, hIdx, hKeep⟩ := h x List.mem_cons_self
    refine ⟨(index.1 ++ [(idx, x)], idx :: index.2), ?_, fun id v => ?_⟩
    · rw [index_cons, hIdx, hIndex]
      rfl
    · rw [List.lookup_append, Option.or_eq_some_iff, hLookup, List.lookup_cons]
      constructor
      · rintro (⟨hMem, hId⟩ | ⟨_, hLast⟩)
        · exact ⟨List.mem_cons_of_mem x hMem, hId⟩
        · rcases eq_or_ne id idx with rfl | hne
          · simp only [beq_self_eq_true, Option.some.injEq] at hLast
            exact ⟨hLast ▸ List.mem_cons_self, hLast ▸ hIdx⟩
          · have hFalse : (id == idx) = false := by simpa using hne
            simp [hFalse] at hLast
      · rintro ⟨hMem, hId⟩
        rcases List.mem_cons.mp hMem with rfl | hRest
        · have hEq : id = idx := Option.some.inj (hId.symm.trans hIdx)
          subst hEq
          cases hOld : index.1.lookup id with
          | none => exact .inr ⟨rfl, by simp⟩
          | some w =>
            obtain ⟨hw, hwId⟩ := (hLookup id w).mp hOld
            obtain ⟨id', hId', hKeep'⟩ := h w (List.mem_cons_of_mem v hw)
            have hEq : id' = id := Option.some.inj (hId'.symm.trans hwId)
            have hv : v = w := Option.some.inj (hKeep.symm.trans (hEq ▸ hKeep'))
            exact .inl ⟨hv ▸ hw, hId⟩
        · exact .inl ⟨hRest, hId⟩

theorem mem_keptItems {keep : String → Option Value}
    {current other base : List (String × Value) × List String} {v : Value}
    (h : v ∈ keptItems keep current other base) : ∃ id, keep id = some v := by
  simp only [keptItems, List.mem_append, List.mem_filterMap] at h
  rcases h with (⟨id, _, hKeep⟩ | ⟨id, _, hKeep⟩) | ⟨id, _, hKeep⟩ <;> exact ⟨id, hKeep⟩

theorem mem_keptItems_of_side {keep : String → Option Value}
    {current other base : List (String × Value) × List String} {id : String} {v : Value}
    (hKeep : keep id = some v) (hCurrent : ∀ w, current.1.lookup id = some w → id ∈ current.2)
    (hOther : ∀ w, other.1.lookup id = some w → id ∈ other.2)
    (h : current.1.lookup id ≠ none ∨ other.1.lookup id ≠ none) :
    v ∈ keptItems keep current other base := by
  simp only [keptItems, List.mem_append, List.mem_filterMap, List.mem_filter]
  cases ha : current.1.lookup id with
  | some w => exact .inl (.inl ⟨id, hCurrent w ha, hKeep⟩)
  | none =>
    obtain ⟨w, hc⟩ := Option.ne_none_iff_exists'.mp (h.resolve_left fun hne => hne ha)
    exact .inl (.inr ⟨id, ⟨hOther w hc, by simp [ha]⟩, hKeep⟩)

theorem idOf_kept {s : Spot} {id : String} {v : Value} (hMerge : s.merge.1 = some v)
    (hCurrent : ∀ a, s.current = some a → a.idOf = some id)
    (hOther : ∀ c, s.other = some c → c.idOf = some id) : v.idOf = some id := by
  unfold Spot.merge at hMerge
  split at hMerge
  · rename_i a c ha hc
    cases hMerge
    exact idOf_mergeValue (hCurrent a ha) (hOther c hc)
  · rename_i a ha hc
    have hv : v = a := by
      split at hMerge
      · split at hMerge <;> cases hMerge
        rfl
      · cases hMerge
        rfl
    rw [hv]
    exact hCurrent a ha
  · rename_i c ha hc
    have hv : v = c := by
      split at hMerge
      · split at hMerge <;> cases hMerge
        rfl
      · cases hMerge
        rfl
    rw [hv]
    exact hOther c hc
  · cases hMerge

theorem Spot.Descends.merge_array {s : Spot} (h : s.Descends)
    (hShape : shapeOf s.current = .keyedArray) :
    ∃ r conflicted, s.merge = (some r, conflicted) ∧ s.Merged r conflicted := by
  obtain ⟨as, current, hCurrent, ha⟩ := array_of_shape hShape
  obtain ⟨cs, other, hOther, hc⟩ := array_of_shape (h.sameOther.trans hShape)
  obtain ⟨bs, base, hBase, hb⟩ := array_of_shape (h.sameBase.trans hShape)
  have hChildCurrent : ∀ id, child s.current (.id id) = current.1.lookup id := by
    intro id
    simp only [hCurrent, child, Option.bind_some, Value.child, ha]
  have hChildOther : ∀ id, child s.other (.id id) = other.1.lookup id := by
    intro id
    simp only [hOther, child, Option.bind_some, Value.child, hc]
  have hKeep : ∀ id v, (s.below (.id id)).merge.1 = some v → v.idOf = some id := by
    intro id v hv
    refine idOf_kept hv (fun a hChild => ?_) fun c hChild => ?_
    · exact (mem_of_index ha (mem_of_lookup ((hChildCurrent id).symm.trans hChild))).2
    · exact (mem_of_index hc (mem_of_lookup ((hChildOther id).symm.trans hChild))).2
  have hKept : ∀ v ∈ keptItems (fun id => (s.below (.id id)).merge.1) current other base,
      ∃ id, v.idOf = some id ∧ (s.below (.id id)).merge.1 = some v := by
    intro v hv
    obtain ⟨id, hId⟩ := mem_keptItems hv
    exact ⟨id, hKeep id v hId, hId⟩
  obtain ⟨index, hIndex, hLookup⟩ := index_of_ids hKept
  have hKey : ∀ key, (s.below (.key key)).merge = (none, false) := by
    intro key
    refine Spot.below_absent ?_ ?_
    · rw [hCurrent]
      rfl
    · rw [hOther]
      rfl
  have hAbsent : ∀ id, current.1.lookup id = none → other.1.lookup id = none →
      (s.below (.id id)).merge = (none, false) := fun id hca hoc =>
    Spot.below_absent ((hChildCurrent id).trans hca) ((hChildOther id).trans hoc)
  refine ⟨_, _, mergeValue_array hBase hCurrent hOther hb ha hc h.toContested, ?_⟩
  constructor
  · rw [hShape, Value.shape, hIndex]
    rfl
  · intro step
    cases step with
    | key key =>
      rw [hKey key]
      rfl
    | id id =>
      rw [Value.child, hIndex]
      refine Option.ext fun v => (hLookup id v).trans ⟨?_, fun hv => ⟨?_, hKeep id v hv⟩⟩
      · rintro ⟨hMem, hId⟩
        obtain ⟨id', hId'⟩ := mem_keptItems hMem
        cases hId.symm.trans (hKeep id' v hId')
        exact hId'
      · refine mem_keptItems_of_side hv (fun _ hw => mem_order ha hw) (fun _ hw => mem_order hc hw) ?_
        by_contra hNone
        rw [not_or, not_not, not_not] at hNone
        rw [hAbsent id hNone.1 hNone.2] at hv
        cases hv
  · rw [List.any_eq_true]
    constructor
    · rintro ⟨id, _, hConflict⟩
      exact ⟨.id id, hConflict⟩
    · rintro ⟨key | id, hConflict⟩
      · rw [hKey key] at hConflict
        cases hConflict
      · refine ⟨id, ?_, hConflict⟩
        by_contra hMem
        rw [mem_btreeSet, List.mem_append, not_or, List.mem_append, not_or] at hMem
        rw [hAbsent id (lookup_eq_none_of_not_mem hMem.1.2) (lookup_eq_none_of_not_mem hMem.2)]
          at hConflict
        cases hConflict

theorem Spot.Descends.merge {s : Spot} (h : s.Descends) :
    ∃ r conflicted, s.merge = (some r, conflicted) ∧ s.Merged r conflicted := by
  cases hShape : shapeOf s.current with
  | leaf => exact absurd hShape h.container
  | table => exact h.merge_table hShape
  | keyedArray => exact h.merge_array hShape

end Exosuit.Merge
