import Mathlib.Data.List.Dedup
import Mathlib.Data.List.Sort
import Exosuit.Merge.Value

/-!
# The three-way merge driver

The structural merge of TOML values that runs before the textual one. The flag
reports a conflict; the caller then discards the merged value.
-/

namespace Exosuit.Merge

/-- The keys that a `BTreeSet` iterates. -/
def btreeSet (keys : List String) : List String := keys.dedup.insertionSort (· ≤ ·)

@[simp] theorem mem_btreeSet {key : String} {keys : List String} :
    key ∈ btreeSet keys ↔ key ∈ keys := by
  rw [btreeSet, List.mem_insertionSort, List.mem_dedup]

def keysOf (entries : List (String × Value)) : List String := entries.map Prod.fst

theorem mem_of_lookup {entries : List (String × Value)} {key : String} {v : Value}
    (h : entries.lookup key = some v) : (key, v) ∈ entries := by
  obtain ⟨l, r, rfl, _⟩ := List.lookup_eq_some_iff.mp h
  exact List.mem_append_right l List.mem_cons_self

theorem mem_of_index {items : List Value} {index : List (String × Value) × List String}
    (h : indexArrayOfTablesById items = some index) {id : String} {v : Value}
    (hMem : (id, v) ∈ index.1) : v ∈ items ∧ v.idOf = some id := by
  induction items generalizing index with
  | nil =>
    cases h
    cases hMem
  | cons x rest ih =>
    rw [index_cons] at h
    obtain ⟨id', hId, hRest⟩ := Option.bind_eq_some_iff.mp h
    obtain ⟨index', hIndex, rfl⟩ := Option.map_eq_some_iff.mp hRest
    rcases List.mem_append.mp hMem with hOld | hNew
    · obtain ⟨hItem, hIdOf⟩ := ih hIndex hOld
      exact ⟨List.mem_cons_of_mem x hItem, hIdOf⟩
    · cases List.mem_singleton.mp hNew
      exact ⟨List.mem_cons_self, hId⟩

theorem sizeOf_lookup {entries : List (String × Value)} {key : String} {v : Value}
    (h : entries.lookup key = some v) : sizeOf v < sizeOf (Value.table entries) := by
  have hMem := List.sizeOf_lt_of_mem (mem_of_lookup h)
  simp only [Prod.mk.sizeOf_spec, Value.table.sizeOf_spec] at hMem ⊢
  omega

theorem sizeOf_index {items : List Value} {index : List (String × Value) × List String}
    (h : indexArrayOfTablesById items = some index) {id : String} {v : Value}
    (hLookup : index.1.lookup id = some v) : sizeOf v < sizeOf (Value.array items) := by
  have hMem := List.sizeOf_lt_of_mem (mem_of_index h (mem_of_lookup hLookup)).1
  simp only [Value.array.sizeOf_spec]
  omega

/-- A key or an id with what the merge keeps under it and whether it conflicts. -/
structure Entry where
  name : String
  value : Option Value
  conflicted : Bool

def mergeValue (base current other : Value) : Value × Bool :=
  if current == other then (current, false)
  else if current == base then (other, false)
  else if other == base then (current, false)
  else match base, current, other with
  | .table b, .table a, .table c =>
    let keys := btreeSet (keysOf b ++ keysOf a ++ keysOf c)
    let entries := keys.map fun key =>
      match _h : a.lookup key, c.lookup key with
      | some av, some cv =>
        let merged := mergeValue ((b.lookup key).getD .emptyTable) av cv
        Entry.mk key (some merged.1) merged.2
      | some av, none =>
        match b.lookup key with
        | some original => if av == original then ⟨key, none, false⟩ else ⟨key, some av, true⟩
        | none => ⟨key, some av, false⟩
      | none, some cv =>
        match b.lookup key with
        | some original => if cv == original then ⟨key, none, false⟩ else ⟨key, some cv, true⟩
        | none => ⟨key, some cv, false⟩
      | none, none => ⟨key, none, false⟩
    (.table (entries.filterMap fun e => e.value.map fun v => (e.name, v)), entries.any (·.conflicted))
  | .array base, .array current, .array other =>
    match indexArrayOfTablesById base, _hIndex : indexArrayOfTablesById current,
      indexArrayOfTablesById other with
    | some (baseMap, baseOrder), some (currentMap, currentOrder), some (otherMap, otherOrder) =>
      let ids := btreeSet (keysOf baseMap ++ keysOf currentMap ++ keysOf otherMap)
      let entries := ids.map fun id =>
        match baseMap.lookup id, _h : currentMap.lookup id, otherMap.lookup id with
        | b, some a, some c =>
          let merged := mergeValue (b.getD a) a c
          Entry.mk id (some merged.1) merged.2
        | some b, some a, none => if a == b then ⟨id, none, false⟩ else ⟨id, some a, true⟩
        | some b, none, some c => if c == b then ⟨id, none, false⟩ else ⟨id, some c, true⟩
        | none, some a, none => ⟨id, some a, false⟩
        | none, none, some c => ⟨id, some c, false⟩
        | _, none, none => ⟨id, none, false⟩
      let keep := fun id => (entries.find? (·.name == id)).bind Entry.value
      let out := currentOrder.filterMap keep ++
        (otherOrder.filter fun id => !(currentMap.lookup id).isSome).filterMap keep ++
        (baseOrder.filter fun id =>
          !((currentMap.lookup id).isSome || (otherMap.lookup id).isSome)).filterMap keep
      (.array out, entries.any (·.conflicted))
    | _, _, _ => (.array current, true)
  | _, current, _ => (current, true)
termination_by sizeOf current
decreasing_by
  · exact sizeOf_lookup _h
  · exact sizeOf_index _hIndex _h

end Exosuit.Merge
