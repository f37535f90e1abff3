import Mathlib.Data.List.Sort
import Mathlib.Data.List.Nodup

/-!
# Tables of rows

A row has a numeric row id, a text id, and the rest of its columns. Both ids are
unique in a table, by construction.
-/

namespace Exosuit.Lib

universe u

structure Row (δ : Type u) where
  id : Nat
  textId : String
  data : δ
deriving DecidableEq, Repr

structure Rows (δ : Type u) where
  rows : List (Row δ)
  nodup_id : (rows.map Row.id).Nodup
  nodup_textId : (rows.map Row.textId).Nodup

namespace Rows

variable {δ : Type u} {t : Rows δ} {r r' : Row δ}

@[ext] theorem ext {t t' : Rows δ} (h : t.rows = t'.rows) : t = t' := by
  cases t
  cases t'
  cases h
  rfl

instance [DecidableEq δ] : DecidableEq (Rows δ) := fun t t' =>
  decidable_of_iff (t.rows = t'.rows) ⟨ext, fun h => h ▸ rfl⟩

instance : Membership (Row δ) (Rows δ) := ⟨fun t r => r ∈ t.rows⟩

theorem mem_rows : r ∈ t.rows ↔ r ∈ t := Iff.rfl

def empty : Rows δ := ⟨[], List.nodup_nil, List.nodup_nil⟩

theorem eq_of_id (hr : r ∈ t) (hr' : r' ∈ t) (h : r.id = r'.id) : r = r' :=
  List.inj_on_of_nodup_map t.nodup_id hr hr' h

theorem eq_of_textId (hr : r ∈ t) (hr' : r' ∈ t) (h : r.textId = r'.textId) : r = r' :=
  List.inj_on_of_nodup_map t.nodup_textId hr hr' h

/-! ## Lookups -/

def byTextId (t : Rows δ) (textId : String) : Option (Row δ) :=
  t.rows.find? fun r => r.textId = textId

def byId (t : Rows δ) (id : Nat) : Option (Row δ) := t.rows.find? fun r => r.id = id

theorem byTextId_eq_some {textId : String} :
    t.byTextId textId = some r ↔ r ∈ t ∧ r.textId = textId := by
  constructor
  · intro h
    exact ⟨List.mem_of_find?_eq_some h, by simpa using List.find?_some h⟩
  · rintro ⟨hr, rfl⟩
    cases h : t.byTextId r.textId with
    | none => simpa using List.find?_eq_none.mp h r hr
    | some r' =>
      have hr' : r'.textId = r.textId := by simpa using List.find?_some h
      rw [eq_of_textId (List.mem_of_find?_eq_some h) hr hr']

theorem byId_eq_some {id : Nat} : t.byId id = some r ↔ r ∈ t ∧ r.id = id := by
  constructor
  · intro h
    exact ⟨List.mem_of_find?_eq_some h, by simpa using List.find?_some h⟩
  · rintro ⟨hr, rfl⟩
    cases h : t.byId r.id with
    | none => simpa using List.find?_eq_none.mp h r hr
    | some r' =>
      have hr' : r'.id = r.id := by simpa using List.find?_some h
      rw [eq_of_id (List.mem_of_find?_eq_some h) hr hr']

theorem byTextId_eq_none {textId : String} :
    t.byTextId textId = none ↔ ∀ r ∈ t, r.textId ≠ textId := by
  simp [byTextId, mem_rows]

theorem byId_eq_none {id : Nat} : t.byId id = none ↔ ∀ r ∈ t, r.id ≠ id := by
  simp [byId, mem_rows]

/-! ## Updates -/

/-- The row id that an insertion takes: one above the largest. -/
def nextId (t : Rows δ) : Nat := t.rows.foldr (fun r n => max (r.id + 1) n) 1

theorem lt_nextId (h : r ∈ t) : r.id < t.nextId := by
  have key : ∀ l : List (Row δ), r ∈ l → r.id < l.foldr (fun r n => max (r.id + 1) n) 1 := by
    intro l hl
    induction l with
    | nil => cases hl
    | cons a l ih =>
      rw [List.foldr_cons]
      rcases List.mem_cons.mp hl with rfl | hl
      · omega
      · have := ih hl
        omega
  exact key t.rows h

def insert (t : Rows δ) (textId : String) (data : δ) : Option (Rows δ) :=
  if h : t.byTextId textId = none then
    some
      { rows := t.rows ++ [⟨t.nextId, textId, data⟩]
        nodup_id := by
          rw [List.map_append, List.map_singleton]
          refine List.nodup_append.mpr ⟨t.nodup_id, List.nodup_singleton _, ?_⟩
          rintro a ha b hb rfl
          obtain ⟨r, hr, hra⟩ := List.mem_map.mp ha
          exact (lt_nextId hr).ne (hra.trans (List.mem_singleton.mp hb))
        nodup_textId := by
          rw [List.map_append, List.map_singleton]
          refine List.nodup_append.mpr ⟨t.nodup_textId, List.nodup_singleton _, ?_⟩
          rintro a ha b hb rfl
          obtain ⟨r, hr, hra⟩ := List.mem_map.mp ha
          exact byTextId_eq_none.mp h r hr (hra.trans (List.mem_singleton.mp hb)) }
  else none

def filter (p : Row δ → Bool) (t : Rows δ) : Rows δ where
  rows := t.rows.filter p
  nodup_id := t.nodup_id.sublist (List.filter_sublist.map _)
  nodup_textId := t.nodup_textId.sublist (List.filter_sublist.map _)

/-- Rewrites the other columns of the rows that meet `p`. -/
def update (p : Row δ → Bool) (f : δ → δ) (t : Rows δ) : Rows δ where
  rows := t.rows.map fun r => if p r then { r with data := f r.data } else r
  nodup_id := by
    rw [List.map_map]
    convert t.nodup_id using 2
    funext r
    dsimp only [Function.comp]
    split <;> rfl
  nodup_textId := by
    rw [List.map_map]
    convert t.nodup_textId using 2
    funext r
    dsimp only [Function.comp]
    split <;> rfl

/-- Gives the row `id` another text id, unless a different row has it. -/
def setTextId (t : Rows δ) (id : Nat) (textId : String) : Option (Rows δ) :=
  if h : ∀ r ∈ t.rows, r.textId = textId → r.id = id then
    some
      { rows := t.rows.map fun r => if r.id = id then { r with textId } else r
        nodup_id := by
          rw [List.map_map]
          convert t.nodup_id using 2
          funext r
          dsimp only [Function.comp]
          split <;> rfl
        nodup_textId := by
          rw [List.map_map]
          refine (List.nodup_map_iff_inj_on (List.Nodup.of_map _ t.nodup_id)).mpr ?_
          intro a ha b hb hEq
          dsimp only [Function.comp] at hEq
          split at hEq
          · next hId =>
            split at hEq
            · next hId' => exact eq_of_id ha hb (hId.trans hId'.symm)
            · exact eq_of_id ha hb (hId.trans (h b hb hEq.symm).symm)
          · split at hEq
            · next hId' => exact eq_of_id ha hb ((h a ha hEq).trans hId'.symm)
            · exact eq_of_textId ha hb hEq }
  else none

theorem insert_eq_some {t' : Rows δ} {textId : String} {data : δ} :
    t.insert textId data = some t' ↔
      t.byTextId textId = none ∧ t'.rows = t.rows ++ [⟨t.nextId, textId, data⟩] := by
  rw [insert]
  split
  · next h =>
    rw [Option.some_inj]
    exact ⟨fun hEq => hEq ▸ ⟨h, rfl⟩, fun hEq => ext hEq.2.symm⟩
  · next h => exact ⟨nofun, fun hEq => absurd hEq.1 h⟩

theorem mem_of_insert {t' : Rows δ} {textId : String} {data : δ}
    (h : t.insert textId data = some t') :
    r ∈ t' ↔ r ∈ t ∨ r = ⟨t.nextId, textId, data⟩ := by
  rw [← mem_rows, (insert_eq_some.mp h).2, List.mem_append, List.mem_singleton, mem_rows]

theorem mem_filter {p : Row δ → Bool} : r ∈ t.filter p ↔ r ∈ t ∧ p r = true := List.mem_filter

theorem mem_update {p : Row δ → Bool} {f : δ → δ} :
    r ∈ t.update p f ↔ ∃ a ∈ t, r = if p a then { a with data := f a.data } else a := by
  rw [← mem_rows, update, List.mem_map]
  simp only [eq_comm, mem_rows]

theorem mem_update_of_mem {p : Row δ → Bool} {f : δ → δ} (hr : r ∈ t) (hp : p r = true) :
    { r with data := f r.data } ∈ t.update p f :=
  mem_update.mpr ⟨r, hr, (if_pos hp).symm⟩

theorem eq_of_mem_update {p : Row δ → Bool} {f : δ → δ} (hr : r ∈ t) (hr' : r' ∈ t.update p f)
    (hId : r'.id = r.id) : r' = if p r then { r with data := f r.data } else r := by
  obtain ⟨a, ha, rfl⟩ := mem_update.mp hr'
  have hSame : a.id = r.id := by
    rw [← hId]
    split <;> rfl
  rw [eq_of_id ha hr hSame]

theorem update_update {p : Row δ → Bool} {f g : δ → δ}
    (hp : ∀ r : Row δ, p { r with data := f r.data } = p r) :
    (t.update p f).update p g = t.update p fun data => g (f data) := by
  refine ext ?_
  dsimp only [update]
  rw [List.map_map]
  refine List.map_congr_left fun r _ => ?_
  rw [Function.comp_apply]
  split
  · next h => rw [if_pos ((hp r).trans h)]
  · rfl

theorem byId_update (p : Row δ → Bool) (f : δ → δ) (id : Nat) :
    (t.update p f).byId id = (t.byId id).map fun r => if p r then { r with data := f r.data } else r := by
  rw [byId, update, List.find?_map, byId]
  congr 2
  funext r
  dsimp only [Function.comp]
  split <;> rfl

theorem byId_update_of_false {p : Row δ → Bool} {f : δ → δ} {id : Nat} (hr : t.byId id = some r)
    (hp : p r = false) : (t.update p f).byId id = some r := by
  rw [byId_update, hr, Option.map_some, hp]
  rfl

theorem byTextId_update (p : Row δ → Bool) (f : δ → δ) (textId : String) :
    (t.update p f).byTextId textId =
      (t.byTextId textId).map fun r => if p r then { r with data := f r.data } else r := by
  rw [byTextId, update, List.find?_map, byTextId]
  congr 2
  funext r
  dsimp only [Function.comp]
  split <;> rfl

theorem byId_filter (p : Row δ → Bool) (id : Nat) : (t.filter p).byId id = (t.byId id).filter p := by
  ext r
  rw [byId_eq_some, mem_filter, Option.filter_eq_some_iff, byId_eq_some, and_right_comm]

theorem byId_insert {t' : Rows δ} {textId : String} {data : δ} (h : t.insert textId data = some t')
    (hr : t.byId r.id = some r) : t'.byId r.id = some r :=
  byId_eq_some.mpr ⟨(mem_of_insert h).mpr (.inl (byId_eq_some.mp hr).1), rfl⟩

theorem setTextId_eq_some {t' : Rows δ} {id : Nat} {textId : String} :
    t.setTextId id textId = some t' ↔
      (∀ r ∈ t, r.textId = textId → r.id = id) ∧
        t'.rows = t.rows.map fun r => if r.id = id then { r with textId } else r := by
  rw [setTextId]
  split
  · next h =>
    rw [Option.some_inj]
    exact ⟨fun hEq => hEq ▸ ⟨h, rfl⟩, fun hEq => ext hEq.2.symm⟩
  · next h => exact ⟨nofun, fun hEq => absurd hEq.1 h⟩

theorem mem_of_setTextId {t' : Rows δ} {id : Nat} {textId : String}
    (h : t.setTextId id textId = some t') :
    r ∈ t' ↔ ∃ a ∈ t, r = if a.id = id then { a with textId } else a := by
  rw [← mem_rows, (setTextId_eq_some.mp h).2, List.mem_map]
  simp only [eq_comm, mem_rows]

theorem byId_setTextId {t' : Rows δ} {id : Nat} {textId : String} (h : t.setTextId id textId = some t')
    (k : Nat) : t'.byId k = (t.byId k).map fun r => if r.id = id then { r with textId } else r := by
  rw [byId, (setTextId_eq_some.mp h).2, List.find?_map, byId]
  congr 2
  funext r
  dsimp only [Function.comp]
  split <;> rfl

/-! ## Row ids -/

def ids (t : Rows δ) : List Nat := t.rows.map Row.id

theorem mem_ids {id : Nat} : id ∈ t.ids ↔ ∃ r ∈ t, r.id = id := List.mem_map

@[simp] theorem ids_update (p : Row δ → Bool) (f : δ → δ) (t : Rows δ) : (t.update p f).ids = t.ids := by
  rw [ids, update, List.map_map, ids]
  refine List.map_congr_left fun r _ => ?_
  dsimp only [Function.comp]
  split <;> rfl

theorem ids_setTextId {t' : Rows δ} {id : Nat} {textId : String} (h : t.setTextId id textId = some t') :
    t'.ids = t.ids := by
  rw [ids, (setTextId_eq_some.mp h).2, List.map_map, ids]
  refine List.map_congr_left fun r _ => ?_
  dsimp only [Function.comp]
  split <;> rfl

theorem mem_ids_insert {t' : Rows δ} {textId : String} {data : δ} (h : t.insert textId data = some t')
    {id : Nat} : id ∈ t'.ids ↔ id ∈ t.ids ∨ id = t.nextId := by
  rw [ids, (insert_eq_some.mp h).2, List.map_append, List.mem_append, List.map_singleton,
    List.mem_singleton]
  rfl

theorem byTextId_insert {t' : Rows δ} {textId : String} {data : δ} (h : t.insert textId data = some t') :
    t'.byTextId textId = some ⟨t.nextId, textId, data⟩ :=
  byTextId_eq_some.mpr ⟨(mem_of_insert h).mpr (.inr rfl), rfl⟩

/-- A row that a deletion takes meets its condition. -/
theorem exists_of_notMem_filter {p : Row δ → Bool} {id : Nat} (h : id ∈ t.ids) (h' : id ∉ (t.filter p).ids) :
    ∃ r, t.byId id = some r ∧ p r = false := by
  obtain ⟨r, hr, hId⟩ := mem_ids.mp h
  refine ⟨r, byId_eq_some.mpr ⟨hr, hId⟩, Bool.eq_false_of_not_eq_true fun hp => h' ?_⟩
  exact mem_ids.mpr ⟨r, mem_filter.mpr ⟨hr, hp⟩, hId⟩

end Rows

/-! ## ORDER BY -/

/-- The rows in the order of `le`, rows of equal keys as they were. -/
def orderBy {α : Type u} (le : α → α → Bool) (l : List α) : List α :=
  l.insertionSort fun a b => le a b = true

theorem mem_orderBy {α : Type u} {le : α → α → Bool} {l : List α} {a : α} :
    a ∈ orderBy le l ↔ a ∈ l := List.mem_insertionSort _

end Exosuit.Lib
