import Exosuit.Storage.SnapshotImport

/-!
# Renumbering a database

The rows of every table get new rowids, in the order of the dump, and so do the rowids that other
rows hold. The constraints do not see the difference, and neither does the dump.
-/

namespace Exosuit.Dump

open Lib Projection

section

variable (db : Tables)

def namesEntity : Row → Bool
  | [(_, .text entityType), (_, .integer rowid), _] =>
    ((entityTable entityType).bind fun parent => idMap (db parent) rowid).isSome
  | _ => false

/-- The rows that are dumped: all but the aliases that name nothing. -/
def kept (table : String) : List Stored :=
  (db table).filter fun stored => table ≠ "entity_aliases" || namesEntity db stored.2

def writtenRow (table : String) (stored : Stored) : Row :=
  dumpedRow (fun parent => idMap (db parent)) table stored.2

def inDumpOrder (table : String) : List Stored :=
  (kept db table).mergeSort fun stored stored' =>
    notAfter (sortCols table) (writtenRow db table stored) (writtenRow db table stored')

def newRowid (table : String) (rowid : Int64) : Int64 :=
  Int64.ofNat ((inDumpOrder db table).findIdx (fun stored => stored.1 = rowid) + 1)

def referent (table : String) (row : Row) (column : String) : Option String :=
  if table = "entity_aliases" then
    if column = "entity_id" then
      match value row "entity_type" with
      | .text entityType => entityTable entityType
      | _ => none
    else none
  else if column ∈ (renamesOf table).map Prod.fst then some (fkTable column) else none

def renumberValue (f : Int64 → Int64) : SqlValue → SqlValue
  | .integer rowid => .integer (f rowid)
  | v => v

def renumberColumn (table : String) (row : Row) (column : String) (v : SqlValue) : SqlValue :=
  (referent table row column).elim v fun parent => renumberValue (newRowid db parent) v

def renumberedRow (table : String) (row : Row) : Row :=
  row.map fun e => (e.1, renumberColumn db table row e.1 e.2)

def renumbered : Tables := fun table =>
  if table ∈ schema.map TableSchema.name then
    numbered ((inDumpOrder db table).map fun stored => renumberedRow db table stored.2)
  else []

end

/-! ## New rowids -/

theorem numbered_nodup {rows : List Row} (hRoom : Room rows.length) : ((numbered rows).map Prod.fst).Nodup := by
  have hIds : (numbered rows).map Prod.fst = (List.range rows.length).map fun i => Int64.ofNat (i + 1) := by
    rw [numbered, List.map_map, List.range_eq_range', ← List.zipIdx_map_snd 0 rows, List.map_map]
    rfl
  rw [hIds]
  refine List.Nodup.map_on (fun i hi j hj hSame => ?_) List.nodup_range
  rw [Room] at hRoom
  have hInt := congrArg Int64.toInt hSame
  rw [List.mem_range] at hi hj
  rw [Int64.toInt_ofNat_of_lt (by omega), Int64.toInt_ofNat_of_lt (by omega)] at hInt
  omega

variable {db : Tables} {table : String}

theorem mem_inDumpOrder {stored : Stored} : stored ∈ inDumpOrder db table ↔ stored ∈ kept db table :=
  List.mem_mergeSort

theorem mem_of_kept {stored : Stored} (h : stored ∈ kept db table) : stored ∈ db table := (List.mem_filter.mp h).1

theorem kept_of_ne (hTable : table ≠ "entity_aliases") : kept db table = db table := by
  rw [kept, List.filter_eq_self]
  intro stored _
  rw [decide_eq_true hTable, Bool.true_or]

theorem length_inDumpOrder_le : (inDumpOrder db table).length ≤ (db table).length := by
  rw [inDumpOrder, List.length_mergeSort]
  exact List.length_filter_le _ _

theorem keyed_mem_schema (hKeyed : table ∈ keyedTables) : table ∈ schema.map TableSchema.name := by
  obtain ⟨s, hs, rfl, -⟩ := keyed_schema hKeyed
  exact List.mem_map_of_mem hs

theorem keyed_ne_aliases (hKeyed : table ∈ keyedTables) : table ≠ "entity_aliases" := by
  rintro rfl
  exact absurd hKeyed (by simp [keyedTables])

theorem getElem_findIdx {rows : List Stored} (hNodup : (rows.map Prod.fst).Nodup) {stored : Stored}
    (hStored : stored ∈ rows) : rows[rows.findIdx fun other => other.1 = stored.1]? = some stored := by
  have hLt : rows.findIdx (fun other => decide (other.1 = stored.1)) < rows.length :=
    List.findIdx_lt_length_of_exists ⟨stored, hStored, decide_eq_true rfl⟩
  have hId := of_decide_eq_true (List.findIdx_getElem (w := hLt))
  rw [List.getElem?_eq_getElem hLt]
  exact congrArg some (List.inj_on_of_nodup_map hNodup (List.getElem_mem hLt) hStored hId)

theorem getElem_numbered {rows : List Row} {i : Nat} {row : Row} (h : rows[i]? = some row) :
    (Int64.ofNat (i + 1), row) ∈ numbered rows := by
  rw [numbered, List.mem_map]
  exact ⟨(row, i), List.mem_iff_getElem?.mpr ⟨i, by rw [List.getElem?_zipIdx, h, Nat.zero_add]; rfl⟩, rfl⟩

theorem exists_of_mem_renumbered {e : Stored} (h : e ∈ renumbered db table) :
    ∃ stored ∈ inDumpOrder db table, e.2 = renumberedRow db table stored.2 := by
  rw [renumbered] at h
  split at h
  · have hRow := List.mem_map_of_mem (f := Prod.snd) h
    rw [map_snd_numbered] at hRow
    obtain ⟨stored, hStored, hEq⟩ := List.mem_map.mp hRow
    exact ⟨stored, hStored, hEq.symm⟩
  · cases h

section

variable (hDb : Admitted db) (hTable : table ∈ schema.map TableSchema.name)
include hDb hTable

theorem inDumpOrder_nodup : ((inDumpOrder db table).map Prod.fst).Nodup := by
  obtain ⟨s, hs, rfl⟩ := List.mem_map.mp hTable
  have hPerm := (List.mergeSort_perm (kept db s.name) fun stored stored' =>
    notAfter (sortCols s.name) (writtenRow db s.name stored) (writtenRow db s.name stored')).map Prod.fst
  exact hPerm.nodup_iff.mpr ((hDb.rowids s hs).sublist (List.filter_sublist.map _))

theorem mem_renumbered {stored : Stored} (hStored : stored ∈ inDumpOrder db table) :
    (newRowid db table stored.1, renumberedRow db table stored.2) ∈ renumbered db table := by
  have hRow := getElem_findIdx (inDumpOrder_nodup hDb hTable) hStored
  rw [renumbered, if_pos hTable, newRowid]
  exact getElem_numbered (by rw [List.getElem?_map, hRow, Option.map_some])

theorem newRowid_inj (hRoom : Room (db table).length) {stored stored' : Stored} (hStored : stored ∈ inDumpOrder db table)
    (hStored' : stored' ∈ inDumpOrder db table) (hSame : newRowid db table stored.1 = newRowid db table stored'.1) :
    stored = stored' := by
  have hNodup := inDumpOrder_nodup hDb hTable
  have hRow := getElem_findIdx hNodup hStored
  have hRow' := getElem_findIdx hNodup hStored'
  have hLt := (List.getElem?_eq_some_iff.mp hRow).1
  have hLt' := (List.getElem?_eq_some_iff.mp hRow').1
  have hLe : (inDumpOrder db table).length ≤ (db table).length := length_inDumpOrder_le
  rw [Room] at hRoom
  have hInt := congrArg Int64.toInt hSame
  rw [newRowid, newRowid, Int64.toInt_ofNat_of_lt (by omega), Int64.toInt_ofNat_of_lt (by omega)] at hInt
  have hIndex : (inDumpOrder db table).findIdx (fun other => decide (other.1 = stored.1)) =
      (inDumpOrder db table).findIdx fun other => decide (other.1 = stored'.1) := by omega
  rw [hIndex] at hRow
  exact Option.some.inj (hRow.symm.trans hRow')

end

theorem renumbered_nodup (hTable : table ∈ schema.map TableSchema.name) (hRoom : Room (db table).length) :
    ((renumbered db table).map Prod.fst).Nodup := by
  rw [renumbered, if_pos hTable]
  refine numbered_nodup ?_
  have hLe : (inDumpOrder db table).length ≤ (db table).length := length_inDumpOrder_le
  rw [Room] at hRoom ⊢
  rw [List.length_map]
  omega

/-! ## Renumbered rows -/

theorem lookup_map_value {f : String → SqlValue → SqlValue} (row : Row) (c : String) :
    (row.map fun e => (e.1, f e.1 e.2)).lookup c = (row.lookup c).map (f c) := by
  induction row with
  | nil => rfl
  | cons e row ih =>
    rw [List.map_cons, List.lookup_cons, List.lookup_cons, ih]
    by_cases hName : c = e.1
    · rw [hName, beq_self_eq_true]
      rfl
    · rw [beq_eq_false_iff_ne.mpr hName]

theorem renumberColumn_null (row : Row) (c : String) : renumberColumn db table row c .null = .null := by
  rw [renumberColumn]
  cases referent table row c <;> rfl

theorem value_renumberedRow (row : Row) (c : String) :
    value (renumberedRow db table row) c = renumberColumn db table row c (value row c) := by
  rw [value, renumberedRow, lookup_map_value, value]
  cases row.lookup c with
  | none => exact (renumberColumn_null row c).symm
  | some v => rfl

theorem names_renumberedRow (row : Row) : (renumberedRow db table row).map Prod.fst = row.map Prod.fst := by
  rw [renumberedRow, List.map_map]
  rfl

theorem mem_renamesOf {table : String} {rename : String × String} (h : rename ∈ renamesOf table) :
    ∃ t ∈ dumpedTables, t.table = table ∧ rename ∈ t.fkRenames := by
  rw [renamesOf] at h
  cases hFind : dumpedTables.find? fun t => decide (t.table = table) with
  | none =>
    rw [hFind] at h
    cases h
  | some t =>
    rw [hFind] at h
    exact ⟨t, List.mem_of_find?_eq_some hFind, of_decide_eq_true (List.find?_eq_some_iff_append.mp hFind).1, h⟩

/-- A column that no foreign key uses refers to nothing. -/
theorem referent_eq_none {column : String} (hEntity : column ≠ "entity_id")
    (hPlain : (dumpedTables.all fun t => t.fkRenames.all fun rename => decide (rename.1 ≠ column)) = true)
    (table : String) (row : Row) : referent table row column = none := by
  have hFk : column ∉ (renamesOf table).map Prod.fst := by
    intro hMem
    obtain ⟨rename, hRename, hName⟩ := List.mem_map.mp hMem
    obtain ⟨t, ht, -, hFk⟩ := mem_renamesOf hRename
    exact of_decide_eq_true (List.all_eq_true.mp (List.all_eq_true.mp hPlain t ht) rename hFk) hName
  rw [referent, if_neg hEntity, if_neg hFk, ite_self]

theorem referent_text_id (table : String) (row : Row) : referent table row "text_id" = none :=
  referent_eq_none (by simp) (by simp [dumpedTables]) table row

theorem referent_stage (table : String) (row : Row) : referent table row "stage" = none :=
  referent_eq_none (by simp) (by simp [dumpedTables]) table row

theorem textId_renumberedRow (row : Row) : textId (renumberedRow db table row) = textId row := by
  rw [textId, textId, value_renumberedRow, renumberColumn, referent_text_id]
  rfl

theorem mem_inDumpOrder_of_keyed (hKeyed : table ∈ keyedTables) {stored : Stored} (hStored : stored ∈ db table) :
    stored ∈ inDumpOrder db table := by
  rw [mem_inDumpOrder, kept_of_ne (keyed_ne_aliases hKeyed)]
  exact hStored

theorem idMap_renumbered (hDb : Admitted db) (hKeyed : table ∈ keyedTables) (hRoom : Room (db table).length)
    {stored : Stored} (hStored : stored ∈ db table) :
    idMap (renumbered db table) (newRowid db table stored.1) = idMap (db table) stored.1 := by
  have hTable := keyed_mem_schema hKeyed
  have hMem := mem_renumbered hDb hTable (mem_inDumpOrder_of_keyed hKeyed hStored)
  rw [idMap_eq hDb hKeyed hStored, idMap, find_of_unique hMem (decide_eq_true rfl), Option.bind_some,
    textId_renumberedRow]
  intro other hOther hSame
  exact List.inj_on_of_nodup_map (renumbered_nodup hTable hRoom) hOther hMem (of_decide_eq_true hSame)

/-! ## The constraints -/

theorem admits_renumberValue {c : Column} {v : SqlValue} (hCheck : c.affinity = .integer → ∀ v, c.check v = true)
    (f : Int64 → Int64) (h : c.admits v = true) : c.admits (renumberValue f v) = true := by
  cases v with
  | null => exact h
  | text id => exact h
  | integer rowid =>
    rw [Column.admits, Bool.and_eq_true, decide_eq_true_eq] at h
    rw [renumberValue, Column.admits, Bool.and_eq_true, decide_eq_true_eq]
    exact ⟨h.1, hCheck h.1 _⟩

theorem check_integer {s : TableSchema} (hs : s ∈ schema) {c : Column} (hc : c ∈ s.columns)
    (hStage : c.name ≠ "stage") (hInteger : c.affinity = .integer) (v : SqlValue) : c.check v = true := by
  have hAll : ∀ s ∈ schema, ∀ c ∈ s.columns, c.affinity = .integer → c.name = "stage" ∨ ∀ v, c.check v = true := by
    simp [schema, text, nullable, key, textDefault, choice]
  exact (hAll s hs c hc hInteger).resolve_left hStage v

theorem check_row {s : TableSchema} (hs : s ∈ schema) (hInbox : s.name ≠ "inbox_data") (row : Row) :
    s.check row = true := by
  have hAll : ∀ s ∈ schema, s.name = "inbox_data" ∨ ∀ row, s.check row = true := by
    simp [schema]
  exact (hAll s hs).resolve_left hInbox row

theorem renumberedRow_inbox (row : Row) : renumberedRow db "inbox_data" row = row := by
  have hNone : renamesOf "inbox_data" = [] := by simp [renamesOf, dumpedTables]
  rw [renumberedRow, List.map_congr_left (g := id), List.map_id]
  intro e _
  rw [renumberColumn, referent, if_neg (by simp), if_neg (by rw [hNone]; exact List.not_mem_nil)]
  rfl

theorem wellTyped_renumberedRow {s : TableSchema} (hs : s ∈ schema) {row : Row} (h : s.wellTyped row = true) :
    s.wellTyped (renumberedRow db s.name row) = true := by
  by_cases hInbox : s.name = "inbox_data"
  · rw [hInbox, renumberedRow_inbox]
    exact h
  · have hAdmits : ∀ c ∈ s.columns, c.admits (value (renumberedRow db s.name row) c.name) = true := by
      intro c hc
      have hOld := admits_of_wellTyped h hc
      rw [value_renumberedRow, renumberColumn]
      cases hReferent : referent s.name row c.name with
      | none => exact hOld
      | some parent =>
        have hStage : c.name ≠ "stage" := by
          intro hName
          rw [hName, referent_stage] at hReferent
          cases hReferent
        exact admits_renumberValue (check_integer hs hc hStage) _ hOld
    rw [TableSchema.wellTyped, names_renumberedRow, names_of_wellTyped h, check_row hs hInbox,
      List.all_eq_true.mpr hAdmits, decide_eq_true rfl]
    rfl

theorem referent_of_describes {s : TableSchema} {t : DumpedTable} (ht : Describes t s)
    (hAlias : s.name ≠ "entity_aliases") (row : Row) (c : String) :
    referent s.name row c = if c ∈ t.fkRenames.map Prod.fst then some (fkTable c) else none := by
  rw [referent, if_neg hAlias, ht.renames]

theorem unique_ne_entity_id {s : TableSchema} (hs : s ∈ schema) {columns : List String} (hColumns : columns ∈ s.unique)
    {c : String} (hc : c ∈ columns) : c ≠ "entity_id" := by
  have hAll : (schema.all fun s => s.unique.all fun columns => columns.all fun c => decide (c ≠ "entity_id")) =
      true := by simp [schema]
  exact of_decide_eq_true
    (List.all_eq_true.mp (List.all_eq_true.mp (List.all_eq_true.mp hAll s hs) columns hColumns) c hc)

section

variable (hDb : Admitted db) (hRoom : ∀ table, Room (db table).length) {s : TableSchema} (hs : s ∈ schema)
include hDb hs

theorem exists_renumbered_parent {t : DumpedTable} (ht : Describes t s) (hAlias : s.name ≠ "entity_aliases")
    {stored : Stored} (hStored : stored ∈ db s.name) {c : String} (hc : c ∈ t.fkRenames.map Prod.fst) :
    ∃ row ∈ db (fkTable c), value stored.2 c = .integer row.1 ∧
      value (renumberedRow db s.name stored.2) c = .integer (newRowid db (fkTable c) row.1) := by
  obtain ⟨row, hRow, hValue⟩ := exists_parent hDb hs ht hStored hc
  refine ⟨row, hRow, hValue, ?_⟩
  rw [value_renumberedRow, renumberColumn, referent_of_describes ht hAlias, if_pos hc, hValue]
  rfl

theorem resolves_renumberedRow {stored : Stored} (hStored : stored ∈ db s.name) :
    s.resolves (renumbered db) (renumberedRow db s.name stored.2) = true := by
  rw [resolves_iff]
  intro c hc parent hParent rowid hRowid
  by_cases hAlias : s.name = "entity_aliases"
  · rw [references_aliases hs hAlias hc] at hParent
    cases hParent
  · obtain ⟨t, ht⟩ := exists_describes hs hAlias
    have hReference := ht.references c hc
    rw [hParent] at hReference
    split at hReference
    · next hFk =>
      obtain ⟨row, hRow, -, hNew⟩ := exists_renumbered_parent hDb hs ht hAlias hStored hFk
      obtain rfl := Option.some.inj hReference
      rw [hNew, SqlValue.integer.injEq] at hRowid
      have hKeyed := (ht.keyed c.name hFk).2
      exact ⟨_, mem_renumbered hDb (keyed_mem_schema hKeyed) (mem_inDumpOrder_of_keyed hKeyed hRow), hRowid⟩
    · cases hReference

include hRoom

theorem value_eq_of_renumbered {stored stored' : Stored} (hStored : stored ∈ db s.name)
    (hStored' : stored' ∈ db s.name) {c : String} (hc : c ≠ "entity_id")
    (hSame : value (renumberedRow db s.name stored.2) c = value (renumberedRow db s.name stored'.2) c) :
    value stored.2 c = value stored'.2 c := by
  by_cases hAlias : s.name = "entity_aliases"
  · rw [hAlias] at hSame
    simpa only [value_renumberedRow, renumberColumn, referent, hc, if_true, if_false, Option.elim_none] using hSame
  · obtain ⟨t, ht⟩ := exists_describes hs hAlias
    by_cases hFk : c ∈ t.fkRenames.map Prod.fst
    · obtain ⟨row, hRow, hValue, hNew⟩ := exists_renumbered_parent hDb hs ht hAlias hStored hFk
      obtain ⟨row', hRow', hValue', hNew'⟩ := exists_renumbered_parent hDb hs ht hAlias hStored' hFk
      have hKeyed := (ht.keyed c hFk).2
      rw [hNew, hNew', SqlValue.integer.injEq] at hSame
      have hRows := newRowid_inj hDb (keyed_mem_schema hKeyed) (hRoom _) (mem_inDumpOrder_of_keyed hKeyed hRow)
        (mem_inDumpOrder_of_keyed hKeyed hRow') hSame
      rw [hValue, hValue', hRows]
    · simpa only [value_renumberedRow, renumberColumn, referent_of_describes ht hAlias, hFk, if_false,
        Option.elim_none] using hSame

theorem apart_renumberedRow {stored stored' : Stored} (hStored : stored ∈ db s.name) (hStored' : stored' ∈ db s.name)
    (hApart : s.apart stored.2 stored'.2 = true) :
    s.apart (renumberedRow db s.name stored.2) (renumberedRow db s.name stored'.2) = true := by
  rw [TableSchema.apart, List.all_eq_true] at hApart ⊢
  intro columns hColumns
  have hOld := hApart columns hColumns
  rw [Bool.or_eq_true, decide_eq_true_eq, List.any_eq_true] at hOld ⊢
  rcases hOld with ⟨c, hc, hNull⟩ | hNe
  · refine .inl ⟨c, hc, ?_⟩
    rw [decide_eq_true_eq] at hNull ⊢
    rw [value_renumberedRow, hNull, renumberColumn_null]
  · refine .inr fun hSame => hNe (List.map_congr_left fun c hc => ?_)
    exact value_eq_of_renumbered hDb hRoom hs hStored hStored' (unique_ne_entity_id hs hColumns hc)
      (List.map_eq_map_iff.mp hSame c hc)

end

end Exosuit.Dump
