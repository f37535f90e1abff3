import Exosuit.Storage.DumpedFiles

/-!
# What a dump depends on

Databases that say the same, with other rowids and in another order, have the same dump, as long as
the log entries of a task have different times: entries of one time stay in the order of their rowids.
-/

namespace Exosuit.Dump

open Lib Projection

variable {db db' : Tables}

/-- The tables say the same, in any order. -/
def SameContent (db db' : Tables) : Prop := ∀ s ∈ schema,
  ((db s.name).map fun stored => said db s stored.2).Perm ((db' s.name).map fun stored => said db' s stored.2)

def logTables : List String := ["task_logs", "task_verifications"]

/-- Entries of one task with the same time are the same. -/
def LogsApart (db : Tables) : Prop := ∀ table ∈ logTables, ∀ stored ∈ db table, ∀ stored' ∈ db table,
  value stored.2 "task_id" = value stored'.2 "task_id" →
    value stored.2 "created_at" = value stored'.2 "created_at" → stored.2 = stored'.2

/-! ## Sort keys -/

theorem keys_eq_of_notAfter {sortCols : List String} {row row' : Row} (h : notAfter sortCols row row' = true)
    (h' : notAfter sortCols row' row = true) {column : String} (hColumn : column ∈ sortCols) :
    sortKeyFromRow row column = sortKeyFromRow row' column := by
  induction sortCols with
  | nil => cases hColumn
  | cons first sortCols ih =>
    rw [notAfter] at h h'
    by_cases hSame : sortKeyFromRow row first = sortKeyFromRow row' first
    · rw [if_pos hSame] at h
      rw [if_pos hSame.symm] at h'
      rcases List.mem_cons.mp hColumn with rfl | hRest
      · exact hSame
      · exact ih h h' hRest
    · rw [if_neg hSame] at h
      rw [if_neg (Ne.symm hSame)] at h'
      exact absurd ((of_decide_eq_true h).trans (of_decide_eq_true h')) (lt_irrefl _)

theorem lookup_map_of_nodup {α : Type} {β : Type} {key : α → String} {f : α → β} {l : List α}
    (hNodup : (l.map key).Nodup) {a : α} (ha : a ∈ l) : (l.map fun a => (key a, f a)).lookup (key a) = some (f a) := by
  induction l with
  | nil => cases ha
  | cons first l ih =>
    rw [List.map_cons, List.nodup_cons] at hNodup
    rw [List.map_cons, List.lookup_cons]
    rcases List.mem_cons.mp ha with rfl | hRest
    · rw [beq_self_eq_true]
    · have hNe : (key a == key first) = false := by
        rw [beq_eq_false_iff_ne]
        intro hEq
        exact hNodup.1 (hEq ▸ List.mem_map_of_mem hRest)
      rw [hNe]
      exact ih hNodup.2 hRest

def keyOf : SqlValue → String
  | .text s => s
  | .integer i => toString i.toInt
  | .null => ""

theorem sortKeyFromRow_writtenRow (hDb : Admitted db) {s : TableSchema} (hs : s ∈ schema) {stored : Stored}
    (hStored : stored ∈ kept db s.name) {c : Column} (hc : c ∈ s.columns) :
    sortKeyFromRow (writtenRow db s.name stored) (writtenName s c) = keyOf (saidColumn db s stored.2 c) := by
  have hAll : (schema.all fun s => decide (s.columns.map (writtenName s)).Nodup) = true := by decide +kernel
  have hNodup := of_decide_eq_true (List.all_eq_true.mp hAll s hs)
  rw [sortKeyFromRow, writtenRow_eq hDb hs hStored, lookup_map_of_nodup hNodup hc]
  cases saidColumn db s stored.2 c <;> rfl

theorem integer_of_keyOf {i i' : Int64} (h : keyOf (.integer i) = keyOf (.integer i')) : i = i' := by
  have hParsed := Text.parseI64_toString i
  rw [show toString i.toInt = toString i'.toInt from h, Text.parseI64_toString] at hParsed
  exact (Option.some.inj hParsed).symm

theorem not_null_text {c : Column} {v : SqlValue} (hAdmits : c.admits v = true) (hNotNull : c.notNull = true)
    (hText : c.affinity = .text) : ∃ s, v = .text s := by
  cases v with
  | text s => exact ⟨s, rfl⟩
  | null =>
    rw [Column.admits, hNotNull] at hAdmits
    cases hAdmits
  | integer rowid =>
    rw [Column.admits, hText] at hAdmits
    cases hAdmits

section

variable (hDb : Admitted db) {s : TableSchema} (hs : s ∈ schema) {stored stored' : Stored}
  (hStored : stored ∈ kept db s.name) (hStored' : stored' ∈ kept db s.name)
include hDb hs hStored hStored'

theorem value_eq_of_keys {c : Column} (hc : c ∈ s.columns) (hNotNull : c.notNull = true) (hEntity : c.name ≠ "entity_id")
    (hKeys : sortKeyFromRow (writtenRow db s.name stored) (writtenName s c) =
      sortKeyFromRow (writtenRow db s.name stored') (writtenName s c)) :
    value stored.2 c.name = value stored'.2 c.name := by
  rw [sortKeyFromRow_writtenRow hDb hs hStored hc, sortKeyFromRow_writtenRow hDb hs hStored' hc] at hKeys
  have hMem := mem_of_kept hStored
  have hMem' := mem_of_kept hStored'
  have hPlain : (∀ row, s.target row c = none) → value stored.2 c.name = value stored'.2 c.name := by
    intro hTarget
    rw [saidColumn_plain (hTarget _), saidColumn_plain (hTarget _)] at hKeys
    have hAdmits := admits_of_wellTyped (hDb.wellTyped s hs stored hMem) hc
    have hAdmits' := admits_of_wellTyped (hDb.wellTyped s hs stored' hMem') hc
    cases hAffinity : c.affinity with
    | integer =>
      obtain ⟨i, hValue⟩ := not_null_integer hAdmits hNotNull hAffinity
      obtain ⟨i', hValue'⟩ := not_null_integer hAdmits' hNotNull hAffinity
      rw [hValue, hValue'] at hKeys ⊢
      rw [integer_of_keyOf hKeys]
    | text =>
      obtain ⟨name, hValue⟩ := not_null_text hAdmits hNotNull hAffinity
      obtain ⟨name', hValue'⟩ := not_null_text hAdmits' hNotNull hAffinity
      rw [hValue, hValue'] at hKeys ⊢
      exact congrArg SqlValue.text hKeys
  by_cases hAlias : s.name = "entity_aliases"
  · refine hPlain fun row => ?_
    rw [TableSchema.target, if_neg fun hBoth => hEntity hBoth.2, references_aliases hs hAlias hc]
  · obtain ⟨t, ht⟩ := exists_describes hs hAlias
    by_cases hFk : c.name ∈ t.fkRenames.map Prod.fst
    · obtain ⟨row, hRow, name, hValue, hName, -, hSaid⟩ := saidColumn_key hDb hs hAlias ht hMem hc hFk
      obtain ⟨row', hRow', name', hValue', hName', -, hSaid'⟩ := saidColumn_key hDb hs hAlias ht hMem' hc hFk
      rw [hSaid, hSaid'] at hKeys
      have hSame : name = name' := hKeys
      rw [hSame] at hName
      rw [hValue, hValue', eq_of_textId hDb (ht.keyed c.name hFk).2 hRow' hRow (hName.trans hName'.symm)]
    · refine hPlain fun row => ?_
      rw [target_of_describes ht hAlias row hc, if_neg hFk]

end

/-- The sort of the table looks at the column, which is never null. -/
def sortsBy (s : TableSchema) (name : String) : Bool := s.columns.any fun c =>
  decide (c.name = name) && c.notNull && decide (c.name ≠ "entity_id") && decide (writtenName s c ∈ sortCols s.name)

theorem sortsBy_unique {s : TableSchema} (hs : s ∈ schema) :
    (s.name ∈ logTables ∧ sortsBy s "task_id" = true ∧ sortsBy s "created_at" = true) ∨
      ∃ columns ∈ s.unique, ∀ name ∈ columns, sortsBy s name = true := by
  have hAll : (schema.all fun s => (decide (s.name ∈ logTables) && sortsBy s "task_id" && sortsBy s "created_at") ||
      s.unique.any fun columns => columns.all (sortsBy s)) = true := by decide +kernel
  have hTable := List.all_eq_true.mp hAll s hs
  rw [Bool.or_eq_true, Bool.and_eq_true, Bool.and_eq_true, decide_eq_true_eq, List.any_eq_true] at hTable
  refine hTable.imp (fun hLog => ⟨hLog.1.1, hLog.1.2, hLog.2⟩) fun hUnique => ?_
  obtain ⟨columns, hColumns, hSorts⟩ := hUnique
  exact ⟨columns, hColumns, List.all_eq_true.mp hSorts⟩

theorem row_eq_of_keys (hDb : Admitted db) (hLogs : LogsApart db) {s : TableSchema} (hs : s ∈ schema)
    {stored stored' : Stored} (hStored : stored ∈ kept db s.name) (hStored' : stored' ∈ kept db s.name)
    (hKeys : ∀ column ∈ sortCols s.name, sortKeyFromRow (writtenRow db s.name stored) column =
      sortKeyFromRow (writtenRow db s.name stored') column) : stored.2 = stored'.2 := by
  have hMem := mem_of_kept hStored
  have hMem' := mem_of_kept hStored'
  have hValue : ∀ name, sortsBy s name = true →
      value stored.2 name = value stored'.2 name ∧ value stored.2 name ≠ .null := by
    intro name hSorts
    rw [sortsBy, List.any_eq_true] at hSorts
    obtain ⟨c, hc, hColumn⟩ := hSorts
    simp only [Bool.and_eq_true, decide_eq_true_eq] at hColumn
    obtain ⟨⟨⟨rfl, hNotNull⟩, hEntity⟩, hSort⟩ := hColumn
    refine ⟨value_eq_of_keys hDb hs hStored hStored' hc hNotNull hEntity (hKeys _ hSort), fun hNull => ?_⟩
    have hAdmits := admits_of_wellTyped (hDb.wellTyped s hs stored hMem) hc
    rw [hNull, Column.admits, hNotNull] at hAdmits
    cases hAdmits
  rcases sortsBy_unique hs with ⟨hLog, hTask, hTime⟩ | ⟨columns, hColumns, hSorts⟩
  · exact hLogs s.name hLog stored hMem stored' hMem' (hValue _ hTask).1 (hValue _ hTime).1
  · by_contra hNe
    have hSymm : Std.Symm fun stored stored' : Stored => s.apart stored.2 stored'.2 = true :=
      ⟨fun _ _ => apart_comm⟩
    have hStoredNe : stored ≠ stored' := fun hSame => hNe (congrArg Prod.snd hSame)
    have hApart := List.all_eq_true.mp ((hDb.apart s hs).forall hMem hMem' hStoredNe) columns hColumns
    rw [Bool.or_eq_true, List.any_eq_true, decide_eq_true_eq] at hApart
    rcases hApart with ⟨name, hName, hNull⟩ | hDiffer
    · exact (hValue name (hSorts name hName)).2 (of_decide_eq_true hNull)
    · exact hDiffer (List.map_congr_left fun name hName => (hValue name (hSorts name hName)).1)

/-! ## The content of a table -/

theorem namesEntity_iff (hDb : Admitted db) {s : TableSchema} (hs : s ∈ schema) (hAlias : s.name = "entity_aliases")
    {stored : Stored} (hStored : stored ∈ db s.name) :
    namesEntity db stored.2 = decide ((said db s stored.2)[1]? ≠ some .null) := by
  obtain ⟨entityType, parent, key, name, hRow, hParent⟩ :=
    exists_aliasRow hs hAlias (hDb.wellTyped s hs stored hStored)
  have hType : value (aliasRow entityType key name) "entity_type" = .text entityType := rfl
  have hKey : value (aliasRow entityType key name) "entity_id" = .integer key := rfl
  rw [hRow, namesEntity_aliasRow hParent]
  cases hId : idMap (db parent) key <;>
    simp [said, columns_aliases hs hAlias, saidColumn, TableSchema.target, hAlias, hType, hKey, hParent, hId]

theorem map_said_kept (hDb : Admitted db) {s : TableSchema} (hs : s ∈ schema) :
    (kept db s.name).map (fun stored => said db s stored.2) =
      ((db s.name).map fun stored => said db s stored.2).filter fun values =>
        s.name ≠ "entity_aliases" || decide (values[1]? ≠ some .null) := by
  rw [List.filter_map]
  congr 1
  refine List.filter_congr fun stored hStored => ?_
  by_cases hAlias : s.name = "entity_aliases"
  · rw [Function.comp_apply, namesEntity_iff hDb hs hAlias hStored]
  · rw [Function.comp_apply, decide_eq_true hAlias, Bool.true_or, Bool.true_or]

theorem map_writtenRow_kept (hDb : Admitted db) {s : TableSchema} (hs : s ∈ schema) :
    (kept db s.name).map (writtenRow db s.name) =
      ((kept db s.name).map fun stored => said db s stored.2).map (List.zip (s.columns.map (writtenName s))) := by
  rw [List.map_map]
  refine List.map_congr_left fun stored hStored => ?_
  rw [writtenRow_eq hDb hs hStored, Function.comp_apply, said, List.zip_map']

theorem kept_perm (hDb : Admitted db) (hDb' : Admitted db') (hSame : SameContent db db') {s : TableSchema}
    (hs : s ∈ schema) :
    ((kept db s.name).map (writtenRow db s.name)).Perm ((kept db' s.name).map (writtenRow db' s.name)) := by
  rw [map_writtenRow_kept hDb hs, map_writtenRow_kept hDb' hs, map_said_kept hDb hs, map_said_kept hDb' hs]
  exact ((hSame s hs).filter _).map _

theorem writtenRows_sorted (table : String) :
    (writtenRows db table).Pairwise fun row row' => notAfter (sortCols table) row row' = true := by
  rw [writtenRows_eq]
  exact @List.pairwise_mergeSort _ (notAfter (sortCols table)) (fun _ _ _ => notAfter_trans) notAfter_total _

theorem writtenRows_eq_of_same (hDb : Admitted db) (hDb' : Admitted db') (hSame : SameContent db db')
    (hLogs : LogsApart db) {s : TableSchema} (hs : s ∈ schema) :
    writtenRows db s.name = writtenRows db' s.name := by
  have hPerm : (writtenRows db s.name).Perm (writtenRows db' s.name) := by
    rw [writtenRows_eq, writtenRows_eq]
    exact (List.mergeSort_perm _ _).trans ((kept_perm hDb hDb' hSame hs).trans (List.mergeSort_perm _ _).symm)
  refine List.Perm.eq_of_pairwise (fun row row' hRow hRow' h h' => ?_) (writtenRows_sorted _) (writtenRows_sorted _)
    hPerm
  obtain ⟨stored, hStored, rfl⟩ := List.mem_map.mp hRow
  obtain ⟨stored', hStored', rfl⟩ := List.mem_map.mp (hPerm.mem_iff.mpr hRow')
  have hSaid := row_eq_of_keys hDb hLogs hs (mem_inDumpOrder.mp hStored) (mem_inDumpOrder.mp hStored')
    fun column hColumn => keys_eq_of_notAfter h h' hColumn
  rw [writtenRow, writtenRow, hSaid]

end Exosuit.Dump
