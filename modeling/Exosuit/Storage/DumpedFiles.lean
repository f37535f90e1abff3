import Exosuit.Storage.Renumbering

/-!
# The files of a dump

A database that meets the constraints is dumped: the rows of a table, with text ids for rowids, in
the order of the sort keys.
-/

namespace Exosuit.Dump

open Lib Projection

variable {db : Tables}

/-! ## Aliases -/

theorem columns_aliases {s : TableSchema} (hs : s ∈ schema) (hAlias : s.name = "entity_aliases") : s.columns =
    [{ name := "entity_type", check := oneOf ["epoch", "phase", "goal", "task"] },
      { name := "entity_id", affinity := .integer }, text "alias"] := by
  have hSchema : ∀ s ∈ schema, s.name = "entity_aliases" → s.columns =
      [{ name := "entity_type", check := oneOf ["epoch", "phase", "goal", "task"] },
        { name := "entity_id", affinity := .integer }, text "alias"] := by
    simp [schema]
  exact hSchema s hs hAlias

theorem exists_aliasRow {s : TableSchema} (hs : s ∈ schema) (hAlias : s.name = "entity_aliases") {row : Row}
    (h : s.wellTyped row = true) : ∃ entityType parent rowid name,
      row = aliasRow entityType rowid name ∧ entityTable entityType = some parent := by
  have hColumns := columns_aliases hs hAlias
  have hNames := names_of_wellTyped h
  rw [TableSchema.names, hColumns] at hNames
  have hRow : [("entity_type", value row "entity_type"), ("entity_id", value row "entity_id"),
      ("alias", value row "alias")] = row := map_value_eq hNames (by simp [text])
  have hType := admits_of_wellTyped h (by rw [hColumns]; exact List.mem_cons_self)
  have hId := admits_of_wellTyped h (by rw [hColumns]; exact List.mem_cons_of_mem _ List.mem_cons_self)
  obtain ⟨rowid, hRowid⟩ := not_null_integer hId rfl rfl
  cases hValue : value row "entity_type" with
  | null =>
    rw [hValue] at hType
    cases hType
  | integer i =>
    rw [hValue] at hType
    cases hType
  | text entityType =>
    rw [hValue, Column.admits, Bool.and_eq_true] at hType
    have hParent : ∃ parent, entityTable entityType = some parent := by
      have hOne := of_decide_eq_true hType.2
      simp only [List.mem_cons, List.not_mem_nil, or_false] at hOne
      rcases hOne with rfl | rfl | rfl | rfl
      · exact ⟨_, rfl⟩
      · exact ⟨_, rfl⟩
      · exact ⟨_, rfl⟩
      · exact ⟨_, rfl⟩
    obtain ⟨parent, hParent⟩ := hParent
    refine ⟨entityType, parent, rowid, value row "alias", ?_, hParent⟩
    rw [aliasRow, ← hValue, ← hRowid]
    exact hRow.symm

theorem namesEntity_aliasRow {entityType parent : String} {key : Int64} {name : SqlValue}
    (hParent : entityTable entityType = some parent) :
    namesEntity db (aliasRow entityType key name) = (idMap (db parent) key).isSome := by
  rw [aliasRow, namesEntity, hParent, Option.bind_some]

theorem kept_aliases : kept db "entity_aliases" = (db "entity_aliases").filter fun stored => namesEntity db stored.2 := by
  simp only [kept, ne_eq, not_true_eq_false, decide_false, Bool.false_or]

theorem names_of_kept (hDb : Admitted db) {stored : Stored} (h : stored ∈ kept db "entity_aliases") :
    Names db stored.2 := by
  obtain ⟨s, hs, hName⟩ : ∃ s ∈ schema, s.name = "entity_aliases" := List.mem_map.mp (by simp [schema])
  have hMem := mem_of_kept h
  rw [← hName] at hMem
  obtain ⟨entityType, parent, rowid, name, hRow, hParent⟩ :=
    exists_aliasRow hs hName (hDb.wellTyped s hs stored hMem)
  rw [kept_aliases, List.mem_filter, hRow, namesEntity_aliasRow hParent] at h
  obtain ⟨textId, hId⟩ := Option.isSome_iff_exists.mp h.2
  exact ⟨entityType, parent, rowid, name, textId, hRow, hParent, hId⟩

theorem lookup_rename (fkRenames : List (String × String)) (c : String) :
    (c ∉ fkRenames.map Prod.fst ∧ fkRenames.lookup c = none) ∨
      c ∈ fkRenames.map Prod.fst ∧ ∃ newCol, fkRenames.lookup c = some newCol := by
  cases hRename : fkRenames.lookup c with
  | none =>
    refine .inl ⟨fun hFk => ?_, rfl⟩
    obtain ⟨rename, hMem, hName⟩ := List.mem_map.mp hFk
    exact absurd hName.symm (bne_iff_ne.mp (List.lookup_eq_none_iff.mp hRename rename hMem))
  | some newCol =>
    obtain ⟨l, r, hSplit, -⟩ := List.lookup_eq_some_iff.mp hRename
    exact .inr ⟨by rw [hSplit]; simp, newCol, rfl⟩

/-! ## The dump -/

def writtenRows (db : Tables) (table : String) : List Row := (inDumpOrder db table).map (writtenRow db table)

theorem notAfter_total {sortCols : List String} (row row' : Row) :
    (notAfter sortCols row row' || notAfter sortCols row' row) = true := by
  induction sortCols with
  | nil => rfl
  | cons column sortCols ih =>
    rw [notAfter, notAfter]
    by_cases hSame : sortKeyFromRow row column = sortKeyFromRow row' column
    · rw [if_pos hSame, if_pos hSame.symm]
      exact ih
    · rw [if_neg hSame, if_neg (Ne.symm hSame), Bool.or_eq_true, decide_eq_true_eq, decide_eq_true_eq]
      exact lt_or_gt_of_ne hSame

theorem notAfter_trans {sortCols : List String} {row row' row'' : Row} (h : notAfter sortCols row row' = true)
    (h' : notAfter sortCols row' row'' = true) : notAfter sortCols row row'' = true := by
  induction sortCols with
  | nil => rfl
  | cons column sortCols ih =>
    rw [notAfter] at h h' ⊢
    split at h
    · next hSame =>
      rw [hSame]
      split at h'
      · next hSame' =>
        rw [if_pos hSame']
        exact ih h h'
      · next hNe => rwa [if_neg hNe]
    · next hNe =>
      have hLt := of_decide_eq_true h
      split at h'
      · next hSame' =>
        rw [← hSame', if_neg hNe]
        exact h
      · have hLt' := hLt.trans (of_decide_eq_true h')
        rw [if_neg (ne_of_lt hLt')]
        exact decide_eq_true hLt'

/-- The text of a table's rows; the header is in the first of the files. -/
def fileText (generation : Int) (table : String) (rows : List Row) : String :=
  if table = "epochs_data" then String.ofList (headed generation (dumpBody table rows).toList)
  else dumpBody table rows

def dumpFiles (generation : Int) (db : Tables) : List (String × String) :=
  dumpOrder.map fun table => (table, fileText generation table (writtenRows db table))

theorem withHeader_eq {generation : Int} (hGeneration : InRange generation) {rows : List Row}
    (hRows : ∀ row ∈ rows, Named "epochs_data" (row.map Prod.fst)) :
    withHeader generation [("epochs_data", dumpBody "epochs_data" rows)] =
      .ok [("epochs_data", fileText generation "epochs_data" rows)] := by
  rw [withHeader, withProjectionGeneration_eq hGeneration, projectionBody_dumpBody hRows, fileText, if_pos rfl]

theorem carries_fileText {generation : Int} (hGeneration : InRange generation) {table : String} {rows : List Row}
    (hRows : ∀ row ∈ rows, Named table (row.map Prod.fst)) : Carries table (fileText generation table rows) rows := by
  rw [fileText]
  split
  · exact carries_headed hGeneration hRows
  · exact carries_dumpBody hRows

theorem writtenRows_eq (table : String) :
    writtenRows db table = ((kept db table).map (writtenRow db table)).mergeSort (notAfter (sortCols table)) :=
  List.map_mergeSort fun _ _ _ _ => rfl

theorem describes_of_mem {t : DumpedTable} (ht : t ∈ dumpedTables) :
    ∃ s ∈ schema, s.name ≠ "entity_aliases" ∧ Describes t s := by
  have hAll : (dumpedTables.all fun t => decide (t.table ∈ schema.map TableSchema.name) &&
      decide (t.table ≠ "entity_aliases")) = true := by simp [dumpedTables, schema]
  have hNodup : (dumpedTables.map DumpedTable.table).Nodup := by simp [dumpedTables]
  have hTable := List.all_eq_true.mp hAll t ht
  rw [Bool.and_eq_true, decide_eq_true_eq, decide_eq_true_eq] at hTable
  obtain ⟨s, hs, hName⟩ := List.mem_map.mp hTable.1
  have hAlias : s.name ≠ "entity_aliases" := hName ▸ hTable.2
  obtain ⟨t', ht'⟩ := exists_describes hs hAlias
  have hSame : t' = t := List.inj_on_of_nodup_map hNodup ht'.mem ht (ht'.table.trans hName)
  exact ⟨s, hs, hAlias, hSame ▸ ht'⟩

theorem fkRenames_length_le {t : DumpedTable} (ht : t ∈ dumpedTables) : t.fkRenames.length ≤ 1 := by
  have hAll : (dumpedTables.all fun t => decide (t.fkRenames.length ≤ 1)) = true := by simp [dumpedTables]
  exact of_decide_eq_true (List.all_eq_true.mp hAll t ht)

section

variable (hDb : Admitted db)
include hDb

theorem textIdMaps_eq : textIdMaps db = .ok fun table => idMap (db table) := by
  rw [textIdMaps, if_pos]
  rw [List.all_eq_true]
  intro table hKeyed
  rw [List.all_eq_true]
  intro stored hStored
  obtain ⟨name, hName⟩ := exists_textId hDb hKeyed hStored
  rw [hName, Option.isSome_some]

theorem resolveRowFks_writtenRow {t : DumpedTable} (ht : t ∈ dumpedTables) {stored : Stored}
    (hStored : stored ∈ db t.table) : stored.2.map Prod.fst = t.columns ∧
      resolveRowFks ((fun table => idMap (db table)) ∘ fkTable) t.table t.fkRenames stored.2 =
        .ok (writtenRow db t.table stored) := by
  obtain ⟨s, hs, hAlias, hDescribes⟩ := describes_of_mem ht
  have hMem : stored ∈ db s.name := hDescribes.table ▸ hStored
  have hNames : stored.2.map Prod.fst = t.columns := by
    rw [hDescribes.columns]
    exact names_of_wellTyped (hDb.wellTyped s hs stored hMem)
  have hNodup : t.columns.Nodup := hDescribes.columns ▸ schema_columns_nodup hs
  have hRow : writtenRow db t.table stored =
      resolvedRow (fun table => idMap (db table)) t.fkRenames stored.2 := by
    rw [writtenRow, dumpedRow, hDescribes.table, if_neg hAlias, hDescribes.renames]
  refine ⟨hNames, ?_⟩
  rw [hRow]
  refine resolveRowFks_eq (fkRenames_length_le ht) (hNames ▸ hNodup) fun e he hFk => ?_
  obtain ⟨row, hParent, hValue⟩ := exists_parent hDb hs hDescribes hMem hFk
  have hKeyed := (hDescribes.keyed e.1 hFk).2
  obtain ⟨name, hName⟩ := exists_textId hDb hKeyed hParent
  rw [value_of_mem (hNames ▸ hNodup) he] at hValue
  exact ⟨row.1, name, hValue, (idMap_eq hDb hKeyed hParent).trans hName⟩

theorem resolvedRows_eq {t : DumpedTable} (ht : t ∈ dumpedTables) :
    resolvedRows (fun table => idMap (db table)) (db t.table) t =
      .ok ((kept db t.table).map (writtenRow db t.table)) := by
  obtain ⟨s, hs, hAlias, hDescribes⟩ := describes_of_mem ht
  have hKept : kept db t.table = db t.table := kept_of_ne (hDescribes.table ▸ hAlias)
  have hNodup : t.columns.Nodup := hDescribes.columns ▸ schema_columns_nodup hs
  rw [resolvedRows, readRows_eq hNodup fun stored hStored => (resolveRowFks_writtenRow hDb ht hStored).1, hKept,
    Traversal.mapM_eq_ok, List.forall₂_map_left_iff, List.forall₂_map_right_iff]
  exact List.forall₂_same.mpr fun stored hStored => (resolveRowFks_writtenRow hDb ht hStored).2

theorem dumpTable_eq {t : DumpedTable} (ht : t ∈ dumpedTables) :
    dumpTable (fun table => idMap (db table)) db t = .ok (t.table, dumpBody t.table (writtenRows db t.table)) := by
  rw [dumpTable, resolvedRows_eq hDb ht, writtenRows_eq]
  rfl

theorem resolveAlias_writtenRow {stored : Stored} (hStored : stored ∈ db "entity_aliases") :
    stored.2.map Prod.fst = ["entity_type", "entity_id", "alias"] ∧
      resolveAlias (fun entityType => (entityTable entityType).map fun table => idMap (db table)) stored.2 =
        .ok (if namesEntity db stored.2 then some (writtenRow db "entity_aliases" stored) else none) := by
  obtain ⟨s, hs, hName⟩ : ∃ s ∈ schema, s.name = "entity_aliases" := List.mem_map.mp (by simp [schema])
  have hMem : stored ∈ db s.name := hName.symm ▸ hStored
  obtain ⟨entityType, parent, key, name, hRow, hParent⟩ :=
    exists_aliasRow hs hName (hDb.wellTyped s hs stored hMem)
  refine ⟨by rw [hRow]; rfl, ?_⟩
  rw [hRow, resolveAlias_eq hParent, namesEntity_aliasRow hParent, writtenRow, hRow, dumpedRow, if_pos rfl,
    aliasRow, dumpedAliasRow, hParent, Option.bind_some]
  cases idMap (db parent) key <;> rfl

theorem resolvedAliases_eq : resolvedAliases (fun table => idMap (db table)) (db "entity_aliases") =
    .ok ((kept db "entity_aliases").map (writtenRow db "entity_aliases")) := by
  have hResolve : ((db "entity_aliases").map Prod.snd).mapM
      (resolveAlias fun entityType => (entityTable entityType).map fun table => idMap (db table)) =
        .ok ((db "entity_aliases").map fun stored =>
          if namesEntity db stored.2 then some (writtenRow db "entity_aliases" stored) else none) := by
    rw [Traversal.mapM_eq_ok, List.forall₂_map_left_iff, List.forall₂_map_right_iff]
    exact List.forall₂_same.mpr fun stored hStored => (resolveAlias_writtenRow hDb hStored).2
  rw [resolvedAliases, readRows_eq (by simp) fun stored hStored => (resolveAlias_writtenRow hDb hStored).1,
    hResolve, kept_aliases, ← Traversal.reduceOption_map_ite]
  rfl

theorem dumpEntityAliases_eq : dumpEntityAliases (fun table => idMap (db table)) db =
    .ok ("entity_aliases", dumpBody "entity_aliases" (writtenRows db "entity_aliases")) := by
  rw [dumpEntityAliases, resolvedAliases_eq hDb, writtenRows_eq]
  rfl

theorem named_writtenRow {s : TableSchema} (hs : s ∈ schema) {stored : Stored} (hStored : stored ∈ kept db s.name) :
    Named s.name ((writtenRow db s.name stored).map Prod.fst) := by
  by_cases hAlias : s.name = "entity_aliases"
  · rw [hAlias] at hStored ⊢
    obtain ⟨hNames, hRow⟩ := resolveAlias_writtenRow hDb (mem_of_kept hStored)
    rw [kept_aliases, List.mem_filter] at hStored
    rw [if_pos hStored.2] at hRow
    exact (Dumped.ofAlias hNames hRow).named
  · obtain ⟨t, ht⟩ := exists_describes hs hAlias
    rw [← ht.table] at hStored ⊢
    obtain ⟨hNames, hRow⟩ := resolveRowFks_writtenRow hDb ht.mem (mem_of_kept hStored)
    exact (Dumped.ofTable ht.mem hNames hRow).named

theorem named_of_mem {table : String} (hTable : table ∈ schema.map TableSchema.name) {row : Row}
    (hRow : row ∈ writtenRows db table) : Named table (row.map Prod.fst) := by
  obtain ⟨s, hs, rfl⟩ := List.mem_map.mp hTable
  obtain ⟨stored, hStored, rfl⟩ := List.mem_map.mp hRow
  exact named_writtenRow hDb hs (mem_inDumpOrder.mp hStored)

theorem dumpTables_eq {generation : Int} (hGeneration : InRange generation) :
    dumpTables generation db = .ok (dumpFiles generation db) := by
  have hTables : ∀ ts : List DumpedTable, (ts.all fun t => decide (t.table ≠ "epochs_data")) = true →
      (∀ t ∈ ts, t ∈ dumpedTables) → ts.mapM (dumpTable (fun table => idMap (db table)) db) =
        .ok (ts.map fun t => (t.table, fileText generation t.table (writtenRows db t.table))) := by
    intro ts hEpochs hMem
    refine Traversal.mapM_eq_ok_map fun t ht => ?_
    rw [dumpTable_eq hDb (hMem t ht), fileText, if_neg (of_decide_eq_true (List.all_eq_true.mp hEpochs t ht))]
  have hEpochs : (dumpedTables.take 1).mapM (dumpTable (fun table => idMap (db table)) db) =
      .ok [("epochs_data", dumpBody "epochs_data" (writtenRows db "epochs_data"))] :=
    Traversal.mapM_eq_ok_map (g := fun t => (t.table, dumpBody t.table (writtenRows db t.table)))
      fun t ht => dumpTable_eq hDb (List.mem_of_mem_take ht)
  have hEpochsTable : "epochs_data" ∈ schema.map TableSchema.name := by simp [schema]
  have hHeader := withHeader_eq hGeneration fun row hRow => named_of_mem hDb hEpochsTable hRow
  have hEntities := hTables ((dumpedTables.take 12).drop 1) (by decide +kernel) fun t ht =>
    List.mem_of_mem_take (List.mem_of_mem_drop ht)
  have hJunctions := hTables (dumpedTables.drop 12) (by decide +kernel) fun t ht => List.mem_of_mem_drop ht
  simp only [dumpTables, textIdMaps_eq hDb, hEpochs, hHeader, hEntities, dumpEntityAliases_eq hDb, hJunctions, bind,
    Except.bind, pure, Except.pure]
  rfl

end

/-! ## What a row says -/

def TableSchema.target (s : TableSchema) (row : Row) (c : Column) : Option String :=
  if s.name = "entity_aliases" ∧ c.name = "entity_id" then
    match value row "entity_type" with
    | .text entityType => entityTable entityType
    | _ => none
  else c.references

/-- The value of a column, with the text id of the row that a rowid belongs to. -/
def saidColumn (db : Tables) (s : TableSchema) (row : Row) (c : Column) : SqlValue :=
  match s.target row c, value row c.name with
  | some parent, .integer rowid => (idMap (db parent) rowid).elim .null .text
  | _, v => v

def said (db : Tables) (s : TableSchema) (row : Row) : List SqlValue := s.columns.map (saidColumn db s row)

def writtenName (s : TableSchema) (c : Column) : String :=
  if s.name = "entity_aliases" then if c.name = "entity_id" then "entity_text_id" else c.name
  else ((renamesOf s.name).lookup c.name).getD c.name

theorem target_of_describes {s : TableSchema} {t : DumpedTable} (ht : Describes t s)
    (hAlias : s.name ≠ "entity_aliases") (row : Row) {c : Column} (hc : c ∈ s.columns) :
    s.target row c = if c.name ∈ t.fkRenames.map Prod.fst then some (fkTable c.name) else none := by
  rw [TableSchema.target, if_neg fun hEntity => hAlias hEntity.1, ht.references c hc]

theorem saidColumn_key (hDb : Admitted db) {s : TableSchema} (hs : s ∈ schema) (hAlias : s.name ≠ "entity_aliases")
    {t : DumpedTable} (ht : Describes t s) {stored : Stored} (hStored : stored ∈ db s.name) {c : Column}
    (hc : c ∈ s.columns) (hFk : c.name ∈ t.fkRenames.map Prod.fst) :
    ∃ row ∈ db (fkTable c.name), ∃ name, value stored.2 c.name = .integer row.1 ∧ textId row.2 = some name ∧
      idMap (db (fkTable c.name)) row.1 = some name ∧ saidColumn db s stored.2 c = .text name := by
  obtain ⟨row, hRow, hValue⟩ := exists_parent hDb hs ht hStored hFk
  have hKeyed := (ht.keyed c.name hFk).2
  obtain ⟨name, hName⟩ := exists_textId hDb hKeyed hRow
  have hId := (idMap_eq hDb hKeyed hRow).trans hName
  refine ⟨row, hRow, name, hValue, hName, hId, ?_⟩
  rw [saidColumn, target_of_describes ht hAlias _ hc, if_pos hFk, hValue]
  dsimp only
  rw [hId, Option.elim_some]

theorem saidColumn_plain {s : TableSchema} {row : Row} {c : Column} (hTarget : s.target row c = none) :
    saidColumn db s row c = value row c.name := by
  rw [saidColumn, hTarget]

theorem writtenRow_eq (hDb : Admitted db) {s : TableSchema} (hs : s ∈ schema) {stored : Stored}
    (hStored : stored ∈ kept db s.name) :
    writtenRow db s.name stored = s.columns.map fun c => (writtenName s c, saidColumn db s stored.2 c) := by
  by_cases hAlias : s.name = "entity_aliases"
  · rw [hAlias] at hStored
    obtain ⟨entityType, parent, key, name, textId, hRow, hParent, hId⟩ := names_of_kept hDb hStored
    have hType : value (aliasRow entityType key name) "entity_type" = .text entityType := rfl
    have hKey : value (aliasRow entityType key name) "entity_id" = .integer key := rfl
    have hName : value (aliasRow entityType key name) "alias" = name := rfl
    rw [writtenRow, hRow, dumpedRow, if_pos hAlias, aliasRow, dumpedAliasRow, hParent, Option.bind_some, hId,
      ← aliasRow]
    simp [columns_aliases hs hAlias, writtenName, saidColumn, TableSchema.target, hAlias, text, hType, hKey, hName,
      hParent, hId, dumpedAlias]
  · obtain ⟨t, ht⟩ := exists_describes hs hAlias
    have hMem := mem_of_kept hStored
    have hNames := names_of_wellTyped (hDb.wellTyped s hs stored hMem)
    have hRow : (s.columns.map fun c => (c.name, value stored.2 c.name)) = stored.2 := by
      have hColumns := map_value_eq hNames (schema_columns_nodup hs)
      rw [TableSchema.names, List.map_map] at hColumns
      exact hColumns
    calc
      writtenRow db s.name stored = (s.columns.map fun c => (c.name, value stored.2 c.name)).map
          (resolvedColumn (fun parent => idMap (db parent)) t.fkRenames) := by
        rw [writtenRow, dumpedRow, if_neg hAlias, resolvedRow, hRow, ht.renames]
      _ = s.columns.map fun c => (writtenName s c, saidColumn db s stored.2 c) := by
        rw [List.map_map]
        refine List.map_congr_left fun c hc => ?_
        rw [Function.comp_apply, writtenName, if_neg hAlias, ht.renames]
        rcases lookup_rename t.fkRenames c.name with ⟨hFk, hRename⟩ | ⟨hFk, newCol, hRename⟩
        · have hTarget := target_of_describes ht hAlias stored.2 hc
          rw [if_neg hFk] at hTarget
          rw [resolvedColumn_none hRename, hRename, Option.getD_none, saidColumn_plain hTarget]
        · obtain ⟨row, hRow, name, hValue, -, hId, hSaid⟩ := saidColumn_key hDb hs hAlias ht hMem hc hFk
          rw [resolvedColumn_some hRename, hRename, Option.getD_some, hSaid, hValue]
          dsimp only
          rw [keyText, hId, Option.getD_some]

theorem map_snd_writtenRow (hDb : Admitted db) {s : TableSchema} (hs : s ∈ schema) {stored : Stored}
    (hStored : stored ∈ kept db s.name) : (writtenRow db s.name stored).map Prod.snd = said db s stored.2 := by
  rw [writtenRow_eq hDb hs hStored, List.map_map]
  rfl

/-! ## An example -/

def phaseInEpoch (first second : Int64) : Tables
  | "epochs_data" => [
      (first, [("text_id", .text "epoch-2"), ("title", .text "Next"), ("slug", .null), ("reviewed", .integer 0),
        ("sort_key", .text "")]),
      (second, [("text_id", .text "epoch-1"), ("title", .text "It's\na start"), ("slug", .text "start"),
        ("reviewed", .integer 1), ("sort_key", .text "a0")])]
  | "phases_data" => [(5, [("text_id", .text "phase-1"), ("title", .text "First"), ("status", .text "pending"),
      ("epoch_id", .integer second), ("kind", .text "regular"), ("slug", .null), ("sort_key", .text "a0"),
      ("completed_at", .null)])]
  | _ => []

def admittedAll (db : Tables) : Bool := schema.all fun s =>
  decide ((db s.name).map Prod.fst).Nodup && (db s.name).all (fun stored => s.wellTyped stored.2) &&
    decide ((db s.name).Pairwise fun stored stored' => s.apart stored.2 stored'.2 = true) &&
    (db s.name).all fun stored => s.resolves db stored.2

theorem admitted_of_all (h : admittedAll db = true) : Admitted db := by
  have hTable : ∀ s ∈ schema, _ := fun s hs => List.all_eq_true.mp h s hs
  simp only [Bool.and_eq_true, decide_eq_true_eq, List.all_eq_true] at hTable
  exact ⟨fun s hs => (hTable s hs).1.1.1, fun s hs => (hTable s hs).1.1.2, fun s hs => (hTable s hs).1.2,
    fun s hs => (hTable s hs).2⟩

end Exosuit.Dump
