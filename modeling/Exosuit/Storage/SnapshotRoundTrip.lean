import Exosuit.Storage.DumpedFiles

/-!
# Dumping, importing and dumping again

The import of a dump makes a database that meets the constraints and has the same dump, unless the
dump holds a relation between RFCs, whose foreign key the import does not know.
-/

namespace Exosuit.Dump

open Lib Projection

variable {db : Tables}

/-! ## The renumbered database -/

theorem renumberedRow_aliasRow {entityType parent : String} {rowid : Int64} {name : SqlValue}
    (hParent : entityTable entityType = some parent) :
    renumberedRow db "entity_aliases" (aliasRow entityType rowid name) =
      aliasRow entityType (newRowid db parent rowid) name := by
  simp [renumberedRow, aliasRow, renumberColumn, referent, value, hParent, renumberValue]

theorem length_renumbered_le (table : String) : (renumbered db table).length ≤ (db table).length := by
  rw [renumbered]
  split
  · rw [numbered, List.length_map, List.length_zipIdx, List.length_map]
    exact length_inDumpOrder_le
  · exact Nat.zero_le _

section

variable (hDb : Admitted db) (hRoom : ∀ table, Room (db table).length)
include hDb hRoom

theorem idMap_newRowid {parent textId : String} {rowid : Int64} (hKeyed : parent ∈ keyedTables)
    (hId : idMap (db parent) rowid = some textId) :
    idMap (renumbered db parent) (newRowid db parent rowid) = some textId := by
  obtain ⟨row, hRow, rfl, -⟩ := textId_of_idMap hId
  rw [idMap_renumbered hDb hKeyed (hRoom parent) hRow, hId]

theorem names_renumberedRow_aliases {row : Row} (h : Names db row) :
    Names (renumbered db) (renumberedRow db "entity_aliases" row) := by
  obtain ⟨entityType, parent, rowid, name, textId, rfl, hParent, hId⟩ := h
  exact ⟨entityType, parent, newRowid db parent rowid, name, textId, renumberedRow_aliasRow hParent, hParent,
    idMap_newRowid hDb hRoom (entityTable_keyed hParent).1 hId⟩

theorem writtenRow_renumbered {s : TableSchema} (hs : s ∈ schema) {stored : Stored}
    (hStored : stored ∈ inDumpOrder db s.name) (rowid : Int64) :
    writtenRow (renumbered db) s.name (rowid, renumberedRow db s.name stored.2) = writtenRow db s.name stored := by
  have hKept := mem_inDumpOrder.mp hStored
  have hMem := mem_of_kept hKept
  rw [writtenRow, writtenRow]
  by_cases hAlias : s.name = "entity_aliases"
  · rw [hAlias] at hKept ⊢
    obtain ⟨entityType, parent, key, name, textId, hRow, hParent, hId⟩ := names_of_kept hDb hKept
    rw [hRow, renumberedRow_aliasRow hParent, dumpedRow, dumpedRow, if_pos rfl, if_pos rfl, aliasRow, aliasRow,
      dumpedAliasRow, dumpedAliasRow, hParent, Option.bind_some, Option.bind_some, hId,
      idMap_newRowid hDb hRoom (entityTable_keyed hParent).1 hId]
  · obtain ⟨t, ht⟩ := exists_describes hs hAlias
    have hNodup : (stored.2.map Prod.fst).Nodup := by
      rw [names_of_wellTyped (hDb.wellTyped s hs stored hMem)]
      exact schema_columns_nodup hs
    rw [dumpedRow, dumpedRow, if_neg hAlias, if_neg hAlias, ht.renames, resolvedRow, resolvedRow, renumberedRow,
      List.map_map]
    refine List.map_congr_left fun e he => ?_
    rw [Function.comp_apply, renumberColumn, referent_of_describes ht hAlias]
    rcases lookup_rename t.fkRenames e.1 with ⟨hFk, hRename⟩ | ⟨hFk, newCol, hRename⟩
    · rw [if_neg hFk, Option.elim_none, resolvedColumn_none hRename, resolvedColumn_none hRename]
    · obtain ⟨row, hRow, hValue⟩ := exists_parent hDb hs ht hMem hFk
      have hKeyed := (ht.keyed e.1 hFk).2
      rw [value_of_mem hNodup he] at hValue
      rw [resolvedColumn_some hRename, if_pos hFk, Option.elim_some, hValue, renumberValue,
        resolvedColumn_some (e := (e.1, .integer (newRowid db (fkTable e.1) row.1))) hRename]
      dsimp only
      rw [keyText, keyText, idMap_renumbered hDb hKeyed (hRoom _) hRow]

theorem apart_renumbered {s : TableSchema} (hs : s ∈ schema) : (renumbered db s.name).Pairwise
    fun stored stored' => s.apart stored.2 stored'.2 = true := by
  have hSymm : ∀ {stored stored' : Stored}, s.apart stored.2 stored'.2 = true → s.apart stored'.2 stored.2 = true :=
    apart_comm
  have hKept : (kept db s.name).Pairwise fun stored stored' => s.apart stored.2 stored'.2 = true :=
    (hDb.apart s hs).sublist List.filter_sublist
  have hSorted : (inDumpOrder db s.name).Pairwise fun stored stored' => s.apart stored.2 stored'.2 = true :=
    ((List.mergeSort_perm _ _).pairwise_iff hSymm).mpr hKept
  have hRows : ((renumbered db s.name).map Prod.snd).Pairwise fun row row' => s.apart row row' = true := by
    rw [renumbered, if_pos (List.mem_map_of_mem hs), map_snd_numbered, List.pairwise_map]
    exact hSorted.imp_of_mem fun hMem hMem' hApart => apart_renumberedRow hDb hRoom hs
      (mem_of_kept (mem_inDumpOrder.mp hMem)) (mem_of_kept (mem_inDumpOrder.mp hMem')) hApart
  exact List.pairwise_map.mp hRows

theorem admitted_renumbered : Admitted (renumbered db) where
  rowids s hs := renumbered_nodup (List.mem_map_of_mem hs) (hRoom s.name)
  wellTyped s hs stored hStored := by
    obtain ⟨old, hOld, hRow⟩ := exists_of_mem_renumbered hStored
    rw [hRow]
    exact wellTyped_renumberedRow hs (hDb.wellTyped s hs old (mem_of_kept (mem_inDumpOrder.mp hOld)))
  apart s hs := apart_renumbered hDb hRoom hs
  resolves s hs stored hStored := by
    obtain ⟨old, hOld, hRow⟩ := exists_of_mem_renumbered hStored
    rw [hRow]
    exact resolves_renumberedRow hDb hs (mem_of_kept (mem_inDumpOrder.mp hOld))

theorem portable_renumbered (hRelations : db "rfc_relations" = []) : Portable (renumbered db) where
  admitted := admitted_renumbered hDb hRoom
  ordered table := by
    rw [renumbered]
    split
    · rw [map_snd_numbered]
    · rfl
  relations := by
    have hLe : (renumbered db "rfc_relations").length ≤ (db "rfc_relations").length := length_renumbered_le _
    rw [hRelations] at hLe
    exact List.eq_nil_of_length_eq_zero (Nat.le_zero.mp hLe)
  aliases stored hStored := by
    obtain ⟨old, hOld, hRow⟩ := exists_of_mem_renumbered hStored
    rw [hRow]
    exact names_renumberedRow_aliases hDb hRoom (names_of_kept hDb (mem_inDumpOrder.mp hOld))
  room table := by
    have hLe : (renumbered db table).length ≤ (db table).length := length_renumbered_le table
    have hOld := hRoom table
    rw [Room] at hOld ⊢
    omega
  absent table hTable := by rw [renumbered, if_neg hTable]

theorem map_writtenRow_renumbered {s : TableSchema} (hs : s ∈ schema) :
    (renumbered db s.name).map (writtenRow (renumbered db) s.name) = writtenRows db s.name := by
  have hRows : ∀ stored ∈ inDumpOrder db s.name,
      dumpedRow (fun parent => idMap (renumbered db parent)) s.name (renumberedRow db s.name stored.2) =
        writtenRow db s.name stored :=
    fun stored hStored => writtenRow_renumbered hDb hRoom hs hStored stored.1
  calc
    (renumbered db s.name).map (writtenRow (renumbered db) s.name) =
        ((renumbered db s.name).map Prod.snd).map
          (dumpedRow (fun parent => idMap (renumbered db parent)) s.name) := by
      rw [List.map_map]
      rfl
    _ = (inDumpOrder db s.name).map (writtenRow db s.name) := by
      rw [renumbered, if_pos (List.mem_map_of_mem hs), map_snd_numbered, List.map_map]
      exact List.map_congr_left hRows

theorem kept_renumbered (table : String) : kept (renumbered db) table = renumbered db table := by
  by_cases hAlias : table = "entity_aliases"
  · rw [hAlias, kept_aliases, List.filter_eq_self]
    intro stored hStored
    obtain ⟨old, hOld, hRow⟩ := exists_of_mem_renumbered hStored
    obtain ⟨entityType, parent, key, name, textId, hAliasRow, hParent, hId⟩ :=
      names_renumberedRow_aliases hDb hRoom (names_of_kept hDb (mem_inDumpOrder.mp hOld))
    rw [hRow, hAliasRow, namesEntity_aliasRow hParent, hId, Option.isSome_some]
  · exact kept_of_ne hAlias

theorem writtenRows_renumbered {s : TableSchema} (hs : s ∈ schema) :
    writtenRows (renumbered db) s.name = writtenRows db s.name := by
  have hSorted : (writtenRows db s.name).Pairwise fun row row' => notAfter (sortCols s.name) row row' = true := by
    rw [writtenRows_eq]
    exact @List.pairwise_mergeSort _ (notAfter (sortCols s.name)) (fun _ _ _ => notAfter_trans) notAfter_total _
  rw [writtenRows_eq, kept_renumbered hDb hRoom, map_writtenRow_renumbered hDb hRoom hs,
    List.mergeSort_of_pairwise hSorted]

theorem dumpFiles_renumbered (generation : Int) : dumpFiles generation (renumbered db) = dumpFiles generation db := by
  refine List.map_congr_left fun table hTable => ?_
  obtain ⟨s, hs, rfl⟩ := List.mem_map.mp ((dumpOrder_perm table).mp hTable)
  rw [writtenRows_renumbered hDb hRoom hs]

/-! ## Importing the dump -/

theorem importTables_dumpFiles {generation : Int} (hGeneration : InRange generation) (clock : Clock)
    (hRelations : db "rfc_relations" = []) :
    importTables clock (dumpFiles generation db) migrated = .ok (renumbered db) := by
  have hPortable := portable_renumbered hDb hRoom hRelations
  have hStart : Portable.upTo (renumbered db) [] = migrated := by
    funext table
    exact if_neg List.not_mem_nil
  have hEnd : Portable.upTo (renumbered db) (dumpOrder.reverse ++ []) = renumbered db := by
    funext table
    rw [Portable.upTo]
    split
    · rfl
    · next hTable =>
      have hAbsent : table ∉ schema.map TableSchema.name := fun hSchema =>
        hTable (List.mem_append_left _ (List.mem_reverse.mpr ((dumpOrder_perm table).mpr hSchema)))
      exact (hPortable.absent table hAbsent).symm
  rw [importTables, ← hStart, dumpFiles, hPortable.importFrom_eq ready_dumpOrder (fun _ h => h), hEnd]
  · intro table hTable stored hStored
    have hSchema := (dumpOrder_perm table).mp hTable
    obtain ⟨s, hs, rfl⟩ := List.mem_map.mp hSchema
    refine named_of_mem hDb hSchema ?_
    rw [← map_writtenRow_renumbered hDb hRoom hs]
    exact List.mem_map_of_mem hStored
  · intro table hTable
    have hSchema := (dumpOrder_perm table).mp hTable
    obtain ⟨s, hs, rfl⟩ := List.mem_map.mp hSchema
    have hRows := map_writtenRow_renumbered hDb hRoom hs
    rw [show (fun stored : Stored => dumpedRow (fun parent => idMap (renumbered db parent)) s.name stored.2) =
      writtenRow (renumbered db) s.name from rfl, hRows]
    exact carries_fileText hGeneration fun row hRow => named_of_mem hDb hSchema hRow
  · exact fun table hTable => absurd hTable List.not_mem_nil

end

/-! ## What the rows say -/

theorem said_renumbered_perm (hDb : Admitted db) (hRoom : ∀ table, Room (db table).length) {s : TableSchema}
    (hs : s ∈ schema) : ((renumbered db s.name).map fun stored => said (renumbered db) s stored.2).Perm
      ((kept db s.name).map fun stored => said db s stored.2) := by
  have hSaid : ∀ {db' : Tables}, Admitted db' → ∀ rows : List Stored, (∀ stored ∈ rows, stored ∈ kept db' s.name) →
      rows.map (fun stored => said db' s stored.2) = (rows.map (writtenRow db' s.name)).map (List.map Prod.snd) := by
    intro db' hDb' rows hRows
    rw [List.map_map]
    refine List.map_congr_left fun stored hStored => ?_
    exact (map_snd_writtenRow hDb' hs (hRows stored hStored)).symm
  have hNew := hSaid (admitted_renumbered hDb hRoom) (renumbered db s.name) fun stored hStored => by
    rw [kept_renumbered hDb hRoom]
    exact hStored
  rw [hNew, map_writtenRow_renumbered hDb hRoom hs, hSaid hDb (kept db s.name) fun _ h => h]
  exact ((List.mergeSort_perm _ _).map _).map _

/-! ## Relations between RFCs -/

theorem insert_eq_none {clock : Clock} {table : String} {row : Row} {e : String × SqlValue} (he : e ∈ row)
    (hColumn : ∀ s ∈ schema, e.1 ∉ s.names) (db' : Tables) : insert clock db' table row = none := by
  rw [insert]
  cases hFind : schema.find? fun s => decide (s.name = table) with
  | none => rfl
  | some s =>
    have hKnown : ¬ (row.all fun e => decide (e.1 ∈ s.names)) = true := fun hAll =>
      hColumn s (List.mem_of_find?_eq_some hFind) (of_decide_eq_true (List.all_eq_true.mp hAll e he))
    simp only [hKnown, Option.bind_eq_bind, Option.bind_some]
    rfl

theorem importRow_relation (clock : Clock) (rowids : RowidMaps) {row : Row}
    (hNames : row.map Prod.fst = ["rfc_text_id", "related_rfc", "relation"]) (db' : Tables) :
    importRow clock rowids "rfc_relations" row db' = .error .sqlite := by
  have hColumn : (schema.all fun s => decide ("rfc_text_id" ∉ s.names)) = true := by
    simp [schema, TableSchema.names, text, nullable, key, textDefault, choice]
  have hReal : row.mapM (realEntry rowids "rfc_relations") = .ok row := by
    have hPlain : (["rfc_text_id", "related_rfc", "relation"].all fun column =>
        decide ((entityFkMappings.find? fun mapping => mapping.1 = column) = none)) = true := by simp [entityFkMappings]
    have hRow : row.mapM (realEntry rowids "rfc_relations") = .ok (row.map id) := by
      refine Traversal.mapM_eq_ok_map fun e he => ?_
      have hMem : e.1 ∈ ["rfc_text_id", "related_rfc", "relation"] := hNames ▸ List.mem_map_of_mem he
      rw [realEntry, of_decide_eq_true (List.all_eq_true.mp hPlain e.1 hMem)]
      rfl
    rw [hRow, List.map_id]
  have hFirst : "rfc_text_id" ∈ row.map Prod.fst := hNames ▸ List.mem_cons_self
  obtain ⟨e, he, hName⟩ := List.mem_map.mp hFirst
  have hUnknown : ∀ s ∈ schema, e.1 ∉ s.names := by
    intro s hs
    rw [hName]
    exact of_decide_eq_true (List.all_eq_true.mp hColumn s hs)
  have hInsert : insert clock db' "rfc_relations" row = none := insert_eq_none he hUnknown db'
  rw [importRow, if_neg (by simp), importRegularRow, hReal]
  simp only [bind, Except.bind, executeInsert, hInsert]

theorem importFrom_error {clock : Clock} {dumps : List (String × String)} {last : String × String}
    (h : ∀ rowids db', ∃ e, importFrom clock rowids [last] db' = .error e) (rowids : RowidMaps) (db' : Tables) :
    ∃ e, importFrom clock rowids (dumps ++ [last]) db' = .error e := by
  induction dumps generalizing rowids db' with
  | nil => exact h rowids db'
  | cons dump dumps ih =>
    rw [List.cons_append, importFrom]
    split
    · exact ih rowids db'
    · cases hTable : importSingleTable clock rowids dump.1 dump.2 db' with
      | error e => exact ⟨e, rfl⟩
      | ok next => exact ih next.1 next.2

theorem names_relation (hDb : Admitted db) {row : Row} (hRow : row ∈ writtenRows db "rfc_relations") :
    row.map Prod.fst = ["rfc_text_id", "related_rfc", "relation"] := by
  have hAll : (schema.all fun s => decide (s.name ≠ "rfc_relations") ||
      decide (s.columns.map (writtenName s) = ["rfc_text_id", "related_rfc", "relation"])) = true := by
    decide +kernel
  obtain ⟨s, hs, hName⟩ : ∃ s ∈ schema, s.name = "rfc_relations" := List.mem_map.mp (by simp [schema])
  obtain ⟨stored, hStored, rfl⟩ := List.mem_map.mp hRow
  have hColumns := List.all_eq_true.mp hAll s hs
  rw [hName, decide_eq_false (not_not_intro rfl), Bool.false_or, decide_eq_true_eq] at hColumns
  rw [← hName] at hStored ⊢
  rw [writtenRow_eq hDb hs (mem_inDumpOrder.mp hStored), List.map_map, ← hColumns]
  rfl

theorem importTables_relations (hDb : Admitted db) (generation : Int) (clock : Clock)
    (hRelations : db "rfc_relations" ≠ []) :
    ∃ e, importTables clock (dumpFiles generation db) migrated = .error e := by
  have hOrder : dumpOrder = dumpOrder.dropLast ++ ["rfc_relations"] := rfl
  have hTable : "rfc_relations" ∈ schema.map TableSchema.name := by simp [schema]
  have hNamed : ∀ row ∈ writtenRows db "rfc_relations", Named "rfc_relations" (row.map Prod.fst) := fun row hRow =>
    named_of_mem hDb hTable hRow
  rw [dumpFiles, hOrder, List.map_append, importTables]
  refine importFrom_error (fun rowids db' => ⟨.sqlite, ?_⟩) _ _
  dsimp only
  cases hRows : writtenRows db "rfc_relations" with
  | nil =>
    have hLength := congrArg List.length hRows
    rw [writtenRows, inDumpOrder, kept_of_ne (by simp), List.length_map, List.length_mergeSort] at hLength
    exact absurd (List.eq_nil_of_length_eq_zero hLength) hRelations
  | cons row rows =>
    rw [hRows] at hNamed
    have hCarries := carries_dumpBody hNamed
    rw [fileText, if_neg (by simp), importFrom, if_neg fun hBlank =>
      absurd (hCarries.blank hBlank) (List.cons_ne_nil _ _), importSingleTable, lines_dumpBody hNamed, List.map_cons,
      importLines_row 1 (hNamed row List.mem_cons_self),
      importRow_relation clock rowids (names_relation hDb (hRows ▸ List.mem_cons_self))]
    rfl

/-! ## The round trip -/

end Exosuit.Dump
