import Exosuit.Lib.Traversal
import Exosuit.Storage.Snapshot

/-!
# Rows of a dump

What the dump makes of a row, and what the import makes of that: the foreign key is written as the
text id of its row, and read as the rowid that this text id has by then.
-/

namespace Exosuit.Dump

open Lib

/-! ## Columns -/

theorem value_of_mem {row : Row} (hNodup : (row.map Prod.fst).Nodup) {e : String × SqlValue} (he : e ∈ row) :
    value row e.1 = e.2 := by
  induction row with
  | nil => cases he
  | cons first row ih =>
    rw [List.map_cons, List.nodup_cons] at hNodup
    rw [value, List.lookup_cons]
    rcases List.mem_cons.mp he with rfl | hRest
    · rw [beq_self_eq_true]
      rfl
    · have hNe : (e.1 == first.1) = false := by
        rw [beq_eq_false_iff_ne]
        intro hEq
        exact hNodup.1 (hEq ▸ List.mem_map_of_mem hRest)
      rw [hNe]
      exact ih hNodup.2 hRest

theorem map_value_eq {row : Row} {columns : List String} (hNames : row.map Prod.fst = columns)
    (hNodup : columns.Nodup) : columns.map (fun c => (c, value row c)) = row := by
  subst hNames
  rw [List.map_map]
  calc
    row.map ((fun c => (c, value row c)) ∘ Prod.fst) = row.map id := by
      refine List.map_congr_left fun e he => ?_
      rw [Function.comp_apply, value_of_mem hNodup he]
      rfl
    _ = row := List.map_id row

theorem readRows_eq {rows : List Stored} {columns : List String} (hNodup : columns.Nodup)
    (hNames : ∀ stored ∈ rows, stored.2.map Prod.fst = columns) :
    readRows rows columns = rows.map Prod.snd :=
  List.map_congr_left fun stored hStored => map_value_eq (hNames stored hStored) hNodup

/-! ## Foreign keys -/

/-- A foreign key with the text id in the place of the rowid. -/
def keyText (map : IdMap) : SqlValue → SqlValue
  | .integer rowid => .text ((map rowid).getD "")
  | v => v

def resolvedColumn (maps : String → IdMap) (fkRenames : List (String × String)) (e : String × SqlValue) :
    String × SqlValue :=
  match fkRenames.lookup e.1 with
  | some newCol => (newCol, keyText (maps (fkTable e.1)) e.2)
  | none => e

def resolvedRow (maps : String → IdMap) (fkRenames : List (String × String)) (row : Row) : Row :=
  row.map (resolvedColumn maps fkRenames)

def Known (map : IdMap) (v : SqlValue) : Prop := ∃ rowid name, v = .integer rowid ∧ map rowid = some name

theorem resolvedColumn_none {maps : String → IdMap} {fkRenames : List (String × String)} {e : String × SqlValue}
    (h : fkRenames.lookup e.1 = none) : resolvedColumn maps fkRenames e = e := by
  rw [resolvedColumn, h]

theorem resolvedColumn_some {maps : String → IdMap} {fkRenames : List (String × String)} {e : String × SqlValue}
    {newCol : String} (h : fkRenames.lookup e.1 = some newCol) :
    resolvedColumn maps fkRenames e = (newCol, keyText (maps (fkTable e.1)) e.2) := by
  rw [resolvedColumn, h]

theorem resolveEntry_eq {map : IdMap} {table oldCol newCol : String} {row : Row}
    (hNodup : (row.map Prod.fst).Nodup) (hKnown : ∀ e ∈ row, e.1 = oldCol → Known map e.2) :
    resolveEntry map table oldCol newCol row =
      .ok (row.map fun e => if e.1 = oldCol then (newCol, keyText map e.2) else e) := by
  induction row with
  | nil => rfl
  | cons e row ih =>
    rw [List.map_cons, List.nodup_cons] at hNodup
    rw [resolveEntry, List.map_cons]
    by_cases hOld : e.1 = oldCol
    · obtain ⟨rowid, name, hValue, hName⟩ := hKnown e List.mem_cons_self hOld
      have hRest : row.map (fun e => if e.1 = oldCol then (newCol, keyText map e.2) else e) = row := by
        rw [List.map_congr_left (g := id), List.map_id]
        intro e' he'
        rw [if_neg]
        · rfl
        · rintro hSame
          exact hNodup.1 (hOld.trans hSame.symm ▸ List.mem_map_of_mem he')
      rw [if_pos hOld, if_pos hOld, hRest, hValue]
      simp only [resolveFk, hName, keyText, Option.getD_some]
    · rw [if_neg hOld, if_neg hOld, ih hNodup.2 fun e' he' => hKnown e' (List.mem_cons_of_mem _ he')]

theorem resolveRowFks_eq {maps : String → IdMap} {table : String} {fkRenames : List (String × String)} {row : Row}
    (hOne : fkRenames.length ≤ 1) (hNodup : (row.map Prod.fst).Nodup)
    (hKnown : ∀ e ∈ row, e.1 ∈ fkRenames.map Prod.fst → Known (maps (fkTable e.1)) e.2) :
    resolveRowFks (maps ∘ fkTable) table fkRenames row = .ok (resolvedRow maps fkRenames row) := by
  rcases fkRenames with _ | ⟨⟨oldCol, newCol⟩, _ | ⟨next, rest⟩⟩
  · rw [resolveRowFks, resolvedRow, List.map_congr_left (g := id), List.map_id]
    intro e he
    rfl
  · unfold resolveRowFks
    rw [Function.comp_apply, resolveEntry_eq hNodup]
    · dsimp only
      rw [resolveRowFks, resolvedRow]
      congr 1
      refine List.map_congr_left fun e he => ?_
      rw [resolvedColumn, List.lookup_cons]
      by_cases hOld : e.1 = oldCol
      · rw [if_pos hOld, hOld, beq_self_eq_true]
      · rw [if_neg hOld, beq_eq_false_iff_ne.mpr hOld]
        rfl
    · rintro e he rfl
      exact hKnown e he List.mem_cons_self
  · simp at hOne

/-! ## Reading a row back -/

structure Imports (t : DumpedTable) : Prop where
  one : t.fkRenames.length ≤ 1
  nodup : t.columns.Nodup
  renamed : ∀ c ∈ t.columns, ∀ newCol, t.fkRenames.lookup c = some newCol →
    entityFkMappings.find? (fun mapping => mapping.1 = newCol) = some (newCol, c, fkTable c)
  plain : ∀ c ∈ t.columns, t.fkRenames.lookup c = none →
    entityFkMappings.find? (fun mapping => mapping.1 = c) = none

def importsColumn (fkRenames : List (String × String)) (c : String) : Bool :=
  match fkRenames.lookup c with
  | some newCol => entityFkMappings.find? (fun mapping => mapping.1 = newCol) = some (newCol, c, fkTable c)
  | none => entityFkMappings.find? (fun mapping => mapping.1 = c) = none

theorem imports_of_mem {t : DumpedTable} (h : t ∈ dumpedTables) (hRelations : t.table ≠ "rfc_relations") :
    Imports t := by
  have hAll : (dumpedTables.all fun t => decide (t.table = "rfc_relations") ||
      (decide (t.fkRenames.length ≤ 1) && decide t.columns.Nodup &&
        t.columns.all (importsColumn t.fkRenames))) = true := by
    decide +kernel
  have hTable := List.all_eq_true.mp hAll t h
  rw [Bool.or_eq_true, decide_eq_true_eq, or_iff_right hRelations, Bool.and_eq_true, Bool.and_eq_true,
    decide_eq_true_eq, decide_eq_true_eq, List.all_eq_true] at hTable
  obtain ⟨⟨hOne, hNodup⟩, hColumns⟩ := hTable
  refine ⟨hOne, hNodup, fun c hc newCol hRename => ?_, fun c hc hRename => ?_⟩
  · have hColumn := hColumns c hc
    rw [importsColumn, hRename] at hColumn
    exact of_decide_eq_true hColumn
  · have hColumn := hColumns c hc
    rw [importsColumn, hRename] at hColumn
    exact of_decide_eq_true hColumn

/-- The maps of the import take the names that the dump gave back to the rowids. -/
def Inverts (maps : String → IdMap) (rowids : RowidMaps) (parent : String) (v : SqlValue) : Prop :=
  ∃ rowid name, v = .integer rowid ∧ maps parent rowid = some name ∧
    (rowids parent).bind (fun map => map name) = some rowid

theorem mapM_realEntry {t : DumpedTable} (ht : Imports t) {maps : String → IdMap} {rowids : RowidMaps}
    {row : Row} (hNames : row.map Prod.fst = t.columns)
    (hInverts : ∀ e ∈ row, e.1 ∈ t.fkRenames.map Prod.fst → Inverts maps rowids (fkTable e.1) e.2) :
    (resolvedRow maps t.fkRenames row).mapM (realEntry rowids t.table) = .ok row := by
  rw [Traversal.mapM_eq_ok, resolvedRow, List.forall₂_map_left_iff]
  refine List.forall₂_same.mpr fun e he => ?_
  have hColumn : e.1 ∈ t.columns := hNames ▸ List.mem_map_of_mem he
  cases hRename : t.fkRenames.lookup e.1 with
  | none => rw [resolvedColumn_none hRename, realEntry, ht.plain e.1 hColumn hRename]
  | some newCol =>
    obtain ⟨rowid, name, hValue, hName, hRowid⟩ := hInverts e he (by
      obtain ⟨l, r, hSplit, -⟩ := List.lookup_eq_some_iff.mp hRename
      rw [hSplit]
      simp)
    rw [resolvedColumn_some hRename, realEntry, ht.renamed e.1 hColumn newCol hRename, hValue]
    dsimp only
    rw [keyText, hName, Option.getD_some]
    dsimp only
    rw [lookupRowid, hRowid, Except.map]
    exact congrArg Except.ok (Prod.ext rfl hValue.symm)

/-! ## Aliases -/

def aliasRow (entityType : String) (rowid : Int64) (name : SqlValue) : Row :=
  [("entity_type", .text entityType), ("entity_id", .integer rowid), ("alias", name)]

def dumpedAlias (entityType textId : String) (name : SqlValue) : Row :=
  [("entity_type", .text entityType), ("entity_text_id", .text textId), ("alias", name)]

theorem resolveAlias_eq {maps : String → IdMap} {entityType parent : String} {rowid : Int64} {name : SqlValue}
    (hParent : entityTable entityType = some parent) :
    resolveAlias (fun entityType => (entityTable entityType).map maps) (aliasRow entityType rowid name) =
      .ok ((maps parent rowid).map fun textId => dumpedAlias entityType textId name) := by
  rw [aliasRow, resolveAlias, hParent, Option.map_some]
  dsimp only
  rw [resolveFk]
  cases maps parent rowid with
  | none => rfl
  | some textId => rfl

theorem importEntityAliasRow_eq {clock : Clock} {rowids : RowidMaps} {db : Tables}
    {entityType parent textId : String} {rowid : Int64} {name : SqlValue}
    (hParent : entityTable entityType = some parent)
    (hRowid : (rowids parent).bind (fun map => map textId) = some rowid) :
    importEntityAliasRow clock rowids (dumpedAlias entityType textId name) db =
      executeInsert clock db "entity_aliases" (aliasRow entityType rowid name) := by
  have hType : stringColumn (dumpedAlias entityType textId name) "entity_type" = .ok entityType := rfl
  have hId : stringColumn (dumpedAlias entityType textId name) "entity_text_id" = .ok textId := rfl
  have hHasType : hasColumn (dumpedAlias entityType textId name) "entity_type" = .ok () := rfl
  have hHasId : hasColumn (dumpedAlias entityType textId name) "entity_text_id" = .ok () := rfl
  have hLookup : lookupRowid rowids parent "entity_aliases" "entity_text_id" textId = .ok rowid := by
    rw [lookupRowid, hRowid]
  have hReal : (dumpedAlias entityType textId name).map (fun entry =>
      if entry.1 = "entity_text_id" then ("entity_id", .integer rowid) else entry) =
        aliasRow entityType rowid name := rfl
  simp only [importEntityAliasRow, hHasType, hHasId, hType, hId, hParent, hLookup, hReal, bind, Except.bind]

end Exosuit.Dump
