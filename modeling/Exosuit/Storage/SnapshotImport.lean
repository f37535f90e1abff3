import Mathlib.Data.List.Pairwise
import Mathlib.Data.List.TakeWhile
import Exosuit.Storage.SnapshotRows

/-!
# Importing what was dumped

A database whose rows are numbered in the order of its dump is what the import of that dump makes
of the migrated tables.
-/

namespace Exosuit.Dump

open Lib Projection

/-! ## Lines -/

theorem trimList_eq_self {p : Char → Bool} {first last : Char} {mid l : List Char} (hl : l = first :: (mid ++ [last]))
    (hFirst : p first = false) (hLast : p last = false) : Text.trimList p l = l := by
  have hReverse : l.reverse = last :: (mid.reverse ++ [first]) := by rw [hl]; simp
  rw [Text.trimList, hl, List.dropWhile_cons_of_neg (by rw [hFirst]; exact Bool.false_ne_true), ← hl, hReverse,
    List.dropWhile_cons_of_neg (by rw [hLast]; exact Bool.false_ne_true), ← hReverse, List.reverse_reverse]

theorem toList_rowToInsert_ends (table : String) (row : Row) :
    ∃ mid, (rowToInsert table row).toList = 'I' :: (mid ++ [';']) := by
  have hInto : ∃ rest, insertInto table = 'I' :: rest := by
    have hText : "INSERT INTO ".toList = 'I' :: "NSERT INTO ".toList := by simp
    rw [insertInto, String.toList_append, hText]
    exact ⟨_, rfl⟩
  obtain ⟨rest, hRest⟩ := hInto
  rw [toList_rowToInsert, hRest]
  refine ⟨rest ++ '(' :: (columnsChars (row.map Prod.fst) ++ ')' :: ([' '] ++ "VALUES(".toList ++
    (valuesChars (row.map Prod.snd) ++ [')']))), ?_⟩
  simp

/-- A statement is neither blank nor a comment. -/
theorem trim_rowToInsert (table : String) (row : Row) :
    Text.trim (rowToInsert table row) = rowToInsert table row ∧
      ¬ (rowToInsert table row = "" ∨ Text.startsWith (rowToInsert table row) "--" = true) := by
  obtain ⟨mid, hMid⟩ := toList_rowToInsert_ends table row
  refine ⟨?_, ?_⟩
  · rw [Text.trim, trimList_eq_self hMid (by decide) (by decide), String.ofList_toList]
  · rintro (hEmpty | hComment)
    · rw [hEmpty] at hMid
      simp at hMid
    · have hDashes : "--".toList = ['-', '-'] := by simp
      rw [Text.startsWith, hDashes, hMid, List.isPrefixOf_iff_prefix] at hComment
      obtain ⟨tail, hTail⟩ := hComment
      cases hTail

theorem importLines_row {clock : Clock} {rowids : RowidMaps} {table : String} {row : Row} {lines : List String}
    {db : Tables} (n : Nat) (hNamed : Named table (row.map Prod.fst)) :
    importLines clock rowids table n (rowToInsert table row :: lines) db =
      (importRow clock rowids table row db).bind (importLines clock rowids table (n + 1) lines) := by
  obtain ⟨hTrim, hRow⟩ := trim_rowToInsert table row
  have hZip : (row.map Prod.fst).zip (row.map Prod.snd) = row := (List.zip_of_prod rfl rfl).symm
  rw [importLines, hTrim, if_neg hRow, parseInsert_rowToInsert hNamed]
  simp only [Except.mapError, bind, Except.bind, hZip]

/-! ## Numbered rows -/

def numbered (rows : List Row) : List Stored := rows.zipIdx.map fun e => (Int64.ofNat (e.2 + 1), e.1)

theorem numbered_concat (rows : List Row) (row : Row) :
    numbered (rows ++ [row]) = numbered rows ++ [(Int64.ofNat (rows.length + 1), row)] := by
  rw [numbered, List.zipIdx_append, List.map_append, Nat.zero_add]
  rfl

theorem map_snd_numbered (rows : List Row) : (numbered rows).map Prod.snd = rows := by
  rw [numbered, List.map_map]
  exact List.zipIdx_map_fst 0 rows

/-- Fewer rows than a rowid can number. -/
def Room (n : Nat) : Prop := n < 2 ^ 63

theorem mem_numbered {rows : List Row} (hRoom : Room rows.length) {stored : Stored} (h : stored ∈ numbered rows) :
    1 ≤ stored.1.toInt ∧ stored.1.toInt ≤ rows.length := by
  obtain ⟨⟨row, i⟩, hMem, rfl⟩ := List.mem_map.mp h
  have hLt := List.snd_lt_of_mem_zipIdx hMem
  rw [Room] at hRoom
  dsimp only at hLt ⊢
  rw [Int64.toInt_ofNat_of_lt (by omega)]
  omega

theorem nextRowid_numbered {rows : List Row} (hRoom : Room (rows.length + 1)) :
    nextRowid (numbered rows) = some (Int64.ofNat (rows.length + 1)) := by
  rw [Room] at hRoom
  rcases List.eq_nil_or_concat' rows with rfl | ⟨rest, last, rfl⟩
  · rfl
  · rw [List.length_append, List.length_singleton] at hRoom ⊢
    have hLast : (Int64.ofNat (rest.length + 1)).toInt = (rest.length + 1 : Nat) :=
      Int64.toInt_ofNat_of_lt (by omega)
    have hMax : ((numbered (rest ++ [last])).map fun stored => stored.1.toInt).max? =
        some ((rest.length + 1 : Nat) : Int) := by
      rw [List.max?_eq_some_iff]
      constructor
      · rw [numbered_concat, List.map_append, ← hLast]
        exact List.mem_append_right _ (List.mem_singleton_self _)
      · intro n hn
        obtain ⟨stored, hStored, rfl⟩ := List.mem_map.mp hn
        have hBound := (mem_numbered (by rw [Room, List.length_append]; simp; omega) hStored).2
        rw [List.length_append, List.length_singleton] at hBound
        exact hBound
    rw [nextRowid, hMax]
    dsimp only
    rw [if_pos (by rw [Int64.toInt_maxValue]; omega)]
    congr 1

/-! ## Insertion -/

theorem schema_names_nodup : (schema.map TableSchema.name).Nodup := by simp [schema]

theorem find_schema {s : TableSchema} (hs : s ∈ schema) : schema.find? (fun s' => s'.name = s.name) = some s := by
  obtain ⟨before, after, hSplit⟩ := List.append_of_mem hs
  rw [List.find?_eq_some_iff_append]
  refine ⟨decide_eq_true rfl, before, after, hSplit, fun s' hs' => ?_⟩
  have hNodup := schema_names_nodup
  rw [hSplit, List.map_append, List.nodup_append] at hNodup
  rw [Bool.not_eq_true', decide_eq_false_iff_not]
  exact hNodup.2.2 _ (List.mem_map_of_mem hs') _ (List.mem_map_of_mem List.mem_cons_self)

theorem schema_columns_nodup {s : TableSchema} (hs : s ∈ schema) : s.names.Nodup := by
  have hAll : (schema.all fun s => decide s.names.Nodup) = true := by
    simp [schema, TableSchema.names, text, nullable, key, textDefault, choice]
  exact of_decide_eq_true (List.all_eq_true.mp hAll s hs)

theorem names_of_wellTyped {s : TableSchema} {row : Row} (h : s.wellTyped row = true) :
    row.map Prod.fst = s.names := by
  rw [TableSchema.wellTyped, Bool.and_eq_true, Bool.and_eq_true, decide_eq_true_eq] at h
  exact h.1.1

theorem columns_lookup {s : TableSchema} (hs : s ∈ schema) {row : Row} (hNames : row.map Prod.fst = s.names)
    (clock : Clock) :
    (s.columns.map fun c => (c.name, (row.lookup c.name).getD (c.default.value clock))) = row := by
  calc
    (s.columns.map fun c => (c.name, (row.lookup c.name).getD (c.default.value clock))) =
        s.columns.map ((fun c => (c, value row c)) ∘ Column.name) := by
      refine List.map_congr_left fun c hc => ?_
      have hName : c.name ∈ row.map Prod.fst := by
        rw [hNames]
        exact List.mem_map_of_mem hc
      obtain ⟨e, he, hEq⟩ := List.mem_map.mp hName
      obtain ⟨v, hv⟩ : ∃ v, row.lookup c.name = some v := by
        rw [← Option.ne_none_iff_exists', ne_eq, List.lookup_eq_none_iff]
        exact fun hNone => absurd (hNone e he) (by rw [hEq, bne_self_eq_false]; exact Bool.false_ne_true)
      rw [Function.comp_apply, value, hv]
      rfl
    _ = row := by
      rw [← List.map_map]
      exact map_value_eq hNames (schema_columns_nodup hs)

theorem insert_eq_some {clock : Clock} {db : Tables} {s : TableSchema} {row : Row} {rowid : Int64} (hs : s ∈ schema)
    (hTyped : s.wellTyped row = true) (hApart : ∀ stored ∈ db s.name, s.apart stored.2 row = true)
    (hResolves : s.resolves db row = true) (hRowid : nextRowid (db s.name) = some rowid) :
    insert clock db s.name row = some (Function.update db s.name (db s.name ++ [(rowid, row)])) := by
  have hNames := names_of_wellTyped hTyped
  have hKnown : (row.all fun e => decide (e.1 ∈ s.names)) = true := by
    rw [List.all_eq_true]
    intro e he
    exact decide_eq_true (hNames ▸ List.mem_map_of_mem he)
  have hOthers : ((db s.name).all fun stored => s.apart stored.2 row) = true := List.all_eq_true.mpr hApart
  simp only [insert, find_schema hs, columns_lookup hs hNames, hKnown, hTyped, hOthers, hResolves, hRowid,
    Bool.and_self, guard_true, Option.pure_def, Option.bind_eq_bind, Option.bind_some]

theorem references_ne {s : TableSchema} (hs : s ∈ schema) {c : Column} (hc : c ∈ s.columns) :
    c.references ≠ some s.name := by
  have hAll : (schema.all fun s => s.columns.all fun c => decide (c.references ≠ some s.name)) = true := by
    simp [schema, text, nullable, key, textDefault, choice]
  exact of_decide_eq_true (List.all_eq_true.mp (List.all_eq_true.mp hAll s hs) c hc)

theorem references_aliases {s : TableSchema} (hs : s ∈ schema) (hAlias : s.name = "entity_aliases") {c : Column}
    (hc : c ∈ s.columns) : c.references = none := by
  have hAll : (schema.all fun s => decide (s.name ≠ "entity_aliases") ||
      s.columns.all fun c => decide (c.references = none)) = true := by simp [schema, text]
  have hColumns := List.all_eq_true.mp hAll s hs
  rw [Bool.or_eq_true, decide_eq_true_eq, or_iff_right (not_not_intro hAlias)] at hColumns
  exact of_decide_eq_true (List.all_eq_true.mp hColumns c hc)

theorem resolves_iff {db : Tables} {s : TableSchema} {row : Row} :
    s.resolves db row = true ↔ ∀ c ∈ s.columns, ∀ parent, c.references = some parent →
      ∀ rowid, value row c.name = .integer rowid → ∃ stored ∈ db parent, stored.1 = rowid := by
  rw [TableSchema.resolves, List.all_eq_true]
  refine forall₂_congr fun c _ => ?_
  cases hParent : c.references with
  | none => simp
  | some parent =>
    cases hValue : value row c.name with
    | integer rowid => simp
    | null | text => simp

theorem resolves_update {db : Tables} {s : TableSchema} (hs : s ∈ schema) (rows : List Stored) (row : Row) :
    s.resolves (Function.update db s.name rows) row = s.resolves db row := by
  rw [Bool.eq_iff_iff, resolves_iff, resolves_iff]
  refine forall₂_congr fun c hc => forall₂_congr fun parent hParent => ?_
  have hNe : parent ≠ s.name := by
    rintro rfl
    exact references_ne hs hc hParent
  rw [Function.update_of_ne hNe]

theorem importLines_rows {clock : Clock} {rowids : RowidMaps} {db : Tables} {s : TableSchema} (hs : s ∈ schema)
    {written : Row → Row} {rows : List Row} (pre : List Row) (n : Nat)
    (hNamed : ∀ row ∈ rows, Named s.name ((written row).map Prod.fst))
    (hImport : ∀ row ∈ rows, ∀ db', importRow clock rowids s.name (written row) db' =
      executeInsert clock db' s.name row)
    (hTyped : ∀ row ∈ rows, s.wellTyped row = true)
    (hApart : (pre ++ rows).Pairwise fun row row' => s.apart row row' = true)
    (hResolves : ∀ row ∈ rows, s.resolves db row = true) (hRoom : Room (pre ++ rows).length) :
    importLines clock rowids s.name n (rows.map fun row => rowToInsert s.name (written row))
        (Function.update db s.name (numbered pre)) =
      .ok (Function.update db s.name (numbered (pre ++ rows))) := by
  induction rows generalizing pre n with
  | nil => rw [List.map_nil, importLines, List.append_nil]
  | cons row rows ih =>
    have hAppend : pre ++ row :: rows = (pre ++ [row]) ++ rows := by simp
    have hPre : ∀ stored ∈ numbered pre, s.apart stored.2 row = true := by
      intro stored hStored
      have hOld : stored.2 ∈ pre := map_snd_numbered pre ▸ List.mem_map_of_mem hStored
      exact (List.pairwise_append.mp hApart).2.2 _ hOld _ List.mem_cons_self
    have hNext : nextRowid (numbered pre) = some (Int64.ofNat (pre.length + 1)) := by
      refine nextRowid_numbered ?_
      rw [Room, List.length_append, List.length_cons] at hRoom
      rw [Room]
      omega
    have hInsert : insert clock (Function.update db s.name (numbered pre)) s.name row =
        some (Function.update db s.name (numbered (pre ++ [row]))) := by
      rw [insert_eq_some hs (hTyped row List.mem_cons_self)
        (by rw [Function.update_self]; exact hPre)
        (by rw [resolves_update hs]; exact hResolves row List.mem_cons_self)
        (by rw [Function.update_self]; exact hNext),
        Function.update_self, Function.update_idem, numbered_concat]
    rw [List.map_cons, importLines_row n (hNamed row List.mem_cons_self), hImport row List.mem_cons_self,
      executeInsert, hInsert, hAppend]
    rw [hAppend] at hApart hRoom
    exact ih (pre ++ [row]) (n + 1) (fun row' h => hNamed row' (List.mem_cons_of_mem _ h))
      (fun row' h => hImport row' (List.mem_cons_of_mem _ h))
      (fun row' h => hTyped row' (List.mem_cons_of_mem _ h)) hApart
      (fun row' h => hResolves row' (List.mem_cons_of_mem _ h)) hRoom

/-! ## Text ids -/

theorem find_of_unique {α : Type*} {l : List α} {p : α → Bool} {a : α} (ha : a ∈ l) (hp : p a = true)
    (hOnly : ∀ b ∈ l, p b = true → b = a) : l.find? p = some a := by
  cases hFind : l.find? p with
  | none => exact absurd hp (List.find?_eq_none.mp hFind a ha)
  | some b =>
    have hb := hOnly b (List.mem_of_find?_eq_some hFind) (List.find?_some hFind)
    rw [hb]

theorem apart_comm {s : TableSchema} {row row' : Row} (h : s.apart row row' = true) : s.apart row' row = true := by
  rw [TableSchema.apart, List.all_eq_true] at h ⊢
  intro columns hColumns
  have hApart := h columns hColumns
  rw [Bool.or_eq_true, decide_eq_true_eq] at hApart ⊢
  by_cases hSame : columns.map (value row) = columns.map (value row')
  · obtain ⟨c, hc, hNull⟩ := List.any_eq_true.mp (hApart.resolve_right (not_not_intro hSame))
    refine .inl (List.any_eq_true.mpr ⟨c, hc, ?_⟩)
    rw [decide_eq_true_eq] at hNull ⊢
    rw [← List.map_eq_map_iff.mp hSame c hc, hNull]
  · exact .inr (Ne.symm hSame)

theorem keyed_schema {table : String} (h : table ∈ keyedTables) :
    ∃ s ∈ schema, s.name = table ∧ ["text_id"] ∈ s.unique ∧
      ∃ c ∈ s.columns, c.name = "text_id" ∧ c.affinity = .text ∧ c.notNull = true := by
  have hAll : (keyedTables.all fun table => schema.any fun s => decide (s.name = table) &&
      decide (["text_id"] ∈ s.unique) && s.columns.any fun c => decide (c.name = "text_id") &&
        decide (c.affinity = .text) && c.notNull) = true := by simp [keyedTables, schema, text]
  have hTable := List.all_eq_true.mp hAll table h
  simp only [List.any_eq_true, Bool.and_eq_true, decide_eq_true_eq] at hTable
  obtain ⟨s, hs, ⟨hName, hUnique⟩, c, hc, ⟨hColumn, hText⟩, hNotNull⟩ := hTable
  exact ⟨s, hs, hName, hUnique, c, hc, hColumn, hText, hNotNull⟩

theorem admits_of_wellTyped {s : TableSchema} {row : Row} (h : s.wellTyped row = true) {c : Column}
    (hc : c ∈ s.columns) : c.admits (value row c.name) = true := by
  rw [TableSchema.wellTyped, Bool.and_eq_true, Bool.and_eq_true] at h
  exact List.all_eq_true.mp h.1.2 c hc

theorem textId_of_idMap {rows : List Stored} {rowid : Int64} {name : String} (hName : idMap rows rowid = some name) :
    ∃ stored ∈ rows, stored.1 = rowid ∧ textId stored.2 = some name := by
  obtain ⟨stored, hFind, hText⟩ := Option.bind_eq_some_iff.mp hName
  exact ⟨stored, List.mem_of_find?_eq_some hFind, of_decide_eq_true (List.find?_eq_some_iff_append.mp hFind).1, hText⟩

section

variable {db : Tables} {table : String} (hDb : Admitted db) (hKeyed : table ∈ keyedTables)
include hDb hKeyed

theorem exists_textId {stored : Stored} (hStored : stored ∈ db table) : ∃ name, textId stored.2 = some name := by
  obtain ⟨s, hs, rfl, -, c, hc, hColumn, hText, hNotNull⟩ := keyed_schema hKeyed
  have hAdmits := admits_of_wellTyped (hDb.wellTyped s hs stored hStored) hc
  rw [hColumn] at hAdmits
  rw [textId]
  cases hValue : value stored.2 "text_id" with
  | text name => exact ⟨name, rfl⟩
  | null =>
    rw [hValue, Column.admits, hNotNull] at hAdmits
    cases hAdmits
  | integer rowid =>
    rw [hValue, Column.admits, hText] at hAdmits
    cases hAdmits

theorem idMap_eq {stored : Stored} (hStored : stored ∈ db table) : idMap (db table) stored.1 = textId stored.2 := by
  obtain ⟨s, hs, rfl, -⟩ := keyed_schema hKeyed
  rw [idMap, find_of_unique hStored (decide_eq_true rfl), Option.bind_some]
  intro other hOther hSame
  exact List.inj_on_of_nodup_map (hDb.rowids s hs) hOther hStored (of_decide_eq_true hSame)

theorem eq_of_textId {stored other : Stored} (hStored : stored ∈ db table) (hOther : other ∈ db table)
    (hSame : textId other.2 = textId stored.2) : other = stored := by
  obtain ⟨name, hName⟩ := exists_textId hDb hKeyed hStored
  obtain ⟨s, hs, rfl, hUnique, -⟩ := keyed_schema hKeyed
  by_contra hNe
  have hSymm : Std.Symm fun stored stored' : Stored => s.apart stored.2 stored'.2 = true := ⟨fun _ _ => apart_comm⟩
  have hPairwise := (hDb.apart s hs).forall hOther hStored hNe
  have hValue : ∀ {row : Row}, textId row = some name → value row "text_id" = .text name := by
    intro row hRow
    rw [textId] at hRow
    split at hRow
    · next hText => rw [hText, Option.some.inj hRow]
    · cases hRow
  have hApart := List.all_eq_true.mp hPairwise _ hUnique
  simp [hValue hName, hValue (hSame.trans hName)] at hApart

theorem rowidMap_eq {stored : Stored} {name : String} (hStored : stored ∈ db table)
    (hName : textId stored.2 = some name) : rowidMap (db table) name = some stored.1 := by
  rw [rowidMap, find_of_unique (List.mem_reverse.mpr hStored) (decide_eq_true hName), Option.map_some]
  intro other hOther hSame
  exact eq_of_textId hDb hKeyed hStored (List.mem_reverse.mp hOther) ((of_decide_eq_true hSame).trans hName.symm)

end

/-! ## Rows of a database -/

def renamesOf (table : String) : List (String × String) :=
  ((dumpedTables.find? fun t => t.table = table).map DumpedTable.fkRenames).getD []

def dumpedAliasRow (maps : String → IdMap) : Row → Row
  | [(_, .text entityType), (_, .integer rowid), (_, name)] =>
    dumpedAlias entityType (((entityTable entityType).bind fun parent => maps parent rowid).getD "") name
  | row => row

def dumpedRow (maps : String → IdMap) (table : String) (row : Row) : Row :=
  if table = "entity_aliases" then dumpedAliasRow maps row else resolvedRow maps (renamesOf table) row

/-- The tables whose rowids the table's rows hold. -/
def parents (table : String) : List String :=
  if table = "entity_aliases" then ["epochs_data", "phases_data", "goals_data", "tasks_data"]
  else (renamesOf table).map fun rename => fkTable rename.1

def Names (db : Tables) (row : Row) : Prop :=
  ∃ entityType parent rowid name textId, row = aliasRow entityType rowid name ∧
    entityTable entityType = some parent ∧ idMap (db parent) rowid = some textId

structure Describes (t : DumpedTable) (s : TableSchema) : Prop where
  mem : t ∈ dumpedTables
  table : t.table = s.name
  columns : t.columns = s.names
  renames : renamesOf s.name = t.fkRenames
  references : ∀ c ∈ s.columns, c.references =
    if c.name ∈ t.fkRenames.map Prod.fst then some (fkTable c.name) else none
  keys : ∀ c ∈ s.columns, c.name ∈ t.fkRenames.map Prod.fst → c.notNull = true ∧ c.affinity = .integer
  keyed : ∀ c ∈ t.fkRenames.map Prod.fst, c ∈ s.names ∧ fkTable c ∈ keyedTables

theorem exists_describes {s : TableSchema} (hs : s ∈ schema) (hAlias : s.name ≠ "entity_aliases") :
    ∃ t, Describes t s := by
  have hAll : (schema.all fun s => decide (s.name = "entity_aliases") || dumpedTables.any fun t =>
      decide (t.table = s.name) && decide (t.columns = s.names) && decide (renamesOf s.name = t.fkRenames) &&
      (s.columns.all fun c => decide (c.references =
        if c.name ∈ t.fkRenames.map Prod.fst then some (fkTable c.name) else none)) &&
      (s.columns.all fun c => decide (c.name ∉ t.fkRenames.map Prod.fst) ||
        (c.notNull && decide (c.affinity = .integer))) &&
      ((t.fkRenames.map Prod.fst).all fun c => decide (c ∈ s.names) && decide (fkTable c ∈ keyedTables))) =
        true := by
    decide +kernel
  have hTable := List.all_eq_true.mp hAll s hs
  simp only [Bool.or_eq_true, decide_eq_true_eq, or_iff_right hAlias, List.any_eq_true, Bool.and_eq_true,
    List.all_eq_true] at hTable
  obtain ⟨t, hMem, ⟨⟨⟨⟨hName, hColumns⟩, hRenames⟩, hReferences⟩, hKeys⟩, hKeyed⟩ := hTable
  exact ⟨t, hMem, hName, hColumns, hRenames, hReferences,
    fun c hc hFk => (hKeys c hc).resolve_left (not_not_intro hFk), hKeyed⟩

theorem mem_columns {s : TableSchema} {name : String} (h : name ∈ s.names) : ∃ c ∈ s.columns, c.name = name :=
  List.mem_map.mp h

theorem not_null_integer {c : Column} {v : SqlValue} (hAdmits : c.admits v = true) (hNotNull : c.notNull = true)
    (hInteger : c.affinity = .integer) : ∃ rowid, v = .integer rowid := by
  cases v with
  | integer rowid => exact ⟨rowid, rfl⟩
  | null =>
    rw [Column.admits, hNotNull] at hAdmits
    cases hAdmits
  | text s =>
    rw [Column.admits, hInteger] at hAdmits
    cases hAdmits

theorem exists_parent {db : Tables} (hDb : Admitted db) {s : TableSchema} (hs : s ∈ schema) {t : DumpedTable}
    (ht : Describes t s) {stored : Stored} (hStored : stored ∈ db s.name) {c : String}
    (hc : c ∈ t.fkRenames.map Prod.fst) : ∃ row ∈ db (fkTable c), value stored.2 c = .integer row.1 := by
  obtain ⟨column, hColumn, rfl⟩ := mem_columns (ht.keyed c hc).1
  obtain ⟨hNotNull, hInteger⟩ := ht.keys column hColumn hc
  have hAdmits := admits_of_wellTyped (hDb.wellTyped s hs stored hStored) hColumn
  obtain ⟨rowid, hRowid⟩ := not_null_integer hAdmits hNotNull hInteger
  have hReference := ht.references column hColumn
  rw [if_pos hc] at hReference
  obtain ⟨row, hRow, rfl⟩ :=
    resolves_iff.mp (hDb.resolves s hs stored hStored) column hColumn _ hReference rowid hRowid
  exact ⟨row, hRow, hRowid⟩

/-- A database that is numbered, and whose aliases all name something. -/
structure Portable (db : Tables) : Prop where
  admitted : Admitted db
  ordered : ∀ table, db table = numbered ((db table).map Prod.snd)
  relations : db "rfc_relations" = []
  aliases : ∀ stored ∈ db "entity_aliases", Names db stored.2
  room : ∀ table, Room (db table).length
  absent : ∀ table, table ∉ schema.map TableSchema.name → db table = []

def AtHand (db : Tables) (rowids : RowidMaps) (table : String) : Prop :=
  db table ≠ [] → rowids table = some (rowidMap (db table))

theorem AtHand.bind {db : Tables} {rowids : RowidMaps} {table name : String} (h : AtHand db rowids table)
    (hDb : Admitted db) (hKeyed : table ∈ keyedTables) {stored : Stored} (hStored : stored ∈ db table)
    (hName : textId stored.2 = some name) : (rowids table).bind (fun map => map name) = some stored.1 := by
  rw [h (List.ne_nil_of_mem hStored), Option.bind_some, rowidMap_eq hDb hKeyed hStored hName]

theorem entityTable_keyed {entityType parent : String} (h : entityTable entityType = some parent) :
    parent ∈ keyedTables ∧ parent ∈ parents "entity_aliases" := by
  unfold entityTable at h
  split at h <;> cases h <;> decide +kernel

theorem Portable.importRow_eq {db : Tables} (hDb : Portable db) {clock : Clock} {rowids : RowidMaps}
    {s : TableSchema} (hs : s ∈ schema) (hRowids : ∀ parent ∈ parents s.name, AtHand db rowids parent)
    {stored : Stored} (hStored : stored ∈ db s.name) (db' : Tables) :
    importRow clock rowids s.name (dumpedRow (fun table => idMap (db table)) s.name stored.2) db' =
      executeInsert clock db' s.name stored.2 := by
  by_cases hAlias : s.name = "entity_aliases"
  · rw [hAlias] at hStored hRowids ⊢
    obtain ⟨entityType, parent, rowid, name, id, hRow, hParent, hId⟩ := hDb.aliases stored hStored
    obtain ⟨hKeyed, hMem⟩ := entityTable_keyed hParent
    obtain ⟨row, hStoredRow, rfl, hText⟩ := textId_of_idMap hId
    have hDumped : dumpedRow (fun table => idMap (db table)) "entity_aliases" stored.2 =
        dumpedAlias entityType id name := by
      rw [dumpedRow, if_pos rfl, hRow, aliasRow, dumpedAliasRow, hParent, Option.bind_some, hId,
        Option.getD_some]
    rw [importRow, if_pos rfl, hDumped, hRow]
    exact importEntityAliasRow_eq hParent
      ((hRowids parent hMem).bind hDb.admitted hKeyed hStoredRow hText)
  · obtain ⟨t, ht⟩ := exists_describes hs hAlias
    have hRelations : t.table ≠ "rfc_relations" := by
      intro hName
      rw [← ht.table, hName, hDb.relations] at hStored
      cases hStored
    have hImports := imports_of_mem ht.mem hRelations
    have hNames : stored.2.map Prod.fst = t.columns :=
      (names_of_wellTyped (hDb.admitted.wellTyped s hs stored hStored)).trans ht.columns.symm
    have hReal : (resolvedRow (fun table => idMap (db table)) t.fkRenames stored.2).mapM
        (realEntry rowids t.table) = .ok stored.2 := by
      refine mapM_realEntry hImports hNames fun e he hFk => ?_
      obtain ⟨row, hRow, hValue⟩ := exists_parent hDb.admitted hs ht hStored hFk
      have hKeyed := (ht.keyed e.1 hFk).2
      obtain ⟨name, hName⟩ := exists_textId hDb.admitted hKeyed hRow
      have hEntry : e.2 = .integer row.1 := by
        rw [← value_of_mem (hNames ▸ hImports.nodup) he, hValue]
      have hParent : fkTable e.1 ∈ parents s.name := by
        rw [parents, if_neg hAlias, ht.renames]
        obtain ⟨rename, hRename, hEq⟩ := List.mem_map.mp hFk
        exact List.mem_map.mpr ⟨rename, hRename, by rw [hEq]⟩
      exact ⟨row.1, name, hEntry, (idMap_eq hDb.admitted hKeyed hRow).trans hName,
        (hRowids _ hParent).bind hDb.admitted hKeyed hRow hName⟩
    rw [importRow, if_neg hAlias, dumpedRow, if_neg hAlias, ht.renames, importRegularRow, ← ht.table, hReal]
    rfl

/-! ## The tables one after another -/

/-- The text holds the statements of these rows, below comments. -/
structure Carries (table sql : String) (rows : List Row) : Prop where
  lines : ∃ comments, Text.lines sql = comments ++ rows.map (rowToInsert table) ∧
    ∀ line ∈ comments, isHeader line = true
  blank : Text.trim sql = "" → rows = []

theorem importLines_comments {clock : Clock} {rowids : RowidMaps} {table : String} {comments lines : List String}
    (h : ∀ line ∈ comments, isHeader line = true) (n : Nat) (db : Tables) :
    importLines clock rowids table n (comments ++ lines) db =
      importLines clock rowids table (n + comments.length) lines db := by
  induction comments generalizing n with
  | nil => rfl
  | cons line comments ih =>
    rw [List.cons_append, importLines, if_pos (.inr (trim_comment (h line List.mem_cons_self)).2),
      ih fun line' hLine => h line' (List.mem_cons_of_mem _ hLine), List.length_cons]
    congr 1
    omega

theorem trimList_ne_nil {p : Char → Bool} {c : Char} {l : List Char} (hMem : c ∈ l) (hc : p c = false) :
    Text.trimList p l ≠ [] := by
  rw [Text.trimList, ne_eq, List.reverse_eq_nil_iff, List.dropWhile_eq_nil_iff]
  intro hAll
  have hFirst : l.dropWhile p ≠ [] := by
    rw [ne_eq, List.dropWhile_eq_nil_iff]
    exact fun h => absurd (h c hMem) (by rw [hc]; exact Bool.false_ne_true)
  have hHead := List.head_dropWhile_not p hFirst
  rw [hAll _ (List.mem_reverse.mpr (List.head_mem hFirst))] at hHead
  cases hHead

theorem carries_dumpBody {table : String} {rows : List Row} (h : ∀ row ∈ rows, Named table (row.map Prod.fst)) :
    Carries table (dumpBody table rows) rows where
  lines := ⟨[], lines_dumpBody h, fun _ hLine => absurd hLine List.not_mem_nil⟩
  blank hBlank := by
    rcases rows with _ | ⟨row, rows⟩
    · rfl
    · obtain ⟨mid, hMid⟩ := toList_rowToInsert_ends table row
      have hText : 'I' ∈ (dumpBody table (row :: rows)).toList := by
        rw [dumpBody, String.toList_ofList, List.flatMap_cons, hMid]
        exact List.mem_cons_self
      have hNil := congrArg String.toList hBlank
      rw [Text.trim, String.toList_ofList] at hNil
      exact absurd (hNil.trans String.toList_empty) (trimList_ne_nil hText (by decide))

theorem not_isHeader_row (table : String) (row : Row) : isHeader (rowToInsert table row) = false := by
  rw [Bool.eq_false_iff]
  intro hHeader
  obtain ⟨hTrim, hRow⟩ := trim_rowToInsert table row
  have hComment := (trim_comment hHeader).2
  rw [hTrim] at hComment
  exact hRow (.inr hComment)

theorem projectionBody_dumpBody {table : String} {rows : List Row}
    (h : ∀ row ∈ rows, Named table (row.map Prod.fst)) :
    projectionBody (dumpBody table rows) = (dumpBody table rows).toList := by
  rw [projectionBody, if_neg]
  rw [lines_dumpBody h]
  rcases rows with _ | ⟨row, rows⟩
  · exact Bool.false_ne_true
  · rw [List.map_cons, List.head?_cons, Option.any_some, not_isHeader_row]
    exact Bool.false_ne_true

theorem carries_headed {generation : Int} (hGeneration : InRange generation) {table : String} {rows : List Row}
    (h : ∀ row ∈ rows, Named table (row.map Prod.fst)) :
    Carries table (String.ofList (headed generation (dumpBody table rows).toList)) rows where
  lines := by
    refine ⟨[String.ofList (headerChars generation)], ?_, fun line hLine => ?_⟩
    · rw [lines_headed hGeneration, String.ofList_toList, lines_dumpBody h]
      rfl
    · rw [List.mem_singleton.mp hLine]
      exact isHeader_headerChars generation
  blank hBlank := by
    obtain ⟨rest, hPrefix, -⟩ := header_toList
    have hText : '-' ∈ (String.ofList (headed generation (dumpBody table rows).toList)).toList := by
      rw [String.toList_ofList, headed, headerChars, hPrefix]
      exact List.mem_cons_self
    have hNil := congrArg String.toList hBlank
    rw [Text.trim, String.toList_ofList] at hNil
    exact absurd (hNil.trans String.toList_empty) (trimList_ne_nil hText (by decide))

/-- Each table of the list comes after its parents, and none comes twice. -/
def Ready : (done rest : List String) → Bool
  | _, [] => true
  | done, table :: rest =>
    decide (table ∉ done) && (parents table).all (fun parent => decide (parent ∈ done)) &&
      Ready (table :: done) rest

def dumpOrder : List String :=
  (dumpedTables.take 12).map DumpedTable.table ++
    "entity_aliases" :: (dumpedTables.drop 12).map DumpedTable.table

theorem ready_dumpOrder : Ready [] dumpOrder = true := by decide +kernel

theorem dumpOrder_perm : ∀ table, table ∈ dumpOrder ↔ table ∈ schema.map TableSchema.name := by
  have hOrder : (dumpOrder.all fun table => decide (table ∈ schema.map TableSchema.name)) = true := by
    decide +kernel
  have hSchema : ((schema.map TableSchema.name).all fun table => decide (table ∈ dumpOrder)) = true := by
    decide +kernel
  exact fun table => ⟨fun h => of_decide_eq_true (List.all_eq_true.mp hOrder table h),
    fun h => of_decide_eq_true (List.all_eq_true.mp hSchema table h)⟩

theorem parents_hasTextId {table parent : String} (h : parent ∈ parents table) (hTable : table ∈ dumpOrder) :
    hasTextIdColumn parent = true := by
  have hAll : (dumpOrder.all fun table => (parents table).all hasTextIdColumn) = true := by decide +kernel
  exact List.all_eq_true.mp (List.all_eq_true.mp hAll table hTable) parent h

/-- The database as it is when these tables are imported. -/
def Portable.upTo (db : Tables) (done : List String) : Tables := fun table => if table ∈ done then db table else []

theorem Portable.upTo_insert {db : Tables} (done : List String) (table : String) :
    Function.update (upTo db done) table (db table) = upTo db (table :: done) := by
  funext other
  rw [Function.update_apply]
  by_cases hSame : other = table
  · rw [if_pos hSame, upTo, if_pos (hSame ▸ List.mem_cons_self), hSame]
  · simp only [upTo, List.mem_cons, hSame, if_false, false_or]

section

variable {db : Tables} {clock : Clock}

theorem Portable.importSingleTable_eq (hDb : Portable db) {rowids : RowidMaps} {done : List String} {s : TableSchema}
    {sql : String} (hs : s ∈ schema)
    (hNamed : ∀ stored ∈ db s.name,
      Named s.name ((dumpedRow (fun table => idMap (db table)) s.name stored.2).map Prod.fst))
    (hSql : Carries s.name sql
      ((db s.name).map fun stored => dumpedRow (fun table => idMap (db table)) s.name stored.2))
    (hNew : s.name ∉ done) (hParents : ∀ parent ∈ parents s.name, parent ∈ done)
    (hRowids : ∀ parent ∈ parents s.name, AtHand db rowids parent) :
    importSingleTable clock rowids s.name sql (upTo db done) =
      .ok (if hasTextIdColumn s.name then Function.update rowids s.name (some (rowidMap (db s.name))) else rowids,
        upTo db (s.name :: done)) := by
  obtain ⟨comments, hLines, hComments⟩ := hSql.lines
  let rows := (db s.name).map Prod.snd
  have hStart : Function.update (upTo db done) s.name (numbered []) = upTo db done := by
    have hEmpty : upTo db done s.name = numbered [] := if_neg hNew
    rw [← hEmpty, Function.update_eq_self]
  have hStored : ∀ row ∈ rows, ∃ stored ∈ db s.name, stored.2 = row := fun row hRow => List.mem_map.mp hRow
  have hResolves : ∀ row ∈ rows, s.resolves (upTo db done) row = true := by
    intro row hRow
    obtain ⟨stored, hMem, rfl⟩ := hStored row hRow
    rw [resolves_iff]
    intro c hc parent hParent rowid hValue
    have hDone : parent ∈ done := by
      refine hParents parent ?_
      by_cases hAlias : s.name = "entity_aliases"
      · rw [references_aliases hs hAlias hc] at hParent
        cases hParent
      · obtain ⟨t, ht⟩ := exists_describes hs hAlias
        rw [ht.references c hc] at hParent
        split at hParent
        · next hFk =>
          obtain ⟨rename, hRename, hName⟩ := List.mem_map.mp hFk
          rw [parents, if_neg hAlias, ht.renames, List.mem_map]
          exact ⟨rename, hRename, hName ▸ Option.some.inj hParent⟩
        · cases hParent
    obtain ⟨other, hOther, hRowid⟩ :=
      resolves_iff.mp (hDb.admitted.resolves s hs stored hMem) c hc parent hParent rowid hValue
    exact ⟨other, by rw [upTo, if_pos hDone]; exact hOther, hRowid⟩
  have hRows : importLines clock rowids s.name (1 + comments.length)
      (rows.map fun row => rowToInsert s.name (dumpedRow (fun table => idMap (db table)) s.name row))
        (Function.update (upTo db done) s.name (numbered [])) =
      .ok (Function.update (upTo db done) s.name (numbered ([] ++ rows))) := by
    refine importLines_rows hs [] _ ?_ ?_ ?_ ?_ hResolves ?_
    · intro row hRow
      obtain ⟨stored, hMem, rfl⟩ := hStored row hRow
      exact hNamed stored hMem
    · intro row hRow db'
      obtain ⟨stored, hMem, rfl⟩ := hStored row hRow
      exact hDb.importRow_eq hs hRowids hMem db'
    · intro row hRow
      obtain ⟨stored, hMem, rfl⟩ := hStored row hRow
      exact hDb.admitted.wellTyped s hs stored hMem
    · rw [List.nil_append, List.pairwise_map]
      exact hDb.admitted.apart s hs
    · rw [List.nil_append, List.length_map]
      exact hDb.room s.name
  have hTable : numbered ([] ++ rows) = db s.name := by
    rw [List.nil_append, ← hDb.ordered s.name]
  rw [hStart, hTable, upTo_insert] at hRows
  rw [importSingleTable, hLines, importLines_comments hComments, List.map_map]
  have hMap : rows.map (fun row => rowToInsert s.name (dumpedRow (fun table => idMap (db table)) s.name row)) =
      (db s.name).map (rowToInsert s.name ∘ fun stored =>
        dumpedRow (fun table => idMap (db table)) s.name stored.2) := by
    rw [List.map_map]
    rfl
  rw [← hMap, hRows]
  simp only [bind, Except.bind, pure, Except.pure, upTo, List.mem_cons, true_or, if_true]

theorem Portable.importFrom_eq (hDb : Portable db) {sql : String → String} {done rest : List String}
    {rowids : RowidMaps} (hReady : Ready done rest = true) (hOrder : ∀ table ∈ rest, table ∈ dumpOrder)
    (hNamed : ∀ table ∈ rest, ∀ stored ∈ db table,
      Named table ((dumpedRow (fun table => idMap (db table)) table stored.2).map Prod.fst))
    (hSql : ∀ table ∈ rest, Carries table (sql table)
      ((db table).map fun stored => dumpedRow (fun table => idMap (db table)) table stored.2))
    (hRowids : ∀ table ∈ done, hasTextIdColumn table = true → AtHand db rowids table) :
    importFrom clock rowids (rest.map fun table => (table, sql table)) (upTo db done) =
      .ok (upTo db (rest.reverse ++ done)) := by
  induction rest generalizing done rowids with
  | nil => rfl
  | cons table rest ih =>
    rw [Ready, Bool.and_eq_true, Bool.and_eq_true, decide_eq_true_eq, List.all_eq_true] at hReady
    obtain ⟨⟨hNew, hParents⟩, hReady⟩ := hReady
    have hTable : table ∈ dumpOrder := hOrder table List.mem_cons_self
    have hDone : rest.reverse ++ table :: done = (table :: rest).reverse ++ done := by simp
    have hNext := fun rowids : RowidMaps => @ih (table :: done) rowids hReady
      (fun other h => hOrder other (List.mem_cons_of_mem _ h))
      (fun other h => hNamed other (List.mem_cons_of_mem _ h))
      (fun other h => hSql other (List.mem_cons_of_mem _ h))
    rw [List.map_cons, importFrom]
    split
    · next hBlank =>
      have hEmpty : db table = [] := List.map_eq_nil_iff.mp ((hSql table List.mem_cons_self).blank hBlank)
      have hUpTo : upTo db done = upTo db (table :: done) := by
        rw [← upTo_insert, hEmpty, ← Function.update_eq_self table (upTo db done)]
        rw [Function.update_idem, upTo, if_neg hNew]
      rw [hUpTo, hNext rowids, hDone]
      intro other hOther hText
      rcases List.mem_cons.mp hOther with rfl | hOther
      · exact fun hRows => absurd hEmpty hRows
      · exact hRowids other hOther hText
    · obtain ⟨s, hs, rfl⟩ := List.mem_map.mp ((dumpOrder_perm table).mp hTable)
      have hParentsDone : ∀ parent ∈ parents s.name, parent ∈ done := fun parent h =>
        of_decide_eq_true (hParents parent h)
      rw [hDb.importSingleTable_eq hs (hNamed _ List.mem_cons_self) (hSql _ List.mem_cons_self) hNew hParentsDone
        fun parent h => hRowids parent (hParentsDone parent h) (parents_hasTextId h hTable)]
      dsimp only [bind, Except.bind]
      rw [hNext, hDone]
      intro other hOther hText hRows
      rcases List.mem_cons.mp hOther with rfl | hOther
      · rw [if_pos hText, Function.update_self]
      · have hOld := hRowids other hOther hText hRows
        split
        · rw [Function.update_of_ne, hOld]
          rintro rfl
          exact hNew hOther
        · exact hOld

end

end Exosuit.Dump
