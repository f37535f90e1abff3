import Exosuit.Storage.RowCodec

/-!
# The tables of a dump

A dump reads fixed columns from fixed tables and puts the text id of a row in the place of its
rowid. Every name that can reach a statement is an identifier, so every row of a dump is read back.
-/

namespace Exosuit.Dump

open Lib

inductive DumpError
  | fkResolution (table column : String) (rowid : Int64)
  | unknownEntityType (entityType : String)
deriving DecidableEq

/-- The text ids of a table's rows. -/
abbrev IdMap := Int64 → Option String

def resolveFk (idMap : IdMap) (table column : String) (rowid : Int64) : Except DumpError String :=
  match idMap rowid with
  | some textId => .ok textId
  | none => .error (.fkResolution table column rowid)

def resolveEntry (idMap : IdMap) (table oldCol newCol : String) : Row → Except DumpError Row
  | [] => .ok []
  | entry :: row =>
    if entry.1 = oldCol then
      match entry.2 with
      | .integer rowid =>
        match resolveFk idMap table oldCol rowid with
        | .ok textId => .ok ((newCol, .text textId) :: row)
        | .error e => .error e
      | .null => .ok ((newCol, .null) :: row)
      | .text _ => .ok (entry :: row)
    else
      match resolveEntry idMap table oldCol newCol row with
      | .ok row => .ok (entry :: row)
      | .error e => .error e

def resolveRowFks (fkMaps : String → IdMap) (table : String) :
    List (String × String) → Row → Except DumpError Row
  | [], row => .ok row
  | (oldCol, newCol) :: fkRenames, row =>
    match resolveEntry (fkMaps oldCol) table oldCol newCol row with
    | .ok row => resolveRowFks fkMaps table fkRenames row
    | .error e => .error e

/-- A row of `dump_entity_aliases`; one that cannot be resolved is skipped. -/
def resolveAlias (entityTypeMaps : String → Option IdMap) : Row → Except DumpError (Option Row)
  | (typeCol, .text entityType) :: (_, .integer rowid) :: rest =>
    match entityTypeMaps entityType with
    | none => .error (.unknownEntityType entityType)
    | some idMap =>
      match resolveFk idMap "entity_aliases" "entity_id" rowid with
      | .ok textId => .ok (some ((typeCol, .text entityType) :: ("entity_text_id", .text textId) :: rest))
      | .error _ => .ok none
  | _ => .ok none

structure DumpedTable where
  table : String
  columns : List String
  fkRenames : List (String × String)

/-- The tables of `dump_tables` but for `entity_aliases`. -/
def dumpedTables : List DumpedTable := [
  ⟨"epochs_data", ["text_id", "title", "slug", "reviewed", "sort_key"], []⟩,
  ⟨"phases_data", ["text_id", "title", "status", "epoch_id", "kind", "slug", "sort_key", "completed_at"],
    [("epoch_id", "epoch_text_id")]⟩,
  ⟨"goals_data", ["text_id", "label", "status", "phase_id", "kind", "rfc", "target_stage", "started_at",
    "description", "completion_log", "slug", "sort_key"], [("phase_id", "phase_text_id")]⟩,
  ⟨"tasks_data", ["text_id", "title", "status", "goal_id", "completed_at", "completion_log", "slug",
    "sort_key", "notes", "started_at"], [("goal_id", "goal_text_id")]⟩,
  ⟨"ideas_data", ["text_id", "title", "description", "status", "created_at", "source"], []⟩,
  ⟨"inbox_data", ["text_id", "created_at", "updated_at", "status", "entity_type", "entity_id", "source",
    "intent", "priority", "confidence", "agent_id", "subject", "body", "action_json", "resolution"], []⟩,
  ⟨"rfcs_data", ["text_id", "rfc_number", "title", "stage", "status", "feature", "slug", "file_path",
    "superseded_by", "supersedes", "withdrawal_reason", "archived_reason", "consolidated_into",
    "created_at", "updated_at"], []⟩,
  ⟨"workbench_lanes_data", ["text_id", "title", "intent", "state", "execution_phase_id", "created_at",
    "updated_at"], [("execution_phase_id", "execution_phase_text_id")]⟩,
  ⟨"axioms", ["text_id", "scope", "principle", "rationale", "notes", "created_at"], []⟩,
  ⟨"task_logs", ["task_id", "kind", "message", "created_at"], [("task_id", "task_text_id")]⟩,
  ⟨"task_verifications", ["task_id", "kind", "command", "result", "details", "created_at"],
    [("task_id", "task_text_id")]⟩,
  ⟨"phase_rfcs_data", ["phase_id", "rfc_id", "target", "relation"], [("phase_id", "phase_text_id")]⟩,
  ⟨"axiom_implications", ["axiom_id", "implication", "sort_key"], [("axiom_id", "axiom_text_id")]⟩,
  ⟨"axiom_tags", ["axiom_id", "tag"], [("axiom_id", "axiom_text_id")]⟩,
  ⟨"idea_tags", ["idea_id", "tag"], [("idea_id", "idea_text_id")]⟩,
  ⟨"idea_task_refs", ["idea_id", "task_ref"], [("idea_id", "idea_text_id")]⟩,
  ⟨"rfc_relations", ["rfc_id", "related_rfc", "relation"], [("rfc_id", "rfc_text_id")]⟩]

inductive Dumped : String → Row → Prop
  | ofTable {t : DumpedTable} {fkMaps : String → IdMap} {read row : Row} (hTable : t ∈ dumpedTables)
      (hRead : read.map Prod.fst = t.columns) (hRow : resolveRowFks fkMaps t.table t.fkRenames read = .ok row) :
      Dumped t.table row
  | ofAlias {entityTypeMaps : String → Option IdMap} {read row : Row}
      (hRead : read.map Prod.fst = ["entity_type", "entity_id", "alias"])
      (hRow : resolveAlias entityTypeMaps read = .ok (some row)) : Dumped "entity_aliases" row

/-! ## Names -/

/-- A name without blanks, commas and parentheses. -/
def bare (s : String) : Bool :=
  s.toList.all fun c => !Text.isWhitespace c && c != ',' && c != '(' && c != ')'

theorem bare_chars {s : String} (h : bare s = true) {c : Char} (hMem : c ∈ s.toList) :
    Text.isWhitespace c = false ∧ c ≠ ',' ∧ c ≠ '(' ∧ c ≠ ')' := by
  simpa [and_assoc] using List.all_eq_true.mp h c hMem

theorem bare_not_mem {s : String} (h : bare s = true) :
    ',' ∉ s.toList ∧ '(' ∉ s.toList ∧ ')' ∉ s.toList ∧ '\n' ∉ s.toList ∧ '\r' ∉ s.toList := by
  refine ⟨fun hMem => ?_, fun hMem => ?_, fun hMem => ?_, fun hMem => ?_, fun hMem => ?_⟩
  · exact (bare_chars h hMem).2.1 rfl
  · exact (bare_chars h hMem).2.2.1 rfl
  · exact (bare_chars h hMem).2.2.2 rfl
  · exact absurd (bare_chars h hMem).1 (by decide)
  · exact absurd (bare_chars h hMem).1 (by decide)

theorem dropWhile_blank {l : List Char} (h : ∀ c ∈ l, Text.isWhitespace c = false) :
    l.dropWhile Text.isWhitespace = l := by
  cases l with
  | nil => rfl
  | cons c l => rw [List.dropWhile_cons, h c List.mem_cons_self, if_neg nofun]

theorem bare_trim {s : String} (h : bare s = true) : Text.trim s = s := by
  have hBlank : ∀ c ∈ s.toList, Text.isWhitespace c = false := fun c hMem => (bare_chars h hMem).1
  rw [Text.trim, Text.trimList, dropWhile_blank hBlank,
    dropWhile_blank fun c hMem => hBlank c (List.mem_reverse.mp hMem), List.reverse_reverse,
    String.ofList_toList]

theorem named_of_bare {table : String} {columns : List String} (hTable : bare table = true)
    (hNonempty : columns ≠ []) (hColumns : ∀ name ∈ columns, bare name = true) : Named table columns where
  table := ⟨(bare_not_mem hTable).2.1, (bare_not_mem hTable).2.2.2.1, (bare_not_mem hTable).2.2.2.2⟩
  nonempty := hNonempty
  plain name hName := by
    obtain ⟨hComma, -, hParen, hNewline, hReturn⟩ := bare_not_mem (hColumns name hName)
    exact ⟨hComma, hParen, hNewline, hReturn⟩
  trimmed name hName := bare_trim (hColumns name hName)

/-! ## Resolved rows -/

theorem resolveEntry_names {idMap : IdMap} {table oldCol newCol : String} {read row : Row}
    (h : resolveEntry idMap table oldCol newCol read = .ok row) :
    row.length = read.length ∧ ∀ name ∈ row.map Prod.fst, name = newCol ∨ name ∈ read.map Prod.fst := by
  induction read generalizing row with
  | nil =>
    cases h
    exact ⟨rfl, nofun⟩
  | cons entry read ih =>
    have hHead : ∀ v, ∀ name ∈ ((newCol, v) :: read).map Prod.fst,
        name = newCol ∨ name ∈ (entry :: read).map Prod.fst := by
      intro v name hName
      rw [List.map_cons, List.mem_cons] at hName
      exact hName.imp id fun hRest => List.mem_cons_of_mem _ hRest
    rw [resolveEntry] at h
    split at h
    · split at h
      · split at h
        · cases h
          exact ⟨rfl, hHead _⟩
        · cases h
      · cases h
        exact ⟨rfl, hHead _⟩
      · cases h
        exact ⟨rfl, fun name hName => .inr hName⟩
    · split at h
      · next hRest =>
        cases h
        obtain ⟨hLength, hNames⟩ := ih hRest
        refine ⟨congrArg Nat.succ hLength, fun name hName => ?_⟩
        rw [List.map_cons, List.mem_cons] at hName
        rcases hName with rfl | hName
        · exact .inr List.mem_cons_self
        · exact (hNames name hName).imp id fun hRest => List.mem_cons_of_mem _ hRest
      · cases h

theorem resolveRowFks_names {fkMaps : String → IdMap} {table : String} {fkRenames : List (String × String)}
    {read row : Row} (h : resolveRowFks fkMaps table fkRenames read = .ok row) :
    row.length = read.length ∧
      ∀ name ∈ row.map Prod.fst, name ∈ fkRenames.map Prod.snd ∨ name ∈ read.map Prod.fst := by
  induction fkRenames generalizing read with
  | nil =>
    cases h
    exact ⟨rfl, fun name hName => .inr hName⟩
  | cons rename fkRenames ih =>
    rw [resolveRowFks] at h
    split at h
    · next hEntry =>
      obtain ⟨hLength, hNames⟩ := resolveEntry_names hEntry
      obtain ⟨hLength', hNames'⟩ := ih h
      refine ⟨hLength'.trans hLength, fun name hName => ?_⟩
      rcases hNames' name hName with hRename | hRead
      · exact .inl (List.mem_cons_of_mem _ hRename)
      · rcases hNames name hRead with rfl | hRead
        · exact .inl List.mem_cons_self
        · exact .inr hRead
    · cases h

theorem resolveAlias_names {entityTypeMaps : String → Option IdMap} {read row : Row}
    (hRead : read.map Prod.fst = ["entity_type", "entity_id", "alias"])
    (h : resolveAlias entityTypeMaps read = .ok (some row)) :
    row.map Prod.fst = ["entity_type", "entity_text_id", "alias"] := by
  unfold resolveAlias at h
  split at h
  · split at h
    · cases h
    · split at h
      · cases h
        simp only [List.map_cons, List.cons.injEq] at hRead ⊢
        exact ⟨hRead.1, trivial, hRead.2.2⟩
      · cases h
  · cases h

/-! ## The dump -/

theorem bare_ofList {l : List Char}
    (h : (l.all fun c => !Text.isWhitespace c && c != ',' && c != '(' && c != ')') = true) :
    bare (String.ofList l) = true := by
  rw [bare, String.toList_ofList]
  exact h

theorem dumpedTables_bare {t : DumpedTable} (h : t ∈ dumpedTables) : bare t.table = true ∧ t.columns ≠ [] ∧
    (∀ name ∈ t.columns, bare name = true) ∧ ∀ name ∈ t.fkRenames.map Prod.snd, bare name = true := by
  revert t
  simp only [dumpedTables, List.forall_mem_cons, List.map_cons, List.map_nil, List.not_mem_nil, IsEmpty.forall_iff,
    implies_true, ne_eq, reduceCtorEq, not_false_eq_true, and_true, true_and]
  repeat' apply And.intro
  all_goals
    refine bare_ofList ?_
    rfl

theorem Dumped.named {table : String} {row : Row} (h : Dumped table row) : Named table (row.map Prod.fst) := by
  cases h with
  | ofTable hTable hRead hRow =>
    obtain ⟨hName, hNonempty, hColumns, hRenames⟩ := dumpedTables_bare hTable
    obtain ⟨hLength, hNames⟩ := resolveRowFks_names hRow
    refine named_of_bare hName (fun hEmpty => hNonempty ?_) fun name hMem => ?_
    · have hRowNil := List.map_eq_nil_iff.mp hEmpty
      rw [hRowNil] at hLength
      rw [← hRead, List.eq_nil_of_length_eq_zero hLength.symm, List.map_nil]
    · rcases hNames name hMem with hRename | hMem
      · exact hRenames name hRename
      · exact hColumns name (hRead ▸ hMem)
  | ofAlias hRead hRow =>
    rw [resolveAlias_names hRead hRow]
    have hColumns : (["entity_type", "entity_text_id", "alias"].all bare) = true := by
      simp [bare, Text.isWhitespace]
    refine named_of_bare (by simp [bare, Text.isWhitespace]) (List.cons_ne_nil _ _) ?_
    exact List.all_eq_true.mp hColumns

/-- Rows of plain names, whatever their texts hold, are written one to a line and read back. -/
theorem row_codec {table : String} {rows : List Row} (h : ∀ row ∈ rows, Named table (row.map Prod.fst)) :
    (∀ row ∈ rows,
      '\n' ∉ (rowToInsert table row).toList ∧ '\r' ∉ (rowToInsert table row).toList ∧
      (∃ rest, Text.splitOnceList ['('] (rowToInsert table row).toList = some (insertInto table, rest)) ∧
      ∀ lineNum, parseInsert (rowToInsert table row) table lineNum =
        .ok ⟨row.map Prod.fst, row.map Prod.snd⟩) ∧
    Text.lines (dumpBody table rows) = rows.map (rowToInsert table) := by
  refine ⟨fun row hRow => ⟨?_, ?_, ?_, ?_⟩, lines_dumpBody h⟩
  · exact fun hMem => (rowToInsert_inline (h row hRow) hMem).1 rfl
  · exact fun hMem => (rowToInsert_inline (h row hRow) hMem).2 rfl
  · obtain ⟨rest, hTable, -⟩ := splitOnceList_table (h row hRow)
    exact ⟨rest, hTable⟩
  · exact parseInsert_rowToInsert (h row hRow) table

/-- A message with quotes, line ends and parentheses, between a null and the smallest number. -/
def mixedRow : Row := [("task_text_id", .text "NULL"), ("kind", .null),
  ("message", .text "It's a\r\ntest, with (parens); and \\n"), ("created_at", .integer Int64.minValue)]

theorem row_codec_of_mixed : parseInsert (rowToInsert "task_logs" mixedRow) "task_logs" 1 =
    .ok ⟨mixedRow.map Prod.fst, mixedRow.map Prod.snd⟩ := by
  have hColumns : ((mixedRow.map Prod.fst).all bare) = true := by
    simp [mixedRow, bare, Text.isWhitespace]
  have hNamed : ∀ row ∈ [mixedRow], Named "task_logs" (row.map Prod.fst) := by
    intro row hRow
    rw [List.mem_singleton.mp hRow]
    exact named_of_bare (by simp [bare, Text.isWhitespace]) (List.cons_ne_nil _ _) (List.all_eq_true.mp hColumns)
  exact ((row_codec hNamed).1 mixedRow List.mem_cons_self).2.2.2 1

end Exosuit.Dump
