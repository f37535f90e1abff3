import Mathlib.Data.String.Basic
import Exosuit.Storage.ProjectionHeader
import Exosuit.Storage.Schema

/-!
# Dumping and importing a database

`dump_tables` writes every table as text, with text ids in the place of rowids, and `import_tables`
puts such texts into the tables of a migrated database.
-/

namespace Exosuit.Dump

open Lib Projection

/-! ## The dump -/

inductive DumpFailure
  | sqlite
  | dump (e : DumpError)
  | compatibility (e : Compatibility.WriterCompatibilityError)

def textId (row : Row) : Option String :=
  match value row "text_id" with
  | .text s => some s
  | _ => none

/-- `build_text_id_map`, once its rows are read. -/
def idMap (rows : List Stored) : IdMap := fun rowid =>
  (rows.find? fun stored => stored.1 = rowid).bind fun stored => textId stored.2

/-- The tables whose text ids stand for foreign keys. -/
def keyedTables : List String :=
  ["epochs_data", "phases_data", "goals_data", "tasks_data", "ideas_data", "axioms", "rfcs_data"]

/-- A text id is read as a string. -/
def textIdMaps (db : Tables) : Except DumpFailure (String → IdMap) :=
  if keyedTables.all fun table => (db table).all fun stored => (textId stored.2).isSome then
    .ok fun table => idMap (db table)
  else .error .sqlite

def fkTable : String → String
  | "epoch_id" => "epochs_data"
  | "phase_id" | "execution_phase_id" => "phases_data"
  | "goal_id" => "goals_data"
  | "task_id" => "tasks_data"
  | "axiom_id" => "axioms"
  | "idea_id" => "ideas_data"
  | "rfc_id" => "rfcs_data"
  | column => column

def entityTable : String → Option String
  | "epoch" => some "epochs_data"
  | "phase" => some "phases_data"
  | "goal" => some "goals_data"
  | "task" => some "tasks_data"
  | _ => none

def readRows (rows : List Stored) (columns : List String) : List Row :=
  rows.map fun stored => columns.map fun c => (c, value stored.2 c)

def sortKeyFromRow (row : Row) (column : String) : String :=
  match row.lookup column with
  | some (.text s) => s
  | some (.integer i) => toString i.toInt
  | some .null | none => ""

def notAfter : (sortCols : List String) → Row → Row → Bool
  | [], _, _ => true
  | column :: sortCols, row, row' =>
    if sortKeyFromRow row column = sortKeyFromRow row' column then notAfter sortCols row row'
    else decide (sortKeyFromRow row column < sortKeyFromRow row' column)

/-- What a table is sorted by: the text id of an entity, the task and the time of an operational
row, the natural key of a junction. -/
def sortCols : String → List String
  | "task_logs" | "task_verifications" => ["task_text_id", "created_at"]
  | "phase_rfcs_data" => ["phase_text_id", "rfc_id"]
  | "entity_aliases" => ["entity_type", "alias"]
  | "axiom_implications" => ["axiom_text_id", "sort_key"]
  | "axiom_tags" => ["axiom_text_id", "tag"]
  | "idea_tags" => ["idea_text_id", "tag"]
  | "idea_task_refs" => ["idea_text_id", "task_ref"]
  | "rfc_relations" => ["rfc_text_id", "related_rfc", "relation"]
  | _ => ["text_id"]

def sortedBody (table : String) (rows : List Row) : String :=
  dumpBody table (rows.mergeSort (notAfter (sortCols table)))

def resolvedRows (maps : String → IdMap) (rows : List Stored) (t : DumpedTable) :
    Except DumpError (List Row) :=
  (readRows rows t.columns).mapM (resolveRowFks (maps ∘ fkTable) t.table t.fkRenames)

/-- The aliases as the dump writes them, without those that name nothing. -/
def resolvedAliases (maps : String → IdMap) (rows : List Stored) : Except DumpError (List Row) := do
  let resolved ← (readRows rows ["entity_type", "entity_id", "alias"]).mapM
    (resolveAlias fun entityType => (entityTable entityType).map maps)
  pure resolved.reduceOption

/-- `dump_entity_table`, `dump_operational_table` and `dump_junction_table`. -/
def dumpTable (maps : String → IdMap) (db : Tables) (t : DumpedTable) :
    Except DumpFailure (String × String) := do
  let rows ← (resolvedRows maps (db t.table) t).mapError .dump
  pure (t.table, sortedBody t.table rows)

def dumpEntityAliases (maps : String → IdMap) (db : Tables) : Except DumpFailure (String × String) := do
  let rows ← (resolvedAliases maps (db "entity_aliases")).mapError .dump
  pure ("entity_aliases", sortedBody "entity_aliases" rows)

/-- The first file gets the header of the database's generation. -/
def withHeader (generation : Int) : List (String × String) → Except DumpFailure (List (String × String))
  | [] => .ok []
  | (table, sql) :: rest =>
    match withProjectionGeneration sql generation with
    | .ok sql => .ok ((table, sql) :: rest)
    | .error e => .error (.compatibility e)

/-- `dump_tables` on a database of this generation. -/
def dumpTables (generation : Int) (db : Tables) : Except DumpFailure (List (String × String)) := do
  let maps ← textIdMaps db
  let epochs ← (dumpedTables.take 1).mapM (dumpTable maps db)
  let epochs ← withHeader generation epochs
  let entities ← ((dumpedTables.take 12).drop 1).mapM (dumpTable maps db)
  let aliases ← dumpEntityAliases maps db
  let junctions ← (dumpedTables.drop 12).mapM (dumpTable maps db)
  pure (epochs ++ entities ++ aliases :: junctions)

/-! ## The import -/

inductive ImportFailure
  | sqlite
  | parse (e : ImportError)
  | fkResolution (table column textId : String)

/-- The rowids of the text ids of the tables that were imported so far. -/
abbrev RowidMaps := String → Option (String → Option Int64)

def entityFkMappings : List (String × String × String) := [
  ("epoch_text_id", "epoch_id", "epochs_data"),
  ("phase_text_id", "phase_id", "phases_data"),
  ("goal_text_id", "goal_id", "goals_data"),
  ("task_text_id", "task_id", "tasks_data"),
  ("idea_text_id", "idea_id", "ideas_data"),
  ("axiom_text_id", "axiom_id", "axioms"),
  ("execution_phase_text_id", "execution_phase_id", "phases_data")]

def hasTextIdColumn (table : String) : Bool :=
  table ∈ ["epochs_data", "phases_data", "goals_data", "tasks_data", "ideas_data", "inbox_data",
    "rfcs_data", "workbench_lanes_data", "axioms"]

/-- `build_reverse_text_id_map`; of two rows with one text id the last is kept. -/
def rowidMap (rows : List Stored) (id : String) : Option Int64 :=
  (rows.reverse.find? fun stored => textId stored.2 = some id).map Prod.fst

def lookupRowid (maps : RowidMaps) (parent table column id : String) : Except ImportFailure Int64 :=
  match (maps parent).bind fun map => map id with
  | some rowid => .ok rowid
  | none => .error (.fkResolution table column id)

/-- A column of a row, with the rowid of the text id in a foreign key. -/
def realEntry (maps : RowidMaps) (table : String) (entry : String × SqlValue) :
    Except ImportFailure (String × SqlValue) :=
  match entityFkMappings.find? fun mapping => mapping.1 = entry.1 with
  | none => .ok entry
  | some (_, realCol, parent) =>
    match entry.2 with
    | .text id => (lookupRowid maps parent table entry.1 id).map fun rowid => (realCol, .integer rowid)
    | v => .ok (realCol, v)

section

variable (clock : Clock)

def executeInsert (db : Tables) (table : String) (row : Row) : Except ImportFailure Tables :=
  match insert clock db table row with
  | some db => .ok db
  | none => .error .sqlite

def importRegularRow (maps : RowidMaps) (table : String) (row : Row) (db : Tables) :
    Except ImportFailure Tables := do
  executeInsert clock db table (← row.mapM (realEntry maps table))

def aliasFailure (message : String) : ImportFailure := .parse ⟨"entity_aliases", 0, message⟩

def stringColumn (row : Row) (column : String) : Except ImportFailure String :=
  match row.lookup column with
  | some (.text s) => .ok s
  | some _ => .error (aliasFailure (column ++ " is not a string"))
  | none => .error (aliasFailure ("missing " ++ column ++ " column"))

def hasColumn (row : Row) (column : String) : Except ImportFailure Unit :=
  if (row.lookup column).isSome then .ok () else .error (aliasFailure ("missing " ++ column ++ " column"))

def importEntityAliasRow (maps : RowidMaps) (row : Row) (db : Tables) : Except ImportFailure Tables := do
  hasColumn row "entity_type"
  hasColumn row "entity_text_id"
  let entityType ← stringColumn row "entity_type"
  let id ← stringColumn row "entity_text_id"
  match entityTable entityType with
  | none => .error (aliasFailure ("unknown entity_type: " ++ entityType))
  | some parent =>
    let rowid ← lookupRowid maps parent "entity_aliases" "entity_text_id" id
    executeInsert clock db "entity_aliases" (row.map fun entry =>
      if entry.1 = "entity_text_id" then ("entity_id", .integer rowid) else entry)

def importRow (maps : RowidMaps) (table : String) (row : Row) (db : Tables) : Except ImportFailure Tables :=
  if table = "entity_aliases" then importEntityAliasRow clock maps row db
  else importRegularRow clock maps table row db

def importLines (maps : RowidMaps) (table : String) :
    (lineNum : Nat) → List String → Tables → Except ImportFailure Tables
  | _, [], db => .ok db
  | lineNum, line :: lines, db =>
    let line := Text.trim line
    if line = "" ∨ Text.startsWith line "--" then importLines maps table (lineNum + 1) lines db
    else do
      let parsed ← (parseInsert line table lineNum).mapError .parse
      let db ← importRow clock maps table (parsed.columns.zip parsed.values) db
      importLines maps table (lineNum + 1) lines db

def importSingleTable (maps : RowidMaps) (table sql : String) (db : Tables) :
    Except ImportFailure (RowidMaps × Tables) := do
  let db ← importLines clock maps table 1 (Text.lines sql) db
  pure (if hasTextIdColumn table then Function.update maps table (some (rowidMap (db table))) else maps, db)

def importFrom (maps : RowidMaps) : List (String × String) → Tables → Except ImportFailure Tables
  | [], db => .ok db
  | (table, sql) :: dumps, db =>
    if Text.trim sql = "" then importFrom maps dumps db
    else do
      let (maps, db) ← importSingleTable clock maps table sql db
      importFrom maps dumps db

def importTables (dumps : List (String × String)) (db : Tables) : Except ImportFailure Tables :=
  importFrom clock (fun _ => none) dumps db

end

end Exosuit.Dump
