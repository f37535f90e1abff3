import Exosuit.Storage.DumpTables
import Mathlib.Logic.Function.Basic

/-!
# The tables of a migrated database

The columns and constraints that the migrations leave on the tables of the dump, and what an
insertion checks. A value is stored with the type of its column: what a conversion to that type
would do with other values is left out, since every writer binds the column's own type.
-/

namespace Exosuit.Dump

open Lib

inductive Affinity
  | integer
  | text
deriving DecidableEq

inductive Default
  | literal (v : SqlValue)
  | strftimeNow
  | datetimeNow
deriving DecidableEq

structure Column where
  name : String
  affinity : Affinity := .text
  notNull : Bool := true
  default : Default := .literal .null
  /-- The CHECK of the column; a null passes it. -/
  check : SqlValue → Bool := fun _ => true
  references : Option String := none

structure TableSchema where
  name : String
  columns : List Column
  check : Row → Bool := fun _ => true
  unique : List (List String)

/-! ## The migrations -/

def oneOf (names : List String) : SqlValue → Bool
  | .text s => s ∈ names
  | _ => true

def isSqlBlank (c : Char) : Bool := c = ' ' || (9 ≤ c.toNat && c.toNat ≤ 13)

/-- `length(trim(..)) > 0`; a length ends at the first NUL. -/
def nonblank : SqlValue → Bool
  | .text s => ((s.toList.dropWhile isSqlBlank).head?).any fun c => c ≠ '\x00'
  | _ => true

def inStages : SqlValue → Bool
  | .integer i => 0 ≤ i.toInt && i.toInt ≤ 4
  | _ => true

def value (row : Row) (column : String) : SqlValue := (row.lookup column).getD .null

def entityScope (row : Row) : Bool :=
  (value row "entity_type" = .text "project" && value row "entity_id" = .null) ||
    (value row "entity_type" ≠ .text "project" && value row "entity_id" ≠ .null)

def text (name : String) : Column := { name }

def nullable (name : String) : Column := { name, notNull := false }

def key (name parent : String) : Column := { name, affinity := .integer, references := some parent }

def textDefault (name default : String) : Column := { name, default := .literal (.text default) }

def choice (name default : String) (names : List String) : Column :=
  { name, default := .literal (.text default), check := oneOf names }

def statuses : List String := ["pending", "in-progress", "completed", "deferred", "abandoned"]

def schema : List TableSchema := [
  { name := "epochs_data"
    columns := [text "text_id", text "title", nullable "slug",
      { name := "reviewed", affinity := .integer, default := .literal (.integer 0) },
      textDefault "sort_key" ""]
    unique := [["text_id"]] },
  { name := "phases_data"
    columns := [text "text_id", text "title", choice "status" "pending" statuses,
      key "epoch_id" "epochs_data", choice "kind" "regular" ["regular", "chore"], nullable "slug",
      nullable "sort_key", nullable "completed_at"]
    unique := [["text_id"]] },
  { name := "goals_data"
    columns := [text "text_id", text "label", choice "status" "pending" statuses,
      key "phase_id" "phases_data", { choice "kind" "regular" ["regular", "strike"] with notNull := false },
      nullable "rfc", { name := "target_stage", affinity := .integer, notNull := false },
      nullable "started_at", nullable "description", nullable "completion_log", nullable "slug",
      nullable "sort_key"]
    unique := [["text_id"]] },
  { name := "tasks_data"
    columns := [text "text_id", text "title",
      choice "status" "pending" ["pending", "in-progress", "completed", "deferred", "skipped"],
      key "goal_id" "goals_data", nullable "completed_at", nullable "completion_log", nullable "slug",
      nullable "sort_key", nullable "notes", nullable "started_at"]
    unique := [["text_id"]] },
  { name := "ideas_data"
    columns := [text "text_id", text "title", nullable "description",
      choice "status" "new" ["new", "archived"], text "created_at", choice "source" "user" ["user", "agent"]]
    unique := [["text_id"]] },
  { name := "inbox_data"
    columns := [text "text_id", text "created_at", nullable "updated_at",
      choice "status" "pending" ["pending", "acknowledged", "resolved", "archived"],
      choice "entity_type" "project" ["goal", "task", "rfc", "phase", "epoch", "project"], nullable "entity_id",
      choice "source" "user-feedback" ["user-feedback", "system-observation", "plan-mutation"],
      choice "intent" "fyi" ["claim", "concern", "inquiry", "fyi"],
      choice "priority" "next-touch" ["immediate", "next-touch", "when-relevant"],
      { name := "confidence", notNull := false, check := oneOf ["high", "low"] }, nullable "agent_id",
      text "subject", textDefault "body" "", nullable "action_json", nullable "resolution"]
    check := entityScope
    unique := [["text_id"]] },
  { name := "rfcs_data"
    columns := [text "text_id", { name := "rfc_number", affinity := .integer }, text "title",
      { name := "stage", affinity := .integer, default := .literal (.integer 0), check := inStages },
      choice "status" "active" ["active", "archived", "withdrawn"], nullable "feature", text "slug",
      text "file_path", nullable "superseded_by", nullable "supersedes", nullable "withdrawal_reason",
      nullable "archived_reason", nullable "consolidated_into",
      { name := "created_at", default := .datetimeNow }, nullable "updated_at"]
    unique := [["text_id"]] },
  { name := "workbench_lanes_data"
    columns := [text "text_id", { name := "title", check := nonblank }, { name := "intent", check := nonblank },
      { name := "state", check := oneOf ["prepared", "executing"] }, key "execution_phase_id" "phases_data",
      { name := "created_at", default := .strftimeNow }, { name := "updated_at", default := .strftimeNow }]
    unique := [["text_id"]] },
  { name := "axioms"
    columns := [text "text_id", choice "scope" "workflow" ["workflow", "system", "design"], text "principle",
      nullable "rationale", nullable "notes", { name := "created_at", default := .strftimeNow }]
    unique := [["text_id"]] },
  { name := "task_logs"
    columns := [key "task_id" "tasks_data", textDefault "kind" "note", text "message",
      { name := "created_at", default := .strftimeNow }]
    unique := [] },
  { name := "task_verifications"
    columns := [key "task_id" "tasks_data", text "kind", nullable "command", text "result",
      nullable "details", { name := "created_at", default := .strftimeNow }]
    unique := [] },
  { name := "phase_rfcs_data"
    columns := [key "phase_id" "phases_data", text "rfc_id",
      { name := "target", affinity := .integer, notNull := false },
      choice "relation" "related" ["driving", "related", "blocked"]]
    unique := [["phase_id", "rfc_id"]] },
  { name := "entity_aliases"
    columns := [{ name := "entity_type", check := oneOf ["epoch", "phase", "goal", "task"] },
      { name := "entity_id", affinity := .integer }, text "alias"]
    unique := [["entity_type", "alias"]] },
  { name := "axiom_implications"
    columns := [key "axiom_id" "axioms", text "implication",
      { name := "sort_key", affinity := .integer, default := .literal (.integer 0) }]
    unique := [["axiom_id", "sort_key"]] },
  { name := "axiom_tags"
    columns := [key "axiom_id" "axioms", text "tag"]
    unique := [["axiom_id", "tag"]] },
  { name := "idea_tags"
    columns := [key "idea_id" "ideas_data", text "tag"]
    unique := [["idea_id", "tag"]] },
  { name := "idea_task_refs"
    columns := [key "idea_id" "ideas_data", text "task_ref"]
    unique := [["idea_id", "task_ref"]] },
  { name := "rfc_relations"
    columns := [key "rfc_id" "rfcs_data", text "related_rfc",
      choice "relation" "related" ["related", "depends-on", "extends"]]
    unique := [["rfc_id", "related_rfc"]] }]

/-! ## Insertion -/

/-- A rowid and the row's other columns. -/
abbrev Stored := Int64 × Row

/-- The rows of every table, by rowid. -/
abbrev Tables := String → List Stored

def Column.admits (c : Column) (v : SqlValue) : Bool :=
  match v with
  | .null => !c.notNull
  | .integer _ => c.affinity = .integer && c.check v
  | .text _ => c.affinity = .text && c.check v

def TableSchema.names (s : TableSchema) : List String := s.columns.map Column.name

/-- The row has the table's columns, with values that they and the table admit. -/
def TableSchema.wellTyped (s : TableSchema) (row : Row) : Bool :=
  row.map Prod.fst = s.names && (s.columns.all fun c => c.admits (value row c.name)) && s.check row

/-- No uniqueness constraint sees one row in two. -/
def TableSchema.apart (s : TableSchema) (row row' : Row) : Bool :=
  s.unique.all fun columns =>
    (columns.any fun c => value row c = .null) || columns.map (value row) ≠ columns.map (value row')

/-- What the row refers to is there. -/
def TableSchema.resolves (db : Tables) (s : TableSchema) (row : Row) : Bool :=
  s.columns.all fun c =>
    match c.references, value row c.name with
    | some parent, .integer rowid => (db parent).any fun stored => stored.1 = rowid
    | _, _ => true

/-- One past the largest; the search for a free number behind the last one is left out. -/
def nextRowid (rows : List Stored) : Option Int64 :=
  match (rows.map fun stored => stored.1.toInt).max? with
  | none => some 1
  | some last => if last < Int64.maxValue.toInt then some (Int64.ofInt (last + 1)) else none

/-- What the two defaults of a time would give now. -/
structure Clock where
  strftime : String
  datetime : String

def Default.value (clock : Clock) : Default → SqlValue
  | literal v => v
  | strftimeNow => .text clock.strftime
  | datetimeNow => .text clock.datetime

/-- The statement `INSERT INTO table(..) VALUES(..)`, which fails on an unknown table or column and
on a constraint. -/
def insert (clock : Clock) (db : Tables) (table : String) (given : Row) : Option Tables := do
  let s ← schema.find? fun s => s.name = table
  guard (given.all fun e => e.1 ∈ s.names)
  let row := s.columns.map fun c => (c.name, (given.lookup c.name).getD (c.default.value clock))
  guard (s.wellTyped row && ((db table).all fun stored => s.apart stored.2 row) && s.resolves db row)
  let rowid ← nextRowid (db table)
  some (Function.update db table (db table ++ [(rowid, row)]))

/-- A content of the tables that meets every constraint. -/
structure Admitted (db : Tables) : Prop where
  rowids : ∀ s ∈ schema, ((db s.name).map Prod.fst).Nodup
  wellTyped : ∀ s ∈ schema, ∀ stored ∈ db s.name, s.wellTyped stored.2 = true
  apart : ∀ s ∈ schema, (db s.name).Pairwise fun stored stored' => s.apart stored.2 stored'.2 = true
  resolves : ∀ s ∈ schema, ∀ stored ∈ db s.name, s.resolves db stored.2 = true

def migrated : Tables := fun _ => []

end Exosuit.Dump
