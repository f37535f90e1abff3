import Exosuit.Hook.Plans
import Exosuit.Lib.Toml
import Exosuit.Lib.Traversal

/-!
# The version 3 configuration

The checks and workflows of a version 3 document: how they are read from its tables, and their
validation. A table with an unknown key, or with a key twice, is not read.
-/

namespace Exosuit.Hook

open Lib Lib.Toml

def asTableAt (t : Table) (key : String) : Option Table := (Table.get t key).bind Item.asTable

/-- Stops with the message when the check fails. -/
def require (ok : Bool) (message : String) : Except String Unit := if ok then .ok () else .error message

structure CheckV3 where
  label : Option String
  cwd : Option String
  command : Option String
  tool : Option String
  filters : List String
  category : CheckCategory
  fixCommand : Option String
  skipIfEmpty : Option Bool
  timeoutSeconds : Option Nat
deriving DecidableEq

inductive CheckRefV3
  | ref (name : String)
  | inline (check : CheckV3)
deriving DecidableEq

structure WorkflowV3 where
  label : Option String
  checks : List CheckRefV3
  parallel : Bool
  scope : Option String
  fixPolicy : Option String
deriving DecidableEq

structure HooksV3 where
  preCommit : Option String
  prePush : Option String
  commitMsg : Option String
  preMergeCommit : Option String
deriving DecidableEq

structure DefaultsV3 where
  timeoutSeconds : Option Nat
  parallel : Option Bool
  silenceWarningSeconds : Option Nat
  simpleOutput : Option Bool
  showParallelOutput : Option Bool
deriving DecidableEq

/-- The maps have one entry a key. -/
structure ConfigV3 where
  version : Int
  hooks : HooksV3
  check : List (String × CheckV3)
  workflow : List (String × WorkflowV3)
  defaults : DefaultsV3

/-! ## Reading -/

/- What a reader of plain values sees of an item. -/
mutual

def itemValue : Item → Value
  | .value v => v
  | .table entries => .inlineTable (tableFields entries)
  | .arrayOfTables tables => .array (tableValues tables)

def tableFields : List (String × Item) → List (String × Value)
  | [] => []
  | (key, item) :: rest => (key, itemValue item) :: tableFields rest

def tableValues : List (List (String × Item)) → List Value
  | [] => []
  | entries :: rest => .inlineTable (tableFields entries) :: tableValues rest

end

def asFields : Value → Option (List (String × Value))
  | .inlineTable fields => some fields
  | _ => none

def field (fields : List (String × Value)) (key : String) : Option Value :=
  (fields.find? fun e => e.1 == key).map Prod.snd

/-- A field of type `Option`: absent, or of the right kind. -/
def optional {α : Type} (read : Value → Option α) : Option Value → Option (Option α)
  | none => some none
  | some v => (read v).map some

def withDefault {α : Type} (default : α) (read : Value → Option α) (v : Option Value) : Option α :=
  (optional read v).map fun a => a.getD default

def readSeconds (v : Value) : Option Nat :=
  v.asInteger.bind fun n => if 0 ≤ n then some n.toNat else none

def readStrings (v : Value) : Option (List String) := v.asArray.bind fun values => values.mapM Value.asStr

def readCategory (v : Value) : Option CheckCategory :=
  match v.asStr with
  | some "observe" => some .observe
  | some "mutate" => some .mutate
  | _ => none

/-- The keys are known, and each is there once. -/
def keysAllowed (known keys : List String) : Bool := decide keys.Nodup && keys.all (· ∈ known)

def readStruct {α : Type} (known : List String) (read : (String → Option Value) → Option α) (v : Value) :
    Option α := do
  let fields ← asFields v
  if keysAllowed known (fields.map Prod.fst) then read (field fields) else none

def readMap {α : Type} (read : Value → Option α) (v : Value) : Option (List (String × α)) := do
  let fields ← asFields v
  if (fields.map Prod.fst).Nodup then
    fields.mapM fun e => (read e.2).map fun a => (e.1, a)
  else none

def checkKeys : List String :=
  ["label", "cwd", "command", "tool", "filters", "category", "fix_command", "skip_if_empty", "timeout_seconds"]

def CheckV3.ofFields (get : String → Option Value) : Option CheckV3 := do
  return {
    label := ← optional Value.asStr (get "label")
    cwd := ← optional Value.asStr (get "cwd")
    command := ← optional Value.asStr (get "command")
    tool := ← optional Value.asStr (get "tool")
    filters := ← withDefault [] readStrings (get "filters")
    category := ← withDefault .observe readCategory (get "category")
    fixCommand := ← optional Value.asStr (get "fix_command")
    skipIfEmpty := ← optional Value.asBool (get "skip_if_empty")
    timeoutSeconds := ← optional readSeconds (get "timeout_seconds") }

def CheckV3.read (v : Value) : Option CheckV3 := readStruct checkKeys CheckV3.ofFields v

/-- A string is a reference, anything else is read as a check. -/
def CheckRefV3.read (v : Value) : Option CheckRefV3 :=
  match v with
  | .string name => some (.ref name)
  | v => (CheckV3.read v).map .inline

def WorkflowV3.ofFields (get : String → Option Value) : Option WorkflowV3 := do
  return {
    label := ← optional Value.asStr (get "label")
    checks := ← withDefault [] (fun v => v.asArray.bind fun values => values.mapM CheckRefV3.read) (get "checks")
    parallel := ← withDefault true Value.asBool (get "parallel")
    scope := ← optional Value.asStr (get "scope")
    fixPolicy := ← optional Value.asStr (get "fix_policy") }

def workflowKeys : List String := ["label", "checks", "parallel", "scope", "fix_policy"]

def WorkflowV3.read (v : Value) : Option WorkflowV3 := readStruct workflowKeys WorkflowV3.ofFields v

def HooksV3.ofFields (get : String → Option Value) : Option HooksV3 := do
  return {
    preCommit := ← optional Value.asStr (get "pre_commit")
    prePush := ← optional Value.asStr (get "pre_push")
    commitMsg := ← optional Value.asStr (get "commit_msg")
    preMergeCommit := ← optional Value.asStr (get "pre_merge_commit") }

def HooksV3.read (v : Value) : Option HooksV3 :=
  readStruct ["pre_commit", "pre_push", "commit_msg", "pre_merge_commit"] HooksV3.ofFields v

def DefaultsV3.ofFields (get : String → Option Value) : Option DefaultsV3 := do
  return {
    timeoutSeconds := ← optional readSeconds (get "timeout_seconds")
    parallel := ← optional Value.asBool (get "parallel")
    silenceWarningSeconds := ← optional readSeconds (get "silence-warning-seconds")
    simpleOutput := ← optional Value.asBool (get "simple-output")
    showParallelOutput := ← optional Value.asBool (get "show-parallel-output") }

def DefaultsV3.read (v : Value) : Option DefaultsV3 :=
  readStruct ["timeout_seconds", "parallel", "silence-warning-seconds", "simple-output",
    "show-parallel-output"] DefaultsV3.ofFields v

def configKeys : List String := ["version", "hooks", "check", "workflow", "defaults", "projections"]

def ConfigV3.ofFields (get : String → Option Value) : Option ConfigV3 := do
  let version ← (get "version").bind Value.asInteger
  let hooks ← withDefault ⟨none, none, none, none⟩ HooksV3.read (get "hooks")
  let check ← withDefault [] (readMap CheckV3.read) (get "check")
  let workflow ← withDefault [] (readMap WorkflowV3.read) (get "workflow")
  let defaults ← withDefault ⟨none, none, none, none, none⟩ DefaultsV3.read (get "defaults")
  let _ ← withDefault [] asFields (get "projections")
  return ⟨version, hooks, check, workflow, defaults⟩

/-- `ConfigV3::from_doc` -/
def ConfigV3.fromDoc (doc : Table) : Option ConfigV3 :=
  if keysAllowed configKeys (doc.map Prod.fst) then
    ConfigV3.ofFields fun key => (Table.get doc key).map itemValue
  else none

/-! ## Validation -/

inductive ConfigError
  | version (found : Int)
  | check (message : String)
  | unknownWorkflow (hook workflow : String) (available : List String)
  | unknownCheck (workflow : String) (index : Nat) (check : String) (available : List String)

namespace CheckV3

/-- `cwd` is a path below the root of the repository, as far as its text tells. -/
def validateCwd (context cwd : String) : Except String Unit := do
  require (Text.trim cwd ≠ "") ("check '" ++ context ++ "': 'cwd' must not be empty")
  require (!Text.startsWith cwd "/") ("check '" ++ context ++ "': 'cwd' must be a repo-root-relative path")
  require (".." ∉ Text.split "/" cwd) ("check '" ++ context ++ "': 'cwd' must not contain '..'")

def validate (check : CheckV3) (context : String) : Except String Unit := do
  match check.command, check.tool with
  | none, none => throw ("check '" ++ context ++ "': must specify either 'command' or 'tool'")
  | some _, some _ => throw ("check '" ++ context ++ "': cannot specify both 'command' and 'tool'")
  | _, _ => pure ()
  require (check.fixCommand.isNone || check.category = .mutate)
    ("check '" ++ context ++ "': 'fix_command' requires 'category = \"mutate\"'")
  match check.cwd with
  | some cwd => validateCwd context cwd
  | none => pure ()

end CheckV3

namespace ConfigV3

def checkKeys (config : ConfigV3) : List String := config.check.map Prod.fst

def validateCheck (context : String) (check : CheckV3) : Except ConfigError Unit :=
  (check.validate context).mapError .check

def validateHook (config : ConfigV3) (hook : String × Option String) : Except ConfigError Unit :=
  match hook.2 with
  | none => .ok ()
  | some workflow =>
    if workflow ∈ config.workflow.map Prod.fst then .ok ()
    else .error (.unknownWorkflow hook.1 workflow (config.workflow.map Prod.fst))

def validateRef (config : ConfigV3) (workflow : String) (e : CheckRefV3 × Nat) : Except ConfigError Unit :=
  match e.1 with
  | .ref name =>
    if name ∈ config.checkKeys then .ok () else .error (.unknownCheck workflow e.2 name config.checkKeys)
  | .inline check => validateCheck ("workflow." ++ workflow ++ ".checks[" ++ toString e.2 ++ "]") check

def validate (config : ConfigV3) : Except ConfigError Unit := do
  if config.version ≠ 3 then throw (.version config.version)
  config.check.forM fun e => validateCheck e.1 e.2
  [("pre_commit", config.hooks.preCommit), ("pre_push", config.hooks.prePush),
    ("commit_msg", config.hooks.commitMsg), ("pre_merge_commit", config.hooks.preMergeCommit)].forM
      config.validateHook
  config.workflow.forM fun w => w.2.checks.zipIdx.forM (config.validateRef w.1)

/-- `resolve_check_ref` -/
def resolveCheckRef (config : ConfigV3) : CheckRefV3 → Option CheckV3
  | .ref name => (config.check.find? fun e => e.1 == name).map Prod.snd
  | .inline check => some check

end ConfigV3

/-! ## What was read -/

variable {t : Table} {key : String} {fields : List (String × Value)}

theorem tableFields_eq_map (t : Table) : tableFields t = t.map fun e => (e.1, itemValue e.2) := by
  induction t with
  | nil => rfl
  | cons e t ih =>
    obtain ⟨key, item⟩ := e
    rw [tableFields, ih, List.map_cons]

theorem keys_tableFields (t : Table) : (tableFields t).map Prod.fst = t.map Prod.fst := by
  rw [tableFields_eq_map, List.map_map]
  rfl

theorem field_tableFields (t : Table) (key : String) :
    field (tableFields t) key = (Table.get t key).map itemValue := by
  induction t with
  | nil => rfl
  | cons e t ih =>
    obtain ⟨key', item⟩ := e
    rw [tableFields, field, List.find?_cons, Table.get, List.find?_cons]
    dsimp only
    cases key' == key with
    | true => rfl
    | false => exact ih

theorem tableFields_map_value (fields : List (String × Value)) :
    tableFields (fields.map fun e => (e.1, Item.value e.2)) = fields := by
  rw [tableFields_eq_map, List.map_map]
  exact List.map_id' fields

section

variable {α : Type} {known : List String} {a : α}

theorem readStruct_eq_some {read : (String → Option Value) → Option α} :
    readStruct known read (.inlineTable fields) = some a ↔
      keysAllowed known (fields.map Prod.fst) = true ∧ read (field fields) = some a := by
  change (if keysAllowed known (fields.map Prod.fst) = true then read (field fields) else none) = some a ↔ _
  cases keysAllowed known (fields.map Prod.fst) with
  | true => exact ⟨fun h => ⟨rfl, h⟩, And.right⟩
  | false => exact iff_of_false nofun fun h => nomatch h.1

theorem readMap_eq_some {read : Value → Option α} {entries : List (String × α)} :
    readMap read (.inlineTable fields) = some entries ↔ (fields.map Prod.fst).Nodup ∧
      List.Forall₂ (fun (e : String × Value) (a : String × α) => a.1 = e.1 ∧ read e.2 = some a.2) fields entries := by
  have hEntry : ∀ (e : String × Value) (a : String × α),
      (read e.2).map (fun a => (e.1, a)) = some a ↔ a.1 = e.1 ∧ read e.2 = some a.2 := by
    rintro ⟨key, v⟩ ⟨key', a⟩
    rw [Option.map_eq_some_iff]
    constructor
    · rintro ⟨b, hRead, ⟨⟩⟩
      exact ⟨rfl, hRead⟩
    · rintro ⟨rfl, hRead⟩
      exact ⟨a, hRead, rfl⟩
  change (if (fields.map Prod.fst).Nodup then
    fields.mapM fun e => (read e.2).map fun a => (e.1, a) else none) = some entries ↔ _
  by_cases hNodup : (fields.map Prod.fst).Nodup
  · rw [if_pos hNodup, and_iff_right hNodup, Traversal.mapM_eq_some]
    simp only [hEntry]
  · rw [if_neg hNodup]
    exact iff_of_false nofun fun h => hNodup h.1

theorem withDefault_some {default : α} {read : Value → Option α} {v : Value} :
    withDefault default read (some v) = some a ↔ read v = some a := by
  rw [withDefault, optional]
  cases read v with
  | none => exact iff_of_false nofun nofun
  | some b => rfl

theorem readMap_table {read : Value → Option α} {t : Table} {entries : List (String × α)} :
    readMap read (itemValue (.table t)) = some entries ↔ (t.map Prod.fst).Nodup ∧
      List.Forall₂ (fun (e : String × Item) (a : String × α) => a.1 = e.1 ∧ read (itemValue e.2) = some a.2)
        t entries := by
  rw [itemValue, readMap_eq_some, keys_tableFields, tableFields_eq_map, List.forall₂_map_left_iff]

theorem readMap_nodup {read : Value → Option α} {v : Value} {entries : List (String × α)}
    (h : readMap read v = some entries) : (entries.map Prod.fst).Nodup := by
  cases v with
  | inlineTable fields =>
    obtain ⟨hNodup, hEntries⟩ := readMap_eq_some.mp h
    rwa [@Traversal.map_fst_eq _ _ _ (fun v a => read v = some a) _ _ hEntries]
  | _ => cases h

end

def readRefs (v : Value) : Option (List CheckRefV3) := v.asArray.bind fun values => values.mapM CheckRefV3.read

theorem WorkflowV3.ofFields_checks {get get' : String → Option Value} {w : WorkflowV3}
    (hOther : ∀ key ≠ "checks", get' key = get key) (h : WorkflowV3.ofFields get = some w)
    {checks : List CheckRefV3} (hChecks : withDefault [] readRefs ( get' "checks") = some checks) :
    WorkflowV3.ofFields get' = some { w with checks := checks } := by
  simp only [WorkflowV3.ofFields, Option.bind_eq_bind, Option.bind_eq_some_iff] at h
  obtain ⟨label, hLabel, checks₀, -, parallel, hParallel, scope, hScope, fixPolicy, hFix, hw⟩ := h
  cases hw
  change withDefault [] (fun v => v.asArray.bind fun values => values.mapM CheckRefV3.read) _ = _ at hChecks
  simp only [WorkflowV3.ofFields, hOther "label" (by decide), hOther "parallel" (by decide),
    hOther "scope" (by decide), hOther "fix_policy" (by decide), hLabel, hChecks, hParallel, hScope, hFix,
    Option.bind_eq_bind, Option.bind_some]
  rfl

theorem WorkflowV3.checks_of_ofFields {get : String → Option Value} {w : WorkflowV3}
    (h : WorkflowV3.ofFields get = some w) : withDefault [] readRefs (get "checks") = some w.checks := by
  simp only [WorkflowV3.ofFields, Option.bind_eq_bind, Option.bind_eq_some_iff] at h
  obtain ⟨label, -, checks, hChecks, parallel, -, scope, -, fixPolicy, -, hw⟩ := h
  cases hw
  exact hChecks

theorem ConfigV3.fromDoc_eq_some {doc : Table} {config : ConfigV3} : ConfigV3.fromDoc doc = some config ↔
    keysAllowed configKeys (doc.map Prod.fst) = true ∧
    ((Table.get doc "version").map itemValue).bind Value.asInteger = some config.version ∧
    withDefault ⟨none, none, none, none⟩ HooksV3.read ((Table.get doc "hooks").map itemValue) =
      some config.hooks ∧
    withDefault [] (readMap CheckV3.read) ((Table.get doc "check").map itemValue) = some config.check ∧
    withDefault [] (readMap WorkflowV3.read) ((Table.get doc "workflow").map itemValue) = some config.workflow ∧
    withDefault ⟨none, none, none, none, none⟩ DefaultsV3.read ((Table.get doc "defaults").map itemValue) =
      some config.defaults ∧
    ∃ projections, withDefault [] asFields ((Table.get doc "projections").map itemValue) = some projections := by
  unfold ConfigV3.fromDoc
  split
  · next hKeys =>
    rw [and_iff_right hKeys]
    simp only [ConfigV3.ofFields, Option.bind_eq_bind, Option.bind_eq_some_iff]
    constructor
    · rintro ⟨version, hVersion, hooks, hHooks, check, hCheck, workflow, hWorkflow, defaults, hDefaults,
        projections, hProjections, hConfig⟩
      cases hConfig
      exact ⟨hVersion, hHooks, hCheck, hWorkflow, hDefaults, projections, hProjections⟩
    · rintro ⟨hVersion, hHooks, hCheck, hWorkflow, hDefaults, projections, hProjections⟩
      exact ⟨_, hVersion, _, hHooks, _, hCheck, _, hWorkflow, _, hDefaults, projections, hProjections, rfl⟩
  · next hKeys => exact iff_of_false nofun fun h => hKeys h.1

namespace ConfigV3

variable {doc : Table} {config : ConfigV3} {item : Item}

theorem keysAllowed_insert {known : List String} {t : Table} {key : String} (hKnown : key ∈ known)
    (h : keysAllowed known (t.map Prod.fst) = true) :
    keysAllowed known ((Table.insert t key item).map Prod.fst) = true := by
  rw [Table.keys_insert]
  split
  · exact h
  · next hKey =>
    rw [keysAllowed, Bool.and_eq_true, decide_eq_true_eq, List.all_eq_true] at h ⊢
    refine ⟨List.nodup_append.mpr ⟨h.1, List.pairwise_singleton _ _, ?_⟩, ?_⟩
    · rintro a ha b hb rfl
      exact hKey (List.mem_singleton.mp hb ▸ ha)
    · intro a ha
      rcases List.mem_append.mp ha with hOld | hNew
      · exact h.2 a hOld
      · rw [List.mem_singleton.mp hNew]
        exact decide_eq_true hKnown

theorem fromDoc_workflow (h : fromDoc doc = some config) {workflow : List (String × WorkflowV3)}
    (hRead : readMap WorkflowV3.read (itemValue item) = some workflow) :
    fromDoc (Table.insert doc "workflow" item) = some { config with workflow := workflow } := by
  rw [fromDoc_eq_some] at h ⊢
  obtain ⟨hKeys, hVersion, hHooks, hCheck, -, hDefaults, hProjections⟩ := h
  refine ⟨keysAllowed_insert (by decide) hKeys, ?_⟩
  simp only [Table.get_insert, show ("version" : String) ≠ "workflow" by decide,
    show ("hooks" : String) ≠ "workflow" by decide, show ("check" : String) ≠ "workflow" by decide,
    show ("defaults" : String) ≠ "workflow" by decide, show ("projections" : String) ≠ "workflow" by decide,
    if_false, if_true]
  exact ⟨hVersion, hHooks, hCheck, withDefault_some.mpr hRead, hDefaults, hProjections⟩

theorem fromDoc_check (h : fromDoc doc = some config) {check : List (String × CheckV3)}
    (hRead : readMap CheckV3.read (itemValue item) = some check) :
    fromDoc (Table.insert doc "check" item) = some { config with check := check } := by
  rw [fromDoc_eq_some] at h ⊢
  obtain ⟨hKeys, hVersion, hHooks, -, hWorkflow, hDefaults, hProjections⟩ := h
  refine ⟨keysAllowed_insert (by decide) hKeys, ?_⟩
  simp only [Table.get_insert, show ("version" : String) ≠ "check" by decide,
    show ("hooks" : String) ≠ "check" by decide, show ("workflow" : String) ≠ "check" by decide,
    show ("defaults" : String) ≠ "check" by decide, show ("projections" : String) ≠ "check" by decide,
    if_false, if_true]
  exact ⟨hVersion, hHooks, withDefault_some.mpr hRead, hWorkflow, hDefaults, hProjections⟩

theorem readMap_of_withDefault {α : Type} {read : Value → Option α} {t : Table} {entries : List (String × α)}
    {key : String} (hTable : asTableAt doc key = some t)
    (h : withDefault [] (readMap read) ((Table.get doc key).map itemValue) = some entries) :
    readMap read (itemValue (.table t)) = some entries := by
  obtain ⟨item, hGet, hItem⟩ := Option.bind_eq_some_iff.mp hTable
  have hSame : item = .table t := by
    cases item with
    | table entries => exact congrArg Item.table (Option.some.inj hItem)
    | _ => cases hItem
  rw [hGet, hSame, Option.map_some] at h
  exact withDefault_some.mp h

end ConfigV3

/-! ## What was validated -/

theorem require_eq_ok {ok : Bool} {message : String} : require ok message = .ok () ↔ ok = true := by
  cases ok with
  | true => exact iff_of_true rfl rfl
  | false => exact iff_of_false nofun nofun

theorem require_bind_eq_ok {ok : Bool} {message : String} {next : Unit → Except String Unit} :
    (require ok message >>= next) = .ok () ↔ ok = true ∧ next () = .ok () := by
  cases ok with
  | true => exact ⟨fun h => ⟨rfl, h⟩, And.right⟩
  | false => exact iff_of_false nofun nofun

namespace CheckV3

variable {check : CheckV3} {context cwd : String}

theorem validateCwd_eq_ok : validateCwd context cwd = .ok () ↔
    Text.trim cwd ≠ "" ∧ Text.startsWith cwd "/" = false ∧ ".." ∉ Text.split "/" cwd := by
  rw [validateCwd, require_bind_eq_ok, require_bind_eq_ok, require_eq_ok, decide_eq_true_eq,
    decide_eq_true_eq, Bool.not_eq_true']

theorem validate_eq_ok : check.validate context = .ok () ↔ check.command.isSome ≠ check.tool.isSome ∧
    (check.fixCommand.isNone || decide (check.category = .mutate)) = true ∧
    ∀ cwd ∈ check.cwd, validateCwd context cwd = .ok () := by
  have hCwd : (match check.cwd with
      | some cwd => validateCwd context cwd
      | none => (pure () : Except String Unit)) = .ok () ↔
        ∀ cwd ∈ check.cwd, validateCwd context cwd = .ok () := by
    cases check.cwd with
    | none => exact iff_of_true rfl nofun
    | some cwd =>
      refine ⟨?_, fun h => h cwd rfl⟩
      rintro h _ ⟨⟩
      exact h
  have hRest : (do
      require (check.fixCommand.isNone || check.category = .mutate)
        ("check '" ++ context ++ "': 'fix_command' requires 'category = \"mutate\"'")
      match check.cwd with
      | some cwd => validateCwd context cwd
      | none => pure () : Except String Unit) = .ok () ↔
        (check.fixCommand.isNone || decide (check.category = .mutate)) = true ∧
        ∀ cwd ∈ check.cwd, validateCwd context cwd = .ok () := by
    rw [require_bind_eq_ok, hCwd]
  rw [← hRest, validate]
  cases check.command with
  | none =>
    cases check.tool with
    | none => exact iff_of_false nofun fun h => h.1 rfl
    | some tool => exact (and_iff_right (show (none : Option String).isSome ≠ (some tool).isSome by nofun)).symm
  | some command =>
    cases check.tool with
    | none => exact (and_iff_right (show (some command).isSome ≠ (none : Option String).isSome by nofun)).symm
    | some tool => exact iff_of_false nofun fun h => h.1 rfl

theorem validate_context (context' : String) (h : check.validate context = .ok ()) :
    check.validate context' = .ok () := by
  rw [validate_eq_ok] at h ⊢
  refine ⟨h.1, h.2.1, fun cwd hCwd => ?_⟩
  rw [validateCwd_eq_ok]
  exact validateCwd_eq_ok.mp (h.2.2 cwd hCwd)

theorem validateCwd_of_validate (h : check.validate context = .ok ()) (hCwd : check.cwd = some cwd) :
    validateCwd context cwd = .ok () := (validate_eq_ok.mp h).2.2 cwd hCwd

end CheckV3

namespace ConfigV3

def RefValid (keys : List String) : CheckRefV3 → Prop
  | .ref name => name ∈ keys
  | .inline check => check.validate "" = .ok ()

theorem validateCheck_eq_ok {context : String} {check : CheckV3} :
    validateCheck context check = .ok () ↔ check.validate "" = .ok () := by
  rw [validateCheck]
  cases h : check.validate context with
  | ok => exact iff_of_true rfl (CheckV3.validate_context "" h)
  | error e =>
    refine iff_of_false nofun fun hValid => ?_
    rw [CheckV3.validate_context context hValid] at h
    cases h

theorem validateRef_eq_ok {config : ConfigV3} {workflow : String} {e : CheckRefV3 × Nat} :
    config.validateRef workflow e = .ok () ↔ RefValid config.checkKeys e.1 := by
  obtain ⟨ref, index⟩ := e
  cases ref with
  | inline check => exact validateCheck_eq_ok
  | ref name =>
    change (if name ∈ config.checkKeys then (.ok () : Except ConfigError Unit) else _) = .ok () ↔ name ∈ config.checkKeys
    by_cases h : name ∈ config.checkKeys
    · rw [if_pos h]
      exact iff_of_true rfl h
    · rw [if_neg h]
      exact iff_of_false nofun h

def hookWorkflows (config : ConfigV3) : List (Option String) :=
  [config.hooks.preCommit, config.hooks.prePush, config.hooks.commitMsg, config.hooks.preMergeCommit]

theorem validateHook_eq_ok {config : ConfigV3} {hook : String × Option String} :
    config.validateHook hook = .ok () ↔ ∀ w ∈ hook.2, w ∈ config.workflow.map Prod.fst := by
  obtain ⟨name, _ | workflow⟩ := hook
  · exact iff_of_true rfl nofun
  · change (if workflow ∈ config.workflow.map Prod.fst then (.ok () : Except ConfigError Unit) else _) =
      .ok () ↔ _
    by_cases h : workflow ∈ config.workflow.map Prod.fst
    · rw [if_pos h]
      refine iff_of_true rfl ?_
      rintro _ ⟨⟩
      exact h
    · rw [if_neg h]
      exact iff_of_false nofun fun hAll => h (hAll workflow rfl)

theorem validate_eq_ok {config : ConfigV3} : config.validate = .ok () ↔ config.version = 3 ∧
    (∀ e ∈ config.check, e.2.validate "" = .ok ()) ∧
    (∀ hook ∈ config.hookWorkflows, ∀ w ∈ hook, w ∈ config.workflow.map Prod.fst) ∧
    ∀ w ∈ config.workflow, ∀ ref ∈ w.2.checks, RefValid config.checkKeys ref := by
  have hRefs : ∀ (w : String) (refs : List CheckRefV3),
      refs.zipIdx.forM (config.validateRef w) = .ok () ↔ ∀ ref ∈ refs, RefValid config.checkKeys ref := by
    intro w refs
    rw [Traversal.forM_eq_ok]
    simp only [validateRef_eq_ok]
    constructor
    · intro h ref hRef
      obtain ⟨index, hIndex⟩ := List.mem_iff_getElem?.mp hRef
      exact h (ref, index) (List.mk_mem_zipIdx_iff_getElem?.mpr hIndex)
    · rintro h ⟨ref, index⟩ hRef
      exact h ref (List.fst_mem_of_mem_zipIdx hRef)
  have hBind : ∀ {x : Except ConfigError Unit} {next : Unit → Except ConfigError Unit},
      (x >>= next) = .ok () ↔ x = .ok () ∧ next () = .ok () := by
    intro x next
    cases x with
    | error e => exact iff_of_false nofun fun h => nomatch h.1
    | ok => exact ⟨fun h => ⟨rfl, h⟩, And.right⟩
  rw [validate]
  by_cases hVersion : config.version = 3
  · rw [and_iff_right hVersion]
    rw [if_neg (not_not_intro hVersion)]
    simp only [hBind, Traversal.forM_eq_ok, validateCheck_eq_ok, validateHook_eq_ok, hRefs, hookWorkflows,
      List.forall_mem_cons, List.not_mem_nil, IsEmpty.forall_iff, implies_true, and_true]
  · rw [if_pos hVersion]
    exact iff_of_false nofun fun h => hVersion h.1

end ConfigV3

end Exosuit.Hook
