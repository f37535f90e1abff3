import Exosuit.Lib.JsonPointer
import Exosuit.Lib.Program
import Exosuit.Lib.Toml

/-!
# Structured reads and writes

A write reads the document, sets one key of it and prints it. It starts from an empty document when
the file is blank, and also when it cannot be read.
-/

namespace Exosuit.StructuredIo

open Lib

/-- `edit_file_with_permissions`; a missing file reads as an empty one. -/
def editFile (file : Option String) (edit : String → Except String String) :
    Except String Unit × Option String :=
  let content := file.getD ""
  match edit content with
  | .error e => (.error e, file)
  | .ok newContent => if content = newContent then (.ok (), file) else (.ok (), some newContent)

/-! ## JSON -/

/-- What the JSON library makes of a text and of a value. -/
structure JsonLibrary where
  fromStr : String → Option Json
  toStringPretty : Json → String
  /-- A float as it is read from the text it is printed as. -/
  rereadFloat : String → String

def pointerOf (json : Json) (pointer : String) : Option Json :=
  (Json.tokens pointer).bind (Json.children.find json)

def locateJson (lib : JsonLibrary) (file : Option String) (pointer : String) : Option Json :=
  (file.bind lib.fromStr).bind fun json => pointerOf json pointer

def readJson (lib : JsonLibrary) (file : Option String) (pointer : Option String) : Except String String :=
  match file with
  | none => .error "Failed to read JSON file"
  | some content =>
    match lib.fromStr content with
    | none => .error "Failed to parse JSON"
    | some json =>
      match pointer with
      | none => .ok (lib.toStringPretty json)
      | some pointer =>
        match pointerOf json pointer with
        | none => .error "Pointer not found"
        | some v => .ok (v.asStr.getD (lib.toStringPretty v))

/-- The document that a write starts from. -/
def startJson (lib : JsonLibrary) (content : String) : Json :=
  (lib.fromStr (if Text.trim content = "" then "{}" else content)).getD (.object [])

def denotedJson (lib : JsonLibrary) (value : String) : Json := (lib.fromStr value).getD (.string value)

/-- `pointer[1..]` -/
def rawKey (pointer : String) : String := String.ofList (pointer.toList.drop 1)

def editJson (lib : JsonLibrary) (content pointer value : String) : Except String Json :=
  let json := startJson lib content
  let parsedValue := denotedJson lib value
  if pointer = "" ∨ pointer = "/" then .ok parsedValue
  else
    match (Json.tokens pointer).bind (Json.children.put none parsedValue json) with
    | some json => .ok json
    | none =>
      if Text.startsWith pointer "/" ∧ '/' ∉ (rawKey pointer).toList then
        match json with
        | .object fields => .ok (.object (Json.insert fields (rawKey pointer) parsedValue))
        | _ => .error "Root is not an object, cannot insert key"
      else .error "JSON pointer target does not exist (deep auto-creation not implemented yet)"

def writeJson (lib : JsonLibrary) (file : Option String) (pointer value : String) :
    Except String Unit × Option String :=
  editFile file fun content => (editJson lib content pointer value).map lib.toStringPretty

/-! ## TOML -/

/-- What the TOML library makes of a text, and the text that it prints for the document read from a
text once the document's entries are others. -/
structure TomlLibrary where
  fromStr : String → Option Toml.Table
  parseValue : String → Option Toml.Value
  print : String → Toml.Table → String
  display : Toml.Item → String

def tomlChild : Toml.Item → String → Option Toml.Item
  | .table entries, key => Toml.Table.get entries key
  | .value (.inlineTable fields), key => (fields.lookup key).map .value
  | _, _ => none

def setTomlChild : Toml.Item → String → Toml.Item → Option Toml.Item
  | .table entries, key, item => some (.table (Toml.Table.insert entries key item))
  | _, _, _ => none

theorem tomlChild_setTomlChild {a v b : Toml.Item} {key : String} (h : setTomlChild a key v = some b) :
    tomlChild b key = some v := by
  cases a with
  | table entries => rw [← Option.some.inj h, tomlChild, Toml.Table.get_insert, if_pos rfl]
  | _ => exact absurd h nofun

theorem tomlChild_setTomlChild_ne {a v b : Toml.Item} {key key' : String} (h : setTomlChild a key v = some b)
    (hne : key' ≠ key) : tomlChild b key' = tomlChild a key' := by
  cases a with
  | table entries => rw [← Option.some.inj h, tomlChild, tomlChild, Toml.Table.get_insert, if_neg hne]
  | _ => exact absurd h nofun

def tomlChildren : Children Toml.Item String where
  get := tomlChild
  set := setTomlChild
  get_set := tomlChild_setTomlChild
  get_set_ne := tomlChild_setTomlChild_ne

def locateToml (lib : TomlLibrary) (file : Option String) (key : String) : Option Toml.Item :=
  (file.bind lib.fromStr).bind fun doc => tomlChildren.find (.table doc) (Text.split "." key)

def readToml (lib : TomlLibrary) (file : Option String) (key : Option String) : Except String String :=
  match file with
  | none => .error "Failed to read TOML file"
  | some content =>
    match lib.fromStr content with
    | none => .error "Failed to parse TOML"
    | some doc =>
      match key with
      | none => .ok (lib.print content doc)
      | some key =>
        match tomlChildren.find (.table doc) (Text.split "." key) with
        | none => .error "Key not found"
        | some item => .ok (item.asStr.getD (lib.display item))

/-- The loop over the parts of a key, which makes the tables that are missing. -/
def setParts (item : Toml.Item) : Toml.Table → List String → Except String Toml.Table
  | _, [] => .error "Key cannot be empty"
  | current, [part] => .ok (Toml.Table.insert current part item)
  | current, part :: rest =>
    match (Toml.Table.get current part).getD (.table []) with
    | .table entries => (setParts item entries rest).map fun entries => Toml.Table.insert current part (.table entries)
    | _ => .error "Path segment is not a table"

def denotedToml (lib : TomlLibrary) (value : String) : Toml.Item :=
  .value ((lib.parseValue value).getD (.string value))

def editToml (lib : TomlLibrary) (content key value : String) : Except String Toml.Table :=
  setParts (denotedToml lib value) ((lib.fromStr content).getD []) (Text.split "." key)

def writeToml (lib : TomlLibrary) (file : Option String) (key value : String) :
    Except String Unit × Option String :=
  editFile file fun content => (editToml lib content key value).map (lib.print content)

/-! ## Values read and texts shown -/

theorem readJson_ok {lib : JsonLibrary} {file : Option String} {pointer text : String} :
    readJson lib file (some pointer) = .ok text ↔
      ∃ v, locateJson lib file pointer = some v ∧ text = v.asStr.getD (lib.toStringPretty v) := by
  unfold readJson locateJson
  cases file with
  | none => exact ⟨nofun, fun ⟨_, h, _⟩ => absurd h nofun⟩
  | some content =>
    rw [Option.bind_some]
    dsimp only
    cases lib.fromStr content with
    | none => exact ⟨nofun, fun ⟨_, h, _⟩ => absurd h nofun⟩
    | some json =>
      rw [Option.bind_some]
      dsimp only
      cases pointerOf json pointer with
      | none => exact ⟨nofun, fun ⟨_, h, _⟩ => absurd h nofun⟩
      | some v =>
        exact ⟨fun h => ⟨v, rfl, (Except.ok.inj h).symm⟩, fun ⟨_, hv, h⟩ => Option.some.inj hv ▸ h ▸ rfl⟩

theorem readToml_ok {lib : TomlLibrary} {file : Option String} {key text : String} :
    readToml lib file (some key) = .ok text ↔
      ∃ item, locateToml lib file key = some item ∧ text = item.asStr.getD (lib.display item) := by
  unfold readToml locateToml
  cases file with
  | none => exact ⟨nofun, fun ⟨_, h, _⟩ => absurd h nofun⟩
  | some content =>
    rw [Option.bind_some]
    dsimp only
    cases lib.fromStr content with
    | none => exact ⟨nofun, fun ⟨_, h, _⟩ => absurd h nofun⟩
    | some doc =>
      rw [Option.bind_some]
      dsimp only
      cases tomlChildren.find (.table doc) (Text.split "." key) with
      | none => exact ⟨nofun, fun ⟨_, h, _⟩ => absurd h nofun⟩
      | some item =>
        exact ⟨fun h => ⟨item, rfl, (Except.ok.inj h).symm⟩, fun ⟨_, hItem, h⟩ => Option.some.inj hItem ▸ h ▸ rfl⟩

end Exosuit.StructuredIo
