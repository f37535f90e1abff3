import Mathlib.Data.Int.Basic
import Exosuit.Lib.Json
import Exosuit.Lib.Table
import Exosuit.Lib.Text

/-!
# Argument values

The specification of an operation's arguments, and the readers and writers of a
single value: from a command line token, from a default text, from JSON, to JSON.
-/

namespace Exosuit.Command

open Lib (Json Table)

inductive ArgKind
  | flag
  | option
  | positional
deriving DecidableEq, Repr

inductive ValueType
  | bool
  | int
  | float
  | string
  | path
  | json
  | enum (allowed : List String)
deriving DecidableEq, Repr

structure ArgSpec where
  id : String
  name : String
  kind : ArgKind
  valueType : ValueType
  optional : Bool
  default : Option String
  short : Option Char
  repeatable : Bool
deriving DecidableEq, Repr

structure OperationSpec where
  args : List ArgSpec

structure CommandSpec where
  namespaces : Table String (Table String OperationSpec)
  rootOperations : Table String OperationSpec

inductive TypedValue (F : Type*)
  | bool (b : Bool)
  | int (i : Int64)
  | float (f : F)
  | string (s : String)
  | path (s : String)
  | json (raw : String)
  | enum (s : String)
  | array (values : List (TypedValue F))

/-- Numbers and texts of the libraries: 64-bit floats, JSON texts, and the `Debug` form of a
string. `floatText` is the number that JSON holds, and answers `none` on one that it cannot. -/
structure Formats (F : Type*) where
  parseFloat : String → Option F
  floatOfInt : Int → F
  floatOfText : String → F
  floatText : F → Option String
  parseJson : String → Option Json
  printJson : Json → String
  debugString : String → String

/-! ## Routing diagnostics -/

inductive RoutingCode
  | unknownNamespace
  | unknownOperation
  | unknownFlag
  | missingRequiredArg
  | invalidArgType
deriving DecidableEq, Repr

structure DiagnosticContext where
  path : Option (List String)
  available : List String
  expectedType : Option String
  actualValue : Option String
deriving DecidableEq, Repr

structure RoutingDiagnostic where
  code : RoutingCode
  message : String
  context : Option DiagnosticContext
deriving DecidableEq, Repr

section

variable {F : Type*} (fmt : Formats F)

def invalidArgType (arg : ArgSpec) (expected : String) (actual : Json) : RoutingDiagnostic :=
  ⟨.invalidArgType, "Expected " ++ expected ++ " for argument '" ++ arg.name ++ "'",
    some ⟨none, [], some expected, some (fmt.printJson actual)⟩⟩

def invalidDefaultValue (arg : ArgSpec) (expected actual : String) : RoutingDiagnostic :=
  ⟨.invalidArgType, "Invalid default value for argument '" ++ arg.name ++ "'",
    some ⟨none, [], some expected, some actual⟩⟩

def enumType (allowed : List String) : String := "enum(" ++ ", ".intercalate allowed ++ ")"

def ValueType.debug : ValueType → String
  | bool => "Bool"
  | int => "Int"
  | float => "Float"
  | string => "String"
  | path => "Path"
  | json => "Json"
  | enum allowed => "Enum([" ++ ", ".intercalate (allowed.map fmt.debugString) ++ "])"

/-! ## The readers of a value -/

/-- A token of the command line. -/
def parseValue (kind : ValueType) (token : String) : Option (TypedValue F) :=
  match kind with
  | .bool =>
    match token with
    | "true" => some (.bool true)
    | "false" => some (.bool false)
    | _ => none
  | .int => (Lib.Text.parseI64 token).map .int
  | .float => (fmt.parseFloat token).map .float
  | .string => some (.string token)
  | .path => some (.path token)
  | .json => (fmt.parseJson token).map fun _ => .json token
  | .enum allowed => if token ∈ allowed then some (.enum token) else none

/-- The default text of an argument that the JSON input leaves out. -/
def typedValueFromDefault (arg : ArgSpec) (default : String) :
    Except RoutingDiagnostic (TypedValue F) :=
  match arg.valueType with
  | .bool =>
    match default with
    | "true" => .ok (.bool true)
    | "false" => .ok (.bool false)
    | _ => .error (invalidDefaultValue arg "boolean" default)
  | .int =>
    match Lib.Text.parseI64 default with
    | some i => .ok (.int i)
    | none => .error (invalidDefaultValue arg "integer" default)
  | .float =>
    match fmt.parseFloat default with
    | some f => .ok (.float f)
    | none => .error (invalidDefaultValue arg "number" default)
  | .string => .ok (.string default)
  | .path => .ok (.path default)
  | .json => .ok (.json default)
  | .enum allowed =>
    if default ∈ allowed then .ok (.enum default)
    else
      .error ⟨.invalidArgType,
        "Invalid default enum value '" ++ default ++ "' for argument '" ++ arg.name ++ "'",
        some ⟨none, allowed, some (enumType allowed), some default⟩⟩

def asI64 : Json → Option Int64
  | .posInt n => if n < 2 ^ 63 then some (Int64.ofNat n) else none
  | .negInt i => some (Int64.ofInt i)
  | _ => none

def asF64 : Json → Option F
  | .posInt n => some (fmt.floatOfInt n)
  | .negInt i => some (fmt.floatOfInt i)
  | .float text => some (fmt.floatOfText text)
  | _ => none

def boolOfText : String → Option Bool
  | "true" | "1" | "yes" => some true
  | "false" | "0" | "no" => some false
  | _ => none

namespace TypedValue

/-- A JSON value, with the lenient coercions of machine channels. -/
def fromJson (value : Json) (arg : ArgSpec) : Except RoutingDiagnostic (TypedValue F) :=
  match arg.valueType with
  | .bool =>
    match value.asBool.or (value.asStr.bind boolOfText) with
    | some b => .ok (.bool b)
    | none => .error (invalidArgType fmt arg "boolean" value)
  | .int =>
    match (asI64 value).or (value.asStr.bind Lib.Text.parseI64) with
    | some i => .ok (.int i)
    | none => .error (invalidArgType fmt arg "integer" value)
  | .float =>
    match (asF64 fmt value).or (value.asStr.bind fmt.parseFloat) with
    | some f => .ok (.float f)
    | none => .error (invalidArgType fmt arg "number" value)
  | .string =>
    match value with
    | .string s => .ok (.string s)
    | .array [] => .error (invalidArgType fmt arg "non-empty string or array" value)
    | .array items =>
      .ok (.string (",".intercalate (items.map fun item => item.asStr.getD (fmt.printJson item))))
    | _ => .error (invalidArgType fmt arg "string" value)
  | .path =>
    match value.asStr with
    | some s => .ok (.path s)
    | none => .error (invalidArgType fmt arg "string" value)
  | .json => .ok (.json (fmt.printJson value))
  | .enum allowed =>
    match value.asStr with
    | none => .error (invalidArgType fmt arg "string" value)
    | some variant =>
      if variant ∈ allowed then .ok (.enum variant)
      else
        .error ⟨.invalidArgType,
          "Invalid enum value '" ++ variant ++ "' for argument '" ++ arg.name ++ "'",
          some ⟨none, allowed, some (enumType allowed), some variant⟩⟩

mutual

def toJsonValue : TypedValue F → Json
  | bool b => .bool b
  | int i => if 0 ≤ i then .posInt i.toInt.toNat else .negInt i.toInt
  | float f =>
    match fmt.floatText f with
    | some text => .float text
    | none => .null
  | string s | path s | enum s => .string s
  | json raw => (fmt.parseJson raw).getD (.string raw)
  | array values => .array (toJsonValues values)

def toJsonValues : List (TypedValue F) → List Json
  | [] => []
  | value :: rest => toJsonValue value :: toJsonValues rest

end

end TypedValue

/-! ## Values that read back -/

/-- The same value, up to the text of a JSON argument. -/
def Same : TypedValue F → TypedValue F → Prop
  | .json raw, .json raw' => ∃ v, fmt.parseJson raw = some v ∧ fmt.parseJson raw' = some v
  | v, v' => v = v'

/-- The value is of the type, and JSON holds it. -/
def Reads : ValueType → TypedValue F → Prop
  | .bool, .bool _ | .int, .int _ | .string, .string _ | .path, .path _ => True
  | .float, .float f => ∃ text, fmt.floatText f = some text ∧ fmt.floatOfText text = f
  | .json, .json raw =>
    ∃ v, fmt.parseJson raw = some v ∧ fmt.parseJson (fmt.printJson v) = some v
  | .enum allowed, .enum s => s ∈ allowed
  | _, _ => False

/-- JSON holds the value. -/
def Held : TypedValue F → Prop
  | .float f => ∃ text, fmt.floatText f = some text ∧ fmt.floatOfText text = f
  | .json raw => ∃ v, fmt.parseJson raw = some v ∧ fmt.parseJson (fmt.printJson v) = some v
  | _ => True

variable {fmt}

theorem held_of_reads {kind : ValueType} {v : TypedValue F} (h : Reads fmt kind v) : Held fmt v := by
  cases v with
  | float f =>
    cases kind with
    | float => exact h
    | _ => cases h
  | json raw =>
    cases kind with
    | json => exact h
    | _ => cases h
  | _ => trivial

theorem reads_of_parseValue {kind : ValueType} {token : String} {v : TypedValue F}
    (h : parseValue fmt kind token = some v) (hHeld : Held fmt v) : Reads fmt kind v := by
  unfold parseValue at h
  cases kind with
  | bool =>
    dsimp only at h
    split at h <;> cases h
    all_goals trivial
  | int =>
    obtain ⟨i, -, rfl⟩ := Option.map_eq_some_iff.mp h
    trivial
  | float =>
    obtain ⟨f, -, rfl⟩ := Option.map_eq_some_iff.mp h
    exact hHeld
  | string | path =>
    cases h
    trivial
  | json =>
    obtain ⟨w, -, rfl⟩ := Option.map_eq_some_iff.mp h
    exact hHeld
  | enum allowed =>
    dsimp only at h
    split at h
    · next hMem =>
      cases h
      exact hMem
    · cases h

theorem asI64_toJsonValue (i : Int64) :
    asI64 (TypedValue.toJsonValue fmt (.int i)) = some i := by
  unfold TypedValue.toJsonValue
  split
  · next h =>
    have hNonneg : 0 ≤ i.toInt := by simpa [Int64.le_iff_toInt_le] using h
    have hRange : i.toInt.toNat < 2 ^ 63 := by
      have hLt := i.toInt_lt
      omega
    have hBack : Int64.ofNat i.toInt.toNat = i := by
      rw [← Int64.ofInt_eq_ofNat, Int.toNat_of_nonneg hNonneg, Int64.ofInt_toInt]
    rw [asI64, if_pos hRange, hBack]
  · rw [asI64, Int64.ofInt_toInt]

theorem reads_iff (arg : ArgSpec) (v : TypedValue F) :
    (∃ v', TypedValue.fromJson fmt (TypedValue.toJsonValue fmt v) arg = .ok v' ∧ Same fmt v' v) ↔
      Reads fmt arg.valueType v := by
  unfold TypedValue.fromJson
  cases hType : arg.valueType with
  | bool =>
    constructor
    · rintro ⟨v', hRead, hSame⟩
      dsimp only at hRead
      split at hRead <;> cases hRead
      cases hSame
      trivial
    · intro hReads
      cases v <;> cases hReads
      exact ⟨_, rfl, rfl⟩
  | int =>
    constructor
    · rintro ⟨v', hRead, hSame⟩
      dsimp only at hRead
      split at hRead <;> cases hRead
      cases hSame
      trivial
    · intro hReads
      cases v <;> cases hReads
      rw [asI64_toJsonValue]
      exact ⟨_, rfl, rfl⟩
  | float =>
    constructor
    · rintro ⟨v', hRead, hSame⟩
      dsimp only at hRead
      split at hRead <;> cases hRead
      next f hFloat =>
        cases hSame
        unfold TypedValue.toJsonValue at hFloat
        cases hText : fmt.floatText f with
        | none =>
          rw [hText] at hFloat
          cases hFloat
        | some text =>
          rw [hText] at hFloat
          exact ⟨text, hText, Option.some.inj hFloat⟩
    · intro hReads
      cases v <;> try cases hReads
      next f text hReads =>
        obtain ⟨hText, hBack⟩ := hReads
        have hJson : TypedValue.toJsonValue fmt (.float f) = .float text := by
          rw [TypedValue.toJsonValue, hText]
        rw [hJson]
        exact ⟨_, rfl, congrArg TypedValue.float hBack⟩
  | string =>
    constructor
    · rintro ⟨v', hRead, hSame⟩
      dsimp only at hRead
      split at hRead <;> cases hRead
      · cases hSame
        trivial
      · cases hSame
        trivial
    · intro hReads
      cases v <;> cases hReads
      exact ⟨_, rfl, rfl⟩
  | path =>
    constructor
    · rintro ⟨v', hRead, hSame⟩
      dsimp only at hRead
      split at hRead <;> cases hRead
      cases hSame
      trivial
    · intro hReads
      cases v <;> cases hReads
      exact ⟨_, rfl, rfl⟩
  | json =>
    constructor
    · rintro ⟨v', hRead, hSame⟩
      cases hRead
      cases v <;> try cases hSame
      next raw w hSame =>
        obtain ⟨hPrint, hRaw⟩ := hSame
        rw [TypedValue.toJsonValue, hRaw] at hPrint
        exact ⟨w, hRaw, hPrint⟩
    · intro hReads
      cases v <;> try cases hReads
      next raw w hReads =>
        obtain ⟨hRaw, hPrint⟩ := hReads
        refine ⟨_, rfl, w, ?_, hRaw⟩
        rw [TypedValue.toJsonValue, hRaw]
        exact hPrint
  | enum allowed =>
    constructor
    · rintro ⟨v', hRead, hSame⟩
      dsimp only at hRead
      split at hRead
      · cases hRead
      · split at hRead <;> cases hRead
        next hMem =>
          cases hSame
          exact hMem
    · intro hReads
      cases v with
      | enum s =>
        refine ⟨.enum s, ?_, rfl⟩
        simp only [TypedValue.toJsonValue, Json.asStr_string]
        exact if_pos hReads
      | _ => cases hReads

end

end Exosuit.Command
