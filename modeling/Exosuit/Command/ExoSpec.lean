import Exosuit.Command.Readers

/-!
# The derived specification and the derived constructor

One derive reads the declaration of an enum and produces two things from it: the specification of
its operations, and the constructor that takes an invocation apart again.
-/

namespace Exosuit.Command

open Lib (Table)

/-! ## Declarations -/

/-- A type by the last segment of its path and the types that are its arguments. -/
inductive RustType
  | path (segment : String) (args : List RustType)
  | other

inductive FieldAttr
  | long
  | positional
  | flag
  | short (letter : Char)
  | default (value : String)
  | description (text : String)
  | optional
  | json
  | unknown (name : String)

structure FieldDecl where
  ident : String
  type : RustType
  attrs : List FieldAttr
  hyphen_not_mem : '-' ∉ ident.toList

structure NamedFields where
  list : List FieldDecl
  distinct : (list.map FieldDecl.ident).Nodup

inductive FieldsDecl
  | unit
  | named (fields : NamedFields)
  | unnamed

inductive VariantAttr
  | effect (text : String)
  | upgradeGate
  | description (text : String)
  | operation (name : String)
  | unknown (name : String)

structure VariantDecl where
  ident : String
  attrs : List VariantAttr
  fields : FieldsDecl

inductive EnumAttr
  | namespace_ (name : String)
  | description (text : String)
  | unknown (name : String)

/-- Every attribute has a list of its own. -/
structure EnumDecl where
  attrs : List (List EnumAttr)
  variants : List VariantDecl

/-! ## Metadata -/

structure NamespaceMeta where
  name : String
  description : String

inductive Effect
  | pure
  | write
  | exec
deriving DecidableEq

structure ArgMeta where
  name : String
  fieldName : String
  description : String
  kind : ArgKind
  valueType : ValueType
  optional : Bool
  isOptionType : Bool
  short : Option Char
  defaultValue : Option String
deriving DecidableEq

structure OperationMeta where
  variantName : String
  operationName : String
  description : String
  effect : Effect
  upgradeGate : Bool
  args : List ArgMeta

/-- `is_uppercase`, `is_lowercase` and the first character of `to_lowercase`. -/
structure Casing where
  isUppercase : Char → Bool
  isLowercase : Char → Bool
  toLowercase : Char → Char

/-! ## Reading a declaration -/

def unwrapOptionType : RustType → Bool × RustType
  | .path "Option" (inner :: _) => (true, inner)
  | type => (false, type)

def intTypes : List String :=
  ["i8", "i16", "i32", "i64", "i128", "isize", "u8", "u16", "u32", "u64", "u128", "usize"]

def inferValueType : RustType → ValueType
  | .other => .string
  | .path segment _ =>
    if segment = "bool" then .bool
    else if segment ∈ intTypes then .int
    else if segment = "f32" ∨ segment = "f64" then .float
    else if segment = "PathBuf" ∨ segment = "Path" then .path
    else if segment = "Value" then .json
    else .string

/-- What the attributes of a field have said so far. -/
structure FieldScan where
  kind : Option ArgKind
  short : Option Char
  default : Option String
  description : Option String
  explicitOptional : Bool
  explicitValueType : Option ValueType

def FieldScan.empty : FieldScan := ⟨none, none, none, none, false, none⟩

def FieldScan.read (scan : FieldScan) : FieldAttr → Except String FieldScan
  | .long => .ok { scan with kind := scan.kind.or (some .option) }
  | .positional => .ok { scan with kind := some .positional }
  | .flag => .ok { scan with kind := some .flag }
  | .short letter => .ok { scan with short := some letter, kind := scan.kind.or (some .option) }
  | .default value => .ok { scan with default := some value }
  | .description text => .ok { scan with description := some text }
  | .optional => .ok { scan with explicitOptional := true }
  | .json => .ok { scan with explicitValueType := some .json }
  | .unknown name => .error ("unknown exo field attribute: \x60" ++ name ++ "\x60")

def argName (kind : ArgKind) (ident : String) : String :=
  match kind with
  | .option | .flag => replaceUnderscores ident
  | .positional => ident

def parseFieldArg (field : FieldDecl) : Except String ArgMeta := do
  let (isOption, inner) := unwrapOptionType field.type
  let scan ← field.attrs.foldlM FieldScan.read .empty
  let valueType := scan.explicitValueType.getD (inferValueType inner)
  let kind := scan.kind.getD (if valueType = .bool then .flag else .option)
  return {
    name := argName kind field.ident
    fieldName := field.ident
    description := scan.description.getD ""
    kind := kind
    valueType := valueType
    optional := isOption || scan.explicitOptional || scan.default.isSome
    isOptionType := isOption
    short := scan.short
    defaultValue := scan.default }

def parseVariantArgs (variant : VariantDecl) : Except String (List ArgMeta) :=
  match variant.fields with
  | .named fields => fields.list.mapM parseFieldArg
  | .unit => .ok []
  | .unnamed => .error "ExoSpec variants must use named fields or be unit variants"

/-- `to_snake_case`, with the character before. -/
def snakeFrom (casing : Casing) : Option Char → List Char → List Char
  | _, [] => []
  | prev, ch :: rest =>
    if casing.isUppercase ch then
      (if prev.any fun p => casing.isLowercase p || (rest.head?.any casing.isLowercase && casing.isUppercase p)
        then ['_'] else []) ++ casing.toLowercase ch :: snakeFrom casing (some ch) rest
    else ch :: snakeFrom casing (some ch) rest

def toSnakeCase (casing : Casing) (s : String) : String := String.ofList (snakeFrom casing none s.toList)

structure VariantScan where
  effect : Option Effect
  upgradeGate : Bool
  description : Option String
  explicitOperation : Option String

def VariantScan.read (scan : VariantScan) : VariantAttr → Except String VariantScan
  | .effect "pure" => .ok { scan with effect := some .pure }
  | .effect "write" => .ok { scan with effect := some .write }
  | .effect "exec" => .ok { scan with effect := some .exec }
  | .effect text =>
    .error ("invalid effect: \x60" ++ text ++ "\x60. Expected \"pure\", \"write\", or \"exec\"")
  | .upgradeGate => .ok { scan with upgradeGate := true }
  | .description text => .ok { scan with description := some text }
  | .operation name => .ok { scan with explicitOperation := some name }
  | .unknown name => .error ("unknown exo variant attribute: \x60" ++ name ++ "\x60")

def parseOperationMeta (casing : Casing) (variant : VariantDecl) : Except String OperationMeta := do
  let scan ← variant.attrs.foldlM VariantScan.read ⟨none, false, none, none⟩
  match scan.effect with
  | none =>
    throw ("ExoSpec variant \x60" ++ variant.ident ++ "\x60 requires #[exo(effect = \"pure|write|exec\")]")
  | some effect =>
    let args ← parseVariantArgs variant
    return {
      variantName := variant.ident
      operationName := scan.explicitOperation.getD (toSnakeCase casing variant.ident)
      description := scan.description.getD ""
      effect := effect
      upgradeGate := scan.upgradeGate
      args := args }

def readEnumAttr (scan : Option String × Option String) : EnumAttr → Except String (Option String × Option String)
  | .namespace_ name => .ok (some name, scan.2)
  | .description text => .ok (scan.1, some text)
  | .unknown name => .error ("unknown exo enum attribute: \x60" ++ name ++ "\x60")

/-- The first attribute that names a namespace. -/
def parseNamespaceMeta : List (List EnumAttr) → Except String NamespaceMeta
  | [] => .error "ExoSpec requires #[exo(namespace = \"...\")] on the enum"
  | attr :: attrs => do
    let (name, description) ← attr.foldlM readEnumAttr (none, none)
    match name with
    | some name => return ⟨name, description.getD ""⟩
    | none => parseNamespaceMeta attrs

/-- `expand_exo_spec`, up to the metadata that both halves are generated from. -/
def expandExoSpec (casing : Casing) (decl : EnumDecl) : Except String (NamespaceMeta × List OperationMeta) := do
  let ns ← parseNamespaceMeta decl.attrs
  let operations ← decl.variants.mapM (parseOperationMeta casing)
  return (ns, operations)

/-! ## The specification -/

namespace ArgSpec

def ofFlag (id : String) : ArgSpec := ⟨id, id, .flag, .bool, true, some "false", none, false⟩

def ofOption (id : String) (valueType : ValueType) : ArgSpec :=
  ⟨id, id, .option, valueType, false, none, none, false⟩

def ofPositional (id : String) (valueType : ValueType) : ArgSpec :=
  ⟨id, id, .positional, valueType, false, none, none, false⟩

def withDefault (arg : ArgSpec) (default : String) : ArgSpec :=
  { arg with default := some default, optional := true }

end ArgSpec

/-- `generate_arg_expr` -/
def ArgMeta.spec (arg : ArgMeta) : ArgSpec :=
  let base :=
    match arg.kind with
    | .flag => ArgSpec.ofFlag arg.name
    | .option => ArgSpec.ofOption arg.name arg.valueType
    | .positional => ArgSpec.ofPositional arg.name arg.valueType
  let base := if arg.optional ∧ arg.kind ≠ .flag then { base with optional := true } else base
  let base := { base with short := arg.short }
  match arg.defaultValue with
  | some default => base.withDefault default
  | none => base

def OperationMeta.spec (op : OperationMeta) : OperationSpec := ⟨op.args.map ArgMeta.spec⟩

/-- The inserted operations; a later one replaces an earlier one of the same name. -/
def operationsSpec (operations : List OperationMeta) : Table String OperationSpec :=
  Table.extend ∅ (operations.map fun op => (op.operationName, op.spec))

/-! ## The constructor -/

section

variable {F : Type*}

namespace TypedValue

def asStr : TypedValue F → Option String
  | .string s | .path s => some s
  | _ => none

def asBool : TypedValue F → Option Bool
  | .bool b => some b
  | _ => none

def asInt : TypedValue F → Option Int64
  | .int i => some i
  | _ => none

def asJson : TypedValue F → Option String
  | .json raw => some raw
  | _ => none

end TypedValue

def Invocation.getArg (inv : Invocation F) (name : String) : Option (TypedValue F) :=
  (inv.args.lookup name).or (inv.args.lookup (replaceUnderscores name))

/-- The value of a field; one whose type is no `Option` is always there. -/
inductive FieldValue
  | bool (b : Bool)
  | int (i : Option Int64)
  | text (s : Option String)
deriving DecidableEq

def requireArg {α : Type} (arg : ArgMeta) (value : Option α) : Except String α :=
  match value with
  | some a => .ok a
  | none => .error ("Missing required argument: " ++ arg.name)

/-- `generate_field_extraction` -/
def extractField (inv : Invocation F) (arg : ArgMeta) : Except String FieldValue :=
  let found := inv.getArg arg.name
  match arg.isOptionType, arg.valueType with
  | _, .bool => .ok (.bool ((found.bind TypedValue.asBool).getD false))
  | true, .int => .ok (.int (found.bind TypedValue.asInt))
  | false, .int => (requireArg arg (found.bind TypedValue.asInt)).map fun i => .int (some i)
  | true, .json => .ok (.text (found.bind TypedValue.asJson))
  | false, .json => (requireArg arg (found.bind TypedValue.asJson)).map fun s => .text (some s)
  | true, _ => .ok (.text (found.bind TypedValue.asStr))
  | false, _ =>
    (requireArg arg ((found.bind TypedValue.asStr).or arg.defaultValue)).map fun s => .text (some s)

/-- The arms are tried in order, so that the first operation of a name is constructed. -/
def fromInvocation (ns : NamespaceMeta) (operations : List OperationMeta) (inv : Invocation F) :
    Except String (String × List (String × FieldValue)) :=
  match operations.find? fun op => op.operationName = inv.path.2 with
  | none => .error ("Unknown operation '" ++ inv.path.2 ++ "' for namespace '" ++ ns.name ++ "'")
  | some op => do
    let values ← op.args.mapM fun arg => do
      let value ← extractField inv arg
      return (arg.fieldName, value)
    return (op.variantName, values)

end

end Exosuit.Command
