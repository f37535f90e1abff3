import Mathlib.Data.List.Sort
import Exosuit.Command.Values

/-!
# The two readers of an operation's arguments

`compile_args` reads a command line, `Invocation::from_json` a JSON object.
-/

namespace Exosuit.Command

open Lib (Json Table)

structure Invocation (F : Type*) where
  path : String × String
  args : Table String (TypedValue F)
  occurrences : Table String Nat

/-! ## The command line -/

inductive DiagnosticCode
  | unknownFlag
  | invalidFlag
  | missingValue
  | invalidValue
  | tooManyPositionals
  | missingRequired
  | nonRepeatable
deriving DecidableEq, Repr

structure Diagnostic where
  code : DiagnosticCode
  message : String
  span : Option Nat
deriving DecidableEq, Repr

/-- What has been read of a command line. -/
structure Compiling (F : Type*) where
  args : Table String (TypedValue F)
  occurrences : Table String Nat
  diagnostics : List Diagnostic
  positionals : List (Nat × String)

def displayArg (arg : ArgSpec) : String :=
  if arg.kind = .positional then if arg.name = "" then arg.id else arg.name
  else if arg.name ≠ "" then "--" ++ arg.name
  else
    match arg.short with
    | some short => "-" ++ String.singleton short
    | none => arg.id

namespace OperationSpec

/-- The index by long name: a later argument replaces an earlier one of the same name. -/
def byLong (op : OperationSpec) (name : String) : Option ArgSpec :=
  op.args.reverse.find? fun arg => arg.name ≠ "" && arg.name = name

def byShort (op : OperationSpec) (short : Char) : Option ArgSpec :=
  op.args.reverse.find? fun arg => arg.short = some short

def positionalSpecs (op : OperationSpec) : List ArgSpec :=
  op.args.filter fun arg => arg.kind = .positional

end OperationSpec

namespace Compiling

variable {F : Type*}

def empty : Compiling F := ⟨∅, ∅, [], []⟩

def report (c : Compiling F) (code : DiagnosticCode) (message : String) (span : Option Nat) :
    Compiling F :=
  { c with diagnostics := c.diagnostics ++ [⟨code, message, span⟩] }

/-- `bump_occurrence` and the insertion of the value. -/
def set (c : Compiling F) (id : String) (value : TypedValue F) : Compiling F :=
  { c with
    args := AList.insert id value c.args
    occurrences :=
      AList.insert id (min (((c.occurrences.lookup id).getD 0) + 1) (2 ^ 32 - 1)) c.occurrences }

def push (c : Compiling F) (positionals : List (Nat × String)) : Compiling F :=
  { c with positionals := c.positionals ++ positionals }

variable (fmt : Formats F)

/-- The value of the argument, or a diagnostic with the message at the token. -/
def setParsed (c : Compiling F) (arg : ArgSpec) (token message : String) (span : Nat) :
    Compiling F :=
  match parseValue fmt arg.valueType token with
  | some value => c.set arg.id value
  | none => c.report .invalidValue message (some span)

end Compiling

section

variable {F : Type*} (fmt : Formats F) (op : OperationSpec)

/-- The flag or option that a token names: `shown` is how the messages show it, `inline` its
inline value, `next` the token after it. The result says whether `next` is consumed. -/
def readNamed (found : Option ArgSpec) (shown : String) (inline next : Option String) (i : Nat)
    (c : Compiling F) : Compiling F × Bool :=
  match found with
  | none => (c.report .unknownFlag ("Unknown flag '" ++ shown ++ "'") (some i), false)
  | some arg =>
    match arg.kind with
    | .flag => (c.set arg.id (.bool true), false)
    | .option =>
      match inline with
      | some value =>
        (c.setParsed fmt arg value ("Invalid value '" ++ value ++ "' for '" ++ shown ++ "'") i, false)
      | none =>
        match next with
        | none => (c.report .missingValue ("Missing value for '" ++ shown ++ "'") (some i), false)
        | some value =>
          (c.setParsed fmt arg value ("Invalid value '" ++ value ++ "' for '" ++ shown ++ "'") (i + 1),
            true)
    | .positional => (c.report .invalidFlag ("'" ++ shown ++ "' is not a flag") (some i), false)

/-- One token of the loop; the index of a token is its index in `argv`. -/
def readToken (token : String) (next : Option String) (i : Nat) (c : Compiling F) :
    Compiling F × Bool :=
  match Lib.Text.stripPrefix "--" token with
  | some long =>
    let (name, inline) :=
      match Lib.Text.splitOnce "=" long with
      | some (name, value) => (name, some value)
      | none => (long, none)
    readNamed fmt (op.byLong name) ("--" ++ name) inline next i c
  | none =>
    match (Lib.Text.stripPrefix "-" token).filter fun short => short.utf8ByteSize = 1 with
    | some short =>
      let ch := short.toList.headD '?'
      readNamed fmt (op.byShort ch) ("-" ++ String.singleton ch) none next i c
    | none => (c.push [(i, token)], false)

/-- The loop over the tokens; `skip` is set when the token before has consumed this one. -/
def readTokens : List String → Nat → Bool → Compiling F → Compiling F
  | [], _, _, c => c
  | _ :: rest, i, true, c => readTokens rest (i + 1) false c
  | token :: rest, i, false, c =>
    if token = "--" then c.push ((rest.zipIdx (i + 1)).map fun (token, j) => (j, token))
    else
      let (c, skip) := readToken fmt op token rest.head? i c
      readTokens rest (i + 1) skip c

def reportExcess (c : Compiling F) : Compiling F :=
  match c.positionals[op.positionalSpecs.length]? with
  | some (i, token) =>
    c.report .tooManyPositionals ("Unexpected positional argument '" ++ token ++ "'") (some i)
  | none => c

def assignPositionals : List ArgSpec → List (Nat × String) → Compiling F → Compiling F
  | [], _, c => c
  | arg :: args, [], c =>
    assignPositionals args []
      (if arg.optional then c
      else c.report .missingRequired "Missing required positional argument" none)
  | arg :: args, (i, token) :: rest, c =>
    assignPositionals args rest
      (c.setParsed fmt arg token ("Invalid value '" ++ token ++ "' for positional") i)

/-- The diagnostics of an argument that has been given `count` times. -/
def validateArg (arg : ArgSpec) (count : Nat) : List Diagnostic :=
  (if !arg.optional && count = 0 then
    [⟨.missingRequired, "Missing required argument '" ++ displayArg arg ++ "'", none⟩] else []) ++
  if !arg.repeatable && 1 < count then
    [⟨.nonRepeatable, "Argument '" ++ displayArg arg ++ "' is not repeatable", none⟩] else []

def validateArgs (c : Compiling F) : Compiling F :=
  { c with
    diagnostics := c.diagnostics ++ op.args.flatMap fun arg =>
      validateArg arg ((c.occurrences.lookup arg.id).getD 0) }

/-- The value of an argument that the command line leaves out. -/
def defaultArg (arg : ArgSpec) : Option (TypedValue F) :=
  arg.default.bind fun default => parseValue fmt arg.valueType default

def applyDefault (args : Table String (TypedValue F)) (arg : ArgSpec) :
    Table String (TypedValue F) :=
  if arg.id ∈ args then args
  else
    match defaultArg fmt arg with
    | some value => AList.insert arg.id value args
    | none => args

def compileArgs (argv : List String) (offset : Nat) : Compiling F :=
  let c := readTokens fmt op argv offset false .empty
  let c := assignPositionals fmt op.positionalSpecs c.positionals (reportExcess op c)
  let c := validateArgs op c
  { c with args := op.args.foldl (applyDefault fmt) c.args }

/-! ## JSON -/

/-- The fields are written in the order of the argument ids. -/
def toJsonInput (args : Table String (TypedValue F)) : Json :=
  .object ((args.entries.insertionSort fun a b => a.1 ≤ b.1).map fun e =>
    (e.1, TypedValue.toJsonValue fmt e.2))

def replaceUnderscores (s : String) : String :=
  String.ofList (s.toList.map fun c => if c = '_' then '-' else c)

/-- The first argument that the key names: by id or name, with hyphens for underscores, or
by its short letter. -/
def OperationSpec.findArg (key : String) : Option ArgSpec :=
  let normalizedKey := replaceUnderscores key
  let short := if key.utf8ByteSize = 1 then key.toList.head? else none
  op.args.find? fun arg =>
    arg.id = key || arg.name = key || arg.id = normalizedKey || arg.name = normalizedKey ||
      (short.isSome && arg.short = short)

def unknownArgument (path : List String) (key : String) : RoutingDiagnostic :=
  ⟨.unknownFlag, "Unknown argument: '" ++ key ++ "'",
    some ⟨some path, op.args.map (·.id), none, some key⟩⟩

def missingArgument (path : List String) (arg : ArgSpec) : RoutingDiagnostic :=
  ⟨.missingRequiredArg, "Missing required argument: '" ++ arg.name ++ "'",
    some ⟨some path, [], some (arg.valueType.debug fmt), none⟩⟩

/-- The loop over the fields of the input. -/
def readFields (path : List String) :
    List (String × Json) → Table String (TypedValue F) → Table String Nat →
      Except RoutingDiagnostic (Table String (TypedValue F) × Table String Nat)
  | [], args, occurrences => .ok (args, occurrences)
  | (key, value) :: rest, args, occurrences =>
    match op.findArg key with
    | none => .error (unknownArgument op path key)
    | some arg =>
      match TypedValue.fromJson fmt value arg with
      | .error e => .error e
      | .ok typed =>
        readFields path rest (AList.insert arg.id typed args) (AList.insert arg.id 1 occurrences)

/-- What an argument that the input leaves out is given. -/
def absentArg (path : List String) (arg : ArgSpec) :
    Except RoutingDiagnostic (Option (TypedValue F)) :=
  match arg.default with
  | some default => (typedValueFromDefault fmt arg default).map some
  | none => if arg.optional then .ok none else .error (missingArgument fmt path arg)

/-- The loop over the arguments of the operation. -/
def fillArgs (path : List String) :
    List ArgSpec → Table String (TypedValue F) →
      Except RoutingDiagnostic (Table String (TypedValue F))
  | [], args => .ok args
  | arg :: rest, args =>
    if arg.id ∈ args then fillArgs path rest args
    else
      match absentArg fmt path arg with
      | .error e => .error e
      | .ok none => fillArgs path rest args
      | .ok (some typed) => fillArgs path rest (AList.insert arg.id typed args)

def CommandSpec.resolve (spec : CommandSpec) (namespace_ operation : String) :
    Except RoutingDiagnostic (OperationSpec × List String) :=
  if namespace_ = "" then
    match spec.rootOperations.lookup operation with
    | some op => .ok (op, [operation])
    | none =>
      .error ⟨.unknownOperation, "Unknown root operation '" ++ operation ++ "'",
        some ⟨none, spec.rootOperations.entries.map (·.1), none, some operation⟩⟩
  else
    match spec.namespaces.lookup namespace_ with
    | none =>
      .error ⟨.unknownNamespace, "Unknown namespace: '" ++ namespace_ ++ "'",
        some ⟨none, spec.namespaces.entries.map (·.1), none, some namespace_⟩⟩
    | some operations =>
      match operations.lookup operation with
      | some op => .ok (op, [namespace_, operation])
      | none =>
        .error ⟨.unknownOperation,
          "Unknown operation '" ++ operation ++ "' in namespace '" ++ namespace_ ++ "'",
          some ⟨some [namespace_], operations.entries.map (·.1), none, some operation⟩⟩

def Invocation.fromJson (input : Json) (namespace_ operation : String) (spec : CommandSpec) :
    Except RoutingDiagnostic (Invocation F) :=
  match spec.resolve namespace_ operation with
  | .error e => .error e
  | .ok (op, path) =>
    match input.asObject with
    | none =>
      .error ⟨.invalidArgType, "Expected JSON object for invocation arguments",
        some ⟨some path, [], some "object", some (fmt.printJson input)⟩⟩
    | some object =>
      match readFields fmt op path object ∅ ∅ with
      | .error e => .error e
      | .ok (args, occurrences) =>
        match fillArgs fmt path op.args args with
        | .error e => .error e
        | .ok args => .ok ⟨(namespace_, operation), args, occurrences⟩

end

end Exosuit.Command
