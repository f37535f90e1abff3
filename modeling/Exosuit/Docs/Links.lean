import Exosuit.Lib.Directory
import Exosuit.Lib.Edits
import Mathlib.Data.List.Sort

/-!
# Links in documents

Markdown files hold links `(exo:…)` to proposals, context files and specifications. Fixing them
plans byte ranges for every gathered file first and then rewrites the files one after another.
-/

namespace Exosuit.Docs

open Lib
open Lib.Directory (Tree Loc relative)
open Lib.Path (Name components up significant separator)
open Lib.Edits (Edit)

abbrev Str := List Char

/-! ## Paths -/

def isAbsolute (path : Str) : Bool := path.head? == some '/'

/-- `Path::join`: an absolute path takes the place of the base. -/
def joinPath (base path : Str) : Str :=
  if isAbsolute path then path
  else if base = [] ∨ base.getLast? = some '/' then base ++ path
  else base ++ '/' :: path

def fileName (path : Str) : Option Name := (components path).getLast?.filter (· ≠ up)

/-- A file name at its last dot; a dot at the beginning does not count. -/
def stemAndExtension (name : Name) : Name × Option Str :=
  let before := (name.reverse.dropWhile (· ≠ '.')).tail.reverse
  if before = [] then (name, none) else (before, some (name.reverse.takeWhile (· ≠ '.')).reverse)

def extension (path : Str) : Option Str := (fileName path).bind fun name => (stemAndExtension name).2

/-- `PathBuf::set_extension`: what stands behind the stem of the file name goes. -/
def setExtension (path ext : Str) : Str :=
  match (Text.pieces separator 0 path).reverse.dropWhile (fun name => !significant name) with
  | [] => path
  | name :: front =>
    if name = up then path
    else Path.join (((stemAndExtension name).1 ++ '.' :: ext) :: front).reverse

def dropComponents : Nat → List Name → List Name
  | 0, names => names
  | _ + 1, [] => []
  | n + 1, name :: names =>
    if significant name then dropComponents n names else dropComponents (n + 1) names

def startsWith (path base : Str) : Bool :=
  isAbsolute path == isAbsolute base && (components base).isPrefixOf (components path)

/-- `Path::strip_prefix`: the rest keeps its spelling, without what means nothing at its ends. -/
def stripPrefix (base path : Str) : Option Str :=
  if startsWith path base then
    let rest := dropComponents (components base).length (Text.pieces separator 0 path)
    let idle := fun name => !significant name
    some (Path.join ((rest.dropWhile idle).reverse.dropWhile idle).reverse)
  else none

def slashes (path : Str) : Str := path.map fun c => if c = '\\' then '/' else c

def mdExtension : Str := ['m', 'd']

def isMarkdown (path : Str) : Bool :=
  (extension path).any fun ext => ext.map Char.toLower == mdExtension

def walkDir (tree : Tree) (path : Str) : List Str :=
  match tree.locate path with
  | none => []
  | some loc => ((tree.dirs ++ tree.files).filter (loc.isPrefixOf ·)).map fun entry =>
    if entry = loc then path else joinPath path (Path.join (entry.drop loc.length))

/-! ## The workspace -/

inductive StatePolicy
  | repo
  | shadow
  | sidecar
deriving DecidableEq

structure Project where
  policy : StatePolicy
  sidecarProjectionDir : Option Str

structure Workspace where
  root : Str
  absolute : isAbsolute root = true
  tree : Tree
  project : Option Project

/-- The text of a file, or the bytes of one that is not UTF-8. -/
inductive Contents
  | text (value : Str)
  | bytes (value : List UInt8)
deriving DecidableEq

abbrev Files := Loc → Contents

def Workspace.read (ws : Workspace) (files : Files) (path : Str) : Option Str :=
  match ws.tree.locate path with
  | none => none
  | some loc =>
    match files loc with
    | .text value => some value
    | .bytes _ => none

/-! ## The links of a text -/

def linkMark : Str := ['(', 'e', 'x', 'o', ':']

def inLink (c : Char) : Bool := c != ')' && !Text.isWhitespace c

/-- The match of `\(exo:(//[^)\s]+|[^)\s]+)\)` at the beginning of a text. -/
def linkAt (text : Str) : Option Str :=
  let rest := (text.drop linkMark.length).takeWhile inLink
  let after := (text.drop linkMark.length).dropWhile inLink
  if linkMark.isPrefixOf text ∧ rest ≠ [] ∧ after.head? = some ')' then some rest else none

def linkText (rest : Str) : Str := linkMark ++ rest ++ [')']

inductive Piece
  | char (c : Char)
  | link (rest : Str)
deriving DecidableEq

/-- The matches of a text from left to right; `skip` characters of a match are still to come. -/
def scanFrom : Nat → Str → List Piece
  | _, [] => []
  | skip + 1, _ :: text => scanFrom skip text
  | 0, c :: text =>
    match linkAt (c :: text) with
    | some rest => .link rest :: scanFrom (rest.length + linkMark.length) text
    | none => .char c :: scanFrom 0 text

def scan (text : Str) : List Piece := scanFrom 0 text

def byteLength (text : Str) : Nat := Edits.size Char.utf8Size text

structure Capture where
  start : Nat
  stop : Nat
  rest : Str

def capturesFrom : Nat → List Piece → List Capture
  | _, [] => []
  | n, .char c :: pieces => capturesFrom (n + c.utf8Size) pieces
  | n, .link rest :: pieces =>
    ⟨n, n + byteLength (linkText rest), rest⟩ :: capturesFrom (n + byteLength (linkText rest)) pieces

def captures (text : Str) : List Capture := capturesFrom 0 (scan text)

/-! ## What a link names -/

def splitFragment (uri : Str) : Str × Option Str :=
  match Text.splitOnceList ['#'] uri with
  | some (left, fragment) => (left, some fragment)
  | none => (uri, none)

def specPath (dir rest : Str) : Str :=
  let rel := joinPath dir rest
  if extension rel = none then setExtension rel mdExtension else rel

def specDirs : List Str := ["docs/specs".toList, "docs/agent-context/specs".toList]

def resolveSpec (ws : Workspace) (rest : Str) : Except String Str :=
  match (specDirs.map fun dir => joinPath ws.root (specPath dir rest)).find? ws.tree.isFile with
  | some abs => .ok abs
  | none => .error "spec_not_found"

def contextProjectionDir (ws : Workspace) : Option Str :=
  match ws.project with
  | some ⟨.shadow, _⟩ => none
  | some ⟨.sidecar, dir⟩ => dir
  | some ⟨.repo, _⟩ | none => some (joinPath ws.root "docs/agent-context".toList)

def contextPathString (ws : Workspace) (path : Str) : Str :=
  slashes ((stripPrefix ws.root path).getD path)

def contextFiles : List (Str × Str) :=
  [("plan".toList, "epochs.sql".toList), ("tasks".toList, "tasks.sql".toList),
    ("ideas".toList, "ideas.sql".toList), ("axioms".toList, "axioms.sql".toList)]

/-- The paths of `context_path_info`. -/
def contextPaths (ws : Workspace) : List (Str × Str) :=
  match contextProjectionDir ws with
  | none => []
  | some dir => contextFiles.map fun file => (file.1, contextPathString ws (joinPath dir file.2))

def resolveContext (ws : Workspace) (rest : Str) : Except String Str :=
  match (contextPaths ws).lookup rest with
  | none => .error "context_unknown"
  | some path =>
    let abs := joinPath ws.root path
    if ws.tree.exists_ abs = false then .error "context_not_found"
    else if startsWith abs ws.root = false then .error "context_external_projection"
    else .ok abs

def parseU32 (text : Str) : Option Nat :=
  (Text.parseUsize (String.ofList text)).filter (· < 2 ^ 32)

/-- The number with four digits at least, and a dash. -/
def rfcPrefix (n : Nat) : Str :=
  List.replicate (4 - n.repr.toList.length) '0' ++ n.repr.toList ++ ['-']

def isRfc (tree : Tree) (n : Nat) (path : Str) : Bool :=
  tree.isFile path && extension path == some mdExtension &&
    (fileName path).any ((rfcPrefix n).isPrefixOf ·)

def resolveRfc (ws : Workspace) (rest : Str) : Except String Str :=
  match parseU32 rest with
  | none => .error "rfc_invalid"
  | some n =>
    let rfcsRoot := joinPath ws.root "docs/rfcs".toList
    if ws.tree.isDir rfcsRoot = false then .error "rfc_not_found"
    else
      match (walkDir ws.tree rfcsRoot).filter (isRfc ws.tree n) with
      | [] => .error "rfc_not_found"
      | [path] => .ok path
      | _ => .error "rfc_ambiguous"

def rfcKind : Str := ['r', 'f', 'c']

def contextKind : Str := ['c', 'o', 'n', 't', 'e', 'x', 't']

def specKind : Str := ['s', 'p', 'e', 'c']

def resolveExoUri (ws : Workspace) (uri : Str) : Except String Str :=
  match Text.splitOnceList ['/'] uri with
  | none => .error "invalid_uri"
  | some (kind, rest) =>
    if kind = rfcKind then resolveRfc ws rest
    else if kind = contextKind then resolveContext ws rest
    else if kind = specKind then resolveSpec ws rest
    else .error "unknown_kind"

/-! ## Planning -/

structure Diagnostic where
  severity : String
  code : String
  message : String
  path : Str
  link : Str

structure Change where
  path : Str
  replacements : List (Edit Char)
  beforeBlake3 : Str
  afterBlake3 : Str

/-- The crates that the program calls: paths relative to a directory, hashes of texts, and the
ticket of a plan. -/
structure Crates where
  diffPaths : List Name → List Name → Option (List Name)
  blake3Hex : Str → Str
  blake3Ticket : List Change → Str

inductive Outcome
  | placeholder
  | rewritten (edit : Edit Char)
  | unresolved (diagnostic : Diagnostic)

/-- The target of a link, without the slashes that may stand before it. -/
def linkUri (rest : Str) : Str := if ['/', '/'].isPrefixOf rest then rest.drop 2 else rest

def placeholder : Str := ['.', '.', '.']

def rewriteText (names : List Name) (fragment : Option Str) : Str :=
  '(' :: (slashes (Path.join names) ++ (fragment.elim [] ('#' :: ·))) ++ [')']

structure Targets where
  paths : List Str
  globs : List Str

structure DocsLinksInput where
  targets : Targets
  strict : Bool

section

variable (ws : Workspace) (crates : Crates)

def pathDisplay (path : Str) : Str := slashes ((stripPrefix ws.root path).getD path)

def planLink (strict : Bool) (abs : Str) (found : Capture) : Outcome :=
  let uri := linkUri found.rest
  let (uriPath, fragment) := splitFragment uri
  let link := ['e', 'x', 'o', ':'] ++ uri
  if uriPath = placeholder then .placeholder
  else
    match resolveExoUri ws uriPath with
    | .ok targetAbs =>
      match crates.diffPaths (components targetAbs) (components abs).dropLast with
      | some names => .rewritten ⟨found.start, found.stop, rewriteText names fragment⟩
      | none => .unresolved
        ⟨"error", "pathdiff_failed", "Failed to compute relative path", pathDisplay ws abs, link⟩
    | .error code => .unresolved
      ⟨if strict then "error" else "warning", code, "Unresolved exo link", pathDisplay ws abs, link⟩

def Outcome.edit? : Outcome → Option (Edit Char)
  | .rewritten edit => some edit
  | _ => none

def Outcome.diagnostic? : Outcome → Option Diagnostic
  | .unresolved diagnostic => some diagnostic
  | _ => none

def outcomes (strict : Bool) (abs text : Str) : List Outcome :=
  (captures text).map (planLink ws crates strict abs)

def replacements (abs text : Str) : List (Edit Char) :=
  ((outcomes ws crates true abs text).filterMap Outcome.edit?).insertionSort (·.start ≤ ·.start)

def markdownFiles (path : Str) : List Str :=
  (walkDir ws.tree path).filter fun entry => ws.tree.isFile entry && isMarkdown entry

/-- `BTreeMap::insert`. -/
def insertKey (key path : Str) : List (Str × Str) → List (Str × Str)
  | [] => [(key, path)]
  | entry :: files =>
    if key = entry.1 then (key, path) :: files
    else if key < entry.1 then (key, path) :: entry :: files
    else entry :: insertKey key path files

def insertFiles (files : List (Str × Str)) (paths : List Str) : List (Str × Str) :=
  paths.foldl (fun files path => insertKey (pathDisplay ws path) path files) files

def readme : Str := "README.md".toList

def docsGlob : Str := "docs/**/*.md".toList

def gatherPath (files : List (Str × Str)) (path : Str) : List (Str × Str) :=
  let abs := joinPath ws.root path
  if ws.tree.isDir abs then insertFiles ws files (markdownFiles ws abs)
  else if ws.tree.isFile abs && isMarkdown abs then insertFiles ws files [abs]
  else files

def gatherGlob (files : List (Str × Str)) (glob : Str) : List (Str × Str) :=
  if glob = readme then
    let abs := joinPath ws.root readme
    if ws.tree.isFile abs then insertKey readme abs files else files
  else if glob = docsGlob then
    let abs := joinPath ws.root "docs".toList
    if ws.tree.isDir abs then insertFiles ws files (markdownFiles ws abs) else files
  else files

/-- The files of the targets, each under the text of its path. -/
def gatherFiles (targets : Targets) : List Str :=
  if targets.paths ≠ [] then (targets.paths.foldl (gatherPath ws) []).map Prod.snd
  else
    let globs := if targets.globs = [] then [docsGlob, readme] else targets.globs
    (globs.foldl (gatherGlob ws) []).map Prod.snd

structure DocsLinksResult where
  ok : Bool
  filesScanned : Nat
  exoLinksFound : Nat
  exoLinksRewritten : Nat
  errors : Nat
  warnings : Nat
  diagnostics : List Diagnostic
  changes : List Change
  planTicket : Str

def fileDiagnostics (strict : Bool) (files : Files) (abs : Str) : List Diagnostic :=
  match ws.read files abs with
  | none => [⟨"error", "read_failed", "Failed to read file", pathDisplay ws abs, []⟩]
  | some text => (outcomes ws crates strict abs text).filterMap Outcome.diagnostic?

def plannedFiles (input : DocsLinksInput) (files : Files) : List (Str × List (Edit Char)) :=
  (gatherFiles ws input.targets).filterMap fun abs =>
    (ws.read files abs).map fun text => (abs, replacements ws crates abs text)

def fileChange (files : Files) (abs : Str) : Option Change :=
  (ws.read files abs).bind fun text =>
    let edits := replacements ws crates abs text
    if edits = [] then none
    else
      let after := (Edits.applyAll Char.utf8Size edits text).getD text
      some ⟨pathDisplay ws abs, edits, crates.blake3Hex text, crates.blake3Hex after⟩

/-- The result of a plan; `run_check` and `run_fix` are fine when nothing is left to do. -/
def planResult (input : DocsLinksInput) (files : Files) : DocsLinksResult :=
  let gathered := gatherFiles ws input.targets
  let diagnostics := gathered.flatMap (fileDiagnostics ws crates input.strict files)
  let changes := gathered.filterMap (fileChange ws crates files)
  { ok := diagnostics.isEmpty && changes.isEmpty
    filesScanned := gathered.length
    exoLinksFound := (gathered.flatMap fun abs => captures ((ws.read files abs).getD [])).length
    exoLinksRewritten := (changes.flatMap Change.replacements).length
    errors := (diagnostics.filter fun d => d.severity == "error").length
    warnings := (diagnostics.filter fun d => d.severity == "warning").length
    diagnostics := diagnostics
    changes := changes
    planTicket := crates.blake3Ticket changes }

/-! ## Fixing -/

/-- A planned file is read again and edited; a range that does not fit ends the run. -/
def editFile (files : Files) (planned : Str × List (Edit Char)) : Option Files :=
  if planned.2 = [] then some files
  else
    match ws.tree.locate planned.1 with
    | none => none
    | some loc =>
      match files loc with
      | .bytes _ => none
      | .text value =>
        (Edits.applyAll Char.utf8Size planned.2 value).map fun updated =>
          Function.update files loc (.text updated)

def runFix (input : DocsLinksInput) (files : Files) : Option (Files × DocsLinksResult) :=
  ((plannedFiles ws crates input files).foldlM (editFile ws) files).map fun files =>
    (files, planResult ws crates input files)

end

end Exosuit.Docs
