import Exosuit.Lib.Program
import Exosuit.Lib.Text
import Exosuit.Lib.Toml

/-!
# Sidecar registries

A registry is fetched from a profile and proposes a key, a root and a remote for a repository. The
document is checked twice, as it is parsed and as it is typed, and the proposal once more after the
repository's own names are put into its template.
-/

namespace Exosuit.Sidecar

open Lib

def contains (s needle : String) : Bool := (Text.splitOnceList needle.toList s.toList).isSome

def stripSuffix (suffix s : String) : Option String :=
  if suffix.toList.isSuffixOf s.toList then
    some (String.ofList (s.toList.take (s.toList.length - suffix.toList.length)))
  else none

/-! ## Remotes -/

structure ParsedGithubRemote where
  host : String
  owner : String
  repo : String
  original : String
  projectKey : String
deriving DecidableEq

inductive GithubRemoteParseError
  | unsupportedScheme
  | notGithubRemote
  | malformedRemote
deriving DecidableEq

def GithubRemoteParseError.display : GithubRemoteParseError → String
  | .unsupportedScheme => "unsupported Git remote scheme"
  | .notGithubRemote => "remote is not hosted on github.com"
  | .malformedRemote => "malformed GitHub remote"

def splitRemote (separator remote : String) : Except GithubRemoteParseError (String × String) :=
  match Text.splitOnce separator remote with
  | some (host, path) => if host = "" ∨ path = "" then .error .malformedRemote else .ok (host, path)
  | none => .error .malformedRemote

def splitUrlRemote (remote : String) : Except GithubRemoteParseError (String × String) := splitRemote "/" remote

def splitScpRemote (remote : String) : Except GithubRemoteParseError (String × String) := splitRemote ":" remote

def splitOwnerRepo (path : String) : Except GithubRemoteParseError (String × String) :=
  match Text.split "/" path with
  | [owner, repo] =>
    if owner = "" ∨ repo = "" then .error .malformedRemote
    else
      let repo := (stripSuffix ".git" repo).getD repo
      if repo = "" ∨ repo = ".git" ∨ contains owner ":" ∨ contains repo ":" then .error .malformedRemote
      else .ok (owner, repo)
  | _ => .error .malformedRemote

def parseGithubRemote (remote : String) : Except GithubRemoteParseError ParsedGithubRemote :=
  if Text.trim remote ≠ remote then .error .malformedRemote
  else do
    let (host, path) ←
      match Text.stripPrefix "https://" remote with
      | some rest => splitUrlRemote rest
      | none =>
        match Text.stripPrefix "ssh://git@" remote with
        | some rest => splitUrlRemote rest
        | none =>
          match Text.stripPrefix "git@" remote with
          | some rest => splitScpRemote rest
          | none => if contains remote "://" then .error .unsupportedScheme else .error .malformedRemote
    let host := Text.toAsciiLowercase host
    if host ≠ "github.com" then throw .notGithubRemote
    let (owner, repo) ← splitOwnerRepo path
    return ⟨host, owner, repo, remote, host ++ "/" ++ owner ++ "/" ++ repo⟩

/-! ## Documents and resolutions -/

inductive SidecarRegistryMatchKind
  | exactProject
  | ownerTemplate
  | defaults
  | none
  | error
deriving DecidableEq

inductive SidecarDiscoveryConfidence
  | high
  | medium
  | low
  | none
deriving DecidableEq

inductive SidecarRegistryFailureClassification
  | registryParseError
  | unsafeRegistryValue
  | noMatchingEntry
deriving DecidableEq

structure SidecarRegistryProposal where
  key : String
  root : Option String
  remote : Option String
  autoPush : Option String
  wouldMutateConfig : Bool
  requiresRemoteAcceptance : Bool
deriving DecidableEq

structure SidecarRegistryFailure where
  classification : SidecarRegistryFailureClassification
  message : String
deriving DecidableEq

structure SidecarRegistryResolution where
  ok : Bool
  matchKind : SidecarRegistryMatchKind
  confidence : SidecarDiscoveryConfidence
  proposal : Option SidecarRegistryProposal
  failure : Option SidecarRegistryFailure
deriving DecidableEq

structure RegistryDefaults where
  root : Option String
  remoteTemplate : Option String
  autoPush : Option String

def RegistryDefaults.hasProposalFields (defaults : RegistryDefaults) : Bool :=
  defaults.root.isSome || defaults.remoteTemplate.isSome || defaults.autoPush.isSome

structure RegistryProject where
  key : Option String
  root : Option String
  remote : Option String
  autoPush : Option String

structure RegistryOwner where
  root : Option String
  remoteTemplate : Option String
  autoPush : Option String

def RegistryOwner.hasProposalFields (owner : RegistryOwner) : Bool :=
  owner.root.isSome || owner.remoteTemplate.isSome || owner.autoPush.isSome

/-- Both maps are in the order of their keys. -/
structure RegistryDocument where
  version : Int
  defaults : RegistryDefaults
  projects : List (String × RegistryProject)
  owners : List (String × RegistryOwner)
  projects_sorted : (projects.map Prod.fst).Pairwise (· < ·)
  owners_sorted : (owners.map Prod.fst).Pairwise (· < ·)

/-- What the TOML library makes of a text, and how a text is shown in a message. -/
structure Library where
  parseValue : String → Except String Toml.Value
  parseDocument : String → Except String RegistryDocument
  debug : String → String

namespace SidecarRegistryFailure

def intoResolution (failure : SidecarRegistryFailure) : SidecarRegistryResolution :=
  ⟨false, .error, .none, none, some failure⟩

end SidecarRegistryFailure

def successResolution (matchKind : SidecarRegistryMatchKind) (confidence : SidecarDiscoveryConfidence)
    (proposal : SidecarRegistryProposal) : SidecarRegistryResolution :=
  ⟨true, matchKind, confidence, some proposal, none⟩

def failureResolution (classification : SidecarRegistryFailureClassification) (message : String) :
    SidecarRegistryResolution :=
  ⟨false, .error, .none, none, some ⟨classification, message⟩⟩

def noMatchingEntryResolution : SidecarRegistryResolution :=
  ⟨false, .none, .none, none, some ⟨.noMatchingEntry, "Registry did not produce a matching sidecar entry"⟩⟩

def unsafeRegistryValue {α : Type} (message : String) : Except SidecarRegistryFailure α :=
  .error ⟨.unsafeRegistryValue, message⟩

def eqIgnoreAsciiCase (s t : String) : Bool := Text.toAsciiLowercase s = Text.toAsciiLowercase t

def findCaseInsensitive {α : Type} (map : List (String × α)) (key : String) : Option α :=
  (map.find? fun entry => eqIgnoreAsciiCase entry.1 key).map Prod.snd

/-! ## Checks -/

section

variable (debug : String → String)

/-- `char::is_control` -/
def isControl (c : Char) : Bool := c.toNat < 0x20 || (0x7F ≤ c.toNat && c.toNat ≤ 0x9F)

def shellFragments : List String := [";", "&&", "||", "|", "$(", "\x60", "<", ">"]

def validateNoShellFragments (value context : String) : Except SidecarRegistryFailure Unit :=
  if Text.trim value ≠ value ∨ value.toList.any isControl then
    unsafeRegistryValue
      ("Unsafe whitespace or control character in sidecar registry " ++ context ++ ": " ++ debug value)
  else
    match shellFragments.find? (contains value) with
    | some needle =>
      unsafeRegistryValue
        ("Unsafe shell fragment " ++ debug needle ++ " in sidecar registry " ++ context ++ ": " ++ debug value)
    | none => .ok ()

def validateRegistryMapKey (kind value : String) : Except SidecarRegistryFailure Unit := do
  validateNoShellFragments debug value kind
  if Text.trim value ≠ value ∨ value = "" then
    unsafeRegistryValue ("Invalid sidecar registry " ++ kind ++ " key " ++ debug value)

def isKeyChar (c : Char) : Bool := c.isAlphanum || c == '-' || c == '_' || c == '.'

def validateSidecarKey (value : String) : Except SidecarRegistryFailure Unit := do
  validateNoShellFragments debug value "sidecar key"
  if value = "" ∨ value = "." ∨ value = ".." ∨ Text.startsWith value "." ∨ !value.toList.all isKeyChar then
    unsafeRegistryValue
      ("Invalid sidecar key " ++ debug value ++ "; use letters, numbers, dots, underscores, or dashes")

def validateRoot (value : String) : Except SidecarRegistryFailure Unit := do
  validateNoShellFragments debug value "sidecar root"
  if value = "~" ∨ Text.startsWith value "~/" ∨ Text.startsWith value "/" then return ()
  unsafeRegistryValue ("Invalid sidecar root " ++ debug value ++ "; use an absolute path or a ~/ path")

def validateRemote (value : String) : Except SidecarRegistryFailure Unit := do
  validateNoShellFragments debug value "remote"
  if !(Text.startsWith value "https://" || Text.startsWith value "git@") then
    unsafeRegistryValue ("Unsupported sidecar remote " ++ debug value ++
      "; use https://github.com/... or git@github.com:...")
  match parseGithubRemote value with
  | .ok _ => return ()
  | .error e =>
    unsafeRegistryValue ("Invalid sidecar remote " ++ debug value ++ "; expected a GitHub remote: " ++ e.display)

/-- The loop over a template, in a variable that is being read or outside of one. -/
def expandFrom (template : String) (valueOf : String → Option String) :
    Option (List Char) → List Char → Except SidecarRegistryFailure (List Char)
  | none, [] => .ok []
  | some _, [] => unsafeRegistryValue ("Malformed remote template " ++ debug template)
  | none, c :: rest =>
    if c = '\x7b' then expandFrom template valueOf (some []) rest
    else if c = '\x7d' then unsafeRegistryValue ("Malformed remote template " ++ debug template)
    else (expandFrom template valueOf none rest).map (c :: ·)
  | some variable_, c :: rest =>
    if c = '\x7d' then
      match valueOf (String.ofList variable_.reverse) with
      | some value => (expandFrom template valueOf none rest).map (value.toList ++ ·)
      | none =>
        unsafeRegistryValue
          ("Unknown remote template variable \x7b" ++ String.ofList variable_.reverse ++ "\x7d")
    else expandFrom template valueOf (some (c :: variable_)) rest

def templateVariables : List String := ["host", "owner", "repo", "key"]

def validateTemplateVariables (template : String) : Except SidecarRegistryFailure Unit :=
  (expandFrom debug template (fun name => if name ∈ templateVariables then some "" else none) none
    template.toList).map fun _ => ()

def validateRemoteTemplate (value : String) : Except SidecarRegistryFailure Unit := do
  validateNoShellFragments debug value "remote template"
  validateTemplateVariables debug value

def normalizeAutoPush (value : String) : Except SidecarRegistryFailure String :=
  if value ∈ ["never", "if_remote", "always"] then .ok value
  else unsafeRegistryValue ("Invalid auto_push value " ++ debug value ++ "; expected never, if_remote, or always")

def checkOption {α : Type} (check : α → Except SidecarRegistryFailure Unit) :
    Option α → Except SidecarRegistryFailure Unit
  | some a => check a
  | none => .ok ()

def checkAutoPush (value : String) : Except SidecarRegistryFailure Unit :=
  (normalizeAutoPush debug value).map fun _ => ()

def validateValueTableKeys (value : Toml.Value) (allowed : List String) (context : String) :
    Except SidecarRegistryFailure Unit :=
  match value with
  | .inlineTable fields =>
    match fields.find? fun field => field.1 ∉ allowed with
    | some field =>
      unsafeRegistryValue ("Unknown field " ++ debug field.1 ++ " in sidecar registry " ++ context)
    | none => .ok ()
  | _ => .ok ()

/-- `Value::get` -/
def field (value : Toml.Value) (key : String) : Option Toml.Value :=
  match value with
  | .inlineTable fields => fields.lookup key
  | _ => none

def validateEntries (kind : String) (allowed : List String) (value : Option Toml.Value) :
    Except SidecarRegistryFailure Unit :=
  match value with
  | some (.inlineTable fields) =>
    fields.forM fun (key, entry) => do
      validateRegistryMapKey debug kind key
      validateValueTableKeys debug entry allowed kind
  | _ => .ok ()

def validateRegistryShape (value : Toml.Value) : Except SidecarRegistryFailure Unit := do
  validateValueTableKeys debug value ["version", "defaults", "projects", "owners"] "registry"
  checkOption (fun defaults =>
    validateValueTableKeys debug defaults ["root", "remote_template", "auto_push"] "defaults") (field value "defaults")
  validateEntries debug "project" ["key", "root", "remote", "auto_push"] (field value "projects")
  validateEntries debug "owner" ["root", "remote_template", "auto_push"] (field value "owners")

def validateDefaultsSafety (defaults : RegistryDefaults) : Except SidecarRegistryFailure Unit := do
  checkOption (validateRoot debug) defaults.root
  checkOption (validateRemoteTemplate debug) defaults.remoteTemplate
  checkOption (checkAutoPush debug) defaults.autoPush

def validateDocumentSafety (document : RegistryDocument) : Except SidecarRegistryFailure Unit := do
  validateDefaultsSafety debug document.defaults
  document.projects.forM fun (key, project) => do
    validateRegistryMapKey debug "project" key
    checkOption (validateSidecarKey debug) project.key
    checkOption (validateRoot debug) project.root
    checkOption (validateRemote debug) project.remote
    checkOption (checkAutoPush debug) project.autoPush
  document.owners.forM fun (key, owner) => do
    validateRegistryMapKey debug "owner" key
    checkOption (validateRoot debug) owner.root
    checkOption (validateRemoteTemplate debug) owner.remoteTemplate
    checkOption (checkAutoPush debug) owner.autoPush

/-! ## Proposals -/

def templateValue (repository : ParsedGithubRemote) (key : String) : String → Option String
  | "host" => some repository.host
  | "owner" => some repository.owner
  | "repo" => some repository.repo
  | "key" => some key
  | _ => none

def expandTemplate (template : String) (repository : ParsedGithubRemote) (key : String) :
    Except SidecarRegistryFailure String :=
  (expandFrom debug template (templateValue repository key) none template.toList).map String.ofList

def expandTemplateOption (template : Option String) (repository : ParsedGithubRemote) (key : String) :
    Except SidecarRegistryFailure (Option String) :=
  match template with
  | some template => (expandTemplate debug template repository key).map some
  | none => .ok none

def normalizeAutoPushOption : Option String → Except SidecarRegistryFailure (Option String)
  | some value => (normalizeAutoPush debug value).map some
  | none => .ok none

def projectProposal (project : RegistryProject) (defaults : RegistryDefaults) (repository : ParsedGithubRemote) :
    Except SidecarRegistryFailure SidecarRegistryProposal := do
  let key := project.key.getD repository.repo
  validateSidecarKey debug key
  let remote ←
    match project.remote with
    | some remote => pure (some remote)
    | none => expandTemplateOption debug defaults.remoteTemplate repository key
  checkOption (validateRemote debug) remote
  let autoPush ← normalizeAutoPushOption debug (project.autoPush.or defaults.autoPush)
  return ⟨key, project.root.or defaults.root, remote, autoPush, true, false⟩

def ownerProposal (owner : RegistryOwner) (defaults : RegistryDefaults) (repository : ParsedGithubRemote) :
    Except SidecarRegistryFailure SidecarRegistryProposal := do
  let key := repository.repo
  validateSidecarKey debug key
  let remote ← expandTemplateOption debug (owner.remoteTemplate.or defaults.remoteTemplate) repository key
  checkOption (validateRemote debug) remote
  let autoPush ← normalizeAutoPushOption debug (owner.autoPush.or defaults.autoPush)
  return ⟨key, owner.root.or defaults.root, remote, autoPush, true, remote.isSome⟩

def defaultsProposal (defaults : RegistryDefaults) (repository : ParsedGithubRemote) :
    Except SidecarRegistryFailure SidecarRegistryProposal := do
  let key := repository.repo
  validateSidecarKey debug key
  let remote ← expandTemplateOption debug defaults.remoteTemplate repository key
  checkOption (validateRemote debug) remote
  let autoPush ← normalizeAutoPushOption debug defaults.autoPush
  return ⟨key, defaults.root, remote, autoPush, true, remote.isSome⟩

end

def resolution (matchKind : SidecarRegistryMatchKind) (confidence : SidecarDiscoveryConfidence) :
    Except SidecarRegistryFailure SidecarRegistryProposal → SidecarRegistryResolution
  | .ok proposal => successResolution matchKind confidence proposal
  | .error failure => failure.intoResolution

/-- What is left of `resolve_sidecar_registry` once the document is checked. -/
def resolveDocument (debug : String → String) (document : RegistryDocument) (repository : ParsedGithubRemote) :
    SidecarRegistryResolution :=
  match findCaseInsensitive document.projects repository.projectKey with
  | some project => resolution .exactProject .high (projectProposal debug project document.defaults repository)
  | none =>
    match (findCaseInsensitive document.owners repository.owner).filter RegistryOwner.hasProposalFields with
    | some owner => resolution .ownerTemplate .medium (ownerProposal debug owner document.defaults repository)
    | none =>
      if document.defaults.hasProposalFields then
        resolution .defaults .low (defaultsProposal debug document.defaults repository)
      else noMatchingEntryResolution

def resolveSidecarRegistry (lib : Library) (registryToml : String) (repository : ParsedGithubRemote) :
    SidecarRegistryResolution :=
  match lib.parseValue registryToml with
  | .error e => failureResolution .registryParseError ("Failed to parse sidecar registry TOML: " ++ e)
  | .ok rawDocument =>
    match validateRegistryShape lib.debug rawDocument with
    | .error failure => failure.intoResolution
    | .ok () =>
      match lib.parseDocument registryToml with
      | .error e => failureResolution .registryParseError ("Failed to parse sidecar registry TOML: " ++ e)
      | .ok document =>
        if document.version ≠ 1 then
          failureResolution .registryParseError
            ("Unsupported sidecar registry version " ++ toString document.version ++ "; expected version 1")
        else
          match validateDocumentSafety lib.debug document with
          | .error failure => failure.intoResolution
          | .ok () => resolveDocument lib.debug document repository

end Exosuit.Sidecar
