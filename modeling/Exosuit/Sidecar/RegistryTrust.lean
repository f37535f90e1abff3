import Mathlib.Data.List.Basic
import Exosuit.Sidecar.Registry

/-!
# What a resolved registry was checked for

Each check is read as the rule it decides. A resolution that succeeds rests on a document all of
whose values meet their rules, and on a proposal that meets them once more.
-/

namespace Exosuit.Sidecar

open Lib

/-! ## Rules for values -/

structure IsClean (value : String) : Prop where
  trimmed : Text.trim value = value
  noControl : value.toList.any isControl = false
  noFragment : ∀ fragment ∈ shellFragments, contains value fragment = false

structure IsMapKey (value : String) : Prop where
  clean : IsClean value
  nonempty : value ≠ ""

structure IsComponent (value : String) : Prop where
  clean : IsClean value
  nonempty : value ≠ ""
  notHidden : Text.startsWith value "." = false
  keyChars : ∀ c ∈ value.toList, isKeyChar c = true

structure IsRoot (value : String) : Prop where
  clean : IsClean value
  anchored : value = "~" ∨ Text.startsWith value "~/" = true ∨ Text.startsWith value "/" = true

structure IsRemote (value : String) : Prop where
  clean : IsClean value
  schemed : Text.startsWith value "https://" = true ∨ Text.startsWith value "git@" = true
  parses : ∃ remote, parseGithubRemote value = .ok remote

def IsPolicy (value : String) : Prop := value ∈ ["never", "if_remote", "always"]

/-! ## Templates -/

/-- A template is made of characters that are no braces and of variables between braces. -/
inductive Piece
  | literal (c : Char) (h : c ≠ '\x7b' ∧ c ≠ '\x7d')
  | variable_ (name : List Char) (h : '\x7d' ∉ name)

namespace Piece

def source : Piece → List Char
  | literal c _ => [c]
  | variable_ name _ => '\x7b' :: name ++ ['\x7d']

def filled (valueOf : String → Option String) : Piece → List Char
  | literal c _ => [c]
  | variable_ name _ => ((valueOf (String.ofList name)).getD "").toList

def Known (valueOf : String → Option String) : Piece → Prop
  | literal _ _ => True
  | variable_ name _ => (valueOf (String.ofList name)).isSome

end Piece

/-- `text` is the template with its variables replaced by their values. -/
def IsExpansion (valueOf : String → Option String) (template text : List Char) : Prop :=
  ∃ pieces : List Piece, template = pieces.flatMap Piece.source ∧
    text = pieces.flatMap (Piece.filled valueOf) ∧ ∀ piece ∈ pieces, piece.Known valueOf

structure IsTemplate (value : String) : Prop where
  clean : IsClean value
  expands : ∃ text,
    IsExpansion (fun name => if name ∈ templateVariables then some "" else none) value.toList text

/-! ## Rules for documents -/

def Every {α : Type} (p : α → Prop) (o : Option α) : Prop := ∀ a, o = some a → p a

def KnownFields (allowed : List String) (value : Toml.Value) : Prop :=
  ∀ fields, value = .inlineTable fields → ∀ entry ∈ fields, entry.1 ∈ allowed

def KnownEntries (allowed : List String) (value : Option Toml.Value) : Prop :=
  ∀ fields, value = some (.inlineTable fields) → ∀ entry ∈ fields, IsMapKey entry.1 ∧ KnownFields allowed entry.2

/-- No table of the document as it was written has a field that is not read. -/
structure WellShaped (value : Toml.Value) : Prop where
  registry : KnownFields ["version", "defaults", "projects", "owners"] value
  defaults : Every (KnownFields ["root", "remote_template", "auto_push"]) (field value "defaults")
  projects : KnownEntries ["key", "root", "remote", "auto_push"] (field value "projects")
  owners : KnownEntries ["root", "remote_template", "auto_push"] (field value "owners")

structure SafeDefaults (defaults : RegistryDefaults) : Prop where
  root : Every IsRoot defaults.root
  remoteTemplate : Every IsTemplate defaults.remoteTemplate
  autoPush : Every IsPolicy defaults.autoPush

structure SafeProject (project : RegistryProject) : Prop where
  key : Every IsComponent project.key
  root : Every IsRoot project.root
  remote : Every IsRemote project.remote
  autoPush : Every IsPolicy project.autoPush

structure SafeOwner (owner : RegistryOwner) : Prop where
  root : Every IsRoot owner.root
  remoteTemplate : Every IsTemplate owner.remoteTemplate
  autoPush : Every IsPolicy owner.autoPush

structure SafeDocument (document : RegistryDocument) : Prop where
  version : document.version = 1
  defaults : SafeDefaults document.defaults
  projects : ∀ entry ∈ document.projects, IsMapKey entry.1 ∧ SafeProject entry.2
  owners : ∀ entry ∈ document.owners, IsMapKey entry.1 ∧ SafeOwner entry.2

/-! ## Rules for proposals -/

def RemoteFrom (explicit template : Option String) (repository : ParsedGithubRemote) (key : String)
    (remote : Option String) : Prop :=
  match explicit, template with
  | some explicit, _ => remote = some explicit
  | none, none => remote = none
  | none, some template => ∃ text, remote = some text ∧
      IsExpansion (templateValue repository key) template.toList text.toList

/-- The first entry, in the order of the keys, whose key is `key` up to ASCII case. -/
def IsFirst {α : Type} (map : List (String × α)) (key : String) (a : α) : Prop :=
  ∃ before name after, map = before ++ (name, a) :: after ∧ eqIgnoreAsciiCase name key = true ∧
    ∀ entry ∈ before, eqIgnoreAsciiCase entry.1 key = false

def NoMatch {α : Type} (map : List (String × α)) (key : String) : Prop :=
  ∀ entry ∈ map, eqIgnoreAsciiCase entry.1 key = false

/-- The proposal is what the most specific entry proposes, and what asks for acceptance. -/
inductive Proposes (document : RegistryDocument) (repository : ParsedGithubRemote)
    (proposal : SidecarRegistryProposal) : SidecarRegistryMatchKind → Prop
  | exactProject (project : RegistryProject) (first : IsFirst document.projects repository.projectKey project)
      (key : proposal.key = project.key.getD repository.repo)
      (root : proposal.root = project.root.or document.defaults.root)
      (remote : RemoteFrom project.remote document.defaults.remoteTemplate repository proposal.key proposal.remote)
      (autoPush : proposal.autoPush = project.autoPush.or document.defaults.autoPush)
      (acceptance : proposal.requiresRemoteAcceptance = false) : Proposes document repository proposal .exactProject
  | ownerTemplate (owner : RegistryOwner) (noProject : NoMatch document.projects repository.projectKey)
      (first : IsFirst document.owners repository.owner owner) (proposing : owner.hasProposalFields = true)
      (key : proposal.key = repository.repo) (root : proposal.root = owner.root.or document.defaults.root)
      (remote : RemoteFrom none (owner.remoteTemplate.or document.defaults.remoteTemplate) repository proposal.key proposal.remote)
      (autoPush : proposal.autoPush = owner.autoPush.or document.defaults.autoPush)
      (acceptance : proposal.requiresRemoteAcceptance = proposal.remote.isSome) :
      Proposes document repository proposal .ownerTemplate
  | defaults (noProject : NoMatch document.projects repository.projectKey)
      (noOwner : NoMatch document.owners repository.owner ∨
        ∃ owner, IsFirst document.owners repository.owner owner ∧ owner.hasProposalFields = false)
      (proposing : document.defaults.hasProposalFields = true)
      (key : proposal.key = repository.repo) (root : proposal.root = document.defaults.root)
      (remote : RemoteFrom none document.defaults.remoteTemplate repository proposal.key proposal.remote)
      (autoPush : proposal.autoPush = document.defaults.autoPush)
      (acceptance : proposal.requiresRemoteAcceptance = proposal.remote.isSome) :
      Proposes document repository proposal .defaults

structure SafeProposal (proposal : SidecarRegistryProposal) : Prop where
  key : IsComponent proposal.key
  noSlash : '/' ∉ proposal.key.toList
  root : Every IsRoot proposal.root
  remote : Every IsRemote proposal.remote
  noDash : Every (Text.startsWith · "-" = false) proposal.remote
  autoPush : Every IsPolicy proposal.autoPush

/-! ## Each check decides its rule -/

section

variable {debug : String → String} {value : String}

theorem not_unsafe_ok {α : Type} {message : String} {a : α} :
    ¬ (unsafeRegistryValue message : Except SidecarRegistryFailure α) = .ok a := nofun

theorem bind_unit_eq_ok {check next : Except SidecarRegistryFailure Unit} :
    (check >>= fun _ => next) = .ok () ↔ check = .ok () ∧ next = .ok () := by
  rw [bind_eq_ok]
  constructor
  · rintro ⟨⟨⟩, hCheck, hNext⟩
    exact ⟨hCheck, hNext⟩
  · rintro ⟨hCheck, hNext⟩
    exact ⟨(), hCheck, hNext⟩

theorem validateNoShellFragments_ok {context : String} :
    validateNoShellFragments debug value context = .ok () ↔ IsClean value := by
  unfold validateNoShellFragments
  split
  · next hBad =>
    refine ⟨nofun, fun h => ?_⟩
    rcases hBad with hTrim | hControl
    · exact absurd h.trimmed hTrim
    · exact absurd (h.noControl.symm.trans hControl) Bool.false_ne_true
  · next hGood =>
    rw [not_or, Bool.not_eq_true, not_ne_iff] at hGood
    split
    · next needle hFound =>
      refine ⟨nofun, fun h => ?_⟩
      have hIn := List.find?_some hFound
      exact absurd ((h.noFragment needle (List.mem_of_find?_eq_some hFound)).symm.trans hIn) Bool.false_ne_true
    · next hNone =>
      refine ⟨fun _ => ⟨hGood.1, hGood.2, fun fragment hMem => ?_⟩, fun _ => rfl⟩
      exact Bool.not_eq_true _ ▸ List.find?_eq_none.1 hNone fragment hMem

theorem validateRegistryMapKey_ok {kind : String} :
    validateRegistryMapKey debug kind value = .ok () ↔ IsMapKey value := by
  unfold validateRegistryMapKey
  rw [bind_unit_eq_ok, validateNoShellFragments_ok]
  split
  · next hBad =>
    refine ⟨fun h => absurd h.2 nofun, fun h => ?_⟩
    rcases hBad with hTrim | hEmpty
    · exact absurd h.clean.trimmed hTrim
    · exact absurd hEmpty h.nonempty
  · next hGood =>
    rw [not_or] at hGood
    exact ⟨fun h => ⟨h.1, hGood.2⟩, fun h => ⟨h.clean, rfl⟩⟩

theorem validateSidecarKey_ok : validateSidecarKey debug value = .ok () ↔ IsComponent value := by
  unfold validateSidecarKey
  rw [bind_unit_eq_ok, validateNoShellFragments_ok]
  split
  · next hBad =>
    refine ⟨fun h => absurd h.2 nofun, fun h => ?_⟩
    rcases hBad with rfl | rfl | rfl | hDot | hChars
    · exact absurd rfl h.nonempty
    · exact absurd h.notHidden (by decide +kernel)
    · exact absurd h.notHidden (by decide +kernel)
    · exact absurd (h.notHidden.symm.trans hDot) Bool.false_ne_true
    · rw [List.all_eq_true.2 h.keyChars] at hChars
      exact absurd hChars Bool.false_ne_true
  · next hGood =>
    simp only [not_or, Bool.not_eq_true, Bool.not_eq_false'] at hGood
    obtain ⟨hEmpty, -, -, hDot, hChars⟩ := hGood
    exact ⟨fun h => ⟨h.1, hEmpty, hDot, List.all_eq_true.1 hChars⟩, fun h => ⟨h.clean, rfl⟩⟩

theorem IsComponent.noSlash (h : IsComponent value) : '/' ∉ value.toList :=
  fun hMem => absurd (h.keyChars '/' hMem) (by decide)

theorem validateRoot_ok : validateRoot debug value = .ok () ↔ IsRoot value := by
  unfold validateRoot
  rw [bind_unit_eq_ok, validateNoShellFragments_ok]
  split
  · next hGood => exact ⟨fun h => ⟨h.1, hGood⟩, fun h => ⟨h.clean, rfl⟩⟩
  · next hBad => exact ⟨fun h => absurd h.2 nofun, fun h => absurd h.anchored hBad⟩

theorem validateRemote_ok : validateRemote debug value = .ok () ↔ IsRemote value := by
  unfold validateRemote
  rw [bind_unit_eq_ok, validateNoShellFragments_ok]
  cases hScheme : Text.startsWith value "https://" || Text.startsWith value "git@" with
  | false =>
    refine ⟨fun h => absurd h.2 nofun, fun h => ?_⟩
    rw [Bool.or_eq_false_iff] at hScheme
    rcases h.schemed with hHttps | hGit
    · exact absurd (hScheme.1.symm.trans hHttps) Bool.false_ne_true
    · exact absurd (hScheme.2.symm.trans hGit) Bool.false_ne_true
  | true =>
    rw [Bool.or_eq_true] at hScheme
    cases hParse : parseGithubRemote value with
    | error e =>
      refine ⟨fun h => absurd h.2 nofun, fun h => ?_⟩
      obtain ⟨remote, hRemote⟩ := h.parses
      exact absurd (hParse.symm.trans hRemote) nofun
    | ok remote => exact ⟨fun h => ⟨h.1, hScheme, remote, hParse⟩, fun h => ⟨h.clean, rfl⟩⟩

theorem IsRemote.noDash (h : IsRemote value) : Text.startsWith value "-" = false := by
  have hHead : ∀ s, Text.startsWith value s = true → value.toList.head? = s.toList.head? ∨ s.toList = [] := by
    intro s hs
    obtain ⟨rest, hRest⟩ := List.isPrefixOf_iff_prefix.1 hs
    rcases hList : s.toList with _ | ⟨c, t⟩
    · exact .inr rfl
    · rw [← hRest, hList]
      exact .inl rfl
  cases hDash : Text.startsWith value "-" with
  | false => rfl
  | true =>
    rcases hHead "-" hDash with hDashHead | hNil
    · rcases h.schemed with hScheme | hScheme <;> rcases hHead _ hScheme with hSchemeHead | hNil
      · exact absurd (hDashHead.symm.trans hSchemeHead) (by decide)
      · exact absurd hNil (by decide)
      · exact absurd (hDashHead.symm.trans hSchemeHead) (by decide)
      · exact absurd hNil (by decide)
    · exact absurd hNil (by decide)

theorem normalizeAutoPush_ok {policy : String} :
    normalizeAutoPush debug value = .ok policy ↔ IsPolicy value ∧ policy = value := by
  unfold normalizeAutoPush
  split
  · next hIn => exact ⟨fun h => ⟨hIn, (Except.ok.inj h).symm⟩, fun h => h.2 ▸ rfl⟩
  · next hOut => exact ⟨nofun, fun h => absurd h.1 hOut⟩

theorem checkAutoPush_ok : checkAutoPush debug value = .ok () ↔ IsPolicy value := by
  unfold checkAutoPush
  rw [map_eq_ok]
  constructor
  · rintro ⟨policy, h, -⟩
    exact (normalizeAutoPush_ok.1 h).1
  · exact fun h => ⟨value, normalizeAutoPush_ok.2 ⟨h, rfl⟩, rfl⟩

theorem checkOption_ok {α : Type} {check : α → Except SidecarRegistryFailure Unit} {p : α → Prop}
    (hCheck : ∀ a, check a = .ok () ↔ p a) (o : Option α) : checkOption check o = .ok () ↔ Every p o := by
  cases o with
  | none => exact ⟨fun _ => nofun, fun _ => rfl⟩
  | some a => exact (hCheck a).trans ⟨fun h _ hSome => Option.some.inj hSome ▸ h, fun h => h a rfl⟩

theorem forM_ok {α : Type} {check : α → Except SidecarRegistryFailure Unit} {p : α → Prop}
    (hCheck : ∀ a, check a = .ok () ↔ p a) (l : List α) : l.forM check = .ok () ↔ ∀ a ∈ l, p a := by
  induction l with
  | nil => exact ⟨fun _ => nofun, fun _ => rfl⟩
  | cons a l ih =>
    rw [List.forall_mem_cons, ← hCheck, ← ih]
    exact bind_unit_eq_ok

end

/-! ## Expanding a template -/

section

variable {debug : String → String} {template : String} {valueOf : String → Option String}

theorem IsExpansion.cons (piece : Piece) (hKnown : piece.Known valueOf) {source text : List Char}
    (h : IsExpansion valueOf source text) :
    IsExpansion valueOf (piece.source ++ source) (piece.filled valueOf ++ text) := by
  obtain ⟨pieces, rfl, rfl, hPieces⟩ := h
  exact ⟨piece :: pieces, rfl, rfl, List.forall_mem_cons.2 ⟨hKnown, hPieces⟩⟩

/-- What is read when the loop stands in the middle of a variable. -/
def opened : Option (List Char) → List Char → List Char
  | none, l => l
  | some variable_, l => '\x7b' :: variable_.reverse ++ l

theorem isExpansion_of_expandFrom (l : List Char) (pending : Option (List Char))
    (hPending : Every ('\x7d' ∉ ·) pending) (text : List Char)
    (h : expandFrom debug template valueOf pending l = .ok text) :
    IsExpansion valueOf (opened pending l) text := by
  induction l generalizing pending text with
  | nil =>
    cases pending with
    | none => exact ⟨[], rfl, (Except.ok.inj h).symm, nofun⟩
    | some variable_ => exact absurd h not_unsafe_ok
  | cons c l ih =>
    cases pending with
    | none =>
      rw [expandFrom] at h
      split at h
      · next hOpen =>
        subst hOpen
        exact ih (some []) (fun name hName => Option.some.inj hName ▸ List.not_mem_nil) text h
      · next hOpen =>
        split at h
        · exact absurd h not_unsafe_ok
        · next hClose =>
          obtain ⟨rest, hRest, rfl⟩ := map_eq_ok.1 h
          exact (ih none nofun rest hRest).cons (.literal c ⟨hOpen, hClose⟩) trivial
    | some variable_ =>
      have hFree := hPending variable_ rfl
      rw [expandFrom] at h
      split at h
      · next hClose =>
        subst hClose
        split at h
        · next value hValue =>
          obtain ⟨rest, hRest, rfl⟩ := map_eq_ok.1 h
          have hName : '\x7d' ∉ variable_.reverse := fun hMem => hFree (List.mem_reverse.1 hMem)
          have hStep := (ih none nofun rest hRest).cons (.variable_ variable_.reverse hName)
            (Option.isSome_iff_exists.2 ⟨value, hValue⟩)
          rw [Piece.filled, hValue, Option.getD_some] at hStep
          simpa only [opened, Piece.source, List.cons_append, List.append_assoc, List.nil_append] using hStep
        · exact absurd h not_unsafe_ok
      · next hClose =>
        have hStep := ih (some (c :: variable_)) (fun name hName hMem => by
          rw [← Option.some.inj hName] at hMem
          rcases List.mem_cons.1 hMem with hEq | hMem
          · exact hClose hEq.symm
          · exact hFree hMem) text h
        simpa only [opened, List.reverse_cons, List.append_assoc, List.cons_append, List.nil_append] using hStep

theorem expandFrom_variable (name : List Char) (hName : '\x7d' ∉ name) (variable_ rest : List Char) :
    expandFrom debug template valueOf (some variable_) (name ++ '\x7d' :: rest) =
      expandFrom debug template valueOf (some (name.reverse ++ variable_)) ('\x7d' :: rest) := by
  induction name generalizing variable_ with
  | nil => rfl
  | cons c name ih =>
    obtain ⟨hc, hName⟩ := not_or.1 (fun h => hName (List.mem_cons.2 h))
    rw [List.cons_append, expandFrom, if_neg (Ne.symm hc), ih hName, List.reverse_cons, List.append_assoc]
    rfl

theorem expandFrom_pieces (pieces : List Piece) (hKnown : ∀ piece ∈ pieces, piece.Known valueOf) :
    expandFrom debug template valueOf none (pieces.flatMap Piece.source) =
      .ok (pieces.flatMap (Piece.filled valueOf)) := by
  induction pieces with
  | nil => rfl
  | cons piece pieces ih =>
    obtain ⟨hPiece, hPieces⟩ := List.forall_mem_cons.1 hKnown
    rw [List.flatMap_cons, List.flatMap_cons]
    cases piece with
    | literal c hc =>
      rw [Piece.source, List.cons_append, List.nil_append, expandFrom, if_neg hc.1, if_neg hc.2, ih hPieces]
      rfl
    | variable_ name hName =>
      obtain ⟨value, hValue⟩ := Option.isSome_iff_exists.1 hPiece
      rw [Piece.source, List.append_assoc, List.cons_append, expandFrom, if_pos rfl, List.singleton_append,
        expandFrom_variable name hName, List.append_nil, expandFrom, if_pos rfl, List.reverse_reverse, hValue]
      dsimp only
      rw [ih hPieces, Piece.filled, hValue]
      rfl

theorem expandFrom_ok {l text : List Char} :
    expandFrom debug template valueOf none l = .ok text ↔ IsExpansion valueOf l text := by
  constructor
  · exact isExpansion_of_expandFrom l none nofun text
  · rintro ⟨pieces, rfl, rfl, hKnown⟩
    exact expandFrom_pieces pieces hKnown

theorem validateRemoteTemplate_ok : validateRemoteTemplate debug template = .ok () ↔ IsTemplate template := by
  unfold validateRemoteTemplate validateTemplateVariables
  rw [bind_unit_eq_ok, validateNoShellFragments_ok, map_eq_ok]
  constructor
  · rintro ⟨hClean, text, hText, -⟩
    exact ⟨hClean, text, expandFrom_ok.1 hText⟩
  · rintro ⟨hClean, text, hText⟩
    exact ⟨hClean, text, expandFrom_ok.2 hText, rfl⟩

theorem expandTemplate_ok {repository : ParsedGithubRemote} {key text : String} :
    expandTemplate debug template repository key = .ok text ↔
      IsExpansion (templateValue repository key) template.toList text.toList := by
  unfold expandTemplate
  rw [map_eq_ok]
  constructor
  · rintro ⟨l, hList, rfl⟩
    exact String.toList_ofList ▸ expandFrom_ok.1 hList
  · exact fun h => ⟨text.toList, expandFrom_ok.2 h, String.ofList_toList⟩

end

/-! ## The document -/

theorem validateDefaultsSafety_ok {debug : String → String} {defaults : RegistryDefaults} :
    validateDefaultsSafety debug defaults = .ok () ↔ SafeDefaults defaults := by
  unfold validateDefaultsSafety
  rw [bind_unit_eq_ok, bind_unit_eq_ok, checkOption_ok fun _ => validateRoot_ok,
    checkOption_ok fun _ => validateRemoteTemplate_ok, checkOption_ok fun _ => checkAutoPush_ok]
  exact ⟨fun h => ⟨h.1, h.2.1, h.2.2⟩, fun h => ⟨h.root, h.remoteTemplate, h.autoPush⟩⟩

theorem validateDocumentSafety_ok {debug : String → String} {document : RegistryDocument} :
    validateDocumentSafety debug document = .ok () ↔ SafeDefaults document.defaults ∧
      (∀ entry ∈ document.projects, IsMapKey entry.1 ∧ SafeProject entry.2) ∧
        ∀ entry ∈ document.owners, IsMapKey entry.1 ∧ SafeOwner entry.2 := by
  unfold validateDocumentSafety
  rw [bind_unit_eq_ok, bind_unit_eq_ok, validateDefaultsSafety_ok]
  refine and_congr Iff.rfl (and_congr (forM_ok ?_ _) (forM_ok ?_ _))
  · rintro ⟨key, project⟩
    dsimp only
    rw [bind_unit_eq_ok, bind_unit_eq_ok, bind_unit_eq_ok, bind_unit_eq_ok, validateRegistryMapKey_ok,
      checkOption_ok fun _ => validateSidecarKey_ok, checkOption_ok fun _ => validateRoot_ok,
      checkOption_ok fun _ => validateRemote_ok, checkOption_ok fun _ => checkAutoPush_ok]
    exact ⟨fun h => ⟨h.1, h.2.1, h.2.2.1, h.2.2.2.1, h.2.2.2.2⟩,
      fun h => ⟨h.1, h.2.key, h.2.root, h.2.remote, h.2.autoPush⟩⟩
  · rintro ⟨key, owner⟩
    dsimp only
    rw [bind_unit_eq_ok, bind_unit_eq_ok, bind_unit_eq_ok, validateRegistryMapKey_ok,
      checkOption_ok fun _ => validateRoot_ok, checkOption_ok fun _ => validateRemoteTemplate_ok,
      checkOption_ok fun _ => checkAutoPush_ok]
    exact ⟨fun h => ⟨h.1, h.2.1, h.2.2.1, h.2.2.2⟩,
      fun h => ⟨h.1, h.2.root, h.2.remoteTemplate, h.2.autoPush⟩⟩

theorem validateValueTableKeys_ok {debug : String → String} {allowed : List String} {context : String}
    (value : Toml.Value) :
    validateValueTableKeys debug value allowed context = .ok () ↔ KnownFields allowed value := by
  unfold validateValueTableKeys
  split
  · next fields =>
    split
    · next entry hFound =>
      refine ⟨nofun, fun h => ?_⟩
      have hUnknown := (List.find?_eq_some_iff_append.1 hFound).1
      rw [decide_eq_true_iff] at hUnknown
      exact absurd (h fields rfl entry (List.mem_of_find?_eq_some hFound)) hUnknown
    · next hNone =>
      refine ⟨fun _ fields' hEq entry hMem => ?_, fun _ => rfl⟩
      obtain rfl := Toml.Value.inlineTable.inj hEq
      have hKnown := List.find?_eq_none.1 hNone entry hMem
      rwa [decide_eq_true_iff, not_not] at hKnown
  · next hOther => exact ⟨fun _ fields hEq => absurd hEq (hOther fields), fun _ => rfl⟩

theorem validateEntries_ok {debug : String → String} {kind : String} {allowed : List String}
    (value : Option Toml.Value) :
    validateEntries debug kind allowed value = .ok () ↔ KnownEntries allowed value := by
  unfold validateEntries
  split
  · next fields =>
    have hEntry : ∀ entry : String × Toml.Value,
        (validateRegistryMapKey debug kind entry.1 >>= fun _ =>
          validateValueTableKeys debug entry.2 allowed kind) = .ok () ↔
            IsMapKey entry.1 ∧ KnownFields allowed entry.2 := by
      intro entry
      rw [bind_unit_eq_ok, validateRegistryMapKey_ok, validateValueTableKeys_ok]
    rw [forM_ok hEntry]
    constructor
    · intro h fields' hEq
      exact Toml.Value.inlineTable.inj (Option.some.inj hEq) ▸ h
    · exact fun h => h fields rfl
  · next hOther => exact ⟨fun _ fields hEq => absurd hEq (hOther fields), fun _ => rfl⟩

theorem validateRegistryShape_ok {debug : String → String} {value : Toml.Value} :
    validateRegistryShape debug value = .ok () ↔ WellShaped value := by
  unfold validateRegistryShape
  rw [bind_unit_eq_ok, bind_unit_eq_ok, bind_unit_eq_ok, validateValueTableKeys_ok,
    checkOption_ok validateValueTableKeys_ok, validateEntries_ok, validateEntries_ok]
  exact ⟨fun h => ⟨h.1, h.2.1, h.2.2.1, h.2.2.2⟩, fun h => ⟨h.registry, h.defaults, h.projects, h.owners⟩⟩

/-! ## The proposal -/

section

variable {debug : String → String} {repository : ParsedGithubRemote} {defaults : RegistryDefaults}
  {proposal : SidecarRegistryProposal}

theorem Every.or {α : Type} {p : α → Prop} {o o' : Option α} (h : Every p o) (h' : Every p o') :
    Every p (o.or o') := by
  cases o with
  | none => exact h'
  | some a => exact h

theorem remoteFrom_of_expandTemplateOption {template : Option String} {key : String} {remote : Option String}
    (h : expandTemplateOption debug template repository key = .ok remote) :
    RemoteFrom none template repository key remote := by
  cases template with
  | none => exact (Except.ok.inj h).symm
  | some template =>
    obtain ⟨text, hText, rfl⟩ := map_eq_ok.1 h
    exact ⟨text, rfl, expandTemplate_ok.1 hText⟩

theorem normalizeAutoPushOption_ok {policy policy' : Option String}
    (h : normalizeAutoPushOption debug policy = .ok policy') : policy' = policy ∧ Every IsPolicy policy := by
  cases policy with
  | none => exact ⟨(Except.ok.inj h).symm, nofun⟩
  | some value =>
    obtain ⟨normal, hNormal, rfl⟩ := map_eq_ok.1 h
    obtain ⟨hPolicy, rfl⟩ := normalizeAutoPush_ok.1 hNormal
    exact ⟨rfl, fun a ha => Option.some.inj ha ▸ hPolicy⟩

theorem SafeProposal.of_checked (hKey : IsComponent proposal.key) (hRoot : Every IsRoot proposal.root)
    (hRemote : Every IsRemote proposal.remote) (hPolicy : Every IsPolicy proposal.autoPush) :
    SafeProposal proposal :=
  ⟨hKey, hKey.noSlash, hRoot, hRemote, fun remote hSome => (hRemote remote hSome).noDash, hPolicy⟩

theorem checked_proposal {key : String} {root explicit template policy : Option String}
    {fetched : Except SidecarRegistryFailure (Option String)} {acceptance : Option String → Bool}
    (hFetched : ∀ remote, fetched = .ok remote → RemoteFrom explicit template repository key remote)
    (h : (do
      validateSidecarKey debug key
      let remote ← fetched
      checkOption (validateRemote debug) remote
      let autoPush ← normalizeAutoPushOption debug policy
      return (⟨key, root, remote, autoPush, true, acceptance remote⟩ : SidecarRegistryProposal)) = .ok proposal) :
    IsComponent proposal.key ∧ Every IsRemote proposal.remote ∧ Every IsPolicy proposal.autoPush ∧
      proposal.key = key ∧ proposal.root = root ∧
        RemoteFrom explicit template repository proposal.key proposal.remote ∧ proposal.autoPush = policy ∧
          proposal.requiresRemoteAcceptance = acceptance proposal.remote := by
  obtain ⟨⟨⟩, hKey, h⟩ := bind_eq_ok.1 h
  obtain ⟨remote, hRemote, h⟩ := bind_eq_ok.1 h
  obtain ⟨⟨⟩, hChecked, h⟩ := bind_eq_ok.1 h
  obtain ⟨autoPush, hPolicy, h⟩ := bind_eq_ok.1 h
  obtain rfl := Except.ok.inj h
  obtain ⟨rfl, hPolicy⟩ := normalizeAutoPushOption_ok hPolicy
  exact ⟨validateSidecarKey_ok.1 hKey, (checkOption_ok (fun _ => validateRemote_ok) _).1 hChecked, hPolicy,
    rfl, rfl, hFetched remote hRemote, rfl, rfl⟩

variable {document : RegistryDocument}

theorem isFirst_of_find {α : Type} {map : List (String × α)} {key : String} {a : α}
    (h : findCaseInsensitive map key = some a) : IsFirst map key a := by
  obtain ⟨⟨name, a'⟩, hFound, rfl⟩ := Option.map_eq_some_iff.1 h
  obtain ⟨hName, before, after, hMap, hBefore⟩ := List.find?_eq_some_iff_append.1 hFound
  exact ⟨before, name, after, hMap, hName, fun entry hMem => Bool.not_eq_true' _ ▸ hBefore entry hMem⟩

theorem noMatch_of_find {α : Type} {map : List (String × α)} {key : String}
    (h : findCaseInsensitive map key = none) : NoMatch map key :=
  fun entry hMem => Bool.not_eq_true _ ▸ List.find?_eq_none.1 (Option.map_eq_none_iff.1 h) entry hMem

theorem IsFirst.mem {α : Type} {map : List (String × α)} {key : String} {a : α} (h : IsFirst map key a) :
    ∃ name, (name, a) ∈ map := by
  obtain ⟨before, name, after, rfl, -, -⟩ := h
  exact ⟨name, List.mem_append_right _ List.mem_cons_self⟩

theorem projectProposal_proposes (hDocument : SafeDocument document) {project : RegistryProject}
    (hFirst : IsFirst document.projects repository.projectKey project)
    (h : projectProposal debug project document.defaults repository = .ok proposal) :
    SafeProposal proposal ∧ Proposes document repository proposal .exactProject := by
  obtain ⟨name, hMem⟩ := hFirst.mem
  have hProject := (hDocument.projects _ hMem).2
  have hRoot : Every IsRoot (project.root.or document.defaults.root) := hProject.root.or hDocument.defaults.root
  unfold projectProposal at h
  have hParts : IsComponent proposal.key ∧ Every IsRemote proposal.remote ∧ Every IsPolicy proposal.autoPush ∧
      proposal.key = project.key.getD repository.repo ∧ proposal.root = project.root.or document.defaults.root ∧
        RemoteFrom project.remote document.defaults.remoteTemplate repository proposal.key proposal.remote ∧
          proposal.autoPush = project.autoPush.or document.defaults.autoPush ∧
            proposal.requiresRemoteAcceptance = false := by
    cases hRemote : project.remote with
    | some remote =>
      rw [hRemote] at h
      exact @checked_proposal debug repository proposal _ _ (some remote) _ _ (pure (some remote))
        (fun _ => false) (fun _ hFetched => (Except.ok.inj hFetched).symm) h
    | none =>
      rw [hRemote] at h
      exact @checked_proposal debug repository proposal _ _ none document.defaults.remoteTemplate _ _
        (fun _ => false) (fun _ hFetched => remoteFrom_of_expandTemplateOption hFetched) h
  obtain ⟨hKey, hRemote, hPolicy, hKeyEq, hRootEq, hFrom, hPolicyEq, hAcceptance⟩ := hParts
  exact ⟨.of_checked hKey (hRootEq ▸ hRoot) hRemote hPolicy,
    .exactProject project hFirst hKeyEq hRootEq hFrom hPolicyEq hAcceptance⟩

theorem ownerProposal_proposes (hDocument : SafeDocument document) {owner : RegistryOwner}
    (hNone : NoMatch document.projects repository.projectKey)
    (hFirst : IsFirst document.owners repository.owner owner) (hFields : owner.hasProposalFields = true)
    (h : ownerProposal debug owner document.defaults repository = .ok proposal) :
    SafeProposal proposal ∧ Proposes document repository proposal .ownerTemplate := by
  obtain ⟨name, hMem⟩ := hFirst.mem
  have hOwner := (hDocument.owners _ hMem).2
  have hRoot : Every IsRoot (owner.root.or document.defaults.root) := hOwner.root.or hDocument.defaults.root
  obtain ⟨hKey, hRemote, hPolicy, hKeyEq, hRootEq, hFrom, hPolicyEq, hAcceptance⟩ :=
    @checked_proposal debug repository proposal _ _ none
      (owner.remoteTemplate.or document.defaults.remoteTemplate) _ _ Option.isSome
      (fun _ hFetched => remoteFrom_of_expandTemplateOption hFetched) h
  exact ⟨.of_checked hKey (hRootEq ▸ hRoot) hRemote hPolicy,
    .ownerTemplate owner hNone hFirst hFields hKeyEq hRootEq hFrom hPolicyEq hAcceptance⟩

theorem defaultsProposal_proposes (hDocument : SafeDocument document)
    (hNone : NoMatch document.projects repository.projectKey)
    (hOwner : NoMatch document.owners repository.owner ∨
      ∃ owner, IsFirst document.owners repository.owner owner ∧ owner.hasProposalFields = false)
    (hFields : document.defaults.hasProposalFields = true)
    (h : defaultsProposal debug document.defaults repository = .ok proposal) :
    SafeProposal proposal ∧ Proposes document repository proposal .defaults := by
  obtain ⟨hKey, hRemote, hPolicy, hKeyEq, hRootEq, hFrom, hPolicyEq, hAcceptance⟩ :=
    @checked_proposal debug repository proposal _ _ none document.defaults.remoteTemplate _ _ Option.isSome
      (fun _ hFetched => remoteFrom_of_expandTemplateOption hFetched) h
  exact ⟨.of_checked hKey (hRootEq ▸ hDocument.defaults.root) hRemote hPolicy,
    .defaults hNone hOwner hFields hKeyEq hRootEq hFrom hPolicyEq hAcceptance⟩

/-! ## Resolutions -/

/-- A resolution that proposes something, its proposal checked and chosen as it is meant to be. -/
structure Trusted (lib : Library) (registryToml : String) (repository : ParsedGithubRemote)
    (resolution : SidecarRegistryResolution) : Prop where
  shape : ∃ value, lib.parseValue registryToml = .ok value ∧ WellShaped value
  proposal : ∃ document proposal, lib.parseDocument registryToml = .ok document ∧ SafeDocument document ∧
    resolution.proposal = some proposal ∧ SafeProposal proposal ∧
      Proposes document repository proposal resolution.matchKind

theorem resolution_ok {matchKind : SidecarRegistryMatchKind} {confidence : SidecarDiscoveryConfidence}
    {proposed : Except SidecarRegistryFailure SidecarRegistryProposal}
    (h : (resolution matchKind confidence proposed).ok = true) :
    ∃ proposal, proposed = .ok proposal ∧
      (resolution matchKind confidence proposed).proposal = some proposal ∧
        (resolution matchKind confidence proposed).matchKind = matchKind := by
  cases proposed with
  | ok proposal => exact ⟨proposal, rfl, rfl, rfl⟩
  | error failure => exact absurd h Bool.false_ne_true

theorem resolveDocument_proposes (hDocument : SafeDocument document)
    (h : (resolveDocument debug document repository).ok = true) :
    ∃ proposal, (resolveDocument debug document repository).proposal = some proposal ∧ SafeProposal proposal ∧
      Proposes document repository proposal (resolveDocument debug document repository).matchKind := by
  unfold resolveDocument at h ⊢
  cases hProject : findCaseInsensitive document.projects repository.projectKey with
  | some project =>
    simp only [hProject] at h ⊢
    obtain ⟨proposal, hOk, hSome, hKind⟩ := resolution_ok h
    rw [hSome, hKind]
    exact ⟨proposal, rfl, projectProposal_proposes hDocument (isFirst_of_find hProject) hOk⟩
  | none =>
    have hNone := noMatch_of_find hProject
    simp only [hProject] at h ⊢
    cases hOwner : (findCaseInsensitive document.owners repository.owner).filter RegistryOwner.hasProposalFields with
    | some owner =>
      obtain ⟨hFound, hFields⟩ := Option.filter_eq_some_iff.1 hOwner
      simp only [hOwner] at h ⊢
      obtain ⟨proposal, hOk, hSome, hKind⟩ := resolution_ok h
      rw [hSome, hKind]
      exact ⟨proposal, rfl, ownerProposal_proposes hDocument hNone (isFirst_of_find hFound) hFields hOk⟩
    | none =>
      have hNoOwner : NoMatch document.owners repository.owner ∨
          ∃ owner, IsFirst document.owners repository.owner owner ∧ owner.hasProposalFields = false := by
        cases hFound : findCaseInsensitive document.owners repository.owner with
        | none => exact .inl (noMatch_of_find hFound)
        | some owner =>
          rw [hFound] at hOwner
          exact .inr ⟨owner, isFirst_of_find hFound,
            Bool.not_eq_true _ ▸ Option.filter_eq_none_iff.1 hOwner owner rfl⟩
      simp only [hOwner] at h ⊢
      cases hFields : document.defaults.hasProposalFields with
      | false =>
        rw [hFields] at h
        exact absurd h Bool.false_ne_true
      | true =>
        rw [hFields, if_pos rfl] at h
        rw [if_pos rfl]
        obtain ⟨proposal, hOk, hSome, hKind⟩ := resolution_ok h
        rw [hSome, hKind]
        exact ⟨proposal, rfl, defaultsProposal_proposes hDocument hNone hNoOwner hFields hOk⟩

theorem resolveSidecarRegistry_trusted (lib : Library) (registryToml : String) (repository : ParsedGithubRemote)
    (h : (resolveSidecarRegistry lib registryToml repository).ok = true) :
    Trusted lib registryToml repository (resolveSidecarRegistry lib registryToml repository) := by
  unfold resolveSidecarRegistry at h ⊢
  cases hValue : lib.parseValue registryToml with
  | error e =>
    rw [hValue] at h
    exact absurd h Bool.false_ne_true
  | ok value =>
    simp only [hValue] at h ⊢
    cases hShape : validateRegistryShape lib.debug value with
    | error failure =>
      rw [hShape] at h
      exact absurd h Bool.false_ne_true
    | ok =>
      simp only [hShape] at h ⊢
      cases hDocument : lib.parseDocument registryToml with
      | error e =>
        rw [hDocument] at h
        exact absurd h Bool.false_ne_true
      | ok document =>
        simp only [hDocument] at h ⊢
        by_cases hVersion : document.version = 1
        · rw [if_neg (not_not.2 hVersion)] at h ⊢
          cases hSafety : validateDocumentSafety lib.debug document with
          | error failure =>
            rw [hSafety] at h
            exact absurd h Bool.false_ne_true
          | ok =>
            simp only [hSafety] at h ⊢
            obtain ⟨hDefaults, hProjects, hOwners⟩ := validateDocumentSafety_ok.1 hSafety
            have hSafe : SafeDocument document := ⟨hVersion, hDefaults, hProjects, hOwners⟩
            obtain ⟨proposal, hSome, hProposal, hProposes⟩ := resolveDocument_proposes hSafe h
            exact ⟨⟨value, hValue, validateRegistryShape_ok.1 hShape⟩, document, proposal, hDocument, hSafe, hSome,
              hProposal, hProposes⟩
        · rw [if_pos hVersion] at h
          exact absurd h Bool.false_ne_true

end

/-! ## A registry with two entries for one repository -/

def twoEntries : String :=
  "version = 1\n\n[defaults]\nroot = \"~/../exo\"\n" ++
    "remote_template = \"git@github.com:\x7bowner\x7d/\x7bkey\x7d.git\"\n\n" ++
      "[projects.\"github.com/WYCATS/locald\"]\nkey = \"upper\"\n\n" ++
        "[projects.\"github.com/wycats/locald\"]\nkey = \"lower\"\n"

def twoEntriesValue : Toml.Value :=
  .inlineTable [("version", .integer 1),
    ("defaults", .inlineTable [("root", .string "~/../exo"),
      ("remote_template", .string "git@github.com:\x7bowner\x7d/\x7bkey\x7d.git")]),
    ("projects", .inlineTable [("github.com/WYCATS/locald", .inlineTable [("key", .string "upper")]),
      ("github.com/wycats/locald", .inlineTable [("key", .string "lower")])])]

def twoEntriesDocument : RegistryDocument where
  version := 1
  defaults := ⟨some "~/../exo", some "git@github.com:\x7bowner\x7d/\x7bkey\x7d.git", none⟩
  projects := [("github.com/WYCATS/locald", ⟨some "upper", none, none, none⟩),
    ("github.com/wycats/locald", ⟨some "lower", none, none, none⟩)]
  owners := []
  projects_sorted := by decide +kernel
  owners_sorted := .nil

def twoEntriesLibrary : Library where
  parseValue text := if text = twoEntries then .ok twoEntriesValue else .error "unexpected input"
  parseDocument text := if text = twoEntries then .ok twoEntriesDocument else .error "unexpected input"
  debug := id

def locald : ParsedGithubRemote where
  host := "github.com"
  owner := "wycats"
  repo := "locald"
  original := "git@github.com:wycats/locald.git"
  projectKey := "github.com/wycats/locald"

theorem resolve_two_entries :
    resolveSidecarRegistry twoEntriesLibrary twoEntries locald =
      successResolution .exactProject .high
        ⟨"upper", some "~/../exo", some "git@github.com:wycats/upper.git", none, true, false⟩ := by
  decide +kernel

/-- The first of the two entries is taken although both match, its root is not below the home
directory, and its remote comes from a template without asking for acceptance. -/
theorem two_entries_trusted :
    parseGithubRemote locald.original = .ok locald ∧
      resolveSidecarRegistry twoEntriesLibrary twoEntries locald =
        successResolution .exactProject .high
          ⟨"upper", some "~/../exo", some "git@github.com:wycats/upper.git", none, true, false⟩ ∧
      twoEntriesDocument.projects.countP (fun entry => eqIgnoreAsciiCase entry.1 locald.projectKey) = 2 :=
  ⟨by decide +kernel, resolve_two_entries, by decide +kernel⟩

theorem resolveSidecarRegistry_trusted_two_entries :
    Trusted twoEntriesLibrary twoEntries locald (resolveSidecarRegistry twoEntriesLibrary twoEntries locald) :=
  resolveSidecarRegistry_trusted twoEntriesLibrary twoEntries locald
    (congrArg SidecarRegistryResolution.ok resolve_two_entries)

end Exosuit.Sidecar
