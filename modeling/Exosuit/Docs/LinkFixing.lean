import Exosuit.Docs.LinkScan
import Exosuit.Docs.LinkTargets

/-!
# Fixing the links of documents

A text is a template: the links that resolve are its slots, everything else stays. A fixed text is
read against the template of the old one.
-/

namespace Exosuit.Docs

open Lib
open Lib.Directory (Tree Loc relative Passed Proper)
open Lib.Path (Name components up significant separator)
open Lib.Edits (Edit Template Reads)

/-! ## What fixing should do -/

/-- A link that resolves, with its target and fragment. -/
structure Link where
  rest : Str
  target : Str
  fragment : Option Str
deriving DecidableEq

def resolveLink (ws : Workspace) (rest : Str) : Option Link :=
  let uri := splitFragment (linkUri rest)
  if uri.1 = placeholder then none
  else
    match resolveExoUri ws uri.1 with
    | .ok target => some ⟨rest, target, uri.2⟩
    | .error _ => none

def Link.text (link : Link) : Str := linkText link.rest

def pieceTemplate (ws : Workspace) : Piece → Template Char Link
  | .char c => [.inl c]
  | .link rest =>
    match resolveLink ws rest with
    | some link => [.inr link]
    | none => (linkText rest).map Sum.inl

def template (ws : Workspace) (text : Str) : Template Char Link := (scan text).flatMap (pieceTemplate ws)

/-- Where a path leads that is read in a directory. -/
def leads (tree : Tree) (dir : Loc) (path : Str) : Option Loc :=
  if isAbsolute path then tree.locate path else tree.walk dir (Text.pieces separator 0 path)

/-- A text from the opening to the closing parenthesis, the latter left out, that names the file and
the fragment of a link. -/
def Denotes (tree : Tree) (dir : Loc) (link : Link) (text : Str) : Prop :=
  text.head? = some '(' ∧ (tree.locate link.target).isSome = true ∧
    leads tree dir (splitFragment text.tail).1 = tree.locate link.target ∧
    (splitFragment text.tail).2 = link.fragment

instance (tree : Tree) (dir : Loc) (link : Link) (text : Str) : Decidable (Denotes tree dir link text) :=
  inferInstanceAs (Decidable (_ ∧ _))

/-- Every byte outside of the links that resolve is still there, and what stands in their place, read
up to the closing parenthesis, denotes what they resolved to. -/
def FixedText (ws : Workspace) (loc : Loc) (old new : Str) : Prop :=
  Reads ')' (Denotes ws.tree loc.dropLast) (template ws old) new

def Gathered (ws : Workspace) (targets : Targets) (loc : Loc) : Prop :=
  ∃ abs ∈ gatherFiles ws targets, ws.tree.locate abs = some loc

section

variable (ws : Workspace) (crates : Crates) (input : DocsLinksInput)

/-- What a run should leave behind. -/
structure FixedFiles (files files' : Files) : Prop where
  texts : ∀ loc old, Gathered ws input.targets loc → files loc = .text old →
    ∃ new, files' loc = .text new ∧ FixedText ws loc old new
  others : ∀ loc, (∀ old, Gathered ws input.targets loc → files loc ≠ .text old) → files' loc = files loc
  again : ∃ result, runFix ws crates input files' = some (files', result)

/-- A run changes nothing but the links, rewrites them right, and leaves nothing for a second run. -/
def FixesLinks (files : Files) : Prop :=
  ∃ files' result, runFix ws crates input files = some (files', result) ∧
    FixedFiles ws crates input files files'

/-! ## When it does -/

def HasLink (ws : Workspace) (text : Str) : Prop := ∃ link, Sum.inr link ∈ template ws text

/-- The names from the directory of a document to the target of its link. -/
def Link.way (dir : Loc) (link : Link) : List Name := relative (components link.target) dir

/-- The crate gives the way from a directory, spelled by the names, to whatever a link resolves to. -/
def FindsWays (names : List Name) (dir : Loc) : Prop :=
  ∀ rest link, resolveLink ws rest = some link →
    crates.diffPaths (components link.target) names = some (link.way dir)

/-- A document with a link that resolves is gathered under one path only, and two dots in that path
do not mislead the crate. -/
structure PlannedOnce (files : Files) : Prop where
  once : (gatherFiles ws input.targets).Pairwise fun a b => ws.tree.locate a = ws.tree.locate b →
    ∀ text, ws.read files a = some text → ¬ HasLink ws text
  straight : ∀ abs ∈ gatherFiles ws input.targets, up ∈ components abs → ∀ loc,
    ws.tree.locate abs = some loc → ∀ text, files loc = .text text → HasLink ws text →
      FindsWays ws crates (components abs).dropLast loc.dropLast

/-- The way to the target can be spliced into a link. -/
structure Spliceable (ws : Workspace) (dir : Loc) (link : Link) : Prop where
  closes : ∀ name ∈ link.way dir, ')' ∉ name
  hashes : ∀ name ∈ link.way dir, '#' ∉ name
  backslashes : (∃ name ∈ link.way dir, '\\' ∈ name) →
    leads ws.tree dir (slashes (Path.join (link.way dir))) = ws.tree.locate link.target
  inert : ¬ HasLink ws (rewriteText (link.way dir) link.fragment)

/-- What is documented of the crate, for a base without two dots. -/
def DiffsPaths (crates : Crates) : Prop :=
  ∀ target base, up ∉ base → crates.diffPaths target base = some (relative target base)

end

variable {ws : Workspace} {crates : Crates} {input : DocsLinksInput} {abs rest text old uri : Str}
  {link : Link} {loc dir : Loc} {files : Files}

/-! ## The parts of a link -/

def fragmentText (fragment : Option Str) : Str := fragment.elim [] ('#' :: ·)

/-- What takes the place of a link, without the closing parenthesis. -/
def Link.inner (dir : Loc) (link : Link) : Str :=
  '(' :: (slashes (Path.join (link.way dir)) ++ fragmentText link.fragment)

def Link.rewriting (dir : Loc) (link : Link) : Str := link.inner dir ++ [')']

theorem splitFragment_eq (uri : Str) :
    uri = (splitFragment uri).1 ++ fragmentText (splitFragment uri).2 := by
  rw [splitFragment]
  split
  · next left fragment hSplit =>
    have hUri := ((Text.splitOnceList_eq_some (List.cons_ne_nil _ _)).mp hSplit).1
    rw [List.append_assoc, List.singleton_append] at hUri
    exact hUri
  · exact (List.append_nil _).symm

theorem splitFragment_hash (h : '#' ∉ text) (rest : Str) :
    splitFragment (text ++ '#' :: rest) = (text, some rest) := by
  rw [splitFragment, Text.splitOnceList_char h]

theorem splitFragment_free (h : '#' ∉ text) : splitFragment text = (text, none) := by
  rw [splitFragment]
  split
  · next left fragment hSplit =>
    have hUri := ((Text.splitOnceList_eq_some (List.cons_ne_nil _ _)).mp hSplit).1
    rw [hUri] at h
    simp at h
  · rfl

theorem splitFragment_append (h : '#' ∉ text) (fragment : Option Str) :
    splitFragment (text ++ fragmentText fragment) = (text, fragment) := by
  cases fragment with
  | none =>
    rw [fragmentText, Option.elim_none, List.append_nil]
    exact splitFragment_free h
  | some fragment => exact splitFragment_hash h fragment

theorem eq_lead_linkUri (rest : Str) : ∃ lead, IsLead lead ∧ rest = lead ++ linkUri rest := by
  rw [linkUri]
  split
  · next h =>
    obtain ⟨tail, rfl⟩ := List.isPrefixOf_iff_prefix.mp h
    exact ⟨['/', '/'], Or.inr rfl, rfl⟩
  · exact ⟨[], Or.inl rfl, rfl⟩

theorem resolveLink_eq (h : resolveLink ws rest = some link) : link.rest = rest ∧
    ∃ lead uri, IsLead lead ∧ rest = lead ++ (uri ++ fragmentText link.fragment) ∧
      resolveExoUri ws uri = .ok link.target := by
  rw [resolveLink] at h
  split at h
  · exact nomatch h
  · split at h
    · next target hTarget =>
      rw [Option.some.injEq] at h
      subst h
      obtain ⟨lead, hLead, hRest⟩ := eq_lead_linkUri rest
      refine ⟨rfl, lead, _, hLead, ?_, hTarget⟩
      rw [← splitFragment_eq]
      exact hRest
    · exact nomatch h

/-! ## Templates -/

theorem flatMap_template {β : Type} (f : Char ⊕ Link → List β) (text : Str) :
    (template ws text).flatMap f = (scan text).flatMap fun piece => (pieceTemplate ws piece).flatMap f :=
  List.flatMap_assoc

theorem fill_text (text : Str) : Edits.fill Link.text (template ws text) = text := by
  have hPieces : ∀ piece, Edits.fill Link.text (pieceTemplate ws piece) = pieceText piece := by
    intro piece
    cases piece with
    | char c => rfl
    | link rest =>
      rw [pieceTemplate]
      split
      · next link hLink =>
        rw [Edits.fill_cons, Sum.elim_inr, Link.text, (resolveLink_eq hLink).1]
        exact List.append_nil _
      · exact Edits.fill_map_inl _ _
  rw [Edits.fill, flatMap_template]
  exact (congrArg (fun f => (scan text).flatMap f) (funext hPieces)).trans (flatMap_scan text)

def rewriteLink (ws : Workspace) (dir : Loc) (rest : Str) : Str :=
  match resolveLink ws rest with
  | some link => link.rewriting dir
  | none => linkText rest

def fixedText (ws : Workspace) (loc : Loc) (text : Str) : Str := substitute (rewriteLink ws loc.dropLast) text

theorem fill_rewriting (text : Str) :
    Edits.fill (Link.rewriting loc.dropLast) (template ws text) = fixedText ws loc text := by
  rw [Edits.fill, flatMap_template, fixedText, substitute]
  congr 1
  funext piece
  cases piece with
  | char c => rfl
  | link rest =>
    dsimp only
    rw [pieceTemplate, rewriteLink]
    cases resolveLink ws rest with
    | some link => exact List.append_nil _
    | none => exact Edits.fill_map_inl _ _

theorem enclosed_rewriteLink (dir : Loc) (rest : Str) : Enclosed (rewriteLink ws dir rest) := by
  rw [rewriteLink]
  split
  · next link _ => exact ⟨_, rfl⟩
  · exact ⟨linkMark.tail ++ rest, rfl⟩

theorem mem_template : Sum.inr link ∈ template ws text ↔
    ∃ rest, .link rest ∈ scan text ∧ resolveLink ws rest = some link := by
  rw [template, List.mem_flatMap]
  constructor
  · rintro ⟨piece, hMem, hSlot⟩
    cases piece with
    | char c => simp [pieceTemplate] at hSlot
    | link rest =>
      rw [pieceTemplate] at hSlot
      split at hSlot
      · next found hFound =>
        rw [List.mem_singleton, Sum.inr.injEq] at hSlot
        exact ⟨rest, hMem, hSlot ▸ hFound⟩
      · simp at hSlot
  · rintro ⟨rest, hMem, hFound⟩
    refine ⟨_, hMem, ?_⟩
    rw [pieceTemplate, hFound]
    exact List.mem_singleton_self _

theorem linkText_of_mem (h : Sum.inr link ∈ template ws text) : IsTarget link.rest := by
  obtain ⟨rest, hMem, hFound⟩ := mem_template.mp h
  rw [(resolveLink_eq hFound).1]
  exact isTarget_of_mem_scan hMem

theorem hasLink_fixedText : HasLink ws (fixedText ws loc text) ↔
    ∃ link, Sum.inr link ∈ template ws text ∧ HasLink ws (link.rewriting loc.dropLast) := by
  have hScan := scan_substitute (@enclosed_rewriteLink ws loc.dropLast) text
  constructor
  · rintro ⟨found, hFound⟩
    obtain ⟨rest, hMem, hResolve⟩ := mem_template.mp hFound
    rw [fixedText, hScan, List.mem_flatMap] at hMem
    obtain ⟨piece, hPiece, hMem⟩ := hMem
    cases piece with
    | char c => exact absurd (List.mem_singleton.mp hMem) nofun
    | link outer =>
      dsimp only at hMem
      rw [rewriteLink] at hMem
      split at hMem
      · next link hLink =>
        exact ⟨link, mem_template.mpr ⟨outer, hPiece, hLink⟩, found, mem_template.mpr ⟨rest, hMem, hResolve⟩⟩
      · next hNone =>
        have hSame := scan_linkText (isTarget_of_mem_scan hPiece) []
        rw [List.append_nil] at hSame
        rw [hSame] at hMem
        rw [Piece.link.inj (List.mem_singleton.mp hMem), hNone] at hResolve
        exact nomatch hResolve
  · rintro ⟨link, hLink, found, hFound⟩
    obtain ⟨outer, hOuter, hResolve⟩ := mem_template.mp hLink
    obtain ⟨rest, hMem, hInner⟩ := mem_template.mp hFound
    refine ⟨found, mem_template.mpr ⟨rest, ?_, hInner⟩⟩
    rw [fixedText, hScan, List.mem_flatMap]
    refine ⟨_, hOuter, ?_⟩
    dsimp only
    rw [rewriteLink, hResolve]
    exact hMem

theorem fixedText_eq_self (h : ¬ HasLink ws text) : fixedText ws loc text = text := by
  rw [← @fill_rewriting ws loc]
  conv_rhs => rw [← @fill_text ws text]
  have hKept : ∀ t : Template Char Link, (∀ link, Sum.inr link ∉ t) →
      Edits.fill (Link.rewriting loc.dropLast) t = Edits.fill Link.text t := by
    intro t hFree
    induction t with
    | nil => rfl
    | cons s t ih =>
      cases s with
      | inl c =>
        rw [Edits.fill_cons, Edits.fill_cons, ih fun link hMem => hFree link (List.mem_cons_of_mem _ hMem)]
        rfl
      | inr link => exact absurd List.mem_cons_self (hFree link)
  exact hKept _ fun link hMem => h ⟨link, hMem⟩

/-! ## Planned edits -/

theorem planLink_edit? (found : Capture) : (planLink ws crates true abs found).edit? =
    (resolveLink ws found.rest).bind fun link =>
      (crates.diffPaths (components link.target) (components abs).dropLast).map fun names =>
        ⟨found.start, found.stop, rewriteText names link.fragment⟩ := by
  rw [planLink, resolveLink]
  dsimp only
  split
  · rfl
  · cases resolveExoUri ws (splitFragment (linkUri found.rest)).1 with
    | ok target =>
      dsimp only [Option.bind_some]
      cases crates.diffPaths (components target) (components abs).dropLast <;> rfl
    | error code => rfl

theorem replacements_eq (hWays : FindsWays ws crates (components abs).dropLast dir) (text : Str) :
    replacements ws crates abs text =
      Edits.edits Char.utf8Size Link.text (Link.rewriting dir) 0 (template ws text) := by
  have hPieces : ∀ pieces n, ((capturesFrom n pieces).map (planLink ws crates true abs)).filterMap
      Outcome.edit? = Edits.edits Char.utf8Size Link.text (Link.rewriting dir) n
        (pieces.flatMap (pieceTemplate ws)) := by
    intro pieces
    induction pieces with
    | nil => exact fun n => rfl
    | cons piece pieces ih =>
      intro n
      cases piece with
      | char c => exact ih _
      | link rest =>
        rw [capturesFrom, List.map_cons, List.filterMap_cons, planLink_edit?, List.flatMap_cons, pieceTemplate]
        dsimp only
        cases hLink : resolveLink ws rest with
        | none =>
          rw [Option.bind_none, Edits.edits_map_inl]
          exact ih _
        | some link =>
          rw [Option.bind_some, hWays rest link hLink, Option.map_some, ih, List.singleton_append, Edits.edits, Link.text,
            (resolveLink_eq hLink).1]
          rfl
  rw [replacements, outcomes, captures, hPieces]
  exact (Edits.pairwise_edits 0 _).insertionSort_eq

theorem replacements_nil (h : ¬ HasLink ws text) : replacements ws crates abs text = [] := by
  have hPieces : ∀ pieces n, (∀ rest, .link rest ∈ pieces → resolveLink ws rest = none) →
      ((capturesFrom n pieces).map (planLink ws crates true abs)).filterMap Outcome.edit? = [] := by
    intro pieces
    induction pieces with
    | nil => exact fun n _ => rfl
    | cons piece pieces ih =>
      intro n hNone
      cases piece with
      | char c => exact ih _ fun rest hMem => hNone rest (List.mem_cons_of_mem _ hMem)
      | link rest =>
        rw [capturesFrom, List.map_cons, List.filterMap_cons, planLink_edit?, hNone rest List.mem_cons_self]
        exact ih _ fun rest hMem => hNone rest (List.mem_cons_of_mem _ hMem)
  rw [replacements, outcomes, captures, hPieces]
  · rfl
  · intro rest hMem
    rw [Option.eq_none_iff_forall_ne_some]
    intro link hLink
    exact h ⟨link, mem_template.mpr ⟨rest, hMem, hLink⟩⟩

/-- Applied to the text that they were planned for, the edits put every link in its place. -/
theorem applyAll_replacements (hWays : FindsWays ws crates (components abs).dropLast loc.dropLast)
    (text : Str) : Edits.applyAll Char.utf8Size (replacements ws crates abs text) text =
      some (fixedText ws loc text) := by
  have hApply := @Edits.applyAll_edits Char Link Char.utf8Size Link.text (Link.rewriting loc.dropLast)
    Char.utf8Size_pos [] (template ws text)
  rw [List.nil_append, List.nil_append, fill_text, fill_rewriting] at hApply
  rw [replacements_eq hWays]
  exact hApply

/-! ## What the new text denotes -/

theorem mem_slashes {c : Char} (hSlash : c ≠ '/') (hBack : c ≠ '\\') : c ∈ slashes text ↔ c ∈ text := by
  rw [slashes, List.mem_map]
  constructor
  · rintro ⟨d, hMem, hEq⟩
    split at hEq
    · exact absurd hEq.symm hSlash
    · exact hEq ▸ hMem
  · intro hMem
    exact ⟨c, hMem, if_neg hBack⟩

theorem mem_join {c : Char} (hSlash : c ≠ '/') (names : List Name) :
    c ∈ Path.join names ↔ ∃ name ∈ names, c ∈ name := by
  constructor
  · intro hMem
    rcases Text.mem_intercalate hMem with hSep | hName
    · exact absurd (List.mem_singleton.mp hSep) hSlash
    · exact hName
  · rintro ⟨name, hName, hMem⟩
    induction names with
    | nil => exact absurd hName List.not_mem_nil
    | cons first names ih =>
      rw [Path.join, Text.intercalate_cons, List.mem_append]
      rcases List.mem_cons.mp hName with rfl | hName
      · exact Or.inl hMem
      · rw [if_neg (List.ne_nil_of_mem hName)]
        exact Or.inr (List.mem_append_right _ (ih hName))

theorem close_not_mem_inner (hLink : Sum.inr link ∈ template ws text) :
    ')' ∉ link.inner dir ↔ ∀ name ∈ link.way dir, ')' ∉ name := by
  have hFragment : ')' ∉ fragmentText link.fragment := by
    obtain ⟨rest, hMem, hResolve⟩ := mem_template.mp hLink
    obtain ⟨-, lead, uri, -, hRest, -⟩ := resolveLink_eq hResolve
    have hClose := (isTarget_of_mem_scan hMem).close_not_mem
    rw [hRest, List.mem_append, List.mem_append, not_or, not_or] at hClose
    exact hClose.2.2
  rw [Link.inner, List.mem_cons, List.mem_append, mem_slashes (by decide) (by decide), mem_join (by decide)]
  constructor
  · intro h name hName hMem
    exact h (Or.inr (Or.inl ⟨name, hName, hMem⟩))
  · rintro h (hOpen | ⟨name, hName, hMem⟩ | hMem)
    · exact absurd hOpen (by decide)
    · exact h name hName hMem
    · exact hFragment hMem

theorem denotes_inner (tree : Tree) (hTarget : (tree.locate link.target).isSome = true) :
    Denotes tree dir link (link.inner dir) ↔ (∀ name ∈ link.way dir, '#' ∉ name) ∧
      leads tree dir (slashes (Path.join (link.way dir))) = tree.locate link.target := by
  have hWay : (∀ name ∈ link.way dir, '#' ∉ name) ↔ '#' ∉ slashes (Path.join (link.way dir)) := by
    rw [mem_slashes (by decide) (by decide), mem_join (by decide), not_exists]
    exact forall_congr' fun name => (not_and).symm
  rw [Denotes, Link.inner, List.tail_cons, hWay]
  by_cases hHash : '#' ∈ slashes (Path.join (link.way dir))
  · refine iff_of_false ?_ fun h => h.1 hHash
    rintro ⟨-, -, -, hFragment⟩
    obtain ⟨left, right, hSplit, hLeft⟩ := List.eq_append_cons_of_mem hHash
    rw [hSplit, List.append_assoc, List.cons_append, splitFragment_hash hLeft] at hFragment
    cases hLink : link.fragment with
    | none =>
      rw [hLink] at hFragment
      exact Option.some_ne_none _ hFragment
    | some fragment =>
      rw [hLink, Option.some.injEq] at hFragment
      have hLength := congrArg List.length hFragment
      rw [fragmentText, Option.elim_some, List.length_append, List.length_cons] at hLength
      omega
  · rw [splitFragment_append hHash]
    constructor
    · exact fun h => ⟨hHash, h.2.2.1⟩
    · exact fun h => ⟨rfl, hTarget, h.2, rfl⟩

theorem significant_ne_nil {name : Name} (h : significant name = true) : name ≠ [] := by
  rintro rfl
  exact Bool.false_ne_true h

theorem way_names (link : Link) : ∀ name ∈ link.way dir, '/' ∉ name ∧ name ≠ [] := by
  intro name hMem
  rw [Link.way, relative] at hMem
  rcases List.mem_append.mp hMem with hMem | hMem
  · rw [List.eq_of_mem_replicate hMem]
    decide
  · have hName := List.mem_of_mem_drop hMem
    exact ⟨slash_not_mem_of_component hName, significant_ne_nil (List.mem_filter.mp hName).2⟩

theorem leads_way {tree : Tree} (hProper : Proper dir) (hPassed : Passed tree dir) (hEnd : dir ∈ tree.dirs)
    (hTarget : (tree.locate link.target).isSome = true) (hFree : ∀ name ∈ link.way dir, '\\' ∉ name) :
    leads tree dir (slashes (Path.join (link.way dir))) = tree.locate link.target := by
  have hNames := @way_names dir link
  have hSame : slashes (Path.join (link.way dir)) = Path.join (link.way dir) := by
    refine List.map_congr_left (fun c hMem => if_neg ?_) |>.trans (List.map_id _)
    rintro rfl
    obtain ⟨name, hName, hMem⟩ := (mem_join (by decide) _).mp hMem
    exact hFree name hName hMem
  obtain ⟨loc, hLoc⟩ := Option.isSome_iff_exists.mp hTarget
  have hWalk : tree.walk dir (link.way dir) = some loc := by
    rw [Link.way, Directory.walk_relative hProper hPassed hEnd]
    exact Directory.walk_filter hLoc
  rw [hSame, hLoc]
  cases hWay : link.way dir with
  | nil =>
    rw [hWay] at hWalk
    refine (if_neg Bool.false_ne_true).trans ?_
    exact (if_neg (not_not.mpr hEnd)).trans hWalk
  | cons first rest =>
    rw [hWay] at hNames
    have hFirst := hNames first List.mem_cons_self
    have hRelative : isAbsolute (Path.join (first :: rest)) = false := by
      rw [isAbsolute, Path.head?_join hFirst.2]
      refine beq_eq_false_iff_ne.mpr fun hHead => hFirst.1 ?_
      exact List.mem_of_mem_head? hHead
    rw [leads, hRelative, if_neg Bool.false_ne_true,
      Path.pieces_join (List.cons_ne_nil _ _) fun name hMem => (hNames name hMem).1, ← hWay]
    exact hWalk

structure Found (ws : Workspace) (dir : Loc) : Prop where
  proper : Proper dir
  passed : Passed ws.tree dir
  isDir : dir ∈ ws.tree.dirs

theorem isSome_locate_of_mem (h : Sum.inr link ∈ template ws text) :
    (ws.tree.locate link.target).isSome = true := by
  obtain ⟨rest, -, hResolve⟩ := mem_template.mp h
  obtain ⟨-, lead, uri, -, -, hUri⟩ := resolveLink_eq hResolve
  exact isSome_locate_of_resolve hUri

theorem fixedText_iff (hDir : Found ws loc.dropLast) (text : Str) :
    FixedText ws loc text (fixedText ws loc text) ↔ ∀ link, Sum.inr link ∈ template ws text →
      (∀ name ∈ link.way loc.dropLast, ')' ∉ name) ∧ (∀ name ∈ link.way loc.dropLast, '#' ∉ name) ∧
        ((∃ name ∈ link.way loc.dropLast, '\\' ∈ name) →
          leads ws.tree loc.dropLast (slashes (Path.join (link.way loc.dropLast))) =
            ws.tree.locate link.target) := by
  rw [FixedText, ← fill_rewriting]
  refine Edits.reads_fill_iff.trans (forall_congr' fun link => imp_congr_right fun hMem => ?_)
  have hTarget := isSome_locate_of_mem hMem
  rw [close_not_mem_inner hMem, denotes_inner ws.tree hTarget]
  refine and_congr_right fun _ => and_congr_right fun _ => ?_
  constructor
  · exact fun h _ => h
  · intro h
    by_cases hBack : ∃ name ∈ link.way loc.dropLast, '\\' ∈ name
    · exact h hBack
    · refine leads_way hDir.proper hDir.passed hDir.isDir hTarget fun name hName hChar => ?_
      exact hBack ⟨name, hName, hChar⟩

/-- A link never gives way to itself. -/
theorem rewriting_ne_text (h : Sum.inr link ∈ template ws text) : link.rewriting dir ≠ link.text := by
  obtain ⟨rest, -, hResolve⟩ := mem_template.mp h
  obtain ⟨hRest, lead, uri, hLead, hSplit, hUri⟩ := resolveLink_eq hResolve
  intro hEq
  have hShape : link.text = '(' :: (scheme ++ (lead ++ uri) ++ fragmentText link.fragment) ++ [')'] := by
    rw [Link.text, hRest, hSplit, linkText, List.append_assoc scheme, List.append_assoc lead]
    rfl
  rw [hShape, Link.rewriting, Link.inner] at hEq
  have hInner := (List.cons_eq_cons.mp (List.append_cancel_right hEq)).2
  exact way_ne_link hUri hLead (List.append_cancel_right hInner)

theorem not_hasLink_of_fixedText_eq (h : fixedText ws loc text = text) : ¬ HasLink ws text := by
  rintro ⟨link, hLink⟩
  have hOld : Edits.fill (fun link => (linkMark ++ link.rest) ++ [')']) (template ws text) = text :=
    fill_text text
  have hReads : ∀ new, new = text →
      Reads ')' (fun link front => front ++ [')'] = link.text) (template ws text) new := by
    rintro new rfl
    have hFill := (@Edits.reads_fill_iff Char Link (template ws new) _ ')'
      (fun link front => front ++ [')'] = link.text) fun link => linkMark ++ link.rest).mpr
    rw [hOld] at hFill
    refine hFill fun link hMem => ⟨?_, rfl⟩
    rw [List.mem_append, not_or]
    exact ⟨by decide, (linkText_of_mem hMem).close_not_mem⟩
  have hNew : Edits.fill (fun link => link.inner loc.dropLast ++ [')']) (template ws text) = text :=
    (fill_rewriting text).trans h
  exact rewriting_ne_text hLink (Edits.reads_fill_iff.mp (hReads _ hNew) link hLink).2

/-! ## Runs -/

theorem read_eq_some : ws.read files abs = some text ↔
    ∃ loc, ws.tree.locate abs = some loc ∧ files loc = .text text := by
  rw [Workspace.read]
  cases ws.tree.locate abs with
  | none => simp
  | some loc =>
    dsimp only
    cases hFile : files loc with
    | text value =>
      rw [Option.some.injEq]
      constructor
      · rintro rfl
        exact ⟨loc, rfl, hFile⟩
      · rintro ⟨found, hFound, hText⟩
        rw [← Option.some.inj hFound, hFile, Contents.text.injEq] at hText
        exact hText
    | bytes value =>
      refine iff_of_false nofun ?_
      rintro ⟨found, hFound, hText⟩
      rw [← Option.some.inj hFound, hFile] at hText
      exact nomatch hText

theorem editFile_eq_some {p : Str × List (Edit Char)} (hEdits : p.2 ≠ []) (hLoc : ws.tree.locate p.1 = some loc)
    (hFile : files loc = .text old) (hApply : Edits.applyAll Char.utf8Size p.2 old = some new) :
    editFile ws files p = some (Function.update files loc (.text new)) := by
  rw [editFile, if_neg hEdits, hLoc]
  dsimp only
  rw [hFile]
  dsimp only
  rw [hApply]
  rfl

theorem foldlM_editFile (planned : List (Str × List (Edit Char)))
    (hOnce : planned.Pairwise fun a b => a.2 ≠ [] → b.2 ≠ [] → ws.tree.locate a.1 ≠ ws.tree.locate b.1)
    (hFits : ∀ p ∈ planned, p.2 ≠ [] → ∃ loc old new, ws.tree.locate p.1 = some loc ∧
      files loc = .text old ∧ Edits.applyAll Char.utf8Size p.2 old = some new) :
    ∃ files', planned.foldlM (editFile ws) files = some files' ∧
      (∀ p ∈ planned, p.2 ≠ [] → ∀ loc old, ws.tree.locate p.1 = some loc → files loc = .text old →
        ∀ new, Edits.applyAll Char.utf8Size p.2 old = some new → files' loc = .text new) ∧
      ∀ loc, (∀ p ∈ planned, p.2 ≠ [] → ws.tree.locate p.1 ≠ some loc) → files' loc = files loc := by
  induction planned generalizing files with
  | nil => exact ⟨files, rfl, fun p hMem => absurd hMem List.not_mem_nil, fun loc _ => rfl⟩
  | cons p planned ih =>
    rw [List.pairwise_cons] at hOnce
    rw [List.forall_mem_cons] at hFits
    rw [List.foldlM_cons]
    by_cases hEdits : p.2 = []
    · have hEdit : editFile ws files p = some files := if_pos hEdits
      obtain ⟨files', hRun, hTexts, hRest⟩ := ih hOnce.2 hFits.2
      rw [hEdit]
      refine ⟨files', hRun, ?_, ?_⟩
      · rw [List.forall_mem_cons]
        exact ⟨fun hNe => absurd hEdits hNe, hTexts⟩
      · intro loc hOther
        exact hRest loc (List.forall_mem_cons.mp hOther).2
    · obtain ⟨loc, old, new, hLoc, hFile, hApply⟩ := hFits.1 hEdits
      have hApart : ∀ q ∈ planned, q.2 ≠ [] → ∀ other, ws.tree.locate q.1 = some other → other ≠ loc := by
        rintro q hMem hNe other hOther rfl
        exact hOnce.1 q hMem hEdits hNe (hLoc.trans hOther.symm)
      have hLater : ∀ q ∈ planned, q.2 ≠ [] → ∃ other old' new', ws.tree.locate q.1 = some other ∧
          Function.update files loc (.text new) other = .text old' ∧
          Edits.applyAll Char.utf8Size q.2 old' = some new' := by
        intro q hMem hNe
        obtain ⟨other, old', new', hOther, hOld', hNew'⟩ := hFits.2 q hMem hNe
        refine ⟨other, old', new', hOther, ?_, hNew'⟩
        rw [Function.update_of_ne (hApart q hMem hNe other hOther)]
        exact hOld'
      obtain ⟨files', hRun, hTexts, hRest⟩ := ih hOnce.2 hLater
      rw [editFile_eq_some hEdits hLoc hFile hApply]
      refine ⟨files', hRun, ?_, ?_⟩
      · rw [List.forall_mem_cons]
        constructor
        · intro _ loc' old' hLoc' hOld' new' hNew'
          obtain rfl := Option.some.inj (hLoc.symm.trans hLoc')
          obtain rfl := Contents.text.inj (hFile.symm.trans hOld')
          obtain rfl := Option.some.inj (hApply.symm.trans hNew')
          rw [hRest loc fun q hMem hNe hEq => hApart q hMem hNe loc hEq rfl, Function.update_self]
        · intro q hMem hNe other old' hOther hOld' new' hNew'
          refine hTexts q hMem hNe other old' hOther ?_ new' hNew'
          rw [Function.update_of_ne (hApart q hMem hNe other hOther)]
          exact hOld'
      · intro other hOther
        rw [List.forall_mem_cons] at hOther
        rw [hRest other hOther.2]
        refine Function.update_of_ne ?_ _ _
        rintro rfl
        exact hOther.1 hEdits hLoc

theorem found_of_locate (hLoc : ws.tree.locate abs = some loc) : Found ws loc.dropLast := by
  obtain ⟨hProper, hPassed⟩ := Directory.locate_reaches hLoc
  exact ⟨hProper.parent, hPassed.parent, hPassed.parent_mem⟩

theorem findsWays_of_once (hDiff : DiffsPaths crates) (hOnce : PlannedOnce ws crates input files)
    (hMem : abs ∈ gatherFiles ws input.targets) (hLoc : ws.tree.locate abs = some loc)
    (hOld : files loc = .text old) (hLink : HasLink ws old) :
    FindsWays ws crates (components abs).dropLast loc.dropLast := by
  by_cases hUp : up ∈ components abs
  · exact hOnce.straight abs hMem hUp loc hLoc old hOld hLink
  · intro rest link _
    rw [Directory.locate_down hLoc hUp]
    exact hDiff _ _ fun hMem => hUp (List.mem_of_mem_dropLast hMem)

theorem replacements_ne_nil (hWays : FindsWays ws crates (components abs).dropLast dir)
    (hLink : HasLink ws text) : replacements ws crates abs text ≠ [] := by
  obtain ⟨link, hMem⟩ := hLink
  rw [replacements_eq hWays]
  exact Edits.edits_ne_nil 0 hMem

theorem runFix_eq (hDiff : DiffsPaths crates) (hOnce : PlannedOnce ws crates input files) :
    ∃ files' result, runFix ws crates input files = some (files', result) ∧
      (∀ loc old, Gathered ws input.targets loc → files loc = .text old →
        files' loc = .text (fixedText ws loc old)) ∧
      ∀ loc, (∀ old, Gathered ws input.targets loc → files loc ≠ .text old) → files' loc = files loc := by
  have hPlanned : ∀ p, p ∈ plannedFiles ws crates input files ↔ ∃ abs ∈ gatherFiles ws input.targets,
      ∃ text, ws.read files abs = some text ∧ (abs, replacements ws crates abs text) = p := by
    intro p
    rw [plannedFiles, List.mem_filterMap]
    refine exists_congr fun abs => and_congr_right fun _ => ?_
    rw [Option.map_eq_some_iff]
  have hApply : ∀ abs ∈ gatherFiles ws input.targets, ∀ loc old, ws.tree.locate abs = some loc →
      files loc = .text old → HasLink ws old → replacements ws crates abs old ≠ [] ∧
        Edits.applyAll Char.utf8Size (replacements ws crates abs old) old = some (fixedText ws loc old) := by
    intro abs hMem loc old hLoc hOld hLink
    have hWays := findsWays_of_once hDiff hOnce hMem hLoc hOld hLink
    exact ⟨replacements_ne_nil hWays hLink, applyAll_replacements hWays old⟩
  have hHas : ∀ {abs old}, replacements ws crates abs old ≠ [] → HasLink ws old := by
    intro abs old hNe
    by_contra hNot
    exact hNe (replacements_nil hNot)
  obtain ⟨files', hRun, hTexts, hOthers⟩ := @foldlM_editFile ws files (plannedFiles ws crates input files)
    (by
      rw [plannedFiles]
      refine List.Pairwise.filterMap _ ?_ hOnce.once
      rintro a b hApart p hP q hQ hNe - hEq
      obtain ⟨old, hOld, rfl⟩ := Option.map_eq_some_iff.mp hP
      obtain ⟨other, -, rfl⟩ := Option.map_eq_some_iff.mp hQ
      exact hApart hEq old hOld (hHas hNe))
    (by
      intro p hMem hNe
      obtain ⟨abs, hAbs, old, hRead, rfl⟩ := (hPlanned p).mp hMem
      obtain ⟨loc, hLoc, hOld⟩ := read_eq_some.mp hRead
      exact ⟨loc, old, _, hLoc, hOld, (hApply abs hAbs loc old hLoc hOld (hHas hNe)).2⟩)
  refine ⟨files', _, by rw [runFix, hRun]; rfl, ?_, ?_⟩
  · rintro loc old ⟨abs, hAbs, hLoc⟩ hOld
    by_cases hLink : HasLink ws old
    · obtain ⟨hNe, hNew⟩ := hApply abs hAbs loc old hLoc hOld hLink
      have hMem := (hPlanned _).mpr ⟨abs, hAbs, old, read_eq_some.mpr ⟨loc, hLoc, hOld⟩, rfl⟩
      exact hTexts _ hMem hNe loc old hLoc hOld _ hNew
    · rw [fixedText_eq_self hLink, ← hOld]
      refine hOthers loc fun p hMem hNe hEq => hLink ?_
      obtain ⟨abs', -, old', hRead, rfl⟩ := (hPlanned p).mp hMem
      obtain ⟨loc', hLoc', hOld'⟩ := read_eq_some.mp hRead
      obtain rfl := Option.some.inj (hEq.symm.trans hLoc')
      obtain rfl := Contents.text.inj (hOld.symm.trans hOld')
      exact hHas hNe
  · intro loc hNot
    refine hOthers loc fun p hMem _ hEq => ?_
    obtain ⟨abs, hAbs, old, hRead, rfl⟩ := (hPlanned p).mp hMem
    obtain ⟨loc', hLoc', hOld⟩ := read_eq_some.mp hRead
    obtain rfl := Option.some.inj (hEq.symm.trans hLoc')
    exact hNot old ⟨abs, hAbs, hEq⟩ hOld

/-- The links of every document can be spliced. -/
def AllSpliceable (ws : Workspace) (input : DocsLinksInput) (files : Files) : Prop :=
  ∀ loc old link, Gathered ws input.targets loc → files loc = .text old →
    Sum.inr link ∈ template ws old → Spliceable ws loc.dropLast link

theorem PlannedOnce.fixed {files' : Files} (hOnce : PlannedOnce ws crates input files)
    (hTexts : ∀ loc old, Gathered ws input.targets loc → files loc = .text old →
      files' loc = .text (fixedText ws loc old))
    (hOthers : ∀ loc, (∀ old, Gathered ws input.targets loc → files loc ≠ .text old) →
      files' loc = files loc) : PlannedOnce ws crates input files' := by
  have hOld : ∀ abs ∈ gatherFiles ws input.targets, ∀ loc, ws.tree.locate abs = some loc →
      ∀ text, files' loc = .text text → HasLink ws text → ∃ old, files loc = .text old ∧ HasLink ws old := by
    intro abs hAbs loc hLoc text hText hLink
    cases hFile : files loc with
    | text old =>
      have hNew := hTexts loc old ⟨abs, hAbs, hLoc⟩ hFile
      rw [hText, Contents.text.injEq] at hNew
      rw [hNew] at hLink
      obtain ⟨link, hMem, -⟩ := hasLink_fixedText.mp hLink
      exact ⟨old, rfl, link, hMem⟩
    | bytes value =>
      have hSame := hOthers loc fun old _ => by rw [hFile]; exact nofun
      rw [hText, hFile] at hSame
      contradiction
  refine ⟨?_, ?_⟩
  · refine List.Pairwise.imp_of_mem ?_ hOnce.once
    intro a b hA _ hApart hEq text hRead hLink
    obtain ⟨loc, hLoc, hText⟩ := read_eq_some.mp hRead
    obtain ⟨old, hFile, hLinkOld⟩ := hOld a hA loc hLoc text hText hLink
    exact hApart hEq old (read_eq_some.mpr ⟨loc, hLoc, hFile⟩) hLinkOld
  · intro abs hAbs hUp loc hLoc text hText hLink
    obtain ⟨old, hFile, hLinkOld⟩ := hOld abs hAbs loc hLoc text hText hLink
    exact hOnce.straight abs hAbs hUp loc hLoc old hFile hLinkOld

theorem fixesLinks_of_spliceable (hDiff : DiffsPaths crates) (hOnce : PlannedOnce ws crates input files)
    (hAll : AllSpliceable ws input files) : FixesLinks ws crates input files := by
  obtain ⟨files', result, hRun, hTexts, hOthers⟩ := runFix_eq hDiff hOnce
  refine ⟨files', result, hRun, ⟨?_, hOthers, ?_⟩⟩
  · intro loc old hGathered hOld
    refine ⟨_, hTexts loc old hGathered hOld, ?_⟩
    obtain ⟨abs, -, hLoc⟩ := id hGathered
    rw [fixedText_iff (found_of_locate hLoc)]
    intro link hMem
    have hSplice := hAll loc old link hGathered hOld hMem
    exact ⟨hSplice.closes, hSplice.hashes, hSplice.backslashes⟩
  · obtain ⟨files'', result', hAgain, hTexts', hOthers'⟩ :=
      runFix_eq hDiff (hOnce.fixed hTexts hOthers)
    have hSame : files'' = files' := by
      funext loc
      by_cases hGathered : ∃ text, Gathered ws input.targets loc ∧ files' loc = .text text
      · obtain ⟨text, hGathered, hText⟩ := hGathered
        rw [hTexts' loc text hGathered hText, hText, fixedText_eq_self]
        intro hLink
        cases hFile : files loc with
        | text old =>
          have hNew := hTexts loc old hGathered hFile
          rw [hText, Contents.text.injEq] at hNew
          rw [hNew] at hLink
          obtain ⟨link, hMem, hInner⟩ := hasLink_fixedText.mp hLink
          exact (hAll loc old link hGathered hFile hMem).inert hInner
        | bytes value =>
          have hKept := hOthers loc fun old _ => by rw [hFile]; exact nofun
          rw [hText, hFile] at hKept
          exact nomatch hKept
      · exact hOthers' loc fun text hGathered' hText => hGathered ⟨text, hGathered', hText⟩
    exact ⟨result', hSame ▸ hAgain⟩

theorem spliceable_of_fixesLinks (hDiff : DiffsPaths crates) (hOnce : PlannedOnce ws crates input files)
    (hFixes : FixesLinks ws crates input files) : AllSpliceable ws input files := by
  obtain ⟨files', result, hRun, hFixed⟩ := hFixes
  obtain ⟨found, result', hFound, hTexts, hOthers⟩ := runFix_eq hDiff hOnce
  obtain rfl : found = files' := congrArg Prod.fst (Option.some.inj (hFound.symm.trans hRun))
  intro loc old link hGathered hOld hMem
  obtain ⟨abs, -, hLoc⟩ := id hGathered
  have hNew := hTexts loc old hGathered hOld
  obtain ⟨new, hText, hFixedText⟩ := hFixed.texts loc old hGathered hOld
  obtain rfl := Contents.text.inj (hNew.symm.trans hText)
  obtain ⟨hCloses, hHashes, hBackslashes⟩ := (fixedText_iff (found_of_locate hLoc) old).mp hFixedText link hMem
  refine ⟨hCloses, hHashes, hBackslashes, fun hInner => ?_⟩
  obtain ⟨again, result'', hAgain, hTexts', -⟩ := runFix_eq hDiff (hOnce.fixed hTexts hOthers)
  obtain ⟨last, hLast⟩ := hFixed.again
  obtain rfl : again = found := congrArg Prod.fst (Option.some.inj (hAgain.symm.trans hLast))
  have hSame := Contents.text.inj ((hTexts' loc _ hGathered hNew).symm.trans hNew)
  exact not_hasLink_of_fixedText_eq hSame (hasLink_fixedText.mpr ⟨link, hMem, hInner⟩)

/-- Documents that are planned once are fixed right exactly when all their links can be spliced. -/
theorem fixesLinks_iff_spliceable (hDiff : DiffsPaths crates) (hOnce : PlannedOnce ws crates input files) :
    FixesLinks ws crates input files ↔ AllSpliceable ws input files :=
  ⟨spliceable_of_fixesLinks hDiff hOnce, fixesLinks_of_spliceable hDiff hOnce⟩

/-! ## A workspace with two documents -/

def smallTree : Tree where
  dirs := [[], ["w".toList], ["w".toList, "docs".toList], ["w".toList, "docs".toList, "agent-context".toList]]
  files := [["w".toList, "docs".toList, "a.md".toList], ["w".toList, "docs".toList, "b.md".toList],
    ["w".toList, "docs".toList, "agent-context".toList, "epochs.sql".toList]]
  root_mem := List.mem_cons_self

def smallWorkspace : Workspace := ⟨['/', 'w'], rfl, smallTree, none⟩

def plainCrates : Crates := ⟨fun target base => some (relative target base), fun _ => [], fun _ => []⟩

def smallDocument : Loc := ["w".toList, "docs".toList, "a.md".toList]

def smallFiles : Files := fun loc =>
  if loc = smallDocument then .text "(exo:context/plan)".toList
  else if loc = ["w".toList, "docs".toList, "b.md".toList] then .text "see (exo:context/plan#now)".toList
  else .bytes []

def smallInput (paths : List String) : DocsLinksInput := ⟨⟨paths.map String.toList, []⟩, true⟩

theorem gatherFiles_small : gatherFiles smallWorkspace (smallInput ["docs/a.md", "docs/b.md"]).targets =
    ["/w/docs/a.md".toList, "/w/docs/b.md".toList] := by decide +kernel

theorem fixesLinks_iff_spliceable_small :
    FixesLinks smallWorkspace plainCrates (smallInput ["docs/a.md", "docs/b.md"]) smallFiles ↔
      AllSpliceable smallWorkspace (smallInput ["docs/a.md", "docs/b.md"]) smallFiles := by
  refine fixesLinks_iff_spliceable (fun _ _ _ => rfl) ⟨?_, ?_⟩
  · rw [gatherFiles_small]
    refine List.pairwise_pair.mpr fun hSame => absurd hSame ?_
    decide +kernel
  · rw [gatherFiles_small]
    intro abs hMem hUp
    have hStraight : ∀ abs ∈ ["/w/docs/a.md".toList, "/w/docs/b.md".toList], up ∉ components abs := by
      decide +kernel
    exact absurd hUp (hStraight abs hMem)

/-- A document that is named in two spellings gets the planned ranges twice. -/
theorem twice_planned_spoils :
    ¬ FixesLinks smallWorkspace plainCrates (smallInput ["docs/a.md", "docs//a.md"]) smallFiles := by
  rintro ⟨files', result, hRun, hFixed⟩
  have hText : (runFix smallWorkspace plainCrates (smallInput ["docs/a.md", "docs//a.md"]) smallFiles).map
      (fun run => run.1 smallDocument) =
        some (.text "(agent-context/epochs.sql)chs.sql)".toList) := by decide +kernel
  have hGathered : Gathered smallWorkspace (smallInput ["docs/a.md", "docs//a.md"]).targets smallDocument :=
    ⟨"/w/docs/a.md".toList, by decide +kernel, by decide +kernel⟩
  obtain ⟨new, hNew, hReads⟩ := hFixed.texts smallDocument "(exo:context/plan)".toList hGathered rfl
  rw [hRun, Option.map_some, Option.some.injEq] at hText
  rw [Contents.text.inj (hNew.symm.trans hText)] at hReads
  revert hReads
  rw [FixedText]
  decide +kernel

end Exosuit.Docs
