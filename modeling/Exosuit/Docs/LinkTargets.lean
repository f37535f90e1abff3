import Exosuit.Docs.Links
import Mathlib.Data.List.TakeWhile

/-!
# The targets of links

What a link resolves to exists, and the way to it is never spelled as the link itself.
-/

namespace Exosuit.Docs

open Lib
open Lib.Directory (Tree Loc relative shared)
open Lib.Path (Name components up significant separator)

variable {ws : Workspace} {path base rest uri target : Str} {name : Name} {names dir : List Name}

/-! ## Components -/

theorem pieces_slash (a b : Str) : Text.pieces separator 0 (a ++ '/' :: b) =
    Text.pieces separator 0 a ++ Text.pieces separator 0 b := by
  induction a with
  | nil => exact Path.pieces_cons '/' b
  | cons c a ih =>
    obtain ⟨first, more, hPieces⟩ := List.exists_cons_of_ne_nil (Text.pieces_ne_nil separator 0 a)
    rw [List.cons_append, Path.pieces_cons, Path.pieces_cons, ih, hPieces]
    split
    · rfl
    · rfl

theorem components_slash_append (a b : Str) :
    components (a ++ '/' :: b) = components a ++ components b := by
  rw [components, components, components, pieces_slash, List.filter_append]

theorem components_joinPath (base path : Str) : components (joinPath base path) =
    if isAbsolute path then components path else components base ++ components path := by
  rw [joinPath]
  split
  · rfl
  · split
    · next hBase =>
      rcases hBase with rfl | hLast
      · rfl
      · obtain ⟨front, rfl⟩ := List.getLast?_eq_some_iff.mp hLast
        rw [List.append_assoc, List.singleton_append, components_slash_append,
          Path.components_concat_slash]
    · exact components_slash_append base path

theorem components_join_flatMap (names : List Str) : components (Path.join names) = names.flatMap components := by
  induction names with
  | nil => rfl
  | cons name names ih =>
    rw [Path.join, Text.intercalate_cons, List.flatMap_cons, ← ih]
    split
    · next hNil =>
      rw [hNil, List.append_nil]
      exact (List.append_nil _).symm
    · exact components_slash_append _ _

theorem components_piece (h : '/' ∉ name) : components name = [name].filter significant := by
  rw [components, separator, Text.pieces_of_not_mem h]

theorem flatMap_components_pieces (names : List Name) (h : ∀ name ∈ names, '/' ∉ name) :
    names.flatMap components = names.filter significant := by
  induction names with
  | nil => rfl
  | cons name names ih =>
    rw [List.forall_mem_cons] at h
    rw [List.flatMap_cons, ih h.2, components_piece h.1, ← List.filter_append, List.singleton_append]

theorem slash_not_mem_of_component (h : name ∈ components path) : '/' ∉ name :=
  Path.pieces_free path name (List.mem_filter.mp h).1

theorem slashes_join (names : List Str) : slashes (Path.join names) = Path.join (names.map slashes) := by
  induction names with
  | nil => rfl
  | cons name names ih =>
    rw [List.map_cons, Path.join, Path.join, Text.intercalate_cons, Text.intercalate_cons]
    by_cases hNil : names = []
    · rw [if_pos hNil, if_pos (by rw [hNil, List.map_nil]), List.append_nil, List.append_nil]
    · rw [if_neg hNil, if_neg (by rwa [List.map_eq_nil_iff]), slashes, List.map_append, List.map_append]
      exact congrArg (fun tail => slashes name ++ (separator ++ tail)) ih

theorem components_slashes (path : Str) : components (slashes path) =
    (components path).flatMap fun name => components (slashes name) := by
  have hIdle : ∀ name : Name, '/' ∉ name → components (slashes name) =
      ([name].filter significant).flatMap fun name => components (slashes name) := by
    intro name hName
    by_cases hSignificant : significant name = true
    · rw [List.filter_cons_of_pos hSignificant]
      simp
    · rw [List.filter_cons_of_neg hSignificant]
      rw [significant, Bool.and_eq_true, not_and_or, bne_iff_ne, bne_iff_ne, not_not, not_not] at hSignificant
      rcases hSignificant with rfl | rfl
      · rfl
      · rfl
  have hNames : ∀ names : List Name, (∀ name ∈ names, '/' ∉ name) →
      (names.map slashes).flatMap components =
        (names.filter significant).flatMap fun name => components (slashes name) := by
    intro names hNames
    induction names with
    | nil => rfl
    | cons name names ih =>
      rw [List.forall_mem_cons] at hNames
      rw [List.map_cons, List.flatMap_cons, ih hNames.2, hIdle name hNames.1, ← List.flatMap_append,
        ← List.filter_append, List.singleton_append]
  calc components (slashes path)
      = components (Path.join ((Text.pieces separator 0 path).map slashes)) := by
        rw [← slashes_join, Path.join_pieces]
    _ = _ := by rw [components_join_flatMap, hNames _ (Path.pieces_free path), components]

/-! ## Letters -/

/-- Neither slashes nor dots. -/
def isLetter (c : Char) : Bool := c != '/' && c != '.' && c != '\\'

def letters (text : Str) : Nat := text.countP isLetter

def lettersOf (names : List Name) : Nat := (names.map letters).sum

theorem letters_append (a b : Str) : letters (a ++ b) = letters a + letters b := List.countP_append

theorem letters_cons (c : Char) (a : Str) : letters (c :: a) = letters a + if isLetter c then 1 else 0 :=
  List.countP_cons

theorem lettersOf_append (a b : List Name) : lettersOf (a ++ b) = lettersOf a + lettersOf b := by
  rw [lettersOf, lettersOf, lettersOf, List.map_append, List.sum_append]

theorem lettersOf_cons (a : Name) (b : List Name) : lettersOf (a :: b) = letters a + lettersOf b := by
  rw [lettersOf, lettersOf, List.map_cons, List.sum_cons]

theorem letters_slashes (text : Str) : letters (slashes text) = letters text := by
  induction text with
  | nil => rfl
  | cons c text ih =>
    rw [slashes, List.map_cons, letters_cons, letters_cons, ← ih, slashes]
    split
    · next hSlash => rw [hSlash]; rfl
    · rfl

theorem letters_join (names : List Name) : letters (Path.join names) = lettersOf names := by
  induction names with
  | nil => rfl
  | cons name names ih =>
    rw [Path.join, Text.intercalate_cons, lettersOf_cons, ← ih]
    split
    · next hNil => rw [hNil, List.append_nil]; rfl
    · rw [letters_append, letters_append]
      exact congrArg (letters name + ·) (Nat.zero_add _)

theorem lettersOf_filter (names : List Name) : lettersOf (names.filter significant) = lettersOf names := by
  induction names with
  | nil => rfl
  | cons name names ih =>
    by_cases h : significant name = true
    · rw [List.filter_cons_of_pos h, lettersOf_cons, lettersOf_cons, ih]
    · rw [List.filter_cons_of_neg h, lettersOf_cons, ih]
      rw [significant, Bool.and_eq_true, not_and_or, bne_iff_ne, bne_iff_ne, not_not, not_not] at h
      rcases h with rfl | rfl
      · exact (Nat.zero_add _).symm
      · exact (Nat.zero_add _).symm

theorem lettersOf_components (path : Str) : lettersOf (components path) = letters path := by
  rw [components, lettersOf_filter, ← letters_join, Path.join_pieces]

theorem lettersOf_le_drop (names : List Name) (n : Nat) : lettersOf (names.drop n) ≤ lettersOf names := by
  have hSplit := lettersOf_append (names.take n) (names.drop n)
  rw [List.take_append_drop] at hSplit
  omega

theorem lettersOf_ups (n : Nat) : lettersOf (List.replicate n up) = 0 := by
  induction n with
  | zero => rfl
  | succ n ih => rw [List.replicate_succ, lettersOf_cons, ih]; rfl

theorem letters_relative (names dir : List Name) : letters (slashes (Path.join (relative names dir))) =
    lettersOf (names.drop (shared names dir)) := by
  rw [letters_slashes, letters_join, relative, lettersOf_append, lettersOf_ups, Nat.zero_add]

theorem lettersOf_drop (front tail : List Name) (hName : 4 ≤ letters name) (n : Nat) :
    lettersOf ((front ++ [name] ++ tail).drop n) ≤ lettersOf tail ∨
      lettersOf tail + 4 ≤ lettersOf ((front ++ [name] ++ tail).drop n) := by
  rcases Nat.lt_or_ge front.length n with h | h
  · left
    have hLength : (front ++ [name]).length ≤ n := by
      rw [List.length_append, List.length_singleton]
      exact h
    rw [List.drop_append, List.drop_eq_nil_of_le hLength, List.nil_append]
    exact lettersOf_le_drop _ _
  · right
    rw [List.append_assoc, List.drop_append_of_le_length h, lettersOf_append, List.singleton_append,
      lettersOf_cons]
    omega

/-! ## File names -/

theorem stemAndExtension_none (h : (stemAndExtension name).2 = none) : (stemAndExtension name).1 = name := by
  rw [stemAndExtension] at h ⊢
  split
  · rfl
  · next hBefore =>
    rw [if_neg hBefore] at h
    exact nomatch h

theorem stemAndExtension_some {ext : Str} (h : (stemAndExtension name).2 = some ext) : ext <:+ name := by
  rw [stemAndExtension] at h
  split at h
  · exact nomatch h
  · rw [Option.some.injEq] at h
    rw [← h]
    have hPrefix := List.takeWhile_prefix (l := name.reverse) (decide <| · ≠ '.')
    exact List.reverse_prefix.mp (by rwa [List.reverse_reverse])

theorem significant_append (h : significant name = true) (ext : Str) :
    significant (name ++ '.' :: ext) = true := by
  rw [significant, Bool.and_eq_true, bne_iff_ne, bne_iff_ne] at h ⊢
  obtain ⟨c, name, rfl⟩ := List.exists_cons_of_ne_nil h.1
  refine ⟨List.cons_ne_nil _ _, ?_⟩
  intro hHere
  have hLength := congrArg List.length hHere
  simp [Path.here] at hLength

theorem significant_of_dropWhile {front : List Name}
    (h : names.dropWhile (fun name => !significant name) = name :: front) : significant name = true := by
  have hHead := List.head?_dropWhile_not (fun name => !significant name) names
  rw [h] at hHead
  simpa using hHead

theorem filter_dropWhile_idle (names : List Name) :
    (names.dropWhile fun name => !significant name).filter significant = names.filter significant := by
  induction names with
  | nil => rfl
  | cons name names ih =>
    by_cases hName : significant name = true
    · rw [List.dropWhile_cons_of_neg (by rw [hName]; exact Bool.false_ne_true)]
    · rw [List.dropWhile_cons_of_pos (by rw [Bool.not_eq_true] at hName; rw [hName]; rfl), ih,
        List.filter_cons_of_neg hName]

theorem components_setExtension (h : extension path = none) (ext : Str) (hExt : '/' ∉ ext) :
    setExtension path ext = path ∨ ∃ front name, components path = front ++ [name] ∧
      components (setExtension path ext) = front ++ [name ++ '.' :: ext] := by
  have hFree := Path.pieces_free path
  have hShape : components path =
      (((Text.pieces separator 0 path).reverse.dropWhile fun name => !significant name).filter
        significant).reverse := by
    rw [filter_dropWhile_idle, List.filter_reverse, List.reverse_reverse, components]
  rw [setExtension]
  split
  · exact Or.inl rfl
  · next name front hFound =>
    split
    · exact Or.inl rfl
    · next hUp =>
      right
      have hName := significant_of_dropWhile hFound
      have hMem : ∀ other ∈ name :: front, '/' ∉ other := by
        intro other hOther
        rw [← hFound] at hOther
        exact hFree other (List.mem_reverse.mp ((List.dropWhile_suffix _).mem hOther))
      rw [List.forall_mem_cons] at hMem
      rw [hFound, List.filter_cons_of_pos hName, List.reverse_cons] at hShape
      have hStem : (stemAndExtension name).1 = name := by
        rw [extension, fileName, hShape, List.getLast?_concat, Option.filter_some,
          if_pos (decide_eq_true hUp), Option.bind_some] at h
        exact stemAndExtension_none h
      refine ⟨_, name, hShape, ?_⟩
      rw [hStem, List.reverse_cons, components_join_flatMap, List.flatMap_append,
        flatMap_components_pieces _ (fun other hOther => hMem.2 other (List.mem_reverse.mp hOther)),
        List.flatMap_singleton, List.filter_reverse, components_piece]
      · rw [List.filter_cons_of_pos (significant_append hName ext)]
        rfl
      · rw [List.mem_append, List.mem_cons, not_or, not_or]
        exact ⟨hMem.1, by decide, hExt⟩

theorem isAbsolute_join (names : List Name) : isAbsolute (Path.join ([] :: names)) = true ↔ names ≠ [] := by
  rw [Path.join, Text.intercalate_cons]
  split
  · next h => simp [h, isAbsolute]
  · next h => simp [h, isAbsolute, separator]

theorem isAbsolute_setExtension (h : isAbsolute path = true) (ext : Str) :
    isAbsolute (setExtension path ext) = true := by
  obtain ⟨path, rfl⟩ : ∃ rest, path = '/' :: rest := List.head?_eq_some_iff.mp (eq_of_beq h)
  rw [setExtension]
  split
  · exact h
  · next name front hFound =>
    split
    · exact h
    · have hPrefix : front.reverse ++ [name] <+: [] :: Text.pieces separator 0 path := by
        rw [← List.reverse_cons, ← hFound]
        refine List.reverse_suffix.mp ?_
        rw [List.reverse_reverse, Path.pieces_cons, if_pos rfl]
        exact List.dropWhile_suffix _
      have hName : name ≠ [] := by
        rintro rfl
        exact Bool.false_ne_true (significant_of_dropWhile hFound)
      rw [List.reverse_cons]
      cases hFront : front.reverse with
      | nil =>
        rw [hFront, List.nil_append, List.cons_prefix_cons] at hPrefix
        exact absurd hPrefix.1 hName
      | cons first more =>
        rw [hFront, List.cons_append, List.cons_prefix_cons] at hPrefix
        rw [hPrefix.1, List.cons_append, isAbsolute_join]
        exact List.append_ne_nil_of_right_ne_nil _ (List.cons_ne_nil _ _)

/-! ## Specifications -/

theorem letters_setExtension (h : extension path = none) :
    letters path ≤ letters (setExtension path mdExtension) ∧
      letters (setExtension path mdExtension) ≤ letters path + 2 := by
  rw [← lettersOf_components path, ← lettersOf_components (setExtension path mdExtension)]
  rcases components_setExtension h mdExtension (by decide) with hEq | ⟨front, name, hPath, hSet⟩
  · rw [hEq]
    omega
  · have hExt : letters ('.' :: mdExtension) = 2 := rfl
    rw [hPath, hSet, lettersOf_append, lettersOf_append, lettersOf_cons, lettersOf_cons, letters_append,
      hExt]
    omega

/-- The names in front of a specification stay, whatever extension it gets. -/
theorem components_specPath {dir : Str} {front : List Name} {last : Name}
    (hDir : components dir = front ++ [last]) (hRest : isAbsolute rest = false) :
    ∃ tail, components (specPath dir rest) = front ++ tail ∧
      letters last + letters rest ≤ lettersOf tail ∧ lettersOf tail ≤ letters last + letters rest + 2 := by
  have hJoined : components (joinPath dir rest) = front ++ last :: components rest := by
    rw [components_joinPath, if_neg (by rw [hRest]; exact Bool.false_ne_true), hDir, List.append_assoc,
      List.singleton_append]
  have hLetters : lettersOf (last :: components rest) = letters last + letters rest := by
    rw [lettersOf_cons, lettersOf_components]
  rw [specPath]
  split
  · next hNone =>
    rcases components_setExtension hNone mdExtension (by decide) with hEq | ⟨front', name, hPath, hSet⟩
    · rw [hEq, hJoined]
      exact ⟨_, rfl, by omega, by omega⟩
    · obtain ⟨more, hMore⟩ : ∃ more, last :: components rest = more ++ [name] ∧ front' = front ++ more := by
        have hLast := List.dropLast_append_getLast (List.cons_ne_nil last (components rest))
        rw [hJoined, ← hLast, ← List.append_assoc] at hPath
        obtain ⟨hFront, hName⟩ := List.append_inj' hPath rfl
        rw [List.cons_eq_cons] at hName
        exact ⟨_, by rw [← hName.1, hLast], hFront.symm⟩
      rw [hMore.1, lettersOf_append, lettersOf_cons] at hLetters
      have hExt : letters ('.' :: mdExtension) = 2 := rfl
      refine ⟨more ++ [name ++ '.' :: mdExtension], ?_, ?_, ?_⟩
      · rw [hSet, hMore.2, List.append_assoc]
      · rw [lettersOf_append, lettersOf_cons, letters_append, hExt]
        omega
      · rw [lettersOf_append, lettersOf_cons, letters_append, hExt]
        omega
  · exact ⟨_, hJoined, by omega, by omega⟩

theorem components_specDirs : ∀ dir ∈ specDirs, ∃ front name last, components dir = front ++ [name] ++ [last] ∧
    4 ≤ letters name ∧ letters last = 5 := by
  intro dir hMem
  rw [specDirs, List.mem_cons, List.mem_singleton] at hMem
  rcases hMem with rfl | rfl
  · exact ⟨[], "docs".toList, "specs".toList, by decide +kernel, by decide +kernel, by decide +kernel⟩
  · exact ⟨["docs".toList], "agent-context".toList, "specs".toList, by decide +kernel, by decide +kernel,
      by decide +kernel⟩

theorem resolveSpec_ok (h : resolveSpec ws rest = .ok target) : ws.tree.isFile target = true ∧
    ∃ dir ∈ specDirs, target = joinPath ws.root (specPath dir rest) := by
  rw [resolveSpec] at h
  split at h
  · next abs hFound =>
    rw [Except.ok.injEq] at h
    rw [← h]
    refine ⟨List.find?_some hFound, ?_⟩
    obtain ⟨dir, hDir, hAbs⟩ := List.mem_map.mp (List.mem_of_find?_eq_some hFound)
    exact ⟨dir, hDir, hAbs.symm⟩
  · exact nomatch h

theorem letters_spec_ne (h : resolveSpec ws rest = .ok target) (n : Nat) :
    lettersOf ((components target).drop n) ≠ letters rest + 8 := by
  obtain ⟨-, dir, hDir, rfl⟩ := resolveSpec_ok h
  by_cases hRest : isAbsolute rest = true
  · have hJoin : joinPath dir rest = rest := if_pos hRest
    have hBounds : letters (specPath dir rest) ≤ letters rest + 2 ∧ isAbsolute (specPath dir rest) = true := by
      rw [specPath, hJoin]
      split
      · next hNone => exact ⟨(letters_setExtension hNone).2, isAbsolute_setExtension hRest _⟩
      · exact ⟨Nat.le_add_right _ _, hRest⟩
    rw [components_joinPath, if_pos hBounds.2]
    have hDrop := lettersOf_le_drop (components (specPath dir rest)) n
    rw [lettersOf_components] at hDrop
    omega
  · rw [Bool.not_eq_true] at hRest
    obtain ⟨front, name, last, hShape, hName, hLast⟩ := components_specDirs dir hDir
    obtain ⟨tail, hTail, hLow, hHigh⟩ := components_specPath hShape hRest
    obtain ⟨front', hFront⟩ : ∃ front', components (joinPath ws.root (specPath dir rest)) =
        front' ++ [name] ++ tail := by
      rw [components_joinPath, hTail]
      split
      · exact ⟨front, rfl⟩
      · exact ⟨components ws.root ++ front, by simp⟩
    rw [hFront]
    rcases lettersOf_drop front' tail hName n with hDrop | hDrop
    · omega
    · omega

/-! ## Proposals and context files -/

theorem resolveRfc_ok (h : resolveRfc ws rest = .ok target) : ws.tree.isFile target = true ∧
    (∃ n, parseU32 rest = some n) ∧ extension target = some mdExtension := by
  rw [resolveRfc] at h
  split at h
  · exact nomatch h
  · next n hParse =>
    dsimp only at h
    split at h
    · exact nomatch h
    · split at h
      · exact nomatch h
      · next path hFound =>
        rw [Except.ok.injEq] at h
        rw [← h]
        have hRfc : isRfc ws.tree n path = true :=
          (List.mem_filter.mp (hFound ▸ List.mem_singleton_self path)).2
        rw [isRfc, Bool.and_eq_true, Bool.and_eq_true] at hRfc
        exact ⟨hRfc.1.1, ⟨n, hParse⟩, eq_of_beq hRfc.1.2⟩
      · exact nomatch h

theorem getLast?_of_parseU32 {n : Nat} (h : parseU32 rest = some n) :
    ∃ c, rest.getLast? = some c ∧ c.isDigit = true := by
  rw [parseU32, Option.filter_eq_some_iff, Text.parseUsize, String.toList_ofList] at h
  dsimp only at h
  have hDigits : ∀ digits : Str, (digits ≠ [] ∧ digits.all Char.isDigit) →
      ∃ c, digits.getLast? = some c ∧ c.isDigit = true := by
    rintro digits ⟨hNe, hAll⟩
    exact ⟨_, List.getLast?_eq_some_getLast hNe, List.all_eq_true.mp hAll _ (List.getLast_mem hNe)⟩
  have hCond := h.1
  split at hCond
  · next digits =>
    split at hCond
    · next hDigit =>
      obtain ⟨c, hLast, hC⟩ := hDigits _ hDigit
      exact ⟨c, by rw [List.getLast?_cons, hLast]; rfl, hC⟩
    · exact nomatch hCond
  · split at hCond
    · next hDigit => exact hDigits _ hDigit
    · exact nomatch hCond

theorem getLast?_of_extension {ext : Str} {c : Char} (h : extension path = some ext)
    (hLast : ext.getLast? = some c) :
    ∃ name, (components path).getLast? = some name ∧ name.getLast? = some c := by
  rw [extension, Option.bind_eq_some_iff] at h
  obtain ⟨name, hName, hExt⟩ := h
  rw [fileName, Option.filter_eq_some_iff] at hName
  obtain ⟨front, rfl⟩ := stemAndExtension_some hExt
  refine ⟨_, hName.1, ?_⟩
  rw [List.getLast?_append, hLast]
  rfl

theorem filter_dropComponents (n : Nat) (names : List Name) :
    (dropComponents n names).filter significant = (names.filter significant).drop n := by
  induction names generalizing n with
  | nil => cases n <;> rw [List.filter_nil, List.drop_nil] <;> rfl
  | cons name names ih =>
    cases n with
    | zero => rfl
    | succ n =>
      rw [dropComponents]
      split
      · next h => rw [List.filter_cons_of_pos h, List.drop_succ_cons, ih]
      · next h => rw [List.filter_cons_of_neg h, ih]

theorem dropComponents_subset (n : Nat) (names : List Name) : dropComponents n names ⊆ names := by
  induction names generalizing n with
  | nil => cases n <;> exact List.Subset.refl _
  | cons name names ih =>
    cases n with
    | zero => exact List.Subset.refl _
    | succ n =>
      rw [dropComponents]
      split
      · exact List.subset_cons_of_subset _ (ih n)
      · exact List.subset_cons_of_subset _ (ih (n + 1))

theorem components_stripPrefix (h : stripPrefix base path = some rest) :
    components base <+: components path ∧
      components rest = (components path).drop (components base).length := by
  rw [stripPrefix] at h
  split at h
  · next hStarts =>
    rw [startsWith, Bool.and_eq_true] at hStarts
    refine ⟨List.isPrefixOf_iff_prefix.mp hStarts.2, ?_⟩
    rw [Option.some.injEq] at h
    rw [← h, components_join_flatMap, flatMap_components_pieces, List.filter_reverse,
      filter_dropWhile_idle, List.filter_reverse, List.reverse_reverse, filter_dropWhile_idle,
      filter_dropComponents]
    · rfl
    · intro name hMem
      have hMem := (List.dropWhile_suffix _).mem (List.mem_reverse.mp hMem)
      have hMem := (List.dropWhile_suffix _).mem (List.mem_reverse.mp hMem)
      exact Path.pieces_free path name (dropComponents_subset _ _ hMem)
  · exact nomatch h

theorem eq_nil_of_stripPrefix (h : stripPrefix base path = some rest) (hNil : components rest = []) :
    rest = [] := by
  have hDrop : (dropComponents (components base).length (Text.pieces separator 0 path)).filter significant =
      [] := by
    rw [filter_dropComponents, ← hNil, (components_stripPrefix h).2]
    rfl
  rw [stripPrefix] at h
  split at h
  · rw [Option.some.injEq] at h
    have hIdle : ((dropComponents (components base).length (Text.pieces separator 0 path)).dropWhile
        fun name => !significant name) = [] := by
      rw [List.dropWhile_eq_nil_iff]
      intro name hMem
      have hName := List.filter_eq_nil_iff.mp hDrop name hMem
      rw [Bool.not_eq_true] at hName
      rw [hName]
      rfl
    rw [← h, hIdle]
    rfl
  · exact nomatch h

theorem contextFiles_names : ∀ file ∈ contextFiles,
    file.2.getLast? = some 'l' ∧ isAbsolute file.2 = false ∧ components file.2 = [file.2] ∧
      components (slashes file.2) = [file.2] ∧
      file.1.getLast?.any (fun c => c == 'n' || c == 's') = true := by
  intro file hMem
  simp only [contextFiles, List.mem_cons, List.not_mem_nil, or_false] at hMem
  rcases hMem with rfl | rfl | rfl | rfl <;>
    exact ⟨by decide +kernel, by decide +kernel, by decide +kernel, by decide +kernel, by decide +kernel⟩

theorem resolveContext_ok (h : resolveContext ws rest = .ok target) : ws.tree.exists_ target = true ∧
    ∃ dir, ∃ file ∈ contextFiles, file.1 = rest ∧
      target = joinPath ws.root (contextPathString ws (joinPath dir file.2)) := by
  rw [resolveContext] at h
  split at h
  · exact nomatch h
  · next path hPath =>
    dsimp only at h
    split at h
    · exact nomatch h
    · next hExists =>
      split at h
      · exact nomatch h
      · rw [Except.ok.injEq] at h
        have hMem : (rest, path) ∈ contextPaths ws := by
          obtain ⟨front, tail, hSplit, -⟩ := List.lookup_eq_some_iff.mp hPath
          rw [hSplit]
          exact List.mem_append_right _ List.mem_cons_self
        rw [contextPaths] at hMem
        split at hMem
        · exact absurd hMem List.not_mem_nil
        · next dir hDir =>
          obtain ⟨file, hFile, hEq⟩ := List.mem_map.mp hMem
          rw [Prod.mk.injEq] at hEq
          refine ⟨by rw [← h]; exact Bool.eq_true_of_not_eq_false hExists, dir, file, hFile, hEq.1, ?_⟩
          rw [hEq.2, h]

theorem getLast?_context {dir file : Str} (hAbsolute : isAbsolute file = false)
    (hFile : components file = [file]) (hSlashes : components (slashes file) = [file]) :
    (components (joinPath ws.root (contextPathString ws (joinPath dir file)))).getLast? = some file := by
  have hJoined : components (joinPath dir file) = components dir ++ [file] := by
    rw [components_joinPath, hAbsolute, if_neg Bool.false_ne_true, hFile]
  have hEnds : ∀ path : Str, (components path).getLast? = some file →
      (components (joinPath ws.root (slashes path))).getLast? = some file := by
    intro path hPath
    obtain ⟨front, hFront⟩ := List.getLast?_eq_some_iff.mp hPath
    have hLast : components (slashes path) =
        (front.flatMap fun name => components (slashes name)) ++ [file] := by
      rw [components_slashes, hFront, List.flatMap_append, List.flatMap_singleton, hSlashes]
    rw [components_joinPath, hLast]
    split
    · exact List.getLast?_concat
    · rw [← List.append_assoc]
      exact List.getLast?_concat
  rw [contextPathString]
  cases hStrip : stripPrefix ws.root (joinPath dir file) with
  | none =>
    refine hEnds _ ?_
    rw [Option.getD_none, hJoined]
    exact List.getLast?_concat
  | some rest =>
    rw [Option.getD_some]
    obtain ⟨hPrefix, hRest⟩ := components_stripPrefix hStrip
    rw [hJoined] at hPrefix hRest
    rcases Nat.lt_or_ge (components dir).length (components ws.root).length with hLength | hLength
    · have hRoot : components ws.root = components dir ++ [file] := by
        refine hPrefix.eq_of_length ?_
        have := hPrefix.length_le
        rw [List.length_append, List.length_singleton] at this ⊢
        omega
      have hNil : components rest = [] := by rw [hRest, hRoot, List.drop_length]
      rw [eq_nil_of_stripPrefix hStrip hNil, components_joinPath]
      exact (congrArg List.getLast? (List.append_nil _)).trans (hRoot ▸ List.getLast?_concat)
    · refine hEnds rest ?_
      rw [hRest, List.drop_append_of_le_length hLength]
      exact List.getLast?_concat

/-! ## The way to a target -/

theorem getLast?_slashes {c : Char} (h : path.getLast? = some c) (hC : c ≠ '\\') :
    (slashes path).getLast? = some c := by
  rw [slashes, List.getLast?_map, h, Option.map_some, if_neg hC]

theorem getLast?_join {c : Char} (names : List Name) (h : name.getLast? = some c) :
    (Path.join (names ++ [name])).getLast? = some c := by
  induction names with
  | nil =>
    rw [List.nil_append, Path.join, Text.intercalate_cons, if_pos rfl, List.append_nil]
    exact h
  | cons first names ih =>
    rw [List.cons_append, Path.join, Text.intercalate_cons,
      if_neg (List.append_ne_nil_of_right_ne_nil _ (List.cons_ne_nil _ _)), List.getLast?_append,
      List.getLast?_append]
    rw [Path.join] at ih
    rw [ih, Option.some_or, Option.some_or]

/-- A way ends as its target does, when it has any letters. -/
theorem getLast?_relative {c : Char} (hName : names.getLast? = some name) (hLast : name.getLast? = some c)
    (hC : c ≠ '\\') (hLetters : letters (slashes (Path.join (relative names dir))) ≠ 0) :
    (slashes (Path.join (relative names dir))).getLast? = some c := by
  rw [letters_relative] at hLetters
  refine getLast?_slashes ?_ hC
  obtain ⟨front, rfl⟩ := List.getLast?_eq_some_iff.mp hName
  rcases Nat.lt_or_ge front.length (shared (front ++ [name]) dir) with hLength | hLength
  · rw [List.drop_eq_nil_of_le (by rw [List.length_append]; exact hLength)] at hLetters
    exact absurd rfl hLetters
  · rw [relative, List.drop_append_of_le_length hLength, ← List.append_assoc]
    exact getLast?_join _ hLast

/-- What stands before the target of a link: the scheme and perhaps two slashes. -/
def IsLead (lead : Str) : Prop := lead = [] ∨ lead = ['/', '/']

def scheme : Str := ['e', 'x', 'o', ':']

theorem letters_lead {lead : Str} (h : IsLead lead) : letters lead = 0 := by
  rcases h with rfl | rfl
  · rfl
  · rfl

theorem resolveExoUri_ok (h : resolveExoUri ws uri = .ok target) : ∃ kind rest, uri = kind ++ '/' :: rest ∧
    (kind = rfcKind ∧ resolveRfc ws rest = .ok target ∨
      kind = contextKind ∧ resolveContext ws rest = .ok target ∨
      kind = specKind ∧ resolveSpec ws rest = .ok target) := by
  rw [resolveExoUri] at h
  split at h
  · exact nomatch h
  · next kind rest hSplit =>
    have hUri := ((Text.splitOnceList_eq_some (List.cons_ne_nil _ _)).mp hSplit).1
    rw [List.append_assoc, List.singleton_append] at hUri
    refine ⟨kind, rest, hUri, ?_⟩
    split at h
    · next hKind => exact Or.inl ⟨hKind, h⟩
    · split at h
      · next hKind => exact Or.inr (Or.inl ⟨hKind, h⟩)
      · split at h
        · next hKind => exact Or.inr (Or.inr ⟨hKind, h⟩)
        · exact nomatch h

/-- A link leads to something that exists. -/
theorem isSome_locate_of_resolve (h : resolveExoUri ws uri = .ok target) :
    (ws.tree.locate target).isSome = true := by
  have hFile : ws.tree.isFile target = true → (ws.tree.locate target).isSome = true := by
    intro hFile
    rw [Tree.isFile] at hFile
    cases hLocate : ws.tree.locate target with
    | none =>
      rw [hLocate] at hFile
      exact nomatch hFile
    | some loc => rfl
  obtain ⟨kind, rest, -, ⟨-, h⟩ | ⟨-, h⟩ | ⟨-, h⟩⟩ := resolveExoUri_ok h
  · exact hFile (resolveRfc_ok h).1
  · exact (resolveContext_ok h).1
  · exact hFile (resolveSpec_ok h).1

theorem way_ne_link {lead : Str} (h : resolveExoUri ws uri = .ok target) (hLead : IsLead lead) :
    slashes (Path.join (relative (components target) dir)) ≠ scheme ++ (lead ++ uri) := by
  intro hEq
  obtain ⟨kind, rest, rfl, hKind⟩ := resolveExoUri_ok h
  have hLetters : letters (slashes (Path.join (relative (components target) dir))) =
      4 + (letters kind + letters rest) := by
    have hScheme : letters scheme = 4 := rfl
    have hSlash : letters ('/' :: rest) = letters rest := rfl
    rw [hEq, letters_append, letters_append, letters_append, letters_lead hLead, hScheme, hSlash, Nat.zero_add]
  have hLast : ∀ {name : Name} {c d : Char}, (components target).getLast? = some name →
      name.getLast? = some c → c ≠ '\\' → rest.getLast? = some d → d = c := by
    intro name c d hName hC hNe hD
    have hWay := @getLast?_relative name (components target) dir c hName hC hNe (by omega)
    rw [hEq, List.getLast?_append, List.getLast?_append, List.getLast?_append, List.getLast?_cons, hD] at hWay
    exact Option.some.inj hWay
  rcases hKind with ⟨-, hFound⟩ | ⟨-, hFound⟩ | ⟨rfl, hFound⟩
  · obtain ⟨-, ⟨n, hNumber⟩, hExt⟩ := resolveRfc_ok hFound
    obtain ⟨name, hName, hC⟩ := @getLast?_of_extension target mdExtension 'd' hExt rfl
    obtain ⟨d, hD, hDigit⟩ := getLast?_of_parseU32 hNumber
    rw [hLast hName hC (by decide) hD] at hDigit
    exact absurd hDigit (by decide)
  · obtain ⟨-, dir, file, hFile, rfl, rfl⟩ := resolveContext_ok hFound
    obtain ⟨hC, hAbsolute, hName, hSlashes, hKey⟩ := contextFiles_names file hFile
    rw [Option.any_eq_true] at hKey
    obtain ⟨d, hD, hKey⟩ := hKey
    rw [hLast (getLast?_context hAbsolute hName hSlashes) hC (by decide) hD] at hKey
    exact absurd hKey (by decide)
  · have hSpec : letters specKind = 4 := rfl
    rw [letters_relative, hSpec] at hLetters
    exact letters_spec_ne hFound _ (hLetters.trans (by omega))

end Exosuit.Docs
