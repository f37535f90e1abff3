import Mathlib.Data.List.Flatten
import Mathlib.Data.List.Nodup
import Mathlib.Data.List.Pairwise
import Mathlib.Data.List.Perm.Lattice
import Exosuit.Reactivity.Core

/-!
# Glob over content addresses

Directories are found by their content addresses, and a directory that is found carries the path
of one place where it stands. The tree that is held says where each of them really stands.
-/

namespace Exosuit.Reactivity

abbrev Path := List String

inductive EntryKind
  | file
  | directory
  | symlink
deriving DecidableEq, Repr

structure DirectoryEntry where
  name : String
  kind : EntryKind
  hash : Revision
deriving DecidableEq, Repr

structure DirectoryCell where
  path : Path
  entries : List DirectoryEntry
deriving DecidableEq, Repr

/-- `CellProvider::get_directory` -/
abbrev CellProvider := Revision → Option DirectoryCell

/-- The patterns of the library: `new` may refuse a text. -/
structure Patterns (Pattern : Type*) where
  new : String → Except String Pattern
  matchesPath : Pattern → Path → Bool

/-! ## The walk -/

section

variable (provider : CellProvider) (matchesPath : Path → Bool)

def matched (dir : Path) (name : String) : List Path :=
  if matchesPath (dir ++ [name]) then [dir ++ [name]] else []

/-- `none` where the recursion is deeper than `fuel`. -/
def recurse (fuel : Nat) (dir : DirectoryCell) : Option (List Path) :=
  match fuel with
  | 0 => none
  | fuel + 1 =>
    (dir.entries.mapM fun entry =>
      if entry.kind = .directory then
        match provider entry.hash with
        | some childCell => (recurse fuel childCell).map (matched matchesPath dir.path entry.name ++ ·)
        | none => some (matched matchesPath dir.path entry.name)
      else some (matched matchesPath dir.path entry.name)).map List.flatten

def glob {Pattern : Type*} (patterns : Patterns Pattern) (fuel : Nat) (root : DirectoryCell)
    (patternStr : String) : Except String (Option (List Path)) :=
  (patterns.new patternStr).map fun pattern => recurse provider (patterns.matchesPath pattern) fuel root

end

/-! ## Trees -/

/-- What stands in a directory, with the content addresses. -/
inductive Listing
  | nil
  | file (name : String) (hash : Revision) (rest : Listing)
  | symlink (name : String) (hash : Revision) (rest : Listing)
  | directory (name : String) (hash : Revision) (children rest : Listing)

namespace Listing

def entries : Listing → List DirectoryEntry
  | nil => []
  | file name hash rest => ⟨name, .file, hash⟩ :: rest.entries
  | symlink name hash rest => ⟨name, .symlink, hash⟩ :: rest.entries
  | directory name hash _ rest => ⟨name, .directory, hash⟩ :: rest.entries

def names (listing : Listing) : List String := listing.entries.map DirectoryEntry.name

@[simp] theorem names_file (name : String) (hash : Revision) (rest : Listing) :
    (file name hash rest).names = name :: rest.names := rfl

@[simp] theorem names_symlink (name : String) (hash : Revision) (rest : Listing) :
    (symlink name hash rest).names = name :: rest.names := rfl

@[simp] theorem names_directory (name : String) (hash : Revision) (children rest : Listing) :
    (directory name hash children rest).names = name :: rest.names := rfl

/-- The directories below a path: where each stands, its address and its listing. -/
def directories (dir : Path) : Listing → List (Path × Revision × Listing)
  | nil => []
  | file _ _ rest => rest.directories dir
  | symlink _ _ rest => rest.directories dir
  | directory name hash children rest =>
    (dir ++ [name], hash, children) :: children.directories (dir ++ [name]) ++ rest.directories dir

def paths (dir : Path) : Listing → List Path
  | nil => []
  | file name _ rest => (dir ++ [name]) :: rest.paths dir
  | symlink name _ rest => (dir ++ [name]) :: rest.paths dir
  | directory name _ children rest =>
    (dir ++ [name]) :: children.paths (dir ++ [name]) ++ rest.paths dir

def depth : Listing → Nat
  | nil => 0
  | file _ _ rest => rest.depth
  | symlink _ _ rest => rest.depth
  | directory _ _ children rest => max (children.depth + 1) rest.depth

/-- No directory has two entries of one name. -/
def Distinct : Listing → Prop
  | nil => True
  | file name _ rest => name ∉ rest.names ∧ rest.Distinct
  | symlink name _ rest => name ∉ rest.names ∧ rest.Distinct
  | directory name _ children rest => name ∉ rest.names ∧ children.Distinct ∧ rest.Distinct

end Listing

/-- A tree: the path of its root and what stands in it. -/
structure DirectoryTree where
  path : Path
  listing : Listing
  distinct : listing.Distinct

namespace DirectoryTree

variable (tree : DirectoryTree)

def root : DirectoryCell := ⟨tree.path, tree.listing.entries⟩

def directories : List (Path × Revision × Listing) := tree.listing.directories tree.path

def paths : List Path := tree.listing.paths tree.path

/-- The provider finds every directory of the tree by its address, as a cell that was made for a
directory of the tree. -/
def HeldBy (provider : CellProvider) : Prop :=
  ∀ dir ∈ tree.directories, ∃ cell, provider dir.2.1 = some cell ∧ cell.entries = dir.2.2.entries ∧
    ∃ listing, (cell.path, dir.2.1, listing) ∈ tree.directories

/-- No entry of a directory matches that shares its address with another one. -/
def SharesNoMatch (matchesPath : Path → Bool) : Prop :=
  ∀ dir ∈ tree.directories, ∀ other ∈ tree.directories, dir.1 ≠ other.1 → dir.2.1 = other.2.1 →
    ∀ name ∈ dir.2.2.names, matchesPath (dir.1 ++ [name]) = false

end DirectoryTree

/-! ## What a tree holds -/

namespace Listing

theorem mem_paths {listing : Listing} {dir p : Path} (h : p ∈ listing.paths dir) :
    ∃ name ∈ listing.names, ∃ rest, p = dir ++ name :: rest := by
  induction listing generalizing dir with
  | nil => exact nomatch h
  | file name hash rest ih | symlink name hash rest ih =>
    rcases List.mem_cons.mp h with rfl | hRest
    · exact ⟨name, List.mem_cons_self, [], rfl⟩
    · obtain ⟨other, hOther, hPath⟩ := ih hRest
      exact ⟨other, List.mem_cons_of_mem _ hOther, hPath⟩
  | directory name hash children rest ihChildren ihRest =>
    rcases List.mem_append.mp h with hHere | hRest
    · rcases List.mem_cons.mp hHere with rfl | hBelow
      · exact ⟨name, List.mem_cons_self, [], rfl⟩
      · obtain ⟨other, -, tail, rfl⟩ := ihChildren hBelow
        exact ⟨name, List.mem_cons_self, other :: tail, by rw [List.append_assoc]; rfl⟩
    · obtain ⟨other, hOther, hPath⟩ := ihRest hRest
      exact ⟨other, List.mem_cons_of_mem _ hOther, hPath⟩

theorem not_mem_paths_of_name {listing : Listing} {dir tail : Path} {name : String}
    (h : name ∉ listing.names) : dir ++ name :: tail ∉ listing.paths dir := by
  intro hMem
  obtain ⟨other, hOther, rest, hPath⟩ := mem_paths hMem
  obtain ⟨rfl, -⟩ := List.cons.inj (List.append_cancel_left hPath)
  exact h hOther

theorem nodup_paths {listing : Listing} (h : listing.Distinct) (dir : Path) : (listing.paths dir).Nodup := by
  induction listing generalizing dir with
  | nil => exact .nil
  | file name hash rest ih | symlink name hash rest ih =>
    exact List.nodup_cons.mpr ⟨not_mem_paths_of_name h.1, ih h.2 dir⟩
  | directory name hash children rest ihChildren ihRest =>
    obtain ⟨hName, hChildren, hRest⟩ := h
    refine List.nodup_append'.mpr ⟨List.nodup_cons.mpr ⟨?_, ihChildren hChildren _⟩, ihRest hRest dir, ?_⟩
    · intro hMem
      obtain ⟨other, -, tail, hPath⟩ := mem_paths hMem
      exact absurd (congrArg List.length hPath) (by simp)
    · intro p hHere hThere
      rcases List.mem_cons.mp hHere with rfl | hBelow
      · exact not_mem_paths_of_name hName hThere
      · obtain ⟨other, -, tail, rfl⟩ := mem_paths hBelow
        rw [List.append_assoc] at hThere
        exact not_mem_paths_of_name hName hThere

theorem directories_sublist (listing : Listing) (dir : Path) :
    ((listing.directories dir).map Prod.fst).Sublist (listing.paths dir) := by
  induction listing generalizing dir with
  | nil => exact .slnil
  | file name hash rest ih | symlink name hash rest ih => exact (ih dir).cons _
  | directory name hash children rest ihChildren ihRest =>
    rw [directories, List.map_append, List.map_cons]
    exact ((ihChildren _).cons_cons _).append (ihRest dir)

variable {matchesPath : Path → Bool}

theorem filter_map_eq (dir : Path) (names : List String) :
    (names.map (dir ++ [·])).filter matchesPath = names.flatMap (matched matchesPath dir) := by
  induction names with
  | nil => rfl
  | cons name names ih =>
    rw [List.map_cons, List.filter_cons, List.flatMap_cons, ih, matched]
    split <;> rfl

theorem paths_perm (listing : Listing) (dir : Path) :
    (listing.paths dir).Perm (listing.names.map (dir ++ [·]) ++
      (listing.directories dir).flatMap fun sub => sub.2.2.names.map (sub.1 ++ [·])) := by
  induction listing generalizing dir with
  | nil => exact .nil
  | file name hash rest ih | symlink name hash rest ih => exact (ih dir).cons _
  | directory name hash children rest ihChildren ihRest =>
    refine List.Perm.cons _ ?_
    change (children.paths (dir ++ [name]) ++ rest.paths dir).Perm
      (rest.names.map (dir ++ [·]) ++
        List.flatMap _ (_ :: children.directories (dir ++ [name]) ++ rest.directories dir))
    rw [List.cons_append, List.flatMap_cons, List.flatMap_append]
    refine (((ihChildren _).append (ihRest dir)).trans (List.perm_append_comm_assoc _ _ _)).trans ?_
    exact .of_eq (congrArg (_ ++ ·) (List.append_assoc _ _ _))

end Listing

section

variable {provider : CellProvider} {matchesPath : Path → Bool}

/-- Where the walk believes a directory to stand. -/
def shownAt (provider : CellProvider) (hash : Revision) : Path := ((provider hash).map DirectoryCell.path).getD []

/-- What the walk finds below a directory that it believes to stand at a path. -/
def walk (provider : CellProvider) (matchesPath : Path → Bool) (shown : Path) : Listing → List Path
  | .nil => []
  | .file name _ rest => matched matchesPath shown name ++ walk provider matchesPath shown rest
  | .symlink name _ rest => matched matchesPath shown name ++ walk provider matchesPath shown rest
  | .directory name hash children rest =>
    matched matchesPath shown name ++ walk provider matchesPath (shownAt provider hash) children ++
      walk provider matchesPath shown rest

def Found (provider : CellProvider) (dir : Path) (listing : Listing) : Prop :=
  ∀ sub ∈ listing.directories dir, ∃ cell, provider sub.2.1 = some cell ∧ cell.entries = sub.2.2.entries

theorem recurse_cons (fuel : Nat) (path : Path) (entry : DirectoryEntry) (entries : List DirectoryEntry) :
    recurse provider matchesPath (fuel + 1) ⟨path, entry :: entries⟩ =
      (if entry.kind = .directory then
        match provider entry.hash with
        | some childCell =>
          (recurse provider matchesPath fuel childCell).map (matched matchesPath path entry.name ++ ·)
        | none => some (matched matchesPath path entry.name)
      else some (matched matchesPath path entry.name)).bind fun own =>
        (recurse provider matchesPath (fuel + 1) ⟨path, entries⟩).map (own ++ ·) := by
  rw [recurse, recurse, List.mapM_cons]
  simp only [Option.bind_eq_bind, Option.map_bind, Option.map_map, Option.pure_def, Function.comp_def]
  congr 1
  funext own
  rw [Option.map_eq_bind]
  rfl

theorem recurse_eq {listing : Listing} {fuel : Nat} {dir : Path} (hFuel : listing.depth ≤ fuel)
    (hFound : Found provider dir listing) (shown : Path) :
    recurse provider matchesPath (fuel + 1) ⟨shown, listing.entries⟩ =
      some (walk provider matchesPath shown listing) := by
  induction listing generalizing fuel dir shown with
  | nil => rfl
  | file name hash rest ih | symlink name hash rest ih =>
    rw [Listing.entries, recurse_cons, ih hFuel hFound]
    rfl
  | directory name hash children rest ihChildren ihRest =>
    obtain ⟨hDeep, hRest⟩ := Nat.max_le.mp hFuel
    obtain ⟨fuel, rfl⟩ : ∃ n, fuel = n + 1 := ⟨fuel - 1, by omega⟩
    obtain ⟨cell, hCell, hEntries⟩ := hFound (dir ++ [name], hash, children) List.mem_cons_self
    have hBelow : Found provider (dir ++ [name]) children := fun sub hSub =>
      hFound sub (List.mem_append_left _ (List.mem_cons_of_mem _ hSub))
    have hBeside : Found provider dir rest := fun sub hSub => hFound sub (List.mem_append_right _ hSub)
    have hChild : recurse provider matchesPath (fuel + 1) cell =
        some (walk provider matchesPath (shownAt provider hash) children) := by
      rw [shownAt, hCell, ← ihChildren (Nat.le_of_succ_le_succ hDeep) hBelow]
      change recurse provider matchesPath (fuel + 1) cell = recurse _ _ _ ⟨cell.path, _⟩
      rw [← hEntries]
    rw [Listing.entries, recurse_cons, if_pos rfl, hCell]
    dsimp only
    rw [hChild, ihRest hRest hBeside]
    rfl

theorem walk_perm (listing : Listing) (dir shown : Path) :
    (walk provider matchesPath shown listing).Perm (listing.names.flatMap (matched matchesPath shown) ++
      (listing.directories dir).flatMap fun sub =>
        sub.2.2.names.flatMap (matched matchesPath (shownAt provider sub.2.1))) := by
  induction listing generalizing dir shown with
  | nil => exact .nil
  | file name hash rest ih =>
    rw [walk, Listing.names_file, List.flatMap_cons, List.append_assoc]
    exact (ih dir shown).append_left _
  | symlink name hash rest ih =>
    rw [walk, Listing.names_symlink, List.flatMap_cons, List.append_assoc]
    exact (ih dir shown).append_left _
  | directory name hash children rest ihChildren ihRest =>
    rw [walk, Listing.names_directory, Listing.directories, List.cons_append, List.flatMap_cons,
      List.flatMap_cons, List.flatMap_append, List.append_assoc, List.append_assoc]
    refine List.Perm.append_left _ ?_
    refine ((ihChildren (dir ++ [name]) _).append (ihRest dir shown)).trans ?_
    refine (List.perm_append_comm_assoc _ _ _).trans ?_
    exact .of_eq (congrArg (_ ++ ·) (List.append_assoc _ _ _))

end

/-! ## When the paths are right -/

namespace DirectoryTree

variable {tree : DirectoryTree} {provider : CellProvider} {matchesPath : Path → Bool}

theorem mem_matched {dir p : Path} {name : String} :
    p ∈ matched matchesPath dir name ↔ p = dir ++ [name] ∧ matchesPath p = true := by
  unfold matched
  split
  · next h =>
    rw [List.mem_singleton]
    exact ⟨fun hp => ⟨hp, hp ▸ h⟩, And.left⟩
  · next h =>
    refine iff_of_false List.not_mem_nil ?_
    rintro ⟨rfl, hMatches⟩
    exact h hMatches

/-- Paths that are found below a directory when it is believed to stand somewhere. -/
def below (matchesPath : Path → Bool) (shown : Path) (sub : Path × Revision × Listing) : List Path :=
  sub.2.2.names.flatMap (matched matchesPath shown)

theorem mem_below {shown p : Path} {sub : Path × Revision × Listing} :
    p ∈ below matchesPath shown sub ↔ ∃ name ∈ sub.2.2.names, p = shown ++ [name] ∧ matchesPath p = true := by
  rw [below, List.mem_flatMap]
  simp only [mem_matched]

theorem filter_paths_perm (tree : DirectoryTree) (matchesPath : Path → Bool) :
    (tree.paths.filter matchesPath).Perm (tree.listing.names.flatMap (matched matchesPath tree.path) ++
      tree.directories.flatMap fun sub => below matchesPath sub.1 sub) := by
  have hPaths := (Listing.paths_perm tree.listing tree.path).filter matchesPath
  rw [List.filter_append, Listing.filter_map_eq, List.filter_flatMap] at hPaths
  have hBelow : (fun sub : Path × Revision × Listing =>
      (sub.2.2.names.map (sub.1 ++ [·])).filter matchesPath) = fun sub => below matchesPath sub.1 sub :=
    funext fun sub => Listing.filter_map_eq sub.1 sub.2.2.names
  rwa [hBelow] at hPaths

theorem walk_perm_paths_iff :
    (walk provider matchesPath tree.path tree.listing).Perm (tree.paths.filter matchesPath) ↔
    (tree.directories.flatMap fun sub => below matchesPath (shownAt provider sub.2.1) sub).Perm
      (tree.directories.flatMap fun sub => below matchesPath sub.1 sub) := by
  have hPaths := filter_paths_perm tree matchesPath
  have hWalk := @walk_perm provider matchesPath tree.listing tree.path tree.path
  constructor
  · intro h
    exact (List.perm_append_left_iff _).mp ((hWalk.symm.trans h).trans hPaths)
  · intro h
    exact (hWalk.trans (h.append_left _)).trans hPaths.symm

theorem eq_of_path {sub other : Path × Revision × Listing} (hSub : sub ∈ tree.directories)
    (hOther : other ∈ tree.directories) (hPath : sub.1 = other.1) : sub = other := by
  have hNodup : (tree.directories.map Prod.fst).Nodup :=
    (Listing.nodup_paths tree.distinct tree.path).sublist (Listing.directories_sublist _ _)
  exact List.inj_on_of_nodup_map hNodup hSub hOther hPath

theorem HeldBy.names_eq (h : tree.HeldBy provider) {sub other : Path × Revision × Listing}
    (hSub : sub ∈ tree.directories) (hOther : other ∈ tree.directories) (hHash : sub.2.1 = other.2.1) :
    sub.2.2.names = other.2.2.names := by
  obtain ⟨cell, hCell, hEntries, -⟩ := h sub hSub
  obtain ⟨cell', hCell', hEntries', -⟩ := h other hOther
  rw [← hHash] at hCell'
  cases hCell.symm.trans hCell'
  rw [Listing.names, Listing.names, ← hEntries, hEntries']

theorem HeldBy.shown (h : tree.HeldBy provider) {sub : Path × Revision × Listing}
    (hSub : sub ∈ tree.directories) :
    ∃ listing, (shownAt provider sub.2.1, sub.2.1, listing) ∈ tree.directories ∧
      listing.names = sub.2.2.names := by
  obtain ⟨cell, hCell, -, listing, hPlace⟩ := h sub hSub
  have hShown : shownAt provider sub.2.1 = cell.path := by
    rw [shownAt, hCell]
    rfl
  exact ⟨listing, hShown ▸ hPlace, h.names_eq hPlace hSub rfl⟩

theorem below_eq_of_sharesNoMatch (h : tree.HeldBy provider) (hShares : tree.SharesNoMatch matchesPath)
    {sub : Path × Revision × Listing} (hSub : sub ∈ tree.directories) :
    below matchesPath (shownAt provider sub.2.1) sub = below matchesPath sub.1 sub := by
  obtain ⟨listing, hPlace, hNames⟩ := h.shown hSub
  by_cases hSame : sub.1 = shownAt provider sub.2.1
  · rw [hSame]
  · have hNothing : below matchesPath sub.1 sub = [] := by
      refine List.eq_nil_iff_forall_not_mem.mpr fun p hp => ?_
      obtain ⟨name, hName, rfl, hMatches⟩ := mem_below.mp hp
      exact Bool.false_ne_true ((hShares sub hSub _ hPlace hSame rfl name hName).symm.trans hMatches)
    have hNothing' : below matchesPath (shownAt provider sub.2.1) sub = [] := by
      refine List.eq_nil_iff_forall_not_mem.mpr fun p hp => ?_
      obtain ⟨name, hName, rfl, hMatches⟩ := mem_below.mp hp
      exact Bool.false_ne_true
        ((hShares _ hPlace sub hSub (Ne.symm hSame) rfl name (hNames ▸ hName)).symm.trans hMatches)
    rw [hNothing, hNothing']

theorem sharesNoMatch_of_perm (h : tree.HeldBy provider)
    (hPerm : (tree.directories.flatMap fun sub => below matchesPath (shownAt provider sub.2.1) sub).Perm
      (tree.directories.flatMap fun sub => below matchesPath sub.1 sub)) :
    tree.SharesNoMatch matchesPath := by
  intro sub hSub other hOther hPaths hHash name hName
  by_contra hMatches
  obtain ⟨listing, hPlace, hNames⟩ := h.shown hSub
  have hMatches : matchesPath (sub.1 ++ [name]) = true := (Bool.not_eq_false _).mp hMatches
  have hReal : (tree.directories.flatMap fun sub => below matchesPath sub.1 sub).Nodup := by
    have hNodup : (tree.paths.filter matchesPath).Nodup :=
      (Listing.nodup_paths tree.distinct tree.path).filter matchesPath
    exact (List.nodup_append.mp ((filter_paths_perm tree matchesPath).nodup_iff.mp hNodup)).2.1
  by_cases hShown : matchesPath (shownAt provider sub.2.1 ++ [name]) = true
  · -- both directories report the entry at one place
    have hPairwise := (List.nodup_flatMap.mp (hPerm.nodup_iff.mpr hReal)).2
    have : Std.Symm (Function.onFun List.Disjoint fun sub : Path × Revision × Listing =>
        below matchesPath (shownAt provider sub.2.1) sub) := ⟨fun _ _ hDisjoint => hDisjoint.symm⟩
    have hDisjoint := hPairwise.forall hSub hOther fun hSame => hPaths (congrArg Prod.fst hSame)
    refine hDisjoint (mem_below.mpr ⟨name, hName, rfl, hShown⟩) (mem_below.mpr ⟨name, ?_, ?_, hShown⟩)
    · exact h.names_eq hSub hOther hHash ▸ hName
    · rw [hHash]
  · -- nothing reports the entry where it really stands
    have hHere : sub.1 ++ [name] ∈ tree.directories.flatMap fun sub => below matchesPath sub.1 sub :=
      List.mem_flatMap.mpr ⟨sub, hSub, mem_below.mpr ⟨name, hName, rfl, hMatches⟩⟩
    obtain ⟨place, hPlace', hReported⟩ := List.mem_flatMap.mp (hPerm.mem_iff.mpr hHere)
    obtain ⟨name', -, hPath, -⟩ := mem_below.mp hReported
    obtain ⟨hDir, -⟩ := List.append_inj' hPath rfl
    obtain ⟨listing', hPlace'', -⟩ := h.shown hPlace'
    have hSame := eq_of_path hSub hPlace'' hDir
    have hHash' : sub.2.1 = place.2.1 := by rw [hSame]
    rw [hDir, ← hHash'] at hMatches
    exact hShown hMatches

theorem walk_perm_iff (h : tree.HeldBy provider) :
    (walk provider matchesPath tree.path tree.listing).Perm (tree.paths.filter matchesPath) ↔
      tree.SharesNoMatch matchesPath := by
  rw [walk_perm_paths_iff]
  refine ⟨sharesNoMatch_of_perm h, fun hShares => .of_eq ?_⟩
  exact List.flatMap_congr fun sub hSub => below_eq_of_sharesNoMatch h hShares hSub

/-- A list holds the matching paths of a tree, each once. -/
def Exact (tree : DirectoryTree) (matchesPath : Path → Bool) (paths : List Path) : Prop :=
  paths.Nodup ∧ ∀ p, p ∈ paths ↔ p ∈ tree.paths ∧ matchesPath p = true

theorem exact_iff_perm {paths : List Path} :
    tree.Exact matchesPath paths ↔ paths.Perm (tree.paths.filter matchesPath) := by
  have hNodup : (tree.paths.filter matchesPath).Nodup :=
    (Listing.nodup_paths tree.distinct tree.path).filter matchesPath
  constructor
  · rintro ⟨hPaths, hMem⟩
    exact (List.perm_ext_iff_of_nodup hPaths hNodup).mpr fun p => (hMem p).trans List.mem_filter.symm
  · intro hPerm
    exact ⟨hPerm.nodup_iff.mpr hNodup, fun p => hPerm.mem_iff.trans List.mem_filter⟩

/-- On a tree that is held, a pattern that the library accepts finds the matching paths, each once,
exactly when none of them lies in a directory that shares its address with another one. -/
theorem glob_exact_iff {Pattern : Type*} (patterns : Patterns Pattern) (patternStr : String)
    (hHeld : tree.HeldBy provider) :
    (∀ e, patterns.new patternStr = .error e →
      ∀ fuel, glob provider patterns fuel tree.root patternStr = .error e) ∧
    ∀ pattern, patterns.new patternStr = .ok pattern →
      ∃ paths, (∀ fuel, tree.listing.depth < fuel →
          glob provider patterns fuel tree.root patternStr = .ok (some paths)) ∧
        (tree.Exact (patterns.matchesPath pattern) paths ↔
          tree.SharesNoMatch (patterns.matchesPath pattern)) := by
  constructor
  · intro e hError fuel
    rw [glob, hError]
    rfl
  · intro pattern hNew
    have hFound : Found provider tree.path tree.listing := by
      intro sub hSub
      obtain ⟨cell, hCell, hEntries, -⟩ := hHeld sub hSub
      exact ⟨cell, hCell, hEntries⟩
    refine ⟨_, fun fuel hFuel => ?_, exact_iff_perm.trans (walk_perm_iff hHeld)⟩
    obtain ⟨fuel, rfl⟩ : ∃ n, fuel = n + 1 := ⟨fuel - 1, by omega⟩
    rw [glob, hNew, root]
    exact congrArg Except.ok (recurse_eq (Nat.le_of_lt_succ hFuel) hFound tree.path)

/-- Every text is a pattern, and every path matches it. -/
def anyPattern : Patterns Unit := ⟨fun _ => .ok (), fun _ _ => true⟩

def source : Listing := .file "main.rs" (.disk "m") .nil

/-- One directory with a file in it, and the provider that has its cell. -/
def single : DirectoryTree where
  path := ["root"]
  listing := .directory "b" (.disk "h") source .nil
  distinct := by simp [Listing.Distinct, source, Listing.names, Listing.entries]

def lastRead : CellProvider := fun hash =>
  if hash = .disk "h" then some ⟨["root", "b"], source.entries⟩ else none

theorem glob_single :
    ∃ paths, (∀ fuel, single.listing.depth < fuel →
        glob lastRead anyPattern fuel single.root "**" = .ok (some paths)) ∧
      single.Exact (fun _ => true) paths := by
  have hHeld : single.HeldBy lastRead := by
    intro sub hSub
    obtain rfl := List.mem_singleton.mp hSub
    exact ⟨_, rfl, rfl, source, List.mem_singleton_self _⟩
  obtain ⟨paths, hGlob, hExact⟩ := (glob_exact_iff anyPattern "**" hHeld).2 () rfl
  refine ⟨paths, hGlob, hExact.mpr fun sub hSub other hOther hPaths => ?_⟩
  rw [List.mem_singleton.mp hSub, List.mem_singleton.mp hOther] at hPaths
  exact absurd rfl hPaths

/-- Two directories with the same file in them. -/
def twins : DirectoryTree where
  path := ["root"]
  listing := .directory "a" (.disk "h") source (.directory "b" (.disk "h") source .nil)
  distinct := by simp [Listing.Distinct, source, Listing.names, Listing.entries]

/-- The file of the first directory is missing and that of the second is there twice. -/
theorem glob_twins :
    twins.HeldBy lastRead ∧
    glob lastRead anyPattern 3 twins.root "**" =
      .ok (some [["root", "a"], ["root", "b", "main.rs"], ["root", "b"], ["root", "b", "main.rs"]]) ∧
    ["root", "a", "main.rs"] ∈ twins.paths ∧
    ¬ twins.Exact (fun _ => true)
      [["root", "a"], ["root", "b", "main.rs"], ["root", "b"], ["root", "b", "main.rs"]] := by
  refine ⟨fun sub hSub => ?_, by decide, by decide, fun hExact => absurd hExact.1 (by decide)⟩
  have hPlace : (["root", "b"], Revision.disk "h", source) ∈ twins.directories :=
    List.mem_cons_of_mem _ (List.mem_singleton_self _)
  rcases List.mem_cons.mp hSub with rfl | hLast
  · exact ⟨_, rfl, rfl, source, hPlace⟩
  · obtain rfl := List.mem_singleton.mp hLast
    exact ⟨_, rfl, rfl, source, hPlace⟩

end DirectoryTree

end Exosuit.Reactivity
