import Exosuit.Lib.Path

/-!
# Directories

A path is walked from a directory: names go down, two dots go up, and empty names and single dots
only ask for a directory. A relative path between two places goes up to the directory that they
share.
-/

namespace Exosuit.Lib.Directory

open Exosuit.Lib.Path (Name up significant components join separator)

/-- A place is given by the names from the root. -/
abbrev Loc := List Name

/-- Directories and files, without symbolic links; a name is text. -/
structure Tree where
  dirs : List Loc
  files : List Loc
  root_mem : [] ∈ dirs

namespace Tree

variable (tree : Tree)

def walk (loc : Loc) : List Name → Option Loc
  | [] => some loc
  | name :: rest =>
    if loc ∉ tree.dirs then none
    else if significant name = false then walk loc rest
    else if name = up then walk loc.dropLast rest
    else if loc ++ [name] ∈ tree.dirs ∨ loc ++ [name] ∈ tree.files then walk (loc ++ [name]) rest
    else none

/-- Where an absolute path leads. -/
def locate (path : List Char) : Option Loc := tree.walk [] (Text.pieces separator 0 path)

def isFile (path : List Char) : Bool := (tree.locate path).any fun loc => decide (loc ∈ tree.files)

def isDir (path : List Char) : Bool := (tree.locate path).any fun loc => decide (loc ∈ tree.dirs)

def exists_ (path : List Char) : Bool := (tree.locate path).isSome

end Tree

/-- How many names two places share at their beginnings. -/
def shared : List Name → List Name → Nat
  | a :: as, b :: bs => if a = b then shared as bs + 1 else 0
  | _, _ => 0

/-- The names that lead from a directory to a place. -/
def relative (target base : List Name) : List Name :=
  List.replicate (base.length - shared target base) up ++ target.drop (shared target base)

variable {tree : Tree} {loc dir : Loc} {names rest target : List Name} {name : Name}

/-! ## What two places share -/

theorem shared_le (as bs : List Name) : shared as bs ≤ bs.length := by
  induction bs generalizing as with
  | nil => cases as <;> exact Nat.le_refl 0
  | cons b bs ih =>
    cases as with
    | nil => exact Nat.zero_le _
    | cons a as =>
      rw [shared]
      split
      · exact Nat.succ_le_succ (ih as)
      · exact Nat.zero_le _

theorem take_shared (as bs : List Name) : as.take (shared as bs) = bs.take (shared as bs) := by
  induction bs generalizing as with
  | nil => cases as <;> rfl
  | cons b bs ih =>
    cases as with
    | nil => rfl
    | cons a as =>
      rw [shared]
      split
      · next hEq => rw [List.take_succ_cons, List.take_succ_cons, hEq, ih]
      · rfl

/-! ## Walks -/

/-- Every directory that is passed on the way to a place, the place itself apart. -/
def Passed (tree : Tree) (loc : Loc) : Prop := ∀ n < loc.length, loc.take n ∈ tree.dirs

/-- A place that a walk can name: every name goes down. -/
def Proper (loc : Loc) : Prop := ∀ name ∈ loc, significant name = true ∧ name ≠ up

theorem walk_append : tree.walk loc (names ++ rest) =
    (tree.walk loc names).bind fun loc => tree.walk loc rest := by
  induction names generalizing loc with
  | nil => rfl
  | cons name names ih =>
    rw [List.cons_append, Tree.walk, Tree.walk]
    split
    · rfl
    · split
      · exact ih
      · split
        · exact ih
        · split
          · exact ih
          · rfl

/-- What means nothing on a way does not change where it leads. -/
theorem walk_filter (h : tree.walk loc names = some dir) :
    tree.walk loc (names.filter significant) = some dir := by
  induction names generalizing loc with
  | nil => exact h
  | cons name names ih =>
    rw [Tree.walk] at h
    split at h
    · exact nomatch h
    · next hDir =>
      split at h
      · next hName =>
        rw [List.filter_cons_of_neg (by rw [hName]; exact Bool.false_ne_true)]
        exact ih h
      · next hName =>
        rw [List.filter_cons_of_pos (Bool.eq_true_of_not_eq_false hName), Tree.walk, if_neg hDir,
          if_neg hName]
        split at h
        · next hUp =>
          rw [if_pos hUp]
          exact ih h
        · next hUp =>
          rw [if_neg hUp]
          split at h
          · next hChild =>
            rw [if_pos hChild]
            exact ih h
          · exact nomatch h

theorem walk_down (h : tree.walk loc names = some dir) (hUp : ∀ name ∈ names, name ≠ up) :
    dir = loc ++ names.filter significant := by
  induction names generalizing loc with
  | nil =>
    rw [Tree.walk, Option.some.injEq] at h
    rw [← h, List.filter_nil, List.append_nil]
  | cons name names ih =>
    rw [List.forall_mem_cons] at hUp
    rw [Tree.walk] at h
    split at h
    · contradiction
    · split at h
      · next hName =>
        rw [List.filter_cons_of_neg (by rw [hName]; exact Bool.false_ne_true)]
        exact ih h hUp.2
      · next hName =>
        rw [if_neg hUp.1] at h
        split at h
        · rw [List.filter_cons_of_pos (Bool.eq_true_of_not_eq_false hName), List.append_cons]
          exact ih h hUp.2
        · contradiction

theorem passed_nil : Passed tree [] := fun _ h => absurd h (Nat.not_lt_zero _)

theorem Passed.parent (h : Passed tree loc) : Passed tree loc.dropLast := by
  intro n hn
  rw [List.length_dropLast] at hn
  rw [List.dropLast_eq_take, List.take_take, Nat.min_eq_left (by omega)]
  exact h n (by omega)

theorem Passed.parent_mem (h : Passed tree loc) : loc.dropLast ∈ tree.dirs := by
  cases loc with
  | nil => exact tree.root_mem
  | cons first rest =>
    rw [List.dropLast_eq_take]
    refine h _ ?_
    rw [List.length_cons]
    omega

theorem Proper.parent (h : Proper loc) : Proper loc.dropLast :=
  fun name hMem => h name (List.mem_of_mem_dropLast hMem)

theorem Passed.child (h : Passed tree loc) (hDir : loc ∈ tree.dirs) : Passed tree (loc ++ [name]) := by
  intro n hn
  rw [List.length_append, List.length_singleton, Nat.lt_succ_iff] at hn
  rw [List.take_append_of_le_length hn]
  rcases Nat.lt_or_eq_of_le hn with hn | hn
  · exact h n hn
  · rw [hn, List.take_length]
    exact hDir

theorem walk_reaches (h : tree.walk loc names = some dir) (hProper : Proper loc) (hPassed : Passed tree loc) :
    Proper dir ∧ Passed tree dir := by
  induction names generalizing loc with
  | nil =>
    rw [Tree.walk, Option.some.injEq] at h
    rw [← h]
    exact ⟨hProper, hPassed⟩
  | cons name names ih =>
    rw [Tree.walk] at h
    split at h
    · contradiction
    · next hDir =>
      split at h
      · exact ih h hProper hPassed
      · next hName =>
        split at h
        · exact ih h hProper.parent hPassed.parent
        · next hUp =>
          split at h
          · refine ih h ?_ (hPassed.child (not_not.mp hDir))
            intro other hMem
            rcases List.mem_append.mp hMem with hMem | hMem
            · exact hProper other hMem
            · rw [List.mem_singleton.mp hMem]
              exact ⟨Bool.eq_true_of_not_eq_false hName, hUp⟩
          · contradiction

theorem locate_reaches {path : List Char} (h : tree.locate path = some loc) :
    Proper loc ∧ Passed tree loc :=
  walk_reaches h (fun _ hMem => absurd hMem List.not_mem_nil) passed_nil

/-- What an absolute path without two dots leads to is spelled by its components. -/
theorem locate_down {path : List Char} (h : tree.locate path = some loc) (hUp : up ∉ components path) :
    loc = components path := by
  refine walk_down h fun name hMem hEq => ?_
  rw [hEq] at hMem
  exact hUp (List.mem_filter.mpr ⟨hMem, rfl⟩)

theorem walk_proper (hProper : Proper (loc ++ names)) (hPassed : Passed tree (loc ++ names))
    (hEnd : loc ++ names ∈ tree.dirs) : tree.walk loc names = some (loc ++ names) := by
  induction names generalizing loc with
  | nil => rw [Tree.walk, List.append_nil]
  | cons name names ih =>
    obtain ⟨hName, hUp⟩ := hProper name (List.mem_append_right _ List.mem_cons_self)
    have hDirs : ∀ n ≤ (loc ++ name :: names).length, (loc ++ name :: names).take n ∈ tree.dirs := by
      intro n hn
      rcases Nat.lt_or_eq_of_le hn with hn | hn
      · exact hPassed n hn
      · rw [hn, List.take_length]
        exact hEnd
    have hLoc : loc ∈ tree.dirs := by
      have h := hDirs loc.length (by rw [List.length_append]; omega)
      rwa [List.take_left] at h
    have hSplit : loc ++ name :: names = loc ++ [name] ++ names := List.append_cons loc name names
    have hChild : loc ++ [name] ∈ tree.dirs := by
      have h := hDirs (loc ++ [name]).length (by simp)
      rwa [hSplit, List.take_left] at h
    rw [Tree.walk, if_neg (not_not.mpr hLoc), if_neg (by rw [hName]; exact Bool.noConfusion),
      if_neg hUp, if_pos (Or.inl hChild), hSplit]
    rw [hSplit] at hProper hPassed hEnd
    exact ih hProper hPassed hEnd

theorem walk_ups (hPassed : Passed tree dir) (hEnd : dir ∈ tree.dirs) (n : Nat) (h : n ≤ dir.length) :
    tree.walk dir (List.replicate n up) = some (dir.take (dir.length - n)) := by
  induction n generalizing dir with
  | zero => rw [List.replicate_zero, Tree.walk, Nat.sub_zero, List.take_length]
  | succ n ih =>
    have hLength : dir.dropLast.length = dir.length - 1 := List.length_dropLast
    rw [List.replicate_succ, Tree.walk, if_neg (not_not.mpr hEnd), if_neg (by decide), if_pos rfl,
      ih hPassed.parent hPassed.parent_mem (by omega), hLength, List.dropLast_eq_take, List.take_take]
    congr 2
    omega

theorem walk_relative (hProper : Proper dir) (hPassed : Passed tree dir) (hEnd : dir ∈ tree.dirs)
    (target : List Name) : tree.walk dir (relative target dir) = tree.walk [] target := by
  have hLe : shared target dir ≤ dir.length := shared_le target dir
  have hTaken : dir.take (shared target dir) ∈ tree.dirs := by
    rcases Nat.lt_or_eq_of_le hLe with h | h
    · exact hPassed _ h
    · rw [h, List.take_length]
      exact hEnd
  have hShared : tree.walk [] (target.take (shared target dir)) =
      some (dir.take (shared target dir)) := by
    rw [take_shared]
    have h := @walk_proper tree [] (dir.take (shared target dir))
    rw [List.nil_append] at h
    refine h (fun name hMem => hProper name (List.mem_of_mem_take hMem)) ?_ hTaken
    intro n hn
    rw [List.length_take] at hn
    rw [List.take_take, Nat.min_eq_left (by omega)]
    exact hPassed n (by omega)
  calc tree.walk dir (relative target dir)
      = tree.walk (dir.take (shared target dir)) (target.drop (shared target dir)) := by
        rw [relative, walk_append, walk_ups hPassed hEnd _ (Nat.sub_le _ _), Option.bind_some]
        congr 2
        omega
    _ = tree.walk [] (target.take (shared target dir) ++ target.drop (shared target dir)) := by
        rw [walk_append, hShared, Option.bind_some]
    _ = tree.walk [] target := by rw [List.take_append_drop]

end Exosuit.Lib.Directory
