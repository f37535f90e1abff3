import Exosuit.Lib.Text

/-!
# Relative paths

A path is read as its components: empty ones and single dots mean nothing, and two dots go up.
-/

namespace Exosuit.Lib.Path

abbrev Name := List Char

def here : Name := ['.']

def up : Name := ['.', '.']

def separator : List Char := ['/']

def significant (name : Name) : Bool := name != [] && name != here

/-- The components of a path that mean something. -/
def components (path : List Char) : List Name := (Text.pieces separator 0 path).filter significant

/-- Where a walk from a directory ends; there is no way up from the root. -/
def follow (dir : List Name) : List Name → Option (List Name)
  | [] => some dir
  | name :: rest =>
    if name = up then if dir = [] then none else follow dir.dropLast rest
    else follow (dir ++ [name]) rest

/-- What a relative path denotes, read in a directory. -/
def resolve (dir : List Name) (path : List Char) : Option (List Name) :=
  if path.head? = some '/' then none else follow dir (components path)

/-- A name that a directory can hold. -/
def IsEntry (name : Name) : Prop := name ≠ [] ∧ name ≠ here ∧ name ≠ up ∧ '/' ∉ name

instance (name : Name) : Decidable (IsEntry name) := inferInstanceAs (Decidable (_ ∧ _))

def join (names : List Name) : List Char := List.intercalate separator names

variable {dir names rest : List Name} {name : Name}

theorem follow_entries (h : ∀ name ∈ names, name ≠ up) : follow dir names = some (dir ++ names) := by
  induction names generalizing dir with
  | nil => rw [follow, List.append_nil]
  | cons name names ih =>
    rw [List.forall_mem_cons] at h
    rw [follow, if_neg h.1, ih h.2, List.append_assoc, List.singleton_append]

theorem follow_append : follow dir (names ++ rest) = (follow dir names).bind fun dir => follow dir rest := by
  induction names generalizing dir with
  | nil => rfl
  | cons name names ih =>
    rw [List.cons_append, follow, follow]
    split
    · split
      · rfl
      · exact ih
    · exact ih

/-- Going up a number of times leaves the beginning of the directory. -/
theorem follow_ups (n : Nat) (h : n ≤ dir.length) :
    follow dir (List.replicate n up) = some (dir.take (dir.length - n)) := by
  induction n generalizing dir with
  | zero => rw [List.replicate_zero, follow, Nat.sub_zero, List.take_length]
  | succ n ih =>
    have hDir : dir ≠ [] := List.ne_nil_of_length_pos (Nat.zero_lt_of_lt h)
    have hLength : dir.dropLast.length = dir.length - 1 := List.length_dropLast
    rw [List.replicate_succ, follow, if_pos rfl, if_neg hDir, ih (by omega), hLength,
      List.dropLast_eq_take, List.take_take]
    congr 2
    omega

theorem follow_none_of_ups (n : Nat) (h : dir.length < n) (rest : List Name) :
    follow dir (List.replicate n up ++ rest) = none := by
  induction n generalizing dir with
  | zero => exact nomatch h
  | succ n ih =>
    rw [List.replicate_succ, List.cons_append, follow, if_pos rfl]
    split
    · rfl
    · next hDir =>
      have hLength : dir.dropLast.length = dir.length - 1 := List.length_dropLast
      have hPos : 0 < dir.length := List.length_pos_of_ne_nil hDir
      exact ih (by omega)

theorem IsEntry.significant (h : IsEntry name) : significant name = true := by
  rw [Path.significant, Bool.and_eq_true]
  exact ⟨bne_iff_ne.mpr h.1, bne_iff_ne.mpr h.2.1⟩

theorem pieces_join (hNames : names ≠ []) (h : ∀ name ∈ names, '/' ∉ name) :
    Text.pieces separator 0 (join names) = names := by
  induction names with
  | nil => exact absurd rfl hNames
  | cons name names ih =>
    rw [List.forall_mem_cons] at h
    rw [join, Text.intercalate_cons]
    split
    · next hNil => rw [hNil, List.append_nil, separator, Text.pieces_of_not_mem h.1]
    · next hNil =>
      rw [separator, List.singleton_append, Text.pieces_char h.1]
      exact congrArg (name :: ·) (ih hNil h.2)

theorem components_join (hNames : names ≠ []) (h : ∀ name ∈ names, '/' ∉ name)
    (hSignificant : ∀ name ∈ names, significant name = true) : components (join names) = names := by
  rw [components, pieces_join hNames h]
  exact List.filter_eq_self.mpr hSignificant

theorem head?_join {first : Name} (hFirst : first ≠ []) : (join (first :: rest)).head? = first.head? := by
  rw [join, Text.intercalate_cons, List.head?_append_of_ne_nil _ hFirst]

/-! ## Trimmed paths -/

theorem pieces_cons (c : Char) (l : List Char) : Text.pieces separator 0 (c :: l) =
    if c = '/' then [] :: Text.pieces separator 0 l else (Text.pieces separator 0 l).modifyHead (c :: ·) :=
  Text.pieces_cons '/' c l

theorem join_pieces (l : List Char) : join (Text.pieces separator 0 l) = l := by
  induction l with
  | nil => rfl
  | cons c l ih =>
    obtain ⟨name, names, hPieces⟩ := List.exists_cons_of_ne_nil (Text.pieces_ne_nil separator 0 l)
    rw [hPieces, join, Text.intercalate_cons] at ih
    rw [pieces_cons, hPieces]
    split
    · next hSlash =>
      rw [join, Text.intercalate_cons, if_neg (List.cons_ne_nil _ _), Text.intercalate_cons, ih, hSlash]
      rfl
    · rw [List.modifyHead_cons, join, Text.intercalate_cons, List.cons_append, ih]

theorem pieces_free (l : List Char) : ∀ name ∈ Text.pieces separator 0 l, '/' ∉ name := by
  induction l with
  | nil => simp [Text.pieces]
  | cons c l ih =>
    obtain ⟨name, names, hPieces⟩ := List.exists_cons_of_ne_nil (Text.pieces_ne_nil separator 0 l)
    rw [hPieces, List.forall_mem_cons] at ih
    rw [pieces_cons, hPieces]
    split
    · rw [List.forall_mem_cons, List.forall_mem_cons]
      exact ⟨List.not_mem_nil, ih⟩
    · next hSlash =>
      rw [List.modifyHead_cons, List.forall_mem_cons, List.mem_cons, not_or]
      exact ⟨⟨Ne.symm hSlash, ih.1⟩, ih.2⟩

theorem components_slash (l : List Char) : components ('/' :: l) = components l := by
  rw [components, pieces_cons, if_pos rfl]
  exact List.filter_cons_of_neg (by decide)

theorem pieces_concat_slash (l : List Char) :
    Text.pieces separator 0 (l ++ ['/']) = Text.pieces separator 0 l ++ [[]] := by
  induction l with
  | nil => rfl
  | cons c l ih =>
    obtain ⟨name, names, hPieces⟩ := List.exists_cons_of_ne_nil (Text.pieces_ne_nil separator 0 l)
    rw [List.cons_append, pieces_cons, pieces_cons, ih, hPieces]
    split
    · rfl
    · rfl

theorem components_concat_slash (l : List Char) : components (l ++ ['/']) = components l := by
  rw [components, pieces_concat_slash, List.filter_append]
  exact List.append_nil _

def isSlash (c : Char) : Bool := c == '/'

theorem components_dropWhile (l : List Char) : components (l.dropWhile isSlash) = components l := by
  induction l with
  | nil => rfl
  | cons c l ih =>
    by_cases h : isSlash c = true
    · rw [List.dropWhile_cons_of_pos h, ih, eq_of_beq h, components_slash]
    · rw [List.dropWhile_cons_of_neg h]

/-- Slashes at the ends of a path mean nothing. -/
theorem components_trim (l : List Char) :
    components (Text.trimList isSlash l) = components l := by
  have hEnd : ∀ l : List Char, components (l.reverse.dropWhile isSlash).reverse = components l := by
    intro l
    induction l using List.reverseRecOn with
    | nil => rfl
    | append_singleton l c ih =>
      rw [List.reverse_append, List.reverse_singleton, List.singleton_append]
      by_cases h : isSlash c = true
      · rw [List.dropWhile_cons_of_pos h, ih, eq_of_beq h, components_concat_slash]
      · rw [List.dropWhile_cons_of_neg h, List.reverse_cons, List.reverse_reverse]
  rw [Text.trimList, hEnd, components_dropWhile]

def trimEnds (p : Char → Bool) : List Name → List Name
  | [] => []
  | [name] => [Text.trimList p name]
  | name :: next :: names =>
    name.dropWhile p :: (next :: names).dropLast ++
      [(((next :: names).getLast (List.cons_ne_nil _ _)).reverse.dropWhile p).reverse]

theorem trimEnds_concat (p : Char → Bool) (first last : Name) (names : List Name) :
    trimEnds p (first :: (names ++ [last])) =
      first.dropWhile p :: names ++ [(last.reverse.dropWhile p).reverse] := by
  cases names with
  | nil => rfl
  | cons next names =>
    rw [List.cons_append, trimEnds]
    simp only [← List.cons_append, List.dropLast_concat, List.getLast_append_singleton]

theorem join_concat (hNames : names ≠ []) (last : Name) : join (names ++ [last]) = join names ++ '/' :: last := by
  induction names with
  | nil => exact absurd rfl hNames
  | cons name names ih =>
    rw [List.cons_append, join, Text.intercalate_cons, if_neg (by simp), join, Text.intercalate_cons]
    split
    · next hNil =>
      rw [hNil, List.nil_append, List.intercalate_singleton, List.append_nil]
      rfl
    · next hNil =>
      have hJoin : List.intercalate separator (names ++ [last]) = List.intercalate separator names ++ '/' :: last :=
        ih hNil
      rw [hJoin, List.append_assoc, List.append_assoc]

section Trim

variable {p : Char → Bool}

theorem trimList_join (hSlash : p '/' = false) (hNames : names ≠ []) :
    Text.trimList p (join names) = join (trimEnds p names) := by
  obtain ⟨first, rest, rfl⟩ := List.exists_cons_of_ne_nil hNames
  rcases List.eq_nil_or_concat rest with rfl | ⟨middle, last, rfl⟩
  · rw [join, List.intercalate_singleton, trimEnds, join, List.intercalate_singleton]
  · rw [List.concat_eq_append, trimEnds_concat, ← List.cons_append, join_concat (List.cons_ne_nil _ _),
      join_concat (List.cons_ne_nil _ _)]
    have hStart : ∀ l, (join (first :: middle) ++ '/' :: l).dropWhile p =
        join (first.dropWhile p :: middle) ++ '/' :: l := by
      intro l
      have hDrop : ∀ l', (first ++ '/' :: l').dropWhile p = first.dropWhile p ++ '/' :: l' := by
        intro l'
        rw [List.dropWhile_append]
        split
        · next hEmpty =>
          rw [List.isEmpty_iff.mp hEmpty, List.dropWhile_cons_of_neg (by rw [hSlash]; nofun), List.nil_append]
        · rfl
      rw [join, join, Text.intercalate_cons, Text.intercalate_cons]
      split
      · rw [List.append_nil, List.append_nil, hDrop]
      · rw [separator, List.singleton_append, List.append_assoc, List.append_assoc, List.cons_append, hDrop]
    rw [Text.trimList, hStart, List.reverse_append, List.reverse_cons, List.append_assoc,
      List.singleton_append, List.dropWhile_append]
    split
    · next hEmpty =>
      rw [List.dropWhile_cons_of_neg (by rw [hSlash]; nofun), List.isEmpty_iff.mp hEmpty, List.reverse_cons,
        List.reverse_reverse]
      rfl
    · rw [List.reverse_append, List.reverse_cons, List.reverse_reverse, List.append_assoc, List.singleton_append]

theorem dropWhile_free (name : Name) (h : '/' ∉ name) : '/' ∉ name.dropWhile p :=
  fun hMem => h ((List.dropWhile_sublist p).subset hMem)

theorem trimEnds_free (h : ∀ name ∈ names, '/' ∉ name) : ∀ name ∈ trimEnds p names, '/' ∉ name := by
  have hEnd : ∀ name : Name, '/' ∉ name → '/' ∉ (name.reverse.dropWhile p).reverse := by
    intro name hName hMem
    exact hName (List.mem_reverse.mp ((List.dropWhile_sublist p).subset (List.mem_reverse.mp hMem)))
  cases names with
  | nil => nofun
  | cons first rest =>
    rcases List.eq_nil_or_concat rest with rfl | ⟨middle, last, rfl⟩
    · rw [trimEnds, List.forall_mem_singleton]
      exact hEnd _ (dropWhile_free first (h first List.mem_cons_self))
    · rw [List.concat_eq_append] at h ⊢
      rw [trimEnds_concat]
      intro name hName
      rw [List.mem_append, List.mem_cons, List.mem_singleton] at hName
      rcases hName with (rfl | hName) | rfl
      · exact dropWhile_free first (h first List.mem_cons_self)
      · exact h name (List.mem_cons_of_mem _ (List.mem_append_left _ hName))
      · exact hEnd last (h last (List.mem_cons_of_mem _ (List.mem_append_right _ (List.mem_singleton_self _))))

theorem trimEnds_ne_nil (h : names ≠ []) : trimEnds p names ≠ [] := by
  obtain ⟨first, rest, rfl⟩ := List.exists_cons_of_ne_nil h
  cases rest with
  | nil => exact List.cons_ne_nil _ _
  | cons next rest => exact List.cons_ne_nil _ _

theorem components_trimList (hSlash : p '/' = false) (hNames : names ≠ []) (h : ∀ name ∈ names, '/' ∉ name) :
    components (Text.trimList p (join names)) = (trimEnds p names).filter significant := by
  rw [trimList_join hSlash hNames, components, pieces_join (trimEnds_ne_nil hNames) (trimEnds_free h)]

/-! ### What trimming loses -/

theorem significant_dropWhile {name : Name} (hDot : p '.' = false) (h : significant name = false) :
    significant (name.dropWhile p) = false := by
  rw [significant, Bool.and_eq_false_iff, bne_eq_false_iff_eq, bne_eq_false_iff_eq] at h
  rcases h with rfl | rfl
  · rfl
  · rw [here, List.dropWhile_cons_of_neg (by rw [hDot]; nofun)]
    rfl

theorem significant_reverse (name : Name) : significant name.reverse = significant name := by
  rw [significant, significant]
  congr 1
  · rw [Bool.eq_iff_iff, bne_iff_ne, bne_iff_ne, ne_eq, ne_eq, List.reverse_eq_nil_iff]
  · rw [Bool.eq_iff_iff, bne_iff_ne, bne_iff_ne, ne_eq, ne_eq, List.reverse_eq_iff]
    rfl

/-- Trimming loses two pieces at the most, and the first of them only when it means nothing then. -/
theorem length_le_trimEnds (names : List Name) :
    (names.filter significant).length ≤ ((trimEnds p names).filter significant).length + 2 ∧
    ((names.filter significant).length = ((trimEnds p names).filter significant).length + 2 →
      ∃ name, (names.filter significant).head? = some name ∧ significant (name.dropWhile p) = false) := by
  cases names with
  | nil => exact ⟨Nat.zero_le _, nofun⟩
  | cons first rest =>
    rcases List.eq_nil_or_concat rest with rfl | ⟨middle, last, rfl⟩
    · have hLength : ([first].filter significant).length ≤ 1 := List.length_filter_le _ _
      refine ⟨by omega, fun h => ?_⟩
      omega
    · have hSplit : ∀ a b : Name, ((a :: middle ++ [b]).filter significant).length =
          (if significant a then 1 else 0) + (middle.filter significant).length +
            if significant b then 1 else 0 := by
        intro a b
        rw [List.filter_append, List.length_append, List.filter_cons, List.filter_singleton]
        cases significant a <;> cases significant b <;> simp [Nat.add_comm]
      rw [List.concat_eq_append, trimEnds_concat, ← List.cons_append, hSplit, hSplit]
      constructor
      · split <;> split <;> omega
      · intro hLost
        have hFirst : significant first = true := by
          cases h : significant first with
          | true => rfl
          | false =>
            rw [h] at hLost
            split at hLost <;> split at hLost <;> simp at hLost <;> omega
        have hGone : significant (first.dropWhile p) = false := by
          cases h : significant (first.dropWhile p) with
          | false => rfl
          | true =>
            rw [h, hFirst] at hLost
            split at hLost <;> split at hLost <;> omega
        refine ⟨first, ?_, hGone⟩
        rw [List.cons_append, List.filter_cons, if_pos hFirst, List.head?_cons]

theorem length_trimEnds (names : List Name) : (trimEnds p names).length = names.length := by
  cases names with
  | nil => rfl
  | cons first rest =>
    rcases List.eq_nil_or_concat rest with rfl | ⟨middle, last, rfl⟩
    · rfl
    · rw [List.concat_eq_append, trimEnds_concat]
      simp

/-- A path whose first name is lost by trimming gets shorter. -/
theorem length_trimEnds_lt {first : Name} (hDot : p '.' = false) (hFirst : names.head? = some first)
    (hGone : significant (first.dropWhile p) = false) :
    ((trimEnds p names).filter significant).length < names.length := by
  obtain ⟨rest, rfl⟩ := List.head?_eq_some_iff.mp hFirst
  rcases List.eq_nil_or_concat rest with rfl | ⟨middle, last, rfl⟩
  · have hNone : significant (Text.trimList p first) = false := by
      rw [Text.trimList, significant_reverse]
      exact significant_dropWhile hDot ((significant_reverse _).trans hGone)
    rw [trimEnds, List.filter_singleton, hNone]
    exact Nat.zero_lt_one
  · rw [List.concat_eq_append, trimEnds_concat, List.cons_append, List.filter_cons, hGone, if_neg nofun]
    refine Nat.lt_of_le_of_lt (List.length_filter_le _ _) ?_
    simp

end Trim

/-! ### Walks that go up -/

theorem follow_length {r : List Name} (h : follow dir names = some r) :
    r.length + 2 * names.count up = dir.length + names.length := by
  induction names generalizing dir with
  | nil =>
    cases h
    rfl
  | cons name names ih =>
    rw [follow] at h
    split at h
    · next hUp =>
      split at h
      · cases h
      · next hDir =>
        have hLength := ih h
        have hPos : 0 < dir.length := List.length_pos_of_ne_nil hDir
        rw [List.length_dropLast] at hLength
        rw [hUp, List.count_cons_self, List.length_cons]
        omega
    · next hUp =>
      have hLength := ih h
      rw [List.length_append, List.length_singleton] at hLength
      rw [List.count_cons_of_ne hUp, List.length_cons]
      omega

theorem follow_head {r : List Name} (h : follow dir names = some r) (hCount : names.count up < dir.length) :
    r.head? = dir.head? := by
  induction names generalizing dir with
  | nil =>
    cases h
    rfl
  | cons name names ih =>
    rw [follow] at h
    split at h
    · next hUp =>
      rw [hUp, List.count_cons_self] at hCount
      split at h
      · cases h
      · have hHead := ih h (by rw [List.length_dropLast]; omega)
        obtain ⟨first, rest, rfl⟩ := List.exists_cons_of_length_pos (Nat.zero_lt_of_lt hCount)
        cases rest with
        | nil =>
          rw [List.length_singleton] at hCount
          omega
        | cons next rest => exact hHead
    · next hUp =>
      rw [List.count_cons_of_ne hUp] at hCount
      have hHead := ih h (by rw [List.length_append]; omega)
      obtain ⟨first, rest, rfl⟩ := List.exists_cons_of_length_pos (Nat.zero_lt_of_lt hCount)
      exact hHead

end Exosuit.Lib.Path
