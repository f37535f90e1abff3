import Exosuit.Lib.Codes
import Exosuit.Lib.Path
import Exosuit.Reactivity.Glob

/-!
# Content addresses of directories

The address of a directory is taken over one string of bytes: the name, the kind and the child's
hash of each entry, in the order of the names. Nothing says where a name or a hash ends.
-/

namespace Exosuit.Reactivity

open Lib (Bytes update utf8)

def EntryKind.letter : EntryKind → Char
  | .file => 'F'
  | .directory => 'D'
  | .symlink => 'L'

def childText : Revision → String
  | .disk hash => hash
  | _ => "unknown"

@[simp] theorem childText_disk (hash : String) : childText (.disk hash) = hash := rfl

def hashEntry (hashed : Bytes) (entry : DirectoryEntry) : Bytes :=
  update (update (update hashed (utf8 entry.name)) (utf8 (String.singleton entry.kind.letter)))
    (utf8 (childText entry.hash))

/-- What `compute_hash` has given its hasher when it finalizes it. -/
def directoryBytes (entries : List DirectoryEntry) : Bytes := entries.foldl hashEntry []

def sortEntries (entries : List DirectoryEntry) : List DirectoryEntry :=
  entries.mergeSort fun a b => a.name ≤ b.name

/-- `DirectoryCell::new`, with the revision of the cell. -/
def DirectoryCell.new (hash : Bytes → String) (path : Path) (entries : List DirectoryEntry) :
    DirectoryCell × Revision :=
  let entries := sortEntries entries
  (⟨path, entries⟩, .disk (hash (directoryBytes entries)))

/-- What is hashed for the entries of a directory. -/
def listingBytes (entries : List DirectoryEntry) : Bytes := directoryBytes (sortEntries entries)

/-! ## The host's copy -/

structure HostEntry where
  name : String
  kind : String
  childHash : String

def kindLetter : String → Except String Char
  | "file" => .ok 'F'
  | "dir" => .ok 'D'
  | "symlink" => .ok 'L'
  | other => .error ("Invalid entry kind: " ++ other)

def hashHostEntry (hashed : Bytes) (entry : HostEntry) : Except String Bytes := do
  let hashed := update hashed (utf8 entry.name)
  let letter ← kindLetter entry.kind
  let hashed := update hashed (utf8 (String.singleton letter))
  return update hashed (utf8 entry.childHash)

/-- `compute_directory_hash`, once the entries are read. -/
def computeDirectoryHash (hash : Bytes → String) (entries : List HostEntry) : Except String String := do
  let hashed ← (entries.mergeSort fun a b => a.name ≤ b.name).foldlM hashHostEntry []
  return hash hashed

/-! ## Listings -/

/-- A name that an entry of a directory may have. -/
def IsFileName (name : List Char) : Prop := Lib.Path.IsEntry name ∧ '\x00' ∉ name

instance (name : List Char) : Decidable (IsFileName name) := inferInstanceAs (Decidable (_ ∧ _))

/-- The entries of a directory, with child hashes of a kind. -/
structure DirectoryListing (IsHash : Revision → Prop) where
  entries : List DirectoryEntry
  distinct : (entries.map DirectoryEntry.name).Nodup
  legal : ∀ entry ∈ entries, IsFileName entry.name.toList
  hashes : ∀ entry ∈ entries, IsHash entry.hash

/-- The bytes do not depend on the order of the entries, and no other directory has them. -/
structure Separated {IsHash : Revision → Prop} (listing : DirectoryListing IsHash) : Prop where
  order : ∀ entries, entries.Perm listing.entries → listingBytes entries = listingBytes listing.entries
  other : ∀ other : DirectoryListing IsHash, listingBytes other.entries = listingBytes listing.entries →
    other.entries.Perm listing.entries

/-- Lower-case hexadecimal digits. -/
def isHexDigit (c : Char) : Bool := c.isDigit || ('a' ≤ c && c ≤ 'f')

/-- A SHA-256 digest in hexadecimal. -/
def IsDigest (hash : Revision) : Prop :=
  ∃ digits : String, hash = .disk digits ∧ digits.toList.length = 64 ∧ digits.toList.all isHexDigit = true

/-! ## What is hashed, as text -/

variable {entries entries' : List DirectoryEntry} {entry : DirectoryEntry}

def entryText (entry : DirectoryEntry) : List Char :=
  entry.name.toList ++ entry.kind.letter :: (childText entry.hash).toList

def listingText (entries : List DirectoryEntry) : List Char := (sortEntries entries).flatMap entryText

theorem directoryBytes_eq (entries : List DirectoryEntry) :
    directoryBytes entries = utf8 (String.ofList (entries.flatMap entryText)) := by
  have hFold : ∀ hashed, entries.foldl hashEntry hashed =
      hashed ++ utf8 (String.ofList (entries.flatMap entryText)) := by
    induction entries with
    | nil => exact fun hashed => (List.append_nil hashed).symm
    | cons entry entries ih =>
      intro hashed
      rw [List.foldl_cons, ih, List.flatMap_cons, String.ofList_append, Lib.utf8_append]
      unfold hashEntry update entryText utf8
      simp
  exact hFold []

theorem listingBytes_eq_iff :
    listingBytes entries = listingBytes entries' ↔ listingText entries = listingText entries' := by
  unfold listingBytes listingText
  rw [directoryBytes_eq, directoryBytes_eq]
  constructor
  · intro h
    exact String.ofList_injective (Lib.utf8_injective h)
  · intro h
    rw [h]

/-! ## The order of the entries -/

def Ordered (entries : List DirectoryEntry) : Prop := entries.Pairwise fun a b => a.name < b.name

theorem sortEntries_of_ordered (h : Ordered entries) : sortEntries entries = entries :=
  List.mergeSort_of_pairwise (h.imp fun hLt => decide_eq_true hLt.le)

theorem ordered_sortEntries (h : (entries.map DirectoryEntry.name).Nodup) : Ordered (sortEntries entries) := by
  have hSorted : (sortEntries entries).Pairwise fun a b => decide (a.name ≤ b.name) = true := by
    refine List.pairwise_mergeSort (fun a b c hab hbc => ?_) (fun a b => ?_) entries
    · exact decide_eq_true (le_trans (of_decide_eq_true hab) (of_decide_eq_true hbc))
    · rw [← Bool.decide_or]
      exact decide_eq_true (le_total a.name b.name)
  have hDistinct : ((sortEntries entries).map DirectoryEntry.name).Nodup :=
    ((List.mergeSort_perm entries _).map DirectoryEntry.name).nodup_iff.mpr h
  have hApart := List.pairwise_map.mp hDistinct
  exact (List.Pairwise.and hSorted hApart).imp fun hBoth => lt_of_le_of_ne (of_decide_eq_true hBoth.1) hBoth.2

theorem sortEntries_perm (entries : List DirectoryEntry) : (sortEntries entries).Perm entries :=
  List.mergeSort_perm entries _

theorem sortEntries_eq_of_perm (hPerm : entries.Perm entries')
    (hDistinct : (entries'.map DirectoryEntry.name).Nodup) : sortEntries entries = sortEntries entries' := by
  have hEntries := (hPerm.map DirectoryEntry.name).nodup_iff.mpr hDistinct
  refine List.Perm.eq_of_pairwise (fun a b _ _ hab hba => ?_) (ordered_sortEntries hEntries)
    (ordered_sortEntries hDistinct)
    ((sortEntries_perm entries).trans (hPerm.trans (sortEntries_perm entries').symm))
  exact absurd (lt_trans hab hba) (lt_irrefl a.name)

theorem length_sortEntries (entries : List DirectoryEntry) : (sortEntries entries).length = entries.length :=
  (sortEntries_perm entries).length_eq

theorem name_lt_append {name : String} (c : Char) (rest : List Char) :
    name < String.ofList (name.toList ++ c :: rest) := by
  rw [String.ofList_append, String.ofList_toList]
  exact Lib.lt_append fun hNil => List.cons_ne_nil c rest (String.ofList_eq_empty_iff.mp hNil)

/-! ## The host agrees -/

def EntryKind.hostName : EntryKind → String
  | .file => "file"
  | .directory => "dir"
  | .symlink => "symlink"

def DirectoryEntry.toHost (entry : DirectoryEntry) : HostEntry :=
  ⟨entry.name, entry.kind.hostName, childText entry.hash⟩

theorem hashHostEntry_toHost (hashed : Bytes) (entry : DirectoryEntry) :
    hashHostEntry hashed entry.toHost = .ok (hashEntry hashed entry) := by
  obtain ⟨name, kind, revision⟩ := entry
  cases kind <;> rfl

theorem computeDirectoryHash_toHost (hash : Bytes → String) (path : Path) (entries : List DirectoryEntry) :
    (computeDirectoryHash hash (entries.map DirectoryEntry.toHost)).map Revision.disk =
      .ok (DirectoryCell.new hash path entries).2 := by
  have hSort : (entries.map DirectoryEntry.toHost).mergeSort (fun a b => a.name ≤ b.name) =
      (sortEntries entries).map DirectoryEntry.toHost := by
    symm
    exact List.map_mergeSort fun _ _ _ _ => rfl
  have hFold : ∀ (l : List DirectoryEntry) (hashed : Bytes),
      (l.map DirectoryEntry.toHost).foldlM hashHostEntry hashed = .ok (l.foldl hashEntry hashed) := by
    intro l
    induction l with
    | nil => exact fun _ => rfl
    | cons entry l ih =>
      intro hashed
      rw [List.map_cons, List.foldlM_cons, hashHostEntry_toHost, List.foldl_cons]
      exact ih _
  unfold computeDirectoryHash
  rw [hSort, hFold]
  rfl

/-! ## Other readings -/

section

variable {IsHash : Revision → Prop} {listing : DirectoryListing IsHash}

theorem letter_injective : Function.Injective EntryKind.letter := by
  intro k k'
  cases k <;> cases k' <;> decide

theorem entryText_ne_nil (entry : DirectoryEntry) : entryText entry ≠ [] :=
  List.append_ne_nil_of_right_ne_nil _ (List.cons_ne_nil _ _)

theorem sortEntries_eq_nil : sortEntries entries = [] ↔ entries = [] := by
  rw [← List.length_eq_zero_iff, length_sortEntries, List.length_eq_zero_iff]

theorem sortEntries_singleton (entry : DirectoryEntry) : sortEntries [entry] = [entry] :=
  List.mergeSort_singleton entry

theorem Separated.perm_of_text (h : Separated listing) (hOrdered : Ordered entries)
    (hLegal : ∀ entry ∈ entries, IsFileName entry.name.toList) (hHashes : ∀ entry ∈ entries, IsHash entry.hash)
    (hText : entries.flatMap entryText = listingText listing.entries) : entries.Perm listing.entries := by
  have hDistinct : (entries.map DirectoryEntry.name).Nodup :=
    List.pairwise_map.mpr (hOrdered.imp fun hLt => ne_of_lt hLt)
  refine h.other ⟨entries, hDistinct, hLegal, hHashes⟩ (listingBytes_eq_iff.mpr ?_)
  unfold listingText at hText ⊢
  rw [sortEntries_of_ordered hOrdered, hText]

theorem separated_of_text (h : ∀ other : DirectoryListing IsHash,
    listingText other.entries = listingText listing.entries → (sortEntries other.entries).Perm listing.entries) :
    Separated listing where
  order entries hPerm := by
    unfold listingBytes
    rw [sortEntries_eq_of_perm hPerm listing.distinct]
  other other hBytes := (sortEntries_perm other.entries).symm.trans (h other (listingBytes_eq_iff.mp hBytes))

theorem separated_of_nil (h : listing.entries = []) : Separated listing := by
  refine separated_of_text fun other hText => ?_
  rw [h] at hText ⊢
  cases hOther : sortEntries other.entries with
  | nil => exact .refl _
  | cons entry rest =>
    unfold listingText at hText
    rw [hOther, sortEntries_eq_nil.mpr rfl, List.flatMap_cons, List.flatMap_nil] at hText
    exact absurd (List.append_eq_nil_iff.mp hText).1 (entryText_ne_nil entry)

end

/-! ## Any child hash -/

/-- The text of the entry is read in one way: its hash is not that of a child without one, the name
ends at one letter only, and no second entry hides in the hash. -/
structure OneReading (entry : DirectoryEntry) : Prop where
  hash : ∃ text, entry.hash = .disk text ∧ text ≠ "unknown"
  name : ∀ name (kind : EntryKind) rest, entryText entry = name ++ kind.letter :: rest → IsFileName name →
    name = entry.name.toList
  second : ∀ hash name (kind : EntryKind) rest,
    (childText entry.hash).toList = hash ++ (name ++ kind.letter :: rest) → IsFileName name →
      ¬ entry.name < String.ofList name

theorem childText_inj {hash : Revision} {text : String} (hText : text ≠ "unknown")
    (h : childText hash = text) : hash = .disk text := by
  cases hash with
  | disk text' => exact congrArg Revision.disk h
  | _ => exact absurd h.symm hText

section

variable {listing : DirectoryListing fun _ => True}

theorem not_separated_of_two {first second : DirectoryEntry} {rest : List DirectoryEntry}
    (h : sortEntries listing.entries = first :: second :: rest) : ¬ Separated listing := by
  intro hSeparated
  have hMem : ∀ entry ∈ first :: second :: rest, IsFileName entry.name.toList := fun entry hEntry =>
    listing.legal entry ((sortEntries_perm _).mem_iff.mp (h ▸ hEntry))
  have hOrdered := ordered_sortEntries listing.distinct
  rw [h] at hOrdered
  obtain ⟨hFirst, hRest⟩ := List.pairwise_cons.mp hOrdered
  -- The second entry is taken for the end of the first one's hash.
  let hash := String.ofList ((childText first.hash).toList ++ entryText second)
  have hPerm := @Separated.perm_of_text ({ first with hash := .disk hash } :: rest) _ listing hSeparated
    (List.pairwise_cons.mpr ⟨fun b hb => hFirst b (List.mem_cons_of_mem _ hb), (List.pairwise_cons.mp hRest).2⟩)
    (List.forall_mem_cons.mpr ⟨hMem first List.mem_cons_self,
      fun b hb => hMem b (List.mem_cons_of_mem _ (List.mem_cons_of_mem _ hb))⟩)
    (fun _ _ => trivial) (by
      unfold listingText
      rw [h, List.flatMap_cons, List.flatMap_cons, List.flatMap_cons]
      simp [entryText, hash])
  have hLength := hPerm.length_eq
  rw [← length_sortEntries listing.entries, h] at hLength
  simp at hLength

theorem oneReading_of_separated {entry : DirectoryEntry} (h : listing.entries = [entry])
    (hSeparated : Separated listing) : OneReading entry := by
  have hText : listingText listing.entries = entryText entry := by
    unfold listingText
    rw [h, sortEntries_singleton, List.flatMap_singleton]
  have hLegal : IsFileName entry.name.toList := listing.legal entry (h ▸ List.mem_cons_self)
  have hOne : ∀ other : DirectoryEntry, IsFileName other.name.toList → entryText other = entryText entry →
      other = entry := by
    intro other hOther hSame
    have hPerm := @Separated.perm_of_text [other] _ listing hSeparated (List.pairwise_singleton _ _)
      (List.forall_mem_singleton.mpr hOther) (fun _ _ => trivial)
      (by rw [List.flatMap_singleton, hSame, hText])
    rw [h] at hPerm
    exact List.singleton_inj.mp (List.perm_singleton.mp hPerm)
  constructor
  · by_contra hHash
    have hUnknown : childText entry.hash = "unknown" := by
      cases hRevision : entry.hash with
      | disk text =>
        by_contra hText
        exact hHash ⟨text, hRevision, hText⟩
      | _ => rfl
    have hSame : ∀ hash, childText hash = "unknown" → hash = entry.hash := by
      intro hash hChild
      have hEntry := hOne { entry with hash := hash } hLegal (by
        unfold entryText
        dsimp only
        rw [hChild, hUnknown])
      exact congrArg DirectoryEntry.hash hEntry
    exact absurd ((hSame (.disk "unknown") rfl).trans (hSame (.counter 0) rfl).symm) (by decide)
  · intro name kind rest hSplit hName
    have hEntry := hOne ⟨String.ofList name, kind, .disk (String.ofList rest)⟩
      (by rwa [String.toList_ofList]) (by
        rw [hSplit]
        unfold entryText childText
        rw [String.toList_ofList, String.toList_ofList])
    rw [← hEntry, String.toList_ofList]
  · intro hash name kind rest hSplit hName hLt
    have hPerm := @Separated.perm_of_text
      [{ entry with hash := .disk (String.ofList hash) }, ⟨String.ofList name, kind, .disk (String.ofList rest)⟩]
      _ listing hSeparated (List.pairwise_pair.mpr hLt)
      (List.forall_mem_cons.mpr ⟨hLegal, List.forall_mem_singleton.mpr (by rwa [String.toList_ofList])⟩)
      (fun _ _ => trivial) (by
        rw [hText, List.flatMap_cons, List.flatMap_singleton]
        simp [entryText, hSplit])
    have hLength := hPerm.length_eq
    rw [h] at hLength
    simp at hLength

theorem separated_of_oneReading {entry : DirectoryEntry} (h : listing.entries = [entry])
    (hOne : OneReading entry) : Separated listing := by
  refine separated_of_text fun other hText => ?_
  have hOrdered := ordered_sortEntries other.distinct
  have hLegal : ∀ o ∈ sortEntries other.entries, IsFileName o.name.toList := fun o ho =>
    other.legal o ((sortEntries_perm _).mem_iff.mp ho)
  unfold listingText at hText
  rw [h] at hText ⊢
  rw [sortEntries_singleton, List.flatMap_singleton] at hText
  cases hOther : sortEntries other.entries with
  | nil =>
    rw [hOther, List.flatMap_nil] at hText
    exact absurd hText.symm (entryText_ne_nil entry)
  | cons o rest =>
    rw [hOther] at hText hOrdered hLegal
    rw [List.flatMap_cons] at hText
    have hSplit : entryText entry =
        o.name.toList ++ o.kind.letter :: ((childText o.hash).toList ++ rest.flatMap entryText) := by
      rw [← hText]
      simp [entryText]
    have hName := hOne.name _ _ _ hSplit (hLegal o List.mem_cons_self)
    have hParts : entry.name.toList ++ entry.kind.letter :: (childText entry.hash).toList =
        o.name.toList ++ o.kind.letter :: ((childText o.hash).toList ++ rest.flatMap entryText) := hSplit
    rw [hName, List.append_right_inj, List.cons_eq_cons] at hParts
    obtain ⟨hKind, hHash⟩ := hParts
    cases rest with
    | nil =>
      obtain ⟨text, hRevision, hUnknown⟩ := hOne.hash
      have hChild : childText o.hash = text := by
        rw [hRevision, List.flatMap_nil, List.append_nil] at hHash
        exact (String.ext_iff.mpr hHash).symm
      have hEntry : o = entry := by
        cases o
        cases entry
        dsimp only at hName hKind hRevision hChild
        rw [String.ext_iff.mpr hName, letter_injective hKind, hRevision, childText_inj hUnknown hChild]
      rw [hEntry]
    | cons next rest =>
      have hNext : o.name < next.name := (List.pairwise_cons.mp hOrdered).1 next List.mem_cons_self
      refine absurd ?_ (hOne.second (childText o.hash).toList next.name.toList next.kind
        ((childText next.hash).toList ++ rest.flatMap entryText) ?_ ?_)
      · rw [String.ofList_toList, ← String.ext_iff.mpr hName]
        exact hNext
      · rw [hHash]
        simp [entryText]
      · exact hLegal next (List.mem_cons_of_mem _ List.mem_cons_self)

theorem separated_iff_oneReading : Separated listing ↔
    listing.entries = [] ∨ ∃ entry, listing.entries = [entry] ∧ OneReading entry := by
  constructor
  · intro hSeparated
    cases hSorted : sortEntries listing.entries with
    | nil => exact .inl (sortEntries_eq_nil.mp hSorted)
    | cons first rest =>
      cases rest with
      | nil =>
        have hEntries : listing.entries = [first] :=
          List.perm_singleton.mp (hSorted ▸ (sortEntries_perm listing.entries).symm)
        exact .inr ⟨first, hEntries, oneReading_of_separated hEntries hSeparated⟩
      | cons second rest => exact absurd hSeparated (not_separated_of_two hSorted)
  · rintro (hNil | ⟨entry, hEntries, hOne⟩)
    · exact separated_of_nil hNil
    · exact separated_of_oneReading hEntries hOne

end

/-! ## Child hashes that are digests -/

/-- The name reads as an entry and the name of a later one. -/
def SpellsTwo (name : List Char) : Prop :=
  ∃ (first : List Char) (kind : EntryKind) (digits second : List Char),
    name = first ++ kind.letter :: (digits ++ second) ∧ IsFileName first ∧ digits.length = 64 ∧
      digits.all isHexDigit = true ∧ IsFileName second ∧ String.ofList first < String.ofList second

/-- Neither a separator of paths nor the end of a C string. -/
def Clean (l : List Char) : Prop := '/' ∉ l ∧ '\x00' ∉ l

theorem Clean.append {l m : List Char} (hl : Clean l) (hm : Clean m) : Clean (l ++ m) :=
  ⟨fun h => (List.mem_append.mp h).elim hl.1 hm.1, fun h => (List.mem_append.mp h).elim hl.2 hm.2⟩

theorem Clean.letter (kind : EntryKind) {l : List Char} (hl : Clean l) : Clean (kind.letter :: l) := by
  have hLetter : Clean [kind.letter] := by
    cases kind <;> exact ⟨by decide, by decide⟩
  exact hLetter.append hl

theorem IsFileName.clean {name : List Char} (h : IsFileName name) : Clean name := ⟨h.1.2.2.2, h.2⟩

theorem clean_of_hex {digits : List Char} (h : digits.all isHexDigit = true) : Clean digits :=
  ⟨fun hMem => absurd (List.all_eq_true.mp h _ hMem) (by decide),
    fun hMem => absurd (List.all_eq_true.mp h _ hMem) (by decide)⟩

theorem isFileName_of_letter {name : List Char} {kind : EntryKind} (hClean : Clean name)
    (hLetter : kind.letter ∈ name) : IsFileName name := by
  refine ⟨⟨List.ne_nil_of_mem hLetter, ?_, ?_, hClean.1⟩, hClean.2⟩
  all_goals
    rintro rfl
    revert hLetter
    cases kind <;> decide

theorem entryText_clean (hName : IsFileName entry.name.toList) (hHash : IsDigest entry.hash) :
    Clean (entryText entry) := by
  obtain ⟨digits, hDigits, -, hHex⟩ := hHash
  refine hName.clean.append (Clean.letter _ ?_)
  rw [hDigits]
  exact clean_of_hex hHex

section

variable {listing : DirectoryListing IsDigest}

theorem IsDigest.length {hash : Revision} (h : IsDigest hash) : (childText hash).toList.length = 64 := by
  obtain ⟨digits, rfl, hLength, -⟩ := h
  exact hLength

theorem not_separated_of_last {init : List DirectoryEntry} {first second : DirectoryEntry}
    (h : sortEntries listing.entries = init ++ [first, second]) : ¬ Separated listing := by
  intro hSeparated
  have hMem : ∀ entry ∈ init ++ [first, second], entry ∈ listing.entries := fun entry hEntry =>
    (sortEntries_perm _).mem_iff.mp (h ▸ hEntry)
  have hOrdered := ordered_sortEntries listing.distinct
  rw [h] at hOrdered
  obtain ⟨hInit, -, hBefore⟩ := List.pairwise_append.mp hOrdered
  have hFirst : first ∈ listing.entries := hMem _ (List.mem_append_right _ List.mem_cons_self)
  have hSecond : second ∈ listing.entries :=
    hMem _ (List.mem_append_right _ (List.mem_cons_of_mem _ List.mem_cons_self))
  let name := String.ofList (entryText first ++ second.name.toList)
  have hName : IsFileName name.toList := by
    rw [String.toList_ofList]
    refine @isFileName_of_letter _ first.kind ?_ (by simp [entryText])
    exact (entryText_clean (listing.legal _ hFirst) (listing.hashes _ hFirst)).append
      (listing.legal _ hSecond).clean
  have hLt : first.name < name := by
    have hText : entryText first ++ second.name.toList =
        first.name.toList ++ first.kind.letter :: ((childText first.hash).toList ++ second.name.toList) := by
      simp [entryText]
    dsimp only [name]
    rw [hText]
    exact name_lt_append _ _
  have hPerm := @Separated.perm_of_text (init ++ [{ second with name := name }]) _ listing hSeparated
    (List.pairwise_append.mpr ⟨hInit, List.pairwise_singleton _ _, fun a ha b hb => by
      rw [List.mem_singleton.mp hb]
      exact lt_trans (hBefore a ha first List.mem_cons_self) hLt⟩)
    (fun entry hEntry => by
      rcases List.mem_append.mp hEntry with hOld | hNew
      · exact listing.legal _ (hMem _ (List.mem_append_left _ hOld))
      · rw [List.mem_singleton.mp hNew]
        exact hName)
    (fun entry hEntry => by
      rcases List.mem_append.mp hEntry with hOld | hNew
      · exact listing.hashes _ (hMem _ (List.mem_append_left _ hOld))
      · rw [List.mem_singleton.mp hNew]
        exact listing.hashes second hSecond) (by
      unfold listingText
      rw [h, List.flatMap_append, List.flatMap_append]
      simp [entryText, name])
  have hLength := hPerm.length_eq
  rw [← length_sortEntries listing.entries, h] at hLength
  simp at hLength

theorem not_separated_of_spellsTwo (h : listing.entries = [entry]) (hSpells : SpellsTwo entry.name.toList) :
    ¬ Separated listing := by
  intro hSeparated
  obtain ⟨first, kind, digits, second, hName, hFirst, hLength, hHex, hSecond, hLt⟩ := hSpells
  have hPerm := @Separated.perm_of_text
    [⟨String.ofList first, kind, .disk (String.ofList digits)⟩, { entry with name := String.ofList second }]
    _ listing hSeparated (List.pairwise_pair.mpr hLt)
    (List.forall_mem_cons.mpr ⟨by rwa [String.toList_ofList],
      List.forall_mem_singleton.mpr (by rwa [String.toList_ofList])⟩)
    (List.forall_mem_cons.mpr ⟨⟨_, rfl, by rwa [String.toList_ofList], by rwa [String.toList_ofList]⟩,
      List.forall_mem_singleton.mpr (listing.hashes entry (h ▸ List.mem_cons_self))⟩) (by
      unfold listingText
      rw [h, sortEntries_singleton, List.flatMap_cons, List.flatMap_singleton, List.flatMap_singleton]
      simp [entryText, hName])
  have hCount := hPerm.length_eq
  rw [h] at hCount
  simp at hCount

theorem clean_flatMap {rest : List DirectoryEntry} (h : ∀ o ∈ rest, o ∈ listing.entries) :
    Clean (rest.flatMap entryText) := by
  induction rest with
  | nil => exact ⟨List.not_mem_nil, List.not_mem_nil⟩
  | cons o rest ih =>
    obtain ⟨ho, hRest⟩ := List.forall_mem_cons.mp h
    rw [List.flatMap_cons]
    exact (entryText_clean (listing.legal o ho) (listing.hashes o ho)).append (ih hRest)

theorem joined_name {rest : List DirectoryEntry} {last : DirectoryEntry} {name : String}
    (hMem : ∀ o ∈ rest ++ [last], o ∈ listing.entries) (hLt : ∀ o ∈ rest ++ [last], name < o.name) :
    IsFileName (rest.flatMap entryText ++ last.name.toList) ∧
      name < String.ofList (rest.flatMap entryText ++ last.name.toList) := by
  have hLast := hMem last (List.mem_append_right _ List.mem_cons_self)
  cases rest with
  | nil =>
    rw [List.flatMap_nil, List.nil_append, String.ofList_toList]
    exact ⟨listing.legal last hLast, hLt last (List.mem_append_right _ List.mem_cons_self)⟩
  | cons next rest =>
    have hText : (next :: rest).flatMap entryText ++ last.name.toList = next.name.toList ++ next.kind.letter ::
        ((childText next.hash).toList ++ (rest.flatMap entryText ++ last.name.toList)) := by
      simp [entryText]
    have hClean := (clean_flatMap fun o ho => hMem o (List.mem_append_left _ ho)).append
      (listing.legal last hLast).clean
    rw [hText] at hClean ⊢
    refine ⟨isFileName_of_letter hClean (List.mem_append_right _ List.mem_cons_self), ?_⟩
    exact lt_trans (hLt next (List.mem_append_left _ List.mem_cons_self)) (name_lt_append _ _)

theorem separated_of_not_spellsTwo (h : listing.entries = [entry]) (hSpells : ¬ SpellsTwo entry.name.toList) :
    Separated listing := by
  refine separated_of_text fun other hText => ?_
  have hOrdered := ordered_sortEntries other.distinct
  have hMem : ∀ o ∈ sortEntries other.entries, o ∈ other.entries := fun o ho =>
    (sortEntries_perm _).mem_iff.mp ho
  unfold listingText at hText
  rw [h] at hText ⊢
  rw [sortEntries_singleton, List.flatMap_singleton] at hText
  rcases List.eq_nil_or_concat (sortEntries other.entries) with hNil | ⟨init, last, hOther⟩
  · rw [hNil, List.flatMap_nil] at hText
    exact absurd hText.symm (entryText_ne_nil entry)
  · rw [List.concat_eq_append] at hOther
    rw [hOther] at hText hOrdered hMem ⊢
    have hLast := hMem last (List.mem_append_right _ List.mem_cons_self)
    have hEnds : (init.flatMap entryText ++ last.name.toList) ++ last.kind.letter :: (childText last.hash).toList =
        entry.name.toList ++ entry.kind.letter :: (childText entry.hash).toList := by
      have hWhole : init.flatMap entryText ++ entryText last = entryText entry := by
        rw [← hText, List.flatMap_append, List.flatMap_singleton]
      rw [List.append_assoc]
      exact hWhole
    obtain ⟨hName, hRest⟩ := List.append_inj' hEnds (by
      rw [List.length_cons, List.length_cons, (other.hashes _ hLast).length,
        (listing.hashes entry (h ▸ List.mem_cons_self)).length])
    obtain ⟨hKind, hHash⟩ := List.cons_eq_cons.mp hRest
    have hRevision : last.hash = entry.hash := by
      obtain ⟨digits, hDigits, -⟩ := other.hashes _ hLast
      obtain ⟨digits', hDigits', -⟩ := listing.hashes entry (h ▸ List.mem_cons_self)
      rw [hDigits, hDigits'] at hHash ⊢
      exact congrArg Revision.disk (String.ext_iff.mpr hHash)
    cases init with
    | nil =>
      have hEntry : last = entry := by
        cases last
        cases entry
        dsimp only at hName hKind hRevision
        rw [String.ext_iff.mpr hName, letter_injective hKind, hRevision]
      rw [hEntry]
      exact .refl _
    | cons first rest =>
      obtain ⟨digits, hDigits, hLength, hHex⟩ := other.hashes first (hMem first List.mem_cons_self)
      obtain ⟨hSecond, hLt⟩ := joined_name (fun o ho => hMem o (List.mem_cons_of_mem _ ho))
        (List.pairwise_cons.mp hOrdered).1
      refine absurd ⟨first.name.toList, first.kind, digits.toList, rest.flatMap entryText ++ last.name.toList, ?_,
        other.legal first (hMem first List.mem_cons_self), hLength, hHex, hSecond, ?_⟩ hSpells
      · rw [← hName]
        simp [entryText, hDigits]
      · rw [String.ofList_toList]
        exact hLt

theorem separated_iff_not_spellsTwo : Separated listing ↔
    listing.entries = [] ∨ ∃ entry, listing.entries = [entry] ∧ ¬ SpellsTwo entry.name.toList := by
  constructor
  · intro hSeparated
    rcases List.eq_nil_or_concat (sortEntries listing.entries) with hNil | ⟨init, second, hSorted⟩
    · exact .inl (sortEntries_eq_nil.mp hNil)
    · rw [List.concat_eq_append] at hSorted
      rcases List.eq_nil_or_concat init with rfl | ⟨init, first, rfl⟩
      · have hEntries : listing.entries = [second] := by
          have hPerm := sortEntries_perm listing.entries
          rw [hSorted] at hPerm
          exact List.perm_singleton.mp hPerm.symm
        exact .inr ⟨second, hEntries, fun hSpells => not_separated_of_spellsTwo hEntries hSpells hSeparated⟩
      · rw [List.concat_eq_append, List.append_assoc] at hSorted
        exact absurd hSeparated (not_separated_of_last hSorted)
  · rintro (hNil | ⟨entry, hEntries, hOne⟩)
    · exact separated_of_nil hNil
    · exact separated_of_not_spellsTwo hEntries hOne

end

/-- When the bytes of a directory are its own: among all directories, and among those whose child
hashes are digests. -/
theorem listingBytes_separate_iff (listing : DirectoryListing fun _ => True)
    (digests : DirectoryListing IsDigest) :
    (Separated listing ↔ listing.entries = [] ∨ ∃ entry, listing.entries = [entry] ∧ OneReading entry) ∧
    (Separated digests ↔
      digests.entries = [] ∨ ∃ entry, digests.entries = [entry] ∧ ¬ SpellsTwo entry.name.toList) :=
  ⟨separated_iff_oneReading, separated_iff_not_spellsTwo⟩

section Samples

def zeros : List Char := List.replicate 64 '0'

def zerosHash : Revision := .disk (String.ofList zeros)

def twoFiles : List DirectoryEntry := [⟨"a", .file, zerosHash⟩, ⟨"b", .file, zerosHash⟩]

/-- The name holds the kind and the hash of the first file and the name of the second. -/
def oneFile : List DirectoryEntry := [⟨String.ofList ('a' :: 'F' :: zeros ++ ['b']), .file, zerosHash⟩]

theorem zerosHash_isDigest : IsDigest zerosHash :=
  ⟨_, rfl, by rw [String.toList_ofList]; decide, by rw [String.toList_ofList]; decide⟩

theorem ordered_twoFiles : Ordered twoFiles :=
  List.pairwise_pair.mpr (String.lt_iff_toList_lt.mpr (by decide))

def twoFilesListing : DirectoryListing IsDigest where
  entries := twoFiles
  distinct := by decide
  legal := List.forall_mem_cons.mpr ⟨by decide, List.forall_mem_singleton.mpr (by decide)⟩
  hashes := List.forall_mem_cons.mpr ⟨zerosHash_isDigest, List.forall_mem_singleton.mpr zerosHash_isDigest⟩

def oneFileListing : DirectoryListing IsDigest where
  entries := oneFile
  distinct := List.nodup_singleton _
  legal := List.forall_mem_singleton.mpr (by rw [String.toList_ofList]; decide)
  hashes := List.forall_mem_singleton.mpr zerosHash_isDigest

/-- Two files have the bytes of one whose name spells the first of them. -/
theorem two_files_hash_as_one : listingBytes twoFilesListing.entries = listingBytes oneFileListing.entries ∧
    ¬ twoFilesListing.entries.Perm oneFileListing.entries := by
  refine ⟨listingBytes_eq_iff.mpr ?_, fun hPerm => absurd hPerm.length_eq (by decide)⟩
  unfold listingText twoFilesListing oneFileListing
  dsimp only
  rw [sortEntries_of_ordered ordered_twoFiles]
  unfold oneFile
  rw [sortEntries_singleton]
  simp [twoFiles, entryText, zerosHash, EntryKind.letter]

end Samples

end Exosuit.Reactivity
