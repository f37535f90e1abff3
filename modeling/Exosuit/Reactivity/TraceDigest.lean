import Mathlib.Data.Finset.Sort
import Mathlib.Data.Prod.Lex
import Exosuit.Lib.Codes
import Exosuit.Lib.JsonText
import Exosuit.Lib.Ordering
import Exosuit.Reactivity.TraceOrder

/-!
# Digests of traces

A trace is hashed dependency by dependency, in the order of the set, and then resource by resource.
The fields of a dependency follow each other without a mark between them, so that one string of
bytes may be read as more than one dependency.
-/

namespace Exosuit.Reactivity

open Lib (Bytes Collision JsonText.Value Replaces leBytes update utf8)

/-! ## Hashing -/

/-- Counters and nonces are those of 64 bits. -/
def Revision.Sized : Revision → Prop
  | .memory _ n => n < 2 ^ 64
  | .disk _ => True
  | .counter value => value < 2 ^ 64
  | .impure _ nonce => nonce < 2 ^ 64

structure ResourceSpec where
  typeId : String
  args : JsonText.Value

structure FullTrace extends Trace where
  resources : List ResourceSpec
  sized : ∀ entry ∈ dependencies, entry.revision.Sized

/-- The dependencies as the set is walked through. -/
def FullTrace.sorted (t : FullTrace) : List TraceEntry := t.dependencies.sort (· ≤ ·)

section

variable (encodeEpoch : Epoch → Bytes)

def hashRevision (hashed : Bytes) : Revision → Bytes
  | .memory epoch counter =>
    update (update (update hashed (utf8 "mem")) (encodeEpoch epoch)) (leBytes 8 counter)
  | .disk hash => update (update hashed (utf8 "disk")) (utf8 hash)
  | .counter value => update (update hashed (utf8 "counter")) (leBytes 8 value)
  | .impure hash nonce => update (update (update hashed (utf8 "impure")) (utf8 hash)) (leBytes 8 nonce)

/-- What the hasher of an entry is given. -/
def entryBytes (entry : TraceEntry) : Bytes :=
  hashRevision encodeEpoch (update (update [] (utf8 entry.cellId.sourceId)) (utf8 entry.cellId.pointer))
    entry.revision

/-- What the hasher of a resource is given. -/
def resourceBytes (resource : ResourceSpec) : Bytes :=
  update (update [] (utf8 resource.typeId)) (utf8 (Lib.JsonText.toText resource.args.json))

/-- The strings that are hashed one by one. -/
def FullTrace.inputs (t : FullTrace) : List Bytes :=
  t.sorted.map (entryBytes encodeEpoch) ++ t.resources.map resourceBytes

/-- `digest`, before its bytes are written in hexadecimal. -/
def FullTrace.digest (hash : Bytes → Bytes) (t : FullTrace) : Bytes :=
  hash ((t.inputs encodeEpoch).foldl (fun hashed input => update hashed (hash input)) [])

/-- Only traces of the same dependencies are hashed from the same strings. -/
def FullTrace.Separated (t : FullTrace) : Prop :=
  ∀ u : FullTrace, t.inputs encodeEpoch = u.inputs encodeEpoch → t.dependencies = u.dependencies

/-- Source and pointer, as they follow each other. -/
def CellId.text (cell : CellId) : String := cell.sourceId ++ cell.pointer

def ResourceSpec.text (resource : ResourceSpec) : String :=
  resource.typeId ++ Lib.JsonText.toText resource.args.json

/-- Taken together, source and pointer of the other end where those of the entry do, or a piece of text
lies between their ends, with which one of the two revisions begins. -/
def Rereads (entry other : TraceEntry) : Prop :=
  ∃ piece : String,
    (other.cellId.text = entry.cellId.text ++ piece ∧
      hashRevision encodeEpoch [] entry.revision = utf8 piece ++ hashRevision encodeEpoch [] other.revision) ∨
    (entry.cellId.text = other.cellId.text ++ piece ∧
      hashRevision encodeEpoch [] other.revision = utf8 piece ++ hashRevision encodeEpoch [] entry.revision)

/-- The text of the resource begins with source and pointer, and the rest of it is the revision. -/
def ReadsAsResource (entry : TraceEntry) (resource : ResourceSpec) : Prop :=
  ∃ piece : String, resource.text = entry.cellId.text ++ piece ∧
    hashRevision encodeEpoch [] entry.revision = utf8 piece

/-- The strings of the trace are read in one way: no dependency is also another one that would stand
in its place, the last is not also a resource, and the first resource is not also a dependency that
would stand behind the others. -/
structure FullTrace.OneReading (t : FullTrace) : Prop where
  entry : ∀ entry ∈ t.dependencies, ∀ other : TraceEntry, other.revision.Sized →
    Rereads encodeEpoch entry other → Replaces t.sorted entry other → other = entry
  last : ∀ entry ∈ t.dependencies, (∀ d ∈ t.dependencies, d ≤ entry) →
    ∀ resource, ¬ ReadsAsResource encodeEpoch entry resource
  next : ∀ resource ∈ t.resources.head?, ∀ entry : TraceEntry, entry.revision.Sized →
    (∀ d ∈ t.dependencies, d < entry) → ¬ ReadsAsResource encodeEpoch entry resource

end

section

variable {encodeEpoch : Epoch → Bytes} {t : FullTrace} {l : List TraceEntry} {resources : List ResourceSpec}

/-! ## Where the fields end -/

theorem hashRevision_append (hashed : Bytes) (revision : Revision) :
    hashRevision encodeEpoch hashed revision = hashed ++ hashRevision encodeEpoch [] revision := by
  cases revision <;> simp [hashRevision, update]

theorem entryBytes_text (entry : TraceEntry) : entryBytes encodeEpoch entry =
    utf8 entry.cellId.text ++ hashRevision encodeEpoch [] entry.revision := by
  rw [entryBytes, hashRevision_append, CellId.text, Lib.utf8_append]
  rfl

theorem resourceBytes_text (resource : ResourceSpec) : resourceBytes resource = utf8 resource.text := by
  rw [ResourceSpec.text, Lib.utf8_append]
  rfl

theorem rereads_iff {entry other : TraceEntry} :
    Rereads encodeEpoch entry other ↔ entryBytes encodeEpoch other = entryBytes encodeEpoch entry := by
  rw [entryBytes_text, entryBytes_text, Lib.utf8_append_eq_iff]
  rfl

theorem readsAsResource_iff {entry : TraceEntry} {resource : ResourceSpec} :
    ReadsAsResource encodeEpoch entry resource ↔ resourceBytes resource = entryBytes encodeEpoch entry := by
  rw [entryBytes_text, resourceBytes_text]
  constructor
  · rintro ⟨piece, hText, hRevision⟩
    rw [hText, hRevision, Lib.utf8_append]
  · exact Lib.utf8_eq_append

/-! ## Ascending lists of dependencies -/

theorem FullTrace.ascending_sorted (t : FullTrace) : t.sorted.Pairwise (· < ·) :=
  t.dependencies.sortedLT_sort.pairwise

theorem FullTrace.mem_sorted {entry : TraceEntry} : entry ∈ t.sorted ↔ entry ∈ t.dependencies :=
  Finset.mem_sort _

theorem sort_toFinset (h : l.Pairwise (· < ·)) : l.toFinset.sort (· ≤ ·) = l :=
  (List.toFinset_sort _ (h.imp ne_of_lt)).mpr (h.imp le_of_lt)

theorem FullTrace.Separated.eq_sorted (h : t.Separated encodeEpoch) (hAscending : l.Pairwise (· < ·))
    (hSized : ∀ entry ∈ l, entry.revision.Sized)
    (hInputs : t.inputs encodeEpoch = l.map (entryBytes encodeEpoch) ++ resources.map resourceBytes) :
    l = t.sorted := by
  let u : FullTrace := ⟨⟨l.toFinset⟩, resources, fun entry hEntry => hSized entry (List.mem_toFinset.mp hEntry)⟩
  have hSort : u.sorted = l := sort_toFinset hAscending
  have hSame : t.dependencies = u.dependencies := h u (by
    rw [hInputs]
    exact congrArg (fun l => l.map (entryBytes encodeEpoch) ++ resources.map resourceBytes) hSort.symm)
  unfold FullTrace.sorted
  rw [hSame]
  exact hSort.symm

theorem FullTrace.Separated.entry (h : t.Separated encodeEpoch) {entry other : TraceEntry}
    (hEntry : entry ∈ t.dependencies) (hOther : other.revision.Sized) (hRereads : Rereads encodeEpoch entry other)
    (hReplaces : Replaces t.sorted entry other) : other = entry := by
  have hBytes := rereads_iff.mp hRereads
  have hSame := @FullTrace.Separated.eq_sorted _ _ (t.sorted.map fun d => if d = entry then other else d)
    t.resources h (Lib.replaces_ascending t.ascending_sorted hReplaces (if_pos rfl)
      fun _ hNe => if_neg hNe) (by
      intro d hd
      obtain ⟨d', hd', rfl⟩ := List.mem_map.mp hd
      split
      · exact hOther
      · exact t.sized d' (FullTrace.mem_sorted.mp hd')) (by
      unfold FullTrace.inputs
      rw [List.map_map]
      congr 1
      refine List.map_congr_left fun d _ => ?_
      dsimp only [Function.comp]
      split
      · next hd => rw [hd, hBytes]
      · rfl)
  have hFixed := List.map_inj_left.mp (hSame.trans (List.map_id _).symm) entry (FullTrace.mem_sorted.mpr hEntry)
  simpa using hFixed

/-- The greatest dependency is hashed last. -/
theorem FullTrace.sorted_eq_concat {entry : TraceEntry} (hEntry : entry ∈ t.dependencies)
    (hLast : ∀ d ∈ t.dependencies, d ≤ entry) :
    ∃ init, t.sorted = init ++ [entry] ∧ init.Pairwise (· < ·) := by
  rcases List.eq_nil_or_concat t.sorted with hNil | ⟨init, last, hSorted⟩
  · rw [← FullTrace.mem_sorted, hNil] at hEntry
    exact absurd hEntry List.not_mem_nil
  · rw [List.concat_eq_append] at hSorted
    have hAscending := t.ascending_sorted
    rw [hSorted, List.pairwise_append] at hAscending
    have hMem : last ∈ t.sorted := hSorted ▸ List.mem_append_right _ List.mem_cons_self
    have hMax : last = entry := by
      refine le_antisymm (hLast last (FullTrace.mem_sorted.mp hMem)) ?_
      rw [← FullTrace.mem_sorted, hSorted] at hEntry
      rcases List.mem_append.mp hEntry with hInit | hEq
      · exact le_of_lt (hAscending.2.2 entry hInit last List.mem_cons_self)
      · exact le_of_eq (List.mem_singleton.mp hEq)
    exact ⟨init, hMax ▸ hSorted, hAscending.1⟩

theorem FullTrace.Separated.last (h : t.Separated encodeEpoch) {entry : TraceEntry}
    (hEntry : entry ∈ t.dependencies) (hLast : ∀ d ∈ t.dependencies, d ≤ entry) (resource : ResourceSpec) :
    ¬ ReadsAsResource encodeEpoch entry resource := by
  intro hReads
  have hBytes := readsAsResource_iff.mp hReads
  obtain ⟨init, hSorted, hAscending⟩ := FullTrace.sorted_eq_concat hEntry hLast
  have hSame := @FullTrace.Separated.eq_sorted _ _ init (resource :: t.resources) h hAscending
    (fun d hd => t.sized d (FullTrace.mem_sorted.mp (hSorted ▸ List.mem_append_left _ hd))) (by
      unfold FullTrace.inputs
      rw [hSorted, List.map_append, List.map_singleton, List.map_cons, hBytes, List.append_assoc,
        List.singleton_append])
  rw [hSorted] at hSame
  have hLength := congrArg List.length hSame
  simp at hLength

theorem FullTrace.Separated.next (h : t.Separated encodeEpoch) {resource : ResourceSpec}
    (hResource : resource ∈ t.resources.head?) {entry : TraceEntry} (hSized : entry.revision.Sized)
    (hAfter : ∀ d ∈ t.dependencies, d < entry) : ¬ ReadsAsResource encodeEpoch entry resource := by
  intro hReads
  have hBytes := (readsAsResource_iff.mp hReads).symm
  obtain ⟨rest, hResources⟩ := List.head?_eq_some_iff.mp hResource
  have hSame := @FullTrace.Separated.eq_sorted _ _ (t.sorted ++ [entry]) rest h
    (List.pairwise_append.mpr ⟨t.ascending_sorted, List.pairwise_singleton _ _, fun d hd e he => by
      rw [List.mem_singleton.mp he]
      exact hAfter d (FullTrace.mem_sorted.mp hd)⟩)
    (by
      intro d hd
      rcases List.mem_append.mp hd with hOld | hNew
      · exact t.sized d (FullTrace.mem_sorted.mp hOld)
      · rw [List.mem_singleton.mp hNew]
        exact hSized) (by
      unfold FullTrace.inputs
      rw [hResources, List.map_cons, List.map_append, List.map_singleton, hBytes, List.append_assoc,
        List.singleton_append])
  have hLength := congrArg List.length hSame
  simp at hLength

theorem oneReading_of_separated_trace (h : t.Separated encodeEpoch) : t.OneReading encodeEpoch where
  entry _ hEntry _ hOther hRereads hReplaces := h.entry hEntry hOther hRereads hReplaces
  last _ hEntry hLast resource := h.last hEntry hLast resource
  next _ hResource _ hSized hAfter := h.next hResource hSized hAfter

/-! ## From one reading to separation -/

theorem FullTrace.OneReading.eq_sorted (h : t.OneReading encodeEpoch) (hAscending : l.Pairwise (· < ·))
    (hSized : ∀ entry ∈ l, entry.revision.Sized)
    (hBytes : l.map (entryBytes encodeEpoch) = t.sorted.map (entryBytes encodeEpoch)) : t.sorted = l := by
  by_contra hne
  have hPairs : List.Forall₂ (fun a b => b.revision.Sized ∧ entryBytes encodeEpoch b = entryBytes encodeEpoch a)
      t.sorted l := by
    have hSame : List.Forall₂ (fun b a => entryBytes encodeEpoch b = entryBytes encodeEpoch a) l t.sorted := by
      rw [← List.forall₂_eq_eq_eq] at hBytes
      exact (List.forall₂_map_left_iff.mp (List.forall₂_map_right_iff.mp hBytes)).imp fun _ _ => id
    exact (Lib.Traversal.forall₂_mem hSame fun b a hb hEq => ⟨hSized b hb, hEq⟩).flip
  obtain ⟨a, ha, b, ⟨hSizedB, hSame⟩, hNe, hReplaces⟩ :=
    Lib.exists_replaces t.ascending_sorted hAscending hPairs hne
  exact hNe (h.entry a (FullTrace.mem_sorted.mp ha) b hSizedB (rereads_iff.mpr hSame) hReplaces)

theorem separated_of_oneReading_trace (h : t.OneReading encodeEpoch) : t.Separated encodeEpoch := by
  intro u hInputs
  have hSizedU : ∀ d ∈ u.sorted, d.revision.Sized := fun d hd => u.sized d (FullTrace.mem_sorted.mp hd)
  have hEqual : t.sorted = u.sorted → t.dependencies = u.dependencies := by
    intro hSorted
    ext d
    rw [← FullTrace.mem_sorted, hSorted, FullTrace.mem_sorted]
  rcases List.append_eq_append_iff.mp hInputs with ⟨more, hMore, hRest⟩ | ⟨more, hMore, hRest⟩
  · -- The other trace reads some of the resources as dependencies.
    obtain ⟨first, second, hSplit, hFirst, hSecond⟩ := List.map_eq_append_iff.mp hMore
    have hAscending := u.ascending_sorted
    rw [hSplit] at hAscending hSizedU
    obtain ⟨hAscendingFirst, -, hBehind⟩ := List.pairwise_append.mp hAscending
    have hSame := h.eq_sorted hAscendingFirst (fun d hd => hSizedU d (List.mem_append_left _ hd)) hFirst
    cases second with
    | nil => exact hEqual (by rw [hSplit, List.append_nil, hSame])
    | cons entry second =>
      rw [← hSecond] at hRest
      obtain ⟨resource, resources, hResources, hBytes, -⟩ := List.map_eq_cons_iff.mp hRest
      refine absurd (readsAsResource_iff.mpr hBytes) (h.next resource (by rw [hResources]; rfl) entry
        (hSizedU entry (List.mem_append_right _ List.mem_cons_self)) fun d hd => ?_)
      rw [← FullTrace.mem_sorted, hSame] at hd
      exact hBehind d hd entry List.mem_cons_self
  · -- The other trace reads some of the dependencies as resources.
    obtain ⟨first, second, hSplit, hFirst, hSecond⟩ := List.map_eq_append_iff.mp hMore
    rcases List.eq_nil_or_concat second with rfl | ⟨init, last, rfl⟩
    · rw [List.append_nil] at hSplit
      exact hEqual (h.eq_sorted u.ascending_sorted hSizedU (by rw [hSplit, hFirst]))
    · rw [List.concat_eq_append] at hSplit hSecond
      have hMem : last ∈ t.sorted := by
        rw [hSplit]
        exact List.mem_append_right _ (List.mem_append_right _ List.mem_cons_self)
      have hResource : entryBytes encodeEpoch last ∈ u.resources.map resourceBytes := by
        rw [hRest, ← hSecond, List.map_append]
        exact List.mem_append_left _ (List.mem_append_right _ List.mem_cons_self)
      obtain ⟨resource, -, hBytes⟩ := List.mem_map.mp hResource
      refine absurd (readsAsResource_iff.mpr hBytes) (h.last last (FullTrace.mem_sorted.mp hMem) (fun d hd => ?_) resource)
      have hAscending := t.ascending_sorted
      rw [← FullTrace.mem_sorted] at hd
      rw [hSplit, ← List.append_assoc] at hAscending hd
      rcases List.mem_append.mp hd with hInit | hLast
      · exact le_of_lt ((List.pairwise_append.mp hAscending).2.2 d hInit last List.mem_cons_self)
      · exact le_of_eq (List.mem_singleton.mp hLast)

/-! ## Which traces have one reading -/

theorem rereads_of_text {cell cell' : CellId} (revision : Revision) (h : cell'.text = cell.text) :
    Rereads encodeEpoch ⟨cell, revision⟩ ⟨cell', revision⟩ :=
  ⟨"", .inl ⟨h.trans String.append_empty.symm, rfl⟩⟩

theorem lt_of_source {source source' pointer pointer' : String} (revision revision' : Revision)
    (h : source < source') :
    (⟨⟨source, pointer⟩, revision⟩ : TraceEntry) < ⟨⟨source', pointer'⟩, revision'⟩ :=
  Prod.Lex.toLex_lt_toLex.mpr (.inl h)

theorem not_oneReading_of_source {entry : TraceEntry} (hEntry : entry ∈ t.dependencies)
    (hFirst : ∀ d ∈ t.dependencies, entry ≤ d) (hSource : entry.cellId.sourceId ≠ "") :
    ¬ t.OneReading encodeEpoch := by
  intro hOne
  obtain ⟨⟨source, pointer⟩, revision⟩ := entry
  have hLess : (⟨⟨"", source ++ pointer⟩, revision⟩ : TraceEntry) < ⟨⟨source, pointer⟩, revision⟩ := by
    refine lt_of_source _ _ ?_
    have hLt := @Lib.lt_append "" source hSource
    rwa [String.empty_append] at hLt
  have hSized : revision.Sized := t.sized _ hEntry
  have hRereads := @rereads_of_text encodeEpoch ⟨source, pointer⟩ ⟨"", source ++ pointer⟩ revision
    String.empty_append
  refine absurd (hOne.entry _ hEntry ⟨⟨"", source ++ pointer⟩, revision⟩ hSized hRereads
    ⟨fun d hd hdLt => ?_, fun d _ hLt => hLess.trans hLt⟩) (ne_of_lt hLess)
  exact absurd (hFirst d (FullTrace.mem_sorted.mp hd)) (not_le_of_gt hdLt)

theorem not_oneReading_of_pointer {entry : TraceEntry} (hEntry : entry ∈ t.dependencies)
    (hLast : ∀ d ∈ t.dependencies, d ≤ entry) (hPointer : entry.cellId.pointer ≠ "") :
    ¬ t.OneReading encodeEpoch := by
  intro hOne
  obtain ⟨⟨source, pointer⟩, revision⟩ := entry
  have hMore : (⟨⟨source, pointer⟩, revision⟩ : TraceEntry) < ⟨⟨source ++ pointer, ""⟩, revision⟩ :=
    lt_of_source _ _ (Lib.lt_append hPointer)
  have hSized : revision.Sized := t.sized _ hEntry
  have hRereads := @rereads_of_text encodeEpoch ⟨source, pointer⟩ ⟨source ++ pointer, ""⟩ revision
    String.append_empty
  refine absurd (hOne.entry _ hEntry ⟨⟨source ++ pointer, ""⟩, revision⟩ hSized hRereads
    ⟨fun d _ hLt => hLt.trans hMore, fun d hd hdLt => ?_⟩) (ne_of_gt hMore)
  exact absurd (hLast d (FullTrace.mem_sorted.mp hd)) (not_le_of_gt hdLt)

theorem FullTrace.Separated.of_digest {hash : Bytes → Bytes} (h : t.Separated encodeEpoch)
    (hWidth : ∀ bytes, (hash bytes).length = 32) {u : FullTrace}
    (hDigest : t.digest encodeEpoch hash = u.digest encodeEpoch hash) :
    t.dependencies = u.dependencies ∨ ∃ bytes bytes', Collision hash bytes bytes' := by
  have hFold : ∀ (inputs : List Bytes) (hashed : Bytes),
      inputs.foldl (fun hashed input => update hashed (hash input)) hashed = hashed ++ inputs.flatMap hash := by
    intro inputs
    induction inputs with
    | nil => exact fun hashed => (List.append_nil hashed).symm
    | cons input inputs ih =>
      intro hashed
      rw [List.foldl_cons, ih, List.flatMap_cons, ← List.append_assoc]
      rfl
  unfold FullTrace.digest at hDigest
  rw [hFold, hFold, List.nil_append, List.nil_append] at hDigest
  by_cases hOuter : (t.inputs encodeEpoch).flatMap hash = (u.inputs encodeEpoch).flatMap hash
  · exact (Lib.eq_or_collision (Lib.map_eq_of_flatMap_eq hWidth (by decide) hOuter)).imp (h u) id
  · exact .inr ⟨_, _, hOuter, hDigest⟩

/-- When the digest of a trace tells its dependencies from all others; it does not for a first
dependency with a source, or a last one with a pointer. -/
theorem digest_separates_iff (encodeEpoch : Epoch → Bytes) (t : FullTrace) :
    (t.Separated encodeEpoch ↔ t.OneReading encodeEpoch) ∧
    (∀ entry ∈ t.dependencies, (∀ d ∈ t.dependencies, entry ≤ d) → entry.cellId.sourceId ≠ "" →
      ¬ t.Separated encodeEpoch) ∧
    ∀ entry ∈ t.dependencies, (∀ d ∈ t.dependencies, d ≤ entry) → entry.cellId.pointer ≠ "" →
      ¬ t.Separated encodeEpoch := by
  refine ⟨⟨oneReading_of_separated_trace, separated_of_oneReading_trace⟩, ?_, ?_⟩
  · intro entry hEntry hFirst hSource hSeparated
    exact not_oneReading_of_source hEntry hFirst hSource (oneReading_of_separated_trace hSeparated)
  · intro entry hEntry hLast hPointer hSeparated
    exact not_oneReading_of_pointer hEntry hLast hPointer (oneReading_of_separated_trace hSeparated)

end

section Samples

def rowTrace (source pointer : String) : FullTrace where
  dependencies := {⟨⟨source, pointer⟩, .counter 7⟩}
  resources := []
  sized entry hEntry := by
    rw [Finset.mem_singleton.mp hEntry]
    exact (by decide : 7 < 2 ^ 64)

/-- The length of the UUID and its bytes. -/
def bincodeEpoch (epoch : Epoch) : Bytes := 16 :: (leBytes 16 epoch.toNat).reverse

theorem inputs_rowTrace (source pointer : String) : (rowTrace source pointer).inputs bincodeEpoch =
    [entryBytes bincodeEpoch ⟨⟨source, pointer⟩, .counter 7⟩] := by
  unfold FullTrace.inputs FullTrace.sorted rowTrace
  dsimp only
  rw [Finset.sort_singleton, List.map_singleton, List.map_nil, List.append_nil]

/-- A row of one table and a row of another are hashed from one string. -/
theorem rows_share_inputs :
    (rowTrace "tasks" "12").inputs bincodeEpoch = (rowTrace "tasks1" "2").inputs bincodeEpoch ∧
      (rowTrace "tasks" "12").dependencies ≠ (rowTrace "tasks1" "2").dependencies := by
  constructor
  · have hText : (⟨"tasks", "12"⟩ : CellId).text = (⟨"tasks1", "2"⟩ : CellId).text := by decide
    rw [inputs_rowTrace, inputs_rowTrace, rereads_iff.mp (rereads_of_text (.counter 7) hText)]
  · intro hSame
    have hEntry := Finset.singleton_injective hSame
    exact absurd (congrArg (fun entry : TraceEntry => entry.cellId.sourceId) hEntry) (by decide)

end Samples

end Exosuit.Reactivity
