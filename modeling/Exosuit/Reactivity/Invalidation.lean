import Exosuit.Reactivity.RootView

/-!
# Invalidation reaches every dependent root

The source index lists every cell that has a revision, and the reverse index
lists every subscribed root under each cell of its trace. Both hold along any
run: collection drops cells from the source index only with their revisions, and
the reverse index changes only where a root is registered or removed.
-/

namespace Exosuit.Roots

open Lib Reactivity Roots.Engine

variable {V : Type} {digest : Trace → String} {depth retentionWindow : Nat} {e e' : Engine V}
  {ops : List (Operation V)} {op : Operation V} {rootId : String} {cellId : CellId}

/-! ## Indexes -/

section Members

variable {κ α : Type} [DecidableEq κ] [DecidableEq α] {t : Table κ (Finset α)} {k k' : κ} {m m' : α}

def members (t : Table κ (Finset α)) (k : κ) : Finset α := (t.lookup k).getD ∅

theorem mem_members_index :
    m' ∈ members (index t k m) k' ↔ k' = k ∧ m' = m ∨ m' ∈ members t k' := by
  unfold members index
  rw [Table.lookup_insert]
  split
  · next h =>
    subst h
    simp
  · next h => simp [h]

theorem mem_members_unindex :
    m' ∈ members (unindex t k m) k' ↔ m' ∈ members t k' ∧ ¬ (k' = k ∧ m' = m) := by
  unfold members unindex
  cases hOld : t.lookup k with
  | none =>
    refine (and_iff_left_of_imp fun h => ?_).symm
    rintro ⟨rfl, -⟩
    rw [hOld] at h
    exact absurd h (Finset.notMem_empty _)
  | some old =>
    dsimp only
    split
    · next hEmpty =>
      rw [Table.lookup_erase]
      split
      · next h =>
        rw [h, hOld]
        have hIff : m' ∈ old.erase m ↔ m' ∈ (∅ : Finset α) := by rw [hEmpty]
        rw [Finset.mem_erase] at hIff
        simp only [Option.getD_none, Option.getD_some]
        tauto
      · next h => simp [h]
    · rw [Table.lookup_insert]
      split
      · next h =>
        rw [h, hOld]
        simp only [Option.getD_some, Finset.mem_erase]
        tauto
      · next h => simp [h]

theorem mem_members_foldl_index {entries : List TraceEntry} {deps : Table CellId (Finset String)}
    {id : String} :
    id ∈ members (entries.foldl (fun deps dep => index deps dep.cellId rootId) deps) cellId ↔
      (id = rootId ∧ ∃ entry ∈ entries, entry.cellId = cellId) ∨ id ∈ members deps cellId := by
  induction entries generalizing deps with
  | nil => simp
  | cons entry entries ih =>
    rw [List.foldl_cons, ih, mem_members_index, eq_comm (a := cellId)]
    simp only [List.mem_cons, exists_eq_or_imp, and_or_left]
    grind

theorem mem_members_unsubscribe {root : Root V} {deps : Table CellId (Finset String)} {id : String} :
    id ∈ members (unsubscribe deps rootId root) cellId ↔
      id ∈ members deps cellId ∧
        ¬ (id = rootId ∧ ∃ entry ∈ root.trace.dependencies, entry.cellId = cellId) := by
  simp only [← Trace.mem_entries]
  unfold unsubscribe
  generalize root.trace.entries = entries
  induction entries generalizing deps with
  | nil => simp
  | cons entry entries ih =>
    rw [List.foldl_cons, ih, mem_members_unindex, eq_comm (a := cellId)]
    simp only [List.mem_cons, exists_eq_or_imp]
    grind

end Members

theorem dependents_eq : e.dependents = members e.reverseDeps := rfl

/-! ## The source index -/

def Indexed (e : Engine V) : Prop :=
  ∀ cellId, e.getRevisionSnapshot cellId ≠ none → cellId ∈ members e.sourceIndex cellId.sourceId

theorem indexed_new : Indexed (Engine.new retentionWindow : Engine V) := fun _ h => absurd rfl h

theorem Indexed.of_used (h : Indexed e) (hUsed : e.Used e') : Indexed e' := by
  obtain ⟨hView, currentState, rfl⟩ := hUsed
  intro cellId hSome
  exact h cellId (congrFun hView cellId ▸ hSome)

theorem getRevisionSnapshot_setCell (revision : Revision) (other : CellId) :
    (e.setCell cellId revision).getRevisionSnapshot other =
      if other = cellId then some revision else e.getRevisionSnapshot other := by
  unfold setCell getRevisionSnapshot
  rw [Table.lookup_insert]
  split <;> rfl

theorem Indexed.setCell (h : Indexed e) (cellId : CellId) (revision : Revision) :
    Indexed (e.setCell cellId revision) := by
  intro other hSome
  refine mem_members_index.mpr ?_
  rw [getRevisionSnapshot_setCell] at hSome
  split at hSome
  · next hEq => exact .inl ⟨congrArg CellId.sourceId hEq, hEq⟩
  · exact .inr (h other hSome)

theorem getRevisionSnapshot_collect (other : CellId) :
    (e.collect cellId).getRevisionSnapshot other =
      if other = cellId then none else e.getRevisionSnapshot other := by
  unfold collect getRevisionSnapshot
  rw [Table.lookup_erase]
  split <;> rfl

theorem Indexed.collect (h : Indexed e) (cellId : CellId) : Indexed (e.collect cellId) := by
  intro other hSome
  rw [getRevisionSnapshot_collect] at hSome
  split at hSome
  · exact absurd rfl hSome
  · next hNe => exact mem_members_unindex.mpr ⟨h other hSome, fun hEq => hNe hEq.2⟩

theorem Indexed.endTransaction (h : Indexed e) : Indexed e.endTransaction := by
  suffices key : ∀ (ids : List CellId) (e : Engine V), Indexed e → Indexed (ids.foldl Engine.collect e)
    from key _ e h
  intro ids
  induction ids with
  | nil => exact fun _ h => h
  | cons id ids ih => exact fun e h => ih _ (h.collect id)

theorem getRevisionSnapshot_invalidateCell (other : CellId) :
    (e.invalidateCell cellId).2.getRevisionSnapshot other = none ∨
      (e.invalidateCell cellId).2.getRevisionSnapshot other = e.getRevisionSnapshot other := by
  unfold invalidateCell
  split
  · unfold getRevisionSnapshot
    dsimp only
    rw [Table.lookup_retain]
    cases e.currentState.lookup other with
    | none => exact .inl rfl
    | some entry =>
      rw [Option.filter_some]
      split
      · exact .inr rfl
      · exact .inl rfl
  · unfold getRevisionSnapshot
    dsimp only
    rw [Table.lookup_erase]
    split
    · exact .inl rfl
    · exact .inr rfl

/-- The cell, or any cell of the same source when the pointer is empty. -/
def Covers (cellId other : CellId) : Prop :=
  other = cellId ∨ cellId.pointer = "" ∧ other.sourceId = cellId.sourceId

theorem Indexed.covered (h : Indexed e) {other : CellId} (hCovers : Covers cellId other) :
    (e.invalidateCell cellId).2.getRevisionSnapshot other = none := by
  unfold invalidateCell
  split
  · next cells hCells =>
    have hSource : other.sourceId = cellId.sourceId := by
      rcases hCovers with rfl | ⟨-, hSource⟩
      · rfl
      · exact hSource
    have hLookup : e.sourceIndex.lookup cellId.sourceId = some cells := by
      split at hCells
      · exact hCells
      · cases hCells
    unfold getRevisionSnapshot
    dsimp only
    rw [Table.lookup_retain]
    cases hEntry : e.currentState.lookup other with
    | none => rfl
    | some entry =>
      have hMem : other ∈ members e.sourceIndex other.sourceId := by
        apply h
        rw [getRevisionSnapshot, hEntry]
        exact Option.some_ne_none _
      rw [hSource, members, hLookup] at hMem
      rw [Option.filter_some, if_neg (by simpa using hMem)]
      rfl
  · next hNone =>
    unfold getRevisionSnapshot
    dsimp only
    rw [Table.lookup_erase]
    split
    · rfl
    · next hNe =>
      obtain ⟨hPointer, hSource⟩ := hCovers.resolve_left hNe
      rw [if_pos hPointer] at hNone
      by_contra hSome
      have hMem := h other hSome
      rw [hSource, members, hNone] at hMem
      exact Finset.notMem_empty _ hMem

theorem Indexed.invalidateCell (h : Indexed e) (cellId : CellId) :
    Indexed (e.invalidateCell cellId).2 := by
  intro other hSome
  have hOld : e.getRevisionSnapshot other ≠ none := by
    have hKept : (e.invalidateCell cellId).2.getRevisionSnapshot other = none ∨
        (e.invalidateCell cellId).2.getRevisionSnapshot other = e.getRevisionSnapshot other :=
      getRevisionSnapshot_invalidateCell other
    rcases hKept with hNone | hEq
    · exact absurd hNone hSome
    · rw [← hEq]
      exact hSome
  have hCovers : ¬ Covers cellId other := fun hCovers => hSome (h.covered hCovers)
  have hMem := h other hOld
  unfold Engine.invalidateCell
  split
  · next cells hCells =>
    have hPointer : cellId.pointer = "" := by
      by_contra hNe
      rw [if_neg hNe] at hCells
      cases hCells
    have hNe : ¬ other.sourceId = cellId.sourceId := fun hEq => hCovers (.inr ⟨hPointer, hEq⟩)
    rw [members]
    dsimp only
    rw [Table.lookup_erase, if_neg hNe]
    exact hMem
  · exact hMem

/-! ## The reverse index -/

/-- Whether the root subscribes, where the operation decides it. -/
def Operation.subscribes (rootId : String) : Operation V → Option Bool
  | .registerRoot id _ _ isSubscriber _ _ => if id = rootId then some isSubscriber else none
  | .removeRoot id => if id = rootId then some false else none
  | _ => none

/-- Whether the root was registered as a subscriber, last, and not removed since. -/
def subscribed (ops : List (Operation V)) (rootId : String) : Bool :=
  (latest (Operation.subscribes rootId) ops).getD false

structure Tracked (ops : List (Operation V)) (e : Engine V) : Prop where
  indexed : Indexed e
  reverse : ∀ rootId root, subscribed ops rootId = true → e.roots.lookup rootId = some root →
    ∀ entry ∈ root.trace.dependencies, rootId ∈ e.dependents entry.cellId

theorem tracked_new : Tracked [] (Engine.new retentionWindow : Engine V) :=
  ⟨indexed_new, nofun⟩

/-- An operation that registers and removes nothing. -/
theorem Tracked.of_frame (h : Tracked ops e) (hIndexed : Indexed e')
    (hSame : ∀ rootId, subscribed (ops ++ [op]) rootId = subscribed ops rootId)
    (hRoots : e'.roots = e.roots) (hDeps : e'.reverseDeps = e.reverseDeps) :
    Tracked (ops ++ [op]) e' := by
  refine ⟨hIndexed, fun rootId root hSubscribed hRoot entry hEntry => ?_⟩
  rw [dependents_eq, hDeps]
  exact h.reverse rootId root (hSame rootId ▸ hSubscribed) (hRoots ▸ hRoot) entry hEntry

theorem Tracked.of_used (h : Tracked ops e) (hUsed : e.Used e')
    (hSame : ∀ rootId, subscribed (ops ++ [op]) rootId = subscribed ops rootId) :
    Tracked (ops ++ [op]) e' := by
  have hIndexed := h.indexed.of_used hUsed
  obtain ⟨-, currentState, rfl⟩ := hUsed
  exact h.of_frame hIndexed hSame rfl rfl

theorem Tracked.removeRoot (h : Tracked ops e) (rootId : String) :
    Tracked (ops ++ [.removeRoot rootId]) (e.removeRoot rootId) := by
  constructor
  · unfold Engine.removeRoot
    split <;> exact h.indexed
  · intro id root hSubscribed hRoot entry hEntry
    rw [subscribed, latest_append, Operation.subscribes] at hSubscribed
    have hNe : ¬ rootId = id := by
      rintro rfl
      simp at hSubscribed
    rw [if_neg hNe, Option.none_or] at hSubscribed
    have hOld := h.reverse id root hSubscribed (lookup_removeRoot hRoot) entry hEntry
    unfold Engine.removeRoot
    split
    · exact mem_members_unsubscribe.mpr ⟨hOld, fun hEq => hNe hEq.1.symm⟩
    · exact hOld

theorem mem_dependents_registerRoot {trace : Trace} {value : V} {isSubscriber : Bool}
    {stamp now : Nat} {id : String} :
    id ∈ (e.registerRoot digest rootId trace value isSubscriber stamp now).dependents cellId ↔
      isSubscriber = true ∧ id = rootId ∧ (∃ entry ∈ trace.dependencies, entry.cellId = cellId) ∨
        id ∈ e.dependents cellId ∧ ¬ (id = rootId ∧ ∃ root, e.roots.lookup rootId = some root ∧
          ∃ entry ∈ root.trace.dependencies, entry.cellId = cellId) := by
  obtain ⟨-, currentState, hUsed⟩ := used_foldl_touch trace.entries e
  rw [dependents_eq, dependents_eq]
  simp only [Engine.registerRoot, Engine.setCell, hUsed]
  cases hOld : e.roots.lookup rootId with
  | none =>
    cases isSubscriber with
    | false => simp
    | true => simp [mem_members_foldl_index]
  | some root =>
    cases isSubscriber with
    | false => simp [mem_members_unsubscribe]
    | true => simp [mem_members_foldl_index, mem_members_unsubscribe]

theorem Tracked.registerRoot {trace : Trace} {value : V} {isSubscriber : Bool} {stamp now : Nat}
    (h : Tracked ops e) :
    Tracked (ops ++ [.registerRoot rootId trace value isSubscriber stamp now])
      (e.registerRoot digest rootId trace value isSubscriber stamp now) := by
  constructor
  · have hUsed := h.indexed.of_used (used_foldl_touch trace.entries e)
    exact hUsed.setCell (.root rootId) (.disk (digest trace))
  · intro id root hSubscribed hRoot entry hEntry
    rw [subscribed, latest_append, Operation.subscribes] at hSubscribed
    rw [roots_registerRoot, Table.lookup_insert] at hRoot
    apply mem_dependents_registerRoot.mpr
    split at hRoot
    · next hId =>
      rw [if_pos hId.symm] at hSubscribed
      obtain rfl := Option.some.inj hRoot
      exact .inl ⟨hSubscribed, hId, entry, hEntry, rfl⟩
    · next hId =>
      rw [if_neg (Ne.symm hId), Option.none_or] at hSubscribed
      exact .inr ⟨h.reverse id root hSubscribed hRoot entry hEntry, fun hEq => hId hEq.1⟩

theorem Tracked.step (h : Tracked ops e) (hStep : step digest depth e op = some e') :
    Tracked (ops ++ [op]) e' := by
  have hSame (hNone : ∀ id, op.subscribes id = none) (id : String) :
      subscribed (ops ++ [op]) id = subscribed ops id := by
    rw [subscribed, latest_append, hNone, Option.none_or, subscribed]
  cases op with
  | registerRoot rootId trace value isSubscriber stamp now =>
    exact Option.some.inj hStep ▸ h.registerRoot
  | removeRoot rootId => exact Option.some.inj hStep ▸ h.removeRoot rootId
  | setCell cellId revision =>
    obtain rfl := Option.some.inj hStep
    exact h.of_frame (h.indexed.setCell cellId revision)
      (hSame fun _ => rfl) rfl rfl
  | invalidateCell cellId =>
    have hIndexed := h.indexed.invalidateCell cellId
    obtain ⟨currentState, sourceIndex, hEq⟩ := invalidateCell_frame (e := e) cellId
    obtain rfl := Option.some.inj hStep
    rw [hEq] at hIndexed ⊢
    exact h.of_frame hIndexed (hSame fun _ => rfl) rfl rfl
  | endTransaction =>
    have hIndexed := h.indexed.endTransaction
    obtain ⟨currentState, sourceIndex, hEq⟩ := endTransaction_frame (e := e)
    obtain rfl := Option.some.inj hStep
    rw [hEq] at hIndexed ⊢
    exact h.of_frame hIndexed (hSame fun _ => rfl) rfl rfl
  | beginTransaction =>
    obtain rfl := Option.some.inj hStep
    exact h.of_frame h.indexed (hSame fun _ => rfl) rfl rfl
  | getRevision cellId =>
    obtain ⟨r, hRead, rfl⟩ := Option.map_eq_some_iff.mp hStep
    exact h.of_used (used_getRevision hRead) (hSame fun _ => rfl)
  | validateTrace trace =>
    obtain ⟨r, hRead, rfl⟩ := Option.map_eq_some_iff.mp hStep
    exact h.of_used (used_validateTrace hRead) (hSame fun _ => rfl)
  | validateRoot rootId clientDigest =>
    obtain ⟨r, hRead, rfl⟩ := Option.map_eq_some_iff.mp hStep
    exact h.of_used (used_validateRoot hRead) (hSame fun _ => rfl)

theorem tracked_of_run (hRun : run (step digest depth) (Engine.new retentionWindow) ops = some e) :
    Tracked ops e :=
  history_of_step tracked_new (fun _ _ _ _ h hStep => h.step hStep) hRun

/-! ## Invalidation -/

/-- Some client's digest of the root validates, with enough depth. -/
def Validates (e : Engine V) (rootId : String) : Prop :=
  ∃ depth clientDigest e', e.validateRoot depth rootId clientDigest = some (true, e')

/-- Whatever digest the client has, the validation is over and fails. -/
def Refused (e : Engine V) (rootId : String) : Prop :=
  ∀ clientDigest, (∃ depth e', e.validateRoot depth rootId clientDigest = some (false, e')) ∧
    ∀ depth e', e.validateRoot depth rootId clientDigest ≠ some (true, e')

theorem entries_of_validates {root : Root V} (hRoot : e.roots.lookup rootId = some root)
    (h : Validates e rootId) : ∃ depth, peekEntries (peek e.roots e.getRevisionSnapshot depth)
      root.trace.entries = some true := by
  obtain ⟨depth, clientDigest, e', hValid⟩ := h
  rw [validateRoot, hRoot] at hValid
  dsimp only at hValid
  split at hValid
  · exact ⟨depth, by rw [← validateTrace_map_fst, hValid]; rfl⟩
  · cases hValid

theorem refused_of_missing {root : Root V} {entry : TraceEntry}
    (hRoots : e'.roots = e.roots) (hRoot : e.roots.lookup rootId = some root)
    (hView : ∀ cellId, e'.getRevisionSnapshot cellId = none ∨
      e'.getRevisionSnapshot cellId = e.getRevisionSnapshot cellId)
    (hEntry : entry ∈ root.trace.dependencies)
    (hMissing : e'.getRevisionSnapshot entry.cellId = none) (h : Validates e rootId) :
    Refused e' rootId := by
  have hNever (depth : Nat) :
      peekEntries (peek e'.roots e'.getRevisionSnapshot depth) root.trace.entries ≠ some true := by
    intro hTrue
    have hPeek := peekEntries_eq_true.mp hTrue entry (Trace.mem_entries.mpr hEntry)
    exact nomatch hMissing.symm.trans (view_of_peek hPeek)
  obtain ⟨depth, hEntries⟩ := entries_of_validates hRoot h
  obtain ⟨b, hEntries', -⟩ := peekEntries_antitone (fun _ _ => peek_antitone hView) hEntries
  rw [← hRoots] at hEntries' hRoot
  have hFalse : b = false := by
    cases b with
    | false => rfl
    | true => exact absurd hEntries' (hNever depth)
  refine fun clientDigest => ⟨⟨depth, ?_⟩, fun depth' e₁ hValid => ?_⟩
  · rw [validateRoot, hRoot]
    dsimp only
    split
    · rw [← validateTrace_map_fst, hFalse] at hEntries'
      obtain ⟨⟨_, e₁⟩, hValid, rfl⟩ := Option.map_eq_some_iff.mp hEntries'
      exact ⟨e₁, hValid⟩
    · exact ⟨e', rfl⟩
  · rw [validateRoot, hRoot] at hValid
    dsimp only at hValid
    split at hValid
    · exact hNever depth' (by rw [← validateTrace_map_fst, hValid]; rfl)
    · cases hValid

theorem mem_affected (h : Indexed e) {other : CellId} (hCovers : Covers cellId other)
    (hSome : e.getRevisionSnapshot other ≠ none) (hMem : rootId ∈ e.dependents other) :
    rootId ∈ (e.invalidateCell cellId).1 := by
  unfold Engine.invalidateCell
  split
  · next cells hCells =>
    have hSource : other.sourceId = cellId.sourceId := by
      rcases hCovers with rfl | ⟨-, hSource⟩
      · rfl
      · exact hSource
    have hIndexed := h other hSome
    split at hCells
    · rw [hSource, members, hCells] at hIndexed
      exact Finset.mem_biUnion.mpr ⟨other, hIndexed, hMem⟩
    · cases hCells
  · next hNone =>
    rcases hCovers with rfl | ⟨hPointer, hSource⟩
    · exact hMem
    · have hIndexed := h other hSome
      rw [if_pos hPointer] at hNone
      rw [hSource, members, hNone] at hIndexed
      exact absurd hIndexed (Finset.notMem_empty _)

/-- Invalidating a cell names every subscribed root that depends on it, and stops its validation. -/
theorem invalidation_complete
    (hRun : run (step digest depth) (Engine.new retentionWindow) ops = some e)
    {root : Root V} (hSubscribed : subscribed ops rootId = true)
    (hRoot : e.roots.lookup rootId = some root) (hValid : Validates e rootId) {entry : TraceEntry}
    (hEntry : entry ∈ root.trace.dependencies) (hCovers : Covers cellId entry.cellId) :
    rootId ∈ (e.invalidateCell cellId).1 ∧ Refused (e.invalidateCell cellId).2 rootId := by
  have hTracked := tracked_of_run hRun
  obtain ⟨depth, hEntries⟩ := entries_of_validates hRoot hValid
  have hSome : e.getRevisionSnapshot entry.cellId ≠ none := by
    rw [view_of_peek (peekEntries_eq_true.mp hEntries entry (Trace.mem_entries.mpr hEntry))]
    exact Option.some_ne_none _
  constructor
  · exact mem_affected hTracked.indexed hCovers hSome
      (hTracked.reverse rootId root hSubscribed hRoot entry hEntry)
  · have hRoots : (e.invalidateCell cellId).2.roots = e.roots := by
      obtain ⟨_, _, hFrame⟩ := invalidateCell_frame (e := e) cellId
      rw [hFrame]
    exact refused_of_missing hRoots hRoot getRevisionSnapshot_invalidateCell hEntry
      (hTracked.indexed.covered hCovers) hValid

def oneFile : List (Operation Nat) :=
  [ .setCell (.root "f") (.disk "h"),
    .registerRoot "r" (.record .new (.root "f") (.disk "h")) 1 true 0 0 ]

theorem invalidation_complete_sample :
    ∃ e, run (step (fun _ => "d") 1) (Engine.new 60) oneFile = some e ∧
      "r" ∈ (e.invalidateCell (.root "f")).1 ∧ Refused (e.invalidateCell (.root "f")).2 "r" := by
  have hEntry : ⟨.root "f", .disk "h"⟩ ∈ (Trace.new.record (.root "f") (.disk "h")).dependencies := by
    decide
  exact ⟨_, rfl, @invalidation_complete _ _ 1 60 _ oneFile "r" (.root "f") rfl _ rfl rfl
    ⟨2, "d", _, rfl⟩ _ hEntry (.inl rfl)⟩

end Exosuit.Roots
