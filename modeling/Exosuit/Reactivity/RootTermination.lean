import Mathlib.Logic.Relation
import Exosuit.Reactivity.RootView

/-!
# When validation terminates

A read of a root validates its trace, which reads the roots that the trace
names. The recursion has no visited set, so it is over just because no root can
be reached from itself. Registering a root that the roots in its trace lead back
to breaks this; nothing else does.
-/

namespace Exosuit.Roots

open Lib Reactivity Roots.Engine Relation

variable {V : Type} {digest : Trace → String} {depth retentionWindow : Nat} {e e' : Engine V}
  {ops : List (Operation V)} {op : Operation V} {rootId : String}

/-- The trace of the root `a` has the cell of the root `b`. -/
def Names (e : Engine V) (a b : String) : Prop :=
  ∃ root, e.roots.lookup a = some root ∧ ∃ entry ∈ root.trace.dependencies, entry.cellId = .root b

/-- A root is registered with a trace that leads back to it. -/
def ClosesCycle (e : Engine V) : Operation V → Prop
  | .registerRoot rootId trace _ _ _ _ =>
    ∃ entry ∈ trace.dependencies, ∃ id, entry.cellId = .root id ∧ ReflTransGen (Names e) id rootId
  | _ => False

/-- Every read of a cell and every validation of a root is over at some depth. -/
def Terminates (e : Engine V) : Prop :=
  (∀ cellId, ∃ depth r, getRevision depth cellId e = some r) ∧
    ∀ rootId clientDigest, ∃ depth r, e.validateRoot depth rootId clientDigest = some r

/-! ## Acyclic roots -/

/-- No infinite chain of roots whose traces name the next. -/
def Acyclic (e : Engine V) : Prop := WellFounded fun b a => Names e a b

theorem acyclic_new : Acyclic (Engine.new retentionWindow : Engine V) :=
  ⟨fun _ => ⟨_, fun _ h => nomatch h.choose_spec.1⟩⟩

theorem Acyclic.of_names (h : Acyclic e) (hNames : ∀ a b, Names e' a b → Names e a b) : Acyclic e' :=
  Subrelation.wf (fun hName => hNames _ _ hName) h

theorem Acyclic.of_roots (h : Acyclic e) (hRoots : e'.roots = e.roots) : Acyclic e' :=
  h.of_names fun _ _ ⟨root, hRoot, hEntry⟩ => ⟨root, hRoots ▸ hRoot, hEntry⟩

section Register

variable {trace : Trace} {value : V} {isSubscriber : Bool} {stamp now : Nat}

theorem names_registerRoot {a b : String} :
    Names (e.registerRoot digest rootId trace value isSubscriber stamp now) a b ↔
      a = rootId ∧ (∃ entry ∈ trace.dependencies, entry.cellId = .root b) ∨
        a ≠ rootId ∧ Names e a b := by
  unfold Names
  rw [roots_registerRoot, Table.lookup_insert]
  split
  · next h => simp [h]
  · next h => simp [h]

theorem acc_of_not_reach (h : Acyclic e) (a : String) (hReach : ¬ ReflTransGen (Names e) a rootId) :
    Acc (fun b a => Names (e.registerRoot digest rootId trace value isSubscriber stamp now) a b) a := by
  induction a using h.induction with
  | h a ih =>
    refine ⟨a, fun b hName => ?_⟩
    rcases names_registerRoot.mp hName with ⟨rfl, -⟩ | ⟨-, hOld⟩
    · exact absurd .refl hReach
    · exact ih b hOld fun hRest => hReach (.head hOld hRest)

theorem Acyclic.registerRoot (h : Acyclic e)
    (hOpen : ¬ ClosesCycle e (.registerRoot rootId trace value isSubscriber stamp now)) :
    Acyclic (e.registerRoot digest rootId trace value isSubscriber stamp now) := by
  constructor
  intro a
  induction a using h.induction with
  | h a ih =>
    refine ⟨a, fun b hName => ?_⟩
    rcases names_registerRoot.mp hName with ⟨-, entry, hEntry, hCell⟩ | ⟨-, hOld⟩
    · exact acc_of_not_reach h b fun hReach => hOpen ⟨entry, hEntry, b, hCell, hReach⟩
    · exact ih b hOld

end Register

theorem Acyclic.step (h : Acyclic e) (hOpen : ¬ ClosesCycle e op)
    (hStep : step digest depth e op = some e') : Acyclic e' := by
  cases op with
  | registerRoot rootId trace value isSubscriber stamp now =>
    exact Option.some.inj hStep ▸ h.registerRoot hOpen
  | removeRoot rootId =>
    refine Option.some.inj hStep ▸ h.of_names ?_
    rintro a b ⟨root, hRoot, hEntry⟩
    exact ⟨root, lookup_removeRoot hRoot, hEntry⟩
  | setCell cellId revision => exact Option.some.inj hStep ▸ h.of_roots rfl
  | invalidateCell cellId =>
    obtain ⟨_, _, hFrame⟩ := invalidateCell_frame (e := e) cellId
    exact Option.some.inj hStep ▸ h.of_roots (by rw [hFrame])
  | endTransaction =>
    obtain ⟨_, _, hFrame⟩ := endTransaction_frame (e := e)
    exact Option.some.inj hStep ▸ h.of_roots (by rw [hFrame])
  | beginTransaction => exact Option.some.inj hStep ▸ h.of_roots rfl
  | getRevision cellId =>
    obtain ⟨r, hRead, rfl⟩ := Option.map_eq_some_iff.mp hStep
    exact h.of_roots (used_getRevision hRead).roots_eq
  | validateTrace trace =>
    obtain ⟨r, hRead, rfl⟩ := Option.map_eq_some_iff.mp hStep
    exact h.of_roots (used_validateTrace hRead).roots_eq
  | validateRoot rootId clientDigest =>
    obtain ⟨r, hRead, rfl⟩ := Option.map_eq_some_iff.mp hStep
    exact h.of_roots (used_validateRoot hRead).roots_eq

/-! ## Termination -/

theorem exists_peekEntries {roots : Table String (Root V)} {view : CellId → Option Revision}
    {entries : List TraceEntry}
    (h : ∀ entry ∈ entries, ∃ depth r, peek roots view depth entry.cellId = some r) :
    ∃ depth b, peekEntries (peek roots view depth) entries = some b := by
  induction entries with
  | nil => exact ⟨0, true, rfl⟩
  | cons entry entries ih =>
    obtain ⟨depth₁, r, hEntry⟩ := h entry List.mem_cons_self
    obtain ⟨depth₂, b, hEntries⟩ := ih fun other hOther => h other (List.mem_cons_of_mem entry hOther)
    have hEntry' := peek_mono (le_max_left depth₁ depth₂) hEntry
    have hEntries' := peekEntries_mono (fun _ _ => peek_mono (le_max_right depth₁ depth₂)) hEntries
    refine ⟨max depth₁ depth₂, ?_⟩
    rw [peekEntries, hEntry']
    cases r with
    | none => exact ⟨false, rfl⟩
    | some revision =>
      by_cases hEq : revision = entry.revision
      · exact ⟨b, (if_pos hEq).trans hEntries'⟩
      · exact ⟨false, if_neg hEq⟩

theorem exists_peek {roots : Table String (Root V)} {view : CellId → Option Revision} {cellId : CellId}
    (h : ∀ root, cellId.pointer = "" → roots.lookup cellId.sourceId = some root →
      ∃ depth b, peekEntries (peek roots view depth) root.trace.entries = some b) :
    ∃ depth r, peek roots view depth cellId = some r := by
  cases hRoot : if cellId.pointer = "" then roots.lookup cellId.sourceId else none with
  | none => exact ⟨1, view cellId, by rw [peek, hRoot]⟩
  | some root =>
    split at hRoot
    · next hPointer =>
      obtain ⟨depth, b, hEntries⟩ := h root hPointer hRoot
      refine ⟨depth + 1, if b then view cellId else none, ?_⟩
      rw [peek, if_pos hPointer, hRoot]
      dsimp only
      rw [hEntries]
      cases b <;> rfl
    · cases hRoot

theorem Acyclic.exists_peek (h : Acyclic e) (cellId : CellId) :
    ∃ depth r, peek e.roots e.getRevisionSnapshot depth cellId = some r := by
  have hRoot (id : String) : ∃ depth r, peek e.roots e.getRevisionSnapshot depth (.root id) = some r := by
    induction id using h.induction with
    | h id ih =>
      refine Roots.exists_peek fun root _ hRoot => exists_peekEntries fun entry hEntry => ?_
      by_cases hPointer : entry.cellId.pointer = ""
      · have hCell : entry.cellId = .root entry.cellId.sourceId := by
          rw [CellId.root, ← hPointer]
        rw [hCell]
        exact ih _ ⟨root, hRoot, entry, Trace.mem_entries.mp hEntry, hCell⟩
      · exact Roots.exists_peek fun _ hEmpty => absurd hEmpty hPointer
  by_cases hPointer : cellId.pointer = ""
  · have hCell : cellId = .root cellId.sourceId := by
      rw [CellId.root, ← hPointer]
    rw [hCell]
    exact hRoot _
  · exact Roots.exists_peek fun _ hEmpty => absurd hEmpty hPointer

theorem Acyclic.terminates (h : Acyclic e) : Terminates e := by
  constructor
  · intro cellId
    obtain ⟨depth, r, hPeek⟩ := h.exists_peek cellId
    rw [← getRevision_map_fst] at hPeek
    obtain ⟨r', hRead, -⟩ := Option.map_eq_some_iff.mp hPeek
    exact ⟨depth, r', hRead⟩
  · intro rootId clientDigest
    cases hRoot : e.roots.lookup rootId with
    | none => exact ⟨0, (false, e), by rw [validateRoot, hRoot]⟩
    | some root =>
      obtain ⟨depth, b, hEntries⟩ := exists_peekEntries
        fun entry (_ : entry ∈ root.trace.entries) => h.exists_peek entry.cellId
      rw [← validateTrace_map_fst] at hEntries
      obtain ⟨r, hTrace, -⟩ := Option.map_eq_some_iff.mp hEntries
      by_cases hDigest : root.digest = clientDigest
      · exact ⟨depth, r, by rw [validateRoot, hRoot]; exact (if_pos hDigest).trans hTrace⟩
      · exact ⟨depth, (false, e), by rw [validateRoot, hRoot]; exact if_neg hDigest⟩

/-- In a run that closes no cycle every validation is over in the state that it reaches. -/
theorem validation_terminates
    (hOpen : Along (step digest depth) (fun e op => ¬ ClosesCycle e op) (Engine.new retentionWindow)
      ops) (hRun : run (step digest depth) (Engine.new retentionWindow) ops = some e) :
    Terminates e :=
  (invariant_of_along (fun _ _ _ h hOpen hStep => Acyclic.step h hOpen hStep) acyclic_new hOpen
    hRun).terminates

/-- A root whose trace has its own cell. -/
def selfReading : List (Operation Nat) :=
  [.registerRoot "r" (.record .new (.root "r") (.counter 0)) 1 true 0 0]

theorem not_closesCycle_of_unnamed {trace : Trace} {value : V} {isSubscriber : Bool} {stamp now : Nat}
    (hUnnamed : ∀ a, ¬ Names e a rootId)
    (hSelf : ∀ entry ∈ trace.dependencies, entry.cellId ≠ .root rootId) :
    ¬ ClosesCycle e (.registerRoot rootId trace value isSubscriber stamp now) := by
  rintro ⟨entry, hEntry, id, hCell, hReach⟩
  rcases hReach.cases_tail with rfl | ⟨a, -, hName⟩
  · exact hSelf entry hEntry hCell
  · exact hUnnamed a hName

def reading (id : String) : Trace := .record .new (.root id) (.counter 0)

theorem cellId_of_mem_reading {id : String} {entry : TraceEntry}
    (h : entry ∈ (reading id).dependencies) : entry.cellId = .root id := by
  obtain rfl := (Reactivity.Trace.mem_record.mp h).resolve_right (Reactivity.Trace.mem_new entry)
  rfl

theorem name_of_names_reading {value stamp now : Nat} {isSubscriber : Bool} {id a b : String} {e : Engine Nat}
    (h : Names (e.registerRoot digest rootId (reading id) value isSubscriber stamp now) a b) :
    b = id ∨ Names e a b := by
  rcases names_registerRoot.mp h with ⟨-, entry, hEntry, hCell⟩ | ⟨-, hOld⟩
  · exact .inl (congrArg CellId.sourceId (hCell.symm.trans (cellId_of_mem_reading hEntry)))
  · exact .inr hOld

/-- Each root reads the one before it, and a file was read first. -/
def chain : List (Operation Nat) :=
  [.registerRoot "r" (reading "f") 1 true 0 0, .registerRoot "s" (reading "r") 2 true 0 0,
    .registerRoot "t" (reading "s") 3 true 0 0]

theorem validation_terminates_chain :
    ∃ e, run (step (fun _ => "d") 1) (Engine.new 60) chain = some e ∧ Terminates e := by
  refine ⟨_, rfl, @validation_terminates _ (fun _ => "d") 1 60 _ chain
    ⟨?_, fun _ h => Option.some.inj h ▸ ⟨?_, fun _ h => Option.some.inj h ▸ ⟨?_, fun _ _ => trivial⟩⟩⟩ rfl⟩
  · refine not_closesCycle_of_unnamed (fun a h => ?_) fun entry hEntry => ?_
    · cases h.choose_spec.1
    · rw [cellId_of_mem_reading hEntry]
      decide
  · refine not_closesCycle_of_unnamed (fun a h => ?_) fun entry hEntry => ?_
    · rcases name_of_names_reading h with hEq | hOld
      · exact absurd hEq (by decide)
      · cases hOld.choose_spec.1
    · rw [cellId_of_mem_reading hEntry]
      decide
  · refine not_closesCycle_of_unnamed (fun a h => ?_) fun entry hEntry => ?_
    · rcases name_of_names_reading h with hEq | hOld
      · exact absurd hEq (by decide)
      rcases name_of_names_reading hOld with hEq | hOld
      · exact absurd hEq (by decide)
      · cases hOld.choose_spec.1
    · rw [cellId_of_mem_reading hEntry]
      decide

theorem peek_eq_none_of_self {roots : Table String (Root V)} {view : CellId → Option Revision}
    {root : Root V} {entry : TraceEntry} {entries : List TraceEntry}
    (hRoot : roots.lookup rootId = some root) (hEntries : root.trace.entries = entry :: entries)
    (hCell : entry.cellId = .root rootId) : peek roots view depth (.root rootId) = none := by
  induction depth with
  | zero => rfl
  | succ depth ih =>
    rw [peek, CellId.root, if_pos rfl, hRoot]
    dsimp only
    rw [hEntries, peekEntries, hCell, ih]

theorem not_terminates_of_selfReading : ∃ e, run (step (fun _ => "d") 1) (Engine.new 60) selfReading =
    some e ∧ ¬ Terminates e := by
  refine ⟨_, rfl, fun h => ?_⟩
  obtain ⟨depth, r, hRead⟩ := h.1 (.root "r")
  have hPeek := (getRevision_map_fst depth _ _).symm.trans (congrArg (Option.map Prod.fst) hRead)
  exact nomatch (peek_eq_none_of_self rfl rfl rfl).symm.trans hPeek

end Exosuit.Roots
