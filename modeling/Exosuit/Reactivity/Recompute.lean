import Mathlib.Data.Finset.Card
import Exosuit.Lib.Run
import Exosuit.Reactivity.Runtime

/-!
# Reads agree with recomputation

A trace supports a value when, as long as it validates, recomputing gives that
value and every cell with a revision that the recomputation asks is recorded.
A cell without a revision is not recorded, so writing such a cell is the one
operation that can leave a supported value stale.
-/

namespace Exosuit.Reactivity

open Lib

universe u

/-! ## The source index -/

/-- Every revision is indexed under its source, and only cells with an empty pointer are. -/
structure Engine.Indexed (e : Engine) : Prop where
  mem : ∀ cellId, e.currentState cellId ≠ none →
    ∃ cells, e.sourceIndex cellId.sourceId = some cells ∧ cellId ∈ cells
  source : ∀ id cells, e.sourceIndex id = some cells → ∀ cellId ∈ cells, cellId = .root id

@[simp] theorem Engine.currentState_setCell (e : Engine) (cellId : CellId) (revision : Revision) :
    (e.setCell cellId revision).currentState =
      Function.update e.currentState cellId (some revision) := rfl

@[simp] theorem Engine.sourceIndex_setCell (e : Engine) (cellId : CellId) (revision : Revision) :
    (e.setCell cellId revision).sourceIndex = Function.update e.sourceIndex cellId.sourceId
      (some (insert cellId ((e.sourceIndex cellId.sourceId).getD ∅))) := rfl

namespace Engine.Indexed

theorem new : Engine.new.Indexed := ⟨fun _ h => absurd rfl h, fun _ _ h => nomatch h⟩

theorem setCell {e : Engine} (h : e.Indexed) (id : String) (revision : Revision) :
    (e.setCell (.root id) revision).Indexed := by
  constructor
  · intro cellId hSome
    rcases eq_or_ne cellId (.root id) with rfl | hne
    · exact ⟨_, Function.update_self .., Finset.mem_insert_self ..⟩
    · rw [Engine.currentState_setCell, Function.update_of_ne hne] at hSome
      obtain ⟨cells, hCells, hMem⟩ := h.mem cellId hSome
      rw [Engine.sourceIndex_setCell]
      rcases eq_or_ne cellId.sourceId id with hSource | hSource
      · rw [hSource] at hCells
        refine ⟨insert (.root id) cells, ?_, Finset.mem_insert_of_mem hMem⟩
        simp [CellId.root, hSource, hCells]
      · exact ⟨cells, (Function.update_of_ne hSource ..).trans hCells, hMem⟩
  · intro id' cells hCells cellId hMem
    rw [Engine.sourceIndex_setCell] at hCells
    rcases eq_or_ne id' id with rfl | hne
    · rw [CellId.root, Function.update_self] at hCells
      cases hCells
      rcases Finset.mem_insert.mp hMem with rfl | hOld
      · rfl
      · cases hIndex : e.sourceIndex id' with
        | none => simp [hIndex] at hOld
        | some old => exact h.source id' old hIndex cellId (by simpa [hIndex] using hOld)
    · exact h.source id' cells ((Function.update_of_ne hne ..).symm.trans hCells) cellId hMem

theorem currentState_invalidateCell {e : Engine} (h : e.Indexed) (cellId : CellId) :
    (e.invalidateCell cellId).currentState = Function.update e.currentState cellId none := by
  unfold Engine.invalidateCell
  split
  · rename_i cells hCells
    split at hCells
    · rename_i hPointer
      have hId : cellId = .root cellId.sourceId := by
        rw [CellId.root, ← hPointer]
      funext other
      rcases eq_or_ne other cellId with rfl | hne
      · rw [Function.update_self]
        refine ite_eq_left_iff.mpr fun hMem => ?_
        by_contra hSome
        obtain ⟨cells', hCells', hMem'⟩ := h.mem other hSome
        rw [hCells] at hCells'
        exact hMem (Option.some.inj hCells' ▸ hMem')
      · rw [Function.update_of_ne hne]
        refine if_neg fun hMem => hne ?_
        rw [h.source _ cells hCells other hMem, ← hId]
    · cases hCells
  · rfl

theorem invalidateCell {e : Engine} (h : e.Indexed) (cellId : CellId) :
    (e.invalidateCell cellId).Indexed := by
  unfold Engine.invalidateCell
  split
  · rename_i cells hCells
    split at hCells
    · constructor
      · intro other hSome
        obtain ⟨hNot, hOld⟩ : other ∉ cells ∧ e.currentState other ≠ none := by
          simpa using hSome
        obtain ⟨cells', hCells', hMem⟩ := h.mem other hOld
        refine ⟨cells', ?_, hMem⟩
        refine (Function.update_of_ne (fun hSource => hNot ?_) ..).trans hCells'
        rw [hSource, hCells] at hCells'
        exact Option.some.inj hCells' ▸ hMem
      · intro id cells' hCells' other hMem
        change Function.update e.sourceIndex cellId.sourceId none id = some cells' at hCells'
        rcases eq_or_ne id cellId.sourceId with rfl | hne
        · rw [Function.update_self] at hCells'
          cases hCells'
        · rw [Function.update_of_ne hne] at hCells'
          exact h.source id cells' hCells' other hMem
    · cases hCells
  · constructor
    · intro other hSome
      change Function.update e.currentState cellId none other ≠ none at hSome
      rcases eq_or_ne other cellId with rfl | hne
      · exact absurd (Function.update_self ..) hSome
      · rw [Function.update_of_ne hne] at hSome
        exact h.mem other hSome
    · exact h.source

end Engine.Indexed

variable {V : Type u}

theorem Closure.eval_flatten (contents : CellId → V) (c : Closure V) :
    c.flatten.eval contents = c.recompute contents := by
  induction c with
  | ret value => rfl
  | get cellId next ih => exact ih (contents cellId)
  | read id compute next ihCompute ihNext =>
    rw [Closure.flatten, Query.eval_bind, ihCompute, ihNext]
    rfl

def Closure.asked (contents : CellId → V) (c : Closure V) : List CellId := c.flatten.asked contents

theorem Closure.asked_read (contents : CellId → V) (id : String) (compute : Closure V)
    (next : Availability V → Closure V) :
    (Closure.read id compute next).asked contents =
      compute.asked contents ++ (next (compute.recompute contents)).asked contents := by
  rw [Closure.asked, Closure.flatten, Query.asked_bind, Closure.eval_flatten]
  rfl

/-- The id is not one that a computed registers its own revision under. -/
def Graph.IsCell (graph : Graph V) (cellId : CellId) : Prop :=
  ∀ id, graph.closure id ≠ none → cellId ≠ .root id

theorem Closure.Within.isCell {graph : Graph V} {c : Closure V} (h : c.Within graph.closure)
    {contents : CellId → V} {cellId : CellId} (hAsked : cellId ∈ c.asked contents) :
    graph.IsCell cellId := by
  induction c with
  | ret value => cases hAsked
  | get asked next ih =>
    rcases List.mem_cons.mp hAsked with rfl | hNext
    · exact h.1
    · exact ih (contents asked) (h.2 _) hNext
  | read id compute next ihCompute ihNext =>
    rw [Closure.asked_read] at hAsked
    rcases List.mem_append.mp hAsked with hCompute | hNext
    · exact ihCompute h.2.1 hCompute
    · exact ihNext _ (h.2.2 _) hNext

/-- A revision that the runtime has given to a cell. -/
def Runtime.Issued (rt : Runtime V) (revision : Revision) : Prop :=
  ∃ n, n ≤ rt.counter ∧ revision = .memory rt.epoch n

structure Graph.Known (graph : Graph V) (rt : Runtime V) (trace : Trace) : Prop where
  isCell : ∀ entry ∈ trace.dependencies, graph.IsCell entry.cellId
  issued : ∀ entry ∈ trace.dependencies, rt.Issued entry.revision

variable {graph : Graph V} {rt rt' : Runtime V}

/-- What a read may not change: everything but roots, memos and the revisions of computeds. -/
structure Graph.SameCells (graph : Graph V) (rt rt' : Runtime V) : Prop where
  store : rt'.store = rt.store
  epoch : rt'.epoch = rt.epoch
  counter : rt'.counter = rt.counter
  currentState : ∀ cellId, graph.IsCell cellId →
    rt'.engine.currentState cellId = rt.engine.currentState cellId

namespace Graph.SameCells

theorem refl (rt : Runtime V) : graph.SameCells rt rt := ⟨rfl, rfl, rfl, fun _ _ => rfl⟩

theorem trans {rt'' : Runtime V} (h : graph.SameCells rt rt') (h' : graph.SameCells rt' rt'') :
    graph.SameCells rt rt'' where
  store := h'.store.trans h.store
  epoch := h'.epoch.trans h.epoch
  counter := h'.counter.trans h.counter
  currentState cellId hCell := (h'.currentState cellId hCell).trans (h.currentState cellId hCell)

theorem symm (h : graph.SameCells rt rt') : graph.SameCells rt' rt where
  store := h.store.symm
  epoch := h.epoch.symm
  counter := h.counter.symm
  currentState cellId hCell := (h.currentState cellId hCell).symm

theorem issued (h : graph.SameCells rt rt') {revision : Revision} :
    rt'.Issued revision ↔ rt.Issued revision := by
  rw [Runtime.Issued, Runtime.Issued, h.counter, h.epoch]

theorem known (h : graph.SameCells rt rt') {trace : Trace} (hKnown : graph.Known rt trace) :
    graph.Known rt' trace :=
  ⟨hKnown.isCell, fun entry hEntry => h.issued.mpr (hKnown.issued entry hEntry)⟩

theorem validate_eq (h : graph.SameCells rt rt') {trace : Trace} (hKnown : graph.Known rt trace) :
    trace.validate rt'.engine.currentState = trace.validate rt.engine.currentState := by
  rw [Bool.eq_iff_iff, Trace.validate_iff, Trace.validate_iff]
  refine forall₂_congr fun entry hEntry => ?_
  rw [h.currentState _ (hKnown.isCell entry hEntry)]

end Graph.SameCells

theorem known_new : graph.Known rt .new :=
  ⟨fun _ h => absurd h (Trace.mem_new _), fun _ h => absurd h (Trace.mem_new _)⟩

theorem known_replay {t t' : Trace} (h : graph.Known rt t) (h' : graph.Known rt t') :
    graph.Known rt (t.replay t') where
  isCell entry hEntry := (Trace.mem_replay.mp hEntry).elim (h.isCell entry) (h'.isCell entry)
  issued entry hEntry := (Trace.mem_replay.mp hEntry).elim (h.issued entry) (h'.issued entry)

/-- Registering a root touches the revision of its own id only. -/
theorem sameCells_memoise {id : String} {compute : Closure V} (hId : graph.closure id = some compute)
    (digest : Trace → String) (trace : Trace) (value : Availability V) :
    graph.SameCells rt (rt.memoise digest id trace value) where
  store := rfl
  epoch := rfl
  counter := rfl
  currentState cellId hCell := by
    have hne : cellId ≠ .root id := hCell id (by simp [hId])
    exact Function.update_of_ne hne _ _

variable [Inhabited V]

structure Runtime.Supports (rt : Runtime V) (compute : Closure V) (trace : Trace)
    (value : Availability V) : Prop where
  value : compute.recompute rt.contents = value
  recorded : ∀ cellId ∈ compute.asked rt.contents, ∀ revision,
    rt.engine.currentState cellId = some revision → ⟨cellId, revision⟩ ∈ trace.dependencies

structure Graph.Coherent (graph : Graph V) (rt : Runtime V) : Prop where
  stored : ∀ cellId, graph.IsCell cellId →
    (rt.engine.currentState cellId = none ↔ rt.store cellId = none)
  issued : ∀ cellId revision, graph.IsCell cellId →
    rt.engine.currentState cellId = some revision → rt.Issued revision
  indexed : rt.engine.Indexed
  computed : ∀ id root, rt.engine.roots id = some root → graph.closure id ≠ none
  known : ∀ id root, rt.engine.roots id = some root → graph.Known rt root.trace
  digest : ∀ id root digest value, rt.engine.roots id = some root →
    rt.memo id = some (digest, value) → root.digest = digest
  supports : ∀ id compute root digest value, graph.closure id = some compute →
    rt.engine.roots id = some root → rt.memo id = some (digest, value) →
    root.trace.validate rt.engine.currentState = true → rt.Supports compute root.trace value

theorem coherent_new (epoch : Epoch) : graph.Coherent (Runtime.new epoch) where
  stored _ _ := ⟨fun _ => rfl, fun _ => rfl⟩
  issued _ _ _ h := by cases h
  indexed := .new
  computed _ _ h := by cases h
  known _ _ h := by cases h
  digest _ _ _ _ h := by cases h
  supports _ _ _ _ _ _ h := by cases h

namespace Graph.Coherent

/-! ## Revisions -/

theorem getRevision_eq (h : graph.Coherent rt) {cellId : CellId} (hCell : graph.IsCell cellId)
    (depth : Nat) : rt.engine.getRevision (depth + 1) cellId = rt.engine.currentState cellId := by
  rw [Engine.getRevision]
  split
  · rename_i root hRoot
    split at hRoot
    · rename_i hPointer
      have hId : cellId = .root cellId.sourceId := by
        rw [CellId.root, ← hPointer]
      exact absurd hId (hCell _ (h.computed _ root hRoot))
    · cases hRoot
  · rfl

theorem validate_eq (h : graph.Coherent rt) {trace : Trace} (hKnown : graph.Known rt trace)
    (depth : Nat) : trace.validate (rt.engine.getRevision (depth + 1)) =
      trace.validate rt.engine.currentState := by
  rw [Bool.eq_iff_iff, Trace.validate_iff, Trace.validate_iff]
  refine forall₂_congr fun entry hEntry => ?_
  rw [h.getRevision_eq (hKnown.isCell entry hEntry)]

theorem of_cached (h : graph.Coherent rt) {depth : Nat} {id : String} {compute : Closure V}
    {value : Availability V} (hId : graph.closure id = some compute)
    (hCached : rt.cached depth id = some value) :
    graph.Known rt (rt.rootTrace id) ∧
    (rt.rootTrace id).validate rt.engine.currentState = true ∧
    rt.Supports compute (rt.rootTrace id) value := by
  unfold Runtime.cached at hCached
  split at hCached
  · rename_i digest last hMemo
    split at hCached <;> cases hCached
    rename_i hValid
    unfold Engine.validateRoot at hValid
    split at hValid
    · rename_i root hRoot
      have hKnown := h.known id root hRoot
      have hTrace : root.trace.validate rt.engine.currentState = true := by
        rw [← h.validate_eq hKnown depth]
        exact (Bool.and_eq_true_iff.mp hValid).2
      have hRootTrace : rt.rootTrace id = root.trace := by
        rw [Runtime.rootTrace, hRoot]
      rw [hRootTrace]
      exact ⟨hKnown, hTrace, h.supports id compute root digest value hId hRoot hMemo hTrace⟩
    · cases hValid
  · cases hCached

end Graph.Coherent

theorem Runtime.Supports.congr {compute : Closure V} {trace : Trace} {value : Availability V}
    (h : rt.Supports compute trace value)
    (hContents : ∀ cellId ∈ compute.asked rt.contents, rt'.contents cellId = rt.contents cellId)
    (hState : ∀ cellId ∈ compute.asked rt.contents, ∀ revision,
      rt'.engine.currentState cellId = some revision → rt.engine.currentState cellId = some revision) :
    rt'.Supports compute trace value := by
  constructor
  · rw [← h.value, ← Closure.eval_flatten, ← Closure.eval_flatten]
    exact Query.eval_congr _ hContents
  · rw [Closure.asked, Query.asked_congr _ hContents]
    intro cellId hAsked revision hRevision
    exact h.recorded cellId hAsked revision (hState cellId hAsked revision hRevision)

/-! ## Evaluation -/

namespace Graph.SameCells

theorem contents_eq (h : graph.SameCells rt rt') : rt'.contents = rt.contents := by
  unfold Runtime.contents
  rw [h.store]

theorem supports (h : graph.SameCells rt rt') {compute : Closure V} {trace : Trace}
    {value : Availability V} (hWithin : compute.Within graph.closure)
    (hSupports : rt.Supports compute trace value) : rt'.Supports compute trace value := by
  refine hSupports.congr (fun cellId _ => by rw [h.contents_eq]) fun cellId hAsked revision => ?_
  rw [h.currentState cellId (hWithin.isCell hAsked)]
  exact id

end Graph.SameCells

theorem Graph.Coherent.memoise (h : graph.Coherent rt) {id : String} {compute : Closure V}
    (hId : graph.closure id = some compute) (digest : Trace → String) {trace : Trace}
    {value : Availability V} (hKnown : graph.Known rt trace)
    (hSupports : rt.Supports compute trace value) :
    graph.Coherent (rt.memoise digest id trace value) := by
  have hSame : graph.SameCells rt (rt.memoise digest id trace value) :=
    sameCells_memoise hId digest trace value
  constructor
  case stored =>
    intro cellId hCell
    rw [hSame.currentState cellId hCell, hSame.store]
    exact h.stored cellId hCell
  case issued =>
    intro cellId revision hCell hRevision
    rw [hSame.currentState cellId hCell] at hRevision
    exact hSame.issued.mpr (h.issued cellId revision hCell hRevision)
  case indexed =>
    have hRoots : Engine.Indexed { rt.engine with
        roots := Function.update rt.engine.roots id (some ⟨trace, digest trace⟩) } :=
      ⟨h.indexed.mem, h.indexed.source⟩
    exact hRoots.setCell id _
  case computed =>
    intro id' root hRoot
    rcases eq_or_ne id' id with rfl | hne
    · simp [hId]
    · exact h.computed id' root ((Function.update_of_ne hne _ _).symm.trans hRoot)
  case known =>
    intro id' root hRoot
    rcases eq_or_ne id' id with rfl | hne
    · cases (Function.update_self ..).symm.trans hRoot
      exact hSame.known hKnown
    · exact hSame.known (h.known id' root ((Function.update_of_ne hne _ _).symm.trans hRoot))
  case digest =>
    intro id' root digest' value' hRoot hMemo
    rcases eq_or_ne id' id with rfl | hne
    · cases (Function.update_self ..).symm.trans hRoot
      cases (Function.update_self ..).symm.trans hMemo
      rfl
    · exact h.digest id' root digest' value' ((Function.update_of_ne hne _ _).symm.trans hRoot)
        ((Function.update_of_ne hne _ _).symm.trans hMemo)
  case supports =>
    intro id' compute' root digest' value' hId' hRoot hMemo hValid
    rcases eq_or_ne id' id with rfl | hne
    · cases (Function.update_self ..).symm.trans hRoot
      cases (Function.update_self ..).symm.trans hMemo
      cases hId.symm.trans hId'
      exact hSame.supports (graph.within id' compute hId) hSupports
    · replace hRoot := (Function.update_of_ne hne _ _).symm.trans hRoot
      replace hMemo := (Function.update_of_ne hne _ _).symm.trans hMemo
      have hKnown' := h.known id' root hRoot
      rw [hSame.validate_eq hKnown'] at hValid
      exact hSame.supports (graph.within id' compute' hId')
        (h.supports id' compute' root digest' value' hId' hRoot hMemo hValid)

theorem Graph.Coherent.known_recordGet (h : graph.Coherent rt) {cellId : CellId}
    (hCell : graph.IsCell cellId) {depth : Nat} {active : Trace} (hKnown : graph.Known rt active) :
    graph.Known rt (rt.recordGet depth cellId active) := by
  unfold Runtime.recordGet
  rw [h.getRevision_eq hCell]
  split
  · rename_i revision hRevision
    constructor
    · intro entry hEntry
      rcases Trace.mem_record.mp hEntry with rfl | hOld
      · exact hCell
      · exact hKnown.isCell entry hOld
    · intro entry hEntry
      rcases Trace.mem_record.mp hEntry with rfl | hOld
      · exact h.issued cellId revision hCell hRevision
      · exact hKnown.issued entry hOld
  · exact hKnown

/-- What running a closure yields beside its value. -/
structure Graph.Ran (graph : Graph V) (rt : Runtime V) (asked : List CellId)
    (outcome : Runtime.Outcome V) : Prop where
  coherent : graph.Coherent outcome.runtime
  sameCells : graph.SameCells rt outcome.runtime
  known : graph.Known rt outcome.trace
  valid : outcome.trace.validate rt.engine.currentState = true
  recorded : ∀ cellId ∈ asked, ∀ revision, rt.engine.currentState cellId = some revision →
    ⟨cellId, revision⟩ ∈ outcome.trace.dependencies

@[simp] theorem Trace.validate_new {state : CellId → Option Revision} : Trace.new.validate state = true :=
  Trace.validate_iff.mpr fun _ h => absurd h (Trace.mem_new _)

theorem Trace.validate_record {t : Trace} {state : CellId → Option Revision} {cellId : CellId}
    {revision : Revision} (h : t.validate state = true) (hRevision : state cellId = some revision) :
    (t.record cellId revision).validate state = true := by
  rw [Trace.validate_iff] at h ⊢
  intro entry hEntry
  rcases Trace.mem_record.mp hEntry with rfl | hOld
  · exact hRevision
  · exact h entry hOld

theorem Trace.validate_replay {t t' : Trace} {state : CellId → Option Revision}
    (h : t.validate state = true) (h' : t'.validate state = true) :
    (t.replay t').validate state = true := by
  rw [Trace.validate_iff] at h h' ⊢
  intro entry hEntry
  exact (Trace.mem_replay.mp hEntry).elim (h entry) (h' entry)

theorem Graph.Coherent.readWith (h : graph.Coherent rt) {id : String} {compute : Closure V}
    (hId : graph.closure id = some compute) (digest : Trace → String) (depth : Nat)
    {run : Runtime V → Trace → Runtime.Outcome V}
    (hValue : (run rt .new).value = compute.recompute rt.contents)
    (hRun : graph.Ran rt (compute.asked rt.contents) (run rt .new)) :
    (rt.readWith digest depth id run).value = compute.recompute rt.contents ∧
    graph.Ran rt (compute.asked rt.contents) (rt.readWith digest depth id run) := by
  unfold Runtime.readWith
  split
  · rename_i value hCached
    obtain ⟨hKnown, hValid, hSupports⟩ := h.of_cached hId hCached
    exact ⟨hSupports.value.symm, h, .refl rt, hKnown, hValid, hSupports.recorded⟩
  · have hSupports : rt.Supports compute (run rt .new).trace (run rt .new).value :=
      ⟨hValue.symm, hRun.recorded⟩
    have hMemoised := hRun.coherent.memoise hId digest (hRun.sameCells.known hRun.known)
      (hRun.sameCells.supports (graph.within id compute hId) hSupports)
    exact ⟨hValue, hMemoised, hRun.sameCells.trans (sameCells_memoise hId ..), hRun.known,
      hRun.valid, hRun.recorded⟩

theorem Graph.Ran.of_sameCells {c : Closure V} {outcome : Runtime.Outcome V}
    (h : graph.Ran rt' (c.asked rt.contents) outcome) (hSame : graph.SameCells rt rt')
    (hWithin : c.Within graph.closure) : graph.Ran rt (c.asked rt.contents) outcome := by
  have hKnown := hSame.symm.known h.known
  refine ⟨h.coherent, hSame.trans h.sameCells, hKnown, ?_, ?_⟩
  · rw [← hSame.validate_eq hKnown]
    exact h.valid
  · intro cellId hAsked revision hRevision
    rw [← hSame.currentState cellId (hWithin.isCell hAsked)] at hRevision
    exact h.recorded cellId hAsked revision hRevision

theorem Graph.Coherent.run (digest : Trace → String) (depth : Nat) (c : Closure V) :
    ∀ {rt : Runtime V} {active : Trace}, graph.Coherent rt → c.Within graph.closure →
      graph.Known rt active → active.validate rt.engine.currentState = true →
      (c.run digest depth rt active).value = c.recompute rt.contents ∧
      graph.Ran rt (c.asked rt.contents) (c.run digest depth rt active) ∧
      active.dependencies ⊆ (c.run digest depth rt active).trace.dependencies := by
  induction c with
  | ret value =>
    intro rt active h _ hKnown hValid
    exact ⟨rfl, ⟨h, .refl rt, hKnown, hValid, nofun⟩, Finset.Subset.refl _⟩
  | get cellId next ih =>
    intro rt active h hWithin hKnown hValid
    have hCell : graph.IsCell cellId := hWithin.1
    have hGet : ∀ revision, rt.engine.currentState cellId = some revision →
        rt.recordGet depth cellId active = active.record cellId revision := by
      intro revision hRevision
      rw [Runtime.recordGet, h.getRevision_eq hCell, hRevision]
    have hValid' : (rt.recordGet depth cellId active).validate rt.engine.currentState = true := by
      cases hRevision : rt.engine.currentState cellId with
      | none => rwa [Runtime.recordGet, h.getRevision_eq hCell, hRevision]
      | some revision =>
        rw [hGet revision hRevision]
        exact Trace.validate_record hValid hRevision
    have hKnown' : graph.Known rt (rt.recordGet depth cellId active) :=
      h.known_recordGet hCell hKnown
    obtain ⟨hValue, hRan, hSubset⟩ := ih (rt.contents cellId) h (hWithin.2 _) hKnown' hValid'
    refine ⟨hValue, ⟨hRan.coherent, hRan.sameCells, hRan.known, hRan.valid, ?_⟩, ?_⟩
    · intro cellId' hAsked revision hRevision
      rcases List.mem_cons.mp hAsked with rfl | hNext
      · refine hSubset ?_
        rw [hGet revision hRevision]
        exact Trace.mem_record.mpr (.inl rfl)
      · exact hRan.recorded cellId' hNext revision hRevision
    · refine Finset.Subset.trans ?_ hSubset
      cases hRevision : rt.engine.currentState cellId with
      | none => rw [Runtime.recordGet, h.getRevision_eq hCell, hRevision]
      | some revision =>
        rw [hGet revision hRevision]
        exact Finset.subset_insert _ _
  | read id compute next ihCompute ihNext =>
    intro rt active h hWithin hKnown hValid
    obtain ⟨hId, hWithinCompute, hWithinNext⟩ := hWithin
    obtain ⟨hComputed, hCompute, _⟩ := ihCompute h hWithinCompute known_new Trace.validate_new
    obtain ⟨hValue, hRead⟩ := h.readWith hId digest depth hComputed hCompute
    have hSame := hRead.sameCells
    have hKnown' := known_replay hKnown hRead.known
    have hValid' := Trace.validate_replay hValid hRead.valid
    have hRun : (Closure.read id compute next).run digest depth rt active =
        (next (compute.recompute rt.contents)).run digest depth
          (rt.readWith digest depth id (compute.run digest depth)).runtime
          (active.replay (rt.readWith digest depth id (compute.run digest depth)).trace) := by
      rw [← hValue]
      rfl
    rw [hRun]
    obtain ⟨hResult, hNext, hSubset⟩ := ihNext (compute.recompute rt.contents)
      hRead.coherent (hWithinNext _) (hSame.known hKnown')
      (by rwa [hSame.validate_eq hKnown'])
    rw [hSame.contents_eq] at hResult hNext
    have hAll := hNext.of_sameCells hSame (hWithinNext _)
    refine ⟨hResult, ⟨hAll.coherent, hAll.sameCells, hAll.known, hAll.valid, ?_⟩, ?_⟩
    · intro cellId hAsked revision hRevision
      rw [Closure.asked_read] at hAsked
      rcases List.mem_append.mp hAsked with hFirst | hSecond
      · exact hSubset (Trace.mem_replay.mpr (.inr (hRead.recorded cellId hFirst revision hRevision)))
      · exact hAll.recorded cellId hSecond revision hRevision
    · exact fun entry hEntry => hSubset (Trace.mem_replay.mpr (.inl hEntry))

/-! ## Steps and runs -/

@[simp] theorem Engine.roots_invalidateCell (e : Engine) (cellId : CellId) :
    (e.invalidateCell cellId).roots = e.roots := by
  unfold Engine.invalidateCell
  split <;> rfl

theorem Trace.validate_of_update {t : Trace} {state : CellId → Option Revision} {cellId : CellId}
    {changed : Option Revision}
    (h : t.validate (Function.update state cellId changed) = true)
    (hFresh : ∀ entry ∈ t.dependencies, changed ≠ some entry.revision) :
    (∀ entry ∈ t.dependencies, entry.cellId ≠ cellId) ∧ t.validate state = true := by
  rw [Trace.validate_iff] at h
  have hne : ∀ entry ∈ t.dependencies, entry.cellId ≠ cellId := by
    rintro entry hEntry rfl
    have hChanged := h entry hEntry
    rw [Function.update_self] at hChanged
    exact hFresh entry hEntry hChanged
  refine ⟨hne, Trace.validate_iff.mpr fun entry hEntry => ?_⟩
  have hState := h entry hEntry
  rwa [Function.update_of_ne (hne entry hEntry)] at hState

/-- `cellId` has no contents while the cached value of a computed that asks it validates. -/
def Runtime.Unrecorded (graph : Graph V) (depth : Nat) (rt : Runtime V) (cellId : CellId) : Prop :=
  rt.store cellId = none ∧ ∃ id compute, graph.closure id = some compute ∧
    rt.cached depth id ≠ none ∧ cellId ∈ compute.asked rt.contents

theorem Graph.Coherent.cached_eq (h : graph.Coherent rt) {id digest : String} {root : Root}
    {value : Availability V} (hRoot : rt.engine.roots id = some root)
    (hMemo : rt.memo id = some (digest, value))
    (hValid : root.trace.validate rt.engine.currentState = true) (depth : Nat) :
    rt.cached depth id = some value := by
  have hDigest := h.digest id root digest value hRoot hMemo
  have hValid' := h.validate_eq (h.known id root hRoot) depth
  simp [Runtime.cached, hMemo, Engine.validateRoot, hRoot, hDigest, hValid', hValid]

theorem Runtime.contents_of_ne {cellId other : CellId} {contents : Option V} (hne : other ≠ cellId)
    (hStore : rt'.store = Function.update rt.store cellId contents) :
    rt'.contents other = rt.contents other := by
  rw [Runtime.contents, Runtime.contents, hStore, Function.update_of_ne hne]

theorem Graph.Coherent.write (h : graph.Coherent rt) (depth : Nat) {id : String} (value : V)
    (hRecorded : ¬ rt.Unrecorded graph depth (.root id)) :
    graph.Coherent (rt.write (.root id) value) := by
  have hIssued : ∀ {revision}, rt.Issued revision → (rt.write (.root id) value).Issued revision := by
    rintro _ ⟨n, hn, rfl⟩
    exact ⟨n, Nat.le_succ_of_le hn, rfl⟩
  constructor
  case stored =>
    intro cellId hCell
    simp only [Runtime.write, Engine.currentState_setCell]
    rcases eq_or_ne cellId (.root id) with rfl | hne
    · simp
    · rw [Function.update_of_ne hne, Function.update_of_ne hne]
      exact h.stored cellId hCell
  case issued =>
    intro cellId revision hCell hRevision
    simp only [Runtime.write, Engine.currentState_setCell] at hRevision
    rcases eq_or_ne cellId (.root id) with rfl | hne
    · rw [Function.update_self] at hRevision
      exact ⟨rt.counter + 1, le_refl _, (Option.some.inj hRevision).symm⟩
    · rw [Function.update_of_ne hne] at hRevision
      exact hIssued (h.issued cellId revision hCell hRevision)
  case indexed => exact h.indexed.setCell id _
  case computed => exact h.computed
  case known =>
    intro id' root hRoot
    have hKnown := h.known id' root hRoot
    exact ⟨hKnown.isCell, fun entry hEntry => hIssued (hKnown.issued entry hEntry)⟩
  case digest => exact h.digest
  case supports =>
    intro id' compute root digest value' hId hRoot hMemo hValid
    obtain ⟨hne, hBefore⟩ := Trace.validate_of_update hValid fun entry hEntry hEq => by
      obtain ⟨n, hn, hRevision⟩ := (h.known id' root hRoot).issued entry hEntry
      cases hRevision.symm.trans (Option.some.inj hEq).symm
      exact absurd hn (Nat.not_succ_le_self _)
    have hSupports := h.supports id' compute root digest value' hId hRoot hMemo hBefore
    have hNotAsked : CellId.root id ∉ compute.asked rt.contents := by
      intro hAsked
      have hCell := (graph.within id' compute hId).isCell hAsked
      cases hRevision : rt.engine.currentState (.root id) with
      | none =>
        refine hRecorded ⟨(h.stored _ hCell).mp hRevision, id', compute, hId, ?_, hAsked⟩
        simp [h.cached_eq hRoot hMemo hBefore depth]
      | some revision => exact hne _ (hSupports.recorded _ hAsked revision hRevision) rfl
    have hOther : ∀ cellId ∈ compute.asked rt.contents, cellId ≠ .root id := by
      rintro cellId hAsked rfl
      exact hNotAsked hAsked
    refine hSupports.congr (fun cellId hAsked => ?_) fun cellId hAsked revision hRevision => ?_
    · exact Runtime.contents_of_ne (hOther cellId hAsked) rfl
    · exact (Function.update_of_ne (hOther cellId hAsked) _ _).symm.trans hRevision

theorem Graph.Coherent.removeCell (h : graph.Coherent rt) (cellId : CellId) :
    graph.Coherent (rt.removeCell cellId) := by
  have hState : (rt.removeCell cellId).engine.currentState =
      Function.update rt.engine.currentState cellId none :=
    h.indexed.currentState_invalidateCell cellId
  have hRoots : (rt.removeCell cellId).engine.roots = rt.engine.roots :=
    Engine.roots_invalidateCell _ _
  constructor
  case stored =>
    intro other hCell
    rw [hState]
    simp only [Runtime.removeCell]
    rcases eq_or_ne other cellId with rfl | hne
    · simp
    · rw [Function.update_of_ne hne, Function.update_of_ne hne]
      exact h.stored other hCell
  case issued =>
    intro other revision hCell hRevision
    rw [hState] at hRevision
    rcases eq_or_ne other cellId with rfl | hne
    · rw [Function.update_self] at hRevision
      cases hRevision
    · rw [Function.update_of_ne hne] at hRevision
      exact h.issued other revision hCell hRevision
  case indexed => exact h.indexed.invalidateCell cellId
  case computed => exact fun id root hRoot => h.computed id root (hRoots ▸ hRoot)
  case known =>
    intro id root hRoot
    have hKnown := h.known id root (hRoots ▸ hRoot)
    exact ⟨hKnown.isCell, hKnown.issued⟩
  case digest => exact fun id root digest value hRoot => h.digest id root digest value (hRoots ▸ hRoot)
  case supports =>
    intro id compute root digest value hId hRoot hMemo hValid
    rw [hRoots] at hRoot
    rw [hState] at hValid
    obtain ⟨hne, hBefore⟩ := Trace.validate_of_update hValid fun _ _ => nofun
    have hSupports := h.supports id compute root digest value hId hRoot hMemo hBefore
    refine hSupports.congr (fun other hAsked => ?_) fun other _ revision hRevision => ?_
    · rcases eq_or_ne other cellId with rfl | hOther
      · have hCell := (graph.within id compute hId).isCell hAsked
        have hNone : rt.engine.currentState other = none := by
          by_contra hSome
          obtain ⟨revision, hRevision⟩ := Option.ne_none_iff_exists'.mp hSome
          exact hne _ (hSupports.recorded other hAsked revision hRevision) rfl
        simp [Runtime.contents, Runtime.removeCell, (h.stored other hCell).mp hNone]
      · exact Runtime.contents_of_ne hOther rfl
    · rw [hState] at hRevision
      rcases eq_or_ne other cellId with rfl | hOther
      · rw [Function.update_self] at hRevision
        cases hRevision
      · rwa [Function.update_of_ne hOther] at hRevision

theorem Graph.Coherent.read (h : graph.Coherent rt) (digest : Trace → String) (depth : Nat)
    {id : String} {compute : Closure V} (hId : graph.closure id = some compute) :
    (rt.read digest depth id compute).value = compute.recompute rt.contents ∧
    graph.Coherent (rt.read digest depth id compute).runtime := by
  obtain ⟨hValue, hRan, _⟩ := Graph.Coherent.run digest depth compute h
    (graph.within id compute hId) known_new Trace.validate_new
  obtain ⟨hRead, hRanRead⟩ := h.readWith hId digest depth hValue hRan
  exact ⟨hRead, hRanRead.coherent⟩

/-- The cell that an operation gives contents to. -/
def Operation.written {V : Type u} : Operation V → Option CellId
  | .cell id _ | .set id _ => some (.root id)
  | .removeCell _ | .invalidate _ | .read _ => none

/-- The operation writes no cell that a cached value asked without recording it. -/
def Runtime.RecordedWrite (graph : Graph V) (depth : Nat) (rt : Runtime V) (op : Operation V) :
    Prop :=
  ∀ cellId, op.written = some cellId → ¬ rt.Unrecorded graph depth cellId

theorem Graph.Coherent.step (h : graph.Coherent rt) {digest : Trace → String} {depth : Nat}
    {op : Operation V} (hRecorded : rt.RecordedWrite graph depth op)
    (hStep : rt.step graph digest depth op = some rt') : graph.Coherent rt' := by
  cases op with
  | cell id value =>
    cases hStep
    exact h.write _ value (hRecorded _ rfl)
  | set id value =>
    cases hStep
    exact h.write _ value (hRecorded _ rfl)
  | removeCell cellId =>
    cases hStep
    exact h.removeCell cellId
  | invalidate id =>
    cases hStep
    exact h.removeCell (.root id)
  | read id =>
    obtain ⟨compute, hId, rfl⟩ := Option.map_eq_some_iff.mp hStep
    exact (h.read digest depth hId).2

/-- In every state of a run without unrecorded writes, every read gives what
recomputing from scratch gives. -/
theorem read_eq_recompute (graph : Graph V) (digest : Trace → String) (depth : Nat)
    (epoch : Epoch) (ops : List (Operation V)) (rt : Runtime V)
    (hAlong : Along (Runtime.step graph digest depth) (Runtime.RecordedWrite graph depth)
      (.new epoch) ops)
    (hRun : run (Runtime.step graph digest depth) (.new epoch) ops = some rt)
    (id : String) (compute : Closure V) (hId : graph.closure id = some compute) :
    (rt.read digest depth id compute).value = compute.recompute rt.contents := by
  have hCoherent : graph.Coherent rt :=
    invariant_of_along (fun _ _ _ h hRecorded hStep => h.step hRecorded hStep)
      (coherent_new epoch) hAlong hRun
  exact (hCoherent.read digest depth hId).1

/-! ## The write that is not recorded -/

def nameCell : CellId := .root "name"

def greetingClosure : Closure (Option Nat) := .get nameCell fun value => .ret (.present value)

/-- One computed that answers what the cell `name` holds; `none` is the null value. -/
def greeting : Graph (Option Nat) where
  closure id := if id = "greeting" then some greetingClosure else none
  within := by
    intro id compute hId
    split at hId <;> cases hId
    refine ⟨fun id' hId' => ?_, fun _ => trivial⟩
    rintro hName
    have hEq : id' = "name" := (congrArg CellId.sourceId hName).symm
    subst hEq
    exact hId' (by decide)

def countDigest (trace : Trace) : String := .ofList (.replicate trace.dependencies.card '0')

def greetingRun (ops : List (Operation (Option Nat))) : Option (Runtime (Option Nat)) :=
  run (Runtime.step greeting countDigest 0) (.new 0) ops

def removedThenSet : List (Operation (Option Nat)) :=
  [.cell "name" (some 1), .read "greeting", .removeCell nameCell, .read "greeting",
    .set "name" (some 2)]

theorem read_stale_after_set :
    ∃ rt, greetingRun removedThenSet = some rt ∧
      greeting.closure "greeting" = some greetingClosure ∧
      (rt.read countDigest 0 "greeting" greetingClosure).value = .present none ∧
      greetingClosure.recompute rt.contents = .present (some 2) := by
  have hRun : (greetingRun removedThenSet).isSome := by rfl
  exact ⟨_, (Option.some_get hRun).symm, rfl, rfl, rfl⟩

def presentThenSet : List (Operation (Option Nat)) :=
  [.cell "name" (some 1), .read "greeting", .set "name" (some 2)]

theorem presentThenSet_recorded :
    Along (Runtime.step greeting countDigest 0) (Runtime.RecordedWrite greeting 0) (.new 0)
      presentThenSet := by
  refine ⟨?_, fun rt hCell => ⟨nofun, fun rt' hRead => ⟨?_, fun _ _ => trivial⟩⟩⟩
  · rintro cellId _ ⟨_, id, compute, _, hCached, _⟩
    exact hCached rfl
  · rintro cellId hWritten ⟨hStore, _⟩
    cases hWritten
    cases hCell
    cases hRead
    exact absurd hStore (by decide)

theorem read_eq_recompute_after_set :
    ∃ rt, greetingRun presentThenSet = some rt ∧
      (rt.read countDigest 0 "greeting" greetingClosure).value =
        greetingClosure.recompute rt.contents := by
  have hRun : (greetingRun presentThenSet).isSome := by rfl
  refine ⟨_, (Option.some_get hRun).symm, ?_⟩
  exact read_eq_recompute greeting countDigest 0 0 presentThenSet _ presentThenSet_recorded
    (Option.some_get hRun).symm "greeting" greetingClosure rfl

end Exosuit.Reactivity
