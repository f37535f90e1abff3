import Exosuit.Reactivity.Collections

/-!
# Collections refine plain ones

Every cell has one owner. A reading gets the cells that decide its answer, so an
operation that no valid trace mentions leaves the answers of all bodies alone.
-/

namespace Exosuit.Reactivity

open Lib

variable {M S X K V W : Type}

/-! ## Owners -/

inductive Owner (M S X K : Type)
  | cell (x : X)
  | mapStructure (m : M)
  | entry (m : M) (key : K)
  | sequenceStructure (s : S)
  | item (s : S) (index : Nat)
deriving DecidableEq

variable [DecidableEq K]

def Shape.owned (shape : Shape M S X K) : Owner M S X K → Option String
  | .cell x => some (shape.cells x)
  | .mapStructure m => some (shape.maps m).structureId
  | .entry m key => (shape.maps m).values.lookup key
  | .sequenceStructure s => some (shape.sequences s).structureId
  | .item s index => (shape.sequences s).values[index]?

def Plain.held (serde : Serde V W) (p : Plain M S X K V W) : Owner M S X K → Option V
  | .cell x => some (p.cells x)
  | .entry m key => ((p.maps m).lookup key).map serde.toValue
  | .item s index => ((p.sequences s)[index]?).map serde.toValue
  | .mapStructure _ | .sequenceStructure _ => none

def Shape.Owns (shape : Shape M S X K) (cellId : CellId) : Prop :=
  ∃ o id, shape.owned o = some id ∧ cellId = .root id

/-! ## What a query asks -/

def Query.Every {κ ν α : Type} (P : κ → Prop) : Query κ ν α → Prop
  | .ret _ => True
  | .ask k next => P k ∧ ∀ value, Query.Every P (next value)

section Queries

variable {κ ν α β : Type} {P : κ → Prop}

theorem Query.Every.bind {q : Query κ ν α} {f : α → Query κ ν β} (h : Query.Every P q)
    (hf : ∀ a, Query.Every P (f a)) : Query.Every P (q.bind f) := by
  induction q with
  | ret a => exact hf a
  | ask k next ih => exact ⟨h.1, fun value => ih value (h.2 value)⟩

theorem Query.Every.of_asked {q : Query κ ν α} (h : Query.Every P q) {env : κ → ν} {k : κ}
    (hk : k ∈ q.asked env) : P k := by
  induction q with
  | ret a => cases hk
  | ask key next ih =>
    rcases List.mem_cons.mp hk with rfl | hNext
    · exact h.1
    · exact ih (env key) (h.2 _) hNext

end Queries

section Closures

variable {α : Type} (f : α → Closure V) (contents : CellId → V)

theorem recompute_closure (q : Query CellId V α) :
    (Query.closure q f).recompute contents = (f (q.eval contents)).recompute contents := by
  induction q with
  | ret a => rfl
  | ask cellId next ih => exact ih (contents cellId)

theorem asked_closure (q : Query CellId V α) : (Query.closure q f).asked contents =
    q.asked contents ++ (f (q.eval contents)).asked contents := by
  induction q with
  | ret a => rfl
  | ask cellId next ih => exact congrArg (cellId :: ·) (ih (contents cellId))

theorem within_closure {closure : String → Option (Closure V)} {q : Query CellId V α}
    (h : Query.Every (fun cellId => ∀ id, closure id ≠ none → cellId ≠ .root id) q)
    (hf : ∀ a, (f a).Within closure) : (Query.closure q f).Within closure := by
  induction q with
  | ret a => exact hf a
  | ask cellId next ih => exact ⟨h.1, fun value => ih value (h.2 value)⟩

end Closures

/-! ## Readings -/

namespace Reading

variable {serde : Serde V W}

theorem eval_getAll (contents : CellId → V) (ids : List String) :
    (getAll ids).eval contents = ids.map fun id => contents (.root id) := by
  induction ids with
  | nil => rfl
  | cons id ids ih =>
    rw [getAll, Query.eval_ask, Query.eval_bind, ih]
    rfl

theorem every_getAll {P : CellId → Prop} {ids : List String} (h : ∀ id ∈ ids, P (.root id)) :
    Query.Every P (getAll ids : Query CellId V (List V)) := by
  induction ids with
  | nil => trivial
  | cons id ids ih =>
    obtain ⟨hHead, hRest⟩ := List.forall_mem_cons.mp h
    exact ⟨hHead, fun _ => (ih hRest).bind fun _ => trivial⟩

theorem every_getEntry {P : CellId → Prop} {structureId : String} {entry : Option String}
    (hStructure : P (.root structureId)) (hEntry : ∀ id, entry = some id → P (.root id)) :
    Query.Every P (getEntry serde structureId entry) := by
  cases entry with
  | none => exact ⟨hStructure, fun _ => trivial⟩
  | some id => exact ⟨hEntry id rfl, fun _ => trivial⟩

variable (serde) (shape : Shape M S X K)

theorem every_path (r : Reading M S K) : Query.Every shape.Owns (r.path serde shape) := by
  have hMap : ∀ m, shape.Owns (.root (shape.maps m).structureId) :=
    fun m => ⟨.mapStructure m, _, rfl, rfl⟩
  have hSequence : ∀ s, shape.Owns (.root (shape.sequences s).structureId) :=
    fun s => ⟨.sequenceStructure s, _, rfl, rfl⟩
  cases r with
  | mapGet m key => exact every_getEntry (hMap m) fun id hId => ⟨.entry m key, id, hId, rfl⟩
  | mapContainsKey m key => exact ⟨hMap m, fun _ => trivial⟩
  | mapKeys m => exact ⟨hMap m, fun _ => trivial⟩
  | mapLen m => exact ⟨hMap m, fun _ => trivial⟩
  | mapEntries m =>
    refine ⟨hMap m, fun _ => (every_getAll fun id hId => ?_).bind fun _ => trivial⟩
    obtain ⟨e, hEntry, rfl⟩ := List.mem_map.mp hId
    exact ⟨.entry m e.1, e.2, Table.lookup_eq_some.mpr hEntry, rfl⟩
  | sequenceGet s index =>
    exact every_getEntry (hSequence s) fun id hId => ⟨.item s index, id, hId, rfl⟩
  | sequenceLen s => exact ⟨hSequence s, fun _ => trivial⟩
  | sequenceToVec s =>
    refine ⟨hSequence s, fun _ => (every_getAll fun id hId => ?_).bind fun _ => trivial⟩
    obtain ⟨index, hItem⟩ := List.mem_iff_getElem?.mp hId
    exact ⟨.item s index, id, hItem, rfl⟩

end Reading

/-! ## Bodies -/

variable {serde : Serde V W} {shape shape' : Shape M S X K} {bodies : Bodies M S X K V W}

/-- No computed has the id of an owned cell. -/
def Shape.Apart (shape : Shape M S X K) (bodies : Bodies M S X K V W) : Prop :=
  ∀ o id, shape.owned o = some id → bodies.body id = none

theorem Shape.Apart.isCell (h : shape.Apart bodies) (serde : Serde V W) {cellId : CellId}
    (hOwns : shape.Owns cellId) : ∀ id, (bodies.body id).map (·.closure serde shape') ≠ none →
      cellId ≠ .root id := by
  obtain ⟨o, id, hOwned, rfl⟩ := hOwns
  intro id' hSome hRoot
  have hSame : id = id' := congrArg CellId.sourceId hRoot
  subst hSame
  exact hSome (by rw [h o id hOwned]; rfl)

theorem Body.Within.closure {b : Body M S X K V W} (h : b.Within bodies.body)
    (hApart : shape.Apart bodies) : (b.closure serde shape).Within
      fun id => (bodies.body id).map (·.closure serde shape) := by
  induction b with
  | ret value => trivial
  | cell x next ih =>
    exact ⟨hApart.isCell serde ⟨.cell x, _, rfl, rfl⟩, fun value => ih value (h value)⟩
  | collection r next ih =>
    refine within_closure _ ?_ fun a => ih a (h a)
    have hOwns := r.every_path serde shape
    generalize r.path serde shape = q at hOwns
    clear ih
    induction q with
    | ret a => trivial
    | ask cellId next' ihQuery => exact ⟨hApart.isCell serde hOwns.1, fun v => ihQuery v (hOwns.2 v)⟩
  | read id compute next ihCompute ihNext =>
    obtain ⟨hId, hCompute, hNext⟩ := h
    exact ⟨congrArg (Option.map (·.closure serde shape)) hId, ihCompute hCompute, fun value => ihNext value (hNext value)⟩

def Bodies.graph (bodies : Bodies M S X K V W) (serde : Serde V W) {shape : Shape M S X K}
    (hApart : shape.Apart bodies) : Graph V where
  closure id := (bodies.body id).map (·.closure serde shape)
  within id compute hId := by
    obtain ⟨b, hb, rfl⟩ := Option.map_eq_some_iff.mp hId
    exact (bodies.within id b hb).closure hApart

theorem Body.owns_of_asked (serde : Serde V W) (shape : Shape M S X K) (b : Body M S X K V W)
    {contents : CellId → V} {cellId : CellId}
    (h : cellId ∈ (b.closure serde shape).asked contents) : shape.Owns cellId := by
  induction b with
  | ret value => cases h
  | cell x next ih =>
    rcases List.mem_cons.mp h with rfl | hNext
    · exact ⟨.cell x, _, rfl, rfl⟩
    · exact ih _ hNext
  | collection r next ih =>
    rw [Body.closure, asked_closure] at h
    rcases List.mem_append.mp h with hPath | hNext
    · exact (r.every_path serde shape).of_asked hPath
    · exact ih _ hNext
  | read id compute next ihCompute ihNext =>
    rw [Body.closure, Closure.asked_read] at h
    rcases List.mem_append.mp h with hCompute | hNext
    · exact ihCompute hCompute
    · exact ihNext _ hNext

/-- A change of shape that every reading notices in one of the cells it gets. -/
structure Shape.Noticed (serde : Serde V W) (shape shape' : Shape M S X K) (touched : List CellId) :
    Prop where
  cells : shape'.cells = shape.cells
  path : ∀ (r : Reading M S K) contents,
    (∀ cellId ∈ touched, cellId ∉ (r.path serde shape).asked contents) →
      r.path serde shape' = r.path serde shape

theorem Shape.Noticed.closure {touched : List CellId} (h : shape.Noticed serde shape' touched)
    (contents : CellId → V) (b : Body M S X K V W)
    (hAway : ∀ cellId ∈ touched, cellId ∉ (b.closure serde shape).asked contents) :
    (b.closure serde shape').recompute contents = (b.closure serde shape).recompute contents ∧
      (b.closure serde shape').asked contents = (b.closure serde shape).asked contents := by
  induction b with
  | ret value => exact ⟨rfl, rfl⟩
  | cell x next ih =>
    obtain ⟨hValue, hAsked⟩ := ih (contents (.root (shape.cells x))) fun cellId hTouched hMem =>
      hAway cellId hTouched (List.mem_cons_of_mem _ hMem)
    have hCell : shape'.cells x = shape.cells x := congrFun h.cells x
    constructor
    · simp only [Body.closure, Closure.recompute, hCell]
      exact hValue
    · rw [Body.closure, hCell]
      exact congrArg (CellId.root (shape.cells x) :: ·) hAsked
  | collection r next ih =>
    simp only [Body.closure, asked_closure, recompute_closure, List.mem_append, not_or] at hAway ⊢
    rw [h.path r contents fun cellId hTouched => (hAway cellId hTouched).1]
    obtain ⟨hValue, hAsked⟩ := ih _ fun cellId hTouched => (hAway cellId hTouched).2
    exact ⟨hValue, congrArg _ hAsked⟩
  | read id compute next ihCompute ihNext =>
    simp only [Body.closure, Closure.asked_read, List.mem_append, not_or] at hAway ⊢
    obtain ⟨hValue, hAsked⟩ := ihCompute fun cellId hTouched => (hAway cellId hTouched).1
    obtain ⟨hNextValue, hNextAsked⟩ := ihNext ((compute.closure serde shape).recompute contents)
      fun cellId hTouched => (hAway cellId hTouched).2
    rw [hAsked, hValue]
    refine ⟨?_, congrArg _ hNextAsked⟩
    simp only [Closure.recompute, hValue]
    exact hNextValue

/-! ## Changes that valid traces do not mention -/

section Touched

variable {graph graph' : Graph V} {rt rt' rt'' : Runtime V} {touched touched' : List CellId}

/-- Some cells changed; a trace that still validates mentions none of them. -/
structure Graph.Touched [Inhabited V] (graph : Graph V) (rt rt' : Runtime V)
    (touched : List CellId) : Prop where
  roots : rt'.engine.roots = rt.engine.roots
  memo : rt'.memo = rt.memo
  known : ∀ {trace}, graph.Known rt trace → graph.Known rt' trace
  contents : ∀ cellId ∉ touched, rt'.contents cellId = rt.contents cellId
  currentState : ∀ cellId ∉ touched,
    rt'.engine.currentState cellId = rt.engine.currentState cellId
  valid : ∀ {trace}, graph.Known rt trace → trace.validate rt'.engine.currentState = true →
    trace.validate rt.engine.currentState = true ∧
      ∀ entry ∈ trace.dependencies, entry.cellId ∉ touched

variable [Inhabited V]

namespace Graph.Touched

theorem trans (h : graph.Touched rt rt' touched) (h' : graph.Touched rt' rt'' touched') :
    graph.Touched rt rt'' (touched ++ touched') where
  roots := h'.roots.trans h.roots
  memo := h'.memo.trans h.memo
  known hKnown := h'.known (h.known hKnown)
  contents cellId hAway := by
    rw [List.mem_append, not_or] at hAway
    exact (h'.contents cellId hAway.2).trans (h.contents cellId hAway.1)
  currentState cellId hAway := by
    rw [List.mem_append, not_or] at hAway
    exact (h'.currentState cellId hAway.2).trans (h.currentState cellId hAway.1)
  valid hKnown hValid := by
    obtain ⟨hBetween, hAway'⟩ := h'.valid (h.known hKnown) hValid
    obtain ⟨hBefore, hAway⟩ := h.valid hKnown hBetween
    refine ⟨hBefore, fun entry hEntry hMem => ?_⟩
    exact (List.mem_append.mp hMem).elim (hAway entry hEntry) (hAway' entry hEntry)

theorem write (id : String) (value : V) :
    graph.Touched rt (rt.write (.root id) value) [.root id] where
  roots := rfl
  memo := rfl
  known hKnown := by
    refine ⟨hKnown.isCell, fun entry hEntry => ?_⟩
    obtain ⟨n, hn, hRevision⟩ := hKnown.issued entry hEntry
    exact ⟨n, Nat.le_succ_of_le hn, hRevision⟩
  contents cellId hAway := Runtime.contents_of_ne (List.ne_of_not_mem_cons hAway) rfl
  currentState cellId hAway := Function.update_of_ne (List.ne_of_not_mem_cons hAway) _ _
  valid hKnown hValid := by
    obtain ⟨hAway, hBefore⟩ := Trace.validate_of_update hValid fun entry hEntry hEq => by
      obtain ⟨n, hn, hRevision⟩ := hKnown.issued entry hEntry
      cases hRevision.symm.trans (Option.some.inj hEq).symm
      exact absurd hn (Nat.not_succ_le_self _)
    exact ⟨hBefore, fun entry hEntry hMem => hAway entry hEntry (List.mem_singleton.mp hMem)⟩

theorem removeCell (h : graph.Coherent rt) (cellId : CellId) :
    graph.Touched rt (rt.removeCell cellId) [cellId] := by
  have hState : (rt.removeCell cellId).engine.currentState =
      Function.update rt.engine.currentState cellId none :=
    h.indexed.currentState_invalidateCell cellId
  refine ⟨Engine.roots_invalidateCell _ _, rfl, fun hKnown => ⟨hKnown.isCell, hKnown.issued⟩,
    fun other hAway => Runtime.contents_of_ne (List.ne_of_not_mem_cons hAway) rfl,
    fun other hAway => ?_, fun hKnown hValid => ?_⟩
  · rw [hState]
    exact Function.update_of_ne (List.ne_of_not_mem_cons hAway) _ _
  · rw [hState] at hValid
    obtain ⟨hAway, hBefore⟩ := Trace.validate_of_update hValid fun _ _ => nofun
    exact ⟨hBefore, fun entry hEntry hMem => hAway entry hEntry (List.mem_singleton.mp hMem)⟩

end Graph.Touched

theorem Graph.Coherent.store_read (h : graph.Coherent rt) (digest : Trace → String) (depth : Nat)
    {id : String} {compute : Closure V} (hId : graph.closure id = some compute) :
    (rt.read digest depth id compute).runtime.store = rt.store := by
  obtain ⟨hValue, hRan, -⟩ := Graph.Coherent.run digest depth compute h
    (graph.within id compute hId) known_new Trace.validate_new
  exact (h.readWith hId digest depth hValue hRan).2.sameCells.store

theorem Graph.Coherent.reindex (h : graph.Coherent rt) (h' : graph.Coherent rt')
    (hTouched : graph.Touched rt rt' touched)
    (hIds : ∀ id, graph'.closure id = none ↔ graph.closure id = none)
    (hPresent : ∀ id compute, graph.closure id = some compute →
      ∀ cellId ∈ compute.asked rt.contents, rt.engine.currentState cellId ≠ none)
    (hAgree : ∀ id compute compute', graph.closure id = some compute →
      graph'.closure id = some compute' →
      (∀ cellId ∈ touched, cellId ∉ compute.asked rt.contents) →
      compute'.recompute rt.contents = compute.recompute rt.contents ∧
        compute'.asked rt.contents = compute.asked rt.contents) :
    graph'.Coherent rt' := by
  have hIsCell : ∀ {cellId}, graph'.IsCell cellId ↔ graph.IsCell cellId := fun {cellId} =>
    forall_congr' fun id => imp_congr_left (not_congr (hIds id))
  constructor
  case stored => exact fun cellId hCell => h'.stored cellId (hIsCell.mp hCell)
  case issued => exact fun cellId revision hCell => h'.issued cellId revision (hIsCell.mp hCell)
  case indexed => exact h'.indexed
  case computed => exact fun id root hRoot => (not_congr (hIds id)).mpr (h'.computed id root hRoot)
  case known =>
    intro id root hRoot
    have hKnown := h'.known id root hRoot
    exact ⟨fun entry hEntry => hIsCell.mpr (hKnown.isCell entry hEntry), hKnown.issued⟩
  case digest => exact h'.digest
  case supports =>
    intro id compute' root digest value hId hRoot hMemo hValid
    rw [hTouched.roots] at hRoot
    rw [hTouched.memo] at hMemo
    obtain ⟨compute, hOld⟩ := Option.ne_none_iff_exists'.mp
      (fun hNone => Option.some_ne_none _ (hId.symm.trans ((hIds id).mpr hNone)))
    obtain ⟨hBefore, hMention⟩ := hTouched.valid (h.known id root hRoot) hValid
    have hSupports := h.supports id compute root digest value hOld hRoot hMemo hBefore
    have hAway : ∀ cellId ∈ touched, cellId ∉ compute.asked rt.contents := by
      intro cellId hMem hAsked
      obtain ⟨revision, hRevision⟩ :=
        Option.ne_none_iff_exists'.mp (hPresent id compute hOld cellId hAsked)
      exact hMention _ (hSupports.recorded cellId hAsked revision hRevision) hMem
    obtain ⟨hValue, hAsked⟩ := hAgree id compute compute' hOld hId hAway
    have hSame : rt.Supports compute' root.trace value :=
      ⟨hValue.trans hSupports.value, fun cellId hCell => hSupports.recorded cellId (hAsked ▸ hCell)⟩
    refine hSame.congr (fun cellId hCell => ?_) fun cellId hCell revision hRevision => ?_
    · exact hTouched.contents cellId fun hMem => hAway cellId hMem (hAsked ▸ hCell)
    · rwa [hTouched.currentState cellId fun hMem => hAway cellId hMem (hAsked ▸ hCell)] at hRevision

end Touched

end Exosuit.Reactivity
