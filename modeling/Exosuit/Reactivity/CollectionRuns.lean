import Exosuit.Reactivity.CollectionRefinement

/-!
# Runs over collections

Every run over reactive collections goes as the run over plain ones does, and in each
state it reaches the computeds and the readings answer what the plain ones answer.
-/

namespace Exosuit.Reactivity

open Lib

variable {M S X K V W : Type}

/-- New ids are all different, and no computed has one. -/
structure Draws (draw : Nat → String) (bodies : Bodies M S X K V W) : Prop where
  injective : Function.Injective draw
  apart : ∀ n, bodies.body (draw n) = none

section

variable [DecidableEq K] [Inhabited V]

structure Collections.Refines (serde : Serde V W) (draw : Nat → String) (bodies : Bodies M S X K V W)
    (σ : Collections M S X K V) (p : Plain M S X K V W) : Prop extends σ.Mirrors serde p where
  apart : σ.toShape.Apart bodies
  coherent : (bodies.graph serde apart).Coherent σ.runtime
  fresh : ∀ n, σ.drawn ≤ n → ∀ o, σ.owned o ≠ some (draw n)

namespace Collections.Refines

variable {serde : Serde V W} {draw : Nat → String} {bodies : Bodies M S X K V W}
  {σ : Collections M S X K V} {p p' : Plain M S X K V W}

theorem owns_asked (h : σ.Refines serde draw bodies p) {id : String} {compute : Closure V}
    (hId : (bodies.graph serde h.apart).closure id = some compute) {contents : CellId → V}
    {cellId : CellId} (hAsked : cellId ∈ compute.asked contents) : σ.Owns cellId := by
  obtain ⟨b, -, rfl⟩ := Option.map_eq_some_iff.mp hId
  exact b.owns_of_asked serde σ.toShape hAsked

theorem present (h : σ.Refines serde draw bodies p) {id : String} {compute : Closure V}
    (hId : (bodies.graph serde h.apart).closure id = some compute) {contents : CellId → V}
    {cellId : CellId} (hAsked : cellId ∈ compute.asked contents) :
    σ.runtime.engine.currentState cellId ≠ none := by
  have hOwns := h.owns_asked hId hAsked
  have hCell : (bodies.graph serde h.apart).IsCell cellId := h.apart.isCell serde hOwns
  obtain ⟨o, id', hOwned, rfl⟩ := hOwns
  exact fun hNone => h.backed.stored hOwned ((h.coherent.stored _ hCell).mp hNone)

theorem recorded_of_unowned (h : σ.Refines serde draw bodies p) {id : String}
    (hFree : ∀ o, σ.owned o ≠ some id) :
    ¬ σ.runtime.Unrecorded (bodies.graph serde h.apart) 0 (.root id) := by
  rintro ⟨-, computed, compute, hId, -, hAsked⟩
  obtain ⟨o, id', hOwned, hRoot⟩ := h.owns_asked hId hAsked
  have hSame : id = id' := congrArg CellId.sourceId hRoot
  exact hFree o (hSame ▸ hOwned)

/-- A cell that owners keep gets new contents. -/
theorem write (h : σ.Refines serde draw bodies p) {o : Owner M S X K} {id : String}
    (hOwned : σ.owned o = some id) (v : V) (hKeys : ∀ m, (p'.maps m).keys = (p.maps m).keys)
    (hLength : ∀ s, (p'.sequences s).length = (p.sequences s).length)
    (hRest : ∀ o', o' ≠ o → p'.held serde o' = p.held serde o')
    (hSelf : ∀ v', p'.held serde o = some v' → v' = v) :
    (σ.setRuntime (σ.runtime.set (.root id) v)).Refines serde draw bodies p' where
  backed := h.backed.write hOwned v hRest hSelf
  keys m := (h.keys m).trans (hKeys m).symm
  length s := (h.length s).trans (hLength s).symm
  apart := h.apart
  coherent := by
    refine h.coherent.write 0 v ?_
    rintro ⟨hStore, -⟩
    exact h.backed.stored hOwned hStore
  fresh := h.fresh

theorem setEntry (h : σ.Refines serde draw bodies p) [DecidableEq (Owner M S X K)]
    {o : Owner M S X K} {id : String} (hOwned : σ.owned o = some id) (w : W)
    (hKeys : ∀ m, (p'.maps m).keys = (p.maps m).keys)
    (hLength : ∀ s, (p'.sequences s).length = (p.sequences s).length)
    (hHeld : p'.held serde = Function.update (p.held serde) o (some (serde.toValue w)))
    (hStores : serde.same (σ.runtime.contents (.root id)) (serde.toValue w) = true →
      σ.runtime.contents (.root id) = serde.toValue w) :
    (σ.setEntry serde id w).Refines serde draw bodies p' := by
  have hRest : ∀ o', o' ≠ o → p'.held serde o' = p.held serde o' := fun o' hne => by
    rw [hHeld, Function.update_of_ne hne]
  have hSelf : ∀ v', p'.held serde o = some v' → v' = serde.toValue w := by
    intro v' hv'
    rw [hHeld, Function.update_self] at hv'
    exact (Option.some.inj hv').symm
  rw [Collections.setEntry]
  split
  · next hSame =>
    have hStore : σ.runtime.store (.root id) = some (serde.toValue w) := by
      obtain ⟨v, hv⟩ := Option.ne_none_iff_exists'.mp (h.backed.stored hOwned)
      have hContents := hStores hSame
      rw [Runtime.contents, hv, Option.getD_some] at hContents
      rw [hv, hContents]
    refine { h with backed := ?_, keys := ?_, length := ?_ }
    · have hBacked := h.backed.write hOwned (serde.toValue w) hRest hSelf
      rwa [← hStore, Function.update_eq_self] at hBacked
    · exact fun m => (h.keys m).trans (hKeys m).symm
    · exact fun s => (h.length s).trans (hLength s).symm
  · exact h.write hOwned _ hKeys hLength hRest hSelf

/-- Other handles take over when every reading notices the difference. -/
theorem reshape (h : σ.Refines serde draw bodies p) {σ' : Collections M S X K V}
    {touched : List CellId} (hMirrors : σ'.Mirrors serde p')
    (hApart : σ'.toShape.Apart bodies)
    (hFresh : ∀ n, σ'.drawn ≤ n → ∀ o, σ'.owned o ≠ some (draw n))
    (hCoherent : (bodies.graph serde h.apart).Coherent σ'.runtime)
    (hTouched : (bodies.graph serde h.apart).Touched σ.runtime σ'.runtime touched)
    (hNoticed : σ.toShape.Noticed serde σ'.toShape touched) : σ'.Refines serde draw bodies p' where
  toMirrors := hMirrors
  apart := hApart
  fresh := hFresh
  coherent := by
    refine h.coherent.reindex hCoherent hTouched (fun id => ?_) (fun id compute hId cellId hAsked => ?_) ?_
    · rw [Bodies.graph, Bodies.graph, Option.map_eq_none_iff, Option.map_eq_none_iff]
    · exact h.present hId hAsked
    · intro id compute compute' hId hId' hAway
      obtain ⟨b, hb, rfl⟩ := Option.map_eq_some_iff.mp hId
      obtain ⟨b', hb', rfl⟩ := Option.map_eq_some_iff.mp hId'
      cases hb.symm.trans hb'
      exact hNoticed.closure σ.runtime.contents b hAway

theorem adopt [DecidableEq (Owner M S X K)] (h : σ.Refines serde draw bodies p)
    (hDraws : Draws draw bodies) (shape' : Shape M S X K) {o t : Owner M S X K} {structureId : String}
    (v : V) (hOwned : shape'.owned = Function.update σ.owned o (some (draw σ.drawn)))
    (hHeld : p'.held serde = Function.update (p.held serde) o (some v))
    (hStructure : σ.owned t = some structureId) (hNone : p'.held serde t = none)
    (hKeys : ∀ m, (shape'.maps m).values.keys = (p'.maps m).keys)
    (hLength : ∀ s, (shape'.sequences s).values.length = (p'.sequences s).length)
    (hNoticed : σ.toShape.Noticed serde shape'
      [.root (draw σ.drawn), .root structureId]) :
    Collections.Refines serde draw bodies
      { shape' with
        runtime := (σ.runtime.write (.root (draw σ.drawn)) v).write (.root structureId) default
        drawn := σ.drawn + 1 } p' := by
  have hNew : ∀ o, σ.owned o ≠ some (draw σ.drawn) := h.fresh σ.drawn (le_refl _)
  have hApart : ∀ {o' id}, shape'.owned o' = some id →
      id = draw σ.drawn ∨ σ.owned o' = some id := by
    intro o' id hId
    rw [hOwned, Function.update_apply] at hId
    split at hId
    · exact .inl (Option.some.inj hId).symm
    · exact .inr hId
  have hne : t ≠ o := by
    rintro rfl
    rw [hHeld, Function.update_self] at hNone
    cases hNone
  have hKept : shape'.owned t = some structureId := by
    rw [hOwned, Function.update_of_ne hne, hStructure]
  have hAdopted := h.backed.adopt o v hNew
  rw [← hOwned, ← hHeld] at hAdopted
  have hFirst := h.coherent.write _ v (h.recorded_of_unowned hNew)
  refine h.reshape ⟨?_, hKeys, hLength⟩ ?_ ?_ ?_ ((Graph.Touched.write _ v).trans (.write _ default))
    hNoticed
  · refine hAdopted.write hKept default (fun _ _ => rfl) fun v' hv' => ?_
    rw [hNone] at hv'
    cases hv'
  · intro o' id hId
    rcases hApart hId with rfl | hOld
    · exact hDraws.apart _
    · exact h.apart o' id hOld
  · intro n hn o' hId
    rcases hApart hId with hSame | hOld
    · exact absurd (hDraws.injective hSame) (Nat.ne_of_gt hn)
    · exact h.fresh n (Nat.le_of_succ_le hn) o' hOld
  · refine hFirst.write 0 default ?_
    rintro ⟨hStore, -⟩
    exact hAdopted.stored hKept hStore

theorem drop [DecidableEq (Owner M S X K)] (h : σ.Refines serde draw bodies p)
    (shape' : Shape M S X K) {o t : Owner M S X K} {id structureId : String}
    (hId : σ.owned o = some id) (hOwned : shape'.owned = Function.update σ.owned o none)
    (hHeld : p'.held serde = Function.update (p.held serde) o none)
    (hStructure : σ.owned t = some structureId) (hne : t ≠ o) (hNone : p'.held serde t = none)
    (hKeys : ∀ m, (shape'.maps m).values.keys = (p'.maps m).keys)
    (hLength : ∀ s, (shape'.sequences s).values.length = (p'.sequences s).length)
    (hNoticed : σ.toShape.Noticed serde shape' [.root id, .root structureId]) :
    Collections.Refines serde draw bodies
      { shape' with
        runtime := (σ.runtime.removeCell (.root id)).write (.root structureId) default
        drawn := σ.drawn } p' := by
  have hOld : ∀ {o' id'}, shape'.owned o' = some id' → σ.owned o' = some id' := by
    intro o' id' hId'
    rw [hOwned, Function.update_apply] at hId'
    split at hId'
    · cases hId'
    · exact hId'
  have hKept : shape'.owned t = some structureId := by
    rw [hOwned, Function.update_of_ne hne, hStructure]
  have hDropped := h.backed.drop hId
  rw [← hOwned, ← hHeld] at hDropped
  have hFirst := h.coherent.removeCell (.root id)
  refine h.reshape ⟨?_, hKeys, hLength⟩ (fun o' id' hId' => h.apart o' id' (hOld hId'))
    (fun n hn o' hId' => h.fresh n hn o' (hOld hId')) ?_
    ((Graph.Touched.removeCell h.coherent _).trans (.write _ default)) hNoticed
  · refine hDropped.write hKept default (fun _ _ => rfl) fun v' hv' => ?_
    rw [hNone] at hv'
    cases hv'
  · refine hFirst.write 0 default ?_
    rintro ⟨hStore, -⟩
    exact hDropped.stored hKept hStore

end Collections.Refines

end

/-! ## Steps -/

section

variable [DecidableEq M] [DecidableEq S] [DecidableEq X] [DecidableEq K] [Inhabited V]
  {serde : Serde V W} {draw : Nat → String} {bodies : Bodies M S X K V W}
  {σ : Collections M S X K V} {p : Plain M S X K V W}

namespace Collections.Refines

theorem insert (h : σ.Refines serde draw bodies p) (hDraws : Draws draw bodies) {m : M} {key : K}
    {w : W} (hStores : (CollectionOperation.insert m key w).Stores serde p) :
    (σ.insert serde draw m key w).Refines serde draw bodies
      (p.setMap m ((p.maps m).put key w)) := by
  rw [Collections.insert]
  cases hEntry : (σ.maps m).values.lookup key with
  | some id =>
    have hMem : key ∈ p.maps m := (h.mem_iff m key).mp (AList.lookup_isSome.mp (hEntry ▸ rfl))
    refine h.setEntry (o := .entry m key) hEntry w (Plain.keys_setMap ?_) (fun _ => rfl)
      (p.held_put serde m key w) fun hSame => ?_
    · rw [Table.keys_put, if_pos hMem]
    · obtain ⟨held, hHeld, hContents⟩ := h.contents_entry hEntry
      rw [hContents] at hSame ⊢
      rw [hStores held hHeld hSame]
  | none =>
    have hAbsent : key ∉ (σ.maps m).values := AList.lookup_eq_none.mp hEntry
    refine h.adopt hDraws (σ.toShape.setMap m _) (o := .entry m key) (t := .mapStructure m) _
      (σ.toShape.owned_insert m key _) (p.held_put serde m key w) rfl rfl (fun m' => ?_) h.length ?_
    · rw [Shape.maps_setMap, Plain.maps_setMap]
      split
      · rw [AList.keys_insert, Table.keys_put, if_neg (mt (h.mem_iff m key).mpr hAbsent),
          List.erase_of_not_mem hAbsent, h.keys m]
      · exact h.keys m'
    · refine Shape.noticed_setMap (List.mem_cons_of_mem _ List.mem_cons_self) fun key' id hId _ => ?_
      have hne : key' ≠ key := by
        rintro rfl
        cases hEntry.symm.trans hId
      rwa [AList.lookup_insert_ne hne]

theorem remove (h : σ.Refines serde draw bodies p) (m : M) (key : K) :
    (σ.remove m key).Refines serde draw bodies (p.setMap m (AList.erase key (p.maps m))) := by
  rw [Collections.remove]
  cases hEntry : (σ.maps m).values.lookup key with
  | some id =>
    refine h.drop (σ.toShape.setMap m _) (o := .entry m key) (t := .mapStructure m) hEntry
      (σ.toShape.owned_erase m key) (p.held_erase serde m key) rfl nofun rfl (fun m' => ?_) h.length ?_
    · rw [Shape.maps_setMap, Plain.maps_setMap]
      split
      · rw [AList.keys_erase, AList.keys_erase, h.keys m]
      · exact h.keys m'
    · refine Shape.noticed_setMap (List.mem_cons_of_mem _ List.mem_cons_self) fun key' id' hId hAway => ?_
      have hne : key' ≠ key := by
        rintro rfl
        cases hEntry.symm.trans hId
        exact hAway List.mem_cons_self
      rwa [AList.lookup_erase_ne hne]
  | none =>
    have hAbsent : key ∉ p.maps m := mt (h.mem_iff m key).mpr (AList.lookup_eq_none.mp hEntry)
    have hSame : AList.erase key (p.maps m) = p.maps m := by
      apply AList.ext
      exact List.kerase_of_notMem_keys hAbsent
    rw [hSame, Plain.setMap, Function.update_eq_self]
    exact h

theorem push (h : σ.Refines serde draw bodies p) (hDraws : Draws draw bodies) (s : S) (w : W) :
    (σ.push serde draw s w).Refines serde draw bodies (p.setSequence s (p.sequences s ++ [w])) := by
  have hHeld := p.held_push serde s w
  rw [← h.length s] at hHeld
  refine h.adopt hDraws (σ.toShape.setSequence s _) (t := .sequenceStructure s) _
    (σ.toShape.owned_push s _) hHeld rfl rfl h.keys (fun s' => ?_) ?_
  · rw [Shape.sequences_setSequence, Plain.sequences_setSequence]
    split
    · rw [List.length_append, List.length_append, h.length s]
      rfl
    · exact h.length s'
  · refine Shape.noticed_setSequence (List.mem_cons_of_mem _ List.mem_cons_self) fun index id hId => ?_
    obtain ⟨hLt, -⟩ := List.getElem?_eq_some_iff.mp hId
    rwa [List.getElem?_append_left hLt]

theorem step (h : σ.Refines serde draw bodies p) (hDraws : Draws draw bodies) (digest : Trace → String)
    (depth : Nat) {op : CollectionOperation M S X K V W} (hStores : op.Stores serde p) :
    Option.Rel (fun σ p => σ.Refines serde draw bodies p)
      (σ.step serde draw bodies digest depth op) (p.step bodies op) := by
  cases op with
  | insert m key w => exact .some (h.insert hDraws hStores)
  | remove m key => exact .some (h.remove m key)
  | push s w => exact .some (h.push hDraws s w)
  | set s index w =>
    rw [Collections.step, Collections.set, Plain.step]
    cases hItem : (σ.sequences s).values[index]? with
    | none =>
      rw [List.getElem?_eq_none_iff, h.length s] at hItem
      rw [if_neg (Nat.not_lt.mpr hItem)]
      exact .none
    | some id =>
      obtain ⟨hLt, -⟩ := List.getElem?_eq_some_iff.mp hItem
      rw [h.length s] at hLt
      rw [if_pos hLt]
      refine .some (h.setEntry (o := .item s index) hItem w (fun _ => rfl)
        (Plain.length_setSequence List.length_set) (p.held_set serde hLt w) fun hSame => ?_)
      have hHeld := List.getElem?_eq_getElem hLt
      rw [h.contents_item hItem hHeld] at hSame ⊢
      rw [hStores _ hHeld hSame]
  | setCell x v =>
    have hHeld := p.held_setCell serde x v
    refine .some (h.write (o := .cell x) rfl v (fun _ => rfl) (fun _ => rfl) (fun o' hne => ?_) ?_)
    · rw [hHeld, Function.update_of_ne hne]
    · intro v' hv'
      rw [hHeld, Function.update_self] at hv'
      exact (Option.some.inj hv').symm
  | read id =>
    rw [Collections.step, Plain.step]
    cases hBody : bodies.body id with
    | none => exact .none
    | some b =>
      have hId : (bodies.graph serde h.apart).closure id = some (b.closure serde σ.toShape) :=
        congrArg (Option.map (Body.closure serde σ.toShape)) hBody
      refine .some { h with coherent := (h.coherent.read digest depth hId).2, backed := ?_ }
      have hBacked := h.backed
      rwa [← h.coherent.store_read digest depth hId] at hBacked

end Collections.Refines

/-! ## Where a program starts -/

/-- The handles of a program whose maps and sequences are empty: each cell is created once,
a scalar one with its first value. -/
structure Shape.Declared (shape : Shape M S X K) (draw : Nat → String) (bodies : Bodies M S X K V W)
    (created : List (String × V)) (cells : X → V) : Prop where
  maps : ∀ m, (shape.maps m).values = ∅
  sequences : ∀ s, (shape.sequences s).values = []
  distinct : ∀ o o' id, shape.owned o = some id → shape.owned o' = some id → o = o'
  apart : shape.Apart bodies
  undrawn : ∀ n o, shape.owned o ≠ some (draw n)
  once : (created.map Prod.fst).Nodup
  complete : ∀ o id, shape.owned o = some id → ∃ v, (id, v) ∈ created
  first : ∀ x, (shape.cells x, cells x) ∈ created

def Runtime.create (created : List (String × V)) (rt : Runtime V) : Runtime V :=
  created.foldl (fun rt c => rt.cell c.1 c.2) rt

def Collections.start (shape : Shape M S X K) (epoch : Epoch) (created : List (String × V)) :
    Collections M S X K V :=
  { shape with runtime := (Runtime.new epoch).create created, drawn := 0 }

def Plain.start (cells : X → V) : Plain M S X K V W := ⟨fun _ => ∅, fun _ => [], cells⟩

theorem Graph.Coherent.create {graph : Graph V} {rt : Runtime V} (h : graph.Coherent rt)
    (hMemo : ∀ id, rt.memo id = none) (created : List (String × V)) :
    graph.Coherent (rt.create created) := by
  induction created generalizing rt with
  | nil => exact h
  | cons c created ih =>
    refine ih (h.write 0 c.2 ?_) hMemo
    rintro ⟨-, id, -, -, hCached, -⟩
    exact hCached (by rw [Runtime.cached, hMemo id])

omit [Inhabited V] in
theorem Runtime.store_create_of_notMem {created : List (String × V)} {rt : Runtime V} {id : String}
    (h : id ∉ created.map Prod.fst) : (rt.create created).store (.root id) = rt.store (.root id) := by
  induction created generalizing rt with
  | nil => rfl
  | cons c created ih =>
    rw [List.map_cons, List.mem_cons, not_or] at h
    refine (ih h.2).trans (Function.update_of_ne ?_ _ _)
    exact fun hRoot => h.1 (congrArg CellId.sourceId hRoot)

omit [Inhabited V] in
theorem Runtime.store_create {created : List (String × V)} (hOnce : (created.map Prod.fst).Nodup)
    {rt : Runtime V} {id : String} {v : V} (h : (id, v) ∈ created) :
    (rt.create created).store (.root id) = some v := by
  induction created generalizing rt with
  | nil => cases h
  | cons c created ih =>
    obtain ⟨hNew, hRest⟩ := List.nodup_cons.mp hOnce
    rcases List.mem_cons.mp h with rfl | hMem
    · exact (Runtime.store_create_of_notMem hNew).trans (Function.update_self ..)
    · exact ih hRest hMem

omit [DecidableEq M] [DecidableEq S] [DecidableEq X] in
theorem Shape.Declared.refines {shape : Shape M S X K} {created : List (String × V)} {cells : X → V}
    (h : shape.Declared draw bodies created cells) (serde : Serde V W) (epoch : Epoch) :
    (Collections.start shape epoch created).Refines serde draw bodies (Plain.start cells) where
  backed := by
    refine ⟨fun ho ho' => h.distinct _ _ _ ho ho', fun {o id} ho => ?_, fun {o id v} ho hv => ?_⟩
    · obtain ⟨v, hv⟩ := h.complete o id ho
      rw [Collections.start, Runtime.store_create h.once hv]
      nofun
    · cases o with
      | cell x =>
        cases ho
        cases hv
        exact Runtime.store_create h.once (h.first x)
      | entry | item | mapStructure | sequenceStructure => cases hv
  keys m := congrArg AList.keys (h.maps m)
  length s := congrArg List.length (h.sequences s)
  apart := h.apart
  coherent := (coherent_new epoch).create (fun _ => rfl) created
  fresh n _ o := h.undrawn n o

/-! ## What a program sees -/

/-- Every computed and every reading answers what it answers over the plain collections. -/
structure Collections.Agrees (serde : Serde V W) (bodies : Bodies M S X K V W) (digest : Trace → String)
    (depth : Nat) (σ : Collections M S X K V) (p : Plain M S X K V W) : Prop where
  computeds : ∀ id b, bodies.body id = some b →
    (σ.runtime.read digest depth id (b.closure serde σ.toShape)).value = b.plain p
  readings : ∀ r : Reading M S K, (r.path serde σ.toShape).eval σ.runtime.contents = r.plain p

namespace Collections.Refines

omit [DecidableEq M] [DecidableEq S] [DecidableEq X] in
theorem agrees (h : σ.Refines serde draw bodies p)
    (hSerde : ∀ w, serde.fromValue (serde.toValue w) = some w) (digest : Trace → String) (depth : Nat) :
    σ.Agrees serde bodies digest depth p where
  computeds id b hBody := by
    have hId : (bodies.graph serde h.apart).closure id = some (b.closure serde σ.toShape) :=
      congrArg (Option.map (Body.closure serde σ.toShape)) hBody
    rw [(h.coherent.read digest depth hId).1, h.recompute_closure hSerde]
  readings := h.eval_path hSerde

/-- An operation that takes another value for its own keeps what it finds, and the next reading
tells. -/
theorem not_agrees_of_not_stores (h : σ.Refines serde draw bodies p)
    (hSerde : ∀ w, serde.fromValue (serde.toValue w) = some w) (digest : Trace → String) (depth : Nat)
    {op : CollectionOperation M S X K V W} (hLost : ¬ op.Stores serde p) :
    ¬ Option.Rel (Collections.Agrees serde bodies digest depth)
      (σ.step serde draw bodies digest depth op) (p.step bodies op) := by
  cases op with
  | insert m key w =>
    simp only [CollectionOperation.Stores, Classical.not_forall] at hLost
    obtain ⟨held, hHeld, hSame, hne⟩ := hLost
    obtain ⟨id, hEntry⟩ := Option.isSome_iff_exists.mp
      (AList.lookup_isSome.mpr ((h.mem_iff m key).mpr (AList.lookup_isSome.mp (hHeld ▸ rfl))))
    have hContents : σ.runtime.contents (.root id) = serde.toValue held := by
      obtain ⟨held', hHeld', hContents⟩ := h.contents_entry hEntry
      cases hHeld.symm.trans hHeld'
      exact hContents
    have hKept : σ.insert serde draw m key w = σ := by
      rw [Collections.insert, hEntry]
      exact if_pos (hContents ▸ hSame)
    rintro (⟨⟨-, hReadings⟩⟩ | -)
    have hAnswer := hReadings (.mapGet m key)
    rw [hKept, h.eval_path hSerde] at hAnswer
    simp only [Reading.plain, Function.update_self, Table.lookup_put, if_true] at hAnswer
    exact hne (Option.some.inj (hHeld.symm.trans hAnswer))
  | set s index w =>
    simp only [CollectionOperation.Stores, Classical.not_forall] at hLost
    obtain ⟨held, hHeld, hSame, hne⟩ := hLost
    obtain ⟨hLt, -⟩ := List.getElem?_eq_some_iff.mp hHeld
    have hItem := List.getElem?_eq_getElem ((h.length s).symm ▸ hLt)
    have hKept : σ.set serde s index w = some σ := by
      rw [Collections.set, hItem, Option.map_some, Collections.setEntry]
      exact congrArg some (if_pos (h.contents_item hItem hHeld ▸ hSame))
    rw [Collections.step, hKept, Plain.step, if_pos hLt]
    rintro (⟨⟨-, hReadings⟩⟩ | -)
    have hAnswer := hReadings (.sequenceGet s index)
    rw [h.eval_path hSerde] at hAnswer
    simp only [Reading.plain, Function.update_self, List.getElem?_set_self hLt] at hAnswer
    exact hne (Option.some.inj (hHeld.symm.trans hAnswer))
  | remove | push | setCell | read => exact absurd trivial hLost

end Collections.Refines

/-- Reactive collections refine plain ones, through every prefix of a run, if and only if every
insert and set stores its value: a run over them goes as the run over plain ones does, and where
both arrive every computed and every reading answers the same. -/
theorem collections_refine_iff (hSerde : ∀ w, serde.fromValue (serde.toValue w) = some w)
    (hDraws : Draws draw bodies) {shape : Shape M S X K} {created : List (String × V)} {cells : X → V}
    (hDeclared : shape.Declared draw bodies created cells) (epoch : Epoch)
    (digest : Trace → String) (depth : Nat) (ops : List (CollectionOperation M S X K V W)) :
    (∀ before after, ops = before ++ after →
      Option.Rel (Collections.Agrees serde bodies digest depth)
        (run (Collections.step serde draw bodies digest depth) (.start shape epoch created) before)
        (run (Plain.step bodies) (.start cells) before)) ↔
    Along (Plain.step bodies) (fun p op => op.Stores serde p) (.start cells) ops :=
  rel_run_iff_along (fun _ _ h => h.agrees hSerde digest depth)
    (fun _ _ _ h hStores => h.step hDraws digest depth hStores)
    (fun _ _ _ h hLost => h.not_agrees_of_not_stores hSerde digest depth hLost)
    (hDeclared.refines serde epoch) ops

end

/-! ## Scales with a log -/

namespace Scales

structure Double where
  bits : BitVec 64
  finite : bits <<< 1 < 0xFFE0000000000000#64
  deriving DecidableEq

/-- The equality of floating point: both zeros are equal. -/
def Double.eq (x y : Double) : Bool := x = y || (x.bits <<< 1 == 0 && y.bits <<< 1 == 0)

def serde : Serde (Option Double) Double where
  toValue := some
  fromValue := id
  same
    | some x, some y => x.eq y
    | x, y => x = y

def zero : Double := ⟨0x0000000000000000#64, by decide⟩

def negativeZero : Double := ⟨0x8000000000000000#64, by decide⟩

def one : Double := ⟨0x3FF0000000000000#64, by decide⟩

/-- What the scales show: the apples, or the tare once something is logged. -/
def shown : Body Unit Unit Unit String (Option Double) Double :=
  .collection (.mapGet () "apples") fun apples =>
    .collection (.sequenceLen ()) fun length => .cell () fun tare =>
      .ret (.present (if length = 0 then apples else tare))

def bodies : Bodies Unit Unit Unit String (Option Double) Double where
  body id := if id = "shown" then some shown else none
  within id b hb := by
    split at hb <;> cases hb
    exact fun _ _ _ => trivial

def draw (n : Nat) : String := .ofList (.replicate n 'd')

def shape : Shape Unit Unit Unit String where
  maps _ := ⟨"weights", ∅⟩
  sequences _ := ⟨"log", []⟩
  cells _ := "tare"

theorem draw_ne {id : String} (h : id.toList.any (· != 'd') = true) (n : Nat) : draw n ≠ id := by
  rintro rfl
  obtain ⟨c, hMem, hc⟩ := List.any_eq_true.mp h
  rw [draw, String.toList_ofList] at hMem
  exact bne_iff_ne.mp hc (List.eq_of_mem_replicate hMem)

theorem draws : Draws draw bodies where
  injective n n' h := by
    have hLength := congrArg (fun id => id.toList.length) h
    simpa [draw] using hLength
  apart n := if_neg (draw_ne (by decide) n)

theorem owned_eq {o : Owner Unit Unit Unit String} {id : String} (h : shape.owned o = some id) :
    (o = .cell () ∧ id = "tare") ∨ (o = .mapStructure () ∧ id = "weights") ∨
      (o = .sequenceStructure () ∧ id = "log") := by
  cases o with
  | cell => exact .inl ⟨rfl, (Option.some.inj h).symm⟩
  | mapStructure => exact .inr (.inl ⟨rfl, (Option.some.inj h).symm⟩)
  | sequenceStructure => exact .inr (.inr ⟨rfl, (Option.some.inj h).symm⟩)
  | entry | item => cases h

def created : List (String × Option Double) := [("weights", none), ("log", none), ("tare", some one)]

theorem declared : shape.Declared draw bodies created fun _ => some one where
  maps _ := rfl
  sequences _ := rfl
  distinct o o' id ho ho' := by
    rcases owned_eq ho with ⟨rfl, rfl⟩ | ⟨rfl, rfl⟩ | ⟨rfl, rfl⟩ <;>
      simpa [eq_comm] using owned_eq ho'
  apart o id ho := by
    rcases owned_eq ho with ⟨-, rfl⟩ | ⟨-, rfl⟩ | ⟨-, rfl⟩ <;> rfl
  undrawn n o ho := by
    have hChar : (draw n).toList.any (· != 'd') = true := by
      rcases owned_eq ho with ⟨-, hId⟩ | ⟨-, hId⟩ | ⟨-, hId⟩ <;> rw [hId] <;> decide
    exact draw_ne hChar n rfl
  once := by decide
  complete o id ho := by
    rcases owned_eq ho with ⟨-, rfl⟩ | ⟨-, rfl⟩ | ⟨-, rfl⟩ <;> simp [created]
  first _ := List.mem_cons_of_mem _ (List.mem_cons_of_mem _ List.mem_cons_self)

def operations : List (CollectionOperation Unit Unit Unit String (Option Double) Double) :=
  [.read "shown", .insert () "apples" zero, .read "shown", .insert () "apples" one, .push () one,
    .set () 0 zero, .remove () "apples", .read "shown", .insert () "apples" negativeZero]

/-- The apples weigh nothing, and then nothing with the other sign. -/
def resigned : List (CollectionOperation Unit Unit Unit String (Option Double) Double) :=
  [.insert () "apples" zero, .insert () "apples" negativeZero]

end Scales

theorem collections_refine_iff_scales :
    (run (Plain.step Scales.bodies) (.start fun _ => some Scales.one) Scales.operations).isSome ∧
    ∀ before after, Scales.operations = before ++ after →
      Option.Rel (Collections.Agrees Scales.serde Scales.bodies countDigest 0)
        (run (Collections.step Scales.serde Scales.draw Scales.bodies countDigest 0)
          (.start Scales.shape 0 Scales.created) before)
        (run (Plain.step Scales.bodies) (.start fun _ => some Scales.one) before) := by
  refine ⟨rfl, (collections_refine_iff (fun _ => rfl) Scales.draws Scales.declared 0 countDigest 0
    Scales.operations).mpr ?_⟩
  have hRaised : Scales.serde.same (Scales.serde.toValue Scales.zero)
    (Scales.serde.toValue Scales.one) = false := rfl
  have hLowered : Scales.serde.same (Scales.serde.toValue Scales.one)
    (Scales.serde.toValue Scales.zero) = false := rfl
  simp [Along, Scales.operations, CollectionOperation.Stores, Plain.step, Plain.start, hRaised,
    hLowered]

/-- The cell keeps the first zero, and a hash map holds the second one. -/
theorem collections_keep_zero :
    (∀ w, Scales.serde.fromValue (Scales.serde.toValue w) = some w) ∧
    Draws Scales.draw Scales.bodies ∧
    Scales.shape.Declared Scales.draw Scales.bodies Scales.created (fun _ => some Scales.one) ∧
    ((run (Collections.step Scales.serde Scales.draw Scales.bodies countDigest 0)
        (.start Scales.shape 0 Scales.created) Scales.resigned).map fun σ =>
      ((Reading.mapGet () "apples").path Scales.serde σ.toShape).eval σ.runtime.contents) =
        some (some Scales.zero) ∧
    ((run (Plain.step Scales.bodies) (.start fun _ => some Scales.one) Scales.resigned).map fun p =>
      (Reading.mapGet () "apples").plain p) = some (some Scales.negativeZero) :=
  ⟨fun _ => rfl, Scales.draws, Scales.declared, rfl, rfl⟩

end Exosuit.Reactivity
