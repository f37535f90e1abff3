import Exosuit.Lib.Run
import Exosuit.Reactivity.CollectionReads

/-!
# Runs over collections

Owners have cells, and the plain program says what their cells hold. An operation
gives a cell new contents, gives an owner a new cell, or takes one away.
-/

namespace Exosuit.Reactivity

open Lib

variable {M S X K V W : Type}

/-! ## Owners and the store -/

/-- Every owned cell is stored, and holds what its owner holds. -/
structure Backed {O : Type} (owned : O → Option String) (held : O → Option V)
    (store : CellId → Option V) : Prop where
  distinct : ∀ {o o' id}, owned o = some id → owned o' = some id → o = o'
  stored : ∀ {o id}, owned o = some id → store (.root id) ≠ none
  held : ∀ {o id v}, owned o = some id → held o = some v → store (.root id) = some v

namespace Backed

variable {O : Type} {owned : O → Option String} {held held' : O → Option V}
  {store : CellId → Option V} {o : O} {id : String}

theorem root_ne (h : Backed owned held store) (hOwned : owned o = some id) {o' : O} {id' : String}
    (hOwned' : owned o' = some id') (hne : o' ≠ o) : CellId.root id' ≠ .root id := by
  intro hRoot
  have hId : id' = id := congrArg CellId.sourceId hRoot
  exact hne (h.distinct hOwned' (hId ▸ hOwned))

theorem write (h : Backed owned held store) (hOwned : owned o = some id) (v : V)
    (hRest : ∀ o', o' ≠ o → held' o' = held o') (hSelf : ∀ v', held' o = some v' → v' = v) :
    Backed owned held' (Function.update store (.root id) (some v)) where
  distinct := h.distinct
  stored {o' id'} hOwned' := by
    rcases eq_or_ne (CellId.root id') (.root id) with hSame | hOther
    · rw [hSame, Function.update_self]
      nofun
    · rw [Function.update_of_ne hOther]
      exact h.stored hOwned'
  held {o' id' v'} hOwned' hHeld := by
    rcases eq_or_ne o' o with rfl | hne
    · cases hOwned.symm.trans hOwned'
      rw [Function.update_self, hSelf v' hHeld]
    · rw [Function.update_of_ne (h.root_ne hOwned hOwned' hne)]
      exact h.held hOwned' (hRest o' hne ▸ hHeld)

variable [DecidableEq O]

theorem adopt (h : Backed owned held store) (o : O) (v : V) (hFresh : ∀ o, owned o ≠ some id) :
    Backed (Function.update owned o (some id)) (Function.update held o (some v))
      (Function.update store (.root id) (some v)) := by
  have hOther : ∀ {o' id'}, owned o' = some id' → CellId.root id' ≠ .root id := by
    intro o' id' hOwned hRoot
    have hId : id' = id := congrArg CellId.sourceId hRoot
    exact hFresh o' (hId ▸ hOwned)
  constructor
  case distinct =>
    intro o₁ o₂ id' h₁ h₂
    rw [Function.update_apply] at h₁ h₂
    split at h₁ <;> split at h₂
    · next e₁ e₂ => rw [e₁, e₂]
    · cases h₁
      exact absurd h₂ (hFresh o₂)
    · cases h₂
      exact absurd h₁ (hFresh o₁)
    · exact h.distinct h₁ h₂
  case stored =>
    intro o' id' hOwned
    rw [Function.update_apply] at hOwned
    split at hOwned
    · cases hOwned
      rw [Function.update_self]
      nofun
    · rw [Function.update_of_ne (hOther hOwned)]
      exact h.stored hOwned
  case held =>
    intro o' id' v' hOwned hHeld
    rw [Function.update_apply] at hOwned hHeld
    split at hOwned
    · next hSame =>
      cases hOwned
      rw [if_pos hSame] at hHeld
      rw [Function.update_self, hHeld]
    · next hne =>
      rw [if_neg hne] at hHeld
      rw [Function.update_of_ne (hOther hOwned)]
      exact h.held hOwned hHeld

theorem drop (h : Backed owned held store) (hOwned : owned o = some id) :
    Backed (Function.update owned o none) (Function.update held o none)
      (Function.update store (.root id) none) := by
  have hOld : ∀ {o' id'}, Function.update owned o none o' = some id' →
      o' ≠ o ∧ owned o' = some id' := by
    intro o' id' hOwned'
    rw [Function.update_apply] at hOwned'
    split at hOwned'
    · cases hOwned'
    · next hne => exact ⟨hne, hOwned'⟩
  constructor
  case distinct => exact fun h₁ h₂ => h.distinct (hOld h₁).2 (hOld h₂).2
  case stored =>
    intro o' id' hOwned'
    obtain ⟨hne, hOwned'⟩ := hOld hOwned'
    rw [Function.update_of_ne (h.root_ne hOwned hOwned' hne)]
    exact h.stored hOwned'
  case held =>
    intro o' id' v' hOwned' hHeld
    obtain ⟨hne, hOwned'⟩ := hOld hOwned'
    rw [Function.update_of_ne hne] at hHeld
    rw [Function.update_of_ne (h.root_ne hOwned hOwned' hne)]
    exact h.held hOwned' hHeld

end Backed

/-! ## What readings and bodies answer -/

/-- The collections hold what the plain ones hold, cell by cell. -/
structure Collections.Mirrors [DecidableEq K] (serde : Serde V W) (σ : Collections M S X K V)
    (p : Plain M S X K V W) : Prop where
  backed : Backed σ.owned (p.held serde) σ.runtime.store
  keys : ∀ m, (σ.maps m).values.keys = (p.maps m).keys
  length : ∀ s, (σ.sequences s).values.length = (p.sequences s).length

namespace Collections.Mirrors

variable [DecidableEq K] [Inhabited V] {serde : Serde V W} {σ : Collections M S X K V}
  {p : Plain M S X K V W}

theorem contents_eq (h : σ.Mirrors serde p) {o : Owner M S X K} {id : String} {v : V}
    (hOwned : σ.owned o = some id) (hHeld : p.held serde o = some v) :
    σ.runtime.contents (.root id) = v := by
  rw [Runtime.contents, h.backed.held hOwned hHeld]
  rfl

omit [Inhabited V] in
theorem mem_iff (h : σ.Mirrors serde p) (m : M) (key : K) :
    key ∈ (σ.maps m).values ↔ key ∈ p.maps m := by
  rw [AList.mem_keys, AList.mem_keys, h.keys m]

theorem contents_entry (h : σ.Mirrors serde p) {m : M} {key : K} {id : String}
    (hEntry : (σ.maps m).values.lookup key = some id) :
    ∃ w, (p.maps m).lookup key = some w ∧ σ.runtime.contents (.root id) = serde.toValue w := by
  have hMem : key ∈ p.maps m := (h.mem_iff m key).mp (AList.lookup_isSome.mp (hEntry ▸ rfl))
  obtain ⟨w, hw⟩ := Option.isSome_iff_exists.mp (AList.lookup_isSome.mpr hMem)
  exact ⟨w, hw, h.contents_eq (o := .entry m key) hEntry (congrArg (Option.map serde.toValue) hw)⟩

theorem contents_item (h : σ.Mirrors serde p) {s : S} {index : Nat} {id : String} {w : W}
    (hItem : (σ.sequences s).values[index]? = some id) (hw : (p.sequences s)[index]? = some w) :
    σ.runtime.contents (.root id) = serde.toValue w :=
  h.contents_eq (o := .item s index) hItem (congrArg (Option.map serde.toValue) hw)

theorem contents_values (h : σ.Mirrors serde p) (s : S) :
    ((σ.sequences s).values.map fun id => σ.runtime.contents (.root id)) =
      (p.sequences s).map serde.toValue := by
  apply List.ext_getElem
  · rw [List.length_map, List.length_map, h.length s]
  · intro index hLeft hRight
    rw [List.getElem_map, List.getElem_map]
    rw [List.length_map] at hLeft hRight
    exact h.contents_item (List.getElem?_eq_getElem hLeft) (List.getElem?_eq_getElem hRight)

theorem contents_entries (h : σ.Mirrors serde p) (m : M) :
    ((σ.maps m).values.keys.zip
        ((σ.maps m).values.values.map fun id => σ.runtime.contents (.root id))) =
      (p.maps m).entries.map fun e => (e.1, serde.toValue e.2) := by
  have hKeys : (σ.maps m).values.entries.map Sigma.fst = (p.maps m).entries.map Sigma.fst := h.keys m
  have hLength := congrArg List.length hKeys
  rw [List.length_map, List.length_map] at hLength
  apply List.ext_getElem
  · simp [AList.keys, List.keys, Table.values, hLength]
  · intro index hLeft hRight
    rw [List.length_map] at hRight
    have hEntry : index < (σ.maps m).values.entries.length := hLength ▸ hRight
    have hKey : (σ.maps m).values.entries[index].1 = (p.maps m).entries[index].1 := by
      have hAt := List.getElem_of_eq hKeys (i := index) (by rwa [List.length_map])
      rwa [List.getElem_map, List.getElem_map] at hAt
    obtain ⟨w, hw, hContents⟩ := h.contents_entry (m := m)
      (Table.lookup_eq_some.mpr (List.getElem_mem hEntry))
    have hPlain : (p.maps m).lookup (p.maps m).entries[index].1 = some (p.maps m).entries[index].2 :=
      Table.lookup_eq_some.mpr (List.getElem_mem hRight)
    rw [List.get_eq_getElem, hKey] at hw
    cases hPlain.symm.trans hw
    rw [List.getElem_zip, List.getElem_map, List.getElem_map]
    refine Prod.ext ?_ ?_
    · simpa [AList.keys, List.keys] using hKey
    · simpa [Table.values] using hContents

theorem eval_path (h : σ.Mirrors serde p)
    (hSerde : ∀ w, serde.fromValue (serde.toValue w) = some w) (r : Reading M S K) :
    (r.path serde σ.toShape).eval σ.runtime.contents = r.plain p := by
  cases r with
  | mapGet m key =>
    change (Reading.getEntry _ _ ((σ.maps m).values.lookup key)).eval _ = (p.maps m).lookup key
    cases hEntry : (σ.maps m).values.lookup key with
    | none =>
      have hAbsent : key ∉ p.maps m := by
        rw [← h.mem_iff m key]
        exact AList.lookup_eq_none.mp hEntry
      exact (AList.lookup_eq_none.mpr hAbsent).symm
    | some id =>
      obtain ⟨w, hw, hContents⟩ := h.contents_entry hEntry
      rw [hw, ← hSerde w, ← hContents]
      rfl
  | mapContainsKey m key => exact decide_eq_decide.mpr (h.mem_iff m key)
  | mapKeys m => exact h.keys m
  | mapLen m =>
    have hLength := congrArg List.length (h.keys m)
    simp only [AList.keys, List.keys, List.length_map] at hLength
    exact hLength
  | mapEntries m =>
    simp only [Reading.path, Query.eval_ask, Query.eval_bind, Reading.eval_getAll, Query.eval_ret]
    refine (congrArg _ (h.contents_entries m)).trans ?_
    simp [List.filterMap_map, hSerde, Reading.plain]
  | sequenceGet s index =>
    change (Reading.getEntry _ _ ((σ.sequences s).values[index]?)).eval _ = (p.sequences s)[index]?
    cases hItem : (σ.sequences s).values[index]? with
    | none =>
      rw [List.getElem?_eq_none_iff, h.length s] at hItem
      exact (List.getElem?_eq_none_iff.mpr hItem).symm
    | some id =>
      obtain ⟨hLt, -⟩ := List.getElem?_eq_some_iff.mp hItem
      have hw := List.getElem?_eq_getElem (h.length s ▸ hLt)
      rw [hw, ← hSerde, ← h.contents_item hItem hw]
      rfl
  | sequenceLen s => exact h.length s
  | sequenceToVec s =>
    simp only [Reading.path, Query.eval_ask, Query.eval_bind, Reading.eval_getAll, Query.eval_ret]
    rw [h.contents_values s, List.filterMap_map]
    simp [hSerde, Reading.plain]

/-- A body that runs from scratch answers what it answers over the plain collections. -/
theorem recompute_closure (h : σ.Mirrors serde p)
    (hSerde : ∀ w, serde.fromValue (serde.toValue w) = some w) (b : Body M S X K V W) :
    (b.closure serde σ.toShape).recompute σ.runtime.contents = b.plain p := by
  induction b with
  | ret value => rfl
  | cell x next ih =>
    have hCell : σ.runtime.contents (.root (σ.cells x)) = p.cells x :=
      h.contents_eq (o := .cell x) rfl rfl
    rw [Body.plain, ← hCell, ← ih]
    rfl
  | collection r next ih =>
    rw [Body.closure, Reactivity.recompute_closure, h.eval_path hSerde, ih, Body.plain]
  | read id compute next ihCompute ihNext =>
    rw [Body.plain, ← ihCompute, ← ihNext]
    rfl

end Collections.Mirrors

/-! ## Owners come and go -/

section Owners

variable [DecidableEq M] [DecidableEq S] [DecidableEq X] [DecidableEq K]
  (shape : Shape M S X K) (p : Plain M S X K V W) (serde : Serde V W)

def Shape.setMap (m : M) (values : Table K String) : Shape M S X K :=
  { shape with maps := Function.update shape.maps m { shape.maps m with values := values } }

def Shape.setSequence (s : S) (values : List String) : Shape M S X K :=
  { shape with
    sequences := Function.update shape.sequences s { shape.sequences s with values := values } }

omit [DecidableEq S] [DecidableEq X] [DecidableEq K] in
theorem Shape.maps_setMap (m : M) (values : Table K String) (m' : M) :
    (shape.setMap m values).maps m' =
      if m' = m then { shape.maps m with values := values } else shape.maps m' :=
  Function.update_apply ..

omit [DecidableEq M] [DecidableEq X] [DecidableEq K] in
theorem Shape.sequences_setSequence (s : S) (values : List String) (s' : S) :
    (shape.setSequence s values).sequences s' =
      if s' = s then { shape.sequences s with values := values } else shape.sequences s' :=
  Function.update_apply ..

omit [DecidableEq S] [DecidableEq X] in
theorem Shape.owned_setMap (m : M) (values : Table K String) (o : Owner M S X K) :
    (shape.setMap m values).owned o = match o with
      | .entry m' key => if m' = m then values.lookup key else shape.owned (.entry m' key)
      | o => shape.owned o := by
  cases o with
  | entry m' key =>
    simp only [Shape.owned, Shape.setMap, Function.update_apply]
    split <;> rfl
  | mapStructure m' =>
    simp only [Shape.owned, Shape.setMap, Function.update_apply]
    split
    · next hSame => rw [hSame]
    · rfl
  | cell | sequenceStructure | item => rfl

theorem Shape.owned_insert (m : M) (key : K) (id : String) :
    (shape.setMap m (AList.insert key id (shape.maps m).values)).owned =
      Function.update shape.owned (.entry m key) (some id) := by
  funext o
  rw [Shape.owned_setMap, Function.update_apply]
  cases o with
  | entry m' key' =>
    simp only [Table.lookup_insert, Owner.entry.injEq]
    by_cases hMap : m' = m
    · subst hMap
      simp [Shape.owned]
    · simp [hMap]
  | cell | mapStructure | sequenceStructure | item => rfl

theorem Shape.owned_erase (m : M) (key : K) :
    (shape.setMap m (AList.erase key (shape.maps m).values)).owned =
      Function.update shape.owned (.entry m key) none := by
  funext o
  rw [Shape.owned_setMap, Function.update_apply]
  cases o with
  | entry m' key' =>
    simp only [Table.lookup_erase, Owner.entry.injEq]
    by_cases hMap : m' = m
    · subst hMap
      simp [Shape.owned]
    · simp [hMap]
  | cell | mapStructure | sequenceStructure | item => rfl

theorem Shape.owned_push (s : S) (id : String) :
    (shape.setSequence s ((shape.sequences s).values ++ [id])).owned =
      Function.update shape.owned (.item s (shape.sequences s).values.length) (some id) := by
  funext o
  rw [Function.update_apply]
  cases o with
  | item s' index =>
    simp only [Shape.owned, Shape.setSequence, Function.update_apply, Owner.item.injEq]
    by_cases hSequence : s' = s
    · subst hSequence
      simp only [if_true, true_and]
      grind
    · simp [hSequence]
  | sequenceStructure s' =>
    simp only [Shape.owned, Shape.setSequence, Function.update_apply]
    split
    · next hSame => simp [hSame]
    · rfl
  | cell | mapStructure | entry => rfl

def Plain.setMap (m : M) (values : Table K W) : Plain M S X K V W :=
  { p with maps := Function.update p.maps m values }

def Plain.setSequence (s : S) (values : List W) : Plain M S X K V W :=
  { p with sequences := Function.update p.sequences s values }

omit [DecidableEq S] [DecidableEq X] [DecidableEq K] in
theorem Plain.maps_setMap (m : M) (values : Table K W) (m' : M) :
    (p.setMap m values).maps m' = if m' = m then values else p.maps m' :=
  Function.update_apply ..

omit [DecidableEq M] [DecidableEq X] [DecidableEq K] in
theorem Plain.sequences_setSequence (s : S) (values : List W) (s' : S) :
    (p.setSequence s values).sequences s' = if s' = s then values else p.sequences s' :=
  Function.update_apply ..

omit [DecidableEq S] [DecidableEq X] [DecidableEq K] in
theorem Plain.keys_setMap {p : Plain M S X K V W} {m : M} {values : Table K W} (hSame : values.keys = (p.maps m).keys) (m' : M) :
    ((p.setMap m values).maps m').keys = (p.maps m').keys := by
  rw [Plain.maps_setMap]
  split
  · next hMap => rw [hSame, hMap]
  · rfl

omit [DecidableEq M] [DecidableEq X] [DecidableEq K] in
theorem Plain.length_setSequence {p : Plain M S X K V W} {s : S} {values : List W}
    (hSame : values.length = (p.sequences s).length) (s' : S) :
    ((p.setSequence s values).sequences s').length = (p.sequences s').length := by
  rw [Plain.sequences_setSequence]
  split
  · next hSequence => rw [hSame, hSequence]
  · rfl

theorem Plain.held_put (m : M) (key : K) (w : W) :
    (p.setMap m ((p.maps m).put key w)).held serde =
      Function.update (p.held serde) (.entry m key) (some (serde.toValue w)) := by
  funext o
  rw [Function.update_apply]
  cases o with
  | entry m' key' =>
    simp only [Plain.held, Plain.setMap, Function.update_apply, Owner.entry.injEq]
    by_cases hMap : m' = m
    · subst hMap
      simp only [if_true, true_and, Table.lookup_put]
      split <;> rfl
    · simp [hMap]
  | cell | mapStructure | sequenceStructure | item => rfl

theorem Plain.held_erase (m : M) (key : K) :
    (p.setMap m (AList.erase key (p.maps m))).held serde =
      Function.update (p.held serde) (.entry m key) none := by
  funext o
  rw [Function.update_apply]
  cases o with
  | entry m' key' =>
    simp only [Plain.held, Plain.setMap, Function.update_apply, Owner.entry.injEq]
    by_cases hMap : m' = m
    · subst hMap
      simp only [if_true, true_and, Table.lookup_erase]
      split <;> rfl
    · simp [hMap]
  | cell | mapStructure | sequenceStructure | item => rfl

theorem Plain.held_push (s : S) (w : W) :
    (p.setSequence s (p.sequences s ++ [w])).held serde =
      Function.update (p.held serde) (.item s (p.sequences s).length) (some (serde.toValue w)) := by
  funext o
  rw [Function.update_apply]
  cases o with
  | item s' index =>
    simp only [Plain.held, Plain.setSequence, Function.update_apply, Owner.item.injEq]
    by_cases hSequence : s' = s
    · subst hSequence
      simp only [if_true, true_and]
      grind
    · simp [hSequence]
  | cell | mapStructure | entry | sequenceStructure => rfl

theorem Plain.held_set {s : S} {index : Nat} (hLt : index < (p.sequences s).length) (w : W) :
    (p.setSequence s ((p.sequences s).set index w)).held serde =
      Function.update (p.held serde) (.item s index) (some (serde.toValue w)) := by
  funext o
  rw [Function.update_apply]
  cases o with
  | item s' index' =>
    simp only [Plain.held, Plain.setSequence, Function.update_apply, Owner.item.injEq]
    by_cases hSequence : s' = s
    · subst hSequence
      simp only [if_true, true_and]
      grind
    · simp [hSequence]
  | cell | mapStructure | entry | sequenceStructure => rfl

theorem Plain.held_setCell (x : X) (v : V) :
    ({ p with cells := Function.update p.cells x v } : Plain M S X K V W).held serde =
      Function.update (p.held serde) (.cell x) (some v) := by
  funext o
  rw [Function.update_apply]
  cases o with
  | cell x' =>
    simp only [Plain.held, Function.update_apply, Owner.cell.injEq]
    split <;> rfl
  | mapStructure | entry | sequenceStructure | item => rfl

/-! ## Changes of shape -/

variable {shape serde}

omit [DecidableEq S] [DecidableEq X] in
theorem Shape.noticed_setMap {m : M} {values : Table K String} {touched : List CellId}
    (hStructure : .root (shape.maps m).structureId ∈ touched)
    (hSame : ∀ key id, (shape.maps m).values.lookup key = some id → .root id ∉ touched →
      values.lookup key = some id) :
    shape.Noticed serde (shape.setMap m values) touched where
  cells := rfl
  path r contents hAway := by
    have hOther : ∀ {m'}, m' ≠ m → (shape.setMap m values).maps m' = shape.maps m' :=
      fun hne => Function.update_of_ne hne _ _
    have hKept : (shape.setMap m values).maps m = { shape.maps m with values := values } :=
      Function.update_self ..
    cases r with
    | mapGet m' key =>
      by_cases hMap : m' = m
      · subst hMap
        cases hEntry : (shape.maps m').values.lookup key with
        | none =>
          refine absurd ?_ (hAway _ hStructure)
          rw [Reading.path, hEntry]
          exact List.mem_cons_self
        | some id =>
          have hNot : CellId.root id ∉ touched := by
            intro hTouched
            refine hAway _ hTouched ?_
            rw [Reading.path, hEntry]
            exact List.mem_cons_self
          rw [Reading.path, Reading.path, hKept, hEntry, hSame key id hEntry hNot]
      · rw [Reading.path, Reading.path, hOther hMap]
    | mapContainsKey m' _ | mapKeys m' | mapLen m' | mapEntries m' =>
      by_cases hMap : m' = m
      · subst hMap
        exact absurd List.mem_cons_self (hAway _ hStructure)
      · simp only [Reading.path, hOther hMap]
    | sequenceGet | sequenceLen | sequenceToVec => rfl

omit [DecidableEq M] [DecidableEq X] in
theorem Shape.noticed_setSequence {s : S} {values : List String} {touched : List CellId}
    (hStructure : .root (shape.sequences s).structureId ∈ touched)
    (hSame : ∀ (index : Nat) id, (shape.sequences s).values[index]? = some id →
      values[index]? = some id) :
    shape.Noticed serde (shape.setSequence s values) touched where
  cells := rfl
  path r contents hAway := by
    have hOther : ∀ {s'}, s' ≠ s → (shape.setSequence s values).sequences s' = shape.sequences s' :=
      fun hne => Function.update_of_ne hne _ _
    have hKept : (shape.setSequence s values).sequences s =
        { shape.sequences s with values := values } := Function.update_self ..
    cases r with
    | sequenceGet s' index =>
      by_cases hSequence : s' = s
      · subst hSequence
        cases hItem : (shape.sequences s').values[index]? with
        | none =>
          refine absurd ?_ (hAway _ hStructure)
          rw [Reading.path, hItem]
          exact List.mem_cons_self
        | some id =>
          rw [Reading.path, Reading.path, hKept, hItem, hSame index id hItem]
      · rw [Reading.path, Reading.path, hOther hSequence]
    | sequenceLen s' | sequenceToVec s' =>
      by_cases hSequence : s' = s
      · subst hSequence
        exact absurd List.mem_cons_self (hAway _ hStructure)
      · simp only [Reading.path, hOther hSequence]
    | mapGet | mapContainsKey | mapKeys | mapLen | mapEntries => rfl

end Owners

end Exosuit.Reactivity
