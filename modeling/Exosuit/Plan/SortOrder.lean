import Exosuit.Lib.Ordering
import Exosuit.Plan.Loader
import Exosuit.Plan.WriterSpec
import Mathlib.Data.String.Basic

/-!
# The order of siblings

Siblings are displayed by their sort keys, those without one last. What a new key does to the list
when it stands between two others, and which place a position asks for.
-/

namespace Exosuit.Plan

open Lib SqliteWriter

/-! ## The order `sort_key NULLS LAST, id` -/

theorem leKey_total (a b : Option String × Nat) : leKey a b = true ∨ leKey b a = true := by
  obtain ⟨_ | x, m⟩ := a <;> obtain ⟨_ | y, n⟩ := b <;> simp only [leKey, Bool.or_eq_true,
    Bool.and_eq_true, decide_eq_true_eq, beq_iff_eq, Bool.false_eq_true, or_true, true_or]
  · exact Nat.le_total m n
  · rcases lt_trichotomy x y with h | rfl | h
    · exact .inl (.inl h)
    · exact (Nat.le_total m n).imp (fun h => .inr ⟨rfl, h⟩) fun h => .inr ⟨rfl, h⟩
    · exact .inr (.inl h)

theorem leKey_trans (a b c : Option String × Nat) (hab : leKey a b = true) (hbc : leKey b c = true) :
    leKey a c = true := by
  obtain ⟨_ | x, m⟩ := a <;> obtain ⟨_ | y, n⟩ := b <;> obtain ⟨_ | z, k⟩ := c <;>
    simp only [leKey, Bool.or_eq_true, Bool.and_eq_true, decide_eq_true_eq, beq_iff_eq,
      Bool.false_eq_true] at hab hbc ⊢
  · exact hab.trans hbc
  · rcases hab with hab | ⟨rfl, hab⟩
    · rcases hbc with hbc | ⟨rfl, -⟩
      · exact .inl (hab.trans hbc)
      · exact .inl hab
    · exact hbc.imp id fun h => ⟨h.1, hab.trans h.2⟩

theorem leKey_antisymm (a b : Option String × Nat) (hab : leKey a b = true) (hba : leKey b a = true) :
    a = b := by
  obtain ⟨_ | x, m⟩ := a <;> obtain ⟨_ | y, n⟩ := b <;> simp only [leKey, Bool.or_eq_true,
    Bool.and_eq_true, decide_eq_true_eq, beq_iff_eq, Bool.false_eq_true] at hab hba
  · rw [hab.antisymm hba]
  · rcases hab with hab | ⟨rfl, hab⟩
    · rcases hba with hba | ⟨rfl, -⟩
      · exact absurd hba hab.asymm
      · exact absurd hab (lt_irrefl _)
    · rcases hba with hba | ⟨-, hba⟩
      · exact absurd hba (lt_irrefl _)
      · rw [hab.antisymm hba]

section Ordered

variable {δ : Type} {parent : δ → Nat} {sortKey : δ → Option String} {parentId : Nat}

def leRow (sortKey : δ → Option String) (a b : Row δ) : Bool :=
  leKey (sortKey a.data, a.id) (sortKey b.data, b.id)

def ordered (rows : Rows δ) (parent : δ → Nat) (sortKey : δ → Option String) (parentId : Nat) :
    List (Row δ) :=
  orderBy (leRow sortKey) (rows.rows.filter fun row => parent row.data = parentId)

theorem orders_leRow {rows : Rows δ} {l : List (Row δ)} (h : ∀ row ∈ l, row ∈ rows) :
    Orders (leRow sortKey) l := by
  refine ⟨fun a b => leKey_total _ _, fun a b c => leKey_trans _ _ _, fun a ha b hb hab hba => ?_⟩
  exact Rows.eq_of_id (h a ha) (h b hb) (congrArg Prod.snd (leKey_antisymm _ _ hab hba))

/-- The text ids and sort keys of displayed rows. -/
def listing (sortKey : δ → Option String) (l : List (Row δ)) : List (String × Option String) :=
  l.map fun row => (row.textId, sortKey row.data)

end Ordered

def keyedItems (l : List (String × Option String)) : List (String × String) :=
  l.filterMap fun item => item.2.map (item.1, ·)

def KeyLe (a b : Option String) : Prop :=
  match a, b with
  | some x, some y => x ≤ y
  | none, some _ => False
  | _, none => True

theorem keyLe_of_leKey {a b : Option String × Nat} (h : leKey a b = true) : KeyLe a.1 b.1 := by
  obtain ⟨_ | x, m⟩ := a <;> obtain ⟨_ | y, n⟩ := b <;> simp only [leKey, Bool.or_eq_true,
    Bool.and_eq_true, decide_eq_true_eq, beq_iff_eq, Bool.false_eq_true] at h <;> try trivial
  exact h.elim le_of_lt fun h => le_of_eq h.1

def KeyOrdered (l : List (String × Option String)) : Prop := l.Pairwise fun a b => KeyLe a.2 b.2

theorem exists_keyless {l : List (String × Option String)} (h : KeyOrdered l) :
    (∃ keyless, l = (keyedItems l).map (fun item => (item.1, some item.2)) ++ keyless ∧
      ∀ item ∈ keyless, item.2 = none) ∧
    (keyedItems l).Pairwise fun a b => a.2 ≤ b.2 := by
  induction l with
  | nil => exact ⟨⟨[], rfl, nofun⟩, .nil⟩
  | cons item l ih =>
    obtain ⟨hItem, hRest⟩ := List.pairwise_cons.mp h
    obtain ⟨⟨keyless, hSplit, hKeyless⟩, hOrder⟩ := ih hRest
    obtain ⟨id, _ | key⟩ := item
    · -- nothing that follows an item without a key has one
      have hNone : ∀ item ∈ l, item.2 = none := by
        intro item hMem
        have hLe := hItem item hMem
        cases hKey : item.2 with
        | none => rfl
        | some key =>
          rw [hKey] at hLe
          exact hLe.elim
      have hNil : keyedItems ((id, none) :: l) = [] := by
        refine List.filterMap_eq_nil_iff.mpr fun item hMem => ?_
        rcases List.mem_cons.mp hMem with rfl | hMem
        · rfl
        · rw [hNone item hMem]
          rfl
      rw [hNil]
      refine ⟨⟨_, rfl, fun item hMem => ?_⟩, .nil⟩
      rcases List.mem_cons.mp hMem with rfl | hMem
      · rfl
      · exact hNone item hMem
    · have hCons : keyedItems ((id, some key) :: l) = (id, key) :: keyedItems l := rfl
      rw [hCons]
      refine ⟨⟨keyless, by rw [List.map_cons, List.cons_append, ← hSplit], hKeyless⟩, ?_⟩
      refine List.pairwise_cons.mpr ⟨fun item' hMem => ?_, hOrder⟩
      obtain ⟨item, hIn, hKey⟩ := List.mem_filterMap.mp hMem
      obtain ⟨key', hSome, rfl⟩ := Option.map_eq_some_iff.mp hKey
      have hLe := hItem item hIn
      rw [hSome] at hLe
      exact hLe

/-! ## Positions -/

/-- What the writer relies on in the crate: it accepts only its own strings, and its keys stand before,
after and between those that they are made from. -/
structure FractionalIndex.Lawful (fx : FractionalIndex) : Prop where
  own : ∀ s key, fx.fromString s = .ok key → fx.toString key = s
  newBefore_lt : ∀ key, fx.toString (fx.newBefore key) < fx.toString key
  lt_newAfter : ∀ key, fx.toString key < fx.toString (fx.newAfter key)
  newBetween_lt : ∀ a b key, fx.newBetween a b = some key →
    fx.toString a < fx.toString key ∧ fx.toString key < fx.toString b

inductive Place
  | before (anchorId : String)
  | after (anchorId : String)
  | top
  | bottom
  | index (idx : Nat)
deriving DecidableEq, Repr

namespace Place

def parse (position : String) : Option Place :=
  match Text.stripPrefix "before:" position, Text.stripPrefix "after:" position with
  | some anchorId, _ => some (.before anchorId)
  | none, some anchorId => some (.after anchorId)
  | none, none =>
    if position = "top" then some .top
    else if position = "bottom" then some .bottom
    else (Text.parseUsize position).map .index

def indexIn (others : List String) : Place → Option Nat
  | before anchorId => others.findIdx? fun id => id = anchorId
  | after anchorId => (others.findIdx? fun id => id = anchorId).map (· + 1)
  | top => some 0
  | bottom => some others.length
  | index idx => some (min idx others.length)

/-- The key of the place, as the writer computes it. -/
def key (fx : FractionalIndex) (items : List (String × String)) : Place → Except Failure fx.Key
  | before anchorId => anchorIndex items anchorId >>= keyBefore fx items
  | after anchorId => anchorIndex items anchorId >>= keyAfter fx items
  | top =>
    match items.head? with
    | some first => (parseKey fx first.2).map fx.newBefore
    | none => pure fx.default
  | bottom =>
    match items.getLast? with
    | some last => (parseKey fx last.2).map fx.newAfter
    | none => pure fx.default
  | index idx =>
    match items.getLast? with
    | none => pure fx.default
    | some last =>
      if items.length ≤ idx then (parseKey fx last.2).map fx.newAfter else keyBefore fx items idx

end Place

theorem computePosition_eq_ok {fx : FractionalIndex} {position : String} {items : List (String × String)}
    {key : fx.Key} : computePosition fx position items = .ok key ↔
      ∃ place, Place.parse position = some place ∧ place.key fx items = .ok key := by
  have hSome : ∀ place : Place, place.key fx items = .ok key ↔
      ∃ place', some place = some place' ∧ place'.key fx items = .ok key := by simp
  unfold computePosition Place.parse
  cases Text.stripPrefix "before:" position with
  | some anchorId => exact hSome (.before anchorId)
  | none =>
    cases Text.stripPrefix "after:" position with
    | some anchorId => exact hSome (.after anchorId)
    | none =>
      dsimp only
      by_cases hTop : position = "top"
      · rw [if_pos hTop, if_pos hTop]
        exact hSome .top
      rw [if_neg hTop, if_neg hTop]
      by_cases hBottom : position = "bottom"
      · rw [if_pos hBottom, if_pos hBottom]
        exact hSome .bottom
      rw [if_neg hBottom, if_neg hBottom]
      cases Text.parseUsize position with
      | none => simp
      | some idx => exact hSome (.index idx)

/-- The key stands behind the first `i` items and before the rest. -/
def Between (items : List (String × String)) (i : Nat) (key : String) : Prop :=
  (∀ item ∈ items.take i, item.2 < key) ∧ ∀ item ∈ items.drop i, key < item.2

section Positions

variable {fx : FractionalIndex} {items : List (String × String)} {key : fx.Key} {idx : Nat}

theorem parseKey_eq_ok {s : String} : parseKey fx s = .ok key ↔ fx.fromString s = .ok key := by
  unfold parseKey
  cases fx.fromString s with
  | ok key' => simp
  | error e => exact ⟨nofun, nofun⟩

theorem le_of_mem_take (hOrder : items.Pairwise fun a b => a.2 ≤ b.2) {i : Nat} (hi : i < items.length)
    {item : String × String} (h : item ∈ items.take (i + 1)) : item.2 ≤ items[i].2 := by
  obtain ⟨j, hj, rfl⟩ := List.mem_take_iff_getElem.mp h
  rcases Nat.lt_or_ge j i with hji | hij
  · exact List.pairwise_iff_getElem.mp hOrder j i _ hi hji
  · have hEq : j = i := by omega
    subst hEq
    exact le_rfl

theorem le_of_mem_drop (hOrder : items.Pairwise fun a b => a.2 ≤ b.2) {i : Nat} (hi : i < items.length)
    {item : String × String} (h : item ∈ items.drop i) : items[i].2 ≤ item.2 := by
  obtain ⟨j, hj, rfl⟩ := List.mem_drop_iff_getElem.mp h
  rcases Nat.eq_zero_or_pos j with rfl | hPos
  · simp
  · exact List.pairwise_iff_getElem.mp hOrder i (i + j) hi _ (by omega)

theorem newBetween_eq_ok (hLawful : fx.Lawful) {a b : String} (h : newBetween fx a b = .ok key) :
    a < fx.toString key ∧ fx.toString key < b := by
  obtain ⟨before, hBefore, h⟩ := bind_eq_ok.mp h
  obtain ⟨after, hAfter, h⟩ := bind_eq_ok.mp h
  split at h
  · next key' hKey =>
    cases h
    rw [← hLawful.own a before (parseKey_eq_ok.mp hBefore), ← hLawful.own b after (parseKey_eq_ok.mp hAfter)]
    exact hLawful.newBetween_lt before after key hKey
  · exact nomatch h

theorem newBefore_eq_ok (hLawful : fx.Lawful) {s : String}
    (h : (parseKey fx s).map fx.newBefore = .ok key) : fx.toString key < s := by
  obtain ⟨first, hFirst, rfl⟩ := map_eq_ok.mp h
  exact (hLawful.newBefore_lt first).trans_eq (hLawful.own s first (parseKey_eq_ok.mp hFirst))

theorem newAfter_eq_ok (hLawful : fx.Lawful) {s : String}
    (h : (parseKey fx s).map fx.newAfter = .ok key) : s < fx.toString key := by
  obtain ⟨last, hLast, rfl⟩ := map_eq_ok.mp h
  exact (hLawful.own s last (parseKey_eq_ok.mp hLast)).symm.trans_lt (hLawful.lt_newAfter last)

variable (hLawful : fx.Lawful) (hOrder : items.Pairwise fun a b => a.2 ≤ b.2)
include hLawful hOrder

theorem between_of_first (hPos : 0 < items.length)
    (h : (parseKey fx (items[0]).2).map fx.newBefore = .ok key) : Between items 0 (fx.toString key) := by
  refine ⟨nofun, fun item hMem => ?_⟩
  exact (newBefore_eq_ok hLawful h).trans_le (le_of_mem_drop hOrder hPos hMem)

theorem between_of_last {i : Nat} (hi : i < items.length) (hEnd : items.length ≤ i + 1)
    (h : (parseKey fx (items[i]).2).map fx.newAfter = .ok key) :
    Between items (i + 1) (fx.toString key) := by
  refine ⟨fun item hMem => ?_, fun item hMem => ?_⟩
  · exact (le_of_mem_take hOrder hi hMem).trans_lt (newAfter_eq_ok hLawful h)
  · rw [List.drop_eq_nil_of_le hEnd] at hMem
    exact nomatch hMem

theorem between_of_neighbours {i : Nat} (hi : i + 1 < items.length)
    (h : newBetween fx (items[i]).2 (items[i + 1]).2 = .ok key) :
    Between items (i + 1) (fx.toString key) := by
  obtain ⟨hBefore, hAfter⟩ := newBetween_eq_ok hLawful h
  refine ⟨fun item hMem => ?_, fun item hMem => ?_⟩
  · exact (le_of_mem_take hOrder (Nat.lt_of_succ_lt hi) hMem).trans_lt hBefore
  · exact hAfter.trans_le (le_of_mem_drop hOrder hi hMem)

theorem between_of_keyBefore (hi : idx < items.length) (h : keyBefore fx items idx = .ok key) :
    Between items idx (fx.toString key) := by
  unfold keyBefore at h
  cases idx with
  | zero =>
    rw [List.getElem?_eq_getElem hi] at h
    exact between_of_first hLawful hOrder hi h
  | succ i =>
    rw [Nat.add_sub_cancel, List.getElem?_eq_getElem (Nat.lt_of_succ_lt hi), List.getElem?_eq_getElem hi] at h
    exact between_of_neighbours hLawful hOrder hi h

theorem between_of_keyAfter (hi : idx < items.length) (h : keyAfter fx items idx = .ok key) :
    Between items (idx + 1) (fx.toString key) := by
  unfold keyAfter at h
  rw [List.getElem?_eq_getElem hi] at h
  rcases Nat.lt_or_ge (idx + 1) items.length with hNext | hEnd
  · rw [List.getElem?_eq_getElem hNext] at h
    exact between_of_neighbours hLawful hOrder hNext h
  · rw [List.getElem?_eq_none hEnd] at h
    exact between_of_last hLawful hOrder hi hEnd h

theorem between_of_getLast? {last : String × String} (hLast : items.getLast? = some last)
    (h : (parseKey fx last.2).map fx.newAfter = .ok key) :
    Between items items.length (fx.toString key) := by
  rw [List.getLast?_eq_getElem?] at hLast
  obtain ⟨hi, rfl⟩ := List.getElem?_eq_some_iff.mp hLast
  have hLength : items.length - 1 + 1 = items.length := by omega
  exact hLength ▸ between_of_last hLawful hOrder hi (by omega) h

omit hLawful hOrder in
theorem anchorIndex_eq_ok {anchorId : String} {i : Nat} (h : anchorIndex items anchorId = .ok i) :
    i < items.length ∧ (items.map Prod.fst).findIdx? (fun id => id = anchorId) = some i := by
  unfold anchorIndex at h
  split at h
  · next idx hIdx =>
    cases h
    refine ⟨(List.findIdx?_eq_some_iff_getElem.mp hIdx).1, ?_⟩
    rw [List.findIdx?_map]
    exact hIdx
  · exact nomatch h

theorem between_of_place {place : Place} (h : place.key fx items = .ok key) :
    ∃ i, place.indexIn (items.map Prod.fst) = some i ∧ Between items i (fx.toString key) := by
  have hNil : ∀ i, items.length = 0 → Between items i (fx.toString key) := by
    intro i hZero
    rw [List.length_eq_zero_iff.mp hZero]
    exact ⟨by simp, by simp⟩
  have hEnd : (∀ last, items.getLast? = some last → (parseKey fx last.2).map fx.newAfter = .ok key) →
      Between items items.length (fx.toString key) := by
    intro h
    cases hLast : items.getLast? with
    | none => exact hNil _ (List.length_eq_zero_iff.mpr (List.getLast?_eq_none_iff.mp hLast))
    | some last => exact between_of_getLast? hLawful hOrder hLast (h last hLast)
  cases place with
  | before anchorId =>
    obtain ⟨idx, hIdx, h⟩ := bind_eq_ok.mp h
    obtain ⟨hi, hFound⟩ := anchorIndex_eq_ok hIdx
    exact ⟨idx, hFound, between_of_keyBefore hLawful hOrder hi h⟩
  | after anchorId =>
    obtain ⟨idx, hIdx, h⟩ := bind_eq_ok.mp h
    obtain ⟨hi, hFound⟩ := anchorIndex_eq_ok hIdx
    exact ⟨idx + 1, congrArg (Option.map (· + 1)) hFound, between_of_keyAfter hLawful hOrder hi h⟩
  | top =>
    refine ⟨0, rfl, ?_⟩
    dsimp only [Place.key] at h
    rcases Nat.eq_zero_or_pos items.length with hZero | hPos
    · exact hNil 0 hZero
    · rw [List.head?_eq_getElem?, List.getElem?_eq_getElem hPos] at h
      exact between_of_first hLawful hOrder hPos h
  | bottom =>
    refine ⟨items.length, by rw [Place.indexIn, List.length_map], hEnd fun last hLast => ?_⟩
    dsimp only [Place.key] at h
    rwa [hLast] at h
  | index idx =>
    dsimp only [Place.key] at h
    refine ⟨min idx items.length, by rw [Place.indexIn, List.length_map], ?_⟩
    rcases Nat.lt_or_ge idx items.length with hi | hi
    · rw [Nat.min_eq_left hi.le]
      refine between_of_keyBefore hLawful hOrder hi ?_
      split at h
      · next hLast =>
        rw [List.getLast?_eq_none_iff.mp hLast] at hi
        exact absurd hi (Nat.not_lt_zero _)
      · rwa [if_neg (Nat.not_le.mpr hi)] at h
    · rw [Nat.min_eq_right hi]
      refine hEnd fun last hLast => ?_
      rw [hLast] at h
      exact (if_pos hi).symm.trans h

end Positions

/-! ## Displayed lists -/

theorem between_listing {l : List (String × Option String)} (h : KeyOrdered l) {i : Nat} {key : String}
    (hi : i ≤ (keyedItems l).length) (hBetween : Between (keyedItems l) i key) :
    (∀ item ∈ l.take i, ∃ k, item.2 = some k ∧ k < key) ∧
      ∀ item ∈ l.drop i, ∀ k, item.2 = some k → key < k := by
  obtain ⟨⟨keyless, hSplit, hKeyless⟩, -⟩ := exists_keyless h
  rw [← List.length_map (f := fun item : String × String => (item.1, some item.2))] at hi
  constructor
  · intro item hMem
    rw [hSplit, List.take_append_of_le_length hi, ← List.map_take] at hMem
    obtain ⟨keyed, hKeyed, rfl⟩ := List.mem_map.mp hMem
    exact ⟨keyed.2, rfl, hBetween.1 keyed hKeyed⟩
  · intro item hMem k hKey
    rw [hSplit, List.drop_append_of_le_length hi, ← List.map_drop] at hMem
    rcases List.mem_append.mp hMem with hMem | hMem
    · obtain ⟨keyed, hKeyed, rfl⟩ := List.mem_map.mp hMem
      cases hKey
      exact hBetween.2 keyed hKeyed
    · exact nomatch (hKeyless item hMem).symm.trans hKey

section Ordered

variable {δ : Type} {rows rows' : Rows δ} {parent : δ → Nat} {sortKey : δ → Option String} {parentId : Nat}

theorem mem_ordered {row : Row δ} :
    row ∈ ordered rows parent sortKey parentId ↔ row ∈ rows ∧ parent row.data = parentId := by
  rw [ordered, mem_orderBy, List.mem_filter, decide_eq_true_eq]
  exact Iff.rfl

theorem keyOrdered_ordered : KeyOrdered (listing sortKey (ordered rows parent sortKey parentId)) := by
  have hOrders : Orders (leRow sortKey) (rows.rows.filter fun row => parent row.data = parentId) :=
    orders_leRow fun row hRow => (List.mem_filter.mp hRow).1
  refine List.pairwise_map.mpr (hOrders.pairwise.imp ?_)
  intro a b h
  exact keyLe_of_leKey h

theorem siblings_eq : siblings rows parent sortKey parentId =
    keyedItems (listing sortKey (ordered rows parent sortKey parentId)) := by
  rw [keyedItems, listing, List.filterMap_map]
  rfl

def without (textId : String) (l : List (String × Option String)) : List (String × Option String) :=
  l.filter fun item => item.1 ≠ textId

theorem KeyOrdered.without {textId : String} {l : List (String × Option String)} (h : KeyOrdered l) :
    KeyOrdered (without textId l) :=
  h.filter _

theorem keyedItems_without (textId : String) (l : List (String × Option String)) :
    keyedItems (without textId l) = (keyedItems l).filter fun item => item.1 ≠ textId := by
  rw [keyedItems, without, List.filterMap_filter, keyedItems, List.filter_filterMap]
  refine congrArg (fun f => List.filterMap f l) (funext fun item => ?_)
  obtain ⟨id, _ | key⟩ := item <;> by_cases hId : id = textId <;> simp [hId, Option.filter_some]

/-- A row whose key stands at a place among the others is displayed there. -/
theorem listing_of_between {row : Row δ} {key : String} {i : Nat}
    (hPerm : (rows'.rows.filter fun r => parent r.data = parentId).Perm
      (row :: (rows.rows.filter fun r => parent r.data = parentId).filter fun r => r.textId ≠ row.textId))
    (hKey : sortKey row.data = some key)
    (hi : i ≤ (keyedItems (without row.textId
      (listing sortKey (ordered rows parent sortKey parentId)))).length)
    (hBetween : Between (keyedItems (without row.textId
      (listing sortKey (ordered rows parent sortKey parentId)))) i key) :
    listing sortKey (ordered rows' parent sortKey parentId) =
      (without row.textId (listing sortKey (ordered rows parent sortKey parentId))).take i ++
        (row.textId, some key) ::
          (without row.textId (listing sortKey (ordered rows parent sortKey parentId))).drop i := by
  have hRows : Orders (leRow sortKey) (rows.rows.filter fun r => parent r.data = parentId) :=
    orders_leRow fun r hr => (List.mem_filter.mp hr).1
  have hOthers : without row.textId (listing sortKey (ordered rows parent sortKey parentId)) =
      listing sortKey (orderBy (leRow sortKey)
        ((rows.rows.filter fun r => parent r.data = parentId).filter fun r => r.textId ≠ row.textId)) := by
    rw [hRows.orderBy_filter, without, listing, List.filter_map]
    rfl
  obtain ⟨hBefore, hAfter⟩ := between_listing keyOrdered_ordered.without hi hBetween
  rw [hOthers] at hBefore hAfter ⊢
  rw [listing, ← List.map_take] at hBefore
  rw [listing, ← List.map_drop] at hAfter
  rw [ordered, (orders_leRow fun r hr => (List.mem_filter.mp hr).1).orderBy_insert hPerm (i := i)]
  · rw [listing, listing, List.map_append, List.map_cons, List.map_take, List.map_drop, hKey]
  · intro r hr
    obtain ⟨k, hk, hLt⟩ := hBefore _ (List.mem_map_of_mem hr)
    rw [leRow, hKey, show sortKey r.data = some k from hk, leKey]
    simp [hLt]
  · intro r hr
    rw [leRow, hKey]
    cases hk : sortKey r.data with
    | none => rfl
    | some k => simp [leKey, hAfter _ (List.mem_map_of_mem hr) k hk]

theorem nodup_rows (rows : Rows δ) : rows.rows.Nodup := List.Nodup.of_map _ rows.nodup_id

theorem perm_update {row : Row δ} {f : δ → δ} (hRow : row ∈ rows) (hParent : parent (f row.data) = parentId) :
    ((rows.update (fun r => r.textId = row.textId) f).rows.filter fun r => parent r.data = parentId).Perm
      ({ row with data := f row.data } ::
        (rows.rows.filter fun r => parent r.data = parentId).filter fun r => r.textId ≠ row.textId) := by
  refine (List.perm_ext_iff_of_nodup ((nodup_rows _).filter _) ?_).mpr fun r => ?_
  · refine List.nodup_cons.mpr ⟨fun hMem => ?_, ((nodup_rows rows).filter _).filter _⟩
    simpa using (List.mem_filter.mp hMem).2
  · simp only [List.mem_filter, List.mem_cons, Rows.mem_rows, Rows.mem_update, decide_eq_true_eq]
    constructor
    · rintro ⟨⟨a, ha, rfl⟩, hIn⟩
      by_cases hSame : a.textId = row.textId
      · rw [if_pos hSame, Rows.eq_of_textId ha hRow hSame]
        exact .inl rfl
      · rw [if_neg hSame] at hIn ⊢
        exact .inr ⟨⟨ha, hIn⟩, hSame⟩
    · rintro (rfl | ⟨⟨hr, hIn⟩, hDiffers⟩)
      · exact ⟨⟨row, hRow, (if_pos rfl).symm⟩, hParent⟩
      · exact ⟨⟨r, hr, (if_neg hDiffers).symm⟩, hIn⟩

theorem perm_insert {textId : String} {data : δ} (h : rows.insert textId data = some rows')
    (hParent : parent data = parentId) :
    (rows'.rows.filter fun r => parent r.data = parentId).Perm
      (⟨rows.nextId, textId, data⟩ ::
        (rows.rows.filter fun r => parent r.data = parentId).filter fun r => r.textId ≠ textId) := by
  obtain ⟨hNew, hRows⟩ := Rows.insert_eq_some.mp h
  have hAll : (rows.rows.filter fun r => parent r.data = parentId).filter (fun r => r.textId ≠ textId) =
      rows.rows.filter fun r => parent r.data = parentId := by
    refine List.filter_eq_self.mpr fun r hr => decide_eq_true fun hSame => ?_
    exact Rows.byTextId_eq_none.mp hNew r (List.mem_filter.mp hr).1 hSame
  rw [hAll, hRows, List.filter_append, List.filter_cons_of_pos (by simpa using hParent), List.filter_nil]
  exact List.perm_append_singleton _ _

end Ordered

/-! ## The greatest key -/

theorem lastKey_concat (keys : List String) (key : String) :
    lastKey (keys ++ [key]) = some ((lastKey keys).elim key fun last => if last < key then key else last) := by
  rw [lastKey, List.foldl_append]
  rfl

theorem lastKey_eq_none {keys : List String} : lastKey keys = none ↔ keys = [] := by
  rcases List.eq_nil_or_concat keys with rfl | ⟨keys, key, rfl⟩
  · exact iff_of_true rfl rfl
  · rw [List.concat_eq_append, lastKey_concat]
    simp

theorem lastKey_eq_some {keys : List String} {last : String} :
    lastKey keys = some last ↔ last ∈ keys ∧ ∀ key ∈ keys, key ≤ last := by
  have hOf : ∀ keys : List String, ∀ last, lastKey keys = some last →
      last ∈ keys ∧ ∀ key ∈ keys, key ≤ last := by
    intro keys
    induction keys using List.reverseRecOn with
    | nil => exact nofun
    | append_singleton keys key ih =>
      intro last h
      rw [lastKey_concat, Option.some_inj] at h
      cases hKeys : lastKey keys with
      | none =>
        rw [hKeys, Option.elim_none] at h
        rw [lastKey_eq_none.mp hKeys, h]
        simp
      | some before =>
        obtain ⟨hMem, hAll⟩ := ih before hKeys
        rw [hKeys, Option.elim_some] at h
        split at h
        · next hLt =>
          subst h
          refine ⟨by simp, fun k hk => ?_⟩
          rcases List.mem_append.mp hk with hk | hk
          · exact (hAll k hk).trans hLt.le
          · exact (List.mem_singleton.mp hk).le
        · next hNot =>
          subst h
          refine ⟨List.mem_append_left _ hMem, fun k hk => ?_⟩
          rcases List.mem_append.mp hk with hk | hk
          · exact hAll k hk
          · exact List.mem_singleton.mp hk ▸ not_lt.mp hNot
  refine ⟨hOf keys last, fun ⟨hMem, hAll⟩ => ?_⟩
  cases hKeys : lastKey keys with
  | none => exact absurd (lastKey_eq_none.mp hKeys ▸ hMem) (List.not_mem_nil)
  | some other =>
    obtain ⟨hOther, hMax⟩ := hOf keys other hKeys
    rw [(hAll other hOther).antisymm (hMax last hMem)]

/-- The greatest of the keys, if there is one, is a string of the crate. -/
def Parses (fx : FractionalIndex) (keys : List String) : Prop :=
  ∀ last ∈ lastKey keys, ∃ key, fx.fromString last = .ok key

theorem appendKey_eq_ok {fx : FractionalIndex} (hLawful : fx.Lawful) {keys : List String} {key : String}
    (h : appendKey fx keys = .ok key) : ∀ k ∈ keys, k < key := by
  intro k hk
  unfold appendKey at h
  cases hKeys : lastKey keys with
  | none => exact absurd (lastKey_eq_none.mp hKeys ▸ hk) List.not_mem_nil
  | some last =>
    rw [hKeys] at h
    obtain ⟨prev, hPrev, rfl⟩ := map_eq_ok.mp h
    have hOwn := hLawful.own last prev (parseKey_eq_ok.mp hPrev)
    exact ((lastKey_eq_some.mp hKeys).2 k hk).trans_lt (hOwn ▸ hLawful.lt_newAfter prev)

theorem exists_appendKey_iff {fx : FractionalIndex} {keys : List String} :
    (∃ key, appendKey fx keys = .ok key) ↔ Parses fx keys := by
  unfold appendKey Parses
  cases lastKey keys with
  | none => simp [pure_eq_ok]
  | some last => simp [map_eq_ok, parseKey_eq_ok]

end Exosuit.Plan
