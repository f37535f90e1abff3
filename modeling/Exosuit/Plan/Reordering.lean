import Exosuit.Plan.SortOrder

/-!
# Reordering and adding

When a reorder, a move or an add of the writer puts the entity where it was asked to go, in the list
as it is displayed.
-/

namespace Exosuit.Plan

open Lib SqliteWriter

/-! ## Places among siblings without a key -/

/-- The place is behind the first `n` siblings. -/
def Place.behind (n : Nat) : Place → Bool
  | bottom => true
  | index idx => n < idx
  | _ => false

def textIds (l : List (String × Option String)) : List String := l.map Prod.fst

theorem Place.indexIn_le {place : Place} {l : List String} {i : Nat} (h : place.indexIn l = some i) :
    i ≤ l.length := by
  cases place with
  | before anchorId => exact (List.findIdx?_eq_some_iff_getElem.mp h).1.le
  | after anchorId =>
    obtain ⟨j, hj, rfl⟩ := Option.map_eq_some_iff.mp h
    exact (List.findIdx?_eq_some_iff_getElem.mp hj).1
  | top => exact Option.some.inj h ▸ Nat.zero_le _
  | bottom => exact Option.some.inj h ▸ Nat.le_refl _
  | index idx => exact Option.some.inj h ▸ Nat.min_le_right _ _

theorem Place.indexIn_append {place : Place} {l l' : List String} {i : Nat}
    (h : place.indexIn l = some i) :
    place.indexIn (l ++ l') = some i ↔ ¬ (l' ≠ [] ∧ place.behind l.length = true) := by
  have hFind : ∀ {anchorId j}, l.findIdx? (fun id => id = anchorId) = some j →
      (l ++ l').findIdx? (fun id => id = anchorId) = some j := by
    intro anchorId j hj
    rw [List.findIdx?_append, hj, Option.some_or]
  cases place with
  | before anchorId => exact iff_of_true (hFind h) (by simp [Place.behind])
  | after anchorId =>
    obtain ⟨j, hj, rfl⟩ := Option.map_eq_some_iff.mp h
    simp [Place.behind, Place.indexIn, hFind hj]
  | top => simpa [Place.behind, Place.indexIn] using h
  | bottom =>
    cases h
    cases l' <;> simp [Place.behind, Place.indexIn]
  | index idx =>
    cases h
    cases l' with
    | nil => simp [Place.indexIn]
    | cons id l' =>
      simp only [Place.indexIn, Place.behind, List.length_append, List.length_cons, Option.some_inj, ne_eq,
        reduceCtorEq, not_false_eq_true, true_and, decide_eq_true_eq]
      omega

theorem exists_key_iff_of_behind {fx : FractionalIndex} {items : List (String × String)} {place : Place}
    (hOrder : items.Pairwise fun a b => a.2 ≤ b.2) (h : place.behind items.length = true) :
    (∃ key, place.key fx items = .ok key) ↔ Parses fx (items.map Prod.snd) := by
  have hLast : lastKey (items.map Prod.snd) = items.getLast?.map Prod.snd := by
    cases hItems : items.getLast? with
    | none => rw [List.getLast?_eq_none_iff.mp hItems]; rfl
    | some last =>
      rw [List.getLast?_eq_getElem?] at hItems
      obtain ⟨hi, rfl⟩ := List.getElem?_eq_some_iff.mp hItems
      refine lastKey_eq_some.mpr ⟨List.mem_map_of_mem (List.getElem_mem hi), fun key hKey => ?_⟩
      obtain ⟨item, hItem, rfl⟩ := List.mem_map.mp hKey
      exact le_of_mem_take hOrder hi (by rwa [List.take_of_length_le (by omega)])
  unfold Parses
  rw [hLast]
  cases place with
  | bottom =>
    cases hItems : items.getLast? with
    | none => simp [Place.key, hItems, pure_eq_ok]
    | some last => simp [Place.key, hItems, map_eq_ok, parseKey_eq_ok]
  | index idx =>
    have hLe : items.length ≤ idx := (of_decide_eq_true h).le
    cases hItems : items.getLast? with
    | none => simp [Place.key, hItems, pure_eq_ok]
    | some last => simp [Place.key, hItems, hLe, map_eq_ok, parseKey_eq_ok]
  | _ => cases h

/-- Two lists that differ from a third by where the new id stands are the same only if it stands at one
place. -/
theorem insertIdx_inj {l : List String} {id : String} {i j : Nat} (hi : i ≤ l.length) (hj : j ≤ l.length)
    (hFresh : id ∉ l) (h : l.insertIdx i id = l.insertIdx j id) : i = j := by
  have hAt : ∀ k, k ≤ l.length → (l.insertIdx k id).findIdx? (fun other => other = id) = some k := by
    intro k hk
    refine List.findIdx?_eq_some_iff_getElem.mpr ⟨?_, ?_, fun m hm => ?_⟩
    · rw [List.length_insertIdx_of_le_length hk]
      omega
    · simp
    · rw [List.getElem_insertIdx_of_lt hm]
      exact fun hSame => hFresh (of_decide_eq_true hSame ▸ List.getElem_mem _)
  have hEq := (hAt i hi).symm.trans (h ▸ hAt j hj)
  exact Option.some.inj hEq

/-- The siblings' ids with the entity at the place. -/
def PlacedAt (place : Place) (others : List (String × Option String)) (textId : String)
    (displayed : List (String × Option String)) : Prop :=
  ∃ i, place.indexIn (textIds others) = some i ∧ textIds displayed = (textIds others).insertIdx i textId

/-- Siblings without a key stand where the place is behind. -/
def Hidden (place : Place) (others : List (String × Option String)) : Prop :=
  (∃ item ∈ others, item.2 = none) ∧ place.behind (keyedItems others).length = true

theorem take_cons_drop_eq_insertIdx {α : Type} {l : List α} {i : Nat} {a : α} (hi : i ≤ l.length) :
    l.take i ++ a :: l.drop i = l.insertIdx i a := by
  induction l generalizing i with
  | nil =>
    have hZero : i = 0 := Nat.le_zero.mp hi
    rw [hZero]
    rfl
  | cons b l ih =>
    cases i with
    | zero => rfl
    | succ i => rw [List.take_succ_cons, List.drop_succ_cons, List.insertIdx_succ_cons, List.cons_append,
        ih (Nat.le_of_succ_le_succ hi)]

theorem placedAt_iff {place : Place} {others displayed : List (String × Option String)}
    {textId key : String} {i : Nat} (hOrder : KeyOrdered others) (hFresh : textId ∉ textIds others)
    (hIndex : place.indexIn ((keyedItems others).map Prod.fst) = some i)
    (hDisplayed : displayed = others.take i ++ (textId, some key) :: others.drop i) :
    PlacedAt place others textId displayed ↔ ¬ Hidden place others := by
  obtain ⟨⟨keyless, hSplit, hKeyless⟩, -⟩ := exists_keyless hOrder
  have hIds : textIds others = (keyedItems others).map Prod.fst ++ textIds keyless := by
    conv_lhs => rw [hSplit]
    rw [textIds, List.map_append, List.map_map]
    rfl
  have hLe : i ≤ (textIds others).length := by
    have := Place.indexIn_le hIndex
    rw [hIds, List.length_append]
    omega
  have hHidden : Hidden place others ↔
      textIds keyless ≠ [] ∧ place.behind ((keyedItems others).map Prod.fst).length = true := by
    rw [Hidden, List.length_map]
    refine and_congr_left' ⟨?_, ?_⟩
    · rintro ⟨item, hMem, hNone⟩ hNil
      rw [hSplit, List.map_eq_nil_iff.mp hNil, List.append_nil] at hMem
      obtain ⟨keyed, -, rfl⟩ := List.mem_map.mp hMem
      exact nomatch hNone
    · intro hNe
      obtain ⟨item, hMem⟩ := List.exists_mem_of_ne_nil keyless fun hNil => hNe (hNil ▸ rfl)
      exact ⟨item, hSplit ▸ List.mem_append_right _ hMem, hKeyless item hMem⟩
  rw [hHidden, ← Place.indexIn_append hIndex, ← hIds]
  have hDisplayedIds : textIds displayed = (textIds others).insertIdx i textId := by
    rw [← take_cons_drop_eq_insertIdx hLe, hDisplayed, textIds, List.map_append, List.map_cons,
      List.map_take, List.map_drop]
    rfl
  constructor
  · rintro ⟨j, hj, hSame⟩
    have hEq := insertIdx_inj hLe (Place.indexIn_le hj) hFresh (hDisplayedIds.symm.trans hSame)
    rw [hEq, hj]
  · exact fun h => ⟨i, h, hDisplayedIds⟩

/-! ## The calls -/

/-- The list in which a call puts an entity, and where. -/
structure Placement where
  entityType : EntityType
  parentId : Nat
  textId : String
  position : String
deriving DecidableEq, Repr

/-- The children of a parent as they are displayed; the epochs have none. -/
def Database.listed (db : Database) (entityType : EntityType) (parentId : Nat) :
    List (String × Option String) :=
  match entityType with
  | .epoch => listing (fun data => some data.sortKey) db.planEpochs
  | .phase => listing PhaseData.sortKey (db.phasesOf parentId)
  | .goal => listing GoalData.sortKey (db.goalsOf parentId)
  | .task => listing TaskData.sortKey (db.tasksOf parentId)

def Database.others (db : Database) (p : Placement) : List (String × Option String) :=
  without p.textId (db.listed p.entityType p.parentId)

namespace WriterCall

def reorders (db : Database) : WriterCall → Option Placement
  | reorderEpoch textId position =>
    (db.epochs.byTextId textId).map fun _ => ⟨.epoch, 0, textId, position⟩
  | reorderPhase textId position =>
    (db.phases.byTextId textId).map fun phase => ⟨.phase, phase.data.epochId, textId, position⟩
  | movePhaseToEpoch textId epochTextId position =>
    (db.epochs.byTextId epochTextId).bind fun epoch =>
      (db.phases.byTextId textId).map fun _ => ⟨.phase, epoch.id, textId, position.getD "bottom"⟩
  | reorderGoal textId position =>
    (db.goals.byTextId textId).map fun goal => ⟨.goal, goal.data.phaseId, textId, position⟩
  | moveGoalToPhasePosition textId phaseTextId position =>
    (db.phases.byTextId phaseTextId).bind fun phase =>
      (db.goals.byTextId textId).map fun _ => ⟨.goal, phase.id, textId, position.getD "bottom"⟩
  | reorderTaskByRowId taskRowId position =>
    (db.tasks.byId taskRowId).map fun task => ⟨.task, task.data.goalId, task.textId, position⟩
  | _ => none

/-- An add to a parent that is there, under an id that is free. -/
def adds (db : Database) : WriterCall → Option Placement
  | addEpoch textId _ =>
    if (db.epochs.byTextId textId).isNone then some ⟨.epoch, 0, textId, "bottom"⟩ else none
  | addPhase textId epochTextId _ _ =>
    (db.epochs.byTextId epochTextId).bind fun epoch =>
      if (db.phases.byTextId textId).isNone then some ⟨.phase, epoch.id, textId, "bottom"⟩ else none
  | addGoal phaseTextId goalId _ _ _ =>
    (db.phases.byTextId phaseTextId).bind fun phase =>
      if (db.goals.byTextId goalId).isNone then some ⟨.goal, phase.id, goalId, "bottom"⟩ else none
  | addTask goalTextId taskId _ _ =>
    (db.goals.byTextId goalTextId).bind fun goal =>
      if (db.tasks.byTextId taskId).isNone ∧ db.taskHandleConflicts goal.id taskId none = .ok false then
        some ⟨.task, goal.id, taskId, "bottom"⟩
      else none
  | _ => none

end WriterCall

/-- What a reorder, a move and an add are for: the old order of the others with the entity at the place
that was asked for. -/
structure PutsInPlace (fx : FractionalIndex) (op : WriterCall) (db : Database) : Prop where
  unchanged : ∀ p ∈ op.reorders db, ∀ e db', op.exec fx db = (.error e, db') → db' = db
  reordered : ∀ p ∈ op.reorders db, ∀ reply db', op.exec fx db = (.ok reply, db') →
    ∃ place, Place.parse p.position = some place ∧
      PlacedAt place (db.others p) p.textId (db'.listed p.entityType p.parentId)
  added : ∀ p ∈ op.adds db, ∃ reply db', op.exec fx db = (.ok reply, db') ∧
    textIds (db'.listed p.entityType p.parentId) = textIds (db.listed p.entityType p.parentId) ++ [p.textId]

/-- When they do so: no sibling without a key stands before the place, and an add finds a key to go on
from. -/
structure KeysSuffice (fx : FractionalIndex) (op : WriterCall) (db : Database) : Prop where
  reordered : ∀ p ∈ op.reorders db, ∀ place ∈ Place.parse p.position,
    Parses fx ((keyedItems (db.others p)).map Prod.snd) → ¬ Hidden place (db.others p)
  added : ∀ p ∈ op.adds db, (∀ item ∈ db.listed p.entityType p.parentId, item.2 ≠ none) ∧
    Parses fx ((keyedItems (db.listed p.entityType p.parentId)).map Prod.snd)

section Tables

variable {fx : FractionalIndex} {op : WriterCall} {db : Database} {p : Placement} {δ : Type}
  {rows : Rows δ} {parent : δ → Nat} {sortKey : δ → Option String}

theorem reorderKey_eq_ok {textId position key : String} {parentId : Nat} :
    reorderKey fx rows parent sortKey parentId textId position = .ok key ↔
      ∃ place k, Place.parse position = some place ∧
        place.key fx (keyedItems (without textId
          (listing sortKey (ordered rows parent sortKey parentId)))) = .ok k ∧ fx.toString k = key := by
  rw [reorderKey, map_eq_ok, siblings_eq, keyedItems_without]
  simp only [computePosition_eq_ok]
  constructor
  · rintro ⟨k, ⟨place, hPlace, hKey⟩, rfl⟩
    exact ⟨place, k, hPlace, hKey, rfl⟩
  · rintro ⟨place, k, hPlace, hKey, rfl⟩
    exact ⟨k, ⟨place, hPlace, hKey⟩, rfl⟩

theorem notMem_without (textId : String) (l : List (String × Option String)) :
    textId ∉ textIds (without textId l) := by
  intro h
  obtain ⟨item, hItem, rfl⟩ := List.mem_map.mp h
  simpa using (List.mem_filter.mp hItem).2

theorem reordered_iff (hLawful : fx.Lawful) {row : Row δ} (hRow : row ∈ rows) (hText : row.textId = p.textId)
    {f : String → δ → δ} {g : Rows δ → Database} (hParent : ∀ key, parent (f key row.data) = p.parentId)
    (hKey : ∀ key, sortKey (f key row.data) = some key)
    (hListed : db.listed p.entityType p.parentId = listing sortKey (ordered rows parent sortKey p.parentId))
    (hNew : ∀ rows', (g rows').listed p.entityType p.parentId =
      listing sortKey (ordered rows' parent sortKey p.parentId))
    (hExec : op.exec fx db = commit db
      ((reorderKey fx rows parent sortKey p.parentId p.textId p.position).map fun key =>
        g (rows.update (fun r => r.textId = p.textId) (f key)))) :
    (∀ reply db', op.exec fx db = (.ok reply, db') → ∃ place, Place.parse p.position = some place ∧
        PlacedAt place (db.others p) p.textId (db'.listed p.entityType p.parentId)) ↔
      ∀ place ∈ Place.parse p.position,
        Parses fx ((keyedItems (db.others p)).map Prod.snd) → ¬ Hidden place (db.others p) := by
  have hOthers : db.others p = without p.textId (listing sortKey (ordered rows parent sortKey p.parentId)) := by
    rw [Database.others, hListed]
  have hOrder : KeyOrdered (db.others p) := hOthers ▸ keyOrdered_ordered.without
  have hItems := (exists_keyless hOrder).2
  -- a place with a key is where the row goes
  have hPlaced : ∀ place k, Place.parse p.position = some place →
      place.key fx (keyedItems (db.others p)) = .ok k →
        ∃ db', op.exec fx db = (.ok true, db') ∧
          (PlacedAt place (db.others p) p.textId (db'.listed p.entityType p.parentId) ↔
            ¬ Hidden place (db.others p)) := by
    intro place k hPlace hOk
    refine ⟨g (rows.update (fun r => r.textId = p.textId) (f (fx.toString k))), ?_⟩
    constructor
    · rw [hExec, reorderKey_eq_ok.mpr ⟨place, k, hPlace, hOthers ▸ hOk, rfl⟩]
      rfl
    · obtain ⟨i, hIndex, hBetween⟩ := between_of_place hLawful hItems hOk
      have hi := Place.indexIn_le hIndex
      rw [List.length_map] at hi
      have hDisplayed : (g (rows.update (fun r => r.textId = p.textId) (f (fx.toString k)))).listed
          p.entityType p.parentId =
          (db.others p).take i ++ (p.textId, some (fx.toString k)) :: (db.others p).drop i := by
        rw [hNew]
        rw [hOthers] at hi hBetween ⊢
        rw [← hText] at hi hBetween ⊢
        have hListing := listing_of_between (perm_update hRow (hParent (fx.toString k))) (hKey _) hi hBetween
        exact hListing
      exact placedAt_iff hOrder (notMem_without _ _) hIndex hDisplayed
  constructor
  · intro h place hPlace hParses hHidden
    obtain ⟨k, hOk⟩ := (exists_key_iff_of_behind hItems hHidden.2).mpr hParses
    obtain ⟨db', hRun, hIff⟩ := hPlaced place k hPlace hOk
    obtain ⟨place', hPlace', hAt⟩ := h true db' hRun
    cases hPlace.symm.trans hPlace'
    exact hIff.mp hAt hHidden
  · intro h reply db' hRun
    rw [hExec] at hRun
    obtain ⟨key, hReorder, -⟩ := map_eq_ok.mp (commit_eq_ok hRun)
    obtain ⟨place, k, hPlace, hOk, -⟩ := reorderKey_eq_ok.mp hReorder
    rw [← hOthers] at hOk
    obtain ⟨db'', hRun', hIff⟩ := hPlaced place k hPlace hOk
    cases (hExec.trans hRun).symm.trans hRun'
    refine ⟨place, hPlace, hIff.mpr fun hHidden => ?_⟩
    exact h place hPlace ((exists_key_iff_of_behind hItems hHidden.2).mp ⟨k, hOk⟩) hHidden

theorem without_of_free (parent : δ → Nat) (sortKey : δ → Option String) (parentId : Nat)
    {textId : String} (hFree : rows.byTextId textId = none) :
    without textId (listing sortKey (ordered rows parent sortKey parentId)) =
      listing sortKey (ordered rows parent sortKey parentId) := by
  refine List.filter_eq_self.mpr fun item hItem => decide_eq_true ?_
  obtain ⟨row, hRow, rfl⟩ := List.mem_map.mp hItem
  exact Rows.byTextId_eq_none.mp hFree row (mem_ordered.mp hRow).1

theorem lastKey_congr {keys keys' : List String} (h : ∀ key, key ∈ keys ↔ key ∈ keys') :
    lastKey keys = lastKey keys' := by
  ext last
  rw [lastKey_eq_some, lastKey_eq_some, h]
  simp only [h]

theorem added_iff (hLawful : fx.Lawful) (data : String → δ) (g : Rows δ → Database) (keys : List String)
    (hFree : rows.byTextId p.textId = none)
    (hParent : ∀ key, parent (data key) = p.parentId) (hKey : ∀ key, sortKey (data key) = some key)
    (hListed : db.listed p.entityType p.parentId = listing sortKey (ordered rows parent sortKey p.parentId))
    (hKeys : ∀ key, key ∈ keys ↔
      key ∈ (keyedItems (listing sortKey (ordered rows parent sortKey p.parentId))).map Prod.snd)
    (hNew : ∀ rows', (g rows').listed p.entityType p.parentId =
      listing sortKey (ordered rows' parent sortKey p.parentId))
    (hExec : ∀ db', (∃ reply, op.exec fx db = (.ok reply, db')) ↔ ∃ key rows', appendKey fx keys = .ok key ∧
      rows.insert p.textId (data key) = some rows' ∧ g rows' = db') :
    (∃ reply db', op.exec fx db = (.ok reply, db') ∧
        textIds (db'.listed p.entityType p.parentId) =
          textIds (db.listed p.entityType p.parentId) ++ [p.textId]) ↔
      (∀ item ∈ db.listed p.entityType p.parentId, item.2 ≠ none) ∧
        Parses fx ((keyedItems (db.listed p.entityType p.parentId)).map Prod.snd) := by
  have hOrder : KeyOrdered (db.listed p.entityType p.parentId) := hListed ▸ keyOrdered_ordered
  have hParses : Parses fx keys ↔
      Parses fx ((keyedItems (db.listed p.entityType p.parentId)).map Prod.snd) := by
    rw [Parses, Parses, lastKey_congr hKeys, hListed]
  have hOthers := without_of_free parent sortKey p.parentId hFree
  -- the new row stands behind the keys, and last if there is nothing else
  have hLast : ∀ key rows', appendKey fx keys = .ok key → rows.insert p.textId (data key) = some rows' →
      (textIds ((g rows').listed p.entityType p.parentId) =
          textIds (db.listed p.entityType p.parentId) ++ [p.textId] ↔
        ¬ Hidden .bottom (db.listed p.entityType p.parentId)) := by
    intro key rows' hAppend hInsert
    have hBetween : Between (keyedItems (db.listed p.entityType p.parentId))
        (keyedItems (db.listed p.entityType p.parentId)).length key := by
      refine ⟨fun item hItem => ?_, fun item hItem => ?_⟩
      · rw [List.take_length] at hItem
        refine appendKey_eq_ok hLawful hAppend item.2 ((hKeys item.2).mpr ?_)
        exact hListed ▸ List.mem_map_of_mem hItem
      · rw [List.drop_length] at hItem
        exact nomatch hItem
    have hDisplayed : (g rows').listed p.entityType p.parentId =
        (db.listed p.entityType p.parentId).take (keyedItems (db.listed p.entityType p.parentId)).length ++
          (p.textId, some key) ::
            (db.listed p.entityType p.parentId).drop
              (keyedItems (db.listed p.entityType p.parentId)).length := by
      rw [hNew]
      rw [hListed] at hBetween ⊢
      rw [← hOthers] at hBetween
      have hListing := listing_of_between (perm_insert hInsert (hParent key)) (hKey key) le_rfl hBetween
      rw [hOthers] at hListing
      exact hListing
    have hFresh : p.textId ∉ textIds (db.listed p.entityType p.parentId) := by
      rw [hListed, ← hOthers]
      exact notMem_without _ _
    rw [← placedAt_iff hOrder hFresh (by rw [Place.indexIn, List.length_map]) hDisplayed, PlacedAt]
    simp only [Place.indexIn, Option.some_inj, exists_eq_left', List.insertIdx_length_self]
  have hHidden : ¬ Hidden .bottom (db.listed p.entityType p.parentId) ↔
      ∀ item ∈ db.listed p.entityType p.parentId, item.2 ≠ none := by
    rw [Hidden, Place.behind, and_iff_left rfl]
    exact not_exists.trans (forall_congr' fun _ => not_and)
  rw [← hParses, ← exists_appendKey_iff, ← hHidden]
  constructor
  · rintro ⟨reply, db', hRun, hIds⟩
    obtain ⟨key, rows', hAppend, hInsert, rfl⟩ := (hExec db').mp ⟨reply, hRun⟩
    exact ⟨(hLast key rows' hAppend hInsert).mp hIds, key, hAppend⟩
  · rintro ⟨hNone, key, hAppend⟩
    obtain ⟨rows', hInsert⟩ : ∃ rows', rows.insert p.textId (data key) = some rows' := by
      rw [Rows.insert, dif_pos hFree]
      exact ⟨_, rfl⟩
    obtain ⟨reply, hRun⟩ := (hExec (g rows')).mpr ⟨key, rows', hAppend, hInsert, rfl⟩
    exact ⟨reply, _, hRun, (hLast key rows' hAppend hInsert).mpr hNone⟩

end Tables

/-! ## Every call -/

def epochKey (data : EpochData) : Option String := some data.sortKey

theorem listed_epoch (db : Database) (parentId : Nat) :
    db.listed .epoch parentId = listing epochKey (ordered db.epochs (fun _ => 0) epochKey 0) := by
  rw [ordered, List.filter_eq_self.mpr (by simp)]
  rfl

theorem siblings_epochs (db : Database) :
    (orderBy (fun a b => leKey (some a.data.sortKey, a.id) (some b.data.sortKey, b.id))
        db.epochs.rows).map (fun row => (row.textId, row.data.sortKey)) =
      siblings db.epochs (fun _ => 0) epochKey 0 := by
  rw [siblings, List.filter_eq_self.mpr (by simp), ← List.filterMap_eq_map']
  rfl

section

variable {α δ : Type} {rows : Rows δ} {row : Row δ} {textId : String}

theorem bind_updateRow (h : rows.byTextId textId = some row) (entity : String) (x : Except Failure α)
    (f : α → δ → δ) (g : Rows δ → Database) :
    (x >>= fun a => updateRow entity rows textId (f a) >>= fun rows' => pure (g rows')) =
      x.map fun a => g (rows.update (fun r => r.textId = textId) (f a)) := by
  cases x with
  | error e => rfl
  | ok a =>
    show updateRow entity rows textId (f a) >>= _ = _
    rw [updateRow, h]
    rfl

end

variable {fx : FractionalIndex} {op : WriterCall} {db : Database} {p : Placement}

theorem reorders_iff (hLawful : fx.Lawful) (hp : p ∈ op.reorders db) :
    (∀ reply db', op.exec fx db = (.ok reply, db') → ∃ place, Place.parse p.position = some place ∧
        PlacedAt place (db.others p) p.textId (db'.listed p.entityType p.parentId)) ↔
      ∀ place ∈ Place.parse p.position,
        Parses fx ((keyedItems (db.others p)).map Prod.snd) → ¬ Hidden place (db.others p) := by
  cases op with
  | reorderEpoch textId position =>
    obtain ⟨epoch, hEpoch, rfl⟩ := Option.map_eq_some_iff.mp hp
    obtain ⟨hRow, hText⟩ := Rows.byTextId_eq_some.mp hEpoch
    refine reordered_iff hLawful hRow hText (f := fun key data => { data with sortKey := key })
      (g := fun epochs => { db with epochs }) (fun _ => rfl) (fun _ => rfl) (listed_epoch db 0)
      (fun epochs => listed_epoch { db with epochs } 0) ?_
    rw [WriterCall.exec, SqliteWriter.reorderEpoch, hEpoch]
    dsimp only
    rw [siblings_epochs, bind_updateRow hEpoch, reorderKey]
    cases computePosition fx position
        ((siblings db.epochs (fun _ => 0) epochKey 0).filter fun item => item.1 ≠ textId) with
    | error e => rfl
    | ok key => rfl
  | reorderPhase textId position =>
    obtain ⟨phase, hPhase, rfl⟩ := Option.map_eq_some_iff.mp hp
    obtain ⟨hRow, hText⟩ := Rows.byTextId_eq_some.mp hPhase
    refine reordered_iff hLawful hRow hText (f := fun key data => { data with sortKey := some key })
      (g := fun phases => { db with phases })
      (fun _ => rfl) (fun _ => rfl) rfl (fun _ => rfl) ?_
    rw [WriterCall.exec, SqliteWriter.reorderPhase, hPhase]
    exact congrArg (commit db) (bind_updateRow hPhase _ _ _ _)
  | movePhaseToEpoch textId epochTextId position =>
    obtain ⟨epoch, hEpoch, hp⟩ := Option.bind_eq_some_iff.mp hp
    obtain ⟨phase, hPhase, rfl⟩ := Option.map_eq_some_iff.mp hp
    obtain ⟨hRow, hText⟩ := Rows.byTextId_eq_some.mp hPhase
    refine reordered_iff hLawful hRow hText
      (f := fun key data => { data with epochId := epoch.id, sortKey := some key })
      (g := fun phases => { db with phases })
      (fun _ => rfl) (fun _ => rfl) rfl (fun _ => rfl) ?_
    rw [WriterCall.exec, SqliteWriter.movePhaseToEpoch, hEpoch, hPhase]
    exact congrArg (commit db) (bind_updateRow hPhase _ _ _ _)
  | reorderGoal textId position =>
    obtain ⟨goal, hGoal, rfl⟩ := Option.map_eq_some_iff.mp hp
    obtain ⟨hRow, hText⟩ := Rows.byTextId_eq_some.mp hGoal
    refine reordered_iff hLawful hRow hText (f := fun key data => { data with sortKey := some key })
      (g := fun goals => { db with goals })
      (fun _ => rfl) (fun _ => rfl) rfl (fun _ => rfl) ?_
    rw [WriterCall.exec, SqliteWriter.reorderGoal, hGoal]
    exact congrArg (commit db) (bind_updateRow hGoal _ _ _ _)
  | moveGoalToPhasePosition textId phaseTextId position =>
    obtain ⟨phase, hPhase, hp⟩ := Option.bind_eq_some_iff.mp hp
    obtain ⟨goal, hGoal, rfl⟩ := Option.map_eq_some_iff.mp hp
    obtain ⟨hRow, hText⟩ := Rows.byTextId_eq_some.mp hGoal
    refine reordered_iff hLawful hRow hText
      (f := fun key data => { data with phaseId := phase.id, sortKey := some key })
      (g := fun goals => { db with goals })
      (fun _ => rfl) (fun _ => rfl) rfl (fun _ => rfl) ?_
    rw [WriterCall.exec, SqliteWriter.moveGoalToPhasePosition, hPhase, hGoal]
    exact congrArg (commit db) (bind_updateRow hGoal _ _ _ _)
  | reorderTaskByRowId taskRowId position =>
    obtain ⟨task, hTask, rfl⟩ := Option.map_eq_some_iff.mp hp
    obtain ⟨hRow, hId⟩ := Rows.byId_eq_some.mp hTask
    refine reordered_iff hLawful hRow rfl (f := fun key data => { data with sortKey := some key })
      (g := fun tasks => { db with tasks })
      (fun _ => rfl) (fun _ => rfl) rfl (fun _ => rfl) ?_
    rw [WriterCall.exec, SqliteWriter.reorderTaskByRowId, hTask]
    exact congrArg (commit db) (bind_updateRow (Rows.byTextId_eq_some.mpr ⟨hRow, rfl⟩) _ _ _ _)
  | _ => exact nomatch hp

theorem eq_of_commit_error {r : Except Failure Database} {e : Failure} {db' : Database}
    (h : commit db r = (.error e, db')) : db' = db := by
  cases r with
  | ok _ => exact absurd (congrArg Prod.fst h) nofun
  | error _ => exact (congrArg Prod.snd h).symm

theorem unchanged_of_reorders (hp : p ∈ op.reorders db) {e : Failure} {db' : Database}
    (h : op.exec fx db = (.error e, db')) : db' = db := by
  cases op with
  | reorderEpoch textId position => exact eq_of_commit_error h
  | reorderPhase textId position => exact eq_of_commit_error h
  | movePhaseToEpoch textId epochTextId position => exact eq_of_commit_error h
  | reorderGoal textId position => exact eq_of_commit_error h
  | moveGoalToPhasePosition textId phaseTextId position => exact eq_of_commit_error h
  | reorderTaskByRowId taskRowId position => exact eq_of_commit_error h
  | _ => exact nomatch hp

theorem exists_commit_eq_ok {r : Except Failure Database} {db' : Database} :
    (∃ reply, commit db r = (.ok reply, db')) ↔ r = .ok db' := by
  constructor
  · rintro ⟨reply, h⟩
    exact commit_eq_ok h
  · rintro rfl
    exact ⟨true, rfl⟩

theorem mem_sortKeys {δ : Type} {rows : Rows δ} {parent : δ → Nat} {sortKey : δ → Option String}
    {parentId : Nat} {key : String} :
    key ∈ (keyedItems (listing sortKey (ordered rows parent sortKey parentId))).map Prod.snd ↔
      ∃ row ∈ rows, parent row.data = parentId ∧ sortKey row.data = some key := by
  rw [← siblings_eq]
  constructor
  · intro h
    obtain ⟨pair, hPair, rfl⟩ := List.mem_map.mp h
    obtain ⟨row, hRow, hKey⟩ := List.mem_filterMap.mp hPair
    obtain ⟨k, hk, rfl⟩ := Option.map_eq_some_iff.mp hKey
    obtain ⟨hMem, hParent⟩ := mem_ordered.mp hRow
    exact ⟨row, hMem, hParent, hk⟩
  · rintro ⟨row, hRow, hParent, hKey⟩
    refine List.mem_map.mpr ⟨(row.textId, key), List.mem_filterMap.mpr ⟨row, ?_, ?_⟩, rfl⟩
    · exact mem_ordered.mpr ⟨hRow, hParent⟩
    · rw [hKey]
      rfl

theorem adds_iff (hLawful : fx.Lawful) (hp : p ∈ op.adds db) :
    (∃ reply db', op.exec fx db = (.ok reply, db') ∧
        textIds (db'.listed p.entityType p.parentId) =
          textIds (db.listed p.entityType p.parentId) ++ [p.textId]) ↔
      (∀ item ∈ db.listed p.entityType p.parentId, item.2 ≠ none) ∧
        Parses fx ((keyedItems (db.listed p.entityType p.parentId)).map Prod.snd) := by
  cases op with
  | addEpoch textId title =>
    obtain ⟨hFree, hp⟩ := Option.ite_none_right_eq_some.mp hp
    cases hp
    refine added_iff hLawful (EpochData.mk title none false) (fun epochs => { db with epochs })
      (db.epochs.rows.map fun row => row.data.sortKey) (Option.isNone_iff_eq_none.mp hFree)
      (fun _ => rfl) (fun _ => rfl) (listed_epoch db 0) (fun key => ?_)
      (fun epochs => listed_epoch { db with epochs } 0) fun db' => ?_
    · rw [mem_sortKeys]
      simp [epochKey, Rows.mem_rows]
    · rw [WriterCall.exec, exists_commit_eq_ok]
      simp only [SqliteWriter.addEpoch, bind_eq_ok, insertRow_eq_ok, pure_eq_ok]
      simp only [exists_and_left]
  | addPhase textId epochTextId title kind =>
    obtain ⟨epoch, hEpoch, hp⟩ := Option.bind_eq_some_iff.mp hp
    obtain ⟨hFree, hp⟩ := Option.ite_none_right_eq_some.mp hp
    cases hp
    refine added_iff hLawful (fun key => PhaseData.mk title .pending epoch.id kind (some key) none none)
      (fun phases => { db with phases })
      ((siblings db.phases PhaseData.epochId PhaseData.sortKey epoch.id).map Prod.snd)
      (Option.isNone_iff_eq_none.mp hFree) (fun _ => rfl) (fun _ => rfl) rfl
      (fun _ => by rw [siblings_eq]) (fun _ => rfl) fun db' => ?_
    rw [WriterCall.exec, exists_commit_eq_ok]
    simp only [SqliteWriter.addPhase, bind_eq_ok, resolveId_eq_ok, insertRow_eq_ok, pure_eq_ok, hEpoch,
      Option.some.injEq, exists_eq_left', appendSortKey, exists_and_left]
  | addGoal phaseTextId goalId label rfc targetStage =>
    obtain ⟨phase, hPhase, hp⟩ := Option.bind_eq_some_iff.mp hp
    obtain ⟨hFree, hp⟩ := Option.ite_none_right_eq_some.mp hp
    cases hp
    refine added_iff hLawful
      (fun key => GoalData.mk label .pending phase.id (some key) rfc targetStage none none none)
      (fun goals => { db with goals })
      ((siblings db.goals GoalData.phaseId GoalData.sortKey phase.id).map Prod.snd)
      (Option.isNone_iff_eq_none.mp hFree) (fun _ => rfl) (fun _ => rfl) rfl
      (fun _ => by rw [siblings_eq]) (fun _ => rfl) fun db' => ?_
    rw [WriterCall.exec, exists_commit_eq_ok]
    simp only [SqliteWriter.addGoal, bind_eq_ok, resolveId_eq_ok, insertRow_eq_ok, pure_eq_ok, hPhase,
      Option.some.injEq, exists_eq_left', appendSortKey, exists_and_left]
  | addTask goalTextId taskId title notes =>
    obtain ⟨goal, hGoal, hp⟩ := Option.bind_eq_some_iff.mp hp
    obtain ⟨⟨hFree, hConflicts⟩, hp⟩ := Option.ite_none_right_eq_some.mp hp
    cases hp
    refine added_iff hLawful
      (fun key => TaskData.mk title .pending goal.id (some key) notes none none none)
      (fun tasks => { db with tasks })
      ((siblings db.tasks TaskData.goalId TaskData.sortKey goal.id).map Prod.snd)
      (Option.isNone_iff_eq_none.mp hFree) (fun _ => rfl) (fun _ => rfl) rfl
      (fun _ => by rw [siblings_eq]) (fun _ => rfl) fun db' => ?_
    rw [WriterCall.exec, exists_commit_eq_ok]
    simp only [SqliteWriter.addTask, bind_eq_ok, resolveId_eq_ok, hGoal, Option.some.injEq,
      exists_eq_left', hConflicts, Except.ok.injEq, Bool.false_eq_true, if_false, insertRow_eq_ok, pure_eq_ok,
      appendSortKey, exists_and_left]
  | _ => cases hp

/-- A call puts its entity in its place exactly when no sibling without a key hides the place, and an
add finds a key of the crate to go on from. -/
theorem puts_in_place_iff (hLawful : fx.Lawful) (op : WriterCall) (db : Database) :
    PutsInPlace fx op db ↔ KeysSuffice fx op db := by
  constructor
  · intro h
    exact ⟨fun p hp => (reorders_iff hLawful hp).mp (h.reordered p hp),
      fun p hp => (adds_iff hLawful hp).mp (h.added p hp)⟩
  · intro h
    exact ⟨fun p hp e db' => unchanged_of_reorders hp,
      fun p hp => (reorders_iff hLawful hp).mpr (h.reordered p hp),
      fun p hp => (adds_iff hLawful hp).mpr (h.added p hp)⟩

/-- The crate on the keys that a list gets at its ends: digits and the terminator `80`. -/
def endKeys : FractionalIndex where
  Key := List Char
  fromString s :=
    match s.toList.reverse with
    | '0' :: '8' :: digits => .ok digits.reverse
    | _ => .error "missing terminator"
  toString digits := String.ofList (digits ++ ['8', '0'])
  default := []
  newAfter digits := digits ++ ['8', '1']
  newBefore digits := digits ++ ['7', 'f']
  newBetween _ _ := none

theorem endKeys_lt (digits l l' : List Char) (h : l < l') :
    String.ofList (digits ++ l) < String.ofList (digits ++ l') := by
  rw [String.lt_iff_toList_lt, String.toList_ofList, String.toList_ofList]
  exact List.append_left_lt h

theorem endKeys_lawful : endKeys.Lawful where
  own s key h := by
    dsimp only [endKeys] at h ⊢
    split at h
    · next digits hDigits =>
      cases h
      refine String.toList_inj.mp ?_
      rw [String.toList_ofList, List.reverse_eq_iff.mp hDigits]
      simp
    · exact nomatch h
  newBefore_lt (digits : List Char) := by
    have h := endKeys_lt digits (['7', 'f'] ++ ['8', '0']) ['8', '0'] (by decide)
    rw [← List.append_assoc] at h
    exact h
  lt_newAfter (digits : List Char) := by
    have h := endKeys_lt digits ['8', '0'] (['8', '1'] ++ ['8', '0']) (by decide)
    rw [← List.append_assoc] at h
    exact h
  newBetween_lt := nofun

/-- An epoch with the phases `a` and `b`, with these sort keys. -/
def twoPhases (a b : Option String) : Database :=
  { Database.empty with
    epochs := ⟨[⟨1, "e", ⟨"Epoch", none, false, "00000001"⟩⟩], by decide, by decide⟩
    phases := ⟨[⟨1, "a", ⟨"A", .pending, 1, .regular, a, none, none⟩⟩,
      ⟨2, "b", ⟨"B", .pending, 1, .regular, b, none, none⟩⟩], by simp, by simp⟩ }

theorem puts_in_place_iff_top :
    PutsInPlace endKeys (.reorderPhase "b" "top") (twoPhases (some "80") (some "8180")) := by
  refine (puts_in_place_iff endKeys_lawful _ _).mpr ⟨fun p hp place _ _ hHidden => ?_, nofun⟩
  cases hp
  obtain ⟨⟨item, hItem, hNone⟩, -⟩ := hHidden
  have hKeyed : ((twoPhases (some "80") (some "8180")).others ⟨.phase, 1, "b", "top"⟩).all
      (fun item => item.2.isSome) = true := by decide +kernel
  have hSome := List.all_eq_true.mp hKeyed item hItem
  rw [hNone] at hSome
  exact nomatch hSome

/-- A phase that is added stands before those without a key, and no epoch is added behind a backfilled
one. -/
theorem added_out_of_place :
    ¬ PutsInPlace endKeys (.addPhase "c" "e" "C" .regular) (twoPhases none none) ∧
      ¬ PutsInPlace endKeys (.addEpoch "f" "Epoch 2") (twoPhases none none) := by
  constructor
  · intro h
    obtain ⟨reply, db', hRun, hIds⟩ := h.added ⟨.phase, 1, "c", "bottom"⟩ (by decide +kernel)
    obtain rfl : _ = db' := congrArg Prod.snd hRun
    exact absurd hIds (by decide +kernel)
  · intro h
    obtain ⟨reply, db', hRun, hIds⟩ := h.added ⟨.epoch, 0, "f", "bottom"⟩ (by decide +kernel)
    have hOk : ((WriterCall.addEpoch "f" "Epoch 2").exec endKeys (twoPhases none none)).1.isOk = true := by
      rw [hRun]
      rfl
    exact absurd hOk (by decide +kernel)

end Exosuit.Plan
