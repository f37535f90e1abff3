import Exosuit.Merge.Spot

/-!
# What a merge preserves

At every path a side's change is in the result, or both sides changed the
container there and the paths below it say what became of the changes. The
driver does so unless it meets a spot that both sides add and that it treats as
if one of them had been there before.
-/

namespace Exosuit.Merge

/-- The result has what a side has. -/
def Has (r x : Option Value) : Prop := r = x ∨ same r x = true

/-- Both sides changed one container and the result is one as well. -/
structure Nested (b a c r : Option Value) : Prop where
  current : same a b = false
  other : same c b = false
  container : shapeOf a ≠ .leaf
  sameOther : shapeOf c = shapeOf a
  result : shapeOf r = shapeOf a

structure PreservesAt (b a c r : Option Value) : Prop where
  current : same a b = false → Has r a ∨ Nested b a c r
  other : same c b = false → Has r c ∨ Nested b a c r
  untouched : same a b = true → same c b = true → Has r b

def Preserves (b a c r : Option Value) : Prop :=
  ∀ path, PreservesAt (follow b path) (follow a path) (follow c path) (follow r path)

variable {b a c r : Option Value}

theorem Has.refl (r : Option Value) : Has r r := .inl rfl

theorem same_follow (h : same a c = true) (path : List Step) :
    same (follow a path) (follow c path) = true := by
  induction path generalizing a c with
  | nil => exact h
  | cons step path ih => exact ih (same_child h step)

theorem follow_none (path : List Step) : follow none path = none := by
  induction path with
  | nil => rfl
  | cons step path ih => exact ih

theorem preserves_iff : Preserves b a c r ↔ PreservesAt b a c r ∧
    ∀ step, Preserves (child b step) (child a step) (child c step) (child r step) := by
  constructor
  · intro h
    exact ⟨h [], fun step path => h (step :: path)⟩
  · rintro ⟨hHere, hBelow⟩ path
    cases path with
    | nil => exact hHere
    | cons step path => exact hBelow step path

theorem shapeOf_eq_of_has (h : Has r a) : shapeOf r = shapeOf a :=
  h.elim (congrArg shapeOf) shapeOf_eq_of_same

theorem Nested.unbased (h : Nested b a c r) : Nested none a c r := by
  refine { h with current := ?_, other := ?_ }
  · cases a with
    | none => exact absurd rfl h.container
    | some a => rfl
  · cases c with
    | none => exact absurd h.sameOther.symm h.container
    | some c => rfl

/-! ## Settled merges -/

theorem preserves_of_sides (h : same a c = true) : Preserves b a c a := by
  intro path
  exact ⟨fun _ => .inl (.refl _), fun _ => .inl (.inr (same_follow h path)), fun hab _ => .inr hab⟩

theorem preserves_of_left (h : same a b = true) : Preserves b a c c := by
  intro path
  have hab := same_follow h path
  exact ⟨fun hne => absurd hab (by simp [hne]), fun _ => .inl (.refl _), fun _ hcb => .inr hcb⟩

theorem preserves_of_right (h : same c b = true) : Preserves b a c a := by
  intro path
  have hcb := same_follow h path
  exact ⟨fun _ => .inl (.refl _), fun hne => absurd hcb (by simp [hne]), fun hab _ => .inr hab⟩

/-! ## Visited spots -/

/-- The spots that the merge looks at, starting from one of them. -/
inductive Spot.Visits : Spot → Spot → Prop
  | here (s : Spot) : Visits s s
  | descend {s s' : Spot} {step : Step} (h : s.Descends) (hVisits : Visits (s.below step) s') :
    Visits s s'

/-- The two sides changed the spot in ways that do not go together. -/
def Spot.Collides (s : Spot) : Prop :=
  (s.Contested ∧ ¬ s.Descends) ∨
  (s.base ≠ none ∧ s.current ≠ none ∧ s.other = none ∧ same s.current s.base = false) ∨
  (s.base ≠ none ∧ s.current = none ∧ s.other ≠ none ∧ same s.other s.base = false)

/-- What the current side adds is not in what the other side adds. -/
structure Overwritten (a c : Option Value) : Prop where
  added : a ≠ none
  lost : ¬ Has c a
  apart : shapeOf a = .leaf ∨ shapeOf c ≠ shapeOf a

/-- Both sides add the spot, differently, and the driver takes one of the two: under
an id it takes the other side, under a key it drops an empty table. -/
structure Spot.Loses (s : Spot) : Prop where
  base : s.base = none
  current : s.current ≠ none
  other : s.other ≠ none
  sides : same s.current s.other = false
  dropped :
    (s.place = .id ∧ ∃ path, Overwritten (follow s.current path) (follow s.other path)) ∨
    (s.place ≠ .id ∧ same s.current (some .emptyTable) = true ∧ shapeOf s.other ≠ .table) ∨
    (s.place ≠ .id ∧ same s.other (some .emptyTable) = true ∧ shapeOf s.current ≠ .table)

theorem Overwritten.not_preserves (h : Overwritten a c) (hNone : PreservesAt none a c r)
    (hSelf : PreservesAt a a c r) : False := by
  have hApart : ∀ {b}, ¬ Nested b a c r := fun hNested =>
    h.apart.elim hNested.container fun hne => hne hNested.sameOther
  have hAdded : same a none = false := by
    cases a with
    | none => exact absurd rfl h.added
    | some a => rfl
  have hChanged : same c a = false := by
    rw [← Bool.not_eq_true]
    exact fun hSame => h.lost (.inr hSame)
  have hCurrent := (hNone.current hAdded).resolve_right hApart
  have hOther := (hSelf.other hChanged).resolve_right hApart
  refine h.lost ?_
  rcases hCurrent with rfl | hra
  · rcases hOther with rfl | hrc
    · exact .refl _
    · exact .inr (same_symm hrc)
  · rcases hOther with rfl | hrc
    · exact .inr hra
    · exact .inr (same_trans (same_symm hrc) hra)

/-- Under an id, an absent base may stand for the current side unless it is overwritten. -/
theorem PreservesAt.unbased (h : PreservesAt a a c r) (hKept : ¬ Overwritten a c) :
    PreservesAt none a c r := by
  constructor
  · intro hAdded
    cases hSame : same c a with
    | true =>
      cases hSelf : same a a with
      | true => exact .inl (h.untouched hSelf hSame)
      | false => exact (h.current hSelf).imp id Nested.unbased
    | false =>
      rcases h.other hSame with hHas | hNested
      · by_cases hCovers : Has c a
        · rcases hCovers with rfl | hTrue
          · exact .inl hHas
          · simp [hTrue] at hSame
        · have hPresent : a ≠ none := by
            rintro rfl
            cases hAdded
          have hShapes : shapeOf a ≠ .leaf ∧ shapeOf c = shapeOf a := by
            by_contra hApart
            rw [not_and_or, not_not] at hApart
            exact hKept ⟨hPresent, hCovers, hApart⟩
          have hPresentOther : same c none = false := by
            cases c with
            | none => exact absurd hShapes.2.symm hShapes.1
            | some c => rfl
          exact .inr ⟨hAdded, hPresentOther, hShapes.1, hShapes.2,
            (shapeOf_eq_of_has hHas).trans hShapes.2⟩
      · exact .inr hNested.unbased
  · intro hAdded
    cases hSame : same c a with
    | false => exact (h.other hSame).imp id Nested.unbased
    | true =>
      have hSides := same_symm hSame
      rcases h.untouched (same_trans hSides hSame) hSame with rfl | hHas
      · exact .inl (.inr hSides)
      · exact .inl (.inr (same_trans hHas hSides))
  · intro ha hc
    cases a with
    | some a => cases ha
    | none => exact h.untouched rfl hc

namespace Spot

variable {s s' : Spot}

theorem effectiveBase_of_base (h : s.base ≠ none) : s.effectiveBase = s.base := by
  obtain ⟨b, hb⟩ := Option.ne_none_iff_exists'.mp h
  simp [effectiveBase, hb]

theorem effectiveBase_of_id (hBase : s.base = none) (hPlace : s.place = .id) :
    s.effectiveBase = s.current := by
  simp [effectiveBase, hBase, hPlace]

theorem effectiveBase_of_key (hBase : s.base = none) (hPlace : s.place ≠ .id) :
    s.effectiveBase = some .emptyTable := by
  unfold effectiveBase
  split <;> simp_all

theorem merge_of_present {a c : Value} (hCurrent : s.current = some a) (hOther : s.other = some c) :
    ∃ e, s.effectiveBase = some e ∧ s.merge = (some (mergeValue e a c).1, (mergeValue e a c).2) := by
  have hBase : ∃ e, s.effectiveBase = some e := by
    unfold effectiveBase
    split
    · exact ⟨_, rfl⟩
    · exact ⟨a, hCurrent⟩
    · exact ⟨_, rfl⟩
  obtain ⟨e, he⟩ := hBase
  refine ⟨e, he, ?_⟩
  rw [merge, hCurrent, hOther, he]
  rfl

theorem merge_settled {a c : Value} (hCurrent : s.current = some a) (hOther : s.other = some c)
    (h : ¬ s.Contested) :
    (same s.current s.other = true ∧ s.merge = (s.current, false)) ∨
    (same s.current s.other = false ∧ same s.current s.effectiveBase = true ∧
      s.merge = (s.other, false)) ∨
    (same s.current s.other = false ∧ same s.current s.effectiveBase = false ∧
      same s.other s.effectiveBase = true ∧ s.merge = (s.current, false)) := by
  obtain ⟨e, he, hMerge⟩ := merge_of_present hCurrent hOther
  rw [hMerge]
  cases hSides : same s.current s.other with
  | true =>
    rw [mergeValue_of_sides (by simpa [same, hCurrent, hOther] using hSides), hCurrent]
    exact .inl ⟨rfl, rfl⟩
  | false =>
    have hSides' : (a == c) = false := by simpa [same, hCurrent, hOther] using hSides
    cases hLeft : same s.current s.effectiveBase with
    | true =>
      rw [mergeValue_of_left hSides' (by simpa [same, hCurrent, he] using hLeft), hOther]
      exact .inr (.inl ⟨rfl, rfl, rfl⟩)
    | false =>
      have hLeft' : (a == e) = false := by simpa [same, hCurrent, he] using hLeft
      cases hRight : same s.other s.effectiveBase with
      | true =>
        rw [mergeValue_of_right hSides' hLeft' (by simpa [same, hOther, he] using hRight), hCurrent]
        exact .inr (.inr ⟨rfl, rfl, rfl, rfl⟩)
      | false => exact absurd ⟨by simp [hCurrent], by simp [hOther], hSides, hLeft, hRight⟩ h

theorem merge_undescended (h : s.Contested) (hNot : ¬ s.Descends) : s.merge.2 = true := by
  obtain ⟨a, hCurrent⟩ := Option.ne_none_iff_exists'.mp h.current
  obtain ⟨c, hOther⟩ := Option.ne_none_iff_exists'.mp h.other
  obtain ⟨e, he, hMerge⟩ := merge_of_present hCurrent hOther
  have hSides : (a == c) = false := by simpa [same, hCurrent, hOther] using h.sides
  have hLeft : (a == e) = false := by simpa [same, hCurrent, he] using h.left
  have hRight : (c == e) = false := by simpa [same, hOther, he] using h.right
  rw [hMerge, mergeValue.eq_def, hSides, hLeft, hRight]
  simp only [Bool.false_eq_true, if_false]
  split
  · refine absurd ⟨h, ?_, ?_, ?_⟩ hNot
    · rw [hCurrent]
      rintro ⟨⟩
    · rw [hCurrent, hOther]
      rfl
    · rw [hCurrent, he]
      rfl
  · split
    · rename_i hb ha hc
      refine absurd ⟨h, ?_, ?_, ?_⟩ hNot <;>
        simp [hCurrent, hOther, he, shapeOf, Value.shape, hb, ha, hc]
    · rfl
  · rfl

theorem merge_oneSided (h : s.current = none ∨ s.other = none) :
    (s.merge.2 = true ↔ s.Collides) ∧
    (s.merge.2 = false → Preserves s.base s.current s.other s.merge.1) := by
  have hNot : ¬ s.Contested := fun hC => h.elim hC.current hC.other
  match hCurrent : s.current, hOther : s.other with
  | some a, some c => simp [hCurrent, hOther] at h
  | none, none =>
    refine ⟨?_, fun _ => ?_⟩
    · simp [Collides, merge, hCurrent, hOther, hNot]
    · rw [merge_of_absent hCurrent hOther]
      exact preserves_of_sides rfl
  | some a, none =>
    cases hBase : s.base with
    | none =>
      refine ⟨?_, fun _ => ?_⟩
      · simp [Collides, merge, hCurrent, hOther, hBase, hNot]
      · simp only [merge, hCurrent, hOther, hBase]
        exact preserves_of_right rfl
    | some b =>
      cases hSame : a == b with
      | true =>
        refine ⟨?_, fun _ => ?_⟩
        · simp [Collides, merge, hCurrent, hOther, hBase, hNot, hSame, same]
        · simp only [merge, hCurrent, hOther, hBase, hSame, if_true]
          exact preserves_of_left hSame
      | false =>
        refine ⟨?_, fun hFlag => ?_⟩
        · simp [Collides, merge, hCurrent, hOther, hBase, hNot, hSame, same]
        · simp [merge, hCurrent, hOther, hBase, hSame] at hFlag
  | none, some c =>
    cases hBase : s.base with
    | none =>
      refine ⟨?_, fun _ => ?_⟩
      · simp [Collides, merge, hCurrent, hOther, hBase, hNot]
      · simp only [merge, hCurrent, hOther, hBase]
        exact preserves_of_left rfl
    | some b =>
      cases hSame : c == b with
      | true =>
        refine ⟨?_, fun _ => ?_⟩
        · simp [Collides, merge, hCurrent, hOther, hBase, hNot, hSame, same]
        · simp only [merge, hCurrent, hOther, hBase, hSame, if_true]
          exact preserves_of_right hSame
      | false =>
        refine ⟨?_, fun hFlag => ?_⟩
        · simp [Collides, merge, hCurrent, hOther, hBase, hNot, hSame, same]
        · simp [merge, hCurrent, hOther, hBase, hSame] at hFlag

noncomputable def size (s : Spot) : Nat := (s.current.map sizeOf).getD 0

theorem size_below (h : s.Descends) (step : Step) : (s.below step).size < s.size := by
  obtain ⟨a, hCurrent⟩ := Option.ne_none_iff_exists'.mp h.current
  have hPos : 0 < sizeOf a := by cases a <;> simp +arith
  unfold size below
  rw [hCurrent]
  cases hChild : child (some a) step with
  | none => exact hPos
  | some w => exact sizeOf_child hChild

theorem Descends.child_merge (h : s.Descends) (step : Step) :
    child s.merge.1 step = (s.below step).merge.1 := by
  obtain ⟨r, conflicted, hMerge, hMerged⟩ := h.merge
  rw [hMerge]
  exact hMerged.child step

theorem Descends.flag_below (h : s.Descends) (hFlag : s.merge.2 = false) (step : Step) :
    (s.below step).merge.2 = false := by
  obtain ⟨r, conflicted, hMerge, hMerged⟩ := h.merge
  rw [hMerge] at hFlag
  rw [← Bool.not_eq_true]
  intro hConflict
  exact absurd (hMerged.conflicted.mpr ⟨step, hConflict⟩) (ne_true_of_eq_false hFlag)

/-! ## Conflicts -/

theorem visits_iff : s.Visits s' ↔ s' = s ∨ s.Descends ∧ ∃ step, (s.below step).Visits s' := by
  constructor
  · rintro (_ | ⟨hDescends, hVisits⟩)
    · exact .inl rfl
    · exact .inr ⟨hDescends, _, hVisits⟩
  · rintro (rfl | ⟨hDescends, step, hVisits⟩)
    · exact .here s'
    · exact .descend hDescends hVisits

theorem Descends.not_collides (h : s.Descends) : ¬ s.Collides := by
  rintro (⟨_, hNot⟩ | ⟨_, _, hOther, _⟩ | ⟨_, hCurrent, _, _⟩)
  · exact hNot h
  · exact h.other hOther
  · exact h.current hCurrent

/-- The flag is set when the merge meets a collision, and only then. -/
theorem conflicted_iff (s : Spot) : s.merge.2 = true ↔ ∃ s', s.Visits s' ∧ s'.Collides := by
  by_cases hDescends : s.Descends
  · obtain ⟨r, conflicted, hMerge, hMerged⟩ := hDescends.merge
    rw [hMerge, hMerged.conflicted]
    constructor
    · rintro ⟨step, hFlag⟩
      obtain ⟨s', hVisits, hCollides⟩ := (conflicted_iff (s.below step)).mp hFlag
      exact ⟨s', .descend hDescends hVisits, hCollides⟩
    · rintro ⟨s', hVisits, hCollides⟩
      rcases visits_iff.mp hVisits with rfl | ⟨_, step, hBelow⟩
      · exact absurd hCollides hDescends.not_collides
      · exact ⟨step, (conflicted_iff (s.below step)).mpr ⟨s', hBelow, hCollides⟩⟩
  · have hHere : s.merge.2 = true ↔ s.Collides := by
      rcases Option.eq_none_or_eq_some s.current with hCurrent | ⟨a, hCurrent⟩
      · exact (merge_oneSided (.inl hCurrent)).1
      rcases Option.eq_none_or_eq_some s.other with hOther | ⟨c, hOther⟩
      · exact (merge_oneSided (.inr hOther)).1
      by_cases hContested : s.Contested
      · exact iff_of_true (merge_undescended hContested hDescends) (.inl ⟨hContested, hDescends⟩)
      · refine iff_of_false ?_ ?_
        · rcases merge_settled hCurrent hOther hContested with
            ⟨_, hMerge⟩ | ⟨_, _, hMerge⟩ | ⟨_, _, _, hMerge⟩ <;> simp [hMerge]
        · simp [Collides, hContested, hCurrent, hOther]
    rw [hHere]
    constructor
    · exact fun hCollides => ⟨s, .here s, hCollides⟩
    · rintro ⟨s', hVisits, hCollides⟩
      rcases visits_iff.mp hVisits with rfl | ⟨hDescends', _⟩
      · exact hCollides
      · exact absurd hDescends' hDescends
termination_by s.size
decreasing_by all_goals exact size_below hDescends _

/-! ## Preservation -/

theorem preserves_effective {a c : Value} (hCurrent : s.current = some a) (hOther : s.other = some c)
    (hFlag : s.merge.2 = false) (hBelow : s.Descends → ∀ step, Preserves (s.below step).base
      (s.below step).current (s.below step).other (s.below step).merge.1) :
    Preserves s.effectiveBase s.current s.other s.merge.1 := by
  by_cases hContested : s.Contested
  · by_cases hDescends : s.Descends
    · obtain ⟨r, conflicted, hMerge, hMerged⟩ := hDescends.merge
      have hNested : Nested s.effectiveBase s.current s.other s.merge.1 :=
        { current := hContested.left
          other := hContested.right
          container := hDescends.container
          sameOther := hDescends.sameOther
          result := by rw [hMerge]; exact hMerged.shape }
      refine preserves_iff.mpr ⟨⟨fun _ => .inr hNested, fun _ => .inr hNested, fun hSame => ?_⟩, ?_⟩
      · exact absurd hSame (by simp [hContested.left])
      · intro step
        rw [hDescends.child_merge]
        exact hBelow hDescends step
    · rw [merge_undescended hContested hDescends] at hFlag
      cases hFlag
  · rcases merge_settled hCurrent hOther hContested with
      ⟨hSame, hMerge⟩ | ⟨_, hSame, hMerge⟩ | ⟨_, _, hSame, hMerge⟩ <;> rw [hMerge]
    · exact preserves_of_sides hSame
    · exact preserves_of_left hSame
    · exact preserves_of_right hSame

theorem child_emptyTable (step : Step) : child (some .emptyTable) step = none := by
  cases step <;> rfl

theorem preserves_of_emptyTable {a c : Value} (hCurrent : s.current = some a)
    (hOther : s.other = some c) (hBase : s.base = none) (hPlace : s.place ≠ .id)
    (hLoses : ¬ s.Loses)
    (h : Preserves (some .emptyTable) s.current s.other s.merge.1) :
    Preserves none s.current s.other s.merge.1 := by
  have hEffective := effectiveBase_of_key hBase hPlace
  by_cases hSides : same s.current s.other = true
  · rcases merge_settled hCurrent hOther (fun hC => by simp [hC.sides] at hSides) with
      ⟨_, hMerge⟩ | ⟨hFalse, _⟩ | ⟨hFalse, _⟩
    · rw [hMerge]
      exact preserves_of_sides hSides
    · simp [hFalse] at hSides
    · simp [hFalse] at hSides
  rw [Bool.not_eq_true] at hSides
  have hPresent : s.current ≠ none ∧ s.other ≠ none := by simp [hCurrent, hOther]
  -- a dropped empty table is harmless when the table of the other side takes its place
  have hTable : ∀ {v w : Option Value}, same v (some .emptyTable) = true → shapeOf w = .table →
      shapeOf v ≠ .leaf ∧ shapeOf w = shapeOf v := by
    intro v w hv hw
    have hShape : shapeOf v = .table := shapeOf_eq_of_same hv
    exact ⟨by simp [hShape], by rw [hShape, hw]⟩
  obtain ⟨hHere, hBelow⟩ := preserves_iff.mp h
  refine preserves_iff.mpr ⟨⟨fun _ => ?_, fun _ => ?_, fun hSame => ?_⟩, fun step => ?_⟩
  · cases hLeft : same s.current (some .emptyTable) with
    | false =>
      exact (hHere.current hLeft).imp id Nested.unbased
    | true =>
      rcases merge_settled hCurrent hOther (fun hC => by simp [hC.left, ← hEffective] at hLeft) with
        ⟨hTrue, _⟩ | ⟨_, _, hMerge⟩ | ⟨_, hFalse, _⟩
      · simp [hTrue] at hSides
      · have hOtherTable : shapeOf s.other = .table := by
          by_contra hne
          exact hLoses ⟨hBase, hPresent.1, hPresent.2, hSides, .inr (.inl ⟨hPlace, hLeft, hne⟩)⟩
        obtain ⟨hContainer, hShape⟩ := hTable hLeft hOtherTable
        rw [hMerge]
        refine .inr ⟨?_, ?_, hContainer, hShape, hShape⟩ <;> simp [hCurrent, hOther, same]
      · rw [hEffective, hLeft] at hFalse
        cases hFalse
  · cases hRight : same s.other (some .emptyTable) with
    | false =>
      exact (hHere.other hRight).imp id Nested.unbased
    | true =>
      rcases merge_settled hCurrent hOther (fun hC => by simp [hC.right, ← hEffective] at hRight) with
        ⟨hTrue, _⟩ | ⟨_, _, hMerge⟩ | ⟨_, _, _, hMerge⟩
      · simp [hTrue] at hSides
      · rw [hMerge]
        exact .inl (.refl _)
      · have hCurrentTable : shapeOf s.current = .table := by
          by_contra hne
          exact hLoses ⟨hBase, hPresent.1, hPresent.2, hSides, .inr (.inr ⟨hPlace, hRight, hne⟩)⟩
        obtain ⟨hContainer, hShape⟩ := hTable hRight hCurrentTable
        rw [hMerge]
        refine .inr ⟨?_, ?_, hShape ▸ hContainer, hShape.symm, rfl⟩ <;> simp [hCurrent, hOther, same]
  · rw [hCurrent] at hSame
    cases hSame
  · have hChild := hBelow step
    rwa [child_emptyTable] at hChild

theorem preserves (s : Spot) (hFlag : s.merge.2 = false)
    (hLoses : ∀ s', s.Visits s' → ¬ s'.Loses) :
    Preserves s.base s.current s.other s.merge.1 := by
  rcases Option.eq_none_or_eq_some s.current with hCurrent | ⟨a, hCurrent⟩
  · exact (merge_oneSided (.inl hCurrent)).2 hFlag
  rcases Option.eq_none_or_eq_some s.other with hOther | ⟨c, hOther⟩
  · exact (merge_oneSided (.inr hOther)).2 hFlag
  have hEffective : Preserves s.effectiveBase s.current s.other s.merge.1 := by
    refine preserves_effective hCurrent hOther hFlag fun hDescends step => ?_
    exact preserves (s.below step) (hDescends.flag_below hFlag step)
      fun s' hVisits => hLoses s' (.descend hDescends hVisits)
  have hHere := hLoses s (.here s)
  by_cases hBase : s.base = none
  · rw [hBase]
    by_cases hPlace : s.place = .id
    · rw [effectiveBase_of_id hBase hPlace] at hEffective
      cases hSides : same s.current s.other with
      | true =>
        rcases merge_settled hCurrent hOther (fun hC => by simp [hC.sides] at hSides) with
          ⟨_, hMerge⟩ | ⟨hFalse, _⟩ | ⟨hFalse, _⟩
        · rw [hMerge]
          exact preserves_of_sides hSides
        · simp [hFalse] at hSides
        · simp [hFalse] at hSides
      | false =>
        intro path
        rw [follow_none]
        refine (hEffective path).unbased fun hOver => hHere ?_
        exact ⟨hBase, by simp [hCurrent], by simp [hOther], hSides, .inl ⟨hPlace, path, hOver⟩⟩
    · rw [effectiveBase_of_key hBase hPlace] at hEffective
      exact preserves_of_emptyTable hCurrent hOther hBase hPlace hHere hEffective
  · rwa [effectiveBase_of_base hBase] at hEffective
termination_by s.size
decreasing_by exact size_below hDescends step

/-! ## Loss -/

theorem visits_of_base_eq (hBase : s.base = s.current) (hVisits : s.Visits s') :
    s'.base = s'.current := by
  induction hVisits with
  | here => exact hBase
  | @descend s _ step hDescends _ ih =>
    refine ih ?_
    have hSome : s.base ≠ none := hBase ▸ hDescends.current
    simp only [below, effectiveBase_of_base hSome, hBase]

theorem Loses.ne_base (h : s.Loses) : s.base ≠ s.current := by
  rw [h.base]
  exact h.current.symm

theorem Loses.not_preserves (h : s.Loses) (hFlag : s.merge.2 = false) :
    ¬ Preserves s.base s.current s.other s.merge.1 := by
  obtain ⟨a, hCurrent⟩ := Option.ne_none_iff_exists'.mp h.current
  obtain ⟨c, hOther⟩ := Option.ne_none_iff_exists'.mp h.other
  rw [h.base]
  intro hPreserves
  have hAdded : same s.current none = false ∧ same s.other none = false := by
    simp [hCurrent, hOther, same]
  rcases h.dropped with ⟨hPlace, path, hOver⟩ | ⟨hPlace, hEmpty, hShape⟩ | ⟨hPlace, hEmpty, hShape⟩
  · let s₀ : Spot := ⟨.root, s.current, s.current, s.other⟩
    have hMerge : s₀.merge = s.merge := by
      obtain ⟨e, he, hMerge⟩ := merge_of_present hCurrent hOther
      obtain ⟨e', he', hMerge'⟩ := merge_of_present (s := s₀) hCurrent hOther
      have hBase : s₀.effectiveBase = s.effectiveBase := by
        rw [effectiveBase_of_id h.base hPlace, effectiveBase_of_base h.current]
      cases he.symm.trans (hBase.symm.trans he')
      rw [hMerge, hMerge']
    have hSelf : Preserves s.current s.current s.other s.merge.1 := by
      rw [← hMerge] at hFlag ⊢
      exact preserves s₀ hFlag fun s' hVisits hLoses =>
        hLoses.ne_base (visits_of_base_eq (s := s₀) rfl hVisits)
    have hPath := hPreserves path
    rw [follow_none] at hPath
    exact hOver.not_preserves hPath (hSelf path)
  · have hLeft : same s.current s.effectiveBase = true := by
      rw [effectiveBase_of_key h.base hPlace, hEmpty]
    have hCurrentShape : shapeOf s.current = .table := shapeOf_eq_of_same hEmpty
    rcases merge_settled hCurrent hOther (fun hC => by simp [hC.left] at hLeft) with
      ⟨hSides, _⟩ | ⟨_, _, hMerge⟩ | ⟨_, hFalse, _⟩
    · simp [h.sides] at hSides
    · rw [hMerge] at hPreserves
      rcases (hPreserves []).current hAdded.1 with hHas | hNested
      · exact hShape ((shapeOf_eq_of_has hHas).trans hCurrentShape)
      · exact hShape (hNested.sameOther.trans hCurrentShape)
    · simp [hFalse] at hLeft
  · have hRight : same s.other s.effectiveBase = true := by
      rw [effectiveBase_of_key h.base hPlace, hEmpty]
    have hOtherShape : shapeOf s.other = .table := shapeOf_eq_of_same hEmpty
    rcases merge_settled hCurrent hOther (fun hC => by simp [hC.right] at hRight) with
      ⟨hSides, _⟩ | ⟨_, hLeft, _⟩ | ⟨_, _, _, hMerge⟩
    · simp [h.sides] at hSides
    · rw [effectiveBase_of_key h.base hPlace] at hLeft
      exact hShape (shapeOf_eq_of_same hLeft)
    · rw [hMerge] at hPreserves
      rcases (hPreserves []).other hAdded.2 with hHas | hNested
      · exact hShape ((shapeOf_eq_of_has hHas).trans hOtherShape)
      · exact hShape (hNested.sameOther.symm.trans hOtherShape)

theorem Visits.not_preserves (hVisits : s.Visits s') (hLoses : s'.Loses) (hFlag : s.merge.2 = false) :
    ¬ Preserves s.base s.current s.other s.merge.1 := by
  induction hVisits with
  | here s => exact hLoses.not_preserves hFlag
  | @descend s s' step hDescends hVisits ih =>
    intro hPreserves
    refine ih hLoses (hDescends.flag_below hFlag step) ?_
    have hChild := (preserves_iff.mp hPreserves).2 step
    rw [hDescends.child_merge] at hChild
    have hBase : child s.base step = (s.below step).base := by
      rw [Spot.below]
      by_cases hNone : s.base = none
      · by_cases hPlace : s.place = .id
        · have hSame : (s.below step).base = (s.below step).current := by
            rw [Spot.below, effectiveBase_of_id hNone hPlace]
          exact absurd (visits_of_base_eq hSame hVisits) hLoses.ne_base
        · rw [effectiveBase_of_key hNone hPlace, hNone, child_emptyTable]
          rfl
      · rw [effectiveBase_of_base hNone]
    rwa [hBase] at hChild

end Spot

def Spot.start (base current other : Value) : Spot := ⟨.root, some base, some current, some other⟩

theorem Spot.start_not_preserves {base current other : Value} {s : Spot}
    (hVisits : (Spot.start base current other).Visits s) (hLoses : s.Loses)
    (hConflict : (mergeValue base current other).2 = false) :
    ¬ Preserves (some base) (some current) (some other) (some (mergeValue base current other).1) :=
  hVisits.not_preserves hLoses hConflict

/-- Without a conflict the merge preserves both sides, exactly when it meets no spot
where it loses an addition, or a collision as well. -/
theorem merge_preserves_iff (base current other : Value) :
    ((mergeValue base current other).2 = false → Preserves (some base) (some current) (some other)
      (some (mergeValue base current other).1)) ↔
    ((∃ s, (Spot.start base current other).Visits s ∧ s.Loses) →
      ∃ s, (Spot.start base current other).Visits s ∧ s.Collides) := by
  have hFlag : (Spot.start base current other).merge.2 = (mergeValue base current other).2 := rfl
  rw [← Spot.conflicted_iff, hFlag]
  constructor
  · rintro hPreserves ⟨s, hVisits, hLoses⟩
    by_contra hConflict
    rw [Bool.not_eq_true] at hConflict
    exact Spot.start_not_preserves hVisits hLoses hConflict (hPreserves hConflict)
  · intro hCollides hConflict
    refine (Spot.start base current other).preserves hConflict fun s hVisits hLoses => ?_
    exact absurd (hCollides ⟨s, hVisits, hLoses⟩) (ne_true_of_eq_false hConflict)

/-! ## An idea added twice -/

def ideas (items : List Value) : Value := .table [("ideas", .array items)]

def idea (value : Int) : Value := .table [("id", .string "idea-1"), ("value", .integer value)]

def otherIdea : Value := .table [("id", .string "idea-2"), ("value", .integer 2)]

theorem merge_loses_idea :
    (mergeValue (ideas []) (ideas [idea 1]) (ideas [idea 2])).2 = false ∧
    ¬ Preserves (some (ideas [])) (some (ideas [idea 1])) (some (ideas [idea 2]))
      (some (mergeValue (ideas []) (ideas [idea 1]) (ideas [idea 2])).1) := by
  have hConflict : (mergeValue (ideas []) (ideas [idea 1]) (ideas [idea 2])).2 = false := by
    decide +kernel
  let root := Spot.start (ideas []) (ideas [idea 1]) (ideas [idea 2])
  have hRoot : root.Descends :=
    { current := nofun, other := nofun, sides := by decide, left := by decide, right := by decide,
      container := by decide, sameOther := by decide, sameBase := by decide }
  have hIdeas : (root.below (.key "ideas")).Descends :=
    { current := nofun, other := nofun, sides := by decide, left := by decide, right := by decide,
      container := by decide, sameOther := by decide, sameBase := by decide }
  have hLoses : ((root.below (.key "ideas")).below (.id "idea-1")).Loses := by
    refine ⟨rfl, nofun, nofun, by decide, .inl ⟨rfl, [.key "value"], nofun, ?_, .inl rfl⟩⟩
    rintro (hEq | hSame)
    · cases hEq
    · exact absurd hSame (by decide)
  exact ⟨hConflict, Spot.start_not_preserves (.descend hRoot (.descend hIdeas (.here _))) hLoses hConflict⟩

end Exosuit.Merge
