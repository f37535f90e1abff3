import Exosuit.Plan.PhaseOwner

/-!
# Ownership of a phase is exclusive

The log of a run is read from the oldest entry: each entry is legal for the
owner that the older ones leave. What the calls do not compare is asked of the
run: a finish clears what the finishing identity owns, a stale row is removed
only if it is the row that was found stale, and a claim that has written its
row finds a row again.
-/

namespace Exosuit.PhaseOwner

open Lib

def Entry.after : Entry → Option PhaseOwnerData → Option PhaseOwnerData
  | .claimed _ _ after, _ => some after
  | .ensured _ after, _ => some after
  | .released _ _ _ _, _ => none
  | .finished _ _, _ => none
  | .found _, owner | .claimReturned _ _ _, owner | .releaseReturned _ _ _, owner => owner

/-- The owner that a log leaves. -/
def ownerAfter (initial : Option PhaseOwnerData) : List Entry → Option PhaseOwnerData
  | [] => initial
  | entry :: older => entry.after (ownerAfter initial older)

/-- The claim has its identity in the row at this entry. -/
def Entry.Holds (claim : Claim) : Entry → Prop
  | .claimed claim' _ _ => claim' = claim
  | .found claim' => claim' = claim
  | _ => False

/-- The identity loses the row at this entry: it is cleared, or taken over. -/
def Entry.Ends (identity : Identity) : Entry → Prop
  | .claimed claim before after => claim.takeOver = true ∧ after.identity ≠ identity ∧
      ∃ owner, before = some owner ∧ owner.identity = identity
  | .released _ _ _ removed => removed.identity = identity
  | .finished _ removed => removed.identity = identity
  | _ => False

/-- What an entry may be after `older`, which leaves `before`. -/
def Entry.Legal (before : Option PhaseOwnerData) (older : List Entry) : Entry → Prop
  | .claimed claim before' after => before' = before ∧ after.identity = claim.current.identity ∧
      ∀ owner, before = some owner → owner.identity ≠ after.identity → claim.takeOver = true
  | .found claim => ∃ owner, before = some owner ∧ owner.identity = claim.current.identity
  | .ensured current after => before = none ∧ after.identity = current.identity
  | .released current loaded foundStale removed => before = some removed ∧
      (removed.identity = current.identity ∨ foundStale = true ∧ removed = loaded)
  | .finished current removed => before = some removed ∧ removed.identity = current.identity
  | .claimReturned claim ok wrote =>
      (ok = true → ∃ entry ∈ older, entry.Holds claim) ∧ (ok = false → wrote = false)
  | .releaseReturned _ ok removed => ok = false → removed = false

def Legal (initial : Option PhaseOwnerData) : List Entry → Prop
  | [] => True
  | entry :: older => entry.Legal (ownerAfter initial older) older ∧ Legal initial older

theorem legal_of_append {initial : Option PhaseOwnerData} {newer older : List Entry}
    (h : Legal initial (newer ++ older)) : Legal initial older := by
  induction newer with
  | nil => exact h
  | cons entry newer ih => exact ih h.2

/-! ## Two claims without take-over -/

theorem ownerAfter_of_not_ends {initial : Option PhaseOwnerData} {identity : Identity}
    {middle older : List Entry} (hLegal : Legal initial (middle ++ older))
    (hOwner : ∃ owner, ownerAfter initial older = some owner ∧ owner.identity = identity)
    (hNone : ∀ entry ∈ middle, ¬ entry.Ends identity) :
    ∃ owner, ownerAfter initial (middle ++ older) = some owner ∧ owner.identity = identity := by
  induction middle with
  | nil => exact hOwner
  | cons entry middle ih =>
    obtain ⟨owner, hBefore, hIdentity⟩ :=
      ih hLegal.2 fun e he => hNone e (List.mem_cons_of_mem _ he)
    have hEntry : entry.Legal (ownerAfter initial (middle ++ older)) (middle ++ older) := hLegal.1
    have hEnds := hNone entry List.mem_cons_self
    rw [hBefore] at hEntry
    rw [List.cons_append, ownerAfter, hBefore]
    cases entry with
    | claimed claim before after =>
      obtain ⟨rfl, -, hTakeOver⟩ := hEntry
      refine ⟨after, rfl, by_contra fun hOther => hEnds ⟨?_, hOther, owner, rfl, hIdentity⟩⟩
      exact hTakeOver owner rfl fun hSame => hOther (hSame.symm.trans hIdentity)
    | ensured current after => cases hEntry.1
    | released current loaded foundStale removed =>
      cases hEntry.1
      exact (hEnds hIdentity).elim
    | finished current removed =>
      cases hEntry.1
      exact (hEnds hIdentity).elim
    | found claim => exact ⟨owner, rfl, hIdentity⟩
    | claimReturned claim ok wrote => exact ⟨owner, rfl, hIdentity⟩
    | releaseReturned current ok removed => exact ⟨owner, rfl, hIdentity⟩

theorem owner_of_holds {initial : Option PhaseOwnerData} {claim : Claim} {entry : Entry}
    {older : List Entry} (hLegal : Legal initial (entry :: older)) (hHolds : entry.Holds claim) :
    ∃ owner, ownerAfter initial (entry :: older) = some owner ∧
      owner.identity = claim.current.identity := by
  cases entry with
  | claimed claim' before after =>
    cases hHolds
    exact ⟨after, rfl, hLegal.1.2.1⟩
  | found claim' =>
    cases hHolds
    exact hLegal.1
  | _ => exact hHolds.elim

/-- A claim without take-over gets the row only when nobody else has it. -/
theorem before_of_holds {initial : Option PhaseOwnerData} {claim : Claim} {entry : Entry}
    {older : List Entry} (hLegal : Legal initial (entry :: older)) (hHolds : entry.Holds claim)
    (hTakeOver : claim.takeOver = false) {owner : PhaseOwnerData}
    (hOwner : ownerAfter initial older = some owner) : owner.identity = claim.current.identity := by
  cases entry with
  | claimed claim' before after =>
    cases hHolds
    obtain ⟨-, hAfter, hOther⟩ := hLegal.1
    refine by_contra fun hDifferent => ?_
    have hTaken := hOther owner hOwner (hAfter ▸ hDifferent)
    exact absurd (hTakeOver.symm.trans hTaken) (by decide)
  | found claim' =>
    cases hHolds
    obtain ⟨owner', hOwner', hIdentity⟩ := hLegal.1
    rw [hOwner] at hOwner'
    cases hOwner'
    exact hIdentity
  | _ => exact hHolds.elim

theorem ended_between {initial : Option PhaseOwnerData} {log newer middle older : List Entry}
    {first second : Entry} {claim claim' : Claim} (hLegal : Legal initial log)
    (hLog : log = newer ++ second :: (middle ++ first :: older)) (hFirst : first.Holds claim)
    (hSecond : second.Holds claim') (hTakeOver : claim'.takeOver = false)
    (hIdentity : claim.current.identity ≠ claim'.current.identity) :
    ∃ entry ∈ middle, entry.Ends claim.current.identity := by
  subst hLog
  have hSuffix := legal_of_append hLegal
  refine by_contra fun hNone => ?_
  obtain ⟨owner, hOwner, hSame⟩ := ownerAfter_of_not_ends hSuffix.2
    (owner_of_holds (legal_of_append hSuffix.2) hFirst)
    fun entry hEntry hEnds => hNone ⟨entry, hEntry, hEnds⟩
  exact hIdentity (hSame.symm.trans (before_of_holds hSuffix hSecond hTakeOver hOwner))

/-! ## The invariant of a run -/

def Sound (initial : Option PhaseOwnerData) (s : Shared) : Prop :=
  ownerAfter initial s.log = s.owner ∧ Legal initial s.log

def Point.Assertion (point : Point) (log : List Entry) : Prop :=
  match point with
  | .claimWrite claim previous => ∀ owner, previous = some owner →
      owner.identity ≠ claim.current.identity → claim.takeOver = true
  | .claimView claim _ => ∃ entry ∈ log, entry.Holds claim
  | .releaseWrite current owner stale => owner.identity = current.identity ∨ stale = true
  | _ => True

/-- What the source does not compare, asked of a step. -/
def Compares (s : Shared) (event : Event) (point : Point) : Prop :=
  match event, point with
  | .advance _, .finishClear current =>
    ∀ owner, s.owner = some owner → owner.identity = current.identity
  | .advance _, .releaseWrite current loaded _ => ∀ owner, s.owner = some owner →
    owner.identity = loaded.identity → loaded.identity ≠ current.identity → owner = loaded
  | .advance _, .claimView _ true => s.owner ≠ none
  | .fail, .claimView _ true => False
  | _, _ => True

variable {initial : Option PhaseOwnerData} {s : Shared}

theorem Sound.add (h : Sound initial s) {entry : Entry} (hAfter : entry.after s.owner = s.owner)
    (hLegal : entry.Legal s.owner s.log) : Sound initial (s.add entry) := by
  refine ⟨?_, ?_, h.2⟩
  · rw [Shared.add, ownerAfter, h.1]
    exact hAfter
  · rw [h.1]
    exact hLegal

theorem Sound.write (h : Sound initial s) {owner : Option PhaseOwnerData} {entry : Entry}
    (hAfter : entry.after s.owner = owner) (hLegal : entry.Legal s.owner s.log) :
    Sound initial (s.write owner entry) := by
  refine ⟨?_, ?_, h.2⟩
  · rw [Shared.write, ownerAfter, h.1]
    exact hAfter
  · rw [h.1]
    exact hLegal

theorem Point.Assertion.mono {point : Point} {log log' : List Entry} (h : point.Assertion log)
    (hLog : ∀ entry ∈ log, entry ∈ log') : point.Assertion log' := by
  cases point with
  | claimView claim wrote =>
    obtain ⟨entry, hEntry, hHolds⟩ := h
    exact ⟨entry, hLog entry hEntry, hHolds⟩
  | _ => exact h

theorem claimPhaseOwnerIfCurrent_eq_some {now : String} {current : CurrentPhaseOwner}
    {expected : Option Identity} {row : Option PhaseOwnerData} {owner : PhaseOwnerData}
    (h : claimPhaseOwnerIfCurrent now current expected row = some owner) :
    row.map PhaseOwnerData.identity = expected ∧ owner.identity = current.identity := by
  cases expected with
  | none =>
    cases row with
    | none =>
      cases h
      exact ⟨rfl, rfl⟩
    | some owner => cases h
  | some expected =>
    cases row with
    | none => cases h
    | some owner =>
      rw [claimPhaseOwnerIfCurrent] at h
      split at h
      · rename_i hSame
        cases h
        exact ⟨congrArg some hSame, rfl⟩
      · cases h

theorem clearPhaseOwnerIfCurrent_eq_some {expected : Identity} {row : Option PhaseOwnerData}
    {removed : PhaseOwnerData} (h : clearPhaseOwnerIfCurrent expected row = some removed) :
    row = some removed ∧ removed.identity = expected := by
  obtain ⟨hRow, hSame⟩ := Option.filter_eq_some_iff.mp h
  exact ⟨hRow, of_decide_eq_true hSame⟩

/-- What one step of a workspace keeps. -/
structure Progress (initial : Option PhaseOwnerData) (s : Shared) (r : Point × Shared) : Prop where
  sound : Sound initial r.2
  assertion : r.1.Assertion r.2.log
  log : ∀ entry ∈ s.log, entry ∈ r.2.log

theorem Sound.stay (h : Sound initial s) {point : Point} (hPoint : point.Assertion s.log) :
    Progress initial s (point, s) := ⟨h, hPoint, fun _ => id⟩

theorem Sound.report (h : Sound initial s) {entry : Entry} (hAfter : entry.after s.owner = s.owner)
    (hLegal : entry.Legal s.owner s.log) : Progress initial s (.idle, s.add entry) :=
  ⟨h.add hAfter hLegal, trivial, fun _ => List.mem_cons_of_mem _⟩

theorem Sound.change (h : Sound initial s) {owner : Option PhaseOwnerData} {entry : Entry}
    {point : Point} (hAfter : entry.after s.owner = owner) (hLegal : entry.Legal s.owner s.log)
    (hPoint : point.Assertion (entry :: s.log)) :
    Progress initial s (point, s.write owner entry) :=
  ⟨h.write hAfter hLegal, hPoint, fun _ => List.mem_cons_of_mem _⟩

theorem allowed_assertion (current : CurrentPhaseOwner) (finishing : Bool) (log : List Entry) :
    (allowed current finishing).Assertion log := by
  cases finishing <;> trivial

theorem claimWrite_progress {now : String} {claim : Claim} {previous : Option PhaseOwnerData}
    {r : Point × Shared} (hSound : Sound initial s)
    (hPoint : (Point.claimWrite claim previous).Assertion s.log)
    (h : (Point.claimWrite claim previous).advance now s = some r) : Progress initial s r := by
  rw [Point.advance] at h
  split at h
  · rename_i owner hClaim
    cases h
    obtain ⟨hRow, hOwner⟩ := claimPhaseOwnerIfCurrent_eq_some hClaim
    refine hSound.change rfl ⟨rfl, hOwner, ?_⟩ ⟨_, List.mem_cons_self, rfl⟩
    intro before hBefore hOther
    -- the write compared the row with the identity that the decision was made on
    rw [hBefore] at hRow
    cases hPrevious : previous with
    | none => rw [hPrevious] at hRow; cases hRow
    | some loaded =>
      rw [hPrevious] at hRow
      have hSame : before.identity = loaded.identity := Option.some.inj hRow
      exact hPoint loaded hPrevious (by rwa [← hSame, ← hOwner])
  · cases h
    exact hSound.stay trivial

theorem claimRead_progress {now : String} {claim : Claim} {r : Point × Shared}
    (hSound : Sound initial s) (h : (Point.claimRead claim).advance now s = some r) :
    Progress initial s r := by
  rw [Point.advance] at h
  split at h
  · rename_i owner hOwner
    split at h
    · rename_i hMatches
      cases h
      refine ⟨hSound.add rfl ⟨owner, hOwner, ownerMatches_iff.mp hMatches⟩,
        ⟨_, List.mem_cons_self, rfl⟩, fun _ => List.mem_cons_of_mem _⟩
    · cases h
      exact hSound.report rfl ⟨fun h => (nomatch h), fun _ => rfl⟩
  · cases h
    exact hSound.report rfl ⟨fun h => (nomatch h), fun _ => rfl⟩

theorem claimView_progress {now : String} {claim : Claim} {wrote : Bool} {r : Point × Shared}
    (hSound : Sound initial s) (hPoint : (Point.claimView claim wrote).Assertion s.log)
    (hCompares : Compares s (.advance now) (.claimView claim wrote))
    (h : (Point.claimView claim wrote).advance now s = some r) : Progress initial s r := by
  cases h
  refine hSound.report rfl ⟨fun _ => hPoint, fun hNone => ?_⟩
  cases wrote with
  | false => rfl
  | true => exact absurd (Option.isSome_eq_false_iff.mp hNone) (by
      rw [Option.isNone_iff_eq_none]
      exact hCompares)

theorem ensure_progress {now : String} {current : CurrentPhaseOwner} {finishing : Bool}
    {r : Point × Shared} (hSound : Sound initial s)
    (h : (Point.ensureWrite current finishing).advance now s = some r ∨
      (Point.ensureRead current finishing).advance now s = some r) : Progress initial s r := by
  rcases h with h | h
  · rw [Point.advance] at h
    split at h
    · rename_i owner hClaim
      cases h
      obtain ⟨hRow, hOwner⟩ := claimPhaseOwnerIfCurrent_eq_some hClaim
      exact hSound.change rfl ⟨Option.map_eq_none_iff.mp hRow, hOwner⟩
        (allowed_assertion current finishing _)
    · cases h
      exact hSound.stay trivial
  · rw [Point.advance] at h
    split at h
    · cases h
      split
      · exact hSound.stay (allowed_assertion current finishing _)
      · exact hSound.stay trivial
    · cases h
      exact hSound.stay trivial

theorem releaseWrite_progress {now : String} {current : CurrentPhaseOwner} {loaded : PhaseOwnerData}
    {stale : Bool} {r : Point × Shared} (hSound : Sound initial s)
    (hPoint : (Point.releaseWrite current loaded stale).Assertion s.log)
    (hCompares : Compares s (.advance now) (.releaseWrite current loaded stale))
    (h : (Point.releaseWrite current loaded stale).advance now s = some r) :
    Progress initial s r := by
  rw [Point.advance] at h
  split at h
  · rename_i removed hClear
    cases h
    obtain ⟨hRow, hSame⟩ := clearPhaseOwnerIfCurrent_eq_some hClear
    have hLegal : (Entry.released current loaded stale removed).Legal s.owner s.log := by
      refine ⟨hRow, ?_⟩
      by_cases hOwn : loaded.identity = current.identity
      · exact .inl (hSame.trans hOwn)
      · exact .inr ⟨hPoint.resolve_left hOwn, hCompares removed hRow hSame hOwn⟩
    refine ⟨(hSound.write rfl hLegal).add rfl (fun h => nomatch h), trivial, fun entry hEntry => ?_⟩
    exact List.mem_cons_of_mem _ (List.mem_cons_of_mem _ hEntry)
  · cases h
    exact hSound.report rfl (fun _ => rfl)

theorem finishClear_progress {now : String} {current : CurrentPhaseOwner} {r : Point × Shared}
    (hSound : Sound initial s) (hCompares : Compares s (.advance now) (.finishClear current))
    (h : (Point.finishClear current).advance now s = some r) : Progress initial s r := by
  rw [Point.advance] at h
  split at h
  · rename_i removed hRow
    cases h
    exact hSound.change rfl ⟨hRow, hCompares removed hRow⟩ trivial
  · cases h
    exact hSound.stay trivial

theorem advance_progress {now : String} {point : Point} {r : Point × Shared}
    (hSound : Sound initial s) (hPoint : point.Assertion s.log)
    (hCompares : Compares s (.advance now) point) (h : point.advance now s = some r) :
    Progress initial s r := by
  cases point with
  | idle => cases h
  | claimWrite claim previous => exact claimWrite_progress hSound hPoint h
  | claimRead claim => exact claimRead_progress hSound h
  | claimView claim wrote => exact claimView_progress hSound hPoint hCompares h
  | ensureWrite current finishing => exact ensure_progress hSound (.inl h)
  | ensureRead current finishing => exact ensure_progress hSound (.inr h)
  | releaseWrite current owner stale => exact releaseWrite_progress hSound hPoint hCompares h
  | finishClear current => exact finishClear_progress hSound hCompares h

theorem fail_progress {point : Point} {r : Point × Shared} (hSound : Sound initial s)
    (hCompares : Compares s .fail point) (h : point.fail s = some r) : Progress initial s r := by
  cases point with
  | idle => cases h
  | claimView claim wrote =>
    cases h
    cases wrote with
    | true => exact hCompares.elim
    | false => exact hSound.report rfl ⟨fun h => (nomatch h), fun _ => rfl⟩
  | claimWrite claim previous =>
    cases h
    exact hSound.report rfl ⟨fun h => (nomatch h), fun _ => rfl⟩
  | claimRead claim =>
    cases h
    exact hSound.report rfl ⟨fun h => (nomatch h), fun _ => rfl⟩
  | releaseWrite current owner stale =>
    cases h
    exact hSound.report rfl (fun _ => rfl)
  | _ =>
    cases h
    exact hSound.stay trivial

theorem begin_progress {ι : Type*} {i : ι} {event : Event} {r : Point × Shared}
    (hSound : Sound initial s) (hBegin : ∀ now, event ≠ .advance now) (hFail : event ≠ .fail)
    (h : move i event .idle s = some r) : Progress initial s r := by
  cases event with
  | advance now => exact (hBegin now rfl).elim
  | fail => exact (hFail rfl).elim
  | claim current takeOver =>
    rw [move] at h
    dsimp only at h
    have hCounted : Sound initial { s with calls := s.calls + 1 } := hSound
    split at h
    · rename_i owner hOwner
      split at h
      · cases h
        exact ⟨hCounted.add rfl ⟨fun h => (nomatch h), fun _ => rfl⟩, trivial,
          fun _ => List.mem_cons_of_mem _⟩
      · rename_i hAllowed
        cases h
        refine ⟨hCounted, ?_, fun _ => id⟩
        rintro owner' ⟨⟩ hOther
        by_contra hTakeOver
        have hMatches : ownerMatches owner current = false := by
          rw [← Bool.not_eq_true, ownerMatches_iff]
          exact hOther
        have hKeeps : takeOver = false := Bool.eq_false_iff.mpr hTakeOver
        rw [hMatches, hKeeps] at hAllowed
        exact hAllowed rfl
    · cases h
      exact ⟨hCounted, fun owner hNone => (nomatch hNone), fun _ => id⟩
  | ensure current finishing =>
    rw [move] at h
    split at h
    · cases h
      split
      · exact hSound.stay (allowed_assertion current finishing _)
      · exact hSound.stay trivial
    · cases h
      exact hSound.stay trivial
  | release current stale =>
    rw [move] at h
    split at h
    · cases h
      exact hSound.report rfl fun h => (nomatch h)
    · rename_i owner hOwner
      split at h
      · cases h
        exact hSound.report rfl (fun _ => rfl)
      · rename_i hAllowed
        cases h
        refine hSound.stay ?_
        by_cases hMatches : ownerMatches owner current = true
        · exact .inl (ownerMatches_iff.mp hMatches)
        · rw [Bool.not_eq_true] at hMatches
          rw [hMatches, Bool.not_false, Bool.true_and, Bool.not_eq_true', Bool.not_eq_false] at hAllowed
          exact .inr hAllowed

theorem move_progress {ι : Type*} {i : ι} {event : Event} {point : Point} {r : Point × Shared}
    (hSound : Sound initial s) (hPoint : point.Assertion s.log)
    (hCompares : Compares s event point) (h : move i event point s = some r) :
    Progress initial s r := by
  cases event with
  | advance now => exact advance_progress hSound hPoint hCompares h
  | fail => exact fail_progress hSound hCompares h
  | _ =>
    cases point with
    | idle => exact begin_progress hSound (by simp) (by simp) h
    | _ => cases h

variable {ι : Type*} [DecidableEq ι]

theorem holds_of_run {events : List (ι × Event)} {t : Interleaving ι Point Shared}
    (hCompares : Along step (fun s a => Compares s.shared a.2 (s.thread a.1)) (start initial) events)
    (hRun : run step (start initial) events = some t) :
    Interleaving.Holds (Sound initial) (fun _ point s => point.Assertion s.log) t := by
  have hStart : Interleaving.Holds (Sound initial) (fun _ point s => point.Assertion s.log)
      (start initial : Interleaving ι Point Shared) := ⟨⟨rfl, trivial⟩, fun _ => trivial⟩
  refine invariant_of_along ?_ hStart hCompares hRun
  intro s a s' hHolds hStep hNext
  refine Interleaving.holds_step ?_ ?_ hHolds hNext
  · intro point shared hMove
    have hProgress := move_progress hHolds.1 (hHolds.2 a.1) hStep hMove
    exact ⟨hProgress.sound, hProgress.assertion⟩
  · intro point shared j _ hOther hMove
    exact hOther.mono (move_progress hHolds.1 (hHolds.2 a.1) hStep hMove).log

theorem ownership_exclusive {events : List (ι × Event)} {t : Interleaving ι Point Shared}
    (hCompares : Along step (fun s a => Compares s.shared a.2 (s.thread a.1)) (start initial) events)
    (hRun : run step (start initial) events = some t) :
    ownerAfter initial t.shared.log = t.shared.owner ∧ Legal initial t.shared.log ∧
    ∀ newer middle older first second claim claim',
      t.shared.log = newer ++ second :: (middle ++ first :: older) →
      first.Holds claim → second.Holds claim' → claim.takeOver = false → claim'.takeOver = false →
      claim.current.identity ≠ claim'.current.identity →
      ∃ entry ∈ middle, entry.Ends claim.current.identity := by
  obtain ⟨⟨hOwner, hLegal⟩, -⟩ := holds_of_run hCompares hRun
  refine ⟨hOwner, hLegal, ?_⟩
  intro newer middle older first second claim claim' hLog hFirst hSecond _ hTakeOver hIdentity
  exact ended_between hLegal hLog hFirst hSecond hTakeOver hIdentity

def onMain : CurrentPhaseOwner := ⟨"branch", "main", "workspace:1", some "/repo"⟩

def onDevelop : CurrentPhaseOwner := ⟨"branch", "develop", "workspace:2", some "/repo-develop"⟩

/-- One workspace claims the phase and releases it, and then the other one claims it. -/
def handedOver : List (Bool × Event) :=
  [(true, .claim onMain false), (true, .advance "1"), (true, .advance "2"),
    (true, .release onMain fun _ => false), (true, .advance "3"), (false, .claim onDevelop false),
    (false, .advance "4"), (false, .advance "5")]

theorem compares_handedOver : Along step (fun s a => Compares s.shared a.2 (s.thread a.1))
    (start none : Interleaving Bool Point Shared) handedOver := by
  refine ⟨trivial, fun s hs => ?_⟩
  cases hs
  refine ⟨trivial, fun s hs => ?_⟩
  cases hs
  refine ⟨by rintro ⟨⟩, fun s hs => ?_⟩
  cases hs
  refine ⟨trivial, fun s hs => ?_⟩
  cases hs
  refine ⟨?_, fun s hs => ?_⟩
  · rintro owner ⟨⟩ _ hOther
    exact (hOther rfl).elim
  cases hs
  refine ⟨trivial, fun s hs => ?_⟩
  cases hs
  refine ⟨trivial, fun s hs => ?_⟩
  cases hs
  exact ⟨by rintro ⟨⟩, fun _ _ => trivial⟩

theorem ownership_exclusive_handedOver :
    ∃ t middle, run step (start none : Interleaving Bool Point Shared) handedOver = some t ∧
      t.shared.log = [.claimReturned ⟨1, onDevelop, false⟩ true true] ++
        .claimed ⟨1, onDevelop, false⟩ none (onDevelop.claimed "4" "4") ::
          (middle ++ .claimed ⟨0, onMain, false⟩ none (onMain.claimed "1" "1") :: []) ∧
      ∃ entry ∈ middle, entry.Ends onMain.identity := by
  obtain ⟨t, middle, hRun, hLog⟩ : ∃ t middle,
      run step (start none : Interleaving Bool Point Shared) handedOver = some t ∧
      t.shared.log = [.claimReturned ⟨1, onDevelop, false⟩ true true] ++
        .claimed ⟨1, onDevelop, false⟩ none (onDevelop.claimed "4" "4") ::
          (middle ++ .claimed ⟨0, onMain, false⟩ none (onMain.claimed "1" "1") :: []) :=
    ⟨_, [.releaseReturned onMain true true,
      .released onMain (onMain.claimed "1" "1") false (onMain.claimed "1" "1"),
      .claimReturned ⟨0, onMain, false⟩ true true], rfl, rfl⟩
  exact ⟨t, middle, hRun, hLog, (ownership_exclusive compares_handedOver hRun).2.2 _ _ _ _ _
    ⟨0, onMain, false⟩ ⟨1, onDevelop, false⟩ hLog rfl rfl rfl rfl (by decide)⟩

/-- A finish clears the row that another workspace has taken over since its guard. -/
theorem finish_clears_taken_phase :
    ¬ ∀ (events : List (Bool × Event)) (t : Interleaving Bool Point Shared),
      run step (start none) events = some t → Legal none t.shared.log := by
  intro h
  have hRun : ∃ t, run step (start none : Interleaving Bool Point Shared)
      [(true, .claim onMain false), (true, .advance "1"), (true, .advance "2"),
        (true, .ensure onMain true), (false, .claim onDevelop true), (false, .advance "3"),
        (true, .advance "4")] = some t := ⟨_, rfl⟩
  obtain ⟨t, hRun⟩ := hRun
  have hLegal := h _ t hRun
  cases hRun
  exact absurd hLegal.1.2 (by decide)

end Exosuit.PhaseOwner
