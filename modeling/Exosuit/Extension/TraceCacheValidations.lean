import Exosuit.Extension.TraceCacheSteps

/-!
# Validations of the trace cache

A validation of the current generation takes over, at each of its steps, what it covered and
what it will visit.
-/

namespace Exosuit.Extension.TraceCache

open Exosuit.Lib

variable {I D : Type} [Inhabited I] {s t : TraceCache I D} {rootId : String}

theorem Invariant.setPhase (h : s.Invariant) {i : Nat} {v : Validation} {phase : ValidationPhase}
    (hValidation : s.validations i = some v)
    (hAsked : ∀ rootId token slot sentAt, phase = .validating rootId token slot sentAt →
      s.lastWrite < sentAt)
    (hCovers : s.pendingValidation = false → v.generation = s.generation → ∀ e ∈ s.cache,
      s.Covers e v.phase → s.lastWrite < e.vouched ∨ s.Covers e phase)
    (hVisits : v.generation = s.generation → ∀ rootId, s.LastSucceeded rootId →
      s.Visits rootId v.phase → s.has rootId = true ∨ (∃ token, s.Fetching rootId token) ∨
        s.Visits rootId phase) : (s.setPhase i v phase).Invariant := by
  have hHere : (s.setPhase i v phase).validations i = some { v with phase } := Function.update_self ..
  have hThere : ∀ j w, j ≠ i → s.validations j = some w →
      (s.setPhase i v phase).validations j = some w := fun j w hOther hOld =>
    (Function.update_of_ne hOther ..).trans hOld
  refine ⟨{ h.formed with validating := ?_, unselected := ?_ },
    fun hDue => { h.fresh hDue with asked := ?_, vouched := ?_ }, ?_⟩
  · intro j w hSome
    rcases update_eq_some hSome with ⟨rfl, hNew⟩ | ⟨-, hOld⟩
    · obtain rfl := Option.some.inj hNew
      exact h.formed.validating j v hValidation
    · exact h.formed.validating j w hOld
  · intro hNone
    exact absurd (((h.formed.unselected hNone).2.2 i).symm.trans hValidation) (by simp)
  · intro j w hSome hGeneration
    rcases update_eq_some hSome with ⟨rfl, hNew⟩ | ⟨-, hOld⟩
    · obtain rfl := Option.some.inj hNew
      exact hAsked
    · exact (h.fresh hDue).asked j w hOld hGeneration
  · intro e hMem
    rcases (h.fresh hDue).vouched e hMem with hVouched | ⟨j, w, hSome, hGeneration, hOf⟩
    · exact .inl hVouched
    · rcases eq_or_ne j i with rfl | hOther
      · obtain rfl := Option.some.inj (hSome.symm.trans hValidation)
        exact (hCovers hDue hGeneration e hMem hOf).imp_right fun hNew => ⟨j, _, hHere, hGeneration, hNew⟩
      · exact .inr ⟨j, w, hThere j w hOther hSome, hGeneration, hOf⟩
  · intro id hLast
    obtain ⟨hRoot, hRest⟩ := h.retained id hLast
    refine ⟨hRoot, ?_⟩
    rcases hRest with hHas | hPending | hFetching | ⟨j, w, hSome, hGeneration, hOf⟩
    · exact .inl hHas
    · exact .inr (.inl hPending)
    · exact .inr (.inr (.inl hFetching))
    · rcases eq_or_ne j i with rfl | hOther
      · obtain rfl := Option.some.inj (hSome.symm.trans hValidation)
        rcases hVisits hGeneration id hLast hOf with hHas | hFetching | hNew
        · exact .inl hHas
        · exact .inr (.inr (.inl hFetching))
        · exact .inr (.inr (.inr ⟨j, _, hHere, hGeneration, hNew⟩))
      · exact .inr (.inr (.inr ⟨j, w, hThere j w hOther hSome, hGeneration, hOf⟩))

theorem Invariant.abandon (h : s.Invariant) {i : Nat} {v : Validation}
    (hValidation : s.validations i = some v) (hOver : s.generation ≠ v.generation) :
    (s.setPhase i v .finished).Invariant :=
  h.setPhase hValidation nofun (fun _ hSame => absurd hSame.symm hOver) fun hSame =>
    absurd hSame.symm hOver

theorem Invariant.startValidation (h : s.Invariant) :
    { s with pendingValidation := false }.startValidation.Invariant := by
  unfold TraceCache.startValidation
  cases hNone : TraceCache.noWorkspaceRoot { s with pendingValidation := false } with
  | true =>
    rw [if_pos rfl]
    obtain ⟨hEmpty, hFetches, hValidations⟩ := h.formed.unselected hNone
    refine ⟨{ h.formed with }, fun _ => ⟨?_, ?_, ?_⟩, h.retained⟩
    · exact fun token f hFetch => nomatch (hFetches token).symm.trans hFetch
    · exact fun i v hValidation => nomatch (hValidations i).symm.trans hValidation
    · intro e (hMem : e ∈ s.cache)
      exact absurd (hEmpty ▸ hMem) List.not_mem_nil
  | false =>
    rw [if_neg Bool.false_ne_true]
    have hHere : Function.update s.validations s.started
        (some ⟨s.generation + 1, .entries 0⟩) s.started = some ⟨s.generation + 1, .entries 0⟩ :=
      Function.update_self ..
    refine ⟨{ h.formed with fetched := ?_, validating := ?_, unselected := ?_ }, fun _ => ⟨?_, ?_, ?_⟩, ?_⟩
    · intro token f hFetch
      obtain ⟨hLt, hLe, hRoot⟩ := h.formed.fetched token f hFetch
      exact ⟨hLt, Nat.le_succ_of_le hLe, hRoot⟩
    · intro i v hValidation
      rcases update_eq_some hValidation with ⟨rfl, hNew⟩ | ⟨-, hOld⟩
      · obtain rfl := Option.some.inj hNew
        exact ⟨Nat.lt_succ_self _, Nat.le_refl _⟩
      · obtain ⟨hLt, hLe⟩ := h.formed.validating i v hOld
        exact ⟨Nat.lt_succ_of_lt hLt, Nat.le_succ_of_le hLe⟩
    · exact fun hTrue => absurd (hNone.symm.trans hTrue) Bool.false_ne_true
    · intro token f hFetch _ (hGeneration : f.generation = s.generation + 1)
      have hLe := (h.formed.fetched token f hFetch).2.1
      omega
    · intro i v hValidation (hGeneration : v.generation = s.generation + 1)
      rcases update_eq_some hValidation with ⟨-, hNew⟩ | ⟨-, hOld⟩
      · obtain rfl := Option.some.inj hNew
        exact nofun
      · have hLe := (h.formed.validating i v hOld).2
        omega
    · exact fun e _ => .inr ⟨s.started, _, hHere, rfl, Nat.zero_le _⟩
    · intro id hLast
      obtain ⟨hRoot, -⟩ := h.retained id hLast
      exact ⟨hRoot, .inr (.inr (.inr ⟨s.started, _, hHere, rfl, trivial⟩))⟩

omit [Inhabited I] in
theorem mem_vouch {token sentAt : Nat} {e : CacheEntry I D}
    (hMem : e ∈ (s.vouch rootId token sentAt).cache) : ∃ old ∈ s.cache,
      e = { old with vouched := e.vouched } ∧ old.vouched ≤ e.vouched ∧
        (old.rootId = rootId → old.token = token → sentAt ≤ e.vouched) := by
  obtain ⟨old, hOld, hNew⟩ := List.mem_map.mp hMem
  refine ⟨old, hOld, ?_⟩
  split at hNew
  · subst hNew
    exact ⟨rfl, Nat.le_max_left .., fun _ _ => Nat.le_max_right ..⟩
  · rename_i hOther
    subst hNew
    exact ⟨rfl, Nat.le_refl _, fun hId hToken => absurd ⟨hId, hToken⟩ hOther⟩

omit [Inhabited I] in
theorem has_vouch {token sentAt : Nat} {id : String} (hHas : s.has id = true) :
    (s.vouch rootId token sentAt).has id = true := by
  obtain ⟨e, hMem, hId⟩ := has_iff.mp hHas
  refine has_iff.mpr ⟨_, List.mem_map.mpr ⟨e, hMem, rfl⟩, ?_⟩
  split <;> exact hId

theorem Invariant.vouch (h : s.Invariant) (rootId : String) (token sentAt : Nat) :
    (s.vouch rootId token sentAt).Invariant := by
  refine ⟨{ h.formed with ordered := ?_, key := ?_, registered := ?_, unselected := ?_ },
    fun hDue => { h.fresh hDue with vouched := ?_ }, fun id hLast => ?_⟩
  · apply h.formed.ordered.map
    intro e
    split <;> rfl
  · intro e hMem
    obtain ⟨old, hOld, hEq, -⟩ := mem_vouch hMem
    rw [hEq]
    exact h.formed.key old hOld
  · intro e hMem
    obtain ⟨old, hOld, hEq, -⟩ := mem_vouch hMem
    rw [hEq]
    exact h.formed.registered old hOld
  · intro hNone
    refine (h.formed.unselected hNone).imp_left fun hEmpty => ?_
    rw [TraceCache.vouch, hEmpty, List.map_nil]
  · intro e hMem
    obtain ⟨old, hOld, hEq, hLe, -⟩ := mem_vouch hMem
    refine ((h.fresh hDue).vouched old hOld).imp (fun hLt => Nat.lt_of_lt_of_le hLt hLe) ?_
    rintro ⟨i, v, hValidation, hGeneration, hCovers⟩
    refine ⟨i, v, hValidation, hGeneration, ?_⟩
    rw [hEq]
    cases hPhase : v.phase <;> rw [hPhase] at hCovers <;> exact hCovers
  · exact (h.retained id hLast).imp_right (Or.imp_left has_vouch)

variable [DecidableEq I]

theorem validated_cases {i : Nat} {a : ValidateAnswer} (hStep : s.validated i a = some t) :
    ∃ generation rootId token slot sentAt,
      s.validations i = some ⟨generation, .validating rootId token slot sentAt⟩ ∧
      ((s.generation ≠ generation ∧
          t = s.setPhase i ⟨generation, .validating rootId token slot sentAt⟩ .finished) ∨
        t = (s.vouch rootId token sentAt).setPhase i
          ⟨generation, .validating rootId token slot sentAt⟩ (.entries slot) ∨
        t = s.refetch i ⟨generation, .validating rootId token slot sentAt⟩ rootId slot) := by
  unfold validated at hStep
  split at hStep
  case h_1 generation rootId token slot sentAt hValidation =>
    refine ⟨generation, rootId, token, slot, sentAt, hValidation, ?_⟩
    cases a with
    | rejected => exact .inr (.inr (Option.some.inj hStep).symm)
    | answered valid =>
      dsimp only at hStep
      split at hStep
      · exact .inl ⟨‹_›, (Option.some.inj hStep).symm⟩
      · split at hStep
        · exact .inr (.inl (Option.some.inj hStep).symm)
        · exact .inr (.inr (Option.some.inj hStep).symm)
  case h_2 => exact nomatch hStep

theorem Invariant.refetch (h : s.Invariant) (hNow : s.lastWrite < s.now) {i generation token slot sentAt : Nat}
    (hValidation : s.validations i = some ⟨generation, .validating rootId token slot sentAt⟩) :
    (s.refetch i ⟨generation, .validating rootId token slot sentAt⟩ rootId slot).Invariant := by
  have hFetched := h.fetchRoot hNow rootId
  have hFetching := @Formed.fetchRoot_fetching _ _ _ s rootId _ h.formed
  have hNone := @fetchRoot_none _ _ _ s rootId _
  unfold TraceCache.refetch
  obtain ⟨diagnostics, fetches, sent, inFlight, hFrame⟩ := fetchRoot_frame s rootId
  generalize s.fetchRoot rootId = next at *
  obtain ⟨next, fetch⟩ := next
  obtain rfl := hFrame
  refine hFetched.setPhase hValidation nofun (fun _ _ e hMem hCovers => .inr ?_) fun _ _ _ _ =>
    .inr (.inr trivial)
  refine hCovers.imp_right ?_
  rintro ⟨hId, -⟩
  cases fetch with
  | some token => exact ⟨token, rfl, hId ▸ hFetching rfl⟩
  | none =>
    rcases hNone rfl with hRoot | ⟨hUnselected, -⟩
    · have hSome := h.formed.registered e hMem
      rw [hId, hRoot] at hSome
      exact absurd hSome Bool.false_ne_true
    · have hEmpty := (h.formed.unselected hUnselected).1
      exact absurd (hEmpty ▸ hMem) List.not_mem_nil

theorem Invariant.validated (h : s.Invariant) (hNow : s.lastWrite < s.now) {i : Nat} {a : ValidateAnswer}
    (hStep : s.validated i a = some t) : t.Invariant := by
  obtain ⟨generation, rootId, token, slot, sentAt, hValidation, hCases⟩ := validated_cases hStep
  rcases hCases with ⟨hOver, rfl⟩ | rfl | rfl
  · exact h.abandon hValidation hOver
  · refine (h.vouch rootId token sentAt).setPhase hValidation nofun ?_ fun _ _ _ _ =>
      .inr (.inr trivial)
    intro hDue hGeneration e hMem hCovers
    rcases hCovers with hSlot | ⟨hId, hToken⟩
    · exact .inr hSlot
    · obtain ⟨old, -, hEq, -, hSent⟩ := mem_vouch hMem
      have hAsked := (h.fresh hDue).asked i _ hValidation hGeneration rootId token slot sentAt rfl
      rw [hEq] at hId hToken
      exact .inl (Nat.lt_of_lt_of_le hAsked (hSent hId hToken))
  · exact h.refetch hNow hValidation

theorem Invariant.resumeValidation (h : s.Invariant) (hNow : s.lastWrite < s.now) {i : Nat}
    (hStep : s.resumeValidation i = some t) : t.Invariant := by
  unfold TraceCache.resumeValidation at hStep
  cases hValidation : s.validations i with
  | none => rw [hValidation] at hStep; exact nomatch hStep
  | some v =>
    obtain ⟨generation, phase⟩ := v
    simp only [hValidation] at hStep
    cases phase with
    | validating rootId token slot sentAt => exact nomatch hStep
    | finished => exact nomatch hStep
    | entries slot =>
      dsimp only at hStep
      cases hFind : s.cache.find? fun e => slot ≤ e.slot with
      | none =>
        rw [hFind] at hStep
        obtain rfl := Option.some.inj hStep
        refine h.setPhase hValidation nofun (fun _ _ e hMem hCovers => ?_) fun _ id hLast _ =>
          .inr (.inr ?_)
        · have hSlot : slot ≤ e.slot := hCovers
          exact absurd (decide_eq_true hSlot) (List.find?_eq_none.mp hFind e hMem)
        · obtain ⟨n, hPlace⟩ := List.mem_iff_getElem?.mp (h.formed.listed id (h.retained id hLast).1)
          exact ⟨n, Nat.zero_le n, hPlace⟩
      | some e =>
        rw [hFind] at hStep
        dsimp only at hStep
        split at hStep
        · exact Option.some.inj hStep ▸ h.abandon hValidation ‹_›
        · obtain rfl := Option.some.inj hStep
          refine h.setPhase hValidation ?_ (fun _ _ e' hMem hCovers => .inr ?_) fun _ _ _ _ =>
            .inr (.inr trivial)
          · rintro _ _ _ _ ⟨⟩
            exact hNow
          · rcases h.formed.ordered.find_le hFind hMem hCovers with rfl | hLater
            · exact .inr ⟨rfl, rfl⟩
            · exact .inl hLater
    | refetching fetch slot =>
      dsimp only at hStep
      split at hStep
      case isFalse => exact nomatch hStep
      case isTrue hSettled =>
        obtain rfl := Option.some.inj hStep
        refine h.setPhase hValidation nofun (fun _ _ e _ hCovers => .inr ?_) fun _ _ _ _ =>
          .inr (.inr trivial)
        rcases hCovers with hSlot | ⟨token, rfl, hFetching⟩
        · exact hSlot
        · exact absurd (hFetching.settled_eq.symm.trans hSettled) Bool.false_ne_true
    | fetching fetch place =>
      dsimp only at hStep
      split at hStep
      case isFalse => exact nomatch hStep
      case isTrue hSettled =>
        obtain rfl := Option.some.inj hStep
        exact h.setPhase hValidation nofun (fun _ _ _ _ hCovers => hCovers.elim) fun _ _ _ hVisits =>
          .inr (.inr hVisits)
    | roots place =>
      dsimp only at hStep
      cases hPlace : s.rootIds[place]? with
      | none =>
        rw [hPlace] at hStep
        obtain rfl := Option.some.inj hStep
        refine h.setPhase hValidation nofun (fun _ _ _ _ hCovers => hCovers.elim) ?_
        rintro - id - ⟨n, hLe, hSome⟩
        have hBound := List.getElem?_eq_none_iff.mp hPlace
        have hLt := (List.getElem?_eq_some_iff.mp hSome).1
        omega
      | some rootId =>
        rw [hPlace] at hStep
        have hLater : ∀ id n, id ≠ rootId → place ≤ n → s.rootIds[n]? = some id → place + 1 ≤ n := by
          intro id n hOther hLe hSome
          rcases Nat.eq_or_lt_of_le hLe with rfl | hLt
          · exact absurd (Option.some.inj (hSome.symm.trans hPlace)) hOther
          · exact hLt
        dsimp only at hStep
        split at hStep
        · exact Option.some.inj hStep ▸ h.abandon hValidation ‹_›
        · split at hStep
          case isTrue hHas =>
            obtain rfl := Option.some.inj hStep
            refine h.setPhase hValidation nofun (fun _ _ _ _ hCovers => hCovers.elim) ?_
            rintro - id - ⟨n, hLe, hSome⟩
            rcases eq_or_ne id rootId with rfl | hOther
            · exact .inl hHas
            · exact .inr (.inr ⟨n, hLater id n hOther hLe hSome, hSome⟩)
          case isFalse =>
            obtain rfl := Option.some.inj hStep
            have hFetched := h.fetchRoot hNow rootId
            have hWanted := @Invariant.fetchRoot_wanted _ _ _ s rootId _ h hNow
            obtain ⟨diagnostics, fetches, sent, inFlight, hFrame⟩ := fetchRoot_frame s rootId
            generalize s.fetchRoot rootId = next at *
            obtain ⟨next, fetch⟩ := next
            obtain rfl := hFrame
            refine hFetched.setPhase hValidation nofun (fun _ _ _ _ hCovers => hCovers.elim) ?_
            rintro - id hLast ⟨n, hLe, hSome⟩
            rcases eq_or_ne id rootId with rfl | hOther
            · exact .inr (.inl (hWanted hLast))
            · exact .inr (.inr ⟨n, hLater id n hOther hLe hSome, hSome⟩)

end Exosuit.Extension.TraceCache
