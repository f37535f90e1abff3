import Exosuit.Extension.TraceCacheInvariant

/-!
# What keeps the invariants of the trace cache

One lemma for each operation that a step of the cache is made of.
-/

namespace Exosuit.Extension.TraceCache

open Exosuit.Lib

variable {I D : Type} [Inhabited I] {s : TraceCache I D} {rootId : String}

/-! ## Answers -/

theorem Formed.cacheDelete (h : s.Formed) : (s.cacheDelete rootId).Formed where
  ordered := h.ordered.filter _
  key e hMem := h.key e (mem_cacheDelete.mp hMem).1
  registered e hMem := h.registered e (mem_cacheDelete.mp hMem).1
  fetched := h.fetched
  flight := h.flight
  validating := h.validating
  unselected hNone := (h.unselected hNone).imp_left fun hEmpty => by
    rw [TraceCache.cacheDelete, hEmpty, List.filter_nil]
  listed := h.listed
  current := h.current
  time := h.time

theorem Fresh.cacheDelete (h : s.Fresh) : (s.cacheDelete rootId).Fresh :=
  { h with vouched := fun e hMem => h.vouched e (mem_cacheDelete.mp hMem).1 }

theorem Invariant.forget (h : s.Invariant) {root : TraceCacheRoot I} {status : TraceCacheFetchStatus}
    {error : Option (FetchError D)} (hStatus : status ≠ .success) :
    ((s.cacheDelete rootId).recordFetchDiagnostic rootId root status error).Invariant where
  formed := { h.formed.cacheDelete with }
  fresh hDue := { (h.fresh hDue).cacheDelete with }
  retained := by
    rintro id ⟨d, hDiagnostic, hSuccess⟩
    rcases update_eq_some hDiagnostic with ⟨-, hNew⟩ | ⟨hOther, hOld⟩
    · obtain rfl := Option.some.inj hNew
      exact absurd hSuccess hStatus
    · obtain ⟨hRoot, hRest⟩ := h.retained id ⟨d, hOld, hSuccess⟩
      exact ⟨hRoot, hRest.imp_left (has_cacheDelete_of_ne hOther)⟩

theorem Invariant.store (h : s.Invariant) {token : Nat} {f : Fetch I} {data trace : D}
    (hFetch : s.fetches token = some f) (hSettled : f.settled = false) (hCurrent : ¬ s.Superseded f) :
    ((s.cacheSet ⟨f.rootId, data, trace, 0, f.key, token, f.sentAt⟩).recordFetchDiagnostic
      f.rootId f.root .success none).Invariant := by
  obtain ⟨hGeneration, hKey⟩ := not_or.mp hCurrent
  have hRoot := (h.formed.fetched token f hFetch).2.2
  have hOrdered := h.formed.ordered.cacheSet ⟨f.rootId, data, trace, 0, f.key, token, f.sentAt⟩
  have hMem := @mem_cacheSet _ _ s ⟨f.rootId, data, trace, 0, f.key, token, f.sentAt⟩
  have hHas := @has_cacheSet _ _ s ⟨f.rootId, data, trace, 0, f.key, token, f.sentAt⟩
  have hKeep := @mem_cacheSet_of_ne _ _ s ⟨f.rootId, data, trace, 0, f.key, token, f.sentAt⟩
  rw [cacheSet_frame] at *
  generalize s.cacheSet ⟨f.rootId, data, trace, 0, f.key, token, f.sentAt⟩ = new at *
  constructor
  · refine { h.formed with ordered := hOrdered, key := ?_, registered := ?_, unselected := ?_ }
    · intro e hNew
      rcases hMem hNew with ⟨hOld, -⟩ | ⟨slot, rfl⟩
      · exact h.formed.key e hOld
      · exact (not_not.mp hKey).symm
    · intro e hNew
      rcases hMem hNew with ⟨hOld, -⟩ | ⟨slot, rfl⟩
      · exact h.formed.registered e hOld
      · exact hRoot
    · intro hNone
      exact absurd (((h.formed.unselected hNone).2.1 token).symm.trans hFetch) (by simp)
  · intro hDue
    refine { h.fresh hDue with vouched := ?_ }
    intro e hNew
    rcases hMem hNew with ⟨hOld, -⟩ | ⟨slot, rfl⟩
    · exact (h.fresh hDue).vouched e hOld
    · exact .inl ((h.fresh hDue).sent token f hFetch hSettled (not_not.mp hGeneration).symm)
  · rintro id ⟨d, hDiagnostic, hSuccess⟩
    rcases update_eq_some hDiagnostic with ⟨rfl, -⟩ | ⟨hOther, hOld⟩
    · exact ⟨hRoot, .inl hHas⟩
    · obtain ⟨hRoot, hRest⟩ := h.retained id ⟨d, hOld, hSuccess⟩
      refine ⟨hRoot, hRest.imp_left fun hHad => ?_⟩
      obtain ⟨e, hMem, rfl⟩ := has_iff.mp hHad
      exact has_iff.mpr ⟨e, hKeep hMem hOther, rfl⟩

theorem Invariant.serve (h : s.Invariant) {served key : FetchKey I} (hSame : served = key) :
    { s with served := s.served ++ [(served, key)] }.Invariant where
  formed := { h.formed with
    current := fun keys hMem => (List.mem_append.mp hMem).elim (h.formed.current keys) fun hNew => by
      obtain rfl := List.mem_singleton.mp hNew
      exact hSame }
  fresh hDue := { h.fresh hDue with }
  retained := h.retained

variable [DecidableEq I]

theorem Fetching.settle {id : String} {token token' : Nat} {f : Fetch I}
    (hFetching : s.Fetching id token') (hOther : token' ≠ token) :
    (s.settle token f).Fetching id token' := by
  obtain ⟨f', hFetch, hRest⟩ := hFetching
  exact ⟨f', (Function.update_of_ne hOther ..).trans hFetch, hRest⟩

theorem Formed.settle (h : s.Formed) {token : Nat} {f : Fetch I} (hFetch : s.fetches token = some f) :
    (s.settle token f).Formed := by
  refine { h with fetched := ?_, flight := ?_, unselected := ?_ }
  · intro token' f' hFetch'
    rcases update_eq_some hFetch' with ⟨rfl, hNew⟩ | ⟨-, hOld⟩
    · obtain rfl := Option.some.inj hNew
      exact h.fetched token' f hFetch
    · exact h.fetched token' f' hOld
  · intro id flight hFlight
    have hOld : s.inFlight id = some flight ∧ ¬ (id = f.rootId ∧ flight.key = f.key ∧
        flight.generation = f.generation ∧ flight.token = token) := by
      simp only [TraceCache.settle] at hFlight
      cases hCurrent : s.inFlight f.rootId with
      | none =>
        rw [hCurrent] at hFlight
        refine ⟨hFlight, ?_⟩
        rintro ⟨rfl, -⟩
        exact nomatch hFlight.symm.trans hCurrent
      | some current =>
        simp only [hCurrent] at hFlight
        split at hFlight
        case isTrue =>
          rcases update_eq_some hFlight with ⟨-, hNone⟩ | ⟨hOther, hOld⟩
          · exact nomatch hNone
          · exact ⟨hOld, fun hSame => hOther hSame.1⟩
        case isFalse hDiffers =>
          refine ⟨hFlight, ?_⟩
          rintro ⟨rfl, hSame⟩
          obtain rfl := Option.some.inj (hFlight.symm.trans hCurrent)
          exact hDiffers hSame
    obtain ⟨f', hFetch', rfl, hKey, hGeneration, hSettled⟩ := h.flight id flight hOld.1
    refine ⟨f', (Function.update_of_ne ?_ ..).trans hFetch', rfl, hKey, hGeneration, hSettled⟩
    rintro rfl
    obtain rfl := Option.some.inj (hFetch'.symm.trans hFetch)
    exact hOld.2 ⟨rfl, hKey.symm, hGeneration.symm, rfl⟩
  · intro hNone
    exact absurd (((h.unselected hNone).2.1 token).symm.trans hFetch) (by simp)

theorem Invariant.settle (h : s.Invariant) {token : Nat} {f : Fetch I}
    (hFetch : s.fetches token = some f)
    (hDone : ¬ s.Superseded f → s.pendingValidation = false →
      ∀ e ∈ s.cache, e.rootId = f.rootId → s.lastWrite < e.vouched)
    (hLast : ¬ s.Superseded f → s.LastSucceeded f.rootId → s.has f.rootId = true) :
    (s.settle token f).Invariant := by
  have hThis : ∀ id, s.Fetching id token → id = f.rootId ∧ ¬ s.Superseded f := by
    rintro id ⟨f', hFetch', rfl, -, hCurrent⟩
    obtain rfl := Option.some.inj (hFetch'.symm.trans hFetch)
    exact ⟨rfl, hCurrent⟩
  refine ⟨h.formed.settle hFetch, fun hDue => ?_, fun id hSucceeded => ?_⟩
  · refine { h.fresh hDue with sent := ?_, vouched := ?_ }
    · intro token' f' hFetch'
      rcases update_eq_some hFetch' with ⟨-, hNew⟩ | ⟨-, hOld⟩
      · obtain rfl := Option.some.inj hNew
        exact fun hSettled => nomatch hSettled
      · exact (h.fresh hDue).sent token' f' hOld
    · intro e hMem
      by_cases hFetching : s.Fetching e.rootId token
      · obtain ⟨hId, hCurrent⟩ := hThis _ hFetching
        exact .inl (hDone hCurrent hDue e hMem hId)
      · refine ((h.fresh hDue).vouched e hMem).imp_right ?_
        rintro ⟨i, v, hValidation, hGeneration, hCovers⟩
        refine ⟨i, v, hValidation, hGeneration, hCovers.mono fun token' hOld => hOld.settle ?_⟩
        rintro rfl
        exact hFetching hOld
  · obtain ⟨hRoot, hRest⟩ := h.retained id hSucceeded
    refine ⟨hRoot, ?_⟩
    by_cases hFetching : s.Fetching id token
    · obtain ⟨rfl, hCurrent⟩ := hThis _ hFetching
      exact .inl (hLast hCurrent hSucceeded)
    · refine hRest.imp_right (Or.imp_right (Or.imp_left ?_))
      rintro ⟨token', hOld⟩
      refine ⟨token', hOld.settle ?_⟩
      rintro rfl
      exact hFetching hOld

/-- The condition on an answer: a request that is rejected is not superseded, or its root is
not cached. -/
def Answerable (s : TraceCache I D) (token : Nat) : FetchAnswer D → Prop
  | .rejected _ => ∀ f, s.fetches token = some f → s.Superseded f → s.has f.rootId = false
  | .ok _ _ | .refused _ _ => True

theorem applyAnswer_cases {token : Nat} {f : Fetch I} {a : FetchAnswer D}
    (hFetch : s.fetches token = some f) (hAnswerable : s.Answerable token a) :
    (s.Superseded f ∧ s.applyAnswer token f a = s) ∨
    (∃ status error, status ≠ .success ∧ (s.Superseded f → s.has f.rootId = false) ∧
      s.applyAnswer token f a =
        (s.cacheDelete f.rootId).recordFetchDiagnostic f.rootId f.root status error) ∨
    (∃ data trace, ¬ s.Superseded f ∧ s.applyAnswer token f a =
      ({ s with served := s.served ++ [(s.rootFetchKey f.rootId, f.key)] }.cacheSet
        ⟨f.rootId, data, trace, 0, f.key, token, f.sentAt⟩).recordFetchDiagnostic
          f.rootId f.root .success none) := by
  cases a with
  | rejected message =>
    exact .inr (.inl ⟨.error, _, nofun, hAnswerable f hFetch, rfl⟩)
  | refused status error =>
    by_cases hSuperseded : s.Superseded f
    · exact .inl ⟨hSuperseded, if_pos hSuperseded⟩
    · exact .inr (.inl ⟨.error, _, nofun, fun h => absurd h hSuperseded, if_neg hSuperseded⟩)
  | ok result trace =>
    cases result with
    | none =>
      by_cases hSuperseded : s.Superseded f
      · exact .inl ⟨hSuperseded, if_pos hSuperseded⟩
      · exact .inr (.inl ⟨.empty, _, nofun, fun h => absurd h hSuperseded, if_neg hSuperseded⟩)
    | some data =>
      by_cases hSuperseded : s.Superseded f
      · exact .inl ⟨hSuperseded, if_pos hSuperseded⟩
      · exact .inr (.inr ⟨data, trace, hSuperseded, if_neg hSuperseded⟩)

theorem Invariant.answer (h : s.Invariant) {token : Nat} {a : FetchAnswer D} {t : TraceCache I D}
    (hAnswerable : s.Answerable token a) (hAnswer : s.answer token a = some t) : t.Invariant := by
  unfold TraceCache.answer at hAnswer
  cases hFetch : s.fetches token with
  | none => rw [hFetch] at hAnswer; exact nomatch hAnswer
  | some f =>
    rw [hFetch] at hAnswer
    cases hSettled : f.settled with
    | true => simp [hSettled] at hAnswer
    | false =>
      obtain rfl : (s.applyAnswer token f a).settle token f = t := by simpa [hSettled] using hAnswer
      rcases applyAnswer_cases hFetch hAnswerable with
        ⟨hSuperseded, hSame⟩ | ⟨status, error, hStatus, -, hForget⟩ | ⟨data, trace, hCurrent, hStore⟩
      · rw [hSame]
        exact h.settle hFetch (fun hNot => absurd hSuperseded hNot) fun hNot => absurd hSuperseded hNot
      · rw [hForget]
        refine (h.forget hStatus).settle hFetch (fun _ _ e hMem hId => ?_) ?_
        · exact absurd hId (mem_cacheDelete.mp hMem).2
        · rintro - ⟨d, hDiagnostic, hSuccess⟩
          rcases update_eq_some hDiagnostic with ⟨-, hNew⟩ | ⟨hOther, -⟩
          · obtain rfl := Option.some.inj hNew
            exact absurd hSuccess hStatus
          · exact absurd rfl hOther
      · rw [hStore]
        have hServed := h.serve (not_not.mp (not_or.mp hCurrent).2)
        generalize hEntry : CacheEntry.mk f.rootId data trace 0 f.key token f.sentAt = entry at *
        have hStored := hEntry ▸ hServed.store hFetch hSettled hCurrent
        have hMem := @mem_cacheSet _ _ { s with served := s.served ++ [(s.rootFetchKey f.rootId, f.key)] }
          entry
        have hHas := @has_cacheSet _ _ { s with served := s.served ++ [(s.rootFetchKey f.rootId, f.key)] }
          entry
        rw [cacheSet_frame] at *
        subst hEntry
        refine hStored.settle hFetch (fun _ hDue e hNew hId => ?_) fun _ _ => hHas
        rcases hMem hNew with ⟨-, hOther⟩ | ⟨slot, rfl⟩
        · exact absurd hId hOther
        · exact (h.fresh hDue).sent token f hFetch hSettled (not_not.mp (not_or.mp hCurrent).1).symm

/-! ## Fetches -/

theorem fetchRoot_frame (s : TraceCache I D) (rootId : String) :
    ∃ diagnostics fetches sent inFlight, (s.fetchRoot rootId).1 =
      { s with diagnostics := diagnostics, fetches := fetches, sent := sent, inFlight := inFlight } := by
  rcases fetchRoot_cases s rootId with
    ⟨-, hFetch⟩ | ⟨root, -, hFetch⟩ | ⟨flight, -, -, -, hFetch⟩ | ⟨root, -, -, hFetch⟩ <;>
  rw [hFetch] <;> exact ⟨_, _, _, _, rfl⟩

theorem Invariant.fetchRoot (h : s.Invariant) (hNow : s.lastWrite < s.now) (rootId : String) :
    (s.fetchRoot rootId).1.Invariant := by
  rcases fetchRoot_cases s rootId with
    ⟨-, hFetch⟩ | ⟨root, -, hFetch⟩ | ⟨flight, -, -, -, hFetch⟩ | ⟨root, hRoot, hSelected, hFetch⟩ <;>
  rw [hFetch]
  · exact h
  · exact ⟨{ h.formed with }, fun hDue => { h.fresh hDue with },
      h.retained.recordFetchDiagnostic fun hStatus => nomatch hStatus⟩
  · exact h
  · exact ⟨h.formed.sendFetch hRoot hSelected, fun hDue => (h.fresh hDue).sendFetch h.formed hNow,
      h.retained.sendFetch h.formed⟩

theorem Formed.fetchRoot_fetching (h : s.Formed) {token : Nat}
    (hToken : (s.fetchRoot rootId).2 = some token) : (s.fetchRoot rootId).1.Fetching rootId token := by
  rcases fetchRoot_cases s rootId with
    ⟨-, hFetch⟩ | ⟨root, -, hFetch⟩ | ⟨flight, hFlight, hKey, hGeneration, hFetch⟩ | ⟨root, -, -, hFetch⟩ <;>
  rw [hFetch] at hToken ⊢
  · exact nomatch hToken
  · exact nomatch hToken
  · obtain rfl := Option.some.inj hToken
    obtain ⟨f, hOld, rfl, hSameKey, hSameGeneration, hSettled⟩ := h.flight rootId flight hFlight
    refine ⟨f, hOld, rfl, hSettled, ?_⟩
    rintro (hOther | hOther)
    · exact hOther (hSameGeneration.trans hGeneration).symm
    · exact hOther (hSameKey.trans hKey).symm
  · obtain rfl := Option.some.inj hToken
    exact Fetching.sent

theorem fetchRoot_none (hNone : (s.fetchRoot rootId).2 = none) :
    s.roots rootId = none ∨
      (s.noWorkspaceRoot = true ∧ ¬ (s.fetchRoot rootId).1.LastSucceeded rootId) := by
  rcases fetchRoot_cases s rootId with
    ⟨hRoot, -⟩ | ⟨root, hWorkspace, hFetch⟩ | ⟨flight, -, -, -, hFetch⟩ | ⟨root, -, -, hFetch⟩
  · exact .inl hRoot
  · refine .inr ⟨hWorkspace, ?_⟩
    rw [hFetch]
    rintro ⟨d, hDiagnostic, hSuccess⟩
    rcases update_eq_some hDiagnostic with ⟨-, hNew⟩ | ⟨hOther, -⟩
    · obtain rfl := Option.some.inj hNew
      exact nomatch hSuccess
    · exact hOther rfl
  · rw [hFetch] at hNone
    exact nomatch hNone
  · rw [hFetch] at hNone
    exact nomatch hNone

theorem Invariant.fetchRoot_wanted (h : s.Invariant) (hNow : s.lastWrite < s.now)
    (hLast : (s.fetchRoot rootId).1.LastSucceeded rootId) :
    ∃ token, (s.fetchRoot rootId).1.Fetching rootId token := by
  cases hFetch : (s.fetchRoot rootId).2 with
  | some token => exact ⟨token, h.formed.fetchRoot_fetching hFetch⟩
  | none =>
    rcases fetchRoot_none hFetch with hRoot | ⟨-, hNot⟩
    · obtain ⟨hSome, -⟩ := (h.fetchRoot hNow rootId).retained rootId hLast
      obtain ⟨_, _, _, _, hFrame⟩ := fetchRoot_frame s rootId
      rw [hFrame] at hSome
      exact absurd hSome (by simp [hRoot])
    · exact absurd hLast hNot

omit [DecidableEq I] in
theorem Invariant.reschedule (h : s.Invariant) (pending : Option PendingFetchState)
    (hWanted : s.LastSucceeded rootId → s.has rootId = false →
      (∃ p, pending = some p ∧ (p.awaiting = none ∨ p.dirty = true)) ∨
      (∃ token, s.Fetching rootId token) ∨
      ∃ i v, s.validations i = some v ∧ v.generation = s.generation ∧ s.Visits rootId v.phase) :
    { s with pendingFetches := Function.update s.pendingFetches rootId pending }.Invariant := by
  refine ⟨{ h.formed with }, fun hDue => { h.fresh hDue with }, fun id hLast => ?_⟩
  obtain ⟨hRoot, hRest⟩ := h.retained id hLast
  refine ⟨hRoot, ?_⟩
  rcases eq_or_ne id rootId with rfl | hOther
  · cases hHas : s.has id with
    | true => exact .inl hHas
    | false =>
      refine .inr ((hWanted hLast hHas).imp_left ?_)
      rintro ⟨p, rfl, hDue⟩
      exact ⟨p, Function.update_self .., hDue⟩
  · refine hRest.imp_right (Or.imp_left ?_)
    rintro ⟨p, hPending, hDue⟩
    exact ⟨p, (Function.update_of_ne hOther ..).trans hPending, hDue⟩

omit [DecidableEq I] in
theorem Invariant.scheduleFetch (h : s.Invariant) (rootId : String) : (s.scheduleFetch rootId).Invariant := by
  refine h.reschedule _ fun _ _ => .inl ⟨_, rfl, ?_⟩
  cases s.pendingFetches rootId with
  | none => exact .inl rfl
  | some pending => exact .inr rfl

theorem Invariant.fetchRound (h : s.Invariant) (hNow : s.lastWrite < s.now) (rootId : String) :
    (s.fetchRound rootId).Invariant :=
  (h.fetchRoot hNow rootId).reschedule _ fun hLast _ => .inr (.inl (h.fetchRoot_wanted hNow hLast))

omit [DecidableEq I] in
theorem Fetching.settled_eq {token : Nat} (h : s.Fetching rootId token) : s.settled (some token) = false := by
  obtain ⟨f, hFetch, -, hSettled, -⟩ := h
  simp [settled, hFetch, hSettled]

theorem Invariant.resumeSchedule (h : s.Invariant) (hNow : s.lastWrite < s.now) {t : TraceCache I D}
    (hResume : s.resumeSchedule rootId = some t) : t.Invariant := by
  unfold TraceCache.resumeSchedule at hResume
  cases hPending : s.pendingFetches rootId with
  | none => rw [hPending] at hResume; exact nomatch hResume
  | some pending =>
    simp only [hPending] at hResume
    cases hAwaiting : pending.awaiting with
    | none =>
      simp only [hAwaiting] at hResume
      exact Option.some.inj hResume ▸ h.fetchRound hNow rootId
    | some fetch =>
      simp only [hAwaiting] at hResume
      split at hResume
      · exact nomatch hResume
      · split at hResume
        · exact Option.some.inj hResume ▸ h.fetchRound hNow rootId
        · rename_i hClean
          obtain rfl := Option.some.inj hResume
          refine h.reschedule _ fun hLast hHas => .inr ?_
          obtain ⟨-, hThere | hWanted⟩ := h.retained rootId hLast
          · exact absurd (hHas.symm.trans hThere) Bool.false_ne_true
          · refine hWanted.resolve_left ?_
            rintro ⟨p, hSame, hDue⟩
            obtain rfl := Option.some.inj (hPending.symm.trans hSame)
            exact hDue.elim (fun hNone => nomatch hAwaiting.symm.trans hNone) hClean

end Exosuit.Extension.TraceCache
