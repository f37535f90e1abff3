import Exosuit.Extension.TraceCacheValidations

/-!
# Runs of the trace cache

A cache ends up fresh in every run in which no superseded request is rejected while its root
is cached, and neither the workspace nor what is registered under an id changes while an
entry of the other is cached.
-/

namespace Exosuit.Extension.TraceCache

open Exosuit.Lib

variable {I D : Type} [Inhabited I] [DecidableEq I] {s t : TraceCache I D} {rootId : String}

/-! ## Roots and the workspace -/

omit [DecidableEq I] in
theorem Superseded.congr {f : Fetch I} (hGeneration : t.generation = s.generation)
    (hKey : t.rootFetchKey f.rootId = s.rootFetchKey f.rootId) (hOf : t.Superseded f) :
    s.Superseded f := by
  unfold Superseded at *
  rwa [hGeneration, hKey] at hOf

/-- The condition on the events. -/
def Allowed (s : TraceCache I D) : Event I D → Prop
  | .setWorkspaceRoot root => s.workspaceRoot = some root ∨ (root ≠ "" ∧ s.cache = [] ∧
      ∀ token f, s.fetches token = some f → f.settled = false → s.Superseded f)
  | .registerRoot rootId root => s.has rootId = false ∨
      (s.registerRoot rootId root).rootFetchKey rootId = s.rootFetchKey rootId
  | .answer token a => s.Answerable token a
  | _ => True

omit [DecidableEq I] in
theorem Invariant.setWorkspaceRoot (h : s.Invariant) {root : String} (hRoot : root ≠ "")
    (hEmpty : s.cache = [])
    (hOver : ∀ token f, s.fetches token = some f → f.settled = false → s.Superseded f) :
    { s with workspaceRoot := some root }.Invariant := by
  have hNot : ∀ e, e ∉ s.cache := fun e hMem => absurd (hEmpty ▸ hMem) List.not_mem_nil
  refine ⟨{ h.formed with key := ?_, unselected := ?_ }, fun hDue => { h.fresh hDue with vouched := ?_ }, ?_⟩
  · exact fun e hMem => absurd hMem (hNot e)
  · intro hNone
    exact absurd (eq_of_beq hNone) hRoot
  · exact fun e hMem => absurd hMem (hNot e)
  · intro id hLast
    obtain ⟨hSome, hRest⟩ := h.retained id hLast
    refine ⟨hSome, hRest.imp_right (Or.imp_right (Or.imp_left ?_))⟩
    rintro ⟨token, f, hFetch, -, hSettled, hCurrent⟩
    exact absurd (hOver token f hFetch hSettled) hCurrent

omit [DecidableEq I] in
theorem rootFetchKey_registerRoot_of_ne {id : String} {root : TraceCacheRoot I} (hOther : id ≠ rootId) :
    (s.registerRoot rootId root).rootFetchKey id = s.rootFetchKey id :=
  rootFetchKey_congr rfl (Function.update_of_ne hOther ..)

omit [Inhabited I] [DecidableEq I] in
theorem isSome_registerRoot {id : String} {root : TraceCacheRoot I} (hSome : (s.roots id).isSome) :
    ((s.registerRoot rootId root).roots id).isSome := by
  rcases eq_or_ne id rootId with rfl | hOther
  · exact (congrArg Option.isSome (Function.update_self id (some root) s.roots)).trans rfl
  · exact (congrArg Option.isSome (Function.update_of_ne hOther (some root) s.roots)).trans hSome

omit [Inhabited I] [DecidableEq I] in
theorem registerRoot_of_listed {root : TraceCacheRoot I} (hListed : rootId ∈ s.rootIds) :
    s.registerRoot rootId root = { s with roots := Function.update s.roots rootId (some root) } := by
  rw [registerRoot, if_pos hListed]

omit [Inhabited I] [DecidableEq I] in
theorem getElem?_registerRoot {id : String} {root : TraceCacheRoot I} {n : Nat}
    (hPlace : s.rootIds[n]? = some id) : (s.registerRoot rootId root).rootIds[n]? = some id := by
  unfold registerRoot
  dsimp only
  split
  · exact hPlace
  · rw [List.getElem?_append_left (List.getElem?_eq_some_iff.mp hPlace).1, hPlace]

omit [DecidableEq I] in
theorem Fetching.registerRoot {id : String} {root : TraceCacheRoot I} {token : Nat}
    (hFetching : s.Fetching id token)
    (hKey : (s.registerRoot rootId root).rootFetchKey id = s.rootFetchKey id) :
    (s.registerRoot rootId root).Fetching id token := by
  obtain ⟨f, hFetch, rfl, hSettled, hCurrent⟩ := hFetching
  exact ⟨f, hFetch, rfl, hSettled, fun hOf =>
    hCurrent (Superseded.congr (t := s.registerRoot rootId root) rfl hKey hOf)⟩

omit [DecidableEq I] in
theorem Invariant.registerRoot (h : s.Invariant) (root : TraceCacheRoot I)
    (hScheduled : ∃ pending, s.pendingFetches rootId = some pending ∧
      (pending.awaiting = none ∨ pending.dirty = true))
    (hSame : ∀ e ∈ s.cache, e.rootId = rootId →
      (s.registerRoot rootId root).rootFetchKey rootId = s.rootFetchKey rootId) :
    (s.registerRoot rootId root).Invariant := by
  have hKey : ∀ e ∈ s.cache,
      (s.registerRoot rootId root).rootFetchKey e.rootId = s.rootFetchKey e.rootId := by
    intro e hMem
    rcases eq_or_ne e.rootId rootId with hId | hOther
    · rw [hId]
      exact hSame e hMem hId
    · exact rootFetchKey_registerRoot_of_ne hOther
  refine ⟨{ h.formed with key := ?_, registered := ?_, fetched := ?_, listed := ?_ },
    fun hDue => { h.fresh hDue with vouched := ?_ }, fun id hLast => ?_⟩
  · exact fun e hMem => (h.formed.key e hMem).trans (hKey e hMem).symm
  · exact fun e hMem => isSome_registerRoot (h.formed.registered e hMem)
  · intro token f hFetch
    obtain ⟨hLt, hLe, hSome⟩ := h.formed.fetched token f hFetch
    exact ⟨hLt, hLe, isSome_registerRoot hSome⟩
  · intro id hSome
    have hListed : id = rootId ∨ id ∈ s.rootIds := by
      rcases eq_or_ne id rootId with rfl | hOther
      · exact .inl rfl
      · refine .inr (h.formed.listed id ?_)
        have hUpdated : (Function.update s.roots rootId (some root) id).isSome := hSome
        rwa [Function.update_of_ne hOther] at hUpdated
    unfold TraceCache.registerRoot
    dsimp only
    split
    case isTrue hThere =>
      rcases hListed with rfl | hMem
      · exact hThere
      · exact hMem
    case isFalse =>
      rcases hListed with rfl | hMem
      · exact List.mem_append_right _ (List.mem_singleton.mpr rfl)
      · exact List.mem_append_left _ hMem
  · intro e hMem
    refine ((h.fresh hDue).vouched e hMem).imp_right ?_
    rintro ⟨i, v, hValidation, hGeneration, hCovers⟩
    exact ⟨i, v, hValidation, hGeneration,
      hCovers.mono fun token hFetching => hFetching.registerRoot (hKey e hMem)⟩
  · obtain ⟨hSome, hRest⟩ := h.retained id hLast
    refine ⟨isSome_registerRoot hSome, ?_⟩
    rcases eq_or_ne id rootId with rfl | hOther
    · exact .inr (.inl hScheduled)
    · refine hRest.imp_right (Or.imp_right (Or.imp ?_ ?_))
      · rintro ⟨token, hFetching⟩
        exact ⟨token, hFetching.registerRoot (rootFetchKey_registerRoot_of_ne hOther)⟩
      · rintro ⟨i, ⟨generation, phase⟩, hValidation, hGeneration, hVisits⟩
        refine ⟨i, _, hValidation, hGeneration, ?_⟩
        cases phase with
        | roots place =>
          obtain ⟨n, hLe, hPlace⟩ := hVisits
          exact ⟨n, hLe, getElem?_registerRoot hPlace⟩
        | fetching fetch place =>
          obtain ⟨n, hLe, hPlace⟩ := hVisits
          exact ⟨n, hLe, getElem?_registerRoot hPlace⟩
        | _ => exact hVisits

omit [Inhabited I] [DecidableEq I] in
theorem scheduleFetch_due (s : TraceCache I D) (rootId : String) :
    ∃ pending, (s.scheduleFetch rootId).pendingFetches rootId = some pending ∧
      (pending.awaiting = none ∨ pending.dirty = true) := by
  refine ⟨_, Function.update_self .., ?_⟩
  cases s.pendingFetches rootId with
  | none => exact .inl rfl
  | some pending => exact .inr rfl

omit [DecidableEq I] in
theorem Invariant.drop (h : s.Invariant) (rootId : String) :
    ({ s.cacheDelete rootId with
        inFlight := Function.update s.inFlight rootId none }.scheduleFetch rootId).Invariant := by
  have hDelete : (s.cacheDelete rootId).Formed := h.formed.cacheDelete
  refine ⟨{ hDelete with flight := ?_ }, fun hDue => { (h.fresh hDue).cacheDelete with }, fun id hLast => ?_⟩
  · intro id flight hFlight
    rcases update_eq_some hFlight with ⟨-, hNone⟩ | ⟨-, hOld⟩
    · exact nomatch hNone
    · exact h.formed.flight id flight hOld
  · obtain ⟨hSome, hRest⟩ := h.retained id hLast
    refine ⟨hSome, ?_⟩
    rcases eq_or_ne id rootId with rfl | hOther
    · exact .inr (.inl (scheduleFetch_due _ id))
    · refine hRest.imp (has_cacheDelete_of_ne hOther) (Or.imp_left ?_)
      rintro ⟨pending, hPending, hDue⟩
      exact ⟨pending, (Function.update_of_ne hOther ..).trans hPending, hDue⟩

omit [DecidableEq I] in
theorem Invariant.updateRootInput (h : s.Invariant) (rootId : String) (input : Option I) :
    (s.updateRootInput rootId input).Invariant := by
  unfold TraceCache.updateRootInput
  cases hRoot : s.roots rootId with
  | none => exact h
  | some root =>
    have hListed : rootId ∈ s.rootIds := h.formed.listed rootId (hRoot ▸ rfl)
    have hNew := (h.drop rootId).registerRoot { root with input } (scheduleFetch_due _ rootId)
      fun e hMem hId => absurd hId (mem_cacheDelete.mp hMem).2
    rw [registerRoot_of_listed] at hNew
    · exact hNew
    · exact hListed

theorem Invariant.get (h : s.Invariant) (hNow : s.lastWrite < s.now) (rootId : String) :
    (s.get rootId).Invariant := by
  unfold TraceCache.get
  split
  case h_1 e hFind =>
    have hId : e.rootId = rootId := by simpa using List.find?_some hFind
    exact h.serve (hId ▸ (h.formed.key e (List.mem_of_find?_eq_some hFind)).symm)
  case h_2 => exact h.fetchRoot hNow rootId

/-! ## Steps and runs -/

omit [DecidableEq I] in
theorem Invariant.tick (h : s.Invariant) : s.tick.Invariant where
  formed := { h.formed with time := Nat.le_succ_of_le h.formed.time }
  fresh hDue := { h.fresh hDue with }
  retained := h.retained

theorem Invariant.step (h : s.Invariant) {event : Event I D} (hAllowed : s.Allowed event)
    (hStep : s.step event = some t) : t.Invariant := by
  have hTick := h.tick
  have hNow : s.tick.lastWrite < s.tick.now := Nat.lt_succ_of_le h.formed.time
  cases event with
  | setWorkspaceRoot root =>
    obtain rfl := Option.some.inj hStep
    rcases hAllowed with hSame | ⟨hRoot, hEmpty, hOver⟩
    · have hState : { s.tick with workspaceRoot := some root } = s.tick := by rw [← hSame]; rfl
      rw [hState]
      exact hTick
    · exact hTick.setWorkspaceRoot hRoot hEmpty hOver
  | registerRoot rootId root =>
    obtain rfl := Option.some.inj hStep
    refine (hTick.scheduleFetch rootId).registerRoot _ (scheduleFetch_due _ rootId) fun e hMem hId => ?_
    rcases hAllowed with hNot | hKey
    · exact absurd (hNot.symm.trans (has_iff.mpr ⟨e, hMem, hId⟩)) Bool.false_ne_true
    · exact hKey
  | updateRootInput rootId input => exact Option.some.inj hStep ▸ hTick.updateRootInput rootId input
  | get rootId => exact Option.some.inj hStep ▸ hTick.get hNow rootId
  | revalidateAll =>
    obtain rfl := Option.some.inj hStep
    exact ⟨{ hTick.formed with }, nofun, hTick.retained⟩
  | notifyWrite =>
    obtain rfl := Option.some.inj hStep
    exact ⟨{ hTick.formed with time := Nat.le_refl _ }, nofun, hTick.retained⟩
  | timer =>
    unfold TraceCache.step at hStep
    dsimp only at hStep
    split at hStep
    · exact Option.some.inj hStep ▸ hTick.startValidation
    · exact nomatch hStep
  | resumeSchedule rootId => exact hTick.resumeSchedule hNow hStep
  | answer token a => exact hTick.answer hAllowed hStep
  | resumeValidation i => exact hTick.resumeValidation hNow hStep
  | validated i a => exact hTick.validated hNow hStep

omit [DecidableEq I] in
theorem Invariant.new : (new : TraceCache I D).Invariant where
  formed :=
    { ordered := ⟨.nil, List.forall_mem_nil _⟩
      key := List.forall_mem_nil _
      registered := List.forall_mem_nil _
      fetched := nofun
      flight := nofun
      validating := nofun
      unselected := fun _ => ⟨rfl, fun _ => rfl, fun _ => rfl⟩
      listed := nofun
      current := List.forall_mem_nil _
      time := Nat.le_refl 0 }
  fresh _ := ⟨nofun, nofun, List.forall_mem_nil _⟩
  retained := by
    rintro id ⟨d, hNone, -⟩
    exact nomatch hNone

/-- An answer that comes when its fetch is superseded leaves the cache as it was. -/
def Discards (s : TraceCache I D) (event : Event I D) : Prop :=
  ∀ token a f, event = .answer token a → s.fetches token = some f → s.Superseded f →
    ∀ t, s.step event = some t → t.cache = s.cache

theorem Allowed.discards {event : Event I D} (h : s.Allowed event) : s.Discards event := by
  rintro token a f rfl hFetch hSuperseded t (hStep : s.tick.answer token a = some t)
  unfold answer at hStep
  rw [show s.tick.fetches token = some f from hFetch] at hStep
  cases hSettled : f.settled with
  | true => simp [hSettled] at hStep
  | false =>
    obtain rfl : (s.tick.applyAnswer token f a).settle token f = t := by simpa [hSettled] using hStep
    rcases @applyAnswer_cases _ _ _ s.tick _ token f a hFetch h with
      ⟨-, hSame⟩ | ⟨status, error, -, hNot, hForget⟩ | ⟨data, trace, hCurrent, -⟩
    · rw [hSame]
      rfl
    · rw [hForget]
      have hKept := cacheDelete_of_not_has (s := s.tick) (hNot hSuperseded)
      calc
        (s.tick.cacheDelete f.rootId).cache = s.tick.cache := by rw [hKept]
        _ = s.cache := rfl
    · exact absurd hSuperseded hCurrent

/-- Nothing is outstanding. -/
structure Quiet (s : TraceCache I D) : Prop where
  validation : s.pendingValidation = false
  fetches : ∀ token f, s.fetches token = some f → f.settled = true
  validations : ∀ i v, s.validations i = some v → v.phase = .finished
  pendingFetches : ∀ rootId, s.pendingFetches rootId = none

/-- What the cache is for: superseded answers are discarded, `get` returns what was fetched
under the current key, and once nothing is outstanding every entry was fetched or found valid
by a request sent after the last write, and a root whose last fetch succeeded is cached. -/
structure EndsFresh (events : List (Event I D)) : Prop where
  discards : Along step Discards new events
  served : ∀ s, run step new events = some s → ∀ keys ∈ s.served, keys.1 = keys.2
  fresh : ∀ s, run step new events = some s → s.Quiet → ∀ e ∈ s.cache, s.lastWrite < e.vouched
  retained : ∀ s, run step new events = some s → s.Quiet →
    ∀ rootId, s.LastSucceeded rootId → s.has rootId = true

omit [DecidableEq I] in
theorem Invariant.fresh_of_quiet (h : s.Invariant) (hQuiet : s.Quiet) {e : CacheEntry I D}
    (hMem : e ∈ s.cache) : s.lastWrite < e.vouched := by
  rcases (h.fresh hQuiet.validation).vouched e hMem with hVouched | ⟨i, v, hValidation, -, hCovers⟩
  · exact hVouched
  · rw [hQuiet.validations i v hValidation] at hCovers
    exact hCovers.elim

omit [DecidableEq I] in
theorem Invariant.has_of_quiet (h : s.Invariant) (hQuiet : s.Quiet) (hLast : s.LastSucceeded rootId) :
    s.has rootId = true := by
  rcases (h.retained rootId hLast).2 with hHas | ⟨pending, hPending, -⟩ |
    ⟨token, f, hFetch, -, hSettled, -⟩ | ⟨i, v, hValidation, -, hVisits⟩
  · exact hHas
  · exact nomatch (hQuiet.pendingFetches rootId).symm.trans hPending
  · exact absurd (hSettled.symm.trans (hQuiet.fetches token f hFetch)) Bool.false_ne_true
  · rw [hQuiet.validations i v hValidation] at hVisits
    exact hVisits.elim

/-- Every run of allowed events ends up fresh. -/
theorem endsFresh_of_allowed (events : List (Event I D)) (hAllowed : Along step Allowed new events) :
    EndsFresh events := by
  have hInvariant : ∀ s, run step new events = some s → s.Invariant := fun s hRun =>
    invariant_of_along (fun _ _ _ h hEvent hStep => h.step hEvent hStep) Invariant.new hAllowed hRun
  refine ⟨?_, ?_, ?_, ?_⟩
  · exact hAllowed.mono fun _ _ h => h.discards
  · exact fun s hRun => (hInvariant s hRun).formed.current
  · exact fun s hRun hQuiet e hMem => (hInvariant s hRun).fresh_of_quiet hQuiet hMem
  · exact fun s hRun hQuiet rootId hLast => (hInvariant s hRun).has_of_quiet hQuiet hLast

/-- The root of the examples below, registered and being fetched in a workspace. -/
def opening : List (Event String String) :=
  [.setWorkspaceRoot "/w", .registerRoot "phase" ⟨"context", "phase", none⟩, .resumeSchedule "phase"]

theorem endsFresh_stock :
    EndsFresh (opening ++ [.answer 0 (.ok (some "old") "trace"), .notifyWrite, .timer,
      .resumeValidation 0, .validated 0 (.answered false), .answer 1 (.ok (some "new") "trace")]) :=
  endsFresh_of_allowed _ (by
    refine ⟨.inr ⟨by decide, rfl, nofun⟩, fun _ h => ?_⟩; cases h
    refine ⟨.inl rfl, fun _ h => ?_⟩; cases h
    refine ⟨trivial, fun _ h => ?_⟩; cases h
    refine ⟨trivial, fun _ h => ?_⟩; cases h
    refine ⟨trivial, fun _ h => ?_⟩; cases h
    refine ⟨trivial, fun _ h => ?_⟩; cases h
    refine ⟨trivial, fun _ h => ?_⟩; cases h
    refine ⟨trivial, fun _ h => ?_⟩; cases h
    exact ⟨trivial, fun _ _ => trivial⟩)

/-- A request of an earlier generation that is rejected late removes the entry that a later
one brought; an entry of another workspace and one of another operation are returned. -/
theorem stale_runs :
    ¬ EndsFresh ((opening ++ [.notifyWrite, .timer, .resumeValidation 0, .resumeValidation 0,
      .answer 1 (.ok (some "new") "trace")]) ++ [.answer 0 (.rejected "timeout")]) ∧
    ¬ EndsFresh (opening ++ [.answer 0 (.ok (some "data") "trace"), .setWorkspaceRoot "/v",
      .get "phase"]) ∧
    ¬ EndsFresh (opening ++ [.answer 0 (.ok (some "data") "trace"),
      .registerRoot "phase" ⟨"context", "goal", none⟩, .get "phase"]) := by
  refine ⟨fun h => ?_, fun h => ?_, fun h => ?_⟩
  · have hRejected : Along TraceCache.step Discards _ [_] := Along.append h.discards rfl
    have hSame := hRejected.1 0 _ _ rfl rfl (.inl (by decide)) _ rfl
    exact absurd (congrArg List.length hSame) (by decide)
  · exact absurd (h.served _ rfl) (by decide)
  · exact absurd (h.served _ rfl) (by decide)

end Exosuit.Extension.TraceCache
