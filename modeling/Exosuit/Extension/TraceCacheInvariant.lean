import Exosuit.Extension.TraceCacheShape

/-!
# The invariants of the trace cache

`Formed` relates the maps of a cache. `Fresh` holds while no validation is due: what is under
way in the current generation was sent after the last write, and every entry was, or a
validation of that generation will reach it. `Retained` says where the entry of a root is
whose last fetch succeeded.
-/

namespace Exosuit.Extension.TraceCache

open Exosuit.Lib

variable {I D : Type} [Inhabited I] {s : TraceCache I D} {rootId : String}

structure Formed (s : TraceCache I D) : Prop where
  ordered : Ordered s.cache s.nextSlot
  key : ∀ e ∈ s.cache, e.key = s.rootFetchKey e.rootId
  registered : ∀ e ∈ s.cache, (s.roots e.rootId).isSome
  fetched : ∀ token f, s.fetches token = some f →
    token < s.sent ∧ f.generation ≤ s.generation ∧ (s.roots f.rootId).isSome
  flight : ∀ rootId flight, s.inFlight rootId = some flight → ∃ f,
    s.fetches flight.token = some f ∧ f.rootId = rootId ∧ f.key = flight.key ∧
      f.generation = flight.generation ∧ f.settled = false
  validating : ∀ i v, s.validations i = some v → i < s.started ∧ v.generation ≤ s.generation
  unselected : s.noWorkspaceRoot = true →
    s.cache = [] ∧ (∀ token, s.fetches token = none) ∧ ∀ i, s.validations i = none
  listed : ∀ rootId, (s.roots rootId).isSome → rootId ∈ s.rootIds
  current : ∀ keys ∈ s.served, keys.1 = keys.2
  time : s.lastWrite ≤ s.now

def Fetching (s : TraceCache I D) (rootId : String) (token : Nat) : Prop :=
  ∃ f, s.fetches token = some f ∧ f.rootId = rootId ∧ f.settled = false ∧ ¬ s.Superseded f

/-- A validation that stands there will validate the entry or fetch its root. -/
def Covers (s : TraceCache I D) (e : CacheEntry I D) : ValidationPhase → Prop
  | .entries slot => slot ≤ e.slot
  | .validating rootId token slot _ => slot ≤ e.slot ∨ (e.rootId = rootId ∧ e.token = token)
  | .refetching fetch slot => slot ≤ e.slot ∨ ∃ token, fetch = some token ∧ s.Fetching e.rootId token
  | .roots _ | .fetching _ _ | .finished => False

structure Fresh (s : TraceCache I D) : Prop where
  sent : ∀ token f, s.fetches token = some f → f.settled = false → f.generation = s.generation →
    s.lastWrite < f.sentAt
  asked : ∀ i v, s.validations i = some v → v.generation = s.generation →
    ∀ rootId token slot sentAt, v.phase = .validating rootId token slot sentAt → s.lastWrite < sentAt
  vouched : ∀ e ∈ s.cache, s.lastWrite < e.vouched ∨ ∃ i v, s.validations i = some v ∧
    v.generation = s.generation ∧ s.Covers e v.phase

/-- A validation that stands there will fetch the root unless it is cached. -/
def Visits (s : TraceCache I D) (rootId : String) : ValidationPhase → Prop
  | .entries _ | .validating .. | .refetching _ _ => True
  | .roots place | .fetching _ place => ∃ n, place ≤ n ∧ s.rootIds[n]? = some rootId
  | .finished => False

/-- What will bring the root into the cache, or find that it cannot be fetched. -/
def Wanted (s : TraceCache I D) (rootId : String) : Prop :=
  (∃ pending, s.pendingFetches rootId = some pending ∧
    (pending.awaiting = none ∨ pending.dirty = true)) ∨
  (∃ token, s.Fetching rootId token) ∨
  ∃ i v, s.validations i = some v ∧ v.generation = s.generation ∧ s.Visits rootId v.phase

def LastSucceeded (s : TraceCache I D) (rootId : String) : Prop :=
  ∃ d, s.diagnostics rootId = some d ∧ d.status = .success

def Retained (s : TraceCache I D) : Prop :=
  ∀ rootId, s.LastSucceeded rootId →
    (s.roots rootId).isSome ∧ (s.has rootId = true ∨ s.Wanted rootId)

structure Invariant (s : TraceCache I D) : Prop where
  formed : s.Formed
  fresh : s.pendingValidation = false → s.Fresh
  retained : s.Retained

/-! ## Sending a fetch -/

theorem Formed.fetches_sendFetch (h : s.Formed) {root : TraceCacheRoot I} {token : Nat} {f : Fetch I}
    (hFetch : s.fetches token = some f) : (s.sendFetch rootId root).fetches token = some f :=
  (Function.update_of_ne (Nat.ne_of_lt (h.fetched token f hFetch).1) ..).trans hFetch

theorem Formed.sendFetch (h : s.Formed) {root : TraceCacheRoot I} (hRoot : s.roots rootId = some root)
    (hWorkspace : s.noWorkspaceRoot = false) : (s.sendFetch rootId root).Formed := by
  refine { h with fetched := ?_, flight := ?_, unselected := ?_ }
  · intro token f hFetch
    rcases update_eq_some hFetch with ⟨rfl, hNew⟩ | ⟨hOther, hOld⟩
    · obtain rfl := Option.some.inj hNew
      exact ⟨Nat.lt_succ_self _, Nat.le_refl _, hRoot ▸ rfl⟩
    · obtain ⟨hLt, hRest⟩ := h.fetched token f hOld
      exact ⟨Nat.lt_succ_of_lt hLt, hRest⟩
  · intro id flight hFlight
    rcases update_eq_some hFlight with ⟨rfl, hNew⟩ | ⟨hOther, hOld⟩
    · obtain rfl := Option.some.inj hNew
      exact ⟨_, Function.update_self .., rfl, rfl, rfl, rfl⟩
    · obtain ⟨f, hFetch, hRest⟩ := h.flight id flight hOld
      exact ⟨f, h.fetches_sendFetch hFetch, hRest⟩
  · exact fun hNone => absurd (hWorkspace.symm.trans hNone) Bool.false_ne_true

theorem Fetching.sendFetch (h : s.Formed) {root : TraceCacheRoot I} {id : String} {token : Nat}
    (hFetching : s.Fetching id token) : (s.sendFetch rootId root).Fetching id token := by
  obtain ⟨f, hFetch, hRest⟩ := hFetching
  exact ⟨f, h.fetches_sendFetch hFetch, hRest⟩

theorem Fetching.sent {root : TraceCacheRoot I} : (s.sendFetch rootId root).Fetching rootId s.sent :=
  ⟨_, Function.update_self .., rfl, rfl, fun hOld => hOld.elim (fun h => h rfl) fun h => h rfl⟩

theorem Covers.mono {t : TraceCache I D} {e : CacheEntry I D} {phase : ValidationPhase}
    (hFetching : ∀ token, s.Fetching e.rootId token → t.Fetching e.rootId token)
    (hCovers : s.Covers e phase) : t.Covers e phase := by
  cases phase with
  | refetching fetch slot =>
    rcases hCovers with hSlot | ⟨token, hFetch, hOf⟩
    · exact .inl hSlot
    · exact .inr ⟨token, hFetch, hFetching token hOf⟩
  | _ => exact hCovers

theorem Fresh.sendFetch (h : s.Formed) (hFresh : s.Fresh) (hNow : s.lastWrite < s.now)
    {root : TraceCacheRoot I} : (s.sendFetch rootId root).Fresh := by
  refine { hFresh with sent := ?_, vouched := ?_ }
  · intro token f hFetch
    rcases update_eq_some hFetch with ⟨rfl, hNew⟩ | ⟨-, hOld⟩
    · obtain rfl := Option.some.inj hNew
      exact fun _ _ => hNow
    · exact hFresh.sent token f hOld
  · intro e hMem
    refine (hFresh.vouched e hMem).imp_right ?_
    rintro ⟨i, v, hValidation, hGeneration, hCovers⟩
    exact ⟨i, v, hValidation, hGeneration, hCovers.mono fun token => Fetching.sendFetch h⟩

theorem Wanted.sendFetch (h : s.Formed) {root : TraceCacheRoot I} {id : String}
    (hWanted : s.Wanted id) : (s.sendFetch rootId root).Wanted id :=
  hWanted.imp_right (Or.imp_left fun ⟨token, hFetching⟩ => ⟨token, hFetching.sendFetch h⟩)

theorem Retained.sendFetch (h : s.Formed) (hRetained : s.Retained) {root : TraceCacheRoot I} :
    (s.sendFetch rootId root).Retained := fun id hLast =>
  ⟨(hRetained id hLast).1, (hRetained id hLast).2.imp_right (Wanted.sendFetch h)⟩

/-! ## Recording a diagnostic -/

theorem Retained.recordFetchDiagnostic {root : TraceCacheRoot I} {status : TraceCacheFetchStatus}
    {error : Option (FetchError D)} (hRetained : s.Retained)
    (hStatus : status = .success → (s.roots rootId).isSome ∧ s.has rootId = true) :
    (s.recordFetchDiagnostic rootId root status error).Retained := by
  rintro id ⟨d, hDiagnostic, hSuccess⟩
  rcases update_eq_some hDiagnostic with ⟨rfl, hNew⟩ | ⟨-, hOld⟩
  · obtain rfl := Option.some.inj hNew
    exact (hStatus hSuccess).imp_right .inl
  · exact hRetained id ⟨d, hOld, hSuccess⟩

end Exosuit.Extension.TraceCache
