import Mathlib.Data.List.Nodup
import Exosuit.Extension.DaemonConnection

/-!
# What a connection keeps in step

The requests that wait are the active one and the queue; the map and the timers hold the
active one alone. What the log may say is a predicate on it, read from the newest effect on.
-/

namespace Exosuit.Extension.DaemonConnection

open Lib

variable {Envelope : Type} {wire : Wire Envelope} {s : DaemonConnection Envelope}

def writes : List (Effect Envelope) → List (QueuedRequest Envelope)
  | [] => []
  | .wrote request _ :: older => request :: writes older
  | _ :: older => writes older

def settledNumbers : List (Effect Envelope) → List Nat
  | [] => []
  | .settled request _ :: older => request.number :: settledNumbers older
  | _ :: older => settledNumbers older

/-- Requests are written in order and before the close, and each settles once, if with a response
then with one of its own id that arrived after the write. -/
def Lawful (wire : Wire Envelope) : List (Effect Envelope) → Prop
  | [] => True
  | .wrote request _ :: older =>
    Lawful wire older ∧ .closed ∉ older ∧ ∀ w ∈ writes older, w.number < request.number
  | .settled request settlement :: older =>
    Lawful wire older ∧ request.number ∉ settledNumbers older ∧
      ∀ response, settlement = .response response →
        responseId response = some (wire.id request.envelope) ∧
        ∃ newer before, older = newer ++ .arrived response :: before ∧ request ∈ writes before
  | _ :: older => Lawful wire older

/-- The requests that wait for an answer or to be written. -/
def outstanding (s : DaemonConnection Envelope) : List (QueuedRequest Envelope) :=
  s.activeRequest.toList ++ s.queuedRequests

/-- The promises, the queue and the log agree, but for a request that is just being handled. -/
structure Ledger (wire : Wire Envelope) (handled : Option (QueuedRequest Envelope))
    (s : DaemonConnection Envelope) : Prop where
  lawful : Lawful wire s.log
  closed : .closed ∈ s.log ↔ s.closed = true
  numbered : s.requested.map QueuedRequest.number = List.range s.requested.length
  waiting : ∀ q ∈ s.outstanding, q ∈ s.requested
  ordered : s.outstanding.Pairwise fun q q' => q.number < q'.number
  written : ∀ w ∈ writes s.log, w ∈ s.requested ∧ ∀ q ∈ s.queuedRequests, w.number < q.number
  unanswered : ∀ w ∈ writes s.log, s.promises w.number = none → s.activeRequest = some w ∨ handled = some w
  active : ∀ q, s.activeRequest = some q → s.promises q.number = none → q ∈ writes s.log
  unsettled : ∀ q ∈ s.requested, s.promises q.number = none → q ∈ s.outstanding ∨ handled = some q
  settled : ∀ n, n ∈ settledNumbers s.log ↔ s.promises n ≠ none
  fresh : ∀ n, s.requested.length ≤ n → s.promises n = none
  serial : ∀ q ∈ s.queuedRequests, (wire.stringify q.envelope).isSome

/-- The map and the timers follow the active request, and nothing waits behind an empty slot. -/
structure Shape (wire : Wire Envelope) (s : DaemonConnection Envelope) : Prop where
  pending : s.pendingRequests = s.activeRequest.toList.map fun q => (wire.id q.envelope, q)
  timers : s.timers = s.activeRequest.toList
  idle : s.activeRequest = none → s.queuedRequests = []
  closed : s.closed = true → s.activeRequest = none

/-! ## Settling -/

@[simp] theorem settle_queuedRequests (q : QueuedRequest Envelope) (o : Settlement) :
    (s.settle q o).queuedRequests = s.queuedRequests := by
  unfold settle
  split <;> rfl

@[simp] theorem settle_activeRequest (q : QueuedRequest Envelope) (o : Settlement) :
    (s.settle q o).activeRequest = s.activeRequest := by
  unfold settle
  split <;> rfl

@[simp] theorem settle_pendingRequests (q : QueuedRequest Envelope) (o : Settlement) :
    (s.settle q o).pendingRequests = s.pendingRequests := by
  unfold settle
  split <;> rfl

@[simp] theorem settle_closed (q : QueuedRequest Envelope) (o : Settlement) :
    (s.settle q o).closed = s.closed := by
  unfold settle
  split <;> rfl

@[simp] theorem settle_timers (q : QueuedRequest Envelope) (o : Settlement) :
    (s.settle q o).timers = s.timers := by
  unfold settle
  split <;> rfl

@[simp] theorem settle_requested (q : QueuedRequest Envelope) (o : Settlement) :
    (s.settle q o).requested = s.requested := by
  unfold settle
  split <;> rfl

@[simp] theorem settle_outstanding (q : QueuedRequest Envelope) (o : Settlement) :
    (s.settle q o).outstanding = s.outstanding := by
  rw [outstanding, outstanding, settle_activeRequest, settle_queuedRequests]

theorem settle_promises (q : QueuedRequest Envelope) (o : Settlement) :
    (s.settle q o).promises = Function.update s.promises q.number ((s.promises q.number).or (some o)) := by
  unfold settle
  split
  · next hSome =>
    obtain ⟨o', ho'⟩ := Option.isSome_iff_exists.mp hSome
    rw [ho', Option.some_or, ← ho', Function.update_eq_self]
  · next hNone =>
    rw [Option.not_isSome_iff_eq_none.mp hNone, Option.none_or]

theorem settle_log (q : QueuedRequest Envelope) (o : Settlement) : (s.settle q o).log =
    if (s.promises q.number).isSome then s.log else .settled q o :: s.log := by
  unfold settle
  split <;> rfl

@[simp] theorem settle_writes (q : QueuedRequest Envelope) (o : Settlement) :
    writes (s.settle q o).log = writes s.log := by
  rw [settle_log]
  split <;> rfl

theorem settle_eq_none {q : QueuedRequest Envelope} {o : Settlement} {n : Nat} :
    (s.settle q o).promises n = none ↔ s.promises n = none ∧ n ≠ q.number := by
  rw [settle_promises]
  rcases eq_or_ne n q.number with rfl | hne
  · rw [Function.update_self]
    simp
  · rw [Function.update_of_ne hne]
    simp [hne]

variable {handled : Option (QueuedRequest Envelope)}

theorem Ledger.eq_of_number (h : Ledger wire handled s) {q q' : QueuedRequest Envelope}
    (hq : q ∈ s.requested) (hq' : q' ∈ s.requested) (hNumber : q.number = q'.number) : q = q' := by
  have hNodup : (s.requested.map QueuedRequest.number).Nodup := by
    rw [h.numbered]
    exact List.nodup_range
  exact List.inj_on_of_nodup_map hNodup hq hq' hNumber

theorem Ledger.number_lt (h : Ledger wire handled s) {q : QueuedRequest Envelope} (hq : q ∈ s.requested) :
    q.number < s.requested.length := by
  have hMem : q.number ∈ s.requested.map QueuedRequest.number := List.mem_map_of_mem hq
  rwa [h.numbered, List.mem_range] at hMem

theorem Ledger.noted (h : Ledger wire handled s) {e : Effect Envelope} (hLawful : Lawful wire (e :: s.log))
    (hWrites : writes (e :: s.log) = writes s.log)
    (hSettled : settledNumbers (e :: s.log) = settledNumbers s.log)
    (hClosed : e ≠ .closed) : Ledger wire handled { s with log := e :: s.log } where
  lawful := hLawful
  closed := by
    rw [← h.closed, List.mem_cons, or_iff_right hClosed.symm]
  numbered := h.numbered
  waiting := h.waiting
  ordered := h.ordered
  written := by
    rw [hWrites]
    exact h.written
  unanswered := by
    rw [hWrites]
    exact h.unanswered
  active := by
    rw [hWrites]
    exact h.active
  unsettled := h.unsettled
  settled := by
    rw [hSettled]
    exact h.settled
  fresh := h.fresh
  serial := h.serial

/-- What may be said of the settlement of a promise. -/
def Justified (wire : Wire Envelope) (log : List (Effect Envelope)) (q : QueuedRequest Envelope)
    (settlement : Settlement) : Prop :=
  ∀ response, settlement = .response response →
    responseId response = some (wire.id q.envelope) ∧
    ∃ newer before, log = newer ++ .arrived response :: before ∧ q ∈ writes before

theorem Ledger.settle (h : Ledger wire handled s) {q : QueuedRequest Envelope} {o : Settlement}
    (hq : q ∈ s.requested) (hJustified : s.promises q.number = none → Justified wire s.log q o)
    (hHandled : handled = none ∨ handled = some q) :
    Ledger wire none (s.settle q o) where
  lawful := by
    rw [settle_log]
    split
    · exact h.lawful
    · next hNone =>
      refine ⟨h.lawful, fun hMem => ?_, hJustified (Option.not_isSome_iff_eq_none.mp hNone)⟩
      exact hNone (Option.isSome_iff_ne_none.mpr ((h.settled q.number).mp hMem))
  closed := by
    rw [settle_log, settle_closed, ← h.closed]
    split
    · rfl
    · simp
  numbered := by
    rw [settle_requested]
    exact h.numbered
  waiting := by
    rw [settle_outstanding, settle_requested]
    exact h.waiting
  ordered := by
    rw [settle_outstanding]
    exact h.ordered
  written := by
    rw [settle_writes, settle_requested, settle_queuedRequests]
    exact h.written
  unanswered w hw hNone := by
    rw [settle_writes] at hw
    obtain ⟨hNone, hne⟩ := settle_eq_none.mp hNone
    rw [settle_activeRequest]
    rcases h.unanswered w hw hNone with hActive | hSame
    · exact .inl hActive
    · rcases hHandled with hEmpty | hSome
      · exact nomatch hEmpty.symm.trans hSame
      · cases hSome.symm.trans hSame
        exact absurd rfl hne
  active q' hActive hNone := by
    rw [settle_activeRequest] at hActive
    rw [settle_writes]
    exact h.active q' hActive (settle_eq_none.mp hNone).1
  unsettled q' hMem hNone := by
    rw [settle_requested] at hMem
    obtain ⟨hNone, hne⟩ := settle_eq_none.mp hNone
    rw [settle_outstanding]
    rcases h.unsettled q' hMem hNone with hWaits | hSame
    · exact .inl hWaits
    · rcases hHandled with hEmpty | hSome
      · exact nomatch hEmpty.symm.trans hSame
      · cases hSome.symm.trans hSame
        exact absurd rfl hne
  settled n := by
    rw [ne_eq, settle_eq_none, settle_log, not_and_or, not_not, ← ne_eq, ← h.settled n]
    split
    · next hSome =>
      have hMem := (h.settled q.number).mpr (Option.isSome_iff_ne_none.mp hSome)
      constructor
      · exact .inl
      · rintro (hn | rfl)
        · exact hn
        · exact hMem
    · rw [settledNumbers, List.mem_cons]
      exact or_comm
  fresh n hn := by
    rw [settle_requested] at hn
    refine settle_eq_none.mpr ⟨h.fresh n hn, ?_⟩
    have := h.number_lt hq
    omega
  serial := by
    rw [settle_queuedRequests]
    exact h.serial

/-! ## Closing -/

def settleAll (error : String) (s : DaemonConnection Envelope) (requests : List (QueuedRequest Envelope)) :
    DaemonConnection Envelope :=
  requests.foldl (fun s q => s.settle q (.error error)) s

theorem Ledger.settleAll {error : String} {requests : List (QueuedRequest Envelope)}
    (h : Ledger wire none s) (hRequests : ∀ q ∈ requests, q ∈ s.requested) :
    Ledger wire none (s.settleAll error requests) := by
  induction requests generalizing s with
  | nil => exact h
  | cons q requests ih =>
    refine ih (h.settle (hRequests q List.mem_cons_self) (fun _ => nofun) (.inl rfl)) fun q' hMem => ?_
    rw [settle_requested]
    exact hRequests q' (List.mem_cons_of_mem q hMem)

theorem settleAll_eq_none {error : String} {requests : List (QueuedRequest Envelope)} {n : Nat} :
    (s.settleAll error requests).promises n = none ↔
      s.promises n = none ∧ ∀ q ∈ requests, n ≠ q.number := by
  induction requests generalizing s with
  | nil => simp [DaemonConnection.settleAll]
  | cons q requests ih =>
    refine (ih (s := s.settle q (.error error))).trans ?_
    rw [settle_eq_none, List.forall_mem_cons, and_assoc]

theorem settle_emptied (q : QueuedRequest Envelope) (o : Settlement) (queued : List (QueuedRequest Envelope))
    (active : Option (QueuedRequest Envelope)) (pending : List (String × QueuedRequest Envelope))
    (closed : Bool) (timers : List (QueuedRequest Envelope)) :
    { s with
      queuedRequests := queued, activeRequest := active, pendingRequests := pending, closed := closed,
      timers := timers }.settle q o =
    { s.settle q o with
      queuedRequests := queued, activeRequest := active, pendingRequests := pending, closed := closed,
      timers := timers } := by
  unfold settle
  dsimp only
  split <;> rfl

/-- Everything settled that was outstanding, and nothing left to wait for. -/
def emptied (error : String) (s : DaemonConnection Envelope) : DaemonConnection Envelope :=
  { s.settleAll error s.outstanding with
    queuedRequests := [], activeRequest := none, pendingRequests := [], closed := true, timers := [] }

def shut (error : String) (s : DaemonConnection Envelope) : DaemonConnection Envelope :=
  { s.emptied error with log := .closed :: (s.emptied error).log }

theorem settleAll_emptied (error : String) (requests : List (QueuedRequest Envelope))
    (queued : List (QueuedRequest Envelope))
    (active : Option (QueuedRequest Envelope)) (pending : List (String × QueuedRequest Envelope))
    (closed : Bool) (timers : List (QueuedRequest Envelope)) :
    { s with
      queuedRequests := queued, activeRequest := active, pendingRequests := pending, closed := closed,
      timers := timers }.settleAll error requests =
    { s.settleAll error requests with
      queuedRequests := queued, activeRequest := active, pendingRequests := pending, closed := closed,
      timers := timers } := by
  induction requests generalizing s with
  | nil => rfl
  | cons q requests ih =>
    change settleAll error (settle q _ _) requests = _
    rw [settle_emptied, ih]
    rfl

theorem rejectAllQueued_emptied (error : String) (timers : List (QueuedRequest Envelope)) :
    ({ s with
      queuedRequests := s.queuedRequests, activeRequest := none, pendingRequests := [], closed := true,
      timers := timers }).rejectAllQueued error =
    { s.settleAll error s.queuedRequests with
      queuedRequests := [], activeRequest := none, pendingRequests := [], closed := true, timers := timers } :=
  congrArg (fun t : DaemonConnection Envelope => { t with queuedRequests := [] })
    (settleAll_emptied error s.queuedRequests s.queuedRequests none [] true timers)

theorem rejectAll_eq (error : String)
    (hPending : s.pendingRequests = s.activeRequest.toList.map fun q => (wire.id q.envelope, q))
    (hTimers : ∀ q ∈ s.timers, s.activeRequest = some q) :
    ({ s with closed := true }.rejectAllPending error).rejectAllQueued error = s.emptied error := by
  obtain ⟨queued, active, pending, closed, timers, callbacks, requested, promises, log⟩ := s
  cases active with
  | none =>
    obtain rfl : timers = [] := List.eq_nil_iff_forall_not_mem.mpr fun q hq => nomatch hTimers q hq
    obtain rfl : pending = [] := hPending
    exact rejectAllQueued_emptied
      (s := ⟨queued, none, [], closed, [], callbacks, requested, promises, log⟩) error []
  | some q =>
    have hNone : (timers.filter fun timer => timer.number ≠ q.number) = [] := by
      refine List.filter_eq_nil_iff.mpr fun timer hTimer => ?_
      cases hTimers timer hTimer
      simp
    obtain rfl : pending = [(wire.id q.envelope, q)] := hPending
    let s : DaemonConnection Envelope :=
      ⟨queued, some q, [(wire.id q.envelope, q)], closed, timers, callbacks, requested, promises, log⟩
    have hReject : { s with closed := true }.rejectAllPending error =
        { s.settle q (.error error) with
          queuedRequests := (s.settle q (.error error)).queuedRequests, activeRequest := none,
          pendingRequests := [], closed := true, timers := [] } := by
      have hSettled := settle_emptied (s := s) q (.error error) queued (some q) [(wire.id q.envelope, q)] true
        (timers.filter fun timer => timer.number ≠ q.number)
      refine (congrArg (fun t : DaemonConnection Envelope =>
        { t with pendingRequests := [], activeRequest := none }) hSettled).trans ?_
      rw [hNone, settle_queuedRequests]
    change ({ s with closed := true }.rejectAllPending error).rejectAllQueued error = s.emptied error
    rw [hReject]
    refine (rejectAllQueued_emptied error []).trans ?_
    rw [settle_queuedRequests]
    rfl

theorem closeConnection_eq (error : String)
    (hPending : s.pendingRequests = s.activeRequest.toList.map fun q => (wire.id q.envelope, q))
    (hTimers : ∀ q ∈ s.timers, s.activeRequest = some q) (hOpen : s.closed = false) :
    s.closeConnection error = s.shut error := by
  have hEmptied : ({ s with closed := true }.rejectAllPending error).rejectAllQueued error = s.emptied error :=
    rejectAll_eq error hPending hTimers
  rw [closeConnection, hOpen, if_neg nofun, hEmptied]
  rfl

theorem settleAll_frame (error : String) (requests : List (QueuedRequest Envelope)) :
    (s.settleAll error requests).activeRequest = s.activeRequest ∧
      (s.settleAll error requests).queuedRequests = s.queuedRequests ∧
      (s.settleAll error requests).requested = s.requested := by
  induction requests generalizing s with
  | nil => exact ⟨rfl, rfl, rfl⟩
  | cons q requests ih =>
    obtain ⟨hActive, hQueued, hRequested⟩ := ih (s := s.settle q (.error error))
    rw [settle_activeRequest] at hActive
    rw [settle_queuedRequests] at hQueued
    rw [settle_requested] at hRequested
    exact ⟨hActive, hQueued, hRequested⟩

theorem settleAll_outstanding (error : String) (requests : List (QueuedRequest Envelope)) :
    (s.settleAll error requests).outstanding = s.outstanding := by
  obtain ⟨hActive, hQueued, -⟩ := settleAll_frame (s := s) error requests
  rw [outstanding, hActive, hQueued, outstanding]

theorem mem_outstanding_of_active {q : QueuedRequest Envelope} (h : s.activeRequest = some q) :
    q ∈ s.outstanding := by
  rw [outstanding, h]
  exact List.mem_cons_self

/-- A close settles everything and leaves nothing to be written. -/
theorem Ledger.shut {error : String} (h : Ledger wire none s) : Ledger wire none (s.shut error) := by
  have hAll : Ledger wire none (s.settleAll error s.outstanding) := h.settleAll h.waiting
  have hWaits : ∀ q, (s.settleAll error s.outstanding).promises q.number = none → q ∉ s.outstanding :=
    fun q hNone hMem => (settleAll_eq_none.mp hNone).2 q hMem rfl
  exact {
    lawful := hAll.lawful
    closed := iff_of_true List.mem_cons_self rfl
    numbered := hAll.numbered
    waiting := nofun
    ordered := .nil
    written := fun w hw => ⟨(hAll.written w hw).1, nofun⟩
    unanswered := by
      intro w hw hNone
      rcases hAll.unanswered w hw hNone with hActive | hHandled
      · have hMem := mem_outstanding_of_active hActive
        rw [settleAll_outstanding] at hMem
        exact absurd hMem (hWaits w hNone)
      · exact nomatch hHandled
    active := nofun
    unsettled := by
      intro q hMem hNone
      rcases hAll.unsettled q hMem hNone with hOutstanding | hHandled
      · rw [settleAll_outstanding] at hOutstanding
        exact absurd hOutstanding (hWaits q hNone)
      · exact nomatch hHandled
    settled := hAll.settled
    fresh := hAll.fresh
    serial := nofun }

theorem shape_shut (error : String) : Shape wire (s.shut error) :=
  ⟨rfl, rfl, fun _ => rfl, fun _ => rfl⟩

/-- What holds of a connection between two events. -/
structure Sound (wire : Wire Envelope) (s : DaemonConnection Envelope) : Prop where
  ledger : Ledger wire none s
  shape : Shape wire s

theorem Sound.closeConnection (h : Sound wire s) (error : String) : Sound wire (s.closeConnection error) := by
  cases hClosed : s.closed with
  | true =>
    rw [DaemonConnection.closeConnection, hClosed, if_pos rfl]
    exact h
  | false =>
    have hTimers : ∀ q ∈ s.timers, s.activeRequest = some q := by
      intro q hq
      rw [h.shape.timers] at hq
      exact Option.mem_toList.mp hq
    rw [closeConnection_eq error h.shape.pending hTimers hClosed]
    exact ⟨h.ledger.shut, shape_shut error⟩

/-! ## Writing -/

/-- The head of the queue becomes the active request and is written. -/
def started (wire : Wire Envelope) (request : QueuedRequest Envelope) (rest : List (QueuedRequest Envelope))
    (json : String) (s : DaemonConnection Envelope) : DaemonConnection Envelope :=
  { s with
    queuedRequests := rest
    activeRequest := some request
    timers := request :: s.timers
    pendingRequests := mapSet (wire.id request.envelope) request s.pendingRequests
    callbacks := request :: s.callbacks
    log := .wrote request (json ++ "\n") :: s.log }

theorem drain_busy (h : s.activeRequest ≠ none) : s.drainRequestQueue wire = (s, none) := by
  rw [drainRequestQueue, if_pos]
  rw [Bool.or_eq_true, Option.isSome_iff_ne_none]
  exact .inr h

theorem drain_empty (h : s.queuedRequests = []) : s.drainRequestQueue wire = (s, none) := by
  rw [drainRequestQueue]
  split
  · rfl
  · rw [h]

theorem drain_start {request : QueuedRequest Envelope} {rest : List (QueuedRequest Envelope)} {json : String}
    (hOpen : s.closed = false) (hActive : s.activeRequest = none) (hQueue : s.queuedRequests = request :: rest)
    (hJson : wire.stringify request.envelope = some json) :
    s.drainRequestQueue wire = (s.started wire request rest json, none) := by
  have hIdle : ¬ (s.closed || s.activeRequest.isSome) = true := by
    rw [hOpen, hActive]
    exact nofun
  rw [drainRequestQueue, if_neg hIdle, hQueue]
  dsimp only
  rw [hJson]
  rfl

theorem drain_throws {request : QueuedRequest Envelope} {rest : List (QueuedRequest Envelope)}
    (hOpen : s.closed = false) (hActive : s.activeRequest = none) (hQueue : s.queuedRequests = request :: rest)
    (hJson : wire.stringify request.envelope = none) :
    s.drainRequestQueue wire =
      ({ s with
        queuedRequests := rest
        activeRequest := some request
        timers := request :: s.timers
        pendingRequests := mapSet (wire.id request.envelope) request s.pendingRequests },
      some "Do not know how to serialize the request") := by
  have hIdle : ¬ (s.closed || s.activeRequest.isSome) = true := by
    rw [hOpen, hActive]
    exact nofun
  rw [drainRequestQueue, if_neg hIdle, hQueue]
  dsimp only
  rw [hJson]

theorem Ledger.started (h : Ledger wire handled s) {request : QueuedRequest Envelope}
    {rest : List (QueuedRequest Envelope)} (json : String) (hOpen : s.closed = false)
    (hActive : s.activeRequest = none) (hQueue : s.queuedRequests = request :: rest) :
    Ledger wire handled (s.started wire request rest json) := by
  have hOutstanding : (s.started wire request rest json).outstanding = s.outstanding := by
    rw [outstanding, outstanding, hActive, hQueue]
    rfl
  have hHead : request ∈ s.queuedRequests := by
    rw [hQueue]
    exact List.mem_cons_self
  exact {
    lawful := by
      refine ⟨h.lawful, fun hMem => ?_, fun w hw => (h.written w hw).2 request hHead⟩
      exact absurd (h.closed.mp hMem) (ne_true_of_eq_false hOpen)
    closed := by
      rw [← show s.closed = (s.started wire request rest json).closed from rfl, ← h.closed]
      exact ⟨fun hMem => (List.mem_cons.mp hMem).resolve_left nofun, List.mem_cons_of_mem _⟩
    numbered := h.numbered
    waiting := by
      rw [hOutstanding]
      exact h.waiting
    ordered := by
      rw [hOutstanding]
      exact h.ordered
    written := by
      have hOrdered := h.ordered
      rw [outstanding, hActive, hQueue] at hOrdered
      intro w hw
      rcases List.mem_cons.mp hw with rfl | hw
      · refine ⟨h.waiting w ?_, (List.pairwise_cons.mp hOrdered).1⟩
        rw [outstanding, hActive]
        exact hHead
      · refine ⟨(h.written w hw).1, fun q hq => (h.written w hw).2 q ?_⟩
        rw [hQueue]
        exact List.mem_cons_of_mem _ hq
    unanswered := by
      intro w hw hNone
      rcases List.mem_cons.mp hw with rfl | hw
      · exact .inl rfl
      · rcases h.unanswered w hw hNone with hSame | hSame
        · exact nomatch hActive.symm.trans hSame
        · exact .inr hSame
    active := by
      intro q hSame _
      cases hSame
      exact List.mem_cons_self
    unsettled := by
      rw [hOutstanding]
      exact h.unsettled
    settled := h.settled
    fresh := h.fresh
    serial := fun q hq => h.serial q (hQueue ▸ List.mem_cons_of_mem _ hq) }

theorem shape_started {request : QueuedRequest Envelope} {rest : List (QueuedRequest Envelope)} {json : String}
    (hOpen : s.closed = false) (hPending : s.pendingRequests = []) (hTimers : s.timers = []) :
    Shape wire (s.started wire request rest json) where
  pending := by
    rw [DaemonConnection.started, hPending]
    rfl
  timers := by
    rw [DaemonConnection.started, hTimers]
    rfl
  idle := nofun
  closed hClosed := absurd hClosed (ne_true_of_eq_false hOpen)

theorem Ledger.drain (h : Ledger wire handled s) (hActive : s.activeRequest = none) (hOpen : s.closed = false)
    (hPending : s.pendingRequests = []) (hTimers : s.timers = []) :
    ∃ s', s.drainRequestQueue wire = (s', none) ∧ Ledger wire handled s' ∧ Shape wire s' ∧
      s'.requested = s.requested ∧ s'.promises = s.promises ∧ ∃ newer, s'.log = newer ++ s.log := by
  cases hQueue : s.queuedRequests with
  | nil =>
    refine ⟨s, drain_empty hQueue, h, ⟨?_, ?_, fun _ => hQueue, fun _ => hActive⟩, rfl, rfl, [], rfl⟩
    · rw [hPending, hActive]
      rfl
    · rw [hTimers, hActive]
      rfl
  | cons request rest =>
    obtain ⟨json, hJson⟩ := Option.isSome_iff_exists.mp (h.serial request (hQueue ▸ List.mem_cons_self))
    exact ⟨_, drain_start hOpen hActive hQueue hJson, h.started json hOpen hActive hQueue,
      shape_started hOpen hPending hTimers, rfl, rfl, [_], rfl⟩

end Exosuit.Extension.DaemonConnection
