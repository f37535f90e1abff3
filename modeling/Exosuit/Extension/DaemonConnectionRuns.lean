import Exosuit.Extension.DaemonConnectionLedger

/-!
# Every request settles

A connection stays sound over every run in which a request that has to wait can be serialised. On
an endless run whose armed timers fire or are cleared, every request settles. A request that waits
and cannot be serialised costs the one before it its answer.
-/

namespace Exosuit.Extension.DaemonConnection

open Lib

variable {Envelope : Type} {wire : Wire Envelope} {s : DaemonConnection Envelope}
  {handled : Option (QueuedRequest Envelope)}

/-! ## Requests -/

def known (q : QueuedRequest Envelope) (s : DaemonConnection Envelope) : DaemonConnection Envelope :=
  { s with requested := s.requested ++ [q] }

theorem Ledger.known (h : Ledger wire none s) {q : QueuedRequest Envelope}
    (hNumber : q.number = s.requested.length) : Ledger wire (some q) (s.known q) where
  lawful := h.lawful
  closed := h.closed
  numbered := by
    rw [DaemonConnection.known, List.map_append, h.numbered, List.length_append, List.map_singleton, hNumber]
    exact List.range_succ.symm
  waiting q' hMem := List.mem_append_left _ (h.waiting q' hMem)
  ordered := h.ordered
  written w hw := ⟨List.mem_append_left _ (h.written w hw).1, (h.written w hw).2⟩
  unanswered w hw hNone := .inl ((h.unanswered w hw hNone).resolve_right nofun)
  active := h.active
  unsettled q' hMem hNone := by
    rcases List.mem_append.mp hMem with hOld | hNew
    · exact .inl ((h.unsettled q' hOld hNone).resolve_right nofun)
    · exact .inr (congrArg some (List.mem_singleton.mp hNew).symm)
  settled := h.settled
  fresh n hn := by
    rw [DaemonConnection.known, List.length_append] at hn
    exact h.fresh n (by omega)
  serial := h.serial

def enqueued (q : QueuedRequest Envelope) (s : DaemonConnection Envelope) : DaemonConnection Envelope :=
  { s with queuedRequests := s.queuedRequests ++ [q] }

theorem Ledger.enqueued {q : QueuedRequest Envelope} (h : Ledger wire (some q) s) (hKnown : q ∈ s.requested)
    (hLast : ∀ q' ∈ s.requested, q' ≠ q → q'.number < q.number) (hNew : q ∉ s.outstanding)
    (hUnwritten : q ∉ writes s.log) (hSerial : (wire.stringify q.envelope).isSome) :
    Ledger wire none (s.enqueued q) := by
  have hOutstanding : (s.enqueued q).outstanding = s.outstanding ++ [q] := (List.append_assoc ..).symm
  exact {
    lawful := h.lawful
    closed := h.closed
    numbered := h.numbered
    waiting := by
      rw [hOutstanding]
      intro q' hMem
      rcases List.mem_append.mp hMem with hOld | hSelf
      · exact h.waiting q' hOld
      · exact List.mem_singleton.mp hSelf ▸ hKnown
    ordered := by
      rw [hOutstanding, List.pairwise_append]
      refine ⟨h.ordered, List.pairwise_singleton _ _, fun q' hOld q'' hSelf => ?_⟩
      rw [List.mem_singleton.mp hSelf]
      exact hLast q' (h.waiting q' hOld) fun hSame => hNew (hSame ▸ hOld)
    written := by
      intro w hw
      refine ⟨(h.written w hw).1, fun q' hMem => ?_⟩
      rcases List.mem_append.mp hMem with hOld | hSelf
      · exact (h.written w hw).2 q' hOld
      · rw [List.mem_singleton.mp hSelf]
        exact hLast w (h.written w hw).1 fun hSame => hUnwritten (hSame ▸ hw)
    unanswered := by
      intro w hw hNone
      refine .inl ((h.unanswered w hw hNone).resolve_right fun hSame => ?_)
      exact hUnwritten (Option.some.inj hSame ▸ hw)
    active := h.active
    unsettled := by
      rw [hOutstanding]
      intro q' hMem hNone
      rcases h.unsettled q' hMem hNone with hOld | hSame
      · exact .inl (List.mem_append_left _ hOld)
      · exact .inl (List.mem_append_right _ (by rw [Option.some.inj hSame]; exact List.mem_singleton_self _))
    settled := h.settled
    fresh := h.fresh
    serial := by
      intro q' hMem
      rcases List.mem_append.mp hMem with hOld | hSelf
      · exact h.serial q' hOld
      · exact List.mem_singleton.mp hSelf ▸ hSerial }

theorem Ledger.stuck (h : Ledger wire none s) {q : QueuedRequest Envelope} (hKnown : q ∈ s.requested)
    (hSettled : s.promises q.number ≠ none) (hActive : s.activeRequest = none) (hQueue : s.queuedRequests = [])
    {closed : Bool} (hClosed : s.closed = closed)
    (pending : List (String × QueuedRequest Envelope)) (timers : List (QueuedRequest Envelope)) :
    Ledger wire none { s with
      queuedRequests := [], activeRequest := some q, pendingRequests := pending, closed := closed,
      timers := timers } where
  lawful := h.lawful
  closed := hClosed ▸ h.closed
  numbered := h.numbered
  waiting q' hMem := List.mem_singleton.mp hMem ▸ hKnown
  ordered := List.pairwise_singleton _ _
  written w hw := ⟨(h.written w hw).1, fun _ hMem => absurd hMem List.not_mem_nil⟩
  unanswered w hw hNone := by
    rcases h.unanswered w hw hNone with hSame | hSame
    · cases hActive.symm.trans hSame
    · cases hSame
  active q' hSame hNone := by
    cases hSame
    exact absurd hNone hSettled
  unsettled q' hMem hNone := by
    have hEmpty : s.outstanding = [] := by
      rw [outstanding, hActive, hQueue]
      rfl
    rcases h.unsettled q' hMem hNone with hWaits | hSame
    · exact absurd (hEmpty ▸ hWaits) List.not_mem_nil
    · cases hSame
  settled := h.settled
  fresh := h.fresh
  serial _ hMem := absurd hMem List.not_mem_nil

theorem Shape.settle (h : Shape wire s) (q : QueuedRequest Envelope) (o : Settlement) :
    Shape wire (s.settle q o) where
  pending := by
    rw [settle_pendingRequests, settle_activeRequest]
    exact h.pending
  timers := by
    rw [settle_timers, settle_activeRequest]
    exact h.timers
  idle hNone := by
    rw [settle_activeRequest] at hNone
    rw [settle_queuedRequests]
    exact h.idle hNone
  closed hClosed := by
    rw [settle_closed] at hClosed
    rw [settle_activeRequest]
    exact h.closed hClosed

theorem request_eq {envelope : Envelope} {timeoutMs : Nat} {q : QueuedRequest Envelope}
    (hq : q = ⟨s.requested.length, envelope, timeoutMs⟩) :
    s.request wire envelope timeoutMs =
      if (s.known q).closed then (s.known q).settle q (.error "Connection is closed")
      else if wire.id envelope = "" then
        (s.known q).settle q (.error "Daemon request envelope requires a stable request id")
      else
        match ((s.known q).enqueued q).drainRequestQueue wire with
        | (s, none) => s
        | (s, some message) => s.settle q (.error message) := by
  subst hq
  rfl

theorem Sound.request (h : Sound wire s) {envelope : Envelope} (timeoutMs : Nat)
    (hSerial : s.activeRequest ≠ none → (wire.stringify envelope).isSome) :
    Sound wire (s.request wire envelope timeoutMs) := by
  let q : QueuedRequest Envelope := ⟨s.requested.length, envelope, timeoutMs⟩
  have hKnown : Ledger wire (some q) (s.known q) := h.ledger.known rfl
  have hMem : q ∈ (s.known q).requested := List.mem_append_right _ (List.mem_singleton_self q)
  have hShape : Shape wire (s.known q) := ⟨h.shape.pending, h.shape.timers, h.shape.idle, h.shape.closed⟩
  have hSettled : ∀ error, Sound wire ((s.known q).settle q (.error error)) := fun error =>
    ⟨hKnown.settle hMem (fun _ _ => by rintro ⟨⟩) (.inr rfl), hShape.settle q _⟩
  have hOld : ∀ q' ∈ s.requested, q' ≠ q := by
    rintro q' hq' rfl
    exact Nat.lt_irrefl _ (h.ledger.number_lt hq')
  have hEnqueued : (wire.stringify envelope).isSome → Ledger wire none ((s.known q).enqueued q) := by
    intro hJson
    refine hKnown.enqueued hMem (fun q' hq' hne => ?_) (fun hq => hOld q (h.ledger.waiting q hq) rfl)
      (fun hq => hOld q (h.ledger.written q hq).1 rfl) hJson
    rcases List.mem_append.mp hq' with hq' | hq'
    · exact h.ledger.number_lt hq'
    · exact absurd (List.mem_singleton.mp hq') hne
  rw [request_eq (q := q) rfl]
  split
  · exact hSettled _
  · next hOpen =>
    have hOpen : (s.known q).closed = false := Bool.eq_false_iff.mpr hOpen
    split
    · exact hSettled _
    · by_cases hActive : s.activeRequest = none
      · have hPending : s.pendingRequests = [] := by
          rw [h.shape.pending, hActive]
          rfl
        have hTimers : s.timers = [] := by
          rw [h.shape.timers, hActive]
          rfl
        cases hJson : wire.stringify envelope with
        | none =>
          have hQueue : s.queuedRequests = [] := h.shape.idle hActive
          have hDrain : ((s.known q).enqueued q).drainRequestQueue wire =
              ({ s.known q with
                queuedRequests := [], activeRequest := some q, pendingRequests := [(wire.id envelope, q)],
                closed := false, timers := [q] },
              some "Do not know how to serialize the request") := by
            have hHead : ((s.known q).enqueued q).queuedRequests = [q] := by
              rw [DaemonConnection.enqueued, DaemonConnection.known, hQueue]
              rfl
            rw [drain_throws (s := (s.known q).enqueued q) hOpen hActive hHead hJson]
            rw [DaemonConnection.enqueued, DaemonConnection.known, hPending, hTimers,
              show s.closed = false from hOpen]
            rfl
          rw [hDrain]
          change Sound wire (settle q _ _)
          rw [settle_emptied]
          refine ⟨(hSettled _).ledger.stuck ?_ ?_ ?_ ?_ ?_ _ _, rfl, rfl, ?_, ?_⟩
          · rw [settle_requested]
            exact hMem
          · exact fun hNone => (settle_eq_none.mp hNone).2 rfl
          · rw [settle_activeRequest]
            exact hActive
          · rw [settle_queuedRequests]
            exact hQueue
          · rw [settle_closed]
            exact hOpen
          · rintro ⟨⟩
          · rintro ⟨⟩
        | some json =>
          obtain ⟨s', hDrain, hLedger, hShape', -⟩ :=
            (hEnqueued (by rw [hJson]; rfl)).drain hActive hOpen hPending hTimers
          rw [hDrain]
          exact ⟨hLedger, hShape'⟩
      · have hBusy : ((s.known q).enqueued q).drainRequestQueue wire = ((s.known q).enqueued q, none) :=
          drain_busy hActive
        rw [hBusy]
        exact ⟨hEnqueued (hSerial hActive), hShape.pending, hShape.timers,
          fun hNone => absurd hNone hActive, h.shape.closed⟩

/-! ## Responses -/

theorem Ledger.released (h : Ledger wire none s) {q : QueuedRequest Envelope}
    (hActive : s.activeRequest = some q)
    (pending : List (String × QueuedRequest Envelope)) (timers : List (QueuedRequest Envelope)) :
    Ledger wire (some q) { s with activeRequest := none, pendingRequests := pending, timers := timers } := by
  have hOutstanding : s.outstanding = q :: s.queuedRequests := by
    rw [outstanding, hActive]
    rfl
  have hOrdered := h.ordered
  rw [hOutstanding] at hOrdered
  exact {
    lawful := h.lawful
    closed := h.closed
    numbered := h.numbered
    waiting := fun q' hMem => h.waiting q' (hOutstanding ▸ List.mem_cons_of_mem q hMem)
    ordered := hOrdered.of_cons
    written := h.written
    unanswered := fun w hw hNone => by
      rcases h.unanswered w hw hNone with hSame | hSame
      · exact .inr (hActive.symm.trans hSame)
      · cases hSame
    active := by rintro q' ⟨⟩
    unsettled := fun q' hMem hNone => by
      have hWaits := (h.unsettled q' hMem hNone).resolve_right (by rintro ⟨⟩)
      rw [hOutstanding] at hWaits
      rcases List.mem_cons.mp hWaits with rfl | hQueued
      · exact .inr rfl
      · exact .inl hQueued
    settled := h.settled
    fresh := h.fresh
    serial := h.serial }

theorem Shape.open_of_active (h : Shape wire s) {q : QueuedRequest Envelope}
    (hActive : s.activeRequest = some q) : s.closed = false := by
  rw [Bool.eq_false_iff]
  intro hClosed
  cases (h.closed hClosed).symm.trans hActive

theorem Shape.of_lookup (h : Shape wire s) {id : String} {q : QueuedRequest Envelope}
    (hLookup : s.pendingRequests.lookup id = some q) : s.activeRequest = some q ∧ id = wire.id q.envelope := by
  rw [h.pending] at hLookup
  cases hActive : s.activeRequest with
  | none =>
    rw [hActive] at hLookup
    exact nomatch hLookup
  | some active =>
    rw [hActive] at hLookup
    change (match id == wire.id active.envelope with
      | true => some active
      | false => none) = some q at hLookup
    split at hLookup
    · next hSame =>
      cases hLookup
      exact ⟨rfl, beq_iff_eq.mp hSame⟩
    · exact nomatch hLookup

theorem Sound.handleLine (h : Sound wire s) (line : String) : Sound wire (s.handleLine wire line) := by
  unfold DaemonConnection.handleLine
  split
  · exact h
  cases hParse : wire.parse line with
  | none => exact h
  | some response =>
    have hArrived : Ledger wire none { s with log := .arrived response :: s.log } :=
      h.ledger.noted h.ledger.lawful rfl rfl (by rintro ⟨⟩)
    have hShape : Shape wire { s with log := .arrived response :: s.log } :=
      ⟨h.shape.pending, h.shape.timers, h.shape.idle, h.shape.closed⟩
    dsimp only
    split
    · next q hLookup =>
      obtain ⟨id, hId, hLookup⟩ := Option.bind_eq_some_iff.mp hLookup
      obtain ⟨hActive, rfl⟩ := h.shape.of_lookup hLookup
      have hMem : q ∈ s.requested := h.ledger.waiting q (mem_outstanding_of_active hActive)
      have hOpen : s.closed = false := h.shape.open_of_active hActive
      have hReleased := hArrived.released hActive [] []
      obtain ⟨s', hDrain, hLedger, hShape', hRequested, hPromises, newer, hLog⟩ :=
        hReleased.drain rfl hOpen rfl rfl
      have hState : { clearTimer q { s with log := .arrived response :: s.log } with
            pendingRequests := s.pendingRequests.filter fun entry => some entry.1 ≠ responseId response
            activeRequest := s.activeRequest.filter fun active =>
              some (wire.id active.envelope) ≠ responseId response } =
          { s with
            log := .arrived response :: s.log, activeRequest := none, pendingRequests := [], timers := [] } := by
        unfold clearTimer
        dsimp only
        rw [h.shape.pending, h.shape.timers, hActive, hId]
        simp
      generalize hDrained : DaemonConnection.drainRequestQueue wire _ = drained
      obtain rfl : drained = (s', none) := hDrained.symm.trans ((congrArg _ hState).trans hDrain)
      refine ⟨hLedger.settle (hRequested ▸ hMem) (fun hNone r hr => ?_) (.inr rfl), hShape'.settle q _⟩
      cases hr
      rw [hPromises] at hNone
      exact ⟨hId, newer, s.log, hLog, h.ledger.active q hActive hNone⟩
    · split
      · exact ⟨hArrived.noted hArrived.lawful rfl rfl (by rintro ⟨⟩), hShape.pending, hShape.timers, hShape.idle,
          hShape.closed⟩
      · exact ⟨hArrived, hShape⟩

/-! ## The other events -/

theorem Sound.notify (h : Sound wire s) (data : Json) : Sound wire (s.notify data) := by
  unfold DaemonConnection.notify
  split
  · exact h
  · exact ⟨h.ledger.noted h.ledger.lawful rfl rfl nofun, h.shape.pending, h.shape.timers, h.shape.idle,
      h.shape.closed⟩

/-- No promise and no write depends on what the timers and the writer still have to call. -/
theorem Ledger.rescheduled (h : Ledger wire handled s) (timers callbacks : List (QueuedRequest Envelope)) :
    Ledger wire handled { s with timers := timers, callbacks := callbacks } :=
  ⟨h.lawful, h.closed, h.numbered, h.waiting, h.ordered, h.written, h.unanswered, h.active, h.unsettled,
    h.settled, h.fresh, h.serial⟩

theorem Sound.handleTimeout_eq (h : Sound wire s) {q : QueuedRequest Envelope} (hTimer : q ∈ s.timers) :
    ∃ error, s.handleTimeout wire q = { s with timers := [] }.shut error := by
  rw [h.shape.timers] at hTimer
  have hActive : s.activeRequest = some q := Option.mem_toList.mp hTimer
  have hOpen : s.closed = false := h.shape.open_of_active hActive
  have hCleared : s.clearTimer q = { s with timers := [] } := by
    rw [clearTimer, h.shape.timers, hActive]
    simp
  have hLookup : s.pendingRequests.lookup (wire.id q.envelope) = some q := by
    rw [h.shape.pending, hActive]
    simp
  rw [DaemonConnection.handleTimeout, hCleared]
  dsimp only
  rw [hLookup]
  exact ⟨_, closeConnection_eq (s := { s with timers := [] }) _ h.shape.pending nofun hOpen⟩

theorem Sound.handleTimeout (h : Sound wire s) {q : QueuedRequest Envelope} (hTimer : q ∈ s.timers) :
    Sound wire (s.handleTimeout wire q) := by
  obtain ⟨error, hShut⟩ := h.handleTimeout_eq hTimer
  rw [hShut]
  exact ⟨(h.ledger.rescheduled [] s.callbacks).shut, shape_shut error⟩

theorem Sound.calledBack (h : Sound wire s) (callbacks : List (QueuedRequest Envelope)) :
    Sound wire { s with callbacks := callbacks } :=
  ⟨h.ledger.rescheduled s.timers callbacks, h.shape.pending, h.shape.timers, h.shape.idle, h.shape.closed⟩

theorem Sound.handleWritten (h : Sound wire s) (q : QueuedRequest Envelope) (error : Option String) :
    Sound wire (s.handleWritten q error) := by
  cases error with
  | none => exact h.calledBack _
  | some message => exact (h.calledBack _).closeConnection message

/-- A request that has to wait behind another can be serialised. -/
def Serialisable (wire : Wire Envelope) (s : DaemonConnection Envelope) : Event Envelope → Prop
  | .request envelope _ => s.activeRequest ≠ none → (wire.stringify envelope).isSome
  | _ => True

theorem Sound.step (h : Sound wire s) {event : Event Envelope} {s' : DaemonConnection Envelope}
    (hSerial : Serialisable wire s event) (hStep : s.step wire event = some s') : Sound wire s' := by
  cases event with
  | request envelope timeoutMs => exact Option.some.inj hStep ▸ h.request timeoutMs hSerial
  | notify data => exact Option.some.inj hStep ▸ h.notify data
  | close => exact Option.some.inj hStep ▸ h.closeConnection _
  | line line => exact Option.some.inj hStep ▸ h.handleLine line
  | handleClose => exact Option.some.inj hStep ▸ h.closeConnection _
  | handleError message => exact Option.some.inj hStep ▸ h.closeConnection message
  | timeout number =>
    obtain ⟨q, hFind, rfl⟩ := Option.map_eq_some_iff.mp hStep
    exact h.handleTimeout (List.mem_of_find?_eq_some hFind)
  | written number error =>
    obtain ⟨q, -, rfl⟩ := Option.map_eq_some_iff.mp hStep
    exact h.handleWritten q error

theorem sound_init : Sound wire (init : DaemonConnection Envelope) where
  ledger :=
    { lawful := trivial, closed := ⟨nofun, nofun⟩, numbered := rfl, waiting := nofun, ordered := .nil,
      written := nofun, unanswered := nofun, active := nofun, unsettled := nofun,
      settled := fun _ => ⟨nofun, fun hSome => absurd rfl hSome⟩, fresh := fun _ _ => rfl, serial := nofun }
  shape := ⟨rfl, rfl, fun _ => rfl, fun _ => rfl⟩

/-! ## Progress -/

/-- Only new requests come to wait, and the slot is taken from those that waited. -/
structure Advances (s s' : DaemonConnection Envelope) : Prop where
  queued : ∀ q ∈ s'.queuedRequests, q ∈ s.queuedRequests ∨ s.requested.length ≤ q.number
  active : ∀ q, s'.activeRequest = some q → q ∈ s.outstanding ∨ s.requested.length ≤ q.number
  requested : s.requested <+: s'.requested

theorem Advances.of_sub {s s' : DaemonConnection Envelope}
    (hQueued : ∀ q ∈ s'.queuedRequests, q ∈ s.queuedRequests)
    (hActive : ∀ q, s'.activeRequest = some q → s.activeRequest = some q)
    (hRequested : s'.requested = s.requested) : Advances s s' where
  queued q hq := .inl (hQueued q hq)
  active q hq := .inl (mem_outstanding_of_active (hActive q hq))
  requested := hRequested ▸ List.prefix_refl _

theorem Advances.refl (s : DaemonConnection Envelope) : Advances s s :=
  .of_sub (fun _ => id) (fun _ => id) rfl

theorem mem_outstanding_of_queued {q : QueuedRequest Envelope} (hq : q ∈ s.queuedRequests) :
    q ∈ s.outstanding :=
  List.mem_append_right _ hq

theorem Advances.trans {s s' s'' : DaemonConnection Envelope} (h : Advances s s') (h' : Advances s' s'') :
    Advances s s'' where
  queued q hq := by
    rcases h'.queued q hq with hQueued | hNew
    · exact h.queued q hQueued
    · exact .inr (h.requested.length_le.trans hNew)
  active q hq := by
    rcases h'.active q hq with hWaits | hNew
    · rcases List.mem_append.mp hWaits with hActive | hQueued
      · exact h.active q (Option.mem_toList.mp hActive)
      · exact (h.queued q hQueued).imp_left mem_outstanding_of_queued
    · exact .inr (h.requested.length_le.trans hNew)
  requested := h.requested.trans h'.requested

theorem advances_settle (q : QueuedRequest Envelope) (o : Settlement) : Advances s (s.settle q o) := by
  refine .of_sub (fun q' hq' => ?_) (fun q' hq' => ?_) (settle_requested q o)
  · rwa [settle_queuedRequests] at hq'
  · rwa [settle_activeRequest] at hq'

theorem advances_started {s' : DaemonConnection Envelope} {request : QueuedRequest Envelope}
    {rest : List (QueuedRequest Envelope)} (hQueue : s.queuedRequests = request :: rest)
    (hRest : s'.queuedRequests = rest) (hActive : s'.activeRequest = some request)
    (hRequested : s'.requested = s.requested) : Advances s s' := by
  refine ⟨fun q hq => .inl ?_, fun q hq => .inl ?_, hRequested ▸ List.prefix_refl _⟩
  · rw [hRest] at hq
    exact hQueue ▸ List.mem_cons_of_mem request hq
  · cases hActive.symm.trans hq
    exact mem_outstanding_of_queued (hQueue ▸ List.mem_cons_self)

theorem advances_drain {s' : DaemonConnection Envelope} {thrown : Option String}
    (hDrain : s.drainRequestQueue wire = (s', thrown)) : Advances s s' := by
  rw [show s' = (s.drainRequestQueue wire).1 by rw [hDrain]]
  unfold drainRequestQueue
  split
  · exact .refl s
  split
  · exact .refl s
  next request rest hQueue =>
    dsimp only
    split
    · exact advances_started hQueue rfl rfl rfl
    · exact advances_started hQueue rfl rfl rfl

theorem advances_shut (error : String) : Advances s (s.shut error) :=
  .of_sub nofun nofun (settleAll_frame error s.outstanding).2.2

theorem Sound.advances_close (h : Sound wire s) (error : String) : Advances s (s.closeConnection error) := by
  cases hClosed : s.closed with
  | true =>
    rw [DaemonConnection.closeConnection, hClosed, if_pos rfl]
    exact .refl s
  | false =>
    have hTimers : ∀ q ∈ s.timers, s.activeRequest = some q := by
      intro q hq
      rw [h.shape.timers] at hq
      exact Option.mem_toList.mp hq
    rw [closeConnection_eq error h.shape.pending hTimers hClosed]
    exact advances_shut error

theorem advances_request (envelope : Envelope) (timeoutMs : Nat) :
    Advances s (s.request wire envelope timeoutMs) := by
  let q : QueuedRequest Envelope := ⟨s.requested.length, envelope, timeoutMs⟩
  have hKnown : Advances s (s.known q) :=
    ⟨fun _ => .inl, fun _ hq => .inl (mem_outstanding_of_active hq), List.prefix_append _ _⟩
  have hEnqueued : Advances s ((s.known q).enqueued q) := by
    refine ⟨fun q' hq' => ?_, fun q' hq' => .inl (mem_outstanding_of_active hq'), List.prefix_append _ _⟩
    rcases List.mem_append.mp hq' with hOld | hSelf
    · exact .inl hOld
    · rw [List.mem_singleton.mp hSelf]
      exact .inr (le_refl _)
  rw [request_eq (q := q) rfl]
  split
  · exact hKnown.trans (advances_settle q _)
  split
  · exact hKnown.trans (advances_settle q _)
  split
  · next hDrain => exact hEnqueued.trans (advances_drain hDrain)
  · next hDrain => exact (hEnqueued.trans (advances_drain hDrain)).trans (advances_settle q _)

theorem advances_handleLine (line : String) : Advances s (s.handleLine wire line) := by
  unfold DaemonConnection.handleLine
  split
  · exact .refl s
  split
  · exact .refl s
  next response hParse =>
    dsimp only
    split
    · next q hLookup =>
      have hReleased : Advances s { clearTimer q { s with log := .arrived response :: s.log } with
          pendingRequests := s.pendingRequests.filter fun entry => some entry.1 ≠ responseId response
          activeRequest := s.activeRequest.filter fun active =>
            some (wire.id active.envelope) ≠ responseId response } :=
        .of_sub (fun _ => id) (fun _ hq => (Option.filter_eq_some_iff.mp hq).1) rfl
      split
      · next hDrain => exact (hReleased.trans (advances_drain hDrain)).trans (advances_settle q _)
      · next hDrain => exact hReleased.trans (advances_drain hDrain)
    · split
      · exact .of_sub (fun _ => id) (fun _ => id) rfl
      · exact .of_sub (fun _ => id) (fun _ => id) rfl

theorem Sound.advances_step (h : Sound wire s) {event : Event Envelope} {s' : DaemonConnection Envelope}
    (hStep : s.step wire event = some s') : Advances s s' := by
  cases event with
  | request envelope timeoutMs => exact Option.some.inj hStep ▸ advances_request envelope timeoutMs
  | notify data =>
    obtain rfl := Option.some.inj hStep
    unfold DaemonConnection.notify
    split
    · exact .refl s
    · exact .of_sub (fun _ => id) (fun _ => id) rfl
  | close => exact Option.some.inj hStep ▸ h.advances_close _
  | line line => exact Option.some.inj hStep ▸ advances_handleLine line
  | handleClose => exact Option.some.inj hStep ▸ h.advances_close _
  | handleError message => exact Option.some.inj hStep ▸ h.advances_close message
  | timeout number =>
    obtain ⟨q, hFind, rfl⟩ := Option.map_eq_some_iff.mp hStep
    obtain ⟨error, hShut⟩ := h.handleTimeout_eq (List.mem_of_find?_eq_some hFind)
    rw [hShut]
    have hTimers : Advances s { s with timers := [] } := .of_sub (fun _ => id) (fun _ => id) rfl
    exact hTimers.trans (advances_shut error)
  | written number error =>
    obtain ⟨q, -, rfl⟩ := Option.map_eq_some_iff.mp hStep
    cases error with
    | none => exact .of_sub (fun _ => id) (fun _ => id) rfl
    | some message =>
      refine Advances.trans ?_ ((h.calledBack _).advances_close message)
      exact .of_sub (fun _ => id) (fun _ => id) rfl

/-- A request that waits has the slot or an earlier one has it. -/
theorem Sound.front (h : Sound wire s) {q : QueuedRequest Envelope} (hq : q ∈ s.requested)
    (hNone : s.promises q.number = none) : ∃ a, s.activeRequest = some a ∧ a.number ≤ q.number := by
  have hWaits : q ∈ s.outstanding := (h.ledger.unsettled q hq hNone).resolve_right (by rintro ⟨⟩)
  have hOrdered := h.ledger.ordered
  rw [outstanding] at hWaits hOrdered
  cases hActive : s.activeRequest with
  | none =>
    rw [hActive, h.shape.idle hActive] at hWaits
    exact absurd hWaits List.not_mem_nil
  | some a =>
    rw [hActive] at hWaits hOrdered
    refine ⟨a, rfl, ?_⟩
    rcases List.mem_cons.mp hWaits with rfl | hQueued
    · exact le_refl _
    · exact le_of_lt ((List.pairwise_cons.mp hOrdered).1 q hQueued)

/-- What takes the slot after a request was made later than it. -/
theorem Sound.number_lt_of_advances (h : Sound wire s) {s' : DaemonConnection Envelope}
    (hAdvances : Advances s s')
    {a a' : QueuedRequest Envelope} (hActive : s.activeRequest = some a) (hActive' : s'.activeRequest = some a')
    (hne : a' ≠ a) : a.number < a'.number := by
  have hOrdered := h.ledger.ordered
  rcases hAdvances.active a' hActive' with hWaits | hNew
  · rw [outstanding, hActive] at hWaits hOrdered
    rcases List.mem_cons.mp hWaits with hSame | hQueued
    · exact absurd hSame hne
    · exact (List.pairwise_cons.mp hOrdered).1 a' hQueued
  · exact (h.ledger.number_lt (h.ledger.waiting a (mem_outstanding_of_active hActive))).trans_le hNew

theorem settles_of_timers {trace : Nat → DaemonConnection Envelope} (hSound : ∀ n, Sound wire (trace n))
    (hAdvances : ∀ n m, n ≤ m → Advances (trace n) (trace m))
    (hTimers : ∀ n, ∀ q ∈ (trace n).timers, ∃ m, n ≤ m ∧ q ∉ (trace m).timers)
    {q : QueuedRequest Envelope} {distance n : Nat} (hq : q ∈ (trace n).requested)
    (hDistance : ∀ a, (trace n).activeRequest = some a → q.number - a.number ≤ distance) :
    ∃ m, n ≤ m ∧ (trace m).promises q.number ≠ none := by
  -- the slot moves to a later request, and not past the one that waits
  induction distance using Nat.strong_induction_on generalizing n with
  | _ distance ih =>
    by_cases hNone : (trace n).promises q.number = none
    case neg => exact ⟨n, le_refl n, hNone⟩
    obtain ⟨a, hActive, hFront⟩ := (hSound n).front hq hNone
    have hTimer : a ∈ (trace n).timers := by
      rw [(hSound n).shape.timers, hActive]
      exact List.mem_singleton_self a
    obtain ⟨m, hnm, hGone⟩ := hTimers n a hTimer
    have hq' : q ∈ (trace m).requested := (hAdvances n m hnm).requested.subset hq
    by_cases hNone' : (trace m).promises q.number = none
    case neg => exact ⟨m, hnm, hNone'⟩
    obtain ⟨a', hActive', hFront'⟩ := (hSound m).front hq' hNone'
    have hne : a' ≠ a := by
      rintro rfl
      rw [(hSound m).shape.timers, hActive'] at hGone
      exact hGone (List.mem_singleton_self a')
    have hLater := (hSound n).number_lt_of_advances (hAdvances n m hnm) hActive hActive' hne
    have hShorter : q.number - a'.number < distance := by
      have := hDistance a hActive
      omega
    obtain ⟨m', hmm', hSettled⟩ := ih _ hShorter hq' fun a'' hActive'' => by
      cases hActive'.symm.trans hActive''
      exact le_refl _
    exact ⟨m', hnm.trans hmm', hSettled⟩

/-! ## Every run -/

theorem lawful_of_append {newer older : List (Effect Envelope)} (h : Lawful wire (newer ++ older)) :
    Lawful wire older := by
  induction newer with
  | nil => exact h
  | cons e newer ih =>
    cases e with
    | wrote => exact ih h.1
    | settled => exact ih h.1
    | sent => exact ih h
    | arrived => exact ih h
    | notified => exact ih h
    | closed => exact ih h

theorem Lawful.nodup {log : List (Effect Envelope)} (h : Lawful wire log) : (settledNumbers log).Nodup := by
  induction log with
  | nil => exact .nil
  | cons e log ih =>
    have hOlder : Lawful wire log := @lawful_of_append _ wire [e] log h
    cases e with
    | settled => exact List.nodup_cons.mpr ⟨h.2.1, ih hOlder⟩
    | wrote => exact ih hOlder
    | sent => exact ih hOlder
    | arrived => exact ih hOlder
    | notified => exact ih hOlder
    | closed => exact ih hOlder

theorem Lawful.ordered {log : List (Effect Envelope)} (h : Lawful wire log) :
    (writes log).Pairwise fun later earlier => earlier.number < later.number := by
  induction log with
  | nil => exact .nil
  | cons e log ih =>
    have hOlder : Lawful wire log := @lawful_of_append _ wire [e] log h
    cases e with
    | wrote => exact List.pairwise_cons.mpr ⟨h.2.2, ih hOlder⟩
    | settled => exact ih hOlder
    | sent => exact ih hOlder
    | arrived => exact ih hOlder
    | notified => exact ih hOlder
    | closed => exact ih hOlder

/-- What a connection owes to its callers. Requests are numbered as they are made, and the log has
the newest effect first. -/
structure Settles (wire : Wire Envelope) (s : DaemonConnection Envelope) : Prop where
  numbered : s.requested.map QueuedRequest.number = List.range s.requested.length
  once : (settledNumbers s.log).Nodup
  settled : ∀ n, n ∈ settledNumbers s.log ↔ s.promises n ≠ none
  own : ∀ newer q response older, s.log = newer ++ .settled q (.response response) :: older →
    responseId response = some (wire.id q.envelope) ∧
      ∃ between before, older = between ++ .arrived response :: before ∧ q ∈ writes before
  inOrder : (writes s.log).Pairwise fun later earlier => earlier.number < later.number
  single : ∀ w ∈ writes s.log, ∀ w' ∈ writes s.log,
    s.promises w.number = none → s.promises w'.number = none → w = w'
  closed : s.closed = true → ∀ q ∈ s.requested, s.promises q.number ≠ none
  silent : ∀ newer q data older, s.log = newer ++ .wrote q data :: older → .closed ∉ older

theorem Sound.settles (h : Sound wire s) : Settles wire s where
  numbered := h.ledger.numbered
  once := h.ledger.lawful.nodup
  settled := h.ledger.settled
  own newer q response older hLog := by
    have hLawful := h.ledger.lawful
    rw [hLog] at hLawful
    exact (lawful_of_append hLawful).2.2 response rfl
  inOrder := h.ledger.lawful.ordered
  single w hw w' hw' hNone hNone' := by
    have hActive := (h.ledger.unanswered w hw hNone).resolve_right nofun
    have hActive' := (h.ledger.unanswered w' hw' hNone').resolve_right nofun
    exact Option.some.inj (hActive.symm.trans hActive')
  closed hClosed q hq hNone := by
    obtain ⟨a, hActive, -⟩ := h.front hq hNone
    exact nomatch (h.shape.closed hClosed).symm.trans hActive
  silent newer q data older hLog := by
    have hLawful := h.ledger.lawful
    rw [hLog] at hLawful
    exact (lawful_of_append hLawful).2.1

/-- Every run keeps what is owed, and on a run that does not end, where armed timers fire or are
cleared, every request settles; in both, requests made behind another can be serialised. -/
theorem settles_of_serialisable (wire : Wire Envelope) :
    (∀ events s, Along (step wire) (Serialisable wire) init events → run (step wire) init events = some s →
      Settles wire s) ∧
    ∀ trace labels, Endless (step wire) init trace labels →
      (∀ n event, labels n = some event → Serialisable wire (trace n) event) →
      (∀ n, ∀ q ∈ (trace n).timers, ∃ m, n ≤ m ∧ q ∉ (trace m).timers) →
      ∀ n, ∀ q ∈ (trace n).requested, ∃ m, n ≤ m ∧ (trace m).promises q.number ≠ none := by
  have hStep : ∀ s event s', Sound wire s → Serialisable wire s event → s.step wire event = some s' →
      Sound wire s' := fun s event s' h hSerial hNext => h.step hSerial hNext
  constructor
  · intro events s hAlong hRun
    exact (invariant_of_along hStep sound_init hAlong hRun).settles
  · intro trace labels hRun hSerial hTimers n q hq
    have hSound := hRun.invariant hStep sound_init hSerial
    have hAdvances : ∀ n m, n ≤ m → Advances (trace n) (trace m) := fun n m hnm =>
      hRun.related Advances.refl (fun _ _ _ => Advances.trans)
        (fun n event _ hNext => (hSound n).advances_step hNext) hnm
    exact settles_of_timers hSound hAdvances hTimers hq fun a _ => Nat.sub_le _ _

/-- An envelope is its id and what it is serialised to; a response is an id. -/
def plainWire : Wire (String × Option String) where
  id := Prod.fst
  stringify := Prod.snd
  parse line := some (.object [("id", .string line)])

def answered : List (Event (String × Option String)) :=
  [.request ("a", some "{}") 30000, .request ("b", some "{}") 30000, .line "a", .line "b"]

theorem settles_answered :
    ∃ s, run (step plainWire) init answered = some s ∧
      s.promises 0 = some (.response (.object [("id", .string "a")])) ∧
      s.promises 1 = some (.response (.object [("id", .string "b")])) ∧ Settles plainWire s := by
  refine ⟨_, rfl, rfl, rfl, (settles_of_serialisable plainWire).1 answered _ ?_ rfl⟩
  exact ⟨fun _ => rfl, fun _ h => Option.some.inj h ▸ ⟨fun _ => rfl, fun _ h => Option.some.inj h ▸
    ⟨trivial, fun _ h => Option.some.inj h ▸ ⟨trivial, fun _ _ => trivial⟩⟩⟩⟩

/-- The answer to a request finds one behind it that cannot be serialised. -/
def starved : List (Event (String × Option String)) :=
  [.request ("a", some "{}") 30000, .request ("b", none) 30000, .line "a", .close]

theorem starved_runs :
    ∃ s, run (step plainWire) init starved = some s ∧ s.closed = true ∧ s.promises 0 = none ∧
      ¬ Settles plainWire s := by
  refine ⟨_, rfl, rfl, rfl, fun h => ?_⟩
  exact h.closed rfl _ List.mem_cons_self rfl

end Exosuit.Extension.DaemonConnection
