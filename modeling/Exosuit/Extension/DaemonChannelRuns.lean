import Exosuit.Extension.DaemonChannelCore

/-!
# Runs of the daemon channel

Connections stay single and current in every run in which a shared lifecycle check does not
return while another attempt of its slot is under way, a lost request forgets no other
connection than its own, and no restart ends after the client was disposed.
-/

namespace Exosuit.Extension.DaemonChannelServer

open Exosuit.Lib

variable {s t : DaemonChannelServer} {i a : Nat} {slot : Slot} {task : Task} {attempt : Attempt}

/-! ## Attempts -/

theorem sound_attemptFailed (h : s.core.Sound) (hAttempt : s.attempts a = some attempt)
    (hUnderWay : attempt.UnderWay) : (s.attemptFailed a attempt).core.Sound := by
  have hSettle : ∀ (t : DaemonChannelServer) (phase : AttemptPhase), t.core = s.core →
      (t.setPhase a attempt phase).core.Sound := by
    intro t phase hCore
    have hHere : t.core.attempts a = some attempt := hCore ▸ hAttempt
    exact sound_setPhase (hCore.symm ▸ h) hHere hUnderWay
  unfold attemptFailed
  split
  · exact hSettle _ _ (core_finishConnect ..)
  · refine hSettle _ _ ?_
    rw [core_finishConnect, core_enterCooldownIfNeeded, core_recordConnectFailure]

/-- A stale connection is closed at once. -/
theorem sound_discard (h : s.core.Sound) (conn : Conn) :
    { s with
      connections := Function.update s.connections s.opened (some conn.shut)
      opened := s.opened + 1 }.core.Sound := by
  refine { h with opened := ?_, recorded := ?_, single := ?_ }
  · intro c old hConn
    rcases update_eq_some hConn with ⟨rfl, -⟩ | ⟨-, hOld⟩
    · exact Nat.lt_succ_self _
    · exact Nat.lt_succ_of_lt (h.opened c old hOld)
  · intro slot c hRecorded
    obtain ⟨old, hOld, hRest⟩ := h.recorded slot c hRecorded
    exact ⟨old, (Function.update_of_ne (Nat.ne_of_lt (h.opened c old hOld)) ..).trans hOld, hRest⟩
  · intro c old hConn hOpen
    rcases update_eq_some hConn with ⟨-, hNew⟩ | ⟨-, hOld⟩
    · obtain rfl := Option.some.inj hNew
      exact nomatch hOpen
    · exact h.single c old hOld hOpen

theorem sound_record (h : s.core.Sound) (hAttempt : s.attempts a = some attempt)
    (hUnderWay : attempt.UnderWay) (hCurrent : attempt.generation = s.generation) :
    Core.Sound { s.core with
      connections := Function.update s.connections s.opened
        (some ⟨attempt.slot, attempt.generation, s.generation, true, true⟩)
      opened := s.opened + 1
      recorded := Function.update s.recorded attempt.slot (some s.opened)
      attempts := Function.update s.attempts a (some { attempt with phase := .settled true }) } := by
  obtain ⟨hPromise, hNone⟩ := h.promised a attempt hAttempt hUnderWay hCurrent
  refine { h with
    attempted := ?_, opened := ?_, promised := ?_, recorded := ?_, single := ?_,
    disposed := fun hDisposed => ?_ }
  · intro b other hOther
    rcases update_eq_some hOther with ⟨rfl, hNew⟩ | ⟨-, hOld⟩
    · obtain rfl := Option.some.inj hNew
      exact h.attempted b attempt hAttempt
    · exact h.attempted b other hOld
  · intro c old hConn
    rcases update_eq_some hConn with ⟨rfl, -⟩ | ⟨-, hOld⟩
    · exact Nat.lt_succ_self _
    · exact Nat.lt_succ_of_lt (h.opened c old hOld)
  · intro b other hOther hOf hSame
    rcases update_eq_some hOther with ⟨-, hNew⟩ | ⟨hBut, hOld⟩
    · obtain rfl := Option.some.inj hNew
      exact absurd rfl (hOf true)
    · obtain ⟨hHeld, hVacant⟩ := h.promised b other hOld hOf hSame
      refine ⟨hHeld, (Function.update_of_ne ?_ ..).trans hVacant⟩
      intro hSlot
      rw [hSlot] at hHeld
      exact hBut (Option.some.inj (hHeld.symm.trans hPromise))
  · intro slot c hRecorded
    rcases update_eq_some hRecorded with ⟨rfl, hNew⟩ | ⟨-, hOld⟩
    · obtain rfl := Option.some.inj hNew
      exact ⟨_, Function.update_self .., rfl, rfl, hCurrent⟩
    · obtain ⟨old, hConn, hRest⟩ := h.recorded slot c hOld
      exact ⟨old, (Function.update_of_ne (Nat.ne_of_lt (h.opened c old hConn)) ..).trans hConn, hRest⟩
  · intro c old hConn hOpen
    rcases update_eq_some hConn with ⟨rfl, hNew⟩ | ⟨-, hOld⟩
    · obtain rfl := Option.some.inj hNew
      exact Function.update_self ..
    · have hThere := h.single c old hOld hOpen
      refine (Function.update_of_ne ?_ ..).trans hThere
      intro hSlot
      rw [hSlot] at hThere
      exact nomatch hThere.symm.trans hNone
  · exact absurd hCurrent ((h.disposed hDisposed).2.2.1 attempt.slot a attempt hAttempt hUnderWay rfl)

theorem sound_attemptOpened (h : s.core.Sound) (hAttempt : s.attempts a = some attempt)
    (hUnderWay : attempt.UnderWay) (lifecycle : DaemonEnsureResult) :
    (s.attemptOpened a attempt lifecycle).core.Sound := by
  unfold attemptOpened
  dsimp only
  split
  · exact sound_attemptFailed (sound_discard h _) hAttempt hUnderWay
  · rename_i hSame
    have hCurrent : attempt.generation = s.generation := (not_not.mp hSame).symm
    have hRecorded := sound_record h hAttempt hUnderWay hCurrent
    obtain ⟨slot, generation, phase⟩ := attempt
    cases slot <;> exact hRecorded

/-! ## Callers -/

theorem sound_joined (h : s.core.Sound) (hAttempt : s.attempts a = some attempt)
    (hSettled : ¬ attempt.UnderWay) (owner ok : Bool) : (s.joined i task a owner ok).core.Sound := by
  unfold joined
  dsimp only
  refine sound_setStage ?_ nofun
  split
  case isFalse => exact h
  case isTrue hOwn =>
    refine { h with promised := ?_ }
    intro b other hOther hUnderWay hCurrent
    obtain ⟨hHeld, hVacant⟩ := h.promised b other hOther hUnderWay hCurrent
    refine ⟨(Function.update_of_ne ?_ ..).trans hHeld, hVacant⟩
    intro hSlot
    have hMine : s.connectPromises task.caller.slot = some a := by
      simpa using (Bool.and_eq_true_iff.mp hOwn).2
    rw [hSlot] at hHeld
    obtain rfl := Option.some.inj (hHeld.symm.trans hMine)
    obtain rfl := Option.some.inj (hOther.symm.trans hAttempt)
    exact hSettled hUnderWay

theorem idle_of_promise (h : s.core.Sound) (hNone : s.connectPromises slot = none) :
    s.core.Idle slot := by
  rintro a attempt hAttempt hUnderWay rfl hCurrent
  obtain ⟨hHeld, -⟩ := h.promised a attempt hAttempt hUnderWay hCurrent
  exact nomatch hHeld.symm.trans hNone

theorem sound_delayOver (h : s.core.Sound) (generation : Nat) :
    (s.delayOver i task generation).core.Sound := by
  unfold delayOver
  split
  case isTrue => exact sound_setStage h nofun
  case isFalse hGoesOn =>
    obtain ⟨hSame, hShut⟩ : s.generation = generation ∧ s.isShuttingDown = false := by
      simpa using hGoesOn
    have hNotDisposed : s.disposed = true → generation ≠ s.generation := fun hDisposed =>
      absurd ((h.disposed hDisposed).1.symm.trans hShut).symm Bool.false_ne_true
    split
    case h_1 => exact sound_setStage h nofun
    case h_2 hNone =>
      split
      · exact sound_setStage h nofun
      · split
        · refine sound_setStage h ?_
          rintro _ ⟨⟩
          exact ⟨Nat.le_of_eq hSame.symm, hNotDisposed⟩
        · exact sound_connect h (Nat.le_of_eq hSame.symm) (idle_of_promise h hNone) hNotDisposed

theorem sound_resetLifecycle (h : s.core.Sound) : s.resetLifecycle.core.Sound :=
  sound_cleanup h rfl rfl rfl rfl rfl rfl rfl fun hDisposed => (h.disposed hDisposed).1

theorem sound_restarted (h : s.core.Sound) (hAlive : s.disposed = false) : s.restarted.core.Sound :=
  sound_cleanup h rfl rfl rfl rfl rfl rfl rfl fun hDisposed => nomatch hAlive.symm.trans hDisposed

theorem sound_dispose (h : s.core.Sound) : s.dispose.core.Sound :=
  sound_cleanup h rfl rfl rfl rfl rfl rfl rfl fun _ => rfl

theorem sound_lifecycleChecked (h : s.core.Sound) {answer : Option DaemonEnsureResult}
    (hTask : s.tasks i = some task)
    (hIdle : ∀ generation result, task.stage = .sharing generation → answer = some result →
      s.reused result = true → s.core.Idle task.caller.slot) :
    (s.lifecycleChecked i task answer).core.Sound := by
  unfold lifecycleChecked
  cases answer with
  | none => exact sound_setStage h nofun
  | some result =>
    dsimp only
    cases hReused : s.reused result with
    | true =>
      rw [if_pos rfl]
      split
      case h_1 generation hStage =>
        exact sound_connect h (h.sharing i task generation hTask hStage)
          (hIdle generation result hStage rfl hReused)
          fun hDisposed => (h.disposed hDisposed).2.2.2 i task generation hTask hStage
      case h_2 => exact sound_setStage h nofun
    | false =>
      rw [if_neg Bool.false_ne_true]
      split
      · exact sound_joinOrDelay (sound_resetLifecycle h)
      · exact sound_ensureConnected (sound_resetLifecycle h)

theorem sound_retry (h : s.core.Sound) (caller : Caller) : (s.retry i caller).core.Sound := by
  cases caller with
  | write | read => exact sound_ensureConnected h
  | notify | warmup => exact sound_setStage h nofun

theorem sound_proceed (h : s.core.Sound) : (s.proceed i task).core.Sound := by
  have hStage : ∀ stage, (∀ generation, stage ≠ .sharing generation) →
      (s.setStage i task stage).core.Sound := fun stage hOther =>
    sound_setStage h fun generation hSame => absurd hSame (hOther generation)
  unfold proceed
  dsimp only
  split
  · split
    · split <;> exact hStage _ nofun
    · split
      · exact sound_retry h _
      · exact hStage _ nofun
  · split
    · exact hStage _ nofun
    · split
      · split
        · exact sound_retry h _
        · exact hStage _ nofun
      · split
        · split <;> exact hStage _ nofun
        · rename_i hDead
          split
          · exact sound_retry (sound_unrecord h (Bool.not_eq_true _ ▸ hDead)) _
          · exact hStage _ nofun
  · exact hStage _ nofun
  · exact hStage _ nofun

theorem sound_requestFailed (h : s.core.Sound) {reconnectable : Bool}
    (hDead : reconnectable = true → task.caller.retries = true → s.live task.caller.slot = false) :
    (s.requestFailed i task reconnectable).core.Sound := by
  unfold requestFailed
  split
  case isTrue hRetry =>
    obtain ⟨hRetries, hReconnectable⟩ := Bool.and_eq_true_iff.mp hRetry
    exact sound_retry (sound_unrecord h (hDead hReconnectable hRetries)) _
  case isFalse => exact sound_setStage h nofun

theorem sound_call (h : s.core.Sound) (caller : Caller) : (s.call caller).core.Sound :=
  @sound_ensureConnected { s with called := s.called + 1 } _ _ h

theorem sound_request (h : s.core.Sound) (pureRead : Bool) : (s.request pureRead).core.Sound := by
  unfold request
  split
  · exact h
  · have hAvailable : s.getServerModeAvailability.1.core.Sound := (core_availability s).symm ▸ h
    generalize s.getServerModeAvailability = next at *
    obtain ⟨s, available⟩ := next
    dsimp only at hAvailable ⊢
    split
    · exact hAvailable
    · split
      · refine sound_call ?_ _
        unfold nextReadLaneIndex
        dsimp only
        split <;> exact hAvailable
      · exact sound_call hAvailable _

/-! ## Closing -/

theorem sound_connectionClosed (h : s.core.Sound) {c : Nat} {conn : Conn}
    (hConn : s.connections c = some conn) (hOpen : conn.isOpen = true) :
    (s.connectionClosed c conn).core.Sound := by
  have hRecorded := h.single c conn hConn hOpen
  have hClosed : { s with
      connections := Function.update s.connections c (some { conn with isOpen := false }) }.core.Sound := by
    refine { h with opened := ?_, recorded := ?_, single := ?_ }
    · intro d old hOld
      rcases update_eq_some hOld with ⟨rfl, -⟩ | ⟨-, hThere⟩
      · exact h.opened d conn hConn
      · exact h.opened d old hThere
    · intro slot d hSlot
      obtain ⟨old, hOld, hRest⟩ := h.recorded slot d hSlot
      rcases eq_or_ne d c with rfl | hOther
      · obtain rfl := Option.some.inj (hOld.symm.trans hConn)
        exact ⟨_, Function.update_self .., hRest⟩
      · exact ⟨old, (Function.update_of_ne hOther ..).trans hOld, hRest⟩
    · intro d old hOld hStill
      rcases update_eq_some hOld with ⟨-, hNew⟩ | ⟨-, hThere⟩
      · obtain rfl := Option.some.inj hNew
        exact nomatch hStill
      · exact h.single d old hThere hStill
  have hDead : live { s with
      connections := Function.update s.connections c (some { conn with isOpen := false }) } conn.slot =
        false := by
    rw [live, show s.recorded conn.slot = some c from hRecorded]
    dsimp only
    rw [isOpen]
    dsimp only
    rw [Function.update_self]
  unfold connectionClosed
  dsimp only
  split
  · exact hClosed
  · obtain ⟨slot, attemptGeneration, generation, wasOpen, onClose⟩ := conn
    cases slot with
    | primary => exact sound_unrecord hClosed hDead
    | lane index =>
      dsimp only
      split
      · exact sound_unrecord hClosed hDead
      · exact hClosed

/-! ## Steps and runs -/

/-- The condition on the events. -/
def Allowed (s : DaemonChannelServer) : ChannelEvent → Prop
  | .lifecycleChecked i answer => ∀ task generation result, s.tasks i = some task →
      task.stage = .sharing generation → answer = some result → s.reused result = true →
        s.core.Idle task.caller.slot
  | .requestFailed i reconnectable => ∀ task c, s.tasks i = some task → task.stage = .requesting c →
      reconnectable = true → task.caller.retries = true →
        s.recorded task.caller.slot = none ∨ (s.recorded task.caller.slot = some c ∧ s.isOpen c = false)
  | .restart restartDaemon => restartDaemon = false → s.disposed = false
  | .restarted => s.disposed = false
  | _ => True

theorem Allowed.live_eq_false {c : Nat}
    (h : s.recorded slot = none ∨ (s.recorded slot = some c ∧ s.isOpen c = false)) :
    s.live slot = false := by
  rcases h with hNone | ⟨hOwn, hClosed⟩
  · rw [live, hNone]
  · rw [live, hOwn]
    exact hClosed

theorem sound_new (config : DaemonChannelServerConfig) : (new config).core.Sound where
  attempted _ _ hNone := nomatch hNone
  opened _ _ hNone := nomatch hNone
  promised _ _ hNone := nomatch hNone
  recorded _ _ hNone := nomatch hNone
  single _ _ hNone := nomatch hNone
  sharing _ _ _ hNone := nomatch hNone
  disposed hDisposed := nomatch hDisposed

theorem sound_step (h : s.core.Sound) {event : ChannelEvent} (hAllowed : s.Allowed event)
    (hStep : s.step event = some t) : t.core.Sound := by
  unfold step at hStep
  cases event with
  | request pureRead => exact Option.some.inj hStep ▸ sound_request h pureRead
  | notify => exact Option.some.inj hStep ▸ sound_call h .notify
  | warmup => exact Option.some.inj hStep ▸ sound_call h .warmup
  | lifecycleChecked i answer =>
    dsimp only at hStep
    split at hStep
    case h_4 => exact nomatch hStep
    all_goals
      rename_i hTask
      obtain rfl := Option.some.inj hStep
      exact sound_lifecycleChecked h hTask fun generation result => hAllowed _ generation result hTask
  | delayOver i =>
    dsimp only at hStep
    split at hStep
    · split at hStep
      · exact Option.some.inj hStep ▸ sound_delayOver h _
      · exact nomatch hStep
    · exact nomatch hStep
  | attemptLifecycle a answer =>
    dsimp only at hStep
    split at hStep
    case h_1 hAttempt =>
      split at hStep
      · exact Option.some.inj hStep ▸ sound_setPhase h hAttempt nofun
      · exact Option.some.inj hStep ▸ sound_attemptFailed h hAttempt nofun
    case h_2 => exact nomatch hStep
  | opened a ok =>
    dsimp only at hStep
    split at hStep
    case h_1 lifecycle hAttempt =>
      split at hStep
      · exact Option.some.inj hStep ▸ sound_attemptOpened h hAttempt nofun lifecycle
      · exact Option.some.inj hStep ▸ sound_attemptFailed h hAttempt nofun
    case h_2 => exact nomatch hStep
  | joined i =>
    dsimp only at hStep
    split at hStep
    case h_1 a owner hTask =>
      split at hStep
      case h_1 ok hAttempt =>
        exact Option.some.inj hStep ▸ sound_joined h hAttempt (fun hUnderWay => hUnderWay ok rfl) owner ok
      case h_2 => exact nomatch hStep
    case h_2 => exact nomatch hStep
  | proceed i =>
    dsimp only at hStep
    split at hStep
    · exact Option.some.inj hStep ▸ sound_proceed h
    · exact Option.some.inj hStep ▸ sound_setStage h nofun
    · exact nomatch hStep
  | responded i =>
    dsimp only at hStep
    split at hStep
    · exact Option.some.inj hStep ▸ sound_setStage (s := s.markRequestSucceeded) h nofun
    · exact nomatch hStep
  | requestFailed i reconnectable =>
    dsimp only at hStep
    split at hStep
    case h_1 c hTask =>
      refine Option.some.inj hStep ▸ sound_requestFailed h fun hReconnectable hRetries => ?_
      exact Allowed.live_eq_false (hAllowed _ c hTask rfl hReconnectable hRetries)
    case h_2 => exact nomatch hStep
  | closed c =>
    dsimp only at hStep
    split at hStep
    case h_1 conn hConn =>
      split at hStep
      case isTrue hOpen => exact Option.some.inj hStep ▸ sound_connectionClosed h hConn hOpen
      case isFalse => exact nomatch hStep
    case h_2 => exact nomatch hStep
  | timer =>
    dsimp only at hStep
    split at hStep
    · split at hStep
      · exact nomatch hStep
      · split at hStep
        · exact Option.some.inj hStep ▸ h
        · exact Option.some.inj hStep ▸ sound_call (s := { s with reconnectTimer := none }) h .warmup
    · exact nomatch hStep
  | restart restartDaemon =>
    cases restartDaemon with
    | true => exact Option.some.inj hStep ▸ h
    | false => exact Option.some.inj hStep ▸ sound_restarted h (hAllowed rfl)
  | restarted =>
    dsimp only at hStep
    split at hStep
    · exact nomatch hStep
    · obtain rfl := Option.some.inj hStep
      exact sound_restarted (s := { s with restarting := s.restarting - 1 }) h hAllowed
  | dispose => exact Option.some.inj hStep ▸ sound_dispose h
  | availability => exact Option.some.inj hStep ▸ (core_availability s).symm ▸ h
  | elapse ms => exact Option.some.inj hStep ▸ h

/-! ## What the client promises -/

theorem recorded_ensureConnected (s : DaemonChannelServer) (i : Nat) (task : Task) :
    (s.ensureConnected i task).recorded = s.recorded := by
  unfold ensureConnected
  have hSame : s.getServerModeAvailability.1.recorded = s.recorded :=
    congrArg Core.recorded (core_availability s)
  generalize s.getServerModeAvailability = next at *
  obtain ⟨s, available⟩ := next
  dsimp only at hSame ⊢
  have hJoin : (s.joinOrDelay i task).recorded = s.recorded := by
    unfold joinOrDelay
    split <;> rfl
  split
  · exact hSame
  · split
    · split
      · exact hSame
      · exact hJoin.trans hSame
    · split
      · exact hSame
      · split
        · exact hSame
        · exact hJoin.trans hSame

theorem recorded_retry (s : DaemonChannelServer) (i : Nat) (caller : Caller) :
    (s.retry i caller).recorded = s.recorded := by
  cases caller with
  | write | read => exact recorded_ensureConnected ..
  | notify | warmup => rfl

def closing (s : DaemonChannelServer) : ChannelEvent → Option Nat
  | .closed c => some c
  | .requestFailed i _ =>
    match s.tasks i with
    | some ⟨_, .requesting c⟩ => some c
    | _ => none
  | _ => none

/-- The closing of a connection leaves the records of the others. -/
def KeepsOthers (s : DaemonChannelServer) (event : ChannelEvent) : Prop :=
  ∀ c, s.closing event = some c → ∀ slot c', s.recorded slot = some c' → c' ≠ c →
    ∀ t, s.step event = some t → t.recorded slot = some c'

theorem keepsOthers_closed (h : s.core.Sound) (c : Nat) : s.KeepsOthers (.closed c) := by
  rintro _ ⟨⟩ slot c' hRecorded hOther t hStep
  unfold step at hStep
  dsimp only at hStep
  split at hStep
  case h_2 => exact nomatch hStep
  case h_1 conn hConn =>
    split at hStep
    case isFalse => exact nomatch hStep
    case isTrue hOpen =>
      obtain rfl := Option.some.inj hStep
      have hOwn : s.recorded conn.slot = some c := h.single c conn hConn hOpen
      have hSlot : slot ≠ conn.slot := by
        rintro rfl
        exact hOther (Option.some.inj (hRecorded.symm.trans hOwn))
      have hKept : Function.update s.recorded conn.slot none slot = some c' :=
        (Function.update_of_ne hSlot ..).trans hRecorded
      obtain ⟨own, attemptGeneration, generation, wasOpen, onClose⟩ := conn
      unfold connectionClosed
      dsimp only
      split
      · exact hRecorded
      · cases own with
        | primary => exact hKept
        | lane index =>
          dsimp only at hOwn ⊢
          rw [if_pos hOwn]
          exact hKept

theorem keepsOthers_requestFailed {reconnectable : Bool}
    (hAllowed : s.Allowed (.requestFailed i reconnectable)) :
    s.KeepsOthers (.requestFailed i reconnectable) := by
  intro c hClosing slot c' hRecorded hOther t hStep
  unfold step at hStep
  unfold closing at hClosing
  dsimp only at hStep hClosing
  split at hStep
  case h_2 => exact nomatch hStep
  case h_1 caller d hTask =>
    obtain rfl := Option.some.inj hStep
    rw [hTask] at hClosing
    obtain rfl := Option.some.inj hClosing
    unfold requestFailed
    split
    case isFalse => exact hRecorded
    case isTrue hRetry =>
      obtain ⟨hRetries, hReconnectable⟩ := Bool.and_eq_true_iff.mp hRetry
      rw [recorded_retry]
      refine (Function.update_of_ne ?_ ..).trans hRecorded
      rintro rfl
      rcases hAllowed _ d hTask rfl hReconnectable hRetries with hNone | ⟨hOwn, -⟩
      · exact nomatch hRecorded.symm.trans hNone
      · exact hOther (Option.some.inj (hRecorded.symm.trans hOwn))

theorem keepsOthers_of_allowed (h : s.core.Sound) {event : ChannelEvent} (hAllowed : s.Allowed event) :
    s.KeepsOthers event := by
  cases event with
  | closed c => exact keepsOthers_closed h c
  | requestFailed i reconnectable => exact keepsOthers_requestFailed hAllowed
  | _ => exact fun c hNone => nomatch hNone

/-- Connections are never stale or doubled: at most one is open in a slot; a recorded one was
opened in its slot under the current generation; one whose attempt ended under another
generation is closed and not recorded; none is recorded once the client was disposed; and the
closing of one leaves the records of the others. -/
structure KeepsApart (config : DaemonChannelServerConfig) (events : List ChannelEvent) : Prop where
  single : ∀ s, run step (new config) events = some s → ∀ c c' conn conn', s.connections c = some conn →
    s.connections c' = some conn' → conn.isOpen = true → conn'.isOpen = true →
      conn.slot = conn'.slot → c = c'
  current : ∀ s, run step (new config) events = some s → ∀ slot c, s.recorded slot = some c →
    ∃ conn, s.connections c = some conn ∧ conn.slot = slot ∧ conn.generation = s.generation
  stale : ∀ s, run step (new config) events = some s → ∀ c conn, s.connections c = some conn →
    conn.attemptGeneration ≠ conn.generation → conn.isOpen = false ∧ ∀ slot, s.recorded slot ≠ some c
  disposed : ∀ s, run step (new config) events = some s → s.disposed = true →
    ∀ slot, s.recorded slot = none
  others : Along step KeepsOthers (new config) events

theorem along_keepsOthers {events : List ChannelEvent} (h : s.core.Sound)
    (hAllowed : Along step Allowed s events) : Along step KeepsOthers s events := by
  induction events generalizing s with
  | nil => trivial
  | cons event events ih =>
    refine ⟨keepsOthers_of_allowed h hAllowed.1, fun t hStep => ?_⟩
    exact ih (sound_step h hAllowed.1 hStep) (hAllowed.2 t hStep)

/-- Every run of allowed events keeps the connections apart. -/
theorem keepsApart_of_allowed (config : DaemonChannelServerConfig) (events : List ChannelEvent)
    (hAllowed : Along step Allowed (new config) events) : KeepsApart config events := by
  have hSound : ∀ s, run step (new config) events = some s → s.core.Sound := fun s hRun =>
    invariant_of_along (fun _ _ _ h hEvent hStep => sound_step h hEvent hStep) (sound_new config)
      hAllowed hRun
  refine ⟨?_, ?_, ?_, ?_, along_keepsOthers (sound_new config) hAllowed⟩
  · intro s hRun c c' conn conn' hConn hConn' hOpen hOpen' hSlot
    have hRecorded := (hSound s hRun).single c conn hConn hOpen
    have hRecorded' := (hSound s hRun).single c' conn' hConn' hOpen'
    rw [hSlot] at hRecorded
    exact Option.some.inj (hRecorded.symm.trans hRecorded')
  · intro s hRun slot c hRecorded
    obtain ⟨conn, hConn, hSlot, hGeneration, -⟩ := (hSound s hRun).recorded slot c hRecorded
    exact ⟨conn, hConn, hSlot, hGeneration⟩
  · intro s hRun c conn hConn hStale
    have hNot : ∀ slot, s.recorded slot ≠ some c := by
      intro slot hRecorded
      obtain ⟨conn', hConn', -, hGeneration, hAttempt⟩ := (hSound s hRun).recorded slot c hRecorded
      obtain rfl := Option.some.inj (hConn'.symm.trans hConn)
      exact hStale (hAttempt.trans hGeneration.symm)
    refine ⟨Bool.eq_false_iff.mpr fun hOpen => ?_, hNot⟩
    exact hNot conn.slot ((hSound s hRun).single c conn hConn hOpen)
  · exact fun s hRun hDisposed => ((hSound s hRun).disposed hDisposed).2.1

/-- The runs below have one read lane. -/
def oneLane : DaemonChannelServerConfig := ⟨false, 1, 10, 500, 30000, 1000⟩

def daemon : DaemonEnsureResult := ⟨some "d", some "connected_existing"⟩

def laneOpened : List ChannelEvent :=
  [.request true, .delayOver 0, .attemptLifecycle 0 (some daemon), .opened 0 true]

/-- A write shares the live read lane and loses its connection, and the client is restarted twice. -/
def lostWrite : List ChannelEvent :=
  laneOpened ++ [.request false, .delayOver 1, .lifecycleChecked 1 (some daemon), .opened 1 true,
    .joined 1, .proceed 1, .closed 1, .requestFailed 1 true, .restart true, .restarted,
    .restart false]

theorem along_allowed_cons {event : ChannelEvent} {events : List ChannelEvent}
    (hAllowed : s.Allowed event) (hStep : s.step event = some t) (hRest : Along step Allowed t events) :
    Along step Allowed s (event :: events) :=
  ⟨hAllowed, fun _ h => Option.some.inj (hStep.symm.trans h) ▸ hRest⟩

theorem keepsApart_lostWrite : KeepsApart oneLane lostWrite := by
  refine keepsApart_of_allowed oneLane lostWrite ?_
  iterate 6 refine along_allowed_cons trivial rfl ?_
  refine along_allowed_cons ?_ rfl ?_
  · intro task generation result hTask hStage hAnswer hReused a attempt hAttempt hUnderWay hSlot
    cases hTask
    cases a with
    | zero =>
      cases hAttempt
      cases hSlot
    | succ a => cases hAttempt
  iterate 4 refine along_allowed_cons trivial rfl ?_
  refine along_allowed_cons ?_ rfl ?_
  · intro task c hTask hStage hReconnectable hRetries
    cases hTask
    exact .inl (by decide)
  refine along_allowed_cons (fun _ => rfl) rfl ?_
  refine along_allowed_cons rfl rfl ?_
  exact along_allowed_cons (fun _ => rfl) rfl trivial

/-- Two writes that both checked the lifecycle for the live read lane open a primary
connection each. -/
def doubled : List ChannelEvent :=
  laneOpened ++ [.request false, .request false, .delayOver 1, .delayOver 2,
    .lifecycleChecked 1 (some daemon), .lifecycleChecked 2 (some daemon), .opened 1 true,
    .opened 2 true]

/-- The connections of two writes are both open, and the closing of the first removes the
record of the second; a restart that ends after the client was disposed lets it connect. -/
theorem doubled_runs :
    ¬ KeepsApart oneLane doubled ∧ ¬ KeepsApart oneLane (doubled ++ [.closed 1]) ∧
    ¬ KeepsApart oneLane [.restart true, .dispose, .restarted, .request false, .delayOver 0,
      .attemptLifecycle 0 (some daemon), .opened 0 true] := by
  refine ⟨fun h => ?_, fun h => ?_, fun h => ?_⟩
  · exact absurd (h.single _ rfl 1 2 _ _ rfl rfl rfl rfl rfl) (by decide)
  · have hClosed : Along step KeepsOthers _ [_] := Along.append h.others rfl
    have hKept := hClosed.1 1 rfl .primary 2 rfl (by decide) _ rfl
    exact absurd hKept (by decide)
  · exact absurd (h.disposed _ rfl rfl .primary) (by decide)

end Exosuit.Extension.DaemonChannelServer
