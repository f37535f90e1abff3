import Exosuit.Extension.DaemonChannel
import Exosuit.Lib.Table

/-!
# What keeps connections apart

The part of the client that decides which connections are open and recorded, and its
invariant: an attempt of the current generation holds the promise of its slot and finds
nothing recorded there, a recorded connection was opened under the current generation, and
an open connection is recorded.
-/

namespace Exosuit.Extension

open Exosuit.Lib

def Attempt.UnderWay (attempt : Attempt) : Prop := ∀ ok, attempt.phase ≠ .settled ok

namespace DaemonChannelServer

structure Core where
  recorded : Slot → Option Nat
  connectPromises : Slot → Option Nat
  connections : Nat → Option Conn
  opened : Nat
  attempts : Nat → Option Attempt
  attempted : Nat
  tasks : Nat → Option Task
  generation : Nat
  isShuttingDown : Bool
  disposed : Bool

def core (s : DaemonChannelServer) : Core :=
  ⟨s.recorded, s.connectPromises, s.connections, s.opened, s.attempts, s.attempted, s.tasks,
    s.generation, s.isShuttingDown, s.disposed⟩

/-- No attempt of the current generation is under way in the slot. -/
def Core.Idle (k : Core) (slot : Slot) : Prop :=
  ∀ a attempt, k.attempts a = some attempt → attempt.UnderWay → attempt.slot = slot →
    attempt.generation ≠ k.generation

structure Core.Sound (k : Core) : Prop where
  attempted : ∀ a attempt, k.attempts a = some attempt →
    a < k.attempted ∧ attempt.generation ≤ k.generation
  opened : ∀ c conn, k.connections c = some conn → c < k.opened
  promised : ∀ a attempt, k.attempts a = some attempt → attempt.UnderWay →
    attempt.generation = k.generation →
      k.connectPromises attempt.slot = some a ∧ k.recorded attempt.slot = none
  recorded : ∀ slot c, k.recorded slot = some c → ∃ conn, k.connections c = some conn ∧
    conn.slot = slot ∧ conn.generation = k.generation ∧ conn.attemptGeneration = k.generation
  single : ∀ c conn, k.connections c = some conn → conn.isOpen = true →
    k.recorded conn.slot = some c
  sharing : ∀ i task generation, k.tasks i = some task → task.stage = .sharing generation →
    generation ≤ k.generation
  disposed : k.disposed = true → k.isShuttingDown = true ∧ (∀ slot, k.recorded slot = none) ∧
    (∀ slot, k.Idle slot) ∧ ∀ i task generation, k.tasks i = some task →
      task.stage = .sharing generation → generation ≠ k.generation

variable {s : DaemonChannelServer} {i a : Nat} {slot : Slot} {task : Task} {attempt : Attempt}

/-! ## What leaves the connections alone -/

theorem core_availability (s : DaemonChannelServer) : s.getServerModeAvailability.1.core = s.core := by
  unfold getServerModeAvailability
  split
  · rfl
  · split
    · rfl
    · split <;> rfl

theorem core_enterCooldownIfNeeded (s : DaemonChannelServer) : s.enterCooldownIfNeeded.core = s.core := by
  unfold enterCooldownIfNeeded
  split <;> rfl

theorem core_beginConnect (s : DaemonChannelServer) (slot : Slot) : (s.beginConnect slot).core = s.core := by
  cases slot <;> rfl

theorem core_finishConnect (s : DaemonChannelServer) (slot : Slot) : (s.finishConnect slot).core = s.core := by
  cases slot <;> rfl

theorem core_recordConnectFailure (s : DaemonChannelServer) (slot : Slot) :
    (s.recordConnectFailure slot).core = s.core := by
  cases slot with
  | primary => rfl
  | lane index =>
    unfold recordConnectFailure
    dsimp only
    split <;> rfl

/-! ## Stages -/

theorem sound_setStage (h : s.core.Sound) {stage : Stage}
    (hStage : ∀ generation, stage = .sharing generation →
      generation ≤ s.generation ∧ (s.disposed = true → generation ≠ s.generation)) :
    (s.setStage i task stage).core.Sound := by
  refine { h with sharing := ?_, disposed := fun hDisposed => ?_ }
  · intro j other generation hTask hSharing
    rcases update_eq_some hTask with ⟨-, hNew⟩ | ⟨-, hOld⟩
    · obtain rfl := Option.some.inj hNew
      exact (hStage generation hSharing).1
    · exact h.sharing j other generation hOld hSharing
  · obtain ⟨hShut, hNone, hIdle, hOthers⟩ := h.disposed hDisposed
    refine ⟨hShut, hNone, hIdle, fun j other generation hTask hSharing => ?_⟩
    rcases update_eq_some hTask with ⟨-, hNew⟩ | ⟨-, hOld⟩
    · obtain rfl := Option.some.inj hNew
      exact (hStage generation hSharing).2 hDisposed
    · exact hOthers j other generation hOld hSharing

theorem sound_joinOrDelay (h : s.core.Sound) : (s.joinOrDelay i task).core.Sound := by
  unfold joinOrDelay
  split
  · exact sound_setStage h nofun
  · exact sound_setStage h nofun

theorem sound_ensureConnected (h : s.core.Sound) : (s.ensureConnected i task).core.Sound := by
  unfold ensureConnected
  have hAvailable : s.getServerModeAvailability.1.core.Sound := (core_availability s).symm ▸ h
  generalize s.getServerModeAvailability = next at *
  obtain ⟨s, available⟩ := next
  dsimp only at hAvailable ⊢
  split
  · exact sound_setStage hAvailable nofun
  · split
    · split
      · exact sound_setStage hAvailable nofun
      · exact sound_joinOrDelay hAvailable
    · split
      · exact sound_setStage hAvailable nofun
      · split
        · exact sound_setStage hAvailable nofun
        · exact sound_joinOrDelay hAvailable

/-! ## Closing -/

/-- A connection that is not open may be forgotten. -/
theorem sound_unrecord (h : s.core.Sound) (hDead : s.live slot = false) : (s.unrecord slot).core.Sound := by
  refine { h with promised := ?_, recorded := ?_, single := ?_, disposed := fun hDisposed => ?_ }
  · intro a attempt hAttempt hUnderWay hGeneration
    obtain ⟨hPromise, hNone⟩ := h.promised a attempt hAttempt hUnderWay hGeneration
    refine ⟨hPromise, ?_⟩
    change Function.update s.recorded slot none attempt.slot = none
    rcases eq_or_ne attempt.slot slot with hSlot | hOther
    · rw [hSlot, Function.update_self]
    · exact (Function.update_of_ne hOther ..).trans hNone
  · intro slot' c hRecorded
    rcases update_eq_some hRecorded with ⟨-, hNone⟩ | ⟨-, hOld⟩
    · exact nomatch hNone
    · exact h.recorded slot' c hOld
  · intro c conn hConn hOpen
    have hRecorded := h.single c conn hConn hOpen
    rcases eq_or_ne conn.slot slot with rfl | hOther
    · have hLive : s.live conn.slot = true := by
        rw [live, show s.recorded conn.slot = some c from hRecorded]
        dsimp only
        rw [isOpen, show s.connections c = some conn from hConn]
        exact hOpen
      exact absurd (hDead.symm.trans hLive) Bool.false_ne_true
    · exact (Function.update_of_ne hOther ..).trans hRecorded
  · obtain ⟨hShut, hNone, hRest⟩ := h.disposed hDisposed
    refine ⟨hShut, fun slot' => ?_, hRest⟩
    change Function.update s.recorded slot none slot' = none
    rcases eq_or_ne slot' slot with rfl | hOther
    · exact Function.update_self ..
    · exact (Function.update_of_ne hOther ..).trans (hNone slot')

theorem map_shut_eq_some {p : Conn → Prop} [DecidablePred p] {o : Option Conn} {conn : Conn}
    (h : (o.map fun conn => if p conn then conn.shut else conn) = some conn) :
    ∃ old, o = some old ∧ conn.slot = old.slot ∧ conn.generation = old.generation ∧
      conn.attemptGeneration = old.attemptGeneration ∧
      (conn.isOpen = true → old.isOpen = true ∧ ¬ p old) := by
  obtain ⟨old, rfl, hNew⟩ := Option.map_eq_some_iff.mp h
  refine ⟨old, rfl, ?_⟩
  split at hNew
  · subst hNew
    exact ⟨rfl, rfl, rfl, nofun⟩
  · subst hNew
    exact ⟨rfl, rfl, rfl, fun hOpen => ⟨hOpen, ‹_›⟩⟩

theorem sound_release (h : s.core.Sound) (slot : Slot) : (s.release slot).core.Sound := by
  refine { h with opened := ?_, promised := ?_, recorded := ?_, single := ?_, disposed := fun hDisposed => ?_ }
  · intro c conn hConn
    obtain ⟨old, hOld, -⟩ := map_shut_eq_some hConn
    exact h.opened c old hOld
  · intro a attempt hAttempt hUnderWay hGeneration
    obtain ⟨hPromise, hNone⟩ := h.promised a attempt hAttempt hUnderWay hGeneration
    refine ⟨hPromise, ?_⟩
    change Function.update s.recorded slot none attempt.slot = none
    rcases eq_or_ne attempt.slot slot with hSlot | hOther
    · rw [hSlot, Function.update_self]
    · exact (Function.update_of_ne hOther ..).trans hNone
  · intro slot' c hRecorded
    rcases update_eq_some hRecorded with ⟨-, hNone⟩ | ⟨hOther, hOld⟩
    · exact nomatch hNone
    · obtain ⟨conn, hConn, rfl, hRest⟩ := h.recorded slot' c hOld
      have hKept : s.recorded slot ≠ some c := by
        intro hSame
        obtain ⟨conn', hConn', rfl, -⟩ := h.recorded slot c hSame
        obtain rfl := Option.some.inj (hConn.symm.trans hConn')
        exact hOther rfl
      refine ⟨conn, ?_, rfl, hRest⟩
      change ((s.connections c).map fun conn => if s.recorded slot = some c then conn.shut else conn) = _
      rw [show s.connections c = some conn from hConn, Option.map_some, if_neg hKept]
  · intro c conn hConn hOpen
    obtain ⟨old, hOld, hSlot, -, -, hOf⟩ := map_shut_eq_some hConn
    obtain ⟨hWasOpen, hKept⟩ := hOf hOpen
    have hRecorded := h.single c old hOld hWasOpen
    rw [hSlot]
    refine (Function.update_of_ne ?_ ..).trans hRecorded
    rintro rfl
    exact hKept hRecorded
  · obtain ⟨hShut, hNone, hRest⟩ := h.disposed hDisposed
    refine ⟨hShut, fun slot' => ?_, hRest⟩
    change Function.update s.recorded slot none slot' = none
    rcases eq_or_ne slot' slot with rfl | hOther
    · exact Function.update_self ..
    · exact (Function.update_of_ne hOther ..).trans (hNone slot')

/-- Under a new generation everything is dropped. -/
theorem sound_cleanup {t : DaemonChannelServer} (h : s.core.Sound)
    (hGeneration : t.generation = s.generation + 1) (hAttempts : t.attempts = s.attempts)
    (hAttempted : t.attempted = s.attempted) (hTasks : t.tasks = s.tasks)
    (hConnections : t.connections = s.connections) (hOpened : t.opened = s.opened)
    (hRecorded : t.recorded = s.recorded) (hShut : t.disposed = true → t.isShuttingDown = true) :
    t.cleanup.core.Sound := by
  have hAttemptOf : ∀ a attempt, t.attempts a = some attempt →
      a < t.attempted ∧ attempt.generation ≤ s.generation := by
    intro a attempt hAttempt
    rw [hAttempts] at hAttempt
    rw [hAttempted]
    exact h.attempted a attempt hAttempt
  have hStale : ∀ a attempt, t.attempts a = some attempt → attempt.generation ≠ t.generation := by
    intro a attempt hAttempt
    have hLe := (hAttemptOf a attempt hAttempt).2
    omega
  have hSharing : ∀ i task generation, t.tasks i = some task → task.stage = .sharing generation →
      generation ≤ s.generation := by
    intro i task generation hTask
    rw [hTasks] at hTask
    exact h.sharing i task generation hTask
  constructor
  · intro a attempt hAttempt
    obtain ⟨hLt, hLe⟩ := hAttemptOf a attempt hAttempt
    have hGrown : attempt.generation ≤ t.generation := by omega
    exact ⟨hLt, hGrown⟩
  · intro c conn hConn
    obtain ⟨old, hOld, -⟩ := map_shut_eq_some hConn
    rw [hConnections] at hOld
    have hLt := h.opened c old hOld
    change c < t.opened
    rwa [hOpened]
  · intro a attempt hAttempt _ hCurrent
    exact absurd hCurrent (hStale a attempt hAttempt)
  · exact fun slot c hNone => nomatch hNone
  · intro c conn hConn hOpen
    obtain ⟨old, hOld, -, -, -, hOf⟩ := map_shut_eq_some hConn
    obtain ⟨hWasOpen, hKept⟩ := hOf hOpen
    rw [hConnections] at hOld
    rw [hRecorded] at hKept
    exact absurd (h.single c old hOld hWasOpen) hKept
  · intro i task generation hTask hStage
    have hLe := hSharing i task generation hTask hStage
    change generation ≤ t.generation
    omega
  · refine fun hDisposed => ⟨hShut hDisposed, fun _ => rfl, fun slot a attempt hAttempt _ _ =>
      hStale a attempt hAttempt, fun i task generation hTask hStage => ?_⟩
    have hLe := hSharing i task generation hTask hStage
    change generation ≠ t.generation
    omega

/-! ## Attempts -/

theorem sound_connect (h : s.core.Sound) {generation : Nat} {lifecycle : Option DaemonEnsureResult}
    (hLe : generation ≤ s.generation) (hIdle : s.core.Idle task.caller.slot)
    (hDisposed : s.disposed = true → generation ≠ s.generation) :
    (s.connect i task generation lifecycle).core.Sound := by
  unfold connect
  dsimp only
  have hReleased := sound_release h task.caller.slot
  have hNone : (s.release task.caller.slot).core.recorded task.caller.slot = none :=
    Function.update_self ..
  have hIdle : (s.release task.caller.slot).core.Idle task.caller.slot := hIdle
  have hBounds : generation ≤ (s.release task.caller.slot).core.generation ∧
    ((s.release task.caller.slot).core.disposed = true →
      generation ≠ (s.release task.caller.slot).core.generation) := ⟨hLe, hDisposed⟩
  rw [← core_beginConnect (s.release task.caller.slot) task.caller.slot] at hReleased hNone hIdle hBounds
  generalize (s.release task.caller.slot).beginConnect task.caller.slot = s at *
  refine sound_setStage ?_ nofun
  refine { hReleased with attempted := ?_, promised := ?_, disposed := fun hOver => ?_ }
  · intro a attempt hAttempt
    rcases update_eq_some hAttempt with ⟨rfl, hNew⟩ | ⟨-, hOld⟩
    · obtain rfl := Option.some.inj hNew
      exact ⟨Nat.lt_succ_self _, hBounds.1⟩
    · obtain ⟨hLt, hRest⟩ := hReleased.attempted a attempt hOld
      exact ⟨Nat.lt_succ_of_lt hLt, hRest⟩
  · intro a attempt hAttempt hUnderWay hCurrent
    rcases update_eq_some hAttempt with ⟨rfl, hNew⟩ | ⟨-, hOld⟩
    · obtain rfl := Option.some.inj hNew
      exact ⟨Function.update_self .., hNone⟩
    · obtain ⟨hPromise, hVacant⟩ := hReleased.promised a attempt hOld hUnderWay hCurrent
      refine ⟨(Function.update_of_ne ?_ ..).trans hPromise, hVacant⟩
      exact fun hSlot => hIdle a attempt hOld hUnderWay hSlot hCurrent
  · obtain ⟨hShut, hEmpty, hOthers, hRest⟩ := hReleased.disposed hOver
    refine ⟨hShut, hEmpty, fun slot a attempt hAttempt => ?_, hRest⟩
    rcases update_eq_some hAttempt with ⟨rfl, hNew⟩ | ⟨-, hOld⟩
    · obtain rfl := Option.some.inj hNew
      exact fun _ _ => hBounds.2 hOver
    · exact hOthers slot a attempt hOld

theorem sound_setPhase (h : s.core.Sound) {phase : AttemptPhase} (hAttempt : s.attempts a = some attempt)
    (hUnderWay : attempt.UnderWay) : (s.setPhase a attempt phase).core.Sound := by
  refine { h with attempted := ?_, promised := ?_, disposed := fun hDisposed => ?_ }
  · intro b other hOther
    rcases update_eq_some hOther with ⟨rfl, hNew⟩ | ⟨-, hOld⟩
    · obtain rfl := Option.some.inj hNew
      exact h.attempted b attempt hAttempt
    · exact h.attempted b other hOld
  · intro b other hOther hOf hCurrent
    rcases update_eq_some hOther with ⟨rfl, hNew⟩ | ⟨-, hOld⟩
    · obtain rfl := Option.some.inj hNew
      exact h.promised b attempt hAttempt hUnderWay hCurrent
    · exact h.promised b other hOld hOf hCurrent
  · obtain ⟨hShut, hEmpty, hIdle, hRest⟩ := h.disposed hDisposed
    refine ⟨hShut, hEmpty, fun slot b other hOther hOf hSlot => ?_, hRest⟩
    rcases update_eq_some hOther with ⟨rfl, hNew⟩ | ⟨-, hOld⟩
    · obtain rfl := Option.some.inj hNew
      exact hIdle slot b attempt hAttempt hUnderWay hSlot
    · exact hIdle slot b other hOld hOf hSlot

end DaemonChannelServer

end Exosuit.Extension
