import Mathlib.Logic.Function.Basic
import Exosuit.Lib.Run

/-!
# The daemon channel

The client keeps one connection for writes and one for each read lane. What runs between two
awaits of the source is one event here; the answers of the daemon, the delays and the
continuations of the callers come in any order. Logs, request texts and the notifications of
the trace cache are left out.
-/

namespace Exosuit.Extension

structure DaemonChannelServerConfig where
  serverModeDisabled : Bool
  readLaneCount : Nat
  maxReconnectAttempts : Nat
  reconnectDelayMs : Nat
  reconnectCooldownMs : Nat
  autoReconnectDelayMs : Nat

structure DaemonEnsureResult where
  instanceId : Option String
  state : Option String
deriving DecidableEq

/-- `primary` stands for `connection`, `lane i` for `readConnections[i]`. -/
inductive Slot
  | primary
  | lane (index : Nat)
deriving DecidableEq

/-- A connection that was opened, with the generation its attempt was made for and the one it
was opened under. -/
structure Conn where
  slot : Slot
  attemptGeneration : Nat
  generation : Nat
  isOpen : Bool
  onClose : Bool
deriving DecidableEq

/-- Detaches the close handler and closes, as `cleanupPrimaryConnection` does. -/
def Conn.shut (conn : Conn) : Conn := { conn with isOpen := false, onClose := false }

/-- Where a `connect` or `connectReadLane` stands; it settles with whether it returned. -/
inductive AttemptPhase
  | lifecycle
  | opening (lifecycle : DaemonEnsureResult)
  | settled (ok : Bool)
deriving DecidableEq

structure Attempt where
  slot : Slot
  generation : Nat
  phase : AttemptPhase
deriving DecidableEq

inductive Caller
  | write (attempt : Nat)
  | read (lane attempt attemptGeneration : Nat)
  | notify
  | warmup
deriving DecidableEq

def Caller.slot : Caller → Slot
  | .read lane _ _ => .lane lane
  | _ => .primary

/-- A request tries once more. -/
def Caller.retries : Caller → Bool
  | .write attempt | .read _ attempt _ => attempt == 0
  | .notify | .warmup => false

/-- Where a caller stands: it awaits the lifecycle check of a live connection (before or after
the delay), the delay, the lifecycle check that comes with another live connection, an
attempt (its own or a shared one), its own continuation, or the response. -/
inductive Stage
  | reusing
  | delayed (generation due : Nat)
  | reusingLate
  | sharing (generation : Nat)
  | connecting (attempt : Nat) (owner : Bool)
  | ensured (ok : Bool)
  | requesting (connection : Nat)
  | finished
deriving DecidableEq

structure Task where
  caller : Caller
  stage : Stage
deriving DecidableEq

structure DaemonChannelServer where
  config : DaemonChannelServerConfig
  recorded : Slot → Option Nat
  connectPromises : Slot → Option Nat
  nextReadLane : Nat
  activeReadLaneConnects : Nat
  readLaneFailureAccountedForActiveConnects : Bool
  reconnectAttempts : Nat
  reconnectCooldownUntilMs : Option Nat
  /-- when the timer is due and the generation of the connection that set it -/
  reconnectTimer : Option (Nat × Nat)
  isShuttingDown : Bool
  generation : Nat
  lastLifecycleResetGeneration : Option Nat
  daemonInstanceId : Option String
  connections : Nat → Option Conn
  opened : Nat
  attempts : Nat → Option Attempt
  attempted : Nat
  tasks : Nat → Option Task
  called : Nat
  /-- the calls of `restart` that wait for the daemon -/
  restarting : Nat
  now : Nat
  disposed : Bool

namespace DaemonChannelServer

def new (config : DaemonChannelServerConfig) : DaemonChannelServer where
  config := { config with readLaneCount := max 1 config.readLaneCount }
  recorded _ := none
  connectPromises _ := none
  nextReadLane := 0
  activeReadLaneConnects := 0
  readLaneFailureAccountedForActiveConnects := false
  reconnectAttempts := 0
  reconnectCooldownUntilMs := none
  reconnectTimer := none
  isShuttingDown := false
  generation := 0
  lastLifecycleResetGeneration := none
  daemonInstanceId := none
  connections _ := none
  opened := 0
  attempts _ := none
  attempted := 0
  tasks _ := none
  called := 0
  restarting := 0
  now := 0
  disposed := false

/-! ## Availability -/

/-- `getServerModeAvailability`: an expired cooldown is cleared. -/
def getServerModeAvailability (s : DaemonChannelServer) : DaemonChannelServer × Bool :=
  if s.config.serverModeDisabled then (s, false)
  else
    match s.reconnectCooldownUntilMs with
    | none => (s, true)
    | some until_ =>
      if s.now < until_ then (s, false)
      else ({ s with reconnectCooldownUntilMs := none, reconnectAttempts := 0 }, true)

def markConnected (s : DaemonChannelServer) : DaemonChannelServer :=
  { s with reconnectAttempts := 0, reconnectCooldownUntilMs := none, reconnectTimer := none }

def markRequestSucceeded (s : DaemonChannelServer) : DaemonChannelServer :=
  { s with reconnectAttempts := 0, reconnectCooldownUntilMs := none }

def enterCooldownIfNeeded (s : DaemonChannelServer) : DaemonChannelServer :=
  if s.reconnectAttempts ≤ s.config.maxReconnectAttempts then s
  else { s with reconnectCooldownUntilMs := some (s.now + s.config.reconnectCooldownMs) }

/-! ## Connections -/

def isOpen (s : DaemonChannelServer) (c : Nat) : Bool :=
  match s.connections c with
  | some conn => conn.isOpen
  | none => false

def live (s : DaemonChannelServer) (slot : Slot) : Bool :=
  match s.recorded slot with
  | some c => s.isOpen c
  | none => false

def hasLiveConnection (s : DaemonChannelServer) : Bool :=
  s.live .primary || (List.range s.config.readLaneCount).any fun index => s.live (.lane index)

def unrecord (s : DaemonChannelServer) (slot : Slot) : DaemonChannelServer :=
  { s with recorded := Function.update s.recorded slot none }

/-- `cleanupPrimaryConnection`, and the start of `connectReadLane`. -/
def release (s : DaemonChannelServer) (slot : Slot) : DaemonChannelServer :=
  { s.unrecord slot with
    connections := fun c => (s.connections c).map fun conn =>
      if s.recorded slot = some c then conn.shut else conn }

/-- `cleanup`; a connection is recorded in its own slot only. -/
def cleanup (s : DaemonChannelServer) : DaemonChannelServer :=
  { s with
    connections := fun c => (s.connections c).map fun conn =>
      if s.recorded conn.slot = some c then conn.shut else conn
    recorded := fun _ => none
    connectPromises := fun
      | .primary => s.connectPromises .primary
      | .lane _ => none }

def beginConnect (s : DaemonChannelServer) : Slot → DaemonChannelServer
  | .primary => s
  | .lane _ => { s with activeReadLaneConnects := s.activeReadLaneConnects + 1 }

/-- `finishReadLaneConnect` -/
def finishConnect (s : DaemonChannelServer) : Slot → DaemonChannelServer
  | .primary => s
  | .lane _ =>
    let active := s.activeReadLaneConnects - 1
    { s with
      activeReadLaneConnects := active
      readLaneFailureAccountedForActiveConnects :=
        if active = 0 then false else s.readLaneFailureAccountedForActiveConnects }

def recordConnectFailure (s : DaemonChannelServer) : Slot → DaemonChannelServer
  | .primary => { s with reconnectAttempts := s.reconnectAttempts + 1 }
  | .lane _ =>
    if s.readLaneFailureAccountedForActiveConnects then s
    else
      { s with
        readLaneFailureAccountedForActiveConnects := true
        reconnectAttempts := s.reconnectAttempts + 1 }

def setPhase (s : DaemonChannelServer) (a : Nat) (attempt : Attempt) (phase : AttemptPhase) :
    DaemonChannelServer :=
  { s with attempts := Function.update s.attempts a (some { attempt with phase }) }

/-- The catch block of `connect` and `connectReadLane`. -/
def attemptFailed (s : DaemonChannelServer) (a : Nat) (attempt : Attempt) : DaemonChannelServer :=
  if s.generation ≠ attempt.generation then
    (s.finishConnect attempt.slot).setPhase a attempt (.settled true)
  else
    (((s.recordConnectFailure attempt.slot).enterCooldownIfNeeded).finishConnect attempt.slot).setPhase
      a attempt (.settled false)

/-- The socket is open: a stale connection is closed, another is recorded. -/
def attemptOpened (s : DaemonChannelServer) (a : Nat) (attempt : Attempt)
    (lifecycle : DaemonEnsureResult) : DaemonChannelServer :=
  let conn : Conn := ⟨attempt.slot, attempt.generation, s.generation, true, true⟩
  if s.generation ≠ attempt.generation then
    { s with
      connections := Function.update s.connections s.opened (some conn.shut)
      opened := s.opened + 1 }.attemptFailed a attempt
  else
    let s := { s with
      connections := Function.update s.connections s.opened (some conn)
      opened := s.opened + 1
      recorded := Function.update s.recorded attempt.slot (some s.opened)
      daemonInstanceId := lifecycle.instanceId }
    (s.markConnected.finishConnect attempt.slot).setPhase a attempt (.settled true)

/-- `onClose`, when it is attached. -/
def connectionClosed (s : DaemonChannelServer) (c : Nat) (conn : Conn) : DaemonChannelServer :=
  let closed := { s with connections := Function.update s.connections c (some { conn with isOpen := false }) }
  if !conn.onClose then closed
  else
    match conn.slot with
    | .primary =>
      { closed.unrecord .primary with
        reconnectTimer := some (s.now + s.config.autoReconnectDelayMs, conn.generation) }
    | .lane index => if s.recorded (.lane index) = some c then closed.unrecord (.lane index) else closed

/-! ## Ensuring a connection -/

def setStage (s : DaemonChannelServer) (i : Nat) (task : Task) (stage : Stage) : DaemonChannelServer :=
  { s with tasks := Function.update s.tasks i (some { task with stage }) }

/-- `connect` or `connectReadLane` up to its first await, under its promise. -/
def connect (s : DaemonChannelServer) (i : Nat) (task : Task) (generation : Nat)
    (lifecycle : Option DaemonEnsureResult) : DaemonChannelServer :=
  let slot := task.caller.slot
  let phase := match lifecycle with
    | some lifecycle => AttemptPhase.opening lifecycle
    | none => .lifecycle
  let s := (s.release slot).beginConnect slot
  { s with
    attempts := Function.update s.attempts s.attempted (some ⟨slot, generation, phase⟩)
    attempted := s.attempted + 1
    connectPromises := Function.update s.connectPromises slot (some s.attempted) }.setStage i task
      (.connecting s.attempted true)

def joinOrDelay (s : DaemonChannelServer) (i : Nat) (task : Task) : DaemonChannelServer :=
  match s.connectPromises task.caller.slot with
  | some a => s.setStage i task (.connecting a false)
  | none =>
    let delay := if s.reconnectAttempts = 0 then 0 else s.config.reconnectDelayMs
    s.setStage i task (.delayed s.generation (s.now + delay))

/-- The start of `ensureConnected` and `ensureReadConnection`: the first looks at the promise
before the connection. -/
def ensureConnected (s : DaemonChannelServer) (i : Nat) (task : Task) : DaemonChannelServer :=
  let (s, available) := s.getServerModeAvailability
  if !available then s.setStage i task (.ensured false)
  else
    match task.caller.slot with
    | .primary =>
      if (s.connectPromises .primary).isNone && s.live .primary then s.setStage i task .reusing
      else s.joinOrDelay i task
    | .lane index =>
      if s.isShuttingDown then s.setStage i task (.ensured false)
      else if s.live (.lane index) then s.setStage i task .reusing
      else s.joinOrDelay i task

def delayOver (s : DaemonChannelServer) (i : Nat) (task : Task) (generation : Nat) :
    DaemonChannelServer :=
  if s.generation ≠ generation || s.isShuttingDown then s.setStage i task (.ensured true)
  else
    match s.connectPromises task.caller.slot with
    | some a => s.setStage i task (.connecting a false)
    | none =>
      if s.live task.caller.slot then s.setStage i task .reusingLate
      else if s.hasLiveConnection then s.setStage i task (.sharing generation)
      else s.connect i task generation none

/-- `ensureDaemonLifecycleReused` accepts the answer. -/
def reused (s : DaemonChannelServer) (result : DaemonEnsureResult) : Bool :=
  result.state == some "connected_existing" &&
    !(s.daemonInstanceId.isSome && result.instanceId.isSome && s.daemonInstanceId != result.instanceId) &&
    !(s.daemonInstanceId.isNone && result.instanceId.isSome)

def resetLifecycle (s : DaemonChannelServer) : DaemonChannelServer :=
  { s with
    daemonInstanceId := none
    generation := s.generation + 1
    lastLifecycleResetGeneration := some (s.generation + 1) }.cleanup

def lifecycleChecked (s : DaemonChannelServer) (i : Nat) (task : Task)
    (answer : Option DaemonEnsureResult) : DaemonChannelServer :=
  match answer with
  | none => s.setStage i task (.ensured false)
  | some result =>
    if s.reused result then
      match task.stage with
      | .sharing generation => s.connect i task generation (some result)
      | _ => s.setStage i task (.ensured true)
    else
      match task.stage, task.caller.slot with
      | .reusing, .lane _ => s.resetLifecycle.joinOrDelay i task
      | _, _ => s.resetLifecycle.ensureConnected i task

/-- The promise has settled; its owner clears it. -/
def joined (s : DaemonChannelServer) (i : Nat) (task : Task) (a : Nat) (owner ok : Bool) :
    DaemonChannelServer :=
  let s := if owner && s.connectPromises task.caller.slot == some a then
      { s with connectPromises := Function.update s.connectPromises task.caller.slot none }
    else s
  s.setStage i task (.ensured ok)

/-! ## Callers -/

/-- The next turn of the loop of `request` or `requestPureRead`. -/
def retry (s : DaemonChannelServer) (i : Nat) : Caller → DaemonChannelServer
  | .write attempt => s.ensureConnected i ⟨.write (attempt + 1), .finished⟩
  | .read lane attempt _ => s.ensureConnected i ⟨.read lane (attempt + 1) s.generation, .finished⟩
  | caller => s.setStage i ⟨caller, .finished⟩ .finished

/-- A connection was ensured, and the caller goes on. -/
def proceed (s : DaemonChannelServer) (i : Nat) (task : Task) : DaemonChannelServer :=
  let slot := task.caller.slot
  match task.caller with
  | .write attempt =>
    if s.live slot then
      match s.recorded slot with
      | some c => s.setStage i task (.requesting c)
      | none => s.setStage i task .finished
    else if attempt = 0 then s.retry i task.caller
    else s.setStage i task .finished
  | .read _ attempt attemptGeneration =>
    if s.isShuttingDown then s.setStage i task .finished
    else if s.generation ≠ attemptGeneration then
      if attempt = 0 ∧ s.lastLifecycleResetGeneration = some s.generation then s.retry i task.caller
      else s.setStage i task .finished
    else if s.live slot then
      match s.recorded slot with
      | some c => s.setStage i task (.requesting c)
      | none => s.setStage i task .finished
    else if attempt = 0 then (s.unrecord slot).retry i task.caller
    else s.setStage i task .finished
  | .notify | .warmup => s.setStage i task .finished

/-- `request` and `requestPureRead` forget the recorded connection when a request was lost. -/
def requestFailed (s : DaemonChannelServer) (i : Nat) (task : Task) (reconnectable : Bool) :
    DaemonChannelServer :=
  if task.caller.retries && reconnectable then (s.unrecord task.caller.slot).retry i task.caller
  else s.setStage i task .finished

def call (s : DaemonChannelServer) (caller : Caller) : DaemonChannelServer :=
  { s with called := s.called + 1 }.ensureConnected s.called ⟨caller, .finished⟩

/-- A lane whose connection was closed is taken first. -/
def nextReadLaneIndex (s : DaemonChannelServer) : DaemonChannelServer × Nat :=
  let closed := (List.range s.config.readLaneCount).find? fun index =>
    (s.recorded (.lane index)).isSome && !s.live (.lane index)
  match closed with
  | some index => (s, index)
  | none =>
    let lane := s.nextReadLane % s.config.readLaneCount
    ({ s with nextReadLane := (s.nextReadLane + 1) % s.config.readLaneCount }, lane)

def request (s : DaemonChannelServer) (pureRead : Bool) : DaemonChannelServer :=
  if s.isShuttingDown then s
  else
    let (s, available) := s.getServerModeAvailability
    if !available then s
    else if pureRead then
      let (s, lane) := s.nextReadLaneIndex
      s.call (.read lane 0 s.generation)
    else s.call (.write 0)

/-- `restart` once the daemon was restarted, or the attempt failed. -/
def restarted (s : DaemonChannelServer) : DaemonChannelServer :=
  { s with
    reconnectAttempts := 0
    reconnectCooldownUntilMs := none
    isShuttingDown := false
    connectPromises := Function.update s.connectPromises .primary none
    generation := s.generation + 1
    reconnectTimer := none }.cleanup

def dispose (s : DaemonChannelServer) : DaemonChannelServer :=
  { s with
    isShuttingDown := true
    generation := s.generation + 1
    reconnectTimer := none
    disposed := true }.cleanup

/-! ## Events -/

inductive ChannelEvent
  | request (pureRead : Bool)
  | notify
  | warmup
  | lifecycleChecked (i : Nat) (answer : Option DaemonEnsureResult)
  | delayOver (i : Nat)
  | attemptLifecycle (a : Nat) (answer : Option DaemonEnsureResult)
  | opened (a : Nat) (ok : Bool)
  | joined (i : Nat)
  | proceed (i : Nat)
  | responded (i : Nat)
  | requestFailed (i : Nat) (reconnectable : Bool)
  | closed (c : Nat)
  | timer
  | restart (restartDaemon : Bool)
  | restarted
  | dispose
  | availability
  | elapse (ms : Nat)

def step (s : DaemonChannelServer) : ChannelEvent → Option DaemonChannelServer
  | .request pureRead => some (s.request pureRead)
  | .notify => some (s.call .notify)
  | .warmup => some (s.call .warmup)
  | .lifecycleChecked i answer =>
    match s.tasks i with
    | some ⟨caller, .reusing⟩ => some (s.lifecycleChecked i ⟨caller, .reusing⟩ answer)
    | some ⟨caller, .reusingLate⟩ => some (s.lifecycleChecked i ⟨caller, .reusingLate⟩ answer)
    | some ⟨caller, .sharing generation⟩ =>
      some (s.lifecycleChecked i ⟨caller, .sharing generation⟩ answer)
    | _ => none
  | .delayOver i =>
    match s.tasks i with
    | some ⟨caller, .delayed generation due⟩ =>
      if due ≤ s.now then some (s.delayOver i ⟨caller, .delayed generation due⟩ generation) else none
    | _ => none
  | .attemptLifecycle a answer =>
    match s.attempts a with
    | some ⟨slot, generation, .lifecycle⟩ =>
      match answer with
      | some result => some (s.setPhase a ⟨slot, generation, .lifecycle⟩ (.opening result))
      | none => some (s.attemptFailed a ⟨slot, generation, .lifecycle⟩)
    | _ => none
  | .opened a ok =>
    match s.attempts a with
    | some ⟨slot, generation, .opening lifecycle⟩ =>
      if ok then some (s.attemptOpened a ⟨slot, generation, .opening lifecycle⟩ lifecycle)
      else some (s.attemptFailed a ⟨slot, generation, .opening lifecycle⟩)
    | _ => none
  | .joined i =>
    match s.tasks i with
    | some ⟨caller, .connecting a owner⟩ =>
      match s.attempts a with
      | some ⟨_, _, .settled ok⟩ => some (s.joined i ⟨caller, .connecting a owner⟩ a owner ok)
      | _ => none
    | _ => none
  | .proceed i =>
    match s.tasks i with
    | some ⟨caller, .ensured true⟩ => some (s.proceed i ⟨caller, .ensured true⟩)
    | some ⟨caller, .ensured false⟩ => some (s.setStage i ⟨caller, .ensured false⟩ .finished)
    | _ => none
  | .responded i =>
    match s.tasks i with
    | some ⟨caller, .requesting c⟩ =>
      some (s.markRequestSucceeded.setStage i ⟨caller, .requesting c⟩ .finished)
    | _ => none
  | .requestFailed i reconnectable =>
    match s.tasks i with
    | some ⟨caller, .requesting c⟩ => some (s.requestFailed i ⟨caller, .requesting c⟩ reconnectable)
    | _ => none
  | .closed c =>
    match s.connections c with
    | some conn => if conn.isOpen then some (s.connectionClosed c conn) else none
    | none => none
  | .timer =>
    match s.reconnectTimer with
    | some (due, generation) =>
      if s.now < due then none
      else
        let s := { s with reconnectTimer := none }
        if s.generation ≠ generation || s.isShuttingDown then some s else some (s.call .warmup)
    | none => none
  | .restart restartDaemon =>
    if restartDaemon then some { s with restarting := s.restarting + 1 } else some s.restarted
  | .restarted =>
    if s.restarting = 0 then none else some { s with restarting := s.restarting - 1 }.restarted
  | .dispose => some s.dispose
  | .availability => some s.getServerModeAvailability.1
  | .elapse ms => some { s with now := s.now + ms }

end DaemonChannelServer

end Exosuit.Extension
