import Exosuit.Lib.Json
import Exosuit.Lib.Run
import Exosuit.Lib.Text

/-!
# One connection to the daemon

Requests wait in a queue, one at a time is written and waits for its response, and a map
finds the waiting one by its id. The socket, the timers and the writer call back in any
order. Log messages and durations are left out, and so are strings with lone surrogates.
-/

namespace Exosuit.Extension

open Lib

/-- How requests and responses become text. -/
structure Wire (Envelope : Type) where
  id : Envelope → String
  /-- `none` where `JSON.stringify` throws. -/
  stringify : Envelope → Option String
  /-- `none` where `JSON.parse` throws. -/
  parse : String → Option Json

structure QueuedRequest (Envelope : Type) where
  number : Nat
  envelope : Envelope
  timeoutMs : Nat

inductive Settlement
  | response (r : Json)
  | error (message : String)

inductive Effect (Envelope : Type)
  | wrote (request : QueuedRequest Envelope) (data : String)
  | sent (data : Json)
  | arrived (r : Json)
  | settled (request : QueuedRequest Envelope) (settlement : Settlement)
  | notified (r : Json)
  | closed

/-- A connection; promises go by the numbers of the requests, and the log has the newest effect first. -/
structure DaemonConnection (Envelope : Type) where
  queuedRequests : List (QueuedRequest Envelope)
  activeRequest : Option (QueuedRequest Envelope)
  pendingRequests : List (String × QueuedRequest Envelope)
  closed : Bool
  timers : List (QueuedRequest Envelope)
  callbacks : List (QueuedRequest Envelope)
  requested : List (QueuedRequest Envelope)
  promises : Nat → Option Settlement
  log : List (Effect Envelope)

namespace DaemonConnection

variable {Envelope : Type}

/-- `Map.set` -/
def mapSet (id : String) (request : QueuedRequest Envelope) (map : List (String × QueuedRequest Envelope)) :
    List (String × QueuedRequest Envelope) :=
  if (map.lookup id).isSome then map.map fun entry => if entry.1 = id then (id, request) else entry
  else map ++ [(id, request)]

def responseId (response : Json) : Option String := (response.get "id").bind Json.asStr

def init : DaemonConnection Envelope := ⟨[], none, [], false, [], [], [], fun _ => none, []⟩

/-- A promise settles at the first call. -/
def settle (request : QueuedRequest Envelope) (settlement : Settlement) (s : DaemonConnection Envelope) :
    DaemonConnection Envelope :=
  if (s.promises request.number).isSome then s
  else { s with
    promises := Function.update s.promises request.number (some settlement)
    log := .settled request settlement :: s.log }

def clearTimer (request : QueuedRequest Envelope) (s : DaemonConnection Envelope) : DaemonConnection Envelope :=
  { s with timers := s.timers.filter fun timer => timer.number ≠ request.number }

def rejectAllPending (error : String) (s : DaemonConnection Envelope) : DaemonConnection Envelope :=
  { s.pendingRequests.foldl (fun s entry => (s.clearTimer entry.2).settle entry.2 (.error error)) s with
    pendingRequests := []
    activeRequest := none }

def rejectAllQueued (error : String) (s : DaemonConnection Envelope) : DaemonConnection Envelope :=
  { s.queuedRequests.foldl (fun s queued => s.settle queued (.error error)) s with queuedRequests := [] }

def closeConnection (error : String) (s : DaemonConnection Envelope) : DaemonConnection Envelope :=
  if s.closed then s
  else
    let s := ({ s with closed := true }.rejectAllPending error).rejectAllQueued error
    { s with log := .closed :: s.log }

section

variable (wire : Wire Envelope)

/-- The second part is the message of what `JSON.stringify` threw. -/
def drainRequestQueue (s : DaemonConnection Envelope) : DaemonConnection Envelope × Option String :=
  if s.closed || s.activeRequest.isSome then (s, none)
  else
    match s.queuedRequests with
    | [] => (s, none)
    | request :: rest =>
      let s := { s with
        queuedRequests := rest
        activeRequest := some request
        timers := request :: s.timers
        pendingRequests := mapSet (wire.id request.envelope) request s.pendingRequests }
      match wire.stringify request.envelope with
      | none => (s, some "Do not know how to serialize the request")
      | some json =>
        ({ s with
          callbacks := request :: s.callbacks
          log := .wrote request (json ++ "\n") :: s.log }, none)

/-- An exception in the executor rejects the promise. -/
def request (envelope : Envelope) (timeoutMs : Nat) (s : DaemonConnection Envelope) :
    DaemonConnection Envelope :=
  let request : QueuedRequest Envelope := ⟨s.requested.length, envelope, timeoutMs⟩
  let s := { s with requested := s.requested ++ [request] }
  if s.closed then s.settle request (.error "Connection is closed")
  else if wire.id envelope = "" then
    s.settle request (.error "Daemon request envelope requires a stable request id")
  else
    match { s with queuedRequests := s.queuedRequests ++ [request] }.drainRequestQueue wire with
    | (s, none) => s
    | (s, some message) => s.settle request (.error message)

def notify (data : Json) (s : DaemonConnection Envelope) : DaemonConnection Envelope :=
  if s.closed then s else { s with log := .sent data :: s.log }

/-- What is thrown on the way is caught, and the line is given up. -/
def handleLine (line : String) (s : DaemonConnection Envelope) : DaemonConnection Envelope :=
  if Text.trim line = "" then s
  else
    match wire.parse line with
    | none => s
    | some response =>
      let s := { s with log := .arrived response :: s.log }
      match (responseId response).bind fun id => s.pendingRequests.lookup id with
      | some pending =>
        let s := s.clearTimer pending
        let s := { s with
          pendingRequests := s.pendingRequests.filter fun entry => some entry.1 ≠ responseId response
          activeRequest := s.activeRequest.filter fun active =>
            some (wire.id active.envelope) ≠ responseId response }
        match s.drainRequestQueue wire with
        | (s, none) => s.settle pending (.response response)
        | (s, some _) => s
      | none =>
        if responseId response = some "_notify" then { s with log := .notified response :: s.log } else s

/-- The callback of a timer. -/
def handleTimeout (request : QueuedRequest Envelope) (s : DaemonConnection Envelope) :
    DaemonConnection Envelope :=
  let s := s.clearTimer request
  match s.pendingRequests.lookup (wire.id request.envelope) with
  | none => s
  | some _ => s.closeConnection ("Request '" ++ wire.id request.envelope ++ "' timed out after " ++
      toString request.timeoutMs ++ "ms")

/-- The callback of a write. -/
def handleWritten (request : QueuedRequest Envelope) (error : Option String) (s : DaemonConnection Envelope) :
    DaemonConnection Envelope :=
  let s := { s with callbacks := s.callbacks.filter fun callback => callback.number ≠ request.number }
  match error with
  | none => s
  | some message => s.closeConnection message

inductive Event (Envelope : Type)
  | request (envelope : Envelope) (timeoutMs : Nat)
  | notify (data : Json)
  | close
  | line (line : String)
  | handleClose
  | handleError (message : String)
  | timeout (number : Nat)
  | written (number : Nat) (error : Option String)

/-- One event; a timer fires while it is armed, and a write calls back once. -/
def step (s : DaemonConnection Envelope) : Event Envelope → Option (DaemonConnection Envelope)
  | .request envelope timeoutMs => some (s.request wire envelope timeoutMs)
  | .notify data => some (s.notify data)
  | .close => some (s.closeConnection "Connection closed")
  | .line line => some (s.handleLine wire line)
  | .handleClose => some (s.closeConnection "Connection closed by server")
  | .handleError message => some (s.closeConnection message)
  | .timeout number =>
    (s.timers.find? fun timer => timer.number = number).map fun request => s.handleTimeout wire request
  | .written number error =>
    (s.callbacks.find? fun callback => callback.number = number).map fun request =>
      s.handleWritten request error

end

end DaemonConnection

end Exosuit.Extension
