import Mathlib.Logic.Function.Basic
import Exosuit.Lib.Run

/-!
# The trace cache

The cache keeps data and traces of registered roots and asks the daemon whether the traces
are still valid. What runs between two awaits of the source is one event here, and the
answers of the daemon arrive in any order. Clocks, logs, synthetic roots and strings with
lone surrogates are left out; the time, the fetches that were sent and what was served are kept beside the state.
-/

namespace Exosuit.Extension

/-- `I` is the text of an input, `default` that of `{}`. -/
structure TraceCacheRoot (I : Type) where
  namespace_ : String
  operation : String
  input : Option I

structure FetchKey (I : Type) where
  workspaceRoot : Option String
  rootId : String
  namespace_ : Option String
  operation : Option String
  input : I
deriving DecidableEq

inductive TraceCacheFetchStatus
  | success
  | empty
  | error
deriving DecidableEq, Repr

structure FetchError (D : Type) where
  code : Option String
  message : String
  details : Option D

structure TraceCacheRootDiagnostic (I D : Type) where
  rootId : String
  namespace_ : String
  operation : String
  status : TraceCacheFetchStatus
  input : I
  explicitInput : Bool
  error : Option (FetchError D)

/-- A cached entry at its place in the map, with the key and the token of the fetch that set
it and the time at which the last request was sent that fetched it or found it valid. -/
structure CacheEntry (I D : Type) where
  rootId : String
  data : D
  trace : D
  slot : Nat
  key : FetchKey I
  token : Nat
  vouched : Nat

structure InFlightEntry (I : Type) where
  key : FetchKey I
  generation : Nat
  token : Nat

/-- A fetch loop of a root: it has not begun (`none`), or awaits a fetch, or an answer that
needed no fetch. -/
structure PendingFetchState where
  dirty : Bool
  awaiting : Option (Option Nat)

/-- A request for a root, under the root that it was sent for. -/
structure Fetch (I : Type) where
  rootId : String
  root : TraceCacheRoot I
  key : FetchKey I
  generation : Nat
  sentAt : Nat
  settled : Bool

/-- Where a `validateAll` stands: before the cached entries from a slot on, waiting for a trace
to be validated, waiting for a fetch, before the registered roots from a place on, waiting
for one of them. -/
inductive ValidationPhase
  | entries (slot : Nat)
  | validating (rootId : String) (token slot sentAt : Nat)
  | refetching (fetch : Option Nat) (slot : Nat)
  | roots (place : Nat)
  | fetching (fetch : Option Nat) (place : Nat)
  | finished
deriving DecidableEq

structure Validation where
  generation : Nat
  phase : ValidationPhase

structure TraceCache (I D : Type) where
  cache : List (CacheEntry I D)
  nextSlot : Nat
  inFlight : String → Option (InFlightEntry I)
  /-- the registered ids in the order of the map -/
  rootIds : List String
  roots : String → Option (TraceCacheRoot I)
  diagnostics : String → Option (TraceCacheRootDiagnostic I D)
  pendingFetches : String → Option PendingFetchState
  generation : Nat
  pendingValidation : Bool
  workspaceRoot : Option String
  fetches : Nat → Option (Fetch I)
  sent : Nat
  validations : Nat → Option Validation
  started : Nat
  now : Nat
  lastWrite : Nat
  /-- the current key of a root and the key of the entry that `get` returned for it -/
  served : List (FetchKey I × FetchKey I)

/-- The daemon's answer to a fetch; an `ok` without a result is empty. -/
inductive FetchAnswer (D : Type)
  | ok (result : Option D) (trace : D)
  | refused (status : String) (error : Option (FetchError D))
  | rejected (message : String)

inductive ValidateAnswer
  | answered (valid : Bool)
  | rejected
deriving DecidableEq

namespace TraceCache

variable {I D : Type}

def new : TraceCache I D where
  cache := []
  nextSlot := 0
  inFlight _ := none
  rootIds := []
  roots _ := none
  diagnostics _ := none
  pendingFetches _ := none
  generation := 0
  pendingValidation := false
  workspaceRoot := none
  fetches _ := none
  sent := 0
  validations _ := none
  started := 0
  now := 0
  lastWrite := 0
  served := []

/-! ## The map -/

def has (s : TraceCache I D) (rootId : String) : Bool := s.cache.any fun e => e.rootId == rootId

/-- A key that is there keeps its place. -/
def cacheSet (s : TraceCache I D) (entry : CacheEntry I D) : TraceCache I D :=
  if s.has entry.rootId then
    { s with
      cache := s.cache.map fun e => if e.rootId = entry.rootId then { entry with slot := e.slot } else e }
  else
    { s with
      cache := s.cache ++ [{ entry with slot := s.nextSlot }]
      nextSlot := s.nextSlot + 1 }

def cacheDelete (s : TraceCache I D) (rootId : String) : TraceCache I D :=
  { s with cache := s.cache.filter fun e => e.rootId != rootId }

/-- `!this.#workspaceRoot` -/
def noWorkspaceRoot (s : TraceCache I D) : Bool := s.workspaceRoot.getD "" == ""

/-! ## Fetching -/

section Fetching

variable [Inhabited I]

/-- `#rootFetchKey` -/
def rootFetchKey (s : TraceCache I D) (rootId : String) : FetchKey I where
  workspaceRoot := s.workspaceRoot
  rootId := rootId
  namespace_ := (s.roots rootId).map TraceCacheRoot.namespace_
  operation := (s.roots rootId).map TraceCacheRoot.operation
  input := ((s.roots rootId).bind TraceCacheRoot.input).getD default

def recordFetchDiagnostic (s : TraceCache I D) (rootId : String) (root : TraceCacheRoot I)
    (status : TraceCacheFetchStatus) (error : Option (FetchError D)) : TraceCache I D :=
  { s with
    diagnostics := Function.update s.diagnostics rootId
      (some ⟨rootId, root.namespace_, root.operation, status, root.input.getD default,
        root.input.isSome, error⟩) }

def sendFetch (s : TraceCache I D) (rootId : String) (root : TraceCacheRoot I) : TraceCache I D :=
  { s with
    fetches := Function.update s.fetches s.sent
      (some ⟨rootId, root, s.rootFetchKey rootId, s.generation, s.now, false⟩)
    sent := s.sent + 1
    inFlight := Function.update s.inFlight rootId
      (some ⟨s.rootFetchKey rootId, s.generation, s.sent⟩) }

variable [DecidableEq I]

/-- `#fetchRoot`, with the fetch whose promise it returns; `none` when it returns null. -/
def fetchRoot (s : TraceCache I D) (rootId : String) : TraceCache I D × Option Nat :=
  match s.roots rootId with
  | none => (s, none)
  | some root =>
    if s.noWorkspaceRoot then
      (s.recordFetchDiagnostic rootId root .error (some ⟨none, "No workspace root selected", none⟩), none)
    else
      match s.inFlight rootId with
      | some flight =>
        if flight.key = s.rootFetchKey rootId ∧ flight.generation = s.generation then
          (s, some flight.token)
        else (s.sendFetch rootId root, some s.sent)
      | none => (s.sendFetch rootId root, some s.sent)

/-- The start of `#scheduleFetch`. -/
def scheduleFetch (s : TraceCache I D) (rootId : String) : TraceCache I D :=
  let pending := match s.pendingFetches rootId with
    | some pending => { pending with dirty := true }
    | none => ⟨false, none⟩
  { s with pendingFetches := Function.update s.pendingFetches rootId (some pending) }

/-- One round of the loop of `#scheduleFetch`. -/
def fetchRound (s : TraceCache I D) (rootId : String) : TraceCache I D :=
  let (s, fetch) := s.fetchRoot rootId
  { s with pendingFetches := Function.update s.pendingFetches rootId (some ⟨false, some fetch⟩) }

def settled (s : TraceCache I D) (fetch : Option Nat) : Bool :=
  match fetch with
  | none => true
  | some token => match s.fetches token with
    | some f => f.settled
    | none => true

/-- The loop goes on when its fetch has settled. -/
def resumeSchedule (s : TraceCache I D) (rootId : String) : Option (TraceCache I D) :=
  match s.pendingFetches rootId with
  | none => none
  | some pending =>
    match pending.awaiting with
    | none => some (s.fetchRound rootId)
    | some fetch =>
      if !s.settled fetch then none
      else if pending.dirty then some (s.fetchRound rootId)
      else some { s with pendingFetches := Function.update s.pendingFetches rootId none }

/-- The fetch is one of another generation, or for another key than the root's current one. -/
def Superseded (s : TraceCache I D) (f : Fetch I) : Prop :=
  s.generation ≠ f.generation ∨ s.rootFetchKey f.rootId ≠ f.key

instance (s : TraceCache I D) (f : Fetch I) : Decidable (s.Superseded f) :=
  inferInstanceAs (Decidable (_ ∨ _))

def errorOfResponse (status : String) (error : Option (FetchError D)) : FetchError D where
  code := error.bind FetchError.code
  message := (error.map FetchError.message).getD ("Daemon returned " ++ status)
  details := error.bind FetchError.details

/-- What `#fetchRootUncached` does with the answer, before its `finally`. -/
def applyAnswer (s : TraceCache I D) (token : Nat) (f : Fetch I) (answer : FetchAnswer D) :
    TraceCache I D :=
  match answer with
  | .rejected message =>
    (s.cacheDelete f.rootId).recordFetchDiagnostic f.rootId f.root .error (some ⟨none, message, none⟩)
  | .ok (some data) trace =>
    if s.Superseded f then s
    else
      let served := { s with served := s.served ++ [(s.rootFetchKey f.rootId, f.key)] }
      (served.cacheSet ⟨f.rootId, data, trace, 0, f.key, token, f.sentAt⟩).recordFetchDiagnostic
        f.rootId f.root .success none
  | .ok none _ =>
    if s.Superseded f then s
    else (s.cacheDelete f.rootId).recordFetchDiagnostic f.rootId f.root .empty none
  | .refused status error =>
    if s.Superseded f then s
    else (s.cacheDelete f.rootId).recordFetchDiagnostic f.rootId f.root .error
      (some (errorOfResponse status error))

/-- The `finally` of `#fetchRootUncached`: the promise settles. -/
def settle (s : TraceCache I D) (token : Nat) (f : Fetch I) : TraceCache I D :=
  { s with
    fetches := Function.update s.fetches token (some { f with settled := true })
    inFlight := match s.inFlight f.rootId with
      | some flight =>
        if flight.key = f.key ∧ flight.generation = f.generation ∧ flight.token = token then
          Function.update s.inFlight f.rootId none
        else s.inFlight
      | none => s.inFlight }

def answer (s : TraceCache I D) (token : Nat) (a : FetchAnswer D) : Option (TraceCache I D) :=
  match s.fetches token with
  | some f => if f.settled then none else some ((s.applyAnswer token f a).settle token f)
  | none => none

/-! ## Validating -/

def setPhase (s : TraceCache I D) (i : Nat) (v : Validation) (phase : ValidationPhase) :
    TraceCache I D :=
  { s with validations := Function.update s.validations i (some { v with phase }) }

def revalidateAll (s : TraceCache I D) : TraceCache I D := { s with pendingValidation := true }

/-- `#validateAll` up to its first await, when the timer fires. -/
def startValidation (s : TraceCache I D) : TraceCache I D :=
  if s.noWorkspaceRoot then s
  else
    { s with
      generation := s.generation + 1
      validations := Function.update s.validations s.started (some ⟨s.generation + 1, .entries 0⟩)
      started := s.started + 1 }

/-- A `validateAll` runs on to its next await. -/
def resumeValidation (s : TraceCache I D) (i : Nat) : Option (TraceCache I D) :=
  match s.validations i with
  | none => none
  | some v =>
    match v.phase with
    | .entries slot =>
      match s.cache.find? fun e => slot ≤ e.slot with
      | some e =>
        if s.generation ≠ v.generation then some (s.setPhase i v .finished)
        else some (s.setPhase i v (.validating e.rootId e.token (e.slot + 1) s.now))
      | none => some (s.setPhase i v (.roots 0))
    | .refetching fetch slot => if s.settled fetch then some (s.setPhase i v (.entries slot)) else none
    | .roots place =>
      match s.rootIds[place]? with
      | none => some (s.setPhase i v .finished)
      | some rootId =>
        if s.generation ≠ v.generation then some (s.setPhase i v .finished)
        else if s.has rootId then some (s.setPhase i v (.roots (place + 1)))
        else
          let (s, fetch) := s.fetchRoot rootId
          some (s.setPhase i v (.fetching fetch (place + 1)))
    | .fetching fetch place => if s.settled fetch then some (s.setPhase i v (.roots place)) else none
    | .validating .. | .finished => none

/-- The trace of an entry was found valid by a request of that time. -/
def vouch (s : TraceCache I D) (rootId : String) (token sentAt : Nat) : TraceCache I D :=
  { s with
    cache := s.cache.map fun e =>
      if e.rootId = rootId ∧ e.token = token then { e with vouched := max e.vouched sentAt } else e }

def refetch (s : TraceCache I D) (i : Nat) (v : Validation) (rootId : String) (slot : Nat) :
    TraceCache I D :=
  let (s, fetch) := s.fetchRoot rootId
  s.setPhase i v (.refetching fetch slot)

/-- The answer to `validate-trace`. -/
def validated (s : TraceCache I D) (i : Nat) (a : ValidateAnswer) : Option (TraceCache I D) :=
  match s.validations i with
  | some ⟨generation, .validating rootId token slot sentAt⟩ =>
    let v : Validation := ⟨generation, .validating rootId token slot sentAt⟩
    match a with
    | .answered valid =>
      if s.generation ≠ generation then some (s.setPhase i v .finished)
      else if valid then some ((s.vouch rootId token sentAt).setPhase i v (.entries slot))
      else some (s.refetch i v rootId slot)
    | .rejected => some (s.refetch i v rootId slot)
  | _ => none

/-! ## Events -/

inductive Event (I D : Type)
  | setWorkspaceRoot (root : String)
  | registerRoot (rootId : String) (root : TraceCacheRoot I)
  | updateRootInput (rootId : String) (input : Option I)
  | get (rootId : String)
  | revalidateAll
  | notifyWrite
  | timer
  | resumeSchedule (rootId : String)
  | answer (token : Nat) (a : FetchAnswer D)
  | resumeValidation (i : Nat)
  | validated (i : Nat) (a : ValidateAnswer)

def registerRoot (s : TraceCache I D) (rootId : String) (root : TraceCacheRoot I) : TraceCache I D :=
  { s with
    roots := Function.update s.roots rootId (some root)
    rootIds := if rootId ∈ s.rootIds then s.rootIds else s.rootIds ++ [rootId] }

def updateRootInput (s : TraceCache I D) (rootId : String) (input : Option I) : TraceCache I D :=
  match s.roots rootId with
  | none => s
  | some root =>
    let s := { s with roots := Function.update s.roots rootId (some { root with input }) }
    { s.cacheDelete rootId with inFlight := Function.update s.inFlight rootId none }.scheduleFetch rootId

/-- `get` returns the cached entry, or what the fetch it waits for returns. -/
def get (s : TraceCache I D) (rootId : String) : TraceCache I D :=
  match s.cache.find? fun e => e.rootId == rootId with
  | some e => { s with served := s.served ++ [(s.rootFetchKey rootId, e.key)] }
  | none => (s.fetchRoot rootId).1

def tick (s : TraceCache I D) : TraceCache I D := { s with now := s.now + 1 }

def step (s : TraceCache I D) (event : Event I D) : Option (TraceCache I D) :=
  let s := s.tick
  match event with
  | .setWorkspaceRoot root => some { s with workspaceRoot := some root }
  | .registerRoot rootId root => some ((s.registerRoot rootId root).scheduleFetch rootId)
  | .updateRootInput rootId input => some (s.updateRootInput rootId input)
  | .get rootId => some (s.get rootId)
  | .revalidateAll => some s.revalidateAll
  | .notifyWrite => some { s.revalidateAll with lastWrite := s.now }
  | .timer =>
    if s.pendingValidation then some { s with pendingValidation := false }.startValidation else none
  | .resumeSchedule rootId => s.resumeSchedule rootId
  | .answer token a => s.answer token a
  | .resumeValidation i => s.resumeValidation i
  | .validated i a => s.validated i a

end Fetching

end TraceCache

end Exosuit.Extension
