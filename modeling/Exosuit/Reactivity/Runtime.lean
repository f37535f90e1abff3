import Mathlib.Logic.Function.Basic
import Exosuit.Lib.Query
import Exosuit.Reactivity.Core

/-!
# The in-memory reactive runtime

Cells live in a store and have a revision in the engine; a computed keeps the
digest and the value of its last evaluation, and the engine keeps the trace.
Closures are trees of reads, so a closure is a pure function of the cells and
computeds it reads, and the graph that closures span is acyclic as it is for
the Rust closures that capture the computeds they read.
-/

namespace Exosuit.Reactivity

open Lib

universe u

inductive Reason
  | loading
  | error (message : String)
  | corrupted
deriving DecidableEq, Repr

inductive Availability (V : Type u)
  | present (value : V)
  | absent (reason : Reason)
deriving DecidableEq, Repr

/-- `default` is the null value that `Cell::get` answers for a cell without contents. -/
inductive Closure (V : Type u)
  | ret (value : Availability V)
  | get (cell : CellId) (next : V → Closure V)
  | read (id : String) (compute : Closure V) (next : Availability V → Closure V)

structure Root where
  trace : Trace
  digest : String

structure Engine where
  currentState : CellId → Option Revision
  roots : String → Option Root
  sourceIndex : String → Option (Finset CellId)

namespace Engine

def new : Engine := ⟨fun _ => none, fun _ => none, fun _ => none⟩

def setCell (e : Engine) (cellId : CellId) (revision : Revision) : Engine where
  currentState := Function.update e.currentState cellId (some revision)
  roots := e.roots
  sourceIndex := Function.update e.sourceIndex cellId.sourceId
    (some (insert cellId ((e.sourceIndex cellId.sourceId).getD ∅)))

/-- An empty pointer invalidates every indexed cell of the source. -/
def invalidateCell (e : Engine) (cellId : CellId) : Engine :=
  match if cellId.pointer = "" then e.sourceIndex cellId.sourceId else none with
  | some cells =>
    { e with
      currentState := fun cell => if cell ∈ cells then none else e.currentState cell
      sourceIndex := Function.update e.sourceIndex cellId.sourceId none }
  | none => { e with currentState := Function.update e.currentState cellId none }

/-- `depth` bounds the recursion through roots as the call stack of the source does. -/
def getRevision (e : Engine) : Nat → CellId → Option Revision
  | 0, _ => none
  | depth + 1, cellId =>
    match if cellId.pointer = "" then e.roots cellId.sourceId else none with
    | some root =>
      if root.trace.validate (e.getRevision depth) then e.currentState cellId else none
    | none => e.currentState cellId

def registerRoot (digest : Trace → String) (e : Engine) (rootId : String) (trace : Trace) :
    Engine :=
  { e with roots := Function.update e.roots rootId (some ⟨trace, digest trace⟩) }.setCell
    (.root rootId) (.disk (digest trace))

def validateRoot (e : Engine) (depth : Nat) (rootId clientDigest : String) : Bool :=
  match e.roots rootId with
  | some root => root.digest == clientDigest && root.trace.validate (e.getRevision (depth + 1))
  | none => false

end Engine

/-- `memo` holds `last_digest` and `last_value` of the computeds, which are always set together. -/
structure Runtime (V : Type u) where
  engine : Engine
  store : CellId → Option V
  epoch : Epoch
  counter : Nat
  memo : String → Option (String × Availability V)

namespace Runtime

variable {V : Type u}

def new (epoch : Epoch) : Runtime V := ⟨.new, fun _ => none, epoch, 0, fun _ => none⟩

/-- The body that `Runtime::cell` and `Cell::set` share. -/
def write (rt : Runtime V) (cellId : CellId) (value : V) : Runtime V where
  engine := rt.engine.setCell cellId (.memory rt.epoch (rt.counter + 1))
  store := Function.update rt.store cellId (some value)
  epoch := rt.epoch
  counter := rt.counter + 1
  memo := rt.memo

def cell (rt : Runtime V) (id : String) (value : V) : Runtime V := rt.write (.root id) value

def set (rt : Runtime V) (cellId : CellId) (value : V) : Runtime V := rt.write cellId value

def removeCell (rt : Runtime V) (cellId : CellId) : Runtime V where
  engine := rt.engine.invalidateCell cellId
  store := Function.update rt.store cellId none
  epoch := rt.epoch
  counter := rt.counter
  memo := rt.memo

def invalidate (rt : Runtime V) (id : String) : Runtime V := rt.removeCell (.root id)

/-- What a cell handle answers: the contents that a recomputation from scratch sees. -/
def contents [Inhabited V] (rt : Runtime V) (cellId : CellId) : V := (rt.store cellId).getD default

/-- The trace that is active while a closure runs, after `Cell::get`. -/
def recordGet (rt : Runtime V) (depth : Nat) (cellId : CellId) (active : Trace) : Trace :=
  match rt.engine.getRevision (depth + 1) cellId with
  | some revision => active.record cellId revision
  | none => active

/-- `last_value` when `last_digest` still validates. -/
def cached (rt : Runtime V) (depth : Nat) (id : String) : Option (Availability V) :=
  match rt.memo id with
  | some (digest, value) => if rt.engine.validateRoot depth id digest then some value else none
  | none => none

def rootTrace (rt : Runtime V) (id : String) : Trace :=
  match rt.engine.roots id with
  | some root => root.trace
  | none => .new

/-- Keep the outcome of an evaluation: `register_root`, `last_digest` and `last_value`. -/
def memoise (digest : Trace → String) (rt : Runtime V) (id : String) (trace : Trace)
    (value : Availability V) : Runtime V :=
  { rt with
    engine := rt.engine.registerRoot digest id trace
    memo := Function.update rt.memo id (some (digest trace, value)) }

/-- What a read answers, the runtime after it, and the dependencies that its caller records. -/
structure Outcome (V : Type u) where
  value : Availability V
  runtime : Runtime V
  trace : Trace

/-- `Computed::read` of a computed without hysteresis, for a closure that runs as `compute`. -/
def readWith (digest : Trace → String) (depth : Nat) (id : String)
    (compute : Runtime V → Trace → Outcome V) (rt : Runtime V) : Outcome V :=
  match rt.cached depth id with
  | some value => ⟨value, rt, rt.rootTrace id⟩
  | none =>
    let outcome := compute rt .new
    ⟨outcome.value, outcome.runtime.memoise digest id outcome.trace outcome.value, outcome.trace⟩

end Runtime

/-- Run a closure with `active` on top of the stack of traces. -/
def Closure.run {V : Type u} [Inhabited V] (digest : Trace → String) (depth : Nat) :
    Closure V → Runtime V → Trace → Runtime.Outcome V
  | .ret value, rt, active => ⟨value, rt, active⟩
  | .get cellId next, rt, active =>
    (next (rt.contents cellId)).run digest depth rt (rt.recordGet depth cellId active)
  | .read id compute next, rt, active =>
    let outcome := rt.readWith digest depth id (compute.run digest depth)
    (next outcome.value).run digest depth outcome.runtime (active.replay outcome.trace)

/-- `Computed::read` outside of any other computed. -/
def Runtime.read {V : Type u} [Inhabited V] (digest : Trace → String) (depth : Nat)
    (rt : Runtime V) (id : String) (compute : Closure V) : Runtime.Outcome V :=
  rt.readWith digest depth id (compute.run digest depth)

/-! ## Graphs and runs -/

namespace Closure

variable {V : Type u}

/-- The closure with the computeds it reads inlined. -/
def flatten : Closure V → Query CellId V (Availability V)
  | .ret value => .ret value
  | .get cellId next => .ask cellId fun value => (next value).flatten
  | .read _ compute next => compute.flatten.bind fun value => (next value).flatten

/-- Recomputing a closure from scratch on the given contents. -/
def recompute (contents : CellId → V) : Closure V → Availability V
  | .ret value => value
  | .get cellId next => (next (contents cellId)).recompute contents
  | .read _ compute next => (next (compute.recompute contents)).recompute contents

/-- Whatever the closure reads belongs to the graph: a computed under its own id,
and a cell whose id is no computed's. -/
def Within (closure : String → Option (Closure V)) : Closure V → Prop
  | .ret _ => True
  | .get cellId next =>
    (∀ id, closure id ≠ none → cellId ≠ .root id) ∧ ∀ value, (next value).Within closure
  | .read id compute next =>
    closure id = some compute ∧ compute.Within closure ∧ ∀ value, (next value).Within closure

end Closure

/-- Computeds with distinct ids. -/
structure Graph (V : Type u) where
  closure : String → Option (Closure V)
  within : ∀ id compute, closure id = some compute → compute.Within closure

inductive Operation (V : Type u)
  | cell (id : String) (value : V)
  /-- through a handle: every handle that the runtime gives out has an empty pointer -/
  | set (id : String) (value : V)
  | removeCell (cellId : CellId)
  | invalidate (id : String)
  | read (id : String)

/-- One operation; a read needs a computed of the graph. -/
def Runtime.step {V : Type u} [Inhabited V] (graph : Graph V) (digest : Trace → String)
    (depth : Nat) (rt : Runtime V) : Operation V → Option (Runtime V)
  | .cell id value => some (rt.cell id value)
  | .set id value => some (rt.set (.root id) value)
  | .removeCell cellId => some (rt.removeCell cellId)
  | .invalidate id => some (rt.invalidate id)
  | .read id => (graph.closure id).map fun compute => (rt.read digest depth id compute).runtime

end Exosuit.Reactivity
