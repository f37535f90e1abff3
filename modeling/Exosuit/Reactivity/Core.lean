import Mathlib.Data.Finset.Basic
import Mathlib.Data.Finset.Lattice.Basic

/-!
# Cells, revisions and traces

The trace core that the in-memory runtime and the storage tables share. A trace
is the set of revisions a computation saw; it validates against a state that
still reports every one of them.
-/

namespace Exosuit.Reactivity

structure CellId where
  sourceId : String
  pointer : String
deriving DecidableEq, Repr

def CellId.root (sourceId : String) : CellId := ⟨sourceId, ""⟩

/-- The 128 bits of the UUID that a runtime draws when it is created. -/
abbrev Epoch := BitVec 128

inductive Revision
  | memory (epoch : Epoch) (counter : Nat)
  | disk (hash : String)
  | counter (value : Nat)
  | impure (hash : String) (nonce : Nat)
deriving DecidableEq, Repr

structure TraceEntry where
  cellId : CellId
  revision : Revision
deriving DecidableEq, Repr

structure Trace where
  dependencies : Finset TraceEntry
deriving DecidableEq

namespace Trace

def new : Trace := ⟨∅⟩

def record (t : Trace) (cellId : CellId) (revision : Revision) : Trace :=
  ⟨insert ⟨cellId, revision⟩ t.dependencies⟩

/-- Replaying the dependencies of `t'` into `t`. -/
def replay (t t' : Trace) : Trace := ⟨t.dependencies ∪ t'.dependencies⟩

/-- A missing cell makes the trace invalid, as a changed one does. -/
def validate (t : Trace) (getRevision : CellId → Option Revision) : Bool :=
  decide (∀ entry ∈ t.dependencies, getRevision entry.cellId = some entry.revision)

variable {t t' : Trace} {getRevision : CellId → Option Revision}

theorem validate_iff : t.validate getRevision = true ↔
    ∀ entry ∈ t.dependencies, getRevision entry.cellId = some entry.revision :=
  decide_eq_true_iff

@[simp] theorem mem_new (entry : TraceEntry) : ¬ entry ∈ new.dependencies := by
  simp [new]

@[simp] theorem mem_record {cellId : CellId} {revision : Revision} {entry : TraceEntry} :
    entry ∈ (t.record cellId revision).dependencies ↔
      entry = ⟨cellId, revision⟩ ∨ entry ∈ t.dependencies := by
  simp [record]

@[simp] theorem mem_replay {entry : TraceEntry} :
    entry ∈ (t.replay t').dependencies ↔
      entry ∈ t.dependencies ∨ entry ∈ t'.dependencies := by
  simp [replay]

end Trace

end Exosuit.Reactivity
