import Mathlib.Data.Finset.Union
import Exosuit.Lib.Json
import Exosuit.Lib.Run
import Exosuit.Lib.Table
import Exosuit.Reactivity.TraceOrder

/-!
# The engine of reactive roots

The engine keeps the revisions of cells, the roots that were computed from them
with their traces, the snapshots that a client may still fetch, and the reverse
index from cells to subscribed roots. A root is also a cell, so a trace can name
other roots and a revision is read through the traces of the roots it names.
-/

namespace Exosuit.Roots

open Lib Reactivity

structure ResourceSpec where
  typeId : String
  args : Json

/-- A trace with the resources that only its digest covers. -/
structure Trace extends Reactivity.Trace where
  resources : List ResourceSpec

namespace Trace

def new : Trace := ⟨.new, []⟩

def record (t : Trace) (cellId : CellId) (revision : Revision) : Trace :=
  { t with toTrace := t.toTrace.record cellId revision }

end Trace

structure Root (V : Type) where
  trace : Trace
  value : V
  digest : String

structure CellEntry where
  revision : Revision
  lastUsed : Nat

inductive FetchError
  | notFound
  | stale (expected actual : String)
  | corrupted
deriving DecidableEq

/-- Snapshots are kept under the digest of the root, with the time of the registration. -/
structure Engine (V : Type) where
  currentState : Table CellId CellEntry
  snapshots : Table String (Root V × Nat)
  retentionWindow : Nat
  roots : Table String (Root V)
  reverseDeps : Table CellId (Finset String)
  sourceIndex : Table String (Finset CellId)
  currentTransaction : Nat

namespace Engine

variable {V : Type}

def new (retentionWindow : Nat) : Engine V where
  currentState := ∅
  snapshots := ∅
  retentionWindow
  roots := ∅
  reverseDeps := ∅
  sourceIndex := ∅
  currentTransaction := 1

def beginTransaction (e : Engine V) : Engine V :=
  { e with currentTransaction := e.currentTransaction + 1 }

/-- A set of the index loses a member, and the index the set with its last member. -/
def unindex {κ α : Type} [DecidableEq κ] [DecidableEq α] (index : Table κ (Finset α)) (key : κ)
    (member : α) : Table κ (Finset α) :=
  match index.lookup key with
  | some members =>
    if members.erase member = ∅ then index.erase key else index.insert key (members.erase member)
  | none => index

def index {κ α : Type} [DecidableEq κ] [DecidableEq α] (index : Table κ (Finset α)) (key : κ)
    (member : α) : Table κ (Finset α) :=
  index.insert key (insert member ((index.lookup key).getD ∅))

def collect (e : Engine V) (id : CellId) : Engine V :=
  { e with
    currentState := e.currentState.erase id
    sourceIndex := unindex e.sourceIndex id.sourceId id }

/-- Cells that the transaction did not use go. -/
def endTransaction (e : Engine V) : Engine V :=
  let toRemove := (e.currentState.entries.filter fun entry =>
    entry.2.lastUsed < e.currentTransaction).map Sigma.fst
  toRemove.foldl collect e

def setCell (e : Engine V) (cellId : CellId) (revision : Revision) : Engine V :=
  { e with
    currentState := e.currentState.insert cellId ⟨revision, e.currentTransaction⟩
    sourceIndex := index e.sourceIndex cellId.sourceId cellId }

/-- The roots that the reverse index has under the cell. -/
def dependents (e : Engine V) (cellId : CellId) : Finset String :=
  (e.reverseDeps.lookup cellId).getD ∅

/-- The affected roots, and the engine without the cell, or without the cells of its source. -/
def invalidateCell (e : Engine V) (cellId : CellId) : Finset String × Engine V :=
  match if cellId.pointer = "" then e.sourceIndex.lookup cellId.sourceId else none with
  | some cells =>
    (cells.biUnion e.dependents,
      { e with
        currentState := e.currentState.retain fun cell _ => cell ∉ cells
        sourceIndex := e.sourceIndex.erase cellId.sourceId })
  | none => (e.dependents cellId, { e with currentState := e.currentState.erase cellId })

def getRevisionSnapshot (e : Engine V) (cellId : CellId) : Option Revision :=
  (e.currentState.lookup cellId).map CellEntry.revision

def unsubscribe (reverseDeps : Table CellId (Finset String)) (rootId : String) (root : Root V) :
    Table CellId (Finset String) :=
  root.trace.entries.foldl (fun deps dep => unindex deps dep.cellId rootId) reverseDeps

def removeRoot (e : Engine V) (rootId : String) : Engine V :=
  match e.roots.lookup rootId with
  | some root =>
    { e with
      roots := e.roots.erase rootId
      reverseDeps := unsubscribe e.reverseDeps rootId root }
  | none => e

def touch (e : Engine V) (cellId : CellId) : Engine V :=
  { e with
    currentState := e.currentState.modify cellId fun entry =>
      { entry with lastUsed := e.currentTransaction } }

/-- `stamp` and `now` are the two readings of the clock. -/
def registerRoot (digest : Trace → String) (e : Engine V) (rootId : String) (trace : Trace)
    (value : V) (isSubscriber : Bool) (stamp now : Nat) : Engine V :=
  let e := trace.entries.foldl (fun e dep => e.touch dep.cellId) e
  let reverseDeps :=
    match e.roots.lookup rootId with
    | some oldRoot => unsubscribe e.reverseDeps rootId oldRoot
    | none => e.reverseDeps
  let reverseDeps :=
    if isSubscriber then
      trace.entries.foldl (fun deps dep => index deps dep.cellId rootId) reverseDeps
    else reverseDeps
  let root : Root V := ⟨trace, value, digest trace⟩
  let e := { e with reverseDeps, roots := e.roots.insert rootId root }
  let e := e.setCell (.root rootId) (.disk root.digest)
  let snapshots : Table String (Root V × Nat) := e.snapshots.insert root.digest (root, stamp)
  { e with snapshots := snapshots.retain fun _ entry => now - entry.2 < e.retentionWindow }

/-! ## Validation -/

/-- The entries of a trace in order, up to the first that does not pass. -/
def validate (getRevision : CellId → Engine V → Option (Option Revision × Engine V)) :
    List TraceEntry → Engine V → Option (Bool × Engine V)
  | [], e => some (true, e)
  | entry :: entries, e =>
    match getRevision entry.cellId e with
    | some (some revision, e) =>
      if revision = entry.revision then validate getRevision entries e else some (false, e)
    | some (none, e) => some (false, e)
    | none => none

/-- `none` when the recursion through the roots is not over at the depth. -/
def getRevision : Nat → CellId → Engine V → Option (Option Revision × Engine V)
  | 0, _, _ => none
  | depth + 1, cellId, e =>
    match if cellId.pointer = "" then e.roots.lookup cellId.sourceId else none with
    | some root =>
      match validate (getRevision depth) root.trace.entries e with
      | some (true, e) => some (e.getRevisionSnapshot cellId, e.touch cellId)
      | some (false, e) => some (none, e)
      | none => none
    | none => some (e.getRevisionSnapshot cellId, e.touch cellId)

def validateTrace (depth : Nat) (e : Engine V) (trace : Trace) : Option (Bool × Engine V) :=
  validate (getRevision depth) trace.entries e

def validateRoot (depth : Nat) (e : Engine V) (rootId clientDigest : String) :
    Option (Bool × Engine V) :=
  match e.roots.lookup rootId with
  | some root =>
    if root.digest = clientDigest then e.validateTrace depth root.trace else some (false, e)
  | none => some (false, e)

def fetchRoot (e : Engine V) (rootId expectedDigest : String) : Except FetchError V :=
  match e.snapshots.lookup expectedDigest, e.roots.lookup rootId with
  | some (root, _), _ => .ok root.value
  | none, some root =>
    if root.digest = expectedDigest then .ok root.value
    else .error (.stale expectedDigest root.digest)
  | none, none => .error (.stale expectedDigest "")

/-! ## What a read changes -/

/-- Only the times of last use differ. -/
def Used (e e' : Engine V) : Prop :=
  e'.getRevisionSnapshot = e.getRevisionSnapshot ∧
    ∃ currentState, e' = { e with currentState }

theorem Used.refl (e : Engine V) : e.Used e := ⟨rfl, e.currentState, rfl⟩

theorem Used.trans {e₁ e₂ e₃ : Engine V} (h : e₁.Used e₂) (h' : e₂.Used e₃) : e₁.Used e₃ := by
  obtain ⟨hView, currentState, rfl⟩ := h
  obtain ⟨hView', currentState', rfl⟩ := h'
  exact ⟨hView'.trans hView, currentState', rfl⟩

theorem used_touch (e : Engine V) (cellId : CellId) : e.Used (e.touch cellId) := by
  refine ⟨funext fun other => ?_, _, rfl⟩
  unfold getRevisionSnapshot touch Table.modify
  cases hEntry : e.currentState.lookup cellId with
  | none => rfl
  | some entry =>
    dsimp only
    rw [Table.lookup_insert]
    split
    · next h => rw [h, hEntry]; rfl
    · rfl

theorem used_foldl_touch (entries : List TraceEntry) (e : Engine V) :
    e.Used (entries.foldl (fun e dep => e.touch dep.cellId) e) := by
  induction entries generalizing e with
  | nil => exact .refl e
  | cons entry entries ih => exact (used_touch e entry.cellId).trans (ih _)

theorem used_validate {read : CellId → Engine V → Option (Option Revision × Engine V)}
    (hRead : ∀ cellId e r, read cellId e = some r → e.Used r.2) {entries : List TraceEntry}
    {e : Engine V} {r : Bool × Engine V} (h : validate read entries e = some r) : e.Used r.2 := by
  induction entries generalizing e with
  | nil => exact Option.some.inj h ▸ .refl e
  | cons entry entries ih =>
    unfold validate at h
    split at h
    · next revision e' hEntry =>
      have hUsed := hRead _ _ _ hEntry
      split at h
      · exact hUsed.trans (ih h)
      · exact Option.some.inj h ▸ hUsed
    · next e' hEntry => exact Option.some.inj h ▸ hRead _ _ _ hEntry
    · cases h

theorem used_getRevision {depth : Nat} {cellId : CellId} {e : Engine V}
    {r : Option Revision × Engine V} (h : getRevision depth cellId e = some r) : e.Used r.2 := by
  induction depth generalizing cellId e r with
  | zero => cases h
  | succ depth ih =>
    unfold getRevision at h
    split at h
    · next root hRoot =>
      split at h
      · next e' hValid =>
        exact Option.some.inj h ▸ (used_validate (fun _ _ _ => ih) hValid).trans (used_touch e' cellId)
      · next e' hValid => exact Option.some.inj h ▸ used_validate (fun _ _ _ => ih) hValid
      · cases h
    · exact Option.some.inj h ▸ used_touch e cellId

theorem used_validateTrace {depth : Nat} {e : Engine V} {trace : Trace} {r : Bool × Engine V}
    (h : e.validateTrace depth trace = some r) : e.Used r.2 :=
  used_validate (fun _ _ _ => used_getRevision) h

theorem used_validateRoot {depth : Nat} {e : Engine V} {rootId clientDigest : String}
    {r : Bool × Engine V} (h : e.validateRoot depth rootId clientDigest = some r) : e.Used r.2 := by
  unfold validateRoot at h
  split at h
  · split at h
    · exact used_validateTrace h
    · exact Option.some.inj h ▸ .refl e
  · exact Option.some.inj h ▸ .refl e

end Engine

/-! ## Runs -/

inductive Operation (V : Type)
  | setCell (cellId : CellId) (revision : Revision)
  | registerRoot (rootId : String) (trace : Trace) (value : V) (isSubscriber : Bool)
      (stamp now : Nat)
  | removeRoot (rootId : String)
  | invalidateCell (cellId : CellId)
  | beginTransaction
  | endTransaction
  | getRevision (cellId : CellId)
  | validateTrace (trace : Trace)
  | validateRoot (rootId clientDigest : String)

/-- One operation; a read whose recursion is not over at the depth has no outcome. -/
def step {V : Type} (digest : Trace → String) (depth : Nat) (e : Engine V) :
    Operation V → Option (Engine V)
  | .setCell cellId revision => some (e.setCell cellId revision)
  | .registerRoot rootId trace value isSubscriber stamp now =>
    some (e.registerRoot digest rootId trace value isSubscriber stamp now)
  | .removeRoot rootId => some (e.removeRoot rootId)
  | .invalidateCell cellId => some (e.invalidateCell cellId).2
  | .beginTransaction => some e.beginTransaction
  | .endTransaction => some e.endTransaction
  | .getRevision cellId => (e.getRevision depth cellId).map Prod.snd
  | .validateTrace trace => (e.validateTrace depth trace).map Prod.snd
  | .validateRoot rootId clientDigest => (e.validateRoot depth rootId clientDigest).map Prod.snd

/-! ## What an operation keeps -/

section Frames

open Roots.Engine

variable {V : Type} {digest : Trace → String} {e : Engine V} {rootId : String}

theorem roots_registerRoot {trace : Trace} {value : V} {isSubscriber : Bool} {stamp now : Nat} :
    (e.registerRoot digest rootId trace value isSubscriber stamp now).roots =
      e.roots.insert rootId ⟨trace, value, digest trace⟩ := by
  obtain ⟨-, currentState, hUsed⟩ := used_foldl_touch trace.entries e
  simp only [registerRoot, setCell, hUsed]

theorem lookup_removeRoot {id : String} {root : Root V}
    (h : (e.removeRoot rootId).roots.lookup id = some root) : e.roots.lookup id = some root := by
  unfold removeRoot at h
  split at h
  · rw [Table.lookup_erase] at h
    split at h
    · cases h
    · exact h
  · exact h

theorem snapshots_removeRoot : (e.removeRoot rootId).snapshots = e.snapshots := by
  unfold removeRoot
  split <;> rfl

theorem invalidateCell_frame (cellId : CellId) :
    ∃ currentState sourceIndex,
      (e.invalidateCell cellId).2 = { e with currentState, sourceIndex } := by
  unfold invalidateCell
  split
  · exact ⟨_, _, rfl⟩
  · exact ⟨_, _, rfl⟩

theorem endTransaction_frame :
    ∃ currentState sourceIndex, e.endTransaction = { e with currentState, sourceIndex } := by
  suffices key : ∀ (ids : List CellId) (e : Engine V), ∃ currentState sourceIndex,
      ids.foldl collect e = { e with currentState, sourceIndex } from key _ e
  intro ids
  induction ids with
  | nil => exact fun e => ⟨_, _, rfl⟩
  | cons id ids ih =>
    intro e
    obtain ⟨currentState, sourceIndex, hEq⟩ := ih (e.collect id)
    exact ⟨currentState, sourceIndex, hEq⟩

end Frames

/-! ## The history of a run -/

section History

variable {V α : Type}

/-- The answer of the last operation that has one. -/
def latest (f : Operation V → Option α) (ops : List (Operation V)) : Option α :=
  ops.reverse.findSome? f

theorem latest_append (f : Operation V → Option α) (ops : List (Operation V))
    (op : Operation V) : latest f (ops ++ [op]) = (f op).or (latest f ops) := by
  unfold latest
  rw [List.reverse_append, List.reverse_singleton, List.singleton_append, List.findSome?_cons]
  cases f op <;> rfl

end History

end Exosuit.Roots
