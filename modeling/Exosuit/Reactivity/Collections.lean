import Exosuit.Lib.Table
import Exosuit.Reactivity.Recompute

/-!
# Reactive collections

A map keeps a cell for every entry beside one cell for its set of keys, a sequence
one for every item beside one for its length. The ids of new cells are drawn from a
stream. Beside each operation stands what it is on plain tables, lists and variables.
-/

namespace Exosuit.Reactivity

open Lib

variable {M S X K V W : Type}

structure ReactiveMap (K : Type) where
  structureId : String
  values : Table K String

structure ReactiveSequence where
  structureId : String
  values : List String

/-- The handles that a program holds: its maps, its sequences and its scalar cells. -/
structure Shape (M S X K : Type) where
  maps : M → ReactiveMap K
  sequences : S → ReactiveSequence
  cells : X → String

/-- `drawn` counts the ids drawn so far. -/
structure Collections (M S X K V : Type) extends Shape M S X K where
  runtime : Runtime V
  drawn : Nat

/-- How the items of a collection are stored in its cells, and which contents the operations
take for equal. -/
structure Serde (V W : Type) where
  toValue : W → V
  fromValue : V → Option W
  same : V → V → Bool

/-- Ordinary maps, vectors and variables. -/
structure Plain (M S X K V W : Type) where
  maps : M → Table K W
  sequences : S → List W
  cells : X → V

/-! ## Readings -/

/-- `is_empty` and `to_hashmap` read what `len` and `entries` read. -/
inductive Reading (M S K : Type)
  | mapGet (m : M) (key : K)
  | mapContainsKey (m : M) (key : K)
  | mapKeys (m : M)
  | mapLen (m : M)
  | mapEntries (m : M)
  | sequenceGet (s : S) (index : Nat)
  | sequenceLen (s : S)
  | sequenceToVec (s : S)

namespace Reading

abbrev Answer (W : Type) : Reading M S K → Type
  | .mapGet _ _ => Option W
  | .mapContainsKey _ _ => Bool
  | .mapKeys _ => List K
  | .mapLen _ => Nat
  | .mapEntries _ => List (K × W)
  | .sequenceGet _ _ => Option W
  | .sequenceLen _ => Nat
  | .sequenceToVec _ => List W

/-- Reads the cells one after the other. -/
def getAll : List String → Query CellId V (List V)
  | [] => .ret []
  | id :: ids => .ask (.root id) fun value => (getAll ids).bind fun values => .ret (value :: values)

/-- `get` of a map and of a sequence: the entry's cell when there is one, else the structure cell. -/
def getEntry (serde : Serde V W) (structureId : String) :
    Option String → Query CellId V (Option W)
  | some id => .ask (.root id) fun value => .ret (serde.fromValue value)
  | none => .ask (.root structureId) fun _ => .ret none

variable [DecidableEq K]

/-- The cells that a reading gets, and its answer from their contents. -/
def path (serde : Serde V W) (shape : Shape M S X K) : (r : Reading M S K) → Query CellId V (r.Answer W)
  | .mapGet m key =>
    getEntry serde (shape.maps m).structureId ((shape.maps m).values.lookup key)
  | .mapContainsKey m key =>
    .ask (.root (shape.maps m).structureId) fun _ => .ret (decide (key ∈ (shape.maps m).values))
  | .mapKeys m => .ask (.root (shape.maps m).structureId) fun _ => .ret (shape.maps m).values.keys
  | .mapLen m => .ask (.root (shape.maps m).structureId) fun _ => .ret (shape.maps m).values.size
  | .mapEntries m =>
    .ask (.root (shape.maps m).structureId) fun _ =>
      (getAll (shape.maps m).values.values).bind fun values =>
        .ret (((shape.maps m).values.keys.zip values).filterMap fun e =>
          (serde.fromValue e.2).map (e.1, ·))
  | .sequenceGet s index =>
    getEntry serde (shape.sequences s).structureId ((shape.sequences s).values[index]?)
  | .sequenceLen s =>
    .ask (.root (shape.sequences s).structureId) fun _ => .ret (shape.sequences s).values.length
  | .sequenceToVec s =>
    .ask (.root (shape.sequences s).structureId) fun _ =>
      (getAll (shape.sequences s).values).bind fun values => .ret (values.filterMap serde.fromValue)

def plain (p : Plain M S X K V W) : (r : Reading M S K) → r.Answer W
  | .mapGet m key => (p.maps m).lookup key
  | .mapContainsKey m key => decide (key ∈ p.maps m)
  | .mapKeys m => (p.maps m).keys
  | .mapLen m => (p.maps m).size
  | .mapEntries m => (p.maps m).entries.map fun e => (e.1, e.2)
  | .sequenceGet s index => (p.sequences s)[index]?
  | .sequenceLen s => (p.sequences s).length
  | .sequenceToVec s => p.sequences s

end Reading

/-! ## Computeds -/

/-- The body of a computed: it reads cells, collections and other computeds. -/
inductive Body (M S X K V W : Type)
  | ret (value : Availability V)
  | cell (x : X) (next : V → Body M S X K V W)
  | collection (r : Reading M S K) (next : r.Answer W → Body M S X K V W)
  | read (id : String) (compute : Body M S X K V W) (next : Availability V → Body M S X K V W)

def Query.closure {α : Type} : Query CellId V α → (α → Closure V) → Closure V
  | .ret a, f => f a
  | .ask cellId next, f => .get cellId fun value => Query.closure (next value) f

namespace Body

/-- The closure that the body is while the collections have this shape. -/
def closure [DecidableEq K] (serde : Serde V W) (shape : Shape M S X K) :
    Body M S X K V W → Closure V
  | .ret value => .ret value
  | .cell x next => .get (.root (shape.cells x)) fun value => (next value).closure serde shape
  | .collection r next => Query.closure (r.path serde shape) fun a => (next a).closure serde shape
  | .read id compute next =>
    .read id (compute.closure serde shape) fun value => (next value).closure serde shape

/-- The same body over plain collections. -/
def plain [DecidableEq K] (p : Plain M S X K V W) : Body M S X K V W → Availability V
  | .ret value => value
  | .cell x next => (next (p.cells x)).plain p
  | .collection r next => (next (r.plain p)).plain p
  | .read _ compute next => (next (compute.plain p)).plain p

def Within (body : String → Option (Body M S X K V W)) : Body M S X K V W → Prop
  | .ret _ => True
  | .cell _ next => ∀ value, (next value).Within body
  | .collection _ next => ∀ a, (next a).Within body
  | .read id compute next =>
    body id = some compute ∧ compute.Within body ∧ ∀ value, (next value).Within body

end Body

/-- Computeds with distinct ids, over the handles of one program. -/
structure Bodies (M S X K V W : Type) where
  body : String → Option (Body M S X K V W)
  within : ∀ id b, body id = some b → b.Within body

/-! ## Operations -/

section Operations

variable [DecidableEq M] [DecidableEq S] [DecidableEq X] [DecidableEq K] [Inhabited V]
  (serde : Serde V W) (draw : Nat → String)

namespace Collections

variable (σ : Collections M S X K V)

def setMap (m : M) (values : Table K String) : Collections M S X K V :=
  { σ with maps := Function.update σ.maps m { σ.maps m with values := values } }

def setSequence (s : S) (values : List String) : Collections M S X K V :=
  { σ with
    sequences := Function.update σ.sequences s { σ.sequences s with values := values } }

def setRuntime (rt : Runtime V) : Collections M S X K V := { σ with runtime := rt }

def newCell (value : V) : Collections M S X K V :=
  { σ with runtime := σ.runtime.cell (draw σ.drawn) value, drawn := σ.drawn + 1 }

/-- The value of the structure cell does not matter, its revision does. -/
def notify (structureId : String) : Collections M S X K V :=
  σ.setRuntime (σ.runtime.set (.root structureId) default)

/-- Leaves a cell alone whose contents are taken for the value. -/
def setEntry (id : String) (value : W) : Collections M S X K V :=
  if serde.same (σ.runtime.contents (.root id)) (serde.toValue value) then σ
  else σ.setRuntime (σ.runtime.set (.root id) (serde.toValue value))

def insert (m : M) (key : K) (value : W) : Collections M S X K V :=
  match (σ.maps m).values.lookup key with
  | some id => σ.setEntry serde id value
  | none =>
    ((σ.newCell draw (serde.toValue value)).setMap m
      (AList.insert key (draw σ.drawn) (σ.maps m).values)).notify (σ.maps m).structureId

def remove (m : M) (key : K) : Collections M S X K V :=
  match (σ.maps m).values.lookup key with
  | some id =>
    ((σ.setMap m (AList.erase key (σ.maps m).values)).setRuntime
      (σ.runtime.removeCell (.root id))).notify (σ.maps m).structureId
  | none => σ

def push (s : S) (item : W) : Collections M S X K V :=
  ((σ.newCell draw (serde.toValue item)).setSequence s
    ((σ.sequences s).values ++ [draw σ.drawn])).notify (σ.sequences s).structureId

/-- `none` where the source panics: the index is out of bounds. -/
def set (s : S) (index : Nat) (value : W) : Option (Collections M S X K V) :=
  ((σ.sequences s).values[index]?).map fun id => σ.setEntry serde id value

end Collections

inductive CollectionOperation (M S X K V W : Type)
  | insert (m : M) (key : K) (value : W)
  | remove (m : M) (key : K)
  | push (s : S) (item : W)
  | set (s : S) (index : Nat) (value : W)
  | setCell (x : X) (value : V)
  | read (id : String)

/-- One operation; a read needs a computed of the program. -/
def Collections.step (bodies : Bodies M S X K V W) (digest : Trace → String) (depth : Nat)
    (σ : Collections M S X K V) :
    CollectionOperation M S X K V W → Option (Collections M S X K V)
  | .insert m key value => some (σ.insert serde draw m key value)
  | .remove m key => some (σ.remove m key)
  | .push s item => some (σ.push serde draw s item)
  | .set s index value => σ.set serde s index value
  | .setCell x value => some (σ.setRuntime (σ.runtime.set (.root (σ.cells x)) value))
  | .read id => (bodies.body id).map fun b =>
    σ.setRuntime (σ.runtime.read digest depth id (b.closure serde σ.toShape)).runtime

def Plain.step (bodies : Bodies M S X K V W) (p : Plain M S X K V W) :
    CollectionOperation M S X K V W → Option (Plain M S X K V W)
  | .insert m key value =>
    some { p with maps := Function.update p.maps m ((p.maps m).put key value) }
  | .remove m key => some { p with maps := Function.update p.maps m (AList.erase key (p.maps m)) }
  | .push s item =>
    some { p with sequences := Function.update p.sequences s (p.sequences s ++ [item]) }
  | .set s index value =>
    if index < (p.sequences s).length then
      some { p with sequences := Function.update p.sequences s ((p.sequences s).set index value) }
    else none
  | .setCell x value => some { p with cells := Function.update p.cells x value }
  | .read id => (bodies.body id).map fun _ => p

/-- An insert and a set do not take another value that is held already for their own. -/
def CollectionOperation.Stores (p : Plain M S X K V W) : CollectionOperation M S X K V W → Prop
  | .insert m key value => ∀ held ∈ (p.maps m).lookup key,
    serde.same (serde.toValue held) (serde.toValue value) = true → held = value
  | .set s index value => ∀ held ∈ (p.sequences s)[index]?,
    serde.same (serde.toValue held) (serde.toValue value) = true → held = value
  | .remove .. | .push .. | .setCell .. | .read _ => True

end Operations

end Exosuit.Reactivity
