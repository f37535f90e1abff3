import Mathlib.Data.List.Basic

/-!
# TOML values and paths

A table is the list of its entries in the order of their keys, and equality is
the one that `toml::Value` derives: elementwise, with the equality of floats,
under which no NaN equals itself.
-/

namespace Exosuit.Merge

namespace Float64

def isNaN (x : BitVec 64) : Bool := (x <<< 1) > 0xFFE0000000000000#64

def isZero (x : BitVec 64) : Bool := x <<< 1 == 0#64

def eq (x y : BitVec 64) : Bool := !isNaN x && !isNaN y && (x == y || (isZero x && isZero y))

end Float64

inductive Value
  | string (text : String)
  | integer (value : Int)
  | float (bits : BitVec 64)
  | boolean (value : Bool)
  | datetime (text : String)
  | array (items : List Value)
  | table (entries : List (String × Value))

mutual

def Value.eq : Value → Value → Bool
  | .string x, .string y => x == y
  | .integer x, .integer y => x == y
  | .float x, .float y => Float64.eq x y
  | .boolean x, .boolean y => x == y
  | .datetime x, .datetime y => x == y
  | .array xs, .array ys => eqItems xs ys
  | .table xs, .table ys => eqEntries xs ys
  | _, _ => false

def eqItems : List Value → List Value → Bool
  | [], [] => true
  | x :: xs, y :: ys => x.eq y && eqItems xs ys
  | _, _ => false

def eqEntries : List (String × Value) → List (String × Value) → Bool
  | [], [] => true
  | (k, x) :: xs, (l, y) :: ys => k == l && x.eq y && eqEntries xs ys
  | _, _ => false

end

instance : BEq Value := ⟨Value.eq⟩

namespace Value

def emptyTable : Value := .table []

def asStr : Value → Option String
  | .string text => some text
  | _ => none

end Value

def Value.idOf : Value → Option String
  | .table entries => (entries.lookup "id").bind asStr
  | _ => none

/-- The map from ids to elements, the last insertion first, and the ids in order;
`none` as soon as one element is not a table with a string under `id`. -/
def indexArrayOfTablesById : List Value → Option (List (String × Value) × List String)
  | [] => some ([], [])
  | v :: rest => do
    let id ← v.idOf
    let (map, order) ← indexArrayOfTablesById rest
    pure (map ++ [(id, v)], id :: order)

/-! ## Equality is symmetric and transitive -/

namespace Float64

theorem eq_symm {x y : BitVec 64} (h : eq x y = true) : eq y x = true := by
  simp only [eq, Bool.and_eq_true, Bool.or_eq_true, beq_iff_eq] at h ⊢
  obtain ⟨⟨hx, hy⟩, hEq | ⟨hZero, hZero'⟩⟩ := h
  · exact ⟨⟨hy, hx⟩, .inl hEq.symm⟩
  · exact ⟨⟨hy, hx⟩, .inr ⟨hZero', hZero⟩⟩

theorem eq_trans {x y z : BitVec 64} (h : eq x y = true) (h' : eq y z = true) : eq x z = true := by
  simp only [eq, Bool.and_eq_true, Bool.or_eq_true, beq_iff_eq] at h h' ⊢
  obtain ⟨⟨hx, hy⟩, hEq | ⟨hZero, hZero'⟩⟩ := h
  · subst hEq
    exact h'
  · obtain ⟨⟨_, hz⟩, hEq | ⟨_, hZero''⟩⟩ := h'
    · subst hEq
      exact ⟨⟨hx, hz⟩, .inr ⟨hZero, hZero'⟩⟩
    · exact ⟨⟨hx, hz⟩, .inr ⟨hZero, hZero''⟩⟩

end Float64

mutual

theorem Value.eq_symm (x y : Value) (h : x.eq y = true) : y.eq x = true := by
  cases x <;> cases y <;> simp only [Value.eq, beq_iff_eq, Bool.false_eq_true] at h ⊢
  case float.float => exact Float64.eq_symm h
  case array.array xs ys => exact eqItems_symm xs ys h
  case table.table xs ys => exact eqEntries_symm xs ys h
  all_goals exact h.symm

theorem eqItems_symm (xs ys : List Value) (h : eqItems xs ys = true) : eqItems ys xs = true := by
  cases xs <;> cases ys <;> simp only [eqItems, Bool.and_eq_true, Bool.false_eq_true] at h ⊢
  case cons.cons x xs y ys => exact ⟨Value.eq_symm x y h.1, eqItems_symm xs ys h.2⟩

theorem eqEntries_symm (xs ys : List (String × Value)) (h : eqEntries xs ys = true) :
    eqEntries ys xs = true := by
  match xs, ys with
  | [], [] => rfl
  | (k, x) :: xs, (l, y) :: ys =>
    simp only [eqEntries, Bool.and_eq_true, beq_iff_eq] at h ⊢
    exact ⟨⟨h.1.1.symm, Value.eq_symm x y h.1.2⟩, eqEntries_symm xs ys h.2⟩

end

mutual

theorem Value.eq_trans (x y z : Value) (h : x.eq y = true) (h' : y.eq z = true) :
    x.eq z = true := by
  cases x <;> cases y <;> simp only [Value.eq, beq_iff_eq, Bool.false_eq_true] at h <;>
    cases z <;> simp only [Value.eq, beq_iff_eq, Bool.false_eq_true] at h' ⊢
  case float.float.float => exact Float64.eq_trans h h'
  case array.array.array xs ys zs => exact eqItems_trans xs ys zs h h'
  case table.table.table xs ys zs => exact eqEntries_trans xs ys zs h h'
  all_goals exact h.trans h'

theorem eqItems_trans (xs ys zs : List Value) (h : eqItems xs ys = true)
    (h' : eqItems ys zs = true) : eqItems xs zs = true := by
  match xs, ys, zs with
  | [], [], zs => exact h'
  | x :: xs, y :: ys, [] => cases h'
  | x :: xs, y :: ys, z :: zs =>
    simp only [eqItems, Bool.and_eq_true] at h h' ⊢
    exact ⟨Value.eq_trans x y z h.1 h'.1, eqItems_trans xs ys zs h.2 h'.2⟩

theorem eqEntries_trans (xs ys zs : List (String × Value)) (h : eqEntries xs ys = true)
    (h' : eqEntries ys zs = true) : eqEntries xs zs = true := by
  match xs, ys, zs with
  | [], [], zs => exact h'
  | (k, x) :: xs, (l, y) :: ys, [] => cases h'
  | (k, x) :: xs, (l, y) :: ys, (m, z) :: zs =>
    simp only [eqEntries, Bool.and_eq_true, beq_iff_eq] at h h' ⊢
    exact ⟨⟨h.1.1.trans h'.1.1, Value.eq_trans x y z h.1.2 h'.1.2⟩,
      eqEntries_trans xs ys zs h.2 h'.2⟩

end

/-! ## Lookup by path -/

inductive Step
  | key (key : String)
  | id (id : String)
deriving DecidableEq

def Value.child : Value → Step → Option Value
  | .table entries, .key key => entries.lookup key
  | .array items, .id id => (indexArrayOfTablesById items).bind fun index => index.1.lookup id
  | _, _ => none

def child (v : Option Value) (step : Step) : Option Value := v.bind fun v => v.child step

def follow (v : Option Value) : List Step → Option Value
  | [] => v
  | step :: path => follow (child v step) path

/-- Equality of what two paths lead to. -/
def same : Option Value → Option Value → Bool
  | some x, some y => x == y
  | none, none => true
  | _, _ => false

theorem same_symm {x y : Option Value} (h : same x y = true) : same y x = true := by
  cases x <;> cases y
  case some.some x y => exact Value.eq_symm x y h
  all_goals exact h

theorem same_trans {x y z : Option Value} (h : same x y = true) (h' : same y z = true) :
    same x z = true := by
  cases x <;> cases y <;> cases z
  case some.some.some x y z => exact Value.eq_trans x y z h h'
  all_goals first | exact h | exact h' | cases h

theorem same_lookup {xs ys : List (String × Value)} (h : eqEntries xs ys = true) (key : String) :
    same (xs.lookup key) (ys.lookup key) = true := by
  match xs, ys with
  | [], [] => rfl
  | (k, x) :: xs, (l, y) :: ys =>
    simp only [eqEntries, Bool.and_eq_true, beq_iff_eq] at h
    obtain ⟨⟨rfl, hHead⟩, hTail⟩ := h
    rw [List.lookup_cons, List.lookup_cons]
    cases key == k with
    | true => exact hHead
    | false => exact same_lookup hTail key

theorem idOf_eq {x y : Value} (h : x.eq y = true) : x.idOf = y.idOf := by
  cases x <;> cases y <;> simp only [Value.eq, Bool.false_eq_true] at h
  case table.table xs ys =>
    have hId := same_lookup h "id"
    simp only [Value.idOf]
    cases hx : xs.lookup "id" <;> cases hy : ys.lookup "id" <;> rw [hx, hy] at hId
    case some.some v w =>
      change v.eq w = true at hId
      cases v <;> cases w <;> simp only [Value.eq, beq_iff_eq, Bool.false_eq_true] at hId
      case string.string => exact congrArg some hId
      all_goals rfl
    all_goals first | rfl | cases hId
  all_goals rfl

theorem index_cons (v : Value) (rest : List Value) :
    indexArrayOfTablesById (v :: rest) = v.idOf.bind fun id =>
      (indexArrayOfTablesById rest).map fun index => (index.1 ++ [(id, v)], id :: index.2) := by
  rw [indexArrayOfTablesById]
  cases v.idOf <;> cases indexArrayOfTablesById rest <;> rfl

theorem same_index {xs ys : List Value} (h : eqItems xs ys = true) :
    (indexArrayOfTablesById xs = none ∧ indexArrayOfTablesById ys = none) ∨
    ∃ index index', indexArrayOfTablesById xs = some index ∧
      indexArrayOfTablesById ys = some index' ∧
      ∀ id, same (index.1.lookup id) (index'.1.lookup id) = true := by
  match xs, ys with
  | [], [] => exact .inr ⟨_, _, rfl, rfl, fun _ => rfl⟩
  | x :: xs, y :: ys =>
    simp only [eqItems, Bool.and_eq_true] at h
    obtain ⟨hHead, hTail⟩ := h
    rw [index_cons, index_cons, ← idOf_eq hHead]
    cases x.idOf with
    | none => exact .inl ⟨rfl, rfl⟩
    | some id =>
      rcases same_index hTail with ⟨hx, hy⟩ | ⟨index, index', hx, hy, hLookup⟩
      · exact .inl ⟨by rw [hx]; rfl, by rw [hy]; rfl⟩
      · refine .inr ⟨_, _, by rw [hx]; rfl, by rw [hy]; rfl, fun id' => ?_⟩
        have hRest := hLookup id'
        rw [List.lookup_append, List.lookup_append]
        cases hl : index.1.lookup id' <;> cases hl' : index'.1.lookup id' <;> rw [hl, hl'] at hRest
        case some.some => exact hRest
        case none.none =>
          rw [Option.none_or, Option.none_or, List.lookup_cons, List.lookup_cons]
          cases id' == id with
          | true => exact hHead
          | false => rfl
        all_goals cases hRest

theorem same_child {x y : Option Value} (h : same x y = true) (step : Step) :
    same (child x step) (child y step) = true := by
  cases x <;> cases y
  case none.none => rfl
  case some.some x y =>
    change x.eq y = true at h
    cases x <;> cases y <;> simp only [Value.eq, Bool.false_eq_true] at h <;> cases step
    case table.table.key => exact same_lookup h _
    case array.array.id id =>
      simp only [child, Option.bind_some, Value.child]
      rcases same_index h with ⟨hx, hy⟩ | ⟨index, index', hx, hy, hLookup⟩ <;> rw [hx, hy]
      · rfl
      · exact hLookup id
    all_goals rfl
  all_goals cases h

/-! ## Containers -/

inductive Shape
  | leaf
  | table
  | keyedArray
deriving DecidableEq

def Value.shape : Value → Shape
  | .table _ => .table
  | .array items => if (indexArrayOfTablesById items).isSome then .keyedArray else .leaf
  | _ => .leaf

def shapeOf : Option Value → Shape
  | some v => v.shape
  | none => .leaf

theorem shapeOf_eq_of_same {x y : Option Value} (h : same x y = true) : shapeOf x = shapeOf y := by
  cases x <;> cases y
  case none.none => rfl
  case some.some x y =>
    change x.eq y = true at h
    cases x <;> cases y <;> simp only [Value.eq, Bool.false_eq_true] at h
    case array.array =>
      simp only [shapeOf, Value.shape]
      rcases same_index h with ⟨hx, hy⟩ | ⟨index, index', hx, hy, _⟩
      · rw [hx, hy]
      · rw [hx, hy]
        rfl
    all_goals rfl
  all_goals cases h

end Exosuit.Merge
