import Mathlib.Data.List.Basic

/-!
# JSON values

A value with the accessors of a JSON library: lookups answer `none` on a value
of another shape, and a typed reader answers `none` on a value it does not accept.
-/

namespace Exosuit.Lib

inductive Json
  | null
  | bool (b : Bool)
  | posInt (n : Nat)
  | negInt (n : Int)
  | float (text : String)
  | string (s : String)
  | array (items : List Json)
  | object (fields : List (String × Json))

namespace Json

mutual

def eq : Json → Json → Bool
  | null, null => true
  | bool a, bool b => a == b
  | posInt m, posInt n => m == n
  | negInt m, negInt n => m == n
  | float s, float t => s == t
  | string s, string t => s == t
  | array xs, array ys => eqItems xs ys
  | object xs, object ys => eqFields xs ys
  | _, _ => false

def eqItems : List Json → List Json → Bool
  | [], [] => true
  | x :: xs, y :: ys => x.eq y && eqItems xs ys
  | _, _ => false

def eqFields : List (String × Json) → List (String × Json) → Bool
  | [], [] => true
  | (k, x) :: xs, (l, y) :: ys => k == l && x.eq y && eqFields xs ys
  | _, _ => false

end

mutual

theorem eq_iff (a b : Json) : a.eq b = true ↔ a = b := by
  cases a with
  | array xs => cases b <;> simp [eq, eqItems_iff xs]
  | object xs => cases b <;> simp [eq, eqFields_iff xs]
  | _ => cases b <;> simp [eq]
termination_by sizeOf a

theorem eqItems_iff (xs ys : List Json) : eqItems xs ys = true ↔ xs = ys := by
  cases xs with
  | nil => cases ys <;> simp [eqItems]
  | cons x xs => cases ys <;> simp [eqItems, eq_iff x, eqItems_iff xs]
termination_by sizeOf xs

theorem eqFields_iff (xs ys : List (String × Json)) : eqFields xs ys = true ↔ xs = ys := by
  cases xs with
  | nil => cases ys <;> simp [eqFields]
  | cons entry xs =>
    obtain ⟨k, x⟩ := entry
    cases ys <;> simp [eqFields, eq_iff x, eqFields_iff xs, Prod.ext_iff, and_assoc]
termination_by sizeOf xs

end

instance : DecidableEq Json := fun a b => decidable_of_iff _ (eq_iff a b)

def get : Json → String → Option Json
  | object fields, key => fields.lookup key
  | _, _ => none

def asStr : Json → Option String
  | string s => some s
  | _ => none

def asBool : Json → Option Bool
  | bool b => some b
  | _ => none

def asU64 : Json → Option Nat
  | posInt n => some n
  | _ => none

def asObject : Json → Option (List (String × Json))
  | object fields => some fields
  | _ => none

/-- Sets a field of an object, in place when the key is there. -/
def insert (fields : List (String × Json)) (key : String) (v : Json) : List (String × Json) :=
  if (fields.lookup key).isSome then
    fields.map fun entry => if entry.1 = key then (key, v) else entry
  else fields ++ [(key, v)]

/-- An optional field is written only when present. -/
def field (key : String) : Option Json → List (String × Json)
  | some v => [(key, v)]
  | none => []

/-- An optional field is absent also when it reads `null`. -/
def optional : Option Json → Option Json
  | some null => none
  | v => v

@[simp] theorem get_object (fields : List (String × Json)) (key : String) :
    (object fields).get key = fields.lookup key := rfl

@[simp] theorem asStr_string (s : String) : (string s).asStr = some s := rfl

@[simp] theorem asBool_bool (b : Bool) : (bool b).asBool = some b := rfl

@[simp] theorem asU64_posInt (n : Nat) : (posInt n).asU64 = some n := rfl

theorem lookup_field_append (key key' : String) (v : Option Json) (rest : List (String × Json)) :
    (field key v ++ rest).lookup key' =
      if key' = key then v.or (rest.lookup key') else rest.lookup key' := by
  cases v with
  | none => simp [field]
  | some v =>
    by_cases hKey : key' = key
    · simp [field, hKey]
    · have hBeq : (key' == key) = false := by simpa using hKey
      simp [field, List.lookup_cons, hBeq, hKey]

theorem lookup_field (key key' : String) (v : Option Json) :
    (field key v).lookup key' = if key' = key then v else none := by
  have h := lookup_field_append key key' v []
  simpa using h

@[simp] theorem optional_none : optional none = none := rfl

@[simp] theorem optional_string (s : String) : optional (some (string s)) = some (string s) := rfl

@[simp] theorem optional_optional (v : Option Json) : optional (optional v) = optional v := by
  match v with
  | none | some null => rfl
  | some (bool _) | some (posInt _) | some (negInt _) | some (float _) | some (string _)
  | some (array _) | some (object _) => rfl

end Json

end Exosuit.Lib
