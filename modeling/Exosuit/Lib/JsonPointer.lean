import Exosuit.Lib.Json
import Exosuit.Lib.Paths
import Exosuit.Lib.Text

/-!
# JSON pointers

A pointer names the keys and the positions on the way to a value. Positions are written in one way
only, so that two lists of tokens lead to two places.
-/

namespace Exosuit.Lib.Json

/-! ## Tokens -/

/-- `str::replace` of two characters by one. -/
def replacePair (a b c : Char) : List Char → List Char
  | [] => []
  | [x] => [x]
  | x :: y :: rest => if x = a ∧ y = b then c :: replacePair a b c rest else x :: replacePair a b c (y :: rest)

def unescape (token : String) : String :=
  String.ofList (replacePair '~' '0' '~' (replacePair '~' '1' '/' token.toList))

def tokens (pointer : String) : Option (List String) :=
  if pointer = "" then some []
  else if Text.startsWith pointer "/" then some ((Text.split "/" pointer).tail.map unescape)
  else none

/-- `parse_index` -/
def parseIndex (token : String) : Option Nat :=
  if Text.startsWith token "+" ∨ (Text.startsWith token "0" ∧ token.length ≠ 1) then none
  else Text.parseUsize token

/-! ## Children -/

def child : Json → String → Option Json
  | object fields, token => fields.lookup token
  | array items, token => (parseIndex token).bind fun i => items[i]?
  | _, _ => none

def setChild : Json → String → Json → Option Json
  | object fields, token, v => some (object (insert fields token v))
  | array items, token, v =>
    (parseIndex token).bind fun i => if i < items.length then some (array (items.set i v)) else none
  | _, _, _ => none

theorem parseIndex_some {token : String} {i : Nat} (h : parseIndex token = some i) :
    token.toList = Nat.toDigits 10 i := by
  unfold parseIndex at h
  split at h
  · exact absurd h nofun
  · next hPlain =>
    rw [not_or, not_and_or, not_not] at hPlain
    obtain ⟨hPlus, hZero⟩ := hPlain
    have hHead : ∀ c : Char, token.toList.head? = some c → Text.startsWith token (String.ofList [c]) = true := by
      intro c hc
      obtain ⟨rest, hRest⟩ := List.head?_eq_some_iff.1 hc
      rw [Text.startsWith, hRest, String.toList_ofList, List.isPrefixOf_cons_cons, beq_self_eq_true]
      rfl
    obtain ⟨hNil, hDigits, rfl⟩ := Text.parseUsize_unsigned (fun hSign => hPlus (hHead '+' hSign)) h
    refine (Text.toDigits_foldl hDigits hNil ?_).symm
    exact hZero.imp (fun hStart hSign => hStart (hHead '0' hSign)) fun hLength => String.length_toList ▸ hLength

theorem parseIndex_inj {token token' : String} {i : Nat} (h : parseIndex token = some i)
    (h' : parseIndex token' = some i) : token = token' :=
  String.toList_inj.1 ((parseIndex_some h).trans (parseIndex_some h').symm)

theorem lookup_map_replace {fields : List (String × Json)} (key key' : String) (v : Json) :
    (fields.map fun entry => if entry.1 = key then (key, v) else entry).lookup key' =
      if key' = key then (fields.lookup key).map fun _ => v else fields.lookup key' := by
  induction fields with
  | nil => rw [List.map_nil, List.lookup_nil, List.lookup_nil, Option.map_none, ite_self]
  | cons entry fields ih =>
    obtain ⟨k, w⟩ := entry
    rw [List.map_cons, List.lookup_cons, List.lookup_cons]
    by_cases hEntry : k = key
    · subst hEntry
      rw [if_pos rfl, List.lookup_cons, beq_self_eq_true, ih]
      by_cases hKey : key' = k
      · simp [hKey]
      · simp [hKey, beq_eq_false_iff_ne.2 hKey]
    · rw [if_neg hEntry, List.lookup_cons, beq_eq_false_iff_ne.2 (Ne.symm hEntry), ih]
      by_cases hKey : key' = key
      · simp [hKey, beq_eq_false_iff_ne.2 (Ne.symm hEntry)]
      · simp [hKey]

theorem lookup_insert (fields : List (String × Json)) (key key' : String) (v : Json) :
    (insert fields key v).lookup key' = if key' = key then some v else fields.lookup key' := by
  unfold insert
  split
  · next hThere =>
    obtain ⟨w, hw⟩ := Option.isSome_iff_exists.1 hThere
    rw [lookup_map_replace, hw]
    rfl
  · next hNew =>
    rw [Option.not_isSome_iff_eq_none] at hNew
    rw [List.lookup_append, List.lookup_cons, List.lookup_nil]
    by_cases hKey : key' = key
    · rw [if_pos hKey, hKey, hNew, beq_self_eq_true]
      rfl
    · rw [if_neg hKey, beq_eq_false_iff_ne.2 hKey, Option.or_none]

theorem child_setChild {v w b : Json} {token : String} (h : setChild v token w = some b) :
    child b token = some w := by
  cases v with
  | object fields =>
    rw [← Option.some.inj h, child, lookup_insert, if_pos rfl]
  | array items =>
    obtain ⟨i, hi, h⟩ := Option.bind_eq_some_iff.1 h
    split at h
    · next hLt => rw [← Option.some.inj h, child, hi, Option.bind_some, List.getElem?_set_self hLt]
    · exact absurd h nofun
  | _ => exact absurd h nofun

theorem child_setChild_ne {v w b : Json} {token token' : String} (h : setChild v token w = some b)
    (hne : token' ≠ token) : child b token' = child v token' := by
  cases v with
  | object fields =>
    rw [← Option.some.inj h, child, child, lookup_insert, if_neg hne]
  | array items =>
    obtain ⟨i, hi, h⟩ := Option.bind_eq_some_iff.1 h
    split at h
    · rw [← Option.some.inj h, child, child]
      cases hj : parseIndex token' with
      | none => rfl
      | some j =>
        have hIndex : i ≠ j := by
          rintro rfl
          exact hne (parseIndex_inj hj hi)
        rw [Option.bind_some, Option.bind_some, List.getElem?_set_ne hIndex]
    · exact absurd h nofun
  | _ => exact absurd h nofun

def children : Children Json String where
  get := child
  set := setChild
  get_set := child_setChild
  get_set_ne := child_setChild_ne

theorem isSome_setChild (v : Json) (token : String) (c w : Json) (h : child v token = some c) :
    (setChild v token w).isSome = true := by
  cases v with
  | object fields => rfl
  | array items =>
    obtain ⟨i, hi, h⟩ := Option.bind_eq_some_iff.1 h
    rw [setChild, hi, Option.bind_some, if_pos (List.getElem?_eq_some_iff.1 h).1]
    rfl
  | _ => exact absurd h nofun

/-! ## How deep a value is -/

mutual

def depth : Json → Nat
  | array items => depthItems items + 1
  | object fields => depthFields fields + 1
  | _ => 0

def depthItems : List Json → Nat
  | [] => 0
  | v :: items => max v.depth (depthItems items)

def depthFields : List (String × Json) → Nat
  | [] => 0
  | (_, v) :: fields => max v.depth (depthFields fields)

end

theorem depth_le_items {items : List Json} {i : Nat} {c : Json} (h : items[i]? = some c) :
    c.depth ≤ depthItems items := by
  induction items generalizing i with
  | nil => exact absurd h nofun
  | cons v items ih =>
    rw [depthItems]
    cases i with
    | zero =>
      rw [← Option.some.inj h]
      omega
    | succ i =>
      have hRest := ih h
      omega

theorem depth_le_fields {fields : List (String × Json)} {key : String} {c : Json}
    (h : fields.lookup key = some c) : c.depth ≤ depthFields fields := by
  induction fields with
  | nil => exact absurd h nofun
  | cons entry fields ih =>
    obtain ⟨k, v⟩ := entry
    rw [depthFields]
    rw [List.lookup_cons] at h
    split at h
    · rw [← Option.some.inj h]
      omega
    · have hRest := ih h
      omega

theorem depth_child (v : Json) (token : String) (c : Json) (h : child v token = some c) : c.depth < v.depth := by
  cases v with
  | object fields =>
    rw [depth]
    exact Nat.lt_succ_of_le (depth_le_fields h)
  | array items =>
    obtain ⟨i, -, h⟩ := Option.bind_eq_some_iff.1 h
    rw [depth]
    exact Nat.lt_succ_of_le (depth_le_items h)
  | _ => exact absurd h nofun

theorem depthItems_set (items : List Json) (i : Nat) (v : Json) :
    depthItems (items.set i v) ≤ max (depthItems items) v.depth := by
  induction items generalizing i with
  | nil => exact Nat.zero_le _
  | cons w items ih =>
    cases i with
    | zero =>
      rw [List.set_cons_zero, depthItems, depthItems]
      omega
    | succ i =>
      have hRest := ih i
      rw [List.set_cons_succ, depthItems, depthItems]
      omega

theorem depthFields_map_replace (fields : List (String × Json)) (key : String) (v : Json) :
    depthFields (fields.map fun entry => if entry.1 = key then (key, v) else entry) ≤
      max (depthFields fields) v.depth := by
  induction fields with
  | nil => exact Nat.zero_le _
  | cons entry fields ih =>
    obtain ⟨k, w⟩ := entry
    rw [List.map_cons]
    split
    · rw [depthFields, depthFields]
      omega
    · rw [depthFields, depthFields]
      omega

theorem depthFields_append (fields : List (String × Json)) (key : String) (v : Json) :
    depthFields (fields ++ [(key, v)]) = max (depthFields fields) v.depth := by
  induction fields with
  | nil =>
    simp only [List.nil_append, depthFields]
    omega
  | cons entry fields ih =>
    obtain ⟨k, w⟩ := entry
    rw [List.cons_append, depthFields, depthFields, ih]
    omega

theorem depthFields_insert (fields : List (String × Json)) (key : String) (v : Json) :
    depthFields (insert fields key v) ≤ max (depthFields fields) v.depth := by
  unfold insert
  split
  · exact depthFields_map_replace fields key v
  · rw [depthFields_append]

theorem depth_setChild (v : Json) (token : String) (w b : Json) (h : setChild v token w = some b) :
    b.depth ≤ max v.depth (w.depth + 1) := by
  cases v with
  | object fields =>
    have hInsert := depthFields_insert fields token w
    rw [← Option.some.inj h, depth, depth]
    omega
  | array items =>
    obtain ⟨i, -, h⟩ := Option.bind_eq_some_iff.1 h
    split at h
    · have hSet := depthItems_set items i w
      rw [← Option.some.inj h, depth, depth]
      omega
    · exact absurd h nofun
  | _ => exact absurd h nofun

/-! ## Floats -/

mutual

/-- The value with the text of every float replaced. -/
def mapFloats (f : String → String) : Json → Json
  | float text => float (f text)
  | array items => array (mapItems f items)
  | object fields => object (mapFields f fields)
  | v => v

def mapItems (f : String → String) : List Json → List Json
  | [] => []
  | v :: items => v.mapFloats f :: mapItems f items

def mapFields (f : String → String) : List (String × Json) → List (String × Json)
  | [] => []
  | (key, v) :: fields => (key, v.mapFloats f) :: mapFields f fields

end

theorem getElem?_mapItems (f : String → String) (items : List Json) (i : Nat) :
    (mapItems f items)[i]? = items[i]?.map (mapFloats f) := by
  induction items generalizing i with
  | nil => rfl
  | cons v items ih =>
    cases i with
    | zero => rfl
    | succ i => exact ih i

theorem lookup_mapFields (f : String → String) (fields : List (String × Json)) (key : String) :
    (mapFields f fields).lookup key = (fields.lookup key).map (mapFloats f) := by
  induction fields with
  | nil => rfl
  | cons entry fields ih =>
    obtain ⟨k, v⟩ := entry
    rw [mapFields, List.lookup_cons, List.lookup_cons, ih]
    cases key == k <;> rfl

theorem child_mapFloats (f : String → String) (v : Json) (token : String) :
    child (v.mapFloats f) token = (child v token).map (mapFloats f) := by
  cases v with
  | object fields => exact lookup_mapFields f fields token
  | array items =>
    rw [mapFloats, child, child]
    cases parseIndex token with
    | none => rfl
    | some i => exact getElem?_mapItems f items i
  | _ => rfl

mutual

theorem mapFloats_id : (v : Json) → v.mapFloats id = v
  | .object fields => by rw [mapFloats, mapFields_id fields]
  | .array items => by rw [mapFloats, mapItems_id items]
  | .null | .bool _ | .posInt _ | .negInt _ | .float _ | .string _ => rfl

theorem mapItems_id : (items : List Json) → mapItems id items = items
  | [] => rfl
  | v :: items => by rw [mapItems, mapFloats_id v, mapItems_id items]

theorem mapFields_id : (fields : List (String × Json)) → mapFields id fields = fields
  | [] => rfl
  | (key, v) :: fields => by rw [mapFields, mapFloats_id v, mapFields_id fields]

end

mutual

theorem depth_mapFloats (f : String → String) (v : Json) : (v.mapFloats f).depth = v.depth := by
  cases v with
  | object fields => rw [mapFloats, depth, depth, depthFields_mapFields f fields]
  | array items => rw [mapFloats, depth, depth, depthItems_mapItems f items]
  | _ => rfl
termination_by sizeOf v

theorem depthItems_mapItems (f : String → String) (items : List Json) :
    depthItems (mapItems f items) = depthItems items := by
  cases items with
  | nil => rfl
  | cons v items => rw [mapItems, depthItems, depthItems, depth_mapFloats f v, depthItems_mapItems f items]
termination_by sizeOf items

theorem depthFields_mapFields (f : String → String) (fields : List (String × Json)) :
    depthFields (mapFields f fields) = depthFields fields := by
  cases fields with
  | nil => rfl
  | cons entry fields =>
    obtain ⟨k, v⟩ := entry
    rw [mapFields, depthFields, depthFields, depth_mapFloats f v, depthFields_mapFields f fields]
termination_by sizeOf fields

end

end Exosuit.Lib.Json
