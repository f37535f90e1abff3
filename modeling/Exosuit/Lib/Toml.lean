import Mathlib.Data.List.Basic

/-!
# TOML documents

Tables are ordered and have one entry a key. The text form is known by its grammar only:
a basic string holds characters that are not quotes, backslashes or control characters, and
escaped quotes and backslashes; a control character in it is an error. A reader of the
values that programs write in one line follows it.
-/

namespace Exosuit.Lib.Toml

/-- `other` is the text of a float or a date. -/
inductive Value
  | string (s : String)
  | integer (n : Int)
  | boolean (b : Bool)
  | array (values : List Value)
  | inlineTable (fields : List (String × Value))
  | other (text : String)

inductive Item
  | value (v : Value)
  | table (entries : List (String × Item))
  | arrayOfTables (tables : List (List (String × Item)))

abbrev Table := List (String × Item)

namespace Value

def asStr : Value → Option String
  | .string s => some s
  | _ => none

def asInteger : Value → Option Int
  | .integer n => some n
  | _ => none

def asBool : Value → Option Bool
  | .boolean b => some b
  | _ => none

def asArray : Value → Option (List Value)
  | .array values => some values
  | _ => none

end Value

namespace Item

def asValue : Item → Option Value
  | .value v => some v
  | _ => none

def asStr (item : Item) : Option String := item.asValue.bind Value.asStr

def asInteger (item : Item) : Option Int := item.asValue.bind Value.asInteger

def asArray (item : Item) : Option (List Value) := item.asValue.bind Value.asArray

def asTable : Item → Option Table
  | .table entries => some entries
  | _ => none

end Item

namespace Table

variable {t : Table} {key key' : String} {item : Item}

def get (t : Table) (key : String) : Option Item := (t.find? fun e => e.1 == key).map Prod.snd

/-- A key that is there keeps its place. -/
def insert (t : Table) (key : String) (item : Item) : Table :=
  match t with
  | [] => [(key, item)]
  | e :: rest => if e.1 = key then (key, item) :: rest else e :: insert rest key item

theorem get_cons (e : String × Item) (t : Table) (key : String) :
    get (e :: t) key = if e.1 = key then some e.2 else get t key := by
  unfold get
  rw [List.find?_cons]
  by_cases h : e.1 = key
  · rw [beq_iff_eq.mpr h, if_pos h]
    rfl
  · rw [beq_eq_false_iff_ne.mpr h, if_neg h]

theorem insert_of_not_mem (h : key ∉ t.map Prod.fst) : insert t key item = t ++ [(key, item)] := by
  induction t with
  | nil => rfl
  | cons e t ih =>
    rw [List.map_cons, List.mem_cons, not_or] at h
    obtain ⟨hHead, hTail⟩ := h
    rw [insert, if_neg (Ne.symm hHead), ih hTail, List.cons_append]

theorem get_insert : get (insert t key item) key' = if key' = key then some item else get t key' := by
  induction t with
  | nil =>
    rw [insert, get_cons]
    exact if_congr eq_comm rfl rfl
  | cons e t ih =>
    rw [insert]
    split
    · next h =>
      rw [get_cons, get_cons, h]
      by_cases hKey : key' = key
      · rw [if_pos hKey.symm, if_pos hKey]
      · rw [if_neg (Ne.symm hKey), if_neg hKey, if_neg (Ne.symm hKey)]
    · next h =>
      rw [get_cons, get_cons, ih]
      by_cases hKey : key' = key
      · rw [if_pos hKey, if_pos hKey, if_neg]
        rintro rfl
        exact h hKey
      · rw [if_neg hKey, if_neg hKey]

theorem keys_insert : (insert t key item).map Prod.fst =
    if key ∈ t.map Prod.fst then t.map Prod.fst else t.map Prod.fst ++ [key] := by
  induction t with
  | nil => rfl
  | cons e t ih =>
    rw [insert]
    split
    · next h =>
      rw [List.map_cons, List.map_cons, h, if_pos List.mem_cons_self]
    · next h =>
      rw [List.map_cons, ih, List.map_cons]
      by_cases hMem : key ∈ t.map Prod.fst
      · rw [if_pos hMem, if_pos (List.mem_cons_of_mem _ hMem)]
      · rw [if_neg hMem, if_neg, List.cons_append]
        rw [List.mem_cons, not_or]
        exact ⟨Ne.symm h, hMem⟩

theorem mem_keys_of_get (h : get t key = some item) : key ∈ t.map Prod.fst := by
  obtain ⟨e, hFind, -⟩ := Option.map_eq_some_iff.mp h
  have hKey : (e.1 == key) = true := List.find?_some (p := fun e : String × Item => e.1 == key) hFind
  exact List.mem_map.mpr ⟨e, List.mem_of_find?_eq_some hFind, eq_of_beq hKey⟩

theorem insert_of_get (h : get t key = some item) : insert t key item = t := by
  induction t with
  | nil => cases h
  | cons e t ih =>
    rw [get_cons] at h
    rw [insert]
    split at h
    · next hKey =>
      rw [if_pos hKey, ← Option.some_inj.mp h, ← hKey]
    · next hKey => rw [if_neg hKey, ih h]

end Table

/-! ## Text -/

/-- What may not stand in a basic string. -/
def isControl (c : Char) : Bool := (c.toNat < 0x20 && c != '\t') || c.toNat == 0x7f

/-- A text between quotes and what it denotes. -/
inductive BasicBody : List Char → List Char → Prop
  | nil : BasicBody [] []
  | plain {c : Char} {cs vs : List Char} : c ≠ '"' → c ≠ '\\' → isControl c = false →
      BasicBody cs vs → BasicBody (c :: cs) (c :: vs)
  | escaped {c : Char} {cs vs : List Char} : c = '"' ∨ c = '\\' → BasicBody cs vs →
      BasicBody ('\\' :: c :: cs) (c :: vs)

def quoted (body : List Char) : List Char := '"' :: body ++ ['"']

/-- The texts of an array between the brackets. -/
def arrayBody (bodies : List (List Char)) : List Char := List.intercalate [','] (bodies.map quoted)

/-! ## Reading -/

def escapeOf : Char → Option Char
  | '"' => some '"'
  | '\\' => some '\\'
  | 'b' => some '\x08'
  | 't' => some '\t'
  | 'n' => some '\n'
  | 'f' => some '\x0c'
  | 'r' => some '\r'
  | _ => none

def basicString : List Char → Option (List Char × List Char)
  | [] => none
  | '"' :: cs => some ([], cs)
  | '\\' :: c :: cs => (escapeOf c).bind fun v => (basicString cs).map fun r => (v :: r.1, r.2)
  | c :: cs => if isControl c || c == '\\' then none else (basicString cs).map fun r => (c :: r.1, r.2)

/-- The strings of an array after its opening bracket, given at least as much fuel as strings. -/
def stringArray : Nat → List Char → Option (List Value × List Char)
  | _, ']' :: cs => some ([], cs)
  | fuel + 1, '"' :: cs => (basicString cs).bind fun r =>
    match r.2 with
    | ',' :: rest => (stringArray fuel rest).map fun tail => (.string (String.ofList r.1) :: tail.1, tail.2)
    | ']' :: rest => some ([.string (String.ofList r.1)], rest)
    | _ => none
  | _, _ => none

def skipBlanks (cs : List Char) : List Char := cs.dropWhile (· == ' ')

def isBare (c : Char) : Bool := c.isAlphanum || c == '_' || c == '-'

/-- The strings of an inline table after its opening brace, given as much fuel as fields. -/
def inlineFields : Nat → List Char → Option (List (String × Value) × List Char)
  | 0, _ => none
  | fuel + 1, cs =>
    let key := (skipBlanks cs).takeWhile isBare
    match skipBlanks ((skipBlanks cs).dropWhile isBare) with
    | '=' :: cs =>
      match skipBlanks cs with
      | '"' :: cs => (basicString cs).bind fun r =>
        let field := (String.ofList key, Value.string (String.ofList r.1))
        match skipBlanks r.2 with
        | ',' :: rest => (inlineFields fuel rest).map fun tail => (field :: tail.1, tail.2)
        | '\x7d' :: rest => some ([field], rest)
        | _ => none
      | _ => none
    | _ => none

/-- Nothing may be left over. -/
def whole {α : Type} (r : Option (α × List Char)) : Option α :=
  r.bind fun r => if r.2 = [] then some r.1 else none

def readValue (s : String) : Option Value :=
  match s.toList with
  | '"' :: cs => (whole (basicString cs)).map fun vs => .string (String.ofList vs)
  | '[' :: cs => (whole (stringArray cs.length cs)).map .array
  | '\x7b' :: cs => (whole (inlineFields cs.length cs)).map .inlineTable
  | _ =>
    if s = "true" then some (.boolean true)
    else if s = "false" then some (.boolean false)
    else s.toNat?.map fun n : Nat => .integer n

theorem basicString_body {body vs : List Char} (h : BasicBody body vs) (rest : List Char) :
    basicString (body ++ '"' :: rest) = some (vs, rest) := by
  induction h with
  | nil => rfl
  | @plain c cs vs hQuote hBackslash hControl _ ih =>
    rw [List.cons_append, basicString, hControl, ih]
    · rw [beq_eq_false_iff_ne.mpr hBackslash]
      rfl
    · exact hQuote
    · exact fun _ _ h => absurd h hBackslash
  | @escaped c cs vs hEscape _ ih =>
    rw [List.cons_append, List.cons_append, basicString, ih]
    rcases hEscape with rfl | rfl <;> rfl

theorem basicString_control {body vs : List Char} (h : BasicBody body vs) {c : Char}
    (hControl : isControl c = true) (rest : List Char) : basicString (body ++ c :: rest) = none := by
  induction h with
  | nil =>
    rw [List.nil_append, basicString, hControl]
    · rfl
    · rintro rfl
      exact absurd hControl (by decide)
    · rintro _ _ rfl
      exact absurd hControl (by decide)
  | @plain d cs vs hQuote hBackslash hPlain _ ih =>
    rw [List.cons_append, basicString, hPlain, ih]
    · rw [beq_eq_false_iff_ne.mpr hBackslash]
      rfl
    · exact hQuote
    · exact fun _ _ h => absurd h hBackslash
  | @escaped d cs vs hEscape _ ih =>
    rw [List.cons_append, List.cons_append, basicString, ih]
    rcases hEscape with rfl | rfl <;> rfl

theorem arrayBody_cons (body : List Char) (bodies : List (List Char)) :
    arrayBody (body :: bodies) =
      quoted body ++ if bodies = [] then [] else ',' :: arrayBody bodies := by
  cases bodies with
  | nil => rw [if_pos rfl, List.append_nil, arrayBody, List.map_singleton, List.intercalate_singleton]
  | cons next bodies =>
    rw [if_neg (List.cons_ne_nil _ _), arrayBody, List.map_cons, List.map_cons,
      List.intercalate_cons_cons, List.append_assoc, List.singleton_append]
    rfl

theorem length_arrayBody (bodies : List (List Char)) : bodies.length ≤ (arrayBody bodies).length := by
  induction bodies with
  | nil => exact Nat.le_refl _
  | cons body bodies ih =>
    rw [arrayBody_cons]
    split
    · case isTrue h => simp [h, quoted]
    · simp only [List.length_append, List.length_cons, quoted]
      omega

/-- The texts of an array up to one that is not its last. -/
def arrayFront (bodies : List (List Char)) : List Char := bodies.flatMap fun body => quoted body ++ [',']

theorem stringArray_bodies {bodies : List (List Char × List Char)}
    (hBodies : ∀ b ∈ bodies, BasicBody b.1 b.2) (fuel : Nat) (hFuel : bodies.length ≤ fuel)
    (rest : List Char) :
    stringArray fuel (arrayBody (bodies.map Prod.fst) ++ ']' :: rest) =
      some (bodies.map fun b => .string (String.ofList b.2), rest) := by
  induction bodies generalizing fuel with
  | nil => cases fuel <;> rfl
  | cons b bodies ih =>
    obtain ⟨body, vs⟩ := b
    cases fuel with
    | zero => exact absurd hFuel (by simp)
    | succ fuel =>
      have hBody := basicString_body (hBodies _ List.mem_cons_self)
      have hTail := ih (fun b hb => hBodies b (List.mem_cons_of_mem _ hb)) fuel
        (Nat.le_of_succ_le_succ hFuel)
      rw [List.map_cons, arrayBody_cons, quoted]
      simp only [List.cons_append, List.append_assoc, List.nil_append, stringArray]
      rw [hBody, Option.bind_some]
      cases bodies with
      | nil => rfl
      | cons next bodies =>
        rw [if_neg (by simp)]
        simp only [List.cons_append]
        rw [hTail]
        rfl

theorem stringArray_control {bodies : List (List Char × List Char)}
    (hBodies : ∀ b ∈ bodies, BasicBody b.1 b.2) {body vs : List Char} (hBody : BasicBody body vs)
    {c : Char} (hControl : isControl c = true) (rest : List Char) (fuel : Nat) :
    stringArray fuel (arrayFront (bodies.map Prod.fst) ++ '"' :: (body ++ c :: rest)) = none := by
  induction bodies generalizing fuel with
  | nil =>
    cases fuel with
    | zero => rfl
    | succ fuel =>
      rw [List.map_nil, arrayFront, List.flatMap_nil, List.nil_append, stringArray,
        basicString_control hBody hControl, Option.bind_none]
  | cons b bodies ih =>
    cases fuel with
    | zero => rfl
    | succ fuel =>
      have hFirst := basicString_body (hBodies _ List.mem_cons_self)
      rw [List.map_cons, arrayFront, List.flatMap_cons, ← arrayFront, quoted]
      simp only [List.cons_append, List.append_assoc, List.nil_append, stringArray]
      rw [hFirst, Option.bind_some]
      have hRest := ih (fun b hb => hBodies b (List.mem_cons_of_mem _ hb)) fuel
      change Option.map _ (stringArray fuel _) = none
      rw [hRest, Option.map_none]

/-- What the reader of a document does to texts that were spliced from strings. -/
structure ReadsSpliced (parse : String → Option Value) : Prop where
  basic {body vs : List Char} : BasicBody body vs →
    parse (String.ofList (quoted body)) = some (.string (String.ofList vs))
  control {body vs : List Char} {c : Char} (rest : List Char) : BasicBody body vs →
    isControl c = true → parse (String.ofList ('"' :: (body ++ c :: rest))) = none
  array {bodies : List (List Char × List Char)} : (∀ b ∈ bodies, BasicBody b.1 b.2) →
    parse (String.ofList ('[' :: (arrayBody (bodies.map Prod.fst) ++ [']']))) =
      some (.array (bodies.map fun b => .string (String.ofList b.2)))
  arrayControl {bodies : List (List Char × List Char)} {body vs : List Char} {c : Char}
    (rest : List Char) : (∀ b ∈ bodies, BasicBody b.1 b.2) → BasicBody body vs →
    isControl c = true →
    parse (String.ofList ('[' :: (arrayFront (bodies.map Prod.fst) ++ '"' :: (body ++ c :: rest)))) =
      none

theorem readValue_string (cs : List Char) : readValue (String.ofList ('"' :: cs)) =
    (whole (basicString cs)).map fun vs => .string (String.ofList vs) := by
  rw [readValue, String.toList_ofList]
  rfl

theorem readValue_array (cs : List Char) : readValue (String.ofList ('[' :: cs)) =
    (whole (stringArray cs.length cs)).map .array := by
  rw [readValue, String.toList_ofList]
  rfl

theorem readValue_spliced : ReadsSpliced readValue where
  basic h := by
    rw [quoted, List.cons_append, readValue_string, basicString_body h]
    rfl
  control rest h hControl := by
    rw [readValue_string, basicString_control h hControl]
    rfl
  array {bodies} h := by
    have hLength := length_arrayBody (bodies.map Prod.fst)
    rw [List.length_map] at hLength
    rw [readValue_array, stringArray_bodies h]
    · rfl
    · rw [List.length_append]
      omega
  arrayControl rest h hBody hControl := by
    rw [readValue_array, stringArray_control h hBody hControl]
    rfl

end Exosuit.Lib.Toml
