import Exosuit.Lib.Json
import Exosuit.Lib.Text
import Mathlib.Tactic.IntervalCases

/-!
# The text of a JSON value

The compact writer, the reader of a quoted string, and that a text determines the value it was
written from, whatever follows it.
-/

namespace Exosuit.Lib.JsonText

/-! ## Quoted strings -/

def hexDigit (n : Nat) : Char := if n < 10 then Char.ofNat (48 + n) else Char.ofNat (87 + n)

def hexValue (c : Char) : Option Nat :=
  if 48 ≤ c.toNat ∧ c.toNat ≤ 57 then some (c.toNat - 48)
  else if 97 ≤ c.toNat ∧ c.toNat ≤ 102 then some (c.toNat - 87)
  else if 65 ≤ c.toNat ∧ c.toNat ≤ 70 then some (c.toNat - 55)
  else none

/-- The letter that stands for a character behind a backslash, where the writer uses one. -/
def shortEscapes : List (Char × Char) :=
  [('"', '"'), ('\\', '\\'), ('b', '\x08'), ('t', '\t'), ('n', '\n'), ('f', '\x0c'), ('r', '\r')]

def escapeChar (c : Char) : List Char :=
  match shortEscapes.find? fun entry => entry.2 == c with
  | some (letter, _) => ['\\', letter]
  | none =>
    if c.toNat < 0x20 then
      ['\\', 'u', '0', '0', hexDigit (c.toNat / 16), hexDigit (c.toNat % 16)]
    else [c]

def quote (s : List Char) : List Char := '"' :: s.flatMap escapeChar ++ ['"']

def readHex4 : List Char → Option Nat
  | a :: b :: c :: d :: _ => do
    return ((← hexValue a) * 4096 + (← hexValue b) * 256 + (← hexValue c) * 16 + (← hexValue d))
  | _ => none

/-- The character that an escape behind a backslash stands for, and how many characters it takes. -/
def readEscape : List Char → Option (Char × Nat)
  | [] => none
  | c :: cs =>
    match (('/', '/') :: shortEscapes).lookup c with
    | some value => some (value, 1)
    | none =>
      if c ≠ 'u' then none
      else do
        let n ← readHex4 cs
        if 0xDC00 ≤ n ∧ n ≤ 0xDFFF then none
        else if 0xD800 ≤ n ∧ n ≤ 0xDBFF then
          match cs.drop 4 with
          | '\\' :: 'u' :: low => do
            let m ← readHex4 low
            if 0xDC00 ≤ m ∧ m ≤ 0xDFFF then
              some (Char.ofNat (0x10000 + (n - 0xD800) * 0x400 + (m - 0xDC00)), 11)
            else none
          | _ => none
        else some (Char.ofNat n, 5)

/-- The text up to the closing quote, and what follows; `skip` characters of an escape are read. -/
def readQuoted (skip : Nat) : List Char → Option (List Char × List Char)
  | [] => none
  | c :: cs =>
    match skip with
    | n + 1 => readQuoted n cs
    | 0 =>
      if c = '"' then some ([], cs)
      else if c = '\\' then do
        let (value, taken) ← readEscape cs
        let (text, rest) ← readQuoted taken cs
        return (value :: text, rest)
      else if c.toNat < 0x20 then none
      else do
        let (text, rest) ← readQuoted 0 cs
        return (c :: text, rest)

def isSpace (c : Char) : Bool := c == ' ' || c == '\n' || c == '\t' || c == '\r'

/-- A document that is one string. -/
def readString (l : List Char) : Option String :=
  match l.dropWhile isSpace with
  | [] => none
  | c :: cs =>
    if c ≠ '"' then none
    else do
      let (text, rest) ← readQuoted 0 cs
      if rest.all isSpace then some (String.ofList text) else none

theorem readQuoted_taken (taken rest : List Char) :
    readQuoted taken.length (taken ++ rest) = readQuoted 0 rest := by
  induction taken with
  | nil => rfl
  | cons c taken ih => exact ih

theorem hexValue_hexDigit {n : Nat} (h : n < 16) : hexValue (hexDigit n) = some n := by
  interval_cases n <;> rfl

theorem lookup_of_shortEscape {letter value : Char} (h : (letter, value) ∈ shortEscapes) :
    (('/', '/') :: shortEscapes).lookup letter = some value := by
  have hAll : (shortEscapes.all fun entry =>
      (('/', '/') :: shortEscapes).lookup entry.1 == some entry.2) = true := by decide
  exact eq_of_beq (List.all_eq_true.mp hAll _ h)

theorem readEscape_control {c : Char} (h : c.toNat < 0x20) (rest : List Char) :
    readEscape ('u' :: '0' :: '0' :: hexDigit (c.toNat / 16) :: hexDigit (c.toNat % 16) :: rest) =
      some (c, 5) := by
  have hNone : (('/', '/') :: shortEscapes).lookup 'u' = none := by decide
  have hRead : readHex4 ('0' :: '0' :: hexDigit (c.toNat / 16) :: hexDigit (c.toNat % 16) :: rest) =
      some c.toNat := by
    have hValue : 0 * 4096 + 0 * 256 + c.toNat / 16 * 16 + c.toNat % 16 = c.toNat := by omega
    simp only [readHex4, hexValue_hexDigit (show c.toNat / 16 < 16 by omega),
      hexValue_hexDigit (show c.toNat % 16 < 16 by omega), show hexValue '0' = some 0 from rfl,
      Option.bind_eq_bind, Option.bind_some, hValue]
    rfl
  simp only [readEscape, hNone, hRead, ne_eq, not_true_eq_false, if_false, Option.bind_eq_bind,
    Option.bind_some]
  rw [if_neg (by omega), if_neg (by omega), Char.ofNat_toNat]

theorem escapeChar_cases (c : Char) :
    (∃ e, escapeChar c = '\\' :: e ∧ ∀ rest, readEscape (e ++ rest) = some (c, e.length)) ∨
    (escapeChar c = [c] ∧ c ≠ '"' ∧ c ≠ '\\' ∧ ¬ c.toNat < 0x20) := by
  unfold escapeChar
  split
  case h_1 letter value hFind =>
    have hMem := List.mem_of_find?_eq_some hFind
    obtain rfl : value = c := by simpa using List.find?_some hFind
    refine .inl ⟨[letter], rfl, fun rest => ?_⟩
    simp [readEscape, lookup_of_shortEscape hMem]
  case h_2 hFind =>
    split
    case isTrue hLow => exact .inl ⟨_, rfl, fun rest => readEscape_control hLow rest⟩
    case isFalse hLow =>
      have hNot := List.find?_eq_none.mp hFind
      refine .inr ⟨rfl, ?_, ?_, hLow⟩
      · rintro rfl
        exact hNot ('"', '"') (by decide) rfl
      · rintro rfl
        exact hNot ('\\', '\\') (by decide) rfl

theorem readQuoted_escapeChar (c : Char) (rest : List Char) :
    readQuoted 0 (escapeChar c ++ rest) =
      (readQuoted 0 rest).map fun (text, left) => (c :: text, left) := by
  rcases escapeChar_cases c with ⟨e, hEscape, hRead⟩ | ⟨hEscape, hQuote, hBack, hLow⟩
  · rw [hEscape, List.cons_append]
    simp only [readQuoted, show ¬ '\\' = '"' by decide, if_false, if_true, hRead,
      Option.bind_eq_bind, Option.bind_some, readQuoted_taken]
    cases readQuoted 0 rest <;> rfl
  · rw [hEscape, List.cons_append, List.nil_append, readQuoted]
    simp only [if_neg hQuote, if_neg hBack, if_neg hLow, Option.bind_eq_bind]
    cases readQuoted 0 rest <;> rfl

theorem readQuoted_quoted (s rest : List Char) :
    readQuoted 0 (s.flatMap escapeChar ++ '"' :: rest) = some (s, rest) := by
  induction s with
  | nil => simp only [List.flatMap_nil, List.nil_append, readQuoted, if_true]
  | cons c s ih =>
    rw [List.flatMap_cons, List.append_assoc, readQuoted_escapeChar, ih]
    exact Option.map_some ..

theorem readString_quote (s : String) : readString (quote s.toList) = some s := by
  have hSpace : (quote s.toList).dropWhile isSpace = quote s.toList :=
    List.dropWhile_cons_of_neg (by decide)
  rw [readString, hSpace, quote, List.cons_append]
  dsimp only
  rw [if_neg (not_not_intro rfl), readQuoted_quoted]
  exact congrArg some String.ofList_toList

theorem quote_append_inj {s t r r' : List Char} (h : quote s ++ r = quote t ++ r') :
    s = t ∧ r = r' := by
  have hBody : s.flatMap escapeChar ++ '"' :: r = t.flatMap escapeChar ++ '"' :: r' := by
    simpa [quote] using h
  have hRead := congrArg (readQuoted 0) hBody
  rw [readQuoted_quoted, readQuoted_quoted] at hRead
  exact Prod.ext_iff.mp (Option.some.inj hRead)

/-! ## The writer -/

mutual

def print : Json → List Char
  | .null => ['n', 'u', 'l', 'l']
  | .bool true => ['t', 'r', 'u', 'e']
  | .bool false => ['f', 'a', 'l', 's', 'e']
  | .posInt n => n.repr.toList
  | .negInt n => '-' :: n.natAbs.repr.toList
  | .float text => text.toList
  | .string s => quote s.toList
  | .array [] => ['[', ']']
  | .array (item :: items) => '[' :: print item ++ printItems items
  | .object [] => ['\x7b', '\x7d']
  | .object ((key, value) :: fields) =>
    '\x7b' :: quote key.toList ++ ':' :: print value ++ printFields fields

def printItems : List Json → List Char
  | [] => [']']
  | item :: items => ',' :: print item ++ printItems items

def printFields : List (String × Json) → List Char
  | [] => ['\x7d']
  | (key, value) :: fields => ',' :: quote key.toList ++ ':' :: print value ++ printFields fields

end

def toText (v : Json) : String := String.ofList (print v)

/-! ## Numbers -/

def isNumeral (c : Char) : Bool :=
  c.isDigit || c == '-' || c == '+' || c == '.' || c == 'e' || c == 'E'

def isFloatMark (c : Char) : Bool := c == '.' || c == 'e' || c == 'E'

mutual

/-- A negative integer is below zero, and the text of a float shows that it is one. -/
def wellFormed : Json → Bool
  | .negInt n => decide (n < 0)
  | .float text => text.toList.all isNumeral && text.toList.any isFloatMark
  | .array items => wellFormedItems items
  | .object fields => wellFormedFields fields
  | _ => true

def wellFormedItems : List Json → Bool
  | [] => true
  | item :: items => wellFormed item && wellFormedItems items

def wellFormedFields : List (String × Json) → Bool
  | [] => true
  | (_, value) :: fields => wellFormed value && wellFormedFields fields

end

/-- A value whose numbers are as a reader leaves them. -/
structure Value where
  json : Json
  wellFormed : wellFormed json = true

/-- What may follow a value: nothing that could belong to a number. -/
def Delimits (r : List Char) : Prop := ∀ c ∈ r.head?, isNumeral c = false

theorem numeral_append_inj {s t r r' : List Char} (hs : ∀ c ∈ s, isNumeral c = true)
    (ht : ∀ c ∈ t, isNumeral c = true) (hr : Delimits r) (hr' : Delimits r')
    (h : s ++ r = t ++ r') : s = t ∧ r = r' := by
  have hTake : ∀ {u v : List Char}, (∀ c ∈ u, isNumeral c = true) → Delimits v →
      (u ++ v).takeWhile isNumeral = u := by
    intro u v hu hv
    rw [List.takeWhile_append_of_pos hu]
    cases v with
    | nil => rw [List.takeWhile_nil, List.append_nil]
    | cons c v => rw [List.takeWhile_cons_of_neg (by simp [hv c rfl]), List.append_nil]
  have hSame : s = t := by rw [← hTake hs hr, h, hTake ht hr']
  subst hSame
  exact ⟨rfl, List.append_cancel_left h⟩

/-- The kind of number a text is: its marks, else its sign. -/
def numeralKind (text : List Char) : Nat :=
  if text.any isFloatMark then 2 else if text.head? = some '-' then 1 else 0

theorem isDigit_repr {n : Nat} {c : Char} (h : c ∈ n.repr.toList) : c.isDigit = true :=
  List.all_eq_true.mp (Text.all_isDigit_repr n) c h

theorem any_isFloatMark_repr (n : Nat) : n.repr.toList.any isFloatMark = false := by
  refine List.any_eq_false.mpr fun c hMem hMark => ?_
  have hDigit := isDigit_repr hMem
  simp only [isFloatMark, Bool.or_eq_true, beq_iff_eq] at hMark
  rcases hMark with (rfl | rfl) | rfl <;> exact absurd hDigit (by decide)

theorem numeralKind_posInt (n : Nat) : numeralKind (print (.posInt n)) = 0 := by
  have hHead : n.repr.toList.head? ≠ some '-' := fun hHead =>
    (Text.sign_not_digit (isDigit_repr (List.mem_of_head? hHead))).1 rfl
  rw [print, numeralKind, any_isFloatMark_repr, if_neg nofun, if_neg hHead]

theorem numeralKind_negInt (n : Int) : numeralKind (print (.negInt n)) = 1 := by
  have hAny : ('-' :: n.natAbs.repr.toList).any isFloatMark = false := by
    rw [List.any_cons, any_isFloatMark_repr]
    rfl
  rw [print, numeralKind, hAny, if_neg nofun, List.head?_cons, if_pos rfl]

theorem numeralKind_float {text : String} (h : wellFormed (.float text) = true) :
    numeralKind (print (.float text)) = 2 := by
  rw [wellFormed, Bool.and_eq_true] at h
  rw [print, numeralKind, if_pos h.2]

theorem repr_toList_inj {m n : Nat} (h : m.repr.toList = n.repr.toList) : m = n := by
  rw [← Text.digits_repr m, ← Text.digits_repr n, h]

/-! ## A text has one value -/

/-- The character a kind of value begins with; every number begins like `0`. -/
def leading (c : Char) : Char := if isNumeral c then '0' else c

def kind : Json → Char
  | .null => 'n'
  | .bool true => 't'
  | .bool false => 'f'
  | .posInt _ | .negInt _ | .float _ => '0'
  | .string _ => '"'
  | .array _ => '['
  | .object _ => '\x7b'

theorem isNumeral_digit {c : Char} (h : c.isDigit = true) : isNumeral c = true := by
  simp [isNumeral, h]

theorem number_cases {v : Json} (hKind : kind v = '0') :
    (∃ n, v = .posInt n) ∨ (∃ n, v = .negInt n) ∨ ∃ text, v = .float text := by
  cases v with
  | posInt n => exact .inl ⟨n, rfl⟩
  | negInt n => exact .inr (.inl ⟨n, rfl⟩)
  | float text => exact .inr (.inr ⟨text, rfl⟩)
  | bool b => cases b <;> exact absurd hKind (by decide)
  | null | string | array | object => exact absurd hKind (by simp [kind])

theorem print_number {v : Json} (hKind : kind v = '0') (hWf : wellFormed v = true) :
    print v ≠ [] ∧ ∀ c ∈ print v, isNumeral c = true := by
  obtain ⟨n, rfl⟩ | ⟨n, rfl⟩ | ⟨text, rfl⟩ := number_cases hKind
  · rw [print]
    exact ⟨Text.repr_toList_ne_nil n, fun c hMem => isNumeral_digit (isDigit_repr hMem)⟩
  · rw [print]
    refine ⟨List.cons_ne_nil _ _, fun c hMem => ?_⟩
    rcases List.mem_cons.mp hMem with rfl | hMem
    · rfl
    · exact isNumeral_digit (isDigit_repr hMem)
  · rw [wellFormed, Bool.and_eq_true] at hWf
    rw [print]
    refine ⟨fun hEmpty => ?_, List.all_eq_true.mp hWf.1⟩
    rw [hEmpty] at hWf
    exact nomatch hWf.2

theorem print_leading {v : Json} (hWf : wellFormed v = true) :
    ∃ c t, print v = c :: t ∧ leading c = kind v := by
  by_cases hKind : kind v = '0'
  · obtain ⟨hNe, hAll⟩ := print_number hKind hWf
    obtain ⟨c, t, hEq⟩ := List.exists_cons_of_ne_nil hNe
    refine ⟨c, t, hEq, ?_⟩
    rw [hKind, leading, if_pos (hAll c (hEq ▸ List.mem_cons_self))]
  · cases v with
    | bool b => cases b <;> exact ⟨_, _, rfl, rfl⟩
    | array items => cases items <;> exact ⟨_, _, rfl, rfl⟩
    | object fields => rcases fields with - | ⟨⟨key, value⟩, fields⟩ <;> exact ⟨_, _, rfl, rfl⟩
    | null | string => exact ⟨_, _, rfl, rfl⟩
    | posInt | negInt | float => exact absurd rfl hKind

theorem kind_eq_of_print {v w : Json} {r r' : List Char} (hv : wellFormed v = true)
    (hw : wellFormed w = true) (h : print v ++ r = print w ++ r') : kind v = kind w := by
  obtain ⟨c, t, hPrint, hLead⟩ := print_leading hv
  obtain ⟨d, u, hPrint', hLead'⟩ := print_leading hw
  rw [hPrint, hPrint', List.cons_append, List.cons_append] at h
  rw [← hLead, ← hLead', (List.cons.inj h).1]

theorem print_number_inj {v w : Json} (hv : wellFormed v = true) (hw : wellFormed w = true)
    (hKind : kind v = '0') (hKind' : kind w = '0') (h : print v = print w) : v = w := by
  have hSame : numeralKind (print v) = numeralKind (print w) := by rw [h]
  obtain ⟨m, rfl⟩ | ⟨m, rfl⟩ | ⟨text, rfl⟩ := number_cases hKind
  · rw [numeralKind_posInt] at hSame
    obtain ⟨n, rfl⟩ | ⟨n, rfl⟩ | ⟨other, rfl⟩ := number_cases hKind'
    · rw [print, print] at h
      rw [repr_toList_inj h]
    · rw [numeralKind_negInt] at hSame
      exact nomatch hSame
    · rw [numeralKind_float hw] at hSame
      exact nomatch hSame
  · rw [numeralKind_negInt] at hSame
    obtain ⟨n, rfl⟩ | ⟨n, rfl⟩ | ⟨other, rfl⟩ := number_cases hKind'
    · rw [numeralKind_posInt] at hSame
      exact nomatch hSame
    · rw [print, print] at h
      have hAbs := repr_toList_inj (List.cons.inj h).2
      simp only [wellFormed, decide_eq_true_eq] at hv hw
      rw [show m = n by omega]
    · rw [numeralKind_float hw] at hSame
      exact nomatch hSame
  · rw [numeralKind_float hv] at hSame
    obtain ⟨n, rfl⟩ | ⟨n, rfl⟩ | ⟨other, rfl⟩ := number_cases hKind'
    · rw [numeralKind_posInt] at hSame
      exact nomatch hSame
    · rw [numeralKind_negInt] at hSame
      exact nomatch hSame
    · rw [print, print] at h
      rw [String.toList_inj.mp h]

theorem delimits_cons {c : Char} (h : isNumeral c = false) (r : List Char) : Delimits (c :: r) := by
  rintro d ⟨⟩
  exact h

theorem printItems_delimits (items : List Json) (r : List Char) :
    Delimits (printItems items ++ r) := by
  cases items <;> exact delimits_cons rfl _

theorem printFields_delimits (fields : List (String × Json)) (r : List Char) :
    Delimits (printFields fields ++ r) := by
  rcases fields with - | ⟨⟨key, value⟩, fields⟩ <;> exact delimits_cons rfl _

theorem of_kind (w : Json) :
    (kind w = 'n' → w = .null) ∧ (∀ b, kind w = kind (.bool b) → w = .bool b) ∧
    (kind w = '"' → ∃ s, w = .string s) ∧ (kind w = '[' → ∃ items, w = .array items) ∧
    (kind w = '\x7b' → ∃ fields, w = .object fields) := by
  cases w with
  | bool b => cases b <;> simp [kind]
  | _ => simp [kind]

/-- No value begins like the end of an array. -/
theorem print_ne_close {v : Json} (hv : wellFormed v = true) {r r' : List Char}
    (h : ']' :: r = print v ++ r') : False := by
  obtain ⟨d, t, hPrint, hLead⟩ := print_leading hv
  rw [hPrint, List.cons_append] at h
  rw [← (List.cons.inj h).1] at hLead
  cases v with
  | bool b => cases b <;> exact absurd hLead (by decide)
  | _ => exact absurd hLead (by simp [kind, leading, isNumeral])

mutual

theorem print_append_inj (v w : Json) (r r' : List Char) (hv : wellFormed v = true)
    (hw : wellFormed w = true) (hr : Delimits r) (hr' : Delimits r')
    (h : print v ++ r = print w ++ r') : v = w ∧ r = r' := by
  have hKind := kind_eq_of_print hv hw h
  obtain ⟨hNull, hBool, hString, hArray, hObject⟩ := of_kind w
  by_cases hNumber : kind v = '0'
  · have hNumber' : kind w = '0' := hKind ▸ hNumber
    obtain ⟨hText, hRest⟩ := numeral_append_inj (print_number hNumber hv).2
      (print_number hNumber' hw).2 hr hr' h
    exact ⟨print_number_inj hv hw hNumber hNumber' hText, hRest⟩
  · cases v with
    | posInt | negInt | float => exact absurd rfl hNumber
    | null =>
      obtain rfl := hNull hKind.symm
      exact ⟨rfl, List.append_cancel_left h⟩
    | bool b =>
      obtain rfl := hBool b hKind.symm
      exact ⟨rfl, List.append_cancel_left h⟩
    | string s =>
      obtain ⟨t, rfl⟩ := hString hKind.symm
      obtain ⟨hText, hRest⟩ := quote_append_inj h
      exact ⟨by rw [String.toList_inj.mp hText], hRest⟩
    | array items =>
      obtain ⟨items', rfl⟩ := hArray hKind.symm
      cases items with
      | nil =>
        cases items' with
        | nil => exact ⟨rfl, List.append_cancel_left h⟩
        | cons item' items' =>
          simp only [print, List.cons_append, List.nil_append, List.append_assoc] at h
          simp only [wellFormed, wellFormedItems, Bool.and_eq_true] at hw
          exact (print_ne_close hw.1 (List.cons.inj h).2).elim
      | cons item items =>
        cases items' with
        | nil =>
          simp only [print, List.cons_append, List.nil_append, List.append_assoc] at h
          simp only [wellFormed, wellFormedItems, Bool.and_eq_true] at hv
          exact (print_ne_close hv.1 (List.cons.inj h).2.symm).elim
        | cons item' items' =>
          have hItems : printItems (item :: items) ++ r = printItems (item' :: items') ++ r' :=
            congrArg (',' :: ·) (List.cons.inj h).2
          obtain ⟨hItems, hRest⟩ := printItems_append_inj _ _ r r' hv hw hItems
          exact ⟨congrArg Json.array hItems, hRest⟩
    | object fields =>
      obtain ⟨fields', rfl⟩ := hObject hKind.symm
      cases fields with
      | nil =>
        cases fields' with
        | nil => exact ⟨rfl, List.append_cancel_left h⟩
        | cons field' fields' => exact absurd (List.cons.inj (List.cons.inj h).2).1 (by decide)
      | cons field fields =>
        cases fields' with
        | nil => exact absurd (List.cons.inj (List.cons.inj h).2).1 (by decide)
        | cons field' fields' =>
          have hFields : printFields (field :: fields) ++ r = printFields (field' :: fields') ++ r' :=
            congrArg (',' :: ·) (List.cons.inj h).2
          obtain ⟨hFields, hRest⟩ := printFields_append_inj _ _ r r' hv hw hFields
          exact ⟨congrArg Json.object hFields, hRest⟩
termination_by sizeOf v

theorem printItems_append_inj (items items' : List Json) (r r' : List Char)
    (hv : wellFormedItems items = true) (hw : wellFormedItems items' = true)
    (h : printItems items ++ r = printItems items' ++ r') : items = items' ∧ r = r' := by
  cases items with
  | nil =>
    cases items' with
    | nil => exact ⟨rfl, List.append_cancel_left h⟩
    | cons item' items' => exact absurd (List.cons.inj h).1 (by decide)
  | cons item items =>
    cases items' with
    | nil => exact absurd (List.cons.inj h).1 (by decide)
    | cons item' items' =>
      simp only [printItems, List.cons_append, List.append_assoc] at h
      simp only [wellFormedItems, Bool.and_eq_true] at hv hw
      obtain ⟨hItem, hItems⟩ := print_append_inj item item' _ _ hv.1 hw.1
        (printItems_delimits _ _) (printItems_delimits _ _) (List.cons.inj h).2
      obtain ⟨hItems, hRest⟩ := printItems_append_inj items items' r r' hv.2 hw.2 hItems
      exact ⟨by rw [hItem, hItems], hRest⟩
termination_by sizeOf items

theorem printFields_append_inj (fields fields' : List (String × Json)) (r r' : List Char)
    (hv : wellFormedFields fields = true) (hw : wellFormedFields fields' = true)
    (h : printFields fields ++ r = printFields fields' ++ r') : fields = fields' ∧ r = r' := by
  match fields, fields' with
  | [], [] => exact ⟨rfl, List.append_cancel_left h⟩
  | [], _ :: _ => exact absurd (List.cons.inj h).1 (by simp)
  | _ :: _, [] => exact absurd (List.cons.inj h).1 (by simp)
  | (key, value) :: fields, (key', value') :: fields' =>
    simp only [printFields, List.cons_append, List.append_assoc] at h
    simp only [wellFormedFields, Bool.and_eq_true] at hv hw
    obtain ⟨hKey, hField⟩ := quote_append_inj (List.cons.inj h).2
    obtain ⟨hValue, hFields⟩ := print_append_inj value value' _ _ hv.1 hw.1
      (printFields_delimits _ _) (printFields_delimits _ _) (List.cons.inj hField).2
    obtain ⟨hFields, hRest⟩ := printFields_append_inj fields fields' r r' hv.2 hw.2 hFields
    exact ⟨by rw [String.toList_inj.mp hKey, hValue, hFields], hRest⟩
termination_by sizeOf fields

end

theorem toText_inj {v w : Value} (h : toText v.json = toText w.json) : v = w := by
  have hPrint : print v.json ++ [] = print w.json ++ [] := by rw [String.ofList_injective h]
  obtain ⟨hSame, -⟩ := print_append_inj v.json w.json [] [] v.wellFormed w.wellFormed nofun nofun hPrint
  cases v
  cases w
  cases hSame
  rfl

end Exosuit.Lib.JsonText
