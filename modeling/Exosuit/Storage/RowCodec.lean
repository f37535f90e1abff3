import Exosuit.Lib.Text

/-!
# Rows as statements

The dump writes a row as one INSERT statement, and the import reads statements line by line.
The readers go by characters: what they look for is ASCII, so the bytes of another character
never match. Floats and blobs, which the import does not read, are left out.
-/

namespace Exosuit.Dump

open Lib

inductive SqlValue
  | null
  | integer (i : Int64)
  | text (s : String)
deriving DecidableEq

abbrev Row := List (String × SqlValue)

/-! ## Writing -/

def escapeChar (ch : Char) : List Char :=
  if ch = '\x27' then ['\x27', '\x27']
  else if ch = '\\' then ['\\', '\\']
  else if ch = '\n' then ['\\', 'n']
  else if ch = '\r' then ['\\', 'r']
  else [ch]

def sqlEscape (s : String) : String := String.ofList (s.toList.flatMap escapeChar)

def valueToSql : SqlValue → String
  | .null => "NULL"
  | .integer i => toString i.toInt
  | .text s => "'" ++ sqlEscape s ++ "'"

def rowToInsert (table : String) (row : Row) : String :=
  "INSERT INTO " ++ table ++ "(" ++ ", ".intercalate (row.map Prod.fst) ++ ") VALUES(" ++
    ", ".intercalate (row.map fun e => valueToSql e.2) ++ ");"

/-- The rows of a table's dump, one `writeln!` each. -/
def dumpBody (table : String) (rows : List Row) : String :=
  String.ofList (rows.flatMap fun row => (rowToInsert table row).toList ++ ['\n'])

/-! ## Reading -/

structure ImportError where
  table : String
  line : Nat
  message : String
deriving DecidableEq

structure ParsedInsert where
  columns : List String
  values : List SqlValue
deriving DecidableEq

/-- `find_closing_paren`: the text before the parenthesis that closes, past quoted texts. -/
def beforeClosingParen : (quoted : Bool) → List Char → Option (List Char)
  | _, [] => none
  | false, c :: cs =>
    if c = ')' then some []
    else (beforeClosingParen (c == '\x27') cs).map (c :: ·)
  | true, '\x27' :: '\x27' :: cs => (beforeClosingParen true cs).map ('\x27' :: '\x27' :: ·)
  | true, c :: cs => (beforeClosingParen (c != '\x27') cs).map (c :: ·)

def quotedText : List Char → Option (List Char × List Char)
  | [] => none
  | '\x27' :: '\x27' :: cs => (quotedText cs).map fun r => ('\x27' :: r.1, r.2)
  | '\x27' :: cs => some ([], cs)
  | '\\' :: 'n' :: cs => (quotedText cs).map fun r => ('\n' :: r.1, r.2)
  | '\\' :: 'r' :: cs => (quotedText cs).map fun r => ('\r' :: r.1, r.2)
  | '\\' :: '\\' :: cs => (quotedText cs).map fun r => ('\\' :: r.1, r.2)
  | c :: cs => (quotedText cs).map fun r => (c :: r.1, r.2)

def skipBlanks (cs : List Char) : List Char := cs.dropWhile (· == ' ')

def skipSeparators (cs : List Char) : List Char := cs.dropWhile fun c => c == ' ' || c == ','

def firstByte (c : Char) : Char := Char.ofNat (((String.ofList [c]).toUTF8.toList.map UInt8.toNat).headD 0)

/-- The value that starts with a character, and what follows it; the position is for the message. -/
def parseValue (position : Nat) (c : Char) (cs : List Char) : Except String (SqlValue × List Char) :=
  if c = '\x27' then
    match quotedText cs with
    | some (text, rest) => .ok (.text (String.ofList text), rest)
    | none => .error "unterminated string literal"
  else if "NULL".toList.isPrefixOf (c :: cs) then .ok (.null, (c :: cs).drop 4)
  else if c = '-' ∨ c.isDigit then
    let numStr := String.ofList (c :: cs.takeWhile Char.isDigit)
    match Text.parseI64 numStr with
    | some n => .ok (.integer n, cs.dropWhile Char.isDigit)
    | none => .error ("invalid integer: " ++ numStr)
  else .error ("unexpected character at position " ++ toString position ++ ": '" ++
    (firstByte c).toString ++ "'")

theorem quotedText_length {cs text rest : List Char} (h : quotedText cs = some (text, rest)) :
    rest.length < cs.length := by
  fun_induction quotedText cs generalizing text
  case case1 => cases h
  case case3 =>
    cases h
    exact Nat.lt_succ_self _
  all_goals
    next ih =>
      obtain ⟨r, hRest, hEq⟩ := Option.map_eq_some_iff.mp h
      cases hEq
      have := ih hRest
      simp only [List.length_cons]
      omega

theorem parseValue_length {position : Nat} {c : Char} {cs rest : List Char} {v : SqlValue}
    (h : parseValue position c cs = .ok (v, rest)) : rest.length ≤ cs.length := by
  unfold parseValue at h
  split at h
  · split at h
    · next hText =>
      cases h
      exact Nat.le_of_lt (quotedText_length hText)
    · cases h
  · split at h
    · cases h
      rw [List.length_drop, List.length_cons]
      omega
    · split at h
      · dsimp only at h
        split at h
        · cases h
          exact (List.dropWhile_sublist _).length_le
        · cases h
      · cases h

/-- The loop of `parse_values` over the text that is left. -/
def parseValuesFrom (total : Nat) (values : List SqlValue) (cs : List Char) :
    Except String (List SqlValue) :=
  match _hBlanks : skipBlanks cs with
  | [] => .ok values
  | c :: rest =>
    match _hValue : parseValue (total - (String.ofList (c :: rest)).utf8ByteSize) c rest with
    | .error message => .error message
    | .ok (v, after) => parseValuesFrom total (values ++ [v]) (skipSeparators after)
termination_by cs.length
decreasing_by
  have hSeparators : (skipSeparators after).length ≤ after.length := (List.dropWhile_sublist _).length_le
  have hLength : (skipBlanks cs).length ≤ cs.length := (List.dropWhile_sublist _).length_le
  have hAfter := parseValue_length _hValue
  rw [_hBlanks, List.length_cons] at hLength
  omega

def parseValues (s table : String) (lineNum : Nat) : Except ImportError (List SqlValue) :=
  match parseValuesFrom s.utf8ByteSize [] s.toList with
  | .ok values => .ok values
  | .error message => .error ⟨table, lineNum, message⟩

def parseInsert (line table : String) (lineNum : Nat) : Except ImportError ParsedInsert :=
  let err (message : String) : Except ImportError ParsedInsert := .error ⟨table, lineNum, message⟩
  match Text.splitOnceList ['('] line.toList with
  | none => err "no opening paren for columns"
  | some (_, afterOpen) =>
    match Text.splitOnceList [')'] afterOpen with
    | none => err "no closing paren for columns"
    | some (colStr, afterCols) =>
      let columns := (Text.pieces [','] 0 colStr).map fun s => Text.trim (String.ofList s)
      match Text.splitOnceList "VALUES(".toList afterCols with
      | none => err "no VALUES( found"
      | some (_, valStr) =>
        match beforeClosingParen false valStr with
        | none => err "no closing paren for values"
        | some valContent =>
          match parseValues (String.ofList valContent) table lineNum with
          | .error e => .error e
          | .ok values =>
            if columns.length ≠ values.length then
              err ("column count (" ++ toString columns.length ++ ") != value count (" ++
                toString values.length ++ ")")
            else .ok ⟨columns, values⟩

/-! ## Text literals -/

theorem escapeChar_of_plain {c : Char} (hQuote : c ≠ '\x27') (hBackslash : c ≠ '\\') (hNewline : c ≠ '\n')
    (hReturn : c ≠ '\r') : escapeChar c = [c] := by
  rw [escapeChar, if_neg hQuote, if_neg hBackslash, if_neg hNewline, if_neg hReturn]

/-- The five kinds of characters that the writer tells apart. -/
theorem escapeChar_cases (c : Char) :
    (c = '\x27' ∨ c = '\\' ∨ c = '\n' ∨ c = '\r') ∨
      (c ≠ '\x27' ∧ c ≠ '\\' ∧ c ≠ '\n' ∧ c ≠ '\r') := by
  by_cases hSpecial : c = '\x27' ∨ c = '\\' ∨ c = '\n' ∨ c = '\r'
  · exact .inl hSpecial
  · simp only [not_or] at hSpecial
    exact .inr hSpecial

theorem quotedText_plain {c : Char} (hQuote : c ≠ '\x27') (hBackslash : c ≠ '\\') (cs : List Char) :
    quotedText (c :: cs) = (quotedText cs).map fun r => (c :: r.1, r.2) := by
  rw [quotedText]
  all_goals
    intros
    contradiction

theorem quotedText_close {rest : List Char} (hRest : rest.head? ≠ some '\x27') :
    quotedText ('\x27' :: rest) = some ([], rest) := by
  rw [quotedText]
  rintro cs rfl
  exact hRest rfl

theorem quotedText_escape (s : List Char) {rest : List Char} (hRest : rest.head? ≠ some '\x27') :
    quotedText (s.flatMap escapeChar ++ '\x27' :: rest) = some (s, rest) := by
  induction s with
  | nil => exact quotedText_close hRest
  | cons c s ih =>
    rw [List.flatMap_cons, List.append_assoc]
    rcases escapeChar_cases c with (rfl | rfl | rfl | rfl) | ⟨hQuote, hBackslash, hNewline, hReturn⟩
    · change quotedText (['\x27', '\x27'] ++ _) = _
      rw [List.cons_append, List.singleton_append, quotedText, ih]
      rfl
    · change quotedText (['\\', '\\'] ++ _) = _
      rw [List.cons_append, List.singleton_append, quotedText, ih]
      rfl
    · change quotedText (['\\', 'n'] ++ _) = _
      rw [List.cons_append, List.singleton_append, quotedText, ih]
      rfl
    · change quotedText (['\\', 'r'] ++ _) = _
      rw [List.cons_append, List.singleton_append, quotedText, ih]
      rfl
    · rw [escapeChar_of_plain hQuote hBackslash hNewline hReturn, List.singleton_append,
        quotedText_plain hQuote hBackslash, ih]
      rfl

theorem beforeClosingParen_plain {c : Char} (hParen : c ≠ ')') (hQuote : c ≠ '\x27') (cs : List Char) :
    beforeClosingParen false (c :: cs) = (beforeClosingParen false cs).map (c :: ·) := by
  rw [beforeClosingParen, if_neg hParen, beq_eq_false_iff_ne.mpr hQuote]

theorem beforeClosingParen_quoted {c : Char} (hQuote : c ≠ '\x27') (cs : List Char) :
    beforeClosingParen true (c :: cs) = (beforeClosingParen true cs).map (c :: ·) := by
  rw [beforeClosingParen, bne_iff_ne.mpr hQuote]
  rintro cs rfl
  exact fun _ => hQuote rfl

theorem beforeClosingParen_escape (s : List Char) {rest : List Char} (hRest : rest.head? ≠ some '\x27') :
    beforeClosingParen true (s.flatMap escapeChar ++ '\x27' :: rest) =
      (beforeClosingParen false rest).map (s.flatMap escapeChar ++ '\x27' :: ·) := by
  induction s with
  | nil =>
    rw [List.flatMap_nil, List.nil_append, beforeClosingParen]
    · rfl
    · rintro cs - rfl
      exact hRest rfl
  | cons c s ih =>
    have hMap : ∀ l : List Char, (Option.map (s.flatMap escapeChar ++ '\x27' :: ·)
        (beforeClosingParen false rest)).map (l ++ ·) =
        (beforeClosingParen false rest).map ((l ++ s.flatMap escapeChar) ++ '\x27' :: ·) := by
      intro l
      rw [Option.map_map]
      exact congrArg (fun f => Option.map f _) (funext fun x => (List.append_assoc ..).symm)
    rw [List.flatMap_cons, List.append_assoc, ← hMap, ← ih]
    rcases escapeChar_cases c with (rfl | rfl | rfl | rfl) | ⟨hQuote, hBackslash, hNewline, hReturn⟩
    · change beforeClosingParen true (['\x27', '\x27'] ++ _) = _
      rw [List.cons_append, List.singleton_append, beforeClosingParen]
      rfl
    · change beforeClosingParen true (['\\', '\\'] ++ _) = _
      rw [List.cons_append, List.singleton_append, beforeClosingParen_quoted (by decide), beforeClosingParen_quoted (by decide), Option.map_map]
      rfl
    · change beforeClosingParen true (['\\', 'n'] ++ _) = _
      rw [List.cons_append, List.singleton_append, beforeClosingParen_quoted (by decide), beforeClosingParen_quoted (by decide), Option.map_map]
      rfl
    · change beforeClosingParen true (['\\', 'r'] ++ _) = _
      rw [List.cons_append, List.singleton_append, beforeClosingParen_quoted (by decide), beforeClosingParen_quoted (by decide), Option.map_map]
      rfl
    · rw [escapeChar_of_plain hQuote hBackslash hNewline hReturn, List.singleton_append,
        beforeClosingParen_quoted hQuote]
      rfl

/-! ## Values -/

def valueChars (v : SqlValue) : List Char := (valueToSql v).toList

theorem valueChars_text (s : String) :
    valueChars (.text s) = '\x27' :: (s.toList.flatMap escapeChar ++ ['\x27']) := by
  simp [valueChars, valueToSql, sqlEscape]

theorem valueChars_integer (i : Int64) : ∃ c ds, valueChars (.integer i) = c :: ds ∧
    (c = '-' ∨ c.isDigit = true) ∧ ds.all Char.isDigit = true := by
  rw [valueChars, valueToSql]
  cases i.toInt with
  | ofNat n =>
    obtain ⟨c, ds, hDigits⟩ := List.exists_cons_of_ne_nil (Text.repr_toList_ne_nil n)
    have hAll := Text.all_isDigit_repr n
    rw [hDigits, List.all_cons, Bool.and_eq_true] at hAll
    exact ⟨c, ds, hDigits, .inr hAll.1, hAll.2⟩
  | negSucc n =>
    refine ⟨'-', (n + 1).repr.toList, ?_, .inl rfl, Text.all_isDigit_repr (n + 1)⟩
    change ("-" ++ (n + 1).repr).toList = _
    rw [String.toList_append]
    rfl

/-- What stands behind a value: the end, or a comma. -/
def Separated (rest : List Char) : Prop := rest = [] ∨ rest.head? = some ','

theorem Separated.head_ne {rest : List Char} (h : Separated rest) {c : Char} (hc : c ≠ ',') :
    rest.head? ≠ some c := by
  rcases h with rfl | hHead
  · exact nofun
  · rw [hHead]
    exact fun hSame => hc (Option.some.inj hSame).symm

theorem Separated.digits {rest ds : List Char} (h : Separated rest) (hDigits : ds.all Char.isDigit = true) :
    (ds ++ rest).takeWhile Char.isDigit = ds ∧ (ds ++ rest).dropWhile Char.isDigit = rest := by
  have hAll : ∀ c ∈ ds, c.isDigit = true := List.all_eq_true.mp hDigits
  rw [List.takeWhile_append_of_pos hAll, List.dropWhile_append_of_pos hAll]
  rcases h with rfl | hHead
  · exact ⟨List.append_nil _, rfl⟩
  · cases rest with
    | nil => cases hHead
    | cons c rest =>
      obtain rfl := Option.some.inj hHead
      have hComma : Char.isDigit ',' = false := by decide
      rw [List.takeWhile_cons, List.dropWhile_cons, hComma]
      exact ⟨List.append_nil _, rfl⟩

theorem digit_not_special {c : Char} (h : c = '-' ∨ c.isDigit = true) :
    c ≠ '\x27' ∧ c ≠ 'N' ∧ c ≠ ')' ∧ c ≠ ' ' ∧ c ≠ ',' := by
  refine ⟨?_, ?_, ?_, ?_, ?_⟩ <;> rintro rfl <;> rcases h with h | h <;> exact absurd h (by decide)

theorem parseValue_valueChars (v : SqlValue) : ∃ c cs, valueChars v = c :: cs ∧ c ≠ ' ' ∧ c ≠ ',' ∧
    ∀ position rest, Separated rest → parseValue position c (cs ++ rest) = .ok (v, rest) := by
  cases v with
  | null =>
    refine ⟨'N', ['U', 'L', 'L'], rfl, by decide, by decide, fun position rest _ => ?_⟩
    rw [parseValue, if_neg (by decide), if_pos (by simp [List.isPrefixOf])]
    rfl
  | integer i =>
    obtain ⟨c, ds, hChars, hSign, hDigits⟩ := valueChars_integer i
    obtain ⟨hQuote, hN, -, hBlank, hComma⟩ := digit_not_special hSign
    refine ⟨c, ds, hChars, hBlank, hComma, fun position rest hRest => ?_⟩
    obtain ⟨hTake, hDrop⟩ := hRest.digits hDigits
    have hNull : "NULL".toList.isPrefixOf (c :: (ds ++ rest)) = false := by
      simp [List.isPrefixOf, Ne.symm hN]
    have hNum : Text.parseI64 (String.ofList (c :: ds)) = some i := by
      rw [← hChars, valueChars, valueToSql, String.ofList_toList, Text.parseI64_toString]
    rw [parseValue, if_neg hQuote, hNull, if_neg nofun, if_pos hSign, hTake, hDrop]
    dsimp only
    rw [hNum]
  | text s =>
    refine ⟨'\x27', s.toList.flatMap escapeChar ++ ['\x27'], valueChars_text s, by decide, by decide,
      fun position rest hRest => ?_⟩
    rw [parseValue, if_pos rfl, List.append_assoc, List.singleton_append,
      quotedText_escape _ (hRest.head_ne (by decide))]
    dsimp only
    rw [String.ofList_toList]

theorem beforeClosingParen_digits {ds : List Char} (hDigits : ∀ c ∈ ds, c ≠ ')' ∧ c ≠ '\x27')
    (rest : List Char) :
    beforeClosingParen false (ds ++ rest) = (beforeClosingParen false rest).map (ds ++ ·) := by
  induction ds with
  | nil => exact Option.map_id'.symm
  | cons c ds ih =>
    obtain ⟨hParen, hQuote⟩ := hDigits c List.mem_cons_self
    rw [List.cons_append, beforeClosingParen_plain hParen hQuote,
      ih fun c hc => hDigits c (List.mem_cons_of_mem _ hc), Option.map_map]
    rfl

theorem beforeClosingParen_valueChars (v : SqlValue) {rest : List Char} (hRest : rest.head? ≠ some '\x27') :
    beforeClosingParen false (valueChars v ++ rest) =
      (beforeClosingParen false rest).map (valueChars v ++ ·) := by
  cases v with
  | null =>
    change beforeClosingParen false (['N', 'U', 'L', 'L'] ++ rest) = _
    refine beforeClosingParen_digits ?_ rest
    simp
  | integer i =>
    obtain ⟨c, ds, hChars, hSign, hDigits⟩ := valueChars_integer i
    refine beforeClosingParen_digits (fun d hd => ?_) rest
    have hDigit : d = '-' ∨ d.isDigit = true := by
      rw [hChars, List.mem_cons] at hd
      rcases hd with rfl | hd
      · exact hSign
      · exact .inr (List.all_eq_true.mp hDigits d hd)
    exact ⟨(digit_not_special hDigit).2.2.1, (digit_not_special hDigit).1⟩
  | text s =>
    rw [valueChars_text, List.cons_append, List.append_assoc, List.singleton_append, beforeClosingParen,
      if_neg (by decide), beq_self_eq_true, beforeClosingParen_escape _ hRest, Option.map_map]
    refine congrArg (fun f => Option.map f _) (funext fun x => ?_)
    simp

/-! ## Rows -/

def valuesChars (values : List SqlValue) : List Char := List.intercalate [',', ' '] (values.map valueChars)

theorem valuesChars_cons (v : SqlValue) (values : List SqlValue) :
    valuesChars (v :: values) =
      valueChars v ++ if values = [] then [] else ',' :: ' ' :: valuesChars values := by
  rw [valuesChars, List.map_cons, Text.intercalate_cons]
  simp only [List.map_eq_nil_iff]
  rfl

theorem beforeClosingParen_valuesChars (values : List SqlValue) (rest : List Char) :
    beforeClosingParen false (valuesChars values ++ ')' :: rest) = some (valuesChars values) := by
  induction values with
  | nil => exact if_pos rfl
  | cons v values ih =>
    rw [valuesChars_cons]
    split
    · case isTrue =>
      rw [List.append_nil, beforeClosingParen_valueChars v (by simp), beforeClosingParen, if_pos rfl,
        Option.map_some, List.append_nil]
    · case isFalse =>
      rw [List.append_assoc, List.cons_append, List.cons_append, beforeClosingParen_valueChars v (by simp),
        beforeClosingParen_plain (by decide) (by decide), beforeClosingParen_plain (by decide) (by decide), ih]
      rfl

theorem parseValuesFrom_step {total : Nat} {values : List SqlValue} {cs rest after : List Char} {c : Char}
    {v : SqlValue} (hBlanks : skipBlanks cs = c :: rest)
    (hValue : ∀ position, parseValue position c rest = .ok (v, after)) :
    parseValuesFrom total values cs = parseValuesFrom total (values ++ [v]) (skipSeparators after) := by
  rw [parseValuesFrom]
  split
  · next h => exact nomatch hBlanks.symm.trans h
  · next c' rest' h =>
    cases hBlanks.symm.trans h
    split
    · next h => exact nomatch (hValue _).symm.trans h
    · next h =>
      cases (hValue _).symm.trans h
      rfl

theorem skipBlanks_of_ne {c : Char} (h : c ≠ ' ') (cs : List Char) : skipBlanks (c :: cs) = c :: cs := by
  rw [skipBlanks, List.dropWhile_cons, beq_eq_false_iff_ne.mpr h, if_neg nofun]

theorem skipSeparators_of_ne {c : Char} (hBlank : c ≠ ' ') (hComma : c ≠ ',') (cs : List Char) :
    skipSeparators (',' :: ' ' :: c :: cs) = c :: cs := by
  have hStop : (c == ' ' || c == ',') = false := by
    rw [beq_eq_false_iff_ne.mpr hBlank, beq_eq_false_iff_ne.mpr hComma]
    rfl
  change skipSeparators (c :: cs) = c :: cs
  rw [skipSeparators, List.dropWhile_cons, hStop, if_neg nofun]

theorem parseValuesFrom_valuesChars (total : Nat) (values before : List SqlValue) :
    parseValuesFrom total before (valuesChars values) = .ok (before ++ values) := by
  induction values generalizing before with
  | nil =>
    rw [parseValuesFrom]
    split
    · rw [List.append_nil]
    · next h => exact nomatch h
  | cons v values ih =>
    obtain ⟨c, cs, hChars, hBlank, hComma, hValue⟩ := parseValue_valueChars v
    rw [valuesChars_cons, hChars]
    cases values with
    | nil =>
      rw [if_pos rfl, List.cons_append, parseValuesFrom_step (skipBlanks_of_ne hBlank _) fun position =>
        hValue position [] (.inl rfl)]
      exact (ih (before ++ [v])).trans (by rw [List.append_nil])
    | cons next values =>
      obtain ⟨d, ds, hNext, hBlank', hComma', -⟩ := parseValue_valueChars next
      have hRest : ∃ tail, valuesChars (next :: values) = d :: tail := by
        rw [valuesChars_cons, hNext]
        exact ⟨_, List.cons_append⟩
      obtain ⟨tail, hTail⟩ := hRest
      have hStep : ∀ position, parseValue position c (cs ++ ',' :: ' ' :: valuesChars (next :: values)) =
          .ok (v, ',' :: ' ' :: valuesChars (next :: values)) := fun position => hValue position _ (.inr rfl)
      rw [if_neg (List.cons_ne_nil _ _), List.cons_append,
        parseValuesFrom_step (skipBlanks_of_ne hBlank _) hStep, hTail,
        skipSeparators_of_ne hBlank' hComma', ← hTail, ih (before ++ [v]), List.append_assoc, List.singleton_append]

/-! ## Statements -/

/-- Names that a statement can carry without quotes. -/
structure Named (table : String) (columns : List String) : Prop where
  table : '(' ∉ table.toList ∧ '\n' ∉ table.toList ∧ '\r' ∉ table.toList
  nonempty : columns ≠ []
  plain : ∀ name ∈ columns, ',' ∉ name.toList ∧ ')' ∉ name.toList ∧ '\n' ∉ name.toList ∧
    '\r' ∉ name.toList
  trimmed : ∀ name ∈ columns, Text.trim name = name

def columnsChars (columns : List String) : List Char := List.intercalate [',', ' '] (columns.map String.toList)

/-- What stands before the column list. -/
def insertInto (table : String) : List Char := ("INSERT INTO " ++ table).toList

theorem toList_statement (before table columns mid values after : String) :
    (before ++ table ++ "(" ++ columns ++ mid ++ values ++ after).toList =
      (before.toList ++ table.toList) ++
        '(' :: (columns.toList ++ (mid.toList ++ (values.toList ++ after.toList))) := by
  have hOpen : "(".toList = ['('] := by simp
  simp only [String.toList_append, hOpen, List.append_assoc, List.cons_append, List.nil_append]

theorem toList_rowToInsert (table : String) (row : Row) : (rowToInsert table row).toList =
    insertInto table ++ '(' :: (columnsChars (row.map Prod.fst) ++ ')' :: ([' '] ++ "VALUES(".toList ++
      (valuesChars (row.map Prod.snd) ++ [')', ';']))) := by
  have hComma : ", ".toList = [',', ' '] := by simp
  have hValues : (", ".intercalate (row.map fun e => valueToSql e.2)).toList =
      valuesChars (row.map Prod.snd) := by
    rw [String.toList_intercalate, hComma, valuesChars, List.map_map, List.map_map]
    rfl
  have hColumns : (", ".intercalate (row.map Prod.fst)).toList = columnsChars (row.map Prod.fst) := by
    rw [String.toList_intercalate, hComma, columnsChars]
  have hMid : ") VALUES(".toList = ')' :: ([' '] ++ "VALUES(".toList) := by simp
  have hEnd : ");".toList = [')', ';'] := by simp
  unfold rowToInsert
  rw [toList_statement, hColumns, hValues, hMid, hEnd]
  change _ = ("INSERT INTO " ++ table).toList ++ _
  rw [String.toList_append]
  simp only [List.append_assoc, List.cons_append]

/-! ## Column names -/

theorem trim_lead {name : String} (hTrimmed : Text.trim name = name) {lead : List Char}
    (hLead : lead = [] ∨ lead = [' ']) : Text.trim (String.ofList (lead ++ name.toList)) = name := by
  rcases hLead with rfl | rfl
  · rw [List.nil_append, String.ofList_toList, hTrimmed]
  · have hBlank : Text.isWhitespace ' ' = true := by decide
    rw [Text.trim, String.toList_ofList, List.singleton_append, Text.trimList, List.dropWhile_cons, hBlank,
      if_pos rfl]
    exact hTrimmed

theorem comma_not_mem_lead {name : String} (hComma : ',' ∉ name.toList) {lead : List Char}
    (hLead : lead = [] ∨ lead = [' ']) : ',' ∉ lead ++ name.toList := by
  rcases hLead with rfl | rfl <;> simpa using hComma

theorem columnsChars_cons (first next : String) (columns : List String) :
    columnsChars (first :: next :: columns) =
      first.toList ++ ',' :: ([' '] ++ columnsChars (next :: columns)) := by
  rw [columnsChars, List.map_cons, Text.intercalate_cons, if_neg (by simp), columnsChars]
  rfl

theorem columns_pieces {first : String} {columns : List String}
    (hComma : ∀ name ∈ first :: columns, ',' ∉ name.toList)
    (hTrimmed : ∀ name ∈ first :: columns, Text.trim name = name) {lead : List Char}
    (hLead : lead = [] ∨ lead = [' ']) :
    (Text.pieces [','] 0 (lead ++ columnsChars (first :: columns))).map
      (fun s => Text.trim (String.ofList s)) = first :: columns := by
  have hFirst := comma_not_mem_lead (hComma first List.mem_cons_self) hLead
  have hTrim := trim_lead (hTrimmed first List.mem_cons_self) hLead
  induction columns generalizing first lead with
  | nil =>
    rw [columnsChars, List.map_singleton, List.intercalate_singleton, Text.pieces_of_not_mem hFirst,
      List.map_singleton, hTrim]
  | cons next columns ih =>
    have hComma' : ∀ name ∈ next :: columns, ',' ∉ name.toList :=
      fun name hName => hComma name (List.mem_cons_of_mem _ hName)
    have hTrimmed' : ∀ name ∈ next :: columns, Text.trim name = name :=
      fun name hName => hTrimmed name (List.mem_cons_of_mem _ hName)
    have hRest := ih hComma' hTrimmed' (.inr rfl)
      (comma_not_mem_lead (hComma' next List.mem_cons_self) (.inr rfl))
      (trim_lead (hTrimmed' next List.mem_cons_self) (.inr rfl))
    rw [columnsChars_cons, ← List.append_assoc, Text.pieces_char hFirst, List.map_cons, hTrim, hRest]

/-! ## Lines -/

/-- A character ends no line. -/
def Inline (c : Char) : Prop := c ≠ '\n' ∧ c ≠ '\r'

theorem escapeChar_inline {c d : Char} (h : d ∈ escapeChar c) : Inline d := by
  rcases escapeChar_cases c with (rfl | rfl | rfl | rfl) | ⟨hQuote, hBackslash, hNewline, hReturn⟩
  · change d ∈ ['\x27', '\x27'] at h
    simp only [List.mem_cons, List.not_mem_nil, or_false, or_self] at h
    rw [h]
    exact ⟨by decide, by decide⟩
  · change d ∈ ['\\', '\\'] at h
    simp only [List.mem_cons, List.not_mem_nil, or_false, or_self] at h
    rw [h]
    exact ⟨by decide, by decide⟩
  · change d ∈ ['\\', 'n'] at h
    simp only [List.mem_cons, List.not_mem_nil, or_false] at h
    rcases h with rfl | rfl <;> exact ⟨by decide, by decide⟩
  · change d ∈ ['\\', 'r'] at h
    simp only [List.mem_cons, List.not_mem_nil, or_false] at h
    rcases h with rfl | rfl <;> exact ⟨by decide, by decide⟩
  · rw [escapeChar_of_plain hQuote hBackslash hNewline hReturn, List.mem_singleton] at h
    rw [h]
    exact ⟨hNewline, hReturn⟩

theorem digit_inline {c : Char} (h : c = '-' ∨ c.isDigit = true) : Inline c := by
  constructor <;> rintro rfl <;> rcases h with h | h <;> exact absurd h (by decide)

theorem valueChars_inline {v : SqlValue} {c : Char} (h : c ∈ valueChars v) : Inline c := by
  cases v with
  | null =>
    change c ∈ ['N', 'U', 'L', 'L'] at h
    simp only [List.mem_cons, List.not_mem_nil, or_false] at h
    rcases h with rfl | rfl | rfl | rfl <;> exact ⟨by decide, by decide⟩
  | integer i =>
    obtain ⟨d, ds, hChars, hSign, hDigits⟩ := valueChars_integer i
    rw [hChars, List.mem_cons] at h
    rcases h with rfl | hMem
    · exact digit_inline hSign
    · exact digit_inline (.inr (List.all_eq_true.mp hDigits c hMem))
  | text s =>
    have hQuote : Inline '\x27' := ⟨by decide, by decide⟩
    rw [valueChars_text, List.mem_cons, List.mem_append, List.mem_singleton] at h
    rcases h with rfl | hEscaped | rfl
    · exact hQuote
    · obtain ⟨d, -, hMem⟩ := List.mem_flatMap.mp hEscaped
      exact escapeChar_inline hMem
    · exact hQuote

theorem comma_inline {c : Char} (h : c ∈ [',', ' ']) : Inline c := by
  simp only [List.mem_cons, List.not_mem_nil, or_false] at h
  rcases h with rfl | rfl <;> exact ⟨by decide, by decide⟩

theorem valuesChars_inline {values : List SqlValue} {c : Char} (h : c ∈ valuesChars values) : Inline c := by
  rcases Text.mem_intercalate h with hComma | ⟨text, hText, hMem⟩
  · exact comma_inline hComma
  · obtain ⟨v, -, rfl⟩ := List.mem_map.mp hText
    exact valueChars_inline hMem

theorem Named.columnsChars {table : String} {columns : List String} (h : Named table columns) {c : Char}
    (hMem : c ∈ columnsChars columns) : Inline c ∧ c ≠ ')' := by
  rcases Text.mem_intercalate hMem with hComma | ⟨text, hText, hMem⟩
  · refine ⟨comma_inline hComma, ?_⟩
    rintro rfl
    simp at hComma
  · obtain ⟨name, hName, rfl⟩ := List.mem_map.mp hText
    obtain ⟨-, hParen, hNewline, hReturn⟩ := h.plain name hName
    refine ⟨⟨?_, ?_⟩, ?_⟩
    · exact fun hEq => hNewline (hEq ▸ hMem)
    · exact fun hEq => hReturn (hEq ▸ hMem)
    · exact fun hEq => hParen (hEq ▸ hMem)

theorem insertInto_chars {table : String} {c : Char} (h : c ∈ insertInto table) :
    c ∈ "INSERT INTO ".toList ∨ c ∈ table.toList := by
  rwa [insertInto, String.toList_append, List.mem_append] at h

theorem Named.insertInto {table : String} {columns : List String} (h : Named table columns) {c : Char}
    (hMem : c ∈ insertInto table) : Inline c ∧ c ≠ '(' := by
  rcases insertInto_chars hMem with hText | hTable
  · have hPlain : ("INSERT INTO ".toList.all fun c => c != '\n' && (c != '\r' && c != '(')) = true := by simp
    simpa [Inline, and_assoc] using List.all_eq_true.mp hPlain c hText
  · obtain ⟨hParen, hNewline, hReturn⟩ := h.table
    refine ⟨⟨?_, ?_⟩, ?_⟩
    · exact fun hEq => hNewline (hEq ▸ hTable)
    · exact fun hEq => hReturn (hEq ▸ hTable)
    · exact fun hEq => hParen (hEq ▸ hTable)

variable {table : String} {row : Row}

/-- A statement stays on its line. -/
theorem rowToInsert_inline (h : Named table (row.map Prod.fst)) {c : Char}
    (hMem : c ∈ (rowToInsert table row).toList) : Inline c := by
  have hMid : (([' '] ++ "VALUES(".toList).all fun c => c != '\n' && c != '\r') = true := by simp
  have hRest : ∀ d ∈ ['(', ')', ';'], Inline d := by
    intro d hd
    simp only [List.mem_cons, List.not_mem_nil, or_false] at hd
    rcases hd with rfl | rfl | rfl <;> exact ⟨by decide, by decide⟩
  rw [toList_rowToInsert, List.mem_append, List.mem_cons, List.mem_append, List.mem_cons,
    List.mem_append] at hMem
  rcases hMem with hInto | rfl | hColumns | rfl | hValues | hRow
  · exact (h.insertInto hInto).1
  · exact hRest _ (by simp)
  · exact (h.columnsChars hColumns).1
  · exact hRest _ (by simp)
  · simpa [Inline] using List.all_eq_true.mp hMid c hValues
  · rcases List.mem_append.mp hRow with hRow | hEnd
    · exact valuesChars_inline hRow
    · exact hRest c (List.mem_cons_of_mem _ hEnd)

theorem lines_dumpBody {rows : List Row} (h : ∀ row ∈ rows, Named table (row.map Prod.fst)) :
    Text.lines (dumpBody table rows) = rows.map (rowToInsert table) := by
  rw [Text.lines, dumpBody, String.toList_ofList]
  induction rows with
  | nil => rfl
  | cons row rows ih =>
    have hNewline : '\n' ∉ (rowToInsert table row).toList :=
      fun hMem => (rowToInsert_inline (h row List.mem_cons_self) hMem).1 rfl
    have hReturn : '\r' ∉ (rowToInsert table row).toList :=
      fun hMem => (rowToInsert_inline (h row List.mem_cons_self) hMem).2 rfl
    rw [List.flatMap_cons, List.append_assoc, List.singleton_append, Text.linesFrom_line hNewline,
      List.nil_append, Text.endLine_of_not_mem hReturn, List.map_cons, String.ofList_toList,
      ih fun row hRow => h row (List.mem_cons_of_mem _ hRow), List.map_cons]

/-! ## Reading a row back -/

theorem splitOnceList_table (h : Named table (row.map Prod.fst)) : ∃ rest,
    Text.splitOnceList ['('] (rowToInsert table row).toList = some (insertInto table, rest) ∧
    rest = columnsChars (row.map Prod.fst) ++ ')' :: ([' '] ++ "VALUES(".toList ++
      (valuesChars (row.map Prod.snd) ++ [')', ';'])) := by
  refine ⟨_, ?_, rfl⟩
  rw [toList_rowToInsert]
  exact Text.splitOnceList_char fun hMem => (h.insertInto hMem).2 rfl

theorem parseInsert_rowToInsert (h : Named table (row.map Prod.fst)) (name : String) (lineNum : Nat) :
    parseInsert (rowToInsert table row) name lineNum = .ok ⟨row.map Prod.fst, row.map Prod.snd⟩ := by
  obtain ⟨rest, hTable, rfl⟩ := splitOnceList_table h
  have hColumns := Text.splitOnceList_char (t := [' '] ++ "VALUES(".toList ++
    (valuesChars (row.map Prod.snd) ++ [')', ';'])) fun hMem => (h.columnsChars hMem).2 rfl
  have hNames : (Text.pieces [','] 0 (columnsChars (row.map Prod.fst))).map
      (fun s => Text.trim (String.ofList s)) = row.map Prod.fst := by
    obtain ⟨first, columns, hRow⟩ := List.exists_cons_of_ne_nil h.nonempty
    rw [hRow] at h ⊢
    exact columns_pieces (fun name hName => (h.plain name hName).1) h.trimmed (.inl rfl)
  have hValues : Text.splitOnceList "VALUES(".toList ([' '] ++ "VALUES(".toList ++
      (valuesChars (row.map Prod.snd) ++ [')', ';'])) =
      some ([' '], valuesChars (row.map Prod.snd) ++ [')', ';']) :=
    Text.splitOnceList_append (by simp) (by simp [Text.Separable, Text.splitOnceList])
  have hParse : parseValues (String.ofList (valuesChars (row.map Prod.snd))) name lineNum =
      .ok (row.map Prod.snd) := by
    rw [parseValues, String.toList_ofList, parseValuesFrom_valuesChars, List.nil_append]
  unfold parseInsert
  dsimp only
  rw [hTable]
  dsimp only
  rw [hColumns]
  dsimp only
  rw [hNames, hValues]
  dsimp only
  rw [beforeClosingParen_valuesChars]
  dsimp only
  rw [hParse]
  dsimp only
  rw [if_neg (by simp)]

end Exosuit.Dump
