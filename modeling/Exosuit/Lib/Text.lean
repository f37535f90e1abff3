import Mathlib.Data.List.Infix
import Mathlib.Tactic.IntervalCases

/-!
# Strings

The string functions of the standard library that the plan's code uses: the
first occurrence of a separator, the pieces between separators, prefixes,
trimming, and decimal numbers of a machine word.
-/

namespace Exosuit.Lib.Text

/-- The text before and after the first occurrence of a separator. -/
def splitOnceList (sep : List Char) : List Char → Option (List Char × List Char)
  | [] => none
  | c :: cs =>
    if sep.isPrefixOf (c :: cs) then some ([], (c :: cs).drop sep.length)
    else (splitOnceList sep cs).map fun (p, q) => (c :: p, q)

/-- The pieces between separators; `skip` characters of a separator are still to come. -/
def pieces (sep : List Char) (skip : Nat) : List Char → List (List Char)
  | [] => [[]]
  | c :: cs =>
    match skip with
    | n + 1 => pieces sep n cs
    | 0 =>
      if sep.isPrefixOf (c :: cs) then [] :: pieces sep (sep.length - 1) cs
      else (pieces sep 0 cs).modifyHead (c :: ·)

def splitOnce (sep s : String) : Option (String × String) :=
  (splitOnceList sep.toList s.toList).map fun (p, q) => (String.ofList p, String.ofList q)

/-- The text before and after the last occurrence of a separator. -/
def rsplitOnce (sep s : String) : Option (String × String) :=
  (splitOnceList sep.toList.reverse s.toList.reverse).map fun (q, p) =>
    (String.ofList p.reverse, String.ofList q.reverse)

def split (sep s : String) : List String := (pieces sep.toList 0 s.toList).map String.ofList

def stripPrefix (prefix_ s : String) : Option String :=
  if prefix_.toList.isPrefixOf s.toList then
    some (String.ofList (s.toList.drop prefix_.toList.length))
  else none

def startsWith (s prefix_ : String) : Bool := prefix_.toList.isPrefixOf s.toList

def toAsciiLowercase (s : String) : String := String.ofList (s.toList.map Char.toLower)

/-- The White_Space characters. -/
def isWhitespace (c : Char) : Bool :=
  let n := c.toNat
  (9 ≤ n && n ≤ 13) || n == 0x20 || n == 0x85 || n == 0xA0 || n == 0x1680 ||
    (0x2000 ≤ n && n ≤ 0x200A) || n == 0x2028 || n == 0x2029 || n == 0x202F || n == 0x205F ||
    n == 0x3000

def trimList (p : Char → Bool) (l : List Char) : List Char :=
  ((l.dropWhile p).reverse.dropWhile p).reverse

def trim (s : String) : String := String.ofList (trimList isWhitespace s.toList)

/-- A decimal number below `2 ^ 64`, with an optional plus sign. -/
def parseUsize (s : String) : Option Nat :=
  let digits := match s.toList with
    | '+' :: rest => rest
    | l => l
  if digits ≠ [] ∧ digits.all Char.isDigit then
    let n := digits.foldl (fun n c => 10 * n + (c.toNat - '0'.toNat)) 0
    if n < 2 ^ 64 then some n else none
  else none

/-- A decimal number of a signed machine word, with an optional sign. -/
def parseI64 (s : String) : Option Int64 :=
  let (negative, digits) := match s.toList with
    | '-' :: rest => (true, rest)
    | '+' :: rest => (false, rest)
    | l => (false, l)
  if digits ≠ [] ∧ digits.all Char.isDigit then
    let n := digits.foldl (fun n c => 10 * n + (c.toNat - '0'.toNat)) 0
    if negative then if n ≤ 2 ^ 63 then some (Int64.ofInt (-n)) else none
    else if n < 2 ^ 63 then some (Int64.ofNat n) else none
  else none

/-- What the next byte may be: `need` more bytes of a character, the first of them in a range. -/
structure Utf8State where
  need : Nat
  acc : Nat
  low : Nat
  high : Nat

/-- The first byte of a character beyond ASCII. -/
def utf8Lead (b : Nat) : Option Utf8State :=
  if 0xC2 ≤ b ∧ b ≤ 0xDF then some ⟨1, b % 32, 0x80, 0xBF⟩
  else if b = 0xE0 then some ⟨2, b % 16, 0xA0, 0xBF⟩
  else if b = 0xED then some ⟨2, b % 16, 0x80, 0x9F⟩
  else if 0xE1 ≤ b ∧ b ≤ 0xEF then some ⟨2, b % 16, 0x80, 0xBF⟩
  else if b = 0xF0 then some ⟨3, b % 8, 0x90, 0xBF⟩
  else if b = 0xF4 then some ⟨3, b % 8, 0x80, 0x8F⟩
  else if 0xF1 ≤ b ∧ b ≤ 0xF3 then some ⟨3, b % 8, 0x80, 0xBF⟩
  else none

/-- Every maximal ill-formed piece becomes one replacement character. -/
def fromUtf8LossyList (pending : Option Utf8State) : List UInt8 → List Char
  | [] => if pending.isSome then ['\uFFFD'] else []
  | byte :: bytes =>
    let b := byte.toNat
    let start (replaced : List Char) : List Char :=
      if b < 0x80 then replaced ++ Char.ofNat b :: fromUtf8LossyList none bytes
      else
        match utf8Lead b with
        | some next => replaced ++ fromUtf8LossyList (some next) bytes
        | none => replaced ++ '\uFFFD' :: fromUtf8LossyList none bytes
    match pending with
    | none => start []
    | some state =>
      if state.low ≤ b ∧ b ≤ state.high then
        let acc := state.acc * 64 + b % 64
        if state.need = 1 then Char.ofNat acc :: fromUtf8LossyList none bytes
        else fromUtf8LossyList (some ⟨state.need - 1, acc, 0x80, 0xBF⟩) bytes
      else start ['\uFFFD']

def fromUtf8Lossy (bytes : List UInt8) : String := String.ofList (fromUtf8LossyList none bytes)

/-! ## The first separator -/

variable {sep g l p q t : List Char}

theorem splitOnceList_eq_some (hSep : sep ≠ []) :
    splitOnceList sep l = some (p, q) ↔
      l = p ++ sep ++ q ∧ ∀ p' q', l = p' ++ sep ++ q' → p.length ≤ p'.length := by
  induction l generalizing p with
  | nil => simp [splitOnceList, hSep]
  | cons c cs ih =>
    rw [splitOnceList]
    split
    · next hPre =>
      obtain ⟨u, hu⟩ := List.isPrefixOf_iff_prefix.mp hPre
      rw [← hu, List.drop_left, Option.some_inj, Prod.mk.injEq]
      constructor
      · rintro ⟨rfl, rfl⟩
        exact ⟨rfl, fun _ _ _ => Nat.zero_le _⟩
      · rintro ⟨hEq, hMin⟩
        have hp : p = [] := List.eq_nil_of_length_eq_zero (Nat.le_zero.mp (hMin [] u rfl))
        subst hp
        exact ⟨rfl, List.append_cancel_left hEq⟩
    · next hPre =>
      have hHead : ∀ p' q', c :: cs = p' ++ sep ++ q' → ∃ p₁, p' = c :: p₁ ∧ cs = p₁ ++ sep ++ q' := by
        intro p' q' h
        cases p' with
        | nil => exact absurd (List.isPrefixOf_iff_prefix.mpr ⟨q', h.symm⟩) hPre
        | cons d p₁ =>
          rw [List.cons_append, List.cons_append, List.cons.injEq] at h
          exact ⟨p₁, by rw [h.1], h.2⟩
      rw [Option.map_eq_some_iff]
      constructor
      · rintro ⟨⟨p₀, q₀⟩, h, hEq⟩
        obtain ⟨rfl, rfl⟩ := Prod.mk.injEq .. ▸ hEq
        obtain ⟨rfl, hMin⟩ := ih.mp h
        refine ⟨rfl, fun p' q' h' => ?_⟩
        obtain ⟨p₁, rfl, h₁⟩ := hHead p' q' h'
        exact Nat.succ_le_succ (hMin p₁ q' h₁)
      · rintro ⟨hEq, hMin⟩
        obtain ⟨p₁, rfl, h₁⟩ := hHead p q hEq
        refine ⟨(p₁, q), ih.mpr ⟨h₁, fun p' q' h' => ?_⟩, rfl⟩
        exact Nat.le_of_succ_le_succ (hMin (c :: p') q' (by rw [h']; rfl))

theorem splitOnceList_eq_none (hSep : sep ≠ []) :
    splitOnceList sep l = none ↔ ¬ sep <:+: l := by
  induction l with
  | nil => simp [splitOnceList, hSep]
  | cons c cs ih =>
    rw [splitOnceList, List.infix_cons_iff]
    split
    · next hPre => simp [List.isPrefixOf_iff_prefix.mp hPre]
    · next hPre =>
      rw [Option.map_eq_none_iff, ih, not_or]
      exact ⟨fun h => ⟨fun h' => hPre (List.isPrefixOf_iff_prefix.mpr h'), h⟩, fun h => h.2⟩

theorem head?_pieces : (pieces sep 0 l).head? =
    some (((splitOnceList sep l).map Prod.fst).getD l) := by
  induction l with
  | nil => rfl
  | cons c cs ih =>
    rw [pieces, splitOnceList]
    split
    · rfl
    · rw [List.head?_modifyHead, ih]
      cases splitOnceList sep cs <;> rfl

/-- A text after which a separator is found at its end, not before. -/
def Separable (sep g : List Char) : Prop := splitOnceList sep (g ++ sep) = some (g, [])

instance (sep g : List Char) : Decidable (Separable sep g) :=
  inferInstanceAs (Decidable (_ = _))

theorem splitOnceList_append (hSep : sep ≠ []) (h : Separable sep g) :
    splitOnceList sep (g ++ sep ++ t) = some (g, t) := by
  refine (splitOnceList_eq_some hSep).mpr ⟨rfl, fun p' q' hEq => ?_⟩
  by_contra hLt
  have hPre : p' ++ sep <+: g ++ sep := by
    refine List.prefix_of_prefix_length_le ⟨q', hEq.symm⟩ (List.prefix_append _ _) ?_
    rw [List.length_append, List.length_append]
    omega
  obtain ⟨q₀, hq₀⟩ := hPre
  exact hLt (((splitOnceList_eq_some hSep).mp h).2 p' q₀ hq₀.symm)

theorem exists_splitOnceList_append (hSep : sep ≠ []) (h : ¬ Separable sep g) :
    ∃ p q, splitOnceList sep (g ++ sep ++ t) = some (p, q) ∧ p.length < g.length := by
  cases hs : splitOnceList sep (g ++ sep ++ t) with
  | none =>
    exact absurd ⟨g, t, rfl⟩ ((splitOnceList_eq_none hSep).mp hs)
  | some r =>
    obtain ⟨p, q⟩ := r
    refine ⟨p, q, rfl, ?_⟩
    obtain ⟨hEq, hMin⟩ := (splitOnceList_eq_some hSep).mp hs
    refine lt_of_le_of_ne (hMin g t rfl) fun hLen => h ?_
    have hp : p = g := by
      rw [List.append_assoc, List.append_assoc] at hEq
      exact (List.append_inj_left hEq hLen.symm).symm
    subst hp
    refine (splitOnceList_eq_some hSep).mpr ⟨(List.append_nil _).symm, fun p' q' h' => ?_⟩
    exact hMin p' (q' ++ t) (by rw [h', List.append_assoc])

/-! ## A separator of one character -/

theorem separable_cons {c : Char} (h : c ∉ g) (sep : List Char) : Separable (c :: sep) g := by
  refine (splitOnceList_eq_some (List.cons_ne_nil _ _)).mpr ⟨(List.append_nil _).symm, fun p' q' hEq => ?_⟩
  by_contra hLt
  have hSame : (g ++ c :: sep)[p'.length]? = (p' ++ c :: sep ++ q')[p'.length]? := by rw [hEq]
  rw [List.getElem?_append_left (Nat.lt_of_not_le hLt), List.append_assoc, List.getElem?_append_right
    (Nat.le_refl _), Nat.sub_self] at hSame
  exact h (List.mem_of_getElem? hSame)

theorem separable_singleton {c : Char} (h : c ∉ g) : Separable [c] g := separable_cons h []

theorem splitOnceList_char {c : Char} (h : c ∉ g) :
    splitOnceList [c] (g ++ c :: t) = some (g, t) := by
  have hSplit := splitOnceList_append (t := t) (List.cons_ne_nil c []) (separable_singleton h)
  rwa [List.append_assoc, List.singleton_append] at hSplit

theorem rsplitOnce_append {c : Char} {front back : String} (hSep : sep.getLast? = some c)
    (h : c ∉ back.toList) :
    rsplitOnce (String.ofList sep) (front ++ String.ofList sep ++ back) = some (front, back) := by
  have hHead : sep.reverse.head? = some c := by rw [List.head?_reverse, hSep]
  obtain ⟨rest, hRest⟩ := List.head?_eq_some_iff.mp hHead
  have hSplit := splitOnceList_append (t := front.toList.reverse) (List.cons_ne_nil c rest)
    (separable_cons (g := back.toList.reverse) (fun hMem => h (List.mem_reverse.mp hMem)) rest)
  rw [rsplitOnce]
  simp only [String.toList_append, String.toList_ofList, List.reverse_append, ← List.append_assoc, hRest,
    hSplit, Option.map_some, List.reverse_reverse, String.ofList_toList]

theorem pieces_of_not_mem {c : Char} (h : c ∉ l) : pieces [c] 0 l = [l] := by
  induction l with
  | nil => rfl
  | cons d l ih =>
    rw [List.mem_cons, not_or] at h
    have hHead : [c].isPrefixOf (d :: l) = false := by simp [List.isPrefixOf, h.1]
    rw [pieces, hHead, if_neg nofun, ih h.2]
    rfl

theorem pieces_char {c : Char} (h : c ∉ g) : pieces [c] 0 (g ++ c :: t) = g :: pieces [c] 0 t := by
  induction g with
  | nil =>
    have hHead : [c].isPrefixOf (c :: t) = true := by simp [List.isPrefixOf]
    rw [List.nil_append, pieces, hHead, if_pos rfl]
    rfl
  | cons d g ih =>
    rw [List.mem_cons, not_or] at h
    have hHead : [c].isPrefixOf (d :: (g ++ c :: t)) = false := by simp [List.isPrefixOf, h.1]
    rw [List.cons_append, pieces, hHead, if_neg nofun, ih h.2]
    rfl

theorem pieces_cons (c d : Char) (l : List Char) : pieces [c] 0 (d :: l) =
    if d = c then [] :: pieces [c] 0 l else (pieces [c] 0 l).modifyHead (d :: ·) := by
  rw [pieces]
  by_cases h : d = c
  · have hHead : [c].isPrefixOf (d :: l) = true := by simp [List.isPrefixOf, h]
    rw [hHead, if_pos rfl, if_pos h]
    rfl
  · have hHead : [c].isPrefixOf (d :: l) = false := by simp [List.isPrefixOf, Ne.symm h]
    rw [hHead, if_neg nofun, if_neg h]

theorem pieces_ne_nil (sep : List Char) (skip : Nat) (l : List Char) : pieces sep skip l ≠ [] := by
  induction l generalizing skip with
  | nil => exact List.cons_ne_nil _ _
  | cons c l ih =>
    cases skip with
    | succ skip => exact ih skip
    | zero =>
      rw [pieces]
      split
      · exact List.cons_ne_nil _ _
      · obtain ⟨piece, rest, hPieces⟩ := List.exists_cons_of_ne_nil (ih 0)
        rw [hPieces]
        exact List.cons_ne_nil _ _

theorem pieces_of_no_infix (h : l.tails.any (sep.isPrefixOf ·) = false) : pieces sep 0 l = [l] := by
  induction l with
  | nil => rfl
  | cons c l ih =>
    rw [List.tails_cons, List.any_cons, Bool.or_eq_false_iff] at h
    rw [pieces, h.1, if_neg nofun, ih h.2]
    rfl

theorem stripPrefix_append (prefix_ s : String) : stripPrefix prefix_ (prefix_ ++ s) = some s := by
  rw [stripPrefix, String.toList_append, if_pos (List.isPrefixOf_iff_prefix.mpr (List.prefix_append _ _)),
    List.drop_left, String.ofList_toList]

/-! ## Joined texts -/

theorem intercalate_cons (sep first : List Char) (rest : List (List Char)) :
    List.intercalate sep (first :: rest) =
      first ++ if rest = [] then [] else sep ++ List.intercalate sep rest := by
  cases rest with
  | nil => rw [if_pos rfl, List.append_nil, List.intercalate_singleton]
  | cons next rest =>
    rw [if_neg (List.cons_ne_nil _ _), List.intercalate_cons_cons, List.append_assoc]

/-- Replacing a character is replacing it wherever it stands. -/
theorem intercalate_pieces (c : Char) (into l : List Char) :
    List.intercalate into (pieces [c] 0 l) = l.flatMap fun d => if d = c then into else [d] := by
  induction l with
  | nil => rfl
  | cons d l ih =>
    obtain ⟨piece, rest, hPieces⟩ := List.exists_cons_of_ne_nil (pieces_ne_nil [c] 0 l)
    rw [hPieces, intercalate_cons] at ih
    rw [pieces_cons, hPieces, List.flatMap_cons, ← ih]
    split
    · rw [intercalate_cons, if_neg (List.cons_ne_nil _ _), intercalate_cons, List.nil_append]
    · rw [List.modifyHead_cons, intercalate_cons, List.cons_append, List.singleton_append]

theorem mem_intercalate {c : Char} {sep : List Char} {texts : List (List Char)}
    (h : c ∈ List.intercalate sep texts) : c ∈ sep ∨ ∃ text ∈ texts, c ∈ text := by
  induction texts with
  | nil => exact nomatch h
  | cons first rest ih =>
    rw [intercalate_cons, List.mem_append] at h
    rcases h with hFirst | hRest
    · exact .inr ⟨first, List.mem_cons_self, hFirst⟩
    · split at hRest
      · exact nomatch hRest
      · rcases List.mem_append.mp hRest with hSep | hRest
        · exact .inl hSep
        · rcases ih hRest with hSep | ⟨text, hText, hMem⟩
          · exact .inl hSep
          · exact .inr ⟨text, List.mem_cons_of_mem _ hText, hMem⟩

/-! ## Lines -/

/-- A line feed ends a line, and takes one carriage return before it along. -/
def endLine (l : List Char) : List Char := if l.getLast? = some '\r' then l.dropLast else l

def linesFrom (current : List Char) : List Char → List (List Char)
  | [] => if current = [] then [] else [current]
  | c :: cs => if c = '\n' then endLine current :: linesFrom [] cs else linesFrom (current ++ [c]) cs

/-- `str::lines` -/
def lines (s : String) : List String := (linesFrom [] s.toList).map String.ofList

theorem linesFrom_line (h : '\n' ∉ l) (current rest : List Char) :
    linesFrom current (l ++ '\n' :: rest) = endLine (current ++ l) :: linesFrom [] rest := by
  induction l generalizing current with
  | nil => rw [List.nil_append, linesFrom, if_pos rfl, List.append_nil]
  | cons c l ih =>
    rw [List.mem_cons, not_or] at h
    rw [List.cons_append, linesFrom, if_neg (Ne.symm h.1), ih h.2, List.append_assoc, List.singleton_append]

theorem linesFrom_last (h : '\n' ∉ l) (current : List Char) :
    linesFrom current l = if current ++ l = [] then [] else [current ++ l] := by
  induction l generalizing current with
  | nil => rw [linesFrom, List.append_nil]
  | cons c l ih =>
    rw [List.mem_cons, not_or] at h
    rw [linesFrom, if_neg (Ne.symm h.1), ih h.2, List.append_assoc, List.singleton_append]

theorem endLine_of_not_mem (h : '\r' ∉ l) : endLine l = l := by
  rw [endLine, if_neg]
  intro hLast
  exact h (List.mem_of_getLast? hLast)

theorem toNat_ofNat {n : Nat} (h : n.isValidChar) : (Char.ofNat n).toNat = n := by
  have hChar : Char.ofNat n = Char.ofNatAux n h := dif_pos h
  rw [hChar]
  rfl

/-! ## Decimals -/

theorem digits_repr (n : Nat) : n.repr.toList.foldl
    (fun n c => 10 * n + (c.toNat - '0'.toNat)) 0 = n := by
  rw [Nat.toList_repr, ← Nat.ofDigitChars_eq_foldl, Nat.ofDigitChars_ten_toDigits]

theorem all_isDigit_repr (n : Nat) : n.repr.toList.all Char.isDigit = true := by
  rw [Nat.toList_repr, List.all_eq_true]
  exact fun c hc => Nat.isDigit_of_mem_toDigits (by decide) (by decide) hc

theorem repr_toList_ne_nil (n : Nat) : n.repr.toList ≠ [] := by
  rw [Nat.toList_repr]
  exact Nat.toDigits_ne_nil

/-- The digits of a positive number do not begin with a zero. -/
theorem repr_head {n : Nat} (h : 0 < n) : n.repr.toList.head? ≠ some '0' := by
  rw [Nat.toList_repr]
  induction n using Nat.strongRecOn with
  | ind n ih =>
    rcases Nat.lt_or_ge n 10 with hSmall | hLarge
    · rw [Nat.toDigits_of_lt_base hSmall, List.head?_cons]
      interval_cases n <;> decide
    · rw [Nat.toDigits_of_base_le (by decide) hLarge, List.head?_append_of_ne_nil _ Nat.toDigits_ne_nil]
      exact ih (n / 10) (Nat.div_lt_self h (by decide)) (Nat.div_pos hLarge (by decide))

theorem toDigits_foldl {digits : List Char} (hDigits : digits.all Char.isDigit = true) (hNil : digits ≠ [])
    (hZero : digits.head? ≠ some '0' ∨ digits.length = 1) :
    Nat.toDigits 10 (digits.foldl (fun n c => 10 * n + (c.toNat - '0'.toNat)) 0) = digits := by
  induction digits using List.reverseRecOn with
  | nil => exact absurd rfl hNil
  | append_singleton front c ih =>
    rw [List.all_append, Bool.and_eq_true] at hDigits
    obtain ⟨hFront, hLast⟩ := hDigits
    rw [List.all_cons, List.all_nil, Bool.and_true] at hLast
    have hBound : c.toNat - '0'.toNat < 10 ∧ Nat.digitChar (c.toNat - '0'.toNat) = c := by
      obtain ⟨hLow, hHigh⟩ := Char.isDigit_iff_toNat.1 hLast
      have hChar : Char.ofNat c.toNat = c := Char.ofNat_toNat c
      generalize c.toNat = n at hLow hHigh hChar
      subst hChar
      have hLow : 48 ≤ n := hLow
      have hHigh : n ≤ 57 := hHigh
      interval_cases n <;> decide
    rw [List.foldl_append, List.foldl_cons, List.foldl_nil]
    rcases front with _ | ⟨d, front⟩
    · rw [List.foldl_nil, Nat.mul_zero, Nat.zero_add, Nat.toDigits_of_lt_base hBound.1, hBound.2, List.nil_append]
    · have hHead : (d :: front).head? ≠ some '0' := by
        rcases hZero with hZero | hLength
        · exact hZero
        · simp at hLength
      have hEq := ih hFront (List.cons_ne_nil _ _) (.inl hHead)
      have hPos : 0 < (d :: front).foldl (fun n c => 10 * n + (c.toNat - '0'.toNat)) 0 := by
        refine Nat.pos_of_ne_zero fun h => hHead ?_
        rw [h, Nat.toDigits_zero] at hEq
        rw [← hEq, List.head?_cons]
      rw [← Nat.toDigits_append_toDigits (by decide) hPos hBound.1, hEq, Nat.toDigits_of_lt_base hBound.1, hBound.2]

theorem sign_not_digit {c : Char} (h : c.isDigit = true) : c ≠ '-' ∧ c ≠ '+' := by
  constructor <;> rintro rfl <;> exact absurd h (by decide)

theorem parseUsize_unsigned {s : String} {n : Nat} (hSign : s.toList.head? ≠ some '+') (h : parseUsize s = some n) :
    s.toList ≠ [] ∧ s.toList.all Char.isDigit = true ∧
      s.toList.foldl (fun n c => 10 * n + (c.toNat - '0'.toNat)) 0 = n := by
  unfold parseUsize at h
  have hMatch : (match s.toList with
      | '+' :: rest => rest
      | l => l) = s.toList := by
    split
    · next rest hList => exact absurd (hList ▸ rfl) hSign
    · rfl
  rw [hMatch] at h
  dsimp only at h
  split at h
  · next hDigits =>
    split at h
    · exact ⟨hDigits.1, hDigits.2, Option.some.inj h⟩
    · exact absurd h nofun
  · exact absurd h nofun

theorem parseUsize_repr {n : Nat} (h : n < 2 ^ 64) : parseUsize n.repr = some n := by
  unfold parseUsize
  obtain ⟨c, cs, hDigits⟩ := List.exists_cons_of_ne_nil (repr_toList_ne_nil n)
  have hSign := sign_not_digit (List.all_eq_true.mp (all_isDigit_repr n) c (by simp [hDigits]))
  have hMatch : (match n.repr.toList with
      | '+' :: rest => rest
      | l => l) = n.repr.toList := by
    rw [hDigits]
    split
    · next h => exact absurd (List.cons.inj h).1 hSign.2
    · rfl
  rw [hMatch]
  dsimp only
  rw [if_pos ⟨repr_toList_ne_nil n, all_isDigit_repr n⟩, digits_repr, if_pos h]

theorem parseI64_repr {n : Nat} (h : n < 2 ^ 63) : parseI64 n.repr = some (Int64.ofNat n) := by
  unfold parseI64
  obtain ⟨c, cs, hDigits⟩ := List.exists_cons_of_ne_nil (repr_toList_ne_nil n)
  have hSign := sign_not_digit (List.all_eq_true.mp (all_isDigit_repr n) c (by simp [hDigits]))
  have hMatch : (match n.repr.toList with
      | '-' :: rest => (true, rest)
      | '+' :: rest => (false, rest)
      | l => (false, l)) = (false, n.repr.toList) := by
    rw [hDigits]
    split
    · next h => exact absurd (List.cons.inj h).1 hSign.1
    · next h => exact absurd (List.cons.inj h).1 hSign.2
    · rfl
  rw [hMatch]
  dsimp only
  rw [if_pos ⟨repr_toList_ne_nil n, all_isDigit_repr n⟩, digits_repr, if_neg nofun, if_pos h]

theorem parseI64_neg_repr {n : Nat} (h : n ≤ 2 ^ 63) :
    parseI64 ("-" ++ n.repr) = some (Int64.ofInt (-n)) := by
  unfold parseI64
  have hMatch : (match ("-" ++ n.repr).toList with
      | '-' :: rest => (true, rest)
      | '+' :: rest => (false, rest)
      | l => (false, l)) = (true, n.repr.toList) := by
    rw [String.toList_append]
    rfl
  rw [hMatch]
  dsimp only
  rw [if_pos ⟨repr_toList_ne_nil n, all_isDigit_repr n⟩, digits_repr, if_pos rfl, if_pos h]

/-- A machine word is read back from its decimal. -/
theorem parseI64_toString (i : Int64) : parseI64 (toString i.toInt) = some i := by
  have hLow := Int64.le_toInt i
  have hHigh := Int64.toInt_lt i
  cases hInt : i.toInt with
  | ofNat n =>
    rw [hInt] at hHigh
    have hn : n < 2 ^ 63 := by
      have := Int.ofNat_eq_natCast n ▸ hHigh
      omega
    refine (parseI64_repr hn).trans (congrArg some (Int64.toInt_inj.mp ?_))
    rw [hInt, Int64.toInt_ofNat_of_lt hn]
    rfl
  | negSucc n =>
    rw [hInt] at hLow
    have hn : n + 1 ≤ 2 ^ 63 := by omega
    refine (parseI64_neg_repr hn).trans (congrArg some (Int64.toInt_inj.mp ?_))
    rw [hInt, Int64.toInt_ofInt_of_le (by omega) (by omega)]
    rfl

end Exosuit.Lib.Text
