import Exosuit.Lib.JsonText
import Exosuit.Lib.Utf8

/-!
# Paths of workspace URIs

A workspace is stored under a URI, and its path is percent-decoded byte by byte. The two digits
behind a percent sign are cut out of the text, and a text cannot be cut inside a character.
-/

namespace Exosuit.History

open Lib (Bytes utf8)
open Lib.Text (isBoundary fromUtf8Lossy)

/-! ## Decoding -/

def percent : UInt8 := 0x25

def plus : UInt8 := 0x2B

def hexValue (b : UInt8) : Option Nat := Lib.JsonText.hexValue (Char.ofNat b.toNat)

def readDigits (digits : Bytes) : Option Nat :=
  digits.foldlM (fun n b => (hexValue b).bind fun d => if n * 16 + d < 256 then some (n * 16 + d) else none) 0

/-- `u8::from_str_radix` to the base 16, which takes a leading plus sign. -/
def fromStrRadix (src : Bytes) : Option UInt8 :=
  match src with
  | [] => none
  | [b] => (readDigits [b]).map UInt8.ofNat
  | b :: rest => (readDigits (if b = plus then rest else b :: rest)).map UInt8.ofNat

/-- The loop of `urlencoding_decode`; `none` where slicing the text panics. -/
def decodeBytes : Bytes → Option Bytes
  | b :: x :: y :: rest =>
    if b = percent then
      if isBoundary (x :: y :: rest) && isBoundary rest then
        match fromStrRadix [x, y] with
        | some byte => (decodeBytes rest).map (byte :: ·)
        | none => (decodeBytes (x :: y :: rest)).map (b :: ·)
      else none
    else (decodeBytes (x :: y :: rest)).map (b :: ·)
  | bytes => some bytes

def urlencodingDecode (s : String) : Option String := (decodeBytes (utf8 s)).map fromUtf8Lossy

/-- The path of the URI, an error, or a panic. -/
def parseFileUri (uri : String) : Option (Except String String) :=
  match Lib.Text.stripPrefix "file://" uri with
  | some path => (urlencodingDecode path).map .ok
  | none =>
    match Lib.Text.stripPrefix "vscode-remote://" uri with
    | some rest =>
      let path := rest.toList.dropWhile (· != '/')
      if path = [] then some (.error ("No path in vscode-remote URI: " ++ uri))
      else (urlencodingDecode (String.ofList path)).map .ok
    | none => some (.error ("Not a file or vscode-remote URI: " ++ uri))

/-! ## What decoding is for -/

/-- Every percent sign with two hexadecimal digits is replaced by their byte. -/
def replaceTriples : Bytes → Bytes
  | b :: x :: y :: rest =>
    if b = percent then
      match hexValue x, hexValue y with
      | some high, some low => UInt8.ofNat (16 * high + low) :: replaceTriples rest
      | _, _ => b :: replaceTriples (x :: y :: rest)
    else b :: replaceTriples (x :: y :: rest)
  | bytes => bytes

/-- Bytes, each written as it is or as a percent sign and two digits; a percent sign is never
written as it is. -/
inductive Encodes : Bytes → Bytes → Prop
  | nil : Encodes [] []
  | plain {b : UInt8} {bytes text : Bytes} (hPercent : b ≠ percent) (hRest : Encodes bytes text) :
    Encodes (b :: bytes) (b :: text)
  | triple {b x y : UInt8} {high low : Nat} {bytes text : Bytes} (hHigh : hexValue x = some high)
    (hLow : hexValue y = some low) (hByte : b.toNat = 16 * high + low) (hRest : Encodes bytes text) :
    Encodes (b :: bytes) (percent :: x :: y :: text)

/-- What stands behind a percent sign: not a character of three or four bytes, and behind an ASCII
character no wider one, nor a digit behind a plus sign. -/
structure FollowedWell (rest : List Char) : Prop where
  wide : ∀ c more, rest = c :: more → c.utf8Size ≤ 2
  narrow : ∀ c d more, rest = c :: d :: more → c.utf8Size = 1 →
    d.utf8Size = 1 ∧ ¬ (c = '+' ∧ (Lib.JsonText.hexValue d).isSome = true)

def Decodable (l : List Char) : Prop := ∀ front rest, l = front ++ '%' :: rest → FollowedWell rest

/-! ## Bytes that are kept -/

variable {b x y : UInt8} {bytes rest : Bytes}

theorem decodeBytes_cons (h : b ≠ percent) (bytes : Bytes) :
    decodeBytes (b :: bytes) = (decodeBytes bytes).map (b :: ·) := by
  match bytes with
  | [] | [_] => rfl
  | x :: y :: rest =>
    rw [decodeBytes, if_neg h]

theorem replaceTriples_cons (h : b ≠ percent) (bytes : Bytes) :
    replaceTriples (b :: bytes) = b :: replaceTriples bytes := by
  match bytes with
  | [] | [_] => rfl
  | x :: y :: rest =>
    rw [replaceTriples, if_neg h]

theorem decodeBytes_append (h : percent ∉ bytes) (rest : Bytes) :
    decodeBytes (bytes ++ rest) = (decodeBytes rest).map (bytes ++ ·) := by
  induction bytes with
  | nil => exact Option.map_id'.symm ▸ rfl
  | cons b bytes ih =>
    rw [List.mem_cons, not_or] at h
    rw [List.cons_append, decodeBytes_cons (Ne.symm h.1), ih h.2, Option.map_map]
    rfl

theorem replaceTriples_append (h : percent ∉ bytes) (rest : Bytes) :
    replaceTriples (bytes ++ rest) = bytes ++ replaceTriples rest := by
  induction bytes with
  | nil => rfl
  | cons b bytes ih =>
    rw [List.mem_cons, not_or] at h
    rw [List.cons_append, replaceTriples_cons (Ne.symm h.1), ih h.2, List.cons_append]

/-! ## Digits -/

theorem hexValue_lt {c : Char} {v : Nat} (h : Lib.JsonText.hexValue c = some v) : v < 16 := by
  unfold Lib.JsonText.hexValue at h
  split_ifs at h <;>
    · have := Option.some.inj h
      omega

theorem hexValue_wide (h : 0x80 ≤ b.toNat) : hexValue b = none := by
  have hValid : b.toNat.isValidChar := .inl (lt_trans b.toNat_lt (by decide))
  have hChar : (Char.ofNat b.toNat).toNat = b.toNat := Lib.Text.toNat_ofNat hValid
  unfold hexValue Lib.JsonText.hexValue
  rw [hChar, if_neg (by omega), if_neg (by omega), if_neg (by omega)]

theorem hexValue_of_byte {c : Char} (h : b.toNat = c.toNat) : hexValue b = Lib.JsonText.hexValue c := by
  unfold hexValue
  rw [h, Char.ofNat_toNat]

theorem hexValue_percent : Lib.JsonText.hexValue '%' = none := by decide

theorem hexValue_plus : hexValue plus = none := by decide

theorem readDigits_pair : readDigits [x, y] = (hexValue x).bind fun high => (hexValue y).map fun low =>
    16 * high + low := by
  unfold readDigits
  cases hHigh : hexValue x with
  | none => simp [hHigh]
  | some high =>
    cases hLow : hexValue y with
    | none =>
      have hBound := hexValue_lt hHigh
      simp [hHigh, hLow]
    | some low =>
      have hHighBound := hexValue_lt hHigh
      have hLowBound := hexValue_lt hLow
      simp [hHigh, hLow, show high < 256 by omega, show high * 16 + low < 256 by omega]
      omega

theorem fromStrRadix_pair (h : x ≠ plus) : fromStrRadix [x, y] =
    (hexValue x).bind fun high => (hexValue y).map fun low => UInt8.ofNat (16 * high + low) := by
  unfold fromStrRadix
  dsimp only
  rw [if_neg h, readDigits_pair]
  cases hexValue x with
  | none => rfl
  | some high => cases hexValue y <;> rfl

theorem fromStrRadix_plus : fromStrRadix [plus, y] = (hexValue y).map UInt8.ofNat := by
  unfold fromStrRadix
  dsimp only
  rw [if_pos rfl]
  unfold readDigits
  cases hDigit : hexValue y with
  | none => simp [hDigit]
  | some v =>
    have hBound := hexValue_lt hDigit
    simp [hDigit, show v < 256 by omega]

/-! ## The two agree, or differ at an ASCII byte -/

def DiffersAt (out out' : Bytes) : Prop := ∃ (common : Bytes) (a b : UInt8) (rest rest' : Bytes),
  out = common ++ a :: rest ∧ out' = common ++ b :: rest' ∧ a ≠ b ∧ a.toNat < 0x80 ∧ b.toNat < 0x80

theorem DiffersAt.append {out out' : Bytes} (h : DiffersAt out out') (bytes : Bytes) :
    DiffersAt (bytes ++ out) (bytes ++ out') := by
  obtain ⟨common, a, b, rest, rest', rfl, rfl, h⟩ := h
  exact ⟨bytes ++ common, a, b, rest, rest', (List.append_assoc ..).symm, (List.append_assoc ..).symm, h⟩

/-- The loop replaces the triples and nothing else, or it panics or goes wrong at an ASCII byte. -/
inductive Outcome (good : Prop) (expected : Bytes) : Option Bytes → Prop
  | right (hGood : good) : Outcome good expected (some expected)
  | panic (hBad : ¬ good) : Outcome good expected none
  | wrong {out : Bytes} (hBad : ¬ good) (hDiffers : DiffersAt out expected) : Outcome good expected (some out)

theorem Outcome.append {good good' : Prop} {expected : Bytes} {result : Option Bytes}
    (h : Outcome good expected result) (hIff : good' ↔ good) (bytes : Bytes) :
    Outcome good' (bytes ++ expected) (result.map (bytes ++ ·)) := by
  cases h with
  | right hGood => exact .right (hIff.mpr hGood)
  | panic hBad => exact .panic fun h => hBad (hIff.mp h)
  | wrong hBad hDiffers => exact .wrong (fun h => hBad (hIff.mp h)) (hDiffers.append bytes)

theorem decodable_cons {c : Char} {l : List Char} :
    Decodable (c :: l) ↔ (c = '%' → FollowedWell l) ∧ Decodable l := by
  constructor
  · intro h
    refine ⟨fun hc => h [] l (by rw [hc]; rfl), fun front rest hSplit => h (c :: front) rest ?_⟩
    rw [hSplit, List.cons_append]
  · rintro ⟨hHead, hTail⟩ front rest hSplit
    cases front with
    | nil =>
      obtain ⟨rfl, rfl⟩ := List.cons_eq_cons.mp hSplit
      exact hHead rfl
    | cons d front => exact hTail front rest (List.cons_eq_cons.mp hSplit).2

theorem decodable_nil : Decodable [] := fun front rest h => by
  cases front <;> cases h

theorem decodable_cons_of_ne {c : Char} {l : List Char} (h : c ≠ '%') : Decodable (c :: l) ↔ Decodable l :=
  decodable_cons.trans (and_iff_right fun hc => absurd hc h)

theorem percent_not_mem {c : Char} (h : c ≠ '%') : percent ∉ String.utf8EncodeChar c := by
  have hBytes := Lib.Text.charBytes c
  generalize String.utf8EncodeChar c = bytes at hBytes
  intro hMem
  cases hBytes with
  | ascii hByte =>
    rw [← List.mem_singleton.mp hMem] at hByte
    exact h (Char.ext (UInt32.toNat_inj.mp hByte.symm))
  | wide hLead hWide hConts =>
    rcases List.mem_cons.mp hMem with rfl | hCont
    · exact absurd hLead (by decide)
    · exact absurd (hConts percent hCont) (by decide)

theorem decodeBytes_percent (hBoundary : isBoundary (x :: y :: rest) = true) (hRest : isBoundary rest = true) :
    decodeBytes (percent :: x :: y :: rest) =
      match fromStrRadix [x, y] with
      | some byte => (decodeBytes rest).map (byte :: ·)
      | none => (decodeBytes (x :: y :: rest)).map (percent :: ·) := by
  rw [decodeBytes, if_pos rfl, hBoundary, hRest]
  rfl

theorem decodeBytes_inside (hRest : isBoundary rest = false) : decodeBytes (percent :: x :: y :: rest) = none := by
  rw [decodeBytes, if_pos rfl, hRest, Bool.and_false]
  rfl

theorem replaceTriples_kept (h : hexValue x = none ∨ hexValue y = none) :
    replaceTriples (percent :: x :: y :: rest) = percent :: replaceTriples (x :: y :: rest) := by
  rw [replaceTriples, if_pos rfl]
  rcases h with h | h
  · rw [h]
  · rw [h]
    cases hexValue x <;> rfl

theorem replaceTriples_triple {high low : Nat} (hHigh : hexValue x = some high) (hLow : hexValue y = some low) :
    replaceTriples (percent :: x :: y :: rest) = UInt8.ofNat (16 * high + low) :: replaceTriples rest := by
  rw [replaceTriples, if_pos rfl, hHigh, hLow]

/-! ## Character by character -/

def encoded (l : List Char) : Bytes := l.flatMap String.utf8EncodeChar

theorem encoded_cons (c : Char) (l : List Char) : encoded (c :: l) = String.utf8EncodeChar c ++ encoded l := rfl

theorem encoded_percent (l : List Char) : encoded ('%' :: l) = percent :: encoded l := rfl

/-- What follows a character begins with one. -/
theorem isBoundary_encoded (l : List Char) : isBoundary (encoded l) = true := by
  cases l with
  | nil => rfl
  | cons c l =>
    have hBytes := Lib.Text.charBytes c
    rw [encoded_cons]
    generalize String.utf8EncodeChar c = bytes at hBytes
    cases hBytes with
    | ascii hByte hAscii =>
      simp [isBoundary, Lib.Text.isContinuation, hByte]
      omega
    | wide hLead =>
      simp [isBoundary, Lib.Text.isContinuation]
      omega

abbrev OutcomeOf (l : List Char) : Prop :=
  Outcome (Decodable l) (replaceTriples (encoded l)) (decodeBytes (encoded l))

/-- Two ASCII characters behind a percent sign. -/
theorem outcome_narrow {c d : Char} {l : List Char} (hc : x.toNat = c.toNat) (hd : y.toNat = d.toNat)
    (hcSize : c.utf8Size = 1) (hdSize : d.utf8Size = 1) (hEncoded : encoded (c :: d :: l) = x :: y :: encoded l)
    (hNext : OutcomeOf (c :: d :: l)) (hRest : OutcomeOf l) : OutcomeOf ('%' :: c :: d :: l) := by
  have hFollowed : FollowedWell (c :: d :: l) ↔ ¬ (c = '+' ∧ (hexValue y).isSome = true) := by
    rw [hexValue_of_byte hd]
    constructor
    · intro h
      exact (h.narrow c d l rfl hcSize).2
    · intro h
      refine ⟨fun c' more hSplit => ?_, fun c' d' more hSplit _ => ?_⟩
      · rw [← (List.cons_eq_cons.mp hSplit).1, hcSize]
        exact Nat.le_succ 1
      · obtain ⟨rfl, hMore⟩ := List.cons_eq_cons.mp hSplit
        obtain ⟨rfl, -⟩ := List.cons_eq_cons.mp hMore
        exact ⟨hdSize, h⟩
  have hIff := @decodable_cons '%' (c :: d :: l)
  have hStep := @decodeBytes_percent x y (encoded l)
    (by rw [← hEncoded]; exact isBoundary_encoded _) (isBoundary_encoded _)
  unfold OutcomeOf
  rw [encoded_percent, hEncoded, hStep]
  have hKept : hexValue x = none ∨ hexValue y = none → fromStrRadix [x, y] = none →
      FollowedWell (c :: d :: l) → Outcome (Decodable ('%' :: c :: d :: l))
        (replaceTriples (percent :: x :: y :: encoded l))
        (match fromStrRadix [x, y] with
          | some byte => (decodeBytes (encoded l)).map (byte :: ·)
          | none => (decodeBytes (x :: y :: encoded l)).map (percent :: ·)) := by
    intro hNone hRadix hWell
    rw [hRadix, replaceTriples_kept hNone]
    dsimp only
    rw [← hEncoded]
    exact hNext.append (hIff.trans (and_iff_right fun _ => hWell)) [percent]
  by_cases hPlus : c = '+'
  · have hx : x = plus := UInt8.toNat_inj.mp (hc.trans (congrArg Char.toNat hPlus))
    cases hDigit : hexValue y with
    | none =>
      refine hKept (.inr hDigit) (by rw [hx, fromStrRadix_plus, hDigit]; rfl) (hFollowed.mpr ?_)
      simp [hDigit]
    | some v =>
      have hBad : ¬ Decodable ('%' :: c :: d :: l) := fun h =>
        hFollowed.mp ((hIff.mp h).1 rfl) ⟨hPlus, by rw [hDigit]; rfl⟩
      rw [hx, fromStrRadix_plus, hDigit, replaceTriples_kept (.inl hexValue_plus)]
      dsimp only [Option.map_some]
      cases hDecoded : decodeBytes (encoded l) with
      | none => exact .panic hBad
      | some out =>
        have hBound : v < 16 := by
          rw [hexValue_of_byte hd] at hDigit
          exact hexValue_lt hDigit
        have hSmall : (UInt8.ofNat v).toNat = v := by
          rw [UInt8.toNat_ofNat', Nat.mod_eq_of_lt (by omega)]
        refine .wrong hBad ⟨[], UInt8.ofNat v, percent, out, replaceTriples (plus :: y :: encoded l), rfl, rfl, ?_,
          ?_, by decide⟩
        · intro hSame
          rw [hSame] at hSmall
          exact absurd hSmall (by rw [show percent.toNat = 37 from rfl]; omega)
        · omega
  · have hx : x ≠ plus := fun hx => hPlus (Char.ext (UInt32.toNat_inj.mp (hc.symm.trans (congrArg UInt8.toNat hx))))
    have hWell : FollowedWell (c :: d :: l) := hFollowed.mpr fun h => hPlus h.1
    cases hHigh : hexValue x with
    | none => exact hKept (.inl hHigh) (by rw [fromStrRadix_pair hx, hHigh]; rfl) hWell
    | some high =>
      cases hLow : hexValue y with
      | none => exact hKept (.inr hLow) (by rw [fromStrRadix_pair hx, hHigh, hLow]; rfl) hWell
      | some low =>
        rw [fromStrRadix_pair hx, hHigh, hLow, replaceTriples_triple hHigh hLow]
        have hDigits : Decodable (c :: d :: l) ↔ Decodable l := by
          refine (decodable_cons_of_ne ?_).trans (decodable_cons_of_ne ?_)
          · rintro rfl
            rw [hexValue_of_byte hc, hexValue_percent] at hHigh
            cases hHigh
          · rintro rfl
            rw [hexValue_of_byte hd, hexValue_percent] at hLow
            cases hLow
        exact hRest.append ((hIff.trans (and_iff_right fun _ => hWell)).trans hDigits) [UInt8.ofNat (16 * high + low)]

theorem ascii_of_size {c : Char} (h : c.utf8Size = 1) : ∃ b : UInt8, String.utf8EncodeChar c = [b] ∧ b.toNat = c.toNat := by
  have hBytes := Lib.Text.charBytes c
  generalize String.utf8EncodeChar c = bytes at hBytes
  cases hBytes with
  | @ascii b hByte => exact ⟨b, rfl, hByte⟩
  | wide _ _ _ hSize hNonempty =>
    have hLength := List.length_pos_iff.mpr hNonempty
    omega

theorem wide_of_size {c : Char} (h : c.utf8Size ≠ 1) : ∃ (lead first : UInt8) (conts : Bytes),
    String.utf8EncodeChar c = lead :: first :: conts ∧ 0xC0 ≤ lead.toNat ∧
      (∀ b ∈ first :: conts, Lib.Text.isContinuation b = true) ∧ conts.length + 2 = c.utf8Size := by
  have hBytes := Lib.Text.charBytes c
  generalize String.utf8EncodeChar c = bytes at hBytes
  cases hBytes with
  | ascii _ _ hSize => exact absurd hSize h
  | @wide lead conts hLead _ hConts hSize hNonempty =>
    cases conts with
    | nil => exact absurd rfl hNonempty
    | cons first conts => exact ⟨lead, first, conts, rfl, hLead, hConts, hSize⟩

theorem isBoundary_cont {first : UInt8} {conts : Bytes} (h : Lib.Text.isContinuation first = true) :
    isBoundary (first :: conts) = false := by
  unfold isBoundary
  simp [h]

theorem outcome_percent {l : List Char} (ih : ∀ m : List Char, m.length < l.length + 1 → OutcomeOf m) :
    OutcomeOf ('%' :: l) := by
  have hIff := @decodable_cons '%' l
  cases l with
  | nil =>
    exact .right (hIff.mpr ⟨fun _ => ⟨nofun, nofun⟩, decodable_nil⟩)
  | cons c l =>
    by_cases hcSize : c.utf8Size = 1
    · obtain ⟨x, hx, hxNat⟩ := ascii_of_size hcSize
      cases l with
      | nil =>
        have hWell : FollowedWell [c] := by
          refine ⟨fun c' more hSplit => ?_, fun c' d more hSplit => ?_⟩
          · rw [← (List.cons_eq_cons.mp hSplit).1, hcSize]
            exact Nat.le_succ 1
          · exact absurd (List.cons_eq_cons.mp hSplit).2.symm (List.cons_ne_nil _ _)
        have hEncoded : encoded ['%', c] = [percent, x] := by
          rw [encoded_percent, encoded_cons, hx]
          rfl
        have hRest : Decodable [c] := decodable_cons.mpr ⟨fun _ => ⟨nofun, nofun⟩, decodable_nil⟩
        unfold OutcomeOf
        rw [hEncoded]
        exact .right (hIff.mpr ⟨fun _ => hWell, hRest⟩)
      | cons d l =>
        by_cases hdSize : d.utf8Size = 1
        · obtain ⟨y, hy, hyNat⟩ := ascii_of_size hdSize
          have hEncoded : encoded (c :: d :: l) = x :: y :: encoded l := by
            rw [encoded_cons, encoded_cons, hx, hy]
            rfl
          exact outcome_narrow hxNat hyNat hcSize hdSize hEncoded
            (ih _ (Nat.lt_succ_self _)) (ih _ (by rw [List.length_cons, List.length_cons]; omega))
        · obtain ⟨lead, first, conts, hd, -, hConts, -⟩ := wide_of_size hdSize
          unfold OutcomeOf
          rw [encoded_percent, encoded_cons, encoded_cons, hx, hd, List.singleton_append, List.cons_append,
            List.cons_append, decodeBytes_inside (isBoundary_cont (hConts first List.mem_cons_self))]
          refine .panic fun h => hdSize ?_
          exact (((hIff.mp h).1 rfl).narrow c d l rfl hcSize).1
    · obtain ⟨lead, first, conts, hc, hLead, hConts, hSize⟩ := wide_of_size hcSize
      cases conts with
      | nil =>
        have hWell : FollowedWell (c :: l) := by
          refine ⟨fun c' more hSplit => ?_, fun c' d more hSplit h => ?_⟩
          · rw [← (List.cons_eq_cons.mp hSplit).1, ← hSize]
            exact Nat.le_refl 2
          · rw [← (List.cons_eq_cons.mp hSplit).1] at h
            exact absurd h hcSize
        have hNone : hexValue lead = none := hexValue_wide (by omega)
        have hNotPlus : lead ≠ plus := fun h => absurd (h ▸ hLead) (by decide)
        have hEncoded : encoded (c :: l) = lead :: first :: encoded l := by
          rw [encoded_cons, hc]
          rfl
        have hNext := ih (c :: l) (Nat.lt_succ_self _)
        unfold OutcomeOf at hNext ⊢
        rw [encoded_percent, hEncoded, decodeBytes_percent (by rw [← hEncoded]; exact isBoundary_encoded _)
          (isBoundary_encoded _), fromStrRadix_pair hNotPlus, hNone, replaceTriples_kept (.inl hNone), ← hEncoded]
        exact hNext.append (hIff.trans (and_iff_right fun _ => hWell)) [percent]
      | cons second conts =>
        unfold OutcomeOf
        rw [encoded_percent, encoded_cons, hc, List.cons_append, List.cons_append, List.cons_append,
          decodeBytes_inside (isBoundary_cont (hConts second (List.mem_cons_of_mem _ List.mem_cons_self)))]
        refine .panic fun h => ?_
        have hNarrow := ((hIff.mp h).1 rfl).wide c l rfl
        rw [← hSize] at hNarrow
        simp at hNarrow

theorem outcome (l : List Char) : OutcomeOf l := by
  induction hn : l.length using Nat.strong_induction_on generalizing l with
  | _ n ih =>
    cases l with
    | nil => exact .right decodable_nil
    | cons c l =>
      rw [List.length_cons] at hn
      by_cases hc : c = '%'
      · rw [hc]
        exact outcome_percent fun m hm => ih m.length (by omega) m rfl
      · unfold OutcomeOf
        rw [encoded_cons, decodeBytes_append (percent_not_mem hc), replaceTriples_append (percent_not_mem hc)]
        exact (ih l.length (by omega) l rfl).append (decodable_cons_of_ne hc) _

/-! ## When decoding is exact -/

/-- The text is decoded without a panic, and exactly its triples are replaced. -/
def DecodesExactly (s : String) : Prop := urlencodingDecode s = some (fromUtf8Lossy (replaceTriples (utf8 s)))

theorem DiffersAt.fromUtf8Lossy_ne {out out' : Bytes} (h : DiffersAt out out') :
    fromUtf8Lossy out ≠ fromUtf8Lossy out' := by
  obtain ⟨common, a, b, rest, rest', rfl, rfl, hne, ha, hb⟩ := h
  intro hSame
  have hLists := String.ofList_injective hSame
  rw [@Lib.Text.fromUtf8LossyList_append _ _ none nofun common ha,
    @Lib.Text.fromUtf8LossyList_append _ _ none nofun common hb] at hLists
  have hChars := (List.cons_eq_cons.mp (List.append_cancel_left hLists)).1
  refine hne (UInt8.toNat_inj.mp ?_)
  have hValid : ∀ {c : UInt8}, c.toNat < 0x80 → (Char.ofNat c.toNat).toNat = c.toNat := fun hc =>
    Lib.Text.toNat_ofNat (.inl (by omega))
  rw [← hValid ha, hChars, hValid hb]

theorem decodesExactly_iff (s : String) : DecodesExactly s ↔ Decodable s.toList := by
  have hOutcome := outcome s.toList
  unfold OutcomeOf at hOutcome
  unfold DecodesExactly urlencodingDecode
  have hBytes : utf8 s = encoded s.toList := rfl
  rw [hBytes]
  generalize decodeBytes (encoded s.toList) = result at hOutcome
  cases hOutcome with
  | right hGood => exact iff_of_true rfl hGood
  | panic hBad => exact iff_of_false nofun hBad
  | wrong hBad hDiffers => exact iff_of_false (fun h => hDiffers.fromUtf8Lossy_ne (Option.some.inj h)) hBad

/-! ## Encoded paths -/

theorem Encodes.replaceTriples_eq {text : Bytes} (h : Encodes bytes text) : replaceTriples text = bytes := by
  induction h with
  | nil => rfl
  | plain hPercent _ ih => rw [replaceTriples_cons hPercent, ih]
  | triple hHigh hLow hByte _ ih => rw [replaceTriples_triple hHigh hLow, ih, ← hByte, UInt8.ofNat_toNat]

theorem Encodes.digits {text : Bytes} (h : Encodes bytes text) {front rest : Bytes}
    (hSplit : text = front ++ percent :: rest) : ∃ x y more, rest = x :: y :: more ∧
      hexValue x ≠ none ∧ hexValue y ≠ none := by
  have hNone : hexValue percent = none := by decide
  induction h generalizing front with
  | nil => exact absurd hSplit.symm (List.append_ne_nil_of_right_ne_nil _ (List.cons_ne_nil _ _))
  | plain hPercent _ ih =>
    cases front with
    | nil => exact absurd (List.cons_eq_cons.mp hSplit).1 hPercent
    | cons _ front => exact ih (List.cons_eq_cons.mp hSplit).2
  | @triple b x y high low bytes text hHigh hLow _ _ ih =>
    match front with
    | [] => exact ⟨x, y, text, (List.cons_eq_cons.mp hSplit).2.symm, by rw [hHigh]; nofun, by rw [hLow]; nofun⟩
    | [_] =>
      rw [(List.cons_eq_cons.mp (List.cons_eq_cons.mp hSplit).2).1, hNone] at hHigh
      cases hHigh
    | [_, _] =>
      rw [(List.cons_eq_cons.mp (List.cons_eq_cons.mp (List.cons_eq_cons.mp hSplit).2).2).1, hNone] at hLow
      cases hLow
    | _ :: _ :: _ :: front =>
      exact ih (List.cons_eq_cons.mp (List.cons_eq_cons.mp (List.cons_eq_cons.mp hSplit).2).2).2

theorem size_of_digit {c : Char} {l : List Char} {more : Bytes} (h : encoded (c :: l) = x :: more)
    (hDigit : hexValue x ≠ none) : c.utf8Size = 1 ∧ encoded l = more ∧ x.toNat = c.toNat := by
  by_cases hSize : c.utf8Size = 1
  · obtain ⟨b, hb, hNat⟩ := ascii_of_size hSize
    rw [encoded_cons, hb, List.singleton_append] at h
    obtain ⟨rfl, hMore⟩ := List.cons_eq_cons.mp h
    exact ⟨hSize, hMore, hNat⟩
  · obtain ⟨lead, first, conts, hc, hLead, -⟩ := wide_of_size hSize
    rw [encoded_cons, hc, List.cons_append] at h
    rw [← (List.cons_eq_cons.mp h).1] at hDigit
    exact absurd (hexValue_wide (by omega)) hDigit

theorem Encodes.decodable {s : String} (h : Encodes bytes (utf8 s)) : Decodable s.toList := by
  intro front rest hSplit
  have hText : utf8 s = encoded front ++ percent :: encoded rest := by
    show encoded s.toList = _
    rw [hSplit]
    exact List.flatMap_append
  obtain ⟨x, y, more, hRest, hx, hy⟩ := h.digits hText
  refine ⟨fun c l hc => ?_, fun c d l hcd _ => ?_⟩
  · rw [hc] at hRest
    rw [(size_of_digit hRest hx).1]
    exact Nat.le_succ 1
  · rw [hcd] at hRest
    obtain ⟨-, hTail, hNat⟩ := size_of_digit hRest hx
    refine ⟨(size_of_digit hTail hy).1, fun hPlus => hx ?_⟩
    rw [hexValue_of_byte hNat, hPlus.1]
    decide

theorem urlencodingDecode_of_encodes {p s : String} (h : Encodes (utf8 p) (utf8 s)) :
    urlencodingDecode s = some p := by
  rw [(decodesExactly_iff s).mpr h.decodable, h.replaceTriples_eq, Lib.Text.fromUtf8Lossy_utf8]

/-- When a text is decoded exactly, and what an encoded path decodes to. -/
theorem urlencoding_decode_iff (s : String) :
    (DecodesExactly s ↔ Decodable s.toList) ∧
    ∀ p, Encodes (utf8 p) (utf8 s) →
      urlencodingDecode s = some p ∧ parseFileUri ("file://" ++ s) = some (.ok p) := by
  refine ⟨decodesExactly_iff s, fun p h => ?_⟩
  have hDecode := urlencodingDecode_of_encodes h
  refine ⟨hDecode, ?_⟩
  unfold parseFileUri
  rw [Lib.Text.stripPrefix_append]
  dsimp only
  rw [hDecode]
  rfl

/-- A percent sign before a wide character, and one before a plus sign and a digit. -/
theorem urlencoding_decode_panics : urlencodingDecode "%€" = none ∧ ¬ DecodesExactly "%+5" := by
  refine ⟨by decide +kernel, fun h => ?_⟩
  revert h
  unfold DecodesExactly
  decide +kernel

end Exosuit.History
