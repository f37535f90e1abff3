import Mathlib.Tactic.IntervalCases
import Exosuit.Lib.Codes
import Exosuit.Lib.Text

/-!
# The bytes of a text

How the bytes of a character look, where a text may be cut, and how a text is read back from bytes.
-/

namespace Exosuit.Lib.Text

/-- A byte inside a character. -/
def isContinuation (b : UInt8) : Bool := 0x80 ≤ b.toNat && b.toNat < 0xC0

/-- `is_char_boundary`, for the bytes behind the place. -/
def isBoundary (rest : List UInt8) : Bool := rest.head?.all fun b => !isContinuation b

/-! ## The bytes of a character -/

inductive CharBytes (c : Char) : List UInt8 → Prop
  | ascii {b : UInt8} (hByte : b.toNat = c.toNat) (hAscii : c.toNat < 0x80) (hSize : c.utf8Size = 1) : CharBytes c [b]
  | wide {lead : UInt8} {conts : List UInt8} (hLead : 0xC0 ≤ lead.toNat) (hWide : 0x80 ≤ c.toNat)
      (hConts : ∀ b ∈ conts, isContinuation b = true) (hSize : conts.length + 1 = c.utf8Size)
      (hNonempty : conts ≠ []) : CharBytes c (lead :: conts)

theorem isContinuation_ofNat (n : Nat) : isContinuation (UInt8.ofNat (n % 64 + 128)) = true := by
  unfold isContinuation
  rw [UInt8.toNat_ofNat', Bool.and_eq_true, decide_eq_true_eq, decide_eq_true_eq]
  omega

theorem toNat_lead {n m k : Nat} (hn : n < m) (hk : m + k ≤ 256) : (UInt8.ofNat (n % m + k)).toNat = n + k := by
  rw [UInt8.toNat_ofNat', Nat.mod_eq_of_lt hn, Nat.mod_eq_of_lt (by omega)]

theorem charBytes (c : Char) : CharBytes c (String.utf8EncodeChar c) := by
  have hSize := String.length_utf8EncodeChar c
  have hBound : c.val.toNat < 0x110000 := by
    have hValid := c.valid
    unfold UInt32.isValidChar Nat.isValidChar at hValid
    omega
  unfold String.utf8EncodeChar at hSize ⊢
  dsimp only at hSize ⊢
  split
  · next h =>
    rw [if_pos h] at hSize
    refine .ascii ?_ (Nat.lt_succ_of_le h) hSize.symm
    rw [UInt8.toNat_ofNat', Nat.mod_eq_of_lt (by omega)]
    rfl
  · next h =>
    rw [if_neg h] at hSize
    have hWide : 0x80 ≤ c.toNat := Nat.lt_of_not_le h
    split
    · next h2 =>
      rw [if_pos h2] at hSize
      refine .wide ?_ hWide ?_ hSize (List.cons_ne_nil _ _)
      · rw [toNat_lead (by omega) (by decide)]
        omega
      · simp only [List.forall_mem_cons, isContinuation_ofNat, List.not_mem_nil, false_imp_iff, implies_true, and_self]
    · next h2 =>
      rw [if_neg h2] at hSize
      split
      · next h3 =>
        rw [if_pos h3] at hSize
        refine .wide ?_ hWide ?_ hSize (List.cons_ne_nil _ _)
        · rw [toNat_lead (by omega) (by decide)]
          omega
        · simp only [List.forall_mem_cons, isContinuation_ofNat, List.not_mem_nil, false_imp_iff, implies_true, and_self]
      · next h3 =>
        rw [if_neg h3] at hSize
        refine .wide ?_ hWide ?_ hSize (List.cons_ne_nil _ _)
        · rw [toNat_lead (by omega) (by decide)]
          omega
        · simp only [List.forall_mem_cons, isContinuation_ofNat, List.not_mem_nil, false_imp_iff, implies_true, and_self]

/-! ## Reading a text back -/

section

variable {b : UInt8} {rest : List UInt8}

theorem fromUtf8LossyList_ascii (h : b.toNat < 0x80) :
    fromUtf8LossyList none (b :: rest) = Char.ofNat b.toNat :: fromUtf8LossyList none rest := by
  rw [fromUtf8LossyList]
  exact if_pos h

theorem fromUtf8LossyList_lead {state : Utf8State} (h : 0x80 ≤ b.toNat) (hLead : utf8Lead b.toNat = some state) :
    fromUtf8LossyList none (b :: rest) = fromUtf8LossyList (some state) rest := by
  rw [fromUtf8LossyList]
  dsimp only
  rw [if_neg (Nat.not_lt_of_le h), hLead]
  rfl

theorem fromUtf8LossyList_bad (h : 0x80 ≤ b.toNat) (hLead : utf8Lead b.toNat = none) :
    fromUtf8LossyList none (b :: rest) = '\uFFFD' :: fromUtf8LossyList none rest := by
  rw [fromUtf8LossyList]
  dsimp only
  rw [if_neg (Nat.not_lt_of_le h), hLead]
  rfl

theorem fromUtf8LossyList_within {state : Utf8State} (h : state.low ≤ b.toNat ∧ b.toNat ≤ state.high) :
    fromUtf8LossyList (some state) (b :: rest) =
      if state.need = 1 then Char.ofNat (state.acc * 64 + b.toNat % 64) :: fromUtf8LossyList none rest
      else fromUtf8LossyList (some ⟨state.need - 1, state.acc * 64 + b.toNat % 64, 0x80, 0xBF⟩) rest := by
  rw [fromUtf8LossyList]
  exact if_pos h

theorem fromUtf8LossyList_last {acc low high : Nat} (h : low ≤ b.toNat ∧ b.toNat ≤ high) :
    fromUtf8LossyList (some ⟨1, acc, low, high⟩) (b :: rest) =
      Char.ofNat (acc * 64 + b.toNat % 64) :: fromUtf8LossyList none rest :=
  fromUtf8LossyList_within h

theorem fromUtf8LossyList_more {need acc low high : Nat} (h : low ≤ b.toNat ∧ b.toNat ≤ high) :
    fromUtf8LossyList (some ⟨need + 2, acc, low, high⟩) (b :: rest) =
      fromUtf8LossyList (some ⟨need + 1, acc * 64 + b.toNat % 64, 0x80, 0xBF⟩) rest := by
  rw [fromUtf8LossyList_within h]
  exact if_neg (Nat.succ_succ_ne_one need)

theorem fromUtf8LossyList_restart {state : Utf8State} (h : ¬ (state.low ≤ b.toNat ∧ b.toNat ≤ state.high)) :
    fromUtf8LossyList (some state) (b :: rest) = '\uFFFD' :: fromUtf8LossyList none (b :: rest) := by
  conv_lhs => rw [fromUtf8LossyList]
  conv_rhs => rw [fromUtf8LossyList]
  rw [if_neg h]
  split
  · rfl
  · split
    · rfl
    · rfl

theorem utf8Lead_two {n : Nat} (hLow : 2 ≤ n) (hHigh : n < 32) :
    utf8Lead (n + 0xC0) = some ⟨1, n, 0x80, 0xBF⟩ := by
  interval_cases n <;> rfl

theorem utf8Lead_three {n : Nat} (h : n < 16) : utf8Lead (n + 0xE0) =
    some ⟨2, n, if n = 0 then 0xA0 else 0x80, if n = 13 then 0x9F else 0xBF⟩ := by
  interval_cases n <;> rfl

theorem utf8Lead_four {n : Nat} (h : n < 5) : utf8Lead (n + 0xF0) =
    some ⟨3, n, if n = 0 then 0x90 else 0x80, if n = 4 then 0x8F else 0xBF⟩ := by
  interval_cases n <;> rfl

theorem toNat_cont (n : Nat) : (UInt8.ofNat (n % 64 + 128)).toNat = n % 64 + 128 := by
  rw [UInt8.toNat_ofNat']
  omega

theorem fromUtf8LossyList_utf8EncodeChar (c : Char) (rest : List UInt8) :
    fromUtf8LossyList none (String.utf8EncodeChar c ++ rest) = c :: fromUtf8LossyList none rest := by
  have hValid : c.val.toNat < 0xD800 ∨ 0xDFFF < c.val.toNat ∧ c.val.toNat < 0x110000 := c.valid
  have hChar : Char.ofNat c.val.toNat = c := Char.ofNat_toNat c
  unfold String.utf8EncodeChar
  dsimp only
  split
  · next h =>
    have hByte : (UInt8.ofNat c.val.toNat).toNat = c.val.toNat := by
      rw [UInt8.toNat_ofNat', Nat.mod_eq_of_lt (by omega)]
    rw [List.singleton_append, fromUtf8LossyList_ascii (by omega), hByte, hChar]
  · split
    · next h h2 =>
      have hLead := toNat_lead (n := c.val.toNat / 64) (m := 32) (k := 0xC0) (by omega) (by decide)
      have hCont := toNat_cont c.val.toNat
      have hValue : c.val.toNat / 64 * 64 + (c.val.toNat % 64 + 128) % 64 = c.val.toNat := by omega
      rw [List.cons_append, List.singleton_append, fromUtf8LossyList_lead (by omega)
        (by rw [hLead, utf8Lead_two (by omega) (by omega)]), fromUtf8LossyList_last (by omega), hCont, hValue,
        hChar]
    · split
      · next h h2 h3 =>
        have hLead := toNat_lead (n := c.val.toNat / 4096) (m := 16) (k := 0xE0) (by omega) (by decide)
        have hFirst := toNat_cont (c.val.toNat / 64)
        have hLast := toNat_cont c.val.toNat
        have hValue : (c.val.toNat / 4096 * 64 + (c.val.toNat / 64 % 64 + 128) % 64) * 64 +
            (c.val.toNat % 64 + 128) % 64 = c.val.toNat := by omega
        rw [List.cons_append, List.cons_append, List.singleton_append, fromUtf8LossyList_lead (by omega)
          (by rw [hLead, utf8Lead_three (by omega)]), fromUtf8LossyList_more (by split_ifs <;> omega),
          fromUtf8LossyList_last (by omega), hFirst, hLast, hValue, hChar]
      · next h h2 h3 =>
        have hLead := toNat_lead (n := c.val.toNat / 262144) (m := 8) (k := 0xF0) (by omega) (by decide)
        have hFirst := toNat_cont (c.val.toNat / 4096)
        have hSecond := toNat_cont (c.val.toNat / 64)
        have hLast := toNat_cont c.val.toNat
        have hValue : ((c.val.toNat / 262144 * 64 + (c.val.toNat / 4096 % 64 + 128) % 64) * 64 +
            (c.val.toNat / 64 % 64 + 128) % 64) * 64 + (c.val.toNat % 64 + 128) % 64 = c.val.toNat := by omega
        rw [List.cons_append, List.cons_append, List.cons_append, List.singleton_append,
          fromUtf8LossyList_lead (by omega) (by rw [hLead, utf8Lead_four (by omega)]),
          fromUtf8LossyList_more (by split_ifs <;> omega), fromUtf8LossyList_more (by omega),
          fromUtf8LossyList_last (by omega), hFirst, hSecond, hLast, hValue, hChar]

/-- A text is read back from its own bytes. -/
theorem fromUtf8Lossy_utf8 (s : String) : fromUtf8Lossy (utf8 s) = s := by
  have hChars : ∀ l : List Char, fromUtf8LossyList none (l.flatMap String.utf8EncodeChar) = l := by
    intro l
    induction l with
    | nil => rfl
    | cons c l ih => rw [List.flatMap_cons, fromUtf8LossyList_utf8EncodeChar, ih]
  unfold fromUtf8Lossy utf8
  rw [hChars, String.ofList_toList]

theorem low_utf8Lead {n : Nat} {state : Utf8State} (h : utf8Lead n = some state) : 0x80 ≤ state.low := by
  unfold utf8Lead at h
  split_ifs at h
  all_goals
    cases h
    dsimp only
    decide

/-- An ASCII byte begins a character, whatever stands before it. -/
theorem fromUtf8LossyList_append {pending : Option Utf8State} (hPending : ∀ state ∈ pending, 0x80 ≤ state.low)
    (bytes : List UInt8) (h : b.toNat < 0x80) : fromUtf8LossyList pending (bytes ++ b :: rest) =
      fromUtf8LossyList pending bytes ++ Char.ofNat b.toNat :: fromUtf8LossyList none rest := by
  induction bytes generalizing pending with
  | nil =>
    cases pending with
    | none => exact fromUtf8LossyList_ascii h
    | some state =>
      have hLow := hPending state rfl
      rw [List.nil_append, fromUtf8LossyList_restart fun hIn => by omega, fromUtf8LossyList_ascii h]
      rfl
  | cons x bytes ih =>
    have hNone : fromUtf8LossyList none ((x :: bytes) ++ b :: rest) =
        fromUtf8LossyList none (x :: bytes) ++ Char.ofNat b.toNat :: fromUtf8LossyList none rest := by
      rw [List.cons_append]
      by_cases hAscii : x.toNat < 0x80
      · rw [fromUtf8LossyList_ascii hAscii, fromUtf8LossyList_ascii hAscii, @ih none nofun, List.cons_append]
      · cases hLead : utf8Lead x.toNat with
        | none =>
          rw [fromUtf8LossyList_bad (by omega) hLead, fromUtf8LossyList_bad (by omega) hLead, @ih none nofun,
            List.cons_append]
        | some state =>
          rw [fromUtf8LossyList_lead (by omega) hLead, fromUtf8LossyList_lead (by omega) hLead,
            ih fun state' hState => Option.some.inj hState ▸ low_utf8Lead hLead]
    cases pending with
    | none => exact hNone
    | some state =>
      by_cases hIn : state.low ≤ x.toNat ∧ x.toNat ≤ state.high
      · rw [List.cons_append, fromUtf8LossyList_within hIn, fromUtf8LossyList_within hIn]
        split
        · rw [@ih none nofun, List.cons_append]
        · rw [ih fun state' hState => Option.some.inj hState ▸ Nat.le_refl 0x80]
      · rw [List.cons_append, fromUtf8LossyList_restart hIn, fromUtf8LossyList_restart hIn, ← List.cons_append,
          hNone, List.cons_append]

end

end Exosuit.Lib.Text
