import Mathlib.Data.List.Basic
import Mathlib.Data.String.Basic
import Mathlib.Logic.Function.Basic

/-!
# Codes that end where they say

A code is read off the front of anything that follows it. Such codes are put together from fixed
widths, sizes written in front, and one code after another.
-/

namespace Exosuit.Lib

universe u v w

variable {α : Type u} {ι : Type v} {β : Type w}

/-- Whatever follows, the value and what follows it are determined. -/
def PrefixCode (code : α → List β) : Prop :=
  ∀ ⦃a b : α⦄ ⦃s t : List β⦄, code a ++ s = code b ++ t → a = b ∧ s = t

namespace PrefixCode

variable {code : α → List β}

theorem of_width {n : Nat} (hWidth : ∀ a, (code a).length = n) (hInjective : Function.Injective code) :
    PrefixCode code := by
  intro a b s t h
  obtain ⟨hHead, hTail⟩ := List.append_inj h ((hWidth a).trans (hWidth b).symm)
  exact ⟨hInjective hHead, hTail⟩

theorem sized {header : ι → List β} (hHeader : PrefixCode header) {size : α → ι} {text : α → List β}
    (hSize : ∀ a b, size a = size b → (text a).length = (text b).length)
    (hText : Function.Injective text) : PrefixCode fun a => header (size a) ++ text a := by
  intro a b s t h
  dsimp only at h
  rw [List.append_assoc, List.append_assoc] at h
  obtain ⟨hEq, hRest⟩ := hHeader h
  obtain ⟨hHead, hTail⟩ := List.append_inj hRest (hSize a b hEq)
  exact ⟨hText hHead, hTail⟩

/-- One code after another; an empty one would not be noticed. -/
theorem flatMap_injective (h : PrefixCode code) (hNonempty : ∀ a, code a ≠ []) :
    Function.Injective fun l : List α => l.flatMap code := by
  intro l
  induction l with
  | nil =>
    intro m hEq
    cases m with
    | nil => rfl
    | cons b m => exact absurd (List.append_eq_nil_iff.mp hEq.symm).1 (hNonempty b)
  | cons a l ih =>
    intro m hEq
    cases m with
    | nil => exact absurd (List.append_eq_nil_iff.mp hEq).1 (hNonempty a)
    | cons b m =>
      obtain ⟨rfl, hRest⟩ := h hEq
      exact congrArg (a :: ·) (ih hRest)

theorem flatMap_eq_append (h : PrefixCode code) (hNonempty : ∀ a, code a ≠ []) {l m : List α} {t : List β}
    (hEq : l.flatMap code = m.flatMap code ++ t) : ∃ n, l = m ++ n ∧ t = n.flatMap code := by
  induction m generalizing l with
  | nil => exact ⟨l, rfl, hEq.symm⟩
  | cons b m ih =>
    cases l with
    | nil =>
      rw [List.flatMap_cons, List.append_assoc] at hEq
      exact absurd (List.append_eq_nil_iff.mp hEq.symm).1 (hNonempty b)
    | cons a l =>
      rw [List.flatMap_cons, List.flatMap_cons, List.append_assoc] at hEq
      obtain ⟨rfl, hRest⟩ := h hEq
      obtain ⟨n, rfl, hTail⟩ := ih hRest
      exact ⟨n, rfl, hTail⟩

end PrefixCode

/-- As many pieces of one width: the pieces are those that were joined. -/
theorem map_eq_of_flatMap_eq {n : Nat} {f : α → List β} {l m : List α} (hWidth : ∀ a, (f a).length = n)
    (hn : 0 < n) (h : l.flatMap f = m.flatMap f) : l.map f = m.map f := by
  induction l generalizing m with
  | nil =>
    cases m with
    | nil => rfl
    | cons b m =>
      have hNil := congrArg List.length (List.append_eq_nil_iff.mp h.symm).1
      rw [hWidth, List.length_nil] at hNil
      omega
  | cons a l ih =>
    cases m with
    | nil =>
      have hNil := congrArg List.length (List.append_eq_nil_iff.mp h).1
      rw [hWidth, List.length_nil] at hNil
      omega
    | cons b m =>
      obtain ⟨hHead, hTail⟩ := List.append_inj h ((hWidth a).trans (hWidth b).symm)
      rw [List.map_cons, List.map_cons, hHead, ih hTail]

/-! ## Hashing -/

abbrev Bytes := List UInt8

/-- A hasher keeps what it has been given so far. -/
def update (hashed bytes : Bytes) : Bytes := hashed ++ bytes

/-- Two strings of bytes that the hash does not tell apart. -/
def Collision (hash : Bytes → α) (bytes bytes' : Bytes) : Prop := bytes ≠ bytes' ∧ hash bytes = hash bytes'

theorem eq_or_collision {hash : Bytes → α} {l m : List Bytes} (h : l.map hash = m.map hash) :
    l = m ∨ ∃ bytes bytes', Collision hash bytes bytes' := by
  by_cases hInjective : Function.Injective hash
  · exact .inl (List.map_injective_iff.mpr hInjective h)
  · obtain ⟨bytes, bytes', hEq, hne⟩ := Function.not_injective_iff.mp hInjective
    exact .inr ⟨bytes, bytes', hne, hEq⟩

/-! ## Numbers -/

/-- The bytes of a number, the lowest first. -/
def leBytes : (width n : Nat) → List UInt8
  | 0, _ => []
  | width + 1, n => UInt8.ofNat (n % 256) :: leBytes width (n / 256)

@[simp] theorem length_leBytes (width n : Nat) : (leBytes width n).length = width := by
  induction width generalizing n with
  | zero => rfl
  | succ width ih => exact congrArg (· + 1) (ih (n / 256))

theorem leBytes_inj {width n m : Nat} (hn : n < 256 ^ width) (hm : m < 256 ^ width)
    (h : leBytes width n = leBytes width m) : n = m := by
  induction width generalizing n m with
  | zero =>
    rw [Nat.pow_zero, Nat.lt_one_iff] at hn hm
    rw [hn, hm]
  | succ width ih =>
    obtain ⟨hLow, hHigh⟩ := List.cons_eq_cons.mp h
    rw [Nat.pow_succ] at hn hm
    have hRest := ih (Nat.div_lt_of_lt_mul (by omega)) (Nat.div_lt_of_lt_mul (by omega)) hHigh
    have hDigit : n % 256 = m % 256 := by
      have hNat := congrArg UInt8.toNat hLow
      rw [UInt8.toNat_ofNat', UInt8.toNat_ofNat'] at hNat
      omega
    omega

/-! ## Texts -/

theorem lt_append {s t : String} (h : t ≠ "") : s < s ++ t := by
  rw [String.lt_iff_toList_lt, String.toList_append]
  cases hList : t.toList with
  | nil => exact absurd (String.toList_eq_nil_iff.mp hList) h
  | cons c rest =>
    induction s.toList with
    | nil => exact List.Lex.nil
    | cons d l ih => exact List.Lex.cons ih

/-- `as_bytes` -/
def utf8 (s : String) : List UInt8 := s.toList.flatMap String.utf8EncodeChar

theorem prefixCode_utf8EncodeChar : PrefixCode String.utf8EncodeChar := by
  intro a b s t h
  have hChars : ∀ c r, ((String.utf8EncodeChar c ++ r).toByteArray).utf8DecodeChar? 0 = some c := by
    intro c r
    rw [List.toByteArray_append]
    exact ByteArray.utf8DecodeChar?_utf8EncodeChar_append
  have hEq : a = b := by
    have hBoth := hChars a s
    rw [h, hChars b t] at hBoth
    exact (Option.some.inj hBoth).symm
  subst hEq
  exact ⟨rfl, List.append_cancel_left h⟩

theorem utf8_injective : Function.Injective utf8 := fun _ _ h =>
  String.ext_iff.mpr
    (prefixCode_utf8EncodeChar.flatMap_injective (fun _ => String.utf8EncodeChar_ne_nil) h)

@[simp] theorem utf8_append (s t : String) : utf8 (s ++ t) = utf8 s ++ utf8 t := by
  unfold utf8
  rw [String.toList_append, List.flatMap_append]

theorem utf8_eq_append {s t : String} {bytes : List UInt8} (h : utf8 s = utf8 t ++ bytes) :
    ∃ piece, s = t ++ piece ∧ bytes = utf8 piece := by
  obtain ⟨piece, hText, rfl⟩ :=
    prefixCode_utf8EncodeChar.flatMap_eq_append (fun _ => String.utf8EncodeChar_ne_nil) h
  refine ⟨String.ofList piece, ?_, ?_⟩
  · rw [← String.toList_inj, String.toList_append, String.toList_ofList, hText]
  · rw [utf8, String.toList_ofList]

/-- Two texts end in the same place, or a piece of text stands between their ends. -/
theorem utf8_append_eq_iff {s t : String} {bytes bytes' : List UInt8} :
    utf8 s ++ bytes = utf8 t ++ bytes' ↔ ∃ piece : String,
      (s = t ++ piece ∧ bytes' = utf8 piece ++ bytes) ∨ (t = s ++ piece ∧ bytes = utf8 piece ++ bytes') := by
  constructor
  · intro h
    rcases List.append_eq_append_iff.mp h with ⟨more, hMore, hRest⟩ | ⟨more, hMore, hRest⟩
    · obtain ⟨piece, hText, rfl⟩ := utf8_eq_append hMore
      exact ⟨piece, .inr ⟨hText, hRest⟩⟩
    · obtain ⟨piece, hText, rfl⟩ := utf8_eq_append hMore
      exact ⟨piece, .inl ⟨hText, hRest⟩⟩
  · rintro ⟨piece, ⟨rfl, rfl⟩ | ⟨rfl, rfl⟩⟩
    · rw [utf8_append, List.append_assoc]
    · rw [utf8_append, List.append_assoc]

@[simp] theorem length_utf8 (s : String) : (utf8 s).length = s.utf8ByteSize := by
  have hChars : ∀ l : List Char, (l.flatMap String.utf8EncodeChar).length = (String.ofList l).utf8ByteSize := by
    intro l
    induction l with
    | nil => rfl
    | cons c l ih =>
      rw [List.flatMap_cons, List.length_append, ih, String.length_utf8EncodeChar, String.ofList_cons,
        String.utf8ByteSize_append, String.utf8ByteSize_singleton]
  exact (hChars s.toList).trans (congrArg String.utf8ByteSize String.ofList_toList)

end Exosuit.Lib
