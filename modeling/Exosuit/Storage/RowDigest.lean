import Exosuit.Lib.Codes

/-!
# Digests of rows

The digest of a row is taken over one string of bytes for all of its values. Each value says in its
first byte what it is, and a text or a blob says how long it is, so that the bytes give the row back.
-/

namespace Exosuit.RowDigest

open Lib (Bytes Collision PrefixCode leBytes update utf8)

/-- No allocation holds more bytes than an `isize` counts. -/
def maxLength : Nat := 2 ^ 63

/-- `String` -/
structure Text where
  chars : String
  size_lt : chars.utf8ByteSize < maxLength

/-- `Vec<u8>` -/
structure Blob where
  bytes : List UInt8
  length_lt : bytes.length < maxLength

/-- A real is the pattern of its bits. -/
inductive Value
  | null
  | integer (i : Int64)
  | real (bits : UInt64)
  | text (s : Text)
  | blob (b : Blob)

def hashVariableBytes (hashed bytes : Bytes) : Bytes :=
  update (update hashed (leBytes 8 bytes.length)) bytes

def hashValue (hashed : Bytes) : Value → Bytes
  | .null => update hashed [0]
  | .integer i => update (update hashed [1]) (leBytes 8 i.toUInt64.toNat)
  | .real bits => update (update hashed [2]) (leBytes 8 bits.toNat)
  | .text s => hashVariableBytes (update hashed [3]) (utf8 s.chars)
  | .blob b => hashVariableBytes (update hashed [4]) b.bytes

/-- What `compute_row_digest` has given its hasher when it finalizes it. -/
def rowBytes (row : List Value) : Bytes := row.foldl hashValue []

def computeRowDigest {Digest : Type*} (hash : Bytes → Digest) (row : List Value) : Digest := hash (rowBytes row)

/-! ## One value after another -/

variable {α : Type*}

theorem hashValue_append (hashed : Bytes) (v : Value) : hashValue hashed v = hashed ++ hashValue [] v := by
  cases v <;> simp [hashValue, hashVariableBytes, update]

theorem rowBytes_eq (row : List Value) : rowBytes row = row.flatMap (hashValue []) := by
  have hFold : ∀ hashed, row.foldl hashValue hashed = hashed ++ row.flatMap (hashValue []) := by
    induction row with
    | nil => exact fun hashed => (List.append_nil hashed).symm
    | cons v row ih =>
      intro hashed
      rw [List.foldl_cons, ih, hashValue_append, List.flatMap_cons, List.append_assoc]
  exact hFold []

/-! ## A value is read off -/

theorem leBytes_uInt64_inj {n m : UInt64} (h : leBytes 8 n.toNat = leBytes 8 m.toNat) : n = m :=
  UInt64.toNat_inj.mp (Lib.leBytes_inj n.toNat_lt m.toNat_lt h)

theorem prefixCode_integer : PrefixCode fun i : Int64 => leBytes 8 i.toUInt64.toNat := by
  refine .of_width (fun _ => Lib.length_leBytes 8 _) fun i j h => ?_
  have hEq := leBytes_uInt64_inj h
  cases i
  cases j
  exact congrArg Int64.ofUInt64 hEq

theorem prefixCode_real : PrefixCode fun bits : UInt64 => leBytes 8 bits.toNat :=
  .of_width (fun _ => Lib.length_leBytes 8 _) fun _ _ => leBytes_uInt64_inj

theorem prefixCode_length : PrefixCode fun n : Fin maxLength => leBytes 8 n.val := by
  have hBound : maxLength ≤ 256 ^ 8 := by decide
  refine .of_width (fun _ => Lib.length_leBytes 8 _) fun n m h => Fin.ext (Lib.leBytes_inj ?_ ?_ h)
  · exact Nat.lt_of_lt_of_le n.isLt hBound
  · exact Nat.lt_of_lt_of_le m.isLt hBound

theorem prefixCode_variable {bytes : α → Bytes} (hLength : ∀ a, (bytes a).length < maxLength)
    (hBytes : Function.Injective bytes) : PrefixCode fun a => hashVariableBytes [] (bytes a) :=
  @PrefixCode.sized _ _ _ _ prefixCode_length (fun a => ⟨(bytes a).length, hLength a⟩) bytes
    (fun _ _ => congrArg Fin.val) hBytes

theorem prefixCode_text : PrefixCode fun s : Text => hashVariableBytes [] (utf8 s.chars) := by
  refine prefixCode_variable (fun s => ?_) fun s t h => ?_
  · rw [Lib.length_utf8]
    exact s.size_lt
  · cases s
    cases t
    congr
    exact Lib.utf8_injective h

theorem prefixCode_blob : PrefixCode fun b : Blob => hashVariableBytes [] b.bytes := by
  refine prefixCode_variable Blob.length_lt fun b c h => ?_
  cases b
  cases c
  congr

def Value.tag : Value → UInt8
  | .null => 0
  | .integer _ => 1
  | .real _ => 2
  | .text _ => 3
  | .blob _ => 4

theorem head?_hashValue (v : Value) (rest : Bytes) : (hashValue [] v ++ rest).head? = some v.tag := by
  cases v <;> rfl

/-- The first byte tells the kinds apart, and each kind is read off behind it. -/
theorem prefixCode_hashValue : PrefixCode (hashValue []) := by
  intro v w s t h
  have hTag : v.tag = w.tag := by
    have hHead := congrArg List.head? h
    rw [head?_hashValue, head?_hashValue] at hHead
    exact Option.some.inj hHead
  have hBody : (hashValue [] v ++ s).tail = (hashValue [] w ++ t).tail := congrArg List.tail h
  cases v with
  | null =>
    cases w with
    | null => exact ⟨rfl, hBody⟩
    | _ => simp [Value.tag] at hTag
  | integer i =>
    cases w with
    | integer j =>
      obtain ⟨rfl, hRest⟩ := prefixCode_integer hBody
      exact ⟨rfl, hRest⟩
    | _ => simp [Value.tag] at hTag
  | real bits =>
    cases w with
    | real bits' =>
      obtain ⟨rfl, hRest⟩ := prefixCode_real hBody
      exact ⟨rfl, hRest⟩
    | _ => simp [Value.tag] at hTag
  | text a =>
    cases w with
    | text b =>
      obtain ⟨rfl, hRest⟩ := prefixCode_text hBody
      exact ⟨rfl, hRest⟩
    | _ => simp [Value.tag] at hTag
  | blob a =>
    cases w with
    | blob b =>
      obtain ⟨rfl, hRest⟩ := prefixCode_blob hBody
      exact ⟨rfl, hRest⟩
    | _ => simp [Value.tag] at hTag

theorem hashValue_ne_nil (v : Value) : hashValue [] v ≠ [] := by
  cases v <;> exact List.cons_ne_nil _ _

/-! ## Rows are told apart -/

theorem rowBytes_injective : Function.Injective rowBytes := by
  intro row row' h
  rw [rowBytes_eq, rowBytes_eq] at h
  exact prefixCode_hashValue.flatMap_injective hashValue_ne_nil h

/-- Equal bytes are those of one row, so that another row has another digest as long as the hash
tells their bytes apart. -/
theorem computeRowDigest_separates {Digest : Type*} (hash : Bytes → Digest) (row row' : List Value) :
    (rowBytes row = rowBytes row' → row = row') ∧
    (computeRowDigest hash row = computeRowDigest hash row' →
      row = row' ∨ Collision hash (rowBytes row) (rowBytes row')) := by
  refine ⟨fun h => rowBytes_injective h, fun h => ?_⟩
  by_cases hEq : rowBytes row = rowBytes row'
  · exact .inl (rowBytes_injective hEq)
  · exact .inr ⟨hEq, h⟩

end Exosuit.RowDigest
