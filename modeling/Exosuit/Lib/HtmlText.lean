import Mathlib.Data.List.Basic
import Mathlib.Tactic.Cases

/-!
# Text in HTML

The value of the text between two tags and of a quoted attribute: newlines are normalised, null
characters dropped or replaced, and character references decoded. The table of the references is
only known by what holds of it.
-/

namespace Exosuit.Lib.Html

/-! ## Character references -/

/-- What a character reference stands for, and how many characters after the ampersand it takes; in an
attribute fewer texts are references. -/
structure References where
  read : Bool → List Char → Option (List Char × Nat)
  quot (inAttr : Bool) (l : List Char) : read inAttr ('q' :: 'u' :: 'o' :: 't' :: ';' :: l) = some (['"'], 5)
  amp (inAttr : Bool) (l : List Char) : read inAttr ('a' :: 'm' :: 'p' :: ';' :: l) = some (['&'], 4)
  lt (inAttr : Bool) (l : List Char) : read inAttr ('l' :: 't' :: ';' :: l) = some (['<'], 3)
  gt (inAttr : Bool) (l : List Char) : read inAttr ('g' :: 't' :: ';' :: l) = some (['>'], 3)
  apos (inAttr : Bool) (l : List Char) :
    read inAttr ('#' :: '0' :: '3' :: '9' :: ';' :: l) = some (['\x27'], 5)
  short {inAttr : Bool} {l v : List Char} {n : Nat} : read inAttr l = some (v, n) → v.length ≤ n
  taken {inAttr : Bool} {l v : List Char} {n : Nat} : read inAttr l = some (v, n) →
    n ≤ l.length ∧ ∀ c ∈ l.take n, c ≠ '&' ∧ c ≠ '"'
  stops (inAttr : Bool) {c d : Char} (hc : c = '&' ∨ c = '"') (hd : d = '&' ∨ d = '"') (u v w : List Char) :
    read inAttr (u ++ c :: v) = read inAttr (u ++ d :: w)

/-- The references that the escapes below make, and no others. -/
def basicRead : List Char → Option (List Char × Nat)
  | 'q' :: 'u' :: 'o' :: 't' :: ';' :: _ => some (['"'], 5)
  | 'a' :: 'm' :: 'p' :: ';' :: _ => some (['&'], 4)
  | 'l' :: 't' :: ';' :: _ => some (['<'], 3)
  | 'g' :: 't' :: ';' :: _ => some (['>'], 3)
  | '#' :: '0' :: '3' :: '9' :: ';' :: _ => some (['\x27'], 5)
  | _ => none

theorem basicRead_eq_some {l v : List Char} {n : Nat} (h : basicRead l = some (v, n)) :
    v.length ≤ n ∧ n ≤ l.length ∧ ∀ c ∈ l.take n, c ≠ '&' ∧ c ≠ '"' := by
  unfold basicRead at h
  split at h
  all_goals cases h
  all_goals refine ⟨by decide, by simp, ?_⟩
  all_goals simp

theorem append_of_not_mem {c : Char} {u v w r : List Char} (h : u ++ c :: v = w ++ r) (hc : c ∉ w) :
    ∃ rest, u = w ++ rest := by
  rcases List.append_eq_append_iff.mp h with ⟨m, hWord, hRest⟩ | ⟨m, hWord, -⟩
  · cases m with
    | nil => exact ⟨[], by rw [hWord, List.append_nil, List.append_nil]⟩
    | cons d m =>
      obtain ⟨rfl, -⟩ := List.cons_eq_cons.mp hRest
      exact absurd (hWord ▸ List.mem_append_right u List.mem_cons_self) hc
  · exact ⟨m, hWord⟩

/-- A reference in front of a mark does not depend on what stands from there on. -/
theorem basicRead_of_append {c : Char} (hc : c = '&' ∨ c = '"') {u v : List Char} {r : List Char × Nat}
    (h : basicRead (u ++ c :: v) = some r) (w : List Char) : basicRead (u ++ w) = some r := by
  have hWord : ∀ word rest : List Char, u ++ c :: v = word ++ rest → '&' ∉ word → '"' ∉ word →
      ∃ rest, u = word ++ rest := by
    intro word rest hSplit hAmp hQuote
    refine append_of_not_mem hSplit ?_
    rcases hc with rfl | rfl
    · exact hAmp
    · exact hQuote
  unfold basicRead at h
  split at h
  · next rest hSplit =>
    obtain ⟨rest, rfl⟩ := hWord ['q', 'u', 'o', 't', ';'] rest hSplit (by decide) (by decide)
    exact h
  · next rest hSplit =>
    obtain ⟨rest, rfl⟩ := hWord ['a', 'm', 'p', ';'] rest hSplit (by decide) (by decide)
    exact h
  · next rest hSplit =>
    obtain ⟨rest, rfl⟩ := hWord ['l', 't', ';'] rest hSplit (by decide) (by decide)
    exact h
  · next rest hSplit =>
    obtain ⟨rest, rfl⟩ := hWord ['g', 't', ';'] rest hSplit (by decide) (by decide)
    exact h
  · next rest hSplit =>
    obtain ⟨rest, rfl⟩ := hWord ['#', '0', '3', '9', ';'] rest hSplit (by decide) (by decide)
    exact h
  · contradiction

def basic : References where
  read _ l := basicRead l
  quot _ _ := rfl
  amp _ _ := rfl
  lt _ _ := rfl
  gt _ _ := rfl
  apos _ _ := rfl
  short h := (basicRead_eq_some h).1
  taken h := (basicRead_eq_some h).2
  stops _ _ _ hc hd u v w := by
    ext r
    constructor
    · exact fun h => basicRead_of_append hc h _
    · exact fun h => basicRead_of_append hd h _

instance : Inhabited References := ⟨basic⟩

/-- `skip` characters of a reference are still to come. -/
def decodeFrom (R : References) (inAttr : Bool) (skip : Nat) : List Char → List Char
  | [] => []
  | c :: cs =>
    match skip with
    | n + 1 => decodeFrom R inAttr n cs
    | 0 =>
      if c = '&' then
        match R.read inAttr cs with
        | some (v, n) => v ++ decodeFrom R inAttr n cs
        | none => c :: decodeFrom R inAttr 0 cs
      else c :: decodeFrom R inAttr 0 cs

def decode (R : References) (inAttr : Bool) (l : List Char) : List Char := decodeFrom R inAttr 0 l

/-- The newlines of the input become line feeds; `afterReturn` one was a carriage return. -/
def newlines (afterReturn : Bool) : List Char → List Char
  | [] => []
  | c :: cs =>
    if c = '\r' then '\n' :: newlines true cs
    else if c = '\n' ∧ afterReturn = true then newlines false cs
    else c :: newlines false cs

def nul : Char := '\x00'

def cleanText (l : List Char) : List Char := (newlines false l).filter fun c => c ≠ nul

def cleanAttr (l : List Char) : List Char := (newlines false l).map fun c => if c = nul then '\uFFFD' else c

def textValue (R : References) (l : List Char) : List Char := decode R false (cleanText l)

def attrValue (R : References) (l : List Char) : List Char := decode R true (cleanAttr l)

/-! ## Escapes -/

def replaceAll (c : Char) (into : List Char) (l : List Char) : List Char :=
  l.flatMap fun d => if d = c then into else [d]

variable {R : References} {inAttr : Bool} {l r : List Char} {c : Char}

theorem decodeFrom_eq (skip : Nat) (l : List Char) :
    decodeFrom R inAttr skip l = decode R inAttr (l.drop skip) := by
  induction l generalizing skip with
  | nil =>
    rw [List.drop_nil]
    rfl
  | cons c l ih =>
    cases skip with
    | zero => rfl
    | succ skip => exact ih skip

theorem decode_cons (h : c ≠ '&') (l : List Char) :
    decode R inAttr (c :: l) = c :: decode R inAttr l := by
  rw [decode, decodeFrom, if_neg h, decode]

theorem decode_reference {v : List Char} {n : Nat} (h : R.read inAttr l = some (v, n)) :
    decode R inAttr ('&' :: l) = v ++ decode R inAttr (l.drop n) := by
  rw [decode, decodeFrom, if_pos rfl, h]
  exact congrArg (v ++ ·) (decodeFrom_eq n l)

theorem decode_ampersand (h : R.read inAttr l = none) :
    decode R inAttr ('&' :: l) = '&' :: decode R inAttr l := by
  rw [decode, decodeFrom, if_pos rfl, h, decode]

theorem decode_flatMap {escape : Char → List Char}
    (h : ∀ c r, decode R inAttr (escape c ++ r) = c :: decode R inAttr r) (l r : List Char) :
    decode R inAttr (l.flatMap escape ++ r) = l ++ decode R inAttr r := by
  induction l with
  | nil => rfl
  | cons c l ih => rw [List.flatMap_cons, List.append_assoc, h, ih, List.cons_append]

/-! ## Clean texts -/

theorem length_newlines_le (afterReturn : Bool) (l : List Char) :
    (newlines afterReturn l).length ≤ l.length := by
  induction l generalizing afterReturn with
  | nil => exact Nat.le_refl _
  | cons c l ih =>
    rw [newlines]
    split
    · exact Nat.succ_le_succ (ih true)
    · split
      · exact Nat.le_succ_of_le (ih false)
      · exact Nat.succ_le_succ (ih false)

theorem newlines_of_not_mem (h : '\r' ∉ l) : newlines false l = l := by
  induction l with
  | nil => rfl
  | cons c l ih =>
    rw [List.mem_cons, not_or] at h
    rw [newlines, if_neg (Ne.symm h.1), if_neg (fun h => absurd h.2 Bool.false_ne_true), ih h.2]

theorem return_not_mem_newlines (afterReturn : Bool) (l : List Char) : '\r' ∉ newlines afterReturn l := by
  induction l generalizing afterReturn with
  | nil => exact List.not_mem_nil
  | cons c l ih =>
    rw [newlines]
    split
    · exact fun h => (List.mem_cons.mp h).elim (fun h => absurd h (by decide)) (ih true)
    · next hc =>
      split
      · exact ih false
      · exact fun h => (List.mem_cons.mp h).elim (fun h => hc h.symm) (ih false)

theorem cleanText_eq_self : cleanText l = l ↔ '\r' ∉ l ∧ nul ∉ l := by
  constructor
  · intro h
    constructor
    · intro hMem
      rw [← h] at hMem
      exact return_not_mem_newlines false l (List.mem_filter.mp hMem).1
    · intro hMem
      rw [← h] at hMem
      exact of_decide_eq_true (List.mem_filter.mp hMem).2 rfl
  · rintro ⟨hReturn, hNul⟩
    rw [cleanText, newlines_of_not_mem hReturn, List.filter_eq_self]
    intro c hc
    exact decide_eq_true fun h => hNul (h ▸ hc)

theorem cleanAttr_eq_self : cleanAttr l = l ↔ '\r' ∉ l ∧ nul ∉ l := by
  constructor
  · intro h
    constructor
    · intro hMem
      rw [← h] at hMem
      obtain ⟨c, hc, hReturn⟩ := List.mem_map.mp hMem
      split at hReturn
      · exact absurd hReturn (by decide)
      · exact return_not_mem_newlines false l (hReturn ▸ hc)
    · intro hMem
      rw [← h] at hMem
      obtain ⟨c, hc, hNul⟩ := List.mem_map.mp hMem
      split at hNul
      · exact absurd hNul (by decide)
      · next hc => exact hc hNul
  · rintro ⟨hReturn, hNul⟩
    rw [cleanAttr, newlines_of_not_mem hReturn]
    conv_rhs => rw [← List.map_id l]
    apply List.map_congr_left
    intro c hc
    apply if_neg
    rintro rfl
    exact hNul hc

theorem length_cleanText_le (l : List Char) : (cleanText l).length ≤ l.length :=
  Nat.le_trans (List.length_filter_le _ _) (length_newlines_le false l)

theorem length_cleanAttr_le (l : List Char) : (cleanAttr l).length ≤ l.length := by
  rw [cleanAttr, List.length_map]
  exact length_newlines_le false l

/-- Cleaning and escaping do not meet: neither newlines nor null characters are escaped, and no escape
holds any. -/
structure Plain (escape : Char → List Char) : Prop where
  self {c : Char} : c = '\r' ∨ c = '\n' ∨ c = nul ∨ c = '\uFFFD' → escape c = [c]
  other {c : Char} : c ≠ '\r' → c ≠ '\n' → c ≠ nul → ∀ d ∈ escape c, d ≠ '\r' ∧ d ≠ '\n' ∧ d ≠ nul
  ne_nil (c : Char) : escape c ≠ []

section

variable {escape : Char → List Char}

theorem newlines_append (h : ∀ d ∈ l, d ≠ '\r' ∧ d ≠ '\n') (hl : l ≠ []) (afterReturn : Bool) :
    newlines afterReturn (l ++ r) = l ++ newlines false r := by
  induction l generalizing afterReturn with
  | nil => exact absurd rfl hl
  | cons d l ih =>
    rw [List.forall_mem_cons] at h
    rw [List.cons_append, newlines, if_neg h.1.1, if_neg fun hd => h.1.2 hd.1, List.cons_append]
    by_cases hRest : l = []
    · rw [hRest]
      rfl
    · rw [ih h.2 hRest]

theorem newlines_flatMap (hPlain : Plain escape) (afterReturn : Bool) (l : List Char) :
    newlines afterReturn (l.flatMap escape) = (newlines afterReturn l).flatMap escape := by
  induction l generalizing afterReturn with
  | nil => rfl
  | cons c l ih =>
    rw [List.flatMap_cons]
    by_cases hReturn : c = '\r'
    · rw [hPlain.self (.inl hReturn), newlines, if_pos hReturn, List.flatMap_cons,
        hPlain.self (.inr (.inl rfl)), ← ih, List.singleton_append, newlines, if_pos hReturn,
        List.singleton_append]
    · by_cases hLine : c = '\n'
      · rw [hPlain.self (.inr (.inl hLine)), newlines, if_neg hReturn, List.singleton_append, newlines,
          if_neg hReturn]
        split
        · exact ih false
        · rw [List.flatMap_cons, hPlain.self (.inr (.inl hLine)), ih, List.singleton_append]
      · have hSame : newlines afterReturn (c :: l) = c :: newlines false l := by
          rw [newlines, if_neg hReturn, if_neg fun h => hLine h.1]
        rw [hSame, List.flatMap_cons, ← ih]
        by_cases hNul : c = nul
        · rw [hPlain.self (.inr (.inr (.inl hNul))), List.singleton_append, newlines, if_neg hReturn,
            if_neg fun h => hLine h.1, List.singleton_append]
        · have hOther := hPlain.other hReturn hLine hNul
          exact newlines_append (fun d hd => ⟨(hOther d hd).1, (hOther d hd).2.1⟩) (hPlain.ne_nil c) _

theorem nul_not_mem_escape (hPlain : Plain escape) (hNul : c ≠ nul) : nul ∉ escape c := by
  intro hMem
  by_cases hReturn : c = '\r'
  · rw [hPlain.self (.inl hReturn)] at hMem
    exact hNul (List.mem_singleton.mp hMem).symm
  · by_cases hLine : c = '\n'
    · rw [hPlain.self (.inr (.inl hLine))] at hMem
      exact hNul (List.mem_singleton.mp hMem).symm
    · exact (hPlain.other hReturn hLine hNul nul hMem).2.2 rfl

theorem cleanText_flatMap (hPlain : Plain escape) (l : List Char) :
    cleanText (l.flatMap escape) = (cleanText l).flatMap escape := by
  rw [cleanText, newlines_flatMap hPlain, cleanText]
  generalize newlines false l = l
  induction l with
  | nil => rfl
  | cons c l ih =>
    rw [List.flatMap_cons, List.filter_append, ih, List.filter_cons]
    by_cases hNul : c = nul
    · rw [hPlain.self (.inr (.inr (.inl hNul))), if_neg (by simpa using hNul), hNul]
      rfl
    · rw [if_pos (by simpa using hNul), List.flatMap_cons]
      apply congrArg (· ++ _)
      rw [List.filter_eq_self]
      intro d hd
      exact decide_eq_true fun h => nul_not_mem_escape hPlain hNul (h ▸ hd)

theorem cleanAttr_flatMap (hPlain : Plain escape) (l : List Char) :
    cleanAttr (l.flatMap escape) = (cleanAttr l).flatMap escape := by
  rw [cleanAttr, newlines_flatMap hPlain, cleanAttr]
  generalize newlines false l = l
  induction l with
  | nil => rfl
  | cons c l ih =>
    rw [List.flatMap_cons, List.map_append, ih, List.map_cons, List.flatMap_cons]
    apply congrArg (· ++ _)
    by_cases hNul : c = nul
    · rw [hPlain.self (.inr (.inr (.inl hNul))), if_pos hNul, hPlain.self (.inr (.inr (.inr rfl))),
        List.map_singleton, if_pos hNul]
    · rw [if_neg hNul]
      conv_rhs => rw [← List.map_id (escape c)]
      apply List.map_congr_left
      intro d hd
      apply if_neg
      rintro rfl
      exact nul_not_mem_escape hPlain hNul hd

end

/-! ## An attribute in which the quotes are escaped -/

def quot : List Char := ['&', 'q', 'u', 'o', 't', ';']

def escapeQuotes (l : List Char) : List Char := replaceAll '"' quot l

def plainChar (c : Char) : Bool := c != '\r' && c != '\n' && c != nul

theorem ne_of_all_plainChar {l : List Char} (h : l.all plainChar = true) :
    ∀ d ∈ l, d ≠ '\r' ∧ d ≠ '\n' ∧ d ≠ nul := by
  intro d hd
  have hPlain := List.all_eq_true.mp h d hd
  rw [plainChar, Bool.and_eq_true, Bool.and_eq_true, bne_iff_ne, bne_iff_ne, bne_iff_ne, and_assoc] at hPlain
  exact hPlain

theorem plain_quotes : Plain fun c => if c = '"' then quot else [c] where
  self h := if_neg (by rcases h with rfl | rfl | rfl | rfl <;> decide)
  other hReturn hLine hNul d hd := by
    split at hd
    · exact ne_of_all_plainChar rfl d hd
    · rw [List.mem_singleton.mp hd]
      exact ⟨hReturn, hLine, hNul⟩
  ne_nil c := by split <;> exact List.cons_ne_nil _ _

/-- No ampersand of the text begins a reference. -/
def NoReference (R : References) (l : List Char) : Prop :=
  ∀ u v, l = u ++ '&' :: v → R.read true v = none

theorem escapeQuotes_cons (h : c ≠ '"') (l : List Char) : escapeQuotes (c :: l) = c :: escapeQuotes l := by
  rw [escapeQuotes, replaceAll, List.flatMap_cons, if_neg h]
  rfl

theorem escapeQuotes_quote (l : List Char) : escapeQuotes ('"' :: l) = quot ++ escapeQuotes l := by
  rw [escapeQuotes, replaceAll, List.flatMap_cons, if_pos rfl]
  rfl

theorem read_escapeQuotes (l : List Char) : R.read true (escapeQuotes l) = R.read true l := by
  by_cases hQuote : '"' ∈ l
  · obtain ⟨u, v, rfl, hFree⟩ := List.eq_append_cons_of_mem hQuote
    have hFront : escapeQuotes (u ++ '"' :: v) = u ++ '&' :: (['q', 'u', 'o', 't', ';'] ++ escapeQuotes v) := by
      induction u with
      | nil => exact escapeQuotes_quote v
      | cons c u ih =>
        rw [List.mem_cons, not_or] at hFree
        rw [List.cons_append, escapeQuotes_cons (Ne.symm hFree.1), List.cons_append,
          ih hFree.2 (List.mem_append_right u List.mem_cons_self)]
    rw [hFront]
    exact R.stops true (.inl rfl) (.inr rfl) u _ _
  · have hSame : escapeQuotes l = l := by
      induction l with
      | nil => rfl
      | cons c l ih =>
        rw [List.mem_cons, not_or] at hQuote
        rw [escapeQuotes_cons (Ne.symm hQuote.1), ih hQuote.2]
    rw [hSame]

theorem decode_quot (l : List Char) : decode R true (quot ++ l) = '"' :: decode R true l :=
  decode_reference (R.quot true l)

theorem drop_escapeQuotes {n : Nat} (h : ∀ c ∈ (escapeQuotes l).take n, c ≠ '&') (hn : n ≤ (escapeQuotes l).length) :
    (escapeQuotes l).drop n = escapeQuotes (l.drop n) ∧ n ≤ l.length := by
  induction l generalizing n with
  | nil =>
    obtain rfl := Nat.le_zero.mp hn
    exact ⟨rfl, Nat.le_refl _⟩
  | cons c l ih =>
    cases n with
    | zero => exact ⟨rfl, Nat.zero_le _⟩
    | succ n =>
      by_cases hc : c = '"'
      · rw [hc, escapeQuotes_quote] at h
        exact absurd rfl (h '&' List.mem_cons_self)
      · rw [escapeQuotes_cons hc] at h hn ⊢
        have hRest := ih (fun d hd => h d (List.mem_cons_of_mem _ hd)) (Nat.le_of_succ_le_succ hn)
        exact ⟨hRest.1, Nat.succ_le_succ hRest.2⟩

/-- References make a text shorter. -/
theorem decode_escapeQuotes (l : List Char) : (decode R true (escapeQuotes l)).length ≤ l.length ∧
    ((decode R true (escapeQuotes l)).length = l.length → NoReference R l) := by
  induction hLength : l.length using Nat.strongRecOn generalizing l with
  | ind n ih =>
    subst hLength
    cases l with
    | nil =>
      refine ⟨Nat.le_refl _, fun _ u v h => ?_⟩
      exact absurd h.symm (List.append_ne_nil_of_right_ne_nil u (List.cons_ne_nil '&' v))
    | cons c l =>
      have hTail := ih l.length (Nat.lt_succ_self _) l rfl
      -- a character before the others keeps what is known of them
      have hKept : ∀ c', c ≠ '&' ∨ R.read true (escapeQuotes l) = none →
          (c' :: decode R true (escapeQuotes l)).length ≤ (c :: l).length ∧
            ((c' :: decode R true (escapeQuotes l)).length = (c :: l).length → NoReference R (c :: l)) := by
        intro c' hFirst
        refine ⟨Nat.succ_le_succ hTail.1, fun h u v hSplit => ?_⟩
        cases u with
        | nil =>
          rw [List.nil_append, List.cons.injEq] at hSplit
          rw [← hSplit.2, ← read_escapeQuotes]
          exact hFirst.resolve_left (not_not_intro hSplit.1)
        | cons d u =>
          rw [List.cons_append, List.cons.injEq] at hSplit
          exact hTail.2 (Nat.succ.inj h) u v hSplit.2
      by_cases hQuote : c = '"'
      · rw [hQuote, escapeQuotes_quote, decode_quot, ← hQuote]
        exact hKept c (.inl (by rw [hQuote]; decide))
      · rw [escapeQuotes_cons hQuote]
        by_cases hAmp : c = '&'
        · cases hRead : R.read true (escapeQuotes l) with
          | none =>
            rw [hAmp, decode_ampersand hRead, ← hAmp]
            exact hKept c (.inr hRead)
          | some found =>
            obtain ⟨v, n⟩ := found
            obtain ⟨hn, hTaken⟩ := R.taken hRead
            obtain ⟨hDrop, hLe⟩ := drop_escapeQuotes (fun c hc => (hTaken c hc).1) hn
            have hRest := (ih (l.drop n).length (by rw [List.length_drop, List.length_cons]; omega) _ rfl).1
            have hShort := R.short hRead
            rw [List.length_drop] at hRest
            rw [hAmp, decode_reference hRead, hDrop, List.length_append, List.length_cons]
            exact ⟨by omega, fun h => by omega⟩
        · rw [decode_cons hAmp]
          exact hKept c (.inl hAmp)

theorem decode_of_noReference (h : NoReference R l) : decode R true (escapeQuotes l) = l := by
  induction l with
  | nil => rfl
  | cons c l ih =>
    have hRest := ih fun u v hSplit => h (c :: u) v (by rw [hSplit, List.cons_append])
    by_cases hQuote : c = '"'
    · rw [hQuote, escapeQuotes_quote, decode_quot, hRest]
    · rw [escapeQuotes_cons hQuote]
      by_cases hAmp : c = '&'
      · subst hAmp
        have hNone : R.read true (escapeQuotes l) = none := (read_escapeQuotes l).trans (h [] l rfl)
        rw [decode_ampersand hNone, hRest]
      · rw [decode_cons hAmp, hRest]

/-- An attribute keeps its text just when nothing in it is changed by the reader. -/
theorem attrValue_escapeQuotes : attrValue R (escapeQuotes l) = l ↔
    ('\r' ∉ l ∧ nul ∉ l) ∧ NoReference R l := by
  have hClean : cleanAttr (escapeQuotes l) = escapeQuotes (cleanAttr l) := cleanAttr_flatMap plain_quotes l
  rw [attrValue, hClean, ← cleanAttr_eq_self]
  constructor
  · intro h
    have hLength := congrArg List.length h
    have hShort := length_cleanAttr_le l
    obtain ⟨hLe, hSame⟩ := decode_escapeQuotes (R := R) (cleanAttr l)
    have hNone : NoReference R (cleanAttr l) := hSame (by omega)
    rw [decode_of_noReference hNone] at h
    rw [h] at hNone
    exact ⟨h, hNone⟩
  · rintro ⟨hSelf, hNone⟩
    rw [hSelf, decode_of_noReference hNone]

/-! ## A text in which the characters of markup are escaped -/

def amp : List Char := ['&', 'a', 'm', 'p', ';']

def lt : List Char := ['&', 'l', 't', ';']

def gt : List Char := ['&', 'g', 't', ';']

def escapeMarkup (c : Char) : List Char :=
  if c = '&' then amp else if c = '<' then lt else if c = '>' then gt else [c]

theorem plain_markup : Plain escapeMarkup where
  self h := by rcases h with rfl | rfl | rfl | rfl <;> rfl
  other hReturn hLine hNul d hd := by
    rw [escapeMarkup] at hd
    split at hd
    · exact ne_of_all_plainChar rfl d hd
    · split at hd
      · exact ne_of_all_plainChar rfl d hd
      · split at hd
        · exact ne_of_all_plainChar rfl d hd
        · rw [List.mem_singleton.mp hd]
          exact ⟨hReturn, hLine, hNul⟩
  ne_nil c := by
    rw [escapeMarkup]
    split
    · exact List.cons_ne_nil _ _
    · split
      · exact List.cons_ne_nil _ _
      · split <;> exact List.cons_ne_nil _ _

theorem decode_escapeMarkup (c : Char) (r : List Char) :
    decode R false (escapeMarkup c ++ r) = c :: decode R false r := by
  rw [escapeMarkup]
  split
  · next hc => rw [hc]; exact decode_reference (R.amp false r)
  · next hAmp =>
    split
    · next hc => rw [hc]; exact decode_reference (R.lt false r)
    · split
      · next hc => rw [hc]; exact decode_reference (R.gt false r)
      · exact decode_cons hAmp r

theorem lt_not_mem_escapeMarkup (l : List Char) : '<' ∉ l.flatMap escapeMarkup := by
  intro hMem
  obtain ⟨c, -, hc⟩ := List.mem_flatMap.mp hMem
  rw [escapeMarkup] at hc
  split at hc
  · exact absurd hc (by decide)
  · split at hc
    · exact absurd hc (by decide)
    · next hLt =>
      split at hc
      · exact absurd hc (by decide)
      · exact hLt (List.mem_singleton.mp hc).symm

theorem replaceAll_markup (l : List Char) :
    replaceAll '>' gt (replaceAll '<' lt (replaceAll '&' amp l)) = l.flatMap escapeMarkup := by
  induction l with
  | nil => rfl
  | cons c l ih =>
    rw [replaceAll, replaceAll, replaceAll] at ih ⊢
    rw [List.flatMap_cons, List.flatMap_append, List.flatMap_append, ih, List.flatMap_cons, escapeMarkup]
    apply congrArg (· ++ _)
    split
    · rfl
    · next hAmp =>
      rw [List.flatMap_singleton]
      split
      · rfl
      · rw [List.flatMap_singleton]

theorem quote_not_mem_escapeQuotes (l : List Char) : '"' ∉ escapeQuotes l := by
  intro hMem
  obtain ⟨c, -, hc⟩ := List.mem_flatMap.mp hMem
  split at hc
  · exact absurd hc (by decide)
  · next hQuote => exact hQuote (List.mem_singleton.mp hc).symm

theorem textValue_escape {escape : Char → List Char} (hPlain : Plain escape)
    (h : ∀ c r, decode R false (escape c ++ r) = c :: decode R false r) :
    textValue R (l.flatMap escape) = cleanText l := by
  have hDecode := decode_flatMap h (cleanText l) []
  rw [List.append_nil] at hDecode
  rw [textValue, cleanText_flatMap hPlain, hDecode]
  exact List.append_nil _

end Exosuit.Lib.Html
