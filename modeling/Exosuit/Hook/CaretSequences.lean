import Mathlib.Data.List.Flatten
import Mathlib.Data.List.TakeWhile
import Exosuit.Lib.Spans
import Exosuit.Lib.Tokens

/-!
# Terminal responses in caret notation

A line of output may hold responses of the terminal as text: a cursor position, and colours with a
prefix and one of two terminators. They are removed from the line by searching, the longer
terminator first.
-/

namespace Exosuit.Hook

open Lib

/-! ## The sanitizer -/

inductive CaretToken
  | cursor
  | osc10
  | osc11
  | osc12
  | st
  | bel
deriving DecidableEq

namespace CaretToken

/-- What follows the caret. -/
def tail : CaretToken → List Char
  | cursor => ['[', '[', '1', ';', '1', 'R']
  | osc10 => ['[', ']', '1', '0', ';']
  | osc11 => ['[', ']', '1', '1', ';']
  | osc12 => ['[', ']', '1', '2', ';']
  | st => ['[', '\\']
  | bel => ['G']

def all : List CaretToken := [cursor, osc10, osc11, osc12, st, bel]

theorem mem_all (t : CaretToken) : t ∈ all := by
  cases t <;> decide

theorem caret_not_mem (t : CaretToken) : '^' ∉ t.tail := by
  cases t <;> decide

theorem tail_apart {t u : CaretToken} (h : t.tail <+: u.tail) : t = u := by
  have hPrefix := List.isPrefixOf_iff_prefix.mpr h
  cases t <;> cases u <;> first | rfl | exact absurd hPrefix (by decide)

end CaretToken

def caret : Tokens.Alphabet CaretToken where
  mark := '^'
  tail := CaretToken.tail
  tokens := CaretToken.all
  mem_tokens := CaretToken.mem_all
  mark_not_mem := CaretToken.caret_not_mem
  apart := CaretToken.tail_apart

structure OscRemoval where
  before : List Char
  body : List Char
  terminator : CaretToken
  after : List Char

/-- The first response with the prefix: through the next `^[\` if there is one, else through the next `^G`. -/
def oscRemoval (result : List Char) (prefix_ : CaretToken) : Option OscRemoval :=
  match Text.splitOnceList (caret.text prefix_) result with
  | none => none
  | some (before, rest) =>
    match Text.splitOnceList (caret.text .st) rest with
    | some (body, after) => some ⟨before, body, .st, after⟩
    | none =>
      match Text.splitOnceList (caret.text .bel) rest with
      | some (body, after) => some ⟨before, body, .bel, after⟩
      | none => none

def removeOsc (result : List Char) (prefix_ : CaretToken) : List Char :=
  match oscRemoval result prefix_ with
  | some r => r.before ++ r.after
  | none => result

def oscPrefixes : List CaretToken := [.osc10, .osc11, .osc12]

def sanitizeTurn (result : List Char) : List Char := oscPrefixes.foldl removeOsc result

/-- The loop, as long as there is fuel; it ends when a turn has changed nothing. -/
def sanitizeLoop : Nat → List Char → List Char
  | 0, result => result
  | fuel + 1, result =>
    let next := sanitizeTurn result
    if next.length = result.length then next else sanitizeLoop fuel next

def withoutCursor (line : List Char) : List Char := (Text.pieces (caret.text .cursor) 0 line).flatten

/-- `sanitize_caret_osc`; a turn that is not the last one makes the line shorter. -/
def sanitizeCaretOsc (s : String) : String :=
  if '^' ∈ s.toList then
    let result := withoutCursor s.toList
    String.ofList (sanitizeLoop result.length result)
  else s

/-! ## What is to be removed -/

abbrev CaretSymbol := Tokens.Symbol CaretToken

def opensOsc : CaretSymbol → Bool
  | .inr .osc10 | .inr .osc11 | .inr .osc12 => true
  | _ => false

def closesOsc : CaretSymbol → Bool
  | .inr .st | .inr .bel => true
  | _ => false

def notCursor (l : List CaretSymbol) : List CaretSymbol := l.filter fun s => s ≠ .inr .cursor

/-- A line without its cursor positions and without its colours: each from a prefix through the first
terminator of either form. -/
def symbolsLeft (line : List Char) : List CaretSymbol :=
  Spans.outside opensOsc closesOsc false (notCursor (caret.lex line))

def withoutSequences (line : String) : String := String.ofList (caret.render (symbolsLeft line.toList))

/-- A cursor position, or a prefix with a terminator somewhere behind it. -/
def HasSequence (line : List Char) : Prop :=
  caret.text .cursor <:+: line ∨ ∃ p ∈ oscPrefixes, ∃ t ∈ [CaretToken.st, CaretToken.bel], ∃ a b c,
    line = a ++ caret.text p ++ (b ++ caret.text t ++ c)

/-- Exactly the sequences of the line are deleted, none is left, and a second run changes nothing. -/
structure SanitizedExactly (line : String) : Prop where
  removed : sanitizeCaretOsc line = withoutSequences line
  clean : ¬ HasSequence (sanitizeCaretOsc line).toList
  again : sanitizeCaretOsc (sanitizeCaretOsc line) = sanitizeCaretOsc line

/-! ## Lines whose searches are in order -/

/-- A line without its cursor positions. -/
def cursorless (line : String) : List Char := caret.render (notCursor (caret.lex line.toList))

/-- A line without its cursor positions, and what that leaves without its colours. -/
def cursorsFirst (line : String) : String :=
  String.ofList (caret.render (Spans.outside opensOsc closesOsc false (caret.lex (cursorless line))))

/-- A piece of a line; a response has the turn of the loop that is to find it. -/
inductive LinePiece
  | kept (s : CaretSymbol)
  | response (turn : Nat) (opening : CaretSymbol) (body : List CaretSymbol) (terminator : CaretSymbol)

namespace LinePiece

/-- What is left of a piece when `ps` are the prefixes that the turn has still to search for. -/
def left (turn : Nat) (ps : List CaretToken) : LinePiece → List CaretSymbol
  | kept s => [s]
  | response n x body c => if turn < n ∨ n = turn ∧ ∃ p ∈ ps, x = .inr p then x :: (body ++ [c]) else []

def outer : LinePiece → List CaretSymbol
  | kept s => [s]
  | response .. => []

def isDue (turn : Nat) (p : CaretToken) : LinePiece → Bool
  | kept _ => false
  | response n x _ _ => n = turn ∧ x = .inr p

end LinePiece

/-- The first response with a prefix is for the first turn, the second one for the second. -/
def numbered : List CaretSymbol → List (Spans.Piece CaretSymbol) → List LinePiece
  | _, [] => []
  | seen, .kept s :: l => .kept s :: numbered seen l
  | seen, .span x body c :: l => .response (seen.countP (· = x)) x body c :: numbered (x :: seen) l

def linePieces (line : String) : List LinePiece :=
  numbered [] (Spans.pieces opensOsc closesOsc none (caret.lex (cursorless line)))

def textLeft (turn : Nat) (ps : List CaretToken) (l : List LinePiece) : List Char :=
  caret.render (l.flatMap (LinePiece.left turn ps))

/-- With the responses of the earlier searches gone, the response that is due has no other prefix of
its kind before it and, unless it ends with `^[\`, no `^[\` behind it; where none is due, no prefix of
the kind has a terminator behind it. -/
def searchInOrder (l : List LinePiece) (turn : Nat) (p : CaretToken) (ps : List CaretToken) : Bool :=
  match l.dropWhile fun q => !q.isDue turn p with
  | .response _ _ _ c :: after =>
    (caret.lex (textLeft turn ps (l.takeWhile fun q => !q.isDue turn p))).all (· ≠ .inr p) &&
      (c = .inr .st || (caret.lex (textLeft turn ps after)).all (· ≠ .inr .st))
  | _ => Spans.bare (fun s => s = .inr p) closesOsc (caret.lex (textLeft turn ps l))

def turnInOrder (l : List LinePiece) (turn : Nat) : List CaretToken → Bool
  | [] => true
  | p :: ps => searchInOrder l turn p ps && turnInOrder l turn ps

/-- Every turn that the line has characters for is in order. -/
def InOrder (line : String) : Prop :=
  ∀ turn ≤ line.length, turnInOrder (linePieces line) turn oscPrefixes = true

/-! ## One removal -/

theorem opensOsc_of_mem {p : CaretToken} (h : p ∈ oscPrefixes) : opensOsc (.inr p) = true := by
  cases p <;> first | rfl | exact absurd h (by decide)

theorem mem_of_opensOsc {x : CaretSymbol} (h : opensOsc x = true) : ∃ p ∈ oscPrefixes, x = .inr p := by
  rcases x with c | t
  · cases h
  · cases t <;> first | exact ⟨_, by decide, rfl⟩ | cases h

theorem any_closesOsc {l : List CaretSymbol} :
    l.any closesOsc = true ↔ ∃ t ∈ [CaretToken.st, CaretToken.bel], .inr t ∈ l := by
  rw [List.any_eq_true]
  constructor
  · rintro ⟨x, hMem, hCloses⟩
    rcases x with c | t
    · cases hCloses
    · cases t <;> first | exact ⟨_, by decide, hMem⟩ | cases hCloses
  · rintro ⟨t, ht, hMem⟩
    refine ⟨.inr t, hMem, ?_⟩
    cases t <;> first | rfl | exact absurd ht (by decide)

variable {result : List Char} {p : CaretToken}

theorem oscRemoval_eq_some {r : OscRemoval} (h : oscRemoval result p = some r) :
    caret.lex result =
      caret.lex r.before ++ .inr p :: (caret.lex r.body ++ .inr r.terminator :: caret.lex r.after) ∧
    closesOsc (.inr r.terminator) = true ∧ (r.before ++ r.after).length < result.length := by
  unfold oscRemoval at h
  split at h
  · cases h
  · next before rest hFirst =>
    obtain ⟨hText, hSymbols, -⟩ := Tokens.Alphabet.splitOnce_text hFirst
    have hFound : ∀ {t : CaretToken} {body after : List Char},
        Text.splitOnceList (caret.text t) rest = some (body, after) →
        caret.lex result = caret.lex before ++ .inr p :: (caret.lex body ++ .inr t :: caret.lex after) ∧
          (before ++ after).length < result.length := by
      intro t body after hEnd
      obtain ⟨hRest, hSymbolsRest, -⟩ := Tokens.Alphabet.splitOnce_text hEnd
      rw [hSymbols, hSymbolsRest, hText, hRest]
      refine ⟨rfl, ?_⟩
      simp only [List.length_append, Tokens.Alphabet.text, List.length_cons]
      omega
    split at h
    · next body after hEnd =>
      cases h
      exact ⟨(hFound hEnd).1, rfl, (hFound hEnd).2⟩
    · split at h
      · next body after hEnd =>
        cases h
        exact ⟨(hFound hEnd).1, rfl, (hFound hEnd).2⟩
      · cases h

theorem oscRemoval_eq_none_of_first {before rest : List Char}
    (hFirst : Text.splitOnceList (caret.text p) result = some (before, rest)) :
    oscRemoval result p = none ↔ (caret.lex rest).any closesOsc = false := by
  rw [Bool.eq_false_iff, Ne, any_closesOsc, oscRemoval, hFirst]
  dsimp only
  cases hSt : Text.splitOnceList (caret.text .st) rest with
  | some end_ =>
    obtain ⟨-, hMem, -⟩ := Tokens.Alphabet.splitOnce_text hSt
    refine iff_of_false nofun fun h => h ⟨.st, by decide, ?_⟩
    rw [hMem]
    exact List.mem_append_right _ List.mem_cons_self
  | none =>
    cases hBel : Text.splitOnceList (caret.text .bel) rest with
    | some end_ =>
      obtain ⟨-, hMem, -⟩ := Tokens.Alphabet.splitOnce_text hBel
      refine iff_of_false nofun fun h => h ⟨.bel, by decide, ?_⟩
      rw [hMem]
      exact List.mem_append_right _ List.mem_cons_self
    | none =>
      refine iff_of_true rfl ?_
      rintro ⟨t, ht, hMem⟩
      rcases List.mem_pair.mp ht with rfl | rfl
      · exact Tokens.Alphabet.splitOnce_text_none.mp hSt hMem
      · exact Tokens.Alphabet.splitOnce_text_none.mp hBel hMem

theorem oscRemoval_eq_none : oscRemoval result p = none ↔ ∀ a b,
    caret.lex result = a ++ .inr p :: b → b.any closesOsc = false := by
  cases hFirst : Text.splitOnceList (caret.text p) result with
  | none =>
    have hAbsent := Tokens.Alphabet.splitOnce_text_none.mp hFirst
    refine iff_of_true ?_ fun a b hSplit => absurd ?_ hAbsent
    · rw [oscRemoval, hFirst]
    · rw [hSplit]
      exact List.mem_append_right _ List.mem_cons_self
  | some found =>
    obtain ⟨before, rest⟩ := found
    obtain ⟨-, hSymbols, hNot⟩ := Tokens.Alphabet.splitOnce_text hFirst
    rw [oscRemoval_eq_none_of_first hFirst]
    constructor
    · intro hNone a b hSplit
      obtain ⟨m, -, hm⟩ := Tokens.Alphabet.first_occurrence (hSymbols.symm.trans hSplit) hNot
      -- What stands behind a later prefix stands behind the first one.
      have hSub : b ⊆ caret.lex rest := by
        rcases List.suffix_cons_iff.mp ⟨m, hm.symm⟩ with hSame | hSuffix
        · rw [(List.cons.inj hSame).2]
          exact List.Subset.refl _
        · exact fun s hs => hSuffix.subset (List.mem_cons_of_mem _ hs)
      rw [List.any_eq_false] at hNone ⊢
      exact fun s hs => hNone s (hSub hs)
    · intro h
      exact h _ _ hSymbols

theorem removeOsc_of_none (h : oscRemoval result p = none) : removeOsc result p = result := by
  rw [removeOsc, h]

theorem removeOsc_of_some {r : OscRemoval} (h : oscRemoval result p = some r) :
    removeOsc result p = r.before ++ r.after := by
  rw [removeOsc, h]

theorem length_removeOsc_le (result : List Char) (p : CaretToken) :
    (removeOsc result p).length ≤ result.length := by
  cases h : oscRemoval result p with
  | none => rw [removeOsc_of_none h]
  | some r =>
    rw [removeOsc_of_some h]
    exact (oscRemoval_eq_some h).2.2.le

/-! ## The loop -/

theorem length_foldl_le (ps : List CaretToken) (result : List Char) :
    (ps.foldl removeOsc result).length ≤ result.length := by
  induction ps generalizing result with
  | nil => exact Nat.le_refl _
  | cons p ps ih => exact (ih _).trans (length_removeOsc_le result p)

/-- A turn that does not make the line shorter finds nothing. -/
theorem none_of_length_foldl {ps : List CaretToken} (h : (ps.foldl removeOsc result).length = result.length) :
    ∀ p ∈ ps, oscRemoval result p = none := by
  induction ps generalizing result with
  | nil => exact nofun
  | cons p ps ih =>
    rw [List.foldl_cons] at h
    have hHead : oscRemoval result p = none := by
      cases hFound : oscRemoval result p with
      | none => rfl
      | some r =>
        have hRest := length_foldl_le ps (removeOsc result p)
        have hShorter := (oscRemoval_eq_some hFound).2.2
        rw [removeOsc_of_some hFound] at h hRest
        omega
    rw [removeOsc_of_none hHead] at h
    rw [List.forall_mem_cons]
    exact ⟨hHead, ih h⟩

theorem foldl_removeOsc_of_none {ps : List CaretToken} (h : ∀ p ∈ ps, oscRemoval result p = none) :
    ps.foldl removeOsc result = result := by
  induction ps with
  | nil => rfl
  | cons p ps ih =>
    rw [List.forall_mem_cons] at h
    rw [List.foldl_cons, removeOsc_of_none h.1, ih h.2]

theorem bare_iff : Spans.bare opensOsc closesOsc (caret.lex result) = true ↔
    ∀ p ∈ oscPrefixes, oscRemoval result p = none := by
  rw [Spans.bare_iff]
  constructor
  · intro h p hp
    rw [oscRemoval_eq_none]
    intro a b hSplit
    exact h a (.inr p) b hSplit (opensOsc_of_mem hp)
  · intro h a x b hSplit hx
    obtain ⟨p, hp, rfl⟩ := mem_of_opensOsc hx
    exact oscRemoval_eq_none.mp (h p hp) a b hSplit

theorem sanitizeLoop_bare {fuel : Nat} (h : result.length ≤ fuel) :
    Spans.bare opensOsc closesOsc (caret.lex (sanitizeLoop fuel result)) = true := by
  induction fuel generalizing result with
  | zero =>
    rw [List.eq_nil_of_length_eq_zero (Nat.le_zero.mp h)]
    rfl
  | succ fuel ih =>
    rw [sanitizeLoop]
    split
    · next hSame =>
      have hNone := none_of_length_foldl hSame
      rw [sanitizeTurn, foldl_removeOsc_of_none hNone]
      exact bare_iff.mpr hNone
    · next hShorter =>
      apply ih
      have hLe := length_foldl_le oscPrefixes result
      rw [← sanitizeTurn] at hLe
      omega

theorem sanitizeLoop_of_bare (h : Spans.bare opensOsc closesOsc (caret.lex result) = true) (fuel : Nat) :
    sanitizeLoop fuel result = result := by
  cases fuel with
  | zero => rfl
  | succ fuel =>
    have hTurn : sanitizeTurn result = result := foldl_removeOsc_of_none (bare_iff.mp h)
    rw [sanitizeLoop, hTurn, if_pos rfl]

/-! ## Searches in order -/

structure Numbered (l : List LinePiece) : Prop where
  response : ∀ {n x body c}, .response n x body c ∈ l →
    Spans.Piece.Proper opensOsc closesOsc x body c ∧ caret.lex (caret.render body) = body
  once : l.Pairwise fun q r => ∀ turn p, q.isDue turn p = true → r.isDue turn p = false

variable {l : List LinePiece} {turn : Nat} {ps : List CaretToken}

theorem textLeft_append (l l' : List LinePiece) :
    textLeft turn ps (l ++ l') = textLeft turn ps l ++ textLeft turn ps l' := by
  rw [textLeft, List.flatMap_append, Tokens.Alphabet.render_append]
  rfl

theorem textLeft_cons (q : LinePiece) (l : List LinePiece) :
    textLeft turn ps (q :: l) = caret.render (q.left turn ps) ++ textLeft turn ps l :=
  textLeft_append [q] l ▸ congrArg (· ++ textLeft turn ps l) (congrArg caret.render (List.append_nil _))

theorem render_response (p t : CaretToken) (body : List CaretSymbol) :
    caret.render (.inr p :: (body ++ [.inr t])) = caret.text p ++ (caret.render body ++ caret.text t) := by
  simp [Tokens.Alphabet.render, Tokens.Alphabet.renderSymbol]

theorem textLeft_of_none (h : ∀ q ∈ l, q.isDue turn p = false) :
    textLeft turn (p :: ps) l = textLeft turn ps l := by
  refine congrArg caret.render (List.flatMap_congr fun q hq => ?_)
  cases q with
  | kept s => rfl
  | response n x body c =>
    have hNot := h _ hq
    rw [LinePiece.isDue, decide_eq_false_iff_not] at hNot
    simp only [LinePiece.left, List.exists_mem_cons_iff]
    grind

theorem left_due (turn : Nat) (p : CaretToken) (ps : List CaretToken) (body : List CaretSymbol)
    (c : CaretSymbol) :
    (LinePiece.response turn (.inr p) body c).left turn (p :: ps) = .inr p :: (body ++ [c]) :=
  if_pos (Or.inr ⟨rfl, p, List.mem_cons_self, rfl⟩)

theorem left_done (hNew : p ∉ ps) (body : List CaretSymbol) (c : CaretSymbol) :
    (LinePiece.response turn (.inr p) body c).left turn ps = [] := by
  refine if_neg (c := turn < turn ∨ turn = turn ∧ ∃ q ∈ ps, (Sum.inr p : CaretSymbol) = .inr q) ?_
  rintro (hLess | ⟨-, q, hMem, hSame⟩)
  · exact Nat.lt_irrefl _ hLess
  · exact hNew (Sum.inr_injective hSame ▸ hMem)

theorem due_or_none (l : List LinePiece) (turn : Nat) (p : CaretToken) :
    ((l.dropWhile fun q => !q.isDue turn p) = [] ∧ ∀ q ∈ l, q.isDue turn p = false) ∨
      ∃ before body c after, (l.takeWhile fun q => !q.isDue turn p) = before ∧
        (l.dropWhile fun q => !q.isDue turn p) = .response turn (.inr p) body c :: after ∧
        l = before ++ .response turn (.inr p) body c :: after ∧
        ∀ q ∈ before, q.isDue turn p = false := by
  have hSplit := @List.takeWhile_append_dropWhile _ (fun q => !LinePiece.isDue turn p q) l
  have hBefore : ∀ q ∈ l.takeWhile fun q => !q.isDue turn p, q.isDue turn p = false := by
    intro q hq
    simpa using List.mem_takeWhile_imp hq
  have hHead := List.head?_dropWhile_not (fun q => !LinePiece.isDue turn p q) l
  cases hRest : l.dropWhile fun q => !q.isDue turn p with
  | nil =>
    rw [hRest, List.append_nil] at hSplit
    rw [hSplit] at hBefore
    exact .inl ⟨rfl, hBefore⟩
  | cons q after =>
    rw [hRest] at hSplit hHead
    cases q with
    | kept s => simp [LinePiece.isDue] at hHead
    | response n x body c =>
      obtain ⟨rfl, rfl⟩ : n = turn ∧ x = .inr p := by simpa [LinePiece.isDue] using hHead
      exact .inr ⟨_, body, c, after, rfl, rfl, hSplit.symm, hBefore⟩

theorem textLeft_due {before after : List LinePiece} {body : List CaretSymbol} {t : CaretToken}
    (hNumbered : Numbered (before ++ .response turn (.inr p) body (.inr t) :: after))
    (hBefore : ∀ q ∈ before, q.isDue turn p = false) :
    textLeft turn (p :: ps) (before ++ .response turn (.inr p) body (.inr t) :: after) =
        textLeft turn ps before ++ caret.text p ++
          (caret.render body ++ caret.text t ++ textLeft turn ps after) ∧
      (p ∉ ps → textLeft turn ps (before ++ .response turn (.inr p) body (.inr t) :: after) =
        textLeft turn ps before ++ textLeft turn ps after) := by
  have hAfter : ∀ q ∈ after, q.isDue turn p = false := by
    have hOnce := (List.pairwise_append.mp hNumbered.once).2.1
    exact fun q hq => (List.pairwise_cons.mp hOnce).1 q hq turn p (decide_eq_true ⟨rfl, rfl⟩)
  constructor
  · rw [textLeft_append, textLeft_of_none hBefore, textLeft_cons, left_due, textLeft_of_none hAfter,
      render_response]
    simp only [List.append_assoc]
  · intro hNew
    rw [textLeft_append, textLeft_cons, left_done hNew]
    rfl

theorem oscRemoval_response {before body after : List Char} {t : CaretToken}
    (hBody : (caret.lex body).any closesOsc = false) (hCloses : closesOsc (.inr t) = true) :
    oscRemoval (before ++ caret.text p ++ (body ++ caret.text t ++ after)) p =
        some ⟨before, body, t, after⟩ ↔
      .inr p ∉ caret.lex before ∧ (t = .st ∨ .inr .st ∉ caret.lex after) := by
  have hNone : ∀ {u}, closesOsc (.inr u) = true → .inr u ∉ caret.lex body := by
    intro u hu hMem
    exact Bool.false_ne_true (hBody.symm.trans (List.any_eq_true.mpr ⟨_, hMem, hu⟩))
  constructor
  · intro h
    unfold oscRemoval at h
    split at h
    · cases h
    · next hFirst =>
      obtain ⟨-, -, hBefore⟩ := Tokens.Alphabet.splitOnce_text hFirst
      split at h
      · cases h
        exact ⟨hBefore, .inl rfl⟩
      · next hSt =>
        split at h
        · next hBel =>
          cases h
          obtain ⟨-, hSymbols, -⟩ := Tokens.Alphabet.splitOnce_text hBel
          have hNoSt := Tokens.Alphabet.splitOnce_text_none.mp hSt
          rw [hSymbols] at hNoSt
          exact ⟨hBefore, .inr fun hMem => hNoSt (List.mem_append_right _ (List.mem_cons_of_mem _ hMem))⟩
        · cases h
  · rintro ⟨hBefore, hEnd⟩
    rw [oscRemoval, Tokens.Alphabet.splitOnce_text_append hBefore]
    dsimp only
    by_cases hSt : t = .st
    · subst hSt
      rw [Tokens.Alphabet.splitOnce_text_append (hNone rfl)]
    · have hBel : t = .bel := by
        cases t <;> first | rfl | exact absurd rfl hSt | cases hCloses
      subst hBel
      have hNoSt : .inr .st ∉ caret.lex (body ++ caret.text .bel ++ after) := by
        rw [Tokens.Alphabet.lex_append_text, List.mem_append, List.mem_cons]
        rintro (hMem | hSame | hMem)
        · exact hNone rfl hMem
        · cases hSame
        · exact hEnd.resolve_left hSt hMem
      rw [Tokens.Alphabet.splitOnce_text_none.mpr hNoSt,
        Tokens.Alphabet.splitOnce_text_append (hNone rfl)]

theorem exists_closing {c : CaretSymbol} (h : closesOsc c = true) : ∃ t, c = .inr t := by
  rcases c with c | t
  · cases h
  · exact ⟨t, rfl⟩

def dueRemoval (l : List LinePiece) (turn : Nat) (p : CaretToken) (ps : List CaretToken) :
    Option OscRemoval :=
  match l.dropWhile fun q => !q.isDue turn p with
  | .response _ _ body (.inr t) :: after =>
    some ⟨textLeft turn ps (l.takeWhile fun q => !q.isDue turn p), caret.render body, t,
      textLeft turn ps after⟩
  | _ => none

theorem searchInOrder_iff (hNumbered : Numbered l) (turn : Nat) (p : CaretToken) (ps : List CaretToken) :
    searchInOrder l turn p ps = true ↔
      oscRemoval (textLeft turn (p :: ps) l) p = dueRemoval l turn p ps := by
  rw [searchInOrder, dueRemoval]
  obtain ⟨hRest, hNone⟩ | ⟨before, body, c, after, hFirst, hRest, rfl, hBefore⟩ := due_or_none l turn p
  · rw [hRest, textLeft_of_none hNone, oscRemoval_eq_none, Spans.bare_iff]
    constructor
    · exact fun h a b hSymbols => h a (.inr p) b hSymbols (decide_eq_true rfl)
    · intro h a x b hSymbols hx
      cases of_decide_eq_true hx
      exact h a b hSymbols
  · obtain ⟨⟨-, hBody, hCloses⟩, hLex⟩ := hNumbered.response
      (List.mem_append_right before (List.mem_cons_self (l := after)))
    obtain ⟨t, rfl⟩ := exists_closing hCloses
    rw [hFirst, hRest, (textLeft_due hNumbered hBefore).1]
    dsimp only
    rw [oscRemoval_response (by rwa [hLex]) hCloses]
    simp only [Bool.and_eq_true, Bool.or_eq_true, List.all_eq_true, decide_eq_true_eq]
    grind

theorem removeOsc_textLeft (hNumbered : Numbered l) (hNew : p ∉ ps)
    (h : searchInOrder l turn p ps = true) :
    removeOsc (textLeft turn (p :: ps) l) p = textLeft turn ps l := by
  have hFound := (searchInOrder_iff hNumbered turn p ps).mp h
  rw [dueRemoval] at hFound
  obtain ⟨hRest, hNone⟩ | ⟨before, body, c, after, hFirst, hRest, rfl, hBefore⟩ := due_or_none l turn p
  · rw [hRest] at hFound
    rw [removeOsc_of_none hFound, textLeft_of_none hNone]
  · obtain ⟨t, rfl⟩ := exists_closing (hNumbered.response
      (List.mem_append_right before (List.mem_cons_self (l := after)))).1.closing
    rw [hFirst, hRest] at hFound
    rw [removeOsc_of_some hFound, (textLeft_due hNumbered hBefore).2 hNew]

theorem foldl_textLeft (hNumbered : Numbered l) (hNodup : ps.Nodup)
    (h : turnInOrder l turn ps = true) :
    ps.foldl removeOsc (textLeft turn ps l) = textLeft turn [] l := by
  induction ps with
  | nil => rfl
  | cons p ps ih =>
    rw [turnInOrder, Bool.and_eq_true] at h
    obtain ⟨hNew, hNodup⟩ := List.nodup_cons.mp hNodup
    rw [List.foldl_cons, removeOsc_textLeft hNumbered hNew h.1]
    exact ih hNodup h.2

theorem Numbered.opening (h : Numbered l) {n : Nat} {x c : CaretSymbol} {body : List CaretSymbol}
    (hMem : .response n x body c ∈ l) : ∃ p ∈ oscPrefixes, x = .inr p :=
  mem_of_opensOsc (h.response hMem).1.opening

theorem textLeft_next (h : Numbered l) (turn : Nat) :
    textLeft turn [] l = textLeft (turn + 1) oscPrefixes l := by
  refine congrArg caret.render (List.flatMap_congr fun q hq => ?_)
  cases q with
  | kept s => rfl
  | response n x body c =>
    have hOpening := h.opening hq
    simp only [LinePiece.left, List.not_mem_nil, false_and, exists_false, and_false, or_false, hOpening,
      and_true]
    congr 1
    apply propext
    omega

theorem sanitizeTurn_textLeft (hNumbered : Numbered l) (h : turnInOrder l turn oscPrefixes = true) :
    sanitizeTurn (textLeft turn oscPrefixes l) = textLeft (turn + 1) oscPrefixes l := by
  rw [sanitizeTurn, foldl_textLeft hNumbered (by decide) h, textLeft_next hNumbered]

/-- Every turn that changes the line takes a character at least. -/
theorem sanitizeLoop_textLeft (hNumbered : Numbered l) {turns : Nat}
    (h : ∀ turn ≤ turns, turnInOrder l turn oscPrefixes = true) (fuel : Nat)
    (hTurns : (textLeft turn oscPrefixes l).length + turn ≤ turns) :
    ∃ n, sanitizeLoop fuel (textLeft turn oscPrefixes l) = textLeft n oscPrefixes l := by
  induction fuel generalizing turn with
  | zero => exact ⟨turn, rfl⟩
  | succ fuel ih =>
    have hTurn := sanitizeTurn_textLeft hNumbered (h turn (by omega))
    have hLe := length_foldl_le oscPrefixes (textLeft turn oscPrefixes l)
    rw [← sanitizeTurn, hTurn] at hLe
    rw [sanitizeLoop, hTurn]
    split
    · exact ⟨turn + 1, rfl⟩
    · next hShorter => exact ih (by omega)

theorem textLeft_of_bare (hNumbered : Numbered l)
    (h : Spans.bare opensOsc closesOsc (caret.lex (textLeft turn ps l)) = true) :
    textLeft turn ps l = caret.render (l.flatMap LinePiece.outer) := by
  refine congrArg caret.render (List.flatMap_congr fun q hq => ?_)
  cases q with
  | kept s => rfl
  | response n x body c =>
    refine if_neg fun hLeft => ?_
    obtain ⟨before, after, rfl⟩ := List.append_of_mem hq
    obtain ⟨p, hp, rfl⟩ := hNumbered.opening hq
    obtain ⟨t, rfl⟩ := exists_closing (hNumbered.response hq).1.closing
    rw [textLeft_append, textLeft_cons, LinePiece.left, if_pos hLeft, render_response,
      List.append_assoc, ← List.append_assoc, Tokens.Alphabet.lex_append_text] at h
    have hNone := Spans.bare_iff.mp h _ _ _ rfl (opensOsc_of_mem hp)
    rw [Tokens.Alphabet.lex_append_text, Spans.any_append_cons (hNumbered.response hq).1.closing] at hNone
    cases hNone

/-! ## The pieces of a line -/

theorem mem_numbered {seen : List CaretSymbol} {pieces : List (Spans.Piece CaretSymbol)} {n : Nat}
    {x c : CaretSymbol} {body : List CaretSymbol} (h : .response n x body c ∈ numbered seen pieces) :
    .span x body c ∈ pieces ∧ seen.countP (· = x) ≤ n := by
  induction pieces generalizing seen with
  | nil => cases h
  | cons piece pieces ih =>
    cases piece with
    | kept s =>
      rcases List.mem_cons.mp h with hHead | hRest
      · cases hHead
      · exact ⟨List.mem_cons_of_mem _ (ih hRest).1, (ih hRest).2⟩
    | span y body' d =>
      rcases List.mem_cons.mp h with hHead | hRest
      · cases hHead
        exact ⟨List.mem_cons_self, Nat.le_refl _⟩
      · refine ⟨List.mem_cons_of_mem _ (ih hRest).1, Nat.le_trans ?_ (ih hRest).2⟩
        exact (List.sublist_cons_self y seen).countP_le

theorem pairwise_numbered (seen : List CaretSymbol) (pieces : List (Spans.Piece CaretSymbol)) :
    (numbered seen pieces).Pairwise fun q r => ∀ turn p, q.isDue turn p = true → r.isDue turn p = false := by
  induction pieces generalizing seen with
  | nil => exact .nil
  | cons piece pieces ih =>
    cases piece with
    | kept s => exact .cons (fun _ _ _ _ h => absurd h Bool.false_ne_true) (ih seen)
    | span x body c =>
      refine .cons (fun r hr turn p h => ?_) (ih (x :: seen))
      obtain ⟨rfl, rfl⟩ := of_decide_eq_true h
      cases r with
      | kept s => rfl
      | response n y body' d =>
        refine decide_eq_false ?_
        rintro ⟨rfl, rfl⟩
        have hLater := (mem_numbered hr).2
        rw [List.countP_cons_of_pos (by simp)] at hLater
        exact Nat.not_succ_le_self _ hLater

theorem outer_numbered (seen : List CaretSymbol) (pieces : List (Spans.Piece CaretSymbol)) :
    (numbered seen pieces).flatMap LinePiece.outer = pieces.flatMap Spans.Piece.outer := by
  induction pieces generalizing seen with
  | nil => rfl
  | cons piece pieces ih =>
    cases piece with
    | kept s => exact congrArg (s :: ·) (ih seen)
    | span x body c => exact ih (x :: seen)

/-- Nothing is gone before the first turn. -/
theorem left_numbered {seen : List CaretSymbol} {pieces : List (Spans.Piece CaretSymbol)}
    (h : ∀ x body c, .span x body c ∈ pieces → ∃ p ∈ oscPrefixes, x = .inr p) :
    (numbered seen pieces).flatMap (LinePiece.left 0 oscPrefixes) = pieces.flatMap Spans.Piece.symbols := by
  induction pieces generalizing seen with
  | nil => rfl
  | cons piece pieces ih =>
    have hRest := fun seen => @ih seen fun x body c hMem => h x body c (List.mem_cons_of_mem _ hMem)
    cases piece with
    | kept s => exact congrArg (s :: ·) (hRest seen)
    | span x body c =>
      have hOpening := h x body c List.mem_cons_self
      rw [numbered, List.flatMap_cons, hRest, LinePiece.left, if_pos]
      · rfl
      · exact (Nat.eq_zero_or_pos _).symm.imp id fun hZero => ⟨hZero, hOpening⟩

theorem proper_of_mem {line : List Char} {x c : CaretSymbol} {body : List CaretSymbol}
    (h : .span x body c ∈ Spans.pieces opensOsc closesOsc none (caret.lex line)) :
    Spans.Piece.Proper opensOsc closesOsc x body c ∧ caret.lex (caret.render body) = body := by
  have hProper := Spans.proper_of_mem_pieces (by simp) h
  refine ⟨hProper, ?_⟩
  obtain ⟨before, after, hSplit⟩ := List.append_of_mem h
  have hSymbols := @Spans.symbols_pieces _ opensOsc closesOsc (caret.lex line) none (by simp)
  rw [hSplit, List.flatMap_append, List.flatMap_cons, Spans.Piece.symbols] at hSymbols
  obtain ⟨p, -, rfl⟩ := mem_of_opensOsc hProper.opening
  obtain ⟨t, rfl⟩ := exists_closing hProper.closing
  rw [List.cons_append, List.append_assoc, List.singleton_append] at hSymbols
  have hRest := (Tokens.Alphabet.lex_render_of_split hSymbols.symm).2
  exact (Tokens.Alphabet.lex_render_of_split hRest).1

theorem numbered_linePieces (line : String) : Numbered (linePieces line) :=
  ⟨fun h => proper_of_mem (mem_numbered h).1, pairwise_numbered _ _⟩

theorem textLeft_linePieces (line : String) : textLeft 0 oscPrefixes (linePieces line) = cursorless line := by
  have hSymbols := @Spans.symbols_pieces _ opensOsc closesOsc (caret.lex (cursorless line)) none (by simp)
  rw [textLeft, linePieces, left_numbered fun _ _ _ h => mem_of_opensOsc (proper_of_mem h).1.opening, hSymbols]
  exact Tokens.Alphabet.render_lex _

theorem outer_linePieces (line : String) :
    String.ofList (caret.render ((linePieces line).flatMap LinePiece.outer)) = cursorsFirst line := by
  rw [linePieces, outer_numbered, Spans.outer_pieces]
  rfl

/-! ## The sanitizer removes exactly the sequences -/

theorem lex_of_no_caret {line : List Char} (h : '^' ∉ line) (t : CaretToken) : .inr t ∉ caret.lex line := by
  intro hMem
  obtain ⟨a, b, rfl⟩ := Tokens.Alphabet.mem_lex.mp hMem
  exact h (List.mem_append_left _ (List.mem_append_right _ List.mem_cons_self))

theorem withoutCursor_eq (line : List Char) :
    withoutCursor line = caret.render (notCursor (caret.lex line)) := Tokens.Alphabet.flatten_pieces _ line

theorem withoutCursor_of_not_mem {line : List Char} (h : .inr .cursor ∉ caret.lex line) :
    withoutCursor line = line := by
  have hSame : notCursor (caret.lex line) = caret.lex line := by
    rw [notCursor, List.filter_eq_self]
    intro s hs
    exact decide_eq_true fun hEq => h (hEq ▸ hs)
  rw [withoutCursor_eq, hSame, Tokens.Alphabet.render_lex]

theorem oscRemoval_of_no_caret {line : List Char} (h : '^' ∉ line) (p : CaretToken) :
    oscRemoval line p = none := by
  rw [oscRemoval_eq_none]
  intro a b hSplit
  refine absurd ?_ (lex_of_no_caret h p)
  rw [hSplit]
  exact List.mem_append_right _ List.mem_cons_self

theorem sanitizeCaretOsc_eq (line : String) : sanitizeCaretOsc line =
    String.ofList (sanitizeLoop (withoutCursor line.toList).length (withoutCursor line.toList)) := by
  rw [sanitizeCaretOsc]
  split
  · rfl
  · next hNone =>
    have hBare := bare_iff.mpr fun p _ => oscRemoval_of_no_caret hNone p
    rw [withoutCursor_of_not_mem (lex_of_no_caret hNone _), sanitizeLoop_of_bare hBare, String.ofList_toList]

theorem hasSequence_iff {line : List Char} : HasSequence line ↔
    .inr .cursor ∈ caret.lex line ∨ Spans.bare opensOsc closesOsc (caret.lex line) = false := by
  rw [HasSequence, Tokens.Alphabet.mem_lex]
  apply or_congr_right
  rw [Bool.eq_false_iff, Ne, bare_iff]
  constructor
  · rintro ⟨p, hp, t, ht, a, b, c, rfl⟩ h
    have hNone := oscRemoval_eq_none.mp (h p hp) _ _ (Tokens.Alphabet.lex_append_text a p _)
    rw [Tokens.Alphabet.lex_append_text, Bool.eq_false_iff, Ne, any_closesOsc] at hNone
    exact hNone ⟨t, ht, List.mem_append_right _ List.mem_cons_self⟩
  · intro h
    simp only [not_forall] at h
    obtain ⟨p, hp, hSome⟩ := h
    obtain ⟨r, hFound⟩ := Option.ne_none_iff_exists'.mp hSome
    obtain ⟨hSymbols, hCloses, -⟩ := oscRemoval_eq_some hFound
    have hTerminator : r.terminator ∈ [CaretToken.st, CaretToken.bel] := by
      have hAny : [(.inr r.terminator : CaretSymbol)].any closesOsc = true := by
        rw [List.any_cons, hCloses, Bool.true_or]
      obtain ⟨t, ht, hMem⟩ := any_closesOsc.mp hAny
      rwa [← Sum.inr_injective (List.mem_singleton.mp hMem)]
    refine ⟨p, hp, r.terminator, hTerminator, r.before, r.body, r.after, ?_⟩
    have hLine := congrArg caret.render hSymbols
    rw [Tokens.Alphabet.render_lex, Tokens.Alphabet.render_append, Tokens.Alphabet.render_lex] at hLine
    rw [hLine, Tokens.Alphabet.render, List.flatMap_cons, ← Tokens.Alphabet.render,
      Tokens.Alphabet.render_append, Tokens.Alphabet.render_lex, Tokens.Alphabet.render, List.flatMap_cons,
      ← Tokens.Alphabet.render, Tokens.Alphabet.render_lex, List.append_assoc, List.append_assoc]
    rfl

theorem length_cursorless_le (line : String) : (cursorless line).length ≤ line.length := by
  have hSublist := (List.filter_sublist (p := fun s : CaretSymbol => s ≠ .inr .cursor)
    (l := caret.lex line.toList)).flatMap caret.renderSymbol
  have hLength := hSublist.length_le
  rwa [← Tokens.Alphabet.render, ← Tokens.Alphabet.render, Tokens.Alphabet.render_lex] at hLength

theorem sanitizeCaretOsc_of_inOrder {line : String} (h : InOrder line) :
    sanitizeCaretOsc line = cursorsFirst line := by
  have hNumbered := numbered_linePieces line
  have hStart : withoutCursor line.toList = textLeft 0 oscPrefixes (linePieces line) := by
    rw [withoutCursor_eq, textLeft_linePieces]
    rfl
  have hBare := sanitizeLoop_bare (Nat.le_refl (withoutCursor line.toList).length)
  have hTurns : (textLeft 0 oscPrefixes (linePieces line)).length + 0 ≤ line.length := by
    rw [textLeft_linePieces]
    exact length_cursorless_le line
  obtain ⟨n, hEnd⟩ := sanitizeLoop_textLeft hNumbered h (withoutCursor line.toList).length hTurns
  rw [← hStart] at hEnd
  rw [hEnd] at hBare
  rw [sanitizeCaretOsc_eq, hEnd, textLeft_of_bare hNumbered hBare, outer_linePieces]

end Exosuit.Hook
