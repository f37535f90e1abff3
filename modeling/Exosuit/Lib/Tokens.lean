import Exosuit.Lib.Text

/-!
# Tokens with a mark

Texts that begin with a mark, have no other mark in them, and of which none is the beginning of
another. They never overlap, so a line is cut into characters and tokens in one way only, and what
is found in the line is found in the symbols.
-/

namespace Exosuit.Lib.Tokens

universe u

/-- The text of a token is the mark and its tail. -/
structure Alphabet (τ : Type u) where
  mark : Char
  tail : τ → List Char
  tokens : List τ
  mem_tokens : ∀ t, t ∈ tokens
  mark_not_mem : ∀ t, mark ∉ tail t
  apart : ∀ {t u}, tail t <+: tail u → t = u

/-- A character or a token. -/
abbrev Symbol (τ : Type u) := Char ⊕ τ

namespace Alphabet

variable {τ : Type u} (A : Alphabet τ)

def text (t : τ) : List Char := A.mark :: A.tail t

def tokenAt (l : List Char) : Option τ := A.tokens.find? fun t => (A.text t).isPrefixOf l

/-- The symbols of a line; `skip` characters of a token are still to come. -/
def lexFrom (skip : Nat) : List Char → List (Symbol τ)
  | [] => []
  | c :: cs =>
    match skip with
    | n + 1 => lexFrom n cs
    | 0 =>
      match A.tokenAt (c :: cs) with
      | some t => .inr t :: lexFrom (A.tail t).length cs
      | none => .inl c :: lexFrom 0 cs

def lex (l : List Char) : List (Symbol τ) := A.lexFrom 0 l

def renderSymbol : Symbol τ → List Char
  | .inl c => [c]
  | .inr t => A.text t

def render (l : List (Symbol τ)) : List Char := l.flatMap A.renderSymbol

variable {A} {t u : τ} {c : Char} {l p q r v : List Char}

/-! ## The token at the beginning -/

theorem text_apart (hT : A.text t <+: l) (hU : A.text u <+: l) : t = u := by
  rcases List.prefix_or_prefix_of_prefix hT hU with h | h
  · exact A.apart (List.cons_prefix_cons.mp h).2
  · exact (A.apart (List.cons_prefix_cons.mp h).2).symm

theorem prefix_of_tokenAt (h : A.tokenAt l = some t) : A.text t <+: l := by
  have hHolds := @List.find?_some τ (fun t => (A.text t).isPrefixOf l) t A.tokens h
  exact List.isPrefixOf_iff_prefix.mp hHolds

theorem tokenAt_eq_some : A.tokenAt l = some t ↔ A.text t <+: l := by
  constructor
  · exact prefix_of_tokenAt
  · intro h
    cases hFound : A.tokenAt l with
    | none =>
      have hNot := List.find?_eq_none.mp hFound t (A.mem_tokens t)
      exact absurd (List.isPrefixOf_iff_prefix.mpr h) hNot
    | some u => rw [text_apart h (prefix_of_tokenAt hFound)]

theorem tokenAt_text (t : τ) (l : List Char) : A.tokenAt (A.text t ++ l) = some t :=
  tokenAt_eq_some.mpr (List.prefix_append _ _)

theorem text_prefix_append_mark (hp : p ≠ []) : A.text t <+: p ++ A.mark :: r ↔ A.text t <+: p := by
  constructor
  · intro h
    obtain ⟨c, p, rfl⟩ := List.exists_cons_of_ne_nil hp
    rw [List.cons_append, text, List.cons_prefix_cons] at h
    rw [text, List.cons_prefix_cons]
    refine ⟨h.1, ?_⟩
    have hMark := A.mark_not_mem t
    obtain ⟨-, h⟩ := h
    clear hp
    generalize A.tail t = tail at h hMark
    induction tail generalizing p with
    | nil => exact List.nil_prefix
    | cons d tail ih =>
      rw [List.mem_cons, not_or] at hMark
      cases p with
      | nil => exact absurd (List.cons_prefix_cons.mp h).1.symm hMark.1
      | cons d' p =>
        rw [List.cons_append, List.cons_prefix_cons] at h
        rw [List.cons_prefix_cons]
        exact ⟨h.1, ih p h.2 hMark.2⟩
  · intro h
    exact h.trans (List.prefix_append _ _)

theorem tokenAt_append_mark (hp : p ≠ []) : A.tokenAt (p ++ A.mark :: r) = A.tokenAt p := by
  apply Option.ext
  intro t
  rw [tokenAt_eq_some, tokenAt_eq_some, text_prefix_append_mark hp]

/-! ## The symbols of a line -/

theorem lexFrom_eq (skip : Nat) (l : List Char) : A.lexFrom skip l = A.lex (l.drop skip) := by
  induction l generalizing skip with
  | nil => rw [List.drop_nil]; rfl
  | cons c l ih =>
    cases skip with
    | zero => rfl
    | succ skip => exact ih skip

theorem lex_text_append (t : τ) (l : List Char) : A.lex (A.text t ++ l) = .inr t :: A.lex l := by
  have hToken : A.tokenAt (A.mark :: (A.tail t ++ l)) = some t := A.tokenAt_text t l
  change A.lexFrom 0 (A.mark :: (A.tail t ++ l)) = _
  rw [lexFrom, hToken]
  change Sum.inr t :: A.lexFrom (A.tail t).length (A.tail t ++ l) = _
  rw [lexFrom_eq, List.drop_left]

theorem lex_cons (h : A.tokenAt (c :: l) = none) : A.lex (c :: l) = .inl c :: A.lex l := by
  rw [lex, lexFrom, h]
  rfl

/-- A line is empty, or begins with a token, or begins with a character that does not begin one. -/
theorem induct {P : List Char → Prop} (nil : P []) (token : ∀ t l, P l → P (A.text t ++ l))
    (char : ∀ c l, A.tokenAt (c :: l) = none → P l → P (c :: l)) (l : List Char) : P l := by
  induction hLength : l.length using Nat.strongRecOn generalizing l with
  | ind n ih =>
    subst hLength
    cases l with
    | nil => exact nil
    | cons c l =>
      cases hToken : A.tokenAt (c :: l) with
      | none => exact char c l hToken (ih l.length (Nat.lt_succ_self _) l rfl)
      | some t =>
        obtain ⟨rest, hRest⟩ := tokenAt_eq_some.mp hToken
        rw [← hRest]
        apply token
        apply ih _ _ rest rfl
        rw [← hRest, List.length_append, text, List.length_cons]
        omega

theorem render_lex (l : List Char) : A.render (A.lex l) = l := by
  induction l using A.induct with
  | nil => rfl
  | token t l ih => rw [lex_text_append, render, List.flatMap_cons, ← render, ih]; rfl
  | char c l hToken ih => rw [lex_cons hToken, render, List.flatMap_cons, ← render, ih]; rfl

theorem render_append (l l' : List (Symbol τ)) : A.render (l ++ l') = A.render l ++ A.render l' :=
  List.flatMap_append

theorem lex_append_mark (p r : List Char) : A.lex (p ++ A.mark :: r) = A.lex p ++ A.lex (A.mark :: r) := by
  induction p using A.induct with
  | nil => rfl
  | token t l ih => rw [List.append_assoc, lex_text_append, ih, lex_text_append, List.cons_append]
  | char c l hToken ih =>
    have hWhole : A.tokenAt (c :: (l ++ A.mark :: r)) = none := by
      rw [← List.cons_append, tokenAt_append_mark (List.cons_ne_nil _ _), hToken]
    rw [List.cons_append, lex_cons hWhole, ih, lex_cons hToken, List.cons_append]

theorem lex_append_text (p : List Char) (t : τ) (q : List Char) :
    A.lex (p ++ A.text t ++ q) = A.lex p ++ .inr t :: A.lex q := by
  rw [← lex_text_append, List.append_assoc]
  exact lex_append_mark p (A.tail t ++ q)

theorem render_ne_nil {s : Symbol τ} {a : List (Symbol τ)} : A.render (s :: a) ≠ [] := by
  cases s <;> exact List.cons_ne_nil _ _

/-- The symbols on either side of a token are those of their texts. -/
theorem lex_render_of_split {a b : List (Symbol τ)} (h : A.lex l = a ++ .inr t :: b) :
    A.lex (A.render a) = a ∧ A.lex (A.render b) = b := by
  have hLine : l = A.render a ++ A.text t ++ A.render b := by
    rw [← render_lex (A := A) l, h, render_append, List.append_assoc]
    rfl
  have hSymbols := congrArg A.lex hLine
  rw [h, lex_append_text] at hSymbols
  have hSame : a = A.lex (A.render a) := by
    rcases List.append_eq_append_iff.mp hSymbols with ⟨m, hm, -⟩ | ⟨m, hm, -⟩
    · cases m with
      | nil => rw [hm, List.append_nil]
      | cons s m =>
        have hText := congrArg A.render hm
        rw [render_lex, render_append] at hText
        exact absurd (List.append_right_eq_self.mp hText.symm) render_ne_nil
    · cases m with
      | nil => rwa [List.append_nil] at hm
      | cons s m =>
        have hText := congrArg A.render hm
        rw [render_append, render_lex] at hText
        exact absurd (List.append_right_eq_self.mp hText.symm) render_ne_nil
  rw [← hSame] at hSymbols
  have hRest := List.append_cancel_left hSymbols
  rw [List.cons.injEq] at hRest
  exact ⟨hSame.symm, hRest.2.symm⟩

theorem mem_lex : .inr t ∈ A.lex l ↔ A.text t <:+: l := by
  constructor
  · intro h
    obtain ⟨a, b, hSplit⟩ := List.append_of_mem h
    refine ⟨A.render a, A.render b, ?_⟩
    rw [← render_lex (A := A) l, hSplit, render_append, List.append_assoc]
    rfl
  · rintro ⟨p, q, rfl⟩
    rw [lex_append_text]
    exact List.mem_append_right _ List.mem_cons_self

/-! ## Searching -/

/-- Nothing stands before the first occurrence that does not stand before the others. -/
theorem first_occurrence {σ : Type*} {x : σ} {a b a' b' : List σ} (h : a ++ x :: b = a' ++ x :: b')
    (hFirst : x ∉ a) : ∃ m, a' = a ++ m ∧ x :: b = m ++ x :: b' := by
  rcases List.append_eq_append_iff.mp h with hLater | ⟨m, rfl, hm⟩
  · exact hLater
  · cases m with
    | nil => exact ⟨[], by rw [List.append_nil, List.append_nil], hm.symm⟩
    | cons y m =>
      rw [List.cons_append, List.cons.injEq] at hm
      refine absurd ?_ hFirst
      rw [← hm.1]
      exact List.mem_append_right _ List.mem_cons_self

theorem text_ne_nil (t : τ) : A.text t ≠ [] := List.cons_ne_nil _ _

/-- The first occurrence of a token. -/
theorem splitOnce_text (h : Text.splitOnceList (A.text t) l = some (p, q)) :
    l = p ++ A.text t ++ q ∧ A.lex l = A.lex p ++ .inr t :: A.lex q ∧ .inr t ∉ A.lex p := by
  obtain ⟨rfl, hMin⟩ := (Text.splitOnceList_eq_some (text_ne_nil t)).mp h
  refine ⟨rfl, lex_append_text p t q, fun hMem => ?_⟩
  obtain ⟨p₁, p₂, rfl⟩ := mem_lex.mp hMem
  have hShorter := hMin p₁ (p₂ ++ A.text t ++ q) (by simp only [List.append_assoc])
  rw [List.length_append, List.length_append, text, List.length_cons] at hShorter
  omega

theorem splitOnce_text_append (h : .inr t ∉ A.lex p) :
    Text.splitOnceList (A.text t) (p ++ A.text t ++ q) = some (p, q) := by
  refine (Text.splitOnceList_eq_some (text_ne_nil t)).mpr ⟨rfl, fun p' q' hSplit => ?_⟩
  have hSymbols := congrArg A.lex hSplit
  rw [lex_append_text, lex_append_text] at hSymbols
  obtain ⟨m, hm, -⟩ := first_occurrence hSymbols h
  rw [← render_lex (A := A) p', hm, render_append, render_lex, List.length_append]
  exact Nat.le_add_right _ _

theorem splitOnce_text_none : Text.splitOnceList (A.text t) l = none ↔ .inr t ∉ A.lex l := by
  rw [Text.splitOnceList_eq_none (text_ne_nil t), mem_lex]

theorem pieces_of_not_mem (h : A.mark ∉ v) : (Text.pieces (A.text t) 0 (v ++ l)).flatten =
    v ++ (Text.pieces (A.text t) 0 l).flatten := by
  induction v with
  | nil => rfl
  | cons c v ih =>
    rw [List.mem_cons, not_or] at h
    have hHead : (A.text t).isPrefixOf (c :: (v ++ l)) = false := by
      rw [Bool.eq_false_iff, Ne, List.isPrefixOf_iff_prefix]
      intro hPrefix
      exact h.1 (List.cons_prefix_cons.mp hPrefix).1
    obtain ⟨piece, rest, hPieces⟩ := List.exists_cons_of_ne_nil (Text.pieces_ne_nil (A.text t) 0 (v ++ l))
    have hRest := ih h.2
    rw [hPieces] at hRest
    rw [List.cons_append, Text.pieces, hHead, if_neg Bool.false_ne_true, hPieces]
    exact congrArg (c :: ·) hRest

theorem pieces_skip (sep v l : List Char) : Text.pieces sep v.length (v ++ l) = Text.pieces sep 0 l := by
  induction v with
  | nil => rfl
  | cons c v ih => exact ih

variable [DecidableEq τ]

/-- Replacing a token by nothing removes it from the symbols. -/
theorem flatten_pieces (t : τ) (l : List Char) :
    (Text.pieces (A.text t) 0 l).flatten = A.render ((A.lex l).filter fun s => s ≠ .inr t) := by
  induction l using A.induct with
  | nil => rfl
  | token u l ih =>
    rw [lex_text_append, List.filter_cons]
    by_cases hu : u = t
    · subst hu
      have hHead : (A.text u).isPrefixOf (A.mark :: (A.tail u ++ l)) = true :=
        List.isPrefixOf_iff_prefix.mpr (List.prefix_append _ _)
      change (Text.pieces (A.text u) 0 (A.mark :: (A.tail u ++ l))).flatten = _
      rw [Text.pieces, hHead, if_pos rfl, if_neg (by simp), ← ih]
      change (Text.pieces (A.text u) (A.tail u).length (A.tail u ++ l)).flatten = _
      rw [pieces_skip]
    · have hHead : (A.text t).isPrefixOf (A.mark :: (A.tail u ++ l)) = false := by
        rw [Bool.eq_false_iff, Ne, List.isPrefixOf_iff_prefix]
        intro hPrefix
        exact hu (text_apart (List.prefix_append _ _) hPrefix)
      obtain ⟨piece, rest, hPieces⟩ :=
        List.exists_cons_of_ne_nil (Text.pieces_ne_nil (A.text t) 0 (A.tail u ++ l))
      have hTail := @pieces_of_not_mem τ A t l (A.tail u) (A.mark_not_mem u)
      rw [hPieces] at hTail
      change (Text.pieces (A.text t) 0 (A.mark :: (A.tail u ++ l))).flatten = _
      rw [Text.pieces, hHead, if_neg Bool.false_ne_true, hPieces, if_pos (by simpa using hu), render,
        List.flatMap_cons, ← render, ← ih]
      exact congrArg (A.mark :: ·) hTail
  | char c l hToken ih =>
    have hHead : (A.text t).isPrefixOf (c :: l) = false := by
      rw [Bool.eq_false_iff, Ne, List.isPrefixOf_iff_prefix]
      intro hPrefix
      rw [tokenAt_eq_some.mpr hPrefix] at hToken
      cases hToken
    obtain ⟨piece, rest, hPieces⟩ := List.exists_cons_of_ne_nil (Text.pieces_ne_nil (A.text t) 0 l)
    rw [hPieces] at ih
    rw [lex_cons hToken, List.filter_cons, if_pos (by simp), Text.pieces, hHead, if_neg Bool.false_ne_true,
      hPieces, render, List.flatMap_cons, ← render]
    exact congrArg (c :: ·) ih

end Alphabet

end Exosuit.Lib.Tokens
