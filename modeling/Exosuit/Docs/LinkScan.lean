import Exosuit.Docs.Links
import Mathlib.Data.List.TakeWhile

/-!
# Finding links

A text is cut into characters and links in one way. When links give way to texts in parentheses, the
characters between them stay characters.
-/

namespace Exosuit.Docs

open Lib

variable {c : Char} {rest text after : Str}

/-- What the pattern lets stand between the mark and the closing parenthesis. -/
def IsTarget (rest : Str) : Prop := rest ≠ [] ∧ ∀ c ∈ rest, inLink c = true

def pieceText : Piece → Str
  | .char c => [c]
  | .link rest => linkText rest

theorem not_inLink_close : inLink ')' = false := rfl

theorem inLink_mark : ∀ c ∈ linkMark, inLink c = true :=
  List.all_eq_true.mp (show linkMark.all inLink = true by decide)

theorem IsTarget.close_not_mem (h : IsTarget rest) : ')' ∉ rest := by
  intro hMem
  have hClose := h.2 ')' hMem
  rw [not_inLink_close] at hClose
  exact Bool.false_ne_true hClose

theorem linkText_append (rest after : Str) : linkText rest ++ after = linkMark ++ (rest ++ ')' :: after) := by
  rw [linkText, List.append_assoc, List.append_assoc, List.singleton_append]

theorem linkAt_mark (text : Str) : linkAt (linkMark ++ text) =
    if text.takeWhile inLink ≠ [] ∧ (text.dropWhile inLink).head? = some ')' then
      some (text.takeWhile inLink) else none := by
  have hPrefix : linkMark.isPrefixOf (linkMark ++ text) = true :=
    List.isPrefixOf_iff_prefix.mpr (List.prefix_append _ _)
  rw [linkAt, List.drop_left]
  simp only [hPrefix, true_and]

theorem linkAt_linkText (h : IsTarget rest) (after : Str) : linkAt (linkText rest ++ after) = some rest := by
  rw [linkText_append, linkAt_mark, List.takeWhile_append_of_pos h.2, List.dropWhile_append_of_pos h.2,
    List.takeWhile_cons_of_neg (by rw [not_inLink_close]; exact Bool.false_ne_true),
    List.dropWhile_cons_of_neg (by rw [not_inLink_close]; exact Bool.false_ne_true), List.append_nil]
  exact if_pos ⟨h.1, rfl⟩

theorem eq_of_linkAt (h : linkAt text = some rest) :
    IsTarget rest ∧ ∃ after, text = linkText rest ++ after := by
  have hMark : linkMark <+: text := by
    rw [linkAt] at h
    split at h
    · next hCond => exact List.isPrefixOf_iff_prefix.mp hCond.1
    · exact nomatch h
  obtain ⟨text, rfl⟩ := hMark
  rw [linkAt_mark] at h
  split at h
  · next hCond =>
    obtain ⟨after, hAfter⟩ := List.head?_eq_some_iff.mp hCond.2
    rw [Option.some.injEq] at h
    rw [← h]
    refine ⟨⟨hCond.1, fun c hMem => List.mem_takeWhile_imp hMem⟩, after, ?_⟩
    rw [linkText_append, ← hAfter, List.takeWhile_append_dropWhile]
  · exact nomatch h

theorem scanFrom_eq (skip : Nat) (text : Str) : scanFrom skip text = scan (text.drop skip) := by
  induction text generalizing skip with
  | nil => rw [List.drop_nil]; rfl
  | cons c text ih =>
    cases skip with
    | zero => rfl
    | succ skip =>
      rw [scanFrom, List.drop_succ_cons]
      exact ih skip

theorem scan_char (h : linkAt (c :: text) = none) : scan (c :: text) = .char c :: scan text := by
  rw [scan, scanFrom, h]
  rfl

theorem scan_linkText (h : IsTarget rest) (after : Str) :
    scan (linkText rest ++ after) = .link rest :: scan after := by
  have hAt := linkAt_linkText h after
  have hShape : linkText rest ++ after = '(' :: (linkMark.tail ++ rest ++ [')'] ++ after) := rfl
  have hDrop : (linkMark.tail ++ rest ++ [')'] ++ after).drop (rest.length + linkMark.length) = after := by
    refine List.drop_left' ?_
    simp [linkMark]
  rw [hShape] at hAt ⊢
  rw [scan, scanFrom, hAt]
  dsimp only
  rw [scanFrom_eq, hDrop]

theorem scan_induction {motive : Str → Prop} (nil : motive [])
    (link : ∀ rest after, IsTarget rest → motive after → motive (linkText rest ++ after))
    (char : ∀ c text, linkAt (c :: text) = none → motive text → motive (c :: text)) :
    ∀ text, motive text := by
  intro text
  induction hLength : text.length using Nat.strong_induction_on generalizing text with
  | _ n ih =>
    cases text with
    | nil => exact nil
    | cons c text =>
      cases hAt : linkAt (c :: text) with
      | none =>
        refine char c text hAt (ih text.length ?_ text rfl)
        rw [← hLength, List.length_cons]
        exact Nat.lt_succ_self _
      | some rest =>
        obtain ⟨hTarget, after, hText⟩ := eq_of_linkAt hAt
        rw [hText]
        refine link rest after hTarget (ih after.length ?_ after rfl)
        rw [← hLength, hText, List.length_append]
        simp [linkText]

theorem flatMap_scan (text : Str) : (scan text).flatMap pieceText = text := by
  induction text using scan_induction with
  | nil => rfl
  | link rest after hTarget ih => rw [scan_linkText hTarget, List.flatMap_cons, ih, pieceText]
  | char c text hAt ih => rw [scan_char hAt, List.flatMap_cons, ih, pieceText, List.singleton_append]

theorem isTarget_of_mem_scan (h : .link rest ∈ scan text) : IsTarget rest := by
  induction text using scan_induction with
  | nil => exact nomatch h
  | link rest' after hTarget ih =>
    rw [scan_linkText hTarget] at h
    rcases List.mem_cons.mp h with h | h
    · rw [Piece.link.inj h]
      exact hTarget
    · exact ih h
  | char c text hAt ih =>
    rw [scan_char hAt] at h
    rcases List.mem_cons.mp h with h | h
    · exact nomatch h
    · exact ih h

/-! ## Links that give way to other texts -/

theorem split_at_close {front behind : Str} (hFree : ')' ∉ front)
    (h : text ++ ')' :: after = front ++ ')' :: behind) :
    text = front ∨ ∃ more, text = front ++ ')' :: more := by
  induction front generalizing text with
  | nil =>
    cases text with
    | nil => exact Or.inl rfl
    | cons d text =>
      obtain ⟨rfl, -⟩ := List.cons_eq_cons.mp h
      exact Or.inr ⟨text, rfl⟩
  | cons e front ih =>
    rw [List.mem_cons, not_or] at hFree
    cases text with
    | nil => exact absurd (List.cons_eq_cons.mp h).1 hFree.1
    | cons d text =>
      obtain ⟨rfl, hRest⟩ := List.cons_eq_cons.mp h
      rcases ih hFree.2 hRest with hEq | ⟨more, hEq⟩
      · exact Or.inl (congrArg (d :: ·) hEq)
      · exact Or.inr ⟨more, congrArg (d :: ·) hEq⟩

theorem linkAt_close (text after : Str) : linkAt (text ++ ')' :: after) = linkAt (text ++ [')']) := by
  apply Option.ext
  intro rest
  constructor
  · intro h
    obtain ⟨hTarget, behind, hEq⟩ := eq_of_linkAt h
    have hFree : ')' ∉ linkMark ++ rest := by
      rw [List.mem_append, not_or]
      exact ⟨by decide, hTarget.close_not_mem⟩
    rw [linkText_append, ← List.append_assoc] at hEq
    rcases split_at_close hFree hEq with hText | ⟨more, hText⟩
    · have hLink := linkAt_linkText hTarget []
      rwa [linkText_append, ← List.append_assoc, ← hText] at hLink
    · rw [hText, List.append_assoc, List.append_assoc, List.cons_append, ← linkText_append]
      exact linkAt_linkText hTarget _
  · intro h
    obtain ⟨hTarget, behind, hEq⟩ := eq_of_linkAt h
    rw [List.append_cons, hEq, List.append_assoc]
    exact linkAt_linkText hTarget _

theorem scan_close (text after : Str) : scan (text ++ ')' :: after) = scan (text ++ [')']) ++ scan after := by
  induction hLength : text.length using Nat.strong_induction_on generalizing text with
  | _ n ih =>
    cases text with
    | nil =>
      rw [List.nil_append, List.nil_append, scan_char, scan_char]
      · rfl
      · rfl
      · rfl
    | cons d text =>
      have hAt := linkAt_close (d :: text) after
      cases hFound : linkAt (d :: text ++ [')']) with
      | none =>
        rw [hFound, List.cons_append] at hAt
        rw [List.cons_append] at hFound
        have hTail := ih text.length (by rw [← hLength]; exact Nat.lt_succ_self _) text rfl
        rw [List.cons_append, scan_char hAt, hTail, List.cons_append, scan_char hFound, List.cons_append]
      | some rest =>
        obtain ⟨hTarget, behind, hEq⟩ := eq_of_linkAt hFound
        rcases List.eq_nil_or_concat behind with rfl | ⟨more, e, rfl⟩
        · rw [List.append_nil] at hEq
          have hScan := scan_linkText hTarget []
          rw [List.append_cons, hEq, scan_linkText hTarget]
          rw [List.append_nil] at hScan
          rw [hScan]
          rfl
        · rw [List.concat_eq_append, ← List.append_assoc] at hEq
          obtain ⟨hText, hEnd⟩ := List.append_inj' hEq rfl
          obtain rfl := (List.cons_eq_cons.mp hEnd).1
          have hTail := ih more.length (by rw [← hLength, hText, linkText]; simp; omega) more rfl
          rw [hText, List.append_assoc, List.append_assoc, scan_linkText hTarget, scan_linkText hTarget,
            hTail, List.cons_append]

def substitute (sub : Str → Str) (text : Str) : Str :=
  (scan text).flatMap fun
    | .char c => [c]
    | .link rest => sub rest

/-- A text in parentheses; more may be closed inside of it. -/
def Enclosed (text : Str) : Prop := ∃ body, text = '(' :: (body ++ [')'])

section

variable {sub : Str → Str}

theorem substitute_link (hTarget : IsTarget rest) (after : Str) :
    substitute sub (linkText rest ++ after) = sub rest ++ substitute sub after := by
  rw [substitute, scan_linkText hTarget, List.flatMap_cons, substitute]

theorem substitute_char (hAt : linkAt (c :: text) = none) :
    substitute sub (c :: text) = c :: substitute sub text := by
  rw [substitute, scan_char hAt, List.flatMap_cons, substitute, List.singleton_append]

/-- Characters other than an opening parenthesis come from the text itself. -/
theorem eq_of_substitute (hSub : ∀ rest, Enclosed (sub rest)) {front behind : Str}
    (hFree : '(' ∉ front) (h : substitute sub text = front ++ behind) :
    ∃ more, text = front ++ more ∧ substitute sub more = behind := by
  induction front generalizing text with
  | nil => exact ⟨text, rfl, h⟩
  | cons d front ih =>
    rw [List.mem_cons, not_or] at hFree
    induction text using scan_induction with
    | nil => exact absurd h.symm (List.cons_ne_nil _ _)
    | link rest after hTarget _ =>
      obtain ⟨body, hBody⟩ := hSub rest
      rw [substitute_link hTarget, hBody] at h
      exact absurd (List.cons_eq_cons.mp h).1 hFree.1
    | char c text hAt _ =>
      rw [substitute_char hAt] at h
      obtain ⟨rfl, hRest⟩ := List.cons_eq_cons.mp h
      obtain ⟨more, rfl, hMore⟩ := ih hFree.2 hRest
      exact ⟨more, rfl, hMore⟩

theorem closes_of_substitute {front behind : Str} (hFront : ∀ c ∈ front, inLink c = true)
    (h : substitute sub text = front ++ ')' :: behind) :
    ∃ front' behind', text = front' ++ ')' :: behind' ∧ (∀ c ∈ front', inLink c = true) ∧
      (front ≠ [] → front' ≠ []) := by
  induction text using scan_induction generalizing front with
  | nil => exact absurd h.symm (List.append_ne_nil_of_right_ne_nil _ (List.cons_ne_nil _ _))
  | link rest after hTarget _ =>
    refine ⟨linkMark ++ rest, after, ?_, ?_, fun _ => List.cons_ne_nil _ _⟩
    · rw [linkText_append, List.append_assoc]
    · intro c hMem
      rcases List.mem_append.mp hMem with hMem | hMem
      · exact inLink_mark c hMem
      · exact hTarget.2 c hMem
  | char c text hAt ih =>
    rw [substitute_char hAt] at h
    cases front with
    | nil =>
      obtain ⟨rfl, -⟩ := List.cons_eq_cons.mp h
      exact ⟨[], text, rfl, fun _ hMem => absurd hMem List.not_mem_nil, id⟩
    | cons d front =>
      rw [List.forall_mem_cons] at hFront
      obtain ⟨rfl, hRest⟩ := List.cons_eq_cons.mp h
      obtain ⟨front', behind', rfl, hFront', -⟩ := ih hFront.2 hRest
      refine ⟨c :: front', behind', rfl, ?_, fun _ => List.cons_ne_nil _ _⟩
      exact List.forall_mem_cons.mpr ⟨hFront.1, hFront'⟩

theorem linkAt_substitute (hSub : ∀ rest, Enclosed (sub rest)) (hAt : linkAt (c :: text) = none) :
    linkAt (c :: substitute sub text) = none := by
  rw [Option.eq_none_iff_forall_ne_some]
  intro rest hFound
  obtain ⟨hTarget, behind, hEq⟩ := eq_of_linkAt hFound
  rw [linkText_append] at hEq
  obtain ⟨rfl, hRest⟩ := List.cons_eq_cons.mp hEq
  have hFree : '(' ∉ linkMark.tail := by decide
  obtain ⟨more, rfl, hMore⟩ := eq_of_substitute hSub hFree hRest
  obtain ⟨front', behind', rfl, hFront', hNe⟩ := closes_of_substitute hTarget.2 hMore
  have hLink : linkAt (linkText front' ++ behind') = some front' :=
    linkAt_linkText ⟨hNe hTarget.1, hFront'⟩ behind'
  rw [linkText_append] at hLink
  exact absurd (hAt.symm.trans hLink) (Option.some_ne_none front').symm

/-- After links gave way, links are found only inside of what took their place. -/
theorem scan_substitute (hSub : ∀ rest, Enclosed (sub rest)) (text : Str) :
    scan (substitute sub text) = (scan text).flatMap fun
      | .char c => [.char c]
      | .link rest => scan (sub rest) := by
  induction text using scan_induction with
  | nil => rfl
  | link rest after hTarget ih =>
    obtain ⟨body, hBody⟩ := hSub rest
    rw [substitute_link hTarget, scan_linkText hTarget, List.flatMap_cons, ← ih]
    dsimp only
    rw [hBody, ← List.cons_append, List.append_assoc, List.singleton_append, scan_close]
  | char c text hAt ih =>
    rw [substitute_char hAt, scan_char (linkAt_substitute hSub hAt), scan_char hAt, List.flatMap_cons,
      ih, List.singleton_append]

end

end Exosuit.Docs
