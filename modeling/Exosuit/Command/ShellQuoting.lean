import Exosuit.Command.CommandText

/-!
# Which arguments survive

The tokenizer gives quoted arguments back, but for an empty one, one with an apostrophe, one
that reads as a placeholder, and a first one that reads as an assignment.
-/

namespace Exosuit.Command

open Lib

/-! ## One argument -/

def specialChars : List Char :=
  ['\x27', '"', ' ', '\t', '|', ';', '<', '>', '&', '$', '\x60', '*', '?']

theorem tokenizeFrom_plain {s : Tokenizer} (hQuote : s.quote = .none) {c : Char}
    (hPlain : c ∉ specialChars) (rest : List Char) :
    tokenizeFrom s (c :: rest) = tokenizeFrom (s.push c) rest := by
  simp only [specialChars, List.mem_cons, List.not_mem_nil, not_or, or_false] at hPlain
  rw [tokenizeFrom.eq_def]
  simp only [hQuote, hPlain, if_false, or_self, false_and]

theorem tokenizeFrom_bare {l : List Char} (hBare : l.all isBareArgChar = true) (tokens : List String)
    (current rest : List Char) :
    tokenizeFrom ⟨tokens, current, .none⟩ (l ++ rest) = tokenizeFrom ⟨tokens, current ++ l, .none⟩ rest := by
  induction l generalizing current with
  | nil => rw [List.nil_append, List.append_nil]
  | cons c l ih =>
    rw [List.all_cons, Bool.and_eq_true] at hBare
    obtain ⟨hChar, hBare⟩ := hBare
    have hPlain : c ∉ specialChars := by
      intro hSpecial
      have hNone : specialChars.any isBareArgChar = false := by decide
      exact List.any_eq_false.mp hNone c hSpecial hChar
    rw [List.cons_append, tokenizeFrom_plain rfl hPlain, Tokenizer.push, ih hBare, List.append_assoc]
    rfl

/-- Between apostrophes every other character is taken as it is. -/
theorem tokenizeFrom_single {l : List Char} (hApostrophe : '\x27' ∉ l) (tokens : List String)
    (current rest : List Char) :
    tokenizeFrom ⟨tokens, current, .single⟩ (l ++ '\x27' :: rest) =
      tokenizeFrom ⟨tokens, current ++ l, .none⟩ rest := by
  induction l generalizing current with
  | nil =>
    rw [List.nil_append, tokenizeFrom.eq_def, List.append_nil]
    rfl
  | cons c l ih =>
    rw [List.mem_cons, not_or] at hApostrophe
    rw [List.cons_append, tokenizeFrom.eq_def]
    dsimp only
    rw [if_neg (Ne.symm hApostrophe.1), Tokenizer.push, ih hApostrophe.2, List.append_assoc]
    rfl

theorem tokenizeFrom_open (tokens : List String) (current rest : List Char) :
    tokenizeFrom ⟨tokens, current, .none⟩ ('\x27' :: rest) = tokenizeFrom ⟨tokens, current, .single⟩ rest := by
  rw [tokenizeFrom.eq_def]
  rfl

theorem escapeApostrophes_of_not_mem {l : List Char} (hApostrophe : '\x27' ∉ l) :
    escapeApostrophes l = l := by
  induction l with
  | nil => rfl
  | cons c l ih =>
    rw [List.mem_cons, not_or] at hApostrophe
    rw [escapeApostrophes, List.flatMap_cons, if_neg (Ne.symm hApostrophe.1), ← escapeApostrophes,
      ih hApostrophe.2]
    rfl

theorem tokenizeFrom_quoted {arg : String} (hApostrophe : '\x27' ∉ arg.toList) (tokens : List String)
    (current rest : List Char) :
    tokenizeFrom ⟨tokens, current, .none⟩ ((shellQuoteArg arg).toList ++ rest) =
      tokenizeFrom ⟨tokens, current ++ arg.toList, .none⟩ rest := by
  unfold shellQuoteArg
  split
  · case isTrue hBare => exact tokenizeFrom_bare hBare tokens current rest
  · case isFalse =>
    rw [String.toList_ofList, escapeApostrophes_of_not_mem hApostrophe, List.cons_append,
      List.cons_append, tokenizeFrom_open, List.append_assoc, List.singleton_append,
      tokenizeFrom_single hApostrophe]

/-! ## A list of arguments -/

/-- The text of a list of arguments, as characters. -/
def quotedChars (args : List String) : List Char :=
  List.intercalate [' '] (args.map fun arg => (shellQuoteArg arg).toList)

theorem toList_quotedCommand (args : List String) : (quotedCommand args).toList = quotedChars args := by
  rw [quotedCommand, String.toList_intercalate, List.map_map]
  rfl

theorem quotedChars_cons (arg : String) (args : List String) :
    quotedChars (arg :: args) =
      (shellQuoteArg arg).toList ++ if args = [] then [] else ' ' :: quotedChars args := by
  cases args with
  | nil => rw [if_pos rfl, List.append_nil, quotedChars, List.map_singleton, List.intercalate_singleton]
  | cons next args =>
    rw [if_neg (List.cons_ne_nil _ _), quotedChars, List.map_cons, List.map_cons,
      List.intercalate_cons_cons, List.append_assoc, List.singleton_append]
    rfl

/-- An argument that the quotes can carry. -/
def Carried (arg : String) : Prop := arg ≠ "" ∧ '\x27' ∉ arg.toList

theorem pushCurrentToken_of_ne {arg : String} (hArg : arg ≠ "") (tokens : List String) :
    Tokenizer.pushCurrentToken ⟨tokens, arg.toList, .none⟩ = ⟨tokens ++ [arg], [], .none⟩ := by
  have hNonempty : arg.toList ≠ [] := fun h => hArg (String.toList_eq_nil_iff.mp h)
  rw [Tokenizer.pushCurrentToken, if_neg hNonempty, String.ofList_toList]

theorem tokenizeFrom_blank (s : Tokenizer) (hQuote : s.quote = .none) (rest : List Char) :
    tokenizeFrom s (' ' :: rest) = tokenizeFrom s.pushCurrentToken rest := by
  rw [tokenizeFrom.eq_def, hQuote]
  rfl

/-- The arguments before the last one become tokens. -/
theorem tokenizeFrom_front {front : List String} (hFront : ∀ arg ∈ front, Carried arg) (arg : String)
    (back : List String) (tokens : List String) :
    tokenizeFrom ⟨tokens, [], .none⟩ (quotedChars (front ++ arg :: back)) =
      tokenizeFrom ⟨tokens ++ front, [], .none⟩ (quotedChars (arg :: back)) := by
  induction front generalizing tokens with
  | nil => rw [List.nil_append, List.append_nil]
  | cons first front ih =>
    obtain ⟨hNonempty, hApostrophe⟩ := hFront first List.mem_cons_self
    have hRest := ih fun arg hArg => hFront arg (List.mem_cons_of_mem _ hArg)
    rw [List.cons_append, quotedChars_cons, if_neg (by simp), tokenizeFrom_quoted hApostrophe,
      List.nil_append, tokenizeFrom_blank _ rfl, pushCurrentToken_of_ne hNonempty, hRest,
      List.append_assoc, List.singleton_append]

theorem tokenizeFrom_carried {args : List String} (hArgs : ∀ arg ∈ args, Carried arg) :
    ∃ s, tokenizeFrom ⟨[], [], .none⟩ (quotedChars args) = .ok s ∧ s.quote = .none ∧
      s.pushCurrentToken.tokens = args := by
  rcases List.eq_nil_or_concat args with rfl | ⟨front, last, rfl⟩
  · exact ⟨_, rfl, rfl, rfl⟩
  · rw [List.concat_eq_append] at hArgs ⊢
    obtain ⟨hNonempty, hApostrophe⟩ := hArgs last (by simp)
    refine ⟨⟨front, last.toList, .none⟩, ?_, rfl, ?_⟩
    · rw [tokenizeFrom_front (fun arg hArg => hArgs arg (List.mem_append_left _ hArg)), quotedChars_cons,
        if_pos rfl, tokenizeFrom_quoted hApostrophe, List.nil_append, List.nil_append]
      rfl
    · rw [pushCurrentToken_of_ne hNonempty]

/-! ## What the tokenizer never does -/

/-- What holds at the end of the loop, when each of the three moves carries it back. -/
theorem tokenizeFrom_rel {R : Tokenizer → Tokenizer → Prop} (hRefl : ∀ s, R s s)
    (hPush : ∀ {s s'} c, R (s.push c) s' → R s s') (hEnter : ∀ {s s'} quote, R (s.enter quote) s' → R s s')
    (hToken : ∀ {s s'}, R s.pushCurrentToken s' → R s s') {s s' : Tokenizer} {l : List Char}
    (h : tokenizeFrom s l = .ok s') : R s s' := by
  fun_induction tokenizeFrom s l
  all_goals first
    | cases h; exact hRefl _
    | cases h; exact hPush _ (hRefl _)
    | cases h
    | next ih => exact hPush _ (ih h)
    | next ih => exact hPush _ (hPush _ (ih h))
    | next ih => exact hEnter _ (ih h)
    | next ih => exact hToken (ih h)

/-- The tokens so far stay, and the current one is only added to. -/
def Tokenizer.Extends (s s' : Tokenizer) : Prop :=
  (s'.tokens = s.tokens ∧ ∃ x, s'.current = s.current ++ x) ∨
    ∃ x more, s'.tokens = s.tokens ++ String.ofList (s.current ++ x) :: more

namespace Tokenizer

variable {s s' s'' : Tokenizer}

theorem Extends.refl (s : Tokenizer) : s.Extends s := .inl ⟨rfl, [], (List.append_nil _).symm⟩

theorem Extends.trans (h : s.Extends s') (h' : s'.Extends s'') : s.Extends s'' := by
  rcases h with ⟨hTokens, x, hCurrent⟩ | ⟨x, more, hTokens⟩
  · rcases h' with ⟨hTokens', y, hCurrent'⟩ | ⟨y, more, hTokens'⟩
    · refine .inl ⟨hTokens'.trans hTokens, x ++ y, ?_⟩
      rw [hCurrent', hCurrent, List.append_assoc]
    · refine .inr ⟨x ++ y, more, ?_⟩
      rw [hTokens', hTokens, hCurrent, List.append_assoc]
  · rcases h' with ⟨hTokens', -⟩ | ⟨y, more', hTokens'⟩
    · exact .inr ⟨x, more, hTokens'.trans hTokens⟩
    · refine .inr ⟨x, more ++ String.ofList (s'.current ++ y) :: more', ?_⟩
      rw [hTokens', hTokens, List.append_assoc, List.cons_append]

theorem extends_push (c : Char) : s.Extends (s.push c) := .inl ⟨rfl, [c], rfl⟩

theorem extends_pushCurrentToken : s.Extends s.pushCurrentToken := by
  unfold pushCurrentToken
  split
  · exact .refl s
  · exact .inr ⟨[], [], by rw [List.append_nil]⟩

theorem extends_of_tokenizeFrom {l : List Char} (h : tokenizeFrom s l = .ok s') : s.Extends s' :=
  tokenizeFrom_rel Extends.refl (fun c => (extends_push c).trans) (fun _ h => h)
    extends_pushCurrentToken.trans h

theorem empty_not_mem_pushCurrentToken (h : "" ∉ s.tokens) : "" ∉ s.pushCurrentToken.tokens := by
  unfold pushCurrentToken
  split
  · exact h
  · case isFalse hCurrent =>
    rw [List.mem_append, List.mem_singleton]
    rintro (hOld | hNew)
    · exact h hOld
    · exact hCurrent (String.ofList_eq_empty_iff.mp hNew.symm)

theorem empty_not_mem_tokenizeFrom {l : List Char} (h : tokenizeFrom s l = .ok s')
    (hTokens : "" ∉ s.tokens) : "" ∉ s'.tokens :=
  tokenizeFrom_rel (R := fun s s' => "" ∉ s.tokens → "" ∉ s'.tokens) (fun _ => id) (fun _ h => h)
    (fun _ h => h) (fun h hTokens => h (empty_not_mem_pushCurrentToken hTokens)) h hTokens

theorem current_pushCurrentToken : s.pushCurrentToken.current = [] := by
  unfold pushCurrentToken
  split
  · assumption
  · rfl

theorem Extends.token (h : s.Extends s') (hCurrent : s.current ≠ []) : ∃ x more,
    s'.pushCurrentToken.tokens = s.tokens ++ String.ofList (s.current ++ x) :: more := by
  rcases h.trans extends_pushCurrentToken with ⟨-, x, hSame⟩ | hToken
  · rw [current_pushCurrentToken] at hSame
    exact absurd (List.append_eq_nil_iff.mp hSame.symm).1 hCurrent
  · exact hToken

end Tokenizer

/-! ## The arguments that survive -/

theorem substitutePlaceholder_nil {token value : String} :
    substitutePlaceholder [] token = .ok value ↔ placeholderDigits token = none ∧ value = token := by
  rw [substitutePlaceholder]
  cases placeholderDigits token with
  | none => exact ⟨fun h => ⟨rfl, (Except.ok.inj h).symm⟩, fun h => congrArg Except.ok h.2.symm⟩
  | some digits =>
    refine iff_of_false ?_ nofun
    dsimp only
    cases Text.parseUsize digits with
    | none => exact nofun
    | some n => cases n <;> exact nofun

theorem substitutePlaceholders_nil {tokens values : List String} :
    substitutePlaceholders tokens [] = .ok values ↔
      (∀ token ∈ tokens, placeholderDigits token = none) ∧ values = tokens := by
  induction tokens generalizing values with
  | nil => exact ⟨fun h => ⟨nofun, (Except.ok.inj h).symm⟩, fun h => congrArg Except.ok h.2.symm⟩
  | cons token tokens ih =>
    rw [substitutePlaceholders, List.mapM_cons, ← substitutePlaceholders, List.forall_mem_cons]
    constructor
    · intro h
      cases hToken : substitutePlaceholder [] token with
      | error e =>
        rw [hToken] at h
        cases h
      | ok value =>
        cases hRest : substitutePlaceholders tokens [] with
        | error e =>
          rw [hToken, hRest] at h
          cases h
        | ok rest =>
          rw [hToken, hRest] at h
          obtain ⟨hNone, rfl⟩ := substitutePlaceholder_nil.mp hToken
          obtain ⟨hAll, rfl⟩ := ih.mp hRest
          exact ⟨⟨hNone, hAll⟩, (Except.ok.inj h).symm⟩
    · rintro ⟨⟨hNone, hAll⟩, rfl⟩
      rw [substitutePlaceholder_nil.mpr ⟨hNone, rfl⟩, ih.mpr ⟨hAll, rfl⟩]
      rfl

theorem rejectEnvAssignmentPrefix_eq_ok {tokens : List String} :
    rejectEnvAssignmentPrefix tokens = .ok () ↔
      ∀ first ∈ tokens.head?, looksLikeEnvAssignment first = false := by
  cases tokens with
  | nil => exact iff_of_true rfl nofun
  | cons first tokens =>
    rw [rejectEnvAssignmentPrefix, List.head?_cons]
    cases hFirst : looksLikeEnvAssignment first with
    | true =>
      rw [if_pos rfl]
      exact iff_of_false nofun fun h => Bool.noConfusion (hFirst.symm.trans (h first rfl))
    | false =>
      refine iff_of_true (if_neg nofun) ?_
      rintro _ ⟨⟩
      exact hFirst

theorem tokenizeCommand_eq_ok {command : String} {out : List String} :
    tokenizeCommand command [] = .ok out ↔ ∃ s, tokenizeFrom ⟨[], [], .none⟩ command.toList = .ok s ∧
      s.quote = .none ∧ s.pushCurrentToken.tokens = out ∧
      (∀ first ∈ out.head?, looksLikeEnvAssignment first = false) ∧
      ∀ token ∈ out, placeholderDigits token = none := by
  rw [tokenizeCommand]
  cases hLoop : tokenizeFrom ⟨[], [], .none⟩ command.toList with
  | error e => exact iff_of_false nofun nofun
  | ok s =>
    by_cases hQuote : s.quote = .none
    · cases hEnv : rejectEnvAssignmentPrefix s.pushCurrentToken.tokens with
      | error e =>
        constructor
        · intro h
          simp [bind, Except.bind, hQuote, hEnv] at h
        · rintro ⟨_, ⟨⟩, -, rfl, hFirst, -⟩
          rw [rejectEnvAssignmentPrefix_eq_ok.mpr hFirst] at hEnv
          cases hEnv
      | ok =>
        have hRun : (do
            let s ← Except.ok (ε := String) s
            if s.quote ≠ .none then throw "Unterminated quoted string"
            rejectEnvAssignmentPrefix s.pushCurrentToken.tokens
            substitutePlaceholders s.pushCurrentToken.tokens []) =
            substitutePlaceholders s.pushCurrentToken.tokens [] := by
          simp [bind, Except.bind, hQuote, hEnv]
        refine (iff_of_eq (congrArg (· = .ok out) hRun)).trans (substitutePlaceholders_nil.trans ?_)
        constructor
        · rintro ⟨hAll, rfl⟩
          exact ⟨s, rfl, hQuote, rfl, rejectEnvAssignmentPrefix_eq_ok.mp hEnv, hAll⟩
        · rintro ⟨_, ⟨⟩, -, rfl, -, hAll⟩
          exact ⟨hAll, rfl⟩
    · refine iff_of_false ?_ ?_
      · intro h
        simp [bind, Except.bind, hQuote] at h
      · rintro ⟨_, ⟨⟩, hNone, -⟩
        exact hQuote hNone

theorem not_apostrophe {args : List String} {s : Tokenizer}
    (hLoop : tokenizeFrom ⟨[], [], .none⟩ (quotedChars args) = .ok s)
    (hTokens : s.pushCurrentToken.tokens = args) (hNonempty : "" ∉ args) :
    ∀ arg ∈ args, '\x27' ∉ arg.toList := by
  by_contra hSome
  simp only [not_forall, not_not] at hSome
  obtain ⟨arg₀, hArg₀, hApostrophe₀⟩ := hSome
  have hFind : (args.find? fun arg => decide ('\x27' ∈ arg.toList)).isSome :=
    List.find?_isSome.mpr ⟨arg₀, hArg₀, decide_eq_true hApostrophe₀⟩
  obtain ⟨arg, hArg⟩ := Option.isSome_iff_exists.mp hFind
  obtain ⟨hApostrophe, front, back, rfl, hFront⟩ := List.find?_eq_some_iff_append.mp hArg
  obtain ⟨u, v, hText, hFirst⟩ := List.eq_append_cons_of_mem (of_decide_eq_true hApostrophe)
  have hCarried : ∀ arg ∈ front, Carried arg := by
    intro arg hMem
    refine ⟨?_, by simpa using hFront arg hMem⟩
    rintro rfl
    exact hNonempty (List.mem_append_left _ hMem)
  have hQuoted : ∃ rest, (shellQuoteArg arg).toList = '\x27' :: (u ++ '\x27' :: '\\' :: rest) := by
    refine ⟨'\x27' :: '\x27' :: escapeApostrophes v ++ ['\x27'], ?_⟩
    have hBare : arg.toList.all isBareArgChar = false := by
      rw [hText, List.all_append, List.all_cons]
      have hChar : isBareArgChar '\x27' = false := by decide
      rw [hChar, Bool.false_and, Bool.and_false]
    rw [shellQuoteArg, hBare, if_neg nofun, String.toList_ofList, hText, escapeApostrophes,
      List.flatMap_append, List.flatMap_cons, ← escapeApostrophes, ← escapeApostrophes,
      escapeApostrophes_of_not_mem hFirst, if_pos rfl]
    simp
  obtain ⟨rest, hQuoted⟩ := hQuoted
  rw [tokenizeFrom_front hCarried, quotedChars_cons, hQuoted] at hLoop
  simp only [List.cons_append, List.append_assoc, List.nil_append] at hLoop
  rw [tokenizeFrom_open, tokenizeFrom_single hFirst, tokenizeFrom_plain rfl (by decide)] at hLoop
  obtain ⟨x, more, hToken⟩ := (Tokenizer.extends_of_tokenizeFrom hLoop).token (by simp [Tokenizer.push])
  rw [hTokens] at hToken
  have hArg := (List.cons.inj (List.append_cancel_left hToken)).1
  rw [hArg, String.toList_ofList] at hText
  simp [Tokenizer.push] at hText

/-- What a list of arguments must be like. -/
structure Survives (args : List String) : Prop where
  carried : ∀ arg ∈ args, Carried arg
  literal : ∀ arg ∈ args, placeholderDigits arg = none
  command : ∀ first ∈ args.head?, looksLikeEnvAssignment first = false

/-- Quoting and tokenizing give the arguments back exactly when all of them survive. -/
theorem tokenizes_iff (args : List String) :
    tokenizeCommand (quotedCommand args) [] = .ok args ↔ Survives args := by
  rw [tokenizeCommand_eq_ok, toList_quotedCommand]
  constructor
  · rintro ⟨s, hLoop, -, hTokens, hFirst, hAll⟩
    have hNonempty : "" ∉ args := by
      have hLast := Tokenizer.empty_not_mem_tokenizeFrom hLoop List.not_mem_nil
      exact hTokens ▸ Tokenizer.empty_not_mem_pushCurrentToken hLast
    refine ⟨fun arg hArg => ⟨?_, not_apostrophe hLoop hTokens hNonempty arg hArg⟩, hAll, hFirst⟩
    rintro rfl
    exact hNonempty hArg
  · intro h
    obtain ⟨s, hLoop, hQuote, hTokens⟩ := tokenizeFrom_carried h.carried
    exact ⟨s, hLoop, hQuote, hTokens, h.command, h.literal⟩

/-- An argument with an apostrophe is lost, and so is an empty one. -/
theorem apostrophe_and_empty_lost :
    tokenizeCommand (quotedCommand ["task", "it's"]) [] ≠ .ok ["task", "it's"] ∧
      tokenizeCommand (quotedCommand ["task", ""]) [] ≠ .ok ["task", ""] := by
  constructor <;> decide

end Exosuit.Command
