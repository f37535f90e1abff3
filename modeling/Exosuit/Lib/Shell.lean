import Exosuit.Lib.Text

/-!
# The words of a shell command

How a POSIX shell cuts a command into tokens. A letter of a word remembers whether it was quoted:
a quoted letter is never expanded. The reader goes on from any state, so what it makes of a part
of a command does not depend on how the parts before were written.
-/

namespace Exosuit.Lib.Shell

structure Letter where
  char : Char
  quoted : Bool
deriving DecidableEq

/-- A run of unquoted digits before a redirection is no word; neither is a reserved word where a
command may begin. -/
inductive Token
  | word (letters : List Letter)
  | reserved (name : List Char)
  | ioNumber (digits : List Char)
  | operator (c : Char)
deriving DecidableEq

inductive Mode
  | plain
  | escaped
  | single
  | double
  | doubleEscaped
  | comment
deriving DecidableEq

/-- `first`: the next word may be a reserved one. -/
structure Reader where
  tokens : List Token
  word : Option (List Letter)
  mode : Mode
  first : Bool
deriving DecidableEq

def start : Reader := ⟨[], none, .plain, true⟩

def reservedWords : List String :=
  ["!", "\x7b", "\x7d", "case", "do", "done", "elif", "else", "esac", "fi", "for", "if", "in", "then",
    "until", "while"]

/-- The reserved words after which no command begins. -/
def opensList (name : List Char) : Bool :=
  name == "case".toList || name == "for".toList || name == "in".toList

def text (letters : List Letter) : List Char := letters.map Letter.char

def bareWord (l : List Char) : List Letter := l.map fun c => ⟨c, false⟩

def bare (letters : List Letter) : Bool := letters.all fun l => !l.quoted

def isOperator (c : Char) : Bool := c ∈ [';', '&', '|', '(', ')', '<', '>', '\n']

def isRedirection (delimiter : Option Char) : Bool := delimiter == some '<' || delimiter == some '>'

def isReserved (name : List Char) : Bool := String.ofList name ∈ reservedWords

/-- What the letters read so far are, when a delimiter or the end comes. -/
def classify (first : Bool) (delimiter : Option Char) (letters : List Letter) : Token :=
  if bare letters && letters != [] && (text letters).all Char.isDigit && isRedirection delimiter then
    .ioNumber (text letters)
  else if first && bare letters && isReserved (text letters) then .reserved (text letters)
  else .word letters

/-- The characters that a shell may take for syntax when they are not quoted. -/
def specialChars : List Char :=
  ['|', '&', ';', '<', '>', '(', ')', '$', '\x60', '\\', '"', '\x27', ' ', '\t', '\n', '*', '?', '[', ']',
    '#', '~', '=', '%', '!', '\x7b', '\x7d', '^', ',']

/-- Nothing in the word is expanded. -/
def Literal (letters : List Letter) : Prop := ∀ l ∈ letters, l.quoted = true ∨ l.char ∉ specialChars

namespace Reader

def push (r : Reader) (c : Char) (quoted : Bool) : Reader :=
  { r with word := some (r.word.getD [] ++ [⟨c, quoted⟩]) }

def enter (r : Reader) (mode : Mode) : Reader :=
  { r with word := some (r.word.getD []), mode := mode }

def firstAfter : Token → Bool
  | .reserved name => !opensList name
  | .operator c => !isRedirection (some c)
  | .word _ => false
  | .ioNumber _ => false

def emit (r : Reader) (t : Token) : Reader :=
  { r with tokens := r.tokens ++ [t], word := none, first := firstAfter t }

def endWord (r : Reader) (delimiter : Option Char) : Reader :=
  match r.word with
  | none => r
  | some letters => r.emit (classify r.first delimiter letters)

/-- Outside of quotes. -/
def stepPlain (r : Reader) (c : Char) : Reader :=
  if c = '\\' then { r with mode := .escaped }
  else if c = '\x27' then r.enter .single
  else if c = '"' then r.enter .double
  else if c = ' ' ∨ c = '\t' then r.endWord none
  else if isOperator c then (r.endWord (some c)).emit (.operator c)
  else if c = '#' ∧ r.word = none then { r with mode := .comment }
  else r.push c false

/-- In double quotes a dollar sign and a backquote still expand. -/
def stepDouble (r : Reader) (c : Char) : Reader :=
  if c = '"' then { r with mode := .plain }
  else if c = '\\' then { r with mode := .doubleEscaped }
  else r.push c (c ≠ '$' && c ≠ '\x60')

def step (r : Reader) (c : Char) : Reader :=
  match r.mode with
  | .plain => r.stepPlain c
  | .escaped =>
    let r := { r with mode := .plain }
    if c = '\n' then r else r.push c true
  | .single => if c = '\x27' then { r with mode := .plain } else r.push c true
  | .double => r.stepDouble c
  | .doubleEscaped =>
    let r := { r with mode := .double }
    if c = '\n' then r
    else if c ∈ ['$', '\x60', '"', '\\'] then r.push c true
    else (r.push '\\' true).stepDouble c
  | .comment => if c = '\n' then ({ r with mode := .plain }).emit (.operator c) else r

def read (r : Reader) (l : List Char) : Reader := l.foldl step r

def finish (r : Reader) : Reader := r.endWord none

/-- A new word may begin, and nothing around it is quoted. -/
def AtWord (r : Reader) : Prop := r.mode = .plain ∧ r.word = none

instance (r : Reader) : Decidable r.AtWord := inferInstanceAs (Decidable (_ ∧ _))

/-- Whole words of a command are put in, as words. -/
def put (r : Reader) (words : List (List Letter)) : Reader :=
  { r with
    tokens := r.tokens ++ words.map .word
    first := r.first && words.isEmpty }

end Reader

/-- What ends a word. -/
def isDelimiter (c : Char) : Bool := c == ' ' || c == '\t' || isOperator c

/-- The text goes on with what ends a word. -/
def delimited (l : List Char) : Bool := l.head?.all isDelimiter

namespace Reader

variable {r : Reader} {l : List Char}

theorem read_append (r : Reader) (l l' : List Char) : r.read (l ++ l') = (r.read l).read l' := List.foldl_append

theorem read_cons (r : Reader) (c : Char) (l : List Char) : r.read (c :: l) = (r.step c).read l := rfl

theorem read_nil (r : Reader) : r.read [] = r := rfl

/-! ## Tokens stay -/

theorem endWord_tokens (r : Reader) (delimiter : Option Char) :
    ∃ more, (r.endWord delimiter).tokens = r.tokens ++ more := by
  unfold endWord
  split
  · exact ⟨[], (List.append_nil _).symm⟩
  · exact ⟨_, rfl⟩

theorem stepPlain_tokens (r : Reader) (c : Char) : ∃ more, (r.stepPlain c).tokens = r.tokens ++ more := by
  have hSame : ∃ more, r.tokens = r.tokens ++ more := ⟨[], (List.append_nil _).symm⟩
  unfold stepPlain
  split
  · exact hSame
  split
  · exact hSame
  split
  · exact hSame
  split
  · exact r.endWord_tokens none
  split
  · obtain ⟨more, hMore⟩ := r.endWord_tokens (some c)
    refine ⟨more ++ [.operator c], ?_⟩
    rw [emit, hMore, List.append_assoc]
  split
  · exact hSame
  · exact hSame

theorem stepDouble_tokens (r : Reader) (c : Char) : (r.stepDouble c).tokens = r.tokens := by
  unfold stepDouble
  split
  · rfl
  split
  · rfl
  · rfl

theorem step_tokens (r : Reader) (c : Char) : ∃ more, (r.step c).tokens = r.tokens ++ more := by
  have hSame : ∃ more, r.tokens = r.tokens ++ more := ⟨[], (List.append_nil _).symm⟩
  unfold step
  split
  · exact r.stepPlain_tokens c
  · dsimp only
    split <;> exact hSame
  · split <;> exact hSame
  · rw [stepDouble_tokens]
    exact hSame
  · dsimp only
    split
    · exact hSame
    split
    · exact hSame
    · rw [stepDouble_tokens]
      exact hSame
  · split
    · exact ⟨_, rfl⟩
    · exact hSame

theorem read_tokens (r : Reader) (l : List Char) : ∃ more, (r.read l).tokens = r.tokens ++ more := by
  induction l generalizing r with
  | nil => exact ⟨[], (List.append_nil _).symm⟩
  | cons c l ih =>
    obtain ⟨more, hStep⟩ := r.step_tokens c
    obtain ⟨more', hRead⟩ := ih (r.step c)
    refine ⟨more ++ more', ?_⟩
    rw [read_cons, hRead, hStep, List.append_assoc]

theorem finish_tokens (r : Reader) : ∃ more, r.finish.tokens = r.tokens ++ more := r.endWord_tokens none

/-! ## What is being read does not depend on the tokens before -/

def Alike (r r' : Reader) : Prop := r.mode = r'.mode ∧ r.word = r'.word

theorem endWord_word (r : Reader) (delimiter : Option Char) : (r.endWord delimiter).word = none := by
  unfold endWord
  split
  · assumption
  · rfl

theorem endWord_mode (r : Reader) (delimiter : Option Char) : (r.endWord delimiter).mode = r.mode := by
  unfold endWord
  split
  · rfl
  · rfl

theorem Alike.push {r r' : Reader} (h : Alike r r') (c : Char) (quoted : Bool) :
    Alike (r.push c quoted) (r'.push c quoted) := ⟨h.1, by rw [Reader.push, Reader.push, h.2]⟩

theorem Alike.stepPlain {r r' : Reader} (h : Alike r r') (c : Char) : Alike (r.stepPlain c) (r'.stepPlain c) := by
  obtain ⟨hMode, hWord⟩ := h
  unfold Reader.stepPlain
  rw [hWord]
  split
  · exact ⟨rfl, rfl⟩
  split
  · exact ⟨rfl, by rw [enter, enter, hWord]⟩
  split
  · exact ⟨rfl, by rw [enter, enter, hWord]⟩
  split
  · exact ⟨by rw [endWord_mode, endWord_mode, hMode], by rw [endWord_word, endWord_word]⟩
  split
  · exact ⟨by rw [emit, emit, endWord_mode, endWord_mode, hMode], rfl⟩
  split
  · exact ⟨rfl, rfl⟩
  · exact Alike.push ⟨hMode, hWord⟩ c false

theorem Alike.stepDouble {r r' : Reader} (h : Alike r r') (c : Char) :
    Alike (r.stepDouble c) (r'.stepDouble c) := by
  unfold Reader.stepDouble
  split
  · exact ⟨rfl, h.2⟩
  split
  · exact ⟨rfl, h.2⟩
  · exact h.push c _

theorem Alike.step {r r' : Reader} (h : Alike r r') (c : Char) : Alike (r.step c) (r'.step c) := by
  have hPlain : Alike { r with mode := .plain } { r' with mode := .plain } := ⟨rfl, h.2⟩
  unfold Reader.step
  rw [h.1]
  split
  · exact h.stepPlain c
  · dsimp only
    split
    · exact hPlain
    · exact hPlain.push c true
  · split
    · exact hPlain
    · exact h.push c true
  · exact h.stepDouble c
  · have hDouble : Alike { r with mode := .double } { r' with mode := .double } := ⟨rfl, h.2⟩
    dsimp only
    split
    · exact hDouble
    split
    · exact hDouble.push c true
    · exact (hDouble.push '\\' true).stepDouble c
  · split
    · exact ⟨rfl, rfl⟩
    · exact h

theorem Alike.read {r r' : Reader} (h : Alike r r') (l : List Char) : Alike (r.read l) (r'.read l) := by
  induction l generalizing r r' with
  | nil => exact h
  | cons c l ih => exact ih (h.step c)

theorem Alike.atWord {r r' : Reader} (h : Alike r r') (hWord : r.AtWord) : r'.AtWord :=
  ⟨h.1.symm.trans hWord.1, h.2.symm.trans hWord.2⟩

/-! ## A word in a list of words -/

/-- Where a word may begin, the text is read as these letters. -/
def Reads (l : List Char) (letters : List Letter) : Prop :=
  ∀ r : Reader, r.AtWord → r.read l = { r with word := some letters }

/-- The words of a list, the last of them ended by `next`. -/
def take (r : Reader) (next : Option Char) : List (List Letter) → Reader
  | [] => r
  | [letters] => r.emit (classify r.first next letters)
  | letters :: letters' :: rest => (r.emit (classify r.first none letters)).take next (letters' :: rest)

theorem emit_atWord (h : r.AtWord) (t : Token) : (r.emit t).AtWord := ⟨h.1, rfl⟩

theorem step_of_plain {r : Reader} (h : r.mode = .plain) (c : Char) : r.step c = r.stepPlain c := by
  unfold step
  rw [h]

theorem stepPlain_blank (r : Reader) : r.stepPlain ' ' = r.endWord none := by
  unfold stepPlain
  rw [if_neg (by decide), if_neg (by decide), if_neg (by decide), if_pos (.inl rfl)]

theorem stepPlain_delimiter {c : Char} (h : isDelimiter c = true) (r : Reader) :
    r.stepPlain c = if isOperator c then (r.endWord (some c)).emit (.operator c) else r.endWord none := by
  unfold stepPlain
  have hPlain : c ≠ '\\' ∧ c ≠ '\x27' ∧ c ≠ '"' := by
    refine ⟨?_, ?_, ?_⟩ <;> rintro rfl <;> exact absurd h (by decide)
  rw [if_neg hPlain.1, if_neg hPlain.2.1, if_neg hPlain.2.2]
  by_cases hBlank : c = ' ' ∨ c = '\t'
  · rw [if_pos hBlank]
    rcases hBlank with rfl | rfl
    · rw [if_neg (by decide)]
    · rw [if_neg (by decide)]
  · have hOperator : isOperator c = true := by
      rw [isDelimiter, Bool.or_eq_true, Bool.or_eq_true, beq_iff_eq, beq_iff_eq] at h
      exact h.resolve_left hBlank
    rw [if_neg hBlank, if_pos hOperator, if_pos hOperator]

theorem classify_blank {c : Char} (h : isOperator c = false) (first : Bool) (letters : List Letter) :
    classify first (some c) letters = classify first none letters := by
  have hNext : isRedirection (some c) = isRedirection none := by
    rw [isRedirection, isRedirection]
    have hLess : (some c == some '<') = false := by
      rw [beq_eq_false_iff_ne]
      rintro ⟨⟩
      exact absurd h (by decide)
    have hGreater : (some c == some '>') = false := by
      rw [beq_eq_false_iff_ne]
      rintro ⟨⟩
      exact absurd h (by decide)
    rw [hLess, hGreater]
    rfl
  rw [classify, classify, hNext]

theorem read_pending (h : r.AtWord) (letters : List Letter) (hNext : delimited l = true) :
    (Reader.read { r with word := some letters } l).finish =
      ((r.emit (classify r.first l.head? letters)).read l).finish := by
  cases l with
  | nil => rfl
  | cons c l =>
    have hDelimiter : isDelimiter c = true := hNext
    have hPending : Reader.step { r with word := some letters } c =
        Reader.stepPlain { r with word := some letters } c := step_of_plain (r := { r with word := some letters }) h.1 c
    have hTaken : (r.emit (classify r.first (some c) letters)).step c =
        (r.emit (classify r.first (some c) letters)).stepPlain c := step_of_plain (emit_atWord h _).1 c
    rw [read_cons, read_cons, List.head?_cons, hPending, hTaken, stepPlain_delimiter hDelimiter,
      stepPlain_delimiter hDelimiter]
    cases hOperator : isOperator c with
    | true => rfl
    | false =>
      rw [if_neg nofun, if_neg nofun, classify_blank hOperator]
      rfl

theorem read_list {texts : List (List Char)} {words : List (List Letter)} (h : List.Forall₂ Reads texts words)
    (hWord : r.AtWord) (hNext : delimited l = true) :
    ((r.read (List.intercalate [' '] texts)).read l).finish = ((r.take l.head? words).read l).finish := by
  induction h generalizing r with
  | nil => rfl
  | @cons t w ts ws hReads hRest ih =>
    rw [Text.intercalate_cons, read_append, hReads r hWord]
    cases hRest with
    | nil =>
      rw [if_pos rfl, read_nil, take]
      exact read_pending hWord w hNext
    | cons hReads' hRest' =>
      have hBlank : Reader.step { r with word := some w } ' ' = r.emit (classify r.first none w) :=
        (step_of_plain (r := { r with word := some w }) hWord.1 ' ').trans (stepPlain_blank _)
      rw [if_neg (List.cons_ne_nil _ _), List.singleton_append, read_cons, hBlank, ih (emit_atWord hWord _), take]

end Reader

/-! ## Words that stay words -/

/-- No word is taken for a reserved one, and none for the number of a redirection. -/
def StayWords (first : Bool) (words : List (List Letter)) (next : Option Char) : Prop :=
  (first = true → ∀ w ∈ words.head?, ¬ (bare w = true ∧ isReserved (text w) = true)) ∧
  (isRedirection next = true →
    ∀ w ∈ words.getLast?, ¬ (bare w = true ∧ w ≠ [] ∧ (text w).all Char.isDigit = true))

instance (first : Bool) (words : List (List Letter)) (next : Option Char) :
    Decidable (StayWords first words next) := inferInstanceAs (Decidable (_ ∧ _))

theorem classify_eq_word {first : Bool} {next : Option Char} {letters : List Letter} :
    (∃ w, classify first next letters = .word w) ↔ StayWords first [letters] next := by
  have hWord : ∀ w, w ∈ [letters].head? ↔ w = letters := fun w => by
    rw [List.head?_cons, Option.mem_some, eq_comm]
  have hLast : ∀ w, w ∈ [letters].getLast? ↔ w = letters := fun w => by
    rw [List.getLast?_singleton, Option.mem_some, eq_comm]
  simp only [StayWords, hWord, hLast, forall_eq]
  unfold classify
  split
  · next hDigits =>
    simp only [Bool.and_eq_true, bne_iff_ne, ne_eq] at hDigits
    obtain ⟨⟨⟨hBare, hLetters⟩, hAll⟩, hNext⟩ := hDigits
    refine iff_of_false ?_ fun h => h.2 hNext ⟨hBare, hLetters, hAll⟩
    rintro ⟨w, h⟩
    cases h
  · next hDigits =>
    simp only [Bool.and_eq_true, bne_iff_ne, ne_eq] at hDigits
    split
    · next hReserved =>
      simp only [Bool.and_eq_true] at hReserved
      refine iff_of_false ?_ fun h => h.1 hReserved.1.1 ⟨hReserved.1.2, hReserved.2⟩
      rintro ⟨w, h⟩
      cases h
    · next hReserved =>
      simp only [Bool.and_eq_true] at hReserved
      refine iff_of_true ⟨letters, rfl⟩ ⟨fun hFirst h => hReserved ⟨⟨hFirst, h.1⟩, h.2⟩, fun hNext h => ?_⟩
      exact hDigits ⟨⟨⟨h.1, h.2.1⟩, h.2.2⟩, hNext⟩

theorem word_of_classify {first : Bool} {next : Option Char} {letters w : List Letter}
    (h : classify first next letters = .word w) : w = letters := by
  unfold classify at h
  split at h
  · cases h
  split at h
  · cases h
  · exact (Token.word.inj h).symm

namespace Reader

variable {r : Reader}

theorem take_tokens (r : Reader) (next : Option Char) (words : List (List Letter)) :
    ∃ tokens, (r.take next words).tokens = r.tokens ++ tokens ∧ tokens.length = words.length ∧
      ∀ words', tokens = words'.map .word ↔ words' = words ∧ StayWords r.first words next := by
  fun_induction take r next words with
  | case1 r =>
    refine ⟨[], (List.append_nil _).symm, rfl, fun words' => ?_⟩
    rw [eq_comm, List.map_eq_nil_iff]
    exact ⟨fun h => ⟨h, fun _ => nofun, fun _ => nofun⟩, And.left⟩
  | case2 r letters =>
    refine ⟨[classify r.first next letters], rfl, rfl, fun words' => ?_⟩
    rw [← classify_eq_word]
    constructor
    · intro h
      obtain ⟨w, hWords, hWord⟩ := List.map_eq_singleton_iff.mp h.symm
      have hSame := word_of_classify hWord.symm
      exact ⟨by rw [hWords, hSame], w, hWord.symm⟩
    · rintro ⟨rfl, w, hWord⟩
      rw [hWord, word_of_classify hWord]
      rfl
  | case3 r letters letters' rest ih =>
    obtain ⟨tokens, hTokens, hLength, hWords⟩ := ih
    refine ⟨classify r.first none letters :: tokens, ?_, congrArg (· + 1) hLength, fun words' => ?_⟩
    · rw [hTokens, emit, List.append_assoc, List.singleton_append]
    · have hRest : ∀ {w}, classify r.first none letters = .word w →
          (StayWords r.first (letters :: letters' :: rest) next ↔
            StayWords (r.emit (classify r.first none letters)).first (letters' :: rest) next) := by
        intro w hWord
        have hStay := classify_eq_word.mp ⟨w, hWord⟩
        have hFirst : (r.emit (classify r.first none letters)).first = false := by
          rw [hWord]
          rfl
        rw [hFirst, StayWords, StayWords, List.getLast?_cons_cons]
        exact and_congr_left fun _ => iff_of_true hStay.1 nofun
      constructor
      · intro h
        obtain ⟨w, ws, rfl, hWord, hMap⟩ := List.map_eq_cons_iff.mp h.symm
        obtain ⟨rfl, hStay⟩ := (hWords ws).mp hMap.symm
        rw [word_of_classify hWord.symm]
        exact ⟨rfl, (hRest hWord.symm).mpr hStay⟩
      · rintro ⟨rfl, hStay⟩
        have hHead : StayWords r.first [letters] none := ⟨hStay.1, nofun⟩
        obtain ⟨w, hWord⟩ := classify_eq_word.mpr hHead
        rw [(hWords (letters' :: rest)).mpr ⟨rfl, (hRest hWord).mp hStay⟩, hWord, word_of_classify hWord]
        rfl

theorem take_eq_put {next : Option Char} {words : List (List Letter)} (hWord : r.word = none)
    (h : StayWords r.first words next) : r.take next words = r.put words := by
  fun_induction take r next words with
  | case1 r => rw [put, List.map_nil, List.append_nil, List.isEmpty_nil, Bool.and_true]
  | case2 r letters =>
    obtain ⟨w, hClass⟩ := classify_eq_word.mpr h
    rw [hClass, word_of_classify hClass, emit, put, hWord, List.isEmpty_cons, Bool.and_false]
    rfl
  | case3 r letters letters' rest ih =>
    obtain ⟨w, hClass⟩ := classify_eq_word.mpr (show StayWords r.first [letters] none from ⟨h.1, nofun⟩)
    have hStay : StayWords (r.emit (classify r.first none letters)).first (letters' :: rest) next := by
      rw [hClass]
      exact ⟨nofun, by rw [← List.getLast?_cons_cons (a := letters)]; exact h.2⟩
    rw [ih rfl hStay, hClass, word_of_classify hClass, emit, put, put, hWord, List.isEmpty_cons,
      List.isEmpty_cons, Bool.and_false, Bool.and_false, List.append_assoc]
    rfl

end Reader

/-! ## Quoted words -/

/-- An apostrophe leaves the quotes, is escaped, and enters them again. -/
def escape (c : Char) : List Char := if c = '\x27' then ['\x27', '\\', '\x27', '\x27'] else [c]

def quote (l : List Char) : List Char := '\x27' :: (l.flatMap escape ++ ['\x27'])

def quotedWord (l : List Char) : List Letter := l.map fun c => ⟨c, true⟩

theorem read_escape (tokens : List Token) (letters : List Letter) (first : Bool) (c : Char) :
    (Reader.mk tokens (some letters) .single first).read (escape c) =
      ⟨tokens, some (letters ++ [⟨c, true⟩]), .single, first⟩ := by
  unfold escape
  split
  · next h =>
    subst h
    rfl
  · next h =>
    rw [Reader.read_cons, Reader.step, if_neg h]
    rfl

theorem read_escapes (tokens : List Token) (letters : List Letter) (first : Bool) (l : List Char) :
    (Reader.mk tokens (some letters) .single first).read (l.flatMap escape) =
      ⟨tokens, some (letters ++ quotedWord l), .single, first⟩ := by
  induction l generalizing letters with
  | nil => rw [List.flatMap_nil, Reader.read_nil, quotedWord, List.map_nil, List.append_nil]
  | cons c l ih =>
    rw [List.flatMap_cons, Reader.read_append, read_escape, ih, List.append_assoc]
    rfl

theorem reads_quote (l : List Char) : Reader.Reads (quote l) (quotedWord l) := by
  rintro ⟨tokens, word, mode, first⟩ ⟨rfl, rfl⟩
  have hOpen : Reader.step ⟨tokens, none, .plain, first⟩ '\x27' = ⟨tokens, some [], .single, first⟩ := rfl
  rw [quote, Reader.read_cons, hOpen, Reader.read_append, read_escapes, List.nil_append]
  rfl

/-- A character that stands for itself wherever it stands. -/
def isOrdinary (c : Char) : Bool := c ∉ ['\\', '\x27', '"', '#'] && !isDelimiter c

theorem stepPlain_ordinary {c : Char} (h : isOrdinary c = true) (r : Reader) :
    r.stepPlain c = r.push c false := by
  rw [isOrdinary, Bool.and_eq_true, decide_eq_true_eq, Bool.not_eq_true'] at h
  obtain ⟨hNot, hDelimiter⟩ := h
  simp only [List.mem_cons, List.not_mem_nil, or_false, not_or] at hNot
  rw [isDelimiter, Bool.or_eq_false_iff, Bool.or_eq_false_iff, beq_eq_false_iff_ne, beq_eq_false_iff_ne]
    at hDelimiter
  unfold Reader.stepPlain
  rw [if_neg hNot.1, if_neg hNot.2.1, if_neg hNot.2.2.1, if_neg (not_or.mpr hDelimiter.1),
    if_neg (by rw [hDelimiter.2]; nofun), if_neg (fun h => hNot.2.2.2 h.1)]

theorem read_ordinary {l : List Char} (h : l.all isOrdinary = true) (tokens : List Token)
    (letters : List Letter) (first : Bool) :
    (Reader.mk tokens (some letters) .plain first).read l =
      ⟨tokens, some (letters ++ bareWord l), .plain, first⟩ := by
  induction l generalizing letters with
  | nil => rw [Reader.read_nil, bareWord, List.map_nil, List.append_nil]
  | cons c l ih =>
    rw [List.all_cons, Bool.and_eq_true] at h
    have hStep : Reader.step ⟨tokens, some letters, .plain, first⟩ c =
        ⟨tokens, some (letters ++ [⟨c, false⟩]), .plain, first⟩ := stepPlain_ordinary h.1 _
    rw [Reader.read_cons, hStep, ih h.2, List.append_assoc]
    rfl

theorem reads_bare {l : List Char} (hNonempty : l ≠ []) (h : l.all isOrdinary = true) :
    Reader.Reads l (bareWord l) := by
  rintro ⟨tokens, word, mode, first⟩ ⟨rfl, rfl⟩
  obtain ⟨c, l, rfl⟩ := List.exists_cons_of_ne_nil hNonempty
  rw [List.all_cons, Bool.and_eq_true] at h
  have hStep : Reader.step ⟨tokens, none, .plain, first⟩ c = ⟨tokens, some [⟨c, false⟩], .plain, first⟩ :=
    stepPlain_ordinary h.1 _
  rw [Reader.read_cons, hStep, read_ordinary h.2]
  rfl

theorem literal_quotedWord (l : List Char) : Literal (quotedWord l) := by
  intro letter hLetter
  obtain ⟨c, -, rfl⟩ := List.mem_map.mp hLetter
  exact .inl rfl

theorem literal_bareWord {l : List Char} (h : ∀ c ∈ l, c ∉ specialChars) : Literal (bareWord l) := by
  intro letter hLetter
  obtain ⟨c, hc, rfl⟩ := List.mem_map.mp hLetter
  exact .inr (h c hc)

end Exosuit.Lib.Shell
