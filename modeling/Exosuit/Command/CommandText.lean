import Mathlib.Data.List.Infix
import Exosuit.Lib.Text

/-!
# Command text

The writer that quotes an argument for a shell, and the tokenizer of the command text that the
front ends take. Each of them has a quote grammar of its own.
-/

namespace Exosuit.Command

open Lib

def isBareArgChar (c : Char) : Bool := c.isAlphanum || c == '/' || c == '.' || c == '_' || c == '-'

/-- `raw.replace('\'', "'\\''")` -/
def escapeApostrophes (l : List Char) : List Char :=
  l.flatMap fun c => if c = '\x27' then ['\x27', '\\', '\x27', '\x27'] else [c]

def shellQuoteArg (raw : String) : String :=
  if raw.toList.all isBareArgChar then raw
  else String.ofList ('\x27' :: escapeApostrophes raw.toList ++ ['\x27'])

/-! ## The tokenizer -/

inductive QuoteState
  | none
  | single
  | double
deriving DecidableEq

structure Tokenizer where
  tokens : List String
  current : List Char
  quote : QuoteState

def Tokenizer.push (s : Tokenizer) (c : Char) : Tokenizer := { s with current := s.current ++ [c] }

def Tokenizer.enter (s : Tokenizer) (quote : QuoteState) : Tokenizer := { s with quote }

/-- `push_current_token` -/
def Tokenizer.pushCurrentToken (s : Tokenizer) : Tokenizer :=
  if s.current = [] then s else { s with tokens := s.tokens ++ [String.ofList s.current], current := [] }

def unsupported (what token : String) : String := "Unsupported shell " ++ what ++ " '" ++ token ++ "'"

/-- The loop of `tokenize_command`. -/
def tokenizeFrom (s : Tokenizer) : List Char → Except String Tokenizer
  | [] => .ok s
  | ch :: rest =>
    match s.quote with
    | .none =>
      if ch = '\x27' then tokenizeFrom (s.enter .single) rest
      else if ch = '"' then tokenizeFrom (s.enter .double) rest
      else if ch = ' ' ∨ ch = '\t' then tokenizeFrom s.pushCurrentToken rest
      else if ch = '|' ∨ ch = ';' ∨ ch = '<' ∨ ch = '>' then
        .error (unsupported "operator token" ch.toString)
      else if ch = '&' then
        .error (unsupported "operator token" (if rest.head? = some '&' then "&&" else "&"))
      else if ch = '$' ∧ rest.head? = some '(' then .error (unsupported "substitution" "$(")
      else if ch = '\x60' then .error (unsupported "substitution" "\x60")
      else if ch = '*' ∨ ch = '?' then .error (unsupported "glob token" ch.toString)
      else tokenizeFrom (s.push ch) rest
    | .single =>
      if ch = '\x27' then tokenizeFrom (s.enter .none) rest else tokenizeFrom (s.push ch) rest
    | .double =>
      if ch = '"' then tokenizeFrom (s.enter .none) rest
      else if ch = '\\' then
        match rest with
        | [] => .ok (s.push '\\')
        | next :: rest =>
          if next = 'n' then tokenizeFrom (s.push '\n') rest
          else if next = 't' then tokenizeFrom (s.push '\t') rest
          else if next = '\\' then tokenizeFrom (s.push '\\') rest
          else if next = '"' then tokenizeFrom (s.push '"') rest
          else tokenizeFrom ((s.push '\\').push next) rest
      else if ch = '$' ∧ rest.head? = some '(' then .error (unsupported "substitution" "$(")
      else if ch = '\x60' then .error (unsupported "substitution" "\x60")
      else tokenizeFrom (s.push ch) rest

def looksLikeEnvAssignment (token : String) : Bool :=
  match Text.splitOnce "=" token with
  | none => false
  | some (name, _) =>
    match name.toList with
    | [] => false
    | first :: chars => (first == '_' || first.isAlpha) && chars.all fun c => c == '_' || c.isAlphanum

def rejectEnvAssignmentPrefix (tokens : List String) : Except String Unit :=
  match tokens with
  | [] => .ok ()
  | first :: _ =>
    if looksLikeEnvAssignment first then
      .error ("Unsupported environment assignment prefix '" ++ first ++ "'")
    else .ok ()

/-- The digits of a placeholder `$1`, `$2`, … -/
def placeholderDigits (token : String) : Option String :=
  (Text.stripPrefix "$" token).filter fun rest => rest ≠ "" && rest.toList.all Char.isDigit

def substitutePlaceholder (args : List String) (token : String) : Except String String :=
  match placeholderDigits token with
  | none => .ok token
  | some digits =>
    match Text.parseUsize digits with
    | none => .error ("Invalid placeholder '" ++ token ++ "'")
    | some 0 => .error "Placeholder $0 is invalid (placeholders are 1-indexed)"
    | some (n + 1) =>
      match args[n]? with
      | some value => .ok value
      | none => .error ("Placeholder $" ++ toString (n + 1) ++ " has no corresponding arg")

def substitutePlaceholders (tokens args : List String) : Except String (List String) :=
  tokens.mapM (substitutePlaceholder args)

def tokenizeCommand (command : String) (args : List String) : Except String (List String) := do
  let s ← tokenizeFrom ⟨[], [], .none⟩ command.toList
  if s.quote ≠ .none then throw "Unterminated quoted string"
  let tokens := s.pushCurrentToken.tokens
  rejectEnvAssignmentPrefix tokens
  substitutePlaceholders tokens args

/-- What a writer makes of a list of arguments. -/
def quotedCommand (args : List String) : String := " ".intercalate (args.map shellQuoteArg)

end Exosuit.Command
