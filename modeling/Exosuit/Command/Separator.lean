import Exosuit.Command.FrontEnds

/-!
# The tokens after the separator

Three passes read a command line: one strips the global format options, one looks for a request
for help, and `compile_args` reads the rest. Only the last knows that `--` ends the options. Before it
`detect_shell_operators` refuses a list that holds a literal shell operator, on either side of `--`;
that check is left out, so what follows is about the lists that pass it.
-/

namespace Exosuit.Command

open Lib

def isFormatOption (token : String) : Bool := (Text.stripPrefix "--format=" token).isSome

/-- Also `tokens_without_global_format`, which is the same loop. -/
def stripGlobalFormatArgs : List String → List String
  | [] => []
  | [arg] => if isFormatOption arg then [] else [arg]
  | arg :: value :: rest =>
    if arg = "--format" then stripGlobalFormatArgs rest
    else if isFormatOption arg then stripGlobalFormatArgs (value :: rest)
    else arg :: stripGlobalFormatArgs (value :: rest)

def routeTargetTokens (tokens : List String) : List String :=
  tokens.takeWhile fun token => !Text.startsWith token "-"

def explicitHelpTarget (argv : List String) : Option (List String) :=
  let tokens := stripGlobalFormatArgs argv
  match tokens with
  | [] => none
  | first :: rest =>
    if first = "help" then some (routeTargetTokens rest)
    else
      match tokens.findIdx? fun token => token = "--help" || token = "-h" with
      | some helpIndex => some (routeTargetTokens (tokens.take helpIndex))
      | none => if tokens.getLast? = some "help" then some (routeTargetTokens tokens.dropLast) else none

/-- The words that name an operation: those before the first that begins with a dash. -/
structure Route where
  words : List String
  plain : ∀ word ∈ words, Text.startsWith word "-" = false

/-! ## What may stand around the separator -/

/-- No token, of those the format pass reads as one, is a format option. -/
def formatFree : List String → Bool
  | [] => true
  | [token] => !isFormatOption token
  | token :: next :: rest => token ≠ "--format" && !isFormatOption token && formatFree (next :: rest)

section

variable {F : Type*} (fmt : Formats F) (op : OperationSpec)

def OperationSpec.takesNext (token : String) : Bool :=
  match Text.stripPrefix "--" token with
  | some long =>
    (Text.splitOnce "=" long).isNone && (op.byLong long).any fun arg => arg.kind = .option
  | none =>
    match (Text.stripPrefix "-" token).filter fun short => short.utf8ByteSize = 1 with
    | some short => (op.byShort (short.toList.headD '?')).any fun arg => arg.kind = .option
    | none => false

/-- The last token is `--format`, or an option that takes the next token as its value; `waiting`
is set when the token before is such an option. -/
def leavesOpen (waiting : Bool) : List String → Bool
  | [] => waiting
  | [token] =>
    token = "--format" || if isFormatOption token then waiting else !waiting && op.takesNext token
  | token :: next :: rest =>
    if token = "--format" then leavesOpen waiting rest
    else if isFormatOption token then leavesOpen waiting (next :: rest)
    else leavesOpen (!waiting && op.takesNext token) (next :: rest)

/-- The loop of `compile_args` over what the format pass leaves. -/
def readStripped (offset : Nat) (argv : List String) : Compiling F :=
  readTokens fmt op (stripGlobalFormatArgs argv) offset false .empty

/-- What `compile_args` does after its loop. -/
def finishArgs (c : Compiling F) : Compiling F :=
  let c := assignPositionals fmt op.positionalSpecs c.positionals (reportExcess op c)
  let c := validateArgs op c
  { c with args := op.args.foldl (applyDefault fmt) c.args }

/-- Tokens as positional values, with their indices. -/
def literals (index : Nat) (tokens : List String) : List (Nat × String) :=
  (tokens.zipIdx index).map fun (token, j) => (j, token)

/-- The tokens after the separator are positional values in their order, the tokens before it are
read as they are alone, and help is requested only before it. -/
structure LiteralTail (route : Route) (offset : Nat) (before tail : List String) : Prop where
  read : readStripped fmt op offset (before ++ "--" :: tail) = (readStripped fmt op offset before).push
    (literals (offset + (stripGlobalFormatArgs before).length + 1) tail)
  compiled : compileArgs fmt op (stripGlobalFormatArgs (before ++ "--" :: tail)) offset =
    finishArgs fmt op ((readStripped fmt op offset before).push
      (literals (offset + (stripGlobalFormatArgs before).length + 1) tail))
  help : explicitHelpTarget (route.words ++ before) = none →
    explicitHelpTarget (route.words ++ (before ++ "--" :: tail)) = none

end

def helpFree (tail : List String) : Prop :=
  (∀ token ∈ tail, token ≠ "--help" ∧ token ≠ "-h") ∧ tail.getLast? ≠ some "help"

/-! ## The format pass -/

/-- The last token is a `--format` that takes the next one with it. -/
def endsInFormat : List String → Bool
  | [] => false
  | [token] => token = "--format"
  | token :: next :: rest => if token = "--format" then endsInFormat rest else endsInFormat (next :: rest)

theorem strip_singleton (arg : String) :
    stripGlobalFormatArgs [arg] = if isFormatOption arg then [] else [arg] := rfl

theorem strip_cons (arg value : String) (rest : List String) : stripGlobalFormatArgs (arg :: value :: rest) =
    if arg = "--format" then stripGlobalFormatArgs rest
    else if isFormatOption arg then stripGlobalFormatArgs (value :: rest)
    else arg :: stripGlobalFormatArgs (value :: rest) := rfl

theorem strip_separator (tail : List String) :
    stripGlobalFormatArgs ("--" :: tail) = "--" :: stripGlobalFormatArgs tail := by
  have hFormat : ¬ "--" = "--format" := by decide
  have hOption : ¬ isFormatOption "--" = true := by decide
  cases tail with
  | nil => exact if_neg hOption
  | cons token tail => rw [strip_cons, if_neg hFormat, if_neg hOption]

/-- Without an open `--format` before it, the separator stays where it is. -/
theorem strip_append {before : List String} (h : endsInFormat before = false) (tail : List String) :
    stripGlobalFormatArgs (before ++ "--" :: tail) =
      stripGlobalFormatArgs before ++ "--" :: stripGlobalFormatArgs tail := by
  induction before using endsInFormat.induct with
  | case1 => exact strip_separator tail
  | case2 token =>
    have hFormat : ¬ token = "--format" := of_decide_eq_false h
    change stripGlobalFormatArgs (token :: "--" :: tail) = _
    rw [strip_cons, if_neg hFormat, strip_singleton, strip_separator]
    split <;> rfl
  | case3 next rest ih =>
    rw [endsInFormat, if_pos rfl] at h
    change stripGlobalFormatArgs ("--format" :: next :: (rest ++ "--" :: tail)) = _
    rw [strip_cons, if_pos rfl, ih h, strip_cons, if_pos rfl]
  | case4 token next rest hFormat ih =>
    rw [endsInFormat, if_neg hFormat] at h
    have hRest := ih h
    change stripGlobalFormatArgs (token :: next :: (rest ++ "--" :: tail)) = _
    change stripGlobalFormatArgs (next :: (rest ++ "--" :: tail)) = _ at hRest
    rw [strip_cons, if_neg hFormat, hRest, strip_cons, if_neg hFormat]
    split <;> rfl

/-- An open `--format` takes the separator with it. -/
theorem strip_append_length {before : List String} (h : endsInFormat before = true) (tail : List String) :
    (stripGlobalFormatArgs (before ++ "--" :: tail)).length + 1 =
      (stripGlobalFormatArgs before).length + (stripGlobalFormatArgs tail).length := by
  induction before using endsInFormat.induct with
  | case1 => exact nomatch h
  | case2 token =>
    obtain rfl : token = "--format" := of_decide_eq_true h
    have hOption : ¬ isFormatOption "--format" = true := by decide
    change (stripGlobalFormatArgs ("--format" :: "--" :: tail)).length + 1 = _
    rw [strip_cons, if_pos rfl, strip_singleton, if_neg hOption, List.length_singleton, Nat.add_comm]
  | case3 next rest ih =>
    rw [endsInFormat, if_pos rfl] at h
    change (stripGlobalFormatArgs ("--format" :: next :: (rest ++ "--" :: tail))).length + 1 = _
    rw [strip_cons, if_pos rfl, ih h, strip_cons, if_pos rfl]
  | case4 token next rest hFormat ih =>
    rw [endsInFormat, if_neg hFormat] at h
    have hRest := ih h
    change (stripGlobalFormatArgs (token :: next :: (rest ++ "--" :: tail))).length + 1 = _
    change (stripGlobalFormatArgs (next :: (rest ++ "--" :: tail))).length + 1 = _ at hRest
    rw [strip_cons, if_neg hFormat, strip_cons, if_neg hFormat]
    split
    · exact hRest
    · rw [List.length_cons, hRest, List.length_cons]
      omega

theorem strip_length_le (tokens : List String) : (stripGlobalFormatArgs tokens).length ≤ tokens.length := by
  fun_induction stripGlobalFormatArgs tokens with
  | case1 | case3 => exact le_refl _
  | case2 => exact Nat.zero_le _
  | case4 next rest ih => exact ih.trans (Nat.le_add_right _ 2)
  | case5 token next rest hFormat hOption ih => exact ih.trans (Nat.le_succ _)
  | case6 token next rest hFormat hOption ih => exact Nat.succ_le_succ ih

theorem strip_of_formatFree {tokens : List String} (h : formatFree tokens = true) :
    stripGlobalFormatArgs tokens = tokens := by
  induction tokens using formatFree.induct with
  | case1 => rfl
  | case2 token =>
    rw [formatFree, Bool.not_eq_true'] at h
    rw [stripGlobalFormatArgs, if_neg (ne_true_of_eq_false h)]
  | case3 token next rest ih =>
    rw [formatFree, Bool.and_eq_true, Bool.and_eq_true, decide_eq_true_iff, Bool.not_eq_true'] at h
    obtain ⟨⟨hFormat, hOption⟩, hRest⟩ := h
    rw [stripGlobalFormatArgs, if_neg hFormat, if_neg (ne_true_of_eq_false hOption), ih hRest]

theorem formatFree_of_length {tokens : List String}
    (h : tokens.length ≤ (stripGlobalFormatArgs tokens).length) :
    formatFree tokens = true := by
  induction tokens using formatFree.induct with
  | case1 => rfl
  | case2 token =>
    rw [formatFree, Bool.not_eq_true', Bool.eq_false_iff]
    intro hOption
    rw [stripGlobalFormatArgs, if_pos hOption] at h
    exact absurd h (by simp)
  | case3 token next rest ih =>
    rw [stripGlobalFormatArgs] at h
    split at h
    · have := strip_length_le rest
      rw [List.length_cons, List.length_cons] at h
      omega
    · next hFormat =>
      split at h
      · have := strip_length_le (next :: rest)
        rw [List.length_cons] at h
        omega
      · next hOption =>
        rw [formatFree, ih (Nat.le_of_succ_le_succ h), decide_eq_true hFormat, Bool.eq_false_iff.mpr hOption]
        rfl

/-! ## The loop -/

section

variable {F : Type*} {fmt : Formats F} {op : OperationSpec} {c : Compiling F}

/-- Of tokens without format options, the last is an option that takes the next one. -/
def awaits (op : OperationSpec) (waiting : Bool) : List String → Bool
  | [] => waiting
  | token :: rest => awaits op (!waiting && op.takesNext token) rest

theorem leavesOpen_eq_false {waiting : Bool} {before : List String} : leavesOpen op waiting before = false ↔
    endsInFormat before = false ∧ awaits op waiting (stripGlobalFormatArgs before) = false := by
  induction before using endsInFormat.induct generalizing waiting with
  | case1 => exact ⟨fun h => ⟨rfl, h⟩, And.right⟩
  | case2 token =>
    rw [leavesOpen, endsInFormat, Bool.or_eq_false_iff, stripGlobalFormatArgs]
    refine and_congr_right fun _ => ?_
    split <;> rfl
  | case3 next rest ih =>
    rw [leavesOpen, if_pos rfl, endsInFormat, if_pos rfl, stripGlobalFormatArgs, if_pos rfl, ih]
  | case4 token next rest hFormat ih =>
    rw [leavesOpen, if_neg hFormat, endsInFormat, if_neg hFormat, stripGlobalFormatArgs, if_neg hFormat]
    split
    · exact ih
    · rw [awaits]
      exact ih

theorem readNamed_of_not_option {found : Option ArgSpec} {inline : Option String}
    (h : (inline.isNone && found.any fun arg => arg.kind = .option) = false) (shown : String)
    (next : Option String) (i : Nat) :
    readNamed fmt found shown inline next i c = ((readNamed fmt found shown inline none i c).1, false) := by
  cases found with
  | none => rfl
  | some arg =>
    cases hKind : arg.kind with
    | flag => simp only [readNamed, hKind]
    | positional => simp only [readNamed, hKind]
    | option =>
      cases inline with
      | none =>
        rw [Option.any_some, hKind] at h
        exact absurd h (by decide)
      | some value => simp only [readNamed, hKind]

theorem readToken_of_not_takesNext {token : String} (h : op.takesNext token = false) (next : Option String)
    (i : Nat) : readToken fmt op token next i c = ((readToken fmt op token none i c).1, false) := by
  unfold OperationSpec.takesNext at h
  unfold readToken
  cases hLong : Text.stripPrefix "--" token with
  | some long =>
    rw [hLong] at h
    dsimp only at h ⊢
    cases hSplit : Text.splitOnce "=" long with
    | some parts => exact readNamed_of_not_option rfl _ _ _
    | none =>
      rw [hSplit] at h
      exact readNamed_of_not_option h _ _ _
  | none =>
    rw [hLong] at h
    dsimp only at h ⊢
    split
    · next short hShort =>
      rw [hShort] at h
      exact @readNamed_of_not_option _ _ _ _ none h _ _ _
    · rfl

theorem readToken_of_takesNext {token : String} (h : op.takesNext token = true) :
    ∃ arg shown, ∀ (i : Nat) (c : Compiling F),
      readToken fmt op token none i c = (c.report .missingValue shown (some i), false) ∧
      ∀ next, ∃ message,
        readToken fmt op token (some next) i c = (c.setParsed fmt arg next message (i + 1), true) := by
  have hNamed : ∀ (found : Option ArgSpec) (shown : String), (found.any fun arg => arg.kind = .option) = true →
      ∃ arg text, ∀ (i : Nat) (c : Compiling F),
        readNamed fmt found shown none none i c = (c.report .missingValue text (some i), false) ∧
        ∀ next, ∃ message,
          readNamed fmt found shown none (some next) i c = (c.setParsed fmt arg next message (i + 1), true) := by
    intro found shown hFound
    obtain ⟨arg, rfl⟩ : ∃ arg, found = some arg := by
      cases found with
      | none => exact nomatch hFound
      | some arg => exact ⟨arg, rfl⟩
    have hKind : arg.kind = .option := of_decide_eq_true hFound
    refine ⟨arg, "Missing value for '" ++ shown ++ "'", fun i c => ⟨?_, fun next =>
      ⟨"Invalid value '" ++ next ++ "' for '" ++ shown ++ "'", ?_⟩⟩⟩
    · simp only [readNamed, hKind]
    · simp only [readNamed, hKind]
  unfold OperationSpec.takesNext at h
  unfold readToken
  cases hLong : Text.stripPrefix "--" token with
  | some long =>
    rw [hLong] at h
    dsimp only at h ⊢
    cases hSplit : Text.splitOnce "=" long with
    | some parts =>
      rw [hSplit] at h
      exact nomatch h
    | none =>
      rw [hSplit] at h
      exact hNamed _ _ h
  | none =>
    rw [hLong] at h
    dsimp only at h ⊢
    cases hShort : (Text.stripPrefix "-" token).filter fun short => short.utf8ByteSize = 1 with
    | some short =>
      rw [hShort] at h
      exact hNamed _ _ h
    | none =>
      rw [hShort] at h
      exact nomatch h

theorem readToken_some_snd (token next : String) (i : Nat) :
    (readToken fmt op token (some next) i c).2 = op.takesNext token := by
  cases hTakes : op.takesNext token with
  | false => rw [readToken_of_not_takesNext hTakes]
  | true =>
    obtain ⟨arg, shown, hRead⟩ := @readToken_of_takesNext _ fmt op token hTakes
    obtain ⟨message, hTaken⟩ := (hRead i c).2 next
    rw [hTaken]

theorem readTokens_append {before : List String} {waiting : Bool} (hFirst : "--" ∉ before)
    (hClosed : awaits op waiting before = false) (tail : List String) (i : Nat) :
    readTokens fmt op (before ++ "--" :: tail) i waiting c =
      (readTokens fmt op before i waiting c).push (literals (i + before.length + 1) tail) := by
  induction before generalizing waiting i c with
  | nil =>
    cases waiting with
    | true => exact nomatch hClosed
    | false =>
      change readTokens fmt op ("--" :: tail) i false c = _
      rw [readTokens, readTokens, if_pos rfl]
      rfl
  | cons token rest ih =>
    have hRest : "--" ∉ rest := fun hMem => hFirst (List.mem_cons_of_mem token hMem)
    have hLength : i + (token :: rest).length + 1 = i + 1 + rest.length + 1 := by
      rw [List.length_cons]
      omega
    rw [hLength, List.cons_append]
    cases waiting with
    | true =>
      rw [readTokens, readTokens]
      exact ih hRest hClosed (i + 1)
    | false =>
      have hToken : token ≠ "--" := fun hSame => hFirst (hSame ▸ List.mem_cons_self)
      rw [readTokens, if_neg hToken, readTokens, if_neg hToken]
      have hNext : readToken fmt op token (rest ++ "--" :: tail).head? i c =
          readToken fmt op token rest.head? i c := by
        cases hTakes : op.takesNext token with
        | false =>
          rw [readToken_of_not_takesNext hTakes, readToken_of_not_takesNext hTakes rest.head?]
        | true =>
          cases rest with
          | nil =>
            rw [awaits, hTakes] at hClosed
            exact nomatch hClosed
          | cons next rest => rfl
      have hSkip : (readToken fmt op token rest.head? i c).2 = op.takesNext token := by
        cases rest with
        | nil =>
          have hTakes : op.takesNext token = false := hClosed
          rw [readToken_of_not_takesNext hTakes, hTakes]
        | cons next rest => exact readToken_some_snd token next i
      rw [hNext]
      refine ih hRest ?_ (i + 1)
      exact hSkip ▸ hClosed

/-! ## What the loop adds -/

/-- From a state the loop adds diagnostics and positionals at the tokens from an index on, below
an end. -/
structure Adds (low high : Nat) (c c' : Compiling F) : Prop where
  diagnostics : ∃ new, c'.diagnostics = c.diagnostics ++ new ∧ ∀ d ∈ new, ∃ j, d.span = some j ∧ low ≤ j
  positionals : ∀ p ∈ c'.positionals, p ∈ c.positionals ∨ p.1 < high

theorem Adds.refl (low high : Nat) (c : Compiling F) : Adds low high c c :=
  ⟨⟨[], (List.append_nil _).symm, nofun⟩, fun _ => .inl⟩

theorem Adds.trans {low low' high high' : Nat} {c c' c'' : Compiling F} (h : Adds low high c c')
    (h' : Adds low' high' c' c'') (hLow : low ≤ low') (hHigh : high ≤ high') : Adds low high' c c'' := by
  obtain ⟨new, hNew, hSpans⟩ := h.diagnostics
  obtain ⟨new', hNew', hSpans'⟩ := h'.diagnostics
  refine ⟨⟨new ++ new', by rw [hNew', hNew, List.append_assoc], fun d hd => ?_⟩, fun p hp => ?_⟩
  · rcases List.mem_append.mp hd with hOld | hLater
    · exact hSpans d hOld
    · obtain ⟨j, hj, hle⟩ := hSpans' d hLater
      exact ⟨j, hj, hLow.trans hle⟩
  · rcases h'.positionals p hp with hOld | hLater
    · exact (h.positionals p hOld).imp_right fun hlt => hlt.trans_le hHigh
    · exact .inr hLater

theorem adds_report {low high j : Nat} (code : DiagnosticCode) (message : String) (h : low ≤ j) :
    Adds low high c (c.report code message (some j)) := by
  refine ⟨⟨_, rfl, fun d hd => ?_⟩, fun _ => .inl⟩
  rw [List.mem_singleton.mp hd]
  exact ⟨j, rfl, h⟩

theorem adds_set {low high : Nat} (id : String) (value : TypedValue F) : Adds low high c (c.set id value) :=
  ⟨⟨[], (List.append_nil _).symm, nofun⟩, fun _ => .inl⟩

theorem adds_setParsed {low high j : Nat} (arg : ArgSpec) (token message : String) (h : low ≤ j) :
    Adds low high c (c.setParsed fmt arg token message j) := by
  unfold Compiling.setParsed
  split
  · exact adds_set _ _
  · exact adds_report _ _ h

theorem adds_readNamed {high i : Nat} (found : Option ArgSpec) (shown : String) (inline next : Option String) :
    Adds i high c (readNamed fmt found shown inline next i c).1 := by
  unfold readNamed
  split
  · exact adds_report _ _ (le_refl i)
  split
  · exact adds_set _ _
  · split
    · exact adds_setParsed _ _ _ (le_refl i)
    · split
      · exact adds_report _ _ (le_refl i)
      · exact adds_setParsed _ _ _ (Nat.le_succ i)
  · exact adds_report _ _ (le_refl i)

theorem adds_readToken {i : Nat} (token : String) (next : Option String) :
    Adds i (i + 1) c (readToken fmt op token next i c).1 := by
  unfold readToken
  split
  · split
    exact adds_readNamed _ _ _ _
  · split
    · exact adds_readNamed _ _ _ _
    · refine ⟨⟨[], (List.append_nil _).symm, nofun⟩, fun p hp => ?_⟩
      rcases List.mem_append.mp hp with hOld | hNew
      · exact .inl hOld
      · rw [List.mem_singleton.mp hNew]
        exact .inr (Nat.lt_succ_self i)

theorem mem_literals {index : Nat} {tokens : List String} {p : Nat × String} (h : p ∈ literals index tokens) :
    index ≤ p.1 ∧ p.1 < index + tokens.length := by
  obtain ⟨⟨token, j⟩, hMem, rfl⟩ := List.mem_map.mp h
  have hBound := List.mem_zipIdx hMem
  change index ≤ j ∧ j < index + tokens.length
  omega

theorem adds_readTokens {tokens : List String} {i : Nat} {skip : Bool} :
    Adds i (i + tokens.length) c (readTokens fmt op tokens i skip c) := by
  induction tokens generalizing i skip c with
  | nil => exact .refl _ _ c
  | cons token rest ih =>
    have hLength : i + 1 + rest.length = i + (token :: rest).length := by
      rw [List.length_cons]
      omega
    cases skip with
    | true =>
      rw [readTokens, ← hLength]
      exact (Adds.refl i (i + 1) c).trans ih (Nat.le_succ i) (Nat.le_add_right _ _)
    | false =>
      rw [readTokens]
      split
      · refine ⟨⟨[], (List.append_nil _).symm, nofun⟩, fun p hp => ?_⟩
        rcases List.mem_append.mp hp with hOld | hNew
        · exact .inl hOld
        · have hBound := mem_literals hNew
          exact .inr (by omega)
      · rw [← hLength]
        exact (adds_readToken token rest.head?).trans ih (Nat.le_succ i) (Nat.le_add_right _ _)

/-- An option that is left open takes the separator for its value, and misses one without it. -/
theorem readTokens_append_ne {before : List String} {waiting : Bool} (hFirst : "--" ∉ before)
    (hBegun : before ≠ [] ∨ waiting = false) (hOpen : awaits op waiting before = true)
    (tail : List String) (i : Nat) :
    (readTokens fmt op (before ++ "--" :: tail) i waiting c).diagnostics ≠
      (readTokens fmt op before i waiting c).diagnostics := by
  induction before generalizing waiting i c with
  | nil =>
    obtain rfl := hBegun.resolve_left (absurd rfl)
    exact nomatch hOpen
  | cons token rest ih =>
    have hRest : "--" ∉ rest := fun hMem => hFirst (List.mem_cons_of_mem token hMem)
    rw [List.cons_append]
    cases waiting with
    | true =>
      rw [readTokens, readTokens]
      exact ih hRest (.inr rfl) hOpen (i + 1)
    | false =>
      have hToken : token ≠ "--" := fun hSame => hFirst (hSame ▸ List.mem_cons_self)
      rw [readTokens, if_neg hToken, readTokens, if_neg hToken]
      rw [awaits] at hOpen
      cases rest with
      | nil =>
        obtain ⟨arg, shown, hRead⟩ := @readToken_of_takesNext _ fmt op token hOpen
        obtain ⟨hMissing, hTaken⟩ := hRead i c
        obtain ⟨message, hTaken⟩ := hTaken "--"
        change (readTokens fmt op ("--" :: tail) (i + 1) (readToken fmt op token (some "--") i c).2
          (readToken fmt op token (some "--") i c).1).diagnostics ≠
            (readToken fmt op token none i c).1.diagnostics
        rw [hTaken, hMissing, readTokens]
        have hSet : Adds (i + 1) (i + 1 + 1) c (c.setParsed fmt arg "--" message (i + 1)) :=
          adds_setParsed arg "--" message (le_refl _)
        have hAdds : Adds (i + 1) (i + 1 + 1 + tail.length) c
            (readTokens fmt op tail (i + 1 + 1) false (c.setParsed fmt arg "--" message (i + 1))) :=
          hSet.trans adds_readTokens (Nat.le_succ _) (Nat.le_add_right _ _)
        obtain ⟨new, hNew, hSpans⟩ := hAdds.diagnostics
        rw [hNew]
        intro hSame
        obtain rfl := List.append_cancel_left hSame
        obtain ⟨j, hj, hle⟩ := hSpans _ (List.mem_singleton_self _)
        cases hj
        exact Nat.not_succ_le_self i hle
      | cons next rest =>
        refine ih hRest (.inl (List.cons_ne_nil _ _)) ?_ (i + 1)
        change awaits op (readToken fmt op token (some next) i c).2 (next :: rest) = true
        rw [readToken_some_snd]
        exact hOpen

end

/-! ## Requests for help -/

/-- Tokens in which nobody asks for help. -/
structure Quiet (tokens : List String) : Prop where
  first : tokens.head? ≠ some "help"
  flags : ∀ token ∈ tokens, token ≠ "--help" ∧ token ≠ "-h"
  last : tokens.getLast? ≠ some "help"

theorem explicitHelpTarget_eq_none {argv : List String} :
    explicitHelpTarget argv = none ↔ Quiet (stripGlobalFormatArgs argv) := by
  unfold explicitHelpTarget
  generalize stripGlobalFormatArgs argv = tokens
  cases tokens with
  | nil => exact iff_of_true rfl ⟨nofun, nofun, nofun⟩
  | cons first rest =>
    dsimp only
    split
    · next hFirst => exact iff_of_false nofun fun hQuiet => hQuiet.first (congrArg some hFirst)
    · next hFirst =>
      split
      · next helpIndex hFind =>
        refine iff_of_false nofun fun hQuiet => ?_
        obtain ⟨hBound, hToken, -⟩ := List.findIdx?_eq_some_iff_getElem.mp hFind
        rw [Bool.or_eq_true, decide_eq_true_iff, decide_eq_true_iff] at hToken
        obtain ⟨hLong, hShort⟩ := hQuiet.flags _ (List.getElem_mem hBound)
        exact hToken.elim hLong hShort
      · next hFind =>
        have hFlags : ∀ token ∈ first :: rest, token ≠ "--help" ∧ token ≠ "-h" := by
          intro token hToken
          have hNot := List.findIdx?_eq_none_iff.mp hFind token hToken
          rwa [Bool.or_eq_false_iff, decide_eq_false_iff_not, decide_eq_false_iff_not] at hNot
        split
        · next hLast => exact iff_of_false nofun fun hQuiet => hQuiet.last hLast
        · next hLast =>
          refine iff_of_true rfl ⟨fun hHead => hFirst (Option.some.inj hHead), hFlags, hLast⟩

theorem quiet_append_iff {before tail : List String} (hBefore : Quiet before) :
    Quiet (before ++ "--" :: tail) ↔ helpFree tail := by
  have hLast : (before ++ "--" :: tail).getLast? ≠ some "help" ↔ tail.getLast? ≠ some "help" := by
    cases tail with
    | nil => exact iff_of_true (by simp) nofun
    | cons token tail => rw [List.getLast?_append_of_ne_nil _ (List.cons_ne_nil _ _), List.getLast?_cons_cons]
  constructor
  · intro hQuiet
    refine ⟨fun token hToken => ?_, hLast.mp hQuiet.last⟩
    exact hQuiet.flags token (List.mem_append_right _ (List.mem_cons_of_mem _ hToken))
  · rintro ⟨hFlags, hTail⟩
    refine ⟨?_, fun token hToken => ?_, hLast.mpr hTail⟩
    · cases before with
      | nil => exact fun hHead => absurd (Option.some.inj hHead) (by decide)
      | cons first rest => exact hBefore.first
    · rcases List.mem_append.mp hToken with hOld | hNew
      · exact hBefore.flags token hOld
      · rcases List.mem_cons.mp hNew with rfl | hNew
        · decide
        · exact hFlags token hNew

theorem Route.ne_format (route : Route) {word : String} (h : word ∈ route.words) : word ≠ "--format" := by
  rintro rfl
  exact absurd (route.plain _ h) (by decide)

theorem endsInFormat_words {words : List String} (h : ∀ word ∈ words, word ≠ "--format") (before : List String) :
    endsInFormat (words ++ before) = endsInFormat before := by
  induction words with
  | nil => rfl
  | cons word words ih =>
    obtain ⟨hWord, hWords⟩ := List.forall_mem_cons.mp h
    rw [← ih hWords, List.cons_append]
    cases words ++ before with
    | nil => exact decide_eq_false hWord
    | cons next rest => rw [endsInFormat, if_neg hWord]

theorem explicitHelpTarget_append {route : Route} {before tail : List String}
    (hBefore : endsInFormat before = false) (hTail : formatFree tail = true)
    (hNone : explicitHelpTarget (route.words ++ before) = none) :
    explicitHelpTarget (route.words ++ (before ++ "--" :: tail)) = none ↔ helpFree tail := by
  have hRoute : endsInFormat (route.words ++ before) = false :=
    (endsInFormat_words (fun _ => route.ne_format) before).trans hBefore
  rw [explicitHelpTarget_eq_none, ← List.append_assoc, strip_append hRoute, strip_of_formatFree hTail]
  exact quiet_append_iff (explicitHelpTarget_eq_none.mp hNone)

/-! ## When the tail is literal -/

section

variable {F : Type*} {fmt : Formats F} {op : OperationSpec} {route : Route} {offset : Nat}
  {before tail : List String}

theorem not_mem_strip {token : String} {tokens : List String} (h : token ∉ tokens) :
    token ∉ stripGlobalFormatArgs tokens := by
  fun_induction stripGlobalFormatArgs tokens with
  | case1 | case3 => exact h
  | case2 => exact List.not_mem_nil
  | case4 next rest ih => exact ih fun hMem => h (List.mem_cons_of_mem _ (List.mem_cons_of_mem _ hMem))
  | case5 token' next rest hFormat hOption ih => exact ih fun hMem => h (List.mem_cons_of_mem _ hMem)
  | case6 token' next rest hFormat hOption ih =>
    rw [List.mem_cons, not_or] at h ⊢
    exact ⟨h.1, ih h.2⟩

/-- The condition on what stands around the separator. -/
def TailStands (op : OperationSpec) (route : Route) (before tail : List String) : Prop :=
  leavesOpen op false before = false ∧ formatFree tail = true ∧
    (explicitHelpTarget (route.words ++ before) = none → helpFree tail)

theorem literalTail_of_stands (hFirst : "--" ∉ before) (h : TailStands op route before tail) :
    LiteralTail fmt op route offset before tail := by
  obtain ⟨hOpen, hFree, hHelp⟩ := h
  obtain ⟨hFormat, hAwaits⟩ := leavesOpen_eq_false.mp hOpen
  have hRead : readStripped fmt op offset (before ++ "--" :: tail) = (readStripped fmt op offset before).push
      (literals (offset + (stripGlobalFormatArgs before).length + 1) tail) := by
    rw [readStripped, strip_append hFormat, strip_of_formatFree hFree]
    exact readTokens_append (not_mem_strip hFirst) hAwaits tail offset
  refine ⟨hRead, ?_, fun hNone => (explicitHelpTarget_append hFormat hFree hNone).mpr (hHelp hNone)⟩
  rw [← hRead]
  rfl

theorem length_of_literalTail (h : LiteralTail fmt op route offset before tail) (hTail : tail ≠ []) :
    (stripGlobalFormatArgs before).length + tail.length <
      (stripGlobalFormatArgs (before ++ "--" :: tail)).length := by
  have hPositive : 0 < tail.length := List.length_pos_iff.mpr hTail
  have hLast : (offset + (stripGlobalFormatArgs before).length + 1 + (tail.length - 1),
      tail[tail.length - 1]) ∈ literals (offset + (stripGlobalFormatArgs before).length + 1) tail := by
    refine List.mem_map.mpr ⟨(tail[tail.length - 1], _), List.mk_add_mem_zipIdx_iff_getElem?.mpr ?_, rfl⟩
    exact List.getElem?_eq_getElem _
  have hMem : (offset + (stripGlobalFormatArgs before).length + 1 + (tail.length - 1),
      tail[tail.length - 1]) ∈ (readStripped fmt op offset (before ++ "--" :: tail)).positionals := by
    rw [h.read]
    exact List.mem_append_right _ hLast
  rcases adds_readTokens.positionals _ hMem with hNone | hBound
  · exact nomatch hNone
  · dsimp only at hBound
    omega

theorem stands_of_literalTail (hFirst : "--" ∉ before) (hTail : tail ≠ [])
    (h : LiteralTail fmt op route offset before tail) : TailStands op route before tail := by
  have hLength := length_of_literalTail h hTail
  have hShort := strip_length_le tail
  have hFormat : endsInFormat before = false := by
    refine Bool.eq_false_iff.mpr fun hEnds => ?_
    have := strip_append_length hEnds tail
    omega
  have hStrip := strip_append hFormat tail
  have hFree : formatFree tail = true := by
    rw [hStrip, List.length_append, List.length_cons] at hLength
    exact formatFree_of_length (by omega)
  rw [strip_of_formatFree hFree] at hStrip
  refine ⟨leavesOpen_eq_false.mpr ⟨hFormat, ?_⟩, hFree, fun hNone => ?_⟩
  · refine Bool.eq_false_iff.mpr fun hAwaits => ?_
    have hSame := congrArg Compiling.diagnostics h.read
    rw [readStripped, hStrip] at hSame
    exact readTokens_append_ne (not_mem_strip hFirst) (.inr rfl) hAwaits tail offset hSame
  · exact (explicitHelpTarget_append hFormat hFree hNone).mp (h.help hNone)

/-- What comes after the first separator is literal when it holds no format option, nobody asks for
help in it and nothing before is left open, and not otherwise if anything comes after it. -/
theorem literalTail_iff (fmt : Formats F) (op : OperationSpec) (route : Route) (offset : Nat)
    (before tail : List String) (hFirst : "--" ∉ before) :
    (TailStands op route before tail → LiteralTail fmt op route offset before tail) ∧
    (tail ≠ [] → (LiteralTail fmt op route offset before tail ↔ TailStands op route before tail)) :=
  ⟨literalTail_of_stands hFirst, fun hTail => ⟨stands_of_literalTail hFirst hTail, literalTail_of_stands hFirst⟩⟩

end

def noteAdd : OperationSpec :=
  ⟨[⟨"text", "text", .positional, .string, false, none, none, false⟩,
    ⟨"tag", "tag", .option, .string, false, none, none, false⟩]⟩

def noteRoute : Route := ⟨["note", "add"], by decide⟩

/-- A tag and a format option before the separator, another tag behind it. -/
theorem literalTail_tag :
    LiteralTail sampleFormats noteAdd noteRoute 2 ["--tag", "a", "--format", "json"] ["--tag", "b"] :=
  (literalTail_iff sampleFormats noteAdd noteRoute 2 ["--tag", "a", "--format", "json"] ["--tag", "b"]
    (by decide)).1 ⟨by decide, by decide, fun _ => ⟨by decide, by decide⟩⟩

/-- A format option after the separator is taken away, and the word `help` asks for help. -/
theorem tail_is_read : ¬ LiteralTail sampleFormats noteAdd noteRoute 2 [] ["--format", "json"] ∧
    explicitHelpTarget ["note", "add", "--", "help"] = some ["note", "add"] := by
  refine ⟨fun h => ?_, by decide⟩
  exact absurd (congrArg (fun c => c.positionals.length) h.read) (by decide)

end Exosuit.Command
