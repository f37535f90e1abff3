import Exosuit.Command.Separator

/-!
# What a command line gives

Every token of a command line that compiles belongs to one occurrence of an argument. The
occurrences are read off the tokens here, to be compared with what the invocation holds.
-/

namespace Exosuit.Command

open Lib (Table)

variable {F : Type*}

/-- The argument that a token names, if there is one of the name, and its inline value; `none` for
a token that names nothing. -/
def OperationSpec.named (op : OperationSpec) (token : String) : Option (Option ArgSpec × Option String) :=
  match Lib.Text.stripPrefix "--" token with
  | some long =>
    match Lib.Text.splitOnce "=" long with
    | some (name, value) => some (op.byLong name, some value)
    | none => some (op.byLong long, none)
  | none =>
    ((Lib.Text.stripPrefix "-" token).filter fun short => short.utf8ByteSize = 1).map fun short =>
      (op.byShort (short.toList.headD '?'), none)

/-- An argument with the value that it is given. -/
abbrev Gift (F : Type*) := ArgSpec × TypedValue F

inductive Item (F : Type*)
  | given (gift : Gift F)
  | positional (token : String)

def givens : List (Item F) → List (Gift F)
  | [] => []
  | .given gift :: items => gift :: givens items
  | .positional _ :: items => givens items

def positionalTokens : List (Item F) → List String
  | [] => []
  | .given _ :: items => positionalTokens items
  | .positional token :: items => token :: positionalTokens items

/-- Every token before a separator names an argument, is the value of one, or is positional, and
every token after it is positional; `flagValue` is what a flag makes of its inline value. -/
inductive Explains (fmt : Formats F) (op : OperationSpec) (flagValue : Option String → Option (TypedValue F)) :
    List String → List (Item F) → Prop
  | nil : Explains fmt op flagValue [] []
  | separator (tail : List String) : Explains fmt op flagValue ("--" :: tail) (tail.map .positional)
  | flag {token : String} {arg : ArgSpec} {inline : Option String} {value : TypedValue F} {rest : List String}
    {items : List (Item F)} (hToken : token ≠ "--") (hNamed : op.named token = some (some arg, inline))
    (hKind : arg.kind = .flag) (hValue : flagValue inline = some value)
    (hRest : Explains fmt op flagValue rest items) :
    Explains fmt op flagValue (token :: rest) (.given (arg, value) :: items)
  | inline {token text : String} {arg : ArgSpec} {value : TypedValue F} {rest : List String}
    {items : List (Item F)} (hToken : token ≠ "--") (hNamed : op.named token = some (some arg, some text))
    (hKind : arg.kind = .option) (hValue : parseValue fmt arg.valueType text = some value)
    (hRest : Explains fmt op flagValue rest items) :
    Explains fmt op flagValue (token :: rest) (.given (arg, value) :: items)
  | separate {token text : String} {arg : ArgSpec} {value : TypedValue F} {rest : List String}
    {items : List (Item F)} (hToken : token ≠ "--") (hNamed : op.named token = some (some arg, none))
    (hKind : arg.kind = .option) (hValue : parseValue fmt arg.valueType text = some value)
    (hRest : Explains fmt op flagValue rest items) :
    Explains fmt op flagValue (token :: text :: rest) (.given (arg, value) :: items)
  | positional {token : String} {rest : List String} {items : List (Item F)} (hToken : token ≠ "--")
    (hNamed : op.named token = none) (hRest : Explains fmt op flagValue rest items) :
    Explains fmt op flagValue (token :: rest) (.positional token :: items)

/-- Positional tokens go to positional arguments in order. -/
inductive Assigned (fmt : Formats F) : List ArgSpec → List String → List (Gift F) → Prop
  | nil (args : List ArgSpec) : Assigned fmt args [] []
  | cons {arg : ArgSpec} {args : List ArgSpec} {token : String} {tokens : List String} {value : TypedValue F}
    {gifts : List (Gift F)} (hValue : parseValue fmt arg.valueType token = some value)
    (hRest : Assigned fmt args tokens gifts) :
    Assigned fmt (arg :: args) (token :: tokens) ((arg, value) :: gifts)

/-- An inline value decides a flag. -/
def decidedFlag (fmt : Formats F) : Option String → Option (TypedValue F)
  | none => some (.bool true)
  | some text => parseValue fmt .bool text

/-- `compile_args` sets a flag whatever its inline value. -/
def setFlag : Option String → Option (TypedValue F) := fun _ => some (.bool true)

def occurrencesOf (id : String) (gifts : List (Gift F)) : List (Gift F) :=
  gifts.filter fun gift => gift.1.id = id

def IsSet (gift : Gift F) : Prop := gift.1.kind = .flag ∧ gift.2 = .bool true

/-- The invocation keeps the values of the occurrences of one argument: the value of one, `true` of
flags that are set again, and a list of several in their order. -/
def Keeps (gifts : List (Gift F)) (kept : Option (TypedValue F)) : Prop :=
  match gifts with
  | [] => True
  | [gift] => kept = some gift.2
  | gifts => (∀ gift ∈ gifts, IsSet gift) ∧ kept = some (.bool true) ∨ kept = some (.array (gifts.map Prod.snd))

/-- Each token is read once, and what the tokens give is in the invocation. -/
structure FaithfulTo (op : OperationSpec) (gifts : List (Gift F)) (c : Compiling F) : Prop where
  kept : ∀ id, Keeps (occurrencesOf id gifts) (c.args.lookup id)
  once : ∀ arg ∈ op.args, arg.repeatable = false → (occurrencesOf arg.id gifts).length ≤ 1
  required : ∀ arg ∈ op.args, arg.optional = false → occurrencesOf arg.id gifts ≠ []

def Faithful (fmt : Formats F) (op : OperationSpec) (argv : List String) (c : Compiling F) : Prop :=
  ∃ items assigned, Explains fmt op (decidedFlag fmt) argv items ∧
    Assigned fmt op.positionalSpecs (positionalTokens items) assigned ∧
    FaithfulTo op (givens items ++ assigned) c

/-! ## What is named -/

/-- The arguments that tokens name, with their inline values; `waiting` is set when the token before
takes a value. -/
def OperationSpec.namedIn (op : OperationSpec) (waiting : Bool) : List String → List (ArgSpec × Option String)
  | [] => []
  | token :: rest =>
    if waiting then op.namedIn false rest
    else if token = "--" then []
    else
      match op.named token with
      | some (some arg, inline) => (arg, inline) :: op.namedIn (op.takesNext token) rest
      | _ => op.namedIn (op.takesNext token) rest

def OperationSpec.positionalsIn (op : OperationSpec) (waiting : Bool) : List String → Nat
  | [] => 0
  | token :: rest =>
    if waiting then op.positionalsIn false rest
    else if token = "--" then rest.length
    else
      match op.named token with
      | some _ => op.positionalsIn (op.takesNext token) rest
      | none => op.positionalsIn (op.takesNext token) rest + 1

/-- The arguments that the tokens give a value. -/
def OperationSpec.givenIn (op : OperationSpec) (argv : List String) : List ArgSpec :=
  (op.namedIn false argv).map Prod.fst ++ op.positionalSpecs.take (op.positionalsIn false argv)

/-- No flag has an inline value but `true`, and nothing but a flag is given twice. -/
structure OperationSpec.SingleIn (op : OperationSpec) (argv : List String) : Prop where
  flags : ∀ arg inline, (arg, inline) ∈ op.namedIn false argv → arg.kind = .flag →
    inline = none ∨ inline = some "true"
  single : (op.givenIn argv).Pairwise fun arg arg' => arg.id = arg'.id → arg.kind = .flag ∧ arg'.kind = .flag

/-! ## The loop -/

variable {fmt : Formats F} {op : OperationSpec} {c : Compiling F}

theorem takesNext_eq (token : String) : op.takesNext token =
    ((op.named token).any fun found => found.2.isNone && found.1.any fun arg => arg.kind = .option) := by
  unfold OperationSpec.takesNext OperationSpec.named
  cases Lib.Text.stripPrefix "--" token with
  | some long =>
    dsimp only
    cases Lib.Text.splitOnce "=" long with
    | some parts => rfl
    | none => rfl
  | none =>
    dsimp only
    cases (Lib.Text.stripPrefix "-" token).filter fun short => short.utf8ByteSize = 1 with
    | some short => rfl
    | none => rfl

theorem readToken_named {token : String} {found : Option ArgSpec} {inline : Option String}
    (h : op.named token = some (found, inline)) :
    ∃ shown, ∀ (next : Option String) (i : Nat) (c : Compiling F),
      readToken fmt op token next i c = readNamed fmt found shown inline next i c := by
  unfold OperationSpec.named at h
  unfold readToken
  cases hLong : Lib.Text.stripPrefix "--" token with
  | some long =>
    rw [hLong] at h
    dsimp only at h ⊢
    cases hSplit : Lib.Text.splitOnce "=" long with
    | some parts =>
      rw [hSplit] at h
      cases h
      exact ⟨_, fun _ _ _ => rfl⟩
    | none =>
      rw [hSplit] at h
      cases h
      exact ⟨_, fun _ _ _ => rfl⟩
  | none =>
    rw [hLong] at h
    dsimp only at h ⊢
    obtain ⟨short, hShort, hFound⟩ := Option.map_eq_some_iff.mp h
    cases hFound
    rw [hShort]
    exact ⟨_, fun _ _ _ => rfl⟩

theorem readToken_plain {token : String} (h : op.named token = none) (next : Option String) (i : Nat) :
    readToken fmt op token next i c = (c.push [(i, token)], false) := by
  unfold OperationSpec.named at h
  unfold readToken
  cases hLong : Lib.Text.stripPrefix "--" token with
  | some long =>
    rw [hLong] at h
    dsimp only at h
    split at h <;> exact nomatch h
  | none =>
    rw [hLong] at h
    dsimp only at h ⊢
    rw [Option.map_eq_none_iff.mp h]

/-- How the loop reads a token that it does not complain about. -/
inductive TokenRead (fmt : Formats F) (op : OperationSpec) (token : String) (next : Option String) (i : Nat)
    (c : Compiling F) : Compiling F × Bool → Prop
  | flag {arg : ArgSpec} {inline : Option String} (hNamed : op.named token = some (some arg, inline))
    (hKind : arg.kind = .flag) : TokenRead fmt op token next i c (c.set arg.id (.bool true), false)
  | inline {arg : ArgSpec} {text : String} {value : TypedValue F}
    (hNamed : op.named token = some (some arg, some text)) (hKind : arg.kind = .option)
    (hValue : parseValue fmt arg.valueType text = some value) :
    TokenRead fmt op token next i c (c.set arg.id value, false)
  | separate {arg : ArgSpec} {text : String} {value : TypedValue F} (hNext : next = some text)
    (hNamed : op.named token = some (some arg, none)) (hKind : arg.kind = .option)
    (hValue : parseValue fmt arg.valueType text = some value) :
    TokenRead fmt op token next i c (c.set arg.id value, true)
  | positional (hNamed : op.named token = none) : TokenRead fmt op token next i c (c.push [(i, token)], false)

theorem report_ne_nil (code : DiagnosticCode) (message : String) (span : Option Nat) :
    (c.report code message span).diagnostics ≠ [] :=
  List.append_ne_nil_of_right_ne_nil _ (List.cons_ne_nil _ _)

theorem setParsed_eq {arg : ArgSpec} {token message : String} {span : Nat}
    (h : (c.setParsed fmt arg token message span).diagnostics = []) :
    ∃ value, parseValue fmt arg.valueType token = some value ∧
      c.setParsed fmt arg token message span = c.set arg.id value := by
  unfold Compiling.setParsed at h ⊢
  split at h
  · next value hValue =>
    rw [hValue]
    exact ⟨value, rfl, rfl⟩
  · exact absurd h (report_ne_nil _ _ _)

theorem tokenRead {token : String} {next : Option String} {i : Nat}
    (h : (readToken fmt op token next i c).1.diagnostics = []) :
    TokenRead fmt op token next i c (readToken fmt op token next i c) := by
  cases hNamed : op.named token with
  | none =>
    rw [readToken_plain hNamed]
    exact .positional hNamed
  | some named =>
    obtain ⟨found, inline⟩ := named
    obtain ⟨shown, hRead⟩ := @readToken_named _ fmt op token found inline hNamed
    rw [hRead] at h ⊢
    cases found with
    | none => exact absurd h (report_ne_nil _ _ _)
    | some arg =>
      unfold readNamed at h ⊢
      dsimp only at h ⊢
      cases hKind : arg.kind with
      | flag => exact .flag hNamed hKind
      | positional =>
        rw [hKind] at h
        exact absurd h (report_ne_nil _ _ _)
      | option =>
        rw [hKind] at h
        cases inline with
        | some text =>
          obtain ⟨value, hValue, hSet⟩ := setParsed_eq h
          dsimp only
          rw [hSet]
          exact .inline hNamed hKind hValue
        | none =>
          cases next with
          | none => exact absurd h (report_ne_nil _ _ _)
          | some text =>
            obtain ⟨value, hValue, hSet⟩ := setParsed_eq h
            dsimp only
            rw [hSet]
            exact .separate rfl hNamed hKind hValue

/-- The values and the counts of a command line are those of some gifts. -/
structure Compiling.Holds (c : Compiling F) (gifts : List (Gift F)) : Prop where
  lookup : ∀ id value, c.args.lookup id = some value → ∃ gift ∈ gifts, gift.1.id = id ∧ gift.2 = value
  mem : ∀ gift ∈ gifts, gift.1.id ∈ c.args
  count : ∀ id, (c.occurrences.lookup id).getD 0 = min (occurrencesOf id gifts).length (2 ^ 32 - 1)

theorem holds_empty : (Compiling.empty : Compiling F).Holds [] where
  lookup _ _ h := by cases h
  mem := List.forall_mem_nil _
  count _ := rfl

theorem Compiling.Holds.push {gifts : List (Gift F)} (h : c.Holds gifts) (positionals : List (Nat × String)) :
    (c.push positionals).Holds gifts :=
  ⟨h.lookup, h.mem, h.count⟩

theorem Compiling.Holds.set {gifts : List (Gift F)} (h : c.Holds gifts) (arg : ArgSpec) (value : TypedValue F) :
    (c.set arg.id value).Holds (gifts ++ [(arg, value)]) where
  lookup id value' hLookup := by
    change (AList.insert arg.id value c.args).lookup id = some value' at hLookup
    rw [Table.lookup_insert] at hLookup
    split at hLookup
    · next hId =>
      exact ⟨(arg, value), List.mem_append_right _ (List.mem_singleton_self _), hId.symm,
        Option.some.inj hLookup⟩
    · obtain ⟨gift, hMem, hGift⟩ := h.lookup id value' hLookup
      exact ⟨gift, List.mem_append_left _ hMem, hGift⟩
  mem gift hMem := by
    refine (AList.mem_insert _).mpr ?_
    rcases List.mem_append.mp hMem with hOld | hNew
    · exact .inr (h.mem gift hOld)
    · exact .inl (by rw [List.mem_singleton.mp hNew])
  count id := by
    change ((AList.insert arg.id _ c.occurrences).lookup id).getD 0 = _
    rw [Table.lookup_insert, occurrencesOf, List.filter_append, List.length_append]
    split
    · next hId =>
      have hOne : (List.filter (fun gift : Gift F => gift.1.id = id) [(arg, value)]).length = 1 := by
        rw [List.filter_singleton]
        simp [hId]
      have hCount := h.count arg.id
      rw [hOne, Option.getD_some, hCount, hId, occurrencesOf]
      omega
    · next hId =>
      have hNone : (List.filter (fun gift : Gift F => gift.1.id = id) [(arg, value)]).length = 0 := by
        rw [List.filter_singleton]
        simp [Ne.symm hId]
      rw [hNone]
      exact h.count id

theorem diagnostics_nil_of_adds {low high : Nat} {c' : Compiling F} (h : Adds low high c c')
    (hNone : c'.diagnostics = []) : c.diagnostics = [] := by
  obtain ⟨new, hNew, -⟩ := h.diagnostics
  exact (List.append_eq_nil_iff.mp (hNew.symm.trans hNone)).1

theorem positionalTokens_map (tail : List String) :
    positionalTokens (tail.map (Item.positional : String → Item F)) = tail := by
  induction tail with
  | nil => rfl
  | cons token tail ih => exact congrArg (token :: ·) ih

theorem givens_map (tail : List String) : givens (tail.map (Item.positional : String → Item F)) = [] := by
  induction tail with
  | nil => rfl
  | cons token tail ih => exact ih

theorem literals_snd (index : Nat) (tokens : List String) : (literals index tokens).map Prod.snd = tokens := by
  rw [literals, List.map_map]
  exact List.zipIdx_map_fst index tokens

theorem explains_of_readTokens {tokens : List String} {i : Nat} {gifts : List (Gift F)} (h : c.Holds gifts)
    (hNone : (readTokens fmt op tokens i false c).diagnostics = []) :
    ∃ items, Explains fmt op setFlag tokens items ∧
      (readTokens fmt op tokens i false c).Holds (gifts ++ givens items) ∧
      (readTokens fmt op tokens i false c).positionals.map Prod.snd =
        c.positionals.map Prod.snd ++ positionalTokens items := by
  induction hLength : tokens.length using Nat.strong_induction_on generalizing tokens i c gifts with
  | _ length ih =>
    cases tokens with
    | nil => exact ⟨[], .nil, by rwa [givens, List.append_nil], (List.append_nil _).symm⟩
    | cons token rest =>
      rw [readTokens] at hNone ⊢
      split at hNone
      · next hToken =>
        subst hToken
        rw [if_pos rfl]
        refine ⟨rest.map .positional, .separator rest, ?_, ?_⟩
        · rw [givens_map, List.append_nil]
          exact h.push _
        · rw [positionalTokens_map]
          exact (List.map_append ..).trans (congrArg (_ ++ ·) (literals_snd (i + 1) rest))
      · next hToken =>
        rw [if_neg hToken]
        have hRest : rest.length < length := hLength ▸ Nat.lt_succ_self rest.length
        have hRead := tokenRead (diagnostics_nil_of_adds adds_readTokens hNone)
        generalize readToken fmt op token rest.head? i c = read at hNone hRead
        cases hRead with
        | flag hNamed hKind =>
          obtain ⟨items, hExplains, hHolds, hPositionals⟩ := ih _ hRest (h.set _ _) hNone rfl
          refine ⟨_, .flag hToken hNamed hKind rfl hExplains, ?_, hPositionals⟩
          rwa [List.append_assoc] at hHolds
        | inline hNamed hKind hValue =>
          obtain ⟨items, hExplains, hHolds, hPositionals⟩ := ih _ hRest (h.set _ _) hNone rfl
          refine ⟨_, .inline hToken hNamed hKind hValue hExplains, ?_, hPositionals⟩
          rwa [List.append_assoc] at hHolds
        | separate hNext hNamed hKind hValue =>
          obtain ⟨rest, rfl⟩ := List.head?_eq_some_iff.mp hNext
          dsimp only at hNone ⊢
          rw [readTokens] at hNone ⊢
          obtain ⟨items, hExplains, hHolds, hPositionals⟩ :=
            ih _ ((Nat.lt_succ_self rest.length).trans hRest) (h.set _ _) hNone rfl
          refine ⟨_, .separate hToken hNamed hKind hValue hExplains, ?_, hPositionals⟩
          rwa [List.append_assoc] at hHolds
        | positional hNamed =>
          obtain ⟨items, hExplains, hHolds, hPositionals⟩ := ih _ hRest (h.push _) hNone rfl
          refine ⟨_, .positional hToken hNamed hExplains, hHolds, hPositionals.trans ?_⟩
          rw [Compiling.push, List.map_append, List.append_assoc]
          rfl

/-! ## The positional arguments -/

theorem setParsed_nil {arg : ArgSpec} {token message : String} {span : Nat}
    (h : (c.setParsed fmt arg token message span).diagnostics = []) : c.diagnostics = [] :=
  have hAdds : Adds span 0 c (c.setParsed fmt arg token message span) :=
    adds_setParsed arg token message (le_refl span)
  diagnostics_nil_of_adds hAdds h

theorem assignPositionals_nil {args : List ArgSpec} {tokens : List (Nat × String)}
    (h : (assignPositionals fmt args tokens c).diagnostics = []) : c.diagnostics = [] := by
  induction args generalizing tokens c with
  | nil => exact h
  | cons arg args ih =>
    cases tokens with
    | nil =>
      have hHead := ih h
      split at hHead
      · exact hHead
      · exact absurd hHead (report_ne_nil _ _ _)
    | cons token tokens => exact setParsed_nil (ih h)

theorem assigned_of_assignPositionals {args : List ArgSpec} {tokens : List (Nat × String)}
    {gifts : List (Gift F)} (h : c.Holds gifts) (hLength : tokens.length ≤ args.length)
    (hNone : (assignPositionals fmt args tokens c).diagnostics = []) :
    ∃ assigned, Assigned fmt args (tokens.map Prod.snd) assigned ∧
      (assignPositionals fmt args tokens c).Holds (gifts ++ assigned) := by
  induction args generalizing tokens c gifts with
  | nil =>
    obtain rfl := List.eq_nil_of_length_eq_zero (Nat.le_zero.mp hLength)
    exact ⟨[], .nil _, by rwa [List.append_nil]⟩
  | cons arg args ih =>
    cases tokens with
    | nil =>
      have hHead := assignPositionals_nil (c := if arg.optional then c
        else c.report .missingRequired "Missing required positional argument" none) hNone
      rw [assignPositionals] at hNone ⊢
      split at hHead
      · next hOptional =>
        rw [if_pos hOptional] at hNone ⊢
        obtain ⟨assigned, hAssigned, hHolds⟩ := ih h (Nat.zero_le _) hNone
        cases hAssigned
        exact ⟨[], .nil _, hHolds⟩
      · exact absurd hHead (report_ne_nil _ _ _)
    | cons token tokens =>
      obtain ⟨value, hValue, hSet⟩ := setParsed_eq (@assignPositionals_nil _ _ _ args tokens hNone)
      rw [assignPositionals, hSet] at hNone ⊢
      obtain ⟨assigned, hAssigned, hHolds⟩ := ih (h.set arg value) (Nat.le_of_succ_le_succ hLength) hNone
      refine ⟨_, .cons hValue hAssigned, ?_⟩
      rwa [List.append_assoc] at hHolds

theorem reportExcess_eq (h : (reportExcess op c).diagnostics = []) :
    reportExcess op c = c ∧ c.positionals.length ≤ op.positionalSpecs.length := by
  unfold reportExcess at h ⊢
  split at h
  · exact absurd h (report_ne_nil _ _ _)
  · next hNone => exact ⟨rfl, List.getElem?_eq_none_iff.mp hNone⟩

theorem lookup_foldl_applyDefault {args : List ArgSpec} {table : Table String (TypedValue F)} {id : String}
    (h : id ∈ table) : (args.foldl (applyDefault fmt) table).lookup id = table.lookup id := by
  induction args generalizing table with
  | nil => rfl
  | cons arg args ih =>
    have hMem : id ∈ applyDefault fmt table arg := @mem_of_mem_foldl_applyDefault _ fmt [arg] _ _ h
    rw [List.foldl_cons, ih hMem]
    unfold applyDefault
    split
    · rfl
    · next hAbsent =>
      split
      · rw [Table.lookup_insert, if_neg fun hSame : id = arg.id => hAbsent (hSame ▸ h)]
      · rfl

/-- What a command line that compiles has read, and where it is found. -/
structure Accepted (fmt : Formats F) (op : OperationSpec) (argv : List String) (items : List (Item F))
    (assigned : List (Gift F)) (c : Compiling F) : Prop where
  explains : Explains fmt op setFlag argv items
  assigns : Assigned fmt op.positionalSpecs (positionalTokens items) assigned
  lookup : ∀ id value, occurrencesOf id (givens items ++ assigned) ≠ [] → c.args.lookup id = some value →
    ∃ gift ∈ givens items ++ assigned, gift.1.id = id ∧ gift.2 = value
  found : ∀ gift ∈ givens items ++ assigned, ∃ value, c.args.lookup gift.1.id = some value
  once : ∀ arg ∈ op.args, arg.repeatable = false →
    (occurrencesOf arg.id (givens items ++ assigned)).length ≤ 1
  required : ∀ arg ∈ op.args, arg.optional = false → occurrencesOf arg.id (givens items ++ assigned) ≠ []

theorem validateArg_eq_nil {arg : ArgSpec} {count : Nat} : validateArg arg count = [] ↔
    (arg.optional = false → count ≠ 0) ∧ (arg.repeatable = false → count ≤ 1) := by
  unfold validateArg
  cases arg.optional <;> cases arg.repeatable <;> simp

theorem accepted_of_compileArgs {argv : List String} {offset : Nat}
    (h : (compileArgs fmt op argv offset).diagnostics = []) :
    ∃ items assigned, Accepted fmt op argv items assigned (compileArgs fmt op argv offset) := by
  let read := readTokens fmt op argv offset false .empty
  let filled := assignPositionals fmt op.positionalSpecs read.positionals (reportExcess op read)
  obtain ⟨hFilled, hValid⟩ := List.append_eq_nil_iff.mp (show filled.diagnostics ++ op.args.flatMap (fun arg =>
    validateArg arg ((filled.occurrences.lookup arg.id).getD 0)) = [] from h)
  have hExcess : (reportExcess op read).diagnostics = [] :=
    @assignPositionals_nil _ fmt _ op.positionalSpecs read.positionals hFilled
  obtain ⟨hSame, hLength⟩ := reportExcess_eq hExcess
  have hRead : read.diagnostics = [] := hSame ▸ hExcess
  obtain ⟨items, hExplains, hHolds, hPositionals⟩ := explains_of_readTokens holds_empty hRead
  have hFilled' : (assignPositionals fmt op.positionalSpecs read.positionals read).diagnostics = [] :=
    (congrArg (fun c => (assignPositionals fmt op.positionalSpecs read.positionals c).diagnostics) hSame.symm).trans
      hFilled
  obtain ⟨assigned, hAssigned, hAll⟩ := assigned_of_assignPositionals hHolds hLength hFilled'
  rw [List.nil_append] at hAll
  have hAll : filled.Holds (givens items ++ assigned) := by
    change (assignPositionals fmt op.positionalSpecs read.positionals (reportExcess op read)).Holds _
    rw [hSame]
    exact hAll
  have hLookup : ∀ gift ∈ givens items ++ assigned,
      (compileArgs fmt op argv offset).args.lookup gift.1.id = filled.args.lookup gift.1.id :=
    fun gift hGift => lookup_foldl_applyDefault (hAll.mem gift hGift)
  have hArg : ∀ arg ∈ op.args, (arg.optional = false → (occurrencesOf arg.id (givens items ++ assigned)) ≠ []) ∧
      (arg.repeatable = false → (occurrencesOf arg.id (givens items ++ assigned)).length ≤ 1) := by
    intro arg hArg
    have hCount := validateArg_eq_nil.mp (List.flatMap_eq_nil_iff.mp hValid arg hArg)
    rw [hAll.count arg.id] at hCount
    refine ⟨fun hOptional => ?_, fun hRepeatable => ?_⟩
    · have := hCount.1 hOptional
      exact List.ne_nil_of_length_pos (by omega)
    · have := hCount.2 hRepeatable
      omega
  rw [hPositionals] at hAssigned
  refine ⟨items, assigned, hExplains, hAssigned, fun id value hGiven hValue => ?_, fun gift hGift => ?_,
    fun arg hMem => (hArg arg hMem).2, fun arg hMem => (hArg arg hMem).1⟩
  · obtain ⟨gift, hGift⟩ := List.exists_mem_of_ne_nil _ hGiven
    obtain ⟨hMem, hId⟩ := List.mem_filter.mp hGift
    obtain rfl := of_decide_eq_true hId
    rw [hLookup gift hMem] at hValue
    exact hAll.lookup _ _ hValue
  · obtain ⟨value, hValue⟩ := Option.isSome_iff_exists.mp (AList.lookup_isSome.mpr (hAll.mem gift hGift))
    exact ⟨value, (hLookup gift hGift).trans hValue⟩

/-! ## Two explanations of one command line -/

section

theorem exists_related {α β : Type*} {R : α → β → Prop} {l : List α} {l' : List β} (h : List.Forall₂ R l l') :
    (∀ a ∈ l, ∃ b ∈ l', R a b) ∧ ∀ b ∈ l', ∃ a ∈ l, R a b := by
  induction h with
  | nil => exact ⟨nofun, nofun⟩
  | cons hHead hTail ih =>
    refine ⟨List.forall_mem_cons.mpr ⟨⟨_, List.mem_cons_self, hHead⟩, fun a ha => ?_⟩,
      List.forall_mem_cons.mpr ⟨⟨_, List.mem_cons_self, hHead⟩, fun b hb => ?_⟩⟩
    · obtain ⟨b, hb, hR⟩ := ih.1 a ha
      exact ⟨b, List.mem_cons_of_mem _ hb, hR⟩
    · obtain ⟨a, ha, hR⟩ := ih.2 b hb
      exact ⟨a, List.mem_cons_of_mem _ ha, hR⟩

variable {flagValue : Option String → Option (TypedValue F)} {tokens argv : List String} {items : List (Item F)}
  {assigned : List (Gift F)}

theorem takesNext_of_named {token : String} {arg : ArgSpec} {inline : Option String}
    (h : op.named token = some (some arg, inline)) :
    op.takesNext token = (inline.isNone && decide (arg.kind = .option)) := by
  rw [takesNext_eq, h]
  rfl

theorem mentions_named {token : String} {arg : ArgSpec} {inline : Option String} (hToken : token ≠ "--")
    (hNamed : op.named token = some (some arg, inline)) (rest : List String) :
    op.namedIn false (token :: rest) = (arg, inline) :: op.namedIn (op.takesNext token) rest ∧
    op.positionalsIn false (token :: rest) = op.positionalsIn (op.takesNext token) rest := by
  constructor
  · rw [OperationSpec.namedIn, if_neg nofun, if_neg hToken, hNamed]
  · rw [OperationSpec.positionalsIn, if_neg nofun, if_neg hToken, hNamed]

theorem mentions_plain {token : String} (hToken : token ≠ "--") (hNamed : op.named token = none)
    (rest : List String) :
    op.namedIn false (token :: rest) = op.namedIn false rest ∧
    op.positionalsIn false (token :: rest) = op.positionalsIn false rest + 1 := by
  have hTakes : op.takesNext token = false := (takesNext_eq token).trans (by rw [hNamed]; rfl)
  constructor
  · rw [OperationSpec.namedIn, if_neg nofun, if_neg hToken, hNamed, hTakes]
  · rw [OperationSpec.positionalsIn, if_neg nofun, if_neg hToken, hNamed, hTakes]

/-- What a command line gives goes to the arguments that it names, and the rest is positional. -/
theorem Explains.mentions (h : Explains fmt op flagValue tokens items) :
    List.Forall₂ (fun (m : ArgSpec × Option String) (gift : Gift F) =>
      m.1 = gift.1 ∧ (m.1.kind = .flag → flagValue m.2 = some gift.2)) (op.namedIn false tokens) (givens items) ∧
    op.positionalsIn false tokens = (positionalTokens items).length := by
  induction h with
  | nil => exact ⟨.nil, rfl⟩
  | separator tail =>
    rw [givens_map, positionalTokens_map]
    exact ⟨.nil, rfl⟩
  | flag hToken hNamed hKind hValue hRest ih =>
    have hTakes := takesNext_of_named hNamed
    rw [hKind, decide_eq_false nofun, Bool.and_false] at hTakes
    obtain ⟨hIn, hCount⟩ := mentions_named hToken hNamed _
    rw [hIn, hCount, hTakes]
    exact ⟨.cons ⟨rfl, fun _ => hValue⟩ ih.1, ih.2⟩
  | inline hToken hNamed hKind hValue hRest ih =>
    have hTakes := takesNext_of_named hNamed
    obtain ⟨hIn, hCount⟩ := mentions_named hToken hNamed _
    rw [hIn, hCount, hTakes]
    exact ⟨.cons ⟨rfl, fun hFlag => nomatch hKind.symm.trans hFlag⟩ ih.1, ih.2⟩
  | separate hToken hNamed hKind hValue hRest ih =>
    have hTakes := takesNext_of_named hNamed
    rw [hKind, decide_eq_true rfl] at hTakes
    obtain ⟨hIn, hCount⟩ := mentions_named hToken hNamed _
    rw [hIn, hCount, hTakes]
    exact ⟨.cons ⟨rfl, fun hFlag => nomatch hKind.symm.trans hFlag⟩ ih.1, ih.2⟩
  | positional hToken hNamed hRest ih =>
    obtain ⟨hIn, hCount⟩ := mentions_plain hToken hNamed _
    rw [hIn, hCount]
    exact ⟨ih.1, congrArg (· + 1) ih.2⟩

theorem Assigned.map_fst {args : List ArgSpec} (h : Assigned fmt args tokens assigned) :
    assigned.map Prod.fst = args.take tokens.length := by
  induction h with
  | nil args => rfl
  | cons hValue hRest ih => exact congrArg (_ :: ·) ih

/-- The gifts of a command line, by their arguments. -/
theorem map_fst_eq_givenIn (hExplains : Explains fmt op flagValue argv items)
    (hAssigned : Assigned fmt op.positionalSpecs (positionalTokens items) assigned) :
    (givens items ++ assigned).map Prod.fst = op.givenIn argv := by
  have hNamed : (op.namedIn false argv).map Prod.fst = (givens items).map Prod.fst := by
    have hForall := hExplains.mentions.1.imp (S := fun m gift => m.1 = gift.1) fun _ _ hBoth => hBoth.1
    exact List.forall₂_eq_eq_eq ▸ List.forall₂_map_left_iff.mpr (List.forall₂_map_right_iff.mpr hForall)
  rw [OperationSpec.givenIn, List.map_append, hNamed, hAssigned.map_fst, hExplains.mentions.2]

theorem parseValue_ne_array {kind : ValueType} {token : String} {value : TypedValue F}
    (h : parseValue fmt kind token = some value) (values : List (TypedValue F)) : value ≠ .array values := by
  rintro rfl
  unfold parseValue at h
  cases kind with
  | bool =>
    dsimp only at h
    split at h <;> cases h
  | int =>
    obtain ⟨_, -, hValue⟩ := Option.map_eq_some_iff.mp h
    cases hValue
  | float =>
    obtain ⟨_, -, hValue⟩ := Option.map_eq_some_iff.mp h
    cases hValue
  | string => cases h
  | path => cases h
  | json =>
    obtain ⟨_, -, hValue⟩ := Option.map_eq_some_iff.mp h
    cases hValue
  | enum allowed =>
    dsimp only at h
    split at h <;> cases h

theorem eq_true_of_parse {text : String} (h : parseValue fmt .bool text = some (.bool true)) :
    text = "true" := by
  unfold parseValue at h
  dsimp only at h
  split at h
  · rfl
  · cases h
  · cases h

theorem eq_singleton_of_mem {α : Type*} {a : α} {l : List α} (h : a ∈ l) (hLength : l.length ≤ 1) : l = [a] := by
  match l with
  | [b] => rw [List.mem_singleton.mp h]
  | _ :: _ :: _ => exact absurd hLength (by simp)

theorem Explains.ne_array (h : Explains fmt op setFlag tokens items) :
    ∀ gift ∈ givens items, ∀ values, gift.2 ≠ .array values := by
  induction h with
  | nil => exact List.forall_mem_nil _
  | separator tail =>
    rw [givens_map]
    exact List.forall_mem_nil _
  | flag hToken hNamed hKind hValue hRest ih =>
    refine List.forall_mem_cons.mpr ⟨fun values hArray => ?_, ih⟩
    cases hValue
    exact nomatch hArray
  | inline hToken hNamed hKind hValue hRest ih =>
    exact List.forall_mem_cons.mpr ⟨parseValue_ne_array hValue, ih⟩
  | separate hToken hNamed hKind hValue hRest ih =>
    exact List.forall_mem_cons.mpr ⟨parseValue_ne_array hValue, ih⟩
  | positional hToken hNamed hRest ih => exact ih

theorem Assigned.ne_array {args : List ArgSpec} (h : Assigned fmt args tokens assigned) :
    ∀ gift ∈ assigned, ∀ values, gift.2 ≠ .array values := by
  induction h with
  | nil args => exact List.forall_mem_nil _
  | cons hValue hRest ih => exact List.forall_mem_cons.mpr ⟨parseValue_ne_array hValue, ih⟩

theorem Explains.decided (h : Explains fmt op setFlag tokens items)
    (hFlags : ∀ arg inline, (arg, inline) ∈ op.namedIn false tokens → arg.kind = .flag →
      inline = none ∨ inline = some "true") : Explains fmt op (decidedFlag fmt) tokens items := by
  induction h with
  | nil => exact .nil
  | separator tail => exact .separator tail
  | flag hToken hNamed hKind hValue hRest ih =>
    have hTakes := takesNext_of_named hNamed
    rw [hKind, decide_eq_false nofun, Bool.and_false] at hTakes
    rw [(mentions_named hToken hNamed _).1, hTakes] at hFlags
    cases hValue
    refine .flag hToken hNamed hKind ?_
      (ih fun arg inline hMem => hFlags arg inline (List.mem_cons_of_mem _ hMem))
    rcases hFlags _ _ List.mem_cons_self hKind with rfl | rfl
    · rfl
    · rfl
  | inline hToken hNamed hKind hValue hRest ih =>
    rw [(mentions_named hToken hNamed _).1, takesNext_of_named hNamed] at hFlags
    exact .inline hToken hNamed hKind hValue (ih fun arg inline hMem =>
      hFlags arg inline (List.mem_cons_of_mem _ hMem))
  | separate hToken hNamed hKind hValue hRest ih =>
    rw [(mentions_named hToken hNamed _).1, takesNext_of_named hNamed, hKind, decide_eq_true rfl] at hFlags
    exact .separate hToken hNamed hKind hValue (ih fun arg inline hMem =>
      hFlags arg inline (List.mem_cons_of_mem _ hMem))
  | positional hToken hNamed hRest ih =>
    rw [(mentions_plain hToken hNamed _).1] at hFlags
    exact .positional hToken hNamed (ih hFlags)

/-- Gifts of which those to one argument are all flags once there are two of them. -/
def SingleGifts (gifts : List (Gift F)) : Prop :=
  gifts.Pairwise fun gift gift' => gift.1.id = gift'.1.id → gift.1.kind = .flag ∧ gift'.1.kind = .flag

theorem singleGifts_iff {gifts : List (Gift F)} {args : List ArgSpec} (h : gifts.map Prod.fst = args) :
    SingleGifts gifts ↔
      args.Pairwise fun arg arg' => arg.id = arg'.id → arg.kind = .flag ∧ arg'.kind = .flag := by
  rw [← h, List.pairwise_map]
  rfl

theorem mem_occurrencesOf {id : String} {gifts : List (Gift F)} {gift : Gift F} :
    gift ∈ occurrencesOf id gifts ↔ gift ∈ gifts ∧ gift.1.id = id := by
  rw [occurrencesOf, List.mem_filter, decide_eq_true_iff]

theorem length_occurrencesOf {gifts : List (Gift F)} {gift gift' : Gift F} (h : [gift, gift'].Sublist gifts)
    (hId : gift.1.id = gift'.1.id) : 1 < (occurrencesOf gift.1.id gifts).length := by
  have hFilter := h.filter fun g : Gift F => g.1.id = gift.1.id
  have hBoth : [gift, gift'].filter (fun g : Gift F => g.1.id = gift.1.id) = [gift, gift'] := by
    rw [List.filter_eq_self]
    simp [hId]
  rw [hBoth] at hFilter
  exact hFilter.length_le

namespace Accepted

theorem flags (h : Accepted fmt op argv items assigned c) {gift : Gift F}
    (hGift : gift ∈ givens items ++ assigned)
    (hKind : gift.1.kind = .flag) : gift.2 = .bool true := by
  rcases List.mem_append.mp hGift with hGiven | hAssigned
  · obtain ⟨m, -, hArg, hFlag⟩ := (exists_related h.explains.mentions.1).2 gift hGiven
    exact (Option.some.inj (hFlag (hArg ▸ hKind))).symm
  · have hArg : gift.1 ∈ op.positionalSpecs := by
      refine List.mem_of_mem_take (i := (positionalTokens items).length) ?_
      rw [← h.assigns.map_fst]
      exact List.mem_map_of_mem hAssigned
    have hPositional := of_decide_eq_true (List.mem_filter.mp hArg).2
    exact nomatch hKind.symm.trans hPositional

theorem ne_array (h : Accepted fmt op argv items assigned c) {gift : Gift F}
    (hGift : gift ∈ givens items ++ assigned) (values : List (TypedValue F)) : gift.2 ≠ .array values := by
  rcases List.mem_append.mp hGift with hGiven | hAssigned
  · exact h.explains.ne_array gift hGiven values
  · exact h.assigns.ne_array gift hAssigned values

theorem map_fst (h : Accepted fmt op argv items assigned c) :
    (givens items ++ assigned).map Prod.fst = op.givenIn argv :=
  map_fst_eq_givenIn h.explains h.assigns

theorem exists_kept (h : Accepted fmt op argv items assigned c) {id : String}
    (hGiven : occurrencesOf id (givens items ++ assigned) ≠ []) :
    ∃ gift ∈ occurrencesOf id (givens items ++ assigned), c.args.lookup id = some gift.2 := by
  obtain ⟨gift, hGift⟩ := List.exists_mem_of_ne_nil _ hGiven
  obtain ⟨hMem, rfl⟩ := mem_occurrencesOf.mp hGift
  obtain ⟨value, hValue⟩ := h.found gift hMem
  obtain ⟨gift', hMem', hId, rfl⟩ := h.lookup _ value hGiven hValue
  exact ⟨gift', mem_occurrencesOf.mpr ⟨hMem', hId⟩, hValue⟩

theorem faithful_of_single (h : Accepted fmt op argv items assigned c) (hSingle : op.SingleIn argv) :
    Faithful fmt op argv c := by
  have hPairwise : SingleGifts (givens items ++ assigned) := (singleGifts_iff h.map_fst).mpr hSingle.single
  refine ⟨items, assigned, h.explains.decided hSingle.flags, h.assigns, ⟨fun id => ?_, h.once, h.required⟩⟩
  have hGroup := hPairwise.sublist (List.filter_sublist (p := fun gift : Gift F => gift.1.id = id))
  have hKept : occurrencesOf id (givens items ++ assigned) ≠ [] →
      ∃ gift ∈ occurrencesOf id (givens items ++ assigned), c.args.lookup id = some gift.2 := h.exists_kept
  have hMem : ∀ gift ∈ occurrencesOf id (givens items ++ assigned),
      gift ∈ givens items ++ assigned ∧ gift.1.id = id := fun _ => mem_occurrencesOf.mp
  change (occurrencesOf id (givens items ++ assigned)).Pairwise _ at hGroup
  generalize occurrencesOf id (givens items ++ assigned) = group at hGroup hKept hMem
  match group with
  | [] => trivial
  | [gift] =>
    obtain ⟨gift', hGift', hLookup⟩ := hKept (List.cons_ne_nil _ _)
    obtain rfl := List.mem_singleton.mp hGift'
    exact hLookup
  | first :: second :: rest =>
    obtain ⟨hFirst, -⟩ := List.pairwise_cons.mp hGroup
    have hSame : ∀ gift ∈ first :: second :: rest, gift.1.id = first.1.id := fun gift hGift =>
      (hMem gift hGift).2.trans (hMem first List.mem_cons_self).2.symm
    have hSet : ∀ gift ∈ first :: second :: rest, IsSet gift := by
      intro gift hGift
      have hKind : gift.1.kind = .flag := by
        rcases List.mem_cons.mp hGift with rfl | hLater
        · exact (hFirst second List.mem_cons_self (hSame second (by simp)).symm).1
        · exact (hFirst gift hLater (hSame gift hGift).symm).2
      exact ⟨hKind, h.flags (hMem gift hGift).1 hKind⟩
    obtain ⟨gift, hGift, hLookup⟩ := hKept (List.cons_ne_nil _ _)
    refine .inl ⟨hSet, ?_⟩
    rw [hLookup, (hSet gift hGift).2]

theorem isSet_of_keeps (h : Accepted fmt op argv items assigned c) {id : String} {group : List (Gift F)}
    (hLength : 1 < group.length) (hGroup : group.length = (occurrencesOf id (givens items ++ assigned)).length)
    (hKeeps : Keeps group (c.args.lookup id)) : ∀ gift ∈ group, IsSet gift := by
  match group with
  | first :: second :: rest =>
    rcases hKeeps with ⟨hSet, -⟩ | hArray
    · exact hSet
    · have hGiven : occurrencesOf id (givens items ++ assigned) ≠ [] := by
        intro hNone
        rw [hNone] at hGroup
        exact nomatch hGroup
      obtain ⟨gift, hGift, hLookup⟩ := h.exists_kept hGiven
      have hValue : gift.2 = .array _ := Option.some.inj (hLookup.symm.trans hArray)
      exact absurd hValue (h.ne_array (mem_occurrencesOf.mp hGift).1 _)

theorem single_of_faithful (h : Accepted fmt op argv items assigned c) (hFaithful : Faithful fmt op argv c) :
    op.SingleIn argv := by
  obtain ⟨items', assigned', hExplains, hAssigned, hTo⟩ := hFaithful
  have hFst := map_fst_eq_givenIn hExplains hAssigned
  have hGroups : ∀ id, (occurrencesOf id (givens items' ++ assigned')).map Prod.fst =
      (occurrencesOf id (givens items ++ assigned)).map Prod.fst := by
    intro id
    have hFilter : ∀ gifts : List (Gift F), (occurrencesOf id gifts).map Prod.fst =
        (gifts.map Prod.fst).filter fun arg => arg.id = id := by
      intro gifts
      rw [List.filter_map]
      rfl
    rw [hFilter, hFilter, hFst, h.map_fst]
  have hLengths : ∀ id, (occurrencesOf id (givens items' ++ assigned')).length =
      (occurrencesOf id (givens items ++ assigned)).length := by
    intro id
    rw [← List.length_map Prod.fst, hGroups, List.length_map]
  have hSet : ∀ id, 1 < (occurrencesOf id (givens items' ++ assigned')).length →
      ∀ gift ∈ occurrencesOf id (givens items' ++ assigned'), IsSet gift :=
    fun id hLength => h.isSet_of_keeps hLength (hLengths id) (hTo.kept id)
  constructor
  · intro arg inline hMem hKind
    obtain ⟨gift, hGift, rfl, hDecided⟩ := (exists_related hExplains.mentions.1).1 _ hMem
    have hDecided := hDecided hKind
    have hIn : gift ∈ occurrencesOf gift.1.id (givens items' ++ assigned') :=
      mem_occurrencesOf.mpr ⟨List.mem_append_left _ hGift, rfl⟩
    have hTrue : gift.2 = .bool true := by
      by_cases hLength : 1 < (occurrencesOf gift.1.id (givens items' ++ assigned')).length
      · exact (hSet _ hLength gift hIn).2
      · have hOne : occurrencesOf gift.1.id (givens items' ++ assigned') = [gift] :=
          eq_singleton_of_mem hIn (Nat.not_lt.mp hLength)
        have hKept := hTo.kept gift.1.id
        have hArgs := hGroups gift.1.id
        rw [hOne] at hKept hArgs
        have hGiven : occurrencesOf gift.1.id (givens items ++ assigned) ≠ [] := by
          intro hNone
          rw [hNone] at hArgs
          exact nomatch hArgs
        obtain ⟨kept, hMem', hLookup⟩ := h.exists_kept hGiven
        have hArg : kept.1 = gift.1 := by
          have hIn' := List.mem_map_of_mem (f := Prod.fst) hMem'
          rw [← hArgs] at hIn'
          exact List.mem_singleton.mp hIn'
        have hValue := h.flags (mem_occurrencesOf.mp hMem').1 (hArg ▸ hKind)
        exact (Option.some.inj (hKept.symm.trans hLookup)).trans hValue
    cases inline with
    | none => exact .inl rfl
    | some text =>
      rw [hTrue] at hDecided
      exact .inr (congrArg some (@eq_true_of_parse _ fmt text hDecided))
  · refine (singleGifts_iff hFst).mp (List.pairwise_iff_forall_sublist.mpr fun {gift gift'} hSublist hId => ?_)
    have hLength := length_occurrencesOf hSublist hId
    have hFirst : gift ∈ occurrencesOf gift.1.id (givens items' ++ assigned') :=
      mem_occurrencesOf.mpr ⟨hSublist.subset List.mem_cons_self, rfl⟩
    have hSecond : gift' ∈ occurrencesOf gift.1.id (givens items' ++ assigned') :=
      mem_occurrencesOf.mpr ⟨hSublist.subset (List.mem_cons_of_mem _ (List.mem_singleton_self _)), hId.symm⟩
    exact ⟨(hSet _ hLength gift hFirst).1, (hSet _ hLength gift' hSecond).1⟩

end Accepted

end

/-- A command line that compiles is compiled faithfully exactly when no flag has an inline value but
`true` and nothing but a flag is given twice. -/
theorem faithful_iff (fmt : Formats F) (op : OperationSpec) (argv : List String) (offset : Nat)
    (hAccepted : (compileArgs fmt op argv offset).diagnostics = []) :
    Faithful fmt op argv (compileArgs fmt op argv offset) ↔ op.SingleIn argv := by
  obtain ⟨items, assigned, h⟩ := accepted_of_compileArgs hAccepted
  exact ⟨h.single_of_faithful, h.faithful_of_single⟩

theorem faithful_strike : Faithful sampleFormats strikeStart strikeTokens
    (compileArgs sampleFormats strikeStart strikeTokens 0) := by
  refine (faithful_iff sampleFormats strikeStart strikeTokens 0 (by decide)).mpr ⟨?_, by decide⟩
  have hOptions : ∀ m ∈ strikeStart.namedIn false strikeTokens, m.1.kind ≠ .flag := by decide
  exact fun arg inline hMem hKind => absurd hKind (hOptions _ hMem)

def tagArgs : OperationSpec :=
  ⟨[⟨"verbose", "verbose", .flag, .bool, true, none, none, false⟩,
    ⟨"tag", "tag", .option, .string, true, none, none, true⟩]⟩

def tagTokens : List String := ["--verbose=false", "--tag", "a", "--tag", "b"]

/-- The flag is set against its value, and of the repeated option the last value alone is kept. -/
theorem tags_are_lost :
    (compileArgs sampleFormats tagArgs tagTokens 0).diagnostics = [] ∧
    (∃ b, (compileArgs sampleFormats tagArgs tagTokens 0).args.lookup "verbose" = some (.bool b) ∧ b = true) ∧
    (∃ s, (compileArgs sampleFormats tagArgs tagTokens 0).args.lookup "tag" = some (.string s) ∧ s = "b") ∧
    ¬ Faithful sampleFormats tagArgs tagTokens (compileArgs sampleFormats tagArgs tagTokens 0) := by
  have hAccepted : (compileArgs sampleFormats tagArgs tagTokens 0).diagnostics = [] := by decide
  refine ⟨hAccepted, ⟨true, rfl, rfl⟩, ⟨"b", rfl, rfl⟩, fun hFaithful => ?_⟩
  obtain ⟨items, assigned, h⟩ := accepted_of_compileArgs hAccepted
  exact absurd (h.single_of_faithful hFaithful).single (by decide)

end Exosuit.Command
