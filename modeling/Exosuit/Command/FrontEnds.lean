import Exosuit.Command.Readers

/-!
# Agreement of the front ends

When a compiled command line reads back from its own JSON, when a JSON object
loses no key, and when both front ends treat an argument that is left out alike.
-/

namespace Exosuit.Command

open Lib (Json Table)

variable {F : Type*} {fmt : Formats F} {op : OperationSpec}

/-! ## The command line -/

/-- What the command line gives an argument: a flag that is set, or a token that parses. -/
inductive Given (fmt : Formats F) (arg : ArgSpec) : TypedValue F → Prop
  | flag (hKind : arg.kind = .flag) : Given fmt arg (.bool true)
  | token {token : String} {value : TypedValue F} (hParse : parseValue fmt arg.valueType token = some value) :
    Given fmt arg value

def AllGiven (fmt : Formats F) (op : OperationSpec) (args : Table String (TypedValue F)) : Prop :=
  ∀ id value, args.lookup id = some value → ∃ arg ∈ op.args, arg.id = id ∧ Given fmt arg value

theorem AllGiven.insert {args : Table String (TypedValue F)} (h : AllGiven fmt op args) {arg : ArgSpec}
    (hArg : arg ∈ op.args) {value : TypedValue F} (hGiven : Given fmt arg value) :
    AllGiven fmt op (AList.insert arg.id value args) := by
  intro id value' hLookup
  rw [Table.lookup_insert] at hLookup
  split at hLookup
  · next hId =>
    cases hLookup
    exact ⟨arg, hArg, hId.symm, hGiven⟩
  · exact h id value' hLookup

/-- The values of a command line are given to its arguments, and only they are counted. -/
structure Compiling.Known (fmt : Formats F) (op : OperationSpec) (c : Compiling F) : Prop where
  args : AllGiven fmt op c.args
  occurrences : ∀ id ∈ c.occurrences, id ∈ c.args

namespace Compiling.Known

variable {c : Compiling F}

theorem empty : (Compiling.empty : Compiling F).Known fmt op where
  args _ _ h := by cases h
  occurrences _ h := absurd h (AList.notMem_empty _)

theorem report (h : c.Known fmt op) (code : DiagnosticCode) (message : String) (span : Option Nat) :
    (c.report code message span).Known fmt op :=
  ⟨h.args, h.occurrences⟩

theorem push (h : c.Known fmt op) (positionals : List (Nat × String)) : (c.push positionals).Known fmt op :=
  ⟨h.args, h.occurrences⟩

theorem set (h : c.Known fmt op) {arg : ArgSpec} (hArg : arg ∈ op.args) {value : TypedValue F}
    (hGiven : Given fmt arg value) : (c.set arg.id value).Known fmt op where
  args := h.args.insert hArg hGiven
  occurrences id hId := by
    refine (AList.mem_insert _).mpr ?_
    rcases (AList.mem_insert _).mp hId with rfl | hOld
    · exact .inl rfl
    · exact .inr (h.occurrences id hOld)

theorem setParsed (h : c.Known fmt op) {arg : ArgSpec} (hArg : arg ∈ op.args) (token message : String)
    (span : Nat) : (c.setParsed fmt arg token message span).Known fmt op := by
  unfold Compiling.setParsed
  split
  · next hParse => exact h.set hArg (.token hParse)
  · exact h.report _ _ _

theorem readNamed (h : c.Known fmt op) {found : Option ArgSpec}
    (hFound : ∀ arg, found = some arg → arg ∈ op.args) (shown : String) (inline next : Option String)
    (i : Nat) : (readNamed fmt found shown inline next i c).1.Known fmt op := by
  unfold Command.readNamed
  split
  · exact h.report _ _ _
  · next arg =>
    have hArg := hFound arg rfl
    split
    · next hKind => exact h.set hArg (.flag hKind)
    · split
      · exact h.setParsed hArg _ _ _
      · split
        · exact h.report _ _ _
        · exact h.setParsed hArg _ _ _
    · exact h.report _ _ _

theorem readToken (h : c.Known fmt op) (token : String) (next : Option String) (i : Nat) :
    (readToken fmt op token next i c).1.Known fmt op := by
  have hLong : ∀ name arg, op.byLong name = some arg → arg ∈ op.args := fun name arg hFound =>
    List.mem_reverse.mp (List.mem_of_find?_eq_some hFound)
  have hShort : ∀ ch arg, op.byShort ch = some arg → arg ∈ op.args := fun ch arg hFound =>
    List.mem_reverse.mp (List.mem_of_find?_eq_some hFound)
  unfold Command.readToken
  split
  · split
    exact h.readNamed (hLong _) _ _ _ _
  · split
    · exact h.readNamed (hShort _) _ _ _ _
    · exact h.push _

theorem readTokens {tokens : List String} {i : Nat} {skip : Bool} (h : c.Known fmt op) :
    (readTokens fmt op tokens i skip c).Known fmt op := by
  induction tokens generalizing i skip c with
  | nil => exact h
  | cons token rest ih =>
    cases skip with
    | true => exact ih h
    | false =>
      unfold Command.readTokens
      split
      · exact h.push _
      · exact ih (h.readToken token rest.head? i)

theorem reportExcess (h : c.Known fmt op) : (reportExcess op c).Known fmt op := by
  unfold Command.reportExcess
  split
  · exact h.report _ _ _
  · exact h

theorem assignPositionals {args : List ArgSpec} {tokens : List (Nat × String)}
    (hArgs : ∀ arg ∈ args, arg ∈ op.args) (h : c.Known fmt op) :
    (assignPositionals fmt args tokens c).Known fmt op := by
  induction args generalizing tokens c with
  | nil => exact h
  | cons arg args ih =>
    obtain ⟨hArg, hRest⟩ := List.forall_mem_cons.mp hArgs
    cases tokens with
    | nil =>
      refine ih hRest ?_
      split
      · exact h
      · exact h.report _ _ _
    | cons token tokens => exact ih hRest (h.setParsed hArg _ _ _)

end Compiling.Known

theorem AllGiven.applyDefaults {args : List ArgSpec} {table : Table String (TypedValue F)}
    (hArgs : ∀ arg ∈ args, arg ∈ op.args) (h : AllGiven fmt op table) :
    AllGiven fmt op (args.foldl (applyDefault fmt) table) := by
  induction args generalizing table with
  | nil => exact h
  | cons arg args ih =>
    obtain ⟨hArg, hRest⟩ := List.forall_mem_cons.mp hArgs
    refine ih hRest ?_
    unfold applyDefault
    split
    · exact h
    · split
      · next value hValue =>
        obtain ⟨default, -, hParse⟩ := Option.bind_eq_some_iff.mp hValue
        exact h.insert hArg (.token hParse)
      · exact h

theorem mem_of_mem_foldl_applyDefault {args : List ArgSpec} {table : Table String (TypedValue F)}
    {id : String} (h : id ∈ table) : id ∈ args.foldl (applyDefault fmt) table := by
  induction args generalizing table with
  | nil => exact h
  | cons arg args ih =>
    refine ih ?_
    unfold applyDefault
    split
    · exact h
    · split
      · exact (AList.mem_insert _).mpr (.inr h)
      · exact h

theorem validateArg_zero {arg : ArgSpec} : validateArg arg 0 = [] ↔ arg.optional = true := by
  unfold validateArg
  cases arg.optional <;> simp

theorem compileArgs_accepted {argv : List String} {offset : Nat}
    (h : (compileArgs fmt op argv offset).diagnostics = []) :
    AllGiven fmt op (compileArgs fmt op argv offset).args ∧
      ∀ arg ∈ op.args, arg.optional = true ∨ arg.id ∈ (compileArgs fmt op argv offset).args := by
  let read := readTokens fmt op argv offset false .empty
  let assigned := assignPositionals fmt op.positionalSpecs read.positionals (reportExcess op read)
  have hKnown : assigned.Known fmt op :=
    .assignPositionals (fun arg hArg => (List.mem_filter.mp hArg).1)
      (Compiling.Known.reportExcess (.readTokens .empty))
  have hValid : ∀ arg ∈ op.args,
      validateArg arg ((assigned.occurrences.lookup arg.id).getD 0) = [] := by
    have hNone : assigned.diagnostics ++ op.args.flatMap (fun arg =>
        validateArg arg ((assigned.occurrences.lookup arg.id).getD 0)) = [] := h
    exact List.flatMap_eq_nil_iff.mp (List.append_eq_nil_iff.mp hNone).2
  refine ⟨hKnown.args.applyDefaults fun _ => id, fun arg hArg => ?_⟩
  cases hCount : assigned.occurrences.lookup arg.id with
  | none =>
    have hArgValid := hValid arg hArg
    rw [hCount] at hArgValid
    exact .inl (validateArg_zero.mp hArgValid)
  | some count =>
    have hMem : arg.id ∈ assigned.occurrences := AList.lookup_isSome.mp (hCount ▸ rfl)
    exact .inr (mem_of_mem_foldl_applyDefault (hKnown.occurrences arg.id hMem))

theorem mem_foldl_applyDefault_of_isSome {args : List ArgSpec} {table : Table String (TypedValue F)}
    {arg : ArgSpec} (hArg : arg ∈ args) (h : (defaultArg fmt arg).isSome = true) :
    arg.id ∈ args.foldl (applyDefault fmt) table := by
  induction args generalizing table with
  | nil => cases hArg
  | cons head args ih =>
    rcases List.mem_cons.mp hArg with rfl | hRest
    · obtain ⟨value, hValue⟩ := Option.isSome_iff_exists.mp h
      have hStep : arg.id ∈ applyDefault fmt table arg := by
        unfold applyDefault
        split
        · next hMem => exact hMem
        · rw [hValue]
          exact (AList.mem_insert _).mpr (.inl rfl)
      rw [List.foldl_cons]
      exact mem_of_mem_foldl_applyDefault hStep
    · exact ih hRest

/-! ## The fields of the input -/

def ReadsAs (fmt : Formats F) (op : OperationSpec) (field : String × Json)
    (reading : String × TypedValue F) : Prop :=
  ∃ arg, op.findArg field.1 = some arg ∧ arg.id = reading.1 ∧
    TypedValue.fromJson fmt field.2 arg = .ok reading.2

theorem readFields_ok {path : List String} {fields : List (String × Json)}
    {args args' : Table String (TypedValue F)} {occurrences occurrences' : Table String Nat} :
    readFields fmt op path fields args occurrences = .ok (args', occurrences') ↔
      ∃ readings, List.Forall₂ (ReadsAs fmt op) fields readings ∧ args' = args.extend readings ∧
        occurrences' = occurrences.extend (readings.map fun r => (r.1, 1)) := by
  induction fields generalizing args occurrences with
  | nil =>
    constructor
    · intro h
      cases h
      exact ⟨[], .nil, rfl, rfl⟩
    · rintro ⟨readings, hReads, rfl, rfl⟩
      cases hReads
      rfl
  | cons field fields ih =>
    obtain ⟨key, value⟩ := field
    constructor
    · intro h
      unfold readFields at h
      split at h
      · cases h
      · next arg hFind =>
        split at h
        · cases h
        · next typed hTyped =>
          obtain ⟨readings, hReads, rfl, rfl⟩ := ih.mp h
          exact ⟨(arg.id, typed) :: readings, .cons ⟨arg, hFind, rfl, hTyped⟩ hReads, rfl, rfl⟩
    · rintro ⟨readings, hReads, rfl, rfl⟩
      cases hReads with
      | @cons _ reading _ readings hHead hTail =>
        obtain ⟨arg, hFind, hId, hTyped⟩ := hHead
        unfold readFields
        rw [hFind]
        dsimp only
        rw [hTyped, hId]
        exact ih.mpr ⟨readings, hTail, rfl, rfl⟩

/-- The arguments that the fields name, in their order. -/
def namedArgs (op : OperationSpec) (fields : List (String × Json)) : List (Option String) :=
  fields.map fun field => (op.findArg field.1).map (·.id)

theorem namedArgs_eq {fields : List (String × Json)} {readings : List (String × TypedValue F)}
    (h : List.Forall₂ (ReadsAs fmt op) fields readings) :
    namedArgs op fields = (readings.map Prod.fst).map some := by
  induction h with
  | nil => rfl
  | cons hHead _ ih =>
    obtain ⟨arg, hFind, hId, -⟩ := hHead
    unfold namedArgs at ih ⊢
    rw [List.map_cons, ih, hFind, Option.map_some, hId]
    rfl

theorem nodup_namedArgs {fields : List (String × Json)} {readings : List (String × TypedValue F)}
    (h : List.Forall₂ (ReadsAs fmt op) fields readings) :
    (namedArgs op fields).Nodup ↔ (readings.map Prod.fst).Nodup := by
  rw [namedArgs_eq h]
  exact List.nodup_map_iff (Option.some_injective String)

/-! ## Arguments that are left out -/

theorem fillArgs_ok {path : List String} {specs : List ArgSpec} {args args' : Table String (TypedValue F)}
    (h : fillArgs fmt path specs args = .ok args') :
    (∀ id value, args.lookup id = some value → args'.lookup id = some value) ∧
      ∀ arg ∈ specs, arg.default.isSome = true → arg.id ∈ args' := by
  induction specs generalizing args with
  | nil =>
    cases h
    exact ⟨fun _ _ h => h, fun _ h => absurd h List.not_mem_nil⟩
  | cons arg specs ih =>
    unfold fillArgs at h
    split at h
    · next hMem =>
      obtain ⟨hKept, hFilled⟩ := ih h
      refine ⟨hKept, List.forall_mem_cons.mpr ⟨fun _ => ?_, hFilled⟩⟩
      obtain ⟨value, hValue⟩ := Option.isSome_iff_exists.mp (AList.lookup_isSome.mpr hMem)
      exact AList.lookup_isSome.mp (hKept _ value hValue ▸ rfl)
    · next hNotMem =>
      split at h
      · cases h
      · next hAbsent =>
        obtain ⟨hKept, hFilled⟩ := ih h
        refine ⟨hKept, List.forall_mem_cons.mpr ⟨fun hDefault => ?_, hFilled⟩⟩
        obtain ⟨default, hSome⟩ := Option.isSome_iff_exists.mp hDefault
        unfold absentArg at hAbsent
        rw [hSome] at hAbsent
        dsimp only at hAbsent
        cases hTyped : typedValueFromDefault fmt arg default with
        | error e =>
          rw [hTyped] at hAbsent
          cases hAbsent
        | ok typed =>
          rw [hTyped] at hAbsent
          cases hAbsent
      · next typed hAbsent =>
        obtain ⟨hKept, hFilled⟩ := ih h
        refine ⟨fun id value hValue => hKept id value ?_, List.forall_mem_cons.mpr ⟨fun _ => ?_, hFilled⟩⟩
        · rw [Table.lookup_insert, if_neg, hValue]
          rintro rfl
          exact hNotMem (AList.lookup_isSome.mp (hValue ▸ rfl))
        · have hSelf : (AList.insert arg.id typed args).lookup arg.id = some typed :=
            AList.lookup_insert args
          exact AList.lookup_isSome.mp (hKept _ typed hSelf ▸ rfl)

theorem fillArgs_same {path : List String} {specs : List ArgSpec} {args : Table String (TypedValue F)}
    (h : ∀ arg ∈ specs, arg.id ∈ args ∨ (arg.default = none ∧ arg.optional = true)) :
    fillArgs fmt path specs args = .ok args := by
  induction specs with
  | nil => rfl
  | cons arg specs ih =>
    obtain ⟨hArg, hRest⟩ := List.forall_mem_cons.mp h
    unfold fillArgs
    split
    · exact ih hRest
    · next hNotMem =>
      obtain ⟨hDefault, hOptional⟩ := hArg.resolve_left hNotMem
      have hAbsent : absentArg fmt path arg = .ok none := by
        unfold absentArg
        rw [hDefault]
        exact if_pos hOptional
      rw [hAbsent]
      exact ih hRest

theorem typedValueFromDefault_of_parseValue {arg : ArgSpec} {default : String} {value : TypedValue F}
    (h : parseValue fmt arg.valueType default = some value) :
    typedValueFromDefault fmt arg default = .ok value := by
  unfold parseValue at h
  unfold typedValueFromDefault
  cases hType : arg.valueType with
  | bool =>
    rw [hType] at h
    dsimp only at h ⊢
    split at h <;> cases h <;> rfl
  | int =>
    rw [hType] at h
    obtain ⟨i, hi, rfl⟩ := Option.map_eq_some_iff.mp h
    dsimp only
    rw [hi]
  | float =>
    rw [hType] at h
    obtain ⟨f, hf, rfl⟩ := Option.map_eq_some_iff.mp h
    dsimp only
    rw [hf]
  | string =>
    rw [hType] at h
    cases h
    rfl
  | path =>
    rw [hType] at h
    cases h
    rfl
  | json =>
    rw [hType] at h
    obtain ⟨v, -, rfl⟩ := Option.map_eq_some_iff.mp h
    rfl
  | enum allowed =>
    rw [hType] at h
    dsimp only at h ⊢
    split at h
    · next hMem =>
      cases h
      exact if_pos hMem
    · cases h

/-! ## What the claim asks -/

/-- The JSON of the arguments reads back as the same arguments, each under its own key. -/
def RoundTrips (fmt : Formats F) (spec : CommandSpec) (namespace_ operation : String)
    (args : Table String (TypedValue F)) : Prop :=
  ∃ inv : Invocation F,
    Invocation.fromJson fmt (toJsonInput fmt args) namespace_ operation spec = .ok inv ∧
      (∀ id, Option.Rel (Same fmt) (inv.args.lookup id) (args.lookup id)) ∧
      inv.occurrences.size = args.size

/-- The reader finds every argument under its own id, its value reads back, and every
argument that has a default is there. -/
def Readable (fmt : Formats F) (op : OperationSpec) (args : Table String (TypedValue F)) : Prop :=
  (∀ id value, args.lookup id = some value →
    ∃ arg, op.findArg id = some arg ∧ arg.id = id ∧ Reads fmt arg.valueType value) ∧
  ∀ arg ∈ op.args, arg.default.isSome = true → arg.id ∈ args

/-- Ids are unambiguous, flags are Boolean and defaults parse. -/
structure OperationSpec.Sound (fmt : Formats F) (op : OperationSpec) : Prop where
  own : ∀ arg ∈ op.args, op.findArg arg.id = some arg
  flags : ∀ arg ∈ op.args, arg.kind = .flag → arg.valueType = .bool
  defaults : ∀ arg ∈ op.args, arg.default.isSome = true → (defaultArg fmt arg).isSome = true

/-- No key of the input is dropped: each value is that of its argument, and counts for one. -/
def KeepsEveryKey (fmt : Formats F) (op : OperationSpec) (fields : List (String × Json))
    (inv : Invocation F) : Prop :=
  (∀ key value, (key, value) ∈ fields → ∃ arg typed, op.findArg key = some arg ∧
    TypedValue.fromJson fmt value arg = .ok typed ∧ inv.args.lookup arg.id = some typed) ∧
  inv.occurrences.size = fields.length

/-- Both front ends demand the argument, leave it out, or give it the same default. -/
def AbsentAlike (fmt : Formats F) (path : List String) (arg : ArgSpec) : Prop :=
  match absentArg fmt path arg with
  | .error e => e.code = .missingRequiredArg ∧ validateArg arg 0 ≠ []
  | .ok value => validateArg arg 0 = [] ∧ value = defaultArg fmt arg

/-! ## Round trips -/

theorem exists_forall₂ {α β : Type*} {R : α → β → Prop} {l : List α} (h : ∀ a ∈ l, ∃ b, R a b) :
    ∃ l', List.Forall₂ R l l' := by
  induction l with
  | nil => exact ⟨[], .nil⟩
  | cons a l ih =>
    obtain ⟨⟨b, hb⟩, hRest⟩ := List.forall_mem_cons.mp h
    obtain ⟨l', hl'⟩ := ih hRest
    exact ⟨b :: l', .cons hb hl'⟩

theorem exists_of_forall₂ {α β : Type*} {R : α → β → Prop} {l : List α} {l' : List β}
    (h : List.Forall₂ R l l') {a : α} (ha : a ∈ l) : ∃ b ∈ l', R a b := by
  induction h with
  | nil => cases ha
  | cons hHead _ ih =>
    rcases List.mem_cons.mp ha with rfl | hMem
    · exact ⟨_, List.mem_cons_self, hHead⟩
    · obtain ⟨b, hb, hR⟩ := ih hMem
      exact ⟨b, List.mem_cons_of_mem _ hb, hR⟩

theorem map_fst_eq {α β γ : Type*} {l : List (α × β)} {l' : List (α × γ)}
    (h : List.Forall₂ (fun a b => b.1 = a.1) l l') : l'.map Prod.fst = l.map Prod.fst := by
  induction h with
  | nil => rfl
  | cons hHead _ ih => rw [List.map_cons, List.map_cons, ih, hHead]

def inputFields (fmt : Formats F) (args : Table String (TypedValue F)) : List (String × Json) :=
  (args.entries.insertionSort fun a b => a.1 ≤ b.1).map fun e => (e.1, TypedValue.toJsonValue fmt e.2)

theorem mem_inputFields {args : Table String (TypedValue F)} {key : String} {value : Json} :
    (key, value) ∈ inputFields fmt args ↔
      ∃ v, args.lookup key = some v ∧ value = TypedValue.toJsonValue fmt v := by
  unfold inputFields
  rw [List.mem_map]
  constructor
  · rintro ⟨e, hMem, hEq⟩
    obtain ⟨rfl, rfl⟩ := Prod.mk.inj hEq
    exact ⟨e.2, Table.lookup_eq_some.mpr ((List.perm_insertionSort _ _).mem_iff.mp hMem), rfl⟩
  · rintro ⟨v, hLookup, rfl⟩
    exact ⟨⟨key, v⟩, (List.perm_insertionSort _ _).mem_iff.mpr (Table.lookup_eq_some.mp hLookup), rfl⟩

theorem length_inputFields (args : Table String (TypedValue F)) :
    (inputFields fmt args).length = args.size := by
  unfold inputFields
  rw [List.length_map, (List.perm_insertionSort _ _).length_eq]
  rfl

theorem nodup_inputFields (args : Table String (TypedValue F)) :
    ((inputFields fmt args).map Prod.fst).Nodup := by
  unfold inputFields
  rw [List.map_map]
  exact ((List.perm_insertionSort _ _).map _).nodup_iff.mpr args.nodupKeys

theorem fromJson_ok {spec : CommandSpec} {namespace_ operation : String} {path : List String}
    (hSpec : spec.resolve namespace_ operation = .ok (op, path)) {fields : List (String × Json)}
    {inv : Invocation F} :
    Invocation.fromJson fmt (.object fields) namespace_ operation spec = .ok inv ↔
      ∃ readings args, List.Forall₂ (ReadsAs fmt op) fields readings ∧
        fillArgs fmt path op.args (Table.extend ∅ readings) = .ok args ∧
        inv = ⟨(namespace_, operation), args, Table.extend ∅ (readings.map fun r => (r.1, 1))⟩ := by
  unfold Invocation.fromJson
  rw [hSpec]
  constructor
  · intro h
    dsimp only [Json.asObject] at h
    split at h
    · cases h
    · next args occurrences hRead =>
      obtain ⟨readings, hReads, rfl, rfl⟩ := readFields_ok.mp hRead
      split at h
      · cases h
      · next args hFill =>
        cases h
        exact ⟨readings, args, hReads, hFill, rfl⟩
  · rintro ⟨readings, args, hReads, hFill, rfl⟩
    dsimp only [Json.asObject]
    rw [readFields_ok.mpr ⟨readings, hReads, rfl, rfl⟩]
    dsimp only
    rw [hFill]

/-- The keys of the fields are counted one by one exactly when they name different arguments. -/
theorem size_occurrences {fields : List (String × Json)} {readings : List (String × TypedValue F)}
    (h : List.Forall₂ (ReadsAs fmt op) fields readings) :
    (Table.extend ∅ (readings.map fun r => (r.1, 1)) : Table String Nat).size = fields.length ↔
      (readings.map Prod.fst).Nodup := by
  have hKeys : (readings.map fun r => (r.1, (1 : Nat))).map Prod.fst = readings.map Prod.fst := by
    rw [List.map_map]
    rfl
  have hSize := @Table.size_extend_eq_iff _ _ _ (∅ : Table String Nat) (readings.map fun r => (r.1, 1))
  have hEmpty : (∅ : Table String Nat).size = 0 := rfl
  rw [hEmpty, Nat.zero_add, List.length_map, ← h.length_eq, hKeys] at hSize
  rw [hSize]
  exact ⟨fun hBoth => hBoth.1, fun hNodup => ⟨hNodup, fun k _ => AList.notMem_empty k⟩⟩

def argIndex (op : OperationSpec) (id : String) : Nat := op.args.findIdx fun arg => arg.id = id

theorem findArg_index {id : String} {arg : ArgSpec} (h : op.findArg id = some arg) :
    arg.id = id ∨ argIndex op arg.id < argIndex op id := by
  obtain ⟨-, before, after, hArgs, hBefore⟩ := List.find?_eq_some_iff_append.mp h
  by_cases hId : arg.id = id
  · exact .inl hId
  · refine .inr ?_
    have hNone : ∀ a ∈ before, decide (a.id = id) = false := by
      intro a ha
      have hNot := hBefore a ha
      simp only [Bool.not_eq_true', Bool.or_eq_false_iff] at hNot
      exact hNot.1.1.1.1
    have hOwn : argIndex op arg.id ≤ before.length := by
      unfold argIndex
      rw [hArgs, List.findIdx_append]
      split
      · next hLt => exact le_of_lt hLt
      · simp [List.findIdx_cons]
    have hLater : before.length < argIndex op id := by
      unfold argIndex
      rw [hArgs, List.findIdx_append, List.findIdx_eq_length_of_false hNone, if_neg (lt_irrefl _),
        List.findIdx_cons]
      simp [hId]
    exact lt_of_le_of_lt hOwn hLater

/-- When no two ids are read as one argument, each is read as its own. -/
theorem findArg_own {ids : List String}
    (hFind : ∀ id ∈ ids, ∃ arg, op.findArg id = some arg ∧ arg.id ∈ ids)
    (hInj : ∀ id ∈ ids, ∀ id' ∈ ids, (op.findArg id).map (·.id) = (op.findArg id').map (·.id) → id = id')
    {id : String} (hId : id ∈ ids) : (op.findArg id).map (·.id) = some id := by
  induction hn : argIndex op id using Nat.strong_induction_on generalizing id with
  | _ n ih =>
    obtain ⟨arg, hArg, hMem⟩ := hFind id hId
    rcases findArg_index hArg with hOwn | hLt
    · rw [hArg, Option.map_some, hOwn]
    · have hEarlier := ih (argIndex op arg.id) (hn ▸ hLt) hMem rfl
      have hSame : arg.id = id := by
        refine hInj arg.id hMem id hId ?_
        rw [hEarlier, hArg, Option.map_some]
      rw [hArg, Option.map_some, hSame]

variable {spec : CommandSpec} {namespace_ operation : String} {path : List String}

theorem roundTrips_of_readable (hSpec : spec.resolve namespace_ operation = .ok (op, path))
    {args : Table String (TypedValue F)}
    (hRequired : ∀ arg ∈ op.args, arg.optional = true ∨ arg.id ∈ args)
    (h : Readable fmt op args) : RoundTrips fmt spec namespace_ operation args := by
  obtain ⟨hValues, hDefaults⟩ := h
  have hFields : ∀ field ∈ inputFields fmt args, ∃ reading, ReadsAs fmt op field reading ∧
      reading.1 = field.1 ∧ ∃ v, args.lookup field.1 = some v ∧ Same fmt reading.2 v := by
    rintro ⟨key, value⟩ hField
    obtain ⟨v, hLookup, rfl⟩ := mem_inputFields.mp hField
    obtain ⟨arg, hFind, hId, hReads⟩ := hValues key v hLookup
    obtain ⟨v', hTyped, hSame⟩ := (reads_iff arg v).mpr hReads
    exact ⟨(key, v'), ⟨arg, hFind, hId, hTyped⟩, rfl, v, hLookup, hSame⟩
  obtain ⟨readings, hReadings⟩ := exists_forall₂ hFields
  have hReads : List.Forall₂ (ReadsAs fmt op) (inputFields fmt args) readings :=
    hReadings.imp fun _ _ hBoth => hBoth.1
  have hKeys : readings.map Prod.fst = (inputFields fmt args).map Prod.fst :=
    map_fst_eq (hReadings.imp fun _ _ hBoth => hBoth.2.1)
  have hNodup : (readings.map Prod.fst).Nodup := hKeys ▸ nodup_inputFields args
  have hLookup : ∀ id, Option.Rel (Same fmt)
      ((Table.extend ∅ readings : Table String (TypedValue F)).lookup id) (args.lookup id) := by
    intro id
    cases hOld : args.lookup id with
    | none =>
      have hNotMem : id ∉ readings.map Prod.fst := by
        rw [hKeys]
        rintro hMem
        obtain ⟨⟨key, value⟩, hField, rfl⟩ := List.mem_map.mp hMem
        obtain ⟨v, hSome, -⟩ := mem_inputFields.mp hField
        rw [hOld] at hSome
        cases hSome
      rw [Table.lookup_extend_of_notMem hNotMem, AList.lookup_empty]
      exact .none
    | some v =>
      obtain ⟨reading, hMem, -, hKey, v', hSome, hSame⟩ :=
        exists_of_forall₂ hReadings (mem_inputFields.mpr ⟨v, hOld, rfl⟩)
      rw [hOld] at hSome
      cases hSome
      have hReading : (id, reading.2) = reading := Prod.ext hKey.symm rfl
      rw [Table.lookup_extend hNodup (hReading ▸ hMem)]
      exact .some hSame
  have hFill : fillArgs fmt path op.args (Table.extend ∅ readings) =
      .ok (Table.extend ∅ readings) := by
    refine fillArgs_same fun arg hArg => ?_
    by_cases hMem : arg.id ∈ args
    · refine .inl (Table.mem_extend.mpr (.inr ?_))
      obtain ⟨v, hv⟩ := Option.isSome_iff_exists.mp (AList.lookup_isSome.mpr hMem)
      rw [hKeys]
      exact List.mem_map_of_mem (mem_inputFields.mpr ⟨v, hv, rfl⟩)
    · refine .inr ⟨?_, (hRequired arg hArg).resolve_right hMem⟩
      by_contra hSome
      exact hMem (hDefaults arg hArg (Option.isSome_iff_ne_none.mpr hSome))
  refine ⟨_, (fromJson_ok hSpec).mpr ⟨readings, _, hReads, hFill, rfl⟩, hLookup, ?_⟩
  rw [← @length_inputFields _ fmt args]
  exact (size_occurrences hReads).mpr hNodup

theorem mem_of_rel {args args' : Table String (TypedValue F)}
    (h : ∀ id, Option.Rel (Same fmt) (args'.lookup id) (args.lookup id)) {id : String}
    (hMem : id ∈ args') : id ∈ args := by
  obtain ⟨v, hv⟩ := Option.isSome_iff_exists.mp (AList.lookup_isSome.mpr hMem)
  have hRel := h id
  rw [hv] at hRel
  cases hOld : args.lookup id with
  | none =>
    rw [hOld] at hRel
    cases hRel
  | some v' => exact AList.lookup_isSome.mp (hOld ▸ rfl)

theorem readable_of_roundTrips (hSpec : spec.resolve namespace_ operation = .ok (op, path))
    {args : Table String (TypedValue F)} (h : RoundTrips fmt spec namespace_ operation args) :
    Readable fmt op args := by
  obtain ⟨inv, hInput, hRel, hSize⟩ := h
  obtain ⟨readings, args', hReads, hFill, rfl⟩ := (fromJson_ok hSpec).mp hInput
  obtain ⟨hKept, hFilled⟩ := fillArgs_ok hFill
  rw [← @length_inputFields _ fmt args] at hSize
  have hNodup := (size_occurrences hReads).mp hSize
  have hReading : ∀ id v, args.lookup id = some v → ∃ arg v', op.findArg id = some arg ∧
      TypedValue.fromJson fmt (TypedValue.toJsonValue fmt v) arg = .ok v' ∧
      args'.lookup arg.id = some v' := by
    intro id v hv
    obtain ⟨⟨id', v'⟩, hMem, arg, hFind, rfl, hTyped⟩ :=
      exists_of_forall₂ hReads (mem_inputFields.mpr ⟨v, hv, rfl⟩)
    exact ⟨arg, v', hFind, hTyped, hKept _ _ (Table.lookup_extend hNodup hMem)⟩
  have hFind : ∀ id ∈ args.keys, ∃ arg, op.findArg id = some arg ∧ arg.id ∈ args.keys := by
    intro id hId
    obtain ⟨v, hv⟩ := Option.isSome_iff_exists.mp (AList.lookup_isSome.mpr hId)
    obtain ⟨arg, v', hFind, -, hNew⟩ := hReading id v hv
    exact ⟨arg, hFind, mem_of_rel hRel (AList.lookup_isSome.mp (hNew ▸ rfl))⟩
  have hInj : ∀ id ∈ args.keys, ∀ id' ∈ args.keys,
      (op.findArg id).map (·.id) = (op.findArg id').map (·.id) → id = id' := by
    intro id hId id' hId' hSame
    obtain ⟨v, hv⟩ := Option.isSome_iff_exists.mp (AList.lookup_isSome.mpr hId)
    obtain ⟨v', hv'⟩ := Option.isSome_iff_exists.mp (AList.lookup_isSome.mpr hId')
    exact congrArg Prod.fst (List.inj_on_of_nodup_map ((nodup_namedArgs hReads).mpr hNodup)
      (mem_inputFields.mpr ⟨v, hv, rfl⟩) (mem_inputFields.mpr ⟨v', hv', rfl⟩) hSame)
  refine ⟨fun id v hv => ?_, fun arg hArg hDefault => mem_of_rel hRel (hFilled arg hArg hDefault)⟩
  obtain ⟨arg, v', hFound, hTyped, hNew⟩ := hReading id v hv
  have hOwn := findArg_own hFind hInj (AList.lookup_isSome.mp (hv ▸ rfl) : id ∈ args)
  rw [hFound, Option.map_some, Option.some.injEq] at hOwn
  have hSame := hRel arg.id
  rw [hNew, hOwn, hv] at hSame
  cases hSame with
  | some hSame => exact ⟨arg, hFound, hOwn, (reads_iff arg v).mp ⟨v', hTyped, hSame⟩⟩

/-- Of a sound operation, a command line reads back as soon as JSON holds its values. -/
theorem readable_iff_held (hSound : op.Sound fmt) {argv : List String} {offset : Nat}
    (hAccepted : (compileArgs fmt op argv offset).diagnostics = []) :
    Readable fmt op (compileArgs fmt op argv offset).args ↔
      ∀ id value, (compileArgs fmt op argv offset).args.lookup id = some value → Held fmt value := by
  constructor
  · rintro ⟨hValues, -⟩ id value hLookup
    obtain ⟨arg, -, -, hReads⟩ := hValues id value hLookup
    exact held_of_reads hReads
  · intro hHeld
    obtain ⟨hGiven, -⟩ := compileArgs_accepted hAccepted
    refine ⟨fun id value hLookup => ?_, fun arg hArg hDefault => ?_⟩
    · obtain ⟨arg, hArg, rfl, hValue⟩ := hGiven id value hLookup
      refine ⟨arg, hSound.own arg hArg, rfl, ?_⟩
      cases hValue with
      | flag hKind =>
        rw [hSound.flags arg hArg hKind]
        trivial
      | token hParse => exact reads_of_parseValue hParse (hHeld _ _ hLookup)
    · exact mem_foldl_applyDefault_of_isSome hArg (hSound.defaults arg hArg hDefault)

/-! ## Fields and defaults -/

theorem keepsEveryKey_iff (hSpec : spec.resolve namespace_ operation = .ok (op, path))
    {fields : List (String × Json)} {inv : Invocation F}
    (h : Invocation.fromJson fmt (.object fields) namespace_ operation spec = .ok inv) :
    KeepsEveryKey fmt op fields inv ↔ (namedArgs op fields).Nodup := by
  obtain ⟨readings, args, hReads, hFill, rfl⟩ := (fromJson_ok hSpec).mp h
  rw [nodup_namedArgs hReads]
  constructor
  · rintro ⟨-, hSize⟩
    exact (size_occurrences hReads).mp hSize
  · intro hNodup
    refine ⟨fun key value hField => ?_, (size_occurrences hReads).mpr hNodup⟩
    obtain ⟨⟨id, typed⟩, hMem, arg, hFind, rfl, hTyped⟩ := exists_of_forall₂ hReads hField
    exact ⟨arg, typed, hFind, hTyped, (fillArgs_ok hFill).1 _ _ (Table.lookup_extend hNodup hMem)⟩

theorem typedValueFromDefault_error {arg : ArgSpec} {default : String} {e : RoutingDiagnostic}
    (h : typedValueFromDefault fmt arg default = .error e) : e.code = .invalidArgType := by
  unfold typedValueFromDefault at h
  cases hType : arg.valueType with
  | bool =>
    rw [hType] at h
    dsimp only at h
    split at h <;> cases h
    rfl
  | int =>
    rw [hType] at h
    dsimp only at h
    split at h <;> cases h
    rfl
  | float =>
    rw [hType] at h
    dsimp only at h
    split at h <;> cases h
    rfl
  | string | path | json =>
    rw [hType] at h
    cases h
  | enum allowed =>
    rw [hType] at h
    dsimp only at h
    split at h <;> cases h
    rfl

theorem absentAlike_iff (path : List String) (arg : ArgSpec) :
    AbsentAlike fmt path arg ↔ ∀ default, arg.default = some default →
      arg.optional = true ∧ (parseValue fmt arg.valueType default).isSome = true := by
  unfold AbsentAlike absentArg defaultArg
  cases hDefault : arg.default with
  | none =>
    cases hOptional : arg.optional <;> simp [validateArg_zero, hOptional, missingArgument]
  | some default =>
    simp only [Option.bind_some, Option.some.injEq, forall_eq']
    cases hTyped : typedValueFromDefault fmt arg default with
    | error e =>
      constructor
      · rintro ⟨hCode, -⟩
        rw [typedValueFromDefault_error hTyped] at hCode
        cases hCode
      · rintro ⟨-, hParse⟩
        obtain ⟨value, hValue⟩ := Option.isSome_iff_exists.mp hParse
        rw [typedValueFromDefault_of_parseValue hValue] at hTyped
        cases hTyped
    | ok typed =>
      refine and_congr validateArg_zero ⟨fun hSame => hSame ▸ rfl, fun hParse => ?_⟩
      obtain ⟨value, hValue⟩ := Option.isSome_iff_exists.mp hParse
      rw [typedValueFromDefault_of_parseValue hValue] at hTyped
      cases hTyped
      exact hValue.symm

/-! ## Both front ends -/

/-- When the command line and JSON agree on an operation. -/
theorem front_ends_agree_iff (hSpec : spec.resolve namespace_ operation = .ok (op, path)) :
    (∀ argv offset, (compileArgs fmt op argv offset).diagnostics = [] →
      (RoundTrips fmt spec namespace_ operation (compileArgs fmt op argv offset).args ↔
        Readable fmt op (compileArgs fmt op argv offset).args)) ∧
    (op.Sound fmt → ∀ argv offset, (compileArgs fmt op argv offset).diagnostics = [] →
      (Readable fmt op (compileArgs fmt op argv offset).args ↔
        ∀ id value, (compileArgs fmt op argv offset).args.lookup id = some value → Held fmt value)) ∧
    (∀ fields inv, Invocation.fromJson fmt (.object fields) namespace_ operation spec = .ok inv →
      (KeepsEveryKey fmt op fields inv ↔ (namedArgs op fields).Nodup)) ∧
    ∀ arg ∈ op.args, AbsentAlike fmt path arg ↔ ∀ default, arg.default = some default →
      arg.optional = true ∧ (parseValue fmt arg.valueType default).isSome = true := by
  refine ⟨fun argv offset hAccepted => ?_, fun hSound _ _ => readable_iff_held hSound,
    fun _ _ => keepsEveryKey_iff hSpec, fun arg _ => absentAlike_iff path arg⟩
  exact ⟨readable_of_roundTrips hSpec,
    roundTrips_of_readable hSpec (compileArgs_accepted hAccepted).2⟩

section Samples

def sampleFormats : Formats Unit where
  parseFloat _ := none
  floatOfInt _ := ()
  floatOfText _ := ()
  floatText _ := none
  parseJson _ := none
  printJson _ := ""
  debugString s := s

def strikeOption (name : String) (short : Char) : ArgSpec :=
  ⟨name, name, .option, .string, false, none, some short, false⟩

def strikeStart : OperationSpec := ⟨[strikeOption "name" 'n', strikeOption "goal" 'g']⟩

def strikeSpec : CommandSpec :=
  ⟨(∅ : Table String (Table String OperationSpec)).extend
    [("strike", (∅ : Table String OperationSpec).extend [("start", strikeStart)])], ∅⟩

def strikeInput : List (String × Json) :=
  [("g", .string "Fix the bug"), ("n", .string "Test Strike"), ("name", .string "Other")]

def strikeTokens : List String := ["--name", "Test Strike", "-g", "Fix the bug"]

theorem strikeStart_sound : strikeStart.Sound sampleFormats where
  own := by decide
  flags := by decide
  defaults := by decide

theorem front_ends_agree_iff_sample :
    RoundTrips sampleFormats strikeSpec "strike" "start"
      (compileArgs sampleFormats strikeStart strikeTokens 0).args := by
  have hAgree := @front_ends_agree_iff _ sampleFormats _ _ _ _ _
    (rfl : strikeSpec.resolve "strike" "start" = .ok (strikeStart, ["strike", "start"]))
  have hAccepted : (compileArgs sampleFormats strikeStart strikeTokens 0).diagnostics = [] := by decide
  refine (hAgree.1 _ _ hAccepted).mpr ((hAgree.2.1 strikeStart_sound _ _ hAccepted).mpr ?_)
  have hText : ∀ e ∈ (compileArgs sampleFormats strikeStart strikeTokens 0).args.entries,
      ∃ text, e.2 = .string text := by
    rintro e hMem
    rcases List.mem_cons.mp hMem with rfl | hMem
    · exact ⟨_, rfl⟩
    · exact ⟨_, congrArg Sigma.snd (List.mem_singleton.mp hMem)⟩
  intro id value hLookup
  obtain ⟨text, hValue⟩ := hText ⟨id, value⟩ (Table.lookup_eq_some.mp hLookup)
  cases hValue
  trivial

/-- A key that names an argument already read replaces its value. -/
theorem from_json_drops_a_key : ∃ inv,
    Invocation.fromJson sampleFormats (.object strikeInput) "strike" "start" strikeSpec = .ok inv ∧
      ¬ KeepsEveryKey sampleFormats strikeStart strikeInput inv :=
  ⟨_, rfl, fun h => by
    have hSize := h.2
    revert hSize
    decide⟩

end Samples

end Exosuit.Command
