import Exosuit.Command.ExoSpec
import Exosuit.Command.FrontEnds
import Exosuit.Lib.Program
import Exosuit.Lib.Traversal

/-!
# The derived specification and constructor agree

Input that is accepted against the specification gives the constructor every field that it asks
for, when the declaration says the same to both.
-/

namespace Exosuit.Command

open Lib (Json Table)
open Lib.Traversal (mapM_eq_some)

variable {F : Type*}

/-! ## What agreement means -/

/-- The key of an input object names the argument. -/
def ArgSpec.named (arg : ArgSpec) (key : String) : Bool :=
  arg.id = key || arg.name = key || arg.id = replaceUnderscores key || arg.name = replaceUnderscores key ||
    ((if key.utf8ByteSize = 1 then key.toList.head? else none).isSome &&
      arg.short = if key.utf8ByteSize = 1 then key.toList.head? else none)

/-- What the input says about an argument; the last of several fields counts. -/
def given (fields : List (String × Json)) (arg : ArgSpec) : Option Json :=
  (fields.reverse.find? fun field => arg.named field.1).map Prod.snd

def Shows : FieldValue → TypedValue F → Prop
  | .bool b, value => value = .bool b
  | .int i, value => ∃ n, i = some n ∧ value = .int n
  | .text s, value => ∃ t, s = some t ∧ (value = .string t ∨ value = .path t ∨ value = .json t)

/-- `None` or false. -/
def FieldValue.isAbsent : FieldValue → Bool
  | .bool b => !b
  | .int i => i.isNone
  | .text s => s.isNone

/-- The field is the value that is provided, or the declared default, or absent. -/
def FieldRight (fmt : Formats F) (fields : List (String × Json)) (arg : ArgMeta) (v : FieldValue) : Prop :=
  match given fields arg.spec with
  | some json => ∃ t, TypedValue.fromJson fmt json arg.spec = .ok t ∧ Shows v t
  | none =>
    match arg.defaultValue with
    | some default => ∃ t, typedValueFromDefault fmt arg.spec default = .ok t ∧ Shows v t
    | none => v.isAbsent = true

structure Agrees (fmt : Formats F) (ns : NamespaceMeta) (operations : List OperationMeta) : Prop where
  names : (operations.map OperationMeta.operationName).Nodup
  keys : ∀ op ∈ operations, ∀ key, ∀ a ∈ op.args, ∀ b ∈ op.args,
    a.spec.named key = true → b.spec.named key = true → a = b
  fields : ∀ op ∈ operations, ∀ (spec : CommandSpec) (opSpec : OperationSpec) (path : List String)
    (input : List (String × Json)) (inv : Invocation F),
    (operationsSpec operations).lookup op.operationName = some opSpec →
    spec.resolve ns.name op.operationName = .ok (opSpec, path) →
    Invocation.fromJson fmt (.object input) ns.name op.operationName spec = .ok inv →
    ∃ values, fromInvocation ns operations inv = .ok (op.variantName, values) ∧
      List.Forall₂ (fun arg value => value.1 = arg.fieldName ∧ FieldRight fmt input arg value.2) op.args values

/-! ## When both halves agree -/

/-- The field says the same to both halves: a flag is a bool, there is no reader for floats, and
what may be left out has a value then. -/
structure ArgMeta.Consistent (arg : ArgMeta) : Prop where
  flag : arg.kind = .flag → arg.valueType = .bool
  float : arg.valueType ≠ .float
  optional : arg.optional = true → arg.isOptionType = true ∨ arg.defaultValue.isSome = true ∨ arg.valueType = .bool

/-- A short letter is neither the short letter nor the one-letter name of another field. -/
def ShortsApart (args : List ArgMeta) : Prop :=
  ∀ a ∈ args, ∀ c, a.short = some c → c.utf8Size = 1 → ∀ b ∈ args,
    (b.short = some c ∨ b.name = String.singleton c ∨ b.name = replaceUnderscores (String.singleton c)) → b = a

structure Consistent (operations : List OperationMeta) : Prop where
  names : (operations.map OperationMeta.operationName).Nodup
  shorts : ∀ op ∈ operations, ShortsApart op.args
  args : ∀ op ∈ operations, ∀ arg ∈ op.args, arg.Consistent

variable {fmt : Formats F} {casing : Casing} {decl : EnumDecl} {ns : NamespaceMeta}
  {operations : List OperationMeta} {op : OperationMeta} {arg a b : ArgMeta} {key : String}

/-! ## Names -/

theorem findArg_eq (spec : OperationSpec) (key : String) :
    spec.findArg key = spec.args.find? fun arg => arg.named key := rfl

@[simp] theorem id_spec (arg : ArgMeta) : arg.spec.id = arg.name := by
  unfold ArgMeta.spec
  cases arg.kind <;> cases arg.defaultValue <;> cases arg.optional <;> rfl

@[simp] theorem name_spec (arg : ArgMeta) : arg.spec.name = arg.name := by
  unfold ArgMeta.spec
  cases arg.kind <;> cases arg.defaultValue <;> cases arg.optional <;> rfl

@[simp] theorem short_spec (arg : ArgMeta) : arg.spec.short = arg.short := by
  unfold ArgMeta.spec
  cases arg.kind <;> cases arg.defaultValue <;> cases arg.optional <;> rfl

theorem valueType_spec (arg : ArgMeta) :
    arg.spec.valueType = if arg.kind = .flag then .bool else arg.valueType := by
  unfold ArgMeta.spec
  cases arg.kind <;> cases arg.defaultValue <;> cases arg.optional <;> rfl

theorem default_spec (arg : ArgMeta) : arg.spec.default =
    arg.defaultValue.or (if arg.kind = .flag then some "false" else none) := by
  unfold ArgMeta.spec
  cases arg.kind <;> cases arg.defaultValue <;> cases arg.optional <;> rfl

theorem optional_spec (h : arg.defaultValue = none) :
    arg.spec.optional = (arg.optional || decide (arg.kind = .flag)) := by
  unfold ArgMeta.spec
  rw [h]
  cases arg.kind <;> cases arg.optional <;> rfl

theorem replaceUnderscores_toList (s : String) : (replaceUnderscores s).toList =
    s.toList.map fun c => if c = '_' then '-' else c := String.toList_ofList

theorem replaceUnderscores_inj {s t : String} (hs : '-' ∉ s.toList) (ht : '-' ∉ t.toList)
    (h : replaceUnderscores s = replaceUnderscores t) : s = t := by
  have hLists : ∀ l m : List Char, '-' ∉ l → '-' ∉ m →
      (l.map fun c => if c = '_' then '-' else c) = (m.map fun c => if c = '_' then '-' else c) → l = m := by
    intro l
    induction l with
    | nil =>
      intro m _ _ hEq
      exact (List.map_eq_nil_iff.mp hEq.symm).symm
    | cons c l ih =>
      intro m hl hm hEq
      cases m with
      | nil => exact absurd hEq (List.cons_ne_nil _ _)
      | cons d m =>
        rw [List.mem_cons, not_or] at hl hm
        rw [List.map_cons, List.map_cons, List.cons_eq_cons] at hEq
        have hHead : c = d := by
          have hChars := hEq.1
          split at hChars
          · next hc =>
            split at hChars
            · next hd => rw [hc, hd]
            · exact absurd hChars hm.1
          · split at hChars
            · exact absurd hChars.symm hl.1
            · exact hChars
        rw [hHead, ih m hl.2 hm.2 hEq.2]
  refine String.ext_iff.mpr (hLists _ _ hs ht ?_)
  rw [← replaceUnderscores_toList, ← replaceUnderscores_toList, h]

theorem replaceUnderscores_idem (s : String) : replaceUnderscores (replaceUnderscores s) = replaceUnderscores s := by
  apply String.ext_iff.mpr
  rw [replaceUnderscores_toList, replaceUnderscores_toList, List.map_map]
  refine List.map_congr_left fun c _ => ?_
  dsimp only [Function.comp]
  split
  · rfl
  · rfl

/-- What the names of arguments have in common with those of fields. -/
def Distinct (args : List ArgMeta) : Prop := (args.map fun arg => replaceUnderscores arg.name).Nodup

theorem parseFieldArg_ok {field : FieldDecl} (h : parseFieldArg field = .ok arg) :
    replaceUnderscores arg.name = replaceUnderscores field.ident := by
  unfold parseFieldArg at h
  obtain ⟨scan, -, h⟩ := Lib.bind_eq_ok.mp h
  rw [← Except.ok.inj h]
  dsimp only
  unfold argName
  split
  · exact replaceUnderscores_idem _
  · exact replaceUnderscores_idem _
  · rfl

theorem distinct_of_parse {variant : VariantDecl} {args : List ArgMeta}
    (h : parseVariantArgs variant = .ok args) : Distinct args := by
  unfold parseVariantArgs at h
  split at h
  · next fields _ =>
    have hArgs := Lib.Traversal.mapM_eq_ok.mp h
    have hNames : args.map (fun arg => replaceUnderscores arg.name) =
        fields.list.map fun field => replaceUnderscores field.ident :=
      Lib.Traversal.map_eq_of_forall₂ (hArgs.imp fun _ _ hParse => parseFieldArg_ok hParse)
    have hIdents := List.Nodup.of_map _ fields.distinct
    unfold Distinct
    rw [hNames]
    refine List.Nodup.map_on ?_ hIdents
    intro a hA b hB hEq
    exact List.inj_on_of_nodup_map fields.distinct hA hB
      (replaceUnderscores_inj a.hyphen_not_mem b.hyphen_not_mem hEq)
  · rw [← Except.ok.inj h]
    exact List.nodup_nil
  · exact nomatch h

theorem args_of_expand (h : expandExoSpec casing decl = .ok (ns, operations)) (hOp : op ∈ operations) :
    ∃ variant, parseVariantArgs variant = .ok op.args := by
  obtain ⟨ns', -, h⟩ := Lib.bind_eq_ok.mp h
  obtain ⟨operations', hParse, h⟩ := Lib.bind_eq_ok.mp h
  obtain ⟨-, rfl⟩ := Prod.mk.inj (Except.ok.inj h)
  obtain ⟨variant, -, hVariant⟩ :=
    Lib.Traversal.exists_of_forall₂_right (Lib.Traversal.mapM_eq_ok.mp hParse) hOp
  obtain ⟨scan, -, hVariant⟩ := Lib.bind_eq_ok.mp hVariant
  split at hVariant
  · exact nomatch hVariant
  · obtain ⟨args, hArgs, hVariant⟩ := Lib.bind_eq_ok.mp hVariant
    rw [← Except.ok.inj hVariant]
    exact ⟨variant, hArgs⟩

theorem distinct_of_expand (h : expandExoSpec casing decl = .ok (ns, operations)) (hOp : op ∈ operations) :
    Distinct op.args :=
  (args_of_expand h hOp).elim fun _ hVariant => distinct_of_parse hVariant

theorem eq_of_name (hDistinct : Distinct op.args) (hA : a ∈ op.args) (hB : b ∈ op.args)
    (h : replaceUnderscores a.name = replaceUnderscores b.name) : a = b :=
  List.inj_on_of_nodup_map hDistinct hA hB h

/-! ## Keys -/

theorem one_byte_iff : key.utf8ByteSize = 1 ↔ ∃ c, key = String.singleton c ∧ c.utf8Size = 1 := by
  constructor
  · intro h
    rcases hList : key.toList with _ | ⟨c, rest⟩
    · rw [String.toList_eq_nil_iff] at hList
      rw [hList] at h
      exact absurd h (by decide)
    · have hKey : key = String.ofList (c :: rest) := by rw [← hList, String.ofList_toList]
      rw [hKey, String.ofList_cons, String.utf8ByteSize_append, String.utf8ByteSize_singleton] at h
      have hPos := c.utf8Size_pos
      have hRest : (String.ofList rest).utf8ByteSize = 0 := by omega
      refine ⟨c, ?_, by omega⟩
      rw [hKey, String.ofList_cons, String.utf8ByteSize_eq_zero_iff.1 hRest, String.append_empty]
  · rintro ⟨c, rfl, hc⟩
    rw [String.utf8ByteSize_singleton, hc]

theorem named_spec_iff : arg.spec.named key = true ↔
    arg.name = key ∨ arg.name = replaceUnderscores key ∨
      ∃ c, key = String.singleton c ∧ c.utf8Size = 1 ∧ arg.short = some c := by
  have hShort : ((if key.utf8ByteSize = 1 then key.toList.head? else none).isSome &&
      decide (arg.short = if key.utf8ByteSize = 1 then key.toList.head? else none)) = true ↔
        ∃ c, key = String.singleton c ∧ c.utf8Size = 1 ∧ arg.short = some c := by
    by_cases hOne : key.utf8ByteSize = 1
    · obtain ⟨c, rfl, hc⟩ := one_byte_iff.1 hOne
      rw [if_pos hOne, String.toList_singleton, List.head?_cons, Option.isSome_some, Bool.true_and, decide_eq_true_iff]
      constructor
      · exact fun h => ⟨c, rfl, hc, h⟩
      · rintro ⟨d, hd, -, h⟩
        rw [h, String.singleton_inj.1 hd]
    · rw [if_neg hOne]
      refine ⟨fun h => absurd h Bool.false_ne_true, ?_⟩
      rintro ⟨c, hKey, hc, -⟩
      exact absurd (one_byte_iff.2 ⟨c, hKey, hc⟩) hOne
  unfold ArgSpec.named
  rw [id_spec, name_spec, short_spec, Bool.or_eq_true, hShort]
  simp only [Bool.or_eq_true, decide_eq_true_eq]
  tauto

def KeysApart (args : List ArgMeta) : Prop :=
  ∀ key, ∀ a ∈ args, ∀ b ∈ args, a.spec.named key = true → b.spec.named key = true → a = b

theorem keysApart_iff (hDistinct : Distinct op.args) : KeysApart op.args ↔ ShortsApart op.args := by
  constructor
  · intro h a hA c hShort hOne b hB hOr
    have hKey : b.spec.named (String.singleton c) = true := by
      rw [named_spec_iff]
      rcases hOr with hShort' | hName | hName
      · exact .inr (.inr ⟨c, rfl, hOne, hShort'⟩)
      · exact .inl hName
      · exact .inr (.inl hName)
    exact h (String.singleton c) b hB a hA hKey (named_spec_iff.2 (.inr (.inr ⟨c, rfl, hOne, hShort⟩)))
  · intro h key a hA b hB hKeyA hKeyB
    -- a name that is the key stays the key behind the replacement
    have hName : ∀ arg : ArgMeta, arg.name = key ∨ arg.name = replaceUnderscores key →
        replaceUnderscores arg.name = replaceUnderscores key := by
      rintro arg (hEq | hEq)
      · rw [hEq]
      · rw [hEq, replaceUnderscores_idem]
    rw [named_spec_iff, ← or_assoc] at hKeyA hKeyB
    rcases hKeyA with hNameA | ⟨c, rfl, hOne, hShortA⟩
    · rcases hKeyB with hNameB | ⟨c, rfl, hOne, hShortB⟩
      · exact eq_of_name hDistinct hA hB ((hName a hNameA).trans (hName b hNameB).symm)
      · exact h b hB c hShortB hOne a hA (.inr hNameA)
    · rcases hKeyB with hNameB | ⟨d, hKey, -, hShortB⟩
      · exact (h a hA c hShortA hOne b hB (.inr hNameB)).symm
      · rw [← String.singleton_inj.1 hKey] at hShortB
        exact (h a hA c hShortA hOne b hB (.inl hShortB)).symm

theorem named_own (arg : ArgMeta) : arg.spec.named arg.name = true := named_spec_iff.2 (.inl rfl)

theorem findArg_some {s : ArgSpec} (h : op.spec.findArg key = some s) :
    ∃ arg ∈ op.args, s = arg.spec ∧ arg.spec.named key = true := by
  rw [findArg_eq] at h
  obtain ⟨arg, hArg, rfl⟩ := List.mem_map.1 (List.mem_of_find?_eq_some h)
  exact ⟨arg, hArg, rfl, (List.find?_eq_some_iff_append.1 h).1⟩

theorem findArg_named (hKeys : KeysApart op.args) (hArg : arg ∈ op.args) (h : arg.spec.named key = true) :
    op.spec.findArg key = some arg.spec := by
  cases hFind : op.spec.findArg key with
  | none =>
    rw [findArg_eq] at hFind
    exact absurd h (List.find?_eq_none.1 hFind _ (List.mem_map_of_mem hArg))
  | some s =>
    obtain ⟨b, hB, rfl, hNamed⟩ := findArg_some hFind
    rw [hKeys key b hB arg hArg hNamed h]

theorem lookup_readings (hKeys : KeysApart op.args) (hDistinct : Distinct op.args) (hArg : arg ∈ op.args)
    {input : List (String × Json)} {readings : List (String × TypedValue F)}
    (h : List.Forall₂ (ReadsAs fmt op.spec) input readings) (table : Table String (TypedValue F)) :
    match given input arg.spec with
    | some json => ∃ t, (table.extend readings).lookup arg.name = some t ∧
        TypedValue.fromJson fmt json arg.spec = .ok t
    | none => (table.extend readings).lookup arg.name = table.lookup arg.name := by
  induction h generalizing table with
  | nil => rfl
  | @cons field reading input readings hHead _ ih =>
    obtain ⟨s, hFind, hId, hRead⟩ := hHead
    obtain ⟨b, hB, rfl, hNamed⟩ := findArg_some hFind
    rw [id_spec] at hId
    have hStep : table.extend (reading :: readings) =
        Table.extend (AList.insert reading.1 reading.2 table) readings := rfl
    have hGiven : given (field :: input) arg.spec =
        (given input arg.spec).or (if arg.spec.named field.1 then some field.2 else none) := by
      unfold given
      rw [List.reverse_cons, List.find?_append, Option.map_or]
      congr 1
      rw [List.find?_cons, List.find?_nil]
      cases arg.spec.named field.1 <;> rfl
    have hRest := ih (AList.insert reading.1 reading.2 table)
    rw [hGiven, hStep]
    cases hLater : given input arg.spec with
    | some json =>
      rw [hLater] at hRest
      exact hRest
    | none =>
      rw [hLater] at hRest
      rw [Option.none_or, hRest, Table.lookup_insert]
      cases hNamedArg : arg.spec.named field.1 with
      | true =>
        obtain rfl := hKeys field.1 b hB arg hArg hNamed hNamedArg
        rw [if_pos rfl, if_pos hId]
        exact ⟨reading.2, rfl, hRead⟩
      | false =>
        rw [if_neg Bool.false_ne_true]
        dsimp only
        rw [if_neg]
        intro hName
        rw [← hId] at hName
        rw [eq_of_name hDistinct hArg hB (congrArg replaceUnderscores hName), hNamed] at hNamedArg
        exact absurd hNamedArg nofun

theorem lookup_fillArgs {path : List String} {specs : List ArgSpec} {args args' : Table String (TypedValue F)}
    (hNodup : (specs.map ArgSpec.id).Nodup) (h : fillArgs fmt path specs args = .ok args') :
    (∀ id, id ∉ specs.map ArgSpec.id → args'.lookup id = args.lookup id) ∧
      ∀ s ∈ specs, (∃ t, args.lookup s.id = some t ∧ args'.lookup s.id = some t) ∨
        (args.lookup s.id = none ∧ absentArg fmt path s = .ok (args'.lookup s.id)) := by
  induction specs generalizing args with
  | nil =>
    rw [Except.ok.inj h]
    exact ⟨fun _ _ => rfl, List.forall_mem_nil _⟩
  | cons s specs ih =>
    rw [List.map_cons, List.nodup_cons] at hNodup
    obtain ⟨hFresh, hNodup⟩ := hNodup
    -- the rest of the loop neither reads nor writes the id of `s`
    have hStep : ∀ next : Table String (TypedValue F), fillArgs fmt path specs next = .ok args' →
        (∀ id, id ≠ s.id → next.lookup id = args.lookup id) →
        ((∃ t, args.lookup s.id = some t ∧ next.lookup s.id = some t) ∨
          (args.lookup s.id = none ∧ absentArg fmt path s = .ok (next.lookup s.id))) →
        (∀ id, id ∉ (s :: specs).map ArgSpec.id → args'.lookup id = args.lookup id) ∧
          ∀ s' ∈ s :: specs, (∃ t, args.lookup s'.id = some t ∧ args'.lookup s'.id = some t) ∨
            (args.lookup s'.id = none ∧ absentArg fmt path s' = .ok (args'.lookup s'.id)) := by
      intro next hNext hElse hOwn
      obtain ⟨hOut, hIn⟩ := ih hNodup hNext
      refine ⟨fun id hId => ?_, List.forall_mem_cons.2 ⟨?_, fun s' hs' => ?_⟩⟩
      · rw [List.map_cons, List.mem_cons, not_or] at hId
        rw [hOut id hId.2, hElse id hId.1]
      · rw [hOut s.id hFresh]
        exact hOwn
      · have hNe : s'.id ≠ s.id := fun hEq => hFresh (hEq ▸ List.mem_map_of_mem hs')
        rw [← hElse s'.id hNe]
        exact hIn s' hs'
    unfold fillArgs at h
    split at h
    · next hMem =>
      obtain ⟨t, ht⟩ := Option.isSome_iff_exists.1 (AList.lookup_isSome.2 hMem)
      exact hStep args h (fun _ _ => rfl) (.inl ⟨t, ht, ht⟩)
    · next hNotMem =>
      have hNone : args.lookup s.id = none := AList.lookup_eq_none.2 hNotMem
      split at h
      · cases h
      · next hAbsent => exact hStep args h (fun _ _ => rfl) (.inr ⟨hNone, hNone.symm ▸ hAbsent⟩)
      · next typed hAbsent =>
        refine hStep _ h (fun id hId => ?_) (.inr ⟨hNone, ?_⟩)
        · rw [Table.lookup_insert, if_neg hId]
        · rw [Table.lookup_insert, if_pos rfl]
          exact hAbsent

theorem nodup_ids (hDistinct : Distinct op.args) : (op.spec.args.map ArgSpec.id).Nodup := by
  have hIds : op.spec.args.map ArgSpec.id = op.args.map ArgMeta.name := by
    rw [OperationMeta.spec, List.map_map]
    exact List.map_congr_left fun arg _ => id_spec arg
  rw [hIds]
  refine List.Nodup.of_map replaceUnderscores ?_
  rw [List.map_map]
  exact hDistinct

theorem getArg_accepted (hKeys : KeysApart op.args) (hDistinct : Distinct op.args) (hArg : arg ∈ op.args)
    {input : List (String × Json)} {readings : List (String × TypedValue F)}
    (hReads : List.Forall₂ (ReadsAs fmt op.spec) input readings) {path : List String}
    {args : Table String (TypedValue F)}
    (hFill : fillArgs fmt path op.spec.args (Table.extend ∅ readings) = .ok args)
    {inv : Invocation F} (hInv : inv.args = args) :
    match given input arg.spec with
    | some json => ∃ t, inv.getArg arg.name = some t ∧ TypedValue.fromJson fmt json arg.spec = .ok t
    | none => absentArg fmt path arg.spec = .ok (inv.getArg arg.name) := by
  obtain ⟨hOut, hIn⟩ := lookup_fillArgs (nodup_ids hDistinct) hFill
  have hOwn := hIn arg.spec (List.mem_map_of_mem hArg)
  rw [id_spec] at hOwn
  have hRead := lookup_readings hKeys hDistinct hArg hReads ∅
  have hGet : inv.getArg arg.name = args.lookup arg.name := by
    rw [Invocation.getArg, hInv]
    cases hLookup : args.lookup arg.name with
    | some t => rfl
    | none =>
      rw [Option.none_or]
      by_cases hSame : replaceUnderscores arg.name = arg.name
      · rw [hSame, hLookup]
      · -- no other argument has the name with hyphens
        have hFresh : ∀ b ∈ op.args, b.name ≠ replaceUnderscores arg.name := by
          intro b hB hEq
          have hBoth : b = arg := eq_of_name hDistinct hB hArg (by rw [hEq, replaceUnderscores_idem])
          exact hSame (hBoth ▸ hEq).symm
        rw [hOut, Table.lookup_extend_of_notMem]
        · rfl
        · intro hMem
          obtain ⟨reading, hReading, hKey⟩ := List.mem_map.1 hMem
          obtain ⟨field, -, s, hFind, hId, -⟩ := Lib.Traversal.exists_of_forall₂_right hReads hReading
          obtain ⟨b, hB, rfl, -⟩ := findArg_some hFind
          exact hFresh b hB (by rw [← id_spec, hId, hKey])
        · intro hMem
          obtain ⟨s, hs, hId⟩ := List.mem_map.1 hMem
          obtain ⟨b, hB, rfl⟩ := List.mem_map.1 hs
          exact hFresh b hB (by rw [← id_spec, hId])
  rw [hGet]
  cases hGiven : given input arg.spec with
  | some json =>
    rw [hGiven] at hRead
    obtain ⟨t, ht, hJson⟩ := hRead
    rcases hOwn with ⟨t', ht', hFilled⟩ | ⟨hNone, -⟩
    · rw [ht] at ht'
      exact ⟨t, ht' ▸ hFilled, hJson⟩
    · exact absurd (ht.symm.trans hNone) nofun
  | none =>
    rw [hGiven] at hRead
    have hNone : (Table.extend ∅ readings : Table String (TypedValue F)).lookup arg.name = none := hRead
    rcases hOwn with ⟨t, ht, -⟩ | ⟨-, hAbsent⟩
    · exact absurd (ht.symm.trans hNone) nofun
    · exact hAbsent

/-! ## Values -/

def HasType : ValueType → TypedValue F → Prop
  | .bool, .bool _ | .int, .int _ | .float, .float _ | .string, .string _ | .path, .path _ | .json, .json _ => True
  | .enum _, .enum _ => True
  | _, _ => False

theorem hasType_fromJson {json : Json} {s : ArgSpec} {t : TypedValue F}
    (h : TypedValue.fromJson fmt json s = .ok t) : HasType s.valueType t := by
  unfold TypedValue.fromJson at h
  generalize s.valueType = kind at h ⊢
  cases kind with
  | bool | int | float | path =>
    dsimp only at h
    split at h
    · rw [← Except.ok.inj h]
      trivial
    · cases h
  | string =>
    dsimp only at h
    split at h
    · rw [← Except.ok.inj h]
      trivial
    · cases h
    · rw [← Except.ok.inj h]
      trivial
    · cases h
  | json =>
    rw [← Except.ok.inj h]
    trivial
  | enum allowed =>
    dsimp only at h
    split at h
    · cases h
    · split at h
      · rw [← Except.ok.inj h]
        trivial
      · cases h

theorem hasType_default {default : String} {s : ArgSpec} {t : TypedValue F}
    (h : typedValueFromDefault fmt s default = .ok t) : HasType s.valueType t := by
  unfold typedValueFromDefault at h
  generalize s.valueType = kind at h ⊢
  cases kind with
  | bool =>
    dsimp only at h
    split at h
    · rw [← Except.ok.inj h]
      trivial
    · rw [← Except.ok.inj h]
      trivial
    · cases h
  | int | float | enum allowed =>
    dsimp only at h
    split at h
    · rw [← Except.ok.inj h]
      trivial
    · cases h
  | string | path | json =>
    rw [← Except.ok.inj h]
    trivial

theorem extractField_some (hConsistent : arg.Consistent) (hEnum : ∀ allowed, arg.valueType ≠ .enum allowed)
    {inv : Invocation F} {t : TypedValue F} (hGet : inv.getArg arg.name = some t)
    (hType : HasType arg.spec.valueType t) : ∃ v, extractField inv arg = .ok v ∧ Shows v t := by
  have hKind : HasType arg.valueType t := by
    rw [valueType_spec] at hType
    split at hType
    · next hFlag => exact (hConsistent.flag hFlag).symm ▸ hType
    · exact hType
  unfold extractField
  rw [hGet]
  cases hValue : arg.valueType with
  | float => exact absurd hValue hConsistent.float
  | enum allowed => exact absurd hValue (hEnum allowed)
  | bool =>
    rw [hValue] at hKind
    cases t with
    | bool b => cases arg.isOptionType <;> exact ⟨_, rfl, rfl⟩
    | _ => exact hKind.elim
  | int =>
    rw [hValue] at hKind
    cases t with
    | int i => cases arg.isOptionType <;> exact ⟨_, rfl, i, rfl, rfl⟩
    | _ => exact hKind.elim
  | string =>
    rw [hValue] at hKind
    cases t with
    | string s => cases arg.isOptionType <;> exact ⟨_, rfl, s, rfl, .inl rfl⟩
    | _ => exact hKind.elim
  | path =>
    rw [hValue] at hKind
    cases t with
    | path s => cases arg.isOptionType <;> exact ⟨_, rfl, s, rfl, .inr (.inl rfl)⟩
    | _ => exact hKind.elim
  | json =>
    rw [hValue] at hKind
    cases t with
    | json s => cases arg.isOptionType <;> exact ⟨_, rfl, s, rfl, .inr (.inr rfl)⟩
    | _ => exact hKind.elim

theorem extractField_none (hOption : arg.isOptionType = true ∨ arg.valueType = .bool) {inv : Invocation F}
    (hGet : inv.getArg arg.name = none) : ∃ v, extractField inv arg = .ok v ∧ v.isAbsent = true := by
  unfold extractField
  rw [hGet]
  rcases hOption with hOption | hBool
  · rw [hOption]
    cases arg.valueType <;> exact ⟨_, rfl, rfl⟩
  · rw [hBool]
    cases arg.isOptionType <;> exact ⟨_, rfl, rfl⟩

theorem valueType_of_parse {field : FieldDecl} (h : parseFieldArg field = .ok arg) (allowed : List String) :
    arg.valueType ≠ .enum allowed := by
  unfold parseFieldArg at h
  obtain ⟨scan, hScan, h⟩ := Lib.bind_eq_ok.mp h
  have hInfer : ∀ type, inferValueType type ≠ .enum allowed := by
    intro type
    unfold inferValueType
    split
    · nofun
    · repeat' split
      all_goals nofun
  have hRead : ∀ (attrs : List FieldAttr) (start : FieldScan), start.explicitValueType ≠ some (.enum allowed) →
      attrs.foldlM FieldScan.read start = .ok scan → scan.explicitValueType ≠ some (.enum allowed) := by
    intro attrs
    induction attrs with
    | nil => exact fun start hStart hEnd => Except.ok.inj hEnd ▸ hStart
    | cons attr attrs ih =>
      intro start hStart hEnd
      rw [List.foldlM_cons] at hEnd
      obtain ⟨next, hNext, hEnd⟩ := Lib.bind_eq_ok.mp hEnd
      refine ih next ?_ hEnd
      cases attr with
      | unknown name => exact nomatch hNext
      | json =>
        rw [← Except.ok.inj hNext]
        nofun
      | _ =>
        rw [← Except.ok.inj hNext]
        exact hStart
  rw [← Except.ok.inj h]
  dsimp only
  cases hExplicit : scan.explicitValueType with
  | none => exact hInfer _
  | some kind =>
    intro hKind
    exact hRead field.attrs .empty nofun hScan (hExplicit.trans (congrArg some hKind))

theorem valueType_of_expand (h : expandExoSpec casing decl = .ok (ns, operations)) (hOp : op ∈ operations)
    (hArg : arg ∈ op.args) (allowed : List String) : arg.valueType ≠ .enum allowed := by
  obtain ⟨variant, hVariant⟩ := args_of_expand h hOp
  unfold parseVariantArgs at hVariant
  split at hVariant
  · obtain ⟨field, -, hField⟩ :=
      Lib.Traversal.exists_of_forall₂_right (Lib.Traversal.mapM_eq_ok.mp hVariant) hArg
    exact valueType_of_parse hField allowed
  · rw [← Except.ok.inj hVariant] at hArg
    exact absurd hArg List.not_mem_nil
  · exact nomatch hVariant

/-! ## Consistent declarations agree -/

theorem fieldRight_of_consistent (hConsistent : arg.Consistent) (hEnum : ∀ allowed, arg.valueType ≠ .enum allowed)
    {input : List (String × Json)} {path : List String} {inv : Invocation F}
    (hGet : match given input arg.spec with
      | some json => ∃ t, inv.getArg arg.name = some t ∧ TypedValue.fromJson fmt json arg.spec = .ok t
      | none => absentArg fmt path arg.spec = .ok (inv.getArg arg.name)) :
    ∃ v, extractField inv arg = .ok v ∧ FieldRight fmt input arg v := by
  unfold FieldRight
  cases hGiven : given input arg.spec with
  | some json =>
    rw [hGiven] at hGet
    obtain ⟨t, ht, hJson⟩ := hGet
    obtain ⟨v, hv, hShows⟩ := extractField_some hConsistent hEnum ht (hasType_fromJson hJson)
    exact ⟨v, hv, t, hJson, hShows⟩
  | none =>
    rw [hGiven] at hGet
    have hGet : absentArg fmt path arg.spec = .ok (inv.getArg arg.name) := hGet
    unfold absentArg at hGet
    cases hDefault : arg.defaultValue with
    | some default =>
      rw [default_spec, hDefault, Option.some_or] at hGet
      dsimp only at hGet
      obtain ⟨t, ht, hSome⟩ := Lib.map_eq_ok.1 hGet
      obtain ⟨v, hv, hShows⟩ := extractField_some hConsistent hEnum hSome.symm (hasType_default ht)
      exact ⟨v, hv, t, ht, hShows⟩
    | none =>
      rw [default_spec, hDefault, Option.none_or] at hGet
      by_cases hFlag : arg.kind = .flag
      · rw [if_pos hFlag] at hGet
        dsimp only at hGet
        obtain ⟨t, ht, hSome⟩ := Lib.map_eq_ok.1 hGet
        obtain ⟨v, hv, hShows⟩ := extractField_some hConsistent hEnum hSome.symm (hasType_default ht)
        refine ⟨v, hv, ?_⟩
        have hFalse : t = .bool false := by
          unfold typedValueFromDefault at ht
          rw [valueType_spec, if_pos hFlag] at ht
          exact (Except.ok.inj ht).symm
        subst hFalse
        cases v with
        | bool b =>
          have hb : (TypedValue.bool false : TypedValue F) = .bool b := hShows
          rw [← TypedValue.bool.inj hb]
          rfl
        | int i => exact absurd hShows.choose_spec.2 nofun
        | text s => exact absurd hShows.choose_spec.2 nofun
      · rw [if_neg hFlag] at hGet
        dsimp only at hGet
        split at hGet
        · next hOptional =>
          rw [optional_spec hDefault, decide_eq_false hFlag, Bool.or_false] at hOptional
          have hSome : arg.isOptionType = true ∨ arg.valueType = .bool := by
            rcases hConsistent.optional hOptional with h | h | h
            · exact .inl h
            · rw [hDefault] at h
              exact absurd h Bool.false_ne_true
            · exact .inr h
          obtain ⟨v, hv, hAbsent⟩ := extractField_none hSome (Except.ok.inj hGet).symm
          exact ⟨v, hv, hAbsent⟩
        · exact absurd hGet nofun

theorem lookup_operations (hNames : (operations.map OperationMeta.operationName).Nodup) (hOp : op ∈ operations) :
    (operationsSpec operations).lookup op.operationName = some op.spec := by
  unfold operationsSpec
  refine Table.lookup_extend ?_ (List.mem_map.2 ⟨op, hOp, rfl⟩)
  rw [List.map_map]
  exact hNames

theorem find_operation (hNames : (operations.map OperationMeta.operationName).Nodup) (hOp : op ∈ operations) :
    (operations.find? fun o => o.operationName = op.operationName) = some op := by
  cases hFind : operations.find? fun o => o.operationName = op.operationName with
  | none =>
    have hNot := List.find?_eq_none.1 hFind op hOp
    exact absurd (decide_eq_true rfl) hNot
  | some o =>
    have hName := of_decide_eq_true (List.find?_eq_some_iff_append.1 hFind).1
    rw [List.inj_on_of_nodup_map hNames (List.mem_of_find?_eq_some hFind) hOp hName]

theorem fromInvocation_ok (hNames : (operations.map OperationMeta.operationName).Nodup) (hOp : op ∈ operations)
    {inv : Invocation F} (hPath : inv.path.2 = op.operationName) {values : List (String × FieldValue)} :
    fromInvocation ns operations inv = .ok (op.variantName, values) ↔
      List.Forall₂ (fun arg value => value.1 = arg.fieldName ∧ extractField inv arg = .ok value.2) op.args values := by
  unfold fromInvocation
  rw [hPath, find_operation hNames hOp]
  dsimp only
  constructor
  · intro h
    obtain ⟨values', hValues, h⟩ := Lib.bind_eq_ok.mp h
    obtain rfl : values' = values := (Prod.mk.inj (Except.ok.inj h)).2
    refine (Lib.Traversal.mapM_eq_ok.mp hValues).imp fun arg value hValue => ?_
    obtain ⟨v, hv, hPair⟩ := Lib.bind_eq_ok.mp hValue
    rw [← Except.ok.inj hPair]
    exact ⟨rfl, hv⟩
  · intro h
    refine Lib.bind_eq_ok.mpr ⟨values, Lib.Traversal.mapM_eq_ok.mpr (h.imp fun arg value hValue => ?_), rfl⟩
    exact Lib.bind_eq_ok.mpr ⟨value.2, hValue.2, by rw [← hValue.1]; rfl⟩

theorem agrees_of_consistent (hExpand : expandExoSpec casing decl = .ok (ns, operations))
    (h : Consistent operations) : Agrees fmt ns operations where
  names := h.names
  keys op hOp := (keysApart_iff (distinct_of_expand hExpand hOp)).2 (h.shorts op hOp)
  fields op hOp spec opSpec path input inv hLookup hSpec hInv := by
    have hDistinct := distinct_of_expand hExpand hOp
    have hKeys : KeysApart op.args := (keysApart_iff hDistinct).2 (h.shorts op hOp)
    rw [lookup_operations h.names hOp] at hLookup
    obtain rfl := Option.some.inj hLookup
    obtain ⟨readings, args, hReads, hFill, hEq⟩ := (fromJson_ok hSpec).1 hInv
    obtain ⟨values, hValues⟩ : ∃ values : List (String × FieldValue), List.Forall₂ (fun arg value =>
        (value.1 = arg.fieldName ∧ extractField inv arg = .ok value.2) ∧ FieldRight fmt input arg value.2)
          op.args values := by
      refine exists_forall₂ fun arg hArg => ?_
      obtain ⟨v, hv, hRight⟩ := fieldRight_of_consistent (h.args op hOp arg hArg)
        (valueType_of_expand hExpand hOp hArg)
        (getArg_accepted hKeys hDistinct hArg hReads hFill (congrArg Invocation.args hEq))
      exact ⟨(arg.fieldName, v), ⟨rfl, hv⟩, hRight⟩
    have hPath : inv.path.2 = op.operationName := congrArg (fun inv => inv.path.2) hEq
    refine ⟨values, (fromInvocation_ok h.names hOp hPath).2 (hValues.imp fun _ _ hBoth => hBoth.1), ?_⟩
    exact hValues.imp fun _ _ hBoth => ⟨hBoth.1.1, hBoth.2⟩

/-! ## Declarations that agree are consistent -/

def sampleOf : ValueType → Json
  | .bool => .bool true
  | .int | .float => .posInt 0
  | _ => .string ""

theorem fromJson_sampleOf (s : ArgSpec) (hEnum : ∀ allowed, s.valueType ≠ .enum allowed) :
    ∃ t, TypedValue.fromJson fmt (sampleOf s.valueType) s = .ok t := by
  unfold TypedValue.fromJson
  cases hKind : s.valueType with
  | enum allowed => exact absurd hKind (hEnum allowed)
  | _ => exact ⟨_, rfl⟩

def sampleInput (args : List ArgMeta) : List (String × Json) :=
  args.map fun arg => (arg.name, sampleOf arg.spec.valueType)

theorem given_sampleInput (hKeys : KeysApart op.args) {args : List ArgMeta} (hArgs : ∀ a ∈ args, a ∈ op.args)
    (hArg : arg ∈ op.args) :
    (arg ∈ args → given (sampleInput args) arg.spec = some (sampleOf arg.spec.valueType)) ∧
      (arg ∉ args → given (sampleInput args) arg.spec = none) := by
  have hNamed : ∀ a ∈ args, arg.spec.named a.name = true → a = arg := fun a hA h =>
    hKeys a.name a (hArgs a hA) arg hArg (named_own a) h
  unfold given
  cases hFind : (sampleInput args).reverse.find? fun field => arg.spec.named field.1 with
  | none =>
    refine ⟨fun hMem => ?_, fun _ => rfl⟩
    have hField : (arg.name, sampleOf arg.spec.valueType) ∈ (sampleInput args).reverse :=
      List.mem_reverse.2 (List.mem_map.2 ⟨arg, hMem, rfl⟩)
    exact absurd (named_own arg) (List.find?_eq_none.1 hFind _ hField)
  | some field =>
    obtain ⟨a, hA, rfl⟩ := List.mem_map.1 (List.mem_reverse.1 (List.mem_of_find?_eq_some hFind))
    obtain rfl := hNamed a hA (List.find?_eq_some_iff_append.1 hFind).1
    exact ⟨fun _ => rfl, fun hOut => absurd hA hOut⟩

theorem exists_accepted (hExpand : expandExoSpec casing decl = .ok (ns, operations)) (hOp : op ∈ operations)
    (hKeys : KeysApart op.args) (args : List ArgMeta) (hArgs : ∀ a ∈ args, a ∈ op.args)
    (hAbsent : ∀ a ∈ op.args, a ∉ args → a.spec.default = none ∧ a.spec.optional = true) (path : List String) :
    ∃ readings table, List.Forall₂ (ReadsAs fmt op.spec) (sampleInput args) readings ∧
      fillArgs fmt path op.spec.args (Table.extend ∅ readings) = .ok table := by
  have hDistinct := distinct_of_expand hExpand hOp
  obtain ⟨readings, hReads⟩ : ∃ readings, List.Forall₂ (ReadsAs fmt op.spec) (sampleInput args) readings := by
    refine exists_forall₂ fun field hField => ?_
    obtain ⟨a, hA, rfl⟩ := List.mem_map.1 hField
    have hEnum : ∀ allowed, a.spec.valueType ≠ .enum allowed := by
      intro allowed
      rw [valueType_spec]
      split
      · nofun
      · exact valueType_of_expand hExpand hOp (hArgs a hA) allowed
    obtain ⟨t, ht⟩ := @fromJson_sampleOf _ fmt a.spec hEnum
    exact ⟨(a.name, t), a.spec, findArg_named hKeys (hArgs a hA) (named_own a), id_spec a, ht⟩
  refine ⟨readings, _, hReads, fillArgs_same fun s hs => ?_⟩
  obtain ⟨a, hA, rfl⟩ := List.mem_map.1 hs
  by_cases hMem : a ∈ args
  · left
    have hLookup := lookup_readings hKeys hDistinct hA hReads ∅
    rw [(given_sampleInput hKeys hArgs hA).1 hMem] at hLookup
    obtain ⟨t, ht, -⟩ := hLookup
    rw [id_spec]
    exact AList.lookup_isSome.1 (ht ▸ rfl)
  · exact .inr (hAbsent a hA hMem)

/-- The specification of a program that has these operations and no others. -/
def onlyOperations (ns : NamespaceMeta) (operations : List OperationMeta) : CommandSpec :=
  ⟨AList.insert ns.name (operationsSpec operations) ∅, operationsSpec operations⟩

theorem resolve_onlyOperations (hNames : (operations.map OperationMeta.operationName).Nodup) (hOp : op ∈ operations) :
    ∃ path, (onlyOperations ns operations).resolve ns.name op.operationName = .ok (op.spec, path) := by
  unfold CommandSpec.resolve onlyOperations
  dsimp only
  split
  · rw [lookup_operations hNames hOp]
    exact ⟨_, rfl⟩
  · rw [Table.lookup_insert, if_pos rfl]
    dsimp only
    rw [lookup_operations hNames hOp]
    exact ⟨_, rfl⟩

theorem field_of_sample (hExpand : expandExoSpec casing decl = .ok (ns, operations))
    (h : Agrees fmt ns operations) (hOp : op ∈ operations) (args : List ArgMeta) (hArgs : ∀ a ∈ args, a ∈ op.args)
    (hAbsent : ∀ a ∈ op.args, a ∉ args → a.spec.default = none ∧ a.spec.optional = true) (hArg : arg ∈ op.args) :
    ∃ (inv : Invocation F) (path : List String) (v : FieldValue), extractField inv arg = .ok v ∧
      FieldRight fmt (sampleInput args) arg v ∧
        match given (sampleInput args) arg.spec with
        | some json => ∃ t, inv.getArg arg.name = some t ∧ TypedValue.fromJson fmt json arg.spec = .ok t
        | none => absentArg fmt path arg.spec = .ok (inv.getArg arg.name) := by
  have hKeys : KeysApart op.args := h.keys op hOp
  obtain ⟨path, hSpec⟩ := @resolve_onlyOperations ns operations op h.names hOp
  obtain ⟨readings, table, hReads, hFill⟩ := @exists_accepted _ fmt _ _ _ _ _ hExpand hOp hKeys args hArgs hAbsent path
  obtain ⟨inv, hArgsEq, hPath, hInv⟩ : ∃ inv : Invocation F, inv.args = table ∧ inv.path.2 = op.operationName ∧
      Invocation.fromJson fmt (.object (sampleInput args)) ns.name op.operationName
        (onlyOperations ns operations) = .ok inv :=
    ⟨_, rfl, rfl, (fromJson_ok hSpec).2 ⟨readings, table, hReads, hFill, rfl⟩⟩
  obtain ⟨values, hValues, hRight⟩ :=
    h.fields op hOp _ _ path _ _ (lookup_operations h.names hOp) hSpec hInv
  have hExtract := (fromInvocation_ok h.names hOp hPath).1 hValues
  have hGet := getArg_accepted hKeys (distinct_of_expand hExpand hOp) hArg hReads hFill hArgsEq
  obtain ⟨i, hi, rfl⟩ := List.getElem_of_mem hArg
  have hValue : i < values.length := hExtract.length_eq ▸ hi
  exact ⟨inv, path, (values.get ⟨i, hValue⟩).2, ((List.forall₂_iff_get.1 hExtract).2 i hi hValue).2,
    ((List.forall₂_iff_get.1 hRight).2 i hi hValue).2, hGet⟩

theorem consistent_of_agrees (hExpand : expandExoSpec casing decl = .ok (ns, operations))
    (h : Agrees fmt ns operations) : Consistent operations where
  names := h.names
  shorts op hOp := (keysApart_iff (distinct_of_expand hExpand hOp)).1 (h.keys op hOp)
  args op hOp arg hArg := by
    have hSample := field_of_sample hExpand h hOp op.args (fun _ ha => ha) (fun _ ha hOut => absurd ha hOut) hArg
    have hGiven := (given_sampleInput (h.keys op hOp) (fun _ ha => ha) hArg).1 hArg
    obtain ⟨inv, path, v, hv, hRight, -⟩ := hSample
    rw [FieldRight, hGiven] at hRight
    obtain ⟨t, ht, hShows⟩ := hRight
    have hType := hasType_fromJson ht
    -- a field whose type is no bool never shows a bool, and none shows a float
    have hFlag : arg.kind = .flag → arg.valueType = .bool := by
      intro hFlag
      rw [valueType_spec, if_pos hFlag] at hType
      by_contra hNot
      obtain ⟨b, rfl⟩ : ∃ b, t = .bool b := by
        cases t with
        | bool b => exact ⟨b, rfl⟩
        | _ => exact hType.elim
      cases v with
      | bool b' =>
        unfold extractField at hv
        cases hValue : arg.valueType with
        | bool => exact hNot hValue
        | _ =>
          rw [hValue] at hv
          cases hOption : arg.isOptionType <;> rw [hOption] at hv
          · obtain ⟨_, -, hEq⟩ := Lib.map_eq_ok.1 hv
            exact absurd hEq nofun
          · exact absurd (Except.ok.inj hv) nofun
      | int i => exact absurd hShows.choose_spec.2 nofun
      | text s => exact absurd hShows.choose_spec.2 nofun
    refine ⟨hFlag, fun hFloat => ?_, fun hOptional => ?_⟩
    · have hKind : arg.kind ≠ .flag := fun hKind => absurd ((hFlag hKind).symm.trans hFloat) nofun
      rw [valueType_spec, if_neg hKind, hFloat] at hType
      cases t with
      | float f =>
        cases v with
        | bool b => exact absurd hShows nofun
        | int i => exact absurd hShows.choose_spec.2 nofun
        | text s => exact absurd hShows.choose_spec.2 nofun
      | _ => exact hType.elim
    · by_contra hNot
      rw [not_or, not_or] at hNot
      obtain ⟨hOption, hDefault, hBool⟩ := hNot
      rw [Bool.not_eq_true] at hOption
      rw [Bool.not_eq_true, Option.isSome_eq_false_iff, Option.isNone_iff_eq_none] at hDefault
      have hKind : arg.kind ≠ .flag := fun hKind => hBool (hFlag hKind)
      have hSpec : arg.spec.default = none ∧ arg.spec.optional = true := by
        rw [default_spec, hDefault, if_neg hKind, optional_spec hDefault, hOptional]
        exact ⟨rfl, rfl⟩
      have hOut : ∀ a ∈ op.args, a ∉ op.args.filter (· ≠ arg) → a.spec.default = none ∧ a.spec.optional = true := by
        intro a ha hNotIn
        rw [List.mem_filter, not_and] at hNotIn
        have hEq := hNotIn ha
        rw [decide_eq_true_iff, not_not] at hEq
        exact hEq ▸ hSpec
      have hIn : ∀ a ∈ op.args.filter (· ≠ arg), a ∈ op.args := fun a ha => (List.mem_filter.1 ha).1
      obtain ⟨inv, path, v, hv, -, hGet⟩ := field_of_sample hExpand h hOp (op.args.filter (· ≠ arg)) hIn hOut hArg
      have hLeft : arg ∉ op.args.filter (· ≠ arg) := fun hMem => of_decide_eq_true (List.mem_filter.1 hMem).2 rfl
      rw [(given_sampleInput (h.keys op hOp) hIn hArg).2 hLeft] at hGet
      have hNone : absentArg fmt path arg.spec = .ok (inv.getArg arg.name) := hGet
      unfold absentArg at hNone
      rw [hSpec.1, hSpec.2, if_pos rfl] at hNone
      unfold extractField at hv
      rw [← Except.ok.inj hNone, hOption] at hv
      cases hValue : arg.valueType with
      | bool => exact hBool hValue
      | int | json =>
        rw [hValue] at hv
        exact absurd hv nofun
      | float | string | path | enum allowed =>
        rw [hValue] at hv
        dsimp only at hv
        rw [hDefault] at hv
        exact absurd hv nofun

/-- Both halves of a derived operation agree exactly when its declaration says the same to both. -/
theorem declaration_agrees_iff (hExpand : expandExoSpec casing decl = .ok (ns, operations)) :
    Agrees fmt ns operations ↔ Consistent operations :=
  ⟨consistent_of_agrees hExpand, agrees_of_consistent hExpand⟩

/-! ## A field that is optional for one half -/

def asciiCasing : Casing := ⟨Char.isUpper, Char.isLower, Char.toLower⟩

def goalField (attrs : List FieldAttr) : NamedFields where
  list := [⟨"goal", .path "String" [], attrs, by decide⟩]
  distinct := List.nodup_singleton _

def strikeDecl (attrs : List FieldAttr) : EnumDecl where
  attrs := [[.namespace_ "strike"]]
  variants := [⟨"Start", [.effect "write"], .named (goalField attrs)⟩]

def goalMeta (optional : Bool) : ArgMeta where
  name := "goal"
  fieldName := "goal"
  description := ""
  kind := .option
  valueType := .string
  optional := optional
  isOptionType := false
  short := none
  defaultValue := none

def strikeOperation (optional : Bool) : OperationMeta := ⟨"Start", "start", "", .write, false, [goalMeta optional]⟩

/-- The specification accepts an input without the goal, which the constructor asks for. -/
theorem optional_goal_is_missing :
    expandExoSpec asciiCasing (strikeDecl [.long, .optional]) = .ok (⟨"strike", ""⟩, [strikeOperation true]) ∧
      (∃ inv : Invocation Unit, Invocation.fromJson sampleFormats (.object []) "strike" "start"
          (onlyOperations ⟨"strike", ""⟩ [strikeOperation true]) = .ok inv ∧
        fromInvocation ⟨"strike", ""⟩ [strikeOperation true] inv = .error "Missing required argument: goal") ∧
      ¬ Agrees sampleFormats ⟨"strike", ""⟩ [strikeOperation true] := by
  have hInv : Invocation.fromJson sampleFormats (.object []) "strike" "start"
      (onlyOperations ⟨"strike", ""⟩ [strikeOperation true]) = .ok ⟨("strike", "start"), ∅, ∅⟩ := rfl
  have hFails : fromInvocation ⟨"strike", ""⟩ [strikeOperation true] (⟨("strike", "start"), ∅, ∅⟩ : Invocation Unit) =
      .error "Missing required argument: goal" := rfl
  refine ⟨rfl, ⟨_, hInv, hFails⟩, fun h => ?_⟩
  obtain ⟨values, hValues, -⟩ := h.fields (strikeOperation true) List.mem_cons_self _ _ ["strike", "start"] [] _
    (lookup_operations h.names List.mem_cons_self) rfl hInv
  exact absurd (hFails.symm.trans hValues) nofun

theorem declaration_agrees_iff_strike :
    Agrees sampleFormats ⟨"strike", ""⟩ [strikeOperation false] ↔ Consistent [strikeOperation false] :=
  @declaration_agrees_iff _ sampleFormats asciiCasing (strikeDecl [.long]) _ _ rfl

end Exosuit.Command
