import Exosuit.Hook.ConfigV3
import Exosuit.Hook.TomlValues
import Mathlib.Data.List.Nodup
import Mathlib.Data.List.Perm.Subperm

/-!
# Extracting inline checks

The inline checks of the workflows become checks with an id of their own, and the workflows refer
to them. The reader of TOML values is a parameter.
-/

namespace Exosuit.Hook

open Lib Lib.Toml

/-! ## Ids -/

/-- `last` is set when a dash was written last. -/
def slugFrom (out : List Char) (last : Bool) : List Char → List Char
  | [] => out
  | c :: cs =>
    if c.isAlphanum then slugFrom (out ++ [c.toLower]) false cs
    else if out ≠ [] ∧ !last then slugFrom (out ++ ['-']) true cs
    else slugFrom out last cs

def slugifyCheckId (label : String) : String :=
  let out := slugFrom [] false label.toList
  String.ofList (if out.getLast? = some '-' then out.dropLast else out)

def candidateId (base : String) (n : Nat) : String := if n = 0 then base else base ++ "-" ++ toString n

/-- The loop over the suffixes, as long as there is fuel. -/
def searchId (existing : List String) (base : String) : Nat → Nat → String
  | 0, n => candidateId base n
  | fuel + 1, n =>
    if candidateId base n ∈ existing then searchId existing base fuel (n + 1) else candidateId base n

/-- There is a free one among as many candidates as there are ids, and one more. -/
def freshId (existing : List String) (base : String) : String := searchId existing base existing.length 0

/-! ## Extraction -/

structure Extracted where
  id : String
  fields : List (String × Value)
  workflow : String

structure Extraction where
  existing : List String
  inlineIndex : Nat
  extracted : List Extracted

section

variable (parse : String → Option Value) (prefix_ : String)

def inlineId (s : Extraction) (fields : List (String × Value)) : String × Nat :=
  let slug := slugifyCheckId (((field fields "label").bind Value.asStr).getD "")
  let (base, index) :=
    if slug = "" then ("inline-" ++ toString s.inlineIndex, s.inlineIndex + 1) else (slug, s.inlineIndex)
  (freshId s.existing (if prefix_ = "" then base else prefix_ ++ "-" ++ base), index)

def extractValue (workflow : String) (s : Extraction) : Value → Except String (Value × Extraction)
  | .inlineTable fields => do
    let (id, index) := inlineId prefix_ s fields
    match ← valueFromToml parse ("\"" ++ escapeTomlString id ++ "\"") with
    | .value v => .ok (v, ⟨s.existing ++ [id], index, s.extracted ++ [⟨id, fields, workflow⟩]⟩)
    | _ => .error "internal error: expected string value"
  | v => .ok (v, s)

def extractValues (workflow : String) (s : Extraction) : List Value → Except String (List Value × Extraction)
  | [] => .ok ([], s)
  | v :: rest => do
    let (v, s) ← extractValue parse prefix_ workflow s v
    let (rest, s) ← extractValues workflow s rest
    return (v :: rest, s)

/-- Only the `checks` array of a table is looked at. -/
def extractWorkflow (s : Extraction) (w : String × Item) : Except String ((String × Item) × Extraction) :=
  match w.2 with
  | .table t =>
    match (Table.get t "checks").bind Item.asArray with
    | some checks => do
      let (checks, s) ← extractValues parse prefix_ w.1 s checks
      return ((w.1, .table (Table.insert t "checks" (.value (.array checks)))), s)
    | none => .ok (w, s)
  | _ => .ok (w, s)

def extractWorkflows (s : Extraction) : List (String × Item) → Except String (List (String × Item) × Extraction)
  | [] => .ok ([], s)
  | w :: rest => do
    let (w, s) ← extractWorkflow parse prefix_ s w
    let (rest, s) ← extractWorkflows s rest
    return (w :: rest, s)

def checkTable (fields : List (String × Value)) : Table :=
  fields.foldl (fun t e => Table.insert t e.1 (.value e.2)) []

def extractInlineChecks (doc : Table) : Except String (Table × List String) := do
  let version := ((Table.get doc "version").bind Item.asInteger).getD 0
  if version ≠ 3 then
    throw ("extract only works on v3 configs (found version " ++ toString version ++ ")")
  let doc := if (Table.get doc "check").isNone then Table.insert doc "check" (.table []) else doc
  let existing := ((asTableAt doc "check").getD []).map Prod.fst
  match asTableAt doc "workflow" with
  | none => return (doc, [])
  | some root =>
    let (root, s) ← extractWorkflows parse prefix_ ⟨existing, 0, []⟩ root
    let doc := Table.insert doc "workflow" (.table root)
    if s.extracted = [] then return (doc, [])
    match asTableAt doc "check" with
    | none => throw "internal error: missing [check] table"
    | some checks =>
      let checks := s.extracted.foldl (fun t e => Table.insert t e.id (.table (checkTable e.fields))) checks
      return (Table.insert doc "check" (.table checks), s.extracted.map fun e =>
        "Extracted inline check '" ++ e.id ++ "' from workflow '" ++ e.workflow ++ "'.")

end

/-! ## Fresh ids -/

theorem candidateId_injective (base : String) : Function.Injective (candidateId base) := by
  intro m n h
  have hText := congrArg String.toList h
  have hDigits : ∀ {m n : Nat}, (toString m).toList = (toString n).toList → m = n := by
    intro m n h
    have hParsed := congrArg (List.foldl (fun n c => 10 * n + (c.toNat - '0'.toNat)) 0) h
    rwa [Nat.toString_eq_repr, Nat.toString_eq_repr, Text.digits_repr, Text.digits_repr] at hParsed
  unfold candidateId at hText
  split at hText <;> split at hText
  · next hm hn => rw [hm, hn]
  · simp [String.toList_append] at hText
  · simp [String.toList_append] at hText
  · simp only [String.toList_append] at hText
    exact hDigits (List.append_cancel_left hText)

theorem searchId_mem {existing : List String} {base : String} {fuel n : Nat}
    (h : searchId existing base fuel n ∈ existing) :
    ∀ k ≤ fuel, candidateId base (n + k) ∈ existing := by
  induction fuel generalizing n with
  | zero =>
    intro k hk
    obtain rfl := Nat.le_zero.mp hk
    exact h
  | succ fuel ih =>
    rw [searchId] at h
    split at h
    · next hHere =>
      intro k hk
      cases k with
      | zero => exact hHere
      | succ k =>
        have hNext := ih h k (Nat.le_of_succ_le_succ hk)
        rwa [Nat.add_right_comm] at hNext
    · next hHere => exact absurd h hHere

/-- There are more candidates than ids. -/
theorem freshId_not_mem (existing : List String) (base : String) : freshId existing base ∉ existing := by
  intro h
  have hAll := searchId_mem h
  have hSub : (List.range (existing.length + 1)).map (candidateId base) ⊆ existing := by
    intro id hId
    obtain ⟨k, hk, rfl⟩ := List.mem_map.mp hId
    have hMem := hAll k (Nat.le_of_lt_succ (List.mem_range.mp hk))
    rwa [Nat.zero_add] at hMem
  have hNodup : ((List.range (existing.length + 1)).map (candidateId base)).Nodup :=
    List.nodup_range.map (candidateId_injective base)
  have hLength := (List.subperm_of_subset hNodup hSub).length_le
  rw [List.length_map, List.length_range] at hLength
  omega

/-! ## What the walk leaves -/

inductive Replaced : List Value → List Value → List Extracted → Prop
  | nil : Replaced [] [] []
  | keep {v : Value} {vs vs' : List Value} {new : List Extracted} : asFields v = none → Replaced vs vs' new →
      Replaced (v :: vs) (v :: vs') new
  | take {vs vs' : List Value} {e : Extracted} {new : List Extracted} : Replaced vs vs' new →
      Replaced (.inlineTable e.fields :: vs) (.string e.id :: vs') (e :: new)

inductive WorkflowReplaced : String × Item → String × Item → List Extracted → Prop
  | same {w : String × Item} :
      (∀ t vs, w.2 = .table t → (Table.get t "checks").bind Item.asArray ≠ some vs) → WorkflowReplaced w w []
  | array {id : String} {t : Table} {vs vs' : List Value} {new : List Extracted} :
      Table.get t "checks" = some (.value (.array vs)) → Replaced vs vs' new →
      WorkflowReplaced (id, .table t) (id, .table (Table.insert t "checks" (.value (.array vs')))) new

inductive WorkflowsReplaced : List (String × Item) → List (String × Item) → List Extracted → Prop
  | nil : WorkflowsReplaced [] [] []
  | cons {w w' : String × Item} {ws ws' : List (String × Item)} {new new' : List Extracted} :
      WorkflowReplaced w w' new → WorkflowsReplaced ws ws' new' →
      WorkflowsReplaced (w :: ws) (w' :: ws') (new ++ new')

/-- Ids are only added, and only new ones. -/
structure Extraction.Grows (s s' : Extraction) (new : List Extracted) : Prop where
  extracted : s'.extracted = s.extracted ++ new
  existing : s'.existing = s.existing ++ new.map Extracted.id
  nodup : s.existing.Nodup → s'.existing.Nodup

namespace Extraction.Grows

variable {s s' s'' : Extraction} {new new' : List Extracted}

theorem refl (s : Extraction) : s.Grows s [] :=
  ⟨(List.append_nil _).symm, (List.append_nil _).symm, id⟩

theorem trans (h : s.Grows s' new) (h' : s'.Grows s'' new') : s.Grows s'' (new ++ new') where
  extracted := by rw [h'.extracted, h.extracted, List.append_assoc]
  existing := by rw [h'.existing, h.existing, List.map_append, List.append_assoc]
  nodup hNodup := h'.nodup (h.nodup hNodup)

end Extraction.Grows

section

variable {parse : String → Option Value} {prefix_ : String} {s s' : Extraction}

theorem extractValue_eq_ok (hParse : ReadsSpliced parse) {workflow : String} {v v' : Value}
    (h : extractValue parse prefix_ workflow s v = .ok (v', s')) :
    (asFields v = none ∧ v' = v ∧ s' = s) ∨
      ∃ e : Extracted, v = .inlineTable e.fields ∧ v' = .string e.id ∧ s.Grows s' [e] := by
  cases v with
  | inlineTable fields =>
    rw [extractValue] at h
    rcases valueFromToml_quoted hParse (inlineId prefix_ s fields).1 with hRead | ⟨e, hRead⟩
    · simp only [hRead, bind, Except.bind] at h
      cases h
      have hFresh : (inlineId prefix_ s fields).1 ∉ s.existing := freshId_not_mem _ _
      refine .inr ⟨⟨(inlineId prefix_ s fields).1, fields, workflow⟩, rfl, rfl, rfl, rfl, fun hNodup => ?_⟩
      exact List.nodup_append.mpr ⟨hNodup, List.nodup_singleton _, fun a ha b hb hEq =>
        hFresh (by rw [← List.mem_singleton.mp hb, ← hEq]; exact ha)⟩
    · simp only [hRead, bind, Except.bind] at h
      cases h
  | string _ => cases h; exact .inl ⟨rfl, rfl, rfl⟩
  | integer _ => cases h; exact .inl ⟨rfl, rfl, rfl⟩
  | boolean _ => cases h; exact .inl ⟨rfl, rfl, rfl⟩
  | array _ => cases h; exact .inl ⟨rfl, rfl, rfl⟩
  | other _ => cases h; exact .inl ⟨rfl, rfl, rfl⟩

theorem extractValues_eq_ok (hParse : ReadsSpliced parse) {workflow : String} {vs vs' : List Value}
    (h : extractValues parse prefix_ workflow s vs = .ok (vs', s')) :
    ∃ new, Replaced vs vs' new ∧ s.Grows s' new := by
  induction vs generalizing s vs' with
  | nil =>
    cases h
    exact ⟨[], .nil, .refl _⟩
  | cons v vs ih =>
    rw [extractValues] at h
    cases hHead : extractValue parse prefix_ workflow s v with
    | error e =>
      rw [hHead] at h
      cases h
    | ok r =>
      obtain ⟨v₁, s₁⟩ := r
      rw [hHead] at h
      simp only [bind, Except.bind] at h
      cases hTail : extractValues parse prefix_ workflow s₁ vs with
      | error e =>
        rw [hTail] at h
        cases h
      | ok r =>
        obtain ⟨vs₁, s₂⟩ := r
        rw [hTail] at h
        cases h
        obtain ⟨new, hReplaced, hGrows⟩ := ih hTail
        rcases extractValue_eq_ok hParse hHead with ⟨hPlain, rfl, rfl⟩ | ⟨e, rfl, rfl, hOne⟩
        · exact ⟨new, .keep hPlain hReplaced, hGrows⟩
        · exact ⟨e :: new, .take hReplaced, hOne.trans hGrows⟩

theorem extractWorkflow_eq_ok (hParse : ReadsSpliced parse) {w w' : String × Item}
    (h : extractWorkflow parse prefix_ s w = .ok (w', s')) :
    ∃ new, WorkflowReplaced w w' new ∧ s.Grows s' new := by
  obtain ⟨id, item⟩ := w
  unfold extractWorkflow at h
  split at h
  · next t hTable =>
    cases hTable
    split at h
    · next vs hChecks =>
      cases hValues : extractValues parse prefix_ id s vs with
      | error e =>
        rw [hValues] at h
        cases h
      | ok r =>
        obtain ⟨vs₁, s₁⟩ := r
        rw [hValues] at h
        cases h
        obtain ⟨new, hReplaced, hGrows⟩ := extractValues_eq_ok hParse hValues
        refine ⟨new, .array ?_ hReplaced, hGrows⟩
        obtain ⟨item, hGet, hArray⟩ := Option.bind_eq_some_iff.mp hChecks
        rw [hGet]
        match item, hArray with
        | .value (.array _), rfl => rfl
    · next hNone =>
      cases h
      refine ⟨[], .same ?_, .refl s⟩
      rintro _ vs ⟨⟩ hSome
      rw [hNone] at hSome
      cases hSome
  · next hNot =>
    cases h
    exact ⟨[], .same fun t _ hTable => absurd hTable (hNot t), .refl s⟩

theorem extractWorkflows_eq_ok (hParse : ReadsSpliced parse) {ws ws' : List (String × Item)}
    (h : extractWorkflows parse prefix_ s ws = .ok (ws', s')) :
    ∃ new, WorkflowsReplaced ws ws' new ∧ s.Grows s' new := by
  induction ws generalizing s ws' with
  | nil =>
    cases h
    exact ⟨[], .nil, .refl _⟩
  | cons w ws ih =>
    rw [extractWorkflows] at h
    cases hHead : extractWorkflow parse prefix_ s w with
    | error e =>
      rw [hHead] at h
      cases h
    | ok r =>
      obtain ⟨w₁, s₁⟩ := r
      rw [hHead] at h
      simp only [bind, Except.bind] at h
      cases hTail : extractWorkflows parse prefix_ s₁ ws with
      | error e =>
        rw [hTail] at h
        cases h
      | ok r =>
        obtain ⟨ws₁, s₂⟩ := r
        rw [hTail] at h
        cases h
        obtain ⟨new, hReplaced, hGrows⟩ := extractWorkflow_eq_ok hParse hHead
        obtain ⟨new', hReplaced', hGrows'⟩ := ih hTail
        exact ⟨new ++ new', .cons hReplaced hReplaced', hGrows.trans hGrows'⟩

end

/-! ## What the replaced checks mean -/

theorem foldl_insert {α : Type} {key : α → String} {item : α → Item} {l : List α} {t : Table}
    (hNodup : (t.map Prod.fst ++ l.map key).Nodup) :
    l.foldl (fun t a => Table.insert t (key a) (item a)) t = t ++ l.map fun a => (key a, item a) := by
  induction l generalizing t with
  | nil => exact (List.append_nil t).symm
  | cons a l ih =>
    rw [List.map_cons] at hNodup
    have hFresh : key a ∉ t.map Prod.fst := fun hMem =>
      (List.nodup_append.mp hNodup).2.2 _ hMem _ List.mem_cons_self rfl
    rw [List.foldl_cons, Table.insert_of_not_mem hFresh, ih, List.map_cons, List.append_assoc,
      List.singleton_append]
    rwa [List.map_append, List.map_singleton, List.append_assoc, List.singleton_append]

theorem read_checkTable {fields : List (String × Value)} {check : CheckV3}
    (h : CheckV3.read (.inlineTable fields) = some check) :
    CheckV3.read (itemValue (.table (checkTable fields))) = some check := by
  have hKeys := (readStruct_eq_some.mp h).1
  rw [keysAllowed, Bool.and_eq_true, decide_eq_true_eq] at hKeys
  have hTable : checkTable fields = fields.map fun e => (e.1, Item.value e.2) :=
    @foldl_insert _ Prod.fst (fun e => Item.value e.2) fields [] hKeys.1
  rw [hTable, itemValue, tableFields_map_value, h]

/-- The checks that the extracted fields are read as. -/
def Reads (new : List Extracted) (checks : List (String × CheckV3)) : Prop :=
  List.Forall₂ (fun e c => c.1 = e.id ∧ CheckV3.read (.inlineTable e.fields) = some c.2) new checks

inductive SameCheck (checks : List (String × CheckV3)) : CheckRefV3 → CheckRefV3 → Prop
  | kept (ref : CheckRefV3) : SameCheck checks ref ref
  | taken {e : String × CheckV3} : e ∈ checks → SameCheck checks (.inline e.2) (.ref e.1)

theorem SameCheck.mono {checks checks' : List (String × CheckV3)} (hSub : checks ⊆ checks')
    {ref ref' : CheckRefV3} (h : SameCheck checks ref ref') : SameCheck checks' ref ref' := by
  cases h with
  | kept => exact .kept ref
  | taken hMem => exact .taken (hSub hMem)

theorem Replaced.reads {vs vs' : List Value} {new : List Extracted} (h : Replaced vs vs' new)
    {refs : List CheckRefV3} (hRead : List.Forall₂ (fun v ref => CheckRefV3.read v = some ref) vs refs) :
    ∃ checks refs', Reads new checks ∧
      List.Forall₂ (fun v ref => CheckRefV3.read v = some ref) vs' refs' ∧
      List.Forall₂ (SameCheck checks) refs refs' ∧ ∀ e ∈ checks, CheckRefV3.inline e.2 ∈ refs := by
  induction h generalizing refs with
  | nil =>
    cases hRead
    exact ⟨[], [], .nil, .nil, .nil, List.forall_mem_nil _⟩
  | keep hPlain hRest ih =>
    cases hRead with
    | @cons _ ref _ refs hHead hTail =>
      obtain ⟨checks, refs', hChecks, hRefs', hSame, hFrom⟩ := ih hTail
      exact ⟨checks, ref :: refs', hChecks, .cons hHead hRefs', .cons (.kept ref) hSame,
        fun e he => List.mem_cons_of_mem _ (hFrom e he)⟩
  | @take vs vs' e new hRest ih =>
    cases hRead with
    | @cons _ ref _ refs hHead hTail =>
      obtain ⟨checks, refs', hChecks, hRefs', hSame, hFrom⟩ := ih hTail
      obtain ⟨check, hCheck, rfl⟩ := Option.map_eq_some_iff.mp hHead
      have hSub : checks ⊆ (e.id, check) :: checks := List.subset_cons_self _ _
      refine ⟨(e.id, check) :: checks, .ref e.id :: refs', .cons ⟨rfl, hCheck⟩ hChecks, .cons rfl hRefs',
        .cons (SameCheck.taken (e := (e.id, check)) List.mem_cons_self) (hSame.imp fun _ _ h => h.mono hSub), ?_⟩
      rw [List.forall_mem_cons]
      exact ⟨List.mem_cons_self, fun e he => List.mem_cons_of_mem _ (hFrom e he)⟩

def SameWorkflow (checks : List (String × CheckV3)) (w w' : WorkflowV3) : Prop :=
  w' = { w with checks := w'.checks } ∧ List.Forall₂ (SameCheck checks) w.checks w'.checks

theorem SameWorkflow.refl (checks : List (String × CheckV3)) (w : WorkflowV3) : SameWorkflow checks w w :=
  ⟨rfl, List.forall₂_same.mpr fun ref _ => .kept ref⟩

theorem SameWorkflow.mono {checks checks' : List (String × CheckV3)} (hSub : checks ⊆ checks')
    {w w' : WorkflowV3} (h : SameWorkflow checks w w') : SameWorkflow checks' w w' :=
  ⟨h.1, h.2.imp fun _ _ h => h.mono hSub⟩

theorem WorkflowReplaced.reads {w w' : String × Item} {new : List Extracted} (h : WorkflowReplaced w w' new)
    {workflow : WorkflowV3} (hRead : WorkflowV3.read (itemValue w.2) = some workflow) :
    ∃ checks workflow', Reads new checks ∧ w'.1 = w.1 ∧ WorkflowV3.read (itemValue w'.2) = some workflow' ∧
      SameWorkflow checks workflow workflow' ∧ ∀ e ∈ checks, CheckRefV3.inline e.2 ∈ workflow.checks := by
  cases h with
  | same => exact ⟨[], workflow, .nil, rfl, hRead, .refl _ _, List.forall_mem_nil _⟩
  | @array id t vs vs' _ hChecks hReplaced =>
    rw [itemValue, WorkflowV3.read, readStruct_eq_some, keys_tableFields] at hRead
    obtain ⟨hKeys, hFields⟩ := hRead
    have hRefs := WorkflowV3.checks_of_ofFields hFields
    rw [field_tableFields, hChecks, Option.map_some, withDefault_some, itemValue] at hRefs
    obtain ⟨checks, refs', hReads, hRefs', hSame, hFrom⟩ := hReplaced.reads (Traversal.mapM_eq_some.mp hRefs)
    refine ⟨checks, { workflow with checks := refs' }, hReads, rfl, ?_, ⟨rfl, hSame⟩, hFrom⟩
    rw [itemValue, WorkflowV3.read, readStruct_eq_some, keys_tableFields, Table.keys_insert,
      if_pos (Table.mem_keys_of_get hChecks)]
    refine ⟨hKeys, WorkflowV3.ofFields_checks (fun key hKey => ?_) hFields ?_⟩
    · rw [field_tableFields, field_tableFields, Table.get_insert, if_neg hKey]
    · rw [field_tableFields, Table.get_insert, if_pos rfl, Option.map_some, withDefault_some]
      exact Traversal.mapM_eq_some.mpr hRefs'

theorem WorkflowsReplaced.reads {ws ws' : List (String × Item)} {new : List Extracted}
    (h : WorkflowsReplaced ws ws' new) {workflows : List (String × WorkflowV3)}
    (hRead : List.Forall₂ (fun (e : String × Item) (a : String × WorkflowV3) =>
      a.1 = e.1 ∧ WorkflowV3.read (itemValue e.2) = some a.2) ws workflows) :
    ∃ checks workflows', Reads new checks ∧ ws'.map Prod.fst = ws.map Prod.fst ∧
      List.Forall₂ (fun (e : String × Item) (a : String × WorkflowV3) =>
        a.1 = e.1 ∧ WorkflowV3.read (itemValue e.2) = some a.2) ws' workflows' ∧
      List.Forall₂ (fun a a' => a'.1 = a.1 ∧ SameWorkflow checks a.2 a'.2) workflows workflows' ∧
      ∀ e ∈ checks, ∃ w ∈ workflows, CheckRefV3.inline e.2 ∈ w.2.checks := by
  induction h generalizing workflows with
  | nil =>
    cases hRead
    exact ⟨[], [], .nil, rfl, .nil, .nil, List.forall_mem_nil _⟩
  | @cons w w' ws ws' new new' hHead hRest ih =>
    cases hRead with
    | @cons _ a _ workflows hRead hReads =>
      obtain ⟨checks, a', hNew, hKey, hRead', hSame, hFrom⟩ := hHead.reads hRead.2
      obtain ⟨checks', workflows', hNew', hKeys, hReads', hSames, hFroms⟩ := ih hReads
      have hLeft : checks ⊆ checks ++ checks' := List.subset_append_left _ _
      have hRight : checks' ⊆ checks ++ checks' := List.subset_append_right _ _
      refine ⟨checks ++ checks', (a.1, a') :: workflows', List.rel_append hNew hNew', ?_, .cons ⟨?_, hRead'⟩ hReads',
        .cons ⟨rfl, hSame.mono hLeft⟩ (hSames.imp fun _ _ h => ⟨h.1, h.2.mono hRight⟩), ?_⟩
      · rw [List.map_cons, List.map_cons, hKey, hKeys]
      · rw [hKey, hRead.1]
      · intro e he
        rcases List.mem_append.mp he with hFirst | hSecond
        · exact ⟨a, List.mem_cons_self, hFrom e hFirst⟩
        · obtain ⟨w, hw, hInline⟩ := hFroms e hSecond
          exact ⟨w, List.mem_cons_of_mem _ hw, hInline⟩

/-! ## A second extraction -/

section

variable {parse : String → Option Value} {prefix_ : String} {s : Extraction}

theorem extractValues_plain {workflow : String} {vs : List Value} (h : ∀ v ∈ vs, asFields v = none) :
    extractValues parse prefix_ workflow s vs = .ok (vs, s) := by
  induction vs with
  | nil => rfl
  | cons v vs ih =>
    rw [List.forall_mem_cons] at h
    have hHead : extractValue parse prefix_ workflow s v = .ok (v, s) := by
      cases v with
      | inlineTable fields => exact nomatch h.1
      | _ => rfl
    rw [extractValues, hHead]
    simp only [bind, Except.bind, ih h.2]
    rfl

theorem Replaced.plain {vs vs' : List Value} {new : List Extracted} (h : Replaced vs vs' new) :
    ∀ v ∈ vs', asFields v = none := by
  induction h with
  | nil => nofun
  | keep hPlain _ ih => exact List.forall_mem_cons.mpr ⟨hPlain, ih⟩
  | take _ ih => exact List.forall_mem_cons.mpr ⟨rfl, ih⟩

theorem WorkflowReplaced.again {w w' : String × Item} {new : List Extracted} (h : WorkflowReplaced w w' new) :
    extractWorkflow parse prefix_ s w' = .ok (w', s) := by
  cases h with
  | same hNone =>
    obtain ⟨id, item⟩ := w
    unfold extractWorkflow
    split
    · next t hTable =>
      split
      · next vs hChecks => exact absurd hChecks (hNone t vs hTable)
      · rfl
    · rfl
  | @array id t vs vs' _ hChecks hReplaced =>
    have hGet : Table.get (Table.insert t "checks" (.value (.array vs'))) "checks" =
        some (.value (.array vs')) := by
      rw [Table.get_insert, if_pos rfl]
    have hArray : (Table.get (Table.insert t "checks" (.value (.array vs'))) "checks").bind Item.asArray =
        some vs' := by
      rw [hGet]
      rfl
    unfold extractWorkflow
    dsimp only
    rw [hArray]
    simp only [bind, Except.bind, extractValues_plain hReplaced.plain, Table.insert_of_get hGet]
    rfl

theorem WorkflowsReplaced.again {ws ws' : List (String × Item)} {new : List Extracted}
    (h : WorkflowsReplaced ws ws' new) : extractWorkflows parse prefix_ s ws' = .ok (ws', s) := by
  induction h with
  | nil => rfl
  | cons hHead _ ih =>
    rw [extractWorkflows, hHead.again]
    simp only [bind, Except.bind, ih]
    rfl

end

/-! ## The whole extraction -/

section

variable {parse : String → Option Value} {prefix_ : String} {doc doc' : Table} {changes : List String}

def withCheckTable (doc : Table) : Table :=
  if (Table.get doc "check").isNone then Table.insert doc "check" (.table []) else doc

/-- What the extraction did: nothing, or the workflows were walked and the checks put in. -/
inductive Outcome (parse : String → Option Value) (prefix_ : String) (doc doc' : Table) : List String → Prop
  | noWorkflows : asTableAt doc "workflow" = none → doc' = doc → Outcome parse prefix_ doc doc' []
  | noChecks {root root' : Table} {s : Extraction} : asTableAt doc "workflow" = some root →
      extractWorkflows parse prefix_ ⟨((asTableAt doc "check").getD []).map Prod.fst, 0, []⟩ root = .ok (root', s) →
      s.extracted = [] → doc' = Table.insert doc "workflow" (.table root') → Outcome parse prefix_ doc doc' []
  | checks {root root' checks : Table} {s : Extraction} : asTableAt doc "workflow" = some root →
      extractWorkflows parse prefix_ ⟨checks.map Prod.fst, 0, []⟩ root = .ok (root', s) →
      asTableAt doc "check" = some checks →
      doc' = Table.insert (Table.insert doc "workflow" (.table root')) "check" (.table
        (s.extracted.foldl (fun t e => Table.insert t e.id (.table (checkTable e.fields))) checks)) →
      Outcome parse prefix_ doc doc' (s.extracted.map fun e =>
        "Extracted inline check '" ++ e.id ++ "' from workflow '" ++ e.workflow ++ "'.")

theorem asTableAt_insert {t : Table} {key key' : String} {item : Item} (h : key' ≠ key) :
    asTableAt (Table.insert t key item) key' = asTableAt t key' := by
  rw [asTableAt, Table.get_insert, if_neg h, asTableAt]

theorem extractInlineChecks_eq_ok (h : extractInlineChecks parse prefix_ doc = .ok (doc', changes)) :
    ((Table.get doc "version").bind Item.asInteger).getD 0 = 3 ∧
      Outcome parse prefix_ (withCheckTable doc) doc' changes := by
  unfold extractInlineChecks at h
  dsimp only at h
  rw [← withCheckTable] at h
  by_cases hVersion : ((Table.get doc "version").bind Item.asInteger).getD 0 = 3
  · refine ⟨hVersion, ?_⟩
    rw [if_neg (not_not_intro hVersion)] at h
    simp only [bind, Except.bind, pure, Except.pure] at h
    cases hWorkflow : asTableAt (withCheckTable doc) "workflow" with
    | none =>
      rw [hWorkflow] at h
      cases h
      exact .noWorkflows hWorkflow rfl
    | some root =>
      rw [hWorkflow] at h
      dsimp only at h
      cases hWalk : extractWorkflows parse prefix_
          ⟨((asTableAt (withCheckTable doc) "check").getD []).map Prod.fst, 0, []⟩ root with
      | error e =>
        rw [hWalk] at h
        cases h
      | ok r =>
        obtain ⟨root', s⟩ := r
        rw [hWalk] at h
        dsimp only at h
        by_cases hNone : s.extracted = []
        · rw [if_pos hNone] at h
          cases h
          exact .noChecks hWorkflow hWalk hNone rfl
        · rw [if_neg hNone, asTableAt_insert (by decide)] at h
          cases hCheck : asTableAt (withCheckTable doc) "check" with
          | none =>
            rw [hCheck] at h
            cases h
          | some checks =>
            rw [hCheck] at h hWalk
            cases h
            exact .checks hWorkflow hWalk hCheck rfl
  · rw [if_pos hVersion] at h
    cases h

theorem fromDoc_withCheckTable {config : ConfigV3} (h : ConfigV3.fromDoc doc = some config) :
    ConfigV3.fromDoc (withCheckTable doc) = some config := by
  rw [withCheckTable]
  split
  · next hNone =>
    have hCheck : config.check = [] := by
      have hRead := (ConfigV3.fromDoc_eq_some.mp h).2.2.2.1
      rw [Option.isNone_iff_eq_none.mp hNone] at hRead
      exact (Option.some.inj hRead).symm
    have hEmpty : readMap CheckV3.read (itemValue (.table [])) = some config.check := by
      rw [hCheck]
      rfl
    exact ConfigV3.fromDoc_check h hEmpty
  · exact h

theorem withCheckTable_of_some {item : Item} (h : Table.get doc "check" = some item) :
    withCheckTable doc = doc := by
  rw [withCheckTable, h]
  rfl

theorem exists_check (doc : Table) : ∃ item, Table.get (withCheckTable doc) "check" = some item := by
  cases h : Table.get doc "check" with
  | none =>
    refine ⟨.table [], ?_⟩
    rw [withCheckTable, h, Option.isNone_none, if_pos rfl, Table.get_insert, if_pos rfl]
  | some item => exact ⟨item, (withCheckTable_of_some h).symm ▸ h⟩

theorem extract_plain (hVersion : ((Table.get doc "version").bind Item.asInteger).getD 0 = 3)
    (hCheck : ∃ item, Table.get doc "check" = some item)
    (hRoot : ∀ root, asTableAt doc "workflow" = some root → Table.get doc "workflow" = some (.table root) ∧
      ∀ s, extractWorkflows parse prefix_ s root = .ok (root, s)) :
    extractInlineChecks parse prefix_ doc = .ok (doc, []) := by
  obtain ⟨item, hItem⟩ := hCheck
  unfold extractInlineChecks
  dsimp only
  rw [← withCheckTable, withCheckTable_of_some hItem, if_neg (not_not_intro hVersion)]
  simp only [bind, Except.bind, pure, Except.pure]
  cases hWorkflow : asTableAt doc "workflow" with
  | none => rfl
  | some root =>
    obtain ⟨hGet, hWalk⟩ := hRoot root hWorkflow
    dsimp only
    rw [hWalk]
    dsimp only
    rw [if_pos rfl, Table.insert_of_get hGet]

end

/-! ## The meaning is kept -/

/-- The checks are those before and the extracted ones, all under ids of their own; every workflow
has the same sequence of checks; nothing else is changed. -/
structure MeaningKept (before after : ConfigV3) (new : List (String × CheckV3)) : Prop where
  check : after.check = before.check ++ new
  nodup : (after.check.map Prod.fst).Nodup
  workflow : List.Forall₂ (fun w w' => w'.1 = w.1 ∧ w'.2 = { w.2 with checks := w'.2.checks } ∧
    w'.2.checks.map after.resolveCheckRef = w.2.checks.map before.resolveCheckRef) before.workflow after.workflow
  rest : after = { before with check := after.check, workflow := after.workflow }

section

variable {before after : ConfigV3} {new : List (String × CheckV3)}

theorem resolve_same {ref ref' : CheckRefV3} (hCheck : after.check = before.check ++ new)
    (hNodup : (after.check.map Prod.fst).Nodup) (hValid : ConfigV3.RefValid before.checkKeys ref)
    (h : SameCheck new ref ref') : after.resolveCheckRef ref' = before.resolveCheckRef ref := by
  cases h with
  | kept =>
    cases ref with
    | inline check => rfl
    | ref name =>
      obtain ⟨e, he, hName⟩ := List.mem_map.mp hValid
      have hFound : (before.check.find? fun e => e.1 == name).isSome :=
        List.find?_isSome.mpr ⟨e, he, beq_iff_eq.mpr hName⟩
      rw [ConfigV3.resolveCheckRef, ConfigV3.resolveCheckRef, hCheck, List.find?_append,
        Option.or_of_isSome hFound]
  | @taken e hMem =>
    have hFind := Traversal.find_of_mem hNodup (hCheck ▸ List.mem_append_right before.check hMem)
    rw [ConfigV3.resolveCheckRef, hFind]
    rfl

theorem meaningKept {workflow : List (String × WorkflowV3)} (hValid : before.validate = .ok ())
    (hNodup : ((before.check ++ new).map Prod.fst).Nodup)
    (hSame : List.Forall₂ (fun a a' => a'.1 = a.1 ∧ SameWorkflow new a.2 a'.2) before.workflow workflow)
    (hFrom : ∀ e ∈ new, ∃ w ∈ before.workflow, CheckRefV3.inline e.2 ∈ w.2.checks) :
    ConfigV3.validate { before with check := before.check ++ new, workflow := workflow } = .ok () ∧
      MeaningKept before { before with check := before.check ++ new, workflow := workflow } new := by
  obtain ⟨hVersion, hChecks, hHooks, hRefs⟩ := ConfigV3.validate_eq_ok.mp hValid
  have hKeys : workflow.map Prod.fst = before.workflow.map Prod.fst :=
    @Traversal.map_fst_eq _ _ _ (SameWorkflow new) _ _ hSame
  constructor
  · rw [ConfigV3.validate_eq_ok]
    refine ⟨hVersion, ?_, ?_, ?_⟩
    · intro e he
      rcases List.mem_append.mp he with hOld | hNew
      · exact hChecks e hOld
      · obtain ⟨w, hw, hInline⟩ := hFrom e hNew
        exact hRefs w hw _ hInline
    · intro hook hHook w hw
      rw [hKeys]
      exact hHooks hook hHook w hw
    · intro w' hw' ref' hRef'
      obtain ⟨w, hw, -, -, hChecksSame⟩ := Traversal.exists_of_forall₂_right hSame hw'
      obtain ⟨ref, hRef, hSameRef⟩ := Traversal.exists_of_forall₂_right hChecksSame hRef'
      have hMore : before.checkKeys ⊆ (before.check ++ new).map Prod.fst := by
        rw [List.map_append]
        exact List.subset_append_left _ _
      cases hSameRef with
      | kept =>
        cases ref' with
        | inline check => exact hRefs w hw _ hRef
        | ref name => exact hMore (hRefs w hw _ hRef)
      | taken hMem => exact List.mem_map_of_mem (List.mem_append_right _ hMem)
  · refine ⟨rfl, hNodup, ?_, rfl⟩
    refine Traversal.forall₂_mem hSame fun w w' hw h => ⟨h.1, h.2.1, ?_⟩
    refine Traversal.map_eq_of_forall₂ (Traversal.forall₂_mem h.2.2 fun ref ref' hRef hSameRef => ?_)
    exact resolve_same rfl hNodup (hRefs w hw ref hRef) hSameRef

end

/-! ## Extraction keeps the meaning -/

section

variable {parse : String → Option Value} {prefix_ : String} {doc doc' : Table} {changes : List String}
variable {before : ConfigV3}

theorem walked (hParse : ReadsSpliced parse) {keys : List String} {root root' : Table} {s : Extraction}
    (hRead : ConfigV3.fromDoc doc = some before) (hRoot : asTableAt doc "workflow" = some root)
    (hNodup : keys.Nodup) (hWalk : extractWorkflows parse prefix_ ⟨keys, 0, []⟩ root = .ok (root', s)) :
    ∃ new workflow, Reads s.extracted new ∧ (keys ++ s.extracted.map Extracted.id).Nodup ∧
      readMap WorkflowV3.read (itemValue (.table root')) = some workflow ∧
      List.Forall₂ (fun a a' => a'.1 = a.1 ∧ SameWorkflow new a.2 a'.2) before.workflow workflow ∧
      (∀ e ∈ new, ∃ w ∈ before.workflow, CheckRefV3.inline e.2 ∈ w.2.checks) ∧
      ∀ prefix' s', extractWorkflows parse prefix' s' root' = .ok (root', s') := by
  obtain ⟨extracted, hReplaced, hGrows⟩ := extractWorkflows_eq_ok hParse hWalk
  have hExtracted : s.extracted = extracted := hGrows.extracted
  have hWorkflow := (ConfigV3.fromDoc_eq_some.mp hRead).2.2.2.2.1
  obtain ⟨hKeys, hEntries⟩ := readMap_table.mp (ConfigV3.readMap_of_withDefault hRoot hWorkflow)
  obtain ⟨new, workflow, hReads, hSameKeys, hEntries', hSame, hFrom⟩ := hReplaced.reads hEntries
  refine ⟨new, workflow, hExtracted ▸ hReads, ?_, readMap_table.mpr ⟨hSameKeys ▸ hKeys, hEntries'⟩, hSame, hFrom,
    fun _ _ => hReplaced.again⟩
  rw [hExtracted, ← hGrows.existing]
  exact hGrows.nodup hNodup

theorem read_extracted {checks : Table} {extracted : List Extracted} {new : List (String × CheckV3)}
    (hRead : ConfigV3.fromDoc doc = some before) (hChecks : asTableAt doc "check" = some checks)
    (hNodup : (checks.map Prod.fst ++ extracted.map Extracted.id).Nodup) (hNew : Reads extracted new) :
    readMap CheckV3.read (itemValue (.table
      (extracted.foldl (fun t e => Table.insert t e.id (.table (checkTable e.fields))) checks))) =
        some (before.check ++ new) := by
  have hCheck := (ConfigV3.fromDoc_eq_some.mp hRead).2.2.2.1
  obtain ⟨-, hEntries⟩ := readMap_table.mp (ConfigV3.readMap_of_withDefault hChecks hCheck)
  rw [foldl_insert hNodup, readMap_table, List.map_append, List.map_map]
  refine ⟨hNodup, List.rel_append hEntries ?_⟩
  rw [List.forall₂_map_left_iff]
  exact hNew.imp fun e c h => ⟨h.1, read_checkTable h.2⟩

theorem check_nodup (h : ConfigV3.fromDoc doc = some before) : (before.check.map Prod.fst).Nodup := by
  have hCheck := (ConfigV3.fromDoc_eq_some.mp h).2.2.2.1
  cases hGet : Table.get doc "check" with
  | none =>
    rw [hGet] at hCheck
    rw [← Option.some.inj hCheck]
    exact List.nodup_nil
  | some item =>
    rw [hGet, Option.map_some, withDefault_some] at hCheck
    exact readMap_nodup hCheck

theorem check_keys (h : ConfigV3.fromDoc doc = some before) {checks : Table}
    (hChecks : asTableAt doc "check" = some checks) : before.check.map Prod.fst = checks.map Prod.fst := by
  have hCheck := (ConfigV3.fromDoc_eq_some.mp h).2.2.2.1
  exact @Traversal.map_fst_eq _ _ _ (fun v a => CheckV3.read (itemValue v) = some a) _ _
    (readMap_table.mp (ConfigV3.readMap_of_withDefault hChecks hCheck)).2

theorem existing_nodup (h : ConfigV3.fromDoc doc = some before) :
    (((asTableAt doc "check").getD []).map Prod.fst).Nodup := by
  cases hChecks : asTableAt doc "check" with
  | none => exact List.nodup_nil
  | some checks =>
    rw [Option.getD_some, ← check_keys h hChecks]
    exact check_nodup h

theorem version_insert {key : String} {item : Item} (h : "version" ≠ key) :
    Table.get (Table.insert doc key item) "version" = Table.get doc "version" := by
  rw [Table.get_insert, if_neg h]

end

/-- Extracting the inline checks of a valid document gives a valid one with the same meaning, and
a second extraction changes nothing. -/
theorem extraction_keeps_meaning {parse : String → Option Value} (hParse : ReadsSpliced parse)
    {prefix_ : String} {doc doc' : Table} {changes : List String} {before : ConfigV3}
    (hRead : ConfigV3.fromDoc doc = some before) (hValid : before.validate = .ok ())
    (h : extractInlineChecks parse prefix_ doc = .ok (doc', changes)) :
    ∃ after new, ConfigV3.fromDoc doc' = some after ∧ after.validate = .ok () ∧
      MeaningKept before after new ∧ new.length = changes.length ∧
      ∀ prefix', extractInlineChecks parse prefix' doc' = .ok (doc', []) := by
  obtain ⟨hVersion, hOutcome⟩ := extractInlineChecks_eq_ok h
  have hRead := fromDoc_withCheckTable hRead
  have hVersion : ((Table.get (withCheckTable doc) "version").bind Item.asInteger).getD 0 = 3 := by
    rw [withCheckTable]
    split
    · rwa [version_insert (by decide)]
    · exact hVersion
  have hCheck := exists_check doc
  generalize withCheckTable doc = doc at hOutcome hRead hVersion hCheck
  cases hOutcome with
  | noWorkflows hNone hSame =>
    subst hSame
    have hKept := @meaningKept before [] before.workflow hValid
    rw [List.append_nil] at hKept
    obtain ⟨hAfter, hKept⟩ := hKept (check_nodup hRead)
      (List.forall₂_same.mpr fun w _ => ⟨rfl, .refl _ _⟩) (List.forall_mem_nil _)
    refine ⟨before, [], hRead, hAfter, hKept, rfl, fun prefix' => extract_plain hVersion hCheck ?_⟩
    intro root hRoot
    rw [hNone] at hRoot
    cases hRoot
  | @noChecks root root' s hRoot hWalk hNothing hDoc =>
    obtain ⟨new, workflow, hNew, -, hWorkflow, hSame, hFrom, hAgain⟩ :=
      walked hParse hRead hRoot (existing_nodup hRead) hWalk
    rw [hNothing] at hNew
    cases hNew
    have hKept := @meaningKept before [] workflow hValid
    rw [List.append_nil] at hKept
    obtain ⟨hAfter, hKept⟩ := hKept (check_nodup hRead) hSame (List.forall_mem_nil _)
    subst hDoc
    refine ⟨_, [], ConfigV3.fromDoc_workflow hRead hWorkflow, hAfter, hKept, rfl,
      fun prefix' => extract_plain ?_ ?_ ?_⟩
    · rwa [version_insert (by decide)]
    · rwa [Table.get_insert, if_neg (by decide)]
    · intro root₁ hRoot₁
      rw [asTableAt, Table.get_insert, if_pos rfl] at hRoot₁
      cases hRoot₁
      exact ⟨by rw [Table.get_insert, if_pos rfl], fun s => hAgain prefix' s⟩
  | @checks root root' checks s hRoot hWalk hChecks hDoc =>
    have hKeys := check_keys hRead hChecks
    obtain ⟨new, workflow, hNew, hNodup, hWorkflow, hSame, hFrom, hAgain⟩ :=
      walked hParse hRead hRoot (hKeys ▸ check_nodup hRead) hWalk
    have hAll : ((before.check ++ new).map Prod.fst).Nodup := by
      have hIds : new.map Prod.fst = s.extracted.map Extracted.id := Traversal.map_eq_of_forall₂ (hNew.imp fun _ _ h => h.1)
      rwa [List.map_append, hKeys, hIds]
    obtain ⟨hAfter, hKept⟩ := meaningKept hValid hAll hSame hFrom
    have hRead' := ConfigV3.fromDoc_workflow hRead hWorkflow
    have hChecks' : asTableAt (Table.insert doc "workflow" (.table root')) "check" = some checks := by
      rwa [asTableAt_insert (by decide)]
    have hRead'' := ConfigV3.fromDoc_check hRead' (read_extracted hRead' hChecks' hNodup hNew)
    subst hDoc
    refine ⟨_, new, hRead'', hAfter, hKept, ?_, fun prefix' => extract_plain ?_ ?_ ?_⟩
    · rw [List.length_map, hNew.length_eq]
    · rwa [version_insert (by decide), version_insert (by decide)]
    · exact ⟨_, by rw [Table.get_insert, if_pos rfl]⟩
    · intro root₁ hRoot₁
      rw [asTableAt_insert (by decide), asTableAt, Table.get_insert, if_pos rfl] at hRoot₁
      cases hRoot₁
      refine ⟨?_, fun s => hAgain prefix' s⟩
      rw [Table.get_insert, if_neg (by decide), Table.get_insert, if_pos rfl]

/-- A workflow with one check in its place, whose id is taken, and a reference. -/
def inlineDoc : Table :=
  [("version", .value (.integer 3)),
    ("check", .table [("lint", .table [("command", .value (.string "cargo clippy"))])]),
    ("workflow", .table [("main", .table [("checks", .value (.array
      [.inlineTable [("label", .string "Lint!"), ("command", .string "eslint")], .string "lint"]))])])]

theorem extraction_keeps_meaning_inlineDoc : ∃ before doc' changes after new,
    extractInlineChecks readValue "" inlineDoc = .ok (doc', changes) ∧ changes.length = 1 ∧
    ConfigV3.fromDoc inlineDoc = some before ∧ ConfigV3.fromDoc doc' = some after ∧
    MeaningKept before after new ∧ extractInlineChecks readValue "" doc' = .ok (doc', []) := by
  have hRead : ((ConfigV3.fromDoc inlineDoc).map fun config => config.validate.toBool) = some true := by
    decide +kernel
  have hRun : (extractInlineChecks readValue "" inlineDoc).toOption.map (fun r => r.2.length) = some 1 := by
    decide +kernel
  obtain ⟨before, hBefore, hValid⟩ := Option.map_eq_some_iff.mp hRead
  obtain ⟨r, hOk, hLength⟩ := Option.map_eq_some_iff.mp hRun
  have hValid : before.validate = .ok () := by
    cases hResult : before.validate with
    | ok => rfl
    | error e =>
      rw [hResult] at hValid
      cases hValid
  have hOk : extractInlineChecks readValue "" inlineDoc = .ok (r.1, r.2) := by
    cases hResult : extractInlineChecks readValue "" inlineDoc with
    | ok r' =>
      rw [hResult] at hOk
      exact congrArg Except.ok (Option.some.inj hOk)
    | error e =>
      rw [hResult] at hOk
      cases hOk
  obtain ⟨after, new, hAfter, -, hKept, -, hAgain⟩ :=
    extraction_keeps_meaning readValue_spliced hBefore hValid hOk
  exact ⟨before, r.1, r.2, after, new, hOk, hLength, hBefore, hAfter, hKept, hAgain ""⟩

end Exosuit.Hook
