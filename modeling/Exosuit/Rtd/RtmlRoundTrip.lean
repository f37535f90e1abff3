import Exosuit.Rtd.Rtml

/-!
# RTML read back

A document is read back from its RTML just when the reader changes none of its strings and no text
stands next to another, no optional string is empty, and no link stands within a link.
-/

namespace Exosuit.Rtd

open Lib

variable {R : Html.References}

/-! ## Strings -/

theorem textValue_escapeHtml (s : Str) : Html.textValue R (escapeHtml s) = Html.cleanText s := by
  rw [escapeHtml_eq]
  exact Html.textValue_escape Html.plain_markup Html.decode_escapeMarkup

theorem cleanText_iff {s : Str} : Html.cleanText s = s ↔ KeepsText s := Html.cleanText_eq_self

theorem attrValue_iff {s : Str} : Html.attrValue R (escapeAttr s) = s ↔ KeepsAttr R s :=
  Html.attrValue_escapeQuotes

theorem escapeHtml_append (s t : Str) : escapeHtml s ++ escapeHtml t = escapeHtml (s ++ t) := by
  rw [escapeHtml_eq, escapeHtml_eq, escapeHtml_eq, List.flatMap_append]

theorem textNode_escapeHtml (s : Str) : Html.textNode R (escapeHtml s) =
    if Html.cleanText s = [] then [] else [.text (Html.cleanText s)] := by
  rw [Html.textNode, textValue_escapeHtml]

theorem stringify_injective : Function.Injective stringify := by
  intro args args' h
  have hFormed : ∀ args : List JsonText.Value,
      JsonText.wellFormed (.array (args.map JsonText.Value.json)) = true := by
    intro args
    rw [JsonText.wellFormed]
    induction args with
    | nil => rfl
    | cons a args ih => rw [List.map_cons, JsonText.wellFormedItems, a.wellFormed, ih, Bool.and_self]
  have hPrint : JsonText.print (.array (args.map JsonText.Value.json)) ++ [] =
      JsonText.print (.array (args'.map JsonText.Value.json)) ++ [] := congrArg (· ++ []) h
  obtain ⟨hSame, -⟩ := JsonText.print_append_inj _ _ [] [] (hFormed args) (hFormed args') nofun nofun hPrint
  have hJson : Function.Injective JsonText.Value.json := by
    rintro ⟨v, hv⟩ ⟨w, hw⟩ h
    cases h
    rfl
  exact List.map_injective_iff.mpr hJson (Json.array.inj hSame)

/-! ## Attributes -/

def attrsRead (R : Html.References) (attrs : List (Str × Option Str)) : List Html.Attr :=
  Html.values R (Html.rawAttrs attrs)

theorem attrOf_here (name value : Str) (attrs : List (Str × Option Str)) :
    attrOf (attrsRead R (rawAttr name value :: attrs)) name = some (Html.attrValue R (escapeAttr value)) := by
  rw [attrOf, attrsRead, Html.rawAttrs, List.map_cons, Html.values, List.map_cons, List.find?_cons]
  dsimp only [rawAttr]
  rw [beq_self_eq_true]
  rfl

theorem attrOf_later {name name' : Str} (h : (name' == name) = false) (value : Str)
    (attrs : List (Str × Option Str)) :
    attrOf (attrsRead R (rawAttr name' value :: attrs)) name = attrOf (attrsRead R attrs) name := by
  rw [attrOf, attrsRead, Html.rawAttrs, List.map_cons, Html.values, List.map_cons, List.find?_cons]
  dsimp only [rawAttr]
  rw [h]
  rfl

theorem attrOf_optional {α : Type} (name : Str) (f : α → Str) (o : Option α) :
    attrOf (attrsRead R (o.map fun a => rawAttr name (f a)).toList) name =
      o.map fun a => Html.attrValue R (escapeAttr (f a)) := by
  cases o with
  | none => rfl
  | some a => exact attrOf_here name (f a) []

theorem attrOf_string (name : Str) (o : Option Str) :
    attrOf (attrsRead R (o.map (rawAttr name)).toList) name = o.map fun s => Html.attrValue R (escapeAttr s) :=
  attrOf_optional name id o

theorem optional_iff {o : Option Str} : (truthy o).map (fun s => Html.attrValue R (escapeAttr s)) = o ↔
    ∀ s ∈ o, s ≠ [] ∧ KeepsAttr R s := by
  cases o with
  | none => exact iff_of_true rfl nofun
  | some s =>
    have hAll : (∀ t ∈ some s, t ≠ [] ∧ KeepsAttr R t) ↔ s ≠ [] ∧ KeepsAttr R s := by
      simp
    rw [hAll, ← attrValue_iff]
    by_cases hs : s = []
    · subst hs
      exact iff_of_false nofun fun h => h.1 rfl
    · have hTruthy : truthy (some s) = some s := by
        rw [truthy, Option.filter_some, if_pos (decide_eq_true hs)]
      rw [hTruthy, Option.map_some, Option.some_inj, and_iff_right hs]

theorem args_iff {args : Option (List JsonText.Value)} :
    parseArgs (args.map fun a => Html.attrValue R (escapeAttr (stringify a))) = some args ↔
      ∀ a ∈ args, KeepsAttr R (stringify a) := by
  cases args with
  | none => exact iff_of_true rfl nofun
  | some a =>
    have hAll : (∀ b ∈ some a, KeepsAttr R (stringify b)) ↔ KeepsAttr R (stringify a) := by
      simp
    have hInverse := stringify_injective.isPartialInv
    rw [hAll, ← attrValue_iff, Option.map_some, parseArgs, Option.map_eq_some_iff]
    constructor
    · rintro ⟨b, hb, hSame⟩
      rw [Option.some.inj hSame] at hb
      exact ((hInverse a _).mp hb).symm
    · intro h
      exact ⟨a, (hInverse a _).mpr h.symm, rfl⟩

/-! ## Nodes -/

theorem nodeOf_element {tag : Str} (h : tag ≠ ['p', 'r', 'e']) (attrs : List (Str × Option Str))
    (children : List Html.Raw) : Html.nodeOf R (.element tag attrs children) =
      .element tag (attrsRead R attrs) (Html.settle R children []) := by
  have hFlush := @Html.flush_absorb R children ⟨tag, Html.rawAttrs attrs, [], []⟩ h
  rw [Html.nodeOf, hFlush]
  rfl

theorem inlinesOf_cons {n : Html.Node} {ns : List Html.Node} {i : Inline} {is : List Inline} :
    inlinesOf (n :: ns) = some (i :: is) ↔ inlineOf n = some i ∧ inlinesOf ns = some is := by
  rw [inlinesOf, Option.bind_eq_some_iff]
  constructor
  · rintro ⟨j, hj, h⟩
    obtain ⟨js, hjs, hSame⟩ := Option.map_eq_some_iff.mp h
    cases hSame
    exact ⟨hj, hjs⟩
  · rintro ⟨hi, his⟩
    exact ⟨i, hi, Option.map_eq_some_iff.mpr ⟨is, his, rfl⟩⟩

theorem inlinesOf_eq_cons {ns : List Html.Node} {i : Inline} {is : List Inline}
    (h : inlinesOf ns = some (i :: is)) : ∃ n ns', ns = n :: ns' ∧ inlineOf n = some i ∧ inlinesOf ns' = some is := by
  cases ns with
  | nil =>
    rw [inlinesOf] at h
    cases h
  | cons n ns => exact ⟨n, ns, rfl, inlinesOf_cons.mp h⟩

def isSupported : Inline → Bool
  | .strikethrough _ | .mathInline _ | .image _ _ _ | .citation _ | .comment _ => false
  | _ => true

theorem inlineOf_eq_some {n : Html.Node} {i : Inline} (h : inlineOf n = some i) :
    isSupported i = true ∧ (isText i = Html.isTextNode n) ∧ ∀ s, i = .text s → n = .text s := by
  cases n with
  | text s =>
    rw [inlineOf] at h
    cases h
    exact ⟨rfl, rfl, by rintro _ ⟨⟩; rfl⟩
  | element tag attrs children =>
    have hElement : ∀ {o : Option Inline}, (∀ j, o = some j → isSupported j = true ∧ isText j = false) → o = some i →
        isSupported i = true ∧ (isText i = false) ∧ ∀ s, i = .text s → Html.Node.element tag attrs children = .text s := by
      intro o ho hSome
      obtain ⟨hSupported, hText⟩ := ho i hSome
      refine ⟨hSupported, hText, ?_⟩
      rintro s rfl
      cases hText
    rw [inlineOf] at h
    refine hElement ?_ h
    intro j hj
    split at hj
    · obtain ⟨_, _, rfl⟩ := Option.map_eq_some_iff.mp hj
      exact ⟨rfl, rfl⟩
    split at hj
    · obtain ⟨_, _, rfl⟩ := Option.map_eq_some_iff.mp hj
      exact ⟨rfl, rfl⟩
    split at hj
    · obtain ⟨_, _, rfl⟩ := Option.map_eq_some_iff.mp hj
      exact ⟨rfl, rfl⟩
    split at hj
    · obtain ⟨_, _, hj⟩ := Option.bind_eq_some_iff.mp hj
      obtain ⟨_, _, rfl⟩ := Option.map_eq_some_iff.mp hj
      exact ⟨rfl, rfl⟩
    split at hj
    · obtain ⟨_, _, rfl⟩ := Option.map_eq_some_iff.mp hj
      exact ⟨rfl, rfl⟩
    split at hj
    · obtain ⟨_, _, hj⟩ := Option.bind_eq_some_iff.mp hj
      obtain ⟨_, _, hj⟩ := Option.bind_eq_some_iff.mp hj
      obtain ⟨_, _, rfl⟩ := Option.map_eq_some_iff.mp hj
      exact ⟨rfl, rfl⟩
    · cases hj

theorem supported_of_inlinesOf {ns : List Html.Node} {is : List Inline} (h : inlinesOf ns = some is) :
    ∀ i ∈ is, isSupported i = true := by
  induction is generalizing ns with
  | nil => exact nofun
  | cons i is ih =>
    obtain ⟨n, ns', -, hHead, hTail⟩ := inlinesOf_eq_cons h
    rw [List.forall_mem_cons]
    exact ⟨(inlineOf_eq_some hHead).1, ih hTail⟩

/-! ## Inlines -/

def waiting (w : Str) : List Inline := if w = [] then [] else [.text w]

theorem text_of_separate {ns : List Html.Node} {s : Str} {is : List Inline} (hSeparate : Html.separate ns = true)
    (h : inlinesOf ns = some (.text s :: is)) : s ≠ [] ∧ is.head?.any isText = false := by
  obtain ⟨n, ns', rfl, hHead, hTail⟩ := inlinesOf_eq_cons h
  obtain rfl := (inlineOf_eq_some hHead).2.2 s rfl
  rw [Html.separate, Bool.and_eq_true, Bool.and_eq_true, Bool.not_eq_true', Bool.not_eq_true',
    List.isEmpty_eq_false_iff] at hSeparate
  refine ⟨hSeparate.1.1, ?_⟩
  cases is with
  | nil => rfl
  | cons i is =>
    obtain ⟨n', ns'', rfl, hNext, -⟩ := inlinesOf_eq_cons hTail
    have hNot := hSeparate.1.2
    rw [List.head?_cons, Option.any_some] at hNot ⊢
    rw [(inlineOf_eq_some hNext).2.1, hNot]

theorem textNode_nil : Html.textNode R [] = [] := rfl

theorem inlinesOf_element {n : Html.Node} {ns : List Html.Node} {i : Inline} {is : List Inline} {w : Str}
    (hNode : Html.isTextNode n = false) :
    inlinesOf (Html.textNode R (escapeHtml w) ++ n :: ns) = some (waiting w ++ i :: is) ↔
      (w ≠ [] → KeepsText w) ∧ inlineOf n = some i ∧ inlinesOf ns = some is := by
  rw [textNode_escapeHtml, waiting, ← cleanText_iff]
  by_cases hw : w = []
  · subst hw
    rw [if_pos rfl, if_pos (by rfl), List.nil_append, List.nil_append, inlinesOf_cons]
    exact (and_iff_right fun h => absurd rfl h).symm
  · rw [if_neg hw, forall_prop_of_true hw]
    by_cases hClean : Html.cleanText w = []
    · rw [if_pos hClean, List.nil_append, List.singleton_append, inlinesOf_cons]
      refine iff_of_false (fun h => ?_) fun h => hw (h.1.symm.trans hClean)
      rw [(inlineOf_eq_some h.1).2.2 w rfl] at hNode
      cases hNode
    · rw [if_neg hClean, List.singleton_append, List.singleton_append, inlinesOf_cons, inlinesOf_cons, inlineOf,
        Option.some_inj, Inline.text.injEq]

def Waits (w : Str) (is : List Inline) : Prop := w ≠ [] → KeepsText w ∧ is.head?.any isText = false

theorem waits_of_not_text {w : Str} {i : Inline} (is : List Inline) (h : isText i = false) :
    Waits w (i :: is) ↔ (w ≠ [] → KeepsText w) := by
  rw [Waits, List.head?_cons, Option.any_some, h]
  simp

theorem not_inlinesOf {i : Inline} (h : isSupported i = false) {ns : List Html.Node} {w : Str} {is : List Inline} :
    inlinesOf ns ≠ some (waiting w ++ i :: is) := by
  intro hSome
  have hAll := supported_of_inlinesOf hSome i (List.mem_append_right _ List.mem_cons_self)
  rw [h] at hAll
  cases hAll

mutual

theorem inline_iff (i : Inline) {r : Html.Raw} (hRaw : rawInline i = [r]) (hText : isText i = false) :
    inlineOf (Html.nodeOf R r) = some i ↔ KeepsInline R i := by
  match i with
  | .text _ => cases hText
  | .strong children =>
    cases hRaw
    rw [nodeOf_element (by decide), inlineOf, if_pos rfl, KeepsInline, ← inlines_iff children, Option.map_eq_some_iff]
    exact ⟨fun ⟨_, h, hSame⟩ => by cases hSame; exact h, fun h => ⟨children, h, rfl⟩⟩
  | .emphasis children =>
    cases hRaw
    rw [nodeOf_element (by decide), inlineOf, if_neg (by decide), if_pos rfl, KeepsInline, ← inlines_iff children,
      Option.map_eq_some_iff]
    exact ⟨fun ⟨_, h, hSame⟩ => by cases hSame; exact h, fun h => ⟨children, h, rfl⟩⟩
  | .codeSpan value =>
    cases hRaw
    rw [nodeOf_element (by decide), inlineOf, if_neg (by decide), if_neg (by decide), if_pos rfl, KeepsInline,
      Html.settle, List.nil_append, Html.settle, textNode_escapeHtml, ← cleanText_iff]
    have hValue : textOf (if Html.cleanText value = [] then [] else [.text (Html.cleanText value)]) =
        some (Html.cleanText value) := by
      split
      · next hEmpty => rw [hEmpty]; rfl
      · rfl
    rw [hValue, Option.map_some, Option.some_inj, Inline.codeSpan.injEq]
  | .link href title children =>
    cases hRaw
    rw [nodeOf_element (by decide), inlineOf, if_neg (by decide), if_neg (by decide), if_neg (by decide), if_pos rfl,
      KeepsInline, ← inlines_iff children, attrOf_here, Option.bind_some, attrOf_later (by decide),
      attrOf_string, ← optional_iff, ← attrValue_iff, Option.map_eq_some_iff]
    constructor
    · rintro ⟨_, h, hSame⟩
      rw [Inline.link.injEq] at hSame
      obtain ⟨hHref, hTitle, rfl⟩ := hSame
      exact ⟨hHref, hTitle, h⟩
    · rintro ⟨hHref, hTitle, h⟩
      exact ⟨children, h, by rw [Inline.link.injEq]; exact ⟨hHref, hTitle, rfl⟩⟩
  | .icon name =>
    cases hRaw
    rw [nodeOf_element (by decide), inlineOf, if_neg (by decide), if_neg (by decide), if_neg (by decide),
      if_neg (by decide), if_pos rfl, attrOf_here, Option.map_some, Option.some_inj, Inline.icon.injEq, attrValue_iff,
      KeepsInline]
  | .command id_ args children =>
    cases hRaw
    rw [nodeOf_element (by decide), inlineOf, if_neg (by decide), if_neg (by decide), if_neg (by decide),
      if_neg (by decide), if_neg (by decide), if_pos rfl, KeepsInline, ← inlines_iff children, attrOf_here,
      Option.bind_some, attrOf_later (by decide), attrOf_optional Name.args stringify, ← args_iff, ← attrValue_iff,
      Option.bind_eq_some_iff]
    constructor
    · rintro ⟨args', hArgs, h⟩
      obtain ⟨children', hChildren, hSame⟩ := Option.map_eq_some_iff.mp h
      rw [Inline.command.injEq] at hSame
      obtain ⟨hId, rfl, rfl⟩ := hSame
      exact ⟨hId, hArgs, hChildren⟩
    · rintro ⟨hId, hArgs, h⟩
      refine ⟨args, hArgs, Option.map_eq_some_iff.mpr ⟨children, h, ?_⟩⟩
      rw [hId]
  | .strikethrough _ | .mathInline _ | .image _ _ _ | .citation _ | .comment _ => cases hRaw

theorem inlines_iff (is : List Inline) : inlinesOf (Html.settle R (rawInlines is) []) = some is ↔
    KeepsInlines R is := by
  have hAll := inlines_waiting is []
  rw [waiting, if_pos rfl, List.nil_append] at hAll
  exact hAll.trans (and_iff_right fun h => absurd rfl h)

theorem inlines_waiting (is : List Inline) (w : Str) :
    inlinesOf (Html.settle R (rawInlines is) (escapeHtml w)) = some (waiting w ++ is) ↔
      Waits w is ∧ KeepsInlines R is := by
  match is with
  | [] =>
    rw [rawInlines, Html.settle, List.append_nil, textNode_escapeHtml, waiting, Waits, ← cleanText_iff, KeepsInlines,
      and_true]
    by_cases hw : w = []
    · subst hw
      exact iff_of_true rfl fun h => absurd rfl h
    · rw [if_neg hw, forall_prop_of_true hw, List.head?_nil, Option.any_none, and_iff_left rfl]
      by_cases hClean : Html.cleanText w = []
      · rw [if_pos hClean, inlinesOf]
        exact iff_of_false nofun fun h => hw (h.symm.trans hClean)
      · rw [if_neg hClean, inlinesOf_cons, inlineOf, Option.some_inj, Inline.text.injEq, inlinesOf]
        exact and_iff_left rfl
  | i :: is =>
    have hRest := inlines_iff is
    -- an element ends the text that is waiting
    have hElement : ∀ {tag attrs children}, rawInline i = [.element tag attrs children] → isText i = false →
        (inlinesOf (Html.settle R (rawInlines (i :: is)) (escapeHtml w)) = some (waiting w ++ i :: is) ↔
          Waits w (i :: is) ∧ KeepsInlines R (i :: is)) := by
      intro tag attrs children hRaw hText
      have hHere := inline_iff i hRaw hText
      have hNode : Html.isTextNode (Html.nodeOf R (.element tag attrs children)) = false := rfl
      rw [rawInlines, hRaw, List.singleton_append, Html.settle, inlinesOf_element hNode, hHere, hRest,
        waits_of_not_text is hText, KeepsInlines]
      apply and_congr_right
      intro _
      apply and_congr_right
      intro _
      rw [hText]
      exact (and_iff_right fun h => absurd h Bool.false_ne_true).symm
    match i with
    | .strong _ | .emphasis _ | .codeSpan _ | .link _ _ _ | .icon _ | .command _ _ _ => exact hElement rfl rfl
    | .strikethrough _ | .mathInline _ | .image _ _ _ | .citation _ | .comment _ =>
      exact iff_of_false (not_inlinesOf rfl) fun h => h.2.1
    | .text v =>
      have hMerged := inlines_waiting is (w ++ v)
      have hSeparate := Html.separate_settle (R := R) (rawInlines is) (escapeHtml (w ++ v))
      rw [rawInlines, rawInline, List.singleton_append, Html.settle, escapeHtml_append]
      by_cases hw : w = []
      · subst hw
        rw [List.nil_append] at hMerged hSeparate ⊢
        rw [waiting, if_pos rfl, List.nil_append]
        by_cases hv : v = []
        · subst hv
          exact iff_of_false (fun h => (text_of_separate hSeparate h).1 rfl) fun h => h.2.1.1 rfl
        · rw [waiting, if_neg hv, List.singleton_append, Waits, forall_prop_of_true hv] at hMerged
          rw [hMerged, Waits, KeepsInlines, KeepsInline]
          constructor
          · rintro ⟨⟨hText, hHead⟩, hKept⟩
            exact ⟨fun h => absurd rfl h, ⟨hv, hText⟩, fun _ => hHead, hKept⟩
          · rintro ⟨-, ⟨-, hText⟩, hHead, hKept⟩
            exact ⟨⟨hText, hHead rfl⟩, hKept⟩
      · rw [waiting, if_neg hw, List.singleton_append]
        refine iff_of_false (fun h => ?_) fun h => ?_
        · cases (text_of_separate hSeparate h).2
        · cases (h.1 hw).2

end

/-! ## Blocks -/

theorem levelOf_headingTag (level : Fin 6) : levelOf (headingTag level) = some level := by
  revert level
  decide

theorem headingTag_ne (level : Fin 6) : headingTag level ≠ ['p', 'r', 'e'] ∧ headingTag level ≠ Name.p ∧
    headingTag level ≠ Name.blockquote ∧ headingTag level ≠ Name.pre ∧ headingTag level ≠ listTag false ∧
    headingTag level ≠ listTag true ∧ headingTag level ≠ ['h', 'r'] := by
  revert level
  decide

theorem blocksOf_cons {n : Html.Node} {ns : List Html.Node} {b : Block} {bs : List Block} :
    blocksOf (n :: ns) = some (b :: bs) ↔ blockOf n = some b ∧ blocksOf ns = some bs := by
  rw [blocksOf, Option.bind_eq_some_iff]
  constructor
  · rintro ⟨b', hb, h⟩
    obtain ⟨bs', hbs, hSame⟩ := Option.map_eq_some_iff.mp h
    cases hSame
    exact ⟨hb, hbs⟩
  · rintro ⟨hb, hbs⟩
    exact ⟨b, hb, Option.map_eq_some_iff.mpr ⟨bs, hbs, rfl⟩⟩

theorem itemsOf_cons {n : Html.Node} {ns : List Html.Node} {i : ListItem} {is : List ListItem} :
    itemsOf (n :: ns) = some (i :: is) ↔ itemOf n = some i ∧ itemsOf ns = some is := by
  rw [itemsOf, Option.bind_eq_some_iff]
  constructor
  · rintro ⟨i', hi, h⟩
    obtain ⟨is', his, hSame⟩ := Option.map_eq_some_iff.mp h
    cases hSame
    exact ⟨hi, his⟩
  · rintro ⟨hi, his⟩
    exact ⟨i, hi, Option.map_eq_some_iff.mpr ⟨is, his, rfl⟩⟩

theorem length_of_blocksOf {ns : List Html.Node} {bs : List Block} (h : blocksOf ns = some bs) :
    bs.length = ns.length := by
  induction ns generalizing bs with
  | nil =>
    rw [blocksOf] at h
    cases h
    rfl
  | cons n ns ih =>
    rw [blocksOf] at h
    obtain ⟨b, -, h⟩ := Option.bind_eq_some_iff.mp h
    obtain ⟨bs', hbs, rfl⟩ := Option.map_eq_some_iff.mp h
    rw [List.length_cons, List.length_cons, ih hbs]

theorem length_settle_rawBlocks (bs : List Block) : (Html.settle R (rawBlocks bs) []).length ≤ bs.length := by
  induction bs with
  | nil => exact Nat.le_refl _
  | cons b bs ih =>
    rw [rawBlocks]
    cases b with
    | paragraph | heading | blockquote | codeBlock | list | thematicBreak =>
      exact Nat.succ_le_succ ih
    | diagram | mathBlock | alert | callout | container | comment | xmlBlock | table =>
      exact Nat.le_succ_of_le ih

theorem textOf_pre (attrs : List Html.Attr) (value : Str) :
    textOf ((Html.absorb R [.text (escapeHtml value)] ⟨Name.pre, attrs, [], []⟩).flush R) =
      some (Html.dropLine (Html.cleanText value)) := by
  have hText : Html.textValue R ([] ++ escapeHtml value) = Html.cleanText value := textValue_escapeHtml value
  have hFirst : Name.pre = ['p', 'r', 'e'] ∧ ([] : List Html.Node).isEmpty = true := ⟨rfl, rfl⟩
  rw [Html.absorb, Html.absorb, Html.Frame.flush]
  dsimp only
  rw [hText, if_pos hFirst]
  split
  · next hEmpty =>
    rw [hEmpty]
    rfl
  · rfl

theorem dropLine_iff {s : Str} : Html.dropLine (Html.cleanText s) = s ↔ KeepsText s ∧ s.head? ≠ some '\n' := by
  rw [← cleanText_iff]
  constructor
  · intro h
    have hClean := Html.length_cleanText_le s
    cases hText : Html.cleanText s with
    | nil =>
      rw [hText] at h
      have hEmpty : s = [] := h.symm
      exact ⟨hEmpty.symm, by rw [hEmpty]; exact nofun⟩
    | cons c cs =>
      rw [hText] at h hClean
      by_cases hLine : c = '\n'
      · subst hLine
        rw [← h, Html.dropLine, List.length_cons] at hClean
        omega
      · have hSame : Html.dropLine (c :: cs) = c :: cs := by
          unfold Html.dropLine
          split
          · next heq => exact absurd (List.cons.inj heq).1 hLine
          · rfl
        rw [hSame] at h
        refine ⟨h, ?_⟩
        rw [← h, List.head?_cons]
        exact fun hHead => hLine (Option.some.inj hHead)
  · rintro ⟨hClean, hHead⟩
    rw [hClean]
    unfold Html.dropLine
    split
    · exact absurd rfl hHead
    · rfl

theorem attrValue_boolText (b : Bool) : Html.attrValue R (boolText b) = boolText b := by
  have hKept : KeepsAttr R (boolText b) := by
    refine ⟨⟨by cases b <;> decide, by cases b <;> decide⟩, fun u v h => ?_⟩
    have hMem : '&' ∈ boolText b := h ▸ List.mem_append_right u List.mem_cons_self
    cases b <;> exact absurd hMem (by decide)
  have hEscape : escapeAttr (boolText b) = boolText b := by
    cases b <;> rfl
  rw [← attrValue_iff, hEscape] at hKept
  exact hKept

theorem checkedOf_raw (checked : Option Bool) :
    checkedOf (attrOf (attrsRead R (checked.map fun b => (Name.dataChecked, some (boolText b))).toList)
      Name.dataChecked) = some checked := by
  cases checked with
  | none => rfl
  | some b =>
    have hFound : attrOf (attrsRead R [(Name.dataChecked, some (boolText b))]) Name.dataChecked =
        some (Html.attrValue R (boolText b)) := rfl
    rw [Option.map_some, Option.toList_some, hFound, attrValue_boolText]
    cases b <;> rfl

mutual

theorem block_iff (b : Block) {r : Html.Raw} (hRaw : rawBlock b = [r]) :
    blockOf (Html.nodeOf R r) = some b ↔ KeepsBlock R b := by
  match b with
  | .paragraph children =>
    cases hRaw
    rw [nodeOf_element (by decide), blockOf, if_pos rfl, KeepsBlock, ← inlines_iff, Option.map_eq_some_iff]
    exact ⟨fun ⟨_, h, hSame⟩ => by cases hSame; exact h, fun h => ⟨children, h, rfl⟩⟩
  | .heading level children =>
    cases hRaw
    obtain ⟨hPre, hP, hQuote, hPre', hUl, hOl, hHr⟩ := headingTag_ne level
    rw [nodeOf_element hPre, blockOf, if_neg hP, if_neg hQuote, if_neg hPre', if_neg hUl, if_neg hOl, if_neg hHr,
      levelOf_headingTag, Option.bind_some, KeepsBlock, ← inlines_iff, Option.map_eq_some_iff]
    exact ⟨fun ⟨_, h, hSame⟩ => by cases hSame; exact h, fun h => ⟨children, h, rfl⟩⟩
  | .blockquote children =>
    cases hRaw
    rw [nodeOf_element (by decide), blockOf, if_neg (by decide), if_pos rfl, KeepsBlock, ← blocks_iff children,
      Option.map_eq_some_iff]
    exact ⟨fun ⟨_, h, hSame⟩ => by cases hSame; exact h, fun h => ⟨children, h, rfl⟩⟩
  | .codeBlock language filename value =>
    cases hRaw
    rw [Html.nodeOf, blockOf, if_neg (by decide), if_neg (by decide), if_pos rfl, textOf_pre, Option.map_some,
      Option.some_inj, Block.codeBlock.injEq, ← attrsRead, attrOf_string, optional_iff, dropLine_iff, KeepsBlock,
      @eq_comm _ none filename]
  | .list ordered items =>
    cases hRaw
    rw [KeepsBlock, ← items_iff items]
    cases ordered with
    | false =>
      rw [nodeOf_element (by decide), blockOf, if_neg (by decide), if_neg (by decide), if_neg (by decide), if_pos rfl,
        Option.map_eq_some_iff]
      exact ⟨fun ⟨_, h, hSame⟩ => by cases hSame; exact h, fun h => ⟨items, h, rfl⟩⟩
    | true =>
      rw [nodeOf_element (by decide), blockOf, if_neg (by decide), if_neg (by decide), if_neg (by decide),
        if_neg (by decide), if_pos rfl, Option.map_eq_some_iff]
      exact ⟨fun ⟨_, h, hSame⟩ => by cases hSame; exact h, fun h => ⟨items, h, rfl⟩⟩
  | .thematicBreak =>
    cases hRaw
    exact iff_of_true rfl trivial
  | .diagram _ _ | .mathBlock _ | .alert _ _ | .callout _ _ | .container _ _ | .comment _ | .xmlBlock _ _ _
  | .table _ _ _ => cases hRaw

theorem blocks_iff (bs : List Block) : blocksOf (Html.settle R (rawBlocks bs) []) = some bs ↔ KeepsBlocks R bs := by
  match bs with
  | [] => exact iff_of_true rfl trivial
  | b :: bs =>
    have hRest := blocks_iff bs
    have hShort := length_settle_rawBlocks (R := R) bs
    -- a block that is not written leaves too few behind
    have hMissing : rawBlock b = [] → blocksOf (Html.settle R (rawBlocks (b :: bs)) []) ≠ some (b :: bs) := by
      intro hRaw hSome
      rw [rawBlocks, hRaw, List.nil_append] at hSome
      have hLength := length_of_blocksOf hSome
      rw [List.length_cons] at hLength
      omega
    match b with
    | .paragraph _ | .heading _ _ | .blockquote _ | .codeBlock _ _ _ | .list _ _ =>
      rw [rawBlocks, rawBlock, List.singleton_append, Html.settle, textNode_nil, List.nil_append, blocksOf_cons, hRest,
        block_iff _ rfl, KeepsBlocks]
    | .thematicBreak =>
      rw [rawBlocks, rawBlock, List.singleton_append, Html.settle, textNode_nil, List.nil_append, blocksOf_cons, hRest,
        block_iff _ rfl, KeepsBlocks]
    | .diagram _ _ | .mathBlock _ | .alert _ _ | .callout _ _ | .container _ _ | .comment _ | .xmlBlock _ _ _
    | .table _ _ _ => exact iff_of_false (hMissing rfl) fun h => h.1

theorem item_iff (i : ListItem) : itemOf (Html.nodeOf R (rawItem i)) = some i ↔ KeepsItem R i := by
  match i with
  | .mk checked children =>
    rw [rawItem, nodeOf_element (by decide), itemOf, if_pos rfl, checkedOf_raw, Option.bind_some, KeepsItem,
      ← blocks_iff children, Option.map_eq_some_iff]
    exact ⟨fun ⟨_, h, hSame⟩ => by cases hSame; exact h, fun h => ⟨children, h, rfl⟩⟩

theorem items_iff (is : List ListItem) : itemsOf (Html.settle R (rawItems is) []) = some is ↔ KeepsItems R is := by
  match is with
  | [] => exact iff_of_true rfl trivial
  | i :: is =>
    obtain ⟨checked, children⟩ := i
    rw [rawItems, rawItem, Html.settle, textNode_nil, List.nil_append, itemsOf_cons, items_iff is, ← rawItem,
      item_iff, KeepsItems]

end

theorem readRtml_serialize (R : Html.References) (blocks : List Block) :
    readRtml R (RTMLSerializer.serialize blocks) =
      if blocksNested blocks then none else blocksOf (Html.settle R (rawBlocks blocks) []) := by
  rw [readRtml, serialize_eq, Html.read_writeAll (rawBlocks_ok blocks), nests_blocks]
  cases blocksNested blocks <;> rfl

/-- A document is read back from its RTML just when its strings are kept. -/
theorem readRtml_serialize_iff (R : Html.References) (blocks : List Block) :
    readRtml R (RTMLSerializer.serialize blocks) = some blocks ↔
      blocksNested blocks = false ∧ KeepsBlocks R blocks := by
  rw [readRtml_serialize, ← blocks_iff]
  cases blocksNested blocks with
  | true => exact iff_of_false nofun fun h => nomatch h.1
  | false => exact (and_iff_right rfl).symm

theorem serialize_injOn (R : Html.References) {blocks blocks' : List Block}
    (h : blocksNested blocks = false ∧ KeepsBlocks R blocks)
    (h' : blocksNested blocks' = false ∧ KeepsBlocks R blocks')
    (hSame : RTMLSerializer.serialize blocks = RTMLSerializer.serialize blocks') : blocks = blocks' := by
  have hRead : readRtml R (RTMLSerializer.serialize blocks) = some blocks := by
    rw [readRtml_serialize, h.1]
    exact (blocks_iff blocks).mpr h.2
  have hRead' : readRtml R (RTMLSerializer.serialize blocks') = some blocks' := by
    rw [readRtml_serialize, h'.1]
    exact (blocks_iff blocks').mpr h'.2
  rw [hSame, hRead'] at hRead
  exact (Option.some.inj hRead).symm

/-- A link target that looks like an escaped quote is written like a quote. -/
theorem quote_target_ambiguous :
    RTMLSerializer.serialize [.paragraph [.link ['&', 'q', 'u', 'o', 't', ';'] none []]] =
      RTMLSerializer.serialize [.paragraph [.link ['"'] none []]] ∧
    [Block.paragraph [.link ['&', 'q', 'u', 'o', 't', ';'] none []]] ≠ [.paragraph [.link ['"'] none []]] := by
  refine ⟨rfl, fun h => ?_⟩
  simp at h

end Exosuit.Rtd
