import Exosuit.Rtd.Dom
import Exosuit.Lib.Html
import Mathlib.Logic.Function.Basic

/-!
# RTML

The serializer writes a document as HTML tags; kinds that RTML does not have are left out. The reader
takes HTML elements as the blocks and inlines that the tags stand for.
-/

namespace Exosuit.Rtd

open Lib

/-! ## Names -/

namespace Name

def strong : Str := ['s', 't', 'r', 'o', 'n', 'g']

def em : Str := ['e', 'm']

def code : Str := ['c', 'o', 'd', 'e']

def a : Str := ['a']

def href : Str := ['h', 'r', 'e', 'f']

def title : Str := ['t', 'i', 't', 'l', 'e']

def rtdIcon : Str := ['r', 't', 'd', '-', 'i', 'c', 'o', 'n']

def name : Str := ['n', 'a', 'm', 'e']

def rtdCommand : Str := ['r', 't', 'd', '-', 'c', 'o', 'm', 'm', 'a', 'n', 'd']

def id_ : Str := ['i', 'd']

def args : Str := ['a', 'r', 'g', 's']

def p : Str := ['p']

def blockquote : Str := ['b', 'l', 'o', 'c', 'k', 'q', 'u', 'o', 't', 'e']

def pre : Str := ['p', 'r', 'e']

def dataLang : Str := ['d', 'a', 't', 'a', '-', 'l', 'a', 'n', 'g']

def li : Str := ['l', 'i']

def dataChecked : Str := ['d', 'a', 't', 'a', '-', 'c', 'h', 'e', 'c', 'k', 'e', 'd']

end Name

/-! ## The serializer -/

def escapeHtml (text : Str) : Str :=
  Html.replaceAll '>' Html.gt (Html.replaceAll '<' Html.lt (Html.replaceAll '&' Html.amp text))

def escapeAttr (text : Str) : Str := Html.escapeQuotes text

/-- `<tag attrs>body</tag>` -/
def wrap (tag attrs body : Str) : Str := '<' :: tag ++ attrs ++ '>' :: body ++ '<' :: '/' :: tag ++ ['>']

/-- ` name="value"`, escaped -/
def attrText (name value : Str) : Str := Html.writeAttr (name, some (escapeAttr value))

def truthy (s : Option Str) : Option Str := s.filter fun s => s ≠ []

/-- `JSON.stringify` -/
def stringify (args : List JsonText.Value) : Str := JsonText.print (.array (args.map JsonText.Value.json))

def headingTag (level : Fin 6) : Str := ['h', Char.ofNat (49 + level)]

def listTag (ordered : Bool) : Str := if ordered then ['o', 'l'] else ['u', 'l']

def boolText (b : Bool) : Str := if b then ['t', 'r', 'u', 'e'] else ['f', 'a', 'l', 's', 'e']

namespace RTMLSerializer

mutual

def serializeInline : Inline → Str
  | .text value => escapeHtml value
  | .strong children => wrap Name.strong [] (serializeInlines children)
  | .emphasis children => wrap Name.em [] (serializeInlines children)
  | .codeSpan value => wrap Name.code [] (escapeHtml value)
  | .link href title children =>
    let titleAttr := ((truthy title).map (attrText Name.title)).getD []
    wrap Name.a (attrText Name.href href ++ titleAttr) (serializeInlines children)
  | .icon name => wrap Name.rtdIcon (attrText Name.name name) []
  | .command id args children =>
    let argsAttr := (args.map fun args => attrText Name.args (stringify args)).getD []
    wrap Name.rtdCommand (attrText Name.id_ id ++ argsAttr) (serializeInlines children)
  | _ => []

def serializeInlines : List Inline → Str
  | [] => []
  | i :: is => serializeInline i ++ serializeInlines is

end

mutual

def serializeBlock : Block → Str
  | .paragraph children => wrap Name.p [] (serializeInlines children)
  | .heading level children => wrap (headingTag level) [] (serializeInlines children)
  | .blockquote children => wrap Name.blockquote [] (serialize children)
  | .codeBlock language _ value =>
    wrap Name.pre (((truthy language).map (attrText Name.dataLang)).getD []) (escapeHtml value)
  | .list ordered items => wrap (listTag ordered) [] (serializeItems items)
  | .thematicBreak => ['<', 'h', 'r', ' ', '/', '>']
  | _ => []

def serialize : List Block → Str
  | [] => []
  | b :: bs => serializeBlock b ++ serialize bs

def serializeItem : ListItem → Str
  | .mk checked children =>
    let checkedAttr := (checked.map fun b => Html.writeAttr (Name.dataChecked, some (boolText b))).getD []
    wrap Name.li checkedAttr (serialize children)

def serializeItems : List ListItem → Str
  | [] => []
  | i :: is => serializeItem i ++ serializeItems is

end

end RTMLSerializer

/-! ## The reader -/

section

variable (R : Html.References)

def attrOf (attrs : List Html.Attr) (name : Str) : Option Str :=
  (attrs.find? fun a => a.1 == name).map Prod.snd

def textOf : List Html.Node → Option Str
  | [] => some []
  | [.text s] => some s
  | _ => none

/-- `JSON.parse`, as far as it undoes `JSON.stringify` -/
noncomputable def parseArgs : Option Str → Option (Option (List JsonText.Value))
  | none => some none
  | some s => (Function.partialInv stringify s).map some

mutual

noncomputable def inlineOf : Html.Node → Option Inline
  | .text s => some (.text s)
  | .element name attrs children =>
    if name = Name.strong then (inlinesOf children).map .strong
    else if name = Name.em then (inlinesOf children).map .emphasis
    else if name = Name.code then (textOf children).map .codeSpan
    else if name = Name.a then
      (attrOf attrs Name.href).bind fun href => (inlinesOf children).map (.link href (attrOf attrs Name.title))
    else if name = Name.rtdIcon then (attrOf attrs Name.name).map .icon
    else if name = Name.rtdCommand then
      (attrOf attrs Name.id_).bind fun id => (parseArgs (attrOf attrs Name.args)).bind fun args =>
        (inlinesOf children).map (.command id args)
    else none

noncomputable def inlinesOf : List Html.Node → Option (List Inline)
  | [] => some []
  | n :: ns => (inlineOf n).bind fun i => (inlinesOf ns).map (i :: ·)

end

def levelOf (name : Str) : Option (Fin 6) := (List.finRange 6).find? fun level => headingTag level == name

def checkedOf : Option Str → Option (Option Bool)
  | none => some none
  | some s => if s = boolText true then some (some true) else if s = boolText false then some (some false) else none

mutual

noncomputable def blockOf : Html.Node → Option Block
  | .text _ => none
  | .element name attrs children =>
    if name = Name.p then (inlinesOf children).map .paragraph
    else if name = Name.blockquote then (blocksOf children).map .blockquote
    else if name = Name.pre then (textOf children).map (.codeBlock (attrOf attrs Name.dataLang) none)
    else if name = listTag false then (itemsOf children).map (.list false)
    else if name = listTag true then (itemsOf children).map (.list true)
    else if name = ['h', 'r'] then some .thematicBreak
    else (levelOf name).bind fun level => (inlinesOf children).map (.heading level)

noncomputable def blocksOf : List Html.Node → Option (List Block)
  | [] => some []
  | n :: ns => (blockOf n).bind fun b => (blocksOf ns).map (b :: ·)

noncomputable def itemOf : Html.Node → Option ListItem
  | .text _ => none
  | .element name attrs children =>
    if name = Name.li then
      (checkedOf (attrOf attrs Name.dataChecked)).bind fun checked => (blocksOf children).map (.mk checked)
    else none

noncomputable def itemsOf : List Html.Node → Option (List ListItem)
  | [] => some []
  | n :: ns => (itemOf n).bind fun i => (itemsOf ns).map (i :: ·)

end

/-- The blocks that a text is read as by the rules of HTML. -/
noncomputable def readRtml (l : Str) : Option (List Block) := (Html.read R l).bind blocksOf

end

/-! ## What is kept -/

/-- A text that is not changed by the reader's newlines and null characters. -/
def KeepsText (s : Str) : Prop := '\r' ∉ s ∧ Html.nul ∉ s

section

variable (R : Html.References)

/-- An attribute that is not changed either, and in which no ampersand begins a character reference. -/
def KeepsAttr (s : Str) : Prop := KeepsText s ∧ Html.NoReference R s

def isText : Inline → Bool
  | .text _ => true
  | _ => false

mutual

def KeepsInline : Inline → Prop
  | .text value => value ≠ [] ∧ KeepsText value
  | .strong children => KeepsInlines children
  | .emphasis children => KeepsInlines children
  | .codeSpan value => KeepsText value
  | .link href title children =>
    KeepsAttr R href ∧ (∀ t ∈ title, t ≠ [] ∧ KeepsAttr R t) ∧ KeepsInlines children
  | .icon name => KeepsAttr R name
  | .command id args children =>
    KeepsAttr R id ∧ (∀ a ∈ args, KeepsAttr R (stringify a)) ∧ KeepsInlines children
  | _ => False

/-- No text stands next to another. -/
def KeepsInlines : List Inline → Prop
  | [] => True
  | i :: is => KeepsInline i ∧ (isText i = true → is.head?.any isText = false) ∧ KeepsInlines is

end

mutual

/-- The kinds are those of RTML. -/
def KeepsBlock : Block → Prop
  | .paragraph children => KeepsInlines R children
  | .heading _ children => KeepsInlines R children
  | .blockquote children => KeepsBlocks children
  | .codeBlock language filename value =>
    (∀ l ∈ language, l ≠ [] ∧ KeepsAttr R l) ∧ filename = none ∧ KeepsText value ∧ value.head? ≠ some '\n'
  | .list _ items => KeepsItems items
  | .thematicBreak => True
  | _ => False

def KeepsBlocks : List Block → Prop
  | [] => True
  | b :: bs => KeepsBlock b ∧ KeepsBlocks bs

def KeepsItem : ListItem → Prop
  | .mk _ children => KeepsBlocks children

def KeepsItems : List ListItem → Prop
  | [] => True
  | i :: is => KeepsItem i ∧ KeepsItems is

end

end

mutual

def linkNested (inLink : Bool) : Inline → Bool
  | .strong children => linksNested inLink children
  | .emphasis children => linksNested inLink children
  | .link _ _ children => inLink || linksNested true children
  | .command _ _ children => linksNested inLink children
  | _ => false

def linksNested (inLink : Bool) : List Inline → Bool
  | [] => false
  | i :: is => linkNested inLink i || linksNested inLink is

end

mutual

def blockNested : Block → Bool
  | .paragraph children => linksNested false children
  | .heading _ children => linksNested false children
  | .blockquote children => blocksNested children
  | .list _ items => itemsNested items
  | _ => false

def blocksNested : List Block → Bool
  | [] => false
  | b :: bs => blockNested b || blocksNested bs

def itemNested : ListItem → Bool
  | .mk _ children => blocksNested children

def itemsNested : List ListItem → Bool
  | [] => false
  | i :: is => itemNested i || itemsNested is

end

/-! ## The tags that are written -/

def rawAttr (name value : Str) : Str × Option Str := (name, some (escapeAttr value))

mutual

def rawInline : Inline → List Html.Raw
  | .text value => [.text (escapeHtml value)]
  | .strong children => [.element Name.strong [] (rawInlines children)]
  | .emphasis children => [.element Name.em [] (rawInlines children)]
  | .codeSpan value => [.element Name.code [] [.text (escapeHtml value)]]
  | .link href title children =>
    [.element Name.a (rawAttr Name.href href :: ((truthy title).map (rawAttr Name.title)).toList)
      (rawInlines children)]
  | .icon name => [.element Name.rtdIcon [rawAttr Name.name name] []]
  | .command id args children =>
    [.element Name.rtdCommand
      (rawAttr Name.id_ id :: (args.map fun args => rawAttr Name.args (stringify args)).toList) (rawInlines children)]
  | _ => []

def rawInlines : List Inline → List Html.Raw
  | [] => []
  | i :: is => rawInline i ++ rawInlines is

end

mutual

def rawBlock : Block → List Html.Raw
  | .paragraph children => [.element Name.p [] (rawInlines children)]
  | .heading level children => [.element (headingTag level) [] (rawInlines children)]
  | .blockquote children => [.element Name.blockquote [] (rawBlocks children)]
  | .codeBlock language _ value =>
    [.element Name.pre ((truthy language).map (rawAttr Name.dataLang)).toList [.text (escapeHtml value)]]
  | .list ordered items => [.element (listTag ordered) [] (rawItems items)]
  | .thematicBreak => [.void ['h', 'r'] []]
  | _ => []

def rawBlocks : List Block → List Html.Raw
  | [] => []
  | b :: bs => rawBlock b ++ rawBlocks bs

def rawItem : ListItem → Html.Raw
  | .mk checked children =>
    .element Name.li (checked.map fun b => (Name.dataChecked, some (boolText b))).toList (rawBlocks children)

def rawItems : List ListItem → List Html.Raw
  | [] => []
  | i :: is => rawItem i :: rawItems is

end

theorem escapeHtml_eq (s : Str) : escapeHtml s = s.flatMap Html.escapeMarkup := Html.replaceAll_markup s

theorem writeAll_singleton (r : Html.Raw) : Html.writeAll [r] = Html.write r := by
  rw [Html.writeAll, Html.writeAll, List.append_nil]

theorem write_element (tag : Str) (attrs : List (Str × Option Str)) (children : List Html.Raw) :
    Html.writeAll [.element tag attrs children] =
      wrap tag (attrs.flatMap Html.writeAttr) (Html.writeAll children) := by
  rw [writeAll_singleton]
  rfl

theorem flatMap_optional {α : Type} (a : Option α) (f : α → Str × Option Str) :
    (a.map f).toList.flatMap Html.writeAttr = (a.map fun s => Html.writeAttr (f s)).getD [] := by
  cases a with
  | none => rfl
  | some s => exact List.append_nil _

mutual

theorem serializeInline_eq (i : Inline) : RTMLSerializer.serializeInline i = Html.writeAll (rawInline i) := by
  match i with
  | .text value => rw [rawInline, writeAll_singleton]; rfl
  | .strong children =>
    rw [rawInline, write_element, RTMLSerializer.serializeInline, serializeInlines_eq children]
    rfl
  | .emphasis children =>
    rw [rawInline, write_element, RTMLSerializer.serializeInline, serializeInlines_eq children]
    rfl
  | .codeSpan value =>
    rw [rawInline, write_element, writeAll_singleton]
    rfl
  | .link href title children =>
    rw [rawInline, write_element, RTMLSerializer.serializeInline, serializeInlines_eq children, List.flatMap_cons,
      flatMap_optional]
    rfl
  | .icon name =>
    rw [rawInline, write_element, List.flatMap_singleton]
    rfl
  | .command id args children =>
    rw [rawInline, write_element, RTMLSerializer.serializeInline, serializeInlines_eq children, List.flatMap_cons,
      flatMap_optional]
    rfl
  | .strikethrough _ | .mathInline _ | .image _ _ _ | .citation _ | .comment _ => rfl

theorem serializeInlines_eq (is : List Inline) :
    RTMLSerializer.serializeInlines is = Html.writeAll (rawInlines is) := by
  match is with
  | [] => rfl
  | i :: is =>
    rw [RTMLSerializer.serializeInlines, serializeInline_eq i, serializeInlines_eq is, rawInlines,
      Html.writeAll_append]

end

mutual

theorem serializeBlock_eq (b : Block) : RTMLSerializer.serializeBlock b = Html.writeAll (rawBlock b) := by
  match b with
  | .paragraph children =>
    rw [rawBlock, write_element, RTMLSerializer.serializeBlock, serializeInlines_eq children]
    rfl
  | .heading level children =>
    rw [rawBlock, write_element, RTMLSerializer.serializeBlock, serializeInlines_eq children]
    rfl
  | .blockquote children =>
    rw [rawBlock, write_element, RTMLSerializer.serializeBlock, serialize_eq children]
    rfl
  | .codeBlock language filename value =>
    rw [rawBlock, write_element, writeAll_singleton, flatMap_optional]
    rfl
  | .list ordered items =>
    rw [rawBlock, write_element, RTMLSerializer.serializeBlock, serializeItems_eq items]
    rfl
  | .thematicBreak => rfl
  | .diagram _ _ | .mathBlock _ | .alert _ _ | .callout _ _ | .container _ _ | .comment _ | .xmlBlock _ _ _
  | .table _ _ _ => rfl

theorem serialize_eq (bs : List Block) : RTMLSerializer.serialize bs = Html.writeAll (rawBlocks bs) := by
  match bs with
  | [] => rfl
  | b :: bs =>
    rw [RTMLSerializer.serialize, serializeBlock_eq b, serialize_eq bs, rawBlocks, Html.writeAll_append]

theorem serializeItem_eq (i : ListItem) : RTMLSerializer.serializeItem i = Html.write (rawItem i) := by
  match i with
  | .mk checked children =>
    rw [rawItem, ← writeAll_singleton, write_element, RTMLSerializer.serializeItem, serialize_eq children,
      flatMap_optional]

theorem serializeItems_eq (is : List ListItem) :
    RTMLSerializer.serializeItems is = Html.writeAll (rawItems is) := by
  match is with
  | [] => rfl
  | i :: is =>
    rw [RTMLSerializer.serializeItems, serializeItem_eq i, serializeItems_eq is, rawItems, Html.writeAll]

end

/-! ## The tags are tags -/

theorem rawOk_text (s : Str) : Html.rawOk (.text (escapeHtml s)) = true := by
  rw [Html.rawOk, Bool.not_eq_true', List.contains_eq_mem, decide_eq_false_iff_not, escapeHtml_eq]
  exact Html.lt_not_mem_escapeMarkup s

theorem attrOk_rawAttr {name : Str} (h : Html.isName name = true) (value : Str) :
    Html.attrOk (rawAttr name value) = true := by
  rw [Html.attrOk, rawAttr, h, Option.getD_some, Bool.true_and, Bool.not_eq_true', List.contains_eq_mem,
    decide_eq_false_iff_not]
  exact Html.quote_not_mem_escapeQuotes value

theorem all_optional {α : Type} {p : α → Bool} (a : Option α) (h : ∀ x, a = some x → p x = true) :
    a.toList.all p = true := by
  cases a with
  | none => rfl
  | some x => rw [Option.toList_some, List.all_cons, h x rfl]; rfl

theorem rawOk_element {tag : Str} {attrs : List (Str × Option Str)} {children : List Html.Raw}
    (hName : (Html.isName tag && decide (tag ∉ Html.voidNames)) = true) (hAttrs : attrs.all Html.attrOk = true)
    (hChildren : Html.allOk children = true) : Html.allOk [.element tag attrs children] = true := by
  rw [Html.allOk, Html.rawOk, hName, hAttrs, hChildren]
  rfl

theorem headingTag_ok (level : Fin 6) :
    (Html.isName (headingTag level) && decide (headingTag level ∉ Html.voidNames)) = true := by
  revert level
  decide

mutual

theorem rawInline_ok (i : Inline) : Html.allOk (rawInline i) = true := by
  match i with
  | .text value =>
    rw [rawInline, Html.allOk, rawOk_text]
    rfl
  | .strong children => exact rawOk_element rfl rfl (rawInlines_ok children)
  | .emphasis children => exact rawOk_element rfl rfl (rawInlines_ok children)
  | .codeSpan value =>
    refine rawOk_element rfl rfl ?_
    rw [Html.allOk, rawOk_text]
    rfl
  | .link href title children =>
    refine rawOk_element rfl ?_ (rawInlines_ok children)
    rw [List.all_cons, attrOk_rawAttr rfl, Bool.true_and]
    apply all_optional
    intro x hx
    obtain ⟨t, -, rfl⟩ := Option.map_eq_some_iff.mp hx
    exact attrOk_rawAttr rfl t
  | .icon name =>
    refine rawOk_element rfl ?_ rfl
    rw [List.all_cons, attrOk_rawAttr rfl]
    rfl
  | .command id args children =>
    refine rawOk_element rfl ?_ (rawInlines_ok children)
    rw [List.all_cons, attrOk_rawAttr rfl, Bool.true_and]
    apply all_optional
    intro x hx
    obtain ⟨a, -, rfl⟩ := Option.map_eq_some_iff.mp hx
    exact attrOk_rawAttr rfl (stringify a)
  | .strikethrough _ | .mathInline _ | .image _ _ _ | .citation _ | .comment _ => rfl

theorem rawInlines_ok (is : List Inline) : Html.allOk (rawInlines is) = true := by
  match is with
  | [] => rfl
  | i :: is => rw [rawInlines, Html.allOk_append, rawInline_ok i, rawInlines_ok is, Bool.and_self]

end

mutual

theorem rawBlock_ok (b : Block) : Html.allOk (rawBlock b) = true := by
  match b with
  | .paragraph children => exact rawOk_element rfl rfl (rawInlines_ok children)
  | .heading level children => exact rawOk_element (headingTag_ok level) rfl (rawInlines_ok children)
  | .blockquote children => exact rawOk_element rfl rfl (rawBlocks_ok children)
  | .codeBlock language filename value =>
    refine rawOk_element rfl ?_ ?_
    · apply all_optional
      intro x hx
      obtain ⟨l, -, rfl⟩ := Option.map_eq_some_iff.mp hx
      exact attrOk_rawAttr rfl l
    · rw [Html.allOk, rawOk_text]
      rfl
  | .list ordered items =>
    cases ordered
    · exact rawOk_element rfl rfl (rawItems_ok items)
    · exact rawOk_element rfl rfl (rawItems_ok items)
  | .thematicBreak => rfl
  | .diagram _ _ | .mathBlock _ | .alert _ _ | .callout _ _ | .container _ _ | .comment _ | .xmlBlock _ _ _
  | .table _ _ _ => rfl

theorem rawBlocks_ok (bs : List Block) : Html.allOk (rawBlocks bs) = true := by
  match bs with
  | [] => rfl
  | b :: bs => rw [rawBlocks, Html.allOk_append, rawBlock_ok b, rawBlocks_ok bs, Bool.and_self]

theorem rawItem_ok (i : ListItem) : Html.rawOk (rawItem i) = true := by
  match i with
  | .mk checked children =>
    have hAttrs : (checked.map fun b => (Name.dataChecked, some (boolText b))).toList.all Html.attrOk = true := by
      cases checked with
      | none => rfl
      | some b => cases b <;> rfl
    have hElement := @rawOk_element Name.li _ _ rfl hAttrs (rawBlocks_ok children)
    rwa [Html.allOk, Bool.and_eq_true, and_iff_left (by rfl)] at hElement

theorem rawItems_ok (is : List ListItem) : Html.allOk (rawItems is) = true := by
  match is with
  | [] => rfl
  | i :: is => rw [rawItems, Html.allOk, rawItem_ok i, rawItems_ok is, Bool.and_self]

end

/-! ## Links within links -/

mutual

theorem nests_inline (i : Inline) (inLink : Bool) : Html.anyNests inLink (rawInline i) = linkNested inLink i := by
  match i with
  | .strong children =>
    rw [rawInline, Html.anyNests, Html.nests, Html.anyNests, Bool.or_false, linkNested, ← nests_inlines children]
    rfl
  | .emphasis children =>
    rw [rawInline, Html.anyNests, Html.nests, Html.anyNests, Bool.or_false, linkNested, ← nests_inlines children]
    rfl
  | .link href title children =>
    rw [rawInline, Html.anyNests, Html.nests, Html.anyNests, Bool.or_false, linkNested, ← nests_inlines children]
    rfl
  | .command id args children =>
    rw [rawInline, Html.anyNests, Html.nests, Html.anyNests, Bool.or_false, linkNested, ← nests_inlines children]
    rfl
  | .text _ | .codeSpan _ | .icon _ => cases inLink <;> rfl
  | .strikethrough _ | .mathInline _ | .image _ _ _ | .citation _ | .comment _ => rfl

theorem nests_inlines (is : List Inline) (inLink : Bool) :
    Html.anyNests inLink (rawInlines is) = linksNested inLink is := by
  match is with
  | [] => rfl
  | i :: is => rw [rawInlines, Html.anyNests_append, nests_inline i, nests_inlines is, linksNested]

end

theorem nests_element {tag : Str} {attrs : List (Str × Option Str)} {children : List Html.Raw}
    (h : (tag == ['a']) = false) :
    Html.nests false (.element tag attrs children) = Html.anyNests false children := by
  rw [Html.nests, h, Bool.false_and, Bool.false_or, Bool.false_or]

theorem headingTag_ne_a (level : Fin 6) : (headingTag level == ['a']) = false := by
  revert level
  decide

mutual

theorem nests_block (b : Block) : Html.anyNests false (rawBlock b) = blockNested b := by
  match b with
  | .paragraph children =>
    rw [rawBlock, Html.anyNests, nests_element rfl, nests_inlines, Html.anyNests, Bool.or_false, blockNested]
  | .heading level children =>
    rw [rawBlock, Html.anyNests, nests_element (headingTag_ne_a level), nests_inlines, Html.anyNests, Bool.or_false,
      blockNested]
  | .blockquote children =>
    rw [rawBlock, Html.anyNests, nests_element rfl, nests_blocks children, Html.anyNests, Bool.or_false, blockNested]
  | .list ordered items =>
    have hTag : (listTag ordered == ['a']) = false := by cases ordered <;> rfl
    rw [rawBlock, Html.anyNests, nests_element hTag, nests_items items, Html.anyNests, Bool.or_false, blockNested]
  | .codeBlock _ _ _ | .thematicBreak => rfl
  | .diagram _ _ | .mathBlock _ | .alert _ _ | .callout _ _ | .container _ _ | .comment _ | .xmlBlock _ _ _
  | .table _ _ _ => rfl

theorem nests_blocks (bs : List Block) : Html.anyNests false (rawBlocks bs) = blocksNested bs := by
  match bs with
  | [] => rfl
  | b :: bs => rw [rawBlocks, Html.anyNests_append, nests_block b, nests_blocks bs, blocksNested]

theorem nests_item (i : ListItem) : Html.nests false (rawItem i) = itemNested i := by
  match i with
  | .mk checked children => rw [rawItem, nests_element rfl, nests_blocks children, itemNested]

theorem nests_items (is : List ListItem) : Html.anyNests false (rawItems is) = itemsNested is := by
  match is with
  | [] => rfl
  | i :: is => rw [rawItems, Html.anyNests, nests_item i, nests_items is, itemsNested]

end

end Exosuit.Rtd
