import Exosuit.Storage.StructuredIo

/-!
# A structured write changes its target only

The document that is printed has the new value at the target and elsewhere what it had. Whether the
file reads so depends on what it held, on how the target is spelled, and on what the printed text
reads as.
-/

namespace Exosuit.StructuredIo

open Lib

/-! ## What a write is to do -/

/-- One of the two spellings leads to a part of what the other leads to. -/
def Overlap (path : String → Option (List String)) (p q : String) : Prop :=
  ∃ s t, path p = some s ∧ path q = some t ∧ ¬ Children.Apart s t

def IsBlank (file : Option String) : Prop := Text.trim (file.getD "") = ""

/-- A write that succeeds found a document, or nothing; the target then reads as `denoted` and what
does not overlap it reads as before. A write that fails leaves the file. -/
def ChangesTarget {α : Type} (path : String → Option (List String)) (valid : String → Prop)
    (read : Option String → String → Option α) (file : Option String) (target : String) (denoted : α)
    (outcome : Except String Unit × Option String) : Prop :=
  match outcome with
  | (.error _, file') => file' = file
  | (.ok (), file') => (IsBlank file ∨ valid (file.getD "")) ∧ read file' target = some denoted ∧
      ∀ other, ¬ Overlap path target other → read file' other = read file other

def WritesJson (lib : JsonLibrary) (file : Option String) (pointer value : String) : Prop :=
  ChangesTarget Json.tokens (fun content => (lib.fromStr content).isSome = true) (locateJson lib) file pointer
    (denotedJson lib value) (writeJson lib file pointer value)

def tomlPath (key : String) : Option (List String) := some (Text.split "." key)

def WritesToml (lib : TomlLibrary) (file : Option String) (key value : String) : Prop :=
  ChangesTarget tomlPath (fun content => (lib.fromStr content).isSome = true) (locateToml lib) file key
    (denotedToml lib value) (writeToml lib file key value)

/-! ## What the libraries are documented to do -/

/-- An object without entries is read, a blank text is not, and there is a limit to the depth. -/
structure JsonLibrary.Laws (lib : JsonLibrary) : Prop where
  empty : lib.fromStr "{}" = some (.object [])
  blank : ∀ s, Text.trim s = "" → lib.fromStr s = none
  limit : ∀ s v, lib.fromStr s = some v → v.depth < 128

/-- The text of a value is read as the value, its floats as they are read again; the limit stands. -/
def JsonLibrary.Rereads (lib : JsonLibrary) (v : Json) : Prop :=
  lib.fromStr (lib.toStringPretty v) = if v.depth < 128 then some (v.mapFloats lib.rereadFloat) else none

def TomlLibrary.Laws (lib : TomlLibrary) : Prop :=
  ∀ s, Text.trim s = "" → lib.fromStr s = none ∨ lib.fromStr s = some []

/-- The text of the edited document is read as the edited document. -/
def TomlLibrary.Rereads (lib : TomlLibrary) (content : String) (doc : Toml.Table) : Prop :=
  lib.fromStr (lib.print content doc) = some doc

/-! ## Files -/

theorem editFile_error {file : Option String} {edit : String → Except String String} {e : String}
    (h : edit (file.getD "") = .error e) : editFile file edit = (.error e, file) := by
  rw [editFile, h]

theorem editFile_ok {α : Type} (file : Option String) (edit : String → Except String String) {newContent : String}
    {read : Option String → α} (hMissing : read none = read (some "")) (h : edit (file.getD "") = .ok newContent) :
    ∃ file', editFile file edit = (.ok (), file') ∧ read file' = read (some newContent) := by
  rw [editFile, h]
  dsimp only
  split
  · next hSame =>
    refine ⟨file, rfl, ?_⟩
    cases file with
    | none => exact hSame ▸ hMissing
    | some content => exact hSame ▸ rfl
  · exact ⟨_, rfl, rfl⟩

/-! ## TOML -/

section

variable {lib : TomlLibrary} {file : Option String} {key value : String} {item : Toml.Item}
  {current entries : Toml.Table} {parts : List String}

theorem put_of_setParts (h : setParts item current parts = .ok entries) :
    tomlChildren.put (some (.table [])) item (.table current) parts = some (.table entries) := by
  induction parts generalizing current entries with
  | nil => cases h
  | cons part rest ih =>
    have hGet : (tomlChildren.get (.table current) part).or (some (.table [])) =
        some ((Toml.Table.get current part).getD (.table [])) := by
      change (Toml.Table.get current part).or (some (.table [])) = _
      cases Toml.Table.get current part <;> rfl
    rw [Children.put, hGet, Option.bind_some]
    rcases rest with _ | ⟨next, rest⟩
    · rw [← Except.ok.inj h]
      rfl
    · rw [setParts] at h
      · generalize (Toml.Table.get current part).getD (.table []) = entry at h ⊢
        cases entry with
        | table below =>
          obtain ⟨below', hBelow, rfl⟩ := map_eq_ok.1 h
          rw [ih hBelow]
          rfl
        | _ => cases h
      · exact List.cons_ne_nil _ _

theorem setParts_empty (item : Toml.Item) (hParts : parts ≠ []) : ∃ entries, setParts item [] parts = .ok entries := by
  induction parts with
  | nil => exact absurd rfl hParts
  | cons part rest ih =>
    rcases rest with _ | ⟨next, rest⟩
    · exact ⟨_, rfl⟩
    · obtain ⟨entries, hEntries⟩ := ih (List.cons_ne_nil _ _)
      refine ⟨Toml.Table.insert [] part (.table entries), ?_⟩
      rw [setParts]
      · change (setParts item [] (next :: rest)).map _ = _
        rw [hEntries]
        rfl
      · exact List.cons_ne_nil _ _

theorem split_ne_nil (key : String) : Text.split "." key ≠ [] := by
  rw [Text.split, ne_eq, List.map_eq_nil_iff]
  exact Text.pieces_ne_nil _ _ _

theorem find_empty (key : String) : tomlChildren.find (.table []) (Text.split "." key) = none := by
  obtain ⟨part, rest, hSplit⟩ := List.exists_cons_of_ne_nil (split_ne_nil key)
  rw [hSplit]
  rfl

theorem locateToml_blank (hLaws : lib.Laws) {content : String} (hBlank : Text.trim content = "") (key : String) :
    locateToml lib (some content) key = none := by
  rw [locateToml, Option.bind_some]
  rcases hLaws content hBlank with hNone | hEmpty
  · rw [hNone]
    rfl
  · rw [hEmpty, Option.bind_some, find_empty]

theorem locateToml_edit {content : String} {doc : Toml.Table} (h : editToml lib content key value = .ok doc)
    (hRead : lib.Rereads content doc) :
    locateToml lib (some (lib.print content doc)) key = some (denotedToml lib value) ∧
      ∀ other, ¬ Overlap tomlPath key other → locateToml lib (some (lib.print content doc)) other =
        tomlChildren.find (.table ((lib.fromStr content).getD [])) (Text.split "." other) := by
  have hPut := put_of_setParts h
  have hLocate : ∀ k, locateToml lib (some (lib.print content doc)) k =
      tomlChildren.find (.table doc) (Text.split "." k) := by
    intro k
    rw [locateToml, Option.bind_some, hRead, Option.bind_some]
  refine ⟨(hLocate key).trans (Children.find_put hPut), fun other hOther => (hLocate other).trans ?_⟩
  refine Children.find_put_apart ?_ hPut ?_
  · rintro f hf k
    rw [← Option.some.inj hf]
    rfl
  · exact not_not.1 fun hNot => hOther ⟨_, _, rfl, rfl, hNot⟩

theorem writesToml_iff (hLaws : lib.Laws)
    (hRead : ∀ doc, editToml lib (file.getD "") key value = .ok doc → lib.Rereads (file.getD "") doc) :
    WritesToml lib file key value ↔ IsBlank file ∨ (lib.fromStr (file.getD "")).isSome = true := by
  have hMissing : locateToml lib none = locateToml lib (some "") := by
    funext k
    rw [locateToml_blank hLaws (by decide +kernel)]
    rfl
  rw [WritesToml, writeToml]
  cases hEdit : editToml lib (file.getD "") key value with
  | error e =>
    rw [editFile_error (e := e) (by rw [hEdit]; rfl)]
    refine iff_of_true rfl (.inr ?_)
    -- a document that is not read is replaced by an empty one, which takes every key
    cases hDoc : lib.fromStr (file.getD "") with
    | some doc => rfl
    | none =>
      rw [editToml, hDoc] at hEdit
      obtain ⟨entries, hEntries⟩ := setParts_empty (denotedToml lib value) (split_ne_nil key)
      exact absurd (hEdit.symm.trans hEntries) nofun
  | ok doc =>
    obtain ⟨file', hFile, hReads⟩ := editFile_ok file
      (fun content => (editToml lib content key value).map (lib.print content)) hMissing (by rw [hEdit]; rfl)
    rw [hFile]
    obtain ⟨hTarget, hOthers⟩ := locateToml_edit hEdit (hRead doc hEdit)
    refine ⟨fun h => h.1, fun hStart => ⟨hStart, by rw [hReads, hTarget], fun other hOther => ?_⟩⟩
    rw [hReads, hOthers other hOther]
    cases hDoc : lib.fromStr (file.getD "") with
    | some start =>
      cases file with
      | some content => rw [locateToml, Option.bind_some, show lib.fromStr content = some start from hDoc]; rfl
      | none =>
        rcases hLaws "" (by decide +kernel) with hNone | hEmpty
        · exact absurd (hDoc.symm.trans hNone) nofun
        · rw [Option.some.inj (hDoc.symm.trans hEmpty), Option.getD_some, find_empty]
          rfl
    | none =>
      rw [Option.getD_none, find_empty]
      cases file with
      | some content => rw [locateToml, Option.bind_some, show lib.fromStr content = none from hDoc]; rfl
      | none => rfl

end

/-! ## JSON -/

/-- The write is refused: the target is missing and is no key that can be added to the root. -/
structure JsonRefused (lib : JsonLibrary) (content pointer : String) : Prop where
  inner : pointer ≠ "" ∧ pointer ≠ "/"
  missing : pointerOf (startJson lib content) pointer = none
  noKey : ¬ (Text.startsWith pointer "/" = true ∧ '/' ∉ (rawKey pointer).toList ∧
    (startJson lib content).asObject.isSome = true)

structure JsonSound (lib : JsonLibrary) (file : Option String) (pointer value : String) : Prop where
  start : IsBlank file ∨ (lib.fromStr (file.getD "")).isSome = true
  noSlash : pointer ≠ "/"
  /-- A key that is added is spelled as it is. -/
  key : (pointerOf (startJson lib (file.getD "")) pointer).isSome = true ∨
    Json.unescape (rawKey pointer) = rawKey pointer
  shallow : ∀ path, Json.tokens pointer = some path → path.length + (denotedJson lib value).depth < 128
  value : (denotedJson lib value).mapFloats lib.rereadFloat = denotedJson lib value
  others : ∀ other, ¬ Overlap Json.tokens pointer other → ∀ v, locateJson lib file other = some v →
    v.mapFloats lib.rereadFloat = v

section

variable {lib : JsonLibrary} {file : Option String} {content pointer value : String} {path : List String} {v : Json}

theorem tokens_rawKey (hSlash : Text.startsWith pointer "/" = true) (hOne : '/' ∉ (rawKey pointer).toList) :
    Json.tokens pointer = some [Json.unescape (rawKey pointer)] := by
  obtain ⟨rest, hRest⟩ := List.isPrefixOf_iff_prefix.1 hSlash
  have hList : pointer.toList = '/' :: rest := hRest.symm
  have hRaw : (rawKey pointer).toList = rest := by
    rw [rawKey, String.toList_ofList, hList]
    rfl
  have hNonempty : pointer ≠ "" := by
    rintro rfl
    exact absurd hList nofun
  have hSplit : Text.split "/" pointer = ["", rawKey pointer] := by
    rw [Text.split, hList, show "/".toList = ['/'] from rfl, Text.pieces_cons, if_pos rfl,
      Text.pieces_of_not_mem (hRaw ▸ hOne), ← hRaw, List.map_cons, List.map_cons, String.ofList_toList]
    rfl
  rw [Json.tokens, if_neg hNonempty, if_pos hSlash, hSplit]
  rfl

/-- What a write does to the document: it is refused, it replaces the whole document, it sets what is
there, or it adds a key to the root. -/
theorem editJson_cases (lib : JsonLibrary) (content pointer value : String) :
    (JsonRefused lib content pointer ∧ ∃ e, editJson lib content pointer value = .error e) ∨
    (¬ JsonRefused lib content pointer ∧ ∃ v, editJson lib content pointer value = .ok v ∧
      (pointer = "/" ∧ v = denotedJson lib value ∨
      (pointer ≠ "/" ∧ ∃ path, Json.tokens pointer = some path ∧
        Json.children.put none (denotedJson lib value) (startJson lib content) path = some v) ∨
      (pointer ≠ "/" ∧ pointerOf (startJson lib content) pointer = none ∧
        Json.tokens pointer = some [Json.unescape (rawKey pointer)] ∧
        ∃ fields, startJson lib content = .object fields ∧
          v = .object (Json.insert fields (rawKey pointer) (denotedJson lib value))))) := by
  by_cases hRoot : pointer = "" ∨ pointer = "/"
  · refine .inr ⟨fun h => ?_, denotedJson lib value, if_pos hRoot, ?_⟩
    · exact hRoot.elim h.inner.1 h.inner.2
    · rcases hRoot with rfl | rfl
      · exact .inr (.inl ⟨by decide, [], rfl, rfl⟩)
      · exact .inl ⟨rfl, rfl⟩
  · have hInner := not_or.1 hRoot
    unfold editJson
    dsimp only
    rw [if_neg hRoot]
    cases hPut : (Json.tokens pointer).bind
        (Json.children.put none (denotedJson lib value) (startJson lib content)) with
    | some v =>
      obtain ⟨path, hPath, hPut⟩ := Option.bind_eq_some_iff.1 hPut
      refine .inr ⟨fun h => ?_, v, rfl, .inr (.inl ⟨hInner.2, path, hPath, hPut⟩)⟩
      have hThere := (Children.isSome_put_iff Json.isSome_setChild).1 (Option.isSome_iff_exists.2 ⟨v, hPut⟩)
      have hMissing := h.missing
      rw [pointerOf, hPath, Option.bind_some] at hMissing
      rw [hMissing] at hThere
      exact absurd hThere Bool.false_ne_true
    | none =>
      have hMissing : pointerOf (startJson lib content) pointer = none := by
        rw [pointerOf]
        cases hPath : Json.tokens pointer with
        | none => rfl
        | some path =>
          rw [hPath, Option.bind_some] at hPut
          rw [Option.bind_some, ← Option.not_isSome_iff_eq_none,
            ← Children.isSome_put_iff Json.isSome_setChild, hPut]
          exact Bool.false_ne_true
      dsimp only
      by_cases hKey : Text.startsWith pointer "/" = true ∧ '/' ∉ (rawKey pointer).toList
      · rw [if_pos hKey]
        cases hStart : startJson lib content with
        | object fields =>
          refine .inr ⟨fun h => h.noKey ⟨hKey.1, hKey.2, by rw [hStart]; rfl⟩, _, rfl, .inr (.inr ?_)⟩
          exact ⟨hInner.2, hStart ▸ hMissing, tokens_rawKey hKey.1 hKey.2, fields, rfl, rfl⟩
        | _ => exact .inl ⟨⟨hInner, hMissing, fun h => by rw [hStart] at h; exact absurd h.2.2 nofun⟩, _, rfl⟩
      · rw [if_neg hKey]
        exact .inl ⟨⟨hInner, hMissing, fun h => hKey ⟨h.1, h.2.1⟩⟩, _, rfl⟩

theorem depth_startJson (hLaws : lib.Laws) (content : String) : (startJson lib content).depth < 128 := by
  unfold startJson
  cases hDoc : lib.fromStr (if Text.trim content = "" then "{}" else content) with
  | none => decide
  | some doc => exact hLaws.limit _ _ hDoc

theorem locateJson_print (hRead : lib.Rereads v) (p : String) :
    locateJson lib (some (lib.toStringPretty v)) p =
      if v.depth < 128 then (pointerOf v p).map (Json.mapFloats lib.rereadFloat) else none := by
  rw [locateJson, Option.bind_some, hRead]
  split
  · rw [Option.bind_some, pointerOf, pointerOf]
    cases Json.tokens p with
    | none => rfl
    | some path => exact Children.find_map (Json.child_mapFloats lib.rereadFloat) v path
  · rfl

theorem locateJson_start (hLaws : lib.Laws) (hStart : IsBlank file ∨ (lib.fromStr (file.getD "")).isSome = true)
    {other : String} (hOther : Json.tokens other ≠ some []) :
    locateJson lib file other = pointerOf (startJson lib (file.getD "")) other := by
  by_cases hBlank : Text.trim (file.getD "") = ""
  · have hNone : file.bind lib.fromStr = none := by
      cases file with
      | none => rfl
      | some content => exact hLaws.blank _ hBlank
    rw [locateJson, hNone, startJson, if_pos hBlank, hLaws.empty, pointerOf]
    cases hPath : Json.tokens other with
    | none => rfl
    | some path =>
      rcases path with _ | ⟨token, path⟩
      · exact absurd hPath hOther
      · rfl
  · cases file with
    | none => exact absurd (by decide +kernel) hBlank
    | some content =>
      obtain ⟨doc, hDoc⟩ := Option.isSome_iff_exists.1 (hStart.resolve_left hBlank)
      have hDoc : lib.fromStr content = some doc := hDoc
      rw [locateJson, startJson, if_neg hBlank, Option.bind_some, Option.getD_some, hDoc]
      rfl

/-- Whether the text of an edited document reads right, where the edit itself went right. -/
theorem reads_iff (hLaws : lib.Laws) (hStart : IsBlank file ∨ (lib.fromStr (file.getD "")).isSome = true)
    (hRead : lib.Rereads v) (hPath : Json.tokens pointer = some path)
    (hTarget : Json.children.find v path = some (denotedJson lib value))
    (hApart : ∀ q, Children.Apart path q →
      Json.children.find v q = Json.children.find (startJson lib (file.getD "")) q)
    (hDepth : path.length + (denotedJson lib value).depth < 128 → v.depth < 128) :
    (locateJson lib (some (lib.toStringPretty v)) pointer = some (denotedJson lib value) ∧
      ∀ other, ¬ Overlap Json.tokens pointer other →
        locateJson lib (some (lib.toStringPretty v)) other = locateJson lib file other) ↔
    path.length + (denotedJson lib value).depth < 128 ∧
      (denotedJson lib value).mapFloats lib.rereadFloat = denotedJson lib value ∧
        ∀ other, ¬ Overlap Json.tokens pointer other → ∀ w, locateJson lib file other = some w →
          w.mapFloats lib.rereadFloat = w := by
  have hAt : pointerOf v pointer = some (denotedJson lib value) := by
    rw [pointerOf, hPath, Option.bind_some, hTarget]
  -- what does not overlap the target is where it was
  have hElsewhere : ∀ other, ¬ Overlap Json.tokens pointer other →
      pointerOf v other = locateJson lib file other := by
    intro other hOther
    have hTokens : Json.tokens other ≠ some [] :=
      fun hNil => hOther ⟨path, [], hPath, hNil, fun h => h.2 List.nil_prefix⟩
    rw [locateJson_start hLaws hStart hTokens, pointerOf, pointerOf]
    cases hOtherPath : Json.tokens other with
    | none => rfl
    | some q => exact hApart q (not_not.1 fun h => hOther ⟨path, q, hPath, hOtherPath, h⟩)
  have hBound : v.depth < 128 ↔ path.length + (denotedJson lib value).depth < 128 :=
    ⟨(Children.length_add_depth_le Json.depth_child hTarget).trans_lt, hDepth⟩
  by_cases hShallow : v.depth < 128
  · have hLocate : ∀ p, locateJson lib (some (lib.toStringPretty v)) p =
        (pointerOf v p).map (Json.mapFloats lib.rereadFloat) := by
      intro p
      rw [locateJson_print hRead, if_pos hShallow]
    constructor
    · rintro ⟨hIs, hOthers⟩
      rw [hLocate, hAt] at hIs
      refine ⟨hBound.1 hShallow, Option.some.inj hIs, fun other hOther w hw => ?_⟩
      have hSame := hOthers other hOther
      rw [hLocate, hElsewhere other hOther, hw] at hSame
      exact Option.some.inj hSame
    · rintro ⟨-, hValue, hOthers⟩
      refine ⟨by rw [hLocate, hAt, Option.map_some, hValue], fun other hOther => ?_⟩
      rw [hLocate, hElsewhere other hOther]
      cases hw : locateJson lib file other with
      | none => rfl
      | some w => rw [Option.map_some, hOthers other hOther w hw]
  · constructor
    · rintro ⟨hIs, -⟩
      rw [locateJson_print hRead, if_neg hShallow] at hIs
      exact absurd hIs nofun
    · exact fun h => absurd (hBound.2 h.1) hShallow

/-- The whole document cannot be found at its own empty key. -/
theorem not_locate_slash (hRead : lib.Rereads v) : locateJson lib (some (lib.toStringPretty v)) "/" ≠ some v := by
  have hTokens : Json.tokens "/" = some [""] := by decide +kernel
  rw [locateJson_print hRead, pointerOf, hTokens, Option.bind_some]
  split
  · intro h
    obtain ⟨c, hc, rfl⟩ := Option.map_eq_some_iff.1 h
    have hBelow := Children.length_add_depth_le Json.depth_child hc
    rw [Json.depth_mapFloats, List.length_singleton] at hBelow
    omega
  · exact nofun

theorem sound_iff (hLaws : lib.Laws) (hRead : lib.Rereads v) (hPath : Json.tokens pointer = some path)
    (hTarget : Json.children.find v path = some (denotedJson lib value))
    (hApart : ∀ q, Children.Apart path q →
      Json.children.find v q = Json.children.find (startJson lib (file.getD "")) q)
    (hDepth : path.length + (denotedJson lib value).depth < 128 → v.depth < 128) (hSlash : pointer ≠ "/")
    (hKey : (pointerOf (startJson lib (file.getD "")) pointer).isSome = true ∨
      Json.unescape (rawKey pointer) = rawKey pointer) :
    ((IsBlank file ∨ (lib.fromStr (file.getD "")).isSome = true) ∧
      locateJson lib (some (lib.toStringPretty v)) pointer = some (denotedJson lib value) ∧
        ∀ other, ¬ Overlap Json.tokens pointer other →
          locateJson lib (some (lib.toStringPretty v)) other = locateJson lib file other) ↔
      JsonSound lib file pointer value := by
  constructor
  · rintro ⟨hStart, hRest⟩
    obtain ⟨hShallow, hValue, hOthers⟩ := (reads_iff hLaws hStart hRead hPath hTarget hApart hDepth).1 hRest
    exact ⟨hStart, hSlash, hKey, fun p hp => Option.some.inj (hPath.symm.trans hp) ▸ hShallow, hValue, hOthers⟩
  · intro h
    exact ⟨h.start, (reads_iff hLaws h.start hRead hPath hTarget hApart hDepth).2
      ⟨h.shallow path hPath, h.value, h.others⟩⟩

theorem writesJson_iff (hLaws : lib.Laws)
    (hRead : ∀ v, editJson lib (file.getD "") pointer value = .ok v → lib.Rereads v) :
    WritesJson lib file pointer value ↔
      JsonRefused lib (file.getD "") pointer ∨ JsonSound lib file pointer value := by
  have hMissing : locateJson lib none = locateJson lib (some "") := by
    funext p
    rw [locateJson, locateJson, Option.bind_some, hLaws.blank "" (by decide +kernel)]
    rfl
  rw [WritesJson, writeJson]
  rcases editJson_cases lib (file.getD "") pointer value with ⟨hRefused, e, hEdit⟩ | ⟨hTaken, v, hEdit, hCases⟩
  · rw [editFile_error (e := e) (by rw [hEdit]; rfl)]
    exact iff_of_true rfl (.inl hRefused)
  · obtain ⟨file', hFile, hReads⟩ := editFile_ok file
      (fun content => (editJson lib content pointer value).map lib.toStringPretty) hMissing (by rw [hEdit]; rfl)
    have hRead := hRead v hEdit
    rw [hFile, or_iff_right hTaken, ChangesTarget, hReads]
    rcases hCases with ⟨rfl, rfl⟩ | ⟨hSlash, path, hPath, hPut⟩ | ⟨hSlash, hNone, hPath, fields, hStart, rfl⟩
    · exact iff_of_false (fun h => not_locate_slash hRead h.2.1) fun h => h.noSlash rfl
    · refine sound_iff hLaws hRead hPath (Children.find_put hPut)
        (fun q hq => Children.find_put_none hPut hq) ?_ hSlash ?_
      · intro hShallow
        have hStart := depth_startJson hLaws (file.getD "")
        have hDepth := Children.depth_put_le Json.depth_child Json.depth_setChild hPut
        omega
      · refine .inl ?_
        rw [pointerOf, hPath, Option.bind_some]
        exact (Children.isSome_put_iff Json.isSome_setChild).1 (Option.isSome_iff_exists.2 ⟨v, hPut⟩)
    · rw [pointerOf, hPath, Option.bind_some, hStart] at hNone
      by_cases hKey : Json.unescape (rawKey pointer) = rawKey pointer
      · rw [hKey] at hPath hNone
        have hSet : Json.setChild (startJson lib (file.getD "")) (rawKey pointer) (denotedJson lib value) =
            some (.object (Json.insert fields (rawKey pointer) (denotedJson lib value))) := by
          rw [hStart]
          rfl
        have hPut : Json.children.put (some .null) (denotedJson lib value) (startJson lib (file.getD ""))
            [rawKey pointer] = some (.object (Json.insert fields (rawKey pointer) (denotedJson lib value))) := by
          rw [Children.put]
          cases Json.children.get (startJson lib (file.getD "")) (rawKey pointer) <;> exact hSet
        refine sound_iff hLaws hRead hPath (Children.find_put hPut)
          (fun q hq => Children.find_put_apart ?_ hPut hq) ?_ hSlash (.inr hKey)
        · rintro f hf k
          rw [← Option.some.inj hf]
          rfl
        · intro hShallow
          have hBelow := depth_startJson hLaws (file.getD "")
          have hDepth := Json.depth_setChild _ _ _ _ hSet
          rw [List.length_singleton] at hShallow
          omega
      · refine iff_of_false ?_ ?_
        · rintro ⟨-, hIs, -⟩
          rw [locateJson_print hRead, pointerOf, hPath, Option.bind_some] at hIs
          split at hIs
          · obtain ⟨w, hw, -⟩ := Option.map_eq_some_iff.1 hIs
            obtain ⟨c, hc, -⟩ := Option.bind_eq_some_iff.1 hw
            obtain ⟨c', hc'⟩ : ∃ c', fields.lookup (Json.unescape (rawKey pointer)) = some c' := by
              refine ⟨c, ?_⟩
              rw [← hc]
              exact ((Json.lookup_insert _ _ _ _).trans (if_neg hKey)).symm
            have hThere : Json.children.find (.object fields) [Json.unescape (rawKey pointer)] = some c' := by
              rw [Children.find]
              exact (congrArg (fun o => o.bind fun c => Json.children.find c []) hc').trans rfl
            cases hNone.symm.trans hThere
          · cases hIs
        · intro h
          refine hKey (h.key.resolve_left ?_)
          rw [pointerOf, hPath, Option.bind_some, hStart, hNone]
          exact Bool.false_ne_true

end

/-- A write changes its target only under these conditions on the file, the target and the value. -/
theorem structured_write_iff {json : JsonLibrary} {toml : TomlLibrary} (hJson : json.Laws) (hToml : toml.Laws)
    {jsonFile tomlFile : Option String} {pointer key value : String}
    (hPretty : ∀ v, editJson json (jsonFile.getD "") pointer value = .ok v → json.Rereads v)
    (hPrint : ∀ doc, editToml toml (tomlFile.getD "") key value = .ok doc →
      toml.Rereads (tomlFile.getD "") doc) :
    (WritesJson json jsonFile pointer value ↔
      JsonRefused json (jsonFile.getD "") pointer ∨ JsonSound json jsonFile pointer value) ∧
    (WritesToml toml tomlFile key value ↔ IsBlank tomlFile ∨ (toml.fromStr (tomlFile.getD "")).isSome = true) :=
  ⟨writesJson_iff hJson hPretty, writesToml_iff hToml hPrint⟩

/-- The documents of the samples, and how they are printed. -/
def sampleTexts : List (String × Json) :=
  [("\x7b\x7d", .object []), ("1", .posInt 1), ("\x7b\n  \"b\": 1\n\x7d", .object [("b", .posInt 1)]),
    ("\x7b\n  \"a\": 2\n\x7d", .object [("a", .posInt 2)]),
    ("\x7b\n  \"a\": 2,\n  \"b\": 1\n\x7d", .object [("a", .posInt 2), ("b", .posInt 1)])]

def sampleJson : JsonLibrary where
  fromStr s := sampleTexts.lookup s
  toStringPretty v := ((sampleTexts.find? fun e => e.2 = v).map Prod.fst).getD ""
  rereadFloat := id

theorem sampleTexts_shallow : ∀ e ∈ sampleTexts, Text.trim e.1 ≠ "" ∧ e.2.depth < 128 := by
  decide +kernel

theorem mem_sampleTexts {s : String} {v : Json} (h : sampleJson.fromStr s = some v) : (s, v) ∈ sampleTexts := by
  obtain ⟨before, after, hSplit, -⟩ := List.lookup_eq_some_iff.mp h
  exact hSplit ▸ List.mem_append_right before List.mem_cons_self

theorem sampleJson_laws : sampleJson.Laws where
  empty := rfl
  blank s hBlank := by
    rw [Option.eq_none_iff_forall_ne_some]
    exact fun v h => (sampleTexts_shallow _ (mem_sampleTexts h)).1 hBlank
  limit s v h := (sampleTexts_shallow _ (mem_sampleTexts h)).2

def sampleToml : TomlLibrary where
  fromStr s :=
    if Text.trim s = "" then some []
    else if s = "a = 2\n" then some [("a", .value (.integer 2))]
    else if s = "a = 2\nb = 1\n" then some [("a", .value (.integer 2)), ("b", .value (.integer 1))]
    else none
  parseValue s := if s = "1" then some (.integer 1) else none
  print _ _ := "a = 2\nb = 1\n"
  display _ := "1"

theorem sampleToml_laws : sampleToml.Laws := fun _ hBlank => .inr (if_pos hBlank)

/-- A file that is no JSON is replaced by a document with the target alone. -/
theorem writeJson_wipes :
    writeJson sampleJson (some "\x7ba: 1\x7d") "/b" "1" = (.ok (), some "\x7b\n  \"b\": 1\n\x7d") ∧
      ¬ WritesJson sampleJson (some "\x7ba: 1\x7d") "/b" "1" := by
  have hWrite : writeJson sampleJson (some "\x7ba: 1\x7d") "/b" "1" =
      (.ok (), some "\x7b\n  \"b\": 1\n\x7d") := by decide +kernel
  refine ⟨hWrite, fun h => ?_⟩
  rw [WritesJson, hWrite] at h
  rcases h.1 with hBlank | hValid
  · have hTrim : Text.trim "\x7ba: 1\x7d" = "" := hBlank
    exact absurd hTrim (by decide +kernel)
  · exact absurd hValid (by decide +kernel)

/-- Both documents have another key, which keeps its value. -/
theorem structured_write_sample :
    WritesJson sampleJson (some "\x7b\n  \"a\": 2\n\x7d") "/b" "1" ∧
      WritesToml sampleToml (some "a = 2\n") "b" "1" := by
  have hStart : sampleJson.fromStr "\x7b\n  \"a\": 2\n\x7d" = some (.object [("a", .posInt 2)]) := rfl
  have hEdit : editJson sampleJson "\x7b\n  \"a\": 2\n\x7d" "/b" "1" =
      .ok (.object [("a", .posInt 2), ("b", .posInt 1)]) := rfl
  have hEdit' : editToml sampleToml "a = 2\n" "b" "1" =
      .ok [("a", .value (.integer 2)), ("b", .value (.integer 1))] := rfl
  have hWrites := @structured_write_iff sampleJson sampleToml sampleJson_laws sampleToml_laws
    (some "\x7b\n  \"a\": 2\n\x7d") (some "a = 2\n") "/b" "b" "1" (fun v hv => by
      obtain rfl := Except.ok.inj (hEdit.symm.trans hv)
      rfl) fun doc hDoc => by
        obtain rfl := Except.ok.inj (hEdit'.symm.trans hDoc)
        rfl
  have hSound : JsonSound sampleJson (some "\x7b\n  \"a\": 2\n\x7d") "/b" "1" := by
    refine ⟨.inr (by rw [Option.getD_some, hStart]; rfl), by decide, .inr rfl, ?_, ?_, ?_⟩
    · intro path hPath
      have hTokens : Json.tokens "/b" = some ["b"] := rfl
      rw [← Option.some.inj (hTokens.symm.trans hPath)]
      decide
    · exact Json.mapFloats_id _
    · exact fun _ _ v _ => Json.mapFloats_id v
  exact ⟨hWrites.1.mpr (.inr hSound), hWrites.2.mpr (.inr rfl)⟩

end Exosuit.StructuredIo
