import Exosuit.Lib.HtmlText

/-!
# Reading and writing HTML

Tags with their quoted attributes are read character by character, and elements by matching the tags
that open and close them. What is written from a tree is read back as that tree, with its texts
decoded; adjacent texts are one.
-/

namespace Exosuit.Lib.Html

/-! ## Tokens -/

/-- An attribute with its text between the quotes; one without a text is empty. -/
abbrev Attr := List Char × List Char

inductive Token
  | char (c : Char)
  | start (name : List Char) (attrs : List Attr) (selfClosing : Bool)
  | stop (name : List Char)
deriving DecidableEq

structure Tag where
  close : Bool
  name : List Char
  attrs : List Attr

inductive Mode
  | data
  | tagOpen
  | endOpen
  | name (t : Tag)
  | space (t : Tag)
  | attr (t : Tag) (n : List Char)
  | value (t : Tag) (n : List Char)
  | quoted (t : Tag) (n : List Char) (q : Char) (v : List Char)
  | after (t : Tag)
  | slash (t : Tag)

def isSpace (c : Char) : Bool := c == ' ' || c == '\t' || c == '\n' || c == '\x0c'

def Tag.push (t : Tag) (n v : List Char) : Tag := { t with attrs := t.attrs ++ [(n, v)] }

/-- A closing tag has neither attributes nor a slash. -/
def Tag.token (t : Tag) (selfClosing : Bool) : Option Token :=
  if t.close then if t.attrs.isEmpty && !selfClosing then some (.stop t.name) else none
  else some (.start t.name t.attrs selfClosing)

def finish (t : Tag) (selfClosing : Bool) : Option (Mode × List Token) :=
  (t.token selfClosing).map fun token => (.data, [token])

/-- Within a tag, where a name or an attribute may end. -/
def step (m : Mode) (c : Char) : Option (Mode × List Token) :=
  match m with
  | .data => if c = '<' then some (.tagOpen, []) else some (.data, [.char c])
  | .tagOpen =>
    if c = '/' then some (.endOpen, [])
    else if c.isAlpha then some (.name ⟨false, [c.toLower], []⟩, [])
    else none
  | .endOpen => if c.isAlpha then some (.name ⟨true, [c.toLower], []⟩, []) else none
  | .name t =>
    if isSpace c then some (.space t, [])
    else if c = '/' then some (.slash t, [])
    else if c = '>' then finish t false
    else some (.name { t with name := t.name ++ [c.toLower] }, [])
  | .space t =>
    if isSpace c then some (.space t, [])
    else if c = '/' then some (.slash t, [])
    else if c = '>' then finish t false
    else if c = '=' ∨ c = '"' ∨ c = '\x27' ∨ c = '<' then none
    else some (.attr t [c.toLower], [])
  | .attr t n =>
    if isSpace c then some (.space (t.push n []), [])
    else if c = '/' then some (.slash (t.push n []), [])
    else if c = '>' then finish (t.push n []) false
    else if c = '=' then some (.value t n, [])
    else if c = '"' ∨ c = '\x27' ∨ c = '<' then none
    else some (.attr t (n ++ [c.toLower]), [])
  | .value t n => if c = '"' ∨ c = '\x27' then some (.quoted t n c [], []) else none
  | .quoted t n q v => if c = q then some (.after (t.push n v), []) else some (.quoted t n q (v ++ [c]), [])
  | .after t =>
    if isSpace c then some (.space t, [])
    else if c = '/' then some (.slash t, [])
    else if c = '>' then finish t false
    else none
  | .slash t => if c = '>' then finish t true else none

def run (m : Mode) : List Char → Option (Mode × List Token)
  | [] => some (m, [])
  | c :: cs => do
    let (m, out) ← step m c
    let (m, rest) ← run m cs
    return (m, out ++ rest)

/-- The tokens of a text that does not end within a tag. -/
def tokens (l : List Char) : Option (List Token) :=
  match run .data l with
  | some (.data, out) => some out
  | _ => none

/-! ## Elements -/

inductive Node
  | text (s : List Char)
  | element (name : List Char) (attrs : List Attr) (children : List Node)

structure Frame where
  name : List Char
  attrs : List Attr
  done : List Node
  pending : List Char

def voidNames : List (List Char) :=
  [['h', 'r'], ['b', 'r'], ['i', 'm', 'g'], ['i', 'n', 'p', 'u', 't']]

variable (R : References)

/-- The first line feed of preformatted text is not part of it. -/
def dropLine : List Char → List Char
  | '\n' :: l => l
  | l => l

def Frame.flush (f : Frame) : List Node :=
  let s := textValue R f.pending
  let s := if f.name = ['p', 'r', 'e'] ∧ f.done.isEmpty then dropLine s else s
  if s = [] then f.done else f.done ++ [.text s]

def Frame.add (f : Frame) (n : Node) : Frame := { f with done := f.flush R ++ [n], pending := [] }

def values (attrs : List Attr) : List Attr := attrs.map fun a => (a.1, attrValue R a.2)

/-- A link does not stand within a link. -/
def build (f : Frame) (stack : List Frame) : List Token → Option (List Node)
  | [] => if stack.isEmpty then some (f.flush R) else none
  | .char c :: ts => build { f with pending := f.pending ++ [c] } stack ts
  | .start n a selfClosing :: ts =>
    if n ∈ voidNames then build (f.add R (.element n (values R a) [])) stack ts
    else if selfClosing then none
    else if n = ['a'] ∧ (f :: stack).any (fun f => f.name == ['a']) then none
    else build ⟨n, a, [], []⟩ (f :: stack) ts
  | .stop n :: ts =>
    match stack with
    | [] => none
    | parent :: stack =>
      if n = f.name then build (parent.add R (.element f.name (values R f.attrs) (f.flush R))) stack ts else none

def root : Frame := ⟨[], [], [], []⟩

def read (l : List Char) : Option (List Node) := (tokens l).bind (build R root [])

/-! ## Writing -/

/-- A tree whose texts are escaped already. -/
inductive Raw
  | text (s : List Char)
  | element (name : List Char) (attrs : List (List Char × Option (List Char))) (children : List Raw)
  | void (name : List Char) (attrs : List (List Char × Option (List Char)))

def writeAttr (a : List Char × Option (List Char)) : List Char :=
  ' ' :: a.1 ++ match a.2 with
    | some v => '=' :: '"' :: v ++ ['"']
    | none => []

def writeTag (name : List Char) (attrs : List (List Char × Option (List Char))) : List Char :=
  '<' :: name ++ attrs.flatMap writeAttr

mutual

def write : Raw → List Char
  | .text s => s
  | .element name attrs children => writeTag name attrs ++ '>' :: writeAll children ++ '<' :: '/' :: name ++ ['>']
  | .void name attrs => writeTag name attrs ++ [' ', '/', '>']

def writeAll : List Raw → List Char
  | [] => []
  | r :: rs => write r ++ writeAll rs

end

def rawAttrs (attrs : List (List Char × Option (List Char))) : List Attr := attrs.map fun a => (a.1, a.2.getD [])

mutual

def toTokens : Raw → List Token
  | .text s => s.map .char
  | .element name attrs children => .start name (rawAttrs attrs) false :: allTokens children ++ [.stop name]
  | .void name attrs => [.start name (rawAttrs attrs) true]

def allTokens : List Raw → List Token
  | [] => []
  | r :: rs => toTokens r ++ allTokens rs

end

def isName (n : List Char) : Bool :=
  match n with
  | [] => false
  | c :: cs => c.isLower && cs.all fun c => c.isLower || c.isDigit || c == '-'

def attrOk (a : List Char × Option (List Char)) : Bool := isName a.1 && !(a.2.getD []).contains '"'

mutual

/-- Names are names, attributes hold no quote, texts no tag, and void elements are void ones. -/
def rawOk : Raw → Bool
  | .text s => !s.contains '<'
  | .element name attrs children =>
    isName name && decide (name ∉ voidNames) && attrs.all attrOk && allOk children
  | .void name attrs => isName name && decide (name ∈ voidNames) && attrs.all attrOk

def allOk : List Raw → Bool
  | [] => true
  | r :: rs => rawOk r && allOk rs

end

theorem writeAll_append (rs rs' : List Raw) : writeAll (rs ++ rs') = writeAll rs ++ writeAll rs' := by
  induction rs with
  | nil => rfl
  | cons r rs ih => rw [List.cons_append, writeAll, ih, writeAll, List.append_assoc]

theorem allOk_append (rs rs' : List Raw) : allOk (rs ++ rs') = (allOk rs && allOk rs') := by
  induction rs with
  | nil => rfl
  | cons r rs ih => rw [List.cons_append, allOk, ih, allOk, Bool.and_assoc]

/-! ## The tokens of a tree -/

variable {R} {m m₁ m₂ : Mode} {l l' : List Char} {out out' : List Token} {t : Tag} {c : Char}

theorem run_cons (h : step m c = some (m₁, out)) (h' : run m₁ l = some (m₂, out')) :
    run m (c :: l) = some (m₂, out ++ out') := by
  rw [run, h]
  change (run m₁ l).bind _ = _
  rw [h']
  rfl

theorem run_silent (m₁ : Mode) (h : step m c = some (m₁, [])) (h' : run m₁ l = some (m₂, out')) :
    run m (c :: l) = some (m₂, out') := run_cons h h'

theorem run_append (h : run m l = some (m₁, out)) (h' : run m₁ l' = some (m₂, out')) :
    run m (l ++ l') = some (m₂, out ++ out') := by
  induction l generalizing m out with
  | nil =>
    cases h
    exact h'
  | cons c l ih =>
    rw [run] at h
    cases hStep : step m c with
    | none =>
      rw [hStep] at h
      cases h
    | some next =>
      obtain ⟨m₃, first⟩ := next
      rw [hStep] at h
      change (run m₃ l).bind _ = _ at h
      cases hRest : run m₃ l with
      | none =>
        rw [hRest] at h
        cases h
      | some rest =>
        obtain ⟨m₄, out₄⟩ := rest
        rw [hRest] at h
        cases h
        rw [List.cons_append, List.append_assoc]
        exact run_cons hStep (ih hRest)

def isNameChar (c : Char) : Bool := c.isLower || c.isDigit || c == '-'

theorem nameChar_facts (h : isNameChar c = true) : isSpace c = false ∧ c ≠ '/' ∧ c ≠ '>' ∧ c ≠ '=' ∧
    ¬(c = '"' ∨ c = '\x27' ∨ c = '<') ∧ c.toLower = c := by
  refine ⟨?_, ?_, ?_, ?_, ?_, ?_⟩
  · rw [isSpace, Bool.or_eq_false_iff, Bool.or_eq_false_iff, Bool.or_eq_false_iff]
    refine ⟨⟨⟨?_, ?_⟩, ?_⟩, ?_⟩
    all_goals
      rw [beq_eq_false_iff_ne]
      rintro rfl
      exact absurd h (by decide)
  · rintro rfl
    exact absurd h (by decide)
  · rintro rfl
    exact absurd h (by decide)
  · rintro rfl
    exact absurd h (by decide)
  · rintro (rfl | rfl | rfl)
    all_goals exact absurd h (by decide)
  · refine dif_neg ?_
    rintro ⟨hLow, hHigh⟩
    change ((decide ('a'.val ≤ c.val) && decide (c.val ≤ 'z'.val)) || (decide ('0'.val ≤ c.val) && decide (c.val ≤ '9'.val)) ||
      c == '-') = true at h
    rw [Bool.or_eq_true, Bool.or_eq_true, beq_iff_eq, Bool.and_eq_true, Bool.and_eq_true, decide_eq_true_eq,
      decide_eq_true_eq, decide_eq_true_eq, decide_eq_true_eq] at h
    rcases h with (h | h) | rfl
    · exact absurd (UInt32.le_trans h.1 hHigh) (by decide)
    · exact absurd (UInt32.le_trans hLow h.2) (by decide)
    · exact absurd hLow (by decide)

theorem run_name (h : l.all isNameChar = true) (t : Tag) :
    run (.name t) l = some (.name { t with name := t.name ++ l }, []) := by
  induction l generalizing t with
  | nil =>
    rw [List.append_nil]
    rfl
  | cons c l ih =>
    rw [List.all_cons, Bool.and_eq_true] at h
    obtain ⟨hSpace, hSlash, hClose, -, -, hLower⟩ := nameChar_facts h.1
    have hStep : step (.name t) c = some (.name { t with name := t.name ++ [c] }, []) := by
      simp only [step, hSpace, hSlash, hClose, hLower, Bool.false_eq_true, if_false]
    have hRest := ih h.2 { t with name := t.name ++ [c] }
    rw [List.append_assoc] at hRest
    exact run_cons hStep hRest

theorem run_attr (h : l.all isNameChar = true) (t : Tag) (n : List Char) :
    run (.attr t n) l = some (.attr t (n ++ l), []) := by
  induction l generalizing n with
  | nil =>
    rw [List.append_nil]
    rfl
  | cons c l ih =>
    rw [List.all_cons, Bool.and_eq_true] at h
    obtain ⟨hSpace, hSlash, hClose, hEqual, hQuote, hLower⟩ := nameChar_facts h.1
    have hStep : step (.attr t n) c = some (.attr t (n ++ [c]), []) := by
      simp only [step, hSpace, hSlash, hClose, hEqual, hQuote, hLower, Bool.false_eq_true, if_false]
    have hRest := ih h.2 (n ++ [c])
    rw [List.append_assoc] at hRest
    exact run_cons hStep hRest

theorem run_quoted (h : '"' ∉ l) (t : Tag) (n v : List Char) :
    run (.quoted t n '"' v) (l ++ ['"']) = some (.after (t.push n (v ++ l)), []) := by
  induction l generalizing v with
  | nil =>
    rw [List.append_nil]
    rfl
  | cons c l ih =>
    rw [List.mem_cons, not_or] at h
    have hStep : step (.quoted t n '"' v) c = some (.quoted t n '"' (v ++ [c]), []) := by
      simp only [step, if_neg (Ne.symm h.1)]
    have hRest := ih h.2 (v ++ [c])
    rw [List.append_assoc] at hRest
    exact run_cons hStep hRest

/-- The name of the tag, or an attribute, may end here. -/
def Ready (m : Mode) (t : Tag) : Prop := step m ' ' = some (.space t, []) ∧ step m '>' = finish t false

theorem isName_eq_true (h : isName l = true) : ∃ c cs, l = c :: cs ∧ c.isLower = true ∧ cs.all isNameChar = true := by
  cases l with
  | nil => cases h
  | cons c cs =>
    rw [isName, Bool.and_eq_true] at h
    exact ⟨c, cs, rfl, h.1, h.2⟩

theorem isNameChar_of_isLower (h : c.isLower = true) : isNameChar c = true := by
  rw [isNameChar, h]
  rfl

/-- An attribute after a place where the tag may end leads to such a place. -/
theorem run_writeAttr {a : List Char × Option (List Char)} (h : attrOk a = true) (hReady : Ready m t) :
    ∃ m', run m (writeAttr a) = some (m', []) ∧ Ready m' (t.push a.1 (a.2.getD [])) := by
  obtain ⟨n, v⟩ := a
  rw [attrOk, Bool.and_eq_true, Bool.not_eq_true'] at h
  obtain ⟨c, cs, rfl, hc, hcs⟩ := isName_eq_true h.1
  obtain ⟨hSpace, hSlash, hClose, hEqual, hQuote, hLower⟩ := nameChar_facts (isNameChar_of_isLower hc)
  have hFirst : step (.space t) c = some (.attr t [c], []) := by
    have hNot : ¬(c = '=' ∨ c = '"' ∨ c = '\x27' ∨ c = '<') := fun h => h.elim hEqual hQuote
    simp only [step, hSpace, hSlash, hClose, hNot, hLower, Bool.false_eq_true, if_false]
  have hName : run m (' ' :: c :: cs) = some (.attr t (c :: cs), []) :=
    run_cons hReady.1 (run_cons hFirst (run_attr hcs t [c]))
  cases v with
  | none =>
    refine ⟨.attr t (c :: cs), ?_, rfl, rfl⟩
    rw [writeAttr, List.append_nil]
    exact hName
  | some v =>
    have hQuoteFree : '"' ∉ v := by
      have hContains := h.2
      rwa [Option.getD_some, List.contains_eq_mem, decide_eq_false_iff_not] at hContains
    have hValue : run (.attr t (c :: cs)) ('=' :: '"' :: (v ++ ['"'])) = some (.after (t.push (c :: cs) v), []) :=
      run_silent (.value t (c :: cs)) rfl (run_silent (.quoted t (c :: cs) '"' []) rfl
        (run_quoted hQuoteFree t (c :: cs) []))
    exact ⟨.after (t.push (c :: cs) v), run_append hName hValue, rfl, rfl⟩

theorem run_attrs {attrs : List (List Char × Option (List Char))} (h : attrs.all attrOk = true)
    (hReady : Ready m t) : ∃ m', run m (attrs.flatMap writeAttr) = some (m', []) ∧
      Ready m' { t with attrs := t.attrs ++ rawAttrs attrs } := by
  induction attrs generalizing m t with
  | nil =>
    refine ⟨m, rfl, ?_⟩
    rw [rawAttrs, List.map_nil, List.append_nil]
    exact hReady
  | cons a attrs ih =>
    rw [List.all_cons, Bool.and_eq_true] at h
    obtain ⟨m₁, hFirst, hReady₁⟩ := run_writeAttr h.1 hReady
    obtain ⟨m₂, hRest, hReady₂⟩ := ih h.2 hReady₁
    refine ⟨m₂, run_append hFirst hRest, ?_⟩
    rw [Tag.push, List.append_assoc] at hReady₂
    exact hReady₂

theorem run_writeTag {name : List Char} {attrs : List (List Char × Option (List Char))} (hName : isName name = true)
    (hAttrs : attrs.all attrOk = true) : ∃ m', run .data (writeTag name attrs) = some (m', []) ∧
      Ready m' ⟨false, name, rawAttrs attrs⟩ := by
  obtain ⟨c, cs, rfl, hc, hcs⟩ := isName_eq_true hName
  obtain ⟨-, hSlash, -, -, -, hLower⟩ := nameChar_facts (isNameChar_of_isLower hc)
  have hAlpha : c.isAlpha = true := by
    change (c.isUpper || c.isLower) = true
    rw [hc, Bool.or_true]
  have hFirst : step .tagOpen c = some (.name ⟨false, [c], []⟩, []) := by
    simp only [step, hSlash, hAlpha, hLower, if_false, if_true]
  have hOpen : run .data ('<' :: c :: cs) = some (.name ⟨false, c :: cs, []⟩, []) :=
    run_silent .tagOpen rfl (run_silent _ hFirst (run_name hcs ⟨false, [c], []⟩))
  obtain ⟨m', hRun, hReady⟩ := @run_attrs (.name ⟨false, c :: cs, []⟩) ⟨false, c :: cs, []⟩ attrs hAttrs ⟨rfl, rfl⟩
  exact ⟨m', run_append hOpen hRun, hReady⟩

theorem run_closingTag {name : List Char} (hName : isName name = true) :
    run .data ('<' :: '/' :: name ++ ['>']) = some (.data, [.stop name]) := by
  obtain ⟨c, cs, rfl, hc, hcs⟩ := isName_eq_true hName
  obtain ⟨-, -, -, -, -, hLower⟩ := nameChar_facts (isNameChar_of_isLower hc)
  have hAlpha : c.isAlpha = true := by
    change (c.isUpper || c.isLower) = true
    rw [hc, Bool.or_true]
  have hFirst : step .endOpen c = some (.name ⟨true, [c], []⟩, []) := by
    simp only [step, hAlpha, hLower, if_true]
  have hEnd : run (.name ⟨true, c :: cs, []⟩) ['>'] = some (.data, [.stop (c :: cs)]) := rfl
  have hOpen : run .data ('<' :: '/' :: c :: cs) = some (.name ⟨true, c :: cs, []⟩, []) :=
    run_silent .tagOpen rfl (run_silent .endOpen rfl (run_silent _ hFirst (run_name hcs ⟨true, [c], []⟩)))
  exact run_append hOpen hEnd

theorem run_text (h : '<' ∉ l) : run .data l = some (.data, l.map .char) := by
  induction l with
  | nil => rfl
  | cons c l ih =>
    rw [List.mem_cons, not_or] at h
    have hStep : step .data c = some (.data, [.char c]) := by
      rw [step, if_neg (Ne.symm h.1)]
    exact run_cons hStep (ih h.2)

mutual

theorem run_write (r : Raw) (h : rawOk r = true) : run .data (write r) = some (.data, toTokens r) := by
  match r with
  | .text s =>
    rw [rawOk, Bool.not_eq_true', List.contains_eq_mem, decide_eq_false_iff_not] at h
    rw [write, toTokens]
    exact run_text h
  | .element name attrs children =>
    rw [rawOk, Bool.and_eq_true, Bool.and_eq_true, Bool.and_eq_true] at h
    obtain ⟨⟨⟨hName, -⟩, hAttrs⟩, hChildren⟩ := h
    obtain ⟨m, hTag, hReady⟩ := run_writeTag hName hAttrs
    have hOpen : run m ['>'] = some (.data, [.start name (rawAttrs attrs) false]) := by
      rw [run, hReady.2]
      rfl
    have hBody := run_append hOpen (run_append (run_writeAll children hChildren) (run_closingTag hName))
    have hAll := run_append hTag hBody
    rw [write, toTokens]
    simpa using hAll
  | .void name attrs =>
    rw [rawOk, Bool.and_eq_true, Bool.and_eq_true] at h
    obtain ⟨⟨hName, -⟩, hAttrs⟩ := h
    obtain ⟨m, hTag, hReady⟩ := run_writeTag hName hAttrs
    have hEnd : run m [' ', '/', '>'] = some (.data, [.start name (rawAttrs attrs) true]) :=
      run_cons hReady.1 rfl
    rw [write, toTokens]
    exact run_append hTag hEnd

theorem run_writeAll (rs : List Raw) (h : allOk rs = true) : run .data (writeAll rs) = some (.data, allTokens rs) := by
  match rs with
  | [] => rfl
  | r :: rs =>
    rw [allOk, Bool.and_eq_true] at h
    rw [writeAll, allTokens]
    exact run_append (run_write r h.1) (run_writeAll rs h.2)

end

/-! ## The elements of a tree -/

mutual

def nodeOf (R : References) : Raw → Node
  | .text s => .text s
  | .element name attrs children =>
    .element name (values R (rawAttrs attrs)) ((absorb R children ⟨name, rawAttrs attrs, [], []⟩).flush R)
  | .void name attrs => .element name (values R (rawAttrs attrs)) []

def absorb (R : References) : List Raw → Frame → Frame
  | [], f => f
  | .text s :: rs, f => absorb R rs { f with pending := f.pending ++ s }
  | .element name attrs children :: rs, f => absorb R rs (f.add R (nodeOf R (.element name attrs children)))
  | .void name attrs :: rs, f => absorb R rs (f.add R (nodeOf R (.void name attrs)))

end

mutual

def nests (inLink : Bool) : Raw → Bool
  | .text _ => false
  | .element name _ children => (name == ['a'] && inLink) || anyNests (name == ['a'] || inLink) children
  | .void _ _ => false

def anyNests (inLink : Bool) : List Raw → Bool
  | [] => false
  | r :: rs => nests inLink r || anyNests inLink rs

end

theorem anyNests_append (inLink : Bool) (rs rs' : List Raw) :
    anyNests inLink (rs ++ rs') = (anyNests inLink rs || anyNests inLink rs') := by
  induction rs with
  | nil => rfl
  | cons r rs ih => rw [List.cons_append, anyNests, ih, anyNests, Bool.or_assoc]

def inLink (f : Frame) (stack : List Frame) : Bool := (f :: stack).any fun f => f.name == ['a']

theorem absorb_name (rs : List Raw) (f : Frame) :
    (absorb R rs f).name = f.name ∧ (absorb R rs f).attrs = f.attrs := by
  induction rs generalizing f with
  | nil => exact ⟨rfl, rfl⟩
  | cons r rs ih =>
    cases r with
    | text s => exact ih { f with pending := f.pending ++ s }
    | element name attrs children => exact ih (f.add R (nodeOf R (.element name attrs children)))
    | void name attrs => exact ih (f.add R (nodeOf R (.void name attrs)))

theorem inLink_absorb (rs : List Raw) (f : Frame) (stack : List Frame) :
    inLink (absorb R rs f) stack = inLink f stack := by
  rw [inLink, List.any_cons, (absorb_name rs f).1, inLink, List.any_cons]

def textNode (R : References) (pending : List Char) : List Node :=
  if textValue R pending = [] then [] else [.text (textValue R pending)]

def settle (R : References) : List Raw → List Char → List Node
  | [], pending => textNode R pending
  | .text s :: rs, pending => settle R rs (pending ++ s)
  | .element name attrs children :: rs, pending =>
    textNode R pending ++ nodeOf R (.element name attrs children) :: settle R rs []
  | .void name attrs :: rs, pending => textNode R pending ++ nodeOf R (.void name attrs) :: settle R rs []

theorem flush_eq {f : Frame} (h : f.name ≠ ['p', 'r', 'e']) : f.flush R = f.done ++ textNode R f.pending := by
  have hPre : ¬(f.name = ['p', 'r', 'e'] ∧ f.done.isEmpty) := fun hBoth => h hBoth.1
  simp only [Frame.flush, if_neg hPre, textNode]
  split
  · rw [List.append_nil]
  · rfl

theorem add_settle {f : Frame} (h : f.name ≠ ['p', 'r', 'e']) (n : Node) (rs : List Raw) :
    (f.add R n).done ++ settle R rs (f.add R n).pending = f.done ++ (textNode R f.pending ++ n :: settle R rs []) := by
  rw [Frame.add, flush_eq h, List.append_assoc, List.append_assoc, List.singleton_append]

theorem flush_absorb (rs : List Raw) {f : Frame} (h : f.name ≠ ['p', 'r', 'e']) :
    (absorb R rs f).flush R = f.done ++ settle R rs f.pending := by
  induction rs generalizing f with
  | nil => exact flush_eq h
  | cons r rs ih =>
    cases r with
    | text s => exact @ih { f with pending := f.pending ++ s } h
    | element name attrs children =>
      have hRest := @ih (f.add R (nodeOf R (.element name attrs children))) h
      rw [absorb, hRest, settle, add_settle h]
    | void name attrs =>
      have hRest := @ih (f.add R (nodeOf R (.void name attrs))) h
      rw [absorb, hRest, settle, add_settle h]

def isTextNode : Node → Bool
  | .text _ => true
  | .element _ _ _ => false

def separate : List Node → Bool
  | [] => true
  | .text s :: ns => !s.isEmpty && !ns.head?.any isTextNode && separate ns
  | .element _ _ _ :: ns => separate ns

theorem separate_textNode_append (pending : List Char) {ns : List Node} (h : separate ns = true)
    (hHead : ns.head?.any isTextNode = false) : separate (textNode R pending ++ ns) = true := by
  rw [textNode]
  split
  · exact h
  · next hText =>
    rw [List.singleton_append, separate, hHead, h, List.isEmpty_eq_false_iff.mpr hText]
    rfl

theorem separate_settle (rs : List Raw) (pending : List Char) : separate (settle R rs pending) = true := by
  induction rs generalizing pending with
  | nil =>
    have hLast := @separate_textNode_append R pending [] rfl rfl
    rwa [List.append_nil] at hLast
  | cons r rs ih =>
    cases r with
    | text s => exact ih (pending ++ s)
    | element name attrs children => exact separate_textNode_append pending (ih []) rfl
    | void name attrs => exact separate_textNode_append pending (ih []) rfl

theorem build_chars (s : List Char) (f : Frame) (stack : List Frame) (ts : List Token) :
    build R f stack (s.map .char ++ ts) = build R { f with pending := f.pending ++ s } stack ts := by
  induction s generalizing f with
  | nil =>
    rw [List.append_nil]
    rfl
  | cons c s ih =>
    rw [List.map_cons, List.cons_append, build, ih, List.append_assoc]
    rfl

mutual

theorem build_toTokens (r : Raw) (h : rawOk r = true) (f : Frame) (stack : List Frame) (ts : List Token) :
    build R f stack (toTokens r ++ ts) =
      if nests (inLink f stack) r then none else build R (absorb R [r] f) stack ts := by
  match r with
  | .text s =>
    rw [toTokens, build_chars, nests, if_neg Bool.false_ne_true]
    rfl
  | .void name attrs =>
    rw [rawOk, Bool.and_eq_true, Bool.and_eq_true, decide_eq_true_eq] at h
    rw [toTokens, List.singleton_append, build, if_pos h.1.2, nests, if_neg Bool.false_ne_true]
    rfl
  | .element name attrs children =>
    rw [rawOk, Bool.and_eq_true, Bool.and_eq_true, Bool.and_eq_true, decide_eq_true_eq] at h
    obtain ⟨⟨⟨-, hVoid⟩, -⟩, hChildren⟩ := h
    rw [toTokens, List.append_assoc, List.cons_append, build, if_neg hVoid, if_neg Bool.false_ne_true, nests,
      ← inLink]
    by_cases hNested : name = ['a'] ∧ inLink f stack = true
    · rw [if_pos hNested, hNested.2, beq_iff_eq.mpr hNested.1, Bool.and_self, Bool.true_or, if_pos rfl]
    · have hHere : (name == ['a'] && inLink f stack) = false := by
        rw [Bool.and_eq_false_iff]
        by_cases hName : name = ['a']
        · exact .inr (Bool.eq_false_iff.mpr fun h => hNested ⟨hName, h⟩)
        · exact .inl (beq_eq_false_iff_ne.mpr hName)
      have hInner : inLink ⟨name, rawAttrs attrs, [], []⟩ (f :: stack) = (name == ['a'] || inLink f stack) := rfl
      have hBody := build_allTokens children hChildren ⟨name, rawAttrs attrs, [], []⟩ (f :: stack)
        ([.stop name] ++ ts)
      rw [if_neg hNested, hHere, Bool.false_or, hBody, hInner]
      split
      · rfl
      · obtain ⟨hSameName, hSameAttrs⟩ := absorb_name (R := R) children ⟨name, rawAttrs attrs, [], []⟩
        rw [List.singleton_append, build, if_pos hSameName.symm, hSameName, hSameAttrs, absorb, absorb, nodeOf]

theorem build_allTokens (rs : List Raw) (h : allOk rs = true) (f : Frame) (stack : List Frame) (ts : List Token) :
    build R f stack (allTokens rs ++ ts) =
      if anyNests (inLink f stack) rs then none else build R (absorb R rs f) stack ts := by
  match rs with
  | [] => rfl
  | r :: rs =>
    rw [allOk, Bool.and_eq_true] at h
    have hHead : absorb R rs (absorb R [r] f) = absorb R (r :: rs) f := by
      cases r <;> rfl
    rw [allTokens, List.append_assoc, build_toTokens r h.1, build_allTokens rs h.2, inLink_absorb, hHead, anyNests]
    cases nests (inLink f stack) r with
    | true => rfl
    | false => rfl

end

theorem tokens_writeAll {rs : List Raw} (h : allOk rs = true) : tokens (writeAll rs) = some (allTokens rs) := by
  rw [tokens, run_writeAll rs h]

theorem read_writeAll {rs : List Raw} (h : allOk rs = true) :
    read R (writeAll rs) = if anyNests false rs then none else some (settle R rs []) := by
  have hBuild := build_allTokens (R := R) rs h root [] []
  rw [List.append_nil] at hBuild
  have hFlush := @flush_absorb R rs root nofun
  rw [read, tokens_writeAll h, Option.bind_some, hBuild, build, hFlush]
  rfl

end Exosuit.Lib.Html
