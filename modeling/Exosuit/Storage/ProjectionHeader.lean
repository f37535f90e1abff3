import Exosuit.Lib.Program
import Exosuit.Storage.Compatibility
import Exosuit.Storage.RowCodec

/-!
# The generation header of a projection

The first line of `epochs.sql` names the generation a writer must support. The SQL merge driver
reads it from three files and heads the current one again.
-/

namespace Exosuit.Projection

open Lib Compatibility Dump

def projectionGenerationPrefix : String := "-- exo:minimum-writer-generation="

def isHeader (line : String) : Bool := Text.startsWith line projectionGenerationPrefix

section Headers

-- how a line is shown in a message
variable (debug : String → String)

def projectionMetadataInvalid (line : String) : WriterCompatibilityError :=
  .metadataInvalid .projection ("invalid epochs.sql header " ++ debug line)

def parseProjectionGeneration (content : String) : Except WriterCompatibilityError Int :=
  match Text.lines content with
  | [] => .ok 0
  | firstLine :: _ =>
    match Text.stripPrefix projectionGenerationPrefix firstLine with
    | some value =>
      if value = "" ∨ (1 < value.utf8ByteSize ∧ Text.startsWith value "0") ∨
          ¬ value.toList.all Char.isDigit then
        .error (projectionMetadataInvalid debug firstLine)
      else
        match Text.parseI64 value with
        | none => .error (projectionMetadataInvalid debug firstLine)
        | some generation =>
          if 0 ≤ generation.toInt ∧ generation.toInt ≤ maxWriterGeneration then .ok generation.toInt
          else .error (projectionMetadataInvalid debug firstLine)
    | none =>
      if Text.startsWith firstLine "-- exo:minimum-writer-generation" then
        .error (projectionMetadataInvalid debug firstLine)
      else .ok 0

end Headers

def renderProjectionGenerationHeader (generation : Int) : Except WriterCompatibilityError String :=
  if 0 ≤ generation ∧ generation ≤ maxWriterGeneration then
    .ok (projectionGenerationPrefix ++ toString generation)
  else .error (.metadataInvalid .projection
    s!"generation {generation} is outside 0..={maxWriterGeneration}")

/-- What stands below the header of a file. -/
def projectionBody (content : String) : List Char :=
  if (Text.lines content).head?.any isHeader then
    ((Text.splitOnceList ['\n'] content.toList).map Prod.snd).getD []
  else content.toList

def withProjectionGeneration (content : String) (generation : Int) : Except WriterCompatibilityError String :=
  match renderProjectionGenerationHeader generation with
  | .error e => .error e
  | .ok header =>
    let body := projectionBody content
    if body = [] then .ok (header ++ "\n") else .ok (header ++ "\n" ++ String.ofList body)

/-- The rows of `import_single_table` before they are put into the database. -/
def importRows (table : String) : (lineNum : Nat) → List String → Except ImportError (List ParsedInsert)
  | _, [] => .ok []
  | lineNum, line :: lines =>
    let line := Text.trim line
    if line = "" ∨ Text.startsWith line "--" then importRows table (lineNum + 1) lines
    else
      match parseInsert line table lineNum with
      | .error e => .error e
      | .ok parsed =>
        match importRows table (lineNum + 1) lines with
        | .error e => .error e
        | .ok rows => .ok (parsed :: rows)

def importTable (table sql : String) : Except ImportError (List ParsedInsert) :=
  importRows table 1 (Text.lines sql)

/-! ## The merge driver -/

inductive FileContent
  | missing
  | unreadable
  | text (s : String)
deriving DecidableEq

abbrev Files := String → FileContent

inductive DriverError
  | read (path : String)
  | compatibility (e : WriterCompatibilityError)
  | write (path : String)

/-- What `fs::write` does: it may fail after it has truncated the file. -/
inductive Written
  | done
  | failed (left : FileContent)

/-- `Path::file_name` -/
def fileName (path : String) : Option String :=
  match ((Text.split "/" path).filter fun part => part ≠ "" && part ≠ ".").getLast? with
  | none => none
  | some ".." => none
  | some name => some name

def readToStringOrEmpty (files : Files) (path : String) : Except DriverError String :=
  match files path with
  | .missing => .ok ""
  | .unreadable => .error (.read path)
  | .text s => .ok s

def readGeneration (debug : String → String) (content : String) : Except DriverError Int :=
  match parseProjectionGeneration debug content with
  | .ok generation => .ok generation
  | .error e => .error (.compatibility e)

/-- What `run_sql` writes to the current file. -/
def renderMerged (debug : String → String) (supported : Int) (files : Files) (base current other : String) :
    Except DriverError String := do
  let baseS ← readToStringOrEmpty files base
  let currentS ← readToStringOrEmpty files current
  let otherS ← readToStringOrEmpty files other
  let baseGeneration ← readGeneration debug baseS
  let currentGeneration ← readGeneration debug currentS
  let otherGeneration ← readGeneration debug otherS
  let generation := max (max baseGeneration currentGeneration) otherGeneration
  match ensureSupported supported generation .projection with
  | .error e => .error (.compatibility e)
  | .ok () =>
    match withProjectionGeneration currentS generation with
    | .error e => .error (.compatibility e)
    | .ok rendered => .ok rendered

def runSql (debug : String → String) (supported : Int) (base current other : String)
    (logicalPath : Option String) (files : Files) (written : Written) : Except DriverError Int × Files :=
  if logicalPath.bind fileName ≠ some "epochs.sql" then (.ok 0, files)
  else
    match renderMerged debug supported files base current other with
    | .error e => (.error e, files)
    | .ok rendered =>
      match written with
      | .done => (.ok 0, Function.update files current (.text rendered))
      | .failed left => (.error (.write current), Function.update files current left)

/-! ## Headers -/

theorem header_toList : ∃ rest, projectionGenerationPrefix.toList = '-' :: '-' :: rest ∧
    '\n' ∉ projectionGenerationPrefix.toList ∧ '\r' ∉ projectionGenerationPrefix.toList := by
  simp [projectionGenerationPrefix]

def InRange (generation : Int) : Prop := 0 ≤ generation ∧ generation ≤ maxWriterGeneration

def headerChars (generation : Int) : List Char :=
  projectionGenerationPrefix.toList ++ (toString generation).toList

def headed (generation : Int) (body : List Char) : List Char := headerChars generation ++ '\n' :: body

variable {g : Int}

theorem InRange.digits (h : InRange g) : ∃ n : Nat, g = n ∧ n ≤ 2147483647 ∧ toString g = n.repr := by
  obtain ⟨n, rfl⟩ := Int.eq_ofNat_of_zero_le h.1
  have hMax := h.2
  rw [maxWriterGeneration] at hMax
  exact ⟨n, rfl, by omega, rfl⟩

theorem InRange.headerChars_inline (h : InRange g) : '\n' ∉ headerChars g ∧ '\r' ∉ headerChars g := by
  obtain ⟨n, -, -, hText⟩ := h.digits
  obtain ⟨-, -, hNewline, hReturn⟩ := header_toList
  have hDigit : ∀ c ∈ (toString g).toList, c.isDigit = true := by
    rw [hText]
    exact List.all_eq_true.mp (Text.all_isDigit_repr n)
  rw [headerChars, List.mem_append, List.mem_append, not_or, not_or]
  refine ⟨⟨hNewline, fun hMem => ?_⟩, hReturn, fun hMem => ?_⟩
  · exact absurd (hDigit _ hMem) (by decide)
  · exact absurd (hDigit _ hMem) (by decide)

theorem withProjectionGeneration_eq (h : InRange g) (content : String) :
    withProjectionGeneration content g = .ok (String.ofList (headed g (projectionBody content))) := by
  have hText : ∀ body : List Char, projectionGenerationPrefix ++ toString g ++ "\n" ++ String.ofList body =
      String.ofList (headed g body) := by
    intro body
    have hNewline : "\n".toList = ['\n'] := by simp
    rw [← String.toList_inj, String.toList_ofList]
    simp only [String.toList_append, String.toList_ofList, hNewline, headed, headerChars, List.append_assoc,
      List.cons_append, List.nil_append]
  unfold withProjectionGeneration renderProjectionGenerationHeader
  rw [if_pos (And.intro h.1 h.2)]
  dsimp only
  split
  · next hEmpty =>
    have hRendered := hText []
    rw [String.ofList_nil, String.append_empty] at hRendered
    rw [hRendered, hEmpty]
  · rw [hText]

theorem lines_headed (h : InRange g) (body : List Char) : Text.lines (String.ofList (headed g body)) =
    String.ofList (headerChars g) :: Text.lines (String.ofList body) := by
  obtain ⟨hNewline, hReturn⟩ := h.headerChars_inline
  rw [Text.lines, String.toList_ofList, headed, Text.linesFrom_line hNewline, List.nil_append,
    Text.endLine_of_not_mem hReturn, List.map_cons, Text.lines, String.toList_ofList]

theorem isHeader_headerChars (g : Int) : isHeader (String.ofList (headerChars g)) = true := by
  rw [isHeader, Text.startsWith, String.toList_ofList, headerChars, List.isPrefixOf_iff_prefix]
  exact List.prefix_append _ _

/-- What a header stands on is given back. -/
theorem projectionBody_headed (h : InRange g) (body : List Char) :
    projectionBody (String.ofList (headed g body)) = body := by
  have hHead : (Text.lines (String.ofList (headed g body))).head?.any isHeader = true := by
    rw [lines_headed h, List.head?_cons, Option.any_some]
    exact isHeader_headerChars g
  rw [projectionBody, if_pos hHead, String.toList_ofList, headed,
    Text.splitOnceList_char h.headerChars_inline.1]
  rfl

theorem stripPrefix_headerChars (g : Int) :
    Text.stripPrefix projectionGenerationPrefix (String.ofList (headerChars g)) = some (toString g) := by
  rw [Text.stripPrefix, String.toList_ofList, if_pos, headerChars, List.drop_left, String.ofList_toList]
  rw [headerChars, List.isPrefixOf_iff_prefix]
  exact List.prefix_append _ _

/-- The number of a header, as the reader wants it. -/
theorem InRange.value (h : InRange g) : ¬ (toString g = "" ∨
    (1 < (toString g).utf8ByteSize ∧ Text.startsWith (toString g) "0") ∨
      ¬ (toString g).toList.all Char.isDigit) := by
  obtain ⟨n, -, -, hText⟩ := h.digits
  rw [hText]
  rintro (hEmpty | ⟨hSize, hZero⟩ | hDigits)
  · exact Text.repr_toList_ne_nil n (by rw [hEmpty]; simp)
  · rcases Nat.eq_zero_or_pos n with rfl | hPos
    · exact absurd hSize (by decide)
    · obtain ⟨c, cs, hRepr⟩ := List.exists_cons_of_ne_nil (Text.repr_toList_ne_nil n)
      have hHead := Text.repr_head hPos
      have hDigit : "0".toList = ['0'] := by simp
      rw [Text.startsWith, hDigit, hRepr] at hZero
      rw [hRepr, List.head?_cons] at hHead
      have hSame : '0' = c := by simpa [List.isPrefixOf] using hZero
      exact hHead (congrArg some hSame.symm)
  · exact hDigits (Text.all_isDigit_repr n)

theorem parseProjectionGeneration_headed (debug : String → String) (h : InRange g) (body : List Char) :
    parseProjectionGeneration debug (String.ofList (headed g body)) = .ok g := by
  obtain ⟨n, hn, hMax, hText⟩ := h.digits
  have hParse : Text.parseI64 (toString g) = some (Int64.ofNat n) := by
    rw [hText]
    exact Text.parseI64_repr (by omega)
  have hInt : (Int64.ofNat n).toInt = g := by
    rw [Int64.toInt_ofNat_of_lt (by omega), hn]
  unfold parseProjectionGeneration
  rw [lines_headed h]
  dsimp only
  rw [stripPrefix_headerChars]
  dsimp only
  rw [if_neg h.value, hParse]
  dsimp only
  rw [hInt, if_pos (And.intro h.1 h.2)]

/-! ## Rows -/

theorem trim_comment {line : String} (h : isHeader line = true) :
    Text.trim line ≠ "" ∧ Text.startsWith (Text.trim line) "--" = true := by
  obtain ⟨rest, hPrefix, -⟩ := header_toList
  rw [isHeader, Text.startsWith, List.isPrefixOf_iff_prefix, hPrefix] at h
  obtain ⟨tail, hLine⟩ := h
  have hDash : Text.isWhitespace '-' = false := by decide
  have hTrim : ∃ more, Text.trimList Text.isWhitespace line.toList = '-' :: '-' :: more := by
    rw [← hLine, Text.trimList, List.cons_append, List.cons_append, List.dropWhile_cons, hDash, if_neg Bool.false_ne_true,
      List.reverse_cons, List.reverse_cons, List.append_assoc, List.dropWhile_append]
    split
    · refine ⟨[], ?_⟩
      rw [List.singleton_append, List.dropWhile_cons, hDash, if_neg Bool.false_ne_true]
      rfl
    · refine ⟨((rest ++ tail).reverse.dropWhile Text.isWhitespace).reverse, ?_⟩
      rw [List.reverse_append]
      rfl
  obtain ⟨more, hMore⟩ := hTrim
  have hDashes : "--".toList = ['-', '-'] := by simp
  constructor
  · intro hEmpty
    have hNil := congrArg String.toList hEmpty
    rw [Text.trim, String.toList_ofList, hMore] at hNil
    simp at hNil
  · rw [Text.startsWith, hDashes, Text.trim, String.toList_ofList, hMore]
    rfl

theorem importRows_header {line : String} (h : isHeader line = true) (table : String) (lineNum : Nat)
    (lines : List String) :
    importRows table lineNum (line :: lines) = importRows table (lineNum + 1) lines := by
  rw [importRows, if_pos (.inr (trim_comment h).2)]

theorem parseValues_toOption (s table : String) (n m : Nat) :
    (parseValues s table n).toOption = (parseValues s table m).toOption := by
  unfold parseValues
  split <;> rfl

theorem toOption_cases {ε α : Type*} {first second : Except ε α} (h : first.toOption = second.toOption) :
    (∃ a, first = .ok a ∧ second = .ok a) ∨ ∃ e e', first = .error e ∧ second = .error e' := by
  cases first with
  | error e =>
    cases second with
    | error e' => exact .inr ⟨e, e', rfl, rfl⟩
    | ok b => exact nomatch h
  | ok a =>
    cases second with
    | error e => exact nomatch h
    | ok b =>
      cases Option.some.inj h
      exact .inl ⟨a, rfl, rfl⟩

/-- The number of a line stands in messages only. -/
theorem parseInsert_toOption (line table : String) (n m : Nat) :
    (parseInsert line table n).toOption = (parseInsert line table m).toOption := by
  unfold parseInsert
  dsimp only
  split
  · rfl
  · split
    · rfl
    · split
      · rfl
      · split
        · rfl
        · rcases toOption_cases (parseValues_toOption _ table n m) with ⟨values, hn, hm⟩ | ⟨e, e', hn, hm⟩
          · rw [hn, hm]
            dsimp only
            split <;> rfl
          · rw [hn, hm]
            rfl

theorem importRows_toOption (table : String) (n m : Nat) (lines : List String) :
    (importRows table n lines).toOption = (importRows table m lines).toOption := by
  induction lines generalizing n m with
  | nil => rfl
  | cons line lines ih =>
    rw [importRows, importRows]
    split
    · exact ih (n + 1) (m + 1)
    · rcases toOption_cases (parseInsert_toOption (Text.trim line) table n m) with
        ⟨parsed, hn, hm⟩ | ⟨e, e', hn, hm⟩
      · rw [hn, hm]
        rcases toOption_cases (ih (n + 1) (m + 1)) with ⟨rows, hn, hm⟩ | ⟨e, e', hn, hm⟩
        · rw [hn, hm]
        · rw [hn, hm]
          rfl
      · rw [hn, hm]
        rfl

theorem lines_projectionBody (content : String) :
    Text.lines content = Text.lines (String.ofList (projectionBody content)) ∨
      ∃ header, isHeader header = true ∧
        Text.lines content = header :: Text.lines (String.ofList (projectionBody content)) := by
  unfold projectionBody
  split
  · next hHead =>
    right
    by_cases hNewline : '\n' ∈ content.toList
    · obtain ⟨first, rest, hContent, hFirst⟩ := List.eq_append_cons_of_mem hNewline
      have hLines : Text.lines content =
          String.ofList (Text.endLine first) :: Text.lines (String.ofList rest) := by
        rw [Text.lines, hContent, Text.linesFrom_line hFirst, List.nil_append, List.map_cons, Text.lines,
          String.toList_ofList]
      rw [hLines, List.head?_cons, Option.any_some] at hHead
      rw [hContent, Text.splitOnceList_char hFirst]
      exact ⟨_, hHead, hLines⟩
    · have hSplit : Text.splitOnceList ['\n'] content.toList = none := by
        refine (Text.splitOnceList_eq_none (List.cons_ne_nil _ _)).mpr ?_
        rintro ⟨before, after, hContent⟩
        exact hNewline (by rw [← hContent]; simp)
      have hLines : Text.lines content = if content.toList = [] then [] else [content] := by
        rw [Text.lines, Text.linesFrom_last hNewline, List.nil_append]
        split
        · rfl
        · rw [List.map_singleton, String.ofList_toList]
      rw [hSplit]
      split at hLines
      · rw [hLines] at hHead
        cases hHead
      · rw [hLines, List.head?_cons, Option.any_some] at hHead
        refine ⟨content, hHead, hLines.trans ?_⟩
        rfl
  · left
    rw [String.ofList_toList]

theorem importTable_headed (h : InRange g) (content table : String) :
    (importTable table (String.ofList (headed g (projectionBody content)))).toOption =
      (importTable table content).toOption := by
  rw [importTable, importTable, lines_headed h, importRows_header (isHeader_headerChars g)]
  rcases lines_projectionBody content with hLines | ⟨header, hHeader, hLines⟩
  · rw [hLines]
    exact importRows_toOption table 2 1 _
  · rw [hLines, importRows_header hHeader]

/-! ## Merging -/

variable {debug : String → String} {supported : Int} {files files' : Files} {base current other : String}
  {logicalPath : Option String} {written : Written}

theorem parseProjectionGeneration_inRange {content : String}
    (h : parseProjectionGeneration debug content = .ok g) : InRange g := by
  have hZero : InRange 0 := ⟨le_refl _, by decide⟩
  unfold parseProjectionGeneration at h
  split at h
  · cases h
    exact hZero
  · split at h
    · split at h
      · cases h
      · split at h
        · cases h
        · split at h
          · next hRange =>
            cases h
            exact hRange
          · cases h
    · split at h
      · cases h
      · cases h
        exact hZero

theorem readGeneration_eq_ok {content : String} :
    readGeneration debug content = .ok g ↔ parseProjectionGeneration debug content = .ok g := by
  unfold readGeneration
  split
  · next hParse => rw [hParse, Except.ok.injEq, Except.ok.injEq]
  · next hParse =>
    rw [hParse]
    exact ⟨nofun, nofun⟩

/-- The three files, read, and the generations of their headers. -/
structure Sides (debug : String → String) (files : Files) (base current other : String)
    (currentS : String) (generation : Int) : Prop where
  current : readToStringOrEmpty files current = .ok currentS
  generations : ∃ baseS otherS b c o, readToStringOrEmpty files base = .ok baseS ∧
    readToStringOrEmpty files other = .ok otherS ∧ parseProjectionGeneration debug baseS = .ok b ∧
    parseProjectionGeneration debug currentS = .ok c ∧ parseProjectionGeneration debug otherS = .ok o ∧
    generation = max (max b c) o

theorem Sides.inRange {currentS : String} (h : Sides debug files base current other currentS g) : InRange g := by
  obtain ⟨baseS, otherS, b, c, o, -, -, hBase, hCurrent, hOther, rfl⟩ := h.generations
  have hb := parseProjectionGeneration_inRange hBase
  have hc := parseProjectionGeneration_inRange hCurrent
  have ho := parseProjectionGeneration_inRange hOther
  exact ⟨le_max_of_le_right ho.1, max_le (max_le hb.2 hc.2) ho.2⟩

theorem renderMerged_eq_ok {rendered : String} :
    renderMerged debug supported files base current other = .ok rendered ↔
      ∃ currentS g, Sides debug files base current other currentS g ∧ g ≤ supported ∧
        rendered = String.ofList (headed g (projectionBody currentS)) := by
  have hLast : ∀ {currentS : String} {g : Int}, InRange g →
      ((match ensureSupported supported g .projection with
        | .error e => .error (.compatibility e)
        | .ok () =>
          match withProjectionGeneration currentS g with
          | .error e => .error (.compatibility e)
          | .ok rendered => .ok rendered : Except DriverError String) = .ok rendered ↔
        g ≤ supported ∧ rendered = String.ofList (headed g (projectionBody currentS))) := by
    intro currentS g hRange
    rw [ensureSupported, withProjectionGeneration_eq hRange]
    split
    · next hOver =>
      split at hOver
      · next hLarge => exact ⟨nofun, fun h => absurd h.1 (not_le.mpr hLarge)⟩
      · cases hOver
    · next hOver =>
      split at hOver
      · cases hOver
      · next hSmall =>
        rw [Except.ok.injEq]
        exact ⟨fun h => ⟨not_lt.mp hSmall, h.symm⟩, fun h => h.2.symm⟩
  simp only [renderMerged, bind_eq_ok, readGeneration_eq_ok]
  constructor
  · rintro ⟨baseS, hBase, currentS, hCurrent, otherS, hOther, b, hb, c, hc, o, ho, hRendered⟩
    have hSides : Sides debug files base current other currentS (max (max b c) o) :=
      ⟨hCurrent, baseS, otherS, b, c, o, hBase, hOther, hb, hc, ho, rfl⟩
    exact ⟨currentS, _, hSides, (hLast hSides.inRange).mp hRendered⟩
  · rintro ⟨currentS, g, hSides, hRendered⟩
    have hRange := hSides.inRange
    obtain ⟨hCurrent, baseS, otherS, b, c, o, hBase, hOther, hb, hc, ho, rfl⟩ := hSides
    exact ⟨baseS, hBase, currentS, hCurrent, otherS, hOther, b, hb, c, hc, o, ho, (hLast hRange).mpr hRendered⟩

/-- The merged file carries the highest generation of the three over the current body. -/
def Merged (debug : String → String) (files : Files) (base current other : String) (files' : Files) : Prop :=
  ∃ currentS g merged, Sides debug files base current other currentS g ∧
    files' = Function.update files current (.text merged) ∧
    parseProjectionGeneration debug merged = .ok g ∧ projectionBody merged = projectionBody currentS

theorem runSql_other (h : logicalPath.bind fileName ≠ some "epochs.sql") :
    runSql debug supported base current other logicalPath files written = (.ok 0, files) := by
  rw [runSql, if_pos h]

theorem runSql_ok {code : Int} (hPath : logicalPath.bind fileName = some "epochs.sql")
    (h : runSql debug supported base current other logicalPath files written = (.ok code, files')) :
    Merged debug files base current other files' := by
  rw [runSql, if_neg (not_not.mpr hPath)] at h
  split at h
  · cases h
  · next rendered hRendered =>
    obtain ⟨currentS, g, hSides, -, rfl⟩ := renderMerged_eq_ok.mp hRendered
    cases written with
    | failed left => cases h
    | done =>
      cases h
      exact ⟨currentS, g, _, hSides, rfl, parseProjectionGeneration_headed debug hSides.inRange _,
        projectionBody_headed hSides.inRange _⟩

theorem runSql_error {e : DriverError}
    (h : runSql debug supported base current other logicalPath files written = (.error e, files'))
    (hWrite : e ≠ .write current) : files' = files := by
  unfold runSql at h
  split at h
  · cases h
  · split at h
    · cases h
      rfl
    · split at h
      · cases h
      · cases h
        exact absurd rfl hWrite

theorem runSql_of_supported {currentS : String} (hPath : logicalPath.bind fileName = some "epochs.sql")
    (hSides : Sides debug files base current other currentS g) (hSupported : g ≤ supported) :
    (runSql debug supported base current other logicalPath files .done).1 = .ok 0 := by
  have hRendered := renderMerged_eq_ok.mpr ⟨currentS, g, hSides, hSupported, rfl⟩
  rw [runSql, if_neg (not_not.mpr hPath), hRendered]

/-- A header is read back, replaced and skipped, and the merge of `epochs.sql` puts the highest one
on the current body. -/
theorem projection_generation_header (debug : String → String) (supported : Int) :
    (∀ content g h, InRange g → InRange h → ∃ headed,
      withProjectionGeneration content g = .ok headed ∧
      parseProjectionGeneration debug headed = .ok g ∧
      withProjectionGeneration headed h = withProjectionGeneration content h ∧
      ∀ table, (importTable table headed).toOption = (importTable table content).toOption) ∧
    ∀ base current other logicalPath files written,
      (logicalPath.bind fileName ≠ some "epochs.sql" →
        runSql debug supported base current other logicalPath files written = (.ok 0, files)) ∧
      (logicalPath.bind fileName = some "epochs.sql" → ∀ code files',
        runSql debug supported base current other logicalPath files written = (.ok code, files') →
        Merged debug files base current other files') ∧
      ∀ e files', runSql debug supported base current other logicalPath files written = (.error e, files') →
        e ≠ .write current → files' = files := by
  constructor
  · intro content g h hg hh
    refine ⟨_, withProjectionGeneration_eq hg content, parseProjectionGeneration_headed debug hg _, ?_,
      importTable_headed hg content⟩
    rw [withProjectionGeneration_eq hh, withProjectionGeneration_eq hh, projectionBody_headed hg]
  · intro base current other logicalPath files written
    exact ⟨runSql_other, fun hPath code files' h => runSql_ok hPath h, fun e files' h => runSql_error h⟩

/-- A merge whose other side needs generation five. -/
def filesWithNewerHeader : Files := fun path =>
  if path = "other" then .text "-- exo:minimum-writer-generation=5\n"
  else if path = "current" then .text "INSERT INTO epochs_data(text_id) VALUES('a');\n"
  else .missing

theorem newerHeader : "-- exo:minimum-writer-generation=5\n" = String.ofList (headed 5 []) := by
  have hFive : (toString (5 : Int)).toList = ['5'] := by decide
  rw [← String.toList_inj, String.toList_ofList, headed, headerChars, hFive]
  simp [projectionGenerationPrefix]

theorem newerHeader_generation :
    parseProjectionGeneration id "-- exo:minimum-writer-generation=5\n" = .ok 5 := by
  rw [newerHeader]
  exact parseProjectionGeneration_headed id ⟨by decide, by decide⟩ []

theorem currentRow_generation :
    parseProjectionGeneration id "INSERT INTO epochs_data(text_id) VALUES('a');\n" = .ok 0 := by
  simp [parseProjectionGeneration, Text.lines, Text.linesFrom, Text.endLine, Text.stripPrefix,
    projectionGenerationPrefix, Text.startsWith]

theorem filesWithNewerHeader_sides : Sides id filesWithNewerHeader "base" "current" "other"
    "INSERT INTO epochs_data(text_id) VALUES('a');\n" 5 where
  current := by simp [readToStringOrEmpty, filesWithNewerHeader]
  generations := by
    refine ⟨"", "-- exo:minimum-writer-generation=5\n", 0, 0, 5, ?_, ?_, ?_, currentRow_generation,
      newerHeader_generation, rfl⟩
    · simp [readToStringOrEmpty, filesWithNewerHeader]
    · simp [readToStringOrEmpty, filesWithNewerHeader]
    · simp [parseProjectionGeneration, Text.lines, Text.linesFrom]

/-- Another table's file keeps its generation, and a write that fails leaves the current file cut off. -/
theorem driver_keeps_and_cuts :
    (runSql id 5 "base" "current" "other" (some "tasks.sql") filesWithNewerHeader .done =
        (.ok 0, filesWithNewerHeader) ∧
      ¬ Merged id filesWithNewerHeader "base" "current" "other" filesWithNewerHeader) ∧
    ∃ e files', runSql id 5 "base" "current" "other" (some "epochs.sql") filesWithNewerHeader
        (.failed (.text "")) = (.error e, files') ∧
      files' "current" ≠ filesWithNewerHeader "current" := by
  have hCurrent : filesWithNewerHeader "current" =
      .text "INSERT INTO epochs_data(text_id) VALUES('a');\n" := by
    simp [filesWithNewerHeader]
  have hTasks : (some "tasks.sql").bind fileName = some "tasks.sql" := by
    simp [fileName, Text.split, Text.pieces]
  have hEpochs : (some "epochs.sql").bind fileName = some "epochs.sql" := by
    simp [fileName, Text.split, Text.pieces]
  have hRendered := renderMerged_eq_ok.mpr ⟨_, 5, filesWithNewerHeader_sides, le_refl 5, rfl⟩
  refine ⟨⟨runSql_other (by rw [hTasks]; simp), ?_⟩, ?_⟩
  · rintro ⟨currentS, g, merged, hSides, hFiles, hParse, -⟩
    obtain ⟨baseS, otherS, b, c, o, -, hOther, -, -, ho, rfl⟩ := hSides.generations
    have hMerged := congrFun hFiles "current"
    rw [Function.update_self, hCurrent] at hMerged
    cases hMerged
    have hOtherS : readToStringOrEmpty filesWithNewerHeader "other" =
        .ok "-- exo:minimum-writer-generation=5\n" := by
      simp [readToStringOrEmpty, filesWithNewerHeader]
    cases hOtherS.symm.trans hOther
    cases newerHeader_generation.symm.trans ho
    have hMax := Except.ok.inj (currentRow_generation.symm.trans hParse)
    omega
  · refine ⟨.write "current", Function.update filesWithNewerHeader "current" (.text ""), ?_, ?_⟩
    · rw [runSql, hEpochs, if_neg (not_not.mpr rfl), hRendered]
    · rw [Function.update_self, hCurrent]
      simp

end Exosuit.Projection
