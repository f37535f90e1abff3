import Exosuit.Hook.ConfigV3
import Exosuit.Lib.Path
import Exosuit.Lib.Shell
import Mathlib.Data.List.Forall2
import Mathlib.Data.List.TakeWhile

/-!
# File names in a command

The files of a check are rebased to its working directory and quoted for the shell. The quoting
carries every name; the rebasing trims the name and the directory.
-/

namespace Exosuit.Hook

open Lib

/-! ## Rebasing -/

def isSlash (c : Char) : Bool := c == '/'

def commonLength : List Path.Name → List Path.Name → Nat
  | a :: as, b :: bs => if a = b then commonLength as bs + 1 else 0
  | _, _ => 0

def trimPath (path : List Char) : List Char :=
  Text.trimList isSlash (Text.trimList Text.isWhitespace path)

def rebasePathForCwd (cwd path : String) : String :=
  let cwdParts := Path.components cwd.toList
  let pathParts := Path.components (trimPath path.toList)
  let common := commonLength cwdParts pathParts
  let out := List.replicate (cwdParts.length - common) Path.up ++ pathParts.drop common
  if out = [] then "." else String.ofList (Path.join out)

def rebaseFilesForCwd (files : List String) (cwd : Option String) : List String :=
  match cwd with
  | none => files
  | some cwd =>
    let cwd := trimPath cwd.toList
    if cwd = [] then files else files.map (rebasePathForCwd (String.ofList cwd))

/-! ## The command -/

def filesPlaceholder : String := "\x7b\x7bfiles\x7d\x7d"

def contains (s part : String) : Bool := s.toList.tails.any fun l => part.toList.isPrefixOf l

def replaceText (s from_ into_ : String) : String := into_.intercalate (Text.split from_ s)

/-- `posix_escape_if_needed` -/
def shellEscapeIfNeeded (s : String) : String :=
  if s = "" then "''"
  else if s.toList.all fun c => c.isAlphanum || c ∈ ['/', '.', '_', '-'] then s
  else "'" ++ replaceText s "'" "'\\''" ++ "'"

def substituteFiles (command : String) (files : List String) : String :=
  if contains command filesPlaceholder then
    replaceText command filesPlaceholder (" ".intercalate (files.map shellEscapeIfNeeded))
  else command

/-! ## The words of the files -/

/-- A file of the repository, by its names from the root on. -/
structure RepoPath where
  names : List Path.Name
  nonempty : names ≠ []
  entries : ∀ name ∈ names, Path.IsEntry name ∧ '\x00' ∉ name ∧ '\n' ∉ name

def RepoPath.path (f : RepoPath) : String := String.ofList (Path.join f.names)

/-- A name that is put into the command as it is. -/
def isSafe (name : List Char) : Bool := name.all fun c => c.isAlphanum || c ∈ ['/', '.', '_', '-']

/-- The word that the shell makes of a quoted name. -/
def fileWord (name : String) : List Shell.Letter :=
  name.toList.map fun c => ⟨c, !isSafe name.toList⟩

def workdir (cwd : Option String) : List Path.Name := (cwd.map fun c => Path.components c.toList).getD []

def commandPieces (command : String) : List (List Char) :=
  Text.pieces filesPlaceholder.toList 0 command.toList

/-- Each placeholder stands where a word may begin, and a delimiter or the end follows it. -/
def Unquoted (r : Shell.Reader) : List (List Char) → Prop
  | p :: q :: rest =>
    (r.read p).AtWord ∧ Shell.delimited q = true ∧ (q = [] → rest = []) ∧
      Unquoted ((r.read p).put [Shell.bareWord filesPlaceholder.toList]) (q :: rest)
  | _ => True

/-- The command read with these words in the place of each placeholder. -/
def readWith (words : List (List Shell.Letter)) (r : Shell.Reader) : List (List Char) → Shell.Reader
  | p :: q :: rest => readWith words ((r.read p).put words) (q :: rest)
  | [p] => r.read p
  | [] => r

/-- The shell reads one literal word a file in the place of each placeholder, which denotes it. -/
def FileNamesIntact (command : String) (cwd : Option String) (files : List RepoPath) : Prop :=
  ∃ words, List.Forall₂ (fun w (f : RepoPath) => Shell.Literal w ∧
      Path.resolve (workdir cwd) (Shell.text w) = some f.names) words files ∧
    (Shell.start.read
      (substituteFiles command (rebaseFilesForCwd (files.map RepoPath.path) cwd)).toList).finish =
      (readWith words Shell.start (commandPieces command)).finish

/-! ## When it holds -/

/-- The names that the file shares with the working directory are the same before the trimming,
and the trimming leaves the others as they are. -/
def KeepsName (cwd : Option String) (f : RepoPath) : Prop :=
  match cwd with
  | none => True
  | some cwd =>
    let dir := Path.components (trimPath cwd.toList)
    let path := Path.components (trimPath f.path.toList)
    let apart := dir.length - commonLength dir path
    trimPath cwd.toList ≠ [] ∧ apart ≤ (workdir cwd).length ∧
      (workdir cwd).take ((workdir cwd).length - apart) ++ path.drop (commonLength dir path) = f.names

instance (cwd : Option String) (f : RepoPath) : Decidable (KeepsName cwd f) :=
  match cwd with
  | none => inferInstanceAs (Decidable True)
  | some _ => inferInstanceAs (Decidable (_ ∧ _ ∧ _))

def WordsStay (words : List (List Shell.Letter)) (r : Shell.Reader) : List (List Char) → Prop
  | p :: q :: rest =>
    Shell.StayWords (r.read p).first words q.head? ∧ WordsStay words ((r.read p).put words) (q :: rest)
  | _ => True

/-! ## The quoting -/

theorem special_of_not_ordinary {c : Char} (h : Shell.isOrdinary c = false) : c ∈ Shell.specialChars := by
  have hEscaped : ∀ c ∈ ['\\', '\x27', '"', '#'], c ∈ Shell.specialChars := by simp [Shell.specialChars]
  have hOperator : ∀ c ∈ [';', '&', '|', '(', ')', '<', '>', '\n'], c ∈ Shell.specialChars := by
    simp [Shell.specialChars]
  rw [Shell.isOrdinary, Bool.and_eq_false_iff, decide_eq_false_iff_not, not_not, Bool.not_eq_false',
    Shell.isDelimiter, Bool.or_eq_true, Bool.or_eq_true, beq_iff_eq, beq_iff_eq, Shell.isOperator,
    decide_eq_true_eq] at h
  rcases h with hIn | (rfl | rfl) | hIn
  · exact hEscaped c hIn
  · decide
  · decide
  · exact hOperator c hIn

theorem not_special_of_isSafe {name : List Char} (h : isSafe name = true) :
    ∀ c ∈ name, c ∉ Shell.specialChars := by
  intro c hc hSpecial
  have hNone : (Shell.specialChars.any fun c => c.isAlphanum || c ∈ ['/', '.', '_', '-']) = false := by decide
  exact List.any_eq_false.mp hNone c hSpecial (List.all_eq_true.mp h c hc)

theorem toList_replaceApostrophe (name : String) :
    (replaceText name "'" "'\\''").toList = name.toList.flatMap Shell.escape := by
  have hApostrophe : "'".toList = ['\x27'] := by simp
  have hInto : "'\\''".toList = ['\x27', '\\', '\x27', '\x27'] := by simp
  have hPieces : (Text.split "'" name).map String.toList = Text.pieces ['\x27'] 0 name.toList := by
    rw [Text.split, hApostrophe, List.map_map]
    exact List.map_id'' (fun _ => String.toList_ofList) _
  rw [replaceText, String.toList_intercalate, hPieces, hInto, Text.intercalate_pieces]
  rfl

theorem reads_fileWord (name : String) :
    Shell.Reader.Reads (shellEscapeIfNeeded name).toList (fileWord name) := by
  have hApostrophe : "'".toList = ['\x27'] := by simp
  unfold shellEscapeIfNeeded
  split
  · next h =>
    have hText : "''".toList = Shell.quote [] := by simp [Shell.quote]
    subst h
    rw [hText]
    exact Shell.reads_quote []
  · next hNonempty =>
    split
    · next hSafe =>
      have hWord : fileWord name = Shell.bareWord name.toList := by
        rw [fileWord, show isSafe name.toList = true from hSafe]
        rfl
      rw [hWord]
      refine Shell.reads_bare (fun h => hNonempty (String.toList_eq_nil_iff.mp h)) (List.all_eq_true.mpr ?_)
      intro c hc
      by_contra hOrdinary
      exact not_special_of_isSafe hSafe c hc (special_of_not_ordinary (Bool.eq_false_iff.mpr hOrdinary))
    · next hSafe =>
      have hWord : fileWord name = Shell.quotedWord name.toList := by
        rw [fileWord, show isSafe name.toList = false from Bool.eq_false_iff.mpr hSafe]
        rfl
      rw [hWord, String.toList_append, String.toList_append, toList_replaceApostrophe, hApostrophe]
      exact Shell.reads_quote _

theorem text_fileWord (name : String) : Shell.text (fileWord name) = name.toList := by
  rw [Shell.text, fileWord, List.map_map]
  exact List.map_id _

theorem literal_fileWord (name : String) : Shell.Literal (fileWord name) := by
  cases hSafe : isSafe name.toList with
  | true =>
    have hWord : fileWord name = Shell.bareWord name.toList := by rw [fileWord, hSafe]; rfl
    rw [hWord]
    exact Shell.literal_bareWord (not_special_of_isSafe hSafe)
  | false =>
    have hWord : fileWord name = Shell.quotedWord name.toList := by rw [fileWord, hSafe]; rfl
    rw [hWord]
    exact Shell.literal_quotedWord _

/-! ## The command -/

theorem toList_substituteFiles {command : String} (h : 2 ≤ (commandPieces command).length)
    (files : List String) : (substituteFiles command files).toList =
      List.intercalate (List.intercalate [' '] (files.map fun f => (shellEscapeIfNeeded f).toList))
        (commandPieces command) := by
  have hContains : contains command filesPlaceholder = true := by
    by_contra hNone
    rw [commandPieces, Text.pieces_of_no_infix (Bool.eq_false_iff.mpr hNone), List.length_singleton] at h
    omega
  have hPieces : (Text.split filesPlaceholder command).map String.toList = commandPieces command := by
    rw [Text.split, commandPieces, List.map_map]
    exact List.map_id'' (fun _ => String.toList_ofList) _
  have hBlank : " ".toList = [' '] := by simp
  rw [substituteFiles, if_pos hContains, replaceText, String.toList_intercalate, hPieces,
    String.toList_intercalate, hBlank, List.map_map]
  rfl

variable {r r' : Shell.Reader} {pieces : List (List Char)} {words words' : List (List Shell.Letter)}

theorem Unquoted.alike (hAlike : r.Alike r') (h : Unquoted r pieces) : Unquoted r' pieces := by
  fun_induction Unquoted r pieces generalizing r' with
  | case1 r p q rest ih =>
    obtain ⟨hWord, hNext, hLast, hRest⟩ := h
    have hRead := hAlike.read p
    exact ⟨hRead.atWord hWord, hNext, hLast, ih ⟨hRead.1, hRead.2⟩ hRest⟩
  | case2 r pieces hNot =>
    rw [Unquoted.eq_def]
    split
    · next p q rest => exact absurd rfl (hNot p q rest)
    · trivial

theorem readWith_tokens (words : List (List Shell.Letter)) (r : Shell.Reader) (pieces : List (List Char)) :
    ∃ more, (readWith words r pieces).tokens = r.tokens ++ more := by
  fun_induction readWith words r pieces with
  | case1 r p q rest ih =>
    obtain ⟨more, hRead⟩ := r.read_tokens p
    obtain ⟨more', hRest⟩ := ih
    refine ⟨more ++ (words.map .word ++ more'), ?_⟩
    rw [hRest, Shell.Reader.put, hRead, List.append_assoc, List.append_assoc]
  | case2 r p => exact r.read_tokens p
  | case3 r => exact ⟨[], (List.append_nil _).symm⟩

theorem finish_read_iff {texts : List (List Char)} (hTexts : List.Forall₂ Shell.Reader.Reads texts words)
    (hLength : words'.length = words.length) (hUnquoted : Unquoted r pieces) :
    (r.read (List.intercalate (List.intercalate [' '] texts) pieces)).finish =
        (readWith words' r pieces).finish ↔
      (2 ≤ pieces.length → words' = words) ∧ WordsStay words r pieces := by
  fun_induction WordsStay words r pieces with
  | case1 r p q rest ih =>
    obtain ⟨hWord, hNext, hLast, hRest⟩ := hUnquoted
    have hHead : (List.intercalate (List.intercalate [' '] texts) (q :: rest)).head? = q.head? := by
      rw [Text.intercalate_cons]
      cases q with
      | nil => rw [hLast rfl, if_pos rfl, List.append_nil]
      | cons c q => rfl
    have hDelimited : Shell.delimited (List.intercalate (List.intercalate [' '] texts) (q :: rest)) = true := by
      rw [Shell.delimited, hHead]
      exact hNext
    have hRead : (r.read (List.intercalate (List.intercalate [' '] texts) (p :: q :: rest))).finish =
        (((r.read p).take q.head? words).read
          (List.intercalate (List.intercalate [' '] texts) (q :: rest))).finish := by
      rw [Text.intercalate_cons, if_neg (List.cons_ne_nil _ _), Shell.Reader.read_append,
        Shell.Reader.read_append, Shell.Reader.read_list hTexts hWord hDelimited, hHead]
    have hAlike : ((r.read p).put [Shell.bareWord filesPlaceholder.toList]).Alike ((r.read p).put words) :=
      ⟨rfl, rfl⟩
    have hTail := ih (hRest.alike hAlike)
    rw [hRead, readWith]
    constructor
    · intro hFinish
      obtain ⟨tokens, hTokens, hCount, hWords⟩ := (r.read p).take_tokens q.head? words
      have hSame : tokens = words'.map .word := by
        have hAll := congrArg Shell.Reader.tokens hFinish
        obtain ⟨a, ha⟩ := ((r.read p).take q.head? words).read_tokens
          (List.intercalate (List.intercalate [' '] texts) (q :: rest))
        obtain ⟨b, hb⟩ := (((r.read p).take q.head? words).read
          (List.intercalate (List.intercalate [' '] texts) (q :: rest))).finish_tokens
        obtain ⟨c, hc⟩ := readWith_tokens words' ((r.read p).put words') (q :: rest)
        obtain ⟨d, hd⟩ := (readWith words' ((r.read p).put words') (q :: rest)).finish_tokens
        rw [hb, ha, hTokens, hd, hc, Shell.Reader.put, List.append_assoc, List.append_assoc, List.append_assoc,
          List.append_assoc] at hAll
        refine List.append_inj_left (List.append_cancel_left hAll) ?_
        rw [hCount, List.length_map, hLength]
      obtain ⟨rfl, hStay⟩ := (hWords words').mp hSame
      rw [Shell.Reader.take_eq_put hWord.2 hStay] at hFinish
      exact ⟨fun _ => rfl, hStay, (hTail.mp hFinish).2⟩
    · rintro ⟨hWords, hStay, hRestStay⟩
      obtain rfl := hWords (by simp)
      rw [Shell.Reader.take_eq_put hWord.2 hStay]
      exact hTail.mpr ⟨fun _ => rfl, hRestStay⟩
  | case2 pieces r hNot =>
    refine iff_of_true ?_ ⟨fun h => ?_, trivial⟩
    · rcases pieces with _ | ⟨p, _ | ⟨q, rest⟩⟩
      · rfl
      · rw [List.intercalate_singleton, readWith]
      · exact absurd rfl (hNot p q rest)
    · rcases pieces with _ | ⟨p, _ | ⟨q, rest⟩⟩
      · exact absurd h (by decide)
      · exact absurd h (by simp)
      · exact absurd rfl (hNot p q rest)

/-! ## The names -/

/-- A file's name as the command gets it. -/
def rebasedName (cwd : Option String) (path : String) : String :=
  match cwd with
  | none => path
  | some cwd =>
    if trimPath cwd.toList = [] then path else rebasePathForCwd (String.ofList (trimPath cwd.toList)) path

theorem rebaseFilesForCwd_eq (files : List String) (cwd : Option String) :
    rebaseFilesForCwd files cwd = files.map (rebasedName cwd) := by
  cases cwd with
  | none => exact (List.map_id _).symm
  | some cwd =>
    rw [rebaseFilesForCwd]
    split
    · next h =>
      refine (List.map_id'' (fun path => ?_) files).symm
      rw [rebasedName, if_pos h]
    · next h =>
      refine List.map_congr_left fun path _ => ?_
      rw [rebasedName, if_neg h]

theorem isWhitespace_slash : Text.isWhitespace '/' = false := by decide

theorem isWhitespace_dot : Text.isWhitespace '.' = false := by decide

theorem components_trimPath (l : List Char) : Path.components (trimPath l) =
    (Path.trimEnds Text.isWhitespace (Text.pieces Path.separator 0 l)).filter Path.significant := by
  have hTrim := Path.components_trimList isWhitespace_slash (Text.pieces_ne_nil Path.separator 0 l)
    (Path.pieces_free l)
  rw [Path.join_pieces] at hTrim
  exact (Path.components_trim _).trans hTrim

namespace RepoPath

variable {f : RepoPath}

theorem free (f : RepoPath) : ∀ name ∈ f.names, '/' ∉ name := fun name h => (f.entries name h).1.2.2.2

theorem toList_path (f : RepoPath) : f.path.toList = Path.join f.names := String.toList_ofList

theorem pieces_path (f : RepoPath) : Text.pieces Path.separator 0 f.path.toList = f.names := by
  rw [toList_path, Path.pieces_join f.nonempty f.free]

theorem components_path (f : RepoPath) : Path.components f.path.toList = f.names := by
  rw [Path.components, pieces_path]
  exact List.filter_eq_self.mpr fun name h => (f.entries name h).1.significant

theorem resolve_path (f : RepoPath) (dir : List Path.Name) :
    Path.resolve dir f.path.toList = some (dir ++ f.names) := by
  obtain ⟨first, rest, hNames⟩ := List.exists_cons_of_ne_nil f.nonempty
  have hFirst := f.entries first (hNames ▸ List.mem_cons_self)
  have hHead : f.path.toList.head? ≠ some '/' := by
    rw [toList_path, hNames, Path.head?_join hFirst.1.1]
    exact fun h => hFirst.1.2.2.2 (List.mem_of_head? h)
  rw [Path.resolve, if_neg hHead, components_path]
  exact Path.follow_entries fun name h => (f.entries name h).1.2.2.1

end RepoPath

theorem follow_trimmed_ne {f : RepoPath} {cwd : List Char} {apart common : Nat} {q : List Path.Name}
    (hApart : (Path.components (trimPath cwd)).length = apart + common)
    (hLe : apart ≤ (Path.components cwd).length)
    (hCommon : common ≤ (Path.components (trimPath f.path.toList)).length)
    (hQ : (Path.components (trimPath f.path.toList)).drop common = q) (hUp : Path.up ∈ q) :
    Path.follow ((Path.components cwd).take ((Path.components cwd).length - apart)) q ≠ some f.names := by
  intro hFollow
  have hCount : 1 ≤ q.count Path.up := List.count_pos_iff.mpr hUp
  have hLength := Path.follow_length hFollow
  have hQLength : q.length = (Path.components (trimPath f.path.toList)).length - common := by
    rw [← hQ, List.length_drop]
  have hShort : (Path.components (trimPath f.path.toList)).length ≤ f.names.length := by
    rw [components_trimPath, f.pieces_path]
    exact (List.length_filter_le _ _).trans (Path.length_trimEnds f.names).le
  obtain ⟨hLost, hBoth⟩ := Path.length_le_trimEnds (p := Text.isWhitespace) (Text.pieces Path.separator 0 cwd)
  rw [← components_trimPath] at hLost hBoth
  change (Path.components cwd).length ≤ _ at hLost
  rw [List.length_take] at hLength
  -- the walk is as long as the name only when both ends of the directory are lost, and none of the name's
  have hTwo : (Path.components cwd).length = (Path.components (trimPath cwd)).length + 2 := by
    omega
  have hOnce : q.count Path.up < ((Path.components cwd).take ((Path.components cwd).length - apart)).length := by
    rw [List.length_take]
    omega
  obtain ⟨first, hFirst, hGone⟩ := hBoth hTwo
  have hHead := Path.follow_head hFollow hOnce
  rw [List.head?_take, if_neg (by omega)] at hHead
  have hLess := Path.length_trimEnds_lt isWhitespace_dot (hHead.trans hFirst) hGone
  rw [← f.pieces_path, ← components_trimPath, f.pieces_path] at hLess
  omega

theorem commonLength_le (as bs : List Path.Name) :
    commonLength as bs ≤ as.length ∧ commonLength as bs ≤ bs.length := by
  fun_induction commonLength as bs with
  | case1 a as bs ih => exact ⟨Nat.succ_le_succ ih.1, Nat.succ_le_succ ih.2⟩
  | case2 a as b bs h => exact ⟨Nat.zero_le _, Nat.zero_le _⟩
  | case3 as bs h => exact ⟨Nat.zero_le _, Nat.zero_le _⟩

theorem components_rebased {out : List Path.Name} (h : ∀ name ∈ out, '/' ∉ name ∧ Path.significant name = true) :
    ∀ path, path = (if out = [] then "." else String.ofList (Path.join out)) →
      path.toList.head? ≠ some '/' ∧ Path.components path.toList = out := by
  rintro _ rfl
  cases out with
  | nil =>
    rw [if_pos rfl]
    exact ⟨by simp, by simp [Path.components, Text.pieces, Path.separator, Path.significant, Path.here]⟩
  | cons first rest =>
    rw [if_neg (List.cons_ne_nil _ _), String.toList_ofList]
    have hFirst := h first List.mem_cons_self
    have hNonempty : first ≠ [] := by
      rintro rfl
      exact absurd hFirst.2 (by decide)
    refine ⟨?_, Path.components_join (List.cons_ne_nil _ _) (fun name hName => (h name hName).1)
      fun name hName => (h name hName).2⟩
    rw [Path.head?_join hNonempty]
    exact fun hHead => hFirst.1 (List.mem_of_head? hHead)

theorem mem_trimList {c : Char} {l : List Char} (hc : Text.isWhitespace c = false) :
    c ∈ Text.trimList Text.isWhitespace (c :: l) := by
  rw [Text.trimList, List.dropWhile_cons_of_neg (by rw [hc]; exact Bool.false_ne_true), List.mem_reverse, List.reverse_cons,
    List.dropWhile_append]
  split
  · rw [List.dropWhile_cons_of_neg (by rw [hc]; exact Bool.false_ne_true)]
    exact List.mem_singleton_self c
  · exact List.mem_append_right _ (List.mem_singleton_self c)

theorem all_of_trimList_eq_nil {p : Char → Bool} {l : List Char} (h : Text.trimList p l = []) :
    ∀ c ∈ l, p c = true := by
  rw [Text.trimList, List.reverse_eq_nil_iff, List.dropWhile_eq_nil_iff] at h
  have hNone : l.dropWhile p = [] := by
    by_contra hSome
    have hHead := List.head_dropWhile_not p hSome
    rw [h _ (List.mem_reverse.mpr (List.head_mem hSome))] at hHead
    cases hHead
  exact List.dropWhile_eq_nil_iff.mp hNone

/-- A directory that is made of whitespace and slashes is not the root. -/
theorem components_ne_nil {cwd : String} {context : String} (hCwd : CheckV3.validateCwd context cwd = .ok ())
    (hTrim : trimPath cwd.toList = []) : Path.components cwd.toList ≠ [] := by
  obtain ⟨hNonempty, hRelative, -⟩ := CheckV3.validateCwd_eq_ok.mp hCwd
  have hSlash : "/".toList = ['/'] := by simp
  rw [Text.startsWith, hSlash] at hRelative
  cases hText : cwd.toList with
  | nil =>
    rw [Text.trim, hText] at hNonempty
    exact absurd rfl hNonempty
  | cons c l =>
    rw [hText] at hTrim hRelative
    have hc : c ≠ '/' := by
      rintro rfl
      simp [List.isPrefixOf] at hRelative
    have hBlank : Text.isWhitespace c = true := by
      by_contra hNot
      have hMem := mem_trimList (l := l) (Bool.eq_false_iff.mpr hNot)
      exact hc (eq_of_beq (all_of_trimList_eq_nil hTrim c hMem))
    obtain ⟨name, rest, hPieces⟩ := List.exists_cons_of_ne_nil (Text.pieces_ne_nil Path.separator 0 l)
    have hFirst : Path.significant (c :: name) = true := by
      rw [Path.significant, Bool.and_eq_true, bne_iff_ne, bne_iff_ne]
      refine ⟨List.cons_ne_nil _ _, ?_⟩
      rintro ⟨⟩
      exact absurd hBlank (by decide)
    rw [Path.components, Path.pieces_cons, if_neg hc, hPieces, List.modifyHead_cons, List.filter_cons,
      if_pos hFirst]
    exact List.cons_ne_nil _ _

/-! ## What the names denote -/

theorem significant_up : Path.significant Path.up = true := by decide

theorem resolve_rebasedName {cwd : Option String} {context : String}
    (hCwd : ∀ c ∈ cwd, CheckV3.validateCwd context c = .ok ()) (f : RepoPath) :
    Path.resolve (workdir cwd) (rebasedName cwd f.path).toList = some f.names ↔ KeepsName cwd f := by
  cases cwd with
  | none => exact iff_of_true (f.resolve_path []) trivial
  | some cwd =>
    have hDir : workdir (some cwd) = Path.components cwd.toList := rfl
    rw [KeepsName, rebasedName, hDir]
    by_cases hTrim : trimPath cwd.toList = []
    · rw [if_pos hTrim, f.resolve_path, Option.some_inj, List.append_left_eq_self]
      exact iff_of_false (components_ne_nil (hCwd cwd rfl) hTrim) fun h => h.1 hTrim
    · rw [if_neg hTrim, and_iff_right hTrim]
      set dir := Path.components (trimPath cwd.toList) with hDirEq
      set path := Path.components (trimPath f.path.toList) with hPathEq
      obtain ⟨hLeDir, hLePath⟩ := commonLength_le dir path
      have hOut : ∀ name ∈ List.replicate (dir.length - commonLength dir path) Path.up ++
          path.drop (commonLength dir path), '/' ∉ name ∧ Path.significant name = true := by
        intro name hName
        rw [List.mem_append, List.mem_replicate] at hName
        rcases hName with ⟨-, rfl⟩ | hName
        · exact ⟨by decide, significant_up⟩
        · have hMem := List.mem_of_mem_drop hName
          rw [hPathEq, Path.components, List.mem_filter] at hMem
          exact ⟨Path.pieces_free _ name hMem.1, hMem.2⟩
      obtain ⟨hHead, hComponents⟩ := components_rebased hOut _ rfl
      have hText : rebasePathForCwd (String.ofList (trimPath cwd.toList)) f.path =
          if List.replicate (dir.length - commonLength dir path) Path.up ++ path.drop (commonLength dir path) = []
          then "." else String.ofList (Path.join (List.replicate (dir.length - commonLength dir path) Path.up ++
            path.drop (commonLength dir path))) := by
        rw [rebasePathForCwd, String.toList_ofList]
      rw [hText, Path.resolve, if_neg hHead, hComponents]
      rcases Nat.lt_or_ge (Path.components cwd.toList).length (dir.length - commonLength dir path) with hMore | hLe
      · rw [Path.follow_none_of_ups _ hMore]
        exact iff_of_false (by rintro ⟨⟩) fun h => absurd h.1 (Nat.not_le.mpr hMore)
      · rw [and_iff_right hLe, Path.follow_append, Path.follow_ups _ hLe, Option.bind_some]
        by_cases hUp : Path.up ∈ path.drop (commonLength dir path)
        · refine iff_of_false (follow_trimmed_ne (Nat.sub_add_cancel hLeDir).symm hLe hLePath rfl hUp) fun h => ?_
          have hMem : Path.up ∈ f.names := h ▸ List.mem_append_right _ hUp
          exact (f.entries _ hMem).1.2.2.1 rfl
        · rw [Path.follow_entries (fun name hName hEq => hUp (hEq ▸ hName)), Option.some_inj]

theorem take_commonLength (as bs : List Path.Name) :
    as.take (commonLength as bs) = bs.take (commonLength as bs) := by
  fun_induction commonLength as bs with
  | case1 a as bs ih => rw [List.take_succ_cons, List.take_succ_cons, ih]
  | case2 a as b bs h => rfl
  | case3 as bs h => rfl

theorem keepsName_of_untrimmed {cwd : String} {f : RepoPath} (hTrim : trimPath cwd.toList ≠ [])
    (hCwd : Text.trimList Text.isWhitespace cwd.toList = cwd.toList)
    (hName : Text.trimList Text.isWhitespace f.path.toList = f.path.toList) : KeepsName (some cwd) f := by
  have hDir : Path.components (trimPath cwd.toList) = Path.components cwd.toList := by
    rw [trimPath, hCwd]
    exact Path.components_trim _
  have hPath : Path.components (trimPath f.path.toList) = f.names := by
    rw [trimPath, hName]
    exact (Path.components_trim _).trans f.components_path
  have hWork : workdir (some cwd) = Path.components cwd.toList := rfl
  have hLe := (commonLength_le (Path.components cwd.toList) f.names).1
  rw [KeepsName, hDir, hPath, hWork]
  refine ⟨hTrim, Nat.sub_le _ _, ?_⟩
  rw [Nat.sub_sub_self hLe, take_commonLength, List.take_append_drop]

/-! ## File names reach the command intact -/

theorem toList_substituteFiles_rebased {command : String} {files : List String} {cwd : Option String}
    (h : 2 ≤ (commandPieces command).length) :
    (substituteFiles command (rebaseFilesForCwd files cwd)).toList =
      List.intercalate (List.intercalate [' ']
        (files.map fun f => (shellEscapeIfNeeded (rebasedName cwd f)).toList)) (commandPieces command) := by
  rw [toList_substituteFiles h, rebaseFilesForCwd_eq, List.map_map]
  rfl

section Command

variable {check : CheckV3} {context command : String} {files : List RepoPath}

theorem reads_names (cwd : Option String) (files : List RepoPath) : List.Forall₂ Shell.Reader.Reads
    ((files.map RepoPath.path).map fun f => (shellEscapeIfNeeded (rebasedName cwd f)).toList)
    (files.map fun f => fileWord (rebasedName cwd f.path)) := by
  rw [List.map_map, List.forall₂_map_left_iff, List.forall₂_map_right_iff]
  exact List.forall₂_same.mpr fun f _ => reads_fileWord _

theorem keepsName_of_intact (hCheck : check.validate context = .ok ())
    (hPlaceholder : 2 ≤ (commandPieces command).length)
    (hUnquoted : Unquoted Shell.start (commandPieces command)) (h : FileNamesIntact command check.cwd files) :
    (∀ f ∈ files, KeepsName check.cwd f) ∧
      WordsStay (files.map fun f => fileWord (rebasedName check.cwd f.path)) Shell.start
        (commandPieces command) := by
  obtain ⟨words, hWords, hFinish⟩ := h
  have hLength : words.length = (files.map fun f => fileWord (rebasedName check.cwd f.path)).length := by
    rw [hWords.length_eq, List.length_map]
  rw [toList_substituteFiles_rebased hPlaceholder] at hFinish
  obtain ⟨hSame, hStay⟩ := (finish_read_iff (reads_names check.cwd files) hLength hUnquoted).mp hFinish
  obtain rfl := hSame hPlaceholder
  refine ⟨fun f hf => ?_, hStay⟩
  rw [List.forall₂_map_left_iff] at hWords
  have hDenotes := (List.forall₂_same.mp hWords f hf).2
  rw [text_fileWord] at hDenotes
  exact (resolve_rebasedName (fun c hc => CheckV3.validateCwd_of_validate hCheck hc) f).mp hDenotes

end Command

/-! ### Two checks -/

def lintIn (cwd : String) : CheckV3 :=
  ⟨none, some cwd, some "lint \x7b\x7bfiles\x7d\x7d", none, [], .observe, none, none, none⟩

def lintCommand : String := "lint \x7b\x7bfiles\x7d\x7d"

theorem pieces_lintCommand : commandPieces lintCommand = [['l', 'i', 'n', 't', ' '], []] := by decide +kernel

theorem lintCommand_unquoted : Unquoted Shell.start (commandPieces lintCommand) := by
  rw [pieces_lintCommand]
  exact ⟨by decide +kernel, rfl, fun _ => rfl, trivial⟩

/-- `pkg/a b` and `c'd` -/
def quotedFiles : List RepoPath :=
  [⟨[['p', 'k', 'g'], ['a', ' ', 'b']], List.cons_ne_nil _ _, by decide⟩,
    ⟨[['c', '\x27', 'd']], List.cons_ne_nil _ _, by decide⟩]

/-- ` a` -/
def paddedFile : RepoPath := ⟨[[' ', 'a']], List.cons_ne_nil _ _, by decide⟩

end Exosuit.Hook
