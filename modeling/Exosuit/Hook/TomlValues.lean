import Exosuit.Lib.Toml

/-!
# Values from text

A string is spliced into a quoted text and read by the reader of TOML values, which is a parameter.
-/

namespace Exosuit.Hook

open Lib Lib.Toml

def replaceChar (c : Char) (by_ : List Char) (l : List Char) : List Char :=
  l.flatMap fun d => if d = c then by_ else [d]

def escapeTomlString (s : String) : String :=
  String.ofList (replaceChar '"' ['\\', '"'] (replaceChar '\\' ['\\', '\\'] s.toList))

def valueFromToml (parse : String → Option Value) (s : String) : Except String Item :=
  match parse s with
  | some v => .ok (.value v)
  | none => .error ("invalid TOML value: " ++ s)

/-- A backslash before each quote and each backslash. -/
def escapeTomlChar (c : Char) : List Char := if c = '"' ∨ c = '\\' then ['\\', c] else [c]

theorem toList_escapeTomlString (s : String) :
    (escapeTomlString s).toList = s.toList.flatMap escapeTomlChar := by
  rw [escapeTomlString, String.toList_ofList, replaceChar, replaceChar, List.flatMap_assoc]
  refine List.flatMap_congr fun c _ => ?_
  unfold escapeTomlChar
  by_cases hBackslash : c = '\\'
  · subst hBackslash
    rfl
  by_cases hQuote : c = '"'
  · subst hQuote
    rfl
  · simp [hBackslash, hQuote]

theorem basicBody_escape {cs : List Char} (h : ∀ c ∈ cs, isControl c = false) :
    BasicBody (cs.flatMap escapeTomlChar) cs := by
  induction cs with
  | nil => exact .nil
  | cons c cs ih =>
    rw [List.forall_mem_cons] at h
    rw [List.flatMap_cons, escapeTomlChar]
    split
    · next hEscape => exact .escaped hEscape (ih h.2)
    · next hEscape =>
      rw [not_or] at hEscape
      exact .plain hEscape.1 hEscape.2 h.1 (ih h.2)

theorem valueFromToml_quoted {parse : String → Option Value} (hParse : ReadsSpliced parse) (s : String) :
    valueFromToml parse ("\"" ++ escapeTomlString s ++ "\"") = .ok (.value (.string s)) ∨
      ∃ e, valueFromToml parse ("\"" ++ escapeTomlString s ++ "\"") = .error e := by
  by_cases h : ∀ c ∈ s.toList, isControl c = false
  · have hText : "\"" ++ escapeTomlString s ++ "\"" =
        String.ofList (quoted (s.toList.flatMap escapeTomlChar)) := by
      rw [← String.toList_inj, String.toList_append, String.toList_append, toList_escapeTomlString,
        String.toList_ofList, String.toList_ofList]
      rfl
    left
    rw [valueFromToml, hText, hParse.basic (basicBody_escape h), String.ofList_toList]
  · simp only [not_forall, Bool.not_eq_false] at h
    obtain ⟨c, hc, hControl⟩ := h
    have hFind : (s.toList.find? isControl).isSome := List.find?_isSome.mpr ⟨c, hc, hControl⟩
    obtain ⟨d, hd⟩ := Option.isSome_iff_exists.mp hFind
    obtain ⟨hControl, front, back, hText, hFront⟩ := List.find?_eq_some_iff_append.mp hd
    have hPlain : escapeTomlChar d = [d] := by
      rw [escapeTomlChar, if_neg]
      rintro (rfl | rfl) <;> exact absurd hControl (by decide)
    have hSpliced : "\"" ++ escapeTomlString s ++ "\"" = String.ofList ('"' ::
        (front.flatMap escapeTomlChar ++ d :: (back.flatMap escapeTomlChar ++ ['"']))) := by
      rw [← String.toList_inj, String.toList_append, String.toList_append, toList_escapeTomlString,
        String.toList_ofList, String.toList_ofList, hText, List.flatMap_append, List.flatMap_cons, hPlain]
      simp
    right
    refine ⟨"invalid TOML value: " ++ ("\"" ++ escapeTomlString s ++ "\""), ?_⟩
    have hBody := basicBody_escape fun c hc => by simpa using hFront c hc
    rw [valueFromToml, hSpliced, hParse.control _ hBody hControl]

end Exosuit.Hook
