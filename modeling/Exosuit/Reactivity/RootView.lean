import Exosuit.Reactivity.Roots

/-!
# Reading through the roots

A read changes no more than times of last use, so what it answers depends on the
roots and on the revisions alone. The answer is monotone: with fewer revisions
it is the same or none.
-/

namespace Exosuit.Roots

open Lib Reactivity

variable {V : Type}

/-! ## Answers -/

def peekEntries (answer : CellId → Option (Option Revision)) : List TraceEntry → Option Bool
  | [] => some true
  | entry :: entries =>
    match answer entry.cellId with
    | some (some revision) =>
      if revision = entry.revision then peekEntries answer entries else some false
    | some none => some false
    | none => none

/-- What a read of the cell answers. -/
def peek (roots : Table String (Root V)) (view : CellId → Option Revision) :
    Nat → CellId → Option (Option Revision)
  | 0, _ => none
  | depth + 1, cellId =>
    match if cellId.pointer = "" then roots.lookup cellId.sourceId else none with
    | some root =>
      match peekEntries (peek roots view depth) root.trace.entries with
      | some true => some (view cellId)
      | some false => some none
      | none => none
    | none => some (view cellId)

namespace Engine

variable {e e' : Engine V} {depth : Nat} {cellId : CellId}

theorem Used.roots_eq (h : e.Used e') : e'.roots = e.roots := by
  obtain ⟨-, _, rfl⟩ := h
  rfl

theorem validate_map_fst {read : CellId → Engine V → Option (Option Revision × Engine V)}
    {answer : CellId → Option (Option Revision)}
    (hUsed : ∀ cellId e r, read cellId e = some r → e.Used r.2)
    (hAnswer : ∀ cellId e', e.Used e' → (read cellId e').map Prod.fst = answer cellId)
    (entries : List TraceEntry) (h : e.Used e') :
    (validate read entries e').map Prod.fst = peekEntries answer entries := by
  induction entries generalizing e' with
  | nil => rfl
  | cons entry entries ih =>
    have hEntry := hAnswer entry.cellId e' h
    rw [validate, peekEntries, ← hEntry]
    rcases hRead : read entry.cellId e' with _ | ⟨_ | revision, e₁⟩
    · rfl
    · rfl
    · dsimp only [Option.map_some]
      split
      · exact ih (h.trans (hUsed _ _ _ hRead))
      · rfl

theorem getRevision_map_fst (depth : Nat) (cellId : CellId) (e : Engine V) :
    (getRevision depth cellId e).map Prod.fst = peek e.roots e.getRevisionSnapshot depth cellId := by
  induction depth generalizing cellId e with
  | zero => rfl
  | succ depth ih =>
    rw [getRevision, peek]
    cases hRoot : if cellId.pointer = "" then e.roots.lookup cellId.sourceId else none with
    | none => rfl
    | some root =>
      have hEntries : (validate (getRevision depth) root.trace.entries e).map Prod.fst =
          peekEntries (peek e.roots e.getRevisionSnapshot depth) root.trace.entries := by
        refine validate_map_fst (fun _ _ _ => used_getRevision) (fun cellId e' hUsed => ?_) _
          (.refl e)
        rw [ih, hUsed.roots_eq, hUsed.1]
      dsimp only
      rw [← hEntries]
      rcases hValid : validate (getRevision depth) root.trace.entries e with _ | ⟨_ | _, e₁⟩
      · rfl
      · rfl
      · have hUsed := used_validate (fun _ _ _ => used_getRevision) hValid
        exact congrArg some (congrFun hUsed.1 cellId)

theorem validateTrace_map_fst (depth : Nat) (e : Engine V) (trace : Trace) :
    (e.validateTrace depth trace).map Prod.fst =
      peekEntries (peek e.roots e.getRevisionSnapshot depth) trace.entries := by
  refine validate_map_fst (fun _ _ _ => used_getRevision) (fun cellId e' hUsed => ?_) _ (.refl e)
  rw [getRevision_map_fst, hUsed.roots_eq, hUsed.1]

end Engine

/-! ## Monotonicity -/

variable {answer answer' : CellId → Option (Option Revision)} {entries : List TraceEntry}
  {roots : Table String (Root V)} {view view' : CellId → Option Revision} {depth : Nat}
  {cellId : CellId}

theorem peekEntries_eq_true :
    peekEntries answer entries = some true ↔
      ∀ entry ∈ entries, answer entry.cellId = some (some entry.revision) := by
  induction entries with
  | nil => exact iff_of_true rfl nofun
  | cons entry entries ih =>
    rw [peekEntries, List.forall_mem_cons, ← ih]
    rcases answer entry.cellId with _ | _ | revision
    · simp
    · simp
    · dsimp only
      split
      · next hEq => simp [hEq]
      · next hNe => simp [hNe]

/-- The answers that are missing are some day given, and the others stay. -/
theorem peekEntries_mono (h : ∀ cellId r, answer cellId = some r → answer' cellId = some r)
    {b : Bool} (hEntries : peekEntries answer entries = some b) :
    peekEntries answer' entries = some b := by
  induction entries with
  | nil => exact hEntries
  | cons entry entries ih =>
    rw [peekEntries] at hEntries ⊢
    cases hAnswer : answer entry.cellId with
    | none => exact nomatch hAnswer ▸ hEntries
    | some r =>
      rw [h _ _ hAnswer]
      rw [hAnswer] at hEntries
      cases r with
      | none => exact hEntries
      | some revision =>
        dsimp only at hEntries ⊢
        split at hEntries
        · next hEq => exact (if_pos hEq).trans (ih hEntries)
        · next hNe => exact (if_neg hNe).trans hEntries

theorem peek_succ {r : Option Revision} (h : peek roots view depth cellId = some r) :
    peek roots view (depth + 1) cellId = some r := by
  induction depth generalizing cellId r with
  | zero => cases h
  | succ depth ih =>
    rw [peek] at h ⊢
    split at h
    · next root hRoot =>
      cases hEntries : peekEntries (peek roots view depth) root.trace.entries with
      | none => exact nomatch hEntries ▸ h
      | some b =>
        rw [hEntries] at h
        rw [peekEntries_mono (fun _ _ => ih) hEntries]
        exact h
    · exact h

theorem peek_mono {depth' : Nat} (hLe : depth ≤ depth') {r : Option Revision}
    (h : peek roots view depth cellId = some r) : peek roots view depth' cellId = some r :=
  Nat.le_induction h (fun _ _ => peek_succ) depth' hLe

theorem peekEntries_antitone
    (h : ∀ cellId r, answer cellId = some r → ∃ r', answer' cellId = some r' ∧ (r' = none ∨ r' = r))
    {b : Bool} (hEntries : peekEntries answer entries = some b) :
    ∃ b', peekEntries answer' entries = some b' ∧ (b' = true → b = true) := by
  induction entries with
  | nil => exact ⟨true, rfl, fun _ => (Option.some.inj hEntries).symm⟩
  | cons entry entries ih =>
    rw [peekEntries] at hEntries ⊢
    cases hAnswer : answer entry.cellId with
    | none => exact nomatch hAnswer ▸ hEntries
    | some r =>
      rw [hAnswer] at hEntries
      obtain ⟨r', hAnswer', rfl | rfl⟩ := h _ _ hAnswer
      · exact ⟨false, by rw [hAnswer'], nofun⟩
      · rw [hAnswer']
        cases r' with
        | none => exact ⟨false, rfl, nofun⟩
        | some revision =>
          dsimp only at hEntries ⊢
          split at hEntries
          · next hEq =>
            rw [if_pos hEq]
            exact ih hEntries
          · next hNe => exact ⟨false, if_neg hNe, nofun⟩

theorem peek_antitone (hView : ∀ cellId, view' cellId = none ∨ view' cellId = view cellId)
    {r : Option Revision} (h : peek roots view depth cellId = some r) :
    ∃ r', peek roots view' depth cellId = some r' ∧ (r' = none ∨ r' = r) := by
  induction depth generalizing cellId r with
  | zero => cases h
  | succ depth ih =>
    rw [peek] at h ⊢
    split at h
    · next root hRoot =>
      cases hEntries : peekEntries (peek roots view depth) root.trace.entries with
      | none => exact nomatch hEntries ▸ h
      | some b =>
        rw [hEntries] at h
        obtain ⟨b', hEntries', hLe⟩ := peekEntries_antitone (fun _ _ => ih) hEntries
        rw [hEntries']
        cases b' with
        | false => exact ⟨none, rfl, .inl rfl⟩
        | true =>
          rw [hLe rfl] at h
          exact ⟨view' cellId, rfl, Option.some.inj h ▸ hView cellId⟩
    · exact ⟨view' cellId, rfl, Option.some.inj h ▸ hView cellId⟩

theorem view_of_peek {revision : Revision} (h : peek roots view depth cellId = some (some revision)) :
    view cellId = some revision := by
  cases depth with
  | zero => cases h
  | succ depth =>
    rw [peek] at h
    split at h
    · split at h
      · exact Option.some.inj h
      · cases h
      · cases h
    · exact Option.some.inj h

end Exosuit.Roots
