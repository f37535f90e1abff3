import Mathlib.Data.Finset.Basic
import Mathlib.Data.List.Sort
import Mathlib.Data.Prod.Lex
import Mathlib.Data.String.Basic
import Exosuit.Reactivity.Core

/-!
# The order of a trace

The dependencies of a trace are kept in the derived order of entries: by cell, then by revision.
-/

namespace Exosuit.Reactivity

/-- Revisions are ordered by their variant, then field by field. -/
def Revision.key : Revision → ℕ ×ₗ ℕ ×ₗ String ×ₗ ℕ
  | .memory epoch count => toLex (0, toLex (epoch.toNat, toLex ("", count)))
  | .disk hash => toLex (1, toLex (0, toLex (hash, 0)))
  | .counter value => toLex (2, toLex (0, toLex ("", value)))
  | .impure hash nonce => toLex (3, toLex (0, toLex (hash, nonce)))

theorem Revision.key_injective : Function.Injective Revision.key := by
  intro r r' h
  cases r <;> cases r' <;> simp_all [Revision.key, BitVec.toNat_inj]

def TraceEntry.key (entry : TraceEntry) : String ×ₗ String ×ₗ ℕ ×ₗ ℕ ×ₗ String ×ₗ ℕ :=
  toLex (entry.cellId.sourceId, toLex (entry.cellId.pointer, entry.revision.key))

theorem TraceEntry.key_injective : Function.Injective TraceEntry.key := by
  rintro ⟨⟨s, p⟩, r⟩ ⟨⟨s', p'⟩, r'⟩ h
  simp only [key, toLex_inj, Prod.mk.injEq, Revision.key_injective.eq_iff] at h
  obtain ⟨rfl, rfl, rfl⟩ := h
  rfl

instance : LinearOrder TraceEntry := LinearOrder.lift' TraceEntry.key TraceEntry.key_injective

/-- The entries in the order of iteration. -/
def Trace.entries (t : Trace) : List TraceEntry :=
  Quot.liftOn t.dependencies.val (List.insertionSort (· ≤ ·)) fun _ _ h =>
    (((List.perm_insertionSort _ _).trans h).trans (List.perm_insertionSort _ _).symm).eq_of_sortedLE
      (List.sortedLE_insertionSort) (List.sortedLE_insertionSort)

@[simp] theorem Trace.mem_entries {t : Trace} {entry : TraceEntry} :
    entry ∈ t.entries ↔ entry ∈ t.dependencies := by
  obtain ⟨⟨l⟩, hNodup⟩ := t
  exact List.mem_insertionSort _

end Exosuit.Reactivity
