import Mathlib.Data.Finset.Basic

/-!
# An advisory reader-writer lock

The holders of one lock file: any number of shared holders or one exclusive
holder. The exclusion is a field, so a lock state that breaks it cannot be built.
-/

namespace Exosuit.Lib

inductive LeaseMode
  | shared
  | exclusive
deriving DecidableEq, Repr

structure AdvisoryLock (ι : Type*) where
  exclusive : Option ι
  shared : Finset ι
  exclusion : exclusive ≠ none → shared = ∅

namespace AdvisoryLock

variable {ι : Type*}

def unlocked : AdvisoryLock ι := ⟨none, ∅, fun h => absurd rfl h⟩

variable [DecidableEq ι]

/-- The lease that `p` holds. -/
def mode (l : AdvisoryLock ι) (p : ι) : Option LeaseMode :=
  if l.exclusive = some p then some .exclusive
  else if p ∈ l.shared then some .shared
  else none

def tryShared (l : AdvisoryLock ι) (p : ι) : Option (AdvisoryLock ι) :=
  if h : l.exclusive = none then some ⟨l.exclusive, insert p l.shared, fun hne => absurd h hne⟩
  else none

def tryExclusive (l : AdvisoryLock ι) (p : ι) : Option (AdvisoryLock ι) :=
  if l.exclusive = none ∧ l.shared = ∅ then some ⟨some p, ∅, fun _ => rfl⟩ else none

def unlock (l : AdvisoryLock ι) (p : ι) : AdvisoryLock ι where
  exclusive := if l.exclusive = some p then none else l.exclusive
  shared := l.shared.erase p
  exclusion h := by
    have hne : l.exclusive ≠ none := by
      intro hnone
      simp [hnone] at h
    rw [l.exclusion hne, Finset.erase_empty]

@[simp] theorem mode_unlocked (p : ι) : (unlocked : AdvisoryLock ι).mode p = none := by
  simp [unlocked, mode]

theorem mode_eq_none_of_exclusive {l : AdvisoryLock ι} {p q : ι}
    (h : l.mode p = some .exclusive) (hne : q ≠ p) : l.mode q = none := by
  unfold mode at h
  split at h
  · rename_i hp
    have hShared := l.exclusion (by simp [hp])
    simp [mode, hp, hShared, hne.symm]
  · split at h <;> cases h

theorem mode_tryShared {l l' : AdvisoryLock ι} {p : ι} (h : l.tryShared p = some l') (q : ι) :
    l'.mode q = if q = p then some .shared else l.mode q := by
  unfold tryShared at h
  split at h
  · rename_i hnone
    cases h
    by_cases hq : q = p <;> simp [mode, hnone, hq]
  · cases h

theorem mode_tryExclusive {l l' : AdvisoryLock ι} {p : ι} (h : l.tryExclusive p = some l') (q : ι) :
    l'.mode q = if q = p then some .exclusive else l.mode q := by
  unfold tryExclusive at h
  split at h
  · rename_i hfree
    cases h
    by_cases hq : q = p
    · simp [mode, hq]
    · simp [mode, hfree.1, hfree.2, hq, Ne.symm hq]
  · cases h

theorem mode_unlock (l : AdvisoryLock ι) (p q : ι) :
    (l.unlock p).mode q = if q = p then none else l.mode q := by
  by_cases hq : q = p
  · subst hq
    by_cases he : l.exclusive = some q <;> simp [mode, unlock, he]
  · by_cases he : l.exclusive = some p
    · have hShared := l.exclusion (by simp [he])
      simp [mode, unlock, he, hq, hShared, Ne.symm hq]
    · simp [mode, unlock, he, hq]

end AdvisoryLock

end Exosuit.Lib
