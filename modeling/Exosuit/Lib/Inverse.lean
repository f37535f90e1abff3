import Exosuit.Lib.Table

/-!
# Tables with an index

A table whose values stand at a place each, no two at the same, and the table that gives the key
for a place. Entering, erasing and keeping on both sides leaves the two inverse to each other.
-/

namespace Exosuit.Lib.Table

universe u v w

variable {ρ : Type u} {κ : Type v} {α : Type w} [DecidableEq ρ] [DecidableEq κ]

/-- The index gives for a place the key of the value there, and nothing else. -/
def Indexes (index : Table ρ κ) (t : Table κ α) (place : α → ρ) : Prop :=
  ∀ r k, index.lookup r = some k ↔ ∃ a, t.lookup k = some a ∧ place a = r

namespace Indexes

variable {index : Table ρ κ} {t : Table κ α} {place : α → ρ} {r : ρ} {k : κ} {a : α}

theorem empty : Indexes (∅ : Table ρ κ) (∅ : Table κ α) place := by
  intro r k
  rw [AList.lookup_empty, AList.lookup_empty]
  constructor
  · nofun
  · rintro ⟨a, ha, -⟩
    cases ha

theorem lookup (h : Indexes index t place) (ha : t.lookup k = some a) :
    index.lookup (place a) = some k :=
  (h _ _).mpr ⟨a, ha, rfl⟩

/-- A value is entered under a key that had no other place, at a place that had no other key. -/
theorem insert (h : Indexes index t place)
    (hIndex : ∀ k', index.lookup (place a) = some k' → k' = k)
    (hTable : ∀ b, t.lookup k = some b → place b = place a) :
    Indexes (AList.insert (place a) k index) (AList.insert k a t) place := by
  intro r k'
  rw [lookup_insert, lookup_insert]
  constructor
  · intro hr
    split at hr
    · next hPlace =>
      cases hr
      exact ⟨a, if_pos rfl, hPlace.symm⟩
    · next hPlace =>
      obtain ⟨b, hb, rfl⟩ := (h r k').mp hr
      have hKey : k' ≠ k := by
        rintro rfl
        exact hPlace (hTable b hb)
      exact ⟨b, by rw [if_neg hKey, hb], rfl⟩
  · rintro ⟨b, hb, rfl⟩
    split at hb
    · next hKey =>
      cases hb
      rw [if_pos rfl, hKey]
    · next hKey =>
      have hOld := h.lookup hb
      split
      · next hPlace =>
        rw [hPlace] at hOld
        exact absurd (hIndex k' hOld) hKey
      · exact hOld

theorem erase (h : Indexes index t place) (hr : index.lookup r = some k) :
    Indexes (AList.erase r index) (AList.erase k t) place := by
  intro r' k'
  rw [lookup_erase, lookup_erase]
  constructor
  · intro hr'
    split at hr'
    · cases hr'
    · next hPlace =>
      obtain ⟨b, hb, rfl⟩ := (h r' k').mp hr'
      have hKey : k' ≠ k := by
        rintro rfl
        obtain ⟨a, ha, rfl⟩ := (h r k').mp hr
        cases ha.symm.trans hb
        exact hPlace rfl
      exact ⟨b, by rw [if_neg hKey, hb], rfl⟩
  · rintro ⟨b, hb, rfl⟩
    split at hb
    · cases hb
    · next hKey =>
      have hOld := h.lookup hb
      rw [if_neg ?_, hOld]
      rintro hPlace
      rw [hPlace, hr] at hOld
      exact hKey (Option.some.inj hOld).symm

theorem retain (h : Indexes index t place) (keep : κ → Bool) :
    Indexes (index.retain fun _ k => keep k) (t.retain fun k _ => keep k) place := by
  intro r k
  rw [lookup_retain_eq_some, h r k]
  constructor
  · rintro ⟨⟨a, ha, hPlace⟩, hKeep⟩
    exact ⟨a, lookup_retain_eq_some.mpr ⟨ha, hKeep⟩, hPlace⟩
  · rintro ⟨a, ha, hPlace⟩
    obtain ⟨ha, hKeep⟩ := lookup_retain_eq_some.mp ha
    exact ⟨⟨a, ha, hPlace⟩, hKeep⟩

end Indexes

end Exosuit.Lib.Table
