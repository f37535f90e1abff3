import Exosuit.Storage.MigrationResume

/-!
# The fence before the migrations

The generation is raised to what the whole list requires before the first
statement of any migration, so at every crash point either nothing of the run
is in the file or the file is fenced for every migration of the list. A run
does not repair a file that was under-fenced before it got to the raise.
-/

namespace Exosuit.Migrations

open Lib Compatibility

universe u

variable {σ : Type u} {migrations : List (Migration σ)} {supported : Int} {file : File σ}

/-- Some effect of the migration is in the file. -/
def File.Present (file : File σ) (migration : Migration σ) : Prop :=
  migration.version ∈ file.appliedVersions ∨
    ∃ effect ∈ file.effects, effect.version = migration.version

def File.Fenced (file : File σ) (migrations : List (Migration σ)) : Prop :=
  ∀ migration ∈ migrations, file.Present migration →
    migration.requiredWriterGeneration ≤ file.userVersion

theorem required_le {migration : Migration σ} (h : migration ∈ migrations) (current : Int) :
    migration.requiredWriterGeneration ≤
      requiredGeneration (migrations.map Migration.fence) current := by
  have hMem : migration.requiredWriterGeneration ∈ (migrations.map Migration.fence).map
      Compatibility.Migration.requiredWriterGeneration :=
    List.mem_map.mpr ⟨migration.fence, List.mem_map_of_mem h, rfl⟩
  rw [requiredGeneration]
  split
  · rename_i hNone
    rw [List.max?_eq_none_iff.mp hNone] at hMem
    cases hMem
  · rename_i highest hSome
    exact le_max_of_le_left ((List.max?_eq_some_iff.mp hSome).2 _ hMem)

/-- The two files differ in the fence only. -/
structure Untouched (file file' : File σ) : Prop where
  content : file'.content = file.content
  effects : file'.effects = file.effects
  applied : file'.appliedVersions = file.appliedVersions

theorem Untouched.present {file' : File σ} (h : Untouched file file') {migration : Migration σ} :
    file'.Present migration ↔ file.Present migration := by
  rw [File.Present, File.Present, h.effects, h.applied]

theorem untouched_or_raised {required : Int} {k : Nat} {crashed : Connection σ}
    (hle : file.userVersion ≤ required)
    (hVersion : 0 ≤ file.userVersion ∧ file.userVersion ≤ maxWriterGeneration)
    (h : run exec file.open ((prelude required file.userVersion ++
      (pending migrations file).flatMap Migration.operations).take k) = some crashed) :
    Untouched file crashed.file ∧ file.userVersion ≤ crashed.file.userVersion ∨
      crashed.file.userVersion = required := by
  rw [List.take_append] at h
  by_cases hk : k < (prelude (σ := σ) required file.userVersion).length
  · rw [Nat.sub_eq_zero_of_le hk.le, List.take_zero, List.append_nil] at h
    obtain ⟨hContent, hEffects, hHistory, hUserVersion⟩ :=
      run_of_mem_prelude (fun o ho => List.mem_of_mem_take ho) h
    refine .inl ⟨⟨hContent, hEffects, ?_⟩, ?_⟩
    · rw [File.appliedVersions, File.appliedVersions, hHistory]
      rfl
    · rcases hUserVersion with hSame | ⟨hRaised, -⟩
      · exact hSame.ge
      · rw [hRaised]
        exact hle
  · rw [List.take_of_length_le (not_lt.mp hk), run_append] at h
    obtain ⟨settled, hPrelude, hRest⟩ := Option.bind_eq_some_iff.mp h
    have hRange := range_of_run_prelude hle hVersion hPrelude
    rw [File.open, run_prelude hle hRange] at hPrelude
    cases hPrelude
    have hSettled : crashed.file.settled required = crashed.file :=
      settled_of_run (fun o ho => isMigrationStatement (List.mem_of_mem_take ho)) rfl hRest
    exact .inr (congrArg File.userVersion hSettled).symm

theorem fenced_at_every_crash_point {k : Nat} {crashed : Connection σ}
    (hCrashed : interrupted migrations supported file k = some crashed) :
    file.userVersion ≤ crashed.file.userVersion ∧
    (Untouched file crashed.file ∨
      ∀ migration ∈ migrations, migration.requiredWriterGeneration ≤ crashed.file.userVersion) ∧
    (file.Fenced migrations → crashed.file.Fenced migrations) ∧
    ((∃ migration ∈ migrations, supported < migration.requiredWriterGeneration) →
      crashed.file = file) := by
  rw [interrupted] at hCrashed
  cases hOps : operations migrations supported file with
  | error error =>
    rw [hOps] at hCrashed
    cases hCrashed
    exact ⟨le_refl _, .inl ⟨rfl, rfl, rfl⟩, id, fun _ => rfl⟩
  | ok ops =>
    rw [hOps] at hCrashed
    obtain ⟨hVersion, hSupported, rfl⟩ := operations_eq_ok hOps
    have hle := le_requiredGeneration (migrations.map Migration.fence) file.userVersion
    have hRefused : ¬ ∃ migration ∈ migrations, supported < migration.requiredWriterGeneration := by
      rintro ⟨migration, hMem, hAbove⟩
      exact absurd (le_trans (required_le hMem file.userVersion) hSupported) (not_le.mpr hAbove)
    rcases untouched_or_raised hle hVersion hCrashed with ⟨hUntouched, hRaised⟩ | hRaised
    · refine ⟨hRaised, .inl hUntouched, ?_, fun h => (hRefused h).elim⟩
      intro hFenced migration hMem hPresent
      exact le_trans (hFenced migration hMem (hUntouched.present.mp hPresent)) hRaised
    · have hAll : ∀ migration ∈ migrations,
          migration.requiredWriterGeneration ≤ crashed.file.userVersion := by
        intro migration hMem
        rw [hRaised]
        exact required_le hMem _
      exact ⟨hRaised ▸ hle, .inr hAll, fun _ migration hMem _ => hAll migration hMem,
        fun h => (hRefused h).elim⟩

/-- The fixture dies between its two statements. -/
theorem fenced_at_every_crash_point_between :
    (⟨some [], 1, some [], [⟨1001, 0, true⟩]⟩ : File (Option (List String))).Fenced
      [generationOneFixture] := by
  have hCrashed : interrupted [generationOneFixture] 1 ⟨none, 0, none, []⟩ 4 =
      some ⟨⟨some [], 1, some [], [⟨1001, 0, true⟩]⟩, true⟩ := rfl
  refine (fenced_at_every_crash_point hCrashed).2.2.1 ?_
  intro migration _ hPresent
  rcases hPresent with hApplied | ⟨effect, hEffect, -⟩
  · cases hApplied
  · cases hEffect

/-- A restored file that records the fixture without its fence, before the raise;
and one that an interrupted newer binary left, which this one refuses. -/
theorem under_fenced_at_start :
    (¬ ∀ (migrations : List (Migration (Option (List String)))) (supportedWriterGeneration : Int)
      (file : File (Option (List String))) (k : Nat) (crashed : Connection (Option (List String))),
      interrupted migrations supportedWriterGeneration file k = some crashed →
      crashed.file.Fenced migrations) ∧
    ¬ ∀ (migrations : List (Migration (Option (List String)))) (supportedWriterGeneration : Int)
      (file : File (Option (List String))) (k : Nat) (crashed : Connection (Option (List String))),
      interrupted migrations supportedWriterGeneration file k = some crashed →
      ∀ migration ∈ pending migrations file,
        supportedWriterGeneration < migration.requiredWriterGeneration →
        ¬ crashed.file.Present migration ∧
          crashed.file.userVersion < migration.requiredWriterGeneration := by
  constructor
  · intro h
    have hFenced := h [generationOneFixture] 1
      ⟨some ["migrated"], 0, some [⟨1001, "generation_one_fixture"⟩], []⟩ 0 _ rfl
      generationOneFixture List.mem_cons_self (.inl List.mem_cons_self)
    exact absurd hFenced (by decide)
  · intro h
    obtain ⟨hAbsent, -⟩ := h [generationOneFixture] 0 ⟨some [], 1, some [], [⟨1001, 0, true⟩]⟩ 0 _ rfl
      generationOneFixture List.mem_cons_self (by decide)
    exact hAbsent (.inr ⟨⟨1001, 0, true⟩, List.mem_cons_self, rfl⟩)

end Exosuit.Migrations
