import Exosuit.Storage.Migrations

/-!
# Resuming an interrupted migration run

A process dies after some statements of a run and the run is started again. The
second run does what the first one would have done exactly when no statement of
a migration that is not yet recorded has changed the database, and the
foreign-key setting that the remaining statements see is the one of a new
connection. Effects are compared through the log of the file.
-/

namespace Exosuit.Migrations

open Lib Compatibility

universe u

variable {σ : Type u} {migrations : List (Migration σ)} {supported : Int} {file : File σ}

/-- The file once the run reaches its first pending migration. -/
def File.settled (file : File σ) (requiredGeneration : Int) : File σ :=
  { file with userVersion := requiredGeneration, history := some (file.history.getD []) }

/-- What a run that is not refused does. -/
theorem operations_eq_ok {ops : List (Operation σ)} (h : operations migrations supported file = .ok ops) :
    (0 ≤ file.userVersion ∧ file.userVersion ≤ maxWriterGeneration) ∧
    requiredGeneration (migrations.map Migration.fence) file.userVersion ≤ supported ∧
    ops = prelude (requiredGeneration (migrations.map Migration.fence) file.userVersion)
      file.userVersion ++ (pending migrations file).flatMap Migration.operations := by
  rw [operations] at h
  cases hValid : validateDatabaseGeneration file.userVersion with
  | error error => rw [hValid] at h; cases h
  | ok current =>
    rw [hValid] at h
    obtain ⟨rfl, hRange⟩ := validateDatabaseGeneration_eq_ok.mp hValid
    dsimp only at h
    split at h
    · cases h
    · rename_i hSupported
      exact ⟨hRange, le_of_not_gt hSupported, (Except.ok.inj h).symm⟩

theorem operations_ok (hRange : 0 ≤ file.userVersion ∧ file.userVersion ≤ maxWriterGeneration)
    (hSupported : requiredGeneration (migrations.map Migration.fence) file.userVersion ≤ supported) :
    operations migrations supported file =
      .ok (prelude (requiredGeneration (migrations.map Migration.fence) file.userVersion)
        file.userVersion ++ (pending migrations file).flatMap Migration.operations) := by
  rw [operations, validateDatabaseGeneration_eq_ok.mpr ⟨rfl, hRange⟩]
  exact if_neg (not_lt.mpr hSupported)

theorem run_prelude {required : Int} {foreignKeys : Bool} (hle : file.userVersion ≤ required)
    (hRange : 0 ≤ required ∧ required ≤ maxWriterGeneration) :
    run exec ⟨file, foreignKeys⟩ (prelude required file.userVersion) =
      some ⟨file.settled required, true⟩ := by
  rw [prelude]
  split
  · rw [List.singleton_append, run_cons, exec, if_pos hRange]
    rfl
  · rename_i hNot
    have hEq : file.userVersion = required := le_antisymm hle (not_lt.mp hNot)
    subst hEq
    rfl

/-- A statement before the first pending migration leaves all but the fence alone. -/
theorem exec_prelude {c c' : Connection σ} {o : Operation σ} {required current : Int}
    (ho : o ∈ prelude required current) (h : exec c o = some c') :
    c'.file.content = c.file.content ∧ c'.file.effects = c.file.effects ∧
    c'.file.history.getD [] = c.file.history.getD [] ∧
    (c'.file.userVersion = c.file.userVersion ∨
      c'.file.userVersion = required ∧ 0 ≤ required ∧ required ≤ maxWriterGeneration) := by
  have hCases : o = .setDatabaseGeneration required ∨ o = .enableForeignKeys ∨
      o = .createSchemaHistory := by
    rw [prelude] at ho
    split at ho
    · simpa using ho
    · exact .inr (by simpa using ho)
  rcases hCases with rfl | rfl | rfl
  · rw [exec] at h
    split at h
    · rename_i hRange
      cases h
      exact ⟨rfl, rfl, rfl, .inr ⟨rfl, hRange⟩⟩
    · cases h
  · cases h
    exact ⟨rfl, rfl, rfl, .inl rfl⟩
  · cases h
    exact ⟨rfl, rfl, rfl, .inl rfl⟩

theorem run_of_mem_prelude {c c' : Connection σ} {ops : List (Operation σ)} {required current : Int}
    (hOps : ∀ o ∈ ops, o ∈ prelude required current) (h : run exec c ops = some c') :
    c'.file.content = c.file.content ∧ c'.file.effects = c.file.effects ∧
    c'.file.history.getD [] = c.file.history.getD [] ∧
    (c'.file.userVersion = c.file.userVersion ∨
      c'.file.userVersion = required ∧ 0 ≤ required ∧ required ≤ maxWriterGeneration) := by
  induction ops generalizing c with
  | nil =>
    cases h
    exact ⟨rfl, rfl, rfl, .inl rfl⟩
  | cons o ops ih =>
    obtain ⟨d, hExec, hRun⟩ := (run_cons_eq_some exec).mp h
    obtain ⟨hContent, hEffects, hHistory, hVersion⟩ := exec_prelude (hOps o List.mem_cons_self) hExec
    obtain ⟨ihContent, ihEffects, ihHistory, ihVersion⟩ :=
      ih (fun o ho => hOps o (List.mem_cons_of_mem _ ho)) hRun
    refine ⟨ihContent.trans hContent, ihEffects.trans hEffects, ihHistory.trans hHistory, ?_⟩
    rcases ihVersion with ihVersion | ihVersion
    · rw [ihVersion]
      exact hVersion
    · exact .inr ihVersion

theorem pending_congr {file' : File σ} (h : file'.history.getD [] = file.history.getD []) :
    pending migrations file' = pending migrations file := by
  rw [pending, pending, File.appliedVersions, File.appliedVersions, h]

theorem settled_congr {file' : File σ} {required : Int} (hContent : file'.content = file.content)
    (hEffects : file'.effects = file.effects)
    (hHistory : file'.history.getD [] = file.history.getD []) :
    file'.settled required = file.settled required := by
  rw [File.settled, File.settled, hContent, hEffects, hHistory]

theorem runMigrations_eq {required : Int}
    (hRequired : requiredGeneration (migrations.map Migration.fence) file.userVersion = required)
    (hVersion : 0 ≤ file.userVersion ∧ file.userVersion ≤ maxWriterGeneration)
    (hSupported : required ≤ supported)
    (hRange : 0 ≤ required ∧ required ≤ maxWriterGeneration) :
    runMigrations migrations supported file =
      run exec ⟨file.settled required, true⟩
        ((pending migrations file).flatMap Migration.operations) := by
  subst hRequired
  rw [runMigrations, operations_ok hVersion hSupported]
  dsimp only
  rw [run_append, File.open, run_prelude (le_requiredGeneration _ _) hRange, Option.bind_some]

theorem mem_statements {version index : Nat} {sql : List (Statement σ)} {o : Operation σ}
    (h : o ∈ statements version index sql) : ∃ i s, o = .statement version i s := by
  induction sql generalizing index with
  | nil => cases h
  | cons s sql ih =>
    rcases List.mem_cons.mp h with rfl | h
    · exact ⟨index, s, rfl⟩
    · exact ih h

def IsStatement (o : Operation σ) : Prop := ∃ version index sql, o = .statement version index sql

theorem recorded_of_isStatement {ops : List (Operation σ)} (h : ∀ o ∈ ops, IsStatement o) :
    Operation.recorded ops = [] := by
  induction ops with
  | nil => rfl
  | cons o ops ih =>
    obtain ⟨version, index, sql, rfl⟩ := h o List.mem_cons_self
    exact ih fun o ho => h o (List.mem_cons_of_mem _ ho)

theorem recorded_operations (migration : Migration σ) :
    Operation.recorded migration.operations = [migration.row] := by
  rw [Migration.operations, Operation.recorded_append, recorded_of_isStatement]
  · rfl
  · intro o ho
    obtain ⟨i, s, rfl⟩ := mem_statements ho
    exact ⟨_, i, s, rfl⟩

theorem recorded_flatMap (ms : List (Migration σ)) :
    Operation.recorded (ms.flatMap Migration.operations) = ms.map Migration.row := by
  induction ms with
  | nil => rfl
  | cons m ms ih =>
    rw [List.flatMap_cons, Operation.recorded_append, recorded_operations, ih]
    rfl

/-- Whole migrations end with their history row. -/
theorem dirty_flatMap (ms : List (Migration σ)) :
    Operation.dirty false (ms.flatMap Migration.operations) = false := by
  induction ms with
  | nil => rfl
  | cons m ms ih =>
    rw [List.flatMap_cons, Operation.dirty_append, Migration.operations, Operation.dirty_append]
    exact ih

theorem take_flatMap (ms : List (Migration σ)) (j : Nat) :
    ∃ before after partway rest, ms = before ++ after ∧
      (ms.flatMap Migration.operations).take j =
        before.flatMap Migration.operations ++ partway ∧
      after.flatMap Migration.operations = partway ++ rest ∧ ∀ o ∈ partway, IsStatement o := by
  induction ms generalizing j with
  | nil => exact ⟨[], [], [], [], rfl, List.take_nil, rfl, fun o ho => (List.not_mem_nil ho).elim⟩
  | cons m ms ih =>
    by_cases hWhole : m.operations.length ≤ j
    · obtain ⟨before, after, partway, rest, rfl, hTake, hAfter, hStatements⟩ :=
        ih (j - m.operations.length)
      refine ⟨m :: before, after, partway, rest, rfl, ?_, hAfter, hStatements⟩
      rw [List.flatMap_cons, List.take_append, List.take_of_length_le hWhole, hTake,
        List.flatMap_cons, List.append_assoc]
    · have hLength : m.operations.length = (statements m.version 0 m.sql).length + 1 := by
        rw [Migration.operations, List.length_append, List.length_singleton]
      have hPart : j ≤ (statements m.version 0 m.sql).length := by omega
      refine ⟨[], m :: ms, (statements m.version 0 m.sql).take j,
        (statements m.version 0 m.sql).drop j ++ [.recordMigration m.row] ++
          ms.flatMap Migration.operations, rfl, ?_, ?_, ?_⟩
      · rw [List.flatMap_cons, Migration.operations, List.append_assoc,
          List.take_append_of_le_length hPart]
        rfl
      · rw [List.flatMap_cons, Migration.operations, ← List.append_assoc, ← List.append_assoc,
          List.take_append_drop]
      · intro o ho
        obtain ⟨i, s, rfl⟩ := mem_statements (List.mem_of_mem_take ho)
        exact ⟨_, i, s, rfl⟩

theorem run_file_of_effects_nil {c c' : Connection σ} {ops : List (Operation σ)}
    (hStatements : ∀ o ∈ ops, IsStatement o) (hEffects : Operation.effects c.foreignKeys ops = [])
    (h : run exec c ops = some c') : c'.file = c.file := by
  induction ops generalizing c with
  | nil =>
    cases h
    rfl
  | cons o ops ih =>
    obtain ⟨d, hExec, hRun⟩ := (run_cons_eq_some exec).mp h
    obtain ⟨version, index, sql, rfl⟩ := hStatements o List.mem_cons_self
    cases sql with
    | execute apply => exact absurd hEffects (List.cons_ne_nil _ _)
    | pragmaForeignKeys on =>
      cases hExec
      have hFile : c'.file = (Connection.mk c.file on).file :=
        ih (fun o ho => hStatements o (List.mem_cons_of_mem _ ho)) hEffects hRun
      exact hFile

theorem nodup_of_run {c c' : Connection σ} {ops : List (Operation σ)}
    (h : run exec c ops = some c') :
    ((Operation.recorded ops).map HistoryRow.version).Nodup ∧
    ∀ row ∈ Operation.recorded ops, row.version ∉ c.file.appliedVersions := by
  induction ops generalizing c with
  | nil => exact ⟨List.nodup_nil, fun row hRow => (List.not_mem_nil hRow).elim⟩
  | cons o ops ih =>
    obtain ⟨d, hExec, hRun⟩ := (run_cons_eq_some exec).mp h
    obtain ⟨hNodup, hFresh⟩ := ih hRun
    have hApplied : d.file.appliedVersions =
        c.file.appliedVersions ++ (Operation.recorded [o]).map HistoryRow.version := by
      rw [File.appliedVersions, (exec_spec hExec).2.2, List.map_append]
      rfl
    rw [hApplied] at hFresh
    cases o with
    | recordMigration row =>
      have hRow : row.version ∉ c.file.appliedVersions := by
        rw [exec] at hExec
        rw [File.appliedVersions]
        cases hRows : c.file.history with
        | none => rw [hRows] at hExec; cases hExec
        | some rows =>
          rw [hRows] at hExec
          dsimp only at hExec
          split at hExec
          · cases hExec
          · assumption
      refine ⟨List.nodup_cons.mpr ⟨?_, hNodup⟩, ?_⟩
      · intro hMem
        obtain ⟨row', hRow', hVersion⟩ := List.mem_map.mp hMem
        refine hFresh row' hRow' (List.mem_append_right _ ?_)
        rw [hVersion]
        exact List.mem_singleton_self _
      · intro row' hRow'
        rcases List.mem_cons.mp hRow' with rfl | hRow'
        · exact hRow
        · exact fun hMem => hFresh row' hRow' (List.mem_append_left _ hMem)
    | _ => exact ⟨hNodup, fun row hRow hMem => hFresh row hRow (List.mem_append_left _ hMem)⟩

theorem settled_of_run {c c' : Connection σ} {ops : List (Operation σ)} {required : Int}
    (hOps : ∀ o ∈ ops, IsStatement o ∨ ∃ row, o = .recordMigration row)
    (hSettled : c.file.settled required = c.file) (h : run exec c ops = some c') :
    c'.file.settled required = c'.file := by
  induction ops generalizing c with
  | nil =>
    cases h
    exact hSettled
  | cons o ops ih =>
    obtain ⟨d, hExec, hRun⟩ := (run_cons_eq_some exec).mp h
    refine ih (fun o ho => hOps o (List.mem_cons_of_mem _ ho)) ?_ hRun
    have hVersion : c.file.userVersion = required := (congrArg File.userVersion hSettled).symm
    have hHistory : some (c.file.history.getD []) = c.file.history := congrArg File.history hSettled
    rcases hOps o List.mem_cons_self with ⟨version, index, sql, rfl⟩ | ⟨row, rfl⟩
    · cases sql with
      | pragmaForeignKeys on =>
        cases hExec
        exact hSettled
      | execute apply =>
        obtain ⟨content, -, rfl⟩ := Option.map_eq_some_iff.mp hExec
        rw [File.settled]
        dsimp only
        rw [hHistory, ← hVersion]
    · rw [exec] at hExec
      cases hRows : c.file.history with
      | none => rw [hRows] at hExec; cases hExec
      | some rows =>
        rw [hRows] at hExec
        dsimp only at hExec
        split at hExec
        · cases hExec
        · cases hExec
          rw [File.settled]
          dsimp only
          rw [Option.getD_some, ← hVersion]

theorem isMigrationStatement {ms : List (Migration σ)} {o : Operation σ}
    (h : o ∈ ms.flatMap Migration.operations) : IsStatement o ∨ ∃ row, o = .recordMigration row := by
  obtain ⟨m, -, ho⟩ := List.mem_flatMap.mp h
  rcases List.mem_append.mp ho with ho | ho
  · obtain ⟨i, s, rfl⟩ := mem_statements ho
    exact .inl ⟨_, i, s, rfl⟩
  · exact .inr ⟨m.row, List.mem_singleton.mp ho⟩

theorem pending_of_recorded {file' : File σ} {before after : List (Migration σ)}
    (hPending : pending migrations file = before ++ after)
    (hNodup : ((before ++ after).map Migration.version).Nodup)
    (hHistory : file'.history.getD [] = file.history.getD [] ++ before.map Migration.row) :
    pending migrations file' = after := by
  have hApplied : file'.appliedVersions = file.appliedVersions ++ before.map Migration.version := by
    rw [File.appliedVersions, hHistory, List.map_append, List.map_map]
    rfl
  have hSplit : pending migrations file' = (pending migrations file).filter
      fun migration => !(before.map Migration.version).contains migration.version := by
    rw [pending, pending, List.filter_filter, hApplied]
    congr 1
    funext migration
    rw [List.contains_append, Bool.not_or, Bool.and_comm]
  rw [List.map_append] at hNodup
  have hDisjoint := List.disjoint_of_nodup_append hNodup
  rw [hSplit, hPending, List.filter_append, List.filter_eq_nil_iff.mpr, List.nil_append,
    List.filter_eq_self]
  · intro migration hMem
    rw [Bool.not_eq_true', ← Bool.not_eq_true, List.contains_iff_mem]
    exact fun hIn => hDisjoint hIn (List.mem_map_of_mem hMem)
  · intro migration hMem
    rw [Bool.not_eq_true, Bool.not_eq_false', List.contains_iff_mem]
    exact List.mem_map_of_mem hMem

/-- When the run dies before its statement `k + 1`, everything that a migration
which is not yet recorded has changed is nothing, and what is left to do sees on
a new connection the foreign-key setting it would have seen. -/
def Resumable (migrations : List (Migration σ)) (supportedWriterGeneration : Int) (file : File σ)
    (k : Nat) : Prop :=
  match operations migrations supportedWriterGeneration file with
  | .error _ => True
  | .ok operations =>
    let executed := operations.take k
    let recorded := (Operation.recorded executed).length
    let before := ((pending migrations file).take recorded).flatMap Migration.operations
    let after := ((pending migrations file).drop recorded).flatMap Migration.operations
    Operation.dirty false executed = false ∧
      Operation.effects (Operation.foreignKeys true before) after = Operation.effects true after

/-- The run that is started on what `crashed` left reaches what the uninterrupted
run reached, and each pending migration has taken effect once. -/
def ResumesExactlyOnce (migrations : List (Migration σ)) (supportedWriterGeneration : Int)
    (file : File σ) (full crashed : Connection σ) : Prop :=
  ∃ resumed, runMigrations migrations supportedWriterGeneration crashed.file = some resumed ∧
    resumed.file.content = full.file.content ∧ resumed.file.history = full.file.history ∧
    resumed.file.effects = file.effects ++
      Operation.effects true ((pending migrations file).flatMap Migration.operations)

theorem prelude_quiet (required current : Int) (k : Nat) :
    Operation.recorded ((prelude required current : List (Operation σ)).take k) = [] ∧
    Operation.dirty false ((prelude required current : List (Operation σ)).take k) = false := by
  rw [prelude]
  split
  · rcases k with _ | _ | _ | k <;> simp [Operation.recorded, Operation.dirty]
  · rcases k with _ | _ | k <;> simp [Operation.recorded, Operation.dirty]

theorem recorded_prelude (required current : Int) :
    Operation.recorded (prelude required current : List (Operation σ)) = [] := by
  rw [prelude]
  split <;> rfl

theorem dirty_prelude (required current : Int) :
    Operation.dirty false (prelude required current : List (Operation σ)) = false := by
  rw [prelude]
  split <;> rfl

theorem range_of_run_prelude {c : Connection σ} {required : Int} (hle : file.userVersion ≤ required)
    (hVersion : 0 ≤ file.userVersion ∧ file.userVersion ≤ maxWriterGeneration)
    (h : run exec file.open (prelude required file.userVersion) = some c) :
    0 ≤ required ∧ required ≤ maxWriterGeneration := by
  rw [prelude] at h
  split at h
  · rw [List.singleton_append] at h
    obtain ⟨d, hExec, -⟩ := (run_cons_eq_some exec).mp h
    rw [exec] at hExec
    split at hExec
    · assumption
    · cases hExec
  · rename_i hNot
    rw [le_antisymm (not_lt.mp hNot) hle]
    exact hVersion

section Crash

variable {required : Int} {crashed full : Connection σ}

/-- Dying before the first pending migration costs nothing. -/
theorem resumes_of_prelude {k : Nat}
    (hRequired : requiredGeneration (migrations.map Migration.fence) file.userVersion = required)
    (hVersion : 0 ≤ file.userVersion ∧ file.userVersion ≤ maxWriterGeneration)
    (hSupported : required ≤ supported) (hRange : 0 ≤ required ∧ required ≤ maxWriterGeneration)
    (hFull : runMigrations migrations supported file = some full)
    (hCrashed : run exec file.open ((prelude required file.userVersion).take k) = some crashed) :
    ResumesExactlyOnce migrations supported file full crashed := by
  obtain ⟨hContent, hEffects, hHistory, hUserVersion⟩ :=
    run_of_mem_prelude (fun o ho => List.mem_of_mem_take ho) hCrashed
  have hRequired' : requiredGeneration (migrations.map Migration.fence) crashed.file.userVersion =
      required := by
    rcases hUserVersion with hSame | ⟨hRaised, -⟩
    · rw [hSame]
      exact hRequired
    · rw [hRaised, ← hRequired, requiredGeneration_idem]
  have hVersion' : 0 ≤ crashed.file.userVersion ∧ crashed.file.userVersion ≤ maxWriterGeneration := by
    rcases hUserVersion with hSame | ⟨hRaised, -⟩
    · rw [hSame]
      exact hVersion
    · rw [hRaised]
      exact hRange
  have hSettled : crashed.file.settled required = file.settled required :=
    settled_congr hContent hEffects hHistory
  have hPending : pending migrations crashed.file = pending migrations file := pending_congr hHistory
  have hRun := runMigrations_eq hRequired hVersion hSupported hRange
  have hRerun : runMigrations migrations supported crashed.file = some full := by
    rw [runMigrations_eq hRequired' hVersion' hSupported hRange, hSettled, hPending, ← hRun, hFull]
  refine ⟨full, hRerun, rfl, rfl, ?_⟩
  exact (run_spec (hRun.symm.trans hFull)).1

theorem resumes_iff_of_partway {before after : List (Migration σ)} {partway : List (Operation σ)}
    {recorded : Connection σ}
    (hSupported : required ≤ supported) (hRange : 0 ≤ required ∧ required ≤ maxWriterGeneration)
    (hRequired : requiredGeneration (migrations.map Migration.fence) required = required)
    (hPending : pending migrations file = before ++ after)
    (hNodup : ((before ++ after).map Migration.version).Nodup)
    (hRecorded : run exec ⟨file.settled required, true⟩ (before.flatMap Migration.operations) =
      some recorded)
    (hStatements : ∀ o ∈ partway, IsStatement o)
    (hCrashed : run exec recorded partway = some crashed)
    (hFull : run exec recorded (after.flatMap Migration.operations) = some full) :
    ResumesExactlyOnce migrations supported file full crashed ↔
      Operation.dirty false partway = false ∧
      Operation.effects recorded.foreignKeys (after.flatMap Migration.operations) =
        Operation.effects true (after.flatMap Migration.operations) := by
  obtain ⟨hEffects, hKeys, hHistory⟩ := run_spec hRecorded
  obtain ⟨hEffects', -, hHistory'⟩ := run_spec hCrashed
  rw [recorded_of_isStatement hStatements, List.append_nil] at hHistory'
  have hSettled : crashed.file.settled required = crashed.file := by
    refine settled_of_run (fun o ho => .inl (hStatements o ho)) ?_ hCrashed
    exact settled_of_run (fun o => isMigrationStatement) rfl hRecorded
  have hAfter : pending migrations crashed.file = after := by
    refine pending_of_recorded hPending hNodup ?_
    rw [hHistory', hHistory, recorded_flatMap]
    rfl
  have hVersion : crashed.file.userVersion = required := (congrArg File.userVersion hSettled).symm
  have hRerun : runMigrations migrations supported crashed.file =
      run exec ⟨crashed.file, true⟩ (after.flatMap Migration.operations) := by
    rw [runMigrations_eq (hVersion ▸ hRequired) (hVersion ▸ hRange) hSupported hRange, hSettled, hAfter]
  have hClean : Operation.dirty false partway = false ↔
      Operation.effects recorded.foreignKeys partway = [] :=
    Operation.dirty_eq_false_iff _ _ (recorded_of_isStatement hStatements)
  have hAll : Operation.effects true ((pending migrations file).flatMap Migration.operations) =
      Operation.effects true (before.flatMap Migration.operations) ++
        Operation.effects recorded.foreignKeys (after.flatMap Migration.operations) := by
    rw [hPending, List.flatMap_append, Operation.effects_append, hKeys]
  constructor
  · rintro ⟨resumed, hRun, -, -, hOnce⟩
    rw [hRerun] at hRun
    have hLog := (run_spec hRun).1
    rw [hOnce, hEffects', hEffects, hAll, List.append_assoc, List.append_assoc] at hLog
    have hRest : Operation.effects recorded.foreignKeys (after.flatMap Migration.operations) =
        Operation.effects recorded.foreignKeys partway ++
          Operation.effects true (after.flatMap Migration.operations) :=
      List.append_cancel_left (List.append_cancel_left hLog)
    -- a statement that ran before the crash is logged once more by the second run
    have hNone : Operation.effects recorded.foreignKeys partway = [] := by
      have hLength := congrArg List.length hRest
      rw [List.length_append, Operation.length_effects recorded.foreignKeys
        (after.flatMap Migration.operations) true] at hLength
      exact List.eq_nil_of_length_eq_zero (by omega)
    rw [hNone, List.nil_append] at hRest
    exact ⟨hClean.mpr hNone, hRest⟩
  · rintro ⟨hDirty, hSame⟩
    have hFile : crashed.file = recorded.file :=
      run_file_of_effects_nil hStatements (hClean.mp hDirty) hCrashed
    have hRest : (run exec ⟨recorded.file, true⟩ (after.flatMap Migration.operations)).map
        Connection.file = some full.file := by
      rw [← run_congr hSame]
      exact congrArg (Option.map Connection.file) hFull
    obtain ⟨resumed, hRun, hResumed⟩ := Option.map_eq_some_iff.mp hRest
    refine ⟨resumed, ?_, congrArg File.content hResumed, congrArg File.history hResumed, ?_⟩
    · rw [hRerun, hFile]
      exact hRun
    · rw [hResumed, (run_spec hFull).1, hEffects, hAll, List.append_assoc]
      rfl

end Crash

theorem resumes_exactly_once_iff {full crashed : Connection σ} {k : Nat}
    (hFull : runMigrations migrations supported file = some full)
    (hCrashed : interrupted migrations supported file k = some crashed) :
    ResumesExactlyOnce migrations supported file full crashed ↔
      Resumable migrations supported file k := by
  rw [runMigrations] at hFull
  rw [interrupted] at hCrashed
  rw [Resumable]
  cases hOps : operations migrations supported file with
  | error error => rw [hOps] at hFull; cases hFull
  | ok ops =>
    rw [hOps] at hFull hCrashed
    dsimp only at hFull hCrashed ⊢
    obtain ⟨hVersion, hSupported, hEq⟩ := operations_eq_ok hOps
    subst hEq
    have hle := le_requiredGeneration (migrations.map Migration.fence) file.userVersion
    rw [run_append] at hFull
    obtain ⟨settled, hPrelude, hPending⟩ := Option.bind_eq_some_iff.mp hFull
    have hRange := range_of_run_prelude hle hVersion hPrelude
    rw [File.open, run_prelude hle hRange] at hPrelude
    cases hPrelude
    rw [List.take_append] at hCrashed ⊢
    by_cases hk : k < (prelude (σ := σ) (requiredGeneration (migrations.map Migration.fence)
        file.userVersion) file.userVersion).length
    · rw [Nat.sub_eq_zero_of_le hk.le, List.take_zero, List.append_nil] at hCrashed ⊢
      obtain ⟨hRecorded, hDirty⟩ := prelude_quiet (σ := σ) (requiredGeneration
        (migrations.map Migration.fence) file.userVersion) file.userVersion k
      rw [hRecorded]
      refine iff_of_true ?_ ⟨hDirty, rfl⟩
      refine resumes_of_prelude rfl hVersion hSupported hRange ?_ hCrashed
      rw [runMigrations_eq rfl hVersion hSupported hRange]
      exact hPending
    · rw [List.take_of_length_le (not_lt.mp hk)] at hCrashed ⊢
      obtain ⟨before, after, partway, rest, hSplit, hTake, hAfter, hStatements⟩ :=
        take_flatMap (pending migrations file) (k - (prelude (σ := σ) (requiredGeneration
          (migrations.map Migration.fence) file.userVersion) file.userVersion).length)
      rw [hTake] at hCrashed ⊢
      rw [run_append, File.open, run_prelude hle hRange, Option.bind_some, run_append] at hCrashed
      obtain ⟨recorded, hRecorded, hPartway⟩ := Option.bind_eq_some_iff.mp hCrashed
      have hNodup : ((before ++ after).map Migration.version).Nodup := by
        have hRows := (nodup_of_run hPending).1
        rw [recorded_flatMap, List.map_map, hSplit] at hRows
        exact hRows
      have hRest : run exec recorded (after.flatMap Migration.operations) = some full := by
        rw [hSplit, List.flatMap_append, run_append, hRecorded, Option.bind_some] at hPending
        exact hPending
      have hCount : (Operation.recorded (prelude (requiredGeneration (migrations.map Migration.fence)
          file.userVersion) file.userVersion ++
            (before.flatMap Migration.operations ++ partway))).length = before.length := by
        rw [Operation.recorded_append, Operation.recorded_append, recorded_flatMap,
          recorded_of_isStatement hStatements, recorded_prelude, List.nil_append, List.append_nil,
          List.length_map]
      have hDirty : Operation.dirty false (prelude (requiredGeneration (migrations.map Migration.fence)
          file.userVersion) file.userVersion ++ (before.flatMap Migration.operations ++ partway)) =
          Operation.dirty false partway := by
        rw [Operation.dirty_append, dirty_prelude, Operation.dirty_append, dirty_flatMap]
      rw [hCount, hDirty, hSplit, List.take_left' rfl, List.drop_left' rfl,
        ← (run_spec hRecorded).2.1]
      exact resumes_iff_of_partway hSupported hRange (requiredGeneration_idem _ _) hSplit hNodup
        hRecorded hStatements hPartway hRest

theorem resumes_exactly_once_iff_before_create :
    ResumesExactlyOnce [generationOneFixture] 1 ⟨none, 0, none, []⟩
      ⟨⟨some ["migrated"], 1, some [⟨1001, "generation_one_fixture"⟩],
        [⟨1001, 0, true⟩, ⟨1001, 1, true⟩]⟩, true⟩
      ⟨⟨none, 1, some [], []⟩, true⟩ :=
  (resumes_exactly_once_iff (k := 3) rfl rfl).mpr ⟨rfl, rfl⟩

/-- The process dies between the two statements of the fixture: `CREATE TABLE` fails the next time. -/
theorem interrupted_migration_not_resumed :
    ¬ ∀ (migrations : List (Migration (Option (List String)))) (supportedWriterGeneration : Int)
      (file : File (Option (List String))) (full crashed : Connection (Option (List String))) (k : Nat),
      runMigrations migrations supportedWriterGeneration file = some full →
      interrupted migrations supportedWriterGeneration file k = some crashed →
      ResumesExactlyOnce migrations supportedWriterGeneration file full crashed := by
  intro h
  obtain ⟨resumed, hRun, -⟩ := h [generationOneFixture] 1 ⟨none, 0, none, []⟩ _ _ 4 rfl rfl
  cases hRun

end Exosuit.Migrations
