import Exosuit.Storage.Compatibility

/-!
# The migration runner

`run_migrations_with_hook` as the list of statements it sends to the
connection. Every statement commits on its own, so the process may die between
any two of them; what survives is the database file. A block that a migration
puts between `BEGIN` and `COMMIT` counts as one statement, since it survives as
a whole or not at all.
-/

namespace Exosuit.Migrations

open Lib Compatibility

universe u

/-- A statement of a migration file, over the schema and the rows `σ` of the project tables. -/
inductive Statement (σ : Type u)
  | pragmaForeignKeys (on : Bool)
  | execute (apply : Bool → σ → Option σ)

structure Migration (σ : Type u) where
  version : Nat
  name : String
  sql : List (Statement σ)
  requiredWriterGeneration : Int

structure HistoryRow where
  version : Nat
  name : String
deriving DecidableEq, Repr

/-- A statement that took effect, and the foreign-key setting it ran under. -/
structure Effect where
  version : Nat
  statement : Nat
  foreignKeys : Bool
deriving DecidableEq, Repr

/-- The database file. `effects` is no part of it: it remembers which statements
have taken effect in the file, oldest first. -/
structure File (σ : Type u) where
  content : σ
  userVersion : Int
  history : Option (List HistoryRow)
  effects : List Effect
deriving DecidableEq, Repr

structure Connection (σ : Type u) where
  file : File σ
  foreignKeys : Bool
deriving DecidableEq, Repr

inductive Operation (σ : Type u)
  | setDatabaseGeneration (generation : Int)
  | enableForeignKeys
  | createSchemaHistory
  | statement (version index : Nat) (sql : Statement σ)
  | recordMigration (row : HistoryRow)

variable {σ : Type u}

/-- `open_configured_connection` on what the previous process left. -/
def File.open (file : File σ) : Connection σ := ⟨file, true⟩

def File.appliedVersions (file : File σ) : List Nat :=
  (file.history.getD []).map HistoryRow.version

def Migration.row (migration : Migration σ) : HistoryRow := ⟨migration.version, migration.name⟩

def Migration.fence (migration : Migration σ) : Compatibility.Migration :=
  ⟨migration.version, migration.requiredWriterGeneration⟩

def pending (migrations : List (Migration σ)) (file : File σ) : List (Migration σ) :=
  migrations.filter fun migration => !file.appliedVersions.contains migration.version

def statements (version : Nat) : Nat → List (Statement σ) → List (Operation σ)
  | _, [] => []
  | index, sql :: rest => .statement version index sql :: statements version (index + 1) rest

def Migration.operations (migration : Migration σ) : List (Operation σ) :=
  statements migration.version 0 migration.sql ++ [.recordMigration migration.row]

/-- What the run does before the first pending migration. -/
def prelude (requiredGeneration currentGeneration : Int) : List (Operation σ) :=
  (if requiredGeneration > currentGeneration then [.setDatabaseGeneration requiredGeneration]
    else []) ++ [.enableForeignKeys, .createSchemaHistory]

/-- The statements of `run_migrations_with_hook` on a database, in order. -/
def operations (migrations : List (Migration σ)) (supportedWriterGeneration : Int)
    (file : File σ) : Except WriterCompatibilityError (List (Operation σ)) :=
  match validateDatabaseGeneration file.userVersion with
  | .error error => .error error
  | .ok currentGeneration =>
    let required := requiredGeneration (migrations.map Migration.fence) currentGeneration
    if required > supportedWriterGeneration then
      .error (.incompatible required supportedWriterGeneration .database)
    else .ok (prelude required currentGeneration ++
      (pending migrations file).flatMap Migration.operations)

/-- One statement on the connection; `none` when SQLite refuses it. -/
def exec (c : Connection σ) : Operation σ → Option (Connection σ)
  | .setDatabaseGeneration generation =>
    if 0 ≤ generation ∧ generation ≤ maxWriterGeneration then
      some { c with file := { c.file with userVersion := generation } }
    else none
  | .enableForeignKeys => some { c with foreignKeys := true }
  | .createSchemaHistory =>
    some { c with file := { c.file with history := some (c.file.history.getD []) } }
  | .statement _ _ (.pragmaForeignKeys on) => some { c with foreignKeys := on }
  | .statement version index (.execute apply) =>
    (apply c.foreignKeys c.file.content).map fun content =>
      { c with file := { c.file with
          content := content
          effects := c.file.effects ++ [⟨version, index, c.foreignKeys⟩] } }
  | .recordMigration row =>
    -- version is the primary key of __schema_history
    match c.file.history with
    | none => none
    | some rows =>
      if row.version ∈ rows.map HistoryRow.version then none
      else some { c with file := { c.file with history := some (rows ++ [row]) } }

def runMigrations (migrations : List (Migration σ)) (supportedWriterGeneration : Int)
    (file : File σ) : Option (Connection σ) :=
  match operations migrations supportedWriterGeneration file with
  | .error _ => none
  | .ok operations => run exec file.open operations

/-- The connection when the process dies after `k` statements of a run that gets that far. -/
def interrupted (migrations : List (Migration σ)) (supportedWriterGeneration : Int)
    (file : File σ) (k : Nat) : Option (Connection σ) :=
  match operations migrations supportedWriterGeneration file with
  | .error _ => some file.open
  | .ok operations => run exec file.open (operations.take k)

/-- The effects of some statements, and of some migrations, from a foreign-key setting on. -/
def Operation.effects : Bool → List (Operation σ) → List Effect
  | _, [] => []
  | _, .enableForeignKeys :: rest => Operation.effects true rest
  | _, .statement _ _ (.pragmaForeignKeys on) :: rest => Operation.effects on rest
  | foreignKeys, .statement version index (.execute _) :: rest =>
    ⟨version, index, foreignKeys⟩ :: Operation.effects foreignKeys rest
  | foreignKeys, _ :: rest => Operation.effects foreignKeys rest

def Operation.foreignKeys : Bool → List (Operation σ) → Bool
  | setting, [] => setting
  | _, .enableForeignKeys :: rest => Operation.foreignKeys true rest
  | _, .statement _ _ (.pragmaForeignKeys on) :: rest => Operation.foreignKeys on rest
  | setting, _ :: rest => Operation.foreignKeys setting rest

def Operation.recorded : List (Operation σ) → List HistoryRow
  | [] => []
  | .recordMigration row :: rest => row :: Operation.recorded rest
  | _ :: rest => Operation.recorded rest

/-- A statement that changes the database has run since the last history row. -/
def Operation.dirty : Bool → List (Operation σ) → Bool
  | dirty, [] => dirty
  | _, .recordMigration _ :: rest => Operation.dirty false rest
  | _, .statement _ _ (.execute _) :: rest => Operation.dirty true rest
  | dirty, _ :: rest => Operation.dirty dirty rest

namespace Operation

variable (foreignKeys : Bool) (o : Operation σ) (ops ops' : List (Operation σ))

theorem effects_cons : effects foreignKeys (o :: ops) =
    effects foreignKeys [o] ++ effects (Operation.foreignKeys foreignKeys [o]) ops := by
  cases o with
  | statement version index sql => cases sql <;> rfl
  | _ => rfl

theorem foreignKeys_cons : Operation.foreignKeys foreignKeys (o :: ops) =
    Operation.foreignKeys (Operation.foreignKeys foreignKeys [o]) ops := by
  cases o with
  | statement version index sql => cases sql <;> rfl
  | _ => rfl

theorem effects_append : effects foreignKeys (ops ++ ops') =
    effects foreignKeys ops ++ effects (Operation.foreignKeys foreignKeys ops) ops' := by
  induction ops generalizing foreignKeys with
  | nil => rfl
  | cons o ops ih =>
    rw [List.cons_append, effects_cons, ih, ← List.append_assoc, ← effects_cons,
      ← foreignKeys_cons]

theorem length_effects (setting : Bool) :
    (effects foreignKeys ops).length = (effects setting ops).length := by
  induction ops generalizing foreignKeys setting with
  | nil => rfl
  | cons o ops ih =>
    rw [effects_cons, effects_cons setting, List.length_append, List.length_append, ih]
    congr 1
    cases o with
    | statement version index sql => cases sql <;> rfl
    | _ => rfl

theorem recorded_append : recorded (ops ++ ops') = recorded ops ++ recorded ops' := by
  induction ops with
  | nil => rfl
  | cons o ops ih => cases o <;> simp only [List.cons_append, recorded, ih]

theorem dirty_append (dirty : Bool) :
    Operation.dirty dirty (ops ++ ops') = Operation.dirty (Operation.dirty dirty ops) ops' := by
  induction ops generalizing dirty with
  | nil => rfl
  | cons o ops ih =>
    cases o with
    | statement version index sql => cases sql <;> exact ih _
    | _ => exact ih _

theorem dirty_true (h : recorded ops = []) : Operation.dirty true ops = true := by
  induction ops with
  | nil => rfl
  | cons o ops ih =>
    cases o with
    | recordMigration row => exact absurd h (List.cons_ne_nil _ _)
    | statement version index sql => cases sql <;> exact ih h
    | _ => exact ih h

/-- Without a history row, statements are clean when they have no effect. -/
theorem dirty_eq_false_iff (h : recorded ops = []) :
    Operation.dirty false ops = false ↔ effects foreignKeys ops = [] := by
  induction ops generalizing foreignKeys with
  | nil => exact ⟨fun _ => rfl, fun _ => rfl⟩
  | cons o ops ih =>
    cases o with
    | recordMigration row => exact absurd h (List.cons_ne_nil _ _)
    | statement version index sql =>
      cases sql with
      | pragmaForeignKeys on => exact ih on h
      | execute apply =>
        have hDirty : Operation.dirty true ops = true := dirty_true ops h
        constructor
        · intro hClean
          exact absurd (hDirty.symm.trans hClean) (by decide)
        · intro hNone
          exact absurd hNone (List.cons_ne_nil _ _)
    | enableForeignKeys => exact ih true h
    | _ => exact ih foreignKeys h

end Operation

/-- What one statement does to the parts of the connection that it can reach. -/
theorem exec_spec {c c' : Connection σ} {o : Operation σ} (h : exec c o = some c') :
    c'.file.effects = c.file.effects ++ Operation.effects c.foreignKeys [o] ∧
    c'.foreignKeys = Operation.foreignKeys c.foreignKeys [o] ∧
    c'.file.history.getD [] = c.file.history.getD [] ++ Operation.recorded [o] := by
  cases o with
  | setDatabaseGeneration generation =>
    rw [exec] at h
    split at h
    · cases h
      exact ⟨(List.append_nil _).symm, rfl, (List.append_nil _).symm⟩
    · cases h
  | enableForeignKeys =>
    cases h
    exact ⟨(List.append_nil _).symm, rfl, (List.append_nil _).symm⟩
  | createSchemaHistory =>
    cases h
    exact ⟨(List.append_nil _).symm, rfl, (List.append_nil _).symm⟩
  | statement version index sql =>
    cases sql with
    | pragmaForeignKeys on =>
      cases h
      exact ⟨(List.append_nil _).symm, rfl, (List.append_nil _).symm⟩
    | execute apply =>
      obtain ⟨content, -, rfl⟩ := Option.map_eq_some_iff.mp h
      exact ⟨rfl, rfl, (List.append_nil _).symm⟩
  | recordMigration row =>
    rw [exec] at h
    cases hRows : c.file.history with
    | none => rw [hRows] at h; cases h
    | some rows =>
      rw [hRows] at h
      dsimp only at h
      split at h
      · cases h
      · cases h
        exact ⟨(List.append_nil _).symm, rfl, rfl⟩

theorem run_spec {c c' : Connection σ} {ops : List (Operation σ)} (h : run exec c ops = some c') :
    c'.file.effects = c.file.effects ++ Operation.effects c.foreignKeys ops ∧
    c'.foreignKeys = Operation.foreignKeys c.foreignKeys ops ∧
    c'.file.history.getD [] = c.file.history.getD [] ++ Operation.recorded ops := by
  induction ops generalizing c with
  | nil =>
    cases h
    exact ⟨(List.append_nil _).symm, rfl, (List.append_nil _).symm⟩
  | cons o ops ih =>
    obtain ⟨d, hExec, hRun⟩ := (run_cons_eq_some exec).mp h
    obtain ⟨hEffects, hKeys, hHistory⟩ := exec_spec hExec
    obtain ⟨ihEffects, ihKeys, ihHistory⟩ := ih hRun
    refine ⟨?_, ?_, ?_⟩
    · rw [ihEffects, hEffects, hKeys, List.append_assoc, ← Operation.effects_cons]
    · rw [ihKeys, hKeys, ← Operation.foreignKeys_cons]
    · rw [ihHistory, hHistory, List.append_assoc, ← Operation.recorded_append, List.singleton_append]

theorem run_congr {file : File σ} {foreignKeys setting : Bool} {ops : List (Operation σ)}
    (h : Operation.effects foreignKeys ops = Operation.effects setting ops) :
    (run exec ⟨file, foreignKeys⟩ ops).map Connection.file =
      (run exec ⟨file, setting⟩ ops).map Connection.file := by
  induction ops generalizing file foreignKeys setting with
  | nil => rfl
  | cons o ops ih =>
    rw [run_cons, run_cons]
    cases o with
    | setDatabaseGeneration generation =>
      rw [exec, exec]
      split
      · exact ih h
      · rfl
    | enableForeignKeys => rfl
    | createSchemaHistory => exact ih h
    | statement version index sql =>
      cases sql with
      | pragmaForeignKeys on => rfl
      | execute apply =>
        have hKeys : foreignKeys = setting := congrArg Effect.foreignKeys (List.cons.inj h).1
        rw [hKeys]
    | recordMigration row =>
      rw [exec, exec]
      dsimp only
      split
      · rfl
      · split
        · rfl
        · exact ih h

/-- `GENERATION_ONE_MIGRATION` of the source's tests, over one table of texts. -/
def generationOneFixture : Migration (Option (List String)) where
  version := 1001
  name := "generation_one_fixture"
  sql := [
    .execute fun _ table => match table with
      | none => some (some [])
      | some _ => none,
    .execute fun _ table => table.map fun rows => some (rows ++ ["migrated"])]
  requiredWriterGeneration := 1

end Exosuit.Migrations
