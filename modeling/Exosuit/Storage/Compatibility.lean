import Mathlib.Data.Int.Order.Basic
import Mathlib.Logic.Function.Basic
import Exosuit.Lib.Run
import Exosuit.Lib.AdvisoryLock

/-!
# Cross-version writer compatibility

Any number of processes, each built with its own supported generation and its
own migrations, open one canonical database. A process is one opening attempt
and the connection it yields; its control point records where it stands
between two accesses to the shared state (the database file and the lock file).
-/

namespace Exosuit.Compatibility

open Lib

universe u

def maxWriterGeneration : Int := 2147483647

inductive StateSurface
  | database
  | projection
deriving DecidableEq, Repr

inductive WriterCompatibilityError
  | incompatible (requiredGeneration supportedGeneration : Int) (surface : StateSurface)
  | metadataInvalid (surface : StateSurface) (reason : String)
deriving DecidableEq, Repr

structure Migration where
  version : Nat
  requiredWriterGeneration : Int
deriving DecidableEq, Repr

/-- What a process was compiled with. -/
structure Binary where
  supportedWriterGeneration : Int
  migrations : List Migration

/-- The parts of the database file that the fence reads: `PRAGMA user_version`
and the versions listed in `__schema_history`. -/
structure DatabaseFile where
  userVersion : Int
  history : List Nat
deriving DecidableEq, Repr

def validateDatabaseGeneration (generation : Int) : Except WriterCompatibilityError Int :=
  if 0 ≤ generation ∧ generation ≤ maxWriterGeneration then .ok generation
  else .error (.metadataInvalid .database
    s!"generation {generation} is outside 0..={maxWriterGeneration}")

/-- A missing or empty database has generation zero. -/
def probeDatabaseGeneration : Option DatabaseFile → Except WriterCompatibilityError Int
  | none => .ok 0
  | some file => validateDatabaseGeneration file.userVersion

def ensureSupported (supported required : Int) (surface : StateSurface) :
    Except WriterCompatibilityError Unit :=
  if required > supported then .error (.incompatible required supported surface) else .ok ()

/-- The probe and the check that follows it at every fence. -/
def preflight (b : Binary) (file : Option DatabaseFile) : Except WriterCompatibilityError Int := do
  let generation ← probeDatabaseGeneration file
  ensureSupported b.supportedWriterGeneration generation .database
  pure generation

/-- `has_pending_migrations`, with the missing database of `database_has_pending_migrations`. -/
def databaseHasPendingMigrations (b : Binary) : Option DatabaseFile → Bool
  | none => true
  | some file => b.migrations.any fun migration => !file.history.contains migration.version

/-- The generation that `run_migrations` fences at before any migration effect. -/
def requiredGeneration (migrations : List Migration) (currentGeneration : Int) : Int :=
  match (migrations.map Migration.requiredWriterGeneration).max? with
  | none => currentGeneration
  | some requiredGeneration => max requiredGeneration currentGeneration

theorem validateDatabaseGeneration_eq_ok {generation current : Int} :
    validateDatabaseGeneration generation = .ok current ↔
      generation = current ∧ 0 ≤ generation ∧ generation ≤ maxWriterGeneration := by
  rw [validateDatabaseGeneration]
  split
  · rename_i hRange
    exact ⟨fun h => ⟨Except.ok.inj h, hRange⟩, fun h => congrArg _ h.1⟩
  · rename_i hRange
    exact ⟨fun h => (nomatch h), fun h => absurd h.2 hRange⟩

theorem le_requiredGeneration (fences : List Migration) (current : Int) :
    current ≤ requiredGeneration fences current := by
  rw [requiredGeneration]
  split
  · exact le_refl _
  · exact le_max_right _ _

theorem requiredGeneration_idem (fences : List Migration) (current : Int) :
    requiredGeneration fences (requiredGeneration fences current) =
      requiredGeneration fences current := by
  rw [requiredGeneration, requiredGeneration]
  split
  · rfl
  · exact max_eq_right (le_max_left _ _)

def pendingMigrations (migrations : List Migration) (history : List Nat) : List Migration :=
  migrations.filter fun migration => !history.contains migration.version

/-- What an opening does once its migrations have run. -/
inductive Purpose
  /-- `migrate_under_exclusive_lease`, which gives the lease back -/
  | reopen
  /-- `open_database_connection_with_exclusive_authority` -/
  | keep
  /-- `open_fenced_connection_for_import`, with or without an authority -/
  | import (projectionGeneration : Int)
deriving DecidableEq, Repr

/-- The openings that stay on the shared lease. -/
inductive OpenKind
  | database
  | physical
  | existing
  | readOnly
deriving DecidableEq, Repr

inductive Phase
  | idle
  | sharedWait (kind : OpenKind)
  | sharedProbe (kind : OpenKind)
  | sharedOpen (kind : OpenKind)
  | sharedPending
  | upgradeWait
  | importWait (projectionGeneration : Int)
  | authorityWait
  | exclusiveProbe (purpose : Purpose)
  | authorityProbe
  | authority
  | exclusiveOpen (purpose : Purpose)
  | migrateRead (purpose : Purpose)
  | migrateRaise (purpose : Purpose) (requiredGeneration : Int) (pending : List Migration)
  | migrateApply (purpose : Purpose) (pending : List Migration)
  | settle (purpose : Purpose)
  | settleRaise (resultingGeneration : Int)
  | reacquireWait
  | reacquireProbe
  | live (mode : LeaseMode)
deriving DecidableEq, Repr

def Phase.lease : Phase → Option LeaseMode
  | .idle | .sharedWait _ | .upgradeWait | .importWait _ | .authorityWait | .reacquireWait => none
  | .sharedProbe _ | .sharedOpen _ | .sharedPending | .reacquireProbe => some .shared
  | .exclusiveProbe _ | .authorityProbe | .authority | .exclusiveOpen _ | .migrateRead _
  | .migrateRaise _ _ _ | .migrateApply _ _ | .settle _ | .settleRaise _ => some .exclusive
  | .live mode => some mode

structure World (ι : Type u) where
  file : Option DatabaseFile
  lock : AdvisoryLock ι
  phase : ι → Phase

def World.generation {ι : Type u} (w : World ι) : Int :=
  match w.file with
  | none => 0
  | some file => file.userVersion

/-- What a process may be asked to do, or do by itself. -/
inductive Event
  | openDatabase (kind : OpenKind)
  | openForImport (projectionGeneration : Int)
  | acquireAuthority
  | useAuthorityToOpen
  | useAuthorityToImport (projectionGeneration : Int)
  | advance
  /-- a lock timeout, an I/O error, a closed connection or the death of the process -/
  | release
deriving DecidableEq, Repr

variable {ι : Type u} [DecidableEq ι]

def World.goto (w : World ι) (p : ι) (phase : Phase) : World ι :=
  { w with phase := Function.update w.phase p phase }

/-- Drop the connection and the lease, in the order of the source's fields. -/
def World.abandon (w : World ι) (p : ι) : World ι :=
  { w with lock := w.lock.unlock p, phase := Function.update w.phase p .idle }

/-- Continue at `phase` if the check passed, else return its error to the caller. -/
def World.guard {α : Type} (w : World ι) (p : ι) (check : Except WriterCompatibilityError α)
    (phase : α → Phase) : World ι :=
  match check with
  | .ok a => w.goto p (phase a)
  | .error _ => w.abandon p

def World.lockShared (w : World ι) (p : ι) (phase : Phase) : Option (World ι) :=
  (w.lock.tryShared p).map fun lock => { w with lock, phase := Function.update w.phase p phase }

def World.lockExclusive (w : World ι) (p : ι) (phase : Phase) : Option (World ι) :=
  (w.lock.tryExclusive p).map fun lock => { w with lock, phase := Function.update w.phase p phase }

/-- `open_configured_connection`: the file exists afterwards. -/
def World.create (w : World ι) : World ι :=
  { w with file := some (w.file.getD ⟨0, []⟩) }

/-- `set_database_generation` on the open connection. -/
def World.setGeneration (w : World ι) (generation : Int) : World ι :=
  { w with file := w.file.map fun file => { file with userVersion := generation } }

def World.recordMigration (w : World ι) (migration : Migration) : World ι :=
  { w with file := w.file.map fun file => { file with history := migration.version :: file.history } }

/-- The next access of `p` to the shared state. -/
def World.advance (b : Binary) (w : World ι) (p : ι) : Option (World ι) :=
  match w.phase p with
  | .idle | .authority | .live _ => none
  | .sharedWait kind => w.lockShared p (.sharedProbe kind)
  | .sharedProbe kind => some (w.guard p (preflight b w.file) fun _ =>
      if kind = .database then .sharedPending else .sharedOpen kind)
  | .sharedPending =>
    if databaseHasPendingMigrations b w.file then
      some { w with lock := w.lock.unlock p, phase := Function.update w.phase p .upgradeWait }
    else some (w.goto p (.sharedOpen .database))
  | .sharedOpen kind =>
    -- only `open_configured_connection` writes the header of a new file
    some ((if kind = .database then w.create else w).goto p (.live .shared))
  | .upgradeWait => w.lockExclusive p (.exclusiveProbe .reopen)
  | .importWait projectionGeneration => w.lockExclusive p (.exclusiveProbe (.import projectionGeneration))
  | .authorityWait => w.lockExclusive p .authorityProbe
  | .authorityProbe => some (w.guard p (preflight b w.file) fun _ => .authority)
  | .exclusiveProbe purpose => some (w.guard p (preflight b w.file) fun _ => .exclusiveOpen purpose)
  | .exclusiveOpen purpose => some (w.create.goto p (.migrateRead purpose))
  | .migrateRead purpose =>
    match w.file with
    | none => some (w.abandon p)
    | some file =>
      match validateDatabaseGeneration file.userVersion with
      | .error _ => some (w.abandon p)
      | .ok currentGeneration =>
        let required := requiredGeneration b.migrations currentGeneration
        let pending := pendingMigrations b.migrations file.history
        if required > b.supportedWriterGeneration then some (w.abandon p)
        else if required > currentGeneration then
          -- the compatibility floor is committed before any migration effect
          some (w.goto p (.migrateRaise purpose required pending))
        else some (w.goto p (.migrateApply purpose pending))
  | .migrateRaise purpose required pending =>
    if 0 ≤ required ∧ required ≤ maxWriterGeneration then
      some ((w.setGeneration required).goto p (.migrateApply purpose pending))
    else some (w.abandon p)
  | .migrateApply purpose [] => some (w.goto p (.settle purpose))
  | .migrateApply purpose (migration :: pending) =>
    some ((w.recordMigration migration).goto p (.migrateApply purpose pending))
  | .settle .reopen =>
    let w' := w.guard p (preflight b w.file) fun _ => .reacquireWait
    some { w' with lock := w'.lock.unlock p }
  | .settle .keep => some (w.guard p (preflight b w.file) fun _ => .live .exclusive)
  | .settle (.import projectionGeneration) =>
    some (w.guard p (probeDatabaseGeneration w.file) fun generation =>
      .settleRaise (max generation projectionGeneration))
  | .settleRaise resultingGeneration =>
    if 0 ≤ resultingGeneration ∧ resultingGeneration ≤ maxWriterGeneration then
      some ((w.setGeneration resultingGeneration).goto p (.live .exclusive))
    else some (w.abandon p)
  | .reacquireWait => w.lockShared p .reacquireProbe
  | .reacquireProbe => some (w.guard p (preflight b w.file) fun _ => .sharedOpen .database)

/-- One step of process `p`. -/
def step (binary : ι → Binary) (w : World ι) : ι × Event → Option (World ι)
  | (p, .openDatabase kind) =>
    if w.phase p = .idle then
      if (kind = .existing ∨ kind = .readOnly) ∧ w.file = none then some w
      else some (w.guard p (preflight (binary p) w.file) fun _ => .sharedWait kind)
    else none
  | (p, .openForImport projectionGeneration) =>
    if w.phase p = .idle then
      some (w.guard p (do
        ensureSupported (binary p).supportedWriterGeneration projectionGeneration .projection
        preflight (binary p) w.file) fun _ => .importWait projectionGeneration)
    else none
  | (p, .acquireAuthority) =>
    if w.phase p = .idle then
      some (w.guard p (preflight (binary p) w.file) fun _ => .authorityWait)
    else none
  | (p, .useAuthorityToOpen) =>
    if w.phase p = .authority then some (w.goto p (.exclusiveProbe .keep)) else none
  | (p, .useAuthorityToImport projectionGeneration) =>
    if w.phase p = .authority then
      some (w.guard p
        (ensureSupported (binary p).supportedWriterGeneration projectionGeneration .projection)
        fun _ => .exclusiveProbe (.import projectionGeneration))
    else none
  | (p, .advance) => w.advance (binary p) p
  | (p, .release) => some (w.abandon p)

/-- Nobody has opened the database yet. -/
def World.initial (file : Option DatabaseFile) : World ι where
  file := file
  lock := .unlocked
  phase := fun _ => .idle

end Exosuit.Compatibility
