import Exosuit.Storage.Compatibility

/-!
# Safety of the writer fence

A checked control point is one that a process reaches only by probing the
generation while it holds its lease. The invariant is that the generation stays
supported at every checked control point: it is raised by an exclusive holder
alone, and then no other process has a lease, hence none is at such a point.
-/

namespace Exosuit.Compatibility

open Lib

universe u

/-- The generation was probed and found supported since the lease was taken. -/
def Phase.checked : Phase → Bool
  | .sharedOpen _ | .sharedPending | .authority | .exclusiveOpen _ | .migrateRead _
  | .migrateRaise _ _ _ | .migrateApply _ _ | .settle _ | .settleRaise _ | .live _ => true
  | _ => false

/-- The generation a process has decided to write. -/
def Phase.target : Phase → Option Int
  | .migrateRaise _ required _ => some required
  | .settleRaise resulting => some resulting
  | _ => none

def Purpose.projection : Purpose → Option Int
  | .import projectionGeneration => some projectionGeneration
  | _ => none

/-- The projection generation that an import carries to its last step. -/
def Phase.projection : Phase → Option Int
  | .importWait projectionGeneration => some projectionGeneration
  | .exclusiveProbe purpose | .exclusiveOpen purpose | .migrateRead purpose
  | .migrateRaise purpose _ _ | .migrateApply purpose _ | .settle purpose => purpose.projection
  | _ => none

/-- What a control point promises about the generation. -/
structure Phase.Ok (b : Binary) (generation : Int) (phase : Phase) : Prop where
  checked : phase.checked = true → generation ≤ b.supportedWriterGeneration
  target : ∀ g, phase.target = some g → generation ≤ g ∧ g ≤ b.supportedWriterGeneration
  projection : ∀ g, phase.projection = some g → g ≤ b.supportedWriterGeneration

/-- The promise of a control point without a lease does not mention the generation. -/
theorem Phase.Ok.of_unleased {b : Binary} {g g' : Int} {phase : Phase}
    (h : phase.Ok b g) (hLease : phase.lease = none) : phase.Ok b g' := by
  refine ⟨?_, ?_, h.projection⟩
  · intro hChecked
    cases phase <;> simp_all [Phase.checked, Phase.lease]
  · intro g hTarget
    cases phase <;> simp_all [Phase.target, Phase.lease]

theorem Phase.Ok.of_checked {b : Binary} {g : Int} {phase : Phase}
    (hle : g ≤ b.supportedWriterGeneration) (hTarget : phase.target = none)
    (hProjection : ∀ n, phase.projection = some n → n ≤ b.supportedWriterGeneration) :
    phase.Ok b g :=
  ⟨fun _ => hle, fun _ h => absurd (hTarget.symm.trans h) nofun, hProjection⟩

theorem Phase.Ok.of_unchecked {b : Binary} {g : Int} {phase : Phase}
    (hChecked : phase.checked = false) (hTarget : phase.target = none)
    (hProjection : ∀ n, phase.projection = some n → n ≤ b.supportedWriterGeneration) :
    phase.Ok b g :=
  ⟨fun h => absurd (hChecked.symm.trans h) nofun,
    fun _ h => absurd (hTarget.symm.trans h) nofun, hProjection⟩

theorem Phase.Ok.idle {b : Binary} {g : Int} : Phase.idle.Ok b g :=
  .of_unchecked rfl rfl fun _ h => by cases h

theorem ensureSupported_eq_ok {supported required : Int} {surface : StateSurface} {u : Unit}
    (h : ensureSupported supported required surface = .ok u) : required ≤ supported := by
  unfold ensureSupported at h
  split at h
  · cases h
  · omega

theorem probeDatabaseGeneration_eq_ok {file : Option DatabaseFile} {g : Int}
    (h : probeDatabaseGeneration file = .ok g) : g = (file.map DatabaseFile.userVersion).getD 0 := by
  cases file with
  | none => cases h; rfl
  | some file =>
    simp only [probeDatabaseGeneration, validateDatabaseGeneration] at h
    split at h
    · cases h; rfl
    · cases h

variable {ι : Type u}

theorem World.generation_eq (w : World ι) :
    w.generation = (w.file.map DatabaseFile.userVersion).getD 0 := by
  unfold World.generation
  cases w.file <;> rfl

theorem generation_of_probe {w : World ι} {g : Int}
    (h : probeDatabaseGeneration w.file = .ok g) : w.generation = g := by
  rw [w.generation_eq, probeDatabaseGeneration_eq_ok h]

theorem generation_le_of_preflight {b : Binary} {w : World ι} {g : Int}
    (h : preflight b w.file = .ok g) : w.generation ≤ b.supportedWriterGeneration := by
  unfold preflight at h
  cases hProbe : probeDatabaseGeneration w.file with
  | error e => rw [hProbe] at h; cases h
  | ok g' =>
    rw [hProbe] at h
    cases hEnsure : ensureSupported b.supportedWriterGeneration g' .database with
    | error e => simp [bind, Except.bind, hEnsure] at h
    | ok _ =>
      rw [generation_of_probe hProbe]
      exact ensureSupported_eq_ok hEnsure

@[simp] theorem generation_create (w : World ι) : w.create.generation = w.generation := by
  unfold World.create World.generation
  cases w.file <;> rfl

@[simp] theorem generation_recordMigration (w : World ι) (m : Migration) :
    (w.recordMigration m).generation = w.generation := by
  unfold World.recordMigration World.generation
  cases w.file <;> rfl

theorem generation_setGeneration (w : World ι) (g : Int) :
    (w.setGeneration g).generation = g ∨ (w.setGeneration g).generation = w.generation := by
  unfold World.setGeneration World.generation
  cases w.file with
  | none => exact .inr rfl
  | some file => exact .inl rfl

variable [DecidableEq ι]

@[simp] theorem generation_goto (w : World ι) (p : ι) (phase : Phase) :
    (w.goto p phase).generation = w.generation := rfl

@[simp] theorem generation_guard {α : Type} (w : World ι) (p : ι)
    (check : Except WriterCompatibilityError α) (phase : α → Phase) :
    (w.guard p check phase).generation = w.generation := by
  cases check <;> rfl

theorem generation_lockShared {w w' : World ι} {p : ι} {phase : Phase}
    (h : w.lockShared p phase = some w') : w'.generation = w.generation := by
  obtain ⟨lock, _, rfl⟩ := Option.map_eq_some_iff.mp h
  rfl

theorem generation_lockExclusive {w w' : World ι} {p : ι} {phase : Phase}
    (h : w.lockExclusive p phase = some w') : w'.generation = w.generation := by
  obtain ⟨lock, _, rfl⟩ := Option.map_eq_some_iff.mp h
  rfl

structure Fenced (binary : ι → Binary) (w : World ι) : Prop where
  lease : ∀ p, w.lock.mode p = (w.phase p).lease
  ok : ∀ p, (w.phase p).Ok (binary p) w.generation

variable {binary : ι → Binary} {w w' : World ι} {p : ι}

theorem fenced_initial (file : Option DatabaseFile) : Fenced binary (World.initial file) :=
  ⟨fun p => by simp [World.initial, Phase.lease], fun _ => Phase.Ok.idle⟩

namespace Fenced

theorem of_file (h : Fenced binary w) (hGeneration : w'.generation = w.generation)
    (hLock : w'.lock = w.lock) (hPhase : w'.phase = w.phase) : Fenced binary w' :=
  ⟨fun p => by rw [hLock, hPhase, h.lease p], fun p => by rw [hGeneration, hPhase]; exact h.ok p⟩

theorem move (h : Fenced binary w) {lock : AdvisoryLock ι} {phase : Phase}
    (hMode : ∀ q, lock.mode q = if q = p then phase.lease else w.lock.mode q)
    (hOk : phase.Ok (binary p) w.generation) :
    Fenced binary { w with lock, phase := Function.update w.phase p phase } := by
  constructor
  · intro q
    rw [hMode q]
    by_cases hq : q = p
    · subst hq
      simp
    · simp [hq, h.lease q]
  · intro q
    change (Function.update w.phase p phase q).Ok (binary q) w.generation
    by_cases hq : q = p
    · subst hq
      rwa [Function.update_self]
    · rw [Function.update_of_ne hq]
      exact h.ok q

theorem goto (h : Fenced binary w) {phase : Phase} (hLease : phase.lease = (w.phase p).lease)
    (hOk : phase.Ok (binary p) w.generation) : Fenced binary (w.goto p phase) := by
  refine h.move (fun q => ?_) hOk
  by_cases hq : q = p
  · subst hq
    simp [hLease, h.lease q]
  · simp [hq]

theorem unlock (h : Fenced binary w) {phase : Phase} (hLease : phase.lease = none)
    (hOk : phase.Ok (binary p) w.generation) :
    Fenced binary { w with lock := w.lock.unlock p, phase := Function.update w.phase p phase } :=
  h.move (fun q => by rw [AdvisoryLock.mode_unlock, hLease]) hOk

theorem abandon (h : Fenced binary w) : Fenced binary (w.abandon p) :=
  h.unlock rfl Phase.Ok.idle

theorem guard (h : Fenced binary w) {α : Type} {check : Except WriterCompatibilityError α}
    {phase : α → Phase} (hLease : ∀ a, (phase a).lease = (w.phase p).lease)
    (hOk : ∀ a, check = .ok a → (phase a).Ok (binary p) w.generation) :
    Fenced binary (w.guard p check phase) := by
  cases hCheck : check with
  | ok a => exact h.goto (hLease a) (hOk a hCheck)
  | error e => exact h.abandon

theorem lockShared (h : Fenced binary w) {phase : Phase} (hLock : w.lockShared p phase = some w')
    (hLease : phase.lease = some .shared) (hOk : phase.Ok (binary p) w.generation) :
    Fenced binary w' := by
  obtain ⟨lock, hTry, rfl⟩ := Option.map_eq_some_iff.mp hLock
  exact h.move (fun q => by rw [AdvisoryLock.mode_tryShared hTry, hLease]) hOk

theorem lockExclusive (h : Fenced binary w) {phase : Phase}
    (hLock : w.lockExclusive p phase = some w') (hLease : phase.lease = some .exclusive)
    (hOk : phase.Ok (binary p) w.generation) : Fenced binary w' := by
  obtain ⟨lock, hTry, rfl⟩ := Option.map_eq_some_iff.mp hLock
  exact h.move (fun q => by rw [AdvisoryLock.mode_tryExclusive hTry, hLease]) hOk

theorem raise (h : Fenced binary w) {g : Int} {phase : Phase}
    (hHeld : (w.phase p).lease = some .exclusive) (hTarget : (w.phase p).target = some g)
    (hLease : phase.lease = some .exclusive) (hNone : phase.target = none)
    (hProjection : phase.projection = (w.phase p).projection ∨ phase.projection = none) :
    Fenced binary ((w.setGeneration g).goto p phase) := by
  obtain ⟨hle, hSupported⟩ := (h.ok p).target g hTarget
  have hNew : (w.setGeneration g).generation ≤ (binary p).supportedWriterGeneration := by
    rcases generation_setGeneration w g with hg | hg <;> omega
  constructor
  · intro q
    change w.lock.mode q = (Function.update w.phase p phase q).lease
    by_cases hq : q = p
    · subst hq
      rw [Function.update_self, hLease, h.lease q, hHeld]
    · rw [Function.update_of_ne hq, h.lease q]
  · intro q
    change (Function.update w.phase p phase q).Ok (binary q) (w.setGeneration g).generation
    by_cases hq : q = p
    · subst hq
      rw [Function.update_self]
      refine .of_checked hNew hNone fun n hn => ?_
      rcases hProjection with hp | hp
      · exact (h.ok q).projection n (hp ▸ hn)
      · rw [hp] at hn; cases hn
    · rw [Function.update_of_ne hq]
      refine (h.ok q).of_unleased ?_
      rw [← h.lease q]
      exact AdvisoryLock.mode_eq_none_of_exclusive ((h.lease p).trans hHeld) hq

end Fenced

/-! ## One step -/

theorem Fenced.migrateRead (h : Fenced binary w) {purpose : Purpose}
    (hPhase : w.phase p = .migrateRead purpose) (hStep : w.advance (binary p) p = some w') :
    Fenced binary w' ∧ w'.generation = w.generation := by
  have hOk := h.ok p
  rw [hPhase] at hOk
  simp only [World.advance, hPhase] at hStep
  split at hStep
  · cases hStep
    exact ⟨h.abandon, rfl⟩
  · rename_i file hFile
    split at hStep
    · cases hStep
      exact ⟨h.abandon, rfl⟩
    · rename_i current hCurrent
      have hGeneration : w.generation = current :=
        generation_of_probe (by rw [hFile]; exact hCurrent)
      have hle := le_requiredGeneration (binary p).migrations current
      split at hStep
      · cases hStep
        exact ⟨h.abandon, rfl⟩
      · split at hStep
        · cases hStep
          refine ⟨h.goto (by rw [hPhase]; rfl) ⟨hOk.checked, ?_, hOk.projection⟩, rfl⟩
          intro g hg
          cases hg
          omega
        · cases hStep
          exact ⟨h.goto (by rw [hPhase]; rfl)
            (.of_checked (hOk.checked rfl) rfl hOk.projection), rfl⟩

/-- Every access to the shared state keeps the invariant, and changes the
generation to a target only. -/
theorem Fenced.advance (h : Fenced binary w) (hStep : w.advance (binary p) p = some w') :
    Fenced binary w' ∧ (w'.generation = w.generation ∨
      ((w.phase p).lease = some .exclusive ∧ (w.phase p).target = some w'.generation)) := by
  have hOk := h.ok p
  cases hPhase : w.phase p <;> rw [hPhase] at hOk
  case migrateRead purpose =>
    obtain ⟨hFenced, hGeneration⟩ := h.migrateRead hPhase hStep
    exact ⟨hFenced, .inl hGeneration⟩
  all_goals simp only [World.advance, hPhase] at hStep
  case idle | authority | live => cases hStep
  case sharedWait kind =>
    exact ⟨h.lockShared hStep rfl (.of_unchecked rfl rfl nofun),
      .inl (generation_lockShared hStep)⟩
  case sharedProbe kind =>
    cases hStep
    refine ⟨h.guard (fun _ => ?_) fun _ hCheck => ?_, .inl (by simp)⟩
    · rw [hPhase]
      split <;> rfl
    · have hle := generation_le_of_preflight hCheck
      split <;> exact .of_checked hle rfl nofun
  case sharedPending =>
    split at hStep <;> cases hStep
    · exact ⟨h.unlock rfl (.of_unchecked rfl rfl nofun), .inl rfl⟩
    · exact ⟨h.goto (by rw [hPhase]; rfl)
        (.of_checked (hOk.checked rfl) rfl nofun), .inl rfl⟩
  case sharedOpen kind =>
    cases hStep
    refine ⟨Fenced.goto ?_ ?_ ?_, .inl ?_⟩
    · split
      · exact h.of_file (generation_create w) rfl rfl
      · exact h
    · split <;> simp [World.create, hPhase, Phase.lease]
    · refine .of_checked ?_ rfl nofun
      split <;> simpa using hOk.checked rfl
    · split <;> simp
  case upgradeWait =>
    exact ⟨h.lockExclusive hStep rfl (.of_unchecked rfl rfl nofun),
      .inl (generation_lockExclusive hStep)⟩
  case importWait projectionGeneration =>
    exact ⟨h.lockExclusive hStep rfl (.of_unchecked rfl rfl hOk.projection),
      .inl (generation_lockExclusive hStep)⟩
  case authorityWait =>
    exact ⟨h.lockExclusive hStep rfl (.of_unchecked rfl rfl nofun),
      .inl (generation_lockExclusive hStep)⟩
  case authorityProbe =>
    cases hStep
    refine ⟨h.guard (fun _ => ?_) (fun _ hCheck => ?_), .inl (by simp)⟩
    · rw [hPhase]
      rfl
    · exact .of_checked (generation_le_of_preflight hCheck) rfl nofun
  case exclusiveProbe purpose =>
    cases hStep
    refine ⟨h.guard (fun _ => ?_) (fun _ hCheck => ?_), .inl (by simp)⟩
    · rw [hPhase]
      rfl
    · exact .of_checked (generation_le_of_preflight hCheck) rfl hOk.projection
  case exclusiveOpen purpose =>
    cases hStep
    have hCreate : Fenced binary w.create := h.of_file (generation_create w) rfl rfl
    refine ⟨hCreate.goto ?_ (.of_checked ?_ rfl hOk.projection), .inl (by simp)⟩
    · simp [World.create, hPhase, Phase.lease]
    · simpa using hOk.checked rfl
  case migrateRaise purpose required pending =>
    split at hStep <;> cases hStep
    · refine ⟨h.raise (by rw [hPhase]; rfl) (by rw [hPhase]; rfl) rfl rfl
        (.inl (by rw [hPhase]; rfl)), ?_⟩
      rcases generation_setGeneration w required with hg | hg
      · exact .inr ⟨rfl, by rw [generation_goto, hg]; rfl⟩
      · exact .inl (by rw [generation_goto, hg])
    · exact ⟨h.abandon, .inl rfl⟩
  case migrateApply purpose pending =>
    cases pending with
    | nil =>
      cases hStep
      exact ⟨h.goto (by rw [hPhase]; rfl)
        (.of_checked (hOk.checked rfl) rfl hOk.projection), .inl rfl⟩
    | cons migration pending =>
      cases hStep
      have hRecord : Fenced binary (w.recordMigration migration) :=
        h.of_file (generation_recordMigration w migration) rfl rfl
      refine ⟨hRecord.goto ?_ (.of_checked ?_ rfl hOk.projection), .inl (by simp)⟩
      · simp [World.recordMigration, hPhase, Phase.lease]
      · simpa using hOk.checked rfl
  case settle purpose =>
    cases purpose with
    | reopen =>
      cases hStep
      cases hCheck : preflight (binary p) w.file with
      | ok g => exact ⟨h.unlock rfl (.of_unchecked rfl rfl nofun), .inl rfl⟩
      | error e =>
        refine ⟨?_, .inl rfl⟩
        have hLease : Phase.idle.lease = none := rfl
        have hTwice := (h.abandon (p := p)).unlock (p := p) hLease Phase.Ok.idle
        simpa [World.guard, World.abandon] using hTwice
    | keep =>
      cases hStep
      refine ⟨h.guard (fun _ => ?_) (fun _ hCheck => ?_), .inl (by simp)⟩
      · rw [hPhase]
        rfl
      · exact .of_checked (generation_le_of_preflight hCheck) rfl nofun
    | «import» projectionGeneration =>
      cases hStep
      refine ⟨h.guard (fun _ => by rw [hPhase]; rfl) (fun g hCheck => ?_), .inl (by simp)⟩
      have hGeneration := generation_of_probe hCheck
      have hSupported := hOk.checked rfl
      have hProjection := hOk.projection projectionGeneration rfl
      refine ⟨fun _ => hSupported, fun n hn => ?_, nofun⟩
      cases hn
      omega
  case settleRaise resulting =>
    split at hStep <;> cases hStep
    · refine ⟨h.raise (by rw [hPhase]; rfl) (by rw [hPhase]; rfl) rfl rfl (.inr rfl), ?_⟩
      rcases generation_setGeneration w resulting with hg | hg
      · exact .inr ⟨rfl, by rw [generation_goto, hg]; rfl⟩
      · exact .inl (by rw [generation_goto, hg])
    · exact ⟨h.abandon, .inl rfl⟩
  case reacquireWait =>
    exact ⟨h.lockShared hStep rfl (.of_unchecked rfl rfl nofun),
      .inl (generation_lockShared hStep)⟩
  case reacquireProbe =>
    cases hStep
    refine ⟨h.guard (fun _ => ?_) (fun _ hCheck => ?_), .inl (by simp)⟩
    · rw [hPhase]
      rfl
    · exact .of_checked (generation_le_of_preflight hCheck) rfl nofun

def GenerationStep (w w' : World ι) (p : ι) : Prop :=
  w'.generation = w.generation ∨ (w.lock.mode p = some .exclusive ∧ w.generation ≤ w'.generation)

theorem GenerationStep.le (h : GenerationStep w w' p) : w.generation ≤ w'.generation := by
  rcases h with h | ⟨_, h⟩
  · exact h.ge
  · exact h

theorem GenerationStep.exclusive (h : GenerationStep w w' p)
    (hne : w'.generation ≠ w.generation) : w.lock.mode p = some .exclusive := by
  rcases h with h | ⟨h, _⟩
  · exact absurd h hne
  · exact h

theorem Fenced.openDatabase (h : Fenced binary w) {kind : OpenKind}
    (hStep : step binary w (p, .openDatabase kind) = some w') :
    Fenced binary w' ∧ w'.generation = w.generation := by
  simp only [step] at hStep
  split at hStep
  · rename_i hIdle
    split at hStep <;> cases hStep
    · exact ⟨h, rfl⟩
    · refine ⟨h.guard (fun _ => ?_) (fun _ _ => .of_unchecked rfl rfl nofun), by simp⟩
      rw [hIdle]
      rfl
  · cases hStep

theorem Fenced.openForImport (h : Fenced binary w) {projectionGeneration : Int}
    (hStep : step binary w (p, .openForImport projectionGeneration) = some w') :
    Fenced binary w' ∧ w'.generation = w.generation := by
  simp only [step] at hStep
  split at hStep
  · rename_i hIdle
    cases hStep
    refine ⟨h.guard (fun _ => by rw [hIdle]; rfl) (fun _ hCheck => ?_), by simp⟩
    refine .of_unchecked rfl rfl fun n hn => ?_
    cases hn
    cases hEnsure : ensureSupported (binary p).supportedWriterGeneration projectionGeneration
        .projection with
    | ok _ => exact ensureSupported_eq_ok hEnsure
    | error e => simp [bind, Except.bind, hEnsure] at hCheck
  · cases hStep

theorem Fenced.acquireAuthority (h : Fenced binary w)
    (hStep : step binary w (p, .acquireAuthority) = some w') :
    Fenced binary w' ∧ w'.generation = w.generation := by
  simp only [step] at hStep
  split at hStep
  · rename_i hIdle
    cases hStep
    exact ⟨h.guard (fun _ => by rw [hIdle]; rfl) (fun _ _ => .of_unchecked rfl rfl nofun), by simp⟩
  · cases hStep

theorem Fenced.useAuthorityToOpen (h : Fenced binary w)
    (hStep : step binary w (p, .useAuthorityToOpen) = some w') :
    Fenced binary w' ∧ w'.generation = w.generation := by
  simp only [step] at hStep
  split at hStep
  · rename_i hAuthority
    cases hStep
    exact ⟨h.goto (by rw [hAuthority]; rfl) (.of_unchecked rfl rfl nofun), rfl⟩
  · cases hStep

theorem Fenced.useAuthorityToImport (h : Fenced binary w) {projectionGeneration : Int}
    (hStep : step binary w (p, .useAuthorityToImport projectionGeneration) = some w') :
    Fenced binary w' ∧ w'.generation = w.generation := by
  simp only [step] at hStep
  split at hStep
  · rename_i hAuthority
    cases hStep
    refine ⟨h.guard (fun _ => by rw [hAuthority]; rfl) (fun _ hCheck => ?_), by simp⟩
    refine .of_unchecked rfl rfl fun n hn => ?_
    cases hn
    exact ensureSupported_eq_ok hCheck
  · cases hStep

theorem fenced_step {label : ι × Event} (h : Fenced binary w)
    (hStep : step binary w label = some w') :
    Fenced binary w' ∧ GenerationStep w w' label.1 := by
  obtain ⟨p, event⟩ := label
  have hKept : Fenced binary w' ∧ w'.generation = w.generation →
      Fenced binary w' ∧ GenerationStep w w' p := fun hStep => ⟨hStep.1, .inl hStep.2⟩
  cases event with
  | openDatabase kind => exact hKept (h.openDatabase hStep)
  | openForImport projectionGeneration => exact hKept (h.openForImport hStep)
  | acquireAuthority => exact hKept (h.acquireAuthority hStep)
  | useAuthorityToOpen => exact hKept (h.useAuthorityToOpen hStep)
  | useAuthorityToImport projectionGeneration => exact hKept (h.useAuthorityToImport hStep)
  | advance =>
    obtain ⟨hFenced, hGeneration⟩ := h.advance hStep
    refine ⟨hFenced, hGeneration.imp id ?_⟩
    rintro ⟨hLease, hTarget⟩
    exact ⟨(h.lease p).trans hLease, ((h.ok p).target _ hTarget).1⟩
  | release =>
    cases hStep
    exact hKept ⟨h.abandon, rfl⟩

/-! ## Whole runs -/

theorem fenced_run {file : Option DatabaseFile} {events : List (ι × Event)}
    (hRun : run (step binary) (World.initial file) events = some w) : Fenced binary w :=
  invariant_of_step (fun _ _ _ h hStep => (fenced_step h hStep).1) (fenced_initial file) hRun

/-- In every state that any interleaving reaches, every live connection supports the
generation, no later state has a lower one, and a step that changes it is a step of
the process that holds the exclusive lease. -/
theorem writer_fence_safety (binary : ι → Binary) (file : Option DatabaseFile)
    (events : List (ι × Event)) (w : World ι)
    (hRun : run (step binary) (World.initial file) events = some w) :
    (∀ p mode, w.phase p = .live mode → w.generation ≤ (binary p).supportedWriterGeneration) ∧
    (∀ later w', run (step binary) w later = some w' → w.generation ≤ w'.generation) ∧
    (∀ p event w', step binary w (p, event) = some w' → w'.generation ≠ w.generation →
      w.lock.mode p = some .exclusive) := by
  have hFenced := fenced_run hRun
  refine ⟨?_, ?_, ?_⟩
  · intro p mode hLive
    exact (hFenced.ok p).checked (by rw [hLive]; rfl)
  · intro later w' hLater
    refine monotone_of_step (f := World.generation) (fun v label v' hv hStep => ?_) hFenced hLater
    obtain ⟨hInv, hGeneration⟩ := fenced_step hv hStep
    exact ⟨hInv, hGeneration.le⟩
  · intro p event w' hStep hne
    exact (fenced_step hFenced hStep).2.exclusive hne

/-- `true` is built after `false`: it knows one migration, which raises the generation. -/
def twoBuilds : Bool → Binary
  | true => ⟨1, [⟨1001, 1⟩]⟩
  | false => ⟨0, []⟩

/-- The old build takes its first lease when the new one has raised the generation. -/
def racingOpens : List (Bool × Event) :=
  [(false, .openDatabase .database), (true, .openDatabase .database)] ++
    List.replicate 11 (true, .advance) ++
    [(false, .advance), (true, .advance), (false, .advance), (true, .advance), (true, .advance)]

theorem writer_fence_safety_race :
    ∃ w, run (step twoBuilds) (World.initial none) racingOpens = some w ∧
      w.phase true = .live .shared ∧ w.phase false = .idle ∧
      w.generation ≤ (twoBuilds true).supportedWriterGeneration := by
  have hRun : (run (step twoBuilds) (World.initial none) racingOpens).isSome := by decide
  have hLive : ((run (step twoBuilds) (World.initial none) racingOpens).get hRun).phase true
      = .live .shared := by decide +revert
  have hIdle : ((run (step twoBuilds) (World.initial none) racingOpens).get hRun).phase false
      = .idle := by decide +revert
  have hSafe := writer_fence_safety twoBuilds none racingOpens _ (Option.some_get hRun).symm
  exact ⟨_, (Option.some_get hRun).symm, hLive, hIdle, hSafe.1 true .shared hLive⟩

end Exosuit.Compatibility
