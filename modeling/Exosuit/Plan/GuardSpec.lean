import Exosuit.Plan.Guard
import Exosuit.Plan.WriterSpec

/-!
# What the guard does

Run on its own, a guard or a claim either leaves the database alone or gives the
phase to the workspace.
-/

namespace Exosuit.Plan

open Lib PhaseOwner SqliteWriter

variable {fx : FractionalIndex} {env : Env} {db db' : Database} {phaseId : String}

def Database.ownedBy (db : Database) (phaseRowId : Nat) (owner : PhaseOwnerData) : Database :=
  { db with phaseOwnership := db.phaseOwnership.insert phaseRowId owner }

def Env.claim (env : Env) : PhaseOwnerData := env.current.claimed env.now env.now

/-- Somebody other than the workspace owns the phase. -/
def Env.foreign (env : Env) (owner : PhaseOwnerData) : Bool := !ownerMatches owner env.current

def guarded (env : Env) (phaseId : String) (db : Database) : Except Failure Database :=
  match db.phases.byTextId phaseId with
  | none => .error (.anyhow s!"Entity not found in phases_data: {phaseId}")
  | some phase =>
    match db.phaseOwnership.lookup phase.id with
    | none => .ok (db.ownedBy phase.id env.claim)
    | some owner =>
      if env.foreign owner then .error (ownershipConflictFailure phaseId owner) else .ok db

/-- A result that says what is committed, as the outcome of a program. -/
def outcome (db : Database) : Except Failure Database → Except Failure Unit × Database
  | .ok db' => (.ok (), db')
  | .error e => (.error e, db)

theorem outcome_eq_ok {r : Except Failure Database} :
    outcome db r = (.ok (), db') ↔ r = .ok db' := by
  cases r with
  | ok db'' => exact ⟨fun h => congrArg Except.ok (congrArg Prod.snd h), fun h => Except.ok.inj h ▸ rfl⟩
  | error e => exact ⟨fun h => absurd (congrArg Prod.fst h) nofun, nofun⟩

section

variable {current : CurrentPhaseOwner} {expected : Option Identity} {now : String}

theorem exec_claim_of_missing (hPhase : db.phases.byTextId phaseId = none) :
    (WriterCall.claimPhaseOwnerIfCurrent phaseId current expected now).exec fx db =
      (.error (.anyhow s!"Entity not found in phases_data: {phaseId}"), db) := by
  simp only [WriterCall.exec, SqliteWriter.claimPhaseOwnerIfCurrent, resolveId, hPhase]
  rfl

theorem exec_claim_of_some {phase : Row PhaseData} {owner : PhaseOwnerData}
    (hPhase : db.phases.byTextId phaseId = some phase)
    (hOwner : PhaseOwner.claimPhaseOwnerIfCurrent now current expected
      (db.phaseOwnership.lookup phase.id) = some owner) :
    (WriterCall.claimPhaseOwnerIfCurrent phaseId current expected now).exec fx db =
      (.ok true, db.ownedBy phase.id owner) := by
  simp only [WriterCall.exec, SqliteWriter.claimPhaseOwnerIfCurrent, resolveId, hPhase, bind, Except.bind,
    hOwner]
  rfl

end

theorem loadPhaseOwner_of_some {phase : Row PhaseData}
    (hPhase : db.phases.byTextId phaseId = some phase) :
    db.loadPhaseOwner phaseId = db.phaseOwnership.lookup phase.id := by
  rw [Database.loadPhaseOwner, hPhase, Option.bind_some]

theorem loadPhaseOwner_of_none (hPhase : db.phases.byTextId phaseId = none) :
    db.loadPhaseOwner phaseId = none := by
  rw [Database.loadPhaseOwner, hPhase, Option.bind_none]

theorem run_ensurePhaseWriteAllowed :
    (ensurePhaseWriteAllowed env phaseId).run (WriterCall.exec fx) db =
      outcome db (guarded env phaseId db) := by
  unfold ensurePhaseWriteAllowed guarded
  rw [Cmd.run_query_bind]
  cases hPhase : db.phases.byTextId phaseId with
  | none =>
    rw [loadPhaseOwner_of_none hPhase]
    exact Program.run_bind_of_error ((Program.run_perform _ _ _).trans (exec_claim_of_missing hPhase))
  | some phase =>
    rw [loadPhaseOwner_of_some hPhase]
    dsimp only
    cases hOwner : db.phaseOwnership.lookup phase.id with
    | none =>
      have hClaim : PhaseOwner.claimPhaseOwnerIfCurrent env.now env.current none
          (db.phaseOwnership.lookup phase.id) = some env.claim := by rw [hOwner]; rfl
      exact Program.run_bind_of_ok
        ((Program.run_perform _ _ _).trans (exec_claim_of_some hPhase hClaim))
    | some owner =>
      dsimp only
      by_cases hMatch : ownerMatches owner env.current = true
      · have hForeign : ¬ env.foreign owner = true := by rw [Env.foreign, hMatch]; exact Bool.false_ne_true
        rw [if_pos hMatch, if_neg hForeign]
        rfl
      · have hForeign : env.foreign owner = true := by
          rw [Env.foreign, Bool.eq_false_of_not_eq_true hMatch, Bool.not_false]
        rw [if_neg hMatch, if_pos hForeign]
        rfl

theorem guarded_eq_ok (h : guarded env phaseId db = .ok db') :
    ∃ phase, db.phases.byTextId phaseId = some phase ∧
      ((∃ owner, db.phaseOwnership.lookup phase.id = some owner ∧ env.foreign owner = false ∧
          db' = db) ∨
        (db.phaseOwnership.lookup phase.id = none ∧ db' = db.ownedBy phase.id env.claim)) := by
  unfold guarded at h
  split at h
  · cases h
  · next phase hPhase =>
    refine ⟨phase, hPhase, ?_⟩
    split at h
    · next hNone => exact .inr ⟨hNone, (Except.ok.inj h).symm⟩
    · next owner hOwner =>
      split at h
      · cases h
      · next hForeign =>
        exact .inl ⟨owner, hOwner, Bool.eq_false_of_not_eq_true hForeign, (Except.ok.inj h).symm⟩

theorem guarded_frame (h : guarded env phaseId db = .ok db') :
    ∃ phaseOwnership, db' = { db with phaseOwnership } := by
  obtain ⟨phase, -, ⟨_, -, -, rfl⟩ | ⟨-, rfl⟩⟩ := guarded_eq_ok h
  · exact ⟨_, rfl⟩
  · exact ⟨_, rfl⟩

theorem run_ensurePhaseWriteAllowed_eq_ok :
    (ensurePhaseWriteAllowed env phaseId).run (WriterCall.exec fx) db = (.ok (), db') ↔
      guarded env phaseId db = .ok db' := by
  rw [run_ensurePhaseWriteAllowed, outcome_eq_ok]

def claimed (env : Env) (phaseId : String) (takeOver : Bool) (db : Database) :
    Except Failure Database :=
  match db.phases.byTextId phaseId with
  | none => .error (.anyhow s!"Entity not found in phases_data: {phaseId}")
  | some phase =>
    match db.phaseOwnership.lookup phase.id with
    | none => .ok (db.ownedBy phase.id env.claim)
    | some owner =>
      if env.foreign owner && !takeOver then .error (ownershipConflictFailure phaseId owner)
      else
        .ok (db.ownedBy phase.id (env.current.claimed
          (if owner.identity ≠ env.current.identity then env.now else owner.claimedAt) env.now))

theorem run_claimPhaseForCurrentOwner {takeOver : Bool} :
    (claimPhaseForCurrentOwner env phaseId takeOver).run (WriterCall.exec fx) db =
      outcome db (claimed env phaseId takeOver db) := by
  unfold claimPhaseForCurrentOwner claimed
  rw [Cmd.run_query_bind]
  cases hPhase : db.phases.byTextId phaseId with
  | none =>
    rw [loadPhaseOwner_of_none hPhase]
    exact Program.run_bind_of_error ((Program.run_perform _ _ _).trans (exec_claim_of_missing hPhase))
  | some phase =>
    rw [loadPhaseOwner_of_some hPhase]
    dsimp only
    have hLoad (owner : PhaseOwnerData) :
        (db.ownedBy phase.id owner).loadPhaseOwner phaseId = some owner := by
      rw [loadPhaseOwner_of_some (by exact hPhase)]
      exact AList.lookup_insert _
    cases hOwner : db.phaseOwnership.lookup phase.id with
    | none =>
      have hClaim : PhaseOwner.claimPhaseOwnerIfCurrent env.now env.current none
          (db.phaseOwnership.lookup phase.id) = some env.claim := by rw [hOwner]; rfl
      refine (Program.run_bind_of_ok
        ((Program.run_perform _ _ _).trans (exec_claim_of_some hPhase hClaim))).trans ?_
      refine (Cmd.run_query_bind _).trans ?_
      rw [hLoad]
      rfl
    | some owner =>
      dsimp only
      by_cases hConflict : (!ownerMatches owner env.current && !takeOver) = true
      · rw [if_pos hConflict, if_pos (show (env.foreign owner && !takeOver) = true from hConflict)]
        rfl
      · rw [if_neg hConflict,
          if_neg (show ¬ (env.foreign owner && !takeOver) = true from hConflict)]
        have hClaim : PhaseOwner.claimPhaseOwnerIfCurrent env.now env.current (some owner.identity)
            (db.phaseOwnership.lookup phase.id) = some (env.current.claimed
              (if owner.identity ≠ env.current.identity then env.now else owner.claimedAt)
              env.now) := by
          rw [hOwner]
          exact if_pos rfl
        refine (Program.run_bind_of_ok
          ((Program.run_perform _ _ _).trans (exec_claim_of_some hPhase hClaim))).trans ?_
        refine (Cmd.run_query_bind _).trans ?_
        rw [hLoad]
        rfl

/-! ## Weakest preconditions of the commands' steps -/

section

variable {α : Type} {Q : α → Database → Prop} {R : Unit → Database → Prop}
  {E : Failure → Database → Prop}

theorem wp_query {β : Type} {g : α → Cmd β} {Q : β → Database → Prop} (f : Database → α) :
    (Cmd.query f >>= g).wp (WriterCall.exec fx) Q E db ↔ (g (f db)).wp (WriterCall.exec fx) Q E db :=
  Iff.rfl

/-- The result is a database that meets `R`, or a failure that leaves `db` with `E`. -/
def Ends (R : Unit → Database → Prop) (E : Failure → Database → Prop) (db : Database) :
    Except Failure Database → Prop
  | .ok db' => R () db'
  | .error e => E e db

@[simp] theorem ends_ok : Ends R E db (.ok db') ↔ R () db' := Iff.rfl

theorem ends_of {r : Except Failure Database} (hOk : ∀ db', r = .ok db' → R () db')
    (hError : ∀ e, r = .error e → E e db) : Ends R E db r := by
  cases r with
  | ok db' => exact hOk db' rfl
  | error e => exact hError e rfl

theorem wp_of_outcome {p : Cmd Unit} {r : Except Failure Database}
    (h : p.run (WriterCall.exec fx) db = outcome db r) :
    p.wp (WriterCall.exec fx) R E db ↔ Ends R E db r := by
  rw [Program.wp, h]
  cases r <;> exact Iff.rfl

theorem wp_call {op : WriterCall} {r : Except Failure Database}
    (h : op.exec fx db = commit db r) :
    (Cmd.call op).wp (WriterCall.exec fx) R E db ↔ Ends R E db r := by
  refine wp_of_outcome ?_
  rw [Cmd.run_call, h]
  cases r <;> rfl

theorem wp_ensurePhaseWriteAllowed :
    (ensurePhaseWriteAllowed env phaseId).wp (WriterCall.exec fx) R E db ↔
      Ends R E db (guarded env phaseId db) :=
  wp_of_outcome run_ensurePhaseWriteAllowed

theorem wp_claimPhaseForCurrentOwner {takeOver : Bool} :
    (claimPhaseForCurrentOwner env phaseId takeOver).wp (WriterCall.exec fx) R E db ↔
      Ends R E db (claimed env phaseId takeOver db) :=
  wp_of_outcome run_claimPhaseForCurrentOwner

end

end Exosuit.Plan
