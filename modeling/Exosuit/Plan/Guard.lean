import Exosuit.Plan.Loader

/-!
# The ownership guard

Claims, the guard of the mutating commands, and releases, each a few reads and
one conditional write.
-/

namespace Exosuit.Plan

open Lib PhaseOwner

/-- The last component of a path. -/
def fileName (path : String) : Option String :=
  match ((Text.split "/" path).filter fun c => c ≠ "" && c ≠ ".").getLast? with
  | some c => if c = ".." then none else some c
  | none => none

def shortId (id : String) : String :=
  String.ofList (((Text.split ":" id).getLastD id).toList.take 8)

def ownershipConflictFailure (phaseId : String) (owner : PhaseOwnerData) : Failure :=
  .ownershipConflict phaseId owner

def ownershipChangedFailure (phaseId : String) : Failure :=
  .exo .preconditionFailed s!"Phase '{phaseId}' ownership changed while claiming it"

variable (env : Env)

def ensurePhaseWriteAllowed (phaseId : String) : Cmd Unit := do
  match ← Cmd.query (·.loadPhaseOwner phaseId) with
  | some owner =>
    if ownerMatches owner env.current then pure ()
    else Cmd.fail (ownershipConflictFailure phaseId owner)
  | none =>
    if ← Program.perform (.claimPhaseOwnerIfCurrent phaseId env.current none env.now) then pure ()
    else
      match ← Cmd.query (·.loadPhaseOwner phaseId) with
      | none => Cmd.fail (ownershipChangedFailure phaseId)
      | some owner =>
        if ownerMatches owner env.current then pure ()
        else Cmd.fail (ownershipConflictFailure phaseId owner)

def claimPhaseForCurrentOwner (phaseId : String) (takeOver : Bool) : Cmd Unit := do
  let previous ← Cmd.query (·.loadPhaseOwner phaseId)
  match previous with
  | some owner =>
    if !ownerMatches owner env.current && !takeOver then
      Cmd.fail (ownershipConflictFailure phaseId owner)
  | none => pure ()
  let claimed ← Program.perform
    (.claimPhaseOwnerIfCurrent phaseId env.current (previous.map PhaseOwnerData.identity) env.now)
  if !claimed then
    match ← Cmd.query (·.loadPhaseOwner phaseId) with
    | none => Cmd.fail (ownershipChangedFailure phaseId)
    | some owner =>
      if !ownerMatches owner env.current then Cmd.fail (ownershipConflictFailure phaseId owner)
  match ← Cmd.query (·.loadPhaseOwner phaseId) with
  | none => Cmd.anyhow "phase owner missing immediately after claim"
  | some _ => pure ()

def releasePhaseOwner (phaseId : String) : Cmd Unit := do
  match ← Cmd.query (·.loadPhaseOwner phaseId) with
  | none => pure ()
  | some owner =>
    if !ownerMatches owner env.current && !env.stale owner then
      Cmd.fail (ownershipConflictFailure phaseId owner)
    else
      let cleared ← Program.perform (.clearPhaseOwnerIfCurrent phaseId owner.identity)
      if cleared then pure () else Cmd.fail (ownershipChangedFailure phaseId)

end Exosuit.Plan
