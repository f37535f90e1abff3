import Exosuit.Lib.Interleaving

/-!
# Phase ownership

The owner row of one phase, and the calls that any number of workspaces make on
it: claim, ensure, release and phase finish. Each call is a load of the row,
a decision, and a later write; other calls run in between.
-/

namespace Exosuit.PhaseOwner

open Lib

structure PhaseOwnerData where
  ownerKind : String
  ownerId : String
  claimedByWorkspaceId : Option String
  claimedByWorkspaceRoot : Option String
  claimedAt : String
  updatedAt : String
deriving DecidableEq, Repr

structure CurrentPhaseOwner where
  ownerKind : String
  ownerId : String
  workspaceId : String
  workspaceRoot : Option String
deriving DecidableEq, Repr

abbrev Identity := String × String

def PhaseOwnerData.identity (owner : PhaseOwnerData) : Identity := (owner.ownerKind, owner.ownerId)

def CurrentPhaseOwner.identity (current : CurrentPhaseOwner) : Identity :=
  (current.ownerKind, current.ownerId)

def ownerMatches (owner : PhaseOwnerData) (current : CurrentPhaseOwner) : Bool :=
  owner.ownerKind == current.ownerKind && owner.ownerId == current.ownerId

theorem ownerMatches_iff {owner : PhaseOwnerData} {current : CurrentPhaseOwner} :
    ownerMatches owner current = true ↔ owner.identity = current.identity := by
  rw [ownerMatches, Bool.and_eq_true, beq_iff_eq, beq_iff_eq, PhaseOwnerData.identity,
    CurrentPhaseOwner.identity, Prod.mk.injEq]

def CurrentPhaseOwner.claimed (current : CurrentPhaseOwner) (claimedAt now : String) :
    PhaseOwnerData where
  ownerKind := current.ownerKind
  ownerId := current.ownerId
  claimedByWorkspaceId := some current.workspaceId
  claimedByWorkspaceRoot := current.workspaceRoot
  claimedAt := claimedAt
  updatedAt := now

theorem identity_claimed (current : CurrentPhaseOwner) (claimedAt now : String) :
    (current.claimed claimedAt now).identity = current.identity := rfl

/-- The row that `claim_phase_owner_if_current` writes over `row`, if it writes. -/
def claimPhaseOwnerIfCurrent (now : String) (current : CurrentPhaseOwner)
    (expectedOwner : Option Identity) (row : Option PhaseOwnerData) : Option PhaseOwnerData :=
  match expectedOwner, row with
  | some expected, some owner =>
    if owner.identity = expected then
      some (current.claimed (if owner.identity ≠ current.identity then now else owner.claimedAt) now)
    else none
  | none, none => some (current.claimed now now)
  | some _, none => none
  | none, some _ => none

/-- The rows that `clear_phase_owner_if_current` removes. -/
def clearPhaseOwnerIfCurrent (expected : Identity) (row : Option PhaseOwnerData) :
    Option PhaseOwnerData :=
  row.filter fun owner => owner.identity = expected

/-- One call of `claim_phase_for_current_owner`. -/
structure Claim where
  call : Nat
  current : CurrentPhaseOwner
  takeOver : Bool
deriving DecidableEq, Repr

/-- What happened to the row, and what the calls reported. -/
inductive Entry
  | claimed (claim : Claim) (before : Option PhaseOwnerData) (after : PhaseOwnerData)
  /-- a claim that wrote nothing found its own identity in the row -/
  | found (claim : Claim)
  | ensured (current : CurrentPhaseOwner) (after : PhaseOwnerData)
  | released (current : CurrentPhaseOwner) (loaded : PhaseOwnerData) (foundStale : Bool)
      (removed : PhaseOwnerData)
  | finished (current : CurrentPhaseOwner) (removed : PhaseOwnerData)
  | claimReturned (claim : Claim) (ok wrote : Bool)
  | releaseReturned (current : CurrentPhaseOwner) (ok removed : Bool)
deriving DecidableEq, Repr

/-- The row, and what has happened so far, newest first. -/
structure Shared where
  owner : Option PhaseOwnerData
  calls : Nat
  log : List Entry
deriving DecidableEq, Repr

/-- Where a workspace stands between two accesses to the database. -/
inductive Point
  | idle
  | claimWrite (claim : Claim) (previous : Option PhaseOwnerData)
  | claimRead (claim : Claim)
  | claimView (claim : Claim) (wrote : Bool)
  | ensureWrite (current : CurrentPhaseOwner) (finishing : Bool)
  | ensureRead (current : CurrentPhaseOwner) (finishing : Bool)
  | releaseWrite (current : CurrentPhaseOwner) (owner : PhaseOwnerData) (stale : Bool)
  | finishClear (current : CurrentPhaseOwner)
deriving DecidableEq, Repr

inductive Event
  | claim (current : CurrentPhaseOwner) (takeOver : Bool)
  | ensure (current : CurrentPhaseOwner) (finishing : Bool)
  /-- with what `stale_reason` finds in the workspace at that time -/
  | release (current : CurrentPhaseOwner) (stale : PhaseOwnerData → Bool)
  | advance (now : String)
  /-- an access fails, or `finish_phase` does -/
  | fail

def Shared.add (s : Shared) (entry : Entry) : Shared := { s with log := entry :: s.log }

def Shared.write (s : Shared) (owner : Option PhaseOwnerData) (entry : Entry) : Shared :=
  { s with owner, log := entry :: s.log }

def allowed (current : CurrentPhaseOwner) (finishing : Bool) : Point :=
  if finishing then .finishClear current else .idle

/-- The next access of a workspace. -/
def Point.advance (now : String) (s : Shared) : Point → Option (Point × Shared)
  | .idle => none
  | .claimWrite claim previous =>
    match claimPhaseOwnerIfCurrent now claim.current (previous.map PhaseOwnerData.identity) s.owner with
    | some owner => some (.claimView claim true, s.write (some owner) (.claimed claim s.owner owner))
    | none => some (.claimRead claim, s)
  | .claimRead claim =>
    match s.owner with
    | some owner =>
      if ownerMatches owner claim.current then some (.claimView claim false, s.add (.found claim))
      else some (.idle, s.add (.claimReturned claim false false))
    | none => some (.idle, s.add (.claimReturned claim false false))
  | .claimView claim wrote => some (.idle, s.add (.claimReturned claim s.owner.isSome wrote))
  | .ensureWrite current finishing =>
    match claimPhaseOwnerIfCurrent now current none s.owner with
    | some owner => some (allowed current finishing, s.write (some owner) (.ensured current owner))
    | none => some (.ensureRead current finishing, s)
  | .ensureRead current finishing =>
    match s.owner with
    | some owner => some (if ownerMatches owner current then allowed current finishing else .idle, s)
    | none => some (.idle, s)
  | .releaseWrite current owner stale =>
    match clearPhaseOwnerIfCurrent owner.identity s.owner with
    | some removed => some (.idle, (s.write none (.released current owner stale removed)).add
        (.releaseReturned current true true))
    | none => some (.idle, s.add (.releaseReturned current false false))
  | .finishClear current =>
    match s.owner with
    | some removed => some (.idle, s.write none (.finished current removed))
    | none => some (.idle, s)

/-- The report of a call one of whose accesses fails. -/
def Point.fail (s : Shared) : Point → Option (Point × Shared)
  | .idle => none
  | .claimWrite claim _ | .claimRead claim => some (.idle, s.add (.claimReturned claim false false))
  | .claimView claim wrote => some (.idle, s.add (.claimReturned claim false wrote))
  | .releaseWrite current _ _ => some (.idle, s.add (.releaseReturned current false false))
  | .ensureWrite _ _ | .ensureRead _ _ | .finishClear _ => some (.idle, s)

/-- A step of one workspace; a call begins with its load of the row. -/
def move {ι : Type*} (_ : ι) (event : Event) (point : Point) (s : Shared) :
    Option (Point × Shared) :=
  match event, point with
  | .claim current takeOver, .idle =>
    let claim : Claim := ⟨s.calls, current, takeOver⟩
    let s := { s with calls := s.calls + 1 }
    match s.owner with
    | some owner =>
      if !ownerMatches owner current && !takeOver then
        some (.idle, s.add (.claimReturned claim false false))
      else some (.claimWrite claim (some owner), s)
    | none => some (.claimWrite claim none, s)
  | .ensure current finishing, .idle =>
    match s.owner with
    | some owner => some (if ownerMatches owner current then allowed current finishing else .idle, s)
    | none => some (.ensureWrite current finishing, s)
  | .release current stale, .idle =>
    match s.owner with
    | none => some (.idle, s.add (.releaseReturned current true false))
    | some owner =>
      if !ownerMatches owner current && !stale owner then
        some (.idle, s.add (.releaseReturned current false false))
      else some (.releaseWrite current owner (stale owner), s)
  | .advance now, point => point.advance now s
  | .fail, point => point.fail s
  | _, _ => none

variable {ι : Type*} [DecidableEq ι]

def start (owner : Option PhaseOwnerData) : Interleaving ι Point Shared :=
  ⟨⟨owner, 0, []⟩, fun _ => .idle⟩

def step (s : Interleaving ι Point Shared) (a : ι × Event) : Option (Interleaving ι Point Shared) :=
  Interleaving.step move s a

end Exosuit.PhaseOwner
