import Exosuit.Lib.Text

/-!
# Check plans

What a lane runs and what the world answers: each plan comes with the outcome of its
command or tool and with what git answers to its restage step. Times are left out.
-/

namespace Exosuit.Hook

open Lib

inductive CheckCategory
  | observe
  | mutate
deriving DecidableEq, Repr

inductive RestagePolicy
  | off
  | auto
deriving DecidableEq, Repr

inductive ContainmentPolicy
  | off
  | warn
  | fail
deriving DecidableEq, Repr

structure ToolPlan where
  id : String
  label : String
  toolAddress : List String
  files : Option (List String)
deriving DecidableEq, Repr

structure CheckPlan where
  id : String
  label : String
  parts : List String
  workdir : String
  category : CheckCategory
  restage : RestagePolicy
  containment : ContainmentPolicy
  tool : Option ToolPlan
  skipped : Bool
  /-- the glob filters of the check, and the files that matched them -/
  filters : List String
  matchedFiles : Option (List String)
deriving DecidableEq, Repr

/-! ## What the world answers -/

inductive OutputStream
  | stdout
  | stderr
deriving DecidableEq, Repr

/-- The chunks of a command's output, in the order in which they are read. -/
abbrev Chunks := List (OutputStream × List UInt8)

def Chunks.bytes (chunks : Chunks) (stream : OutputStream) : List UInt8 :=
  (chunks.filter fun c => c.1 == stream).flatMap Prod.snd

/-- Running the command of a check: `code` is none when a signal ended the process. -/
inductive CommandOutcome
  | exited (code : Option Int32) (chunks : Chunks)
  | notSpawned (error : String)
  | notWaited (error : String) (chunks : Chunks)
  | panicked (chunks : Chunks)

/-- `invoke_tool`, whose own errors are those of the process and of its response. -/
inductive ToolOutcome
  | answered (success : Bool) (message : Option String)
  | failed (error : String)
  | panicked

/-- What git answers around a check: the unstaged files before and after it, where a
failing diff counts as empty, the staged files, and `git add`. -/
structure GitAnswers where
  before : Option (List String)
  after : Option (List String)
  cached : Except String (List String)
  add : Except String Unit

/-- A plan of a lane with what happens when it is executed. -/
structure Attempt where
  plan : CheckPlan
  command : CommandOutcome
  tool : ToolOutcome
  git : GitAnswers

/-! ## Restaging -/

/-- `apply_restage_if_needed`. The two warnings it may print are left out. -/
def applyRestageIfNeeded (scopeBase : Option String) (check : CheckPlan) (git : GitAnswers) :
    Except String Unit :=
  if check.restage ≠ .auto then .ok ()
  else if scopeBase ≠ some "staged" then .ok ()
  else do
    let lane ← git.cached
    let before := git.before.getD []
    let after := git.after.getD []
    -- never stage unstaged changes to files of the lane
    let unstagedInLane := before.dedup.filter (· ∈ lane)
    if unstagedInLane ≠ [] then
      throw ("mutate+restage requires lane-scoped files to have no unstaged changes; found: " ++
        ", ".intercalate unstagedInLane)
    let newlyDirty := after.dedup.filter (· ∉ before)
    let outside := newlyDirty.filter (· ∉ lane)
    if outside ≠ [] ∧ check.containment = .fail then
      throw ("mutate containment violation: check '" ++ check.id ++
        "' modified files outside lane scope: " ++ ", ".intercalate outside)
    let toStage := after.filter (· ∈ lane)
    if toStage ≠ [] then git.add else pure ()

/-! ## Which plans run side by side -/

/-- The plans with their places in the lane. -/
def placed (attempts : List Attempt) : List (Nat × Attempt) :=
  attempts.zipIdx.map fun e => (e.2, e.1)

/-- Both runners put the mutating checks that restage after the others of a parallel staged lane. -/
def runsAlone (laneParallel : Bool) (scopeBase : Option String) (plan : CheckPlan) : Bool :=
  if laneParallel then
    scopeBase == some "staged" && plan.category == .mutate && plan.restage == .auto
  else true

def parallelPlans (laneParallel : Bool) (scopeBase : Option String) (attempts : List Attempt) :
    List (Nat × Attempt) :=
  (placed attempts).filter fun e => !runsAlone laneParallel scopeBase e.2.plan

def sequentialPlans (laneParallel : Bool) (scopeBase : Option String) (attempts : List Attempt) :
    List (Nat × Attempt) :=
  (placed attempts).filter fun e => runsAlone laneParallel scopeBase e.2.plan

end Exosuit.Hook
