import Exosuit.Lib.Interleaving
import Exosuit.Workbench.State

/-!
# Completion reviews

A browser session asks for a review of a task's completion and then approves it.
The host keeps the reviews and the requests that made them in two maps; a review
is made under the project state gate and stored under the state lock, the other
operations take the state lock once.
-/

namespace Exosuit.Workbench

open Lib (Table)

def MAX_MESSAGE_BYTES : Nat := 16 * 1024
def MAX_COMPLETION_REVIEWS_PER_SESSION : Nat := 32

structure WorkbenchTaskCompletionReview where
  kind : String := "workbench.task_completion_review"
  ok : Bool := true
  schemaVersion : Nat := 1
  reviewId : String
  taskId : String
  readinessRationale : String
  proposedOutcome : String
  approvalEvidencePresent : Bool
deriving DecidableEq

structure CompletionReviewFingerprint where
  expectedDaemonInstanceId : String
  expectedRevision : Nat
  expectedPhaseId : String
  taskId : String
  proposedOutcome : String
deriving DecidableEq

structure CompletionReviewRequestRecord where
  fingerprint : CompletionReviewFingerprint
  reviewId : String
deriving DecidableEq

structure CompletionReviewRecord where
  sessionId : String
  expectedDaemonInstanceId : String
  expectedRevision : Nat
  expectedPhaseId : String
  taskId : String
  proposedOutcome : String
  result : WorkbenchTaskCompletionReview
  approvalRequestId : Option String
  consumed : Bool
  sequence : Nat
deriving DecidableEq

structure CompletionReviewRequestKey where
  sessionId : String
  requestId : String
deriving DecidableEq

inductive WorkbenchPlanningContextOperation
  | taskCompleteReview (taskId : String)
  | taskCompleteApprove (taskId reviewId : String)
deriving DecidableEq

structure WorkbenchPlanningContext where
  schemaVersion : Nat := 1
  sessionId : String
  expectedDaemonInstanceId : String
  expectedRevision : Nat
  expectedPhaseId : String
  operation : WorkbenchPlanningContextOperation
deriving DecidableEq

structure PreparedCompletionApproval where
  taskId : String
  proposedOutcome : String
  context : WorkbenchPlanningContext
deriving DecidableEq

inductive WorkbenchPlanningError
  | invalidInput
  | staleSnapshot
  | phaseMismatch
  | entityOutsidePhase
  | invalidTransition
  | reviewInvalid
  | internal
deriving DecidableEq

structure ReviewState where
  sessions : Table String WorkbenchSession
  completionReviewRequests : Table CompletionReviewRequestKey CompletionReviewRequestRecord
  completionReviews : Table String CompletionReviewRecord
  completionReviewSequence : Nat

def isWhitespace (c : Char) : Bool :=
  let n := c.toNat
  (9 ≤ n && n ≤ 13) || n == 0x20 || n == 0x85 || n == 0xA0 || n == 0x1680 ||
    (0x2000 ≤ n && n ≤ 0x200A) || n == 0x2028 || n == 0x2029 || n == 0x202F || n == 0x205F ||
    n == 0x3000

def validateMessage (value : String) : Bool :=
  !value.toList.all isWhitespace && decide (value.utf8ByteSize ≤ MAX_MESSAGE_BYTES)

namespace ReviewState

variable (state : ReviewState)

/-! ## Eviction -/

def reviewCount (sessionId : String) : Nat :=
  Table.count (fun _ review => review.sessionId == sessionId) state.completionReviews

/-- Consumed reviews first, then the oldest. -/
def evictionLe (left right : String × CompletionReviewRecord) : Bool :=
  let rank (review : CompletionReviewRecord) : Nat := if review.consumed then 0 else 1
  ((compare (rank left.2) (rank right.2)).then (compare left.2.sequence right.2.sequence)).isLE

def evictionCandidate (sessionId : String) : Option String :=
  let reviews := (state.completionReviews.entries.filter fun entry =>
    entry.2.sessionId == sessionId).map fun entry => (entry.1, entry.2)
  (reviews.mergeSort evictionLe).head?.map Prod.fst

def removeReview (reviewId : String) : ReviewState :=
  { state with
    completionReviews := state.completionReviews.erase reviewId
    completionReviewRequests := state.completionReviewRequests.retain fun _ request =>
      request.reviewId != reviewId }

/-- The loop, which ends before it has gone through every review. -/
def evict (sessionId : String) : Nat → ReviewState → ReviewState
  | 0, state => state
  | fuel + 1, state =>
    if state.reviewCount sessionId < MAX_COMPLETION_REVIEWS_PER_SESSION then state
    else match state.evictionCandidate sessionId with
      | none => state
      | some reviewId => evict sessionId fuel (state.removeReview reviewId)

def evictCompletionReviewIfNeeded (sessionId : String) : ReviewState :=
  evict sessionId (state.reviewCount sessionId) state

/-! ## Locked sections -/

/-- A review's arguments; the session is the one that the request was authenticated for. -/
structure ReviewCall where
  sessionId : String
  requestId : String
  expectedDaemonInstanceId : String
  expectedRevision : Nat
  expectedPhaseId : String
  taskId : String
  proposedOutcome : String
deriving DecidableEq

def ReviewCall.fingerprint (call : ReviewCall) : CompletionReviewFingerprint where
  expectedDaemonInstanceId := call.expectedDaemonInstanceId
  expectedRevision := call.expectedRevision
  expectedPhaseId := call.expectedPhaseId
  taskId := call.taskId
  proposedOutcome := call.proposedOutcome

def ReviewCall.requestKey (call : ReviewCall) : CompletionReviewRequestKey :=
  ⟨call.sessionId, call.requestId⟩

def cachedCompletionReview (requestKey : CompletionReviewRequestKey)
    (fingerprint : CompletionReviewFingerprint) :
    Except WorkbenchPlanningError (Option WorkbenchTaskCompletionReview) :=
  match state.completionReviewRequests.lookup requestKey with
  | none => .ok none
  | some request =>
    if request.fingerprint ≠ fingerprint then .error .invalidInput
    else match (state.completionReviews.lookup request.reviewId).filter fun review =>
        review.sessionId == requestKey.sessionId with
      | some review => .ok (some review.result)
      | none => .error .reviewInvalid

/-- What the project database answers for a task: the canonical id and whether a claim exists. -/
structure TaskCompletionReview where
  taskId : String
  approvalEvidencePresent : Bool

def reviewResult (call : ReviewCall) (review : TaskCompletionReview) (reviewId : String) :
    WorkbenchTaskCompletionReview where
  reviewId
  taskId := review.taskId
  readinessRationale := "The task outcome is ready for review."
  proposedOutcome := call.proposedOutcome
  approvalEvidencePresent := review.approvalEvidencePresent

def reviewRecord (call : ReviewCall) (review : TaskCompletionReview) (reviewId : String)
    (sequence : Nat) : CompletionReviewRecord where
  sessionId := call.sessionId
  expectedDaemonInstanceId := call.expectedDaemonInstanceId
  expectedRevision := call.expectedRevision
  expectedPhaseId := call.expectedPhaseId
  taskId := review.taskId
  proposedOutcome := call.proposedOutcome
  result := reviewResult call review reviewId
  approvalRequestId := none
  consumed := false
  sequence

def storeReview (call : ReviewCall) (review : TaskCompletionReview) (reviewId : String) :
    ReviewState :=
  let state := state.evictCompletionReviewIfNeeded call.sessionId
  let sequence := saturatingAdd state.completionReviewSequence 1
  { state with
    completionReviewSequence := sequence
    completionReviewRequests :=
      state.completionReviewRequests.insert call.requestKey ⟨call.fingerprint, reviewId⟩
    completionReviews :=
      state.completionReviews.insert reviewId (reviewRecord call review reviewId sequence) }

structure ApprovalCall where
  sessionId : String
  requestId : String
  expectedDaemonInstanceId : String
  expectedRevision : Nat
  expectedPhaseId : String
  reviewId : String
  taskId : String
  proposedOutcome : String
deriving DecidableEq

def preparedApproval (call : ApprovalCall) (review : CompletionReviewRecord) :
    PreparedCompletionApproval where
  taskId := review.taskId
  proposedOutcome := review.proposedOutcome
  context :=
    { sessionId := call.sessionId
      expectedDaemonInstanceId := call.expectedDaemonInstanceId
      expectedRevision := call.expectedRevision
      expectedPhaseId := call.expectedPhaseId
      operation := .taskCompleteApprove review.taskId call.reviewId }

def prepareCompletionApproval (call : ApprovalCall) :
    Except WorkbenchPlanningError PreparedCompletionApproval × ReviewState :=
  match (state.completionReviews.lookup call.reviewId).filter fun review =>
      review.sessionId == call.sessionId with
  | none => (.error .reviewInvalid, state)
  | some review =>
    if review.expectedDaemonInstanceId ≠ call.expectedDaemonInstanceId ∨
        review.expectedRevision ≠ call.expectedRevision ∨
        review.expectedPhaseId ≠ call.expectedPhaseId ∨ review.taskId ≠ call.taskId ∨
        review.proposedOutcome ≠ call.proposedOutcome then (.error .reviewInvalid, state)
    else if review.approvalRequestId.any fun bound => bound != call.requestId then
      (.error .reviewInvalid, state)
    else (.ok (preparedApproval call review),
      { state with
        completionReviews := state.completionReviews.modify call.reviewId fun review =>
          { review with approvalRequestId := some call.requestId } })

def markCompletionReviewConsumed (sessionId reviewId requestId : String) : ReviewState :=
  { state with
    completionReviews := state.completionReviews.modify reviewId fun review =>
      if review.sessionId = sessionId ∧ review.approvalRequestId = some requestId then
        { review with consumed := true }
      else review }

def retainLiveSessions (now : Nat) : ReviewState :=
  let sessions := state.sessions.retain fun _ session => session.isLive now
  { state with
    sessions
    completionReviews := state.completionReviews.retain fun _ review =>
      decide (review.sessionId ∈ sessions)
    completionReviewRequests := state.completionReviewRequests.retain fun key _ =>
      decide (key.sessionId ∈ sessions) }

end ReviewState

/-! ## Threads -/

namespace Reviews

open ReviewState

inductive Local
  | idle
  | called (call : ReviewCall)
  | waiting (call : ReviewCall)
  | gated (call : ReviewCall)
  | missed (call : ReviewCall)
  | reviewed (call : ReviewCall) (review : TaskCompletionReview)

/-- `validate` chooses what the snapshot and the project database answer, `store` the token. -/
inductive Action
  | call (call : ReviewCall)
  | lookup
  | acquire
  | validate (answer : Except WorkbenchPlanningError TaskCompletionReview)
  | store (token : Option String)
  | prepare (call : ApprovalCall)
  | consume (sessionId reviewId requestId : String)
  | expire (now : Nat)
  | setSessions (sessions : Table String WorkbenchSession)

/-- A prepared approval, with the call that it answers. -/
structure Approval where
  call : ApprovalCall
  approval : PreparedCompletionApproval

/-- The host that the threads share. `tokens`, `made`, `answers` and `approvals` record the run:
the tokens drawn, the reviews stored, what reviews answered and the approvals prepared. -/
structure Shared (ι : Type) where
  state : ReviewState
  gate : Option ι
  tokens : List String
  made : List (ReviewCall × CompletionReviewRecord)
  answers : List (ReviewCall × Except WorkbenchPlanningError WorkbenchTaskCompletionReview)
  approvals : List Approval

variable {ι : Type}

/-- The review call ends with an outcome. -/
def Shared.answer (sh : Shared ι) (call : ReviewCall)
    (outcome : Except WorkbenchPlanningError WorkbenchTaskCompletionReview) : Local × Shared ι :=
  (.idle, { sh with answers := (call, outcome) :: sh.answers })

def Shared.release (sh : Shared ι) : Shared ι := { sh with gate := none }

/-- One locked section of a thread. A token that was drawn is not drawn again. -/
def move (i : ι) : Action → Local → Shared ι → Option (Local × Shared ι)
  | .call call, .idle, sh =>
    if validateMessage call.proposedOutcome then some (.called call, sh)
    else some (sh.answer call (.error .invalidInput))
  | .lookup, .called call, sh =>
    match sh.state.cachedCompletionReview call.requestKey call.fingerprint with
    | .ok none => some (.waiting call, sh)
    | .ok (some result) => some (sh.answer call (.ok result))
    | .error error => some (sh.answer call (.error error))
  | .acquire, .waiting call, sh =>
    if sh.gate.isNone then some (.gated call, { sh with gate := some i }) else none
  | .lookup, .gated call, sh =>
    match sh.state.cachedCompletionReview call.requestKey call.fingerprint with
    | .ok none => some (.missed call, sh)
    | .ok (some result) => some (sh.release.answer call (.ok result))
    | .error error => some (sh.release.answer call (.error error))
  | .validate answer, .missed call, sh =>
    match answer with
    | .ok review => some (.reviewed call review, sh)
    | .error error => some (sh.release.answer call (.error error))
  | .store token, .reviewed call review, sh =>
    match token with
    | none => some (sh.release.answer call (.error .internal))
    | some reviewId =>
      if reviewId ∈ sh.tokens then none
      else
        let state := sh.state.storeReview call review reviewId
        let record := reviewRecord call review reviewId state.completionReviewSequence
        some (({ sh with
          state
          tokens := reviewId :: sh.tokens
          made := (call, record) :: sh.made }.release).answer call (.ok record.result))
  | .prepare call, .idle, sh =>
    match sh.state.prepareCompletionApproval call with
    | (.ok approval, state) =>
      some (.idle, { sh with state, approvals := ⟨call, approval⟩ :: sh.approvals })
    | (.error _, state) => some (.idle, { sh with state })
  | .consume sessionId reviewId requestId, .idle, sh =>
    some (.idle,
      { sh with state := sh.state.markCompletionReviewConsumed sessionId reviewId requestId })
  | .expire now, .idle, sh => some (.idle, { sh with state := sh.state.retainLiveSessions now })
  | .setSessions sessions, .idle, sh => some (.idle, { sh with state := { sh.state with sessions } })
  | _, _, _ => none

abbrev System (ι : Type) := Lib.Interleaving ι Local (Shared ι)

def systemStep [DecidableEq ι] (s : System ι) (a : ι × Action) : Option (System ι) :=
  Lib.Interleaving.step move s a

/-- A host without reviews, before any call. -/
def initial (sessions : Table String WorkbenchSession) : System ι where
  shared :=
    { state := ⟨sessions, ∅, ∅, 0⟩
      gate := none
      tokens := []
      made := []
      answers := []
      approvals := [] }
  thread _ := .idle

end Reviews

end Exosuit.Workbench
