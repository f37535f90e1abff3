import Exosuit.Workbench.Reviews

/-!
# Reviews are bound once

What evicts, expires or marks a review keeps requests and reviews linked: a
request goes exactly when its review does. A new review comes under a fresh token
while its request is not stored, since the gate is held from the lookup that
missed to the insertion.
-/

namespace Exosuit.Workbench

open Lib (Table)

/-! ## What a locked section keeps -/

/-- The same review, up to its binding to an approval. -/
def CompletionReviewRecord.Same (review review' : CompletionReviewRecord) : Prop :=
  review' = { review with
    approvalRequestId := review'.approvalRequestId
    consumed := review'.consumed }

namespace ReviewState

variable {state state' state'' : ReviewState}

def Linked (state : ReviewState) : Prop :=
  ∀ key request, state.completionReviewRequests.lookup key = some request →
    ∃ review, state.completionReviews.lookup request.reviewId = some review ∧
      review.sessionId = key.sessionId ∧ review.result.reviewId = request.reviewId

/-- Reviews are dropped with their requests, and a binding that is there stays. -/
structure Evolves (state state' : ReviewState) : Prop where
  requests : ∀ key request, state'.completionReviewRequests.lookup key = some request →
    state.completionReviewRequests.lookup key = some request
  reviews : ∀ id review', state'.completionReviews.lookup id = some review' →
    ∃ review, state.completionReviews.lookup id = some review ∧ review.Same review' ∧
      (review.approvalRequestId ≠ none → review'.approvalRequestId = review.approvalRequestId)
  kept : ∀ key request, state.completionReviewRequests.lookup key = some request →
    ((state'.completionReviews.lookup request.reviewId).isSome ↔
      state'.completionReviewRequests.lookup key = some request)
  count : ∀ sessionId, state'.reviewCount sessionId ≤ state.reviewCount sessionId

theorem Evolves.refl (h : state.Linked) : state.Evolves state where
  requests _ _ hRequest := hRequest
  reviews _ review hReview := ⟨review, hReview, rfl, fun _ => rfl⟩
  kept key request hRequest := by
    obtain ⟨review, hReview, -⟩ := h key request hRequest
    exact iff_of_true (hReview ▸ rfl) hRequest
  count _ := le_refl _

theorem Evolves.trans (h : state.Evolves state') (h' : state'.Evolves state'') :
    state.Evolves state'' where
  requests key request hRequest := h.requests _ _ (h'.requests _ _ hRequest)
  reviews id review'' hReview := by
    obtain ⟨review', hReview', hSame', hBound'⟩ := h'.reviews _ _ hReview
    obtain ⟨review, hOld, hSame, hBound⟩ := h.reviews _ _ hReview'
    refine ⟨review, hOld, ?_, fun hNe => ?_⟩
    · rw [CompletionReviewRecord.Same, hSame', hSame]
    · have hEq := hBound hNe
      rw [hBound' (hEq ▸ hNe), hEq]
  kept key request hRequest := by
    constructor
    · intro hSome
      obtain ⟨review'', hReview''⟩ := Option.isSome_iff_exists.mp hSome
      obtain ⟨review', hReview', -⟩ := h'.reviews _ _ hReview''
      have hMiddle := (h.kept key request hRequest).mp (hReview' ▸ rfl)
      exact (h'.kept key request hMiddle).mp hSome
    · intro hLast
      exact (h'.kept key request (h'.requests _ _ hLast)).mpr hLast
  count sessionId := le_trans (h'.count sessionId) (h.count sessionId)

theorem Evolves.linked (h : state.Evolves state') (hLinked : state.Linked) : state'.Linked := by
  intro key request hRequest
  have hOld := h.requests key request hRequest
  obtain ⟨review, hReview, hSession, hId⟩ := hLinked key request hOld
  obtain ⟨review', hReview'⟩ := Option.isSome_iff_exists.mp ((h.kept key request hOld).mpr hRequest)
  obtain ⟨old, hOldReview, hSame, -⟩ := h.reviews _ _ hReview'
  obtain rfl : old = review := Option.some.inj (hOldReview.symm.trans hReview)
  rw [CompletionReviewRecord.Same] at hSame
  exact ⟨review', hReview', by rw [hSame]; exact hSession, by rw [hSame]; exact hId⟩

theorem evolves_removeReview (h : state.Linked) (reviewId : String) :
    state.Evolves (state.removeReview reviewId) where
  requests _ _ hRequest := (Table.lookup_retain_eq_some.mp hRequest).1
  reviews id review hReview := by
    unfold removeReview at hReview
    dsimp only at hReview
    rw [Table.lookup_erase] at hReview
    split at hReview
    · cases hReview
    · exact ⟨review, hReview, rfl, fun _ => rfl⟩
  kept key request hRequest := by
    obtain ⟨review, hReview, -⟩ := h key request hRequest
    unfold removeReview
    dsimp only
    rw [Table.lookup_erase, Table.lookup_retain_eq_some]
    by_cases hId : request.reviewId = reviewId
    · simp [hId]
    · simp [hId, hRequest, hReview]
  count _ := Table.count_erase_le

theorem evolves_evict (sessionId : String) (fuel : Nat) (h : state.Linked) :
    state.Evolves (evict sessionId fuel state) := by
  induction fuel generalizing state with
  | zero => exact .refl h
  | succ fuel ih =>
    unfold evict
    split
    · exact .refl h
    · split
      · exact .refl h
      · next reviewId hCandidate =>
        have hStep := evolves_removeReview h reviewId
        exact hStep.trans (ih (hStep.linked h))

theorem evolves_retainLiveSessions (h : state.Linked) (now : Nat) :
    state.Evolves (state.retainLiveSessions now) where
  requests _ _ hRequest := (Table.lookup_retain_eq_some.mp hRequest).1
  reviews id review hReview :=
    ⟨review, (Table.lookup_retain_eq_some.mp hReview).1, rfl, fun _ => rfl⟩
  kept key request hRequest := by
    obtain ⟨review, hReview, hSession, -⟩ := h key request hRequest
    unfold retainLiveSessions
    dsimp only
    rw [Table.lookup_retain, hReview, Table.lookup_retain_eq_some, Option.filter_some, hSession]
    split
    · next hLive => exact iff_of_true rfl ⟨hRequest, hLive⟩
    · next hDead => exact iff_of_false (by simp) fun hKept => hDead hKept.2
  count sessionId := by
    unfold reviewCount retainLiveSessions
    dsimp only
    exact Table.count_retain_le _

/-- A change of one review that keeps what it is and any binding it has. -/
theorem evolves_modify (h : state.Linked) {reviewId : String}
    {f : CompletionReviewRecord → CompletionReviewRecord}
    (hSame : ∀ review : CompletionReviewRecord, review.Same (f review))
    (hBound : ∀ review, state.completionReviews.lookup reviewId = some review →
      review.approvalRequestId ≠ none → (f review).approvalRequestId = review.approvalRequestId) :
    state.Evolves { state with completionReviews := state.completionReviews.modify reviewId f } where
  requests _ _ hRequest := hRequest
  reviews id review' hReview := by
    dsimp only at hReview
    rw [Table.lookup_modify] at hReview
    split at hReview
    · next hId =>
      obtain ⟨review, hOld, rfl⟩ := Option.map_eq_some_iff.mp hReview
      exact ⟨review, hId ▸ hOld, hSame review, hBound review hOld⟩
    · exact ⟨review', hReview, rfl, fun _ => rfl⟩
  kept key request hRequest := by
    obtain ⟨review, hReview, -⟩ := h key request hRequest
    refine iff_of_true ?_ hRequest
    dsimp only
    rw [Table.lookup_modify]
    split
    · next hId => rw [← hId, hReview]; rfl
    · rw [hReview]; rfl
  count sessionId := by
    apply le_of_eq
    unfold reviewCount
    apply Table.count_modify
    intro review _
    rw [hSame review]

theorem evolves_markCompletionReviewConsumed (h : state.Linked) (sessionId reviewId requestId : String) :
    state.Evolves (state.markCompletionReviewConsumed sessionId reviewId requestId) := by
  apply evolves_modify h
  · intro review
    unfold CompletionReviewRecord.Same
    split <;> rfl
  · intro review _ _
    split <;> rfl

theorem prepareCompletionApproval_error {call : ApprovalCall} {error : WorkbenchPlanningError}
    (h : state.prepareCompletionApproval call = (.error error, state')) : state' = state := by
  unfold prepareCompletionApproval at h
  split at h
  · exact (Prod.mk.inj h).2.symm
  · split at h
    · exact (Prod.mk.inj h).2.symm
    · split at h
      · exact (Prod.mk.inj h).2.symm
      · exact nomatch (Prod.mk.inj h).1

structure Prepares (state : ReviewState) (call : ApprovalCall) (review : CompletionReviewRecord) :
    Prop where
  stored : state.completionReviews.lookup call.reviewId = some review
  session : review.sessionId = call.sessionId
  instance' : review.expectedDaemonInstanceId = call.expectedDaemonInstanceId
  revision : review.expectedRevision = call.expectedRevision
  phase : review.expectedPhaseId = call.expectedPhaseId
  task : review.taskId = call.taskId
  outcome : review.proposedOutcome = call.proposedOutcome
  unbound : ∀ bound, review.approvalRequestId = some bound → bound = call.requestId

theorem prepareCompletionApproval_ok {call : ApprovalCall} {approval : PreparedCompletionApproval}
    (h : state.prepareCompletionApproval call = (.ok approval, state')) :
    ∃ review, state.Prepares call review ∧ approval = preparedApproval call review ∧
      state' = { state with
        completionReviews := state.completionReviews.modify call.reviewId fun review =>
          { review with approvalRequestId := some call.requestId } } := by
  unfold prepareCompletionApproval at h
  split at h
  · exact nomatch (Prod.mk.inj h).1
  · next review hReview =>
    obtain ⟨hStored, hSession⟩ := Option.filter_eq_some_iff.mp hReview
    split at h
    · exact nomatch (Prod.mk.inj h).1
    · next hSame =>
      split at h
      · exact nomatch (Prod.mk.inj h).1
      · next hFree =>
        obtain ⟨hApproval, hState⟩ := Prod.mk.inj h
        simp only [not_or, not_not] at hSame
        obtain ⟨hInstance, hRevision, hPhase, hTask, hOutcome⟩ := hSame
        refine ⟨review, ⟨hStored, eq_of_beq hSession, hInstance, hRevision, hPhase, hTask, hOutcome,
          fun bound hBound => ?_⟩, (Except.ok.inj hApproval).symm, hState.symm⟩
        rw [hBound] at hFree
        by_contra hNe
        exact hFree (bne_iff_ne.mpr hNe)

theorem evolves_prepare (h : state.Linked) {call : ApprovalCall} {review : CompletionReviewRecord}
    (hPrepares : state.Prepares call review) :
    state.Evolves { state with
      completionReviews := state.completionReviews.modify call.reviewId fun review =>
        { review with approvalRequestId := some call.requestId } } := by
  refine evolves_modify h (f := fun review =>
    { review with approvalRequestId := some call.requestId }) (fun _ => rfl) ?_
  intro old hOld hNe
  obtain rfl : review = old := Option.some.inj (hPrepares.stored.symm.trans hOld)
  obtain ⟨bound, hBound⟩ := Option.ne_none_iff_exists'.mp hNe
  rw [hBound, hPrepares.unbound bound hBound]

/-! ## Eviction makes room -/

theorem exists_evictionCandidate {sessionId : String} (h : 0 < state.reviewCount sessionId) :
    ∃ reviewId review, state.evictionCandidate sessionId = some reviewId ∧
      state.completionReviews.lookup reviewId = some review ∧ review.sessionId = sessionId := by
  obtain ⟨entry, hEntry, hSession⟩ := List.countP_pos_iff.mp h
  unfold evictionCandidate
  dsimp only
  generalize hList : ((state.completionReviews.entries.filter fun entry =>
    entry.2.sessionId == sessionId).map fun entry => (entry.1, entry.2)) = reviews
  have hMem : (entry.1, entry.2) ∈ reviews := by
    rw [← hList]
    exact List.mem_map_of_mem (List.mem_filter.mpr ⟨hEntry, hSession⟩)
  rw [← (List.mergeSort_perm reviews evictionLe).mem_iff] at hMem
  cases hSorted : reviews.mergeSort evictionLe with
  | nil => exact absurd (hSorted ▸ hMem) List.not_mem_nil
  | cons first rest =>
    have hFirst : first ∈ reviews := by
      rw [← (List.mergeSort_perm reviews evictionLe).mem_iff, hSorted]
      exact List.mem_cons_self
    rw [← hList] at hFirst
    obtain ⟨found, hFound, rfl⟩ := List.mem_map.mp hFirst
    obtain ⟨hStored, hSame⟩ := List.mem_filter.mp hFound
    exact ⟨found.1, found.2, rfl, Table.lookup_eq_some.mpr hStored, eq_of_beq hSame⟩

theorem reviewCount_evict {sessionId : String} {fuel : Nat} (h : state.reviewCount sessionId ≤ fuel) :
    (evict sessionId fuel state).reviewCount sessionId < MAX_COMPLETION_REVIEWS_PER_SESSION := by
  induction fuel generalizing state with
  | zero =>
    have hPos : 0 < MAX_COMPLETION_REVIEWS_PER_SESSION := by decide
    exact lt_of_le_of_lt h hPos
  | succ fuel ih =>
    unfold evict
    split
    · next hLt => exact hLt
    · next hGe =>
      have hPos : 0 < state.reviewCount sessionId := by
        have hMax : MAX_COMPLETION_REVIEWS_PER_SESSION = 32 := rfl
        omega
      obtain ⟨reviewId, review, hCandidate, hReview, hSession⟩ := exists_evictionCandidate hPos
      rw [hCandidate]
      apply ih
      have hCount := Table.count_erase (p := fun _ review => review.sessionId == sessionId) hReview
      rw [if_pos (beq_iff_eq.mpr hSession)] at hCount
      have hRemoved : (state.removeReview reviewId).reviewCount sessionId + 1 =
          state.reviewCount sessionId := hCount
      omega

theorem cachedCompletionReview_ok {key : CompletionReviewRequestKey}
    {fingerprint : CompletionReviewFingerprint} {result : WorkbenchTaskCompletionReview}
    (h : state.cachedCompletionReview key fingerprint = .ok (some result)) :
    ∃ request review, state.completionReviewRequests.lookup key = some request ∧
      request.fingerprint = fingerprint ∧
      state.completionReviews.lookup request.reviewId = some review ∧ review.result = result := by
  unfold cachedCompletionReview at h
  split at h
  · exact nomatch Except.ok.inj h
  · next request hRequest =>
    split at h
    · cases h
    · next hFingerprint =>
      split at h
      · next review hReview =>
        exact ⟨request, review, hRequest, not_not.mp hFingerprint,
          (Option.filter_eq_some_iff.mp hReview).1, Option.some.inj (Except.ok.inj h)⟩
      · cases h

theorem cachedCompletionReview_none {key : CompletionReviewRequestKey}
    {fingerprint : CompletionReviewFingerprint}
    (h : state.cachedCompletionReview key fingerprint = .ok none) :
    state.completionReviewRequests.lookup key = none := by
  unfold cachedCompletionReview at h
  split at h
  · next hRequest => exact hRequest
  · split at h
    · cases h
    · split at h
      · exact nomatch Except.ok.inj h
      · cases h

theorem cachedCompletionReview_of_stored (hLinked : state.Linked) {key : CompletionReviewRequestKey}
    {request : CompletionReviewRequestRecord} {review : CompletionReviewRecord}
    (hRequest : state.completionReviewRequests.lookup key = some request)
    (hReview : state.completionReviews.lookup request.reviewId = some review)
    (fingerprint : CompletionReviewFingerprint) :
    state.cachedCompletionReview key fingerprint =
      if request.fingerprint = fingerprint then .ok (some review.result)
      else .error .invalidInput := by
  obtain ⟨review', hReview', hSession, -⟩ := hLinked key request hRequest
  obtain rfl : review' = review := Option.some.inj (hReview'.symm.trans hReview)
  unfold cachedCompletionReview
  rw [hRequest]
  dsimp only
  rw [hReview, Option.filter_some, if_pos (beq_iff_eq.mpr hSession), ite_not]

end ReviewState

namespace Reviews

open ReviewState

variable {ι : Type} {state state' : ReviewState} {tokens : List String}
  {made : List (ReviewCall × CompletionReviewRecord)}
  {answers : List (ReviewCall × Except WorkbenchPlanningError WorkbenchTaskCompletionReview)}
  {approvals : List Approval}

/-! ## The invariant -/

/-- The approval carries what a review of the same session was made for. -/
def Carries (made : List (ReviewCall × CompletionReviewRecord)) (a : Approval) : Prop :=
  ∃ entry ∈ made, entry.2.result.reviewId = a.call.reviewId ∧
    entry.1.sessionId = a.call.sessionId ∧
    a.approval =
      { taskId := entry.2.taskId
        proposedOutcome := entry.1.proposedOutcome
        context :=
          { sessionId := entry.1.sessionId
            expectedDaemonInstanceId := entry.1.expectedDaemonInstanceId
            expectedRevision := entry.1.expectedRevision
            expectedPhaseId := entry.1.expectedPhaseId
            operation := .taskCompleteApprove entry.2.taskId entry.2.result.reviewId } }

/-- The entry of `made` for a stored review. -/
def MadeAs (made : List (ReviewCall × CompletionReviewRecord)) (id : String)
    (review : CompletionReviewRecord) : Prop :=
  ∃ call answer sequence, (call, reviewRecord call answer id sequence) ∈ made ∧
    (reviewRecord call answer id sequence).Same review

structure Coherent (state : ReviewState) (tokens : List String)
    (made : List (ReviewCall × CompletionReviewRecord))
    (answers : List (ReviewCall × Except WorkbenchPlanningError WorkbenchTaskCompletionReview))
    (approvals : List Approval) : Prop where
  limit : ∀ sessionId, state.reviewCount sessionId ≤ MAX_COMPLETION_REVIEWS_PER_SESSION
  linked : state.Linked
  drawn : ∀ id review, state.completionReviews.lookup id = some review → id ∈ tokens
  stored : ∀ id review, state.completionReviews.lookup id = some review → MadeAs made id review
  answered : ∀ call result, (call, .ok result) ∈ answers →
    validateMessage call.proposedOutcome = true ∧ result.reviewId ∈ tokens ∧
      ∀ review, state.completionReviews.lookup result.reviewId = some review →
        review.result = result ∧
          state.completionReviewRequests.lookup call.requestKey =
            some ⟨call.fingerprint, result.reviewId⟩
  approved : ∀ a ∈ approvals, a.call.reviewId ∈ tokens ∧
    ∀ review, state.completionReviews.lookup a.call.reviewId = some review →
      review.approvalRequestId = some a.call.requestId
  bound : ∀ a ∈ approvals, ∀ b ∈ approvals, a.call.reviewId = b.call.reviewId →
    a.call.requestId = b.call.requestId
  carried : ∀ a ∈ approvals, Carries made a

theorem MadeAs.of_same {id : String} {review review' : CompletionReviewRecord}
    (h : MadeAs made id review) (hSame : review.Same review') : MadeAs made id review' := by
  obtain ⟨call, answer, sequence, hMem, hMade⟩ := h
  refine ⟨call, answer, sequence, hMem, ?_⟩
  rw [CompletionReviewRecord.Same, hSame, hMade]

theorem Coherent.of_evolves (h : Coherent state tokens made answers approvals)
    (hEvolves : state.Evolves state') : Coherent state' tokens made answers approvals where
  limit sessionId := le_trans (hEvolves.count sessionId) (h.limit sessionId)
  linked := hEvolves.linked h.linked
  drawn id review' hReview := by
    obtain ⟨review, hOld, -⟩ := hEvolves.reviews id review' hReview
    exact h.drawn id review hOld
  stored id review' hReview := by
    obtain ⟨review, hOld, hSame, -⟩ := hEvolves.reviews id review' hReview
    exact (h.stored id review hOld).of_same hSame
  answered call result hMem := by
    obtain ⟨hValid, hToken, hStored⟩ := h.answered call result hMem
    refine ⟨hValid, hToken, fun review' hReview => ?_⟩
    obtain ⟨review, hOld, hSame, -⟩ := hEvolves.reviews _ _ hReview
    obtain ⟨hResult, hRequest⟩ := hStored review hOld
    refine ⟨?_, (hEvolves.kept _ _ hRequest).mp (hReview ▸ rfl)⟩
    rw [hSame]
    exact hResult
  approved a hMem := by
    obtain ⟨hToken, hStored⟩ := h.approved a hMem
    refine ⟨hToken, fun review' hReview => ?_⟩
    obtain ⟨review, hOld, -, hBound⟩ := hEvolves.reviews _ _ hReview
    have hApproved := hStored review hOld
    rw [hBound (hApproved ▸ Option.some_ne_none _), hApproved]
  bound := h.bound
  carried := h.carried

theorem Coherent.answer (h : Coherent state tokens made answers approvals) {call : ReviewCall}
    (hValid : validateMessage call.proposedOutcome = true)
    {outcome : Except WorkbenchPlanningError WorkbenchTaskCompletionReview}
    (hStored : ∀ result, outcome = .ok result → ∃ review,
      state.completionReviewRequests.lookup call.requestKey =
        some ⟨call.fingerprint, result.reviewId⟩ ∧
      state.completionReviews.lookup result.reviewId = some review ∧ review.result = result) :
    Coherent state tokens made ((call, outcome) :: answers) approvals where
  __ := h
  answered call' result hMem := by
    rcases List.mem_cons.mp hMem with hEq | hMem
    · obtain ⟨rfl, hOutcome⟩ := Prod.mk.inj hEq
      obtain ⟨review, hRequest, hReview, hResult⟩ := hStored result hOutcome.symm
      refine ⟨hValid, h.drawn _ review hReview, fun review' hReview' => ?_⟩
      obtain rfl := Option.some.inj (hReview.symm.trans hReview')
      exact ⟨hResult, hRequest⟩
    · exact h.answered call' result hMem

theorem Coherent.answer_error (h : Coherent state tokens made answers approvals) {call : ReviewCall}
    (error : WorkbenchPlanningError) :
    Coherent state tokens made ((call, .error error) :: answers) approvals where
  __ := h
  answered call' result hMem := by
    rcases List.mem_cons.mp hMem with hEq | hMem
    · exact nomatch (Prod.mk.inj hEq).2
    · exact h.answered call' result hMem

theorem Coherent.cached (h : Coherent state tokens made answers approvals) {call : ReviewCall}
    {result : WorkbenchTaskCompletionReview}
    (hCached : state.cachedCompletionReview call.requestKey call.fingerprint = .ok (some result)) :
    ∃ review, state.completionReviewRequests.lookup call.requestKey =
        some ⟨call.fingerprint, result.reviewId⟩ ∧
      state.completionReviews.lookup result.reviewId = some review ∧ review.result = result := by
  obtain ⟨request, review, hRequest, hFingerprint, hReview, hResult⟩ :=
    cachedCompletionReview_ok hCached
  obtain ⟨review', hReview', -, hId⟩ := h.linked _ _ hRequest
  obtain rfl := Option.some.inj (hReview.symm.trans hReview')
  rw [hResult] at hId
  rw [hId]
  exact ⟨review, by rw [hRequest, ← hFingerprint], hReview, hResult⟩

theorem Coherent.approve (h : Coherent state tokens made answers approvals) {call : ApprovalCall}
    {review : CompletionReviewRecord} (hPrepares : state.Prepares call review) :
    Coherent { state with
        completionReviews := state.completionReviews.modify call.reviewId fun review =>
          { review with approvalRequestId := some call.requestId } }
      tokens made answers (⟨call, preparedApproval call review⟩ :: approvals) where
  __ := h.of_evolves (evolves_prepare h.linked hPrepares)
  approved a hMem := by
    rcases List.mem_cons.mp hMem with rfl | hOld
    · refine ⟨h.drawn _ review hPrepares.stored, fun review' hReview => ?_⟩
      dsimp only at hReview
      rw [Table.lookup_modify, if_pos rfl, hPrepares.stored] at hReview
      rw [← Option.some.inj hReview]
    · exact (h.of_evolves (evolves_prepare h.linked hPrepares)).approved a hOld
  bound a hA b hB hSame := by
    have hOther (c : Approval) (hC : c ∈ approvals) (hEq : c.call.reviewId = call.reviewId) :
        c.call.requestId = call.requestId :=
      hPrepares.unbound _ ((h.approved c hC).2 review (hEq ▸ hPrepares.stored))
    rcases List.mem_cons.mp hA with rfl | hA <;> rcases List.mem_cons.mp hB with rfl | hB
    · rfl
    · exact (hOther b hB hSame.symm).symm
    · exact hOther a hA hSame
    · exact h.bound a hA b hB hSame
  carried a hMem := by
    rcases List.mem_cons.mp hMem with rfl | hOld
    · obtain ⟨maker, answer, sequence, hMade, hSame⟩ := h.stored _ review hPrepares.stored
      have hSession := hPrepares.session
      have hInstance := hPrepares.instance'
      have hRevision := hPrepares.revision
      have hPhase := hPrepares.phase
      rw [hSame] at hSession hInstance hRevision hPhase
      refine ⟨_, hMade, rfl, hSession, ?_⟩
      rw [hSame, preparedApproval, ← hInstance, ← hRevision, ← hPhase, ← hSession]
      rfl
    · exact h.carried a hOld

theorem Coherent.store (h : Coherent state tokens made answers approvals) {call : ReviewCall}
    {review : TaskCompletionReview} {id : String} (hFresh : id ∉ tokens)
    (hValid : validateMessage call.proposedOutcome = true)
    (hMissing : state.completionReviewRequests.lookup call.requestKey = none) :
    let state' := state.storeReview call review id
    let record := reviewRecord call review id state'.completionReviewSequence
    Coherent state' (id :: tokens) ((call, record) :: made) ((call, .ok record.result) :: answers)
      approvals := by
  intro state' record
  have hEvolves := evolves_evict call.sessionId (state.reviewCount call.sessionId) h.linked
  have hRoom := reviewCount_evict (le_refl (state.reviewCount call.sessionId))
  have hEvicted := h.of_evolves hEvolves
  set evicted := evict call.sessionId (state.reviewCount call.sessionId) state with hDef
  have hMissing' : evicted.completionReviewRequests.lookup call.requestKey = none := by
    by_contra hSome
    obtain ⟨request, hRequest⟩ := Option.ne_none_iff_exists'.mp hSome
    exact nomatch hMissing.symm.trans (hEvolves.requests _ _ hRequest)
  have hReviews (other : String) : state'.completionReviews.lookup other =
      if other = id then some record else evicted.completionReviews.lookup other :=
    Table.lookup_insert _ _ _ _
  have hRequests (key : CompletionReviewRequestKey) : state'.completionReviewRequests.lookup key =
      if key = call.requestKey then some ⟨call.fingerprint, id⟩
      else evicted.completionReviewRequests.lookup key :=
    Table.lookup_insert _ _ _ _
  have hNe {other : String} (hToken : other ∈ tokens) : other ≠ id := fun hEq => hFresh (hEq ▸ hToken)
  constructor
  case limit =>
    intro sessionId
    have hInsert : state'.reviewCount sessionId ≤ evicted.reviewCount sessionId +
        if call.sessionId == sessionId then 1 else 0 :=
      Table.count_insert_le
    have hOld := hEvicted.limit sessionId
    split at hInsert
    · next hSession =>
      rw [eq_of_beq hSession] at hRoom
      omega
    · exact le_trans hInsert hOld
  case linked =>
    intro key request hRequest
    rw [hRequests] at hRequest
    split at hRequest
    · next hKey =>
      obtain rfl := Option.some.inj hRequest
      exact ⟨record, (hReviews id).trans (if_pos rfl), hKey ▸ rfl, rfl⟩
    · obtain ⟨old, hOld, hRest⟩ := hEvicted.linked key request hRequest
      exact ⟨old, (hReviews _).trans ((if_neg (hNe (hEvicted.drawn _ old hOld))).trans hOld), hRest⟩
  case drawn =>
    intro other old hOld
    rw [hReviews] at hOld
    split at hOld
    · next hEq => exact hEq ▸ List.mem_cons_self
    · exact List.mem_cons_of_mem _ (hEvicted.drawn other old hOld)
  case stored =>
    intro other old hOld
    rw [hReviews] at hOld
    split at hOld
    · next hEq =>
      obtain rfl := Option.some.inj hOld
      exact hEq ▸ ⟨call, review, _, List.mem_cons_self, rfl⟩
    · obtain ⟨maker, answer, sequence, hMade, hSame⟩ := hEvicted.stored other old hOld
      exact ⟨maker, answer, sequence, List.mem_cons_of_mem _ hMade, hSame⟩
  case answered =>
    intro call' result hMem
    rcases List.mem_cons.mp hMem with hEq | hMem
    · obtain ⟨rfl, hResult⟩ := Prod.mk.inj hEq
      obtain rfl := Except.ok.inj hResult
      refine ⟨hValid, List.mem_cons_self, fun stored hStored => ?_⟩
      obtain rfl := Option.some.inj ((if_pos rfl).symm.trans ((hReviews id).symm.trans hStored))
      exact ⟨rfl, (hRequests _).trans (if_pos rfl)⟩
    · obtain ⟨hValid', hToken, hStored⟩ := hEvicted.answered call' result hMem
      refine ⟨hValid', List.mem_cons_of_mem _ hToken, fun old hOld => ?_⟩
      rw [hReviews, if_neg (hNe hToken)] at hOld
      obtain ⟨hResult, hRequest⟩ := hStored old hOld
      have hKey : call'.requestKey ≠ call.requestKey := by
        intro hEq
        rw [hEq] at hRequest
        exact nomatch hMissing'.symm.trans hRequest
      exact ⟨hResult, (hRequests _).trans ((if_neg hKey).trans hRequest)⟩
  case approved =>
    intro a hMem
    obtain ⟨hToken, hStored⟩ := hEvicted.approved a hMem
    refine ⟨List.mem_cons_of_mem _ hToken, fun old hOld => hStored old ?_⟩
    exact (if_neg (hNe hToken)).symm.trans ((hReviews _).symm.trans hOld)
  case bound => exact h.bound
  case carried =>
    intro a hMem
    obtain ⟨entry, hMade, hRest⟩ := h.carried a hMem
    exact ⟨entry, List.mem_cons_of_mem _ hMade, hRest⟩

/-! ## Threads -/

/-- Between the lookup that missed and the insertion the thread has the gate and the request is
not stored. -/
def Asserts (i : ι) (l : Local) (sh : Shared ι) : Prop :=
  match l with
  | .idle => True
  | .called call => validateMessage call.proposedOutcome = true
  | .waiting call => validateMessage call.proposedOutcome = true
  | .gated call => validateMessage call.proposedOutcome = true ∧ sh.gate = some i
  | .missed call => validateMessage call.proposedOutcome = true ∧ sh.gate = some i ∧
      sh.state.completionReviewRequests.lookup call.requestKey = none
  | .reviewed call _ => validateMessage call.proposedOutcome = true ∧ sh.gate = some i ∧
      sh.state.completionReviewRequests.lookup call.requestKey = none

def Shared.Coherent (sh : Shared ι) : Prop :=
  Reviews.Coherent sh.state sh.tokens sh.made sh.answers sh.approvals

theorem coherent_move {i : ι} {a : Action} {l l' : Local} {sh sh' : Shared ι}
    (h : sh.Coherent) (hAsserts : Asserts i l sh) (hMove : move i a l sh = some (l', sh')) :
    sh'.Coherent ∧ Asserts i l' sh' := by
  unfold move at hMove
  split at hMove
  case h_1 call =>
    split at hMove
    · next hValid =>
      cases hMove
      exact ⟨h, hValid⟩
    · cases hMove
      exact ⟨h.answer_error .invalidInput, trivial⟩
  case h_2 call =>
    split at hMove
    · cases hMove
      exact ⟨h, hAsserts⟩
    · next result hCached =>
      cases hMove
      refine ⟨h.answer hAsserts fun _ hOk => ?_, trivial⟩
      exact Except.ok.inj hOk ▸ h.cached hCached
    · cases hMove
      exact ⟨h.answer_error _, trivial⟩
  case h_3 call =>
    split at hMove
    · cases hMove
      exact ⟨h, hAsserts, rfl⟩
    · cases hMove
  case h_4 call =>
    split at hMove
    · next hCached =>
      cases hMove
      exact ⟨h, hAsserts.1, hAsserts.2, cachedCompletionReview_none hCached⟩
    · next result hCached =>
      cases hMove
      refine ⟨h.answer hAsserts.1 fun _ hOk => ?_, trivial⟩
      exact Except.ok.inj hOk ▸ h.cached hCached
    · cases hMove
      exact ⟨h.answer_error _, trivial⟩
  case h_5 answer call =>
    split at hMove
    · cases hMove
      exact ⟨h, hAsserts⟩
    · cases hMove
      exact ⟨h.answer_error _, trivial⟩
  case h_6 token call review =>
    split at hMove
    · cases hMove
      exact ⟨h.answer_error .internal, trivial⟩
    · next reviewId =>
      split at hMove
      · cases hMove
      · next hFresh =>
        cases hMove
        exact ⟨Coherent.store h hFresh hAsserts.1 hAsserts.2.2, trivial⟩
  case h_7 call =>
    split at hMove
    · next approval state hPrepared =>
      cases hMove
      obtain ⟨review, hPrepares, rfl, rfl⟩ := prepareCompletionApproval_ok hPrepared
      exact ⟨Coherent.approve h hPrepares, trivial⟩
    · next error state hPrepared =>
      cases hMove
      exact ⟨prepareCompletionApproval_error hPrepared ▸ h, trivial⟩
  case h_8 sessionId reviewId requestId =>
    cases hMove
    exact ⟨Coherent.of_evolves h
      (evolves_markCompletionReviewConsumed h.linked sessionId reviewId requestId), trivial⟩
  case h_9 now =>
    cases hMove
    exact ⟨Coherent.of_evolves h (evolves_retainLiveSessions h.linked now), trivial⟩
  case h_10 sessions =>
    cases hMove
    exact ⟨{ h with }, trivial⟩
  case h_11 => cases hMove

theorem gate_other {i j : ι} {a : Action} {l l' : Local} {sh sh' : Shared ι} (hNe : j ≠ i)
    (hAsserts : Asserts i l sh) (hMove : move i a l sh = some (l', sh')) (hGate : sh.gate = some j) :
    sh'.gate = some j ∧ ∀ key, sh.state.completionReviewRequests.lookup key = none →
      sh'.state.completionReviewRequests.lookup key = none := by
  have hMine : ¬ sh.gate = some i := fun hEq => hNe (Option.some.inj (hGate.symm.trans hEq))
  unfold move at hMove
  split at hMove
  case h_1 call => split at hMove <;> cases hMove <;> exact ⟨hGate, fun _ => id⟩
  case h_2 call => split at hMove <;> cases hMove <;> exact ⟨hGate, fun _ => id⟩
  case h_3 call =>
    rw [hGate] at hMove
    cases hMove
  case h_4 call => exact absurd hAsserts.2 hMine
  case h_5 answer call => exact absurd hAsserts.2.1 hMine
  case h_6 token call review => exact absurd hAsserts.2.1 hMine
  case h_7 call =>
    split at hMove
    · next approval state hPrepared =>
      cases hMove
      obtain ⟨_, -, -, rfl⟩ := prepareCompletionApproval_ok hPrepared
      exact ⟨hGate, fun _ => id⟩
    · next error state hPrepared =>
      cases hMove
      obtain rfl := prepareCompletionApproval_error hPrepared
      exact ⟨hGate, fun _ => id⟩
  case h_8 => cases hMove; exact ⟨hGate, fun _ => id⟩
  case h_9 now =>
    cases hMove
    refine ⟨hGate, fun key hNone => ?_⟩
    unfold ReviewState.retainLiveSessions
    dsimp only
    rw [Table.lookup_retain, hNone, Option.filter_none]
  case h_10 => cases hMove; exact ⟨hGate, fun _ => id⟩
  case h_11 => cases hMove

theorem asserts_other {i j : ι} {a : Action} {l l' m : Local} {sh sh' : Shared ι} (hNe : j ≠ i)
    (hAsserts : Asserts i l sh) (hOther : Asserts j m sh)
    (hMove : move i a l sh = some (l', sh')) : Asserts j m sh' := by
  cases m with
  | idle => trivial
  | called call => exact hOther
  | waiting call => exact hOther
  | gated call => exact ⟨hOther.1, (gate_other hNe hAsserts hMove hOther.2).1⟩
  | missed call =>
    obtain ⟨hGate, hKept⟩ := gate_other hNe hAsserts hMove hOther.2.1
    exact ⟨hOther.1, hGate, hKept _ hOther.2.2⟩
  | reviewed call review =>
    obtain ⟨hGate, hKept⟩ := gate_other hNe hAsserts hMove hOther.2.1
    exact ⟨hOther.1, hGate, hKept _ hOther.2.2⟩

theorem answer_of_stored {i : ι} {a : Action} {l l' : Local} {sh sh' : Shared ι}
    {call call' : ReviewCall} {outcome : Except WorkbenchPlanningError WorkbenchTaskCompletionReview}
    {result : WorkbenchTaskCompletionReview} (h : sh.Coherent) (hAsserts : Asserts i l sh)
    (hMove : move i a l sh = some (l', sh')) (hAnswer : sh'.answers = (call, outcome) :: sh.answers)
    (hEarlier : (call', .ok result) ∈ sh.answers) (hKey : call'.requestKey = call.requestKey)
    (hStored : (sh.state.completionReviews.lookup result.reviewId).isSome) :
    outcome = if call'.fingerprint = call.fingerprint then .ok result else .error .invalidInput := by
  obtain ⟨review, hReview⟩ := Option.isSome_iff_exists.mp hStored
  obtain ⟨hValid, -, hSame⟩ := h.answered call' result hEarlier
  obtain ⟨hResult, hRequest⟩ := hSame review hReview
  rw [hKey] at hRequest
  have hCached := cachedCompletionReview_of_stored h.linked hRequest hReview call.fingerprint
  have hNone : ¬ sh.state.completionReviewRequests.lookup call.requestKey = none := fun hNone =>
    nomatch hNone.symm.trans hRequest
  have hCachedOk (found : WorkbenchTaskCompletionReview)
      (hFound : sh.state.cachedCompletionReview call.requestKey call.fingerprint = .ok (some found)) :
      .ok found = if call'.fingerprint = call.fingerprint then Except.ok result
        else .error WorkbenchPlanningError.invalidInput := by
    rw [hFound] at hCached
    split at hCached
    · next hEq => rw [if_pos hEq, ← hResult, Option.some.inj (Except.ok.inj hCached)]
    · cases hCached
  have hCachedError (error : WorkbenchPlanningError)
      (hFound : sh.state.cachedCompletionReview call.requestKey call.fingerprint = .error error) :
      .error error = if call'.fingerprint = call.fingerprint then Except.ok result
        else .error WorkbenchPlanningError.invalidInput := by
    rw [hFound] at hCached
    split at hCached
    · cases hCached
    · next hNe => rw [if_neg hNe, Except.error.inj hCached]
  have hGrows {α : Type} {x : α} {xs : List α} : ¬ xs = x :: xs := fun hEq =>
    absurd (congrArg List.length hEq) (by simp)
  unfold move at hMove
  split at hMove
  case h_1 made =>
    split at hMove
    · cases hMove
      exact absurd hAnswer hGrows
    · next hInvalid =>
      cases hMove
      obtain ⟨rfl, rfl⟩ := Prod.mk.inj (List.cons.inj hAnswer).1
      refine (if_neg fun hEq => hInvalid ?_).symm
      have hOutcome : call'.proposedOutcome = made.proposedOutcome :=
        congrArg CompletionReviewFingerprint.proposedOutcome hEq
      exact hOutcome ▸ hValid
  case h_2 made =>
    split at hMove
    · cases hMove
      exact absurd hAnswer hGrows
    · next found hFound =>
      cases hMove
      obtain ⟨rfl, rfl⟩ := Prod.mk.inj (List.cons.inj hAnswer).1
      exact hCachedOk found hFound
    · next error hFound =>
      cases hMove
      obtain ⟨rfl, rfl⟩ := Prod.mk.inj (List.cons.inj hAnswer).1
      exact hCachedError error hFound
  case h_3 =>
    split at hMove
    · cases hMove
      exact absurd hAnswer hGrows
    · cases hMove
  case h_4 made =>
    split at hMove
    · cases hMove
      exact absurd hAnswer hGrows
    · next found hFound =>
      cases hMove
      obtain ⟨rfl, rfl⟩ := Prod.mk.inj (List.cons.inj hAnswer).1
      exact hCachedOk found hFound
    · next error hFound =>
      cases hMove
      obtain ⟨rfl, rfl⟩ := Prod.mk.inj (List.cons.inj hAnswer).1
      exact hCachedError error hFound
  case h_5 answer made =>
    split at hMove
    · cases hMove
      exact absurd hAnswer hGrows
    · cases hMove
      obtain ⟨rfl, -⟩ := Prod.mk.inj (List.cons.inj hAnswer).1
      exact absurd hAsserts.2.2 hNone
  case h_6 token made review' =>
    split at hMove
    · cases hMove
      obtain ⟨rfl, -⟩ := Prod.mk.inj (List.cons.inj hAnswer).1
      exact absurd hAsserts.2.2 hNone
    · split at hMove
      · cases hMove
      · cases hMove
        obtain ⟨rfl, -⟩ := Prod.mk.inj (List.cons.inj hAnswer).1
        exact absurd hAsserts.2.2 hNone
  case h_7 =>
    split at hMove <;> cases hMove <;> exact absurd hAnswer hGrows
  case h_11 => cases hMove
  all_goals
    cases hMove
    exact absurd hAnswer hGrows

/-! ## Runs -/

variable {s t : System ι} {actions : List (ι × Action)} {sessions : Table String WorkbenchSession}

theorem holds_initial :
    Lib.Interleaving.Holds Shared.Coherent Asserts (initial sessions : System ι) := by
  refine ⟨?_, fun _ => trivial⟩
  constructor
  case limit => exact fun _ => Nat.zero_le _
  all_goals exact nofun

variable [DecidableEq ι]

theorem holds_run (hRun : Lib.run systemStep (initial sessions) actions = some s) :
    Lib.Interleaving.Holds Shared.Coherent Asserts s := by
  refine Lib.invariant_of_step (fun s a t hHolds hStep => ?_) holds_initial hRun
  exact Lib.Interleaving.holds_step
    (fun _ _ hMove => coherent_move hHolds.1 (hHolds.2 a.1) hMove)
    (fun _ _ _ hNe hOther hMove => asserts_other hNe (hHolds.2 a.1) hOther hMove) hHolds hStep

/-- What holds of a state of the host, and of each answer given in it. -/
structure BoundOnce (s : System ι) : Prop where
  limit : ∀ sessionId, s.shared.state.reviewCount sessionId ≤ MAX_COMPLETION_REVIEWS_PER_SESSION
  linked : ∀ key request, s.shared.state.completionReviewRequests.lookup key = some request →
    ∃ review, s.shared.state.completionReviews.lookup request.reviewId = some review ∧
      review.sessionId = key.sessionId
  repeated : ∀ a t call outcome call' result, systemStep s a = some t →
    t.shared.answers = (call, outcome) :: s.shared.answers →
    (call', .ok result) ∈ s.shared.answers → call'.requestKey = call.requestKey →
    (s.shared.state.completionReviews.lookup result.reviewId).isSome →
    outcome = if call'.fingerprint = call.fingerprint then .ok result else .error .invalidInput
  bound : ∀ a ∈ s.shared.approvals, ∀ b ∈ s.shared.approvals, a.call.reviewId = b.call.reviewId →
    a.call.requestId = b.call.requestId
  carried : ∀ a ∈ s.shared.approvals, Carries s.shared.made a

/-- In every interleaving reviews are bound once. -/
theorem reviews_bound_once (hRun : Lib.run systemStep (initial sessions) actions = some s) :
    BoundOnce s := by
  have hHolds := holds_run hRun
  constructor
  case limit => exact hHolds.1.limit
  case linked =>
    intro key request hRequest
    obtain ⟨review, hReview, hSession, -⟩ := hHolds.1.linked key request hRequest
    exact ⟨review, hReview, hSession⟩
  case repeated =>
    intro a t call outcome call' result hStep hAnswer hEarlier hKey hStored
    obtain ⟨l, sh, hMove, rfl⟩ := Lib.Interleaving.step_eq_some.mp hStep
    exact answer_of_stored hHolds.1 (hHolds.2 a.1) hMove hAnswer hEarlier hKey hStored
  case bound => exact hHolds.1.bound
  case carried => exact hHolds.1.carried

/-- A thread makes a review, and another approves it twice. -/
def sampleActions : List (Bool × Action) :=
  [ (true, .call ⟨"s", "q", "d", 1, "p", "t", "Done"⟩), (true, .lookup), (true, .acquire),
    (true, .lookup), (true, .validate (.ok ⟨"t", false⟩)), (true, .store (some "r")),
    (false, .prepare ⟨"s", "q1", "d", 1, "p", "r", "t", "Done"⟩),
    (false, .prepare ⟨"s", "q2", "d", 1, "p", "r", "t", "Done"⟩) ]

theorem reviews_bound_once_sample :
    ∃ s, Lib.run systemStep (initial ∅) sampleActions = some s ∧ s.shared.approvals.length = 1 ∧
      BoundOnce s :=
  ⟨_, rfl, rfl, @reviews_bound_once _ _ sampleActions _ _ rfl⟩

end Reviews

end Exosuit.Workbench
