import Exosuit.Plan.ForeignPhase

/-!
# Phases that are taken

The three commands that can take a phase from its owner do take it when they succeed, and leave it
alone when they fail. So a phase of somebody else stays as it was in just the runs in which none of
them succeeds.
-/

namespace Exosuit.Plan

open Lib PhaseOwner SqliteWriter

variable {fx : FractionalIndex} {env : Env} {phaseId : Nat} {db db' : Database} {id : String}

/-! ## Removal of the epoch, release of a stale owner -/

theorem not_spared_removeEpoch (hTakes : Takes env phaseId db (.epochRemove id))
    (hOk : SqliteWriter.removeEpoch id db = .ok db') : ¬ Spared phaseId db db' := by
  intro hSpared
  obtain ⟨epoch, phase, hEpoch, hPhase, hId⟩ := hTakes
  obtain ⟨hMemEpoch, hText⟩ := Rows.byTextId_eq_some.mp hEpoch
  obtain ⟨other, -, hDelete⟩ := removeEpoch_eq_ok hOk
  obtain ⟨-, rfl⟩ := deletePhases_eq_some (deleteEpochs_eq_some hDelete)
  obtain ⟨hKept, -⟩ := Rows.byId_eq_some.mp (hSpared.phase.trans hPhase)
  obtain ⟨-, hNot⟩ := Rows.mem_filter.mp hKept
  rw [Bool.not_eq_true', List.any_eq_false] at hNot
  refine hNot epoch hMemEpoch ?_
  rw [Bool.and_eq_true, beq_iff_eq]
  exact ⟨hId.symm, decide_eq_true hText⟩

def TakesIt (fx : FractionalIndex) (phaseId : Nat) (db : Database) (p : Cmd Unit) : Prop :=
  p.wp (WriterCall.exec fx) (fun _ db' => ¬ Spared phaseId db db') (fun _ db' => Spared phaseId db db') db

theorem takesIt_epochRemove (hTakes : Takes env phaseId db (.epochRemove id)) :
    TakesIt fx phaseId db (epochRemove env id) := by
  unfold TakesIt epochRemove
  rw [Program.wp_bind]
  refine Program.wp_mono (spares_requireEpoch id).outcome (fun _ db₁ h₁ => ?_) fun _ _ h₁ => h₁
  obtain ⟨-, rfl⟩ := h₁
  exact (wp_call rfl).mpr
    (ends_of (fun _ hOk => not_spared_removeEpoch hTakes hOk) fun _ _ => .refl phaseId _)

theorem takesIt_phaseRelease (hTakes : Takes env phaseId db (.phaseRelease id)) :
    TakesIt fx phaseId db (phaseRelease env id) := by
  obtain ⟨phase, owner, hPhase, hId, hOwner, hStale⟩ := hTakes
  unfold TakesIt phaseRelease releasePhaseOwner
  rw [Program.wp_bind]
  refine Program.wp_mono (spares_requirePhase id).outcome (fun _ db₁ h₁ => ?_) fun _ _ h₁ => h₁
  obtain ⟨-, rfl⟩ := h₁
  refine (wp_query _).mpr ?_
  rw [loadPhaseOwner_of_some hPhase, hId, hOwner]
  have hExec : (WriterCall.clearPhaseOwnerIfCurrent id owner.identity).exec fx db₁ =
      (.ok true, { db₁ with phaseOwnership := db₁.phaseOwnership.erase phase.id }) := by
    have hFound : PhaseOwner.clearPhaseOwnerIfCurrent owner.identity (some owner) = some owner := by
      rw [PhaseOwner.clearPhaseOwnerIfCurrent, Option.filter_some, decide_eq_true rfl, if_pos rfl]
    simp only [WriterCall.exec, SqliteWriter.clearPhaseOwnerIfCurrent, resolveId, hPhase, bind, Except.bind,
      hId, hOwner, hFound]
    rfl
  dsimp only
  rw [hStale, Bool.not_true, Bool.and_false, if_neg Bool.false_ne_true, Program.wp_bind,
    Program.wp_of_run_ok ((Program.run_perform _ _ _).trans hExec)]
  intro hSpared
  have hErased := hSpared.owner.trans hOwner
  rw [Table.lookup_erase, if_pos hId.symm] at hErased
  cases hErased

/-! ## A start that takes over -/

/-- The workspace has the phase, and the phases that are still to be written to are there. -/
structure Held (env : Env) (phaseId : Nat) (textIds : List String) (db : Database) : Prop where
  owned : ∃ owner, db.phaseOwnership.lookup phaseId = some owner ∧ env.foreign owner = false
  there : ∀ textId ∈ textIds, ∃ phase, db.phases.byTextId textId = some phase

section

variable {textIds : List String} {textId : String}

/-- The program does not fail, and the workspace keeps the phase. -/
def Holds (fx : FractionalIndex) (env : Env) (phaseId : Nat) (textIds : List String) (db : Database)
    {α : Type} (p : Cmd α) : Prop :=
  p.wp (WriterCall.exec fx) (fun _ db' => Held env phaseId textIds db') (fun _ _ => False) db

theorem Holds.bind {α β : Type} {p : Cmd α} {f : α → Cmd β} (hp : Holds fx env phaseId textIds db p)
    (hf : ∀ a db', Held env phaseId textIds db' → Holds fx env phaseId textIds db' (f a)) :
    Holds fx env phaseId textIds db (p >>= f) :=
  Program.wp_bind.mpr (Program.wp_mono hp hf fun _ _ hFalse => hFalse)

theorem Holds.updatePhaseStatus (h : Held env phaseId textIds db) (hMem : textId ∈ textIds)
    {status now : String}
    {newStatus : Status} (hStatus : Status.fromName status = some newStatus) :
    Holds fx env phaseId textIds db (Cmd.call (.updatePhaseStatus textId status now)) := by
  obtain ⟨phase, hPhase⟩ := h.there textId hMem
  refine (wp_call rfl).mpr (ends_of (fun db' hOk => ?_) fun e hError => ?_)
  · obtain ⟨phase', newStatus', phases, -, -, rfl, rfl⟩ := updatePhaseStatus_eq_ok hOk
    have hThere : ∀ f : PhaseData → PhaseData, ∀ other ∈ textIds, ∃ phase,
        (db.phases.update (fun row => row.textId = textId) f).byTextId other = some phase := by
      intro f other hOther
      obtain ⟨row, hRow⟩ := h.there other hOther
      rw [Rows.byTextId_update, hRow]
      exact ⟨_, rfl⟩
    split
    · exact ⟨h.owned, hThere _⟩
    · exact ⟨h.owned, hThere _⟩
  · simp only [SqliteWriter.updatePhaseStatus, hPhase, hStatus] at hError
    cases hError

theorem Holds.focusHere (h : Held env phaseId textIds db) (hMem : textId ∈ textIds) :
    Holds fx env phaseId textIds db (Plan.focusHere env textId) := by
  obtain ⟨phase, hPhase⟩ := h.there textId hMem
  unfold Plan.focusHere
  split
  · next root _ =>
    refine (wp_call rfl).mpr (ends_of (fun db' hOk => ?_) fun e hError => ?_)
    · obtain ⟨phase', focus, -, -, rfl⟩ := focusPhaseForWorkspace_eq_ok hOk
      exact ⟨h.owned, h.there⟩
    · simp only [SqliteWriter.focusPhaseForWorkspace, setWorkspaceActivePhase, resolveId, hPhase] at hError
      cases hError
  · exact h

theorem Holds.attemptGuard (h : Held env phaseId textIds db) :
    Holds fx env phaseId textIds db (ensurePhaseWriteAllowed env textId).attempt := by
  refine Program.wp_attempt.mpr (wp_ensurePhaseWriteAllowed.mpr (ends_of (fun db' hOk => ?_) fun _ _ => h))
  obtain ⟨owner, hOwner, hOwn⟩ := h.owned
  obtain ⟨phase, -, ⟨_, -, -, rfl⟩ | ⟨hNone, rfl⟩⟩ := guarded_eq_ok hOk
  · exact h
  · refine ⟨⟨owner, ?_, hOwn⟩, h.there⟩
    have hNe : phaseId ≠ phase.id := fun hEq => by
      rw [hEq, hNone] at hOwner
      cases hOwner
    exact (Table.lookup_insert _ _ _ _).trans ((if_neg hNe).trans hOwner)

end

theorem claimed_takeOver {phase : Row PhaseData} {owner : PhaseOwnerData} (hPhase : phase ∈ db.phases)
    (hOwner : db.phaseOwnership.lookup phase.id = some owner) :
    ∃ claimedAt, claimed env phase.textId true db =
      .ok (db.ownedBy phase.id (env.current.claimed claimedAt env.now)) := by
  rw [claimed, Rows.byTextId_eq_some.mpr ⟨hPhase, rfl⟩]
  dsimp only
  rw [hOwner]
  dsimp only
  rw [Bool.not_true, Bool.and_false, if_neg Bool.false_ne_true]
  exact ⟨_, rfl⟩

theorem not_foreign_claimed (claimedAt now : String) :
    env.foreign (env.current.claimed claimedAt now) = false := by
  rw [Env.foreign, ownerMatches_iff.mpr (identity_claimed env.current claimedAt now), Bool.not_true]

theorem not_spared_of_held {textIds : List String} (h : Foreign env phaseId db)
    (hHeld : Held env phaseId textIds db') : ¬ Spared phaseId db db' := by
  intro hSpared
  obtain ⟨owner, hOwner, hForeign⟩ := (h.mono hSpared).owned
  obtain ⟨owner', hOwner', hOwn⟩ := hHeld.owned
  obtain rfl := Option.some.inj (hOwner.symm.trans hOwner')
  rw [hForeign] at hOwn
  cases hOwn

/-- Nothing after the claim can fail. -/
theorem takesIt_phaseStart {start : Option String} {takeOver : Bool} (h : Foreign env phaseId db)
    (hTakes : Takes env phaseId db (.phaseStart start takeOver)) :
    TakesIt fx phaseId db (phaseStart env start takeOver) := by
  obtain ⟨rfl, phase, hFound, hId⟩ := hTakes
  obtain ⟨owner, hOwner, -⟩ := h.owned
  unfold TakesIt phaseStart
  rw [Program.wp_bind]
  refine Program.wp_mono (spares_phaseToStart start).outcome (fun next db₁ h₁ => ?_) fun _ _ h₁ => h₁
  obtain ⟨-, hNext, rfl⟩ := h₁
  obtain rfl := Option.some.inj (hNext.symm.trans hFound)
  have hMem := mem_of_phaseToStart hNext
  rw [Program.wp_bind]
  refine Program.wp_mono (spares_activePhaseToDemote next).outcome (fun demote db₂ h₂ => ?_) fun _ _ h₂ => h₂
  obtain ⟨-, rfl, hDemote⟩ := h₂
  obtain ⟨claimedAt, hClaimed⟩ := claimed_takeOver hMem (hId ▸ hOwner)
  rw [Program.wp_bind, wp_claimPhaseForCurrentOwner, hClaimed, ends_ok]
  have hHeld : Held env phaseId (next.textId :: demote.toList)
      (db₂.ownedBy next.id (env.current.claimed claimedAt env.now)) := by
    refine ⟨⟨_, (Table.lookup_insert _ _ _ _).trans (if_pos hId.symm), not_foreign_claimed _ _⟩, ?_⟩
    intro textId hTextId
    rcases List.mem_cons.mp hTextId with rfl | hActive
    · exact ⟨next, Rows.byTextId_eq_some.mpr ⟨hMem, rfl⟩⟩
    · obtain ⟨active, hActiveMem, hText⟩ := hDemote textId (Option.mem_toList.mp hActive)
      exact ⟨active, Rows.byTextId_eq_some.mpr ⟨hActiveMem, hText⟩⟩
  refine Program.wp_mono (Q := fun _ db' => Held env phaseId (next.textId :: demote.toList) db')
    (E := fun _ _ => False) ?_ (fun _ db' hEnd => not_spared_of_held h hEnd) fun _ _ hFalse => hFalse.elim
  have hFirst : next.textId ∈ next.textId :: demote.toList := List.mem_cons_self
  have hFocus : ∀ db', Held env phaseId (next.textId :: demote.toList) db' →
      Holds fx env phaseId (next.textId :: demote.toList) db' (focusHere env next.textId) :=
    fun _ h' => .focusHere h' hFirst
  have hStart : ∀ db', Held env phaseId (next.textId :: demote.toList) db' →
      Holds fx env phaseId (next.textId :: demote.toList) db' (do
        Cmd.call (.updatePhaseStatus next.textId "in-progress" env.now)
        focusHere env next.textId) :=
    fun _ h' => .bind (.updatePhaseStatus h' hFirst rfl) fun _ db'' h'' => hFocus db'' h''
  change Holds fx env phaseId (next.textId :: demote.toList) _ _
  split
  · split
    · exact hStart _ hHeld
    · next active =>
      refine .bind (.attemptGuard hHeld) fun r db₃ h₃ => ?_
      split
      · exact .bind (.updatePhaseStatus h₃ (List.mem_cons_of_mem _ (List.mem_singleton_self active)) rfl)
          fun _ db₄ h₄ => hStart db₄ h₄
      · exact hStart db₃ h₃
  · split
    · exact hFocus _ hHeld
    · next active =>
      refine .bind (.attemptGuard hHeld) fun r db₃ h₃ => ?_
      split
      · exact .bind (.updatePhaseStatus h₃ (List.mem_cons_of_mem _ (List.mem_singleton_self active)) rfl)
          fun _ db₄ h₄ => hFocus db₄ h₄
      · exact hFocus db₃ h₃

/-! ## All commands -/

theorem takesIt_of_takes {command : Command} (h : Foreign env phaseId db)
    (hTakes : Takes env phaseId db command) :
    TakesIt fx phaseId db (command.executeMut env) := by
  cases command with
  | epochRemove id => exact takesIt_epochRemove hTakes
  | phaseStart id takeOver => exact takesIt_phaseStart h hTakes
  | phaseRelease phaseId => exact takesIt_phaseRelease hTakes
  | _ => cases hTakes

theorem spared_iff {command : Command} (h : Foreign env phaseId db) :
    Spared phaseId db (dispatchMut fx env command db).2 ↔
      ((dispatchMut fx env command db).1 = .ok () → ¬ Takes env phaseId db command) := by
  by_cases hTakes : Takes env phaseId db command
  · have hOutcome : TakesIt fx phaseId db (command.executeMut env) := takesIt_of_takes h hTakes
    rw [TakesIt, Program.wp] at hOutcome
    rw [dispatchMut]
    rcases hRun : (command.executeMut env).run (WriterCall.exec fx) db with ⟨_ | _, db'⟩ <;>
      rw [hRun] at hOutcome
    · exact iff_of_true hOutcome fun hOk => by cases hOk
    · exact iff_of_false hOutcome fun hNot => hNot rfl hTakes
  · exact iff_of_true (spared_of_not_takes h hTakes) fun _ => hTakes

/-! ## Runs -/

/-- In a run of other workspaces the phase is at every point as it was, its row, its owner, its goals
and their tasks, just when no request succeeds in taking it. -/
theorem foreign_phase_spared {owner : PhaseOwnerData} (hPlaced : Placed phaseId db)
    (hOwner : db.phaseOwnership.lookup phaseId = some owner) {requests : List Request}
    (hForeign : ∀ request ∈ requests, request.env.foreign owner = true) :
    (∀ done db', done <+: requests → run (step fx) db done = some db' → Spared phaseId db db') ↔
      Along (step fx) (fun db request => (dispatchMut fx request.env request.command db).1 = .ok () →
        ¬ Takes request.env phaseId db request.command) db requests := by
  induction requests generalizing db with
  | nil =>
    refine iff_of_true (fun done db' hDone hRun => ?_) trivial
    obtain rfl := List.prefix_nil.mp hDone
    obtain rfl := Option.some.inj hRun
    exact .refl phaseId db
  | cons request requests ih =>
    obtain ⟨hHead, hTail⟩ := List.forall_mem_cons.mp hForeign
    have hStep : Spared phaseId db (dispatchMut fx request.env request.command db).2 ↔
        ((dispatchMut fx request.env request.command db).1 = .ok () →
          ¬ Takes request.env phaseId db request.command) :=
      spared_iff ⟨hPlaced, owner, hOwner, hHead⟩
    have hRest (hSpared : Spared phaseId db (dispatchMut fx request.env request.command db).2) :=
      ih (hPlaced.mono hSpared) (hSpared.owner.trans hOwner) hTail
    constructor
    · intro hAll
      have hSpared := hAll [request] _ (List.prefix_append [request] requests) rfl
      refine ⟨hStep.mp hSpared, fun s' hs' => ?_⟩
      obtain rfl := Option.some.inj hs'
      refine (hRest hSpared).mp fun done db' hDone hRun => hSpared.symm.trans ?_
      exact hAll (request :: done) db' (List.cons_prefix_cons.mpr ⟨rfl, hDone⟩) hRun
    · rintro ⟨hNot, hAlong⟩ done db' hDone hRun
      have hSpared := hStep.mpr hNot
      cases done with
      | nil =>
        obtain rfl := Option.some.inj hRun
        exact .refl phaseId db
      | cons first done =>
        obtain ⟨rfl, hPrefix⟩ := List.cons_prefix_cons.mp hDone
        exact hSpared.trans ((hRest hSpared).mpr (hAlong _ rfl) done db' hPrefix hRun)

/-- What workspace `b` tries: an epoch of its own, and the removal of a goal of `a`. -/
def foreignRequests : List Request :=
  [ ⟨sampleEnv "b" "e2", .epochAdd "Other" none⟩,
    ⟨sampleEnv "b" "", .goalRemove "g1" (some "p1")⟩ ]

theorem foreign_phase_spared_sample :
    ∃ db db', run (step sampleIndex) .empty sampleRequests = some db ∧
      run (step sampleIndex) db foreignRequests = some db' ∧ Spared 1 db db' := by
  refine ⟨_, _, rfl, rfl, ?_⟩
  refine (@foreign_phase_spared sampleIndex 1 _ _ ⟨_, _, rfl, rfl⟩ rfl foreignRequests ?_).mpr ?_ _ _
    (List.prefix_refl _) rfl
  · intro request hRequest
    rcases List.mem_cons.mp hRequest with rfl | hLast
    · decide +kernel
    · obtain rfl := List.mem_singleton.mp hLast
      decide +kernel
  · refine along_of_mem fun db request hRequest _ => ?_
    rcases List.mem_cons.mp hRequest with rfl | hLast
    · exact id
    · obtain rfl := List.mem_singleton.mp hLast
      exact id

end Exosuit.Plan
