import Exosuit.Plan.Completion
import Exosuit.Plan.Spared

/-!
# Phases of somebody else

What the commands of a workspace leave of a phase that another identity owns. Three commands
can take the phase: the removal of its epoch, which asks no owner, a start with the take-over
flag, and the release of a stale owner. All others spare it, whether they fail or not.
-/

namespace Exosuit.Plan

open Lib PhaseOwner SqliteWriter

variable {fx : FractionalIndex} {env : Env} {phaseId : Nat} {db db' : Database}

/-- The phase is in the plan, and somebody other than the workspace owns it. -/
structure Foreign (env : Env) (phaseId : Nat) (db : Database) : Prop where
  placed : Placed phaseId db
  owned : ∃ owner, db.phaseOwnership.lookup phaseId = some owner ∧ env.foreign owner = true

theorem Foreign.mono (h : Foreign env phaseId db) (hSpared : Spared phaseId db db') :
    Foreign env phaseId db' := by
  obtain ⟨owner, hOwner, hForeign⟩ := h.owned
  exact ⟨h.placed.mono hSpared, owner, hSpared.owner.trans hOwner, hForeign⟩

/-! ## Rules -/

section

variable {α β : Type} {Q : α → Database → Prop} {R : β → Database → Prop} {p : Cmd α} {f : α → Cmd β}

/-- The program spares the phase, and ends with `Q` or fails. -/
structure Spares (fx : FractionalIndex) (phaseId : Nat) (db : Database) (p : Cmd α)
    (Q : α → Database → Prop) : Prop where
  outcome : p.wp (WriterCall.exec fx) (fun a db' => Spared phaseId db db' ∧ Q a db')
    (fun _ db' => Spared phaseId db db') db

theorem Spares.spared (h : Spares fx phaseId db p Q) : Spared phaseId db (p.run (WriterCall.exec fx) db).2 :=
  Program.snd_of_wp (Program.wp_mono h.outcome (fun _ _ h' => h'.1) fun _ _ h' => h')

theorem Spares.mono {Q' : α → Database → Prop} (h : Spares fx phaseId db p Q)
    (hQ : ∀ a db', Q a db' → Q' a db') : Spares fx phaseId db p Q' :=
  ⟨Program.wp_mono h.outcome (fun a db' h' => ⟨h'.1, hQ a db' h'.2⟩) fun _ _ h' => h'⟩

theorem Spares.pure {a : α} (h : Q a db) : Spares fx phaseId db (pure a) Q := ⟨.refl phaseId db, h⟩

theorem Spares.fail (e : Failure) : Spares fx phaseId db (Cmd.fail e) Q := ⟨Spared.refl phaseId db⟩

theorem Spares.anyhow (message : String) : Spares fx phaseId db (Cmd.anyhow message) Q :=
  ⟨Spared.refl phaseId db⟩

theorem Spares.exo (code : Daemon.ErrorCode) (message : String) :
    Spares fx phaseId db (Cmd.exo code message) Q := ⟨Spared.refl phaseId db⟩

theorem Spares.bind (hp : Spares fx phaseId db p Q)
    (hf : ∀ a db', Spared phaseId db db' → Q a db' → Spares fx phaseId db' (f a) R) :
    Spares fx phaseId db (p >>= f) R := by
  refine ⟨Program.wp_bind.mpr (Program.wp_mono hp.outcome (fun a db' h => ?_) fun _ _ h => h)⟩
  refine Program.wp_mono (hf a db' h.1 h.2).outcome (fun _ _ h' => ?_) fun _ _ h' => h.1.trans h'
  exact ⟨h.1.trans h'.1, h'.2⟩

theorem Spares.query {g : Database → α} (h : Spares fx phaseId db (f (g db)) R) :
    Spares fx phaseId db (Cmd.query g >>= f) R := ⟨h.outcome⟩

theorem Spares.ofExcept {r : Except Failure α} (h : ∀ a, r = .ok a → Q a db) :
    Spares fx phaseId db (Program.ofExcept r) Q := by
  cases r with
  | ok a => exact ⟨.refl phaseId db, h a rfl⟩
  | error e => exact ⟨Spared.refl phaseId db⟩

theorem Spares.tryQuery {g : Database → Except Failure α}
    (h : ∀ a, g db = .ok a → Spares fx phaseId db (f a) R) :
    Spares fx phaseId db (Cmd.tryQuery g >>= f) R := by
  refine Spares.bind (Q := fun a db' => g db = .ok a ∧ db' = db) ?_ fun a db' _ hRead => ?_
  · exact Spares.query (Spares.ofExcept fun a ha => ⟨ha, rfl⟩)
  · obtain ⟨ha, rfl⟩ := hRead
    exact h a ha

theorem Spares.attempt (h : Spares fx phaseId db p Q) :
    Spares fx phaseId db p.attempt fun r db' => ∀ a, r = .ok a → Q a db' := by
  refine ⟨Program.wp_attempt.mpr (Program.wp_mono h.outcome (fun a db' h' => ?_) fun e db' h' => ?_)⟩
  · exact ⟨h'.1, fun b hb => Except.ok.inj hb ▸ h'.2⟩
  · exact ⟨h', fun b hb => by cases hb⟩

end

theorem Spares.perform (hPlaced : Placed phaseId db) {op : WriterCall} (h : Misses phaseId db op) :
    Spares fx phaseId db (Program.perform op) fun reply db' => op.exec fx db = (.ok reply, db') := by
  have hSpared : Spared phaseId db (op.exec fx db).2 := Spared.exec hPlaced op h
  constructor
  rw [Program.wp, Program.run_perform]
  rcases hExec : op.exec fx db with ⟨r, db'⟩
  rw [hExec] at hSpared
  cases r with
  | ok reply => exact ⟨hSpared, rfl⟩
  | error e => exact hSpared

theorem Spares.callOk (hPlaced : Placed phaseId db) {op : WriterCall} (h : Misses phaseId db op) :
    Spares fx phaseId db (Cmd.call op) fun _ db' => ∃ reply, op.exec fx db = (.ok reply, db') :=
  .bind (.perform hPlaced h) fun reply _ _ hExec => .pure ⟨reply, hExec⟩

theorem Spares.attemptCall (hPlaced : Placed phaseId db) {op : WriterCall} (h : Misses phaseId db op) :
    Spares fx phaseId db (Cmd.call op).attempt fun r db' =>
      ∀ e, r = .error e → op.exec fx db = (.error e, db') := by
  have hSpared : Spared phaseId db (op.exec fx db).2 := Spared.exec hPlaced op h
  refine ⟨Program.wp_attempt.mpr ?_⟩
  rw [Program.wp, Cmd.run_call]
  rcases hExec : op.exec fx db with ⟨r, db'⟩
  rw [hExec] at hSpared
  cases r with
  | ok reply => exact ⟨hSpared, fun e hError => by cases hError⟩
  | error e => exact ⟨hSpared, fun e' hError => by cases hError; rfl⟩

abbrev SparesOnly (fx : FractionalIndex) (phaseId : Nat) (db : Database) (p : Cmd Unit) : Prop :=
  Spares fx phaseId db p fun _ _ => True

theorem Spares.call (hPlaced : Placed phaseId db) {op : WriterCall} (h : Misses phaseId db op) :
    SparesOnly fx phaseId db (Cmd.call op) := (Spares.callOk hPlaced h).mono fun _ _ _ => trivial

theorem otherPhase_of_guarded {textId : String} (h : Foreign env phaseId db)
    (hOk : guarded env textId db = .ok db') :
    OtherPhase phaseId db textId := by
  obtain ⟨owner, hOwner, hForeign⟩ := h.owned
  obtain ⟨phase, hPhase, hGuard⟩ := guarded_eq_ok hOk
  intro row hRow hId
  obtain rfl := Option.some.inj (hRow.symm.trans hPhase)
  rw [hId, hOwner] at hGuard
  obtain ⟨owner', hSame, hOwn, -⟩ | ⟨hNone, -⟩ := hGuard
  · obtain rfl := Option.some.inj hSame
    rw [hForeign] at hOwn
    cases hOwn
  · cases hNone

theorem spared_of_guarded {textId : String} (h : Foreign env phaseId db)
    (hOk : guarded env textId db = .ok db') :
    Spared phaseId db db' := by
  obtain ⟨phase, hPhase, ⟨_, -, -, rfl⟩ | ⟨-, rfl⟩⟩ := guarded_eq_ok hOk
  · exact .refl phaseId _
  · exact .setOwner (otherPhase_of_guarded h hOk) hPhase env.claim

theorem Spares.guard (h : Foreign env phaseId db) (textId : String) :
    Spares fx phaseId db (ensurePhaseWriteAllowed env textId) fun _ db' =>
      OtherPhase phaseId db' textId ∧ ∃ phaseOwnership, db' = { db with phaseOwnership } := by
  refine ⟨wp_ensurePhaseWriteAllowed.mpr (ends_of (fun db' hOk => ?_) fun _ _ => .refl phaseId db)⟩
  have hSpared := spared_of_guarded h hOk
  exact ⟨hSpared, (otherPhase_of_guarded h hOk).mono hSpared, guarded_frame hOk⟩

theorem Spares.claim (h : Foreign env phaseId db) {textId : String} {takeOver : Bool}
    (hOther : takeOver = true → OtherPhase phaseId db textId) :
    Spares fx phaseId db (claimPhaseForCurrentOwner env textId takeOver) fun _ db' =>
      OtherPhase phaseId db' textId := by
  refine ⟨wp_claimPhaseForCurrentOwner.mpr (ends_of (fun db' hOk => ?_) fun _ _ => .refl phaseId db)⟩
  obtain ⟨owner, hOwner, hForeign⟩ := h.owned
  unfold claimed at hOk
  split at hOk
  · cases hOk
  · next phase hPhase =>
    have hMiss : OtherPhase phaseId db textId := by
      cases takeOver with
      | true => exact hOther rfl
      | false =>
        intro row hRow hId
        obtain rfl := Option.some.inj (hRow.symm.trans hPhase)
        rw [hId, hOwner] at hOk
        simp only [hForeign, Bool.not_false, Bool.and_self, if_true] at hOk
        cases hOk
    have hSpared (owner : PhaseOwnerData) : Spared phaseId db (db.ownedBy phase.id owner) :=
      .setOwner hMiss hPhase owner
    split at hOk
    · cases hOk
      exact ⟨hSpared _, hMiss.mono (hSpared _)⟩
    · split at hOk
      · cases hOk
      · cases hOk
        exact ⟨hSpared _, hMiss.mono (hSpared _)⟩

/-! ## What the commands read -/

theorem mem_phasesOf {epochId : Nat} {phase : Row PhaseData} :
    phase ∈ db.phasesOf epochId ↔ phase ∈ db.phases ∧ phase.data.epochId = epochId := by
  rw [Database.phasesOf, mem_orderBy, List.mem_filter, decide_eq_true_eq]
  exact Iff.rfl

theorem mem_planPhases {phase : Row PhaseData} :
    phase ∈ db.planPhases ↔ phase ∈ db.phases ∧ (db.epochs.byId phase.data.epochId).isSome := by
  rw [Database.planPhases, List.mem_flatMap, Option.isSome_iff_exists]
  constructor
  · rintro ⟨epoch, hEpoch, hPhase⟩
    obtain ⟨hMem, hId⟩ := mem_phasesOf.mp hPhase
    exact ⟨hMem, epoch, Rows.byId_eq_some.mpr ⟨mem_orderBy.mp hEpoch, hId.symm⟩⟩
  · rintro ⟨hMem, epoch, hEpoch⟩
    obtain ⟨hMemEpoch, hId⟩ := Rows.byId_eq_some.mp hEpoch
    exact ⟨epoch, mem_orderBy.mpr hMemEpoch, mem_phasesOf.mpr ⟨hMem, hId.symm⟩⟩

theorem byTextId_of_findPhaseByTextId {textId : String} {phase : Row PhaseData}
    (h : db.findPhaseByTextId textId = some phase) : db.phases.byTextId textId = some phase := by
  obtain ⟨hText, -⟩ := List.find?_eq_some_iff_append.mp h
  exact Rows.byTextId_eq_some.mpr
    ⟨(mem_planPhases.mp (List.mem_of_find?_eq_some h)).1, of_decide_eq_true hText⟩

theorem mem_of_findWorkspaceActivePhase {phase : Row PhaseData}
    (h : db.findWorkspaceActivePhase env = some phase) :
    phase ∈ db.phases := by
  unfold Database.findWorkspaceActivePhase at h
  split at h
  · obtain ⟨h, -⟩ := Option.filter_eq_some_iff.mp h
    exact (Rows.byTextId_eq_some.mp (byTextId_of_findPhaseByTextId h)).1
  · unfold Database.findSingleGlobalActivePhase at h
    split at h
    · next single hSingle =>
      obtain rfl := Option.some.inj h
      have hMem : single ∈ [single] := List.mem_singleton_self single
      rw [← hSingle] at hMem
      exact (mem_planPhases.mp (List.mem_of_mem_filter hMem)).1
    · cases h

theorem otherGoal_of_phase {textId : String} {goal : Row GoalData} {phase : Row PhaseData}
    (hGoal : db.goals.byTextId textId = some goal) (hPhase : db.phases.byId goal.data.phaseId = some phase)
    (h : OtherPhase phaseId db phase.textId) : OtherGoal phaseId db textId := by
  intro row hRow hId
  obtain rfl := Option.some.inj (hRow.symm.trans hGoal)
  obtain ⟨hMem, hPhaseId⟩ := Rows.byId_eq_some.mp hPhase
  exact h phase (Rows.byTextId_eq_some.mpr ⟨hMem, rfl⟩) (hPhaseId.trans hId)

theorem otherGoal_of_goalPhaseId {goalId textId : String} (hGoal : db.goalPhaseId goalId = some textId)
    (h : OtherPhase phaseId db textId) : OtherGoal phaseId db goalId := by
  obtain ⟨goal, hRow, hMap⟩ := Option.bind_eq_some_iff.mp hGoal
  obtain ⟨phase, hPhase, rfl⟩ := Option.map_eq_some_iff.mp hMap
  exact otherGoal_of_phase hRow hPhase h

theorem otherGoal_of_mem_goalsOf {phase : Row PhaseData} {goal : Row GoalData} (hPhase : phase ∈ db.phases)
    (hGoal : goal ∈ db.goalsOf phase.id) (h : OtherPhase phaseId db phase.textId) :
    OtherGoal phaseId db goal.textId := by
  obtain ⟨hMem, hId⟩ := mem_of_mem_goalsOf hGoal
  refine otherGoal_of_phase (Rows.byTextId_eq_some.mpr ⟨hMem, rfl⟩) ?_ h
  exact Rows.byId_eq_some.mpr ⟨hPhase, hId.symm⟩

theorem otherTask_of_resolves {reference : String} {task : ResolvedTaskReference}
    (hTask : db.resolveTaskReference reference = some task) (h : OtherPhase phaseId db task.phaseId) :
    OtherTask phaseId db task.rowId := by
  obtain ⟨row, goal, phase, hResolves⟩ := resolves_of_resolveTaskReference hTask
  rintro other hOther ⟨goal', hGoal', hId, hPhaseId⟩
  obtain rfl := Option.some.inj (hOther.symm.trans hResolves.row_mem)
  obtain ⟨hGoal, hGoalId⟩ := Rows.byId_eq_some.mp hResolves.goal_mem
  obtain rfl := Rows.eq_of_id hGoal' hGoal (hId.trans hGoalId.symm)
  obtain ⟨hPhase, hSame⟩ := Rows.byId_eq_some.mp hResolves.phase_mem
  exact h phase (Rows.byTextId_eq_some.mpr ⟨hPhase, hResolves.phaseId.symm⟩) (hSame.trans hPhaseId)

/-! ## Commands on epochs -/

theorem spares_requireEpoch (id : String) :
    Spares fx phaseId db (requireEpoch env id) fun _ db' => db' = db := by
  unfold requireEpoch
  refine .query ?_
  split
  · exact .pure rfl
  · exact .anyhow _

theorem spares_requirePhase (id : String) :
    Spares fx phaseId db (requirePhase id) fun _ db' => db' = db := by
  unfold requirePhase
  refine .query ?_
  split
  · exact .pure rfl
  · exact .anyhow _

theorem spares_epochFinish : SparesOnly fx phaseId db (epochFinish env) := by
  unfold epochFinish
  refine .query ?_
  split
  · exact .anyhow _
  · refine .query ?_
    dsimp only
    split
    · exact .pure trivial
    · exact .anyhow _

theorem spares_focusHere (h : Foreign env phaseId db) (id : String) :
    SparesOnly fx phaseId db (focusHere env id) := by
  unfold focusHere
  split
  · exact .call h.placed trivial
  · exact .pure trivial

theorem spares_epochReview (h : Foreign env phaseId db) (epochId : String) :
    SparesOnly fx phaseId db (epochReview env epochId) := by
  unfold epochReview
  refine .bind (spares_requireEpoch epochId) fun epoch db' hSpared _ => .query ?_
  split
  · exact .pure trivial
  · split
    · exact .anyhow _
    · exact .call (h.mono hSpared).placed trivial

theorem spares_epochStart (h : Foreign env phaseId db) (epochId : String) :
    SparesOnly fx phaseId db (epochStart env epochId) := by
  unfold epochStart
  refine .bind (spares_requireEpoch epochId) fun epoch db₁ h₁ _ => .query ?_
  split
  · exact .anyhow _
  · refine .query ?_
    split
    · exact .anyhow _
    · next phase _ =>
      refine .bind (.claim (h.mono h₁) fun hTake => by cases hTake) fun _ db₂ h₂ hOther => ?_
      have hForeign := (h.mono h₁).mono h₂
      split
      · refine .bind (.call hForeign.placed hOther) fun _ db₃ h₃ _ => ?_
        exact spares_focusHere (hForeign.mono h₃) phase.textId
      · exact spares_focusHere hForeign phase.textId

theorem spares_epochAdd (h : Foreign env phaseId db) (title : String) (after : Option String) :
    SparesOnly fx phaseId db (epochAdd env title after) := by
  unfold epochAdd
  split
  · exact .call h.placed trivial
  · refine .query ?_
    split
    · exact .bind (.call h.placed trivial) fun _ db' hSpared _ => .call (h.mono hSpared).placed trivial
    · exact .exo _ _

theorem spares_epochReorder (h : Foreign env phaseId db) (id position : String) :
    SparesOnly fx phaseId db (epochReorder env id position) := by
  unfold epochReorder
  exact .bind (spares_requireEpoch id) fun _ _ hSpared _ => .call (h.mono hSpared).placed trivial

theorem spares_ensureAll (h : Foreign env phaseId db) (phases : List (Row PhaseData)) :
    Spares fx phaseId db (ensureAll env phases) fun _ db' =>
      (∀ phase ∈ phases, OtherPhase phaseId db' phase.textId) ∧
        ∃ phaseOwnership, db' = { db with phaseOwnership } := by
  induction phases generalizing db with
  | nil => exact .pure ⟨fun _ hMem => absurd hMem List.not_mem_nil, _, rfl⟩
  | cons phase phases ih =>
    rw [ensureAll]
    refine .bind (.guard h phase.textId) fun _ db₁ h₁ hGuard => ?_
    obtain ⟨hOther, owners, rfl⟩ := hGuard
    refine (ih (h.mono h₁)).mono fun _ db₂ hRest => ?_
    obtain ⟨hAll, owners', rfl⟩ := hRest
    exact ⟨List.forall_mem_cons.mpr ⟨hOther, hAll⟩, owners', rfl⟩

theorem spares_epochBankrupt (h : Foreign env phaseId db) (id : String) :
    SparesOnly fx phaseId db (epochBankrupt env id) := by
  unfold epochBankrupt
  refine .query ?_
  split
  · exact .anyhow _
  · next epoch hFind =>
    refine .query (.bind (spares_ensureAll h (db.phasesOf epoch.id)) fun _ db' hSpared hAll => ?_)
    obtain ⟨hOther, owners, rfl⟩ := hAll
    refine .call (h.mono hSpared).placed fun row phase hRow hPhase hId => ?_
    obtain ⟨hText, -⟩ := List.find?_eq_some_iff_append.mp hFind
    obtain ⟨hMemRow, hRowText⟩ := Rows.byTextId_eq_some.mp hRow
    obtain ⟨hMem, hPhaseId⟩ := Rows.byId_eq_some.mp hPhase
    have hMemEpoch := mem_orderBy.mp (List.mem_of_find?_eq_some hFind)
    obtain rfl := Rows.eq_of_textId hMemRow hMemEpoch (hRowText.trans (of_decide_eq_true hText).symm)
    exact hOther phase (mem_phasesOf.mpr ⟨hMem, hId⟩) phase (Rows.byTextId_eq_some.mpr ⟨hMem, rfl⟩) hPhaseId

/-! ## Commands on phases -/

theorem spares_phaseToStart (id : Option String) :
    Spares fx phaseId db (phaseToStart env id) fun phase db' =>
      id.elim (db.findNextPendingPhase env) db.findStartablePhase = some phase ∧ db' = db := by
  unfold phaseToStart
  refine .query ?_
  split
  · next phase hFound => exact .pure ⟨hFound, rfl⟩
  · exact .exo _ _
  · exact .exo _ _

theorem spares_activePhaseToDemote (next : Row PhaseData) :
    Spares fx phaseId db (activePhaseToDemote env next) fun demote db' =>
      db' = db ∧ ∀ active ∈ demote, ∃ phase ∈ db.phases, phase.textId = active := by
  have hNone : db = db ∧ ∀ active ∈ (none : Option String), ∃ phase ∈ db.phases, phase.textId = active :=
    ⟨rfl, fun _ hMem => by cases hMem⟩
  unfold activePhaseToDemote
  refine .query ?_
  split
  · exact .pure hNone
  · next active hActive =>
    split
    · exact .pure hNone
    · refine .query ?_
      split
      · exact .pure hNone
      · refine .query ?_
        split
        · exact .exo _ _
        · refine .pure ⟨rfl, fun textId hMem => ?_⟩
          cases hMem
          exact ⟨active, mem_of_findWorkspaceActivePhase hActive, rfl⟩

theorem spares_phaseStart (h : Foreign env phaseId db) {id : Option String} {takeOver : Bool}
    (hOther : ∀ phase, takeOver = true →
      id.elim (db.findNextPendingPhase env) db.findStartablePhase = some phase →
        OtherPhase phaseId db phase.textId) :
    SparesOnly fx phaseId db (phaseStart env id takeOver) := by
  unfold phaseStart
  refine .bind (spares_phaseToStart id) fun next _ _ hNext => ?_
  obtain ⟨hNext, rfl⟩ := hNext
  refine .bind (spares_activePhaseToDemote next) fun demote _ _ hDemote => ?_
  obtain ⟨rfl, -⟩ := hDemote
  refine .bind (.claim h fun hTake => hOther next hTake hNext) fun _ db₁ h₁ hClaimed => ?_
  have hForeign := h.mono h₁
  have hFocus : ∀ db', Spared phaseId db₁ db' → SparesOnly fx phaseId db' (focusHere env next.textId) :=
    fun db' h' => spares_focusHere (hForeign.mono h') next.textId
  have hStart : ∀ db', Spared phaseId db₁ db' → SparesOnly fx phaseId db' (do
      Cmd.call (.updatePhaseStatus next.textId "in-progress" env.now)
      focusHere env next.textId) := fun db' h' =>
    .bind (.call (hForeign.mono h').placed (hClaimed.mono h')) fun _ _ h'' _ => hFocus _ (h'.trans h'')
  split
  · split
    · exact hStart db₁ (.refl phaseId db₁)
    · next active =>
      refine .bind (.attempt (.guard hForeign active)) fun r db₂ h₂ hGuard => ?_
      split
      · refine .bind (.call (hForeign.mono h₂).placed (hGuard _ rfl).1) fun _ db₃ h₃ _ => ?_
        exact hStart db₃ (h₂.trans h₃)
      · exact hStart db₂ h₂
  · split
    · exact hFocus db₁ (.refl phaseId db₁)
    · next active =>
      refine .bind (.attempt (.guard hForeign active)) fun r db₂ h₂ hGuard => ?_
      split
      · refine .bind (.call (hForeign.mono h₂).placed (hGuard _ rfl).1) fun _ db₃ h₃ _ => ?_
        exact hFocus db₃ (h₂.trans h₃)
      · exact hFocus db₂ h₂

theorem spares_phaseFocus (h : Foreign env phaseId db) (textId : String) :
    SparesOnly fx phaseId db (phaseFocus env textId) := by
  unfold phaseFocus
  exact .bind (spares_requirePhase textId) fun _ _ hSpared _ => spares_focusHere (h.mono hSpared) textId

theorem spares_phaseAdd (h : Foreign env phaseId db) (args : PhaseAddArgs) :
    SparesOnly fx phaseId db (phaseAdd env args) := by
  unfold phaseAdd
  refine Spares.bind (Q := fun _ _ => True) ?_ fun epochId db₁ h₁ _ => ?_
  · unfold epochForPhase
    refine .query ?_
    split
    · exact .pure trivial
    · exact .pure trivial
    · exact .anyhow _
  · have hForeign := h.mono h₁
    refine .bind (.callOk hForeign.placed trivial) fun _ db₂ h₂ hOk => ?_
    split
    · obtain ⟨reply, hOk⟩ := hOk
      obtain ⟨epoch, sortKey, phases, -, hInsert, -⟩ := addPhase_eq_ok (commit_eq_ok hOk)
      have hFree : OtherPhase phaseId db₁ env.newId := by
        intro row hRow
        rw [(Rows.insert_eq_some.mp hInsert).1] at hRow
        cases hRow
      exact .call (hForeign.mono h₂).placed (hFree.mono h₂)
    · exact .pure trivial

theorem spares_phaseRemove (h : Foreign env phaseId db) (textId : String) :
    SparesOnly fx phaseId db (phaseRemove env textId) := by
  unfold phaseRemove
  refine .bind (.guard h textId) fun _ db' hSpared hOther => .query ?_
  dsimp only
  split
  · exact .exo _ _
  · exact .call (h.mono hSpared).placed hOther.1

theorem spares_phaseUpdate (h : Foreign env phaseId db) (textId : String) (title : Option String)
    (rfcs : Option (List String)) :
    SparesOnly fx phaseId db (phaseUpdate env textId title rfcs) := by
  unfold phaseUpdate
  refine .bind (spares_requirePhase textId) fun _ db₁ h₁ _ => ?_
  refine .bind (.guard (h.mono h₁) textId) fun _ db₂ h₂ hOther => ?_
  have hForeign := (h.mono h₁).mono h₂
  have hTitle : ∀ title, SparesOnly fx phaseId db₂ (Cmd.call (.updatePhaseTitle textId title)) := fun _ =>
    .call hForeign.placed hOther.1
  split
  · have hRfcs : ∀ db₃ rfcs, Spared phaseId db₂ db₃ →
        SparesOnly fx phaseId db₃ (Cmd.call (.replacePhaseRfcs textId rfcs)) := fun _ _ h₃ =>
      .call (hForeign.mono h₃).placed trivial
    split
    · exact .bind (hTitle _) fun _ db₃ h₃ _ => hRfcs db₃ _ h₃
    · exact hRfcs db₂ _ (.refl phaseId db₂)
  · split
    · exact .bind (hTitle _) fun _ _ _ _ => .pure trivial
    · exact .pure trivial

theorem spares_phaseReorder (h : Foreign env phaseId db) (textId position : String) :
    SparesOnly fx phaseId db (phaseReorder env textId position) := by
  unfold phaseReorder
  exact .bind (.guard h textId) fun _ _ hSpared hOther => .call (h.mono hSpared).placed hOther.1

theorem spares_phaseMove (h : Foreign env phaseId db) (textId epochId : String) (position : Option String) :
    SparesOnly fx phaseId db (phaseMove env textId epochId position) := by
  unfold phaseMove
  exact .bind (.guard h textId) fun _ _ hSpared hOther => .call (h.mono hSpared).placed hOther.1

theorem spares_phaseFinish (h : Foreign env phaseId db) : SparesOnly fx phaseId db (phaseFinish env) := by
  unfold phaseFinish
  refine .query ?_
  split
  · exact .exo _ _
  · next active _ =>
    refine .bind (.guard h active.textId) fun _ db₁ h₁ hOther => ?_
    refine Spares.bind (Q := fun _ db' => db' = db₁) (.ofExcept fun _ _ => rfl) fun _ _ _ hSame => ?_
    obtain rfl := hSame
    have hForeign := h.mono h₁
    refine .bind (.call hForeign.placed hOther.1) fun _ db₂ h₂ _ => ?_
    exact .call (hForeign.mono h₂).placed (hOther.1.mono h₂)

/-! ## Commands on goals -/

theorem spares_requestedPhase (phase : Option String) :
    Spares fx phaseId db (requestedPhase env phase) fun _ db' => db' = db := by
  unfold requestedPhase
  split
  · exact .pure rfl
  · unfold requireActivePhase
    refine .bind (Q := fun _ db' => db' = db) (.query ?_) fun _ _ _ hSame => .pure hSame
    split
    · exact .pure rfl
    · exact .anyhow _

theorem spares_requireGoalPhaseId (goalId : String) :
    Spares fx phaseId db (requireGoalPhaseId goalId) fun textId db' =>
      db.goalPhaseId goalId = some textId ∧ db' = db := by
  unfold requireGoalPhaseId
  refine .query ?_
  split
  · next textId hGoal => exact .pure ⟨hGoal, rfl⟩
  · exact .anyhow _

theorem spares_ensureGoalRequestedPhase (goalId actualPhase requestedPhase : String) :
    Spares fx phaseId db (ensureGoalRequestedPhase goalId actualPhase requestedPhase) fun _ db' =>
      db' = db := by
  unfold ensureGoalRequestedPhase
  split
  · exact .pure rfl
  · exact .anyhow _

theorem spares_requireActiveGoal (h : Foreign env phaseId db) (id message : String) :
    Spares fx phaseId db (requireActiveGoal env id message) fun _ db' => OtherGoal phaseId db' id := by
  refine ⟨wp_requireActiveGoal (fun phase goal db' hPhase hOk hFind => ?_) (fun _ => .refl phaseId db)
    (fun _ _ _ _ => .refl phaseId db) fun _ _ _ _ hOk _ => spared_of_guarded h hOk⟩
  have hSpared := spared_of_guarded h hOk
  refine ⟨hSpared, OtherGoal.mono ?_ hSpared⟩
  obtain ⟨hText, -⟩ := List.find?_eq_some_iff_append.mp hFind
  obtain rfl := of_decide_eq_true hText
  exact otherGoal_of_mem_goalsOf (mem_of_findWorkspaceActivePhase hPhase) (List.mem_of_find?_eq_some hFind)
    (otherPhase_of_guarded h hOk)

theorem spares_goalAdd (h : Foreign env phaseId db) (id label : String) (rfc : Option String)
    (targetStage : Option Nat)
    (phase : Option String) :
    SparesOnly fx phaseId db (goalAdd env id label rfc targetStage phase) := by
  unfold goalAdd
  refine .bind (spares_requestedPhase phase) fun textId _ _ hSame => ?_
  obtain rfl := hSame
  exact .bind (.guard h textId) fun _ _ hSpared hOther => .call (h.mono hSpared).placed hOther.1

theorem spares_goalReorder (h : Foreign env phaseId db) (id position : String) :
    SparesOnly fx phaseId db (goalReorder env id position) := by
  unfold goalReorder
  refine Spares.bind (Q := fun _ db' => db' = db) ?_ fun active _ _ hSame => ?_
  · unfold requireActivePhase
    refine .query ?_
    split
    · exact .pure rfl
    · exact .anyhow _
  obtain rfl := hSame
  refine .bind (spares_requireGoalPhaseId id) fun textId _ _ hGoal => ?_
  obtain ⟨hGoal, rfl⟩ := hGoal
  refine .bind (.guard h textId) fun _ db₁ h₁ hOther => ?_
  obtain ⟨hOther, owners, rfl⟩ := hOther
  refine .bind (spares_ensureGoalRequestedPhase id textId active.textId) fun _ _ _ hSame => ?_
  obtain rfl := hSame
  exact .call (h.mono h₁).placed (otherGoal_of_goalPhaseId (by exact hGoal) hOther)

theorem spares_goalMove (h : Foreign env phaseId db) (id textId : String) (position : Option String) :
    SparesOnly fx phaseId db (goalMove env id textId position) := by
  unfold goalMove
  refine .bind (spares_requireGoalPhaseId id) fun source _ _ hGoal => ?_
  obtain ⟨hGoal, rfl⟩ := hGoal
  refine .bind (.guard h source) fun _ db₁ h₁ hSource => ?_
  obtain ⟨hSource, owners, rfl⟩ := hSource
  have hMiss : OtherGoal phaseId _ id := otherGoal_of_goalPhaseId (by exact hGoal) hSource
  refine .bind (.guard (h.mono h₁) textId) fun _ db₂ h₂ hTarget => ?_
  exact .call ((h.mono h₁).mono h₂).placed ⟨hMiss.mono h₂, hTarget.1⟩

theorem spares_goalRemove (h : Foreign env phaseId db) (id : String) (phase : Option String) :
    SparesOnly fx phaseId db (goalRemove env id phase) := by
  unfold goalRemove
  refine .bind (spares_requestedPhase phase) fun requested _ _ hSame => ?_
  obtain rfl := hSame
  refine .bind (spares_requireGoalPhaseId id) fun textId _ _ hGoal => ?_
  obtain ⟨hGoal, rfl⟩ := hGoal
  refine .bind (.guard h textId) fun _ db₁ h₁ hOther => ?_
  obtain ⟨hOther, owners, rfl⟩ := hOther
  refine .bind (spares_ensureGoalRequestedPhase id textId requested) fun _ _ _ hSame => ?_
  obtain rfl := hSame
  exact .call (h.mono h₁).placed (otherGoal_of_goalPhaseId (by exact hGoal) hOther)

theorem spares_goalUpdate (h : Foreign env phaseId db) (id label : String) :
    SparesOnly fx phaseId db (goalUpdate env id label) := by
  unfold goalUpdate
  exact .bind (spares_requireActiveGoal h id _) fun _ _ hSpared hOther => .call (h.mono hSpared).placed hOther

theorem spares_endGoal (h : Foreign env phaseId db) {id status log : String}
    (hOther : OtherGoal phaseId db id) :
    SparesOnly fx phaseId db (do
      Cmd.call (.updateGoalStatus id status)
      Cmd.call (.updateGoalCompletionLog id log)) :=
  .bind (.call h.placed hOther) fun _ _ hSpared _ => .call (h.mono hSpared).placed (hOther.mono hSpared)

theorem spares_goalAbandon (h : Foreign env phaseId db) (id log : String) :
    SparesOnly fx phaseId db (goalAbandon env id log) := by
  unfold goalAbandon
  refine .bind (spares_requireActiveGoal h id _) fun goal db₁ h₁ hOther => ?_
  split
  · exact .anyhow _
  · exact spares_endGoal (h.mono h₁) hOther

theorem spares_requireNothingPending (id : String) :
    SparesOnly fx phaseId db (requireNothingPending env id) := by
  unfold requireNothingPending
  refine .query ?_
  split
  · exact .pure trivial
  · exact .fail _

theorem spares_recordWorkflowCompletionEvidence (h : Foreign env phaseId db)
    (entityType entityId outcome : String) :
    SparesOnly fx phaseId db (recordWorkflowCompletionEvidence env entityType entityId outcome) := by
  unfold recordWorkflowCompletionEvidence
  split
  · unfold recordCompletionApprovalEvidence
    exact .bind (.call h.placed trivial) fun _ _ hSpared _ => .call (h.mono hSpared).placed trivial
  · exact .pure trivial

theorem spares_goalComplete (h : Foreign env phaseId db) (id log : String) :
    SparesOnly fx phaseId db (goalComplete env id log) := by
  unfold goalComplete
  refine .bind (spares_requireActiveGoal h id _) fun goal db₁ h₁ hOther => ?_
  split
  · exact .anyhow _
  · split
    · exact .anyhow _
    · have hForeign := h.mono h₁
      refine .bind (spares_requireNothingPending id) fun _ db₂ h₂ _ => ?_
      have hEvidence : SparesOnly fx phaseId db₂ (recordWorkflowCompletionEvidence env "goal" id log) :=
        spares_recordWorkflowCompletionEvidence (hForeign.mono h₂) _ _ _
      refine .bind hEvidence fun _ db₃ h₃ _ => .query ?_
      split
      · exact spares_endGoal ((hForeign.mono h₂).mono h₃) ((hOther.mono h₂).mono h₃)
      · exact .fail _

/-! ## Commands on tasks -/

theorem otherGoal_of_goalsForTaskAdd {goalId : String} {phase : Row PhaseData} {goal : Row GoalData}
    (hMem : (phase, goal) ∈ db.goalsForTaskAdd goalId) (hOther : OtherPhase phaseId db phase.textId) :
    OtherGoal phaseId db goal.textId := by
  obtain ⟨other, hPhase, hGoal⟩ := List.mem_flatMap.mp hMem
  obtain ⟨row, hRow, hPair⟩ := List.mem_map.mp hGoal
  cases hPair
  have hPhases := (mem_planPhases.mp (List.mem_of_mem_filter hPhase)).1
  exact otherGoal_of_mem_goalsOf hPhases (List.mem_of_mem_filter hRow) hOther

theorem otherGoal_of_goalForTaskAdd {goal : Option String} {resolved : ResolvedTaskGoal}
    (hGoal : db.goalForTaskAdd env goal = .ok resolved) (hOther : OtherPhase phaseId db resolved.phaseId) :
    OtherGoal phaseId db resolved.goalId := by
  unfold Database.goalForTaskAdd at hGoal
  split at hGoal
  · unfold Database.defaultGoalForTaskAdd at hGoal
    split at hGoal
    · cases hGoal
    · next phase hActive =>
      have hPhase := mem_of_findWorkspaceActivePhase hActive
      dsimp only at hGoal
      split at hGoal
      · cases hGoal
      · next goal hSingle _ =>
        cases hGoal
        have hMem : goal ∈ [goal] := List.mem_singleton_self goal
        rw [← hSingle] at hMem
        exact otherGoal_of_mem_goalsOf hPhase (List.mem_of_mem_filter hMem) hOther
      · next goal hSingle _ =>
        cases hGoal
        have hMem : goal ∈ [goal] := List.mem_singleton_self goal
        rw [← hSingle] at hMem
        exact otherGoal_of_mem_goalsOf hPhase hMem hOther
      · cases hGoal
      · cases hGoal
  · next goalId =>
    obtain ⟨found, hFound, hGoal⟩ := bind_eq_ok.mp hGoal
    split at hGoal
    · cases hGoal
      unfold Database.resolveGoalForTaskAdd at hFound
      split at hFound
      · cases hFound
      · next phase goal hSingle =>
        cases hFound
        have hMem : (phase, goal) ∈ [(phase, goal)] := List.mem_singleton_self _
        rw [← hSingle] at hMem
        exact otherGoal_of_goalsForTaskAdd hMem hOther
      · cases hFound
    · cases hGoal

theorem spares_taskAdd (h : Foreign env phaseId db) (id label : String) (goal : Option String) :
    SparesOnly fx phaseId db (taskAdd env id label goal) := by
  unfold taskAdd
  refine .tryQuery fun place hPlace => ?_
  obtain ⟨resolved, taskId⟩ := place
  refine .bind (.guard h resolved.phaseId) fun _ db' hSpared hOther => ?_
  obtain ⟨hOther, owners, rfl⟩ := hOther
  obtain ⟨goal', hGoal, hRest⟩ := bind_eq_ok.mp hPlace
  obtain ⟨prefixGoalId, -, hRest⟩ := bind_eq_ok.mp hRest
  obtain ⟨newId, -, hPair⟩ := bind_eq_ok.mp hRest
  cases hPair
  exact .call (h.mono hSpared).placed (otherGoal_of_goalForTaskAdd (by exact hGoal) hOther)

theorem spares_ensurePhaseInProgress (h : Foreign env phaseId db) (textId : String) (status : Status)
    (failure : Failure) :
    Spares fx phaseId db (ensurePhaseInProgress env textId status failure) fun _ db' =>
      OtherPhase phaseId db' textId ∧ ∃ phaseOwnership, db' = { db with phaseOwnership } := by
  unfold ensurePhaseInProgress
  split
  · exact .guard h textId
  · exact .fail _

theorem spares_ensureTaskLifecycleAllowed (h : Foreign env phaseId db) (reference : String) :
    Spares fx phaseId db (ensureTaskLifecycleAllowed env reference) fun _ db' =>
      (∀ task, db.resolveTaskReference reference = some task → OtherTask phaseId db task.rowId) ∧
        ∃ phaseOwnership, db' = { db with phaseOwnership } := by
  unfold ensureTaskLifecycleAllowed
  refine .query ?_
  split
  · next hNone =>
    refine .pure ⟨fun task hTask => ?_, _, rfl⟩
    rw [hNone] at hTask
    cases hTask
  · next task hTask =>
    refine (spares_ensurePhaseInProgress h _ _ _).mono fun _ db' hOther => ?_
    obtain ⟨hOther, owners, rfl⟩ := hOther
    refine ⟨fun other hOtherTask => ?_, owners, rfl⟩
    obtain rfl := Option.some.inj (hOtherTask.symm.trans hTask)
    exact otherTask_of_resolves hOtherTask hOther

theorem spares_ensureTaskCompleteLifecycleAllowed (h : Foreign env phaseId db) (reference : String) :
    Spares fx phaseId db (ensureTaskCompleteLifecycleAllowed env reference) fun _ db' =>
      (∀ task, db.resolveTaskReference reference = some task → OtherTask phaseId db task.rowId) ∧
        (∀ phase, db.resolveTaskReference reference = none → db.findGoalPhase reference = some phase →
          OtherGoal phaseId db reference) ∧
        ∃ phaseOwnership, db' = { db with phaseOwnership } := by
  unfold ensureTaskCompleteLifecycleAllowed
  refine .query ?_
  split
  · next task hTask =>
    refine (spares_ensureTaskLifecycleAllowed h reference).mono fun _ db' hOther => ⟨hOther.1, ?_, hOther.2⟩
    intro phase hNone
    rw [hTask] at hNone
    cases hNone
  · next hNone =>
    have hNoTask : ∀ task, db.resolveTaskReference reference = some task →
        OtherTask phaseId db task.rowId := by
      intro task hTask
      rw [hNone] at hTask
      cases hTask
    refine .query ?_
    split
    · next hNoGoal =>
      refine .pure ⟨hNoTask, fun phase _ hGoal => ?_, _, rfl⟩
      rw [hNoGoal] at hGoal
      cases hGoal
    · next phase hGoal =>
      refine (spares_ensurePhaseInProgress h _ _ _).mono fun _ db' hOther => ?_
      obtain ⟨hOther, owners, rfl⟩ := hOther
      refine ⟨hNoTask, fun _ _ _ => ?_, owners, rfl⟩
      obtain ⟨goal, hRow, hPhase⟩ := Option.bind_eq_some_iff.mp hGoal
      exact otherGoal_of_phase hRow hPhase hOther

theorem spares_requireTaskApproval (h : Foreign env phaseId db) (entityType canonicalId id log : String) :
    SparesOnly fx phaseId db (requireTaskApproval env entityType canonicalId id log) := by
  unfold requireTaskApproval
  refine .bind (spares_recordWorkflowCompletionEvidence h _ _ _) fun _ _ _ _ => .query ?_
  split
  · exact .pure trivial
  · exact .fail _

theorem spares_completeGoalAsTask (h : Foreign env phaseId db) {id log : String}
    (hOther : OtherGoal phaseId db id) :
    SparesOnly fx phaseId db (completeGoalAsTask id log) := by
  unfold completeGoalAsTask
  refine .bind (.attempt (.call h.placed hOther)) fun r db' hSpared _ => ?_
  split
  · exact .anyhow _
  · split
    · exact .pure trivial
    · refine .bind (.attempt (.call (h.mono hSpared).placed (hOther.mono hSpared))) fun _ _ _ _ => ?_
      exact .pure trivial

theorem spares_taskComplete (h : Foreign env phaseId db) (id log : String) :
    SparesOnly fx phaseId db (taskComplete env id log) := by
  unfold taskComplete
  refine .bind (spares_ensureTaskCompleteLifecycleAllowed h id) fun _ db₁ h₁ hOther => .query (.query ?_)
  obtain ⟨hTasks, hGoals, owners, rfl⟩ := hOther
  have hForeign := h.mono h₁
  split
  · next task hTask =>
    refine .bind (spares_requireTaskApproval hForeign _ _ _ _) fun _ db₂ h₂ _ => ?_
    exact .call (hForeign.mono h₂).placed (((hTasks task hTask).mono h₁).mono h₂)
  · next phase hNone hGoal =>
    have hMiss := (hGoals phase hNone hGoal).mono h₁
    refine .bind (spares_requireNothingPending id) fun _ db₂ h₂ _ => ?_
    refine .bind (spares_requireTaskApproval (hForeign.mono h₂) _ _ _ _) fun _ db₃ h₃ _ => ?_
    exact spares_completeGoalAsTask ((hForeign.mono h₂).mono h₃) ((hMiss.mono h₂).mono h₃)
  · exact .anyhow _

theorem spares_onTask (h : Foreign env phaseId db) {id : String} {change : ResolvedTaskReference → WriterCall}
    (hChange : ∀ db task, OtherTask phaseId db task.rowId → Misses phaseId db (change task)) :
    SparesOnly fx phaseId db (onTask env id change) := by
  unfold onTask
  refine .bind (spares_ensureTaskLifecycleAllowed h id) fun _ db' hSpared hOther => .query ?_
  obtain ⟨hTasks, owners, rfl⟩ := hOther
  split
  · next task hTask =>
    exact .call (h.mono hSpared).placed (hChange _ task ((hTasks task hTask).mono hSpared))
  · exact .anyhow _

theorem spares_taskRename (h : Foreign env phaseId db) (id requested : String) :
    SparesOnly fx phaseId db (taskRename env id requested) := by
  unfold taskRename
  refine .bind (spares_ensureTaskLifecycleAllowed h id) fun _ db' hSpared hOther => .query ?_
  obtain ⟨hTasks, owners, rfl⟩ := hOther
  split
  · exact .fail _
  · next task hTask =>
    exact .tryQuery fun newTaskId _ => .call (h.mono hSpared).placed ((hTasks task hTask).mono hSpared)

/-! ## Commands on lanes, and the plan's own -/

theorem spares_requireNonempty (value name : String) :
    SparesOnly fx phaseId db (requireNonempty value name) := by
  unfold requireNonempty
  split
  · exact .exo _ _
  · exact .pure trivial

theorem spares_requireWorkspaceRoot : Spares fx phaseId db (requireWorkspaceRoot env) fun _ _ => True := by
  unfold requireWorkspaceRoot
  split
  · exact .pure trivial
  · exact .exo _ _

theorem spares_laneMutationOutput (laneId : String) :
    SparesOnly fx phaseId db (laneMutationOutput env laneId) := by
  unfold laneMutationOutput
  exact .tryQuery fun _ _ => .pure trivial

theorem spares_laneCreate (h : Foreign env phaseId db) (title intent textId : String) :
    SparesOnly fx phaseId db (laneCreate env title intent textId) := by
  unfold laneCreate
  refine .bind (spares_requireNonempty title "title") fun _ db₁ h₁ _ => ?_
  refine .bind (spares_requireNonempty intent "intent") fun _ db₂ h₂ _ => .tryQuery fun phase _ => ?_
  have hForeign := (h.mono h₁).mono h₂
  split
  · refine .bind (.guard hForeign phase.textId) fun _ db₃ h₃ _ => ?_
    exact .bind (.call (hForeign.mono h₃).placed trivial) fun _ _ _ _ => spares_laneMutationOutput _
  · exact .fail _

theorem spares_laneFocus (h : Foreign env phaseId db) (id : String) :
    SparesOnly fx phaseId db (laneFocus env id) := by
  unfold laneFocus
  refine .tryQuery fun found _ => ?_
  obtain ⟨lane, phase⟩ := found
  dsimp only
  split
  · refine .bind spares_requireWorkspaceRoot fun root db₁ h₁ _ => ?_
    exact .bind (.call (h.mono h₁).placed trivial) fun _ _ _ _ => spares_laneMutationOutput _
  · exact .fail _

theorem spares_laneStart (h : Foreign env phaseId db) (id : String) :
    SparesOnly fx phaseId db (laneStart env id) := by
  unfold laneStart
  refine .tryQuery fun found _ => ?_
  obtain ⟨lane, phase⟩ := found
  dsimp only
  split
  · exact .fail _
  · split
    · exact .fail _
    · refine .bind (.guard h phase.textId) fun _ db₁ h₁ _ => ?_
      refine .bind spares_requireWorkspaceRoot fun root db₂ h₂ _ => ?_
      exact .bind (.call ((h.mono h₁).mono h₂).placed trivial) fun _ _ _ _ => spares_laneMutationOutput _

theorem spares_laneRemove (h : Foreign env phaseId db) (id : String) :
    SparesOnly fx phaseId db (laneRemove env id) := by
  unfold laneRemove
  refine .tryQuery fun found _ => ?_
  obtain ⟨lane, phase⟩ := found
  dsimp only
  split
  · exact .fail _
  · exact .bind (.guard h phase.textId) fun _ _ hSpared _ => .call (h.mono hSpared).placed trivial

theorem mem_planPhases_of_placed (hPlaced : Placed phaseId db) {phase : Row PhaseData}
    (hMem : phase ∈ db.phases)
    (hId : phase.id = phaseId) : phase ∈ db.planPhases := by
  obtain ⟨placed, epoch, hPhase, hEpoch⟩ := hPlaced
  obtain ⟨hPlacedMem, hPlacedId⟩ := Rows.byId_eq_some.mp hPhase
  obtain rfl := Rows.eq_of_id hMem hPlacedMem (hId.trans hPlacedId.symm)
  exact mem_planPhases.mpr ⟨hMem, Option.isSome_iff_exists.mpr ⟨epoch, hEpoch⟩⟩

theorem otherGoal_of_find_eq_none {target : String} (hPlaced : Placed phaseId db)
    (hNone : (db.planPhases.find? fun phase =>
      (db.goalsOf phase.id).any fun goal => goal.textId = target) = none) :
    OtherGoal phaseId db target := by
  intro goal hGoal hId
  obtain ⟨hMem, hText⟩ := Rows.byTextId_eq_some.mp hGoal
  obtain ⟨phase, epoch, hPhase, -⟩ := id hPlaced
  obtain ⟨hPhaseMem, hPhaseId⟩ := Rows.byId_eq_some.mp hPhase
  refine List.find?_eq_none.mp hNone phase (mem_planPhases_of_placed hPlaced hPhaseMem hPhaseId) ?_
  refine List.any_eq_true.mpr ⟨goal, mem_orderBy.mpr (List.mem_filter.mpr ⟨hMem, ?_⟩), decide_eq_true hText⟩
  exact decide_eq_true (hId.trans hPhaseId.symm)

theorem spares_ensureStatusTargetAllowed (h : Foreign env phaseId db) (target : String) :
    Spares fx phaseId db (ensureStatusTargetAllowed env target) fun _ db' =>
      OtherGoal phaseId db' target ∧ (db'.goals.byTextId target = none → OtherPhase phaseId db' target) := by
  unfold ensureStatusTargetAllowed
  refine .query ?_
  unfold Database.findPhaseForStatusTarget
  cases hFind : db.planPhases.find? fun phase =>
      (db.goalsOf phase.id).any fun goal => goal.textId = target with
  | some phase =>
    obtain ⟨hAny, -⟩ := List.find?_eq_some_iff_append.mp hFind
    obtain ⟨goal, hGoal, hText⟩ := List.any_eq_true.mp hAny
    obtain rfl := of_decide_eq_true hText
    refine (Spares.guard h phase.textId).mono fun _ db' hOther => ?_
    obtain ⟨hOther, owners, rfl⟩ := hOther
    have hPhase := (mem_planPhases.mp (List.mem_of_find?_eq_some hFind)).1
    refine ⟨otherGoal_of_mem_goalsOf hPhase hGoal hOther, fun hNone => ?_⟩
    exact absurd rfl (Rows.byTextId_eq_none.mp hNone goal (mem_of_mem_goalsOf hGoal).1)
  | none =>
    have hGoal := otherGoal_of_find_eq_none h.placed hFind
    cases hPhase : db.findPhaseByTextId target with
    | some phase =>
      have hText := (Rows.byTextId_eq_some.mp (byTextId_of_findPhaseByTextId hPhase)).2
      refine (Spares.guard h phase.textId).mono fun _ db' hOther => ?_
      obtain ⟨hOther, owners, rfl⟩ := hOther
      exact ⟨hGoal, fun _ => hText ▸ hOther⟩
    | none =>
      refine .pure ⟨hGoal, fun _ row hRow hId => ?_⟩
      obtain ⟨hMem, hText⟩ := Rows.byTextId_eq_some.mp hRow
      exact List.find?_eq_none.mp hPhase row (mem_planPhases_of_placed h.placed hMem hId)
        (decide_eq_true hText)

theorem exec_updateGoalStatus_eq_error {id status : String} {e : Failure}
    (hExec : (WriterCall.updateGoalStatus id status).exec fx db = (.error e, db')) :
    db' = db ∧ (db.goals.byTextId id = none ∨ Status.fromName status = none) := by
  rw [WriterCall.exec, updateGoalStatus] at hExec
  cases hGoal : db.goals.byTextId id with
  | none =>
    rw [hGoal] at hExec
    cases hExec
    exact ⟨rfl, .inl rfl⟩
  | some goal =>
    cases hStatus : Status.fromName status with
    | none =>
      rw [hGoal, hStatus] at hExec
      cases hExec
      exact ⟨rfl, .inr rfl⟩
    | some newStatus =>
      rw [hGoal, hStatus] at hExec
      simp only [updateRow, hGoal] at hExec
      cases hExec

theorem spares_updatePhaseStatus_of_fromName {id status now : String}
    (hStatus : Status.fromName status = none) :
    SparesOnly fx phaseId db (Cmd.call (.updatePhaseStatus id status now)) := by
  refine ⟨(wp_call rfl).mpr (ends_of (fun db' hOk => ?_) fun _ _ => .refl phaseId db)⟩
  obtain ⟨phase, newStatus, phases, -, hSome, -, -⟩ := updatePhaseStatus_eq_ok hOk
  rw [hStatus] at hSome
  cases hSome

theorem spares_planUpdateStatus (h : Foreign env phaseId db) (id status : String) :
    SparesOnly fx phaseId db (planUpdateStatus env id status) := by
  unfold planUpdateStatus
  refine .query ?_
  split
  · exact .anyhow _
  · refine .bind (spares_ensureStatusTargetAllowed h id) fun _ db₁ h₁ hOther => ?_
    have hPlaced := (h.mono h₁).placed
    refine .bind (.attemptCall hPlaced hOther.1) fun r db₂ h₂ hError => ?_
    split
    · exact .pure trivial
    · next e =>
      obtain ⟨rfl, hNone | hStatus⟩ := exec_updateGoalStatus_eq_error (hError e rfl)
      · exact .call hPlaced (hOther.2 hNone)
      · exact spares_updatePhaseStatus_of_fromName hStatus

theorem spares_moveGoals (h : Foreign env phaseId db) {target : String} {goalIds : List String}
    (hTarget : OtherPhase phaseId db target)
    (hGoals : ∀ goalId ∈ goalIds, OtherGoal phaseId db goalId) :
    SparesOnly fx phaseId db (moveGoals target goalIds) := by
  induction goalIds generalizing db with
  | nil => exact .pure trivial
  | cons goalId goalIds ih =>
    obtain ⟨hGoal, hRest⟩ := List.forall_mem_cons.mp hGoals
    rw [moveGoals]
    refine .bind (.call h.placed ⟨hGoal, hTarget⟩) fun _ db' hSpared _ => ?_
    exact ih (h.mono hSpared) (hTarget.mono hSpared) fun other hOther => (hRest other hOther).mono hSpared

theorem spares_planMoveGoals (h : Foreign env phaseId db) (source target : String) (goalIds : List String) :
    SparesOnly fx phaseId db (planMoveGoals env source target goalIds) := by
  unfold planMoveGoals
  refine .query (.query ?_)
  split
  · exact .anyhow _
  · exact .anyhow _
  · next sourceRow _ hSource _ =>
    refine .query ?_
    split
    · exact .anyhow _
    · next hNone =>
      refine .bind (.guard h source) fun _ db₁ h₁ hOther => ?_
      obtain ⟨hOther, owners, rfl⟩ := hOther
      refine .bind (.guard (h.mono h₁) target) fun _ db₂ h₂ hTarget => ?_
      refine spares_moveGoals ((h.mono h₁).mono h₂) hTarget.1 fun goalId hGoalId => OtherGoal.mono ?_ h₂
      have hFound := List.find?_eq_none.mp hNone goalId hGoalId
      simp only [decide_not, Bool.not_eq_true', decide_eq_false_iff_not, not_not] at hFound
      obtain ⟨goal, hGoal, rfl⟩ := List.mem_map.mp hFound
      obtain ⟨hMem, hText⟩ := Rows.byTextId_eq_some.mp (byTextId_of_findPhaseByTextId hSource)
      exact otherGoal_of_mem_goalsOf hMem hGoal (hText.symm ▸ hOther)

/-! ## Commands that take a phase -/

/-- The command takes the phase from its owner: it removes the epoch of the phase, starts the
phase with the take-over flag, or releases an owner that is stale. -/
def Takes (env : Env) (phaseId : Nat) (db : Database) : Command → Prop
  | .epochRemove id => ∃ epoch phase, db.epochs.byTextId id = some epoch ∧
      db.phases.byId phaseId = some phase ∧ phase.data.epochId = epoch.id
  | .phaseStart id takeOver => takeOver = true ∧ ∃ phase,
      id.elim (db.findNextPendingPhase env) db.findStartablePhase = some phase ∧ phase.id = phaseId
  | .phaseRelease id => ∃ phase owner, db.phases.byTextId id = some phase ∧ phase.id = phaseId ∧
      db.phaseOwnership.lookup phaseId = some owner ∧ env.stale owner = true
  | _ => False

theorem mem_of_phaseToStart {id : Option String} {phase : Row PhaseData}
    (h : id.elim (db.findNextPendingPhase env) db.findStartablePhase = some phase) : phase ∈ db.phases := by
  cases id with
  | none =>
    rcases Option.or_eq_some_iff.mp h with hActive | ⟨-, hPending⟩
    · exact mem_of_findWorkspaceActivePhase hActive
    · exact (mem_planPhases.mp (List.mem_of_find?_eq_some hPending)).1
  | some id => exact (mem_planPhases.mp (List.mem_of_find?_eq_some h)).1

theorem spares_epochRemove {id : String} (h : Foreign env phaseId db)
    (hTakes : ¬ Takes env phaseId db (.epochRemove id)) : SparesOnly fx phaseId db (epochRemove env id) := by
  unfold epochRemove
  refine .bind (spares_requireEpoch id) fun _ _ _ hSame => ?_
  obtain rfl := hSame
  exact .call h.placed fun epoch phase hEpoch hPhase hId => hTakes ⟨epoch, phase, hEpoch, hPhase, hId⟩

theorem spares_phaseRelease {id : String} (h : Foreign env phaseId db)
    (hTakes : ¬ Takes env phaseId db (.phaseRelease id)) :
    SparesOnly fx phaseId db (phaseRelease env id) := by
  unfold phaseRelease releasePhaseOwner
  refine .bind (spares_requirePhase id) fun _ _ _ hSame => .query ?_
  obtain rfl := hSame
  split
  · exact .pure trivial
  · next owner hOwner =>
    split
    · exact .fail _
    · next hAllowed =>
      refine .bind (.perform h.placed fun phase hPhase hId => ?_) fun cleared _ _ _ => ?_
      · obtain ⟨owner', hOwner', hForeign⟩ := h.owned
        rw [loadPhaseOwner_of_some hPhase, hId] at hOwner
        obtain rfl := Option.some.inj (hOwner'.symm.trans hOwner)
        have hStale : env.stale owner' = true := by
          rw [Env.foreign] at hForeign
          simpa only [hForeign, Bool.true_and, Bool.not_eq_true', Bool.not_eq_false] using hAllowed
        exact hTakes ⟨phase, owner', hPhase, hId, hOwner', hStale⟩
      · split
        · exact .pure trivial
        · exact .fail _

theorem spared_of_not_takes {command : Command} (h : Foreign env phaseId db)
    (hTakes : ¬ Takes env phaseId db command) : Spared phaseId db (dispatchMut fx env command db).2 := by
  apply Spares.spared (Q := fun _ _ => True)
  cases command with
  | epochReview epochId => exact spares_epochReview h epochId
  | epochStart epochId => exact spares_epochStart h epochId
  | epochFinish => exact spares_epochFinish
  | epochAdd title after => exact spares_epochAdd h title after
  | epochUpdate id title => exact .call h.placed trivial
  | epochReorder id position => exact spares_epochReorder h id position
  | epochRemove id => exact spares_epochRemove h hTakes
  | epochBankrupt id => exact spares_epochBankrupt h id
  | phaseStart id takeOver =>
    refine spares_phaseStart h fun phase hTakeOver hFound row hRow hId =>
      hTakes ⟨hTakeOver, phase, hFound, ?_⟩
    obtain ⟨hMem, hText⟩ := Rows.byTextId_eq_some.mp hRow
    obtain rfl := Rows.eq_of_textId hMem (mem_of_phaseToStart hFound) hText
    exact hId
  | phaseFocus phaseId => exact spares_phaseFocus h phaseId
  | phaseRelease phaseId => exact spares_phaseRelease h hTakes
  | phaseAdd args => exact spares_phaseAdd h args
  | phaseRemove id => exact spares_phaseRemove h id
  | phaseUpdate phaseId title rfcs => exact spares_phaseUpdate h phaseId title rfcs
  | phaseReorder phaseId position => exact spares_phaseReorder h phaseId position
  | phaseMove phaseId epochId position => exact spares_phaseMove h phaseId epochId position
  | phaseFinish => exact spares_phaseFinish h
  | goalAdd id label rfc targetStage phase => exact spares_goalAdd h id label rfc targetStage phase
  | goalReorder id position => exact spares_goalReorder h id position
  | goalMove id phaseId position => exact spares_goalMove h id phaseId position
  | goalAbandon id log => exact spares_goalAbandon h id log
  | goalComplete id log => exact spares_goalComplete h id log
  | goalRemove id phase => exact spares_goalRemove h id phase
  | goalUpdate id label => exact spares_goalUpdate h id label
  | taskAdd id label goal => exact spares_taskAdd h id label goal
  | taskComplete id log => exact spares_taskComplete h id log
  | taskLog id message => exact spares_onTask h fun _ _ _ => trivial
  | taskStart id => exact spares_onTask h fun _ _ hOther => hOther
  | taskRemove id => exact spares_onTask h fun _ _ hOther => hOther
  | taskReorder id position => exact spares_onTask h fun _ _ hOther => hOther
  | taskRename id requested => exact spares_taskRename h id requested
  | taskUpdate id title => exact spares_onTask h fun _ _ hOther => hOther
  | laneCreate title intent phaseId => exact spares_laneCreate h title intent phaseId
  | laneFocus id => exact spares_laneFocus h id
  | laneStart id => exact spares_laneStart h id
  | laneRemove id => exact spares_laneRemove h id
  | planUpdateStatus id status => exact spares_planUpdateStatus h id status
  | planMoveGoals source target goalIds => exact spares_planMoveGoals h source target goalIds

end Exosuit.Plan
