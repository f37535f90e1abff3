import Mathlib.Data.Nat.Basic
import Exosuit.Lib.Interleaving
import Exosuit.Daemon.AtomicSteps

/-!
# Atomic effects and their canonical outcome

The threads of any number of daemon instances run the atomic path over one project
database and one ledger. The invariant follows one request id: the effects
committed for it, its canonical row, and how often pruning deleted that row.
-/

namespace Exosuit.Daemon.Atomic

open Lib (Interleaving)

variable {ι H : Type*} {fingerprint : RequestEnvelope → H} {rid : String}
variable {row₀ : Option (CanonicalRow H)} {i : ι} {a : AtomicAction} {p p' : AtomicPhase}
variable {w w' : World ι H}

/-! ## The invariant of one request id -/

def present (row : Option (CanonicalRow H)) : Nat := if row.isSome then 1 else 0

/-- Effects and canonical row of `rid`: each commit makes the row and each pruning
deletes it, and the row is the last commit's, or the one found at the start. -/
structure Linked (fingerprint : RequestEnvelope → H) (rid : String)
    (row₀ : Option (CanonicalRow H)) (w : World ι H) : Prop where
  count : (w.committed rid).length + present row₀ = w.prunings rid + present (w.canonical rid)
  stored : ∀ row, w.canonical rid = some row →
    (w.committed rid = [] ∧ row₀ = some row) ∨
      ∃ before i c r, w.committed rid = before ++ [(i, c, r)] ∧
        row.requestHash = (requestHashes fingerprint c.request).current ∧
        row.responseJson = r.toJson

/-- Inside its transaction a thread holds the write lock, and no row is there to
be found by anybody else until it commits. -/
structure Locks (rid : String) (i : ι) (p : AtomicPhase) (w : World ι H) : Prop where
  consistent : Consistent p
  writer : inTransaction p = true → w.projectWriter = some i
  absent : ∀ c, pending p = some c → c.request.id = rid → w.canonical rid = none

theorem Locks.outside (hConsistent : Consistent p) (hp : inTransaction p = false) :
    Locks rid i p w where
  consistent := hConsistent
  writer h := by simp [hp] at h
  absent c h := by simp [inTransaction_of_pending h] at hp

theorem Locks.not_inTransaction {j : ι} (h : Locks rid j p w) (hWriter : w.projectWriter ≠ some j) :
    inTransaction p = false := by
  cases hp : inTransaction p with
  | false => rfl
  | true => exact absurd (h.writer hp) hWriter

variable [DecidableEq ι]

theorem Locks.step (h : Locks rid i p w) (hMove : Move fingerprint i a p w p' w')
    (hConsistent : Consistent p') : Locks rid i p' w' := by
  cases hMove with
  | outside _ hp' => exact .outside hConsistent hp'
  | begin c owns => exact ⟨hConsistent, fun _ => rfl, fun _ hPending => by cases hPending⟩
  | found c owns core => exact ⟨hConsistent, fun _ => h.writer rfl, fun _ hPending => by cases hPending⟩
  | leave _ hp' => exact .outside hConsistent hp'
  | handle c owns hRow =>
    refine ⟨hConsistent, fun _ => h.writer rfl, fun c' hPending hId => ?_⟩
    cases hPending
    exact hId ▸ hRow
  | respond c owns run hp' hPending =>
    refine ⟨hConsistent, fun _ => h.writer rfl, fun c' hPending' hId => ?_⟩
    obtain hNone | hSome := hPending
    · simp [hNone] at hPending'
    · cases hSome.symm.trans hPending'
      exact h.absent c rfl hId
  | commit => exact .outside hConsistent rfl
  | prune => exact .outside hConsistent rfl
  | crash => exact .outside hConsistent rfl

theorem Locks.other {j : ι} {q : AtomicPhase} (hNe : j ≠ i) (hMover : Locks rid i p w)
    (hMove : Move fingerprint i a p w p' w') (h : Locks rid j q w) : Locks rid j q w' := by
  have hApart : ∀ {l : ι}, w.projectWriter = some l → l ≠ j → Locks rid j q w' := fun hl hlj =>
    .outside h.consistent (h.not_inTransaction fun hj => hlj (Option.some.inj (hl.symm.trans hj)))
  cases hMove with
  | outside => exact ⟨h.consistent, h.writer, h.absent⟩
  | begin c owns hFree =>
    exact .outside h.consistent (h.not_inTransaction (by simp [hFree]))
  | found => exact h
  | leave hp => exact hApart (hMover.writer hp) hNe.symm
  | handle => exact ⟨h.consistent, h.writer, h.absent⟩
  | respond => exact ⟨h.consistent, h.writer, h.absent⟩
  | commit => exact hApart (hMover.writer rfl) hNe.symm
  | prune c o f now hFree =>
    exact .outside h.consistent (h.not_inTransaction (by simp [hFree]))
  | crash =>
    unfold Atomic.crash
    split
    · rename_i hWriter
      exact .outside h.consistent (h.not_inTransaction fun hj =>
        hNe (Option.some.inj (hj.symm.trans hWriter)))
    · exact h

theorem Linked.step (h : Linked fingerprint rid row₀ w) (hMove : Move fingerprint i a p w p' w') :
    Linked fingerprint rid row₀ w' := by
  cases hMove with
  | outside => exact ⟨h.count, h.stored⟩
  | begin => exact ⟨h.count, h.stored⟩
  | found => exact h
  | leave => exact ⟨h.count, h.stored⟩
  | handle => exact ⟨h.count, h.stored⟩
  | respond => exact ⟨h.count, h.stored⟩
  | crash =>
    unfold Atomic.crash
    split
    · exact ⟨h.count, h.stored⟩
    · exact h
  | commit c owns r now hRow =>
    by_cases hId : c.request.id = rid
    · subst hId
      have hCount := h.count
      rw [hRow] at hCount
      constructor
      · simp only [Function.update_self, List.length_append, List.length_singleton, present,
          Option.isSome_some, Option.isSome_none, if_true] at hCount ⊢
        simp only [Bool.false_eq_true, if_false] at hCount
        omega
      · intro row hStored
        simp only [Function.update_self, Option.some.injEq] at hStored
        subst hStored
        exact .inr ⟨w.committed c.request.id, i, c, r, Function.update_self .., rfl, rfl⟩
    · constructor
      · simpa only [Function.update_of_ne (Ne.symm hId)] using h.count
      · simpa only [Function.update_of_ne (Ne.symm hId)] using h.stored
  | prune c o f now =>
    have hCount := h.count
    constructor
    · cases hRow : w.canonical rid with
      | none => simpa [pruneCanonicalOutcomes, hRow] using hCount
      | some row =>
        rw [hRow] at hCount
        cases hPrune : prunable w.ledger now rid row <;>
          simp [pruneCanonicalOutcomes, hRow, hPrune, present] at hCount ⊢ <;> omega
    · intro row hRow
      simp only [pruneCanonicalOutcomes, Option.filter_eq_some_iff] at hRow
      exact h.stored row hRow.1

theorem Move.retained (hMove : Move fingerprint i a p w p' w') (hLocks : Locks rid i p w)
    {row : CanonicalRow H} (hRow : w.canonical rid = some row) :
    w'.prunings rid = w.prunings rid + 1 ∨
      w'.prunings rid = w.prunings rid ∧ w'.canonical rid = some row ∧
        w'.committed rid = w.committed rid ∧ w'.executions rid = w.executions rid := by
  have hElse : ∀ {c : Call} {o : Option (CanonicalRow H)}, o = none → c.request.id = rid →
      o = w.canonical c.request.id → False := by
    rintro c o rfl rfl hNone
    rw [hRow] at hNone
    cases hNone
  cases hMove with
  | outside => exact .inr ⟨rfl, hRow, rfl, rfl⟩
  | begin => exact .inr ⟨rfl, hRow, rfl, rfl⟩
  | found => exact .inr ⟨rfl, hRow, rfl, rfl⟩
  | leave => exact .inr ⟨rfl, hRow, rfl, rfl⟩
  | handle c owns hNone =>
    have hId : c.request.id ≠ rid := fun hId => hElse hNone hId rfl
    exact .inr ⟨rfl, hRow, rfl, Function.update_of_ne hId.symm _ _⟩
  | respond c owns run =>
    have hId : c.request.id ≠ rid := fun hId =>
      hElse (hLocks.absent c rfl hId) hId (congrArg w.canonical hId.symm)
    exact .inr ⟨rfl, hRow, rfl, Function.update_of_ne hId.symm _ _⟩
  | commit c owns r now hNone =>
    have hId : c.request.id ≠ rid := fun hId => hElse hNone hId rfl
    exact .inr ⟨rfl, (Function.update_of_ne hId.symm _ _).trans hRow,
      Function.update_of_ne hId.symm _ _, rfl⟩
  | prune c o f now =>
    cases hPrune : prunable w.ledger now rid row with
    | true => exact .inl (by simp [pruneCanonicalOutcomes, hRow, hPrune])
    | false => exact .inr (by simp [pruneCanonicalOutcomes, hRow, hPrune])
  | crash =>
    refine .inr ?_
    unfold Atomic.crash
    split <;> exact ⟨rfl, hRow, rfl, rfl⟩

/-- The effects that the thread has committed for `rid`. -/
def committedBy (rid : String) (i : ι) (w : World ι H) : Nat :=
  ((w.committed rid).filter fun entry => entry.1 = i).length

theorem Move.committedBy_le (hMove : Move fingerprint i a p w p' w') (hCall : ¬ a.NewCall)
    {n : Nat} (h : committedBy rid i w ≤ n + if fresh p then 1 else 0) :
    p' = .idle ∨ committedBy rid i w' ≤ n + if fresh p' then 1 else 0 := by
  cases hMove with
  | outside _ _ hFresh =>
    obtain hNew | hFresh := hFresh
    · exact absurd hNew hCall
    · exact .inr (hFresh ▸ h)
  | begin => exact .inr h
  | found => exact .inr h
  | leave hp _ hFresh =>
    rw [fresh_of_inTransaction hp] at h
    rw [hFresh]
    exact .inr h
  | handle => exact .inr h
  | respond c owns run hp' =>
    rw [fresh_of_inTransaction hp']
    exact .inr h
  | commit c owns r now =>
    refine .inr ?_
    by_cases hId : c.request.id = rid
    · subst hId
      simpa [committedBy, fresh] using h
    · simp only [committedBy, Function.update_of_ne (Ne.symm hId)] at h ⊢
      exact Nat.le_succ_of_le h
  | prune => exact .inr h
  | crash => exact .inl rfl

theorem Move.committedBy_other {j : ι} (hNe : j ≠ i) (hMove : Move fingerprint i a p w p' w') :
    committedBy rid j w' = committedBy rid j w := by
  cases hMove with
  | commit c owns r now =>
    by_cases hId : c.request.id = rid
    · subst hId
      simp [committedBy, Ne.symm hNe]
    · simp [committedBy, Function.update_of_ne (Ne.symm hId)]
  | crash =>
    unfold Atomic.crash
    split <;> rfl
  | _ => rfl

/-! ## Replay from the canonical row -/

/-- The stored response `r` once more through the finalization, or the report of a
transaction that did not close. -/
def Replays (c : Call) (r : ResponseEnvelope) (o : OutcomeExecution) : Prop :=
  (o.replayed = true ∧ ∃ report, finalizeAtomicResponseAfterCommit c.effect r report = .ok o.response ∨
    finalizeAtomicResponseAfterCommit c.effect r report = .error o.response) ∨
    ∃ e, o = fail c "daemon.atomic_request_commit_failed" e

/-- The thread is in the call `c` that has read the stored response `r`. -/
def Carries (c : Call) (r : ResponseEnvelope) : AtomicPhase → Prop
  | .idle => True
  | .rollingBack c' _ core => c' = c ∧ core = ⟨r, true, true, false⟩
  | .finalizing c' _ r' replayed => c' = c ∧ r' = r ∧ replayed = true
  | .completing c' _ o _ | .pruning c' o _ | .releasing c' o _ | .canonicalPruning c' o _
  | .abandoning c' o _ | .returned c' o _ => c' = c ∧ Replays c r o
  | _ => False

theorem carries_giveUp {c : Call} {r : ResponseEnvelope} {owns : Bool} {o : OutcomeExecution}
    {f : Bool} (h : Replays c r o) : Carries c r (giveUp c owns o f) := by
  unfold giveUp
  split <;> exact ⟨rfl, h⟩

theorem carries_finalize {c : Call} {r : ResponseEnvelope} {owns : Bool}
    {report : Except ResponseEnvelope (Option Lib.Json)} :
    Carries c r (finalize c owns r true report) := by
  unfold finalize
  split
  · rename_i hFinal
    exact ⟨rfl, .inl ⟨rfl, report, .inl hFinal⟩⟩
  · rename_i hFinal
    exact carries_giveUp (.inl ⟨rfl, report, .inr hFinal⟩)

theorem Carries.step [DecidableEq H] {c : Call} {r : ResponseEnvelope} {q : AtomicPhase × World ι H}
    (hp : Carries c r p) (hCall : ¬ a.NewCall) (h : step fingerprint i a p w = some q) :
    Carries c r q.1 := by
  unfold Atomic.step at h
  split at h
  case h_13 => exact hp.elim
  case h_31 => split at h <;> cases h; exact hp
  all_goals first | obtain rfl := Option.some.inj h | cases h
  case h_1 => exact absurd trivial hCall
  case h_2 => exact absurd trivial hCall
  case h_3 => exact absurd trivial hCall
  case h_4 => exact absurd trivial hCall
  case h_18 =>
    obtain ⟨rfl, rfl⟩ := hp
    exact ⟨rfl, rfl, rfl⟩
  case h_19 =>
    obtain ⟨rfl, rfl⟩ := hp
    exact carries_giveUp (.inr ⟨_, rfl⟩)
  case h_22 =>
    obtain ⟨rfl, rfl, rfl⟩ := hp
    exact carries_finalize
  case h_23 =>
    unfold complete completeFailed
    split
    · split <;> exact hp
    · exact hp
  case h_24 => unfold completeFailed; split <;> exact hp
  case h_33 => trivial
  all_goals first | exact False.elim hp | exact hp

/-! ## Runs -/

variable [DecidableEq H] {s t u : Interleaving ι AtomicPhase (World ι H)} {e : ι × AtomicAction}

variable (fingerprint) in
def systemStep : Interleaving ι AtomicPhase (World ι H) → ι × AtomicAction →
    Option (Interleaving ι AtomicPhase (World ι H)) :=
  Interleaving.step (step fingerprint)

/-- No call is in progress; the project database and the ledger are arbitrary. -/
structure Initial (rid : String) (s : Interleaving ι AtomicPhase (World ι H)) : Prop where
  idle : ∀ i, s.thread i = .idle
  committed : s.shared.committed rid = []
  prunings : s.shared.prunings rid = 0

variable (fingerprint rid row₀) in
def Sound : Interleaving ι AtomicPhase (World ι H) → Prop :=
  Interleaving.Holds (Linked fingerprint rid row₀) (Locks rid)

omit [DecidableEq ι] [DecidableEq H] in
theorem Initial.sound (h : Initial rid s) : Sound fingerprint rid (s.shared.canonical rid) s := by
  refine ⟨⟨by rw [h.committed, h.prunings]; rfl, fun row hRow => .inl ⟨h.committed, hRow⟩⟩,
    fun i => ?_⟩
  rw [h.idle i]
  exact .outside trivial rfl

theorem systemStep_own (h : systemStep fingerprint s e = some t) :
    step fingerprint e.1 e.2 (s.thread e.1) s.shared = some (t.thread e.1, t.shared) := by
  obtain ⟨p, w, hStep, rfl⟩ := Interleaving.step_eq_some.mp h
  simpa using hStep

theorem systemStep_thread (h : systemStep fingerprint s e = some t) {j : ι} (hj : j ≠ e.1) :
    t.thread j = s.thread j := by
  obtain ⟨p, w, -, rfl⟩ := Interleaving.step_eq_some.mp h
  exact Function.update_of_ne hj _ _

theorem Sound.move (hs : Sound fingerprint rid row₀ s) (h : systemStep fingerprint s e = some t) :
    Move fingerprint e.1 e.2 (s.thread e.1) s.shared (t.thread e.1) t.shared :=
  step_move (hs.2 e.1).consistent (systemStep_own h)

theorem Sound.step (hs : Sound fingerprint rid row₀ s) (h : systemStep fingerprint s e = some t) :
    Sound fingerprint rid row₀ t := by
  refine Interleaving.holds_step ?_ ?_ hs h
  · intro p w hStep
    have hMove := step_move (hs.2 e.1).consistent hStep
    exact ⟨hs.1.step hMove,
      (hs.2 e.1).step hMove ((hs.2 e.1).consistent.step hStep)⟩
  · intro p w j hj hLocks hStep
    exact .other hj (hs.2 e.1) (step_move (hs.2 e.1).consistent hStep) hLocks

theorem Sound.run {as : List (ι × AtomicAction)} (hs : Sound fingerprint rid row₀ s)
    (hRun : Lib.run (systemStep fingerprint) s as = some t) : Sound fingerprint rid row₀ t :=
  Lib.invariant_of_step (fun _ _ _ hs h => hs.step h) hs hRun

theorem Sound.prunings_le {as : List (ι × AtomicAction)} (hs : Sound fingerprint rid row₀ s)
    (hRun : Lib.run (systemStep fingerprint) s as = some t) :
    s.shared.prunings rid ≤ t.shared.prunings rid := by
  refine Lib.monotone_of_step (I := Sound fingerprint rid row₀)
    (f := fun v => v.shared.prunings rid) (fun v e v' hv h => ⟨hv.step h, ?_⟩) hs hRun
  have hMove := hv.move h
  generalize v.thread e.1 = p at hMove
  generalize v.shared = w at hMove ⊢
  generalize v'.thread e.1 = p' at hMove
  generalize v'.shared = w' at hMove ⊢
  cases hMove with
  | crash =>
    unfold Atomic.crash
    split <;> exact le_refl _
  | prune => exact Nat.le_add_right _ _
  | _ => exact le_refl _

theorem Sound.retained {as : List (ι × AtomicAction)} {row : CanonicalRow H}
    (hs : Sound fingerprint rid row₀ s) (hRow : s.shared.canonical rid = some row)
    (hRun : Lib.run (systemStep fingerprint) s as = some t)
    (hPrunings : t.shared.prunings rid = s.shared.prunings rid) :
    t.shared.canonical rid = some row ∧ t.shared.committed rid = s.shared.committed rid ∧
      t.shared.executions rid = s.shared.executions rid := by
  induction as generalizing s with
  | nil =>
    cases hRun
    exact ⟨hRow, rfl, rfl⟩
  | cons e as ih =>
    obtain ⟨v, hStep, hRest⟩ := (Lib.run_cons_eq_some _).mp hRun
    have hLe := (hs.step hStep).prunings_le hRest
    obtain hPruned | ⟨hSame, hRow', hCommitted, hRuns⟩ :=
      (hs.move hStep).retained (hs.2 e.1) hRow
    · omega
    · obtain ⟨hRow'', hCommitted', hRuns'⟩ := ih (hs.step hStep) hRow' hRest (by omega)
      exact ⟨hRow'', hCommitted'.trans hCommitted, hRuns'.trans hRuns⟩

theorem Sound.committedBy_le {as : List (ι × AtomicAction)} (hs : Sound fingerprint rid row₀ s)
    {n : Nat} (hCall : ∀ e ∈ as, e.1 = i → ¬ e.2.NewCall)
    (h : s.thread i = .idle ∨
      committedBy rid i s.shared ≤ n + if fresh (s.thread i) then 1 else 0)
    (hRun : Lib.run (systemStep fingerprint) s as = some t) :
    t.thread i = .idle ∨ committedBy rid i t.shared ≤ n + if fresh (t.thread i) then 1 else 0 := by
  refine (Lib.invariant_of_along
    (I := fun v => Sound fingerprint rid row₀ v ∧ (v.thread i = .idle ∨
      committedBy rid i v.shared ≤ n + if fresh (v.thread i) then 1 else 0))
    (fun v e v' hv hQuiet hStep => ⟨hv.1.step hStep, ?_⟩) ⟨hs, h⟩
    (Lib.along_of_mem (P := fun _ e => e.1 = i → ¬ e.2.NewCall) fun _ e he => hCall e he) hRun).2
  by_cases hi : i = e.1
  · subst hi
    obtain hIdle | hLe := hv.2
    · obtain hNew | hIdle' := step_idle (hIdle ▸ systemStep_own hStep)
      · exact absurd hNew (hQuiet rfl)
      · exact .inl hIdle'
    · exact (hv.1.move hStep).committedBy_le (hQuiet rfl) hLe
  · rw [systemStep_thread hStep hi, (hv.1.move hStep).committedBy_other hi]
    exact hv.2

theorem systemStep_call {c : Call} (h : systemStep fingerprint s (i, .call c) = some t) :
    t.thread i = .reserving c ∧ t.shared = s.shared := by
  have hOwn := systemStep_own h
  generalize t.thread i = p' at hOwn ⊢
  generalize s.thread i = p at hOwn
  cases p <;> simp [step] at hOwn <;> exact ⟨hOwn.1.symm, hOwn.2.symm⟩

theorem Sound.committed_none {as : List (ι × AtomicAction)} (hs : Sound fingerprint rid row₀ s)
    {c₀ c : Call} {o : OutcomeExecution} {f : Bool}
    (hRun : Lib.run (systemStep fingerprint) s ((i, .call c₀) :: as) = some t)
    (hCall : ∀ e ∈ as, e.1 = i → ¬ e.2.NewCall) (hReturned : t.thread i = .returned c o f)
    (hEffect : o.response.effect = none) : committedBy rid i t.shared ≤ committedBy rid i s.shared := by
  obtain ⟨v, hStep, hRest⟩ := (Lib.run_cons_eq_some _).mp hRun
  obtain ⟨hThread, hShared⟩ := systemStep_call hStep
  have hConsistent := (hs.run hRun).2 i |>.consistent
  rw [hReturned] at hConsistent
  obtain hIdle | hLe := (hs.step hStep).committedBy_le (n := committedBy rid i s.shared) hCall
    (.inr (by rw [hThread, hShared]; exact Nat.le_add_right _ _)) hRest
  · rw [hReturned] at hIdle
    cases hIdle
  · rw [hReturned] at hLe
    cases f with
    | false => exact hLe
    | true =>
      have hShown := hConsistent rfl
      rw [hEffect] at hShown
      cases hShown

theorem replays_stored {as : List (ι × AtomicAction)} {c c' : Call} {owns f : Bool}
    {row : CanonicalRow H} {r : ResponseEnvelope} {o : OutcomeExecution}
    (hReading : s.thread i = .reading c owns) (hRow : s.shared.canonical c.request.id = some row)
    (hHash : row.requestHash = (requestHashes fingerprint c.request).current)
    (hJson : row.responseJson = r.toJson)
    (hRun : Lib.run (systemStep fingerprint) s ((i, .read) :: as) = some t)
    (hCall : ∀ e ∈ as, e.1 = i → ¬ e.2.NewCall) (hReturned : t.thread i = .returned c' o f) :
    c' = c ∧ Replays c r.readBack o := by
  obtain ⟨v, hStep, hRest⟩ := (Lib.run_cons_eq_some _).mp hRun
  have hFirst : Carries c r.readBack (v.thread i) := by
    have hOwn := systemStep_own hStep
    rw [hReading] at hOwn
    simp only [step, read, hRow, hHash, hJson, ne_eq, not_true_eq_false, if_false,
      ResponseEnvelope.fromJson_toJson, Option.some.injEq, Prod.mk.injEq] at hOwn
    rw [← hOwn.1]
    exact ⟨rfl, rfl⟩
  have hLast := Lib.invariant_of_along (I := fun x => Carries c r.readBack (x.thread i))
    (fun x e x' hx hQuiet hNext => by
      by_cases hi : i = e.1
      · rw [hi] at hx ⊢
        exact hx.step (hQuiet hi.symm) (systemStep_own hNext)
      · rwa [systemStep_thread hNext hi])
    hFirst (Lib.along_of_mem (P := fun _ e => e.1 = i → ¬ e.2.NewCall) fun _ e he => hCall e he) hRest
  rwa [hReturned] at hLast

/-- The effect and the row of a request id go together, and while the row is retained
the effect is committed once and its response is replayed. -/
theorem atomic_exactly_once_while_retained {as : List (ι × AtomicAction)} (hInit : Initial rid s)
    (hRun : Lib.run (systemStep fingerprint) s as = some t) :
    (t.shared.committed rid).length + present (s.shared.canonical rid) =
      t.shared.prunings rid + present (t.shared.canonical rid) ∧
    (∀ row, t.shared.canonical rid = some row →
      (t.shared.committed rid = [] ∧ s.shared.canonical rid = some row) ∨
        ∃ before i c, ∃ r : ResponseEnvelope,
          t.shared.committed rid = before ++ [(i, c, r)] ∧
          row.requestHash = (requestHashes fingerprint c.request).current ∧
          row.responseJson = r.toJson) ∧
    (∀ bs u, Lib.run (systemStep fingerprint) t bs = some u →
      u.shared.prunings rid = t.shared.prunings rid →
      (u.shared.committed rid).length ≤ (t.shared.committed rid).length + 1 ∧
        ∀ row, t.shared.canonical rid = some row → u.shared.canonical rid = some row ∧
          u.shared.committed rid = t.shared.committed rid ∧
          u.shared.executions rid = t.shared.executions rid) ∧
    (∀ i c owns row (r : ResponseEnvelope) bs u c' o f, t.thread i = .reading c owns →
      t.shared.canonical c.request.id = some row →
      row.requestHash = (requestHashes fingerprint c.request).current →
      row.responseJson = r.toJson →
      Lib.run (systemStep fingerprint) t ((i, .read) :: bs) = some u →
      (∀ e ∈ bs, e.1 = i → ¬ e.2.NewCall) → u.thread i = .returned c' o f →
      c' = c ∧ Replays c r.readBack o) ∧
    (∀ i c₀ bs u c o f, Lib.run (systemStep fingerprint) t ((i, .call c₀) :: bs) = some u →
      (∀ e ∈ bs, e.1 = i → ¬ e.2.NewCall) → u.thread i = .returned c o f →
      o.response.effect = none →
      committedBy rid i u.shared ≤ committedBy rid i t.shared) := by
  have hSound := hInit.sound.run hRun
  refine ⟨hSound.1.count, hSound.1.stored, fun bs u hRun' hPrunings => ⟨?_, fun row hRow =>
    hSound.retained hRow hRun' hPrunings⟩, ?_, ?_⟩
  · have hCount := hSound.1.count
    have hCount' := (hSound.run hRun').1.count
    have hPresent : present (u.shared.canonical rid) ≤ 1 := by
      unfold present
      split <;> omega
    omega
  · intro i c owns row r bs u c' o f hReading hRow hHash hJson hRun' hCall hReturned
    exact replays_stored hReading hRow hHash hJson hRun' hCall hReturned
  · intro i c₀ bs u c o f hRun' hCall hReturned hEffect
    exact hSound.committed_none hRun' hCall hReturned hEffect

def taskAdd (title : String) : RequestEnvelope :=
  ⟨1, "r", .string title, none, none, none, none⟩

def okResponse : ResponseEnvelope := ⟨1, "r", .ok, none, none, none⟩

/-- A call of the instance `a` up to the commit of its effect. -/
def commitRun (i : Bool) (now : Int) : List (Bool × AtomicAction) :=
  [(i, .call ⟨taskAdd "x", .write, "a"⟩), (i, .reserve now), (i, .begin), (i, .read),
    (i, .respond okResponse), (i, .commit now)]

/-- The rest of the call, the last cleanup of which is delayed until `later`. -/
def finishRun (i : Bool) (now later : Int) : List (Bool × AtomicAction) :=
  [(i, .finalize (.ok none)), (i, .complete now), (i, .prune now), (i, .pruneCanonical later)]

theorem atomic_exactly_once_while_retained_commit :
    ∃ t : Interleaving Bool AtomicPhase (World Bool RequestEnvelope),
      Lib.run (systemStep id) ⟨.empty, fun _ => .idle⟩ (commitRun false 0) = some t ∧
        (t.shared.committed "r").length + present (none : Option (CanonicalRow RequestEnvelope)) =
          t.shared.prunings "r" + present (t.shared.canonical "r") ∧
        t.shared.prunings "r" = 0 ∧ (t.shared.committed "r").length = 1 := by
  have hCounts : (Lib.run (systemStep id) ⟨(.empty : World Bool RequestEnvelope), fun _ => .idle⟩
      (commitRun false 0)).map (fun t => (t.shared.prunings "r", (t.shared.committed "r").length)) =
      some (0, 1) := by
    decide +kernel
  obtain ⟨t, hRun, hCounts⟩ := Option.map_eq_some_iff.mp hCounts
  obtain ⟨hPrunings, hCommitted⟩ := Prod.mk.inj hCounts
  exact ⟨t, hRun, (atomic_exactly_once_while_retained (⟨fun _ => rfl, rfl, rfl⟩ : Initial "r" _)
    hRun).1, hPrunings, hCommitted⟩

/-- What a thread has been answered last. -/
def answer (p : AtomicPhase) : Option (String × Option Effect) :=
  match p with
  | .returned c o _ => some (c.request.id, o.response.effect)
  | _ => none

/-- After the retention window the outcome is forgotten and the same request commits
again; and a request that reuses the id is answered without an effect. -/
theorem atomic_effect_committed_twice :
    (Lib.run (systemStep id) ⟨(.empty : World Bool RequestEnvelope), fun _ => .idle⟩
      (commitRun false 0 ++ finishRun false 0 604801 ++ [(true, .openLedger 604801)] ++
        commitRun true 604801)).map (fun t => (t.shared.committed "r").length) = some 2 ∧
    (Lib.run (systemStep id) ⟨(.empty : World Bool RequestEnvelope), fun _ => .idle⟩
      (commitRun false 0 ++
        [(true, .call ⟨taskAdd "y", .write, "b"⟩), (true, .reserve 0)])).map
          (fun t => ((t.shared.committed "r").length, answer (t.thread true))) =
      some (1, some ("r", none)) := by
  constructor <;> decide +kernel

end Exosuit.Daemon.Atomic
