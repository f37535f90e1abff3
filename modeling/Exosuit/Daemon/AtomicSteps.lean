import Exosuit.Daemon.Atomic

/-!
# Steps of the atomic path

What a step of the atomic path can do to the project database, and that a
committed effect shows in the response.
-/

namespace Exosuit.Daemon.Atomic

open Lib (Json)

variable {ι H : Type*}

def inTransaction : AtomicPhase → Bool
  | .reading _ _ | .handling _ _ _ | .rollingBack _ _ _ | .committing _ _ _ => true
  | _ => false

/-- The call whose handler runs, or has run and is about to commit. -/
def pending : AtomicPhase → Option Call
  | .handling c _ _ | .committing c _ _ => some c
  | _ => none

/-- The call's own transaction has committed. -/
def fresh : AtomicPhase → Bool
  | .finalizing _ _ _ replayed => !replayed
  | .completing _ _ _ f | .pruning _ _ f | .releasing _ _ f | .canonicalPruning _ _ f
  | .abandoning _ _ f | .returned _ _ f => f
  | _ => false

/-- A committed effect shows in the response, whatever the call answers next. -/
def Consistent : AtomicPhase → Prop
  | .rollingBack _ _ core => core.committed = true → core.replayed = true
  | .committing _ _ r => r.effect.isSome = true
  | .finalizing _ _ r replayed => replayed = false → r.effect.isSome = true
  | .completing _ _ o f | .pruning _ o f | .releasing _ o f | .canonicalPruning _ o f
  | .abandoning _ o f | .returned _ o f => f = true → o.response.effect.isSome = true
  | _ => True

theorem finalize_effect {effect : Effect} {r : ResponseEnvelope}
    {report : Except ResponseEnvelope (Option Json)} (h : r.effect.isSome = true) :
    match finalizeAtomicResponseAfterCommit effect r report with
    | .ok r' => r'.effect.isSome = true
    | .error r' => r'.effect.isSome = true := by
  unfold finalizeAtomicResponseAfterCommit
  cases report with
  | error e => rfl
  | ok v =>
    cases v with
    | none => exact h
    | some v =>
      dsimp only
      split
      · rename_i heq
        split at heq <;> cases heq <;> exact h
      · rename_i heq
        split at heq <;> cases heq

theorem consistent_giveUp {c : Call} {owns : Bool} {o : OutcomeExecution} {f : Bool}
    (h : f = true → o.response.effect.isSome = true) : Consistent (giveUp c owns o f) := by
  unfold giveUp
  split <;> exact h

theorem consistent_afterCore {c : Call} {owns : Bool} {core : AtomicCoreExecution}
    (h : core.committed = true → core.replayed = false → core.response.effect.isSome = true) :
    Consistent (afterCore c owns core) := by
  unfold afterCore
  split
  · exact consistent_giveUp Bool.noConfusion
  · split
    · exact h ‹_›
    · exact Bool.noConfusion

theorem consistent_finalize {c : Call} {owns : Bool} {r : ResponseEnvelope} {replayed : Bool}
    {report : Except ResponseEnvelope (Option Json)}
    (h : replayed = false → r.effect.isSome = true) :
    Consistent (finalize c owns r replayed report) := by
  unfold finalize
  split
  all_goals
    rename_i hFinal
    cases replayed with
    | true => first | exact Bool.noConfusion | exact consistent_giveUp Bool.noConfusion
    | false =>
      have hEffect := @finalize_effect c.effect r report (h rfl)
      rw [hFinal] at hEffect
      first | exact fun _ => hEffect | exact consistent_giveUp fun _ => hEffect

variable {fingerprint : RequestEnvelope → H}

theorem consistent_respond {c : Call} {owns : Bool} {r : ResponseEnvelope} :
    Consistent (respond c owns r) := by
  unfold respond
  split
  · cases hEffect : r.effect <;> simp [Consistent]
  · exact Bool.noConfusion

theorem consistent_commit {i : ι} {c : Call} {owns : Bool} {r : ResponseEnvelope} {now : Int}
    {w : World ι H} (h : r.effect.isSome = true) :
    Consistent (commit fingerprint i c owns r now w).1 := by
  unfold commit
  split
  · exact consistent_giveUp Bool.noConfusion
  · exact @consistent_afterCore c owns ⟨r, true, false, false⟩ fun _ _ => h

variable [DecidableEq H]

theorem consistent_reserve {c : Call} {now : Int} {w : World ι H} :
    Consistent (reserve fingerprint c now w).1 := by
  unfold reserve
  split
  case h_4 => split <;> [trivial; (split <;> first | trivial | exact Bool.noConfusion)]
  all_goals first | trivial | exact Bool.noConfusion

theorem consistent_poll {c : Call} {owner : String} {past : Bool} {w : World ι H} :
    Consistent (poll fingerprint c owner past w) := by
  unfold poll
  split <;> first | trivial | exact Bool.noConfusion

theorem consistent_read {i : ι} {c : Call} {owns : Bool} {w : World ι H} :
    Consistent (read fingerprint i c owns w).1 := by
  unfold read
  split
  · split
    · exact Bool.noConfusion
    · split
      · exact fun _ => rfl
      · exact consistent_giveUp Bool.noConfusion
  · trivial

theorem consistent_complete {c : Call} {owns : Bool} {o : OutcomeExecution} {f : Bool} {now : Int}
    {w : World ι H} (h : f = true → o.response.effect.isSome = true) :
    Consistent (complete fingerprint c owns o f now w).1 := by
  unfold complete completeFailed
  split
  · split <;> exact h
  · exact h

variable [DecidableEq ι]

theorem Consistent.step {i : ι} {a : AtomicAction} {p : AtomicPhase} {w : World ι H}
    {q : AtomicPhase × World ι H} (hp : Consistent p) (h : step fingerprint i a p w = some q) :
    Consistent q.1 := by
  unfold Atomic.step at h
  split at h
  case h_13 => split at h <;> cases h; trivial
  case h_31 => split at h <;> cases h; exact hp
  all_goals first | obtain rfl := Option.some.inj h | cases h
  case h_5 => exact consistent_reserve
  case h_7 => exact consistent_poll
  case h_11 => unfold lookup; split <;> first | trivial | exact Bool.noConfusion
  case h_15 => exact consistent_read
  case h_17 => exact consistent_respond
  case h_18 => exact consistent_afterCore fun hCommitted hReplayed => by simp [hp hCommitted] at hReplayed
  case h_20 => exact consistent_commit hp
  case h_22 => exact consistent_finalize hp
  case h_23 => exact consistent_complete hp
  case h_24 => unfold completeFailed; split <;> exact hp
  all_goals first
    | trivial
    | exact hp
    | exact Bool.noConfusion
    | exact consistent_giveUp Bool.noConfusion

variable (fingerprint) in
/-- Everything a step can do to the project database, its lock and the executions. -/
inductive Move (i : ι) (a : AtomicAction) : AtomicPhase → World ι H → AtomicPhase → World ι H → Prop
  | outside {p p' w ledger terminal} : inTransaction p = false → inTransaction p' = false →
      (a.NewCall ∨ fresh p' = fresh p) → Move i a p w p' { w with ledger, terminal }
  | begin {w} (c : Call) (owns : Bool) : w.projectWriter = none →
      Move i a (.beginning c owns) w (.reading c owns) { w with projectWriter := some i }
  | found {w} (c : Call) (owns : Bool) (core : AtomicCoreExecution) :
      Move i a (.reading c owns) w (.rollingBack c owns core) w
  | leave {p p' w} : inTransaction p = true → inTransaction p' = false → fresh p' = false →
      Move i a p w p' (unlock w)
  | handle {w} (c : Call) (owns : Bool) : w.canonical c.request.id = none →
      Move i a (.reading c owns) w (.handling c owns (w.executions c.request.id).length)
        { w with
          executions := Function.update w.executions c.request.id
            (w.executions c.request.id ++ [⟨i, c, none, false⟩]) }
  | respond {p' w executions} (c : Call) (owns : Bool) (run : Nat) : inTransaction p' = true →
      (pending p' = none ∨ pending p' = some c) →
      Move i a (.handling c owns run) w p'
        { w with executions := Function.update w.executions c.request.id executions }
  | commit {w terminal} (c : Call) (owns : Bool) (r : ResponseEnvelope) (now : Int) :
      w.canonical c.request.id = none →
      Move i a (.committing c owns r) w (.finalizing c owns r false)
        { w with
          projectWriter := none
          canonical := Function.update w.canonical c.request.id (some
            { requestHash := (requestHashes fingerprint c.request).current
              effect := effectName c.effect, responseJson := r.toJson, committedAt := now })
          terminal
          committed := Function.update w.committed c.request.id
            (w.committed c.request.id ++ [(i, c, r)]) }
  | prune {w} (c : Call) (o : OutcomeExecution) (f : Bool) (now : Int) : w.projectWriter = none →
      Move i a (.canonicalPruning c o f) w (.returned c o f) (pruneCanonicalOutcomes w now)
  | crash {p w} : Move i a p w .idle (crash i w)

theorem giveUp_outside (c : Call) (owns : Bool) (o : OutcomeExecution) (f : Bool) :
    inTransaction (giveUp c owns o f) = false ∧ fresh (giveUp c owns o f) = f := by
  unfold giveUp
  split <;> exact ⟨rfl, rfl⟩

theorem afterCore_outside {c : Call} {owns : Bool} {core : AtomicCoreExecution}
    (h : core.committed = true → core.replayed = true) :
    inTransaction (afterCore c owns core) = false ∧ fresh (afterCore c owns core) = false := by
  unfold afterCore
  split
  · exact giveUp_outside c owns _ false
  · split
    · rename_i hCommitted
      exact ⟨rfl, by simp [fresh, h hCommitted]⟩
    · exact ⟨rfl, rfl⟩

variable {i : ι} {a : AtomicAction}

omit [DecidableEq H] in
theorem Move.outside_of {p p' : AtomicPhase} {w w' : World ι H} (hp : inTransaction p = false)
    (hp' : inTransaction p' = false) (hFresh : a.NewCall ∨ fresh p' = fresh p)
    (hWorld : w' = { w with ledger := w'.ledger, terminal := w'.terminal }) :
    Move fingerprint i a p w p' w' := by
  rw [hWorld]
  exact .outside hp hp' hFresh

theorem reserve_move (c : Call) (now : Int) (w : World ι H) :
    Move fingerprint i a (.reserving c) w (reserve fingerprint c now w).1
      (reserve fingerprint c now w).2 := by
  unfold reserve
  split
  case h_4 =>
    split
    · exact .outside_of rfl rfl (.inr rfl) rfl
    · split <;> exact .outside_of rfl rfl (.inr rfl) rfl
  all_goals exact .outside_of rfl rfl (.inr rfl) rfl

theorem poll_move (c : Call) (owner : String) (past : Bool) (w : World ι H) :
    Move fingerprint i a (.waiting c owner) w (poll fingerprint c owner past w) w := by
  unfold poll
  split <;> exact .outside_of rfl rfl (.inr rfl) rfl

omit [DecidableEq H] in
theorem lookup_move (c : Call) (owner : String) (w : World ι H) :
    Move fingerprint i a (.lookup c owner) w (lookup c owner w) w := by
  unfold lookup
  split <;> exact .outside_of rfl rfl (.inr rfl) rfl

omit [DecidableEq H] in
theorem coreFailed_move {p : AtomicPhase} (hp : inTransaction p = true) (c : Call) (owns : Bool)
    (e : LedgerError) (w : World ι H) :
    Move fingerprint i a p w (coreFailed c owns e) (unlock w) :=
  .leave hp (giveUp_outside c owns _ false).1 (giveUp_outside c owns _ false).2

theorem read_move (c : Call) (owns : Bool) (w : World ι H) :
    Move fingerprint i a (.reading c owns) w (read fingerprint i c owns w).1
      (read fingerprint i c owns w).2 := by
  unfold read
  split
  · split
    · exact .found c owns _
    · split
      · exact .found c owns _
      · exact coreFailed_move rfl c owns _ w
  · rename_i hRow
    exact .handle c owns hRow

omit [DecidableEq H] in
theorem respond_move (c : Call) (owns : Bool) (run : Nat) (r : ResponseEnvelope) (w : World ι H) :
    Move fingerprint i a (.handling c owns run) w (respond c owns r)
      { w with
        executions := Function.update w.executions c.request.id
          (External.setResponse (w.executions c.request.id) run r) } := by
  unfold respond
  split
  · exact .respond c owns run rfl (.inr rfl)
  · exact .respond c owns run rfl (.inl rfl)

omit [DecidableEq H] in
theorem commit_move (c : Call) (owns : Bool) (r : ResponseEnvelope) (now : Int) (w : World ι H) :
    Move fingerprint i a (.committing c owns r) w (commit fingerprint i c owns r now w).1
      (commit fingerprint i c owns r now w).2 := by
  unfold commit
  split
  · exact coreFailed_move rfl c owns _ w
  · rename_i hRow
    exact .commit c owns r now hRow

omit [DecidableEq H] in
theorem finalize_move (c : Call) (owns : Bool) (r : ResponseEnvelope) (replayed : Bool)
    (report : Except ResponseEnvelope (Option Json)) (w : World ι H) :
    Move fingerprint i a (.finalizing c owns r replayed) w (finalize c owns r replayed report) w := by
  unfold finalize
  split
  · exact .outside_of rfl rfl (.inr rfl) rfl
  · exact .outside_of rfl (giveUp_outside c owns _ _).1 (.inr (giveUp_outside c owns _ _).2) rfl

omit [DecidableEq H] in
theorem completeFailed_move (c : Call) (owns : Bool) (o : OutcomeExecution) (f : Bool)
    (w : World ι H) :
    Move fingerprint i a (.completing c owns o f) w (completeFailed c owns o f) w := by
  unfold completeFailed
  split <;> exact .outside_of rfl rfl (.inr rfl) rfl

theorem complete_move (c : Call) (owns : Bool) (o : OutcomeExecution) (f : Bool) (now : Int)
    (w : World ι H) :
    Move fingerprint i a (.completing c owns o f) w (complete fingerprint c owns o f now w).1
      (complete fingerprint c owns o f now w).2 := by
  unfold complete
  split
  · exact completeFailed_move c owns o f w
  · exact .outside_of rfl rfl (.inr rfl) rfl

omit [DecidableEq ι] in
theorem abandon_world (c : Call) (w : World ι H) :
    abandon fingerprint c w =
      { w with
        ledger := (abandon fingerprint c w).ledger
        terminal := (abandon fingerprint c w).terminal } := by
  unfold abandon
  split <;> rfl

theorem step_move {p : AtomicPhase} {w : World ι H} {q : AtomicPhase × World ι H}
    (hp : Consistent p) (h : step fingerprint i a p w = some q) :
    Move fingerprint i a p w q.1 q.2 := by
  unfold Atomic.step at h
  split at h
  case h_13 => split at h <;> cases h; exact .begin _ _ ‹_›
  case h_31 => split at h <;> cases h; exact .prune _ _ _ _ ‹_›
  all_goals first | obtain rfl := Option.some.inj h | cases h
  case h_5 => exact reserve_move _ _ w
  case h_7 => exact poll_move _ _ _ w
  case h_11 => exact lookup_move _ _ w
  case h_14 => exact .outside_of rfl (giveUp_outside _ _ _ _).1 (.inr (giveUp_outside _ _ _ _).2) rfl
  case h_15 => exact read_move _ _ w
  case h_16 => exact coreFailed_move rfl _ _ _ w
  case h_17 => exact respond_move _ _ _ _ w
  case h_18 => exact .leave rfl (afterCore_outside hp).1 (afterCore_outside hp).2
  case h_19 => exact coreFailed_move rfl _ _ _ w
  case h_20 => exact commit_move _ _ _ _ w
  case h_21 => exact coreFailed_move rfl _ _ _ w
  case h_22 => exact finalize_move _ _ _ _ _ w
  case h_23 => exact complete_move _ _ _ _ _ w
  case h_24 => exact completeFailed_move _ _ _ _ w
  case h_27 => exact .outside_of rfl rfl (.inr rfl) (abandon_world _ w)
  case h_29 => exact .outside_of rfl rfl (.inr rfl) (abandon_world _ w)
  case h_33 => exact .crash
  all_goals exact .outside_of rfl rfl (by first | exact .inl trivial | exact .inr rfl) rfl

theorem step_idle {w : World ι H} {q : AtomicPhase × World ι H}
    (h : step fingerprint i a .idle w = some q) : a.NewCall ∨ q.1 = .idle := by
  cases a <;> cases h
  case call => exact .inl trivial
  case fingerprintFails => exact .inl trivial
  case crash => exact .inr rfl
  case openLedger => exact .inr rfl

theorem inTransaction_of_pending {p : AtomicPhase} {c : Call} (h : pending p = some c) :
    inTransaction p = true := by
  cases p <;> cases h <;> rfl

theorem fresh_of_inTransaction {p : AtomicPhase} (h : inTransaction p = true) : fresh p = false := by
  cases p <;> cases h <;> rfl

end Exosuit.Daemon.Atomic
