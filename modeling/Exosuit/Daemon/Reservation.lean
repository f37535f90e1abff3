import Exosuit.Daemon.External

/-!
# The reservation of one request id

What each step of `execute` does to the row and the executions of one request id,
and the invariant they keep: only the last execution can still hold the
reservation or have completed, every earlier one ended in a refusal and was
abandoned.
-/

namespace Exosuit.Daemon.External

open Lib (Json)

variable {ι H : Type*}

/-- What a step does to the row and the executions of `rid`. -/
inductive RowMove [DecidableEq H] (fingerprint : RequestEnvelope → H) (rid : String) (i : ι)
    (a : ExternalAction) : ExternalPhase → Option (LedgerRow H) → List (Execution ι) →
    ExternalPhase → Option (LedgerRow H) → List (Execution ι) → Prop
  | quiet {p p' row E} : (∀ c k, holding p' = some (c, k) → c.request.id ≠ rid) →
      RowMove fingerprint rid i a p row E p' row E
  | retain {row E} (c : Call) (k : Nat) (r : ResponseEnvelope) (e : Option LedgerError) :
      RowMove fingerprint rid i a (.retaining c k r) row E (.completing c k r e) row E
  | clean {p p' ledger ledger' E} (now : Int) :
      a = .prune now ∧ ledger' = Ledger.pruneCompleted ledger now ∨
        a = .openLedger now ∧ ledger' = Ledger.opened ledger now →
      holding p = none → holding p' = none →
      RowMove fingerprint rid i a p (ledger rid) E p' (ledger' rid) E
  | touch {p' E} (c : Call) (row : LedgerRow H) : c.request.id = rid → holding p' = none →
      RowMove fingerprint rid i a (.reserving c) (some row) E p'
        (some (Ledger.upgradeHash row (requestHashes fingerprint c.request))) E
  | acquire {E} (c : Call) (now : Int) : c.request.id = rid →
      RowMove fingerprint rid i a (.reserving c) none E (.executing c E.length)
        (some
          { requestHash := (requestHashes fingerprint c.request).current
            effect := effectName c.effect, instanceId := c.instanceId
            recoveryClass := some (recoveryClassName .externalAtMostOnce)
            responseJson := none, startedAt := now, completedAt := none })
        (E ++ [⟨i, c, none, false⟩])
  | respond {row E} (c : Call) (k : Nat) (r : ResponseEnvelope) : c.request.id = rid →
      RowMove fingerprint rid i a (.executing c k) row E (classify .execute c k r) row (setResponse E k r)
  | release {row E} (c : Call) (k : Nat) (reply : ResponseEnvelope) : c.request.id = rid →
      RowMove fingerprint rid i a (.abandoning c k reply) row E (.returned c ⟨reply, false⟩) none
        (setAbandoned E k)
  | record {E} (c : Call) (k : Nat) (r : ResponseEnvelope) (e : Option LedgerError) (now : Int)
      (row : LedgerRow H) : c.request.id = rid →
      RowMove fingerprint rid i a (.completing c k r e) (some row) E
        (.pruning c (completedReply c r e))
        (some { row with responseJson := some r.toJson, completedAt := some now }) E

variable {fingerprint : RequestEnvelope → H} {rid : String}

theorem holding_classify {path : ExternalPath} {c c' : Call} {k k' : Nat} {r : ResponseEnvelope}
    (h : holding (classify path c k r) = some (c', k')) : c' = c ∧ k' = k := by
  unfold classify at h
  split at h
  · cases h
    exact ⟨rfl, rfl⟩
  · split at h
    · cases h
      exact ⟨rfl, rfl⟩
    · cases path <;> cases h <;> exact ⟨rfl, rfl⟩

/-! ## The invariant of one request id -/

/-- The two requests differ at most in their authorization. -/
def SamePayload (q q' : RequestEnvelope) : Prop :=
  { q with auth := none } = { q' with auth := none }

/-- The execution ended in a refusal and gave its reservation back. -/
def Settled (x : Execution ι) : Prop :=
  (∃ r, x.response = some r ∧ asksForRetry r = true) ∧ x.abandoned = true

/-- What a recorded completion says of the execution `x`; opening the ledger
replaces a launch response by its marker. -/
def Records (json : Json) (x : Execution ι) : Prop :=
  ∃ r, x.response = some r ∧ asksForRetry r = false ∧
    (json = r.toJson ∨ rawResponseIsWorkbenchLaunch r.toJson = true ∧
      json = workbenchLaunchCompletionMarkerJson)

variable (fingerprint) in
/-- What the row of `rid` says of the last execution. -/
def LastRun (x : Execution ι) : Option (LedgerRow H) → Prop
  | none => Settled x
  | some row => row.requestHash = fingerprint { x.call.request with auth := none } ∧
      x.abandoned = false ∧ ∀ json ∈ row.responseJson, Records json x

variable (fingerprint) in
def Coherent (row : Option (LedgerRow H)) (E : List (Execution ι)) : Prop :=
  E = [] ∨ ∃ before x, E = before ++ [x] ∧ (∀ y ∈ before, Settled y) ∧ LastRun fingerprint x row

def Knows (x : Execution ι) : ExternalPhase → Prop
  | .abandoning _ _ _ => ∃ r, x.response = some r ∧ asksForRetry r = true
  | .retaining _ _ r | .completing _ _ r _ => x.response = some r ∧ asksForRetry r = false
  | _ => True

/-- A thread that holds the reservation of `rid` runs the last execution. -/
def Owns (rid : String) (i : ι) (p : ExternalPhase) (row : Option (LedgerRow H))
    (E : List (Execution ι)) : Prop :=
  ∀ c k, holding p = some (c, k) → c.request.id = rid →
    ∃ before x row', E = before ++ [x] ∧ before.length = k ∧ x.thread = i ∧ x.call = c ∧
      row = some row' ∧ row'.responseJson = none ∧ Knows x p

/-- The step does not prune the row. -/
def Kept (a : ExternalAction) (row : Option (LedgerRow H)) : Prop :=
  ∀ now, a = .prune now ∨ a = .openLedger now → ∀ row' ∈ row, Ledger.expired row' now = false

/-- What a caller gets of a response that asks for a retry. -/
def handedBack (r : ResponseEnvelope) : ResponseEnvelope :=
  if isRetryableDaemonBusyResponse r then normalizeRetryableDaemonBusyResponse r else r

theorem classify_execute (c : Call) (k : Nat) (r : ResponseEnvelope) :
    (asksForRetry r = true ∧ classify .execute c k r = .abandoning c k (handedBack r)) ∨
      (asksForRetry r = false ∧ classify .execute c k r = .completing c k r none) := by
  unfold classify asksForRetry isTransientExecutionConfirmation handedBack
  split
  · rename_i hBusy
    exact .inl ⟨by simp [hBusy], rfl⟩
  · split
    · rename_i hConfirm
      exact .inl ⟨by simp [hConfirm], rfl⟩
    · rename_i hBusy hConfirm
      exact .inr ⟨by simp [hBusy, hConfirm], rfl⟩

theorem modify_last (before : List (Execution ι)) (x : Execution ι)
    (f : Execution ι → Execution ι) :
    (before ++ [x]).modify before.length f = before ++ [f x] := by
  induction before with
  | nil => rfl
  | cons y before ih => exact congrArg (y :: ·) ih

theorem Records.sanitized {json : Json} {x : Execution ι} (h : Records json x)
    (hRaw : rawResponseIsWorkbenchLaunch json = true) :
    Records workbenchLaunchCompletionMarkerJson x := by
  obtain ⟨r, hResponse, hAsks, rfl | ⟨hLaunch, rfl⟩⟩ := h
  · exact ⟨r, hResponse, hAsks, .inr ⟨hRaw, rfl⟩⟩
  · exact ⟨r, hResponse, hAsks, .inr ⟨hLaunch, rfl⟩⟩

theorem LastRun.sanitized {x : Execution ι} {row : LedgerRow H}
    (h : LastRun fingerprint x (some row)) :
    LastRun fingerprint x (some (Ledger.sanitizedRow row)) := by
  obtain ⟨hHash, hOpen, hRecords⟩ := h
  refine ⟨by simpa using hHash, hOpen, fun json hJson => ?_⟩
  unfold Ledger.sanitizedRow at hJson
  split at hJson
  · rename_i hRaw
    obtain ⟨json', hJson', hLaunch⟩ := (Option.any_eq_true _ _).mp hRaw
    cases hJson
    exact (hRecords json' hJson').sanitized hLaunch
  · exact hRecords json hJson

theorem Owns.of_not_holding {i : ι} {p : ExternalPhase} {row : Option (LedgerRow H)}
    {E : List (Execution ι)} (h : holding p = none) : Owns rid i p row E := by
  intro c k hHold
  simp [h] at hHold

theorem Owns.unique {i j : ι} {p q : ExternalPhase} {row : Option (LedgerRow H)}
    {E : List (Execution ι)} {c c' : Call} {k k' : Nat} (hp : Owns rid i p row E)
    (hq : Owns rid j q row E) (hc : holding p = some (c, k)) (hc' : holding q = some (c', k'))
    (hId : c.request.id = rid) (hId' : c'.request.id = rid) : i = j := by
  obtain ⟨before, x, -, rfl, -, hThread, -⟩ := hp c k hc hId
  obtain ⟨before', x', -, hSplit, -, hThread', -⟩ := hq c' k' hc' hId'
  obtain ⟨-, hx⟩ := List.append_inj' hSplit rfl
  cases hx
  exact hThread.symm.trans hThread'

theorem matches_iff_samePayload (hInjective : Function.Injective fingerprint)
    (q q' : RequestEnvelope) :
    (requestHashes fingerprint q).Matches (fingerprint { q' with auth := none }) ↔
      SamePayload q q' := by
  constructor
  · rintro (hCurrent | hLegacy)
    · exact (hInjective hCurrent).symm
    · have hRequest := hInjective hLegacy
      exact congrArg (fun q => { q with auth := none }) hRequest.symm
  · intro hSame
    exact .inl (congrArg fingerprint hSame).symm

variable [DecidableEq H]

theorem upgradeHash_payload (hInjective : Function.Injective fingerprint) {row : LedgerRow H}
    {q : RequestEnvelope} (q' : RequestEnvelope)
    (h : row.requestHash = fingerprint { q with auth := none }) :
    Ledger.upgradeHash row (requestHashes fingerprint q') = row := by
  refine Ledger.upgradeHash_of_current fun hMatches => ?_
  rcases hMatches with hCurrent | hLegacy
  · exact hCurrent
  · have hRequest : { q with auth := none } = q' := hInjective (h.symm.trans hLegacy)
    rw [h, ← hRequest]
    rfl

variable (rid) in
theorem Move.row {i : ι} {a : ExternalAction} {p p' : ExternalPhase} {w w' : World ι H}
    (h : Move .execute fingerprint i a p w p' w') :
    RowMove fingerprint rid i a p (w.ledger rid) (w.executions rid) p' (w'.ledger rid)
      (w'.executions rid) := by
  have hQuiet : ∀ {p'}, holding p' = none → ∀ (c : Call) (k : Nat),
      holding p' = some (c, k) → c.request.id ≠ rid := by
    intro p' hNone c k hSome
    simp [hNone] at hSome
  cases h with
  | leave hNone => exact .quiet (hQuiet hNone)
  | drop hNone => exact .quiet (hQuiet hNone)
  | clean now hClean hp hp' => exact .clean now hClean hp hp'
  | touch c row hRow hNone =>
    by_cases hId : c.request.id = rid
    · subst hId
      simp only [Function.update_self, hRow]
      exact .touch c row rfl hNone
    · simp only [Function.update_of_ne (Ne.symm hId)]
      exact .quiet (hQuiet hNone)
  | acquire c now hRow =>
    by_cases hId : c.request.id = rid
    · subst hId
      simp only [Function.update_self, hRow]
      exact .acquire c now rfl
    · simp only [Function.update_of_ne (Ne.symm hId)]
      refine .quiet fun c' k hHold => ?_
      cases hHold
      exact hId
  | respond c run r =>
    by_cases hId : c.request.id = rid
    · subst hId
      simp only [Function.update_self]
      exact .respond c run r rfl
    · simp only [Function.update_of_ne (Ne.symm hId)]
      refine .quiet fun c' k hHold => ?_
      obtain ⟨rfl, -⟩ := holding_classify hHold
      exact hId
  | release c run reply =>
    by_cases hId : c.request.id = rid
    · subst hId
      simp only [Function.update_self]
      exact .release c run reply rfl
    · simp only [Function.update_of_ne (Ne.symm hId)]
      exact .quiet (hQuiet rfl)
  | retain c run r e => exact .retain c run r e
  | record c run r e now row json hRow hJson =>
    by_cases hId : c.request.id = rid
    · subst hId hJson
      simp only [Function.update_self, hRow]
      exact .record c run r e now row rfl
    · simp only [Function.update_of_ne (Ne.symm hId)]
      exact .quiet (hQuiet rfl)

theorem Coherent.step (hInjective : Function.Injective fingerprint) {i : ι} {a : ExternalAction}
    {p p' : ExternalPhase} {row row' : Option (LedgerRow H)} {E E' : List (Execution ι)}
    (hMove : RowMove fingerprint rid i a p row E p' row' E') (hKept : Kept a row)
    (hOwns : Owns rid i p row E) (h : Coherent fingerprint row E) :
    Coherent fingerprint row' E' := by
  cases hMove with
  | quiet => exact h
  | retain => exact h
  | @clean _ _ ledger ledger' _ now hClean =>
    obtain rfl | ⟨before, x, rfl, hBefore, hLast⟩ := h
    · exact .inl rfl
    refine .inr ⟨before, x, rfl, hBefore, ?_⟩
    cases hRow : ledger rid with
    | none =>
      rw [hRow] at hLast
      obtain ⟨-, rfl⟩ | ⟨-, rfl⟩ := hClean
      · rwa [Ledger.pruneCompleted_of_none hRow]
      · rwa [Ledger.opened_of_none hRow]
    | some row =>
      rw [hRow] at hLast hKept
      obtain ⟨hAction, rfl⟩ | ⟨hAction, rfl⟩ := hClean
      · rwa [Ledger.pruneCompleted_of_kept hRow (hKept now (.inl hAction) row rfl)]
      · rw [Ledger.opened_of_kept hRow (hKept now (.inr hAction) row rfl)]
        exact hLast.sanitized
  | touch c row hId =>
    obtain rfl | ⟨before, x, rfl, hBefore, hLast⟩ := h
    · exact .inl rfl
    · refine .inr ⟨before, x, rfl, hBefore, ?_⟩
      rwa [upgradeHash_payload hInjective _ hLast.1]
  | acquire c now hId =>
    refine .inr ⟨E, ⟨i, c, none, false⟩, rfl, ?_, rfl, rfl, by simp⟩
    obtain rfl | ⟨before, x, rfl, hBefore, hLast⟩ := h
    · simp
    · intro y hy
      rcases List.mem_append.mp hy with hy | hy
      · exact hBefore y hy
      · exact List.mem_singleton.mp hy ▸ hLast
  | respond c k r hId =>
    obtain ⟨before, x, row, rfl, rfl, -, -, rfl, hOpen, -⟩ := hOwns c k rfl hId
    obtain hEmpty | ⟨before', x', hSplit, hBefore, hLast⟩ := h
    · simp at hEmpty
    obtain ⟨rfl, hx⟩ := List.append_inj' hSplit rfl
    cases hx
    refine .inr ⟨before, { x with response := some r }, modify_last before x _, hBefore,
      hLast.1, hLast.2.1, ?_⟩
    simp [hOpen]
  | release c k reply hId =>
    obtain ⟨before, x, row, rfl, rfl, -, -, rfl, hOpen, hKnows⟩ := hOwns c k rfl hId
    obtain hEmpty | ⟨before', x', hSplit, hBefore, hLast⟩ := h
    · simp at hEmpty
    obtain ⟨rfl, hx⟩ := List.append_inj' hSplit rfl
    cases hx
    exact .inr ⟨before, { x with abandoned := true }, modify_last before x _, hBefore, hKnows, rfl⟩
  | record c k r e now row hId =>
    obtain ⟨before, x, row', rfl, rfl, -, -, hRow, hOpen, hKnows⟩ := hOwns c k rfl hId
    cases hRow
    obtain hEmpty | ⟨before', x', hSplit, hBefore, hLast⟩ := h
    · simp at hEmpty
    obtain ⟨rfl, hx⟩ := List.append_inj' hSplit rfl
    cases hx
    refine .inr ⟨before, x, rfl, hBefore, hLast.1, hLast.2.1, fun json hJson => ?_⟩
    cases hJson
    exact ⟨r, hKnows.1, hKnows.2, .inl rfl⟩

theorem Owns.step {i : ι} {a : ExternalAction} {p p' : ExternalPhase}
    {row row' : Option (LedgerRow H)} {E E' : List (Execution ι)}
    (hMove : RowMove fingerprint rid i a p row E p' row' E') (hOwns : Owns rid i p row E) :
    Owns rid i p' row' E' := by
  cases hMove with
  | quiet hOther => exact fun c k hHold hId => absurd hId (hOther c k hHold)
  | retain c k r e =>
    intro c' k' hHold hId
    cases hHold
    exact hOwns c k rfl hId
  | clean _ _ _ hNone => exact .of_not_holding hNone
  | touch _ _ _ hNone => exact .of_not_holding hNone
  | acquire c now hId =>
    intro c' k' hHold _
    cases hHold
    exact ⟨E, ⟨i, c, none, false⟩, _, rfl, rfl, rfl, rfl, rfl, rfl, trivial⟩
  | respond c k r hId =>
    intro c' k' hHold _
    obtain ⟨rfl, rfl⟩ := holding_classify hHold
    obtain ⟨before, x, row, rfl, rfl, hThread, hCall, hRow, hOpen, -⟩ := hOwns c' k' rfl hId
    refine ⟨before, { x with response := some r }, row, modify_last before x _, rfl, hThread,
      hCall, hRow, hOpen, ?_⟩
    obtain ⟨hAsks, hPhase⟩ | ⟨hAsks, hPhase⟩ := classify_execute c' before.length r
    · rw [hPhase]
      exact ⟨r, rfl, hAsks⟩
    · rw [hPhase]
      exact ⟨rfl, hAsks⟩
  | release => exact .of_not_holding rfl
  | record => exact .of_not_holding rfl

/-- No step of another thread takes the reservation away. -/
theorem Owns.other {i j : ι} {a : ExternalAction} {p p' q : ExternalPhase}
    {row row' : Option (LedgerRow H)} {E E' : List (Execution ι)} (hNe : j ≠ i)
    (hMove : RowMove fingerprint rid i a p row E p' row' E') (hMover : Owns rid i p row E)
    (hOwns : Owns rid j q row E) : Owns rid j q row' E' := by
  intro c k hHold hId
  obtain ⟨before, x, row₀, hE, hk, hThread, hCall, hRow, hOpen, hKnows⟩ := hOwns c k hHold hId
  have hAlone : ∀ c' k', holding p = some (c', k') → c'.request.id ≠ rid := fun c' k' hHold' hId' =>
    hNe (hOwns.unique hMover hHold hHold' hId hId')
  cases hMove with
  | quiet => exact ⟨before, x, row₀, hE, hk, hThread, hCall, hRow, hOpen, hKnows⟩
  | retain => exact ⟨before, x, row₀, hE, hk, hThread, hCall, hRow, hOpen, hKnows⟩
  | clean now hClean =>
    refine ⟨before, x, row₀, hE, hk, hThread, hCall, ?_, hOpen, hKnows⟩
    obtain ⟨-, rfl⟩ | ⟨-, rfl⟩ := hClean
    · exact Ledger.pruneCompleted_of_kept hRow (Ledger.expired_of_open hOpen now)
    · rw [Ledger.opened_of_kept hRow (Ledger.expired_of_open hOpen now),
        Ledger.sanitizedRow_of_open hOpen]
  | touch c' row' =>
    cases hRow
    exact ⟨before, x, _, hE, hk, hThread, hCall, rfl, by simpa using hOpen, hKnows⟩
  | acquire => cases hRow
  | respond c' k' _ hId' => exact absurd hId' (hAlone c' k' rfl)
  | release c' k' _ hId' => exact absurd hId' (hAlone c' k' rfl)
  | record c' k' _ _ _ _ hId' => exact absurd hId' (hAlone c' k' rfl)

theorem RowMove.unheld (hInjective : Function.Injective fingerprint) {i : ι}
    {a : ExternalAction} {p p' : ExternalPhase} {o o' : Option (LedgerRow H)}
    {E E' : List (Execution ι)} (hMove : RowMove fingerprint rid i a p o E p' o' E')
    {row : LedgerRow H} {q : RequestEnvelope} (hRow : o = some row)
    (hHash : row.requestHash = fingerprint { q with auth := none })
    (hFree : ∀ c k, holding p = some (c, k) → c.request.id ≠ rid) (hKept : Kept a o) :
    (o' = some row ∨ o' = some (Ledger.sanitizedRow row)) ∧ E' = E := by
  cases hMove with
  | quiet => exact ⟨.inl hRow, rfl⟩
  | retain => exact ⟨.inl hRow, rfl⟩
  | clean now hClean =>
    refine ⟨?_, rfl⟩
    obtain ⟨hAction, rfl⟩ | ⟨hAction, rfl⟩ := hClean
    · exact .inl (Ledger.pruneCompleted_of_kept hRow (hKept now (.inl hAction) row hRow))
    · exact .inr (Ledger.opened_of_kept hRow (hKept now (.inr hAction) row hRow))
  | touch c row' =>
    cases hRow
    exact ⟨.inl (by rw [upgradeHash_payload hInjective _ hHash]), rfl⟩
  | acquire => cases hRow
  | respond c k _ hId => exact absurd hId (hFree c k rfl)
  | release c k _ hId => exact absurd hId (hFree c k rfl)
  | record c k _ _ _ _ hId => exact absurd hId (hFree c k rfl)

/-- A reservation that nobody holds stays in flight. -/
theorem RowMove.orphaned {i : ι} {a : ExternalAction} {p p' : ExternalPhase}
    {o o' : Option (LedgerRow H)} {E E' : List (Execution ι)}
    (hMove : RowMove fingerprint rid i a p o E p' o' E') {row : LedgerRow H} (hRow : o = some row)
    (hOpen : row.responseJson = none)
    (hFree : ∀ c k, holding p = some (c, k) → c.request.id ≠ rid) :
    E' = E ∧ (∀ c k, holding p' = some (c, k) → c.request.id ≠ rid) ∧
      ∃ row', o' = some row' ∧ row'.responseJson = none ∧
        (row' = row ∨ ∃ q, row' = Ledger.upgradeHash row (requestHashes fingerprint q)) := by
  cases hMove with
  | quiet hOther => exact ⟨rfl, hOther, row, hRow, hOpen, .inl rfl⟩
  | retain c k r e => exact ⟨rfl, fun c' k' h => hFree c' k' h, row, hRow, hOpen, .inl rfl⟩
  | clean now hClean _ hNone =>
    refine ⟨rfl, by simp [hNone], row, ?_, hOpen, .inl rfl⟩
    obtain ⟨-, rfl⟩ | ⟨-, rfl⟩ := hClean
    · exact Ledger.pruneCompleted_of_kept hRow (Ledger.expired_of_open hOpen now)
    · rw [Ledger.opened_of_kept hRow (Ledger.expired_of_open hOpen now),
        Ledger.sanitizedRow_of_open hOpen]
  | touch c row' _ hNone =>
    cases hRow
    exact ⟨rfl, by simp [hNone], _, rfl, by simpa using hOpen, .inr ⟨c.request, rfl⟩⟩
  | acquire => cases hRow
  | respond c k _ hId => exact absurd hId (hFree c k rfl)
  | release c k _ hId => exact absurd hId (hFree c k rfl)
  | record c k _ _ _ _ hId => exact absurd hId (hFree c k rfl)

/-! ## The course of one run -/

/-- The run `k` was the last one: it answered `r`, and its row is completed. -/
def Recorded (i : ι) (c : Call) (k : Nat) (r : ResponseEnvelope) (row : Option (LedgerRow H))
    (E : List (Execution ι)) : Prop :=
  ∃ before x row' json, E = before ++ [x] ∧ before.length = k ∧ x.thread = i ∧ x.call = c ∧
    x.response = some r ∧ row = some row' ∧ row'.responseJson = some json

/-- How a run of the handler returns: with its own response, which is on record then, with the
report of a record that failed, or with a response that asks for a retry. `Heard` holds of the
steps the thread has made. -/
inductive Ended (i : ι) (c : Call) (k : Nat) (Heard : ExternalAction → Prop) (o : OutcomeExecution)
    (row : Option (LedgerRow H)) (E : List (Execution ι)) : Prop
  | recorded (r : ResponseEnvelope) : Heard (.respond r) → asksForRetry r = false →
      o = ⟨r, false⟩ → Recorded i c k r row E → Ended i c k Heard o row E
  | unrecorded (e : LedgerError) : Heard (.completeFails e) →
      o = fail c "daemon.request_outcome_persist_failed" e true → Ended i c k Heard o row E
  | refused (r : ResponseEnvelope) : Heard (.respond r) → asksForRetry r = true →
      (o = ⟨handedBack r, false⟩ ∨ ∃ e, o = abandonFailed c e) → Ended i c k Heard o row E

/-- Where the thread that runs the handler can be until it comes in with another call. -/
inductive Course (i : ι) (c : Call) (k : Nat) (Heard : ExternalAction → Prop)
    (row : Option (LedgerRow H)) (E : List (Execution ι)) : ExternalPhase → Prop
  | idle : Course i c k Heard row E .idle
  | executing : Course i c k Heard row E (.executing c k)
  | abandoning (r : ResponseEnvelope) : Heard (.respond r) → asksForRetry r = true →
      Course i c k Heard row E (.abandoning c k (handedBack r))
  | completing (r : ResponseEnvelope) : Heard (.respond r) → asksForRetry r = false →
      Course i c k Heard row E (.completing c k r none)
  | pruning (r : ResponseEnvelope) : Heard (.respond r) → asksForRetry r = false →
      Recorded i c k r row E → Course i c k Heard row E (.pruning c ⟨r, false⟩)
  | returned (o : OutcomeExecution) : Ended i c k Heard o row E →
      Course i c k Heard row E (.returned c o)

theorem Recorded.step (hInjective : Function.Injective fingerprint) {i j : ι} {c : Call} {k : Nat}
    {r : ResponseEnvelope} {a : ExternalAction} {p p' : ExternalPhase} {row row' : Option (LedgerRow H)}
    {E E' : List (Execution ι)} (hMove : RowMove fingerprint rid j a p row E p' row' E')
    (hMover : Owns rid j p row E) (hCoherent : Coherent fingerprint row E) (hKept : Kept a row)
    (h : Recorded i c k r row E) : Recorded i c k r row' E' := by
  obtain ⟨before, x, row₀, json, rfl, hLength, hThread, hCall, hResponse, rfl, hJson⟩ := h
  have hFree : ∀ c k, holding p = some (c, k) → c.request.id ≠ rid := by
    intro c' k' hHold hId
    obtain ⟨-, -, row₁, -, -, -, -, hRow, hOpen, -⟩ := hMover c' k' hHold hId
    cases hRow
    exact Option.some_ne_none _ (hJson.symm.trans hOpen)
  obtain hEmpty | ⟨before', x', hSplit, -, hLast⟩ := hCoherent
  · simp at hEmpty
  obtain ⟨rfl, hx⟩ := List.append_inj' hSplit rfl
  cases hx
  obtain ⟨hRow, rfl⟩ := hMove.unheld hInjective rfl hLast.1 hFree hKept
  obtain ⟨row₁, hRow', hJson'⟩ : ∃ row₁, row' = some row₁ ∧ row₁.responseJson ≠ none := by
    rcases hRow with rfl | rfl
    · exact ⟨_, rfl, by simp [hJson]⟩
    · refine ⟨_, rfl, ?_⟩
      unfold Ledger.sanitizedRow
      split <;> simp [hJson]
  obtain ⟨json', hJson'⟩ := Option.ne_none_iff_exists'.mp hJson'
  exact ⟨before, x, row₁, json', rfl, hLength, hThread, hCall, hResponse, hRow', hJson'⟩

section

variable {i : ι} {c : Call} {k : Nat} {Heard : ExternalAction → Prop} {row row' : Option (LedgerRow H)}
  {E E' : List (Execution ι)} {p : ExternalPhase}

omit [DecidableEq H] in
theorem Course.keep (hKeep : ∀ r, Recorded i c k r row E → Recorded i c k r row' E')
    (h : Course i c k Heard row E p) : Course i c k Heard row' E' p := by
  cases h with
  | idle => exact .idle
  | executing => exact .executing
  | abandoning r hHeard hAsks => exact .abandoning r hHeard hAsks
  | completing r hHeard hAsks => exact .completing r hHeard hAsks
  | pruning r hHeard hAsks hRecorded => exact .pruning r hHeard hAsks (hKeep r hRecorded)
  | returned o hEnded =>
    refine .returned o ?_
    cases hEnded with
    | recorded r hHeard hAsks ho hRecorded => exact .recorded r hHeard hAsks ho (hKeep r hRecorded)
    | unrecorded e hHeard ho => exact .unrecorded e hHeard ho
    | refused r hHeard hAsks ho => exact .refused r hHeard hAsks ho

theorem complete_of_owns {w : World ι H} {r : ResponseEnvelope} (now : Int) (hId : c.request.id = rid)
    (hOwns : Owns rid i (.completing c k r none) (w.ledger rid) (w.executions rid))
    (hCoherent : Coherent fingerprint (w.ledger rid) (w.executions rid)) :
    (complete .execute fingerprint c r none now w).1 = .pruning c ⟨r, false⟩ ∧
      Recorded i c k r ((complete .execute fingerprint c r none now w).2.ledger rid)
        ((complete .execute fingerprint c r none now w).2.executions rid) := by
  obtain ⟨before, x, row, hRuns, hLength, hThread, hCall, hRow, hOpen, hResponse, -⟩ :=
    hOwns c k rfl hId
  obtain hEmpty | ⟨before', x', hSplit, -, hLast⟩ := hCoherent
  · simp [hEmpty] at hRuns
  obtain ⟨rfl, hx⟩ := List.append_inj' (hSplit.symm.trans hRuns) rfl
  cases hx
  rw [hRow] at hLast
  have hHash : row.requestHash = (requestHashes fingerprint c.request).current := hCall ▸ hLast.1
  subst hId
  have hDone := Ledger.recordCompletion_of_open r.toJson now
    "daemon outcome reservation disappeared before completion" hRow hHash hOpen
  simp only [complete, Ledger.complete, hDone]
  exact ⟨rfl, before', x, _, r.toJson, hRuns, hLength, hThread, hCall, hResponse,
    Function.update_self .., rfl⟩

theorem Course.step (hInjective : Function.Injective fingerprint) {a : ExternalAction} {w : World ι H}
    {q : ExternalPhase × World ι H} (hId : c.request.id = rid) (hHeard : Heard a) (hBegins : ¬ a.Begins)
    (hOwns : Owns rid i p (w.ledger rid) (w.executions rid))
    (hCoherent : Coherent fingerprint (w.ledger rid) (w.executions rid)) (hKept : Kept a (w.ledger rid))
    (hStep : External.step .execute fingerprint i a p w = some q)
    (h : Course i c k Heard (w.ledger rid) (w.executions rid) p) :
    Course i c k Heard (q.2.ledger rid) (q.2.executions rid) q.1 := by
  have hKeep : ∀ r, Recorded i c k r (w.ledger rid) (w.executions rid) →
      Recorded i c k r (q.2.ledger rid) (q.2.executions rid) :=
    fun _ hRecorded => hRecorded.step hInjective ((step_move hStep).row rid) hOwns hCoherent hKept
  cases h with
  | idle =>
    obtain hCall | hIdle := step_idle hStep
    · exact absurd hCall hBegins
    · exact hIdle ▸ .idle
  | executing =>
    obtain ⟨r, rfl, hPhase⟩ | hIdle := step_executing hStep
    · obtain ⟨hAsks, hClass⟩ | ⟨hAsks, hClass⟩ := classify_execute c k r
      · exact (hPhase.trans hClass) ▸ .abandoning r hHeard hAsks
      · exact (hPhase.trans hClass) ▸ .completing r hHeard hAsks
    · exact hIdle ▸ .idle
  | abandoning r hResponse hAsks =>
    obtain hPhase | ⟨e, hPhase⟩ | hIdle := step_abandoning hStep
    · exact hPhase ▸ .returned _ (.refused r hResponse hAsks (.inl rfl))
    · exact hPhase ▸ .returned _ (.refused r hResponse hAsks (.inr ⟨e, rfl⟩))
    · exact hIdle ▸ .idle
  | completing r hResponse hAsks =>
    obtain ⟨now, rfl, rfl⟩ | ⟨e, rfl, hPhase⟩ | hIdle := step_completing hStep
    · obtain ⟨hPhase, hRecorded⟩ := complete_of_owns now hId hOwns hCoherent
      exact hPhase ▸ .pruning r hResponse hAsks hRecorded
    · exact hPhase ▸ .returned _ (.unrecorded e hHeard rfl)
    · exact hIdle ▸ .idle
  | pruning r hResponse hAsks hRecorded =>
    obtain hPhase | hIdle := step_pruning hStep
    · exact hPhase ▸ .returned _ (.recorded r hResponse hAsks rfl (hKeep r hRecorded))
    · exact hIdle ▸ .idle
  | returned o hEnded =>
    obtain ⟨c', rfl, -⟩ | ⟨c', e, rfl⟩ | hIdle := step_returned hStep
    · exact absurd trivial hBegins
    · exact absurd trivial hBegins
    · exact hIdle ▸ .idle

end

end Exosuit.Daemon.External
