import Mathlib.Data.Countable.Basic
import Mathlib.Logic.Equiv.List
import Exosuit.Lib.Text
import Exosuit.Workbench.TicketLedger

/-!
# A launch ticket is used once

Refused exchanges are harmless, a ticket determines its capability, and with the ledger
these give the guarantee for whole runs.
-/

namespace Exosuit.Workbench

open Lib (Table)
open WorkbenchHostInner

variable {ι : Type} {env : Env}

/-! ## Failed exchanges -/

/-- The clock reading an exchange goes by, once it has verified its ticket. -/
def Local.exchangeClock (l : Local) : Option Nat := l.presented.map (·.now)

def Local.inExchange (l : Local) : Bool := l.called.isSome || l.presented.isSome

/-- The sessions after are among those before and none is the redemption's own. -/
structure NoSession (l : Local) (sh sh' : Shared ι) : Prop where
  grants : ∀ d ∈ sh'.inner.state.sessionGrants,
    d ∈ sh.inner.state.sessionGrants ∧ ∀ r, l.redemption = some r → d ≠ r.session.id
  sessions : ∀ d ∈ sh'.inner.state.sessions,
    d ∈ sh.inner.state.sessions ∧ ∀ r, l.redemption = some r → d ≠ r.session.id

theorem NoSession.of_subset {l : Local} {sh sh' : Shared ι} (hNone : l.redemption = none)
    (hGrants : ∀ d ∈ sh'.inner.state.sessionGrants, d ∈ sh.inner.state.sessionGrants)
    (hSessions : ∀ d ∈ sh'.inner.state.sessions, d ∈ sh.inner.state.sessions) :
    NoSession l sh sh' :=
  ⟨fun d hd => ⟨hGrants d hd, fun _ hr => nomatch hNone ▸ hr⟩,
    fun d hd => ⟨hSessions d hd, fun _ hr => nomatch hNone ▸ hr⟩⟩

theorem mem_sessionGrants_enrollPruned {state : WorkbenchState} {now : Nat} {d : String}
    (h : d ∈ (enrollPruned state now).sessionGrants) : d ∈ state.sessionGrants := by
  simp only [enrollPruned, retainLiveAuthorizations, retainLiveSessions,
    retainLivePendingCapabilities] at h
  exact Lib.Table.mem_retain (Lib.Table.mem_retain h)

theorem mem_sessions_enrollPruned {state : WorkbenchState} {now : Nat} {d : String}
    (h : d ∈ (enrollPruned state now).sessions) : d ∈ state.sessions := by
  simp only [enrollPruned, retainLiveAuthorizations, retainLiveSessions,
    retainLivePendingCapabilities] at h
  exact Lib.Table.mem_retain (Lib.Table.mem_retain h)

theorem mem_sessionGrants_redeemPruned {state : WorkbenchState} {now : Nat} {d : String}
    (h : d ∈ (redeemPruned state now).sessionGrants) : d ∈ state.sessionGrants := by
  simp only [redeemPruned, retainLiveSessions, retainLivePendingCapabilities] at h
  exact Lib.Table.mem_retain h

theorem mem_sessions_redeemPruned {state : WorkbenchState} {now : Nat} {d : String}
    (h : d ∈ (redeemPruned state now).sessions) : d ∈ state.sessions := by
  simp only [redeemPruned, retainLiveSessions, retainLivePendingCapabilities] at h
  exact Lib.Table.mem_retain h

theorem move_of_inExchange {i : ι} {a : Action} {l l' : Local} {sh sh' : Shared ι}
    (hExchange : l.inExchange = true) (h : move env i a l sh = some (l', sh')) :
    redeemMove env i a l sh = some (l', sh') ∨ enrollMove env i a l sh = some (l', sh') := by
  unfold move at h
  split at h
  case h_1 | h_2 => simp [Local.inExchange, Local.called, Local.presented] at hExchange
  case h_3 =>
    simp only [Option.or_eq_some_iff] at h
    rcases h with (h | ⟨-, h⟩) | ⟨-, h | ⟨-, h⟩⟩
    · exact .inl h
    · exact .inr h
    · unfold launchMove at h
      split at h <;> first | exact Bool.noConfusion hExchange | exact nomatch h
    · unfold hostMove at h
      split at h <;> first | exact Bool.noConfusion hExchange | exact nomatch h

theorem enrollSection_pending {p : Presented} {presentedPairing : Option (String × String)}
    {tokens : EnrollTokens} {rootValid : Bool} {w : StoreWrite} {sh : Shared ι}
    (hUnfinished : (enrollSection env p presentedPairing tokens rootValid w sh).1 ≠ .done .exchanged)
    {c : String} {q : PendingCapability} (hPending : sh.pendingAt c = some q)
    (hCurrent : pendingCapabilityIssuanceCurrent sh.inner.state q p.now = true) :
    (enrollSection env p presentedPairing tokens rootValid w sh).2.pendingAt c = some q := by
  have hKept : (retainLivePendingCapabilities sh.inner.state p.now).pendingCapabilities.lookup c =
      some q := lookup_retainLivePendingCapabilities.mpr ⟨hPending, hCurrent⟩
  unfold enrollSection at hUnfinished ⊢
  simp only at hUnfinished ⊢
  split
  · exact hKept
  · next hOk =>
    rw [hOk] at hUnfinished
    cases w with
    | done => exact (hUnfinished rfl).elim
    | refused => exact hKept
    | lateError => exact hKept

theorem enrollSection_noSession {p : Presented} {presentedPairing : Option (String × String)}
    {tokens : EnrollTokens} {rootValid : Bool} {w : StoreWrite} {sh : Shared ι}
    (hRefused : (enrollSection env p presentedPairing tokens rootValid w sh).1 = .done .refused) :
    NoSession (.enrollGated p presentedPairing tokens) sh
      (enrollSection env p presentedPairing tokens rootValid w sh).2 := by
  have hPruned : NoSession (.enrollGated p presentedPairing tokens) sh
      (sh.setState (enrollPruned sh.inner.state p.now)) :=
    .of_subset rfl (fun _ => mem_sessionGrants_enrollPruned) fun _ => mem_sessions_enrollPruned
  unfold enrollSection at hRefused ⊢
  simp only at hRefused ⊢
  split
  · exact ⟨hPruned.grants, hPruned.sessions⟩
  · next hOk =>
    rw [hOk] at hRefused
    cases w with
    | done => cases hRefused
    | refused => exact ⟨hPruned.grants, hPruned.sessions⟩
    | lateError => exact ⟨hPruned.grants, hPruned.sessions⟩

theorem shared_of_called {i : ι} {a : Action} {l l' : Local} {sh sh' : Shared ι}
    (hCalled : l.called.isSome = true) (h : move env i a l sh = some (l', sh')) : sh' = sh := by
  rcases move_of_inExchange (by rw [Local.inExchange, hCalled, Bool.true_or]) h with h | h
  · unfold redeemMove at h
    split at h
    case h_1 =>
      split at h
      · cases h
        rfl
      · split at h <;> cases h <;> rfl
    case h_7 => cases h
    all_goals cases hCalled
  · unfold enrollMove at h
    split at h
    case h_1 =>
      split at h
      · split at h <;> cases h <;> rfl
      · cases h
        rfl
    case h_4 => cases h
    all_goals cases hCalled

theorem usable_of_move {i : ι} {a : Action} {l l' : Local} {sh sh' : Shared ι} {now : Nat}
    (hClock : l.exchangeClock = some now) (h : move env i a l sh = some (l', sh'))
    (hUnfinished : l' ≠ .done .exchanged) {c : String} {p : PendingCapability}
    (hPending : sh.pendingAt c = some p)
    (hCurrent : pendingCapabilityIssuanceCurrent sh.inner.state p now = true) :
    sh'.pendingAt c = some p := by
  obtain ⟨q, hq, rfl⟩ := Option.map_eq_some_iff.mp hClock
  have hKept : (retainLivePendingCapabilities sh.inner.state q.now).pendingCapabilities.lookup c =
      some p := lookup_retainLivePendingCapabilities.mpr ⟨hPending, hCurrent⟩
  rcases move_of_inExchange (by simp [Local.inExchange, hq]) h with h | h
  · unfold redeemMove at h
    split at h
    case h_1 => cases hq
    case h_2 => split at h <;> cases h; exact hPending
    case h_3 =>
      cases hq
      unfold lookupSection at h
      simp only at h
      split at h <;> cases h <;> exact hKept
    case h_4 => cases h; simpa [Shared.pendingAt] using hPending
    case h_5 => cases h; exact (hUnfinished rfl).elim
    case h_6 => cases h; exact hPending
    case h_7 => cases h
  · unfold enrollMove at h
    split at h
    case h_1 => cases hq
    case h_2 => split at h <;> cases h; exact hPending
    case h_3 =>
      cases hq
      obtain ⟨hLocal, rfl⟩ := Prod.mk.inj (Option.some.inj h)
      exact enrollSection_pending (hLocal ▸ hUnfinished) hPending hCurrent
    case h_4 => cases h

theorem noSession_of_refused {i : ι} {a : Action} {l : Local} {sh sh' : Shared ι}
    (hExchange : l.inExchange = true) (h : move env i a l sh = some (.done .refused, sh')) :
    NoSession l sh sh' := by
  rcases move_of_inExchange hExchange h with h | h
  · unfold redeemMove at h
    split at h
    case h_1 =>
      split at h
      · cases h; exact .of_subset rfl (fun _ => id) fun _ => id
      · split at h <;> cases h
        exact .of_subset rfl (fun _ => id) fun _ => id
    case h_2 => split at h <;> cases h
    case h_3 =>
      unfold lookupSection at h
      simp only at h
      split at h <;> cases h
      exact .of_subset rfl (fun _ => mem_sessionGrants_redeemPruned) fun _ =>
        mem_sessions_redeemPruned
    case h_4 =>
      have hLocal := congrArg Prod.fst (Option.some.inj h)
      simp only at hLocal
      split at hLocal <;> cases hLocal
    case h_5 => cases h
    case h_6 r =>
      cases h
      refine ⟨fun d hd => ?_, fun d hd => ?_⟩
      · obtain ⟨hne, hd⟩ := AList.mem_erase.mp hd
        exact ⟨hd, fun _ hr => Option.some.inj hr ▸ hne⟩
      · obtain ⟨hne, hd⟩ := AList.mem_erase.mp hd
        exact ⟨hd, fun _ hr => Option.some.inj hr ▸ hne⟩
    case h_7 => cases h
  · unfold enrollMove at h
    split at h
    case h_1 =>
      split at h
      · split at h <;> cases h
        exact .of_subset rfl (fun _ => id) fun _ => id
      · cases h; exact .of_subset rfl (fun _ => id) fun _ => id
    case h_2 => split at h <;> cases h
    case h_3 =>
      obtain ⟨hLocal, rfl⟩ := Prod.mk.inj (Option.some.inj h)
      exact enrollSection_noSession hLocal
    case h_4 => cases h

/-! ## Tickets and capabilities -/

theorem payloadOf_wellSigned (hEnv : env.Lawful) {r : SignedTicket} (h : r.WellSigned env) :
    (∃ signaturePart, r.ticket = ["v1", env.encode r.payload, signaturePart] ∧
        (env.fromSliceV1 r.payload).map (·.capabilityId) = some r.capabilityId) ∨
      ∃ signaturePart, r.ticket = ["v2", env.encode r.payload, signaturePart] ∧
        (env.fromSliceV2 r.payload).map (·.capabilityId) = some r.capabilityId := by
  obtain ⟨key, entry, issuedAt, hTicket, hPayload⟩ := h
  unfold launchTicket at hTicket
  unfold signedPayload at hPayload
  cases hMode : entry.isPublished with
  | true =>
    simp only [hMode, if_true, Option.map_eq_some_iff] at hTicket
    obtain ⟨instance', hInstance, hTicket⟩ := hTicket
    simp only [hMode, hInstance] at hPayload
    refine .inr ⟨_, by rw [← hTicket, hPayload]; rfl, ?_⟩
    rw [hPayload, hEnv.fromSliceV2_toVecV2]
    rfl
  | false =>
    simp only [hMode, Bool.false_eq_true, if_false, Option.some.injEq] at hTicket
    simp only [hMode] at hPayload
    refine .inl ⟨_, by rw [← hTicket, hPayload]; rfl, ?_⟩
    rw [hPayload, hEnv.fromSliceV1_toVecV1]
    rfl

theorem capability_of_ticket (hEnv : env.Lawful) {r r' : SignedTicket} (h : r.WellSigned env)
    (h' : r'.WellSigned env) (hTicket : r.ticket = r'.ticket) : r.capabilityId = r'.capabilityId := by
  have hEncode : ∀ b b', env.encode b = env.encode b' → b = b' := fun b b' hb =>
    Option.some.inj ((hEnv.decode_encode b).symm.trans (hb ▸ hEnv.decode_encode b'))
  rcases payloadOf_wellSigned hEnv h with ⟨s, hr, hId⟩ | ⟨s, hr, hId⟩ <;>
    rcases payloadOf_wellSigned hEnv h' with ⟨s', hr', hId'⟩ | ⟨s', hr', hId'⟩ <;>
    rw [hr, hr'] at hTicket <;> simp only [List.cons.injEq] at hTicket
  · rw [hEncode _ _ hTicket.2.1] at hId
    exact Option.some.inj (hId.symm.trans hId')
  · exact absurd hTicket.1 (by decide)
  · exact absurd hTicket.1 (by decide)
  · rw [hEncode _ _ hTicket.2.1] at hId
    exact Option.some.inj (hId.symm.trans hId')

theorem length_le_one_of_same {es : List Exchange} {c : String}
    (hOnce : (es.map (·.capabilityId)).Nodup) (hSame : ∀ e ∈ es, e.capabilityId = c) :
    es.length ≤ 1 := by
  match es, hOnce, hSame with
  | [], _, _ => exact Nat.zero_le 1
  | [_], _, _ => exact Nat.le_refl 1
  | e :: e' :: _, hOnce, hSame =>
    have hne : e.capabilityId ≠ e'.capabilityId := fun h =>
      (List.nodup_cons.mp hOnce).1 (by simp [h])
    exact absurd ((hSame e (by simp)).trans (hSame e' (by simp)).symm) hne

theorem Ledger.ticket_once (hEnv : env.Lawful) {sh : Shared ι} (h : Ledger env sh)
    (ticket : Ticket) : (sh.exchanges.filter fun e => e.ticket = ticket).length ≤ 1 := by
  have hOnce : ((sh.exchanges.filter fun e => e.ticket = ticket).map (·.capabilityId)).Nodup :=
    h.spentOnce.sublist (List.filter_sublist.map _)
  cases hList : sh.exchanges.filter fun e => e.ticket = ticket with
  | nil => exact Nat.zero_le 1
  | cons e₀ es =>
    rw [hList] at hOnce
    refine length_le_one_of_same hOnce (c := e₀.capabilityId) fun e he => ?_
    have hMem : ∀ e ∈ e₀ :: es, e ∈ sh.exchanges ∧ e.ticket = ticket := fun e he => by
      rw [← hList, List.mem_filter] at he
      simpa using he
    obtain ⟨r, hr, hId, hTicket⟩ := (h.exchanges e (hMem e he).1).signed
    obtain ⟨r₀, hr₀, hId₀, hTicket₀⟩ := (h.exchanges e₀ (hMem e₀ List.mem_cons_self).1).signed
    rw [← hId, ← hId₀]
    apply capability_of_ticket hEnv (h.wellSigned r hr) (h.wellSigned r₀ hr₀)
    rw [hTicket, hTicket₀, (hMem e he).2, (hMem e₀ List.mem_cons_self).2]

theorem Ledger.issued_of_exchange {sh : Shared ι} (h : Ledger env sh)
    {e : Exchange} (he : e ∈ sh.exchanges) :
    ∃ issue ∈ sh.issued, issue.ticket = e.ticket ∧ issue.capabilityId = e.capabilityId ∧
      pendingCapabilityIssuanceCurrent e.before issue.pending e.now = true := by
  have hGood := h.exchanges e he
  obtain ⟨issue, hIssue, hId, hPending⟩ := hGood.issued
  refine ⟨issue, hIssue, ?_, hId, hPending ▸ hGood.current⟩
  obtain ⟨r, hr, hrId, hrTicket⟩ := h.issuedSigned issue hIssue
  obtain ⟨r', hr', hrId', hrTicket'⟩ := hGood.signed
  -- one ticket was signed for the capability id
  have hSame : r = r' := List.inj_on_of_nodup_map h.signedOnce hr hr'
    (hrId.trans (hId.trans hrId'.symm))
  rw [← hrTicket, ← hrTicket', hSame]

variable [DecidableEq ι]

/-- In every run of launches, redemptions, enrolments and changes of hosts, workspaces and
origins, a ticket is exchanged at most once, only while it is the current issue of its
capability, and a refused exchange loses no usable ticket and leaves no session. -/
theorem launch_ticket_used_once (hEnv : env.Lawful) {s t : System ι} {as : List (ι × Action)}
    (hInit : Initial s) (hFair : Lib.Along (systemStep env) (Fair env) s as)
    (hRun : Lib.run (systemStep env) s as = some t) :
    (∀ ticket, (t.shared.exchanges.filter fun e => e.ticket = ticket).length ≤ 1) ∧
      (∀ e ∈ t.shared.exchanges, ∃ issue ∈ t.shared.issued,
        issue.ticket = e.ticket ∧ issue.capabilityId = e.capabilityId ∧
          pendingCapabilityIssuanceCurrent e.before issue.pending e.now = true) ∧
      ∀ i a t', systemStep env t (i, a) = some t' →
        ((t.thread i).called.isSome = true → t'.shared = t.shared) ∧
        (∀ now c p, (t.thread i).exchangeClock = some now → t'.thread i ≠ .done .exchanged →
          t.shared.pendingAt c = some p →
          pendingCapabilityIssuanceCurrent t.shared.inner.state p now = true →
          t'.shared.pendingAt c = some p) ∧
        ((t.thread i).inExchange = true → t'.thread i = .done .refused →
          NoSession (t.thread i) t.shared t'.shared) := by
  have hSound : Sound env t := Sound.run hEnv hInit.sound hFair hRun
  refine ⟨hSound.1.ticket_once hEnv, fun e he => hSound.1.issued_of_exchange he,
    fun i a t' hStep => ?_⟩
  obtain ⟨l, sh, hMove, rfl⟩ := Lib.Interleaving.step_eq_some.mp hStep
  simp only [Function.update_self]
  refine ⟨fun hCalled => shared_of_called hCalled hMove, fun now c p hClock hUnfinished hPending hCurrent =>
    usable_of_move hClock hMove hUnfinished hPending hCurrent, fun hExchange hRefused => ?_⟩
  subst hRefused
  exact noSession_of_refused hExchange hMove

/-! ## A launch and two redemptions -/

theorem countable_ticketV2 : Countable WorkbenchTicketV2 := by
  have hChar : Countable Char := Function.Injective.countable (f := Char.toNat)
    fun _ _ h => Char.ext (UInt32.toNat_inj.mp h)
  have hString : Countable String :=
    Function.Injective.countable (f := String.toList) fun _ _ => String.toList_inj.mp
  exact Function.Injective.countable (f := fun p : WorkbenchTicketV2 =>
    (p.version, p.capabilityId, p.instanceId, p.projectId, p.workspaceKey, p.capabilities, p.issuedAt,
      p.expiresAt, p.entryMode == .published, p.projectInstanceId, p.canonicalOrigin)) (by
    rintro ⟨⟨⟩, m, _, _⟩ ⟨⟨⟩, m', _, _⟩ h
    cases m <;> cases m' <;> simp_all)

noncomputable def ticketNumber : WorkbenchTicketV2 → Nat :=
  (countable_ticketV2.exists_injective_nat).choose

theorem ticketNumber_injective : Function.Injective ticketNumber :=
  (countable_ticketV2.exists_injective_nat).choose_spec

theorem partialInv_ticketNumber (p : WorkbenchTicketV2) :
    Function.partialInv ticketNumber (ticketNumber p) = some p :=
  Function.partialInv_left ticketNumber_injective p

def sampleTicket : WorkbenchTicketV1 where
  version := 1
  capabilityId := "c"
  instanceId := "i"
  projectId := "p"
  workspaceKey := "k"
  capabilities := launchCapabilities (.direct "o")
  issuedAt := 0
  expiresAt := 3600

/-- A serialization that is short on the sample and numbers every other payload. -/
noncomputable def sampleEnv : Env where
  projectId := "p"
  instanceId := "i"
  deterministicWorkspaceKey _ _ := "k"
  sessionCredentialDigest secret := secret
  mac _ b := 0 :: b
  encode b := String.ofList (b.map fun u => Char.ofNat u.toNat)
  decode s :=
    if s.toList.all fun c => c.toNat < 256 then some (s.toList.map fun c => UInt8.ofNat c.toNat)
    else none
  toVecV1 p :=
    if p = sampleTicket then [1]
    else 3 :: List.replicate (ticketNumber ⟨p, .published, "", ""⟩) 0
  toVecV2 p := 2 :: List.replicate (ticketNumber p) 0
  fromSliceV1
    | [1] => some sampleTicket
    | 2 :: b | 3 :: b => (Function.partialInv ticketNumber b.length).map (·.toWorkbenchTicketV1)
    | _ => none
  fromSliceV2
    | 2 :: b => Function.partialInv ticketNumber b.length
    | _ => none

theorem sampleEnv_lawful : sampleEnv.Lawful := by
  constructor
  case decode_encode =>
    intro b
    have hByte : ∀ u : UInt8, (Char.ofNat u.toNat).toNat = u.toNat := fun u => by
      have hLt := u.toNat_lt
      have hValid : u.toNat.isValidChar := .inl (by omega)
      exact Lib.Text.toNat_ofNat hValid
    have hLt : ∀ u ∈ b, u.toNat < 256 := fun u _ => u.toNat_lt
    simpa [sampleEnv, hByte, Function.comp_def] using hLt
  case encode_of_decode =>
    intro s b h
    simp only [sampleEnv] at h ⊢
    split at h
    · next hAll =>
      cases h
      rw [← String.toList_inj, String.toList_ofList, List.map_map]
      refine (List.map_congr_left fun c hc => ?_).trans (List.map_id _)
      have hLt : c.toNat < 256 := by simpa using List.all_eq_true.mp hAll c hc
      simp [Nat.mod_eq_of_lt hLt]
    · cases h
  case fromSliceV1_toVecV1 =>
    intro p
    by_cases hp : p = sampleTicket
    · simp [sampleEnv, hp]
    · simp [sampleEnv, hp, partialInv_ticketNumber]
  case fromSliceV2_toVecV2 =>
    intro p
    simp [sampleEnv, partialInv_ticketNumber]
  case fromSliceV1_toVecV2 =>
    intro p
    simp [sampleEnv, partialInv_ticketNumber]
  case fromSliceV2_toVecV1 =>
    intro p
    by_cases hp : p = sampleTicket
    · simp [sampleEnv, hp]
    · simp [sampleEnv, hp]
  case mac_collisionFree =>
    intro k b k' b' h
    exact (List.cons.inj h).2

def emptyAuthorizations : Authorizations := ⟨∅, ∅, ∅⟩

def freshHost : System Bool where
  shared :=
    { inner :=
        { state :=
            { toAuthorizations := emptyAuthorizations
              host := none
              originBindings := ∅
              workspacesByRoot := ∅
              workspacesByKey := ∅
              workspaceRegistrationGenerations := ∅
              nextWorkspaceRegistrationGeneration := 0
              pendingCapabilities := ∅
              launchReplays := ∅
              sessions := ∅ }
          store := emptyAuthorizations
          hostGeneration := 0 }
      gate := none
      signed := []
      issued := []
      exchanges := [] }
  thread _ := .done .finished

theorem freshHost_initial : Initial freshHost := ⟨rfl, rfl, rfl, rfl, rfl, fun _ => rfl⟩

noncomputable def sampleSteps : List (Bool × Action) :=
  [(false, .call .launch), (false, .register "/w" ⟨none, none, none⟩ 0), (false, .acquire),
    (false, .prepare "o" []), (false, .ensureStarted), (false, .resolve (.direct "o")),
    (false, .reconcile none 0 .done), (false, .releaseBindings), (false, .sign "c" 0),
    (false, .issue),
    (false, .call (.redeemTicket (sampleEnv.signTicketV1 [] sampleTicket))),
    (true, .call (.redeemTicket (sampleEnv.signTicketV1 [] sampleTicket))),
    (false, .verify 1 1 none), (true, .verify 1 1 none), (true, .acquire),
    (true, .lookup true (some ⟨"s", "t"⟩)), (true, .persist .done), (true, .finish),
    (false, .acquire), (false, .lookup true (some ⟨"s2", "t2"⟩))]

theorem sampleTicket_unforged {sh : Shared Bool} {r : SignedTicket} (hr : r ∈ sh.signed)
    (hPayload : r.payload = [1]) :
    Unforged sampleEnv sh (sampleEnv.signTicketV1 [] sampleTicket) := by
  intro version payload signature hDecode _
  have hEq : some (1, [1], [0, 1]) = some (version, payload, signature) := hDecode
  cases hEq
  exact ⟨r, hr, by rw [hPayload]; rfl⟩

theorem sampleSteps_fair :
    Lib.Along (systemStep sampleEnv) (Fair sampleEnv) freshHost sampleSteps := by
  have hQuiet : ∀ {s : System Bool} {a : Bool × Action}, (s.thread a.1).called = none →
      (∀ c issuedAt, a.2 ≠ .sign c issuedAt) → Fair sampleEnv s a := fun hCalled hSign =>
    ⟨fun _ h => absurd (hCalled.symm.trans h) (Option.some_ne_none _).symm,
      fun c issuedAt h => (hSign c issuedAt h).elim⟩
  iterate 8 (refine ⟨hQuiet rfl (by rintro _ _ ⟨⟩), fun s hs => ?_⟩; cases hs)
  refine ⟨⟨by rintro _ ⟨⟩, fun _ _ _ r h => absurd h List.not_mem_nil⟩, fun s hs => ?_⟩; cases hs
  iterate 3 (refine ⟨hQuiet rfl (by rintro _ _ ⟨⟩), fun s hs => ?_⟩; cases hs)
  iterate 2
    refine ⟨⟨fun ticket h => by cases h; exact sampleTicket_unforged List.mem_cons_self rfl,
      by rintro _ _ ⟨⟩⟩, fun s hs => ?_⟩
    cases hs
  iterate 6 (refine ⟨hQuiet rfl (by rintro _ _ ⟨⟩), fun s hs => ?_⟩; cases hs)
  trivial

/-- A launch at the loopback origin: two threads verify the ticket, and one of them redeems it. -/
theorem launch_ticket_used_once_redeemed :
    ∃ t, Lib.run (systemStep sampleEnv) freshHost sampleSteps = some t ∧
      t.shared.exchanges.length = 1 ∧ t.thread true = .done .exchanged ∧
      t.thread false = .done .refused ∧
      ∀ ticket, (t.shared.exchanges.filter fun e => e.ticket = ticket).length ≤ 1 :=
  ⟨_, rfl, rfl, rfl, rfl,
    (launch_ticket_used_once sampleEnv_lawful freshHost_initial sampleSteps_fair rfl).1⟩

end Exosuit.Workbench
