import Exosuit.Workbench.Moves

/-!
# The ledger of tickets

The invariant: a pending capability was issued and never exchanged, an exchange is of an
issued capability that its lookup found current, and whoever carries a verified
ticket carries one that a launch has signed.
-/

namespace Exosuit.Workbench

open Lib (Table)
open WorkbenchHostInner

variable {ι : Type} {env : Env}

/-- Whoever presents the ticket computes no MAC: a signature that is one was the host's own. -/
def Unforged (env : Env) (sh : Shared ι) (ticket : Ticket) : Prop :=
  ∀ version payload signature, env.decodeTicket ticket = some (version, payload, signature) →
    (∃ secret bytes, signature = env.mac secret bytes) →
      ∃ r ∈ sh.signed, signature = env.mac r.secret r.payload

/-- Tickets are not forged and random capability ids are new. -/
def Fair (env : Env) (s : System ι) (a : ι × Action) : Prop :=
  (∀ ticket, (s.thread a.1).called = some ticket → Unforged env s.shared ticket) ∧
    ∀ c issuedAt, a.2 = .sign c issuedAt → ∀ r ∈ s.shared.signed, r.capabilityId ≠ c

def Shared.Signed (sh : Shared ι) (c : String) (ticket : Ticket) : Prop :=
  ∃ r ∈ sh.signed, r.capabilityId = c ∧ r.ticket = ticket

def Shared.Issued (sh : Shared ι) (c : String) (p : PendingCapability) : Prop :=
  ∃ issue ∈ sh.issued, issue.capabilityId = c ∧ issue.pending = p

def Shared.Spent (sh : Shared ι) (c : String) : Prop :=
  ∃ e ∈ sh.exchanges, e.capabilityId = c

structure Redemption.Good (r : Redemption) (sh : Shared ι) : Prop where
  found : r.before.pendingCapabilities.lookup r.payload.capabilityId = some r.pending
  current : pendingCapabilityIssuanceCurrent r.before r.pending r.now = true
  issued : sh.Issued r.payload.capabilityId r.pending
  unspent : ¬ sh.Spent r.payload.capabilityId

structure Exchange.Good (e : Exchange) (sh : Shared ι) : Prop where
  current : pendingCapabilityIssuanceCurrent e.before e.pending e.now = true
  issued : sh.Issued e.capabilityId e.pending
  signed : sh.Signed e.capabilityId e.ticket

structure Ledger (env : Env) (sh : Shared ι) : Prop where
  wellSigned : ∀ r ∈ sh.signed, r.WellSigned env
  signedOnce : (sh.signed.map (·.capabilityId)).Nodup
  issuedSigned : ∀ issue ∈ sh.issued, sh.Signed issue.capabilityId issue.ticket
  issuedOnce : (sh.issued.map (·.capabilityId)).Nodup
  pendingIssued : ∀ c p, sh.pendingAt c = some p → sh.Issued c p ∧ ¬ sh.Spent c
  exchanges : ∀ e ∈ sh.exchanges, e.Good sh
  spentOnce : (sh.exchanges.map (·.capabilityId)).Nodup

structure Standing (i : ι) (l : Local) (sh : Shared ι) : Prop where
  gate : l.holdsGate = true ↔ sh.gate = some i
  presented : ∀ p, l.presented = some p → sh.Signed p.payload.capabilityId p.ticket
  redemption : ∀ r, l.redemption = some r → r.Good sh
  signing : ∀ c ticket, l.signing = some (c, ticket) →
    sh.Signed c ticket ∧ ∀ issue ∈ sh.issued, issue.capabilityId ≠ c

/-! ## Authentic tickets -/

theorem capability_of_payloadV1 {payload : Bytes} {origin : String} {now : Nat}
    {v : VerifiedWorkbenchTicket} (h : env.verifyPayloadV1 payload origin now = .ok v) :
    ∃ p, env.fromSliceV1 payload = some p ∧ p.version = 1 ∧ p.capabilityId = v.capabilityId := by
  unfold Env.verifyPayloadV1 at h
  split at h
  · cases h
  · next p hSlice =>
    split at h
    · cases h
    · next hValid =>
      cases h
      simp only [Env.payloadInvalid, Bool.or_eq_true, not_or] at hValid
      exact ⟨p, hSlice, by simpa using hValid.1.1.1.1, rfl⟩

theorem capability_of_payloadV2 {payload : Bytes} {now : Nat} {v : VerifiedWorkbenchTicket}
    (h : env.verifyPayloadV2 payload now = .ok v) :
    ∃ p, env.fromSliceV2 payload = some p ∧ p.capabilityId = v.capabilityId := by
  unfold Env.verifyPayloadV2 at h
  split at h
  · cases h
  · next p hSlice =>
    split at h
    · cases h
    · split at h
      · cases h
      · cases h; exact ⟨p, hSlice, rfl⟩

theorem verifyTicket_eq_ok {host : Option BoundHost} {ticket : Ticket} {at' : Nat}
    {v : VerifiedWorkbenchTicket} (h : env.verifyTicket host ticket at' = .ok v) :
    ∃ (bound : BoundHost) (version : Nat) (payload signature : Bytes),
      env.decodeTicket ticket = some (version, payload, signature) ∧
        env.mac bound.secret payload = signature ∧
        (if version = 1 then env.verifyPayloadV1 payload bound.origin at'
          else env.verifyPayloadV2 payload at') = .ok v := by
  unfold Env.verifyTicket at h
  split at h
  · cases h
  · next version payload signature hDecode =>
    split at h
    · cases h
    · next bound =>
      split at h
      · cases h
      · next hMac => exact ⟨bound, version, payload, signature, hDecode, not_not.mp hMac, h⟩

theorem decodeTicket_eq_some {ticket : Ticket} {version : Nat} {payload signature : Bytes}
    (h : env.decodeTicket ticket = some (version, payload, signature)) :
    ∃ v payloadPart signaturePart, ticket = [v, payloadPart, signaturePart] ∧
      (v = "v1" ∧ version = 1 ∨ v = "v2" ∧ version = 2) ∧
      env.decode payloadPart = some payload ∧ env.decode signaturePart = some signature := by
  unfold Env.decodeTicket at h
  split at h
  · next v payloadPart signaturePart =>
    simp only [Option.bind_eq_some_iff, Option.map_eq_some_iff] at h
    obtain ⟨ver, hVersion, bytes, hPayload, sig, hSignature, hEq⟩ := h
    cases hEq
    refine ⟨v, payloadPart, signaturePart, rfl, ?_, hPayload, hSignature⟩
    split at hVersion
    · next hv => cases hVersion; exact .inl ⟨hv, rfl⟩
    · split at hVersion
      · next hv => cases hVersion; exact .inr ⟨hv, rfl⟩
      · cases hVersion
  · cases h

theorem signed_of_verifyTicket (hEnv : env.Lawful) {sh : Shared ι} {ticket : Ticket} {at' : Nat}
    {v : VerifiedWorkbenchTicket} (hWell : ∀ r ∈ sh.signed, r.WellSigned env)
    (hUnforged : Unforged env sh ticket) {host : Option BoundHost}
    (h : env.verifyTicket host ticket at' = .ok v) : sh.Signed v.capabilityId ticket := by
  obtain ⟨bound, version, payload, signature, hDecode, hMac, hPayload⟩ := verifyTicket_eq_ok h
  obtain ⟨r, hr, hSignature⟩ := hUnforged _ _ _ hDecode ⟨bound.secret, payload, hMac.symm⟩
  have hBytes : payload = r.payload :=
    hEnv.mac_collisionFree _ _ _ _ (hMac.trans hSignature)
  obtain ⟨name, payloadPart, signaturePart, rfl, hName, hPart, hSigPart⟩ :=
    decodeTicket_eq_some hDecode
  have hPart := hEnv.encode_of_decode _ _ hPart
  have hSigPart := hEnv.encode_of_decode _ _ hSigPart
  obtain ⟨key, entry, issuedAt, hTicket, hSigned⟩ := hWell r hr
  refine ⟨r, hr, ?_⟩
  unfold launchTicket at hTicket
  unfold signedPayload at hSigned
  cases hMode : entry.isPublished with
  | true =>
    simp only [hMode, if_true, Option.map_eq_some_iff] at hTicket
    obtain ⟨instance', hInstance, hTicket⟩ := hTicket
    simp only [hMode, hInstance] at hSigned
    rcases hName with ⟨rfl, rfl⟩ | ⟨rfl, rfl⟩
    · simp only [if_true] at hPayload
      obtain ⟨p, hSlice, hVersion, -⟩ := capability_of_payloadV1 hPayload
      rw [hBytes, hSigned, hEnv.fromSliceV1_toVecV2] at hSlice
      cases hSlice
      simp [launchPayload] at hVersion
    · rw [if_neg (by decide)] at hPayload
      obtain ⟨p, hSlice, hId⟩ := capability_of_payloadV2 hPayload
      rw [hBytes, hSigned, hEnv.fromSliceV2_toVecV2] at hSlice
      cases hSlice
      refine ⟨hId, ?_⟩
      rw [← hTicket, ← hPart, ← hSigPart, hSignature, hBytes, hSigned]
      rfl
  | false =>
    simp only [hMode, Bool.false_eq_true, if_false, Option.some.injEq] at hTicket
    simp only [hMode] at hSigned
    rcases hName with ⟨rfl, rfl⟩ | ⟨rfl, rfl⟩
    · simp only [if_true] at hPayload
      obtain ⟨p, hSlice, -, hId⟩ := capability_of_payloadV1 hPayload
      rw [hBytes, hSigned, hEnv.fromSliceV1_toVecV1] at hSlice
      cases hSlice
      refine ⟨hId, ?_⟩
      rw [← hTicket, ← hPart, ← hSigPart, hSignature, hBytes, hSigned]
      rfl
    · rw [if_neg (by decide)] at hPayload
      obtain ⟨p, hSlice, -⟩ := capability_of_payloadV2 hPayload
      rw [hBytes, hSigned, hEnv.fromSliceV2_toVecV1] at hSlice
      cases hSlice

/-! ## The ledger under one step -/

theorem Shared.Signed.mono {sh sh' : Shared ι} {c : String} {ticket : Ticket}
    (h : sh.Signed c ticket) (hSub : ∀ r ∈ sh.signed, r ∈ sh'.signed) : sh'.Signed c ticket :=
  let ⟨r, hr, hId⟩ := h
  ⟨r, hSub r hr, hId⟩

theorem Shared.Issued.mono {sh sh' : Shared ι} {c : String} {p : PendingCapability}
    (h : sh.Issued c p) (hSub : ∀ r ∈ sh.issued, r ∈ sh'.issued) : sh'.Issued c p :=
  let ⟨r, hr, hId⟩ := h
  ⟨r, hSub r hr, hId⟩

theorem Exchange.Good.mono {sh sh' : Shared ι} {e : Exchange} (h : e.Good sh)
    (hSigned : ∀ r ∈ sh.signed, r ∈ sh'.signed) (hIssued : ∀ r ∈ sh.issued, r ∈ sh'.issued) :
    e.Good sh' :=
  ⟨h.current, h.issued.mono hIssued, h.signed.mono hSigned⟩

theorem Moved.signed_mono {a : Action} {l : Local} {sh sh' : Shared ι}
    (h : Moved env a l sh sh') : ∀ r ∈ sh.signed, r ∈ sh'.signed := by
  cases h with
  | quiet h => rw [h.signed]; exact fun _ => id
  | signed r _ _ _ h => rw [h]; exact fun _ => List.mem_cons_of_mem r
  | issued _ _ _ hSigned => rw [hSigned]; exact fun _ => id
  | exchanged _ _ _ hSigned => rw [hSigned]; exact fun _ => id

theorem Moved.issued_mono {a : Action} {l : Local} {sh sh' : Shared ι}
    (h : Moved env a l sh sh') : ∀ r ∈ sh.issued, r ∈ sh'.issued := by
  cases h with
  | quiet h => rw [h.issued]; exact fun _ => id
  | signed r _ _ _ h => rw [h]; exact fun _ => id
  | issued issue _ _ _ hIssued => rw [hIssued]; exact fun _ => List.mem_cons_of_mem issue
  | exchanged _ _ _ _ hIssued => rw [hIssued]; exact fun _ => id

theorem Ledger.of_match {sh : Shared ι} (hLedger : Ledger env sh) {state : WorkbenchState}
    {payload : VerifiedWorkbenchTicket} {now : Nat} {p : PendingCapability}
    (hState : ∀ c q, state.pendingCapabilities.lookup c = some q → sh.pendingAt c = some q)
    (hCurrent : ∀ q, pendingCapabilityIssuanceCurrent state q now =
      pendingCapabilityIssuanceCurrent sh.inner.state q now)
    (h : matchingPending state payload now = some p) :
    sh.pendingAt payload.capabilityId = some p ∧
      pendingCapabilityIssuanceCurrent sh.inner.state p now = true ∧
      sh.Issued payload.capabilityId p ∧ ¬ sh.Spent payload.capabilityId := by
  obtain ⟨hLookup, -, -, -, hNow⟩ := matchingPending_eq_some h
  have hPending := hState _ _ hLookup
  exact ⟨hPending, hCurrent p ▸ hNow, hLedger.pendingIssued _ _ hPending⟩

theorem Moved.exchange_good {i : ι} {l : Local} {sh : Shared ι} (hLedger : Ledger env sh)
    (hOwn : Standing i l sh) {e : Exchange}
    (hFound : (∃ r, l = .redeemPersisted r ∧
        e = ⟨r.ticket, r.payload.capabilityId, r.now, r.before, r.pending⟩) ∨
      ∃ p presentedPairing tokens, l = .enrollGated p presentedPairing tokens ∧
        matchingPending (enrollPruned sh.inner.state p.now) p.payload p.now = some e.pending ∧
        e = ⟨p.ticket, p.payload.capabilityId, p.now, sh.inner.state, e.pending⟩) :
    e.Good sh ∧ ¬ sh.Spent e.capabilityId ∧ l.holdsGate = true := by
  rcases hFound with ⟨r, rfl, rfl⟩ | ⟨p, presentedPairing, tokens, rfl, hMatch, hEq⟩
  · have hGood := hOwn.redemption r rfl
    exact ⟨⟨hGood.current, hGood.issued, hOwn.presented _ rfl⟩, hGood.unspent, rfl⟩
  · obtain ⟨-, hCurrent, hIssued, hUnspent⟩ := hLedger.of_match
      (fun c q hq => (lookup_retainLivePendingCapabilities.mp hq).1) (fun _ => rfl) hMatch
    rw [hEq]
    exact ⟨⟨hCurrent, hIssued, hOwn.presented _ rfl⟩, hUnspent, rfl⟩

theorem Ledger.step {i : ι} {a : Action} {l : Local} {sh sh' : Shared ι} (h : Ledger env sh)
    (hOwn : Standing i l sh) (hMove : Moved env a l sh sh')
    (hFresh : ∀ c issuedAt, a = .sign c issuedAt → ∀ r ∈ sh.signed, r.capabilityId ≠ c) :
    Ledger env sh' := by
  have hSignedMono := hMove.signed_mono
  have hIssuedMono := hMove.issued_mono
  cases hMove with
  | quiet hQuiet =>
    have hSpent : ∀ c, sh'.Spent c ↔ sh.Spent c := fun c => by
      rw [Shared.Spent, Shared.Spent, hQuiet.exchanges]
    constructor
    case wellSigned => rw [hQuiet.signed]; exact h.wellSigned
    case signedOnce => rw [hQuiet.signed]; exact h.signedOnce
    case issuedSigned =>
      rw [hQuiet.issued]
      exact fun issue hIssue => (h.issuedSigned issue hIssue).mono hSignedMono
    case issuedOnce => rw [hQuiet.issued]; exact h.issuedOnce
    case pendingIssued =>
      intro c p hp
      obtain ⟨hIssued, hUnspent⟩ := h.pendingIssued c p (hQuiet.pending c p hp)
      exact ⟨hIssued.mono hIssuedMono, fun hs => hUnspent ((hSpent c).mp hs)⟩
    case exchanges =>
      rw [hQuiet.exchanges]
      exact fun e he => (h.exchanges e he).mono hSignedMono hIssuedMono
    case spentOnce => rw [hQuiet.exchanges]; exact h.spentOnce
  | signed r issuedAt hAction hWell hShared =>
    subst hShared
    constructor
    case wellSigned => exact List.forall_mem_cons.mpr ⟨hWell, h.wellSigned⟩
    case signedOnce =>
      refine List.nodup_cons.mpr ⟨fun hMem => ?_, h.signedOnce⟩
      obtain ⟨r', hr', hEq⟩ := List.mem_map.mp hMem
      exact hFresh r.capabilityId issuedAt hAction r' hr' hEq
    case issuedSigned => exact fun issue hIssue => (h.issuedSigned issue hIssue).mono hSignedMono
    case issuedOnce => exact h.issuedOnce
    case pendingIssued => exact h.pendingIssued
    case exchanges => exact fun e he => (h.exchanges e he).mono hSignedMono hIssuedMono
    case spentOnce => exact h.spentOnce
  | issued issue hSigning hPending hSigned hIssued hExchanges =>
    obtain ⟨hTicket, hNew⟩ := hOwn.signing _ _ hSigning
    constructor
    case wellSigned => rw [hSigned]; exact h.wellSigned
    case signedOnce => rw [hSigned]; exact h.signedOnce
    case issuedSigned =>
      rw [hIssued]
      exact List.forall_mem_cons.mpr ⟨hTicket.mono hSignedMono, fun issue hIssue =>
        (h.issuedSigned issue hIssue).mono hSignedMono⟩
    case issuedOnce =>
      rw [hIssued]
      refine List.nodup_cons.mpr ⟨fun hMem => ?_, h.issuedOnce⟩
      obtain ⟨issue', hIssue', hEq⟩ := List.mem_map.mp hMem
      exact hNew issue' hIssue' hEq
    case pendingIssued =>
      intro c p hp
      rcases hPending c p hp with ⟨rfl, rfl⟩ | hOld
      · refine ⟨⟨issue, hIssued ▸ List.mem_cons_self, rfl, rfl⟩, fun ⟨e, he, hEq⟩ => ?_⟩
        -- an exchange of the new capability would have been of an issued one
        rw [hExchanges] at he
        obtain ⟨issue', hIssue', hId, -⟩ := (h.exchanges e he).issued
        exact hNew issue' hIssue' (hId.trans hEq)
      · obtain ⟨hOldIssued, hUnspent⟩ := h.pendingIssued c p hOld
        exact ⟨hOldIssued.mono hIssuedMono, fun ⟨e, he, hEq⟩ =>
          hUnspent ⟨e, hExchanges ▸ he, hEq⟩⟩
    case exchanges =>
      rw [hExchanges]
      exact fun e he => (h.exchanges e he).mono hSignedMono hIssuedMono
    case spentOnce => rw [hExchanges]; exact h.spentOnce
  | exchanged e hFound hPending hSigned hIssued hExchanges =>
    obtain ⟨hGood, hUnspent, -⟩ := Moved.exchange_good h hOwn hFound
    constructor
    case wellSigned => rw [hSigned]; exact h.wellSigned
    case signedOnce => rw [hSigned]; exact h.signedOnce
    case issuedSigned =>
      rw [hIssued]
      exact fun issue hIssue => (h.issuedSigned issue hIssue).mono hSignedMono
    case issuedOnce => rw [hIssued]; exact h.issuedOnce
    case pendingIssued =>
      intro c p hp
      obtain ⟨hne, hOld⟩ := hPending c p hp
      obtain ⟨hOldIssued, hOldUnspent⟩ := h.pendingIssued c p hOld
      refine ⟨hOldIssued.mono hIssuedMono, fun ⟨e', he', hEq⟩ => ?_⟩
      rw [hExchanges, List.mem_append, List.mem_singleton] at he'
      rcases he' with he' | rfl
      · exact hOldUnspent ⟨e', he', hEq⟩
      · exact hne hEq.symm
    case exchanges =>
      rw [hExchanges]
      intro e' he'
      rw [List.mem_append, List.mem_singleton] at he'
      rcases he' with he' | rfl
      · exact (h.exchanges e' he').mono hSignedMono hIssuedMono
      · exact hGood.mono hSignedMono hIssuedMono
    case spentOnce =>
      rw [hExchanges, List.map_append, List.map_singleton, ← List.concat_eq_append, List.nodup_concat]
      refine ⟨fun hMem => ?_, h.spentOnce⟩
      obtain ⟨e', he', hEq⟩ := List.mem_map.mp hMem
      exact hUnspent ⟨e', he', hEq⟩

/-! ## The threads under one step -/

theorem holdsGate_of_redemption {l : Local} {r : Redemption} (h : l.redemption = some r) :
    l.holdsGate = true := by
  cases l <;> first | rfl | cases h

theorem holdsGate_of_signing {l : Local} {x : String × Ticket} (h : l.signing = some x) :
    l.holdsGate = true := by
  cases l <;> first | rfl | cases h

theorem Standing.own {i : ι} {a : Action} {l l' : Local} {sh sh' : Shared ι} (hEnv : env.Lawful)
    (hLedger : Ledger env sh) (hOwn : Standing i l sh)
    (hUnforged : ∀ ticket, l.called = some ticket → Unforged env sh ticket)
    (hFresh : ∀ c issuedAt, a = .sign c issuedAt → ∀ r ∈ sh.signed, r.capabilityId ≠ c)
    (h : move env i a l sh = some (l', sh')) : Standing i l' sh' := by
  have hMoved := move_moved h
  have hGate : l'.holdsGate = true ↔ sh'.gate = some i := by
    cases move_gate h with
    | keep hLocal hGate => rw [hLocal, hGate]; exact hOwn.gate
    | acquire _ hLocal hGate => simp [hLocal, hGate]
    | release _ hLocal hGate => simp [hLocal, hGate]
  cases move_carried h with
  | nothing hPresented hRedemption hSigning =>
    exact ⟨hGate, by simp [hPresented], by simp [hRedemption], by simp [hSigning]⟩
  | same hPresented hRedemption hSigning hExchanges =>
    refine ⟨hGate, fun p hp => ?_, fun r hr => ?_, by simp [hSigning]⟩
    · exact (hOwn.presented p (hPresented ▸ hp)).mono hMoved.signed_mono
    · have hGood := hOwn.redemption r (hRedemption ▸ hr)
      exact ⟨hGood.found, hGood.current, hGood.issued.mono hMoved.issued_mono,
        fun ⟨e, he, hEq⟩ => hGood.unspent ⟨e, hExchanges ▸ he, hEq⟩⟩
  | verified p hCalled verifiedAt hVerify hPresented hRedemption hSigning =>
    refine ⟨hGate, fun q hq => ?_, by simp [hRedemption], by simp [hSigning]⟩
    cases hPresented.symm.trans hq
    exact (signed_of_verifyTicket hEnv hLedger.wellSigned (hUnforged _ hCalled) hVerify).mono
      hMoved.signed_mono
  | inserted r hGated hBefore hMatch hLocal hExchanges =>
    obtain ⟨hFound, hCurrent, hIssued, hUnspent⟩ := hLedger.of_match
      (fun c q hq => (lookup_retainLivePendingCapabilities.mp hq).1) (fun _ => rfl) hMatch
    subst hLocal hGated
    refine ⟨hGate, fun p hp => ?_, fun r' hr' => ?_, fun c ticket hs => nomatch hs⟩
    · cases hp
      exact (hOwn.presented _ rfl).mono hMoved.signed_mono
    · cases hr'
      exact ⟨hBefore ▸ hFound, hBefore ▸ hCurrent, hIssued.mono hMoved.issued_mono,
        fun ⟨e, he, hEq⟩ => hUnspent ⟨e, hExchanges ▸ he, hEq⟩⟩
  | signed r issuedAt hAction hPresented hRedemption hSigning hShared =>
    refine ⟨hGate, by simp [hPresented], by simp [hRedemption], fun c ticket hs => ?_⟩
    cases hSigning.symm.trans hs
    subst hShared
    refine ⟨⟨r, List.mem_cons_self, rfl, rfl⟩, fun issue hIssue hEq => ?_⟩
    -- an issued capability has been signed before, so its id is not new
    obtain ⟨r', hr', hId, -⟩ := hLedger.issuedSigned issue hIssue
    exact hFresh r.capabilityId issuedAt hAction r' hr' (hId.trans hEq)

theorem Standing.other {i j : ι} {a : Action} {l l' k : Local} {sh sh' : Shared ι} (hij : j ≠ i)
    (hLedger : Ledger env sh) (hOwn : Standing i l sh) (hOther : Standing j k sh)
    (h : move env i a l sh = some (l', sh')) : Standing j k sh' := by
  have hMoved := move_moved h
  have hApart : k.holdsGate = true → l.holdsGate = true → False := fun hk hl =>
    hij (Option.some.inj ((hOther.gate.mp hk).symm.trans (hOwn.gate.mp hl)))
  constructor
  case gate =>
    cases move_gate h with
    | keep _ hGate => rw [hGate]; exact hOther.gate
    | acquire hFree _ hGate =>
      rw [hOther.gate, hFree, hGate]
      simpa using hij.symm
    | release hHeld _ hGate =>
      rw [hOther.gate, hGate, hOwn.gate.mp hHeld]
      simpa using hij.symm
  case presented => exact fun p hp => (hOther.presented p hp).mono hMoved.signed_mono
  case redemption =>
    intro r hr
    have hGood := hOther.redemption r hr
    refine ⟨hGood.found, hGood.current, hGood.issued.mono hMoved.issued_mono, fun hSpent => ?_⟩
    apply hGood.unspent
    cases hMoved with
    | quiet hQuiet => rwa [Shared.Spent, ← hQuiet.exchanges]
    | signed _ _ _ _ hShared => rwa [hShared] at hSpent
    | issued _ _ _ _ _ hExchanges => rwa [Shared.Spent, ← hExchanges]
    | exchanged _ hFound =>
      exact (hApart (holdsGate_of_redemption hr) (Moved.exchange_good hLedger hOwn hFound).2.2).elim
  case signing =>
    intro c ticket hs
    obtain ⟨hTicket, hNew⟩ := hOther.signing c ticket hs
    refine ⟨hTicket.mono hMoved.signed_mono, ?_⟩
    cases hMoved with
    | quiet hQuiet => rwa [hQuiet.issued]
    | signed _ _ _ _ hShared => rwa [hShared]
    | issued _ hSigning => exact (hApart (holdsGate_of_signing hs) (holdsGate_of_signing hSigning)).elim
    | exchanged _ _ _ _ hIssued => rwa [hIssued]

abbrev Sound [DecidableEq ι] (env : Env) (s : System ι) : Prop :=
  Lib.Interleaving.Holds (Ledger env) Standing s

variable [DecidableEq ι]

theorem Sound.step (hEnv : env.Lawful) {s t : System ι} {a : ι × Action} (hs : Sound env s)
    (hFair : Fair env s a) (hStep : systemStep env s a = some t) : Sound env t := by
  refine Lib.Interleaving.holds_step ?_ ?_ hs hStep
  · intro l w hMove
    have hOwn := hs.2 a.1
    exact ⟨hs.1.step hOwn (move_moved hMove) hFair.2,
      hOwn.own hEnv hs.1 hFair.1 hFair.2 hMove⟩
  · intro l w j hj hOther hMove
    exact Standing.other hj hs.1 (hs.2 a.1) hOther hMove

theorem Initial.sound {s : System ι} (h : Initial s) : Sound env s := by
  refine ⟨?_, fun i => ?_⟩
  · constructor
    case pendingIssued => simp [Shared.pendingAt, h.pending]
    all_goals simp [h.signed, h.issued, h.exchanges]
  · rw [h.thread i]
    constructor
    case gate => simp [h.gate, Local.holdsGate]
    all_goals
      intros
      contradiction

theorem Sound.run (hEnv : env.Lawful) {s t : System ι} {as : List (ι × Action)} (hs : Sound env s)
    (hFair : Lib.Along (systemStep env) (Fair env) s as)
    (hRun : Lib.run (systemStep env) s as = some t) : Sound env t :=
  Lib.invariant_of_along (fun _ _ _ hs hFair hStep => hs.step hEnv hFair hStep) hs hFair hRun

end Exosuit.Workbench
