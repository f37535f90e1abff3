import Exosuit.Daemon.Protocol
import Exosuit.Lib.JsonText

/-!
# Confirmation tickets

The ticket of an exec call in a workspace, the reader that recovers the request id it carries, and
the confirmation of a machine request.
-/

namespace Exosuit.Command

open Lib
open Daemon (Auth)

inductive Address
  | root
  | namespace_ (path : List String)
  | operation (path : List String)
deriving DecidableEq

def Address.toJson : Address → Json
  | root => .object [("kind", .string "root")]
  | namespace_ path => .object [("kind", .string "namespace"), ("path", .array (path.map .string))]
  | operation path => .object [("kind", .string "operation"), ("path", .array (path.map .string))]

/-- What a ticket is for; the root is the text of the path. -/
structure ExecCall where
  address : Address
  input : JsonText.Value
  workspaceRoot : String

/-- The payload that is hashed; an object is written in the order of its keys. -/
def ExecCall.payload (call : ExecCall) (requestId : String) : Json :=
  .object [("address", call.address.toJson), ("input", call.input.json),
    ("request_id", .string requestId), ("workspace_root", .string call.workspaceRoot)]

def ExecCall.payloadText (call : ExecCall) (requestId : String) : String :=
  JsonText.toText (call.payload requestId)

def isAsciiHexdigit (c : Char) : Bool := (JsonText.hexValue c).isSome

/-- A hash whose digests are shown as 64 hexadecimal digits. -/
structure Digest where
  hash : String → String
  byteSize_hash : ∀ text, (hash text).utf8ByteSize = 64
  isHex_hash : ∀ text, (hash text).toList.all isAsciiHexdigit = true

instance : Inhabited Digest where
  default := ⟨fun _ => String.ofList (List.replicate 64 '0'), fun _ => by decide, fun _ => by decide⟩

theorem Digest.colon_not_mem (d : Digest) (text : String) : ':' ∉ (d.hash text).toList := fun hMem =>
  absurd (List.all_eq_true.mp (d.isHex_hash text) _ hMem) (by decide)

variable (d : Digest)

/-- Two texts that the hash does not tell apart. -/
def Digest.Collides (text text' : String) : Prop := text ≠ text' ∧ d.hash text = d.hash text'

def ticketForExecCall (call : ExecCall) (requestId : String) : String :=
  "exo-v2:" ++ (String.ofList (JsonText.quote requestId.toList) ++ ":blake3:" ++
    d.hash (call.payloadText requestId))

def compatibleExecTicketRequestId (call : ExecCall) (ticket : String) : Option String := do
  let encoded ← Text.stripPrefix "exo-v2:" ticket
  let (encodedRequestId, digest) ← Text.rsplitOnce ":blake3:" encoded
  if digest.utf8ByteSize ≠ 64 ∨ digest.toList.all isAsciiHexdigit = false then none
  else do
    let requestId ← JsonText.readString encodedRequestId.toList
    if ticketForExecCall d call requestId = ticket then some requestId else none

/-! ## The confirmation of a request -/

inductive ConfirmResult
  | proceed
  | needConfirm (ticket : String)
  | denied (reason : String)
deriving DecidableEq

def generateExecTicket (action : String) : String := "blake3:" ++ d.hash action

def pathComponents (path : String) : List String :=
  match Text.split "/" path with
  | [] => []
  | first :: rest =>
    (if Text.startsWith path "/" then ["/"] else if first = "" then [] else [first]) ++
      rest.filter fun part => part ≠ "" && part ≠ "."

/-- `canonicalize` resolves a path on the file system. -/
def workspaceRootsMatch (canonicalize : String → Option String) (first second : String) : Bool :=
  if pathComponents first = pathComponents second then true
  else
    match canonicalize first, canonicalize second with
    | some first, some second => pathComponents first = pathComponents second
    | _, _ => false

structure MachineChannelTransport where
  workspaceRoot : String
  requestId : String
  auth : Option Auth
  expectedTicket : Option String

def MachineChannelTransport.confirmExec (canonicalize : String → Option String)
    (transport : MachineChannelTransport) (action : String) : ConfirmResult :=
  let ticket := transport.expectedTicket.getD (generateExecTicket d action)
  match transport.auth with
  | none => .needConfirm ticket
  | some auth =>
    if auth.confirm then
      let requestMatches := auth.requestId.all (· == transport.requestId)
      let workspaceMatches := auth.workspaceRoot.all fun root =>
        workspaceRootsMatch canonicalize root transport.workspaceRoot
      if auth.ticket = ticket ∧ requestMatches ∧ workspaceMatches then .proceed
      else .denied "Invalid confirmation ticket"
    else .needConfirm ticket

/-- The request id that a ticket carries, for a confirmation that names none itself. -/
def ticketRequestId (call : ExecCall) (auth : Option Auth) : Option String := do
  let auth ← auth.filter fun auth => auth.confirm && auth.requestId.isNone
  compatibleExecTicketRequestId d call auth.ticket

def callTransport (call : ExecCall) (id : String) (auth : Option Auth) : MachineChannelTransport where
  workspaceRoot := call.workspaceRoot
  requestId := id
  auth := auth
  expectedTicket := some (ticketForExecCall d call ((ticketRequestId d call auth).getD id))

/-! ## What a ticket binds -/

theorem Address.toJson_inj {a b : Address} (h : a.toJson = b.toJson) : a = b := by
  have hPaths (p q : List String) (hEq : p.map Json.string = q.map Json.string) : p = q :=
    List.map_injective_iff.mpr (fun _ _ hEq => Json.string.inj hEq) hEq
  cases a with
  | root => cases b <;> simp_all [toJson]
  | namespace_ p =>
    cases b with
    | namespace_ q => rw [hPaths p q (by simpa [toJson] using h)]
    | root | operation => simp [toJson] at h
  | operation p =>
    cases b with
    | operation q => rw [hPaths p q (by simpa [toJson] using h)]
    | root | namespace_ => simp [toJson] at h

theorem wellFormedItems_strings (texts : List String) :
    JsonText.wellFormedItems (texts.map .string) = true := by
  induction texts with
  | nil => rfl
  | cons text texts ih => rw [List.map_cons, JsonText.wellFormedItems, ih]; rfl

theorem Address.wellFormed_toJson (a : Address) : JsonText.wellFormed a.toJson = true := by
  cases a with
  | root => rfl
  | _ path =>
    simp [toJson, JsonText.wellFormed, JsonText.wellFormedFields, wellFormedItems_strings]

theorem ExecCall.wellFormed_payload (call : ExecCall) (requestId : String) :
    JsonText.wellFormed (call.payload requestId) = true := by
  simp [payload, JsonText.wellFormed, JsonText.wellFormedFields, call.address.wellFormed_toJson,
    call.input.wellFormed]

theorem ExecCall.payloadText_inj {call call' : ExecCall} {requestId requestId' : String}
    (h : call'.payloadText requestId' = call.payloadText requestId) :
    call' = call ∧ requestId' = requestId := by
  have hValue : (⟨_, call'.wellFormed_payload requestId'⟩ : JsonText.Value) =
      ⟨_, call.wellFormed_payload requestId⟩ := JsonText.toText_inj h
  have hPayload := congrArg JsonText.Value.json hValue
  simp only [payload, Json.object.injEq, List.cons.injEq, Prod.mk.injEq, Json.string.injEq, true_and,
    and_true] at hPayload
  obtain ⟨hAddress, hInput, hId, hRoot⟩ := hPayload
  obtain ⟨address, ⟨json, hWf⟩, root⟩ := call
  obtain ⟨address', ⟨json', hWf'⟩, root'⟩ := call'
  cases Address.toJson_inj hAddress
  cases hInput
  cases hRoot
  exact ⟨rfl, hId⟩

theorem stripPrefix_ticket (call : ExecCall) (requestId : String) :
    Text.stripPrefix "exo-v2:" (ticketForExecCall d call requestId) =
      some (String.ofList (JsonText.quote requestId.toList) ++ ":blake3:" ++
        d.hash (call.payloadText requestId)) :=
  Text.stripPrefix_append _ _

/-- The last separator is the writer's, whatever the request id contains. -/
theorem rsplitOnce_ticket (encoded text : String) :
    Text.rsplitOnce ":blake3:" (encoded ++ ":blake3:" ++ d.hash text) = some (encoded, d.hash text) := by
  have hLast : ":blake3:".toList.getLast? = some ':' := by simp
  have hSplit : Text.rsplitOnce (String.ofList ":blake3:".toList)
      (encoded ++ String.ofList ":blake3:".toList ++ d.hash text) = some (encoded, d.hash text) :=
    Text.rsplitOnce_append hLast (d.colon_not_mem text)
  rwa [String.ofList_toList] at hSplit

theorem compatibleExecTicketRequestId_ticket (call : ExecCall) (requestId : String) :
    compatibleExecTicketRequestId d call (ticketForExecCall d call requestId) = some requestId := by
  unfold compatibleExecTicketRequestId
  simp only [stripPrefix_ticket, rsplitOnce_ticket, Option.bind_eq_bind, Option.bind_some,
    d.byteSize_hash, d.isHex_hash, String.toList_ofList, JsonText.readString_quote]
  simp

theorem eq_ticket_of_compatible {call : ExecCall} {ticket requestId : String}
    (h : compatibleExecTicketRequestId d call ticket = some requestId) :
    ticketForExecCall d call requestId = ticket := by
  unfold compatibleExecTicketRequestId at h
  simp only [Option.bind_eq_bind, Option.bind_eq_some_iff] at h
  obtain ⟨encoded, -, ⟨quoted, digest⟩, -, h⟩ := h
  split at h
  · exact nomatch h
  · obtain ⟨id, -, h⟩ := Option.bind_eq_some_iff.mp h
    split at h
    case isTrue hTicket =>
      cases h
      exact hTicket
    case isFalse => exact nomatch h

/-- The ticket was made for one call and request id only, unless the hash confuses two payloads. -/
def MadeOnlyFor (ticket : String) (call : ExecCall) (requestId : String) : Prop :=
  ∀ call' requestId', ticketForExecCall d call' requestId' = ticket →
    (call' = call ∧ requestId' = requestId) ∨
      d.Collides (call'.payloadText requestId') (call.payloadText requestId)

theorem ticket_madeOnlyFor (call : ExecCall) (requestId : String) :
    MadeOnlyFor d (ticketForExecCall d call requestId) call requestId := by
  intro call' requestId' hTicket
  by_cases hText : call'.payloadText requestId' = call.payloadText requestId
  · exact .inl (ExecCall.payloadText_inj hText)
  · refine .inr ⟨hText, ?_⟩
    have hStrip := congrArg (Text.stripPrefix "exo-v2:") hTicket
    rw [stripPrefix_ticket, stripPrefix_ticket, Option.some.injEq] at hStrip
    have hSplit := congrArg (Text.rsplitOnce ":blake3:") hStrip
    rw [rsplitOnce_ticket, rsplitOnce_ticket] at hSplit
    exact (Prod.mk.inj (Option.some.inj hSplit)).2

/-! ## Confirmation -/

variable (canonicalize : String → Option String)

theorem confirmExec_recognised {call : ExecCall} {ticket requestId : String}
    (h : compatibleExecTicketRequestId d call ticket = some requestId) (id action : String) :
    (callTransport d call id (some ⟨ticket, true, none, none⟩)).confirmExec d canonicalize action =
      .proceed := by
  have hRecovered : ticketRequestId d call (some ⟨ticket, true, none, none⟩) = some requestId := h
  simp [MachineChannelTransport.confirmExec, callTransport, hRecovered, eq_ticket_of_compatible d h]

theorem ticket_of_proceed {call : ExecCall} {id action : String} {auth : Option Auth}
    (h : (callTransport d call id auth).confirmExec d canonicalize action = .proceed) :
    ∃ a, auth = some a ∧ a.confirm = true ∧ a.requestId.all (· == id) = true ∧
      a.ticket = ticketForExecCall d call ((ticketRequestId d call auth).getD id) := by
  cases auth with
  | none => exact nomatch h
  | some a =>
    refine ⟨a, rfl, ?_⟩
    unfold MachineChannelTransport.confirmExec callTransport at h
    dsimp only at h
    split at h
    case isTrue hConfirm =>
      split at h
      case isTrue hAll => exact ⟨hConfirm, hAll.2.1, hAll.1⟩
      case isFalse => exact nomatch h
    case isFalse => exact nomatch h

/-- An exec ticket authorises only its own call. -/
theorem exec_ticket_binds_call (call : ExecCall) :
    (∀ requestId,
      compatibleExecTicketRequestId d call (ticketForExecCall d call requestId) = some requestId) ∧
    (∀ ticket requestId, compatibleExecTicketRequestId d call ticket = some requestId →
      (∀ id action, (callTransport d call id (some ⟨ticket, true, none, none⟩)).confirmExec d
        canonicalize action = .proceed) ∧
      ticket = ticketForExecCall d call requestId ∧ MadeOnlyFor d ticket call requestId) ∧
    ∀ id action auth, (callTransport d call id auth).confirmExec d canonicalize action = .proceed →
      ∃ a requestId, auth = some a ∧ a.ticket = ticketForExecCall d call requestId ∧
        MadeOnlyFor d a.ticket call requestId := by
  refine ⟨compatibleExecTicketRequestId_ticket d call, fun ticket requestId hSome => ?_,
    fun id action auth hProceed => ?_⟩
  · have hTicket := eq_ticket_of_compatible d hSome
    exact ⟨confirmExec_recognised d canonicalize hSome, hTicket.symm,
      hTicket ▸ ticket_madeOnlyFor d call requestId⟩
  · obtain ⟨a, hAuth, -, -, hTicket⟩ := ticket_of_proceed d canonicalize hProceed
    exact ⟨a, _, hAuth, hTicket, hTicket ▸ ticket_madeOnlyFor d call _⟩

end Exosuit.Command
