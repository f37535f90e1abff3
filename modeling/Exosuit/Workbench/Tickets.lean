import Exosuit.Workbench.State

/-!
# Signed tickets

A ticket is its dot-separated parts: the envelope version, the encoded payload
and the encoded MAC of the payload. The hash, the MAC, base64 and serde_json
are parameters.
-/

namespace Exosuit.Workbench

structure WorkbenchTicketV1 where
  version : Nat
  capabilityId : String
  instanceId : String
  projectId : String
  workspaceKey : String
  capabilities : List String
  issuedAt : Nat
  expiresAt : Nat
deriving DecidableEq, Repr

structure WorkbenchTicketV2 extends WorkbenchTicketV1 where
  entryMode : WorkbenchLaunchMode
  projectInstanceId : String
  canonicalOrigin : String
deriving DecidableEq, Repr

structure VerifiedWorkbenchTicket where
  capabilityId : String
  projectId : String
  workspaceKey : String
  entry : WorkbenchEntryBinding
  capabilities : List String
  expiresAt : Nat
deriving DecidableEq

inductive TicketExchangeError
  | invalid
  | busy
  | unavailable
deriving DecidableEq, Repr

abbrev Bytes := List UInt8

abbrev Ticket := List String

/-- What the host manager is built from: its identity, hashes, the MAC and codecs. -/
structure Env where
  projectId : String
  instanceId : String
  deterministicWorkspaceKey : String → String → String
  sessionCredentialDigest : String → String
  mac : Bytes → Bytes → Bytes
  encode : Bytes → String
  decode : String → Option Bytes
  toVecV1 : WorkbenchTicketV1 → Bytes
  toVecV2 : WorkbenchTicketV2 → Bytes
  fromSliceV1 : Bytes → Option WorkbenchTicketV1
  fromSliceV2 : Bytes → Option WorkbenchTicketV2

namespace Env

/-- What the host relies on: strict base64, serde_json reading fields by name, and a MAC
without collisions. -/
structure Lawful (env : Env) : Prop where
  decode_encode : ∀ b, env.decode (env.encode b) = some b
  encode_of_decode : ∀ s b, env.decode s = some b → env.encode b = s
  fromSliceV1_toVecV1 : ∀ p, env.fromSliceV1 (env.toVecV1 p) = some p
  fromSliceV2_toVecV2 : ∀ p, env.fromSliceV2 (env.toVecV2 p) = some p
  fromSliceV1_toVecV2 : ∀ p, env.fromSliceV1 (env.toVecV2 p) = some p.toWorkbenchTicketV1
  fromSliceV2_toVecV1 : ∀ p, env.fromSliceV2 (env.toVecV1 p) = none
  mac_collisionFree : ∀ k b k' b', env.mac k b = env.mac k' b' → b = b'

variable (env : Env)

def signTicketV1 (secret : Bytes) (payload : WorkbenchTicketV1) : Ticket :=
  ["v1", env.encode (env.toVecV1 payload), env.encode (env.mac secret (env.toVecV1 payload))]

def signTicketV2 (secret : Bytes) (payload : WorkbenchTicketV2) : Ticket :=
  ["v2", env.encode (env.toVecV2 payload), env.encode (env.mac secret (env.toVecV2 payload))]

def payloadInvalid (payload : WorkbenchTicketV1) (version now : Nat) : Bool :=
  payload.version != version || payload.instanceId != env.instanceId ||
    payload.projectId != env.projectId || decide (payload.expiresAt ≤ now) ||
    decide (now < payload.issuedAt)

def verifyPayloadV1 (payloadBytes : Bytes) (directOrigin : String) (now : Nat) :
    Except TicketExchangeError VerifiedWorkbenchTicket :=
  match env.fromSliceV1 payloadBytes with
  | none => .error .invalid
  | some payload =>
    if env.payloadInvalid payload 1 now then .error .invalid
    else .ok
      { capabilityId := payload.capabilityId
        projectId := payload.projectId
        workspaceKey := payload.workspaceKey
        entry := .direct directOrigin
        capabilities := payload.capabilities
        expiresAt := payload.expiresAt }

def verifyPayloadV2 (payloadBytes : Bytes) (now : Nat) :
    Except TicketExchangeError VerifiedWorkbenchTicket :=
  match env.fromSliceV2 payloadBytes with
  | none => .error .invalid
  | some payload =>
    if env.payloadInvalid payload.toWorkbenchTicketV1 2 now || payload.entryMode != .published then
      .error .invalid
    else match WorkbenchEntryBinding.published payload.canonicalOrigin payload.projectInstanceId
        payload.workspaceKey with
      | none => .error .invalid
      | some entry => .ok
        { capabilityId := payload.capabilityId
          projectId := payload.projectId
          workspaceKey := payload.workspaceKey
          entry := entry
          capabilities := payload.capabilities
          expiresAt := payload.expiresAt }

def decodeTicket : Ticket → Option (Nat × Bytes × Bytes)
  | [version, payloadPart, signaturePart] =>
    let envelopeVersion := if version = "v1" then some 1 else if version = "v2" then some 2 else none
    envelopeVersion.bind fun envelopeVersion =>
      (env.decode payloadPart).bind fun payloadBytes =>
        (env.decode signaturePart).map fun signature => (envelopeVersion, payloadBytes, signature)
  | _ => none

def verifyTicket (host : Option BoundHost) (ticket : Ticket) (now : Nat) :
    Except TicketExchangeError VerifiedWorkbenchTicket :=
  match env.decodeTicket ticket with
  | none => .error .invalid
  | some (envelopeVersion, payloadBytes, signature) =>
    match host with
    | none => .error .invalid
    | some host =>
      if env.mac host.secret payloadBytes ≠ signature then .error .invalid
      else if envelopeVersion = 1 then env.verifyPayloadV1 payloadBytes host.origin now
      else env.verifyPayloadV2 payloadBytes now

end Env

end Exosuit.Workbench
