import IsoLightK0.Capability.Model

/-!
# IPC endpoints

`ipc.rs`: messages and the endpoint with its one message slot.  A client posts
a request and polls for the reply, the service takes the request and posts the
reply; request and reply share the slot.
-/

namespace IsoLightK0

open Bytes

def ipcMaxPayload : ℕ := 256

inductive MessageType
  | ping
  | pong
  | connect
  | disconnect
  | encryptReq
  | encryptResp
  | decryptReq
  | decryptResp
  | hashReq
  | hashResp
  | keyDeriveReq
  | keyDeriveResp
  | signReq
  | signResp
  | verifyReq
  | verifyResp
  | dhReq
  | dhResp
  | signBeginReq
  | signBeginResp
  | signInChunkReq
  | signInChunkResp
  | signExecReq
  | signExecResp
  | signOutChunkReq
  | signOutChunkResp
  | signEndReq
  | signEndResp
  | error
  deriving DecidableEq, Repr

structure MessageHeader where
  msgType : MessageType
  payloadLen : BitVec 16
  sequence : BitVec 32
  deriving DecidableEq

structure IpcMessage where
  header : MessageHeader
  payload : Buf ipcMaxPayload

inductive IpcError
  | capabilityDenied
  | endpointBusy
  | endpointNotFound
  | payloadTooLarge
  | payloadLenMismatch
  | noMessage
  | endpointsFull
  | invalidMessageType
  deriving DecidableEq, Repr

namespace IpcMessage

def new (msgType : MessageType) (sequence : BitVec 32) : IpcMessage where
  header := ⟨msgType, 0, sequence⟩
  payload := Buf.zero

/-- `set_payload`: the bytes after the data are zeroed. -/
def setPayload (msg : IpcMessage) (data : List Byte) :
    Except IpcError IpcMessage :=
  if ipcMaxPayload < data.length then
    .error .payloadTooLarge
  else
    .ok
      { header := { msg.header with payloadLen := data.length }
        payload := Buf.ofList ipcMaxPayload data }

def withSequence (msg : IpcMessage) (sequence : BitVec 32) : IpcMessage :=
  { msg with header := { msg.header with sequence := sequence } }

theorem setPayload_eq_ok {msg msg' : IpcMessage} {data : List Byte}
    (h : msg.setPayload data = .ok msg') :
    data.length ≤ ipcMaxPayload ∧
      msg'.header.sequence = msg.header.sequence := by
  unfold setPayload at h
  split at h
  · cases h
  case isFalse hlen =>
    rw [← Except.ok.inj h]
    exact ⟨Nat.not_lt.mp hlen, rfl⟩

end IpcMessage

/-! ## The endpoint -/

inductive EndpointState
  | idle
  | pendingReply (msg : IpcMessage)
  | replyReady (msg : IpcMessage)

def EndpointState.request : EndpointState → Option IpcMessage
  | .pendingReply msg => some msg
  | _ => none

def EndpointState.reply : EndpointState → Option IpcMessage
  | .replyReady msg => some msg
  | _ => none

structure IpcEndpoint where
  id : EndpointId
  requiredRights : Rights
  state : EndpointState
  sequence : BitVec 32

namespace IpcEndpoint

def new (id : EndpointId) (requiredRights : Rights) : IpcEndpoint where
  id := id
  requiredRights := requiredRights
  state := .idle
  sequence := 0

/-- `next_sequence`, a wrapping increment. -/
def nextSequence (ep : IpcEndpoint) : BitVec 32 × IpcEndpoint :=
  (ep.sequence + 1, { ep with sequence := ep.sequence + 1 })

def post (ep : IpcEndpoint) (cap : Capability) (msg : IpcMessage) :
    Except IpcError Unit × IpcEndpoint :=
  if cap.isValidFor ep.id ep.requiredRights = false then
    (.error .capabilityDenied, ep)
  else if ep.state.request.isSome then
    (.error .endpointBusy, ep)
  else if ipcMaxPayload < msg.header.payloadLen.toNat then
    (.error .payloadLenMismatch, ep)
  else
    let (sequence, ep) := ep.nextSequence
    (.ok (), { ep with state := .pendingReply (msg.withSequence sequence) })

def take (ep : IpcEndpoint) : Except IpcError IpcMessage × IpcEndpoint :=
  match ep.state with
  | .pendingReply msg => (.ok msg, { ep with state := .idle })
  | _ => (.error .noMessage, ep)

def postReply (ep : IpcEndpoint) (reply : IpcMessage) :
    Except IpcError Unit × IpcEndpoint :=
  if ep.state.reply.isSome then
    (.error .endpointBusy, ep)
  else
    (.ok (), { ep with state := .replyReady reply })

def takeReply (ep : IpcEndpoint) :
    Except IpcError IpcMessage × IpcEndpoint :=
  match ep.state with
  | .replyReady msg => (.ok msg, { ep with state := .idle })
  | _ => (.error .noMessage, ep)

/-- `ipc_reply` on the endpoint it finds: the reply carries the number that
the endpoint's counter holds at that moment. -/
def reply (ep : IpcEndpoint) (replyType : MessageType)
    (payload : List Byte) : Except IpcError Unit × IpcEndpoint :=
  match (IpcMessage.new replyType ep.sequence).setPayload payload with
  | .error e => (.error e, ep)
  | .ok reply => ep.postReply reply

/-! ### What each operation can do -/

/-- `post` accepts. -/
def Accepts (ep : IpcEndpoint) (cap : Capability) (msg : IpcMessage) : Prop :=
  cap.isValidFor ep.id ep.requiredRights = true ∧
    ep.state.request = none ∧ msg.header.payloadLen.toNat ≤ ipcMaxPayload

variable (ep : IpcEndpoint)

theorem post_cases (cap : Capability) (msg : IpcMessage) :
    (ep.Accepts cap msg ∧
      ep.post cap msg =
        (.ok (),
          { ep with
            state := .pendingReply (msg.withSequence (ep.sequence + 1))
            sequence := ep.sequence + 1 })) ∨
    (¬ ep.Accepts cap msg ∧ ∃ e, ep.post cap msg = (.error e, ep)) := by
  unfold post Accepts
  split
  case isTrue hinvalid => simp [hinvalid]
  case isFalse hvalid =>
    rw [Bool.not_eq_false] at hvalid
    split
    case isTrue hbusy =>
      refine .inr ⟨?_, _, rfl⟩
      rintro ⟨-, hnone, -⟩
      simp [hnone] at hbusy
    case isFalse hfree =>
      rw [Option.not_isSome_iff_eq_none] at hfree
      split
      case isTrue hlong =>
        refine .inr ⟨?_, _, rfl⟩
        rintro ⟨-, -, hshort⟩
        omega
      case isFalse hshort =>
        exact .inl ⟨⟨hvalid, hfree, Nat.not_lt.mp hshort⟩, rfl⟩

theorem take_cases :
    (∃ msg, ep.state = .pendingReply msg ∧
      ep.take = (.ok msg, { ep with state := .idle })) ∨
    (ep.state.request = none ∧ ep.take = (.error .noMessage, ep)) := by
  unfold take
  cases h : ep.state with
  | idle => exact .inr ⟨rfl, rfl⟩
  | pendingReply msg => exact .inl ⟨msg, rfl, rfl⟩
  | replyReady msg => exact .inr ⟨rfl, rfl⟩

theorem takeReply_cases :
    (∃ msg, ep.state = .replyReady msg ∧
      ep.takeReply = (.ok msg, { ep with state := .idle })) ∨
    (ep.state.reply = none ∧ ep.takeReply = (.error .noMessage, ep)) := by
  unfold takeReply
  cases h : ep.state with
  | idle => exact .inr ⟨rfl, rfl⟩
  | pendingReply msg => exact .inr ⟨rfl, rfl⟩
  | replyReady msg => exact .inl ⟨msg, rfl, rfl⟩

theorem reply_cases (replyType : MessageType) (payload : List Byte) :
    (∃ msg : IpcMessage, msg.header.sequence = ep.sequence ∧
      payload.length ≤ ipcMaxPayload ∧ ep.state.reply = none ∧
      ep.reply replyType payload =
        (.ok (), { ep with state := .replyReady msg })) ∨
    (∃ e, ep.reply replyType payload = (.error e, ep)) := by
  unfold reply
  cases hset : (IpcMessage.new replyType ep.sequence).setPayload payload with
  | error e => exact .inr ⟨e, rfl⟩
  | ok msg =>
    obtain ⟨hlen, hsequence⟩ := IpcMessage.setPayload_eq_ok hset
    cases hready : ep.state.reply with
    | some held => exact .inr ⟨.endpointBusy, by simp [postReply, hready]⟩
    | none =>
      exact .inl ⟨msg, hsequence, hlen, rfl, by simp [postReply, hready]⟩

end IpcEndpoint

end IsoLightK0
