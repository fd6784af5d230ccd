import IsoLightK0.Registry.Model
import IsoLightK0.Support.Runs
import IsoLightK0.Syscall.Context

/-!
# Bus access through the registry and wire dispatch

Every bus lives in a registry slot, so reads and writes are operations on the
kernel and a slot index.  Writing a request frame to a wire bus dispatches a
command.  `handle_blake3` then writes to and reads from the bus of the slot
that the request names, which may be another wire bus or the very bus that is
being written; the body `busWriteBody` therefore takes the recursive write as
a parameter.

A handler finishes by building a frame in the `pending_response` buffer of the
bus being written, as that buffer stands after any nested calls.  Handlers
return this last action as a function of the buffer.
-/

namespace IsoLightK0

open Bytes Runs

/-- A frame builder, applied to the pending buffer of the written bus. -/
abbrev FrameBuilder := Buf wireFrameMax → WireFrame

/-- A bus write: the kernel, the slot and the data. -/
abbrev WriteCall := Kernel × SlotIdx × List Byte

abbrev WriteResult := Except BusError ℕ × Kernel

/-- `bus.read` on the bus of a slot, into a slice of `outLen` octets. -/
def Kernel.busRead (K : Kernel) (i : SlotIdx) (outLen : ℕ) :
    Except BusError (List Byte) × Kernel :=
  (((K.bus i).read outLen).1, K.setBus i ((K.bus i).read outLen).2)

namespace Wire

def handlePing (reqId : BitVec 32) : FrameBuilder :=
  buildResponseFrame reqId .ping .ok ⟨[], Nat.zero_le _⟩

/-- A read that delivered exactly 32 octets becomes the response payload. -/
def digestFrame (reqId : BitVec 32) (read : Except BusError (List Byte)) :
    FrameBuilder :=
  match read with
  | .ok digest =>
    if h : digest.length = 32 then
      buildResponseFrame reqId .blake3Hash .ok
        ⟨digest, by
          rw [h]
          decide⟩
    else
      buildErrorFrameInplace reqId .internal
  | .error _ => buildErrorFrameInplace reqId .internal

/-- `handle_blake3`: the first 16 payload octets name the slot, the rest is
written to its bus. -/
def handleBlake3 (write : WriteCall → Option WriteResult) (K : Kernel)
    (reqId : BitVec 32) (payload : List Byte) :
    Option (FrameBuilder × Kernel) :=
  if payload.length < 16 then
    some (buildErrorFrameInplace reqId .badFrame, K)
  else
    let cap := HsmCapability.ofBytes (payload.take 16)
    if K.registry.authenticate cap HsmRights.use = false then
      some (buildErrorFrameInplace reqId .denied, K)
    else
      match HsmRegistry.slotIdx? cap.slot.toNat with
      | none => some (buildErrorFrameInplace reqId .internal, K)
      | some i =>
        match write (K, i, payload.drop 16) with
        | none => none
        | some (.error _, K) =>
          some (buildErrorFrameInplace reqId .internal, K)
        | some (.ok _, K) =>
          some (digestFrame reqId (K.busRead i 32).1, (K.busRead i 32).2)

/-- The bus kinds that `AttestSubmit` accepts. -/
def attestBusKind (octet : Byte) : Option BusKind :=
  if octet = 0 then some .software
  else if octet = 1 then some .ring3Process
  else none

def handleAttestSubmit (C : Crates) (K : Kernel) (reqId : BitVec 32)
    (payload : List Byte) : FrameBuilder × Kernel :=
  if payload.length ≠ wireAttestLen then
    (buildErrorFrameInplace reqId .badFrame, K)
  else
    let pk := Buf.ofList 1312 (payload.take 1312)
    let busOctet := (payload[1312]?).getD 0
    let sig := Buf.ofList 2420 (payload.drop 1313)
    match attestBusKind busOctet with
    | none => (buildErrorFrameInplace reqId .badFrame, K)
    | some busKind =>
      let pkPrefix := pkHashPrefix C pk
      match verifyAttest C K.activeTrustRootPk K.bootChallenge pk busKind
          sig with
      | .ok () =>
        (buildResponseFrame reqId .attestSubmit .ok ⟨[], Nat.zero_le _⟩,
          K.audit 0xFE 5 busOctet pkPrefix)
      | .error _ =>
        (buildErrorFrameInplace reqId .denied,
          K.audit 0xFE 6 busOctet pkPrefix)

/-- The payload of a `Status` response: count, total, two reserved octets and
the events. -/
def statusPayload (ring : AuditRing) : WirePayload where
  bytes :=
    let (events, total) := auditSnapshot ring auditRingCapacity
    toLe 2 events.length ++ wordToLe 4 total ++ [0, 0] ++
      events.flatMap EnrollEvent.toBytes
  length_le := by
    have hle := length_auditSnapshot_le ring auditRingCapacity
    have hlen := length_flatMap_of_size EnrollEvent.length_toBytes
    simp only [List.length_append, hlen, length_toLe, length_wordToLe,
      List.length_cons, List.length_nil]
    unfold auditRingCapacity at hle
    unfold wirePayloadMax wireFrameMax
    unfold auditRingCapacity
    omega

def handleStatus (K : Kernel) (reqId : BitVec 32) (payload : List Byte) :
    FrameBuilder :=
  if payload ≠ [] then
    buildErrorFrameInplace reqId .badFrame
  else
    buildResponseFrame reqId .status .ok (statusPayload K.auditRing)

/-- The command dispatch of `Ring3ProcessBus::write`. -/
def dispatch (C : Crates) (write : WriteCall → Option WriteResult)
    (K : Kernel) (hdr : WireFrameHeader) (payload : List Byte) :
    Option (FrameBuilder × Kernel) :=
  if hdr.cmd = WireCmd.ping.code then
    some (handlePing hdr.reqId, K)
  else if hdr.cmd = WireCmd.blake3Hash.code then
    handleBlake3 write K hdr.reqId payload
  else if hdr.cmd = WireCmd.attestSubmit.code then
    some (handleAttestSubmit C K hdr.reqId payload)
  else if hdr.cmd = WireCmd.status.code then
    some (handleStatus K hdr.reqId payload, K)
  else
    some (buildErrorFrameInplace hdr.reqId .unknownCmd, K)

/-! ## Writing to a bus -/

def requestHeader (data : List Byte) : WireFrameHeader :=
  parseHeader (Buf.ofList 16 (data.take 16))

/-- The four header checks of `Ring3ProcessBus::write`. -/
def RequestWellFormed (data : List Byte) : Prop :=
  let hdr := requestHeader data
  ofLe hdr.magic.toList = ofLe wireMagic.toList ∧
    hdr.version = wireVersion ∧
    (hdr.payloadLen.toNat + 16 ≤ data.length ∧
      hdr.payloadLen.toNat ≤ wirePayloadMax) ∧
    (hdr.cmd &&& wireCmdResponseBit = 0 ∧ hdr.cmd ≠ WireCmd.error.code)

instance (data : List Byte) : Decidable (RequestWellFormed data) :=
  inferInstanceAs (Decidable (_ ∧ _))

/-- The payload that the header of a request frame delimits. -/
def requestPayload (data : List Byte) : List Byte :=
  (data.drop 16).take (requestHeader data).payloadLen.toNat

/-- Build the response in the pending buffer of the written bus. -/
def storeResponse (K : Kernel) (i : SlotIdx) (build : FrameBuilder) :
    Kernel :=
  match K.bus i with
  | .ring3Process r =>
    K.setBus i (.ring3Process (r.setPending (build r.pendingResponse)))
  | _ => K

/-- `Ring3ProcessBus::write`. -/
def ring3Write (C : Crates) (write : WriteCall → Option WriteResult)
    (K : Kernel) (i : SlotIdx) (r : Ring3ProcessBus) (data : List Byte) :
    Option WriteResult :=
  if r.openState = false then
    some (.error .notOpen, K)
  else if data.length < 16 ∨ data.length > wireFrameMax then
    some (.error .internal, K)
  else if r.responseLen ≠ 0 then
    some (.error .internal, K)
  else if RequestWellFormed data then
    match dispatch C write K (requestHeader data) (requestPayload data) with
    | none => none
    | some (build, K) => some (.ok data.length, storeResponse K i build)
  else
    some (.error .internal, K)

/-- The body of `bus.write` on the bus of a slot. -/
def busWriteBody (C : Crates) (write : WriteCall → Option WriteResult) :
    WriteCall → Option WriteResult
  | (K, i, data) =>
    match K.bus i with
    | .software s =>
      some ((s.write C data).1, K.setBus i (.software (s.write C data).2))
    | .ring3Process r => ring3Write C write K i r data
    | .empty => some (.error .notOpen, K)
    | _ => some (.error .notImplemented, K)

/-- How often 32 octets can still be peeled off the data. -/
def nestingBound (call : WriteCall) : ℕ := call.2.2.length / 32

end Wire

/-- `bus.write` on the bus of a slot. -/
def Kernel.busWrite (C : Crates) (K : Kernel) (i : SlotIdx)
    (data : List Byte) : Option WriteResult :=
  recurse Wire.nestingBound (Wire.busWriteBody C) (K, i, data)

/-- The transfer that `handle_relay` runs once both capabilities have been
accepted: a destructive read of the source, then a write to the
destination. -/
def Kernel.relayTransfer (C : Crates) (K : Kernel) (srcSlot dstSlot : ℕ)
    (byteLen : ℕ) : Option (Except SyscallError Unit × Kernel) :=
  match HsmRegistry.slotIdx? srcSlot with
  | none => some (.error .internal, K)
  | some src =>
    match K.busRead src byteLen with
    | (.error _, K) => some (.error .internal, K)
    | (.ok bytes, K) =>
      if bytes.length ≠ byteLen then
        some (.error .internal, K)
      else
        match HsmRegistry.slotIdx? dstSlot with
        | none => some (.error .internal, K)
        | some dst =>
          match K.busWrite C dst bytes with
          | none => none
          | some (.error _, K) => some (.error .internal, K)
          | some (.ok accepted, K) =>
            if accepted ≠ byteLen then some (.error .internal, K)
            else some (.ok (), K)

end IsoLightK0
