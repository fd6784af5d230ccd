import IsoLightK0.Support.Bytes

/-!
# The wire frame codec

Frames of the wire contract start with a 16-octet header whose integers are
little-endian.  The builders of `bus.rs` write into a caller-provided buffer
of `WIRE_FRAME_MAX` octets and return the frame length, so a built frame is
the buffer together with a length that fits it.

The main results say what a receiver decodes from the two kinds of frame the
kernel builds.
-/

namespace IsoLightK0

open Bytes

def wireFrameMax : ℕ := 4096

def wirePayloadMax : ℕ := wireFrameMax - 16

/-- `WIRE_MAGIC`, the octets of `"LWK0"`. -/
def wireMagic : Buf 4 := Buf.ofList 4 [0x4C, 0x57, 0x4B, 0x30]

def wireVersion : BitVec 16 := 0x0001

def wireCmdResponseBit : BitVec 16 := 0x8000

structure WireFrameHeader where
  magic : Buf 4
  version : BitVec 16
  cmd : BitVec 16
  reqId : BitVec 32
  payloadLen : BitVec 16
  status : BitVec 16

inductive WireCmd
  | ping
  | blake3Hash
  | attestSubmit
  | status
  | error
  deriving DecidableEq, Repr

/-- The `u16` discriminants of `WireCmd`. -/
def WireCmd.code : WireCmd → BitVec 16
  | .ping => 0x0001
  | .blake3Hash => 0x0010
  | .attestSubmit => 0x0040
  | .status => 0x0080
  | .error => 0xFFFF

inductive WireStatus
  | ok
  | badFrame
  | unknownCmd
  | denied
  | internal
  deriving DecidableEq, Repr

/-- The `u16` discriminants of `WireStatus`. -/
def WireStatus.code : WireStatus → BitVec 16
  | .ok => 0
  | .badFrame => 1
  | .unknownCmd => 2
  | .denied => 3
  | .internal => 4

/-- `WIRE_ATTEST_LEN`: public key, bus kind octet and signature. -/
def wireAttestLen : ℕ := 1312 + 1 + 2420

def parseHeader (bytes : Buf 16) : WireFrameHeader where
  magic := Buf.ofList 4 (bytes.slice 0 4)
  version := wordOfLe 16 (bytes.slice 4 2)
  cmd := wordOfLe 16 (bytes.slice 6 2)
  reqId := wordOfLe 32 (bytes.slice 8 4)
  payloadLen := wordOfLe 16 (bytes.slice 12 2)
  status := wordOfLe 16 (bytes.slice 14 2)

def writeHeader (h : WireFrameHeader) (out : Buf 16) : Buf 16 :=
  let out := out.blit 0 h.magic.toList
  let out := out.blit 4 (wordToLe 2 h.version)
  let out := out.blit 6 (wordToLe 2 h.cmd)
  let out := out.blit 8 (wordToLe 4 h.reqId)
  let out := out.blit 12 (wordToLe 2 h.payloadLen)
  out.blit 14 (wordToLe 2 h.status)

theorem parseHeader_writeHeader (h : WireFrameHeader) (out : Buf 16) :
    parseHeader (writeHeader h out) = h := by
  have hmagic : (writeHeader h out).slice 0 4 = h.magic.toList := by
    simp (disch := simp) only [writeHeader, Buf.slice_blit_disjoint,
      Buf.slice_blit_of_length]
  have hversion : (writeHeader h out).slice 4 2 = wordToLe 2 h.version := by
    simp (disch := simp) only [writeHeader, Buf.slice_blit_disjoint,
      Buf.slice_blit_of_length]
  have hcmd : (writeHeader h out).slice 6 2 = wordToLe 2 h.cmd := by
    simp (disch := simp) only [writeHeader, Buf.slice_blit_disjoint,
      Buf.slice_blit_of_length]
  have hreq : (writeHeader h out).slice 8 4 = wordToLe 4 h.reqId := by
    simp (disch := simp) only [writeHeader, Buf.slice_blit_disjoint,
      Buf.slice_blit_of_length]
  have hlen : (writeHeader h out).slice 12 2 = wordToLe 2 h.payloadLen := by
    simp (disch := simp) only [writeHeader, Buf.slice_blit_disjoint,
      Buf.slice_blit_of_length]
  have hstatus : (writeHeader h out).slice 14 2 = wordToLe 2 h.status := by
    simp (disch := simp) only [writeHeader, Buf.slice_blit_of_length]
  unfold parseHeader
  rw [hmagic, hversion, hcmd, hreq, hlen, hstatus, Buf.ofList_toList,
    wordOfLe_wordToLe _ (by omega), wordOfLe_wordToLe _ (by omega),
    wordOfLe_wordToLe _ (by omega), wordOfLe_wordToLe _ (by omega),
    wordOfLe_wordToLe _ (by omega)]

/-! ## Frame builders -/

/-- A frame in a `WIRE_FRAME_MAX` buffer. -/
structure WireFrame where
  buf : Buf wireFrameMax
  len : ℕ
  len_le : len ≤ wireFrameMax

/-- A payload that a frame has room for; `build_response_frame` panics on any
other. -/
structure WirePayload where
  bytes : List Byte
  length_le : bytes.length ≤ wirePayloadMax

def buildResponseFrame (reqId : BitVec 32) (cmd : WireCmd)
    (status : WireStatus) (payload : WirePayload)
    (out : Buf wireFrameMax) : WireFrame where
  buf :=
    let hdr : WireFrameHeader :=
      { magic := wireMagic
        version := wireVersion
        cmd := cmd.code ||| wireCmdResponseBit
        reqId := reqId
        payloadLen := BitVec.ofNat 16 payload.bytes.length
        status := status.code }
    let out := out.blit 0 (writeHeader hdr Buf.zero).toList
    out.blit 16 payload.bytes
  len := 16 + payload.bytes.length
  len_le := by
    have h := payload.length_le
    unfold wirePayloadMax wireFrameMax at h
    unfold wireFrameMax
    omega

def buildErrorFrameInplace (reqId : BitVec 32) (status : WireStatus)
    (out : Buf wireFrameMax) : WireFrame where
  buf :=
    let hdr : WireFrameHeader :=
      { magic := wireMagic
        version := wireVersion
        cmd := WireCmd.error.code
        reqId := reqId
        payloadLen := 0
        status := status.code }
    out.blit 0 (writeHeader hdr Buf.zero).toList
  len := 16
  len_le := by
    unfold wireFrameMax
    omega

/-- What a receiver decodes from the first 16 octets of a frame buffer. -/
def decodeHeader (buf : Buf wireFrameMax) : WireFrameHeader :=
  parseHeader (Buf.ofList 16 (buf.slice 0 16))

theorem decodeHeader_of_slice {buf : Buf wireFrameMax} {h : WireFrameHeader}
    (hbuf : buf.slice 0 16 = (writeHeader h Buf.zero).toList) :
    decodeHeader buf = h := by
  rw [decodeHeader, hbuf, Buf.ofList_toList, parseHeader_writeHeader]

theorem decodeHeader_buildResponseFrame (reqId : BitVec 32)
    (cmd : WireCmd) (status : WireStatus) (payload : WirePayload)
    (out : Buf wireFrameMax) :
    decodeHeader (buildResponseFrame reqId cmd status payload out).buf =
      { magic := wireMagic
        version := wireVersion
        cmd := cmd.code ||| wireCmdResponseBit
        reqId := reqId
        payloadLen := BitVec.ofNat 16 payload.bytes.length
        status := status.code } := by
  have hfit : 16 + payload.bytes.length ≤ wireFrameMax :=
    (buildResponseFrame reqId cmd status payload out).len_le
  apply decodeHeader_of_slice
  unfold buildResponseFrame
  rw [Buf.slice_blit_disjoint _ hfit (.inl (le_refl 16)),
    Buf.slice_blit_of_length]
  · simp [wireFrameMax]
  · simp

theorem decodeHeader_buildErrorFrameInplace (reqId : BitVec 32)
    (status : WireStatus) (out : Buf wireFrameMax) :
    decodeHeader (buildErrorFrameInplace reqId status out).buf =
      { magic := wireMagic
        version := wireVersion
        cmd := WireCmd.error.code
        reqId := reqId
        payloadLen := 0
        status := status.code } := by
  apply decodeHeader_of_slice
  unfold buildErrorFrameInplace
  rw [Buf.slice_blit_of_length]
  · simp [wireFrameMax]
  · simp

theorem slice_buildResponseFrame_payload (reqId : BitVec 32)
    (cmd : WireCmd) (status : WireStatus) (payload : WirePayload)
    (out : Buf wireFrameMax) :
    (buildResponseFrame reqId cmd status payload out).buf.slice 16
      payload.bytes.length = payload.bytes := by
  have hfit : 16 + payload.bytes.length ≤ wireFrameMax :=
    (buildResponseFrame reqId cmd status payload out).len_le
  unfold buildResponseFrame
  rw [Buf.slice_blit_of_length _ hfit rfl]

end IsoLightK0
