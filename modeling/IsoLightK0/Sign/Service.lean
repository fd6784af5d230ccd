import IsoLightK0.Ipc.Endpoint

/-!
# The signature service

`sign_service.rs`: one session of a chunk protocol in front of ML-DSA-44.
`Begin` declares the sizes of a key, an auxiliary and a message section and
zeroes the buffers, `InChunk` requests fill the sections in that order, `Exec`
runs the operation on them, `OutChunk` requests read the output and `End`
resets the session.

The ML-DSA-44 implementation is a crate outside the repository and a parameter
here.  Counters are natural numbers: the declared sizes are decoded from four
octets, and everything the service computes from them is bounded by the buffer
sizes.
-/

namespace IsoLightK0

open Bytes

namespace Sign

def pkLen : ℕ := 1312

def skLen : ℕ := 2560

def sigLen : ℕ := 2420

def msgBufLen : ℕ := 1020

def outBufLen : ℕ := pkLen + skLen

def chunkSize : ℕ := 240

end Sign

/-- The operations of `MLDSA44`; `none` stands for an error of the crate. -/
structure Mldsa44 where
  keygen : Buf 32 → Option (Buf Sign.pkLen × Buf Sign.skLen)
  sign : Buf Sign.skLen → List Byte → List Byte → Buf 32 →
    Option (Buf Sign.sigLen)
  verify : Buf Sign.pkLen → List Byte → Buf Sign.sigLen → List Byte →
    Option Bool

inductive SignError
  | invalidPhase
  | invalidOp
  | invalidVariant
  | sizeTooLarge
  | chunkOverflow
  | execFailed
  | verifyFailed
  | invalidRequest
  deriving DecidableEq, Repr

/-- The discriminant of the error, as the reply carries it. -/
def SignError.code : SignError → Byte
  | .invalidPhase => 1
  | .invalidOp => 2
  | .invalidVariant => 3
  | .sizeTooLarge => 4
  | .chunkOverflow => 5
  | .execFailed => 6
  | .verifyFailed => 7
  | .invalidRequest => 8

/-- `SignPayload`; the two padding octets are zero. -/
structure SignPayload where
  phase : Byte
  op : Byte
  variant : Byte
  result : Byte
  offset : BitVec 32
  total : BitVec 32
  chunkLen : BitVec 16
  data : Buf Sign.chunkSize

/-- The request read from the 256 octets of a payload. -/
def SignPayload.ofBytes (payload : Buf ipcMaxPayload) : SignPayload where
  phase := payload.toMem 0
  op := payload.toMem 1
  variant := payload.toMem 2
  result := payload.toMem 3
  offset := wordOfLe 32 (payload.slice 4 4)
  total := wordOfLe 32 (payload.slice 8 4)
  chunkLen := wordOfLe 16 (payload.slice 12 2)
  data := Buf.ofList Sign.chunkSize (payload.slice 16 Sign.chunkSize)

def SignPayload.toBytes (p : SignPayload) : List Byte :=
  [p.phase, p.op, p.variant, p.result] ++ wordToLe 4 p.offset ++
    wordToLe 4 p.total ++ wordToLe 2 p.chunkLen ++ [0, 0] ++ p.data.toList

def parseReq (msg : IpcMessage) : Except SignError SignPayload :=
  if msg.header.payloadLen.toNat < ipcMaxPayload then
    .error .invalidRequest
  else
    .ok (.ofBytes msg.payload)

def writeSignReply (phase result : Byte) (offset total : BitVec 32)
    (data : List Byte) : List Byte :=
  SignPayload.toBytes
    { phase := phase
      op := 0
      variant := 0
      result := result
      offset := offset
      total := total
      chunkLen := BitVec.ofNat 16 (min data.length Sign.chunkSize)
      data := Buf.ofList Sign.chunkSize data }

inductive SignOp
  | keygen
  | sign
  | verify
  deriving DecidableEq, Repr

inductive SignPhase
  | idle
  | collectKey
  | collectAux
  | collectMsg
  | ready
  | outputReady
  deriving DecidableEq, Repr

structure SignSession where
  phase : SignPhase
  op : SignOp
  keyTotal : ℕ
  auxTotal : ℕ
  msgTotal : ℕ
  keyRecv : ℕ
  auxRecv : ℕ
  msgRecv : ℕ
  outTotal : ℕ
  verifyOk : Bool

def SignSession.idle : SignSession where
  phase := .idle
  op := .keygen
  keyTotal := 0
  auxTotal := 0
  msgTotal := 0
  keyRecv := 0
  auxRecv := 0
  msgRecv := 0
  outTotal := 0
  verifyOk := false

/-- `SESSION` and the four static buffers. -/
structure SignService where
  session : SignSession
  keyBuf : Buf Sign.skLen
  auxBuf : Buf Sign.sigLen
  msgBuf : Buf Sign.msgBufLen
  outBuf : Buf Sign.outBufLen

/-- The statics at boot, and again after `handle_end`. -/
def SignService.reset : SignService where
  session := .idle
  keyBuf := Buf.zero
  auxBuf := Buf.zero
  msgBuf := Buf.zero
  outBuf := Buf.zero

def SignOp.ofByte (b : Byte) : Option SignOp :=
  if b = 1 then some .keygen
  else if b = 2 then some .sign
  else if b = 3 then some .verify
  else none

/-- The declared sizes exceed the limits of the operation. -/
def SignOp.oversized (op : SignOp) (keyTotal auxTotal msgTotal : ℕ) : Bool :=
  match op with
  | .keygen => 32 < keyTotal ∨ auxTotal ≠ 0 ∨ msgTotal ≠ 0
  | .sign =>
    Sign.skLen < keyTotal ∨ auxTotal ≠ 0 ∨ Sign.msgBufLen < msgTotal
  | .verify =>
    Sign.pkLen < keyTotal ∨ Sign.sigLen < auxTotal ∨
      Sign.msgBufLen < msgTotal

/-- The session that `handle_begin` installs. -/
def SignSession.begin (op : SignOp) (keyTotal auxTotal msgTotal : ℕ) :
    SignSession :=
  { SignSession.idle with
    phase :=
      if 0 < keyTotal then .collectKey
      else if 0 < auxTotal then .collectAux
      else if 0 < msgTotal then .collectMsg
      else .ready
    op := op
    keyTotal := keyTotal
    auxTotal := auxTotal
    msgTotal := msgTotal }

def SignService.handleBegin (S : SignService) (req : SignPayload) :
    Except SignError Unit × SignService :=
  if S.session.phase ≠ .idle then (.error .invalidPhase, S)
  else
    match SignOp.ofByte req.op with
    | none => (.error .invalidOp, S)
    | some op =>
      if req.variant ≠ 1 then (.error .invalidVariant, S)
      else if req.chunkLen.toNat < 12 then (.error .invalidRequest, S)
      else
        let keyTotal := ofLe (req.data.slice 0 4)
        let auxTotal := ofLe (req.data.slice 4 4)
        let msgTotal := ofLe (req.data.slice 8 4)
        if op.oversized keyTotal auxTotal msgTotal then
          (.error .sizeTooLarge, S)
        else
          (.ok (),
            { SignService.reset with
              session := .begin op keyTotal auxTotal msgTotal })

/-- One section's buffer takes a chunk; the second component is the end of the
chunk, which becomes the section's received counter. -/
def receiveChunk {n : ℕ} (buf : Buf n) (total : ℕ) (req : SignPayload) :
    Option (Buf n × ℕ) :=
  let stop := req.offset.toNat + req.chunkLen.toNat
  if n < stop ∨ total < stop then none
  else
    some (buf.blit req.offset.toNat (req.data.slice 0 req.chunkLen.toNat),
      stop)

namespace SignService

def handleInChunk (S : SignService) (req : SignPayload) :
    Except SignError Unit × SignService :=
  if Sign.chunkSize < req.chunkLen.toNat then (.error .chunkOverflow, S)
  else
    match S.session.phase with
    | .collectKey =>
      match receiveChunk S.keyBuf S.session.keyTotal req with
      | none => (.error .chunkOverflow, S)
      | some (buf, stop) =>
        (.ok (),
          { S with
            keyBuf := buf
            session :=
              { S.session with
                keyRecv := stop
                phase :=
                  if S.session.keyTotal ≤ stop then
                    if 0 < S.session.auxTotal then .collectAux
                    else if 0 < S.session.msgTotal then .collectMsg
                    else .ready
                  else .collectKey } })
    | .collectAux =>
      match receiveChunk S.auxBuf S.session.auxTotal req with
      | none => (.error .chunkOverflow, S)
      | some (buf, stop) =>
        (.ok (),
          { S with
            auxBuf := buf
            session :=
              { S.session with
                auxRecv := stop
                phase :=
                  if S.session.auxTotal ≤ stop then
                    if 0 < S.session.msgTotal then .collectMsg
                    else .ready
                  else .collectAux } })
    | .collectMsg =>
      match receiveChunk S.msgBuf S.session.msgTotal req with
      | none => (.error .chunkOverflow, S)
      | some (buf, stop) =>
        (.ok (),
          { S with
            msgBuf := buf
            session :=
              { S.session with
                msgRecv := stop
                phase :=
                  if S.session.msgTotal ≤ stop then .ready
                  else .collectMsg } })
    | _ => (.error .invalidPhase, S)

/-! ## `handle_exec` -/

end SignService

/-- A call of the ML-DSA crate with the arguments it is given.  A seed is read
from the key section or drawn from the DRBG. -/
inductive MldsaCall
  | keygenFrom (seed : Buf 32)
  | keygenRandom (rnd : Buf 32)
  | sign (sk : Buf Sign.skLen) (msg : List Byte) (rnd : Buf 32)
  | verify (pk : Buf Sign.pkLen) (msg : List Byte) (sig : Buf Sign.sigLen)

namespace SignService

/-- The checks of `handle_exec`, and the operation it runs if they pass. -/
def execCall (S : SignService) (rnd : Buf 32) : Except SignError MldsaCall :=
  if S.session.phase ≠ .ready then .error .invalidPhase
  else
    match S.session.op with
    | .keygen =>
      if S.session.keyTotal = 32 then
        .ok (.keygenFrom (Buf.ofList 32 (S.keyBuf.slice 0 32)))
      else
        .ok (.keygenRandom rnd)
    | .sign =>
      if S.session.keyTotal ≠ Sign.skLen then .error .invalidRequest
      else
        .ok (.sign S.keyBuf (S.msgBuf.slice 0 S.session.msgTotal) rnd)
    | .verify =>
      if S.session.keyTotal ≠ Sign.pkLen ∨ S.session.auxTotal ≠ Sign.sigLen then
        .error .invalidRequest
      else
        .ok (.verify (Buf.ofList Sign.pkLen (S.keyBuf.slice 0 Sign.pkLen))
          (S.msgBuf.slice 0 S.session.msgTotal) S.auxBuf)

/-- The end of `handle_exec`: the input buffers are zeroed. -/
def complete (S : SignService) (outBuf : Buf Sign.outBufLen) (outTotal : ℕ) :
    Except SignError ℕ × SignService :=
  (.ok outTotal,
    { session := { S.session with outTotal := outTotal, phase := .outputReady }
      keyBuf := Buf.zeroized
      auxBuf := Buf.zeroized
      msgBuf := Buf.zeroized
      outBuf := outBuf })

def runKeygen (M : Mldsa44) (S : SignService) (seed : Buf 32) :
    Except SignError ℕ × SignService :=
  match M.keygen seed with
  | none => (.error .execFailed, S)
  | some (pk, sk) =>
    S.complete ((S.outBuf.blit 0 pk.toList).blit Sign.pkLen sk.toList)
      (Sign.pkLen + Sign.skLen)

def runCall (M : Mldsa44) (S : SignService) :
    MldsaCall → Except SignError ℕ × SignService
  | .keygenFrom seed => S.runKeygen M seed
  | .keygenRandom rnd => S.runKeygen M rnd
  | .sign sk msg rnd =>
    match M.sign sk msg [] rnd with
    | none => (.error .execFailed, S)
    | some sig => S.complete (S.outBuf.blit 0 sig.toList) Sign.sigLen
  | .verify pk msg sig =>
    match M.verify pk msg sig [] with
    | none => (.error .execFailed, S)
    | some ok =>
      let S := { S with session := { S.session with verifyOk := ok } }
      if ok = false then (.error .verifyFailed, S)
      else S.complete (S.outBuf.blit 0 [1]) 1

def handleExec (M : Mldsa44) (S : SignService) (rnd : Buf 32) :
    Except SignError ℕ × SignService :=
  match S.execCall rnd with
  | .error e => (.error e, S)
  | .ok call => S.runCall M call

/-- The octets of the output chunk; the service is not changed. -/
def handleOutChunk (S : SignService) (req : SignPayload) :
    Except SignError (List Byte) :=
  if S.session.phase ≠ .outputReady then .error .invalidPhase
  else if S.session.outTotal ≤ req.offset.toNat then .ok []
  else
    .ok (S.outBuf.slice req.offset.toNat
      (min (S.session.outTotal - req.offset.toNat) Sign.chunkSize))

def handleEnd (_ : SignService) : SignService := reset

end SignService

/-- What the arms of `dispatch` produce for the reply. -/
structure SignAnswer where
  replyType : MessageType
  code : Byte
  offset : BitVec 32
  total : BitVec 32
  data : List Byte

def SignAnswer.error (e : SignError) : SignAnswer :=
  ⟨.error, e.code, 0, 0, []⟩

/-- The reply that `dispatch` posts: its type and its payload. -/
structure SignReply where
  replyType : MessageType
  payload : List Byte

namespace SignService

/-- The arms of `dispatch`. -/
def answer (M : Mldsa44) (S : SignService) (drbg : CapDrbg)
    (msgType : MessageType) (req : SignPayload) :
    Option (SignAnswer × SignService × CapDrbg) :=
  match msgType with
  | .signBeginReq =>
    match S.handleBegin req with
    | (.ok (), S) =>
      some (⟨.signBeginResp, 0, 0, 0, toLe 4 Sign.chunkSize⟩, S, drbg)
    | (.error e, S) => some (.error e, S, drbg)
  | .signInChunkReq =>
    match S.handleInChunk req with
    | (.ok (), S) =>
      let recvTotal :=
        S.session.keyRecv + S.session.auxRecv + S.session.msgRecv
      some (⟨.signInChunkResp, 0, BitVec.ofNat 32 recvTotal, 0, []⟩, S,
        drbg)
    | (.error e, S) => some (.error e, S, drbg)
  | .signExecReq =>
    match randBytes 32 drbg with
    | none => none
    | some (.error _, drbg) => some (.error .execFailed, S, drbg)
    | some (.ok rnd, drbg) =>
      match S.handleExec M rnd with
      | (.ok outTotal, S) =>
        some (⟨.signExecResp, 0, 0, BitVec.ofNat 32 outTotal, []⟩, S,
          drbg)
      | (.error e, S) => some (.error e, S, drbg)
  | .signOutChunkReq =>
    match S.handleOutChunk req with
    | .ok data =>
      some (⟨.signOutChunkResp, 0, req.offset,
        BitVec.ofNat 32 S.session.outTotal, data⟩, S, drbg)
    | .error e => some (.error e, S, drbg)
  | .signEndReq => some (⟨.signEndResp, 0, 0, 0, []⟩, S.handleEnd, drbg)
  | _ => some (.error .invalidRequest, S, drbg)

/-- `dispatch` between the `ipc_recv` that hands it the message and the
`ipc_reply` that posts its reply. -/
def dispatch (M : Mldsa44) (S : SignService) (drbg : CapDrbg)
    (msg : IpcMessage) : Option (SignReply × SignService × CapDrbg) :=
  match parseReq msg with
  | .error _ =>
    some (⟨.error,
      writeSignReply 0 SignError.invalidRequest.code 0 0 []⟩, S, drbg)
  | .ok req =>
    (S.answer M drbg msg.header.msgType req).map fun (a, S, drbg) =>
      (⟨a.replyType, writeSignReply req.phase a.code a.offset a.total a.data⟩,
        S, drbg)

end SignService

end IsoLightK0
