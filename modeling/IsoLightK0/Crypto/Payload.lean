import IsoLightK0.Ipc.Endpoint
import IsoLightK0.Support.Faults

/-!
# Requests and replies of the cryptographic service

`CryptoPayload` of `ipc.rs` and the functions of `crypto_service.rs` that read
a request from a message and write a reply.  A request and a successful reply
have the same layout of 256 octets, with the data at offset 88; an error reply
is one octet.

The reserved and the padding octets are read by no function and have no
counterpart in `CryptoPayload`.
-/

namespace IsoLightK0

open Bytes Faults

def cryptoDataOffset : ℕ := 88

def cryptoDataLen : ℕ := 168

inductive CryptoError
  | unknownAlgorithm
  | invalidKeyLength
  | invalidNonceLength
  | invalidDataLength
  | authenticationFailed
  | invalidRequest
  | outputTooLarge
  | weakNonce
  deriving DecidableEq, Repr

/-- The discriminant of the error, as the reply carries it. -/
def CryptoError.code : CryptoError → Byte
  | .unknownAlgorithm => 1
  | .invalidKeyLength => 2
  | .invalidNonceLength => 3
  | .invalidDataLength => 4
  | .authenticationFailed => 5
  | .invalidRequest => 6
  | .outputTooLarge => 7
  | .weakNonce => 8

inductive CryptoAlgo
  | aes128Gcm
  | aes256Gcm
  | chaCha20Poly
  | hmacSha256
  | blake3
  | sha3_256
  | sha3_512
  | hkdfSha256
  | ed25519Sign
  | ed25519Verify
  | ed448Sign
  | ed448Verify
  | x448Dh
  deriving DecidableEq, Repr

def CryptoAlgo.code : CryptoAlgo → Byte
  | .aes128Gcm => 0x01
  | .aes256Gcm => 0x02
  | .chaCha20Poly => 0x03
  | .hmacSha256 => 0x10
  | .blake3 => 0x11
  | .sha3_256 => 0x12
  | .sha3_512 => 0x13
  | .hkdfSha256 => 0x20
  | .ed25519Sign => 0x30
  | .ed25519Verify => 0x31
  | .ed448Sign => 0x32
  | .ed448Verify => 0x33
  | .x448Dh => 0x40

/-- The algorithms that `parse_algo` knows; AES-128 is not among them. -/
def CryptoAlgo.supported : List CryptoAlgo :=
  [.aes256Gcm, .chaCha20Poly, .hmacSha256, .blake3, .sha3_256, .sha3_512,
    .hkdfSha256, .ed25519Sign, .ed25519Verify, .ed448Sign, .ed448Verify,
    .x448Dh]

def parseAlgo (byte : Byte) : Checked CryptoError CryptoAlgo :=
  orRefuse .unknownAlgorithm
    (CryptoAlgo.supported.find? fun algo => byte = algo.code)

structure CryptoPayload where
  algo : Byte
  keyLen : Byte
  nonceLen : Byte
  flags : Byte
  dataLen : BitVec 16
  key : Buf 64
  nonce : Buf 12
  data : Buf cryptoDataLen

namespace CryptoPayload

def ofBytes (payload : Buf ipcMaxPayload) : CryptoPayload where
  algo := payload.toMem 0
  keyLen := payload.toMem 1
  nonceLen := payload.toMem 2
  flags := payload.toMem 3
  dataLen := wordOfLe 16 (payload.slice 4 2)
  key := Buf.ofList 64 (payload.slice 8 64)
  nonce := Buf.ofList 12 (payload.slice 72 12)
  data := Buf.ofList cryptoDataLen (payload.slice cryptoDataOffset cryptoDataLen)

def octets (p : CryptoPayload) : List Byte := p.data.slice 0 p.dataLen.toNat

end CryptoPayload

def parseRequest (msg : IpcMessage) : Checked CryptoError CryptoPayload := do
  refuseIf (msg.header.payloadLen.toNat < ipcMaxPayload) .invalidRequest
  .ok (.ofBytes msg.payload)

/-- `write_error_reply`, on a buffer that has been zeroed. -/
def writeErrorReply (buf : Buf ipcMaxPayload) (e : CryptoError) :
    Buf ipcMaxPayload :=
  buf.blit 0 [e.code]

def writeOkReply (buf : Buf ipcMaxPayload) (algo : Byte) (data : List Byte) :
    Checked CryptoError (Buf ipcMaxPayload) := do
  refuseIf (cryptoDataLen < data.length) .outputTooLarge
  let buf ← copyRange buf 0 1 [algo]
  let buf ← copyRange buf 1 2 [0]
  let buf ← copyRange buf 2 3 [0]
  let buf ← copyRange buf 3 4 [0]
  let buf ← copyRange buf 4 6 (wordToLe 2 (BitVec.ofNat 16 data.length))
  copyRange buf cryptoDataOffset (cryptoDataOffset + data.length) data

def CryptoPayload.reply (algo : Byte) (data : List Byte) : CryptoPayload where
  algo := algo
  keyLen := 0
  nonceLen := 0
  flags := 0
  dataLen := BitVec.ofNat 16 data.length
  key := Buf.zero
  nonce := Buf.zero
  data := Buf.ofList cryptoDataLen data

def okReply (algo : Byte) (data : List Byte) : Buf ipcMaxPayload :=
  (Buf.zero.blit 0
    ([algo, 0, 0, 0] ++ wordToLe 2 (BitVec.ofNat 16 data.length))).blit
      cryptoDataOffset data

theorem writeOkReply_of_le {algo : Byte} {data : List Byte}
    (hlen : data.length ≤ cryptoDataLen) :
    writeOkReply Buf.zero algo data = .ok (okReply algo data) := by
  have hroom : cryptoDataOffset + data.length ≤ ipcMaxPayload :=
    Nat.add_le_add_left hlen cryptoDataOffset
  have hone : ∀ b : Byte, [b].length = 1 := fun _ => rfl
  -- the fields of the header are written one after the other
  have hjoin : ∀ (xs : List Byte) (k : ℕ) (ys : List Byte), xs.length = k →
      (Buf.zero.blit 0 xs : Buf ipcMaxPayload).blit k ys =
        Buf.zero.blit 0 (xs ++ ys) := by
    intro xs k ys hk
    rw [← Buf.blit_blit_append, Nat.zero_add, hk]
  rw [writeOkReply, refuseIf_of_not (Nat.not_lt.mpr hlen), ok_bind,
    copyRange_of_le (by decide) (by decide) (hone _), ok_bind,
    copyRange_of_le (by decide) (by decide) (hone _), ok_bind,
    copyRange_of_le (by decide) (by decide) (hone _), ok_bind,
    copyRange_of_le (by decide) (by decide) (hone _), ok_bind,
    copyRange_of_le (by decide) (by decide) (length_wordToLe _ _), ok_bind,
    copyRange_of_le (Nat.le_add_right _ _) hroom (by simp),
    hjoin [algo] 1 [0] rfl, hjoin _ 2 [0] rfl, hjoin _ 3 [0] rfl,
    hjoin _ 4 _ rfl]
  rfl

theorem writeOkReply_of_lt {algo : Byte} {data : List Byte}
    (hlen : cryptoDataLen < data.length) :
    writeOkReply Buf.zero algo data = refuse .outputTooLarge := by
  rw [writeOkReply, refuseIf_of hlen, refuse_bind]

/-- The fields of a request or a reply, written to a zeroed buffer. -/
def payloadOf (algo keyLen nonceLen : Byte) (key nonce data : List Byte) :
    Buf ipcMaxPayload :=
  (((Buf.zero.blit 0 ([algo, keyLen, nonceLen, 0] ++
    wordToLe 2 (BitVec.ofNat 16 data.length))).blit 8 key).blit 72 nonce).blit
      cryptoDataOffset data

theorem ofBytes_payloadOf {algo keyLen nonceLen : Byte}
    {key nonce data : List Byte} (hkey : key.length ≤ 64)
    (hnonce : nonce.length ≤ 12) (hdata : data.length ≤ cryptoDataLen) :
    CryptoPayload.ofBytes (payloadOf algo keyLen nonceLen key nonce data) =
      { algo := algo
        keyLen := keyLen
        nonceLen := nonceLen
        flags := 0
        dataLen := BitVec.ofNat 16 data.length
        key := Buf.ofList 64 key
        nonce := Buf.ofList 12 nonce
        data := Buf.ofList cryptoDataLen data } := by
  unfold payloadOf
  set word := BitVec.ofNat 16 data.length
  set header := [algo, keyLen, nonceLen, 0] ++ wordToLe 2 word
  have hheader : header.length = 6 := by simp [header]
  have hkeyFits : 8 + key.length ≤ ipcMaxPayload :=
    (Nat.add_le_add_left hkey 8).trans (by decide)
  have hnonceFits : 72 + nonce.length ≤ ipcMaxPayload :=
    (Nat.add_le_add_left hnonce 72).trans (by decide)
  have hdataFits : cryptoDataOffset + data.length ≤ ipcMaxPayload :=
    Nat.add_le_add_left hdata cryptoDataOffset
  rw [Buf.zero_blit]
  set buf : Buf ipcMaxPayload :=
    (((Buf.ofList _ header).blit 8 key).blit 72 nonce).blit cryptoDataOffset
      data
  have hbefore : ∀ off len, off + len ≤ 8 →
      buf.slice off len = (Buf.ofList ipcMaxPayload header).slice off len := by
    intro off len hend
    have hnext : off + len ≤ 72 := hend.trans (by decide)
    rw [Buf.slice_blit_disjoint _ hdataFits (.inl (hnext.trans (by decide))),
      Buf.slice_blit_disjoint _ hnonceFits (.inl hnext),
      Buf.slice_blit_disjoint _ hkeyFits (.inl hend)]
  -- a field is followed by the zeros that were there before
  have hzeros : ∀ {off}, 6 ≤ off → ∀ len,
      (Buf.ofList ipcMaxPayload header).slice off len =
        List.replicate len 0 :=
    fun hoff len => Buf.slice_ofList_of_length_le (hheader.le.trans hoff) len
  have hkeyField : buf.slice 8 64 = (Buf.ofList 64 key).toList := by
    rw [Buf.slice_blit_disjoint _ hdataFits (.inl (by decide)),
      Buf.slice_blit_disjoint _ hnonceFits (.inl (by decide)),
      Buf.slice_blit_of_le _ hkeyFits hkey, hzeros (by omega),
      Buf.toList_ofList_of_le hkey]
  have hnonceField : buf.slice 72 12 = (Buf.ofList 12 nonce).toList := by
    rw [Buf.slice_blit_disjoint _ hdataFits (.inl (by decide)),
      Buf.slice_blit_of_le _ hnonceFits hnonce,
      Buf.slice_blit_disjoint _ hkeyFits (.inr (by omega)),
      hzeros (by omega), Buf.toList_ofList_of_le hnonce]
  have hdataField : buf.slice cryptoDataOffset cryptoDataLen =
      (Buf.ofList cryptoDataLen data).toList := by
    have hbehind : 72 + nonce.length ≤ cryptoDataOffset + data.length := by
      unfold cryptoDataOffset
      omega
    rw [Buf.slice_blit_of_le _ hdataFits hdata,
      Buf.slice_blit_disjoint _ hnonceFits (.inr hbehind),
      Buf.slice_blit_disjoint _ hkeyFits (.inr (by omega)),
      hzeros (by omega), Buf.toList_ofList_of_le hdata]
  have hfields : buf.slice 0 4 = [algo, keyLen, nonceLen, 0] := by
    rw [hbefore 0 4 (by decide),
      Buf.slice_ofList (by rw [hheader]; decide) (by decide)]
    rfl
  have hword : buf.slice 4 2 = wordToLe 2 word := by
    rw [hbefore 4 2 (by decide),
      Buf.slice_ofList (by rw [hheader]) (by decide)]
    rfl
  obtain ⟨halgo, hkeyLen, hnonceLen, hflags⟩ :
      buf.toMem 0 = algo ∧ buf.toMem 1 = keyLen ∧ buf.toMem 2 = nonceLen ∧
        buf.toMem 3 = 0 := by
    simpa [Buf.slice, Mem.read, List.range_succ] using hfields
  rw [CryptoPayload.ofBytes, halgo, hkeyLen, hnonceLen, hflags, hword,
    wordOfLe_wordToLe word (by decide), hkeyField, hnonceField, hdataField,
    Buf.ofList_toList, Buf.ofList_toList, Buf.ofList_toList]

theorem ofBytes_okReply {algo : Byte} {data : List Byte}
    (hlen : data.length ≤ cryptoDataLen) :
    CryptoPayload.ofBytes (okReply algo data) =
      CryptoPayload.reply algo data := by
  have hnone : ∀ (b : Buf ipcMaxPayload) {off}, off ≤ ipcMaxPayload →
      b.blit off [] = b := fun b _ hoff => (b.blit_eq_self_iff hoff).mpr rfl
  have hreply : okReply algo data = payloadOf algo 0 0 [] [] data := by
    rw [payloadOf, hnone _ (by decide), hnone _ (by decide), okReply]
  rw [hreply, ofBytes_payloadOf (Nat.zero_le _) (Nat.zero_le _) hlen]
  rfl

end IsoLightK0
