import IsoLightK0.Tls.Model

/-!
# Record protection

`tls/record.rs`.  The two AEADs come from external crates: a ciphertext is as
long as its plaintext, and a failed decryption delivers nothing.  The functions
work on the keys in place; the sequence number is counted up as the last step.
-/

namespace IsoLightK0

open Bytes Triples

structure AeadCrates where
  gcmEncrypt : Buf 32 → Buf 12 → List Byte → (data : List Byte) →
    Buf data.length × Buf 16
  gcmDecrypt : Buf 32 → Buf 12 → List Byte → (ct : List Byte) → Buf 16 →
    Option (Buf ct.length)
  chachaEncrypt : Buf 32 → Buf 12 → List Byte → (data : List Byte) →
    Option (Buf data.length × Buf 16)
  chachaDecrypt : Buf 32 → Buf 12 → List Byte → (ct : List Byte) → Buf 16 →
    Option (Buf ct.length)

def recordHeaderLen : ℕ := 5

def aeadTagLen : ℕ := 16

def maxPlaintextLen : ℕ := 200

def ctApplicationData : Byte := 0x17

/-- `u64::MAX`. -/
def seqMax : BitVec 64 := BitVec.allOnes 64

/-- `build_nonce`: the sequence number, big-endian in the last eight octets,
added to the IV. -/
def buildNonce (staticIv : Buf 12) (seq : BitVec 64) : Buf 12 :=
  let padded := List.replicate 4 0 ++ (wordToLe 8 seq).reverse
  Buf.ofList 12 (List.zipWith (· ^^^ ·) staticIv.toList padded)

def buildAad (recordPayloadLen : ℕ) : Except TlsError (List Byte) :=
  if 65535 < recordPayloadLen then .error .bufferTooSmall
  else
    .ok ([ctApplicationData, 0x03, 0x03] ++ (toLe 2 recordPayloadLen).reverse)

/-- The AEAD of the suite. -/
def aeadEncrypt (A : AeadCrates) (suite : CipherSuite) (key : Buf 32)
    (nonce : Buf 12) (aad inner : List Byte) :
    Except TlsError (Buf inner.length × Buf 16) :=
  match suite with
  | .aes256GcmSha256 => .ok (A.gcmEncrypt key nonce aad inner)
  | .chaCha20Poly1305Sha256 =>
    match A.chachaEncrypt key nonce aad inner with
    | none => .error .internal
    | some sealed => .ok sealed

def aeadDecrypt (A : AeadCrates) (suite : CipherSuite) (key : Buf 32)
    (nonce : Buf 12) (aad ct : List Byte) (tag : Buf 16) :
    Except TlsError (Buf ct.length) :=
  let opened :=
    match suite with
    | .aes256GcmSha256 => A.gcmDecrypt key nonce aad ct tag
    | .chaCha20Poly1305Sha256 => A.chachaDecrypt key nonce aad ct tag
  match opened with
  | none => .error .authenticationFailed
  | some inner => .ok inner

/-- A call of the AEAD to encrypt, with what came out of it. -/
structure Sealing where
  suite : CipherSuite
  key : Buf 32
  nonce : Buf 12
  aad : List Byte
  inner : List Byte
  sealed : Option (List Byte × Buf 16)
  deriving DecidableEq

/-- The keys of a sender and, as an auxiliary variable, the calls to encrypt,
the latest first. -/
structure Sender where
  keys : DirectionalKeys
  sealings : List Sealing

/-- The AEAD call of `encrypt_record`. -/
def sealInner (A : AeadCrates) (suite : CipherSuite) (aad inner : List Byte) :
    Prog Sender TlsError (List Byte) := do
  let s ← get
  let nonce := buildNonce s.keys.iv s.keys.seq
  let call : Sealing := ⟨suite, s.keys.key, nonce, aad, inner, none⟩
  match aeadEncrypt A suite s.keys.key nonce aad inner with
  | .error e =>
    set { s with sealings := call :: s.sealings }
    throw e
  | .ok (ct, tag) =>
    set { s with sealings :=
      { call with sealed := some (ct.toList, tag) } :: s.sealings }
    pure (ct.toList ++ tag.toList)

/-- `encrypt_record` into a buffer of `outLen` octets, on the keys of a
sender. -/
def encryptInPlace (A : AeadCrates) (suite : CipherSuite)
    (plaintext : List Byte) (outLen : ℕ) :
    Prog Sender TlsError (List Byte) := do
  Prog.exitIf (maxPlaintextLen < plaintext.length) .bufferTooSmall
  let s ← get
  Prog.exitIf (s.keys.seq = seqMax) .sequenceExhausted
  let innerLen := plaintext.length + 1
  let recordPayloadLen := innerLen + aeadTagLen
  let totalLen := recordHeaderLen + recordPayloadLen
  Prog.exitIf (outLen < totalLen) .bufferTooSmall
  match buildAad recordPayloadLen with
  | .error e => throw e
  | .ok aad =>
    let payload ← sealInner A suite aad (plaintext ++ [ctApplicationData])
    modify fun s => { s with keys := { s.keys with seq := s.keys.seq + 1 } }
    pure (aad ++ payload)

/-- The end of `decrypt_record`, after the checks on the record. -/
def openInner (A : AeadCrates) (suite : CipherSuite) (aad ct : List Byte)
    (tag : Buf 16) (contentLen outLen : ℕ) :
    Prog DirectionalKeys TlsError (List Byte) := do
  let keys ← get
  Prog.exitIf (keys.seq = seqMax) .sequenceExhausted
  let nonce := buildNonce keys.iv keys.seq
  match aeadDecrypt A suite keys.key nonce aad ct tag with
  | .error e => throw e
  | .ok inner =>
    Prog.exitIf (inner.toMem contentLen ≠ ctApplicationData) .badMessage
    Prog.exitIf (outLen < contentLen) .bufferTooSmall
    modify fun keys => { keys with seq := keys.seq + 1 }
    pure (inner.slice 0 contentLen)

/-- `decrypt_record` into a buffer of `outLen` octets, on the keys of a
receiver. -/
def decryptInPlace (A : AeadCrates) (suite : CipherSuite)
    (record : List Byte) (outLen : ℕ) :
    Prog DirectionalKeys TlsError (List Byte) := do
  Prog.exitIf (record.length < recordHeaderLen + 1 + aeadTagLen) .badMessage
  Prog.exitIf (record.take 1 ≠ [ctApplicationData]) .badMessage
  Prog.exitIf ((record.drop 1).take 2 ≠ [0x03, 0x03]) .badMessage
  let length := ofLe ((record.drop 3).take 2).reverse
  Prog.exitIf (recordHeaderLen + length ≠ record.length) .badMessage
  Prog.exitIf (length < aeadTagLen + 1) .badMessage
  let ctLen := length - aeadTagLen
  Prog.exitIf (maxPlaintextLen + 1 < ctLen) .bufferTooSmall
  let aad := record.take recordHeaderLen
  let ct := (record.drop recordHeaderLen).take ctLen
  let tag := Buf.ofList 16 (record.drop (recordHeaderLen + ctLen))
  openInner A suite aad ct tag (ctLen - 1) outLen

/-- `encrypt_record` for a caller that keeps its keys on an error. -/
def encryptRecord (A : AeadCrates) (keys : DirectionalKeys)
    (suite : CipherSuite) (plaintext : List Byte) (outLen : ℕ) :
    Except TlsError (List Byte × DirectionalKeys) := do
  let (record, s) ← (encryptInPlace A suite plaintext outLen).result ⟨keys, []⟩
  pure (record, s.keys)

/-- `decrypt_record` for a caller that keeps its keys on an error. -/
def decryptRecord (A : AeadCrates) (keys : DirectionalKeys)
    (suite : CipherSuite) (record : List Byte) (outLen : ℕ) :
    Except TlsError (List Byte × DirectionalKeys) :=
  (decryptInPlace A suite record outLen).result keys

end IsoLightK0
