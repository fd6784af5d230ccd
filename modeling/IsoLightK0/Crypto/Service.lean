import IsoLightK0.Crypto.Hkdf
import IsoLightK0.Crypto.Payload
import IsoLightK0.Ipc.Registry

/-!
# The cryptographic service

The handlers of `crypto_service.rs` and its dispatcher.  A handler reads the
octets of a request by lengths that the request names, checks them against its
own limits and writes a reply.  Every access to a buffer is checked as Rust
checks it.

The algorithms come from external crates and are parameters.  The sizes of
digests, signatures and shared secrets are part of their types; a cipher writes
as many octets as it is given.
-/

namespace IsoLightK0

open Bytes Faults

/-- A cipher with associated data, keys of 32 octets and nonces of 12. -/
structure Aead where
  encrypt : Buf 32 → Buf 12 → List Byte → List Byte →
    Option (List Byte × Buf 16)
  decrypt : Buf 32 → Buf 12 → List Byte → List Byte → Buf 16 →
    Option (List Byte)
  length_encrypt : ∀ {key nonce aad text cipher tag},
    encrypt key nonce aad text = some (cipher, tag) →
      cipher.length = text.length
  length_decrypt : ∀ {key nonce aad cipher tag text},
    decrypt key nonce aad cipher tag = some text →
      text.length = cipher.length

def Aead.Correct (aead : Aead) : Prop :=
  ∀ key nonce aad text cipher tag,
    aead.encrypt key nonce aad text = some (cipher, tag) →
      aead.decrypt key nonce aad cipher tag = some text

/-- The crates behind the handlers. -/
structure CryptoCrates where
  aes256Gcm : Aead
  chacha20Poly1305 : Aead
  sha256 : List Byte → Buf 32
  blake3 : List Byte → Option (Buf 32)
  sha3_256 : List Byte → Buf 32
  sha3_512 : List Byte → Buf 64
  ed25519Sign : List Byte → Buf 32 → Buf 64
  ed25519Verify : List Byte → Buf 64 → Buf 32 → Bool
  ed448Sign : List Byte → Buf 57 → Buf 114
  ed448Verify : List Byte → Buf 114 → Buf 57 → Bool
  x448DiffieHellman : Buf 56 → Buf 56 → Option (Buf 56)

def Aead.plain : Aead where
  encrypt _ _ _ text := some (text, Buf.zero)
  decrypt _ _ _ cipher _ := some cipher
  length_encrypt h := by
    cases h
    rfl
  length_decrypt h := by
    cases h
    rfl

def CryptoCrates.plain : CryptoCrates where
  aes256Gcm := .plain
  chacha20Poly1305 := .plain
  sha256 _ := Buf.zero
  blake3 _ := none
  sha3_256 _ := Buf.zero
  sha3_512 _ := Buf.zero
  ed25519Sign _ _ := Buf.zero
  ed25519Verify _ _ _ := false
  ed448Sign _ _ := Buf.zero
  ed448Verify _ _ _ := false
  x448DiffieHellman _ _ := none

variable (C : CryptoCrates)

/-! ## Authenticated encryption -/

-- decided along the list and not over all octets
instance decidableAllZero (octets : List Byte) :
    Decidable (∀ b ∈ octets, b = 0) :=
  List.decidableBAll (· = 0) octets

/-- The lines that the functions of the two ciphers begin with. -/
def CryptoPayload.keyAndNonce (req : CryptoPayload) :
    Checked CryptoError (Buf 32 × Buf 12) := do
  refuseIf (req.keyLen.toNat ≠ 32) .invalidKeyLength
  refuseIf (req.nonceLen.toNat ≠ 12) .invalidNonceLength
  let key ← toArray 32 (← range req.key 0 32)
  let nonce ← toArray 12 (← range req.nonce 0 12)
  .ok (key, nonce)

/-- The body of `encrypt_aes256gcm` and `encrypt_chacha20poly`: the length of
the ciphertext, the ciphertext buffer and the tag. -/
def Aead.encryptRequest (aead : Aead) (req : CryptoPayload)
    (plaintext : Buf cryptoDataLen) (ptLen : ℕ)
    (ciphertext : Buf cryptoDataLen) :
    Checked CryptoError (ℕ × Buf cryptoDataLen × Buf 16) := do
  let (key, nonce) ← req.keyAndNonce
  refuseIf (∀ b ∈ nonce.toList, b = 0) .weakNonce
  let text ← range plaintext 0 ptLen
  let result ← orRefuse .invalidDataLength (aead.encrypt key nonce [] text)
  let ciphertext ← copyRange ciphertext 0 ptLen result.1
  .ok (ptLen, ciphertext, result.2)

def encryptAes256gcm := C.aes256Gcm.encryptRequest

def encryptChacha20poly := C.chacha20Poly1305.encryptRequest

/-- The body of `decrypt_aes256gcm` and `decrypt_chacha20poly`: the plaintext
buffer. -/
def Aead.decryptRequest (aead : Aead) (req : CryptoPayload)
    (ciphertext : Buf cryptoDataLen) (ctLen : ℕ) (tag : Buf 16)
    (plaintext : Buf cryptoDataLen) :
    Checked CryptoError (Buf cryptoDataLen) := do
  let (key, nonce) ← req.keyAndNonce
  let cipher ← range ciphertext 0 ctLen
  let text ← orRefuse .authenticationFailed
    (aead.decrypt key nonce [] cipher tag)
  copyRange plaintext 0 ctLen text

def decryptAes256gcm := C.aes256Gcm.decryptRequest

def decryptChacha20poly := C.chacha20Poly1305.decryptRequest

/-- The choice of the cipher in `handle_encrypt`. -/
def encryptBy (algo : CryptoAlgo) (req : CryptoPayload)
    (plaintext : Buf cryptoDataLen) (ptLen : ℕ) :
    Checked CryptoError (ℕ × Buf cryptoDataLen × Buf 16) :=
  match algo with
  | .aes256Gcm => encryptAes256gcm C req plaintext ptLen Buf.zero
  | .chaCha20Poly => encryptChacha20poly C req plaintext ptLen Buf.zero
  | _ => refuse .unknownAlgorithm

def handleEncrypt (req : CryptoPayload) (reply : Buf ipcMaxPayload) :
    Checked CryptoError (Buf ipcMaxPayload) := do
  let algo ← parseAlgo req.algo
  let dataLen := req.dataLen.toNat
  refuseIf (cryptoDataLen < dataLen) .invalidDataLength
  let plaintext ← copyRange Buf.zero 0 dataLen (← range req.data 0 dataLen)
  let result ← encryptBy C algo req plaintext dataLen
  let ctLen := result.1
  let total := ctLen + gcmTagSize
  refuseIf (cryptoDataLen < total) .outputTooLarge
  let out ← copyRange (Buf.zero : Buf cryptoDataLen) 0 ctLen
    (← range result.2.1 0 ctLen)
  let out ← copyRange out ctLen total result.2.2.toList
  writeOkReply reply req.algo (← range out 0 total)

/-- The choice of the cipher in `handle_decrypt`. -/
def decryptBy (algo : CryptoAlgo) (req : CryptoPayload)
    (ciphertext : Buf cryptoDataLen) (ctLen : ℕ) (tag : Buf 16) :
    Checked CryptoError (Buf cryptoDataLen) :=
  match algo with
  | .aes256Gcm => decryptAes256gcm C req ciphertext ctLen tag Buf.zero
  | .chaCha20Poly => decryptChacha20poly C req ciphertext ctLen tag Buf.zero
  | _ => refuse .unknownAlgorithm

def handleDecrypt (req : CryptoPayload) (reply : Buf ipcMaxPayload) :
    Checked CryptoError (Buf ipcMaxPayload) := do
  let algo ← parseAlgo req.algo
  let dataLen := req.dataLen.toNat
  refuseIf (¬ (gcmTagSize ≤ dataLen ∧ dataLen ≤ cryptoDataLen))
    .invalidDataLength
  let ctLen := dataLen - gcmTagSize
  let tag ← toArray 16 (← range req.data ctLen dataLen)
  let ciphertext ← copyRange Buf.zero 0 ctLen (← range req.data 0 ctLen)
  let plaintext ← decryptBy C algo req ciphertext ctLen tag
  writeOkReply reply req.algo (← range plaintext 0 ctLen)

def handleHash (req : CryptoPayload) (reply : Buf ipcMaxPayload) :
    Checked CryptoError (Buf ipcMaxPayload) := do
  let algo ← parseAlgo req.algo
  let dataLen := req.dataLen.toNat
  refuseIf (cryptoDataLen < dataLen) .invalidDataLength
  let msg ← range req.data 0 dataLen
  match algo with
  | .hmacSha256 =>
    let keyLen := req.keyLen.toNat
    refuseIf (sha256BlockSize < keyLen) .invalidKeyLength
    let key ← copyRange (Buf.zero : Buf sha256BlockSize) 0 keyLen
      (← range req.key 0 keyLen)
    let digest :=
      hmacSha256Multi C.sha256 (← range key 0 keyLen) [msg]
    writeOkReply reply req.algo digest.toList
  | .blake3 =>
    let digest ← orRefuse .invalidRequest (C.blake3 msg)
    let out ← toArray 32 (← range digest 0 32)
    writeOkReply reply req.algo out.toList
  | .sha3_256 =>
    let out ← toArray 32 (← range (C.sha3_256 msg) 0 32)
    writeOkReply reply req.algo out.toList
  | .sha3_512 =>
    let out ← toArray 64 (← range (C.sha3_512 msg) 0 64)
    writeOkReply reply req.algo out.toList
  | _ => refuse .unknownAlgorithm

/-- `handle_kdf`.  The first two octets of the data are the length of the
derived key, the others the context. -/
def handleKdf (req : CryptoPayload) (reply : Buf ipcMaxPayload) :
    Checked CryptoError (Buf ipcMaxPayload) := do
  let algo ← parseAlgo req.algo
  refuseIf (algo ≠ .hkdfSha256) .unknownAlgorithm
  let keyLen := req.keyLen.toNat
  let nonceLen := req.nonceLen.toNat
  let dataLen := req.dataLen.toNat
  refuseIf (32 < keyLen) .invalidKeyLength
  refuseIf (12 < nonceLen) .invalidNonceLength
  refuseIf (¬ (2 ≤ dataLen ∧ dataLen ≤ cryptoDataLen)) .invalidDataLength
  let okmLen := ofLe (← range req.data 0 2)
  refuseIf (okmLen = 0 ∨ hkdfMaxOutput < okmLen) .outputTooLarge
  let info ← range req.data 2 dataLen
  let ikm ← copyRange (Buf.zero : Buf 32) 0 keyLen (← range req.key 0 keyLen)
  let salt ← range req.nonce 0 nonceLen
  let prk := hkdfExtract C.sha256 salt (← range ikm 0 keyLen)
  let expanded ← orRefuse .outputTooLarge
    (hkdfExpand C.sha256 prk info okmLen)
  let okm ← copyRange (Buf.zero : Buf hkdfMaxOutput) 0 okmLen expanded
  writeOkReply reply req.algo (← range okm 0 okmLen)

def handleSign (req : CryptoPayload) (reply : Buf ipcMaxPayload) :
    Checked CryptoError (Buf ipcMaxPayload) := do
  let algo ← parseAlgo req.algo
  let dataLen := req.dataLen.toNat
  refuseIf (cryptoDataLen < dataLen) .invalidDataLength
  match algo with
  | .ed25519Sign =>
    refuseIf (req.keyLen.toNat ≠ 32) .invalidKeyLength
    let sk ← toArray 32 (← range req.key 0 32)
    let sig := C.ed25519Sign (← range req.data 0 dataLen) sk
    writeOkReply reply req.algo sig.toList
  | .ed448Sign =>
    refuseIf (req.keyLen.toNat ≠ 57) .invalidKeyLength
    let sk ← orRefuse .invalidKeyLength (asArray 57 (← range req.key 0 57))
    let sig := C.ed448Sign (← range req.data 0 dataLen) sk
    writeOkReply reply req.algo sig.toList
  | _ => refuse .unknownAlgorithm

/-- The two branches of `handle_verify`: the data is a signature followed by
the message. -/
def verifyRequest {pkSize sigSize : ℕ}
    (verify : List Byte → Buf sigSize → Buf pkSize → Bool)
    (req : CryptoPayload) (reply : Buf ipcMaxPayload) :
    Checked CryptoError (Buf ipcMaxPayload) := do
  let dataLen := req.dataLen.toNat
  refuseIf (req.keyLen.toNat ≠ pkSize) .invalidKeyLength
  refuseIf (dataLen < sigSize) .invalidDataLength
  refuseIf (cryptoDataLen < dataLen) .invalidDataLength
  let pk ← orRefuse .invalidKeyLength
    (asArray pkSize (← range req.key 0 pkSize))
  let sig ← orRefuse .invalidDataLength
    (asArray sigSize (← range req.data 0 sigSize))
  let msg ← range req.data sigSize dataLen
  if verify msg sig pk then writeOkReply reply req.algo [1]
  else refuse .authenticationFailed

def handleVerify (req : CryptoPayload) (reply : Buf ipcMaxPayload) :
    Checked CryptoError (Buf ipcMaxPayload) := do
  let algo ← parseAlgo req.algo
  match algo with
  | .ed25519Verify => verifyRequest C.ed25519Verify req reply
  | .ed448Verify => verifyRequest C.ed448Verify req reply
  | _ => refuse .unknownAlgorithm

def handleDh (req : CryptoPayload) (reply : Buf ipcMaxPayload) :
    Checked CryptoError (Buf ipcMaxPayload) := do
  let algo ← parseAlgo req.algo
  match algo with
  | .x448Dh =>
    refuseIf (req.keyLen.toNat ≠ 56) .invalidKeyLength
    refuseIf (req.dataLen.toNat ≠ 56) .invalidDataLength
    let sk ← orRefuse .invalidKeyLength (asArray 56 (← range req.key 0 56))
    let pk ← orRefuse .invalidDataLength
      (asArray 56 (← range req.data 0 56))
    let shared ← orRefuse .authenticationFailed (C.x448DiffieHellman sk pk)
    writeOkReply reply req.algo shared.toList
  | _ => refuse .unknownAlgorithm

/-- Steps 2 to 4 of `dispatch`: the type of a successful reply, and the result
of the handler. -/
def cryptoResult (msg : IpcMessage) :
    MessageType × Checked CryptoError (Buf ipcMaxPayload) :=
  match parseRequest msg with
  | .error e => (.error, .error e)
  | .ok req =>
    match msg.header.msgType with
    | .encryptReq => (.encryptResp, handleEncrypt C req Buf.zero)
    | .decryptReq => (.decryptResp, handleDecrypt C req Buf.zero)
    | .hashReq => (.hashResp, handleHash C req Buf.zero)
    | .keyDeriveReq => (.keyDeriveResp, handleKdf C req Buf.zero)
    | .signReq => (.signResp, handleSign C req Buf.zero)
    | .verifyReq => (.verifyResp, handleVerify C req Buf.zero)
    | .dhReq => (.dhResp, handleDh C req Buf.zero)
    | _ => (.error, refuse .invalidRequest)

/-- The reply that `dispatch` posts.  After an error the reply buffer is zeroed
before the error is written, whatever a handler has left there. -/
def cryptoReply (msg : IpcMessage) : Option (MessageType × List Byte) :=
  match cryptoResult C msg with
  | (replyType, .ok reply) => some (replyType, reply.slice 0 ipcMaxPayload)
  | (_, .error (.refused e)) =>
    some (.error, (writeErrorReply Buf.zero e).slice 0 1)
  | (_, .error .fault) => none

/-- `crypto_service` as a kernel service; it has no state of its own. -/
def cryptoKernelService {σ : Type} : KernelService σ := fun state msg =>
  (cryptoReply C msg).map fun reply => (reply, state)

end IsoLightK0
