import IsoLightK0.Tls.KeySchedule
import IsoLightK0.Tls.Record

/-!
# The loopback handshake

`tls/handshake.rs`: both ends of a PSK handshake run in one kernel, on two
slots of the pool.  `do_handshake` is cut along the numbered sections of the
source, in their order; the draws from the DRBG and the exits stand where the
source has them.  The message buffers and the secrets are local values, so
their wiping does not appear.
-/

namespace IsoLightK0

open Bytes Triples TlsProg

def mlkem768PkLen : ℕ := 1184

def mlkem768DkLen : ℕ := 2400

def mlkem768CtLen : ℕ := 1088

/-- The functions of the external crates.  An X25519 secret key is the seed it
is made from. -/
structure TlsCrates where
  sha256 : List Byte → Buf 32
  x25519PublicKey : Buf 32 → Buf 32
  x25519DiffieHellman : Buf 32 → Buf 32 → Option (Buf 32)
  mlkem768Keygen : Buf 32 → Buf 32 → Buf mlkem768PkLen × Buf mlkem768DkLen
  mlkem768Encaps : Buf mlkem768PkLen → Buf 32 →
    Option (Buf mlkem768CtLen × Buf 32)
  mlkem768Decaps : Buf mlkem768CtLen → Buf mlkem768DkLen → Buf 32
  aead : AeadCrates

def hsTypeClientHello : Byte := 1

def hsTypeServerHello : Byte := 2

def hsTypeFinished : Byte := 20

def hsHeaderLen : ℕ := 4

def chFixedPrefixLen : ℕ := 16 + 32 + 1 + 1 + 32

def shFixedLen : ℕ := 32 + 1 + 32

/-- `write_handshake_header` into a buffer of `bufLen` octets. -/
def writeHandshakeHeader (bufLen : ℕ) (hsType : Byte) (payloadLen : ℕ) :
    Except TlsStop (List Byte) :=
  if 0x00FFFFFF < payloadLen then .error (.error .internal)
  else if bufLen < hsHeaderLen then .error (.error .bufferTooSmall)
  else .ok (hsType :: (toLe 3 payloadLen).reverse)

def KexPolicy.code : KexPolicy → Byte
  | .hybrid => 1
  | .classical => 0

/-- An octet count that only the hybrid policy adds. -/
def KexPolicy.extra (policy : KexPolicy) (len : ℕ) : ℕ :=
  match policy with
  | .hybrid => len
  | .classical => 0

def updateTranscript (h : ConnHandle) (msg : List Byte) : TlsProg Unit :=
  withSlot h fun c =>
    match c.transcript.update msg with
    | .error e => .error (.error e)
    | .ok transcript => .ok ((), { c with transcript := transcript })

/-- The same message into the transcripts of both ends. -/
def updateTranscripts (clientH serverH : ConnHandle) (msg : List Byte) :
    TlsProg Unit := do
  updateTranscript clientH msg
  updateTranscript serverH msg

variable (T : TlsCrates)

def transcriptHash (h : ConnHandle) : TlsProg (Buf 32) := do
  let (_, c) ← slot h
  pure (c.transcript.snapshot T.sha256)

/-- The ephemeral keys of both ends. -/
structure Ephemeral where
  clientSk : Buf 32
  serverSk : Buf 32
  mlkemKp : Option (Buf mlkem768PkLen × Buf mlkem768DkLen)

/-- Section 1. -/
def ephemeralKeys (policy : KexPolicy) : TlsProg Ephemeral := do
  let cSeed ← randBytes32
  let sSeed ← randBytes32
  match policy with
  | .hybrid => do
      let d ← randBytes32
      let z ← randBytes32
      pure ⟨cSeed, sSeed, some (T.mlkem768Keygen d z)⟩
  | .classical => pure ⟨cSeed, sSeed, none⟩

/-- The hash of the client hello up to its binder. -/
def truncatedHash (truncated : List Byte) : Except TlsStop (Buf 32) :=
  match Transcript.new.update truncated with
  | .error e => .error (.error e)
  | .ok transcript => .ok (transcript.snapshot T.sha256)

/-- Sections 4 and 5: the client hello, whose binder the server recomputes. -/
def clientHello (policy : KexPolicy) (suite : CipherSuite) (pskId : PskId)
    (keys : Ephemeral) (cSecrets sSecrets : ScheduleSecrets) :
    TlsProg (List Byte) := do
  let payloadLen := chFixedPrefixLen + policy.extra mlkem768PkLen + 1 + 32
  let header ← compute (writeHandshakeHeader
    (hsHeaderLen + chFixedPrefixLen + mlkem768PkLen + 1 + 32)
    hsTypeClientHello payloadLen)
  let clientRandom ← randBytes32
  let ek :=
    match keys.mlkemKp with
    | some kp => kp.1.toList
    | none => []
  let truncated := header ++ pskId.toList ++ clientRandom.toList ++
    [suite.code, policy.code] ++
    (T.x25519PublicKey keys.clientSk).toList ++ ek
  let hash ← compute (truncatedHash T truncated)
  let binder ← compute (computeBinder T.sha256 cSecrets.binderKey hash)
  let expected ← compute (computeBinder T.sha256 sSecrets.binderKey hash)
  failIf (ctEqBytes binder.toList expected.toList = false) .finishedMismatch
  pure (truncated ++ [32] ++ binder.toList)

/-- Sections 7 and 8: the server hello and the shared secret. -/
def serverHello (policy : KexPolicy) (suite : CipherSuite)
    (keys : Ephemeral) : TlsProg (List Byte × List Byte) := do
  let payloadLen := shFixedLen + policy.extra mlkem768CtLen
  let header ← compute (writeHandshakeHeader
    (hsHeaderLen + shFixedLen + mlkem768CtLen) hsTypeServerHello payloadLen)
  let serverRandom ← randBytes32
  let clientPk := T.x25519PublicKey keys.clientSk
  let serverPk := T.x25519PublicKey keys.serverSk
  let sh := header ++ serverRandom.toList ++ [suite.code] ++ serverPk.toList
  match T.x25519DiffieHellman keys.clientSk serverPk with
  | none => fail .internal
  | some clientSs =>
    match T.x25519DiffieHellman keys.serverSk clientPk with
    | none => fail .internal
    | some serverSs => do
        failIf (ctEqBytes clientSs.toList serverSs.toList = false) .internal
        match policy with
        | .classical => pure (sh, clientSs.toList)
        | .hybrid =>
          match keys.mlkemKp with
          | none => fail .internal
          | some (ek, dk) => do
              let m ← randBytes32
              match T.mlkem768Encaps ek m with
              | none => fail .internal
              | some (ct, kemServer) => do
                  let kemClient := T.mlkem768Decaps ct dk
                  failIf (ctEqBytes kemClient.toList
                    kemServer.toList = false) .internal
                  pure (sh ++ ct.toList,
                    clientSs.toList ++ kemClient.toList)

/-- Sections 10 and 11: one end sends its verify data and the other end
recomputes them from its own secret. -/
def exchangeFinished (clientH serverH : ConnHandle)
    (sender receiver hash : Buf 32) : TlsProg Unit := do
  let finKey ← compute (deriveFinishedKey T.sha256 sender)
  let verify := computeVerifyData T.sha256 finKey hash
  let header ← compute
    (writeHandshakeHeader (hsHeaderLen + 32) hsTypeFinished 32)
  let viewKey ← compute (deriveFinishedKey T.sha256 receiver)
  let expected := computeVerifyData T.sha256 viewKey hash
  failIf (ctEqBytes verify.toList expected.toList = false) .finishedMismatch
  updateTranscripts clientH serverH (header ++ verify.toList)

/-- Section 13, for one end: install the application keys. -/
def installKeys (h : ConnHandle) (writeSecret readSecret : Buf 32) :
    TlsProg Unit :=
  withSlot h fun c => do
    let (writeKey, writeIv) ← deriveTrafficKeys T.sha256 writeSecret
    let (readKey, readIv) ← deriveTrafficKeys T.sha256 readSecret
    pure ((),
      { c with
        appWrite := ⟨writeKey, writeIv, 0⟩
        appRead := ⟨readKey, readIv, 0⟩
        state := .connected })

/-- `do_handshake` with a driver that need not answer twice alike: `clientHsm`
stands for its answers to the questions of the client's end, `serverHsm` for
its answer to the server's end. -/
def doHandshakeBy (clientHsm serverHsm : HsmDriver)
    (clientH serverH : ConnHandle) (policy : KexPolicy) (suite : CipherSuite)
    (pskId : PskId) : TlsProg Unit := do
  let keys ← ephemeralKeys T policy
  failIf (clientHsm.pskExists pskId = false) .unknownPsk
  let cEarly ← compute (deriveEarlySecrets T.sha256 clientHsm pskId .empty)
  let sEarly ← compute (deriveEarlySecrets T.sha256 serverHsm pskId .empty)
  let ch ← clientHello T policy suite pskId keys cEarly sEarly
  updateTranscripts clientH serverH ch
  let (sh, ecdheSs) ← serverHello T policy suite keys
  updateTranscripts clientH serverH sh
  let hChSh ← transcriptHash T clientH
  let cHs ← compute
    (deriveHandshakeSecrets T.sha256 cEarly ecdheSs hChSh policy)
  let sHs ← compute
    (deriveHandshakeSecrets T.sha256 sEarly ecdheSs hChSh policy)
  exchangeFinished T clientH serverH sHs.serverHandshakeTraffic
    cHs.serverHandshakeTraffic hChSh
  let hChSf ← transcriptHash T clientH
  exchangeFinished T clientH serverH cHs.clientHandshakeTraffic
    sHs.clientHandshakeTraffic hChSf
  let hChCf ← transcriptHash T clientH
  let cApp ← compute (deriveMasterAndAppSecrets T.sha256 cHs hChCf)
  let sApp ← compute (deriveMasterAndAppSecrets T.sha256 sHs hChCf)
  installKeys T clientH cApp.clientApplicationTraffic0
    cApp.serverApplicationTraffic0
  installKeys T serverH sApp.serverApplicationTraffic0
    sApp.clientApplicationTraffic0

/-- `do_handshake` with a driver whose answers are functions of the
questions. -/
def doHandshake (hsm : HsmDriver) (clientH serverH : ConnHandle)
    (policy : KexPolicy) (suite : CipherSuite) (pskId : PskId) :
    TlsProg Unit :=
  doHandshakeBy T hsm hsm clientH serverH policy suite pskId

/-! ## The public operations -/

/-- The fields that `run_loopback` assigns to a slot it has allocated. -/
def TlsConnection.openAs (c : TlsConnection) (side : TlsSide)
    (profile : TlsProfile) (policy : KexPolicy) (suite : CipherSuite)
    (pskId : PskId) : TlsConnection :=
  { c with
    state := .handshaking
    side := side
    profile := profile
    policy := policy
    suite := suite
    pskId := pskId }

/-- The match on the profile at the head of `run_loopback`; both arms are
empty. -/
def checkProfile : TlsProfile → TlsProg Unit
  | .closed => pure ()
  | .external => pure ()

/-- `run_loopback`, with the driver's answers as in `doHandshakeBy`.  When
there is no second slot, the first one is only marked free. -/
def runLoopbackBy (clientHsm serverHsm : HsmDriver) (profile : TlsProfile)
    (policy : KexPolicy) (suite : CipherSuite) (pskId : PskId) :
    TlsProg (ConnHandle × ConnHandle) := do
  checkProfile profile
  let clientH ← allocSlot
  updateSlot clientH fun c => c.openAs .client profile policy suite pskId
  match ← allocSlot.attempt with
  | .error e => do
      updateSlot clientH fun c => { c with state := .free }
      throw e
  | .ok serverH => do
      updateSlot serverH fun c => c.openAs .server profile policy suite pskId
      match ← (doHandshakeBy T clientHsm serverHsm clientH serverH policy suite
          pskId).attempt with
      | .error e => do
          let _ ← (close clientH).attempt
          let _ ← (close serverH).attempt
          throw e
      | .ok () => pure (clientH, serverH)

/-- `run_loopback` with a driver whose answers are functions of the
questions. -/
def runLoopback (hsm : HsmDriver) (profile : TlsProfile)
    (policy : KexPolicy) (suite : CipherSuite) (pskId : PskId) :
    TlsProg (ConnHandle × ConnHandle) :=
  runLoopbackBy T hsm hsm profile policy suite pskId

/-- Protect or open a record with the connection that a handle names, which
must be connected. -/
def withConnected {α : Type} (h : ConnHandle)
    (f : TlsConnection → Except TlsError (α × TlsConnection)) : TlsProg α :=
  withSlot h fun c =>
    if c.state ≠ .connected then .error (.error .unexpectedState)
    else (f c).mapError .error

/-- `loopback_send_recv` into a buffer of `outLen` octets; both directions use
the suite of the sender. -/
def loopbackSendRecv (sender receiver : ConnHandle) (plaintext : List Byte)
    (outLen : ℕ) : TlsProg (List Byte) := do
  let (_, c) ← slot sender
  let suite := c.suite
  let record ← withConnected sender fun f => do
    let (record, keys) ← encryptRecord T.aead f.appWrite suite plaintext 256
    pure (record, { f with appWrite := keys })
  withConnected receiver fun t => do
    let (content, keys) ← decryptRecord T.aead t.appRead suite record outLen
    pure (content, { t with appRead := keys })

/-- Crates that deliver zeros, and AEADs that open nothing. -/
def TlsCrates.constant : TlsCrates where
  sha256 := fun _ => Buf.zero
  x25519PublicKey := fun _ => Buf.zero
  x25519DiffieHellman := fun _ _ => some Buf.zero
  mlkem768Keygen := fun _ _ => (Buf.zero, Buf.zero)
  mlkem768Encaps := fun _ _ => some (Buf.zero, Buf.zero)
  mlkem768Decaps := fun _ _ => Buf.zero
  aead :=
    { gcmEncrypt := fun _ _ _ _ => (Buf.zero, Buf.zero)
      gcmDecrypt := fun _ _ _ _ _ => none
      chachaEncrypt := fun _ _ _ _ => none
      chachaDecrypt := fun _ _ _ _ _ => none }

/-- A driver that knows every PSK. -/
def HsmDriver.accepting : HsmDriver where
  pskExists := fun _ => true
  pskHkdfExtract := fun _ _ => .ok Buf.zero

end IsoLightK0
