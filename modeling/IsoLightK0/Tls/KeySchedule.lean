import IsoLightK0.Crypto.Hkdf
import IsoLightK0.Tls.Model

/-!
# The key schedule

`tls/keyschedule.rs` and the driver interface of `hsm.rs`.  The functions that
fill a `ScheduleSecrets` return the updated record.
-/

namespace IsoLightK0

open Bytes

inductive HsmError
  | pskNotFound
  | notProvisioned
  | internal
  deriving DecidableEq, Repr

/-- `From<HsmError> for TlsError`. -/
def HsmError.toTlsError : HsmError → TlsError
  | .pskNotFound => .unknownPsk
  | _ => .hsmFailure

/-- The part of `HsmDriver` that the handshake uses. -/
structure HsmDriver where
  pskExists : PskId → Bool
  pskHkdfExtract : PskId → List Byte → Except HsmError (Buf 32)

/-- A byte string literal. -/
def ascii (text : List Char) : List Byte :=
  text.map fun c => BitVec.ofNat 8 c.toNat

/-- The size of the buffer in which `hkdf_expand_label` encodes its label. -/
def labelBufLen : ℕ := 128

variable (sha256 : List Byte → Buf 32)

/-- `hkdf_expand_label` into `outLen` octets.  A label that does not fit the
buffer makes it panic. -/
def hkdfExpandLabel (secret : Buf 32) (label context : List Byte)
    (outLen : ℕ) : Except TlsStop (List Byte) :=
  if 255 < 6 + label.length ∨ 255 < context.length then
    .error (.error .internal)
  else if 65535 < outLen then
    .error (.error .internal)
  else if labelBufLen ≤ 9 + label.length then
    .error .stuck
  else if labelBufLen < 10 + label.length + context.length then
    .error (.error .internal)
  else
    let info := (toLe 2 outLen).reverse ++
      [BitVec.ofNat 8 (6 + label.length)] ++
      ascii ['t', 'l', 's', '1', '3', ' '] ++ label ++
      [BitVec.ofNat 8 context.length] ++ context
    match hkdfExpand sha256 secret info outLen with
    | none => .error (.error .internal)
    | some okm => .ok okm

def deriveSecret (prk : Buf 32) (label : List Byte)
    (transcriptHash : Buf 32) : Except TlsStop (Buf 32) := do
  let okm ← hkdfExpandLabel sha256 prk label transcriptHash.toList 32
  pure (Buf.ofList 32 okm)

structure ScheduleSecrets where
  early : Buf 32
  handshake : Buf 32
  master : Buf 32
  clientHandshakeTraffic : Buf 32
  serverHandshakeTraffic : Buf 32
  clientApplicationTraffic0 : Buf 32
  serverApplicationTraffic0 : Buf 32
  binderKey : Buf 32

def ScheduleSecrets.empty : ScheduleSecrets :=
  ⟨Buf.zero, Buf.zero, Buf.zero, Buf.zero, Buf.zero, Buf.zero, Buf.zero,
    Buf.zero⟩

def zeroHash : List Byte := List.replicate 32 0

def deriveEarlySecrets (hsm : HsmDriver) (pskId : PskId)
    (out : ScheduleSecrets) : Except TlsStop ScheduleSecrets :=
  match hsm.pskHkdfExtract pskId zeroHash with
  | .error e => .error (.error e.toTlsError)
  | .ok early => do
      let binderKey ← deriveSecret sha256 early
        (ascii ['e', 'x', 't', ' ', 'b', 'i', 'n', 'd', 'e', 'r']) (sha256 [])
      pure { out with early := early, binderKey := binderKey }

def derivedLabel : List Byte :=
  ascii ['d', 'e', 'r', 'i', 'v', 'e', 'd']

def deriveHandshakeSecrets (secrets : ScheduleSecrets)
    (ecdheSs : List Byte) (hash : Buf 32) (policy : KexPolicy) :
    Except TlsStop ScheduleSecrets := do
  let expected :=
    match policy with
    | .classical => 32
    | .hybrid => 32 + 32
  if ecdheSs.length ≠ expected then
    throw (.error .kexPolicyMismatch)
  let earlyDerived ← deriveSecret sha256 secrets.early derivedLabel
    (sha256 [])
  let handshake := hkdfExtract sha256 earlyDerived.toList ecdheSs
  let client ← deriveSecret sha256 handshake
    (ascii ['c', ' ', 'h', 's', ' ', 't', 'r', 'a', 'f', 'f', 'i', 'c']) hash
  let server ← deriveSecret sha256 handshake
    (ascii ['s', ' ', 'h', 's', ' ', 't', 'r', 'a', 'f', 'f', 'i', 'c']) hash
  pure
    { secrets with
      handshake := handshake
      clientHandshakeTraffic := client
      serverHandshakeTraffic := server }

def deriveMasterAndAppSecrets (secrets : ScheduleSecrets) (hash : Buf 32) :
    Except TlsStop ScheduleSecrets := do
  let hsDerived ← deriveSecret sha256 secrets.handshake derivedLabel
    (sha256 [])
  let master := hkdfExtract sha256 hsDerived.toList zeroHash
  let client ← deriveSecret sha256 master
    (ascii ['c', ' ', 'a', 'p', ' ', 't', 'r', 'a', 'f', 'f', 'i', 'c']) hash
  let server ← deriveSecret sha256 master
    (ascii ['s', ' ', 'a', 'p', ' ', 't', 'r', 'a', 'f', 'f', 'i', 'c']) hash
  pure
    { secrets with
      master := master
      clientApplicationTraffic0 := client
      serverApplicationTraffic0 := server }

/-- `derive_traffic_keys`; the suite is not used. -/
def deriveTrafficKeys (trafficSecret : Buf 32) :
    Except TlsStop (Buf 32 × Buf 12) := do
  let key ← hkdfExpandLabel sha256 trafficSecret (ascii ['k', 'e', 'y']) [] 32
  let iv ← hkdfExpandLabel sha256 trafficSecret (ascii ['i', 'v']) [] 12
  pure (Buf.ofList 32 key, Buf.ofList 12 iv)

def deriveFinishedKey (trafficSecret : Buf 32) : Except TlsStop (Buf 32) := do
  let key ← hkdfExpandLabel sha256 trafficSecret
    (ascii ['f', 'i', 'n', 'i', 's', 'h', 'e', 'd']) [] 32
  pure (Buf.ofList 32 key)

def computeVerifyData (finishedKey transcriptHash : Buf 32) : Buf 32 :=
  hmacSha256Multi sha256 finishedKey.toList [transcriptHash.toList]

def computeBinder (binderKey hash : Buf 32) : Except TlsStop (Buf 32) := do
  let finishedKey ← deriveFinishedKey sha256 binderKey
  pure (computeVerifyData sha256 finishedKey hash)

def ctEqBytes (a b : List Byte) : Bool :=
  if a.length ≠ b.length then false
  else (a.zip b).foldl (fun diff p => diff ||| (p.1 ^^^ p.2)) 0 = (0 : Byte)

end IsoLightK0
