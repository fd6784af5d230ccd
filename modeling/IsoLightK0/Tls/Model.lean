import IsoLightK0.Capability.Drbg
import IsoLightK0.Support.Triples

/-!
# TLS connections and their pool

`tls/mod.rs` and `tls/transcript.rs`: the types of a connection and the static
pool of four slots.  The operations are programs over the pool and the DRBG;
one that panics, or waits for the DRBG without end, is stuck.
-/

namespace IsoLightK0

open Bytes Triples

/-- `Profile`; the source compiles `External` only into the `tls-external`
build. -/
inductive TlsProfile
  | closed
  | external
  deriving DecidableEq, Repr

inductive KexPolicy
  | hybrid
  | classical
  deriving DecidableEq, Repr

inductive CipherSuite
  | aes256GcmSha256
  | chaCha20Poly1305Sha256
  deriving DecidableEq, Repr

def CipherSuite.code : CipherSuite → Byte
  | .aes256GcmSha256 => 1
  | .chaCha20Poly1305Sha256 => 2

inductive TlsSide
  | client
  | server
  deriving DecidableEq, Repr

inductive TlsError
  | poolFull
  | invalidHandle
  | transcriptOverflow
  | badMessage
  | unexpectedState
  | unknownPsk
  | profileDisabled
  | hsmFailure
  | authenticationFailed
  | finishedMismatch
  | sequenceExhausted
  | bufferTooSmall
  | kexPolicyMismatch
  | internal
  deriving DecidableEq, Repr

abbrev PskId := Buf 16

/-- One direction of the record protection; `Secret` is dropped. -/
structure DirectionalKeys where
  key : Buf 32
  iv : Buf 12
  seq : BitVec 64

def DirectionalKeys.empty : DirectionalKeys := ⟨Buf.zero, Buf.zero, 0⟩

def transcriptBufLen : ℕ := 4096

/-- The octets accumulated so far; they fit the buffer. -/
structure Transcript where
  bytes : List Byte
  length_le : bytes.length ≤ transcriptBufLen

namespace Transcript

def new : Transcript := ⟨[], Nat.zero_le _⟩

def update (t : Transcript) (msg : List Byte) : Except TlsError Transcript :=
  if h : (t.bytes ++ msg).length ≤ transcriptBufLen then
    .ok ⟨t.bytes ++ msg, h⟩
  else
    .error .transcriptOverflow

def snapshot (sha256 : List Byte → Buf 32) (t : Transcript) : Buf 32 :=
  sha256 t.bytes

end Transcript

inductive ConnState
  | free
  | handshaking
  | connected
  | closed
  deriving DecidableEq, Repr

structure TlsConnection where
  state : ConnState
  side : TlsSide
  profile : TlsProfile
  policy : KexPolicy
  suite : CipherSuite
  pskId : PskId
  transcript : Transcript
  appWrite : DirectionalKeys
  appRead : DirectionalKeys

def TlsConnection.empty : TlsConnection where
  state := .free
  side := .client
  profile := .closed
  policy := .hybrid
  suite := .aes256GcmSha256
  pskId := Buf.zero
  transcript := .new
  appWrite := .empty
  appRead := .empty

/-! ## The pool -/

def maxTlsConns : ℕ := 4

abbrev ConnIdx := Fin maxTlsConns

/-- `ConnHandle`, an octet that need not name a slot. -/
abbrev ConnHandle := BitVec 8

abbrev TlsPool := ConnIdx → Option TlsConnection

def TlsPool.empty : TlsPool := fun _ => none

/-- The slot that a handle names. -/
def connIdx? (h : ConnHandle) : Option ConnIdx :=
  if hlt : h.toNat < maxTlsConns then some ⟨h.toNat, hlt⟩ else none

def ConnIdx.handle (i : ConnIdx) : ConnHandle := BitVec.ofNat 8 i.val

/-- What the TLS operations read and write. -/
structure TlsState where
  pool : TlsPool
  drbg : CapDrbg

/-- The ways out of a TLS operation other than a value. -/
inductive TlsStop
  | error (e : TlsError)
  | stuck
  deriving DecidableEq

abbrev TlsProg := Prog TlsState TlsStop

namespace TlsProg

def fail {α : Type} (e : TlsError) : TlsProg α := throw (.error e)

def failIf (c : Prop) [Decidable c] (e : TlsError) : TlsProg Unit :=
  Prog.exitIf c (.error e)

/-- A fallible function that does not touch the state. -/
def compute {α : Type} : Except TlsStop α → TlsProg α
  | .ok a => pure a
  | .error e => throw e

def setSlot (i : ConnIdx) (c : Option TlsConnection) : TlsProg Unit :=
  modify fun s => { s with pool := Function.update s.pool i c }

/-- `alloc_slot`: the first slot that holds no connection. -/
def allocSlot : TlsProg ConnHandle := do
  let s ← get
  match (List.finRange maxTlsConns).find? fun i => (s.pool i).isNone with
  | none => fail .poolFull
  | some i => do
      setSlot i (some .empty)
      pure (ConnIdx.handle i)

/-- `slot`: the connection that a handle names. -/
def slot (h : ConnHandle) : TlsProg (ConnIdx × TlsConnection) := do
  let s ← get
  match connIdx? h with
  | none => fail .invalidHandle
  | some i =>
    match s.pool i with
    | none => fail .invalidHandle
    | some c => pure (i, c)

/-- Work on the connection that a handle names; a function that fails leaves
it as it was. -/
def withSlot {α : Type} (h : ConnHandle)
    (f : TlsConnection → Except TlsStop (α × TlsConnection)) :
    TlsProg α := do
  let (i, c) ← slot h
  let (a, c) ← compute (f c)
  setSlot i (some c)
  pure a

/-- Assign fields of the connection that a handle names. -/
def updateSlot (h : ConnHandle) (f : TlsConnection → TlsConnection) :
    TlsProg Unit :=
  withSlot h fun c => .ok ((), f c)

/-- `close`: the slot is emptied, whether or not it held a connection. -/
def close (h : ConnHandle) : TlsProg Unit :=
  match connIdx? h with
  | none => fail .invalidHandle
  | some i => setSlot i none

def wipeAll : TlsProg Unit :=
  modify fun s => { s with pool := TlsPool.empty }

/-- `capability::rand_bytes` into 32 octets. -/
def randBytes32 : TlsProg (Buf 32) := do
  let s ← get
  match randBytes 32 s.drbg with
  | none => throw .stuck
  | some (.error _, drbg) => do
      set { s with drbg := drbg }
      fail .hsmFailure
  | some (.ok bytes, drbg) => do
      set { s with drbg := drbg }
      pure bytes

end TlsProg

end IsoLightK0
