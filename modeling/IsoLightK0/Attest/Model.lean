import IsoLightK0.Bus.Driver
import IsoLightK0.Capability.Drbg
import Mathlib.Data.Fin.Basic

/-!
# Attestation and the audit ring

`hsm_attest.rs` checks an enrolment signature against the active trust root
and keeps a ring of the latest 32 enrolment events.
-/

namespace IsoLightK0

open Bytes

def pkLen : ℕ := 1312

def sigLen : ℕ := 2420

inductive AttestError
  | attestFailed
  deriving DecidableEq, Repr

/-- The signature context `b"ISO-K0-ENROLL-V1"`. -/
def enrollContext : List Byte :=
  [0x49, 0x53, 0x4F, 0x2D, 0x4B, 0x30, 0x2D, 0x45,
    0x4E, 0x52, 0x4F, 0x4C, 0x4C, 0x2D, 0x56, 0x31]

/-- The signed pre-image: public key, bus kind octet, boot challenge. -/
def attestPreimage (bootChallenge : Buf 32) (hsmPk : Buf 1312)
    (busKind : BusKind) : List Byte :=
  hsmPk.toList ++ [busKind.octet] ++ bootChallenge.toList

/-- `verify_attest`, with the two statics it reads as arguments. -/
def verifyAttest (C : Crates) (trustRoot : Buf 1312)
    (bootChallenge : Buf 32) (hsmPk : Buf 1312) (busKind : BusKind)
    (sig : Buf 2420) : Except AttestError Unit :=
  match C.blake3 (attestPreimage bootChallenge hsmPk busKind) with
  | none => .error .attestFailed
  | some digest =>
    match C.mldsa44Verify trustRoot digest.toList sig enrollContext with
    | some true => .ok ()
    | some false => .error .attestFailed
    | none => .error .attestFailed

/-- `pk_hash_prefix`: zeros when the hash cannot be finalized. -/
def pkHashPrefix (C : Crates) (pk : Buf 1312) : Buf 4 :=
  match C.blake3 pk.toList with
  | some digest => Buf.ofList 4 (digest.slice 0 4)
  | none => Buf.zero

/-- The external predicates accepted the enrolment: the pre-image was hashed
and the trust root's signature over that digest verified. -/
def AttestAccepted (C : Crates) (trustRoot : Buf 1312)
    (bootChallenge : Buf 32) (hsmPk : Buf 1312) (busKind : BusKind)
    (sig : Buf 2420) : Prop :=
  ∃ digest,
    C.blake3 (hsmPk.toList ++ [busKind.octet] ++ bootChallenge.toList) =
        some digest ∧
      C.mldsa44Verify trustRoot digest.toList sig enrollContext = some true

theorem verifyAttest_eq_ok_iff (C : Crates) (trustRoot : Buf 1312)
    (bootChallenge : Buf 32) (hsmPk : Buf 1312) (busKind : BusKind)
    (sig : Buf 2420) :
    verifyAttest C trustRoot bootChallenge hsmPk busKind sig = .ok () ↔
      AttestAccepted C trustRoot bootChallenge hsmPk busKind sig := by
  unfold verifyAttest AttestAccepted attestPreimage
  cases C.blake3 (hsmPk.toList ++ [busKind.octet] ++ bootChallenge.toList) with
  | none => simp
  | some digest =>
    rcases hverify :
      C.mldsa44Verify trustRoot digest.toList sig enrollContext with
      _ | _ | _
    all_goals simp [hverify]

def auditRingCapacity : ℕ := 32

structure EnrollEvent where
  seq : BitVec 32
  slotIdx : Byte
  result : Byte
  busKind : Byte
  pad : Byte
  pkHashPrefix : Buf 4

/-- `EnrollEvent::default()`. -/
def EnrollEvent.zero : EnrollEvent where
  seq := 0
  slotIdx := 0
  result := 0
  busKind := 0
  pad := 0
  pkHashPrefix := Buf.zero

/-- The ring of the latest events.  `head` is a `u8` in the source, kept below
the capacity by every update. -/
structure AuditRing where
  events : Fin 32 → EnrollEvent
  head : Fin 32
  total : BitVec 32

/-- The initial value of `AUDIT_RING`. -/
def AuditRing.new : AuditRing where
  events := fun _ => EnrollEvent.zero
  head := 0
  total := 0

def auditEnqueue (r : AuditRing) (slotIdx result busKind : Byte)
    (pkPrefix : Buf 4) : AuditRing where
  events := Function.update r.events r.head
    { seq := r.total
      slotIdx := slotIdx
      result := result
      busKind := busKind
      pad := 0
      pkHashPrefix := pkPrefix }
  head := r.head + 1
  total := r.total + 1

def AuditCall.enqueue (r : AuditRing) (call : AuditCall) : AuditRing :=
  auditEnqueue r call.slotIdx call.result call.busKind call.pkPrefix

def auditEnqueueAll (r : AuditRing) (calls : List AuditCall) : AuditRing :=
  calls.foldl AuditCall.enqueue r

/-- `audit_snapshot` into a slice of `outLen` entries: the entries written, in
order, and the running total. -/
def auditSnapshot (r : AuditRing) (outLen : ℕ) :
    List EnrollEvent × BitVec 32 :=
  let cap := min outLen auditRingCapacity
  let valid := min r.total.toNat auditRingCapacity
  let start : Fin 32 := if r.total.toNat > auditRingCapacity then r.head else 0
  let n := min valid cap
  ((List.range n).map fun i => r.events (start + Fin.ofNat 32 i), r.total)

theorem length_auditSnapshot_le (r : AuditRing) (outLen : ℕ) :
    (auditSnapshot r outLen).1.length ≤ auditRingCapacity := by
  unfold auditSnapshot
  rw [List.length_map, List.length_range]
  exact le_trans (min_le_left _ _) (min_le_right _ _)

/-- The 12 octets that `handle_status` serializes for one event. -/
def EnrollEvent.toBytes (e : EnrollEvent) : List Byte :=
  wordToLe 4 e.seq ++ [e.slotIdx, e.result, e.busKind, e.pad] ++
    e.pkHashPrefix.toList

@[simp] theorem EnrollEvent.length_toBytes (e : EnrollEvent) :
    e.toBytes.length = 12 := by
  simp [EnrollEvent.toBytes]

end IsoLightK0
