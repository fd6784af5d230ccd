import IsoLightK0.Attest.Model
import IsoLightK0.Bus.Instance
import Mathlib.Data.List.FinRange

/-!
# Capabilities, slots and the kernel statics

The registry of `hsm_registry.rs` is a pool of eight slots.  A slot is empty,
attached or detaching, and an attached slot holds a token, the rights it was
attached with and a bus.

The module also collects, in `Kernel`, the statics that the registry, the
wire dispatcher and the system call handlers read and write.  The staging
buffers `RELAY_BUF` and `ATTEST_BUF` are cleared on entry and on exit by their
only accessors; they carry nothing from one call to the next and are local
values in the handlers.
-/

namespace IsoLightK0

open Bytes

def hsmMaxSlots : ℕ := 8

abbrev SlotIdx := Fin 8

-- the one proof behind the index 0 in all definitions below and in the samples
instance hsmMaxSlots_neZero : NeZero 8 := ⟨by decide⟩

abbrev HsmRights := BitVec 16

namespace HsmRights

def none : HsmRights := 0

def use : HsmRights := 1

def enumerate : HsmRights := 2

def revoke : HsmRights := 4

def relaySrc : HsmRights := 8

def relayDst : HsmRights := 16

/-- Every bit of `required` is set in `rights`. -/
def Contains (rights required : HsmRights) : Prop :=
  CtEq (rights &&& required) required

instance (rights required : HsmRights) :
    Decidable (Contains rights required) :=
  inferInstanceAs (Decidable (rights &&& required = required))

end HsmRights

/-- The 16-octet capability, with its padding octets. -/
structure HsmCapability where
  token : BitVec 64
  slot : Byte
  pad0 : Byte
  rights : HsmRights
  pad : Byte
  pad1 : Buf 3

namespace HsmCapability

def invalid : HsmCapability where
  token := 0
  slot := 0xFF
  pad0 := 0
  rights := HsmRights.none
  pad := 0
  pad1 := Buf.zero

/-- The capability with zero padding that `attach` hands out. -/
def issued (token : BitVec 64) (slot : SlotIdx) (rights : HsmRights) :
    HsmCapability where
  token := token
  slot := BitVec.ofNat 8 slot
  pad0 := 0
  rights := rights
  pad := 0
  pad1 := Buf.zero

/-- The `repr(C)` layout, read from 16 octets. -/
def ofBytes (bytes : List Byte) : HsmCapability :=
  let b := Buf.ofList 16 bytes
  { token := wordOfLe 64 (b.slice 0 8)
    slot := b 8
    pad0 := b 9
    rights := wordOfLe 16 (b.slice 10 2)
    pad := b 12
    pad1 := Buf.ofList 3 (b.slice 13 3) }

/-- The `repr(C)` layout, written out. -/
def toBytes (cap : HsmCapability) : List Byte :=
  wordToLe 8 cap.token ++ [cap.slot, cap.pad0] ++ wordToLe 2 cap.rights ++
    [cap.pad] ++ cap.pad1.toList

@[simp] theorem length_toBytes (cap : HsmCapability) :
    cap.toBytes.length = 16 := by
  simp [toBytes]

end HsmCapability

/-! ## Slots and the registry -/

inductive HsmSlotState
  | empty
  | attached
  | detaching
  deriving DecidableEq, Repr

inductive HsmCapError
  | invalidToken
  | invalidSlot
  | rightsMissing
  | full
  | notAttached
  | busy
  | tokenGen
  | badInit
  | attestFailed
  deriving DecidableEq, Repr

structure HsmSlot where
  state : HsmSlotState
  token : BitVec 64
  rights : HsmRights
  bus : BusInstance
  verifyResultCode : Byte
  pkHashPrefix : Buf 4

def HsmSlot.new : HsmSlot where
  state := .empty
  token := 0
  rights := HsmRights.none
  bus := .empty
  verifyResultCode := 0
  pkHashPrefix := Buf.zero

/-- `HsmSlot::zeroize`; the bus is zeroized on the way. -/
def HsmSlot.zeroize (destroy : BusInstance.Destructor) (slot : HsmSlot) :
    Option HsmSlot :=
  (slot.bus.zeroize destroy).map fun bus =>
    { slot with
      token := 0
      bus := bus
      rights := HsmRights.none
      verifyResultCode := 0
      pkHashPrefix := Buf.zero
      state := .empty }

/-- A slot that has been zeroized is indistinguishable from a new one. -/
theorem HsmSlot.zeroize_eq_some {destroy : BusInstance.Destructor}
    {slot slot' : HsmSlot} (h : slot.zeroize destroy = some slot') :
    slot' = HsmSlot.new := by
  obtain ⟨bus, hbus, rfl⟩ := Option.map_eq_some_iff.mp h
  obtain ⟨-, -, rfl⟩ := Option.map_eq_some_iff.mp hbus
  rfl

structure HsmRegistry where
  slots : SlotIdx → HsmSlot

namespace HsmRegistry

def new : HsmRegistry where
  slots := fun _ => HsmSlot.new

def set (r : HsmRegistry) (i : SlotIdx) (slot : HsmSlot) : HsmRegistry where
  slots := Function.update r.slots i slot

variable (r : HsmRegistry)

@[simp] theorem set_slots_self (i : SlotIdx) (slot : HsmSlot) :
    (r.set i slot).slots i = slot := by
  simp [set]

theorem set_slots_of_ne {i j : SlotIdx} (slot : HsmSlot) (h : j ≠ i) :
    (r.set i slot).slots j = r.slots j := by
  simp [set, h]

/-- The range check of `slot_bus_mut`. -/
def slotIdx? (idx : ℕ) : Option SlotIdx :=
  if h : idx < 8 then some ⟨idx, h⟩ else none

/-- The first slot that the loop of `attach` finds in state `Empty`. -/
def firstEmpty (r : HsmRegistry) : Option SlotIdx :=
  (List.finRange 8).find? fun i => (r.slots i).state = .empty

/-- `authenticate`.  An index out of range is compared against slot 0 and
refused at the end. -/
def authenticate (r : HsmRegistry) (cap : HsmCapability)
    (required : HsmRights) : Bool :=
  let idx := cap.slot.toNat
  let safeIdx : SlotIdx := (slotIdx? idx).getD 0
  let slot := r.slots safeIdx
  decide (¬ CtEq cap.token 0) && decide (CtEq slot.state .attached) &&
    decide (CtEq cap.token slot.token) &&
    decide (slot.rights.Contains required) &&
    decide (cap.rights.Contains required) && decide (idx < hsmMaxSlots)

theorem slotIdx?_eq_some_iff (idx : ℕ) (i : SlotIdx) :
    slotIdx? idx = some i ↔ idx = i.val := by
  unfold slotIdx?
  constructor
  · intro h
    split at h
    · cases h
      rfl
    · cases h
  · rintro rfl
    simp

/-- What an accepted capability presents, field by field. -/
theorem authenticate_iff (cap : HsmCapability) (required : HsmRights) :
    r.authenticate cap required = true ↔
      ∃ i : SlotIdx, cap.slot.toNat = i.val ∧ cap.token ≠ 0 ∧
        (r.slots i).state = .attached ∧ cap.token = (r.slots i).token ∧
        (r.slots i).rights.Contains required ∧
        cap.rights.Contains required := by
  constructor
  · intro h
    simp only [authenticate, Bool.and_eq_true, decide_eq_true_eq] at h
    obtain ⟨⟨⟨⟨⟨htoken, hstate⟩, heq⟩, hstored⟩, hcap⟩, hrange⟩ := h
    have hidx : slotIdx? cap.slot.toNat = some ⟨cap.slot.toNat, hrange⟩ :=
      (slotIdx?_eq_some_iff _ _).mpr rfl
    rw [hidx, Option.getD_some] at hstate heq hstored
    exact ⟨⟨cap.slot.toNat, hrange⟩, rfl, htoken, hstate, heq, hstored, hcap⟩
  · rintro ⟨i, hslot, htoken, hstate, heq, hstored, hcap⟩
    have hidx : slotIdx? cap.slot.toNat = some i :=
      (slotIdx?_eq_some_iff _ _).mpr hslot
    have hrange : cap.slot.toNat < hsmMaxSlots := by
      rw [hslot]
      exact i.isLt
    simp only [authenticate, hidx, Option.getD_some, Bool.and_eq_true,
      decide_eq_true_eq]
    exact ⟨⟨⟨⟨⟨htoken, hstate⟩, heq⟩, hstored⟩, hcap⟩, hrange⟩

theorem firstEmpty_eq_some_iff (i : SlotIdx) :
    r.firstEmpty = some i ↔
      (r.slots i).state = .empty ∧
        ∀ j, j < i → (r.slots j).state ≠ .empty := by
  unfold firstEmpty
  constructor
  · intro h
    rw [List.find?_eq_some_iff_getElem] at h
    obtain ⟨hempty, k, hk, hget, hbefore⟩ := h
    have hki : k = i.val := by
      rw [← hget]
      simp
    refine ⟨by simpa using hempty, ?_⟩
    intro j hj
    have hjk : j.val < k := by
      rw [hki]
      exact hj
    simpa using hbefore j.val hjk
  · rintro ⟨hempty, hbefore⟩
    rw [List.find?_eq_some_iff_getElem]
    refine ⟨by simpa using hempty, i.val, by simp, by simp, ?_⟩
    intro k hk
    have hk8 : k < 8 := lt_trans hk i.isLt
    simpa using hbefore ⟨k, hk8⟩ hk

theorem firstEmpty_eq_none_iff :
    r.firstEmpty = none ↔ ∀ i, (r.slots i).state ≠ .empty := by
  simp [firstEmpty]

end HsmRegistry

inductive NetCapState
  | provisioned
  | taken
  deriving DecidableEq, Repr

structure Kernel where
  registry : HsmRegistry
  auditRing : AuditRing
  capDrbg : CapDrbg
  endpoints : List EndpointId
  activeTrustRootPk : Buf 1312
  bootChallenge : Buf 32
  auditReadCap : HsmCapability
  auditCapState : NetCapState
  networkAttachCap : HsmCapability
  networkCapState : NetCapState

namespace Kernel

/-- The statics after boot: an empty registry and audit ring, the endpoints
that `ipc::init` registers, a seeded DRBG, and the two one-shot capabilities
provisioned. -/
def boot (drbg : List DrbgOutcome) (trustRoot : Buf 1312)
    (challenge : Buf 32) (auditToken networkToken : BitVec 64) : Kernel where
  registry := HsmRegistry.new
  auditRing := AuditRing.new
  capDrbg := some drbg
  endpoints := [0x0000, 0x0001, 0x0002, 0x0003]
  activeTrustRootPk := trustRoot
  bootChallenge := challenge
  auditReadCap := { HsmCapability.invalid with token := auditToken }
  auditCapState := .provisioned
  networkAttachCap := { HsmCapability.invalid with token := networkToken }
  networkCapState := .provisioned

def bus (K : Kernel) (i : SlotIdx) : BusInstance := (K.registry.slots i).bus

def setBus (K : Kernel) (i : SlotIdx) (bus : BusInstance) : Kernel :=
  { K with registry := K.registry.set i { K.registry.slots i with bus := bus } }

/-- A kernel after boot with one attached slot, under token 5. -/
def attachedAt (i : SlotIdx) (rights : HsmRights) (bus : BusInstance) : Kernel :=
  let K := boot [] Buf.zero Buf.zero 1 2
  { K with
    registry := K.registry.set i
      { HsmSlot.new with
        state := .attached
        token := 5
        rights := rights
        bus := bus } }

/-- Slot 0 holds an open wire bus. -/
def wire : Kernel :=
  attachedAt 0 HsmRights.use
    (.ring3Process { Ring3ProcessBus.new with endpoint := 3, openState := true })

variable (K : Kernel)

@[simp] theorem bus_setBus_self (i : SlotIdx) (bus : BusInstance) :
    (K.setBus i bus).bus i = bus := by
  simp [Kernel.bus, setBus]

theorem bus_setBus_of_ne {i j : SlotIdx} (bus : BusInstance) (h : j ≠ i) :
    (K.setBus i bus).bus j = K.bus j := by
  simp [Kernel.bus, setBus, HsmRegistry.set_slots_of_ne _ _ h]

@[simp] theorem setBus_bus (i : SlotIdx) : K.setBus i (K.bus i) = K := by
  have hslots : Function.update K.registry.slots i (K.registry.slots i) =
      K.registry.slots := Function.update_eq_self i _
  simp only [setBus, Kernel.bus, HsmRegistry.set]
  rw [hslots]

def audit (K : Kernel) (slotIdx result busKind : Byte)
    (pkPrefix : Buf 4) : Kernel :=
  { K with
    auditRing := auditEnqueue K.auditRing slotIdx result busKind pkPrefix }

/-- The kernel after draws that left the generator in the given state; what the
reseeds among them recorded is in the ring. -/
def setDrbg (K : Kernel) (drbg : CapDrbg) : Kernel :=
  { K with
    capDrbg := drbg
    auditRing := auditEnqueueAll K.auditRing (reseedEvents K.capDrbg drbg) }

@[simp] theorem setDrbg_self : K.setDrbg K.capDrbg = K := by
  simp [setDrbg, auditEnqueueAll]

end Kernel

end IsoLightK0
