import IsoLightK0.Registry.Model

/-!
# Attaching, detaching and enumerating slots

The three registry operations.  `attach` and `detach` destroy bus values: the
assignment `slot.bus = bus` drops the bus the slot held, a failed `open` drops
the local bus, and `detach` zeroizes the slot's bus.  The destructor is a
parameter, and an operation whose destructor does not return does not return
either.

`attach_cases` and `detach_cases` say once what the two operations can do.
-/

namespace IsoLightK0

open Bytes

namespace Kernel

/-- The attestation payload, split into its two halves. -/
def attestPk (payload : List Byte) : Buf 1312 :=
  Buf.ofList 1312 (payload.take 1312)

def attestSig (payload : List Byte) : Buf 2420 :=
  Buf.ofList 2420 (payload.drop 1312)

/-- The verification gate at the head of `attach`; it yields the key-hash
prefix to record when there was a payload to verify. -/
def attestGate (C : Crates) (K : Kernel) (busKind : BusKind)
    (attestPayload : Option (List Byte)) :
    Except HsmCapError (Option (Buf 4)) :=
  match attestPayload with
  | none => .ok none
  | some payload =>
    if payload.length ≠ pkLen + sigLen then
      .error .attestFailed
    else
      match verifyAttest C K.activeTrustRootPk K.bootChallenge
          (attestPk payload) busKind (attestSig payload) with
      | .error _ => .error .attestFailed
      | .ok () => .ok (some (pkHashPrefix C (attestPk payload)))

/-- The slot that `attach` commits. -/
def attachedSlot (slot : HsmSlot) (bus : BusInstance) (token : BitVec 64)
    (rights : HsmRights) (attestOk : Option (Buf 4)) : HsmSlot :=
  let slot := { slot with bus := bus, token := token, rights := rights }
  let slot :=
    match attestOk with
    | some pkPrefix =>
      { slot with verifyResultCode := 0, pkHashPrefix := pkPrefix }
    | none => slot
  { slot with state := .attached }

/-- The loop body of `attach` at the first empty slot. -/
def attachAt (destroy : BusInstance.Destructor) (K : Kernel) (i : SlotIdx)
    (busKind : BusKind) (initBlob : List Byte) (rights : HsmRights)
    (attestOk : Option (Buf 4)) :
    Option (Except HsmCapError HsmCapability × Kernel) :=
  match genTokenU64 K.capDrbg with
  | none => none
  | some (.error _, drbg) =>
    some (.error .tokenGen, K.setDrbg drbg)
  | some (.ok token, drbg) =>
    match (BusInstance.new busKind).openBus initBlob K.endpoints drbg with
    | none => none
    | some (.error _, bus, drbg) =>
      -- the local bus goes out of scope
      (destroy bus).map fun _ => (.error .badInit, K.setDrbg drbg)
    | some (.ok (), bus, drbg) =>
      -- `slot.bus = bus` drops the bus that the slot held
      (destroy (K.bus i)).map fun _ =>
        (.ok (HsmCapability.issued token i rights),
          { K.setDrbg drbg with
            registry := K.registry.set i (attachedSlot
              (K.registry.slots i) bus token rights attestOk) })

def attach (C : Crates) (destroy : BusInstance.Destructor) (K : Kernel)
    (busKind : BusKind) (initBlob : List Byte)
    (attestPayload : Option (List Byte)) (rights : HsmRights) :
    Option (Except HsmCapError HsmCapability × Kernel) :=
  match K.attestGate C busKind attestPayload with
  | .error e => some (.error e, K)
  | .ok attestOk =>
    match K.registry.firstEmpty with
    | none => some (.error .full, K)
    | some i => K.attachAt destroy i busKind initBlob rights attestOk

/-- The error that `detach` reports when authentication has failed. -/
def detachError (r : HsmRegistry) (cap : HsmCapability) : HsmCapError :=
  match HsmRegistry.slotIdx? cap.slot.toNat with
  | none => .invalidSlot
  | some i =>
    match (r.slots i).state with
    | .detaching => .busy
    | .empty => .notAttached
    | .attached => .invalidToken

/-- `HsmRegistry::detach`.  The slot index is in range once authentication has
succeeded. -/
def detach (destroy : BusInstance.Destructor) (K : Kernel)
    (cap : HsmCapability) (required : HsmRights) :
    Option (Except HsmCapError Unit × Kernel) :=
  if K.registry.authenticate cap required = false then
    some (.error (detachError K.registry cap), K)
  else
    let i : SlotIdx := (HsmRegistry.slotIdx? cap.slot.toNat).getD 0
    let slot := { K.registry.slots i with state := .detaching }
    let slot := { slot with bus := slot.bus.close.2 }
    (slot.zeroize destroy).map fun slot =>
      (.ok (), { K with registry := K.registry.set i slot })

end Kernel

/-- `HsmSlotInfo`, with its reserved octets. -/
structure HsmSlotInfo where
  slot : Byte
  state : Byte
  reserved : Buf 6

def HsmSlotInfo.empty : HsmSlotInfo where
  slot := 0xFF
  state := 0
  reserved := Buf.zero

def HsmSlotInfo.toBytes (info : HsmSlotInfo) : List Byte :=
  [info.slot, info.state] ++ info.reserved.toList

@[simp] theorem HsmSlotInfo.length_toBytes (info : HsmSlotInfo) :
    info.toBytes.length = 8 := by
  simp [HsmSlotInfo.toBytes]

/-- The entry that `enumerate` writes for an attached slot. -/
def HsmSlot.info (slot : HsmSlot) (i : SlotIdx) : HsmSlotInfo where
  slot := BitVec.ofNat 8 i
  state := 1
  reserved := Buf.ofList 6
    ([slot.bus.kind.octet, slot.verifyResultCode] ++ slot.pkHashPrefix.toList)

/-- `HsmRegistry::enumerate` into a slice of `outLen` entries: the entries
written.  The loop breaks at slot index `outLen`, whether or not the slice is
full. -/
def HsmRegistry.enumerate (r : HsmRegistry) (outLen : ℕ) :
    List HsmSlotInfo :=
  let cap := min outLen hsmMaxSlots
  ((List.finRange 8).take cap).filterMap fun i =>
    if (r.slots i).state = .attached then some ((r.slots i).info i) else none

theorem HsmRegistry.length_enumerate_le (r : HsmRegistry) (outLen : ℕ) :
    (r.enumerate outLen).length ≤ min outLen hsmMaxSlots := by
  unfold HsmRegistry.enumerate
  refine le_trans (List.length_filterMap_le _ _) ?_
  rw [List.length_take]
  exact min_le_left _ _

namespace Kernel

theorem attestGate_eq_ok_some_iff (C : Crates) (K : Kernel)
    (busKind : BusKind) (payload : List Byte) (attestOk : Option (Buf 4)) :
    K.attestGate C busKind (some payload) = .ok attestOk ↔
      payload.length = pkLen + sigLen ∧
        AttestAccepted C K.activeTrustRootPk K.bootChallenge
          (attestPk payload) busKind (attestSig payload) ∧
        attestOk = some (pkHashPrefix C (attestPk payload)) := by
  by_cases hlen : payload.length = pkLen + sigLen
  · rw [← verifyAttest_eq_ok_iff]
    cases hverify : verifyAttest C K.activeTrustRootPk K.bootChallenge
        (attestPk payload) busKind (attestSig payload) with
    | error e => simp [attestGate, hlen, hverify]
    | ok u => simp [attestGate, hlen, hverify, eq_comm]
  · simp [attestGate, hlen]

theorem attach_cases {C : Crates} {destroy : BusInstance.Destructor}
    {K K' : Kernel} {busKind : BusKind} {initBlob : List Byte}
    {attestPayload : Option (List Byte)} {rights : HsmRights}
    {result : Except HsmCapError HsmCapability}
    (h : K.attach C destroy busKind initBlob attestPayload rights =
      some (result, K')) :
    (∃ e drbg, DrawnFrom K.capDrbg drbg ∧ result = .error e ∧
        K' = K.setDrbg drbg) ∨
      ∃ attestOk i token drbg₁ bus drbg₂,
        K.attestGate C busKind attestPayload = .ok attestOk ∧
        K.registry.firstEmpty = some i ∧
        genTokenU64 K.capDrbg = some (.ok token, drbg₁) ∧
        (BusInstance.new busKind).openBus initBlob K.endpoints drbg₁ =
          some (.ok (), bus, drbg₂) ∧
        result = .ok (HsmCapability.issued token i rights) ∧
        K' = { K.setDrbg drbg₂ with
          registry := K.registry.set i (attachedSlot
            (K.registry.slots i) bus token rights attestOk) } := by
  unfold attach at h
  cases hgate : K.attestGate C busKind attestPayload with
  | error e =>
    rw [hgate] at h
    obtain ⟨rfl, rfl⟩ : .error e = result ∧ K = K' := by simpa using h
    exact .inl ⟨e, K.capDrbg, .refl _, rfl, K.setDrbg_self.symm⟩
  | ok attestOk =>
    rw [hgate] at h
    cases hempty : K.registry.firstEmpty with
    | none =>
      rw [hempty] at h
      obtain ⟨rfl, rfl⟩ : .error .full = result ∧ K = K' := by
        simpa using h
      exact .inl ⟨.full, K.capDrbg, .refl _, rfl, K.setDrbg_self.symm⟩
    | some i =>
      rw [hempty] at h
      simp only [attachAt] at h
      split at h
      · cases h
      · rename_i htoken
        cases h
        exact .inl ⟨.tokenGen, _, genTokenU64_drawn htoken, rfl, rfl⟩
      · rename_i token drbg₁ htoken
        split at h
        · cases h
        · rename_i hopen
          obtain ⟨-, -, heq⟩ := Option.map_eq_some_iff.mp h
          cases heq
          exact .inl ⟨.badInit, _, (genTokenU64_drawn htoken).trans
            (BusInstance.openBus_drawn hopen), rfl, rfl⟩
        · rename_i bus drbg₂ hopen
          obtain ⟨-, -, heq⟩ := Option.map_eq_some_iff.mp h
          cases heq
          exact .inr ⟨attestOk, i, token, drbg₁, bus, drbg₂, rfl, rfl,
            htoken, hopen, rfl, rfl⟩

theorem detach_cases {destroy : BusInstance.Destructor} {K K' : Kernel}
    {cap : HsmCapability} {required : HsmRights}
    {result : Except HsmCapError Unit}
    (h : K.detach destroy cap required = some (result, K')) :
    (K.registry.authenticate cap required = false ∧ K' = K ∧
        ∃ e, result = .error e) ∨
      ∃ i : SlotIdx, K.registry.authenticate cap required = true ∧
        cap.slot.toNat = i.val ∧ result = .ok () ∧
        K' = { K with registry := K.registry.set i HsmSlot.new } := by
  unfold detach at h
  cases hauth : K.registry.authenticate cap required with
  | false =>
    simp only [hauth, if_true, Option.some.injEq, Prod.mk.injEq] at h
    obtain ⟨rfl, rfl⟩ := h
    exact .inl ⟨rfl, rfl, _, rfl⟩
  | true =>
    obtain ⟨i, hslot, -⟩ := (HsmRegistry.authenticate_iff _ _ _).mp hauth
    have hidx : HsmRegistry.slotIdx? cap.slot.toNat = some i :=
      (HsmRegistry.slotIdx?_eq_some_iff _ _).mpr hslot
    simp only [hauth, Bool.true_eq_false, if_false, hidx, Option.getD_some] at h
    obtain ⟨slot, hzero, heq⟩ := Option.map_eq_some_iff.mp h
    cases heq
    rw [HsmSlot.zeroize_eq_some hzero]
    exact .inr ⟨i, rfl, hslot, rfl, rfl⟩

end Kernel

end IsoLightK0
