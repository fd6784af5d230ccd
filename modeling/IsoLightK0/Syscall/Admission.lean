import IsoLightK0.Syscall.AttachCall

/-!
# Admission through the attestation gate

`attach` with a payload is all-or-nothing: a failure changes no slot, and a
success commits exactly the lowest empty slot, after the payload has been
verified.  `handle_attach` always passes a payload, so over any run of attach
calls every attached slot was admitted by a verification for the kind of bus
it holds.
-/

namespace IsoLightK0

open Bytes Runs Triples Handler

/-- The slot is empty and every slot below it is not. -/
def HsmRegistry.IsLowestEmpty (r : HsmRegistry) (i : SlotIdx) : Prop :=
  (r.slots i).state = .empty ∧ ∀ j < i, (r.slots j).state ≠ .empty

namespace Kernel

/-- The payload is a key and a signature, and the external predicates accepted
the signature for this bus kind under the trust root in force. -/
def Verified (C : Crates) (K : Kernel) (busKind : BusKind)
    (payload : List Byte) : Prop :=
  payload.length = 3732 ∧
    AttestAccepted C K.activeTrustRootPk K.bootChallenge (attestPk payload)
      busKind (attestSig payload)

/-- A successful attach changes exactly the lowest empty slot. -/
def CommitsSlot (K K' : Kernel) (i : SlotIdx) : Prop :=
  K.registry.IsLowestEmpty i ∧
    K'.registry.slots i ≠ K.registry.slots i ∧
    ∀ j, j ≠ i → K'.registry.slots j = K.registry.slots j

theorem attachedSlot_state (slot : HsmSlot) (bus : BusInstance)
    (token : BitVec 64) (rights : HsmRights) (attestOk : Option (Buf 4)) :
    (attachedSlot slot bus token rights attestOk).state = .attached := rfl

theorem attachedSlot_bus (slot : HsmSlot) (bus : BusInstance)
    (token : BitVec 64) (rights : HsmRights) (attestOk : Option (Buf 4)) :
    (attachedSlot slot bus token rights attestOk).bus = bus := by
  cases attestOk with
  | none => rfl
  | some pkPrefix => rfl

variable {K K' : Kernel} {result : Except HsmCapError HsmCapability}

theorem attach_verified_cases {C : Crates} {destroy : BusInstance.Destructor}
    {busKind : BusKind} {initBlob payload : List Byte} {rights : HsmRights}
    (h : K.attach C destroy busKind initBlob (some payload) rights =
      some (result, K')) :
    (∃ e, result = .error e ∧ K'.registry = K.registry) ∨
      ∃ cap i, result = .ok cap ∧ K.Verified C busKind payload ∧
        K.CommitsSlot K' i ∧ (K'.registry.slots i).bus.kind = busKind := by
  rcases attach_cases h with
    ⟨e, drbg, -, rfl, rfl⟩ |
    ⟨attestOk, i, token, drbg₁, bus, drbg₂, hgate, hempty, -, hopen, rfl, rfl⟩
  · exact .inl ⟨e, rfl, rfl⟩
  · right
    obtain ⟨hlen, haccepted, -⟩ :=
      (K.attestGate_eq_ok_some_iff C busKind payload attestOk).mp hgate
    have hlowest : K.registry.IsLowestEmpty i :=
      (HsmRegistry.firstEmpty_eq_some_iff K.registry i).mp hempty
    have hfresh : BusInstance.FreshlyOpened busKind initBlob K.endpoints bus :=
      ⟨drbg₁, drbg₂, hopen⟩
    refine ⟨_, i, rfl, ⟨hlen, haccepted⟩, ⟨hlowest, ?_, ?_⟩, ?_⟩
    · intro hsame
      have hstate := congrArg HsmSlot.state hsame
      rw [HsmRegistry.set_slots_self, attachedSlot_state, hlowest.1] at hstate
      cases hstate
    · intro j hj
      exact HsmRegistry.set_slots_of_ne K.registry _ hj
    · rw [HsmRegistry.set_slots_self, attachedSlot_bus]
      exact hfresh.spec.2.1

/-- Slots, trust root and boot challenge are the same. -/
structure KeepsSlots (K K' : Kernel) : Prop where
  registry : K'.registry = K.registry
  trustRoot : K'.activeTrustRootPk = K.activeTrustRootPk
  challenge : K'.bootChallenge = K.bootChallenge

theorem keepsSlots_of_eq (h : K' = K) : K.KeepsSlots K' := by
  rw [h]
  exact ⟨rfl, rfl, rfl⟩

theorem keepsSlots_audit (K : Kernel) (slotIdx result busKind : Byte)
    (pkPrefix : Buf 4) :
    K.KeepsSlots (K.audit slotIdx result busKind pkPrefix) :=
  ⟨rfl, rfl, rfl⟩

/-- Attach never replaces the trust root or the boot challenge, and keeps the
slots when it fails. -/
theorem attach_statics {C : Crates} {destroy : BusInstance.Destructor}
    {busKind : BusKind} {initBlob : List Byte}
    {attestPayload : Option (List Byte)} {rights : HsmRights}
    (h : K.attach C destroy busKind initBlob attestPayload rights =
      some (result, K')) :
    K'.activeTrustRootPk = K.activeTrustRootPk ∧
      K'.bootChallenge = K.bootChallenge := by
  rcases attach_cases h with
    ⟨e, drbg, -, -, rfl⟩ |
    ⟨attestOk, i, token, drbg₁, bus, drbg₂, -, -, -, -, -, rfl⟩
  · exact ⟨rfl, rfl⟩
  · exact ⟨rfl, rfl⟩

end Kernel

section Call

variable (C : Crates) (ctx : SyscallContext) (start : Machine)

/-- A successful attach call verified the payload in user memory for the
requested bus kind and committed one slot to a bus of that kind. -/
def AttachAdmitted (value : BitVec 64) (m : Machine) : Prop :=
  value = 0 ∧ ∃ busKind i,
    ctx.arg0.toNat = busKind.octet.toNat ∧
    start.kernel.Verified C busKind
      (start.user.read ctx.arg3.toNat attestExact) ∧
    start.kernel.CommitsSlot m.kernel i ∧
    (m.kernel.registry.slots i).bus.kind = busKind ∧
    m.kernel.activeTrustRootPk = start.kernel.activeTrustRootPk ∧
    m.kernel.bootChallenge = start.kernel.bootChallenge

end Call

/-- An attach call: its registers and the user memory it finds. -/
abbrev AttachCall := SyscallContext × Mem

/-- One attach call on the kernel; `none` when it does not return. -/
def attachStep (tlsExternal : Bool) (C : Crates)
    (destroy : BusInstance.Destructor) (K : Kernel) (call : AttachCall) :
    Option (BitVec 64 × Kernel) :=
  let out := (handleAttach tlsExternal C destroy call.1).eval ⟨K, call.2, []⟩
  (rax out.1).map fun value => (value, out.2.kernel)

/-- The call asked for the kind of bus that the slot holds, and its payload
was verified for that kind. -/
def AdmittedBy (C : Crates) (boot : Kernel) (slot : HsmSlot)
    (call : AttachCall) : Prop :=
  call.1.arg0.toNat = slot.bus.kind.octet.toNat ∧
    boot.Verified C slot.bus.kind (call.2.read call.1.arg3.toNat 3732)

/-- Every attached slot has a successful call in the history that admitted
it. -/
structure Admissions (C : Crates) (boot : Kernel)
    (history : List (AttachCall × BitVec 64)) (K : Kernel) : Prop where
  trustRoot : K.activeTrustRootPk = boot.activeTrustRootPk
  challenge : K.bootChallenge = boot.bootChallenge
  admitted : ∀ i, (K.registry.slots i).state = .attached →
    ∃ call, (call, 0) ∈ history ∧
      AdmittedBy C boot (K.registry.slots i) call

section Runs

variable {tlsExternal : Bool} {C : Crates} {destroy : BusInstance.Destructor}
  {K K' : Kernel} {call : AttachCall} {value : BitVec 64}

theorem attachStep_eq_some
    (h : attachStep tlsExternal C destroy K call = some (value, K')) :
    ∃ user', (handleAttach tlsExternal C destroy call.1).syscall K call.2 =
      some ((value, user'), K') := by
  obtain ⟨value', hrax, heq⟩ := Option.map_eq_some_iff.mp h
  cases heq
  exact ⟨_, Option.map_eq_some_iff.mpr ⟨value, hrax, rfl⟩⟩

theorem attachStep_cases
    (h : attachStep tlsExternal C destroy K call = some (value, K')) :
    K.KeepsSlots K' ∨
      AttachAdmitted C call.1 ⟨K, call.2, []⟩ value ⟨K', call.2, []⟩ := by
  obtain ⟨user', hcall⟩ := attachStep_eq_some h
  cases syscall_handleAttach hcall with
  | refused e hargs => exact .inl (Kernel.keepsSlots_of_eq rfl)
  | networkRefused hrefused => exact .inl (K.keepsSlots_audit _ _ _ _)
  | reached hargs hattach =>
    obtain ⟨htrust, hchallenge⟩ := Kernel.attach_statics hattach
    rcases Kernel.attach_verified_cases hattach with
      ⟨e, rfl, hregistry⟩ | ⟨cap, i, rfl, hverified, hcommits, hbus⟩
    · left
      cases e with
      | attestFailed => exact ⟨hregistry, htrust, hchallenge⟩
      | full | badInit | invalidToken | invalidSlot | rightsMissing
      | notAttached | busy | tokenGen =>
        exact ⟨hregistry, htrust, hchallenge⟩
    · right
      exact ⟨rfl, _, i, attachRequest_octet hargs, hverified, hcommits,
        hbus, htrust, hchallenge⟩

theorem Admissions.step {boot : Kernel}
    {history : List (AttachCall × BitVec 64)} (h : Admissions C boot history K)
    (hstep : attachStep tlsExternal C destroy K call = some (value, K')) :
    Admissions C boot ((call, value) :: history) K' := by
  rcases attachStep_cases hstep with
    hkeeps |
    ⟨rfl, busKind, i, hkind, hverified, hcommits, hbus, htrust, hchallenge⟩
  · refine ⟨hkeeps.trustRoot.trans h.trustRoot,
      hkeeps.challenge.trans h.challenge, ?_⟩
    intro j hj
    rw [hkeeps.registry] at hj ⊢
    obtain ⟨earlier, hmem, hadmitted⟩ := h.admitted j hj
    exact ⟨earlier, List.mem_cons_of_mem _ hmem, hadmitted⟩
  · refine ⟨htrust.trans h.trustRoot, hchallenge.trans h.challenge, ?_⟩
    intro j hj
    by_cases hji : j = i
    · subst hji
      refine ⟨call, List.mem_cons_self, ?_⟩
      rw [AdmittedBy, hbus]
      refine ⟨hkind, hverified.1, ?_⟩
      rw [← h.trustRoot, ← h.challenge]
      exact hverified.2
    · have hsame : K'.registry.slots j = K.registry.slots j :=
        hcommits.2.2 j hji
      rw [hsame] at hj ⊢
      obtain ⟨earlier, hmem, hadmitted⟩ := h.admitted j hj
      exact ⟨earlier, List.mem_cons_of_mem _ hmem, hadmitted⟩

end Runs

/-- A registry attach with a payload changes no slot when it fails, and when
it succeeds it has verified the payload and changes exactly the lowest empty
slot.  Over every run of attach calls that starts without an attached slot,
each attached slot was admitted by a successful call that verified its payload
for the kind of bus in the slot. -/
theorem attach_all_or_nothing (tlsExternal : Bool) (C : Crates)
    (destroy : BusInstance.Destructor) :
    (∀ (K K' : Kernel) (busKind : BusKind) (initBlob payload : List Byte)
        (rights : HsmRights) (result : Except HsmCapError HsmCapability),
      K.attach C destroy busKind initBlob (some payload) rights =
          some (result, K') →
        (∃ e, result = .error e ∧ K'.registry = K.registry) ∨
          ∃ cap i, result = .ok cap ∧ K.Verified C busKind payload ∧
            K.CommitsSlot K' i ∧
            (K'.registry.slots i).bus.kind = busKind) ∧
      ∀ (boot K : Kernel) (history : List (AttachCall × BitVec 64)),
        (∀ i, (boot.registry.slots i).state ≠ .attached) →
        Run (attachStep tlsExternal C destroy) boot history K →
        ∀ i, (K.registry.slots i).state = .attached →
          ∃ call, (call, 0) ∈ history ∧
            AdmittedBy C boot (K.registry.slots i) call := by
  constructor
  · intro K K' busKind initBlob payload rights result hattach
    exact Kernel.attach_verified_cases hattach
  · intro boot K history hboot hrun
    have hadmissions : Admissions C boot history K := by
      refine hrun.history_invariant (I := Admissions C boot) ?_ ?_
      · exact ⟨rfl, rfl, fun i hi => (hboot i hi).elim⟩
      · intro history K call value K' _ hold hstep
        exact hold.step hstep
    exact hadmissions.admitted

def Crates.accepting : Crates where
  blake3 := fun _ => some Buf.zero
  aes256GcmEncrypt := Crates.inert.aes256GcmEncrypt
  mldsa44Verify := fun _ _ _ _ => some true

def softwareAttachCall : AttachCall :=
  ({ num := 7
     arg0 := 0
     arg1 := 0
     arg2 := 0
     arg3 := 0x10000
     arg4 := 0x2000
     arg5 := 3732 }, fun _ => 0)

/-- A boot kernel whose DRBG delivers one block of ones. -/
def seededKernel : Kernel :=
  Kernel.boot [.generated fun _ => 1] Buf.zero Buf.zero 1 2

set_option maxRecDepth 40000 in
/-- After one successful call slot 0 is attached and was admitted by it. -/
theorem attach_all_or_nothing_after_call :
    ∃ history K, Run (attachStep false Crates.accepting fun _ => some ())
        seededKernel history K ∧
      history.length = 1 ∧ (K.registry.slots 0).state = .attached ∧
      ∃ call, (call, 0) ∈ history ∧
        AdmittedBy Crates.accepting seededKernel (K.registry.slots 0) call := by
  have hrun : Run (attachStep false Crates.accepting fun _ => some ())
      seededKernel _ _ :=
    Run.next (a := softwareAttachCall) Run.start rfl
  have hboot : ∀ i, (seededKernel.registry.slots i).state ≠ .attached := by
    intro i h
    cases h
  exact ⟨_, _, hrun, rfl, rfl,
    (attach_all_or_nothing false Crates.accepting fun _ => some ()).2
      seededKernel _ _ hboot hrun 0 rfl⟩

end IsoLightK0
