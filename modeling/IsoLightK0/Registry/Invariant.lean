import IsoLightK0.Registry.Attach
import IsoLightK0.Registry.BusWrite

/-!
# The slot invariant over registry runs

A run interleaves attach, detach, bus writes, bus reads, relays and
enumerations with any arguments.  Between operations every slot is either
exactly a new slot, or attached with a nonzero token and an open bus.

The bus operations are covered by `BusesOnly`: they keep each slot's
bookkeeping and the identity of its transport, however wire dispatch nests.
Only attach and detach move a slot between the two forms.
-/

namespace IsoLightK0

open Bytes Runs

inductive RegistryCall
  | attach (busKind : BusKind) (initBlob : List Byte)
      (attestPayload : Option (List Byte)) (rights : HsmRights)
  | detach (cap : HsmCapability) (required : HsmRights)
  | write (slot : ℕ) (data : List Byte)
  | read (slot : ℕ) (outLen : ℕ)
  | relay (srcSlot dstSlot : ℕ) (byteLen : ℕ)
  | enumerate (outLen : ℕ)

inductive RegistryResult
  | attached (result : Except HsmCapError HsmCapability)
  | detached (result : Except HsmCapError Unit)
  | written (result : Except BusError ℕ)
  | read (result : Except BusError (List Byte))
  | relayed (result : Except SyscallError Unit)
  | enumerated (infos : List HsmSlotInfo)

/-- One registry operation.  Bus access goes through `slot_bus_mut`, whose
`None` the callers report as an internal error. -/
def registryStep (C : Crates) (destroy : BusInstance.Destructor)
    (K : Kernel) : RegistryCall → Option (RegistryResult × Kernel)
  | .attach busKind initBlob attestPayload rights =>
    (K.attach C destroy busKind initBlob attestPayload rights).map
      fun (r, K) => (.attached r, K)
  | .detach cap required =>
    (K.detach destroy cap required).map fun (r, K) => (.detached r, K)
  | .write slot data =>
    match HsmRegistry.slotIdx? slot with
    | none => some (.written (.error .internal), K)
    | some i => (K.busWrite C i data).map fun (r, K) => (.written r, K)
  | .read slot outLen =>
    match HsmRegistry.slotIdx? slot with
    | none => some (.read (.error .internal), K)
    | some i => some (.read (K.busRead i outLen).1, (K.busRead i outLen).2)
  | .relay srcSlot dstSlot byteLen =>
    (K.relayTransfer C srcSlot dstSlot byteLen).map
      fun (r, K) => (.relayed r, K)
  | .enumerate outLen => some (.enumerated (K.registry.enumerate outLen), K)

/-! ## The invariant -/

/-- A slot between operations. -/
def HsmSlot.Settled (slot : HsmSlot) : Prop :=
  (slot.state = .empty ∧ slot = HsmSlot.new) ∨
    (slot.state = .attached ∧ slot.token ≠ 0 ∧ slot.bus.IsOpen)

theorem BusInstance.SameTransport.isOpen {b b' : BusInstance}
    (h : b.SameTransport b') (hopen : b.IsOpen) : b'.IsOpen := by
  cases b with
  | software s =>
    obtain ⟨s', rfl, heq, -⟩ := h
    exact heq.trans hopen
  | ring3Process r =>
    obtain ⟨r', rfl, heq, -⟩ := h
    exact heq.trans hopen
  | empty | usb | spi | serial | smartCard | network => exact hopen.elim

variable {K K' : Kernel} {C : Crates} {destroy : BusInstance.Destructor}

theorem Kernel.BusesOnly.settled (h : K.BusesOnly K') {i : SlotIdx}
    (hsettled : (K.registry.slots i).Settled) :
    (K'.registry.slots i).Settled := by
  have htransport := h.transport i
  rw [h.slots i]
  rcases hsettled with ⟨-, hnew⟩ | ⟨hstate, htoken, hopen⟩
  · left
    have hempty : K.bus i = .empty := by
      rw [Kernel.bus, hnew]
      rfl
    rw [hempty] at htransport
    have hbus : K'.bus i = .empty := htransport
    rw [hnew, hbus]
    exact ⟨rfl, rfl⟩
  · right
    exact ⟨hstate, htoken, htransport.isOpen hopen⟩

theorem Kernel.relayTransfer_busesOnly {srcSlot dstSlot byteLen : ℕ}
    {result : Except SyscallError Unit}
    (h : K.relayTransfer C srcSlot dstSlot byteLen = some (result, K')) :
    K.BusesOnly K' := by
  unfold relayTransfer at h
  split at h
  · cases h
    exact .refl K
  · rename_i src _
    have hread := K.busRead_busesOnly src byteLen
    split at h
    · rename_i hsrc
      cases h
      rwa [hsrc] at hread
    · rename_i bytes K₁ hsrc
      rw [hsrc] at hread
      split at h
      · cases h
        exact hread
      · split at h
        · cases h
          exact hread
        · split at h
          · cases h
          · rename_i hwrite
            cases h
            exact hread.trans (busWrite_busesOnly hwrite)
          · rename_i hwrite
            split at h
            · cases h
              exact hread.trans (busWrite_busesOnly hwrite)
            · cases h
              exact hread.trans (busWrite_busesOnly hwrite)

theorem Kernel.attachedSlot_settled (slot : HsmSlot) {bus : BusInstance}
    {token : BitVec 64} (rights : HsmRights) (attestOk : Option (Buf 4))
    (htoken : token ≠ 0) (hopen : bus.IsOpen) :
    (attachedSlot slot bus token rights attestOk).Settled := by
  right
  cases attestOk with
  | none => exact ⟨rfl, htoken, hopen⟩
  | some pkPrefix => exact ⟨rfl, htoken, hopen⟩

theorem HsmRegistry.set_settled {r : HsmRegistry} {i : SlotIdx}
    {slot : HsmSlot} (hr : ∀ j, (r.slots j).Settled) (hslot : slot.Settled)
    (j : SlotIdx) : ((r.set i slot).slots j).Settled := by
  by_cases hj : j = i
  · subst hj
    rwa [set_slots_self]
  · rw [set_slots_of_ne r slot hj]
    exact hr j

/-- The calls that reach a bus but neither attach nor detach. -/
def RegistryCall.IsBusCall : RegistryCall → Prop
  | .attach .. => False
  | .detach .. => False
  | _ => True

theorem registryStep_busesOnly {call : RegistryCall} {result : RegistryResult}
    (hstep : registryStep C destroy K call = some (result, K'))
    (hcall : call.IsBusCall) : K.BusesOnly K' := by
  cases call with
  | attach busKind initBlob attestPayload rights => exact hcall.elim
  | detach cap required => exact hcall.elim
  | write slot data =>
    simp only [registryStep] at hstep
    split at hstep
    · cases hstep
      exact .refl K
    · obtain ⟨⟨r, K₁⟩, hwrite, heq⟩ := Option.map_eq_some_iff.mp hstep
      cases heq
      exact Kernel.busWrite_busesOnly hwrite
  | read slot outLen =>
    simp only [registryStep] at hstep
    split at hstep
    · cases hstep
      exact .refl K
    · rename_i i _
      cases hstep
      exact K.busRead_busesOnly i outLen
  | relay srcSlot dstSlot byteLen =>
    obtain ⟨⟨r, K₁⟩, hrelay, heq⟩ := Option.map_eq_some_iff.mp hstep
    cases heq
    exact Kernel.relayTransfer_busesOnly hrelay
  | enumerate outLen =>
    cases hstep
    exact .refl K

/-- Every slot of the registry is settled. -/
def Kernel.AllSettled (K : Kernel) : Prop :=
  ∀ i, (K.registry.slots i).Settled

theorem attach_settled {busKind : BusKind} {initBlob : List Byte}
    {attestPayload : Option (List Byte)} {rights : HsmRights}
    {result : Except HsmCapError HsmCapability}
    (h : K.attach C destroy busKind initBlob attestPayload rights =
      some (result, K')) (hK : K.AllSettled) : K'.AllSettled := by
  rcases Kernel.attach_cases h with
    ⟨e, drbg, -, -, rfl⟩ |
    ⟨attestOk, i, token, drbg₁, bus, drbg₂, -, -, htoken, hopen, -, rfl⟩
  · exact hK
  · have hfresh : bus.IsOpen :=
      (BusInstance.FreshlyOpened.spec ⟨drbg₁, drbg₂, hopen⟩).1
    exact HsmRegistry.set_settled hK (Kernel.attachedSlot_settled _
      rights attestOk (genTokenU64_ne_zero htoken) hfresh)

theorem detach_settled {cap : HsmCapability} {required : HsmRights}
    {result : Except HsmCapError Unit}
    (h : K.detach destroy cap required = some (result, K'))
    (hK : K.AllSettled) : K'.AllSettled := by
  rcases Kernel.detach_cases h with ⟨-, rfl, -⟩ | ⟨i, -, -, -, rfl⟩
  · exact hK
  · exact HsmRegistry.set_settled hK (.inl ⟨rfl, rfl⟩)

theorem registryStep_settled {call : RegistryCall} {result : RegistryResult}
    (hstep : registryStep C destroy K call = some (result, K'))
    (hK : K.AllSettled) : K'.AllSettled := by
  by_cases hcall : call.IsBusCall
  · intro i
    exact (registryStep_busesOnly hstep hcall).settled (hK i)
  · cases call with
    | attach busKind initBlob attestPayload rights =>
      obtain ⟨⟨r, K₁⟩, hattach, heq⟩ := Option.map_eq_some_iff.mp hstep
      cases heq
      exact attach_settled hattach hK
    | detach cap required =>
      obtain ⟨⟨r, K₁⟩, hdetach, heq⟩ := Option.map_eq_some_iff.mp hstep
      cases heq
      exact detach_settled hdetach hK
    | _ => exact absurd trivial hcall

/-! ## Runs -/

/-- The destructor of a replaced bus returns. -/
def BusInstance.returning : BusInstance.Destructor := fun _ => some ()

theorem run_settled {K₀ : Kernel}
    {history : List (RegistryCall × RegistryResult)}
    (hinit : K₀.registry = HsmRegistry.new)
    (hrun : Run (registryStep C destroy) K₀ history K) : K.AllSettled := by
  refine hrun.invariant ?_ ?_
  · intro i
    rw [hinit]
    exact .inl ⟨rfl, rfl⟩
  · intro s call result s' hs hstep
    exact registryStep_settled hstep hs

/-- In every state that a run from the new registry reaches, each slot is
either empty and identical to a new slot, or attached with a nonzero token and
an open software or wire bus; and a successful attach leaves in its slot what
opening a newly constructed bus of the requested kind yields. -/
theorem registry_run_slots (C : Crates) {K₀ K : Kernel}
    {history : List (RegistryCall × RegistryResult)}
    (hinit : K₀.registry = HsmRegistry.new)
    (hrun : Run (registryStep C BusInstance.returning) K₀ history K) :
    (∀ i,
      ((K.registry.slots i).state = .empty ∧
          K.registry.slots i = HsmSlot.new) ∨
        ((K.registry.slots i).state = .attached ∧
          (K.registry.slots i).token ≠ 0 ∧
          ((∃ s, (K.registry.slots i).bus = .software s ∧
              s.openState = true) ∨
            ∃ r, (K.registry.slots i).bus = .ring3Process r ∧
              r.openState = true))) ∧
      ∀ busKind initBlob attestPayload rights cap K',
        K.attach C BusInstance.returning busKind initBlob attestPayload
            rights = some (.ok cap, K') →
          ∃ i : SlotIdx, cap.slot.toNat = i.val ∧
            (K'.registry.slots i).state = .attached ∧
            BusInstance.FreshlyOpened busKind initBlob K.endpoints
              (K'.registry.slots i).bus := by
  constructor
  · intro i
    rcases run_settled hinit hrun i with hempty | ⟨hstate, htoken, hopen⟩
    · exact .inl hempty
    · refine .inr ⟨hstate, htoken, ?_⟩
      cases hbus : (K.registry.slots i).bus with
      | software s =>
        rw [hbus] at hopen
        exact .inl ⟨s, rfl, hopen⟩
      | ring3Process r =>
        rw [hbus] at hopen
        exact .inr ⟨r, rfl, hopen⟩
      | _ =>
        rw [hbus] at hopen
        exact hopen.elim
  · intro busKind initBlob attestPayload rights cap K' hattach
    rcases Kernel.attach_cases hattach with
      ⟨e, drbg, -, herr, -⟩ |
      ⟨attestOk, i, token, drbg₁, bus, drbg₂, -, -, -, hopen, hcap, rfl⟩
    · cases herr
    · cases hcap
      refine ⟨i, ?_, ?_, ?_⟩
      · simp only [HsmCapability.issued, BitVec.toNat_ofNat]
        omega
      · rw [HsmRegistry.set_slots_self]
        rfl
      · rw [HsmRegistry.set_slots_self]
        cases attestOk with
        | none => exact ⟨drbg₁, drbg₂, hopen⟩
        | some pkPrefix => exact ⟨drbg₁, drbg₂, hopen⟩

/-- After boot, attaching an echo bus without attestation is such a run: slot 0
is attached, holds the drawn token and an open bus. -/
theorem registry_run_slots_after_boot_attach :
    ∃ history K,
      Run (registryStep Crates.inert BusInstance.returning)
          (Kernel.boot [.generated fun _ => 1] Buf.zero Buf.zero 1 2)
          history K ∧
        (K.registry.slots 0).state = .attached ∧
        (K.registry.slots 0).token ≠ 0 := by
  have hrun : Run (registryStep Crates.inert BusInstance.returning)
      (Kernel.boot [.generated fun _ => 1] Buf.zero Buf.zero 1 2) _ _ :=
    Run.next (a := .attach .software [] none 0x1F) Run.start rfl
  refine ⟨_, _, hrun, rfl, ?_⟩
  rcases (registry_run_slots Crates.inert rfl hrun).1 0 with
    ⟨hempty, -⟩ | ⟨-, htoken, -⟩
  · cases hempty
  · exact htoken

end IsoLightK0
