import IsoLightK0.Registry.Attach
import IsoLightK0.Registry.BusWrite

/-!
# Registry operations do not look at the audit ring

Two kernels that agree on everything but the audit ring are the same kernel to
every registry operation, and stay so.  The one exception is a write that
makes the wire dispatcher answer a `Status` request: its response carries the
ring into a bus, from where a read takes it to user memory.
-/

namespace IsoLightK0

open Bytes

namespace Kernel

def withRing (K : Kernel) (ring : AuditRing) : Kernel :=
  { K with auditRing := ring }

def SameButRing (K₁ K₂ : Kernel) : Prop := ∃ ring, K₂ = K₁.withRing ring

theorem sameButRing_withRing (K : Kernel) (ring : AuditRing) :
    K.SameButRing (K.withRing ring) := ⟨ring, rfl⟩

theorem SameButRing.audit {K₁ K₂ : Kernel} (h : K₁.SameButRing K₂)
    (slotIdx result busKind : Byte) (pkPrefix : Buf 4) :
    (K₁.audit slotIdx result busKind pkPrefix).SameButRing
      (K₂.audit slotIdx result busKind pkPrefix) := by
  obtain ⟨ring, rfl⟩ := h
  exact ⟨_, rfl⟩

/-- Two results of one operation: neither returned, or both returned the same
value and kernels that differ in the ring at most. -/
def Agrees {α : Type} (x y : Option (α × Kernel)) : Prop :=
  Option.Rel (fun p q => p.1 = q.1 ∧ p.2.SameButRing q.2) x y

variable {α : Type}

theorem agrees_some {a : α} {K₁ K₂ : Kernel} (h : K₁.SameButRing K₂) :
    Agrees (some (a, K₁)) (some (a, K₂)) :=
  .some ⟨rfl, h⟩

theorem Agrees.elim {x y : Option (α × Kernel)} (h : Agrees x y) :
    (x = none ∧ y = none) ∨
      ∃ a K ring, x = some (a, K) ∧ y = some (a, K.withRing ring) := by
  cases h with
  | none => exact .inl ⟨rfl, rfl⟩
  | @some p q hpq =>
    obtain ⟨a, K⟩ := p
    obtain ⟨b, K'⟩ := q
    obtain ⟨rfl, ring, rfl⟩ := hpq
    exact .inr ⟨a, K, ring, rfl, rfl⟩

theorem agrees_of_map {x y : Option (α × Kernel)} (ring : AuditRing)
    (h : y = x.map fun p => (p.1, p.2.withRing ring)) : Agrees x y := by
  subst h
  cases x with
  | none => exact .none
  | some p => exact .some ⟨rfl, sameButRing_withRing p.2 ring⟩

theorem setDrbg_sameButRing (K : Kernel) (ring : AuditRing) (drbg : CapDrbg) :
    (K.setDrbg drbg).SameButRing ((K.withRing ring).setDrbg drbg) :=
  ⟨auditEnqueueAll ring (reseedEvents K.capDrbg drbg), rfl⟩

theorem agrees_map {β : Type} (x : Option β) {a : α} {K₁ K₂ : Kernel}
    (h : K₁.SameButRing K₂) :
    Agrees (x.map fun _ => (a, K₁)) (x.map fun _ => (a, K₂)) := by
  cases x with
  | none => exact .none
  | some b => exact agrees_some h

theorem attach_agrees (C : Crates) (destroy : BusInstance.Destructor)
    (K : Kernel) (ring : AuditRing) (busKind : BusKind)
    (initBlob : List Byte) (attestPayload : Option (List Byte))
    (rights : HsmRights) :
    Agrees (K.attach C destroy busKind initBlob attestPayload rights)
      ((K.withRing ring).attach C destroy busKind initBlob attestPayload
        rights) := by
  have hgate : (K.withRing ring).attestGate C busKind attestPayload =
      K.attestGate C busKind attestPayload := rfl
  unfold attach
  rw [hgate]
  cases K.attestGate C busKind attestPayload with
  | error e => exact agrees_some (K.sameButRing_withRing ring)
  | ok attestOk =>
    have hempty : (K.withRing ring).registry.firstEmpty =
        K.registry.firstEmpty := rfl
    simp only [hempty]
    cases K.registry.firstEmpty with
    | none => exact agrees_some (K.sameButRing_withRing ring)
    | some i =>
      have hdrbg : (K.withRing ring).capDrbg = K.capDrbg := rfl
      have hendpoints : (K.withRing ring).endpoints = K.endpoints := rfl
      have hbus : (K.withRing ring).bus i = K.bus i := rfl
      simp only [attachAt, hdrbg, hendpoints, hbus]
      split
      · exact .none
      · exact agrees_some (K.setDrbg_sameButRing ring _)
      · split
        · exact .none
        · exact agrees_map _ (K.setDrbg_sameButRing ring _)
        · exact agrees_map _ ⟨auditEnqueueAll ring _, rfl⟩

theorem detach_agrees (destroy : BusInstance.Destructor) (K : Kernel)
    (ring : AuditRing) (cap : HsmCapability) (required : HsmRights) :
    Agrees (K.detach destroy cap required)
      ((K.withRing ring).detach destroy cap required) := by
  have hregistry : (K.withRing ring).registry = K.registry := rfl
  refine agrees_of_map ring ?_
  unfold detach
  simp only [hregistry]
  split
  · rfl
  · rw [Option.map_map]
    rfl

/-! ## Reads and writes -/

theorem busRead_agrees (K : Kernel) (ring : AuditRing) (i : SlotIdx)
    (outLen : ℕ) :
    Agrees (some (K.busRead i outLen))
      (some ((K.withRing ring).busRead i outLen)) :=
  agrees_of_map ring rfl

/-- The write reaches the `Status` command of the wire dispatcher: the frame
is a well-formed `Status` request, or a `Blake3Hash` request whose input is
written to another bus and asks there. -/
inductive AsksStatus (K : Kernel) : SlotIdx → List Byte → Prop
  | status {i : SlotIdx} {r : Ring3ProcessBus} {data : List Byte}
      (hbus : K.bus i = .ring3Process r) (haccepts : AcceptsFrame r data)
      (hcmd : (Wire.requestHeader data).cmd = WireCmd.status.code)
      (hpayload : Wire.requestPayload data = []) : AsksStatus K i data
  | nested {i j : SlotIdx} {r : Ring3ProcessBus} {data : List Byte}
      (hbus : K.bus i = .ring3Process r) (haccepts : AcceptsFrame r data)
      (hcmd : (Wire.requestHeader data).cmd = WireCmd.blake3Hash.code)
      (hlen : 16 ≤ (Wire.requestPayload data).length)
      (hauth : K.registry.authenticate
        (HsmCapability.ofBytes ((Wire.requestPayload data).take 16))
        HsmRights.use = true)
      (hslot : HsmRegistry.slotIdx? (HsmCapability.ofBytes
        ((Wire.requestPayload data).take 16)).slot.toNat = some j)
      (hasks : AsksStatus K j ((Wire.requestPayload data).drop 16)) :
      AsksStatus K i data

end Kernel

namespace Wire

variable {write : WriteCall → Option WriteResult} {K : Kernel}
  {ring : AuditRing} (C : Crates)

theorem handleBlake3_agrees (reqId : BitVec 32) {payload : List Byte}
    (hnested : 16 ≤ payload.length →
      K.registry.authenticate (HsmCapability.ofBytes (payload.take 16))
        HsmRights.use = true →
      ∀ j, HsmRegistry.slotIdx?
          (HsmCapability.ofBytes (payload.take 16)).slot.toNat = some j →
        Kernel.Agrees (write (K, j, payload.drop 16))
          (write (K.withRing ring, j, payload.drop 16))) :
    Kernel.Agrees (handleBlake3 write K reqId payload)
      (handleBlake3 write (K.withRing ring) reqId payload) := by
  have hsame := K.sameButRing_withRing ring
  have hregistry : (K.withRing ring).registry = K.registry := rfl
  unfold handleBlake3
  by_cases hlen : payload.length < 16
  · simp only [hlen, if_true]
    exact Kernel.agrees_some hsame
  simp only [hlen, if_false, hregistry]
  cases hauth : K.registry.authenticate
      (HsmCapability.ofBytes (payload.take 16)) HsmRights.use with
  | false =>
    simp only [if_true]
    exact Kernel.agrees_some hsame
  | true =>
    simp only [Bool.true_eq_false, if_false]
    cases hslot : HsmRegistry.slotIdx?
        (HsmCapability.ofBytes (payload.take 16)).slot.toNat with
    | none => exact Kernel.agrees_some hsame
    | some j =>
      dsimp only
      rcases (hnested (not_lt.mp hlen) hauth j hslot).elim with
        ⟨h₁, h₂⟩ | ⟨result, K₁, ring', h₁, h₂⟩
      · rw [h₁, h₂]
        exact .none
      · rw [h₁, h₂]
        cases result with
        | error e =>
          exact Kernel.agrees_some (K₁.sameButRing_withRing ring')
        | ok n =>
          exact Kernel.agrees_some
            ((K₁.busRead j 32).2.sameButRing_withRing ring')

theorem handleAttestSubmit_agrees (K : Kernel) (ring : AuditRing)
    (reqId : BitVec 32) (payload : List Byte) :
    Kernel.Agrees (some (handleAttestSubmit C K reqId payload))
      (some (handleAttestSubmit C (K.withRing ring) reqId payload)) := by
  have hsame := K.sameButRing_withRing ring
  have htrust : (K.withRing ring).activeTrustRootPk = K.activeTrustRootPk := rfl
  have hchallenge : (K.withRing ring).bootChallenge = K.bootChallenge := rfl
  unfold handleAttestSubmit
  simp only [htrust, hchallenge]
  split
  · exact Kernel.agrees_some hsame
  · split
    · exact Kernel.agrees_some hsame
    · split
      · exact Kernel.agrees_some (hsame.audit _ _ _ _)
      · exact Kernel.agrees_some (hsame.audit _ _ _ _)

theorem dispatch_agrees (hdr : WireFrameHeader) {payload : List Byte}
    (hstatus : hdr.cmd = WireCmd.status.code → payload ≠ [])
    (hblake3 : hdr.cmd = WireCmd.blake3Hash.code →
      Kernel.Agrees (handleBlake3 write K hdr.reqId payload)
        (handleBlake3 write (K.withRing ring) hdr.reqId payload)) :
    Kernel.Agrees (dispatch C write K hdr payload)
      (dispatch C write (K.withRing ring) hdr payload) := by
  have hsame := K.sameButRing_withRing ring
  unfold dispatch
  split
  · exact Kernel.agrees_some hsame
  · split
    · rename_i hcmd
      exact hblake3 hcmd
    · split
      · exact handleAttestSubmit_agrees C K ring hdr.reqId payload
      · split
        · rename_i hcmd
          have hframe (K' : Kernel) : handleStatus K' hdr.reqId payload =
              buildErrorFrameInplace hdr.reqId .badFrame :=
            if_pos (hstatus hcmd)
          rw [hframe, hframe]
          exact Kernel.agrees_some hsame
        · exact Kernel.agrees_some hsame

theorem storeResponse_sameButRing {K₁ K₂ : Kernel} (h : K₁.SameButRing K₂)
    (i : SlotIdx) (build : FrameBuilder) :
    (storeResponse K₁ i build).SameButRing (storeResponse K₂ i build) := by
  obtain ⟨ring, rfl⟩ := h
  have hbus : (K₁.withRing ring).bus i = K₁.bus i := rfl
  unfold storeResponse
  rw [hbus]
  split
  · exact ⟨ring, rfl⟩
  · exact ⟨ring, rfl⟩

theorem ring3Write_agrees {i : SlotIdx} {r : Ring3ProcessBus} {data : List Byte}
    (hbus : K.bus i = .ring3Process r) (h : ¬ K.AsksStatus i data)
    (hnested : 16 ≤ (requestPayload data).length → ∀ j,
      ¬ K.AsksStatus j ((requestPayload data).drop 16) →
      Kernel.Agrees (write (K, j, (requestPayload data).drop 16))
        (write (K.withRing ring, j, (requestPayload data).drop 16))) :
    Kernel.Agrees (ring3Write C write K i r data)
      (ring3Write C write (K.withRing ring) i r data) := by
  have hsame := K.sameButRing_withRing ring
  unfold ring3Write
  split
  · exact Kernel.agrees_some hsame
  rename_i hopen
  split
  · exact Kernel.agrees_some hsame
  rename_i hrange
  split
  · exact Kernel.agrees_some hsame
  rename_i hidle
  split
  · rename_i hwf
    have haccepts : Kernel.AcceptsFrame r data :=
      ⟨by simpa using hopen, by omega, not_not.mp hidle, hwf⟩
    have hdispatch : Kernel.Agrees
        (dispatch C write K (requestHeader data) (requestPayload data))
        (dispatch C write (K.withRing ring) (requestHeader data)
          (requestPayload data)) := by
      apply dispatch_agrees
      · intro hcmd hpayload
        exact h (.status hbus haccepts hcmd hpayload)
      · intro hcmd
        apply handleBlake3_agrees
        intro hlen hauth j hslot
        apply hnested hlen
        intro hasks
        exact h (.nested hbus haccepts hcmd hlen hauth hslot hasks)
    rcases hdispatch.elim with ⟨h₁, h₂⟩ | ⟨build, K₁, ring', h₁, h₂⟩
    · rw [h₁, h₂]
      exact .none
    · rw [h₁, h₂]
      exact Kernel.agrees_some
        (storeResponse_sameButRing (K₁.sameButRing_withRing ring') i build)
  · exact Kernel.agrees_some hsame

end Wire

namespace Kernel

theorem busWrite_agrees (C : Crates) (K : Kernel) (ring : AuditRing)
    (i : SlotIdx) (data : List Byte) (h : ¬ K.AsksStatus i data) :
    Agrees (K.busWrite C i data) ((K.withRing ring).busWrite C i data) := by
  induction hn : data.length using Nat.strong_induction_on
    generalizing i data with
  | _ n ih =>
    have hbus : (K.withRing ring).bus i = K.bus i := rfl
    rw [busWrite_eq, busWrite_eq]
    simp only [Wire.busWriteBody, hbus]
    split
    · exact agrees_some ⟨ring, rfl⟩
    · rename_i r hr
      apply Wire.ring3Write_agrees C hr h
      intro hlen j hasks
      have hle := Wire.length_nested_add_le (not_lt.mpr hlen)
      have hshorter : ((Wire.requestPayload data).drop 16).length < n := by
        omega
      exact ih _ hshorter j _ hasks rfl
    · exact agrees_some (K.sameButRing_withRing ring)
    · exact agrees_some (K.sameButRing_withRing ring)

/-- What the relay hands to the destination asks for no status there. -/
def RelayQuiet (K : Kernel) (srcSlot dstSlot byteLen : ℕ) : Prop :=
  ∀ src dst bytes, HsmRegistry.slotIdx? srcSlot = some src →
    (K.busRead src byteLen).1 = .ok bytes →
    HsmRegistry.slotIdx? dstSlot = some dst →
    ¬ (K.busRead src byteLen).2.AsksStatus dst bytes

theorem relayTransfer_agrees (C : Crates) (K : Kernel) (ring : AuditRing)
    (srcSlot dstSlot byteLen : ℕ) (h : K.RelayQuiet srcSlot dstSlot byteLen) :
    Agrees (K.relayTransfer C srcSlot dstSlot byteLen)
      ((K.withRing ring).relayTransfer C srcSlot dstSlot byteLen) := by
  unfold relayTransfer
  cases hsrc : HsmRegistry.slotIdx? srcSlot with
  | none => exact agrees_some (K.sameButRing_withRing ring)
  | some src =>
    have hread : (K.withRing ring).busRead src byteLen =
        ((K.busRead src byteLen).1,
          (K.busRead src byteLen).2.withRing ring) := rfl
    dsimp only
    rw [hread]
    rcases hresult : K.busRead src byteLen with ⟨e | bytes, K₁⟩
    · exact agrees_some (K₁.sameButRing_withRing ring)
    · dsimp only
      split
      · exact agrees_some (K₁.sameButRing_withRing ring)
      · cases hdst : HsmRegistry.slotIdx? dstSlot with
        | none => exact agrees_some (K₁.sameButRing_withRing ring)
        | some dst =>
          have hquiet : ¬ K₁.AsksStatus dst bytes := by
            have hasks := h src dst bytes hsrc (by rw [hresult]) hdst
            rw [hresult] at hasks
            exact hasks
          dsimp only
          rcases (K₁.busWrite_agrees C ring dst bytes hquiet).elim with
            ⟨h₁, h₂⟩ | ⟨accepted, K₂, ring', h₁, h₂⟩
          · rw [h₁, h₂]
            exact .none
          · rw [h₁, h₂]
            have hsame := K₂.sameButRing_withRing ring'
            cases accepted with
            | error e => exact agrees_some hsame
            | ok n =>
              dsimp only
              split
              · exact agrees_some hsame
              · exact agrees_some hsame

end Kernel

end IsoLightK0
