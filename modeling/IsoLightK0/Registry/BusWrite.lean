import IsoLightK0.Registry.Dispatch

/-!
# What bus reads and writes can do

The facts about `busRead` and `busWrite` that hold whatever command a frame
carries and however deep it nests.  A write returns; it touches only bus
contents and the audit ring; and a wire bus answers an accepted request with
one of the two kinds of frame.

Every result about nested dispatch goes through `recurse_induction`, so the
recursion is unfolded only here.
-/

namespace IsoLightK0

open Bytes Runs

/-- Two states of one bus: the transport, its open state and its role or
endpoint agree, the content may differ. -/
def BusInstance.SameTransport : BusInstance → BusInstance → Prop
  | .software s, b =>
    ∃ s', b = .software s' ∧ s'.openState = s.openState ∧ s'.role = s.role
  | .ring3Process r, b =>
    ∃ r', b = .ring3Process r' ∧ r'.openState = r.openState ∧
      r'.endpoint = r.endpoint
  | b, b' => b' = b

theorem BusInstance.SameTransport.refl (b : BusInstance) :
    b.SameTransport b := by
  cases b <;> simp [BusInstance.SameTransport]

theorem BusInstance.SameTransport.trans {b₁ b₂ b₃ : BusInstance}
    (h₁ : b₁.SameTransport b₂) (h₂ : b₂.SameTransport b₃) :
    b₁.SameTransport b₃ := by
  cases b₁ with
  | software s =>
    obtain ⟨s₂, rfl, hopen, hrole⟩ := h₁
    obtain ⟨s₃, rfl, hopen', hrole'⟩ := h₂
    exact ⟨s₃, rfl, hopen'.trans hopen, hrole'.trans hrole⟩
  | ring3Process r =>
    obtain ⟨r₂, rfl, hopen, hend⟩ := h₁
    obtain ⟨r₃, rfl, hopen', hend'⟩ := h₂
    exact ⟨r₃, rfl, hopen'.trans hopen, hend'.trans hend⟩
  | empty | usb | spi | serial | smartCard | network =>
    cases h₁
    exact h₂

/-- The second kernel differs from the first only in bus contents and in the
audit ring. -/
structure Kernel.BusesOnly (K K' : Kernel) : Prop where
  statics : K' = { K with
    registry := K'.registry
    auditRing := K'.auditRing }
  slots : ∀ j,
    K'.registry.slots j = { K.registry.slots j with bus := K'.bus j }
  transport : ∀ j, (K.bus j).SameTransport (K'.bus j)

namespace Kernel

variable (K : Kernel)

theorem BusesOnly.refl : K.BusesOnly K where
  statics := rfl
  slots := fun _ => rfl
  transport := fun _ => BusInstance.SameTransport.refl _

theorem BusesOnly.trans {K₁ K₂ K₃ : Kernel} (h₁ : K₁.BusesOnly K₂)
    (h₂ : K₂.BusesOnly K₃) : K₁.BusesOnly K₃ where
  statics := by
    rw [h₂.statics, h₁.statics]
  slots := by
    intro j
    rw [h₂.slots j, h₁.slots j]
  transport := fun j => (h₁.transport j).trans (h₂.transport j)

theorem busesOnly_setBus (i : SlotIdx) {b : BusInstance}
    (hb : (K.bus i).SameTransport b) : K.BusesOnly (K.setBus i b) where
  statics := rfl
  slots := by
    intro j
    by_cases hj : j = i
    · subst hj
      rw [bus_setBus_self]
      simp [setBus]
    · rw [bus_setBus_of_ne K b hj]
      simp only [setBus, HsmRegistry.set_slots_of_ne _ _ hj]
      rfl
  transport := by
    intro j
    by_cases hj : j = i
    · subst hj
      rwa [bus_setBus_self]
    · rw [bus_setBus_of_ne K b hj]
      exact BusInstance.SameTransport.refl _

theorem busesOnly_audit (slotIdx result busKind : Byte) (pkPrefix : Buf 4) :
    K.BusesOnly (K.audit slotIdx result busKind pkPrefix) where
  statics := rfl
  slots := fun _ => rfl
  transport := fun _ => BusInstance.SameTransport.refl _

end Kernel

namespace SoftwareBus

theorem read_sameTransport (s : SoftwareBus) (outLen : ℕ) :
    (BusInstance.software s).SameTransport (.software (s.read outLen).2) := by
  refine ⟨(s.read outLen).2, rfl, ?_⟩
  unfold read
  split <;> exact ⟨rfl, rfl⟩

theorem write_sameTransport (C : Crates) (s : SoftwareBus) (data : List Byte) :
    (BusInstance.software s).SameTransport (.software (s.write C data).2) := by
  refine ⟨(s.write C data).2, rfl, ?_⟩
  cases hopen : s.openState with
  | false =>
    rw [write_of_closed C s data hopen]
    exact ⟨hopen, rfl⟩
  | true =>
    rw [write_of_open C s data hopen]
    cases hrole : s.role with
    | echo =>
      simp only [writeEcho]
      split <;> exact ⟨hopen, hrole⟩
    | blake3 =>
      simp only [writeBlake3]
      split
      · exact ⟨hopen, hrole⟩
      · split <;> exact ⟨hopen, hrole⟩
    | aesGcm =>
      simp only [writeAesGcm]
      split
      · exact ⟨hopen, hrole⟩
      · split
        · exact ⟨hopen, hrole⟩
        · split <;> exact ⟨hopen, hrole⟩

end SoftwareBus

theorem Ring3ProcessBus.read_sameTransport (r : Ring3ProcessBus) (outLen : ℕ) :
    (BusInstance.ring3Process r).SameTransport
      (.ring3Process (r.read outLen).2) := by
  refine ⟨(r.read outLen).2, rfl, ?_⟩
  fun_cases Ring3ProcessBus.read r outLen <;> exact ⟨rfl, rfl⟩

theorem BusInstance.read_sameTransport (b : BusInstance) (outLen : ℕ) :
    b.SameTransport (b.read outLen).2 := by
  cases b with
  | software s => exact s.read_sameTransport outLen
  | ring3Process r => exact r.read_sameTransport outLen
  | empty | usb | spi | serial | smartCard | network => rfl

theorem Kernel.busRead_busesOnly (K : Kernel) (i : SlotIdx) (outLen : ℕ) :
    K.BusesOnly (K.busRead i outLen).2 :=
  K.busesOnly_setBus i ((K.bus i).read_sameTransport outLen)

/-! ## The recursion of wire dispatch -/

namespace Wire

theorem length_requestPayload_le (data : List Byte) :
    (requestPayload data).length ≤ data.length - 16 := by
  unfold requestPayload
  rw [List.length_take, List.length_drop]
  exact min_le_right _ _

/-- A nested write receives at least 32 octets less than its caller. -/
theorem length_nested_add_le {data : List Byte}
    (h : ¬ (requestPayload data).length < 16) :
    ((requestPayload data).drop 16).length + 32 ≤ data.length := by
  have hle := length_requestPayload_le data
  rw [List.length_drop]
  omega

theorem nestingBound_lt (K' K : Kernel) (j i : SlotIdx)
    {data' data : List Byte} (h : data'.length + 32 ≤ data.length) :
    nestingBound (K', j, data') < nestingBound (K, i, data) := by
  change data'.length / 32 < data.length / 32
  omega

variable {f g : WriteCall → Option WriteResult} (C : Crates)

theorem handleBlake3_congr (K : Kernel) (reqId : BitVec 32)
    (payload : List Byte)
    (h : ¬ payload.length < 16 →
      ∀ i, f (K, i, payload.drop 16) = g (K, i, payload.drop 16)) :
    handleBlake3 f K reqId payload = handleBlake3 g K reqId payload := by
  unfold handleBlake3
  by_cases hlen : payload.length < 16
  · simp [hlen]
  · simp only [hlen, if_false]
    split
    · rfl
    · split
      · rfl
      · rw [h hlen]

theorem ring3Write_congr (K : Kernel) (i : SlotIdx) (r : Ring3ProcessBus)
    (data : List Byte)
    (h : ∀ j data', data'.length + 32 ≤ data.length →
      f (K, j, data') = g (K, j, data')) :
    ring3Write C f K i r data = ring3Write C g K i r data := by
  have hblake : ∀ reqId,
      handleBlake3 f K reqId (requestPayload data) =
        handleBlake3 g K reqId (requestPayload data) := by
    intro reqId
    apply handleBlake3_congr
    intro hlen j
    exact h j _ (length_nested_add_le hlen)
  unfold ring3Write dispatch
  rw [hblake]

/-- The write depends on nested writes of at least 32 octets less only. -/
theorem busWriteBody_congr (call : WriteCall)
    (h : ∀ call', call'.2.2.length + 32 ≤ call.2.2.length → f call' = g call') :
    busWriteBody C f call = busWriteBody C g call := by
  obtain ⟨K, i, data⟩ := call
  simp only [busWriteBody]
  cases K.bus i with
  | ring3Process r =>
    apply ring3Write_congr
    intro j data' hlen
    exact h _ hlen
  | software s | empty | usb | spi | serial | smartCard | network => rfl

theorem busWriteBody_callsBelow : CallsBelow nestingBound (busWriteBody C) := by
  rintro f g ⟨K, i, data⟩ hfg
  exact busWriteBody_congr C _ fun ⟨K', j, data'⟩ hlen =>
    hfg _ (nestingBound_lt K' K j i hlen)

end Wire

namespace Kernel

/-- The write that the body calls recursively is the write itself. -/
theorem busWrite_eq (C : Crates) (K : Kernel) (i : SlotIdx) (data : List Byte) :
    K.busWrite C i data =
      Wire.busWriteBody C (fun call => call.1.busWrite C call.2.1 call.2.2)
        (K, i, data) :=
  recurse_eq (Wire.busWriteBody_callsBelow C) (K, i, data)

/-- Induction over nested writes: a property of a write's result that the body
establishes, given that nested writes have it, holds of every write. -/
theorem busWrite_induction (C : Crates)
    {P : Kernel → SlotIdx → List Byte → Option WriteResult → Prop}
    (hbody : ∀ write K i data,
      (∀ K' j data', P K' j data' (write (K', j, data')) ∨
        data.length < data'.length + 32) →
      P K i data (Wire.busWriteBody C write (K, i, data)))
    (K : Kernel) (i : SlotIdx) (data : List Byte) :
    P K i data (K.busWrite C i data) := by
  refine recurse_induction (Wire.busWriteBody_callsBelow C)
    (P := fun call result => P call.1 call.2.1 call.2.2 result) ?_ (K, i, data)
  rintro write ⟨K, i, data⟩ hbelow
  refine hbody write K i data ?_
  intro K' j data'
  by_cases hlen : data'.length + 32 ≤ data.length
  · left
    exact hbelow (K', j, data') (Wire.nestingBound_lt K' K j i hlen)
  · right
    omega

end Kernel

/-! ## Answers -/

namespace Wire

/-- The two kinds of frame that answer a request: an `Ok` response to its
command, or an error frame with a status other than `Ok`.  No response has a
payload of 16 octets, so no answer is 32 octets long. -/
def IsAnswer (hdr : WireFrameHeader) (build : FrameBuilder) : Prop :=
  (∃ cmd payload, WireCmd.code cmd = hdr.cmd ∧
      payload.bytes.length ≠ 16 ∧
      build = buildResponseFrame hdr.reqId cmd .ok payload) ∨
    ∃ status, status ≠ .ok ∧ build = buildErrorFrameInplace hdr.reqId status

theorem isAnswer_error (hdr : WireFrameHeader) {status : WireStatus}
    (h : status ≠ .ok) :
    IsAnswer hdr (buildErrorFrameInplace hdr.reqId status) :=
  .inr ⟨status, h, rfl⟩

variable {hdr : WireFrameHeader} {write : WriteCall → Option WriteResult}

theorem isAnswer_digestFrame (hcmd : hdr.cmd = WireCmd.blake3Hash.code)
    (read : Except BusError (List Byte)) :
    IsAnswer hdr (digestFrame hdr.reqId read) := by
  unfold digestFrame
  split
  · split
    · rename_i hlen
      refine .inl ⟨.blake3Hash, _, hcmd.symm, ?_, rfl⟩
      dsimp only
      omega
    · exact isAnswer_error hdr (by decide)
  · exact isAnswer_error hdr (by decide)

theorem length_statusPayload (ring : AuditRing) :
    (statusPayload ring).bytes.length =
      8 + 12 * (auditSnapshot ring auditRingCapacity).1.length := by
  have hlen := length_flatMap_of_size EnrollEvent.length_toBytes
  simp only [statusPayload, List.length_append, hlen, length_toLe,
    length_wordToLe, List.length_cons, List.length_nil]

/-- The nested write of a request returns and touches only bus contents. -/
def NestedReturns (write : WriteCall → Option WriteResult) (K : Kernel)
    (payload : List Byte) : Prop :=
  ¬ payload.length < 16 → ∀ i, ∃ result K',
    write (K, i, payload.drop 16) = some (result, K') ∧ K.BusesOnly K'

theorem handleBlake3_returns {K : Kernel} {payload : List Byte}
    (hcmd : hdr.cmd = WireCmd.blake3Hash.code)
    (hwrite : NestedReturns write K payload) :
    ∃ build K', handleBlake3 write K hdr.reqId payload = some (build, K') ∧
      K.BusesOnly K' ∧ IsAnswer hdr build := by
  unfold handleBlake3
  by_cases hlen : payload.length < 16
  · simp only [hlen, if_true]
    exact ⟨_, K, rfl, .refl K, isAnswer_error hdr (by decide)⟩
  · simp only [hlen, if_false]
    split
    · exact ⟨_, K, rfl, .refl K, isAnswer_error hdr (by decide)⟩
    · split
      · exact ⟨_, K, rfl, .refl K, isAnswer_error hdr (by decide)⟩
      · rename_i i _
        obtain ⟨result, K', hresult, hbuses⟩ := hwrite hlen i
        rw [hresult]
        cases result with
        | error e =>
          exact ⟨_, K', rfl, hbuses, isAnswer_error hdr (by decide)⟩
        | ok n =>
          exact ⟨_, _, rfl, hbuses.trans (K'.busRead_busesOnly i 32),
            isAnswer_digestFrame hcmd _⟩

theorem handleAttestSubmit_spec (C : Crates) (K : Kernel) (payload : List Byte)
    (hcmd : hdr.cmd = WireCmd.attestSubmit.code) :
    K.BusesOnly (handleAttestSubmit C K hdr.reqId payload).2 ∧
      IsAnswer hdr (handleAttestSubmit C K hdr.reqId payload).1 := by
  unfold handleAttestSubmit
  split
  · exact ⟨.refl K, isAnswer_error hdr (by decide)⟩
  · dsimp only
    split
    · exact ⟨.refl K, isAnswer_error hdr (by decide)⟩
    · split
      · exact ⟨K.busesOnly_audit _ _ _ _,
          .inl ⟨.attestSubmit, _, hcmd.symm, by simp, rfl⟩⟩
      · exact ⟨K.busesOnly_audit _ _ _ _, isAnswer_error hdr (by decide)⟩

theorem dispatch_returns (C : Crates) {K : Kernel} (hdr : WireFrameHeader)
    {payload : List Byte} (hwrite : NestedReturns write K payload) :
    ∃ build K', dispatch C write K hdr payload = some (build, K') ∧
      K.BusesOnly K' ∧ IsAnswer hdr build := by
  unfold dispatch
  split
  · rename_i hcmd
    exact ⟨_, K, rfl, .refl K, .inl ⟨.ping, _, hcmd.symm, by simp, rfl⟩⟩
  · split
    · rename_i hcmd
      exact handleBlake3_returns hcmd hwrite
    · split
      · rename_i hcmd
        obtain ⟨hbuses, hanswer⟩ := handleAttestSubmit_spec C K payload hcmd
        exact ⟨_, _, rfl, hbuses, hanswer⟩
      · split
        · rename_i hcmd
          refine ⟨_, K, rfl, .refl K, ?_⟩
          unfold handleStatus
          split
          · exact isAnswer_error hdr (by decide)
          · refine .inl ⟨.status, _, hcmd.symm, ?_, rfl⟩
            rw [length_statusPayload]
            omega
        · exact ⟨_, K, rfl, .refl K, isAnswer_error hdr (by decide)⟩

theorem storeResponse_busesOnly (K : Kernel) (i : SlotIdx)
    (build : FrameBuilder) : K.BusesOnly (storeResponse K i build) := by
  unfold storeResponse
  split
  · rename_i r hbus
    apply K.busesOnly_setBus
    rw [hbus]
    exact ⟨_, rfl, rfl, rfl⟩
  · exact .refl K

end Wire

namespace Kernel

variable (C : Crates) {K : Kernel} {i : SlotIdx}

/-- Every bus write returns, and touches only bus contents and the audit
ring. -/
theorem busWrite_returns (K : Kernel) (i : SlotIdx) (data : List Byte) :
    ∃ result K', K.busWrite C i data = some (result, K') ∧ K.BusesOnly K' := by
  refine busWrite_induction C
    (P := fun K _ _ written =>
      ∃ result K', written = some (result, K') ∧ K.BusesOnly K') ?_ K i data
  intro write K i data hnested
  simp only [Wire.busWriteBody]
  split
  · rename_i s hbus
    refine ⟨_, _, rfl, K.busesOnly_setBus i ?_⟩
    rw [hbus]
    exact s.write_sameTransport C data
  · rename_i r hbus
    unfold Wire.ring3Write
    split
    · exact ⟨_, K, rfl, .refl K⟩
    · split
      · exact ⟨_, K, rfl, .refl K⟩
      · split
        · exact ⟨_, K, rfl, .refl K⟩
        · split
          · have hwrite :
                Wire.NestedReturns write K (Wire.requestPayload data) := by
              intro hlen j
              have hle := Wire.length_nested_add_le hlen
              rcases hnested K j ((Wire.requestPayload data).drop 16) with
                hreturns | hlarge
              · exact hreturns
              · omega
            obtain ⟨build, K', hdispatch, hbuses, -⟩ :=
              Wire.dispatch_returns C (Wire.requestHeader data) hwrite
            rw [hdispatch]
            exact ⟨_, _, rfl,
              hbuses.trans (Wire.storeResponse_busesOnly K' i build)⟩
          · exact ⟨_, K, rfl, .refl K⟩
  · exact ⟨_, K, rfl, .refl K⟩
  · exact ⟨_, K, rfl, .refl K⟩

theorem busWrite_software {s : SoftwareBus} (hbus : K.bus i = .software s)
    (data : List Byte) :
    K.busWrite C i data =
      some ((s.write C data).1, K.setBus i (.software (s.write C data).2)) := by
  rw [busWrite_eq]
  simp only [Wire.busWriteBody, hbus]

theorem busWrite_busesOnly {C : Crates} {K' : Kernel} {data : List Byte}
    {result : Except BusError ℕ} (h : K.busWrite C i data = some (result, K')) :
    K.BusesOnly K' := by
  obtain ⟨result', K'', hwritten, hbuses⟩ := K.busWrite_returns C i data
  rw [h] at hwritten
  cases hwritten
  exact hbuses

theorem bus_storeResponse {K₁ : Kernel} {r : Ring3ProcessBus}
    (hbus : K.bus i = .ring3Process r) (hbuses : K.BusesOnly K₁)
    (build : FrameBuilder) :
    ∃ r₁ : Ring3ProcessBus, (Wire.storeResponse K₁ i build).bus i =
        .ring3Process (r₁.setPending (build r₁.pendingResponse)) ∧
      r₁.openState = r.openState := by
  have htransport := hbuses.transport i
  rw [hbus] at htransport
  obtain ⟨r₁, hbus₁, hopen, -⟩ := htransport
  refine ⟨r₁, ?_, hopen⟩
  unfold Wire.storeResponse
  rw [hbus₁]
  exact bus_setBus_self K₁ i _

/-- A wire bus takes a frame: it is open, idle, and the frame passes the
length and header checks. -/
def AcceptsFrame (r : Ring3ProcessBus) (data : List Byte) : Prop :=
  r.openState = true ∧ (16 ≤ data.length ∧ data.length ≤ wireFrameMax) ∧
    r.responseLen = 0 ∧ Wire.RequestWellFormed data

/-- Every write to a wire bus: a refusal changes nothing at all, an accepted
frame is dispatched and answered in the pending buffer. -/
theorem busWrite_ring3_cases {r : Ring3ProcessBus}
    (hbus : K.bus i = .ring3Process r) (data : List Byte) :
    (¬ AcceptsFrame r data ∧
        ∃ e, K.busWrite C i data = some (.error e, K)) ∨
      AcceptsFrame r data ∧ ∃ build K₁, K.BusesOnly K₁ ∧
        Wire.IsAnswer (Wire.requestHeader data) build ∧
        Wire.dispatch C (fun call => call.1.busWrite C call.2.1 call.2.2) K
            (Wire.requestHeader data) (Wire.requestPayload data) =
          some (build, K₁) ∧
        K.busWrite C i data =
          some (.ok data.length, Wire.storeResponse K₁ i build) := by
  rw [busWrite_eq]
  simp only [Wire.busWriteBody, hbus, Wire.ring3Write]
  by_cases hopen : r.openState = true
  · by_cases hlen : 16 ≤ data.length ∧ data.length ≤ wireFrameMax
    · by_cases hidle : r.responseLen = 0
      · by_cases hwf : Wire.RequestWellFormed data
        · right
          refine ⟨⟨hopen, hlen, hidle, hwf⟩, ?_⟩
          have hnested : Wire.NestedReturns
              (fun call => call.1.busWrite C call.2.1 call.2.2) K
              (Wire.requestPayload data) :=
            fun _ j => K.busWrite_returns C j _
          obtain ⟨build, K₁, hdispatch, hbuses, hanswer⟩ :=
            Wire.dispatch_returns C (Wire.requestHeader data) hnested
          refine ⟨build, K₁, hbuses, hanswer, hdispatch, ?_⟩
          have hrange : ¬ (data.length < 16 ∨ data.length > wireFrameMax) := by
            omega
          simp [hopen, hrange, hidle, hwf, hdispatch]
        · left
          refine ⟨fun h => hwf h.2.2.2, .internal, ?_⟩
          simp [hwf, hopen, hidle]
      · left
        refine ⟨fun h => hidle h.2.2.1, .internal, ?_⟩
        simp [hidle, hopen]
    · left
      refine ⟨fun h => hlen h.2.1, .internal, ?_⟩
      have hrange : data.length < 16 ∨ data.length > wireFrameMax := by
        omega
      simp [hrange, hopen]
  · left
    refine ⟨fun h => hopen h.1, .notOpen, ?_⟩
    simp [hopen]

end Kernel

end IsoLightK0
