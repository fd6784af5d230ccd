import IsoLightK0.Registry.SingleFlight

/-!
# Nested writes

A `Blake3Hash` request on a wire bus makes the kernel write to the bus of the
slot that the request names.  That may be a wire bus as well, even the one that
is being written, so that requests can be packed into one another.  A nested
write gets what is left of the frame behind a header and a capability, 32
octets less than its caller at least, whatever the registry holds.
-/

namespace IsoLightK0

open Bytes Runs

/-- A request for a digest that is accepted, with a capability for slot `j`,
makes a write to the bus of slot `j`. -/
theorem Wire.calls_of_blake3 (C : Crates) {K : Kernel} {i j : SlotIdx}
    {r : Ring3ProcessBus} {data : List Byte}
    (hbus : K.bus i = .ring3Process r) (haccepts : Kernel.AcceptsFrame r data)
    (hcmd : (requestHeader data).cmd = WireCmd.blake3Hash.code)
    (hlen : 16 ≤ (requestPayload data).length)
    (hauth : K.registry.authenticate
      (.ofBytes ((requestPayload data).take 16)) HsmRights.use = true)
    (hslot : HsmRegistry.slotIdx?
      (HsmCapability.ofBytes ((requestPayload data).take 16)).slot.toNat =
        some j) :
    Calls (busWriteBody C) (K, i, data)
      (K, j, (requestPayload data).drop 16) := by
  classical
  obtain ⟨hopen, ⟨hlow, hhigh⟩, hidle, hwf⟩ := haccepts
  have hping : WireCmd.blake3Hash.code ≠ WireCmd.ping.code := by decide
  have hrange : ¬ (data.length < 16 ∨ data.length > wireFrameMax) := by
    omega
  -- the two writes differ in whether the nested one returns
  refine ⟨fun _ => none, Function.update (fun _ => none)
    (K, j, (requestPayload data).drop 16) (some (.error .notOpen, K)),
    fun z hz => by rw [Function.update_of_ne hz], ?_⟩
  unfold busWriteBody ring3Write dispatch handleBlake3
  simp [hbus, hopen, hrange, hidle, hwf, hcmd, hping, Nat.not_lt.mpr hlen,
    hauth, hslot]

/-- A write of `n` octets returns.  The writes that it makes, each within the
one before, are at most `n / 32 + 1` together with itself, and each of them
gets at least 32 octets less than its caller. -/
theorem busWrite_nesting (C : Crates) (K : Kernel) (i : SlotIdx)
    (data : List Byte) :
    (∃ result K', K.busWrite C i data = some (result, K')) ∧
      ∀ nested : List WriteCall,
        ((K, i, data) :: nested).IsChain (Calls (Wire.busWriteBody C)) →
          ((K, i, data) :: nested).length ≤ data.length / 32 + 1 ∧
            ((K, i, data) :: nested).IsChain fun caller callee =>
              callee.2.2.length + 32 ≤ caller.2.2.length := by
  obtain ⟨result, K', heq, -⟩ := K.busWrite_returns C i data
  refine ⟨⟨result, K', heq⟩, fun nested hchain => ?_⟩
  have hless : ((K, i, data) :: nested).IsChain fun caller callee =>
      callee.2.2.length + 32 ≤ caller.2.2.length :=
    hchain.imp fun caller callee hcalls =>
      hcalls.of_congr fun f g call => Wire.busWriteBody_congr C call
  refine ⟨Nat.succ_le_succ ?_, hless⟩
  exact length_le_of_isChain (fun call : WriteCall => call.2.2.length)
    (by decide) (fun _ _ h => h) hless

/-- A request for the digest of a `Ping` request, through slot 0. -/
def selfRequest : List Byte :=
  [0x4C, 0x57, 0x4B, 0x30, 1, 0, 0x10, 0, 9, 0, 0, 0, 32, 0, 0, 0] ++
    ((HsmCapability.issued 5 0 HsmRights.use).toBytes ++ pingRequest)

/-- A wire bus is written within a write to itself. -/
theorem busWrite_nesting_self :
    [(Kernel.wire, 0, selfRequest), (Kernel.wire, 0, pingRequest)].IsChain
        (Calls (Wire.busWriteBody Crates.inert)) ∧
      2 ≤ selfRequest.length / 32 + 1 := by
  have hcalls : Calls (Wire.busWriteBody Crates.inert)
      (Kernel.wire, 0, selfRequest) (Kernel.wire, 0, pingRequest) :=
    Wire.calls_of_blake3 Crates.inert rfl
      ⟨rfl, by decide, rfl, by decide⟩ (by decide) (by decide) (by decide)
      (by decide)
  have hchain : [(Kernel.wire, 0, selfRequest), (Kernel.wire, 0,
      pingRequest)].IsChain (Calls (Wire.busWriteBody Crates.inert)) := by
    simpa using hcalls
  exact ⟨hchain,
    ((busWrite_nesting Crates.inert Kernel.wire 0 selfRequest).2 _ hchain).1⟩

end IsoLightK0
