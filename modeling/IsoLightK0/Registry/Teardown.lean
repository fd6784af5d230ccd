import IsoLightK0.Registry.Attach
import IsoLightK0.Support.Runs

/-!
# Which bus destructions return

`BusInstance::zeroize` assigns `*self = Self::Empty`.  The assignment drops
the old value, `Drop::drop` calls `zeroize` again, and the value it finds is
again a `BusInstance`; even `Empty` has this destructor.  No bus state breaks
the cycle, so no measure can decrease along it.

Consequently `attach` returns exactly when it fails before it owns a bus, and
`detach` exactly when it refuses the capability.
-/

namespace IsoLightK0

open Bytes Runs

namespace Kernel

/-- `attach` fails before a bus is constructed: the attestation is refused, no
slot is empty, or no token can be drawn. -/
def AttachFailsEarly (C : Crates) (K : Kernel) (busKind : BusKind)
    (attestPayload : Option (List Byte)) : Prop :=
  (∃ payload, attestPayload = some payload ∧
      (payload.length ≠ pkLen + sigLen ∨
        ¬ AttestAccepted C K.activeTrustRootPk K.bootChallenge
          (attestPk payload) busKind (attestSig payload))) ∨
    (∀ i, (K.registry.slots i).state ≠ .empty) ∨
    ∃ e drbg, genTokenU64 K.capDrbg = some (.error e, drbg)

theorem attestGate_eq_error_iff (C : Crates) (K : Kernel)
    (busKind : BusKind) (attestPayload : Option (List Byte)) :
    (∃ e, K.attestGate C busKind attestPayload = .error e) ↔
      ∃ payload, attestPayload = some payload ∧
        (payload.length ≠ pkLen + sigLen ∨
          ¬ AttestAccepted C K.activeTrustRootPk K.bootChallenge
            (attestPk payload) busKind (attestSig payload)) := by
  cases attestPayload with
  | none => simp [attestGate]
  | some payload =>
    have hok := K.attestGate_eq_ok_some_iff C busKind payload
    cases hgate : K.attestGate C busKind (some payload) with
    | error e =>
      have hnot := hok (some (pkHashPrefix C (attestPk payload)))
      rw [hgate] at hnot
      have hfail : ¬ (payload.length = pkLen + sigLen ∧
          AttestAccepted C K.activeTrustRootPk K.bootChallenge
            (attestPk payload) busKind (attestSig payload)) := by
        rintro ⟨hlen, hacc⟩
        have := hnot.mpr ⟨hlen, hacc, rfl⟩
        cases this
      constructor
      · intro _
        exact ⟨payload, rfl, not_and_or.mp hfail⟩
      · intro _
        exact ⟨e, rfl⟩
    | ok attestOk =>
      obtain ⟨hlen, hacc, -⟩ := (hok attestOk).mp hgate
      simp [hlen, hacc]

/-- With a destructor that never returns, `attach` returns exactly when it
fails before it constructs a bus. -/
theorem attach_isSome_iff (C : Crates) {destroy : BusInstance.Destructor}
    (hdestroy : ∀ b, destroy b = none) (K : Kernel) (busKind : BusKind)
    (initBlob : List Byte) (attestPayload : Option (List Byte))
    (rights : HsmRights) :
    (K.attach C destroy busKind initBlob attestPayload rights).isSome ↔
      K.AttachFailsEarly C busKind attestPayload := by
  unfold AttachFailsEarly
  rw [← K.attestGate_eq_error_iff, ← HsmRegistry.firstEmpty_eq_none_iff]
  unfold attach
  cases K.attestGate C busKind attestPayload with
  | error e => simp
  | ok attestOk =>
    cases K.registry.firstEmpty with
    | none => simp
    | some i =>
      simp only [attachAt]
      cases genTokenU64 K.capDrbg with
      | none => simp
      | some drawn =>
        obtain ⟨token | token, drbg⟩ := drawn
        · simp
        · -- from here on a bus exists, and every way out drops one
          cases hopen : (BusInstance.new busKind).openBus initBlob
              K.endpoints drbg with
          | none => simp [hopen]
          | some opened =>
            obtain ⟨e | _, bus, drbg'⟩ := opened
            · simp [hopen, hdestroy]
            · simp [hopen, hdestroy]

theorem detach_isSome_iff {destroy : BusInstance.Destructor}
    (hdestroy : ∀ b, destroy b = none) (K : Kernel) (cap : HsmCapability)
    (required : HsmRights) :
    (K.detach destroy cap required).isSome ↔
      K.registry.authenticate cap required = false := by
  unfold detach
  cases K.registry.authenticate cap required with
  | false => simp
  | true => simp [HsmSlot.zeroize, BusInstance.zeroize, hdestroy]

end Kernel

/-- No `BusInstance` can be zeroized or dropped, so `attach` returns only when
it fails before it constructs a bus and `detach` only when it refuses. -/
theorem teardown_returns_iff (b : BusInstance) (C : Crates) (K : Kernel)
    (busKind : BusKind) (initBlob : List Byte)
    (attestPayload : Option (List Byte)) (rights : HsmRights)
    (cap : HsmCapability) (required : HsmRights) :
    (¬ Returns fun depth => b.zeroize (BusInstance.dropFuel depth)) ∧
      (¬ Returns fun depth => BusInstance.dropFuel depth b) ∧
      ((Returns fun depth =>
          K.attach C (BusInstance.dropFuel depth) busKind initBlob
            attestPayload rights) ↔
        K.AttachFailsEarly C busKind attestPayload) ∧
      ((Returns fun depth =>
          K.detach (BusInstance.dropFuel depth) cap required) ↔
        K.registry.authenticate cap required = false) := by
  refine ⟨?_, ?_, ?_, ?_⟩
  · apply not_returns_of_forall_none
    intro depth
    simp [BusInstance.zeroize, BusInstance.dropFuel_eq_none]
  · apply not_returns_of_forall_none
    intro depth
    exact BusInstance.dropFuel_eq_none depth b
  · have hdepth := fun depth => K.attach_isSome_iff C
      (BusInstance.dropFuel_eq_none depth) busKind initBlob attestPayload
      rights
    constructor
    · rintro ⟨depth, hsome⟩
      exact (hdepth depth).mp hsome
    · intro hearly
      exact ⟨0, (hdepth 0).mpr hearly⟩
  · have hdepth := fun depth => K.detach_isSome_iff
      (BusInstance.dropFuel_eq_none depth) cap required
    constructor
    · rintro ⟨depth, hsome⟩
      exact (hdepth depth).mp hsome
    · intro hrefused
      exact ⟨0, (hdepth 0).mpr hrefused⟩

/-- Zeroizing even the empty bus does not return. -/
theorem zeroize_empty_not_returns :
    ¬ Returns fun depth =>
      BusInstance.empty.zeroize (BusInstance.dropFuel depth) := by
  rintro ⟨depth, hsome⟩
  simp [BusInstance.zeroize, BusInstance.dropFuel_eq_none] at hsome

end IsoLightK0
