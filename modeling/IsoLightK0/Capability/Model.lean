import IsoLightK0.Bus.Instance

/-!
# IPC capabilities

A capability of `capability.rs` is a plain record: a token, the endpoint it is
for, and a mask of rights.  `generate_capability` draws the token from the
DRBG, `derive` hands on a subset of the rights, and `is_valid_for` is the only
check that an endpoint makes.
-/

namespace IsoLightK0

open Bytes

/-- `Rights`, a mask of 32 bits. -/
abbrev Rights := BitVec 32

namespace Rights

def call : Rights := 4

def grant : Rights := 8

/-- Every bit of the mask, also those that stand for no right. -/
def full : Rights := BitVec.allOnes 32

def contains (r other : Rights) : Bool :=
  r &&& other == other

def restrict (r subset : Rights) : Rights :=
  r &&& subset

theorem contains_iff (r other : Rights) :
    r.contains other = true ↔ r &&& other = other :=
  beq_iff_eq

theorem contains_refl (r : Rights) : r.contains r = true := by
  rw [contains_iff, BitVec.and_self]

theorem contains_trans {r₁ r₂ r₃ : Rights} (h₁₂ : r₁.contains r₂ = true)
    (h₂₃ : r₂.contains r₃ = true) : r₁.contains r₃ = true := by
  rw [contains_iff] at h₁₂ h₂₃ ⊢
  rw [← h₂₃, ← BitVec.and_assoc, h₁₂]

theorem contains_restrict (r subset : Rights) :
    r.contains (r.restrict subset) = true := by
  rw [contains_iff, restrict, ← BitVec.and_assoc, BitVec.and_self]

theorem full_contains (r : Rights) : full.contains r = true := by
  rw [contains_iff, full, BitVec.allOnes_and]

theorem contains_full_iff (r : Rights) :
    r.contains full = true ↔ r = full := by
  rw [contains_iff, full, BitVec.and_allOnes]

end Rights

/-- `Capability`; the padding field is never read. -/
structure Capability where
  token : BitVec 64
  endpointId : EndpointId
  rights : Rights
  deriving DecidableEq

namespace Capability

def isValidFor (cap : Capability) (endpointId : EndpointId)
    (required : Rights) : Bool :=
  ¬ CtEq cap.token 0 ∧ CtEq cap.endpointId endpointId ∧
    CtEq (cap.rights &&& required) required

def derive (cap : Capability) (subsetRights : Rights) :
    Except CapError Capability :=
  if cap.rights.contains Rights.grant = false then
    .error .noGrantRight
  else
    .ok { cap with rights := cap.rights.restrict subsetRights }

theorem isValidFor_iff (cap : Capability) (endpointId : EndpointId)
    (required : Rights) :
    cap.isValidFor endpointId required = true ↔
      cap.token ≠ 0 ∧ cap.endpointId = endpointId ∧
        cap.rights.contains required = true := by
  rw [isValidFor, decide_eq_true_iff, Rights.contains_iff]

theorem derive_eq_ok {cap child : Capability} {subsetRights : Rights}
    (h : cap.derive subsetRights = .ok child) :
    cap.rights.contains Rights.grant = true ∧
      child = { cap with rights := cap.rights.restrict subsetRights } := by
  unfold derive at h
  split at h
  · cases h
  · rename_i hgrant
    exact ⟨by simpa using hgrant, (Except.ok.inj h).symm⟩

end Capability

def generateCapability (endpointId : EndpointId) (rights : Rights)
    (drbg : CapDrbg) : Option (Except CapError Capability × CapDrbg) :=
  (genTokenU64 drbg).map fun (token, drbg) =>
    (token.map fun token => ⟨token, endpointId, rights⟩, drbg)

theorem generateCapability_eq_ok {endpointId : EndpointId} {rights : Rights}
    {drbg rest : CapDrbg} {cap : Capability}
    (h : generateCapability endpointId rights drbg = some (.ok cap, rest)) :
    cap.token ≠ 0 ∧ cap.endpointId = endpointId ∧ cap.rights = rights := by
  obtain ⟨⟨token, rest'⟩, hgen, heq⟩ := Option.map_eq_some_iff.mp h
  cases token with
  | error e => simp [Except.map] at heq
  | ok token =>
    obtain ⟨rfl, rfl⟩ :
        (⟨token, endpointId, rights⟩ : Capability) = cap ∧ rest' = rest := by
      simpa [Except.map] using heq
    exact ⟨genTokenU64_ne_zero hgen, rfl, rfl⟩

end IsoLightK0
