import IsoLightK0.Ipc.Endpoint
import IsoLightK0.Support.Runs

/-!
# What an endpoint knows about issued capabilities

A run of `generate_capability` and `derive` calls leaves a log of what was
issued.  A capability obtained in the run, through any chain of derivations,
goes back to an entry of the log.  `post` consults no such log: it accepts
every nonzero token, so that the endpoint's acceptance is backed by the log
only when every token has been issued.
-/

namespace IsoLightK0

open Bytes Runs

inductive CapCall
  | generate (endpointId : EndpointId) (rights : Rights)
  | derive (cap : Capability) (subsetRights : Rights)

def capStep (drbg : CapDrbg) :
    CapCall → Option (Except CapError Capability × CapDrbg)
  | .generate endpointId rights => generateCapability endpointId rights drbg
  | .derive cap subsetRights => some (cap.derive subsetRights, drbg)

abbrev CapHistory := List (CapCall × Except CapError Capability)

/-- Some `generate_capability` call issued the token of `cap` for the endpoint,
with rights that include those of `cap`. -/
def Issued (history : CapHistory) (endpointId : EndpointId)
    (cap : Capability) : Prop :=
  ∃ rights issued, (.generate endpointId rights, .ok issued) ∈ history ∧
    issued.token = cap.token ∧ rights.contains cap.rights = true

/-- The capabilities obtained in the run: those generated, and those derived
from capabilities obtained. -/
inductive Obtained (history : CapHistory) : Capability → Prop
  | generated {endpointId : EndpointId} {rights : Rights} {cap : Capability} :
      (.generate endpointId rights, .ok cap) ∈ history →
        Obtained history cap
  | derived {parent cap : Capability} {subsetRights : Rights} :
      Obtained history parent →
        (.derive parent subsetRights, .ok cap) ∈ history →
        Obtained history cap

variable {drbg drbg' : CapDrbg} {history : CapHistory}

theorem exists_capStep_of_mem (hrun : Run capStep drbg history drbg')
    {call : CapCall} {result : Except CapError Capability}
    (hmem : (call, result) ∈ history) :
    ∃ drbg₁ drbg₂, capStep drbg₁ call = some (result, drbg₂) := by
  obtain ⟨later, earlier, rfl⟩ := List.append_of_mem hmem
  obtain ⟨drbg₁, drbg₂, -, hstep⟩ := hrun.exists_step
  exact ⟨drbg₁, drbg₂, hstep⟩

variable {endpointId : EndpointId} {cap : Capability}

theorem eq_of_mem_generate (hrun : Run capStep drbg history drbg')
    {rights : Rights}
    (hmem : (.generate endpointId rights, .ok cap) ∈ history) :
    cap = ⟨cap.token, endpointId, rights⟩ := by
  obtain ⟨drbg₁, drbg₂, hstep⟩ := exists_capStep_of_mem hrun hmem
  obtain ⟨-, rfl, rfl⟩ := generateCapability_eq_ok hstep
  rfl

theorem eq_of_mem_derive (hrun : Run capStep drbg history drbg')
    {parent : Capability} {subsetRights : Rights}
    (hmem : (.derive parent subsetRights, .ok cap) ∈ history) :
    parent.rights.contains Rights.grant = true ∧
      cap = { parent with rights := parent.rights.restrict subsetRights } := by
  obtain ⟨drbg₁, drbg₂, hstep⟩ := exists_capStep_of_mem hrun hmem
  apply Capability.derive_eq_ok
  exact congrArg Prod.fst (Option.some.inj hstep)

/-- Every capability obtained in the run, however often attenuated, has the
token and the endpoint of one that was generated, and no more rights; unless it
is that one, the right to derive was among them. -/
theorem obtained_attenuates (hrun : Run capStep drbg history drbg')
    (h : Obtained history cap) :
    cap.token ≠ 0 ∧ ∃ issued : Capability,
      (.generate cap.endpointId issued.rights, .ok issued) ∈ history ∧
        issued.token = cap.token ∧ issued.rights.contains cap.rights = true ∧
        (cap ≠ issued → issued.rights.contains Rights.grant = true) := by
  induction h with
  | @generated endpointId rights cap hmem =>
    obtain ⟨drbg₁, drbg₂, hstep⟩ := exists_capStep_of_mem hrun hmem
    obtain ⟨htoken, rfl, rfl⟩ := generateCapability_eq_ok hstep
    exact ⟨htoken, cap, hmem, rfl, cap.rights.contains_refl,
      fun hne => absurd rfl hne⟩
  | @derived parent cap subsetRights _ hmem ih =>
    obtain ⟨htoken, issued, hissued, hsame, hrights, -⟩ := ih
    obtain ⟨hgrant, rfl⟩ := eq_of_mem_derive hrun hmem
    exact ⟨htoken, issued, hissued, hsame,
      Rights.contains_trans hrights (parent.rights.contains_restrict subsetRights),
      fun _ => Rights.contains_trans hrights hgrant⟩

/-! ## What `post` accepts -/

/-- Every nonzero token was issued for the endpoint, with every right. -/
def EveryTokenIssued (history : CapHistory) (endpointId : EndpointId) : Prop :=
  ∀ token : BitVec 64, token ≠ 0 →
    (.generate endpointId Rights.full,
      .ok ⟨token, endpointId, Rights.full⟩) ∈ history

theorem EveryTokenIssued.issued (h : EveryTokenIssued history endpointId)
    (htoken : cap.token ≠ 0) : Issued history endpointId cap :=
  ⟨Rights.full, _, h cap.token htoken, rfl, Rights.full_contains cap.rights⟩

theorem mem_of_issued_full (hrun : Run capStep drbg history drbg')
    {token : BitVec 64}
    (h : Issued history endpointId ⟨token, endpointId, Rights.full⟩) :
    (.generate endpointId Rights.full,
      .ok ⟨token, endpointId, Rights.full⟩) ∈ history := by
  obtain ⟨rights, issued, hmem, htoken, hrights⟩ := h
  obtain rfl : rights = Rights.full := rights.contains_full_iff.mp hrights
  have hissued := eq_of_mem_generate hrun hmem
  rw [htoken] at hissued
  rwa [hissued] at hmem

theorem IpcEndpoint.post_eq_ok_iff (ep : IpcEndpoint) (cap : Capability)
    (msg : IpcMessage) : (ep.post cap msg).1 = .ok () ↔ ep.Accepts cap msg := by
  rcases ep.post_cases cap msg with ⟨haccepts, hpost⟩ | ⟨hrefuses, e, hpost⟩
  · simp [hpost, haccepts]
  · simp [hpost, hrefuses]

theorem IpcEndpoint.post_only_if_issued_iff (ep : IpcEndpoint)
    (cap : Capability) :
    (∀ msg, (ep.post cap msg).1 = .ok () → Issued history ep.id cap) ↔
      ep.state.request.isSome ∨
        cap.isValidFor ep.id ep.requiredRights = false ∨
        Issued history ep.id cap := by
  simp only [post_eq_ok_iff]
  constructor
  · intro hissued
    by_cases hbusy : ep.state.request.isSome
    · exact .inl hbusy
    by_cases hvalid : cap.isValidFor ep.id ep.requiredRights
    · -- present the capability with an empty message
      exact .inr (.inr (hissued (.new .ping 0)
        ⟨hvalid, Option.not_isSome_iff_eq_none.mp hbusy, Nat.zero_le _⟩))
    · exact .inr (.inl (Bool.eq_false_iff.mpr hvalid))
  · rintro (hbusy | hinvalid | hissued) msg haccepts
    · rw [haccepts.2.1] at hbusy
      cases hbusy
    · rw [haccepts.1] at hinvalid
      cases hinvalid
    · exact hissued

/-- That the endpoint accepts a capability only if it goes back to the issue log
holds of one capability exactly if it was issued, or is refused in any case:
because the endpoint holds a request already, or by the check of token,
endpoint and rights.  It holds of all capabilities exactly if the endpoint
holds a request or every nonzero token has been issued for it with every
right. -/
theorem post_accepts_only_issued_iff (ep : IpcEndpoint)
    (hrun : Run capStep drbg history drbg') :
    (∀ cap, (∀ msg, (ep.post cap msg).1 = .ok () → Issued history ep.id cap) ↔
      ep.state.request.isSome ∨
        cap.isValidFor ep.id ep.requiredRights = false ∨
        Issued history ep.id cap) ∧
      ((∀ cap msg, (ep.post cap msg).1 = .ok () → Issued history ep.id cap) ↔
        ep.state.request.isSome ∨ EveryTokenIssued history ep.id) := by
  refine ⟨ep.post_only_if_issued_iff, ?_⟩
  simp only [ep.post_only_if_issued_iff]
  constructor
  · intro hall
    by_cases hbusy : ep.state.request.isSome
    · exact .inl hbusy
    · refine .inr fun token htoken => mem_of_issued_full hrun ?_
      refine ((hall ⟨token, ep.id, Rights.full⟩).resolve_left
        hbusy).resolve_left ?_
      rw [Bool.not_eq_false, Capability.isValidFor_iff]
      exact ⟨htoken, rfl, Rights.full_contains ep.requiredRights⟩
  · rintro (hbusy | hall) cap
    · exact .inl hbusy
    · by_cases hvalid : cap.isValidFor ep.id ep.requiredRights = false
      · exact .inr (.inl hvalid)
      · rw [Bool.not_eq_false, Capability.isValidFor_iff] at hvalid
        exact .inr (.inr (hall.issued hvalid.1))

/-- A DRBG that draws one token, all of whose octets are 1. -/
def oneTokenDrbg : CapDrbg := some [.generated fun _ => 1]

/-- The crypto service's capability, as `issue_crypto_capability` asks for
it. -/
def cryptoIssue : CapCall := .generate 1 Rights.call

theorem run_cryptoIssue :
    Run capStep oneTokenDrbg
      [(cryptoIssue, .ok ⟨0x0101010101010101, 1, Rights.call⟩)]
      (some []) :=
  Run.start.next rfl

/-- A capability is generated, and one for calls is derived from it. -/
def deriveHistory : CapHistory :=
  [(.derive ⟨0x0101010101010101, 1, Rights.full⟩ Rights.call,
      .ok ⟨0x0101010101010101, 1, Rights.call⟩),
    (.generate 1 Rights.full, .ok ⟨0x0101010101010101, 1, Rights.full⟩)]

theorem obtained_attenuates_derived :
    ∃ cap, Obtained deriveHistory cap ∧ cap.rights = Rights.call ∧
      ∃ issued : Capability, issued.token = cap.token ∧
        (.generate cap.endpointId issued.rights, .ok issued) ∈
          deriveHistory := by
  have hrun : Run capStep oneTokenDrbg deriveHistory (some []) :=
    (Run.start.next rfl).next rfl
  have hcap : Obtained deriveHistory ⟨0x0101010101010101, 1, Rights.call⟩ :=
    .derived (.generated (.tail _ (.head _))) (.head _)
  obtain ⟨-, issued, hissued, htoken, -⟩ := obtained_attenuates hrun hcap
  exact ⟨_, hcap, rfl, issued, htoken, hissued⟩

/-- The idle crypto endpoint accepts the capability that was issued for it.
While it holds a request it accepts nothing. -/
theorem post_accepts_issued_token :
    ∃ history cap, Run capStep oneTokenDrbg history (some []) ∧
      ((IpcEndpoint.new 1 Rights.call).post cap (.new .ping 0)).1 = .ok () ∧
      Issued history 1 cap ∧
      (∀ msg, ((IpcEndpoint.new 1 Rights.call).post cap msg).1 = .ok () →
        Issued history 1 cap) ∧
      ∀ cap msg, ((⟨1, Rights.call, .pendingReply (.new .ping 1), 1⟩ :
          IpcEndpoint).post cap msg).1 = .ok () → Issued history 1 cap := by
  have hissued : Issued _ 1 ⟨0x0101010101010101, 1, Rights.call⟩ :=
    ⟨Rights.call, _, .head [], rfl, Rights.contains_refl _⟩
  exact ⟨_, _, run_cryptoIssue, rfl, hissued,
    ((post_accepts_only_issued_iff _ run_cryptoIssue).1 _).mpr
      (.inr (.inr hissued)),
    (post_accepts_only_issued_iff _ run_cryptoIssue).2.mpr (.inl rfl)⟩

/-- One token is issued for the crypto service, and a capability with another
token is accepted. -/
theorem post_accepts_forged_token :
    ∃ history drbg',
      Run capStep oneTokenDrbg history drbg' ∧
        ∃ cap msg, ((IpcEndpoint.new 1 Rights.call).post cap msg).1 = .ok () ∧
          ¬ Issued history 1 cap := by
  refine ⟨_, _, run_cryptoIssue, ⟨1, 1, Rights.call⟩, .new .ping 0, rfl, ?_⟩
  rintro ⟨rights, issued, hmem, htoken, -⟩
  rw [List.mem_singleton, Prod.mk.injEq] at hmem
  obtain rfl := Except.ok.inj hmem.2
  exact absurd htoken (by decide)

end IsoLightK0
