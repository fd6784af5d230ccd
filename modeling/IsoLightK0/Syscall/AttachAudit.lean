import IsoLightK0.Attest.AuditRing
import IsoLightK0.Registry.AttestSubmit
import IsoLightK0.Syscall.Admission

/-!
# What attach calls leave in the audit ring

The result catalogue assigns a code to every outcome of an attach.
`handle_attach` records success and attestation failure.  A full registry, a
failed token draw and a bus that does not open leave no event.
-/

namespace IsoLightK0

open Bytes Runs Handler

/-- The result code that the catalogue of the wire protocol assigns to an
outcome. -/
def catalogueCode : Except HsmCapError HsmCapability → Byte
  | .ok _ => 0
  | .error .attestFailed => 1
  | .error .full => 2
  | .error .badInit => 3
  | .error _ => 4

/-- The registry attach of the call had an outcome, and one event with the
code of that outcome was appended, behind the events of the reseeds that the
call went through. -/
def RecordsOutcome (C : Crates) (destroy : BusInstance.Destructor)
    (ctx : SyscallContext) (user : Mem) (busKind : BusKind)
    (K K' : Kernel) : Prop :=
  ∃ result K₁,
    K.attach C destroy busKind (attachInit ctx user)
        (some (attachPayload ctx user)) fullRights = some (result, K₁) ∧
      ∃ call : AuditCall, call.result = catalogueCode result ∧
        K'.auditRing = call.enqueue (auditEnqueueAll K.auditRing
          (reseedEvents K.capDrbg K'.capDrbg))

/-- The gate refuses the payload, or nothing behind the gate is in the way: a
slot is empty, the generator delivers a token, the new bus opens, and the bus
that it replaces in the slot can be dropped. -/
def AttachSettles (C : Crates) (destroy : BusInstance.Destructor)
    (ctx : SyscallContext) (user : Mem) (busKind : BusKind) (K : Kernel) :
    Prop :=
  ¬ K.PassesAttestGate C busKind (attachPayload ctx user) ∨
    ∃ i token drbg bus drbg',
      K.registry.firstEmpty = some i ∧
      genTokenU64 K.capDrbg = some (.ok token, drbg) ∧
      (BusInstance.new busKind).openBus (attachInit ctx user) K.endpoints
        drbg = some (.ok (), bus, drbg') ∧
      (destroy (K.bus i)).isSome = true

theorem AuditCall.enqueue_ne (call : AuditCall) (r : AuditRing) :
    call.enqueue r ≠ r := by
  intro h
  have htotal : r.total + 1 = r.total := congrArg AuditRing.total h
  bv_omega

variable {C : Crates} {destroy : BusInstance.Destructor} {K : Kernel}
  {busKind : BusKind} {result : Except HsmCapError HsmCapability}
  {ctx : SyscallContext} {user : Mem} {tlsExternal : Bool} {K' : Kernel}
  {value : BitVec 64}

/-- Past the gate, with a free slot, a token and a bus that opens, `attach`
succeeds once the old bus of the slot has been dropped. -/
theorem Kernel.attach_of_settled (destroy : BusInstance.Destructor)
    {initBlob payload : List Byte} (rights : HsmRights) {i : SlotIdx}
    {token : BitVec 64} {drbg drbg' : CapDrbg} {bus : BusInstance}
    (hgate : K.PassesAttestGate C busKind payload)
    (hempty : K.registry.firstEmpty = some i)
    (htoken : genTokenU64 K.capDrbg = some (.ok token, drbg))
    (hopen : (BusInstance.new busKind).openBus initBlob K.endpoints drbg =
      some (.ok (), bus, drbg')) :
    ∃ K₁, K.attach C destroy busKind initBlob (some payload) rights =
      (destroy (K.bus i)).map fun _ =>
        (.ok (HsmCapability.issued token i rights), K₁) := by
  obtain ⟨attestOk, hgate⟩ := hgate
  simp only [attach, hgate, hempty, attachAt, htoken, hopen]
  exact ⟨_, rfl⟩

theorem attach_isSome_of_settles
    (h : AttachSettles C destroy ctx user busKind K) :
    (K.attach C destroy busKind (attachInit ctx user)
      (some (attachPayload ctx user)) fullRights).isSome = true := by
  by_cases hgate : K.PassesAttestGate C busKind (attachPayload ctx user)
  · rcases h with
      hrefused | ⟨i, token, drbg, bus, drbg', hempty, htoken, hopen, hdrop⟩
    · exact (hrefused hgate).elim
    · obtain ⟨K₁, hattach⟩ := Kernel.attach_of_settled destroy fullRights hgate
        hempty htoken hopen
      rw [hattach, Option.isSome_map]
      exact hdrop
  · obtain ⟨K₁, hfailed⟩ := (K.attach_eq_attestFailed_iff C destroy busKind
      (attachInit ctx user) (attachPayload ctx user) fullRights).mpr hgate
    rw [hfailed]
    rfl

/-- The kernel has only drawn from the generator, as far as the audit ring is
concerned. -/
structure Kernel.DrawsOnly (K K₁ : Kernel) : Prop where
  drawn : DrawnFrom K.capDrbg K₁.capDrbg
  ring : K₁.auditRing =
    auditEnqueueAll K.auditRing (reseedEvents K.capDrbg K₁.capDrbg)

/-- An attach that returns has refused the payload at its gate, succeeded
because nothing was in the way, or failed for a reason behind the gate; in the
audit ring it leaves the events of reseeds only. -/
theorem Kernel.attach_settles_cases {K₁ : Kernel}
    (h : K.attach C destroy busKind (attachInit ctx user)
      (some (attachPayload ctx user)) fullRights = some (result, K₁)) :
    K.DrawsOnly K₁ ∧
      ((AttachSettles C destroy ctx user busKind K ∧
          (result = .error .attestFailed ∨ ∃ cap, result = .ok cap)) ∨
        (¬ AttachSettles C destroy ctx user busKind K ∧
          ∃ e, e ≠ .attestFailed ∧ result = .error e)) := by
  have hgate := K.attach_eq_attestFailed_iff C destroy busKind
    (attachInit ctx user) (attachPayload ctx user) fullRights
  have hpasses (hother : result ≠ .error .attestFailed) :
      K.PassesAttestGate C busKind (attachPayload ctx user) := by
    by_contra hrefused
    obtain ⟨K', hfailed⟩ := hgate.mpr hrefused
    rw [h] at hfailed
    cases hfailed
    exact hother rfl
  rcases attach_cases h with
    ⟨e, drbg, hdrawn, rfl, rfl⟩ |
    ⟨attestOk, i, token, drbg₁, bus, drbg₂, -, hempty, htoken, hopen, rfl,
      rfl⟩
  · refine ⟨⟨hdrawn, rfl⟩, ?_⟩
    by_cases he : e = .attestFailed
    · subst he
      exact .inl ⟨.inl (hgate.mp ⟨_, h⟩), .inl rfl⟩
    · have hgate' := hpasses fun heq => he (Except.error.inj heq)
      refine .inr ⟨?_, e, he, rfl⟩
      rintro (hrefused |
        ⟨i, token, drbg', bus, drbg'', hempty, htoken, hopen, -⟩)
      · exact hrefused hgate'
      · obtain ⟨K₁, hattach⟩ := attach_of_settled destroy fullRights hgate'
          hempty htoken hopen
        rw [hattach] at h
        obtain ⟨-, -, heq⟩ := Option.map_eq_some_iff.mp h
        cases heq
  · have hdrawn := (genTokenU64_drawn htoken).trans
      (BusInstance.openBus_drawn hopen)
    refine ⟨⟨hdrawn, rfl⟩, .inl ⟨.inr ⟨i, token, drbg₁, bus, drbg₂, hempty,
      htoken, hopen, ?_⟩, .inr ⟨_, rfl⟩⟩⟩
    obtain ⟨K₁, hattach⟩ := attach_of_settled destroy fullRights (hpasses nofun)
      hempty htoken hopen
    rw [hattach] at h
    obtain ⟨_, hdrop, -⟩ := Option.map_eq_some_iff.mp h
    rw [hdrop]
    rfl

theorem syscall_handleAttach_reached {user' : Mem}
    (hargs : attachRequest tlsExternal K ctx = some busKind)
    (h : (handleAttach tlsExternal C destroy ctx).syscall K user =
      some ((value, user'), K')) :
    ∃ result K₁,
      K.attach C destroy busKind (attachInit ctx user)
          (some (attachPayload ctx user)) fullRights = some (result, K₁) ∧
        K' = recordAttach busKind
          (pkHashPrefix C (Kernel.attestPk (attachPayload ctx user))) K₁
          result := by
  cases syscall_handleAttach h with
  | refused e hnone =>
    rw [hnone] at hargs
    cases hargs
  | networkRefused hrefused =>
    rw [hrefused.attachRequest_eq_none] at hargs
    cases hargs
  | reached hargs' hattach =>
    rw [hargs'] at hargs
    cases hargs
    exact ⟨_, _, hattach, rfl⟩

theorem recordAttach_capDrbg (busKind : BusKind) (pkPrefix : Buf 4)
    (K : Kernel) (result : Except HsmCapError HsmCapability) :
    (recordAttach busKind pkPrefix K result).capDrbg = K.capDrbg := by
  unfold recordAttach
  split <;> rfl

/-- A returning call records its outcome exactly when the outcome is settled
at the gate or by success. -/
theorem recordsOutcome_iff_settles {user' : Mem}
    (hargs : attachRequest tlsExternal K ctx = some busKind)
    (h : (handleAttach tlsExternal C destroy ctx).syscall K user =
      some ((value, user'), K')) :
    RecordsOutcome C destroy ctx user busKind K K' ↔
      AttachSettles C destroy ctx user busKind K := by
  obtain ⟨result, K₁, hattach, rfl⟩ := syscall_handleAttach_reached hargs h
  obtain ⟨⟨-, hring⟩, hcases⟩ := Kernel.attach_settles_cases hattach
  rw [RecordsOutcome, recordAttach_capDrbg, ← hring]
  constructor
  · rintro ⟨result', K₁', hattach', call, -, hrecorded⟩
    rw [hattach] at hattach'
    cases hattach'
    rcases hcases with ⟨hsettles, -⟩ | ⟨-, e, he, rfl⟩
    · exact hsettles
    · have hkept : (recordAttach busKind
          (pkHashPrefix C (Kernel.attestPk (attachPayload ctx user))) K₁
          (.error e)).auditRing = K₁.auditRing := by
        cases e with
        | attestFailed => exact (he rfl).elim
        | full | badInit | invalidToken | invalidSlot | rightsMissing
        | notAttached | busy | tokenGen => rfl
      rw [hkept] at hrecorded
      exact (call.enqueue_ne K₁.auditRing hrecorded.symm).elim
  · intro hsettles
    refine ⟨result, K₁, hattach, ?_⟩
    let pkPrefix := pkHashPrefix C (Kernel.attestPk (attachPayload ctx user))
    rcases hcases with ⟨-, rfl | ⟨cap, rfl⟩⟩ | ⟨hnot, -⟩
    · exact ⟨⟨0xFF, 1, busKind.octet, pkPrefix⟩, rfl, rfl⟩
    · exact ⟨⟨cap.slot, 0, busKind.octet, pkPrefix⟩, rfl, rfl⟩
    · exact (hnot hsettles).elim

/-- The code's destructor never returns, so that with it only a refusal at the
gate is recorded. -/
theorem attachSettles_dropFuel_iff (depth : ℕ) :
    AttachSettles C (BusInstance.dropFuel depth) ctx user busKind K ↔
      ¬ K.PassesAttestGate C busKind (attachPayload ctx user) := by
  unfold AttachSettles
  simp [BusInstance.dropFuel_eq_none]

/-! ## Runs of calls -/

/-- The call leaves exactly the events it should: it is not refused for a
closed network, and if it enters the registry its outcome is recorded. -/
def AttachAdmits (tlsExternal : Bool) (C : Crates)
    (destroy : BusInstance.Destructor) (K : Kernel) (call : AttachCall) :
    Prop :=
  ¬ NetworkRefused tlsExternal K call.1 ∧
    ∀ busKind, attachRequest tlsExternal K call.1 = some busKind →
      AttachSettles C destroy call.1 call.2 busKind K

theorem AttachOutcome.networkCapState
    (h : AttachOutcome tlsExternal C destroy ctx K user value K') :
    K'.networkCapState = K.networkCapState := by
  cases h with
  | refused e hargs => rfl
  | networkRefused hrefused => rfl
  | reached hargs hattach =>
    rename_i busKind result K₁
    have hrecord : (recordAttach busKind
        (pkHashPrefix C (Kernel.attestPk (attachPayload ctx user))) K₁
        result).networkCapState = K₁.networkCapState := by
      unfold recordAttach
      split <;> rfl
    rw [hrecord]
    rcases Kernel.attach_cases hattach with
      ⟨e, drbg, -, -, rfl⟩ |
      ⟨attestOk, i, token, drbg₁, bus, drbg₂, -, -, -, -, -, rfl⟩
    · rfl
    · rfl

theorem attachRequest_congr (h : K'.networkCapState = K.networkCapState)
    (ctx : SyscallContext) :
    attachRequest tlsExternal K' ctx = attachRequest tlsExternal K ctx := by
  have hopen : NetworkOpen tlsExternal K' ↔ NetworkOpen tlsExternal K := by
    unfold NetworkOpen
    rw [h]
  simp only [attachRequest, requestedKind, hopen]

/-- One admitted call: the counter moves once for each event of a reseed, and
once more exactly if the call entered the registry. -/
theorem total_attachStep {call : AttachCall}
    (hadmits : AttachAdmits tlsExternal C destroy K call)
    (h : attachStep tlsExternal C destroy K call = some (value, K')) :
    DrawnFrom K.capDrbg K'.capDrbg ∧
      K'.auditRing.total = K.auditRing.total + BitVec.ofNat 32
        ((if (attachRequest tlsExternal K call.1).isSome then 1 else 0) +
          (reseedEvents K.capDrbg K'.capDrbg).length) := by
  obtain ⟨user', hcall⟩ := attachStep_eq_some h
  cases hrequest : attachRequest tlsExternal K call.1 with
  | some busKind =>
    obtain ⟨-, -, -, event, -, hring⟩ :=
      (recordsOutcome_iff_settles hrequest hcall).mpr
        (hadmits.2 busKind hrequest)
    obtain ⟨result, K₁, hattach, rfl⟩ :=
      syscall_handleAttach_reached hrequest hcall
    obtain ⟨⟨hdrawn, -⟩, -⟩ := Kernel.attach_settles_cases hattach
    rw [recordAttach_capDrbg] at hring ⊢
    refine ⟨hdrawn, ?_⟩
    have happends : Appends _ K.auditRing (auditEnqueueAll K.auditRing
        (reseedEvents K.capDrbg K₁.capDrbg)) := ⟨_, rfl, rfl⟩
    have hone : Appends 1 _ (event.enqueue (auditEnqueueAll K.auditRing
        (reseedEvents K.capDrbg K₁.capDrbg))) := ⟨[event], rfl, rfl⟩
    rw [hring, (happends.trans hone).total, Nat.add_comm]
    rfl
  | none =>
    have hsame : K' = K := by
      cases syscall_handleAttach hcall with
      | refused e hargs => rfl
      | networkRefused hrefused => exact (hadmits.1 hrefused).elim
      | reached hargs hattach =>
        rw [hrequest] at hargs
        cases hargs
    rw [hsame, reseedEvents_self]
    exact ⟨.refl _, (BitVec.add_zero _).symm⟩

/-- Over a run of admitted calls the counter grows by the number of calls that
entered the registry and by the number of events of reseeds. -/
theorem total_attachRun {K₀ : Kernel} {history : List (AttachCall × BitVec 64)}
    (hrun : GuardedRun (AttachAdmits tlsExternal C destroy)
      (attachStep tlsExternal C destroy) K₀ history K) :
    K.networkCapState = K₀.networkCapState ∧
      DrawnFrom K₀.capDrbg K.capDrbg ∧
      K.auditRing.total = K₀.auditRing.total + BitVec.ofNat 32
        ((history.countP fun event =>
          (attachRequest tlsExternal K₀ event.1.1).isSome) +
            (reseedEvents K₀.capDrbg K.capDrbg).length) := by
  induction hrun with
  | start =>
    rw [reseedEvents_self]
    exact ⟨rfl, .refl _, (BitVec.add_zero _).symm⟩
  | @next history K K' call value _ hadmits hstep ih =>
    obtain ⟨hstate, hbefore, htotal⟩ := ih
    obtain ⟨user', hcall⟩ := attachStep_eq_some hstep
    obtain ⟨hdrawn, hmore⟩ := total_attachStep hadmits hstep
    refine ⟨(syscall_handleAttach hcall).networkCapState.trans hstate,
      hbefore.trans hdrawn, ?_⟩
    rw [hmore, htotal, attachRequest_congr hstate, List.countP_cons,
      reseedEvents_trans hbefore hdrawn, List.length_append,
      BitVec.add_assoc, ← BitVec.ofNat_add]
    congr 2
    dsimp only
    omega

/-- An attach call that enters the registry returns and appends one event with
the catalogue code of its outcome if and only if the gate refuses the payload
or nothing behind the gate is in the way.  With the code's own destructor this
leaves the refusals.  In a run of such calls, without requests for a closed
network, the total grows by the number of calls that entered the registry and
the number of events of reseeds. -/
theorem attach_recorded_iff_settles (tlsExternal : Bool) (C : Crates)
    (destroy : BusInstance.Destructor) :
    (∀ (ctx : SyscallContext) (K : Kernel) (user : Mem) (busKind : BusKind),
      attachRequest tlsExternal K ctx = some busKind →
        ((∃ value user' K',
          (handleAttach tlsExternal C destroy ctx).syscall K user =
              some ((value, user'), K') ∧
            RecordsOutcome C destroy ctx user busKind K K') ↔
          AttachSettles C destroy ctx user busKind K)) ∧
      (∀ (depth : ℕ) (ctx : SyscallContext) (K : Kernel) (user : Mem)
        (busKind : BusKind),
        AttachSettles C (BusInstance.dropFuel depth) ctx user busKind K ↔
          ¬ K.PassesAttestGate C busKind (attachPayload ctx user)) ∧
      ∀ (K₀ K : Kernel) (history : List (AttachCall × BitVec 64)),
        GuardedRun (AttachAdmits tlsExternal C destroy)
            (attachStep tlsExternal C destroy) K₀ history K →
        K.auditRing.total = K₀.auditRing.total + BitVec.ofNat 32
          ((history.countP fun event =>
            (attachRequest tlsExternal K₀ event.1.1).isSome) +
              (reseedEvents K₀.capDrbg K.capDrbg).length) := by
  refine ⟨?_, ?_, ?_⟩
  · intro ctx K user busKind hargs
    constructor
    · rintro ⟨value, user', K', hcall, hrecords⟩
      exact (recordsOutcome_iff_settles hargs hcall).mp hrecords
    · intro hsettles
      obtain ⟨value, user', K', hcall⟩ :=
        exists_syscall_handleAttach hargs (attach_isSome_of_settles hsettles)
      exact ⟨value, user', K', hcall,
        (recordsOutcome_iff_settles hargs hcall).mpr hsettles⟩
  · intro depth ctx K user busKind
    exact attachSettles_dropFuel_iff depth
  · intro K₀ K history hrun
    exact (total_attachRun hrun).2.2

/-! ### Calls on a booted kernel -/

theorem attachSettles_refused (destroy : BusInstance.Destructor) (K : Kernel) :
    AttachSettles Crates.inert destroy softwareAttachCall.1
      softwareAttachCall.2 .software K := by
  refine .inl ?_
  rintro ⟨attestOk, hgate⟩
  obtain ⟨-, ⟨digest, hdigest, -⟩, -⟩ :=
    (K.attestGate_eq_ok_some_iff _ _ _ _).mp hgate
  cases hdigest

/-- A kernel whose DRBG asks for a reseed, which records one event, and then
delivers a token. -/
def reseedingKernel : Kernel :=
  Kernel.boot [.reseedRequired [⟨0xFE, 9, 0, Buf.zero⟩] (.ok ()),
    .generated fun _ => 1] Buf.zero Buf.zero 1 2

set_option maxRecDepth 40000 in
/-- A refused call is recorded under the code's destructor, twice in a run of
two.  With a destructor that returns, a successful call is recorded as well,
behind the event of its reseed. -/
theorem attach_recorded_refused :
    (∃ value user' K',
      (handleAttach false Crates.inert (BusInstance.dropFuel 1000)
          softwareAttachCall.1).syscall seededKernel softwareAttachCall.2 =
        some ((value, user'), K') ∧
      RecordsOutcome Crates.inert (BusInstance.dropFuel 1000)
        softwareAttachCall.1 softwareAttachCall.2 .software seededKernel
        K') ∧
    (∃ history K, GuardedRun
        (AttachAdmits false Crates.inert (BusInstance.dropFuel 1000))
        (attachStep false Crates.inert (BusInstance.dropFuel 1000))
        seededKernel history K ∧
      history.length = 2 ∧ K.auditRing.total = 2) ∧
    ∃ history K, GuardedRun
        (AttachAdmits false Crates.accepting fun _ => some ())
        (attachStep false Crates.accepting fun _ => some ())
        reseedingKernel history K ∧
      history.length = 1 ∧ K.auditRing.total = 2 := by
  obtain ⟨hcall, -, hrun⟩ := attach_recorded_iff_settles false Crates.inert
    (BusInstance.dropFuel 1000)
  obtain ⟨-, -, hrun'⟩ := attach_recorded_iff_settles false Crates.accepting
    fun _ => some ()
  refine ⟨(hcall _ _ _ .software rfl).mpr (attachSettles_refused _ _), ?_, ?_⟩
  · have hadmits (K : Kernel) : AttachAdmits false Crates.inert
        (BusInstance.dropFuel 1000) K softwareAttachCall := by
      refine ⟨fun h => absurd h.1 (by decide), ?_⟩
      rintro _ ⟨⟩
      exact attachSettles_refused _ _
    have htwo : GuardedRun _ (attachStep false Crates.inert
        (BusInstance.dropFuel 1000)) seededKernel _ _ :=
      .next (.next .start (hadmits _) rfl) (hadmits _) rfl
    exact ⟨_, _, htwo, rfl, (hrun _ _ _ htwo).trans rfl⟩
  · have hadmits : AttachAdmits false Crates.accepting (fun _ => some ())
        reseedingKernel softwareAttachCall := by
      refine ⟨fun h => absurd h.1 (by decide), ?_⟩
      rintro _ ⟨⟩
      exact .inr ⟨0, _, _, _, _, rfl, rfl, rfl, rfl⟩
    have hone : GuardedRun _ (attachStep false Crates.accepting
        fun _ => some ()) reseedingKernel _ _ := .next .start hadmits rfl
    exact ⟨_, _, hone, rfl, (hrun' _ _ _ hone).trans rfl⟩

/-- A boot kernel whose DRBG fails. -/
def failingKernel : Kernel := Kernel.boot [.failed] Buf.zero Buf.zero 1 2

/-- A kernel without an empty slot. -/
def fullKernel : Kernel :=
  { seededKernel with
    registry := ⟨fun _ => { HsmSlot.new with state := .attached }⟩ }

theorem not_recordsOutcome (hring : K'.auditRing = auditEnqueueAll K.auditRing
    (reseedEvents K.capDrbg K'.capDrbg)) :
    ¬ RecordsOutcome C destroy ctx user busKind K K' := by
  rintro ⟨-, -, -, call, -, hrecorded⟩
  rw [hring] at hrecorded
  exact call.enqueue_ne _ hrecorded.symm

set_option maxRecDepth 40000 in
/-- With the code's destructor and an accepted payload: a call that finds no
token, and one that finds no empty slot, enter the registry, return an error
and leave no event. -/
theorem attach_failures_leave_no_event :
    (∃ user' K',
      attachRequest false failingKernel softwareAttachCall.1 =
          some .software ∧
        (handleAttach false Crates.accepting (BusInstance.dropFuel 1000)
            softwareAttachCall.1).syscall failingKernel softwareAttachCall.2 =
          some ((SyscallError.internal.asRax, user'), K') ∧
        K'.auditRing.total = failingKernel.auditRing.total ∧
        ¬ RecordsOutcome Crates.accepting (BusInstance.dropFuel 1000)
          softwareAttachCall.1 softwareAttachCall.2 .software failingKernel
          K') ∧
      ∃ user' K',
        attachRequest false fullKernel softwareAttachCall.1 =
            some .software ∧
          (handleAttach false Crates.accepting (BusInstance.dropFuel 1000)
              softwareAttachCall.1).syscall fullKernel softwareAttachCall.2 =
            some ((SyscallError.badArg.asRax, user'), K') ∧
          K'.auditRing.total = fullKernel.auditRing.total ∧
          ¬ RecordsOutcome Crates.accepting (BusInstance.dropFuel 1000)
            softwareAttachCall.1 softwareAttachCall.2 .software fullKernel
            K' := by
  constructor
  · refine ⟨_, _, rfl, rfl, rfl, not_recordsOutcome ?_⟩
    rfl
  · refine ⟨_, _, rfl, rfl, rfl, not_recordsOutcome ?_⟩
    rfl

end IsoLightK0
