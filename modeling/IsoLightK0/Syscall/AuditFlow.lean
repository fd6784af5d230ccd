import IsoLightK0.Registry.Invariant
import IsoLightK0.Registry.SingleFlight
import IsoLightK0.Support.Coupling
import IsoLightK0.Syscall.HandlerLogic

/-!
# Where the audit ring can be read

Two kernels that differ in the audit ring only are given the same system
calls.  Whatever the caller sees that differs between the two comes from the
ring.  `sys_hsm_status` reads the ring for the holder of the audit token.  The
wire command `Status` reads it for everyone who may write to a wire bus; apart
from these two, no call depends on the ring.
-/

namespace IsoLightK0

open Bytes Runs Triples Handler

def Machine.withRing (m : Machine) (ring : AuditRing) : Machine :=
  { m with kernel := m.kernel.withRing ring }

/-- The machines differ in the audit ring at most, and hold the given audit
capability. -/
structure LowEq (cap : HsmCapability) (m₁ m₂ : Machine) : Prop where
  same : ∃ ring, m₂ = m₁.withRing ring
  auditCap : m₁.kernel.auditReadCap = cap

section Steps

variable {α β : Type} {cap : HsmCapability} {start : Machine}
  {P : Machine → Prop} {f : Unit → Handler α} {ptr : BitVec 64}

theorem couples_failIf_bind {c : Prop} [Decidable c] {e : SyscallError}
    (hrest : ¬ c → Couples P (LowEq cap) (f ())) :
    Couples P (LowEq cap) (failIf c e >>= f) :=
  Couples.exitIf_bind hrest

theorem couples_guardRange_bind {len : BitVec 64} {e : SyscallError}
    (hrest : Couples (Quiet start) (LowEq cap) (f ())) :
    Couples (Quiet start) (LowEq cap) (guardRange ptr len e >>= f) := by
  rintro m₁ _ hm ⟨⟨ring, rfl⟩, hcap⟩
  rw [Prog.eval_bind, Prog.eval_bind]
  cases hok : userRangeOk ptr len with
  | true =>
    rw [eval_guardRange_of_ok _ e hok, eval_guardRange_of_ok _ e hok]
    exact hrest m₁ _ hm ⟨⟨ring, rfl⟩, hcap⟩
  | false =>
    rw [eval_guardRange_of_rejected _ e hok,
      eval_guardRange_of_rejected _ e hok]
    exact ⟨rfl, ⟨ring, rfl⟩, hcap⟩

theorem couples_copyIn_bind {len : ℕ} {f : List Byte → Handler α}
    (hrest : Couples (Quiet start) (LowEq cap)
      (f (start.user.read ptr.toNat len))) :
    Couples (Quiet start) (LowEq cap) (copyIn ptr len >>= f) := by
  rintro m₁ _ hm ⟨⟨ring, rfl⟩, hcap⟩
  have huser : (m₁.withRing ring).user = start.user := hm.2
  rw [Prog.eval_bind, Prog.eval_bind, eval_copyIn, eval_copyIn, huser, hm.2]
  exact hrest _ _ ⟨hm.1, rfl⟩ ⟨⟨ring, rfl⟩, hcap⟩

theorem couples_copyCapability_bind {f : HsmCapability → Handler α}
    (hrest : Couples (Quiet start) (LowEq cap)
      (f (HsmCapability.ofBytes (start.user.read ptr.toNat 16)))) :
    Couples (Quiet start) (LowEq cap) (copyCapability ptr >>= f) := by
  unfold copyCapability
  rw [bind_assoc]
  refine couples_copyIn_bind ?_
  rw [pure_bind]
  exact hrest

theorem couples_of_quiet {x : Handler α}
    (h : ∀ start, Couples (Quiet start) (LowEq cap) x) :
    Couples P (LowEq cap) x := by
  intro m₁ m₂ _ hlow
  exact h m₁ m₁ m₂ ⟨rfl, rfl⟩ hlow

theorem couples_of_bind_pure {x : Handler α}
    (h : ∀ start, Couples (Quiet start) (LowEq cap) (x >>= pure)) :
    Couples P (LowEq cap) x := by
  apply couples_of_quiet
  intro start
  rw [← bind_pure x]
  exact h start

theorem couples_viewKernel_bind {g : Kernel → β} {f : β → Handler α}
    (hg : ∀ ring, g (start.kernel.withRing ring) = g start.kernel)
    (hrest : Couples (Quiet start) (LowEq cap) (f (g start.kernel))) :
    Couples (Quiet start) (LowEq cap) (viewKernel g >>= f) := by
  rintro m₁ _ hm ⟨⟨ring, rfl⟩, hcap⟩
  have hview : g (m₁.withRing ring).kernel = g start.kernel := by
    have hkernel : (m₁.withRing ring).kernel = m₁.kernel.withRing ring := rfl
    rw [hkernel, hm.1]
    exact hg ring
  rw [Prog.eval_bind, Prog.eval_bind, eval_viewKernel, eval_viewKernel, hview,
    hm.1]
  exact hrest m₁ _ hm ⟨⟨ring, rfl⟩, hcap⟩

/-- A kernel function that agrees on both kernels and keeps the audit
capability. -/
theorem couples_callKernel_bind {g : Kernel → Option (β × Kernel)}
    {f : β → Handler α}
    (hg : ∀ ring, Kernel.Agrees (g start.kernel)
      (g (start.kernel.withRing ring)))
    (hkeeps : ∀ b K, g start.kernel = some (b, K) →
      K.auditReadCap = start.kernel.auditReadCap)
    (hrest : ∀ b, Couples (fun _ => True) (LowEq cap) (f b)) :
    Couples (Quiet start) (LowEq cap) (callKernel g >>= f) := by
  rintro m₁ _ hm ⟨⟨ring, rfl⟩, hcap⟩
  have hkernel : (m₁.withRing ring).kernel =
      start.kernel.withRing ring := by
    rw [← hm.1]
    rfl
  rw [Prog.eval_bind, Prog.eval_bind, eval_callKernel, eval_callKernel,
    hkernel, hm.1]
  rcases (hg ring).elim with ⟨h₁, h₂⟩ | ⟨b, K, ring', h₁, h₂⟩
  · rw [h₁, h₂]
    exact ⟨rfl, ⟨ring, rfl⟩, hcap⟩
  · rw [h₁, h₂]
    refine hrest b _ _ trivial ⟨⟨ring', rfl⟩, ?_⟩
    rw [← hcap, hm.1]
    exact hkeeps b K h₁

theorem couples_updateKernel {g : Kernel → Kernel}
    (hg : ∀ K ring, (g K).SameButRing (g (K.withRing ring)))
    (hkeeps : ∀ K, (g K).auditReadCap = K.auditReadCap) :
    Couples P (LowEq cap) (updateKernel g) := by
  rintro m₁ _ - ⟨⟨ring, rfl⟩, hcap⟩
  obtain ⟨ring', hring⟩ := hg m₁.kernel ring
  refine ⟨rfl, ⟨ring', ?_⟩, ?_⟩
  · exact congrArg (fun K => (⟨K, m₁.user, m₁.trace⟩ : Machine)) hring
  · exact (hkeeps m₁.kernel).trans hcap

theorem couples_audit (slotIdx result busKind : Byte) (pkPrefix : Buf 4) :
    Couples P (LowEq cap)
      (updateKernel fun K => K.audit slotIdx result busKind pkPrefix) :=
  couples_updateKernel
    (fun K ring => (K.sameButRing_withRing ring).audit _ _ _ _)
    (fun _ => rfl)

theorem couples_copyOut (ptr : BitVec 64) (bytes : List Byte) :
    Couples P (LowEq cap) (copyOut ptr bytes) := by
  rintro m₁ _ - ⟨⟨ring, rfl⟩, hcap⟩
  exact ⟨rfl, ⟨ring, rfl⟩, hcap⟩

theorem couples_denyIf_bind {c : Prop} [Decidable c]
    {slotIdx result busKind : Byte}
    (hrest : ¬ c → Couples P (LowEq cap) (f ())) :
    Couples P (LowEq cap) (denyIf c slotIdx result busKind >>= f) := by
  unfold denyIf
  by_cases hc : c
  · rw [if_pos hc, bind_assoc]
    exact Couples.bind_any (couples_audit _ _ _ _)
      fun _ => Couples.throw_bind _ f
  · rw [if_neg hc, pure_bind]
    exact hrest hc

end Steps

/-! ## The handlers -/

namespace Kernel

variable {C : Crates} {K K' : Kernel}

theorem attach_auditReadCap {destroy : BusInstance.Destructor}
    {busKind : BusKind} {initBlob : List Byte}
    {attestPayload : Option (List Byte)} {rights : HsmRights}
    {result : Except HsmCapError HsmCapability}
    (h : K.attach C destroy busKind initBlob attestPayload rights =
      some (result, K')) : K'.auditReadCap = K.auditReadCap := by
  rcases attach_cases h with
    ⟨e, drbg, -, -, rfl⟩ |
    ⟨attestOk, i, token, drbg₁, bus, drbg₂, -, -, -, -, -, rfl⟩
  · rfl
  · rfl

theorem detach_auditReadCap {destroy : BusInstance.Destructor}
    {cap : HsmCapability} {required : HsmRights}
    {result : Except HsmCapError Unit}
    (h : K.detach destroy cap required = some (result, K')) :
    K'.auditReadCap = K.auditReadCap := by
  rcases detach_cases h with ⟨-, rfl, -⟩ | ⟨i, -, -, -, rfl⟩
  · rfl
  · rfl

theorem busWrite_auditReadCap {i : SlotIdx} {data : List Byte}
    {result : Except BusError ℕ} (h : K.busWrite C i data = some (result, K')) :
    K'.auditReadCap = K.auditReadCap := by
  rw [(busWrite_busesOnly h).statics]

theorem relayTransfer_auditReadCap {srcSlot dstSlot byteLen : ℕ}
    {result : Except SyscallError Unit}
    (h : K.relayTransfer C srcSlot dstSlot byteLen = some (result, K')) :
    K'.auditReadCap = K.auditReadCap := by
  rw [(relayTransfer_busesOnly h).statics]

end Kernel

section Handlers

variable {cap : HsmCapability} {start : Machine} {α : Type}
  (ctx : SyscallContext)

theorem randBytes_agrees (K : Kernel) (ring : AuditRing) (n : ℕ) :
    Kernel.Agrees (K.randBytes n) ((K.withRing ring).randBytes n) := by
  have hdrbg : (K.withRing ring).capDrbg = K.capDrbg := rfl
  unfold Kernel.randBytes
  rw [hdrbg]
  rcases randBytes n K.capDrbg with _ | ⟨result, drbg⟩
  · exact .none
  · exact Kernel.agrees_some (K.setDrbg_sameButRing ring drbg)

theorem couples_logic (C : Crates) (destroy : BusInstance.Destructor)
    (cap : HsmCapability) :
    HandlerLogic C destroy fun _ x => Couples (fun _ => True) (LowEq cap) x where
  pure := Couples.pure
  throw := Couples.throw
  bind := Couples.bind_any
  guardRange _ _ _ := couples_of_bind_pure fun _ =>
    couples_guardRange_bind (Couples.pure _)
  copyIn _ _ := couples_of_bind_pure fun _ =>
    couples_copyIn_bind (Couples.pure _)
  copyOut := couples_copyOut
  view hg := couples_of_bind_pure fun start =>
    couples_viewKernel_bind (hg start.kernel) (Couples.pure _)
  audit := couples_audit
  taken gapCap := by
    apply couples_updateKernel
    · intro K ring
      cases gapCap <;> exact ⟨ring, rfl⟩
    · exact shot_setTaken_auditReadCap gapCap
  attach _ _ _ := couples_of_bind_pure fun start =>
    couples_callKernel_bind
      (fun ring => start.kernel.attach_agrees C destroy ring _ _ _ _)
      (fun _ _ h => Kernel.attach_auditReadCap h) Couples.pure
  detach _ := couples_of_bind_pure fun start =>
    couples_callKernel_bind
      (fun ring => start.kernel.detach_agrees destroy ring _ _)
      (fun _ _ h => Kernel.detach_auditReadCap h) Couples.pure
  read i _ := couples_of_bind_pure fun start =>
    couples_callKernel_bind (fun ring => start.kernel.busRead_agrees ring i _)
      (fun _ _ h => by cases h; rfl) Couples.pure
  random _ := couples_of_bind_pure fun start =>
    couples_callKernel_bind (fun ring => randBytes_agrees start.kernel ring _)
      (fun _ _ h => by
        obtain ⟨_, -, heq⟩ := Option.map_eq_some_iff.mp h
        cases heq
        rfl)
      Couples.pure

/-- The write of the call asks for no status. -/
def WriteQuiet (ctx : SyscallContext) (start : Machine) : Prop :=
  let userCap :=
    HsmCapability.ofBytes (start.user.read ctx.arg0.toNat 16)
  start.kernel.registry.authenticate userCap HsmRights.use = true →
    ∀ i, HsmRegistry.slotIdx? userCap.slot.toNat = some i →
      ¬ start.kernel.AsksStatus i
        (start.user.read ctx.arg1.toNat ctx.arg2.toNat)

theorem handleWrite_couples (C : Crates) (ctx : SyscallContext)
    (hquiet : WriteQuiet ctx start) :
    Couples (Quiet start) (LowEq cap) (handleWrite C ctx) := by
  apply couples_failIf_bind
  intro _
  apply couples_guardRange_bind
  apply couples_guardRange_bind
  apply couples_copyCapability_bind
  apply couples_viewKernel_bind (fun _ => rfl)
  apply couples_failIf_bind
  intro hauth
  apply couples_copyIn_bind
  split
  · exact Couples.throw _
  · rename_i i hslot
    apply couples_callKernel_bind
    · intro ring
      apply Kernel.busWrite_agrees
      exact hquiet (by simpa using hauth) i hslot
    · intro result K h
      exact Kernel.busWrite_auditReadCap h
    · intro result
      cases result with
      | error e => exact Couples.throw _
      | ok n => exact Couples.pure 0

/-- The relay of the call asks for no status. -/
def RelayCallQuiet (ctx : SyscallContext) (start : Machine) : Prop :=
  let srcCap := HsmCapability.ofBytes (start.user.read ctx.arg0.toNat 16)
  let dstCap := HsmCapability.ofBytes (start.user.read ctx.arg1.toNat 16)
  start.kernel.registry.authenticate srcCap HsmRights.relaySrc = true →
    start.kernel.registry.authenticate dstCap HsmRights.relayDst = true →
    start.kernel.RelayQuiet srcCap.slot.toNat dstCap.slot.toNat
      ctx.arg2.toNat

theorem handleRelay_couples (C : Crates) (ctx : SyscallContext)
    (hquiet : RelayCallQuiet ctx start) :
    Couples (Quiet start) (LowEq cap) (handleRelay C ctx) := by
  apply couples_failIf_bind
  intro _
  apply couples_guardRange_bind
  apply couples_guardRange_bind
  apply couples_copyCapability_bind
  apply couples_copyCapability_bind
  apply couples_viewKernel_bind (fun _ => rfl)
  apply couples_viewKernel_bind (fun _ => rfl)
  apply couples_failIf_bind
  intro hauth
  rw [Bool.not_eq_false, Bool.and_eq_true] at hauth
  apply couples_callKernel_bind
  · intro ring
    apply Kernel.relayTransfer_agrees
    exact hquiet hauth.1 hauth.2
  · intro result K h
    exact Kernel.relayTransfer_auditReadCap h
  · intro result
    cases result with
    | error e => exact Couples.throw _
    | ok u => exact Couples.pure 0

/-- Without the token the status handler never gets to the ring. -/
theorem handleStatus_couples
    (htoken : ctx.arg2 ≠ start.kernel.auditReadCap.token) :
    Couples (Quiet start) (LowEq cap) (handleStatus ctx) := by
  apply couples_failIf_bind
  intro _
  apply couples_viewKernel_bind (fun _ => rfl)
  apply couples_denyIf_bind
  intro hmatch
  exact (htoken (not_not.mp hmatch).symm).elim

end Handlers

/-! ## Runs of system calls -/

/-- A system call: its registers and the user memory it finds. -/
abbrev SysCall := SyscallContext × Mem

def sysStep (tlsExternal : Bool) (C : Crates)
    (destroy : BusInstance.Destructor) (K : Kernel) (call : SysCall) :
    Option ((BitVec 64 × Mem) × Kernel) :=
  (dispatch tlsExternal C destroy call.1).syscall K call.2

/-- The call makes no wire bus answer a `Status` request, neither by a write
nor by a relay. -/
structure AuditQuiet (K : Kernel) (call : SysCall) : Prop where
  write : call.1.num = 10 → WriteQuiet call.1 ⟨K, call.2, []⟩
  relay : call.1.num = 11 → RelayCallQuiet call.1 ⟨K, call.2, []⟩

/-- The call is a status call with the token of the capability. -/
def PresentsToken (cap : HsmCapability) (call : SysCall) : Prop :=
  call.1.num = 16 ∧ call.1.arg2 = cap.token

variable {K : Kernel} {result : BitVec 64 × Mem}

theorem dispatch_couples (tlsExternal : Bool) (C : Crates)
    (destroy : BusInstance.Destructor) {call : SysCall}
    (hquiet : AuditQuiet K call) (htoken : ¬ PresentsToken K.auditReadCap call)
    (cap : HsmCapability) :
    Couples (Quiet ⟨K, call.2, []⟩) (LowEq cap)
      (dispatch tlsExternal C destroy call.1) := by
  have L := couples_logic C destroy cap
  -- Most handlers couple from any state, not only from the first.
  have hany : ∀ {x : Handler (BitVec 64)},
      Couples (fun _ => True) (LowEq cap) x →
        Couples (Quiet ⟨K, call.2, []⟩) (LowEq cap) x :=
    fun hx => hx.weaken fun _ _ => trivial
  unfold dispatch
  refine Couples.ite (fun _ => Couples.throw _) fun _ => ?_
  refine Couples.ite (fun _ => hany (L.sysWrite _ _ _)) fun _ => ?_
  refine Couples.ite (fun _ => hany (L.sysGetrandom _ _)) fun _ => ?_
  refine Couples.ite (fun _ => hany (L.handleAttach _ _)) fun _ => ?_
  refine Couples.ite (fun _ => hany (L.handleDetach _)) fun _ => ?_
  refine Couples.ite (fun _ => hany (L.handleEnumerate _)) fun _ => ?_
  refine Couples.ite
    (fun hnum => handleWrite_couples C call.1 (hquiet.write hnum))
    fun _ => ?_
  refine Couples.ite
    (fun hnum => handleRelay_couples C call.1 (hquiet.relay hnum))
    fun _ => ?_
  refine Couples.ite (fun _ => hany (L.handleRead _)) fun _ => ?_
  refine Couples.ite (fun _ => hany (L.takeCap _ .network)) fun _ => ?_
  refine Couples.ite (fun _ => hany (L.takeCap _ .auditRead)) fun _ => ?_
  refine Couples.ite (fun hnum => ?_) fun _ => Couples.throw _
  apply handleStatus_couples
  intro hmatch
  exact htoken ⟨hnum, hmatch⟩

theorem syscall_couples {h : Handler (BitVec 64)} {user : Mem}
    (hcouples : Couples (Quiet ⟨K, user, []⟩) (LowEq K.auditReadCap) h)
    (ring : AuditRing) {K' : Kernel}
    (hcall : h.syscall K user = some (result, K')) :
    ∃ ring', h.syscall (K.withRing ring) user =
        some (result, K'.withRing ring') ∧
      K'.auditReadCap = K.auditReadCap := by
  obtain ⟨hvalue, ⟨ring', hmachine⟩, hcap⟩ :=
    hcouples ⟨K, user, []⟩ ⟨K.withRing ring, user, []⟩ ⟨rfl, rfl⟩
      ⟨⟨ring, rfl⟩, rfl⟩
  obtain ⟨value, hrax, heq⟩ := Option.map_eq_some_iff.mp hcall
  cases heq
  refine ⟨ring', ?_, hcap⟩
  unfold Handler.syscall
  dsimp only
  rw [← hvalue, hmachine, hrax]
  rfl

theorem syscall_status_of_token {ctx : SyscallContext} {K' : Kernel}
    {user : Mem} (htoken : ctx.arg2 = K.auditReadCap.token)
    (h : (handleStatus ctx).syscall K user = some (result, K')) : K' = K := by
  obtain ⟨value, user', K'', hcall, houtcome⟩ := syscall_handleStatus ctx K user
  rw [h] at hcall
  cases hcall
  cases houtcome with
  | shortBuffer hlen => rfl
  | wrongToken hlen hne => exact (hne htoken).elim
  | badAddress hlen _ hptr => rfl
  | reported hlen _ hptr => rfl

/-- Kernels that a caller without the audit token cannot tell apart. -/
def Indistinguishable (cap : HsmCapability) (K₁ K₂ : Kernel) : Prop :=
  K₁.SameButRing K₂ ∧ K₁.auditReadCap = cap

theorem sysStep_couples {tlsExternal : Bool} {C : Crates}
    {destroy : BusInstance.Destructor} {cap : HsmCapability}
    {K₁ K₂ K₁' : Kernel} {call : SysCall} (hsame : Indistinguishable cap K₁ K₂)
    (hquiet : AuditQuiet K₁ call)
    (hstep : sysStep tlsExternal C destroy K₁ call = some (result, K₁')) :
    ∃ result₂ K₂',
      sysStep tlsExternal C destroy K₂ call = some (result₂, K₂') ∧
        Indistinguishable cap K₁' K₂' ∧
        (¬ PresentsToken cap call → result = result₂) := by
  obtain ⟨⟨ring, rfl⟩, rfl⟩ := hsame
  by_cases htoken : PresentsToken K₁.auditReadCap call
  · have hdispatch : dispatch tlsExternal C destroy call.1 =
        handleStatus call.1 := by
      simp [dispatch, htoken.1]
    unfold sysStep at hstep ⊢
    rw [hdispatch] at hstep ⊢
    obtain ⟨value, user', K₂', hcall₂, -⟩ :=
      syscall_handleStatus call.1 (K₁.withRing ring) call.2
    have h₁ : K₁' = K₁ := syscall_status_of_token htoken.2 hstep
    have h₂ : K₂' = K₁.withRing ring := syscall_status_of_token htoken.2 hcall₂
    subst h₁ h₂
    exact ⟨_, _, hcall₂, ⟨⟨ring, rfl⟩, rfl⟩, fun hno => (hno htoken).elim⟩
  · obtain ⟨ring', hcall₂, hcap⟩ := syscall_couples
      (dispatch_couples tlsExternal C destroy hquiet htoken K₁.auditReadCap)
      ring hstep
    exact ⟨_, _, hcall₂, ⟨⟨ring', rfl⟩, hcap⟩, fun _ => rfl⟩

/-- As long as no call makes a wire bus answer a `Status` request, two runs
of the same calls from kernels that differ in the audit ring only have the
same results, apart from the status calls that present the audit token. -/
theorem audit_ring_hidden (tlsExternal : Bool) (C : Crates)
    (destroy : BusInstance.Destructor) (K₁ K₂ K₁' : Kernel)
    (history₁ : List (SysCall × (BitVec 64 × Mem)))
    (hsame : K₁.SameButRing K₂)
    (hrun : GuardedRun AuditQuiet (sysStep tlsExternal C destroy) K₁ history₁
      K₁') :
    ∃ history₂ K₂',
      Run (sysStep tlsExternal C destroy) K₂ history₂ K₂' ∧
        List.Forall₂ (fun e₁ e₂ => e₁.1 = e₂.1 ∧
          (¬ PresentsToken K₁.auditReadCap e₁.1 → e₁.2 = e₂.2))
          history₁ history₂ := by
  obtain ⟨history₂, K₂', hrun₂, -, hevents⟩ :=
    hrun.couple (R := Indistinguishable K₁.auditReadCap)
      (E := fun call r₁ r₂ =>
        ¬ PresentsToken K₁.auditReadCap call → r₁ = r₂)
      (fun _ _ _ _ _ => sysStep_couples) ⟨hsame, rfl⟩
  exact ⟨history₂, K₂', hrun₂, hevents⟩

/-- User memory with the capability of that slot and a request. -/
def requestMemory (request : List Byte) : Mem :=
  let cap := Mem.write (fun _ => 0) 0x2000
    (HsmCapability.issued 5 0 HsmRights.use).toBytes
  cap.write 0x3000 request

def writeCall (request : List Byte) : SysCall :=
  (⟨10, 0x2000, 0x3000, 16, 0, 0, 0⟩, requestMemory request)

def statusRequest : List Byte :=
  [0x4C, 0x57, 0x4B, 0x30, 1, 0, 0x80, 0, 7, 0, 0, 0, 0, 0, 0, 0]

def readResponseCall : SysCall :=
  (⟨12, 0x2000, 0x4000, 4096, 0, 0, 0⟩, requestMemory statusRequest)

theorem auditQuiet_ping : AuditQuiet Kernel.wire (writeCall pingRequest) := by
  refine ⟨fun _ _ i _ hasks => ?_, fun h => absurd h (by decide)⟩
  have hdata : (requestMemory pingRequest).read 0x3000 16 = pingRequest :=
    Mem.read_write_of_length _ rfl
  have hasks' : Kernel.wire.AsksStatus i pingRequest := hdata ▸ hasks
  cases hasks' with
  | status _ _ hcmd => exact absurd hcmd (by decide)
  | nested _ _ hcmd => exact absurd hcmd (by decide)

/-- The write of a `Ping` is answered the same whether or not an event was
recorded before. -/
theorem audit_ring_hidden_from_write :
    ∃ result K₁ history₂ K₂,
      sysStep false Crates.inert (fun _ => some ()) Kernel.wire
          (writeCall pingRequest) = some (result, K₁) ∧
        result.1 = 0 ∧
        Run (sysStep false Crates.inert fun _ => some ())
          (Kernel.wire.audit 0xFF 2 0 Buf.zero) history₂ K₂ ∧
        history₂.map Prod.snd = [result] := by
  have hstep : sysStep false Crates.inert (fun _ => some ()) Kernel.wire
      (writeCall pingRequest) = some (_, _) := rfl
  obtain ⟨history₂, K₂, hrun₂, hevents⟩ :=
    audit_ring_hidden false Crates.inert (fun _ => some ()) Kernel.wire
      (Kernel.wire.audit 0xFF 2 0 Buf.zero) _ _ ⟨_, rfl⟩
      (.next .start auditQuiet_ping hstep)
  refine ⟨_, _, history₂, K₂, hstep, rfl, hrun₂, ?_⟩
  cases hevents with
  | @cons _ event _ history hhead htail =>
    cases htail
    have hresult := hhead.2 fun h => absurd h.1 (by decide)
    exact congrArg (fun result => [result]) hresult.symm

/-- With nothing but the right to use slot 0, write a `Status` request to it
and read the response: its length tells whether an event was recorded
before. -/
theorem wire_status_reveals_ring :
    ∃ history₁ history₂ K₁ K₂,
      Run (sysStep false Crates.inert fun _ => some ()) Kernel.wire history₁
          K₁ ∧
        Run (sysStep false Crates.inert fun _ => some ())
          (Kernel.wire.audit 0xFF 2 0 Buf.zero) history₂ K₂ ∧
        history₁.map Prod.fst = [readResponseCall, writeCall statusRequest] ∧
        history₂.map Prod.fst = [readResponseCall, writeCall statusRequest] ∧
        (∀ event ∈ history₁,
          ¬ PresentsToken Kernel.wire.auditReadCap event.1) ∧
        history₁.map (fun event => event.2.1) = [24, 0] ∧
        history₂.map (fun event => event.2.1) = [36, 0] := by
  have h₁ : Run (sysStep false Crates.inert fun _ => some ())
      Kernel.wire _ _ :=
    .next (a := readResponseCall)
      (.next (a := writeCall statusRequest) .start rfl) rfl
  have h₂ : Run (sysStep false Crates.inert fun _ => some ())
      (Kernel.wire.audit 0xFF 2 0 Buf.zero) _ _ :=
    .next (a := readResponseCall)
      (.next (a := writeCall statusRequest) .start rfl) rfl
  refine ⟨_, _, _, _, h₁, h₂, rfl, rfl, ?_, rfl, rfl⟩
  intro event hevent hpresents
  simp only [List.mem_cons, List.not_mem_nil, or_false] at hevent
  rcases hevent with rfl | rfl
  · exact absurd hpresents.1 (by decide)
  · exact absurd hpresents.1 (by decide)

end IsoLightK0
