import IsoLightK0.Registry.SingleFlight
import IsoLightK0.Syscall.Admission
import IsoLightK0.Syscall.Invariant

/-!
# The three tiers of a wire write

The wire protocol sorts what is written to a `Ring3Process` slot into three
tiers: a frame of impossible length is answered `BadArg`, a frame with a
wrong header `Denied`, and every other frame gets a response frame.  The bus
reports the first two tiers with one error, and `handle_write` turns every
bus error into `Internal`.  Only the lengths that `handle_write` checks
itself are answered as the protocol says.
-/

namespace IsoLightK0

open Bytes Triples Runs Handler

def presentedCap (user : Mem) (ptr : BitVec 64) : HsmCapability :=
  HsmCapability.ofBytes (user.read ptr.toNat 16)

def writtenData (user : Mem) (ctx : SyscallContext) : List Byte :=
  user.read ctx.arg1.toNat ctx.arg2.toNat

@[simp] theorem length_writtenData (user : Mem) (ctx : SyscallContext) :
    (writtenData user ctx).length = ctx.arg2.toNat := by
  simp [writtenData]

/-- A `sys_hsm_write` from readable user ranges with a capability that
authenticates for the use of slot `i`. -/
structure WriteAdmitted (K : Kernel) (user : Mem) (ctx : SyscallContext)
    (i : SlotIdx) : Prop where
  num : ctx.num = 10
  capRange : userRangeOk ctx.arg0 capSize = true
  dataRange : userRangeOk ctx.arg1 ctx.arg2 = true
  authentic : K.registry.authenticate (presentedCap user ctx.arg0)
    HsmRights.use = true
  slot : (presentedCap user ctx.arg0).slot.toNat = i.val

section Call

variable (tlsExternal : Bool) (C : Crates) (destroy : BusInstance.Destructor)
  {K K' : Kernel} {user : Mem} {ctx : SyscallContext} {i : SlotIdx}

theorem sysStep_of_num_ten (hnum : ctx.num = 10) :
    sysStep tlsExternal C destroy K (ctx, user) =
      (handleWrite C ctx).syscall K user := by
  simp [sysStep, dispatch, hnum]

theorem sysWrite_bad_length (hnum : ctx.num = 10)
    (hlen : ¬ (ctx.arg2.toNat < chanMax + 1 ∧ ctx.arg2.toNat ≠ 0)) :
    sysStep tlsExternal C destroy K (ctx, user) =
      some ((SyscallError.badArg.asRax, user), K) := by
  rw [sysStep_of_num_ten _ _ _ hnum, Handler.syscall, handleWrite,
    eval_failIf_bind_of _ _ _ hlen]
  rfl

theorem WriteAdmitted.eval (h : WriteAdmitted K user ctx i)
    (hlen : ctx.arg2.toNat < chanMax + 1 ∧ ctx.arg2.toNat ≠ 0)
    {result : Except BusError ℕ}
    (hwrite : K.busWrite C i (writtenData user ctx) = some (result, K')) :
    sysStep tlsExternal C destroy K (ctx, user) =
      some ((match result with
        | .ok _ => 0
        | .error _ => SyscallError.internal.asRax, user), K') := by
  have hauth : ¬ K.registry.authenticate
      (HsmCapability.ofBytes (user.read ctx.arg0.toNat 16))
      HsmRights.use = false := by
    rw [← presentedCap, h.authentic]
    decide
  have hslot : HsmRegistry.slotIdx?
      (HsmCapability.ofBytes (user.read ctx.arg0.toNat 16)).slot.toNat =
        some i :=
    (HsmRegistry.slotIdx?_eq_some_iff _ _).mpr h.slot
  rw [sysStep_of_num_ten _ _ _ h.num, Handler.syscall, handleWrite,
    eval_failIf_bind_of_not _ _ _ (not_not.mpr hlen),
    eval_guardRange_bind_of_ok _ _ _ h.capRange,
    eval_guardRange_bind_of_ok _ _ _ h.dataRange, eval_copyCapability_bind,
    eval_viewKernel_bind, eval_failIf_bind_of_not _ _ _ hauth,
    eval_copyIn_bind]
  dsimp only
  rw [hslot]
  dsimp only
  rw [eval_callKernel_bind_of _ _ hwrite]
  cases result with
  | ok n => rfl
  | error e => rfl

theorem WriteAdmitted.tier_cases (h : WriteAdmitted K user ctx i)
    (hlen : ctx.arg2.toNat < chanMax + 1 ∧ ctx.arg2.toNat ≠ 0)
    {r : Ring3ProcessBus} (hbus : K.bus i = .ring3Process r)
    (hopen : r.openState = true) (hidle : r.responseLen = 0) :
    (¬ (16 ≤ ctx.arg2.toNat ∧ Wire.RequestWellFormed (writtenData user ctx)) ∧
        sysStep tlsExternal C destroy K (ctx, user) =
          some ((SyscallError.internal.asRax, user), K)) ∨
      ((16 ≤ ctx.arg2.toNat ∧ Wire.RequestWellFormed (writtenData user ctx)) ∧
        ∃ K' r', sysStep tlsExternal C destroy K (ctx, user) =
            some ((0, user), K') ∧ K'.bus i = .ring3Process r' ∧
          Wire.RespondsTo (Wire.requestHeader (writtenData user ctx)) r') := by
  have haccepts : Kernel.AcceptsFrame r (writtenData user ctx) ↔
      16 ≤ ctx.arg2.toNat ∧ Wire.RequestWellFormed (writtenData user ctx) := by
    have hmax : ctx.arg2.toNat ≤ wireFrameMax := Nat.le_of_lt_succ hlen.1
    simp [Kernel.AcceptsFrame, hopen, hidle, hmax]
  rcases K.busWrite_ring3_cases C hbus (writtenData user ctx) with
    ⟨hrefused, e, hwrite⟩ | ⟨htaken, build, K₁, hbuses, hanswer, -, hwrite⟩
  · exact .inl ⟨fun hwf => hrefused (haccepts.mpr hwf), h.eval _ _ _ hlen hwrite⟩
  · obtain ⟨r₁, hbus₁, -⟩ := Kernel.bus_storeResponse hbus hbuses build
    exact .inr ⟨haccepts.mp htaken, _, _, h.eval _ _ _ hlen hwrite, hbus₁,
      hanswer.respondsTo r₁ r₁.pendingResponse⟩

end Call

/-! ## The tiers -/

/-- The lengths of the first tier. -/
def TierOne (data : List Byte) : Prop :=
  data.length < 16 ∨ data.length > wireFrameMax

/-- What the protocol prescribes for `data` written to slot `i`: the return
register and the frame that is pending afterwards. -/
structure TierOutcome (i : SlotIdx) (data : List Byte) (value : BitVec 64)
    (K : Kernel) : Prop where
  badArg : TierOne data →
    value = SyscallError.badArg.asRax ∧ K.pendingFrame i = none
  denied : ¬ TierOne data → ¬ Wire.RequestWellFormed data →
    value = SyscallError.denied.asRax ∧ K.pendingFrame i = none
  answered : ¬ TierOne data → Wire.RequestWellFormed data →
    value = 0 ∧ (K.pendingFrame i).isSome ∧
      ∃ r, K.bus i = .ring3Process r ∧
        Wire.RespondsTo (Wire.requestHeader data) r

/-- The system call returns as the protocol prescribes. -/
def FollowsTiers (tlsExternal : Bool) (C : Crates)
    (destroy : BusInstance.Destructor) (K : Kernel) (user : Mem)
    (ctx : SyscallContext) (i : SlotIdx) : Prop :=
  ∃ value user' K',
    sysStep tlsExternal C destroy K (ctx, user) = some ((value, user'), K') ∧
      TierOutcome i (writtenData user ctx) value K'

/-- The data that `handle_write` answers as the protocol prescribes: none or
too much for the channel, or a well-formed request. -/
def TiersKept (data : List Byte) : Prop :=
  data.length = 0 ∨ data.length > wireFrameMax ∨
    (16 ≤ data.length ∧ Wire.RequestWellFormed data)

theorem pendingFrame_eq_none {K : Kernel} {i : SlotIdx}
    {r : Ring3ProcessBus} (hbus : K.bus i = .ring3Process r)
    (hidle : r.responseLen = 0) : K.pendingFrame i = none := by
  simp [Kernel.pendingFrame, hbus, Ring3ProcessBus.pendingFrame, hidle]

section Tiers

variable (tlsExternal : Bool) (C : Crates) (destroy : BusInstance.Destructor)
  {K : Kernel} {user : Mem} {ctx : SyscallContext} {i : SlotIdx}

theorem not_tierOutcome_internal {data : List Byte}
    (h : ¬ (16 ≤ data.length ∧ Wire.RequestWellFormed data)) :
    ¬ TierOutcome i data SyscallError.internal.asRax K := by
  intro hout
  by_cases htier : TierOne data
  · exact absurd (hout.badArg htier).1 (by decide)
  · have hlen : 16 ≤ data.length := by
      by_contra hshort
      exact htier (.inl (Nat.not_le.mp hshort))
    exact absurd (hout.denied htier fun hwf => h ⟨hlen, hwf⟩).1 (by decide)

theorem WriteAdmitted.followsTiers_iff (h : WriteAdmitted K user ctx i)
    {r : Ring3ProcessBus} (hbus : K.bus i = .ring3Process r)
    (hopen : r.openState = true) (hidle : r.responseLen = 0) :
    FollowsTiers tlsExternal C destroy K user ctx i ↔
      TiersKept (writtenData user ctx) := by
  rw [TiersKept, length_writtenData]
  by_cases hlen : ctx.arg2.toNat < chanMax + 1 ∧ ctx.arg2.toNat ≠ 0
  · have hmax : ctx.arg2.toNat ≤ wireFrameMax := Nat.le_of_lt_succ hlen.1
    rcases h.tier_cases tlsExternal C destroy hlen hbus hopen hidle with
      ⟨hrefused, hstep⟩ | ⟨hwf, K', r', hstep, hbus', hresponds⟩
    · refine ⟨?_, ?_⟩
      · rintro ⟨value, user', K', hstep', hout⟩
        rw [hstep] at hstep'
        cases hstep'
        rw [← length_writtenData user ctx] at hrefused
        exact absurd hout (not_tierOutcome_internal hrefused)
      · rintro (hzero | hlong | hwf)
        · exact absurd hzero hlen.2
        · exact absurd hmax (Nat.not_le.mpr hlong)
        · exact absurd hwf hrefused
    · refine ⟨fun _ => .inr (.inr hwf), fun _ => ?_⟩
      have htier : ¬ TierOne (writtenData user ctx) := by
        rw [TierOne, length_writtenData]
        omega
      refine ⟨0, user, K', hstep, ?_, ?_, ?_⟩
      · exact fun hone => absurd hone htier
      · exact fun _ hnot => absurd hwf.2 hnot
      · intro _ _
        refine ⟨rfl, ?_, r', hbus', hresponds⟩
        rw [Kernel.pendingFrame, hbus']
        simp [hresponds.pendingFrame]
  · have hstep : sysStep tlsExternal C destroy K (ctx, user) = _ :=
      sysWrite_bad_length tlsExternal C destroy h.num hlen
    have hrange : ctx.arg2.toNat = 0 ∨ ctx.arg2.toNat > wireFrameMax := by
      unfold chanMax at hlen
      unfold wireFrameMax
      omega
    have htier : TierOne (writtenData user ctx) := by
      rw [TierOne, length_writtenData]
      omega
    refine ⟨fun _ => hrange.imp_right Or.inl, fun _ => ?_⟩
    refine ⟨_, user, K, hstep, ?_, ?_, ?_⟩
    · exact fun _ => ⟨rfl, pendingFrame_eq_none hbus hidle⟩
    · exact fun hnot => absurd htier hnot
    · exact fun hnot => absurd htier hnot

theorem sysRun_allSettled {K₀ : Kernel}
    {history : List (SysCall × (BitVec 64 × Mem))}
    (hinit : K₀.registry = HsmRegistry.new)
    (hrun : Run (sysStep tlsExternal C destroy) K₀ history K) :
    K.AllSettled := by
  refine hrun.invariant ?_ ?_
  · intro i
    rw [hinit]
    exact .inl ⟨rfl, rfl⟩
  · intro s call result s' hs hstep
    exact (kernelInvariant_allSettled C destroy).keeps_sysStep hstep hs

theorem WriteAdmitted.isOpen (h : WriteAdmitted K user ctx i)
    (hsettled : K.AllSettled) : (K.bus i).IsOpen := by
  obtain ⟨j, hslot, -, hstate, -⟩ :=
    (HsmRegistry.authenticate_iff _ _ _).mp h.authentic
  obtain rfl : i = j := Fin.ext (h.slot.symm.trans hslot)
  rcases hsettled i with ⟨hempty, -⟩ | ⟨-, -, hopen⟩
  · rw [hempty] at hstate
    cases hstate
  · exact hopen

/-- A write to a `Ring3Process` slot whose bus is open and has nothing pending
is answered as the three tiers prescribe exactly if its data is empty, too long
for the channel or a well-formed request.  In every state that system calls
reach from an empty registry, the bus of such a slot is open. -/
theorem write_follows_tiers_iff (hcall : WriteAdmitted K user ctx i)
    {r : Ring3ProcessBus} (hbus : K.bus i = .ring3Process r)
    (hidle : r.responseLen = 0) :
    (r.openState = true →
      (FollowsTiers tlsExternal C destroy K user ctx i ↔
        TiersKept (writtenData user ctx))) ∧
      ∀ K₀ history, K₀.registry = HsmRegistry.new →
        Run (sysStep tlsExternal C destroy) K₀ history K →
          r.openState = true := by
  refine ⟨fun hopen => hcall.followsTiers_iff _ _ _ hbus hopen hidle, ?_⟩
  intro K₀ history hinit hrun
  have hopen := hcall.isOpen (sysRun_allSettled _ _ _ hinit hrun)
  rwa [hbus] at hopen

end Tiers

/-! ## A slot with a wire bus -/

def ringAttachCall : SysCall :=
  ({ num := 7
     arg0 := 1
     arg1 := 0x4000
     arg2 := 2
     arg3 := 0x10000
     arg4 := 0x2000
     arg5 := 3732 }, Mem.write (fun _ => 0) 0x4000 [3, 0])

def tieredCapBytes : List Byte :=
  (HsmCapability.issued 0x0101010101010101 0 fullRights).toBytes

/-- User memory with the capability of slot 0 and the data to write. -/
def tieredMemory (data : List Byte) : Mem :=
  Mem.write (Mem.write (fun _ => 0) 0x1000 tieredCapBytes) 0x2000 data

def tieredCall (len : BitVec 64) : SyscallContext where
  num := 10
  arg0 := 0x1000
  arg1 := 0x2000
  arg2 := len
  arg3 := 0
  arg4 := 0
  arg5 := 0

theorem presentedCap_tieredMemory (data : List Byte) :
    presentedCap (tieredMemory data) 0x1000 =
      HsmCapability.ofBytes tieredCapBytes := by
  have hread : (tieredMemory data).read 0x1000 16 = tieredCapBytes := by
    rw [tieredMemory, Mem.read_write_disjoint _ (.inl (by decide))]
    exact Mem.read_write_of_length _ (by decide)
  exact congrArg HsmCapability.ofBytes hread

theorem writtenData_tieredMemory {data : List Byte} {len : BitVec 64}
    (hlen : len.toNat = data.length) :
    writtenData (tieredMemory data) (tieredCall len) = data := by
  rw [writtenData, tieredCall, hlen]
  exact Mem.read_write_same _ _ _

set_option maxRecDepth 40000 in
/-- After one attach slot 0 holds an idle wire bus, and a write with its
capability is admitted. -/
theorem exists_tieredKernel :
    ∃ history K r, Run (sysStep false Crates.accepting fun _ => some ())
        seededKernel history K ∧
      K.bus 0 = .ring3Process r ∧ r.openState = true ∧ r.responseLen = 0 ∧
      ∀ data len, userRangeOk 0x2000 len = true →
        WriteAdmitted K (tieredMemory data) (tieredCall len) 0 := by
  have hrun : Run (sysStep false Crates.accepting fun _ => some ())
      seededKernel _ _ :=
    Run.next (a := ringAttachCall) Run.start rfl
  refine ⟨_, _, _, hrun, rfl, rfl, rfl, ?_⟩
  intro data len hrange
  have hcap : userRangeOk 0x1000 capSize = true := by decide
  refine ⟨rfl, hcap, hrange, ?_, ?_⟩
  · rw [tieredCall, presentedCap_tieredMemory]
    decide
  · rw [tieredCall, presentedCap_tieredMemory]
    decide

/-- A `Ping` written after that attach is answered as prescribed, also with a
destructor that never returns. -/
theorem write_follows_tiers_ping :
    ∃ history K, Run (sysStep false Crates.accepting fun _ => some ())
        seededKernel history K ∧
      WriteAdmitted K (tieredMemory pingRequest) (tieredCall 16) 0 ∧
      FollowsTiers false Crates.accepting (fun _ => none) K
        (tieredMemory pingRequest) (tieredCall 16) 0 := by
  obtain ⟨history, K, r, hrun, hbus, -, hidle, hadmits⟩ := exists_tieredKernel
  have hcall := hadmits pingRequest 16 (by decide)
  have hopen := (write_follows_tiers_iff false Crates.accepting
    (fun _ => some ()) hcall hbus hidle).2 _ _ rfl hrun
  refine ⟨history, K, hrun, hcall, ?_⟩
  rw [(write_follows_tiers_iff false Crates.accepting (fun _ => none) hcall
    hbus hidle).1 hopen, writtenData_tieredMemory rfl]
  exact .inr (.inr ⟨by decide, by decide⟩)

/-- One octet is answered `Internal` and not `BadArg`, and so are sixteen
zeros, which the protocol answers `Denied`. -/
theorem write_departs_from_tiers :
    ∃ history K, Run (sysStep false Crates.accepting fun _ => some ())
        seededKernel history K ∧
      ∀ data ∈ [[0], List.replicate 16 0],
        WriteAdmitted K (tieredMemory data)
            (tieredCall (BitVec.ofNat 64 data.length)) 0 ∧
          ∀ destroy, ¬ FollowsTiers false Crates.accepting destroy K
            (tieredMemory data)
            (tieredCall (BitVec.ofNat 64 data.length)) 0 := by
  obtain ⟨history, K, r, hrun, hbus, hopen, hidle, hadmits⟩ :=
    exists_tieredKernel
  refine ⟨history, K, hrun, ?_⟩
  have hboth : ∀ data ∈ [[(0 : Byte)], List.replicate 16 0],
      userRangeOk 0x2000 (BitVec.ofNat 64 data.length) = true ∧
        (BitVec.ofNat 64 data.length).toNat = data.length ∧
        ¬ TiersKept data := by
    simp only [List.forall_mem_cons]
    refine ⟨⟨by decide, by decide, ?_⟩, ⟨by decide, by decide, ?_⟩,
      List.forall_mem_nil _⟩
    · rintro (hzero | hlong | ⟨hlen, -⟩)
      · exact absurd hzero (by decide)
      · exact absurd hlong (by decide)
      · exact absurd hlen (by decide)
    · rintro (hzero | hlong | ⟨-, hwf⟩)
      · exact absurd hzero (by decide)
      · exact absurd hlong (by decide)
      · exact absurd hwf (by decide)
  intro data hdata
  obtain ⟨hrange, hlen, hnot⟩ := hboth data hdata
  have hcall := hadmits data _ hrange
  refine ⟨hcall, fun destroy => ?_⟩
  rwa [hcall.followsTiers_iff _ _ _ hbus hopen hidle,
    writtenData_tieredMemory hlen]

end IsoLightK0
