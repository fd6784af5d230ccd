import IsoLightK0.Syscall.AuditFlow

/-!
# Kernel invariants over system calls

A handler changes the kernel in few ways: it attaches or detaches a slot,
reaches a bus, records an event, draws from the DRBG or marks a one-shot
capability as taken.  A predicate that survives each of these survives every
system call.
-/

namespace IsoLightK0

open Bytes Triples Handler

/-- A predicate that survives everything that handlers do to the kernel. -/
structure KernelInvariant (C : Crates) (destroy : BusInstance.Destructor)
    (I : Kernel → Prop) : Prop where
  attach : ∀ {K K' : Kernel} {busKind : BusKind} {initBlob : List Byte}
    {attestPayload : Option (List Byte)} {rights : HsmRights}
    {result : Except HsmCapError HsmCapability},
    K.attach C destroy busKind initBlob attestPayload rights =
      some (result, K') → I K → I K'
  detach : ∀ {K K' : Kernel} {cap : HsmCapability} {required : HsmRights}
    {result : Except HsmCapError Unit},
    K.detach destroy cap required = some (result, K') → I K → I K'
  buses : ∀ {K K' : Kernel}, K.BusesOnly K' → I K → I K'
  drbg : ∀ (K : Kernel) (drbg : CapDrbg), I K → I (K.setDrbg drbg)
  taken : ∀ (cap : GapCap) (K : Kernel), I K → I (cap.shot.setTaken K)

/-- The handler keeps a predicate of the kernel. -/
abbrev KeepsKernel {α : Type} (I : Kernel → Prop) (x : Handler α) : Prop :=
  Keeps (fun m : Machine => I m.kernel) x

theorem keeps_callKernel {α : Type} {I : Kernel → Prop}
    {f : Kernel → Option (α × Kernel)}
    (hf : ∀ K a K', f K = some (a, K') → I K → I K') :
    KeepsKernel I (callKernel f) := by
  intro m hm
  rw [eval_callKernel]
  cases hcall : f m.kernel with
  | none => exact hm
  | some result => exact hf m.kernel result.1 result.2 hcall hm

namespace KernelInvariant

variable {C : Crates} {destroy : BusInstance.Destructor} {I : Kernel → Prop}
  (hI : KernelInvariant C destroy I)

include hI

theorem logic : HandlerLogic C destroy fun _ x => KeepsKernel I x where
  pure := Keeps.pure
  throw := Keeps.throw
  bind := Keeps.bind
  guardRange ptr len e := by
    refine Keeps.ite (Keeps.pure ()) ?_
    refine Keeps.bind (Keeps.modify ?_) fun _ => Keeps.throw _
    intro m hm
    exact hm
  copyIn _ _ := fun _ hm => hm
  copyOut _ _ := fun _ hm => hm
  view _ := fun _ hm => hm
  audit _ _ _ _ := fun m hm => hI.buses (m.kernel.busesOnly_audit _ _ _ _) hm
  taken cap := fun m hm => hI.taken cap m.kernel hm
  attach _ _ _ := keeps_callKernel fun _ _ _ hattach hK => hI.attach hattach hK
  detach _ := keeps_callKernel fun _ _ _ hdetach hK => hI.detach hdetach hK
  read i _ := keeps_callKernel fun K _ _ hread hK => by
    cases hread
    exact hI.buses (K.busRead_busesOnly i _) hK
  random _ := keeps_callKernel fun K _ _ hrand hK => by
    obtain ⟨_, -, heq⟩ := Option.map_eq_some_iff.mp hrand
    cases heq
    exact hI.drbg K _ hK

variable (ctx : SyscallContext)

theorem keeps_handleWrite : KeepsKernel I (handleWrite C ctx) := by
  unfold handleWrite
  refine (hI.logic.failIf _).bind fun _ => ?_
  refine (hI.logic.guardRange _ _ _).bind fun _ => ?_
  refine (hI.logic.guardRange _ _ _).bind fun _ => ?_
  refine (hI.logic.copyCapability _).bind fun cap => ?_
  refine (hI.logic.view fun _ _ => rfl).bind fun _ => ?_
  refine (hI.logic.failIf _).bind fun _ => ?_
  refine (hI.logic.copyIn _ _).bind fun data => ?_
  split
  · exact Keeps.throw _
  · refine Keeps.bind (keeps_callKernel ?_) fun result => ?_
    · intro K result K' hwrite hK
      exact hI.buses (Kernel.busWrite_busesOnly hwrite) hK
    · split
      · exact Keeps.pure _
      · exact Keeps.throw _

theorem keeps_handleRelay : KeepsKernel I (handleRelay C ctx) := by
  unfold handleRelay
  refine (hI.logic.failIf _).bind fun _ => ?_
  refine (hI.logic.guardRange _ _ _).bind fun _ => ?_
  refine (hI.logic.guardRange _ _ _).bind fun _ => ?_
  refine (hI.logic.copyCapability _).bind fun srcCap => ?_
  refine (hI.logic.copyCapability _).bind fun dstCap => ?_
  refine (hI.logic.view fun _ _ => rfl).bind fun _ => ?_
  refine (hI.logic.view fun _ _ => rfl).bind fun _ => ?_
  refine (hI.logic.failIf _).bind fun _ => ?_
  refine Keeps.bind (keeps_callKernel ?_) fun result => ?_
  · intro K result K' hrelay hK
    exact hI.buses (Kernel.relayTransfer_busesOnly hrelay) hK
  · split
    · exact Keeps.pure _
    · exact Keeps.throw _

theorem keeps_handleStatus : KeepsKernel I (handleStatus ctx) := by
  unfold handleStatus
  refine (hI.logic.failIf _).bind fun _ => ?_
  refine (hI.logic.view fun _ _ => rfl).bind fun _ => ?_
  refine (hI.logic.denyIf _ _ _).bind fun _ => ?_
  refine (hI.logic.guardRange _ _ _).bind fun _ => ?_
  -- This view reads the ring.
  refine Keeps.bind (fun _ hm => hm) fun _ => ?_
  exact (hI.logic.copyOut _ _).bind fun _ => Keeps.pure _

theorem keeps_dispatch (tlsExternal : Bool) :
    KeepsKernel I (dispatch tlsExternal C destroy ctx) := by
  unfold dispatch
  refine Keeps.ite (Keeps.throw _) ?_
  refine Keeps.ite (hI.logic.sysWrite _ _ _) ?_
  refine Keeps.ite (hI.logic.sysGetrandom _ _) ?_
  refine Keeps.ite (hI.logic.handleAttach _ _) ?_
  refine Keeps.ite (hI.logic.handleDetach _) ?_
  refine Keeps.ite (hI.logic.handleEnumerate _) ?_
  refine Keeps.ite (hI.keeps_handleWrite _) ?_
  refine Keeps.ite (hI.keeps_handleRelay _) ?_
  refine Keeps.ite (hI.logic.handleRead _) ?_
  refine Keeps.ite (hI.logic.takeCap _ .network) ?_
  refine Keeps.ite (hI.logic.takeCap _ .auditRead) ?_
  exact Keeps.ite (hI.keeps_handleStatus _) (Keeps.throw _)

theorem keeps_sysStep {tlsExternal : Bool} {K K' : Kernel} {call : SysCall}
    {result : BitVec 64 × Mem}
    (hstep : sysStep tlsExternal C destroy K call = some (result, K'))
    (hK : I K) : I K' := by
  obtain ⟨value, -, heq⟩ := Option.map_eq_some_iff.mp hstep
  cases heq
  exact hI.keeps_dispatch call.1 tlsExternal ⟨K, call.2, []⟩ hK

end KernelInvariant

theorem kernelInvariant_allSettled (C : Crates)
    (destroy : BusInstance.Destructor) :
    KernelInvariant C destroy Kernel.AllSettled where
  attach := attach_settled
  detach := detach_settled
  buses := fun hbuses hK i => hbuses.settled (hK i)
  drbg := fun _ _ hK => hK
  taken := by
    intro cap K hK
    cases cap with
    | network => exact hK
    | auditRead => exact hK

theorem shot_taken_congr {cap : GapCap} {K K' : Kernel}
    (hK : cap.shot.state K = .taken)
    (hnetwork : K'.networkCapState = K.networkCapState)
    (haudit : K'.auditCapState = K.auditCapState) :
    cap.shot.state K' = .taken := by
  cases cap with
  | network => exact hnetwork.trans hK
  | auditRead => exact haudit.trans hK

theorem kernelInvariant_taken (C : Crates)
    (destroy : BusInstance.Destructor) (cap : GapCap) :
    KernelInvariant C destroy (fun K => cap.shot.state K = .taken) where
  attach := by
    intro K K' _ _ _ _ _ hattach hK
    rcases Kernel.attach_cases hattach with
      ⟨_, _, -, -, rfl⟩ | ⟨_, _, _, _, _, _, -, -, -, -, -, rfl⟩
    · exact shot_taken_congr hK rfl rfl
    · exact shot_taken_congr hK rfl rfl
  detach := by
    intro K K' _ _ _ hdetach hK
    rcases Kernel.detach_cases hdetach with ⟨-, rfl, -⟩ | ⟨_, -, -, -, rfl⟩
    · exact hK
    · exact shot_taken_congr hK rfl rfl
  buses := by
    intro K K' hbuses hK
    rw [hbuses.statics]
    exact shot_taken_congr hK rfl rfl
  drbg := by
    intro K drbg hK
    exact shot_taken_congr hK rfl rfl
  taken := by
    intro cap' K hK
    rw [shot_state_setTaken, hK, ite_self]

end IsoLightK0
