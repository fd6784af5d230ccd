import IsoLightK0.Syscall.Handlers

/-!
# One attach call

`handle_attach` checks its arguments, copies the init blob and the attestation
payload, enters the registry and records what came of it.  The inductive
predicate `AttachOutcome` says once what the call can do; everything proved
about attach calls starts from it.
-/

namespace IsoLightK0

open Bytes Triples Handler

/-- The request for a network bus is let through: the build is external and
the network capability has been taken. -/
def NetworkOpen (tlsExternal : Bool) (K : Kernel) : Prop :=
  tlsExternal = true ∧ K.networkCapState = .taken

instance decidableNetworkOpen (tlsExternal : Bool) (K : Kernel) :
    Decidable (NetworkOpen tlsExternal K) :=
  inferInstanceAs (Decidable (_ ∧ _))

/-- The bus kind that the first argument asks for, if it is let through. -/
def requestedKind (tlsExternal : Bool) (K : Kernel) (raw : BitVec 64) :
    Option BusKind :=
  if raw = 0 then some .software
  else if raw = 1 then some .ring3Process
  else if raw = 6 ∧ NetworkOpen tlsExternal K then some .network
  else none

/-- The length and range checks of the call. -/
structure AttachArgsOk (ctx : SyscallContext) : Prop where
  initLen : ctx.arg2.toNat ≤ maxBusInitBlob
  attestLen : ctx.arg5.toNat = attestExact
  initRange : 0 < ctx.arg2.toNat → userRangeOk ctx.arg1 ctx.arg2 = true
  outRange : userRangeOk ctx.arg4 capSize = true
  attestRange : userRangeOk ctx.arg3 ctx.arg5 = true

instance decidableAttachArgsOk (ctx : SyscallContext) :
    Decidable (AttachArgsOk ctx) :=
  decidable_of_iff
    (ctx.arg2.toNat ≤ maxBusInitBlob ∧ ctx.arg5.toNat = attestExact ∧
      (0 < ctx.arg2.toNat → userRangeOk ctx.arg1 ctx.arg2 = true) ∧
      userRangeOk ctx.arg4 capSize = true ∧
      userRangeOk ctx.arg3 ctx.arg5 = true)
    ⟨fun ⟨h₁, h₂, h₃, h₄, h₅⟩ => ⟨h₁, h₂, h₃, h₄, h₅⟩,
      fun ⟨h₁, h₂, h₃, h₄, h₅⟩ => ⟨h₁, h₂, h₃, h₄, h₅⟩⟩

/-- The bus kind with which the call enters the registry; `none` when a check
on the arguments stops it. -/
def attachRequest (tlsExternal : Bool) (K : Kernel) (ctx : SyscallContext) :
    Option BusKind :=
  if AttachArgsOk ctx then requestedKind tlsExternal K ctx.arg0 else none

variable {tlsExternal : Bool} {K : Kernel} {ctx : SyscallContext}

theorem attachRequest_of_not_args (h : ¬ AttachArgsOk ctx) :
    attachRequest tlsExternal K ctx = none :=
  if_neg h

theorem attachRequest_of_kind_none
    (h : requestedKind tlsExternal K ctx.arg0 = none) :
    attachRequest tlsExternal K ctx = none := by
  unfold attachRequest
  rw [h, ite_self]

theorem attachRequest_octet {busKind : BusKind}
    (h : attachRequest tlsExternal K ctx = some busKind) :
    ctx.arg0.toNat = busKind.octet.toNat := by
  unfold attachRequest requestedKind at h
  split_ifs at h with hargs h₀ h₁ h₆
  · cases h
    rw [h₀]
    rfl
  · cases h
    rw [h₁]
    rfl
  · cases h
    rw [h₆.1]
    rfl

def attachInit (ctx : SyscallContext) (user : Mem) : List Byte :=
  user.read ctx.arg1.toNat ctx.arg2.toNat

def attachPayload (ctx : SyscallContext) (user : Mem) : List Byte :=
  user.read ctx.arg3.toNat attestExact

/-- The kernel after the outcome of the registry attach has been recorded. -/
def recordAttach (busKind : BusKind) (pkPrefix : Buf 4) (K : Kernel) :
    Except HsmCapError HsmCapability → Kernel
  | .ok cap => K.audit cap.slot 0 busKind.octet pkPrefix
  | .error .attestFailed => K.audit 0xFF 1 busKind.octet pkPrefix
  | .error _ => K

/-- The return register for the outcome of the registry attach. -/
def attachRax : Except HsmCapError HsmCapability → BitVec 64
  | .ok _ => 0
  | .error .attestFailed => SyscallError.denied.asRax
  | .error .full => SyscallError.badArg.asRax
  | .error .badInit => SyscallError.badArg.asRax
  | .error _ => SyscallError.internal.asRax

/-- The request for a network bus is refused and recorded. -/
def NetworkRefused (tlsExternal : Bool) (K : Kernel) (ctx : SyscallContext) :
    Prop :=
  ctx.arg0 = 6 ∧ ¬ NetworkOpen tlsExternal K

theorem NetworkRefused.attachRequest_eq_none
    (h : NetworkRefused tlsExternal K ctx) :
    attachRequest tlsExternal K ctx = none := by
  apply attachRequest_of_kind_none
  obtain ⟨hraw, hclosed⟩ := h
  simp [requestedKind, hraw, hclosed]

/-- Everything a returning attach call can do to the kernel. -/
inductive AttachOutcome (tlsExternal : Bool) (C : Crates)
    (destroy : BusInstance.Destructor) (ctx : SyscallContext) (K : Kernel)
    (user : Mem) : BitVec 64 → Kernel → Prop
  | refused (e : SyscallError)
      (hargs : attachRequest tlsExternal K ctx = none) :
      AttachOutcome tlsExternal C destroy ctx K user e.asRax K
  | networkRefused (h : NetworkRefused tlsExternal K ctx) :
      AttachOutcome tlsExternal C destroy ctx K user
        SyscallError.denied.asRax (K.audit 0xFF 2 6 Buf.zero)
  | reached {busKind : BusKind}
      {result : Except HsmCapError HsmCapability} {K₁ : Kernel}
      (hargs : attachRequest tlsExternal K ctx = some busKind)
      (hattach : K.attach C destroy busKind (attachInit ctx user)
        (some (attachPayload ctx user)) fullRights = some (result, K₁)) :
      AttachOutcome tlsExternal C destroy ctx K user (attachRax result)
        (recordAttach busKind
          (pkHashPrefix C (Kernel.attestPk (attachPayload ctx user))) K₁
          result)

/-! ## The steps of the handler -/

section Steps

variable {α : Type} {start : Machine} {Q : α → Machine → Prop}
  {R : Stop → Machine → Prop}

theorem quiet_guardInit_bind {initPtr initLen : BitVec 64}
    {f : Unit → Handler α}
    (hexit : 0 < initLen.toNat → userRangeOk initPtr initLen = false →
      ∀ m, Quiet start m → R (.error .badAddress) m)
    (hrest : (0 < initLen.toNat → userRangeOk initPtr initLen = true) →
      Triple (Quiet start) (f ()) Q R) :
    Triple (Quiet start) (guardInit initPtr initLen >>= f) Q R := by
  unfold guardInit
  by_cases hpos : initLen.toNat > 0
  · rw [if_pos hpos]
    exact quiet_guardRange_bind (hexit hpos) fun hok => hrest fun _ => hok
  · rw [if_neg hpos, pure_bind]
    exact hrest fun h => (hpos h).elim

theorem quiet_copyInit_bind {initPtr initLen : BitVec 64}
    {f : List Byte → Handler α}
    (hrest : Triple (Quiet start)
      (f (start.user.read initPtr.toNat initLen.toNat)) Q R) :
    Triple (Quiet start) (copyInit initPtr initLen >>= f) Q R := by
  unfold copyInit
  by_cases hpos : initLen.toNat > 0
  · rw [if_pos hpos]
    exact quiet_copyIn_bind hrest
  · have hzero : initLen.toNat = 0 := by omega
    rw [if_neg hpos, pure_bind]
    rw [hzero, Mem.read_zero] at hrest
    exact hrest

theorem quiet_denyIf_bind {c : Prop} [Decidable c]
    {slotIdx result busKind : Byte} {f : Unit → Handler α}
    (hexit : c → ∀ m,
      m.kernel = start.kernel.audit slotIdx result busKind Buf.zero →
      R (.error .denied) m)
    (hrest : ¬ c → Triple (Quiet start) (f ()) Q R) :
    Triple (Quiet start) (denyIf c slotIdx result busKind >>= f) Q R := by
  unfold denyIf
  by_cases hc : c
  · rw [if_pos hc]
    intro m hm
    refine ⟨fun _ _ h => (nomatch h), ?_⟩
    rintro _ _ ⟨⟩
    apply hexit hc
    rw [← hm.1]
  · rw [if_neg hc, pure_bind]
    exact hrest hc

theorem quiet_attachBusKind_bind {tlsExternal : Bool} {raw : BitVec 64}
    {f : BusKind → Handler α}
    (hbad : requestedKind tlsExternal start.kernel raw = none →
      ∀ m, Quiet start m → R (.error .badArg) m)
    (hdenied : raw = 6 → ¬ NetworkOpen tlsExternal start.kernel → ∀ m,
      m.kernel = start.kernel.audit 0xFF 2 6 Buf.zero →
      R (.error .denied) m)
    (hrest : ∀ busKind,
      requestedKind tlsExternal start.kernel raw = some busKind →
      Triple (Quiet start) (f busKind) Q R) :
    Triple (Quiet start) (attachBusKind tlsExternal raw >>= f) Q R := by
  unfold requestedKind at hbad hrest
  unfold attachBusKind
  by_cases h₀ : raw = 0
  · rw [if_pos h₀, pure_bind]
    exact hrest _ (if_pos h₀)
  rw [if_neg h₀] at hbad hrest ⊢
  by_cases h₁ : raw = 1
  · rw [if_pos h₁, pure_bind]
    exact hrest _ (if_pos h₁)
  rw [if_neg h₁] at hbad hrest ⊢
  by_cases h₆ : raw = 6
  · rw [if_pos h₆, bind_assoc]
    refine quiet_viewKernel_bind ?_
    rw [bind_assoc]
    refine quiet_denyIf_bind (hdenied h₆) fun hopen => ?_
    rw [pure_bind]
    exact hrest _ (if_pos ⟨h₆, not_not.mp hopen⟩)
  · rw [if_neg h₆]
    refine Triple.bind (M := fun _ _ => False) ?_ fun _ _ h => h.elim
    exact Triple.throw _ (hbad (if_neg fun h => h₆ h.1))

end Steps

/-! ## The whole handler -/

section Call

variable (tlsExternal : Bool) (C : Crates) (destroy : BusInstance.Destructor)
  (ctx : SyscallContext) (start : Machine)

/-- The outcome, as a postcondition on early exits.  The call does not return
only if the registry attach does not. -/
def AttachExit (m : Machine) : Stop → Prop
  | .error e => AttachOutcome tlsExternal C destroy ctx start.kernel
      start.user e.asRax m.kernel
  | .stuck => ∃ busKind,
      attachRequest tlsExternal start.kernel ctx = some busKind ∧
        start.kernel.attach C destroy busKind (attachInit ctx start.user)
          (some (attachPayload ctx start.user)) fullRights = none

theorem attachExit_of_quiet
    (hargs : attachRequest tlsExternal start.kernel ctx = none)
    (e : SyscallError) (m : Machine) (hm : Quiet start m) :
    AttachExit tlsExternal C destroy ctx start m (.error e) := by
  rw [AttachExit, hm.1]
  exact .refused e hargs

theorem finishAttach_outcome {busKind : BusKind}
    {result : Except HsmCapError HsmCapability} {K₁ : Kernel}
    (hargs : attachRequest tlsExternal start.kernel ctx = some busKind)
    (hattach : start.kernel.attach C destroy busKind
      (attachInit ctx start.user) (some (attachPayload ctx start.user))
      fullRights = some (result, K₁)) :
    Triple (fun m => m.kernel = K₁)
      (finishAttach busKind
        (pkHashPrefix C (Kernel.attestPk (attachPayload ctx start.user)))
        ctx.arg4 result)
      (fun value m => AttachOutcome tlsExternal C destroy ctx start.kernel
        start.user value m.kernel)
      (fun stop m => AttachExit tlsExternal C destroy ctx start m stop) := by
  have houtcome : AttachOutcome tlsExternal C destroy ctx start.kernel
      start.user _ _ := .reached hargs hattach
  cases result with
  | ok cap =>
    rintro m rfl
    refine ⟨?_, fun _ _ h => (nomatch h)⟩
    rintro _ _ ⟨⟩
    exact houtcome
  | error e =>
    cases e with
    | attestFailed =>
      rintro m rfl
      refine ⟨fun _ _ h => (nomatch h), ?_⟩
      rintro _ _ ⟨⟩
      exact houtcome
    | full | badInit | invalidToken | invalidSlot | rightsMissing
    | notAttached | busy | tokenGen =>
      refine Triple.throw _ fun m hm => ?_
      rw [AttachExit, hm]
      exact houtcome

theorem handleAttach_outcome :
    Triple (Quiet start) (handleAttach tlsExternal C destroy ctx)
      (fun value m => AttachOutcome tlsExternal C destroy ctx start.kernel
        start.user value m.kernel)
      (fun stop m => AttachExit tlsExternal C destroy ctx start m stop) := by
  have hquiet := attachExit_of_quiet tlsExternal C destroy ctx start
  have hargs (hbad : ¬ AttachArgsOk ctx) :=
    hquiet (attachRequest_of_not_args hbad)
  unfold handleAttach
  refine quiet_attachBusKind_bind ?_ ?_ fun busKind hkind => ?_
  · intro hnone
    exact hquiet (attachRequest_of_kind_none hnone) .badArg
  · intro hraw hclosed m hm
    rw [AttachExit, hm]
    exact .networkRefused ⟨hraw, hclosed⟩
  refine quiet_failIf_bind (fun hbad => hargs (fun h => ?_) _)
    fun hinitLen => ?_
  · exact absurd h.initLen (not_le.mpr hbad)
  refine quiet_failIf_bind (fun hbad => hargs (fun h => ?_) _)
    fun hattestLen => ?_
  · exact hbad h.attestLen
  refine quiet_guardInit_bind (fun hpos hbad => hargs (fun h => ?_) _)
    fun hinitRange => ?_
  · rw [h.initRange hpos] at hbad
    cases hbad
  refine quiet_guardRange_bind (fun hbad => hargs (fun h => ?_) _)
    fun houtRange => ?_
  · rw [h.outRange] at hbad
    cases hbad
  refine quiet_guardRange_bind (fun hbad => hargs (fun h => ?_) _)
    fun hattestRange => ?_
  · rw [h.attestRange] at hbad
    cases hbad
  have hok : AttachArgsOk ctx :=
    ⟨not_lt.mp hinitLen, not_not.mp hattestLen, hinitRange, houtRange,
      hattestRange⟩
  have hrequest : attachRequest tlsExternal start.kernel ctx =
      some busKind := (if_pos hok).trans hkind
  refine quiet_copyInit_bind ?_
  refine quiet_copyIn_bind ?_
  rw [hok.attestLen]
  refine quiet_callKernel_bind (fun hnone _ _ => ⟨busKind, hrequest, hnone⟩) ?_
  intro result K₁ hattach
  exact finishAttach_outcome tlsExternal C destroy ctx start hrequest hattach

end Call

section Returns

variable {C : Crates} {destroy : BusInstance.Destructor} {user : Mem}

/-- A call that enters the registry returns if the registry attach does. -/
theorem exists_syscall_handleAttach {busKind : BusKind}
    (hargs : attachRequest tlsExternal K ctx = some busKind)
    (hattach : (K.attach C destroy busKind (attachInit ctx user)
      (some (attachPayload ctx user)) fullRights).isSome) :
    ∃ value user' K', (handleAttach tlsExternal C destroy ctx).syscall K user =
      some ((value, user'), K') := by
  obtain ⟨-, hexit⟩ := handleAttach_outcome tlsExternal C destroy ctx
    ⟨K, user, []⟩ ⟨K, user, []⟩ ⟨rfl, rfl⟩
  unfold Handler.syscall
  rcases hout : (handleAttach tlsExternal C destroy ctx).eval ⟨K, user, []⟩
    with ⟨stop | returned, m⟩
  · cases stop with
    | stuck =>
      obtain ⟨busKind', hargs', hnone⟩ := hexit _ m hout
      obtain rfl : busKind = busKind' :=
        Option.some.inj (hargs.symm.trans hargs')
      rw [hnone] at hattach
      cases hattach
    | error e => exact ⟨_, _, _, rfl⟩
  · exact ⟨_, _, _, rfl⟩

theorem syscall_handleAttach {K' : Kernel} {user' : Mem} {value : BitVec 64}
    (h : (handleAttach tlsExternal C destroy ctx).syscall K user =
      some ((value, user'), K')) :
    AttachOutcome tlsExternal C destroy ctx K user value K' := by
  obtain ⟨hok, hexit⟩ := handleAttach_outcome tlsExternal C destroy ctx
    ⟨K, user, []⟩ ⟨K, user, []⟩ ⟨rfl, rfl⟩
  unfold Handler.syscall at h
  rcases hout : (handleAttach tlsExternal C destroy ctx).eval ⟨K, user, []⟩
    with ⟨stop | returned, m⟩
  · rw [hout] at h
    cases stop with
    | stuck => cases h
    | error e =>
      cases h
      exact hexit _ m hout
  · rw [hout] at h
    cases h
    exact hok _ m hout

end Returns

end IsoLightK0
