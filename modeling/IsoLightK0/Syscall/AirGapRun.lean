import IsoLightK0.Attest.AuditRing
import IsoLightK0.Syscall.AirGap

/-!
# Runs of the air-gap calls

At boot two capabilities receive tokens and `gap_self_check` stops the machine
if one of them is missing.  From then on the two take handlers hand each
capability out once, and the status handler answers the holder of the audit
token.  The module says once what each handler does and derives from it what
holds over whole runs.
-/

namespace IsoLightK0

open Bytes Runs Triples Handler

namespace Kernel

/-- `gen_token_u64().unwrap_or(0)`. -/
def drawToken (K : Kernel) : Option (BitVec 64 × Kernel) :=
  (genTokenU64 K.capDrbg).map fun (result, drbg) =>
    (result.toOption.getD 0, K.setDrbg drbg)

/-- `init_audit_read_cap`; the second draw is thrown away. -/
def initAuditReadCap (K : Kernel) : Option Kernel := do
  let (token, K) ← K.drawToken
  let (_, K) ← K.drawToken
  pure { K with auditReadCap := { K.auditReadCap with token := token } }

/-- `gap_self_check`; `none` is the panic, which stops the machine. -/
def gapSelfCheck (tlsExternal : Bool) (K : Kernel) : Option Kernel :=
  if tlsExternal = true ∧ K.networkAttachCap.token = 0 then none
  else if K.auditReadCap.token = 0 then none
  else some K

variable {K K' : Kernel}

theorem gapSelfCheck_eq_some {tlsExternal : Bool}
    (h : K.gapSelfCheck tlsExternal = some K') :
    K' = K ∧ K.auditReadCap.token ≠ 0 := by
  unfold gapSelfCheck at h
  split at h
  · cases h
  · split at h
    · cases h
    · rename_i htoken
      cases h
      exact ⟨rfl, htoken⟩

/-- The capability that the boot code leaves; its token is zero if the draw
failed. -/
theorem initAuditReadCap_eq_some (h : K.initAuditReadCap = some K') :
    ∃ token, K'.auditReadCap = { K.auditReadCap with token := token } ∧
      (token ≠ 0 →
        ∃ drbg, genTokenU64 K.capDrbg = some (.ok token, drbg)) := by
  obtain ⟨_, hfirst, hrest⟩ := Option.bind_eq_some_iff.mp h
  obtain ⟨_, hsecond, hlast⟩ := Option.bind_eq_some_iff.mp hrest
  obtain ⟨⟨result, drbg⟩, hdraw, rfl⟩ := Option.map_eq_some_iff.mp hfirst
  obtain ⟨_, -, rfl⟩ := Option.map_eq_some_iff.mp hsecond
  cases hlast
  refine ⟨_, rfl, fun hne => ?_⟩
  cases result with
  | error e => exact (hne rfl).elim
  | ok token => exact ⟨drbg, hdraw⟩

end Kernel

/-! ## The handlers -/

inductive GapCap
  | network
  | auditRead
  deriving DecidableEq

def GapCap.shot : GapCap → OneShot
  | .network => .network
  | .auditRead => .auditRead

/-- What a take handler does: refuse the pointer, refuse a second take, or
hand the capability out. -/
inductive TakeOutcome (shot : OneShot) (ctx : SyscallContext) (K : Kernel)
    (user : Mem) : BitVec 64 → Mem → Kernel → Prop
  | badPointer (hptr : userRangeOk ctx.arg0 capSize = false) :
      TakeOutcome shot ctx K user SyscallError.denied.asRax user K
  | alreadyTaken (hptr : userRangeOk ctx.arg0 capSize = true)
      (hstate : shot.state K = .taken) :
      TakeOutcome shot ctx K user SyscallError.denied.asRax user
        (K.audit shot.slotIdx 2 shot.busKind.octet Buf.zero)
  | handedOut (hptr : userRangeOk ctx.arg0 capSize = true)
      (hstate : shot.state K = .provisioned) :
      TakeOutcome shot ctx K user 0
        (user.write ctx.arg0.toNat (shot.cap K).toBytes)
        ((shot.setTaken K).audit shot.slotIdx 3 shot.busKind.octet Buf.zero)

/-- What the status handler does, in the order of its checks. -/
inductive StatusOutcome (ctx : SyscallContext) (K : Kernel) (user : Mem) :
    BitVec 64 → Mem → Kernel → Prop
  | shortBuffer (hlen : ctx.arg1.toNat < gapStatusLen) :
      StatusOutcome ctx K user SyscallError.denied.asRax user K
  | wrongToken (hlen : gapStatusLen ≤ ctx.arg1.toNat)
      (htoken : ctx.arg2 ≠ K.auditReadCap.token) :
      StatusOutcome ctx K user SyscallError.denied.asRax user
        (K.audit 0xFF 2 BusKind.software.octet Buf.zero)
  | badAddress (hlen : gapStatusLen ≤ ctx.arg1.toNat)
      (htoken : ctx.arg2 = K.auditReadCap.token)
      (hptr : userRangeOk ctx.arg0 ctx.arg1 = false) :
      StatusOutcome ctx K user SyscallError.badAddress.asRax user K
  | reported (hlen : gapStatusLen ≤ ctx.arg1.toNat)
      (htoken : ctx.arg2 = K.auditReadCap.token)
      (hptr : userRangeOk ctx.arg0 ctx.arg1 = true) :
      StatusOutcome ctx K user 0
        (user.write ctx.arg0.toNat (gapStatus K)) K

theorem eval_denyIf_of_holds {c : Prop} [Decidable c] (h : c)
    (slotIdx result busKind : Byte) (m : Machine) :
    (denyIf c slotIdx result busKind).eval m =
      (.error (.error .denied),
        { m with
          kernel := m.kernel.audit slotIdx result busKind Buf.zero }) := by
  unfold denyIf
  rw [if_pos h]
  rfl

theorem eval_denyIf_of_not {c : Prop} [Decidable c] (h : ¬ c)
    (slotIdx result busKind : Byte) (m : Machine) :
    (denyIf c slotIdx result busKind).eval m = (.ok (), m) := by
  unfold denyIf
  rw [if_neg h]
  rfl

theorem syscall_takeCap (shot : OneShot) (ctx : SyscallContext) (K : Kernel)
    (user : Mem) :
    ∃ value user' K',
      (takeCap shot ctx).syscall K user = some ((value, user'), K') ∧
        TakeOutcome shot ctx K user value user' K' := by
  unfold Handler.syscall takeCap
  cases hptr : userRangeOk ctx.arg0 capSize with
  | false =>
    rw [Prog.eval_bind, eval_guardRange_of_rejected _ _ hptr]
    exact ⟨_, _, _, rfl, .badPointer hptr⟩
  | true =>
    rw [Prog.eval_bind, eval_guardRange_of_ok _ _ hptr]
    dsimp only
    rw [Prog.eval_bind, eval_viewKernel]
    dsimp only
    rw [Prog.eval_bind]
    cases hstate : shot.state K with
    | taken =>
      rw [eval_denyIf_of_holds (by decide)]
      exact ⟨_, _, _, rfl, .alreadyTaken hptr hstate⟩
    | provisioned =>
      rw [eval_denyIf_of_not (by decide)]
      exact ⟨_, _, _, rfl, .handedOut hptr hstate⟩

theorem syscall_handleStatus (ctx : SyscallContext) (K : Kernel) (user : Mem) :
    ∃ value user' K',
      (handleStatus ctx).syscall K user = some ((value, user'), K') ∧
        StatusOutcome ctx K user value user' K' := by
  unfold Handler.syscall handleStatus failIf Prog.exitIf
  dsimp only
  by_cases hlen : ctx.arg1.toNat < gapStatusLen
  · rw [if_pos hlen]
    exact ⟨_, _, _, rfl, .shortBuffer hlen⟩
  · rw [if_neg hlen, pure_bind, Prog.eval_bind, eval_viewKernel]
    dsimp only
    rw [Prog.eval_bind]
    have hlong : gapStatusLen ≤ ctx.arg1.toNat := not_lt.mp hlen
    by_cases htoken : ctx.arg2 = K.auditReadCap.token
    · have hmatch : ¬ K.auditReadCap.token ≠ ctx.arg2 := not_not.mpr htoken.symm
      rw [eval_denyIf_of_not hmatch]
      dsimp only
      rw [Prog.eval_bind]
      cases hptr : userRangeOk ctx.arg0 ctx.arg1 with
      | false =>
        rw [eval_guardRange_of_rejected _ _ hptr]
        exact ⟨_, _, _, rfl, .badAddress hlong htoken hptr⟩
      | true =>
        rw [eval_guardRange_of_ok _ _ hptr]
        exact ⟨_, _, _, rfl, .reported hlong htoken hptr⟩
    · rw [eval_denyIf_of_holds (Ne.symm htoken)]
      exact ⟨_, _, _, rfl, .wrongToken hlong htoken⟩

/-! ## Runs -/

/-- A call with its registers and the user memory it finds. -/
inductive GapCall
  | take (cap : GapCap) (ctx : SyscallContext) (user : Mem)
  | status (ctx : SyscallContext) (user : Mem)

/-- One air-gap call; the closed build has no `take_network_cap`. -/
def gapStep (tlsExternal : Bool) (K : Kernel) :
    GapCall → Option ((BitVec 64 × Mem) × Kernel)
  | .take .network ctx user =>
    if tlsExternal = true then (takeNetworkCap ctx).syscall K user else none
  | .take .auditRead ctx user => (takeAuditReadCap ctx).syscall K user
  | .status ctx user => (handleStatus ctx).syscall K user

/-- What one completed call does. -/
def GapOutcome (K : Kernel) : GapCall → BitVec 64 × Mem → Kernel → Prop
  | .take cap ctx user, (value, user'), K' =>
    TakeOutcome cap.shot ctx K user value user' K'
  | .status ctx user, (value, user'), K' =>
    StatusOutcome ctx K user value user' K'

variable {K K' : Kernel} {call : GapCall} {result : BitVec 64 × Mem}
  (cap : GapCap) {history : List GapEvent}

theorem gapStep_outcome {tlsExternal : Bool}
    (h : gapStep tlsExternal K call = some (result, K')) :
    GapOutcome K call result K' := by
  have htake (shot : OneShot) (ctx : SyscallContext) (user : Mem)
      (hcall : (takeCap shot ctx).syscall K user = some (result, K')) :
      TakeOutcome shot ctx K user result.1 result.2 K' := by
    obtain ⟨value, user', K'', hstep, houtcome⟩ :=
      syscall_takeCap shot ctx K user
    rw [hcall] at hstep
    cases hstep
    exact houtcome
  cases call with
  | take cap ctx user =>
    cases cap with
    | network =>
      simp only [gapStep] at h
      split at h
      · exact htake .network ctx user h
      · cases h
    | auditRead => exact htake .auditRead ctx user h
  | status ctx user =>
    obtain ⟨value, user', K'', hstep, houtcome⟩ :=
      syscall_handleStatus ctx K user
    have hcall : (handleStatus ctx).syscall K user = some (result, K') := h
    rw [hcall] at hstep
    cases hstep
    exact houtcome

abbrev GapEvent := GapCall × (BitVec 64 × Mem)

/-- The event is a successful take of the capability. -/
def Obtains (cap : GapCap) : GapEvent → Bool
  | (.take cap' _ _, (value, _)) => cap' = cap ∧ value = 0
  | (.status _ _, _) => false

theorem shot_state_setTaken (cap' : GapCap) (K : Kernel) :
    cap'.shot.state (cap.shot.setTaken K) =
      if cap = cap' then .taken else cap'.shot.state K := by
  cases cap <;> cases cap' <;> rfl

theorem shot_state_audit (K : Kernel) (slotIdx result busKind : Byte)
    (pkPrefix : Buf 4) :
    cap.shot.state (K.audit slotIdx result busKind pkPrefix) =
      cap.shot.state K := by
  cases cap <;> rfl

theorem shot_setTaken_auditReadCap (K : Kernel) :
    (cap.shot.setTaken K).auditReadCap = K.auditReadCap := by
  cases cap <;> rfl

theorem obtains_denied (cap' : GapCap) (ctx : SyscallContext)
    (user user' : Mem) :
    Obtains cap (.take cap' ctx user, (SyscallError.denied.asRax, user')) =
      false := by
  apply decide_eq_false
  rintro ⟨-, hzero⟩
  exact absurd hzero (by decide)

/-- Nobody has taken the capability, or one caller has and the state says
so. -/
def TakenOnce (cap : GapCap) (history : List GapEvent) (K : Kernel) : Prop :=
  history.countP (Obtains cap) = 0 ∨
    history.countP (Obtains cap) = 1 ∧ cap.shot.state K = .taken

theorem TakenOnce.of_keeps {cap : GapCap} (h : TakenOnce cap history K)
    {event : GapEvent} (hevent : Obtains cap event = false)
    (hstate : cap.shot.state K' = cap.shot.state K) :
    TakenOnce cap (event :: history) K' := by
  have hcount : (event :: history).countP (Obtains cap) =
      history.countP (Obtains cap) := by
    rw [List.countP_cons, hevent]
    rfl
  unfold TakenOnce
  rw [hcount, hstate]
  exact h

theorem TakenOnce.take {cap : GapCap} (h : TakenOnce cap history K)
    {event : GapEvent} (hbefore : cap.shot.state K = .provisioned)
    (hevent : Obtains cap event = true) (hafter : cap.shot.state K' = .taken) :
    TakenOnce cap (event :: history) K' := by
  have hzero : history.countP (Obtains cap) = 0 := by
    rcases h with hzero | ⟨-, htaken⟩
    · exact hzero
    · rw [hbefore] at htaken
      cases htaken
  right
  rw [List.countP_cons, hevent, hzero]
  exact ⟨rfl, hafter⟩

theorem TakenOnce.step {cap : GapCap} (h : TakenOnce cap history K)
    (hstep : GapOutcome K call result K') :
    TakenOnce cap ((call, result) :: history) K' := by
  obtain ⟨value, user'⟩ := result
  cases call with
  | status ctx user =>
    refine h.of_keeps rfl ?_
    cases hstep with
    | wrongToken hlen htoken => exact shot_state_audit cap K _ _ _ _
    | shortBuffer hlen => rfl
    | badAddress hlen htoken hptr => rfl
    | reported hlen htoken hptr => rfl
  | take cap' ctx user =>
    cases hstep with
    | badPointer hptr =>
      exact h.of_keeps (obtains_denied cap cap' ctx _ _) rfl
    | alreadyTaken hptr hstate =>
      exact h.of_keeps (obtains_denied cap cap' ctx _ _)
        (shot_state_audit cap K _ _ _ _)
    | handedOut hptr hstate =>
      have hafter : cap.shot.state ((cap'.shot.setTaken K).audit
          cap'.shot.slotIdx 3 cap'.shot.busKind.octet Buf.zero) =
          if cap' = cap then .taken else cap.shot.state K := by
        rw [shot_state_audit, shot_state_setTaken]
      by_cases heq : cap' = cap
      · subst heq
        refine h.take hstate ?_ ?_
        · simp [Obtains]
        · rw [hafter, if_pos rfl]
      · refine h.of_keeps ?_ ?_
        · simp [Obtains, heq]
        · rw [hafter, if_neg heq]

theorem GapOutcome.auditReadCap (h : GapOutcome K call result K') :
    K'.auditReadCap = K.auditReadCap := by
  obtain ⟨value, user'⟩ := result
  cases call with
  | take cap ctx user =>
    cases h with
    | badPointer hptr => rfl
    | alreadyTaken hptr hstate => rfl
    | handedOut hptr hstate => exact shot_setTaken_auditReadCap cap K
  | status ctx user => cases h <;> rfl

/-- Over a run each capability is handed out once at most and the audit token
stays the one of boot. -/
theorem gapRun_takenOnce {tlsExternal : Bool} {K₀ : Kernel}
    (hrun : Run (gapStep tlsExternal) K₀ history K) :
    (∀ cap, TakenOnce cap history K) ∧ K.auditReadCap = K₀.auditReadCap := by
  induction hrun with
  | start => exact ⟨fun _ => .inl rfl, rfl⟩
  | next hprev hstep ih =>
    have houtcome := gapStep_outcome hstep
    exact ⟨fun cap => (ih.1 cap).step houtcome,
      houtcome.auditReadCap.trans ih.2⟩

/-! ## The guarantees after the self check -/

def AppendsOne (K K' : Kernel) : Prop :=
  ∃ call : AuditCall, K'.auditRing = call.enqueue K.auditRing

theorem appendsOne_audit (K : Kernel) (slotIdx result busKind : Byte)
    (pkPrefix : Buf 4) :
    AppendsOne K (K.audit slotIdx result busKind pkPrefix) :=
  ⟨⟨slotIdx, result, busKind, pkPrefix⟩, rfl⟩

/-- A take that is refused: a bad pointer leaves the kernel as it was, a
second take leaves one event and no other trace. -/
theorem TakeOutcome.refused {cap : GapCap} {ctx : SyscallContext}
    {user user' : Mem} {value : BitVec 64}
    (h : TakeOutcome cap.shot ctx K user value user' K') (hvalue : value ≠ 0) :
    (∀ cap' : GapCap, cap'.shot.state K' = cap'.shot.state K) ∧
      (userRangeOk ctx.arg0 capSize = true →
        cap.shot.state K = .taken ∧ AppendsOne K K') ∧
      (userRangeOk ctx.arg0 capSize = false →
        K'.auditRing = K.auditRing) := by
  cases h with
  | badPointer hptr =>
    refine ⟨fun _ => rfl, ?_, fun _ => rfl⟩
    intro hok
    rw [hptr] at hok
    cases hok
  | alreadyTaken hptr hstate =>
    refine ⟨fun cap' => shot_state_audit cap' K _ _ _ _,
      fun _ => ⟨hstate, appendsOne_audit K _ _ _ _⟩, ?_⟩
    intro hbad
    rw [hptr] at hbad
    cases hbad
  | handedOut hptr hstate => exact (hvalue rfl).elim

/-- The status handler reports only to the holder of the token, and records a
wrong token but neither a short buffer nor a bad address. -/
theorem StatusOutcome.spec {ctx : SyscallContext} {user user' : Mem}
    {value : BitVec 64} (h : StatusOutcome ctx K user value user' K') :
    (value = 0 → ctx.arg2 = K.auditReadCap.token) ∧
      (gapStatusLen ≤ ctx.arg1.toNat → ctx.arg2 ≠ K.auditReadCap.token →
        AppendsOne K K') ∧
      (ctx.arg1.toNat < gapStatusLen ∨
          (ctx.arg2 = K.auditReadCap.token ∧
            userRangeOk ctx.arg0 ctx.arg1 = false) →
        K'.auditRing = K.auditRing) := by
  cases h with
  | shortBuffer hlen =>
    refine ⟨fun hzero => absurd hzero (by decide), ?_, fun _ => rfl⟩
    intro hlong
    omega
  | wrongToken hlen htoken =>
    refine ⟨fun hzero => absurd hzero (by decide),
      fun _ _ => appendsOne_audit K _ _ _ _, ?_⟩
    rintro (hshort | ⟨hmatch, -⟩)
    · omega
    · exact (htoken hmatch).elim
  | badAddress hlen htoken hptr | reported hlen htoken hptr =>
    exact ⟨fun _ => htoken, fun _ hne => (hne htoken).elim, fun _ => rfl⟩

/-- After the self check, in every run of take and status calls: each
capability is handed out once at most; a refused take changes no capability
state and is recorded exactly when the capability was gone; the status handler
succeeds only for the nonzero audit token and records exactly the calls with a
wrong token. -/
theorem airGap_run_guarantees (tlsExternal : Bool) (K₀ K : Kernel)
    (history : List GapEvent)
    (hcheck : K₀.gapSelfCheck tlsExternal = some K₀)
    (hrun : Run (gapStep tlsExternal) K₀ history K) :
    (∀ cap, history.countP (Obtains cap) ≤ 1) ∧
      (∀ cap ctx user value user' K',
        gapStep tlsExternal K (.take cap ctx user) =
            some ((value, user'), K') →
        value ≠ 0 →
          (∀ cap' : GapCap, cap'.shot.state K' = cap'.shot.state K) ∧
          (userRangeOk ctx.arg0 capSize = true →
            cap.shot.state K = .taken ∧ AppendsOne K K') ∧
          (userRangeOk ctx.arg0 capSize = false →
            K'.auditRing = K.auditRing)) ∧
      ∀ ctx user value user' K',
        gapStep tlsExternal K (.status ctx user) =
            some ((value, user'), K') →
          (value = 0 →
            ctx.arg2 = K₀.auditReadCap.token ∧ ctx.arg2 ≠ 0) ∧
          (gapStatusLen ≤ ctx.arg1.toNat →
            ctx.arg2 ≠ K₀.auditReadCap.token → AppendsOne K K') ∧
          (ctx.arg1.toNat < gapStatusLen ∨
              (ctx.arg2 = K₀.auditReadCap.token ∧
                userRangeOk ctx.arg0 ctx.arg1 = false) →
            K'.auditRing = K.auditRing) := by
  obtain ⟨htaken, htoken⟩ := gapRun_takenOnce hrun
  have hne : K₀.auditReadCap.token ≠ 0 := (Kernel.gapSelfCheck_eq_some hcheck).2
  refine ⟨?_, ?_, ?_⟩
  · intro cap
    rcases htaken cap with hzero | ⟨hone, -⟩
    · rw [hzero]
      exact Nat.zero_le 1
    · exact le_of_eq hone
  · intro cap ctx user value user' K' hstep hvalue
    have houtcome : TakeOutcome cap.shot ctx K user value user' K' :=
      gapStep_outcome hstep
    exact houtcome.refused hvalue
  · intro ctx user value user' K' hstep
    have houtcome : StatusOutcome ctx K user value user' K' :=
      gapStep_outcome hstep
    obtain ⟨hzero, hmismatch, hquiet⟩ := houtcome.spec
    rw [htoken] at hzero hmismatch hquiet
    refine ⟨?_, hmismatch, hquiet⟩
    intro hvalue
    have hmatch := hzero hvalue
    exact ⟨hmatch, hmatch ▸ hne⟩

def takeAuditCall : GapCall :=
  .take .auditRead ⟨15, 0x2000, 0, 0, 0, 0, 0⟩ fun _ => 0

/-- The capability is taken once; the second take is refused and recorded. -/
theorem airGap_run_second_take :
    ∃ history K, Run (gapStep true) (Kernel.boot [] Buf.zero Buf.zero 1 2)
        history K ∧
      history.countP (Obtains .auditRead) = 1 ∧
      history.map (fun event => event.2.1) =
        [SyscallError.denied.asRax, 0] ∧
      K.auditRing.total = 2 ∧
      ∀ cap, history.countP (Obtains cap) ≤ 1 := by
  have hfirst : Run (gapStep true) (Kernel.boot [] Buf.zero Buf.zero 1 2)
      _ _ :=
    Run.next (a := takeAuditCall) Run.start rfl
  have hrun := Run.next (a := takeAuditCall) hfirst rfl
  exact ⟨_, _, hrun, rfl, rfl, rfl,
    (airGap_run_guarantees true _ _ _ rfl hrun).1⟩

/-- From boot on: the self check lets the machine run only if the DRBG has
delivered a token, the audit capability is handed out with this token, and the
status is reported only to a caller that presents it.  Between the draw and the
check no boot code writes to the capability. -/
theorem airGap_boot_run {tlsExternal : Bool} {K₀ K₁ K₂ K : Kernel}
    {history : List GapEvent} (hinit : K₀.initAuditReadCap = some K₁)
    (hkept : K₂.auditReadCap = K₁.auditReadCap)
    (hcheck : K₂.gapSelfCheck tlsExternal = some K₂)
    (hrun : Run (gapStep tlsExternal) K₂ history K) :
    ∃ token drbg, genTokenU64 K₀.capDrbg = some (.ok token, drbg) ∧
      (∀ ctx user user', (.take .auditRead ctx user, 0, user') ∈ history →
        user' = user.write ctx.arg0.toNat
          { K₀.auditReadCap with token := token }.toBytes) ∧
      ∀ ctx user user', (.status ctx user, 0, user') ∈ history →
        ctx.arg2 = token := by
  have hne := (Kernel.gapSelfCheck_eq_some hcheck).2
  obtain ⟨token, hcap, hdraw⟩ := Kernel.initAuditReadCap_eq_some hinit
  rw [← hkept] at hcap
  rw [hcap] at hne
  obtain ⟨drbg, hdraw⟩ := hdraw hne
  have hevent : ∀ call result, (call, result) ∈ history → ∃ K K',
      K.auditReadCap = { K₀.auditReadCap with token := token } ∧
        GapOutcome K call result K' := by
    intro call result hmem
    obtain ⟨later, earlier, rfl⟩ := List.append_of_mem hmem
    obtain ⟨K, K', hprev, hstep⟩ := hrun.exists_step
    exact ⟨K, K', (gapRun_takenOnce hprev).2.trans hcap, gapStep_outcome hstep⟩
  refine ⟨token, drbg, hdraw, ?_, ?_⟩
  · intro ctx user user' hmem
    obtain ⟨K, K', hsame, houtcome⟩ := hevent _ _ hmem
    cases houtcome with
    | handedOut hptr hstate => exact hsame ▸ rfl
  · intro ctx user user' hmem
    obtain ⟨K, K', hsame, houtcome⟩ := hevent _ _ hmem
    rw [houtcome.spec.1 rfl, hsame]

def bootTokens : List DrbgOutcome :=
  [.generated fun _ => 1, .generated fun _ => 2]

theorem airGap_boot_run_take :
    ∃ K user' token drbg,
      Run (gapStep true) (.boot [] Buf.zero Buf.zero 0x0101010101010101 3)
          [(takeAuditCall, 0, user')] K ∧
        genTokenU64 (some bootTokens) = some (.ok token, drbg) ∧
        user' = Mem.write (fun _ => 0) 0x2000
          { HsmCapability.invalid with token := token }.toBytes := by
  have hinit : (Kernel.boot bootTokens Buf.zero Buf.zero 0
      0).initAuditReadCap = some _ := rfl
  have hrun : Run (gapStep true)
      (.boot [] Buf.zero Buf.zero 0x0101010101010101 3)
      [(takeAuditCall, _)] _ := .next .start rfl
  obtain ⟨token, drbg, hdraw, htake, -⟩ :=
    airGap_boot_run hinit (by rfl) (by rfl) hrun
  exact ⟨_, _, token, drbg, hrun, hdraw, htake _ _ _ (.head _)⟩

end IsoLightK0
