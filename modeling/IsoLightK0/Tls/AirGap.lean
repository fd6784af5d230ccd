import IsoLightK0.Syscall.Invariant
import IsoLightK0.Tls.Frame

/-!
# The air gap of the external build

In the `tls-external` build a network bus and a connection with the external
profile are meant for the time after the network capability has been taken.
The registry asks for it.  `run_loopback` does not, so the gate on connections
holds in the runs whose callers ask instead.

The first half shows that a TLS operation leaves the profiles in the pool
alone, except for the two slots that `run_loopback` opens.
-/

namespace IsoLightK0

open Bytes Runs Triples TlsProg

/-- No connection of the pool has the external profile. -/
def TlsPool.AllClosed (pool : TlsPool) : Prop :=
  ∀ i c, pool i = some c → c.profile = .closed

theorem TlsPool.AllClosed.update {pool : TlsPool} (h : pool.AllClosed)
    (i : ConnIdx) {slot : Option TlsConnection}
    (hslot : ∀ c, slot = some c → c.profile = .closed) :
    TlsPool.AllClosed (Function.update pool i slot) := by
  intro j c hc
  by_cases hj : j = i
  · subst hj
    rw [Function.update_self] at hc
    exact hslot c hc
  · rw [Function.update_of_ne hj] at hc
    exact h j c hc

/-- The operation opens no connection with the external profile. -/
abbrev KeepsClosed {α : Type} (x : TlsProg α) : Prop :=
  Keeps (fun s : TlsState => s.pool.AllClosed) x

section Operations

variable {α : Type}

theorem closed_setSlot (i : ConnIdx) {c : Option TlsConnection}
    (hc : ∀ c', c = some c' → c'.profile = .closed) :
    KeepsClosed (setSlot i c) :=
  fun _ hs => hs.update i hc

theorem closed_allocSlot : KeepsClosed allocSlot := by
  intro s hs
  unfold allocSlot
  rw [Prog.eval_get_bind]
  cases (List.finRange maxTlsConns).find? fun i => (s.pool i).isNone with
  | none => exact hs
  | some i =>
    apply hs.update i
    intro c hc
    cases hc
    rfl

theorem closed_withSlot (h : ConnHandle)
    {f : TlsConnection → Except TlsStop (α × TlsConnection)}
    (hf : ∀ c a c', f c = .ok (a, c') → c.profile = .closed →
      c'.profile = .closed) : KeepsClosed (withSlot h f) := by
  apply keeps_withSlot
  intro s i c a c' hs _ hc hok
  apply hs.update i
  rintro _ ⟨⟩
  exact hf c a c' hok (hs i c hc)

theorem closed_updateSlot (h : ConnHandle) {f : TlsConnection → TlsConnection}
    (hf : ∀ c, c.profile = .closed → (f c).profile = .closed) :
    KeepsClosed (updateSlot h f) := by
  apply closed_withSlot
  intro c a c' hok hc
  cases hok
  exact hf c hc

theorem closed_close (h : ConnHandle) : KeepsClosed (close h) := by
  unfold close
  split
  · exact Keeps.throw _
  · apply closed_setSlot
    intro c hc
    cases hc

theorem closed_wipeAll : KeepsClosed wipeAll := by
  intro s _ i c hc
  cases hc

theorem closed_withConnected (h : ConnHandle)
    {f : TlsConnection → Except TlsError (α × TlsConnection)}
    (hf : ∀ c a c', f c = .ok (a, c') → c.profile = .closed →
      c'.profile = .closed) : KeepsClosed (withConnected h f) := by
  apply closed_withSlot
  intro c a c' hok hc
  split at hok
  · cases hok
  · cases hfc : f c with
    | error e =>
      rw [hfc] at hok
      cases hok
    | ok result =>
      rw [hfc] at hok
      cases hok
      exact hf c a c' hfc hc

variable (T : TlsCrates)

theorem closed_loopbackSendRecv (sender receiver : ConnHandle)
    (plaintext : List Byte) (outLen : ℕ) :
    KeepsClosed (loopbackSendRecv T sender receiver plaintext outLen) := by
  unfold loopbackSendRecv
  refine (keeps_slot _).bind fun _ => ?_
  refine (closed_withConnected _ ?_).bind fun record => ?_
  · intro c a c' hok hc
    obtain ⟨result, -, heq⟩ := exists_of_bind_eq_ok hok
    cases heq
    exact hc
  · apply closed_withConnected
    intro c a c' hok hc
    obtain ⟨result, -, heq⟩ := exists_of_bind_eq_ok hok
    cases heq
    exact hc

theorem closed_doHandshakeBy (clientHsm serverHsm : HsmDriver)
    (clientH serverH : ConnHandle) (policy : KexPolicy) (suite : CipherSuite)
    (pskId : PskId) :
    KeepsClosed (doHandshakeBy T clientHsm serverHsm clientH serverH policy
      suite pskId) := by
  apply keeps_doHandshakeBy
  · intro s h i c c' hs _ _ hc hprofile
    apply hs.update i
    rintro _ ⟨⟩
    exact hprofile.trans (hs i c hc)
  · intro s drbg hs
    exact hs

theorem closed_runLoopback (hsm : HsmDriver) (policy : KexPolicy)
    (suite : CipherSuite) (pskId : PskId) :
    KeepsClosed (runLoopback T hsm .closed policy suite pskId) := by
  unfold runLoopback runLoopbackBy
  refine (Keeps.pure _).bind fun _ => ?_
  refine closed_allocSlot.bind fun clientH => ?_
  refine (closed_updateSlot _ fun _ _ => rfl).bind fun _ => ?_
  refine closed_allocSlot.attempt.bind fun allocated => ?_
  cases allocated with
  | error e =>
    refine (closed_updateSlot _ ?_).bind fun _ => Keeps.throw _
    intro c hc
    exact hc
  | ok serverH =>
    refine (closed_updateSlot _ fun _ _ => rfl).bind fun _ => ?_
    refine (closed_doHandshakeBy T _ _ _ _ _ _ _).attempt.bind fun outcome => ?_
    cases outcome with
    | error e =>
      refine (closed_close _).attempt.bind fun _ => ?_
      exact (closed_close _).attempt.bind fun _ => Keeps.throw _
    | ok _ => exact Keeps.pure _

end Operations

/-! ## The system -/

theorem HsmSlot.Settled.kind_ne_network {slot : HsmSlot} (h : slot.Settled)
    (hattached : slot.state = .attached) : slot.bus.kind ≠ .network := by
  rcases h with ⟨hempty, -⟩ | ⟨-, -, hopen⟩
  · rw [hattached] at hempty
    cases hempty
  · intro hkind
    cases hbus : slot.bus with
    | network =>
      rw [hbus] at hopen
      exact hopen
    | _ =>
      rw [hbus] at hkind
      cases hkind

/-- The statics of the kernel and the connection pool. -/
structure TlsSystem where
  kernel : Kernel
  pool : TlsPool

/-- System calls from user space and TLS operations of the kernel. -/
inductive TlsSystemCall
  | syscall (call : SysCall)
  | runLoopback (hsm : HsmDriver) (profile : TlsProfile) (policy : KexPolicy)
      (suite : CipherSuite) (pskId : PskId)
  | sendRecv (sender receiver : ConnHandle) (plaintext : List Byte)
      (outLen : ℕ)
  | close (h : ConnHandle)
  | wipeAll

inductive TlsSystemResult
  | returned (value : BitVec 64 × Mem)
  | opened (handles : Except TlsError (ConnHandle × ConnHandle))
  | received (content : Except TlsError (List Byte))
  | closed (result : Except TlsError Unit)
  | wiped (result : Except TlsError Unit)

namespace TlsSystem

/-- Run a TLS operation on the pool and the DRBG of the kernel. -/
def runTls {α : Type} (S : TlsSystem) (x : TlsProg α) :
    Option (Except TlsError α × TlsSystem) :=
  let out := x.eval ⟨S.pool, S.kernel.capDrbg⟩
  let S' : TlsSystem := ⟨S.kernel.setDrbg out.2.drbg, out.2.pool⟩
  match out.1 with
  | .ok a => some (.ok a, S')
  | .error (.error e) => some (.error e, S')
  | .error .stuck => none

/-- One call in the `tls-external` build. -/
def step (T : TlsCrates) (C : Crates) (destroy : BusInstance.Destructor)
    (S : TlsSystem) : TlsSystemCall → Option (TlsSystemResult × TlsSystem)
  | .syscall call =>
    (sysStep true C destroy S.kernel call).map
      fun (value, K) => (.returned value, ⟨K, S.pool⟩)
  | .runLoopback hsm profile policy suite pskId =>
    (S.runTls (IsoLightK0.runLoopback T hsm profile policy suite pskId)).map
      fun (r, S) => (.opened r, S)
  | .sendRecv sender receiver plaintext outLen =>
    (S.runTls (loopbackSendRecv T sender receiver plaintext outLen)).map
      fun (r, S) => (.received r, S)
  | .close h => (S.runTls (TlsProg.close h)).map fun (r, S) => (.closed r, S)
  | .wipeAll => (S.runTls TlsProg.wipeAll).map fun (r, S) => (.wiped r, S)

/-- A state in which the self check has passed.  Boot has attached and
detached slots and opened connections of the closed profile only. -/
structure AfterSelfCheck (S : TlsSystem) : Prop where
  checked : S.kernel.gapSelfCheck true = some S.kernel
  settled : S.kernel.AllSettled
  closed : S.pool.AllClosed

def NetworkTaken (S : TlsSystem) : Prop := S.kernel.networkCapState = .taken

/-- The check that `run_loopback` lacks: the external profile is asked for
only once the network capability has been taken. -/
def Admits (S : TlsSystem) : TlsSystemCall → Prop
  | .runLoopback _ profile _ _ _ => profile = .external → S.NetworkTaken
  | _ => True

/-- The invariant of the runs that make this check. -/
structure Gated (S : TlsSystem) : Prop where
  settled : S.kernel.AllSettled
  pool : S.NetworkTaken ∨ S.pool.AllClosed

variable {α : Type} {S S' : TlsSystem} {x : TlsProg α}

theorem runTls_eq_some {r : Except TlsError α} (h : S.runTls x = some (r, S')) :
    S' = ⟨S.kernel.setDrbg (x.eval ⟨S.pool, S.kernel.capDrbg⟩).2.drbg,
      (x.eval ⟨S.pool, S.kernel.capDrbg⟩).2.pool⟩ := by
  unfold runTls at h
  dsimp only at h
  split at h
  · cases h
    rfl
  · cases h
    rfl
  · cases h

/-- A TLS operation keeps the gate, provided it opens no external connection
before the capability has been taken. -/
theorem Gated.runTls {r : Except TlsError α} (hS : S.Gated)
    (hx : S.NetworkTaken ∨ KeepsClosed x) (h : S.runTls x = some (r, S')) :
    S'.Gated := by
  rw [runTls_eq_some h]
  refine ⟨hS.settled, ?_⟩
  rcases hS.pool with htaken | hclosed
  · exact .inl htaken
  · rcases hx with htaken | hkeeps
    · exact .inl htaken
    · exact .inr (hkeeps ⟨S.pool, S.kernel.capDrbg⟩ hclosed)

theorem Gated.runTls_map {f : Except TlsError α → TlsSystemResult}
    {result : TlsSystemResult} (hS : S.Gated)
    (hx : S.NetworkTaken ∨ KeepsClosed x)
    (h : (S.runTls x).map (fun (r, S) => (f r, S)) = some (result, S')) :
    S'.Gated := by
  obtain ⟨⟨r, S₁⟩, hrun, heq⟩ := Option.map_eq_some_iff.mp h
  cases heq
  exact hS.runTls hx hrun

theorem Gated.syscall {C : Crates} {destroy : BusInstance.Destructor}
    {K : Kernel} {call : SysCall} {value : BitVec 64 × Mem} (hS : S.Gated)
    (h : sysStep true C destroy S.kernel call = some (value, K)) :
    (⟨K, S.pool⟩ : TlsSystem).Gated := by
  constructor
  · exact (kernelInvariant_allSettled C destroy).keeps_sysStep h hS.settled
  · rcases hS.pool with htaken | hclosed
    · left
      exact (kernelInvariant_taken C destroy .network).keeps_sysStep h htaken
    · exact .inr hclosed

theorem Gated.step {T : TlsCrates} {C : Crates}
    {destroy : BusInstance.Destructor} {call : TlsSystemCall}
    {result : TlsSystemResult} (hS : S.Gated) (hadmits : S.Admits call)
    (h : S.step T C destroy call = some (result, S')) : S'.Gated := by
  cases call with
  | syscall call =>
    obtain ⟨⟨value, K⟩, hcall, heq⟩ := Option.map_eq_some_iff.mp h
    cases heq
    exact hS.syscall hcall
  | runLoopback hsm profile policy suite pskId =>
    refine hS.runTls_map (f := .opened) ?_ h
    cases profile with
    | closed => exact .inr (closed_runLoopback T hsm policy suite pskId)
    | external => exact .inl (hadmits rfl)
  | sendRecv sender receiver plaintext outLen =>
    exact hS.runTls_map (f := .received)
      (.inr (closed_loopbackSendRecv T _ _ _ _)) h
  | close handle =>
    exact hS.runTls_map (f := .closed) (.inr (closed_close handle)) h
  | wipeAll => exact hS.runTls_map (f := .wiped) (.inr closed_wipeAll) h

end TlsSystem

/-- As long as every external handshake waits for the network capability, no
attached slot has a network bus and no external connection is connected before
the capability has been taken. -/
theorem external_waits_for_network_cap (T : TlsCrates) (C : Crates)
    (destroy : BusInstance.Destructor) (S₀ S : TlsSystem)
    (history : List (TlsSystemCall × TlsSystemResult))
    (hstart : S₀.AfterSelfCheck)
    (hrun : GuardedRun TlsSystem.Admits (TlsSystem.step T C destroy) S₀
      history S)
    (hstate : S.kernel.networkCapState ≠ .taken) :
    (∀ i, (S.kernel.registry.slots i).state = .attached →
        (S.kernel.registry.slots i).bus.kind ≠ .network) ∧
      ∀ i c, S.pool i = some c → c.profile = .external →
        c.state ≠ .connected := by
  have hgated : S.Gated := by
    refine hrun.history_invariant (I := fun _ S => S.Gated) ?_ ?_
    · exact ⟨hstart.settled, .inr hstart.closed⟩
    · intro _ S call result S' hS hadmits hstep
      exact hS.step hadmits hstep
  constructor
  · intro i hattached
    exact (hgated.settled i).kind_ne_network hattached
  · intro i c hc hexternal
    have hclosed : c.profile = .closed :=
      (hgated.pool.resolve_left hstate) i c hc
    rw [hexternal] at hclosed
    cases hclosed

/-- The state after boot, with four draws left in the DRBG. -/
def TlsSystem.provisioned : TlsSystem where
  kernel := Kernel.boot (List.replicate 4 (.generated fun _ => 0)) Buf.zero
    Buf.zero 1 2
  pool := TlsPool.empty

def loopbackCall (profile : TlsProfile) : TlsSystemCall :=
  .runLoopback .accepting profile .classical .aes256GcmSha256 Buf.zero

theorem TlsSystem.provisioned_afterSelfCheck :
    TlsSystem.provisioned.AfterSelfCheck where
  checked := rfl
  settled := fun _ => .inl ⟨rfl, rfl⟩
  closed := by
    intro i c hc
    cases hc

/-- Some connection of the pool is connected with the profile. -/
def TlsPool.connectedWith (pool : TlsPool) (profile : TlsProfile) : Bool :=
  (List.finRange maxTlsConns).any fun i =>
    (pool i).any fun c => c.profile = profile ∧ c.state = .connected

theorem TlsPool.exists_of_connectedWith {pool : TlsPool}
    {profile : TlsProfile} (h : pool.connectedWith profile = true) :
    ∃ i c, pool i = some c ∧ c.profile = profile ∧ c.state = .connected := by
  obtain ⟨i, -, hslot⟩ := List.any_eq_true.mp h
  cases hc : pool i with
  | none =>
    rw [hc] at hslot
    cases hslot
  | some c =>
    rw [hc] at hslot
    exact ⟨i, c, hc, of_decide_eq_true hslot⟩

/-- Right after boot a handshake connects with either profile, and the network
capability is still there to be taken. -/
theorem loopbackCall_connects (profile : TlsProfile) :
    ∃ result S,
      TlsSystem.provisioned.step .constant .inert BusInstance.returning
          (loopbackCall profile) = some (result, S) ∧
        S.kernel.networkCapState = .provisioned ∧
        S.pool.connectedWith profile = true := by
  have heval : (TlsSystem.provisioned.step .constant .inert
      BusInstance.returning (loopbackCall profile)).any (fun p =>
        p.2.kernel.networkCapState = .provisioned ∧
          p.2.pool.connectedWith profile = true) = true := by
    cases profile with
    | closed => decide +kernel
    | external => decide +kernel
  cases hstep : TlsSystem.provisioned.step .constant .inert
      BusInstance.returning (loopbackCall profile) with
  | none =>
    rw [hstep] at heval
    cases heval
  | some out =>
    rw [hstep] at heval
    exact ⟨out.1, out.2, rfl, of_decide_eq_true heval⟩

/-- A closed handshake after boot is such a run: it connects, and what it
leaves behind is neither a network bus nor an external connection. -/
theorem external_waits_for_network_cap_closed_loopback :
    ∃ history S,
      GuardedRun TlsSystem.Admits
          (TlsSystem.step .constant .inert BusInstance.returning)
          .provisioned history S ∧
        S.pool.connectedWith .closed = true ∧
        (∀ i, (S.kernel.registry.slots i).state = .attached →
          (S.kernel.registry.slots i).bus.kind ≠ .network) ∧
        ∀ i c, S.pool i = some c → c.profile = .external →
          c.state ≠ .connected := by
  obtain ⟨result, S, hstep, hstate, hconnected⟩ := loopbackCall_connects .closed
  have hrun : GuardedRun TlsSystem.Admits
      (TlsSystem.step .constant .inert BusInstance.returning) .provisioned
      [(loopbackCall .closed, result)] S := by
    refine GuardedRun.start.next ?_ hstep
    intro hexternal
    cases hexternal
  have htaken : S.kernel.networkCapState ≠ .taken := by
    rw [hstate]
    decide
  exact ⟨_, S, hrun, hconnected,
    external_waits_for_network_cap _ _ _ _ S _
      TlsSystem.provisioned_afterSelfCheck hrun htaken⟩

/-- A single call right after the self check connects two slots with the
external profile while the network capability is still provisioned. -/
theorem external_connects_without_network_cap :
    TlsSystem.provisioned.AfterSelfCheck ∧
      ∃ history S,
        Run (TlsSystem.step .constant .inert BusInstance.returning)
            .provisioned history S ∧
          S.kernel.networkCapState = .provisioned ∧
          ∃ i c, S.pool i = some c ∧ c.profile = .external ∧
            c.state = .connected := by
  obtain ⟨result, S, hstep, hstate, hconnected⟩ :=
    loopbackCall_connects .external
  have hstart : Run (TlsSystem.step .constant .inert BusInstance.returning)
      .provisioned [] .provisioned := .start
  exact ⟨TlsSystem.provisioned_afterSelfCheck, _, S, hstart.next hstep,
    hstate, TlsPool.exists_of_connectedWith hconnected⟩

end IsoLightK0
