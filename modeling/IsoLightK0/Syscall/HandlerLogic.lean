import IsoLightK0.Registry.AuditBlind
import IsoLightK0.Syscall.AirGapRun

/-!
# Properties of handlers, step by step

The handlers are built of few steps.  A property of programs that holds of
these steps and of their compositions holds of every handler.  The two uses
are invariants of the kernel and pairs of runs that differ in the audit ring.
-/

namespace IsoLightK0

open Bytes Triples Handler

/-- A property that composes and holds of the steps of the handlers, except
for writes, relays and reads of the audit ring. -/
structure HandlerLogic (C : Crates) (destroy : BusInstance.Destructor)
    (Φ : (α : Type) → Handler α → Prop) : Prop where
  pure : ∀ {α : Type} (a : α), Φ α (Pure.pure a)
  throw : ∀ {α : Type} (stop : Stop), Φ α (MonadExcept.throw stop)
  bind : ∀ {α β : Type} {x : Handler α} {f : α → Handler β},
    Φ α x → (∀ a, Φ β (f a)) → Φ β (x >>= f)
  guardRange : ∀ ptr len e, Φ Unit (guardRange ptr len e)
  copyIn : ∀ ptr len, Φ (List Byte) (copyIn ptr len)
  copyOut : ∀ ptr bytes, Φ Unit (copyOut ptr bytes)
  view : ∀ {α : Type} {g : Kernel → α},
    (∀ K ring, g (K.withRing ring) = g K) → Φ α (viewKernel g)
  audit : ∀ slotIdx result busKind pkPrefix,
    Φ Unit (updateKernel fun K => K.audit slotIdx result busKind pkPrefix)
  taken : ∀ cap : GapCap, Φ Unit (updateKernel cap.shot.setTaken)
  attach : ∀ busKind init payload, Φ _ (callKernel fun K =>
    K.attach C destroy busKind init (some payload) fullRights)
  detach : ∀ cap,
    Φ _ (callKernel fun K => K.detach destroy cap HsmRights.revoke)
  read : ∀ i outLen, Φ _ (callKernel fun K => some (K.busRead i outLen))
  random : ∀ n, Φ _ (callKernel fun K => K.randBytes n)

namespace HandlerLogic

variable {C : Crates} {destroy : BusInstance.Destructor}
  {Φ : (α : Type) → Handler α → Prop} (L : HandlerLogic C destroy Φ)

include L

section Steps

variable {α : Type} {c : Prop} [Decidable c]

omit L in
theorem ite {x y : Handler α} (hx : Φ α x) (hy : Φ α y) :
    Φ α (if c then x else y) := by
  split
  · exact hx
  · exact hy

theorem failIf (e : SyscallError) : Φ Unit (failIf c e) :=
  ite (L.throw _) (L.pure ())

theorem denyIf (slotIdx result busKind : Byte) :
    Φ Unit (denyIf c slotIdx result busKind) :=
  ite (L.bind (L.audit _ _ _ _) fun _ => L.throw _) (L.pure ())

theorem copyCapability (ptr : BitVec 64) :
    Φ HsmCapability (copyCapability ptr) :=
  L.bind (L.copyIn _ _) fun _ => L.pure _

end Steps

theorem attachBusKind (tlsExternal : Bool) (raw : BitVec 64) :
    Φ BusKind (attachBusKind tlsExternal raw) := by
  refine ite (L.pure _) ?_
  refine ite (L.pure _) ?_
  refine ite ?_ (L.throw _)
  refine L.bind (L.view fun _ _ => rfl) fun _ => ?_
  exact L.bind (L.denyIf _ _ _) fun _ => L.pure _

theorem finishAttach (busKind : BusKind) (pkPrefix : Buf 4)
    (outPtr : BitVec 64) (result : Except HsmCapError HsmCapability) :
    Φ (BitVec 64) (finishAttach busKind pkPrefix outPtr result) := by
  unfold IsoLightK0.finishAttach
  split
  · refine L.bind (L.audit _ _ _ _) fun _ => ?_
    exact L.bind (L.copyOut _ _) fun _ => L.pure _
  · exact L.bind (L.audit _ _ _ _) fun _ => L.throw _
  · exact L.throw _
  · exact L.throw _
  · exact L.throw _

theorem handleAttach (tlsExternal : Bool) (ctx : SyscallContext) :
    Φ (BitVec 64) (handleAttach tlsExternal C destroy ctx) := by
  refine L.bind (L.attachBusKind _ _) fun busKind => ?_
  refine L.bind (L.failIf _) fun _ => ?_
  refine L.bind (L.failIf _) fun _ => ?_
  refine L.bind (ite (L.guardRange _ _ _) (L.pure ())) fun _ => ?_
  refine L.bind (L.guardRange _ _ _) fun _ => ?_
  refine L.bind (L.guardRange _ _ _) fun _ => ?_
  refine L.bind (ite (L.copyIn _ _) (L.pure [])) fun init => ?_
  refine L.bind (L.copyIn _ _) fun payload => ?_
  exact L.bind (L.attach _ _ _) fun result => L.finishAttach _ _ _ _

variable (ctx : SyscallContext)

theorem handleDetach : Φ (BitVec 64) (handleDetach destroy ctx) := by
  refine L.bind (L.failIf _) fun _ => ?_
  refine L.bind (L.guardRange _ _ _) fun _ => ?_
  refine L.bind (L.copyCapability _) fun cap => ?_
  refine L.bind (L.detach _) fun result => ?_
  split
  · exact L.pure _
  all_goals exact L.throw _

theorem handleEnumerate : Φ (BitVec 64) (handleEnumerate ctx) := by
  refine L.bind (L.guardRange _ _ _) fun _ => ?_
  refine L.bind (L.copyCapability _) fun cap => ?_
  refine L.bind (L.view fun _ _ => rfl) fun _ => ?_
  refine L.bind (L.failIf _) fun _ => ?_
  refine L.bind (L.failIf _) fun _ => ?_
  refine L.bind (L.guardRange _ _ _) fun _ => ?_
  refine L.bind (L.view fun _ _ => rfl) fun _ => ?_
  exact L.bind (L.copyOut _ _) fun _ => L.pure _

theorem handleRead : Φ (BitVec 64) (handleRead ctx) := by
  refine L.bind (L.failIf _) fun _ => ?_
  refine L.bind (L.guardRange _ _ _) fun _ => ?_
  refine L.bind (L.guardRange _ _ _) fun _ => ?_
  refine L.bind (L.copyCapability _) fun cap => ?_
  refine L.bind (L.view fun _ _ => rfl) fun _ => ?_
  refine L.bind (L.failIf _) fun _ => ?_
  split
  · exact L.throw _
  · refine L.bind (L.read _ _) fun result => ?_
    split
    · exact L.throw _
    · exact L.bind (L.copyOut _ _) fun _ => L.pure _

theorem takeCap (cap : GapCap) : Φ (BitVec 64) (takeCap cap.shot ctx) := by
  have hstate : ∀ K ring, cap.shot.state (K.withRing ring) =
      cap.shot.state K := by
    cases cap <;> exact fun _ _ => rfl
  have hcap : ∀ K ring, cap.shot.cap (K.withRing ring) = cap.shot.cap K := by
    cases cap <;> exact fun _ _ => rfl
  refine L.bind (L.guardRange _ _ _) fun _ => ?_
  refine L.bind (L.view hstate) fun _ => ?_
  refine L.bind (L.denyIf _ _ _) fun _ => ?_
  refine L.bind (L.view hcap) fun _ => ?_
  refine L.bind (L.copyOut _ _) fun _ => ?_
  refine L.bind (L.taken cap) fun _ => ?_
  exact L.bind (L.audit _ _ _ _) fun _ => L.pure _

theorem sysWriteLoop (src : BitVec 64) (remaining : ℕ) :
    Φ Unit (sysWriteLoop src remaining) := by
  induction remaining using Nat.strong_induction_on generalizing src with
  | _ remaining ih =>
    unfold IsoLightK0.sysWriteLoop
    split
    · exact L.pure ()
    · exact L.bind (L.copyIn _ _) fun _ => ih _ (by omega) _

theorem sysWrite (fd bufPtr len : BitVec 64) :
    Φ (BitVec 64) (sysWrite fd bufPtr len) := by
  refine L.bind (L.failIf _) fun _ => ?_
  refine L.bind (L.failIf _) fun _ => ?_
  refine L.bind (L.guardRange _ _ _) fun _ => ?_
  exact L.bind (L.sysWriteLoop _ _) fun _ => L.pure _

theorem sysGetrandomLoop (dst : BitVec 64) (remaining : ℕ) :
    Φ Unit (sysGetrandomLoop dst remaining) := by
  induction remaining using Nat.strong_induction_on generalizing dst with
  | _ remaining ih =>
    unfold IsoLightK0.sysGetrandomLoop
    split
    · exact L.pure ()
    · refine L.bind (L.random _) fun result => ?_
      split
      · exact L.throw _
      · exact L.bind (L.copyOut _ _) fun _ => ih _ (by omega) _

theorem sysGetrandom (bufPtr len : BitVec 64) :
    Φ (BitVec 64) (sysGetrandom bufPtr len) := by
  refine L.bind (L.failIf _) fun _ => ?_
  refine L.bind (L.guardRange _ _ _) fun _ => ?_
  exact L.bind (L.sysGetrandomLoop _ _) fun _ => L.pure _

end HandlerLogic

end IsoLightK0
