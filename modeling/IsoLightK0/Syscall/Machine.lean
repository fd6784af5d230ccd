import IsoLightK0.Registry.Dispatch
import IsoLightK0.Support.Triples

/-!
# System call handlers as programs

A handler runs over the kernel and the user memory of the caller.  It returns
a register value, exits with an error code, or gets stuck in a kernel function
that does not return.  Every copy between kernel and user memory is recorded
in a trace, latest event first, and so is every user range that the two-ended
address check rejects.

The source opens a `stac`/`clac` window around each copy and wipes its stack
buffers before returning; neither is observable here.
-/

namespace IsoLightK0

open Bytes Triples

inductive UserEvent
  | rejected (ptr len : BitVec 64)
  | read (ptr : BitVec 64) (len : ℕ)
  | write (ptr : BitVec 64) (len : ℕ)
  deriving DecidableEq

structure Machine where
  kernel : Kernel
  user : Mem
  trace : List UserEvent

/-- The ways out of a handler other than a register value. -/
inductive Stop
  | error (e : SyscallError)
  | stuck
  deriving DecidableEq

abbrev Handler := Prog Machine Stop

namespace Handler

def fail {α : Type} (e : SyscallError) : Handler α := throw (.error e)

def failIf (c : Prop) [Decidable c] (e : SyscallError) : Handler Unit :=
  Prog.exitIf c (.error e)

/-- The two-ended address check on a user range. -/
def guardRange (ptr len : BitVec 64) (e : SyscallError) : Handler Unit := do
  if userRangeOk ptr len then
    pure ()
  else
    modify fun m => { m with trace := .rejected ptr len :: m.trace }
    fail e

/-- `copy_nonoverlapping` from user memory. -/
def copyIn (ptr : BitVec 64) (len : ℕ) : Handler (List Byte) := do
  let m ← get
  set { m with trace := .read ptr len :: m.trace }
  pure (m.user.read ptr.toNat len)

/-- `copy_nonoverlapping` to user memory. -/
def copyOut (ptr : BitVec 64) (bytes : List Byte) : Handler Unit :=
  modify fun m =>
    { m with
      user := m.user.write ptr.toNat bytes
      trace := .write ptr bytes.length :: m.trace }

def viewKernel {α : Type} (f : Kernel → α) : Handler α := do
  let m ← get
  pure (f m.kernel)

def updateKernel (f : Kernel → Kernel) : Handler Unit :=
  modify fun m => { m with kernel := f m.kernel }

/-- A kernel function that may not return. -/
def callKernel {α : Type} (f : Kernel → Option (α × Kernel)) : Handler α := do
  let m ← get
  match f m.kernel with
  | none => throw .stuck
  | some (a, K) =>
    set { m with kernel := K }
    pure a

/-- What the handler leaves in the return register, if it returns. -/
def rax : Except Stop (BitVec 64) → Option (BitVec 64)
  | .ok value => some value
  | .error (.error e) => some e.asRax
  | .error .stuck => none

/-- One system call on the kernel and the user memory it finds: the return
register, the user memory it leaves and the kernel; `none` when it does not
return. -/
def syscall (h : Handler (BitVec 64)) (K : Kernel) (user : Mem) :
    Option ((BitVec 64 × Mem) × Kernel) :=
  let out := h.eval ⟨K, user, []⟩
  (rax out.1).map fun value => ((value, out.2.user), out.2.kernel)

/-! ## Outcomes of the primitive steps -/

section Eval

variable {α : Type} (m : Machine) {ptr len : BitVec 64} (e : SyscallError)
  (f : Unit → Handler α)

theorem eval_guardRange_of_ok (h : userRangeOk ptr len = true) :
    (guardRange ptr len e).eval m = (.ok (), m) := by
  simp only [guardRange, h, if_true]
  rfl

theorem eval_guardRange_of_rejected (h : userRangeOk ptr len = false) :
    (guardRange ptr len e).eval m =
      (.error (.error e),
        { m with trace := .rejected ptr len :: m.trace }) := by
  simp only [guardRange, h, Bool.false_eq_true, if_false]
  rfl

theorem eval_copyIn (ptr : BitVec 64) (len : ℕ) :
    (copyIn ptr len).eval m =
      (.ok (m.user.read ptr.toNat len),
        { m with trace := .read ptr len :: m.trace }) := rfl

theorem eval_copyOut (ptr : BitVec 64) (bytes : List Byte) :
    (copyOut ptr bytes).eval m =
      (.ok (),
        { m with
          user := m.user.write ptr.toNat bytes
          trace := .write ptr bytes.length :: m.trace }) := rfl

theorem eval_viewKernel (f : Kernel → α) :
    (viewKernel f).eval m = (.ok (f m.kernel), m) := rfl

theorem eval_updateKernel (f : Kernel → Kernel) :
    (updateKernel f).eval m =
      (.ok (), { m with kernel := f m.kernel }) := rfl

theorem eval_callKernel (f : Kernel → Option (α × Kernel)) :
    (callKernel f).eval m =
      match f m.kernel with
      | none => (.error .stuck, m)
      | some (a, K) => (.ok a, { m with kernel := K }) := by
  unfold callKernel
  rw [Prog.eval_bind]
  show (match f m.kernel with
    | none => throw .stuck
    | some (a, K) => do
        set { m with kernel := K }
        pure a : Handler α).eval m = _
  cases f m.kernel with
  | none => rfl
  | some result => rfl

theorem eval_failIf_bind_of_not {c : Prop} [Decidable c] (h : ¬ c) :
    (failIf c e >>= f).eval m = (f ()).eval m := by
  rw [failIf, Prog.eval_exitIf_bind, if_neg h]

theorem eval_failIf_bind_of {c : Prop} [Decidable c] (h : c) :
    (failIf c e >>= f).eval m = (.error (.error e), m) := by
  rw [failIf, Prog.eval_exitIf_bind, if_pos h]

theorem eval_guardRange_bind_of_ok (h : userRangeOk ptr len = true) :
    (guardRange ptr len e >>= f).eval m = (f ()).eval m := by
  rw [Prog.eval_bind, eval_guardRange_of_ok m e h]

theorem eval_copyIn_bind (ptr : BitVec 64) (len : ℕ)
    (f : List Byte → Handler α) :
    (copyIn ptr len >>= f).eval m =
      (f (m.user.read ptr.toNat len)).eval
        { m with trace := .read ptr len :: m.trace } := by
  rw [Prog.eval_bind, eval_copyIn]

theorem eval_viewKernel_bind {β : Type} (g : Kernel → β) (f : β → Handler α) :
    (viewKernel g >>= f).eval m = (f (g m.kernel)).eval m := by
  rw [Prog.eval_bind, eval_viewKernel]

theorem eval_callKernel_bind_of {β : Type} {g : Kernel → Option (β × Kernel)}
    {b : β} {K : Kernel} (f : β → Handler α) (h : g m.kernel = some (b, K)) :
    (callKernel g >>= f).eval m = (f b).eval { m with kernel := K } := by
  rw [Prog.eval_bind, eval_callKernel, h]

end Eval

/-- Kernel and user memory are those the call started with. -/
def Quiet (start m : Machine) : Prop :=
  m.kernel = start.kernel ∧ m.user = start.user

section Quiet

variable {α β : Type} {start : Machine} {Q : α → Machine → Prop}
  {R : Stop → Machine → Prop}

theorem quiet_failIf_bind {c : Prop} [Decidable c] {e : SyscallError}
    {f : Unit → Handler α} (hexit : c → ∀ m, Quiet start m → R (.error e) m)
    (hrest : ¬ c → Triple (Quiet start) (f ()) Q R) :
    Triple (Quiet start) (failIf c e >>= f) Q R :=
  Triple.exitIf_bind hexit hrest

theorem quiet_guardRange_bind {ptr len : BitVec 64} {e : SyscallError}
    {f : Unit → Handler α}
    (hexit : userRangeOk ptr len = false →
      ∀ m, Quiet start m → R (.error e) m)
    (hrest : userRangeOk ptr len = true → Triple (Quiet start) (f ()) Q R) :
    Triple (Quiet start) (guardRange ptr len e >>= f) Q R := by
  intro m hm
  rw [Prog.eval_bind]
  cases hok : userRangeOk ptr len with
  | true =>
    rw [eval_guardRange_of_ok m e hok]
    exact hrest hok m hm
  | false =>
    rw [eval_guardRange_of_rejected m e hok]
    refine ⟨fun _ _ h => (nomatch h), ?_⟩
    rintro _ _ ⟨⟩
    exact hexit hok _ hm

theorem quiet_copyIn_bind {ptr : BitVec 64} {len : ℕ}
    {f : List Byte → Handler α}
    (hrest : Triple (Quiet start) (f (start.user.read ptr.toNat len)) Q R) :
    Triple (Quiet start) (copyIn ptr len >>= f) Q R := by
  intro m hm
  rw [Prog.eval_bind, eval_copyIn, hm.2]
  exact hrest _ ⟨hm.1, rfl⟩

theorem quiet_viewKernel_bind {g : Kernel → β} {f : β → Handler α}
    (hrest : Triple (Quiet start) (f (g start.kernel)) Q R) :
    Triple (Quiet start) (viewKernel g >>= f) Q R := by
  intro m hm
  rw [Prog.eval_bind, eval_viewKernel, hm.1]
  exact hrest m hm

theorem quiet_callKernel_bind {g : Kernel → Option (β × Kernel)}
    {f : β → Handler α}
    (hstuck : g start.kernel = none → ∀ m, Quiet start m → R .stuck m)
    (hrest : ∀ b K, g start.kernel = some (b, K) →
      Triple (fun m => m.kernel = K) (f b) Q R) :
    Triple (Quiet start) (callKernel g >>= f) Q R := by
  intro m hm
  rw [Prog.eval_bind, eval_callKernel, hm.1]
  cases hcall : g start.kernel with
  | none =>
    refine ⟨fun _ _ h => (nomatch h), ?_⟩
    rintro _ _ ⟨⟩
    exact hstuck hcall m hm
  | some result => exact hrest result.1 result.2 hcall _ rfl

end Quiet

end Handler

end IsoLightK0
