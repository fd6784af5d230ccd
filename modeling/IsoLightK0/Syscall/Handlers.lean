import IsoLightK0.Registry.Attach
import IsoLightK0.Syscall.Machine

/-!
# The handlers of the registry

Each handler takes its arguments from the register snapshot, checks lengths
and user ranges, copies the capabilities in, and only then enters the
registry.  The order of these steps is the order of the source.
-/

namespace IsoLightK0

open Bytes Triples Handler

def chanMax : ℕ := 4096

def maxBusInitBlob : ℕ := 32

/-- `size_of::<HsmCapability>()`. -/
def capSize : BitVec 64 := 16

/-- `ATTEST_EXACT`: a public key and a signature. -/
def attestExact : ℕ := pkLen + sigLen

/-- The rights that `handle_attach` requests for every slot. -/
def fullRights : HsmRights :=
  HsmRights.use ||| HsmRights.enumerate ||| HsmRights.revoke |||
    HsmRights.relaySrc ||| HsmRights.relayDst

/-- Read the 16 octets of a capability. -/
def copyCapability (ptr : BitVec 64) : Handler HsmCapability := do
  let bytes ← copyIn ptr 16
  pure (HsmCapability.ofBytes bytes)

theorem eval_copyCapability_bind {α : Type} (m : Machine) (ptr : BitVec 64)
    (f : HsmCapability → Handler α) :
    (copyCapability ptr >>= f).eval m =
      (f (HsmCapability.ofBytes (m.user.read ptr.toNat 16))).eval
        { m with trace := .read ptr 16 :: m.trace } := by
  rw [copyCapability, bind_assoc, eval_copyIn_bind, pure_bind]

theorem quiet_copyCapability_bind {α : Type} {start : Machine}
    {Q : α → Machine → Prop} {R : Stop → Machine → Prop} {ptr : BitVec 64}
    {f : HsmCapability → Handler α}
    (hrest : Triple (Quiet start)
      (f (HsmCapability.ofBytes (start.user.read ptr.toNat 16))) Q R) :
    Triple (Quiet start) (copyCapability ptr >>= f) Q R := by
  unfold copyCapability
  rw [bind_assoc]
  refine quiet_copyIn_bind ?_
  rw [pure_bind]
  exact hrest

/-- Record an event and refuse when the condition holds. -/
def denyIf (c : Prop) [Decidable c] (slotIdx result busKind : Byte) :
    Handler Unit :=
  if c then do
    updateKernel fun K => K.audit slotIdx result busKind Buf.zero
    fail .denied
  else
    pure ()

/-- The bus kind of an attach request.  A network bus needs the external
build and its capability to have been taken. -/
def attachBusKind (tlsExternal : Bool) (raw : BitVec 64) :
    Handler BusKind :=
  if raw = 0 then
    pure .software
  else if raw = 1 then
    pure .ring3Process
  else if raw = 6 then do
    let state ← viewKernel Kernel.networkCapState
    denyIf (¬ (tlsExternal = true ∧ state = .taken)) 0xFF 2 6
    pure .network
  else
    fail .badArg

/-- The range check of the init blob, left out when the blob is empty. -/
def guardInit (initPtr initLen : BitVec 64) : Handler Unit :=
  if initLen.toNat > 0 then guardRange initPtr initLen .badAddress
  else pure ()

def copyInit (initPtr initLen : BitVec 64) : Handler (List Byte) :=
  if initLen.toNat > 0 then copyIn initPtr initLen.toNat else pure []

/-- The second half of `handle_attach`: record the outcome and hand out the
capability. -/
def finishAttach (busKind : BusKind) (pkPrefix : Buf 4) (outPtr : BitVec 64)
    (result : Except HsmCapError HsmCapability) : Handler (BitVec 64) :=
  match result with
  | .ok cap => do
      updateKernel fun K => K.audit cap.slot 0 busKind.octet pkPrefix
      copyOut outPtr cap.toBytes
      pure 0
  | .error .attestFailed => do
      updateKernel fun K => K.audit 0xFF 1 busKind.octet pkPrefix
      fail .denied
  | .error .full => fail .badArg
  | .error .badInit => fail .badArg
  | .error _ => fail .internal

def handleAttach (tlsExternal : Bool) (C : Crates)
    (destroy : BusInstance.Destructor) (ctx : SyscallContext) :
    Handler (BitVec 64) := do
  let initPtr := ctx.arg1
  let initLen := ctx.arg2
  let outPtr := ctx.arg4
  let attestPtr := ctx.arg3
  let attestLen := ctx.arg5
  let busKind ← attachBusKind tlsExternal ctx.arg0
  failIf (initLen.toNat > maxBusInitBlob) .badArg
  failIf (attestLen.toNat ≠ attestExact) .badArg
  guardInit initPtr initLen
  guardRange outPtr capSize .badAddress
  guardRange attestPtr attestLen .badAddress
  let init ← copyInit initPtr initLen
  let payload ← copyIn attestPtr attestLen.toNat
  let pkPrefix := pkHashPrefix C (Kernel.attestPk payload)
  let result ← callKernel fun K =>
    K.attach C destroy busKind init (some payload) fullRights
  finishAttach busKind pkPrefix outPtr result

def handleDetach (destroy : BusInstance.Destructor) (ctx : SyscallContext) :
    Handler (BitVec 64) := do
  let inPtr := ctx.arg0
  let userCapSize := ctx.arg2
  failIf (userCapSize ≠ capSize) .badArg
  guardRange inPtr userCapSize .badAddress
  let cap ← copyCapability inPtr
  let result ← callKernel fun K => K.detach destroy cap HsmRights.revoke
  match result with
  | .ok () => pure 0
  | .error .invalidToken => fail .denied
  | .error .invalidSlot => fail .denied
  | .error .notAttached => fail .denied
  | .error .busy => fail .denied
  | .error .rightsMissing => fail .denied
  | .error _ => fail .internal

/-- `handle_enumerate`: the output range is checked only after the capability
has been read and accepted. -/
def handleEnumerate (ctx : SyscallContext) : Handler (BitVec 64) := do
  let capPtr := ctx.arg0
  let outPtr := ctx.arg1
  let count := ctx.arg2
  guardRange capPtr capSize .badAddress
  let cap ← copyCapability capPtr
  let authOk ← viewKernel fun K =>
    K.registry.authenticate cap HsmRights.enumerate
  failIf (authOk = false) .denied
  failIf (count.toNat > hsmMaxSlots) .badArg
  guardRange outPtr (saturatingMul count 8) .badAddress
  let infos ← viewKernel fun K =>
    K.registry.enumerate (min count.toNat hsmMaxSlots)
  copyOut outPtr (infos.flatMap HsmSlotInfo.toBytes)
  pure (BitVec.ofNat 64 infos.length)

def handleWrite (C : Crates) (ctx : SyscallContext) :
    Handler (BitVec 64) := do
  let capPtr := ctx.arg0
  let dataPtr := ctx.arg1
  let dataLen := ctx.arg2
  failIf (¬ (CtLess dataLen.toNat (chanMax + 1) ∧ ¬ CtEq dataLen.toNat 0))
    .badArg
  guardRange capPtr capSize .badAddress
  guardRange dataPtr dataLen .badAddress
  let cap ← copyCapability capPtr
  let authOk ← viewKernel fun K => K.registry.authenticate cap HsmRights.use
  failIf (authOk = false) .denied
  let data ← copyIn dataPtr dataLen.toNat
  match HsmRegistry.slotIdx? cap.slot.toNat with
  | none => fail .internal
  | some i =>
    match ← callKernel fun K => K.busWrite C i data with
    | .ok _ => pure 0
    | .error _ => fail .internal

def handleRelay (C : Crates) (ctx : SyscallContext) :
    Handler (BitVec 64) := do
  let srcCapPtr := ctx.arg0
  let dstCapPtr := ctx.arg1
  let byteLen := ctx.arg2
  failIf (¬ (CtLess byteLen.toNat (chanMax + 1) ∧ ¬ CtEq byteLen.toNat 0))
    .badArg
  guardRange srcCapPtr capSize .badAddress
  guardRange dstCapPtr capSize .badAddress
  let srcCap ← copyCapability srcCapPtr
  let dstCap ← copyCapability dstCapPtr
  let srcOk ← viewKernel fun K =>
    K.registry.authenticate srcCap HsmRights.relaySrc
  let dstOk ← viewKernel fun K =>
    K.registry.authenticate dstCap HsmRights.relayDst
  failIf ((srcOk && dstOk) = false) .denied
  match ← callKernel fun K =>
      K.relayTransfer C srcCap.slot.toNat dstCap.slot.toNat byteLen.toNat with
  | .ok () => pure 0
  | .error _ => fail .internal

def handleRead (ctx : SyscallContext) : Handler (BitVec 64) := do
  let capPtr := ctx.arg0
  let outPtr := ctx.arg1
  let outLen := ctx.arg2
  failIf (¬ (outLen.toNat < wireFrameMax + 1 ∧ 15 < outLen.toNat)) .badArg
  guardRange capPtr capSize .badAddress
  guardRange outPtr outLen .badAddress
  let cap ← copyCapability capPtr
  let authOk ← viewKernel fun K => K.registry.authenticate cap HsmRights.use
  failIf (authOk = false) .denied
  match HsmRegistry.slotIdx? cap.slot.toNat with
  | none => fail .internal
  | some i =>
    match ← callKernel fun K => some (K.busRead i outLen.toNat) with
    | .error _ => fail .internal
    | .ok bytes =>
      copyOut outPtr bytes
      pure (BitVec.ofNat 64 bytes.length)

end IsoLightK0
