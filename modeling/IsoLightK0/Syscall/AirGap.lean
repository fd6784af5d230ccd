import IsoLightK0.Syscall.Handlers

/-!
# The air-gap handlers and the dispatcher

The two one-shot capabilities, the status report that the audit capability
opens, the console and random calls, and the dispatch by call number.

`take_network_cap` and `take_audit_read_cap` are one program over the
capability they hand out.
-/

namespace IsoLightK0

open Bytes Triples Handler

/-- A one-shot capability: its value, its state and the octets under which
its use is recorded. -/
structure OneShot where
  cap : Kernel → HsmCapability
  state : Kernel → NetCapState
  setTaken : Kernel → Kernel
  slotIdx : Byte
  busKind : BusKind

def OneShot.network : OneShot where
  cap := Kernel.networkAttachCap
  state := Kernel.networkCapState
  setTaken := fun K => { K with networkCapState := .taken }
  slotIdx := 0xFE
  busKind := .network

def OneShot.auditRead : OneShot where
  cap := Kernel.auditReadCap
  state := Kernel.auditCapState
  setTaken := fun K => { K with auditCapState := .taken }
  slotIdx := 0xFD
  busKind := .software

/-- The body of both take handlers; a bad address is reported as `Denied`. -/
def takeCap (shot : OneShot) (ctx : SyscallContext) :
    Handler (BitVec 64) := do
  let outPtr := ctx.arg0
  guardRange outPtr capSize .denied
  let currentState ← viewKernel shot.state
  denyIf (currentState ≠ .provisioned) shot.slotIdx 2 shot.busKind.octet
  let stagingCap ← viewKernel shot.cap
  copyOut outPtr stagingCap.toBytes
  updateKernel shot.setTaken
  updateKernel fun K => K.audit shot.slotIdx 3 shot.busKind.octet Buf.zero
  pure 0

def takeNetworkCap : SyscallContext → Handler (BitVec 64) :=
  takeCap .network

def takeAuditReadCap : SyscallContext → Handler (BitVec 64) :=
  takeCap .auditRead

def gapStatusLen : ℕ := 456

/-- The 8 octets of a `StatusEntry`, from the octets of a slot info. -/
def statusEntry (info : HsmSlotInfo) : List Byte :=
  [info.slot, info.reserved 0, info.reserved 1, 0] ++ info.reserved.slice 2 4

/-- The 8 slot infos that `handle_status` serializes. -/
def statusInfos (r : HsmRegistry) : List HsmSlotInfo :=
  let infos := r.enumerate 8
  infos ++ List.replicate (8 - infos.length) HsmSlotInfo.empty

/-- The staging buffer of `handle_status`: header, slot entries, events, and
zeros up to the fixed length. -/
def gapStatus (K : Kernel) : List Byte :=
  let snapshot := auditSnapshot K.auditRing auditRingCapacity
  let header :=
    toLe 2 (K.registry.enumerate 8).length ++ toLe 2 snapshot.1.length ++
      wordToLe 4 snapshot.2
  let entries := (statusInfos K.registry).flatMap statusEntry
  let events := snapshot.1.flatMap EnrollEvent.toBytes
  header ++ entries ++ events ++
    List.replicate (384 - 12 * snapshot.1.length) 0

theorem length_statusInfos (r : HsmRegistry) :
    (statusInfos r).length = 8 := by
  have hle : (r.enumerate 8).length ≤ 8 := r.length_enumerate_le 8
  unfold statusInfos
  rw [List.length_append, List.length_replicate]
  omega

theorem length_gapStatus (K : Kernel) :
    (gapStatus K).length = gapStatusLen := by
  have hle : (auditSnapshot K.auditRing auditRingCapacity).1.length ≤ 32 :=
    length_auditSnapshot_le K.auditRing auditRingCapacity
  have hentries : ((statusInfos K.registry).flatMap statusEntry).length =
      (statusInfos K.registry).length * 8 := by
    simp [List.length_flatMap, statusEntry]
  have hevents : ((auditSnapshot K.auditRing auditRingCapacity).1.flatMap
      EnrollEvent.toBytes).length =
        (auditSnapshot K.auditRing auditRingCapacity).1.length * 12 := by
    simp [List.length_flatMap]
  simp only [gapStatus, List.length_append, hentries, hevents,
    length_statusInfos, length_toLe, length_wordToLe, List.length_replicate]
  unfold gapStatusLen
  omega

def handleStatus (ctx : SyscallContext) : Handler (BitVec 64) := do
  let outPtr := ctx.arg0
  let outLen := ctx.arg1
  let callerCapToken := ctx.arg2
  failIf (outLen.toNat < gapStatusLen) .denied
  let stored ← viewKernel Kernel.auditReadCap
  denyIf (¬ CtEq stored.token callerCapToken) 0xFF 2 BusKind.software.octet
  guardRange outPtr outLen .badAddress
  let staging ← viewKernel gapStatus
  copyOut outPtr staging
  pure 0

/-- The copy loop of `sys_write`, 256 octets at a time.  What is printed goes
to the screen in debug builds only. -/
def sysWriteLoop (src : BitVec 64) (remaining : ℕ) : Handler Unit :=
  if _h : remaining = 0 then
    pure ()
  else do
    let chunk := min remaining 256
    let _ ← copyIn src chunk
    sysWriteLoop (src + BitVec.ofNat 64 chunk) (remaining - chunk)
termination_by remaining
decreasing_by omega

def sysWrite (fd bufPtr len : BitVec 64) : Handler (BitVec 64) := do
  failIf (fd ≠ 2) .badArg
  failIf (len.toNat > 8 * 1024) .badArg
  guardRange bufPtr len .badAddress
  sysWriteLoop bufPtr len.toNat
  pure len

/-- `rand_bytes` on the DRBG of the kernel. -/
def Kernel.randBytes (K : Kernel) (n : ℕ) :
    Option (Except CapError (Buf n) × Kernel) :=
  (IsoLightK0.randBytes n K.capDrbg).map fun (result, drbg) =>
    (result, K.setDrbg drbg)

/-- The fill loop of `sys_getrandom`, 256 octets at a time. -/
def sysGetrandomLoop (dst : BitVec 64) (remaining : ℕ) : Handler Unit :=
  if _h : remaining = 0 then
    pure ()
  else do
    let chunk := min remaining 256
    match ← callKernel fun K => K.randBytes chunk with
    | .error _ => fail .internal
    | .ok tmp =>
      copyOut dst tmp.toList
      sysGetrandomLoop (dst + BitVec.ofNat 64 chunk) (remaining - chunk)
termination_by remaining
decreasing_by omega

def sysGetrandom (bufPtr len : BitVec 64) : Handler (BitVec 64) := do
  failIf (len.toNat = 0 ∨ len.toNat > 4096) .badArg
  guardRange bufPtr len .badAddress
  sysGetrandomLoop bufPtr len.toNat
  pure len

/-- The dispatcher of the x86_64 entry, by call number.  `sys_exit` halts the
processor, and the interprocess calls are not wired up. -/
def dispatch (tlsExternal : Bool) (C : Crates)
    (destroy : BusInstance.Destructor) (ctx : SyscallContext) :
    Handler (BitVec 64) :=
  if ctx.num = 0 then throw .stuck
  else if ctx.num = 1 then sysWrite ctx.arg0 ctx.arg1 ctx.arg2
  else if ctx.num = 5 then sysGetrandom ctx.arg0 ctx.arg1
  else if ctx.num = 7 then handleAttach tlsExternal C destroy ctx
  else if ctx.num = 8 then handleDetach destroy ctx
  else if ctx.num = 9 then handleEnumerate ctx
  else if ctx.num = 10 then handleWrite C ctx
  else if ctx.num = 11 then handleRelay C ctx
  else if ctx.num = 12 then handleRead ctx
  else if tlsExternal = true ∧ ctx.num = 14 then takeNetworkCap ctx
  else if ctx.num = 15 then takeAuditReadCap ctx
  else if ctx.num = 16 then handleStatus ctx
  else fail .unknown

end IsoLightK0
