import IsoLightK0.Process.Elf

/-!
# Building processes

`spawn_flat` and `spawn_elf` make a new address space, which inherits the upper
half of the kernel's and maps the boot stack at its own address, load the
program into it, map a stack and fill a process slot.

`process.rs` is written once and compiled for each architecture against its
memory management.  Here the latter is a parameter.
-/

namespace IsoLightK0

open Bytes Triples

def pageVa (base : BitVec 64) (i : ℕ) : BitVec 64 :=
  base + BitVec.ofNat 64 (i * pageSize)

theorem pageOffset_lt (va : BitVec 64) : (va &&& 0xFFF#64).toNat < pageSize := by
  have hle : (va &&& 0xFFF#64).toNat ≤ 0xFFF := by
    rw [BitVec.toNat_and]
    exact Nat.and_le_right
  unfold pageSize
  omega

def defaultUserEntry : BitVec 64 := 0x0000_0000_0040_0000

def defaultUserStackTop : BitVec 64 := 0x0000_7FFF_FFFF_F000

def defaultUserStackSize : ℕ := 64 * 1024

inductive ProcessState
  | loaded
  | running
  | exited
  deriving DecidableEq, Repr

def maxProcesses : ℕ := 4

/-- A slot number. -/
abbrev ProcessId := Fin maxProcesses

structure Process where
  id : ProcessId
  state : ProcessState
  pml4Phys : ℕ
  entryRip : BitVec 64
  userRsp : BitVec 64
  userStackRange : BitVec 64 × BitVec 64

def findFreeSlot (processes : ProcessId → Option Process) :
    Option ProcessId :=
  (List.finRange maxProcesses).find? fun i => (processes i).isNone

/-- A loaded program: its address space, entry point and stack. -/
structure UserImage where
  pml4Phys : ℕ
  entryRip : BitVec 64
  stackRange : BitVec 64 × BitVec 64

def UserImage.process (image : UserImage) (id : ProcessId) : Process where
  id := id
  state := .loaded
  pml4Phys := image.pml4Phys
  entryRip := image.entryRip
  userRsp := image.stackRange.2 &&& ~~~0xF#64
  userStackRange := image.stackRange

/-- What the code uses of an architecture, over its memory `σ` and with the
errors `δ` of the caller.  Frames are erased when they are taken. -/
structure Platform (σ δ : Type) where
  slotsFull : δ
  badAddress : δ
  elf : ElfError → δ
  allocErased : Prog σ δ ℕ
  inheritKernelMappings : (space kernelSpace : ℕ) → Prog σ δ Unit
  stackFlags : PageTableFlags
  mapPage : (space : ℕ) → (virtAddr physAddr : BitVec 64) →
    PageTableFlags → Prog σ δ Unit
  mapUserPage : (space : ℕ) → (virtAddr physAddr : BitVec 64) → Bool →
    Prog σ δ Unit
  walkToPhys : σ → (space : ℕ) → (va : BitVec 64) → Option (BitVec 64)
  copyToPhys : ℕ → List Byte → Prog σ δ Unit

namespace Platform

variable {σ δ : Type} (P : Platform σ δ)

def mapBootStackIdentity (bottom top : BitVec 64) (space : ℕ) :
    Prog σ δ Unit :=
  let pages := (top - bottom).toNat / pageSize
  Prog.foldRange pages () fun i _ =>
    let va := pageVa bottom i
    P.mapPage space va va P.stackFlags

def allocUserAddressSpace (bottom top : BitVec 64) (kernelSpace : ℕ) :
    Prog σ δ ℕ := do
  let space ← P.allocErased
  P.inheritKernelMappings space kernelSpace
  P.mapBootStackIdentity bottom top space
  pure space

/-- The loop body of `map_user_region`: a new frame for one page. -/
def mapFreshPage (space : ℕ) (va : BitVec 64) (write : Bool) :
    Prog σ δ Unit := do
  let phys ← P.allocErased
  P.mapUserPage space va (BitVec.ofNat 64 phys) write

def mapUserRegion (space : ℕ) (baseVa : BitVec 64) (pages : ℕ)
    (write : Bool) : Prog σ δ Unit := do
  Prog.exitIf (¬ isUserVa baseVa) P.badAddress
  Prog.foldRange pages () fun i _ =>
    P.mapFreshPage space (pageVa baseVa i) write

/-- `walk_to_phys(va).ok_or(BadAddress)`. -/
def physOf (space : ℕ) (va : BitVec 64) : Prog σ δ ℕ := do
  let s ← get
  match P.walkToPhys s space va with
  | none => throw P.badAddress
  | some phys => pure phys.toNat

/-- One round of the copy loop of `load_flat_payload`. -/
def copyPage (space : ℕ) (va : BitVec 64) (payload : List Byte)
    (copied : ℕ) : Prog σ δ ℕ := do
  let phys ← P.physOf space va
  let chunk := min (payload.length - copied) pageSize
  P.copyToPhys phys ((payload.drop copied).take chunk)
  pure (copied + chunk)

def loadFlatPayload (space : ℕ) (baseVa : BitVec 64) (payload : List Byte)
    (write : Bool) : Prog σ δ Unit := do
  Prog.exitIf (¬ isUserVa baseVa) P.badAddress
  let pages := (payload.length + (pageSize - 1)) / pageSize
  Prog.exitIf (pages = 0) P.badAddress
  P.mapUserRegion space baseVa pages write
  let _ ← Prog.foldRange pages 0 fun i copied =>
    P.copyPage space (pageVa baseVa i) payload copied
  pure ()

def mapUserStack (space : ℕ) (top : BitVec 64) (size : ℕ) :
    Prog σ δ (BitVec 64 × BitVec 64) := do
  Prog.exitIf (size = 0 ∨ size % pageSize ≠ 0) P.badAddress
  Prog.exitIf (top.toNat < size) P.badAddress
  let bottom := top - BitVec.ofNat 64 size
  Prog.exitIf (¬ isUserVa bottom) P.badAddress
  P.mapUserRegion space bottom (size / pageSize) true
  pure (bottom, top)

/-- The copy loop of `load_segment`, one page at a time. -/
def copySegment (space : ℕ) (ph : ProgramHeader) (raw : List Byte)
    (copied : ℕ) : Prog σ δ Unit :=
  if _h : copied < ph.pFilesz.toNat then do
    let va := ph.pVaddr + BitVec.ofNat 64 copied
    let phys ← P.physOf space (va &&& ~~~0xFFF#64)
    let pageOff := (va &&& 0xFFF#64).toNat
    let chunk := min (ph.pFilesz.toNat - copied) (pageSize - pageOff)
    P.copyToPhys (phys + pageOff)
      ((raw.drop (ph.pOffset.toNat + copied)).take chunk)
    copySegment space ph raw (copied + chunk)
  else
    pure ()
termination_by ph.pFilesz.toNat - copied
decreasing_by
  have hoff := pageOffset_lt (ph.pVaddr + BitVec.ofNat 64 copied)
  omega

def loadSegment (space : ℕ) (ph : ProgramHeader) (raw : List Byte) :
    Prog σ δ Unit := do
  let vaStart := ph.pVaddr &&& ~~~0xFFF#64
  let vaEnd := (ph.pVaddr + ph.pMemsz + 0xFFF#64) &&& ~~~0xFFF#64
  let pages := (vaEnd - vaStart).toNat / pageSize
  P.mapUserRegion space vaStart pages ph.isWritable
  P.copySegment space ph raw 0

/-- The loop of `spawn_elf` over the segments. -/
def loadSegments (space : ℕ) (raw : List Byte) :
    List ProgramHeader → Prog σ δ Unit
  | [] => pure ()
  | ph :: loads => do
      P.loadSegment space ph raw
      loadSegments space raw loads

/-- Steps 1 to 3 of `spawn_flat`. -/
def buildFlat (bottom top : BitVec 64) (kernelSpace : ℕ)
    (codePayload : List Byte) : Prog σ δ UserImage := do
  let space ← P.allocUserAddressSpace bottom top kernelSpace
  P.loadFlatPayload space defaultUserEntry codePayload false
  let range ← P.mapUserStack space defaultUserStackTop defaultUserStackSize
  pure { pml4Phys := space, entryRip := defaultUserEntry, stackRange := range }

/-- Steps 1 to 3 of `spawn_elf`. -/
def buildElf (bottom top : BitVec 64) (kernelSpace : ℕ)
    (image : Elf64Image) : Prog σ δ UserImage := do
  let space ← P.allocUserAddressSpace bottom top kernelSpace
  P.loadSegments space image.raw image.loads
  let range ← P.mapUserStack space defaultUserStackTop defaultUserStackSize
  pure { pml4Phys := space, entryRip := image.entry, stackRange := range }

end Platform

/-- Physical memory as the architecture has it, and the process slots. -/
structure SystemOver (σ : Type) where
  phys : σ
  processes : ProcessId → Option Process

namespace Platform

variable {σ δ : Type} (P : Platform σ δ)

/-- What both spawn functions have in common: find a slot, build the address
space and fill the slot. -/
def spawnWith (build : Prog σ δ UserImage) (sys : SystemOver σ) :
    Except δ ProcessId × SystemOver σ :=
  match findFreeSlot sys.processes with
  | none => (.error P.slotsFull, sys)
  | some slot =>
    match build.eval sys.phys with
    | (.error e, phys) => (.error e, { sys with phys := phys })
    | (.ok image, phys) =>
      (.ok slot, {
        phys := phys
        processes := fun i =>
          if i = slot then some (image.process slot)
          else sys.processes i })

def spawnFlat (bottom top : BitVec 64) (kernelSpace : ℕ)
    (codePayload : List Byte) (sys : SystemOver σ) :
    Except δ ProcessId × SystemOver σ :=
  P.spawnWith (P.buildFlat bottom top kernelSpace codePayload) sys

def spawnElf (bottom top : BitVec 64) (kernelSpace : ℕ)
    (elfBytes : List Byte) (sys : SystemOver σ) :
    Except δ ProcessId × SystemOver σ :=
  match parse elfBytes with
  | .error e => (.error (P.elf e), sys)
  | .ok image => P.spawnWith (P.buildElf bottom top kernelSpace image) sys

theorem spawnElf_of_error {bottom top : BitVec 64} {kernelSpace : ℕ}
    {elfBytes : List Byte} {sys : SystemOver σ} {e : ElfError}
    (h : parse elfBytes = .error e) :
    P.spawnElf bottom top kernelSpace elfBytes sys =
      (.error (P.elf e), sys) := by
  unfold spawnElf
  rw [h]

theorem spawnElf_of_ok {bottom top : BitVec 64} {kernelSpace : ℕ}
    {elfBytes : List Byte} {sys : SystemOver σ} {image : Elf64Image}
    (h : parse elfBytes = .ok image) :
    P.spawnElf bottom top kernelSpace elfBytes sys =
      P.spawnWith (P.buildElf bottom top kernelSpace image) sys := by
  unfold spawnElf
  rw [h]

/-! ## What loading keeps -/

/-- The operations that load a program keep `I`. -/
structure Preserves (I : σ → Prop) : Prop where
  allocErased : Keeps I P.allocErased
  mapUserPage : ∀ space virtAddr physAddr write,
    Keeps I (P.mapUserPage space virtAddr physAddr write)
  copyToPhys : ∀ p bytes, Keeps I (P.copyToPhys p bytes)

namespace Preserves

variable {P} {I : σ → Prop} (h : P.Preserves I)

include h

variable (space : ℕ)

theorem mapUserRegion (baseVa : BitVec 64) (pages : ℕ) (write : Bool) :
    Keeps I (P.mapUserRegion space baseVa pages write) := by
  refine Keeps.bind (Keeps.exitIf _ _) fun _ => ?_
  refine Keeps.foldRange _ _ fun _ _ => ?_
  exact Keeps.bind h.allocErased fun _ => h.mapUserPage _ _ _ _

omit h in
theorem physOf (va : BitVec 64) : Keeps I (P.physOf space va) := by
  refine Keeps.bind Keeps.get fun s => ?_
  split
  · exact Keeps.throw _
  · exact Keeps.pure _

theorem copyPage (va : BitVec 64) (payload : List Byte) (copied : ℕ) :
    Keeps I (P.copyPage space va payload copied) := by
  refine Keeps.bind (physOf space va) fun _ => ?_
  exact Keeps.bind (h.copyToPhys _ _) fun _ => Keeps.pure _

theorem loadFlatPayload (baseVa : BitVec 64) (payload : List Byte)
    (write : Bool) :
    Keeps I (P.loadFlatPayload space baseVa payload write) := by
  refine Keeps.bind (Keeps.exitIf _ _) fun _ => ?_
  refine Keeps.bind (Keeps.exitIf _ _) fun _ => ?_
  refine Keeps.bind (h.mapUserRegion _ _ _ _) fun _ => ?_
  refine Keeps.bind ?_ fun _ => Keeps.pure _
  exact Keeps.foldRange _ _ fun _ _ => h.copyPage _ _ _ _

theorem mapUserStack (top : BitVec 64) (size : ℕ) :
    Keeps I (P.mapUserStack space top size) := by
  refine Keeps.bind (Keeps.exitIf _ _) fun _ => ?_
  refine Keeps.bind (Keeps.exitIf _ _) fun _ => ?_
  refine Keeps.bind (Keeps.exitIf _ _) fun _ => ?_
  exact Keeps.bind (h.mapUserRegion _ _ _ _) fun _ => Keeps.pure _

theorem copySegment (ph : ProgramHeader) (raw : List Byte) (copied : ℕ) :
    Keeps I (P.copySegment space ph raw copied) := by
  fun_induction P.copySegment space ph raw copied with
  | case1 copied hlt va ih =>
    refine Keeps.bind (physOf _ _) fun _ => ?_
    exact Keeps.bind (h.copyToPhys _ _) fun _ => ih
  | case2 copied hdone => exact Keeps.pure _

theorem loadSegments (raw : List Byte) (loads : List ProgramHeader) :
    Keeps I (P.loadSegments space raw loads) := by
  induction loads with
  | nil => exact Keeps.pure _
  | cons ph loads ih =>
    refine Keeps.bind ?_ fun _ => ih
    exact Keeps.bind (h.mapUserRegion _ _ _ _) fun _ =>
      h.copySegment _ _ _ _

end Preserves

end Platform

end IsoLightK0
