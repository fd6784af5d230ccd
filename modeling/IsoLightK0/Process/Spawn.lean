import IsoLightK0.Process.Platform

/-!
# User processes on x86_64

The boot stack is placed by the linker script; its address is a parameter with
the properties that the script and the boot code give it.
-/

namespace IsoLightK0

open Bytes Triples PageTableFlags

inductive ProcessError
  | slotsFull
  | mmu (e : MmuError)
  | pmAllocFailed
  | badAddress
  | elf (e : ElfError)
  deriving DecidableEq, Repr

/-- The boot stack of 256 KiB: page aligned, above the load address of the
kernel and below 4 GiB. -/
structure BootStack where
  bottom : BitVec 64
  aligned : unaligned bottom = false
  above_load_base : 0x100000 ≤ bottom.toNat
  below_4gib : bottom.toNat + 262144 ≤ 2 ^ 32

def BootStack.top (stack : BootStack) : BitVec 64 := stack.bottom + 262144

def bootStackFlags : PageTableFlags :=
  (present.union writable).union noExecute

def x86Platform : Platform Physical ProcessError where
  slotsFull := .slotsFull
  badAddress := .badAddress
  elf := .elf
  allocErased := IsoLightK0.allocErased .pmAllocFailed
  inheritKernelMappings := IsoLightK0.inheritKernelMappings
  stackFlags := bootStackFlags
  mapPage space virtAddr physAddr flags :=
    (IsoLightK0.mapPage space virtAddr physAddr flags).mapExit .mmu
  mapUserPage space virtAddr physAddr write :=
    (IsoLightK0.mapUserPage space virtAddr physAddr write).mapExit .mmu
  walkToPhys s space va := IsoLightK0.walkToPhys s.mem space va
  copyToPhys := IsoLightK0.copyToPhys

def mapBootStackIdentity (stack : BootStack) (space : ℕ) :
    Prog Physical ProcessError Unit :=
  x86Platform.mapBootStackIdentity stack.bottom stack.top space

def allocUserAddressSpace (stack : BootStack) (kernelSpace : ℕ) :
    Prog Physical ProcessError ℕ :=
  x86Platform.allocUserAddressSpace stack.bottom stack.top kernelSpace

abbrev mapFreshPage := x86Platform.mapFreshPage

abbrev mapUserRegion := x86Platform.mapUserRegion

abbrev physOf := x86Platform.physOf

abbrev copyPage := x86Platform.copyPage

abbrev loadFlatPayload := x86Platform.loadFlatPayload

abbrev mapUserStack := x86Platform.mapUserStack

abbrev copySegment := x86Platform.copySegment

abbrev loadSegment := x86Platform.loadSegment

abbrev loadSegments := x86Platform.loadSegments

def buildFlat (stack : BootStack) (kernelSpace : ℕ)
    (codePayload : List Byte) : Prog Physical ProcessError UserImage :=
  x86Platform.buildFlat stack.bottom stack.top kernelSpace codePayload

def buildElf (stack : BootStack) (kernelSpace : ℕ) (image : Elf64Image) :
    Prog Physical ProcessError UserImage :=
  x86Platform.buildElf stack.bottom stack.top kernelSpace image

abbrev System := SystemOver Physical

abbrev spawnWith := x86Platform.spawnWith

def spawnFlat (stack : BootStack) (kernelSpace : ℕ)
    (codePayload : List Byte) (sys : System) :
    Except ProcessError ProcessId × System :=
  x86Platform.spawnFlat stack.bottom stack.top kernelSpace codePayload sys

def spawnElf (stack : BootStack) (kernelSpace : ℕ) (elfBytes : List Byte)
    (sys : System) : Except ProcessError ProcessId × System :=
  x86Platform.spawnElf stack.bottom stack.top kernelSpace elfBytes sys

theorem allocUserAddressSpace_eq (stack : BootStack) (kernelSpace : ℕ) :
    allocUserAddressSpace stack kernelSpace = (do
      let space ← allocErased .pmAllocFailed
      inheritKernelMappings space kernelSpace
      mapBootStackIdentity stack space
      pure space) := rfl

theorem buildElf_eq (stack : BootStack) (kernelSpace : ℕ)
    (image : Elf64Image) :
    buildElf stack kernelSpace image = (do
      let space ← allocUserAddressSpace stack kernelSpace
      loadSegments space image.raw image.loads
      let range ← mapUserStack space defaultUserStackTop defaultUserStackSize
      pure { pml4Phys := space, entryRip := image.entry,
             stackRange := range }) := rfl

theorem eval_physOf (space : ℕ) (va : BitVec 64) (s : Physical) :
    (physOf space va).eval s =
      match walkToPhys s.mem space va with
      | none => (.error .badAddress, s)
      | some phys => (.ok phys.toNat, s) := by
  rw [physOf, Platform.physOf, Prog.eval_get_bind]
  cases hwalk : walkToPhys s.mem space va with
  | none =>
    have hnone : x86Platform.walkToPhys s space va = none := hwalk
    rw [hnone]
    rfl
  | some phys =>
    have hsome : x86Platform.walkToPhys s space va = some phys := hwalk
    rw [hsome]
    rfl

end IsoLightK0
