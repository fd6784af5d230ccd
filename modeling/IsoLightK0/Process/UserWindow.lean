import IsoLightK0.Mmu.Permissions
import IsoLightK0.Process.SpawnRun
import IsoLightK0.Syscall.Window
import Mathlib.Order.Interval.Finset.Nat

/-!
# The user window of a process

A system call accepts a user range by the numbers of its two ends alone, and
the kernel then accesses it with its own privilege.  The window of accepted
ranges therefore has to be free of pages that the process itself could not
access.  The boot stack, mapped without user access in the lower half of every
spawned address space, lies inside it.
-/

namespace IsoLightK0

open Bytes Triples Handler Runs PageTableFlags

/-- The entry that the hardware walk ends with, if the address is mapped. -/
def leafAt (m : Mem) (pml4 : ℕ) (va : BitVec 64) : Option PageTableEntry :=
  (hardwareWalk m va 4 pml4).bind List.getLast?

/-- The address lies in a page that is mapped without user access. -/
def SupervisorPage (m : Mem) (pml4 : ℕ) (va : BitVec 64) : Prop :=
  ∃ leaf, leafAt m pml4 va = some leaf ∧
    leaf.flags.contains userAccessible = false

/-- No accepted range overlaps a supervisor page. -/
def WindowIsUser (m : Mem) (pml4 : ℕ) : Prop :=
  ∀ ptr len : BitVec 64, userRangeOk ptr len = true →
    ∀ k, k < len.toNat → ¬ SupervisorPage m pml4 (ptr + BitVec.ofNat 64 k)

section Calls

variable (tlsExternal : Bool) (C : Crates) (destroy : BusInstance.Destructor)
  (K : Kernel) (user : Mem)

/-- No system call makes the kernel read or write a supervisor page of the
caller. -/
def CallsStayUser (m : Mem) (pml4 : ℕ) : Prop :=
  ∀ ctx, ∀ event ∈
      ((dispatch tlsExternal C destroy ctx).eval ⟨K, user, []⟩).2.trace,
    ∀ va, event.Touches va → ¬ SupervisorPage m pml4 va

/-- The registers of `sys_write` for one octet on the error console. -/
def writeOctet (ptr : BitVec 64) : SyscallContext where
  num := 1
  arg0 := 2
  arg1 := ptr
  arg2 := 1
  arg3 := 0
  arg4 := 0
  arg5 := 0

/-- `sys_write` reads an accepted octet, whatever page it lies in. -/
theorem trace_writeOctet {ptr : BitVec 64} (h : userRangeOk ptr 1 = true) :
    ((dispatch tlsExternal C destroy (writeOctet ptr)).eval
      ⟨K, user, []⟩).2.trace = [.read ptr 1] := by
  have hcall : dispatch tlsExternal C destroy (writeOctet ptr) =
      sysWrite 2 ptr 1 := rfl
  have hconsole : (failIf ((2 : BitVec 64) ≠ 2) .badArg).eval
      (⟨K, user, []⟩ : Machine) = (.ok (), ⟨K, user, []⟩) := rfl
  have hlen : (failIf ((1 : BitVec 64).toNat > 8 * 1024) .badArg).eval
      (⟨K, user, []⟩ : Machine) = (.ok (), ⟨K, user, []⟩) := rfl
  have hloop : sysWriteLoop ptr (1 : BitVec 64).toNat =
      (copyIn ptr 1 >>= fun _ => pure ()) := by
    rw [sysWriteLoop]
    simp [sysWriteLoop]
  rw [hcall, sysWrite, hloop, Prog.eval_bind, hconsole]
  dsimp only
  rw [Prog.eval_bind, hlen]
  dsimp only
  rw [Prog.eval_bind, eval_guardRange_of_ok _ _ h]
  rfl

theorem windowIsUser_of_callsStayUser {m : Mem} {pml4 : ℕ}
    (h : CallsStayUser tlsExternal C destroy K user m pml4) :
    WindowIsUser m pml4 := by
  intro ptr len hrange k hk
  have hwindow : InRange ptr len.toNat := (userRangeOk_iff ptr len).mp hrange
  have hoctet : userRangeOk (ptr + BitVec.ofNat 64 k) 1 = true :=
    (userRangeOk_iff _ _).mpr ((hwindow.advance (le_of_lt hk)).mono
      (Nat.le_sub_of_add_le' hk))
  have hread : UserEvent.read (ptr + BitVec.ofNat 64 k) 1 ∈
      ((dispatch tlsExternal C destroy (writeOctet (ptr +
        BitVec.ofNat 64 k))).eval ⟨K, user, []⟩).2.trace := by
    rw [trace_writeOctet tlsExternal C destroy K user hoctet]
    exact List.mem_singleton_self _
  exact h _ _ hread _ ⟨0, Nat.one_pos, (BitVec.add_zero _).symm⟩

end Calls

namespace BootStack

variable {stack : BootStack} {pml4 : ℕ} {s : Physical}

theorem supervisorPage_bottom (h : stack.MappedIn pml4 s) :
    SupervisorPage s.mem pml4 stack.bottom := by
  obtain ⟨w, hspace, hmapped⟩ := h
  have hbottom : pageVa stack.bottom 0 = stack.bottom := BitVec.add_zero _
  have hleaf := hmapped 0 (by omega)
  rw [hbottom] at hleaf
  obtain ⟨e₄, e₃, e₂, hwalk, -⟩ := hspace.hardwareWalk_eq hleaf
  refine ⟨stack.leaf 0, ?_, ?_⟩
  · rw [leafAt, hwalk]
    rfl
  · have hnouser : bootStackFlags.contains (bit 2) = false := by decide
    show (stack.leaf 0).flags.contains (bit 2) = false
    rw [PageTableEntry.flags_contains_bit _ (by omega) (by omega), leaf,
      PageTableEntry.getLsbD_encode_leaf _ _ (by omega) (by omega), hnouser]

theorem userRangeOk_bottom (stack : BootStack) :
    userRangeOk stack.bottom 1 = true := by
  have hlow := stack.above_load_base
  have hhigh := stack.below_4gib
  have hone : (1 : BitVec 64).toNat = 1 := rfl
  rw [userRangeOk_iff, hone]
  omega

theorem not_windowIsUser (h : stack.MappedIn pml4 s) :
    ¬ WindowIsUser s.mem pml4 := by
  intro hwindow
  apply hwindow stack.bottom 1 stack.userRangeOk_bottom 0 Nat.one_pos
  rw [show stack.bottom + BitVec.ofNat 64 0 = stack.bottom from
    BitVec.add_zero _]
  exact supervisorPage_bottom h

end BootStack

/-- Every process that is spawned, after any run of spawn calls, has a
supervisor page in its window, and can make the kernel access it. -/
theorem spawned_window_not_user {stack : BootStack} {kernelSpace : ℕ}
    {sys sys' : System} {history : List (SpawnCall ×
      Except ProcessError ProcessId)} {call : SpawnCall} {id : ProcessId}
    (hreserved : stack.Reserved sys.phys)
    (hrun : Run (spawnStep stack kernelSpace) sys
      ((call, .ok id) :: history) sys')
    (tlsExternal : Bool) (C : Crates) (destroy : BusInstance.Destructor)
    (K : Kernel) (user : Mem) :
    ∃ process, sys'.processes id = some process ∧
      ¬ WindowIsUser sys'.phys.mem process.pml4Phys ∧
        ¬ CallsStayUser tlsExternal C destroy K user sys'.phys.mem
          process.pml4Phys := by
  obtain ⟨process, hprocess, hmapped⟩ := spawn_run_mapped hreserved hrun
  have hwindow := BootStack.not_windowIsUser hmapped
  exact ⟨process, hprocess, hwindow, fun hcalls =>
    hwindow (windowIsUser_of_callsStayUser _ _ _ _ _ hcalls)⟩

/-! ## A process of one page -/

/-- The boot stack, above its guard page, where the linker places it. -/
def linkedStack : BootStack where
  bottom := 0x12E000
  aligned := by decide
  above_load_base := by decide
  below_4gib := by decide

/-- The frames below 2 MiB are in use and there is no process. -/
def bootSystem : System where
  phys := { mem := fun _ => 0, allocator := lowFramesUsed }
  processes _ := none

theorem bootSystem_reserved : linkedStack.Reserved bootSystem.phys := by
  rintro p ⟨-, -, hend⟩ ⟨-, -, hfree⟩
  have hbottom : linkedStack.bottom.toNat = 0x12E000 := by decide
  have hword : p / frameSize / 64 < 8 := by
    unfold frameSize
    omega
  have hones : lowFramesUsed.bitmap (p / frameSize / 64) =
      BitVec.allOnes 64 := if_pos hword
  have hused := BitmapFrameAllocator.not_isFree_of_ones hones
  exact absurd hfree (Bool.eq_false_iff.mp hused)

theorem bootSystem_room : bootSystem.phys.allocator.Room 522 := by
  refine ⟨Finset.Ico 512 1034, ?_, ?_⟩
  · rw [Nat.card_Ico]
  · intro f hf
    rw [Finset.mem_Ico] at hf
    have hclear : lowFramesUsed.bitmap (f / 64) = 0 := if_neg (by omega)
    refine ⟨Nat.zero_le _, ?_, ?_⟩
    · unfold maxFrames
      omega
    · show lowFramesUsed.isFree f = true
      rw [BitmapFrameAllocator.isFree_eq, hclear]
      simp

def haltPayload : List Byte := [0xF4]

def firstSlot : ProcessId := ⟨0, by decide⟩

def secondSlot : ProcessId := ⟨1, by decide⟩

theorem haltPayload_fits {n : ℕ} (hn : 261 ≤ n) :
    BootStack.FlatFits linkedStack haltPayload n :=
  ⟨by decide, by decide, by decide, hn⟩

/-- With room for both, the program is spawned twice. -/
theorem spawnFlat_twice {s : Physical} {kernelSpace : ℕ}
    (hreserved : linkedStack.Reserved s) (hroom : s.allocator.Room 522) :
    ∃ sys first second,
      Run (spawnStep linkedStack kernelSpace) ⟨s, fun _ => none⟩
        [(.flat haltPayload, .ok secondSlot), (.flat haltPayload, .ok firstSlot)]
        sys ∧
      sys.processes firstSlot = some first ∧
      sys.processes secondSlot = some second := by
  have hfree : findFreeSlot (⟨s, fun _ => none⟩ : System).processes =
      some firstSlot := rfl
  obtain ⟨sys₁, first, hfirst, hslots, hreserved₁, hroom₁⟩ :=
    spawnFlat_returns hfree hreserved hroom (haltPayload_fits (by decide))
  have hfree₁ : findFreeSlot sys₁.processes = some secondSlot := by
    rw [hslots]
    rfl
  obtain ⟨sys₂, second, hsecond, hslots₂, -⟩ :=
    spawnFlat_returns hfree₁ hreserved₁ hroom₁ (haltPayload_fits (by decide))
  refine ⟨sys₂, first, second, .next (.next .start (congrArg some hfirst))
    (congrArg some hsecond), ?_, ?_⟩
  · rw [hslots₂, hslots]
    rfl
  · rw [hslots₂]
    rfl

def spawnedHalt : Except ProcessError ProcessId × System :=
  spawnFlat linkedStack 0x180000 haltPayload bootSystem

theorem spawnedHalt_eq : ∃ sys', spawnedHalt = (.ok firstSlot, sys') := by
  have hspawn : ∃ sys' process, spawnedHalt = (.ok firstSlot, sys') ∧ _ :=
    spawnFlat_returns (by decide) bootSystem_reserved bootSystem_room
      (haltPayload_fits (by decide))
  obtain ⟨sys', _, heq, -⟩ := hspawn
  exact ⟨sys', heq⟩

theorem spawnedHalt_run :
    Run (spawnStep linkedStack 0x180000) bootSystem
      [(.flat haltPayload, .ok firstSlot)] spawnedHalt.2 := by
  obtain ⟨sys', heq⟩ := spawnedHalt_eq
  rw [heq]
  exact .next .start (congrArg some heq)

/-- The window check accepts an octet of the boot stack, which is mapped
without user access, and `sys_write` reads it. -/
theorem spawnedHalt_reads_boot_stack :
    spawnedHalt.1 = .ok firstSlot ∧ userRangeOk 0x12E000 1 = true ∧
      (∃ process, spawnedHalt.2.processes firstSlot = some process ∧
        SupervisorPage spawnedHalt.2.phys.mem process.pml4Phys 0x12E000) ∧
      ((dispatch false Crates.inert (fun _ => some ())
        (writeOctet 0x12E000)).eval ⟨Kernel.boot [] Buf.zero Buf.zero 1 2,
          fun _ => 0, []⟩).2.trace = [.read 0x12E000 1] := by
  have haccepted : userRangeOk 0x12E000 1 = true := by decide
  obtain ⟨process, hprocess, hmapped⟩ :=
    spawn_run_mapped bootSystem_reserved spawnedHalt_run
  have hpage : SupervisorPage spawnedHalt.2.phys.mem process.pml4Phys
      linkedStack.bottom := BootStack.supervisorPage_bottom hmapped
  have hbottom : linkedStack.bottom = 0x12E000 := rfl
  rw [hbottom] at hpage
  obtain ⟨_, heq⟩ := spawnedHalt_eq
  exact ⟨congrArg Prod.fst heq, haccepted, ⟨process, hprocess, hpage⟩,
    trace_writeOctet _ _ _ _ _ haccepted⟩

/-- The same process has neither property. -/
theorem spawnedHalt_window_not_user :
    ∃ process, spawnedHalt.2.processes firstSlot = some process ∧
      ¬ WindowIsUser spawnedHalt.2.phys.mem process.pml4Phys ∧
        ¬ CallsStayUser false Crates.inert (fun _ => some ())
          (Kernel.boot [] Buf.zero Buf.zero 1 2) (fun _ => 0)
          spawnedHalt.2.phys.mem process.pml4Phys :=
  spawned_window_not_user bootSystem_reserved spawnedHalt_run _ _ _ _ _

end IsoLightK0
