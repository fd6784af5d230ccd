import IsoLightK0.Boot.Kaslr
import IsoLightK0.Memory.AllocatorRun
import IsoLightK0.Mmu.WriteXorExecute
import IsoLightK0.Process.Isolation

/-!
# The memory of the kernel at boot

Steps 6 to 9 of `_kernel_start`: the allocator gets the memory map, loses the
first MiB and the kernel image again, and the address space of the kernel gets
the linear map and the sections of the image.  The results of the mapping calls
are ignored, so a page may be missing; none is misplaced, and the frames of the
image are never handed out.
-/

namespace IsoLightK0

open Bytes Triples Worlds Runs Radix PageTableFlags BitmapFrameAllocator

/-- What the linker script fixes: the first page of each section and of
`KERNEL_ADDR_SPACE`, counted from `KERNEL_VMA_BASE`, the physical end, the
guard pages of the interrupt stacks, and the boot stack. -/
structure KernelImage where
  textPage : ℕ
  rodataPage : ℕ
  dataPage : ℕ
  bssPage : ℕ
  spacePage : ℕ
  kernelEndPhys : ℕ
  istGuards : List (BitVec 64 × BitVec 64)
  stack : BootStack
  ordered : stack.bottom.toNat + 262144 ≤ textPage * 4096 ∧
    textPage ≤ rodataPage ∧ rodataPage ≤ dataPage ∧ dataPage ≤ bssPage ∧
    bssPage ≤ spacePage ∧ (spacePage + 1) * 4096 ≤ kernelEndPhys ∧
    kernelEndPhys + 4096 ≤ 2 ^ 31

def isInAnyGuard (va : BitVec 64) (ranges : List (BitVec 64 × BitVec 64)) :
    Bool :=
  ranges.any fun range => range.1 ≤ va ∧ va < range.2

def MemoryMap.highestAddr (map : MemoryMap) : BitVec 64 :=
  map.regions.foldl (fun acc r =>
    if acc < r.base + r.length then r.base + r.length else acc) 0

/-- The pages of a section, their flags, and the ranges that are left out. -/
structure KernelSection where
  first : ℕ
  last : ℕ
  flags : PageTableFlags
  guards : List (BitVec 64 × BitVec 64)

namespace KernelSection

def call (sec : KernelSection) (page : ℕ) : SpaceCall :=
  let va := pageVa kernelVmaBase page
  .small (.page va (va - kernelVmaBase) sec.flags)

/-- The loop over a section. -/
def map (sec : KernelSection) (pml4 : ℕ) : Prog Physical MmuError Unit :=
  Prog.foldRange (sec.last - sec.first) () fun i _ =>
    if isInAnyGuard (pageVa kernelVmaBase (sec.first + i)) sec.guards then
      pure ()
    else discard ((sec.call (sec.first + i)).program pml4).attempt

end KernelSection

namespace KernelImage

section Steps

variable (image : KernelImage) (map : MemoryMap) (kaslrOffset : BitVec 64)

def sections : List KernelSection :=
  let ro := present.union noExecute
  let rw := (present.union writable).union noExecute
  [⟨image.textPage, image.rodataPage, present, []⟩,
    ⟨image.rodataPage, image.dataPage, ro, []⟩,
    ⟨image.dataPage, image.bssPage, rw, []⟩,
    ⟨image.bssPage, (image.kernelEndPhys + 4095) / 4096, rw, image.istGuards⟩]

/-- The allocator after step 6. -/
def bootAllocator : BitmapFrameAllocator :=
  let physEndAligned := (image.kernelEndPhys + 0xFFF) / 4096 * 4096
  ((new.initFromMemoryMap map).markRangeUsed 0 0x100000).markRangeUsed 0x100000
    (BitVec.ofNat 64 (physEndAligned - 0x100000))

/-- `PHYS_MAP_OFFSET` after step 7; `BootInfo` has 0 when there is no offset. -/
def physMapOffset : BitVec 64 :=
  mmuInitialize (if kaslrOffset = 0 then none else some kaslrOffset)

/-- The PML4 of `KERNEL_ADDR_SPACE`. -/
def kernelSpace : ℕ := image.spacePage * frameSize

/-- Steps 8 and 9. -/
def mapKernel : Prog Physical MmuError Unit := do
  discard (buildLinearMap (physMapOffset kaslrOffset) image.kernelSpace
    map.highestAddr).attempt
  image.sections.forM fun sec => sec.map image.kernelSpace

/-- The memory after step 9; the loader has erased the `.bss` section. -/
def started (m : Mem) : Physical :=
  ((image.mapKernel map kaslrOffset).eval
    ⟨m.fill image.kernelSpace frameSize 0, image.bootAllocator map⟩).2

end Steps

end KernelImage

/-! ## Mapping calls -/

def Supervisor (e : PageTableEntry) : Prop :=
  e.flags.contains userAccessible = false

/-- The tables have levels and no leaf with user access, the frames of `w₀` are
still what they were, and `n` frames can be taken. -/
def Supervised (w₀ : Labelling ℕ) (n : ℕ) (s : Physical) : Prop :=
  (∃ w, w₀ ≤ w ∧ Layout (levelRule Supervisor) w s) ∧ s.allocator.Room n

section Calls

theorem antitone_room : Antitone fun n (s : Physical) => s.allocator.Room n :=
  fun _ _ hle _ h => h.mono hle

theorem antitone_supervised (w₀ : Labelling ℕ) : Antitone (Supervised w₀) :=
  fun _ _ hle _ h => ⟨h.1, h.2.mono hle⟩

theorem walkDown_spends (va : BitVec 64) (bottom steps table : ℕ) :
    Spends (fun n s => s.allocator.Room n) steps
      (walkDown va bottom steps table) := by
  induction steps generalizing table with
  | zero => exact Spends.pure table
  | succ steps ih =>
    refine Spends.mono antitone_room (Spends.bind antitone_room (j := 1)
      (fun n s hs => ?_) ih) (by omega)
    rcases allocOrGetTable_cases s table (tableIndex va (bottom + steps + 1))
      with ⟨e, heval, -⟩ | ⟨-, -, heval⟩ | ⟨-, p, s', htake, heval⟩
    · rw [heval]
      exact hs.mono (Nat.sub_le n 1)
    · rw [heval]
      exact hs.mono (Nat.sub_le n 1)
    · rw [heval]
      exact htake.room n hs

/-- A call takes a frame for each table that is missing. -/
theorem SpaceCall.program_spends (call : SpaceCall) (pml4 : ℕ) :
    Spends (fun n s => s.allocator.Room n) 3 (call.program pml4) := by
  have hleaf : ∀ t, Spends (fun n s => s.allocator.Room n) 0
      (putLeaf t (tableIndex call.virtAddr call.level) (.ok call.leaf)) := by
    intro t n s hs
    rcases putLeaf_cases s t (tableIndex call.virtAddr call.level)
      (.ok call.leaf) with ⟨_, heval, -⟩ | ⟨-, _, -, heval⟩
    · rw [heval]
      exact hs
    · rw [heval]
      exact hs
  intro n s hs
  rcases call.eval_program pml4 s with ⟨e, heval⟩ | ⟨-, -, heval⟩
  · rw [heval]
    exact hs.mono (Nat.sub_le n 3)
  · have hpos := call.level_bounds.1
    rw [heval]
    exact Spends.mono antitone_room (Spends.bind antitone_room
      (walkDown_spends _ _ _ _) hleaf) (by omega) n s hs

theorem SpaceCall.supervised_spends (call : SpaceCall) {pml4 : ℕ}
    {w₀ : Labelling ℕ} (hroot : w₀.kind pml4 = some 4)
    (hleaf : Supervisor call.leaf) :
    Spends (Supervised w₀) 3 (call.program pml4) := by
  rintro n s ⟨⟨w, hle, hlayout⟩, hroom⟩
  obtain ⟨w', hle', hlayout', -, -⟩ :=
    call.program_levels hleaf w s hlayout (hle _ _ hroot)
  exact ⟨⟨w', hle.trans hle', hlayout'⟩, call.program_spends pml4 n s hroom⟩

end Calls

section Isolation

variable {stack : BootStack} {kernelSpace : ℕ} {s₀ : Physical}
  {w : Labelling FrameUse} {log : SpawnLog}

/-- The frame of a user page was free when there was no process. -/
theorem Separated.free_of_mem_userFrames
    (h : Separated stack kernelSpace s₀ w log)
    (hkernel : KernelMappings stack kernelSpace s₀) {id : ProcessId}
    {process : Process} (hprocess : log.sys.processes id = some process)
    {f : ℕ} (hf : f ∈ userFrames log.sys.phys.mem process.pml4Phys) :
    s₀.allocator.FreeAt (f * frameSize) := by
  have hpage := h.owned.kind_of_mem_userFrames hkernel
    (h.rooted _ (h.logged _ _ hprocess)) hf
  by_contra hused
  by_cases htable : TableOf s₀.mem kernelSpace (f * frameSize)
  · rw [h.owned.boot _ _ (Labelling.kind_split_left htable)] at hpage
    cases hpage
  · rw [h.owned.boot _ _ (Labelling.kind_split_right htable
      ⟨Nat.mul_mod_left _ _, hused⟩)] at hpage
    cases hpage

end Isolation

namespace KernelImage

variable {image : KernelImage} {map : MemoryMap} {kaslrOffset : BitVec 64}
  {m : Mem}

/-- The frames that are free after step 6 are the usable ones behind the
kernel image. -/
theorem isFree_bootAllocator (f : ℕ) :
    (image.bootAllocator map).isFree f = true ↔
      image.kernelEndPhys ≤ f * frameSize ∧ FreedByMap map f := by
  have hplaced := image.ordered
  have hload := image.stack.above_load_base
  have hzero : (0 : BitVec 64).toNat = 0 := rfl
  have hone : (0x100000 : BitVec 64).toNat = 0x100000 := rfl
  rw [bootAllocator, isFree_markRangeUsed, isFree_markRangeUsed,
    isFree_initFromMemoryMap, isFree_new]
  have hbehind : ¬ UsedBy 0 0x100000 f ∧ ¬ UsedBy 0x100000 (BitVec.ofNat 64
      ((image.kernelEndPhys + 0xFFF) / 4096 * 4096 - 0x100000)) f ↔
        image.kernelEndPhys ≤ f * frameSize := by
    unfold UsedBy maxFrames frameSize
    rw [BitVec.toNat_ofNat, hone, hzero]
    omega
  rw [← hbehind]
  tauto

theorem freeAt_bootAllocator {p : ℕ} (h : (image.bootAllocator map).FreeAt p) :
    image.kernelEndPhys ≤ p ∧ FreedByMap map (p / frameSize) := by
  obtain ⟨hmod, -, hfree⟩ := h
  obtain ⟨hbehind, hfreed⟩ := (isFree_bootAllocator _).mp hfree
  rw [Nat.div_mul_cancel (Nat.dvd_of_mod_eq_zero hmod)] at hbehind
  exact ⟨hbehind, hfreed⟩

theorem not_freeAt_kernelSpace :
    ¬ (image.bootAllocator map).FreeAt image.kernelSpace := by
  intro hfree
  have hbehind := (freeAt_bootAllocator hfree).1
  have hplaced := image.ordered
  unfold kernelSpace frameSize at hbehind
  omega

/-- The frames that are in use after step 6; only the PML4 is a table. -/
noncomputable def labels (image : KernelImage) (map : MemoryMap) :
    Labelling ℕ :=
  .split (· = image.kernelSpace) (fun _ => 4)
    (fun p => p % frameSize = 0 ∧ ¬ (image.bootAllocator map).FreeAt p) 0

theorem kind_kernelSpace :
    (image.labels map).kind image.kernelSpace = some 4 :=
  Labelling.kind_split_left rfl

theorem supervised_erased {n : ℕ}
    (hroom : (image.bootAllocator map).Room n) :
    Supervised (image.labels map) n
      ⟨m.fill image.kernelSpace frameSize 0, image.bootAllocator map⟩ := by
  unfold Supervised
  dsimp only
  refine ⟨⟨_, le_rfl, ?_, ?_, ?_⟩, hroom⟩
  · intro p level hp
    rcases Labelling.kind_split_cases hp with ⟨rfl, -⟩ | ⟨hp, -⟩
    · exact Nat.mul_mod_left _ _
    · exact hp.1
  · dsimp only
    intro p level hp
    rcases Labelling.kind_split_cases hp with ⟨rfl, -⟩ | ⟨hp, -⟩
    · exact not_freeAt_kernelSpace
    · exact hp.2
  · -- the PML4 is empty, and the other frames are no tables
    intro p level i hp hi
    rcases Labelling.kind_split_cases hp with ⟨rfl, rfl⟩ | ⟨-, rfl⟩
    · have hunused : entryAt (m.fill image.kernelSpace frameSize 0)
          image.kernelSpace i = .unused :=
        entryAt_erased hi fun q hq => m.fill_apply_within 0 hq
      rw [hunused]
      exact levelRule_unused 4 i
    · exact fun hpos => absurd hpos (Nat.lt_irrefl 0)

theorem supervisor_linearMapCall (offset : BitVec 64) (i : ℕ) :
    Supervisor (linearMapCall offset i).leaf := by
  rw [Supervisor, userAccessible,
    PageTableEntry.flags_contains_bit _ (by omega) (by omega)]
  exact (PageTableEntry.getLsbD_encodeHuge _ _ (by omega)).trans (by decide)

theorem supervisor_sections {sec : KernelSection} (h : sec ∈ image.sections)
    (page : ℕ) : Supervisor (sec.call page).leaf := by
  rw [Supervisor, userAccessible,
    PageTableEntry.flags_contains_bit _ (by omega) (by omega)]
  refine (PageTableEntry.getLsbD_encode _ _ (by omega)).trans ?_
  simp only [sections, List.mem_cons, List.not_mem_nil, or_false] at h
  rcases h with rfl | rfl | rfl | rfl
  all_goals
    dsimp only [MapCall.flags]
    decide

/-- Three frames for each page of steps 8 and 9. -/
def mapCost (image : KernelImage) (map : MemoryMap) : ℕ :=
  linearMapPages map.highestAddr * 3 +
    (image.sections.map fun sec => (sec.last - sec.first) * 3).sum

theorem mapKernel_spends :
    Spends (Supervised (image.labels map)) (image.mapCost map)
      (image.mapKernel map kaslrOffset) := by
  have hB := antitone_supervised (image.labels map)
  have hlinear : Spends (Supervised (image.labels map)) _ (buildLinearMap
      (physMapOffset kaslrOffset) image.kernelSpace map.highestAddr) :=
    Spends.foldRange hB _ _ fun i _ => (linearMapCall _ i).supervised_spends
      kind_kernelSpace (supervisor_linearMapCall _ i)
  refine Spends.bind hB hlinear.discard_attempt fun _ =>
    Spends.forM hB _ fun sec hsec => Spends.foldRange hB _ _ fun i _ => ?_
  split
  · exact Spends.mono hB (Spends.pure _) (Nat.zero_le _)
  · exact (SpaceCall.supervised_spends _ kind_kernelSpace
      (supervisor_sections hsec _)).discard_attempt

theorem started_supervised (image : KernelImage) (map : MemoryMap)
    (kaslrOffset : BitVec 64) (m : Mem) {n : ℕ}
    (hroom : (image.bootAllocator map).Room n) :
    Supervised (image.labels map) (n - image.mapCost map)
      (image.started map kaslrOffset m) :=
  mapKernel_spends n _ (supervised_erased hroom)

theorem kind_stackFrame {p : ℕ} (hp : image.stack.Frame p) :
    (image.labels map).kind p = some 0 := by
  have hplaced := image.ordered
  have hframe := hp.2.2
  have hused : ¬ (image.bootAllocator map).FreeAt p := by
    intro hfree
    have hbehind := (freeAt_bootAllocator hfree).1
    omega
  have hne : p ≠ image.kernelSpace := by
    unfold kernelSpace frameSize
    omega
  exact Labelling.kind_split_right hne ⟨hp.1, hused⟩

theorem started_kernelMappings :
    KernelMappings image.stack image.kernelSpace
      (image.started map kaslrOffset m) := by
  obtain ⟨⟨w, hle, hlayout⟩, -⟩ :=
    image.started_supervised map kaslrOffset m (room_zero _)
  have hroot := hle _ _ kind_kernelSpace
  refine ⟨Nat.mul_mod_left _ _, ?_, ?_, ?_⟩
  · rintro t ⟨va, level, hreach⟩
    exact hlayout.reserved (hlayout.kind_of_reaches hroot hreach).2
  · rintro t ⟨va, level, hreach⟩ hframe
    obtain ⟨hpos, hkind⟩ := hlayout.kind_of_reaches hroot hreach
    rw [hle _ _ (kind_stackFrame hframe)] at hkind
    cases hkind
    exact Nat.lt_irrefl 0 hpos
  · intro va leaf _ hleaf
    exact hlayout.leaf_mem hroot hleaf

/-- A frame that is free after step 9 is a usable one behind the image. -/
theorem freeAt_started {p : ℕ}
    (h : (image.started map kaslrOffset m).allocator.FreeAt p) :
    image.kernelEndPhys ≤ p ∧ FreedByMap map (p / frameSize) := by
  obtain ⟨⟨w, hle, hlayout⟩, -⟩ :=
    image.started_supervised map kaslrOffset m (room_zero _)
  apply freeAt_bootAllocator
  by_contra hused
  -- a frame in use after step 6 has a label, and keeps it
  by_cases hroot : p = image.kernelSpace
  · exact hlayout.reserved (hle _ _ kind_kernelSpace) (hroot ▸ h)
  · exact hlayout.reserved (hle _ _
      (Labelling.kind_split_right hroot ⟨h.1, hused⟩)) h

theorem started_reserved :
    image.stack.Reserved (image.started map kaslrOffset m) := by
  intro p hp hfree
  have hplaced := image.ordered
  have hframe := hp.2.2
  have hbehind := (freeAt_started hfree).1
  omega

/-! ## Processes -/

/-- An image of 1 MiB that ends with a guard page. -/
def linked : KernelImage where
  textPage := 384
  rodataPage := 432
  dataPage := 448
  bssPage := 464
  spacePage := 480
  kernelEndPhys := 0x200000
  istGuards := [(kernelVmaBase + 0x1FF000, kernelVmaBase + 0x200000)]
  stack := linkedStack
  ordered := by decide

/-- 8 MiB behind the image. -/
def usableMap : MemoryMap := .ofRegions [⟨0x200000, 0x800000, .usable⟩]

theorem bootAllocator_room : (linked.bootAllocator usableMap).Room 1024 := by
  have hconsistent : (linked.bootAllocator usableMap).Consistent :=
    ((consistent_new.initFromMemoryMap usableMap).markRangeUsed _ _
      ).markRangeUsed _ _
  refine ⟨Finset.Ico 512 1536, by rw [Nat.card_Ico], fun f hf => ?_⟩
  rw [Finset.mem_Ico] at hf
  have hmax : f < maxFrames := by
    unfold maxFrames
    omega
  have hregion : (⟨0x200000, 0x800000, .usable⟩ : MemoryRegion) ∈
      usableMap.usableRegions := by decide
  have hfree : (linked.bootAllocator usableMap).isFree f = true := by
    refine (isFree_bootAllocator f).mpr ⟨?_, _, hregion, ?_⟩
    · show 0x200000 ≤ f * 4096
      omega
    · have hbase : (0x200000 : BitVec 64).toNat = 0x200000 := rfl
      have hlength : (0x800000 : BitVec 64).toNat = 0x800000 := rfl
      unfold FreedBy frameSize
      rw [hbase, hlength]
      omega
  exact ⟨hconsistent.hinted f hmax hfree, hmax, hfree⟩

end KernelImage

end IsoLightK0
