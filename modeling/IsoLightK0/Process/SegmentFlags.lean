import IsoLightK0.Process.SpawnedElf

/-!
# The permissions of loaded segments

`load_segment` passes on one flag of a segment, whether it is writable, and
`map_user_page` makes every page that is not writable executable.  So a
segment gets more than it asks for exactly when it asks for neither.
-/

namespace IsoLightK0

open Bytes Triples Worlds Runs PageTableFlags

/-- The leaf grants no more than the flags of the segment. -/
def GrantsWithin (ph : ProgramHeader) (leaf : PageTableEntry) : Prop :=
  (leaf.flags.contains writable = true → ph.isWritable = true) ∧
    (leaf.flags.contains noExecute = false → ph.isExecutable = true)

/-- So do the leaves of all pages of the segment. -/
def SegmentWithin (m : Mem) (pml4 : ℕ) (ph : ProgramHeader) : Prop :=
  ∀ va, ph.Covers va → ∃ leaf, leafAt m pml4 va = some leaf ∧
    GrantsWithin ph leaf

namespace UserPage

theorem writable_leaf (page : UserPage) :
    page.leaf.flags.contains writable = page.write := by
  rw [writable, PageTableEntry.flags_contains_bit _ (by omega) (by omega), leaf,
    PageTableEntry.getLsbD_encode_leaf _ _ (by omega) (by omega)]
  cases page.write with
  | false => decide
  | true => decide

theorem noExecute_leaf (page : UserPage) :
    page.leaf.flags.contains noExecute = page.write := by
  rw [noExecute, PageTableEntry.flags_contains_bit _ (by omega) (by omega),
    leaf, PageTableEntry.getLsbD_encode _ _ (by omega)]
  cases page.write with
  | false => decide
  | true => decide

theorem grantsWithin_leaf_iff {page : UserPage} {ph : ProgramHeader}
    (hwrite : page.write = ph.isWritable) :
    GrantsWithin ph page.leaf ↔
      ph.isWritable = true ∨ ph.isExecutable = true := by
  rw [GrantsWithin, writable_leaf, noExecute_leaf, hwrite]
  cases ph.isWritable with
  | false => simp
  | true => simp

end UserPage

section Segments

variable {pages : PageMap} {space : ℕ} {s : Physical} {ph : ProgramHeader}
  {raw : List Byte}

theorem PageMap.Segment.leafAt_eq (h : pages.Segment ph raw)
    (hplaced : ph.WellPlaced raw.length) (hin : pages.MappedIn space s)
    {va : BitVec 64} (hva : ph.Covers va) :
    ∃ page : UserPage, page.write = ph.isWritable ∧
      leafAt s.mem space va = some page.leaf := by
  obtain ⟨w, hspace, hholds⟩ := hin
  obtain ⟨hlow, hhigh⟩ := hva
  rw [hplaced.vaStart_eq] at hlow
  rw [hplaced.toNat_vaEnd_eq] at hhigh
  have hindex : (va.toNat - ph.pVaddr.toNat) / pageSize < ph.pages :=
    Nat.div_lt_of_lt_mul (by rw [Nat.mul_comm]; omega)
  have hoff : (va.toNat - ph.pVaddr.toNat) % pageSize < frameSize :=
    Nat.mod_lt _ (by decide)
  obtain ⟨page, hpage, hwrite, -⟩ := h _ hindex
  have hsplit : va = pageVa ph.pVaddr
      ((va.toNat - ph.pVaddr.toNat) / pageSize) +
        BitVec.ofNat 64 ((va.toNat - ph.pVaddr.toNat) % pageSize) := by
    apply BitVec.eq_of_toNat_eq
    rw [pageVa, BitVec.add_assoc, ← BitVec.ofNat_add, Nat.div_add_mod',
      BitVec.toNat_add, BitVec.toNat_ofNat]
    omega
  have hleaf : w.leaves (pagePath va) = some page.leaf := by
    rw [hsplit, pagePath_add (hholds.user hpage) hoff]
    exact hholds.leaf hpage
  obtain ⟨e₄, e₃, e₂, hwalk, -⟩ := hspace.hardwareWalk_eq hleaf
  refine ⟨page, hwrite, ?_⟩
  rw [leafAt, hwalk]
  rfl

theorem ProgramHeader.WellPlaced.exists_covers_iff
    (h : ph.WellPlaced raw.length) :
    (∃ va, ph.Covers va) ↔ ph.pMemsz ≠ 0 := by
  have hend := h.toNat_vaEnd
  have hmod := h.pVaddr_mod
  have hzero : ph.pMemsz = 0 ↔ ph.pMemsz.toNat = 0 :=
    ⟨fun heq => heq ▸ rfl, fun heq => BitVec.eq_of_toNat_eq heq⟩
  unfold Covers
  rw [Ne, hzero, h.vaStart_eq, hend]
  unfold pageSize at hmod
  constructor
  · rintro ⟨va, hlow, hhigh⟩
    omega
  · intro hpos
    exact ⟨ph.pVaddr, le_rfl, by omega⟩

theorem PageMap.Segment.segmentWithin_iff (h : pages.Segment ph raw)
    (hplaced : ph.WellPlaced raw.length) (hin : pages.MappedIn space s) :
    SegmentWithin s.mem space ph ↔
      (ph.pMemsz ≠ 0 → ph.isWritable = true ∨ ph.isExecutable = true) := by
  rw [← hplaced.exists_covers_iff]
  constructor
  · rintro hwithin ⟨va, hva⟩
    obtain ⟨page, hwrite, hpage⟩ := h.leafAt_eq hplaced hin hva
    obtain ⟨leaf, hleaf, hgrants⟩ := hwithin va hva
    rw [hpage] at hleaf
    cases hleaf
    exact (UserPage.grantsWithin_leaf_iff hwrite).mp hgrants
  · intro hasks va hva
    obtain ⟨page, hwrite, hpage⟩ := h.leafAt_eq hplaced hin hva
    exact ⟨page.leaf, hpage,
      (UserPage.grantsWithin_leaf_iff hwrite).mpr (hasks ⟨va, hva⟩)⟩

end Segments

/-! ## Spawned programs -/

/-- After any run of spawn calls, the leaves of a program that `spawn_elf`
loads stay within the flags of its segments exactly when every segment that
is not empty is writable or executable. -/
theorem spawnElf_grants_iff {stack : BootStack} {kernelSpace : ℕ}
    {boot sys sys' : System}
    {history : List (SpawnCall × Except ProcessError ProcessId)}
    {elfBytes : List Byte} {id : ProcessId} {image : Elf64Image}
    {process : Process} (hreserved : stack.Reserved boot.phys)
    (hrun : Run (spawnStep stack kernelSpace) boot history sys)
    (hspawn : spawnElf stack kernelSpace elfBytes sys = (.ok id, sys'))
    (hparse : parse elfBytes = .ok image)
    (hprocess : sys'.processes id = some process) :
    (∀ ph ∈ image.loads,
        SegmentWithin sys'.phys.mem process.pml4Phys ph) ↔
      ∀ ph ∈ image.loads, ph.pMemsz ≠ 0 →
        ph.isWritable = true ∨ ph.isExecutable = true := by
  obtain ⟨image', process', pages, hparse', hprocess', hpages, hloads⟩ :=
    spawnElf_segments hreserved hrun hspawn
  rw [hparse] at hparse'
  rw [hprocess] at hprocess'
  cases hparse'
  cases hprocess'
  refine forall₂_congr fun ph hmem => ?_
  obtain ⟨hplaced, hsegment⟩ := hloads ph hmem
  exact hsegment.segmentWithin_iff hplaced hpages

theorem loads_haltImage_four : (haltImage 4).loads = [haltSegment 4] := by
  decide

theorem loads_haltImage_five : (haltImage 5).loads = [haltSegment 5] := by
  decide

/-- A segment that may be read and executed gets no more. -/
theorem spawnedElf_grants_within :
    (spawnedElf 5).1 = .ok firstSlot ∧ ∃ process,
      (spawnedElf 5).2.processes firstSlot = some process ∧
        SegmentWithin (spawnedElf 5).2.phys.mem process.pml4Phys
          (haltSegment 5) := by
  have hspawn := spawnedElf_eq 5
  refine ⟨congrArg Prod.fst hspawn, ?_⟩
  obtain ⟨_, process, _, -, hprocess, -⟩ :=
    spawnElf_segments bootSystem_reserved Run.start hspawn
  have hwithin := spawnElf_grants_iff bootSystem_reserved Run.start hspawn
    (parse_haltElf 5) hprocess
  rw [loads_haltImage_five] at hwithin
  exact ⟨process, hprocess, hwithin.mpr (by decide) _
    (List.mem_singleton_self _)⟩

/-- The only page of a segment that may only be read can be executed. -/
theorem spawnedElf_executable :
    parse (haltElf 4) = .ok (haltImage 4) ∧
    (haltImage 4).loads = [haltSegment 4] ∧
    (haltSegment 4).isExecutable = false ∧
    (spawnedElf 4).1 = .ok firstSlot ∧ ∃ process leaf,
      (spawnedElf 4).2.processes firstSlot = some process ∧
      leafAt (spawnedElf 4).2.phys.mem process.pml4Phys 0x400000 = some leaf ∧
      leaf.flags.contains noExecute = false ∧
      ¬ SegmentWithin (spawnedElf 4).2.phys.mem process.pml4Phys
        (haltSegment 4) := by
  have hspawn := spawnedElf_eq 4
  refine ⟨parse_haltElf 4, loads_haltImage_four, by decide,
    congrArg Prod.fst hspawn, ?_⟩
  obtain ⟨image, process, pages, hparse, hprocess, hpages, hloads⟩ :=
    spawnElf_segments bootSystem_reserved Run.start hspawn
  rw [parse_haltElf] at hparse
  cases hparse
  rw [loads_haltImage_four] at hloads
  obtain ⟨hplaced, hsegment⟩ := hloads _ (List.mem_singleton_self _)
  have hcovers : (haltSegment 4).Covers 0x400000 := ⟨by decide, by decide⟩
  obtain ⟨page, hwrite, hleaf⟩ := hsegment.leafAt_eq hplaced hpages hcovers
  refine ⟨process, page.leaf, hprocess, hleaf, ?_, ?_⟩
  · rw [page.noExecute_leaf, hwrite]
    decide
  · rw [hsegment.segmentWithin_iff hplaced hpages]
    decide

end IsoLightK0
