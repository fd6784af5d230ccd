import IsoLightK0.Process.SpawnedElf
import IsoLightK0.Support.Monitors

/-!
# The loader with checks

`load_segment` copies through raw pointers and computes addresses without
looking at their sizes; it relies on what `parse` has checked.  Here both are
run with a monitor: every read of the parser has to lie in the file, no address
may overflow, every octet that is copied has to come from the file, and it has
to go into a page that was not mapped when the loading of its segment began.
The monitor never finds anything.
-/

namespace IsoLightK0

open Bytes Triples Worlds Runs

inductive ReadFault
  | outsideData
  deriving DecidableEq, Repr

/-- The parser may end with an error of its own, or with a fault. -/
abbrev CheckedParse := Except (Monitored ElfError ReadFault)

def requireRead (data : List Byte) (off len : ℕ) : CheckedParse Unit :=
  if off + len ≤ data.length then .ok () else .error (.fault .outsideData)

def rejectChecked (c : Prop) [Decidable c] (e : ElfError) :
    CheckedParse Unit :=
  (reject c e).mapError .exit

/-- One round of the loop; the program header is read as a whole. -/
def parseProgramHeaderChecked (data : List Byte) (off : ℕ)
    (loads : List ProgramHeader) : CheckedParse (List ProgramHeader) := do
  requireRead data off programHeaderSize
  (parseProgramHeader data off loads).mapError .exit

def parseLoadsChecked (data : List Byte) (phoff : ℕ) :
    ℕ → CheckedParse (List ProgramHeader)
  | 0 => .ok []
  | n + 1 => do
      let loads ← parseLoadsChecked data phoff n
      parseProgramHeaderChecked data (phoff + n * programHeaderSize) loads

def parseChecked (data : List Byte) : CheckedParse Elf64Image := do
  rejectChecked (data.length < elfHeaderSize) .truncated
  requireRead data 0 elfHeaderSize
  let header := ElfHeader.read data
  (header.check data.length).mapError .exit
  let loads ← parseLoadsChecked data header.ePhoff.toNat header.ePhnum.toNat
  rejectChecked (¬ isUserVa (header.eEntry &&& ~~~0xFFF#64)) .badVirtualAddress
  pure { entry := header.eEntry, loads := loads, raw := data }

section Parser

variable {data : List Byte}

theorem requireRead_bind {α : Type} {off len : ℕ}
    {f : Unit → CheckedParse α} (h : off + len ≤ data.length) :
    (requireRead data off len >>= f) = f () := by
  rw [requireRead, if_pos h]
  rfl

theorem rejectChecked_bind {α : Type} {c : Prop} [Decidable c] {e : ElfError}
    {f : Unit → CheckedParse α} {g : Unit → Except ElfError α}
    (h : ¬ c → f () = (g ()).mapError .exit) :
    (rejectChecked c e >>= f) = (reject c e >>= g).mapError .exit := by
  unfold rejectChecked reject
  by_cases hc : c
  · rw [if_pos hc]
    rfl
  · rw [if_neg hc]
    exact h hc

/-- The program headers that the loop reads lie in the file. -/
theorem parseLoadsChecked_eq {phoff n : ℕ}
    (h : phoff + n * programHeaderSize ≤ data.length) :
    parseLoadsChecked data phoff n =
      (parseLoads data phoff n).mapError .exit := by
  induction n with
  | zero => rfl
  | succ n ih =>
    rw [Nat.succ_mul] at h
    rw [parseLoadsChecked, ih (by omega), parseLoads]
    cases parseLoads data phoff n with
    | error e => rfl
    | ok loads => exact requireRead_bind (by omega)

theorem ElfHeader.check_ok {header : ElfHeader} {dataLen : ℕ}
    (h : header.check dataLen = .ok ()) :
    header.ePhoff.toNat + header.ePhnum.toNat * programHeaderSize ≤
      dataLen := by
  unfold ElfHeader.check at h
  iterate 7 obtain ⟨-, h⟩ := reject_bind_ok h
  exact Nat.not_lt.mp (reject_ok h)

/-- No read of the parser falls outside the file. -/
theorem parseChecked_eq (data : List Byte) :
    parseChecked data = (parse data).mapError .exit := by
  unfold parseChecked parse
  dsimp only
  apply rejectChecked_bind
  intro hlen
  rw [requireRead_bind (by omega)]
  cases hcheck : (ElfHeader.read data).check data.length with
  | error e => rfl
  | ok _ =>
    have hbound := ElfHeader.check_ok hcheck
    show (parseLoadsChecked _ _ _ >>= _) = _
    rw [parseLoadsChecked_eq hbound]
    show _ = (parseLoads _ _ _ >>= _).mapError _
    cases parseLoads data (ElfHeader.read data).ePhoff.toNat
        (ElfHeader.read data).ePhnum.toNat with
    | error e => rfl
    | ok loads => exact rejectChecked_bind fun _ => rfl

/-- The header is neither `PT_INTERP` nor `PT_DYNAMIC`. -/
def ProgramHeader.Static (ph : ProgramHeader) : Prop :=
  ph.pType ≠ 3 ∧ ph.pType ≠ 2

theorem parseProgramHeader_static {off : ℕ} {loads loads' : List ProgramHeader}
    (h : parseProgramHeader data off loads = .ok loads') :
    (ProgramHeader.read data off).Static := by
  unfold parseProgramHeader at h
  dsimp only at h
  by_cases hdynamic : (ProgramHeader.read data off).pType = 3 ∨
      (ProgramHeader.read data off).pType = 2
  · rw [if_pos hdynamic] at h
    cases h
  · exact not_or.mp hdynamic

theorem parseLoads_static {phoff n : ℕ} {loads : List ProgramHeader}
    (h : parseLoads data phoff n = .ok loads) :
    ∀ i, i < n →
      (ProgramHeader.read data (phoff + i * programHeaderSize)).Static := by
  induction n generalizing loads with
  | zero =>
    intro i hi
    exact absurd hi (Nat.not_lt_zero i)
  | succ n ih =>
    rw [parseLoads] at h
    obtain ⟨previous, hprev, hlast⟩ := exists_of_bind_eq_ok h
    intro i hi
    rcases Nat.lt_succ_iff_lt_or_eq.mp hi with hlt | rfl
    · exact ih hprev i hlt
    · exact parseProgramHeader_static hlast

end Parser

/-! ## The loader -/

inductive LoaderFault
  | overflow
  | outsideImage
  | outsidePage
  deriving DecidableEq, Repr

abbrev CheckedLoad := Prog Physical (Monitored ProcessError LoaderFault)

def mapUserRegionChecked (space : ℕ) (baseVa : BitVec 64) (pages : ℕ)
    (write : Bool) : CheckedLoad Unit := do
  Prog.exitIf (¬ isUserVa baseVa) (.exit .badAddress)
  Prog.foldRange pages () fun i _ => do
    check (i * pageSize < 2 ^ 64) .overflow
    check (baseVa.toNat + i * pageSize < 2 ^ 64) .overflow
    (mapFreshPage space (pageVa baseVa i) write).mapExit .exit

/-- The copy loop; `before` is the memory when the loading of the segment
began. -/
def copySegmentChecked (before : Mem) (space : ℕ) (ph : ProgramHeader)
    (raw : List Byte) (copied : ℕ) : CheckedLoad Unit :=
  if _h : copied < ph.pFilesz.toNat then do
    check (ph.pVaddr.toNat + copied < 2 ^ 64) .overflow
    let va := ph.pVaddr + BitVec.ofNat 64 copied
    let phys ← (physOf space (va &&& ~~~0xFFF#64)).mapExit .exit
    let pageOff := (va &&& 0xFFF#64).toNat
    check (pageOff ≤ pageSize) .overflow
    let chunk := min (ph.pFilesz.toNat - copied) (pageSize - pageOff)
    check (ph.pOffset.toNat + copied < 2 ^ 64) .overflow
    check (ph.pOffset.toNat + copied + chunk ≤ raw.length) .outsideImage
    check (phys + pageOff < 2 ^ 64) .overflow
    -- the page was not mapped, and is now mapped to the frame at `phys`
    check (walkToPhys before space (va &&& ~~~0xFFF#64) = none ∧
      pageOff + chunk ≤ pageSize) .outsidePage
    (copyToPhys (phys + pageOff)
      ((raw.drop (ph.pOffset.toNat + copied)).take chunk)).mapExit .exit
    check (copied + chunk < 2 ^ 64) .overflow
    copySegmentChecked before space ph raw (copied + chunk)
  else
    pure ()
termination_by ph.pFilesz.toNat - copied
decreasing_by
  have hoff := pageOffset_lt (ph.pVaddr + BitVec.ofNat 64 copied)
  omega

def loadSegmentChecked (space : ℕ) (ph : ProgramHeader) (raw : List Byte) :
    CheckedLoad Unit := do
  let before ← get
  check (ph.pVaddr.toNat + ph.pMemsz.toNat < 2 ^ 64) .overflow
  check (ph.pVaddr.toNat + ph.pMemsz.toNat + 0xFFF < 2 ^ 64) .overflow
  check (ph.vaStart.toNat ≤ ph.vaEnd.toNat) .overflow
  mapUserRegionChecked space ph.vaStart ph.pages ph.isWritable
  copySegmentChecked before.mem space ph raw 0

def loadSegmentsChecked (space : ℕ) (raw : List Byte) :
    List ProgramHeader → CheckedLoad Unit
  | [] => pure ()
  | ph :: loads => do
      loadSegmentChecked space ph raw
      loadSegmentsChecked space raw loads

/-- Steps 1 to 3 of `spawn_elf`, with checks in `load_segment`. -/
def buildElfChecked (stack : BootStack) (kernelSpace : ℕ)
    (image : Elf64Image) : CheckedLoad UserImage := do
  let space ← (allocUserAddressSpace stack kernelSpace).mapExit .exit
  loadSegmentsChecked space image.raw image.loads
  let range ← (mapUserStack space defaultUserStackTop
    defaultUserStackSize).mapExit .exit
  pure { pml4Phys := space, entryRip := image.entry, stackRange := range }

/-! ## No fault -/

section Loader

variable {space : ℕ} {ph : ProgramHeader} {raw : List Byte} {pages : PageMap}

theorem mapUserRegion_passes {base : BitVec 64} {k : ℕ}
    (h : UserRegion base k) (write : Bool) (A : World → Physical → Prop) :
    Passes (UserSpace space) A (mapUserRegion space base k write)
      (mapUserRegionChecked space base k write) := by
  refine Passes.exitIf_bind fun _ => ?_
  refine Passes.weaken (Passes.foldRange
    (L := fun _ _ => Pages (fun _ => True) 0) k () ?_ ?_)
    fun _ _ _ _ => Pages.of_true
  · intro i _ _
    exact ((loads_userSpace space).fresh (pageVa base i) write).weaken
      (fun _ _ _ hpre => hpre) fun _ _ _ hpost => hpost.1
  · intro i hi _
    have hend : base.toNat + i * pageSize < 2 ^ 64 := by
      rw [← h.toNat_pageVa hi]
      exact BitVec.isLt _
    exact Passes.check_bind (fun _ _ _ _ => by omega)
      (Passes.check_bind (fun _ _ _ _ => hend) (Passes.unchecked _))

theorem copySegment_passes {before : Mem} (h : ph.WellPlaced raw.length)
    (hword : ph.pOffset.toNat + ph.pFilesz.toNat < 2 ^ 64)
    (hnew : ∀ i, i < ph.pages → pages (pageVa ph.pVaddr i) = none)
    (hbefore : ∀ i, i < ph.pages →
      walkToPhys before space (pageVa ph.pVaddr i) = none) (c : ℕ)
    (hc : c ≤ ph.pFilesz.toNat) :
    Passes (UserSpace space) (Filled pages ph raw c)
      (copySegment space ph raw c)
      (copySegmentChecked before space ph raw c) := by
  induction hm : ph.pFilesz.toNat - c using Nat.strong_induction_on
    generalizing c with
  | _ m ih =>
    rcases Nat.eq_or_lt_of_le hc with rfl | hlt
    · rw [copySegment_of_ge le_rfl, copySegmentChecked,
        dif_neg (Nat.lt_irrefl _)]
      exact Passes.pure ()
    have hin := h.in_file
    have hsize := h.filesz_le
    have hend := h.in_user_half
    have hfile := ph.pFilesz.isLt
    have hlen := length_nextChunk h hlt
    obtain ⟨hindex, hfit, hpos⟩ := nextChunk_fits h hlt
    have hmod : c % pageSize < pageSize := Nat.mod_lt _ (by decide)
    have hrest := ih _ (by omega) (c + (nextChunk ph raw c).length)
      (by omega) rfl
    rw [copySegment, Platform.copySegment, dif_pos hlt, copySegmentChecked,
      dif_pos hlt]
    dsimp only
    rw [h.page_eq hlt, h.offset_eq c, ← hlen]
    refine Passes.check_bind (fun _ _ _ _ => by omega) (Passes.of_exists ?_)
    rintro pages' ⟨hle, hregion⟩
    obtain ⟨page, hpage, -⟩ := hregion _ hindex
    refine Passes.bind (Passes.unchecked _) (physOf_holds hpage) fun phys => ?_
    have hphys : ∀ w s, UserSpace space w s →
        phys = page.frame ∧ Holds pages' w s →
          phys + c % pageSize < 2 ^ 64 := by
      rintro w s - ⟨rfl, -⟩
      have hbound := page.bound
      unfold pageSize at hmod ⊢
      omega
    refine Passes.check_bind (fun _ _ _ _ => by omega)
      (Passes.check_bind (fun _ _ _ _ => by omega)
        (Passes.check_bind (fun _ _ _ _ => by omega)
          (Passes.check_bind hphys (Passes.check_bind
            (fun _ _ _ _ => ⟨hbefore _ hindex, hfit⟩) ?_))))
    have hbytes : (raw.drop (ph.pOffset.toNat + c)).take
        (nextChunk ph raw c).length = nextChunk ph raw c := by
      rw [hlen]
      rfl
    rw [hbytes]
    refine Passes.bind (Passes.unchecked _)
      ((copyToPhys_holds hpage hfit phys).weaken (fun _ _ _ hpre => hpre)
        fun _ _ _ hholds =>
          Filled.of_copied h hnew hlt hle hregion hpage hholds) fun _ => ?_
    exact Passes.check_bind (fun _ _ _ _ => by omega) hrest

/-- The addresses of a segment do not overflow, and what is copied goes from
the file to pages of the segment. -/
theorem loadSegment_passes (h : ph.WellPlaced raw.length)
    (hword : ph.pOffset.toNat + ph.pFilesz.toNat < 2 ^ 64) :
    Passes (UserSpace space) (Holds pages) (loadSegment space ph raw)
      (loadSegmentChecked space ph raw) := by
  refine Passes.get_bind fun w₀ s₀ hspace₀ hholds₀ => ?_
  have hend := h.in_user_half
  have hvaEnd := h.toNat_vaEnd_eq
  refine Passes.check_bind (fun _ _ _ _ => by omega)
    (Passes.check_bind (fun _ _ _ _ => by omega)
      (Passes.check_bind (fun _ _ _ _ => ?_) ?_))
  · rw [h.vaStart_eq, hvaEnd]
    exact Nat.le_add_right _ _
  rw [loadSegment_eq h, h.vaStart_eq]
  have hstart : ∀ w s, UserSpace space w s → w = w₀ ∧ s = s₀ →
      Holds pages w s ∧ Extends w₀.leaves w := by
    rintro w s - ⟨rfl, rfl⟩
    exact ⟨hholds₀, fun _ _ hleaf => hleaf⟩
  have hregion : Evolves (UserSpace space) False
      (fun w s => w = w₀ ∧ s = s₀)
      (mapUserRegion space ph.pVaddr ph.pages ph.isWritable) _ :=
    (mapUserRegion_holds ph.pVaddr ph.pages ph.isWritable).weaken hstart
      fun _ _ _ hpost => hpost
  refine Passes.bind (mapUserRegion_passes h.userRegion _ _) hregion
    fun _ => Passes.of_exists ?_
  rintro pages' ⟨hle, hpages, hnew⟩
  have hbefore : ∀ i, i < ph.pages →
      walkToPhys s₀.mem space (pageVa ph.pVaddr i) = none := by
    intro i hi
    obtain ⟨huser, -, hleaf⟩ := hnew i hi
    have hlow := ((isUserVa_iff _).mp huser).1
    rw [Space.walkToPhys_eq hspace₀ (tableIndex_four_lt hlow), hleaf]
    rfl
  refine (copySegment_passes h hword (fun i hi => (hnew i hi).2.1) hbefore 0
    (Nat.zero_le _)).weaken fun w s _ hpre => ?_
  exact ⟨pages', ⟨hle, (image_zero ph raw).symm ▸ hpages⟩, hpre.1⟩

theorem loadSegments_passes {loads : List ProgramHeader}
    (hchecked : ∀ ph ∈ loads, checkLoad ph raw.length = .ok ()) :
    Passes (UserSpace space) (Holds pages) (loadSegments space raw loads)
      (loadSegmentsChecked space raw loads) := by
  induction loads generalizing pages with
  | nil => exact Passes.pure ()
  | cons ph loads ih =>
    have hph := hchecked ph List.mem_cons_self
    have hplaced := checkLoad_ok hph
    refine Passes.bind (loadSegment_passes hplaced (checkLoad_offset_lt hph))
      (loadSegment_holds hplaced) fun _ => Passes.of_exists fun pages' _ => ?_
    exact ih fun ph' hmem => hchecked ph' (List.mem_cons_of_mem _ hmem)

theorem buildElf_passes {stack : BootStack} {kernelSpace : ℕ}
    {image : Elf64Image} {s : Physical} (hreserved : stack.Reserved s)
    (hchecked : ∀ ph ∈ image.loads,
      checkLoad ph image.raw.length = .ok ()) :
    (buildElfChecked stack kernelSpace image).eval s =
      ((buildElf stack kernelSpace image).mapExit .exit).eval s := by
  rw [buildElfChecked, Prog.eval_bind, Prog.eval_mapExit, Prog.eval_mapExit,
    buildElf_eq, Prog.eval_bind]
  rcases halloc : (allocUserAddressSpace stack kernelSpace).eval s with
    ⟨e | space, s₁⟩
  · rfl
  · obtain ⟨w, hspace⟩ := allocUserAddressSpace_eq_ok hreserved halloc
    have hload : Evolves (UserSpace space) False (Holds fun _ => none) _ _ :=
      loadSegments_holds fun ph hmem => checkLoad_ok (hchecked ph hmem)
    have hrest := Passes.bind (loadSegments_passes hchecked) hload fun _ =>
      Passes.of_exists fun pages _ => Passes.bind (Passes.unchecked _)
        mapUserStack_holds fun range => Passes.pure (UserImage.mk space
          image.entry range)
    exact hrest w s₁ hspace (Holds.nothing w s₁)

end Loader

/-! ## Spawned programs -/

/-- The file range of the segment lies in the file, its file part fits into
its memory part, and its pages lie in the user half. -/
structure ProgramHeader.InBounds (ph : ProgramHeader) (dataLen : ℕ) :
    Prop where
  in_file : ph.pOffset.toNat + ph.pFilesz.toNat ≤ dataLen
  filesz_le : ph.pFilesz.toNat ≤ ph.pMemsz.toNat
  start_le : ph.vaStart.toNat ≤ ph.pVaddr.toNat
  le_end : ph.pVaddr.toNat + ph.pMemsz.toNat ≤ ph.vaEnd.toNat
  in_user_half : ph.vaEnd.toNat ≤ 2 ^ 47

theorem ProgramHeader.WellPlaced.inBounds {ph : ProgramHeader} {dataLen : ℕ}
    (h : ph.WellPlaced dataLen) : ph.InBounds dataLen where
  in_file := h.in_file
  filesz_le := h.filesz_le
  start_le := by rw [h.vaStart_eq]
  le_end := by
    rw [h.toNat_vaEnd_eq]
    exact Nat.add_le_add_left h.memsz_le _
  in_user_half := by
    rw [h.toNat_vaEnd_eq]
    exact h.userRegion.2

/-- No read of the parser falls outside the file.  What it accepts is
statically linked and has its segments in bounds; and after any run of spawn
calls, loading it makes no address overflow, reads the file only and writes
only to pages that the loading of the same segment has mapped. -/
theorem elf_loading_checked (data : List Byte) :
    parseChecked data = (parse data).mapError .exit ∧
    ∀ image, parse data = .ok image →
      (∀ i, i < (ElfHeader.read data).ePhnum.toNat →
        (ProgramHeader.read data ((ElfHeader.read data).ePhoff.toNat +
          i * programHeaderSize)).Static) ∧
      (∀ ph ∈ image.loads, ph.InBounds data.length) ∧
      ∀ (stack : BootStack) (kernelSpace : ℕ) (boot sys : System)
        (history : List (SpawnCall × Except ProcessError ProcessId)),
        stack.Reserved boot.phys →
          Run (spawnStep stack kernelSpace) boot history sys →
            (buildElfChecked stack kernelSpace image).eval sys.phys =
              ((buildElf stack kernelSpace image).mapExit .exit).eval
                sys.phys := by
  refine ⟨parseChecked_eq data, fun image hparse => ?_⟩
  obtain ⟨rfl, hloads⟩ := parse_eq_ok hparse
  have hchecked := parseLoads_ok hloads
  refine ⟨parseLoads_static hloads,
    fun ph hmem => (checkLoad_ok (hchecked ph hmem)).inBounds, ?_⟩
  intro stack kernelSpace boot sys history hreserved hrun
  exact buildElf_passes (spawn_run_reserved hreserved hrun) hchecked

/-- The program of one segment is loaded under the monitor as well. -/
theorem haltElf_checked :
    parseChecked (haltElf 5) = .ok (haltImage 5) ∧
      ∃ user, ((buildElfChecked linkedStack 0x180000 (haltImage 5)).eval
        bootSystem.phys).1 = .ok user := by
  obtain ⟨hparse, hload⟩ := elf_loading_checked (haltElf 5)
  obtain ⟨-, -, hbuild⟩ := hload (haltImage 5) (parse_haltElf 5)
  rw [parse_haltElf] at hparse
  refine ⟨hparse, ?_⟩
  obtain ⟨image, user, himage, huser, -⟩ := spawnElf_eq_ok (spawnedElf_eq 5)
  rw [parse_haltElf] at himage
  cases himage
  rw [hbuild linkedStack 0x180000 bootSystem bootSystem []
    bootSystem_reserved Run.start, Prog.eval_mapExit, huser]
  exact ⟨user, rfl⟩

end IsoLightK0
