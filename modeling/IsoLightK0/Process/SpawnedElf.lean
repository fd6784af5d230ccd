import IsoLightK0.Process.LoadedImage
import IsoLightK0.Process.UserWindow

/-!
# Programs spawned from ELF files

When `spawn_elf` succeeds, the address space of the new process reads as the
file says: every segment has its part of the file, followed by zeros up to the
end of its pages, and the stack is erased.  What a segment reads is settled
when it has been loaded; the segments after it and the stack change nothing.
-/

namespace IsoLightK0

open Bytes Triples Worlds Runs

structure SegmentRead (ph : ProgramHeader) (raw : List Byte)
    (read : BitVec 64 → Option Byte) : Prop where
  file : ∀ i, i < ph.pFilesz.toNat → ∃ b,
    raw[ph.pOffset.toNat + i]? = some b ∧
      read (ph.pVaddr + BitVec.ofNat 64 i) = some b
  bss : ∀ i, ph.pFilesz.toNat ≤ i → i < ph.pMemsz.toNat →
    read (ph.pVaddr + BitVec.ofNat 64 i) = some 0
  rest : ∀ va : BitVec 64, ph.vaStart.toNat ≤ va.toNat →
    va.toNat < ph.vaEnd.toNat →
      (va.toNat < ph.pVaddr.toNat ∨
        ph.pVaddr.toNat + ph.pMemsz.toNat ≤ va.toNat) → read va = some 0

def StackErased (read : BitVec 64 → Option Byte) : Prop :=
  ∀ va : BitVec 64,
    defaultUserStackTop.toNat - defaultUserStackSize ≤ va.toNat →
      va.toNat < defaultUserStackTop.toNat → read va = some 0

def ProgramHeader.Covers (ph : ProgramHeader) (va : BitVec 64) : Prop :=
  ph.vaStart.toNat ≤ va.toNat ∧ va.toNat < ph.vaEnd.toNat

namespace ProgramHeader

variable {ph : ProgramHeader} {raw : List Byte}

theorem image_of_lt (h : ph.WellPlaced raw.length) {i : ℕ}
    (hi : i < ph.pFilesz.toNat) :
    raw[ph.pOffset.toNat + i]? = some (ph.image raw ph.pFilesz.toNat i) := by
  have hin := h.in_file
  have hlen : ph.pOffset.toNat + i < raw.length := by omega
  simp [image, Mem.write, hi, hlen]

theorem image_of_ge {i : ℕ} (hi : ph.pFilesz.toNat ≤ i) :
    ph.image raw ph.pFilesz.toNat i = 0 := by
  apply Mem.write_apply_of_ge
  rw [Nat.zero_add, List.length_take]
  omega

end ProgramHeader

/-- The pages lie in the address space at `space`. -/
def PageMap.MappedIn (pages : PageMap) (space : ℕ) (s : Physical) : Prop :=
  ∃ w, UserSpace space w s ∧ Holds pages w s

namespace PageMap

variable {pages : PageMap} {space : ℕ} {s : Physical} {ph : ProgramHeader}
  {raw : List Byte}

theorem Segment.readOctet_eq (h : pages.Segment ph raw)
    (hplaced : ph.WellPlaced raw.length) (hin : pages.MappedIn space s)
    {va : BitVec 64} (hva : ph.Covers va) :
    readOctet s.mem space va = some
      (ph.image raw ph.pFilesz.toNat (va.toNat - ph.pVaddr.toNat)) := by
  obtain ⟨w, hspace, hholds⟩ := hin
  obtain ⟨hlow, hhigh⟩ := hva
  rw [hplaced.vaStart_eq] at hlow
  rw [hplaced.toNat_vaEnd_eq] at hhigh
  exact hholds.readOctet_of_mem hspace h hlow hhigh

theorem Segment.segmentRead (h : pages.Segment ph raw)
    (hplaced : ph.WellPlaced raw.length) (hin : pages.MappedIn space s) :
    SegmentRead ph raw (readOctet s.mem space) := by
  have hsize := hplaced.filesz_le
  have hread : ∀ i, i < ph.pMemsz.toNat →
      readOctet s.mem space (ph.pVaddr + BitVec.ofNat 64 i) =
        some (ph.image raw ph.pFilesz.toNat i) := by
    intro i hi
    obtain ⟨w, hspace, hholds⟩ := hin
    exact hholds.readOctet_region hspace h
      (Nat.lt_of_lt_of_le hi hplaced.memsz_le)
  constructor
  · intro i hi
    exact ⟨_, ProgramHeader.image_of_lt hplaced hi, hread i (by omega)⟩
  · intro i hlow hhigh
    rw [hread i hhigh, ProgramHeader.image_of_ge hlow]
  · intro va hlow hhigh hout
    rw [h.readOctet_eq hplaced hin ⟨hlow, hhigh⟩, ProgramHeader.image_of_ge]
    rw [hplaced.vaStart_eq] at hlow
    omega

theorem Stack.stackErased (h : pages.Stack) (hin : pages.MappedIn space s) :
    StackErased (readOctet s.mem space) := by
  intro va hlow hhigh
  obtain ⟨w, hspace, hholds⟩ := hin
  exact hholds.readOctet_of_mem hspace h hlow hhigh

end PageMap

/-! ## The parts of `spawn_elf` -/

/-- The part of `spawn_elf` that ends when the segments `loads` have been
loaded. -/
def loadPart (stack : BootStack) (kernelSpace : ℕ) (raw : List Byte)
    (loads : List ProgramHeader) : Prog Physical ProcessError ℕ := do
  let space ← allocUserAddressSpace stack kernelSpace
  loadSegments space raw loads
  pure space

section Parts

variable {stack : BootStack} {kernelSpace : ℕ} {raw : List Byte}
  {s s' : Physical}

theorem buildElf_eq_loadPart {image : Elf64Image}
    {before later : List ProgramHeader}
    (hloads : image.loads = before ++ later) :
    buildElf stack kernelSpace image =
      (loadPart stack kernelSpace image.raw before >>= fun space => do
        loadSegments space image.raw later
        let range ← mapUserStack space defaultUserStackTop defaultUserStackSize
        pure { pml4Phys := space, entryRip := image.entry,
               stackRange := range }) := by
  rw [buildElf_eq, hloads]
  unfold loadPart loadSegments
  simp only [loadSegments_append, bind_assoc, pure_bind]

variable {space : ℕ}

theorem allocUserAddressSpace_eq_ok (hreserved : stack.Reserved s)
    (heval : (allocUserAddressSpace stack kernelSpace).eval s = (.ok space, s')) :
    ∃ w, UserSpace space w s' := by
  have hnothing : False → 193 ≤ 0 := False.elim
  rcases stack.allocUserAddressSpace_spec kernelSpace hreserved
    (BitmapFrameAllocator.room_zero _) hnothing with
    ⟨e, s₁, herror, -⟩ | ⟨space', w, s₁, hok, hspace, -⟩
  · rw [heval] at herror
    cases herror
  · rw [heval] at hok
    cases hok
    exact ⟨w, hspace⟩

theorem loadPart_eq_ok {loads : List ProgramHeader}
    (hreserved : stack.Reserved s)
    (hplaced : ∀ ph ∈ loads, ph.WellPlaced raw.length)
    (heval : (loadPart stack kernelSpace raw loads).eval s = (.ok space, s')) :
    ∃ pages : PageMap, pages.MappedIn space s' ∧
      ∀ ph ∈ loads, pages.Segment ph raw := by
  obtain ⟨space', s₁, halloc, hrest⟩ := Prog.exists_of_eval_bind_eq_ok heval
  obtain ⟨_, s₂, hload, hreturn⟩ := Prog.exists_of_eval_bind_eq_ok hrest
  cases hreturn
  obtain ⟨w, hspace⟩ := allocUserAddressSpace_eq_ok hreserved halloc
  obtain ⟨w', -, hspace', pages, ⟨-, hloads⟩, hholds⟩ :=
    (loadSegments_holds hplaced).of_eval_eq_ok hspace (Holds.nothing w s₁) hload
  exact ⟨pages, ⟨w', hspace', hholds⟩, hloads⟩

theorem rest_eq_ok {pages : PageMap} {later : List ProgramHeader}
    {entry : BitVec 64} {user : UserImage}
    (hplaced : ∀ ph ∈ later, ph.WellPlaced raw.length)
    (hpages : pages.MappedIn space s)
    (heval : Prog.eval (do
        loadSegments space raw later
        let range ← mapUserStack space defaultUserStackTop defaultUserStackSize
        pure { pml4Phys := space, entryRip := entry, stackRange := range }) s =
      (.ok user, s')) :
    user.pml4Phys = space ∧ ∃ pages' : PageMap, pages ≤ pages' ∧
      pages'.MappedIn space s' ∧ pages'.Stack ∧
        ∀ ph ∈ later, pages'.Segment ph raw := by
  obtain ⟨w, hspace, hholds⟩ := hpages
  obtain ⟨_, s₁, hload, hrest⟩ := Prog.exists_of_eval_bind_eq_ok heval
  obtain ⟨w₁, -, hspace₁, pages₁, ⟨hle₁, hloads⟩, hholds₁⟩ :=
    (loadSegments_holds hplaced).of_eval_eq_ok hspace hholds hload
  obtain ⟨range, s₂, hstack, hreturn⟩ := Prog.exists_of_eval_bind_eq_ok hrest
  obtain ⟨w₂, -, hspace₂, pages₂, ⟨hle₂, hpages₂⟩, hholds₂⟩ :=
    mapUserStack_holds.of_eval_eq_ok hspace₁ hholds₁ hstack
  cases hreturn
  exact ⟨rfl, pages₂, hle₁.trans hle₂, ⟨w₂, hspace₂, hholds₂⟩, hpages₂,
    fun ph hmem => (hloads ph hmem).mono hle₂⟩

end Parts

/-! ## When loading succeeds -/

section Success

variable {space : ℕ} {total : Prop} {P : List ℕ → Prop} {n : ℕ}
  {ph : ProgramHeader} {raw : List Byte}

theorem copySegment_evolves (h : ph.WellPlaced raw.length) (c : ℕ) :
    Evolves (UserSpace space) total
      (fun w s => Pages P n w s ∧ RegionMapped ph.pVaddr ph.pages w)
      (copySegment space ph raw c)
      (fun _ w s => Pages P n w s ∧ RegionMapped ph.pVaddr ph.pages w) := by
  induction hm : ph.pFilesz.toNat - c using Nat.strong_induction_on
    generalizing c with
  | _ m ih =>
    rcases Nat.lt_or_ge c ph.pFilesz.toNat with hlt | hge
    · obtain ⟨hindex, hfit, hpos⟩ := nextChunk_fits h hlt
      have huser := (isUserVa_iff _).mp (h.userRegion.isUserVa_pageVa hindex)
      rw [copySegment_of_lt h hlt, bind_assoc]
      exact physOf_copy_evolves huser.1 hfit
        (fun w hmapped _ => (hmapped _ hindex).2)
        (ih _ (by omega) _ rfl)
    · rw [copySegment_of_ge hge]
      exact Evolves.pure () fun _ _ hpre => hpre

theorem loadSegment_evolves (h : ph.WellPlaced raw.length)
    (htotal : total → 4 * ph.pages ≤ n ∧ RegionVacant P ph.pVaddr ph.pages) :
    Evolves (UserSpace space) total (Pages P n) (loadSegment space ph raw)
      (fun _ => Pages (fun path => P path ∨ RegionPath ph.pVaddr ph.pages path)
        (n - 4 * ph.pages)) := by
  rw [loadSegment_eq h]
  refine Evolves.bind (mapUserRegion_evolves fun hreturn =>
    ⟨h.user, htotal hreturn⟩) fun _ => ?_
  exact (copySegment_evolves h 0).weaken (fun _ _ _ hpre => hpre)
    fun _ _ _ hpost => hpost.1

theorem spawnElf_returns {stack : BootStack} {kernelSpace : ℕ} {sys : System}
    {elfBytes : List Byte} {image : Elf64Image} {slot : ProcessId}
    (hparse : parse elfBytes = .ok image) (hloads : image.loads = [ph])
    (hslot : findFreeSlot sys.processes = some slot)
    (hreserved : stack.Reserved sys.phys) (hroom : sys.phys.allocator.Room n)
    (hfits : BootStack.RegionFits stack ph.pVaddr ph.pages)
    (hn : 257 + 4 * ph.pages ≤ n) :
    (spawnElf stack kernelSpace elfBytes sys).1 = .ok slot := by
  obtain ⟨rfl, hplaced⟩ := parse_ok hparse
  have hph : ph.WellPlaced image.raw.length :=
    hplaced ph (hloads ▸ List.mem_singleton_self ph)
  have hsize : defaultUserStackSize / pageSize = 16 := by decide
  have hbuild : stack.Builds True 0 (buildElf stack kernelSpace image)
      sys.phys := by
    refine BootStack.builds_of_evolves hreserved hroom (fun _ => by omega)
      fun space => ?_
    rw [hloads]
    have hload : Evolves (UserSpace space) True
        (Pages (RegionPath stack.bottom 64) (n - 193))
        (loadSegments space image.raw [ph])
        (fun _ => Pages (fun path => RegionPath stack.bottom 64 path ∨
          RegionPath ph.pVaddr ph.pages path) (n - 193 - 4 * ph.pages)) :=
      Evolves.bind (loadSegment_evolves hph fun _ =>
        ⟨by omega, hfits.vacant⟩) fun _ => Evolves.pure () fun _ _ hpost => hpost
    refine Evolves.bind hload fun _ => Evolves.bind
      (mapUserStack_evolves fun _ => ⟨by decide, by decide, by decide,
        by omega, hfits.stack_vacant⟩) fun _ => Evolves.pure _ fun _ _ _ =>
          ⟨rfl, BitmapFrameAllocator.room_zero _⟩
  rw [spawnElf, Platform.spawnElf_of_ok _ hparse]
  obtain ⟨_, _, hspawn, -⟩ := spawnWith_returns hslot hbuild
  exact congrArg Prod.fst hspawn

end Success

/-! ## Spawned programs -/

section Spawned

variable {stack : BootStack} {kernelSpace : ℕ} {boot sys sys' : System}
  {history : List (SpawnCall × Except ProcessError ProcessId)}
  {elfBytes : List Byte} {id : ProcessId}

/-- What has been read of the first segments once they are loaded is still
read when the program is complete. -/
theorem buildElf_eq_ok {image : Elf64Image} {user : UserImage}
    {s s' : Physical} (hreserved : stack.Reserved s)
    (hplaced : ∀ ph ∈ image.loads, ph.WellPlaced image.raw.length)
    (heval : (buildElf stack kernelSpace image).eval s = (.ok user, s'))
    {before later : List ProgramHeader}
    (hloads : image.loads = before ++ later) :
    ∃ s₁ pages, ∃ pages' : PageMap,
      (loadPart stack kernelSpace image.raw before).eval s =
        (.ok user.pml4Phys, s₁) ∧
      pages.MappedIn user.pml4Phys s₁ ∧ pages ≤ pages' ∧
      pages'.MappedIn user.pml4Phys s' ∧ pages'.Stack ∧
      (∀ ph ∈ before, pages.Segment ph image.raw) ∧
        ∀ ph ∈ image.loads, pages'.Segment ph image.raw := by
  rw [hloads] at hplaced
  rw [buildElf_eq_loadPart hloads] at heval
  obtain ⟨space, s₁, hpart, hrest⟩ := Prog.exists_of_eval_bind_eq_ok heval
  obtain ⟨pages, hpages, hbefore⟩ := loadPart_eq_ok hreserved
    (fun ph hmem => hplaced ph (List.mem_append_left _ hmem)) hpart
  obtain ⟨rfl, pages', hle, hpages', hstack, hlater⟩ := rest_eq_ok
    (fun ph hmem => hplaced ph (List.mem_append_right _ hmem)) hpages hrest
  refine ⟨s₁, pages, pages', hpart, hpages, hle, hpages', hstack, hbefore, ?_⟩
  intro ph hmem
  rw [hloads] at hmem
  rcases List.mem_append.mp hmem with hearly | hlate
  · exact (hbefore ph hearly).mono hle
  · exact hlater ph hlate

/-- After any run of spawn calls, `spawn_elf` has loaded all segments. -/
theorem spawnElf_segments (hreserved : stack.Reserved boot.phys)
    (hrun : Run (spawnStep stack kernelSpace) boot history sys)
    (hspawn : spawnElf stack kernelSpace elfBytes sys = (.ok id, sys')) :
    ∃ image process, ∃ pages : PageMap, parse elfBytes = .ok image ∧
      sys'.processes id = some process ∧
      pages.MappedIn process.pml4Phys sys'.phys ∧
      ∀ ph ∈ image.loads,
        ph.WellPlaced elfBytes.length ∧ pages.Segment ph elfBytes := by
  obtain ⟨image, user, hparse, hbuild, hprocess⟩ := spawnElf_eq_ok hspawn
  obtain ⟨rfl, hplaced⟩ := parse_ok hparse
  obtain ⟨_, _, pages, -, -, -, hpages, -, -, hloads⟩ :=
    buildElf_eq_ok (spawn_run_reserved hreserved hrun) hplaced hbuild
      (List.append_nil _).symm
  exact ⟨image, user.process id, pages, hparse, hprocess, hpages,
    fun ph hmem => ⟨hplaced ph hmem, hloads ph hmem⟩⟩

/-- After any run of spawn calls, a program that `spawn_elf` loads reads as
its file says, and no segment is changed after it has been loaded. -/
theorem spawnElf_contents (hreserved : stack.Reserved boot.phys)
    (hrun : Run (spawnStep stack kernelSpace) boot history sys)
    (hspawn : spawnElf stack kernelSpace elfBytes sys = (.ok id, sys')) :
    ∃ image process, parse elfBytes = .ok image ∧
      sys'.processes id = some process ∧
      (∀ ph ∈ image.loads, SegmentRead ph elfBytes
        (readOctet sys'.phys.mem process.pml4Phys)) ∧
      StackErased (readOctet sys'.phys.mem process.pml4Phys) ∧
      ∀ before later, image.loads = before ++ later → ∃ s₁,
        (loadPart stack kernelSpace elfBytes before).eval sys.phys =
          (.ok process.pml4Phys, s₁) ∧
        ∀ ph ∈ before, ∀ va, ph.Covers va →
          readOctet sys'.phys.mem process.pml4Phys va =
            readOctet s₁.mem process.pml4Phys va := by
  have hsys := spawn_run_reserved hreserved hrun
  obtain ⟨image, user, hparse, hbuild, hprocess⟩ := spawnElf_eq_ok hspawn
  obtain ⟨rfl, hplaced⟩ := parse_ok hparse
  refine ⟨image, user.process id, hparse, hprocess, ?_⟩
  obtain ⟨s₁, pages, pages', -, -, -, hpages, hstack, -, hloads⟩ :=
    buildElf_eq_ok hsys hplaced hbuild (List.append_nil _).symm
  refine ⟨fun ph hmem => (hloads ph hmem).segmentRead (hplaced ph hmem) hpages,
    hstack.stackErased hpages, ?_⟩
  intro before later happend
  obtain ⟨s₁, pages, pages', hpart, hpages, hle, hpages', -, hbefore, -⟩ :=
    buildElf_eq_ok hsys hplaced hbuild happend
  refine ⟨s₁, hpart, fun ph hmem va hva => ?_⟩
  have hph : ph.WellPlaced image.raw.length :=
    hplaced ph (happend ▸ List.mem_append_left _ hmem)
  have hloaded := (hbefore ph hmem).readOctet_eq hph hpages hva
  have hend := ((hbefore ph hmem).mono hle).readOctet_eq hph hpages' hva
  exact hend.trans hloaded.symm

end Spawned

/-! ## A program of one segment -/

/-- An executable whose only segment has one octet, a `hlt` instruction, in
the file and two in memory. -/
def haltElf (flags : Byte) : List Byte :=
  -- the file header
  [0x7F, 0x45, 0x4C, 0x46, 2, 1, 1, 0, 0, 0, 0, 0, 0, 0, 0, 0,
    2, 0, 62, 0, 1, 0, 0, 0, 0, 0, 0x40, 0, 0, 0, 0, 0,
    64, 0, 0, 0, 0, 0, 0, 0, 0, 0, 0, 0, 0, 0, 0, 0,
    0, 0, 0, 0, 64, 0, 56, 0, 1, 0, 64, 0, 0, 0, 0, 0,
    -- the program header
    1, 0, 0, 0, flags, 0, 0, 0, 120, 0, 0, 0, 0, 0, 0, 0,
    0, 0, 0x40, 0, 0, 0, 0, 0, 0, 0, 0x40, 0, 0, 0, 0, 0,
    1, 0, 0, 0, 0, 0, 0, 0, 2, 0, 0, 0, 0, 0, 0, 0,
    0, 0x10, 0, 0, 0, 0, 0, 0,
    -- the instruction
    0xF4]

def haltSegment (flags : BitVec 32) : ProgramHeader where
  pType := 1
  pFlags := flags
  pOffset := 120
  pVaddr := 0x400000
  pFilesz := 1
  pMemsz := 2
  pAlign := 4096

def haltHeader : ElfHeader where
  eIdentMagic := elfMagic
  eIdentClass := 2
  eIdentData := 1
  eIdentVersion := 1
  eType := 2
  eMachine := 62
  eVersion := 1
  eEntry := 0x400000
  ePhoff := 64
  ePhentsize := 56
  ePhnum := 1

variable (flags : Byte)

theorem read_haltElf : ElfHeader.read (haltElf flags) = haltHeader := by
  simp [ElfHeader.read, elfField, haltElf, haltHeader, elfMagic, wordOfLe, ofLe]

theorem read_haltElf_segment :
    ProgramHeader.read (haltElf flags) 64 =
      haltSegment (wordOfLe 32 [flags, 0, 0, 0]) := by
  simp [ProgramHeader.read, elfField, haltElf, haltSegment, wordOfLe, ofLe]

theorem checkLoad_haltSegment (flags : BitVec 32) :
    checkLoad (haltSegment flags) 121 = .ok () := by
  simp [checkLoad, reject, haltSegment, pageSize]
  rfl

theorem parseLoads_haltElf :
    parseLoads (haltElf flags) 64 1 =
      .ok [haltSegment (wordOfLe 32 [flags, 0, 0, 0])] := by
  have hlength : (haltElf flags).length = 121 := rfl
  have hheader : parseProgramHeader (haltElf flags) 64 [] =
      (checkLoad (haltSegment (wordOfLe 32 [flags, 0, 0, 0])) 121 >>= fun _ =>
        .ok [haltSegment (wordOfLe 32 [flags, 0, 0, 0])]) := by
    rw [parseProgramHeader, read_haltElf_segment, hlength]
    rfl
  have hfirst : parseLoads (haltElf flags) 64 1 =
      parseProgramHeader (haltElf flags) 64 [] := rfl
  rw [hfirst, hheader, checkLoad_haltSegment]
  rfl

def haltImage (flags : Byte) : Elf64Image where
  entry := 0x400000
  loads := [haltSegment (wordOfLe 32 [flags, 0, 0, 0])]
  raw := haltElf flags

theorem parse_haltElf : parse (haltElf flags) = .ok (haltImage flags) := by
  have hlength : (haltElf flags).length = 121 := rfl
  have hphoff : haltHeader.ePhoff.toNat = 64 := by decide
  have hphnum : haltHeader.ePhnum.toNat = 1 := by decide
  simp only [parse, ElfHeader.check, read_haltElf, hlength, hphoff, hphnum,
    parseLoads_haltElf]
  rfl

def spawnedElf (flags : Byte) : Except ProcessError ProcessId × System :=
  spawnElf linkedStack 0x180000 (haltElf flags) bootSystem

theorem pages_haltSegment (flags : BitVec 32) :
    (haltSegment flags).pages = 1 := by
  have hpages : (haltSegment 0).pages = 1 := by decide
  exact hpages

theorem regionFits_haltSegment (flags : BitVec 32) :
    BootStack.RegionFits linkedStack (haltSegment flags).pVaddr
      (haltSegment flags).pages := by
  have hfits : BootStack.RegionFits linkedStack 0x400000 1 :=
    ⟨⟨by decide, by decide⟩, by decide, by decide⟩
  rw [pages_haltSegment]
  exact hfits

theorem spawnedElf_eq :
    spawnedElf flags = (.ok firstSlot, (spawnedElf flags).2) := by
  have hroom : ∀ f, 257 + 4 * (haltSegment f).pages ≤ 522 := by
    intro f
    rw [pages_haltSegment]
    decide
  have hok : (spawnElf linkedStack 0x180000 (haltElf flags) bootSystem).1 =
      .ok firstSlot :=
    spawnElf_returns (parse_haltElf flags) rfl (by decide) bootSystem_reserved
      bootSystem_room (regionFits_haltSegment _) (hroom _)
  have hpair : ∀ outcome : Except ProcessError ProcessId × System,
      outcome.1 = .ok firstSlot → outcome = (.ok firstSlot, outcome.2) := by
    rintro ⟨r, after⟩ rfl
    rfl
  exact hpair _ hok

/-- The instruction, the octet after it and the last octet of the page. -/
theorem spawnedElf_contents :
    (spawnedElf 5).1 = .ok firstSlot ∧ ∃ process,
      (spawnedElf 5).2.processes firstSlot = some process ∧
      readOctet (spawnedElf 5).2.phys.mem process.pml4Phys 0x400000 =
        some 0xF4 ∧
      readOctet (spawnedElf 5).2.phys.mem process.pml4Phys 0x400001 =
        some 0 ∧
      readOctet (spawnedElf 5).2.phys.mem process.pml4Phys 0x400FFF =
        some 0 := by
  have hspawn := spawnedElf_eq 5
  refine ⟨congrArg Prod.fst hspawn, ?_⟩
  obtain ⟨image, process, hparse, hprocess, hsegments, -⟩ :=
    spawnElf_contents bootSystem_reserved Run.start hspawn
  rw [parse_haltElf] at hparse
  cases hparse
  have hread := hsegments _ (List.mem_singleton_self _)
  obtain ⟨b, hb, hfile⟩ := hread.file 0 Nat.one_pos
  cases hb
  have hrest := hread.rest 0x400FFF (by decide) (by decide) (by decide)
  exact ⟨process, hprocess, hfile, hread.bss 1 (by decide) (by decide), hrest⟩

end IsoLightK0
