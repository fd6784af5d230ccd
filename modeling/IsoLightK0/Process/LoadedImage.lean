import IsoLightK0.Mmu.Translation
import IsoLightK0.Process.Contents
import IsoLightK0.Process.SpawnRun

/-!
# The contents of a loaded program

The segments of a program are loaded one after the other, each into pages that
were not mapped before.  So the pages of a segment hold its part of the file,
followed by zeros, from the time it is loaded to the end of `spawn_elf`.
-/

namespace IsoLightK0

open Bytes Triples Worlds Runs

namespace ProgramHeader

/-- The start of the first page, as `load_segment` computes it. -/
def vaStart (ph : ProgramHeader) : BitVec 64 := ph.pVaddr &&& ~~~0xFFF#64

/-- The end of the last page, as `load_segment` computes it. -/
def vaEnd (ph : ProgramHeader) : BitVec 64 :=
  (ph.pVaddr + ph.pMemsz + 0xFFF#64) &&& ~~~0xFFF#64

def pages (ph : ProgramHeader) : ℕ :=
  (ph.vaEnd - ph.vaStart).toNat / pageSize

/-- The pages after `c` octets of the file part have been copied. -/
def image (ph : ProgramHeader) (raw : List Byte) (c : ℕ) : Mem :=
  Mem.write (fun _ => 0) 0 ((raw.drop ph.pOffset.toNat).take c)

namespace WellPlaced

variable {ph : ProgramHeader} {dataLen : ℕ} (h : ph.WellPlaced dataLen)

include h

theorem pVaddr_mod :
    ph.pVaddr.toNat % pageSize = 0 := by
  have haligned := ((isUserVa_iff _).mp h.user).2
  rw [unaligned_eq, decide_eq_false_iff_not, not_not] at haligned
  exact haligned

theorem vaStart_eq : ph.vaStart = ph.pVaddr := by
  apply BitVec.eq_of_toNat_eq
  have hmod := h.pVaddr_mod
  have hfloor : ph.vaStart.toNat = ph.pVaddr.toNat / 2 ^ 12 * 2 ^ 12 :=
    toNat_and_not_low ph.pVaddr 12
  unfold pageSize at hmod
  omega

theorem toNat_vaEnd :
    ph.vaEnd.toNat =
      (ph.pVaddr.toNat + ph.pMemsz.toNat + 4095) / 2 ^ 12 * 2 ^ 12 := by
  have hend := h.in_user_half
  have hfloor : ph.vaEnd.toNat =
      (ph.pVaddr + ph.pMemsz + 0xFFF#64).toNat / 2 ^ 12 * 2 ^ 12 :=
    toNat_and_not_low _ 12
  have hsum : (ph.pVaddr + ph.pMemsz + 0xFFF#64).toNat =
      ph.pVaddr.toNat + ph.pMemsz.toNat + 4095 := by
    have hlow : (0xFFF#64).toNat = 4095 := rfl
    rw [BitVec.toNat_add, BitVec.toNat_add, hlow]
    omega
  rw [hfloor, hsum]

theorem toNat_vaEnd_eq :
    ph.vaEnd.toNat = ph.pVaddr.toNat + ph.pages * pageSize := by
  have hmod := h.pVaddr_mod
  have hend := h.toNat_vaEnd
  have hsub : (ph.vaEnd - ph.vaStart).toNat =
      ph.vaEnd.toNat - ph.pVaddr.toNat := by
    have hlt := ph.vaEnd.isLt
    rw [h.vaStart_eq, BitVec.toNat_sub]
    unfold pageSize at hmod
    omega
  rw [pages, hsub]
  unfold pageSize at hmod ⊢
  omega

theorem memsz_le :
    ph.pMemsz.toNat ≤ ph.pages * pageSize := by
  have hend := h.toNat_vaEnd
  rw [h.toNat_vaEnd_eq] at hend
  omega

theorem userRegion :
    UserRegion ph.pVaddr ph.pages := by
  refine ⟨((isUserVa_iff _).mp h.user).2, ?_⟩
  have hin := h.in_user_half
  have hend := h.toNat_vaEnd
  rw [← h.toNat_vaEnd_eq]
  omega

theorem page_eq {c : ℕ} (hc : c < ph.pFilesz.toNat) :
    (ph.pVaddr + BitVec.ofNat 64 c) &&& ~~~0xFFF#64 =
      pageVa ph.pVaddr (c / pageSize) := by
  apply BitVec.eq_of_toNat_eq
  have hmod := h.pVaddr_mod
  have hsize := h.filesz_le
  have hend := h.in_user_half
  have hfloor : ((ph.pVaddr + BitVec.ofNat 64 c) &&& ~~~0xFFF#64).toNat =
      (ph.pVaddr + BitVec.ofNat 64 c).toNat / 2 ^ 12 * 2 ^ 12 :=
    toNat_and_not_low _ 12
  rw [hfloor, pageVa, BitVec.toNat_add, BitVec.toNat_add, BitVec.toNat_ofNat,
    BitVec.toNat_ofNat]
  unfold pageSize at hmod ⊢
  omega

theorem offset_eq (c : ℕ) :
    ((ph.pVaddr + BitVec.ofNat 64 c) &&& 0xFFF#64).toNat = c % pageSize := by
  have hmod := h.pVaddr_mod
  have hlow : ((ph.pVaddr + BitVec.ofNat 64 c) &&& 0xFFF#64).toNat =
      (ph.pVaddr + BitVec.ofNat 64 c).toNat % 2 ^ 12 := by
    rw [BitVec.toNat_and]
    exact Nat.and_two_pow_sub_one_eq_mod _ 12
  rw [hlow, BitVec.toNat_add, BitVec.toNat_ofNat]
  unfold pageSize at hmod ⊢
  omega

end WellPlaced

end ProgramHeader

/-! ## Loading a segment -/

/-- The octets that the copy loop copies next. -/
def nextChunk (ph : ProgramHeader) (raw : List Byte) (c : ℕ) : List Byte :=
  (raw.drop (ph.pOffset.toNat + c)).take
    (min (ph.pFilesz.toNat - c) (pageSize - c % pageSize))

section Segments

variable {space : ℕ} {ph : ProgramHeader} {raw : List Byte} {c : ℕ}

theorem length_nextChunk (h : ph.WellPlaced raw.length)
    (hc : c < ph.pFilesz.toNat) :
    (nextChunk ph raw c).length =
      min (ph.pFilesz.toNat - c) (pageSize - c % pageSize) := by
  have hin := h.in_file
  rw [nextChunk, List.length_take, List.length_drop]
  omega

theorem copySegment_of_lt (h : ph.WellPlaced raw.length)
    (hc : c < ph.pFilesz.toNat) :
    copySegment space ph raw c = ((do
      let phys ← physOf space (pageVa ph.pVaddr (c / pageSize))
      copyToPhys (phys + c % pageSize) (nextChunk ph raw c)) >>= fun _ =>
        copySegment space ph raw (c + (nextChunk ph raw c).length)) := by
  rw [bind_assoc, length_nextChunk h hc, copySegment, Platform.copySegment,
    dif_pos hc]
  dsimp only
  rw [h.page_eq hc, h.offset_eq c]
  rfl

theorem copySegment_of_ge (hc : ph.pFilesz.toNat ≤ c) :
    copySegment space ph raw c = pure () := by
  rw [copySegment, Platform.copySegment, dif_neg (Nat.not_lt.mpr hc)]

/-- A round stays inside a page of the segment, and copies something. -/
theorem nextChunk_fits (h : ph.WellPlaced raw.length)
    (hc : c < ph.pFilesz.toNat) :
    c / pageSize < ph.pages ∧
      c % pageSize + (nextChunk ph raw c).length ≤ frameSize ∧
        0 < (nextChunk ph raw c).length := by
  have hlen := length_nextChunk h hc
  have hoff : c % pageSize < pageSize := Nat.mod_lt _ (by decide)
  have hmem := h.memsz_le
  have hsize := h.filesz_le
  have hpage : frameSize = pageSize := rfl
  refine ⟨Nat.div_lt_of_lt_mul ?_, ?_, ?_⟩
  · rw [Nat.mul_comm]
    omega
  · rw [hpage]
    omega
  · omega

theorem image_zero (ph : ProgramHeader) (raw : List Byte) :
    ph.image raw 0 = fun _ => 0 := by
  funext i
  simp [ProgramHeader.image, Mem.write]

theorem image_write_nextChunk (h : ph.WellPlaced raw.length)
    (hc : c < ph.pFilesz.toNat) :
    (ph.image raw c).write c (nextChunk ph raw c) =
      ph.image raw (c + (nextChunk ph raw c).length) := by
  have hin := h.in_file
  have hlen : ((raw.drop ph.pOffset.toNat).take c).length = c := by
    rw [List.length_take, List.length_drop]
    omega
  have happend := Mem.write_write_append (fun _ => 0) 0
    ((raw.drop ph.pOffset.toNat).take c) (nextChunk ph raw c)
  rw [Nat.zero_add, hlen] at happend
  rw [ProgramHeader.image, happend, ProgramHeader.image, length_nextChunk h hc,
    List.take_add, List.drop_drop]
  rfl

variable {pages : PageMap}

/-- The pages of the segment have been added to `pages`, and `c` octets of its
file part copied. -/
def Filled (pages : PageMap) (ph : ProgramHeader) (raw : List Byte) (c : ℕ)
    (w : World) (s : Physical) : Prop :=
  ∃ pages' : PageMap, (pages ≤ pages' ∧
    pages'.Region ph.pVaddr ph.pages ph.isWritable (ph.image raw c)) ∧
      Holds pages' w s

theorem Filled.of_copied {pages' : PageMap} {page : UserPage} {w : World}
    {s : Physical} (h : ph.WellPlaced raw.length)
    (hnew : ∀ i, i < ph.pages → pages (pageVa ph.pVaddr i) = none)
    (hlt : c < ph.pFilesz.toNat) (hle : pages ≤ pages')
    (hregion : pages'.Region ph.pVaddr ph.pages ph.isWritable (ph.image raw c))
    (hpage : pages' (pageVa ph.pVaddr (c / pageSize)) = some page)
    (hholds : Holds (pages'.set (pageVa ph.pVaddr (c / pageSize))
      (page.overwrite (c % pageSize) (nextChunk ph raw c))) w s) :
    Filled pages ph raw (c + (nextChunk ph raw c).length) w s := by
  obtain ⟨hindex, hfit, -⟩ := nextChunk_fits h hlt
  have hafter := hregion.overwrite h.userRegion hindex hpage hfit
  rw [Nat.div_add_mod', image_write_nextChunk h hlt] at hafter
  exact ⟨_, ⟨PageMap.le_set _ hle (hnew _ hindex), hafter⟩, hholds⟩

theorem copySegment_holds (h : ph.WellPlaced raw.length)
    (hnew : ∀ i, i < ph.pages → pages (pageVa ph.pVaddr i) = none) (c : ℕ)
    (hc : c ≤ ph.pFilesz.toNat) :
    Evolves (UserSpace space) False (Filled pages ph raw c)
      (copySegment space ph raw c)
      (fun _ => Filled pages ph raw ph.pFilesz.toNat) := by
  -- on the number of octets that are left
  induction hm : ph.pFilesz.toNat - c using Nat.strong_induction_on
    generalizing c with
  | _ m ih =>
    rcases Nat.eq_or_lt_of_le hc with rfl | hlt
    · rw [copySegment_of_ge le_rfl]
      exact Evolves.pure () fun _ _ hpre => hpre
    have hlen := length_nextChunk h hlt
    obtain ⟨hindex, hfit, hpos⟩ := nextChunk_fits h hlt
    rw [copySegment_of_lt h hlt]
    refine Evolves.bind (M := fun _ => Filled pages ph raw
      (c + (nextChunk ph raw c).length)) (Evolves.of_exists ?_)
      fun _ => ih _ (by omega) _ (by omega) rfl
    rintro pages' ⟨hle, hregion⟩
    obtain ⟨page, hpage, -⟩ := hregion _ hindex
    exact (copy_holds hpage hfit).weaken (fun _ _ _ hpre => hpre)
      fun _ _ _ hholds => .of_copied h hnew hlt hle hregion hpage hholds

/-- The pages of the segment are there, with its file part and zeros. -/
def PageMap.Segment (pages : PageMap) (ph : ProgramHeader)
    (raw : List Byte) : Prop :=
  pages.Region ph.pVaddr ph.pages ph.isWritable
    (ph.image raw ph.pFilesz.toNat)

theorem PageMap.Segment.mono {pages' : PageMap} (h : pages.Segment ph raw)
    (hle : pages ≤ pages') : pages'.Segment ph raw :=
  Region.mono h hle

theorem loadSegment_eq (h : ph.WellPlaced raw.length) :
    loadSegment space ph raw =
      (mapUserRegion space ph.pVaddr ph.pages ph.isWritable >>= fun _ =>
        copySegment space ph raw 0) := by
  rw [← h.vaStart_eq]
  rfl

theorem loadSegment_holds (h : ph.WellPlaced raw.length) :
    Evolves (UserSpace space) False (Holds pages) (loadSegment space ph raw)
      (fun _ w s => ∃ pages' : PageMap,
        (pages ≤ pages' ∧ pages'.Segment ph raw) ∧ Holds pages' w s) := by
  rw [loadSegment_eq h]
  refine Evolves.bind (mapUserRegion_adds ph.pVaddr ph.pages ph.isWritable)
    fun _ => Evolves.of_exists ?_
  rintro pages' ⟨hle, hregion, hnew⟩
  refine (copySegment_holds h hnew 0 (Nat.zero_le _)).weaken ?_
    fun _ _ _ hpost => hpost
  intro w s _ hholds
  refine ⟨pages', ⟨hle, ?_⟩, hholds⟩
  rw [image_zero]
  exact hregion

/-- Later segments leave the pages of earlier ones as they are. -/
theorem loadSegments_holds {loads : List ProgramHeader}
    (hplaced : ∀ ph ∈ loads, ph.WellPlaced raw.length) :
    Evolves (UserSpace space) False (Holds pages)
      (loadSegments space raw loads)
      (fun _ w s => ∃ pages' : PageMap,
        (pages ≤ pages' ∧ ∀ ph ∈ loads, pages'.Segment ph raw) ∧
          Holds pages' w s) := by
  induction loads generalizing pages with
  | nil =>
    refine Evolves.pure () fun w s hholds => ⟨pages, ⟨le_rfl, ?_⟩, hholds⟩
    intro ph hmem
    exact absurd hmem List.not_mem_nil
  | cons ph loads ih =>
    refine Evolves.bind (loadSegment_holds (hplaced ph List.mem_cons_self))
      fun _ => Evolves.of_exists ?_
    rintro pages' ⟨hle, hsegment⟩
    refine (ih fun ph' hmem =>
      hplaced ph' (List.mem_cons_of_mem _ hmem)).weaken
        (fun _ _ _ hpre => hpre) ?_
    rintro _ w s ⟨pages'', ⟨hle', hloads⟩, hholds⟩
    refine ⟨pages'', ⟨hle.trans hle', ?_⟩, hholds⟩
    intro ph' hmem
    rcases List.mem_cons.mp hmem with rfl | hlater
    · exact hsegment.mono hle'
    · exact hloads ph' hlater

theorem loadSegments_append (space : ℕ) (raw : List Byte)
    (before later : List ProgramHeader) :
    x86Platform.loadSegments space raw (before ++ later) =
      (x86Platform.loadSegments space raw before >>= fun _ =>
        x86Platform.loadSegments space raw later) := by
  induction before with
  | nil => rfl
  | cons ph before ih =>
    rw [List.cons_append, Platform.loadSegments, Platform.loadSegments, ih,
      bind_assoc]

def PageMap.Stack (pages : PageMap) : Prop :=
  pages.Region (defaultUserStackTop - BitVec.ofNat 64 defaultUserStackSize)
    (defaultUserStackSize / pageSize) true (fun _ => 0)

theorem mapUserStack_holds :
    Evolves (UserSpace space) False (Holds pages)
      (mapUserStack space defaultUserStackTop defaultUserStackSize)
      (fun _ w s => ∃ pages' : PageMap,
        (pages ≤ pages' ∧ pages'.Stack) ∧ Holds pages' w s) := by
  refine Evolves.exitIf_bind (fun _ => not_false) fun _ =>
    Evolves.exitIf_bind (fun _ => not_false) fun _ =>
      Evolves.exitIf_bind (fun _ => not_false) fun _ => ?_
  refine Evolves.bind (mapUserRegion_adds _ _ true) fun _ => Evolves.pure _ ?_
  rintro w s ⟨pages', ⟨hle, hregion, -⟩, hholds⟩
  exact ⟨pages', ⟨hle, hregion⟩, hholds⟩

end Segments

/-! ## Reading -/

/-- The octet at an address of an address space, if it is mapped. -/
def readOctet (m : Mem) (pml4 : ℕ) (va : BitVec 64) : Option Byte :=
  (translate m pml4 va).map fun t => m t.phys

theorem pagePath_add {va : BitVec 64} (huser : isUserVa va = true) {off : ℕ}
    (hoff : off < frameSize) :
    pagePath (va + BitVec.ofNat 64 off) = pagePath va := by
  obtain ⟨hlow, haligned⟩ := (isUserVa_iff va).mp huser
  rw [unaligned_eq, decide_eq_false_iff_not, not_not] at haligned
  unfold frameSize at hoff
  have hsum : (va + BitVec.ofNat 64 off).toNat = va.toNat + off := by
    rw [BitVec.toNat_add, BitVec.toNat_ofNat]
    omega
  have hindex : ∀ k, (va.toNat + off) / 2 ^ (12 + k) = va.toNat / 2 ^ (12 + k) := by
    intro k
    have hpage : (va.toNat + off) / 2 ^ 12 = va.toNat / 2 ^ 12 := by omega
    rw [Nat.pow_add, ← Nat.div_div_eq_div_mul, ← Nat.div_div_eq_div_mul, hpage]
  simp only [pagePath, tableIndex_eq, hsum, hindex]

section Reading

variable {space : ℕ} {pages : PageMap} {w : World} {s : Physical}

theorem Holds.readOctet_eq (h : Holds pages w s) (hspace : UserSpace space w s)
    {va : BitVec 64} {page : UserPage} (hpage : pages va = some page) {off : ℕ}
    (hoff : off < frameSize) :
    readOctet s.mem space (va + BitVec.ofNat 64 off) =
      some (page.octets off) := by
  have huser := h.user hpage
  obtain ⟨hlow, haligned⟩ := (isUserVa_iff va).mp huser
  rw [unaligned_eq, decide_eq_false_iff_not, not_not] at haligned
  have hoff' := hoff
  unfold frameSize at hoff'
  have hsum : (va + BitVec.ofNat 64 off).toNat = va.toNat + off := by
    rw [BitVec.toNat_add, BitVec.toNat_ofNat]
    omega
  have hwalk : walkToPhys s.mem space (va + BitVec.ofNat 64 off) =
      some page.leaf.physAddr := by
    rw [Space.walkToPhys_eq hspace (tableIndex_four_lt (by omega)),
      pagePath_add huser hoff, h.leaf hpage]
    rfl
  obtain ⟨flags, htranslate⟩ := translate_of_walkToPhys hwalk
  have hmod : (va.toNat + off) % 4096 = off := by omega
  rw [readOctet, htranslate, Option.map_some, page.physAddr_leaf, hsum, hmod,
    h.octet hpage hoff]

theorem Holds.readOctet_region (h : Holds pages w s)
    (hspace : UserSpace space w s) {base : BitVec 64} {k : ℕ} {write : Bool}
    {image : Mem} (hregion : pages.Region base k write image) {i : ℕ}
    (hi : i < k * pageSize) :
    readOctet s.mem space (base + BitVec.ofNat 64 i) = some (image i) := by
  have hindex : i / pageSize < k :=
    Nat.div_lt_of_lt_mul (by rw [Nat.mul_comm]; exact hi)
  have hoff : i % pageSize < frameSize := Nat.mod_lt _ (by decide)
  have hplace : i / pageSize * pageSize + i % pageSize = i :=
    Nat.div_add_mod' i pageSize
  obtain ⟨page, hpage, -, hoctets⟩ := hregion _ hindex
  have hread := h.readOctet_eq hspace hpage hoff
  rw [hoctets _ hoff, pageVa, BitVec.add_assoc, ← BitVec.ofNat_add, hplace]
    at hread
  exact hread

theorem Holds.readOctet_of_mem (h : Holds pages w s)
    (hspace : UserSpace space w s) {base : BitVec 64} {k : ℕ} {write : Bool}
    {image : Mem} (hregion : pages.Region base k write image)
    {va : BitVec 64} (hlow : base.toNat ≤ va.toNat)
    (hhigh : va.toNat < base.toNat + k * pageSize) :
    readOctet s.mem space va = some (image (va.toNat - base.toNat)) := by
  have hva : va = base + BitVec.ofNat 64 (va.toNat - base.toNat) := by
    apply BitVec.eq_of_toNat_eq
    rw [BitVec.toNat_add, BitVec.toNat_ofNat]
    omega
  rw [← h.readOctet_region hspace hregion (by omega), ← hva]

end Reading

end IsoLightK0
