import IsoLightK0.Boot.TagReads
import IsoLightK0.Mmu.Translation

/-!
# The offset of the linear map

`parse_kaslr_offset` returns an offset that is nonzero and a multiple of 2 MiB.
`Mmu::initialize` stores it, and `build_linear_map` maps the physical memory up
to 4 GiB behind it.

The boot loader is asked for an offset in the canonical upper half.  The parser
does not check that, nor that the map ends below the kernel image.
-/

namespace IsoLightK0

open Bytes Loops Triples

def kernelVmaBase : BitVec 64 := 0xFFFF_FFFF_8000_0000

def defaultPhysMapOffset : BitVec 64 := 0xFFFF_8000_0000_0000

/-- `Mmu::initialize`, as the new value of `PHYS_MAP_OFFSET`. -/
def mmuInitialize (kaslrOffset : Option (BitVec 64)) : BitVec 64 :=
  kaslrOffset.getD defaultPhysMapOffset &&& ~~~0x1F_FFFF#64

namespace Multiboot2

/-- The check that an offset passes. -/
def AcceptedOffset (off : BitVec 64) : Prop :=
  unaligned2MiB off = false ∧ off ≠ 0

theorem kaslrRound_meets (m : BootMemory) (infoAddr : BitVec 64)
    (totalSize : BitVec 32) (s : BitVec 32 × Unit) :
    Meets (Sum.elim (fun _ => True) fun r => ∀ off, r = some off →
        AcceptedOffset off) (fun _ => True)
      ((kaslrVisitor m).round m infoAddr totalSize s) := by
  have hnone : ∀ off : BitVec 64, none = some off → AcceptedOffset off :=
    fun _ h => nomatch h
  unfold TagVisitor.round kaslrVisitor
  dsimp only
  split
  · refine (meets_true _).bind fun typ _ => ?_
    split
    · exact hnone
    · refine (meets_true _).bind fun size _ => ?_
      refine Meets.bind (Q := Sum.elim (fun _ => True) fun r =>
        ∀ off, r = some off → AcceptedOffset off) ?_ ?_
      · split
        · refine (meets_true _).bind fun off _ => ?_
          split
          · rename_i haccepted
            rintro _ ⟨⟩
            exact haccepted
          · trivial
        · trivial
      · rintro (k | result) hvisit
        · dsimp only
          split
          · exact hnone
          · trivial
        · exact hvisit
  · exact hnone

/-- Every offset that the parser returns is nonzero and a multiple of
2 MiB. -/
theorem acceptedOffset_of_parseKaslrOffset {m : BootMemory} {fuel : ℕ}
    {infoAddr off : BitVec 64}
    (h : parseKaslrOffset m fuel infoAddr = .ok (some off)) :
    AcceptedOffset off := by
  have hmeets : Meets (fun r => ∀ off, r = some off → AcceptedOffset off)
      (fun _ => True) (parseKaslrOffset m fuel infoAddr) := by
    unfold parseKaslrOffset
    split
    · exact fun _ h => nomatch h
    · refine (meets_true _).bind fun totalSize _ => ?_
      split
      · exact loop_meets_of_stuck (I := fun _ => True) trivial
          (fun s _ => kaslrRound_meets m infoAddr totalSize s) fuel
          trivial
      · exact fun _ h => nomatch h
  rw [h] at hmeets
  exact hmeets off rfl

end Multiboot2

/-! ## The linear map -/

theorem size2MiB_eq : size2MiB = 2097152 := rfl

theorem maxMappablePhys_eq : maxMappablePhys = 4294967296 := rfl

theorem linearMapPages_le (highestPhysAddr : BitVec 64) :
    linearMapPages highestPhysAddr ≤ 2048 := by
  rw [linearMapPages, size2MiB_eq, maxMappablePhys_eq]
  omega

/-- The sums of the map do not overflow, and its addresses lie in the upper
half, below the kernel image. -/
structure LinearMapSound (offset : BitVec 64) : Prop where
  no_overflow : ∀ phys < maxMappablePhys, offset.toNat + phys < 2 ^ 64
  in_window : ∀ highestPhysAddr i, i < linearMapPages highestPhysAddr →
    ∀ va, (linearMapCall offset i).Covers va →
      defaultPhysMapOffset ≤ va ∧ va < kernelVmaBase

theorem covers_linearMapCall_iff {offset : BitVec 64} {i : ℕ}
    (hsum : offset.toNat + i * 2097152 < 2 ^ 64) (va : BitVec 64) :
    (linearMapCall offset i).Covers va ↔
      offset.toNat + i * 2097152 ≤ va.toNat ∧
        va.toNat < offset.toNat + i * 2097152 + 2097152 := by
  have hbase : (linearMapCall offset i).virtAddr.toNat =
      offset.toNat + i * 2097152 := by
    show (offset + BitVec.ofNat 64 (i * size2MiB)).toNat = _
    rw [BitVec.toNat_add, BitVec.toNat_ofNat, size2MiB_eq, Nat.add_mod_mod,
      Nat.mod_eq_of_lt hsum]
  have hsize : leafSize (linearMapCall offset i).level = 2097152 := leafSize_two
  rw [SpaceCall.Covers, hbase, hsize]

theorem linearMapSound_iff (offset : BitVec 64) :
    LinearMapSound offset ↔
      defaultPhysMapOffset ≤ offset ∧
        offset.toNat + maxMappablePhys ≤ kernelVmaBase.toNat := by
  have hlow : defaultPhysMapOffset.toNat = 0xFFFF_8000_0000_0000 := rfl
  have hhigh : kernelVmaBase.toNat = 0xFFFF_FFFF_8000_0000 := rfl
  constructor
  · intro h
    have hsum := h.no_overflow (maxMappablePhys - 1) (by decide)
    rw [maxMappablePhys_eq] at hsum ⊢
    have hfull : linearMapPages 0x1_0000_0000 = 2048 := by decide
    constructor
    · have hcovers : (linearMapCall offset 0).Covers offset := by
        rw [covers_linearMapCall_iff (by omega)]
        omega
      exact (h.in_window 0x1_0000_0000 0 (by omega) offset hcovers).1
    · let last := BitVec.ofNat 64 (offset.toNat + 4294967295)
      have hlast : last.toNat = offset.toNat + 4294967295 := by
        rw [BitVec.toNat_ofNat, Nat.mod_eq_of_lt (by omega)]
      have hcovers : (linearMapCall offset 2047).Covers last := by
        rw [covers_linearMapCall_iff (by omega)]
        omega
      have hlt := (h.in_window 0x1_0000_0000 2047 (by omega) last hcovers).2
      rw [BitVec.lt_def] at hlt
      omega
  · rintro ⟨hstart, hend⟩
    rw [maxMappablePhys_eq] at hend
    rw [BitVec.le_def] at hstart
    refine ⟨fun phys hphys => ?_, fun highestPhysAddr i hi va hcovers => ?_⟩
    · rw [maxMappablePhys_eq] at hphys
      omega
    · have hpages := linearMapPages_le highestPhysAddr
      rw [covers_linearMapCall_iff (by omega)] at hcovers
      rw [BitVec.le_def, BitVec.lt_def]
      omega

theorem mmuInitialize_some {off : BitVec 64}
    (haligned : unaligned2MiB off = false) :
    mmuInitialize (some off) = off := by
  apply BitVec.eq_of_toNat_eq
  have hmod : off.toNat % 2097152 = 0 := by
    rw [unaligned2MiB_eq, decide_eq_false_iff_not, not_not] at haligned
    exact haligned
  refine (toNat_and_not_low off 21).trans ?_
  omega

/-- For an offset that `parse_kaslr_offset` returns, the map is sound exactly
if the offset lies in the upper half and 4 GiB behind it end below the kernel
image. -/
theorem linearMap_sound_of_parse_iff {m : BootMemory} {fuel : ℕ}
    {infoAddr off : BitVec 64}
    (h : Multiboot2.parseKaslrOffset m fuel infoAddr = .ok (some off)) :
    LinearMapSound (mmuInitialize (some off)) ↔
      defaultPhysMapOffset ≤ off ∧
        off.toNat + maxMappablePhys ≤ kernelVmaBase.toNat := by
  have haccepted := Multiboot2.acceptedOffset_of_parseKaslrOffset h
  rw [mmuInitialize_some haccepted.1]
  exact linearMapSound_iff off

/-- A block with such an offset, and the map behind it. -/
theorem linearMap_sound_kaslrBlock :
    ∃ off, Multiboot2.parseKaslrOffset
        (.full (Multiboot2.kaslrBlock off).octets) 2 0x1000 =
          .ok (some off) ∧
      LinearMapSound (mmuInitialize (some off)) := by
  have hparse : Multiboot2.parseKaslrOffset (.full
      (Multiboot2.kaslrBlock 0xFFFF_A000_0000_0000).octets) 2 0x1000 =
        .ok (some 0xFFFF_A000_0000_0000) := by
    rfl
  exact ⟨_, hparse, (linearMap_sound_of_parse_iff hparse).mpr (by decide)⟩

/-- The parser also returns an offset in the user half, and one behind which
the sums overflow. -/
theorem linearMap_unsound_kaslrBlock :
    ∃ low high : BitVec 64,
      Multiboot2.parseKaslrOffset
          (.full (Multiboot2.kaslrBlock low).octets) 2 0x1000 =
            .ok (some low) ∧
        low < 0x8000_0000_0000 ∧
        ¬ LinearMapSound (mmuInitialize (some low)) ∧
        Multiboot2.parseKaslrOffset
          (.full (Multiboot2.kaslrBlock high).octets) 2 0x1000 =
            .ok (some high) ∧
        2 ^ 64 ≤ high.toNat + size2MiB ∧
        ¬ LinearMapSound (mmuInitialize (some high)) := by
  refine ⟨0x20_0000, 0xFFFF_FFFF_FFE0_0000, rfl, by decide, ?_, rfl, by decide,
    ?_⟩
  · rw [linearMapSound_iff]
    decide
  · rw [linearMapSound_iff]
    decide

end IsoLightK0
