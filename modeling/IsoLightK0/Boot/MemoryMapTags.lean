import IsoLightK0.Boot.TagReads

/-!
# The memory map of a well-formed block

A well-formed block is a sequence of tags at multiples of 8, each at least as
large as its header and inside the block, with an end tag behind the last one.
The entries of a memory map tag are counted by its size.

On such a block, of at most 64 KiB, `parse_multiboot2` returns the first 64
entries of nonzero length of all memory map tags.
-/

namespace IsoLightK0

open Bytes Loops

namespace Multiboot2

namespace InfoBlock

section Reported

variable (b : InfoBlock) (offset : BitVec 32)

/-- The address of an entry of the memory map tag at an offset. -/
def entryAddr (i : ℕ) : BitVec 64 :=
  b.addrAt (offset.toNat + 16 + i * (b.entrySize offset).toNat)

def entryAt (entryPtr : BitVec 64) : MemoryRegion where
  base := BootMemory.word b.octets 64 entryPtr
  length := BootMemory.word b.octets 64 (entryPtr + 8)
  kind := entryKind (BootMemory.word b.octets 32 (entryPtr + 16))

/-- The number of entries for which the tag at an offset has room. -/
def entryCount : ℕ :=
  ((b.size offset).toNat - 16) / (b.entrySize offset).toNat

/-- The entries of nonzero length of the tag at an offset. -/
def tagRegions : List MemoryRegion :=
  if b.typ offset = tagMmap then
    ((List.range (b.entryCount offset)).map fun i =>
      b.entryAt (b.entryAddr offset i)).filter fun r => 0 < r.length
  else []

/-- The entries of nonzero length of all memory map tags. -/
def reported (tags : List (BitVec 32)) : List MemoryRegion :=
  tags.flatMap b.tagRegions

theorem reported_cons (tags : List (BitVec 32)) :
    b.reported (offset :: tags) = b.tagRegions offset ++ b.reported tags :=
  List.flatMap_cons

end Reported

/-- From an offset on the block has the tags at the given offsets, and an end
tag behind them. -/
inductive Tags (b : InfoBlock) : BitVec 32 → List (BitVec 32) → Prop
  | last {offset : BitVec 32} (htyp : b.typ offset = tagEnd)
      (hsize : 8 ≤ (b.size offset).toNat)
      (hfit : offset.toNat + (b.size offset).toNat ≤ b.totalSize.toNat) :
      Tags b offset []
  | tag {offset offset' : BitVec 32} {tags : List (BitVec 32)}
      (htyp : b.typ offset ≠ tagEnd) (hsize : 8 ≤ (b.size offset).toNat)
      (hfit : offset.toNat + (b.size offset).toNat ≤ b.totalSize.toNat)
      (hentries : b.typ offset = tagMmap → 16 ≤ (b.size offset).toNat →
        24 ≤ (b.entrySize offset).toNat ∧ (b.entrySize offset).toNat % 8 = 0)
      (hnext : offset'.toNat =
        (offset.toNat + (b.size offset).toNat + 7) / 8 * 8)
      (hrest : Tags b offset' tags) :
      Tags b offset (offset :: tags)

/-- A well-formed block with the tags at the given offsets: the first one
stands behind the header of the block. -/
def WellFormed (b : InfoBlock) (tags : List (BitVec 32)) : Prop :=
  b.Tags 8 tags

theorem Tags.header_inside {b : InfoBlock} {offset : BitVec 32}
    {tags : List (BitVec 32)} (h : b.Tags offset tags) :
    offset.toNat + 8 ≤ b.totalSize.toNat := by
  cases h with
  | last htyp hsize hfit => omega
  | tag htyp hsize hfit hentries hnext hrest => omega

theorem Tags.length_le {b : InfoBlock} {offset : BitVec 32}
    {tags : List (BitVec 32)} (h : b.Tags offset tags) :
    offset.toNat + 8 * tags.length + 8 ≤ b.totalSize.toNat := by
  induction h with
  | last htyp hsize hfit =>
    rw [List.length_nil]
    omega
  | tag htyp hsize hfit hentries hnext hrest ih =>
    rw [List.length_cons]
    omega

/-! ## Entries -/

section Entries

variable {b : InfoBlock} {offset : BitVec 32}

theorem addEntry_eq (b : InfoBlock) (entryPtr : BitVec 64) (map : MemoryMap) :
    addEntry b.octets entryPtr map =
      if 0 < (b.entryAt entryPtr).length then
        (map.addRegion (b.entryAt entryPtr)).2
      else map :=
  rfl

theorem foldl_addEntry (b : InfoBlock) (entryPtr : ℕ → BitVec 64)
    (indices : List ℕ) (map : MemoryMap) :
    indices.foldl (fun map i => addEntry b.octets (entryPtr i) map) map =
      map.addRegions ((indices.map fun i => b.entryAt (entryPtr i)).filter
        fun r => 0 < r.length) := by
  induction indices generalizing map with
  | nil => rfl
  | cons i indices ih =>
    rw [List.foldl_cons, ih, List.map_cons, List.filter_cons, addEntry_eq]
    generalize b.entryAt (entryPtr i) = r
    by_cases hpos : 0 < r.length
    · rw [if_pos hpos, if_pos (decide_eq_true hpos), MemoryMap.addRegions_cons]
    · rw [if_neg hpos, if_neg (fun h => hpos (of_decide_eq_true h))]

theorem entryAddr_succ (b : InfoBlock) (offset : BitVec 32) (i : ℕ) :
    b.entryAddr offset i + (b.entrySize offset).setWidth 64 =
      b.entryAddr offset (i + 1) := by
  rw [entryAddr, ← BitVec.ofNat_toNat, b.addrAt_add, entryAddr,
    Nat.succ_mul, Nat.add_assoc _ (i * _)]

variable (hwrap : b.addr.toNat + b.totalSize.toNat < 2 ^ 64)
  (hfit : offset.toNat + (b.size offset).toNat + 8 ≤ b.totalSize.toNat)

include hwrap hfit

theorem toNat_entriesEnd :
    (b.entriesEnd offset).toNat =
      b.addr.toNat + (offset.toNat + (b.size offset).toNat) := by
  have hend : (b.addrAt (offset.toNat + (b.size offset).toNat)).toNat =
      b.addr.toNat + (offset.toNat + (b.size offset).toNat) := by
    rw [toNat_addrAt, Nat.mod_eq_of_lt (by omega)]
  have hle : b.addrAt (offset.toNat + (b.size offset).toNat) ≤ b.infoEnd := by
    rw [BitVec.le_def, hend, toNat_infoEnd, Nat.mod_eq_of_lt hwrap]
    omega
  rw [entriesEnd, minWord, tagPhys_add_size, if_pos hle, hend]

/-- The entry loop reads exactly the entries for which the tag has room. -/
theorem entry_le_entriesEnd_iff (hentry : 0 < (b.entrySize offset).toNat)
    (hsize : 16 ≤ (b.size offset).toNat) {i : ℕ}
    (hi : i ≤ b.entryCount offset) :
    saturatingAdd (b.entryAddr offset i) ((b.entrySize offset).setWidth 64) ≤
        b.entriesEnd offset ↔ i < b.entryCount offset := by
  have hend := toNat_entriesEnd hwrap hfit
  have hne : b.entriesEnd offset ≠ BitVec.allOnes 64 := by
    intro heq
    rw [heq, BitVec.toNat_allOnes] at hend
    omega
  have hcount : b.entryCount offset * (b.entrySize offset).toNat ≤
      (b.size offset).toNat - 16 := Nat.div_mul_le_self _ _
  have hroom : i < b.entryCount offset ↔
      (i + 1) * (b.entrySize offset).toNat ≤ (b.size offset).toNat - 16 :=
    Nat.le_div_iff_mul_le hentry
  have hstart : i * (b.entrySize offset).toNat ≤
      b.entryCount offset * (b.entrySize offset).toNat :=
    Nat.mul_le_mul_right _ hi
  rw [hroom, saturatingAdd_le_iff hne, hend, entryAddr, toNat_addrAt,
    Nat.mod_eq_of_lt (by omega), BitVec.toNat_setWidth_of_le (by decide),
    Nat.succ_mul]
  omega

end Entries

/-! ## Tags -/

section Tags

variable {b : InfoBlock} {offset : BitVec 32} {fuel : ℕ}
  (hwrap : b.addr.toNat + b.totalSize.toNat < 2 ^ 64)

include hwrap

theorem fits_of_le
    (hfit : offset.toNat + (b.size offset).toNat ≤ b.totalSize.toNat) :
    saturatingAdd (b.tagPhys offset) ((b.size offset).setWidth 64) ≤
      b.infoEnd := by
  by_cases hend : b.infoEnd = BitVec.allOnes 64
  · rw [hend]
    exact le_allOnes _
  · rw [saturatingAdd_le_iff hend, tagPhys_eq_addrAt, toNat_addrAt,
      BitVec.toNat_setWidth_of_le (by decide), toNat_infoEnd]
    omega

section Collect

variable (hfit : offset.toNat + (b.size offset).toNat + 8 ≤ b.totalSize.toNat)
  (hmax : b.totalSize.toNat ≤ 65536) (hfuel : 65536 < fuel)

include hfit hmax hfuel

theorem collect_of_mmap (hmmap : b.typ offset = tagMmap)
    (hsize : 16 ≤ (b.size offset).toNat)
    (hentry : 24 ≤ (b.entrySize offset).toNat) (map : MemoryMap) :
    b.collect (.full b.octets) fuel offset map =
      .ok (map.addRegions (b.tagRegions offset)) := by
  have hentries : b.HasEntries offset :=
    ⟨hmmap, hsize, fits_of_le hwrap (by omega), hentry⟩
  have hpos : 0 < (b.entrySize offset).toNat := by omega
  have hbound := Nat.div_le_self ((b.size offset).toNat - 16)
    (b.entrySize offset).toNat
  have hstart : b.tagPhys offset + 16 = b.entryAddr offset 0 := by
    rw [firstEntry_eq_addrAt, entryAddr, Nat.zero_mul, Nat.add_zero]
  rw [collect_of_entries (b.loadsEntrySize_full offset) hentries, hstart,
    loop_eq_foldl (n := b.entryCount offset) (p := b.entryAddr offset)
      (f := fun i map => addEntry b.octets (b.entryAddr offset i) map)]
  · rw [Nat.sub_zero, ← List.range_eq_range', foldl_addEntry, tagRegions,
      if_pos hmmap]
  · intro i hi map
    have hin := (entry_le_entriesEnd_iff hwrap hfit hpos hsize hi.le).mpr hi
    rw [entryRound_full hin, entryAddr_succ]
  · intro map
    refine entryRound_of_past fun hin => ?_
    exact Nat.lt_irrefl _
      ((entry_le_entriesEnd_iff hwrap hfit hpos hsize (Nat.le_refl _)).mp hin)
  · exact Nat.zero_le _
  · rw [entryCount]
    omega

theorem collect_wellFormed
    (hentry : b.typ offset = tagMmap → 16 ≤ (b.size offset).toNat →
      24 ≤ (b.entrySize offset).toNat) (map : MemoryMap) :
    b.collect (.full b.octets) fuel offset map =
      .ok (map.addRegions (b.tagRegions offset)) := by
  by_cases hmmap : b.typ offset = tagMmap
  · by_cases hsize : 16 ≤ (b.size offset).toNat
    · exact collect_of_mmap hwrap hfit hmax hfuel hmmap hsize
        (hentry hmmap hsize) map
    · have hnone : b.tagRegions offset = [] := by
        rw [tagRegions, if_pos hmmap, entryCount,
          Nat.sub_eq_zero_of_le (Nat.le_of_not_le hsize), Nat.zero_div]
        rfl
      rw [hnone]
      exact collect_of_not (b.loadsEntrySize_full offset)
        fun h => hsize (BitVec.le_def.mp h.2.1)
  · rw [tagRegions, if_neg hmmap]
    exact collect_of_not (b.loadsEntrySize_full offset) fun h => hmmap h.1

end Collect

/-- From the first tag of a well-formed sequence on the tag loop adds the
regions of all of them. -/
theorem tagLoop_of_tags (hmax : b.totalSize.toNat ≤ 65536)
    (hfuel : 65536 < fuel) {tags : List (BitVec 32)}
    (htags : b.Tags offset tags) (hmod : offset.toNat % 8 = 0) {rounds : ℕ}
    (hrounds : tags.length < rounds) (map : MemoryMap) :
    tagLoop b fuel rounds (offset, map) =
      .ok (map.addRegions (b.reported tags)) := by
  obtain ⟨rounds, rfl⟩ : ∃ n, rounds = n + 1 := ⟨rounds - 1, by omega⟩
  induction htags generalizing map rounds with
  | last htyp hsize hfit =>
    rename_i offset
    have hlt : offset < b.totalSize := BitVec.lt_def.mpr (by omega)
    exact loop_of_done
      (round_of_end hlt (BootMemory.load_full _ _ _) htyp) rounds
  | tag htyp hsize hfit hentries hnext hrest ih =>
    rename_i offset offset' tags
    have hlt : offset < b.totalSize := BitVec.lt_def.mpr (by omega)
    have hheader := hrest.header_inside
    have hstep : b.next offset = some offset' := by
      rw [next_eq_some_iff, toNat_roundedSize]
      omega
    have hcollect := collect_wellFormed hwrap (by omega) hmax hfuel
      (fun hmmap hsize => (hentries hmmap hsize).1) map
    rw [List.length_cons] at hrounds
    obtain ⟨rounds, rfl⟩ : ∃ n, rounds = n + 1 := ⟨rounds - 1, by omega⟩
    rw [tagLoop, loop_of_next (round_full_next b hlt htyp hstep hcollect)]
    rw [reported_cons, MemoryMap.addRegions_append]
    exact ih (by omega) _ rounds (by omega)

end Tags

end InfoBlock

/-! ## The parser -/

/-- On a well-formed block of at most 64 KiB, at an address that is accepted
and from which the block does not reach to the end of the address space,
`parse_multiboot2` returns the first 64 reported regions. -/
theorem parseMultiboot2_wellFormed {b : InfoBlock} {tags : List (BitVec 32)}
    (hblock : b.WellFormed tags) (haddr : ¬ AddressRefused b.addr)
    (hmax : b.totalSize.toNat ≤ 65536)
    (hwrap : b.addr.toNat + b.totalSize.toNat < 2 ^ 64) {fuel : ℕ}
    (hfuel : 65536 < fuel) :
    ∃ map, parseMultiboot2 (.full b.octets) fuel b.addr = .ok map ∧
      map.regions = (b.reported tags).take maxRegions := by
  have hlength := hblock.length_le
  have hsize : SizeInRange b.totalSize :=
    ⟨BitVec.le_def.mpr (by omega), BitVec.le_def.mpr hmax⟩
  refine ⟨_, ?_, MemoryMap.regions_ofRegions (b.reported tags)⟩
  rw [parseMultiboot2_eq_loop (BootMemory.load_full ..) haddr hsize]
  exact InfoBlock.tagLoop_of_tags hwrap hmax hfuel hblock rfl (by omega) .empty

/-- A block with one memory map tag of three entries: usable memory, an entry
of length zero, and one with an unknown type code. -/
def threeEntryBlock : InfoBlock where
  octets := Mem.write (fun _ => 0) 0x1000
    ([104, 0, 0, 0, 0, 0, 0, 0, 6, 0, 0, 0, 88, 0, 0, 0, 24, 0, 0, 0] ++
      [0, 0, 0, 0] ++
      wordToLe 8 (0x100000 : BitVec 64) ++ wordToLe 8 (0x200000 : BitVec 64) ++
      [1, 0, 0, 0, 0, 0, 0, 0] ++
      wordToLe 8 (0x700000 : BitVec 64) ++ wordToLe 8 (0 : BitVec 64) ++
      [1, 0, 0, 0, 0, 0, 0, 0] ++
      wordToLe 8 (0x800000 : BitVec 64) ++ wordToLe 8 (0x1000 : BitVec 64) ++
      [77, 0, 0, 0, 0, 0, 0, 0] ++ [0, 0, 0, 0, 8, 0, 0, 0])
  addr := 0x1000

theorem parseMultiboot2_threeEntryBlock :
    ∃ map, parseMultiboot2 (.full threeEntryBlock.octets) 65537 0x1000 =
        .ok map ∧
      map.regions =
        [⟨0x100000, 0x200000, .usable⟩, ⟨0x800000, 0x1000, .reserved⟩] := by
  have hlast : threeEntryBlock.Tags 96 [] :=
    .last (by decide) (by decide) (by decide)
  have hblock : threeEntryBlock.WellFormed [8] :=
    .tag (by decide) (by decide) (by decide) (fun _ _ => by decide)
      (by decide) hlast
  have hreported : (threeEntryBlock.reported [8]).take maxRegions =
      [⟨0x100000, 0x200000, .usable⟩, ⟨0x800000, 0x1000, .reserved⟩] := by
    decide
  rw [← hreported]
  exact parseMultiboot2_wellFormed hblock (by decide) (by decide) (by decide)
    (by decide)

/-- A well-formed block of 65544 octets. -/
def largeBlock : InfoBlock where
  octets := Mem.write (Mem.write (fun _ => 0) 0x1000
      [0x08, 0, 1, 0, 0, 0, 0, 0, 1, 0, 0, 0, 0xF8, 0xFF, 0, 0])
    0x11000 [0, 0, 0, 0, 8, 0, 0, 0]
  addr := 0x1000

/-- It is refused. -/
theorem parseMultiboot2_largeBlock :
    largeBlock.WellFormed [8] ∧ largeBlock.totalSize = 65544 ∧
      ∀ fuel, parseMultiboot2 (.full largeBlock.octets) fuel largeBlock.addr =
        .error (.parse .invalidSize) := by
  have hlast : largeBlock.Tags 65536 [] :=
    .last (by decide) (by decide) (by decide)
  have hblock : largeBlock.WellFormed [8] :=
    .tag (by decide) (by decide) (by decide)
      (fun hmmap => absurd hmmap (by decide)) (by decide) hlast
  have haddr : ¬ AddressRefused largeBlock.addr := by decide
  have hsize : ¬ SizeInRange largeBlock.totalSize := by decide
  exact ⟨hblock, by decide, parseMultiboot2_invalidSize haddr hsize⟩

end Multiboot2

end IsoLightK0
