import IsoLightK0.Boot.TagWalk

/-!
# What the parsers read

The block of the boot information is put into memory that may be read nowhere
else.  A parser reads outside the block exactly if it faults there.

`parse_multiboot2` checks that a memory map tag fits before it reads more than
the header of the tag; nothing checks that the header itself fits, and
`parse_kaslr_offset` does not check that its tag does.
-/

namespace IsoLightK0

open Bytes Loops

namespace Multiboot2

namespace InfoBlock

variable (b : InfoBlock)

/-- An address of the block: less than `total_size` octets behind its
start. -/
def Contains (addr : BitVec 64) : Prop :=
  (addr - b.addr).toNat < b.totalSize.toNat

instance (addr : BitVec 64) : Decidable (b.Contains addr) :=
  inferInstanceAs (Decidable (_ < _))

/-- Memory in which only the block may be read. -/
def fenced : BootMemory where
  octets := b.octets
  readable := fun addr => decide (b.Contains addr)

/-- The address `d` octets behind the start of the block. -/
def addrAt (d : ℕ) : BitVec 64 := b.addr + BitVec.ofNat 64 d

theorem addrAt_add (d k : ℕ) : b.addrAt d + BitVec.ofNat 64 k = b.addrAt (d + k) := by
  rw [addrAt, addrAt, BitVec.add_assoc, ← BitVec.ofNat_add]

theorem contains_addrAt {d : ℕ} (hd : d < 2 ^ 64) :
    b.Contains (b.addrAt d) ↔ d < b.totalSize.toNat := by
  have hdiff : b.addrAt d - b.addr = BitVec.ofNat 64 d := by
    rw [addrAt, BitVec.add_comm, BitVec.add_sub_cancel]
  rw [Contains, hdiff, BitVec.toNat_ofNat, Nat.mod_eq_of_lt hd]

theorem readable_fenced_iff {n d : ℕ} (hn : 0 < n) (hd : d + n ≤ 2 ^ 64) :
    (∀ i < n, b.fenced.readable (b.addrAt d + BitVec.ofNat 64 i) = true) ↔
      d + n ≤ b.totalSize.toNat := by
  have hreadable : ∀ i < n,
      b.fenced.readable (b.addrAt d + BitVec.ofNat 64 i) = true ↔
        d + i < b.totalSize.toNat := by
    intro i hi
    rw [addrAt_add, fenced, decide_eq_true_iff]
    exact b.contains_addrAt (by omega)
  constructor
  · intro h
    have hlast := (hreadable (n - 1) (by omega)).mp (h _ (by omega))
    omega
  · intro h i hi
    exact (hreadable i hi).mpr (by omega)

theorem load_fenced_of_le {w d : ℕ} {addr : BitVec 64}
    (haddr : addr = b.addrAt d) (hw : 0 < w / 8)
    (h : d + w / 8 ≤ b.totalSize.toNat) :
    b.fenced.load w addr = .ok (BootMemory.word b.octets w addr) := by
  have hlt := b.totalSize.isLt
  subst haddr
  exact if_pos ((b.readable_fenced_iff hw (by omega)).mpr h)

theorem load_fenced_of_gt {w d : ℕ} {addr : BitVec 64}
    (haddr : addr = b.addrAt d) (hw : 0 < w / 8) (hd : d + w / 8 ≤ 2 ^ 64)
    (h : b.totalSize.toNat < d + w / 8) :
    b.fenced.load w addr = .error .fault := by
  subst haddr
  refine if_neg fun hreadable => ?_
  have hle := (b.readable_fenced_iff hw hd).mp hreadable
  omega

theorem tagPhys_eq_addrAt (offset : BitVec 32) :
    b.tagPhys offset = b.addrAt offset.toNat := by
  rw [tagPhys, addrAt, BitVec.ofNat_toNat]

theorem tagPhys_add (offset : BitVec 32) (k : ℕ) :
    b.tagPhys offset + BitVec.ofNat 64 k = b.addrAt (offset.toNat + k) := by
  rw [tagPhys_eq_addrAt, addrAt_add]

theorem toNat_addrAt (d : ℕ) :
    (b.addrAt d).toNat = (b.addr.toNat + d) % 2 ^ 64 := by
  rw [addrAt, BitVec.toNat_add, BitVec.toNat_ofNat, Nat.add_mod_mod]

theorem toNat_infoEnd :
    b.infoEnd.toNat = (b.addr.toNat + b.totalSize.toNat) % 2 ^ 64 := by
  rw [infoEnd, BitVec.toNat_add, BitVec.toNat_setWidth_of_le (by decide)]

theorem addr_mod (haddr : ¬ AddressRefused b.addr) : b.addr.toNat % 8 = 0 := by
  have hlow : b.addr &&& 7 = 0 := not_not.mp (not_or.mp haddr).2
  have hnat := congrArg BitVec.toNat hlow
  rw [BitVec.toNat_and] at hnat
  rw [← Nat.and_two_pow_sub_one_eq_mod _ 3]
  exact hnat

variable {b}

theorem Visited.offset_mod {stops : BitVec 32 → Prop} {offset : BitVec 32}
    (h : b.Visited stops offset) : offset.toNat % 8 = 0 := by
  induction h with
  | refl => rfl
  | tail _ hnext ih =>
    have hsum := next_eq_some_iff.mp hnext.2.2.2
    rw [toNat_roundedSize] at hsum
    omega

/-- A tag that passes the check of `parse_multiboot2` fits, unless the block
ends at the largest address. -/
theorem fits_cases {offset : BitVec 32} (hmax : b.totalSize.toNat ≤ 65536)
    (hlt : offset.toNat < b.totalSize.toNat)
    (hfits : saturatingAdd (b.tagPhys offset) ((b.size offset).setWidth 64) ≤
      b.infoEnd) :
    offset.toNat + (b.size offset).toNat ≤ b.totalSize.toNat ∨
      b.infoEnd = BitVec.allOnes 64 := by
  by_cases hend : b.infoEnd = BitVec.allOnes 64
  · exact .inr hend
  · left
    rw [saturatingAdd_le_iff hend, tagPhys_eq_addrAt, toNat_addrAt,
      BitVec.toNat_setWidth_of_le (by decide), toNat_infoEnd] at hfits
    omega

theorem toNat_infoEnd_allOnes (h : b.infoEnd = BitVec.allOnes 64) :
    (b.addr.toNat + b.totalSize.toNat) % 2 ^ 64 = 2 ^ 64 - 1 := by
  rw [← toNat_infoEnd, h, BitVec.toNat_allOnes]

theorem entrySize_inside {offset : BitVec 32}
    (haddr : ¬ AddressRefused b.addr) (hmax : b.totalSize.toNat ≤ 65536)
    (hmod : offset.toNat % 8 = 0)
    (hheader : offset.toNat + 8 ≤ b.totalSize.toNat)
    (hsize : 16 ≤ b.size offset)
    (hfits : saturatingAdd (b.tagPhys offset) ((b.size offset).setWidth 64) ≤
      b.infoEnd) :
    offset.toNat + 12 ≤ b.totalSize.toNat := by
  rcases fits_cases hmax (by omega) hfits with hinside | hend
  · have hsize' : 16 ≤ (b.size offset).toNat := BitVec.le_def.mp hsize
    omega
  · have hlast := toNat_infoEnd_allOnes hend
    have hmod' := b.addr_mod haddr
    omega

end InfoBlock

/-! ## The entries of a tag -/

section Entries

variable {b : InfoBlock} {entrySize entriesEnd : BitVec 64} {d fuel : ℕ}

theorem entryRound_fenced_cases (b : InfoBlock)
    (entrySize entriesEnd : BitVec 64) (map : MemoryMap) (hd : d < 2 ^ 63) :
    (¬ saturatingAdd (b.addrAt d) entrySize ≤ entriesEnd ∧
        entryRound b.fenced entrySize entriesEnd (b.addrAt d, map) =
          .ok (.inr map)) ∨
      (saturatingAdd (b.addrAt d) entrySize ≤ entriesEnd ∧
        b.totalSize.toNat < d + 20 ∧
        entryRound b.fenced entrySize entriesEnd (b.addrAt d, map) =
          .error .fault) ∨
      (saturatingAdd (b.addrAt d) entrySize ≤ entriesEnd ∧
        d + 20 ≤ b.totalSize.toNat ∧
        entryRound b.fenced entrySize entriesEnd (b.addrAt d, map) =
          .ok (.inl (b.addrAt (d + entrySize.toNat),
            addEntry b.octets (b.addrAt d) map))) := by
  by_cases hin : saturatingAdd (b.addrAt d) entrySize ≤ entriesEnd
  · right
    have htyp : b.addrAt d + 16 = b.addrAt (d + 16) := b.addrAt_add d 16
    have hlength : b.addrAt d + 8 = b.addrAt (d + 8) := b.addrAt_add d 8
    by_cases hinside : d + 20 ≤ b.totalSize.toNat
    · right
      refine ⟨hin, hinside, ?_⟩
      have hnext : b.addrAt d + entrySize = b.addrAt (d + entrySize.toNat) := by
        rw [← b.addrAt_add, BitVec.ofNat_toNat, BitVec.setWidth_eq]
      rw [← hnext]
      exact entryRound_of_loads hin
        (b.load_fenced_of_le htyp (by decide) hinside)
        (b.load_fenced_of_le hlength (by decide) (by omega))
        (b.load_fenced_of_le rfl (by decide) (by omega))
    · left
      refine ⟨hin, Nat.not_le.mp hinside, ?_⟩
      rw [entryRound]
      dsimp only
      rw [if_pos hin, b.load_fenced_of_gt htyp (by decide) (by omega)
        (by omega)]
      rfl
  · exact .inl ⟨hin, entryRound_of_past hin⟩

theorem toNat_addrAt_sub (hd : d < 2 ^ 64) :
    (b.addrAt d - b.addr).toNat = d := by
  rw [InfoBlock.addrAt, BitVec.add_comm, BitVec.add_sub_cancel,
    BitVec.toNat_ofNat, Nat.mod_eq_of_lt hd]

/-- On the block the entry loop comes to an end; with the largest address as
its bound it does so by a fault. -/
theorem entryLoop_fenced_meets (entriesEnd : BitVec 64) (map : MemoryMap)
    (hmax : b.totalSize.toNat ≤ 65536)
    (hsize : 24 ≤ entrySize.toNat ∧ entrySize.toNat < 2 ^ 32)
    (hd : d < 2 ^ 33) (hfuel : 65536 < fuel) :
    Meets (fun _ => entriesEnd ≠ BitVec.allOnes 64) (· = .fault)
      (loop .outOfFuel (entryRound b.fenced entrySize entriesEnd) fuel
        (b.addrAt d, map)) := by
  apply loop_meets (I := fun s => ∃ d, d < 2 ^ 33 ∧ s.1 = b.addrAt d)
    (μ := fun s => 65536 - (s.1 - b.addr).toNat) _ ⟨d, hd, rfl⟩ (by omega)
  rintro ⟨_, map⟩ ⟨d, hd, rfl⟩
  have hd' : d < 2 ^ 63 := by omega
  rcases entryRound_fenced_cases b entrySize entriesEnd map hd' with
    ⟨hpast, hround⟩ | ⟨-, -, hround⟩ | ⟨-, hinside, hround⟩
  · rw [hround]
    rintro rfl
    exact hpast (le_allOnes _)
  · rw [hround]
    rfl
  · rw [hround]
    refine ⟨⟨d + entrySize.toNat, by omega, rfl⟩, ?_⟩
    dsimp only
    rw [toNat_addrAt_sub (by omega), toNat_addrAt_sub (by omega)]
    omega

theorem entryLoop_fenced_inside (hmax : b.totalSize.toNat ≤ 65536)
    (hsize : 24 ≤ entrySize.toNat)
    (hlast : entriesEnd ≠ BitVec.allOnes 64) (hend : entriesEnd ≤ b.infoEnd)
    (hd : d ≤ b.totalSize.toNat) (fuel : ℕ) (map : MemoryMap) :
    Meets (fun _ => True) (· = .outOfFuel)
      (loop .outOfFuel (entryRound b.fenced entrySize entriesEnd) fuel
        (b.addrAt d, map)) := by
  refine loop_meets_of_stuck
    (I := fun s => ∃ d, d ≤ b.totalSize.toNat ∧ s.1 = b.addrAt d)
    (P := (· = BootStop.outOfFuel)) rfl ?_ fuel ⟨d, hd, rfl⟩
  rintro ⟨_, map⟩ ⟨d, hd, rfl⟩
  have hnext : saturatingAdd (b.addrAt d) entrySize ≤ entriesEnd →
      d + entrySize.toNat ≤ b.totalSize.toNat := by
    intro hin
    have hend' := BitVec.le_def.mp hend
    rw [saturatingAdd_le_iff hlast, InfoBlock.toNat_addrAt] at hin
    rw [InfoBlock.toNat_infoEnd] at hend'
    omega
  have hd' : d < 2 ^ 63 := by omega
  rcases entryRound_fenced_cases b entrySize entriesEnd map hd' with
    ⟨-, hround⟩ | ⟨hin, houtside, -⟩ | ⟨hin, -, hround⟩
  · rw [hround]
    trivial
  · have hle := hnext hin
    omega
  · rw [hround]
    exact ⟨d + entrySize.toNat, hnext hin, rfl⟩

end Entries

namespace InfoBlock

variable {b : InfoBlock} {offset : BitVec 32} {fuel : ℕ}

/-- The first entry of a memory map tag is read. -/
def EntriesRun (b : InfoBlock) (offset : BitVec 32) : Prop :=
  saturatingAdd (b.tagPhys offset + 16) ((b.entrySize offset).setWidth 64) ≤
    b.entriesEnd offset

/-- The entries that are read lie in the block.  Only for a block that ends at
the largest address this is more than the check of the parser. -/
def EntriesInside (b : InfoBlock) (offset : BitVec 32) : Prop :=
  b.HasEntries offset → b.EntriesRun offset →
    offset.toNat + (b.size offset).toNat ≤ b.totalSize.toNat ∧
      b.entriesEnd offset ≠ BitVec.allOnes 64

theorem entriesEnd_le_infoEnd (b : InfoBlock) (offset : BitVec 32) :
    b.entriesEnd offset ≤ b.infoEnd := by
  unfold entriesEnd minWord
  split
  · assumption
  · exact BitVec.le_refl _

theorem firstEntry_eq_addrAt (b : InfoBlock) (offset : BitVec 32) :
    b.tagPhys offset + 16 = b.addrAt (offset.toNat + 16) :=
  b.tagPhys_add offset 16

theorem tagPhys_add_size (b : InfoBlock) (offset : BitVec 32) :
    b.tagPhys offset + (b.size offset).setWidth 64 =
      b.addrAt (offset.toNat + (b.size offset).toNat) := by
  rw [tagPhys_eq_addrAt, ← b.addrAt_add, BitVec.ofNat_toNat]

/-- If the tag does not fit and its first entry is read nevertheless, that
entry lies behind the block. -/
theorem firstEntry_outside (hmax : b.totalSize.toNat ≤ 65536)
    (hlt : offset.toNat < b.totalSize.toNat)
    (hentries : b.HasEntries offset) (hrun : b.EntriesRun offset)
    (hout : ¬ offset.toNat + (b.size offset).toNat ≤ b.totalSize.toNat) :
    b.totalSize.toNat < offset.toNat + 16 := by
  have hend : b.infoEnd = BitVec.allOnes 64 :=
    (fits_cases hmax hlt hentries.2.2.1).resolve_left hout
  have hlast := toNat_infoEnd_allOnes hend
  have hsize := (b.size offset).isLt
  have haddr := b.addr.isLt
  -- the end of the entries wraps around, their start does not
  have hbound : (b.entriesEnd offset).toNat =
      (b.addr.toNat + (offset.toNat + (b.size offset).toNat)) % 2 ^ 64 := by
    rw [entriesEnd, minWord, hend, if_pos (le_allOnes _), tagPhys_add_size,
      toNat_addrAt]
  have hne : b.entriesEnd offset ≠ BitVec.allOnes 64 := by
    intro heq
    rw [heq, BitVec.toNat_allOnes] at hbound
    omega
  by_contra hinside
  rw [EntriesRun, saturatingAdd_le_iff hne, firstEntry_eq_addrAt,
    toNat_addrAt, hbound] at hrun
  omega

theorem HasEntries.entrySize_bounds (h : b.HasEntries offset) :
    24 ≤ ((b.entrySize offset).setWidth 64).toNat ∧
      ((b.entrySize offset).setWidth 64).toNat < 2 ^ 32 := by
  rw [BitVec.toNat_setWidth_of_le (by decide)]
  exact ⟨BitVec.le_def.mp h.2.2.2, (b.entrySize offset).isLt⟩

theorem collect_fenced_ne_stuck (hmax : b.totalSize.toNat ≤ 65536)
    (hfuel : 65536 < fuel) (map : MemoryMap) :
    b.collect b.fenced fuel offset map ≠ .error .outOfFuel := by
  have hbound := offset.isLt
  rw [collect, collectEntries]
  split
  · rename_i hmmap
    rcases b.fenced.load_cases 32 (b.tagPhys offset + 8) with hload | hload
    · rw [hload]
      change (if 24 ≤ b.entrySize offset then _ else _) ≠ _
      split
      · rename_i hsize
        have hentries : b.HasEntries offset :=
          ⟨hmmap.1, hmmap.2.1, hmmap.2.2, hsize⟩
        have hd : offset.toNat + 16 < 2 ^ 33 := by omega
        have hmeets := entryLoop_fenced_meets (b.entriesEnd offset) map hmax
          hentries.entrySize_bounds hd hfuel
        rw [← firstEntry_eq_addrAt] at hmeets
        intro hstuck
        cases hmeets.of_error hstuck
      · rintro ⟨⟩
    · rw [hload]
      rintro ⟨⟩
  · rintro ⟨⟩

section Collect

variable (haddr : ¬ AddressRefused b.addr)
  (hmax : b.totalSize.toNat ≤ 65536) (hmod : offset.toNat % 8 = 0)
  (hheader : offset.toNat + 8 ≤ b.totalSize.toNat)

include haddr hmax hmod hheader

theorem loadsEntrySize_fenced : b.LoadsEntrySize b.fenced offset := by
  intro hsize hfits
  have hinside := entrySize_inside haddr hmax hmod hheader hsize hfits
  exact b.load_fenced_of_le (b.tagPhys_add offset 8) (by decide) hinside

theorem collect_fenced_of_inside (hfuel : 65536 < fuel)
    (hinside : b.EntriesInside offset) (map : MemoryMap) :
    ∃ map', b.collect b.fenced fuel offset map = .ok map' := by
  have hload := loadsEntrySize_fenced haddr hmax hmod hheader
  by_cases hentries : b.HasEntries offset
  · rw [collect_of_entries hload hentries]
    by_cases hrun : b.EntriesRun offset
    · obtain ⟨hfit, hlast⟩ := hinside hentries hrun
      have hsize : 16 ≤ (b.size offset).toNat := BitVec.le_def.mp hentries.2.1
      rw [firstEntry_eq_addrAt]
      have hd : offset.toNat + 16 ≤ b.totalSize.toNat := by omega
      have hread := entryLoop_fenced_inside hmax hentries.entrySize_bounds.1
        hlast (b.entriesEnd_le_infoEnd offset) hd fuel map
      have hd' : offset.toNat + 16 < 2 ^ 33 := by omega
      have hend := entryLoop_fenced_meets (b.entriesEnd offset) map hmax
        hentries.entrySize_bounds hd' hfuel
      exact hread.exists_ok_of_ne hend (by rintro _ rfl; decide)
    · obtain ⟨rounds, rfl⟩ : ∃ rounds, fuel = rounds + 1 := ⟨fuel - 1, by omega⟩
      exact ⟨map, loop_of_done (entryRound_of_past hrun) rounds⟩
  · exact ⟨map, collect_of_not hload hentries⟩

theorem collect_fenced_of_not_inside (hfuel : 65536 < fuel)
    (hinside : ¬ b.EntriesInside offset) (map : MemoryMap) :
    b.collect b.fenced fuel offset map = .error .fault := by
  obtain ⟨hentries, hinside⟩ := Classical.not_imp.mp hinside
  obtain ⟨hrun, hinside⟩ := Classical.not_imp.mp hinside
  have hd : offset.toNat + 16 < 2 ^ 33 := by omega
  rw [collect_of_entries (loadsEntrySize_fenced haddr hmax hmod hheader)
    hentries, firstEntry_eq_addrAt]
  by_cases hfit : offset.toNat + (b.size offset).toNat ≤ b.totalSize.toNat
  · have hlast : b.entriesEnd offset = BitVec.allOnes 64 := by
      by_contra hlast
      exact hinside ⟨hfit, hlast⟩
    have hmeets := entryLoop_fenced_meets (b.entriesEnd offset) map hmax
      hentries.entrySize_bounds hd hfuel
    exact hmeets.eq_error fun _ hne => hne hlast
  · have hout := firstEntry_outside hmax (by omega) hentries hrun hfit
    rw [EntriesRun, firstEntry_eq_addrAt] at hrun
    obtain ⟨rounds, rfl⟩ : ∃ rounds, fuel = rounds + 1 := ⟨fuel - 1, by omega⟩
    have hd' : offset.toNat + 16 < 2 ^ 63 := by omega
    rcases entryRound_fenced_cases b ((b.entrySize offset).setWidth 64)
        (b.entriesEnd offset) map hd' with
      ⟨hpast, -⟩ | ⟨-, -, hround⟩ | ⟨-, hin, -⟩
    · exact absurd hrun hpast
    · exact loop_of_error hround rounds
    · omega

end Collect

/-! ## Rounds -/

/-- The fields of the tag header that the parsers read lie in the block. -/
def HeaderInside (b : InfoBlock) (offset : BitVec 32) : Prop :=
  offset.toNat + 4 ≤ b.totalSize.toNat ∧
    (b.typ offset ≠ tagEnd → offset.toNat + 8 ≤ b.totalSize.toNat)

/-- A tag with an offset for the linear map lies in the block. -/
def KaslrInside (b : InfoBlock) (offset : BitVec 32) : Prop :=
  b.typ offset = mb2TagKaslr → 16 ≤ b.size offset →
    offset.toNat + 16 ≤ b.totalSize.toNat

theorem load_typ_fenced (h : b.HeaderInside offset) :
    b.fenced.load 32 (b.tagPhys offset) = .ok (b.typ offset) :=
  b.load_fenced_of_le (b.tagPhys_eq_addrAt offset) (by decide) h.1

theorem load_size_fenced (h : b.HeaderInside offset)
    (hne : b.typ offset ≠ tagEnd) :
    b.fenced.load 32 (b.tagPhys offset + 4) = .ok (b.size offset) :=
  b.load_fenced_of_le (b.tagPhys_add offset 4) (by decide) (h.2 hne)

theorem load_fenced_of_not_header (h : ¬ b.HeaderInside offset) :
    b.fenced.load 32 (b.tagPhys offset) = .error .fault ∨
      (b.fenced.load 32 (b.tagPhys offset) = .ok (b.typ offset) ∧
        b.typ offset ≠ tagEnd ∧
        b.fenced.load 32 (b.tagPhys offset + 4) = .error .fault) := by
  have hlt := offset.isLt
  by_cases htyp : offset.toNat + 4 ≤ b.totalSize.toNat
  · right
    obtain ⟨hne, hsize⟩ := Classical.not_imp.mp (not_and.mp h htyp)
    exact ⟨b.load_fenced_of_le (b.tagPhys_eq_addrAt offset) (by decide) htyp,
      hne, b.load_fenced_of_gt (b.tagPhys_add offset 4) (by decide) (by omega)
        (by omega)⟩
  · left
    exact b.load_fenced_of_gt (b.tagPhys_eq_addrAt offset) (by decide)
      (by omega) (by omega)

end InfoBlock

section Rounds

variable {b : InfoBlock} {offset : BitVec 32} {fuel : ℕ}

theorem round_fenced_of_not_header {σ ρ : Type} (V : TagVisitor σ ρ)
    (hlt : offset < b.totalSize) (h : ¬ b.HeaderInside offset) (k : σ) :
    b.round V b.fenced (offset, k) = .error .fault := by
  rcases InfoBlock.load_fenced_of_not_header h with
    htyp | ⟨htyp, hne, hsize⟩
  · rw [InfoBlock.tagPhys] at htyp
    simp only [InfoBlock.round, TagVisitor.round, if_pos hlt, htyp]
    rfl
  · rw [InfoBlock.tagPhys] at htyp hsize
    simp only [InfoBlock.round, TagVisitor.round, if_pos hlt, htyp]
    refine (if_neg hne).trans ?_
    simp only [hsize]
    rfl

/-- A parser that faults at the tags that are not `inside` and returns at those
in `stops` reads nothing outside the block exactly if the tags that it comes to
are inside. -/
theorem roundLoop_fenced_iff {σ ρ : Type} {V : TagVisitor σ ρ}
    {stops inside : BitVec 32 → Prop} (k : σ)
    (hend : ∀ offset, b.typ offset = tagEnd → inside offset)
    (hvisit : ∀ offset k, b.Visited stops offset → b.HeaderInside offset →
      b.typ offset ≠ tagEnd →
        (¬ inside offset ∧ b.visits V offset k = .error .fault) ∨
        (inside offset ∧ stops offset ∧
          ∃ result, b.visits V offset k = .ok (.inr result)) ∨
        (inside offset ∧ ¬ stops offset ∧
          ∃ k', b.visits V offset k = .ok (.inl k'))) :
    (∀ s, Relation.ReflTransGen (Goes (b.round V b.fenced)) (8, k) s →
        b.round V b.fenced s ≠ .error .fault) ↔
      ∀ offset, b.Visited stops offset → offset < b.totalSize →
        b.HeaderInside offset ∧ inside offset := by
  apply forall_reachable_ne_error_iff (π := Prod.fst) (R := b.NextTag stops)
    (S := fun offset => offset < b.totalSize →
      b.HeaderInside offset ∧ inside offset)
  rintro ⟨offset, k⟩ hvisited
  by_cases hlt : offset < b.totalSize
  · by_cases hheader : b.HeaderInside offset
    · have htyp := InfoBlock.load_typ_fenced hheader
      by_cases hne : b.typ offset = tagEnd
      · exact .inr (.inl ⟨fun _ => ⟨hheader, hend _ hne⟩, fun _ h => h.2.1 hne,
          _, InfoBlock.round_of_end hlt htyp hne⟩)
      · rw [InfoBlock.round_of_tag hlt htyp hne
          (InfoBlock.load_size_fenced hheader hne)]
        rcases hvisit offset k hvisited hheader hne with ⟨hnot, hout⟩ |
          ⟨hinside, hstop, result, hout⟩ | ⟨hinside, hgoes, k', hout⟩
        · rw [hout]
          exact .inl ⟨fun h => hnot (h hlt).2, rfl⟩
        · rw [hout]
          exact .inr (.inl ⟨fun _ => ⟨hheader, hinside⟩,
            fun _ h => h.2.2.1 hstop, result, rfl⟩)
        · have hround : (b.visits V offset k >>= fun out =>
              .ok (b.advance V offset out)) =
                .ok (b.advance V offset (.inl k')) := by
            rw [hout]
            rfl
          rw [hround, InfoBlock.advance]
          rcases hnext : b.next offset with _ | offset'
          · refine .inr (.inl ⟨fun _ => ⟨hheader, hinside⟩, fun _ h => ?_, _,
              rfl⟩)
            rw [InfoBlock.nextTag_iff hlt hne hgoes, hnext] at h
            cases h
          · refine .inr (.inr ⟨fun _ => ⟨hheader, hinside⟩, (offset', k'),
              fun o => ?_, rfl⟩)
            rw [InfoBlock.nextTag_iff hlt hne hgoes, hnext, Option.some.injEq,
              eq_comm]
    · exact .inl ⟨fun h => hheader (h hlt).1,
        round_fenced_of_not_header V hlt hheader k⟩
  · exact .inr (.inl ⟨fun h => absurd h hlt, fun _ h => hlt h.1, _,
      InfoBlock.round_of_ge hlt⟩)

theorem round_fenced_ne_stuck (hmax : b.totalSize.toNat ≤ 65536)
    (hfuel : 65536 < fuel) (s : BitVec 32 × MemoryMap) :
    b.round (mapVisitor b.fenced fuel) b.fenced s ≠ .error .outOfFuel := by
  obtain ⟨offset, map⟩ := s
  by_cases hlt : offset < b.totalSize
  · by_cases hheader : b.HeaderInside offset
    · have htyp := InfoBlock.load_typ_fenced hheader
      by_cases hend : b.typ offset = tagEnd
      · rw [InfoBlock.round_of_end hlt htyp hend]
        rintro ⟨⟩
      · rw [InfoBlock.round_of_tag hlt htyp hend
          (InfoBlock.load_size_fenced hheader hend), b.visits_map]
        have hne : b.collect b.fenced fuel offset map ≠ .error .outOfFuel :=
          InfoBlock.collect_fenced_ne_stuck hmax hfuel map
        rcases hcollect : b.collect b.fenced fuel offset map with e | map'
        · rw [hcollect] at hne
          intro hstuck
          cases hstuck
          exact hne rfl
        · rintro ⟨⟩
    · rw [round_fenced_of_not_header _ hlt hheader]
      rintro ⟨⟩
  · rw [InfoBlock.round_of_ge hlt]
    rintro ⟨⟩

theorem visits_kaslr_fenced (h : b.KaslrInside offset) :
    b.visits (kaslrVisitor b.fenced) offset () =
      b.visits (kaslrVisitor (.full b.octets)) offset () := by
  by_cases hkaslr : b.typ offset = mb2TagKaslr ∧ 16 ≤ b.size offset
  · have hload := b.load_fenced_of_le (w := 64) (b.tagPhys_add offset 8)
      (by decide) (h hkaslr.1 hkaslr.2)
    simp only [InfoBlock.visits, kaslrVisitor, if_pos hkaslr]
    rw [BootMemory.load_full]
    exact congrArg (· >>= _) hload
  · simp only [InfoBlock.visits, kaslrVisitor, if_neg hkaslr]

theorem visits_kaslr_fault (h : ¬ b.KaslrInside offset) :
    b.visits (kaslrVisitor b.fenced) offset () = .error .fault := by
  obtain ⟨htyp, h⟩ := Classical.not_imp.mp h
  obtain ⟨hsize, hout⟩ := Classical.not_imp.mp h
  have hbound := offset.isLt
  have hload : b.fenced.load 64 (b.tagPhys offset + 8) = .error .fault :=
    b.load_fenced_of_gt (b.tagPhys_add offset 8) (by decide) (by omega)
      (Nat.not_le.mp hout)
  simp only [InfoBlock.visits, kaslrVisitor, if_pos (And.intro htyp hsize),
    hload]
  rfl

end Rounds

/-! ## Both parsers -/

section Parsers

variable {b : InfoBlock}

/-- The tag loop of `parse_multiboot2` stays in the block exactly if the tags
that it comes to do. -/
theorem tagLoop_fenced_iff (haddr : ¬ AddressRefused b.addr)
    (hmax : b.totalSize.toNat ≤ 65536) :
    (∀ fuel, loop .outOfFuel (b.round (mapVisitor b.fenced fuel) b.fenced) fuel
        (8, .empty) ≠ .error .fault) ↔
      ∀ offset, b.Visited InfoBlock.mapStops offset → offset < b.totalSize →
        b.HeaderInside offset ∧ b.EntriesInside offset := by
  have hfuel : 65536 < 65537 := by decide
  rw [forall_loop_ne_error_iff_of_stable (round_stable b b.fenced)
    (round_fenced_ne_stuck hmax hfuel) (by decide)]
  apply roundLoop_fenced_iff
  · intro offset hend hentries
    rw [InfoBlock.HasEntries, hend] at hentries
    exact absurd hentries.1 (by decide)
  · intro offset map hvisited hheader hne
    have hmod : offset.toNat % 8 = 0 := hvisited.offset_mod
    rw [b.visits_map]
    by_cases hinside : b.EntriesInside offset
    · obtain ⟨map', hcollect⟩ := InfoBlock.collect_fenced_of_inside haddr hmax
        hmod (hheader.2 hne) hfuel hinside map
      rw [hcollect]
      exact .inr (.inr ⟨hinside, id, map', rfl⟩)
    · rw [InfoBlock.collect_fenced_of_not_inside haddr hmax hmod
        (hheader.2 hne) hfuel hinside map]
      exact .inl ⟨hinside, rfl⟩

theorem kaslrLoop_fenced_iff :
    (∀ fuel, loop .outOfFuel (b.round (kaslrVisitor b.fenced) b.fenced) fuel
        (8, ()) ≠ .error .fault) ↔
      ∀ offset, b.Visited b.AcceptsKaslr offset → offset < b.totalSize →
        b.HeaderInside offset ∧ b.KaslrInside offset := by
  rw [forall_loop_ne_error_iff (by decide)]
  apply roundLoop_fenced_iff
  · intro offset hend hkaslr
    rw [hend] at hkaslr
    exact absurd hkaslr (by decide)
  · intro offset _ _ _ _
    by_cases hinside : b.KaslrInside offset
    · rw [visits_kaslr_fenced hinside]
      by_cases haccepts : b.AcceptsKaslr offset
      · exact .inr (.inl ⟨hinside, haccepts, _,
          visits_kaslr_accepts b haccepts⟩)
      · exact .inr (.inr ⟨hinside, haccepts, _, visits_kaslr_skips b haccepts⟩)
    · exact .inl ⟨hinside, visits_kaslr_fault hinside⟩

theorem load_totalSize_fenced (hsize : SizeInRange b.totalSize) :
    b.fenced.load 32 b.addr = .ok b.totalSize := by
  have hmin : 8 ≤ b.totalSize.toNat := BitVec.le_def.mp hsize.1
  have hstart : b.addr = b.addrAt 0 := (BitVec.add_zero b.addr).symm
  refine b.load_fenced_of_le hstart (by decide) ?_
  omega

/-- Both parsers read nothing outside a block of accepted size exactly if its
address is refused, or the tag headers and offset tags that they come to lie
in the block, and the entries of the memory map tags do. -/
theorem parsers_read_inside_iff (b : InfoBlock)
    (hsize : SizeInRange b.totalSize) :
    (∀ fuel,
        parseMultiboot2 b.fenced fuel b.addr ≠ .error .fault ∧
          parseKaslrOffset b.fenced fuel b.addr ≠ .error .fault) ↔
      (¬ AddressRefused b.addr →
        (∀ offset, b.Visited InfoBlock.mapStops offset →
          offset < b.totalSize →
            b.HeaderInside offset ∧ b.EntriesInside offset) ∧
        ∀ offset, b.Visited b.AcceptsKaslr offset → offset < b.totalSize →
          b.HeaderInside offset ∧ b.KaslrInside offset) := by
  by_cases haddr : AddressRefused b.addr
  · constructor
    · exact fun _ h => absurd haddr h
    · intro _ fuel
      rw [parseMultiboot2, if_pos haddr, parseKaslrOffset, if_pos haddr]
      constructor
      · rintro ⟨⟩
      · rintro ⟨⟩
  · have hmax : b.totalSize.toNat ≤ 65536 := BitVec.le_def.mp hsize.2
    have hload := load_totalSize_fenced hsize
    rw [forall_and]
    simp only [parseMultiboot2_eq_loop hload haddr hsize,
      parseKaslrOffset_eq_loop hload haddr hsize]
    rw [tagLoop_fenced_iff haddr hmax, kaslrLoop_fenced_iff]
    exact ⟨fun h _ => h, fun h => h haddr⟩

/-- A block with the offset of the linear map: its header, the offset tag and
the end tag. -/
def kaslrBlock (off : BitVec 64) : InfoBlock where
  octets := Mem.write (fun _ => 0) 0x1000
    ([32, 0, 0, 0, 0, 0, 0, 0, 0x52, 0x53, 0x41, 0x4B, 16, 0, 0, 0] ++
      wordToLe 8 off ++ [0, 0, 0, 0, 8, 0, 0, 0])
  addr := 0x1000

/-- That block is read without a fault. -/
theorem parsers_read_inside_kaslrBlock :
    ∃ b : InfoBlock, SizeInRange b.totalSize ∧ ¬ AddressRefused b.addr ∧
      b.AcceptsKaslr 8 ∧
      ∀ fuel, parseMultiboot2 b.fenced fuel b.addr ≠ .error .fault ∧
        parseKaslrOffset b.fenced fuel b.addr ≠ .error .fault := by
  let b := kaslrBlock 0xFFFFA00000000000
  have htotal : b.totalSize = 32 := by decide
  have hend : b.typ 24 = tagEnd := by decide
  have hnext : b.next 8 = some 24 := by decide
  have hvisited : ∀ offset, b.Visited InfoBlock.mapStops offset →
      offset = 8 ∨ offset = 24 := by
    intro offset h
    induction h with
    | refl => exact .inl rfl
    | tail _ hstep ih =>
      rcases ih with rfl | rfl
      · exact .inr (Option.some.inj (hstep.2.2.2.symm.trans hnext))
      · exact absurd hend hstep.2.1
  have hsize : SizeInRange b.totalSize := by decide
  have hheader : ∀ offset, offset = 8 ∨ offset = 24 →
      b.HeaderInside offset := by
    rintro _ (rfl | rfl)
    · exact ⟨by decide, fun _ => by decide⟩
    · exact ⟨by decide, fun h => absurd hend h⟩
  refine ⟨b, hsize, by decide, ⟨by decide, by decide, by decide, by decide⟩, ?_⟩
  refine (parsers_read_inside_iff b hsize).mpr fun _ => ⟨?_, ?_⟩
  · intro offset h _
    have hoffset := hvisited offset h
    refine ⟨hheader offset hoffset, fun hentries => ?_⟩
    rcases hoffset with rfl | rfl
    · exact absurd hentries.1 (by decide)
    · exact absurd hentries.1 (by decide)
  · intro offset h _
    have hoffset := hvisited offset h.mono
    refine ⟨hheader offset hoffset, fun hkaslr _ => ?_⟩
    rcases hoffset with rfl | rfl
    · decide
    · exact absurd hkaslr (by decide)

/-- A block of 12 octets: the size field of its first tag lies behind it. -/
def cutHeaderBlock : InfoBlock where
  octets := Mem.write (fun _ => 0) 0x1000 [12, 0, 0, 0, 0, 0, 0, 0, 1, 0, 0, 0]
  addr := 0x1000

/-- A block of 16 octets with the header of an offset tag, whose offset lies
behind it. -/
def cutKaslrBlock : InfoBlock where
  octets := Mem.write (fun _ => 0) 0x1000
    [16, 0, 0, 0, 0, 0, 0, 0, 0x52, 0x53, 0x41, 0x4B, 16, 0, 0, 0]
  addr := 0x1000

/-- Both parsers read the size field behind the first block, and
`parse_kaslr_offset` the offset behind the second. -/
theorem cutBlocks_fault :
    SizeInRange cutHeaderBlock.totalSize ∧
      SizeInRange cutKaslrBlock.totalSize ∧
      parseMultiboot2 cutHeaderBlock.fenced 1 0x1000 = .error .fault ∧
      parseKaslrOffset cutHeaderBlock.fenced 1 0x1000 = .error .fault ∧
      parseKaslrOffset cutKaslrBlock.fenced 1 0x1000 = .error .fault := by
  have hsize : SizeInRange cutHeaderBlock.totalSize := by decide
  have haddr : ¬ AddressRefused cutHeaderBlock.addr := by decide
  have hlt : 8 < cutHeaderBlock.totalSize := by decide
  have hheader : ¬ cutHeaderBlock.HeaderInside 8 := fun h =>
    absurd (h.2 (by decide)) (by decide)
  have hsize' : SizeInRange cutKaslrBlock.totalSize := by decide
  have haddr' : ¬ AddressRefused cutKaslrBlock.addr := by decide
  have hlt' : 8 < cutKaslrBlock.totalSize := by decide
  have hkaslr : ¬ cutKaslrBlock.KaslrInside 8 := fun h =>
    absurd (h (by decide) (by decide)) (by decide)
  have hload := load_totalSize_fenced hsize
  refine ⟨hsize, hsize', ?_, ?_, ?_⟩
  · exact (parseMultiboot2_eq_loop hload haddr hsize 1).trans
      (loop_of_error (round_fenced_of_not_header _ hlt hheader _) 0)
  · exact (parseKaslrOffset_eq_loop hload haddr hsize 1).trans
      (loop_of_error (round_fenced_of_not_header _ hlt hheader _) 0)
  · have hheader' : cutKaslrBlock.HeaderInside 8 :=
      ⟨by decide, fun _ => by decide⟩
    have hne' : cutKaslrBlock.typ 8 ≠ tagEnd := by decide
    refine (parseKaslrOffset_eq_loop (load_totalSize_fenced hsize') haddr'
      hsize' 1).trans (loop_of_error ?_ 0)
    rw [InfoBlock.round_of_tag hlt' (InfoBlock.load_typ_fenced hheader') hne'
      (InfoBlock.load_size_fenced hheader' hne'), visits_kaslr_fault hkaslr]
    rfl

end Parsers

end Multiboot2

end IsoLightK0
