import IsoLightK0.Boot.Multiboot2

/-!
# Walking the tags

Both parsers come to the next tag by adding the rounded size of the present
one.  The rounded size is zero for a size of zero, and also for the seven
largest sizes, for which the sum wraps around.  At such a tag the walk stays
where it is.

The loop over the entries of a memory map tag ends unless its bound is the
largest address: a saturated sum never exceeds that.
-/

namespace IsoLightK0

open Bytes Loops

namespace Multiboot2

namespace InfoBlock

section Rounds

variable {σ ρ : Type} (b : InfoBlock) (V : TagVisitor σ ρ)

def round (m : BootMemory) (s : BitVec 32 × σ) :
    Except BootStop ((BitVec 32 × σ) ⊕ ρ) :=
  V.round m b.addr b.totalSize s

/-- What a parser makes of the tag at an offset. -/
def visits (offset : BitVec 32) (k : σ) : Except BootStop (σ ⊕ ρ) :=
  V.visit (b.tagPhys offset) b.infoEnd (b.typ offset) (b.size offset) k

/-- Where the loop goes from there. -/
def advance (offset : BitVec 32) : σ ⊕ ρ → (BitVec 32 × σ) ⊕ ρ
  | .inr result => .inr result
  | .inl k =>
    match b.next offset with
    | none => .inr (V.done k)
    | some offset' => .inl (offset', k)

variable {b V} {m : BootMemory} {offset : BitVec 32} {k : σ}

theorem round_of_ge (h : ¬ offset < b.totalSize) :
    b.round V m (offset, k) = .ok (.inr (V.done k)) :=
  if_neg h

theorem round_of_end (hlt : offset < b.totalSize)
    (htyp : m.load 32 (b.tagPhys offset) = .ok (b.typ offset))
    (hend : b.typ offset = tagEnd) :
    b.round V m (offset, k) = .ok (.inr (V.done k)) := by
  rw [tagPhys] at htyp
  simp only [round, TagVisitor.round, if_pos hlt, htyp]
  exact if_pos hend

theorem round_of_tag (hlt : offset < b.totalSize)
    (htyp : m.load 32 (b.tagPhys offset) = .ok (b.typ offset))
    (hne : b.typ offset ≠ tagEnd)
    (hsize : m.load 32 (b.tagPhys offset + 4) = .ok (b.size offset)) :
    b.round V m (offset, k) =
      b.visits V offset k >>= fun out => .ok (b.advance V offset out) := by
  rw [tagPhys] at htyp hsize
  simp only [round, TagVisitor.round, if_pos hlt, htyp]
  refine (if_neg hne).trans ?_
  simp only [hsize]
  show (b.visits V offset k >>= fun out => _) = _
  refine congrArg _ (funext fun out => ?_)
  rcases out with k' | result
  · rw [advance, next]
    cases checkedAdd offset (roundedSize (b.size offset)) <;> rfl
  · rfl

theorem round_full_of_tag (hlt : offset < b.totalSize)
    (hne : b.typ offset ≠ tagEnd) :
    b.round V (.full b.octets) (offset, k) =
      b.visits V offset k >>= fun out => .ok (b.advance V offset out) :=
  round_of_tag hlt (BootMemory.load_full _ _ _) hne (BootMemory.load_full _ _ _)

end Rounds

/-- The entries that `parse_multiboot2` collects at an offset. -/
def collect (b : InfoBlock) (m : BootMemory) (fuel : ℕ) (offset : BitVec 32)
    (map : MemoryMap) : Except BootStop MemoryMap :=
  collectEntries m fuel (b.tagPhys offset) b.infoEnd (b.typ offset)
    (b.size offset) map

theorem visits_map (b : InfoBlock) (m : BootMemory) (fuel : ℕ)
    (offset : BitVec 32) (map : MemoryMap) :
    b.visits (mapVisitor m fuel) offset map =
      b.collect m fuel offset map >>= fun map => .ok (.inl map) :=
  rfl

end InfoBlock

theorem toNat_roundedSize (size : BitVec 32) :
    (roundedSize size).toNat = (size.toNat + 7) % 2 ^ 32 / 8 * 8 := by
  have hsum : (size + 7).toNat = (size.toNat + 7) % 2 ^ 32 :=
    BitVec.toNat_add size 7
  rw [← hsum]
  exact toNat_and_not_low (size + 7) 3

/-- The walk does not leave a tag of size zero, nor one of the seven largest
sizes. -/
theorem roundedSize_eq_zero_iff (size : BitVec 32) :
    roundedSize size = 0 ↔ size = 0 ∨ 0xFFFFFFF8 < size := by
  have hlt := size.isLt
  have hmax : (0xFFFFFFF8 : BitVec 32).toNat = 0xFFFFFFF8 := rfl
  have hzero : (0 : BitVec 32).toNat = 0 := rfl
  rw [← BitVec.toNat_inj, toNat_roundedSize, ← BitVec.toNat_inj,
    BitVec.lt_def, hmax, hzero]
  omega

theorem checkedAdd_eq_some_iff (a c d : BitVec 32) :
    checkedAdd a c = some d ↔ a.toNat + c.toNat = d.toNat := by
  unfold checkedAdd
  have hd := d.isLt
  split
  · rename_i hlt
    rw [Option.some.injEq, ← BitVec.toNat_inj, BitVec.toNat_add,
      Nat.mod_eq_of_lt hlt]
  · rename_i hge
    refine ⟨fun h => (nomatch h), fun h => ?_⟩
    omega

namespace InfoBlock

variable {b : InfoBlock} {offset offset' : BitVec 32}

theorem next_eq_some_iff :
    b.next offset = some offset' ↔
      offset.toNat + (roundedSize (b.size offset)).toNat = offset'.toNat :=
  checkedAdd_eq_some_iff _ _ _

theorem nextTag_iff {stops : BitVec 32 → Prop} (hlt : offset < b.totalSize)
    (hne : b.typ offset ≠ tagEnd) (hstop : ¬ stops offset) :
    b.NextTag stops offset offset' ↔ b.next offset = some offset' :=
  ⟨fun h => h.2.2.2, fun h => ⟨hlt, hne, hstop, h⟩⟩

theorem next_eq_self (h : roundedSize (b.size offset) = 0) :
    b.next offset = some offset := by
  rw [next_eq_some_iff, h]
  rfl

theorem lt_of_next (h : b.next offset = some offset')
    (hne : roundedSize (b.size offset) ≠ 0) :
    offset.toNat < offset'.toNat := by
  rw [next_eq_some_iff] at h
  have hpos : (roundedSize (b.size offset)).toNat ≠ 0 := fun hzero =>
    hne (BitVec.eq_of_toNat_eq hzero)
  omega

end InfoBlock

/-! ## Entries -/

theorem saturatingAdd_le_iff {x y z : BitVec 64} (hz : z ≠ BitVec.allOnes 64) :
    saturatingAdd x y ≤ z ↔ x.toNat + y.toNat ≤ z.toNat := by
  have hlt : z.toNat < 2 ^ 64 - 1 := by
    have hle := z.isLt
    have hne : z.toNat ≠ (BitVec.allOnes 64).toNat := fun h =>
      hz (BitVec.eq_of_toNat_eq h)
    rw [BitVec.toNat_allOnes] at hne
    omega
  rw [saturatingAdd, BitVec.le_def]
  split
  · rename_i hsum
    rw [BitVec.toNat_add, Nat.mod_eq_of_lt hsum]
  · rename_i hsum
    rw [BitVec.toNat_allOnes]
    omega

theorem le_allOnes (x : BitVec 64) : x ≤ BitVec.allOnes 64 := by
  rw [BitVec.le_def, BitVec.toNat_allOnes]
  have hlt := x.isLt
  omega

/-- What a round of the entry loop adds to the map. -/
def addEntry (octets : Mem) (entryPtr : BitVec 64) (map : MemoryMap) :
    MemoryMap :=
  let length := BootMemory.word octets 64 (entryPtr + 8)
  if 0 < length then
    (map.addRegion ⟨BootMemory.word octets 64 entryPtr, length,
      entryKind (BootMemory.word octets 32 (entryPtr + 16))⟩).2
  else map

section Entries

variable {m : BootMemory} {entrySize entriesEnd entryPtr : BitVec 64}
  {map : MemoryMap}

theorem entryRound_of_past
    (h : ¬ saturatingAdd entryPtr entrySize ≤ entriesEnd) :
    entryRound m entrySize entriesEnd (entryPtr, map) = .ok (.inr map) :=
  if_neg h

theorem entryRound_of_loads
    (hin : saturatingAdd entryPtr entrySize ≤ entriesEnd)
    (htyp : m.load 32 (entryPtr + 16) =
      .ok (BootMemory.word m.octets 32 (entryPtr + 16)))
    (hlength : m.load 64 (entryPtr + 8) =
      .ok (BootMemory.word m.octets 64 (entryPtr + 8)))
    (hbase : m.load 64 entryPtr = .ok (BootMemory.word m.octets 64 entryPtr)) :
    entryRound m entrySize entriesEnd (entryPtr, map) =
      .ok (.inl (entryPtr + entrySize, addEntry m.octets entryPtr map)) := by
  rw [entryRound, addEntry]
  dsimp only
  rw [if_pos hin, htyp, hlength, hbase]
  generalize BootMemory.word m.octets 64 (entryPtr + 8) = length
  generalize BootMemory.word m.octets 64 entryPtr = base
  generalize BootMemory.word m.octets 32 (entryPtr + 16) = typ
  by_cases hpos : 0 < length
  · rw [if_pos hpos]
    exact if_pos hpos
  · rw [if_neg hpos]
    exact if_neg hpos

theorem entryRound_full {octets : Mem}
    (hin : saturatingAdd entryPtr entrySize ≤ entriesEnd) :
    entryRound (.full octets) entrySize entriesEnd (entryPtr, map) =
      .ok (.inl (entryPtr + entrySize, addEntry octets entryPtr map)) :=
  entryRound_of_loads hin (BootMemory.load_full _ _ _)
    (BootMemory.load_full _ _ _) (BootMemory.load_full _ _ _)

/-- With the largest address as its bound the loop goes on for ever. -/
theorem entryLoop_eq_outOfFuel (octets : Mem) (entrySize : BitVec 64)
    (fuel : ℕ) (s : BitVec 64 × MemoryMap) :
    loop .outOfFuel (entryRound (.full octets) entrySize
      (BitVec.allOnes 64)) fuel s = .error .outOfFuel := by
  apply loop_eq_stuck (I := fun _ => True) _ fuel trivial
  rintro ⟨entryPtr, map⟩ -
  exact .inr ⟨_, entryRound_full (le_allOnes _), trivial⟩

theorem entryLoop_returns {octets : Mem} {fuel : ℕ} (hsize : 24 ≤ entrySize)
    (hend : entriesEnd ≠ BitVec.allOnes 64) (hfuel : 2 ^ 64 < fuel)
    (s : BitVec 64 × MemoryMap) :
    ∃ map', loop .outOfFuel (entryRound (.full octets) entrySize entriesEnd)
      fuel s = .ok map' := by
  have hlt := entriesEnd.isLt
  have hmeets : Meets (fun _ => True) (fun _ => False)
      (loop .outOfFuel (entryRound (.full octets) entrySize entriesEnd)
        fuel s) := by
    apply loop_meets (I := fun _ => True)
      (μ := fun s => entriesEnd.toNat - s.1.toNat) _ trivial (by omega)
    rintro ⟨entryPtr, map⟩ -
    by_cases hin : saturatingAdd entryPtr entrySize ≤ entriesEnd
    · rw [entryRound_full hin]
      refine ⟨trivial, ?_⟩
      have hsum := (saturatingAdd_le_iff hend).mp hin
      have hpos : 24 ≤ entrySize.toNat := BitVec.le_def.mp hsize
      dsimp only
      rw [BitVec.toNat_add, Nat.mod_eq_of_lt (by omega)]
      omega
    · rw [entryRound_of_past hin]
      trivial
  obtain ⟨map', hloop, -⟩ := hmeets.exists_ok
  exact ⟨map', hloop⟩

end Entries

namespace InfoBlock

variable {b : InfoBlock} {offset : BitVec 32} {map : MemoryMap} {fuel : ℕ}

/-- The entry size can be read at a memory map tag that passes the checks
before it. -/
def LoadsEntrySize (b : InfoBlock) (m : BootMemory) (offset : BitVec 32) :
    Prop :=
  16 ≤ b.size offset →
    saturatingAdd (b.tagPhys offset) ((b.size offset).setWidth 64) ≤
      b.infoEnd →
    m.load 32 (b.tagPhys offset + 8) = .ok (b.entrySize offset)

theorem loadsEntrySize_full (b : InfoBlock) (offset : BitVec 32) :
    b.LoadsEntrySize (.full b.octets) offset :=
  fun _ _ => BootMemory.load_full _ _ _

theorem collect_of_not {m : BootMemory} (hload : b.LoadsEntrySize m offset)
    (h : ¬ b.HasEntries offset) : b.collect m fuel offset map = .ok map := by
  rw [collect, collectEntries]
  split
  · rename_i hmmap
    have hsmall : ¬ 24 ≤ b.entrySize offset := fun hsize =>
      h ⟨hmmap.1, hmmap.2.1, hmmap.2.2, hsize⟩
    rw [hload hmmap.2.1 hmmap.2.2]
    exact if_neg hsmall
  · rfl

theorem collect_of_entries {m : BootMemory}
    (hload : b.LoadsEntrySize m offset) (h : b.HasEntries offset) :
    b.collect m fuel offset map =
      loop .outOfFuel (entryRound m ((b.entrySize offset).setWidth 64)
        (b.entriesEnd offset)) fuel (b.tagPhys offset + 16, map) := by
  obtain ⟨htyp, hsize, hfits, hentry⟩ := h
  rw [collect, collectEntries, if_pos ⟨htyp, hsize, hfits⟩, hload hsize hfits]
  exact if_pos hentry

/-- A memory map tag whose entries would reach to the largest address. -/
def Endless (b : InfoBlock) (offset : BitVec 32) : Prop :=
  b.HasEntries offset ∧ b.entriesEnd offset = BitVec.allOnes 64

theorem collect_of_endless (h : b.Endless offset) :
    b.collect (.full b.octets) fuel offset map = .error .outOfFuel := by
  rw [collect_of_entries (b.loadsEntrySize_full offset) h.1, h.2]
  exact entryLoop_eq_outOfFuel _ _ _ _

theorem collect_returns (b : InfoBlock) (map : MemoryMap)
    (h : ¬ b.Endless offset) (hfuel : 2 ^ 64 < fuel) :
    ∃ map', b.collect (.full b.octets) fuel offset map = .ok map' := by
  by_cases hentries : b.HasEntries offset
  · have hsize : (24 : BitVec 64) ≤ (b.entrySize offset).setWidth 64 := by
      have hle : 24 ≤ (b.entrySize offset).toNat :=
        BitVec.le_def.mp hentries.2.2.2
      rw [BitVec.le_def, BitVec.toNat_setWidth_of_le (by decide)]
      exact hle
    rw [collect_of_entries (b.loadsEntrySize_full offset) hentries]
    exact entryLoop_returns hsize (fun hend => h ⟨hentries, hend⟩) hfuel _
  · exact ⟨map, collect_of_not (b.loadsEntrySize_full offset) hentries⟩

theorem collect_full_cases (b : InfoBlock) (fuel : ℕ) (offset : BitVec 32)
    (map : MemoryMap) :
    b.collect (.full b.octets) fuel offset map = .error .outOfFuel ∨
      ∃ map', b.collect (.full b.octets) fuel offset map = .ok map' := by
  by_cases hentries : b.HasEntries offset
  · rw [collect_of_entries (b.loadsEntrySize_full offset) hentries]
    have hmeets : Meets (fun _ => True) (· = .outOfFuel)
        (loop .outOfFuel (entryRound (.full b.octets)
          ((b.entrySize offset).setWidth 64) (b.entriesEnd offset)) fuel
          (b.tagPhys offset + 16, map)) := by
      refine loop_meets_of_stuck (I := fun _ => True)
        (P := (· = BootStop.outOfFuel)) rfl ?_ fuel trivial
      rintro ⟨entryPtr, map⟩ -
      by_cases hin : saturatingAdd entryPtr
          ((b.entrySize offset).setWidth 64) ≤ b.entriesEnd offset
      · rw [entryRound_full hin]
        trivial
      · rw [entryRound_of_past hin]
        trivial
    rcases hloop : loop .outOfFuel (entryRound (.full b.octets)
        ((b.entrySize offset).setWidth 64) (b.entriesEnd offset)) fuel
        (b.tagPhys offset + 16, map) with e | map'
    · rw [hmeets.of_error hloop]
      exact .inl rfl
    · exact .inr ⟨map', rfl⟩
  · exact .inr ⟨map, collect_of_not (b.loadsEntrySize_full offset) hentries⟩

end InfoBlock

/-! ## The walk of `parse_multiboot2` -/

section Walk

variable (b : InfoBlock)

/-- The tag loop on memory that may be read everywhere. -/
def tagLoop (fuel rounds : ℕ) (s : BitVec 32 × MemoryMap) :
    Except BootStop MemoryMap :=
  loop .outOfFuel (b.round (mapVisitor (.full b.octets) fuel) (.full b.octets))
    rounds s

variable {offset : BitVec 32} {fuel : ℕ} {map : MemoryMap}

/-- The walk leaves the tag at an offset behind. -/
structure InfoBlock.Passes (offset : BitVec 32) : Prop where
  size_ne : b.size offset ≠ 0
  size_le : b.size offset ≤ 0xFFFFFFF8
  bounded : ¬ b.Endless offset

theorem InfoBlock.Passes.roundedSize_ne {b : InfoBlock} (h : b.Passes offset) :
    roundedSize (b.size offset) ≠ 0 := by
  rw [Ne, roundedSize_eq_zero_iff]
  rintro (hzero | hlarge)
  · exact h.size_ne hzero
  · exact absurd h.size_le (BitVec.not_le.mpr hlarge)

theorem round_full_stuck (hlt : offset < b.totalSize)
    (hne : b.typ offset ≠ tagEnd)
    (hcollect : b.collect (.full b.octets) fuel offset map =
      .error .outOfFuel) :
    b.round (mapVisitor (.full b.octets) fuel) (.full b.octets) (offset, map) =
      .error .outOfFuel := by
  rw [InfoBlock.round_full_of_tag hlt hne, b.visits_map, hcollect]
  rfl

theorem round_full_next {offset' : BitVec 32} {map' : MemoryMap}
    (hlt : offset < b.totalSize) (hne : b.typ offset ≠ tagEnd)
    (hnext : b.next offset = some offset')
    (hcollect : b.collect (.full b.octets) fuel offset map = .ok map') :
    b.round (mapVisitor (.full b.octets) fuel) (.full b.octets) (offset, map) =
      .ok (.inl (offset', map')) := by
  rw [InfoBlock.round_full_of_tag hlt hne, b.visits_map, hcollect]
  show Except.ok (b.advance _ offset (.inl map')) = _
  rw [InfoBlock.advance, hnext]

/-- A parser that comes to a tag which it does not get past is stuck
there. -/
theorem passes_of_tagLoop {rounds : ℕ} (hlt : offset < b.totalSize)
    (hne : b.typ offset ≠ tagEnd)
    (hloop : tagLoop b fuel rounds (offset, map) ≠ .error .outOfFuel) :
    b.Passes offset := by
  have hbounded : ¬ b.Endless offset := by
    intro hendless
    apply hloop
    apply loop_eq_stuck (I := fun s => s.1 = offset) _ rounds rfl
    rintro ⟨_, map⟩ rfl
    exact .inl (round_full_stuck b hlt hne
      (InfoBlock.collect_of_endless hendless))
  have hrounded : roundedSize (b.size offset) ≠ 0 := by
    intro hzero
    apply hloop
    apply loop_eq_stuck (I := fun s => s.1 = offset) _ rounds rfl
    rintro ⟨_, map⟩ rfl
    -- the map may grow, the offset stays
    rcases b.collect_full_cases fuel _ map with hstuck | ⟨map', hcollect⟩
    · exact .inl (round_full_stuck b hlt hne hstuck)
    · exact .inr ⟨_, round_full_next b hlt hne
        (InfoBlock.next_eq_self hzero) hcollect, rfl⟩
  rw [Ne, roundedSize_eq_zero_iff, not_or] at hrounded
  exact ⟨hrounded.1, BitVec.not_lt.mp hrounded.2, hbounded⟩

theorem tagLoop_of_visited (hvisited : b.Visited InfoBlock.mapStops offset)
    (hloop : tagLoop b fuel fuel (8, .empty) ≠ .error .outOfFuel) :
    ∃ rounds map, tagLoop b fuel rounds (offset, map) ≠ .error .outOfFuel := by
  induction hvisited with
  | refl => exact ⟨fuel, .empty, hloop⟩
  | tail _ hnext ih =>
    obtain ⟨rounds, map, hloop'⟩ := ih
    obtain ⟨hlt, hne, -, hnext⟩ := hnext
    cases rounds with
    | zero => exact absurd rfl hloop'
    | succ rounds =>
      rcases b.collect_full_cases fuel _ map with hstuck | ⟨map', hcollect⟩
      · exact absurd (loop_of_error (round_full_stuck b hlt hne hstuck) rounds)
          hloop'
      · refine ⟨rounds, map', ?_⟩
        have hround := round_full_next b hlt hne hnext hcollect
        rwa [tagLoop, loop_of_next hround] at hloop'

/-- A parser returns if it can read every tag that it comes to and, unless it
returns there, gets past it. -/
theorem roundLoop_returns {σ ρ : Type} (V : TagVisitor σ ρ)
    (stops : BitVec 32 → Prop) {fuel : ℕ} (hfuel : 2 ^ 32 ≤ fuel) (k : σ)
    (hvisit : ∀ offset k, b.Visited stops offset → offset < b.totalSize →
      b.typ offset ≠ tagEnd →
        roundedSize (b.size offset) ≠ 0 ∧
          ((∃ result, b.visits V offset k = .ok (.inr result)) ∨
            ¬ stops offset ∧ ∃ k', b.visits V offset k = .ok (.inl k'))) :
    ∃ result, loop .outOfFuel (b.round V (.full b.octets)) fuel (8, k) =
      .ok result := by
  have hstart : b.Visited stops 8 := Relation.ReflTransGen.refl
  have height : (8 : BitVec 32).toNat = 8 := rfl
  have hmeets : Meets (fun _ => True) (fun _ => False)
      (loop .outOfFuel (b.round V (.full b.octets)) fuel (8, k)) := by
    apply loop_meets (I := fun s => b.Visited stops s.1)
      (μ := fun s => 2 ^ 32 - s.1.toNat) _ hstart (by dsimp only; omega)
    rintro ⟨offset, k⟩ hvisited
    by_cases hlt : offset < b.totalSize
    · by_cases hne : b.typ offset = tagEnd
      · rw [InfoBlock.round_of_end hlt (BootMemory.load_full _ _ _) hne]
        trivial
      · rw [InfoBlock.round_full_of_tag hlt hne]
        obtain ⟨hmoves, ⟨result, hout⟩ | ⟨hgoes, k', hout⟩⟩ :=
          hvisit offset k hvisited hlt hne
        · rw [hout]
          trivial
        · rw [hout]
          show Meets _ _ (Except.ok (b.advance V offset (.inl k')))
          rw [InfoBlock.advance]
          rcases hnext : b.next offset with _ | offset'
          · trivial
          · have hmove := InfoBlock.lt_of_next hnext hmoves
            have hbound := offset'.isLt
            refine ⟨hvisited.tail ⟨hlt, hne, hgoes, hnext⟩, ?_⟩
            dsimp only
            omega
    · rw [InfoBlock.round_of_ge hlt]
      trivial
  obtain ⟨result, hloop, -⟩ := hmeets.exists_ok
  exact ⟨result, hloop⟩

/-- The tag loop returns exactly if it gets past every tag that it comes
to. -/
theorem tagLoop_halts_iff :
    Halts .outOfFuel (fun fuel => tagLoop b fuel fuel (8, .empty)) ↔
      ∀ offset, b.Visited InfoBlock.mapStops offset →
        offset < b.totalSize → b.typ offset ≠ tagEnd → b.Passes offset := by
  constructor
  · rintro ⟨fuel, hloop⟩ offset hvisited hlt hne
    obtain ⟨rounds, map, hloop'⟩ := tagLoop_of_visited b hvisited hloop
    exact passes_of_tagLoop b hlt hne hloop'
  · intro hpasses
    have hfuel : 2 ^ 32 ≤ 2 ^ 64 + 1 := by decide
    obtain ⟨map, hreturn⟩ := roundLoop_returns b (mapVisitor _ _)
      InfoBlock.mapStops hfuel MemoryMap.empty
      fun offset map hvisited hlt hne => by
        have hpass := hpasses offset hvisited hlt hne
        obtain ⟨map', hcollect⟩ :=
          b.collect_returns map hpass.bounded (Nat.lt_succ_self (2 ^ 64))
        refine ⟨hpass.roundedSize_ne, .inr ⟨id, map', ?_⟩⟩
        rw [b.visits_map, hcollect]
        rfl
    refine ⟨2 ^ 64 + 1, fun hstuck => ?_⟩
    cases hreturn.symm.trans hstuck

/-! ## The walk of `parse_kaslr_offset` -/

theorem visits_kaslr_accepts (haccepts : b.AcceptsKaslr offset) :
    b.visits (kaslrVisitor (.full b.octets)) offset () =
      .ok (.inr (some (b.physMapOffset offset))) := by
  obtain ⟨htyp, hsize, hoff⟩ := haccepts
  simp only [InfoBlock.visits, kaslrVisitor, if_pos (And.intro htyp hsize),
    BootMemory.load_full]
  exact if_pos hoff

theorem visits_kaslr_skips (hskip : ¬ b.AcceptsKaslr offset) :
    b.visits (kaslrVisitor (.full b.octets)) offset () = .ok (.inl ()) := by
  by_cases hkaslr : b.typ offset = mb2TagKaslr ∧ 16 ≤ b.size offset
  · simp only [InfoBlock.visits, kaslrVisitor, if_pos hkaslr,
      BootMemory.load_full]
    exact if_neg fun hoff => hskip ⟨hkaslr.1, hkaslr.2, hoff⟩
  · exact if_neg hkaslr

theorem InfoBlock.Visited.mono {b : InfoBlock} {stops : BitVec 32 → Prop}
    (h : b.Visited stops offset) : b.Visited InfoBlock.mapStops offset := by
  have hle : b.NextTag stops ≤ b.NextTag InfoBlock.mapStops := by
    rintro _ _ ⟨hlt, hne, -, hnext⟩
    exact ⟨hlt, hne, id, hnext⟩
  exact Relation.ReflTransGen.mono hle 8 offset h

end Walk

/-! ## Both parsers -/

section Parsers

variable {b : InfoBlock}

section Loops

-- The checks before the loops pass.
variable {m : BootMemory} (hload : m.load 32 b.addr = .ok b.totalSize)
  (haddr : ¬ AddressRefused b.addr) (hsize : SizeInRange b.totalSize)

include hload haddr hsize

theorem parseMultiboot2_eq_loop (fuel : ℕ) :
    parseMultiboot2 m fuel b.addr =
      loop .outOfFuel (b.round (mapVisitor m fuel) m) fuel (8, .empty) := by
  rw [parseMultiboot2, if_neg haddr, hload]
  exact if_pos hsize

theorem parseKaslrOffset_eq_loop (fuel : ℕ) :
    parseKaslrOffset m fuel b.addr =
      loop .outOfFuel (b.round (kaslrVisitor m) m) fuel (8, ()) := by
  rw [parseKaslrOffset, if_neg haddr, hload]
  exact if_pos hsize

end Loops

theorem parseMultiboot2_invalidSize (haddr : ¬ AddressRefused b.addr)
    (hsize : ¬ SizeInRange b.totalSize) (fuel : ℕ) :
    parseMultiboot2 (.full b.octets) fuel b.addr =
      .error (.parse .invalidSize) := by
  rw [parseMultiboot2, if_neg haddr, BootMemory.load_full]
  exact if_neg hsize

theorem parsers_refuse
    (h : ¬ (¬ AddressRefused b.addr ∧ SizeInRange b.totalSize)) (fuel : ℕ) :
    (∃ e, parseMultiboot2 (.full b.octets) fuel b.addr =
        .error (.parse e)) ∧
      parseKaslrOffset (.full b.octets) fuel b.addr = .ok none := by
  by_cases haddr : AddressRefused b.addr
  · exact ⟨⟨.invalidAddress, if_pos haddr⟩, if_pos haddr⟩
  · have hsize : ¬ SizeInRange b.totalSize := fun hsize => h ⟨haddr, hsize⟩
    refine ⟨⟨.invalidSize, parseMultiboot2_invalidSize haddr hsize fuel⟩, ?_⟩
    rw [parseKaslrOffset, if_neg haddr, BootMemory.load_full]
    exact if_neg hsize

/-- Both parsers return exactly if the block is refused at once or they get
past every tag that they come to. -/
theorem parsers_halt_iff (b : InfoBlock) :
    Halts .outOfFuel
          (fun fuel => parseMultiboot2 (.full b.octets) fuel b.addr) ∧
        Halts .outOfFuel
          (fun fuel => parseKaslrOffset (.full b.octets) fuel b.addr) ↔
      (¬ AddressRefused b.addr → SizeInRange b.totalSize →
        ∀ offset, b.Visited InfoBlock.mapStops offset →
          offset < b.totalSize → b.typ offset ≠ tagEnd →
            b.Passes offset) := by
  by_cases hchecks : ¬ AddressRefused b.addr ∧ SizeInRange b.totalSize
  · obtain ⟨haddr, hsize⟩ := hchecks
    have hmap : (fun fuel => parseMultiboot2 (.full b.octets) fuel b.addr) =
        fun fuel => tagLoop b fuel fuel (8, .empty) :=
      funext (parseMultiboot2_eq_loop (BootMemory.load_full ..) haddr hsize)
    rw [hmap, tagLoop_halts_iff]
    constructor
    · rintro ⟨hpasses, -⟩ - -
      exact hpasses
    · intro hpasses
      refine ⟨hpasses haddr hsize, ?_⟩
      obtain ⟨result, hloop⟩ := roundLoop_returns b
        (kaslrVisitor (.full b.octets)) b.AcceptsKaslr (Nat.le_refl (2 ^ 32)) ()
        fun offset _ hvisited hlt hne => by
          refine ⟨(hpasses haddr hsize offset hvisited.mono hlt
            hne).roundedSize_ne, ?_⟩
          by_cases haccepts : b.AcceptsKaslr offset
          · exact .inl ⟨_, visits_kaslr_accepts b haccepts⟩
          · exact .inr ⟨haccepts, (), visits_kaslr_skips b haccepts⟩
      exact halts_of_ok ((parseKaslrOffset_eq_loop (BootMemory.load_full ..)
        haddr hsize _).trans hloop)
  · constructor
    · intro _ haddr hsize
      exact absurd ⟨haddr, hsize⟩ hchecks
    · intro _
      obtain ⟨⟨e, hmap⟩, hkaslr⟩ := parsers_refuse hchecks 0
      refine ⟨⟨0, fun hstuck => ?_⟩, halts_of_ok hkaslr⟩
      cases hmap.symm.trans hstuck

/-- A block of 16 octets whose only tag has type 1 and size zero. -/
def zeroSizeBlock : InfoBlock where
  octets := Mem.write (fun _ => 0) 0x1000
    [16, 0, 0, 0, 0, 0, 0, 0, 1, 0, 0, 0, 0, 0, 0, 0]
  addr := 0x1000

/-- On that block neither parser returns. -/
theorem zeroSizeBlock_not_halts :
    ¬ Halts .outOfFuel (fun fuel => parseMultiboot2
        (.full zeroSizeBlock.octets) fuel zeroSizeBlock.addr) ∧
      ¬ Halts .outOfFuel (fun fuel => parseKaslrOffset
        (.full zeroSizeBlock.octets) fuel zeroSizeBlock.addr) := by
  have haddr : ¬ AddressRefused zeroSizeBlock.addr := by decide
  have hsize : SizeInRange zeroSizeBlock.totalSize := by decide
  have hlt : 8 < zeroSizeBlock.totalSize := by decide
  have hne : zeroSizeBlock.typ 8 ≠ tagEnd := by decide
  have hzero : zeroSizeBlock.size 8 = 0 := by decide
  constructor
  · rintro ⟨fuel, hfuel⟩
    refine hfuel ((parseMultiboot2_eq_loop (BootMemory.load_full ..) haddr
      hsize fuel).trans ?_)
    by_contra hloop
    exact (passes_of_tagLoop zeroSizeBlock hlt hne hloop).size_ne hzero
  · rintro ⟨fuel, hfuel⟩
    refine hfuel ((parseKaslrOffset_eq_loop (BootMemory.load_full ..) haddr
      hsize fuel).trans ?_)
    apply loop_eq_stuck (I := (· = (8, ()))) _ fuel rfl
    rintro _ rfl
    refine .inr ⟨(8, ()), ?_, rfl⟩
    rw [InfoBlock.round_full_of_tag hlt hne, visits_kaslr_skips zeroSizeBlock
      fun haccepts => absurd haccepts.1 (by decide)]
    show Except.ok (zeroSizeBlock.advance _ 8 (.inl ())) = _
    rw [InfoBlock.advance, InfoBlock.next_eq_self (by rw [hzero]; decide)]

theorem collectEntries_stable (m : BootMemory) (tagPhys infoEnd : BitVec 64)
    (typ size : BitVec 32) (map : MemoryMap) :
    Stable .outOfFuel fun fuel =>
      collectEntries m fuel tagPhys infoEnd typ size map := by
  unfold collectEntries
  split
  · refine (stable_const (m.load 32 (tagPhys + 8))).bind fun entrySize => ?_
    split
    · exact stable_loop_const _ _
    · exact stable_const _
  · exact stable_const _

theorem round_stable (b : InfoBlock) (m : BootMemory)
    (s : BitVec 32 × MemoryMap) :
    Stable .outOfFuel fun fuel => b.round (mapVisitor m fuel) m s := by
  unfold InfoBlock.round TagVisitor.round mapVisitor
  dsimp only
  split
  · refine (stable_const (m.load 32 _)).bind fun typ => ?_
    split
    · exact stable_const _
    · refine (stable_const (m.load 32 _)).bind fun size => ?_
      refine Stable.bind ?_ fun _ => stable_const _
      exact (collectEntries_stable _ _ _ _ _ _).bind fun _ => stable_const _
  · exact stable_const _

end Parsers

end Multiboot2

end IsoLightK0
