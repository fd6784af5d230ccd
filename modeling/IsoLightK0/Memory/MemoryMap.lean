import IsoLightK0.Memory.Ranges

/-!
# The memory map of the firmware

The regions that the firmware reports are collected in a table of 64 entries,
and the usable ones among them are made free.  The regions of the other kinds
are not consulted, so that a region which overlaps a usable one is made free
with it.
-/

namespace IsoLightK0

open BitmapFrameAllocator

inductive ParseError
  | invalidAddress
  | invalidSize
  deriving DecidableEq, Repr

inductive MemoryKind
  | usable
  | reserved
  | acpiReclaimable
  | acpiNvs
  | badMemory
  deriving DecidableEq, Repr

structure MemoryRegion where
  base : BitVec 64
  length : BitVec 64
  kind : MemoryKind
  deriving DecidableEq

def maxRegions : ℕ := 64

/-- The entries of the table that are in use. -/
structure MemoryMap where
  regions : List MemoryRegion
  length_le : regions.length ≤ maxRegions

namespace MemoryMap

def empty : MemoryMap where
  regions := []
  length_le := Nat.zero_le _

/-- `add_region`: when the table is full the region is dropped, and the call
still succeeds. -/
def addRegion (map : MemoryMap) (region : MemoryRegion) :
    Except ParseError Unit × MemoryMap :=
  if h : maxRegions ≤ map.regions.length then (.ok (), map)
  else (.ok (), {
    regions := map.regions ++ [region]
    length_le := by
      rw [List.length_append, List.length_singleton]
      omega })

def usableRegions (map : MemoryMap) : List MemoryRegion :=
  map.regions.filter fun r => r.kind = .usable

/-- `add_region` on each region in order, as the parser of the boot information
calls it: it ignores the results. -/
def addRegions (map : MemoryMap) (regions : List MemoryRegion) : MemoryMap :=
  regions.foldl (fun map r => (map.addRegion r).2) map

def ofRegions (regions : List MemoryRegion) : MemoryMap :=
  empty.addRegions regions

theorem regions_addRegion (map : MemoryMap) (region : MemoryRegion) :
    (map.addRegion region).2.regions =
      (map.regions ++ [region]).take maxRegions := by
  have hle := map.length_le
  unfold addRegion
  split
  · rename_i hfull
    rw [List.take_append_of_le_length hfull, List.take_of_length_le hle]
  · rename_i hroom
    rw [List.take_of_length_le]
    rw [List.length_append, List.length_singleton]
    omega

theorem addRegions_cons (map : MemoryMap) (r : MemoryRegion)
    (regions : List MemoryRegion) :
    map.addRegions (r :: regions) = (map.addRegion r).2.addRegions regions :=
  rfl

theorem addRegions_append (map : MemoryMap) (first rest : List MemoryRegion) :
    map.addRegions (first ++ rest) = (map.addRegions first).addRegions rest :=
  List.foldl_append

theorem regions_addRegions (map : MemoryMap) (regions : List MemoryRegion) :
    (map.addRegions regions).regions =
      (map.regions ++ regions).take maxRegions := by
  have hcut : ∀ first rest : List MemoryRegion,
      (first.take maxRegions ++ rest).take maxRegions =
        (first ++ rest).take maxRegions := by
    intro first rest
    have hlen : maxRegions - (first.take maxRegions).length =
        maxRegions - first.length := by
      rw [List.length_take]
      omega
    rw [List.take_append, List.take_append, List.take_take, min_self, hlen]
  induction regions generalizing map with
  | nil =>
    rw [List.append_nil, List.take_of_length_le map.length_le]
    rfl
  | cons r regions ih =>
    rw [addRegions_cons, ih, regions_addRegion, hcut,
      List.append_cons map.regions r regions]

theorem regions_ofRegions (regions : List MemoryRegion) :
    (ofRegions regions).regions = regions.take maxRegions :=
  regions_addRegions empty regions

end MemoryMap

namespace BitmapFrameAllocator

def initFromMemoryMap (a : BitmapFrameAllocator) (map : MemoryMap) :
    BitmapFrameAllocator :=
  map.usableRegions.foldl (fun a r => a.markRangeFree r.base r.length) a

/-- The frames that `init_from_memory_map` frees. -/
def FreedByMap (map : MemoryMap) (f : ℕ) : Prop :=
  ∃ u ∈ map.usableRegions, FreedBy u.base u.length f

theorem isFree_initFromMemoryMap (a : BitmapFrameAllocator) (map : MemoryMap)
    (f : ℕ) :
    (a.initFromMemoryMap map).isFree f = true ↔
      a.isFree f = true ∨ FreedByMap map f := by
  have hfold : ∀ (regions : List MemoryRegion) (a : BitmapFrameAllocator),
      (regions.foldl (fun a r => a.markRangeFree r.base r.length) a).isFree f =
          true ↔
        a.isFree f = true ∨ ∃ u ∈ regions, FreedBy u.base u.length f := by
    intro regions
    induction regions with
    | nil => simp
    | cons r regions ih =>
      intro a
      rw [List.foldl_cons, ih, isFree_markRangeFree, or_assoc,
        List.exists_mem_cons_iff]
  exact hfold map.usableRegions a

end BitmapFrameAllocator

/-! ## Regions that are not usable -/

/-- No frame that touches a region of another kind is free once the regions
have been collected and the allocator has been initialised. -/
def UnusableStayReserved (regions : List MemoryRegion) : Prop :=
  ∀ r ∈ regions, r.kind ≠ .usable → ∀ f, f < maxFrames →
    Touches r.base r.length f →
      (new.initFromMemoryMap (.ofRegions regions)).isFree f = false

/-- The pages of `r` are apart from the frames of the usable region `u`, from
its wrapped and rounded base to its wrapped and rounded end. -/
def ClearOf (u r : MemoryRegion) : Prop :=
  r.length.toNat = 0 ∨
  min ((u.base.toNat + u.length.toNat) % 2 ^ 64 / frameSize) maxFrames ≤
    max ((u.base.toNat + 4095) % 2 ^ 64 / frameSize)
      (r.base.toNat / frameSize) ∨
  (r.base.toNat + r.length.toNat + 4095) / frameSize ≤
    (u.base.toNat + 4095) % 2 ^ 64 / frameSize

theorem clearOf_iff (u r : MemoryRegion) :
    ClearOf u r ↔ ∀ f, f < maxFrames → Touches r.base r.length f →
      ¬ FreedBy u.base u.length f := by
  unfold ClearOf
  constructor
  · rintro h f hf htouch ⟨hlow, hhigh, -⟩
    rw [touches_iff] at htouch
    unfold frameSize at *
    omega
  · intro h
    by_contra hno
    have hshared := h (max ((u.base.toNat + 4095) % 2 ^ 64 / frameSize)
      (r.base.toNat / frameSize)) (by omega)
    apply hshared
    · rw [touches_iff]
      unfold frameSize at *
      omega
    · unfold FreedBy
      omega

/-- Regions of the other kinds stay reserved exactly if the usable regions
among the first 64 keep clear of all of them. -/
theorem unusableStayReserved_iff (regions : List MemoryRegion) :
    UnusableStayReserved regions ↔
      ∀ u ∈ regions.take maxRegions, u.kind = .usable →
        ∀ r ∈ regions, r.kind ≠ .usable → ClearOf u r := by
  have hfree : ∀ f, (new.initFromMemoryMap (.ofRegions regions)).isFree f =
      false ↔ ∀ u ∈ regions.take maxRegions, u.kind = .usable →
        ¬ FreedBy u.base u.length f := by
    intro f
    rw [← Bool.not_eq_true, isFree_initFromMemoryMap, isFree_new, FreedByMap,
      MemoryMap.usableRegions, MemoryMap.regions_ofRegions]
    simp
  constructor
  · intro h u hu husable r hr hkind
    rw [clearOf_iff]
    intro f hf htouch
    exact (hfree f).mp (h r hr hkind f hf htouch) u hu husable
  · intro h r hr hkind f hf htouch
    rw [hfree]
    intro u hu husable
    exact (clearOf_iff u r).mp (h u hu husable r hr hkind) f hf htouch

def overlappingRegions : List MemoryRegion :=
  [⟨0, 0x3000, .usable⟩, ⟨0x1000, 0x1000, .reserved⟩]

/-- The reserved page is free afterwards. -/
theorem reserved_page_freed :
    Touches 0x1000 0x1000 1 ∧
      (new.initFromMemoryMap (.ofRegions overlappingRegions)).isFree 1 =
        true := by
  refine ⟨?_, ?_⟩
  · rw [touches_iff]
    decide
  · rw [isFree_initFromMemoryMap]
    exact .inr ⟨⟨0, 0x3000, .usable⟩, by decide, by decide⟩

end IsoLightK0
