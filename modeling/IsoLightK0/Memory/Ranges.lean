import IsoLightK0.Memory.Frames

/-!
# Ranges of frames

`mark_range_free` and `mark_range_used` translate a range of physical addresses
into a range of frames.  Both compute the bounds with 64-bit additions that
wrap around, and only then cut them off at 4 GiB.  This module says which
frames they mark, and for which ranges these are the right ones.
-/

namespace IsoLightK0

namespace BitmapFrameAllocator

/-- `BitmapFrameAllocator::new`: every frame is reserved. -/
def new : BitmapFrameAllocator where
  bitmap _ := BitVec.allOnes 64
  freeCount := 0
  nextFreeWord := 0

def markUsed (a : BitmapFrameAllocator) (frameIdx : ℕ) :
    BitmapFrameAllocator :=
  { a with
    bitmap := fun i =>
      if i = frameIdx / 64 then
        a.bitmap (frameIdx / 64) ||| (1#64 <<< (frameIdx % 64))
      else a.bitmap i }

def markFree (a : BitmapFrameAllocator) (frameIdx : ℕ) :
    BitmapFrameAllocator :=
  { a with
    bitmap := fun i =>
      if i = frameIdx / 64 then
        a.bitmap (frameIdx / 64) &&& ~~~(1#64 <<< (frameIdx % 64))
      else a.bitmap i }

/-- The loop body of `mark_range_free`. -/
def freeFrame (a : BitmapFrameAllocator) (frameIdx : ℕ) :
    BitmapFrameAllocator :=
  if a.isFree frameIdx then a
  else { a.markFree frameIdx with freeCount := a.freeCount + 1 }

/-- The loop body of `mark_range_used`; the subtraction saturates. -/
def useFrame (a : BitmapFrameAllocator) (frameIdx : ℕ) :
    BitmapFrameAllocator :=
  if a.isFree frameIdx then
    { a.markUsed frameIdx with freeCount := a.freeCount - 1 }
  else a

/-- The hint is moved down to a word in which a frame has become free. -/
def lowerHint (a : BitmapFrameAllocator) (word : ℕ) : BitmapFrameAllocator :=
  if word < a.nextFreeWord then { a with nextFreeWord := word } else a

/-- `mark_range_free`, with additions that wrap around. -/
def markRangeFree (a : BitmapFrameAllocator) (base length : BitVec 64) :
    BitmapFrameAllocator :=
  let alignedBase := (base + 4096 - 1) &&& ~~~0xFFF#64
  let alignedEnd := (base + length) &&& ~~~0xFFF#64
  if alignedEnd ≤ alignedBase then a
  else
    let startIdx := (alignedBase / 4096).toNat
    let endIdx := min (alignedEnd / 4096).toNat maxFrames
    ((List.range' startIdx (endIdx - startIdx)).foldl freeFrame a).lowerHint
      (startIdx / 64)

def divCeil (x y : BitVec 64) : BitVec 64 :=
  if 0 < x % y then x / y + 1 else x / y

/-- `mark_range_used`, with an addition that wraps around. -/
def markRangeUsed (a : BitmapFrameAllocator) (base length : BitVec 64) :
    BitmapFrameAllocator :=
  let startIdx := (base / 4096).toNat
  let endIdx := min (divCeil (base + length) 4096).toNat maxFrames
  (List.range' startIdx (endIdx - startIdx)).foldl useFrame a

/-! ## Single frames -/

variable {a : BitmapFrameAllocator}

theorem isFree_markUsed (a : BitmapFrameAllocator) (i f : ℕ) :
    (a.markUsed i).isFree f = true ↔ a.isFree f = true ∧ f ≠ i := by
  have hsplit : i / 64 * 64 + i % 64 = i := by omega
  have hmark : (a.markUsed i).isFree f = true ↔
      a.isFree f = true ∧ f ≠ i / 64 * 64 + i % 64 :=
    isFree_mark (Nat.mod_lt i (by omega)) (fun _ => rfl) f
  rwa [hsplit] at hmark

theorem getLsbD_and_not_one_shiftLeft (word : BitVec 64) {bit i : ℕ}
    (hbit : bit < 64) (hi : i < 64) :
    (word &&& ~~~(1#64 <<< bit)).getLsbD i =
      (word.getLsbD i && decide (i ≠ bit)) := by
  have hone : (1#64 <<< bit).getLsbD i = decide (i = bit) := by
    rw [← BitVec.twoPow_eq, BitVec.getLsbD_twoPow]
    simp [hbit, eq_comm]
  rw [BitVec.getLsbD_and, BitVec.getLsbD_not, hone]
  simp [hi]

theorem isFree_markFree (a : BitmapFrameAllocator) (i f : ℕ) :
    (a.markFree i).isFree f = true ↔ a.isFree f = true ∨ f = i := by
  have hbitmap : (a.markFree i).bitmap (f / 64) =
      if f / 64 = i / 64 then a.bitmap (i / 64) &&& ~~~(1#64 <<< (i % 64))
      else a.bitmap (f / 64) := rfl
  rw [isFree_eq, isFree_eq, hbitmap]
  by_cases hword : f / 64 = i / 64
  · have hidx : f = i ↔ f % 64 = i % 64 := by omega
    rw [if_pos hword, getLsbD_and_not_one_shiftLeft _
      (Nat.mod_lt i (by omega)) (Nat.mod_lt f (by omega)), hword, hidx]
    simp
  · have hne : f ≠ i := by
      rintro rfl
      exact hword rfl
    rw [if_neg hword]
    simp [hne]

theorem isFree_freeFrame (a : BitmapFrameAllocator) (i f : ℕ) :
    (a.freeFrame i).isFree f = true ↔ a.isFree f = true ∨ f = i := by
  unfold freeFrame
  split
  · rename_i hfree
    constructor
    · exact Or.inl
    · rintro (hold | rfl)
      · exact hold
      · exact hfree
  · exact isFree_markFree a i f

theorem isFree_useFrame (a : BitmapFrameAllocator) (i f : ℕ) :
    (a.useFrame i).isFree f = true ↔ a.isFree f = true ∧ f ≠ i := by
  unfold useFrame
  split
  · exact isFree_markUsed a i f
  · rename_i hused
    constructor
    · intro hold
      refine ⟨hold, ?_⟩
      rintro rfl
      exact hused hold
    · exact And.left

theorem isFree_lowerHint (a : BitmapFrameAllocator) (word f : ℕ) :
    (a.lowerHint word).isFree f = a.isFree f := by
  unfold lowerHint
  split
  · rfl
  · rfl

theorem isFree_foldl_freeFrame (indices : List ℕ) (a : BitmapFrameAllocator)
    (f : ℕ) :
    (indices.foldl freeFrame a).isFree f = true ↔
      a.isFree f = true ∨ f ∈ indices := by
  induction indices generalizing a with
  | nil => simp
  | cons i indices ih =>
    rw [List.foldl_cons, ih, isFree_freeFrame, List.mem_cons, or_assoc]

theorem isFree_foldl_useFrame (indices : List ℕ) (a : BitmapFrameAllocator)
    (f : ℕ) :
    (indices.foldl useFrame a).isFree f = true ↔
      a.isFree f = true ∧ f ∉ indices := by
  induction indices generalizing a with
  | nil => simp
  | cons i indices ih =>
    rw [List.foldl_cons, ih, isFree_useFrame, List.mem_cons, not_or, and_assoc]

/-! ## The frames of a range -/

/-- The frames that `mark_range_free` frees: those from the base, rounded up
with a wrapping addition, to the wrapped end, rounded down. -/
def FreedBy (base length : BitVec 64) (f : ℕ) : Prop :=
  (base.toNat + 4095) % 2 ^ 64 / frameSize ≤ f ∧
    f < (base.toNat + length.toNat) % 2 ^ 64 / frameSize ∧ f < maxFrames

/-- The frames that `mark_range_used` takes: those from the base, rounded
down, to the wrapped end, rounded up. -/
def UsedBy (base length : BitVec 64) (f : ℕ) : Prop :=
  base.toNat / frameSize ≤ f ∧
    f < ((base.toNat + length.toNat) % 2 ^ 64 + 4095) / frameSize ∧
      f < maxFrames

instance (base length : BitVec 64) (f : ℕ) :
    Decidable (FreedBy base length f) :=
  inferInstanceAs (Decidable (_ ∧ _ ∧ _))

instance (base length : BitVec 64) (f : ℕ) :
    Decidable (UsedBy base length f) :=
  inferInstanceAs (Decidable (_ ∧ _ ∧ _))

variable (x base length : BitVec 64)

theorem toNat_aligned :
    (x &&& ~~~0xFFF#64).toNat = x.toNat / frameSize * frameSize :=
  Bytes.toNat_and_not_low x 12

theorem toNat_aligned_div :
    ((x &&& ~~~0xFFF#64) / 4096).toNat = x.toNat / frameSize := by
  have hfour : (4096 : BitVec 64).toNat = frameSize := rfl
  rw [BitVec.toNat_udiv, hfour, toNat_aligned, Nat.mul_div_cancel _ (by decide)]

theorem toNat_roundUp :
    (base + 4096 - 1).toNat = (base.toNat + 4095) % 2 ^ 64 := by
  have hone : base + 4096 - 1 = base + 4095#64 := by
    bv_omega
  rw [hone, BitVec.toNat_add]
  rfl

theorem toNat_divCeil :
    (divCeil x 4096).toNat = (x.toNat + 4095) / frameSize := by
  have hfour : (4096 : BitVec 64).toNat = 4096 := rfl
  have hone : (1 : BitVec 64).toNat = 1 := rfl
  have hx := x.isLt
  unfold divCeil frameSize
  split
  · rename_i hpos
    have hmod : 0 < x.toNat % 4096 := by
      have := BitVec.lt_def.mp hpos
      rw [BitVec.toNat_umod, hfour] at this
      exact this
    rw [BitVec.toNat_add, BitVec.toNat_udiv, hfour, hone]
    omega
  · rename_i hzero
    have hmod : x.toNat % 4096 = 0 := by
      rw [BitVec.lt_def, BitVec.toNat_umod, hfour] at hzero
      exact Nat.eq_zero_of_not_pos hzero
    rw [BitVec.toNat_udiv, hfour]
    omega

theorem isFree_markRangeFree (a : BitmapFrameAllocator)
    (base length : BitVec 64) (f : ℕ) :
    (a.markRangeFree base length).isFree f = true ↔
      a.isFree f = true ∨ FreedBy base length f := by
  unfold markRangeFree FreedBy
  dsimp only
  rw [toNat_aligned_div, toNat_aligned_div, toNat_roundUp, BitVec.toNat_add]
  split
  · rename_i hle
    rw [BitVec.le_def, toNat_aligned, toNat_aligned, toNat_roundUp,
      BitVec.toNat_add] at hle
    have hempty : (base.toNat + length.toNat) % 2 ^ 64 / frameSize ≤
        (base.toNat + 4095) % 2 ^ 64 / frameSize :=
      Nat.le_of_mul_le_mul_right hle (by decide)
    constructor
    · exact Or.inl
    · rintro (hold | ⟨hlow, hhigh, -⟩)
      · exact hold
      · omega
  · rw [isFree_lowerHint, isFree_foldl_freeFrame, List.mem_range'_1]
    apply or_congr_right
    omega

theorem isFree_markRangeUsed (a : BitmapFrameAllocator)
    (base length : BitVec 64) (f : ℕ) :
    (a.markRangeUsed base length).isFree f = true ↔
      a.isFree f = true ∧ ¬ UsedBy base length f := by
  have hstart : (base / 4096).toNat = base.toNat / frameSize :=
    BitVec.toNat_udiv
  unfold markRangeUsed UsedBy
  dsimp only
  rw [hstart, toNat_divCeil, BitVec.toNat_add, isFree_foldl_useFrame,
    List.mem_range'_1]
  apply and_congr_right
  intro _
  omega

/-! ## Exactness -/

def InFrame (f addr : ℕ) : Prop :=
  f * frameSize ≤ addr ∧ addr < (f + 1) * frameSize

/-- The octets of the range of `length` octets from `base` on. -/
def InRegion (base length : BitVec 64) (addr : ℕ) : Prop :=
  base.toNat ≤ addr ∧ addr < base.toNat + length.toNat

def Inside (base length : BitVec 64) (f : ℕ) : Prop :=
  ∀ addr, InFrame f addr → InRegion base length addr

def Touches (base length : BitVec 64) (f : ℕ) : Prop :=
  ∃ addr, InFrame f addr ∧ InRegion base length addr

theorem inside_iff (f : ℕ) :
    Inside base length f ↔ base.toNat ≤ f * frameSize ∧
      (f + 1) * frameSize ≤ base.toNat + length.toNat := by
  unfold Inside InFrame InRegion frameSize
  constructor
  · intro h
    obtain ⟨hfirst, -⟩ := h (f * 4096) ⟨le_rfl, by omega⟩
    obtain ⟨-, hlast⟩ := h ((f + 1) * 4096 - 1) ⟨by omega, by omega⟩
    omega
  · intro h addr haddr
    omega

theorem touches_iff (f : ℕ) :
    Touches base length f ↔ base.toNat < (f + 1) * frameSize ∧
      f * frameSize < base.toNat + length.toNat ∧ 0 < length.toNat := by
  unfold Touches InFrame InRegion frameSize
  constructor
  · rintro ⟨addr, hframe, hregion⟩
    omega
  · intro h
    rcases Nat.le_total base.toNat (f * 4096) with hle | hle
    · exact ⟨f * 4096, by omega, by omega⟩
    · exact ⟨base.toNat, by omega, by omega⟩

/-- `mark_range_free` frees the frames below 4 GiB inside the range. -/
def FreesExactly (base length : BitVec 64) : Prop :=
  ∀ (a : BitmapFrameAllocator) f, f < maxFrames →
    ((a.markRangeFree base length).isFree f = true ↔
      a.isFree f = true ∨ Inside base length f)

/-- `mark_range_used` takes the frames below 4 GiB that touch the range. -/
def UsesExactly (base length : BitVec 64) : Prop :=
  ∀ (a : BitmapFrameAllocator) f, f < maxFrames →
    ((a.markRangeUsed base length).isFree f = true ↔
      a.isFree f = true ∧ ¬ Touches base length f)

/-- No addition of `mark_range_free` wraps around, or only that of the end and
the range lies above the last frame; or both wrap around and what is left of
the range is smaller than a frame. -/
def FreeFits (base length : BitVec 64) : Prop :=
  (base.toNat + 4095 < 2 ^ 64 ∧
    (base.toNat + length.toNat < 2 ^ 64 ∨ 2 ^ 32 - 4096 < base.toNat)) ∨
  (2 ^ 64 ≤ base.toNat + 4095 ∧ 2 ^ 64 ≤ base.toNat + length.toNat ∧
    base.toNat + length.toNat < 2 ^ 64 + 4096)

/-- The range starts above 4 GiB, or its end does not wrap around and it is
not empty or starts with a frame, or what the wrapped end leaves out is above
the last frame. -/
def UsedFits (base length : BitVec 64) : Prop :=
  2 ^ 32 ≤ base.toNat ∨
  (base.toNat + length.toNat < 2 ^ 64 ∧
    (0 < length.toNat ∨ base.toNat % 4096 = 0)) ∨
  2 ^ 64 + 2 ^ 32 - 4096 < base.toNat + length.toNat

theorem isFree_new (f : ℕ) : new.isFree f = false :=
  not_isFree_of_ones rfl

def allFree : BitmapFrameAllocator where
  bitmap _ := 0
  freeCount := maxFrames
  nextFreeWord := 0

theorem isFree_allFree (f : ℕ) : allFree.isFree f = true := by
  rw [isFree_eq]
  simp [allFree]

theorem freesExactly_iff_bounds :
    FreesExactly base length ↔
      ∀ f, f < maxFrames → (FreedBy base length f ↔ Inside base length f) := by
  constructor
  · intro h f hf
    have hnew := h new f hf
    rw [isFree_markRangeFree, isFree_new] at hnew
    simpa using hnew
  · intro h a f hf
    rw [isFree_markRangeFree, h f hf]

theorem usesExactly_iff_bounds :
    UsesExactly base length ↔
      ∀ f, f < maxFrames → (UsedBy base length f ↔ Touches base length f) := by
  constructor
  · intro h f hf
    have hfree := h allFree f hf
    rw [isFree_markRangeUsed, isFree_allFree] at hfree
    simpa [not_iff_not] using hfree
  · intro h a f hf
    rw [isFree_markRangeUsed, h f hf]

theorem freesExactly_iff : FreesExactly base length ↔ FreeFits base length := by
  have hbase := base.isLt
  have hlength := length.isLt
  rw [freesExactly_iff_bounds]
  unfold FreeFits
  constructor
  · intro h
    by_contra hno
    by_cases hwrap : base.toNat + 4095 < 2 ^ 64
    · -- the end wraps around, so that the first frame of the range stays
      have hfirst := h ((base.toNat + 4095) / 4096) (by
        unfold maxFrames
        omega)
      rw [inside_iff] at hfirst
      unfold FreedBy frameSize maxFrames at hfirst
      omega
    · -- the rounded base wraps around to the first frame of all
      have hzero := h 0 (by decide)
      rw [inside_iff] at hzero
      unfold FreedBy frameSize maxFrames at hzero
      omega
  · intro h f hf
    rw [inside_iff]
    unfold maxFrames at hf
    unfold FreedBy frameSize maxFrames
    omega

theorem usesExactly_iff : UsesExactly base length ↔ UsedFits base length := by
  have hbase := base.isLt
  have hlength := length.isLt
  rw [usesExactly_iff_bounds]
  unfold UsedFits
  constructor
  · intro h
    by_contra hno
    have hfirst := h (base.toNat / 4096) (by
      unfold maxFrames
      omega)
    have hlast := h (2 ^ 20 - 1) (by decide)
    rw [touches_iff] at hfirst hlast
    unfold UsedBy frameSize maxFrames at hfirst hlast
    omega
  · intro h f hf
    rw [touches_iff]
    unfold maxFrames at hf
    unfold UsedBy frameSize maxFrames
    omega

/-- Both functions mark exactly the right frames, in every allocator, if and
only if the range meets the bounds of both. -/
theorem markRange_exact_iff (base length : BitVec 64) :
    (FreesExactly base length ∧ UsesExactly base length) ↔
      FreeFits base length ∧ UsedFits base length := by
  rw [freesExactly_iff, usesExactly_iff]

/-- An empty range at the last address makes every frame free, and an empty
range in the middle of a frame takes the frame. -/
theorem markRange_inexact :
    ((new.markRangeFree 0xFFFF_FFFF_FFFF_FFFF 0).isFree 0 = true ∧
        ¬ Inside 0xFFFF_FFFF_FFFF_FFFF 0 0) ∧
      (allFree.markRangeUsed 1 0).isFree 0 = false ∧ ¬ Touches 1 0 0 := by
  refine ⟨⟨?_, ?_⟩, ?_, ?_⟩
  · rw [isFree_markRangeFree]
    exact .inr (by decide)
  · rw [inside_iff]
    decide
  · rw [← Bool.not_eq_true, isFree_markRangeUsed]
    intro h
    exact h.2 (by decide)
  · rw [touches_iff]
    decide

end BitmapFrameAllocator

end IsoLightK0
