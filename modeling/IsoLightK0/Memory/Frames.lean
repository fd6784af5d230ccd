import IsoLightK0.Support.Bytes
import IsoLightK0.Support.Triples
import Mathlib.Data.Finset.Card

/-!
# Physical memory and the frame allocator

The bitmap allocator hands out 4 KiB frames below 4 GiB, and erases each frame
it hands out.  A set bit marks a frame in use.  The bitmap is a function from
word indices; only the indices below `bitmapWords` are ever used.
-/

namespace IsoLightK0

open Bytes Triples

def frameSize : ℕ := 4096

def maxFrames : ℕ := 1048576

def bitmapWords : ℕ := maxFrames / 64

structure BitmapFrameAllocator where
  bitmap : ℕ → BitVec 64
  freeCount : ℕ
  nextFreeWord : ℕ

def trailingOnes (word : BitVec 64) : ℕ :=
  ((List.range 64).find? fun i => !word.getLsbD i).getD 64

namespace BitmapFrameAllocator

def isFree (a : BitmapFrameAllocator) (frameIdx : ℕ) : Bool :=
  (a.bitmap (frameIdx / 64) >>> (frameIdx % 64)) &&& 1 = 0

/-- The loop of `alloc` over the words from `wordIdx` on: the first one that
has a clear bit. -/
def scan (a : BitmapFrameAllocator) : (wordIdx remaining : ℕ) → Option ℕ
  | _, 0 => none
  | wordIdx, remaining + 1 =>
    if a.bitmap wordIdx = BitVec.allOnes 64 then
      a.scan (wordIdx + 1) remaining
    else
      some wordIdx

/-- `alloc` without the erasure: the address of the frame taken. -/
def alloc (a : BitmapFrameAllocator) : Option (ℕ × BitmapFrameAllocator) :=
  match a.scan a.nextFreeWord (bitmapWords - a.nextFreeWord) with
  | none => none
  | some wordIdx =>
    let word := a.bitmap wordIdx
    let bit := trailingOnes word
    let frameIdx := wordIdx * 64 + bit
    if frameIdx ≥ maxFrames then
      none
    else
      some (frameIdx * frameSize,
        { bitmap := fun i =>
            if i = wordIdx then word ||| (1#64 <<< bit) else a.bitmap i
          freeCount := a.freeCount - 1
          nextFreeWord := wordIdx })

/-- The frame at a physical address can be handed out. -/
def FreeAt (a : BitmapFrameAllocator) (p : ℕ) : Prop :=
  p % frameSize = 0 ∧ p / frameSize < maxFrames ∧
    a.isFree (p / frameSize) = true

theorem isFree_eq (a : BitmapFrameAllocator) (frameIdx : ℕ) :
    a.isFree frameIdx = !(a.bitmap (frameIdx / 64)).getLsbD (frameIdx % 64) := by
  have hbit : ∀ (x : BitVec 64) (k : ℕ),
      decide ((x >>> k) &&& 1 = 0) = !x.getLsbD k := by
    intro x k
    have hone : (x >>> k) &&& 1#64 =
        BitVec.setWidth 64 (BitVec.ofBool ((x >>> k).getLsbD 0)) :=
      BitVec.and_one_eq_setWidth_ofBool_getLsbD
    rw [show (1 : BitVec 64) = 1#64 from rfl, hone, BitVec.getLsbD_ushiftRight]
    cases x.getLsbD (k + 0) <;> simp
  exact hbit _ _

theorem scan_eq_some {a : BitmapFrameAllocator} {wordIdx remaining found : ℕ}
    (h : a.scan wordIdx remaining = some found) :
    wordIdx ≤ found ∧ found < wordIdx + remaining ∧
      a.bitmap found ≠ BitVec.allOnes 64 ∧
      ∀ i, wordIdx ≤ i → i < found → a.bitmap i = BitVec.allOnes 64 := by
  induction remaining generalizing wordIdx with
  | zero => cases h
  | succ remaining ih =>
    rw [scan] at h
    by_cases hones : a.bitmap wordIdx = BitVec.allOnes 64
    · rw [if_pos hones] at h
      obtain ⟨hle, hlt, hfound, hbefore⟩ := ih h
      refine ⟨by omega, by omega, hfound, ?_⟩
      intro i hlow hhigh
      by_cases heq : i = wordIdx
      · rw [heq]
        exact hones
      · exact hbefore i (by omega) hhigh
    · rw [if_neg hones] at h
      cases h
      exact ⟨le_rfl, by omega, hones, fun i hlow hhigh => by omega⟩

theorem scan_eq_none {a : BitmapFrameAllocator} {wordIdx remaining : ℕ}
    (h : a.scan wordIdx remaining = none) :
    ∀ i, wordIdx ≤ i → i < wordIdx + remaining →
      a.bitmap i = BitVec.allOnes 64 := by
  induction remaining generalizing wordIdx with
  | zero =>
    intro i hlow hhigh
    omega
  | succ remaining ih =>
    rw [scan] at h
    by_cases hones : a.bitmap wordIdx = BitVec.allOnes 64
    · rw [if_pos hones] at h
      intro i hlow hhigh
      by_cases heq : i = wordIdx
      · rw [heq]
        exact hones
      · exact ih h i (by omega) (by omega)
    · rw [if_neg hones] at h
      cases h

end BitmapFrameAllocator

theorem trailingOnes_spec {word : BitVec 64} (h : word ≠ BitVec.allOnes 64) :
    trailingOnes word < 64 ∧ word.getLsbD (trailingOnes word) = false ∧
      ∀ j, j < trailingOnes word → word.getLsbD j = true := by
  have hclear : ∃ i ∈ List.range 64, (!word.getLsbD i) = true := by
    by_contra hnone
    push Not at hnone
    apply h
    apply BitVec.eq_of_getLsbD_eq
    intro i hi
    have hset := hnone i (List.mem_range.mpr hi)
    rw [BitVec.getLsbD_allOnes, decide_eq_true hi]
    simpa using hset
  obtain ⟨bit, hfind⟩ := Option.isSome_iff_exists.mp
    (List.find?_isSome.mpr hclear)
  have hbit : trailingOnes word = bit := by
    unfold trailingOnes
    rw [hfind, Option.getD_some]
  obtain ⟨hzero, hmem, hones⟩ := List.find?_range_eq_some.mp hfind
  rw [hbit]
  refine ⟨List.mem_range.mp hmem, by simpa using hzero, fun j hj => ?_⟩
  simpa using hones j hj

theorem getLsbD_or_one_shiftLeft (word : BitVec 64) {bit i : ℕ}
    (hbit : bit < 64) :
    (word ||| (1#64 <<< bit)).getLsbD i =
      (word.getLsbD i || decide (i = bit)) := by
  rw [BitVec.getLsbD_or, BitVec.getLsbD_shiftLeft]
  by_cases hi : i = bit
  · subst hi
    simp [hbit]
  · have hone : (1#64).getLsbD (i - bit) = decide (i - bit = 0) := by
      rw [BitVec.getLsbD_one]
      simp
    rw [hone]
    by_cases hlt : i < bit
    · simp [hlt, hi]
    · have hne : i - bit ≠ 0 := by omega
      simp [hne, hi]

namespace BitmapFrameAllocator

variable {a a' : BitmapFrameAllocator} {p : ℕ}

theorem isFree_mark {wordIdx bit : ℕ} (hbit : bit < 64)
    (hmark : ∀ i, a'.bitmap i =
      if i = wordIdx then a.bitmap wordIdx ||| (1#64 <<< bit)
      else a.bitmap i) (i : ℕ) :
    a'.isFree i = true ↔ a.isFree i = true ∧ i ≠ wordIdx * 64 + bit := by
  rw [isFree_eq, isFree_eq, hmark]
  by_cases hword : i / 64 = wordIdx
  · rw [if_pos hword, getLsbD_or_one_shiftLeft _ hbit, hword]
    have hidx : i = wordIdx * 64 + bit ↔ i % 64 = bit := by omega
    rw [Ne, hidx]
    simp
  · have hne : i ≠ wordIdx * 64 + bit := by omega
    rw [if_neg hword]
    simp [hne]

theorem not_isFree_of_ones {f : ℕ} (h : a.bitmap (f / 64) = BitVec.allOnes 64) :
    a.isFree f = false := by
  rw [isFree_eq, h, BitVec.getLsbD_allOnes,
    decide_eq_true (Nat.mod_lt f (by omega))]
  rfl

/-- `alloc` takes the lowest free frame from the hint on. -/
theorem alloc_eq_some (h : a.alloc = some (p, a')) :
    ∃ f, f < maxFrames ∧ p = f * frameSize ∧ a.isFree f = true ∧
      a.nextFreeWord ≤ f / 64 ∧
      (∀ g, a.nextFreeWord ≤ g / 64 → g < f → a.isFree g = false) ∧
      a'.freeCount = a.freeCount - 1 ∧ a'.nextFreeWord = f / 64 ∧
      ∀ g, a'.isFree g = true ↔ a.isFree g = true ∧ g ≠ f := by
  unfold alloc at h
  cases hscan : a.scan a.nextFreeWord (bitmapWords - a.nextFreeWord) with
  | none =>
    rw [hscan] at h
    cases h
  | some wordIdx =>
    obtain ⟨hle, -, hones, hbefore⟩ := scan_eq_some hscan
    obtain ⟨hbit, hclear, hset⟩ := trailingOnes_spec hones
    have hword : (wordIdx * 64 + trailingOnes (a.bitmap wordIdx)) / 64 =
        wordIdx := by omega
    rw [hscan] at h
    dsimp only at h
    split at h
    · cases h
    · rename_i hmax
      cases h
      refine ⟨_, Nat.lt_of_not_ge hmax, rfl, ?_, hword.symm ▸ hle, ?_, rfl,
        hword.symm, fun g => isFree_mark hbit (fun _ => rfl) g⟩
      · have hrem : (wordIdx * 64 + trailingOnes (a.bitmap wordIdx)) % 64 =
            trailingOnes (a.bitmap wordIdx) := by omega
        rw [isFree_eq, hword, hrem, hclear]
        rfl
      · intro g hlow hlt
        by_cases hsame : g / 64 = wordIdx
        · rw [isFree_eq, hsame, hset _ (by omega)]
          rfl
        · exact not_isFree_of_ones (hbefore _ hlow (by omega))

theorem alloc_eq_none (h : a.alloc = none) {f : ℕ}
    (hlow : a.nextFreeWord ≤ f / 64) (hf : f < maxFrames) :
    a.isFree f = false := by
  unfold alloc at h
  unfold maxFrames at hf
  cases hscan : a.scan a.nextFreeWord (bitmapWords - a.nextFreeWord) with
  | none =>
    refine not_isFree_of_ones (scan_eq_none hscan _ hlow ?_)
    unfold bitmapWords maxFrames
    omega
  | some wordIdx =>
    obtain ⟨-, hlt, hones, -⟩ := scan_eq_some hscan
    obtain ⟨hbit, -⟩ := trailingOnes_spec hones
    rw [hscan] at h
    simp only at h
    split at h
    · rename_i hmax
      unfold bitmapWords at hlt
      unfold maxFrames at hmax hlt
      omega
    · cases h

/-- What `alloc` returns: an aligned frame below 4 GiB that was free, and the
only frame whose mark changes. -/
theorem alloc_spec (h : a.alloc = some (p, a')) :
    p < 2 ^ 32 ∧ a.FreeAt p ∧ ∀ q, a'.FreeAt q ↔ a.FreeAt q ∧ q ≠ p := by
  obtain ⟨f, hmax, rfl, hfree, -, -, -, -, hmark⟩ := alloc_eq_some h
  have hidx : f * frameSize / frameSize = f := Nat.mul_div_cancel _ (by decide)
  refine ⟨?_, ⟨Nat.mul_mod_left _ _, ?_, ?_⟩, ?_⟩
  · unfold maxFrames at hmax
    unfold frameSize
    omega
  · rw [hidx]
    exact hmax
  · rw [hidx]
    exact hfree
  · intro q
    unfold FreeAt
    rw [hmark]
    have hsame : q % frameSize = 0 →
        (q / frameSize = f ↔ q = f * frameSize) := by
      unfold frameSize
      omega
    constructor
    · rintro ⟨haligned, hlt, hold, hne⟩
      exact ⟨⟨haligned, hlt, hold⟩, fun heq => hne ((hsame haligned).mpr heq)⟩
    · rintro ⟨⟨haligned, hlt, hold⟩, hne⟩
      exact ⟨haligned, hlt, hold, fun heq => hne ((hsame haligned).mp heq)⟩

/-- At least `n` frames are free at or after the word of the hint. -/
def Room (a : BitmapFrameAllocator) (n : ℕ) : Prop :=
  ∃ frames : Finset ℕ, n ≤ frames.card ∧
    ∀ f ∈ frames, a.nextFreeWord ≤ f / 64 ∧ f < maxFrames ∧ a.isFree f = true

theorem room_zero (a : BitmapFrameAllocator) : a.Room 0 :=
  ⟨∅, Nat.zero_le _, by simp⟩

theorem Room.mono {m n : ℕ} (h : a.Room n) (hle : m ≤ n) : a.Room m := by
  obtain ⟨frames, hcard, hfree⟩ := h
  exact ⟨frames, hle.trans hcard, hfree⟩

theorem Room.alloc_ne_none {n : ℕ} (h : a.Room (n + 1)) : a.alloc ≠ none := by
  intro hnone
  obtain ⟨frames, hcard, hfree⟩ := h
  obtain ⟨f, hf⟩ : frames.Nonempty := Finset.card_pos.mp (by omega)
  obtain ⟨hlow, hhigh, hclear⟩ := hfree f hf
  rw [alloc_eq_none hnone hlow hhigh] at hclear
  cases hclear

theorem room_of_alloc (h : a.alloc = some (p, a')) : a.Room 1 := by
  obtain ⟨f, hmax, -, hfree, hlow, -⟩ := alloc_eq_some h
  refine ⟨{f}, (Finset.card_singleton _).ge, ?_⟩
  intro g hg
  rw [Finset.mem_singleton.mp hg]
  exact ⟨hlow, hmax, hfree⟩

theorem Room.alloc {n : ℕ} (h : a.Room n) (halloc : a.alloc = some (p, a')) :
    a'.Room (n - 1) := by
  obtain ⟨f, -, -, -, -, hlowest, -, hhint, hmark⟩ := alloc_eq_some halloc
  obtain ⟨frames, hcard, hfree⟩ := h
  refine ⟨frames.erase f, ?_, ?_⟩
  · have herase := Finset.pred_card_le_card_erase (s := frames) (a := f)
    omega
  · intro g hg
    obtain ⟨hne, hmem⟩ := Finset.mem_erase.mp hg
    obtain ⟨hlow, hhigh, hclear⟩ := hfree g hmem
    refine ⟨?_, hhigh, (hmark g).mpr ⟨hclear, hne⟩⟩
    rw [hhint]
    by_contra hlt
    rw [hlowest g hlow (by omega)] at hclear
    cases hclear

end BitmapFrameAllocator

/-! ## Physical memory -/

/-- Physical memory together with the allocator of its frames. -/
structure Physical where
  mem : Mem
  allocator : BitmapFrameAllocator

/-- `alloc_frame` with the erasure in it; `ok_or` gives the exit. -/
def allocFrame {ε : Type} (e : ε) : Prog Physical ε ℕ :=
  ExceptT.mk fun s =>
    match s.allocator.alloc with
    | none => (.error e, s)
    | some (p, allocator) =>
      (.ok p, { mem := s.mem.fill p frameSize 0, allocator := allocator })

variable {ε : Type} (e : ε)

theorem eval_allocFrame (s : Physical) :
    (allocFrame e).eval s =
      match s.allocator.alloc with
      | none => (.error e, s)
      | some (p, allocator) =>
        (.ok p, ⟨s.mem.fill p frameSize 0, allocator⟩) := rfl

/-- `secure_zero` of one frame. -/
def eraseFrame {ε : Type} (p : ℕ) : Prog Physical ε Unit :=
  modify fun s => { s with mem := s.mem.fill p frameSize 0 }

def copyToPhys {ε : Type} (p : ℕ) (bytes : List Byte) :
    Prog Physical ε Unit :=
  modify fun s => { s with mem := s.mem.write p bytes }

/-- Every caller of `alloc_frame` erases the frame once more. -/
def allocErased {ε : Type} (e : ε) : Prog Physical ε ℕ := do
  let p ← allocFrame e
  eraseFrame p
  pure p

/-- The step from `s` to `s'` takes the erased frame `p` from the free ones
and touches nothing else. -/
structure TakesFrame (s : Physical) (p : ℕ) (s' : Physical) : Prop where
  bound : p < 2 ^ 32
  free : s.allocator.FreeAt p
  marks : ∀ q, s'.allocator.FreeAt q ↔ s.allocator.FreeAt q ∧ q ≠ p
  room : ∀ n, s.allocator.Room n → s'.allocator.Room (n - 1)
  erased : ∀ i, p ≤ i ∧ i < p + frameSize → s'.mem i = 0
  outside : ∀ i, i < p ∨ p + frameSize ≤ i → s'.mem i = s.mem i

theorem frame_disjoint {p q i : ℕ} (hp : p % frameSize = 0)
    (hq : q % frameSize = 0) (hne : q ≠ p) (hi : q ≤ i ∧ i < q + frameSize) :
    i < p ∨ p + frameSize ≤ i := by
  unfold frameSize at *
  omega

theorem TakesFrame.mem_eq {s s' : Physical} {p q : ℕ} (h : TakesFrame s p s')
    (hq : q % frameSize = 0) (hused : ¬ s.allocator.FreeAt q) (i : ℕ)
    (hi : q ≤ i ∧ i < q + frameSize) : s'.mem i = s.mem i := by
  have hne : q ≠ p := fun heq => hused (heq ▸ h.free)
  exact h.outside i (frame_disjoint h.free.1 hq hne hi)

theorem eval_allocErased (s : Physical) :
    ((allocErased e).eval s = (.error e, s) ∧
        ∀ n, ¬ s.allocator.Room (n + 1)) ∨
      ∃ p s', (allocErased e).eval s = (.ok p, s') ∧ TakesFrame s p s' := by
  rw [allocErased, Prog.eval_bind, eval_allocFrame]
  cases halloc : s.allocator.alloc with
  | none => exact .inl ⟨rfl, fun n hroom => hroom.alloc_ne_none halloc⟩
  | some taken =>
    obtain ⟨p, allocator⟩ := taken
    obtain ⟨hbound, hfree, hmarks⟩ := BitmapFrameAllocator.alloc_spec halloc
    refine .inr ⟨p, _, rfl, hbound, hfree, hmarks,
      fun n hroom => hroom.alloc halloc, ?_, ?_⟩
    · intro i hi
      exact Mem.fill_apply_within _ _ hi
    · intro i hi
      show ((s.mem.fill p frameSize 0).fill p frameSize 0) i = s.mem i
      rw [Mem.fill_apply_outside _ _ hi, Mem.fill_apply_outside _ _ hi]

theorem eval_allocErased_of_not_room {s : Physical} (h : ¬ s.allocator.Room 1) :
    (allocErased e).eval s = (.error e, s) := by
  rw [allocErased, Prog.eval_bind, eval_allocFrame]
  cases halloc : s.allocator.alloc with
  | none => rfl
  | some taken => exact (h (BitmapFrameAllocator.room_of_alloc halloc)).elim

theorem eval_allocErased_of_alloc {s : Physical} {p : ℕ}
    {a : BitmapFrameAllocator} (h : s.allocator.alloc = some (p, a)) :
    (allocErased e).eval s =
      (.ok p, ⟨(s.mem.fill p frameSize 0).fill p frameSize 0, a⟩) := by
  rw [allocErased, Prog.eval_bind, eval_allocFrame, h]
  rfl

end IsoLightK0
