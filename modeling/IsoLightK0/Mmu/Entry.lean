import Mathlib.Tactic.Common
import Mathlib.Tactic.Ring

/-!
# Page table flags and entries

An entry is a 64-bit word: bits 12 to 51 hold a physical address and the other
bits are flags.  The lemmas read the words bit by bit, as the hardware does.
-/

namespace IsoLightK0

structure PageTableFlags where
  bits : BitVec 64
  deriving DecidableEq

namespace PageTableFlags

/-- The flag `1 << k`. -/
def bit (k : ℕ) : PageTableFlags := ⟨1#64 <<< k⟩

def present : PageTableFlags := bit 0
def writable : PageTableFlags := bit 1
def userAccessible : PageTableFlags := bit 2
def hugePage : PageTableFlags := bit 7
def noExecute : PageTableFlags := bit 63

def contains (self other : PageTableFlags) : Bool :=
  (self.bits &&& other.bits) = other.bits

def union (self other : PageTableFlags) : PageTableFlags :=
  ⟨self.bits ||| other.bits⟩

/-- The flags of the entries between the root and a leaf. -/
def mid : PageTableFlags := (present.union writable).union noExecute

theorem contains_bit (flags : PageTableFlags) {k : ℕ} (hk : k < 64) :
    flags.contains (bit k) = flags.bits.getLsbD k := by
  have hand : flags.bits &&& 1#64 <<< k =
      if flags.bits.getLsbD k then BitVec.twoPow 64 k else 0#64 :=
    BitVec.and_twoPow flags.bits k
  have hne : (0#64) ≠ 1#64 <<< k := by
    intro hzero
    have hbit := congrArg (fun x => BitVec.getLsbD x k) hzero
    simp [hk] at hbit
  unfold contains bit
  rw [hand]
  cases flags.bits.getLsbD k with
  | false => simpa using hne
  | true => simp [BitVec.twoPow]

end PageTableFlags

inductive MmuError
  | wxPolicyViolation
  | alreadyMapped
  | frameAllocFailed
  | unalignedAddress
  deriving DecidableEq, Repr

def pageSize : ℕ := 4096

/-- `addr & (PAGE_SIZE - 1) != 0`. -/
def unaligned (addr : BitVec 64) : Bool := addr &&& 0xFFF#64 ≠ 0

def physAddrMask : BitVec 64 := 0x000F_FFFF_FFFF_F000#64

structure PageTableEntry where
  word : BitVec 64
  deriving DecidableEq

namespace PageTableEntry

open PageTableFlags

def unused : PageTableEntry := ⟨0⟩

def flags (e : PageTableEntry) : PageTableFlags := ⟨e.word &&& ~~~physAddrMask⟩

def isPresent (e : PageTableEntry) : Bool := e.flags.contains present

def physAddr (e : PageTableEntry) : BitVec 64 := e.word &&& physAddrMask

/-- The flags that `set` stores: `WRITABLE` brings `NO_EXECUTE` along. -/
def storedFlags (flags : PageTableFlags) : PageTableFlags :=
  if flags.contains writable then flags.union noExecute else flags

/-- The word that `set` stores. -/
def encode (physAddr : BitVec 64) (flags : PageTableFlags) : PageTableEntry :=
  ⟨(physAddr &&& physAddrMask) ||| (storedFlags flags).bits⟩

/-- `set`, as the new value of the entry. -/
def set (physAddr : BitVec 64) (flags : PageTableFlags) :
    Except MmuError PageTableEntry :=
  if unaligned physAddr then .error .unalignedAddress
  else .ok (encode physAddr flags)

end PageTableEntry

theorem getLsbD_physAddrMask (k : ℕ) :
    physAddrMask.getLsbD k = decide (12 ≤ k ∧ k < 52) := by
  have hlow : ∀ i : Fin 64,
      physAddrMask.getLsbD i = decide (12 ≤ i.val ∧ i.val < 52) := by
    decide
  by_cases hk : k < 64
  · exact hlow ⟨k, hk⟩
  · rw [BitVec.getLsbD_of_ge _ _ (by omega), eq_comm, decide_eq_false_iff_not]
    omega

theorem and_low_ne_zero_iff (addr : BitVec 64) {n : ℕ} (hn : n ≤ 64) :
    addr &&& BitVec.ofNat 64 (2 ^ n - 1) ≠ 0 ↔ addr.toNat % 2 ^ n ≠ 0 := by
  have hpow : 2 ^ n ≤ 2 ^ 64 := Nat.pow_le_pow_right (by decide) hn
  have hmask : 2 ^ n - 1 < 2 ^ 64 :=
    lt_of_lt_of_le (Nat.sub_one_lt (Nat.two_pow_pos n).ne') hpow
  rw [Ne, ← BitVec.toNat_inj, BitVec.toNat_and, BitVec.toNat_ofNat,
    Nat.mod_eq_of_lt hmask, Nat.and_two_pow_sub_one_eq_mod]
  rfl

theorem unaligned_eq (addr : BitVec 64) :
    unaligned addr = decide (addr.toNat % 4096 ≠ 0) :=
  decide_eq_decide.mpr (and_low_ne_zero_iff addr (n := 12) (by decide))

theorem testBit_of_aligned {p n b k : ℕ} (haligned : p % 2 ^ n = 0)
    (hbound : p < 2 ^ b) (hout : ¬ (n ≤ k ∧ k < b)) :
    p.testBit k = false := by
  by_cases hlow : n ≤ k
  · have hpow : 2 ^ b ≤ 2 ^ k := Nat.pow_le_pow_right (by omega) (by omega)
    exact Nat.testBit_lt_two_pow (by omega)
  · obtain ⟨q, rfl⟩ := Nat.dvd_of_mod_eq_zero haligned
    rw [Nat.testBit_two_pow_mul, decide_eq_false hlow, Bool.false_and]

theorem and_mask_of_aligned {mask : BitVec 64} {n b p : ℕ}
    (hmask : ∀ k, k < 64 → mask.getLsbD k = decide (n ≤ k ∧ k < b))
    (haligned : p % 2 ^ n = 0) (hbound : p < 2 ^ b) :
    (BitVec.ofNat 64 p &&& mask) = BitVec.ofNat 64 p := by
  apply BitVec.eq_of_getLsbD_eq
  intro k hk
  rw [BitVec.getLsbD_and, hmask k hk, BitVec.getLsbD_ofNat]
  by_cases hin : n ≤ k ∧ k < b
  · rw [decide_eq_true hin, Bool.and_true]
  · rw [testBit_of_aligned haligned hbound hin, Bool.and_false, Bool.false_and]

theorem and_physAddrMask_of_aligned {p : ℕ} (haligned : p % 4096 = 0)
    (hbound : p < 2 ^ 52) :
    (BitVec.ofNat 64 p &&& physAddrMask) = BitVec.ofNat 64 p :=
  and_mask_of_aligned (n := 12) (fun k _ => getLsbD_physAddrMask k) haligned
    hbound

namespace PageTableEntry

open PageTableFlags

theorem flags_contains_bit (e : PageTableEntry) {k : ℕ} (hk : k < 64)
    (hflag : ¬ (12 ≤ k ∧ k < 52)) :
    e.flags.contains (bit k) = e.word.getLsbD k := by
  rw [contains_bit _ hk, flags, BitVec.getLsbD_and, BitVec.getLsbD_not,
    getLsbD_physAddrMask, decide_eq_false hflag]
  simp [hk]

theorem isPresent_eq (e : PageTableEntry) :
    e.isPresent = e.word.getLsbD 0 :=
  e.flags_contains_bit (by omega) (by omega)

variable (physAddr : BitVec 64) (flags : PageTableFlags)

theorem getLsbD_encode {k : ℕ} (hflag : ¬ (12 ≤ k ∧ k < 52)) :
    (encode physAddr flags).word.getLsbD k =
      (storedFlags flags).bits.getLsbD k := by
  show ((physAddr &&& physAddrMask) ||| (storedFlags flags).bits).getLsbD k = _
  rw [BitVec.getLsbD_or, BitVec.getLsbD_and, getLsbD_physAddrMask,
    decide_eq_false hflag]
  simp

/-- Apart from `PRESENT` and `NO_EXECUTE`, a leaf has the flags asked for. -/
theorem getLsbD_encode_leaf {k : ℕ} (hlow : 0 < k) (hhigh : k < 12) :
    (encode physAddr (flags.union present)).word.getLsbD k =
      flags.contains (bit k) := by
  have hunion : ∀ (f : PageTableFlags) (j : ℕ), j ≠ k → j < 64 →
      (f.union (bit j)).bits.getLsbD k = f.bits.getLsbD k := by
    intro f j hne hj
    show (f.bits ||| 1#64 <<< j).getLsbD k = f.bits.getLsbD k
    rw [BitVec.getLsbD_or, ← BitVec.twoPow_eq, BitVec.getLsbD_twoPow]
    simp [hne]
  rw [getLsbD_encode _ _ (by omega), contains_bit _ (by omega), storedFlags]
  split
  · exact (hunion _ 63 (by omega) (by omega)).trans
      (hunion _ 0 (by omega) (by omega))
  · exact hunion _ 0 (by omega) (by omega)

theorem isPresent_encode :
    (encode physAddr (flags.union present)).isPresent = true := by
  have hbit : (flags.union present).bits.getLsbD 0 = true := by
    show (flags.bits ||| 1#64 <<< 0).getLsbD 0 = true
    simp
  rw [isPresent_eq, getLsbD_encode _ _ (by omega), storedFlags]
  split
  · show ((flags.union present).bits ||| 1#64 <<< 63).getLsbD 0 = true
    rw [BitVec.getLsbD_or, hbit, Bool.true_or]
  · exact hbit

theorem flags_encode_mid : (encode physAddr mid).flags = mid := by
  have hmid : (storedFlags mid).bits = mid.bits := by decide
  have hclear : mid.bits &&& ~~~physAddrMask = mid.bits := by decide
  have hbits : ((physAddr &&& physAddrMask) ||| mid.bits) &&& ~~~physAddrMask =
      mid.bits := by
    rw [BitVec.and_or_distrib_right, hclear, BitVec.and_assoc]
    simp
  show PageTableFlags.mk (((physAddr &&& physAddrMask) |||
    (storedFlags mid).bits) &&& ~~~physAddrMask) = mid
  rw [hmid, hbits]

theorem physAddr_encode {p : ℕ} {flags : PageTableFlags}
    (haligned : p % 4096 = 0) (hbound : p < 2 ^ 52)
    (hflags : (storedFlags flags).bits &&& physAddrMask = 0) :
    (encode (BitVec.ofNat 64 p) flags).physAddr.toNat = p := by
  have hword : (encode (BitVec.ofNat 64 p) flags).physAddr =
      BitVec.ofNat 64 p := by
    show ((BitVec.ofNat 64 p &&& physAddrMask) ||| (storedFlags flags).bits) &&&
      physAddrMask = _
    rw [BitVec.and_or_distrib_right, hflags, BitVec.and_assoc,
      BitVec.and_self, and_physAddrMask_of_aligned haligned hbound]
    simp
  rw [hword, BitVec.toNat_ofNat, Nat.mod_eq_of_lt]
  omega

end PageTableEntry

end IsoLightK0
