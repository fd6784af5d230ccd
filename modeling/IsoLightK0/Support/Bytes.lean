import Mathlib.Data.List.Basic
import Mathlib.Logic.Function.Basic
import Mathlib.Tactic.Common
import Mathlib.Tactic.Ring

/-!
# Bytes, byte memories and fixed-size buffers

This module is independent of any particular program.  It contains the
little-endian codec between natural numbers and byte strings, a byte memory
with block reads and writes, and fixed-size buffers whose size is part of
their type.

Every statement about a buffer is reduced to the corresponding statement about
the memory that reads zero outside the buffer.
-/

namespace Bytes

/-- An octet. -/
abbrev Byte := BitVec 8

/-- The `k` low-order octets of `x`, least significant first. -/
def toLe : ℕ → ℕ → List Byte
  | 0, _ => []
  | k + 1, x => BitVec.ofNat 8 x :: toLe k (x / 256)

/-- The number whose octets are `bs`, least significant first. -/
def ofLe : List Byte → ℕ
  | [] => 0
  | b :: bs => b.toNat + 256 * ofLe bs

@[simp] theorem length_toLe (k x : ℕ) : (toLe k x).length = k := by
  induction k generalizing x with
  | zero => rfl
  | succ k ih => simp [toLe, ih]

theorem ofLe_toLe (k x : ℕ) : ofLe (toLe k x) = x % 256 ^ k := by
  induction k generalizing x with
  | zero => simp [toLe, ofLe, Nat.mod_one]
  | succ k ih =>
    have hlow : (BitVec.ofNat 8 x).toNat = x % 256 := BitVec.toNat_ofNat x 8
    rw [toLe, ofLe, ih, hlow, pow_succ', Nat.mod_mul]

theorem ofLe_toLe_of_lt {k x : ℕ} (h : x < 256 ^ k) :
    ofLe (toLe k x) = x := by
  rw [ofLe_toLe, Nat.mod_eq_of_lt h]

/-- A memory assigns an octet to every address. -/
def Mem := ℕ → Byte

namespace Mem

/-- The `len` octets starting at address `a`. -/
def read (m : Mem) (a len : ℕ) : List Byte :=
  (List.range len).map fun k => m (a + k)

/-- Store `xs` at the addresses starting with `a`. -/
def write (m : Mem) (a : ℕ) (xs : List Byte) : Mem :=
  fun i => if a ≤ i then (xs[i - a]?).getD (m i) else m i

variable (m : Mem) {a len i : ℕ}

@[simp] theorem length_read (a len : ℕ) : (m.read a len).length = len := by
  simp [read]

@[simp] theorem getElem_read (a len k : ℕ) (hk : k < (m.read a len).length) :
    (m.read a len)[k] = m (a + k) := by
  simp [read]

@[simp] theorem read_zero (a : ℕ) : m.read a 0 = [] := rfl

theorem read_add (a len₁ len₂ : ℕ) :
    m.read a (len₁ + len₂) = m.read a len₁ ++ m.read (a + len₁) len₂ := by
  simp [read, List.range_add, Nat.add_assoc, Function.comp_def]

theorem take_read {k : ℕ} (hk : k ≤ len) :
    (m.read a len).take k = m.read a k := by
  obtain ⟨rest, rfl⟩ := Nat.exists_eq_add_of_le hk
  rw [read_add, List.take_left' (length_read m a k)]

theorem drop_read {k : ℕ} (hk : k ≤ len) :
    (m.read a len).drop k = m.read (a + k) (len - k) := by
  obtain ⟨rest, rfl⟩ := Nat.exists_eq_add_of_le hk
  rw [read_add, List.drop_left' (length_read m a k), Nat.add_sub_cancel_left]

theorem read_congr {m m' : Mem} (h : ∀ i, a ≤ i → i < a + len → m i = m' i) :
    m.read a len = m'.read a len := by
  apply List.map_congr_left
  intro k hk
  rw [List.mem_range] at hk
  exact h (a + k) (Nat.le_add_right a k) (by omega)

theorem write_apply_of_lt (xs : List Byte) (h : i < a) :
    m.write a xs i = m i := by
  simp [write, Nat.not_le.mpr h]

theorem write_apply_of_ge (xs : List Byte) (h : a + xs.length ≤ i) :
    m.write a xs i = m i := by
  have hle : a ≤ i := by omega
  have hout : xs[i - a]? = none := by
    rw [List.getElem?_eq_none_iff]
    omega
  simp [write, hle, hout]

theorem write_apply_within {k : ℕ} {xs : List Byte} (h : k < xs.length) :
    m.write a xs (a + k) = xs[k] := by
  simp [write, h]

theorem write_apply_outside {xs : List Byte} (h : i < a ∨ a + xs.length ≤ i) :
    m.write a xs i = m i := by
  rcases h with h | h
  · exact write_apply_of_lt m xs h
  · exact write_apply_of_ge m xs h

theorem read_write_disjoint {b : ℕ} {xs : List Byte}
    (h : b + len ≤ a ∨ a + xs.length ≤ b) :
    (m.write a xs).read b len = m.read b len := by
  apply read_congr
  intro i hlo hhi
  apply write_apply_outside
  omega

theorem read_write_within {off : ℕ} {xs : List Byte}
    (h : off + len ≤ xs.length) :
    (m.write a xs).read (a + off) len = (xs.drop off).take len := by
  apply List.ext_getElem
  · simp only [length_read, List.length_take, List.length_drop]
    omega
  · intro k hk _
    rw [length_read] at hk
    have hlt : off + k < xs.length := by omega
    rw [getElem_read, Nat.add_assoc, write_apply_within m hlt]
    simp

@[simp] theorem read_write_same (a : ℕ) (xs : List Byte) :
    (m.write a xs).read a xs.length = xs := by
  have hfit : 0 + xs.length ≤ xs.length := by simp
  simpa using read_write_within m (a := a) hfit

theorem read_write_of_length {xs : List Byte} (h : xs.length = len) :
    (m.write a xs).read a len = xs := by
  subst h
  exact read_write_same m a xs

theorem write_apply_congr {m m' : Mem} (a : ℕ) (xs : List Byte)
    (h : m i = m' i) : m.write a xs i = m'.write a xs i := by
  simp [write, h]

theorem write_apply_add (p off : ℕ) (xs : List Byte) (i : ℕ) :
    m.write (p + off) xs (p + i) = write (fun j => m (p + j)) off xs i := by
  have hdiff : p + i - (p + off) = i - off := by omega
  simp [write, hdiff]

theorem write_write_append (a : ℕ) (xs ys : List Byte) :
    (m.write a xs).write (a + xs.length) ys = m.write a (xs ++ ys) := by
  funext i
  by_cases hfront : i < a + xs.length
  · rw [write_apply_of_lt _ _ hfront]
    by_cases hbefore : i < a
    · rw [write_apply_of_lt _ _ hbefore, write_apply_of_lt _ _ hbefore]
    · have hin : i - a < xs.length := by omega
      simp [write, List.getElem?_append_left hin]
  · have hge : a + xs.length ≤ i := Nat.not_lt.mp hfront
    have hout : xs.length ≤ i - a := by omega
    have hle : a ≤ i := by omega
    have hrest : i - a - xs.length = i - (a + xs.length) := by omega
    rw [write_apply_congr _ _ (write_apply_of_ge m xs hge)]
    simp [write, hge, hle, List.getElem?_append_right hout, hrest]

theorem write_read_self (a len : ℕ) : m.write a (m.read a len) = m := by
  funext i
  by_cases hin : a ≤ i ∧ i < a + len
  · obtain ⟨k, rfl⟩ := Nat.exists_eq_add_of_le hin.1
    have hk : k < (m.read a len).length := by
      rw [length_read]
      omega
    rw [write_apply_within m hk, getElem_read]
  · apply write_apply_outside
    rw [length_read]
    omega

/-- Set the `len` octets starting at address `a` to `b`. -/
def fill (m : Mem) (a len : ℕ) (b : Byte) : Mem :=
  fun i => if a ≤ i ∧ i < a + len then b else m i

theorem fill_apply_within (b : Byte) (h : a ≤ i ∧ i < a + len) :
    m.fill a len b i = b :=
  if_pos h

theorem fill_apply_outside (b : Byte) (h : i < a ∨ a + len ≤ i) :
    m.fill a len b i = m i := by
  apply if_neg
  omega

end Mem

/-! ## Fixed-size buffers -/

/-- A buffer of exactly `n` octets. -/
def Buf (n : ℕ) := Fin n → Byte

namespace Buf

variable {n : ℕ}

def zero : Buf n := fun _ => 0

/-- The memory that holds the buffer at address zero and zeros elsewhere. -/
def toMem (b : Buf n) : Mem := fun i => if h : i < n then b ⟨i, h⟩ else 0

/-- The `len` octets starting at offset `off`. -/
def slice (b : Buf n) (off len : ℕ) : List Byte := b.toMem.read off len

/-- Overwrite the buffer with `xs`, starting at offset `off`. -/
def blit (b : Buf n) (off : ℕ) (xs : List Byte) : Buf n :=
  fun i => b.toMem.write off xs i

variable (b : Buf n) {off len : ℕ} {xs : List Byte}

@[simp] theorem length_slice (off len : ℕ) : (b.slice off len).length = len :=
  Mem.length_read _ _ _

@[simp] theorem slice_zero_length (off : ℕ) :
    b.slice off 0 = [] := rfl

theorem slice_add (off len₁ len₂ : ℕ) :
    b.slice off (len₁ + len₂) = b.slice off len₁ ++ b.slice (off + len₁) len₂ :=
  Mem.read_add _ _ _ _

theorem take_slice {k : ℕ} (hk : k ≤ len) :
    (b.slice off len).take k = b.slice off k :=
  Mem.take_read _ hk

theorem drop_slice {k : ℕ} (hk : k ≤ len) :
    (b.slice off len).drop k = b.slice (off + k) (len - k) :=
  Mem.drop_read _ hk

/-- A write that fits acts on the buffer as it acts on the memory. -/
theorem toMem_blit (h : off + xs.length ≤ n) :
    (b.blit off xs).toMem = b.toMem.write off xs := by
  funext i
  by_cases hi : i < n
  · simp [toMem, blit, hi]
  · have hout : off + xs.length ≤ i := by omega
    rw [Mem.write_apply_of_ge _ xs hout]
    simp [toMem, hi]

theorem slice_blit_disjoint {off' : ℕ} (hfit : off + xs.length ≤ n)
    (h : off' + len ≤ off ∨ off + xs.length ≤ off') :
    (b.blit off xs).slice off' len = b.slice off' len := by
  rw [slice, toMem_blit b hfit, Mem.read_write_disjoint _ h, slice]

theorem slice_blit_of_length (hfit : off + xs.length ≤ n)
    (h : xs.length = len) : (b.blit off xs).slice off len = xs := by
  rw [slice, toMem_blit b hfit, Mem.read_write_of_length _ h]

theorem slice_blit_of_le (hfit : off + xs.length ≤ n) (h : xs.length ≤ len) :
    (b.blit off xs).slice off len =
      xs ++ b.slice (off + xs.length) (len - xs.length) := by
  obtain ⟨k, rfl⟩ := Nat.exists_eq_add_of_le h
  rw [slice_add, slice_blit_of_length b hfit rfl,
    slice_blit_disjoint b hfit (.inr le_rfl), Nat.add_sub_cancel_left]

theorem blit_blit_append (off : ℕ) (xs ys : List Byte) :
    (b.blit off xs).blit (off + xs.length) ys = b.blit off (xs ++ ys) := by
  funext i
  have hsame : (b.blit off xs).toMem i = b.toMem.write off xs i := by
    simp [toMem, blit]
  rw [blit, blit, ← Mem.write_write_append]
  exact Mem.write_apply_congr _ _ hsame

theorem blit_singleton_apply (off : ℕ) (x : Byte) (i : Fin n) :
    b.blit off [x] i = if i.val = off then x else b i := by
  by_cases hle : off ≤ i.val
  · rcases hle.eq_or_lt with heq | hlt
    · simp [blit, Mem.write, ← heq]
    · have hne : i.val ≠ off := hlt.ne'
      have hsub : i.val - off ≠ 0 := Nat.sub_ne_zero_of_lt hlt
      simp [blit, Mem.write, toMem, hle, hne, hsub]
  · have hne : i.val ≠ off := fun h => hle h.ge
    simp [blit, Mem.write, toMem, hle, hne]

/-- A write leaves the buffer as it is exactly when it was there already. -/
theorem blit_eq_self_iff (hfit : off + xs.length ≤ n) :
    b.blit off xs = b ↔ b.slice off xs.length = xs := by
  constructor
  · intro hsame
    have hslice := slice_blit_of_length b hfit rfl
    rw [hsame] at hslice
    exact hslice
  · intro hslice
    funext i
    rw [blit, ← hslice, slice, Mem.write_read_self]
    simp [toMem]

def toList (b : Buf n) : List Byte := b.slice 0 n

/-- The buffer that holds the first `n` octets of `xs`. -/
def ofList (n : ℕ) (xs : List Byte) : Buf n := fun i => xs[i.val]?.getD 0

@[simp] theorem length_toList : b.toList.length = n :=
  length_slice b 0 n

@[simp] theorem ofList_toList : ofList n b.toList = b := by
  funext i
  have hi : i.val < b.toList.length := by simp
  have hget : b.toList[i.val]? = some b.toList[i.val] :=
    List.getElem?_eq_getElem hi
  rw [ofList, hget, Option.getD_some]
  simp [toList, slice, toMem]

theorem toList_injective {b b' : Buf n} (h : b.toList = b'.toList) :
    b = b' := by
  rw [← ofList_toList b, h, ofList_toList]

instance decidableEqBuf : DecidableEq (Buf n) := fun b b' =>
  decidable_of_iff (b.toList = b'.toList)
    ⟨toList_injective, congrArg Buf.toList⟩

theorem toList_ofList_of_le (h : xs.length ≤ n) :
    (ofList n xs).toList = xs ++ List.replicate (n - xs.length) 0 := by
  apply List.ext_getElem
  · simp [h]
  · intro k hk _
    have hkn : k < n := by simpa using hk
    by_cases hin : k < xs.length
    · simp [toList, slice, toMem, ofList, hkn, hin]
    · have hge : xs.length ≤ k := Nat.not_lt.mp hin
      simp [toList, slice, toMem, ofList, hkn, hge]

theorem toList_ofList (h : xs.length = n) : (ofList n xs).toList = xs := by
  rw [toList_ofList_of_le h.le, h, Nat.sub_self, List.replicate_zero,
    List.append_nil]

theorem slice_zero_min (k : ℕ) : b.slice 0 (min n k) = b.toList.take k := by
  rw [← take_slice b (Nat.min_le_left n k), ← toList, ← List.take_take,
    List.take_of_length_le]
  rw [List.length_take, length_toList]
  exact Nat.min_le_right k n

theorem zero_blit (xs : List Byte) :
    (zero : Buf n).blit 0 xs = ofList n xs := by
  funext i
  simp [blit, Mem.write, toMem, zero, ofList]

def map (f : Byte → Byte) (b : Buf n) : Buf n := fun i => f (b i)

theorem toList_map (f : Byte → Byte) (b : Buf n) :
    (b.map f).toList = b.toList.map f := by
  apply List.ext_getElem
  · simp
  · intro k hk _
    rw [length_toList] at hk
    simp [toList, slice, toMem, map, hk]

theorem slice_ofList (hlist : off + len ≤ xs.length) (hbuf : off + len ≤ n) :
    (ofList n xs).slice off len = (xs.drop off).take len := by
  apply List.ext_getElem
  · rw [length_slice, List.length_take, List.length_drop]
    omega
  · intro k hk _
    rw [length_slice] at hk
    have hxs : off + k < xs.length := by omega
    have hn : off + k < n := by omega
    simp [slice, toMem, ofList, hxs, hn]

theorem slice_ofList_of_length_le (hoff : xs.length ≤ off) (len : ℕ) :
    (ofList n xs).slice off len = List.replicate len 0 := by
  apply List.ext_getElem
  · simp
  · intro k hk _
    have hxs : xs.length ≤ off + k := hoff.trans (Nat.le_add_right off k)
    simp [slice, toMem, ofList, hxs]

theorem ofList_replicate_zero (k : ℕ) :
    ofList n (List.replicate k 0) = zero := by
  funext i
  rw [ofList, zero, List.getElem?_replicate]
  split
  · rfl
  · rfl

end Buf

/-- `from_le_bytes` into a word of width `w`. -/
def wordOfLe (w : ℕ) (bs : List Byte) : BitVec w := BitVec.ofNat w (ofLe bs)

/-- `to_le_bytes` of a word into `k` octets. -/
def wordToLe {w : ℕ} (k : ℕ) (x : BitVec w) : List Byte := toLe k x.toNat

@[simp] theorem length_wordToLe {w : ℕ} (k : ℕ) (x : BitVec w) :
    (wordToLe k x).length = k :=
  length_toLe k _

theorem wordOfLe_wordToLe {w k : ℕ} (x : BitVec w) (h : w ≤ 8 * k) :
    wordOfLe w (wordToLe k x) = x := by
  have hpow : 256 ^ k = 2 ^ (8 * k) := by
    rw [Nat.pow_mul]
  have hlt : x.toNat < 256 ^ k := by
    rw [hpow]
    exact lt_of_lt_of_le x.isLt (Nat.pow_le_pow_right (by omega) h)
  rw [wordOfLe, wordToLe, ofLe_toLe_of_lt hlt, BitVec.ofNat_toNat,
    BitVec.setWidth_eq]

/-- Clearing the low `k` bits of a word rounds it down. -/
theorem toNat_and_not_low {w : ℕ} (x : BitVec w) (k : ℕ) :
    (x &&& ~~~BitVec.ofNat w (2 ^ k - 1)).toNat = x.toNat / 2 ^ k * 2 ^ k := by
  have hshift : x &&& ~~~BitVec.ofNat w (2 ^ k - 1) = (x >>> k) <<< k := by
    apply BitVec.eq_of_getLsbD_eq
    intro i hi
    rw [BitVec.getLsbD_and, BitVec.getLsbD_not, BitVec.getLsbD_ofNat,
      Nat.testBit_two_pow_sub_one, BitVec.getLsbD_shiftLeft,
      BitVec.getLsbD_ushiftRight]
    by_cases hlow : i < k
    · simp [hi, hlow]
    · simp [hi, hlow, Nat.add_sub_cancel' (Nat.not_lt.mp hlow)]
  have hle : x.toNat / 2 ^ k * 2 ^ k < 2 ^ w :=
    lt_of_le_of_lt (Nat.div_mul_le_self _ _) x.isLt
  rw [hshift, BitVec.toNat_shiftLeft, BitVec.toNat_ushiftRight,
    Nat.shiftRight_eq_div_pow, Nat.shiftLeft_eq, Nat.mod_eq_of_lt hle]

/-! ## Tables of records

Records of one size, laid out one after the other. -/

def record (size i : ℕ) (bytes : List Byte) : List Byte :=
  (bytes.drop (size * i)).take size

section Records

variable {α : Type} {encode : α → List Byte} {size : ℕ}

section Records

variable (hsize : ∀ x, (encode x).length = size)

include hsize

theorem length_flatMap_of_size (items : List α) :
    (items.flatMap encode).length = size * items.length := by
  induction items with
  | nil => rfl
  | cons x items ih =>
    rw [List.flatMap_cons, List.length_append, hsize, ih, List.length_cons]
    ring

/-- The records of a table come first, each at its index. -/
theorem record_flatMap (items : List α) (rest : List Byte) {i : ℕ}
    (hi : i < items.length) :
    record size i (items.flatMap encode ++ rest) = encode items[i] := by
  induction items generalizing i with
  | nil => exact (Nat.not_lt_zero i hi).elim
  | cons x items ih =>
    rw [List.flatMap_cons, List.append_assoc]
    cases i with
    | zero =>
      unfold record
      rw [Nat.mul_zero, List.drop_zero, List.take_left' (hsize x)]
      rfl
    | succ i =>
      have hskip : size * (i + 1) = (encode x).length + size * i := by
        rw [hsize]
        ring
      unfold record at ih ⊢
      rw [hskip, List.drop_length_add_append]
      exact ih (Nat.lt_of_succ_lt_succ hi)

theorem record_after_flatMap (items : List α) (rest : List Byte) (k : ℕ) :
    record size (items.length + k) (items.flatMap encode ++ rest) =
      record size k rest := by
  have hskip : size * (items.length + k) =
      (items.flatMap encode).length + size * k := by
    rw [length_flatMap_of_size hsize]
    ring
  unfold record
  rw [hskip, List.drop_length_add_append]

end Records

theorem record_replicate {n i : ℕ} (b : Byte) (h : size * (i + 1) ≤ n) :
    record size i (List.replicate n b) = List.replicate size b := by
  have hfits : min size (n - size * i) = size := by
    rw [Nat.mul_succ] at h
    omega
  unfold record
  rw [List.drop_replicate, List.take_replicate, hfits]

end Records

theorem eq_of_flips {w : ℕ} {α : Type*} {f : BitVec w → α}
    (hflip : ∀ b p, p < w → f (b ^^^ BitVec.twoPow w p) = f b)
    (b b' : BitVec w) : f b = f b' := by
  -- the words agree from bit `n` on; the induction is on `n`
  have hall : ∀ n ≤ w, ∀ b b' : BitVec w,
      (∀ p, n ≤ p → b.getLsbD p = b'.getLsbD p) → f b = f b' := by
    intro n
    induction n with
    | zero =>
      intro _ b b' hsame
      rw [BitVec.eq_of_getLsbD_eq fun p _ => hsame p (Nat.zero_le p)]
    | succ n ih =>
      intro hn b b' hsame
      by_cases hbit : b.getLsbD n = b'.getLsbD n
      · refine ih (by omega) b b' fun p hp => ?_
        rcases Nat.eq_or_lt_of_le hp with rfl | hlt
        · exact hbit
        · exact hsame p hlt
      · rw [← hflip b n hn]
        refine ih (by omega) _ b' fun p hp => ?_
        rw [BitVec.getLsbD_xor, BitVec.getLsbD_twoPow]
        rcases Nat.eq_or_lt_of_le hp with rfl | hlt
        · have hlt : n < w := hn
          revert hbit
          cases b.getLsbD n <;> cases b'.getLsbD n <;> simp [hlt]
        · rw [hsame p hlt]
          simp [hlt.ne]
  exact hall w le_rfl b b' fun p hp => by
    rw [BitVec.getLsbD_of_ge b p hp, BitVec.getLsbD_of_ge b' p hp]

/-! ## Comparison in constant time, and erasure

The crates for both are taken to compute what the three definitions say: their
comparisons decide equality and order, and what is erased reads zero. -/

abbrev CtEq {α : Type} (a b : α) : Prop := a = b

abbrev CtLess (a b : ℕ) : Prop := a < b

abbrev Buf.zeroized {n : ℕ} : Buf n := Buf.zero

end Bytes
