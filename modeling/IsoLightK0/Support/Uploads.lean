import IsoLightK0.Support.Bytes

/-!
# Uploads in chunks

This module is independent of any particular program.  A memory is filled by
chunks that carry their own offsets.  A log of chunks covers the first `n`
octets when every one of them was supplied by a chunk of the log, with the
value that the memory holds now.  Coverage is extended by a chunk that leaves
no gap, also when it overlaps what is there.

Chunks that arrive in order extend the part received so far, and reading in
chunks of one size gives back what was written.
-/

namespace Uploads

open Bytes

structure Chunk where
  offset : ℕ
  bytes : List Byte

/-- The chunk carries the octet `b` for address `i`. -/
def Chunk.Supplies (c : Chunk) (i : ℕ) (b : Byte) : Prop :=
  c.offset ≤ i ∧ c.bytes[i - c.offset]? = some b

/-- The first `n` octets of the memory were supplied by the log. -/
def Covers (log : List Chunk) (m : Mem) (n : ℕ) : Prop :=
  ∀ i, i < n → ∃ c ∈ log, c.Supplies i (m i)

variable {log : List Chunk} {m : Mem} {n : ℕ}

theorem covers_zero (log : List Chunk) (m : Mem) : Covers log m 0 := by
  intro i hi
  exact absurd hi (Nat.not_lt_zero i)

/-- The octets in front of the new chunk are as they were, those inside it are
its own; there are none in between if it starts inside the covered part. -/
theorem Covers.write (h : Covers log m n) {offset : ℕ}
    (hgap : offset ≤ n) (xs : List Byte) :
    Covers (⟨offset, xs⟩ :: log) (m.write offset xs) (offset + xs.length) := by
  intro i hi
  by_cases hbefore : i < offset
  · obtain ⟨c, hmem, hsupplies⟩ := h i (Nat.lt_of_lt_of_le hbefore hgap)
    rw [Mem.write_apply_of_lt m xs hbefore]
    exact ⟨c, List.mem_cons_of_mem _ hmem, hsupplies⟩
  · obtain ⟨k, rfl⟩ := Nat.exists_eq_add_of_le (Nat.not_lt.mp hbefore)
    have hk : k < xs.length := Nat.lt_of_add_lt_add_left hi
    refine ⟨⟨offset, xs⟩, List.mem_cons_self, Nat.le_add_right offset k, ?_⟩
    rw [Mem.write_apply_within m hk, Nat.add_sub_cancel_left]
    exact List.getElem?_eq_getElem hk

theorem Covers.supplies_of_read (h : Covers log m n) {len i : ℕ}
    (hlen : len ≤ n) {b : Byte} (hread : (m.read 0 len)[i]? = some b) :
    ∃ c ∈ log, c.Supplies i b := by
  obtain ⟨hi, rfl⟩ := List.getElem?_eq_some_iff.mp hread
  rw [Mem.length_read] at hi
  rw [Mem.getElem_read, Nat.zero_add]
  exact h i (Nat.lt_of_lt_of_le hi hlen)

theorem read_write_append {m : Mem} {got : List Byte}
    (h : m.read 0 got.length = got) (xs : List Byte) :
    (m.write got.length xs).read 0 (got ++ xs).length = got ++ xs := by
  have hfront : (m.write got.length xs).read 0 got.length = got := by
    rw [Mem.read_write_disjoint m (.inl (Nat.zero_add _).le), h]
  rw [List.length_append, Mem.read_add, hfront, Nat.zero_add,
    Mem.read_write_same]

/-- The pieces of one size, read one after the other, make up the front of the
list. -/
theorem flatMap_take_drop (xs : List Byte) (size n : ℕ) :
    (List.range n).flatMap (fun i => (xs.drop (size * i)).take size) =
      xs.take (size * n) := by
  induction n with
  | zero => simp
  | succ n ih =>
    rw [List.range_succ, List.flatMap_append, ih, List.flatMap_singleton,
      Nat.mul_succ, List.take_add]

end Uploads
