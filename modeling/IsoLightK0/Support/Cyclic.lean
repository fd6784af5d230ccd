import Mathlib.Data.Fin.Basic
import Mathlib.Logic.Function.Basic
import Mathlib.Tactic.Ring

/-!
# Cyclic buffers

A buffer of `c` cells is written cell after cell and starts over at the first
cell when it is full.  The elements written so far form a log; the buffer
still holds the last `c` of them, the element number `i` in cell `i % c`.
-/

namespace Cyclic

universe u

variable {α : Type u} {c : ℕ}

/-- The cells hold the last `c` elements of the log, each where its number in
the log puts it. -/
def Holds (cell : Fin c → α) (log : List α) : Prop :=
  ∀ (i : ℕ) (hi : i < log.length), log.length ≤ i + c →
    ∀ k : Fin c, k.val = i % c → cell k = log[i]

/-- The last `n` elements of a log, the oldest one first. -/
def latest (n : ℕ) (log : List α) : List α := log.drop (log.length - n)

@[simp] theorem length_latest (n : ℕ) (log : List α) :
    (latest n log).length = min n log.length := by
  unfold latest
  rw [List.length_drop]
  omega

theorem holds_nil (cell : Fin c → α) : Holds cell [] := by
  intro i hi
  exact (Nat.not_lt_zero i hi).elim

/-- Two numbers less than `c` apart have different cells. -/
theorem mod_ne_of_lt_of_lt_add {i n : ℕ} (hin : i < n) (hnc : n < i + c) :
    i % c ≠ n % c := by
  intro heq
  have hdvd : c ∣ n - i :=
    Nat.dvd_of_mod_eq_zero (Nat.sub_mod_eq_zero_of_mod_eq heq.symm)
  have hle : c ≤ n - i := Nat.le_of_dvd (by omega) hdvd
  omega

/-- Writing the next element at the cell of its number keeps the buffer in
step with the log. -/
theorem Holds.push {cell : Fin c → α} {log : List α} (h : Holds cell log)
    {head : Fin c} (hhead : head.val = log.length % c) (x : α) :
    Holds (Function.update cell head x) (log ++ [x]) := by
  intro i hi hrecent k hk
  have hlength : (log ++ [x]).length = log.length + 1 := List.length_append
  by_cases hlast : i = log.length
  · have hkhead : k = head := by
      apply Fin.ext
      rw [hk, hhead, hlast]
    subst hlast
    simp [hkhead]
  · have hbefore : i < log.length := by omega
    have hkhead : k ≠ head := by
      intro heq
      have hapart : i % c ≠ log.length % c :=
        mod_ne_of_lt_of_lt_add hbefore (by omega)
      apply hapart
      rw [← hk, ← hhead, heq]
    rw [Function.update_of_ne hkhead, List.getElem_append_left hbefore]
    exact h i hbefore (by omega) k hk

/-- Reading `n` cells on from the cell of the `n`-th last element gives the
last `n` elements in the order they were written. -/
theorem Holds.read [NeZero c] {cell : Fin c → α} {log : List α}
    (h : Holds cell log) {n : ℕ} (hn : n ≤ log.length) (hnc : n ≤ c)
    {start : Fin c} (hstart : start.val = (log.length - n) % c) :
    ((List.range n).map fun i => cell (start + Fin.ofNat c i)) =
      latest n log := by
  apply List.ext_getElem
  · rw [length_latest, List.length_map, List.length_range]
    omega
  · intro i hi _
    rw [List.length_map, List.length_range] at hi
    have hcell : (start + Fin.ofNat c i).val = (log.length - n + i) % c := by
      rw [Fin.val_add, Fin.val_ofNat, hstart, ← Nat.add_mod]
    simp only [List.getElem_map, List.getElem_range, latest, List.getElem_drop]
    exact h _ (by omega) (by omega) _ hcell

end Cyclic
