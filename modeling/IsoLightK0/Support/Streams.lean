import Mathlib.Data.Finset.Card
import Mathlib.Order.Interval.Finset.Nat
import Mathlib.Tactic.Common

/-!
# Counters over a stream

What a test can count while it reads a stream sample by sample: how often the
last sample has come in a row, how often a value has occurred since the start
of a window, and how many samples there have been since the last event.

A counter is given by what it does with one more sample.  Beside it stands a
description in terms of the stream alone, and a lemma that compares the two.
-/

namespace Streams

universe u

variable {α : Type u}

/-- The last `k` of the first `n` samples are there and are all equal. -/
def Repeats (stream : ℕ → α) (k n : ℕ) : Prop :=
  k ≤ n ∧ ∃ b, ∀ j, n ≤ j + k → j < n → stream j = b

/-- How often the last of the first `n` samples has come in a row. -/
def runLength [DecidableEq α] (stream : ℕ → α) : ℕ → ℕ
  | 0 => 0
  | 1 => 1
  | n + 2 =>
    if stream (n + 1) = stream n then runLength stream (n + 1) + 1 else 1

section Repetitions

variable {stream : ℕ → α} {k n : ℕ}

theorem repeats_one (stream : ℕ → α) (n : ℕ) : Repeats stream 1 (n + 1) := by
  refine ⟨by omega, stream n, fun j hle hlt => ?_⟩
  obtain rfl : j = n := by omega
  rfl

/-- One more sample prolongs the repetitions that it continues. -/
theorem repeats_succ_iff (hk : 0 < k) :
    Repeats stream (k + 1) (n + 1 + 1) ↔
      stream (n + 1) = stream n ∧ Repeats stream k (n + 1) := by
  constructor
  · rintro ⟨hle, b, hb⟩
    have hlast := hb (n + 1) (by omega) (by omega)
    have hprevious := hb n (by omega) (by omega)
    refine ⟨hlast.trans hprevious.symm, by omega, b, fun j hj hlt => ?_⟩
    exact hb j (by omega) (by omega)
  · rintro ⟨hsame, hle, b, hb⟩
    have hprevious := hb n (by omega) (by omega)
    refine ⟨by omega, b, fun j hj hlt => ?_⟩
    by_cases hjn : j = n + 1
    · rw [hjn, hsame, hprevious]
    · exact hb j (by omega) (by omega)

theorem repeats_iff_le_runLength [DecidableEq α] (hk : 0 < k) :
    Repeats stream k n ↔ k ≤ runLength stream n := by
  induction n using runLength.induct stream generalizing k with
  | case1 =>
    refine iff_of_false (fun h => ?_) (by rw [runLength]; omega)
    have := h.1
    omega
  | case2 =>
    rw [runLength]
    refine ⟨fun h => h.1, fun h => ?_⟩
    obtain rfl : k = 1 := by omega
    exact repeats_one stream 0
  | case3 n hsame ih =>
    rw [runLength, if_pos hsame]
    obtain ⟨k, rfl⟩ : ∃ m, k = m + 1 := ⟨k - 1, by omega⟩
    by_cases hzero : k = 0
    · rw [hzero]
      exact iff_of_true (repeats_one stream _) (by omega)
    · rw [repeats_succ_iff (by omega), ih (by omega),
        and_iff_right hsame, Nat.add_le_add_iff_right]
  | case4 n hdiffers =>
    rw [runLength, if_neg hdiffers]
    obtain ⟨k, rfl⟩ : ∃ m, k = m + 1 := ⟨k - 1, by omega⟩
    by_cases hzero : k = 0
    · rw [hzero]
      exact iff_of_true (repeats_one stream _) (by omega)
    · rw [repeats_succ_iff (by omega)]
      exact iff_of_false (fun h => hdiffers h.1) (by omega)

end Repetitions

section Windows

variable [DecidableEq α]

/-- How often a value occurs from sample `lo` on and before sample `hi`. -/
def occurrences (stream : ℕ → α) (b : α) (lo hi : ℕ) : ℕ :=
  ((Finset.Ico lo hi).filter fun j => stream j = b).card

variable (stream : ℕ → α) (b : α) (lo : ℕ)

theorem occurrences_self : occurrences stream b lo lo = 0 := by
  rw [occurrences, Finset.Ico_self, Finset.filter_empty, Finset.card_empty]

theorem occurrences_succ {lo hi : ℕ} (hle : lo ≤ hi) :
    occurrences stream b lo (hi + 1) =
      occurrences stream b lo hi + if stream hi = b then 1 else 0 := by
  have hnew : hi ∉ (Finset.Ico lo hi).filter fun j => stream j = b := by
    simp
  unfold occurrences
  rw [Nat.Ico_succ_right_eq_insert_Ico hle, Finset.filter_insert]
  by_cases hsame : stream hi = b
  · rw [if_pos hsame, if_pos hsame, Finset.card_insert_of_notMem hnew]
  · rw [if_neg hsame, if_neg hsame, Nat.add_zero]

theorem occurrences_le (hi : ℕ) : occurrences stream b lo hi ≤ hi - lo := by
  rw [← Nat.card_Ico lo hi]
  exact Finset.card_filter_le _ _

end Windows

/-- The last event before `n` was at `j`. -/
structure LastBefore (event : ℕ → Prop) (n j : ℕ) : Prop where
  lt : j < n
  happened : event j
  none_after : ∀ k, j < k → k < n → ¬ event k

section Events

variable {event : ℕ → Prop} {n : ℕ}

theorem exists_lastBefore (h : ∃ j < n, event j) :
    ∃ j, LastBefore event n j := by
  induction n with
  | zero =>
    obtain ⟨j, hlt, -⟩ := h
    omega
  | succ n ih =>
    by_cases hnow : event n
    · exact ⟨n, by omega, hnow, fun k hlt hle => by omega⟩
    · obtain ⟨j, hlt, hj⟩ := h
      have hne : j ≠ n := fun heq => hnow (heq ▸ hj)
      obtain ⟨last, hlast⟩ := ih ⟨j, by omega, hj⟩
      refine ⟨last, by have := hlast.lt; omega, hlast.happened, ?_⟩
      intro k hafter hbefore
      by_cases hk : k = n
      · rwa [hk]
      · exact hlast.none_after k hafter (by omega)

variable [DecidablePred event]

/-- How many samples there have been without an event since the last one, or
since the start. -/
def quietTime (event : ℕ → Prop) [DecidablePred event] : ℕ → ℕ
  | 0 => 0
  | n + 1 => if event n then 0 else quietTime event n + 1

/-- The samples without an event after sample `j`. -/
def quietSince (event : ℕ → Prop) [DecidablePred event] (n j : ℕ) : ℕ :=
  ((Finset.Ioo j n).filter fun k => ¬ event k).card

/-- The counter counts the samples since the last event. -/
theorem LastBefore.quietTime_eq {j : ℕ} (h : LastBefore event n j) :
    quietTime event n = quietSince event n j := by
  have hcount : quietSince event n j = n - j - 1 := by
    unfold quietSince
    rw [Finset.filter_true_of_mem, Nat.card_Ioo]
    intro k hk
    exact h.none_after k (Finset.mem_Ioo.mp hk).1 (Finset.mem_Ioo.mp hk).2
  rw [hcount]
  clear hcount
  induction n with
  | zero =>
    have := h.lt
    omega
  | succ n ih =>
    rw [quietTime]
    by_cases hj : j = n
    · rw [if_pos (hj ▸ h.happened)]
      omega
    · have hlt : j < n := by have := h.lt; omega
      have hbefore : LastBefore event n j :=
        ⟨hlt, h.happened, fun k hafter hk => h.none_after k hafter (by omega)⟩
      rw [if_neg (h.none_after n hlt (by omega)), ih hbefore]
      omega

end Events

end Streams
