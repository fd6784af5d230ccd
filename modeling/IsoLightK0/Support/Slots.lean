import Mathlib.Data.Fin.Tuple.Basic
import Mathlib.Data.Fintype.Card
import Mathlib.Data.List.FinRange

/-!
# Tables of optional entries

A table has a fixed number of slots, each of which is free or holds an entry.
This module counts the slots in use, finds the first free one, and shows that a
search without an early exit, which only keeps its first match, finds what a
search with one does.
-/

namespace Slots

variable {α : Type} {n : ℕ}

def occupied (t : Fin n → Option α) : Finset (Fin n) :=
  Finset.univ.filter fun i => (t i).isSome

variable {t : Fin n → Option α} (p : Fin n → Bool)

theorem mem_occupied {i : Fin n} : i ∈ occupied t ↔ t i ≠ none := by
  simp [occupied, Option.isSome_iff_ne_none]

def firstFree (t : Fin n → Option α) : Option (Fin n) :=
  (List.finRange n).find? fun i => (t i).isNone

theorem firstFree_eq_some_iff {i : Fin n} :
    firstFree t = some i ↔ t i = none ∧ ∀ j, j < i → t j ≠ none := by
  rw [firstFree, ← Fin.find?_eq_find?_finRange, Fin.find?_eq_some_iff]
  simp [Option.isSome_iff_ne_none]

theorem firstFree_eq_none_iff : firstFree t = none ↔ ∀ i, t i ≠ none := by
  rw [firstFree, ← Fin.find?_eq_find?_finRange, Fin.find?_eq_none_iff]
  simp [Option.isSome_iff_ne_none]

theorem exists_firstFree_iff :
    (∃ i, firstFree t = some i) ↔ (occupied t).card < n := by
  rw [← Option.ne_none_iff_exists', ne_eq, firstFree_eq_none_iff]
  constructor
  · intro hfree
    obtain ⟨i, hi⟩ := not_forall.mp hfree
    have hlt : occupied t ⊂ Finset.univ :=
      Finset.ssubset_univ_iff.mpr fun hall =>
        hi (mem_occupied.mp (hall ▸ Finset.mem_univ i))
    have hcard := Finset.card_lt_card hlt
    rwa [Finset.card_univ, Fintype.card_fin] at hcard
  · intro hlt hfull
    have hall : occupied t = Finset.univ :=
      Finset.eq_univ_of_forall fun i => mem_occupied.mpr (hfull i)
    rw [hall, Finset.card_univ, Fintype.card_fin] at hlt
    exact lt_irrefl n hlt

theorem occupied_update_some (t : Fin n → Option α) (i : Fin n) (a : α) :
    occupied (Function.update t i (some a)) = insert i (occupied t) := by
  ext j
  rw [mem_occupied, Finset.mem_insert, mem_occupied]
  by_cases hj : j = i
  · simp [hj]
  · simp [hj]

theorem occupied_update_none (t : Fin n → Option α) (i : Fin n) :
    occupied (Function.update t i none) = (occupied t).erase i := by
  ext j
  rw [mem_occupied, Finset.mem_erase, mem_occupied]
  by_cases hj : j = i
  · simp [hj]
  · simp [hj]

/-- Visit every slot and keep the first one that matches; `-1` stands for
none. -/
def keepFirst (p : Fin n → Bool) : ℤ :=
  (List.finRange n).foldl
    (fun found i => if p i = true ∧ found < 0 then (i.val : ℤ) else found) (-1)

/-- The result as an optional slot. -/
def keptFirst (p : Fin n → Bool) : Option ℕ :=
  if 0 ≤ keepFirst p then some (keepFirst p).toNat else none

theorem foldl_keep_of_nonneg (slots : List (Fin n)) {found : ℤ}
    (h : 0 ≤ found) :
    slots.foldl (fun found i => if p i = true ∧ found < 0 then (i.val : ℤ)
      else found) found = found := by
  induction slots with
  | nil => rfl
  | cons i slots ih =>
    have hkept : ¬ (p i = true ∧ found < 0) := fun h' => not_lt.mpr h h'.2
    rw [List.foldl_cons, if_neg hkept, ih]

theorem foldl_keep (slots : List (Fin n)) :
    slots.foldl (fun found i => if p i = true ∧ found < 0 then (i.val : ℤ)
        else found) (-1) =
      ((slots.find? p).map fun i => (i.val : ℤ)).getD (-1) := by
  induction slots with
  | nil => rfl
  | cons i slots ih =>
    rw [List.foldl_cons]
    cases hp : p i with
    | false =>
      rw [if_neg fun h => Bool.false_ne_true h.1, ih,
        List.find?_cons_of_neg (by simp [hp])]
    | true =>
      rw [if_pos ⟨rfl, by decide⟩,
        foldl_keep_of_nonneg p slots (Int.natCast_nonneg _),
        List.find?_cons_of_pos hp]
      rfl

theorem keptFirst_eq :
    keptFirst p = ((List.finRange n).find? p).map Fin.val := by
  rw [keptFirst, keepFirst, foldl_keep]
  cases (List.finRange n).find? p with
  | none => rfl
  | some i => simp

theorem keptFirst_eq_some_iff {p : Fin n → Bool} {i : ℕ} :
    keptFirst p = some i ↔
      ∃ h : i < n, p ⟨i, h⟩ = true ∧ ∀ j : Fin n, j.val < i → p j = false := by
  rw [keptFirst_eq, ← Fin.find?_eq_find?_finRange, Option.map_eq_some_iff]
  simp only [Fin.find?_eq_some_iff]
  constructor
  · rintro ⟨j, ⟨hp, hbefore⟩, rfl⟩
    exact ⟨j.isLt, hp, fun j' hlt => hbefore j' hlt⟩
  · rintro ⟨h, hp, hbefore⟩
    exact ⟨⟨i, h⟩, ⟨hp, fun j hlt => hbefore j hlt⟩, rfl⟩

end Slots
