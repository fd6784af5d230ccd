import IsoLightK0.Capability.Model
import IsoLightK0.Support.Runs
import IsoLightK0.Support.Slots

/-!
# Capability spaces

A `CapabilitySpace` is a table of 32 slots with a counter beside it.  The
counter follows the table as long as `revoke` is called on slots in use:
`revoke` also succeeds on a free slot, and then counts one too few.
-/

namespace IsoLightK0

open Runs

def maxCapsPerSpace : ℕ := 32

structure CapabilitySpace where
  slots : Fin maxCapsPerSpace → Option Capability
  count : ℕ

namespace CapabilitySpace

def empty : CapabilitySpace where
  slots := fun _ => none
  count := 0

/-- `insert`; the result is the index of the slot. -/
def insert (s : CapabilitySpace) (cap : Capability) :
    Option ℕ × CapabilitySpace :=
  match Slots.firstFree s.slots with
  | some i =>
    (some i.val,
      { slots := Function.update s.slots i (some cap)
        count := s.count + 1 })
  | none => (none, s)

def get (s : CapabilitySpace) (idx : ℕ) : Option Capability :=
  if h : idx < maxCapsPerSpace then s.slots ⟨idx, h⟩ else none

/-- Whether `find_by_token` takes a slot for a match. -/
def holdsToken (s : CapabilitySpace) (token : BitVec 64)
    (i : Fin maxCapsPerSpace) : Bool :=
  match s.slots i with
  | some cap => cap.token = token ∧ cap.token ≠ 0
  | none => false

/-- `find_by_token`, which visits every slot. -/
def findByToken (s : CapabilitySpace) (token : BitVec 64) : Option ℕ :=
  Slots.keptFirst (s.holdsToken token)

/-- `revoke`; the slot is free afterwards, whatever it was. -/
def revoke (s : CapabilitySpace) (idx : ℕ) :
    Except CapError Unit × CapabilitySpace :=
  if h : idx < maxCapsPerSpace then
    (.ok (),
      { slots := Function.update s.slots ⟨idx, h⟩ none
        count := s.count - 1 })
  else (.error .invalidSlot, s)

end CapabilitySpace

inductive CapSpaceCall
  | insert (cap : Capability)
  | revoke (idx : ℕ)

inductive CapSpaceReply
  | slot (idx : Option ℕ)
  | done (result : Except CapError Unit)

namespace CapabilitySpace

def apply (s : CapabilitySpace) :
    CapSpaceCall → CapSpaceReply × CapabilitySpace
  | .insert cap => (.slot (s.insert cap).1, (s.insert cap).2)
  | .revoke idx => (.done (s.revoke idx).1, (s.revoke idx).2)

def freeSlots (s : CapabilitySpace) : Set ℕ :=
  { idx | idx < maxCapsPerSpace ∧ s.get idx = none }

def slotsWith (s : CapabilitySpace) (token : BitVec 64) : Set ℕ :=
  { idx | ∃ cap, s.get idx = some cap ∧ cap.token = token }

/-- The counter is the number of slots in use, `insert` takes the first free
slot exactly if the counter is below the number of slots, and `find_by_token`
finds the first slot with a token, and nothing for the invalid one. -/
structure Consistent (s : CapabilitySpace) : Prop where
  count_eq : s.count = (Slots.occupied s.slots).card
  insert_iff : ∀ cap,
    (∃ idx, (s.insert cap).1 = some idx) ↔ s.count < maxCapsPerSpace
  insert_least : ∀ cap idx, (s.insert cap).1 = some idx →
    IsLeast s.freeSlots idx
  find_iff : ∀ token, token ≠ 0 → ∀ idx,
    s.findByToken token = some idx ↔ IsLeast (s.slotsWith token) idx
  find_zero : s.findByToken 0 = none

theorem get_val (s : CapabilitySpace) (i : Fin maxCapsPerSpace) :
    s.get i.val = s.slots i :=
  dif_pos i.isLt

variable {s : CapabilitySpace} {idx : ℕ}

theorem get_eq_some {cap : Capability} (h : s.get idx = some cap) :
    ∃ hlt : idx < maxCapsPerSpace, s.slots ⟨idx, hlt⟩ = some cap := by
  unfold get at h
  split at h
  · rename_i hlt
    exact ⟨hlt, h⟩
  · cases h

theorem holdsToken_iff {token : BitVec 64} {i : Fin maxCapsPerSpace} :
    s.holdsToken token i = true ↔ token ≠ 0 ∧ i.val ∈ s.slotsWith token := by
  have hslots : i.val ∈ s.slotsWith token ↔
      ∃ cap, s.slots i = some cap ∧ cap.token = token := by
    rw [slotsWith, Set.mem_ofPred_eq, get_val]
  rw [hslots, holdsToken]
  cases s.slots i with
  | none => simp
  | some cap =>
    simp only [decide_eq_true_eq, Option.some.injEq, exists_eq_left']
    constructor
    · rintro ⟨rfl, hne⟩
      exact ⟨hne, rfl⟩
    · rintro ⟨hne, rfl⟩
      exact ⟨rfl, hne⟩

theorem findByToken_iff (s : CapabilitySpace) {token : BitVec 64}
    (htoken : token ≠ 0) (idx : ℕ) :
    s.findByToken token = some idx ↔ IsLeast (s.slotsWith token) idx := by
  rw [findByToken, Slots.keptFirst_eq_some_iff]
  constructor
  · rintro ⟨hlt, hmatch, hbefore⟩
    refine ⟨(holdsToken_iff.mp hmatch).2, ?_⟩
    intro j hj
    obtain ⟨cap, hget, -⟩ := id hj
    obtain ⟨hjlt, -⟩ := get_eq_some hget
    by_contra hnot
    have hnone := hbefore ⟨j, hjlt⟩ (Nat.not_le.mp hnot)
    have hsome : s.holdsToken token ⟨j, hjlt⟩ = true :=
      holdsToken_iff.mpr ⟨htoken, hj⟩
    rw [hnone] at hsome
    cases hsome
  · rintro ⟨hmem, hleast⟩
    obtain ⟨cap, hget, -⟩ := id hmem
    obtain ⟨hlt, -⟩ := get_eq_some hget
    refine ⟨hlt, holdsToken_iff.mpr ⟨htoken, hmem⟩, ?_⟩
    intro j hj
    rw [← Bool.not_eq_true, holdsToken_iff]
    rintro ⟨-, hwith⟩
    exact Nat.not_le.mpr hj (hleast hwith)

theorem findByToken_zero (s : CapabilitySpace) : s.findByToken 0 = none := by
  rw [← Option.not_isSome_iff_eq_none, Option.isSome_iff_exists]
  rintro ⟨idx, hfound⟩
  rw [findByToken, Slots.keptFirst_eq_some_iff] at hfound
  obtain ⟨hlt, hmatch, -⟩ := hfound
  exact (holdsToken_iff.mp hmatch).1 rfl

theorem insert_fst (s : CapabilitySpace) (cap : Capability) :
    (s.insert cap).1 = (Slots.firstFree s.slots).map Fin.val := by
  rw [insert]
  cases Slots.firstFree s.slots with
  | none => rfl
  | some i => rfl

theorem isLeast_of_insert {cap : Capability} (h : (s.insert cap).1 = some idx) :
    IsLeast s.freeSlots idx := by
  rw [insert_fst] at h
  obtain ⟨i, hfree, rfl⟩ := Option.map_eq_some_iff.mp h
  obtain ⟨hnone, hbefore⟩ := Slots.firstFree_eq_some_iff.mp hfree
  refine ⟨⟨i.isLt, (s.get_val i).trans hnone⟩, ?_⟩
  rintro j ⟨hjlt, hj⟩
  by_contra hnot
  apply hbefore ⟨j, hjlt⟩ (Nat.not_le.mp hnot)
  rw [← s.get_val]
  exact hj

theorem Consistent.of_count (h : s.count = (Slots.occupied s.slots).card) :
    s.Consistent where
  count_eq := h
  insert_iff cap := by
    rw [h, ← Slots.exists_firstFree_iff, insert_fst]
    constructor
    · rintro ⟨idx, hidx⟩
      obtain ⟨i, hfree, -⟩ := Option.map_eq_some_iff.mp hidx
      exact ⟨i, hfree⟩
    · rintro ⟨i, hfree⟩
      exact ⟨i.val, by rw [hfree]; rfl⟩
  insert_least _ _ hidx := isLeast_of_insert hidx
  find_iff _ htoken idx := s.findByToken_iff htoken idx
  find_zero := s.findByToken_zero

/-! ## The counter -/

/-- The counter follows the call: a call of `revoke` on a free slot finds the
whole space empty. -/
def Follows (s : CapabilitySpace) : CapSpaceCall → Prop
  | .insert _ => True
  | .revoke idx =>
    idx < maxCapsPerSpace → s.get idx = none →
      ∀ i, s.slots i = none

theorem count_insert (h : s.count = (Slots.occupied s.slots).card)
    (cap : Capability) :
    (s.insert cap).2.count = (Slots.occupied (s.insert cap).2.slots).card := by
  rw [insert]
  cases hfree : Slots.firstFree s.slots with
  | none => exact h
  | some i =>
    obtain ⟨hnone, -⟩ := Slots.firstFree_eq_some_iff.mp hfree
    have hnew : i ∉ Slots.occupied s.slots := fun hmem =>
      Slots.mem_occupied.mp hmem hnone
    dsimp only
    rw [Slots.occupied_update_some, Finset.card_insert_of_notMem hnew, h]

theorem revoke_of_lt (s : CapabilitySpace) (hlt : idx < maxCapsPerSpace) :
    (s.revoke idx).2 =
      { slots := Function.update s.slots ⟨idx, hlt⟩ none
        count := s.count - 1 } := by
  rw [revoke, dif_pos hlt]

/-- On a slot that was in use the counter follows, on a free one it loses one,
if it can. -/
theorem occupied_revoke (s : CapabilitySpace) (hlt : idx < maxCapsPerSpace) :
    (Slots.occupied (s.revoke idx).2.slots).card =
      if s.get idx = none then (Slots.occupied s.slots).card
      else (Slots.occupied s.slots).card - 1 := by
  have hget := s.get_val ⟨idx, hlt⟩
  rw [revoke_of_lt s hlt]
  dsimp only at hget ⊢
  rw [hget, Slots.occupied_update_none]
  split
  · rename_i hnone
    have hfree : ⟨idx, hlt⟩ ∉ Slots.occupied s.slots := fun hmem =>
      Slots.mem_occupied.mp hmem hnone
    rw [Finset.erase_eq_of_notMem hfree]
  · rename_i hsome
    exact Finset.card_erase_of_mem (Slots.mem_occupied.mpr hsome)

theorem card_occupied_eq_zero :
    (Slots.occupied s.slots).card = 0 ↔ ∀ i, s.slots i = none := by
  rw [Finset.card_eq_zero, Finset.eq_empty_iff_forall_notMem]
  simp [Slots.mem_occupied]

theorem count_apply (h : s.count = (Slots.occupied s.slots).card)
    (call : CapSpaceCall) (hfollows : s.Follows call) :
    (s.apply call).2.count = (Slots.occupied (s.apply call).2.slots).card := by
  cases call with
  | insert cap => exact count_insert h cap
  | revoke idx =>
    change (s.revoke idx).2.count = (Slots.occupied (s.revoke idx).2.slots).card
    by_cases hlt : idx < maxCapsPerSpace
    · rw [occupied_revoke s hlt, revoke_of_lt s hlt]
      dsimp only
      split
      · rename_i hfree
        have hzero := card_occupied_eq_zero.mpr (hfollows hlt hfree)
        rw [h, hzero]
      · rw [h]
    · rw [revoke, dif_neg hlt]
      exact h

theorem count_ne_apply (h : s.count = (Slots.occupied s.slots).card)
    (call : CapSpaceCall) (hnot : ¬ s.Follows call) :
    (s.apply call).2.count ≠ (Slots.occupied (s.apply call).2.slots).card := by
  cases call with
  | insert cap => exact (hnot trivial).elim
  | revoke idx =>
    change (s.revoke idx).2.count ≠ (Slots.occupied (s.revoke idx).2.slots).card
    simp only [Follows, Classical.not_imp] at hnot
    obtain ⟨hlt, hfree, hused⟩ := hnot
    have hpos : (Slots.occupied s.slots).card ≠ 0 := fun hzero =>
      hused (card_occupied_eq_zero.mp hzero)
    rw [occupied_revoke s hlt, if_pos hfree, revoke_of_lt s hlt]
    dsimp only
    omega

/-- The space is consistent after every call of a sequence exactly if each call
of `revoke` on a free slot finds the space empty.  The calls are listed with
the latest first. -/
theorem consistent_iff (calls : List CapSpaceCall) :
    (∀ earlier, earlier <:+ calls →
        (replay apply empty earlier).2.Consistent) ↔
      ∀ call earlier, call :: earlier <:+ calls →
        (replay apply empty earlier).2.Follows call := by
  apply forall_replay_iff
    (I := fun s => s.count = (Slots.occupied s.slots).card)
  · exact (card_occupied_eq_zero.mpr fun _ => rfl).symm
  · exact fun s hcount => .of_count hcount
  · exact fun s call hcount hfollows => count_apply hcount call hfollows
  · exact fun s call hcount hnot hconsistent =>
      count_ne_apply hcount call hnot hconsistent.count_eq

/-- One capability in slot 0; revoking slot 5 sets the counter to zero. -/
theorem revoke_free_slot :
    (replay apply empty [.revoke 5, .insert ⟨7, 1, 0⟩]).2.count = 0 ∧
      (Slots.occupied
        (replay apply empty [.revoke 5, .insert ⟨7, 1, 0⟩]).2.slots).card = 1 := by
  decide

end CapabilitySpace

end IsoLightK0
