import IsoLightK0.Tls.KeySchedule
import Mathlib.Data.Fin.Tuple.Basic
import Mathlib.Data.List.Forall2

/-!
# The software keystore

`keystore.rs`: a static pool of eight slots for pre-shared keys, which stands in
for an HSM.  `Secret` is dropped; the slot states and the octets that are zeroed
are modelled as they are.  Next to each operation stands the lemma that says
what it does.
-/

namespace IsoLightK0

open Bytes

def maxPskSlots : ℕ := 8

def maxPskLen : ℕ := 64

abbrev PskIdx := Fin maxPskSlots

def PskId.zero : PskId := Buf.zero

/-- `SlotState` of the keystore. -/
inductive PskSlotState
  | empty
  | provisioned
  | wiped
  deriving DecidableEq, Repr

inductive KeystoreError
  | invalidLength
  | full
  | duplicate
  | notFound
  deriving DecidableEq, Repr

structure PskSlot where
  id : PskId
  state : PskSlotState
  material : Buf maxPskLen
  materialLen : ℕ

namespace PskSlot

def empty : PskSlot := ⟨PskId.zero, .empty, Buf.zero, 0⟩

/-- What `wipe_all` and `psk_destroy` leave of a slot. -/
def wiped : PskSlot := ⟨PskId.zero, .wiped, Buf.zeroized, 0⟩

/-- The slot after `provision` has copied the material into it: what follows
the material is zeroed. -/
def fill (s : PskSlot) (id : PskId) (material : List Byte) : PskSlot where
  id := id
  state := .provisioned
  material := (s.material.blit 0 material).blit material.length
    (List.replicate (maxPskLen - material.length) 0)
  materialLen := material.length

def psk (s : PskSlot) : List Byte := s.material.slice 0 s.materialLen

theorem psk_fill (s : PskSlot) (id : PskId) {material : List Byte}
    (hlen : material.length ≤ maxPskLen) :
    (s.fill id material).psk = material := by
  have hfit : 0 + material.length ≤ maxPskLen := by omega
  have hrest : material.length +
      (List.replicate (maxPskLen - material.length) (0 : Byte)).length ≤
        maxPskLen := by
    rw [List.length_replicate]
    omega
  have hbefore : 0 + material.length ≤ material.length := by omega
  unfold psk fill
  rw [Buf.slice_blit_disjoint _ hrest (.inl hbefore)]
  exact Buf.slice_blit_of_length _ hfit rfl

end PskSlot

/-! ## The operations -/

structure SoftKeystore where
  slots : PskIdx → PskSlot

namespace SoftKeystore

def new : SoftKeystore := ⟨fun _ => PskSlot.empty⟩

def setSlot (k : SoftKeystore) (i : PskIdx) (s : PskSlot) : SoftKeystore :=
  ⟨Function.update k.slots i s⟩

def findProvisioned (k : SoftKeystore) (id : PskId) : Option PskIdx :=
  (List.finRange maxPskSlots).find? fun i =>
    (k.slots i).state = .provisioned ∧ (k.slots i).id = id

def findAnyWithId (k : SoftKeystore) (id : PskId) : Option PskIdx :=
  (List.finRange maxPskSlots).find? fun i =>
    (k.slots i).state ≠ .empty ∧ (k.slots i).id = id

/-- The slot that the loop of `provision` fills. -/
def firstEmpty (k : SoftKeystore) : Option PskIdx :=
  (List.finRange maxPskSlots).find? fun i => (k.slots i).state = .empty

def provision (k : SoftKeystore) (id : PskId) (material : List Byte) :
    Except KeystoreError Unit × SoftKeystore :=
  if material = [] ∨ maxPskLen < material.length then
    (.error .invalidLength, k)
  else if (k.findAnyWithId id).isSome then
    (.error .duplicate, k)
  else
    match k.firstEmpty with
    | none => (.error .full, k)
    | some i => (.ok (), k.setSlot i ((k.slots i).fill id material))

def wipeAll (_ : SoftKeystore) : SoftKeystore := ⟨fun _ => PskSlot.wiped⟩

/-- The loop over the octets of two identifiers in `psk_exists`. -/
def ctEqId (a b : PskId) : Bool :=
  (a.toList.zip b.toList).foldl (fun eq p => eq && decide (CtEq p.1 p.2)) true

/-- `psk_exists`: the disjunction over all slots. -/
def pskExists (k : SoftKeystore) (id : PskId) : Bool :=
  (List.finRange maxPskSlots).foldl
    (fun acc i =>
      if (k.slots i).state = .provisioned then
        acc || ctEqId (k.slots i).id id
      else
        acc)
    false

def pskHkdfExtract (sha256 : List Byte → Buf 32) (k : SoftKeystore)
    (id : PskId) (salt : List Byte) : Except HsmError (Buf 32) :=
  match k.findProvisioned id with
  | none => .error .pskNotFound
  | some i =>
    if (k.slots i).materialLen = 0 then
      .error .internal
    else
      .ok (hkdfExtract sha256 salt (k.slots i).psk)

def pskDestroy (k : SoftKeystore) (id : PskId) :
    Except HsmError Unit × SoftKeystore :=
  match k.findAnyWithId id with
  | none => (.ok (), k)
  | some i => (.ok (), k.setSlot i PskSlot.wiped)

/-- The keystore as the driver that the handshake sees. -/
def driver (sha256 : List Byte → Buf 32) (k : SoftKeystore) : HsmDriver where
  pskExists := k.pskExists
  pskHkdfExtract := k.pskHkdfExtract sha256

/-! ## What the operations do -/

variable (k : SoftKeystore)

@[simp] theorem slots_setSlot_self (i : PskIdx) (s : PskSlot) :
    (k.setSlot i s).slots i = s := by
  simp [setSlot]

theorem slots_setSlot_of_ne {i j : PskIdx} (hne : j ≠ i) (s : PskSlot) :
    (k.setSlot i s).slots j = k.slots j := by
  simp [setSlot, hne]

/-- The slot is `Provisioned` with the identifier `id`. -/
def ProvisionedAs (i : PskIdx) (id : PskId) : Prop :=
  (k.slots i).state = .provisioned ∧ (k.slots i).id = id

/-- The slot is not `Empty` and carries the identifier `id`. -/
def CarriesId (i : PskIdx) (id : PskId) : Prop :=
  (k.slots i).state ≠ .empty ∧ (k.slots i).id = id

theorem ProvisionedAs.carriesId {k : SoftKeystore} {i : PskIdx} {id : PskId}
    (h : k.ProvisionedAs i id) : k.CarriesId i id := by
  refine ⟨?_, h.2⟩
  rw [h.1]
  decide

variable (id : PskId)

theorem findProvisioned_eq_some_iff (i : PskIdx) :
    k.findProvisioned id = some i ↔
      k.ProvisionedAs i id ∧ ∀ j, j < i → ¬ k.ProvisionedAs j id := by
  rw [findProvisioned, ← Fin.find?_eq_find?_finRange, Fin.find?_eq_some_iff]
  simp only [decide_eq_true_eq, decide_eq_false_iff_not, ProvisionedAs]

theorem findProvisioned_eq_none_iff :
    k.findProvisioned id = none ↔ ∀ i, ¬ k.ProvisionedAs i id := by
  rw [findProvisioned, ← Fin.find?_eq_find?_finRange, Fin.find?_eq_none_iff]
  simp only [decide_eq_false_iff_not, ProvisionedAs]

theorem findAnyWithId_eq_some_iff (i : PskIdx) :
    k.findAnyWithId id = some i ↔
      k.CarriesId i id ∧ ∀ j, j < i → ¬ k.CarriesId j id := by
  rw [findAnyWithId, ← Fin.find?_eq_find?_finRange, Fin.find?_eq_some_iff]
  simp only [decide_eq_true_eq, decide_eq_false_iff_not, CarriesId]

theorem findAnyWithId_eq_none_iff :
    k.findAnyWithId id = none ↔ ∀ i, ¬ k.CarriesId i id := by
  rw [findAnyWithId, ← Fin.find?_eq_find?_finRange, Fin.find?_eq_none_iff]
  simp only [decide_eq_false_iff_not, CarriesId]

theorem firstEmpty_eq_none_iff :
    k.firstEmpty = none ↔ ∀ i, (k.slots i).state ≠ .empty := by
  rw [firstEmpty, ← Fin.find?_eq_find?_finRange, Fin.find?_eq_none_iff]
  simp only [decide_eq_false_iff_not, ne_eq]

theorem firstEmpty_some {i : PskIdx} (h : k.firstEmpty = some i) :
    (k.slots i).state = .empty := by
  rw [firstEmpty, ← Fin.find?_eq_find?_finRange, Fin.find?_eq_some_iff] at h
  simpa using h.1

theorem ctEqId_iff (a b : PskId) : ctEqId a b = true ↔ a = b := by
  have hfold : ∀ (pairs : List (Byte × Byte)) (acc : Bool),
      pairs.foldl (fun eq p => eq && decide (p.1 = p.2)) acc = true ↔
        acc = true ∧ ∀ x y, (x, y) ∈ pairs → x = y := by
    intro pairs
    induction pairs with
    | nil => simp
    | cons p pairs ih =>
      intro acc
      rw [List.foldl_cons, ih, Bool.and_eq_true, decide_eq_true_eq]
      constructor
      · rintro ⟨⟨hacc, hp⟩, hrest⟩
        refine ⟨hacc, fun x y hmem => ?_⟩
        rcases List.mem_cons.mp hmem with rfl | hmem
        · exact hp
        · exact hrest x y hmem
      · rintro ⟨hacc, hall⟩
        refine ⟨⟨hacc, hall p.1 p.2 List.mem_cons_self⟩, fun x y hmem => ?_⟩
        exact hall x y (List.mem_cons_of_mem p hmem)
  have hlength : a.toList.length = b.toList.length := by simp
  have hzip : a.toList = b.toList ↔
      ∀ x y, (x, y) ∈ a.toList.zip b.toList → x = y := by
    have hpairs : List.Forall₂ (· = ·) a.toList b.toList ↔
        a.toList = b.toList := by
      rw [List.forall₂_eq_eq_eq]
    rw [← hpairs, List.forall₂_iff_zip]
    exact ⟨fun h x y hmem => h.2 hmem,
      fun h => ⟨hlength, fun hmem => h _ _ hmem⟩⟩
  rw [ctEqId, hfold, ← hzip]
  exact ⟨fun h => Buf.toList_injective h.2, fun h => ⟨rfl, congrArg _ h⟩⟩

/-- The constant-time accumulation finds what the lookup finds. -/
theorem pskExists_iff : k.pskExists id = true ↔ ∃ i, k.ProvisionedAs i id := by
  have hfold : ∀ (idxs : List PskIdx) (acc : Bool),
      idxs.foldl
          (fun acc i =>
            if (k.slots i).state = .provisioned then
              acc || ctEqId (k.slots i).id id
            else acc) acc = true ↔
        acc = true ∨ ∃ i ∈ idxs, k.ProvisionedAs i id := by
    intro idxs
    induction idxs with
    | nil => simp
    | cons i idxs ih =>
      intro acc
      rw [List.foldl_cons, ih]
      by_cases hstate : (k.slots i).state = .provisioned
      · simp [hstate, ctEqId_iff, ProvisionedAs, or_assoc]
      · simp [hstate, ProvisionedAs]
  rw [pskExists, hfold]
  simp

/-- The exits of `provision`: a refusal changes nothing, and a success fills an
`Empty` slot under an identifier that no slot carries. -/
theorem provision_cases (material : List Byte) :
    (∃ e, k.provision id material = (.error e, k) ∧
      (material = [] ∨ maxPskLen < material.length ∨
        (∃ i, k.CarriesId i id) ∨ ∀ i, (k.slots i).state ≠ .empty)) ∨
    (∃ i, k.provision id material =
        (.ok (), k.setSlot i ((k.slots i).fill id material)) ∧
      1 ≤ material.length ∧ material.length ≤ maxPskLen ∧
      (∀ j, ¬ k.CarriesId j id) ∧ (k.slots i).state = .empty) := by
  unfold provision
  by_cases hlen : material = [] ∨ maxPskLen < material.length
  · rw [if_pos hlen]
    exact .inl ⟨_, rfl, hlen.imp_right Or.inl⟩
  · rw [if_neg hlen]
    obtain ⟨hne, hmax⟩ := not_or.mp hlen
    cases hfind : k.findAnyWithId id with
    | some i =>
      have hcarries := ((k.findAnyWithId_eq_some_iff id i).mp hfind).1
      rw [Option.isSome_some, if_pos rfl]
      exact .inl ⟨_, rfl, .inr (.inr (.inl ⟨i, hcarries⟩))⟩
    | none =>
      have hfresh := (k.findAnyWithId_eq_none_iff id).mp hfind
      rw [if_neg (by simp)]
      cases hempty : k.firstEmpty with
      | none =>
        have hfull := k.firstEmpty_eq_none_iff.mp hempty
        exact .inl ⟨_, rfl, .inr (.inr (.inr hfull))⟩
      | some i =>
        exact .inr ⟨i, rfl, List.length_pos_iff.mpr hne,
          Nat.not_lt.mp hmax, hfresh, k.firstEmpty_some hempty⟩

theorem provision_eq_ok_iff (material : List Byte) :
    (k.provision id material).1 = .ok () ↔
      1 ≤ material.length ∧ material.length ≤ maxPskLen ∧
        (∃ i, (k.slots i).state = .empty) ∧ ∀ i, ¬ k.CarriesId i id := by
  rcases k.provision_cases id material with
    ⟨e, heq, hwhy⟩ | ⟨i, heq, hpos, hmax, hfresh, hempty⟩
  · rw [heq]
    refine iff_of_false nofun ?_
    rintro ⟨hpos, hmax, ⟨i, hempty⟩, hfresh⟩
    rcases hwhy with hnil | hlong | ⟨j, hcarries⟩ | hfull
    · exact List.length_pos_iff.mp hpos hnil
    · exact Nat.not_lt.mpr hmax hlong
    · exact hfresh j hcarries
    · exact hfull i hempty
  · rw [heq]
    exact iff_of_true rfl ⟨hpos, hmax, ⟨i, hempty⟩, hfresh⟩

theorem pskDestroy_cases :
    (k.pskDestroy id = (.ok (), k) ∧ ∀ i, ¬ k.CarriesId i id) ∨
    (∃ i, k.pskDestroy id = (.ok (), k.setSlot i PskSlot.wiped) ∧
      k.CarriesId i id ∧ ∀ j, j < i → ¬ k.CarriesId j id) := by
  unfold pskDestroy
  cases hfind : k.findAnyWithId id with
  | none => exact .inl ⟨rfl, (k.findAnyWithId_eq_none_iff id).mp hfind⟩
  | some i =>
    exact .inr ⟨i, rfl, (k.findAnyWithId_eq_some_iff id i).mp hfind⟩

end SoftKeystore

end IsoLightK0
