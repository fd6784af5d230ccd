import IsoLightK0.Mmu.Mapping
import IsoLightK0.Process.Spawn

/-!
# What the loader does to an address space

Loading a program is made of two steps: a new frame is mapped as a user page,
and octets are copied into one user page.  What both steps keep is kept by the
whole loader, whatever the program is.
-/

namespace IsoLightK0

open Bytes Triples Worlds

theorem toNat_pageBase_le (va : BitVec 64) :
    (va &&& ~~~0xFFF#64).toNat ≤ va.toNat := by
  rw [BitVec.toNat_and]
  exact Nat.and_le_left

/-- The two steps of the loader of the address space keep `A`. -/
structure Loads {ω : Type} [Preorder ω] (I A : ω → Physical → Prop)
    (space : ℕ) : Prop where
  fresh : ∀ va write, Evolves I False A (mapFreshPage space va write)
    (fun _ w s => A w s ∧ isUserVa va = true)
  copy : ∀ (va : BitVec 64) (off : ℕ) (bytes : List Byte),
    va.toNat < 2 ^ 47 → off + bytes.length ≤ frameSize →
      Evolves I False A (do
        let phys ← physOf space va
        copyToPhys (phys + off) bytes) (fun _ => A)

/-- What a round copies fits into the page. -/
theorem copyPage_eq (space : ℕ) (va : BitVec 64) (payload : List Byte)
    (copied : ℕ) :
    let size := min (payload.length - copied) pageSize
    let chunk := (payload.drop copied).take size
    0 + chunk.length ≤ frameSize ∧
      copyPage space va payload copied = (do
        let phys ← physOf space va
        copyToPhys (phys + 0) chunk
        pure (copied + size)) := by
  intro size chunk
  refine ⟨?_, rfl⟩
  rw [List.length_take]
  unfold size pageSize frameSize
  omega

namespace Loads

variable {ω : Type} [Preorder ω] {I A : ω → Physical → Prop} {space : ℕ}
  (h : Loads I A space)

include h

theorem mapUserRegion (base : BitVec 64) (pages : ℕ) (write : Bool) :
    Evolves I False A (mapUserRegion space base pages write)
      (fun _ w s => A w s ∧ ∀ i, i < pages → isUserVa (pageVa base i) = true) := by
  refine Evolves.exitIf_bind (fun _ => not_false) fun _ => ?_
  have hloop : Evolves I False _ (Prog.foldRange pages () fun i _ =>
      mapFreshPage space (pageVa base i) write) _ :=
    Evolves.foldRange (L := fun i _ w s => A w s ∧
      ∀ j, j < i → isUserVa (pageVa base j) = true) pages () ?_
  · exact hloop.weaken (fun _ _ _ hA => ⟨hA, fun _ hj => absurd hj
      (Nat.not_lt_zero _)⟩) fun _ _ _ hpost => hpost
  · intro i _ _
    refine (Evolves.frame (F := fun _ => ∀ j, j < i →
      isUserVa (pageVa base j) = true) monotone_const
        (h.fresh (pageVa base i) write)).weaken (fun _ _ _ hpre => hpre) ?_
    rintro _ w s ⟨⟨hA, huser⟩, hbefore⟩
    refine ⟨hA, fun j hj => ?_⟩
    rcases Nat.lt_succ_iff_lt_or_eq.mp hj with hlt | rfl
    · exact hbefore j hlt
    · exact huser

theorem copyPage {va : BitVec 64} (payload : List Byte) (copied : ℕ)
    (hva : va.toNat < 2 ^ 47) :
    Evolves I False A (copyPage space va payload copied) (fun _ => A) := by
  obtain ⟨hfit, hprogram⟩ := copyPage_eq space va payload copied
  rw [hprogram, ← bind_assoc]
  exact Evolves.bind (h.copy va 0 _ hva hfit)
    fun _ => Evolves.pure _ fun _ _ hA => hA

theorem loadFlatPayload (base : BitVec 64) (payload : List Byte) (write : Bool) :
    Evolves I False A (loadFlatPayload space base payload write)
      (fun _ => A) := by
  refine Evolves.exitIf_bind (fun _ => not_false) fun _ =>
    Evolves.exitIf_bind (fun _ => not_false) fun _ =>
      Evolves.bind (h.mapUserRegion _ _ _) fun _ => ?_
  refine Evolves.bind (Evolves.foldRange (L := fun _ _ w s => A w s ∧
    ∀ i, i < (payload.length + (pageSize - 1)) / pageSize →
      isUserVa (pageVa base i) = true) _ 0 ?_)
        fun _ => Evolves.pure () fun _ _ hpost => hpost.1
  intro i hi copied w s hI hpre
  have huser := ((isUserVa_iff _).mp (hpre.2 i hi)).1
  exact Evolves.frame monotone_const (h.copyPage payload copied huser) w s hI hpre

theorem mapUserStack (top : BitVec 64) (size : ℕ) :
    Evolves I False A (mapUserStack space top size) (fun _ => A) :=
  Evolves.exitIf_bind (fun _ => not_false) fun _ =>
    Evolves.exitIf_bind (fun _ => not_false) fun _ =>
      Evolves.exitIf_bind (fun _ => not_false) fun _ =>
        Evolves.bind (h.mapUserRegion _ _ _) fun _ =>
          Evolves.pure _ fun _ _ hpost => hpost.1

/-- The copy loop writes to pages of the user half only. -/
theorem copySegment {ph : ProgramHeader} (raw : List Byte) {dataLen : ℕ}
    (hplaced : ph.WellPlaced dataLen) (copied : ℕ) :
    Evolves I False A (copySegment space ph raw copied) (fun _ => A) := by
  induction hm : ph.pFilesz.toNat - copied using Nat.strong_induction_on
    generalizing copied with
  | _ m ih =>
    rw [IsoLightK0.copySegment, Platform.copySegment]
    split
    · rename_i hlt
      dsimp only
      generalize hdef : ph.pVaddr + BitVec.ofNat 64 copied = va
      have hoff := pageOffset_lt va
      have hva : va.toNat < 2 ^ 47 := by
        have hsize := hplaced.filesz_le
        have hend := hplaced.in_user_half
        rw [← hdef, BitVec.toNat_add, BitVec.toNat_ofNat]
        omega
      generalize hchunk : min (ph.pFilesz.toNat - copied)
        (pageSize - (va &&& 0xFFF#64).toNat) = chunk
      have hfit : (va &&& 0xFFF#64).toNat +
          ((raw.drop (ph.pOffset.toNat + copied)).take chunk).length ≤
            frameSize := by
        rw [List.length_take]
        unfold pageSize at hoff hchunk
        unfold frameSize
        omega
      have hrest := ih _ (by omega) (copied + chunk) rfl
      have hcopy := h.copy _ (va &&& 0xFFF#64).toNat
        ((raw.drop (ph.pOffset.toNat + copied)).take chunk)
        (lt_of_le_of_lt (toNat_pageBase_le va) hva) hfit
      have hround := Evolves.bind hcopy fun _ => hrest
      rw [bind_assoc] at hround
      exact hround
    · exact Evolves.pure () fun _ _ hA => hA

theorem loadSegment {ph : ProgramHeader} (raw : List Byte) {dataLen : ℕ}
    (hplaced : ph.WellPlaced dataLen) :
    Evolves I False A (loadSegment space ph raw) (fun _ => A) :=
  Evolves.bind (h.mapUserRegion _ _ _) fun _ =>
    (h.copySegment raw hplaced 0).weaken (fun _ _ _ hpre => hpre.1)
      fun _ _ _ hA => hA

theorem loadSegments {raw : List Byte} {dataLen : ℕ}
    {loads : List ProgramHeader} (hplaced : ∀ ph ∈ loads, ph.WellPlaced dataLen) :
    Evolves I False A (loadSegments space raw loads) (fun _ => A) := by
  induction loads with
  | nil => exact Evolves.pure () fun _ _ hA => hA
  | cons ph loads ih =>
    refine Evolves.bind (h.loadSegment raw
      (hplaced ph List.mem_cons_self)) fun _ => ?_
    exact ih fun ph' hmem => hplaced ph' (List.mem_cons_of_mem _ hmem)

end Loads

end IsoLightK0
