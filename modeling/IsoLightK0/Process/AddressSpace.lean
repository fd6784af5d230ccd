import IsoLightK0.Process.Loader

/-!
# The address space of a spawned process

Every step of building a process keeps the tables of its address space a tree,
whose leaves lead to data frames only, and leaves the pages mapped before in
place; in particular the pages of the boot stack.  The specifications come in
both strengths, so that they also say when building succeeds.
-/

namespace IsoLightK0

open Bytes Triples Worlds PageTableFlags

/-- The lower half of the address space at `space`, with leaves that lead to
data frames. -/
abbrev UserSpace (space : ℕ) : World → Physical → Prop :=
  Space 256 True space

/-- Only pages at places in `P` are mapped, and `n` frames can be taken. -/
def Pages (P : List ℕ → Prop) (n : ℕ) (w : World) (s : Physical) : Prop :=
  (∀ path e, w.leaves path = some e → P path) ∧ s.allocator.Room n

def Present (va : BitVec 64) (w : World) : Prop :=
  ∃ e, w.leaves (pagePath va) = some e

theorem monotone_present (va : BitVec 64) : Monotone (Present va) := by
  rintro w w' hle ⟨e, he⟩
  exact ⟨e, hle.2 _ _ he⟩

theorem Pages.update {P : List ℕ → Prop} {n k : ℕ} {w w' : World}
    {s s' : Physical} {path : List ℕ} {e : PageTableEntry} (h : Pages P n w s)
    (hledger : Ledger (Function.update w.leaves path (some e)) k w' s') :
    Pages (fun path' => P path' ∨ path' = path) k w' s' := by
  refine ⟨?_, hledger.2⟩
  intro path' e' hleaf
  rw [hledger.1] at hleaf
  by_cases hpath : path' = path
  · exact .inr hpath
  · rw [Function.update_of_ne hpath] at hleaf
    exact .inl (h.1 path' e' hleaf)

theorem Pages.vacant {P : List ℕ → Prop} {n : ℕ} {w : World} {s : Physical}
    {path : List ℕ} (h : Pages P n w s) (hpath : ¬ P path) :
    w.leaves path = none := by
  cases hleaf : w.leaves path with
  | none => rfl
  | some e => exact (hpath (h.1 path e hleaf)).elim

section Steps

variable {space : ℕ} {total : Prop} {P : List ℕ → Prop} {n : ℕ}

/-! ## Regions -/

theorem userLeaf_physAddr (write : Bool) {p : ℕ}
    (haligned : p % frameSize = 0) (hbound : p < 2 ^ 32) :
    (PageTableEntry.encode (BitVec.ofNat 64 p)
      ((userPageFlags write).union present)).physAddr.toNat = p := by
  apply PageTableEntry.physAddr_encode haligned
  · omega
  · cases write with
    | false => decide
    | true => decide

variable {va : BitVec 64} {write : Bool} {w : World} {s : Physical}
  {base : BitVec 64} {k : ℕ}

theorem mapFreshPage_evolves
    (htotal : total → isUserVa va = true ∧ 4 ≤ n ∧ ¬ P (pagePath va)) :
    Evolves (UserSpace space) total (Pages P n)
      (mapFreshPage space va write)
      (fun _ w s => Pages (fun path => P path ∨ path = pagePath va) (n - 4) w s ∧
        isUserVa va = true ∧ Present va w) := by
  intro w s hspace hpages
  have hvacant : total → w.leaves (pagePath va) = none :=
    fun hreturn => hpages.vacant (htotal hreturn).2.2
  have hroom : total → 1 ≤ n ∧ 3 ≤ n - 1 := by
    intro hreturn
    have hn := (htotal hreturn).2.1
    omega
  have hmap : Evolves (UserSpace space) total (Ledger w.leaves n)
      (mapFreshPage space va write)
      (fun _ w' s' => ∃ e, Ledger (Function.update w.leaves (pagePath va)
        (some e)) (n - 4) w' s' ∧ isUserVa va = true) := by
    unfold mapFreshPage Platform.mapFreshPage
    refine Evolves.bind
      (allocErased_evolves _ fun hreturn => (hroom hreturn).1)
      fun phys => ?_
    rintro w₁ s₁ hspace₁ ⟨hledger, hrole, haligned, hbound⟩
    have hphys := userLeaf_physAddr write haligned hbound
    have hpage : Evolves (UserSpace space) total _
        ((mapUserPage space va (BitVec.ofNat 64 phys) write).mapExit
          ProcessError.mmu) _ :=
      Evolves.mapExit _ (mapUserPage_evolves (by decide) fun hreturn =>
        ⟨(htotal hreturn).1, unaligned_ofNat haligned hbound,
          (hroom hreturn).2, hvacant hreturn⟩)
    obtain ⟨w₂, hle, hspace₂, hpost, hret⟩ :=
      hpage w₁ s₁ hspace₁ ⟨hledger, fun _ => hphys.symm ▸ hrole⟩
    exact ⟨w₂, hle, hspace₂, fun a ha => ⟨_, hpost a ha⟩, hret⟩
  obtain ⟨w', hle, hspace', hpost, hret⟩ := hmap w s hspace ⟨rfl, hpages.2⟩
  refine ⟨w', hle, hspace', fun a ha => ?_, hret⟩
  obtain ⟨e, hledger, huser⟩ := hpost a ha
  exact ⟨hpages.update hledger, huser, e, hledger.leaf_of_update⟩

/-- The places of the first `k` pages of a region. -/
def RegionPath (base : BitVec 64) (k : ℕ) (path : List ℕ) : Prop :=
  ∃ i, i < k ∧ path = pagePath (pageVa base i)

theorem Pages.region_zero (base : BitVec 64) (h : Pages P n w s) :
    Pages (fun path => P path ∨ RegionPath base 0 path) n w s :=
  ⟨fun path e hleaf => .inl (h.1 path e hleaf), h.2⟩

theorem Pages.region_succ {i : ℕ}
    (h : Pages (fun path => (P path ∨ RegionPath base i path) ∨
      path = pagePath (pageVa base i)) n w s) (hk : k ≤ n) :
    Pages (fun path => P path ∨ RegionPath base (i + 1) path) k w s := by
  refine ⟨?_, h.2.mono hk⟩
  intro path e hleaf
  rcases h.1 path e hleaf with (hold | ⟨j, hj, hpath⟩) | hnew
  · exact .inl hold
  · exact .inr ⟨j, by omega, hpath⟩
  · exact .inr ⟨i, by omega, hnew⟩

/-- The first `k` pages of a region are user pages and mapped. -/
def RegionMapped (base : BitVec 64) (k : ℕ) (w : World) : Prop :=
  ∀ i, i < k → isUserVa (pageVa base i) = true ∧ Present (pageVa base i) w

theorem monotone_regionMapped (base : BitVec 64) (k : ℕ) :
    Monotone (RegionMapped base k) := by
  intro w w' hle h i hi
  exact ⟨(h i hi).1, monotone_present _ hle (h i hi).2⟩

/-- What makes mapping a region succeed: its pages are distinct user pages at
places outside `P`. -/
def RegionVacant (P : List ℕ → Prop) (base : BitVec 64) (k : ℕ) : Prop :=
  ∀ i, i < k → isUserVa (pageVa base i) = true ∧
    ¬ (P (pagePath (pageVa base i)) ∨
      RegionPath base i (pagePath (pageVa base i)))

/-- A page-aligned region of `k` pages in the user half. -/
def UserRegion (base : BitVec 64) (k : ℕ) : Prop :=
  unaligned base = false ∧ base.toNat + k * pageSize ≤ 2 ^ 47

theorem UserRegion.toNat_pageVa {i : ℕ} (h : UserRegion base k) (hi : i < k) :
    (pageVa base i).toNat = base.toNat + i * pageSize := by
  have hend := h.2
  unfold pageVa pageSize at *
  rw [BitVec.toNat_add, BitVec.toNat_ofNat]
  omega

theorem UserRegion.isUserVa_pageVa {i : ℕ} (h : UserRegion base k)
    (hi : i < k) : isUserVa (pageVa base i) = true := by
  have hnat := h.toNat_pageVa hi
  obtain ⟨haligned, hend⟩ := h
  rw [unaligned_eq, decide_eq_false_iff_not, not_not] at haligned
  rw [isUserVa_iff, unaligned_eq, decide_eq_false_iff_not, not_not, hnat]
  unfold pageSize at *
  omega

/-- A place lies outside a region: it is that of a user page elsewhere. -/
def PathOutside (base : BitVec 64) (k : ℕ) (path : List ℕ) : Prop :=
  ∃ va, isUserVa va = true ∧ path = pagePath va ∧
    (va.toNat < base.toNat ∨ base.toNat + k * pageSize ≤ va.toNat)

theorem UserRegion.vacant (h : UserRegion base k)
    (hP : ∀ path, P path → PathOutside base k path) :
    RegionVacant P base k := by
  intro i hi
  have huser := h.isUserVa_pageVa hi
  have hnat := h.toNat_pageVa hi
  refine ⟨huser, ?_⟩
  unfold pageSize at hnat
  rintro (hold | ⟨j, hj, hpath⟩)
  · obtain ⟨va, hva, hpath, hout⟩ := hP _ hold
    rw [← pagePath_injective huser hva hpath] at hout
    unfold pageSize at hout
    omega
  · have hjk : j < k := by omega
    have heq := pagePath_injective huser (h.isUserVa_pageVa hjk) hpath
    have hnat' := h.toNat_pageVa hjk
    rw [← heq] at hnat'
    unfold pageSize at hnat'
    omega

theorem UserRegion.pathOutside {base' : BitVec 64} {k' : ℕ}
    (h' : UserRegion base' k')
    (hdisjoint : base'.toNat + k' * pageSize ≤ base.toNat ∨
      base.toNat + k * pageSize ≤ base'.toNat) {path : List ℕ}
    (hpath : RegionPath base' k' path) : PathOutside base k path := by
  obtain ⟨i, hi, rfl⟩ := hpath
  refine ⟨_, h'.isUserVa_pageVa hi, rfl, ?_⟩
  rw [h'.toNat_pageVa hi]
  unfold pageSize at *
  omega

theorem mapUserRegion_evolves {pages : ℕ}
    (htotal : total → isUserVa base = true ∧ 4 * pages ≤ n ∧
      RegionVacant P base pages) :
    Evolves (UserSpace space) total (Pages P n)
      (mapUserRegion space base pages write)
      (fun _ w s => Pages (fun path => P path ∨ RegionPath base pages path)
        (n - 4 * pages) w s ∧ RegionMapped base pages w) := by
  unfold mapUserRegion Platform.mapUserRegion
  refine Evolves.exitIf_bind (fun hbase hreturn => hbase (htotal hreturn).1)
    fun _ => ?_
  have hloop : Evolves (UserSpace space) total _
      (Prog.foldRange pages () fun i _ =>
        mapFreshPage space (pageVa base i) write) _ :=
    Evolves.foldRange (L := fun i _ w s =>
      Pages (fun path => P path ∨ RegionPath base i path) (n - 4 * i) w s ∧
        RegionMapped base i w) pages () ?_
  · refine hloop.weaken ?_ fun _ _ _ h => h
    rintro w s - hpages
    refine ⟨hpages.region_zero base, ?_⟩
    intro i hi
    omega
  · intro i hi _
    have hpage : Evolves (UserSpace space) total _
        (mapFreshPage space (pageVa base i) write) _ :=
      Evolves.frame (monotone_regionMapped base i)
        (mapFreshPage_evolves
          (P := fun path => P path ∨ RegionPath base i path) (n := n - 4 * i)
          fun hreturn => ?_)
    · refine hpage.weaken (fun _ _ _ h => h) ?_
      rintro _ w s ⟨⟨hpages, huser, hpresent⟩, hmapped⟩
      refine ⟨hpages.region_succ (by omega), ?_⟩
      intro j hj
      by_cases heq : j = i
      · rw [heq]
        exact ⟨huser, hpresent⟩
      · exact hmapped j (by omega)
    · obtain ⟨-, hroom, hvacant⟩ := htotal hreturn
      exact ⟨(hvacant i hi).1, by omega, (hvacant i hi).2⟩

/-! ## Copies -/

theorem physOf_evolves {A : World → Physical → Prop} (hva : va.toNat < 2 ^ 47)
    (hpresent : ∀ w s, A w s → total → Present va w) :
    Evolves (UserSpace space) total A (physOf space va)
      (fun p w s => A w s ∧ w.role p = some .data) := by
  intro w s hspace hA
  have hwalk : walkToPhys s.mem space va =
      (w.leaves (pagePath va)).map PageTableEntry.physAddr :=
    hspace.walkToPhys_eq (tableIndex_four_lt hva)
  rw [eval_physOf, hwalk]
  cases hleaf : w.leaves (pagePath va) with
  | none =>
    refine ⟨w, le_rfl, hspace, fun _ h => (nomatch h), fun hreturn => ?_⟩
    obtain ⟨e, he⟩ := hpresent w s hA hreturn
    rw [hleaf] at he
    cases he
  | some e =>
    obtain ⟨-, -, -, -, -, -, -, -, -, hdata⟩ := hspace.mapped hleaf
    refine ⟨w, le_rfl, hspace, ?_, fun _ => ⟨_, rfl⟩⟩
    rintro _ ⟨⟩
    exact ⟨hA, hdata trivial⟩

/-- A copy into the page at `va`, which stays inside its frame. -/
theorem physOf_copy_evolves {α : Type} {off : ℕ} {bytes : List Byte}
    {f : Prog Physical ProcessError α} {F : World → Prop}
    {B : α → World → Physical → Prop} (hva : va.toNat < 2 ^ 47)
    (hfit : off + bytes.length ≤ frameSize)
    (hpresent : ∀ w, F w → total → Present va w)
    (hrest : Evolves (UserSpace space) total
      (fun w s => Pages P n w s ∧ F w) f B) :
    Evolves (UserSpace space) total (fun w s => Pages P n w s ∧ F w)
      (do
        let phys ← physOf space va
        copyToPhys (phys + off) bytes
        f) B := by
  refine Evolves.bind
    (physOf_evolves hva fun w _ h => hpresent w h.2) fun phys => ?_
  refine Evolves.bind (copyToPhys_evolves hfit (fun _ _ h => h.2) ?_) fun _ => ?_
  · intro w s m h
    exact h
  · exact hrest.weaken (fun _ _ _ h => h.1) fun _ _ _ h => h

theorem copyPage_evolves {payload : List Byte} {copied : ℕ} {F : World → Prop}
    (hva : va.toNat < 2 ^ 47) (hpresent : ∀ w, F w → total → Present va w) :
    Evolves (UserSpace space) total (fun w s => Pages P n w s ∧ F w)
      (copyPage space va payload copied)
      (fun _ w s => Pages P n w s ∧ F w) := by
  obtain ⟨hfit, hprogram⟩ := copyPage_eq space va payload copied
  rw [hprogram]
  exact physOf_copy_evolves hva hfit hpresent (Evolves.pure _ fun _ _ h => h)

theorem loadFlatPayload_evolves {payload : List Byte} {pages : ℕ}
    (hpages : (payload.length + (pageSize - 1)) / pageSize = pages)
    (htotal : total → isUserVa base = true ∧ 0 < pages ∧ 4 * pages ≤ n ∧
      RegionVacant P base pages) :
    Evolves (UserSpace space) total (Pages P n)
      (loadFlatPayload space base payload write)
      (fun _ => Pages (fun path => P path ∨ RegionPath base pages path)
        (n - 4 * pages)) := by
  unfold loadFlatPayload Platform.loadFlatPayload
  dsimp only
  rw [hpages]
  refine Evolves.exitIf_bind (fun hbase hreturn => hbase (htotal hreturn).1)
    fun _ => ?_
  refine Evolves.exitIf_bind (fun hzero hreturn =>
    (htotal hreturn).2.1.ne' hzero) fun _ => ?_
  refine Evolves.bind (mapUserRegion_evolves fun hreturn =>
    ⟨(htotal hreturn).1, (htotal hreturn).2.2⟩) fun _ => ?_
  refine Evolves.bind (Evolves.foldRange (L := fun _ _ w s =>
    Pages (fun path => P path ∨ RegionPath base pages path) (n - 4 * pages) w s ∧
      RegionMapped base pages w) pages 0 ?_) fun _ => ?_
  · intro i hi copied w s hspace h
    have huser := ((isUserVa_iff _).mp (h.2 i hi).1).1
    exact copyPage_evolves huser (fun w hmapped _ => (hmapped i hi).2) w s
      hspace h
  · exact Evolves.pure () fun _ _ h => h.1

theorem mapUserStack_evolves {top : BitVec 64} {size : ℕ}
    (htotal : total → ¬ (size = 0 ∨ size % pageSize ≠ 0) ∧
      size ≤ top.toNat ∧ isUserVa (top - BitVec.ofNat 64 size) = true ∧
      4 * (size / pageSize) ≤ n ∧
      RegionVacant P (top - BitVec.ofNat 64 size) (size / pageSize)) :
    Evolves (UserSpace space) total (Pages P n) (mapUserStack space top size)
      (fun _ _ s => s.allocator.Room (n - 4 * (size / pageSize))) := by
  unfold mapUserStack Platform.mapUserStack
  refine Evolves.exitIf_bind (fun hsize hreturn => (htotal hreturn).1 hsize)
    fun _ => ?_
  refine Evolves.exitIf_bind (fun hlt hreturn =>
    Nat.not_lt_of_le (htotal hreturn).2.1 hlt) fun _ => ?_
  dsimp only
  refine Evolves.exitIf_bind (fun huser hreturn =>
    huser (htotal hreturn).2.2.1) fun _ => ?_
  refine Evolves.bind (mapUserRegion_evolves fun hreturn =>
    (htotal hreturn).2.2) fun _ => ?_
  exact Evolves.pure _ fun _ _ h => h.1.2

theorem Pages.of_true : Pages (fun _ => True) 0 w s :=
  ⟨fun _ _ _ => trivial, BitmapFrameAllocator.room_zero _⟩

theorem loads_userSpace (space : ℕ) :
    Loads (UserSpace space) (Pages (fun _ => True) 0) space where
  fresh va write := by
    refine (mapFreshPage_evolves False.elim).weaken (fun _ _ _ h => h) ?_
    rintro _ w s ⟨-, huser, -⟩
    exact ⟨Pages.of_true, huser⟩
  copy va off bytes hva hfit := by
    have hcopy : Evolves (UserSpace space) False
        (fun w s => Pages (fun _ => True) 0 w s ∧ True)
        (do
          let phys ← physOf space va
          copyToPhys (phys + off) bytes
          pure ())
        (fun _ => Pages (fun _ => True) 0) :=
      physOf_copy_evolves hva hfit (fun _ _ h => h.elim)
        (Evolves.pure () fun _ _ h => h.1)
    simp only [bind_pure_unit] at hcopy
    exact hcopy.weaken (fun _ _ _ h => ⟨h, trivial⟩) fun _ _ _ h => h

end Steps

end IsoLightK0
