import IsoLightK0.Process.AddressSpace

/-!
# The boot stack in a new address space

A new user address space maps the boot stack of the kernel at its own address,
without user access.  The frames of the boot stack are reserved, so that no
table and no page of the process is ever placed there.
-/

namespace IsoLightK0

open Bytes Triples Worlds PageTableFlags

namespace BootStack

variable (stack : BootStack)

def Frame (p : ℕ) : Prop :=
  p % frameSize = 0 ∧ stack.bottom.toNat ≤ p ∧
    p < stack.bottom.toNat + 262144

instance (p : ℕ) : Decidable (stack.Frame p) :=
  inferInstanceAs (Decidable (_ ∧ _ ∧ _))

/-- The allocator hands out no frame of the boot stack. -/
def Reserved (s : Physical) : Prop :=
  ∀ p, stack.Frame p → ¬ s.allocator.FreeAt p

def Data (w : World) : Prop :=
  ∀ p, stack.Frame p → w.role p = some .data

def leaf (i : ℕ) : PageTableEntry :=
  .encode (pageVa stack.bottom i) (bootStackFlags.union present)

/-- The first `k` pages of the boot stack are mapped at their own address. -/
def Mapped (k : ℕ) (w : World) : Prop :=
  ∀ i, i < k →
    w.leaves (pagePath (pageVa stack.bottom i)) = some (stack.leaf i)

theorem monotone_data : Monotone stack.Data :=
  fun _ _ hle h p hp => hle.1 _ _ (h p hp)

theorem monotone_mapped (k : ℕ) : Monotone (stack.Mapped k) :=
  fun _ _ hle h i hi => hle.2 _ _ (h i hi)

theorem reserved_of_data {space : ℕ} {w : World} {s : Physical}
    (hspace : UserSpace space w s) (hdata : stack.Data w) :
    stack.Reserved s :=
  fun p hp => (hspace.used (hdata p hp)).2

theorem pages_eq : (stack.top - stack.bottom).toNat / pageSize = 64 := by
  have hsize : stack.top - stack.bottom = 262144#64 := by
    unfold top
    bv_omega
  rw [hsize]
  rfl

theorem userRegion : UserRegion stack.bottom 64 := by
  have hbound := stack.below_4gib
  refine ⟨stack.aligned, ?_⟩
  unfold pageSize
  omega

theorem frame_pageVa {i : ℕ} (hi : i < 64) :
    stack.Frame (pageVa stack.bottom i).toNat := by
  have hmod := stack.aligned
  rw [unaligned_eq, decide_eq_false_iff_not, not_not] at hmod
  unfold Frame frameSize
  rw [stack.userRegion.toNat_pageVa hi]
  unfold pageSize
  omega

theorem physAddr_leaf {i : ℕ} (hi : i < 64) :
    (stack.leaf i).physAddr.toNat = (pageVa stack.bottom i).toNat := by
  have hframe := stack.frame_pageVa hi
  have hbound := stack.below_4gib
  have haddr : pageVa stack.bottom i =
      BitVec.ofNat 64 (pageVa stack.bottom i).toNat := by
    rw [BitVec.ofNat_toNat, BitVec.setWidth_eq]
  unfold leaf
  rw [haddr, PageTableEntry.physAddr_encode hframe.1 ?_ (by decide), ← haddr]
  have hend := hframe.2.2
  omega

/-! ## Mapping the boot stack -/

variable {space : ℕ} {total : Prop} {P : List ℕ → Prop} {n : ℕ}

theorem mapPage_evolves {i : ℕ} (hi : i < 64)
    (htotal : total → 3 ≤ n ∧ ¬ P (pagePath (pageVa stack.bottom i))) :
    Evolves (UserSpace space) total
      (fun w s => Pages P n w s ∧ stack.Data w)
      (mapPage space (pageVa stack.bottom i) (pageVa stack.bottom i)
        bootStackFlags)
      (fun _ w s => Pages (fun path => P path ∨
          path = pagePath (pageVa stack.bottom i)) (n - 3) w s ∧
        w.leaves (pagePath (pageVa stack.bottom i)) =
          some (stack.leaf i)) := by
  rintro w s hspace ⟨hpages, hdata⟩
  obtain ⟨hlow, haligned⟩ := (isUserVa_iff _).mp (stack.userRegion.isUserVa_pageVa hi)
  have hvacant : total → w.leaves (pagePath (pageVa stack.bottom i)) = none :=
    fun hreturn => hpages.vacant (htotal hreturn).2
  have hrole : w.role (stack.leaf i).physAddr.toNat = some .data := by
    rw [stack.physAddr_leaf hi]
    exact hdata _ (stack.frame_pageVa hi)
  obtain ⟨w', hle, hspace', hpost, hret⟩ :=
    IsoLightK0.mapPage_evolves (n := n) (tableIndex_four_lt hlow)
      (fun hreturn => ⟨haligned, haligned, by decide, (htotal hreturn).1,
        hvacant hreturn⟩) w s hspace ⟨⟨rfl, hpages.2⟩, fun _ => hrole⟩
  exact ⟨w', hle, hspace', fun a ha => ⟨hpages.update (hpost a ha),
    (hpost a ha).leaf_of_update⟩, hret⟩

theorem mapBootStackIdentity_evolves
    (htotal : total → 192 ≤ n ∧ RegionVacant P stack.bottom 64) :
    Evolves (UserSpace space) total
      (fun w s => Pages P n w s ∧ stack.Data w)
      (mapBootStackIdentity stack space)
      (fun _ w s => Pages (fun path => P path ∨
        RegionPath stack.bottom 64 path) (n - 192) w s ∧
          stack.Mapped 64 w) := by
  unfold mapBootStackIdentity Platform.mapBootStackIdentity
  dsimp only
  rw [stack.pages_eq]
  have hloop : Evolves (UserSpace space) total _
      (Prog.foldRange 64 () fun i _ =>
        (mapPage space (pageVa stack.bottom i) (pageVa stack.bottom i)
          bootStackFlags).mapExit ProcessError.mmu) _ :=
    Evolves.foldRange (L := fun i _ w s =>
      (Pages (fun path => P path ∨ RegionPath stack.bottom i path)
        (n - 3 * i) w s ∧ stack.Data w) ∧ stack.Mapped i w) 64 () ?_
  · refine hloop.weaken ?_ fun _ _ _ h => ⟨h.1.1, h.2⟩
    rintro w s - ⟨hpages, hdata⟩
    refine ⟨⟨hpages.region_zero stack.bottom, hdata⟩, ?_⟩
    intro i hi
    omega
  · intro i hi _
    have hframe : Monotone fun w => stack.Data w ∧ stack.Mapped i w :=
      fun _ _ hle h => ⟨stack.monotone_data hle h.1,
        stack.monotone_mapped i hle h.2⟩
    have hpage : Evolves (UserSpace space) total _
        ((mapPage space (pageVa stack.bottom i) (pageVa stack.bottom i)
          bootStackFlags).mapExit ProcessError.mmu) _ :=
      Evolves.frame hframe (Evolves.mapExit _ (stack.mapPage_evolves
        (P := fun path => P path ∨ RegionPath stack.bottom i path)
        (n := n - 3 * i) hi fun hreturn => ?_))
    · refine hpage.weaken (fun _ _ _ h => ⟨h.1, h.1.2, h.2⟩) ?_
      rintro _ w s ⟨⟨hpages, hleaf⟩, hdata, hmapped⟩
      refine ⟨⟨hpages.region_succ (by omega), hdata⟩, ?_⟩
      intro j hj
      by_cases heq : j = i
      · rw [heq]
        exact hleaf
      · exact hmapped j (by omega)
    · obtain ⟨hroom, hvacant⟩ := htotal hreturn
      exact ⟨by omega, (hvacant i hi).2⟩

/-! ## A new address space -/

/-- The world of a new address space: its root, and the boot stack. -/
def world (space : ℕ) : World where
  role p :=
    if p = space then some (.table [])
    else if stack.Frame p then some .data
    else none
  leaves _ := none

theorem role_world {space p : ℕ} {r : Role}
    (h : (stack.world space).role p = some r) :
    (p = space ∧ r = .table []) ∨ (p ≠ space ∧ stack.Frame p ∧ r = .data) := by
  have hrole : (if p = space then some (Role.table [])
    else if stack.Frame p then some .data else none) = some r := h
  by_cases hp : p = space
  · rw [if_pos hp] at hrole
    cases hrole
    exact .inl ⟨hp, rfl⟩
  · rw [if_neg hp] at hrole
    by_cases hframe : stack.Frame p
    · rw [if_pos hframe] at hrole
      cases hrole
      exact .inr ⟨hp, hframe, rfl⟩
    · rw [if_neg hframe] at hrole
      cases hrole

theorem role_world_table {space p : ℕ} {path : List ℕ}
    (h : (stack.world space).role p = some (.table path)) :
    p = space ∧ path = [] := by
  rcases stack.role_world h with ⟨hp, hr⟩ | ⟨-, -, hr⟩
  · cases hr
    exact ⟨hp, rfl⟩
  · cases hr

/-- A frame taken for the root becomes an address space whose lower half is
empty. -/
theorem userSpace_world {s s' : Physical} {p : ℕ} (kernelSpace : ℕ)
    (hreserved : stack.Reserved s) (htake : TakesFrame s p s') :
    UserSpace p (stack.world p)
      { s' with mem := copyUpperHalf s'.mem p kernelSpace } := by
  generalize hm : copyUpperHalf s'.mem p kernelSpace = m
  have habsent : ∀ {i}, i < 256 → (entryAt m p i).isPresent = false := by
    intro i hi
    rw [← hm, entryAt_copyUpperHalf _ _ htake.free.1 hi,
      entryAt_erased (lt_trans hi (by decide)) htake.erased]
    decide
  constructor
  · intro q
    constructor
    · intro hq
      exact (stack.role_world_table hq).1
    · intro hq
      exact if_pos hq
  · intro q r hq
    rcases stack.role_world hq with ⟨rfl, -⟩ | ⟨-, hframe, -⟩
    · exact ⟨htake.free.1, fun hfree => ((htake.marks q).mp hfree).2 rfl⟩
    · exact ⟨hframe.1,
        fun hfree => hreserved q hframe ((htake.marks q).mp hfree).1⟩
  · intro t path i ht _ hi hpresent
    obtain ⟨htable, hpath⟩ := stack.role_world_table ht
    rw [htable, habsent (hi.2 hpath)] at hpresent
    cases hpresent
  · intro t i path ht
    cases (stack.role_world_table ht).2
  · intro t path i ht hlen
    rw [(stack.role_world_table ht).2] at hlen
    cases hlen
  · intro path e hleaf
    cases hleaf

theorem data_world {s s' : Physical} {p : ℕ} (hreserved : stack.Reserved s)
    (htake : TakesFrame s p s') : stack.Data (stack.world p) := by
  intro q hq
  have hne : q ≠ p := by
    rintro rfl
    exact hreserved q hq htake.free
  show (if q = p then some (Role.table [])
    else if stack.Frame q then some .data else none) = some .data
  rw [if_neg hne, if_pos hq]

/-- A new user address space maps the boot stack and nothing else in its lower
half.  It takes at most 193 frames, none of them from the boot stack. -/
theorem allocUserAddressSpace_spec {s : Physical} (kernelSpace : ℕ)
    (hreserved : stack.Reserved s) (hroom : s.allocator.Room n)
    (htotal : total → 193 ≤ n) :
    (∃ e s', (allocUserAddressSpace stack kernelSpace).eval s =
        (.error e, s') ∧ stack.Reserved s' ∧ ¬ total) ∨
      ∃ space w s', (allocUserAddressSpace stack kernelSpace).eval s =
          (.ok space, s') ∧ UserSpace space w s' ∧
        (stack.Data w ∧ stack.Mapped 64 w) ∧
          Pages (RegionPath stack.bottom 64) (n - 193) w s' := by
  rcases eval_allocErased ProcessError.pmAllocFailed s with
    ⟨heval, hno⟩ | ⟨space, s₁, heval, htake⟩
  · refine .inl ⟨.pmAllocFailed, s, ?_, hreserved, ?_⟩
    · rw [allocUserAddressSpace_eq, Prog.eval_bind, heval]
    · intro hreturn
      obtain ⟨k, rfl⟩ := Nat.exists_eq_add_of_le' (htotal hreturn)
      exact hno (k + 192) hroom
  · have hspace := stack.userSpace_world kernelSpace hreserved htake
    have hdata := stack.data_world hreserved htake
    have hinherit : (allocUserAddressSpace stack kernelSpace).eval s =
        Prog.eval (mapBootStackIdentity stack space >>= fun _ => pure space)
          { s₁ with mem := copyUpperHalf s₁.mem space kernelSpace } := by
      rw [allocUserAddressSpace_eq, Prog.eval_bind, heval]
      dsimp only
      rw [Prog.eval_bind, eval_inheritKernelMappings]
    have hroom₁ : s₁.allocator.Room (n - 1) := htake.room n hroom
    rw [hinherit]
    generalize copyUpperHalf s₁.mem space kernelSpace = m at hspace ⊢
    have hboot : Evolves (UserSpace space) total _
        (mapBootStackIdentity stack space >>= fun _ => pure space) _ :=
      Evolves.bind (stack.mapBootStackIdentity_evolves
        (P := fun _ => False) (n := n - 1) fun hreturn =>
          ⟨Nat.le_sub_of_add_le (htotal hreturn),
            stack.userRegion.vacant fun _ h => h.elim⟩)
        fun _ => Evolves.pure (B := fun space' w s' => space' = space ∧
          Pages (RegionPath stack.bottom 64) (n - 193) w s' ∧
            stack.Mapped 64 w) space fun w s' h =>
              ⟨rfl, ⟨fun path e hleaf => (h.1.1 path e hleaf).elim
                False.elim id, h.1.2⟩, h.2⟩
    obtain ⟨w, hle, hspace', hpost, hret⟩ := hboot (stack.world space) _ hspace
      ⟨⟨fun _ _ h => (nomatch h), hroom₁⟩, hdata⟩
    have hdata' : stack.Data w := stack.monotone_data hle hdata
    rcases hrun : (mapBootStackIdentity stack space >>= fun _ =>
      (pure space : Prog Physical ProcessError ℕ)).eval
        ⟨m, s₁.allocator⟩ with ⟨e | space', s'⟩
    · rw [hrun] at hspace' hret
      refine .inl ⟨e, s', rfl, stack.reserved_of_data hspace' hdata',
        fun hreturn => ?_⟩
      obtain ⟨_, hok⟩ := hret hreturn
      cases hok
    · rw [hrun] at hspace' hpost
      obtain ⟨rfl, hpages, hmapped⟩ := hpost space' rfl
      exact .inr ⟨space', w, s', rfl, hspace', ⟨hdata', hmapped⟩, hpages⟩

end BootStack

end IsoLightK0
