import IsoLightK0.Mmu.Translation
import IsoLightK0.Process.BootStack

/-!
# What the frames of spawned processes are used for

A frame is a table of the kernel, a table of an address space, a user page of
an address space, or else in use since boot, as the boot stack is.  Frames are
taken from the allocator for one use and keep it.  The lower half of an address
space leads to its own tables and pages and to the boot stack, the upper half
to the tables of the kernel, which keep their entries.
-/

namespace IsoLightK0

open Bytes Triples Worlds Radix PageTableFlags

/-- What a frame is used for.  Address spaces are named by their PML4. -/
inductive FrameUse
  | kernel (table : ℕ)
  | table (pml4 level : ℕ)
  | page (pml4 : ℕ)
  | boot

/-- An entry in the lower half of an address space.  A page of the process is
user accessible; the other pages are those of the boot stack. -/
structure LowerEntry (w : Labelling FrameUse) (pml4 level : ℕ)
    (e : PageTableEntry) : Prop where
  link : x86Format.leaf level e = false →
    w.kind (x86Format.next e) = some (.table pml4 (level - 1))
  leaf : x86Format.leaf level e = true → level = 1 ∧
    w.kind (x86Format.next e) =
      some (if e.word.getLsbD 2 then .page pml4 else .boot)

section Rule

variable (m₀ : Mem) (kernelSpace : ℕ)

/-- What the use of a frame says about its entries; `m₀` is the memory in which
the tables of the kernel were found. -/
def FrameUse.Allows (w : Labelling FrameUse) :
    FrameUse → ℕ → PageTableEntry → Prop
  | .kernel t, i, e => e = entryAt m₀ t i
  | .table pml4 level, i, e => x86Format.present e = true →
      if level = 4 ∧ 256 ≤ i then e = entryAt m₀ kernelSpace i
      else LowerEntry w pml4 level e
  | .page _, _, _ => True
  | .boot, _, _ => True

theorem FrameUse.Allows.mono {w w' : Labelling FrameUse} {r : FrameUse} {i : ℕ}
    {e : PageTableEntry} (hle : w ≤ w') (h : r.Allows m₀ kernelSpace w i e) :
    r.Allows m₀ kernelSpace w' i e := by
  cases r with
  | kernel t => exact h
  | table pml4 level =>
    intro hpresent
    have hentry := h hpresent
    split
    · rename_i hupper
      rw [if_pos hupper] at hentry
      exact hentry
    · rename_i hlower
      rw [if_neg hlower] at hentry
      exact ⟨fun hlink => hle _ _ (hentry.link hlink),
        fun hleaf => ⟨(hentry.leaf hleaf).1, hle _ _ (hentry.leaf hleaf).2⟩⟩
  | page pml4 => trivial
  | boot => trivial

def useRule : Rule FrameUse PageTableEntry where
  holds w r i e := r.Allows m₀ kernelSpace w i e
  mono := FrameUse.Allows.mono m₀ kernelSpace

end Rule

section Rules

variable {m₀ : Mem} {kernelSpace : ℕ} {w : Labelling FrameUse} {pml4 : ℕ}

theorem useRule_unused (level i : ℕ) :
    (useRule m₀ kernelSpace).holds w (.table pml4 level) i .unused := by
  intro hpresent
  rw [not_present_unused] at hpresent
  cases hpresent

theorem useRule_lower_iff {level i : ℕ} {e : PageTableEntry}
    (hlower : ¬ (level = 4 ∧ 256 ≤ i)) :
    (useRule m₀ kernelSpace).holds w (.table pml4 level) i e ↔
      (x86Format.present e = true → LowerEntry w pml4 level e) := by
  show (_ → if level = 4 ∧ 256 ≤ i then _ else _) ↔ _
  rw [if_neg hlower]

theorem useRule_upper_iff {i : ℕ} {e : PageTableEntry} (hi : 256 ≤ i) :
    (useRule m₀ kernelSpace).holds w (.table pml4 4) i e ↔
      (x86Format.present e = true → e = entryAt m₀ kernelSpace i) := by
  show (_ → if 4 = 4 ∧ 256 ≤ i then _ else _) ↔ _
  rw [if_pos ⟨rfl, hi⟩]

theorem useRule_descends {level i : ℕ} (hlevel : 0 < level)
    (hlower : ¬ (level + 1 = 4 ∧ 256 ≤ i)) :
    Descends (useRule m₀ kernelSpace) (.table pml4 (level + 1)) i
      (.table pml4 level) where
  follow h hpresent hhuge := by
    have hlinks := links_of_present (Nat.succ_lt_succ hlevel) hpresent hhuge
    exact ((useRule_lower_iff hlower).mp h hlinks.1).link hlinks.2
  link hkind haligned hbound := by
    obtain ⟨hlinks, hnext⟩ :=
      links_encode_mid (Nat.succ_lt_succ hlevel) haligned hbound
    refine (useRule_lower_iff hlower).mpr fun _ => ⟨fun _ => ?_, fun hleaf => ?_⟩
    · rw [hnext]
      exact hkind
    · rw [hlinks.2] at hleaf
      cases hleaf
  empty i := useRule_unused level i

end Rules

section Lower

variable {m₀ : Mem} {kernelSpace : ℕ} {w : Labelling FrameUse} {s : Physical}
  {pml4 : ℕ} {va : BitVec 64}

def Rooted (pml4 : ℕ) (w : Labelling FrameUse) : Prop :=
  w.kind pml4 = some (.table pml4 4)

theorem monotone_rooted (pml4 : ℕ) : Monotone (Rooted pml4) :=
  fun _ _ hle h => hle _ _ h

theorem lower_index (hva : tableIndex va 4 < 256) (level : ℕ) :
    ¬ (level = 4 ∧ 256 ≤ tableIndex va level) := by
  rintro ⟨rfl, hge⟩
  exact Nat.not_lt_of_le hge hva

theorem Layout.kind_of_reaches_lower
    (h : Layout (useRule m₀ kernelSpace) w s) (hroot : Rooted pml4 w)
    (hva : tableIndex va 4 < 256) {level t : ℕ}
    (hreach : ReachesIn s pml4 va level t) :
    w.kind t = some (.table pml4 level) := by
  refine hreach.invariant
    (I := fun level t => w.kind t = some (.table pml4 level)) hroot ?_
  intro level t ht hlinks
  have hentry := (useRule_lower_iff (lower_index hva (level + 1))).mp
    (h.labelled _ _ _ ht (tableIndex_lt va _)) hlinks.1
  exact hentry.link hlinks.2

/-- The leaves in the lower half are those of pages of the address space and of
the boot stack. -/
theorem Layout.leafOf_lower (h : Layout (useRule m₀ kernelSpace) w s)
    (hroot : Rooted pml4 w) (hva : tableIndex va 4 < 256) {level : ℕ}
    {e : PageTableEntry} (hleaf : leafOf s.mem pml4 va = some (level, e)) :
    level = 1 ∧ w.kind e.physAddr.toNat =
      some (if e.word.getLsbD 2 then .page pml4 else .boot) := by
  obtain ⟨t, hreach, -, rfl, hpresent, hlast⟩ := Reaches.root.exists_leaf hleaf
  have hentry := (useRule_lower_iff (lower_index hva level)).mp
    (h.labelled _ _ _ (h.kind_of_reaches_lower hroot hva hreach)
      (tableIndex_lt va _)) hpresent
  exact hentry.leaf hlast

end Lower

/-! ## The steps of building an address space -/

section Steps

variable {m₀ : Mem} {kernelSpace space : ℕ}

theorem mapPage_uses {va : BitVec 64} (hva : tableIndex va 4 < 256) {p : ℕ}
    (haligned : p % frameSize = 0) (hbound : p < 2 ^ 32)
    {flags : PageTableFlags}
    (hflags : (PageTableEntry.storedFlags (flags.union present)).bits &&&
      physAddrMask = 0) {r : FrameUse}
    (hr : r = if flags.contains userAccessible then .page space else .boot) :
    Evolves (Layout (useRule m₀ kernelSpace)) False
      (fun w _ => Rooted space w ∧ w.kind p = some r)
      (mapPage space va (BitVec.ofNat 64 p) flags) (fun _ _ _ => True) := by
  have hnext : x86Format.next (pageLeaf (BitVec.ofNat 64 p) flags) = p :=
    PageTableEntry.physAddr_encode haligned (by omega) hflags
  refine SpaceCall.program_layout (.small (.page va (BitVec.ofNat 64 p) flags))
    (FrameUse.table space) (fun level hlow _ =>
      useRule_descends hlow (lower_index hva (level + 1)))
    (fun _ _ hle h => hle _ _ h) fun w hkind => ?_
  refine (useRule_lower_iff (lower_index hva 1)).mpr fun _ =>
    ⟨fun hlink => Bool.noConfusion (show true = false from hlink),
      fun _ => ⟨rfl, ?_⟩⟩
  show w.kind (x86Format.next (pageLeaf (BitVec.ofNat 64 p) flags)) =
    some (if (pageLeaf (BitVec.ofNat 64 p) flags).word.getLsbD 2 then _ else _)
  rw [hnext, hkind, hr,
    PageTableEntry.getLsbD_encode_leaf _ _ (by omega) (by omega)]
  rfl

theorem userPageFlags_user (write : Bool) :
    (userPageFlags write).contains userAccessible = true := by
  cases write with
  | false => decide
  | true => decide

theorem userPageFlags_clear (write : Bool) :
    (PageTableEntry.storedFlags ((userPageFlags write).union present)).bits &&&
      physAddrMask = 0 := by
  cases write with
  | false => decide
  | true => decide

theorem mapFreshPage_uses (va : BitVec 64) (write : Bool) :
    Evolves (Layout (useRule m₀ kernelSpace)) False
      (fun w _ => Rooted space w) (mapFreshPage space va write)
      (fun _ w _ => Rooted space w ∧ isUserVa va = true) := by
  have hnew := Evolves.frame (monotone_rooted space)
    (allocErased_layout (R := useRule m₀ kernelSpace)
      ProcessError.pmAllocFailed (r := .page space) fun _ _ => trivial)
  refine Evolves.bind (hnew.weaken (fun _ _ _ h => ⟨trivial, h⟩)
    fun _ _ _ h => h) fun p => ?_
  rintro w s hlayout ⟨⟨hpage, haligned, hbound⟩, hroot⟩
  have hmap : Evolves (Layout (useRule m₀ kernelSpace)) False
      (fun w _ => Rooted space w ∧ w.kind p = some (.page space))
      (mapUserPage space va (BitVec.ofNat 64 p) write)
      (fun _ _ _ => isUserVa va = true) := by
    refine Evolves.exitIf_bind (fun _ => not_false) fun huser => ?_
    rw [not_not] at huser
    have hva := tableIndex_four_lt ((isUserVa_iff va).mp huser).1
    refine (mapPage_uses hva haligned hbound (userPageFlags_clear write)
      ?_).weaken (fun _ _ _ h => h) fun _ _ _ _ => huser
    rw [if_pos (userPageFlags_user write)]
  obtain ⟨w', hle, hlayout', huser, -⟩ :=
    Evolves.mapExit ProcessError.mmu hmap w s hlayout ⟨hroot, hpage⟩
  exact ⟨w', hle, hlayout', fun a ha =>
    ⟨monotone_rooted space hle hroot, huser a ha⟩, False.elim⟩

/-- What `walk_to_phys` finds in the lower half is a page of the address space
or of the boot stack. -/
theorem physOf_uses {va : BitVec 64} (hva : va.toNat < 2 ^ 47) :
    Evolves (Layout (useRule m₀ kernelSpace)) False
      (fun w _ => Rooted space w) (physOf space va)
      (fun p w _ => Rooted space w ∧
        (w.kind p = some (.page space) ∨ w.kind p = some .boot)) := by
  intro w s hlayout hroot
  rw [eval_physOf, walkToPhys_eq_leafOf]
  rcases hleaf : leafOf s.mem space va with - | ⟨level, e⟩
  · refine ⟨w, le_rfl, hlayout, ?_, False.elim⟩
    intro _ hvalue
    cases hvalue
  · obtain ⟨rfl, hkind⟩ :=
      hlayout.leafOf_lower hroot (tableIndex_four_lt hva) hleaf
    refine ⟨w, le_rfl, hlayout, ?_, False.elim⟩
    rintro _ ⟨⟩
    refine ⟨hroot, ?_⟩
    by_cases huser : e.word.getLsbD 2 = true
    · rw [if_pos huser] at hkind
      exact .inl hkind
    · rw [if_neg huser] at hkind
      exact .inr hkind

theorem loads_uses (space : ℕ) :
    Loads (Layout (useRule m₀ kernelSpace)) (fun w _ => Rooted space w)
      space where
  fresh := mapFreshPage_uses
  copy va off bytes hva hfit := by
    refine Evolves.bind (physOf_uses hva) fun p => ?_
    refine (copyToPhys_layout hfit ?_).weaken (fun _ _ _ h => h)
      fun _ _ _ h => h.1
    rintro w ⟨-, hpage | hstack⟩
    · exact ⟨_, hpage, fun _ _ => trivial⟩
    · exact ⟨_, hstack, fun _ _ => trivial⟩

/-! ### The boot stack -/

/-- The frames of the boot stack are used for nothing else. -/
def BootStack.Used (stack : BootStack) (w : Labelling FrameUse) : Prop :=
  ∀ p, stack.Frame p → w.kind p = some .boot

theorem BootStack.monotone_used (stack : BootStack) : Monotone stack.Used :=
  fun _ _ hle h p hp => hle _ _ (h p hp)

theorem BootStack.monotone_rooted_used (stack : BootStack) :
    Monotone fun w => Rooted space w ∧ stack.Used w :=
  fun _ _ hle h => ⟨monotone_rooted space hle h.1, stack.monotone_used hle h.2⟩

theorem mapBootStackIdentity_uses (stack : BootStack) :
    Evolves (Layout (useRule m₀ kernelSpace)) False
      (fun w _ => Rooted space w ∧ stack.Used w)
      (mapBootStackIdentity stack space)
      (fun _ w _ => Rooted space w ∧ stack.Used w) := by
  unfold mapBootStackIdentity Platform.mapBootStackIdentity
  dsimp only
  rw [stack.pages_eq]
  refine Evolves.foldRange (L := fun _ _ w _ => Rooted space w ∧
    stack.Used w) 64 () fun i hi _ => ?_
  have hframe := stack.frame_pageVa hi
  have hbound := stack.below_4gib
  obtain ⟨hlow, -⟩ := (isUserVa_iff _).mp (stack.userRegion.isUserVa_pageVa hi)
  have haddr : BitVec.ofNat 64 (pageVa stack.bottom i).toNat =
      pageVa stack.bottom i := by
    rw [BitVec.ofNat_toNat, BitVec.setWidth_eq]
  have hmap : Evolves (Layout (useRule m₀ kernelSpace)) False
      (fun w _ => Rooted space w ∧
        w.kind (pageVa stack.bottom i).toNat = some .boot)
      (mapPage space (pageVa stack.bottom i)
        (BitVec.ofNat 64 (pageVa stack.bottom i).toNat) bootStackFlags)
      (fun _ _ _ => True) :=
    mapPage_uses (tableIndex_four_lt hlow) hframe.1
      (lt_of_lt_of_le hframe.2.2 hbound) (by decide) rfl
  rw [haddr] at hmap
  exact (Evolves.frame stack.monotone_rooted_used
    (Evolves.mapExit ProcessError.mmu hmap)).weaken
    (fun _ _ _ h => ⟨⟨h.1, h.2 _ hframe⟩, h⟩) fun _ _ _ h => h.2

/-- What is known of the frames before an address space is built. -/
structure BootUses (stack : BootStack) (kernelSpace : ℕ)
    (w : Labelling FrameUse) : Prop where
  kernel : w.kind kernelSpace = some (.kernel kernelSpace)
  stack : stack.Used w

theorem monotone_bootUses (stack : BootStack) (kernelSpace : ℕ) :
    Monotone (BootUses stack kernelSpace) :=
  fun _ _ hle h => ⟨hle _ _ h.kernel, stack.monotone_used hle h.stack⟩

/-- What `alloc_user_address_space` does with the frame of the PML4. -/
def fillAddressSpace (stack : BootStack) (kernelSpace space : ℕ) :
    Prog Physical ProcessError ℕ := do
  inheritKernelMappings space kernelSpace
  mapBootStackIdentity stack space
  pure space

theorem fillAddressSpace_uses (stack : BootStack) :
    Evolves (Layout (useRule m₀ kernelSpace)) False
      (fun w _ => Rooted space w ∧ BootUses stack kernelSpace w)
      (fillAddressSpace stack kernelSpace space)
      (fun space' w _ => space' = space ∧ Rooted space w) := by
  have hinherit : Evolves (Layout (useRule m₀ kernelSpace)) False
      (fun w _ => w.kind space = some (.table space 4) ∧
        w.kind kernelSpace = some (.kernel kernelSpace))
      (inheritKernelMappings space kernelSpace :
        Prog Physical ProcessError Unit) (fun _ _ _ => True) :=
    inheritKernelMappings_layout fun w i e hlow _ hkernel =>
      (useRule_upper_iff hlow).mpr fun _ => hkernel
  refine Evolves.bind ((Evolves.frame stack.monotone_rooted_used
    hinherit).weaken
    (fun _ _ _ h => ⟨⟨h.1, h.2.kernel⟩, h.1, h.2.stack⟩) fun _ _ _ h => h.2)
      fun _ => ?_
  exact Evolves.bind (mapBootStackIdentity_uses stack) fun _ =>
    Evolves.pure space fun _ _ h => ⟨rfl, h.1⟩

end Steps

end IsoLightK0
