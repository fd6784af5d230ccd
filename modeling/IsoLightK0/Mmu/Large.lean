import IsoLightK0.Mmu.Permissions

/-!
# Large pages, the linear map and translations

`map_2mib_page` stops one level above `map_page` and stores a leaf with the
page-size bit.  `build_linear_map` maps the physical memory with such pages.

The calls that map a page are described together: a call fails at its checks,
or it goes down to the table of its leaf and puts the leaf there.
-/

namespace IsoLightK0

open Bytes Triples PageTableFlags

def size2MiB : ℕ := 2 * 1024 * 1024

/-- `addr & (SIZE_2MIB - 1) != 0`. -/
def unaligned2MiB (addr : BitVec 64) : Bool := addr &&& 0x1F_FFFF#64 ≠ 0

def hugePhysMask : BitVec 64 := 0x000F_FFFF_FFE0_0000#64

namespace PageTableEntry

/-- The word that `set_huge` stores. -/
def encodeHuge (physAddr : BitVec 64) (flags : PageTableFlags) :
    PageTableEntry :=
  ⟨(physAddr &&& hugePhysMask) ||| (storedFlags flags).bits⟩

/-- `set_huge`, as the new value of the entry. -/
def setHuge (physAddr : BitVec 64) (flags : PageTableFlags) :
    Except MmuError PageTableEntry :=
  if unaligned2MiB physAddr then .error .unalignedAddress
  else .ok (encodeHuge physAddr flags)

end PageTableEntry

/-- `map_2mib_page` on the address space whose PML4 is at `pml4`. -/
def map2MibPage (pml4 : ℕ) (virtAddr physAddr : BitVec 64)
    (flags : PageTableFlags) : Prog Physical MmuError Unit := do
  Prog.exitIf (unaligned2MiB virtAddr ∨ unaligned2MiB physAddr)
    .unalignedAddress
  Prog.exitIf (flags.contains writable ∧ ¬ flags.contains noExecute)
    .wxPolicyViolation
  let pdpt ← allocOrGetTable pml4 (tableIndex virtAddr 4)
  let pd ← allocOrGetTable pdpt (tableIndex virtAddr 3)
  putLeaf pd (tableIndex virtAddr 2) (PageTableEntry.setHuge physAddr
    ((flags.union present).union hugePage))

def maxMappablePhys : ℕ := 4 * 1024 * 1024 * 1024

def linearMapFlags : PageTableFlags :=
  (present.union writable).union noExecute

/-- `build_linear_map`; `offset` is `PHYS_MAP_OFFSET`. -/
def buildLinearMap (offset : BitVec 64) (pml4 : ℕ)
    (highestPhysAddr : BitVec 64) : Prog Physical MmuError Unit :=
  let highest := min highestPhysAddr.toNat maxMappablePhys
  let pageCount := min (highest + (size2MiB - 1)) (2 ^ 64 - 1) / size2MiB
  Prog.foldRange pageCount () fun i _ =>
    let physBase := BitVec.ofNat 64 (i * size2MiB)
    map2MibPage pml4 (offset + physBase) physBase linearMapFlags

/-- The calls of `alloc_or_get_table` from the root down to a table of level
`bottom`, of which there are `steps`. -/
def walkDown (va : BitVec 64) (bottom : ℕ) :
    (steps table : ℕ) → Prog Physical MmuError ℕ
  | 0, table => pure table
  | steps + 1, table => do
      let next ← allocOrGetTable table (tableIndex va (bottom + steps + 1))
      walkDown va bottom steps next

/-- Put a leaf into a table of level `bottom`. -/
def mapLeaf (va : BitVec 64) (bottom steps table : ℕ) (e : PageTableEntry) :
    Prog Physical MmuError Unit := do
  let t ← walkDown va bottom steps table
  putLeaf t (tableIndex va bottom) (.ok e)

/-- The leaf through which an address is translated, with its level: 1 for a
page of 4 KiB, 2 for one of 2 MiB and 3 for one of 1 GiB. -/
def leafOf (m : Mem) (pml4 : ℕ) (va : BitVec 64) :
    Option (ℕ × PageTableEntry) :=
  Radix.lookup x86Format (entryAt m) (tableIndex va) 4 pml4

/-! ## Calls -/

def leafSize (level : ℕ) : ℕ := 2 ^ (12 + (level - 1) * 9)

theorem leafSize_one : leafSize 1 = 4096 := by decide

theorem leafSize_two : leafSize 2 = 2097152 := by decide

theorem unaligned2MiB_eq (addr : BitVec 64) :
    unaligned2MiB addr = decide (addr.toNat % 2097152 ≠ 0) :=
  decide_eq_decide.mpr (and_low_ne_zero_iff addr (n := 21) (by decide))

inductive SpaceCall
  | small (call : MapCall)
  | large (virtAddr physAddr : BitVec 64) (flags : PageTableFlags)

namespace SpaceCall

def virtAddr : SpaceCall → BitVec 64
  | small call => call.virtAddr
  | large va _ _ => va

def physAddr : SpaceCall → BitVec 64
  | small call => call.physAddr
  | large _ pa _ => pa

def flags : SpaceCall → PageTableFlags
  | small call => call.flags
  | large _ _ flags => flags

def level : SpaceCall → ℕ
  | small _ => 1
  | large _ _ _ => 2

def leaf : SpaceCall → PageTableEntry
  | small call => call.leaf
  | large _ pa flags => .encodeHuge pa ((flags.union present).union hugePage)

def program (pml4 : ℕ) : SpaceCall → Prog Physical MmuError Unit
  | small call => call.program pml4
  | large va pa flags => map2MibPage pml4 va pa flags

end SpaceCall

def linearMapPages (highestPhysAddr : BitVec 64) : ℕ :=
  min (min highestPhysAddr.toNat maxMappablePhys + (size2MiB - 1))
    (2 ^ 64 - 1) / size2MiB

def linearMapCall (offset : BitVec 64) (i : ℕ) : SpaceCall :=
  .large (offset + BitVec.ofNat 64 (i * size2MiB))
    (BitVec.ofNat 64 (i * size2MiB)) linearMapFlags

theorem buildLinearMap_eq (offset : BitVec 64) (pml4 : ℕ)
    (highestPhysAddr : BitVec 64) :
    buildLinearMap offset pml4 highestPhysAddr =
      Prog.foldRange (linearMapPages highestPhysAddr) () fun i _ =>
        (linearMapCall offset i).program pml4 := rfl

/-- The checks of `map_page` and `map_2mib_page` come first. -/
theorem eval_checked (off : BitVec 64 → Bool) (va pa : BitVec 64)
    (flags : PageTableFlags) (x : Prog Physical MmuError Unit) (s : Physical) :
    let program : Prog Physical MmuError Unit := do
      Prog.exitIf (off va ∨ off pa) .unalignedAddress
      Prog.exitIf (flags.contains writable ∧ ¬ flags.contains noExecute)
        .wxPolicyViolation
      x
    (∃ e, program.eval s = (.error e, s)) ∨
      (off va = false ∧ off pa = false ∧ program.eval s = x.eval s) := by
  dsimp only
  rw [Prog.eval_exitIf_bind]
  by_cases hoff : off va ∨ off pa
  · rw [if_pos hoff]
    exact .inl ⟨_, rfl⟩
  · rw [if_neg hoff, Prog.eval_exitIf_bind]
    obtain ⟨hva, hpa⟩ := not_or.mp hoff
    split
    · exact .inl ⟨_, rfl⟩
    · exact .inr ⟨eq_false_of_ne_true hva, eq_false_of_ne_true hpa, rfl⟩

section Programs

variable (pml4 : ℕ) (s : Physical)

theorem eval_mapPage (va pa : BitVec 64) (flags : PageTableFlags) :
    (∃ e, (mapPage pml4 va pa flags).eval s = (.error e, s)) ∨
      (va.toNat % leafSize 1 = 0 ∧ pa.toNat % leafSize 1 = 0 ∧
        (mapPage pml4 va pa flags).eval s =
          (mapLeaf va 1 3 pml4 (pageLeaf pa flags)).eval s) := by
  unfold mapPage
  refine Or.imp id ?_ (eval_checked unaligned va pa flags _ s)
  rintro ⟨hva, hpa, heval⟩
  have hset : PageTableEntry.set pa (flags.union present) =
      .ok (pageLeaf pa flags) := by
    rw [PageTableEntry.set, hpa, if_neg Bool.false_ne_true]
  rw [unaligned_eq, decide_eq_false_iff_not, not_not, ← leafSize_one]
    at hva hpa
  refine ⟨hva, hpa, heval.trans ?_⟩
  rw [hset]
  simp only [mapLeaf, walkDown, bind_assoc, pure_bind]

theorem eval_map2MibPage (va pa : BitVec 64) (flags : PageTableFlags) :
    (∃ e, (map2MibPage pml4 va pa flags).eval s = (.error e, s)) ∨
      (va.toNat % leafSize 2 = 0 ∧ pa.toNat % leafSize 2 = 0 ∧
        (map2MibPage pml4 va pa flags).eval s =
          (mapLeaf va 2 2 pml4 (.encodeHuge pa
            ((flags.union present).union hugePage))).eval s) := by
  unfold map2MibPage
  refine Or.imp id ?_ (eval_checked unaligned2MiB va pa flags _ s)
  rintro ⟨hva, hpa, heval⟩
  have hset : PageTableEntry.setHuge pa ((flags.union present).union hugePage) =
      .ok (.encodeHuge pa ((flags.union present).union hugePage)) := by
    rw [PageTableEntry.setHuge, hpa, if_neg Bool.false_ne_true]
  rw [unaligned2MiB_eq, decide_eq_false_iff_not, not_not, ← leafSize_two]
    at hva hpa
  refine ⟨hva, hpa, heval.trans ?_⟩
  rw [hset]
  simp only [mapLeaf, walkDown, bind_assoc, pure_bind]

/-- A call fails at its checks, or puts an aligned leaf. -/
theorem SpaceCall.eval_program (call : SpaceCall) :
    (∃ e, (call.program pml4).eval s = (.error e, s)) ∨
      (call.virtAddr.toNat % leafSize call.level = 0 ∧
        call.physAddr.toNat % leafSize call.level = 0 ∧
        (call.program pml4).eval s = (mapLeaf call.virtAddr call.level
          (4 - call.level) pml4 call.leaf).eval s) := by
  cases call with
  | small call =>
    cases call with
    | page va pa flags => exact eval_mapPage pml4 s va pa flags
    | userPage va pa write =>
      show (∃ e, (mapUserPage pml4 va pa write).eval s = (.error e, s)) ∨
        (_ ∧ _ ∧ (mapUserPage pml4 va pa write).eval s = _)
      rw [mapUserPage, Prog.eval_exitIf_bind]
      split
      · exact .inl ⟨_, rfl⟩
      · exact eval_mapPage pml4 s va pa (userPageFlags write)
  | large va pa flags => exact eval_map2MibPage pml4 s va pa flags

end Programs

/-! ## The bits of a stored leaf -/

theorem getLsbD_stored {addr mask : BitVec 64} {flags : PageTableFlags}
    (hmask : mask &&& physAddrMask = mask) {k : ℕ}
    (hflag : ¬ (12 ≤ k ∧ k < 52)) :
    ((addr &&& mask) ||| flags.bits).getLsbD k = flags.bits.getLsbD k := by
  have hclear : mask.getLsbD k = false := by
    rw [← hmask, BitVec.getLsbD_and, getLsbD_physAddrMask,
      decide_eq_false hflag, Bool.and_false]
  rw [BitVec.getLsbD_or, BitVec.getLsbD_and, hclear, Bool.and_false,
    Bool.false_or]

namespace PageTableEntry

theorem physAddr_aligned (e : PageTableEntry) :
    e.physAddr.toNat % frameSize = 0 := by
  have hmask : physAddrMask &&& 0xFFF#64 = 0#64 := by decide
  have hfield : e.physAddr &&& 0xFFF#64 = 0#64 := by
    show (e.word &&& physAddrMask) &&& 0xFFF#64 = 0#64
    rw [BitVec.and_assoc, hmask, BitVec.and_zero]
  have hnot : unaligned e.physAddr = false := by
    unfold unaligned
    rw [hfield]
    rfl
  rw [unaligned_eq, decide_eq_false_iff_not, not_not] at hnot
  exact hnot

theorem getLsbD_encodeHuge (physAddr : BitVec 64) (flags : PageTableFlags)
    {k : ℕ} (hflag : ¬ (12 ≤ k ∧ k < 52)) :
    (encodeHuge physAddr flags).word.getLsbD k =
      (storedFlags flags).bits.getLsbD k :=
  getLsbD_stored (by decide) hflag

theorem getLsbD_union_bit (flags : PageTableFlags) (j k : ℕ) (hj : j < 64) :
    (flags.union (bit j)).bits.getLsbD k =
      (flags.bits.getLsbD k || decide (j = k)) := by
  show (flags.bits ||| 1#64 <<< j).getLsbD k = _
  rw [BitVec.getLsbD_or, ← BitVec.twoPow_eq, BitVec.getLsbD_twoPow]
  simp [hj]

theorem getLsbD_storedFlags (flags : PageTableFlags) {k : ℕ} (hk : k ≠ 63) :
    (storedFlags flags).bits.getLsbD k = flags.bits.getLsbD k := by
  unfold storedFlags
  split
  · rw [noExecute, getLsbD_union_bit _ _ _ (by omega),
      decide_eq_false hk.symm, Bool.or_false]
  · rfl

theorem noExecute_of_writable {flags : PageTableFlags}
    (h : (storedFlags flags).bits.getLsbD 1 = true) :
    (storedFlags flags).bits.getLsbD 63 = true := by
  rw [getLsbD_storedFlags flags (by omega)] at h
  have hwrite : flags.contains writable = true := by
    rw [writable, contains_bit flags (by omega), h]
  rw [storedFlags, if_pos hwrite, noExecute, getLsbD_union_bit _ _ _ (by omega)]
  simp

end PageTableEntry

theorem links_encode_mid {p level : ℕ} (hlevel : 1 < level)
    (haligned : p % frameSize = 0) (hbound : p < 2 ^ 32) :
    x86Format.Links level (.encode (BitVec.ofNat 64 p) mid) ∧
      x86Format.next (.encode (BitVec.ofNat 64 p) mid) = p := by
  have hflags := PageTableEntry.flags_encode_mid (BitVec.ofNat 64 p)
  constructor
  · apply links_of_present hlevel
    · rw [PageTableEntry.isPresent, hflags]
      decide
    · rw [hflags]
      decide
  · exact PageTableEntry.physAddr_encode haligned
      (lt_trans hbound (by decide)) (by decide)

theorem not_present_unused : x86Format.present .unused = false := by
  decide

theorem present_encode (physAddr : BitVec 64) (flags : PageTableFlags) :
    x86Format.present (.encode physAddr (flags.union present)) = true := by
  have h := PageTableEntry.isPresent_encode physAddr flags
  rw [PageTableEntry.isPresent_eq] at h
  exact h

theorem leaf_encodeHuge (physAddr : BitVec 64) (flags : PageTableFlags)
    {level : ℕ} (hlevel : level < 4) :
    let e := PageTableEntry.encodeHuge physAddr
      ((flags.union present).union hugePage)
    x86Format.present e = true ∧ x86Format.leaf level e = true := by
  have hbit : ∀ k, k = 0 ∨ k = 7 → (PageTableEntry.encodeHuge physAddr
      ((flags.union present).union hugePage)).word.getLsbD k = true := by
    intro k hk
    rw [PageTableEntry.getLsbD_encodeHuge _ _ (by omega),
      PageTableEntry.getLsbD_storedFlags _ (by omega), hugePage,
      PageTableEntry.getLsbD_union_bit _ _ _ (by omega), present,
      PageTableEntry.getLsbD_union_bit _ _ _ (by omega)]
    rcases hk with rfl | rfl
    · simp
    · simp
  refine ⟨hbit 0 (.inl rfl), ?_⟩
  show (decide (level = 1) || (decide (level < 4) && _)) = true
  rw [hbit 7 (.inr rfl), decide_eq_true hlevel]
  simp

namespace SpaceCall

variable (call : SpaceCall)

theorem leaf_isLeaf : x86Format.present call.leaf = true ∧
    x86Format.leaf call.level call.leaf = true := by
  cases call with
  | small call => exact ⟨present_encode _ _, rfl⟩
  | large va pa flags => exact leaf_encodeHuge pa flags (show 2 < 4 by decide)

theorem level_cases : call.level = 1 ∨ call.level = 2 := by
  cases call with
  | small call => exact .inl rfl
  | large va pa flags => exact .inr rfl

theorem level_bounds : 0 < call.level ∧ call.level + (4 - call.level) = 4 := by
  rcases call.level_cases with hlevel | hlevel
  · rw [hlevel]
    decide
  · rw [hlevel]
    decide

end SpaceCall

end IsoLightK0
