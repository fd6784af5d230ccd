import IsoLightK0.Memory.Frames
import IsoLightK0.Mmu.Entry
import IsoLightK0.Support.Radix

/-!
# Four-level page tables

The table operations of the x86_64 address space, on physical memory.  A table
is named by its physical address; entries are 8 octets each, least significant
first.  The operations are written for the phase in which physical addresses
are used as pointers, which is the one in which user address spaces are built.
-/

namespace IsoLightK0

open Bytes Triples PageTableFlags

def tableEntries : ℕ := 512

/-- `PageTable::index`. -/
def tableIndex (virtAddr : BitVec 64) (level : ℕ) : ℕ :=
  ((virtAddr >>> (12 + (level - 1) * 9)) &&& 0x1FF#64).toNat

/-- The entry `index` of the table at physical address `table`. -/
def entryAt (m : Mem) (table index : ℕ) : PageTableEntry :=
  ⟨wordOfLe 64 (m.read (table + 8 * index) 8)⟩

def storeEntry (m : Mem) (table index : ℕ) (e : PageTableEntry) : Mem :=
  m.write (table + 8 * index) (wordToLe 8 e.word)

theorem tableIndex_lt (virtAddr : BitVec 64) (level : ℕ) :
    tableIndex virtAddr level < tableEntries := by
  have hmask : tableIndex virtAddr level ≤ 0x1FF := by
    unfold tableIndex
    rw [BitVec.toNat_and]
    exact Nat.and_le_right
  unfold tableEntries
  omega

theorem entryAt_congr {m m' : Mem} {table index : ℕ}
    (hindex : index < tableEntries)
    (h : ∀ i, table ≤ i ∧ i < table + frameSize → m i = m' i) :
    entryAt m table index = entryAt m' table index := by
  unfold tableEntries at hindex
  unfold frameSize at h
  unfold entryAt
  rw [Mem.read_congr fun i hlow hhigh => h i (by omega)]

theorem entryAt_erased {m : Mem} {table index : ℕ}
    (hindex : index < tableEntries)
    (h : ∀ i, table ≤ i ∧ i < table + frameSize → m i = 0) :
    entryAt m table index = PageTableEntry.unused := by
  have hzero : m.read (table + 8 * index) 8 = List.replicate 8 0 := by
    apply List.ext_getElem
    · rw [Mem.length_read, List.length_replicate]
    · intro k hk _
      unfold tableEntries at hindex
      unfold frameSize at h
      rw [Mem.length_read] at hk
      rw [Mem.getElem_read, List.getElem_replicate]
      exact h _ (by omega)
  unfold entryAt
  rw [hzero]
  decide

theorem entryAt_storeEntry_same (m : Mem) (table index : ℕ)
    (e : PageTableEntry) :
    entryAt (storeEntry m table index e) table index = e := by
  unfold entryAt storeEntry
  rw [Mem.read_write_of_length m (length_wordToLe 8 e.word),
    wordOfLe_wordToLe e.word (by omega)]

theorem entryAt_storeEntry_of_ne (m : Mem) {table index table' index' : ℕ}
    (e : PageTableEntry) (htable : table % frameSize = 0)
    (htable' : table' % frameSize = 0) (hindex : index < tableEntries)
    (hindex' : index' < tableEntries)
    (hne : ¬ (table' = table ∧ index' = index)) :
    entryAt (storeEntry m table index e) table' index' =
      entryAt m table' index' := by
  unfold tableEntries at hindex hindex'
  unfold frameSize at htable htable'
  unfold entryAt storeEntry
  rw [Mem.read_write_disjoint]
  rw [length_wordToLe]
  omega

/-- A setter on an entry of a table, given by what it makes of the entry. -/
def setEntry (table index : ℕ) (entry : Except MmuError PageTableEntry) :
    Prog Physical MmuError Unit :=
  match entry with
  | .error e => throw e
  | .ok e => modify fun s => { s with mem := storeEntry s.mem table index e }

/-- The branch of `alloc_or_get_table` that makes a new table. -/
def allocTable (table index : ℕ) : Prog Physical MmuError ℕ := do
  let newPhys ← allocErased .frameAllocFailed
  setEntry table index (PageTableEntry.set (BitVec.ofNat 64 newPhys) mid)
  pure newPhys

def allocOrGetTable (table index : ℕ) : Prog Physical MmuError ℕ := do
  let s ← get
  let entry := entryAt s.mem table index
  if entry.isPresent then
    if entry.flags.contains hugePage then
      throw .alreadyMapped
    else
      pure entry.physAddr.toNat
  else
    allocTable table index

/-- The last step of `map_page` and `map_2mib_page`: store the leaf unless one
is there. -/
def putLeaf (table index : ℕ) (entry : Except MmuError PageTableEntry) :
    Prog Physical MmuError Unit := do
  let s ← get
  if (entryAt s.mem table index).isPresent then
    throw .alreadyMapped
  else
    setEntry table index entry

/-- `map_page` on the address space whose PML4 is at `pml4`. -/
def mapPage (pml4 : ℕ) (virtAddr physAddr : BitVec 64)
    (flags : PageTableFlags) : Prog Physical MmuError Unit := do
  Prog.exitIf (unaligned virtAddr ∨ unaligned physAddr) .unalignedAddress
  Prog.exitIf (flags.contains writable ∧ ¬ flags.contains noExecute)
    .wxPolicyViolation
  let pdpt ← allocOrGetTable pml4 (tableIndex virtAddr 4)
  let pd ← allocOrGetTable pdpt (tableIndex virtAddr 3)
  let pt ← allocOrGetTable pd (tableIndex virtAddr 2)
  putLeaf pt (tableIndex virtAddr 1)
    (PageTableEntry.set physAddr (flags.union present))

def isUserVa (va : BitVec 64) : Bool :=
  va.toNat < 0x0000_8000_0000_0000 ∧ ¬ unaligned va

/-- The flags that `map_user_page` asks for. -/
def userPageFlags (write : Bool) : PageTableFlags :=
  let flags := present.union userAccessible
  if write then (flags.union writable).union noExecute else flags

def mapUserPage (pml4 : ℕ) (virtAddr physAddr : BitVec 64) (write : Bool) :
    Prog Physical MmuError Unit := do
  Prog.exitIf (¬ isUserVa virtAddr) .unalignedAddress
  mapPage pml4 virtAddr physAddr (userPageFlags write)

/-- The entry of a table on the way down, unless it is absent or a leaf. -/
def nextTable (m : Mem) (table index : ℕ) : Option ℕ :=
  let entry := entryAt m table index
  if ¬ entry.isPresent ∨ entry.flags.contains hugePage then none
  else some entry.physAddr.toNat

def walkToPhys (m : Mem) (pml4 : ℕ) (va : BitVec 64) : Option (BitVec 64) :=
  -- the huge bit of a PML4 entry is not looked at
  let pdptEntry := entryAt m pml4 (tableIndex va 4)
  if ¬ pdptEntry.isPresent then none
  else do
    let pd ← nextTable m pdptEntry.physAddr.toNat (tableIndex va 3)
    let pt ← nextTable m pd (tableIndex va 2)
    let leaf := entryAt m pt (tableIndex va 1)
    if ¬ leaf.isPresent then none
    else some leaf.physAddr

/-- The copy loop of `inherit_kernel_mappings` over the upper half. -/
def copyUpperHalf (m : Mem) (pml4 source : ℕ) : Mem :=
  (List.range' 256 256).foldl
    (fun m i => storeEntry m pml4 i (entryAt m source i)) m

theorem entryAt_copyUpperHalf (m : Mem) {pml4 i : ℕ} (source : ℕ)
    (haligned : pml4 % frameSize = 0) (hi : i < 256) :
    entryAt (copyUpperHalf m pml4 source) pml4 i = entryAt m pml4 i := by
  refine List.foldlRecOn (motive := fun m' => entryAt m' pml4 i =
    entryAt m pml4 i) _ _ rfl fun m' h j hj => ?_
  rw [List.mem_range'_1] at hj
  have hindex : j < tableEntries := hj.2
  rw [entryAt_storeEntry_of_ne _ _ haligned haligned hindex
    (lt_trans hi (by decide)) (by omega), h]

def inheritKernelMappings {ε : Type} (pml4 source : ℕ) :
    Prog Physical ε Unit :=
  modify fun s => { s with mem := copyUpperHalf s.mem pml4 source }

theorem eval_inheritKernelMappings {ε : Type} (pml4 source : ℕ)
    (s : Physical) :
    (inheritKernelMappings pml4 source : Prog Physical ε Unit).eval s =
      (.ok (), { s with mem := copyUpperHalf s.mem pml4 source }) := rfl

/-! ## What the operations do -/

theorem unaligned_ofNat {p : ℕ} (haligned : p % frameSize = 0)
    (hbound : p < 2 ^ 32) : unaligned (BitVec.ofNat 64 p) = false := by
  have hp : (BitVec.ofNat 64 p).toNat = p := by
    rw [BitVec.toNat_ofNat, Nat.mod_eq_of_lt]
    omega
  rw [unaligned_eq, hp]
  exact decide_eq_false (not_not.mpr haligned)

theorem allocOrGetTable_cases (s : Physical) (t i : ℕ) :
    (∃ e, (allocOrGetTable t i).eval s = (.error e, s) ∧
      ((entryAt s.mem t i).isPresent = true ∧
          (entryAt s.mem t i).flags.contains hugePage = true ∨
        ∀ n, ¬ s.allocator.Room (n + 1))) ∨
    ((entryAt s.mem t i).isPresent = true ∧
      (entryAt s.mem t i).flags.contains hugePage = false ∧
      (allocOrGetTable t i).eval s =
        (.ok (entryAt s.mem t i).physAddr.toNat, s)) ∨
    ((entryAt s.mem t i).isPresent = false ∧ ∃ p s', TakesFrame s p s' ∧
      (allocOrGetTable t i).eval s = (.ok p, { s' with
        mem := storeEntry s'.mem t i (.encode (BitVec.ofNat 64 p) mid) })) := by
  rw [allocOrGetTable, Prog.eval_get_bind]
  dsimp only
  cases hpresent : (entryAt s.mem t i).isPresent with
  | true =>
    cases hhuge : (entryAt s.mem t i).flags.contains hugePage with
    | true => exact .inl ⟨_, rfl, .inl ⟨rfl, rfl⟩⟩
    | false => exact .inr (.inl ⟨rfl, rfl, rfl⟩)
  | false =>
    rw [if_neg Bool.false_ne_true, allocTable, Prog.eval_bind]
    rcases eval_allocErased MmuError.frameAllocFailed s with
      ⟨heval, hno⟩ | ⟨p, s', heval, htake⟩
    · rw [heval]
      exact .inl ⟨_, rfl, .inr hno⟩
    · rw [heval]
      refine .inr (.inr ⟨rfl, p, s', htake, ?_⟩)
      dsimp only
      rw [PageTableEntry.set, unaligned_ofNat htake.free.1 htake.bound]
      rfl

theorem putLeaf_cases (s : Physical) (t i : ℕ)
    (entry : Except MmuError PageTableEntry) :
    (∃ e, (putLeaf t i entry).eval s = (.error e, s) ∧
      ((entryAt s.mem t i).isPresent = true ∨ entry = .error e)) ∨
    ((entryAt s.mem t i).isPresent = false ∧ ∃ e, entry = .ok e ∧
      (putLeaf t i entry).eval s =
        (.ok (), { s with mem := storeEntry s.mem t i e })) := by
  unfold putLeaf
  rw [Prog.eval_get_bind]
  cases hpresent : (entryAt s.mem t i).isPresent with
  | true => exact .inl ⟨_, rfl, .inl rfl⟩
  | false =>
    rw [if_neg Bool.false_ne_true]
    cases entry with
    | error e => exact .inl ⟨e, rfl, .inr rfl⟩
    | ok e => exact .inr ⟨rfl, e, rfl, rfl⟩

/-- How the processor reads an entry.  A leaf is an entry of the lowest table,
or one with the page-size bit, which is not looked at in the highest one. -/
def x86Format : Radix.Format PageTableEntry where
  present e := e.word.getLsbD 0
  leaf level e := level = 1 || (level < 4 && e.word.getLsbD 7)
  next e := e.physAddr.toNat

/-- The entries that the processor reads to translate `va`, from the root
down to the leaf. -/
def hardwareWalk (m : Mem) (va : BitVec 64) (level table : ℕ) :
    Option (List PageTableEntry) :=
  (Radix.walk x86Format (entryAt m) (tableIndex va) level table).map
    (List.map Prod.snd)

structure Permission where
  user : Bool
  write : Bool
  execute : Bool
  deriving DecidableEq

/-- What a translation permits: each level has to allow user access and
writing, and none may forbid execution. -/
def effective (entries : List PageTableEntry) : Permission where
  user := entries.all fun e => e.word.getLsbD 2
  write := entries.all fun e => e.word.getLsbD 1
  execute := entries.all fun e => !e.word.getLsbD 63

def requested (flags : PageTableFlags) : Permission where
  user := flags.contains userAccessible
  write := flags.contains writable
  execute := !flags.contains noExecute

end IsoLightK0
