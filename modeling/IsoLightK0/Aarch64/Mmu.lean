import IsoLightK0.Mmu.Mapping

/-!
# Address spaces on aarch64

An address space is one object in memory: two root tables, a pool of 24 tables
for the levels below, and the number of pool tables in use.  Tables are never
taken from the frame allocator.  The model works on the octets of physical
memory, and keeps a trace of the frames that are handed out and of the octets
that are written as part of an address space.
-/

namespace IsoLightK0.Aarch64

open Bytes Triples

inductive MmuError
  | wxPolicyViolation
  | alreadyMapped
  | tableExhausted
  | unalignedAddress
  | selfTestFault
  | selfTestAttr
  deriving DecidableEq, Repr

namespace Flags

def present : PageTableFlags := .bit 0
def writable : PageTableFlags := .bit 1
def userAccessible : PageTableFlags := .bit 2
def noExecute : PageTableFlags := .bit 3

end Flags

/-- A frame is handed out, or octets are written as part of the address space
at `space`. -/
inductive Event
  | alloc (frame : ℕ)
  | write (space addr len : ℕ)
  deriving DecidableEq, Repr

/-- Physical memory and the frame allocator, with the trace so far, the last
event first. -/
structure Machine where
  phys : Physical
  trace : List Event

def Machine.mem (s : Machine) : Mem := s.phys.mem

/-- The machine after octets of the address space at `space` were written. -/
def Machine.written (s : Machine) (space addr : ℕ) (bytes : List Byte) :
    Machine where
  phys := { s.phys with mem := s.phys.mem.write addr bytes }
  trace := .write space addr bytes.length :: s.trace

theorem Machine.mem_written (s : Machine) (space addr : ℕ)
    (bytes : List Byte) :
    (s.written space addr bytes).mem = s.mem.write addr bytes := rfl

def writeSpace {ε : Type} (space addr : ℕ) (bytes : List Byte) :
    Prog Machine ε Unit :=
  modify fun s => s.written space addr bytes

theorem eval_writeSpace {ε : Type} (space addr : ℕ) (bytes : List Byte)
    (s : Machine) :
    (writeSpace space addr bytes : Prog Machine ε Unit).eval s =
      (.ok (), s.written space addr bytes) := rfl

/-- The machine after a table of the address space was zeroed. -/
def Machine.zeroed (s : Machine) (space table : ℕ) : Machine where
  phys := { s.phys with mem := s.phys.mem.fill table frameSize 0 }
  trace := .write space table frameSize :: s.trace

theorem Machine.mem_zeroed (s : Machine) (space table : ℕ) :
    (s.zeroed space table).mem = s.mem.fill table frameSize 0 := rfl

def zeroTable {ε : Type} (space table : ℕ) : Prog Machine ε Unit :=
  modify fun s => s.zeroed space table

theorem eval_zeroTable {ε : Type} (space table : ℕ) (s : Machine) :
    (zeroTable space table : Prog Machine ε Unit).eval s =
      (.ok (), s.zeroed space table) := rfl

/-- Write descriptor `index` of a table of the address space. -/
def setDescriptor {ε : Type} (space table index : ℕ) (d : BitVec 64) :
    Prog Machine ε Unit :=
  writeSpace space (table + 8 * index) (wordToLe 8 d)

def poolTables : ℕ := 24

def ttbr0Root (space : ℕ) : ℕ := space

def ttbr1Root (space : ℕ) : ℕ := space + frameSize

def poolTable (space index : ℕ) : ℕ := space + (2 + index) * frameSize

def poolNextAddr (space : ℕ) : ℕ := space + (2 + poolTables) * frameSize

/-- The size of `AddressSpace`, which is aligned to pages. -/
def spaceSize : ℕ := (2 + poolTables + 1) * frameSize

def poolNext (m : Mem) (space : ℕ) : ℕ :=
  (wordOfLe 64 (m.read (poolNextAddr space) 8)).toNat

/-- `AddressSpace::new`, at an address that page tables can hold. -/
structure IsNew (space : ℕ) (m : Mem) : Prop where
  aligned : space % frameSize = 0
  bound : space + spaceSize ≤ 2 ^ 48
  zeroed : ∀ i, space ≤ i → i < space + spaceSize → m i = 0

def paMask : BitVec 64 := 0x0000_FFFF_FFFF_F000#64

def descValid : BitVec 64 := 1#64 <<< 0
def descPage : BitVec 64 := 1#64 <<< 1
def descAf : BitVec 64 := 1#64 <<< 10
def descPxn : BitVec 64 := 1#64 <<< 53
def descUxn : BitVec 64 := 1#64 <<< 54
def apRwEl1 : BitVec 64 := 0b00#64 <<< 6
def apRoEl1 : BitVec 64 := 0b10#64 <<< 6
def apRwEl1El0 : BitVec 64 := 0b01#64 <<< 6
def apRoEl1El0 : BitVec 64 := 0b11#64 <<< 6
def shNone : BitVec 64 := 0b00#64 <<< 8
def shInner : BitVec 64 := 0b11#64 <<< 8
def attrDevice : BitVec 64 := 1#64 <<< 2
def attrNormal : BitVec 64 := 2#64 <<< 2

def leafDesc (pa : BitVec 64) (writable executable device : Bool) :
    Except MmuError (BitVec 64) :=
  if writable ∧ executable then .error .wxPolicyViolation
  else if unaligned pa then .error .unalignedAddress
  else
    let d := descValid ||| descPage ||| descAf ||| (pa &&& paMask)
    let d := d ||| if device then attrDevice ||| shNone ||| descUxn ||| descPxn
      else attrNormal ||| shInner
    let d := d ||| if writable then apRwEl1 else apRoEl1
    .ok (if writable ∨ ¬ executable then d ||| (descUxn ||| descPxn) else d)

def leafDescUser (pa : BitVec 64) (writable : Bool) :
    Except MmuError (BitVec 64) :=
  if unaligned pa then .error .unalignedAddress
  else
    let d := descValid ||| descPage ||| descAf ||| (pa &&& paMask) |||
      attrNormal ||| shInner
    .ok (d ||| if writable then apRwEl1El0 ||| descUxn ||| descPxn
      else apRoEl1El0 ||| descPxn)

def tableDesc (next : ℕ) : BitVec 64 :=
  descValid ||| descPage ||| (BitVec.ofNat 64 next &&& paMask)

/-! ## Mapping -/

/-- `table_index`; level 0 is the highest. -/
def tableIndex (va : BitVec 64) (level : ℕ) : ℕ :=
  ((va >>> (12 + (3 - level) * 9)) &&& 0x1FF#64).toNat

def descriptorAt (m : Mem) (table index : ℕ) : BitVec 64 :=
  (entryAt m table index).word

def allocTable (space : ℕ) : Prog Machine MmuError ℕ := do
  let s ← get
  let idx := poolNext s.mem space
  Prog.exitIf (idx ≥ poolTables) .tableExhausted
  writeSpace space (poolNextAddr space) (wordToLe 8 (BitVec.ofNat 64 (idx + 1)))
  zeroTable space (poolTable space idx)
  pure (poolTable space idx)

/-- One round of the loop of `map_desc` over the upper levels. -/
def nextTable (space : ℕ) (va : BitVec 64) (table level : ℕ) :
    Prog Machine MmuError ℕ := do
  let s ← get
  let cur := descriptorAt s.mem table (tableIndex va level)
  if cur &&& descValid = 0 then
    let next ← allocTable space
    setDescriptor space table (tableIndex va level) (tableDesc next)
    pure next
  else
    pure (cur &&& paMask).toNat

/-- The end of `map_desc`. -/
def putLeaf (space : ℕ) (va : BitVec 64) (table : ℕ) (leaf : BitVec 64) :
    Prog Machine MmuError Unit := do
  let s ← get
  Prog.exitIf (descriptorAt s.mem table (tableIndex va 3) &&& descValid ≠ 0)
    .alreadyMapped
  setDescriptor space table (tableIndex va 3) leaf

def root (space : ℕ) (high : Bool) : ℕ :=
  if high then ttbr1Root space else ttbr0Root space

def mapDesc (space : ℕ) (high : Bool) (va leaf : BitVec 64) :
    Prog Machine MmuError Unit := do
  let t₁ ← nextTable space va (root space high) 0
  let t₂ ← nextTable space va t₁ 1
  let t₃ ← nextTable space va t₂ 2
  putLeaf space va t₃ leaf

/-- `virt_addr >= 0x0000_8000_0000_0000`. -/
def isHigh (va : BitVec 64) : Bool := 2 ^ 47 ≤ va.toNat

/-- A descriptor that was built, or the error of its builder. -/
def liftDesc {σ : Type} :
    Except MmuError (BitVec 64) → Prog σ MmuError (BitVec 64)
  | .error e => throw e
  | .ok d => pure d

/-- The leaf that `map_page` asks for. -/
def pageDesc (physAddr : BitVec 64) (flags : PageTableFlags) :
    Except MmuError (BitVec 64) :=
  let writable := flags.contains Flags.writable
  let executable := !flags.contains Flags.noExecute
  if flags.contains Flags.userAccessible then leafDescUser physAddr writable
  else leafDesc physAddr writable executable false

def mapPage (space : ℕ) (virtAddr physAddr : BitVec 64)
    (flags : PageTableFlags) : Prog Machine MmuError Unit := do
  Prog.exitIf (unaligned virtAddr ∨ unaligned physAddr) .unalignedAddress
  Prog.exitIf (flags.contains Flags.writable ∧
    ¬ flags.contains Flags.noExecute) .wxPolicyViolation
  let leaf ← liftDesc (pageDesc physAddr flags)
  mapDesc space (isHigh virtAddr) virtAddr leaf

def mapUserPage (space : ℕ) (virtAddr physAddr : BitVec 64) (writable : Bool) :
    Prog Machine MmuError Unit := do
  Prog.exitIf (¬ isUserVa virtAddr) .unalignedAddress
  let leaf ← liftDesc (leafDescUser physAddr writable)
  mapDesc space false virtAddr leaf

/-- One level of `walk_to_phys`. -/
def followTable (m : Mem) (va : BitVec 64) (table level : ℕ) : Option ℕ :=
  let cur := descriptorAt m table (tableIndex va level)
  if cur &&& descValid = 0 then none
  else if cur &&& descPage = 0 then none
  else some (cur &&& paMask).toNat

def walkToPhys (m : Mem) (space : ℕ) (va : BitVec 64) : Option (BitVec 64) := do
  let t₁ ← followTable m va (root space (isHigh va)) 0
  let t₂ ← followTable m va t₁ 1
  let t₃ ← followTable m va t₂ 2
  let leaf := descriptorAt m t₃ (tableIndex va 3)
  if leaf &&& descValid = 0 then none else some (leaf &&& paMask)

def inheritKernelMappings {ε : Type} (space source : ℕ) :
    Prog Machine ε Unit :=
  Prog.foldRange tableEntries () fun i _ => do
    let s ← get
    setDescriptor space (ttbr1Root space) i
      (descriptorAt s.mem (ttbr1Root source) i)

/-! ## What the operations do -/

theorem and_bit_eq_zero (d : BitVec 64) {k : ℕ} (hk : k < 64) :
    d &&& 1#64 <<< k = 0 ↔ d.getLsbD k = false := by
  have hand : d &&& 1#64 <<< k =
      if d.getLsbD k then BitVec.twoPow 64 k else 0#64 := BitVec.and_twoPow d k
  rw [hand]
  cases d.getLsbD k with
  | false => simp
  | true =>
    simp only [if_true, Bool.true_eq_false, iff_false]
    intro hzero
    have hbit := congrArg (fun x => BitVec.getLsbD x k) hzero
    simp [hk] at hbit

theorem tableIndex_lt (va : BitVec 64) (level : ℕ) :
    tableIndex va level < tableEntries := by
  have hmask : tableIndex va level ≤ 0x1FF := by
    unfold tableIndex
    rw [BitVec.toNat_and]
    exact Nat.and_le_right
  unfold tableEntries
  omega

/-- The memory after a pool table has been taken. -/
structure TakesTable (space : ℕ) (m : Mem) (p : ℕ) (m' : Mem) : Prop where
  available : poolNext m space < poolTables
  place : p = poolTable space (poolNext m space)
  counted : poolNext m' space = poolNext m space + 1
  erased : ∀ i, p ≤ i ∧ i < p + frameSize → m' i = 0
  outside : ∀ i, i < poolNextAddr space → (i < p ∨ p + frameSize ≤ i) →
    m' i = m i

theorem takesTable_writes {space : ℕ} {m : Mem}
    (h : poolNext m space < poolTables) :
    TakesTable space m (poolTable space (poolNext m space))
      ((m.write (poolNextAddr space)
          (wordToLe 8 (BitVec.ofNat 64 (poolNext m space + 1)))).fill
        (poolTable space (poolNext m space)) frameSize 0) := by
  have hbelow : poolTable space (poolNext m space) + frameSize ≤
      poolNextAddr space := by
    unfold poolTable poolNextAddr frameSize
    omega
  refine ⟨h, rfl, ?_, fun i hi => Mem.fill_apply_within _ 0 hi, ?_⟩
  · have hcounter : poolNext m space + 1 < 2 ^ 64 := by
      unfold poolTables at h
      omega
    have hread : ∀ m' : Mem, (m'.fill (poolTable space (poolNext m space))
        frameSize 0).read (poolNextAddr space) 8 =
          m'.read (poolNextAddr space) 8 :=
      fun m' => Mem.read_congr fun i hlow _ =>
        Mem.fill_apply_outside _ 0 (.inr (by omega))
    rw [poolNext, hread, Mem.read_write_of_length _ (length_wordToLe 8 _),
      wordOfLe_wordToLe _ (by omega), BitVec.toNat_ofNat,
      Nat.mod_eq_of_lt hcounter]
  · intro i hcounter hout
    rw [Mem.fill_apply_outside _ _ hout, Mem.write_apply_of_lt _ _ hcounter]

theorem allocTable_cases (space : ℕ) (s : Machine) :
    (allocTable space).eval s = (.error .tableExhausted, s) ∨
    ∃ p s', (allocTable space).eval s = (.ok p, s') ∧
      TakesTable space s.mem p s'.mem := by
  unfold allocTable
  rw [Prog.eval_get_bind]
  dsimp only
  rw [Prog.eval_exitIf_bind]
  by_cases hfull : poolNext s.mem space ≥ poolTables
  · rw [if_pos hfull]
    exact .inl rfl
  · rw [if_neg hfull, Prog.eval_bind, eval_writeSpace]
    dsimp only
    rw [Prog.eval_bind, eval_zeroTable]
    refine .inr ⟨_, _, rfl, ?_⟩
    rw [Machine.mem_zeroed, Machine.mem_written]
    exact takesTable_writes (Nat.lt_of_not_le hfull)

theorem nextTable_cases (space : ℕ) (va : BitVec 64) (t level : ℕ)
    (s : Machine) :
    (∃ e, (nextTable space va t level).eval s = (.error e, s)) ∨
    ((descriptorAt s.mem t (tableIndex va level)).getLsbD 0 = true ∧
      (nextTable space va t level).eval s = (.ok (descriptorAt s.mem t
        (tableIndex va level) &&& paMask).toNat, s)) ∨
    ((descriptorAt s.mem t (tableIndex va level)).getLsbD 0 = false ∧
      ∃ p m s', TakesTable space s.mem p m ∧
        (nextTable space va t level).eval s = (.ok p, s') ∧
        s'.mem = storeEntry m t (tableIndex va level) ⟨tableDesc p⟩) := by
  unfold nextTable
  rw [Prog.eval_get_bind]
  dsimp only
  by_cases hvalid : descriptorAt s.mem t (tableIndex va level) &&& descValid = 0
  · have habsent := (and_bit_eq_zero _ (by omega)).mp hvalid
    rw [if_pos hvalid, Prog.eval_bind]
    rcases allocTable_cases space s with heval | ⟨p, s', heval, htake⟩
    · rw [heval]
      exact .inl ⟨_, rfl⟩
    · rw [heval]
      exact .inr (.inr ⟨habsent, p, s'.mem, _, htake, rfl, rfl⟩)
  · have hpresent := mt (and_bit_eq_zero _ (by omega)).mpr hvalid
    rw [if_neg hvalid]
    exact .inr (.inl ⟨Bool.not_eq_false _ ▸ hpresent, rfl⟩)

theorem putLeaf_cases (space : ℕ) (va : BitVec 64) (t : ℕ) (leaf : BitVec 64)
    (s : Machine) :
    (∃ e, (putLeaf space va t leaf).eval s = (.error e, s)) ∨
    ((descriptorAt s.mem t (tableIndex va 3)).getLsbD 0 = false ∧
      ∃ s', (putLeaf space va t leaf).eval s = (.ok (), s') ∧
        s'.mem = storeEntry s.mem t (tableIndex va 3) ⟨leaf⟩) := by
  unfold putLeaf
  rw [Prog.eval_get_bind, Prog.eval_exitIf_bind]
  by_cases hvalid : descriptorAt s.mem t (tableIndex va 3) &&& descValid ≠ 0
  · rw [if_pos hvalid]
    exact .inl ⟨_, rfl⟩
  · rw [if_neg hvalid]
    exact .inr ⟨(and_bit_eq_zero _ (by omega)).mp (not_not.mp hvalid), _,
      rfl, rfl⟩

end IsoLightK0.Aarch64
