import IsoLightK0.Memory.MemoryMap
import IsoLightK0.Mmu.Large
import IsoLightK0.Support.Loops
import IsoLightK0.Syscall.Context

/-!
# The Multiboot2 parsers

`parse_multiboot2` and `parse_kaslr_offset` follow the tags of the boot
information: from offset 8 on, each tag says how large it is, and the next one
starts behind it at a multiple of 8.  The first parser collects the entries of
the memory map tags, the second looks for the offset of the linear map.

The parsers read raw addresses.  A `BootMemory` says which addresses may be
read; a read of any other one faults.  Arithmetic wraps as in a release
build, except where the source asks for `saturating_add` or `checked_add`.
-/

namespace IsoLightK0

open Bytes Loops

/-- The ways out of a parser other than its result. -/
inductive BootStop
  | fault
  | outOfFuel
  | parse (e : ParseError)
  deriving DecidableEq

/-- Physical memory at boot: its octets, and the addresses that may be
read. -/
structure BootMemory where
  octets : Mem
  readable : BitVec 64 → Bool

namespace BootMemory

def full (octets : Mem) : BootMemory where
  octets := octets
  readable := fun _ => true

/-- The little-endian word of `w` bits at an address. -/
def word (octets : Mem) (w : ℕ) (addr : BitVec 64) : BitVec w :=
  wordOfLe w ((List.range (w / 8)).map fun i =>
    octets (addr + BitVec.ofNat 64 i).toNat)

/-- A field access through a raw pointer. -/
def load (m : BootMemory) (w : ℕ) (addr : BitVec 64) :
    Except BootStop (BitVec w) :=
  if ∀ i < w / 8, m.readable (addr + BitVec.ofNat 64 i) = true then
    .ok (word m.octets w addr)
  else
    .error .fault

@[simp] theorem load_full (octets : Mem) (w : ℕ) (addr : BitVec 64) :
    (full octets).load w addr = .ok (word octets w addr) :=
  if_pos fun _ _ => rfl

theorem load_cases (m : BootMemory) (w : ℕ) (addr : BitVec 64) :
    m.load w addr = .ok (word m.octets w addr) ∨
      m.load w addr = .error .fault := by
  unfold load
  split
  · exact .inl rfl
  · exact .inr rfl

end BootMemory

namespace Multiboot2

def checkedAdd (a b : BitVec 32) : Option (BitVec 32) :=
  if a.toNat + b.toNat < 2 ^ 32 then some (a + b) else none

/-- `u64::min`. -/
def minWord (a b : BitVec 64) : BitVec 64 := if a ≤ b then a else b

/-- The tag size rounded up to a multiple of 8: `(size + 7) & !7`. -/
def roundedSize (size : BitVec 32) : BitVec 32 := (size + 7) &&& ~~~7

/-- The address check at the start of both parsers. -/
def AddressRefused (infoAddr : BitVec 64) : Prop :=
  infoAddr = 0 ∨ infoAddr &&& 7 ≠ 0

/-- The range check of the size field: 8 octets to 64 KiB. -/
def SizeInRange (totalSize : BitVec 32) : Prop :=
  8 ≤ totalSize ∧ totalSize ≤ 65536

instance (infoAddr : BitVec 64) : Decidable (AddressRefused infoAddr) :=
  inferInstanceAs (Decidable (_ ∨ _))

instance (totalSize : BitVec 32) : Decidable (SizeInRange totalSize) :=
  inferInstanceAs (Decidable (_ ∧ _))

def tagEnd : BitVec 32 := 0

def tagMmap : BitVec 32 := 6

def mb2TagKaslr : BitVec 32 := 0x4B415352

def entryKind (typ : BitVec 32) : MemoryKind :=
  if typ = 1 then .usable
  else if typ = 3 then .acpiReclaimable
  else if typ = 4 then .acpiNvs
  else if typ = 5 then .badMemory
  else .reserved

/-- One round of the loop over the entries of a memory map tag. -/
def entryRound (m : BootMemory) (entrySize entriesEnd : BitVec 64)
    (s : BitVec 64 × MemoryMap) :
    Except BootStop ((BitVec 64 × MemoryMap) ⊕ MemoryMap) :=
  let entryPtr := s.1
  let map := s.2
  if saturatingAdd entryPtr entrySize ≤ entriesEnd then do
    let typ ← m.load 32 (entryPtr + 16)
    let length ← m.load 64 (entryPtr + 8)
    if 0 < length then do
      let base ← m.load 64 entryPtr
      let region := ⟨base, length, entryKind typ⟩
      pure (.inl (entryPtr + entrySize, (map.addRegion region).2))
    else
      pure (.inl (entryPtr + entrySize, map))
  else
    pure (.inr map)

/-- The part of the tag loop that looks at memory map tags. -/
def collectEntries (m : BootMemory) (fuel : ℕ) (tagPhys infoEnd : BitVec 64)
    (typ size : BitVec 32) (map : MemoryMap) :
    Except BootStop MemoryMap :=
  if typ = tagMmap ∧ 16 ≤ size ∧
      saturatingAdd tagPhys (size.setWidth 64) ≤ infoEnd then do
    let entrySize ← m.load 32 (tagPhys + 8)
    if 24 ≤ entrySize then
      let entriesEnd := minWord (tagPhys + size.setWidth 64) infoEnd
      loop .outOfFuel (entryRound m (entrySize.setWidth 64) entriesEnd) fuel
        (tagPhys + 16, map)
    else
      pure map
  else
    pure map

/-- What a parser does at a tag: from its variables it goes on with new ones,
or it returns.  Behind the last tag it returns `done`. -/
structure TagVisitor (σ ρ : Type) where
  visit : (tagPhys infoEnd : BitVec 64) → (typ size : BitVec 32) → σ →
    Except BootStop (σ ⊕ ρ)
  done : σ → ρ

/-- One round of the tag loop that both parsers have. -/
def TagVisitor.round {σ ρ : Type} (V : TagVisitor σ ρ) (m : BootMemory)
    (infoAddr : BitVec 64) (totalSize : BitVec 32) (s : BitVec 32 × σ) :
    Except BootStop ((BitVec 32 × σ) ⊕ ρ) :=
  let offset := s.1
  if offset < totalSize then do
    let tagPhys := infoAddr + offset.setWidth 64
    let typ ← m.load 32 tagPhys
    if typ = tagEnd then
      pure (.inr (V.done s.2))
    else do
      let infoEnd := infoAddr + totalSize.setWidth 64
      let size ← m.load 32 (tagPhys + 4)
      match ← V.visit tagPhys infoEnd typ size s.2 with
      | .inr result => pure (.inr result)
      | .inl k =>
        match checkedAdd offset (roundedSize size) with
        | none => pure (.inr (V.done k))
        | some offset => pure (.inl (offset, k))
  else
    pure (.inr (V.done s.2))

/-- `parse_multiboot2` goes on at every tag. -/
def mapVisitor (m : BootMemory) (fuel : ℕ) :
    TagVisitor MemoryMap MemoryMap where
  visit tagPhys infoEnd typ size map := do
    let map ← collectEntries m fuel tagPhys infoEnd typ size map
    pure (.inl map)
  done map := map

def parseMultiboot2 (m : BootMemory) (fuel : ℕ) (infoAddr : BitVec 64) :
    Except BootStop MemoryMap :=
  if AddressRefused infoAddr then
    .error (.parse .invalidAddress)
  else do
    let totalSize ← m.load 32 infoAddr
    if SizeInRange totalSize then
      loop .outOfFuel ((mapVisitor m fuel).round m infoAddr totalSize) fuel
        (8, .empty)
    else
      .error (.parse .invalidSize)

/-- `parse_kaslr_offset` returns the first offset that it accepts. -/
def kaslrVisitor (m : BootMemory) : TagVisitor Unit (Option (BitVec 64)) where
  visit tagPhys _ typ size _ :=
    if typ = mb2TagKaslr ∧ 16 ≤ size then do
      let off ← m.load 64 (tagPhys + 8)
      if unaligned2MiB off = false ∧ off ≠ 0 then
        pure (.inr (some off))
      else
        pure (.inl ())
    else
      pure (.inl ())
  done _ := none

def parseKaslrOffset (m : BootMemory) (fuel : ℕ) (infoAddr : BitVec 64) :
    Except BootStop (Option (BitVec 64)) :=
  if AddressRefused infoAddr then
    pure none
  else do
    let totalSize ← m.load 32 infoAddr
    if SizeInRange totalSize then
      loop .outOfFuel ((kaslrVisitor m).round m infoAddr totalSize) fuel
        (8, ())
    else
      pure none

/-- The boot information at an address of physical memory. -/
structure InfoBlock where
  octets : Mem
  addr : BitVec 64

namespace InfoBlock

variable (b : InfoBlock) (offset : BitVec 32)

def totalSize : BitVec 32 := BootMemory.word b.octets 32 b.addr

def infoEnd : BitVec 64 := b.addr + b.totalSize.setWidth 64

def tagPhys : BitVec 64 := b.addr + offset.setWidth 64

def typ : BitVec 32 := BootMemory.word b.octets 32 (b.tagPhys offset)

def size : BitVec 32 := BootMemory.word b.octets 32 (b.tagPhys offset + 4)

def entrySize : BitVec 32 :=
  BootMemory.word b.octets 32 (b.tagPhys offset + 8)

def physMapOffset : BitVec 64 :=
  BootMemory.word b.octets 64 (b.tagPhys offset + 8)

def next : Option (BitVec 32) := checkedAdd offset (roundedSize (b.size offset))

/-- The tag at an offset is a memory map tag that passes the checks before
its entries. -/
def HasEntries : Prop :=
  b.typ offset = tagMmap ∧ 16 ≤ b.size offset ∧
    saturatingAdd (b.tagPhys offset) ((b.size offset).setWidth 64) ≤
      b.infoEnd ∧
    24 ≤ b.entrySize offset

def entriesEnd : BitVec 64 :=
  minWord (b.tagPhys offset + (b.size offset).setWidth 64) b.infoEnd

/-- `parse_kaslr_offset` accepts the tag at an offset. -/
def AcceptsKaslr : Prop :=
  b.typ offset = mb2TagKaslr ∧ 16 ≤ b.size offset ∧
    unaligned2MiB (b.physMapOffset offset) = false ∧
    b.physMapOffset offset ≠ 0

/-- The tag at `offset` is followed by the one at `offset'`, for a parser that
returns at the tags in `stops`. -/
def NextTag (stops : BitVec 32 → Prop) (offset offset' : BitVec 32) : Prop :=
  offset < b.totalSize ∧ b.typ offset ≠ tagEnd ∧ ¬ stops offset ∧
    b.next offset = some offset'

def Visited (stops : BitVec 32 → Prop) : BitVec 32 → Prop :=
  Relation.ReflTransGen (b.NextTag stops) 8

/-- `parse_multiboot2` returns at no tag but the end tag. -/
def mapStops : BitVec 32 → Prop := fun _ => False

end InfoBlock

end Multiboot2

end IsoLightK0
