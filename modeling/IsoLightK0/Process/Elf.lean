import IsoLightK0.Mmu.Tables

/-!
# The ELF parser

The parser reads the file header and the program headers of a statically
linked executable and keeps the segments to load.  Fields that it does not
read are left out.  The end of the module says what holds of every segment
that it keeps.
-/

namespace IsoLightK0

open Bytes Triples

inductive ElfError
  | truncated
  | badMagic
  | unsupportedFormat
  | unsupportedTarget
  | badPhentSize
  | tooManyHeaders
  | phdrOutOfBounds
  | segmentOutOfBounds
  | badSegmentLayout
  | badVirtualAddress
  | dynamicLinkingRejected
  deriving DecidableEq, Repr

/-- The little-endian field of `w` bits at an offset. -/
def elfField (w : ℕ) (data : List Byte) (off : ℕ) : BitVec w :=
  wordOfLe w ((data.drop off).take (w / 8))

structure ElfHeader where
  eIdentMagic : List Byte
  eIdentClass : BitVec 8
  eIdentData : BitVec 8
  eIdentVersion : BitVec 8
  eType : BitVec 16
  eMachine : BitVec 16
  eVersion : BitVec 32
  eEntry : BitVec 64
  ePhoff : BitVec 64
  ePhentsize : BitVec 16
  ePhnum : BitVec 16

def ElfHeader.read (data : List Byte) : ElfHeader where
  eIdentMagic := data.take 4
  eIdentClass := elfField 8 data 4
  eIdentData := elfField 8 data 5
  eIdentVersion := elfField 8 data 6
  eType := elfField 16 data 16
  eMachine := elfField 16 data 18
  eVersion := elfField 32 data 20
  eEntry := elfField 64 data 24
  ePhoff := elfField 64 data 32
  ePhentsize := elfField 16 data 54
  ePhnum := elfField 16 data 56

structure ProgramHeader where
  pType : BitVec 32
  pFlags : BitVec 32
  pOffset : BitVec 64
  pVaddr : BitVec 64
  pFilesz : BitVec 64
  pMemsz : BitVec 64
  pAlign : BitVec 64
  deriving DecidableEq

namespace ProgramHeader

def read (data : List Byte) (off : ℕ) : ProgramHeader where
  pType := elfField 32 data off
  pFlags := elfField 32 data (off + 4)
  pOffset := elfField 64 data (off + 8)
  pVaddr := elfField 64 data (off + 16)
  pFilesz := elfField 64 data (off + 32)
  pMemsz := elfField 64 data (off + 40)
  pAlign := elfField 64 data (off + 48)

/-- `PF_X` is set.  The loader does not ask. -/
def isExecutable (ph : ProgramHeader) : Bool := ph.pFlags &&& 1#32 ≠ 0

def isWritable (ph : ProgramHeader) : Bool := ph.pFlags &&& 2#32 ≠ 0

end ProgramHeader

structure Elf64Image where
  entry : BitVec 64
  loads : List ProgramHeader
  raw : List Byte

def elfHeaderSize : ℕ := 64

def programHeaderSize : ℕ := 56

def maxProgramHeaders : ℕ := 8

/-- `return Err(e)` under a condition. -/
def reject (c : Prop) [Decidable c] (e : ElfError) : Except ElfError Unit :=
  if c then .error e else .ok ()

def isPowerOfTwo (x : BitVec 64) : Bool := x ≠ 0 ∧ x &&& (x - 1) = 0

def checkLoad (raw : ProgramHeader) (dataLen : ℕ) : Except ElfError Unit := do
  reject (raw.pFilesz > raw.pMemsz) .badSegmentLayout
  reject (raw.pAlign.toNat < pageSize) .badSegmentLayout
  reject (¬ isPowerOfTwo raw.pAlign) .badSegmentLayout
  reject (2 ^ 64 ≤ raw.pOffset.toNat + raw.pFilesz.toNat) .segmentOutOfBounds
  reject (raw.pOffset.toNat + raw.pFilesz.toNat > dataLen) .segmentOutOfBounds
  reject (¬ isUserVa raw.pVaddr) .badVirtualAddress
  reject (2 ^ 64 ≤ raw.pVaddr.toNat + raw.pMemsz.toNat) .badVirtualAddress
  reject (raw.pVaddr.toNat + raw.pMemsz.toNat > 0x0000_8000_0000_0000)
    .badVirtualAddress

/-- One round of the loop over the program headers. -/
def parseProgramHeader (data : List Byte) (off : ℕ)
    (loads : List ProgramHeader) : Except ElfError (List ProgramHeader) :=
  let raw := ProgramHeader.read data off
  if raw.pType = 3 ∨ raw.pType = 2 then
    .error .dynamicLinkingRejected
  else if raw.pType ≠ 1 then
    .ok loads
  else do
    checkLoad raw data.length
    pure (loads ++ [raw])

/-- The loop over the first `n` program headers. -/
def parseLoads (data : List Byte) (phoff : ℕ) :
    ℕ → Except ElfError (List ProgramHeader)
  | 0 => .ok []
  | n + 1 => do
      let loads ← parseLoads data phoff n
      parseProgramHeader data (phoff + n * programHeaderSize) loads

def elfMagic : List Byte := [0x7F, 0x45, 0x4C, 0x46]

/-- The checks of `parse` on the fields of the header. -/
def ElfHeader.check (header : ElfHeader) (dataLen : ℕ) :
    Except ElfError Unit := do
  reject (header.eIdentMagic ≠ elfMagic) .badMagic
  reject (header.eIdentClass ≠ 2 ∨ header.eIdentData ≠ 1 ∨
    header.eIdentVersion ≠ 1) .unsupportedFormat
  reject (header.eMachine ≠ 62 ∨ header.eVersion ≠ 1) .unsupportedTarget
  reject (header.eType ≠ 2 ∧ header.eType ≠ 3) .unsupportedTarget
  reject (header.ePhentsize.toNat ≠ programHeaderSize) .badPhentSize
  reject (header.ePhnum.toNat > maxProgramHeaders) .tooManyHeaders
  let phoff := header.ePhoff.toNat
  let phsize := header.ePhnum.toNat * programHeaderSize
  reject (2 ^ 64 ≤ phoff + phsize) .phdrOutOfBounds
  reject (phoff + phsize > dataLen) .phdrOutOfBounds

def parse (data : List Byte) : Except ElfError Elf64Image := do
  reject (data.length < elfHeaderSize) .truncated
  let header := ElfHeader.read data
  header.check data.length
  let loads ← parseLoads data header.ePhoff.toNat header.ePhnum.toNat
  reject (¬ isUserVa (header.eEntry &&& ~~~0xFFF#64)) .badVirtualAddress
  pure { entry := header.eEntry, loads := loads, raw := data }

/-! ## Segments that are kept -/

/-- The file range of a segment lies in the file, its memory range in the user
half, and the file part fits into the memory part. -/
structure ProgramHeader.WellPlaced (ph : ProgramHeader) (dataLen : ℕ) :
    Prop where
  filesz_le : ph.pFilesz.toNat ≤ ph.pMemsz.toNat
  in_file : ph.pOffset.toNat + ph.pFilesz.toNat ≤ dataLen
  user : isUserVa ph.pVaddr = true
  in_user_half : ph.pVaddr.toNat + ph.pMemsz.toNat ≤ 2 ^ 47

theorem reject_bind_ok {c : Prop} [Decidable c] {e : ElfError} {α : Type}
    {f : Unit → Except ElfError α} {a : α}
    (h : (reject c e >>= f) = .ok a) : ¬ c ∧ f () = .ok a := by
  unfold reject at h
  by_cases hc : c
  · rw [if_pos hc] at h
    cases h
  · rw [if_neg hc] at h
    exact ⟨hc, h⟩

theorem reject_ok {c : Prop} [Decidable c] {e : ElfError}
    (h : reject c e = .ok ()) : ¬ c := by
  intro hc
  rw [reject, if_pos hc] at h
  cases h

theorem checkLoad_ok {raw : ProgramHeader} {dataLen : ℕ}
    (h : checkLoad raw dataLen = .ok ()) : raw.WellPlaced dataLen := by
  unfold checkLoad at h
  obtain ⟨hsize, h⟩ := reject_bind_ok h
  obtain ⟨-, h⟩ := reject_bind_ok h
  obtain ⟨-, h⟩ := reject_bind_ok h
  obtain ⟨-, h⟩ := reject_bind_ok h
  obtain ⟨hfile, h⟩ := reject_bind_ok h
  obtain ⟨huser, h⟩ := reject_bind_ok h
  obtain ⟨-, h⟩ := reject_bind_ok h
  have hend : ¬ raw.pVaddr.toNat + raw.pMemsz.toNat > 2 ^ 47 := reject_ok h
  exact ⟨Nat.le_of_not_lt hsize, Nat.le_of_not_lt hfile, not_not.mp huser,
    Nat.le_of_not_lt hend⟩

theorem checkLoad_offset_lt {raw : ProgramHeader} {dataLen : ℕ}
    (h : checkLoad raw dataLen = .ok ()) :
    raw.pOffset.toNat + raw.pFilesz.toNat < 2 ^ 64 := by
  unfold checkLoad at h
  obtain ⟨-, h⟩ := reject_bind_ok h
  obtain ⟨-, h⟩ := reject_bind_ok h
  obtain ⟨-, h⟩ := reject_bind_ok h
  obtain ⟨hword, -⟩ := reject_bind_ok h
  exact Nat.lt_of_not_le hword

theorem parseProgramHeader_ok {data : List Byte} {off : ℕ}
    {loads loads' : List ProgramHeader}
    (h : parseProgramHeader data off loads = .ok loads') :
    loads' = loads ∨ ∃ raw : ProgramHeader,
      loads' = loads ++ [raw] ∧ checkLoad raw data.length = .ok () := by
  unfold parseProgramHeader at h
  dsimp only at h
  split at h
  · cases h
  split at h
  · cases h
    exact .inl rfl
  · cases hcheck : checkLoad (ProgramHeader.read data off) data.length with
    | error e =>
      rw [hcheck] at h
      cases h
    | ok u =>
      rw [hcheck] at h
      cases h
      exact .inr ⟨_, rfl, hcheck⟩

theorem parseLoads_ok {data : List Byte} {phoff n : ℕ}
    {loads : List ProgramHeader} (h : parseLoads data phoff n = .ok loads) :
    ∀ ph ∈ loads, checkLoad ph data.length = .ok () := by
  induction n generalizing loads with
  | zero =>
    cases h
    simp
  | succ n ih =>
    rw [parseLoads] at h
    cases hprev : parseLoads data phoff n with
    | error e =>
      rw [hprev] at h
      cases h
    | ok previous =>
      rw [hprev] at h
      intro ph hmem
      rcases parseProgramHeader_ok h with rfl | ⟨raw, rfl, hraw⟩
      · exact ih hprev ph hmem
      · rcases List.mem_append.mp hmem with hold | hnew
        · exact ih hprev ph hold
        · rw [List.mem_singleton.mp hnew]
          exact hraw

theorem parse_eq_ok {data : List Byte} {image : Elf64Image}
    (h : parse data = .ok image) :
    image.raw = data ∧ parseLoads data (ElfHeader.read data).ePhoff.toNat
      (ElfHeader.read data).ePhnum.toNat = .ok image.loads := by
  unfold parse at h
  obtain ⟨-, h⟩ := reject_bind_ok h
  obtain ⟨_, -, h⟩ := exists_of_bind_eq_ok h
  obtain ⟨loads, hloads, h⟩ := exists_of_bind_eq_ok h
  obtain ⟨-, h⟩ := reject_bind_ok h
  cases h
  exact ⟨rfl, hloads⟩

theorem parse_ok {data : List Byte} {image : Elf64Image}
    (h : parse data = .ok image) :
    image.raw = data ∧ ∀ ph ∈ image.loads, ph.WellPlaced data.length := by
  obtain ⟨hraw, hloads⟩ := parse_eq_ok h
  exact ⟨hraw, fun ph hmem => checkLoad_ok (parseLoads_ok hloads ph hmem)⟩

end IsoLightK0
