import IsoLightK0.Bus.Driver
import IsoLightK0.Capability.Drbg

/-!
# The software bus

`SoftwareBus` is a 64-octet ring with one of three roles.  An echo bus appends
what is written, a hash bus replaces its content by the BLAKE3 digest of what
is written, and an encryption bus replaces it by nonce, ciphertext and tag.

The source reads into a caller-provided slice and reports a count.  Here a
read returns the octets it delivered, so the count is their number.  The
private cursor fields satisfy `read_pos ≤ write_len ≤ SW_BUS_BUF` in every
value that the source constructs, and the structure carries both facts.
-/

namespace IsoLightK0

open Bytes

def swBusBuf : ℕ := 64

def blake3OutLen : ℕ := 32

def gcmNonceSize : ℕ := 12

def gcmTagSize : ℕ := 16

structure SoftHsmAesGcmState where
  key : Buf 32
  nonceCounter : BitVec 64

@[ext] structure SoftwareBus where
  ring : Buf swBusBuf
  writeLen : ℕ
  readPos : ℕ
  openState : Bool
  role : SoftHsmRole
  aesState : Option SoftHsmAesGcmState
  readPos_le : readPos ≤ writeLen
  writeLen_le : writeLen ≤ swBusBuf

namespace SoftwareBus

def new : SoftwareBus where
  ring := Buf.zero
  writeLen := 0
  readPos := 0
  openState := false
  role := .echo
  aesState := none
  readPos_le := le_refl 0
  writeLen_le := Nat.zero_le _

/-- The state that a successful `open` commits, whatever the bus was. -/
def opened (role : SoftHsmRole) (aesState : Option SoftHsmAesGcmState) :
    SoftwareBus :=
  { new with openState := true, role := role, aesState := aesState }

/-- The role octet of an init blob; an empty blob selects `Echo`. -/
def initRole : List Byte → Option SoftHsmRole
  | [] => some .echo
  | role :: _ =>
    if role = 0 then some .echo
    else if role = 1 then some .blake3
    else if role = 2 then some .aesGcm
    else none

/-- `open`; the result is `none` while the DRBG does not return. -/
def openBus (b : SoftwareBus) (init : List Byte) (drbg : CapDrbg) :
    Option (Except BusError Unit × SoftwareBus × CapDrbg) :=
  if b.openState then
    some (.error .alreadyOpen, b, drbg)
  else
    match initRole init with
    | none => some (.error .badInit, b, drbg)
    | some role =>
      if ∃ octet ∈ init.drop 1, octet ≠ 0 then
        some (.error .badInit, b, drbg)
      else if role = .aesGcm then
        match randBytes 32 drbg with
        | none => none
        | some (.error _, drbg) => some (.error .internal, b, drbg)
        | some (.ok key, drbg) =>
          some (.ok (), opened role (some ⟨key, 0⟩), drbg)
      else
        some (.ok (), opened role none, drbg)

def close (b : SoftwareBus) : Except BusError Unit × SoftwareBus :=
  if b.openState then
    (.ok (), { new with role := b.role, aesState := b.aesState })
  else
    (.error .notOpen, b)

/-- `read` into a slice of `outLen` octets. -/
def read (b : SoftwareBus) (outLen : ℕ) :
    Except BusError (List Byte) × SoftwareBus :=
  if b.openState then
    let available := b.writeLen - b.readPos
    let n := min available outLen
    (.ok (b.ring.slice b.readPos n),
      { b with
        readPos := b.readPos + n
        readPos_le := by
          have hle := b.readPos_le
          have hn : n ≤ available := min_le_left _ _
          omega })
  else
    (.error .notOpen, b)

/-- The nonce of the `counter`-th encryption: counter and four zeros. -/
def gcmNonce (counter : BitVec 64) : Buf 12 :=
  Buf.zero.blit 0 (wordToLe 8 counter)

/-- What an encryption bus holds after encrypting `data`. -/
def gcmRecord (C : Crates) (key : Buf 32) (counter : BitVec 64)
    (data : List Byte) : List Byte :=
  let sealed := C.aes256GcmEncrypt key (gcmNonce counter) data
  (gcmNonce counter).toList ++ sealed.1.toList ++ sealed.2.toList

variable (C : Crates) (b : SoftwareBus) {data : List Byte}

@[simp] theorem length_gcmRecord (key : Buf 32) (counter : BitVec 64)
    (data : List Byte) :
    (gcmRecord C key counter data).length = data.length + 28 := by
  simp [gcmRecord]
  omega

/-- The `Echo` arm of `write`. -/
def writeEcho (b : SoftwareBus) (data : List Byte) :
    Except BusError ℕ × SoftwareBus :=
  if h : data.length > swBusBuf - b.writeLen then
    (.error .bufferTooSmall, b)
  else
    (.ok data.length,
      { b with
        ring := b.ring.blit b.writeLen data
        writeLen := b.writeLen + data.length
        readPos_le := le_trans b.readPos_le (Nat.le_add_right _ _)
        writeLen_le := by
          have hle := b.writeLen_le
          omega })

/-- The `Blake3` arm of `write`. -/
def writeBlake3 (C : Crates) (b : SoftwareBus) (data : List Byte) :
    Except BusError ℕ × SoftwareBus :=
  if swBusBuf < blake3OutLen then
    (.error .bufferTooSmall, b)
  else
    match C.blake3 data with
    | none => (.error .internal, b)
    | some digest =>
      (.ok blake3OutLen,
        { b with
          ring := b.ring.blit 0 digest.toList
          writeLen := blake3OutLen
          readPos := 0
          readPos_le := Nat.zero_le _
          writeLen_le := by decide })

/-- The `AesGcm` arm of `write`.  The ciphertext is stored behind the nonce
before nonce and tag are copied around it. -/
def writeAesGcm (C : Crates) (b : SoftwareBus) (data : List Byte) :
    Except BusError ℕ × SoftwareBus :=
  match b.aesState with
  | none => (.error .internal, b)
  | some state =>
    if state.nonceCounter = BitVec.allOnes 64 then
      (.error .internal, b)
    else
      let total := data.length + gcmNonceSize + gcmTagSize
      if h : total > swBusBuf then
        (.error .bufferTooSmall, b)
      else
        let counter := state.nonceCounter + 1
        let nonce := gcmNonce counter
        let sealed := C.aes256GcmEncrypt state.key nonce data
        let ring := b.ring.blit gcmNonceSize sealed.1.toList
        let ring := ring.blit 0 nonce.toList
        let ring := ring.blit (gcmNonceSize + data.length) sealed.2.toList
        (.ok total,
          { b with
            ring := ring
            writeLen := total
            readPos := 0
            aesState := some { state with nonceCounter := counter }
            readPos_le := Nat.zero_le _
            writeLen_le := Nat.not_lt.mp h })

def write (C : Crates) (b : SoftwareBus) (data : List Byte) :
    Except BusError ℕ × SoftwareBus :=
  if b.openState then
    match b.role with
    | .echo => b.writeEcho data
    | .blake3 => b.writeBlake3 C data
    | .aesGcm => b.writeAesGcm C data
  else
    (.error .notOpen, b)

def poll (b : SoftwareBus) : Except BusError BusReady :=
  if b.openState then
    .ok
      { readable := b.writeLen > b.readPos
        writable := b.writeLen < swBusBuf
        closed := false }
  else
    .error .notOpen

/-- `zeroize` resets every field, which is the state built by `new`. -/
def zeroize (_b : SoftwareBus) : SoftwareBus :=
  { ring := Buf.zeroized
    writeLen := 0
    readPos := 0
    openState := false
    role := .echo
    aesState := none
    readPos_le := le_refl 0
    writeLen_le := Nat.zero_le _ }

/-- Opening the bus is refused and changes nothing, or it starts a session that
does not depend on what the bus was, except that it was closed. -/
theorem openBus_cases {b b' : SoftwareBus} {init : List Byte}
    {drbg drbg' : CapDrbg} {r : Except BusError Unit}
    (h : b.openBus init drbg = some (r, b', drbg')) :
    (∃ e, r = .error e ∧ b' = b) ∨
      r = .ok () ∧ b.openState = false ∧
        new.openBus init drbg = some (.ok (), b', drbg') ∧
        ∃ role aesState, b' = opened role aesState ∧
          (role = .aesGcm ∧ (∃ key, aesState = some ⟨key, 0⟩) ∨
            role ≠ .aesGcm ∧ aesState = none) := by
  have hnew : new.openState = false := rfl
  unfold openBus at h ⊢
  rw [hnew, if_neg Bool.false_ne_true]
  by_cases hopen : b.openState = true
  · rw [if_pos hopen] at h
    cases h
    exact .inl ⟨_, rfl, rfl⟩
  · have hclosed : b.openState = false := Bool.eq_false_iff.mpr hopen
    rw [if_neg hopen] at h
    cases hrole : initRole init with
    | none =>
      rw [hrole] at h
      cases h
      exact .inl ⟨_, rfl, rfl⟩
    | some role =>
      rw [hrole] at h
      dsimp only at h ⊢
      by_cases hreserved : ∃ octet ∈ init.drop 1, octet ≠ 0
      · rw [if_pos hreserved] at h
        cases h
        exact .inl ⟨_, rfl, rfl⟩
      · rw [if_neg hreserved] at h ⊢
        by_cases haes : role = .aesGcm
        · rw [if_pos haes] at h ⊢
          rcases hrand : randBytes 32 drbg with _ | ⟨e | key, rest⟩
          · rw [hrand] at h
            cases h
          · rw [hrand] at h
            cases h
            exact .inl ⟨_, rfl, rfl⟩
          · rw [hrand] at h
            cases h
            exact .inr ⟨rfl, hclosed, rfl, role, _, rfl,
              .inl ⟨haes, key, rfl⟩⟩
        · rw [if_neg haes] at h ⊢
          cases h
          exact .inr ⟨rfl, hclosed, rfl, role, none, rfl, .inr ⟨haes, rfl⟩⟩

theorem openBus_openState {b b' : SoftwareBus} {init : List Byte}
    {drbg drbg' : CapDrbg}
    (h : b.openBus init drbg = some (.ok (), b', drbg')) :
    b'.openState = true := by
  rcases openBus_cases h with ⟨e, hr, -⟩ | ⟨-, -, -, role, aesState, rfl, -⟩
  · cases hr
  · rfl

theorem openBus_drawn {b b' : SoftwareBus} {init : List Byte}
    {drbg drbg' : CapDrbg} {r : Except BusError Unit}
    (h : b.openBus init drbg = some (r, b', drbg')) :
    DrawnFrom drbg drbg' := by
  unfold openBus at h
  split at h
  · cases h
    exact .refl drbg
  · split at h
    · cases h
      exact .refl drbg
    · split_ifs at h
      · cases h
        exact .refl drbg
      · split at h
        · cases h
        · rename_i hrand
          cases h
          exact randBytes_drawn hrand
        · rename_i hrand
          cases h
          exact randBytes_drawn hrand
      · cases h
        exact .refl drbg

/-! ## The octets that wait to be read -/

/-- The written octets that no read has delivered yet. -/
def unread (b : SoftwareBus) : List Byte :=
  b.ring.slice b.readPos (b.writeLen - b.readPos)

@[simp] theorem length_unread : b.unread.length = b.writeLen - b.readPos :=
  Buf.length_slice _ _ _

theorem read_fst (outLen : ℕ) (hopen : b.openState = true) :
    (b.read outLen).1 = .ok (b.unread.take outLen) := by
  have htake : b.unread.take outLen =
      b.ring.slice b.readPos (min (b.writeLen - b.readPos) outLen) := by
    rw [unread, ← Buf.take_slice b.ring (min_le_left _ outLen),
      List.take_eq_take_iff, Buf.length_slice]
    omega
  rw [htake]
  simp [read, hopen]

@[simp] theorem read_snd (outLen : ℕ) :
    (b.read outLen).2.openState = b.openState ∧
      (b.read outLen).2.role = b.role ∧
      (b.read outLen).2.writeLen = b.writeLen ∧
      (b.read outLen).2.ring = b.ring ∧
      (b.read outLen).2.aesState = b.aesState := by
  unfold read
  split
  · exact ⟨rfl, rfl, rfl, rfl, rfl⟩
  · exact ⟨rfl, rfl, rfl, rfl, rfl⟩

theorem unread_read (outLen : ℕ) (hopen : b.openState = true) :
    (b.read outLen).2.unread = b.unread.drop outLen := by
  have hread : (b.read outLen).2.unread =
      b.ring.slice (b.readPos + min (b.writeLen - b.readPos) outLen)
        (b.writeLen - (b.readPos + min (b.writeLen - b.readPos) outLen)) := by
    simp [read, hopen, unread]
  rw [hread, unread]
  by_cases hle : outLen ≤ b.writeLen - b.readPos
  · rw [Nat.min_eq_right hle, Buf.drop_slice _ hle, Nat.sub_add_eq]
  · have hlt : b.writeLen - b.readPos ≤ outLen := by omega
    have hempty :
        b.writeLen - (b.readPos + min (b.writeLen - b.readPos) outLen) = 0 := by
      omega
    rw [hempty, Buf.slice_zero_length, List.drop_eq_nil_of_le]
    rw [Buf.length_slice]
    exact hlt

theorem writeEcho_of_le (hfit : data.length ≤ swBusBuf - b.writeLen) :
    (b.writeEcho data).1 = .ok data.length ∧
      (b.writeEcho data).2.unread = b.unread ++ data := by
  have hpos := b.readPos_le
  have hlen := b.writeLen_le
  have hroom : b.writeLen + data.length ≤ swBusBuf := by omega
  have hkeep : (b.ring.blit b.writeLen data).slice b.readPos
      (b.writeLen - b.readPos) = b.unread := by
    apply Buf.slice_blit_disjoint _ hroom
    omega
  have htail : (b.ring.blit b.writeLen data).slice
      (b.readPos + (b.writeLen - b.readPos)) data.length = data := by
    rw [Nat.add_sub_cancel' hpos]
    exact Buf.slice_blit_of_length _ hroom rfl
  have hsplit : b.writeLen + data.length - b.readPos =
      (b.writeLen - b.readPos) + data.length := by omega
  constructor
  · simp [writeEcho, Nat.not_lt.mpr hfit]
  · simp only [writeEcho, gt_iff_lt, Nat.not_lt.mpr hfit, dite_false, unread]
    rw [hsplit, Buf.slice_add, hkeep, htail, unread]

theorem writeEcho_of_gt (hfull : swBusBuf - b.writeLen < data.length) :
    b.writeEcho data = (.error .bufferTooSmall, b) := by
  simp [writeEcho, hfull]

theorem writeBlake3_of_some {digest : Buf 32}
    (hdigest : C.blake3 data = some digest) :
    (b.writeBlake3 C data).1 = .ok blake3OutLen ∧
      (b.writeBlake3 C data).2.unread = digest.toList := by
  have hroom : ¬ swBusBuf < blake3OutLen := by decide
  constructor
  · simp [writeBlake3, hroom, hdigest]
  · simp only [writeBlake3, hroom, if_false, hdigest, unread]
    apply Buf.slice_blit_of_length
    · rw [Buf.length_toList]
      decide
    · simp [blake3OutLen]

theorem writeBlake3_of_none (hdigest : C.blake3 data = none) :
    b.writeBlake3 C data = (.error .internal, b) := by
  have hroom : ¬ swBusBuf < blake3OutLen := by decide
  simp [writeBlake3, hroom, hdigest]

theorem slice_sealed (ring : Buf swBusBuf) {nonce ct tag : List Byte}
    (hnonce : nonce.length = 12) (htag : tag.length = 16)
    (hfit : ct.length + 28 ≤ 64) :
    (((ring.blit 12 ct).blit 0 nonce).blit (12 + ct.length) tag).slice 0
        (12 + ct.length + 16) = nonce ++ ct ++ tag := by
  have hfitCt : 12 + ct.length ≤ swBusBuf := by
    unfold swBusBuf
    omega
  have hfitNonce : 0 + nonce.length ≤ swBusBuf := by
    unfold swBusBuf
    omega
  have hfitTag : 12 + ct.length + tag.length ≤ swBusBuf := by
    unfold swBusBuf
    omega
  rw [Buf.slice_add, Buf.slice_add, Nat.zero_add, Nat.zero_add,
    Buf.slice_blit_of_length _ hfitTag htag,
    Buf.slice_blit_disjoint _ hfitTag (.inl (by omega)),
    Buf.slice_blit_of_length _ hfitNonce hnonce,
    Buf.slice_blit_disjoint _ hfitTag (.inl (by omega)),
    Buf.slice_blit_disjoint _ hfitNonce (.inr (by omega)),
    Buf.slice_blit_of_length _ hfitCt rfl]

theorem writeAesGcm_of_le {state : SoftHsmAesGcmState}
    (hstate : b.aesState = some state)
    (hcounter : state.nonceCounter ≠ BitVec.allOnes 64)
    (hfit : data.length + 28 ≤ swBusBuf) :
    (b.writeAesGcm C data).1 = .ok (data.length + 28) ∧
      (b.writeAesGcm C data).2.unread =
        gcmRecord C state.key (state.nonceCounter + 1) data := by
  have hsmall : ¬ data.length + gcmNonceSize + gcmTagSize > swBusBuf := by
    simpa [gcmNonceSize, gcmTagSize] using hfit
  constructor
  · simp only [writeAesGcm, hstate, hcounter, if_false, hsmall, dite_false]
    rfl
  · simp only [writeAesGcm, hstate, hcounter, if_false, hsmall, dite_false,
      unread, gcmRecord, Nat.sub_zero]
    set nonce := gcmNonce (state.nonceCounter + 1)
    set sealed := C.aes256GcmEncrypt state.key nonce data
    have hct : sealed.1.toList.length = data.length := Buf.length_toList _
    have hroom : sealed.1.toList.length + 28 ≤ 64 := by
      rw [hct]
      exact hfit
    have hslice := slice_sealed b.ring (Buf.length_toList nonce)
      (Buf.length_toList sealed.2) hroom
    rw [hct] at hslice
    have htotal : data.length + gcmNonceSize + gcmTagSize =
        12 + data.length + 16 := by
      simp [gcmNonceSize, gcmTagSize]
      omega
    rw [htotal]
    exact hslice

theorem writeAesGcm_of_not {state : SoftHsmAesGcmState}
    (hstate : b.aesState = some state)
    (hroom : ¬ (state.nonceCounter ≠ BitVec.allOnes 64 ∧
      data.length + 28 ≤ swBusBuf)) :
    ∃ e, b.writeAesGcm C data = (.error e, b) := by
  by_cases hcounter : state.nonceCounter = BitVec.allOnes 64
  · exact ⟨.internal, by simp only [writeAesGcm, hstate, hcounter, if_true]⟩
  · have hlarge : data.length + gcmNonceSize + gcmTagSize > swBusBuf := by
      have hnot : ¬ data.length + 28 ≤ swBusBuf := fun h => hroom ⟨hcounter, h⟩
      simpa [gcmNonceSize, gcmTagSize] using hnot
    refine ⟨.bufferTooSmall, ?_⟩
    simp only [writeAesGcm, hstate, hcounter, if_false, hlarge, dite_true]

theorem write_of_closed (data : List Byte) (hclosed : b.openState = false) :
    b.write C data = (.error .notOpen, b) := by
  simp [write, hclosed]

theorem write_of_open (data : List Byte) (hopen : b.openState = true) :
    b.write C data =
      match b.role with
      | .echo => b.writeEcho data
      | .blake3 => b.writeBlake3 C data
      | .aesGcm => b.writeAesGcm C data := by
  simp [write, hopen]

/-- The count that a write to an open bus reports and the octets that wait
afterwards, or `none` for a refused write. -/
def accepted (C : Crates) (b : SoftwareBus) (data : List Byte) :
    Option (ℕ × List Byte) :=
  match b.role with
  | .echo =>
    if data.length ≤ swBusBuf - b.writeLen then
      some (data.length, b.unread ++ data)
    else
      none
  | .blake3 =>
    (C.blake3 data).map fun digest => (blake3OutLen, digest.toList)
  | .aesGcm =>
    match b.aesState with
    | none => none
    | some state =>
      if state.nonceCounter ≠ BitVec.allOnes 64 ∧
          data.length + 28 ≤ swBusBuf then
        some (data.length + 28,
          gcmRecord C state.key (state.nonceCounter + 1) data)
      else
        none

/-- Every write to an open bus does what `accepted` says, and a refused one
changes nothing. -/
theorem write_spec (data : List Byte) (hopen : b.openState = true) :
    (∃ n held, b.accepted C data = some (n, held) ∧
        (b.write C data).1 = .ok n ∧ (b.write C data).2.unread = held) ∨
      (b.accepted C data = none ∧ ∃ e, b.write C data = (.error e, b)) := by
  rw [write_of_open C b data hopen]
  cases hrole : b.role with
  | echo =>
    simp only [accepted, hrole]
    by_cases hfit : data.length ≤ swBusBuf - b.writeLen
    · rw [if_pos hfit]
      exact .inl ⟨_, _, rfl, writeEcho_of_le b hfit⟩
    · rw [if_neg hfit]
      exact .inr ⟨rfl, _, writeEcho_of_gt b (Nat.not_le.mp hfit)⟩
  | blake3 =>
    simp only [accepted, hrole]
    cases hdigest : C.blake3 data with
    | none => exact .inr ⟨rfl, _, writeBlake3_of_none C b hdigest⟩
    | some digest =>
      exact .inl ⟨_, _, rfl, writeBlake3_of_some C b hdigest⟩
  | aesGcm =>
    simp only [accepted, hrole]
    cases hstate : b.aesState with
    | none => exact .inr ⟨rfl, .internal, by simp [writeAesGcm, hstate]⟩
    | some state =>
      dsimp only
      split_ifs with hroom
      · exact .inl ⟨_, _, rfl, writeAesGcm_of_le C b hstate hroom.1 hroom.2⟩
      · exact .inr ⟨rfl, writeAesGcm_of_not C b hstate hroom⟩

end SoftwareBus

end IsoLightK0
