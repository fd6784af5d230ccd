import IsoLightK0.Registry.BusWrite
import IsoLightK0.Syscall.Handlers

/-!
# Relay between two slots

`handle_relay` reads from the source bus and then writes what it read to the
destination bus.  The read is destructive and comes first, and nothing is
undone when a later step fails.  A relay is therefore atomic only if the
source has nothing to give, or gives exactly the requested octets to a
destination that reports that many accepted.
-/

namespace IsoLightK0

open Bytes Triples Handler

namespace BusInstance

def waiting : BusInstance → List Byte
  | software s => s.unread
  | ring3Process r => r.pendingResponse.slice 0 r.responseLen
  | _ => []

/-- The octets that a read of `n` octets delivers, or `none` if it is
refused. -/
def offers (b : BusInstance) (n : ℕ) : Option (List Byte) :=
  match b with
  | software s => if s.openState then some (s.unread.take n) else none
  | ring3Process r =>
    if r.openState = true ∧ r.responseLen ≠ 0 ∧ r.responseLen ≤ n then
      some (r.pendingResponse.slice 0 r.responseLen)
    else
      none
  | _ => none

end BusInstance

theorem SoftwareBus.read_eq_self_iff (s : SoftwareBus) (n : ℕ)
    (hopen : s.openState = true) :
    (s.read n).2 = s ↔ s.unread.take n = [] := by
  have hread : (s.read n).2.readPos =
      s.readPos + min (s.writeLen - s.readPos) n := by
    simp [read, hopen]
  have hlen : (s.unread.take n).length = min (s.writeLen - s.readPos) n := by
    rw [List.length_take, length_unread, min_comm]
  rw [← List.length_eq_zero_iff, hlen]
  constructor
  · intro hsame
    rw [hsame] at hread
    omega
  · intro hzero
    have hpos : s.readPos + min (s.writeLen - s.readPos) n = s.readPos := by
      omega
    ext1
    · simp [read, hopen]
    · simp [read, hopen]
    · rw [hread, hpos]
    · simp [read, hopen]
    · simp [read, hopen]
    · simp [read, hopen]

theorem Ring3ProcessBus.read_of_offer (r : Ring3ProcessBus) (n : ℕ)
    (h : r.openState = true ∧ r.responseLen ≠ 0 ∧ r.responseLen ≤ n) :
    r.read n = (.ok (r.pendingResponse.slice 0 r.responseLen),
      { r with
        pendingResponse := Buf.zero
        responseLen := 0
        responseLen_le := Nat.zero_le _ }) := by
  have hsmall : ¬ n < r.responseLen := Nat.not_lt.mpr h.2.2
  simp [read, h.1, h.2.1, hsmall]

theorem Ring3ProcessBus.read_of_refusal (r : Ring3ProcessBus) (n : ℕ)
    (h : ¬ (r.openState = true ∧ r.responseLen ≠ 0 ∧ r.responseLen ≤ n)) :
    ∃ e, r.read n = (.error e, r) := by
  unfold read
  split
  · exact ⟨_, rfl⟩
  · rename_i hopen
    split
    · exact ⟨_, rfl⟩
    · rename_i hlen
      split
      · exact ⟨_, rfl⟩
      · rename_i hsmall
        have hopen' : r.openState = true := by simpa using hopen
        exact (h ⟨hopen', hlen, Nat.not_lt.mp hsmall⟩).elim

namespace BusInstance

/-- A read delivers what the bus offers and leaves the rest; a refused read
leaves the bus as it is. -/
theorem read_spec (b : BusInstance) (n : ℕ) :
    (∃ bytes, b.offers n = some bytes ∧ (b.read n).1 = .ok bytes ∧
        b.waiting = bytes ++ (b.read n).2.waiting ∧
        ((b.read n).2 = b ↔ bytes = [])) ∨
      (b.offers n = none ∧ ∃ e, b.read n = (.error e, b)) := by
  cases b with
  | software s =>
    cases hopen : s.openState with
    | false =>
      refine .inr ⟨by simp [offers, hopen], .notOpen, ?_⟩
      simp [read, SoftwareBus.read, hopen]
    | true =>
      refine .inl ⟨s.unread.take n, by simp [offers, hopen],
        s.read_fst n hopen, ?_, ?_⟩
      · show s.unread = s.unread.take n ++ (s.read n).2.unread
        rw [s.unread_read n hopen, List.take_append_drop]
      · rw [← s.read_eq_self_iff n hopen]
        exact ⟨fun h => software.inj h, congrArg software⟩
  | ring3Process r =>
    by_cases hoffer : r.openState = true ∧ r.responseLen ≠ 0 ∧ r.responseLen ≤ n
    · have hread := r.read_of_offer n hoffer
      refine .inl ⟨_, if_pos hoffer, ?_, ?_, ?_⟩
      · show (r.read n).1 = _
        rw [hread]
      · show _ = _ ++ waiting (ring3Process (r.read n).2)
        rw [hread]
        simp [waiting]
      · show ring3Process (r.read n).2 = ring3Process r ↔ _
        rw [hread]
        constructor
        · intro hsame
          have hlen := congrArg Ring3ProcessBus.responseLen
            (ring3Process.inj hsame)
          exact (hoffer.2.1 hlen.symm).elim
        · intro hnil
          have hlen := congrArg List.length hnil
          rw [Buf.length_slice] at hlen
          exact (hoffer.2.1 hlen).elim
    · obtain ⟨e, hread⟩ := r.read_of_refusal n hoffer
      refine .inr ⟨if_neg hoffer, e, ?_⟩
      show ((r.read n).1, ring3Process (r.read n).2) = _
      rw [hread]
  | empty | usb | spi | serial | smartCard | network =>
    exact .inr ⟨rfl, _, rfl⟩

end BusInstance

/-! ## What a bus reports for a write -/

namespace SoftwareBus

/-- A hash bus that holds exactly the digest of `bytes`, none of it read. -/
def HoldsDigestOf (C : Crates) (s : SoftwareBus) (bytes : List Byte) : Prop :=
  s.role = .blake3 ∧ s.readPos = 0 ∧ s.writeLen = 32 ∧
    (C.blake3 bytes).map Buf.toList = some s.unread

/-- A bus that takes `bytes` and reports their number: an echo bus with room,
or a hash bus given 32 octets.  An encryption bus reports 28 octets more than
it was given. -/
def TakesAll (C : Crates) (s : SoftwareBus) (bytes : List Byte) : Prop :=
  s.openState = true ∧
    match s.role with
    | .echo => bytes.length ≤ swBusBuf - s.writeLen
    | .blake3 => bytes.length = 32 ∧ (C.blake3 bytes).isSome
    | .aesGcm => False

variable (C : Crates) (s : SoftwareBus) (n : ℕ)

theorem accepted_eq_length_iff {s : SoftwareBus} (hopen : s.openState = true)
    (bytes : List Byte) :
    (∃ held, s.accepted C bytes = some (bytes.length, held)) ↔
      s.TakesAll C bytes := by
  unfold TakesAll accepted
  cases s.role with
  | echo => simp [hopen]
  | blake3 =>
    cases C.blake3 bytes with
    | none => simp
    | some digest => simp [hopen, blake3OutLen, eq_comm]
  | aesGcm =>
    cases s.aesState with
    | none => simp
    | some state => simp

theorem takesAll_read_iff (bytes : List Byte) :
    (s.read n).2.TakesAll C bytes ↔ s.TakesAll C bytes := by
  simp only [TakesAll, read_snd]

/-- A hash write leaves the bus that was just read as it was before exactly
when the bus held the digest of the octets. -/
theorem writeBlake3_read_eq_self_iff {bytes : List Byte} {digest : Buf 32}
    (hrole : s.role = .blake3) (hdigest : C.blake3 bytes = some digest) :
    ((s.read n).2.writeBlake3 C bytes).2 = s ↔ s.HoldsDigestOf C bytes := by
  have hroom : ¬ swBusBuf < 32 := by decide
  have hfit : 0 + digest.toList.length ≤ swBusBuf := by
    rw [Buf.length_toList]
    decide
  have hring : s.ring.blit 0 digest.toList = s.ring ↔
      s.ring.slice 0 32 = digest.toList := by
    rw [Buf.blit_eq_self_iff s.ring hfit, Buf.length_toList]
  have hfields : ((s.read n).2.writeBlake3 C bytes).2 = s ↔
      s.ring.blit 0 digest.toList = s.ring ∧ 32 = s.writeLen ∧
        0 = s.readPos := by
    rw [SoftwareBus.ext_iff]
    simp [writeBlake3, hroom, hdigest, blake3OutLen]
  rw [hfields, hring]
  unfold HoldsDigestOf
  rw [hdigest, Option.map_some, Option.some.injEq]
  constructor
  · rintro ⟨hslice, hlen, hpos⟩
    refine ⟨hrole, hpos.symm, hlen.symm, ?_⟩
    rw [unread, ← hpos, ← hlen]
    exact hslice.symm
  · rintro ⟨-, hpos, hlen, hheld⟩
    refine ⟨?_, hlen.symm, hpos.symm⟩
    rw [unread, hpos, hlen] at hheld
    exact hheld.symm

theorem writeAesGcm_snd_ne (b : SoftwareBus) {bytes : List Byte}
    {state : SoftHsmAesGcmState} (hstate : b.aesState = some state)
    (hroom : state.nonceCounter ≠ BitVec.allOnes 64 ∧
      bytes.length + 28 ≤ swBusBuf) :
    (b.writeAesGcm C bytes).2.aesState ≠ b.aesState := by
  have hsmall : ¬ bytes.length + gcmNonceSize + gcmTagSize > swBusBuf := by
    simpa [gcmNonceSize, gcmTagSize] using hroom.2
  have hcounter : state.nonceCounter + 1 ≠ state.nonceCounter := by
    simp
  intro hsame
  simp only [writeAesGcm, hstate, hroom.1, if_false, hsmall, dite_false,
    Option.some.injEq] at hsame
  exact hcounter (congrArg SoftHsmAesGcmState.nonceCounter hsame)

/-- Writing back to the bus that was just read, with another count than the
number of octets, restores it only on a hash bus that held their digest. -/
theorem write_read_eq_self_iff (bytes : List Byte) (hopen : s.openState = true)
    {k : ℕ} {held : List Byte}
    (haccepted : (s.read n).2.accepted C bytes = some (k, held))
    (hk : k ≠ bytes.length) :
    ((s.read n).2.write C bytes).2 = s ↔ s.HoldsDigestOf C bytes := by
  have hopen' : (s.read n).2.openState = true := (s.read_snd n).1.trans hopen
  rw [write_of_open C _ bytes hopen']
  unfold accepted at haccepted
  rw [(s.read_snd n).2.1] at haccepted ⊢
  cases hrole : s.role with
  | echo =>
    simp only [hrole] at haccepted
    split_ifs at haccepted
    cases haccepted
    exact (hk rfl).elim
  | blake3 =>
    simp only [hrole] at haccepted ⊢
    obtain ⟨digest, hdigest, -⟩ := Option.map_eq_some_iff.mp haccepted
    exact writeBlake3_read_eq_self_iff C s n hrole hdigest
  | aesGcm =>
    simp only [hrole] at haccepted ⊢
    cases hstate : (s.read n).2.aesState with
    | none =>
      rw [hstate] at haccepted
      cases haccepted
    | some state =>
      simp only [hstate] at haccepted
      split_ifs at haccepted with hroom
      have hmoved := writeAesGcm_snd_ne C (s.read n).2 hstate hroom
      rw [(s.read_snd n).2.2.2.2] at hmoved
      constructor
      · intro hsame
        exact (hmoved (congrArg SoftwareBus.aesState hsame)).elim
      · intro hholds
        rw [HoldsDigestOf, hrole] at hholds
        cases hholds.1

theorem HoldsDigestOf.accepted_read {C : Crates} {s : SoftwareBus}
    {bytes : List Byte} (h : s.HoldsDigestOf C bytes) (n : ℕ) :
    ∃ held, (s.read n).2.accepted C bytes = some (blake3OutLen, held) := by
  obtain ⟨hrole, -, -, hdigest⟩ := h
  obtain ⟨digest, hsome, -⟩ := Option.map_eq_some_iff.mp hdigest
  exact ⟨digest.toList, by simp [accepted, hrole, hsome]⟩

end SoftwareBus

/-! ## The transfer -/

namespace Kernel

/-- The destination takes the octets and reports their number.  A wire bus
that is its own source has just been emptied. -/
def TakesAll (C : Crates) (K : Kernel) (src dst : SlotIdx)
    (bytes : List Byte) : Prop :=
  match K.bus dst with
  | .software d => d.TakesAll C bytes
  | .ring3Process r =>
    r.openState = true ∧
      (16 ≤ bytes.length ∧ bytes.length ≤ wireFrameMax) ∧
      (r.responseLen = 0 ∨ src = dst) ∧ Wire.RequestWellFormed bytes
  | _ => False

/-- The condition under which a transfer of `n` octets is atomic.  Either the
source offers nothing, or it offers all octets and the destination takes them
all.  The one coincidence is a hash bus relayed to itself whose digest of the
octets is what it held. -/
def RelaySafe (C : Crates) (K : Kernel) (src dst : SlotIdx) (n : ℕ) : Prop :=
  ∀ bytes, (K.bus src).offers n = some bytes →
    bytes = [] ∨
      (bytes.length = n ∧
        (K.TakesAll C src dst bytes ∨
          (src = dst ∧
            ∃ s, K.bus src = .software s ∧ s.HoldsDigestOf C bytes)))

/-- The destination as the write finds it. -/
def TargetTakes (C : Crates) (bytes : List Byte) : BusInstance → Prop
  | .software d => d.TakesAll C bytes
  | .ring3Process r => AcceptsFrame r bytes
  | _ => False

theorem bus_busRead_self (K : Kernel) (i : SlotIdx) (n : ℕ) :
    (K.busRead i n).2.bus i = ((K.bus i).read n).2 :=
  bus_setBus_self K i _

variable {i : SlotIdx} (C : Crates) {K : Kernel} {src dst : SlotIdx} {n : ℕ}
  {bytes : List Byte}

theorem bus_busRead_of_ne (K : Kernel) {j : SlotIdx} (n : ℕ) (h : j ≠ i) :
    (K.busRead i n).2.bus j = K.bus j :=
  bus_setBus_of_ne K _ h

theorem takesAll_iff_target (hoffer : (K.bus src).offers n = some bytes) :
    K.TakesAll C src dst bytes ↔
      TargetTakes C bytes ((K.busRead src n).2.bus dst) := by
  by_cases hsame : src = dst
  · subst hsame
    rw [bus_busRead_self]
    unfold TakesAll
    cases hbus : K.bus src with
    | software s => exact (s.takesAll_read_iff C n bytes).symm
    | ring3Process r =>
      rw [hbus, BusInstance.offers] at hoffer
      split_ifs at hoffer with hready
      have hread := r.read_of_offer n hready
      simp only [TargetTakes, BusInstance.read, hread, AcceptsFrame]
      simp
    | empty | usb | spi | serial | smartCard | network => exact Iff.rfl
  · rw [bus_busRead_of_ne K n (Ne.symm hsame)]
    unfold TakesAll
    cases K.bus dst with
    | software d => exact Iff.rfl
    | ring3Process r => simp [TargetTakes, AcceptsFrame, hsame]
    | empty | usb | spi | serial | smartCard | network => exact Iff.rfl

theorem busWrite_target_cases (K : Kernel) (dst : SlotIdx) (bytes : List Byte) :
    (TargetTakes C bytes (K.bus dst) ∧
        ∃ K', K.busWrite C dst bytes = some (.ok bytes.length, K')) ∨
      (¬ TargetTakes C bytes (K.bus dst) ∧
        ((∃ e, K.busWrite C dst bytes = some (.error e, K) ∧
            ∀ d k held, K.bus dst = .software d → d.openState = true →
              d.accepted C bytes ≠ some (k, held)) ∨
          ∃ d k held, K.bus dst = .software d ∧ d.openState = true ∧
            d.accepted C bytes = some (k, held) ∧ k ≠ bytes.length ∧
            K.busWrite C dst bytes =
              some (.ok k, K.setBus dst (.software (d.write C bytes).2)))) := by
  cases hbus : K.bus dst with
  | software d =>
    have hwrite := busWrite_software C hbus bytes
    have hself : K.setBus dst (.software d) = K := by
      rw [← hbus, setBus_bus]
    cases hopen : d.openState with
    | false =>
      rw [d.write_of_closed C bytes hopen, hself] at hwrite
      refine .inr ⟨?_, .inl ⟨_, hwrite, ?_⟩⟩
      · intro htakes
        rw [TargetTakes, SoftwareBus.TakesAll, hopen] at htakes
        cases htakes.1
      · rintro _ k held ⟨⟩ hopen'
        rw [hopen] at hopen'
        cases hopen'
    | true =>
      have htakes := SoftwareBus.accepted_eq_length_iff C hopen bytes
      rcases d.write_spec C bytes hopen with
        ⟨k, held, haccepted, hok, -⟩ | ⟨haccepted, e, hrefused⟩
      · rw [hok] at hwrite
        by_cases hk : k = bytes.length
        · subst hk
          exact .inl ⟨htakes.mp ⟨held, haccepted⟩, _, hwrite⟩
        · refine .inr ⟨?_, Or.inr
            ⟨d, k, held, rfl, hopen, haccepted, hk, hwrite⟩⟩
          intro h
          obtain ⟨held', hsame⟩ := htakes.mpr h
          rw [haccepted] at hsame
          cases hsame
          exact hk rfl
      · rw [hrefused, hself] at hwrite
        refine .inr ⟨?_, .inl ⟨e, hwrite, ?_⟩⟩
        · intro h
          obtain ⟨held, hsome⟩ := htakes.mpr h
          rw [haccepted] at hsome
          cases hsome
        · rintro _ k held ⟨⟩ -
          rw [haccepted]
          exact fun h => (nomatch h)
  | ring3Process r =>
    rcases K.busWrite_ring3_cases C hbus bytes with
      ⟨hrefused, e, hwrite⟩ | ⟨haccepts, build, K₁, -, -, -, hwrite⟩
    · refine .inr ⟨hrefused, .inl ⟨e, hwrite, ?_⟩⟩
      intro d k held hsoft
      cases hsoft
    · exact .inl ⟨haccepts, _, hwrite⟩
  | empty | usb | spi | serial | smartCard | network =>
    have hwrite := busWrite_eq C K dst bytes
    simp only [Wire.busWriteBody, hbus] at hwrite
    refine .inr ⟨fun h => h, .inl ⟨_, hwrite, ?_⟩⟩
    intro d k held hsoft
    cases hsoft

theorem relayTransfer_eq (K : Kernel) {srcSlot dstSlot : ℕ} (n : ℕ)
    (hsrc : HsmRegistry.slotIdx? srcSlot = some src)
    (hdst : HsmRegistry.slotIdx? dstSlot = some dst) :
    K.relayTransfer C srcSlot dstSlot n =
      match (K.bus src).offers n with
      | none => some (.error .internal, K)
      | some bytes =>
        if bytes.length ≠ n then
          some (.error .internal, (K.busRead src n).2)
        else
          match (K.busRead src n).2.busWrite C dst bytes with
          | none => none
          | some (.error _, K) => some (.error .internal, K)
          | some (.ok accepted, K) =>
            if accepted ≠ n then some (.error .internal, K)
            else some (.ok (), K) := by
  unfold relayTransfer
  rw [hsrc, hdst]
  rcases (K.bus src).read_spec n with
    ⟨bytes, hoffer, hread, -, -⟩ | ⟨hoffer, e, hread⟩
  · rw [hoffer]
    dsimp only
    rcases hstep : K.busRead src n with ⟨r, K₁⟩
    have hr : r = .ok bytes := (congrArg Prod.fst hstep).symm.trans hread
    subst hr
    rfl
  · rw [hoffer]
    simp only [busRead, hread, setBus_bus]

/-- A failed transfer leaves both buses as they were. -/
def TransferKeeps (C : Crates) (K : Kernel) (srcSlot dstSlot n : ℕ)
    (src dst : SlotIdx) : Prop :=
  ∀ e K', K.relayTransfer C srcSlot dstSlot n = some (.error e, K') →
    K'.bus src = K.bus src ∧ K'.bus dst = K.bus dst

/-- A transfer that has failed is judged by the state it left. -/
theorem transferKeeps_iff_of_error {C : Crates} {K' : Kernel}
    {srcSlot dstSlot : ℕ} {e : SyscallError}
    (h : K.relayTransfer C srcSlot dstSlot n = some (.error e, K')) :
    K.TransferKeeps C srcSlot dstSlot n src dst ↔
      K'.bus src = K.bus src ∧ K'.bus dst = K.bus dst := by
  constructor
  · intro hkeeps
    exact hkeeps e K' h
  · intro hsame e' K'' h'
    rw [h] at h'
    cases h'
    exact hsame

theorem busRead_keeps_iff (hoffer : (K.bus src).offers n = some bytes)
    (dst : SlotIdx) :
    ((K.busRead src n).2.bus src = K.bus src ∧
        (K.busRead src n).2.bus dst = K.bus dst) ↔ bytes = [] := by
  have hsrc : (K.busRead src n).2.bus src = K.bus src ↔ bytes = [] := by
    rw [bus_busRead_self]
    rcases (K.bus src).read_spec n with
      ⟨bytes', hoffer', -, -, hsame⟩ | ⟨hnone, -⟩
    · rw [hoffer] at hoffer'
      cases hoffer'
      exact hsame
    · rw [hoffer] at hnone
      cases hnone
  rw [hsrc]
  constructor
  · exact fun h => h.1
  · intro hnil
    refine ⟨hnil, ?_⟩
    by_cases hdst : dst = src
    · rw [hdst]
      exact hsrc.mpr hnil
    · exact bus_busRead_of_ne K n hdst

theorem exists_software_of_busRead {d : SoftwareBus}
    (h : (K.busRead i n).2.bus i = .software d) :
    ∃ s, K.bus i = .software s ∧ d = (s.read n).2 := by
  rw [bus_busRead_self] at h
  cases hbus : K.bus i with
  | software s =>
    rw [hbus] at h
    exact ⟨s, rfl, (BusInstance.software.inj h).symm⟩
  | ring3Process r =>
    rw [hbus] at h
    cases h
  | empty | usb | spi | serial | smartCard | network =>
    rw [hbus] at h
    cases h

theorem openState_of_offers {s : SoftwareBus} (hbus : K.bus i = .software s)
    (hoffer : (K.bus i).offers n = some bytes) : s.openState = true := by
  rw [hbus, BusInstance.offers] at hoffer
  split_ifs at hoffer with hopen
  exact hopen

section Transfer

variable {C : Crates} {K : Kernel} {srcSlot dstSlot : ℕ} {src dst : SlotIdx}
  {n : ℕ} {bytes : List Byte}
  (hsrc : HsmRegistry.slotIdx? srcSlot = some src)
  (hdst : HsmRegistry.slotIdx? dstSlot = some dst)

include hsrc hdst

theorem transferKeeps_of_refusal (hoffer : (K.bus src).offers n = none) :
    K.TransferKeeps C srcSlot dstSlot n src dst := by
  intro e K' h
  rw [relayTransfer_eq C K n hsrc hdst, hoffer] at h
  cases h
  exact ⟨rfl, rfl⟩

theorem transferKeeps_of_short (hoffer : (K.bus src).offers n = some bytes)
    (hlen : bytes.length ≠ n) :
    K.TransferKeeps C srcSlot dstSlot n src dst ↔ bytes = [] := by
  have htransfer := relayTransfer_eq C K n hsrc hdst
  simp only [hoffer, hlen, ne_eq, not_false_eq_true, if_true] at htransfer
  rw [← busRead_keeps_iff hoffer dst]
  exact transferKeeps_iff_of_error htransfer

/-- A full read is kept only if the destination takes it all, or if the write
restores the one bus that is both source and destination. -/
theorem transferKeeps_of_full (hoffer : (K.bus src).offers n = some bytes)
    (hlen : bytes.length = n) (hn : 0 < n) :
    K.TransferKeeps C srcSlot dstSlot n src dst ↔
      K.TakesAll C src dst bytes ∨
        (src = dst ∧
          ∃ s, K.bus src = .software s ∧ s.HoldsDigestOf C bytes) := by
  have htransfer := relayTransfer_eq C K n hsrc hdst
  simp only [hoffer, hlen, ne_eq, not_true_eq_false, if_false] at htransfer
  have hne : bytes ≠ [] := by
    rintro rfl
    rw [← hlen] at hn
    cases hn
  have hlost : (K.busRead src n).2.bus src ≠ K.bus src := by
    intro hsame
    have hboth := busRead_keeps_iff hoffer src
    exact hne (hboth.mp ⟨hsame, hsame⟩)
  rw [takesAll_iff_target C hoffer]
  rcases busWrite_target_cases C (K.busRead src n).2 dst bytes with
    ⟨htakes, K', hwrite⟩ |
    ⟨htakes, ⟨e, hwrite, hnot⟩ | ⟨d, k, held, hbus, hopen, hacc, hk, hwrite⟩⟩
  · simp only [hwrite, hlen, not_true_eq_false, if_false] at htransfer
    refine ⟨fun _ => .inl htakes, fun _ e K'' h => ?_⟩
    rw [htransfer] at h
    cases h
  · simp only [hwrite] at htransfer
    constructor
    · intro hkeeps
      exact (hlost (hkeeps _ _ htransfer).1).elim
    · rintro (h | ⟨rfl, s, hs, hholds⟩)
      · exact (htakes h).elim
      · obtain ⟨held, haccepted⟩ := hholds.accepted_read n
        have hafter : (K.busRead src n).2.bus src =
            .software (s.read n).2 := by
          rw [bus_busRead_self, hs]
          rfl
        have hopen : (s.read n).2.openState = true :=
          (s.read_snd n).1.trans (openState_of_offers hs hoffer)
        exact (hnot _ _ _ hafter hopen haccepted).elim
  · have hcount : k ≠ n := by
      rw [← hlen]
      exact hk
    simp only [hwrite, hcount, not_false_eq_true, if_true] at htransfer
    rw [transferKeeps_iff_of_error htransfer]
    by_cases hsame : src = dst
    · subst hsame
      obtain ⟨s, hs, rfl⟩ := exists_software_of_busRead hbus
      have hopen' := openState_of_offers hs hoffer
      have hrestore := s.write_read_eq_self_iff C n bytes hopen' hacc hk
      rw [bus_setBus_self, hs, and_self, BusInstance.software.injEq, hrestore]
      constructor
      · intro h
        exact .inr ⟨rfl, s, rfl, h⟩
      · rintro (h | ⟨-, s', hs', h⟩)
        · exact (htakes h).elim
        · cases hs'
          exact h
    · rw [bus_setBus_of_ne _ _ hsame]
      constructor
      · intro h
        exact (hlost h.1).elim
      · rintro (h | ⟨h, -⟩)
        · exact (htakes h).elim
        · exact (hsame h).elim

/-- A transfer leaves both buses as they were when it fails, if and only if
the state before it was safe. -/
theorem transferKeeps_iff (hn : 0 < n) :
    K.TransferKeeps C srcSlot dstSlot n src dst ↔ K.RelaySafe C src dst n := by
  unfold RelaySafe
  cases hoffer : (K.bus src).offers n with
  | none =>
    refine ⟨fun _ _ h => (nomatch h), fun _ => ?_⟩
    exact transferKeeps_of_refusal hsrc hdst hoffer
  | some bytes =>
    by_cases hlen : bytes.length = n
    · rw [transferKeeps_of_full hsrc hdst hoffer hlen hn]
      constructor
      · rintro h _ ⟨⟩
        exact .inr ⟨hlen, h⟩
      · intro h
        rcases h bytes rfl with rfl | ⟨-, h⟩
        · rw [← hlen] at hn
          cases hn
        · exact h
    · rw [transferKeeps_of_short hsrc hdst hoffer hlen]
      constructor
      · rintro h _ ⟨⟩
        exact .inl h
      · intro h
        rcases h bytes rfl with hnil | ⟨hlen', -⟩
        · exact hnil
        · exact (hlen hlen').elim

theorem relayTransfer_returns (C : Crates) (K : Kernel) (n : ℕ) :
    ∃ result K', K.relayTransfer C srcSlot dstSlot n = some (result, K') := by
  rw [relayTransfer_eq C K n hsrc hdst]
  cases (K.bus src).offers n with
  | none => exact ⟨_, _, rfl⟩
  | some bytes =>
    dsimp only
    split_ifs
    · exact ⟨_, _, rfl⟩
    · obtain ⟨written, K', hwrite, -⟩ :=
        (K.busRead src n).2.busWrite_returns C dst bytes
      rw [hwrite]
      cases written with
      | error e => exact ⟨_, _, rfl⟩
      | ok accepted =>
        dsimp only
        split_ifs
        · exact ⟨_, _, rfl⟩
        · exact ⟨_, _, rfl⟩

/-- A successful transfer took the next octets of the source, and the write of
exactly these to the destination reported all of them accepted. -/
theorem relayTransfer_moved {K' : Kernel}
    (h : K.relayTransfer C srcSlot dstSlot n = some (.ok (), K')) :
    ∃ bytes, bytes.length = n ∧
      (K.bus src).waiting =
        bytes ++ ((K.busRead src n).2.bus src).waiting ∧
      (K.busRead src n).2.busWrite C dst bytes = some (.ok n, K') := by
  rw [relayTransfer_eq C K n hsrc hdst] at h
  rcases (K.bus src).read_spec n with
    ⟨bytes, hoffer, -, hwaiting, -⟩ | ⟨hoffer, -⟩
  · rw [hoffer] at h
    have hlen : bytes.length = n := by
      by_contra hshort
      simp [hshort] at h
    refine ⟨bytes, hlen, ?_, ?_⟩
    · rw [bus_busRead_self]
      exact hwaiting
    · simp only [hlen, ne_eq, not_true_eq_false, if_false] at h
      split at h
      · cases h
      · cases h
      · rename_i accepted K₂ hwrite
        split_ifs at h with hcount
        · cases h
          rw [hwrite, hcount]
        · cases h
  · rw [hoffer] at h
    cases h

end Transfer

end Kernel

/-! ## The relay call -/

section Call

variable (C : Crates) (ctx : SyscallContext) (start : Machine)

/-- The capabilities that the call finds in user memory. -/
def relaySrcCap : HsmCapability :=
  HsmCapability.ofBytes (start.user.read ctx.arg0.toNat 16)

def relayDstCap : HsmCapability :=
  HsmCapability.ofBytes (start.user.read ctx.arg1.toNat 16)

/-- The call passes its argument checks and both authentications. -/
structure RelayAccepted : Prop where
  len : ctx.arg2.toNat < chanMax + 1 ∧ ctx.arg2.toNat ≠ 0
  srcRange : userRangeOk ctx.arg0 capSize = true
  dstRange : userRangeOk ctx.arg1 capSize = true
  srcAuth : start.kernel.registry.authenticate (relaySrcCap ctx start)
    HsmRights.relaySrc = true
  dstAuth : start.kernel.registry.authenticate (relayDstCap ctx start)
    HsmRights.relayDst = true

variable {ctx start} in
theorem RelayAccepted.slots (h : RelayAccepted ctx start) :
    ∃ src dst,
      HsmRegistry.slotIdx? (relaySrcCap ctx start).slot.toNat = some src ∧
      HsmRegistry.slotIdx? (relayDstCap ctx start).slot.toNat = some dst := by
  obtain ⟨src, hsrc, -⟩ := (HsmRegistry.authenticate_iff _ _ _).mp h.srcAuth
  obtain ⟨dst, hdst, -⟩ := (HsmRegistry.authenticate_iff _ _ _).mp h.dstAuth
  exact ⟨src, dst, (HsmRegistry.slotIdx?_eq_some_iff _ _).mpr hsrc,
    (HsmRegistry.slotIdx?_eq_some_iff _ _).mpr hdst⟩

/-- The transfer between the slots that the two capabilities name. -/
def relayResult : Option (Except SyscallError Unit × Kernel) :=
  start.kernel.relayTransfer C (relaySrcCap ctx start).slot.toNat
    (relayDstCap ctx start).slot.toNat ctx.arg2.toNat

/-- How a relay call ends without success. -/
def RelayStopped (stop : Stop) (m : Machine) : Prop :=
  (¬ RelayAccepted ctx start ∧ (∃ e, stop = .error e) ∧
      m.kernel = start.kernel) ∨
    (RelayAccepted ctx start ∧ stop = .error .internal ∧
      ∃ e, relayResult C ctx start = some (.error e, m.kernel))

theorem handleRelay_effect :
    Triple (Quiet start) (handleRelay C ctx)
      (fun value m => RelayAccepted ctx start ∧ value = 0 ∧
        relayResult C ctx start = some (.ok (), m.kernel))
      (RelayStopped C ctx start) := by
  have hrefuse (h : ¬ RelayAccepted ctx start) (e : SyscallError) (m : Machine)
      (hm : Quiet start m) : RelayStopped C ctx start (.error e) m :=
    .inl ⟨h, ⟨e, rfl⟩, hm.1⟩
  unfold handleRelay
  refine quiet_failIf_bind (fun hlen => ?_) fun hlen => ?_
  · exact hrefuse (fun h => hlen h.len) _
  refine quiet_guardRange_bind (fun hrange => ?_) fun hsrc => ?_
  · refine hrefuse (fun h => ?_) _
    rw [h.srcRange] at hrange
    cases hrange
  refine quiet_guardRange_bind (fun hrange => ?_) fun hdst => ?_
  · refine hrefuse (fun h => ?_) _
    rw [h.dstRange] at hrange
    cases hrange
  refine quiet_copyCapability_bind ?_
  refine quiet_copyCapability_bind ?_
  refine quiet_viewKernel_bind ?_
  refine quiet_viewKernel_bind ?_
  refine quiet_failIf_bind (fun hauth => ?_) fun hauth => ?_
  · refine hrefuse (fun h => ?_) _
    have hboth := Bool.and_eq_true_iff.mpr ⟨h.srcAuth, h.dstAuth⟩
    rw [← Bool.not_eq_true] at hauth
    exact hauth hboth
  have hauth' := Bool.and_eq_true_iff.mp (Bool.not_eq_false _ ▸ hauth)
  have haccepted : RelayAccepted ctx start :=
    ⟨not_not.mp hlen, hsrc, hdst, hauth'.1, hauth'.2⟩
  refine quiet_callKernel_bind (fun hstuck => ?_) ?_
  · obtain ⟨src, dst, hslotSrc, hslotDst⟩ := haccepted.slots
    obtain ⟨result, K', hreturns⟩ := Kernel.relayTransfer_returns hslotSrc
      hslotDst C start.kernel ctx.arg2.toNat
    exact (Option.some_ne_none _ (hreturns.symm.trans hstuck)).elim
  · intro result K hresult
    cases result with
    | ok u =>
      refine Triple.pure _ ?_
      rintro m rfl
      exact ⟨haccepted, rfl, hresult⟩
    | error e =>
      refine Triple.throw _ ?_
      rintro m rfl
      exact .inr ⟨haccepted, rfl, e, hresult⟩

/-- A relay call is atomic: if it returns 0 then the source lost exactly its
next octets, as many as requested, and the destination accepted exactly these;
if it returns anything else then both buses are as they were. -/
def RelayAtomic : Prop :=
  let out := (handleRelay C ctx).eval start
  let n := ctx.arg2.toNat
  let srcSlot := (relaySrcCap ctx start).slot.toNat
  let dstSlot := (relayDstCap ctx start).slot.toNat
  (rax out.1 = some 0 →
      ∃ src dst bytes, HsmRegistry.slotIdx? srcSlot = some src ∧
        HsmRegistry.slotIdx? dstSlot = some dst ∧ bytes.length = n ∧
        (start.kernel.bus src).waiting =
          bytes ++ ((start.kernel.busRead src n).2.bus src).waiting ∧
        (start.kernel.busRead src n).2.busWrite C dst bytes =
          some (.ok n, out.2.kernel)) ∧
    (rax out.1 ≠ some 0 →
      ∀ i, HsmRegistry.slotIdx? srcSlot = some i ∨
          HsmRegistry.slotIdx? dstSlot = some i →
        out.2.kernel.bus i = start.kernel.bus i)

theorem asRax_ne_zero (e : SyscallError) : e.asRax ≠ 0 := by
  cases e <;> decide

/-- A relay call that passes its checks is atomic exactly in safe states, and
one that does not pass them always is. -/
theorem relayAtomic_iff :
    RelayAtomic C ctx start ↔
      (RelayAccepted ctx start → ∀ src dst,
        HsmRegistry.slotIdx? (relaySrcCap ctx start).slot.toNat = some src →
        HsmRegistry.slotIdx? (relayDstCap ctx start).slot.toNat = some dst →
          start.kernel.RelaySafe C src dst ctx.arg2.toNat) := by
  obtain ⟨hok, hexit⟩ := handleRelay_effect C ctx start start ⟨rfl, rfl⟩
  unfold RelayAtomic
  rcases hout : (handleRelay C ctx).eval start with ⟨stop | value, m⟩
  · rcases hexit stop m hout with
      ⟨hrefused, ⟨e, rfl⟩, hkernel⟩ | ⟨haccepted, rfl, e, hresult⟩
    · refine ⟨fun _ h => (hrefused h).elim, fun _ => ⟨?_, ?_⟩⟩
      · intro h
        exact (asRax_ne_zero e (Option.some.inj h)).elim
      · intro _ i _
        rw [hkernel]
    · have hn : 0 < ctx.arg2.toNat := Nat.pos_of_ne_zero haccepted.len.2
      constructor
      · rintro ⟨-, hkeeps⟩ - src dst hsrc hdst
        refine (Kernel.transferKeeps_iff hsrc hdst hn).mp ?_
        intro e' K' h
        have hboth := hresult.symm.trans h
        cases hboth
        have hfailed : rax (.error (.error .internal)) ≠ some 0 := by decide
        exact ⟨hkeeps hfailed src (.inl hsrc),
          hkeeps hfailed dst (.inr hdst)⟩
      · intro hsafe
        obtain ⟨src, dst, hsrc, hdst⟩ := haccepted.slots
        obtain ⟨hkeepsSrc, hkeepsDst⟩ :=
          (Kernel.transferKeeps_iff hsrc hdst hn).mpr
            (hsafe haccepted src dst hsrc hdst) e m.kernel hresult
        refine ⟨fun h => (asRax_ne_zero _ (Option.some.inj h)).elim, ?_⟩
        rintro - i (hi | hi)
        · rw [hsrc] at hi
          cases hi
          exact hkeepsSrc
        · rw [hdst] at hi
          cases hi
          exact hkeepsDst
  · obtain ⟨haccepted, rfl, hresult⟩ := hok value m hout
    obtain ⟨src, dst, hsrc, hdst⟩ := haccepted.slots
    have hn : 0 < ctx.arg2.toNat := Nat.pos_of_ne_zero haccepted.len.2
    obtain ⟨bytes, hlen, hwaiting, hwrite⟩ :=
      Kernel.relayTransfer_moved hsrc hdst hresult
    constructor
    · rintro - - src' dst' hsrc' hdst'
      refine (Kernel.transferKeeps_iff hsrc' hdst' hn).mp ?_
      intro e K' h
      have hboth := hresult.symm.trans h
      cases hboth
    · intro _
      refine ⟨fun _ => ⟨src, dst, bytes, hsrc, hdst, hlen, hwaiting, hwrite⟩,
        fun h => (h rfl).elim⟩

end Call

/-- A kernel with two attached echo buses; one octet waits on the first. -/
def relayKernel : Kernel :=
  let K := Kernel.boot [] Buf.zero Buf.zero 1 2
  let bus := SoftwareBus.opened .echo none
  let slot : HsmSlot :=
    { HsmSlot.new with state := .attached, token := 5, rights := fullRights }
  { K with
    registry :=
      (K.registry.set 0 { slot with bus := .software (bus.writeEcho [7]).2 }).set
        1 { slot with bus := .software bus } }

/-- The two capabilities, at addresses 0x1000 and 0x1010. -/
def relayMemory : Mem :=
  Mem.write (fun _ => 0) 0x1000
    ((HsmCapability.issued 5 0 fullRights).toBytes ++
      (HsmCapability.issued 5 1 fullRights).toBytes)

/-- A relay of two octets fails, and the one octet that waited is lost. -/
theorem relay_loses_short_read :
    ¬ RelayAtomic Crates.inert
      { num := 11
        arg0 := 0x1000
        arg1 := 0x1010
        arg2 := 2
        arg3 := 0
        arg4 := 0
        arg5 := 0 } ⟨relayKernel, relayMemory, []⟩ := by
  rintro ⟨-, hkeeps⟩
  have hsame := hkeeps (by decide) 0 (.inl rfl)
  have hwaiting : 0 = 1 :=
    congrArg (fun b : BusInstance => b.waiting.length) hsame
  cases hwaiting

end IsoLightK0
