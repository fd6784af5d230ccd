import IsoLightK0.Registry.BusWrite

/-!
# The digest of a wire request

A `Blake3Hash` request carries a capability and an input.  `handle_blake3`
writes the input to the bus of the slot that the capability names, reads 32
octets back and answers with them.  The handler does not look at the role of
that bus.  On a hash bus the octets are the digest of the input.  On an echo
bus they are the oldest octets that wait there, on an encryption bus they are
the nonce and the start of the ciphertext.

A wire bus never yields 32 octets, because no answer frame is 32 octets long.
-/

namespace IsoLightK0

open Bytes

/-- `handle_blake3` with the bus write of the kernel. -/
def Kernel.blake3Request (C : Crates) (K : Kernel) (reqId : BitVec 32)
    (payload : List Byte) : Option (FrameBuilder × Kernel) :=
  Wire.handleBlake3 (fun call => call.1.busWrite C call.2.1 call.2.2) K reqId
    payload

/-- If the frame has status `Ok` then its payload is the given digest. -/
def Wire.ShowsOnly (digest : Option (Buf 32)) (build : FrameBuilder) : Prop :=
  ∀ out, (decodeHeader (build out).buf).status = WireStatus.ok.code →
    (digest.map Buf.toList) = some ((build out).buf.slice 16 32)

/-- Whatever response is built for the request, an `Ok` status comes with the
BLAKE3 digest of the input. -/
def Kernel.DigestSound (C : Crates) (K : Kernel) (reqId : BitVec 32)
    (payload : List Byte) : Prop :=
  ∀ build K', K.blake3Request C reqId payload = some (build, K') →
    Wire.ShowsOnly (C.blake3 (payload.drop 16)) build

namespace Wire

theorem showsOnly_error (digest : Option (Buf 32)) (reqId : BitVec 32)
    {status : WireStatus} (h : status ≠ .ok) :
    ShowsOnly digest (buildErrorFrameInplace reqId status) := by
  intro out hok
  rw [decodeHeader_buildErrorFrameInplace] at hok
  cases status with
  | ok => exact (h rfl).elim
  | badFrame | unknownCmd | denied | internal => cases hok

/-- The frame for a read shows only the digest exactly when every read of 32
octets is the digest. -/
theorem showsOnly_digestFrame_iff (digest : Option (Buf 32))
    (reqId : BitVec 32) (read : Except BusError (List Byte)) :
    ShowsOnly digest (digestFrame reqId read) ↔
      ∀ bytes, read = .ok bytes → bytes.length = 32 →
        digest.map Buf.toList = some bytes := by
  cases read with
  | error e =>
    have herror : ShowsOnly digest (digestFrame reqId (.error e)) :=
      showsOnly_error digest reqId (by decide)
    exact ⟨fun _ _ h => (nomatch h), fun _ => herror⟩
  | ok bytes =>
    by_cases hlen : bytes.length = 32
    · simp only [digestFrame, hlen, dite_true]
      set payload : WirePayload := ⟨bytes, _⟩
      have hslice (out) : (buildResponseFrame reqId .blake3Hash .ok payload
          out).buf.slice 16 32 = bytes := by
        have h := slice_buildResponseFrame_payload reqId .blake3Hash .ok
          payload out
        rw [show payload.bytes.length = 32 from hlen] at h
        exact h
      constructor
      · rintro hshows _ ⟨⟩ -
        have h := hshows Buf.zero (by rw [decodeHeader_buildResponseFrame])
        rw [hslice] at h
        exact h
      · intro h out _
        rw [hslice]
        exact h bytes rfl hlen
    · simp only [digestFrame, hlen, dite_false]
      refine ⟨?_, fun _ => showsOnly_error digest reqId (by decide)⟩
      rintro - _ ⟨⟩ hlen'
      exact (hlen hlen').elim

theorem IsAnswer.len_ne {request : WireFrameHeader} {build : FrameBuilder}
    (h : IsAnswer request build) (out : Buf wireFrameMax) :
    (build out).len ≠ 32 := by
  rcases h with ⟨cmd, payload, -, hlen, rfl⟩ | ⟨status, -, rfl⟩
  · show 16 + payload.bytes.length ≠ 32
    omega
  · show 16 ≠ 32
    decide

end Wire

/-! ## The software roles -/

namespace SoftwareBus

/-- The bus answers a request for the digest of `input` with that digest or
not at all.  An echo bus would answer with its 32 oldest octets once the input
is appended, an encryption bus with the first 32 octets of the record it
makes of the input. -/
def AnswersDigest (C : Crates) (b : SoftwareBus) (input : List Byte) : Prop :=
  match b.role with
  | .blake3 => True
  | .echo =>
    input.length ≤ swBusBuf - b.writeLen →
    32 ≤ b.unread.length + input.length →
      (C.blake3 input).map Buf.toList = some ((b.unread ++ input).take 32)
  | .aesGcm =>
    ∀ state, b.aesState = some state →
    state.nonceCounter ≠ BitVec.allOnes 64 →
    4 ≤ input.length → input.length ≤ 36 →
      (C.blake3 input).map Buf.toList =
        some ((gcmRecord C state.key (state.nonceCounter + 1) input).take 32)

theorem answersDigest_iff_accepted (C : Crates) (b : SoftwareBus)
    (input : List Byte) :
    b.AnswersDigest C input ↔
      ∀ n held, b.accepted C input = some (n, held) → 32 ≤ held.length →
        (C.blake3 input).map Buf.toList = some (held.take 32) := by
  unfold AnswersDigest accepted
  cases b.role with
  | echo =>
    by_cases hfit : input.length ≤ swBusBuf - b.writeLen
    · simp [hfit]
    · simp [hfit]
  | blake3 =>
    cases hdigest : C.blake3 input with
    | none => simp
    | some digest =>
      have htake : digest.toList.take 32 = digest.toList :=
        List.take_of_length_le (le_of_eq (Buf.length_toList digest))
      simp [htake]
  | aesGcm =>
    cases b.aesState with
    | none => simp
    | some state =>
      have hroom : input.length + 28 ≤ swBusBuf ↔ input.length ≤ 36 := by
        unfold swBusBuf
        omega
      have hlong : 32 ≤ input.length + 28 ↔ 4 ≤ input.length := by omega
      simp only [Option.some.injEq, forall_eq', ne_eq, hroom]
      constructor
      · intro h n held hheld hlen
        split_ifs at hheld with hok
        cases hheld
        rw [length_gcmRecord] at hlen
        exact h hok.1 (hlong.mp hlen) hok.2
      · intro h hcounter hshort hfit
        apply h _ _ (if_pos ⟨hcounter, hfit⟩)
        rw [length_gcmRecord]
        exact hlong.mpr hshort

/-- What a request finds on an open bus when it writes the input and reads 32
octets. -/
theorem read_write_iff_answersDigest (C : Crates) (b : SoftwareBus)
    (input : List Byte) (hopen : b.openState = true) :
    (∀ n, (b.write C input).1 = .ok n →
      ∀ bytes, ((b.write C input).2.read 32).1 = .ok bytes →
        bytes.length = 32 → (C.blake3 input).map Buf.toList = some bytes) ↔
      b.AnswersDigest C input := by
  rw [answersDigest_iff_accepted]
  obtain ⟨b', hb', hopen', -⟩ := b.write_sameTransport C input
  cases hb'
  rw [hopen] at hopen'
  rw [read_fst _ 32 hopen']
  rcases b.write_spec C input hopen with
    ⟨n, held, haccepted, hok, hunread⟩ | ⟨haccepted, e, hrefused⟩
  · rw [hunread, hok, haccepted]
    constructor
    · rintro h _ _ ⟨⟩ hlen
      apply h n rfl _ rfl
      rw [List.length_take]
      omega
    · rintro h _ ⟨⟩ _ ⟨⟩ hlen
      rw [List.length_take] at hlen
      exact h n held rfl (by omega)
  · rw [hrefused, haccepted]
    constructor
    · intro _ _ _ h
      cases h
    · intro _ _ h
      cases h

end SoftwareBus

/-! ## Requests -/

namespace Kernel

variable (C : Crates) {K : Kernel} {i : SlotIdx} {K₁ : Kernel}

theorem digestSound_iff_of_accepted (reqId : BitVec 32) {payload : List Byte}
    (hlen : 16 ≤ payload.length)
    (hauth : K.registry.authenticate (HsmCapability.ofBytes (payload.take 16))
      HsmRights.use = true)
    (hslot : HsmRegistry.slotIdx?
      (HsmCapability.ofBytes (payload.take 16)).slot.toNat = some i)
    {result : Except BusError ℕ}
    (hwrite : K.busWrite C i (payload.drop 16) = some (result, K₁)) :
    K.DigestSound C reqId payload ↔
      ∀ n, result = .ok n → ∀ bytes, (K₁.busRead i 32).1 = .ok bytes →
        bytes.length = 32 →
          (C.blake3 (payload.drop 16)).map Buf.toList = some bytes := by
  have hlong : ¬ payload.length < 16 := Nat.not_lt.mpr hlen
  unfold DigestSound blake3Request Wire.handleBlake3
  simp only [hlong, if_false, hauth, hslot, hwrite, Bool.true_eq_false]
  cases result with
  | error e =>
    constructor
    · intro _ _ h
      cases h
    · rintro - _ _ ⟨⟩
      exact Wire.showsOnly_error _ reqId (by decide)
  | ok n =>
    constructor
    · rintro h _ -
      exact (Wire.showsOnly_digestFrame_iff _ reqId _).mp (h _ _ rfl)
    · rintro h _ _ ⟨⟩
      exact (Wire.showsOnly_digestFrame_iff _ reqId _).mpr (h n rfl)

/-- After a write to a wire bus was accepted, the next read of 32 octets on it
is refused or delivers a frame of another length. -/
theorem length_busRead_ring3_ne {r : Ring3ProcessBus}
    (hbus : K.bus i = .ring3Process r) {data : List Byte} {n : ℕ}
    (hwrite : K.busWrite C i data = some (.ok n, K₁)) {bytes : List Byte}
    (hread : (K₁.busRead i 32).1 = .ok bytes) : bytes.length ≠ 32 := by
  rcases K.busWrite_ring3_cases C hbus data with
    ⟨-, e, hrefused⟩ | ⟨-, build, K₂, hbuses, hanswer, -, hstored⟩
  · rw [hwrite] at hrefused
    cases hrefused
  · rw [hwrite] at hstored
    cases hstored
    obtain ⟨r₁, hbus₁, -⟩ := bus_storeResponse hbus hbuses build
    simp only [busRead, hbus₁, BusInstance.read, Ring3ProcessBus.read] at hread
    split_ifs at hread
    cases hread
    rw [Buf.length_slice]
    exact hanswer.len_ne r₁.pendingResponse

/-- What the write and the read find on the named slot, by the bus in it. -/
theorem read_write_slot_iff {input : List Byte} {result : Except BusError ℕ}
    (hwrite : K.busWrite C i input = some (result, K₁)) :
    (∀ n, result = .ok n → ∀ bytes, (K₁.busRead i 32).1 = .ok bytes →
        bytes.length = 32 → (C.blake3 input).map Buf.toList = some bytes) ↔
      ∀ s, K.bus i = .software s → s.openState = true →
        s.AnswersDigest C input := by
  cases hbus : K.bus i with
  | software s =>
    rw [busWrite_software C hbus] at hwrite
    cases hwrite
    have hread : ((K.setBus i (.software (s.write C input).2)).busRead i
        32).1 = ((s.write C input).2.read 32).1 := by
      simp [busRead, BusInstance.read]
    rw [hread]
    cases hopen : s.openState with
    | true =>
      rw [s.read_write_iff_answersDigest C input hopen]
      simp [hopen]
    | false =>
      rw [s.write_of_closed C input hopen]
      simp [hopen]
  | ring3Process r =>
    constructor
    · intro _ s hs
      cases hs
    · rintro - n rfl bytes hread hlen
      exact (length_busRead_ring3_ne C hbus hwrite hread hlen).elim
  | empty | usb | spi | serial | smartCard | network =>
    rw [busWrite_eq] at hwrite
    simp only [Wire.busWriteBody, hbus] at hwrite
    cases hwrite
    constructor
    · intro _ s hs
      cases hs
    · intro _ n hn
      cases hn

/-- The `Ok` answer of a digest request is the digest of its input exactly
when the request is refused or names no software bus that answers with other
octets. -/
theorem digestSound_iff (C : Crates) (K : Kernel) (reqId : BitVec 32)
    (payload : List Byte) :
    K.DigestSound C reqId payload ↔
      (16 ≤ payload.length →
        K.registry.authenticate (HsmCapability.ofBytes (payload.take 16))
            HsmRights.use = true →
        ∀ i s, HsmRegistry.slotIdx?
            (HsmCapability.ofBytes (payload.take 16)).slot.toNat = some i →
          K.bus i = .software s → s.openState = true →
            s.AnswersDigest C (payload.drop 16)) := by
  by_cases hlen : 16 ≤ payload.length
  swap
  · refine ⟨fun _ h => (hlen h).elim, fun _ build K' h => ?_⟩
    unfold blake3Request Wire.handleBlake3 at h
    rw [if_pos (Nat.not_le.mp hlen)] at h
    cases h
    exact Wire.showsOnly_error _ reqId (by decide)
  have hlong : ¬ payload.length < 16 := Nat.not_lt.mpr hlen
  cases hauth : K.registry.authenticate
      (HsmCapability.ofBytes (payload.take 16)) HsmRights.use with
  | false =>
    refine ⟨fun _ _ h => (nomatch h), fun _ build K' h => ?_⟩
    simp only [blake3Request, Wire.handleBlake3, hlong, if_false, hauth,
      if_true, Option.some.injEq] at h
    cases h
    exact Wire.showsOnly_error _ reqId (by decide)
  | true =>
    cases hslot : HsmRegistry.slotIdx?
        (HsmCapability.ofBytes (payload.take 16)).slot.toNat with
    | none =>
      refine ⟨fun _ _ _ _ _ h => (nomatch h), fun _ build K' h => ?_⟩
      simp only [blake3Request, Wire.handleBlake3, hlong, if_false, hauth,
        hslot, Bool.true_eq_false, Option.some.injEq] at h
      cases h
      exact Wire.showsOnly_error _ reqId (by decide)
    | some i =>
      obtain ⟨result, K₁, hwrite, -⟩ := K.busWrite_returns C i (payload.drop 16)
      rw [digestSound_iff_of_accepted C reqId hlen hauth hslot hwrite,
        read_write_slot_iff C hwrite]
      constructor
      · rintro h - - _ s ⟨⟩
        exact h s
      · intro h s
        exact h hlen rfl i s rfl

end Kernel

/-- Crates that know the BLAKE3 digest of the empty input. -/
def Crates.hashingEmpty : Crates where
  blake3 := fun data =>
    if data = [] then
      some (Buf.ofList 32
        [0xAF, 0x13, 0x49, 0xB9, 0xF5, 0xF9, 0xA1, 0xA6,
          0xA0, 0x40, 0x4D, 0xEA, 0x36, 0xDC, 0xC9, 0x49,
          0x9B, 0xCB, 0x25, 0xC9, 0xAD, 0xC1, 0x12, 0xB7,
          0xCC, 0x9A, 0x93, 0xCA, 0xE4, 0x1F, 0x32, 0x62])
    else
      none
  aes256GcmEncrypt := Crates.inert.aes256GcmEncrypt
  mldsa44Verify := Crates.inert.mldsa44Verify

/-- A kernel whose slot 0 is attached with token 5 and holds an echo bus on
which 32 zero octets wait to be read. -/
def echoKernel : Kernel :=
  let bus := (SoftwareBus.opened .echo none).writeEcho (List.replicate 32 0)
  .attachedAt 0 HsmRights.use (.software bus.2)

/-- A request for the digest of the empty input through an echo slot is
answered with status `Ok` and the 32 octets that waited there. -/
theorem echo_slot_answers_waiting_octets :
    ¬ echoKernel.DigestSound Crates.hashingEmpty 9
      (HsmCapability.issued 5 0 HsmRights.use).toBytes := by
  intro hsound
  have hdigest := hsound _ _ rfl Buf.zero rfl
  -- the first octet of the digest is 0xAF, the first octet delivered is 0
  have hhead : some (some (0xAF : Byte)) = some (some 0) :=
    congrArg (Option.map List.head?) hdigest
  cases hhead

end IsoLightK0
