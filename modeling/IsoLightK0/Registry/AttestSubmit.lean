import IsoLightK0.Registry.Attach
import IsoLightK0.Registry.Dispatch

/-!
# Wire re-attestation against the attach gate

`AttestSubmit` carries public key, bus kind octet and signature in one
payload; `attach` takes the bus kind beside a payload of key and signature.
The two decoders are written separately.  They hand the verifier the same
arguments, so that a request is answered `Ok` exactly when `attach` would let
the enrolment through.
-/

namespace IsoLightK0

open Bytes

namespace Kernel

/-- The attestation payload gets past the verification gate of `attach`. -/
def PassesAttestGate (C : Crates) (K : Kernel) (busKind : BusKind)
    (payload : List Byte) : Prop :=
  ∃ attestOk, K.attestGate C busKind (some payload) = .ok attestOk

theorem attestGate_eq_error {C : Crates} {K : Kernel} {busKind : BusKind}
    {attestPayload : Option (List Byte)} {e : HsmCapError}
    (h : K.attestGate C busKind attestPayload = .error e) :
    e = .attestFailed := by
  cases attestPayload with
  | none => cases h
  | some payload =>
    simp only [attestGate] at h
    split at h
    · cases h
      rfl
    · split at h
      · cases h
        rfl
      · cases h

theorem attachAt_ne_attestFailed {destroy : BusInstance.Destructor}
    {K K' : Kernel} {i : SlotIdx} {busKind : BusKind} {initBlob : List Byte}
    {rights : HsmRights} {attestOk : Option (Buf 4)} :
    K.attachAt destroy i busKind initBlob rights attestOk ≠
      some (.error .attestFailed, K') := by
  intro h
  unfold attachAt at h
  split at h
  · cases h
  · cases h
  · split at h
    · cases h
    · obtain ⟨-, -, heq⟩ := Option.map_eq_some_iff.mp h
      cases heq
    · obtain ⟨-, -, heq⟩ := Option.map_eq_some_iff.mp h
      cases heq

/-- `attach` reports `AttestFailed` for the payloads that its gate refuses,
and for no others. -/
theorem attach_eq_attestFailed_iff (C : Crates)
    (destroy : BusInstance.Destructor) (K : Kernel) (busKind : BusKind)
    (initBlob payload : List Byte) (rights : HsmRights) :
    (∃ K', K.attach C destroy busKind initBlob (some payload) rights =
        some (.error .attestFailed, K')) ↔
      ¬ K.PassesAttestGate C busKind payload := by
  unfold attach PassesAttestGate
  cases hgate : K.attestGate C busKind (some payload) with
  | error e =>
    cases attestGate_eq_error hgate
    simp
  | ok attestOk =>
    cases K.registry.firstEmpty with
    | none => simp
    | some i => simp [attachAt_ne_attestFailed]

end Kernel

theorem attestPk_append (pk : Buf 1312) (rest : List Byte) :
    Kernel.attestPk (pk.toList ++ rest) = pk := by
  unfold Kernel.attestPk
  rw [List.take_left' (Buf.length_toList pk), Buf.ofList_toList]

theorem attestSig_append (pk : Buf 1312) (sig : Buf 2420) :
    Kernel.attestSig (pk.toList ++ sig.toList) = sig := by
  unfold Kernel.attestSig
  rw [List.drop_left' (Buf.length_toList pk), Buf.ofList_toList]

/-- The gate of `attach` on a well-formed payload is the verifier. -/
theorem Kernel.passesAttestGate_iff (C : Crates) (K : Kernel)
    (busKind : BusKind) (pk : Buf 1312) (sig : Buf 2420) :
    K.PassesAttestGate C busKind (pk.toList ++ sig.toList) ↔
      verifyAttest C K.activeTrustRootPk K.bootChallenge pk busKind sig =
        .ok () := by
  have hlength : (pk.toList ++ sig.toList).length = pkLen + sigLen := by
    rw [List.length_append, Buf.length_toList, Buf.length_toList]
    rfl
  unfold PassesAttestGate
  simp only [attestGate_eq_ok_some_iff, hlength, attestPk_append,
    attestSig_append, true_and, verifyAttest_eq_ok_iff]
  constructor
  · rintro ⟨-, haccepted, -⟩
    exact haccepted
  · intro haccepted
    exact ⟨_, haccepted, rfl⟩

namespace Wire

def attestPayload (pk : Buf 1312) (octet : Byte) (sig : Buf 2420) :
    List Byte :=
  pk.toList ++ [octet] ++ sig.toList

theorem length_attestPayload (pk : Buf 1312) (octet : Byte) (sig : Buf 2420) :
    (attestPayload pk octet sig).length = wireAttestLen := by
  simp [attestPayload, wireAttestLen]

/-- The frame carries this status, whatever the pending buffer held. -/
def Answers (status : WireStatus) (build : FrameBuilder) : Prop :=
  ∀ out, (decodeHeader (build out).buf).status = status.code

theorem answers_response (reqId : BitVec 32) (cmd : WireCmd)
    (status : WireStatus) (payload : WirePayload) :
    Answers status (buildResponseFrame reqId cmd status payload) := by
  intro out
  rw [decodeHeader_buildResponseFrame]

theorem answers_error (reqId : BitVec 32) (status : WireStatus) :
    Answers status (buildErrorFrameInplace reqId status) := by
  intro out
  rw [decodeHeader_buildErrorFrameInplace]

/-! ## The handler -/

theorem handleAttestSubmit_of_length_ne (C : Crates) (K : Kernel)
    (reqId : BitVec 32) {payload : List Byte}
    (h : payload.length ≠ wireAttestLen) :
    handleAttestSubmit C K reqId payload =
      (buildErrorFrameInplace reqId .badFrame, K) := by
  simp [handleAttestSubmit, h]

theorem handleAttestSubmit_cases (C : Crates) (K : Kernel)
    (reqId : BitVec 32) (pk : Buf 1312) (octet : Byte) (sig : Buf 2420) :
    (attestBusKind octet = none ∧
        handleAttestSubmit C K reqId (attestPayload pk octet sig) =
          (buildErrorFrameInplace reqId .badFrame, K)) ∨
      ∃ busKind, attestBusKind octet = some busKind ∧
        ((verifyAttest C K.activeTrustRootPk K.bootChallenge pk busKind sig =
              .ok () ∧
            handleAttestSubmit C K reqId (attestPayload pk octet sig) =
              (buildResponseFrame reqId .attestSubmit .ok
                  ⟨[], Nat.zero_le _⟩,
                K.audit 0xFE 5 octet (pkHashPrefix C pk))) ∨
          (verifyAttest C K.activeTrustRootPk K.bootChallenge pk busKind sig ≠
              .ok () ∧
            handleAttestSubmit C K reqId (attestPayload pk octet sig) =
              (buildErrorFrameInplace reqId .denied,
                K.audit 0xFE 6 octet (pkHashPrefix C pk)))) := by
  have hpk : (attestPayload pk octet sig).take 1312 = pk.toList := by
    unfold attestPayload
    rw [List.append_assoc, List.take_left' (Buf.length_toList pk)]
  have hoctet : (attestPayload pk octet sig)[1312]? = some octet := by
    unfold attestPayload
    rw [List.append_assoc,
      List.getElem?_append_right (le_of_eq (Buf.length_toList pk)),
      Buf.length_toList]
    rfl
  have hsig : (attestPayload pk octet sig).drop 1313 = sig.toList := by
    have hlength : (pk.toList ++ [octet]).length = 1313 := by simp
    exact List.drop_left' hlength
  unfold handleAttestSubmit
  simp only [length_attestPayload, ne_eq, not_true_eq_false, if_false, hpk,
    hoctet, hsig, Option.getD_some, Buf.ofList_toList]
  cases hkind : attestBusKind octet with
  | none => exact .inl ⟨rfl, rfl⟩
  | some busKind =>
    refine .inr ⟨busKind, rfl, ?_⟩
    cases hverify : verifyAttest C K.activeTrustRootPk K.bootChallenge pk
        busKind sig with
    | ok u => exact .inl ⟨rfl, by simp [hverify]⟩
    | error e => exact .inr ⟨by simp, by simp [hverify]⟩

theorem attestBusKind_octet {busKind : BusKind}
    (h : busKind = .software ∨ busKind = .ring3Process) :
    attestBusKind busKind.octet = some busKind := by
  rcases h with rfl | rfl <;> rfl

theorem attestBusKind_eq_none {octet : Byte} (h₀ : octet ≠ 0)
    (h₁ : octet ≠ 1) : attestBusKind octet = none := by
  unfold attestBusKind
  rw [if_neg h₀, if_neg h₁]

theorem dispatch_attestSubmit (C : Crates)
    (write : WriteCall → Option WriteResult) (K : Kernel)
    (hdr : WireFrameHeader) (payload : List Byte) :
    dispatch C write K { hdr with cmd := WireCmd.attestSubmit.code } payload =
      some (handleAttestSubmit C K hdr.reqId payload) := rfl

/-- The two verdicts are never mixed up by a receiver. -/
theorem not_answers_ok_of_denied {build : FrameBuilder}
    (h : Answers .denied build) : ¬ Answers .ok build := by
  intro hok
  have hcode : WireStatus.ok.code = WireStatus.denied.code :=
    (hok Buf.zero).symm.trans (h Buf.zero)
  exact absurd hcode (by decide)

/-- An `AttestSubmit` request with key, kind octet 0 or 1 and signature is
answered `Ok` if `attach` lets the same key and signature past its gate and
`Denied` if not, and records that verdict under the key hash that
`handle_attach` records.  Any other request is a bad frame and leaves the
kernel as it was. -/
theorem attestSubmit_ok_iff_passesAttestGate (C : Crates)
    (write : WriteCall → Option WriteResult) (K : Kernel)
    (hdr : WireFrameHeader) :
    (∀ (busKind : BusKind) (pk : Buf 1312) (sig : Buf 2420),
      busKind = .software ∨ busKind = .ring3Process →
      ∃ build result,
        dispatch C write K { hdr with cmd := WireCmd.attestSubmit.code }
            (attestPayload pk busKind.octet sig) =
          some (build, K.audit 0xFE result busKind.octet
            (pkHashPrefix C (Kernel.attestPk (pk.toList ++ sig.toList)))) ∧
        (Answers .ok build ↔
          K.PassesAttestGate C busKind (pk.toList ++ sig.toList)) ∧
        (Answers .ok build ∧ result = 5 ∨
          Answers .denied build ∧ result = 6) ∧
        ∀ destroy initBlob rights,
          (∃ K', K.attach C destroy busKind initBlob
              (some (pk.toList ++ sig.toList)) rights =
            some (.error .attestFailed, K')) ↔ ¬ Answers .ok build) ∧
    (∀ (pk : Buf 1312) (octet : Byte) (sig : Buf 2420),
      octet ≠ 0 → octet ≠ 1 →
      ∃ build,
        dispatch C write K { hdr with cmd := WireCmd.attestSubmit.code }
            (attestPayload pk octet sig) = some (build, K) ∧
        Answers .badFrame build) ∧
    ∀ payload : List Byte, payload.length ≠ wireAttestLen →
      ∃ build,
        dispatch C write K { hdr with cmd := WireCmd.attestSubmit.code }
            payload = some (build, K) ∧
        Answers .badFrame build := by
  simp only [dispatch_attestSubmit, Kernel.attach_eq_attestFailed_iff,
    Kernel.passesAttestGate_iff, attestPk_append]
  refine ⟨?_, ?_, ?_⟩
  · intro busKind pk sig hkind
    rcases handleAttestSubmit_cases C K hdr.reqId pk busKind.octet sig with
      ⟨hnone, -⟩ | ⟨busKind', hsome, hverdict⟩
    · rw [attestBusKind_octet hkind] at hnone
      cases hnone
    · rw [attestBusKind_octet hkind] at hsome
      cases hsome
      rcases hverdict with ⟨hverify, hhandle⟩ | ⟨hverify, hhandle⟩
      · have hok := answers_response hdr.reqId .attestSubmit .ok
          ⟨[], Nat.zero_le _⟩
        rw [hhandle]
        exact ⟨_, 5, rfl, iff_of_true hok hverify, .inl ⟨hok, rfl⟩,
          fun _ _ _ => iff_of_false (fun h => h hverify) (fun h => h hok)⟩
      · have hdenied := answers_error hdr.reqId .denied
        have hok := not_answers_ok_of_denied hdenied
        rw [hhandle]
        exact ⟨_, 6, rfl, iff_of_false hok hverify, .inr ⟨hdenied, rfl⟩,
          fun _ _ _ => iff_of_true hverify hok⟩
  · intro pk octet sig h₀ h₁
    rcases handleAttestSubmit_cases C K hdr.reqId pk octet sig with
      ⟨-, hhandle⟩ | ⟨busKind, hsome, -⟩
    · rw [hhandle]
      exact ⟨_, rfl, answers_error hdr.reqId .badFrame⟩
    · rw [attestBusKind_eq_none h₀ h₁] at hsome
      cases hsome
  · intro payload hlength
    rw [handleAttestSubmit_of_length_ne C K hdr.reqId hlength]
    exact ⟨_, rfl, answers_error hdr.reqId .badFrame⟩

/-- The zero key of a software bus is refused by a verifier that fails, and an
empty payload is a bad frame. -/
theorem attestSubmit_zero_key :
    (∃ build result,
      dispatch Crates.inert (fun _ => none)
          (Kernel.boot [] Buf.zero Buf.zero 1 2)
          ⟨wireMagic, wireVersion, WireCmd.attestSubmit.code, 7, 3733, 0⟩
          (attestPayload Buf.zero BusKind.software.octet Buf.zero) =
        some (build, (Kernel.boot [] Buf.zero Buf.zero 1 2).audit 0xFE result
          BusKind.software.octet
          (pkHashPrefix Crates.inert (Kernel.attestPk
            ((Buf.zero : Buf 1312).toList ++
              (Buf.zero : Buf 2420).toList))))) ∧
      ∃ build,
        dispatch Crates.inert (fun _ => none)
            (Kernel.boot [] Buf.zero Buf.zero 1 2)
            ⟨wireMagic, wireVersion, WireCmd.attestSubmit.code, 7, 0, 0⟩ [] =
          some (build, Kernel.boot [] Buf.zero Buf.zero 1 2) ∧
        Answers .badFrame build := by
  have hgate := attestSubmit_ok_iff_passesAttestGate Crates.inert
    (fun _ => none) (Kernel.boot [] Buf.zero Buf.zero 1 2)
  obtain ⟨build, result, hdispatch, -⟩ :=
    (hgate ⟨wireMagic, wireVersion, 0, 7, 3733, 0⟩).1 .software Buf.zero
      Buf.zero (.inl rfl)
  obtain ⟨bad, hbad, hanswer⟩ :=
    (hgate ⟨wireMagic, wireVersion, 0, 7, 0, 0⟩).2.2 [] (by decide)
  exact ⟨⟨build, result, hdispatch⟩, bad, hbad, hanswer⟩

end Wire

end IsoLightK0
