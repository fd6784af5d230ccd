import IsoLightK0.Crypto.Replies

/-!
# Encrypting and decrypting through the endpoint

A client sends a text to the cryptographic service and later sends the octets
of the reply back.  The first section gives the two handlers as equations over
the cipher: which octets it is given and what the reply holds.  The second one
follows the client through two calls of `ipc_call`.
-/

namespace IsoLightK0

open Bytes Faults

def CryptoCrates.aead (C : CryptoCrates) : CryptoAlgo → Option Aead
  | .aes256Gcm => some C.aes256Gcm
  | .chaCha20Poly => some C.chacha20Poly1305
  | _ => none

/-- A request to a cipher.  What is behind the key and behind the data is
arbitrary. -/
structure CryptoPayload.Asks (req : CryptoPayload) (algo : CryptoAlgo)
    (key : Buf 32) (nonce : Buf 12) (octets : List Byte) : Prop where
  algo : req.algo = algo.code
  keyLen : req.keyLen.toNat = 32
  key : req.key.slice 0 32 = key.toList
  nonceLen : req.nonceLen.toNat = 12
  nonce : req.nonce = nonce
  octets : req.octets = octets

section Handlers

variable {C : CryptoCrates} {algo : CryptoAlgo} {aead : Aead}
  {req : CryptoPayload} {key : Buf 32} {nonce : Buf 12} {octets : List Byte}

theorem CryptoPayload.Asks.dataLen (h : req.Asks algo key nonce octets) :
    req.dataLen.toNat = octets.length := by
  rw [← h.octets, CryptoPayload.octets, Buf.length_slice]

theorem aead_cases (haead : C.aead algo = some aead) :
    algo = .aes256Gcm ∧ aead = C.aes256Gcm ∨
      algo = .chaCha20Poly ∧ aead = C.chacha20Poly1305 := by
  unfold CryptoCrates.aead at haead
  split at haead
  · exact .inl ⟨rfl, (Option.some.inj haead).symm⟩
  · exact .inr ⟨rfl, (Option.some.inj haead).symm⟩
  · cases haead

theorem parseAlgo_of_aead (haead : C.aead algo = some aead) :
    parseAlgo algo.code = .ok algo := by
  rcases aead_cases haead with ⟨rfl, -⟩ | ⟨rfl, -⟩
  · rfl
  · rfl

theorem encryptBy_of_aead (haead : C.aead algo = some aead)
    (plaintext : Buf cryptoDataLen) (ptLen : ℕ) :
    encryptBy C algo req plaintext ptLen =
      aead.encryptRequest req plaintext ptLen Buf.zero := by
  rcases aead_cases haead with ⟨rfl, rfl⟩ | ⟨rfl, rfl⟩
  · rfl
  · rfl

theorem decryptBy_of_aead (haead : C.aead algo = some aead)
    (ciphertext : Buf cryptoDataLen) (ctLen : ℕ) (tag : Buf 16) :
    decryptBy C algo req ciphertext ctLen tag =
      aead.decryptRequest req ciphertext ctLen tag Buf.zero := by
  rcases aead_cases haead with ⟨rfl, rfl⟩ | ⟨rfl, rfl⟩
  · rfl
  · rfl

theorem not_weak_of_ne_zero (hnonce : nonce ≠ Buf.zero) :
    ¬ ∀ b ∈ nonce.toList, b = 0 := by
  intro hall
  apply hnonce
  have hlist : nonce.toList = List.replicate 12 0 :=
    List.eq_replicate_iff.mpr ⟨Buf.length_toList nonce, hall⟩
  rw [← Buf.ofList_toList nonce, hlist, Buf.ofList_replicate_zero]

theorem CryptoPayload.Asks.keyAndNonce_eq
    (h : req.Asks algo key nonce octets) :
    req.keyAndNonce = .ok (key, nonce) := by
  have hnonceField : req.nonce.slice 0 12 = nonce.toList := by
    rw [h.nonce]
    rfl
  rw [CryptoPayload.keyAndNonce, refuseIf_of_not (not_not.mpr h.keyLen),
    ok_bind, refuseIf_of_not (not_not.mpr h.nonceLen), ok_bind,
    range_zero_of_le (by decide), ok_bind, h.key, toArray_toList, ok_bind,
    range_zero_of_le (by decide), ok_bind, hnonceField, toArray_toList,
    ok_bind]

theorem Aead.encryptRequest_eq (h : req.Asks algo key nonce octets)
    (hnonce : nonce ≠ Buf.zero) (plaintext ciphertext : Buf cryptoDataLen)
    {ptLen : ℕ} (hlen : ptLen ≤ cryptoDataLen)
    (htext : plaintext.slice 0 ptLen = octets) :
    aead.encryptRequest req plaintext ptLen ciphertext =
      (orRefuse .invalidDataLength (aead.encrypt key nonce [] octets) >>=
        fun result => .ok (ptLen, ciphertext.blit 0 result.1, result.2)) := by
  rw [Aead.encryptRequest, h.keyAndNonce_eq, ok_bind]
  dsimp only
  rw [refuseIf_of_not (not_weak_of_ne_zero hnonce), ok_bind,
    range_zero_of_le hlen, ok_bind, htext]
  rcases hresult : aead.encrypt key nonce [] octets with _ | result
  · rfl
  · have hcipher : result.1.length = ptLen := by
      rw [aead.length_encrypt hresult, ← htext, Buf.length_slice]
    rw [orRefuse, ok_bind, ok_bind, copyRange_zero_of_le hlen hcipher, ok_bind]

theorem Aead.decryptRequest_eq (h : req.Asks algo key nonce octets)
    (ciphertext plaintext : Buf cryptoDataLen) (tag : Buf 16) {ctLen : ℕ}
    (hlen : ctLen ≤ cryptoDataLen) :
    aead.decryptRequest req ciphertext ctLen tag plaintext =
      (orRefuse .authenticationFailed
          (aead.decrypt key nonce [] (ciphertext.slice 0 ctLen) tag) >>=
        fun text => .ok (plaintext.blit 0 text)) := by
  rw [Aead.decryptRequest, h.keyAndNonce_eq, ok_bind]
  dsimp only
  rw [range_zero_of_le hlen, ok_bind]
  rcases htext : aead.decrypt key nonce [] (ciphertext.slice 0 ctLen) tag with
    _ | text
  · rfl
  · have hlength : text.length = ctLen := by
      rw [aead.length_decrypt htext, Buf.length_slice]
    rw [orRefuse, ok_bind, ok_bind, copyRange_zero_of_le hlen hlength]

theorem slice_zero_blit {n : ℕ} {xs : List Byte} (hlen : xs.length ≤ n) :
    (Buf.zero.blit 0 xs : Buf n).slice 0 xs.length = xs :=
  Buf.slice_blit_of_length Buf.zero (by omega) rfl

/-- A text with room for the tag is answered with the ciphertext and the tag. -/
theorem handleEncrypt_eq (haead : C.aead algo = some aead)
    (h : req.Asks algo key nonce octets) (hnonce : nonce ≠ Buf.zero)
    (hlen : octets.length + gcmTagSize ≤ cryptoDataLen) :
    handleEncrypt C req Buf.zero =
      (orRefuse .invalidDataLength (aead.encrypt key nonce [] octets) >>=
        fun result =>
          .ok (okReply algo.code (result.1 ++ result.2.toList))) := by
  have hoctets : req.data.slice 0 octets.length = octets := by
    rw [← h.dataLen]
    exact h.octets
  have hroom : octets.length ≤ cryptoDataLen :=
    (Nat.le_add_right _ _).trans hlen
  rw [handleEncrypt, h.algo, parseAlgo_of_aead haead, ok_bind, h.dataLen]
  dsimp only
  rw [refuseIf_of_not (Nat.not_lt.mpr hroom), ok_bind,
    range_zero_of_le hroom, ok_bind, hoctets,
    copyRange_zero_of_le hroom rfl, ok_bind, encryptBy_of_aead haead,
    Aead.encryptRequest_eq h hnonce _ _ hroom (slice_zero_blit hroom)]
  rcases hresult : aead.encrypt key nonce [] octets with _ | ⟨cipher, tag⟩
  · rfl
  · have hcipher : octets.length = cipher.length :=
      (aead.length_encrypt hresult).symm
    have htag : tag.toList.length = gcmTagSize := Buf.length_toList tag
    have htotal : cipher.length + gcmTagSize =
        (cipher ++ tag.toList).length := by
      rw [List.length_append, htag]
    rw [hcipher] at hroom hlen
    simp only [orRefuse, ok_bind, hcipher]
    rw [refuseIf_of_not (Nat.not_lt.mpr hlen), ok_bind,
      range_zero_of_le hroom, ok_bind, slice_zero_blit hroom,
      copyRange_zero_of_le hroom rfl, ok_bind,
      copyRange_of_le (Nat.le_add_right _ _) hlen
        (by rw [htag, Nat.add_sub_cancel_left]), ok_bind,
      ← Nat.zero_add cipher.length, Buf.blit_blit_append, Nat.zero_add, htotal,
      range_zero_of_le (htotal ▸ hlen), ok_bind,
      slice_zero_blit (htotal ▸ hlen), writeOkReply_of_le (htotal ▸ hlen)]

theorem CryptoPayload.Asks.split {cipher : List Byte} {tag : Buf 16}
    (h : req.Asks algo key nonce (cipher ++ tag.toList)) :
    req.data.slice 0 cipher.length = cipher ∧
      req.data.slice cipher.length gcmTagSize = tag.toList := by
  have hwhole := h.octets
  rw [CryptoPayload.octets, h.dataLen, List.length_append, Buf.length_toList,
    Buf.slice_add, Nat.zero_add] at hwhole
  exact List.append_inj hwhole (Buf.length_slice _ _ _)

theorem handleDecrypt_eq {cipher : List Byte} {tag : Buf 16}
    (haead : C.aead algo = some aead)
    (h : req.Asks algo key nonce (cipher ++ tag.toList))
    (hlen : cipher.length + gcmTagSize ≤ cryptoDataLen) :
    handleDecrypt C req Buf.zero =
      (orRefuse .authenticationFailed
          (aead.decrypt key nonce [] cipher tag) >>=
        fun text => .ok (okReply algo.code text)) := by
  obtain ⟨hcipher, htag⟩ := h.split
  have hdataLen : req.dataLen.toNat = cipher.length + gcmTagSize := by
    rw [h.dataLen, List.length_append, Buf.length_toList]
    rfl
  have hroom : cipher.length ≤ cryptoDataLen :=
    (Nat.le_add_right _ _).trans hlen
  rw [handleDecrypt, h.algo, parseAlgo_of_aead haead, ok_bind, hdataLen]
  dsimp only
  rw [refuseIf_of_not (not_not.mpr ⟨Nat.le_add_left _ _, hlen⟩), ok_bind,
    Nat.add_sub_cancel, range_of_le (Nat.le_add_right _ _) hlen, ok_bind,
    Nat.add_sub_cancel_left, htag, toArray_toList, ok_bind,
    range_zero_of_le hroom, ok_bind, hcipher, copyRange_zero_of_le hroom rfl,
    ok_bind, decryptBy_of_aead haead,
    Aead.decryptRequest_eq h _ _ tag hroom, slice_zero_blit hroom]
  rcases htext : aead.decrypt key nonce [] cipher tag with _ | text
  · rfl
  · have hlength : cipher.length = text.length :=
      (aead.length_decrypt htext).symm
    rw [hlength] at hroom ⊢
    simp only [orRefuse, ok_bind]
    rw [range_zero_of_le hroom, ok_bind, slice_zero_blit hroom,
      writeOkReply_of_le hroom]

end Handlers

/-! ## Two calls of a client -/

section Client

def cryptoRequestOf (payload : List Byte) : CryptoPayload :=
  .ofBytes (Buf.ofList ipcMaxPayload payload)

variable {C : CryptoCrates} {payload : List Byte} {sequence : BitVec 32}

theorem parseRequest_carrying (msgType : MessageType)
    (hlen : payload.length = ipcMaxPayload) :
    parseRequest (.carrying msgType sequence payload) =
      .ok (cryptoRequestOf payload) := by
  have hcode : (IpcMessage.carrying msgType sequence
      payload).header.payloadLen.toNat = ipcMaxPayload := by
    show BitVec.toNat (payload.length : BitVec 16) = ipcMaxPayload
    rw [hlen]
    rfl
  rw [parseRequest, hcode, refuseIf_of_not (Nat.lt_irrefl _), ok_bind]
  rfl

theorem cryptoReply_of_large {msg : IpcMessage}
    (htype : msg.header.msgType = .encryptReq)
    (hlarge : cryptoDataLen <
      (CryptoPayload.ofBytes msg.payload).dataLen.toNat + gcmTagSize) :
    ∃ e : CryptoError, cryptoReply C msg = some (.error, [e.code]) := by
  have hmeets := handleEncrypt_meets C (CryptoPayload.ofBytes msg.payload)
  unfold cryptoReply cryptoResult parseRequest
  by_cases hshort : msg.header.payloadLen.toNat < ipcMaxPayload
  · rw [refuseIf_of hshort]
    exact ⟨.invalidRequest, rfl⟩
  · rw [refuseIf_of_not hshort, ok_bind, htype]
    dsimp only
    rcases hresult : handleEncrypt C (CryptoPayload.ofBytes msg.payload)
      Buf.zero with ⟨e | _⟩ | reply
    · exact ⟨e, rfl⟩
    · exact absurd hresult hmeets.1
    · exact absurd (hmeets.2 reply hresult).2 (Nat.not_le.mpr hlarge)

/-- A payload that asks a cipher to work on some octets. -/
def CryptoAsks (payload : List Byte) (algo : CryptoAlgo) (key : Buf 32)
    (nonce : Buf 12) (octets : List Byte) : Prop :=
  payload.length = ipcMaxPayload ∧
    (cryptoRequestOf payload).Asks algo key nonce octets

variable {algo : CryptoAlgo} {aead : Aead} {key : Buf 32} {nonce : Buf 12}
  {text : List Byte}

theorem cryptoReply_encrypt (haead : C.aead algo = some aead)
    (h : CryptoAsks payload algo key nonce text) (hnonce : nonce ≠ Buf.zero)
    (hlen : text.length + gcmTagSize ≤ cryptoDataLen) :
    cryptoReply C (.carrying .encryptReq sequence payload) =
      some ((aead.encrypt key nonce [] text).elim
        (.error, [CryptoError.invalidDataLength.code])
        fun result => (.encryptResp,
          (okReply algo.code (result.1 ++ result.2.toList)).toList)) := by
  have hresult : cryptoResult C (.carrying .encryptReq sequence payload) =
      (.encryptResp, handleEncrypt C (cryptoRequestOf payload) Buf.zero) := by
    rw [cryptoResult, parseRequest_carrying _ h.1]
    rfl
  rw [cryptoReply, hresult, handleEncrypt_eq haead h.2 hnonce hlen]
  rcases aead.encrypt key nonce [] text with _ | result
  · rfl
  · rfl

theorem cryptoReply_decrypt {cipher : List Byte} {tag : Buf 16}
    (haead : C.aead algo = some aead)
    (h : CryptoAsks payload algo key nonce (cipher ++ tag.toList))
    (hlen : cipher.length + gcmTagSize ≤ cryptoDataLen) :
    cryptoReply C (.carrying .decryptReq sequence payload) =
      some ((aead.decrypt key nonce [] cipher tag).elim
        (.error, [CryptoError.authenticationFailed.code])
        fun text => (.decryptResp, (okReply algo.code text).toList)) := by
  have hresult : cryptoResult C (.carrying .decryptReq sequence payload) =
      (.decryptResp, handleDecrypt C (cryptoRequestOf payload) Buf.zero) := by
    rw [cryptoResult, parseRequest_carrying _ h.1]
    rfl
  rw [cryptoReply, hresult, handleDecrypt_eq haead h.2 hlen]
  rcases aead.decrypt key nonce [] cipher tag with _ | text
  · rfl
  · rfl

theorem octets_carrying_okReply (replyType : MessageType) (code : Byte)
    {data : List Byte} (hlen : data.length ≤ cryptoDataLen) :
    (CryptoPayload.ofBytes (IpcMessage.carrying replyType sequence
      (okReply code data).toList).payload).octets = data := by
  have hpayload : (IpcMessage.carrying replyType sequence
      (okReply code data).toList).payload = okReply code data :=
    Buf.ofList_toList _
  have hsmall : data.length < 2 ^ 16 := hlen.trans_lt (by decide)
  have hcode : (BitVec.ofNat 16 data.length).toNat = data.length :=
    (BitVec.toNat_ofNat ..).trans (Nat.mod_eq_of_lt hsmall)
  rw [hpayload, ofBytes_okReply hlen, CryptoPayload.octets,
    CryptoPayload.reply, hcode, Buf.slice_ofList (by omega) (by omega)]
  simp

/-- The payload of a client that writes the fields of its request to a zeroed
buffer. -/
def aeadRequest (algo : CryptoAlgo) (key : Buf 32) (nonce : Buf 12)
    (octets : List Byte) : Buf ipcMaxPayload :=
  payloadOf algo.code 32 12 key.toList nonce.toList octets

theorem cryptoAsks_aeadRequest (algo : CryptoAlgo) (key : Buf 32)
    (nonce : Buf 12) {octets : List Byte}
    (hlen : octets.length ≤ cryptoDataLen) :
    CryptoAsks (aeadRequest algo key nonce octets).toList algo key nonce
      octets := by
  have hkey : key.toList.length ≤ 64 := by simp
  have hnonce : nonce.toList.length ≤ 12 := by simp
  have hsmall : octets.length < 2 ^ 16 := hlen.trans_lt (by decide)
  refine ⟨Buf.length_toList _, ?_⟩
  rw [cryptoRequestOf, Buf.ofList_toList, aeadRequest,
    ofBytes_payloadOf hkey hnonce hlen]
  refine ⟨rfl, rfl, ?_, rfl, Buf.ofList_toList nonce, ?_⟩
  · rw [Buf.slice_ofList (by simp) (by decide), List.drop_zero,
      List.take_of_length_le (by simp)]
  · dsimp only [CryptoPayload.octets]
    rw [BitVec.toNat_ofNat, Nat.mod_eq_of_lt hsmall,
      Buf.slice_ofList (by omega) (by omega), List.drop_zero, List.take_length]

theorem exists_of_ipcCall_encrypt {σ : Type} {sign : KernelService σ}
    {k k₁ : IpcKernel σ} {cap : Capability} {i : Fin ipcMaxEndpoints}
    {ep : IpcEndpoint} {sealed : IpcMessage}
    (hcap : cap.endpointId = epCrypto)
    (hserves : k.registry.Serves epCrypto i ep) (hidle : ep.state = .idle)
    (hrefusal : ep.refusal cap payload = none)
    (haead : C.aead algo = some aead)
    (hasks : CryptoAsks payload algo key nonce text)
    (hnonce : nonce ≠ Buf.zero)
    (hlen : text.length + gcmTagSize ≤ cryptoDataLen)
    (hcall : k.ipcCall ⟨cryptoKernelService C, sign⟩ cap .encryptReq payload =
      some (.ok sealed, k₁))
    (hok : sealed.header.msgType ≠ .error) :
    k₁ = ⟨k.registry.set i ep.afterCall, k.state⟩ ∧
      ∃ cipher tag, aead.encrypt key nonce [] text = some (cipher, tag) ∧
        (CryptoPayload.ofBytes sealed.payload).octets =
          cipher ++ tag.toList := by
  rw [ipcCall_crypto_eq C sign hcap hserves hidle .encryptReq hrefusal,
    cryptoReply_encrypt haead hasks hnonce hlen, Option.map_some] at hcall
  rcases hresult : aead.encrypt key nonce [] text with _ | ⟨cipher, tag⟩
  · rw [hresult] at hcall
    cases hcall
    exact absurd rfl hok
  · rw [hresult] at hcall
    cases hcall
    have hfits : (cipher ++ tag.toList).length ≤ cryptoDataLen := by
      rw [List.length_append, aead.length_encrypt hresult, Buf.length_toList]
      exact hlen
    exact ⟨rfl, cipher, tag, rfl, octets_carrying_okReply _ _ hfits⟩

/-- Over a free endpoint, the octets of a successful encryption come back as
the text when they are sent to be decrypted, and a text that leaves no room for
the tag is answered with an error. -/
theorem crypto_round_trip (C : CryptoCrates)
    (hcorrect : ∀ algo aead, C.aead algo = some aead → aead.Correct)
    {σ : Type} (sign : KernelService σ) {k : IpcKernel σ} {cap : Capability}
    {i : Fin ipcMaxEndpoints} {ep : IpcEndpoint}
    (hcap : cap.endpointId = epCrypto)
    (hvalid : cap.isValidFor ep.id ep.requiredRights = true)
    (hserves : k.registry.Serves epCrypto i ep) (hidle : ep.state = .idle) :
    (∀ algo key nonce text payload payload' sealed k₁,
      algo = .aes256Gcm ∨ algo = .chaCha20Poly → nonce ≠ Buf.zero →
      text.length ≤ 152 → CryptoAsks payload algo key nonce text →
      k.ipcCall ⟨cryptoKernelService C, sign⟩ cap .encryptReq payload =
        some (.ok sealed, k₁) →
      sealed.header.msgType ≠ .error →
      CryptoAsks payload' algo key nonce
        (CryptoPayload.ofBytes sealed.payload).octets →
      ∃ opened k₂,
        k₁.ipcCall ⟨cryptoKernelService C, sign⟩ cap .decryptReq payload' =
            some (.ok opened, k₂) ∧
          opened.header.msgType = .decryptResp ∧
          (CryptoPayload.ofBytes opened.payload).octets = text) ∧
    (∀ payload, payload.length ≤ ipcMaxPayload →
      153 ≤ (cryptoRequestOf payload).dataLen.toNat →
      ∃ reply k₁,
        k.ipcCall ⟨cryptoKernelService C, sign⟩ cap .encryptReq payload =
            some (.ok reply, k₁) ∧
          ErrorReply reply) := by
  have haccepts : ∀ payload : List Byte, payload.length ≤ ipcMaxPayload →
      ep.refusal cap payload = none := by
    intro payload hlen
    rw [IpcEndpoint.refusal, if_neg (Nat.not_lt.mpr hlen), if_pos hvalid]
  constructor
  · intro algo key nonce text payload payload' sealed k₁ halgo hnonce htext
      hasks hcall hok hback
    obtain ⟨aead, haead⟩ : ∃ aead, C.aead algo = some aead := by
      rcases halgo with rfl | rfl
      · exact ⟨_, rfl⟩
      · exact ⟨_, rfl⟩
    have hlen : text.length + gcmTagSize ≤ cryptoDataLen :=
      Nat.add_le_add_right htext gcmTagSize
    obtain ⟨rfl, cipher, tag, hencrypt, hoctets⟩ :=
      exists_of_ipcCall_encrypt hcap hserves hidle
        (haccepts payload hasks.1.le) haead hasks hnonce hlen hcall hok
    have hcipher : cipher.length = text.length := aead.length_encrypt hencrypt
    have hdecrypt := hcorrect algo aead haead key nonce [] text cipher tag
      hencrypt
    rw [hoctets] at hback
    -- the endpoint is as before, except for its sequence number
    have hserves₁ : (k.registry.set i ep.afterCall).Serves epCrypto i
        ep.afterCall :=
      hserves.set hserves.id_eq
    have hcall' := ipcCall_crypto_eq C sign
      (k := ⟨k.registry.set i ep.afterCall, k.state⟩) hcap hserves₁ rfl
      .decryptReq (haccepts payload' hback.1.le)
    rw [cryptoReply_decrypt haead hback (hcipher ▸ hlen), hdecrypt] at hcall'
    refine ⟨_, _, hcall', rfl, octets_carrying_okReply _ _ ?_⟩
    exact (Nat.le_add_right _ _).trans hlen
  · intro payload hlen hlarge
    obtain ⟨e, hreply⟩ : ∃ e : CryptoError,
        cryptoReply C (.carrying .encryptReq (ep.sequence + 1) payload) =
          some (.error, [e.code]) :=
      cryptoReply_of_large rfl (Nat.add_lt_add_right hlarge gcmTagSize)
    rw [ipcCall_crypto_eq C sign hcap hserves hidle .encryptReq
      (haccepts payload hlen), hreply]
    exact ⟨_, _, rfl, errorReply_carrying e (ep.sequence + 1)⟩

/-- One octet goes through the endpoint of a kernel that has just booted. -/
theorem crypto_round_trip_plain :
    ∃ (k k₁ k₂ : IpcKernel Unit) (cap : Capability)
      (sealed opened : IpcMessage) (nonce : Buf 12),
      k.ipcCall ⟨cryptoKernelService .plain, fun _ _ => none⟩ cap .encryptReq
          (aeadRequest .aes256Gcm Buf.zero nonce [7]).toList =
        some (.ok sealed, k₁) ∧
      k₁.ipcCall ⟨cryptoKernelService .plain, fun _ _ => none⟩ cap .decryptReq
          (aeadRequest .aes256Gcm Buf.zero nonce
            (CryptoPayload.ofBytes sealed.payload).octets).toList =
        some (.ok opened, k₂) ∧
      (CryptoPayload.ofBytes opened.payload).octets = [7] := by
  obtain ⟨i, hserves⟩ := IpcRegistry.serves_init_epCrypto
  set k : IpcKernel Unit := ⟨IpcRegistry.empty.init, ()⟩
  set cap : Capability := ⟨1, epCrypto, Rights.call⟩
  set nonce : Buf 12 := Buf.ofList 12 [1]
  have hcorrect : ∀ algo aead, CryptoCrates.plain.aead algo = some aead →
      aead.Correct := by
    intro algo aead haead
    obtain rfl : aead = .plain := by
      unfold CryptoCrates.aead at haead
      split at haead
      · exact (Option.some.inj haead).symm
      · exact (Option.some.inj haead).symm
      · cases haead
    intro key nonce aad text cipher tag hencrypt
    cases hencrypt
    rfl
  have hasks : CryptoAsks (aeadRequest .aes256Gcm Buf.zero nonce [7]).toList
      .aes256Gcm Buf.zero nonce [7] :=
    cryptoAsks_aeadRequest .aes256Gcm Buf.zero nonce (by decide)
  have hnonce : nonce ≠ Buf.zero := by decide
  have hrefusal : (IpcEndpoint.new epCrypto Rights.call).refusal cap
      (aeadRequest .aes256Gcm Buf.zero nonce [7]).toList = none := by
    rw [IpcEndpoint.refusal, hasks.1]
    decide
  obtain ⟨sealed, k₁, hsealed, hok, hfits⟩ : ∃ sealed k₁,
      k.ipcCall ⟨cryptoKernelService .plain, fun _ _ => none⟩ cap .encryptReq
          (aeadRequest .aes256Gcm Buf.zero nonce [7]).toList =
        some (.ok sealed, k₁) ∧ sealed.header.msgType ≠ .error ∧
      (CryptoPayload.ofBytes sealed.payload).octets.length ≤
        cryptoDataLen := by
    have hlen : ([7] ++ (Buf.zero : Buf 16).toList).length ≤
        cryptoDataLen := by decide
    rw [ipcCall_crypto_eq _ _ rfl hserves rfl .encryptReq hrefusal,
      cryptoReply_encrypt rfl hasks hnonce (by decide)]
    refine ⟨_, _, rfl, by decide, ?_⟩
    exact (congrArg List.length
      (octets_carrying_okReply _ _ hlen)).trans_le hlen
  obtain ⟨opened, k₂, hopened, -, htext⟩ :=
    (crypto_round_trip CryptoCrates.plain hcorrect (fun _ _ => none) rfl
      (by decide) hserves rfl).1 .aes256Gcm Buf.zero nonce [7] _ _ sealed k₁
      (.inl rfl) hnonce (by decide) hasks hsealed hok
      (cryptoAsks_aeadRequest .aes256Gcm Buf.zero nonce hfits)
  exact ⟨k, k₁, k₂, cap, sealed, opened, nonce, hsealed, hopened, htext⟩

end Client

end IsoLightK0
