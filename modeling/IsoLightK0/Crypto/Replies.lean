import IsoLightK0.Crypto.Service

/-!
# The replies of the cryptographic service

The handlers slice fixed arrays by the lengths that a request names.  No
request makes one of these accesses go out of range, and a handler that
succeeds has written a reply of one and the same form: the algorithm of the
request, no key, no nonce, and data followed by zeros.  Hence the dispatcher
answers every pending request with exactly one reply.
-/

namespace IsoLightK0

open Bytes Faults

def IsOkReply (algo : Byte) (reply : Buf ipcMaxPayload) : Prop :=
  ∃ data, data.length ≤ cryptoDataLen ∧ reply = okReply algo data

theorem writeOkReply_meets (algo : Byte) (data : List Byte) :
    Meets (writeOkReply Buf.zero algo data) (IsOkReply algo) := by
  by_cases hlen : data.length ≤ cryptoDataLen
  · rw [writeOkReply_of_le hlen]
    exact Meets.value ⟨data, hlen, rfl⟩
  · rw [writeOkReply_of_lt (Nat.lt_of_not_le hlen)]
    exact Meets.refused _

theorem parseAlgo_bind_meets {β : Type} {byte : Byte}
    {f : CryptoAlgo → Checked CryptoError β} {Q : β → Prop}
    (hf : ∀ algo, Meets (f algo) Q) : Meets (parseAlgo byte >>= f) Q :=
  Meets.orRefuse_bind fun algo _ => hf algo

variable (C : CryptoCrates) (req : CryptoPayload)

theorem CryptoPayload.keyAndNonce_meets :
    Meets req.keyAndNonce fun _ => True := by
  unfold CryptoPayload.keyAndNonce
  refine Meets.refuseIf_bind fun _ => ?_
  refine Meets.refuseIf_bind fun _ => ?_
  refine Meets.range_bind (by decide) (by decide) ?_
  refine Meets.toArray_bind (by simp) ?_
  refine Meets.range_bind (by decide) (by decide) ?_
  refine Meets.toArray_bind (by simp) ?_
  exact Meets.value trivial

theorem Aead.encryptRequest_meets (aead : Aead)
    (plaintext ciphertext : Buf cryptoDataLen) {ptLen : ℕ}
    (hlen : ptLen ≤ cryptoDataLen) :
    Meets (aead.encryptRequest req plaintext ptLen ciphertext)
      fun result => result.1 = ptLen := by
  unfold Aead.encryptRequest
  refine Meets.bind req.keyAndNonce_meets fun _ _ => ?_
  refine Meets.refuseIf_bind fun _ => ?_
  refine Meets.range_bind (Nat.zero_le _) hlen ?_
  refine Meets.orRefuse_bind fun result hresult => ?_
  have hcipher : result.1.length = ptLen - 0 :=
    (aead.length_encrypt hresult).trans (Buf.length_slice _ _ _)
  refine Meets.copyRange_bind (Nat.zero_le _) hlen hcipher ?_
  exact Meets.value rfl

theorem Aead.decryptRequest_meets (aead : Aead)
    (ciphertext plaintext : Buf cryptoDataLen) (tag : Buf 16) {ctLen : ℕ}
    (hlen : ctLen ≤ cryptoDataLen) :
    Meets (aead.decryptRequest req ciphertext ctLen tag plaintext)
      fun _ => True := by
  unfold Aead.decryptRequest
  refine Meets.bind req.keyAndNonce_meets fun _ _ => ?_
  refine Meets.range_bind (Nat.zero_le _) hlen ?_
  refine Meets.orRefuse_bind fun text htext => ?_
  have hlength : text.length = ctLen - 0 :=
    (aead.length_decrypt htext).trans (Buf.length_slice _ _ _)
  rw [copyRange_of_le (Nat.zero_le _) hlen hlength]
  exact Meets.value trivial

theorem encryptBy_meets (algo : CryptoAlgo) (plaintext : Buf cryptoDataLen)
    {ptLen : ℕ} (hlen : ptLen ≤ cryptoDataLen) :
    Meets (encryptBy C algo req plaintext ptLen)
      fun result => result.1 = ptLen := by
  unfold encryptBy
  split
  · exact Aead.encryptRequest_meets req C.aes256Gcm plaintext Buf.zero hlen
  · exact Aead.encryptRequest_meets req C.chacha20Poly1305 plaintext Buf.zero
      hlen
  · exact Meets.refused _

theorem decryptBy_meets (algo : CryptoAlgo) (ciphertext : Buf cryptoDataLen)
    (tag : Buf 16) {ctLen : ℕ} (hlen : ctLen ≤ cryptoDataLen) :
    Meets (decryptBy C algo req ciphertext ctLen tag) fun _ => True := by
  unfold decryptBy
  split
  · exact Aead.decryptRequest_meets req C.aes256Gcm ciphertext Buf.zero tag hlen
  · exact Aead.decryptRequest_meets req C.chacha20Poly1305 ciphertext Buf.zero
      tag hlen
  · exact Meets.refused _

theorem handleEncrypt_meets :
    Meets (handleEncrypt C req Buf.zero) fun reply =>
      IsOkReply req.algo reply ∧
        req.dataLen.toNat + gcmTagSize ≤ cryptoDataLen := by
  unfold handleEncrypt
  refine parseAlgo_bind_meets fun algo => ?_
  refine Meets.refuseIf_bind fun hlong => ?_
  have hlen : req.dataLen.toNat ≤ cryptoDataLen := Nat.le_of_not_lt hlong
  refine Meets.range_bind (Nat.zero_le _) hlen ?_
  refine Meets.copyRange_bind (Nat.zero_le _) hlen (Buf.length_slice _ _ _) ?_
  refine Meets.bind (encryptBy_meets C req algo _ hlen) ?_
  rintro ⟨_, ciphertext, tag⟩ rfl
  refine Meets.refuseIf_bind fun hlarge => ?_
  have htotal : req.dataLen.toNat + gcmTagSize ≤ cryptoDataLen :=
    Nat.le_of_not_lt hlarge
  have htag : tag.toList.length =
      req.dataLen.toNat + gcmTagSize - req.dataLen.toNat := by
    rw [Buf.length_toList, Nat.add_sub_cancel_left]
    rfl
  refine Meets.range_bind (Nat.zero_le _) hlen ?_
  refine Meets.copyRange_bind (Nat.zero_le _) hlen (Buf.length_slice _ _ _) ?_
  refine Meets.copyRange_bind (Nat.le_add_right _ _) htotal htag ?_
  refine Meets.range_bind (Nat.zero_le _) htotal ?_
  exact (writeOkReply_meets _ _).weaken fun _ h => ⟨h, htotal⟩

theorem handleDecrypt_meets :
    Meets (handleDecrypt C req Buf.zero) (IsOkReply req.algo) := by
  unfold handleDecrypt
  refine parseAlgo_bind_meets fun algo => ?_
  refine Meets.refuseIf_bind fun hrange => ?_
  obtain ⟨htag, hlen⟩ := not_not.mp hrange
  have hct : req.dataLen.toNat - gcmTagSize ≤ cryptoDataLen :=
    (Nat.sub_le _ _).trans hlen
  have hsize : req.dataLen.toNat - (req.dataLen.toNat - gcmTagSize) = 16 :=
    Nat.sub_sub_self htag
  refine Meets.range_bind (Nat.sub_le _ _) hlen ?_
  refine Meets.toArray_bind (by rw [Buf.length_slice, hsize]) ?_
  refine Meets.range_bind (Nat.zero_le _) hct ?_
  refine Meets.copyRange_bind (Nat.zero_le _) hct (Buf.length_slice _ _ _) ?_
  refine Meets.bind (decryptBy_meets C req algo _ _ hct) fun plaintext _ => ?_
  refine Meets.range_bind (Nat.zero_le _) hct ?_
  exact writeOkReply_meets _ _

theorem handleHash_meets :
    Meets (handleHash C req Buf.zero) (IsOkReply req.algo) := by
  unfold handleHash
  refine parseAlgo_bind_meets fun algo => ?_
  refine Meets.refuseIf_bind fun hlong => ?_
  refine Meets.range_bind (Nat.zero_le _) (Nat.le_of_not_lt hlong) ?_
  split
  · refine Meets.refuseIf_bind fun hkey => ?_
    have hkeyLen : req.keyLen.toNat ≤ 64 := Nat.le_of_not_lt hkey
    refine Meets.range_bind (Nat.zero_le _) hkeyLen ?_
    refine Meets.copyRange_bind (Nat.zero_le _) hkeyLen
      (Buf.length_slice _ _ _) ?_
    refine Meets.range_bind (Nat.zero_le _) hkeyLen ?_
    exact writeOkReply_meets _ _
  · refine Meets.orRefuse_bind fun digest _ => ?_
    refine Meets.range_bind (by decide) le_rfl ?_
    refine Meets.toArray_bind (by simp) ?_
    exact writeOkReply_meets _ _
  · refine Meets.range_bind (by decide) le_rfl ?_
    refine Meets.toArray_bind (by simp) ?_
    exact writeOkReply_meets _ _
  · refine Meets.range_bind (by decide) le_rfl ?_
    refine Meets.toArray_bind (by simp) ?_
    exact writeOkReply_meets _ _
  · exact Meets.refused _

theorem handleKdf_meets :
    Meets (handleKdf C req Buf.zero) (IsOkReply req.algo) := by
  unfold handleKdf
  refine parseAlgo_bind_meets fun algo => ?_
  refine Meets.refuseIf_bind fun _ => ?_
  refine Meets.refuseIf_bind fun hkey => ?_
  have hkeyLen : req.keyLen.toNat ≤ 32 := Nat.le_of_not_lt hkey
  have hkeyField : req.keyLen.toNat ≤ 64 := hkeyLen.trans (by decide)
  refine Meets.refuseIf_bind fun hnonce => ?_
  refine Meets.refuseIf_bind fun hrange => ?_
  obtain ⟨htwo, hlen⟩ := not_not.mp hrange
  refine Meets.range_bind (by decide) (by decide) ?_
  refine Meets.refuseIf_bind fun hokm => ?_
  obtain ⟨-, hokmLen⟩ := not_or.mp hokm
  refine Meets.range_bind htwo hlen ?_
  refine Meets.range_bind (Nat.zero_le _) hkeyField ?_
  refine Meets.copyRange_bind (Nat.zero_le _) hkeyLen
    (Buf.length_slice _ _ _) ?_
  refine Meets.range_bind (Nat.zero_le _) (Nat.le_of_not_lt hnonce) ?_
  refine Meets.range_bind (Nat.zero_le _) hkeyLen ?_
  refine Meets.orRefuse_bind fun expanded hexpanded => ?_
  refine Meets.copyRange_bind (Nat.zero_le _) (Nat.le_of_not_lt hokmLen)
    (length_hkdfExpand C.sha256 hexpanded) ?_
  refine Meets.range_bind (Nat.zero_le _) (Nat.le_of_not_lt hokmLen) ?_
  exact writeOkReply_meets _ _

theorem handleSign_meets :
    Meets (handleSign C req Buf.zero) (IsOkReply req.algo) := by
  unfold handleSign
  refine parseAlgo_bind_meets fun algo => ?_
  refine Meets.refuseIf_bind fun hlong => ?_
  have hlen : req.dataLen.toNat ≤ cryptoDataLen := Nat.le_of_not_lt hlong
  split
  · refine Meets.refuseIf_bind fun _ => ?_
    refine Meets.range_bind (by decide) (by decide) ?_
    refine Meets.toArray_bind (by simp) ?_
    refine Meets.range_bind (Nat.zero_le _) hlen ?_
    exact writeOkReply_meets _ _
  · refine Meets.refuseIf_bind fun _ => ?_
    refine Meets.range_bind (by decide) (by decide) ?_
    refine Meets.orRefuse_bind fun sk _ => ?_
    refine Meets.range_bind (Nat.zero_le _) hlen ?_
    exact writeOkReply_meets _ _
  · exact Meets.refused _

theorem verifyRequest_meets {pkSize sigSize : ℕ}
    (verify : List Byte → Buf sigSize → Buf pkSize → Bool)
    (hpk : pkSize ≤ 64) (hsig : sigSize ≤ cryptoDataLen) :
    Meets (verifyRequest verify req Buf.zero) (IsOkReply req.algo) := by
  unfold verifyRequest
  refine Meets.refuseIf_bind fun _ => ?_
  refine Meets.refuseIf_bind fun hshort => ?_
  refine Meets.refuseIf_bind fun hlong => ?_
  refine Meets.range_bind (Nat.zero_le _) hpk ?_
  refine Meets.orRefuse_bind fun pk _ => ?_
  refine Meets.range_bind (Nat.zero_le _) hsig ?_
  refine Meets.orRefuse_bind fun sig _ => ?_
  refine Meets.range_bind (Nat.le_of_not_lt hshort) (Nat.le_of_not_lt hlong) ?_
  split
  · exact writeOkReply_meets _ _
  · exact Meets.refused _

theorem handleVerify_meets :
    Meets (handleVerify C req Buf.zero) (IsOkReply req.algo) := by
  unfold handleVerify
  refine parseAlgo_bind_meets fun algo => ?_
  split
  · exact verifyRequest_meets req C.ed25519Verify (by decide) (by decide)
  · exact verifyRequest_meets req C.ed448Verify (by decide) (by decide)
  · exact Meets.refused _

theorem handleDh_meets :
    Meets (handleDh C req Buf.zero) (IsOkReply req.algo) := by
  unfold handleDh
  refine parseAlgo_bind_meets fun algo => ?_
  split
  · refine Meets.refuseIf_bind fun _ => ?_
    refine Meets.refuseIf_bind fun _ => ?_
    refine Meets.range_bind (by decide) (by decide) ?_
    refine Meets.orRefuse_bind fun sk _ => ?_
    refine Meets.range_bind (by decide) (by decide) ?_
    refine Meets.orRefuse_bind fun pk _ => ?_
    refine Meets.orRefuse_bind fun shared _ => ?_
    exact writeOkReply_meets _ _
  · exact Meets.refused _

/-! ## The dispatcher -/

variable (msg : IpcMessage)

theorem cryptoResult_meets :
    Meets (cryptoResult C msg).2 fun reply =>
      (cryptoResult C msg).1 ≠ .error ∧
        IsOkReply (CryptoPayload.ofBytes msg.payload).algo reply := by
  unfold cryptoResult parseRequest
  by_cases hshort : msg.header.payloadLen.toNat < ipcMaxPayload
  · rw [refuseIf_of hshort]
    exact Meets.refused _
  · rw [refuseIf_of_not hshort, ok_bind]
    dsimp only
    split
    · exact (handleEncrypt_meets C _).weaken fun _ h => ⟨by simp, h.1⟩
    · exact (handleDecrypt_meets C _).weaken fun _ h => ⟨by simp, h⟩
    · exact (handleHash_meets C _).weaken fun _ h => ⟨by simp, h⟩
    · exact (handleKdf_meets C _).weaken fun _ h => ⟨by simp, h⟩
    · exact (handleSign_meets C _).weaken fun _ h => ⟨by simp, h⟩
    · exact (handleVerify_meets C _).weaken fun _ h => ⟨by simp, h⟩
    · exact (handleDh_meets C _).weaken fun _ h => ⟨by simp, h⟩
    · exact Meets.refused _

theorem cryptoReply_cases :
    (∃ replyType data, replyType ≠ .error ∧ data.length ≤ cryptoDataLen ∧
        cryptoReply C msg = some (replyType,
          (okReply (CryptoPayload.ofBytes msg.payload).algo data).toList)) ∨
      ∃ e : CryptoError, cryptoReply C msg = some (.error, [e.code]) := by
  have hmeets := cryptoResult_meets C msg
  unfold cryptoReply
  rcases hresult : cryptoResult C msg with ⟨replyType, ⟨e | _⟩ | reply⟩
  · exact .inr ⟨e, rfl⟩
  · rw [hresult] at hmeets
    exact absurd rfl hmeets.1
  · rw [hresult] at hmeets
    obtain ⟨htype, data, hlen, rfl⟩ := hmeets.2 reply rfl
    exact .inl ⟨replyType, data, htype, hlen, rfl⟩

theorem cryptoKernelService_fits {σ : Type} {state state' : σ}
    {reply : MessageType × List Byte}
    (h : cryptoKernelService C state msg = some (reply, state')) :
    reply.2.length ≤ ipcMaxPayload := by
  rw [cryptoKernelService] at h
  rcases cryptoReply_cases C msg with
    ⟨replyType, data, -, -, hreply⟩ | ⟨e, hreply⟩
  · rw [hreply] at h
    cases h
    exact (Buf.length_toList _).le
  · rw [hreply] at h
    cases h
    exact Nat.succ_le_of_lt (by decide)

theorem cryptoKernelService_ne_none {σ : Type} (state : σ) :
    cryptoKernelService C state msg ≠ none := by
  rw [cryptoKernelService, ne_eq, Option.map_eq_none_iff]
  rcases cryptoReply_cases C msg with
    ⟨replyType, data, -, -, hreply⟩ | ⟨e, hreply⟩
  · simp [hreply]
  · simp [hreply]

theorem ipcCall_crypto_eq {σ : Type} (sign : KernelService σ)
    {k : IpcKernel σ} {cap : Capability} {i : Fin ipcMaxEndpoints}
    {ep : IpcEndpoint} (hcap : cap.endpointId = epCrypto)
    (hserves : k.registry.Serves epCrypto i ep) (hidle : ep.state = .idle)
    (msgType : MessageType) {payload : List Byte}
    (hrefusal : ep.refusal cap payload = none) :
    k.ipcCall ⟨cryptoKernelService C, sign⟩ cap msgType payload =
      (cryptoReply C (.carrying msgType (ep.sequence + 1) payload)).map
        fun reply =>
          (.ok (.carrying reply.1 (ep.sequence + 1) reply.2),
            ⟨k.registry.set i ep.afterCall, k.state⟩) := by
  have hserves' : k.registry.Serves cap.endpointId i ep := by
    rw [hcap]
    exact hserves
  have hdispatch : ∀ k : IpcKernel σ, KernelServices.dispatch
      ⟨cryptoKernelService C, sign⟩ cap.endpointId k =
        (cryptoKernelService C).dispatch cap.endpointId k := by
    intro k
    rw [hcap]
    rfl
  rw [IpcKernel.ipcCall_eq hserves' hidle hdispatch fun msg _ _ =>
    cryptoKernelService_fits C msg, hrefusal]
  dsimp only [cryptoKernelService]
  rw [Option.map_map]
  rfl

/-- A success payload: it fills the message, names the algorithm of the
request, has no key and no nonce, and zeros behind its data. -/
structure SuccessReply (request reply : IpcMessage) : Prop where
  not_error : reply.header.msgType ≠ .error
  payloadLen : reply.header.payloadLen.toNat = 256
  algo : (CryptoPayload.ofBytes reply.payload).algo =
    (CryptoPayload.ofBytes request.payload).algo
  keyLen : (CryptoPayload.ofBytes reply.payload).keyLen = 0
  key : (CryptoPayload.ofBytes reply.payload).key = Buf.zero
  nonceLen : (CryptoPayload.ofBytes reply.payload).nonceLen = 0
  nonce : (CryptoPayload.ofBytes reply.payload).nonce = Buf.zero
  dataLen : (CryptoPayload.ofBytes reply.payload).dataLen.toNat ≤
    cryptoDataLen
  rest : ∀ i : Fin cryptoDataLen,
    (CryptoPayload.ofBytes reply.payload).dataLen.toNat ≤ i →
      (CryptoPayload.ofBytes reply.payload).data i = 0

/-- An error message: one octet, and zeros behind it. -/
structure ErrorReply (reply : IpcMessage) : Prop where
  is_error : reply.header.msgType = .error
  payloadLen : reply.header.payloadLen.toNat = 1
  code : ∃ e : CryptoError, reply.payload.toMem 0 = e.code
  rest : ∀ i : Fin ipcMaxPayload, i.val ≠ 0 → reply.payload i = 0

theorem successReply_carrying {msg : IpcMessage} {replyType : MessageType}
    {data : List Byte} (htype : replyType ≠ .error)
    (hlen : data.length ≤ cryptoDataLen) (sequence : BitVec 32) :
    SuccessReply msg (.carrying replyType sequence
      (okReply (CryptoPayload.ofBytes msg.payload).algo data).toList) := by
  set algo := (CryptoPayload.ofBytes msg.payload).algo
  have hpayload : (IpcMessage.carrying replyType sequence
      (okReply algo data).toList).payload = okReply algo data :=
    Buf.ofList_toList _
  have hparsed : CryptoPayload.ofBytes (IpcMessage.carrying replyType sequence
      (okReply algo data).toList).payload = CryptoPayload.reply algo data := by
    rw [hpayload, ofBytes_okReply hlen]
  have hcode : (CryptoPayload.reply algo data).dataLen.toNat =
      data.length := by
    have hsmall : data.length < 2 ^ 16 := hlen.trans_lt (by decide)
    exact (BitVec.toNat_ofNat ..).trans (Nat.mod_eq_of_lt hsmall)
  constructor
  · exact htype
  · show BitVec.toNat ((okReply algo data).toList.length : BitVec 16) = 256
    rw [Buf.length_toList]
    rfl
  · rw [hparsed]
    rfl
  · rw [hparsed]
    rfl
  · rw [hparsed]
    rfl
  · rw [hparsed]
    rfl
  · rw [hparsed]
    rfl
  · rw [hparsed, hcode]
    exact hlen
  · intro i hi
    rw [hparsed, hcode] at hi
    rw [hparsed]
    simp [CryptoPayload.reply, Buf.ofList, hi]

theorem errorReply_carrying (e : CryptoError) (sequence : BitVec 32) :
    ErrorReply (.carrying .error sequence [e.code]) := by
  refine ⟨rfl, rfl, ⟨e, rfl⟩, ?_⟩
  intro i hi
  simp [IpcMessage.carrying, Buf.ofList, hi]

/-- Whatever request is pending on the endpoint, the dispatcher posts exactly
one reply, which is a success payload or an error message. -/
theorem crypto_dispatch_replies {σ : Type} (k : IpcKernel σ)
    {i : Fin ipcMaxEndpoints} {ep : IpcEndpoint} {msg : IpcMessage}
    (hserves : k.registry.Serves epCrypto i ep)
    (hpending : ep.state = .pendingReply msg) :
    ∃ reply : IpcMessage,
      (cryptoKernelService C).dispatch epCrypto k =
          some (.ok (),
            ⟨k.registry.set i { ep with state := .replyReady reply },
              k.state⟩) ∧
        (SuccessReply msg reply ∨ ErrorReply reply) := by
  have hfits : ∀ reply state,
      cryptoKernelService C k.state msg = some (reply, state) →
        reply.2.length ≤ ipcMaxPayload :=
    fun _ _ h => cryptoKernelService_fits C msg h
  rw [IpcKernel.dispatch_eq hserves hpending hfits, cryptoKernelService]
  rcases cryptoReply_cases C msg with
    ⟨replyType, data, htype, hlen, hreply⟩ | ⟨e, hreply⟩
  · rw [hreply]
    exact ⟨_, rfl, .inl (successReply_carrying htype hlen ep.sequence)⟩
  · rw [hreply]
    exact ⟨_, rfl, .inr (errorReply_carrying e ep.sequence)⟩

/-- A request for the SHA3-256 digest of three octets. -/
def hashRequest : IpcMessage where
  header := ⟨.hashReq, 256, 1⟩
  payload := Buf.ofList ipcMaxPayload [0x12, 0, 0, 0, 3, 0]

/-- The request is pending, and its handler answers with a digest. -/
theorem crypto_dispatch_replies_hash :
    ∃ (k : IpcKernel Unit) (i : Fin ipcMaxEndpoints) (ep : IpcEndpoint)
      (reply : IpcMessage),
      ep.state = .pendingReply hashRequest ∧
        (cryptoReply CryptoCrates.plain hashRequest).map Prod.fst =
          some .hashResp ∧
        (cryptoKernelService CryptoCrates.plain).dispatch epCrypto k =
          some (.ok (),
            ⟨k.registry.set i { ep with state := .replyReady reply },
              k.state⟩) ∧
        (SuccessReply hashRequest reply ∨ ErrorReply reply) := by
  obtain ⟨i, hserves⟩ := IpcRegistry.serves_init_epCrypto
  set ep : IpcEndpoint :=
    { IpcEndpoint.new epCrypto Rights.call with
      state := .pendingReply hashRequest }
  have hposted : (IpcRegistry.empty.init.set i ep).Serves epCrypto i ep :=
    hserves.set rfl
  obtain ⟨reply, hreply⟩ := crypto_dispatch_replies CryptoCrates.plain
    (⟨_, ()⟩ : IpcKernel Unit) hposted rfl
  exact ⟨_, i, ep, reply, rfl, by decide +kernel, hreply⟩

end IsoLightK0
