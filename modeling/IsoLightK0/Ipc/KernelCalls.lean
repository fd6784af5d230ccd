import IsoLightK0.Crypto.Replies
import IsoLightK0.Sign.Clients

/-!
# Calls of the kernel services

`ipc_call` runs the service of a kernel endpoint itself and then polls for the
reply.  The cryptographic and the signature service answer every request, so
that the first poll succeeds and the endpoint is free again.  The third kernel
endpoint has no service: its request stays pending, and the call polls forever.
-/

namespace IsoLightK0

open Bytes

namespace IpcKernel

variable {σ : Type} {services : KernelServices σ} {service : KernelService σ}
  {k : IpcKernel σ} {cap : Capability} {i : Fin ipcMaxEndpoints}
  {ep : IpcEndpoint} {payload : List Byte}

/-- The call returns, and the endpoint holds no message afterwards. -/
def CallReturns (services : KernelServices σ) (k : IpcKernel σ)
    (cap : Capability) (msgType : MessageType) (payload : List Byte) : Prop :=
  ∃ result k' i ep, k.ipcCall services cap msgType payload =
      some (result, k') ∧
    k'.registry.Serves cap.endpointId i ep ∧ ep.state = .idle

variable (hserves : k.registry.Serves cap.endpointId i ep)
  (hidle : ep.state = .idle)

include hserves hidle

theorem callReturns_of_too_large (msgType : MessageType)
    (hlong : ipcMaxPayload < payload.length) :
    k.CallReturns services cap msgType payload := by
  have hset : (IpcMessage.new msgType 0).setPayload payload =
      .error .payloadTooLarge := if_pos hlong
  refine ⟨.error .payloadTooLarge, k, i, ep, ?_, hserves, hidle⟩
  rw [ipcCall, hset]

theorem callReturns_of_answer
    (hdispatch : ∀ k, services.dispatch cap.endpointId k =
      service.dispatch cap.endpointId k)
    (hfits : ∀ msg reply state, service k.state msg = some (reply, state) →
      reply.2.length ≤ ipcMaxPayload) (hrefusal : ep.refusal cap payload = none)
    {msgType : MessageType}
    (hanswer : service k.state
      (.carrying msgType (ep.sequence + 1) payload) ≠ none) :
    k.CallReturns services cap msgType payload := by
  obtain ⟨⟨reply, state⟩, hreply⟩ := Option.ne_none_iff_exists'.mp hanswer
  have hfree : (k.registry.set i ep.afterCall).Serves cap.endpointId i
      ep.afterCall :=
    hserves.set hserves.id_eq
  refine ⟨.ok (.carrying reply.1 (ep.sequence + 1) reply.2),
    ⟨k.registry.set i ep.afterCall, state⟩, i, ep.afterCall, ?_, hfree, rfl⟩
  rw [ipcCall_eq hserves hidle hdispatch hfits, hrefusal, hreply]
  rfl

theorem ipcCall_eq_none_of_unhandled
    (hdispatch : ∀ k, services.dispatch cap.endpointId k = some (.ok (), k))
    (hrefusal : ep.refusal cap payload = none) (msgType : MessageType) :
    k.ipcCall services cap msgType payload = none := by
  obtain ⟨hlen, hvalid⟩ := IpcEndpoint.refusal_eq_none hrefusal
  rw [ipcCall, IpcMessage.setPayload_new hlen]
  dsimp only
  rw [hserves.withEndpoint_eq, IpcEndpoint.post_of_idle hidle hlen,
    if_pos hvalid]
  dsimp only
  set waiting : IpcEndpoint :=
    { ep with
      state := .pendingReply (.carrying msgType (ep.sequence + 1) payload)
      sequence := ep.sequence + 1 }
  have hposted : (k.registry.set i waiting).Serves cap.endpointId i waiting :=
    hserves.set hserves.id_eq
  rw [hdispatch]
  dsimp only
  rw [pollReply, hposted.withEndpoint_eq]
  rfl

end IpcKernel

/-! ## The kernel endpoints -/

/-- On a free kernel endpoint, with a capability that is accepted, a call
returns and leaves the endpoint free exactly when the endpoint has a service
or the payload is too large to be posted.  The draw of 32 octets from the DRBG
is assumed to end. -/
theorem ipcCall_returns_iff (C : CryptoCrates) (M : Mldsa44)
    {k : IpcKernel (SignService × CapDrbg)} {cap : Capability}
    {i : Fin ipcMaxEndpoints} {ep : IpcEndpoint}
    (hkernel : isKernelService cap.endpointId = true)
    (hserves : k.registry.Serves cap.endpointId i ep)
    (hidle : ep.state = .idle)
    (hvalid : cap.isValidFor ep.id ep.requiredRights = true)
    (hdrbg : randBytes 32 k.state.2 ≠ none)
    (msgType : MessageType) (payload : List Byte) :
    k.CallReturns ⟨cryptoKernelService C, signKernelService M⟩ cap msgType
        payload ↔
      cap.endpointId ≠ epSystem ∨ ipcMaxPayload < payload.length := by
  by_cases hlong : ipcMaxPayload < payload.length
  · exact iff_of_true
      (IpcKernel.callReturns_of_too_large hserves hidle msgType hlong)
      (.inr hlong)
  have hlen : payload.length ≤ ipcMaxPayload := Nat.le_of_not_lt hlong
  have hrefusal : ep.refusal cap payload = none := by
    rw [IpcEndpoint.refusal, if_neg hlong, if_pos hvalid]
  rcases of_decide_eq_true hkernel with hid | hid | hid
  · refine iff_of_true ?_ (.inl (by rw [hid]; decide))
    have hdispatch : ∀ k, KernelServices.dispatch
        ⟨cryptoKernelService C, signKernelService M⟩ cap.endpointId k =
          (cryptoKernelService C).dispatch cap.endpointId k := by
      intro k
      rw [hid]
      rfl
    exact IpcKernel.callReturns_of_answer hserves hidle hdispatch
      (fun msg _ _ => cryptoKernelService_fits C msg) hrefusal
      (cryptoKernelService_ne_none C _ k.state)
  · refine iff_of_false ?_ (not_or.mpr ⟨not_not.mpr hid, hlong⟩)
    have hdispatch : ∀ k, KernelServices.dispatch
        ⟨cryptoKernelService C, signKernelService M⟩ cap.endpointId k =
          some (.ok (), k) := by
      intro k
      rw [hid]
      rfl
    rintro ⟨result, k', _, _, hcall, -⟩
    rw [IpcKernel.ipcCall_eq_none_of_unhandled hserves hidle hdispatch
      hrefusal] at hcall
    cases hcall
  · refine iff_of_true ?_ (.inl (by rw [hid]; decide))
    have hdispatch : ∀ k, KernelServices.dispatch
        ⟨cryptoKernelService C, signKernelService M⟩ cap.endpointId k =
          (signKernelService M).dispatch cap.endpointId k := by
      intro k
      rw [hid]
      rfl
    refine IpcKernel.callReturns_of_answer hserves hidle hdispatch
      (fun _ _ _ => signKernelService_fits) hrefusal ?_
    rw [signKernelService, ne_eq, Option.map_eq_none_iff,
      SignService.dispatch_eq_none_iff hlen]
    exact fun hnone => hdrbg hnone.2.2

/-- The capabilities of a client of a kernel that has just booted. -/
def callCapability (id : EndpointId) : Capability := ⟨1, id, Rights.call⟩

/-- A digest is asked of the cryptographic service. -/
theorem ipcCall_returns_crypto :
    IpcKernel.CallReturns
      ⟨cryptoKernelService .plain, signKernelService .echoSeed⟩
      ⟨IpcRegistry.empty.init, .reset, none⟩ (callCapability epCrypto)
        .hashReq hashRequest.payload.toList := by
  obtain ⟨i, hserves⟩ := IpcRegistry.serves_init_epCrypto
  have hkernel : isKernelService (callCapability epCrypto).endpointId =
      true := by decide
  have hdrbg : randBytes 32 none ≠ none := by simp [randBytes]
  exact (ipcCall_returns_iff .plain .echoSeed
    (k := ⟨IpcRegistry.empty.init, .reset, none⟩) hkernel hserves rfl
    (by decide) hdrbg .hashReq _).mpr (.inl (by decide))

theorem serves_init_epSystem :
    IpcRegistry.empty.init.Serves epSystem ⟨0, by decide⟩
      (.new epSystem Rights.call) :=
  ⟨by decide +kernel, rfl⟩

/-- A ping to the system endpoint is never answered, although the endpoint is
one of the kernel services, is free, and accepts the capability. -/
theorem ipcCall_system_polls_forever :
    isKernelService epSystem = true ∧
      (callCapability epSystem).isValidFor epSystem Rights.call = true ∧
      IpcRegistry.empty.init.Serves epSystem ⟨0, by decide⟩
        (.new epSystem Rights.call) ∧
      IpcKernel.ipcCall
          ⟨cryptoKernelService .plain, signKernelService .echoSeed⟩
          ⟨IpcRegistry.empty.init, .reset, none⟩ (callCapability epSystem)
          .ping [] =
        none := by
  refine ⟨by decide, by decide, serves_init_epSystem, ?_⟩
  exact IpcKernel.ipcCall_eq_none_of_unhandled serves_init_epSystem rfl
    (fun _ => rfl) (by decide) .ping

end IsoLightK0
