import IsoLightK0.Ipc.Registry
import IsoLightK0.Sign.RoundTrip
import IsoLightK0.Sign.Shown

/-!
# Several clients of the signature service

Nothing in a request to the service says who sends it: every client that holds
a capability for the endpoint works on the one session.  Here the clients are
followed through `ipc_call`.  An auxiliary variable remembers who began the
session; a request of another client leaves the session alone, and its reply
says nothing about the session's octets, as long as the service does not take
it for a request of the session.
-/

namespace IsoLightK0

open Bytes Runs

/-- `sign_service` as a kernel service. -/
def signKernelService (M : Mldsa44) :
    KernelService (SignService × CapDrbg) := fun state msg =>
  (state.1.dispatch M state.2 msg).map fun (reply, state) =>
    ((reply.replyType, reply.payload), state)

def requestOf (payload : List Byte) : SignPayload :=
  .ofBytes (Buf.ofList ipcMaxPayload payload)

theorem parseReq_carrying {msgType : MessageType} {sequence : BitVec 32}
    {payload : List Byte} (hlen : payload.length ≤ ipcMaxPayload) :
    parseReq (.carrying msgType sequence payload) =
      if payload.length = ipcMaxPayload then .ok (requestOf payload)
      else .error .invalidRequest := by
  have hcode : (IpcMessage.carrying msgType sequence
      payload).header.payloadLen.toNat = payload.length := by
    have hsmall : payload.length < 2 ^ 16 := hlen.trans_lt (by decide)
    exact (BitVec.toNat_ofNat ..).trans (Nat.mod_eq_of_lt hsmall)
  rw [parseReq, hcode]
  by_cases hfull : payload.length = ipcMaxPayload
  · rw [if_pos hfull, if_neg (Nat.not_lt.mpr hfull.ge)]
    rfl
  · rw [if_neg hfull, if_pos (lt_of_le_of_ne hlen hfull)]

namespace SignService

theorem length_payload_of_dispatch {M : Mldsa44} {S S' : SignService}
    {drbg drbg' : CapDrbg} {msg : IpcMessage} {reply : SignReply}
    (h : S.dispatch M drbg msg = some (reply, S', drbg')) :
    reply.payload.length = ipcMaxPayload := by
  unfold dispatch at h
  cases hparse : parseReq msg with
  | error e =>
    rw [hparse] at h
    cases h
    exact SignPayload.length_toBytes _
  | ok req =>
    rw [hparse] at h
    obtain ⟨answered, -, heq⟩ := Option.map_eq_some_iff.mp h
    cases heq
    exact SignPayload.length_toBytes _

def replyTo (req : SignPayload) (a : SignAnswer) : SignReply :=
  ⟨a.replyType, writeSignReply req.phase a.code a.offset a.total a.data⟩

variable {M : Mldsa44} {S S' : SignService} {drbg drbg' : CapDrbg}
  {msgType : MessageType} {sequence : BitVec 32} {payload : List Byte}
  {reply : SignReply}

theorem dispatch_cases (hlen : payload.length ≤ ipcMaxPayload)
    (h : S.dispatch M drbg (.carrying msgType sequence payload) =
      some (reply, S', drbg')) :
    (payload.length ≠ ipcMaxPayload ∧ S' = S ∧ drbg' = drbg ∧
      reply = ⟨.error,
        writeSignReply 0 SignError.invalidRequest.code 0 0 []⟩) ∨
    (payload.length = ipcMaxPayload ∧ ∃ a,
      S.answer M drbg msgType (requestOf payload) = some (a, S', drbg') ∧
      reply = replyTo (requestOf payload) a) := by
  unfold dispatch at h
  rw [parseReq_carrying hlen] at h
  by_cases hfull : payload.length = ipcMaxPayload
  · rw [if_pos hfull] at h
    obtain ⟨⟨a, S₁, drbg₁⟩, hanswer, heq⟩ := Option.map_eq_some_iff.mp h
    cases heq
    exact .inr ⟨hfull, a, hanswer, rfl⟩
  · rw [if_neg hfull] at h
    cases h
    exact .inl ⟨hfull, rfl, rfl, rfl⟩

theorem dispatch_eq_none_iff (hlen : payload.length ≤ ipcMaxPayload) :
    S.dispatch M drbg (.carrying msgType sequence payload) = none ↔
      payload.length = ipcMaxPayload ∧ msgType = .signExecReq ∧
        randBytes 32 drbg = none := by
  unfold dispatch
  rw [parseReq_carrying hlen]
  by_cases hfull : payload.length = ipcMaxPayload
  · rw [if_pos hfull]
    dsimp only
    rw [Option.map_eq_none_iff, answer_eq_none_iff]
    exact (and_iff_right hfull).symm
  · rw [if_neg hfull]
    simp [hfull]

theorem eq_of_dispatch (hlen : payload.length ≤ ipcMaxPayload)
    (hbusy : S.session.phase ≠ .idle)
    (hreach : payload.length = ipcMaxPayload →
      ¬ S.Reaches msgType (requestOf payload))
    (h : S.dispatch M drbg (.carrying msgType sequence payload) =
      some (reply, S', drbg')) : S' = S := by
  rcases dispatch_cases hlen h with ⟨-, hsame, -, -⟩ | ⟨hfull, a, hanswer, -⟩
  · exact hsame
  · exact eq_of_not_reaches hbusy (hreach hfull) hanswer

/-- The two payloads are the same, up to the data of a chunk. -/
def SamePayload (msgType : MessageType) (payload payload' : List Byte) :
    Prop :=
  payload = payload' ∨
    (msgType = .signInChunkReq ∧ payload.length = payload'.length ∧
      (requestOf payload).SameHeader (requestOf payload'))

theorem SamePayload.length_eq {payload' : List Byte}
    (h : SamePayload msgType payload payload') :
    payload.length = payload'.length := by
  rcases h with rfl | ⟨-, hlength, -⟩
  · rfl
  · exact hlength

theorem dispatch_lockstep {M₁ M₂ : Mldsa44} {S₁ S₂ S₁' S₂' : SignService}
    {drbg₁ drbg₂ : CapDrbg} {payload₁ payload₂ : List Byte}
    {reply₁ reply₂ : SignReply} (hshown : S₁.shown = S₂.shown)
    (hpayload : SamePayload msgType payload₁ payload₂)
    (hlen : payload₁.length ≤ ipcMaxPayload)
    (h₁ : S₁.dispatch M₁ drbg (.carrying msgType sequence payload₁) =
      some (reply₁, S₁', drbg₁))
    (h₂ : S₂.dispatch M₂ drbg (.carrying msgType sequence payload₂) =
      some (reply₂, S₂', drbg₂)) :
    S₁'.shown = S₂'.shown ∧ drbg₁ = drbg₂ ∧
      ((payload₁.length = ipcMaxPayload →
          ¬ S₁.Yields msgType ∧ ¬ S₂.Yields msgType) →
        reply₁ = reply₂) := by
  have hlengths : payload₁.length = payload₂.length := hpayload.length_eq
  have hheader : (requestOf payload₁).SameHeader (requestOf payload₂) := by
    rcases hpayload with rfl | ⟨-, -, hheader⟩
    · exact .refl _
    · exact hheader
  have hsame : msgType ≠ .signInChunkReq →
      requestOf payload₁ = requestOf payload₂ := by
    intro htype
    rcases hpayload with rfl | ⟨hchunk, -, -⟩
    · rfl
    · exact (htype hchunk).elim
  rcases dispatch_cases hlen h₁ with
    ⟨hshort, rfl, rfl, rfl⟩ | ⟨hfull, a₁, hanswer₁, rfl⟩
  · rcases dispatch_cases (hlengths ▸ hlen) h₂ with
      ⟨-, rfl, rfl, rfl⟩ | ⟨hfull, -⟩
    · exact ⟨hshown, rfl, fun _ => rfl⟩
    · exact (hshort (hlengths.trans hfull)).elim
  · rcases dispatch_cases (hlengths ▸ hlen) h₂ with
      ⟨hshort, -⟩ | ⟨-, a₂, hanswer₂, rfl⟩
    · exact (hshort (hlengths.symm.trans hfull)).elim
    · obtain ⟨hafter, hdrbg, hreply⟩ :=
        answer_lockstep hshown hheader hsame hanswer₁ hanswer₂
      refine ⟨hafter, hdrbg, fun hquiet => ?_⟩
      obtain ⟨data, hdata⟩ := hheader
      rw [hreply (hquiet hfull).1 (hquiet hfull).2, hdata]
      rfl

end SignService

theorem signKernelService_fits {M : Mldsa44}
    {state state' : SignService × CapDrbg} {msg : IpcMessage}
    {reply : MessageType × List Byte}
    (h : signKernelService M state msg = some (reply, state')) :
    reply.2.length ≤ ipcMaxPayload := by
  obtain ⟨⟨signReply, state₁⟩, hsign, heq⟩ := Option.map_eq_some_iff.mp h
  cases heq
  exact (SignService.length_payload_of_dispatch hsign).le

/-! ## The clients -/

structure ClientCall (Client : Type) where
  client : Client
  msgType : MessageType
  payload : List Byte

/-- The kernel and, as an auxiliary variable, the client that began the current
session. -/
structure ClientsState (Client : Type) where
  kernel : IpcKernel (SignService × CapDrbg)
  owner : Option Client

namespace ClientsState

variable {Client : Type}

def service (s : ClientsState Client) : SignService := s.kernel.state.1

def drbg (s : ClientsState Client) : CapDrbg := s.kernel.state.2

def boot (drbg : CapDrbg) : ClientsState Client where
  kernel := ⟨IpcRegistry.empty.init, .reset, drbg⟩
  owner := none

/-- A session belongs to the client whose request has left the idle phase. -/
def ownerAfter (s : ClientsState Client) (after : SignService)
    (client : Client) : Option Client :=
  if after.session.phase = .idle then none
  else if s.service.session.phase = .idle then some client
  else s.owner

/-- One `ipc_call` of a client, with the client's capability. -/
def step (M : Mldsa44) (crypto : KernelService (SignService × CapDrbg))
    (caps : Client → Capability) (s : ClientsState Client)
    (call : ClientCall Client) :
    Option (Except IpcError IpcMessage × ClientsState Client) :=
  (s.kernel.ipcCall ⟨crypto, signKernelService M⟩ (caps call.client)
      call.msgType call.payload).map fun (result, kernel) =>
    (result, ⟨kernel, s.ownerAfter kernel.state.1 call.client⟩)

/-- The current session was begun by another client. -/
def Foreign (s : ClientsState Client) (client : Client) : Prop :=
  ∃ owner, s.owner = some owner ∧ owner ≠ client

/-- A request to another client's session is one that the service does not take
for a request of the session. -/
def Admits (s : ClientsState Client) (call : ClientCall Client) : Prop :=
  s.Foreign call.client → call.payload.length = ipcMaxPayload →
    ¬ s.service.Reaches call.msgType (requestOf call.payload)

/-- The calls are the same, but the client that began the session may send
other octets in its chunks. -/
def Agree (s : ClientsState Client) (call call' : ClientCall Client) : Prop :=
  call = call' ∨
    (s.owner = some call.client ∧ call.client = call'.client ∧
      call.msgType = call'.msgType ∧
      SignService.SamePayload call.msgType call.payload call'.payload)

/-- The endpoint of the service is registered and free, and a session has an
owner exactly if it is not idle. -/
structure Settled (s : ClientsState Client) : Prop where
  serves : ∃ i ep, s.kernel.registry.Serves epSign i ep ∧ ep.state = .idle
  owned : s.owner = none ↔ s.service.session.phase = .idle

theorem settled_boot (drbg : CapDrbg) :
    (boot drbg : ClientsState Client).Settled := by
  obtain ⟨i, hserves⟩ := IpcRegistry.serves_init_epSign
  exact ⟨⟨i, _, hserves, rfl⟩, ⟨fun _ => rfl, fun _ => rfl⟩⟩

variable {M : Mldsa44} {crypto : KernelService (SignService × CapDrbg)}
  {caps : Client → Capability} {s s' : ClientsState Client}
  {call : ClientCall Client} {r : Except IpcError IpcMessage}

theorem ownerAfter_eq_none_iff (hs : s.Settled) (after : SignService)
    (client : Client) :
    s.ownerAfter after client = none ↔ after.session.phase = .idle := by
  unfold ownerAfter
  by_cases hafter : after.session.phase = .idle
  · simp [hafter]
  · rw [if_neg hafter]
    by_cases hidle : s.service.session.phase = .idle
    · simp [hidle, hafter]
    · rw [if_neg hidle]
      exact iff_of_false (mt hs.owned.mp hidle) hafter

variable {i : Fin ipcMaxEndpoints} {ep : IpcEndpoint}

section SignCalls

variable (hcap : (caps call.client).endpointId = epSign)

include hcap

section Served

variable (hserves : s.kernel.registry.Serves epSign i ep)
  (hidle : ep.state = .idle)

include hserves hidle

theorem ipcCall_sign_eq :
    s.kernel.ipcCall ⟨crypto, signKernelService M⟩ (caps call.client)
        call.msgType call.payload =
      match ep.refusal (caps call.client) call.payload with
      | some e => some (.error e, s.kernel)
      | none =>
        (signKernelService M s.kernel.state
            (.carrying call.msgType (ep.sequence + 1) call.payload)).map
          fun (reply, state) =>
            (.ok (.carrying reply.1 (ep.sequence + 1) reply.2),
              ⟨s.kernel.registry.set i ep.afterCall, state⟩) := by
  have hdispatch : ∀ k, KernelServices.dispatch
      ⟨crypto, signKernelService M⟩ (caps call.client).endpointId k =
        (signKernelService M).dispatch (caps call.client).endpointId k := by
    intro k
    rw [hcap]
    rfl
  have hserves' : s.kernel.registry.Serves (caps call.client).endpointId i
      ep := by
    rw [hcap]
    exact hserves
  exact IpcKernel.ipcCall_eq hserves' hidle hdispatch
    fun _ _ _ => signKernelService_fits

theorem step_cases (h : s.step M crypto caps call = some (r, s')) :
    s'.owner = s.ownerAfter s'.service call.client ∧
    ((∃ e, ep.refusal (caps call.client) call.payload = some e ∧
        r = .error e ∧ s'.kernel = s.kernel) ∨
      (ep.refusal (caps call.client) call.payload = none ∧
        ∃ reply,
          s.service.dispatch M s.drbg
              (.carrying call.msgType (ep.sequence + 1) call.payload) =
            some (reply, s'.service, s'.drbg) ∧
          r = .ok (.carrying reply.replyType (ep.sequence + 1)
            reply.payload) ∧
          s'.kernel.registry = s.kernel.registry.set i ep.afterCall)) := by
  obtain ⟨⟨result, kernel⟩, hipc, heq⟩ := Option.map_eq_some_iff.mp h
  cases heq
  rw [ipcCall_sign_eq hcap hserves hidle] at hipc
  refine ⟨rfl, ?_⟩
  cases hrefusal : ep.refusal (caps call.client) call.payload with
  | some e =>
    rw [hrefusal] at hipc
    cases hipc
    exact .inl ⟨e, rfl, rfl, rfl⟩
  | none =>
    rw [hrefusal] at hipc
    obtain ⟨⟨reply, state⟩, hservice, heq⟩ := Option.map_eq_some_iff.mp hipc
    cases heq
    obtain ⟨⟨signReply, state'⟩, hsign, heq⟩ :=
      Option.map_eq_some_iff.mp hservice
    cases heq
    exact .inr ⟨rfl, signReply, hsign, rfl, rfl⟩

/-- Whether a call returns is up to the DRBG alone. -/
theorem step_eq_none_iff (M : Mldsa44)
    (crypto : KernelService (SignService × CapDrbg)) :
    s.step M crypto caps call = none ↔
      ep.refusal (caps call.client) call.payload = none ∧
        call.payload.length = ipcMaxPayload ∧
        call.msgType = .signExecReq ∧ randBytes 32 s.drbg = none := by
  rw [step, Option.map_eq_none_iff, ipcCall_sign_eq hcap hserves hidle]
  cases hrefusal : ep.refusal (caps call.client) call.payload with
  | some e => simp
  | none =>
    dsimp only
    rw [Option.map_eq_none_iff, signKernelService, Option.map_eq_none_iff,
      SignService.dispatch_eq_none_iff
        (IpcEndpoint.refusal_eq_none hrefusal).1]
    exact (and_iff_right rfl).symm

end Served

theorem Settled.step (hs : s.Settled)
    (h : s.step M crypto caps call = some (r, s')) : s'.Settled := by
  obtain ⟨i, ep, hserves, hidle⟩ := hs.serves
  obtain ⟨howner, hcases⟩ := step_cases hcap hserves hidle h
  constructor
  · rcases hcases with ⟨e, -, -, hkernel⟩ | ⟨-, reply, -, -, hregistry⟩
    · rw [hkernel]
      exact hs.serves
    · rw [hregistry]
      exact ⟨i, ep.afterCall, hserves.set hserves.id_eq, rfl⟩
  · rw [howner]
    exact ownerAfter_eq_none_iff hs s'.service call.client

/-- A request that another client's session is guarded against leaves it
alone. -/
theorem service_eq_of_foreign (hs : s.Settled)
    (hforeign : s.Foreign call.client) (hadmits : s.Admits call)
    (h : s.step M crypto caps call = some (r, s')) :
    s'.service = s.service := by
  obtain ⟨owner, howner, -⟩ := id hforeign
  have hbusy : s.service.session.phase ≠ .idle := by
    intro hidle
    rw [hs.owned.mpr hidle] at howner
    cases howner
  obtain ⟨i, ep, hserves, hidle⟩ := hs.serves
  obtain ⟨-, ⟨e, -, -, hkernel⟩ | ⟨hnone, reply, hdispatch, -, -⟩⟩ :=
    step_cases hcap hserves hidle h
  · rw [service, hkernel]
    rfl
  · exact SignService.eq_of_dispatch (IpcEndpoint.refusal_eq_none hnone).1
      hbusy (hadmits hforeign) hdispatch

end SignCalls

/-! ## Two runs -/

/-- The two states differ at most in the octets of the session and in what
`Exec` made of them. -/
structure Alike (s₁ s₂ : ClientsState Client) : Prop where
  registry : s₁.kernel.registry = s₂.kernel.registry
  shown : s₁.service.shown = s₂.service.shown
  drbg : s₁.drbg = s₂.drbg
  owner : s₁.owner = s₂.owner

variable {M₁ M₂ : Mldsa44} {s₁ s₂ s₁' s₂' : ClientsState Client}
  {call₁ call₂ : ClientCall Client} {r₁ r₂ : Except IpcError IpcMessage}

theorem Alike.phase_eq_idle_iff (h : s₁.Alike s₂) :
    s₁.service.session.phase = .idle ↔ s₂.service.session.phase = .idle := by
  rw [← SignService.phase_eq_idle_iff_shown, h.shown,
    SignService.phase_eq_idle_iff_shown]

theorem Alike.ownerAfter_eq (h : s₁.Alike s₂) {S₁ S₂ : SignService}
    (hshown : S₁.shown = S₂.shown) (client : Client) :
    s₁.ownerAfter S₁ client = s₂.ownerAfter S₂ client := by
  have hafter : S₁.session.phase = .idle ↔ S₂.session.phase = .idle := by
    rw [← SignService.phase_eq_idle_iff_shown, hshown,
      SignService.phase_eq_idle_iff_shown]
  simp only [ownerAfter, hafter, h.phase_eq_idle_iff, h.owner]

theorem Agree.client_eq (h : s₁.Agree call₁ call₂) :
    call₁.client = call₂.client := by
  rcases h with rfl | ⟨-, hclient, -⟩
  · rfl
  · exact hclient

theorem Agree.msgType_eq (h : s₁.Agree call₁ call₂) :
    call₁.msgType = call₂.msgType := by
  rcases h with rfl | ⟨-, -, htype, -⟩
  · rfl
  · exact htype

theorem Agree.payload (h : s₁.Agree call₁ call₂) :
    SignService.SamePayload call₁.msgType call₁.payload call₂.payload := by
  rcases h with rfl | ⟨-, -, -, hpayload⟩
  · exact .inl rfl
  · exact hpayload

/-- Calls that agree keep the states alike, and their replies are the same
unless they may say something about the octets of the session. -/
theorem Alike.step (halike : s₁.Alike s₂) (hs₁ : s₁.Settled)
    (hcaps : ∀ client, (caps client).endpointId = epSign)
    (hagree : s₁.Agree call₁ call₂)
    (h₁ : s₁.step M₁ crypto caps call₁ = some (r₁, s₁'))
    (h₂ : s₂.step M₂ crypto caps call₂ = some (r₂, s₂')) :
    s₁'.Alike s₂' ∧
      ((call₁.payload.length = ipcMaxPayload →
          ¬ s₁.service.Yields call₁.msgType ∧
            ¬ s₂.service.Yields call₁.msgType) →
        r₁ = r₂) := by
  obtain ⟨i, ep, hserves₁, hidle⟩ := hs₁.serves
  have hserves₂ : s₂.kernel.registry.Serves epSign i ep := by
    rw [← halike.registry]
    exact hserves₁
  have hrefusal : ep.refusal (caps call₁.client) call₁.payload =
      ep.refusal (caps call₂.client) call₂.payload := by
    rw [hagree.client_eq]
    exact IpcEndpoint.refusal_congr hagree.payload.length_eq
  obtain ⟨howner₁, hcases₁⟩ := step_cases (hcaps _) hserves₁ hidle h₁
  obtain ⟨howner₂, hcases₂⟩ := step_cases (hcaps _) hserves₂ hidle h₂
  rw [← hrefusal] at hcases₂
  rcases hcases₁ with
    ⟨e₁, hsome₁, rfl, hkernel₁⟩ | ⟨hnone₁, reply₁, hdispatch₁, rfl, hregistry₁⟩
  · rcases hcases₂ with ⟨e₂, hsome₂, rfl, hkernel₂⟩ | ⟨hnone₂, -⟩
    · have hshown : s₁'.service.shown = s₂'.service.shown := by
        rw [service, service, hkernel₁, hkernel₂]
        exact halike.shown
      refine ⟨⟨?_, hshown, ?_, ?_⟩, fun _ => ?_⟩
      · rw [hkernel₁, hkernel₂, halike.registry]
      · rw [ClientsState.drbg, ClientsState.drbg, hkernel₁, hkernel₂]
        exact halike.drbg
      · rw [howner₁, howner₂, hagree.client_eq]
        exact halike.ownerAfter_eq hshown call₂.client
      · rw [Option.some.inj (hsome₁.symm.trans hsome₂)]
    · rw [hsome₁] at hnone₂
      cases hnone₂
  · rcases hcases₂ with
      ⟨e₂, hsome₂, -⟩ | ⟨-, reply₂, hdispatch₂, rfl, hregistry₂⟩
    · rw [hnone₁] at hsome₂
      cases hsome₂
    · rw [← halike.drbg, ← hagree.msgType_eq] at hdispatch₂
      obtain ⟨hshown, hdrbg, hreply⟩ :=
        SignService.dispatch_lockstep halike.shown hagree.payload
          (IpcEndpoint.refusal_eq_none hnone₁).1 hdispatch₁ hdispatch₂
      refine ⟨⟨?_, hshown, hdrbg, ?_⟩, fun hquiet => ?_⟩
      · rw [hregistry₁, hregistry₂, halike.registry]
      · rw [howner₁, howner₂, hagree.client_eq]
        exact halike.ownerAfter_eq hshown call₂.client
      · rw [hreply hquiet]

theorem Alike.returns (M₂ : Mldsa44) (halike : s₁.Alike s₂) (hs₁ : s₁.Settled)
    (hcaps : ∀ client, (caps client).endpointId = epSign)
    (hagree : s₁.Agree call₁ call₂)
    (h₁ : s₁.step M₁ crypto caps call₁ = some (r₁, s₁')) :
    ∃ r₂ s₂', s₂.step M₂ crypto caps call₂ = some (r₂, s₂') := by
  obtain ⟨i, ep, hserves₁, hidle⟩ := hs₁.serves
  have hserves₂ : s₂.kernel.registry.Serves epSign i ep := by
    rw [← halike.registry]
    exact hserves₁
  have hsome : s₂.step M₂ crypto caps call₂ ≠ none := by
    intro hnone
    rw [step_eq_none_iff (hcaps _) hserves₂ hidle M₂ crypto, ← hagree.client_eq,
      ← hagree.msgType_eq, ← halike.drbg, ← hagree.payload.length_eq,
      ← IpcEndpoint.refusal_congr hagree.payload.length_eq,
      ← step_eq_none_iff (hcaps _) hserves₁ hidle M₁ crypto, h₁] at hnone
    cases hnone
  obtain ⟨⟨r₂, s₂'⟩, h₂⟩ := Option.ne_none_iff_exists'.mp hsome
  exact ⟨r₂, s₂', h₂⟩

/-- Sign requests of any number of clients, in any order, such that no request
to another client's session is one of the session.  Take two such runs, with
any two implementations of ML-DSA, whose calls differ at most in the octets
that a session's owner sends in its chunks.  Then a client that did not begin
the current session gets the same reply in both runs, if it gets one, and its
request leaves the session as it is. -/
theorem noninterference {M₁ M₂ : Mldsa44}
    {crypto : KernelService (SignService × CapDrbg)}
    {caps : Client → Capability}
    (hcaps : ∀ client, (caps client).endpointId = epSign)
    {drbg : CapDrbg} {s₁ s₂ s₁' : ClientsState Client}
    (hrun : Lockstep Admits Agree (step M₁ crypto caps) (step M₂ crypto caps)
      (boot drbg) (boot drbg) s₁ s₂)
    {call : ClientCall Client} {r : Except IpcError IpcMessage}
    (hother : s₁.owner ≠ some call.client)
    (hadmits₁ : s₁.Admits call) (hadmits₂ : s₂.Admits call)
    (h₁ : s₁.step M₁ crypto caps call = some (r, s₁')) :
    ∃ s₂', s₂.step M₂ crypto caps call = some (r, s₂') ∧
      (s₁.Foreign call.client →
        s₁'.service = s₁.service ∧ s₂'.service = s₂.service) := by
  have hinv : s₁.Alike s₂ ∧ s₁.Settled ∧ s₂.Settled := by
    apply hrun.invariant
      (R := fun s₁ s₂ => s₁.Alike s₂ ∧ s₁.Settled ∧ s₂.Settled)
    · exact ⟨⟨rfl, rfl, rfl, rfl⟩, settled_boot drbg, settled_boot drbg⟩
    · rintro s₁ s₂ a₁ a₂ r₁ r₂ s₁' s₂' ⟨halike, hs₁, hs₂⟩ hagree h₁ h₂
      exact ⟨(halike.step hs₁ hcaps hagree h₁ h₂).1,
        hs₁.step (hcaps a₁.client) h₁, hs₂.step (hcaps a₂.client) h₂⟩
  obtain ⟨halike, hs₁, hs₂⟩ := hinv
  have hquiet : call.payload.length = ipcMaxPayload →
      ¬ s₁.service.Yields call.msgType ∧
        ¬ s₂.service.Yields call.msgType := by
    intro hfull
    by_cases hidle : s₁.service.session.phase = .idle
    · exact ⟨SignService.not_yields_of_idle hidle _,
        SignService.not_yields_of_idle (halike.phase_eq_idle_iff.mp hidle) _⟩
    · obtain ⟨owner, howner⟩ :=
        Option.ne_none_iff_exists'.mp (mt hs₁.owned.mp hidle)
      have hne : owner ≠ call.client := by
        rintro rfl
        exact hother howner
      exact ⟨SignService.not_yields_of_not_reaches
          (hadmits₁ ⟨owner, howner, hne⟩ hfull),
        SignService.not_yields_of_not_reaches
          (hadmits₂ ⟨owner, halike.owner ▸ howner, hne⟩ hfull)⟩
  have hagree : s₁.Agree call call := .inl rfl
  obtain ⟨r₂, s₂', h₂⟩ := halike.returns M₂ hs₁ hcaps hagree h₁
  obtain rfl : r = r₂ := (halike.step hs₁ hcaps hagree h₁ h₂).2 hquiet
  refine ⟨s₂', h₂, fun hforeign => ?_⟩
  have hforeign₂ : s₂.Foreign call.client := by
    obtain ⟨owner, howner, hne⟩ := hforeign
    exact ⟨owner, halike.owner ▸ howner, hne⟩
  exact ⟨service_eq_of_foreign (hcaps _) hs₁ hforeign hadmits₁ h₁,
    service_eq_of_foreign (hcaps _) hs₂ hforeign₂ hadmits₂ h₂⟩

/-- The owner's own requests are not guarded, and neither are those to an idle
service. -/
theorem admits_of_owner (h : s.owner = none ∨ s.owner = some call.client) :
    s.Admits call := by
  rintro ⟨owner, howner, hne⟩
  rcases h with hnone | hsome
  · rw [hnone] at howner
    cases howner
  · rw [hsome] at howner
    exact (hne (Option.some.inj howner).symm).elim

end ClientsState

/-! ## Two clients and a seed -/

def sampleCaps : Bool → Capability
  | false => ⟨1, epSign, Rights.call⟩
  | true => ⟨2, epSign, Rights.call⟩

/-- A crate whose public key starts with the seed. -/
def Mldsa44.echoSeed : Mldsa44 where
  keygen := fun seed => some (Buf.ofList Sign.pkLen seed.toList, Buf.zero)
  sign := fun _ _ _ _ => none
  verify := fun _ _ _ _ => none

def noCrypto : KernelService (SignService × CapDrbg) := fun _ _ => none

/-- A call with a full payload whose first octets are given. -/
def fullCall (client : Bool) (msgType : MessageType) (octets : List Byte) :
    ClientCall Bool :=
  ⟨client, msgType, octets ++ List.replicate (256 - octets.length) 0⟩

/-- The first client begins a key generation from a seed of 32 octets. -/
def keygenBegin : ClientCall Bool :=
  fullCall false .signBeginReq
    [1, 1, 1, 0, 0, 0, 0, 0, 0, 0, 0, 0, 12, 0, 0, 0, 32, 0, 0, 0]

def keygenSeed (b : Byte) : ClientCall Bool :=
  fullCall false .signInChunkReq
    ([2, 1, 1, 0, 0, 0, 0, 0, 0, 0, 0, 0, 32, 0, 0, 0] ++
      List.replicate 32 b)

def keygenExec : ClientCall Bool := fullCall false .signExecReq [3, 1, 1]

/-- The second client reads the output and ends the session. -/
def intruderRead : ClientCall Bool := fullCall true .signOutChunkReq [4]

def intruderEnd : ClientCall Bool := fullCall true .signEndReq [5]

def sampleStep (s : ClientsState Bool) (call : ClientCall Bool) :
    Option (Except IpcError IpcMessage × ClientsState Bool) :=
  s.step .echoSeed noCrypto sampleCaps call

abbrev SampleLockstep
    (admits : ClientsState Bool → ClientCall Bool → Prop) :
    ClientsState Bool → ClientsState Bool → Prop :=
  Lockstep admits ClientsState.Agree sampleStep sampleStep (.boot oneDrawDrbg)
    (.boot oneDrawDrbg)

def sampleReply (s : ClientsState Bool) (call : ClientCall Bool) :
    Except IpcError IpcMessage :=
  match sampleStep s call with
  | none => .error .noMessage
  | some (r, _) => r

def sampleNext (s : ClientsState Bool) (call : ClientCall Bool) :
    ClientsState Bool :=
  match sampleStep s call with
  | none => s
  | some (_, s') => s'

theorem sampleStep_eq {s : ClientsState Bool} {call : ClientCall Bool}
    (h : (sampleStep s call).isSome = true) :
    sampleStep s call = some (sampleReply s call, sampleNext s call) := by
  unfold sampleReply sampleNext
  cases hstep : sampleStep s call with
  | none => simp [hstep] at h
  | some next => rfl

def sampleBegun : ClientsState Bool :=
  sampleNext (.boot oneDrawDrbg) keygenBegin

def sampleSeeded (b : Byte) : ClientsState Bool :=
  sampleNext sampleBegun (keygenSeed b)

def sampleExecuted (b : Byte) : ClientsState Bool :=
  sampleNext (sampleSeeded b) keygenExec

theorem sampleBegun_step :
    sampleStep (.boot oneDrawDrbg) keygenBegin =
      some (sampleReply (.boot oneDrawDrbg) keygenBegin, sampleBegun) :=
  sampleStep_eq (by decide +kernel)

theorem owner_sampleBegun : sampleBegun.owner = some false := by
  decide +kernel

theorem sampleSeeded_step (b : Byte) (hb : b = 7 ∨ b = 9) :
    sampleStep sampleBegun (keygenSeed b) =
      some (sampleReply sampleBegun (keygenSeed b), sampleSeeded b) := by
  apply sampleStep_eq
  rcases hb with rfl | rfl
  · decide +kernel
  · decide +kernel

theorem agree_keygenSeed :
    sampleBegun.Agree (keygenSeed 7) (keygenSeed 9) := by
  refine .inr ⟨owner_sampleBegun, rfl, rfl, .inr ⟨rfl, rfl, ?_⟩⟩
  exact SignPayload.sameHeader_of_eq (by decide +kernel) (by decide +kernel)
    (by decide +kernel) (by decide +kernel) (by decide +kernel)
    (by decide +kernel) (by decide +kernel)

theorem lockstep_sampleSeeded :
    SampleLockstep ClientsState.Admits (sampleSeeded 7) (sampleSeeded 9) := by
  have hbegun : SampleLockstep ClientsState.Admits sampleBegun sampleBegun :=
    Lockstep.start.next (.inl rfl)
      (ClientsState.admits_of_owner (.inl rfl))
      (ClientsState.admits_of_owner (.inl rfl)) sampleBegun_step
      sampleBegun_step
  exact hbegun.next agree_keygenSeed
    (ClientsState.admits_of_owner (.inr owner_sampleBegun))
    (ClientsState.admits_of_owner (.inr owner_sampleBegun))
    (sampleSeeded_step 7 (.inl rfl)) (sampleSeeded_step 9 (.inr rfl))

theorem noninterference_seed :
    ∃ s₁ s₂ : ClientsState Bool,
      SampleLockstep ClientsState.Admits s₁ s₂ ∧ s₁.Foreign true ∧
        s₁.service.keyBuf.slice 0 1 ≠ s₂.service.keyBuf.slice 0 1 ∧
        ∃ r s₁' s₂', sampleStep s₁ intruderRead = some (r, s₁') ∧
          sampleStep s₂ intruderRead = some (r, s₂') ∧
          s₁'.service = s₁.service := by
  have hcaps : ∀ client, (sampleCaps client).endpointId = epSign := by
    decide
  have howner : (sampleSeeded 7).owner = some false := by decide +kernel
  have hforeign : (sampleSeeded 7).Foreign true := ⟨false, howner, by decide⟩
  have hother : (sampleSeeded 7).owner ≠ some intruderRead.client := by
    rw [howner]
    decide
  have hadmits₁ : (sampleSeeded 7).Admits intruderRead := by
    intro _ _ hreach
    exact absurd hreach
      (show (sampleSeeded 7).service.session.phase ≠ .outputReady by
        decide +kernel)
  have hadmits₂ : (sampleSeeded 9).Admits intruderRead := by
    intro _ _ hreach
    exact absurd hreach
      (show (sampleSeeded 9).service.session.phase ≠ .outputReady by
        decide +kernel)
  have hstep : sampleStep (sampleSeeded 7) intruderRead =
      some (sampleReply (sampleSeeded 7) intruderRead,
        sampleNext (sampleSeeded 7) intruderRead) :=
    sampleStep_eq (by decide +kernel)
  obtain ⟨s₂', hstep₂, hkept⟩ := ClientsState.noninterference hcaps
    lockstep_sampleSeeded hother hadmits₁ hadmits₂ hstep
  exact ⟨_, _, lockstep_sampleSeeded, hforeign, by decide +kernel, _, _, s₂',
    hstep, hstep₂, (hkept hforeign).1⟩

def dataOctet : Except IpcError IpcMessage → Option Byte
  | .ok msg => some (msg.payload.toMem 16)
  | .error _ => none

/-- Without the guard the second client's `OutChunk` returns octets computed
from the first client's seed, and its `End` destroys the session. -/
theorem intruder_reads_and_ends :
    ∃ s₁ s₂ : ClientsState Bool,
      SampleLockstep (fun _ _ => True) s₁ s₂ ∧
        sampleCaps false ≠ sampleCaps true ∧ s₁.Foreign true ∧
        (∃ r₁ r₂ s₁' s₂', sampleStep s₁ intruderRead = some (r₁, s₁') ∧
          sampleStep s₂ intruderRead = some (r₂, s₂') ∧ r₁ ≠ r₂) ∧
        ∃ r s', sampleStep s₁ intruderEnd = some (r, s') ∧
          s'.service ≠ s₁.service := by
  have hbegun : SampleLockstep (fun _ _ => True) sampleBegun sampleBegun :=
    Lockstep.start.next (.inl rfl) trivial trivial sampleBegun_step
      sampleBegun_step
  have hseeded := hbegun.next agree_keygenSeed trivial trivial
    (sampleSeeded_step 7 (.inl rfl)) (sampleSeeded_step 9 (.inr rfl))
  have hexec : ∀ b : Byte, b = 7 ∨ b = 9 →
      (sampleStep (sampleSeeded b) keygenExec).isSome = true ∧
        (sampleStep (sampleExecuted b) intruderRead).isSome = true ∧
        dataOctet (sampleReply (sampleExecuted b) intruderRead) = some b := by
    rintro b (rfl | rfl)
    · decide +kernel
    · decide +kernel
  obtain ⟨hexec₁, hread₁, hoctet₁⟩ := hexec 7 (.inl rfl)
  obtain ⟨hexec₂, hread₂, hoctet₂⟩ := hexec 9 (.inr rfl)
  have hexecuted := hseeded.next (.inl rfl) trivial trivial
    (sampleStep_eq hexec₁) (sampleStep_eq hexec₂)
  refine ⟨sampleExecuted 7, sampleExecuted 9, hexecuted, by decide,
    ⟨false, by decide +kernel, by decide⟩, ⟨_, _, _, _, sampleStep_eq hread₁,
      sampleStep_eq hread₂, ?_⟩, _, _, sampleStep_eq (by decide +kernel), ?_⟩
  · intro hsame
    rw [hsame] at hoctet₁
    exact absurd (hoctet₁.symm.trans hoctet₂) (by decide)
  · intro hsame
    have hphase := congrArg (fun S : SignService => S.session.phase) hsame
    exact absurd hphase (by decide +kernel)

end IsoLightK0
