import IsoLightK0.Ipc.Endpoint
import Mathlib.Data.Fin.Tuple.Basic
import Mathlib.Data.List.FinRange

/-!
# The IPC registry and synchronous calls

`ipc.rs`: the table of endpoints and `ipc_call`.  A call posts its request,
runs the kernel service behind the endpoint on the spot, and polls for the
reply.  A kernel service receives the message, computes the type and the
payload of a reply on a state of its own, and posts the reply.

The main fact is the equation `ipcCall_eq`: on an endpoint that holds no
message, a call is refused without any effect, or it is one transition of the
service.
-/

namespace IsoLightK0

open Bytes

def ipcMaxEndpoints : ℕ := 16

def epSystem : EndpointId := 0

def epCrypto : EndpointId := 1

def epSign : EndpointId := 2

def epLumenWire : EndpointId := 3

structure IpcRegistry where
  endpoints : Fin ipcMaxEndpoints → Option IpcEndpoint
  count : ℕ

namespace IpcRegistry

def empty : IpcRegistry where
  endpoints := fun _ => none
  count := 0

def set (r : IpcRegistry) (i : Fin ipcMaxEndpoints) (ep : IpcEndpoint) :
    IpcRegistry :=
  { r with endpoints := Function.update r.endpoints i (some ep) }

def register (r : IpcRegistry) (id : EndpointId) (requiredRights : Rights) :
    Except IpcError Unit × IpcRegistry :=
  if ipcMaxEndpoints ≤ r.count then (.error .endpointsFull, r)
  else
    match (List.finRange ipcMaxEndpoints).find? fun i =>
        (r.endpoints i).isNone with
    | none => (.error .endpointsFull, r)
    | some i =>
      (.ok (),
        { r.set i (.new id requiredRights) with count := r.count + 1 })

def findSlot (r : IpcRegistry) (id : EndpointId) :
    Option (Fin ipcMaxEndpoints) :=
  (List.finRange ipcMaxEndpoints).find? fun i =>
    (r.endpoints i).any fun ep => ep.id = id

/-- An operation on the endpoint that `find_mut` returns. -/
def withEndpoint {α : Type} (r : IpcRegistry) (id : EndpointId)
    (f : IpcEndpoint → Except IpcError α × IpcEndpoint) :
    Except IpcError α × IpcRegistry :=
  match r.findSlot id with
  | none => (.error .endpointNotFound, r)
  | some i =>
    match r.endpoints i with
    | none => (.error .endpointNotFound, r)
    | some ep => ((f ep).1, r.set i (f ep).2)

/-- `ipc::init`; the results of `register` are dropped. -/
def init (r : IpcRegistry) : IpcRegistry :=
  let r := (r.register epSystem Rights.call).2
  let r := (r.register epCrypto Rights.call).2
  let r := (r.register epSign Rights.call).2
  (r.register epLumenWire Rights.call).2

def ipcRecv (r : IpcRegistry) (id : EndpointId) :
    Except IpcError IpcMessage × IpcRegistry :=
  r.withEndpoint id IpcEndpoint.take

def ipcReply (r : IpcRegistry) (id : EndpointId) (replyType : MessageType)
    (payload : List Byte) : Except IpcError Unit × IpcRegistry :=
  r.withEndpoint id fun ep => ep.reply replyType payload

/-! ### The endpoint behind an identifier -/

/-- `find_mut` returns the endpoint `ep`, in slot `i`. -/
def Serves (r : IpcRegistry) (id : EndpointId) (i : Fin ipcMaxEndpoints)
    (ep : IpcEndpoint) : Prop :=
  r.findSlot id = some i ∧ r.endpoints i = some ep

variable {r : IpcRegistry} {id : EndpointId} {i : Fin ipcMaxEndpoints}
  {ep ep' : IpcEndpoint}

theorem Serves.id_eq (h : r.Serves id i ep) : ep.id = id := by
  obtain ⟨hslot, hep⟩ := h
  rw [findSlot, ← Fin.find?_eq_find?_finRange, Fin.find?_eq_some_iff] at hslot
  have hid := hslot.1
  rw [hep] at hid
  exact of_decide_eq_true hid

theorem Serves.set (h : r.Serves id i ep) (hid : ep'.id = id) :
    (r.set i ep').Serves id i ep' := by
  have hsame : (fun j => ((r.set i ep').endpoints j).any fun ep => ep.id = id) =
      fun j => (r.endpoints j).any fun ep => ep.id = id := by
    funext j
    by_cases hj : j = i
    · subst hj
      simp [IpcRegistry.set, h.2, hid, h.id_eq]
    · simp [IpcRegistry.set, hj]
  constructor
  · rw [findSlot, hsame]
    exact h.1
  · exact Function.update_self i (some ep') r.endpoints

theorem set_set (r : IpcRegistry) (i : Fin ipcMaxEndpoints)
    (ep ep' : IpcEndpoint) : (r.set i ep).set i ep' = r.set i ep' := by
  simp [IpcRegistry.set]

theorem Serves.set_self (h : r.Serves id i ep) : r.set i ep = r := by
  have hupdate : Function.update r.endpoints i (some ep) = r.endpoints :=
    (Function.update_eq_self_iff).mpr h.2.symm
  rw [IpcRegistry.set, hupdate]

theorem Serves.withEndpoint_eq {α : Type} (h : r.Serves id i ep)
    (f : IpcEndpoint → Except IpcError α × IpcEndpoint) :
    r.withEndpoint id f = ((f ep).1, r.set i (f ep).2) := by
  rw [withEndpoint, h.1]
  dsimp only
  rw [h.2]

theorem serves_init_epCrypto :
    ∃ i, empty.init.Serves epCrypto i (.new epCrypto Rights.call) :=
  ⟨⟨1, by decide⟩, by decide +kernel, rfl⟩

theorem serves_init_epSign :
    ∃ i, empty.init.Serves epSign i (.new epSign Rights.call) :=
  ⟨⟨2, by decide⟩, by decide +kernel, rfl⟩

end IpcRegistry

/-! ## Kernel services -/

/-- A kernel service between `ipc_recv` and `ipc_reply`: from a state and a
message to the type and the payload of its reply; `none` if it never gets
there. -/
abbrev KernelService (σ : Type) :=
  σ → IpcMessage → Option ((MessageType × List Byte) × σ)

/-- The services that `ipc_call` runs itself. -/
structure KernelServices (σ : Type) where
  crypto : KernelService σ
  sign : KernelService σ

/-- The registry, with the state of the services. -/
structure IpcKernel (σ : Type) where
  registry : IpcRegistry
  state : σ

def isKernelService (id : EndpointId) : Bool :=
  id = epCrypto ∨ id = epSystem ∨ id = epSign

variable {σ : Type}

/-- `dispatch` of a kernel service. -/
def KernelService.dispatch (service : KernelService σ) (id : EndpointId)
    (k : IpcKernel σ) : Option (Except IpcError Unit × IpcKernel σ) :=
  match k.registry.ipcRecv id with
  | (.error e, registry) => some (.error e, { k with registry := registry })
  | (.ok msg, registry) =>
    (service k.state msg).map fun (reply, state) =>
      let posted := registry.ipcReply id reply.1 reply.2
      (posted.1, ⟨posted.2, state⟩)

/-- The synchronous dispatch of `ipc_call`. -/
def KernelServices.dispatch (services : KernelServices σ) (id : EndpointId)
    (k : IpcKernel σ) : Option (Except IpcError Unit × IpcKernel σ) :=
  if isKernelService id then
    if id = epCrypto then services.crypto.dispatch id k
    else if id = epSign then services.sign.dispatch id k
    else some (.ok (), k)
  else some (.ok (), k)

namespace IpcKernel

/-- The reply loop of `ipc_call`.  Nothing changes the registry while it polls,
so that an endpoint without a reply is polled forever. -/
def pollReply (k : IpcKernel σ) (id : EndpointId) :
    Option (Except IpcError IpcMessage × IpcKernel σ) :=
  match k.registry.withEndpoint id IpcEndpoint.takeReply with
  | (.error .noMessage, _) => none
  | (result, registry) => some (result, { k with registry := registry })

def ipcCall (services : KernelServices σ) (k : IpcKernel σ)
    (cap : Capability) (msgType : MessageType) (payload : List Byte) :
    Option (Except IpcError IpcMessage × IpcKernel σ) :=
  match (IpcMessage.new msgType 0).setPayload payload with
  | .error e => some (.error e, k)
  | .ok msg =>
    match k.registry.withEndpoint cap.endpointId fun ep => ep.post cap msg with
    | (.error e, registry) => some (.error e, { k with registry := registry })
    | (.ok (), registry) =>
      match services.dispatch cap.endpointId
          { k with registry := registry } with
      | none => none
      | some (.error e, k) => some (.error e, k)
      | some (.ok (), k) => k.pollReply cap.endpointId

end IpcKernel

/-! ## A call as one transition of the service -/

/-- The message that `set_payload` builds from a payload that fits. -/
def IpcMessage.carrying (msgType : MessageType) (sequence : BitVec 32)
    (payload : List Byte) : IpcMessage where
  header := ⟨msgType, payload.length, sequence⟩
  payload := Buf.ofList ipcMaxPayload payload

theorem IpcMessage.setPayload_new {msgType : MessageType}
    {sequence : BitVec 32} {payload : List Byte}
    (h : payload.length ≤ ipcMaxPayload) :
    (IpcMessage.new msgType sequence).setPayload payload =
      .ok (.carrying msgType sequence payload) :=
  if_neg (Nat.not_lt.mpr h)

/-- What `ipc_call` objects to before the service sees the request. -/
def IpcEndpoint.refusal (ep : IpcEndpoint) (cap : Capability)
    (payload : List Byte) : Option IpcError :=
  if ipcMaxPayload < payload.length then some .payloadTooLarge
  else if cap.isValidFor ep.id ep.requiredRights then none
  else some .capabilityDenied

/-- The endpoint after a call that the service has answered. -/
def IpcEndpoint.afterCall (ep : IpcEndpoint) : IpcEndpoint :=
  { ep with state := .idle, sequence := ep.sequence + 1 }

namespace IpcEndpoint

variable {ep : IpcEndpoint} {cap : Capability} {payload : List Byte}

theorem refusal_eq_none (h : ep.refusal cap payload = none) :
    payload.length ≤ ipcMaxPayload ∧
      cap.isValidFor ep.id ep.requiredRights = true := by
  unfold refusal at h
  split at h
  · cases h
  case isFalse hlen =>
    split at h
    case isTrue hvalid => exact ⟨Nat.not_lt.mp hlen, hvalid⟩
    · cases h

theorem refusal_congr {payload' : List Byte}
    (hlen : payload.length = payload'.length) :
    ep.refusal cap payload = ep.refusal cap payload' := by
  rw [refusal, refusal, hlen]

theorem post_of_idle (hidle : ep.state = .idle) {msgType : MessageType}
    (hlen : payload.length ≤ ipcMaxPayload) :
    ep.post cap (.carrying msgType 0 payload) =
      if cap.isValidFor ep.id ep.requiredRights then
        (.ok (),
          { ep with
            state := .pendingReply
              (.carrying msgType (ep.sequence + 1) payload)
            sequence := ep.sequence + 1 })
      else (.error .capabilityDenied, ep) := by
  have hcode : (IpcMessage.carrying msgType 0
      payload).header.payloadLen.toNat ≤ ipcMaxPayload :=
    (BitVec.toNat_ofNat ..).trans_le ((Nat.mod_le _ _).trans hlen)
  rw [post, hidle]
  cases cap.isValidFor ep.id ep.requiredRights with
  | false => rfl
  | true => exact if_neg (Nat.not_lt.mpr hcode)

theorem reply_of_idle (hidle : ep.state = .idle) {replyType : MessageType}
    (hlen : payload.length ≤ ipcMaxPayload) :
    ep.reply replyType payload =
      (.ok (),
        { ep with
          state := .replyReady (.carrying replyType ep.sequence payload) }) := by
  rw [reply, IpcMessage.setPayload_new hlen]
  dsimp only
  rw [postReply, hidle]
  rfl

end IpcEndpoint

namespace IpcKernel

variable {services : KernelServices σ} {service : KernelService σ}
  {k : IpcKernel σ} {i : Fin ipcMaxEndpoints} {ep : IpcEndpoint}
  {id : EndpointId}

theorem dispatch_eq {msg : IpcMessage} (hserves : k.registry.Serves id i ep)
    (hstate : ep.state = .pendingReply msg)
    (hfits : ∀ reply state, service k.state msg = some (reply, state) →
      reply.2.length ≤ ipcMaxPayload) :
    service.dispatch id k =
      (service k.state msg).map fun (reply, state) =>
        (.ok (),
          ⟨k.registry.set i
            { ep with
              state := .replyReady
                (.carrying reply.1 ep.sequence reply.2) }, state⟩) := by
  have htake : ep.take = (.ok msg, { ep with state := .idle }) := by
    rw [IpcEndpoint.take, hstate]
  rw [KernelService.dispatch, IpcRegistry.ipcRecv, hserves.withEndpoint_eq,
    htake]
  dsimp only
  cases hservice : service k.state msg with
  | none => rfl
  | some next =>
    obtain ⟨reply, state⟩ := next
    have hfree : (k.registry.set i { ep with state := .idle }).Serves id i
        { ep with state := .idle } :=
      hserves.set hserves.id_eq
    have hreply : IpcEndpoint.reply { ep with state := .idle } reply.1
        reply.2 =
          (.ok (),
            { ep with
              state := .replyReady
                (.carrying reply.1 ep.sequence reply.2) }) :=
      IpcEndpoint.reply_of_idle rfl (hfits reply state hservice)
    simp only [Option.map_some, IpcRegistry.ipcReply,
      hfree.withEndpoint_eq, hreply, IpcRegistry.set_set]

theorem pollReply_eq {msg : IpcMessage} (hserves : k.registry.Serves id i ep)
    (hstate : ep.state = .replyReady msg) :
    k.pollReply id =
      some (.ok msg, ⟨k.registry.set i { ep with state := .idle }, k.state⟩) := by
  have htake : ep.takeReply = (.ok msg, { ep with state := .idle }) := by
    rw [IpcEndpoint.takeReply, hstate]
  rw [pollReply, hserves.withEndpoint_eq, htake]

/-- A call on a free endpoint of a kernel service whose replies fit. -/
theorem ipcCall_eq {cap : Capability} {msgType : MessageType}
    {payload : List Byte}
    (hserves : k.registry.Serves cap.endpointId i ep)
    (hidle : ep.state = .idle)
    (hservice : ∀ k, services.dispatch cap.endpointId k =
      service.dispatch cap.endpointId k)
    (hfits : ∀ msg reply state, service k.state msg = some (reply, state) →
      reply.2.length ≤ ipcMaxPayload) :
    k.ipcCall services cap msgType payload =
      match ep.refusal cap payload with
      | some e => some (.error e, k)
      | none =>
        (service k.state
            (.carrying msgType (ep.sequence + 1) payload)).map
          fun (reply, state) =>
            (.ok (.carrying reply.1 (ep.sequence + 1) reply.2),
              ⟨k.registry.set i ep.afterCall, state⟩) := by
  unfold ipcCall IpcEndpoint.refusal
  by_cases hlong : ipcMaxPayload < payload.length
  · simp [IpcMessage.setPayload, hlong]
  have hlen : payload.length ≤ ipcMaxPayload := Nat.not_lt.mp hlong
  rw [IpcMessage.setPayload_new hlen, if_neg hlong]
  dsimp only
  rw [hserves.withEndpoint_eq, IpcEndpoint.post_of_idle hidle hlen]
  cases hvalid : cap.isValidFor ep.id ep.requiredRights with
  | false =>
    simp only [Bool.false_eq_true, if_false, hserves.set_self]
  | true =>
    rw [if_pos rfl, if_pos rfl]
    dsimp only
    -- the request waits in the endpoint, then the reply does
    set request := IpcMessage.carrying msgType (ep.sequence + 1) payload
    set waiting : IpcEndpoint :=
      { ep with
        state := .pendingReply request
        sequence := ep.sequence + 1 }
    have hposted : (k.registry.set i waiting).Serves cap.endpointId i
        waiting :=
      hserves.set hserves.id_eq
    rw [hservice, dispatch_eq (k := ⟨k.registry.set i waiting, k.state⟩)
      hposted rfl (hfits request)]
    cases service k.state request with
    | none => rfl
    | some next =>
      obtain ⟨reply, state⟩ := next
      set ready : IpcEndpoint :=
        { waiting with
          state := .replyReady
            (.carrying reply.1 (ep.sequence + 1) reply.2) }
      have hready : ((k.registry.set i waiting).set i ready).Serves
          cap.endpointId i ready :=
        hposted.set hserves.id_eq
      dsimp only [Option.map_some]
      rw [pollReply_eq hready rfl, IpcRegistry.set_set, IpcRegistry.set_set]
      rfl

end IpcKernel

end IsoLightK0
