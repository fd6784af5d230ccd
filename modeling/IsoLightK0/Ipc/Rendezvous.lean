import IsoLightK0.Ipc.Endpoint
import IsoLightK0.Support.Mailbox
import IsoLightK0.Support.Runs

/-!
# Several clients and a service on one endpoint

The four operations of an endpoint, interleaved in any order by any number of
clients and a service.  Requests and replies are two single-slot mailboxes; in
the endpoint they share one slot, and neither `post` nor `post_reply` looks at
what the other has left there.  A run in which no posting call meets the
other's message, and in which a reply is taken by the client that posted last,
behaves like the two mailboxes.
-/

namespace IsoLightK0

open Bytes Runs

inductive RendezvousCall (Client : Type)
  | post (client : Client) (cap : Capability) (msg : IpcMessage)
  | take
  | postReply (replyType : MessageType) (payload : List Byte)
  | takeReply (client : Client)

/-- The result of a call.  For the posting calls it is recorded with the
request, respectively the reply, that the slot holds afterwards. -/
inductive RendezvousResult
  | posted (result : Except IpcError Unit) (held : Option IpcMessage)
  | taken (result : Except IpcError IpcMessage)
  | replied (result : Except IpcError Unit) (held : Option IpcMessage)
  | collected (result : Except IpcError IpcMessage)

/-- The endpoint and, as an auxiliary variable, the client whose request it
accepted last. -/
structure Rendezvous (Client : Type) where
  endpoint : IpcEndpoint
  lastPoster : Option Client

variable {Client : Type}

namespace Rendezvous

/-- An idle endpoint, before any request of the run. -/
def start (id : EndpointId) (requiredRights : Rights)
    (sequence : BitVec 32) : Rendezvous Client where
  endpoint := ⟨id, requiredRights, .idle, sequence⟩
  lastPoster := none

def step (s : Rendezvous Client) :
    RendezvousCall Client →
      Option (RendezvousResult × Rendezvous Client)
  | .post client cap msg =>
    match s.endpoint.post cap msg with
    | (.ok (), ep) =>
      some (.posted (.ok ()) ep.state.request, ⟨ep, some client⟩)
    | (.error e, ep) =>
      some (.posted (.error e) ep.state.request, ⟨ep, s.lastPoster⟩)
  | .take =>
    let (result, ep) := s.endpoint.take
    some (.taken result, { s with endpoint := ep })
  | .postReply replyType payload =>
    let (result, ep) := s.endpoint.reply replyType payload
    some (.replied result ep.state.reply, { s with endpoint := ep })
  | .takeReply _ =>
    let (result, ep) := s.endpoint.takeReply
    some (.collected result, { s with endpoint := ep })

end Rendezvous

inductive RendezvousResult.Refused : RendezvousResult → Prop
  | posted (e : IpcError) (held : Option IpcMessage) :
      Refused (.posted (.error e) held)
  | taken (e : IpcError) : Refused (.taken (.error e))
  | replied (e : IpcError) (held : Option IpcMessage) :
      Refused (.replied (.error e) held)
  | collected (e : IpcError) : Refused (.collected (.error e))

/-- What a call can do: one of the four operations succeeds, or the call is
refused and nothing changes. -/
inductive RendezvousOutcome (s : Rendezvous Client) :
    RendezvousCall Client → RendezvousResult → Rendezvous Client → Prop
  | posted (client : Client) (cap : Capability) (msg : IpcMessage)
      (haccepts : s.endpoint.Accepts cap msg) :
      RendezvousOutcome s (.post client cap msg)
        (.posted (.ok ())
          (some (msg.withSequence (s.endpoint.sequence + 1))))
        ⟨{ s.endpoint with
            state := .pendingReply
              (msg.withSequence (s.endpoint.sequence + 1))
            sequence := s.endpoint.sequence + 1 },
          some client⟩
  | taken (msg : IpcMessage) (hstate : s.endpoint.state = .pendingReply msg) :
      RendezvousOutcome s .take (.taken (.ok msg))
        ⟨{ s.endpoint with state := .idle }, s.lastPoster⟩
  | replied (replyType : MessageType) (payload : List Byte) (msg : IpcMessage)
      (hsequence : msg.header.sequence = s.endpoint.sequence)
      (hlen : payload.length ≤ ipcMaxPayload)
      (hfree : s.endpoint.state.reply = none) :
      RendezvousOutcome s (.postReply replyType payload)
        (.replied (.ok ()) (some msg))
        ⟨{ s.endpoint with state := .replyReady msg }, s.lastPoster⟩
  | collected (client : Client) (msg : IpcMessage)
      (hstate : s.endpoint.state = .replyReady msg) :
      RendezvousOutcome s (.takeReply client) (.collected (.ok msg))
        ⟨{ s.endpoint with state := .idle }, s.lastPoster⟩
  | refused (call : RendezvousCall Client) (result : RendezvousResult)
      (hrefused : result.Refused) : RendezvousOutcome s call result s

variable {s s' : Rendezvous Client} {call : RendezvousCall Client}
  {result : RendezvousResult}

theorem Rendezvous.step_outcome (hstep : s.step call = some (result, s')) :
    RendezvousOutcome s call result s' := by
  cases call with
  | post client cap msg =>
    rcases s.endpoint.post_cases cap msg with
      ⟨haccepts, hpost⟩ | ⟨-, e, hpost⟩
    · rw [step, hpost] at hstep
      cases hstep
      exact .posted client cap msg haccepts
    · rw [step, hpost] at hstep
      cases hstep
      exact .refused _ _ (.posted e _)
  | take =>
    rcases s.endpoint.take_cases with ⟨msg, hstate, htake⟩ | ⟨-, htake⟩
    · rw [step, htake] at hstep
      cases hstep
      exact .taken msg hstate
    · rw [step, htake] at hstep
      cases hstep
      exact .refused _ _ (.taken _)
  | postReply replyType payload =>
    rcases s.endpoint.reply_cases replyType payload with
      ⟨msg, hsequence, hlen, hfree, hreply⟩ | ⟨e, hreply⟩
    · rw [step, hreply] at hstep
      cases hstep
      exact .replied replyType payload msg hsequence hlen hfree
    · rw [step, hreply] at hstep
      cases hstep
      exact .refused _ _ (.replied e _)
  | takeReply client =>
    rcases s.endpoint.takeReply_cases with ⟨msg, hstate, htake⟩ | ⟨-, htake⟩
    · rw [step, htake] at hstep
      cases hstep
      exact .collected client msg hstate
    · rw [step, htake] at hstep
      cases hstep
      exact .refused _ _ (.collected _)

/-! ## The two mailboxes -/

abbrev RendezvousHistory (Client : Type) :=
  List (RendezvousCall Client × RendezvousResult)

/-- A call as the mailbox of requests sees it. -/
def requestMail :
    RendezvousCall Client × RendezvousResult → Mailbox.Event IpcMessage
  | (_, .posted (.ok ()) (some msg)) => .put msg
  | (_, .taken (.ok msg)) => .take msg
  | _ => .idle

/-- A call as the mailbox of replies sees it. -/
def replyMail :
    RendezvousCall Client × RendezvousResult → Mailbox.Event IpcMessage
  | (_, .replied (.ok ()) (some msg)) => .put msg
  | (_, .collected (.ok msg)) => .take msg
  | _ => .idle

/-- The requests accepted are those taken followed by the one in the slot, and
likewise the replies: nothing was discarded or overwritten. -/
def LosesNothing (history : RendezvousHistory Client)
    (s : Rendezvous Client) : Prop :=
  Mailbox.puts (history.map requestMail) =
      Mailbox.takes (history.map requestMail) ++
        s.endpoint.state.request.toList ∧
    Mailbox.puts (history.map replyMail) =
      Mailbox.takes (history.map replyMail) ++
        s.endpoint.state.reply.toList

/-- The last request of the client that was accepted, with the sequence number
it was assigned. -/
def lastRequest [DecidableEq Client] (client : Client) :
    RendezvousHistory Client → Option IpcMessage
  | [] => none
  | (.post c _ _, .posted (.ok ()) held) :: history =>
    if c = client then held else lastRequest client history
  | _ :: history => lastRequest client history

/-- Every reply that a client takes after an accepted request of its own
carries the number of that request. -/
def RepliesMatch [DecidableEq Client] (history : RendezvousHistory Client) :
    Prop :=
  ∀ later client reply earlier,
    history = later ++ (.takeReply client, .collected (.ok reply)) :: earlier →
      ∀ request, lastRequest client earlier = some request →
        reply.header.sequence = request.header.sequence

/-- A request is posted only while no reply waits in the slot, a reply only
while no request waits there, and a waiting reply is taken only by the client
whose request was accepted last.  Calls that are refused on their arguments
are not restricted. -/
def Rendezvous.Admits (s : Rendezvous Client) : RendezvousCall Client → Prop
  | .post _ cap msg =>
    cap.isValidFor s.endpoint.id s.endpoint.requiredRights = true →
      msg.header.payloadLen.toNat ≤ ipcMaxPayload →
      s.endpoint.state.reply = none
  | .take => True
  | .postReply _ payload =>
    payload.length ≤ ipcMaxPayload → s.endpoint.state.request = none
  | .takeReply client =>
    s.endpoint.state.reply.isSome → s.lastPoster = some client

/-! ## One step -/

theorem RendezvousResult.Refused.requestMail (h : result.Refused)
    (call : RendezvousCall Client) : requestMail (call, result) = .idle := by
  cases h with
  | posted e held | taken e | replied e held | collected e => rfl

theorem RendezvousResult.Refused.replyMail (h : result.Refused)
    (call : RendezvousCall Client) : replyMail (call, result) = .idle := by
  cases h with
  | posted e held | taken e | replied e held | collected e => rfl

theorem RendezvousOutcome.request_step (h : RendezvousOutcome s call result s')
    (hadmits : s.Admits call) :
    Mailbox.Step s.endpoint.state.request (requestMail (call, result))
      s'.endpoint.state.request := by
  cases h with
  | posted client cap msg haccepts =>
    rw [haccepts.2.1]
    exact .put _
  | taken msg hstate =>
    rw [hstate]
    exact .take msg
  | replied replyType payload msg hsequence hlen hfree =>
    rw [hadmits hlen]
    exact .idle none
  | collected client msg hstate =>
    rw [hstate]
    exact .idle none
  | refused _ _ hrefused =>
    rw [hrefused.requestMail]
    exact .idle _

theorem RendezvousOutcome.reply_step (h : RendezvousOutcome s call result s')
    (hadmits : s.Admits call) :
    Mailbox.Step s.endpoint.state.reply (replyMail (call, result))
      s'.endpoint.state.reply := by
  cases h with
  | posted client cap msg haccepts =>
    rw [hadmits haccepts.1 haccepts.2.2]
    exact .idle none
  | taken msg hstate =>
    rw [hstate]
    exact .idle none
  | replied replyType payload msg hsequence hlen hfree =>
    rw [hfree]
    exact .put msg
  | collected client msg hstate =>
    rw [hstate]
    exact .take msg
  | refused _ _ hrefused =>
    rw [hrefused.replyMail]
    exact .idle _

section Numbers

variable [DecidableEq Client]

/-- The number of the last accepted request is in the endpoint's counter, and
a waiting reply carries the number in the counter. -/
structure NumbersInStep (history : RendezvousHistory Client)
    (s : Rendezvous Client) : Prop where
  lastPoster : ∀ client, s.lastPoster = some client →
    ∃ request, lastRequest client history = some request ∧
      request.header.sequence = s.endpoint.sequence
  waiting : ∀ reply, s.endpoint.state = .replyReady reply →
    reply.header.sequence = s.endpoint.sequence

theorem lastRequest_posted (client : Client) (cap : Capability)
    (msg : IpcMessage) (held : Option IpcMessage)
    (history : RendezvousHistory Client) :
    lastRequest client
      ((.post client cap msg, .posted (.ok ()) held) :: history) = held :=
  if_pos rfl

theorem lastRequest_refused {result : RendezvousResult}
    (h : result.Refused) (client : Client) (call : RendezvousCall Client)
    (history : RendezvousHistory Client) :
    lastRequest client ((call, result) :: history) =
      lastRequest client history := by
  cases h <;> cases call <;> rfl

/-- The counter moves only when a request is accepted, and then the slot no
longer holds a reply. -/
theorem NumbersInStep.step {history : RendezvousHistory Client}
    {s s' : Rendezvous Client} {call : RendezvousCall Client}
    {result : RendezvousResult} (h : NumbersInStep history s)
    (houtcome : RendezvousOutcome s call result s') :
    NumbersInStep ((call, result) :: history) s' := by
  cases houtcome with
  | posted client cap msg haccepts =>
    constructor
    · intro c hc
      obtain rfl : client = c := Option.some.inj hc
      exact ⟨_, lastRequest_posted client cap msg _ history, rfl⟩
    · intro reply hreply
      cases hreply
  | taken msg hstate =>
    constructor
    · exact h.lastPoster
    · intro reply hreply
      cases hreply
  | replied replyType payload msg hsequence hlen hfree =>
    constructor
    · exact h.lastPoster
    · intro reply hreply
      cases hreply
      exact hsequence
  | collected client msg hstate =>
    constructor
    · exact h.lastPoster
    · intro reply hreply
      cases hreply
  | refused _ _ hrefused =>
    constructor
    · intro client hclient
      rw [lastRequest_refused hrefused]
      exact h.lastPoster client hclient
    · exact h.waiting

/-! ## Whole runs -/

variable {id : EndpointId} {requiredRights : Rights} {sequence : BitVec 32}
  {history : RendezvousHistory Client} {s : Rendezvous Client}

omit [DecidableEq Client] in
theorem rendezvous_refines_mailboxes
    (hrun : GuardedRun Rendezvous.Admits Rendezvous.step
      (.start id requiredRights sequence) history s) :
    Mailbox.Steps none (history.map requestMail)
        s.endpoint.state.request ∧
      Mailbox.Steps none (history.map replyMail) s.endpoint.state.reply := by
  refine hrun.history_invariant
    (I := fun history s =>
      Mailbox.Steps none (history.map requestMail)
          s.endpoint.state.request ∧
        Mailbox.Steps none (history.map replyMail)
          s.endpoint.state.reply) ⟨.start, .start⟩ ?_
  intro history s call result s' hsteps hadmits hstep
  have houtcome := Rendezvous.step_outcome hstep
  exact ⟨.next hsteps.1 (houtcome.request_step hadmits),
    .next hsteps.2 (houtcome.reply_step hadmits)⟩

theorem numbersInStep_of_run
    (hrun : GuardedRun Rendezvous.Admits Rendezvous.step
      (.start id requiredRights sequence) history s) :
    NumbersInStep history s := by
  refine hrun.history_invariant (I := NumbersInStep) ?_ ?_
  · constructor
    · intro client hclient
      cases hclient
    · intro reply hreply
      cases hreply
  · intro history s call result s' h _ hstep
    exact h.step (Rendezvous.step_outcome hstep)

/-- In every run whose calls are all admitted, no accepted request and no
posted reply is discarded or overwritten before it is taken, and a reply that
a client takes after a request of its own carries that request's number. -/
theorem rendezvous_conserves_messages
    (hrun : GuardedRun Rendezvous.Admits Rendezvous.step
      (.start id requiredRights sequence) history s) :
    LosesNothing history s ∧ RepliesMatch history := by
  constructor
  · obtain ⟨hrequests, hreplies⟩ := rendezvous_refines_mailboxes hrun
    exact ⟨hrequests.conservation, hreplies.conservation⟩
  · intro later client reply earlier hsplit request hrequest
    subst hsplit
    obtain ⟨s₁, s₂, hprev, hadmits, hstep⟩ := hrun.exists_step
    have hnumbers := numbersInStep_of_run hprev
    cases Rendezvous.step_outcome hstep with
    | collected _ _ hstate =>
      have hposter : s₁.lastPoster = some client :=
        hadmits (by rw [hstate]; rfl)
      obtain ⟨request', hlast, hnumber⟩ := hnumbers.lastPoster client hposter
      obtain rfl : request' = request :=
        Option.some.inj (hlast.symm.trans hrequest)
      exact (hnumbers.waiting reply hstate).trans hnumber.symm
    | refused _ _ hrefused => cases hrefused

end Numbers

/-! ## Two clients -/

/-- An idle endpoint for two clients, `true` and `false`. -/
def twoClients : Rendezvous Bool := .start 1 Rights.call 0

def rendezvousCap : Capability := ⟨7, 1, Rights.call⟩

def postBy (a : Bool) : RendezvousCall Bool :=
  .post a rendezvousCap (.new .ping 0)

def serve : RendezvousCall Bool := .take

def answer : RendezvousCall Bool := .postReply .pong []

def collectBy (a : Bool) : RendezvousCall Bool := .takeReply a

theorem rendezvous_conserves_messages_single_exchange :
    ∃ history s,
      GuardedRun Rendezvous.Admits Rendezvous.step twoClients history s ∧
        history.map Prod.fst =
          [collectBy true, answer, serve, postBy true] ∧
        LosesNothing history s ∧ RepliesMatch history := by
  have hstart : GuardedRun Rendezvous.Admits Rendezvous.step
      twoClients [] _ := .start
  have hposted := hstart.next (a := postBy true) (fun _ _ => rfl) rfl
  have htaken := hposted.next (a := serve) trivial rfl
  have hanswered := htaken.next (a := answer) (fun _ => rfl) rfl
  have hrun := hanswered.next (a := collectBy true) (fun _ => rfl) rfl
  exact ⟨_, _, hrun, rfl, rendezvous_conserves_messages hrun⟩

/-- Without the discipline: a second client's request overwrites the reply
that waits for the first, a reply overwrites a request that the service has
not taken, and the reply to the first client's request carries the number of
the second's. -/
theorem rendezvous_loses_messages :
    (∃ history s,
      Run Rendezvous.step twoClients history s ∧
        history.map Prod.fst = [postBy false, answer, serve, postBy true] ∧
        ¬ LosesNothing history s) ∧
    (∃ history s,
      Run Rendezvous.step twoClients history s ∧
        history.map Prod.fst = [answer, postBy true] ∧
        ¬ LosesNothing history s) ∧
    (∃ history s,
      Run Rendezvous.step twoClients history s ∧
        history.map Prod.fst =
          [collectBy true, answer, serve, postBy false, serve,
            postBy true] ∧
        ¬ RepliesMatch history) := by
  have hstart : Run Rendezvous.step twoClients [] _ := .start
  have hposted := hstart.next (a := postBy true) rfl
  have htaken := hposted.next (a := serve) rfl
  have hlost := (htaken.next (a := answer) rfl).next (a := postBy false) rfl
  have hskipped := hposted.next (a := answer) rfl
  have hsecond := (htaken.next (a := postBy false) rfl).next (a := serve) rfl
  have hcrossed :=
    (hsecond.next (a := answer) rfl).next (a := collectBy true) rfl
  refine ⟨⟨_, _, hlost, rfl, ?_⟩, ⟨_, _, hskipped, rfl, ?_⟩,
    ⟨_, _, hcrossed, rfl, ?_⟩⟩
  · rintro ⟨-, hreplies⟩
    cases hreplies
  · rintro ⟨hrequests, -⟩
    cases hrequests
  · intro hmatch
    have hnumber := hmatch [] true _ _ rfl _ rfl
    exact absurd hnumber (by decide)

end IsoLightK0
