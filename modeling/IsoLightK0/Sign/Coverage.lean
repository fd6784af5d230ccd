import IsoLightK0.Sign.Effect
import IsoLightK0.Support.Runs

/-!
# Where the octets of an ML-DSA operation come from

A section of the session counts as received when the end of its last chunk has
reached the declared size.  The counter is overwritten by every chunk, so it
says how far the last chunk went and not how much was supplied.  It bounds the
supplied part from below exactly as long as no chunk starts behind it, which
is the condition of the main result: then everything that `Exec` reads was
supplied in the session.
-/

namespace IsoLightK0

open Bytes Runs Uploads

/-- In this phase the collection of the section is over and its octets are
still there. -/
def SignPhase.Past : SignPhase → SignSection → Prop
  | .collectAux, .key => True
  | .collectMsg, .key => True
  | .collectMsg, .aux => True
  | .ready, _ => True
  | _, _ => False

/-- The phases between `Begin` and the end of `Exec`. -/
def SignPhase.Filling (phase : SignPhase) : Prop :=
  phase ≠ .idle ∧ phase ≠ .outputReady

/-- The octets of the section among the arguments of an ML-DSA call. -/
def MldsaCall.consumed : MldsaCall → SignSection → List Byte
  | .keygenFrom seed, .key => seed.toList
  | .sign sk _ _, .key => sk.toList
  | .sign _ msg _, .msg => msg
  | .verify pk _ _, .key => pk.toList
  | .verify _ _ sig, .aux => sig.toList
  | .verify _ msg _, .msg => msg
  | _, _ => []

/-- The service, the DRBG and, as an auxiliary variable, the chunks accepted
for each section in the current session. -/
structure SignState where
  service : SignService
  drbg : CapDrbg
  chunks : SignSection → List Chunk

def SignState.boot (drbg : CapDrbg) : SignState :=
  ⟨.reset, drbg, fun _ => []⟩

/-- The log after a request: an accepted `Begin` starts a new session, an
accepted `InChunk` adds its chunk to the section being collected. -/
def SignState.log (s : SignState) (msgType : MessageType)
    (req : SignPayload) : SignSection → List Chunk :=
  match msgType with
  | .signBeginReq =>
    if (s.service.handleBegin req).1.isOk then fun _ => [] else s.chunks
  | .signInChunkReq =>
    match s.service.session.phase.collects with
    | some sec =>
      if (s.service.handleInChunk req).1.isOk then
        Function.update s.chunks sec (req.chunk :: s.chunks sec)
      else s.chunks
    | none => s.chunks
  | _ => s.chunks

/-- The ML-DSA call made for a request: `Exec` makes one if the DRBG delivers
and the checks pass. -/
def SignState.runs (s : SignState) (msgType : MessageType) :
    Option MldsaCall :=
  match msgType, randBytes 32 s.drbg with
  | .signExecReq, some (.ok rnd, _) => (s.service.execCall rnd).toOption
  | _, _ => none

/-- The reply to a request, with the ML-DSA call made for it. -/
structure SignEvent where
  reply : SignReply
  ran : Option MldsaCall

def SignState.step (M : Mldsa44) (s : SignState) (msg : IpcMessage) :
    Option (SignEvent × SignState) :=
  (s.service.dispatch M s.drbg msg).map fun (reply, service, drbg) =>
    match parseReq msg with
    | .error _ => (⟨reply, none⟩, ⟨service, drbg, s.chunks⟩)
    | .ok req =>
      (⟨reply, s.runs msg.header.msgType⟩,
        ⟨service, drbg, s.log msg.header.msgType req⟩)

/-- A chunk that passes the checks of `handle_in_chunk` starts at or in front
of the end of the section's last chunk. -/
def SignState.Admits (s : SignState) (msg : IpcMessage) : Prop :=
  msg.header.msgType = .signInChunkReq →
    ∀ req sec, parseReq msg = .ok req →
      s.service.session.phase.collects = some sec →
      req.chunkLen.toNat ≤ Sign.chunkSize →
      req.offset.toNat + req.chunkLen.toNat ≤ sec.bufLen →
      req.offset.toNat + req.chunkLen.toNat ≤ s.service.session.total sec →
      req.offset.toNat ≤ s.service.session.recv sec

variable {M : Mldsa44} {s s' : SignState} {msg : IpcMessage} (op : SignOp)
  (keyTotal auxTotal msgTotal : ℕ) {call : MldsaCall}

theorem SignState.step_cases {event : SignEvent}
    (h : s.step M msg = some (event, s')) :
    ((∃ e, parseReq msg = .error e) ∧ s'.service = s.service ∧
      s'.chunks = s.chunks ∧ event.reply.replyType = .error) ∨
    (∃ req a, parseReq msg = .ok req ∧
      s.service.answer M s.drbg msg.header.msgType req =
        some (a, s'.service, s'.drbg) ∧
      s'.chunks = s.log msg.header.msgType req ∧
      event.reply = ⟨a.replyType,
        writeSignReply req.phase a.code a.offset a.total a.data⟩) := by
  obtain ⟨⟨reply, service, drbg⟩, hdispatch, heq⟩ := Option.map_eq_some_iff.mp h
  unfold SignService.dispatch at hdispatch
  cases hparse : parseReq msg with
  | error e =>
    simp only [hparse, Option.some.injEq, Prod.mk.injEq] at hdispatch heq
    obtain ⟨rfl, rfl, rfl⟩ := hdispatch
    obtain ⟨rfl, rfl⟩ := heq
    exact .inl ⟨⟨e, rfl⟩, rfl, rfl, rfl⟩
  | ok req =>
    simp only [hparse, Prod.mk.injEq] at hdispatch heq
    obtain ⟨rfl, rfl⟩ := heq
    obtain ⟨⟨a, S', drbg'⟩, hanswer, hreply⟩ :=
      Option.map_eq_some_iff.mp hdispatch
    simp only [Prod.mk.injEq] at hreply
    obtain ⟨rfl, rfl, rfl⟩ := hreply
    exact .inr ⟨req, a, rfl, hanswer, rfl, rfl⟩

/-! ## The invariant -/

/-- While the session is being filled, every section is covered by its log up
to its received counter, and the sections that are done are covered up to
their declared size. -/
structure Covered (S : SignService) (chunks : SignSection → List Chunk) :
    Prop where
  supplied : S.session.phase.Filling → ∀ sec,
    Covers (chunks sec) (S.contents sec) (S.session.recv sec)
  complete : ∀ sec, S.session.phase.Past sec →
    S.session.total sec ≤ S.session.recv sec

variable {S S' : SignService} {chunks : SignSection → List Chunk}
  {sec : SignSection} {req : SignPayload}

theorem covered_of_idle (h : S.session.phase = .idle) : Covered S chunks := by
  constructor
  · intro hfilling
    exact absurd h hfilling.1
  · intro sec hpast
    rw [h] at hpast
    exact hpast.elim

theorem covered_of_outputReady (h : S.session.phase = .outputReady) :
    Covered S chunks := by
  constructor
  · intro hfilling
    exact absurd h hfilling.2
  · intro sec hpast
    rw [h] at hpast
    exact hpast.elim

/-- Phase, counters and input buffers are the same. -/
structure SignService.SameInput (S S' : SignService) : Prop where
  phase : S'.session.phase = S.session.phase
  recv : S'.session.recv = S.session.recv
  total : S'.session.total = S.session.total
  contents : S'.contents = S.contents

theorem SignService.sameInput_withVerifyOk (S : SignService) (ok : Bool) :
    S.SameInput (S.withVerifyOk ok) :=
  ⟨rfl, rfl, rfl, rfl⟩

theorem Covered.sameInput (h : Covered S chunks) (hsame : S.SameInput S') :
    Covered S' chunks := by
  constructor
  · rw [hsame.phase, hsame.recv, hsame.contents]
    exact h.supplied
  · rw [hsame.phase, hsame.recv, hsame.total]
    exact h.complete

/-- A section that the new session skips is empty. -/
theorem SignSession.total_eq_zero_of_past_begin
    (h : (SignSession.begin op keyTotal auxTotal msgTotal).phase.Past sec) :
    (SignSession.begin op keyTotal auxTotal msgTotal).total sec = 0 := by
  by_cases hkey : 0 < keyTotal
  · simp [SignSession.begin, hkey, SignPhase.Past] at h
  · by_cases haux : 0 < auxTotal
    · cases sec <;>
        simp_all [SignSession.begin, SignPhase.Past, SignSession.total]
    · by_cases hmsg : 0 < msgTotal
      · cases sec <;>
          simp_all [SignSession.begin, SignPhase.Past, SignSession.total]
      · cases sec <;> simp_all [SignSession.begin, SignSession.total]

theorem SignSession.recv_begin (sec : SignSection) :
    (SignSession.begin op keyTotal auxTotal msgTotal).recv sec = 0 := by
  cases sec <;> rfl

theorem covered_begin :
    Covered
      { SignService.reset with
        session := .begin op keyTotal auxTotal msgTotal }
      fun _ => [] := by
  constructor
  · intro _ sec
    rw [SignSession.recv_begin]
    exact covers_zero _ _
  · intro sec hpast
    rw [SignSession.total_eq_zero_of_past_begin op _ _ _ hpast]
    exact Nat.zero_le _

/-- What is past after a complete section is that section, what was past
before, or empty. -/
theorem SignSession.past_phaseAfter (s : SignSession) {sec any : SignSection}
    (h : (s.phaseAfter sec).Past any) :
    any = sec ∨ sec.phase.Past any ∨ s.total any = 0 := by
  cases sec with
  | key =>
    by_cases haux : 0 < s.auxTotal
    · cases any <;> simp_all [phaseAfter, SignPhase.Past]
    · by_cases hmsg : 0 < s.msgTotal
      · cases any <;> simp_all [phaseAfter, SignPhase.Past, total]
      · cases any <;> simp_all [total]
  | aux =>
    by_cases hmsg : 0 < s.msgTotal
    · cases any <;> simp_all [phaseAfter, SignPhase.Past, SignSection.phase]
    · cases any <;> simp_all [total, SignPhase.Past, SignSection.phase]
  | msg => cases any <;> simp [SignPhase.Past, SignSection.phase]

theorem SignSection.not_past_phase (sec : SignSection) :
    ¬ sec.phase.Past sec := by
  cases sec <;> exact id

theorem SignSection.filling_phase (sec : SignSection) :
    sec.phase.Filling := by
  cases sec <;> exact ⟨by decide, by decide⟩

/-- A chunk that starts inside the covered part of its section keeps the
invariant. -/
theorem Covered.store (h : Covered S chunks) (hfits : S.Fits sec req)
    (hgap : req.offset.toNat ≤ S.session.recv sec)
    (hstores : S.Stores sec req S') :
    Covered S' (Function.update chunks sec (req.chunk :: chunks sec)) := by
  have hphase : S.session.phase = sec.phase :=
    (SignPhase.collects_eq_some_iff _ _).mp hfits.collects
  have hlength : req.chunk.bytes.length = req.chunkLen.toNat :=
    Buf.length_slice _ _ _
  have hsupplied := h.supplied (by rw [hphase]; exact sec.filling_phase)
  constructor
  · intro _ any
    rw [hstores.recv, hstores.contents]
    by_cases hany : any = sec
    · subst hany
      simp only [Function.update_self]
      rw [← hlength]
      exact (hsupplied any).write hgap req.chunk.bytes
    · simp only [Function.update_of_ne hany]
      exact hsupplied any
  · intro any hpast
    have hbefore : sec.phase.Past any →
        S.session.total any ≤ Function.update S.session.recv sec
          (req.offset.toNat + req.chunkLen.toNat) any := by
      intro hpast
      have hany : any ≠ sec := by
        rintro rfl
        exact any.not_past_phase hpast
      rw [Function.update_of_ne hany]
      exact h.complete any (by rw [hphase]; exact hpast)
    rw [hstores.phase] at hpast
    rw [hstores.recv, hstores.total]
    split at hpast
    case isTrue hfull =>
      rcases S.session.past_phaseAfter hpast with rfl | hpast | hzero
      · rw [Function.update_self]
        exact hfull
      · exact hbefore hpast
      · rw [hzero]
        exact Nat.zero_le _
    case isFalse => exact hbefore hpast

/-! ## One request -/

/-- Only `Begin` and `InChunk` change the log.  Any other request leaves the
input as it was or ends the phase in which it can be read. -/
theorem Covered.effect {msgType : MessageType} {a : SignAnswer}
    (h : Covered S chunks) (heffect : S.Effect M msgType req a S')
    (hbegin : msgType ≠ .signBeginReq) (hchunk : msgType ≠ .signInChunkReq) :
    Covered S' chunks := by
  cases heffect with
  | rejected e ok => exact h.sameInput (S.sameInput_withVerifyOk ok)
  | begun op keyTotal auxTotal msgTotal htype => exact absurd htype hbegin
  | stored sec offset htype => exact absurd htype hchunk
  | executed rnd call out ok => exact covered_of_outputReady rfl
  | read data => exact h
  | ended => exact covered_of_idle rfl

theorem Covered.answer (h : Covered s.service s.chunks) {msgType : MessageType}
    (hgap : msgType = .signInChunkReq → ∀ sec, s.service.Fits sec req →
      req.offset.toNat ≤ s.service.session.recv sec) {a : SignAnswer}
    {drbg : CapDrbg}
    (hanswer : s.service.answer M s.drbg msgType req = some (a, S', drbg)) :
    Covered S' (s.log msgType req) := by
  cases msgType with
  | signBeginReq =>
    rw [SignService.answer_begin] at hanswer
    rw [SignState.log]
    rcases s.service.handleBegin_outcome req with
      ⟨e, hbegin⟩ | ⟨op, keyTotal, auxTotal, msgTotal, -, -, hbegin⟩
    · rw [hbegin] at hanswer
      cases hanswer
      rw [hbegin]
      exact h
    · rw [hbegin] at hanswer
      cases hanswer
      rw [hbegin]
      exact covered_begin op keyTotal auxTotal msgTotal
  | signInChunkReq =>
    rw [SignService.answer_inChunk] at hanswer
    by_cases hfits : ∃ sec, s.service.Fits sec req
    · obtain ⟨sec, hfits⟩ := hfits
      have hstored := SignService.handleInChunk_of_fits hfits
      rw [hstored] at hanswer
      cases hanswer
      simp only [SignState.log, hstored, hfits.collects]
      exact h.store hfits (hgap rfl sec hfits)
        (SignService.stores_storeChunk hfits)
    · have hrefused := SignService.handleInChunk_refused (not_exists.mp hfits)
      rw [hrefused] at hanswer
      cases hanswer
      have hlog : s.log .signInChunkReq req = s.chunks := by
        simp only [SignState.log, hrefused]
        split <;> rfl
      rw [hlog]
      exact h
  | _ =>
    exact h.effect (SignService.effect_of_answer hanswer) nofun nofun

theorem Covered.step {event : SignEvent} (h : Covered s.service s.chunks)
    (hadmits : s.Admits msg) (hstep : s.step M msg = some (event, s')) :
    Covered s'.service s'.chunks := by
  rcases SignState.step_cases hstep with
    ⟨-, hservice, hchunks, -⟩ | ⟨req, a, hparse, hanswer, hchunks, -⟩
  · rw [hservice, hchunks]
    exact h
  · rw [hchunks]
    refine h.answer ?_ hanswer
    intro htype sec hfits
    exact hadmits htype req sec hparse hfits.collects hfits.chunkLen
      hfits.bufLen hfits.total

/-- What an ML-DSA call consumes of a section stands at the front of its
buffer, inside the declared size. -/
theorem SignService.consumed_of_execCall {rnd : Buf 32}
    (h : S.execCall rnd = .ok call) :
    S.session.phase = .ready ∧ ∀ sec, ∃ len ≤ S.session.total sec,
      call.consumed sec = (S.contents sec).read 0 len := by
  unfold execCall at h
  split at h
  · cases h
  case isFalse hready =>
    refine ⟨not_not.mp hready, ?_⟩
    have hnothing : ∀ sec, ∃ len ≤ S.session.total sec,
        [] = (S.contents sec).read 0 len :=
      fun sec => ⟨0, Nat.zero_le _, rfl⟩
    split at h
    · split at h
      case isTrue hkey =>
        cases h
        intro sec
        cases sec with
        | key =>
          exact ⟨32, hkey.ge,
            Buf.toList_ofList (Buf.length_slice S.keyBuf 0 32)⟩
        | aux => exact hnothing .aux
        | msg => exact hnothing .msg
      · cases h
        intro sec
        cases sec <;> exact hnothing _
    · split at h
      · cases h
      case isFalse hkey =>
        cases h
        intro sec
        cases sec with
        | key => exact ⟨Sign.skLen, (not_not.mp hkey).ge, rfl⟩
        | aux => exact hnothing .aux
        | msg => exact ⟨S.session.msgTotal, le_rfl, rfl⟩
    · split at h
      · cases h
      case isFalse hsizes =>
        rw [not_or, not_not, not_not] at hsizes
        cases h
        intro sec
        cases sec with
        | key =>
          exact ⟨Sign.pkLen, hsizes.1.ge,
            Buf.toList_ofList (Buf.length_slice S.keyBuf 0 Sign.pkLen)⟩
        | aux => exact ⟨Sign.sigLen, hsizes.2.ge, rfl⟩
        | msg => exact ⟨S.session.msgTotal, le_rfl, rfl⟩

theorem Covered.supplies (h : Covered S chunks) {rnd : Buf 32}
    (hcall : S.execCall rnd = .ok call) {i : ℕ} {b : Byte}
    (hconsumed : (call.consumed sec)[i]? = some b) :
    ∃ c ∈ chunks sec, c.Supplies i b := by
  obtain ⟨hready, hread⟩ := SignService.consumed_of_execCall hcall
  obtain ⟨len, hlen, hbytes⟩ := hread sec
  have hfilling : S.session.phase.Filling := by
    rw [hready]
    exact ⟨by decide, by decide⟩
  have hcomplete := h.complete sec (by rw [hready]; trivial)
  rw [hbytes] at hconsumed
  exact (h.supplied hfilling sec).supplies_of_read (hlen.trans hcomplete)
    hconsumed

theorem SignState.execCall_of_ran {reply : SignReply}
    (hstep : s.step M msg = some (⟨reply, some call⟩, s')) :
    ∃ rnd, s.service.execCall rnd = .ok call := by
  obtain ⟨⟨reply', service, drbg⟩, -, heq⟩ := Option.map_eq_some_iff.mp hstep
  have hran : s.runs msg.header.msgType = some call := by
    cases hparse : parseReq msg with
    | error e => simp [hparse] at heq
    | ok req => simp_all
  unfold runs at hran
  split at hran
  case h_1 rnd _ _ _ =>
    refine ⟨rnd, ?_⟩
    cases hcall : s.service.execCall rnd with
    | error e => simp [hcall, Except.toOption] at hran
    | ok found => simpa [hcall, Except.toOption] using hran
  case h_2 => cases hran

/-- In every run of requests in which no accepted chunk leaves a gap: whenever
a request makes an ML-DSA call, every octet of the key, auxiliary and message
sections that the call consumes was supplied, with its value, by an accepted
chunk of the current session. -/
theorem exec_consumes_supplied_octets (M : Mldsa44) {drbg : CapDrbg}
    {history : List (IpcMessage × SignEvent)} {s : SignState}
    (hrun : GuardedRun SignState.Admits (SignState.step M) (.boot drbg)
      history s)
    {msg : IpcMessage} {reply : SignReply} {call : MldsaCall}
    {s' : SignState}
    (hstep : s.step M msg = some (⟨reply, some call⟩, s')) :
    ∀ sec i b, (call.consumed sec)[i]? = some b →
      ∃ c ∈ s.chunks sec, c.Supplies i b := by
  have hcovered : Covered s.service s.chunks := by
    refine hrun.history_invariant
      (I := fun _ s => Covered s.service s.chunks) (covered_of_idle rfl) ?_
    intro history s msg event s' h hadmits hstep
    exact h.step hadmits hstep
  obtain ⟨rnd, hcall⟩ := SignState.execCall_of_ran hstep
  intro sec i b hconsumed
  exact hcovered.supplies hcall hconsumed

/-! ## A key generation with a declared seed -/

/-- A crate whose key generation answers with zero keys. -/
def Mldsa44.zeroKeys : Mldsa44 where
  keygen := fun _ => some (Buf.zero, Buf.zero)
  sign := fun _ _ _ _ => none
  verify := fun _ _ _ _ => none

def oneDrawDrbg : CapDrbg := some [.generated fun _ => 0]

/-- A request of full length whose first octets are given. -/
def signRequest (msgType : MessageType) (octets : List Byte) : IpcMessage where
  header := ⟨msgType, 256, 0⟩
  payload := Buf.ofList ipcMaxPayload octets

/-- `Begin` of a key generation that declares a seed of 32 octets. -/
def beginKeygen : IpcMessage :=
  signRequest .signBeginReq
    [1, 1, 1, 0, 0, 0, 0, 0, 0, 0, 0, 0, 12, 0, 0, 0, 32, 0, 0, 0]

def seedChunk : IpcMessage :=
  signRequest .signInChunkReq
    ([2, 1, 1, 0, 0, 0, 0, 0, 0, 0, 0, 0, 32, 0, 0, 0] ++
      List.replicate 32 7)

def emptyChunk : IpcMessage :=
  signRequest .signInChunkReq [2, 1, 1, 0, 32, 0, 0, 0]

def execKeygen : IpcMessage := signRequest .signExecReq [3, 1, 1]

theorem exec_consumes_supplied_octets_seed :
    ∃ history s reply call s',
      GuardedRun SignState.Admits (SignState.step .zeroKeys)
          (.boot oneDrawDrbg) history s ∧
        history.map Prod.fst = [seedChunk, beginKeygen] ∧
        s.step .zeroKeys execKeygen = some (⟨reply, some call⟩, s') ∧
        call.consumed .key = List.replicate 32 7 ∧
        ∀ sec i b, (call.consumed sec)[i]? = some b →
          ∃ c ∈ s.chunks sec, c.Supplies i b := by
  have hstart : GuardedRun SignState.Admits (SignState.step .zeroKeys)
      (.boot oneDrawDrbg) [] _ := .start
  have hbegun := hstart.next (a := beginKeygen) nofun rfl
  have hadmits : ∀ s : SignState, s.Admits seedChunk := by
    intro s _ req sec hparse _ _ _ _
    cases hparse
    exact Nat.zero_le _
  have hfilled := hbegun.next (a := seedChunk) (hadmits _) rfl
  refine ⟨_, _, _, _, _, hfilled, rfl, rfl, rfl, ?_⟩
  exact exec_consumes_supplied_octets .zeroKeys hfilled
    (show SignState.step _ _ execKeygen = _ from rfl)

/-- An empty chunk at the declared end completes the section: the key
generation runs on a seed of which no octet was supplied. -/
theorem exec_consumes_unsupplied_octet :
    ∃ history s reply call s',
      Run (SignState.step .zeroKeys) (.boot oneDrawDrbg) history s ∧
        history.map Prod.fst = [emptyChunk, beginKeygen] ∧
        s.step .zeroKeys execKeygen = some (⟨reply, some call⟩, s') ∧
        (call.consumed .key)[0]? = some 0 ∧
        ¬ ∃ c ∈ s.chunks .key, c.Supplies 0 0 := by
  have hstart : Run (SignState.step .zeroKeys) (.boot oneDrawDrbg) [] _ :=
    .start
  have hbegun := hstart.next (a := beginKeygen) rfl
  have hfilled := hbegun.next (a := emptyChunk) rfl
  refine ⟨_, _, _, _, _, hfilled, rfl, rfl, rfl, ?_⟩
  rintro ⟨c, hmem, hoffset, -⟩
  obtain rfl := List.mem_singleton.mp hmem
  exact absurd hoffset (by decide)

end IsoLightK0
