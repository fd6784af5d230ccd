import IsoLightK0.Sign.Coverage

/-!
# The session over any sequence of requests

The invariant of the session, the order of its phases and the ranges of all
slices that the service takes, for requests with arbitrary payloads.
-/

namespace IsoLightK0

open Bytes Runs

namespace SignService

variable {M : Mldsa44} {S S' : SignService} {msgType : MessageType}
  {req : SignPayload} {a : SignAnswer}

/-- Declared sizes fit the buffers, received counters the declared sizes, and
an idle service holds nothing. -/
structure Sane (S : SignService) : Prop where
  total_le : ∀ sec, S.session.total sec ≤ sec.bufLen
  recv_le : ∀ sec, S.session.recv sec ≤ S.session.total sec
  out_le : S.session.outTotal ≤ Sign.outBufLen
  idle_zero : S.session.phase = .idle →
    S.keyBuf = Buf.zero ∧ S.auxBuf = Buf.zero ∧ S.msgBuf = Buf.zero ∧
      S.outBuf = Buf.zero

theorem sane_reset : reset.Sane := by
  refine ⟨?_, ?_, Nat.zero_le _, fun _ => ⟨rfl, rfl, rfl, rfl⟩⟩
  · intro sec
    cases sec <;> exact Nat.zero_le _
  · intro sec
    cases sec <;> exact le_rfl

end SignService

theorem SignSession.total_begin_le {op : SignOp}
    {keyTotal auxTotal msgTotal : ℕ}
    (h : op.oversized keyTotal auxTotal msgTotal = false) (sec : SignSection) :
    (SignSession.begin op keyTotal auxTotal msgTotal).total sec ≤
      sec.bufLen := by
  have hlens : 32 ≤ Sign.skLen ∧ Sign.pkLen ≤ Sign.skLen := by decide
  cases op with
  | keygen =>
    simp only [SignOp.oversized, decide_eq_false_iff_not, not_or] at h
    cases sec with
    | key => exact (Nat.not_lt.mp h.1).trans hlens.1
    | aux => exact (not_not.mp h.2.1).le.trans (Nat.zero_le _)
    | msg => exact (not_not.mp h.2.2).le.trans (Nat.zero_le _)
  | sign =>
    simp only [SignOp.oversized, decide_eq_false_iff_not, not_or] at h
    cases sec with
    | key => exact Nat.not_lt.mp h.1
    | aux => exact (not_not.mp h.2.1).le.trans (Nat.zero_le _)
    | msg => exact Nat.not_lt.mp h.2.2
  | verify =>
    simp only [SignOp.oversized, decide_eq_false_iff_not, not_or] at h
    cases sec with
    | key => exact (Nat.not_lt.mp h.1).trans hlens.2
    | aux => exact Nat.not_lt.mp h.2.1
    | msg => exact Nat.not_lt.mp h.2.2

/-- The place of a phase in the order of the protocol. -/
def SignPhase.rank : SignPhase → ℕ
  | .idle => 0
  | .collectKey => 1
  | .collectAux => 2
  | .collectMsg => 3
  | .ready => 4
  | .outputReady => 5

theorem SignPhase.eq_idle_of_rank {phase : SignPhase} (h : phase.rank = 0) :
    phase = .idle := by
  cases phase with
  | idle => rfl
  | _ => contradiction

theorem SignSession.rank_lt_rank_phaseAfter (s : SignSession)
    (sec : SignSection) : sec.phase.rank < (s.phaseAfter sec).rank := by
  cases sec with
  | key | aux =>
    unfold phaseAfter
    split_ifs <;> decide
  | msg => exact Nat.lt_succ_self 3

namespace SignService

variable {M : Mldsa44} {S S' : SignService} {msgType : MessageType}
  {req : SignPayload} {a : SignAnswer}

theorem rank_le_rank_storeChunk (S : SignService) (sec : SignSection)
    (req : SignPayload) :
    sec.phase.rank ≤ (S.storeChunk sec req).session.phase.rank := by
  have hphase : (S.storeChunk sec req).session.phase =
      if S.session.total sec ≤ req.offset.toNat + req.chunkLen.toNat then
        S.session.phaseAfter sec
      else sec.phase := by
    cases sec <;> rfl
  rw [hphase]
  split
  · exact (S.session.rank_lt_rank_phaseAfter sec).le
  · exact le_rfl

theorem Fits.phase_eq {sec : SignSection} (h : S.Fits sec req) :
    S.session.phase = sec.phase :=
  (SignPhase.collects_eq_some_iff _ _).mp h.collects

theorem Sane.storeChunk (hsane : S.Sane) {sec : SignSection}
    (hfits : S.Fits sec req) : (S.storeChunk sec req).Sane := by
  have hstores := stores_storeChunk hfits
  constructor
  case total_le =>
    rw [hstores.total]
    exact hsane.total_le
  case recv_le =>
    intro any
    rw [hstores.total, hstores.recv]
    by_cases hany : any = sec
    · subst hany
      rw [Function.update_self]
      exact hfits.total
    · rw [Function.update_of_ne hany]
      exact hsane.recv_le any
  case out_le =>
    have hout : (S.storeChunk sec req).session.outTotal =
        S.session.outTotal := by
      cases sec <;> rfl
    rw [hout]
    exact hsane.out_le
  case idle_zero =>
    intro hidle
    have hrank := S.rank_le_rank_storeChunk sec req
    rw [hidle] at hrank
    have hzero := SignPhase.eq_idle_of_rank (Nat.le_zero.mp hrank)
    cases sec <;> contradiction

theorem Sane.effect (hsane : S.Sane) (h : S.Effect M msgType req a S') :
    S'.Sane := by
  cases h with
  | rejected e ok =>
    exact ⟨hsane.total_le, hsane.recv_le, hsane.out_le, hsane.idle_zero⟩
  | begun op keyTotal auxTotal msgTotal htype hidle hover =>
    refine ⟨SignSession.total_begin_le hover, ?_, Nat.zero_le _, ?_⟩
    · intro sec
      dsimp only
      rw [SignSession.recv_begin]
      exact Nat.zero_le _
    · intro _
      exact ⟨rfl, rfl, rfl, rfl⟩
  | stored sec offset htype hfits => exact hsane.storeChunk hfits
  | executed rnd call out ok htype hcall hout =>
    exact ⟨hsane.total_le, hsane.recv_le, MldsaCall.length_output_le hout,
      nofun⟩
  | read data htype hread => exact hsane
  | ended htype => exact sane_reset

theorem rank_le_of_effect (h : S.Effect M msgType req a S') :
    S.session.phase.rank ≤ S'.session.phase.rank ∨
      (msgType = .signEndReq ∧ S'.session.phase = .idle) := by
  cases h with
  | rejected e ok => exact .inl le_rfl
  | begun op keyTotal auxTotal msgTotal htype hidle hover =>
    rw [hidle]
    exact .inl (Nat.zero_le _)
  | stored sec offset htype hfits =>
    rw [hfits.phase_eq]
    exact .inl (S.rank_le_rank_storeChunk sec req)
  | executed rnd call out ok htype hcall hout =>
    have hready : S.session.phase = .ready := (consumed_of_execCall hcall).1
    rw [hready]
    exact .inl (Nat.le_succ 4)
  | read data htype hread => exact .inl le_rfl
  | ended htype => exact .inr ⟨htype, rfl⟩

theorem unchanged_of_error_effect (h : S.Effect M msgType req a S')
    (herror : a.replyType = .error) : ∃ ok, S' = S.withVerifyOk ok := by
  cases h with
  | rejected e ok => exact ⟨ok, rfl⟩
  | begun op keyTotal auxTotal msgTotal htype hidle hover
  | stored sec offset htype hfits | executed rnd call out ok htype hcall hout
  | read data htype hread | ended htype => contradiction

end SignService

/-! ## Slices -/

/-- A slice `buf[start..stop]` of a buffer of `len` octets. -/
structure SliceUse where
  start : ℕ
  stop : ℕ
  len : ℕ

/-- The slice expression does not panic. -/
def SliceUse.InRange (u : SliceUse) : Prop :=
  u.start ≤ u.stop ∧ u.stop ≤ u.len

namespace SignService

/-- `handle_begin` slices the data of the request once its first checks have
passed. -/
def beginSlices (S : SignService) (req : SignPayload) : List SliceUse :=
  if S.session.phase ≠ .idle ∨ SignOp.ofByte req.op = none ∨
      req.variant ≠ 1 ∨ req.chunkLen.toNat < 12 then []
  else
    [⟨0, 4, Sign.chunkSize⟩, ⟨4, 8, Sign.chunkSize⟩, ⟨8, 12, Sign.chunkSize⟩]

/-- The destination and the source of the copy in one arm of
`handle_in_chunk`. -/
def chunkSlices (bufLen total : ℕ) (req : SignPayload) : List SliceUse :=
  let stop := req.offset.toNat + req.chunkLen.toNat
  if bufLen < stop ∨ total < stop then []
  else
    [⟨req.offset.toNat, stop, bufLen⟩,
      ⟨0, req.chunkLen.toNat, Sign.chunkSize⟩]

def inChunkSlices (S : SignService) (req : SignPayload) : List SliceUse :=
  if Sign.chunkSize < req.chunkLen.toNat then []
  else
    match S.session.phase with
    | .collectKey => chunkSlices Sign.skLen S.session.keyTotal req
    | .collectAux => chunkSlices Sign.sigLen S.session.auxTotal req
    | .collectMsg => chunkSlices Sign.msgBufLen S.session.msgTotal req
    | _ => []

/-- The parts of the input buffers that become arguments of the call, and the
parts of the output buffer that receive its output.  A cast of a static to a
shorter array counts as a slice. -/
def callSlices (S : SignService) :
    MldsaCall → List SliceUse × List SliceUse
  | .keygenFrom _ =>
    ([⟨0, 32, Sign.skLen⟩],
      [⟨0, Sign.pkLen, Sign.outBufLen⟩,
        ⟨Sign.pkLen, Sign.pkLen + Sign.skLen, Sign.outBufLen⟩])
  | .keygenRandom _ =>
    ([],
      [⟨0, Sign.pkLen, Sign.outBufLen⟩,
        ⟨Sign.pkLen, Sign.pkLen + Sign.skLen, Sign.outBufLen⟩])
  | .sign _ _ _ =>
    ([⟨0, Sign.skLen, Sign.skLen⟩,
        ⟨0, S.session.msgTotal, Sign.msgBufLen⟩],
      [⟨0, Sign.sigLen, Sign.outBufLen⟩])
  | .verify _ _ _ =>
    ([⟨0, Sign.pkLen, Sign.skLen⟩, ⟨0, Sign.sigLen, Sign.sigLen⟩,
        ⟨0, S.session.msgTotal, Sign.msgBufLen⟩],
      [⟨0, 1, Sign.outBufLen⟩])

/-- `handle_exec` writes the output only if the call has delivered one. -/
def execSlices (M : Mldsa44) (S : SignService) (rnd : Buf 32) :
    List SliceUse :=
  match S.execCall rnd with
  | .error _ => []
  | .ok call =>
    match call.output M with
    | .error _ => (S.callSlices call).1
    | .ok _ => (S.callSlices call).1 ++ (S.callSlices call).2

def outChunkSlices (S : SignService) (req : SignPayload) : List SliceUse :=
  if S.session.phase ≠ .outputReady then []
  else if S.session.outTotal ≤ req.offset.toNat then []
  else
    let take := min (S.session.outTotal - req.offset.toNat) Sign.chunkSize
    [⟨0, take, Sign.chunkSize⟩,
      ⟨req.offset.toNat, req.offset.toNat + take, Sign.outBufLen⟩]

/-- The slices of the reply: the filled part of the chunk buffer, and what
`write_sign_reply` copies of it into the payload. -/
def replySlices (data : List Byte) : List SliceUse :=
  let chunkLen := min data.length Sign.chunkSize
  [⟨0, data.length, Sign.chunkSize⟩, ⟨0, chunkLen, data.length⟩,
    ⟨0, chunkLen, Sign.chunkSize⟩, ⟨0, ipcMaxPayload, ipcMaxPayload⟩]

/-- The slices that `dispatch` takes for a parsed request in front of its
reply. -/
def requestSlices (M : Mldsa44) (S : SignService) (drbg : CapDrbg)
    (msgType : MessageType) (req : SignPayload) : List SliceUse :=
  match msgType with
  | .signBeginReq => S.beginSlices req
  | .signInChunkReq => S.inChunkSlices req
  | .signExecReq =>
    match randBytes 32 drbg with
    | some (.ok rnd, _) => S.execSlices M rnd
    | _ => []
  | .signOutChunkReq => S.outChunkSlices req
  | _ => []

/-- All slices that `dispatch` takes for a message. -/
def slices (M : Mldsa44) (S : SignService) (drbg : CapDrbg)
    (msg : IpcMessage) : List SliceUse :=
  match parseReq msg with
  | .error _ => replySlices []
  | .ok req =>
    S.requestSlices M drbg msg.header.msgType req ++
      match S.answer M drbg msg.header.msgType req with
      | none => []
      | some (a, _, _) => replySlices a.data

variable {M : Mldsa44} {S : SignService} {msgType : MessageType}
  {req : SignPayload}

theorem inRange_beginSlices (S : SignService) (req : SignPayload) :
    ∀ u ∈ S.beginSlices req, u.InRange := by
  unfold beginSlices
  split
  · exact nofun
  · simp [SliceUse.InRange, Sign.chunkSize]

theorem inRange_chunkSlices (bufLen total : ℕ) {req : SignPayload}
    (hlen : req.chunkLen.toNat ≤ Sign.chunkSize) :
    ∀ u ∈ chunkSlices bufLen total req, u.InRange := by
  unfold chunkSlices
  dsimp only
  split
  · exact nofun
  case isFalse hstop =>
    rw [not_or, Nat.not_lt] at hstop
    simp [SliceUse.InRange, hstop.1, hlen]

theorem inRange_inChunkSlices (S : SignService) (req : SignPayload) :
    ∀ u ∈ S.inChunkSlices req, u.InRange := by
  unfold inChunkSlices
  split
  · exact nofun
  case isFalse hlen =>
    have hlen := Nat.not_lt.mp hlen
    split
    · exact inRange_chunkSlices _ _ hlen
    · exact inRange_chunkSlices _ _ hlen
    · exact inRange_chunkSlices _ _ hlen
    · exact nofun

theorem Sane.inRange_callSlices (hsane : S.Sane) (call : MldsaCall) :
    ∀ u ∈ (S.callSlices call).1 ++ (S.callSlices call).2, u.InRange := by
  have hmsg : S.session.msgTotal ≤ Sign.msgBufLen := hsane.total_le .msg
  cases call with
  | keygenFrom seed => simp [callSlices, SliceUse.InRange, Sign.skLen, Sign.outBufLen]
  | keygenRandom rnd => simp [callSlices, SliceUse.InRange, Sign.outBufLen]
  | sign sk msg rnd | verify pk msg sig =>
    simp [callSlices, SliceUse.InRange, hmsg]
    decide

theorem Sane.inRange_execSlices (hsane : S.Sane) (M : Mldsa44)
    (rnd : Buf 32) : ∀ u ∈ S.execSlices M rnd, u.InRange := by
  unfold execSlices
  split
  · exact nofun
  case h_2 call _ =>
    split
    · intro u hu
      exact hsane.inRange_callSlices call u (List.mem_append_left _ hu)
    · exact hsane.inRange_callSlices call

theorem Sane.inRange_outChunkSlices (hsane : S.Sane) (req : SignPayload) :
    ∀ u ∈ S.outChunkSlices req, u.InRange := by
  have hout := hsane.out_le
  unfold outChunkSlices
  split
  · exact nofun
  · split
    · exact nofun
    case isFalse hoffset =>
      dsimp only
      simp only [List.mem_cons, List.not_mem_nil, or_false,
        forall_eq_or_imp, forall_eq, SliceUse.InRange]
      omega

theorem Sane.inRange_requestSlices (hsane : S.Sane) (M : Mldsa44)
    (drbg : CapDrbg) (msgType : MessageType) (req : SignPayload) :
    ∀ u ∈ S.requestSlices M drbg msgType req, u.InRange := by
  cases msgType with
  | signBeginReq => exact S.inRange_beginSlices req
  | signInChunkReq => exact S.inRange_inChunkSlices req
  | signExecReq =>
    dsimp only [requestSlices]
    split
    · exact hsane.inRange_execSlices M _
    · exact nofun
  | signOutChunkReq => exact hsane.inRange_outChunkSlices req
  | _ => exact nofun

theorem length_handleOutChunk_le {data : List Byte}
    (h : S.handleOutChunk req = .ok data) :
    data.length ≤ Sign.chunkSize := by
  unfold handleOutChunk at h
  split at h
  · contradiction
  · split at h
    · cases h
      exact Nat.zero_le _
    · cases h
      rw [Buf.length_slice]
      exact Nat.min_le_right _ _

theorem length_data_le_of_effect {a : SignAnswer} {S' : SignService}
    (h : S.Effect M msgType req a S') : a.data.length ≤ Sign.chunkSize := by
  cases h with
  | rejected e ok => exact Nat.zero_le _
  | begun op keyTotal auxTotal msgTotal htype hidle hover =>
    dsimp only
    rw [length_toLe]
    decide
  | stored sec offset htype hfits => exact Nat.zero_le _
  | executed rnd call out ok htype hcall hout => exact Nat.zero_le _
  | read data htype hread => exact length_handleOutChunk_le hread
  | ended htype => exact Nat.zero_le _

theorem inRange_replySlices {data : List Byte}
    (hlen : data.length ≤ Sign.chunkSize) :
    ∀ u ∈ replySlices data, u.InRange := by
  simp [replySlices, SliceUse.InRange, hlen]

theorem Sane.inRange_slices (hsane : S.Sane) (M : Mldsa44) (drbg : CapDrbg)
    (msg : IpcMessage) : ∀ u ∈ S.slices M drbg msg, u.InRange := by
  intro u hu
  unfold slices at hu
  split at hu
  · exact inRange_replySlices (Nat.zero_le _) u hu
  case h_2 req _ =>
    rcases List.mem_append.mp hu with hu | hu
    · exact hsane.inRange_requestSlices M drbg _ req u hu
    · split at hu
      · contradiction
      case h_2 a S' drbg' hanswer =>
        have hlen := length_data_le_of_effect (effect_of_answer hanswer)
        exact inRange_replySlices hlen u hu

end SignService

/-! ## Runs of requests -/

namespace SignState

variable {M : Mldsa44} {s : SignState}

theorem sane_of_run {drbg : CapDrbg} {history : List (IpcMessage × SignEvent)}
    (hrun : Run (SignState.step M) (.boot drbg) history s) :
    s.service.Sane := by
  apply hrun.invariant (I := fun s => s.service.Sane) SignService.sane_reset
  intro s msg event s' hsane hstep
  rcases step_cases hstep with ⟨-, hsame, -⟩ | ⟨req, a, -, hanswer, -⟩
  · rw [hsame]
    exact hsane
  · exact hsane.effect (SignService.effect_of_answer hanswer)

/-- After any requests: the declared sizes fit the buffers and bound the
received counters, an idle service is zero, no slice is out of range whatever
the next message is, and the next request moves the phase forward unless it is
an `End`, and changes at most `verify_ok` if it is rejected. -/
theorem session_invariant (M : Mldsa44) {drbg : CapDrbg}
    {history : List (IpcMessage × SignEvent)} {s : SignState}
    (hrun : Run (SignState.step M) (.boot drbg) history s) :
    (∀ sec, s.service.session.total sec ≤ sec.bufLen ∧
      s.service.session.recv sec ≤ s.service.session.total sec) ∧
    (s.service.session.phase = .idle →
      s.service.keyBuf = Buf.zero ∧ s.service.auxBuf = Buf.zero ∧
        s.service.msgBuf = Buf.zero ∧ s.service.outBuf = Buf.zero) ∧
    (∀ msg, ∀ u ∈ s.service.slices M s.drbg msg, u.InRange) ∧
    (∀ msg event s', s.step M msg = some (event, s') →
      (s.service.session.phase.rank ≤ s'.service.session.phase.rank ∨
        (msg.header.msgType = .signEndReq ∧
          s'.service.session.phase = .idle)) ∧
      (event.reply.replyType = .error →
        ∃ ok, s'.service = s.service.withVerifyOk ok)) := by
  have hsane := sane_of_run hrun
  refine ⟨fun sec => ⟨hsane.total_le sec, hsane.recv_le sec⟩,
    hsane.idle_zero, hsane.inRange_slices M s.drbg, ?_⟩
  intro msg event s' hstep
  rcases step_cases hstep with
    ⟨-, hsame, -⟩ | ⟨req, a, -, hanswer, -, hreply⟩
  · rw [hsame]
    exact ⟨.inl le_rfl, fun _ => ⟨_, rfl⟩⟩
  · have heffect := SignService.effect_of_answer hanswer
    refine ⟨SignService.rank_le_of_effect heffect, ?_⟩
    intro herror
    rw [hreply] at herror
    exact SignService.unchanged_of_error_effect heffect herror

theorem session_invariant_begun :
    ∃ history s, Run (SignState.step .zeroKeys) (.boot oneDrawDrbg) history s ∧
      s.service.session.phase = .collectKey ∧
      ∀ sec, s.service.session.total sec ≤ sec.bufLen ∧
        s.service.session.recv sec ≤ s.service.session.total sec := by
  have hstart : Run (SignState.step .zeroKeys) (.boot oneDrawDrbg) [] _ :=
    .start
  have hbegun := hstart.next (a := beginKeygen) rfl
  exact ⟨_, _, hbegun, rfl, (session_invariant .zeroKeys hbegun).1⟩

end SignState

end IsoLightK0
