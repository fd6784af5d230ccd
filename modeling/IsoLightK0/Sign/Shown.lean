import IsoLightK0.Sign.Effect

/-!
# What a session of the signature service shows

The service keeps one session and four buffers for all its clients.  What the
session shows to everybody is how far it has got and the sizes declared for
it; the octets of its sections, and what `Exec` makes of them, are not among
that.  Apart from `Exec` and `OutChunk`, every request is answered from what is
shown, and no request lets the session's octets reach it.
-/

namespace IsoLightK0

open Bytes

/-- The phase, without the outcome of `Exec`. -/
def SignPhase.shown : SignPhase → SignPhase
  | .outputReady => .ready
  | phase => phase

theorem SignPhase.collects_shown (phase : SignPhase) :
    phase.shown.collects = phase.collects := by
  cases phase <;> rfl

theorem SignPhase.shown_eq_idle_iff (phase : SignPhase) :
    phase.shown = .idle ↔ phase = .idle := by
  cases phase <;> simp [shown]

/-- The session without what depends on the octets it has received: whether
`Exec` has delivered an output, how long the output is, and the verdict of a
verification. -/
def SignSession.shown (s : SignSession) : SignSession :=
  { s with phase := s.phase.shown, outTotal := 0, verifyOk := false }

theorem SignSession.total_shown (s : SignSession) (sec : SignSection) :
    s.shown.total sec = s.total sec := by
  cases sec <;> rfl

/-- The two requests differ at most in their data. -/
def SignPayload.SameHeader (req req' : SignPayload) : Prop :=
  ∃ data, req' = { req with data := data }

theorem SignPayload.sameHeader_of_eq {req req' : SignPayload}
    (hphase : req'.phase = req.phase) (hop : req'.op = req.op)
    (hvariant : req'.variant = req.variant) (hresult : req'.result = req.result)
    (hoffset : req'.offset = req.offset) (htotal : req'.total = req.total)
    (hchunkLen : req'.chunkLen = req.chunkLen) : req.SameHeader req' := by
  refine ⟨req'.data, ?_⟩
  rw [← hphase, ← hop, ← hvariant, ← hresult, ← hoffset, ← htotal, ← hchunkLen]

theorem SignPayload.SameHeader.refl (req : SignPayload) :
    req.SameHeader req :=
  ⟨req.data, rfl⟩

namespace SignService

/-- A service with the shown part of the session and empty buffers. -/
def shown (S : SignService) : SignService :=
  { SignService.reset with session := S.session.shown }

theorem shown_shown (S : SignService) : S.shown.shown = S.shown := by
  have hphase : S.session.phase.shown.shown = S.session.phase.shown := by
    cases S.session.phase <;> rfl
  simp [shown, SignSession.shown, hphase]

theorem phase_eq_idle_iff_shown (S : SignService) :
    S.shown.session.phase = .idle ↔ S.session.phase = .idle :=
  SignPhase.shown_eq_idle_iff S.session.phase

variable {S : SignService} {req req' : SignPayload} {sec : SignSection}

/-! ### `Begin` -/

theorem handleBegin_shown (S : SignService) (req : SignPayload) :
    (S.handleBegin req).1 = (S.shown.handleBegin req).1 ∧
      (S.handleBegin req).2.shown = (S.shown.handleBegin req).2.shown := by
  rw [handleBegin_eq, handleBegin_eq]
  by_cases hidle : S.session.phase = .idle
  · rw [if_pos hidle, if_pos (S.phase_eq_idle_iff_shown.mpr hidle)]
    cases req.declared with
    | error e => exact ⟨rfl, S.shown_shown.symm⟩
    | ok session => exact ⟨rfl, rfl⟩
  · rw [if_neg hidle, if_neg (S.phase_eq_idle_iff_shown.not.mpr hidle)]
    exact ⟨rfl, S.shown_shown.symm⟩

/-! ### `InChunk` -/

theorem fits_shown_iff (h : req.SameHeader req') :
    S.shown.Fits sec req' ↔ S.Fits sec req := by
  obtain ⟨data, rfl⟩ := h
  constructor
  · rintro ⟨hcollects, hchunk, hbuf, htotal⟩
    exact ⟨(SignPhase.collects_shown _).symm.trans hcollects, hchunk, hbuf,
      htotal.trans_eq (SignSession.total_shown _ _)⟩
  · rintro ⟨hcollects, hchunk, hbuf, htotal⟩
    exact ⟨(SignPhase.collects_shown _).trans hcollects, hchunk, hbuf,
      htotal.trans_eq (SignSession.total_shown _ _).symm⟩

theorem shown_storeChunk (h : req.SameHeader req') :
    (S.storeChunk sec req).shown = (S.shown.storeChunk sec req').shown := by
  obtain ⟨data, rfl⟩ := h
  cases sec <;> rfl

theorem chunkRefusal_shown (h : req.SameHeader req') :
    S.chunkRefusal req = S.shown.chunkRefusal req' := by
  obtain ⟨data, rfl⟩ := h
  have hcollects : S.shown.session.phase.collects =
      S.session.phase.collects :=
    SignPhase.collects_shown _
  rw [chunkRefusal, chunkRefusal, hcollects]

theorem handleInChunk_shown (h : req.SameHeader req') :
    (S.handleInChunk req).1 = (S.shown.handleInChunk req').1 ∧
      (S.handleInChunk req).2.shown =
        (S.shown.handleInChunk req').2.shown := by
  by_cases hfits : ∃ sec, S.Fits sec req
  · obtain ⟨sec, hfits⟩ := hfits
    rw [handleInChunk_of_fits hfits,
      handleInChunk_of_fits ((fits_shown_iff h).mpr hfits)]
    exact ⟨rfl, shown_storeChunk h⟩
  · have hrefused : ∀ sec, ¬ S.shown.Fits sec req' := by
      intro sec hsec
      exact hfits ⟨sec, (fits_shown_iff h).mp hsec⟩
    rw [handleInChunk_refused (not_exists.mp hfits),
      handleInChunk_refused hrefused, chunkRefusal_shown h]
    exact ⟨rfl, S.shown_shown.symm⟩

/-! ### `Exec` -/

theorem handleExec_of_not_ready (M : Mldsa44) (rnd : Buf 32)
    (h : S.session.phase ≠ .ready) :
    S.handleExec M rnd = (.error .invalidPhase, S) := by
  rw [handleExec, execCall, if_pos h]

theorem shown_handleExec (M : Mldsa44) (S : SignService) (rnd : Buf 32) :
    (S.handleExec M rnd).2.shown = S.shown := by
  by_cases hready : S.session.phase = .ready
  · obtain ⟨ok, ⟨e, hexec, -⟩ | ⟨call, out, -, -, hexec⟩⟩ :=
      S.handleExec_outcome M rnd
    · rw [hexec]
      rfl
    · rw [hexec]
      simp [shown, SignSession.shown, completed, complete, withVerifyOk,
        SignPhase.shown, hready]
  · rw [handleExec_of_not_ready M rnd hready]

/-! ### One request -/

/-- The reply to such a request may say something about the octets of the
session. -/
def Yields (S : SignService) : MessageType → Prop
  | .signExecReq => S.session.phase = .ready
  | .signOutChunkReq => S.session.phase = .outputReady
  | _ => False

/-- The service takes the request for one of the session. -/
def Reaches (S : SignService) (msgType : MessageType)
    (req : SignPayload) : Prop :=
  match msgType with
  | .signInChunkReq => ∃ sec, S.Fits sec req
  | .signEndReq => True
  | _ => S.Yields msgType

theorem not_yields_of_not_reaches {msgType : MessageType}
    (h : ¬ S.Reaches msgType req) : ¬ S.Yields msgType := by
  cases msgType <;> first | exact h | exact id

theorem not_yields_of_idle (hidle : S.session.phase = .idle)
    (msgType : MessageType) : ¬ S.Yields msgType := by
  cases msgType <;> simp [Yields, hidle]

variable {M : Mldsa44} {drbg : CapDrbg}

theorem answer_outChunk (M : Mldsa44) (S : SignService) (drbg : CapDrbg)
    (req : SignPayload) :
    ∃ a, S.answer M drbg .signOutChunkReq req = some (a, S, drbg) ∧
      (¬ S.Yields .signOutChunkReq → a = .error .invalidPhase) := by
  by_cases h : S.session.phase = .outputReady
  · unfold answer
    cases S.handleOutChunk req with
    | error e | ok data => exact ⟨_, rfl, fun hquiet => (hquiet h).elim⟩
  · have hread : S.handleOutChunk req = .error .invalidPhase := if_pos h
    refine ⟨.error .invalidPhase, ?_, fun _ => rfl⟩
    rw [answer, hread]

/-- Only the DRBG can keep a request from being answered. -/
theorem answer_eq_none_iff {msgType : MessageType} :
    S.answer M drbg msgType req = none ↔
      msgType = .signExecReq ∧ randBytes 32 drbg = none := by
  cases msgType with
  | signBeginReq => simp [answer_begin]
  | signInChunkReq => simp [answer_inChunk]
  | signExecReq => simp [answer_exec]
  | signOutChunkReq =>
    obtain ⟨a, hread, -⟩ := answer_outChunk M S drbg req
    simp [hread]
  | _ => simp [answer]

theorem eq_of_not_reaches {S' : SignService} {drbg' : CapDrbg}
    {msgType : MessageType} {a : SignAnswer}
    (hbusy : S.session.phase ≠ .idle) (h : ¬ S.Reaches msgType req)
    (hanswer : S.answer M drbg msgType req = some (a, S', drbg')) :
    S' = S := by
  cases msgType with
  | signBeginReq =>
    rw [answer_begin, handleBegin_eq, if_neg hbusy] at hanswer
    cases hanswer
    rfl
  | signInChunkReq =>
    rw [answer_inChunk, handleInChunk_refused (not_exists.mp h)] at hanswer
    cases hanswer
    rfl
  | signExecReq =>
    rw [answer_exec] at hanswer
    obtain ⟨⟨drawn, drbg₁⟩, -, heq⟩ := Option.map_eq_some_iff.mp hanswer
    cases drawn with
    | error e =>
      cases heq
      rfl
    | ok rnd =>
      dsimp only at heq
      rw [handleExec_of_not_ready M rnd h] at heq
      cases heq
      rfl
  | signOutChunkReq =>
    obtain ⟨a', hread, -⟩ := answer_outChunk M S drbg req
    rw [hread] at hanswer
    cases hanswer
    rfl
  | signEndReq => exact (h trivial).elim
  | _ =>
    cases hanswer
    rfl

theorem inChunkAnswer_shown (s : SignSession) (result : Except SignError Unit) :
    inChunkAnswer s.shown result = inChunkAnswer s result := by
  cases result <;> rfl

/-- Two services that show the same, given the same request up to the data of
a chunk, show the same afterwards; and unless the reply may say something about
the session's octets, it is the same. -/
theorem answer_lockstep {M₁ M₂ : Mldsa44} {S₁ S₂ S₁' S₂' : SignService}
    {drbg₁ drbg₂ : CapDrbg} {msgType : MessageType} {req₁ req₂ : SignPayload}
    {a₁ a₂ : SignAnswer} (hshown : S₁.shown = S₂.shown)
    (hheader : req₁.SameHeader req₂)
    (hsame : msgType ≠ .signInChunkReq → req₁ = req₂)
    (h₁ : S₁.answer M₁ drbg msgType req₁ = some (a₁, S₁', drbg₁))
    (h₂ : S₂.answer M₂ drbg msgType req₂ = some (a₂, S₂', drbg₂)) :
    S₁'.shown = S₂'.shown ∧ drbg₁ = drbg₂ ∧
      (¬ S₁.Yields msgType → ¬ S₂.Yields msgType → a₁ = a₂) := by
  cases msgType with
  | signBeginReq =>
    obtain rfl := hsame (by decide)
    obtain ⟨hresult₁, hshown₁⟩ := S₁.handleBegin_shown req₁
    obtain ⟨hresult₂, hshown₂⟩ := S₂.handleBegin_shown req₁
    rw [answer_begin] at h₁ h₂
    cases h₁
    cases h₂
    rw [hshown] at hresult₁ hshown₁
    refine ⟨hshown₁.trans hshown₂.symm, rfl, fun _ _ => ?_⟩
    rw [hresult₁, hresult₂]
  | signInChunkReq =>
    obtain ⟨hresult₁, hshown₁⟩ := handleInChunk_shown (S := S₁) hheader
    obtain ⟨hresult₂, hshown₂⟩ := handleInChunk_shown (S := S₂) (.refl req₂)
    rw [answer_inChunk] at h₁ h₂
    cases h₁
    cases h₂
    rw [hshown] at hresult₁ hshown₁
    have hafter : (S₁.handleInChunk req₁).2.shown =
        (S₂.handleInChunk req₂).2.shown :=
      hshown₁.trans hshown₂.symm
    have hsession : (S₁.handleInChunk req₁).2.session.shown =
        (S₂.handleInChunk req₂).2.session.shown :=
      congrArg SignService.session hafter
    refine ⟨hafter, rfl, fun _ _ => ?_⟩
    rw [← inChunkAnswer_shown, hsession, inChunkAnswer_shown, hresult₁,
      hresult₂]
  | signExecReq =>
    rw [answer_exec] at h₁ h₂
    obtain ⟨⟨drawn, rest⟩, hdrawn, heq₁⟩ := Option.map_eq_some_iff.mp h₁
    obtain ⟨⟨drawn', rest'⟩, hdrawn', heq₂⟩ := Option.map_eq_some_iff.mp h₂
    rw [hdrawn] at hdrawn'
    cases hdrawn'
    cases drawn with
    | error e =>
      cases heq₁
      cases heq₂
      exact ⟨hshown, rfl, fun _ _ => rfl⟩
    | ok rnd =>
      cases heq₁
      cases heq₂
      refine ⟨?_, rfl, fun hquiet₁ hquiet₂ => ?_⟩
      · rw [shown_handleExec, shown_handleExec, hshown]
      · rw [handleExec_of_not_ready M₁ rnd hquiet₁,
          handleExec_of_not_ready M₂ rnd hquiet₂]
  | signOutChunkReq =>
    obtain ⟨b₁, hread₁, hrefused₁⟩ := answer_outChunk M₁ S₁ drbg req₁
    obtain ⟨b₂, hread₂, hrefused₂⟩ := answer_outChunk M₂ S₂ drbg req₂
    rw [hread₁] at h₁
    rw [hread₂] at h₂
    cases h₁
    cases h₂
    exact ⟨hshown, rfl, fun hquiet₁ hquiet₂ =>
      (hrefused₁ hquiet₁).trans (hrefused₂ hquiet₂).symm⟩
  | signEndReq =>
    cases h₁
    cases h₂
    exact ⟨rfl, rfl, fun _ _ => rfl⟩
  | _ =>
    cases h₁
    cases h₂
    exact ⟨hshown, rfl, fun _ _ => rfl⟩

end SignService

end IsoLightK0
