import IsoLightK0.Sign.Sections

/-!
# What a request to the signature service does

`answer` has many exits.  They are collected here once, as the relation
`SignService.Effect` between the service before a request, the answer and the
service after it; the invariants of the service and the facts about sessions
are read off from that relation.
-/

namespace IsoLightK0

open Bytes

/-- A key pair as the output buffer holds it. -/
def Mldsa44.keygenOutput (M : Mldsa44) (seed : Buf 32) :
    Except SignError (List Byte) :=
  match M.keygen seed with
  | none => .error .execFailed
  | some (pk, sk) => .ok (pk.toList ++ sk.toList)

/-- What the crate's answer to the call amounts to in `handle_exec`. -/
def MldsaCall.output (M : Mldsa44) : MldsaCall → Except SignError (List Byte)
  | .keygenFrom seed => M.keygenOutput seed
  | .keygenRandom rnd => M.keygenOutput rnd
  | .sign sk msg rnd =>
    match M.sign sk msg [] rnd with
    | none => .error .execFailed
    | some sig => .ok sig.toList
  | .verify pk msg sig =>
    match M.verify pk msg sig [] with
    | none => .error .execFailed
    | some false => .error .verifyFailed
    | some true => .ok [1]

theorem Mldsa44.length_keygenOutput {M : Mldsa44} {seed : Buf 32}
    {out : List Byte} (h : M.keygenOutput seed = .ok out) :
    out.length = Sign.outBufLen := by
  unfold keygenOutput at h
  cases hkeys : M.keygen seed with
  | none => simp [hkeys] at h
  | some keys =>
    simp only [hkeys, Except.ok.injEq] at h
    rw [← h, List.length_append, Buf.length_toList, Buf.length_toList]
    rfl

theorem MldsaCall.length_output_le {M : Mldsa44} {call : MldsaCall}
    {out : List Byte} (h : call.output M = .ok out) :
    out.length ≤ Sign.outBufLen := by
  cases call with
  | keygenFrom seed | keygenRandom rnd =>
    exact (Mldsa44.length_keygenOutput h).le
  | sign sk msg rnd =>
    dsimp only [output] at h
    cases hsig : M.sign sk msg [] rnd with
    | none => simp [hsig] at h
    | some sig =>
      simp only [hsig, Except.ok.injEq] at h
      rw [← h, Buf.length_toList]
      decide
  | verify pk msg sig =>
    dsimp only [output] at h
    cases hok : M.verify pk msg sig [] with
    | none => simp [hok] at h
    | some ok =>
      cases ok with
      | false => simp [hok] at h
      | true =>
        simp only [hok, Except.ok.injEq] at h
        rw [← h]
        decide

/-- The session that a `Begin` request asks for. -/
def SignPayload.declared (req : SignPayload) : Except SignError SignSession :=
  match SignOp.ofByte req.op with
  | none => .error .invalidOp
  | some op =>
    if req.variant ≠ 1 then .error .invalidVariant
    else if req.chunkLen.toNat < 12 then .error .invalidRequest
    else
      let keyTotal := ofLe (req.data.slice 0 4)
      let auxTotal := ofLe (req.data.slice 4 4)
      let msgTotal := ofLe (req.data.slice 8 4)
      if op.oversized keyTotal auxTotal msgTotal then .error .sizeTooLarge
      else .ok (.begin op keyTotal auxTotal msgTotal)

theorem SignPayload.declared_ok {req : SignPayload} {session : SignSession}
    (h : req.declared = .ok session) :
    ∃ op keyTotal auxTotal msgTotal,
      op.oversized keyTotal auxTotal msgTotal = false ∧
      session = .begin op keyTotal auxTotal msgTotal := by
  unfold declared at h
  cases hop : SignOp.ofByte req.op with
  | none => simp [hop] at h
  | some op =>
    simp only [hop] at h
    split_ifs at h with hvariant hlen hover
    cases h
    exact ⟨op, _, _, _, Bool.eq_false_iff.mpr hover, rfl⟩

namespace SignService

def withVerifyOk (S : SignService) (ok : Bool) : SignService :=
  { S with session := { S.session with verifyOk := ok } }

/-- The service at the end of a successful `handle_exec`. -/
def completed (S : SignService) (out : List Byte) : SignService :=
  (S.complete (S.outBuf.blit 0 out) out.length).2

theorem complete_eq (S : SignService) {out : List Byte} {n : ℕ}
    (hlength : out.length = n) :
    S.complete (S.outBuf.blit 0 out) n = (.ok out.length, S.completed out) := by
  subst hlength
  rfl

theorem runKeygen_outcome (M : Mldsa44) (S : SignService) (seed : Buf 32) :
    (∃ e, M.keygenOutput seed = .error e ∧
      S.runKeygen M seed = (.error e, S)) ∨
    (∃ out, M.keygenOutput seed = .ok out ∧
      S.runKeygen M seed = (.ok out.length, S.completed out)) := by
  unfold runKeygen Mldsa44.keygenOutput
  cases M.keygen seed with
  | none => exact .inl ⟨_, rfl, rfl⟩
  | some keys =>
    obtain ⟨pk, sk⟩ := keys
    have hblit : (S.outBuf.blit 0 pk.toList).blit Sign.pkLen sk.toList =
        S.outBuf.blit 0 (pk.toList ++ sk.toList) := by
      have h := Buf.blit_blit_append S.outBuf 0 pk.toList sk.toList
      rwa [Buf.length_toList, Nat.zero_add] at h
    have hlength : (pk.toList ++ sk.toList).length =
        Sign.pkLen + Sign.skLen := by
      rw [List.length_append, Buf.length_toList, Buf.length_toList]
    refine .inr ⟨_, rfl, ?_⟩
    dsimp only
    rw [hblit, complete_eq S hlength]

/-- `handle_exec` after its checks: a failed call changes nothing but
`verify_ok`. -/
theorem runCall_outcome (M : Mldsa44) (S : SignService) (call : MldsaCall) :
    ∃ ok,
      (∃ e, call.output M = .error e ∧
        S.runCall M call = (.error e, S.withVerifyOk ok)) ∨
      (∃ out, call.output M = .ok out ∧
        S.runCall M call =
          (.ok out.length, (S.withVerifyOk ok).completed out)) := by
  cases call with
  | keygenFrom seed => exact ⟨S.session.verifyOk, S.runKeygen_outcome M seed⟩
  | keygenRandom rnd => exact ⟨S.session.verifyOk, S.runKeygen_outcome M rnd⟩
  | sign sk msg rnd =>
    refine ⟨S.session.verifyOk, ?_⟩
    dsimp only [runCall, MldsaCall.output]
    cases M.sign sk msg [] rnd with
    | none => exact .inl ⟨_, rfl, rfl⟩
    | some sig =>
      exact .inr ⟨_, rfl, complete_eq S (Buf.length_toList sig)⟩
  | verify pk msg sig =>
    dsimp only [runCall, MldsaCall.output]
    cases M.verify pk msg sig [] with
    | none => exact ⟨S.session.verifyOk, .inl ⟨_, rfl, rfl⟩⟩
    | some ok =>
      refine ⟨ok, ?_⟩
      cases ok with
      | false => exact .inl ⟨_, rfl, rfl⟩
      | true => exact .inr ⟨_, rfl, rfl⟩

/-- `handle_exec` succeeds exactly if its checks pass and the crate delivers an
output. -/
theorem handleExec_outcome (M : Mldsa44) (S : SignService) (rnd : Buf 32) :
    ∃ ok,
      (∃ e, S.handleExec M rnd = (.error e, S.withVerifyOk ok) ∧
        ∀ call out, S.execCall rnd = .ok call → call.output M ≠ .ok out) ∨
      (∃ call out, S.execCall rnd = .ok call ∧ call.output M = .ok out ∧
        S.handleExec M rnd =
          (.ok out.length, (S.withVerifyOk ok).completed out)) := by
  unfold handleExec
  cases hcall : S.execCall rnd with
  | error e => exact ⟨S.session.verifyOk, .inl ⟨e, rfl, nofun⟩⟩
  | ok call =>
    obtain ⟨ok, ⟨e, hout, hrun⟩ | ⟨out, hout, hrun⟩⟩ := S.runCall_outcome M call
    · refine ⟨ok, .inl ⟨e, hrun, ?_⟩⟩
      rintro call out hcall hok
      cases hcall
      rw [hout] at hok
      contradiction
    · exact ⟨ok, .inr ⟨call, out, rfl, hout, hrun⟩⟩

theorem handleBegin_eq (S : SignService) (req : SignPayload) :
    S.handleBegin req =
      if S.session.phase = .idle then
        match req.declared with
        | .error e => (.error e, S)
        | .ok session => (.ok (), { SignService.reset with session := session })
      else (.error .invalidPhase, S) := by
  unfold handleBegin SignPayload.declared
  rw [ite_not]
  congr 1
  cases SignOp.ofByte req.op with
  | none => rfl
  | some op =>
    dsimp only
    split_ifs <;> rfl

/-- An accepted `Begin` finds the session idle and the sizes within the limits
of the operation. -/
theorem handleBegin_outcome (S : SignService) (req : SignPayload) :
    (∃ e, S.handleBegin req = (.error e, S)) ∨
    (∃ op keyTotal auxTotal msgTotal, S.session.phase = .idle ∧
      op.oversized keyTotal auxTotal msgTotal = false ∧
      S.handleBegin req =
        (.ok (),
          { SignService.reset with
            session := .begin op keyTotal auxTotal msgTotal })) := by
  rw [handleBegin_eq]
  by_cases hidle : S.session.phase = .idle
  · rw [if_pos hidle]
    cases hdeclared : req.declared with
    | error e => exact .inl ⟨e, rfl⟩
    | ok session =>
      obtain ⟨op, keyTotal, auxTotal, msgTotal, hover, rfl⟩ :=
        SignPayload.declared_ok hdeclared
      exact .inr ⟨op, _, _, _, hidle, hover, rfl⟩
  · rw [if_neg hidle]
    exact .inl ⟨_, rfl⟩

/-! ## What a request does -/

/-- What `dispatch` answers to a `Begin` request. -/
def beginAnswer : Except SignError Unit → SignAnswer
  | .ok () => ⟨.signBeginResp, 0, 0, 0, toLe 4 Sign.chunkSize⟩
  | .error e => .error e

/-- What it answers to an `InChunk` request that leaves the session `s`. -/
def inChunkAnswer (s : SignSession) : Except SignError Unit → SignAnswer
  | .ok () =>
    ⟨.signInChunkResp, 0,
      BitVec.ofNat 32 (s.keyRecv + s.auxRecv + s.msgRecv), 0, []⟩
  | .error e => .error e

/-- What it answers to an `Exec` request that the DRBG has served. -/
def execAnswer : Except SignError ℕ → SignAnswer
  | .ok outTotal => ⟨.signExecResp, 0, 0, BitVec.ofNat 32 outTotal, []⟩
  | .error e => .error e

/-- The ways in which `dispatch` can answer a request, with the service it
leaves behind. -/
inductive Effect (M : Mldsa44) (S : SignService) (msgType : MessageType)
    (req : SignPayload) : SignAnswer → SignService → Prop
  | rejected (e : SignError) (ok : Bool) :
      Effect M S msgType req (.error e) (S.withVerifyOk ok)
  | begun (op : SignOp) (keyTotal auxTotal msgTotal : ℕ) :
      msgType = .signBeginReq → S.session.phase = .idle →
      op.oversized keyTotal auxTotal msgTotal = false →
      Effect M S msgType req
        ⟨.signBeginResp, 0, 0, 0, toLe 4 Sign.chunkSize⟩
        { SignService.reset with
          session := .begin op keyTotal auxTotal msgTotal }
  | stored (sec : SignSection) (offset : BitVec 32) :
      msgType = .signInChunkReq → S.Fits sec req →
      Effect M S msgType req ⟨.signInChunkResp, 0, offset, 0, []⟩
        (S.storeChunk sec req)
  | executed (rnd : Buf 32) (call : MldsaCall) (out : List Byte) (ok : Bool) :
      msgType = .signExecReq → S.execCall rnd = .ok call →
      call.output M = .ok out →
      Effect M S msgType req
        ⟨.signExecResp, 0, 0, BitVec.ofNat 32 out.length, []⟩
        ((S.withVerifyOk ok).completed out)
  | read (data : List Byte) :
      msgType = .signOutChunkReq → S.handleOutChunk req = .ok data →
      Effect M S msgType req
        ⟨.signOutChunkResp, 0, req.offset,
          BitVec.ofNat 32 S.session.outTotal, data⟩ S
  | ended :
      msgType = .signEndReq →
      Effect M S msgType req ⟨.signEndResp, 0, 0, 0, []⟩ reset

variable {M : Mldsa44} {S S' : SignService} {drbg drbg' : CapDrbg}
  {msgType : MessageType} {req : SignPayload} {a : SignAnswer}

theorem effect_refl (M : Mldsa44) (S : SignService) (msgType : MessageType)
    (req : SignPayload) (e : SignError) :
    S.Effect M msgType req (.error e) S :=
  .rejected e S.session.verifyOk

theorem answer_begin :
    S.answer M drbg .signBeginReq req =
      some (beginAnswer (S.handleBegin req).1, (S.handleBegin req).2, drbg) := by
  unfold answer
  rcases S.handleBegin req with ⟨e | u, S'⟩ <;> rfl

theorem answer_inChunk :
    S.answer M drbg .signInChunkReq req =
      some (inChunkAnswer (S.handleInChunk req).2.session
        (S.handleInChunk req).1, (S.handleInChunk req).2, drbg) := by
  unfold answer
  rcases S.handleInChunk req with ⟨e | u, S'⟩ <;> rfl

theorem answer_exec :
    S.answer M drbg .signExecReq req =
      (randBytes 32 drbg).map fun (drawn, drbg) =>
        match drawn with
        | .error _ => (.error .execFailed, S, drbg)
        | .ok rnd =>
          (execAnswer (S.handleExec M rnd).1, (S.handleExec M rnd).2,
            drbg) := by
  unfold answer
  rcases randBytes 32 drbg with _ | ⟨e | rnd, drbg'⟩
  · rfl
  · rfl
  · dsimp only [Option.map_some]
    rcases S.handleExec M rnd with ⟨e | outTotal, S'⟩ <;> rfl

theorem effect_of_answer
    (h : S.answer M drbg msgType req = some (a, S', drbg')) :
    S.Effect M msgType req a S' := by
  cases msgType with
  | signBeginReq =>
    rw [answer_begin] at h
    rcases S.handleBegin_outcome req with
      ⟨e, hbegin⟩ | ⟨op, keyTotal, auxTotal, msgTotal, hidle, hover, hbegin⟩
    · rw [hbegin] at h
      cases h
      exact S.effect_refl M _ req e
    · rw [hbegin] at h
      cases h
      exact .begun op keyTotal auxTotal msgTotal rfl hidle hover
  | signInChunkReq =>
    rw [answer_inChunk] at h
    by_cases hfits : ∃ sec, S.Fits sec req
    · obtain ⟨sec, hfits⟩ := hfits
      rw [handleInChunk_of_fits hfits] at h
      cases h
      exact .stored sec _ rfl hfits
    · rw [handleInChunk_refused (not_exists.mp hfits)] at h
      cases h
      exact S.effect_refl M _ req _
  | signExecReq =>
    rw [answer_exec] at h
    obtain ⟨⟨drawn, drbg₁⟩, -, heq⟩ := Option.map_eq_some_iff.mp h
    cases drawn with
    | error e =>
      cases heq
      exact S.effect_refl M _ req .execFailed
    | ok rnd =>
      dsimp only at heq
      obtain ⟨ok, ⟨e, hexec, -⟩ | ⟨call, out, hcall, hout, hexec⟩⟩ :=
        S.handleExec_outcome M rnd
      · rw [hexec] at heq
        cases heq
        exact .rejected e ok
      · rw [hexec] at heq
        cases heq
        exact .executed rnd call out ok rfl hcall hout
  | signOutChunkReq =>
    unfold answer at h
    cases hread : S.handleOutChunk req with
    | error e =>
      rw [hread] at h
      cases h
      exact S.effect_refl M _ req e
    | ok data =>
      rw [hread] at h
      cases h
      exact .read data rfl hread
  | signEndReq =>
    cases h
    exact .ended rfl
  | _ =>
    cases h
    exact S.effect_refl M _ req .invalidRequest

end SignService

end IsoLightK0
