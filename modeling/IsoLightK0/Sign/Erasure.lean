import IsoLightK0.Sign.Coverage

/-!
# The input buffers after `Exec`

`handle_exec` zeroes the key, auxiliary and message buffers behind the match
that runs the operation.  Every early exit of that match, and the exit of
`dispatch` for a failing DRBG, leaves them as they are.
-/

namespace IsoLightK0

open Bytes Runs

namespace SignService

def InputErased (S : SignService) : Prop :=
  S.keyBuf = Buf.zero ∧ S.auxBuf = Buf.zero ∧ S.msgBuf = Buf.zero

/-- The declared sizes are those of the operation and the crate delivers. -/
def CallDelivers (M : Mldsa44) (S : SignService) (rnd : Buf 32) : Prop :=
  match S.session.op with
  | .keygen =>
    (M.keygen (if S.session.keyTotal = 32 then
      Buf.ofList 32 (S.keyBuf.slice 0 32) else rnd)).isSome = true
  | .sign =>
    S.session.keyTotal = Sign.skLen ∧
      (M.sign S.keyBuf (S.msgBuf.slice 0 S.session.msgTotal) []
        rnd).isSome = true
  | .verify =>
    S.session.keyTotal = Sign.pkLen ∧ S.session.auxTotal = Sign.sigLen ∧
      M.verify (Buf.ofList Sign.pkLen (S.keyBuf.slice 0 Sign.pkLen))
        (S.msgBuf.slice 0 S.session.msgTotal) S.auxBuf [] = some true

theorem isSome_keygen_iff (M : Mldsa44) (seed : Buf 32) :
    (M.keygen seed).isSome = true ↔ ∃ out, M.keygenOutput seed = .ok out := by
  unfold Mldsa44.keygenOutput
  cases M.keygen seed with
  | none => simp
  | some keys => simp

theorem callDelivers_iff (M : Mldsa44) {S : SignService}
    (hready : S.session.phase = .ready) (rnd : Buf 32) :
    S.CallDelivers M rnd ↔
      ∃ call out, S.execCall rnd = .ok call ∧ call.output M = .ok out := by
  unfold CallDelivers execCall
  rw [if_neg (not_not.mpr hready)]
  cases S.session.op with
  | keygen =>
    dsimp only
    rw [isSome_keygen_iff]
    by_cases hkey : S.session.keyTotal = 32
    · simp [hkey, MldsaCall.output]
    · simp [hkey, MldsaCall.output]
  | sign =>
    dsimp only
    by_cases hkey : S.session.keyTotal = Sign.skLen
    · cases hsig : M.sign S.keyBuf (S.msgBuf.slice 0 S.session.msgTotal) []
          rnd with
      | none | some sig => simp [hkey, hsig, MldsaCall.output]
    · simp [hkey]
  | verify =>
    dsimp only
    by_cases hsizes : S.session.keyTotal = Sign.pkLen ∧
        S.session.auxTotal = Sign.sigLen
    · obtain ⟨hkey, haux⟩ := hsizes
      cases hok : M.verify (Buf.ofList Sign.pkLen
          (S.keyBuf.slice 0 Sign.pkLen))
          (S.msgBuf.slice 0 S.session.msgTotal) S.auxBuf [] with
      | none => simp [hkey, haux, hok, MldsaCall.output]
      | some ok => cases ok <;> simp [hkey, haux, hok, MldsaCall.output]
    · have hneg : S.session.keyTotal ≠ Sign.pkLen ∨
          S.session.auxTotal ≠ Sign.sigLen := not_and_or.mp hsizes
      rw [if_pos hneg, ← and_assoc]
      simp [hsizes]

/-- `handle_exec` in the phase `Ready` leaves the input buffers erased exactly
if it succeeds or they were erased before. -/
theorem inputErased_handleExec_iff (M : Mldsa44) {S : SignService}
    (hready : S.session.phase = .ready) (rnd : Buf 32) :
    (S.handleExec M rnd).2.InputErased ↔
      S.CallDelivers M rnd ∨ S.InputErased := by
  rw [callDelivers_iff M hready]
  obtain ⟨ok, ⟨e, hexec, hnever⟩ | ⟨call, out, hcall, hout, hexec⟩⟩ :=
    S.handleExec_outcome M rnd
  · have hfails : ¬ ∃ call out, S.execCall rnd = .ok call ∧
        call.output M = .ok out := by
      rintro ⟨call, out, hcall, hout⟩
      exact hnever call out hcall hout
    rw [hexec, or_iff_right hfails]
    exact Iff.rfl
  · rw [hexec]
    exact iff_of_true ⟨rfl, rfl, rfl⟩ (.inl ⟨call, out, hcall, hout⟩)

end SignService

namespace SignState

/-- An `Exec` message handled in the phase `Ready`, whatever requests came
before: the input buffers are erased when `dispatch` returns exactly if the
message has the length of a request, the DRBG delivers and the call succeeds,
or if they were erased before. -/
theorem exec_erases_input_iff (M : Mldsa44) {s s' : SignState}
    {msg : IpcMessage} {event : SignEvent}
    (htype : msg.header.msgType = .signExecReq)
    (hready : s.service.session.phase = .ready)
    (hstep : s.step M msg = some (event, s')) :
    s'.service.InputErased ↔
      (ipcMaxPayload ≤ msg.header.payloadLen.toNat ∧
        ∃ rnd drbg', randBytes 32 s.drbg = some (.ok rnd, drbg') ∧
          s.service.CallDelivers M rnd) ∨
      s.service.InputErased := by
  rcases step_cases hstep with
    ⟨⟨e, hparse⟩, hsame, -⟩ | ⟨req, a, hparse, hanswer, -⟩
  · have hshort : ¬ ipcMaxPayload ≤ msg.header.payloadLen.toNat := by
      intro hlong
      rw [parseReq, if_neg (Nat.not_lt.mpr hlong)] at hparse
      contradiction
    rw [hsame, or_iff_right (fun h => hshort h.1)]
  · have hlong : ipcMaxPayload ≤ msg.header.payloadLen.toNat := by
      by_contra hshort
      rw [parseReq, if_pos (Nat.not_le.mp hshort)] at hparse
      contradiction
    rw [htype, SignService.answer_exec] at hanswer
    obtain ⟨⟨drawn, drbg'⟩, hrand, heq⟩ := Option.map_eq_some_iff.mp hanswer
    cases drawn with
    | error e =>
      simp only [Prod.mk.injEq] at heq
      rw [← heq.2.1]
      simp [hlong, hrand]
    | ok rnd =>
      simp only [Prod.mk.injEq] at heq
      rw [← heq.2.1, SignService.inputErased_handleExec_iff M hready rnd]
      simp [hlong, hrand]

/-- `Begin` of a signature that declares a key of one octet. -/
def beginShortKey : IpcMessage :=
  signRequest .signBeginReq
    [1, 2, 1, 0, 0, 0, 0, 0, 0, 0, 0, 0, 12, 0, 0, 0, 1, 0, 0, 0]

def shortKeyChunk : IpcMessage :=
  signRequest .signInChunkReq
    [2, 2, 1, 0, 0, 0, 0, 0, 0, 0, 0, 0, 1, 0, 0, 0, 7]

theorem exec_erases_input_iff_seed :
    ∃ history s event s',
      Run (SignState.step .zeroKeys) (.boot oneDrawDrbg) history s ∧
      s.service.session.phase = .ready ∧
      s.step .zeroKeys execKeygen = some (event, s') ∧
      (s'.service.InputErased ↔
        (ipcMaxPayload ≤ execKeygen.header.payloadLen.toNat ∧
          ∃ rnd drbg', randBytes 32 s.drbg = some (.ok rnd, drbg') ∧
            s.service.CallDelivers .zeroKeys rnd) ∨
        s.service.InputErased) := by
  have hstart : Run (SignState.step .zeroKeys) (.boot oneDrawDrbg) [] _ :=
    .start
  have hfilled := (hstart.next (a := beginKeygen) rfl).next (a := seedChunk) rfl
  exact ⟨_, _, _, _, hfilled, rfl, rfl,
    exec_erases_input_iff .zeroKeys rfl rfl rfl⟩

/-- `Exec` refuses the short key and leaves it in the buffer. -/
theorem exec_keeps_refused_key :
    ∃ history s event s',
      Run (SignState.step .zeroKeys) (.boot oneDrawDrbg) history s ∧
      s.service.session.phase = .ready ∧
      s.step .zeroKeys execKeygen = some (event, s') ∧
      event.reply.replyType = .error ∧
      s'.service.keyBuf.slice 0 1 = [7] ∧ ¬ s'.service.InputErased := by
  have hstart : Run (SignState.step .zeroKeys) (.boot oneDrawDrbg) [] _ :=
    .start
  have hfilled :=
    (hstart.next (a := beginShortKey) rfl).next (a := shortKeyChunk) rfl
  refine ⟨_, _, _, _, hfilled, rfl, rfl, rfl, rfl, ?_⟩
  rintro ⟨hkey, -⟩
  have hoctet := congrArg (fun buf => buf.slice 0 1) hkey
  exact absurd hoctet (by decide)

end SignState

end IsoLightK0
