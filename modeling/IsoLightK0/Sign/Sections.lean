import IsoLightK0.Sign.Service
import IsoLightK0.Support.Uploads

/-!
# The input sections of the signature service

`handle_in_chunk` treats the key, the auxiliary and the message section alike:
it checks a chunk against the buffer and the declared size of the section being
collected, stores it and moves on when the section is complete.  The model
spells the three arms out as the source does; here they become one statement
about a section.
-/

namespace IsoLightK0

open Bytes Uploads

/-- The three input sections, in the order in which they are filled. -/
inductive SignSection
  | key
  | aux
  | msg
  deriving DecidableEq

def SignSection.phase : SignSection → SignPhase
  | .key => .collectKey
  | .aux => .collectAux
  | .msg => .collectMsg

def SignPhase.collects : SignPhase → Option SignSection
  | .collectKey => some .key
  | .collectAux => some .aux
  | .collectMsg => some .msg
  | _ => none

theorem SignPhase.collects_eq_some_iff (phase : SignPhase)
    (sec : SignSection) : phase.collects = some sec ↔ phase = sec.phase := by
  cases phase <;> cases sec <;> simp [collects, SignSection.phase]

namespace SignSession

def total (s : SignSession) : SignSection → ℕ
  | .key => s.keyTotal
  | .aux => s.auxTotal
  | .msg => s.msgTotal

def recv (s : SignSession) : SignSection → ℕ
  | .key => s.keyRecv
  | .aux => s.auxRecv
  | .msg => s.msgRecv

def phaseAfter (s : SignSession) : SignSection → SignPhase
  | .key =>
    if 0 < s.auxTotal then .collectAux
    else if 0 < s.msgTotal then .collectMsg
    else .ready
  | .aux => if 0 < s.msgTotal then .collectMsg else .ready
  | .msg => .ready

end SignSession

namespace SignService

/-- The buffer of the section, as a memory. -/
def contents (S : SignService) : SignSection → Mem
  | .key => S.keyBuf.toMem
  | .aux => S.auxBuf.toMem
  | .msg => S.msgBuf.toMem

end SignService

def SignSection.bufLen : SignSection → ℕ
  | .key => Sign.skLen
  | .aux => Sign.sigLen
  | .msg => Sign.msgBufLen

/-- The chunk that an `InChunk` request carries. -/
def SignPayload.chunk (req : SignPayload) : Chunk :=
  ⟨req.offset.toNat, req.data.slice 0 req.chunkLen.toNat⟩

/-! ## Chunks -/

variable {req : SignPayload}

theorem receiveChunk_eq_some {n total : ℕ} (buf : Buf n)
    (hbuf : req.offset.toNat + req.chunkLen.toNat ≤ n)
    (htotal : req.offset.toNat + req.chunkLen.toNat ≤ total) :
    receiveChunk buf total req =
      some (buf.blit req.chunk.offset req.chunk.bytes,
        req.offset.toNat + req.chunkLen.toNat) := by
  have hfits : ¬ (n < req.offset.toNat + req.chunkLen.toNat ∨
      total < req.offset.toNat + req.chunkLen.toNat) := by
    rw [not_or, Nat.not_lt, Nat.not_lt]
    exact ⟨hbuf, htotal⟩
  exact if_neg hfits

theorem receiveChunk_eq_none {n total : ℕ} (buf : Buf n)
    (h : ¬ (req.offset.toNat + req.chunkLen.toNat ≤ n ∧
      req.offset.toNat + req.chunkLen.toNat ≤ total)) :
    receiveChunk buf total req = none := by
  rw [not_and_or, Nat.not_le, Nat.not_le] at h
  exact if_pos h

theorem toMem_blit_chunk {n : ℕ} (buf : Buf n)
    (hbuf : req.offset.toNat + req.chunkLen.toNat ≤ n) :
    (buf.blit req.chunk.offset req.chunk.bytes).toMem =
      buf.toMem.write req.chunk.offset req.chunk.bytes := by
  apply Buf.toMem_blit
  rw [SignPayload.chunk, Buf.length_slice]
  exact hbuf

namespace SignService

/-- `S'` is `S` after it has stored the request's chunk in the section. -/
structure Stores (S : SignService) (sec : SignSection) (req : SignPayload)
    (S' : SignService) : Prop where
  recv : S'.session.recv =
    Function.update S.session.recv sec
      (req.offset.toNat + req.chunkLen.toNat)
  total : S'.session.total = S.session.total
  contents : S'.contents =
    Function.update S.contents sec
      ((S.contents sec).write req.chunk.offset req.chunk.bytes)
  phase : S'.session.phase =
    if S.session.total sec ≤ req.offset.toNat + req.chunkLen.toNat then
      S.session.phaseAfter sec
    else sec.phase

/-- The request's chunk passes the checks of the section. -/
structure Fits (S : SignService) (sec : SignSection)
    (req : SignPayload) : Prop where
  collects : S.session.phase.collects = some sec
  chunkLen : req.chunkLen.toNat ≤ Sign.chunkSize
  bufLen : req.offset.toNat + req.chunkLen.toNat ≤ sec.bufLen
  total : req.offset.toNat + req.chunkLen.toNat ≤ S.session.total sec

/-- The service after it has stored the request's chunk in the section. -/
def storeChunk (S : SignService) (sec : SignSection) (req : SignPayload) :
    SignService :=
  let stop := req.offset.toNat + req.chunkLen.toNat
  let phase :=
    if S.session.total sec ≤ stop then S.session.phaseAfter sec else sec.phase
  match sec with
  | .key =>
    { S with
      keyBuf := S.keyBuf.blit req.chunk.offset req.chunk.bytes
      session := { S.session with keyRecv := stop, phase := phase } }
  | .aux =>
    { S with
      auxBuf := S.auxBuf.blit req.chunk.offset req.chunk.bytes
      session := { S.session with auxRecv := stop, phase := phase } }
  | .msg =>
    { S with
      msgBuf := S.msgBuf.blit req.chunk.offset req.chunk.bytes
      session := { S.session with msgRecv := stop, phase := phase } }

variable {S : SignService} {req : SignPayload}

theorem stores_storeChunk {sec : SignSection} (h : S.Fits sec req) :
    S.Stores sec req (S.storeChunk sec req) := by
  refine ⟨?_, ?_, ?_, ?_⟩
  · funext any
    cases sec <;> cases any <;> rfl
  · funext any
    cases sec <;> cases any <;> rfl
  · funext any
    cases sec with
    | key =>
      cases any <;> first | exact toMem_blit_chunk S.keyBuf h.bufLen | rfl
    | aux =>
      cases any <;> first | exact toMem_blit_chunk S.auxBuf h.bufLen | rfl
    | msg =>
      cases any <;> first | exact toMem_blit_chunk S.msgBuf h.bufLen | rfl
  · cases sec <;> rfl

theorem handleInChunk_of_fits {sec : SignSection} (h : S.Fits sec req) :
    S.handleInChunk req = (.ok (), S.storeChunk sec req) := by
  have hlen : ¬ Sign.chunkSize < req.chunkLen.toNat := Nat.not_lt.mpr h.chunkLen
  have hphase : S.session.phase = sec.phase :=
    (SignPhase.collects_eq_some_iff _ _).mp h.collects
  rw [handleInChunk, if_neg hlen, hphase]
  cases sec with
  | key =>
    have htotal : _ ≤ S.session.keyTotal := h.total
    dsimp only [SignSection.phase]
    rw [receiveChunk_eq_some S.keyBuf h.bufLen htotal]
    rfl
  | aux =>
    have htotal : _ ≤ S.session.auxTotal := h.total
    dsimp only [SignSection.phase]
    rw [receiveChunk_eq_some S.auxBuf h.bufLen htotal]
    rfl
  | msg =>
    have htotal : _ ≤ S.session.msgTotal := h.total
    dsimp only [SignSection.phase]
    rw [receiveChunk_eq_some S.msgBuf h.bufLen htotal]
    rfl

/-- What `handle_in_chunk` answers to a chunk that does not pass. -/
def chunkRefusal (S : SignService) (req : SignPayload) : SignError :=
  if Sign.chunkSize < req.chunkLen.toNat ∨ S.session.phase.collects.isSome then
    .chunkOverflow
  else .invalidPhase

theorem handleInChunk_refused (h : ∀ sec, ¬ S.Fits sec req) :
    S.handleInChunk req = (.error (S.chunkRefusal req), S) := by
  unfold handleInChunk chunkRefusal
  by_cases hlen : Sign.chunkSize < req.chunkLen.toNat
  · rw [if_pos hlen, if_pos (.inl hlen)]
  · rw [if_neg hlen]
    have hover : ∀ sec : SignSection, S.session.phase = sec.phase →
        ¬ (req.offset.toNat + req.chunkLen.toNat ≤ sec.bufLen ∧
          req.offset.toNat + req.chunkLen.toNat ≤ S.session.total sec) := by
      rintro sec hphase ⟨hbuf, htotal⟩
      exact h sec ⟨(SignPhase.collects_eq_some_iff _ _).mpr hphase,
        Nat.not_lt.mp hlen, hbuf, htotal⟩
    cases hphase : S.session.phase with
    | collectKey =>
      have hnone : receiveChunk S.keyBuf S.session.keyTotal req = none :=
        receiveChunk_eq_none S.keyBuf (hover .key hphase)
      rw [hnone]
      simp [SignPhase.collects]
    | collectAux =>
      have hnone : receiveChunk S.auxBuf S.session.auxTotal req = none :=
        receiveChunk_eq_none S.auxBuf (hover .aux hphase)
      rw [hnone]
      simp [SignPhase.collects]
    | collectMsg =>
      have hnone : receiveChunk S.msgBuf S.session.msgTotal req = none :=
        receiveChunk_eq_none S.msgBuf (hover .msg hphase)
      rw [hnone]
      simp [SignPhase.collects]
    | idle | ready | outputReady => simp [hlen, SignPhase.collects]

end SignService

end IsoLightK0
