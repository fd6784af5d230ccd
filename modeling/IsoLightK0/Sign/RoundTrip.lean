import IsoLightK0.Sign.Coverage

/-!
# Operands in, result out

A client splits the operands of an ML-DSA operation into chunks and sends them
in order; `Exec` then calls the crate on the operands themselves, and the
chunks of the output, read one after the other, are the output.

The messages are described by what they carry.  The induction over the chunks
of a section keeps track of the octets received so far; since no chunk is
empty, only the last one completes the section.
-/

namespace IsoLightK0

open Bytes Runs Uploads

theorem SignPayload.length_toBytes (p : SignPayload) :
    p.toBytes.length = ipcMaxPayload := by
  have hdata : p.data.toList.length = 240 := Buf.length_toList p.data
  simp [toBytes, ipcMaxPayload, hdata]

theorem SignPayload.ofBytes_toBytes (p : SignPayload) :
    SignPayload.ofBytes (Buf.ofList ipcMaxPayload p.toBytes) = p := by
  have hslice : ∀ off len, off + len ≤ ipcMaxPayload →
      (Buf.ofList ipcMaxPayload p.toBytes).slice off len =
        (p.toBytes.drop off).take len := by
    intro off len h
    exact Buf.slice_ofList (by rw [length_toBytes]; exact h) h
  have hoffset : (p.toBytes.drop 4).take 4 = wordToLe 4 p.offset := by
    simp [toBytes]
  have htotal : (p.toBytes.drop 8).take 4 = wordToLe 4 p.total := by
    simp [toBytes]
  have hchunkLen : (p.toBytes.drop 12).take 2 = wordToLe 2 p.chunkLen := by
    simp [toBytes, List.drop_append, List.drop_eq_nil_of_le]
  have hdata : (p.toBytes.drop 16).take Sign.chunkSize = p.data.toList := by
    have hlength : p.data.toList.length ≤ Sign.chunkSize :=
      (Buf.length_toList p.data).le
    simp [toBytes, List.drop_append, List.drop_eq_nil_of_le,
      List.take_of_length_le hlength]
  unfold ofBytes
  rw [hslice 4 4 (by decide), hslice 8 4 (by decide), hslice 12 2 (by decide),
    hslice 16 Sign.chunkSize (by decide), hoffset, htotal, hchunkLen, hdata,
    wordOfLe_wordToLe _ (by decide), wordOfLe_wordToLe _ (by decide),
    wordOfLe_wordToLe _ (by decide), Buf.ofList_toList]
  rfl

/-- The data that a client reads from a reply: `data[..chunk_len]`. -/
def SignReply.data (r : SignReply) : List Byte :=
  let p := SignPayload.ofBytes (Buf.ofList ipcMaxPayload r.payload)
  p.data.slice 0 p.chunkLen.toNat

theorem SignReply.data_writeSignReply (replyType : MessageType)
    (phase result : Byte) (offset total : BitVec 32) {bytes : List Byte}
    (hlen : bytes.length ≤ Sign.chunkSize) :
    SignReply.data ⟨replyType,
      writeSignReply phase result offset total bytes⟩ = bytes := by
  have hchunk : bytes.length ≤ 240 := hlen
  have hcode : (BitVec.ofNat 16 bytes.length).toNat = bytes.length := by
    rw [BitVec.toNat_ofNat]
    exact Nat.mod_eq_of_lt (by omega)
  have hfits : 0 + bytes.length ≤ bytes.length := by omega
  have hbuf : 0 + bytes.length ≤ Sign.chunkSize := by omega
  unfold SignReply.data writeSignReply
  rw [SignPayload.ofBytes_toBytes]
  dsimp only
  rw [Nat.min_eq_left hlen, hcode, Buf.slice_ofList hfits hbuf,
    List.drop_zero, List.take_length]

/-! ## What the client sends -/

def SignMessage := { msg : List Byte // msg.length ≤ Sign.msgBufLen }

inductive SignInput
  | keygen (seed : Buf 32)
  | sign (sk : Buf Sign.skLen) (msg : SignMessage)
  | verify (pk : Buf Sign.pkLen) (sig : Buf Sign.sigLen) (msg : SignMessage)

namespace SignInput

def op : SignInput → SignOp
  | .keygen _ => .keygen
  | .sign _ _ => .sign
  | .verify _ _ _ => .verify

def part : SignInput → SignSection → List Byte
  | .keygen seed, .key => seed.toList
  | .sign sk _, .key => sk.toList
  | .sign _ msg, .msg => msg.val
  | .verify pk _ _, .key => pk.toList
  | .verify _ sig _, .aux => sig.toList
  | .verify _ _ msg, .msg => msg.val
  | _, _ => []

def call (rnd : Buf 32) : SignInput → MldsaCall
  | .keygen seed => .keygenFrom seed
  | .sign sk msg => .sign sk msg.val rnd
  | .verify pk sig msg => .verify pk msg.val sig

theorem not_oversized (input : SignInput) :
    input.op.oversized (input.part .key).length (input.part .aux).length
      (input.part .msg).length = false := by
  cases input with
  | keygen seed => simp [op, part, SignOp.oversized]
  | sign sk msg | verify pk sig msg =>
    have hmsg := Nat.not_lt.mpr msg.property
    simp [op, part, SignOp.oversized, hmsg]

theorem length_part_le (input : SignInput) (sec : SignSection) :
    (input.part sec).length ≤ sec.bufLen := by
  have hlens : 32 ≤ Sign.skLen ∧ Sign.pkLen ≤ Sign.skLen := by decide
  cases input with
  | keygen seed =>
    cases sec with
    | key => exact (Buf.length_toList seed).le.trans hlens.1
    | aux => exact Nat.zero_le _
    | msg => exact Nat.zero_le _
  | sign sk msg =>
    cases sec with
    | key => exact (Buf.length_toList sk).le
    | aux => exact Nat.zero_le _
    | msg => exact msg.property
  | verify pk sig msg =>
    cases sec with
    | key => exact (Buf.length_toList pk).le.trans hlens.2
    | aux => exact (Buf.length_toList sig).le
    | msg => exact msg.property

/-- A split of every section into chunks of 1 to 240 octets. -/
structure Split (input : SignInput) where
  chunks : SignSection → List (List Byte)
  flatten_eq : ∀ sec, (chunks sec).flatten = input.part sec
  length_pos : ∀ sec, ∀ c ∈ chunks sec, 1 ≤ c.length
  length_le : ∀ sec, ∀ c ∈ chunks sec, c.length ≤ Sign.chunkSize

end SignInput

namespace IpcMessage

def Requests (msg : IpcMessage) (msgType : MessageType) (req : SignPayload) :
    Prop :=
  msg.header.msgType = msgType ∧ parseReq msg = .ok req

/-- A `Begin` that declares the operation and the sizes of the operands. -/
def Begins (msg : IpcMessage) (input : SignInput) : Prop :=
  ∃ req, msg.Requests .signBeginReq req ∧
    SignOp.ofByte req.op = some input.op ∧ req.variant = 1 ∧
    12 ≤ req.chunkLen.toNat ∧
    ofLe (req.data.slice 0 4) = (input.part .key).length ∧
    ofLe (req.data.slice 4 4) = (input.part .aux).length ∧
    ofLe (req.data.slice 8 4) = (input.part .msg).length

/-- An `InChunk` that carries the octets for the offset. -/
def Carries (msg : IpcMessage) (offset : ℕ) (bytes : List Byte) : Prop :=
  ∃ req, msg.Requests .signInChunkReq req ∧ req.chunk = ⟨offset, bytes⟩

def Executes (msg : IpcMessage) : Prop :=
  ∃ req, msg.Requests .signExecReq req

def Reads (msg : IpcMessage) (offset : ℕ) : Prop :=
  ∃ req, msg.Requests .signOutChunkReq req ∧ req.offset.toNat = offset

end IpcMessage

/-- The messages carry the chunks one after the other, from the offset on. -/
inductive InOrder : ℕ → List (List Byte) → List IpcMessage → Prop
  | nil (offset : ℕ) : InOrder offset [] []
  | cons {offset : ℕ} {c : List Byte} {cs : List (List Byte)}
      {msg : IpcMessage} {msgs : List IpcMessage} :
      msg.Carries offset c → InOrder (offset + c.length) cs msgs →
      InOrder offset (c :: cs) (msg :: msgs)

namespace SignState

variable {M : Mldsa44} {s : SignState} {msg : IpcMessage}

theorem step_of_answer {msgType : MessageType} {req : SignPayload}
    {a : SignAnswer} {S' : SignService} {drbg' : CapDrbg}
    (hreq : msg.Requests msgType req)
    (hanswer : s.service.answer M s.drbg msgType req =
      some (a, S', drbg')) :
    s.step M msg =
      some (⟨⟨a.replyType,
          writeSignReply req.phase a.code a.offset a.total a.data⟩,
          s.runs msgType⟩, ⟨S', drbg', s.log msgType req⟩) := by
  obtain ⟨htype, hparse⟩ := hreq
  simp [step, SignService.dispatch, hparse, htype, hanswer]

end SignState

def SignSection.later : SignSection → List SignSection
  | .key => [.aux, .msg]
  | .aux => [.msg]
  | .msg => []

/-- The phase that waits for the first of the sections that carries
anything. -/
def SignInput.phaseFrom (input : SignInput) : List SignSection → SignPhase
  | [] => .ready
  | sec :: rest =>
    if input.part sec = [] then input.phaseFrom rest else sec.phase

/-- The service has received `got` of the operands. -/
structure Receiving (S : SignService) (input : SignInput)
    (got : SignSection → List Byte) : Prop where
  op : S.session.op = input.op
  total : ∀ sec, S.session.total sec = (input.part sec).length
  contents : ∀ sec, (S.contents sec).read 0 (got sec).length = got sec

namespace Receiving

variable {M : Mldsa44} {s : SignState} {input : SignInput}
  {got : SignSection → List Byte} {sec : SignSection}

theorem phaseAfter_eq {S : SignService} (h : Receiving S input got)
    (sec : SignSection) :
    S.session.phaseAfter sec = input.phaseFrom sec.later := by
  have haux : 0 < S.session.auxTotal ↔ input.part .aux ≠ [] := by
    rw [← List.length_pos_iff, ← h.total .aux]
    rfl
  have hmsg : 0 < S.session.msgTotal ↔ input.part .msg ≠ [] := by
    rw [← List.length_pos_iff, ← h.total .msg]
    rfl
  cases sec with
  | key =>
    simp only [SignSession.phaseAfter, SignSection.later,
      SignInput.phaseFrom, haux, hmsg, ite_not]
    rfl
  | aux =>
    simp only [SignSession.phaseAfter, SignSection.later,
      SignInput.phaseFrom, hmsg, ite_not]
    rfl
  | msg => rfl

theorem chunk (h : Receiving s.service input got)
    (hphase : s.service.session.phase = sec.phase) {msg : IpcMessage}
    {c : List Byte} (hmsg : msg.Carries (got sec).length c)
    (hlen : c.length ≤ Sign.chunkSize)
    (hfit : (got sec ++ c).length ≤ (input.part sec).length) :
    ∃ event s', s.step M msg = some (event, s') ∧ s'.drbg = s.drbg ∧
      Receiving s'.service input
        (Function.update got sec (got sec ++ c)) ∧
      s'.service.session.phase =
        if (input.part sec).length ≤ (got sec ++ c).length then
          input.phaseFrom sec.later
        else sec.phase := by
  obtain ⟨req, hreq, hchunk⟩ := hmsg
  have hoffset : req.offset.toNat = (got sec).length :=
    congrArg Chunk.offset hchunk
  have hbytes : req.chunk.bytes = c := congrArg Chunk.bytes hchunk
  have hchunkLen : req.chunkLen.toNat = c.length := by
    rw [← hbytes, SignPayload.chunk, Buf.length_slice]
  have hstop : req.offset.toNat + req.chunkLen.toNat =
      (got sec ++ c).length := by
    rw [hoffset, hchunkLen, List.length_append]
  have hfits : s.service.Fits sec req := by
    refine ⟨(SignPhase.collects_eq_some_iff _ _).mpr hphase, ?_, ?_, ?_⟩
    · rw [hchunkLen]
      exact hlen
    · rw [hstop]
      exact hfit.trans (input.length_part_le sec)
    · rw [hstop, h.total]
      exact hfit
  have hstores := SignService.stores_storeChunk hfits
  obtain ⟨a, hanswer⟩ : ∃ a, s.service.answer M s.drbg .signInChunkReq req =
      some (a, s.service.storeChunk sec req, s.drbg) := by
    rw [SignService.answer, SignService.handleInChunk_of_fits hfits]
    exact ⟨_, rfl⟩
  refine ⟨_, _, SignState.step_of_answer hreq hanswer, rfl, ?_, ?_⟩
  · refine ⟨?_, ?_, ?_⟩
    · rw [← h.op]
      cases sec <;> rfl
    · intro any
      dsimp only
      rw [hstores.total]
      exact h.total any
    · intro any
      dsimp only
      rw [hstores.contents]
      by_cases hany : any = sec
      · subst hany
        rw [Function.update_self, Function.update_self, hbytes,
          show req.chunk.offset = (got any).length from hoffset]
        exact read_write_append (h.contents any) c
      · rw [Function.update_of_ne hany, Function.update_of_ne hany]
        exact h.contents any
  · dsimp only
    rw [hstores.phase, hstop, h.total, h.phaseAfter_eq]

/-- The chunks of one section.  Only the last of them completes it, since none
is empty. -/
theorem fill {offset : ℕ} {cs : List (List Byte)} {msgs : List IpcMessage}
    (hmsgs : InOrder offset cs msgs)
    (hpos : ∀ c ∈ cs, 1 ≤ c.length) (hle : ∀ c ∈ cs, c.length ≤ Sign.chunkSize)
    (h : Receiving s.service input got) (hoffset : (got sec).length = offset)
    (hparts : got sec ++ cs.flatten = input.part sec)
    (hphase : s.service.session.phase =
      if cs = [] then input.phaseFrom sec.later else sec.phase) :
    ∃ events s', runCalls (SignState.step M) s msgs = some (events, s') ∧
      s'.drbg = s.drbg ∧
      Receiving s'.service input
        (Function.update got sec (input.part sec)) ∧
      s'.service.session.phase = input.phaseFrom sec.later := by
  induction hmsgs generalizing s got with
  | nil offset =>
    refine ⟨[], s, rfl, rfl, ?_, by simpa using hphase⟩
    have hsame : input.part sec = got sec := by simpa using hparts.symm
    rw [hsame, Function.update_eq_self]
    exact h
  | @cons offset c cs msg msgs hmsg _ ih =>
    have hrest : (got sec ++ c) ++ cs.flatten = input.part sec := by
      rw [List.append_assoc, ← List.flatten_cons]
      exact hparts
    have hlength := congrArg List.length hrest
    rw [List.length_append] at hlength
    have hcarries : msg.Carries (got sec).length c := by
      rw [hoffset]
      exact hmsg
    have hcollects : s.service.session.phase = sec.phase := by
      simpa using hphase
    obtain ⟨event, s₁, hstep, hdrbg, hreceiving, hphase₁⟩ :=
      h.chunk (M := M) hcollects hcarries (hle c List.mem_cons_self)
        (by omega)
    have hlast : (input.part sec).length ≤ (got sec ++ c).length ↔
        cs = [] := by
      constructor
      · intro hdone
        have hnone : cs.flatten.length = 0 := by omega
        cases cs with
        | nil => rfl
        | cons c' cs =>
          have hc' := hpos c' (by simp)
          rw [List.flatten_cons, List.length_append] at hnone
          omega
      · rintro rfl
        rw [List.flatten_nil, List.length_nil] at hlength
        omega
    simp only [hlast] at hphase₁
    have hgot : Function.update got sec (got sec ++ c) sec = got sec ++ c :=
      Function.update_self _ _ _
    obtain ⟨events, s₂, hruns, hdrbg₂, hreceiving₂, hphase₂⟩ :=
      ih (fun c' hc' => hpos c' (List.mem_cons_of_mem c hc'))
        (fun c' hc' => hle c' (List.mem_cons_of_mem c hc'))
        hreceiving
        (by rw [hgot, List.length_append, hoffset])
        (by rw [hgot]; exact hrest) hphase₁
    refine ⟨event :: events, s₂, runCalls_cons hstep hruns,
      hdrbg₂.trans hdrbg, ?_, hphase₂⟩
    rwa [Function.update_idem] at hreceiving₂

theorem upload (split : input.Split) {msgs : List IpcMessage}
    (hmsgs : InOrder 0 (split.chunks sec) msgs)
    (h : Receiving s.service input got) (hempty : got sec = [])
    (hphase : s.service.session.phase = input.phaseFrom (sec :: sec.later)) :
    ∃ events s', runCalls (SignState.step M) s msgs = some (events, s') ∧
      s'.drbg = s.drbg ∧
      Receiving s'.service input
        (Function.update got sec (input.part sec)) ∧
      s'.service.session.phase = input.phaseFrom sec.later := by
  have hnothing : input.part sec = [] ↔ split.chunks sec = [] := by
    rw [← split.flatten_eq sec]
    constructor
    · intro hflat
      rw [List.eq_nil_iff_forall_not_mem]
      intro c hc
      have hpos := split.length_pos sec c hc
      rw [List.flatten_eq_nil_iff.mp hflat c hc] at hpos
      contradiction
    · intro hnil
      rw [hnil, List.flatten_nil]
  apply h.fill hmsgs (split.length_pos sec) (split.length_le sec)
  · rw [hempty, List.length_nil]
  · rw [hempty, List.nil_append]
    exact split.flatten_eq sec
  · rw [hphase, SignInput.phaseFrom]
    simp only [hnothing]

end Receiving

variable {M : Mldsa44} {s : SignState} {input : SignInput} {S : SignService}
  {out : List Byte}

theorem handleBegin_of_begins {req : SignPayload}
    (hidle : S.session.phase = .idle)
    (hop : SignOp.ofByte req.op = some input.op) (hvariant : req.variant = 1)
    (hlen : 12 ≤ req.chunkLen.toNat)
    (hkey : ofLe (req.data.slice 0 4) = (input.part .key).length)
    (haux : ofLe (req.data.slice 4 4) = (input.part .aux).length)
    (hmsg : ofLe (req.data.slice 8 4) = (input.part .msg).length) :
    S.handleBegin req =
      (.ok (),
        { SignService.reset with
          session := .begin input.op (input.part .key).length
            (input.part .aux).length (input.part .msg).length }) := by
  have hsizes := input.not_oversized
  rw [SignService.handleBegin, if_neg (not_not.mpr hidle), hop]
  dsimp only
  rw [if_neg (not_not.mpr hvariant), if_neg (Nat.not_lt.mpr hlen), hkey, haux,
    hmsg, hsizes]
  rfl

theorem receiving_begin {begin : IpcMessage} (hbegin : begin.Begins input)
    (hidle : s.service.session.phase = .idle) :
    ∃ event s', s.step M begin = some (event, s') ∧ s'.drbg = s.drbg ∧
      Receiving s'.service input (fun _ => []) ∧
      s'.service.session.phase = input.phaseFrom [.key, .aux, .msg] := by
  obtain ⟨req, hreq, hop, hvariant, hlen, hkey, haux, hmsg⟩ := hbegin
  obtain ⟨a, hanswer⟩ : ∃ a, s.service.answer M s.drbg .signBeginReq req =
      some (a,
        { SignService.reset with
          session := .begin input.op (input.part .key).length
            (input.part .aux).length (input.part .msg).length }, s.drbg) := by
    rw [SignService.answer,
      handleBegin_of_begins hidle hop hvariant hlen hkey haux hmsg]
    exact ⟨_, rfl⟩
  refine ⟨_, _, SignState.step_of_answer hreq hanswer, rfl, ⟨rfl, ?_, ?_⟩, ?_⟩
  · intro sec
    cases sec <;> rfl
  · intro sec
    rfl
  · simp only [SignSession.begin, SignInput.phaseFrom, List.length_pos_iff,
      ne_eq, ite_not]
    rfl

/-! ## Exec -/

/-- Once all operands are there, `Exec` calls the crate on them. -/
theorem Receiving.execCall_eq (h : Receiving S input input.part)
    (hready : S.session.phase = .ready) (rnd : Buf 32) :
    S.execCall rnd = .ok (input.call rnd) := by
  have hop := h.op
  have hkeyTotal : S.session.keyTotal = (input.part .key).length := h.total .key
  have hauxTotal : S.session.auxTotal = (input.part .aux).length := h.total .aux
  have hmsgTotal : S.session.msgTotal = (input.part .msg).length := h.total .msg
  have hkey : S.keyBuf.slice 0 (input.part .key).length = input.part .key :=
    h.contents .key
  have haux : S.auxBuf.slice 0 (input.part .aux).length = input.part .aux :=
    h.contents .aux
  have hmsg : S.msgBuf.slice 0 (input.part .msg).length = input.part .msg :=
    h.contents .msg
  unfold SignService.execCall
  rw [if_neg (not_not.mpr hready), hop]
  cases input with
  | keygen seed =>
    simp only [SignInput.part, Buf.length_toList] at hkeyTotal hkey
    dsimp only [SignInput.op]
    rw [if_pos hkeyTotal, hkey, Buf.ofList_toList]
    rfl
  | sign sk msg =>
    simp only [SignInput.part, Buf.length_toList] at hkeyTotal hkey
    have hsk : S.keyBuf = sk := Buf.toList_injective hkey
    dsimp only [SignInput.op]
    rw [if_neg (not_not.mpr hkeyTotal), hsk, hmsgTotal, hmsg]
    rfl
  | verify pk sig msg =>
    simp only [SignInput.part, Buf.length_toList]
      at hkeyTotal hkey hauxTotal haux
    have hsig : S.auxBuf = sig := Buf.toList_injective haux
    have hsizes : ¬ (S.session.keyTotal ≠ Sign.pkLen ∨
        S.session.auxTotal ≠ Sign.sigLen) := by
      rw [not_or, not_not, not_not]
      exact ⟨hkeyTotal, hauxTotal⟩
    dsimp only [SignInput.op]
    rw [if_neg hsizes, hkey, Buf.ofList_toList, hsig, hmsgTotal, hmsg]
    rfl

theorem step_exec (h : Receiving s.service input input.part)
    (hready : s.service.session.phase = .ready) {exec : IpcMessage}
    (hexec : exec.Executes) {rnd : Buf 32} {drbg' : CapDrbg}
    (hrand : randBytes 32 s.drbg = some (.ok rnd, drbg')) :
    ∃ event s', s.step M exec = some (event, s') ∧
      event.ran = some (input.call rnd) ∧
      ∀ out, (input.call rnd).output M = .ok out →
        ∃ ok, s'.service = (s.service.withVerifyOk ok).completed out := by
  obtain ⟨req, hreq⟩ := hexec
  have hcall := h.execCall_eq hready rnd
  have hruns : s.runs .signExecReq = some (input.call rnd) := by
    simp [SignState.runs, hrand, hcall, Except.toOption]
  obtain ⟨ok, ⟨e, heq, hnever⟩ | ⟨call, out, hcall', hout, heq⟩⟩ :=
    s.service.handleExec_outcome M rnd
  · obtain ⟨a, hanswer⟩ : ∃ a, s.service.answer M s.drbg .signExecReq req =
        some (a, s.service.withVerifyOk ok, drbg') := by
      simp only [SignService.answer, hrand, heq]
      exact ⟨_, rfl⟩
    refine ⟨_, _, SignState.step_of_answer hreq hanswer, hruns, ?_⟩
    intro out hout
    exact (hnever _ out hcall hout).elim
  · obtain ⟨a, hanswer⟩ : ∃ a, s.service.answer M s.drbg .signExecReq req =
        some (a, (s.service.withVerifyOk ok).completed out, drbg') := by
      simp only [SignService.answer, hrand, heq]
      exact ⟨_, rfl⟩
    refine ⟨_, _, SignState.step_of_answer hreq hanswer, hruns, ?_⟩
    intro out' hout'
    obtain rfl : call = input.call rnd :=
      Except.ok.inj (hcall'.symm.trans hcall)
    obtain rfl : out = out' := Except.ok.inj (hout.symm.trans hout')
    exact ⟨ok, rfl⟩

/-! ## OutChunk -/

/-- The service offers the output `out`. -/
structure Offering (S : SignService) (out : List Byte) : Prop where
  phase : S.session.phase = .outputReady
  outTotal : S.session.outTotal = out.length
  outBuf : S.outBuf.slice 0 out.length = out

theorem offering_completed (S : SignService)
    (hlen : out.length ≤ Sign.outBufLen) : Offering (S.completed out) out := by
  refine ⟨rfl, rfl, ?_⟩
  have hfits : 0 + out.length ≤ Sign.outBufLen := by omega
  exact Buf.slice_blit_of_length S.outBuf hfits rfl

theorem Offering.handleOutChunk_eq (h : Offering S out) (req : SignPayload) :
    S.handleOutChunk req =
      .ok ((out.drop req.offset.toNat).take Sign.chunkSize) := by
  unfold SignService.handleOutChunk
  rw [if_neg (not_not.mpr h.phase), h.outTotal]
  by_cases hend : out.length ≤ req.offset.toNat
  · rw [if_pos hend, List.drop_eq_nil_of_le hend, List.take_nil]
  · have hrest : out.drop req.offset.toNat =
        S.outBuf.slice req.offset.toNat (out.length - req.offset.toNat) := by
      conv_lhs => rw [← h.outBuf]
      rw [Buf.drop_slice _ (by omega), Nat.zero_add]
    rw [if_neg hend, hrest, Nat.min_comm]
    by_cases hlast : out.length - req.offset.toNat ≤ Sign.chunkSize
    · rw [Nat.min_eq_right hlast, List.take_of_length_le]
      rw [Buf.length_slice]
      exact hlast
    · have hmore : Sign.chunkSize ≤ out.length - req.offset.toNat := by omega
      rw [Nat.min_eq_left hmore, Buf.take_slice _ hmore]

theorem Offering.step_read (h : Offering s.service out) {msg : IpcMessage}
    {offset : ℕ} (hmsg : msg.Reads offset) :
    ∃ event, s.step M msg = some (event, s) ∧
      event.reply.data = (out.drop offset).take Sign.chunkSize := by
  obtain ⟨req, hreq, rfl⟩ := hmsg
  have hanswer : s.service.answer M s.drbg .signOutChunkReq req =
      some (⟨.signOutChunkResp, 0, req.offset,
        BitVec.ofNat 32 s.service.session.outTotal,
        (out.drop req.offset.toNat).take Sign.chunkSize⟩, s.service,
        s.drbg) := by
    rw [SignService.answer, h.handleOutChunk_eq]
  refine ⟨_, SignState.step_of_answer hreq hanswer, ?_⟩
  exact SignReply.data_writeSignReply _ _ _ _ _ (List.length_take_le _ _)

/-- The data read at successive offsets make up the output. -/
theorem Offering.download (h : Offering s.service out) {n : ℕ}
    {reads : ℕ → IpcMessage} (hlen : out.length ≤ Sign.chunkSize * n)
    (hreads : ∀ i, i < n → (reads i).Reads (Sign.chunkSize * i)) :
    ∃ replies s',
      runCalls (SignState.step M) s ((List.range n).map reads) =
        some (replies, s') ∧
      (replies.flatMap fun e => e.reply.data) = out := by
  have hsome : Nonempty SignEvent := ⟨⟨⟨.error, []⟩, none⟩⟩
  have hread := fun i (hi : i < n) => h.step_read (M := M) (hreads i hi)
  choose! answer hanswer hdata using hread
  refine ⟨(List.range n).map answer, s, ?_, ?_⟩
  · apply runCalls_map_of_state_eq
    intro i hi
    exact hanswer i (List.mem_range.mp hi)
  · calc
      ((List.range n).map answer).flatMap (fun e => e.reply.data) =
          (List.range n).flatMap fun i =>
            (out.drop (Sign.chunkSize * i)).take Sign.chunkSize := by
        rw [List.flatMap_map]
        apply List.flatMap_congr
        intro i hi
        exact hdata i (List.mem_range.mp hi)
      _ = out.take (Sign.chunkSize * n) := flatMap_take_drop _ _ _
      _ = out := List.take_of_length_le hlen

/-! ## The round trip -/

/-- From an idle service, for all operands and every split of them into chunks:
`Begin` and the `InChunk` requests are accepted, and an `Exec` behind them
calls the crate, if at all, on exactly the operands.  It does so whenever the
DRBG delivers, and if the operation delivers an output, the data of `OutChunk`
replies at the offsets 0, 240, 480, ... make up the output as soon as they
reach its end. -/
theorem chunked_round_trip (M : Mldsa44) {s : SignState}
    (hidle : s.service.session.phase = .idle) {input : SignInput}
    (split : input.Split) {begin exec : IpcMessage}
    {keyMsgs auxMsgs msgMsgs : List IpcMessage}
    (hbegin : begin.Begins input)
    (hkey : InOrder 0 (split.chunks .key) keyMsgs)
    (haux : InOrder 0 (split.chunks .aux) auxMsgs)
    (hmsg : InOrder 0 (split.chunks .msg) msgMsgs)
    (hexec : exec.Executes) :
    ∃ events s₁,
      runCalls (SignState.step M) s
        ((begin :: keyMsgs) ++ auxMsgs ++ msgMsgs) = some (events, s₁) ∧
      (∀ event s₂ call, s₁.step M exec = some (event, s₂) →
        event.ran = some call → ∃ rnd, call = input.call rnd) ∧
      ∀ rnd drbg', randBytes 32 s.drbg = some (.ok rnd, drbg') →
        ∃ event s₂, s₁.step M exec = some (event, s₂) ∧
          event.ran = some (input.call rnd) ∧
          ∀ out, (input.call rnd).output M = .ok out →
            ∀ (n : ℕ) (reads : ℕ → IpcMessage),
              out.length ≤ Sign.chunkSize * n →
              (∀ i, i < n → (reads i).Reads (Sign.chunkSize * i)) →
              ∃ replies s₃,
                runCalls (SignState.step M) s₂ ((List.range n).map reads) =
                  some (replies, s₃) ∧
                (replies.flatMap fun e => e.reply.data) = out := by
  obtain ⟨event₀, t₀, hstep₀, hdrbg₀, hrecv₀, hphase₀⟩ :=
    receiving_begin (M := M) hbegin hidle
  obtain ⟨events₁, t₁, hrun₁, hdrbg₁, hrecv₁, hphase₁⟩ :=
    hrecv₀.upload (M := M) split hkey rfl hphase₀
  obtain ⟨events₂, t₂, hrun₂, hdrbg₂, hrecv₂, hphase₂⟩ :=
    hrecv₁.upload (M := M) split haux rfl hphase₁
  obtain ⟨events₃, t₃, hrun₃, hdrbg₃, hrecv₃, hphase₃⟩ :=
    hrecv₂.upload (M := M) split hmsg rfl hphase₂
  have hall : Receiving t₃.service input input.part := by
    refine ⟨hrecv₃.op, hrecv₃.total, ?_⟩
    intro sec
    cases sec with
    | key => exact hrecv₃.contents .key
    | aux => exact hrecv₃.contents .aux
    | msg => exact hrecv₃.contents .msg
  refine ⟨_, t₃, runCalls_append
    (runCalls_append (runCalls_cons hstep₀ hrun₁) hrun₂) hrun₃, ?_, ?_⟩
  · intro event s₂ call hstep hran
    obtain ⟨reply, ran⟩ := event
    obtain rfl : ran = some call := hran
    obtain ⟨rnd, hcall⟩ := SignState.execCall_of_ran hstep
    exact ⟨rnd, Except.ok.inj (hcall.symm.trans (hall.execCall_eq hphase₃ rnd))⟩
  · intro rnd drbg' hrand
    have hrand₃ : randBytes 32 t₃.drbg = some (.ok rnd, drbg') := by
      rw [hdrbg₃, hdrbg₂, hdrbg₁, hdrbg₀]
      exact hrand
    obtain ⟨event, s₂, hstep, hran, hdelivers⟩ :=
      step_exec (M := M) hall hphase₃ hexec hrand₃
    refine ⟨event, s₂, hstep, hran, ?_⟩
    intro out hout n reads hlen hreads
    obtain ⟨ok, hservice⟩ := hdelivers out hout
    have hoffer : Offering s₂.service out := by
      rw [hservice]
      exact offering_completed _ (MldsaCall.length_output_le hout)
    exact hoffer.download hlen hreads

def sampleSeed : Buf 32 := Buf.ofList 32 (List.replicate 32 7)

def sampleChunks : SignSection → List (List Byte)
  | .key => [List.replicate 16 7, List.replicate 16 7]
  | _ => []

def sampleSplit : (SignInput.keygen sampleSeed).Split where
  chunks := sampleChunks
  flatten_eq sec := by
    cases sec <;> decide
  length_pos sec := by
    cases sec <;> decide
  length_le sec := by
    cases sec <;> decide

def halfSeedChunk (offset : Byte) : IpcMessage :=
  signRequest .signInChunkReq
    ([2, 1, 1, 0, offset, 0, 0, 0, 0, 0, 0, 0, 16, 0, 0, 0] ++
      List.replicate 16 7)

def outChunkAt (offset : ℕ) : IpcMessage :=
  signRequest .signOutChunkReq ([4, 1, 1, 0] ++ toLe 4 offset)

/-- A seed in two chunks, and the 3872 octets of the keys in 17. -/
theorem chunked_round_trip_keygen :
    ∃ events s₁ event s₂ out replies s₃,
      runCalls (SignState.step .zeroKeys) (.boot oneDrawDrbg)
        [beginKeygen, halfSeedChunk 0, halfSeedChunk 16] =
          some (events, s₁) ∧
      s₁.step .zeroKeys execKeygen = some (event, s₂) ∧
      event.ran = some (.keygenFrom sampleSeed) ∧
      (MldsaCall.keygenFrom sampleSeed).output .zeroKeys = .ok out ∧
      out.length = 3872 ∧
      runCalls (SignState.step .zeroKeys) s₂
          ((List.range 17).map fun i => outChunkAt (Sign.chunkSize * i)) =
        some (replies, s₃) ∧
      (replies.flatMap fun e => e.reply.data) = out := by
  have hbegin : beginKeygen.Begins (.keygen sampleSeed) :=
    ⟨_, ⟨rfl, rfl⟩, rfl, rfl, by decide, by decide, by decide, by decide⟩
  have hfirst : (halfSeedChunk 0).Carries 0 (List.replicate 16 7) :=
    ⟨_, ⟨rfl, rfl⟩, rfl⟩
  have hsecond : (halfSeedChunk 16).Carries 16 (List.replicate 16 7) :=
    ⟨_, ⟨rfl, rfl⟩, rfl⟩
  have hexec : execKeygen.Executes := ⟨_, rfl, rfl⟩
  obtain ⟨events, s₁, hrun, -, hcalls⟩ :=
    chunked_round_trip .zeroKeys (s := .boot oneDrawDrbg) rfl sampleSplit
      hbegin (.cons hfirst (.cons hsecond (.nil _))) (.nil _) (.nil _) hexec
  obtain ⟨event, s₂, hstep, hran, hdownload⟩ := hcalls _ _ rfl
  have hlen : ((Buf.zero : Buf Sign.pkLen).toList ++
      (Buf.zero : Buf Sign.skLen).toList).length = 3872 := by
    rw [List.length_append, Buf.length_toList, Buf.length_toList]
    rfl
  have hoffsets : ∀ i < 17,
      (SignPayload.ofBytes (outChunkAt (Sign.chunkSize * i)).payload).offset.toNat =
        Sign.chunkSize * i := by
    decide
  obtain ⟨replies, s₃, hreplies, hdata⟩ := hdownload _ rfl 17
    (fun i => outChunkAt (Sign.chunkSize * i)) (hlen.le.trans (by decide))
    fun i hi => ⟨_, ⟨rfl, rfl⟩, hoffsets i hi⟩
  exact ⟨events, s₁, event, s₂, _, replies, s₃, hrun, hstep, hran, rfl, hlen,
    hreplies, hdata⟩

end IsoLightK0
