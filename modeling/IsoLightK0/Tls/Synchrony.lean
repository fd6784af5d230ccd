import IsoLightK0.Tls.Agreement
import IsoLightK0.Tls.Stream

/-!
# The counters of a loopback pair

`loopback_send_recv` encrypts with the write keys of one end and decrypts with
the read keys of the other.  Encrypting has already counted the record when the
receiver finds that the content does not fit the caller's buffer.  From then on
the two counters of this direction differ, and no record is accepted.
-/

namespace IsoLightK0

open Bytes Triples Runs TlsProg

/-- Every suite encrypts every input, and decrypts what it has encrypted. -/
def AeadCrates.Correct (A : AeadCrates) : Prop :=
  ∀ suite key nonce aad inner, ∃ ct tag opened,
    aeadEncrypt A suite key nonce aad inner = .ok (ct, tag) ∧
      aeadDecrypt A suite key nonce aad ct.toList tag = .ok opened ∧
      opened.toList = inner

theorem length_recordHeader (plaintext : List Byte) :
    (recordHeader plaintext).length = recordHeaderLen := by
  rw [recordHeader, List.length_append, List.length_reverse, length_toLe]
  rfl

/-- The checks on a record pass if its header announces what follows it. -/
theorem decryptRecord_eq {A : AeadCrates} {keys : DirectionalKeys}
    {suite : CipherSuite} {plaintext ct : List Byte} {tag : Buf 16}
    {outLen : ℕ} (hlen : ¬ maxPlaintextLen < plaintext.length)
    (hct : ct.length = plaintext.length + 1) :
    decryptRecord A keys suite (recordHeader plaintext ++ (ct ++ tag.toList))
        outLen =
      (openInner A suite (recordHeader plaintext) ct tag plaintext.length
        outLen).result keys := by
  have hheader := length_recordHeader plaintext
  have htag : tag.toList.length = aeadTagLen := Buf.length_toList tag
  have hlength : (recordHeader plaintext ++ (ct ++ tag.toList)).length =
      recordHeaderLen + (plaintext.length + 1 + aeadTagLen) := by
    rw [List.length_append, List.length_append, hheader, hct, htag]
  have hdrop : ∀ rest, (recordHeader plaintext ++ rest).drop recordHeaderLen =
      rest := by
    intro rest
    rw [← hheader, List.drop_left]
  have hannounced : ofLe (((recordHeader plaintext ++
      (ct ++ tag.toList)).drop 3).take 2).reverse =
        plaintext.length + 1 + aeadTagLen := by
    show ofLe (((toLe 2 (plaintext.length + 1 + aeadTagLen)).reverse ++
      (ct ++ tag.toList)).take 2).reverse = _
    rw [List.take_left' (by rw [List.length_reverse, length_toLe]),
      List.reverse_reverse]
    apply ofLe_toLe_of_lt
    unfold maxPlaintextLen at hlen
    unfold aeadTagLen
    omega
  have hctLen : plaintext.length + 1 + aeadTagLen - aeadTagLen = ct.length := by
    omega
  unfold decryptRecord decryptInPlace Prog.result
  dsimp only
  rw [hannounced, hlength, hctLen]
  simp only [Prog.eval_exitIf_bind]
  rw [if_neg (by omega), if_neg (by simp [recordHeader]),
    if_neg (by simp [recordHeader]), if_neg (by simp), if_neg (by omega),
    if_neg (by omega)]
  have haad : (recordHeader plaintext ++ (ct ++ tag.toList)).take
      recordHeaderLen = recordHeader plaintext := by
    rw [← hheader, List.take_left]
  rw [haad, ← List.drop_drop, hdrop, List.take_left, List.drop_left,
    Buf.ofList_toList, hct, Nat.add_sub_cancel]

theorem encryptRecord_error (A : AeadCrates) {keys : DirectionalKeys}
    (suite : CipherSuite) {plaintext : List Byte} (outLen : ℕ)
    (h : maxPlaintextLen < plaintext.length ∨ keys.seq = seqMax) :
    ∃ e, encryptRecord A keys suite plaintext outLen = .error e := by
  unfold encryptRecord encryptInPlace Prog.result
  simp only [Prog.eval_exitIf_bind, Prog.eval_get_bind]
  by_cases hlen : maxPlaintextLen < plaintext.length
  · rw [if_pos hlen]
    exact ⟨_, rfl⟩
  · rw [if_neg hlen, if_pos (h.resolve_left hlen)]
    exact ⟨_, rfl⟩

/-- Between ends with the same keys, a record that the sender can encrypt
is counted by the sender, and by the receiver if the content fits its buffer. -/
theorem decryptRecord_encryptRecord {A : AeadCrates} (hA : A.Correct)
    {keys : DirectionalKeys} (suite : CipherSuite) {plaintext : List Byte}
    (hlen : ¬ maxPlaintextLen < plaintext.length) (hseq : keys.seq ≠ seqMax) :
    ∃ record, encryptRecord A keys suite plaintext 256 =
        .ok (record, { keys with seq := keys.seq + 1 }) ∧
      ∀ outLen, decryptRecord A keys suite record outLen =
        if outLen < plaintext.length then .error .bufferTooSmall
        else .ok (plaintext, { keys with seq := keys.seq + 1 }) := by
  obtain ⟨ct, tag, opened, hseal, hopen, hinner⟩ := hA suite keys.key
    (buildNonce keys.iv keys.seq) (recordHeader plaintext)
    (plaintext ++ [ctApplicationData])
  have hct : ct.toList.length = plaintext.length + 1 := by
    rw [Buf.length_toList, List.length_append, List.length_singleton]
  refine ⟨recordHeader plaintext ++ (ct.toList ++ tag.toList), ?_, ?_⟩
  · have hroom : ¬ 256 < recordHeaderLen +
        (plaintext.length + 1 + aeadTagLen) := by
      unfold maxPlaintextLen at hlen
      unfold recordHeaderLen aeadTagLen
      omega
    unfold encryptRecord encryptInPlace Prog.result
    simp only [Prog.eval_exitIf_bind, Prog.eval_get_bind]
    rw [if_neg hlen, if_neg hseq, if_neg hroom, buildAad_eq hlen]
    dsimp only
    rw [Prog.eval_bind, sealInner, Prog.eval_get_bind]
    dsimp only
    rw [hseal]
    rfl
  · intro outLen
    rw [decryptRecord_eq hlen hct]
    have hslices := toList_eq_slices opened hct
    rw [hinner] at hslices
    obtain ⟨hcontent, htype⟩ := List.append_inj hslices
      (Buf.length_slice opened 0 plaintext.length).symm
    have htype' : ¬ opened.toMem plaintext.length ≠ ctApplicationData := by
      injection htype with htype
      exact not_not.mpr htype.symm
    unfold openInner Prog.result
    rw [Prog.eval_get_bind, Prog.eval_exitIf_bind, if_neg hseq]
    dsimp only
    rw [hopen]
    dsimp only
    rw [Prog.eval_exitIf_bind, if_neg htype', Prog.eval_exitIf_bind]
    by_cases hout : outLen < plaintext.length
    · rw [if_pos hout, if_pos hout]
    · rw [if_neg hout, if_neg hout, ← hcontent]
      rfl

/-! ## One call -/

def TlsState.withConn (s : TlsState) (i : ConnIdx) (c : TlsConnection) :
    TlsState :=
  { s with pool := Function.update s.pool i (some c) }

theorem TlsState.withConn_self (s : TlsState) (i : ConnIdx)
    (c : TlsConnection) : (s.withConn i c).pool i = some c :=
  Function.update_self ..

variable {i j : ConnIdx} {s : TlsState} {c d : TlsConnection}

theorem TlsState.withConn_of_ne (s : TlsState) (hne : j ≠ i)
    (c : TlsConnection) : (s.withConn i c).pool j = s.pool j :=
  Function.update_of_ne hne ..

theorem eval_loopbackSendRecv {T : TlsCrates} (hne : i ≠ j)
    (hc : s.pool i = some c) (hd : s.pool j = some d)
    (hcstate : c.state = .connected) (hdstate : d.state = .connected)
    (plaintext : List Byte) (outLen : ℕ) :
    (loopbackSendRecv T (ConnIdx.handle i) (ConnIdx.handle j) plaintext
        outLen).eval s =
      match encryptRecord T.aead c.appWrite c.suite plaintext 256 with
      | .error e => (.error (.error e), s)
      | .ok (record, write) =>
        let counted := s.withConn i { c with appWrite := write }
        match decryptRecord T.aead d.appRead c.suite record outLen with
        | .error e => (.error (.error e), counted)
        | .ok (content, read) =>
          (.ok content, counted.withConn j { d with appRead := read }) := by
  unfold loopbackSendRecv withConnected
  rw [Prog.eval_bind, eval_slot hc]
  dsimp only
  rw [Prog.eval_bind, eval_withSlot hc, if_neg (not_not.mpr hcstate)]
  cases encryptRecord T.aead c.appWrite c.suite plaintext 256 with
  | error e => rfl
  | ok sealed =>
    obtain ⟨record, write⟩ := sealed
    have hd' : (s.withConn i { c with appWrite := write }).pool j =
        some d := by
      rw [s.withConn_of_ne hne.symm, hd]
    show (withSlot (ConnIdx.handle j) _).eval
      (s.withConn i { c with appWrite := write }) = _
    rw [eval_withSlot hd', if_neg (not_not.mpr hdstate)]
    dsimp only
    cases decryptRecord T.aead d.appRead c.suite record outLen with
    | error e => rfl
    | ok opened => rfl

/-- Two connected ends, each with the other's keys and counters. -/
structure Linked (c d : TlsConnection) : Prop where
  left : c.state = .connected
  right : d.state = .connected
  forth : c.appWrite = d.appRead
  back : d.appWrite = c.appRead

theorem Linked.symm (h : Linked c d) : Linked d c :=
  ⟨h.right, h.left, h.back, h.forth⟩

def DirectionalKeys.next (keys : DirectionalKeys) : DirectionalKeys :=
  { keys with seq := keys.seq + 1 }

theorem DirectionalKeys.next_seq_ne (keys : DirectionalKeys) :
    keys.next.seq ≠ keys.seq := by
  show keys.seq + 1 ≠ keys.seq
  bv_omega

theorem loopbackSendRecv_cases {T : TlsCrates} (hA : T.aead.Correct)
    (hne : i ≠ j) (hc : s.pool i = some c) (hd : s.pool j = some d)
    (hlink : Linked c d) (plaintext : List Byte) (outLen : ℕ) :
    let outcome := (loopbackSendRecv T (ConnIdx.handle i) (ConnIdx.handle j)
      plaintext outLen).eval s
    let counted := s.withConn i { c with appWrite := c.appWrite.next }
    ((maxPlaintextLen < plaintext.length ∨ c.appWrite.seq = seqMax) ∧
      outcome.2 = s) ∨
    (¬ maxPlaintextLen < plaintext.length ∧ c.appWrite.seq ≠ seqMax ∧
      outLen < plaintext.length ∧ outcome.2 = counted) ∨
    (¬ maxPlaintextLen < plaintext.length ∧ c.appWrite.seq ≠ seqMax ∧
      plaintext.length ≤ outLen ∧ outcome =
        (.ok plaintext,
          counted.withConn j { d with appRead := c.appWrite.next })) := by
  intro outcome counted
  have heval := eval_loopbackSendRecv (T := T) hne hc hd hlink.left hlink.right
    plaintext outLen
  by_cases hrefused : maxPlaintextLen < plaintext.length ∨
      c.appWrite.seq = seqMax
  · refine .inl ⟨hrefused, ?_⟩
    show Prod.snd (Prog.eval _ s) = s
    obtain ⟨e, hseal⟩ := encryptRecord_error T.aead c.suite 256 hrefused
    rw [heval, hseal]
  obtain ⟨hlen, hseq⟩ := not_or.mp hrefused
  obtain ⟨record, hseal, hopen⟩ :=
    decryptRecord_encryptRecord hA c.suite hlen hseq
  have heval' : outcome =
      match (if outLen < plaintext.length then .error .bufferTooSmall
        else .ok (plaintext, c.appWrite.next) :
          Except TlsError (List Byte × DirectionalKeys)) with
      | .error e => (.error (.error e), counted)
      | .ok (content, read) =>
        (.ok content, counted.withConn j { d with appRead := read }) := by
    show Prog.eval _ s = _
    rw [heval, hseal, ← hlink.forth]
    dsimp only
    rw [hopen outLen]
    rfl
  by_cases hout : outLen < plaintext.length
  · rw [if_pos hout] at heval'
    exact .inr (.inl ⟨hlen, hseq, hout, congrArg Prod.snd heval'⟩)
  · rw [if_neg hout] at heval'
    exact .inr (.inr ⟨hlen, hseq, Nat.le_of_not_lt hout, heval'⟩)

/-! ## Calls between the two ends -/

/-- A call of `loopback_send_recv` from one end of a pair to the other. -/
structure PairCall where
  fromClient : Bool
  plaintext : List Byte
  outLen : ℕ

namespace PairCall

variable (pair : ConnHandle × ConnHandle) (call : PairCall)

def sender : ConnHandle := if call.fromClient then pair.1 else pair.2

def receiver : ConnHandle := if call.fromClient then pair.2 else pair.1

end PairCall

def pairCall (T : TlsCrates) (pair : ConnHandle × ConnHandle) (s : TlsState)
    (call : PairCall) : Except TlsStop (List Byte) × TlsState :=
  (loopbackSendRecv T (call.sender pair) (call.receiver pair) call.plaintext
    call.outLen).eval s

namespace TlsState

def conn? (s : TlsState) (h : ConnHandle) : Option TlsConnection :=
  (connIdx? h).bind s.pool

def writeSeq (s : TlsState) (h : ConnHandle) : Option (BitVec 64) :=
  (s.conn? h).map fun c => c.appWrite.seq

def readSeq (s : TlsState) (h : ConnHandle) : Option (BitVec 64) :=
  (s.conn? h).map fun c => c.appRead.seq

theorem conn?_handle (s : TlsState) (i : ConnIdx) :
    s.conn? (ConnIdx.handle i) = s.pool i := by
  rw [conn?, connIdx?_handle]
  rfl

theorem writeSeq_handle {s : TlsState} {i : ConnIdx} {c : TlsConnection}
    (hc : s.pool i = some c) :
    s.writeSeq (ConnIdx.handle i) = some c.appWrite.seq := by
  rw [writeSeq, conn?_handle, hc]
  rfl

theorem readSeq_handle {s : TlsState} {i : ConnIdx} {c : TlsConnection}
    (hc : s.pool i = some c) :
    s.readSeq (ConnIdx.handle i) = some c.appRead.seq := by
  rw [readSeq, conn?_handle, hc]
  rfl

end TlsState

/-- In each direction the sender's counter is the receiver's. -/
def InStep (pair : ConnHandle × ConnHandle) (s : TlsState) : Prop :=
  s.writeSeq pair.1 = s.readSeq pair.2 ∧ s.writeSeq pair.2 = s.readSeq pair.1

/-- The counters are in step, and a call that has a record to send and room
for its content succeeds. -/
structure Flows (T : TlsCrates) (pair : ConnHandle × ConnHandle)
    (s : TlsState) : Prop where
  inStep : InStep pair s
  carries : ∀ call : PairCall, call.plaintext.length ≤ maxPlaintextLen →
    call.plaintext.length ≤ call.outLen →
    s.writeSeq (call.sender pair) ≠ some seqMax →
      (pairCall T pair s call).1 = .ok call.plaintext

/-- There is no record to send, or room for its content. -/
def Fits (pair : ConnHandle × ConnHandle) (s : TlsState) (call : PairCall) :
    Prop :=
  maxPlaintextLen < call.plaintext.length ∨
    s.writeSeq (call.sender pair) = some seqMax ∨
      call.plaintext.length ≤ call.outLen

/-- Two slots hold linked ends. -/
def PairLinked (i j : ConnIdx) (s : TlsState) : Prop :=
  ∃ c d, s.pool i = some c ∧ s.pool j = some d ∧ Linked c d

theorem PairLinked.symm (h : PairLinked i j s) : PairLinked j i s := by
  obtain ⟨c, d, hc, hd, hlink⟩ := h
  exact ⟨d, c, hd, hc, hlink.symm⟩

theorem PairLinked.inStep (h : PairLinked i j s) :
    InStep (ConnIdx.handle i, ConnIdx.handle j) s := by
  obtain ⟨c, d, hc, hd, hlink⟩ := h
  constructor
  · rw [s.writeSeq_handle hc, s.readSeq_handle hd, hlink.forth]
  · rw [s.writeSeq_handle hd, s.readSeq_handle hc, hlink.back]

section Directed

variable {T : TlsCrates} {s : TlsState} {i j : ConnIdx}

theorem PairCall.exists_slots (hne : i ≠ j) (call : PairCall) :
    ∃ a b, a ≠ b ∧ call.sender (ConnIdx.handle i, ConnIdx.handle j) =
        ConnIdx.handle a ∧
      call.receiver (ConnIdx.handle i, ConnIdx.handle j) = ConnIdx.handle b ∧
      (∀ s, PairLinked i j s ↔ PairLinked a b s) ∧
      ∀ s, InStep (ConnIdx.handle i, ConnIdx.handle j) s →
        s.writeSeq (ConnIdx.handle a) = s.readSeq (ConnIdx.handle b) := by
  unfold PairCall.sender PairCall.receiver
  cases call.fromClient with
  | true => exact ⟨i, j, hne, rfl, rfl, fun _ => Iff.rfl, fun _ h => h.1⟩
  | false => exact ⟨j, i, hne.symm, rfl, rfl,
      fun _ => ⟨PairLinked.symm, PairLinked.symm⟩, fun _ h => h.2⟩

/-- What a call does to a linked pair: a call that fits keeps it linked, one
that does not fit leaves the counters of its direction apart. -/
theorem PairLinked.call (hA : T.aead.Correct) (hne : i ≠ j)
    (h : PairLinked i j s) (call : PairCall) :
    let pair := (ConnIdx.handle i, ConnIdx.handle j)
    (Fits pair s call → PairLinked i j (pairCall T pair s call).2) ∧
      (¬ Fits pair s call → ¬ InStep pair (pairCall T pair s call).2) ∧
      (call.plaintext.length ≤ maxPlaintextLen →
        call.plaintext.length ≤ call.outLen →
        s.writeSeq (call.sender pair) ≠ some seqMax →
          (pairCall T pair s call).1 = .ok call.plaintext) := by
  intro pair
  obtain ⟨a, b, hab, hsender, hreceiver, hlinked, hstep⟩ :=
    call.exists_slots hne
  obtain ⟨c, d, hc, hd, hlink⟩ := (hlinked s).mp h
  unfold Fits pairCall
  rw [hlinked, hsender, hreceiver, s.writeSeq_handle hc]
  rcases loopbackSendRecv_cases hA hab hc hd hlink call.plaintext call.outLen
    with ⟨hnone, hstate⟩ | ⟨hlen, hseq, hout, hstate⟩ |
      ⟨hlen, hseq, hout, heval⟩
  · refine ⟨fun _ => ?_, fun hfits => ?_, fun hlen _ hseq => ?_⟩
    · rw [hstate]
      exact ⟨c, d, hc, hd, hlink⟩
    · exact absurd (hnone.imp_right fun h => .inl (congrArg some h)) hfits
    · rcases hnone with hlarge | hmax
      · exact absurd hlen (Nat.not_le.mpr hlarge)
      · exact absurd (congrArg some hmax) hseq
  · refine ⟨fun hfits => ?_, fun _ hin => ?_, fun _ hroom _ => ?_⟩
    · rcases hfits with hlarge | hmax | hroom
      · exact absurd hlarge hlen
      · exact absurd (Option.some.inj hmax) hseq
      · exact absurd hout (Nat.not_lt.mpr hroom)
    · rw [hstate] at hin
      have hapart := hstep _ hin
      rw [TlsState.writeSeq_handle (s.withConn_self a _),
        TlsState.readSeq_handle ((s.withConn_of_ne hab.symm _).trans hd),
        ← hlink.forth] at hapart
      exact c.appWrite.next_seq_ne (Option.some.inj hapart)
    · exact absurd hout (Nat.not_lt.mpr hroom)
  · rw [heval]
    refine ⟨fun _ => ?_, fun hfits => ?_, fun _ _ _ => rfl⟩
    · refine ⟨{ c with appWrite := c.appWrite.next }, _, ?_,
        TlsState.withConn_self _ b _,
        ⟨hlink.left, hlink.right, rfl, hlink.back⟩⟩
      rw [TlsState.withConn_of_ne _ hab, TlsState.withConn_self]
    · exact absurd (.inr (.inr hout)) hfits

theorem PairLinked.flows (hA : T.aead.Correct) (hne : i ≠ j)
    (h : PairLinked i j s) :
    Flows T (ConnIdx.handle i, ConnIdx.handle j) s where
  inStep := h.inStep
  carries := fun call => (h.call hA hne call).2.2

end Directed

/-- After every call between the ends of a loopback pair the counters are in
step, and the next call can succeed, exactly if every call had no record to
send or room for its content. -/
theorem loopback_flows_iff {T : TlsCrates} (hA : T.aead.Correct)
    {hsm : HsmDriver} {profile : TlsProfile} {policy : KexPolicy}
    {suite : CipherSuite} {pskId : PskId} {s s' : TlsState}
    {pair : ConnHandle × ConnHandle}
    (h : (runLoopback T hsm profile policy suite pskId).eval s =
      (.ok pair, s')) (calls : List PairCall) :
    (∀ earlier, earlier <:+ calls →
      Flows T pair (replay (pairCall T pair) s' earlier).2) ↔
    ∀ call earlier, call :: earlier <:+ calls →
      Fits pair (replay (pairCall T pair) s' earlier).2 call := by
  obtain ⟨clientH, serverH⟩ := pair
  obtain ⟨i, j, v, t, hne, rfl, rfl, -, -, -, -, hpool⟩ :=
    runLoopback_ok (p := ⟨policy, suite, pskId⟩) h
  have hlinked : PairLinked i j s' := by
    refine ⟨_, _, (congrFun hpool i).trans (TlsPool.withPair_left hne),
      (congrFun hpool j).trans TlsPool.withPair_right, ?_⟩
    exact ⟨rfl, rfl, rfl, rfl⟩
  exact forall_replay_iff hlinked (fun s hs => hs.flows hA hne)
    (fun s call hs => (hs.call hA hne call).1)
    (fun s call hs hfits hflows =>
      (hs.call hA hne call).2.1 hfits hflows.inStep) calls

/-- An AEAD that does not hide its input, with the nonce as its tag. -/
def AeadCrates.nonceTagged : AeadCrates where
  gcmEncrypt _ nonce _ data :=
    (Buf.ofList data.length data, Buf.ofList 16 nonce.toList)
  gcmDecrypt _ nonce _ ct tag :=
    if tag = Buf.ofList 16 nonce.toList then some (Buf.ofList ct.length ct)
    else none
  chachaEncrypt _ nonce _ data :=
    some (Buf.ofList data.length data, Buf.ofList 16 nonce.toList)
  chachaDecrypt _ nonce _ ct tag :=
    if tag = Buf.ofList 16 nonce.toList then some (Buf.ofList ct.length ct)
    else none

theorem AeadCrates.nonceTagged_correct : nonceTagged.Correct := by
  intro suite key nonce aad inner
  have hct : (Buf.ofList inner.length inner).toList = inner :=
    Buf.toList_ofList rfl
  refine ⟨Buf.ofList inner.length inner, Buf.ofList 16 nonce.toList,
    Buf.ofList _ (Buf.ofList inner.length inner).toList, ?_, ?_, ?_⟩
  · cases suite with
    | aes256GcmSha256 => rfl
    | chaCha20Poly1305Sha256 => rfl
  · unfold aeadDecrypt nonceTagged
    dsimp only
    rw [if_pos rfl]
    cases suite with
    | aes256GcmSha256 => rfl
    | chaCha20Poly1305Sha256 => rfl
  · rw [Buf.toList_ofList rfl, hct]

def TlsCrates.nonceTagged : TlsCrates :=
  { TlsCrates.constant with aead := .nonceTagged }

def firstPair : ConnHandle × ConnHandle := (0, 1)

def firstPairState : TlsState :=
  ((runLoopback .nonceTagged .accepting .closed .classical .aes256GcmSha256
    Buf.zero).eval .fourDraws).2

theorem eval_runLoopback_firstPair :
    (runLoopback .nonceTagged .accepting .closed .classical .aes256GcmSha256
      Buf.zero).eval .fourDraws = (.ok firstPair, firstPairState) := by
  have hok : ((runLoopback .nonceTagged .accepting .closed .classical
      .aes256GcmSha256 Buf.zero).eval .fourDraws).1 = .ok firstPair := by
    decide +kernel
  rw [← hok, firstPairState]

theorem loopback_flows_iff_both_ways :
    TlsCrates.nonceTagged.aead.Correct ∧
      Flows .nonceTagged firstPair
        (replay (pairCall .nonceTagged firstPair) firstPairState
          [⟨false, [2], 8⟩, ⟨true, [1], 8⟩]).2 := by
  refine ⟨AeadCrates.nonceTagged_correct,
    (loopback_flows_iff AeadCrates.nonceTagged_correct
      eval_runLoopback_firstPair _).mpr ?_ _ List.suffix_rfl⟩
  intro call earlier hmem
  have hcall := hmem.subset List.mem_cons_self
  simp only [List.mem_cons, List.not_mem_nil, or_false] at hcall
  rcases hcall with rfl | rfl
  · exact .inr (.inr (by decide))
  · exact .inr (.inr (by decide))

/-- The content of the first record does not fit.  The sender has counted it,
the receiver has not, and the next record is refused. -/
theorem small_buffer_parts_counters :
    let s := (pairCall .nonceTagged firstPair firstPairState ⟨true, [1], 0⟩).2
    s.writeSeq firstPair.1 = some 1 ∧ s.readSeq firstPair.2 = some 0 ∧
      (pairCall .nonceTagged firstPair s ⟨true, [1], 64⟩).1 =
        .error (.error .authenticationFailed) := by
  decide +kernel

end IsoLightK0
