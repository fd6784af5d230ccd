import IsoLightK0.Support.Runs
import IsoLightK0.Tls.Record

/-!
# The stream of records

A sender and a receiver hold the same key and IV.  The adversary delivers what
it likes.  The AEAD is taken to be ideal: what opens under a key has been sealed
with that key, under the same nonce and the same associated data.  This is an
assumption about the deliveries, relative to the log of what the sender has
sealed so far; the log is no part of the program.

The sequence number is the number of records that were sent or accepted, and
it fixes the nonce.  The receiver can therefore only open the next record, and
what it has accepted is a prefix of what was sent.
-/

namespace IsoLightK0

open Bytes Triples Runs

/-- The header of a record, which is also the associated data. -/
def recordHeader (plaintext : List Byte) : List Byte :=
  [ctApplicationData, 0x03, 0x03] ++
    (toLe 2 (plaintext.length + 1 + aeadTagLen)).reverse

/-- What the sender hands to the AEAD for a plaintext. -/
def Sender.sealing (s : Sender) (suite : CipherSuite) (plaintext : List Byte)
    (sealed : Option (List Byte × Buf 16)) : Sealing where
  suite := suite
  key := s.keys.key
  nonce := buildNonce s.keys.iv s.keys.seq
  aad := recordHeader plaintext
  inner := plaintext ++ [ctApplicationData]
  sealed := sealed

theorem buildAad_eq {plaintext : List Byte}
    (h : ¬ maxPlaintextLen < plaintext.length) :
    buildAad (plaintext.length + 1 + aeadTagLen) =
      .ok (recordHeader plaintext) := by
  unfold maxPlaintextLen at h
  unfold buildAad
  rw [if_neg (by
    unfold aeadTagLen
    omega)]
  rfl

theorem encryptInPlace_cases (A : AeadCrates) (suite : CipherSuite)
    (plaintext : List Byte) (outLen : ℕ) (s : Sender) :
    (∃ e, (encryptInPlace A suite plaintext outLen).eval s = (.error e, s)) ∨
    (s.keys.seq ≠ seqMax ∧ ∃ e,
      aeadEncrypt A suite s.keys.key (buildNonce s.keys.iv s.keys.seq)
        (recordHeader plaintext) (plaintext ++ [ctApplicationData]) =
          .error e ∧
      (encryptInPlace A suite plaintext outLen).eval s = (.error e, { s with
        sealings := s.sealing suite plaintext none :: s.sealings })) ∨
    (s.keys.seq ≠ seqMax ∧ ∃ record ct tag,
      (encryptInPlace A suite plaintext outLen).eval s = (.ok record, {
        keys := { s.keys with seq := s.keys.seq + 1 }
        sealings :=
          s.sealing suite plaintext (some (ct, tag)) :: s.sealings })) := by
  unfold encryptInPlace
  dsimp only
  simp only [Prog.eval_exitIf_bind, Prog.eval_get_bind]
  by_cases hlen : maxPlaintextLen < plaintext.length
  · rw [if_pos hlen]
    exact .inl ⟨_, rfl⟩
  by_cases hseq : s.keys.seq = seqMax
  · rw [if_neg hlen, if_pos hseq]
    exact .inl ⟨_, rfl⟩
  by_cases hout : outLen < recordHeaderLen + (plaintext.length + 1 + aeadTagLen)
  · rw [if_neg hlen, if_neg hseq, if_pos hout]
    exact .inl ⟨_, rfl⟩
  rw [if_neg hlen, if_neg hseq, if_neg hout, buildAad_eq hlen]
  dsimp only
  rw [Prog.eval_bind, sealInner, Prog.eval_get_bind]
  dsimp only
  cases aeadEncrypt A suite s.keys.key
    (buildNonce s.keys.iv s.keys.seq) (recordHeader plaintext)
    (plaintext ++ [ctApplicationData]) with
  | error e => exact .inr (.inl ⟨hseq, e, rfl, rfl⟩)
  | ok sealed => exact .inr (.inr ⟨hseq, _, sealed.1.toList, sealed.2, rfl⟩)

structure Parts (record header ct : List Byte) (tag : Buf 16) : Prop where
  header_length : header.length = recordHeaderLen
  eq_append : record = header ++ (ct ++ tag.toList)

theorem toList_eq_slices {n k : ℕ} (b : Buf n) (h : n = k + 1) :
    b.toList = b.slice 0 k ++ b.slice k 1 := by
  subst h
  show b.slice 0 (k + 1) = _
  rw [Buf.slice_add, Nat.zero_add]

theorem parts_of_length {record : List Byte} {ctLen : ℕ}
    (h : recordHeaderLen + ctLen + 16 = record.length) :
    Parts record (record.take recordHeaderLen)
      ((record.drop recordHeaderLen).take ctLen)
      (Buf.ofList 16 (record.drop (recordHeaderLen + ctLen))) := by
  have htag : (Buf.ofList 16 (record.drop (recordHeaderLen + ctLen))).toList =
      record.drop (recordHeaderLen + ctLen) := by
    apply Buf.toList_ofList
    rw [List.length_drop]
    omega
  constructor
  · rw [List.length_take]
    omega
  · rw [htag, ← List.drop_drop, List.take_append_drop, List.take_append_drop]

theorem openInner_triple (A : AeadCrates) (suite : CipherSuite)
    (aad ct : List Byte) (tag : Buf 16) (contentLen outLen : ℕ)
    (keys : DirectionalKeys) :
    Triple (· = keys) (openInner A suite aad ct tag contentLen outLen)
      (fun content keys' =>
        keys.seq ≠ seqMax ∧ keys' = { keys with seq := keys.seq + 1 } ∧
          ∃ inner, aeadDecrypt A suite keys.key (buildNonce keys.iv keys.seq)
              aad ct tag = .ok inner ∧
            inner.toMem contentLen = ctApplicationData ∧
            content = inner.slice 0 contentLen)
      (fun _ keys' => keys' = keys) := by
  refine Triple.get_bind ?_
  rintro keys rfl
  refine Triple.exitIf_bind (fun _ _ h => h) fun hseq => ?_
  dsimp only
  cases hopen : aeadDecrypt A suite keys.key (buildNonce keys.iv keys.seq) aad
      ct tag with
  | error e => exact Triple.throw e fun _ h => h
  | ok inner =>
    refine Triple.exitIf_bind (fun _ _ h => h) fun htype => ?_
    refine Triple.exitIf_bind (fun _ _ h => h) fun _ => ?_
    rintro _ rfl
    refine ⟨?_, fun _ _ h => (nomatch h)⟩
    rintro _ _ ⟨⟩
    exact ⟨hseq, rfl, inner, rfl, not_not.mp htype, rfl⟩

/-- A record that is accepted was opened under the nonce of the present
sequence number, with its header as associated data.  One that is not leaves
the keys alone. -/
theorem decryptInPlace_triple (A : AeadCrates) (suite : CipherSuite)
    (record : List Byte) (outLen : ℕ) (keys : DirectionalKeys) :
    Triple (· = keys) (decryptInPlace A suite record outLen)
      (fun content keys' =>
        keys.seq ≠ seqMax ∧ keys' = { keys with seq := keys.seq + 1 } ∧
          ∃ header ct tag inner, Parts record header ct tag ∧
            aeadDecrypt A suite keys.key (buildNonce keys.iv keys.seq) header
              ct tag = .ok inner ∧
            inner.toList = content ++ [ctApplicationData])
      (fun _ keys' => keys' = keys) := by
  unfold decryptInPlace
  extract_lets length ctLen aad ct tag
  iterate 3 refine Triple.exitIf_bind (fun _ _ h => h) fun _ => ?_
  refine Triple.exitIf_bind (fun _ _ h => h) fun htotal => ?_
  refine Triple.exitIf_bind (fun _ _ h => h) fun hlength => ?_
  refine Triple.exitIf_bind (fun _ _ h => h) fun _ => ?_
  refine (openInner_triple A suite aad ct tag (ctLen - 1) outLen keys).weaken
    (fun _ h => h) ?_
  rintro content keys' ⟨hseq, hkeys, inner, hopen, htype, rfl⟩
  have hdata : recordHeaderLen + ctLen + 16 = record.length := by
    have hfive : recordHeaderLen + length = record.length := not_not.mp htotal
    unfold aeadTagLen at hlength
    show recordHeaderLen + (length - 16) + 16 = record.length
    omega
  have hct : ct.length = ctLen - 1 + 1 := by
    rw [List.length_take, List.length_drop]
    unfold aeadTagLen at hlength
    show min (length - 16) _ = length - 16 - 1 + 1
    omega
  have hlast : inner.slice (ctLen - 1) 1 = [ctApplicationData] := by
    rw [← htype]
    rfl
  refine ⟨hseq, hkeys, aad, ct, tag, inner, parts_of_length hdata, hopen, ?_⟩
  rw [← hlast]
  exact toList_eq_slices inner hct

theorem zipWith_xor_injective {xs ys zs : List Byte}
    (hys : ys.length = xs.length) (hzs : zs.length = xs.length)
    (h : List.zipWith (· ^^^ ·) xs ys = List.zipWith (· ^^^ ·) xs zs) :
    ys = zs := by
  induction xs generalizing ys zs with
  | nil =>
    rw [List.length_eq_zero_iff.mp hys, List.length_eq_zero_iff.mp hzs]
  | cons x xs ih =>
    cases ys with
    | nil => cases hys
    | cons y ys =>
      cases zs with
      | nil => cases hzs
      | cons z zs =>
        rw [List.zipWith_cons_cons, List.zipWith_cons_cons] at h
        injection h with hhead htail
        have hyz : y = z := by
          have hxor := congrArg (x ^^^ ·) hhead
          simpa [← BitVec.xor_assoc] using hxor
        rw [hyz, ih (Nat.succ.inj hys) (Nat.succ.inj hzs) htail]

theorem buildNonce_injective (iv : Buf 12) {seq seq' : BitVec 64}
    (h : buildNonce iv seq = buildNonce iv seq') : seq = seq' := by
  have hlength : ∀ x : BitVec 64,
      (List.replicate 4 (0 : Byte) ++ (wordToLe 8 x).reverse).length =
        iv.toList.length := by
    intro x
    rw [List.length_append, List.length_replicate, List.length_reverse,
      length_wordToLe, Buf.length_toList]
  have hzip : ∀ x : BitVec 64, (buildNonce iv x).toList =
      List.zipWith (· ^^^ ·) iv.toList
        (List.replicate 4 0 ++ (wordToLe 8 x).reverse) := by
    intro x
    apply Buf.toList_ofList
    rw [List.length_zipWith, hlength, min_self, Buf.length_toList]
  have hlists := congrArg Buf.toList h
  rw [hzip, hzip] at hlists
  have hpadded := zipWith_xor_injective (hlength seq) (hlength seq') hlists
  have hwords : wordToLe 8 seq = wordToLe 8 seq' :=
    List.reverse_injective (List.append_cancel_left hpadded)
  rw [← wordOfLe_wordToLe seq (k := 8) (by omega), hwords,
    wordOfLe_wordToLe seq' (by omega)]

/-! ## The channel -/

structure Channel where
  sender : Sender
  receiver : DirectionalKeys

/-- Both sides hold the same key and IV, and have sent and accepted nothing. -/
def Channel.start (key : Buf 32) (iv : Buf 12) : Channel where
  sender := ⟨⟨key, iv, 0⟩, []⟩
  receiver := ⟨key, iv, 0⟩

/-- The sender encrypts a plaintext, or the adversary delivers a record, each
with a buffer for the result. -/
inductive StreamCall
  | send (suite : CipherSuite) (plaintext : List Byte) (outLen : ℕ)
  | deliver (suite : CipherSuite) (record : List Byte) (outLen : ℕ)

def streamCall (A : AeadCrates) (c : Channel) :
    StreamCall → Except TlsError (List Byte) × Channel
  | .send suite plaintext outLen =>
    let outcome := (encryptInPlace A suite plaintext outLen).eval c.sender
    (outcome.1, { c with sender := outcome.2 })
  | .deliver suite record outLen =>
    let outcome := (decryptInPlace A suite record outLen).eval c.receiver
    (outcome.1, { c with receiver := outcome.2 })

def streamStep (A : AeadCrates) (c : Channel) (call : StreamCall) :
    Option (Except TlsError (List Byte) × Channel) :=
  some (streamCall A c call)

def sentIn : List (StreamCall × Except TlsError (List Byte)) →
    List (List Byte)
  | [] => []
  | (.send _ plaintext _, .ok _) :: earlier => sentIn earlier ++ [plaintext]
  | _ :: earlier => sentIn earlier

def receivedIn : List (StreamCall × Except TlsError (List Byte)) →
    List (List Byte)
  | [] => []
  | (.deliver _ _ _, .ok content) :: earlier =>
    receivedIn earlier ++ [content]
  | _ :: earlier => receivedIn earlier

/-- The AEAD is ideal for what is delivered: a ciphertext opens under the key
only if the sender has sealed it, with this key, under the same nonce and
associated data, and then gives what was sealed. -/
def IdealFor (A : AeadCrates) (c : Channel) : StreamCall → Prop
  | .send _ _ _ => True
  | .deliver suite record _ =>
    ∀ header ct tag, Parts record header ct tag → ∀ nonce aad inner,
      aeadDecrypt A suite c.receiver.key nonce aad ct tag = .ok inner →
        ⟨suite, c.receiver.key, nonce, aad, inner.toList, some (ct, tag)⟩ ∈
          c.sender.sealings

/-- What the sender has handed to the AEAD: the records in order, each under
the nonce of its number, and possibly some that the AEAD refused. -/
structure Logged (iv : Buf 12) (sent : List (List Byte))
    (sealings : List Sealing) : Prop where
  numbered : ∀ u ∈ sealings, ∃ n : ℕ, n ≤ sent.length ∧
    u.nonce = buildNonce iv (BitVec.ofNat 64 n) ∧
      (u.sealed ≠ none → ∃ plaintext, sent[n]? = some plaintext ∧
        u.inner = plaintext ++ [ctApplicationData])
  once : sealings.Pairwise fun later earlier =>
    later.nonce = earlier.nonce → earlier.sealed = none

/-- The two sides count what was sent and accepted. -/
structure InOrderStream (key : Buf 32) (iv : Buf 12)
    (history : List (StreamCall × Except TlsError (List Byte)))
    (c : Channel) : Prop where
  bound : (sentIn history).length < 2 ^ 64
  sender : c.sender.keys = ⟨key, iv, BitVec.ofNat 64 (sentIn history).length⟩
  receiver : c.receiver =
    ⟨key, iv, BitVec.ofNat 64 (receivedIn history).length⟩
  accepted : receivedIn history <+: sentIn history
  logged : Logged iv (sentIn history) c.sender.sealings

/-! ### The log -/

theorem eq_of_nonce_eq {iv : Buf 12} {m n : ℕ} (hm : m < 2 ^ 64)
    (hn : n < 2 ^ 64) (h : buildNonce iv (BitVec.ofNat 64 m) =
      buildNonce iv (BitVec.ofNat 64 n)) : m = n := by
  have hseq := congrArg BitVec.toNat (buildNonce_injective iv h)
  rwa [BitVec.toNat_ofNat, BitVec.toNat_ofNat, Nat.mod_eq_of_lt hm,
    Nat.mod_eq_of_lt hn] at hseq

namespace Logged

variable {iv : Buf 12} {sent : List (List Byte)} {sealings : List Sealing}
  {u : Sealing}

section NextNonce

variable (h : Logged iv sent sealings) (hbound : sent.length < 2 ^ 64)
  (hnonce : u.nonce = buildNonce iv (BitVec.ofNat 64 sent.length))

include h hbound hnonce

theorem fresh :
    ∀ earlier ∈ sealings, u.nonce = earlier.nonce → earlier.sealed = none := by
  intro earlier hmem heq
  obtain ⟨n, hn, hnumber, hsealed⟩ := h.numbered earlier hmem
  have hlast : sent.length = n := by
    apply eq_of_nonce_eq hbound (by omega)
    rw [← hnonce, heq, hnumber]
  by_contra hsome
  obtain ⟨plaintext, hget, -⟩ := hsealed hsome
  rw [← hlast, List.getElem?_eq_none le_rfl] at hget
  cases hget

theorem refused (hnone : u.sealed = none) : Logged iv sent (u :: sealings) where
  numbered := by
    intro v hv
    rcases List.mem_cons.mp hv with rfl | hold
    · exact ⟨sent.length, le_rfl, hnonce, fun hsome => absurd hnone hsome⟩
    · exact h.numbered v hold
  once := List.pairwise_cons.mpr ⟨h.fresh hbound hnonce, h.once⟩

theorem sealed {plaintext : List Byte}
    (hinner : u.inner = plaintext ++ [ctApplicationData]) :
    Logged iv (sent ++ [plaintext]) (u :: sealings) where
  numbered := by
    intro v hv
    rw [List.length_append]
    rcases List.mem_cons.mp hv with rfl | hold
    · refine ⟨sent.length, by omega, hnonce, fun _ => ⟨plaintext, ?_, hinner⟩⟩
      exact List.getElem?_concat_length
    · obtain ⟨n, hn, hnumber, hsealed⟩ := h.numbered v hold
      refine ⟨n, by omega, hnumber, fun hsome => ?_⟩
      obtain ⟨old, hget, hinner⟩ := hsealed hsome
      have hlt : n < sent.length := (List.getElem?_eq_some_iff.mp hget).1
      exact ⟨old, by rw [List.getElem?_append_left hlt, hget], hinner⟩
  once := List.pairwise_cons.mpr ⟨h.fresh hbound hnonce, h.once⟩

end NextNonce

theorem getElem?_of_sealed (h : Logged iv sent sealings) (hmem : u ∈ sealings)
    (hsome : u.sealed ≠ none) {n : ℕ} (hbound : sent.length < 2 ^ 64)
    (hn : n ≤ sent.length)
    (hnonce : u.nonce = buildNonce iv (BitVec.ofNat 64 n))
    {content : List Byte} (hinner : u.inner = content ++ [ctApplicationData]) :
    sent[n]? = some content := by
  obtain ⟨k, hk, hnumber, hsealed⟩ := h.numbered u hmem
  have hkn : k = n := by
    apply eq_of_nonce_eq (by omega) (by omega)
    rw [← hnumber, hnonce]
  obtain ⟨plaintext, hget, hplain⟩ := hsealed hsome
  rw [hinner] at hplain
  rw [← hkn, hget, List.append_cancel_right hplain]

end Logged

/-! ### Every run -/

theorem ofNat_succ (n : ℕ) :
    BitVec.ofNat 64 n + 1 = BitVec.ofNat 64 (n + 1) := by
  rw [BitVec.ofNat_add]
  rfl

theorem succ_lt_of_ne_seqMax {n : ℕ} (hn : n < 2 ^ 64)
    (h : BitVec.ofNat 64 n ≠ seqMax) : n + 1 < 2 ^ 64 := by
  by_contra hlarge
  apply h
  have hmax : n = 2 ^ 64 - 1 := by omega
  rw [hmax]
  rfl

theorem concat_prefix_of_getElem? {α : Type} {xs ys : List α} {y : α}
    (h : xs <+: ys) (hnext : ys[xs.length]? = some y) : xs ++ [y] <+: ys := by
  obtain ⟨rest, rfl⟩ := h
  rw [List.getElem?_append_right le_rfl, Nat.sub_self] at hnext
  cases rest with
  | nil => cases hnext
  | cons z rest =>
    injection hnext with hz
    rw [hz]
    exact ⟨rest, List.append_assoc xs [y] rest⟩

namespace InOrderStream

variable {A : AeadCrates} {key : Buf 32} {iv : Buf 12}
  {history : List (StreamCall × Except TlsError (List Byte))} {c : Channel}
  {suite : CipherSuite}

theorem start : InOrderStream key iv [] (Channel.start key iv) where
  bound := Nat.two_pow_pos 64
  sender := rfl
  receiver := rfl
  accepted := List.nil_prefix
  logged := ⟨fun _ h => absurd h List.not_mem_nil, List.Pairwise.nil⟩

theorem send (h : InOrderStream key iv history c) (plaintext : List Byte)
    (outLen : ℕ) :
    InOrderStream key iv ((.send suite plaintext outLen,
      (streamCall A c (.send suite plaintext outLen)).1) :: history)
      (streamCall A c (.send suite plaintext outLen)).2 := by
  have hnonce : ∀ sealed, (c.sender.sealing suite plaintext sealed).nonce =
      buildNonce iv (BitVec.ofNat 64 (sentIn history).length) := by
    intro sealed
    show buildNonce c.sender.keys.iv c.sender.keys.seq = _
    rw [h.sender]
  unfold streamCall
  dsimp only
  rcases encryptInPlace_cases A suite plaintext outLen c.sender with
    ⟨e, heval⟩ | ⟨-, e, -, heval⟩ | ⟨hseq, record, ct, tag, heval⟩
  · rw [heval]
    exact ⟨h.bound, h.sender, h.receiver, h.accepted, h.logged⟩
  · rw [heval]
    exact ⟨h.bound, h.sender, h.receiver, h.accepted,
      h.logged.refused h.bound (hnonce none) rfl⟩
  · rw [heval]
    have hlength : (sentIn history ++ [plaintext]).length =
        (sentIn history).length + 1 := List.length_append
    refine ⟨?_, ?_, h.receiver, ?_, h.logged.sealed h.bound (hnonce _) rfl⟩
    · show (sentIn history ++ [plaintext]).length < 2 ^ 64
      rw [hlength]
      apply succ_lt_of_ne_seqMax h.bound
      rwa [h.sender] at hseq
    · show ({ c.sender.keys with seq := c.sender.keys.seq + 1 } :
        DirectionalKeys) = ⟨key, iv, BitVec.ofNat 64
          (sentIn history ++ [plaintext]).length⟩
      rw [hlength, h.sender, ofNat_succ]
    · exact h.accepted.trans (List.prefix_append _ _)

theorem deliver (h : InOrderStream key iv history c) (record : List Byte)
    (outLen : ℕ) (hideal : IdealFor A c (.deliver suite record outLen)) :
    InOrderStream key iv ((.deliver suite record outLen,
      (streamCall A c (.deliver suite record outLen)).1) :: history)
      (streamCall A c (.deliver suite record outLen)).2 := by
  unfold streamCall
  dsimp only
  obtain ⟨hopened, hfailed⟩ :=
    decryptInPlace_triple A suite record outLen c.receiver c.receiver rfl
  rcases heval : (decryptInPlace A suite record outLen).eval c.receiver with
    ⟨e | content, keys'⟩
  · rw [hfailed e keys' heval]
    exact ⟨h.bound, h.sender, h.receiver, h.accepted, h.logged⟩
  · obtain ⟨-, rfl, header, ct, tag, inner, hparts, haead, hinner⟩ :=
      hopened content keys' heval
    -- the record that opened is the next one that was sent
    have hnext : (sentIn history)[(receivedIn history).length]? =
        some content := by
      apply h.logged.getElem?_of_sealed
        (hideal header ct tag hparts _ _ inner haead) (Option.some_ne_none _)
        h.bound h.accepted.length_le _ hinner
      show buildNonce c.receiver.iv c.receiver.seq = _
      rw [h.receiver]
    refine ⟨h.bound, h.sender, ?_,
      concat_prefix_of_getElem? h.accepted hnext, h.logged⟩
    show ({ c.receiver with seq := c.receiver.seq + 1 } :
      DirectionalKeys) = ⟨key, iv, BitVec.ofNat 64
        (receivedIn history ++ [content]).length⟩
    rw [List.length_append, h.receiver, ofNat_succ]
    rfl

theorem of_run (hrun : GuardedRun (IdealFor A) (streamStep A)
    (Channel.start key iv) history c) : InOrderStream key iv history c := by
  apply hrun.history_invariant (I := InOrderStream key iv) start
  intro history c call r c' h hideal hstep
  injection hstep with hcall
  obtain ⟨rfl, rfl⟩ := Prod.mk.inj hcall
  cases call with
  | send suite plaintext outLen => exact h.send plaintext outLen
  | deliver suite record outLen => exact h.deliver record outLen hideal

end InOrderStream

/-- The AEAD encrypts every record.  AES-GCM cannot fail by its type. -/
def AeadCrates.EncryptsAll (A : AeadCrates) : Prop :=
  ∀ key nonce aad inner, A.chachaEncrypt key nonce aad inner ≠ none

theorem AeadCrates.EncryptsAll.aeadEncrypt_ne_error {A : AeadCrates}
    (h : A.EncryptsAll) (suite : CipherSuite) (key : Buf 32) (nonce : Buf 12)
    (aad inner : List Byte) (e : TlsError) :
    aeadEncrypt A suite key nonce aad inner ≠ .error e := by
  cases suite with
  | aes256GcmSha256 => exact nofun
  | chaCha20Poly1305Sha256 =>
    obtain ⟨sealed, hsealed⟩ :=
      Option.ne_none_iff_exists'.mp (h key nonce aad inner)
    rw [aeadEncrypt, hsealed]
    exact nofun

theorem sealed_of_encryptsAll {A : AeadCrates} (hall : A.EncryptsAll)
    {admits : Channel → StreamCall → Prop} {key : Buf 32} {iv : Buf 12}
    {history : List (StreamCall × Except TlsError (List Byte))} {c : Channel}
    (hrun : GuardedRun admits (streamStep A) (Channel.start key iv) history
      c) : ∀ u ∈ c.sender.sealings, u.sealed ≠ none := by
  apply hrun.history_invariant
    (I := fun _ c => ∀ u ∈ c.sender.sealings, u.sealed ≠ none)
    (fun _ h => absurd h List.not_mem_nil)
  intro history c call r c' h _ hstep
  injection hstep with hcall
  obtain ⟨rfl, rfl⟩ := Prod.mk.inj hcall
  cases call with
  | send suite plaintext outLen =>
    dsimp only
    rcases encryptInPlace_cases A suite plaintext outLen c.sender with
      ⟨e, heval⟩ | ⟨-, e, hfails, -⟩ | ⟨-, record, ct, tag, heval⟩
    · rw [heval]
      exact h
    · exact absurd hfails (hall.aeadEncrypt_ne_error _ _ _ _ _ _)
    · rw [heval]
      exact List.forall_mem_cons.mpr ⟨Option.some_ne_none _, h⟩
  | deliver suite record outLen => exact h

/-- Over any run against an ideal AEAD, what was accepted is a prefix of what
was sent.  No nonce with which a record was sealed is used again, and if the
AEAD encrypts every record, no nonce at all is used twice.  An error leaves the
keys and the sequence number as they were. -/
theorem stream_in_order {A : AeadCrates} {key : Buf 32} {iv : Buf 12}
    {history : List (StreamCall × Except TlsError (List Byte))} {c : Channel}
    (hrun : GuardedRun (IdealFor A) (streamStep A) (Channel.start key iv)
      history c) :
    receivedIn history <+: sentIn history ∧
      (c.sender.sealings.Pairwise fun later earlier =>
        later.nonce = earlier.nonce → earlier.sealed = none) ∧
      (A.EncryptsAll → c.sender.sealings.Pairwise fun later earlier =>
        later.nonce ≠ earlier.nonce) ∧
      (∀ suite plaintext outLen s e s',
        (encryptInPlace A suite plaintext outLen).eval s = (.error e, s') →
          s'.keys = s.keys) ∧
      ∀ suite record outLen keys e keys',
        (decryptInPlace A suite record outLen).eval keys = (.error e, keys') →
          keys' = keys := by
  have hstream := InOrderStream.of_run hrun
  refine ⟨hstream.accepted, hstream.logged.once, ?_, ?_, ?_⟩
  · intro hall
    refine hstream.logged.once.imp_of_mem fun _ hearlier honce hnonce => ?_
    exact sealed_of_encryptsAll hall hrun _ hearlier (honce hnonce)
  · intro suite plaintext outLen s e s' h
    rcases encryptInPlace_cases A suite plaintext outLen s with
      ⟨e', heval⟩ | ⟨-, e', -, heval⟩ | ⟨-, record, ct, tag, heval⟩
    · rw [heval] at h
      rw [(Prod.mk.inj h).2]
    · rw [heval] at h
      rw [← (Prod.mk.inj h).2]
    · rw [heval] at h
      cases (Prod.mk.inj h).1
  · intro suite record outLen keys e keys' h
    exact (decryptInPlace_triple A suite record outLen keys keys rfl).2 e keys' h

/-- An AEAD that does not hide its input, and opens two records only. -/
def twoRecordAead : AeadCrates where
  gcmEncrypt _ _ _ data := (Buf.ofList data.length data, Buf.ofList 16 [])
  gcmDecrypt _ nonce aad ct tag :=
    if aad = recordHeader [0] ∧ tag = Buf.ofList 16 [] ∧
        (nonce = buildNonce (Buf.ofList 12 []) 0 ∧ ct = [1, 0x17] ∨
          nonce = buildNonce (Buf.ofList 12 []) 1 ∧ ct = [2, 0x17]) then
      some (Buf.ofList ct.length ct)
    else
      none
  chachaEncrypt _ _ _ data :=
    some (Buf.ofList data.length data, Buf.ofList 16 [])
  chachaDecrypt _ _ _ _ _ := none

def twoSealings : List Sealing :=
  [⟨.aes256GcmSha256, Buf.ofList 32 [], buildNonce (Buf.ofList 12 []) 1,
      recordHeader [2], [2, 0x17], some ([2, 0x17], Buf.ofList 16 [])⟩,
    ⟨.aes256GcmSha256, Buf.ofList 32 [], buildNonce (Buf.ofList 12 []) 0,
      recordHeader [1], [1, 0x17], some ([1, 0x17], Buf.ofList 16 [])⟩]

theorem idealFor_twoRecordAead {c : Channel} (call : StreamCall)
    (hkey : c.receiver.key = Buf.ofList 32 [])
    (hlog : c.sender.sealings = twoSealings) :
    IdealFor twoRecordAead c call := by
  cases call with
  | send suite plaintext outLen => trivial
  | deliver suite record outLen =>
    intro header ct tag _ nonce aad inner hopen
    rw [hlog, hkey]
    cases suite with
    | chaCha20Poly1305Sha256 => cases hopen
    | aes256GcmSha256 =>
      by_cases hcond : aad = recordHeader [0] ∧ tag = Buf.ofList 16 [] ∧
        (nonce = buildNonce (Buf.ofList 12 []) 0 ∧ ct = [1, 0x17] ∨
          nonce = buildNonce (Buf.ofList 12 []) 1 ∧ ct = [2, 0x17])
      · have hinner : inner = Buf.ofList ct.length ct := by
          unfold aeadDecrypt twoRecordAead at hopen
          dsimp only at hopen
          rw [if_pos hcond] at hopen
          injection hopen with hopen
          exact hopen.symm
        obtain ⟨rfl, rfl, ⟨rfl, rfl⟩ | ⟨rfl, rfl⟩⟩ := hcond
        · rw [hinner]
          decide +kernel
        · rw [hinner]
          decide +kernel
      · unfold aeadDecrypt twoRecordAead at hopen
        dsimp only at hopen
        rw [if_neg hcond] at hopen
        cases hopen

/-- Two records are sent.  The second arrives first and is refused, the first
is accepted, then refused, and the second is accepted. -/
def reorderedCalls : List StreamCall :=
  let first := recordHeader [1] ++ [1, 0x17] ++ List.replicate 16 0
  let second := recordHeader [2] ++ [2, 0x17] ++ List.replicate 16 0
  [.deliver .aes256GcmSha256 second 8, .deliver .aes256GcmSha256 first 8,
    .deliver .aes256GcmSha256 first 8, .deliver .aes256GcmSha256 second 8,
    .send .aes256GcmSha256 [2] 64, .send .aes256GcmSha256 [1] 64]

theorem stream_in_order_reordered :
    ∃ history c, GuardedRun (IdealFor twoRecordAead)
        (streamStep twoRecordAead)
        (Channel.start (Buf.ofList 32 []) (Buf.ofList 12 [])) history c ∧
      history.map Prod.fst = reorderedCalls ∧
      receivedIn history = [[1], [2]] ∧ receivedIn history <+: sentIn history ∧
      c.sender.sealings.length = 2 ∧
      c.sender.sealings.Pairwise fun later earlier =>
        later.nonce ≠ earlier.nonce := by
  let start := Channel.start (Buf.ofList 32 []) (Buf.ofList 12 [])
  let run := replay (streamCall twoRecordAead) start
  have hsent : GuardedRun (IdealFor twoRecordAead) (streamStep twoRecordAead)
      start (run (reorderedCalls.drop 4)).1 (run (reorderedCalls.drop 4)).2 :=
    .next (.next .start trivial rfl) trivial rfl
  have hrun : GuardedRun (IdealFor twoRecordAead) (streamStep twoRecordAead)
      start (run reorderedCalls).1 (run reorderedCalls).2 := by
    apply GuardedRun.next _ _ rfl
    · apply GuardedRun.next _ _ rfl
      · apply GuardedRun.next _ _ rfl
        · apply GuardedRun.next hsent _ rfl
          apply idealFor_twoRecordAead
          · decide +kernel
          · decide +kernel
        · apply idealFor_twoRecordAead
          · decide +kernel
          · decide +kernel
      · apply idealFor_twoRecordAead
        · decide +kernel
        · decide +kernel
    · apply idealFor_twoRecordAead
      · decide +kernel
      · decide +kernel
  obtain ⟨haccepted, -, hnonces, -⟩ := stream_in_order hrun
  exact ⟨_, _, hrun, rfl, by decide +kernel, haccepted, by decide +kernel,
    hnonces fun _ _ _ _ => Option.some_ne_none _⟩

end IsoLightK0
