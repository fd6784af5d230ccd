import IsoLightK0.Tls.Loopback

/-!
# What a completed handshake has done

A handshake that succeeds has run through all its sections.  This module
collects what they have computed in one record, the trace of the handshake,
and shows that both ends have computed the same.
-/

namespace IsoLightK0

open Bytes Triples TlsProg

section Steps

variable {α β : Type} {s s' : TlsState} {b : β}

theorem compute_bind_ok {r : Except TlsStop α} {f : α → TlsProg β}
    (h : (compute r >>= f).eval s = (.ok b, s')) :
    ∃ a, r = .ok a ∧ (f a).eval s = (.ok b, s') := by
  obtain ⟨a, s₁, hr, hf⟩ := Prog.exists_of_eval_bind_eq_ok h
  rw [eval_compute] at hr
  cases hr
  exact ⟨a, rfl, hf⟩

theorem computeBoth_bind_ok {r : Except TlsStop α} {f : α → α → TlsProg β}
    (h : (compute r >>= fun a => compute r >>= f a).eval s = (.ok b, s')) :
    ∃ a, r = .ok a ∧ (f a a).eval s = (.ok b, s') := by
  obtain ⟨a, ha, hrest⟩ := compute_bind_ok h
  obtain ⟨a', ha', hf⟩ := compute_bind_ok hrest
  obtain rfl := Except.ok.inj (ha.symm.trans ha')
  exact ⟨a, ha, hf⟩

theorem failIf_bind_ok {c : Prop} [Decidable c] {e : TlsError}
    {f : Unit → TlsProg β} (h : (failIf c e >>= f).eval s = (.ok b, s')) :
    ¬ c ∧ (f ()).eval s = (.ok b, s') := by
  obtain ⟨u, s₁, hc, hf⟩ := Prog.exists_of_eval_bind_eq_ok h
  unfold failIf Prog.exitIf at hc
  split at hc
  · cases hc
  case isFalse hnot =>
    cases hc
    exact ⟨hnot, hf⟩

theorem randBytes32_bind_ok {f : Buf 32 → TlsProg β}
    (h : (randBytes32 >>= f).eval s = (.ok b, s')) :
    ∃ bytes drbg, randBytes 32 s.drbg = some (.ok bytes, drbg) ∧
      (f bytes).eval { s with drbg := drbg } = (.ok b, s') := by
  obtain ⟨bytes, s₁, hdraw, hf⟩ := Prog.exists_of_eval_bind_eq_ok h
  unfold randBytes32 at hdraw
  rw [Prog.eval_get_bind] at hdraw
  split at hdraw
  · cases hdraw
  · cases hdraw
  case h_3 bytes' drbg hsome =>
    cases hdraw
    exact ⟨bytes, drbg, hsome, hf⟩

end Steps

/-! ## Random values -/

/-- The DRBG delivers the values one after the other. -/
def Delivers : CapDrbg → List (Buf 32) → CapDrbg → Prop
  | drbg, [], drbg' => drbg' = drbg
  | drbg, b :: values, drbg' =>
    ∃ next, randBytes 32 drbg = some (.ok b, next) ∧
      Delivers next values drbg'

theorem Delivers.append {drbg drbg₁ drbg₂ : CapDrbg}
    {values values' : List (Buf 32)} (h : Delivers drbg values drbg₁)
    (h' : Delivers drbg₁ values' drbg₂) :
    Delivers drbg (values ++ values') drbg₂ := by
  induction values generalizing drbg with
  | nil =>
    obtain rfl : drbg₁ = drbg := h
    exact h'
  | cons b values ih =>
    obtain ⟨next, hdraw, hrest⟩ := h
    exact ⟨next, hdraw, ih hrest⟩

theorem Delivers.unique {drbg drbg₁ drbg₂ : CapDrbg}
    {values values' : List (Buf 32)} (h : Delivers drbg values drbg₁)
    (h' : Delivers drbg values' drbg₂)
    (hlength : values.length = values'.length) : values = values' := by
  induction values generalizing drbg values' with
  | nil =>
    exact (List.length_eq_zero_iff.mp hlength.symm).symm
  | cons b values ih =>
    cases values' with
    | nil =>
      cases hlength
    | cons b' values' =>
      obtain ⟨next, hdraw, hrest⟩ := h
      obtain ⟨next', hdraw', hrest'⟩ := h'
      obtain ⟨rfl, rfl⟩ : b = b' ∧ next = next' := by
        simpa using hdraw.symm.trans hdraw'
      rw [ih hrest hrest' (Nat.succ.inj hlength)]

/-- The random values of a handshake; three of them are drawn for the hybrid
policy only. -/
structure HandshakeRandom where
  clientSeed : Buf 32
  serverSeed : Buf 32
  mlkemD : Buf 32
  mlkemZ : Buf 32
  clientRandom : Buf 32
  serverRandom : Buf 32
  mlkemM : Buf 32

def serverHelloDraws (policy : KexPolicy) (serverRandom m : Buf 32) :
    List (Buf 32) :=
  match policy with
  | .hybrid => [serverRandom, m]
  | .classical => [serverRandom]

namespace HandshakeRandom

def keyDraws (r : HandshakeRandom) : KexPolicy → List (Buf 32)
  | .hybrid => [r.clientSeed, r.serverSeed, r.mlkemD, r.mlkemZ]
  | .classical => [r.clientSeed, r.serverSeed]

def draws (r : HandshakeRandom) (policy : KexPolicy) : List (Buf 32) :=
  r.keyDraws policy ++ [r.clientRandom] ++
    serverHelloDraws policy r.serverRandom r.mlkemM

def keys (T : TlsCrates) (r : HandshakeRandom) (policy : KexPolicy) :
    Ephemeral where
  clientSk := r.clientSeed
  serverSk := r.serverSeed
  mlkemKp :=
    match policy with
    | .hybrid => some (T.mlkem768Keygen r.mlkemD r.mlkemZ)
    | .classical => none

end HandshakeRandom

section Sections

variable {T : TlsCrates} {policy : KexPolicy} {s s' : TlsState}

theorem ephemeralKeys_ok {keys : Ephemeral}
    (h : (ephemeralKeys T policy).eval s = (.ok keys, s')) :
    ∃ (r : HandshakeRandom) (drbg : CapDrbg), keys = r.keys T policy ∧
      Delivers s.drbg (r.keyDraws policy) drbg ∧
      s' = { s with drbg := drbg } := by
  unfold ephemeralKeys at h
  obtain ⟨cSeed, drbg₁, hdraw₁, h₁⟩ := randBytes32_bind_ok h
  obtain ⟨sSeed, drbg₂, hdraw₂, h₂⟩ := randBytes32_bind_ok h₁
  cases policy with
  | classical =>
    cases h₂
    exact ⟨⟨cSeed, sSeed, Buf.zero, Buf.zero, Buf.zero, Buf.zero, Buf.zero⟩,
      drbg₂, rfl, ⟨_, hdraw₁, _, hdraw₂, rfl⟩, rfl⟩
  | hybrid =>
    obtain ⟨d, drbg₃, hdraw₃, h₃⟩ := randBytes32_bind_ok h₂
    obtain ⟨z, drbg₄, hdraw₄, h₄⟩ := randBytes32_bind_ok h₃
    cases h₄
    exact ⟨⟨cSeed, sSeed, d, z, Buf.zero, Buf.zero, Buf.zero⟩, drbg₄, rfl,
      ⟨_, hdraw₁, _, hdraw₂, _, hdraw₃, _, hdraw₄, rfl⟩, rfl⟩

/-! ## The messages -/

def handshakeHeader (hsType : Byte) (payloadLen : ℕ) : List Byte :=
  hsType :: (toLe 3 payloadLen).reverse

theorem writeHandshakeHeader_ok {bufLen payloadLen : ℕ} {hsType : Byte}
    {header : List Byte}
    (h : writeHandshakeHeader bufLen hsType payloadLen = .ok header) :
    header = handshakeHeader hsType payloadLen := by
  obtain ⟨-, h⟩ := of_guard_eq_ok h
  obtain ⟨-, h⟩ := of_guard_eq_ok h
  cases h
  rfl

variable (T) in
def truncatedHello (policy : KexPolicy) (suite : CipherSuite) (pskId : PskId)
    (keys : Ephemeral) (clientRandom : Buf 32) : List Byte :=
  handshakeHeader hsTypeClientHello
      (chFixedPrefixLen + policy.extra mlkem768PkLen + 1 + 32) ++
    pskId.toList ++ clientRandom.toList ++ [suite.code, policy.code] ++
    (T.x25519PublicKey keys.clientSk).toList ++
    match keys.mlkemKp with
    | some kp => kp.1.toList
    | none => []

def clientHelloMessage (truncated binder : List Byte) : List Byte :=
  truncated ++ [32] ++ binder

theorem truncatedHash_ok {truncated : List Byte} {hash : Buf 32}
    (h : truncatedHash T truncated = .ok hash) :
    hash = T.sha256 truncated := by
  unfold truncatedHash Transcript.update at h
  split at h
  · cases h
  case h_2 transcript hupdate =>
    split at hupdate
    · cases hupdate
      cases h
      rfl
    · cases hupdate

theorem clientHello_ok {suite : CipherSuite} {pskId : PskId}
    {keys : Ephemeral} {cSecrets sSecrets : ScheduleSecrets} {ch : List Byte}
    (h : (clientHello T policy suite pskId keys cSecrets sSecrets).eval s =
      (.ok ch, s')) :
    ∃ (clientRandom binder : Buf 32) (drbg : CapDrbg),
      Delivers s.drbg [clientRandom] drbg ∧ s' = { s with drbg := drbg } ∧
      computeBinder T.sha256 cSecrets.binderKey
        (T.sha256 (truncatedHello T policy suite pskId keys clientRandom)) =
          .ok binder ∧
      ch = clientHelloMessage
        (truncatedHello T policy suite pskId keys clientRandom)
        binder.toList := by
  unfold clientHello at h
  obtain ⟨header, hheader, h₁⟩ := compute_bind_ok h
  obtain rfl := writeHandshakeHeader_ok hheader
  obtain ⟨clientRandom, drbg, hdraw, h₂⟩ := randBytes32_bind_ok h₁
  obtain ⟨hash, hhash, h₃⟩ := compute_bind_ok h₂
  obtain rfl := truncatedHash_ok hhash
  obtain ⟨binder, hbinder, h₄⟩ := compute_bind_ok h₃
  obtain ⟨expected, -, h₅⟩ := compute_bind_ok h₄
  obtain ⟨-, h₆⟩ := failIf_bind_ok h₅
  cases h₆
  exact ⟨clientRandom, binder, drbg, ⟨drbg, hdraw, rfl⟩, rfl, hbinder, rfl⟩

variable (T) in
/-- The part of the server hello that both policies have. -/
def plainServerHello (policy : KexPolicy) (suite : CipherSuite)
    (keys : Ephemeral) (serverRandom : Buf 32) : List Byte :=
  handshakeHeader hsTypeServerHello
      (shFixedLen + policy.extra mlkem768CtLen) ++
    serverRandom.toList ++ [suite.code] ++
    (T.x25519PublicKey keys.serverSk).toList

variable (T) in
/-- The ciphertext that a server hello carries and the secret that the client
decapsulates from it; nothing for the classical policy. -/
def encapsulation (policy : KexPolicy) (keys : Ephemeral) (m : Buf 32) :
    Option (List Byte × List Byte) :=
  match policy, keys.mlkemKp with
  | .classical, _ => some ([], [])
  | .hybrid, none => none
  | .hybrid, some (ek, dk) =>
    (T.mlkem768Encaps ek m).map fun (ct, _) =>
      (ct.toList, (T.mlkem768Decaps ct dk).toList)

theorem serverHello_ok {suite : CipherSuite} {keys : Ephemeral}
    {sh shared : List Byte}
    (h : (serverHello T policy suite keys).eval s = (.ok (sh, shared), s')) :
    ∃ (serverRandom m xss : Buf 32) (ct kem : List Byte) (drbg : CapDrbg),
      Delivers s.drbg (serverHelloDraws policy serverRandom m) drbg ∧
      s' = { s with drbg := drbg } ∧
      T.x25519DiffieHellman keys.clientSk (T.x25519PublicKey keys.serverSk) =
        some xss ∧
      encapsulation T policy keys m = some (ct, kem) ∧
      sh = plainServerHello T policy suite keys serverRandom ++ ct ∧
      shared = xss.toList ++ kem := by
  unfold serverHello at h
  obtain ⟨header, hheader, h₁⟩ := compute_bind_ok h
  obtain rfl := writeHandshakeHeader_ok hheader
  obtain ⟨serverRandom, drbg, hdraw, h₂⟩ := randBytes32_bind_ok h₁
  dsimp only at h₂
  cases hclient : T.x25519DiffieHellman keys.clientSk
      (T.x25519PublicKey keys.serverSk) with
  | none =>
    rw [hclient] at h₂
    cases h₂
  | some xss =>
    rw [hclient] at h₂
    cases hserver : T.x25519DiffieHellman keys.serverSk
        (T.x25519PublicKey keys.clientSk) with
    | none =>
      rw [hserver] at h₂
      cases h₂
    | some serverSs =>
      rw [hserver] at h₂
      obtain ⟨-, h₃⟩ := failIf_bind_ok h₂
      cases policy with
      | classical =>
        cases h₃
        exact ⟨serverRandom, Buf.zero, xss, [], [], drbg,
          ⟨_, hdraw, rfl⟩, rfl, rfl, rfl, (List.append_nil _).symm,
          (List.append_nil _).symm⟩
      | hybrid =>
        cases hkp : keys.mlkemKp with
        | none =>
          rw [hkp] at h₃
          cases h₃
        | some kp =>
          rw [hkp] at h₃
          obtain ⟨m, drbg', hdraw', h₄⟩ := randBytes32_bind_ok h₃
          cases hencaps : T.mlkem768Encaps kp.1 m with
          | none =>
            rw [hencaps] at h₄
            cases h₄
          | some out =>
            rw [hencaps] at h₄
            obtain ⟨-, h₅⟩ := failIf_bind_ok h₄
            cases h₅
            refine ⟨serverRandom, m, xss, out.1.toList,
              (T.mlkem768Decaps out.1 kp.2).toList, drbg',
              ⟨_, hdraw, _, hdraw', rfl⟩, rfl, rfl, ?_, rfl, rfl⟩
            simp only [encapsulation, hkp, hencaps, Option.map_some]

/-! ## The two ends -/

/-- Two connections in their slots, with the same transcript. -/
def TlsState.paired (pool : TlsPool) (i j : ConnIdx) (c d : TlsConnection)
    (t : Transcript) (drbg : CapDrbg) : TlsState where
  pool := pool.withPair i j { c with transcript := t }
    { d with transcript := t }
  drbg := drbg

variable {β : Type} {b : β} {pool : TlsPool} {i j : ConnIdx}
  {c d : TlsConnection} {t : Transcript} {drbg : CapDrbg}

theorem transcript_update_ok {t' : Transcript} {msg : List Byte}
    (h : t.update msg = .ok t') : t'.bytes = t.bytes ++ msg := by
  unfold Transcript.update at h
  split at h
  · cases h
    rfl
  · cases h

theorem eval_updateTranscript {h : ConnIdx} {e : TlsConnection}
    (hslot : s.pool h = some e) (msg : List Byte) :
    (updateTranscript (ConnIdx.handle h) msg).eval s =
      match e.transcript.update msg with
      | .error e => (.error (.error e), s)
      | .ok t =>
        (.ok (),
          { s with
            pool := Function.update s.pool h
              (some { e with transcript := t }) }) := by
  rw [updateTranscript, eval_withSlot hslot]
  cases e.transcript.update msg with
  | error e => rfl
  | ok t => rfl

theorem updateTranscripts_bind_ok (hne : i ≠ j) {msg : List Byte}
    {f : Unit → TlsProg β}
    (h : (updateTranscripts (ConnIdx.handle i) (ConnIdx.handle j) msg >>=
      f).eval (.paired pool i j c d t drbg) = (.ok b, s')) :
    ∃ t' : Transcript, t'.bytes = t.bytes ++ msg ∧
      (f ()).eval (.paired pool i j c d t' drbg) = (.ok b, s') := by
  obtain ⟨u, s₁, hupdate, hf⟩ := Prog.exists_of_eval_bind_eq_ok h
  unfold updateTranscripts at hupdate
  rw [Prog.eval_bind,
    eval_updateTranscript (TlsPool.withPair_left hne)] at hupdate
  cases ht : t.update msg with
  | error e =>
    rw [ht] at hupdate
    cases hupdate
  | ok t' =>
    rw [ht] at hupdate
    dsimp only [TlsState.paired] at hupdate
    rw [TlsPool.update_withPair_left hne,
      eval_updateTranscript TlsPool.withPair_right] at hupdate
    dsimp only at hupdate
    rw [ht] at hupdate
    dsimp only at hupdate
    rw [TlsPool.update_withPair_right] at hupdate
    cases hupdate
    exact ⟨t', transcript_update_ok ht, hf⟩

theorem transcriptHash_bind_ok (hne : i ≠ j) {f : Buf 32 → TlsProg β}
    (h : (transcriptHash T (ConnIdx.handle i) >>= f).eval
      (.paired pool i j c d t drbg) = (.ok b, s')) :
    (f (T.sha256 t.bytes)).eval (.paired pool i j c d t drbg) =
      (.ok b, s') := by
  rw [Prog.eval_bind, transcriptHash, Prog.eval_bind,
    eval_slot (TlsPool.withPair_left hne)] at h
  exact h

def finishedMessage (verifyData : List Byte) : List Byte :=
  handshakeHeader hsTypeFinished 32 ++ verifyData

theorem exchangeFinished_bind_ok (hne : i ≠ j) {secret receiver hash : Buf 32}
    {f : Unit → TlsProg β}
    (h : (exchangeFinished T (ConnIdx.handle i) (ConnIdx.handle j) secret
      receiver hash >>= f).eval (.paired pool i j c d t drbg) =
        (.ok b, s')) :
    ∃ (finKey : Buf 32) (t' : Transcript),
      deriveFinishedKey T.sha256 secret = .ok finKey ∧
      t'.bytes = t.bytes ++
        finishedMessage (computeVerifyData T.sha256 finKey hash).toList ∧
      (f ()).eval (.paired pool i j c d t' drbg) = (.ok b, s') := by
  obtain ⟨u, s₁, hexchange, hf⟩ := Prog.exists_of_eval_bind_eq_ok h
  unfold exchangeFinished at hexchange
  obtain ⟨finKey, hkey, h₁⟩ := compute_bind_ok hexchange
  obtain ⟨header, hheader, h₂⟩ := compute_bind_ok h₁
  obtain rfl := writeHandshakeHeader_ok hheader
  obtain ⟨viewKey, -, h₃⟩ := compute_bind_ok h₂
  obtain ⟨-, h₄⟩ := failIf_bind_ok h₃
  have hbind : (updateTranscripts (ConnIdx.handle i) (ConnIdx.handle j)
      (finishedMessage (computeVerifyData T.sha256 finKey hash).toList) >>=
        f).eval (.paired pool i j c d t drbg) = (.ok b, s') := by
    rw [Prog.eval_bind, finishedMessage, h₄]
    exact hf
  obtain ⟨t', ht', hrest⟩ := updateTranscripts_bind_ok hne hbind
  exact ⟨finKey, t', hkey, ht', hrest⟩

def TlsConnection.keyed (c : TlsConnection) (write read : Buf 32 × Buf 12) :
    TlsConnection :=
  { c with
    appWrite := ⟨write.1, write.2, 0⟩
    appRead := ⟨read.1, read.2, 0⟩
    state := .connected }

theorem installKeys_ok {k : ConnIdx} {e : TlsConnection}
    (hslot : s.pool k = some e) {writeSecret readSecret : Buf 32} {u : Unit}
    (h : (installKeys T (ConnIdx.handle k) writeSecret readSecret).eval s =
      (.ok u, s')) :
    ∃ write read, deriveTrafficKeys T.sha256 writeSecret = .ok write ∧
      deriveTrafficKeys T.sha256 readSecret = .ok read ∧
      s' = { s with
        pool := Function.update s.pool k (some (e.keyed write read)) } := by
  rw [installKeys, eval_withSlot hslot] at h
  cases hwrite : deriveTrafficKeys T.sha256 writeSecret with
  | error e =>
    rw [hwrite] at h
    cases h
  | ok write =>
    rw [hwrite] at h
    cases hread : deriveTrafficKeys T.sha256 readSecret with
    | error e =>
      rw [hread] at h
      cases h
    | ok read =>
      rw [hread] at h
      cases h
      exact ⟨write, read, rfl, rfl, rfl⟩

end Sections

/-! ## The trace of a handshake -/

/-- What the caller of a handshake chooses. -/
structure HandshakeParams where
  policy : KexPolicy
  suite : CipherSuite
  pskId : PskId

/-- What the sections of a handshake have computed.  The secrets and the keys
are those of both ends. -/
structure HandshakeTrace where
  random : HandshakeRandom
  early : ScheduleSecrets
  binder : Buf 32
  xss : Buf 32
  ct : List Byte
  kem : List Byte
  handshake : ScheduleSecrets
  serverFinKey : Buf 32
  clientFinKey : Buf 32
  app : ScheduleSecrets
  clientKeys : Buf 32 × Buf 12
  serverKeys : Buf 32 × Buf 12

namespace HandshakeTrace

section Messages

variable (T : TlsCrates) (p : HandshakeParams) (v : HandshakeTrace)

def keys : Ephemeral := v.random.keys T p.policy

def truncated : List Byte :=
  truncatedHello T p.policy p.suite p.pskId (v.keys T p)
    v.random.clientRandom

def throughServerHello : List Byte :=
  clientHelloMessage (v.truncated T p) v.binder.toList ++
    (plainServerHello T p.policy p.suite (v.keys T p) v.random.serverRandom ++
      v.ct)

def throughServerFinished : List Byte :=
  v.throughServerHello T p ++
    finishedMessage (computeVerifyData T.sha256 v.serverFinKey
      (T.sha256 (v.throughServerHello T p))).toList

def throughClientFinished : List Byte :=
  v.throughServerFinished T p ++
    finishedMessage (computeVerifyData T.sha256 v.clientFinKey
      (T.sha256 (v.throughServerFinished T p))).toList

end Messages

/-- Each value is what its section computes from the values before it, and the
DRBG has delivered the random ones. -/
structure Valid (T : TlsCrates) (p : HandshakeParams) (hsm : HsmDriver)
    (v : HandshakeTrace) (drbg drbg' : CapDrbg) : Prop where
  draws : Delivers drbg (v.random.draws p.policy) drbg'
  early : deriveEarlySecrets T.sha256 hsm p.pskId .empty = .ok v.early
  binder : computeBinder T.sha256 v.early.binderKey
    (T.sha256 (v.truncated T p)) = .ok v.binder
  xss : T.x25519DiffieHellman v.random.clientSeed
    (T.x25519PublicKey v.random.serverSeed) = some v.xss
  encapsulated : encapsulation T p.policy (v.keys T p) v.random.mlkemM =
    some (v.ct, v.kem)
  handshake : deriveHandshakeSecrets T.sha256 v.early (v.xss.toList ++ v.kem)
    (T.sha256 (v.throughServerHello T p)) p.policy = .ok v.handshake
  serverFinKey : deriveFinishedKey T.sha256
    v.handshake.serverHandshakeTraffic = .ok v.serverFinKey
  clientFinKey : deriveFinishedKey T.sha256
    v.handshake.clientHandshakeTraffic = .ok v.clientFinKey
  app : deriveMasterAndAppSecrets T.sha256 v.handshake
    (T.sha256 (v.throughClientFinished T p)) = .ok v.app
  clientKeys : deriveTrafficKeys T.sha256 v.app.clientApplicationTraffic0 =
    .ok v.clientKeys
  serverKeys : deriveTrafficKeys T.sha256 v.app.serverApplicationTraffic0 =
    .ok v.serverKeys

end HandshakeTrace

/-- A handshake that succeeds on two fresh slots leaves a trace; both ends have
its messages in their transcripts and its keys, crosswise. -/
theorem doHandshake_ok {T : TlsCrates} {hsm : HsmDriver}
    {p : HandshakeParams} {pool : TlsPool} {i j : ConnIdx}
    {c d : TlsConnection} {drbg : CapDrbg} {s' : TlsState} {u : Unit}
    (hne : i ≠ j)
    (h : (doHandshake T hsm (ConnIdx.handle i) (ConnIdx.handle j) p.policy
      p.suite p.pskId).eval (.paired pool i j c d .new drbg) = (.ok u, s')) :
    ∃ (v : HandshakeTrace) (t : Transcript),
      v.Valid T p hsm drbg s'.drbg ∧
      t.bytes = v.throughClientFinished T p ∧
      s'.pool = pool.withPair i j
        (TlsConnection.keyed { c with transcript := t } v.clientKeys
          v.serverKeys)
        (TlsConnection.keyed { d with transcript := t } v.serverKeys
          v.clientKeys) := by
  unfold doHandshake doHandshakeBy at h
  obtain ⟨keys, s₁, hkeys, h₁⟩ := Prog.exists_of_eval_bind_eq_ok h
  obtain ⟨r, drbg₁, rfl, hdraws₁, rfl⟩ := ephemeralKeys_ok hkeys
  obtain ⟨-, h₂⟩ := failIf_bind_ok h₁
  obtain ⟨early, hearly, h₃⟩ := computeBoth_bind_ok h₂
  obtain ⟨ch, s₂, hch, h₄⟩ := Prog.exists_of_eval_bind_eq_ok h₃
  obtain ⟨clientRandom, binder, drbg₂, hdraws₂, rfl, hbinder, rfl⟩ :=
    clientHello_ok hch
  obtain ⟨t₁, ht₁, h₅⟩ := updateTranscripts_bind_ok hne h₄
  obtain ⟨⟨sh, shared⟩, s₃, hsh, h₆⟩ := Prog.exists_of_eval_bind_eq_ok h₅
  obtain ⟨serverRandom, m, xss, ct, kem, drbg₃, hdraws₃, rfl, hxss, hencaps,
    rfl, rfl⟩ := serverHello_ok hsh
  obtain ⟨t₂, ht₂, h₇⟩ := updateTranscripts_bind_ok hne h₆
  have h₈ := transcriptHash_bind_ok hne h₇
  obtain ⟨hs, hhs, h₉⟩ := computeBoth_bind_ok h₈
  obtain ⟨serverFinKey, t₃, hserverFin, ht₃, h₁₀⟩ :=
    exchangeFinished_bind_ok hne h₉
  have h₁₁ := transcriptHash_bind_ok hne h₁₀
  obtain ⟨clientFinKey, t₄, hclientFin, ht₄, h₁₂⟩ :=
    exchangeFinished_bind_ok hne h₁₁
  have h₁₃ := transcriptHash_bind_ok hne h₁₂
  obtain ⟨app, happ, h₁₄⟩ := computeBoth_bind_ok h₁₃
  obtain ⟨u', s₄, hclient, h₁₅⟩ := Prog.exists_of_eval_bind_eq_ok h₁₄
  obtain ⟨clientKeys, serverKeys, hclientKeys, hserverKeys, rfl⟩ :=
    installKeys_ok (TlsPool.withPair_left hne) hclient
  dsimp only [TlsState.paired] at h₁₅
  rw [TlsPool.update_withPair_left hne] at h₁₅
  obtain ⟨write, read, hwrite, hread, rfl⟩ :=
    installKeys_ok TlsPool.withPair_right h₁₅
  obtain rfl := Except.ok.inj (hclientKeys.symm.trans hread)
  obtain rfl := Except.ok.inj (hserverKeys.symm.trans hwrite)
  -- assemble the trace; the transcripts are the messages so far
  let v : HandshakeTrace :=
    { random :=
        { r with
          clientRandom := clientRandom
          serverRandom := serverRandom
          mlkemM := m }
      early := early
      binder := binder
      xss := xss
      ct := ct
      kem := kem
      handshake := hs
      serverFinKey := serverFinKey
      clientFinKey := clientFinKey
      app := app
      clientKeys := clientKeys
      serverKeys := serverKeys }
  have hbytes₂ : t₂.bytes = v.throughServerHello T p := by
    rw [ht₂, ht₁]
    rfl
  have hbytes₃ : t₃.bytes = v.throughServerFinished T p := by
    rw [ht₃, hbytes₂]
    rfl
  have hbytes₄ : t₄.bytes = v.throughClientFinished T p := by
    rw [ht₄, hbytes₃]
    rfl
  rw [hbytes₂] at hhs
  rw [hbytes₄] at happ
  refine ⟨v, t₄, ?_, hbytes₄, ?_⟩
  · exact
      { draws := (hdraws₁.append hdraws₂).append hdraws₃
        early := hearly
        binder := hbinder
        xss := hxss
        encapsulated := hencaps
        handshake := hhs
        serverFinKey := hserverFin
        clientFinKey := hclientFin
        app := happ
        clientKeys := hclientKeys
        serverKeys := hserverKeys }
  · exact TlsPool.update_withPair_right _

/-! ## `run_loopback` -/

section Loopback

variable {T : TlsCrates} {hsm : HsmDriver} {profile : TlsProfile}
  {p : HandshakeParams} {s s' : TlsState} {clientH serverH : ConnHandle}

/-- A successful `run_loopback` has taken two free slots and run a successful
handshake on them. -/
theorem runLoopback_ok
    (h : (runLoopback T hsm profile p.policy p.suite p.pskId).eval s =
      (.ok (clientH, serverH), s')) :
    ∃ (i j : ConnIdx) (v : HandshakeTrace) (t : Transcript),
      i ≠ j ∧ clientH = ConnIdx.handle i ∧ serverH = ConnIdx.handle j ∧
      s.pool i = none ∧ s.pool j = none ∧
      v.Valid T p hsm s.drbg s'.drbg ∧
      t.bytes = v.throughClientFinished T p ∧
      s'.pool = s.pool.withPair i j
        (TlsConnection.keyed
          { TlsConnection.opened .client profile p.policy p.suite p.pskId with
            transcript := t } v.clientKeys v.serverKeys)
        (TlsConnection.keyed
          { TlsConnection.opened .server profile p.policy p.suite p.pskId with
            transcript := t } v.serverKeys v.clientKeys) := by
  unfold runLoopback at h
  rcases runLoopbackBy_cases T hsm hsm profile p.policy p.suite p.pskId s with
    ⟨-, heval⟩ | ⟨i, c, -, -, heval⟩ | ⟨i, j, hne, hi, hj, heval⟩
  · rw [heval] at h
    cases h
  · rw [heval] at h
    cases h
  · rw [heval] at h
    rcases hshake : (doHandshakeBy T hsm hsm (ConnIdx.handle i)
      (ConnIdx.handle j) p.policy p.suite p.pskId).eval _ with ⟨e | u, s₁⟩
    · rw [hshake] at h
      cases h
    · rw [hshake] at h
      cases h
      obtain ⟨v, t, hvalid, hbytes, hpool⟩ := doHandshake_ok (p := p)
        (c := .opened .client profile p.policy p.suite p.pskId)
        (d := .opened .server profile p.policy p.suite p.pskId) hne hshake
      exact ⟨i, j, v, t, hne, rfl, rfl, hi, hj, hvalid, hbytes, hpool⟩

end Loopback

/-- The connection is up, with the parameters asked for and fresh sequence
numbers. -/
structure TlsConnection.Established (c : TlsConnection) (side : TlsSide)
    (profile : TlsProfile) (policy : KexPolicy) (suite : CipherSuite) :
    Prop where
  state : c.state = .connected
  side : c.side = side
  profile : c.profile = profile
  policy : c.policy = policy
  suite : c.suite = suite
  writeSeq : c.appWrite.seq = 0
  readSeq : c.appRead.seq = 0

/-- When `run_loopback` succeeds, its two handles name distinct slots that were
free; both connections are established, each end reads with the key and the
initialisation vector that the other end writes with, their transcripts are
the same, and no other slot has changed. -/
theorem loopback_agreement (T : TlsCrates) (hsm : HsmDriver)
    (profile : TlsProfile) (policy : KexPolicy) (suite : CipherSuite)
    (pskId : PskId) {s s' : TlsState} {clientH serverH : ConnHandle}
    (h : (runLoopback T hsm profile policy suite pskId).eval s =
      (.ok (clientH, serverH), s')) :
    ∃ i j c d, clientH = ConnIdx.handle i ∧ serverH = ConnIdx.handle j ∧
      i ≠ j ∧ s.pool i = none ∧ s.pool j = none ∧
      s'.pool i = some c ∧ s'.pool j = some d ∧
      c.Established .client profile policy suite ∧
      d.Established .server profile policy suite ∧
      (c.appWrite.key = d.appRead.key ∧ c.appWrite.iv = d.appRead.iv) ∧
      (d.appWrite.key = c.appRead.key ∧ d.appWrite.iv = c.appRead.iv) ∧
      c.transcript = d.transcript ∧
      ∀ k, k ≠ i → k ≠ j → s'.pool k = s.pool k := by
  obtain ⟨i, j, v, t, hne, hclient, hserver, hi, hj, -, -, hpool⟩ :=
    runLoopback_ok (p := ⟨policy, suite, pskId⟩) h
  have hc := (congrFun hpool i).trans (TlsPool.withPair_left hne)
  have hd := (congrFun hpool j).trans TlsPool.withPair_right
  refine ⟨i, j, _, _, hclient, hserver, hne, hi, hj, hc, hd,
    ⟨rfl, rfl, rfl, rfl, rfl, rfl, rfl⟩, ⟨rfl, rfl, rfl, rfl, rfl, rfl, rfl⟩,
    ⟨rfl, rfl⟩, ⟨rfl, rfl⟩, rfl, ?_⟩
  intro k hki hkj
  rw [hpool]
  exact TlsPool.withPair_of_ne hki hkj

/-- An empty pool and a DRBG with four draws left. -/
def TlsState.fourDraws : TlsState where
  pool := .empty
  drbg := some (List.replicate 4 (.generated fun _ => 0))

theorem loopback_agreement_classical :
    ∃ clientH serverH s',
      (runLoopback .constant .accepting .closed .classical .aes256GcmSha256
          Buf.zero).eval .fourDraws = (.ok (clientH, serverH), s') ∧
        ∃ i j c d, clientH = ConnIdx.handle i ∧ serverH = ConnIdx.handle j ∧
          s'.pool i = some c ∧ s'.pool j = some d ∧
          c.transcript = d.transcript := by
  have hok : ((runLoopback .constant .accepting .closed .classical
      .aes256GcmSha256 Buf.zero).eval .fourDraws).1.isOk = true := by
    decide +kernel
  rcases heval : (runLoopback .constant .accepting .closed .classical
    .aes256GcmSha256 Buf.zero).eval .fourDraws with ⟨e | handles, s'⟩
  · rw [heval] at hok
    cases hok
  · obtain ⟨i, j, c, d, hclient, hserver, -, -, -, hc, hd, -, -, -, -, htr,
      -⟩ := loopback_agreement .constant .accepting .closed .classical
        .aes256GcmSha256 Buf.zero heval
    exact ⟨handles.1, handles.2, s', rfl, i, j, c, d, hclient, hserver, hc,
      hd, htr⟩

end IsoLightK0
