import IsoLightK0.Keystore.Model
import IsoLightK0.Support.Sha256
import IsoLightK0.Tls.Agreement

/-!
# The key schedule of the handshake against RFC 8446

The functions of `keyschedule.rs` compute the derivations of the RFC, each over
the transcript hash that it is given.  The second part writes down the secrets
of a handshake as the RFC has them, over the kernel's own encoding of the
messages, and compares a completed handshake with them.  The binder, the
handshake secrets and both finished messages are those of the RFC.  The
application secrets are derived over all four messages, where the RFC stops at
the server's finished message, so that the application keys are never those of
the RFC unless SHA-256 collides.
-/

namespace IsoLightK0

open Bytes Triples

section Derivations

variable (sha256 : List Byte → Buf 32)

theorem hkdfExpandLabel_of_fits (secret : Buf 32) {label context : List Byte}
    {outLen : ℕ} (hfits : 10 + label.length + context.length ≤ labelBufLen)
    (hout : outLen ≤ hkdfMaxOutput) :
    hkdfExpandLabel sha256 secret label context outLen =
      .ok ((sha256Hash sha256).expandLabel secret.toList label context
        outLen) := by
  have hmax : outLen ≤ 168 := hout
  have hbound : 10 + label.length + context.length ≤ 128 := hfits
  have hlengths : ¬ (255 < 6 + label.length ∨ 255 < context.length) := by
    omega
  have hlong : ¬ 65535 < outLen := by omega
  have hbuffer : ¬ labelBufLen ≤ 9 + label.length := by omega
  have htotal : ¬ labelBufLen < 10 + label.length + context.length :=
    Nat.not_lt.mpr hfits
  have hinfo : (toLe 2 outLen).reverse ++
      [BitVec.ofNat 8 (6 + label.length)] ++
      ascii ['t', 'l', 's', '1', '3', ' '] ++ label ++
      [BitVec.ofNat 8 context.length] ++ context =
        Kdf.hkdfLabel label context outLen := by
    have hsix : 6 + label.length = label.length + 6 := Nat.add_comm _ _
    simp [Kdf.hkdfLabel, Kdf.text, ascii, hsix]
  rw [hkdfExpandLabel, if_neg hlengths, if_neg hlong, if_neg hbuffer,
    if_neg htotal]
  dsimp only
  rw [hinfo, hkdfExpand_eq sha256 hout]
  rfl

variable {sha256}

theorem deriveSecret_ok {prk secret : Buf 32} {label messages : List Byte}
    (hlabel : label.length ≤ 12)
    (h : deriveSecret sha256 prk label (sha256 messages) = .ok secret) :
    secret.toList =
      (sha256Hash sha256).deriveSecret prk.toList label messages := by
  have hfits : 10 + label.length + (sha256 messages).toList.length ≤ 128 := by
    rw [Buf.length_toList]
    omega
  rw [deriveSecret, hkdfExpandLabel_of_fits sha256 prk hfits (by decide)] at h
  obtain rfl := Except.ok.inj h
  exact Buf.toList_ofList ((sha256Hash sha256).length_deriveSecret _ _ _)

theorem deriveFinishedKey_ok {secret key : Buf 32}
    (h : deriveFinishedKey sha256 secret = .ok key) :
    key.toList = (sha256Hash sha256).finishedKey secret.toList := by
  rw [deriveFinishedKey, hkdfExpandLabel_of_fits sha256 secret (by decide)
    (by decide)] at h
  obtain rfl := Except.ok.inj h
  exact Buf.toList_ofList ((sha256Hash sha256).length_expandLabel _ _ _ _)

theorem toList_computeVerifyData {secret key : Buf 32}
    (h : deriveFinishedKey sha256 secret = .ok key) (messages : List Byte) :
    (computeVerifyData sha256 key (sha256 messages)).toList =
      (sha256Hash sha256).verifyData secret.toList messages := by
  rw [computeVerifyData, toList_hmacSha256Multi, List.flatten_singleton,
    deriveFinishedKey_ok h]
  rfl

theorem computeBinder_ok {binderKey binder : Buf 32} {messages : List Byte}
    (h : computeBinder sha256 binderKey (sha256 messages) = .ok binder) :
    binder.toList =
      (sha256Hash sha256).verifyData binderKey.toList messages := by
  obtain ⟨key, hkey, hrest⟩ := exists_of_bind_eq_ok h
  obtain rfl := Except.ok.inj hrest
  exact toList_computeVerifyData hkey messages

theorem deriveTrafficKeys_ok {secret : Buf 32} {keys : Buf 32 × Buf 12}
    (h : deriveTrafficKeys sha256 secret = .ok keys) :
    keys.1.toList = (sha256Hash sha256).writeKey secret.toList 32 ∧
      keys.2.toList = (sha256Hash sha256).writeIv secret.toList 12 := by
  rw [deriveTrafficKeys,
    hkdfExpandLabel_of_fits sha256 secret (by decide) (by decide),
    hkdfExpandLabel_of_fits sha256 secret (by decide) (by decide)] at h
  obtain rfl := Except.ok.inj h
  constructor
  · exact Buf.toList_ofList ((sha256Hash sha256).length_expandLabel _ _ _ _)
  · exact Buf.toList_ofList ((sha256Hash sha256).length_expandLabel _ _ _ _)

/-- The driver holds `psk` under the id: it extracts from it. -/
def HsmDriver.Holds (sha256 : List Byte → Buf 32) (hsm : HsmDriver)
    (pskId : PskId) (psk : List Byte) : Prop :=
  ∀ salt, hsm.pskHkdfExtract pskId salt = .ok (hkdfExtract sha256 salt psk)

theorem SoftKeystore.holds_of_provision {k k' : SoftKeystore} {id : PskId}
    {material : List Byte} (h : k.provision id material = (.ok (), k')) :
    (k'.driver sha256).Holds sha256 id material := by
  rcases k.provision_cases id material with
    ⟨e, heq, -⟩ | ⟨i, heq, hpos, hmax, hfresh, -⟩
  · rw [heq] at h
    cases h
  · rw [heq] at h
    cases h
    have hfind : (k.setSlot i ((k.slots i).fill id material)).findProvisioned
        id = some i := by
      rw [findProvisioned_eq_some_iff]
      refine ⟨?_, ?_⟩
      · rw [ProvisionedAs, slots_setSlot_self]
        exact ⟨rfl, rfl⟩
      · intro j hji hj
        rw [ProvisionedAs, slots_setSlot_of_ne _ hji.ne] at hj
        exact hfresh j (ProvisionedAs.carriesId hj)
    intro salt
    have hlen : material.length ≠ 0 := Nat.pos_iff_ne_zero.mp hpos
    change pskHkdfExtract sha256 _ id salt = _
    rw [pskHkdfExtract, hfind]
    dsimp only
    rw [slots_setSlot_self, PskSlot.psk_fill _ _ hmax]
    exact if_neg hlen

theorem deriveEarlySecrets_ok {hsm : HsmDriver} {pskId : PskId}
    {psk : List Byte} {out early : ScheduleSecrets}
    (hpsk : hsm.Holds sha256 pskId psk)
    (h : deriveEarlySecrets sha256 hsm pskId out = .ok early) :
    early.early.toList = (sha256Hash sha256).earlySecret psk ∧
      early.binderKey.toList = (sha256Hash sha256).binderKey
        ((sha256Hash sha256).earlySecret psk) := by
  have hextract : (hkdfExtract sha256 zeroHash psk).toList =
      (sha256Hash sha256).earlySecret psk :=
    toList_hkdfExtract sha256 zeroHash psk
  rw [deriveEarlySecrets, hpsk] at h
  obtain ⟨key, hkey, hrest⟩ := exists_of_bind_eq_ok h
  obtain rfl := Except.ok.inj hrest
  refine ⟨hextract, ?_⟩
  rw [← hextract]
  exact deriveSecret_ok (by decide) hkey

theorem toList_extract_derived {secret salt : Buf 32}
    (hsalt : deriveSecret sha256 secret derivedLabel (sha256 []) = .ok salt)
    (ikm : List Byte) :
    (hkdfExtract sha256 salt.toList ikm).toList =
      (sha256Hash sha256).extract
        ((sha256Hash sha256).derived secret.toList) ikm := by
  rw [toList_hkdfExtract, deriveSecret_ok (by decide) hsalt]
  rfl

theorem deriveHandshakeSecrets_ok {secrets out : ScheduleSecrets}
    {shared messages early : List Byte} {policy : KexPolicy}
    (hearly : secrets.early.toList = early)
    (h : deriveHandshakeSecrets sha256 secrets shared (sha256 messages)
      policy = .ok out) :
    out.handshake.toList =
        (sha256Hash sha256).handshakeSecret early shared ∧
      out.clientHandshakeTraffic.toList =
        (sha256Hash sha256).clientHandshakeTraffic
          ((sha256Hash sha256).handshakeSecret early shared) messages ∧
      out.serverHandshakeTraffic.toList =
        (sha256Hash sha256).serverHandshakeTraffic
          ((sha256Hash sha256).handshakeSecret early shared) messages := by
  subst hearly
  unfold deriveHandshakeSecrets at h
  extract_lets expected rest at h
  split at h
  · cases h
  · obtain ⟨salt, hsalt, h₁⟩ := exists_of_bind_eq_ok h
    obtain ⟨client, hclient, h₂⟩ := exists_of_bind_eq_ok h₁
    obtain ⟨server, hserver, h₃⟩ := exists_of_bind_eq_ok h₂
    obtain rfl := Except.ok.inj h₃
    have hextract := toList_extract_derived hsalt shared
    have hclientList := deriveSecret_ok (by decide) hclient
    have hserverList := deriveSecret_ok (by decide) hserver
    rw [hextract] at hclientList hserverList
    exact ⟨hextract, hclientList, hserverList⟩

theorem deriveMasterAndAppSecrets_ok {secrets out : ScheduleSecrets}
    {messages handshake : List Byte}
    (hhandshake : secrets.handshake.toList = handshake)
    (h : deriveMasterAndAppSecrets sha256 secrets (sha256 messages) =
      .ok out) :
    out.clientApplicationTraffic0.toList =
        (sha256Hash sha256).clientApplicationTraffic
          ((sha256Hash sha256).masterSecret handshake) messages ∧
      out.serverApplicationTraffic0.toList =
        (sha256Hash sha256).serverApplicationTraffic
          ((sha256Hash sha256).masterSecret handshake) messages := by
  subst hhandshake
  obtain ⟨salt, hsalt, h₁⟩ := exists_of_bind_eq_ok h
  obtain ⟨client, hclient, h₂⟩ := exists_of_bind_eq_ok h₁
  obtain ⟨server, hserver, h₃⟩ := exists_of_bind_eq_ok h₂
  obtain rfl := Except.ok.inj h₃
  have hextract := toList_extract_derived hsalt zeroHash
  have hclientList := deriveSecret_ok (by decide) hclient
  have hserverList := deriveSecret_ok (by decide) hserver
  rw [hextract] at hclientList hserverList
  exact ⟨hclientList, hserverList⟩

end Derivations

/-! ## The secrets of a handshake as the RFC has them -/

abbrev TlsCrates.hash (T : TlsCrates) : Kdf.Hash := sha256Hash T.sha256

structure HandshakeInput where
  params : HandshakeParams
  psk : List Byte
  random : HandshakeRandom

/-- The application keys and initialisation vectors of both directions. -/
structure ApplicationKeys where
  clientKey : List Byte
  clientIv : List Byte
  serverKey : List Byte
  serverIv : List Byte
  deriving DecidableEq

namespace HandshakeInput

section Rfc

variable (T : TlsCrates) (x : HandshakeInput)

def keys : Ephemeral := x.random.keys T x.params.policy

/-- The client hello up to its binder, in the encoding of the kernel. -/
def truncated : List Byte :=
  truncatedHello T x.params.policy x.params.suite x.params.pskId (x.keys T)
    x.random.clientRandom

def earlySecret : List Byte := T.hash.earlySecret x.psk

def binder : List Byte :=
  T.hash.verifyData (T.hash.binderKey (x.earlySecret T)) (x.truncated T)

/-- The ML-KEM ciphertext and secret; both are empty for the classical
policy. -/
def encapsulated : List Byte × List Byte :=
  (encapsulation T x.params.policy (x.keys T) x.random.mlkemM).getD ([], [])

/-- The X25519 secret, followed by the ML-KEM secret. -/
def sharedSecret : List Byte :=
  ((T.x25519DiffieHellman x.random.clientSeed
    (T.x25519PublicKey x.random.serverSeed)).map Buf.toList).getD [] ++
      (x.encapsulated T).2

/-- `ClientHello ... ServerHello`. -/
def throughServerHello : List Byte :=
  clientHelloMessage (x.truncated T) (x.binder T) ++
    (plainServerHello T x.params.policy x.params.suite (x.keys T)
      x.random.serverRandom ++ (x.encapsulated T).1)

def handshakeSecret : List Byte :=
  T.hash.handshakeSecret (x.earlySecret T) (x.sharedSecret T)

/-- `ClientHello ... server Finished`. -/
def throughServerFinished : List Byte :=
  x.throughServerHello T ++
    finishedMessage (T.hash.verifyData (T.hash.serverHandshakeTraffic
      (x.handshakeSecret T) (x.throughServerHello T)) (x.throughServerHello T))

/-- `ClientHello ... client Finished`. -/
def throughClientFinished : List Byte :=
  x.throughServerFinished T ++
    finishedMessage (T.hash.verifyData
      (T.hash.clientHandshakeTraffic (x.handshakeSecret T)
        (x.throughServerHello T)) (x.throughServerFinished T))

/-- The application keys that the schedule derives over `messages`; section 7.1
has `throughServerFinished` for them. -/
def applicationKeys (messages : List Byte) : ApplicationKeys :=
  let master := T.hash.masterSecret (x.handshakeSecret T)
  let client := T.hash.clientApplicationTraffic master messages
  let server := T.hash.serverApplicationTraffic master messages
  { clientKey := T.hash.writeKey client 32
    clientIv := T.hash.writeIv client 12
    serverKey := T.hash.writeKey server 32
    serverIv := T.hash.writeIv server 12 }

/-- What is hashed on the way from the master secret to the two write keys over
`messages`. -/
def applicationTexts (messages : List Byte) : List (List Byte) :=
  let master := T.hash.masterSecret (x.handshakeSecret T)
  T.hash.writeKeyTexts master
      (Kdf.text ['c', ' ', 'a', 'p', ' ', 't', 'r', 'a', 'f', 'f', 'i', 'c'])
      messages ++
    T.hash.writeKeyTexts master
      (Kdf.text ['s', ' ', 'a', 'p', ' ', 't', 'r', 'a', 'f', 'f', 'i', 'c'])
      messages

/-- SHA-256 does not collide on what is hashed for the application keys over
the messages through either finished message. -/
def NoCollision : Prop :=
  T.hash.NoCollision
    (x.applicationTexts T (x.throughServerFinished T) ++
      x.applicationTexts T (x.throughClientFinished T))

theorem throughClientFinished_ne :
    x.throughClientFinished T ≠ x.throughServerFinished T := by
  intro heq
  have hempty := List.append_right_eq_self.mp heq
  cases hempty

/-- Without a collision the client's finished message changes both keys. -/
theorem applicationKeys_ne (hfree : x.NoCollision T) :
    (x.applicationKeys T (x.throughClientFinished T)).clientKey ≠
        (x.applicationKeys T (x.throughServerFinished T)).clientKey ∧
      (x.applicationKeys T (x.throughClientFinished T)).serverKey ≠
        (x.applicationKeys T (x.throughServerFinished T)).serverKey := by
  have hsize : T.hash.size ≤ T.hash.block := show 32 ≤ 64 by decide
  have hmaster : (T.hash.masterSecret (x.handshakeSecret T)).length ≤
      T.hash.block := (T.hash.length_hmac _ _).trans_le hsize
  constructor
  · intro heq
    refine x.throughClientFinished_ne T
      (T.hash.writeKey_inj (hfree.mono ?_) hsize hmaster heq)
    grind [applicationTexts]
  · intro heq
    refine x.throughClientFinished_ne T
      (T.hash.writeKey_inj (hfree.mono ?_) hsize hmaster heq)
    grind [applicationTexts]

end Rfc

end HandshakeInput

/-- Random values that were drawn alike make the same keys and messages. -/
theorem HandshakeRandom.eq_of_draws_eq (T : TlsCrates) {policy : KexPolicy}
    {r r' : HandshakeRandom} (h : r.draws policy = r'.draws policy) :
    r.keys T policy = r'.keys T policy ∧
      r.clientRandom = r'.clientRandom ∧ r.serverRandom = r'.serverRandom ∧
      ∀ keys, encapsulation T policy keys r.mlkemM =
        encapsulation T policy keys r'.mlkemM := by
  cases policy with
  | classical =>
    obtain ⟨hclient, hserver, hch, hsh⟩ : r.clientSeed = r'.clientSeed ∧
        r.serverSeed = r'.serverSeed ∧ r.clientRandom = r'.clientRandom ∧
        r.serverRandom = r'.serverRandom := by
      simpa [draws, keyDraws, serverHelloDraws] using h
    refine ⟨?_, hch, hsh, fun keys => rfl⟩
    rw [keys, keys, hclient, hserver]
  | hybrid =>
    obtain ⟨hclient, hserver, hd, hz, hch, hsh, hm⟩ :
        r.clientSeed = r'.clientSeed ∧ r.serverSeed = r'.serverSeed ∧
        r.mlkemD = r'.mlkemD ∧ r.mlkemZ = r'.mlkemZ ∧
        r.clientRandom = r'.clientRandom ∧
        r.serverRandom = r'.serverRandom ∧ r.mlkemM = r'.mlkemM := by
      simpa [draws, keyDraws, serverHelloDraws] using h
    refine ⟨?_, hch, hsh, fun keys => by rw [hm]⟩
    rw [keys, keys, hclient, hserver, hd, hz]

theorem HandshakeRandom.length_draws (r r' : HandshakeRandom)
    (policy : KexPolicy) :
    (r.draws policy).length = (r'.draws policy).length := by
  cases policy <;> rfl

/-! ## A trace against the RFC -/

namespace HandshakeTrace

section Conformance

variable {T : TlsCrates} {x : HandshakeInput} {v : HandshakeTrace}
  {hsm : HsmDriver} {drbg drbg' : CapDrbg}
  (hpsk : hsm.Holds T.sha256 x.params.pskId x.psk)
  (hdraws : v.random.draws x.params.policy = x.random.draws x.params.policy)
  (hvalid : v.Valid T x.params hsm drbg drbg')

include hdraws in
theorem truncated_eq : v.truncated T x.params = x.truncated T := by
  obtain ⟨hkeys, hch, -, -⟩ := HandshakeRandom.eq_of_draws_eq T hdraws
  rw [truncated, HandshakeInput.truncated, keys, HandshakeInput.keys, hkeys,
    hch]

include hdraws hvalid in
theorem encapsulated_eq : x.encapsulated T = (v.ct, v.kem) := by
  obtain ⟨hkeys, -, -, hencaps⟩ := HandshakeRandom.eq_of_draws_eq T hdraws
  have hsome := hvalid.encapsulated
  rw [keys, hkeys, hencaps] at hsome
  rw [HandshakeInput.encapsulated, HandshakeInput.keys, hsome]
  rfl

include hdraws hvalid in
theorem sharedSecret_eq : x.sharedSecret T = v.xss.toList ++ v.kem := by
  obtain ⟨hkeys, -, -, -⟩ := HandshakeRandom.eq_of_draws_eq T hdraws
  have hclient : v.random.clientSeed = x.random.clientSeed :=
    congrArg Ephemeral.clientSk hkeys
  have hserver : v.random.serverSeed = x.random.serverSeed :=
    congrArg Ephemeral.serverSk hkeys
  have hxss := hvalid.xss
  rw [hclient, hserver] at hxss
  rw [HandshakeInput.sharedSecret, hxss, encapsulated_eq hdraws hvalid]
  rfl

include hpsk hdraws hvalid

theorem binder_eq : v.binder.toList = x.binder T := by
  obtain ⟨-, hkey⟩ := deriveEarlySecrets_ok hpsk hvalid.early
  rw [computeBinder_ok hvalid.binder, hkey, truncated_eq hdraws]
  rfl

theorem throughServerHello_eq :
    v.throughServerHello T x.params = x.throughServerHello T := by
  obtain ⟨hkeys, -, hsh, -⟩ := HandshakeRandom.eq_of_draws_eq T hdraws
  rw [throughServerHello, HandshakeInput.throughServerHello,
    truncated_eq hdraws, binder_eq hpsk hdraws hvalid,
    encapsulated_eq hdraws hvalid, keys, HandshakeInput.keys, hkeys, hsh]

/-- The handshake secrets of the trace are those of the RFC. -/
theorem handshakeSecrets_eq :
    v.handshake.handshake.toList = x.handshakeSecret T ∧
      v.handshake.clientHandshakeTraffic.toList =
        T.hash.clientHandshakeTraffic (x.handshakeSecret T)
          (x.throughServerHello T) ∧
      v.handshake.serverHandshakeTraffic.toList =
        T.hash.serverHandshakeTraffic (x.handshakeSecret T)
          (x.throughServerHello T) := by
  obtain ⟨hearly, -⟩ := deriveEarlySecrets_ok hpsk hvalid.early
  have hsecrets := deriveHandshakeSecrets_ok hearly hvalid.handshake
  rw [throughServerHello_eq hpsk hdraws hvalid,
    ← sharedSecret_eq hdraws hvalid] at hsecrets
  exact hsecrets

theorem throughServerFinished_eq :
    v.throughServerFinished T x.params = x.throughServerFinished T := by
  obtain ⟨-, -, hserver⟩ := handshakeSecrets_eq hpsk hdraws hvalid
  rw [throughServerFinished, HandshakeInput.throughServerFinished,
    toList_computeVerifyData hvalid.serverFinKey, hserver,
    throughServerHello_eq hpsk hdraws hvalid]

theorem throughClientFinished_eq :
    v.throughClientFinished T x.params = x.throughClientFinished T := by
  obtain ⟨-, hclient, -⟩ := handshakeSecrets_eq hpsk hdraws hvalid
  rw [throughClientFinished, HandshakeInput.throughClientFinished,
    toList_computeVerifyData hvalid.clientFinKey, hclient,
    throughServerFinished_eq hpsk hdraws hvalid]

theorem applicationKeys_eq :
    x.applicationKeys T (x.throughClientFinished T) =
      { clientKey := v.clientKeys.1.toList
        clientIv := v.clientKeys.2.toList
        serverKey := v.serverKeys.1.toList
        serverIv := v.serverKeys.2.toList } := by
  obtain ⟨hhandshake, -, -⟩ := handshakeSecrets_eq hpsk hdraws hvalid
  obtain ⟨hclient, hserver⟩ :=
    deriveMasterAndAppSecrets_ok hhandshake hvalid.app
  obtain ⟨hclientKey, hclientIv⟩ := deriveTrafficKeys_ok hvalid.clientKeys
  obtain ⟨hserverKey, hserverIv⟩ := deriveTrafficKeys_ok hvalid.serverKeys
  rw [hclientKey, hclientIv, hserverKey, hserverIv, hclient, hserver,
    throughClientFinished_eq hpsk hdraws hvalid]
  rfl

end Conformance

end HandshakeTrace

/-- What a client's connection writes and reads with. -/
def TlsConnection.keysAsClient (c : TlsConnection) : ApplicationKeys where
  clientKey := c.appWrite.key.toList
  clientIv := c.appWrite.iv.toList
  serverKey := c.appRead.key.toList
  serverIv := c.appRead.iv.toList

/-- What a server's connection reads and writes with. -/
def TlsConnection.keysAsServer (c : TlsConnection) : ApplicationKeys where
  clientKey := c.appRead.key.toList
  clientIv := c.appRead.iv.toList
  serverKey := c.appWrite.key.toList
  serverIv := c.appWrite.iv.toList

section Installed

variable {T : TlsCrates} {hsm : HsmDriver} {x : HandshakeInput}
  {pool : TlsPool} {i j : ConnIdx} {c d : TlsConnection}
  {drbg drbg' : CapDrbg} {s' : TlsState} {u : Unit}

/-- Both ends of a completed handshake have the keys that the schedule derives
over all four messages. -/
theorem doHandshake_installs (hpsk : hsm.Holds T.sha256 x.params.pskId x.psk)
    (hdraws : Delivers drbg (x.random.draws x.params.policy) drbg')
    (hne : i ≠ j)
    (h : (doHandshake T hsm (ConnIdx.handle i) (ConnIdx.handle j)
      x.params.policy x.params.suite x.params.pskId).eval
        (.paired pool i j c d .new drbg) = (.ok u, s')) :
    ∃ c' d', s'.pool i = some c' ∧ s'.pool j = some d' ∧
      c'.keysAsClient = x.applicationKeys T (x.throughClientFinished T) ∧
      d'.keysAsServer = x.applicationKeys T (x.throughClientFinished T) := by
  obtain ⟨v, t, hvalid, -, hpool⟩ := doHandshake_ok hne h
  have hrandom : v.random.draws x.params.policy =
      x.random.draws x.params.policy :=
    hvalid.draws.unique hdraws (HandshakeRandom.length_draws _ _ _)
  have hkeys := HandshakeTrace.applicationKeys_eq hpsk hrandom hvalid
  have hc := (congrFun hpool i).trans (TlsPool.withPair_left hne)
  have hd := (congrFun hpool j).trans TlsPool.withPair_right
  exact ⟨_, _, hc, hd, hkeys.symm, hkeys.symm⟩

end Installed

/-- When `do_handshake` succeeds on two fresh slots, both ends have the keys
over all four messages.  Unless SHA-256 collides on the texts of the run, none
of their write keys is the one that section 7.1 derives. -/
theorem installed_keys_never_follow_schedule (T : TlsCrates) {hsm : HsmDriver}
    (x : HandshakeInput) {pool : TlsPool} {i j : ConnIdx}
    {c d : TlsConnection} {drbg drbg' : CapDrbg} {s' : TlsState} {u : Unit}
    (hpsk : hsm.Holds T.sha256 x.params.pskId x.psk)
    (hdraws : Delivers drbg (x.random.draws x.params.policy) drbg')
    (hne : i ≠ j) (hfree : x.NoCollision T)
    (h : (doHandshake T hsm (ConnIdx.handle i) (ConnIdx.handle j)
      x.params.policy x.params.suite x.params.pskId).eval
        (.paired pool i j c d .new drbg) = (.ok u, s')) :
    ∃ c' d', s'.pool i = some c' ∧ s'.pool j = some d' ∧
      c'.keysAsClient = x.applicationKeys T (x.throughClientFinished T) ∧
      d'.keysAsServer = x.applicationKeys T (x.throughClientFinished T) ∧
      ∀ keys ∈ [c'.keysAsClient, d'.keysAsServer],
        keys.clientKey ≠
            (x.applicationKeys T (x.throughServerFinished T)).clientKey ∧
          keys.serverKey ≠
            (x.applicationKeys T (x.throughServerFinished T)).serverKey := by
  obtain ⟨c', d', hc, hd, hclient, hserver⟩ :=
    doHandshake_installs hpsk hdraws hne h
  refine ⟨c', d', hc, hd, hclient, hserver, ?_⟩
  intro keys hkeys
  rw [hclient, hserver] at hkeys
  simp only [List.mem_cons, List.not_mem_nil, or_false, or_self] at hkeys
  rw [hkeys]
  exact x.applicationKeys_ne T hfree

/-! ### A sample handshake -/

/-- The crates with SHA-256 itself and fixed answers elsewhere. -/
def TlsCrates.hashing : TlsCrates :=
  { TlsCrates.constant with sha256 := Sha256.sha256 }

/-- A classical handshake with a PSK of sevens, all random values zero. -/
def HandshakeInput.sample : HandshakeInput where
  params := ⟨.classical, .aes256GcmSha256, Buf.zero⟩
  psk := List.replicate 32 7
  random := ⟨Buf.zero, Buf.zero, Buf.zero, Buf.zero, Buf.zero, Buf.zero,
    Buf.zero⟩

def SoftKeystore.sample : SoftKeystore :=
  (SoftKeystore.new.provision Buf.zero HandshakeInput.sample.psk).2

theorem SoftKeystore.holds_sample (sha256 : List Byte → Buf 32) :
    (SoftKeystore.sample.driver sha256).Holds sha256 Buf.zero
      HandshakeInput.sample.psk := by
  have hok : (SoftKeystore.new.provision Buf.zero
      HandshakeInput.sample.psk).1 = .ok () := by
    rw [provision_eq_ok_iff]
    refine ⟨by decide, by decide, ⟨⟨0, by decide⟩, rfl⟩, ?_⟩
    intro i hcarries
    exact hcarries.1 rfl
  exact holds_of_provision (Prod.ext hok rfl)

def ConnIdx.first : ConnIdx := ⟨0, by decide⟩

def ConnIdx.second : ConnIdx := ⟨1, by decide⟩

def sampleHandshake (T : TlsCrates) : Except TlsStop Unit × TlsState :=
  (doHandshake T (SoftKeystore.sample.driver T.sha256) ConnIdx.first.handle
    ConnIdx.second.handle .classical .aes256GcmSha256 Buf.zero).eval
      (.paired .empty ConnIdx.first ConnIdx.second .empty .empty .new
        TlsState.fourDraws.drbg)

theorem delivers_sample :
    Delivers TlsState.fourDraws.drbg
      (HandshakeInput.sample.random.draws .classical) (some []) :=
  ⟨_, rfl, _, rfl, _, rfl, _, rfl, rfl⟩

theorem sampleHandshake_hashing :
    ∃ s', sampleHandshake .hashing = (.ok (), s') := by
  have hok : (sampleHandshake .hashing).1.isOk = true := by decide +kernel
  rcases heval : sampleHandshake .hashing with ⟨e | u, s'⟩
  · rw [heval] at hok
    cases hok
  · exact ⟨s', rfl⟩

theorem noCollision_sample : HandshakeInput.sample.NoCollision .hashing := by
  unfold HandshakeInput.NoCollision Kdf.Hash.NoCollision
  decide +kernel

/-- The run of the sample, with its keys on both ends. -/
theorem installed_keys_never_follow_schedule_sample :
    ∃ s' c' d', sampleHandshake .hashing = (.ok (), s') ∧
      s'.pool ConnIdx.first = some c' ∧ s'.pool ConnIdx.second = some d' ∧
      c'.keysAsClient = HandshakeInput.sample.applicationKeys .hashing
        (HandshakeInput.sample.throughClientFinished .hashing) ∧
      ∀ keys ∈ [c'.keysAsClient, d'.keysAsServer],
        keys.clientKey ≠ (HandshakeInput.sample.applicationKeys .hashing
            (HandshakeInput.sample.throughServerFinished .hashing)).clientKey ∧
          keys.serverKey ≠ (HandshakeInput.sample.applicationKeys .hashing
            (HandshakeInput.sample.throughServerFinished
              .hashing)).serverKey := by
  obtain ⟨s', heval⟩ := sampleHandshake_hashing
  obtain ⟨c', d', hc, hd, hclient, -, hnever⟩ :=
    installed_keys_never_follow_schedule .hashing .sample
      (SoftKeystore.holds_sample _) delivers_sample (by decide)
      noCollision_sample heval
  exact ⟨s', c', d', heval, hc, hd, hclient, hnever⟩

/-- A handshake whose keys are not those of the RFC. -/
theorem installed_keys_miss_schedule :
    ∃ s' c', sampleHandshake .hashing = (.ok (), s') ∧
      s'.pool ConnIdx.first = some c' ∧
      c'.keysAsClient ≠ HandshakeInput.sample.applicationKeys .hashing
        (HandshakeInput.sample.throughServerFinished .hashing) := by
  obtain ⟨s', heval⟩ := sampleHandshake_hashing
  obtain ⟨c', d', hc, -, hclient, -⟩ := doHandshake_installs (x := .sample)
    (SoftKeystore.holds_sample _) delivers_sample (by decide) heval
  refine ⟨s', c', heval, hc, ?_⟩
  intro heq
  have hdiffer := HandshakeInput.sample.applicationKeys_ne .hashing
    noCollision_sample
  exact hdiffer.1 (congrArg ApplicationKeys.clientKey (hclient.symm.trans heq))

end IsoLightK0
