import IsoLightK0.Support.Bytes

/-!
# HMAC, HKDF and the TLS 1.3 key schedule

This module is independent of any particular program.  It writes down RFC 2104,
RFC 5869 and sections 4.4.4 and 7.1 of RFC 8446 over an arbitrary hash function
with its block size, all on octet strings.
-/

namespace Kdf

open Bytes

/-- A hash function as the RFCs use it: `size` is the length of a digest and
`block` the number of octets of one block. -/
structure Hash where
  digest : List Byte → List Byte
  size : ℕ
  block : ℕ
  length_digest : ∀ text, (digest text).length = size
  size_pos : 0 < size

namespace Hash

variable (H : Hash)

/-- The key, hashed if it is longer than a block, filled up with zeros. -/
def blockKey (key : List Byte) : List Byte :=
  let short := if H.block < key.length then H.digest key else key
  short ++ List.replicate (H.block - short.length) 0

/-- `H(K XOR opad, H(K XOR ipad, text))`. -/
def hmac (key text : List Byte) : List Byte :=
  H.digest ((H.blockKey key).map (fun b => b ^^^ 0x5c) ++
    H.digest ((H.blockKey key).map (fun b => b ^^^ 0x36) ++ text))

theorem length_hmac (key text : List Byte) :
    (H.hmac key text).length = H.size :=
  H.length_digest _

/-- `HKDF-Extract`. -/
def extract (salt ikm : List Byte) : List Byte := H.hmac salt ikm

/-- The strings `T(0)`, `T(1)`, ... of `HKDF-Expand`. -/
def expandBlock (prk info : List Byte) : ℕ → List Byte
  | 0 => []
  | i + 1 =>
    H.hmac prk (expandBlock prk info i ++ info ++ [BitVec.ofNat 8 (i + 1)])

/-- `T(i + 1) | ... | T(i + n)`. -/
def expandBlocks (prk info : List Byte) (i n : ℕ) : List Byte :=
  (List.range n).flatMap fun k => H.expandBlock prk info (i + k + 1)

/-- `HKDF-Expand`: the first `len` octets of `T(1) | ... | T(N)`, where `N` is
`len / size` rounded up. -/
def expand (prk info : List Byte) (len : ℕ) : List Byte :=
  (H.expandBlocks prk info 0 ((len + H.size - 1) / H.size)).take len

variable (prk info : List Byte)

theorem length_expandBlock_succ (i : ℕ) :
    (H.expandBlock prk info (i + 1)).length = H.size :=
  H.length_hmac _ _

theorem length_expandBlocks (i n : ℕ) :
    (H.expandBlocks prk info i n).length = H.size * n := by
  have hsize : ∀ k, (H.expandBlock prk info (i + k + 1)).length = H.size :=
    fun k => H.length_expandBlock_succ prk info (i + k)
  rw [expandBlocks, length_flatMap_of_size hsize, List.length_range]

theorem le_size_mul_blocks (len : ℕ) :
    len ≤ H.size * ((len + H.size - 1) / H.size) := by
  have hpos := H.size_pos
  have hround := Nat.div_add_mod (len + H.size - 1) H.size
  have hrest := Nat.mod_lt (len + H.size - 1) hpos
  omega

theorem expandBlocks_add (n m : ℕ) :
    H.expandBlocks prk info 0 (n + m) =
      H.expandBlocks prk info 0 n ++ H.expandBlocks prk info n m := by
  simp [expandBlocks, List.range_add, List.flatMap_append, List.flatMap_map]

/-- It does not matter if there are more blocks than needed. -/
theorem take_expandBlocks {n len : ℕ} (h : len ≤ H.size * n) :
    (H.expandBlocks prk info 0 n).take len = H.expand prk info len := by
  have hpos := H.size_pos
  have hle : (len + H.size - 1) / H.size ≤ n := by
    rw [← Nat.lt_succ_iff, Nat.div_lt_iff_lt_mul hpos, Nat.succ_mul,
      Nat.mul_comm n]
    omega
  obtain ⟨m, rfl⟩ := Nat.exists_eq_add_of_le hle
  have hshort := H.length_expandBlocks prk info 0 ((len + H.size - 1) / H.size)
  rw [expandBlocks_add, List.take_append_of_le_length, expand]
  rw [hshort]
  exact H.le_size_mul_blocks len

theorem length_expand (len : ℕ) : (H.expand prk info len).length = len := by
  have hblocks := H.le_size_mul_blocks len
  rw [expand, List.length_take, length_expandBlocks]
  exact Nat.min_eq_left hblocks

/-! ## RFC 8446, section 7.1 -/

end Hash

def text (chars : List Char) : List Byte :=
  chars.map fun c => BitVec.ofNat 8 c.toNat

/-- The `HkdfLabel` structure: the length as two octets, then the label with
its tag and the context, each behind one octet with its own length. -/
def hkdfLabel (label context : List Byte) (len : ℕ) : List Byte :=
  let tagged := text ['t', 'l', 's', '1', '3', ' '] ++ label
  (toLe 2 len).reverse ++ BitVec.ofNat 8 tagged.length :: tagged ++
    BitVec.ofNat 8 context.length :: context

namespace Hash

variable (H : Hash)

def expandLabel (secret label context : List Byte) (len : ℕ) : List Byte :=
  H.expand secret (hkdfLabel label context len) len

def deriveSecret (secret label messages : List Byte) : List Byte :=
  H.expandLabel secret label (H.digest messages) H.size

theorem length_expandLabel (secret label context : List Byte) (len : ℕ) :
    (H.expandLabel secret label context len).length = len :=
  H.length_expand _ _ len

theorem length_deriveSecret (secret label messages : List Byte) :
    (H.deriveSecret secret label messages).length = H.size :=
  H.length_expandLabel _ _ _ _

/-- The string of zeros that stands for an absent input. -/
def zeros : List Byte := List.replicate H.size 0

def earlySecret (psk : List Byte) : List Byte := H.extract H.zeros psk

/-- The secret that salts the next extraction of the schedule. -/
def derived (secret : List Byte) : List Byte :=
  H.deriveSecret secret (text ['d', 'e', 'r', 'i', 'v', 'e', 'd']) []

def handshakeSecret (early dhe : List Byte) : List Byte :=
  H.extract (H.derived early) dhe

def masterSecret (handshake : List Byte) : List Byte :=
  H.extract (H.derived handshake) H.zeros

/-- `binder_key` of an external PSK. -/
def binderKey (early : List Byte) : List Byte :=
  H.deriveSecret early
    (text ['e', 'x', 't', ' ', 'b', 'i', 'n', 'd', 'e', 'r']) []

def clientHandshakeTraffic (handshake messages : List Byte) : List Byte :=
  H.deriveSecret handshake
    (text ['c', ' ', 'h', 's', ' ', 't', 'r', 'a', 'f', 'f', 'i', 'c'])
    messages

def serverHandshakeTraffic (handshake messages : List Byte) : List Byte :=
  H.deriveSecret handshake
    (text ['s', ' ', 'h', 's', ' ', 't', 'r', 'a', 'f', 'f', 'i', 'c'])
    messages

/-- `finished_key` of section 4.4.4. -/
def finishedKey (baseKey : List Byte) : List Byte :=
  H.expandLabel baseKey (text ['f', 'i', 'n', 'i', 's', 'h', 'e', 'd']) []
    H.size

/-- `verify_data` of section 4.4.4, over the messages so far. -/
def verifyData (baseKey messages : List Byte) : List Byte :=
  H.hmac (H.finishedKey baseKey) (H.digest messages)

/-- `client_application_traffic_secret_0`. -/
def clientApplicationTraffic (master messages : List Byte) : List Byte :=
  H.deriveSecret master
    (text ['c', ' ', 'a', 'p', ' ', 't', 'r', 'a', 'f', 'f', 'i', 'c'])
    messages

/-- `server_application_traffic_secret_0`. -/
def serverApplicationTraffic (master messages : List Byte) : List Byte :=
  H.deriveSecret master
    (text ['s', ' ', 'a', 'p', ' ', 't', 'r', 'a', 'f', 'f', 'i', 'c'])
    messages

/-- `[sender]_write_key` of a traffic secret. -/
def writeKey (secret : List Byte) (keyLen : ℕ) : List Byte :=
  H.expandLabel secret (text ['k', 'e', 'y']) [] keyLen

/-- `[sender]_write_iv` of a traffic secret. -/
def writeIv (secret : List Byte) (ivLen : ℕ) : List Byte :=
  H.expandLabel secret (text ['i', 'v']) [] ivLen

/-! ## Derivations without a collision

A derived key determines what it was derived from as long as no two of the
texts that were hashed on the way have the same digest. -/

/-- The hash has no collision among `texts`. -/
def NoCollision (texts : List (List Byte)) : Prop :=
  ∀ a ∈ texts, ∀ b ∈ texts, H.digest a = H.digest b → a = b

variable {H} in
theorem NoCollision.mono {texts texts' : List (List Byte)}
    (h : H.NoCollision texts) (hsub : texts' ⊆ texts) :
    H.NoCollision texts' :=
  fun a ha b hb => h a (hsub ha) b (hsub hb)

theorem length_blockKey {key : List Byte} (h : key.length ≤ H.block) :
    (H.blockKey key).length = H.block := by
  simp only [blockKey, if_neg (Nat.not_lt.mpr h), List.length_append,
    List.length_replicate]
  exact Nat.add_sub_cancel' h

theorem blockKey_inj {key key' : List Byte} (h : key.length ≤ H.block)
    (hlen : key.length = key'.length)
    (heq : H.blockKey key = H.blockKey key') : key = key' := by
  have h' : key'.length ≤ H.block := hlen ▸ h
  simp only [blockKey, if_neg (Nat.not_lt.mpr h),
    if_neg (Nat.not_lt.mpr h')] at heq
  exact (List.append_inj heq hlen).1

/-- The two texts that `hmac` hashes, for a key of at most one block. -/
def hmacTexts (key text : List Byte) : List (List Byte) :=
  let inner := (H.blockKey key).map (fun b => b ^^^ 0x36) ++ text
  [inner, (H.blockKey key).map (fun b => b ^^^ 0x5c) ++ H.digest inner]

theorem hmac_inj {key key' text text' : List Byte}
    (hfree : H.NoCollision (H.hmacTexts key text ++ H.hmacTexts key' text'))
    (h : key.length ≤ H.block) (hlen : key.length = key'.length)
    (heq : H.hmac key text = H.hmac key' text') :
    key = key' ∧ text = text' := by
  have hpad : ∀ c : Byte, ((H.blockKey key).map (fun b => b ^^^ c)).length =
      ((H.blockKey key').map (fun b => b ^^^ c)).length := by
    intro c
    rw [List.length_map, List.length_map, H.length_blockKey h,
      H.length_blockKey (hlen ▸ h)]
  have houter := hfree _ (by simp [hmacTexts]) _ (by simp [hmacTexts]) heq
  obtain ⟨hblock, hdigest⟩ := List.append_inj houter (hpad _)
  have hinner := hfree _ (by simp [hmacTexts]) _ (by simp [hmacTexts]) hdigest
  have hxor : Function.Injective fun b : Byte => b ^^^ 0x5c :=
    fun _ _ hb => by simpa using hb
  exact ⟨H.blockKey_inj h hlen (List.map_injective_iff.mpr hxor hblock),
    (List.append_inj hinner (hpad _)).2⟩

/-- One digest of output is the first block. -/
theorem expand_size : H.expand prk info H.size = H.hmac prk (info ++ [1]) := by
  have hone : H.size ≤ H.size * 1 := (Nat.mul_one _).ge
  have hlen := H.length_hmac prk (info ++ [1])
  rw [← H.take_expandBlocks prk info hone]
  simp [expandBlocks, expandBlock, ← hlen]

theorem hkdfLabel_inj {label context context' : List Byte} {len : ℕ}
    (hlen : context.length = context'.length)
    (heq : hkdfLabel label context len ++ [1] =
      hkdfLabel label context' len ++ [1]) : context = context' := by
  have hlabel := List.append_cancel_right heq
  simp only [hkdfLabel, hlen, List.append_cancel_left_eq, List.cons.injEq,
    true_and] at hlabel
  exact hlabel

/-- The texts that are hashed between a secret and a write key of the length
of a digest, by way of the traffic secret for `label` over `messages`. -/
def writeKeyTexts (secret label messages : List Byte) : List (List Byte) :=
  messages ::
    (H.hmacTexts secret
        (hkdfLabel label (H.digest messages) H.size ++ [1]) ++
      H.hmacTexts (H.deriveSecret secret label messages)
        (hkdfLabel (text ['k', 'e', 'y']) [] H.size ++ [1]))

/-- Without a collision, a write key comes from one sequence of messages
only. -/
theorem writeKey_inj {secret label messages messages' : List Byte}
    (hfree : H.NoCollision (H.writeKeyTexts secret label messages ++
      H.writeKeyTexts secret label messages'))
    (hsize : H.size ≤ H.block) (hsecret : secret.length ≤ H.block)
    (heq : H.writeKey (H.deriveSecret secret label messages) H.size =
      H.writeKey (H.deriveSecret secret label messages') H.size) :
    messages = messages' := by
  have hderived := H.length_deriveSecret secret label
  -- back from the keys to the traffic secrets
  unfold writeKey expandLabel at heq
  rw [expand_size, expand_size] at heq
  have htraffic := (H.hmac_inj (hfree.mono (by grind [writeKeyTexts]))
    ((hderived _).trans_le hsize) ((hderived _).trans (hderived _).symm)
    heq).1
  -- and from these to the digests of the messages
  unfold deriveSecret expandLabel at htraffic
  rw [expand_size, expand_size] at htraffic
  have hinfo := (H.hmac_inj (hfree.mono (by grind [writeKeyTexts])) hsecret rfl
    htraffic).2
  have hdigest := hkdfLabel_inj
    ((H.length_digest _).trans (H.length_digest _).symm) hinfo
  exact hfree _ (by simp [writeKeyTexts]) _ (by simp [writeKeyTexts]) hdigest

end Hash

/-- A hash that takes its text in pieces. -/
structure HashObject (δ : Type) where
  State : Type
  new : State
  update : State → List Byte → State
  finalize : State → δ

namespace HashObject

variable {δ : Type}

/-- The object computes `digest`, however the text is cut into pieces. -/
def Computes (O : HashObject δ) (digest : List Byte → δ) : Prop :=
  ∀ pieces : List (List Byte),
    O.finalize (pieces.foldl O.update O.new) = digest pieces.flatten

/-- The object that keeps the whole text. -/
def collecting (digest : List Byte → δ) : HashObject δ where
  State := List Byte
  new := []
  update text piece := text ++ piece
  finalize := digest

theorem collecting_computes (digest : List Byte → δ) :
    (collecting digest).Computes digest := by
  have hfold : ∀ (pieces : List (List Byte)) (text : List Byte),
      pieces.foldl (fun text piece => text ++ piece) text =
        text ++ pieces.flatten := by
    intro pieces
    induction pieces with
    | nil => simp
    | cons piece pieces ih =>
      intro text
      rw [List.foldl_cons, ih, List.flatten_cons, List.append_assoc]
  intro pieces
  exact congrArg digest ((hfold pieces []).trans (List.nil_append _))

end HashObject

end Kdf
