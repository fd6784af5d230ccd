import IsoLightK0.Support.Kdf

/-!
# HMAC and HKDF

`hmac_sha256_multi` and the HKDF functions of `crypto_service.rs`.  SHA-256
comes from an external crate: its hash object, a parameter here, takes the pads
and the chunks one after the other.  The expansion fills the caller's buffer in
place, from two buffers that hold the current and the previous block.

If the hash object computes SHA-256, these are the functions of the RFCs.  The
rest of the development has SHA-256 as a function, and uses them with the
object that collects its text.
-/

namespace IsoLightK0

open Bytes

def sha256BlockSize : ℕ := 64

def hkdfMaxOutput : ℕ := 168

section Source

variable (O : Kdf.HashObject (Buf 32))

/-- `hmac_sha256_multi` with the hash object `O`. -/
def hmacSha256MultiOn (key : List Byte) (dataChunks : List (List Byte)) :
    Buf 32 :=
  let keyBlock : Buf sha256BlockSize :=
    if sha256BlockSize < key.length then
      let d := O.finalize (O.update O.new key)
      Buf.zero.blit 0 d.toList
    else Buf.zero.blit 0 key
  let ipad := keyBlock.map fun b => 0x36 ^^^ b
  let opad := keyBlock.map fun b => 0x5c ^^^ b
  let inner :=
    O.finalize (dataChunks.foldl O.update (O.update O.new ipad.toList))
  O.finalize (O.update (O.update O.new opad.toList) inner.toList)

/-- The variables of the loop of `hkdf_expand`, with the caller's buffer. -/
structure ExpandState where
  tPrev : Buf 32
  tCurr : Buf 32
  prevLen : ℕ
  produced : ℕ
  counter : Byte
  okm : List Byte

def ExpandState.round (prk : Buf 32) (info : List Byte) (s : ExpandState) :
    ExpandState :=
  let chunks :=
    if s.prevLen = 0 then [info, [s.counter]]
    else [s.tPrev.slice 0 s.prevLen, info, [s.counter]]
  let tCurr := hmacSha256MultiOn O prk.toList chunks
  let take := min 32 (s.okm.length - s.produced)
  { tPrev := tCurr
    tCurr := tCurr
    prevLen := 32
    produced := s.produced + take
    counter := s.counter + 1
    okm := s.okm.take s.produced ++ tCurr.slice 0 take ++
      s.okm.drop (s.produced + take) }

/-- The loop.  Every round produces an octet, so that as many rounds as there
are octets in the buffer are enough. -/
def ExpandState.run (prk : Buf 32) (info : List Byte) :
    ℕ → ExpandState → ExpandState
  | 0, s => s
  | fuel + 1, s =>
    if s.produced < s.okm.length then run prk info fuel (s.round O prk info)
    else s

/-- `hkdf_expand` into the buffer `okm`: the buffer afterwards, or `none` for
`OutputTooLarge`. -/
def hkdfExpandInto (prk : Buf 32) (info okm : List Byte) :
    Option (List Byte) :=
  if hkdfMaxOutput < okm.length then none
  else if 255 * 32 < okm.length then none
  else
    let start : ExpandState := ⟨Buf.zero, Buf.zero, 0, 0, 1, okm⟩
    some (start.run O prk info okm.length).okm

end Source

section Sha256

variable (sha256 : List Byte → Buf 32)

def hmacSha256Multi (key : List Byte) (dataChunks : List (List Byte)) :
    Buf 32 :=
  hmacSha256MultiOn (.collecting sha256) key dataChunks

def hkdfExtract (salt ikm : List Byte) : Buf 32 :=
  hmacSha256Multi sha256 salt [ikm]

/-- `hkdf_expand` into a new buffer of `okmLen` octets. -/
def hkdfExpand (prk : Buf 32) (info : List Byte) (okmLen : ℕ) :
    Option (List Byte) :=
  hkdfExpandInto (.collecting sha256) prk info (List.replicate okmLen 0)

/-- SHA-256 as the hash of the RFCs. -/
def sha256Hash : Kdf.Hash where
  digest text := (sha256 text).toList
  size := 32
  block := sha256BlockSize
  length_digest _ := Buf.length_toList _
  size_pos := by decide

end Sha256

/-! ## Agreement with the RFCs -/

theorem toList_hmacSha256MultiOn {O : Kdf.HashObject (Buf 32)}
    {sha256 : List Byte → Buf 32} (hO : O.Computes sha256) (key : List Byte)
    (chunks : List (List Byte)) :
    (hmacSha256MultiOn O key chunks).toList =
      (sha256Hash sha256).hmac key chunks.flatten := by
  have hone : ∀ a, O.finalize (O.update O.new a) = sha256 a := by
    intro a
    simpa using hO [a]
  have htwo : ∀ a b,
      O.finalize (O.update (O.update O.new a) b) = sha256 (a ++ b) := by
    intro a b
    simpa using hO [a, b]
  have hmany : ∀ a, O.finalize (chunks.foldl O.update (O.update O.new a)) =
      sha256 (a ++ chunks.flatten) := fun a => hO (a :: chunks)
  have hkey : (if sha256BlockSize < key.length then
        Buf.zero (n := sha256BlockSize).blit 0
          (O.finalize (O.update O.new key)).toList
      else Buf.zero.blit 0 key).toList = (sha256Hash sha256).blockKey key := by
    unfold Kdf.Hash.blockKey sha256Hash
    rw [hone, Buf.zero_blit, Buf.zero_blit]
    by_cases hlong : sha256BlockSize < key.length
    · have hdigest : (sha256 key).toList.length ≤ sha256BlockSize := by
        rw [Buf.length_toList]
        decide
      rw [if_pos hlong, if_pos hlong, Buf.toList_ofList_of_le hdigest]
    · rw [if_neg hlong, if_neg hlong,
        Buf.toList_ofList_of_le (Nat.not_lt.mp hlong)]
  have hpad : ∀ c : Byte, ((sha256Hash sha256).blockKey key).map (c ^^^ ·) =
      ((sha256Hash sha256).blockKey key).map (· ^^^ c) := fun c =>
    List.map_congr_left fun b _ => BitVec.xor_comm c b
  rw [hmacSha256MultiOn, Kdf.Hash.hmac]
  dsimp only
  rw [htwo, hmany, Buf.toList_map, Buf.toList_map, hkey, hpad, hpad]
  rfl

/-- The state of the loop after `i` blocks, for a buffer of `n` octets. -/
structure ExpandState.After (sha256 : List Byte → Buf 32) (prk : Buf 32)
    (info : List Byte) (n i : ℕ) (s : ExpandState) : Prop where
  previous : s.tPrev.slice 0 s.prevLen =
    (sha256Hash sha256).expandBlock prk.toList info i
  counter : s.counter = BitVec.ofNat 8 (i + 1)
  length : s.okm.length = n
  produced : s.produced = min (32 * i) n
  front : s.okm.take s.produced =
    ((sha256Hash sha256).expandBlocks prk.toList info 0 i).take n

namespace ExpandState

variable {O : Kdf.HashObject (Buf 32)} {sha256 : List Byte → Buf 32}
  {prk : Buf 32} {info : List Byte} {n i : ℕ} {s : ExpandState}

theorem After.start (okm : List Byte) :
    After sha256 prk info okm.length 0
      ⟨Buf.zero, Buf.zero, 0, 0, 1, okm⟩ where
  previous := rfl
  counter := rfl
  length := rfl
  produced := (Nat.zero_min _).symm
  front := by simp [Kdf.Hash.expandBlocks]

theorem After.okm_eq (h : After sha256 prk info n i s) (hdone : n ≤ s.produced) :
    s.okm = (sha256Hash sha256).expand prk.toList info n := by
  have hproduced := h.produced
  have henough : n ≤ (sha256Hash sha256).size * i := by
    change n ≤ 32 * i
    omega
  rw [← Kdf.Hash.take_expandBlocks _ _ _ henough, ← h.front,
    List.take_of_length_le (h.length.trans_le hdone)]

section Computes

variable (hO : O.Computes sha256)

include hO

theorem After.tCurr_eq (h : After sha256 prk info n i s) :
    (s.round O prk info).tCurr.toList =
      (sha256Hash sha256).expandBlock prk.toList info (i + 1) := by
  have hchunks : (if s.prevLen = 0 then [info, [s.counter]]
      else [s.tPrev.slice 0 s.prevLen, info, [s.counter]]).flatten =
        s.tPrev.slice 0 s.prevLen ++ info ++ [s.counter] := by
    split
    · rename_i hfirst
      rw [hfirst]
      simp
    · simp
  rw [round, toList_hmacSha256MultiOn hO, hchunks, h.previous, h.counter]
  rfl

theorem After.round (h : After sha256 prk info n i s) (hmore : s.produced < n) :
    After sha256 prk info n (i + 1) (s.round O prk info) := by
  have hcurr := h.tCurr_eq hO
  have hblocks := (sha256Hash sha256).expandBlocks_add prk.toList info i 1
  have hlast : (sha256Hash sha256).expandBlocks prk.toList info i 1 =
      (s.round O prk info).tCurr.toList := by
    rw [hcurr]
    simp [Kdf.Hash.expandBlocks]
  have hlength := (sha256Hash sha256).length_expandBlocks prk.toList info 0 i
  have hsize : (sha256Hash sha256).size = 32 := rfl
  have hproduced := h.produced
  have hfull : s.produced = 32 * i := by omega
  have hfront : (s.okm.take s.produced).length = s.produced := by
    rw [List.length_take, h.length]
    omega
  set curr := (s.round O prk info).tCurr
  have hnext : (s.round O prk info).produced =
      s.produced + min 32 (n - s.produced) := by
    rw [← h.length]
    rfl
  have hokm : (s.round O prk info).okm = s.okm.take s.produced ++
      curr.slice 0 (min 32 (n - s.produced)) ++
      s.okm.drop (s.produced + min 32 (n - s.produced)) := by
    rw [← h.length]
    rfl
  refine ⟨hcurr, ?_, ?_, ?_, ?_⟩
  · change s.counter + 1 = _
    rw [h.counter]
    exact (BitVec.ofNat_add (i + 1) 1).symm
  · rw [hokm, List.length_append, List.length_append, hfront,
      Buf.length_slice, List.length_drop, h.length]
    omega
  · rw [hnext]
    omega
  · have hkept : (s.okm.take s.produced ++
        curr.slice 0 (min 32 (n - s.produced))).length =
          s.produced + min 32 (n - s.produced) := by
      rw [List.length_append, hfront, Buf.length_slice]
    rw [hnext, hokm, List.take_left' hkept, h.front, hblocks, hlast,
      List.take_append, hlength, hsize, Buf.slice_zero_min, hfull]

/-- The whole loop.  The induction is on the rounds that are left; each one
produces at least an octet. -/
theorem After.okm_run (h : After sha256 prk info n i s) {fuel : ℕ}
    (hfuel : n ≤ s.produced + fuel) :
    (s.run O prk info fuel).okm =
      (sha256Hash sha256).expand prk.toList info n := by
  induction fuel generalizing i s with
  | zero => exact h.okm_eq hfuel
  | succ fuel ih =>
    rw [run, h.length]
    by_cases hmore : s.produced < n
    · have hnext := h.round hO hmore
      have hproduced := h.produced
      have hproduced' := hnext.produced
      rw [if_pos hmore]
      exact ih hnext (by omega)
    · rw [if_neg hmore]
      exact h.okm_eq (Nat.not_lt.mp hmore)

end Computes

end ExpandState

theorem hkdfExpandInto_eq {O : Kdf.HashObject (Buf 32)}
    {sha256 : List Byte → Buf 32} (hO : O.Computes sha256) (prk : Buf 32)
    (info : List Byte) {okm : List Byte} (hlen : okm.length ≤ hkdfMaxOutput) :
    hkdfExpandInto O prk info okm =
      some ((sha256Hash sha256).expand prk.toList info okm.length) := by
  have hmax : okm.length ≤ 168 := hlen
  have hrounds : ¬ 255 * 32 < okm.length := by omega
  have hstart : ExpandState.After sha256 prk info okm.length 0
      ⟨Buf.zero, Buf.zero, 0, 0, 1, okm⟩ := .start okm
  rw [hkdfExpandInto, if_neg (Nat.not_lt.mpr hlen), if_neg hrounds]
  exact congrArg some (hstart.okm_run hO (Nat.le_add_left _ _))

section Sha256

variable (sha256 : List Byte → Buf 32)

theorem toList_hmacSha256Multi (key : List Byte) (chunks : List (List Byte)) :
    (hmacSha256Multi sha256 key chunks).toList =
      (sha256Hash sha256).hmac key chunks.flatten :=
  toList_hmacSha256MultiOn (Kdf.HashObject.collecting_computes sha256) key
    chunks

theorem toList_hkdfExtract (salt ikm : List Byte) :
    (hkdfExtract sha256 salt ikm).toList =
      (sha256Hash sha256).extract salt ikm := by
  rw [hkdfExtract, toList_hmacSha256Multi, List.flatten_singleton]
  rfl

variable {prk : Buf 32} {info : List Byte} {okmLen : ℕ}

theorem hkdfExpand_eq_none (h : hkdfMaxOutput < okmLen) :
    hkdfExpand sha256 prk info okmLen = none := by
  rw [hkdfExpand, hkdfExpandInto, List.length_replicate, if_pos h]

theorem hkdfExpand_eq (hlen : okmLen ≤ hkdfMaxOutput) :
    hkdfExpand sha256 prk info okmLen =
      some ((sha256Hash sha256).expand prk.toList info okmLen) := by
  rw [hkdfExpand, hkdfExpandInto_eq (Kdf.HashObject.collecting_computes sha256),
    List.length_replicate]
  rwa [List.length_replicate]

theorem length_hkdfExpand {okm : List Byte}
    (h : hkdfExpand sha256 prk info okmLen = some okm) :
    okm.length = okmLen := by
  by_cases hlen : okmLen ≤ hkdfMaxOutput
  · rw [hkdfExpand_eq sha256 hlen] at h
    rw [← Option.some.inj h, Kdf.Hash.length_expand]
  · rw [hkdfExpand_eq_none sha256 (Nat.lt_of_not_le hlen)] at h
    cases h

end Sha256

/-- With a hash object that computes SHA-256, `hmac_sha256_multi` is the HMAC
of RFC 2104 of the concatenated chunks, for keys of every length, and
`hkdf_expand` fills every buffer of up to 168 octets with the expansion of
RFC 5869. -/
theorem hmacSha256MultiOn_hkdfExpandInto_rfc (O : Kdf.HashObject (Buf 32))
    (sha256 : List Byte → Buf 32) (hO : O.Computes sha256) :
    (∀ (key : List Byte) (chunks : List (List Byte)),
      (hmacSha256MultiOn O key chunks).toList =
        (sha256Hash sha256).hmac key chunks.flatten) ∧
      ∀ (prk : Buf 32) (info okm : List Byte), okm.length ≤ 168 →
        hkdfExpandInto O prk info okm =
          some ((sha256Hash sha256).expand prk.toList info okm.length) := by
  constructor
  · intro key chunks
    exact toList_hmacSha256MultiOn hO key chunks
  · intro prk info okm hlen
    exact hkdfExpandInto_eq hO prk info hlen

/-- A hash object that keeps the text and digests it at the end. -/
theorem hkdfExpandInto_collecting :
    hkdfExpandInto (Kdf.HashObject.collecting (Buf.ofList 32)) Buf.zero [7]
        (List.replicate 40 0) =
      some ((sha256Hash (Buf.ofList 32)).expand (Buf.toList (Buf.zero (n := 32)))
        [7] 40) :=
  (hmacSha256MultiOn_hkdfExpandInto_rfc _ _
    (Kdf.HashObject.collecting_computes (Buf.ofList 32))).2 Buf.zero [7]
      (List.replicate 40 0) (by decide)

end IsoLightK0
