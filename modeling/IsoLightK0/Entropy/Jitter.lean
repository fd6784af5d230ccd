import IsoLightK0.Support.Bytes
import Mathlib.Data.Finset.Card
import Mathlib.Data.Fintype.Basic

/-!
# Octets from clock jitter

`jitter_collect_byte` reads the cycle counter three times in a round and looks
at the parities of the two differences.  A pair of different parities gives a
bit, a pair of equal ones gives none; the eighth bit completes the octet.

A pair and the exchanged pair give opposite bits, and the rounds that follow do
not notice the difference.  So every exchange flips one bit of the octet, and a
family of readings that is closed under exchanges gives every octet equally
often.

The memory fold between two readings takes time and nothing else, since its
result is dropped.  It has no counterpart here.
-/

namespace IsoLightK0

open Bytes

def samplesPerByte : ℕ := 64

def deltaParity (earlier later : BitVec 64) : Byte :=
  (later - earlier).setWidth 8 &&& 1

def parities (readings : ℕ → BitVec 64) (i : ℕ) : Byte × Byte :=
  (deltaParity (readings (3 * i)) (readings (3 * i + 1)),
    deltaParity (readings (3 * i + 1)) (readings (3 * i + 2)))

def debias (pair : Byte × Byte) : Option Byte :=
  if pair = (0, 1) then some 0
  else if pair = (1, 0) then some 1
  else none

/-- The loop is running with fewer than eight bits, or has returned. -/
inductive JitterState
  | running (accumulator : Byte) (bitCount : Fin 8)
  | returned (byte : Byte)

namespace JitterState

/-- The number of bits collected, while the loop is running. -/
def bitCount? : JitterState → Option (Fin 8)
  | running _ bitCount => some bitCount
  | returned _ => none

def byte? : JitterState → Option Byte
  | running _ _ => none
  | returned byte => some byte

end JitterState

/-- One round of the loop.  The eighth bit ends it. -/
def jitterRound (pair : Byte × Byte) : JitterState → JitterState
  | .returned byte => .returned byte
  | .running accumulator bitCount =>
    match debias pair with
    | none => .running accumulator bitCount
    | some bit =>
      if h : bitCount.val + 1 < 8 then
        .running (accumulator <<< 1 ||| bit) ⟨bitCount.val + 1, h⟩
      else .returned (accumulator <<< 1 ||| bit)

def jitterAfter (readings : ℕ → BitVec 64) : ℕ → JitterState
  | 0 => .running 0 0
  | i + 1 => jitterRound (parities readings i) (jitterAfter readings i)

/-- `jitter_collect_byte`, on the readings of the cycle counter in order. -/
def jitterCollectByte (disabled : Bool) (readings : ℕ → BitVec 64) :
    Option Byte :=
  if disabled then none else (jitterAfter readings samplesPerByte).byte?

/-- The pair of round `k` gives the bit number `n` of the octet. -/
structure ContributesAs (readings : ℕ → BitVec 64) (k : ℕ) (n : Fin 8) :
    Prop where
  lt : k < samplesPerByte
  count : (jitterAfter readings k).bitCount? = some n
  gives : (debias (parities readings k)).isSome

structure Exchanged (k : ℕ) (readings readings' : ℕ → BitVec 64) : Prop where
  swapped : parities readings' k = (parities readings k).swap
  same : ∀ j < samplesPerByte, j ≠ k → parities readings' j = parities readings j

/-! ## Two runs side by side -/

variable {bit : Byte} {n : Fin 8} {accumulator : Byte}

theorem debias_swap {pair : Byte × Byte} (h : debias pair = some bit) :
    debias pair.swap = some (bit ^^^ 1) ∧ bit &&& 1 = bit := by
  unfold debias at h
  split at h
  · rename_i hpair
    obtain rfl := Option.some.inj h
    rw [hpair]
    decide
  · split at h
    · rename_i hpair
      obtain rfl := Option.some.inj h
      rw [hpair]
      decide
    · cases h

/-- The two loops have collected equally many bits, and differ in the bit
number `n`. -/
inductive Flipped (n : Fin 8) : JitterState → JitterState → Prop
  | running {accumulator : Byte} {m : Fin 8} (hlt : n < m) :
      Flipped n (.running accumulator m)
        (.running (accumulator ^^^ BitVec.twoPow 8 (m - 1 - n : ℕ)) m)
  | returned {byte : Byte} :
      Flipped n (.returned byte)
        (.returned (byte ^^^ BitVec.twoPow 8 (7 - n : ℕ)))

theorem Flipped.bitCount?_eq {s s' : JitterState} (h : Flipped n s s') :
    s'.bitCount? = s.bitCount? := by
  cases h with
  | running hlt => rfl
  | returned => rfl

theorem append_flipped (hbit : bit &&& 1 = bit) (p : ℕ) :
    (accumulator ^^^ BitVec.twoPow 8 p) <<< 1 ||| bit =
      (accumulator <<< 1 ||| bit) ^^^ BitVec.twoPow 8 (p + 1) := by
  rw [← hbit]
  apply BitVec.eq_of_getLsbD_eq
  intro i hi
  rcases i with _ | i
  · simp
  · simp [hi]

theorem append_opposite (hbit : bit &&& 1 = bit) :
    accumulator <<< 1 ||| (bit ^^^ (1 : Byte)) =
      (accumulator <<< 1 ||| bit) ^^^ BitVec.twoPow 8 0 := by
  rw [← hbit]
  apply BitVec.eq_of_getLsbD_eq
  intro i hi
  rcases i with _ | i
  · simp
  · simp [hi]

theorem Flipped.round {s s' : JitterState} (h : Flipped n s s')
    (pair : Byte × Byte) :
    Flipped n (jitterRound pair s) (jitterRound pair s') := by
  cases h with
  | returned => exact .returned
  | @running accumulator m hlt =>
    have hup : (m - 1 - n : ℕ) + 1 = m + 1 - 1 - n := by omega
    unfold jitterRound
    rcases hbit : debias pair with _ | bit
    · exact .running hlt
    · dsimp only
      rw [append_flipped (debias_swap hbit).2, hup]
      split
      · rename_i hmore
        exact .running (m := ⟨m + 1, hmore⟩) (Nat.lt_succ_of_lt hlt)
      · rename_i hlast
        have hm : m + 1 - 1 - n = (7 - n : ℕ) := by omega
        rw [hm]
        exact .returned

theorem flipped_of_swap {pair : Byte × Byte} (hgives : (debias pair).isSome) :
    Flipped n (jitterRound pair (.running accumulator n))
      (jitterRound pair.swap (.running accumulator n)) := by
  obtain ⟨bit, hbit⟩ := Option.isSome_iff_exists.mp hgives
  obtain ⟨hswap, hsmall⟩ := debias_swap hbit
  unfold jitterRound
  rw [hbit, hswap]
  dsimp only
  rw [append_opposite hsmall]
  split
  · rename_i hmore
    have hzero : 0 = (n.val + 1 - 1 - n : ℕ) := by omega
    rw [hzero]
    exact .running (m := ⟨n + 1, hmore⟩) (Nat.lt_succ_self n)
  · rename_i hlast
    have hzero : 0 = (7 - n : ℕ) := by omega
    rw [hzero]
    exact .returned

section Exchange

variable {readings readings' : ℕ → BitVec 64} {k : ℕ} {n : Fin 8}

section Exchange

variable (hex : Exchanged k readings readings')

include hex

theorem Exchanged.jitterAfter_eq {j : ℕ} (hj : j ≤ k) (hk : k < samplesPerByte) :
    jitterAfter readings' j = jitterAfter readings j := by
  induction j with
  | zero => rfl
  | succ j ih =>
    rw [jitterAfter, jitterAfter, ih (by omega),
      hex.same j (by omega) (by omega)]

theorem Exchanged.flipped (hc : ContributesAs readings k n) {j : ℕ} (hj : k < j)
    (hle : j ≤ samplesPerByte) :
    Flipped n (jitterAfter readings j) (jitterAfter readings' j) := by
  induction j, hj using Nat.le_induction with
  | base =>
    have hcount := hc.count
    rw [jitterAfter, jitterAfter, hex.jitterAfter_eq le_rfl hc.lt, hex.swapped]
    rcases hs : jitterAfter readings k with ⟨accumulator, m⟩ | byte
    · rw [hs] at hcount
      obtain rfl : m = n := Option.some.inj hcount
      exact flipped_of_swap hc.gives
    · rw [hs] at hcount
      cases hcount
  | succ j hkj ih =>
    rw [jitterAfter, jitterAfter, hex.same j (by omega) (by omega)]
    exact (ih (by omega)).round _

theorem Exchanged.contributesAs_iff (hc : ContributesAs readings k n) (j : ℕ)
    (m : Fin 8) :
    ContributesAs readings' j m ↔ ContributesAs readings j m := by
  have hcount : j < samplesPerByte →
      (jitterAfter readings' j).bitCount? = (jitterAfter readings j).bitCount? := by
    intro hj
    rcases Nat.lt_or_ge k j with hlater | hearlier
    · exact (hex.flipped hc hlater hj.le).bitCount?_eq
    · rw [hex.jitterAfter_eq hearlier hc.lt]
  have hgives : j < samplesPerByte → ((debias (parities readings' j)).isSome ↔
      (debias (parities readings j)).isSome) := by
    intro hj
    by_cases hjk : j = k
    · subst hjk
      obtain ⟨bit, hbit⟩ := Option.isSome_iff_exists.mp hc.gives
      rw [hex.swapped, (debias_swap hbit).1, hbit]
      exact Iff.rfl
    · rw [hex.same j hj hjk]
  constructor
  · rintro ⟨hj, hbits, hbit⟩
    exact ⟨hj, (hcount hj).symm.trans hbits, (hgives hj).mp hbit⟩
  · rintro ⟨hj, hbits, hbit⟩
    exact ⟨hj, (hcount hj).trans hbits, (hgives hj).mpr hbit⟩

theorem Exchanged.jitterCollectByte_eq (hc : ContributesAs readings k n) :
    jitterCollectByte false readings' = (jitterCollectByte false readings).map
      (· ^^^ BitVec.twoPow 8 (7 - n : ℕ)) := by
  have hend := hex.flipped hc hc.lt le_rfl
  unfold jitterCollectByte
  generalize jitterAfter readings samplesPerByte = s at hend
  generalize jitterAfter readings' samplesPerByte = s' at hend
  cases hend with
  | running hlt => rfl
  | returned => rfl

end Exchange

def Past (n : Fin 8) (s : JitterState) : Prop :=
  ∀ m, s.bitCount? = some m → n < m

theorem past_of_jitterRound {pair : Byte × Byte} {s : JitterState}
    (h : Past n (jitterRound pair s)) :
    Past n s ∨ s.bitCount? = some n ∧ (debias pair).isSome := by
  rcases s with ⟨accumulator, m⟩ | byte
  · by_cases hlt : n < m
    · exact .inl fun _ hm => Option.some.inj hm ▸ hlt
    · right
      unfold jitterRound at h
      rcases hbit : debias pair with _ | bit
      · rw [hbit] at h
        exact absurd (h m rfl) hlt
      · rw [hbit] at h
        have hnext : n.val < m.val + 1 := by
          dsimp only at h
          split at h
          · exact h _ rfl
          · omega
        have hm : m = n := Fin.ext (by omega)
        exact ⟨congrArg some hm, rfl⟩
  · left
    rintro m ⟨⟩

/-- An octet that is returned has all its bits from some pair. -/
theorem exists_contributesAs {byte : Byte}
    (h : jitterCollectByte false readings = some byte) (n : Fin 8) :
    ∃ k, ContributesAs readings k n := by
  have hrun : ∀ i ≤ samplesPerByte, Past n (jitterAfter readings i) →
      ∃ k, ContributesAs readings k n := by
    intro i hi
    induction i with
    | zero => exact fun hpast => absurd (hpast 0 rfl) (Fin.not_lt_zero n)
    | succ i ih =>
      intro hpast
      rcases past_of_jitterRound hpast with hearlier | ⟨hcount, hgives⟩
      · exact ih (by omega) hearlier
      · exact ⟨i, hi, hcount, hgives⟩
  refine hrun samplesPerByte le_rfl ?_
  unfold jitterCollectByte at h
  rcases hs : jitterAfter readings samplesPerByte with ⟨accumulator, m⟩ | byte
  · rw [hs] at h
    cases h
  · rintro m ⟨⟩

end Exchange

/-! ## Families of readings -/

/-- A family of readings that is closed under exchanges of pairs that
contribute.  Different members are exchanged to different ones. -/
structure ExchangeFamily (ι : Type) where
  readings : ι → ℕ → BitVec 64
  exchange : ℕ → ι → ι
  exchanged : ∀ {i k n}, ContributesAs (readings i) k n →
    Exchanged k (readings i) (readings (exchange k i))
  injective : ∀ {i j k n}, ContributesAs (readings i) k n →
    ContributesAs (readings j) k n → exchange k i = exchange k j → i = j

namespace ExchangeFamily

variable {ι : Type} (F : ExchangeFamily ι)

noncomputable def pair (n : Fin 8) (i : ι) : ℕ :=
  Classical.epsilon fun k => ContributesAs (F.readings i) k n

noncomputable def flip (n : Fin 8) (i : ι) : ι := F.exchange (F.pair n i) i

variable {F} {i j : ι} {byte byte' : Byte}

section Flips

variable (h : jitterCollectByte false (F.readings i) = some byte)

include h

theorem contributesAs_pair (n : Fin 8) :
    ContributesAs (F.readings i) (F.pair n i) n :=
  Classical.epsilon_spec (exists_contributesAs h n)

theorem jitterCollectByte_flip (n : Fin 8) :
    jitterCollectByte false (F.readings (F.flip n i)) =
      some (byte ^^^ BitVec.twoPow 8 (7 - n : ℕ)) := by
  have hc := contributesAs_pair h n
  rw [flip, (F.exchanged hc).jitterCollectByte_eq hc, h, Option.map_some]

theorem pair_flip (n : Fin 8) : F.pair n (F.flip n i) = F.pair n i := by
  have hc := contributesAs_pair h n
  refine congrArg Classical.epsilon (funext fun k => propext ?_)
  exact (F.exchanged hc).contributesAs_iff hc k n

end Flips

theorem flip_injective
    (hi : jitterCollectByte false (F.readings i) = some byte)
    (hj : jitterCollectByte false (F.readings j) = some byte') (n : Fin 8)
    (h : F.flip n i = F.flip n j) : i = j := by
  have hpair : F.pair n i = F.pair n j := by
    rw [← pair_flip hi, ← pair_flip hj, h]
  refine F.injective (contributesAs_pair hi n) ?_ (k := F.pair n i) ?_
  · rw [hpair]
    exact contributesAs_pair hj n
  · have hflip := h
    unfold flip at hflip
    rw [hflip, hpair]

theorem card_le_card_flip [Fintype ι] (F : ExchangeFamily ι) (byte : Byte)
    (n : Fin 8) :
    (Finset.univ.filter fun i =>
        jitterCollectByte false (F.readings i) = some byte).card ≤
      (Finset.univ.filter fun i => jitterCollectByte false (F.readings i) =
        some (byte ^^^ BitVec.twoPow 8 (7 - n : ℕ))).card := by
  apply Finset.card_le_card_of_injOn (F.flip n)
  · intro i hi
    rw [Finset.mem_coe, Finset.mem_filter] at hi ⊢
    exact ⟨Finset.mem_univ _, jitterCollectByte_flip hi.2 n⟩
  · intro i hi j hj heq
    rw [Finset.mem_coe, Finset.mem_filter] at hi hj
    exact flip_injective hi.2 hj.2 n heq

end ExchangeFamily

/-- Exchanging the parities of a pair that contributes keeps whether an octet
is returned and which pairs contribute, and flips the bit of the pair.  A
finite family that is closed under such exchanges returns all octets equally
often. -/
theorem jitterCollectByte_unbiased :
    (∀ (readings readings' : ℕ → BitVec 64) (k : ℕ) (n : Fin 8),
      ContributesAs readings k n → Exchanged k readings readings' →
        ((jitterCollectByte false readings').isSome ↔
            (jitterCollectByte false readings).isSome) ∧
          (∀ j m, ContributesAs readings' j m ↔ ContributesAs readings j m) ∧
          ∀ byte, jitterCollectByte false readings = some byte →
            jitterCollectByte false readings' =
              some (byte ^^^ BitVec.twoPow 8 (7 - n : ℕ))) ∧
      ∀ (ι : Type) [Fintype ι] (F : ExchangeFamily ι) (byte byte' : Byte),
        (Finset.univ.filter fun i =>
            jitterCollectByte false (F.readings i) = some byte).card =
          (Finset.univ.filter fun i =>
            jitterCollectByte false (F.readings i) = some byte').card := by
  constructor
  · intro readings readings' k n hc hex
    rw [hex.jitterCollectByte_eq hc]
    refine ⟨by rw [Option.isSome_map], hex.contributesAs_iff hc, ?_⟩
    rintro byte heq
    rw [heq, Option.map_some]
  · intro ι _ F byte byte'
    refine eq_of_flips (f := fun byte => (Finset.univ.filter fun i =>
      jitterCollectByte false (F.readings i) = some byte).card) ?_ byte byte'
    intro byte p hp
    have hbit : (7 - (7 - p) : ℕ) = p := by omega
    have hback : byte ^^^ BitVec.twoPow 8 p ^^^ BitVec.twoPow 8 p = byte := by
      rw [BitVec.xor_assoc, BitVec.xor_self, BitVec.xor_zero]
    have hforth := F.card_le_card_flip byte ⟨7 - p, by omega⟩
    have hreturn := F.card_le_card_flip (byte ^^^ BitVec.twoPow 8 p)
      ⟨7 - p, by omega⟩
    rw [hbit] at hforth hreturn
    rw [hback] at hreturn
    exact le_antisymm hreturn hforth

/-- Readings whose first eight pairs give the bits of an octet. -/
def spelling (byte : Byte) (t : ℕ) : BitVec 64 :=
  if t % 3 = 0 then 0
  else if t % 3 = 1 ∧ byte.getMsbD (t / 3) = false then 0
  else 1

theorem parities_spelling (byte : Byte) (k : ℕ) :
    parities (spelling byte) k = if byte.getMsbD k then (1, 0) else (0, 1) := by
  have hdiv : (3 * k + 1) / 3 = k := by omega
  unfold parities spelling
  rw [hdiv]
  cases byte.getMsbD k with
  | false => simp [Nat.add_mod, deltaParity]
  | true => simp [Nat.add_mod, deltaParity]

theorem bitCount_spelling {byte : Byte} {k : ℕ}
    (h : (jitterAfter (spelling byte) k).bitCount? = some n) : n.val = k := by
  induction k generalizing n with
  | zero => exact congrArg Fin.val (Option.some.inj h).symm
  | succ k ih =>
    rw [jitterAfter] at h
    rcases hs : jitterAfter (spelling byte) k with ⟨accumulator, m⟩ | byte
    · obtain ⟨bit, hbit⟩ :
          ∃ bit, debias (parities (spelling byte) k) = some bit := by
        rw [parities_spelling]
        cases byte.getMsbD k with
        | false => exact ⟨0, rfl⟩
        | true => exact ⟨1, rfl⟩
      rw [hs, jitterRound, hbit] at h
      dsimp only at h
      split at h
      · obtain rfl := Option.some.inj h
        exact congrArg (· + 1) (ih (by rw [hs]; rfl))
      · cases h
    · rw [hs] at h
      cases h

theorem getMsbD_flipped (byte : Byte) {k : ℕ} (hk : k < 8) (j : ℕ) :
    (byte ^^^ BitVec.twoPow 8 (7 - k)).getMsbD j =
      (byte.getMsbD j ^^ decide (j = k)) := by
  rw [BitVec.getMsbD_eq_getLsbD, BitVec.getMsbD_eq_getLsbD]
  by_cases hj : j < 8
  · have hiff : 7 - k = 8 - 1 - j ↔ j = k := by omega
    have hlt : 7 - k < 8 := by omega
    simp [hj, hiff, hlt]
  · have hne : j ≠ k := by omega
    simp [hj, hne]

/-- One sequence of readings for every octet. -/
def spellings : ExchangeFamily (Fin 256) where
  readings i := spelling (.ofFin i)
  exchange k i := (BitVec.ofFin i ^^^ BitVec.twoPow 8 (7 - k)).toFin
  exchanged {i k n} hc := by
    have hk : k < 8 := bitCount_spelling hc.count ▸ n.isLt
    have hbit := getMsbD_flipped (.ofFin i) hk
    constructor
    · rw [parities_spelling, parities_spelling, hbit]
      cases (BitVec.ofFin (w := 8) i).getMsbD k with
      | false => simp
      | true => simp
    · intro j _ hne
      rw [parities_spelling, parities_spelling, hbit]
      simp [hne]
  injective _ _ h := by
    have hxor := BitVec.eq_of_toFin_eq h
    exact congrArg BitVec.toFin ((BitVec.xor_left_inj _).mp hxor)

theorem jitterCollectByte_unbiased_spellings :
    ContributesAs (spelling 0x80) 0 0 ∧
      jitterCollectByte false (spelling 0x80) = some 0x80 ∧
      jitterCollectByte false (spelling 0) =
        some (0x80 ^^^ BitVec.twoPow 8 7) ∧
      (Finset.univ.filter fun i =>
          jitterCollectByte false (spellings.readings i) = some 0).card =
        (Finset.univ.filter fun i =>
          jitterCollectByte false (spellings.readings i) = some 0xFF).card := by
  have hc : ContributesAs (spelling 0x80) 0 0 := ⟨by decide, rfl, by decide⟩
  have hbyte : jitterCollectByte false (spelling 0x80) = some 0x80 := by decide
  exact ⟨hc, hbyte,
    (jitterCollectByte_unbiased.1 _ (spelling 0) 0 0 hc
      (spellings.exchanged (i := 0x80) hc)).2.2 0x80 hbyte,
    jitterCollectByte_unbiased.2 (Fin 256) spellings 0 0xFF⟩

end IsoLightK0
