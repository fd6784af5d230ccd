import IsoLightK0.Entropy.Health

/-!
# The three entropy sources

The quorum asks a hardware source (`hw.rs`), a virtio device (`virtio_rng.rs`)
and the jitter of the processor clock (`jitter.rs`).  What the instructions, the
device and the clock answer during one call is given by `EntropySources` and
not restricted in any way.  The adapters are modelled as the source has them.
Apart from them, `Delivered` says what it means that a source gave a complete
sample.
-/

namespace IsoLightK0

open Bytes

inductive EntropyError
  | quorumFailed
  | sourceUnavailable
  | healthTestFailed
  deriving DecidableEq, Repr

/-- `SAMPLE_BYTES` and `VIRTIO_SCRATCH_LEN`. -/
def sampleBytes : ℕ := 32

def hwRngMaxRetries : ℕ := 1024

/-- The features of the processor, and what the executions of the two
instructions answer, in the order in which they are executed. -/
structure HwRng where
  rdseed : Bool
  rdrand : Bool
  rdseed64 : ℕ → Option (BitVec 64)
  rdrand64 : ℕ → Option (BitVec 64)

/-- How many executions of each instruction there were. -/
structure HwRng.Used where
  seeds : ℕ
  rands : ℕ

/-- At most `retries` executions, up to the first that gives a value. -/
def firstAnswer {α : Type} (answers : ℕ → Option α) :
    ℕ → ℕ → Option α × ℕ
  | 0, used => (none, used)
  | retries + 1, used =>
    match answers used with
    | some v => (some v, used + 1)
    | none => firstAnswer answers retries (used + 1)

namespace HwRng

/-- The value of one round: RDSEED first, then RDRAND. -/
def value (d : HwRng) (u : Used) : Option (BitVec 64) × Used :=
  let seed :=
    if d.rdseed then firstAnswer d.rdseed64 hwRngMaxRetries u.seeds
    else (none, u.seeds)
  match seed.1 with
  | some v => (some v, ⟨seed.2, u.rands⟩)
  | none =>
    let rand :=
      if d.rdrand then firstAnswer d.rdrand64 hwRngMaxRetries u.rands
      else (none, u.rands)
    (rand.1, ⟨seed.2, rand.2⟩)

/-- The loop of `collect_hw_into`.  Every round fills at least one octet, so
that as many rounds as the buffer has octets are enough. -/
def fill {n : ℕ} (d : HwRng) :
    ℕ → Used → ℕ → Buf n → Except EntropyError Unit × Buf n
  | 0, _, _, buf => (.ok (), buf)
  | rounds + 1, u, offset, buf =>
    if offset < n then
      match d.value u with
      | (none, _) => (.error .sourceUnavailable, buf)
      | (some v, u') =>
        let chunk := min 8 (n - offset)
        d.fill rounds u' (offset + chunk)
          (buf.blit offset ((wordToLe 8 v).take chunk))
    else (.ok (), buf)

def collectHwInto {n : ℕ} (d : HwRng) (buf : Buf n) :
    Except EntropyError Unit × Buf n :=
  if d.rdseed = false ∧ d.rdrand = false then (.error .sourceUnavailable, buf)
  else d.fill n ⟨0, 0⟩ 0 buf

/-- The values of `k` rounds, if every one of them gives a value. -/
def words (d : HwRng) : ℕ → Used → Option (List (BitVec 64))
  | 0, _ => some []
  | k + 1, u =>
    match d.value u with
    | (none, _) => none
    | (some v, u') => (d.words k u').map (v :: ·)

end HwRng

def sentinel : Byte := 0xFE

/-- The scratch buffer before the request. -/
def sentinels : Buf 32 := fun _ => sentinel

/-- `VirtIORng::request_entropy`: it may write to the buffer and answers with a
number of octets or with an error. -/
abbrev VirtioRequest := Buf 32 → Buf 32 × Option ℕ

/-- `sentinel_collect_with`, with the output buffer and the scratch buffer
afterwards. -/
def sentinelCollectWith {n : ℕ} (buf : Buf n) (request : VirtioRequest) :
    Except EntropyError ℕ × Buf n × Buf 32 :=
  match request sentinels with
  | (_, none) => (.error .sourceUnavailable, buf, Buf.zeroized)
  | (given, some got) =>
    if got = 0 then (.error .sourceUnavailable, buf, Buf.zeroized)
    else if CtEq given sentinels then
      (.error .sourceUnavailable, buf, Buf.zeroized)
    else
      let take := min (min got 32) n
      (.ok take, buf.blit 0 (given.slice 0 take), Buf.zeroized)

/-- `virtio_collect`; there may be no device. -/
def virtioCollect {n : ℕ} (device : Option VirtioRequest) (buf : Buf n) :
    Except EntropyError ℕ × Buf n × Buf 32 :=
  match device with
  | none => (.error .sourceUnavailable, buf, Buf.zero)
  | some request => sentinelCollectWith buf request

/-- The loop of `collect_from_source` over the jitter source, where `answers`
are the results of `jitter_collect_byte`. -/
def jitterFill {n : ℕ} (answers : ℕ → Option Byte) :
    ℕ → ℕ → Buf n → Except EntropyError Unit × Buf n
  | 0, _, buf => (.ok (), buf)
  | slots + 1, i, buf =>
    match answers i with
    | some b => jitterFill answers slots (i + 1) (buf.blit i [b])
    | none => (.error .sourceUnavailable, buf)

inductive EntropySource
  | hw
  | virtio
  | jitter
  deriving DecidableEq, Repr

def EntropySource.idx : EntropySource → Byte
  | hw => 0
  | virtio => 1
  | jitter => 2

/-- What the sources answer during one call.  There is no hardware source on a
processor other than x86_64. -/
structure EntropySources where
  hw : Option HwRng
  virtio : Option VirtioRequest
  jitter : ℕ → Option Byte

namespace EntropySources

/-- The first part of `collect_from_source`: the result, the staging buffer and
the virtio scratch buffer.  The number of octets that `virtio_collect` returns
is dropped. -/
def fill (sources : EntropySources) (source : EntropySource)
    (scratch buf : Buf 32) :
    Except EntropyError Unit × Buf 32 × Buf 32 :=
  match source with
  | .hw =>
    match sources.hw with
    | none => (.error .sourceUnavailable, buf, scratch)
    | some d => ((d.collectHwInto buf).1, (d.collectHwInto buf).2, scratch)
  | .virtio =>
    match virtioCollect sources.virtio buf with
    | (.ok _, buf, scratch) => (.ok (), buf, scratch)
    | (.error e, buf, scratch) => (.error e, buf, scratch)
  | .jitter =>
    let filled := jitterFill sources.jitter sampleBytes 0 buf
    (filled.1, filled.2, scratch)

/-- A source delivers a complete sample: the instructions give four words, the
device gives at least as many octets as were asked for, the clock gives every
single octet. -/
def Delivered (sources : EntropySources) :
    EntropySource → Buf 32 → Prop
  | .hw, sample =>
    ∃ d words, sources.hw = some d ∧ d.words 4 ⟨0, 0⟩ = some words ∧
      sample.toList = words.flatMap (wordToLe 8)
  | .virtio, sample =>
    ∃ request got, sources.virtio = some request ∧
      request sentinels = (sample, some got) ∧ 32 ≤ got
  | .jitter, sample => ∀ i : Fin 32, sources.jitter i = some (sample i)

/-- The device gives some octets, but fewer than a sample has, and has changed
the scratch buffer.  The sample is filled up with zeros. -/
def ShortRead (sources : EntropySources) (sample : Buf 32) : Prop :=
  ∃ request given got, sources.virtio = some request ∧
    request sentinels = (given, some got) ∧ 0 < got ∧ got < 32 ∧
      given ≠ sentinels ∧ sample = Buf.ofList 32 (given.slice 0 got)

/-- The adapter of a source succeeds with this staging buffer. -/
def Collected (sources : EntropySources) (source : EntropySource)
    (sample : Buf 32) : Prop :=
  (sources.fill source Buf.zero Buf.zero).1 = .ok () ∧
    (sources.fill source Buf.zero Buf.zero).2.1 = sample

end EntropySources

/-! ## What the adapters collect -/

namespace HwRng

variable {d : HwRng} {u : Used} {n k rounds offset : ℕ}

theorem words_succ_eq_some {words : List (BitVec 64)}
    (h : d.words (k + 1) u = some words) :
    ∃ v u' rest, d.value u = (some v, u') ∧ d.words k u' = some rest ∧
      words = v :: rest := by
  rw [HwRng.words] at h
  rcases hvalue : d.value u with ⟨_ | v, u'⟩
  · rw [hvalue] at h
    cases h
  · rw [hvalue] at h
    obtain ⟨rest, hrest, rfl⟩ := Option.map_eq_some_iff.mp h
    exact ⟨v, u', rest, rfl, hrest, rfl⟩

theorem fill_of_words {words : List (BitVec 64)}
    (hwords : d.words k u = some words) (hend : offset + 8 * k = n)
    (hrounds : k ≤ rounds) (buf : Buf n) :
    d.fill rounds u offset buf =
      (.ok (), buf.blit offset (words.flatMap (wordToLe 8))) := by
  induction k generalizing u rounds offset buf words with
  | zero =>
    obtain rfl := Option.some.inj hwords
    have hblit : buf.blit offset [] = buf := by
      rw [Buf.blit_eq_self_iff buf (by simp; omega)]
      rfl
    rw [List.flatMap_nil, hblit]
    rcases rounds with _ | rounds
    · rfl
    · rw [fill, if_neg (by omega)]
  | succ k ih =>
    obtain ⟨rounds, rfl⟩ : ∃ r, rounds = r + 1 := ⟨rounds - 1, by omega⟩
    obtain ⟨v, u', rest, hvalue, hrest, rfl⟩ := words_succ_eq_some hwords
    have hchunk : min 8 (n - offset) = 8 := by omega
    have htake : (wordToLe 8 v).take 8 = wordToLe 8 v :=
      List.take_of_length_le (by simp)
    rw [fill, if_pos (by omega), hvalue]
    dsimp only
    rw [hchunk, htake, ih hrest (by omega) (by omega), List.flatMap_cons,
      ← Buf.blit_blit_append, length_wordToLe]

theorem fill_of_words_eq_none (hwords : d.words k u = none)
    (hend : offset + 8 * k = n) (hrounds : k ≤ rounds) (buf : Buf n) :
    (d.fill rounds u offset buf).1 = .error .sourceUnavailable := by
  induction k generalizing u rounds offset buf with
  | zero =>
    cases hwords
  | succ k ih =>
    obtain ⟨rounds, rfl⟩ : ∃ r, rounds = r + 1 := ⟨rounds - 1, by omega⟩
    rw [words] at hwords
    rw [fill, if_pos (by omega)]
    rcases hvalue : d.value u with ⟨_ | v, u'⟩
    · rfl
    · rw [hvalue] at hwords
      have hrest : d.words k u' = none := Option.map_eq_none_iff.mp hwords
      have hchunk : min 8 (n - offset) = 8 := by omega
      dsimp only
      rw [hchunk]
      exact ih hrest (by omega) (by omega) _

theorem length_of_words {words : List (BitVec 64)}
    (hwords : d.words k u = some words) : words.length = k := by
  induction k generalizing u words with
  | zero =>
    obtain rfl := Option.some.inj hwords
    rfl
  | succ k ih =>
    obtain ⟨v, u', rest, -, hrest, rfl⟩ := words_succ_eq_some hwords
    rw [List.length_cons, ih hrest]

theorem words_of_no_features (hseed : d.rdseed = false)
    (hrand : d.rdrand = false) : d.words (k + 1) u = none := by
  simp [words, value, hseed, hrand]

theorem collectHwInto_eq_ok_iff {sample : Buf 32} :
    ((d.collectHwInto (Buf.zero : Buf 32)).1 = .ok () ∧
        (d.collectHwInto (Buf.zero : Buf 32)).2 = sample) ↔
      ∃ words, d.words 4 ⟨0, 0⟩ = some words ∧
        sample.toList = words.flatMap (wordToLe 8) := by
  unfold collectHwInto
  by_cases hfeatures : d.rdseed = false ∧ d.rdrand = false
  · rw [if_pos hfeatures, words_of_no_features hfeatures.1 hfeatures.2]
    simp
  · rw [if_neg hfeatures]
    rcases hwords : d.words 4 ⟨0, 0⟩ with _ | words
    · rw [fill_of_words_eq_none hwords rfl (by decide)]
      simp
    · rw [fill_of_words hwords rfl (by decide), Buf.zero_blit]
      have hlength : (words.flatMap (wordToLe 8)).length = 32 := by
        rw [length_flatMap_of_size (length_wordToLe 8), length_of_words hwords]
      constructor
      · rintro ⟨-, rfl⟩
        exact ⟨words, rfl, Buf.toList_ofList hlength⟩
      · rintro ⟨_, ⟨⟩, hsample⟩
        refine ⟨rfl, Buf.toList_injective ?_⟩
        rw [hsample, Buf.toList_ofList hlength]

end HwRng

/-- The loop over the jitter source runs to its end exactly when there is an
octet for every place that is left. -/
theorem jitterFill_eq_ok_iff {answers : ℕ → Option Byte} {n slots i : ℕ}
    (hend : i + slots = n) (buf sample : Buf n) :
    ((jitterFill answers slots i buf).1 = .ok () ∧
        (jitterFill answers slots i buf).2 = sample) ↔
      ∀ j : Fin n, (j.val < i → sample j = buf j) ∧
        (i ≤ j.val → answers j = some (sample j)) := by
  induction slots generalizing i buf with
  | zero =>
    have hlt : ∀ j : Fin n, j.val < i := fun j => by omega
    constructor
    · rintro ⟨-, rfl⟩ j
      exact ⟨fun _ => rfl, fun hle => absurd (hlt j) (by omega)⟩
    · intro hall
      exact ⟨rfl, funext fun j => ((hall j).1 (hlt j)).symm⟩
  | succ slots ih =>
    have hi : i < n := by omega
    rw [jitterFill]
    rcases hanswer : answers i with _ | b
    · constructor
      · rintro ⟨⟨⟩, -⟩
      · intro hall
        have := (hall ⟨i, hi⟩).2 le_rfl
        rw [hanswer] at this
        cases this
    · rw [ih (by omega)]
      refine forall_congr' fun j => ?_
      rw [Buf.blit_singleton_apply]
      by_cases hj : j.val = i
      · rw [hj, hanswer]
        simp [eq_comm]
      · have hlt : j.val < i + 1 ↔ j.val < i := by omega
        have hle : i + 1 ≤ j.val ↔ i ≤ j.val := by omega
        rw [if_neg hj, hlt, hle]

namespace EntropySources

variable {sources : EntropySources} {sample : Buf 32}

/-- The scratch buffer left by an earlier call has no influence. -/
theorem fill_congr_scratch (sources : EntropySources) (source : EntropySource)
    (scratch scratch' buf : Buf 32) :
    (sources.fill source scratch buf).1 =
        (sources.fill source scratch' buf).1 ∧
      (sources.fill source scratch buf).2.1 =
        (sources.fill source scratch' buf).2.1 := by
  cases source with
  | hw =>
    unfold fill
    rcases sources.hw with _ | d
    · exact ⟨rfl, rfl⟩
    · exact ⟨rfl, rfl⟩
  | virtio =>
    exact ⟨rfl, rfl⟩
  | jitter =>
    exact ⟨rfl, rfl⟩

theorem collected_hw_iff :
    sources.Collected .hw sample ↔ sources.Delivered .hw sample := by
  unfold Collected Delivered fill
  rcases sources.hw with _ | d
  · simp
  · simp only [Option.some.injEq, exists_eq_left', exists_and_left]
    exact HwRng.collectHwInto_eq_ok_iff

theorem collected_jitter_iff :
    sources.Collected .jitter sample ↔ sources.Delivered .jitter sample := by
  have hloop :
      ((jitterFill sources.jitter 32 0 (Buf.zero : Buf 32)).1 = .ok () ∧
          (jitterFill sources.jitter 32 0 (Buf.zero : Buf 32)).2 = sample) ↔
        ∀ j : Fin 32, (j.val < 0 → sample j = Buf.zero j) ∧
          (0 ≤ j.val → sources.jitter j = some (sample j)) :=
    jitterFill_eq_ok_iff (Nat.zero_add 32) Buf.zero sample
  refine hloop.trans (forall_congr' fun j => ?_)
  simp

theorem collected_virtio_iff_exists :
    sources.Collected .virtio sample ↔
      ∃ request given got, sources.virtio = some request ∧
        request sentinels = (given, some got) ∧ 0 < got ∧
          given ≠ sentinels ∧
            sample = Buf.ofList 32 (given.slice 0 (min got 32)) := by
  unfold Collected fill virtioCollect
  rcases sources.virtio with _ | request
  · simp
  · dsimp only [sentinelCollectWith]
    rcases hanswer : request sentinels with ⟨given, _ | got⟩
    · simp [hanswer]
    · by_cases hgot : got = 0
      · simp [hanswer, hgot]
      · by_cases hgiven : given = sentinels
        · simp [hanswer, hgiven]
        · simp [hanswer, hgot, hgiven, Buf.zero_blit, Nat.pos_of_ne_zero hgot,
            eq_comm]

theorem collected_virtio_iff :
    sources.Collected .virtio sample ↔
      sources.Delivered .virtio sample ∧ sample ≠ sentinels ∨
        sources.ShortRead sample := by
  rw [collected_virtio_iff_exists]
  constructor
  · rintro ⟨request, given, got, hdevice, hanswer, hgot, hgiven, rfl⟩
    by_cases hfull : 32 ≤ got
    · have hwhole : Buf.ofList 32 (given.slice 0 (min got 32)) = given := by
        rw [Nat.min_eq_right hfull]
        exact Buf.ofList_toList given
      left
      rw [hwhole]
      exact ⟨⟨request, got, hdevice, hanswer, hfull⟩, hgiven⟩
    · have hshort : got < 32 := Nat.lt_of_not_le hfull
      right
      rw [Nat.min_eq_left hshort.le]
      exact ⟨request, given, got, hdevice, hanswer, hgot, hshort, hgiven, rfl⟩
  · rintro (⟨⟨request, got, hdevice, hanswer, hfull⟩, hchanged⟩ |
      ⟨request, given, got, hdevice, hanswer, hgot, hshort, hgiven, rfl⟩)
    · refine ⟨request, sample, got, hdevice, hanswer, by omega, hchanged, ?_⟩
      rw [Nat.min_eq_right hfull]
      exact (Buf.ofList_toList sample).symm
    · refine ⟨request, given, got, hdevice, hanswer, hgot, hgiven, ?_⟩
      rw [Nat.min_eq_left hshort.le]

end EntropySources

end IsoLightK0
