import IsoLightK0.Entropy.Verdicts

/-!
# Sources that are stuck

A source that is stuck delivers one and the same octet for ever.  The quorum
should not count it.  A sample has 32 octets and the repetition count test
fails at the 41st equal octet, so that the first sample of a stuck source
passes, unless its octet is zero.

The state of the tests is followed through any sequence of calls of `collect`
from boot.
-/

namespace IsoLightK0

open Bytes

/-- One call of `collect`: what the sources answer during it, the caller's
buffer, and the audit ring, to which the rest of the kernel writes as well. -/
structure CollectCall where
  sources : EntropySources
  len : ℕ
  buf : Buf len
  auditRing : AuditRing

def CollectCall.after (call : CollectCall) (degradedOk : Bool)
    (xof : List Byte → (len : ℕ) → Option (Buf len)) (st : EntropyState) :
    EntropyState :=
  (collect degradedOk xof call.sources
    { st with auditRing := call.auditRing } call.buf).2.2

def afterCollects (degradedOk : Bool)
    (xof : List Byte → (len : ℕ) → Option (Buf len))
    (calls : List CollectCall) : EntropyState :=
  calls.foldl (fun st call => call.after degradedOk xof st) .boot

/-- The loop of `collect` when it comes to a source. -/
def collectionBefore (sources : EntropySources) (st : EntropyState)
    (source : EntropySource) : Collection :=
  (entropySourceOrder.takeWhile (· ≠ source)).foldl (collectRound sources)
    ⟨[], 0, st⟩

/-- The loop of `collect` counts the source as live. -/
def EntropySources.Counted (sources : EntropySources) (st : EntropyState)
    (source : EntropySource) : Prop :=
  (collectRound sources (collectionBefore sources st source)
      source).liveSources =
    (collectionBefore sources st source).liveSources + 1

def NeverCounted (degradedOk : Bool)
    (xof : List Byte → (len : ℕ) → Option (Buf len)) (source : EntropySource)
    (calls : List CollectCall) : Prop :=
  ∀ earlier call later, calls = earlier ++ call :: later →
    ¬ call.sources.Counted (afterCollects degradedOk xof earlier) source

variable {sources : EntropySources} {source : EntropySource}

theorem EntropySources.counted_iff {st : EntropyState} :
    sources.Counted st source ↔ sources.Live st source := by
  have hother : source ∉ entropySourceOrder.takeWhile (· ≠ source) := by
    cases source <;> decide
  have hnodup : (entropySourceOrder.takeWhile (· ≠ source)).Nodup := by
    cases source <;> decide
  have htests : (collectionBefore sources st source).st.health source =
      st.health source := by
    rw [collectionBefore, (extends_foldl sources hnodup ⟨[], 0, st⟩).tests,
      if_neg hother]
  rw [← live_congr htests, Counted,
    (extends_collectRound sources _ source).live]
  by_cases hlive : sources.Live (collectionBefore sources st source).st source
  · simp [liveAmong, Finset.filter_singleton, hlive]
  · simp [liveAmong, Finset.filter_singleton, hlive]

theorem CollectCall.health_after (call : CollectCall) (degradedOk : Bool)
    (xof : List Byte → (len : ℕ) → Option (Buf len)) (st : EntropyState)
    (source : EntropySource) :
    (call.after degradedOk xof st).health source =
      call.sources.examined st source := by
  obtain ⟨st', htests, -, heq⟩ := collect_eq degradedOk xof call.sources
    { st with auditRing := call.auditRing } call.buf
  unfold CollectCall.after
  rw [heq]
  split
  · exact htests source
  · split
    · exact htests source
    · exact htests source

/-- Whatever the source delivers is the octet `c`. -/
def EntropySources.OnlyDelivers (sources : EntropySources) (c : Byte) :
    EntropySource → Prop
  | .hw =>
    ∀ d, sources.hw = some d → ∀ k v,
      d.rdseed64 k = some v ∨ d.rdrand64 k = some v →
        wordToLe 8 v = List.replicate 8 c
  | .virtio =>
    ∀ request given got, sources.virtio = some request →
      request sentinels = (given, some got) →
        ∀ i : Fin 32, i.val < got → given i = c
  | .jitter => ∀ i b, sources.jitter i = some b → b = c

/-- The source gives a complete sample or, if it is the device, a short one,
and the device has changed the scratch buffer. -/
def EntropySources.Supplies (sources : EntropySources)
    (source : EntropySource) : Prop :=
  (∃ sample, sources.Delivered source sample ∧
      (source = .virtio → sample ≠ sentinels)) ∨
    source = .virtio ∧ ∃ sample, sources.ShortRead sample

theorem EntropySources.supplies_iff :
    sources.Supplies source ↔ ∃ sample, sources.Collected source sample := by
  unfold Supplies
  cases source with
  | hw => simp [collected_hw_iff]
  | virtio => simp [collected_virtio_iff, exists_or]
  | jitter => simp [collected_jitter_iff]

theorem firstAnswer_mem {α : Type} {answers : ℕ → Option α} {v : α}
    {retries used : ℕ} (h : (firstAnswer answers retries used).1 = some v) :
    ∃ k, answers k = some v := by
  induction retries generalizing used with
  | zero =>
    cases h
  | succ retries ih =>
    rw [firstAnswer] at h
    rcases hanswer : answers used with _ | w
    · rw [hanswer] at h
      exact ih h
    · rw [hanswer] at h
      exact ⟨used, hanswer.trans h⟩

theorem HwRng.value_mem {d : HwRng} {u : Used} {v : BitVec 64}
    (h : (d.value u).1 = some v) :
    ∃ k, d.rdseed64 k = some v ∨ d.rdrand64 k = some v := by
  unfold value at h
  dsimp only at h
  split at h
  · rename_i w hseed
    split at hseed
    · obtain ⟨k, hk⟩ := firstAnswer_mem hseed
      exact ⟨k, .inl (hk.trans h)⟩
    · cases hseed
  · dsimp only at h
    split at h
    · obtain ⟨k, hk⟩ := firstAnswer_mem h
      exact ⟨k, .inr hk⟩
    · cases h

theorem HwRng.words_mem {d : HwRng} {k : ℕ} {u : Used}
    {words : List (BitVec 64)} (hwords : d.words k u = some words)
    {v : BitVec 64} (hmem : v ∈ words) :
    ∃ k, d.rdseed64 k = some v ∨ d.rdrand64 k = some v := by
  induction k generalizing u words with
  | zero =>
    obtain rfl := Option.some.inj hwords
    cases hmem
  | succ k ih =>
    obtain ⟨w, u', rest, hvalue, hrest, rfl⟩ := words_succ_eq_some hwords
    rcases List.mem_cons.mp hmem with rfl | htail
    · exact value_mem (congrArg Prod.fst hvalue)
    · exact ih hrest htail

theorem ofList_apply_of_forall {xs : List Byte} {c : Byte}
    (hall : ∀ x ∈ xs, x = c) {n : ℕ} (i : Fin n) :
    Buf.ofList n xs i = if i.val < xs.length then c else 0 := by
  unfold Buf.ofList
  by_cases hi : i.val < xs.length
  · rw [if_pos hi, List.getElem?_eq_getElem hi, Option.getD_some]
    exact hall _ (List.getElem_mem hi)
  · rw [if_neg hi, List.getElem?_eq_none (Nat.le_of_not_lt hi),
      Option.getD_none]

/-- The sample of a stuck source begins with its octet, and is filled up with
zeros after a short read. -/
theorem EntropySources.OnlyDelivers.sample {c : Byte} {sample : Buf 32}
    (honly : sources.OnlyDelivers c source)
    (hcollected : sources.Collected source sample) :
    ∃ k, 0 < k ∧ ∀ i, sample i = if i.val < k then c else 0 := by
  cases source with
  | hw =>
    obtain ⟨d, words, hdevice, hwords, hsample⟩ :=
      collected_hw_iff.mp hcollected
    refine ⟨sample.toList.length, by simp, fun i => ?_⟩
    conv_lhs => rw [← Buf.ofList_toList sample]
    refine ofList_apply_of_forall (fun x hx => ?_) i
    rw [hsample] at hx
    obtain ⟨v, hv, hin⟩ := List.mem_flatMap.mp hx
    obtain ⟨k, hk⟩ := HwRng.words_mem hwords hv
    rw [honly d hdevice k v hk] at hin
    exact List.eq_of_mem_replicate hin
  | virtio =>
    obtain ⟨request, given, got, hdevice, hanswer, hgot, -, rfl⟩ :=
      collected_virtio_iff_exists.mp hcollected
    refine ⟨_, ?_, ofList_apply_of_forall fun x hx => ?_⟩
    · rw [Buf.length_slice]
      omega
    · rw [Buf.slice, Mem.read, List.mem_map] at hx
      obtain ⟨i, hi, rfl⟩ := hx
      have hi' : i < got ∧ i < 32 := by simpa using hi
      rw [Buf.toMem, dif_pos (by omega)]
      exact honly request given got hdevice hanswer _ (by simpa using hi'.1)
  | jitter =>
    refine ⟨32, by decide, fun i => ?_⟩
    rw [if_pos i.isLt]
    exact honly i (sample i) (collected_jitter_iff.mp hcollected i)

section Calls

variable {degradedOk : Bool} {xof : List Byte → (len : ℕ) → Option (Buf len)}
  {source : EntropySource} {calls : List CollectCall}

theorem health_of_not_supplies
    (hnone : ∀ call ∈ calls, ¬ call.sources.Supplies source) :
    (afterCollects degradedOk xof calls).health source = .new := by
  induction calls using List.reverseRecOn with
  | nil => rfl
  | append_singleton calls call ih =>
    have hlast := hnone call (by simp)
    rw [EntropySources.supplies_iff] at hlast
    rw [afterCollects, List.foldl_append, List.foldl_cons, List.foldl_nil,
      CollectCall.health_after, EntropySources.examined,
      if_neg fun h => hlast ⟨_, h.1, rfl⟩]
    exact ih fun call hmem => hnone call (List.mem_append_left _ hmem)

end Calls

/-- A stuck source is never counted exactly when its octet is zero or it never
supplies anything: the first sample of any other one is too short for the
repetition count test. -/
theorem neverCounted_iff_of_onlyDelivers (degradedOk : Bool)
    (xof : List Byte → (len : ℕ) → Option (Buf len)) (source : EntropySource)
    (c : Byte) (calls : List CollectCall)
    (honly : ∀ call ∈ calls, call.sources.OnlyDelivers c source) :
    NeverCounted degradedOk xof source calls ↔
      c = 0 ∨ ∀ call ∈ calls, ¬ call.sources.Supplies source := by
  classical
  unfold NeverCounted
  simp only [EntropySources.counted_iff]
  constructor
  · intro hnever
    by_contra hnot
    obtain ⟨hzero, hsupplies⟩ := not_or.mp hnot
    obtain ⟨call, hfirst⟩ : ∃ call, calls.find?
        (fun call => call.sources.Supplies source) = some call := by
      rw [← Option.isSome_iff_exists, List.find?_isSome]
      simpa using hsupplies
    obtain ⟨hcall, earlier, later, rfl, hearlier⟩ :=
      List.find?_eq_some_iff_append.mp hfirst
    rw [decide_eq_true_eq, EntropySources.supplies_iff] at hcall
    obtain ⟨sample, hcollected⟩ := hcall
    obtain ⟨k, hpos, hoctets⟩ := (honly call (by simp)).sample hcollected
    refine hnever earlier call later rfl ⟨sample, hcollected, ?_, ?_⟩
    · rintro rfl
      exact hzero ((hoctets 0).trans (if_pos hpos)).symm
    · rw [health_of_not_supplies fun call hmem => by
        simpa using hearlier call hmem]
      exact StreamHealth.healthy_of_length_lt (by simp [rctCutoff])
  · rintro hcases earlier call later rfl ⟨sample, hcollected, hnonzero, -⟩
    rcases hcases with rfl | hnone
    · obtain ⟨k, -, hoctets⟩ := (honly call (by simp)).sample hcollected
      exact hnonzero (funext fun i => (hoctets i).trans (ite_self 0))
    · exact hnone call (by simp)
        (EntropySources.supplies_iff.mpr ⟨sample, hcollected⟩)

/-- A call on a machine of which only the clock answers, always with `c`. -/
def stuckClock (c : Byte) : CollectCall where
  sources := ⟨none, none, fun _ => some c⟩
  len := 32
  buf := Buf.zero
  auditRing := AuditRing.new

theorem onlyDelivers_stuckClock (c : Byte) :
    ∀ call ∈ [stuckClock c, stuckClock c],
      call.sources.OnlyDelivers c .jitter := by
  intro call hmem
  obtain rfl : call = stuckClock c := by simpa using hmem
  intro i b hanswer
  exact (Option.some.inj hanswer).symm

theorem neverCounted_zeroClock :
    NeverCounted false (fun _ _ => none) .jitter
      [stuckClock 0, stuckClock 0] :=
  (neverCounted_iff_of_onlyDelivers false _ .jitter 0 _
    (onlyDelivers_stuckClock 0)).mpr (.inl rfl)

/-- A clock that answers with nothing but ones is counted by the first call. -/
theorem stuckClock_counted :
    (∀ call ∈ [stuckClock 1, stuckClock 1],
        call.sources.OnlyDelivers 1 .jitter) ∧
      ¬ NeverCounted false (fun _ _ => none) .jitter
        [stuckClock 1, stuckClock 1] := by
  refine ⟨onlyDelivers_stuckClock 1, fun hnever => ?_⟩
  refine hnever [] (stuckClock 1) [stuckClock 1] rfl ?_
  unfold EntropySources.Counted
  decide

end IsoLightK0
