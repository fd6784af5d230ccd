import IsoLightK0.Attest.AuditRing
import IsoLightK0.Entropy.Sources
import Mathlib.Data.Finset.Card

/-!
# The entropy quorum

`QuorumEntropy::collect` asks the three sources, counts those whose sample
passes, and mixes all staging buffers into the caller's buffer when enough of
them passed.  `Good` says when a source has done its part: it delivered a
complete sample that is not all zero and healthy.

Of the hardware and the jitter source exactly the good ones are counted.  The
virtio adapter succeeds with a short read too, so that a device that gives a
single octet can make up the quorum.
-/

namespace IsoLightK0

open Bytes

def resultEntropyReseedFailedPanic : Byte := 12

def subQuorumMin : Byte := 0

def subRctFail : Byte := 1

def subSourceMissing : Byte := 3

/-- `QUORUM_MIN`, which depends on the feature `entropy-degraded-ok`. -/
def quorumMin (degradedOk : Bool) : ℕ := if degradedOk then 1 else 2

/-- The statics that the quorum reads and writes. -/
structure EntropyState where
  health : EntropySource → StreamHealth
  virtioScratch : Buf 32
  sourcesAvailableAtBoot : ℕ
  sourcesLatched : Bool
  auditRing : AuditRing

namespace EntropyState

/-- `audit_enqueue` of a failure. -/
def auditFailure (st : EntropyState) (slotIdx sub : Byte) : EntropyState :=
  { st with
    auditRing :=
      auditEnqueue st.auditRing slotIdx resultEntropyReseedFailedPanic sub
        Buf.zero }

def boot : EntropyState where
  health := fun _ => StreamHealth.new
  virtioScratch := sentinels
  sourcesAvailableAtBoot := 0
  sourcesLatched := false
  auditRing := AuditRing.new

end EntropyState

/-- `QuorumEntropy::collect_from_source`: the estimate of the entropy or an
error, the staging buffer, and the statics. -/
def collectFromSource (sources : EntropySources) (source : EntropySource)
    (st : EntropyState) (buf : Buf 32) :
    Except EntropyError Byte × Buf 32 × EntropyState :=
  let filled := sources.fill source st.virtioScratch buf
  let sample := filled.2.1
  let st := { st with virtioScratch := filled.2.2 }
  let slot := 0xF0 ||| source.idx
  match filled.1 with
  | .error e => (.error e, sample, st.auditFailure slot subSourceMissing)
  | .ok () =>
    if CtEq sample Buf.zero then
      (.error .sourceUnavailable, sample,
        st.auditFailure slot subSourceMissing)
    else
      let examined := (st.health source).examine sample.toList
      let st :=
        { st with health := Function.update st.health source examined.2 }
      if examined.1 then
        (.ok (if source = .jitter then 16 else 32), sample, st)
      else
        (.error .healthTestFailed, sample,
          st.auditFailure slot subRctFail)

/-- What a source leaves in its staging buffer. -/
def EntropySources.contribution (sources : EntropySources)
    (source : EntropySource) : Buf 32 :=
  (sources.fill source Buf.zero Buf.zero).2.1

/-- The adapter succeeds, and its sample is neither all zero nor unhealthy. -/
def EntropySources.Live (sources : EntropySources) (st : EntropyState)
    (source : EntropySource) : Prop :=
  ∃ sample, sources.Collected source sample ∧ sample ≠ Buf.zero ∧
    (st.health source).Healthy sample.toList

/-- A source delivers a complete sample that is not all zero and on which no
octet fails its health check. -/
def EntropySources.Good (sources : EntropySources) (st : EntropyState)
    (source : EntropySource) : Prop :=
  ∃ sample, sources.Delivered source sample ∧ sample ≠ Buf.zero ∧
    (st.health source).Healthy sample.toList

/-- The loop state of `collect`. -/
structure Collection where
  scratches : List (Buf 32)
  liveSources : ℕ
  st : EntropyState

def collectRound (sources : EntropySources) (acc : Collection)
    (source : EntropySource) : Collection :=
  let result := collectFromSource sources source acc.st Buf.zero
  { scratches := acc.scratches ++ [result.2.1]
    liveSources :=
      match result.1 with
      | .ok _ => acc.liveSources + 1
      | .error _ => acc.liveSources
    st := result.2.2 }

/-- The sources in the order in which they are asked. -/
def entropySourceOrder : List EntropySource := [.hw, .virtio, .jitter]

/-- `QuorumEntropy::collect`.  `xof` is the extendable output of BLAKE3; it may
fail. -/
def collect {n : ℕ} (degradedOk : Bool)
    (xof : List Byte → (len : ℕ) → Option (Buf len))
    (sources : EntropySources) (st : EntropyState) (buf : Buf n) :
    Except EntropyError Unit × Buf n × EntropyState :=
  let acc := entropySourceOrder.foldl (collectRound sources) ⟨[], 0, st⟩
  let st :=
    if acc.st.sourcesLatched then acc.st
    else
      { acc.st with
        sourcesAvailableAtBoot := acc.liveSources, sourcesLatched := true }
  if acc.liveSources < quorumMin degradedOk then
    (.error .quorumFailed, buf, st.auditFailure 0xFE subQuorumMin)
  else
    match xof (acc.scratches.flatMap Buf.toList) n with
    | none => (.error .sourceUnavailable, buf, st)
    | some mix => (.ok (), mix, st)

def EntropySources.mixture (sources : EntropySources) : List Byte :=
  (entropySourceOrder.map sources.contribution).flatMap Buf.toList

/-! ## One source, once for all -/

/-- The tests of a source see a sample that is collected and not all zero, and
nothing else. -/
def EntropySources.examined (sources : EntropySources) (st : EntropyState)
    (source : EntropySource) : StreamHealth :=
  if (sources.fill source Buf.zero Buf.zero).1 = .ok () ∧
      sources.contribution source ≠ Buf.zero then
    ((st.health source).examine (sources.contribution source).toList).2
  else st.health source

section OneSource

variable {sources : EntropySources} {source : EntropySource}
  {st : EntropyState}

theorem EntropySources.live_iff :
    sources.Live st source ↔
      (sources.fill source Buf.zero Buf.zero).1 = .ok () ∧
        sources.contribution source ≠ Buf.zero ∧
        ((st.health source).examine
          (sources.contribution source).toList).1 = true := by
  unfold Live Collected
  rw [StreamHealth.examine_fst_iff]
  constructor
  · rintro ⟨sample, ⟨hok, rfl⟩, hpasses⟩
    exact ⟨hok, hpasses⟩
  · rintro ⟨hok, hpasses⟩
    exact ⟨_, ⟨hok, rfl⟩, hpasses⟩

theorem EntropySources.live_congr {st' : EntropyState}
    (hsame : st.health source = st'.health source) :
    sources.Live st source ↔ sources.Live st' source := by
  rw [live_iff, live_iff, hsame]

theorem EntropySources.examined_congr {st' : EntropyState}
    (hsame : st.health source = st'.health source) :
    sources.examined st source = sources.examined st' source := by
  rw [examined, examined, hsame]

theorem collectFromSource_cases (sources : EntropySources)
    (source : EntropySource) (st : EntropyState) :
    ∃ st' : EntropyState, st'.auditRing = st.auditRing ∧
      st'.health =
        Function.update st.health source (sources.examined st source) ∧
      (sources.Live st source ∧
          (∃ bits, collectFromSource sources source st Buf.zero =
            (.ok bits, sources.contribution source, st')) ∨
        ¬ sources.Live st source ∧
          ∃ e sub, collectFromSource sources source st Buf.zero =
            (.error e, sources.contribution source,
              st'.auditFailure (0xF0 ||| source.idx) sub)) := by
  obtain ⟨hresult, hbuffer⟩ :=
    sources.fill_congr_scratch source st.virtioScratch Buf.zero Buf.zero
  refine ⟨{ st with
    virtioScratch := (sources.fill source st.virtioScratch Buf.zero).2.2
    health := Function.update st.health source (sources.examined st source) },
    rfl, rfl, ?_⟩
  unfold collectFromSource
  rw [EntropySources.live_iff, EntropySources.examined]
  unfold EntropySources.contribution
  simp only [hresult, hbuffer]
  rcases (sources.fill source Buf.zero Buf.zero).1 with e | ⟨⟨⟩⟩
  · exact .inr ⟨by simp, e, subSourceMissing, by simp⟩
  · generalize (sources.fill source Buf.zero Buf.zero).2.1 = sample
    by_cases hzero : sample = Buf.zero
    · exact .inr ⟨by simp [hzero], .sourceUnavailable, subSourceMissing,
        by simp [hzero]⟩
    · by_cases hok : ((st.health source).examine sample.toList).1 = true
      · refine .inl ⟨⟨rfl, hzero, hok⟩, if source = .jitter then 16 else 32, ?_⟩
        simp [hzero, hok]
      · exact .inr ⟨fun h => hok h.2.2, .healthTestFailed, subRctFail,
          by simp [hzero, hok]⟩

end OneSource

/-! ## The loop over the sources -/

open Classical in
noncomputable def EntropySources.liveAmong (sources : EntropySources)
    (st : EntropyState) (rest : List EntropySource) : Finset EntropySource :=
  rest.toFinset.filter (sources.Live st)

variable {rest : List EntropySource} (sources : EntropySources)

theorem EntropySources.mem_liveAmong {sources : EntropySources}
    {st : EntropyState} {source : EntropySource} :
    source ∈ sources.liveAmong st rest ↔
      source ∈ rest ∧ sources.Live st source := by
  classical
  simp [liveAmong]

/-- What the loop has done with some sources: it has kept what they leave,
counted the live ones, and recorded the others. -/
structure Collection.Extends (sources : EntropySources)
    (rest : List EntropySource) (acc acc' : Collection) : Prop where
  scratches : acc'.scratches = acc.scratches ++ rest.map sources.contribution
  live : acc'.liveSources =
    acc.liveSources + (sources.liveAmong acc.st rest).card
  tests : ∀ source, acc'.st.health source =
    if source ∈ rest then sources.examined acc.st source
    else acc.st.health source
  audits : ∃ n, n + (sources.liveAmong acc.st rest).card = rest.length ∧
    Appends n acc.st.auditRing acc'.st.auditRing

theorem EntropySources.liveAmong_cons {st st' : EntropyState}
    {first : EntropySource} (hnew : first ∉ rest)
    (hsame : ∀ source ∈ rest, st'.health source = st.health source) :
    (sources.liveAmong st (first :: rest)).card =
      (sources.liveAmong st' rest).card +
        (sources.liveAmong st [first]).card := by
  classical
  have hrest : sources.liveAmong st' rest = sources.liveAmong st rest := by
    ext source
    rw [mem_liveAmong, mem_liveAmong]
    exact and_congr_right fun hmem => live_congr (hsame source hmem)
  rw [hrest, ← Finset.card_union_of_disjoint]
  · congr 1
    ext source
    simp only [Finset.mem_union, mem_liveAmong, List.mem_cons, List.mem_nil_iff]
    tauto
  · rw [Finset.disjoint_left]
    intro source hmem hfirst
    rw [mem_liveAmong, List.mem_singleton] at hfirst
    exact hnew (hfirst.1 ▸ (mem_liveAmong.mp hmem).1)

theorem extends_collectRound (acc : Collection) (source : EntropySource) :
    Collection.Extends sources [source] acc
      (collectRound sources acc source) := by
  obtain ⟨st', hring, hhealth, hcases⟩ :=
    collectFromSource_cases sources source acc.st
  have htests : ∀ other, st'.health other =
      if other ∈ [source] then sources.examined acc.st other
      else acc.st.health other := by
    intro other
    rw [hhealth]
    by_cases heq : other = source
    · subst heq
      simp
    · simp [heq]
  rcases hcases with ⟨hlive, bits, heq⟩ | ⟨hnot, e, sub, heq⟩
  · have hone : (sources.liveAmong acc.st [source]).card = 1 := by
      simp [EntropySources.liveAmong, Finset.filter_singleton, hlive]
    unfold collectRound
    rw [heq]
    exact ⟨rfl, by simp [hone], htests, 0, by simp [hone],
      hring ▸ Appends.refl _⟩
  · have hnone : (sources.liveAmong acc.st [source]).card = 0 := by
      simp [EntropySources.liveAmong, Finset.filter_singleton, hnot]
    unfold collectRound
    rw [heq]
    exact ⟨rfl, by simp [hnone], htests, 1, by simp [hnone],
      hring ▸ appends_auditEnqueue _ _ _ _ _⟩

theorem extends_foldl (hnodup : rest.Nodup) (acc : Collection) :
    Collection.Extends sources rest acc
      (rest.foldl (collectRound sources) acc) := by
  induction rest generalizing acc with
  | nil =>
    exact ⟨by simp, by simp [EntropySources.liveAmong], by simp, 0,
      by simp [EntropySources.liveAmong], Appends.refl _⟩
  | cons first rest ih =>
    obtain ⟨hnew, hrest⟩ := List.nodup_cons.mp hnodup
    have hone := extends_collectRound sources acc first
    have hmore := ih hrest (collectRound sources acc first)
    have hsame : ∀ source ∈ rest,
        (collectRound sources acc first).st.health source =
          acc.st.health source := by
      intro source hmem
      rw [hone.tests, if_neg]
      exact fun h => hnew (List.mem_singleton.mp h ▸ hmem)
    have hcard := sources.liveAmong_cons hnew hsame
    refine ⟨?_, ?_, fun source => ?_, ?_⟩
    · rw [List.foldl_cons, hmore.scratches, hone.scratches]
      simp
    · rw [List.foldl_cons, hmore.live, hone.live, hcard]
      omega
    · rw [List.foldl_cons, hmore.tests]
      by_cases hmem : source ∈ rest
      · rw [if_pos hmem, if_pos (List.mem_cons_of_mem first hmem)]
        exact EntropySources.examined_congr (hsame source hmem)
      · rw [if_neg hmem, hone.tests]
        simp [hmem]
    · obtain ⟨m, hm, happends⟩ := hone.audits
      obtain ⟨m', hm', happends'⟩ := hmore.audits
      refine ⟨m + m', ?_, happends.trans happends'⟩
      rw [List.length_cons, hcard]
      rw [List.length_singleton] at hm
      omega

section Collect

variable {n : ℕ} (degradedOk : Bool)
  (xof : List Byte → (len : ℕ) → Option (Buf len))
  (sources : EntropySources) (st : EntropyState) (buf : Buf n)

noncomputable def EntropySources.live : Finset EntropySource :=
  sources.liveAmong st entropySourceOrder

theorem EntropySources.mem_live {source : EntropySource} :
    source ∈ sources.live st ↔ sources.Live st source := by
  have hall : source ∈ entropySourceOrder := by
    cases source <;> decide
  rw [live, mem_liveAmong, and_iff_right hall]

/-- `collect` fails unless enough sources are live, and else mixes what all of
them leave.  The sources that are not live have been recorded. -/
theorem collect_eq :
    ∃ st' : EntropyState,
      (∀ source, st'.health source = sources.examined st source) ∧
      (∃ m, m + (sources.live st).card = 3 ∧
        Appends m st.auditRing st'.auditRing) ∧
      collect degradedOk xof sources st buf =
        if (sources.live st).card < quorumMin degradedOk then
          (.error .quorumFailed, buf, st'.auditFailure 0xFE subQuorumMin)
        else
          match xof sources.mixture n with
          | none => (.error .sourceUnavailable, buf, st')
          | some mix => (.ok (), mix, st') := by
  have hnodup : entropySourceOrder.Nodup := by decide
  have hloop := extends_foldl sources hnodup ⟨[], 0, st⟩
  unfold collect
  generalize entropySourceOrder.foldl (collectRound sources) ⟨[], 0, st⟩ = acc
    at hloop
  obtain ⟨hscratches, hlive, htests, haudits⟩ := hloop
  rw [Nat.zero_add, ← EntropySources.live] at hlive
  -- The latch changes neither the tests nor the ring.
  obtain ⟨st', hhealth, hring', hst'⟩ : ∃ st' : EntropyState,
      st'.health = acc.st.health ∧ st'.auditRing = acc.st.auditRing ∧
      (if acc.st.sourcesLatched then acc.st
        else { acc.st with
          sourcesAvailableAtBoot := acc.liveSources
          sourcesLatched := true }) = st' :=
    ⟨_, by split <;> rfl, by split <;> rfl, rfl⟩
  refine ⟨st', fun source => ?_, hring' ▸ haudits, ?_⟩
  · have hall : source ∈ entropySourceOrder := by
      cases source <;> decide
    rw [hhealth, htests, if_pos hall]
  · dsimp only
    rewrite [hst', hlive, hscratches]
    rfl

theorem collect_eq_ok_iff :
    (collect degradedOk xof sources st buf).1 = .ok () ↔
      quorumMin degradedOk ≤ (sources.live st).card ∧
        (xof sources.mixture n).isSome := by
  obtain ⟨st', -, -, heq⟩ := collect_eq degradedOk xof sources st buf
  rw [heq]
  by_cases hfew : (sources.live st).card < quorumMin degradedOk
  · simp [hfew]
  · rw [if_neg hfew]
    rcases xof sources.mixture n with _ | mix
    · simp
    · simp [Nat.le_of_not_lt hfew]

theorem collect_buffer_of_error {e : EntropyError}
    (herror : (collect degradedOk xof sources st buf).1 = .error e) :
    (collect degradedOk xof sources st buf).2.1 = buf := by
  obtain ⟨st', -, -, heq⟩ := collect_eq degradedOk xof sources st buf
  rw [heq] at herror ⊢
  split
  · rfl
  · rename_i hmany
    rw [if_neg hmany] at herror
    rcases hxof : xof sources.mixture n with _ | mix
    · rfl
    · rw [hxof] at herror
      cases herror

end Collect

/-! ## When a short read decides -/

section Quorum

variable {sources : EntropySources} {st : EntropyState}

namespace EntropySources

/-- A short read of the virtio device passes all tests. -/
def ShortReadPasses (sources : EntropySources)
    (st : EntropyState) : Prop :=
  ∃ sample, sources.ShortRead sample ∧ sample ≠ Buf.zero ∧
    (st.health .virtio).Healthy sample.toList

theorem live_hw_iff :
    sources.Live st .hw ↔ sources.Good st .hw :=
  exists_congr fun _ => and_congr_left' collected_hw_iff

theorem live_jitter_iff :
    sources.Live st .jitter ↔ sources.Good st .jitter :=
  exists_congr fun _ => and_congr_left' collected_jitter_iff

theorem good_or_shortReadPasses_of_live (hlive : sources.Live st .virtio) :
    sources.Good st .virtio ∨ sources.ShortReadPasses st := by
  obtain ⟨sample, hcollected, hpasses⟩ := hlive
  rcases collected_virtio_iff.mp hcollected with ⟨hfull, -⟩ | hshort
  · exact .inl ⟨sample, hfull, hpasses⟩
  · exact .inr ⟨sample, hshort, hpasses⟩

theorem ShortReadPasses.live
    (hshort : sources.ShortReadPasses st) : sources.Live st .virtio := by
  obtain ⟨sample, hread, hpasses⟩ := hshort
  exact ⟨sample, collected_virtio_iff.mpr (.inr hread), hpasses⟩

/-- The device answers once, either with a complete sample or not. -/
theorem ShortReadPasses.not_good
    (hshort : sources.ShortReadPasses st) : ¬ sources.Good st .virtio := by
  rintro ⟨full, ⟨request, got, hdevice, hanswer, hle⟩, -⟩
  obtain ⟨_, ⟨request', _, got', hdevice', hanswer', -, hlt, -⟩, -⟩ := hshort
  obtain rfl : request = request' :=
    Option.some.inj (hdevice.symm.trans hdevice')
  obtain ⟨-, hgot⟩ := Prod.mk.inj (hanswer.symm.trans hanswer')
  obtain rfl := Option.some.inj hgot
  omega

/-- The quorum depends on a short read: it passes all tests, the hardware and
the jitter source are one short of the quorum by themselves, and the mixing
succeeds. -/
structure ShortReadDecides (sources : EntropySources)
    (degradedOk : Bool) (xof : List Byte → (len : ℕ) → Option (Buf len))
    (st : EntropyState) (n : ℕ) : Prop where
  passes : sources.ShortReadPasses st
  others : degradedOk = true ∧ ¬ sources.Good st .hw ∧
        ¬ sources.Good st .jitter ∨
      degradedOk = false ∧ Xor (sources.Good st .hw) (sources.Good st .jitter)
  mixes : (xof sources.mixture n).isSome

def Quorum (sources : EntropySources) (degradedOk : Bool)
    (st : EntropyState) : Prop :=
  ∃ good : Finset EntropySource, quorumMin degradedOk ≤ good.card ∧
    ∀ source ∈ good, sources.Good st source

variable {degradedOk : Bool}
  {xof : List Byte → (len : ℕ) → Option (Buf len)} {n : ℕ}

/-- The other sources that are good, one short of the quorum. -/
theorem ShortReadDecides.exists_others
    (h : sources.ShortReadDecides degradedOk xof st n) :
    ∃ others : Finset EntropySource, .virtio ∉ others ∧
      (∀ source, source ∈ others ↔ sources.Good st source) ∧
        others.card + 1 = quorumMin degradedOk := by
  have hvirtio := h.passes.not_good
  rcases h.others with ⟨rfl, hhw, hjitter⟩ | ⟨rfl, hone⟩
  · refine ⟨∅, by simp, ?_, rfl⟩
    rintro (_ | _ | _)
    · simp [hhw]
    · simp [hvirtio]
    · simp [hjitter]
  · rcases hone with ⟨hhw, hjitter⟩ | ⟨hjitter, hhw⟩
    · refine ⟨{.hw}, by simp, ?_, rfl⟩
      rintro (_ | _ | _)
      · simp [hhw]
      · simp [hvirtio]
      · simp [hjitter]
    · refine ⟨{.jitter}, by simp, ?_, rfl⟩
      rintro (_ | _ | _)
      · simp [hhw]
      · simp [hvirtio]
      · simp [hjitter]

theorem Good.live_of_ne {source : EntropySource}
    (hgood : sources.Good st source) (hne : source ≠ .virtio) :
    sources.Live st source := by
  rcases source with _ | _ | _
  · exact live_hw_iff.mpr hgood
  · exact absurd rfl hne
  · exact live_jitter_iff.mpr hgood

theorem ShortReadDecides.collect_eq_ok
    (h : sources.ShortReadDecides degradedOk xof st n) (buf : Buf n) :
    (collect degradedOk xof sources st buf).1 = .ok () := by
  obtain ⟨others, hvirtio, hmem, hcard⟩ := h.exists_others
  rw [collect_eq_ok_iff, ← hcard, ← Finset.card_insert_of_notMem hvirtio]
  refine ⟨Finset.card_le_card fun source hsource => ?_, h.mixes⟩
  rw [mem_live]
  by_cases hne : source = .virtio
  · exact hne ▸ h.passes.live
  · have hother := Finset.mem_of_mem_insert_of_ne hsource hne
    exact ((hmem source).mp hother).live_of_ne hne

theorem ShortReadDecides.not_quorum
    (h : sources.ShortReadDecides degradedOk xof st n) :
    ¬ sources.Quorum degradedOk st := by
  rintro ⟨good, hle, hgood⟩
  obtain ⟨others, -, hmem, hcard⟩ := h.exists_others
  have hsub : good ⊆ others := fun source hsource =>
    (hmem source).mpr (hgood source hsource)
  have := Finset.card_le_card hsub
  omega

theorem Live.good_of_not_shortReadPasses
    {source : EntropySource} (hlive : sources.Live st source)
    (hno : ¬ sources.ShortReadPasses st) : sources.Good st source := by
  rcases source with _ | _ | _
  · exact live_hw_iff.mp hlive
  · exact (good_or_shortReadPasses_of_live hlive).resolve_right hno
  · exact live_jitter_iff.mp hlive

/-- With a short read among the live sources the others are a quorum by
themselves, unless they are one short of it. -/
theorem quorum_of_live
    (hothers : ¬ (degradedOk = true ∧ ¬ sources.Good st .hw ∧
          ¬ sources.Good st .jitter ∨
        degradedOk = false ∧
          Xor (sources.Good st .hw) (sources.Good st .jitter)))
    {live : Finset EntropySource}
    (hlive : ∀ source ∈ live, sources.Live st source)
    (hle : quorumMin degradedOk ≤ live.card) :
    sources.Quorum degradedOk st := by
  by_cases hhw : sources.Good st .hw
  · by_cases hjitter : sources.Good st .jitter
    · exact ⟨{.hw, .jitter}, by cases degradedOk <;> decide,
        by simp [hhw, hjitter]⟩
    · rcases degradedOk with _ | _
      · exact absurd (.inr ⟨rfl, .inl ⟨hhw, hjitter⟩⟩) hothers
      · exact ⟨{.hw}, by decide, by simp [hhw]⟩
  · by_cases hjitter : sources.Good st .jitter
    · rcases degradedOk with _ | _
      · exact absurd (.inr ⟨rfl, .inr ⟨hjitter, hhw⟩⟩) hothers
      · exact ⟨{.jitter}, by decide, by simp [hjitter]⟩
    · rcases degradedOk with _ | _
      · -- only the virtio device is left, and it is not two sources
        have hsub : live ⊆ {.virtio} := by
          intro source hmem
          rcases source with _ | _ | _
          · exact absurd (live_hw_iff.mp (hlive .hw hmem)) hhw
          · exact Finset.mem_singleton_self _
          · exact absurd (live_jitter_iff.mp (hlive .jitter hmem)) hjitter
        have htwo : 2 ≤ 1 := hle.trans (Finset.card_le_card hsub)
        omega
      · exact absurd (.inl ⟨rfl, hhw, hjitter⟩) hothers

end EntropySources

/-- A successful call means that enough sources delivered a complete, nonzero
and healthy sample, and a failed call leaves the caller's buffer unchanged,
exactly unless a short read of the virtio device decides. -/
theorem collect_quorum_iff (degradedOk : Bool)
    (xof : List Byte → (len : ℕ) → Option (Buf len))
    (sources : EntropySources) (st : EntropyState) {n : ℕ} (buf : Buf n) :
    (((collect degradedOk xof sources st buf).1 = .ok () →
          sources.Quorum degradedOk st) ∧
        ∀ e, (collect degradedOk xof sources st buf).1 = .error e →
          (collect degradedOk xof sources st buf).2.1 = buf) ↔
      ¬ sources.ShortReadDecides degradedOk xof st n := by
  constructor
  · rintro ⟨hquorum, -⟩ hdecides
    exact hdecides.not_quorum (hquorum (hdecides.collect_eq_ok buf))
  · intro hnot
    refine ⟨fun hok => ?_, fun e =>
      collect_buffer_of_error degradedOk xof sources st buf⟩
    obtain ⟨hle, hmixes⟩ :=
      (collect_eq_ok_iff degradedOk xof sources st buf).mp hok
    have hlive : ∀ source ∈ sources.live st, sources.Live st source :=
      fun source => (sources.mem_live st).mp
    by_cases hshort : sources.ShortReadPasses st
    · exact EntropySources.quorum_of_live
        (fun hothers => hnot ⟨hshort, hothers, hmixes⟩) hlive hle
    · exact ⟨sources.live st, hle, fun source hmem =>
        (hlive source hmem).good_of_not_shortReadPasses hshort⟩

/-- The sample of a clock whose octets count upwards. -/
def countingSample : Buf 32 := fun i => BitVec.ofNat 8 (i + 1)

/-- A device that gives a single octet, and a clock whose octets count
upwards. -/
def oneOctetSources : EntropySources where
  hw := none
  virtio := some fun scratch => (scratch.blit 0 [1], some 1)
  jitter := fun i => some (BitVec.ofNat 8 (i + 1))

/-- The production build takes one octet of the device for a sample: on a
machine without hardware source the call succeeds although only one source
delivered. -/
theorem collect_counts_short_read :
    ∃ xof : List Byte → (len : ℕ) → Option (Buf len),
      (collect false xof oneOctetSources .boot (Buf.zero : Buf 32)).1 =
          .ok () ∧
        ¬ oneOctetSources.Quorum false .boot := by
  have hdecides : oneOctetSources.ShortReadDecides false
      (fun _ _ => some Buf.zero) .boot 32 := by
    refine ⟨⟨Buf.ofList 32 [1], ?_, by decide, ?_⟩, .inr ⟨rfl, .inr ?_⟩, rfl⟩
    · exact ⟨_, _, 1, rfl, rfl, by decide, by decide, by decide, by decide⟩
    · rw [← StreamHealth.examine_fst_iff]
      decide
    · refine ⟨⟨countingSample, fun _ => rfl, by decide, ?_⟩, ?_⟩
      · rw [← StreamHealth.examine_fst_iff]
        decide
      · rintro ⟨_, ⟨_, _, ⟨⟩, -⟩, -⟩
  exact ⟨fun _ _ => some Buf.zero, hdecides.collect_eq_ok Buf.zero,
    hdecides.not_quorum⟩

end Quorum

end IsoLightK0
