import IsoLightK0.Entropy.Quorum
import IsoLightK0.Support.Triples

/-!
# Retries and the audit ring

`QuorumEntropy::collect_with_retry` collects until the quorum is there or the
time is over.  The source budgets the events of a reseed so that with those of
the boot there are 9 at most.  Every round that fails leaves 4 or 5 events, and
there can be ten million rounds, so the budget is kept exactly as long as the
second round is not a failure, but for one case.
-/

namespace IsoLightK0

open Bytes

def resultEntropyReseedAttempt : Byte := 9

def resultEntropyReseedPolling : Byte := 10

def resultEntropyReseedRecovered : Byte := 11

def retrySpinCeiling : ℕ := 10000000

/-- What the cycle counter and `timer_frequency` answer. -/
structure TimerReading where
  ticks : BitVec 64
  hz : Option (BitVec 64)

def elapsedSinceBootMs (t : TimerReading) : BitVec 64 :=
  match t.hz with
  | some hz => if 1000 ≤ hz then t.ticks / (hz / 1000) else 0
  | none => 0

/-- `audit_enqueue` of a stage of the reseed. -/
def EntropyState.auditReseed (st : EntropyState) (result : Byte) :
    EntropyState :=
  { st with auditRing := auditEnqueue st.auditRing 0xFE result 0 Buf.zero }

inductive RetryOutcome
  | returned (result : Except EntropyError Unit)
  | panicked

section Retry

variable {len : ℕ} (degradedOk : Bool)
  (xof : List Byte → (len : ℕ) → Option (Buf len)) (maxWaitMs : BitVec 64)
  (sources : ℕ → EntropySources) (timer : ℕ → TimerReading)

/-- The window is over after the collection number `k`. -/
def Late (k : ℕ) : Prop :=
  maxWaitMs <
    elapsedSinceBootMs (timer (k + 1)) - elapsedSinceBootMs (timer 0)

instance (k : ℕ) : Decidable (Late maxWaitMs timer k) :=
  inferInstanceAs (Decidable (_ < _))

/-- The loop of `collect_with_retry`.  What the sources and the timer answer in
each round is given by `sources` and `timer`. -/
def retryLoop (spins : ℕ) (st : EntropyState) (buf : Buf len) :
    RetryOutcome × Buf len × EntropyState :=
  match collect degradedOk xof (sources spins) st buf with
  | (.ok (), buf, st) =>
    (.returned (.ok ()), buf, st.auditReseed resultEntropyReseedRecovered)
  | (.error .quorumFailed, buf, st) =>
    let st := st.auditReseed resultEntropyReseedPolling
    if Late maxWaitMs timer spins ∨ retrySpinCeiling < spins + 1 then
      (.panicked, buf, st.auditFailure 0xFE subQuorumMin)
    else retryLoop (spins + 1) st buf
  | (.error e, buf, st) => (.returned (.error e), buf, st)
  termination_by retrySpinCeiling - spins
  decreasing_by omega

def collectWithRetry (st : EntropyState) (buf : Buf len) :
    RetryOutcome × Buf len × EntropyState :=
  retryLoop degradedOk xof maxWaitMs sources timer 0
    (st.auditReseed resultEntropyReseedAttempt) buf

/-! ## One round -/

/-- The events of a round: one for each source that is not live, one if the
quorum is not reached, and those of the loop. -/
theorem retryLoop_cases (spins : ℕ) (st : EntropyState) (buf : Buf len) :
    (quorumMin degradedOk ≤ ((sources spins).live st).card ∧
        ∃ m, m + ((sources spins).live st).card =
            3 + ((xof (sources spins).mixture len).isSome).toNat ∧
          Appends m st.auditRing (retryLoop degradedOk xof maxWaitMs sources
            timer spins st buf).2.2.auditRing) ∨
      ((sources spins).live st).card < quorumMin degradedOk ∧
        ((Late maxWaitMs timer spins ∨ retrySpinCeiling < spins + 1) ∧
            (∃ m, m + ((sources spins).live st).card = 6 ∧
              Appends m st.auditRing (retryLoop degradedOk xof maxWaitMs
                sources timer spins st buf).2.2.auditRing) ∨
          (¬ Late maxWaitMs timer spins ∧ spins + 1 ≤ retrySpinCeiling) ∧
            ∃ m st', m + ((sources spins).live st).card = 5 ∧
              Appends m st.auditRing st'.auditRing ∧
              (∀ source, st'.health source =
                (sources spins).examined st source) ∧
              retryLoop degradedOk xof maxWaitMs sources timer spins st buf =
                retryLoop degradedOk xof maxWaitMs sources timer (spins + 1)
                  st' buf) := by
  obtain ⟨st', htests, ⟨m, hm, happends⟩, heq⟩ :=
    collect_eq degradedOk xof (sources spins) st buf
  rw [retryLoop, heq]
  by_cases hfew : ((sources spins).live st).card < quorumMin degradedOk
  · rw [if_pos hfew]
    refine .inr ⟨hfew, ?_⟩
    have hpolled := (happends.trans (appends_auditEnqueue _ 0xFE
      resultEntropyReseedFailedPanic subQuorumMin Buf.zero)).trans
        (appends_auditEnqueue _ 0xFE resultEntropyReseedPolling 0 Buf.zero)
    dsimp only
    by_cases hend : Late maxWaitMs timer spins ∨ retrySpinCeiling < spins + 1
    · rw [if_pos hend]
      exact .inl ⟨hend, m + 1 + 1 + 1, by omega,
        hpolled.trans (appends_auditEnqueue _ _ _ _ _)⟩
    · rw [if_neg hend]
      obtain ⟨hlate, hspins⟩ := not_or.mp hend
      exact .inr ⟨⟨hlate, by omega⟩, m + 1 + 1,
        (st'.auditFailure 0xFE subQuorumMin).auditReseed
          resultEntropyReseedPolling,
        by omega, hpolled, htests, rfl⟩
  · rw [if_neg hfew]
    refine .inl ⟨Nat.le_of_not_lt hfew, ?_⟩
    rcases xof (sources spins).mixture len with _ | mix
    · exact ⟨m, hm, happends⟩
    · refine ⟨m + 1, ?_, happends.trans (appends_auditEnqueue _ _ _ _ _)⟩
      rw [Option.isSome_some, Bool.toNat_true]
      omega

theorem card_live_le (sources : EntropySources) (st : EntropyState) :
    (sources.live st).card ≤ 3 := by
  classical
  exact Finset.card_filter_le _ _

theorem quorumMin_cases : quorumMin degradedOk = 1 ∨ quorumMin degradedOk = 2 := by
  cases degradedOk with
  | false => exact .inr rfl
  | true => exact .inl rfl

/-- The loop comes to an end, with 6 events a round at most.  It leaves none
only if its first round is the last and has nothing to record. -/
theorem retryLoop_appends (spins : ℕ) (st : EntropyState) (buf : Buf len) :
    ∃ m ≤ 6 * (retrySpinCeiling - spins + 1),
      Appends m st.auditRing (retryLoop degradedOk xof maxWaitMs sources timer
        spins st buf).2.2.auditRing ∧
      (m = 0 ↔ ((sources spins).live st).card = 3 ∧
        (xof (sources spins).mixture len).isSome.toNat = 0) := by
  have hle := card_live_le (sources spins) st
  have hbit := Bool.toNat_le (xof (sources spins).mixture len).isSome
  have hmin := quorumMin_cases degradedOk
  rcases retryLoop_cases degradedOk xof maxWaitMs sources timer spins st buf
    with ⟨henough, m, hm, h⟩ | ⟨hfew, ⟨-, m, hm, h⟩ |
      ⟨⟨-, hspins⟩, m, st', hm, h, -, heq⟩⟩
  · exact ⟨m, by omega, h, by omega⟩
  · exact ⟨m, by omega, h, by omega⟩
  · obtain ⟨m', hm', h', -⟩ := retryLoop_appends (spins + 1) st' buf
    rw [heq]
    exact ⟨m + m', by omega, h.trans h', by omega⟩
  termination_by retrySpinCeiling - spins
  decreasing_by omega

/-! ## The budget -/

def testsBefore (st : EntropyState) : ℕ → EntropyState
  | 0 => st
  | k + 1 =>
    { testsBefore st k with health := (sources k).examined (testsBefore st k) }

noncomputable def liveAt (st : EntropyState) (k : ℕ) : ℕ :=
  ((sources k).live (testsBefore sources st k)).card

theorem liveAt_eq {s t : EntropyState} {k : ℕ}
    (h : ∀ source, t.health source =
      (testsBefore sources s k).health source) :
    ((sources k).live t).card = liveAt sources s k := by
  congr 1
  ext source
  rw [EntropySources.mem_live, EntropySources.mem_live]
  exact EntropySources.live_congr (h source)

def FailsTwice (st : EntropyState) : Prop :=
  liveAt sources st 0 < quorumMin degradedOk ∧ ¬ Late maxWaitMs timer 0 ∧
    liveAt sources st 1 < quorumMin degradedOk

/-- One source has been live in each of two rounds.  All are in the third, but
the mixing fails. -/
def EndsQuietly (st : EntropyState) (len : ℕ) : Prop :=
  liveAt sources st 0 = 1 ∧ liveAt sources st 1 = 1 ∧
    ¬ Late maxWaitMs timer 1 ∧ liveAt sources st 2 = 3 ∧
      xof (sources 2).mixture len = none

theorem collectWithRetry_appends (st : EntropyState) (buf : Buf len) :
    ∃ m < 2 ^ 32, Appends m st.auditRing (collectWithRetry degradedOk xof
        maxWaitMs sources timer st buf).2.2.auditRing ∧
      (m ≤ 9 ↔ ¬ FailsTwice degradedOk maxWaitMs sources timer st ∨
        EndsQuietly xof maxWaitMs sources timer st len) := by
  have hattempt : Appends 1 st.auditRing
      (st.auditReseed resultEntropyReseedAttempt).auditRing :=
    appends_auditEnqueue _ _ _ _ _
  have hmin := quorumMin_cases degradedOk
  have hceiling : retrySpinCeiling = 10000000 := rfl
  have hbit : ∀ k, (xof (sources k).mixture len).isSome.toNat ≤ 1 :=
    fun k => Bool.toNat_le _
  have hnone : xof (sources 2).mixture len = none ↔
      (xof (sources 2).mixture len).isSome.toNat = 0 := by
    cases xof (sources 2).mixture len <;> simp
  unfold collectWithRetry FailsTwice EndsQuietly
  rw [hnone]
  have hzero := liveAt_eq sources (s := st)
    (t := st.auditReseed resultEntropyReseedAttempt) (k := 0) fun _ => rfl
  rcases retryLoop_cases degradedOk xof maxWaitMs sources timer 0
      (st.auditReseed resultEntropyReseedAttempt) buf with
    ⟨henough, m, hm, h⟩ | ⟨hfew, ⟨hend, m, hm, h⟩ |
      ⟨⟨hlate, -⟩, m, st₁, hm, h, htests, heq⟩⟩
  · refine ⟨1 + m, ?_, hattempt.trans h, ?_⟩
    · have := hbit 0
      omega
    · have := hbit 0
      omega
  · have hlate : Late maxWaitMs timer 0 := hend.resolve_right (by omega)
    exact ⟨1 + m, by omega, hattempt.trans h,
      iff_of_true (by omega) (.inl fun hfails => hfails.2.1 hlate)⟩
  · rw [heq]
    have hone := liveAt_eq sources (s := st) (t := st₁) (k := 1) htests
    rcases retryLoop_cases degradedOk xof maxWaitMs sources timer 1 st₁ buf with
      ⟨henough', m', hm', h'⟩ | ⟨hfew', ⟨hend', m', hm', h'⟩ |
        ⟨⟨hlate', -⟩, m', st₂, hm', h', htests', heq'⟩⟩
    · have := hbit 1
      exact ⟨1 + m + m', by omega, (hattempt.trans h).trans h', by omega⟩
    · have hlate' : Late maxWaitMs timer 1 := hend'.resolve_right (by omega)
      refine ⟨1 + m + m', by omega, (hattempt.trans h).trans h',
        iff_of_false (by omega) ?_⟩
      rintro (hfails | hquiet)
      · exact hfails ⟨by omega, hlate, by omega⟩
      · exact hquiet.2.2.1 hlate'
    · rw [heq']
      obtain ⟨m'', hm'', h'', hquiet⟩ := retryLoop_appends degradedOk xof
        maxWaitMs sources timer 2 st₂ buf
      have htwo := liveAt_eq sources (s := st) (t := st₂) (k := 2)
        fun source => (htests' source).trans
          (EntropySources.examined_congr (htests source))
      refine ⟨1 + m + m' + m'', by omega,
        ((hattempt.trans h).trans h').trans h'', ?_⟩
      simp only [hlate, hlate', not_false_eq_true, true_and]
      omega

/-- The ring has at most 9 new events, and the latest 23 of before are still
where they were. -/
structure WithinBudget (r r' : AuditRing) : Prop where
  few : ∃ m ≤ 9, Appends m r r'
  kept : ∀ log, r.Records log → ∀ (i : ℕ) (hi : i < log.length),
    log.length ≤ i + 23 → ∀ cell : Fin 32, cell.val = i % 32 →
      r'.events cell = log[i]

theorem withinBudget_iff {m : ℕ} {r r' : AuditRing} (h : Appends m r r')
    (hm : m < 2 ^ 32) : WithinBudget r r' ↔ m ≤ 9 := by
  constructor
  · rintro ⟨⟨few, hfew, h'⟩, -⟩
    rwa [h.unique h' hm (by omega)]
  · intro hle
    exact ⟨⟨m, hle, h⟩, fun log hlog i hi hrecent cell hcell =>
      h.events_eq hlog hi (by omega) hcell⟩

/-- The budget is kept exactly when the second round does not fail, or when
only one source fails in both rounds and the third has nothing to record. -/
theorem collectWithRetry_withinBudget_iff (st : EntropyState) (buf : Buf len) :
    WithinBudget st.auditRing (collectWithRetry degradedOk xof maxWaitMs sources
        timer st buf).2.2.auditRing ↔
      ¬ FailsTwice degradedOk maxWaitMs sources timer st ∨
        EndsQuietly xof maxWaitMs sources timer st len := by
  obtain ⟨m, hm, h, hiff⟩ :=
    collectWithRetry_appends degradedOk xof maxWaitMs sources timer st buf
  rw [withinBudget_iff h hm, hiff]

end Retry

/-! ## Seeding the generator -/

section Seeding

open Triples

/-- How a seeding fails. -/
inductive SeedExit
  | returned (e : CapError)
  | panicked

/-- The match of `fill_hw_entropy`, with the filled buffer. -/
def RetryOutcome.seed {len : ℕ} (buf : Buf len) :
    RetryOutcome → Except SeedExit (Buf len)
  | .returned (.ok ()) => .ok buf
  | .returned (.error _) => .error (.returned .noEntropy)
  | .panicked => .error .panicked

variable (degradedOk : Bool) (xof : List Byte → (len : ℕ) → Option (Buf len))
  (sources : ℕ → EntropySources) (timer : ℕ → TimerReading)

/-- `fill_hw_entropy` on a buffer of `len` bytes. -/
def fillHwEntropy (len : ℕ) : Prog EntropyState SeedExit (Buf len) :=
  ExceptT.mk fun st =>
    let (outcome, buf, st) :=
      collectWithRetry degradedOk xof 60000 sources timer st Buf.zero
    (outcome.seed buf, st)

/-- `reseed_drbg`; the crate's `reseed` takes the entropy or fails. -/
def reseedDrbg (reseed : Buf 32 → Bool) :
    Prog EntropyState SeedExit Unit := do
  let entropy ← fillHwEntropy degradedOk xof sources timer 32
  Prog.exitIf (reseed entropy = false) (.returned .drbgInit)

theorem fillHwEntropy_appends (len : ℕ) (st : EntropyState) :
    ∃ m, Appends (1 + m) st.auditRing
      ((fillHwEntropy degradedOk xof sources timer len).eval st).2.auditRing := by
  obtain ⟨m, -, h, -⟩ := retryLoop_appends degradedOk xof 60000 sources timer 0
    (st.auditReseed resultEntropyReseedAttempt) (Buf.zero : Buf len)
  exact ⟨m, (appends_auditEnqueue _ _ _ _ _).trans h⟩

/-- A reseed writes the events of one answer of the tape, at least one. -/
theorem reseedDrbg_events (reseed : Buf 32 → Bool) (st : EntropyState) :
    ∃ events ≠ [], ∀ r tape,
      ((reseedDrbg degradedOk xof sources timer reseed).eval st).2.auditRing =
        auditEnqueueAll st.auditRing (reseedEvents
          (some (.reseedRequired events r :: tape)) (some tape)) := by
  obtain ⟨m, events, hlen, hring⟩ :=
    fillHwEntropy_appends degradedOk xof sources timer 32 st
  refine ⟨events, List.ne_nil_of_length_pos (by omega), fun r tape => ?_⟩
  have hused : [.reseedRequired events r] ++ (some tape).getD [] =
      (some (.reseedRequired events r :: tape)).getD [] := rfl
  rw [reseedEvents_eq hused, List.flatMap_singleton]
  exact Keeps.after (I := fun st' : EntropyState =>
    st'.auditRing = auditEnqueueAll st.auditRing events)
    (fun _ => Keeps.exitIf _ _) hring

end Seeding

def silentSources : EntropySources := ⟨none, none, fun _ => none⟩

theorem card_live_silentSources (st : EntropyState) :
    (silentSources.live st).card = 0 := by
  rw [Finset.card_eq_zero, Finset.eq_empty_iff_forall_notMem]
  intro source hlive
  rw [EntropySources.mem_live, EntropySources.live_iff] at hlive
  cases source with
  | hw | virtio | jitter => exact absurd hlive.1 (by rintro ⟨⟩)

/-- With a window of a minute, a timer that cannot be read, and no source that
answers, the loop polls on and on. -/
theorem collectWithRetry_silent_overruns :
    ¬ WithinBudget EntropyState.boot.auditRing
      (collectWithRetry false (fun _ _ => none) 60000 (fun _ => silentSources)
        (fun _ => ⟨0, none⟩) EntropyState.boot
        (Buf.zero : Buf 32)).2.2.auditRing := by
  obtain ⟨m, hm, h, hiff⟩ := collectWithRetry_appends false (fun _ _ => none)
    60000 (fun _ => silentSources) (fun _ => ⟨0, none⟩) EntropyState.boot
    (Buf.zero : Buf 32)
  have hnone : ∀ k, liveAt (fun _ => silentSources) EntropyState.boot k = 0 :=
    fun k => card_live_silentSources _
  rw [withinBudget_iff h hm, hiff]
  rintro (hfails | hquiet)
  · refine hfails ⟨?_, by unfold Late; decide, ?_⟩
    · rw [hnone]
      decide
    · rw [hnone]
      decide
  · exact absurd ((hnone 0).symm.trans hquiet.1) (by decide)

end IsoLightK0
