import IsoLightK0.Entropy.Quorum
import IsoLightK0.Support.Streams

/-!
# Verdicts along a stream

A stream of octets is fed to a fresh evaluator, one octet after the other.  The
evaluator has a few counters; what they count is said in terms of the stream
alone, so that a verdict can be read off the octets.

The repetition count test looks at every octet, so its counter follows the
stream for ever.  An octet on which it fails is not shown to the adaptive
proportion test, so that the windows of the second test are windows of the
stream only up to the first failure.
-/

namespace IsoLightK0

open Bytes Streams

namespace StreamHealth

def stateAt (stream : ℕ → Byte) : ℕ → StreamHealth
  | 0 => new
  | n + 1 => ((stateAt stream n).check (stream n)).2

/-- The verdict on the octet after the first `n`. -/
def verdict (stream : ℕ → Byte) (n : ℕ) : HealthVerdict :=
  ((stateAt stream n).check (stream n)).1

/-- The first `n` octets end with a window, and the first octet of this window
comes too often in it. -/
def Dominates (stream : ℕ → Byte) (n : ℕ) : Prop :=
  aptWindow ∣ n ∧
    aptCutoff ≤
      occurrences stream (stream (n - aptWindow)) (n - aptWindow) n

variable {stream : ℕ → Byte} {n : ℕ} {h : StreamHealth}

theorem nextRun_eq (hcount : h.rctCount = min (runLength stream n) (2 ^ 32 - 1))
    (hlast : 0 < n → h.rctLast = stream (n - 1)) :
    h.nextRun (stream n) = min (runLength stream (n + 1)) (2 ^ 32 - 1) := by
  unfold nextRun
  rcases n with _ | n
  · -- the initial state has counted no octet, whatever the first one is
    rw [hcount, saturatingSucc_min]
    split
    · rfl
    · rfl
  · rw [hlast (by omega), hcount, saturatingSucc_min, runLength,
      Nat.add_sub_cancel]
    split
    · rfl
    · rfl

/-- The counter of the test is the length of the run at the end of the
octets. -/
theorem stateAt_run (stream : ℕ → Byte) (n : ℕ) :
    (stateAt stream n).rctCount =
        min (runLength stream n) (2 ^ 32 - 1) ∧
      (0 < n → (stateAt stream n).rctLast = stream (n - 1)) := by
  induction n with
  | zero =>
    exact ⟨rfl, fun h => absurd h (lt_irrefl 0)⟩
  | succ n ih =>
    obtain ⟨hlast, hcount⟩ := (stateAt stream n).check_run (stream n)
    rw [stateAt, hcount, hlast]
    exact ⟨nextRun_eq ih.1 ih.2, fun _ => rfl⟩

theorem rctCutoff_le_nextRun_iff :
    rctCutoff ≤ (stateAt stream n).nextRun (stream n) ↔
      Repeats stream rctCutoff (n + 1) := by
  have hcutoff : rctCutoff ≤ 2 ^ 32 - 1 := by decide
  obtain ⟨hcount, hlast⟩ := stateAt_run stream n
  rw [nextRun_eq hcount hlast, repeats_iff_le_runLength (by decide), le_min_iff,
    and_iff_left hcutoff]

/-- The counters of the test describe the window that is being filled. -/
structure InWindow (stream : ℕ → Byte) (n : ℕ) (h : StreamHealth) : Prop where
  filled : h.aptFilled = n % aptWindow
  initial : n % aptWindow ≠ 0 → h.aptInitial = stream (n - n % aptWindow)
  observed : n % aptWindow ≠ 0 → h.aptObservedCount =
    occurrences stream (stream (n - n % aptWindow)) (n - n % aptWindow) n

theorem inWindow_new (stream : ℕ → Byte) : InWindow stream 0 new where
  filled := rfl
  initial h := absurd rfl h
  observed h := absurd rfl h

section Window

variable (hw : InWindow stream n h)

include hw

theorem InWindow.reenter (sample : Byte) :
    InWindow stream n (h.noteRun sample).reenter := by
  obtain ⟨_, heq, -⟩ := (h.noteRun sample).reenter_eq
  rw [heq]
  exact ⟨hw.filled, hw.initial, hw.observed⟩

theorem InWindow.nextInitial :
    h.nextInitial (stream n) = stream (n - n % aptWindow) := by
  unfold StreamHealth.nextInitial
  rw [hw.filled]
  by_cases hstart : n % aptWindow = 0
  · rw [if_pos hstart, hstart, Nat.sub_zero]
  · rw [if_neg hstart, hw.initial hstart]

theorem InWindow.nextObserved :
    h.nextObserved (stream n) =
      occurrences stream (stream (n - n % aptWindow)) (n - n % aptWindow)
        (n + 1) := by
  unfold StreamHealth.nextObserved
  rw [hw.filled, occurrences_succ _ _ (Nat.sub_le n _)]
  by_cases hstart : n % aptWindow = 0
  · rw [if_pos hstart, hstart, Nat.sub_zero, occurrences_self, if_pos rfl]
  · have hfew := occurrences_le stream (stream (n - n % aptWindow))
      (n - n % aptWindow) n
    have hmod : n % aptWindow < 1024 := Nat.mod_lt n (by decide)
    have hsmall : h.aptObservedCount < 2 ^ 32 - 1 := by
      rw [hw.observed hstart]
      omega
    rw [if_neg hstart, hw.initial hstart, saturatingSucc_eq hsmall,
      hw.observed hstart]
    split
    · rfl
    · rfl

theorem InWindow.step_of_lt (hlt : n % aptWindow + 1 < aptWindow) :
    (h.checkApt (stream n)).1 = .needMoreData ∧
      InWindow stream (n + 1) (h.checkApt (stream n)).2 := by
  have hmod : (n + 1) % aptWindow = n % aptWindow + 1 := by
    unfold aptWindow at hlt ⊢
    omega
  have hbegin : n + 1 - (n % aptWindow + 1) = n - n % aptWindow := by
    omega
  rw [checkApt_of_lt (by rw [hw.filled]; exact hlt)]
  refine ⟨rfl, ?_, fun _ => ?_, fun _ => ?_⟩
  · rw [hmod, hw.filled]
  · rw [hmod, hbegin]
    exact hw.nextInitial
  · rw [hmod, hbegin]
    exact hw.nextObserved

theorem InWindow.step_of_full (hfull : n % aptWindow + 1 = aptWindow) :
    (h.checkApt (stream n)).1 =
        (if aptCutoff ≤ occurrences stream (stream (n + 1 - aptWindow))
          (n + 1 - aptWindow) (n + 1) then .fail else .pass) ∧
      InWindow stream (n + 1) (h.checkApt (stream n)).2 := by
  have hmod : (n + 1) % aptWindow = 0 := by
    unfold aptWindow at hfull ⊢
    omega
  have hbegin : n + 1 - aptWindow = n - n % aptWindow := by
    omega
  have hlast : h.aptFilled + 1 = aptWindow := by
    rw [hw.filled]
    exact hfull
  obtain ⟨hverdict, hfilled⟩ := checkApt_of_full hlast (stream n)
  rw [hverdict, hw.nextObserved, hbegin]
  exact ⟨rfl, hfilled.trans hmod.symm, fun h => absurd hmod h,
    fun h => absurd hmod h⟩

end Window

/-! ## The verdicts -/

theorem inWindow_stateAt (hfirst : ∀ j < n, verdict stream j ≠ .fail) :
    InWindow stream n (stateAt stream n) := by
  induction n with
  | zero => exact inWindow_new stream
  | succ n ih =>
    have hw := ih fun j hj => hfirst j (by omega)
    have hpass := hfirst n (by omega)
    rw [verdict, check_eq] at hpass
    rw [stateAt, check_eq]
    split at hpass
    · exact absurd rfl hpass
    · rename_i hshort
      rw [if_neg hshort]
      have hmod : n % aptWindow < aptWindow := Nat.mod_lt n (by decide)
      by_cases hfull : n % aptWindow + 1 = aptWindow
      · exact ((hw.reenter (stream n)).step_of_full hfull).2
      · exact ((hw.reenter (stream n)).step_of_lt (by omega)).2

theorem dvd_succ_iff : aptWindow ∣ n + 1 ↔ n % aptWindow + 1 = aptWindow := by
  unfold aptWindow
  omega

theorem verdict_cases (hfirst : ∀ j < n, verdict stream j ≠ .fail) :
    Repeats stream rctCutoff (n + 1) ∧ verdict stream n = .fail ∨
      ¬ Repeats stream rctCutoff (n + 1) ∧
        (Dominates stream (n + 1) ∧ verdict stream n = .fail ∨
          ¬ Dominates stream (n + 1) ∧
            verdict stream n =
              if aptWindow ∣ n + 1 then .pass else .needMoreData) := by
  have hw := (inWindow_stateAt hfirst).reenter (stream n)
  have hmod : n % aptWindow < aptWindow := Nat.mod_lt n (by decide)
  rw [verdict, check_eq]
  by_cases hrun : Repeats stream rctCutoff (n + 1)
  · rw [if_pos (rctCutoff_le_nextRun_iff.mpr hrun)]
    exact .inl ⟨hrun, rfl⟩
  · rw [if_neg (mt rctCutoff_le_nextRun_iff.mp hrun)]
    refine .inr ⟨hrun, ?_⟩
    by_cases hfull : aptWindow ∣ n + 1
    · rw [(hw.step_of_full (dvd_succ_iff.mp hfull)).1, if_pos hfull]
      split
      · rename_i hmany
        exact .inl ⟨⟨hfull, hmany⟩, rfl⟩
      · rename_i hfew
        exact .inr ⟨fun hdominates => hfew hdominates.2, rfl⟩
    · have hne := mt dvd_succ_iff.mpr hfull
      rw [(hw.step_of_lt (by omega)).1, if_neg hfull]
      exact .inr ⟨fun hdominates => hfull hdominates.1, rfl⟩

theorem verdict_ne_fail_of_lt (hlt : n + 1 < rctCutoff) :
    verdict stream n ≠ .fail := by
  induction n using Nat.strong_induction_on with
  | _ n ih =>
    have hwindow : rctCutoff ≤ aptWindow := by decide
    rcases verdict_cases fun j hj => ih j hj (by omega) with
      ⟨⟨hle, -⟩, -⟩ | ⟨-, ⟨⟨hdvd, -⟩, -⟩ | ⟨-, heq⟩⟩
    · omega
    · have := Nat.le_of_dvd (Nat.succ_pos n) hdvd
      omega
    · rw [heq]
      split
      · decide
      · decide

/-- Up to and including the first failure a verdict is `fail` exactly if the
octet ends a run of `rctCutoff` equal ones, or ends a window whose first octet
comes at least `aptCutoff` times in it.  Any other verdict is `pass` at the end
of a window and `needMoreData` within it. -/
theorem verdict_spec (stream : ℕ → Byte) (n : ℕ)
    (hfirst : ∀ j < n, verdict stream j ≠ .fail) :
    (verdict stream n = .fail ↔
        Repeats stream rctCutoff (n + 1) ∨ Dominates stream (n + 1)) ∧
      (verdict stream n ≠ .fail →
        (aptWindow ∣ n + 1 → verdict stream n = .pass) ∧
          (¬ aptWindow ∣ n + 1 → verdict stream n = .needMoreData)) := by
  rcases verdict_cases hfirst with
    ⟨hrun, hfail⟩ | ⟨hrun, ⟨hdominates, hfail⟩ | ⟨hnot, heq⟩⟩
  · exact ⟨iff_of_true hfail (.inl hrun), fun h => absurd hfail h⟩
  · exact ⟨iff_of_true hfail (.inr hdominates), fun h => absurd hfail h⟩
  · rw [heq]
    refine ⟨iff_of_false ?_ ?_, fun _ => ⟨fun h => if_pos h, fun h => if_neg h⟩⟩
    · split
      · decide
      · decide
    · rintro (hlong | hdominates)
      · exact hrun hlong
      · exact hnot hdominates

/-- On a constant stream the first failure is the octet number 41. -/
theorem verdict_spec_constant :
    (∀ j < 40, verdict (fun _ => 0xAA) j ≠ .fail) ∧
      (verdict (fun _ => 0xAA) 40 = .fail ↔
        Repeats (fun _ => (0xAA : Byte)) rctCutoff 41 ∨
          Dominates (fun _ => 0xAA) 41) := by
  have hfirst : ∀ j < 40, verdict (fun _ => 0xAA) j ≠ .fail := by decide
  exact ⟨hfirst, (verdict_spec (fun _ => 0xAA) 40 hfirst).1⟩

theorem after_append (h : StreamHealth) (first second : List Byte) :
    h.after (first ++ second) = (h.after first).after second :=
  List.foldl_append

def streamOf (samples : List Byte) (j : ℕ) : Byte := samples[j]?.getD 0

theorem after_take (samples : List Byte) (hle : n ≤ samples.length) :
    new.after (samples.take n) = stateAt (streamOf samples) n := by
  induction n with
  | zero => rfl
  | succ n ih =>
    have hlt : n < samples.length := hle
    have hoctet : streamOf samples n = samples[n] := by
      simp [streamOf, hlt]
    rw [List.take_succ_eq_append_getElem hlt, after_append, ih hlt.le, stateAt,
      hoctet]
    rfl

theorem healthy_of_length_lt {samples : List Byte}
    (hlt : samples.length < rctCutoff) : new.Healthy samples := by
  rintro earlier sample later rfl
  have hfront : (earlier ++ sample :: later).take earlier.length = earlier :=
    List.take_left
  have hstate := after_take (n := earlier.length) (earlier ++ sample :: later)
    (by simp)
  have hoctet : streamOf (earlier ++ sample :: later) earlier.length =
      sample := by
    simp [streamOf]
  rw [List.length_append, List.length_cons] at hlt
  rw [hfront] at hstate
  have hpass : verdict (streamOf (earlier ++ sample :: later))
      earlier.length ≠ .fail := verdict_ne_fail_of_lt (by omega)
  rwa [verdict, ← hstate, hoctet] at hpass

/-- The counter of the passes counts the octets since the last failure. -/
theorem stateAt_admission (stream : ℕ → Byte) (n : ℕ) :
    (stateAt stream n).consecutivePass =
        min (quietTime (fun j => verdict stream j = .fail) n) (2 ^ 32 - 1) ∧
      ((stateAt stream n).disabled = true ↔
        (∃ j < n, verdict stream j = .fail) ∧
          quietTime (fun j => verdict stream j = .fail) n <
            reentryThreshold) := by
  induction n with
  | zero => simp [stateAt, new, quietTime]
  | succ n ih =>
    obtain ⟨hpass, hdisabled⟩ := ih
    rw [stateAt, quietTime]
    rcases (stateAt stream n).check_admission (stream n) with
      ⟨hfail, hoff, hzero⟩ | ⟨hok, hcount, hiff⟩
    · have hnow : verdict stream n = .fail := hfail
      rw [if_pos hnow, hoff, hzero]
      refine ⟨rfl, iff_of_true rfl ⟨⟨n, by omega, hnow⟩, by decide⟩⟩
    · have hnow : verdict stream n ≠ .fail := hok
      have hearlier : (∃ j < n + 1, verdict stream j = .fail) ↔
          ∃ j < n, verdict stream j = .fail := by
        constructor
        · rintro ⟨j, hlt, hj⟩
          have hne : j ≠ n := fun heq => hnow (heq ▸ hj)
          exact ⟨j, by omega, hj⟩
        · rintro ⟨j, hlt, hj⟩
          exact ⟨j, by omega, hj⟩
      have hthreshold : reentryThreshold = 16 := rfl
      rw [if_neg hnow, hcount, hiff, hdisabled, hpass, saturatingSucc_min,
        hearlier, hthreshold]
      refine ⟨rfl, ?_⟩
      constructor
      · rintro ⟨⟨hfailed, -⟩, hlt⟩
        exact ⟨hfailed, by omega⟩
      · rintro ⟨hfailed, hlt⟩
        exact ⟨⟨hfailed, by omega⟩, by omega⟩

/-- A source is disabled exactly if an octet failed and fewer than
`reentryThreshold` octets have passed since the last failure. -/
theorem disabled_iff_lastBefore (stream : ℕ → Byte) (n : ℕ) :
    (stateAt stream n).disabled = true ↔
      ∃ j, LastBefore (fun k => verdict stream k = .fail) n j ∧
        quietSince (fun k => verdict stream k = .fail) n j <
          reentryThreshold := by
  rw [(stateAt_admission stream n).2]
  constructor
  · rintro ⟨hfailed, hlt⟩
    obtain ⟨j, hlast⟩ := exists_lastBefore hfailed
    exact ⟨j, hlast, hlast.quietTime_eq ▸ hlt⟩
  · rintro ⟨j, hlast, hlt⟩
    exact ⟨⟨j, hlast.lt, hlast.happened⟩, hlast.quietTime_eq ▸ hlt⟩

theorem disabled_of_examine {samples : List Byte}
    (hok : (h.examine samples).1 = true)
    (hoff : (h.examine samples).2.disabled = true) :
    h.disabled = true ∧ (samples ≠ [] →
      h.consecutivePass + samples.length < reentryThreshold) := by
  induction samples generalizing h with
  | nil => exact ⟨hoff, fun hsome => absurd rfl hsome⟩
  | cons sample rest ih =>
    rcases h.check_admission sample with ⟨hfail, -⟩ | ⟨hpass, hcount, hiff⟩
    · rw [examine, if_pos hfail] at hok
      cases hok
    · rw [examine, if_neg hpass] at hok hoff
      obtain ⟨hnow, hlater⟩ := ih hok hoff
      obtain ⟨hbefore, hfew⟩ := hiff.mp hnow
      refine ⟨hbefore, fun _ => ?_⟩
      have hthreshold : reentryThreshold = 16 := rfl
      unfold saturatingSucc at hfew hcount
      rw [List.length_cons]
      by_cases hrest : rest = []
      · rw [hrest, List.length_nil]
        omega
      · have := hlater hrest
        omega

end StreamHealth

/-! ## Sources that are counted -/

theorem examine_of_collectFromSource {sources : EntropySources}
    {source : EntropySource} {st : EntropyState} {buf : Buf 32} {bits : Byte}
    (hok : (collectFromSource sources source st buf).1 = .ok bits) :
    ∃ sample : Buf 32,
      ((st.health source).examine sample.toList).1 = true ∧
        (collectFromSource sources source st buf).2.2.health source =
          ((st.health source).examine sample.toList).2 := by
  refine ⟨(sources.fill source st.virtioScratch buf).2.1, ?_⟩
  unfold collectFromSource at hok ⊢
  dsimp only at hok ⊢
  split at hok
  · cases hok
  · split at hok
    · cases hok
    · rename_i hnonzero
      split at hok
      · rename_i hhealthy
        rw [if_neg hnonzero, if_pos hhealthy]
        exact ⟨hhealthy, Function.update_self _ _ _⟩
      · cases hok

/-- After any octets a source is disabled exactly if one of them failed and
fewer than `reentryThreshold` have passed since the last failure.  A sample is
longer than that, so a source that succeeds is not disabled, whatever has been
collected before. -/
theorem disabled_spec :
    (∀ (stream : ℕ → Byte) (n : ℕ),
      (StreamHealth.stateAt stream n).disabled = true ↔
        ∃ j, LastBefore (StreamHealth.verdict stream · = .fail) n j ∧
          quietSince (StreamHealth.verdict stream · = .fail) n j <
            reentryThreshold) ∧
      ∀ (sources : EntropySources) (source : EntropySource)
        (st : EntropyState) (buf : Buf 32) (bits : Byte),
        (collectFromSource sources source st buf).1 = .ok bits →
          ((collectFromSource sources source st buf).2.2.health
            source).disabled = false := by
  refine ⟨StreamHealth.disabled_iff_lastBefore, ?_⟩
  intro sources source st buf bits hok
  obtain ⟨sample, hhealthy, hstate⟩ := examine_of_collectFromSource hok
  rw [hstate]
  by_contra hoff
  have hlength : sample.toList.length = 32 := by simp
  obtain ⟨-, hfew⟩ := StreamHealth.disabled_of_examine hhealthy
    (Bool.not_eq_false _ ▸ hoff)
  have hlt := hfew (List.ne_nil_of_length_pos (by omega))
  have hthreshold : reentryThreshold = 16 := rfl
  omega

/-- The state when every source has given the same octet `rctCutoff` times. -/
def repeatedState : EntropyState :=
  { EntropyState.boot with
    health := fun _ => StreamHealth.stateAt (fun _ => 0) rctCutoff }

/-- The clock of `oneOctetSources` succeeds, and is admitted again. -/
theorem disabled_spec_readmitted :
    (repeatedState.health .jitter).disabled = true ∧
      (collectFromSource oneOctetSources .jitter repeatedState
        Buf.zero).1 = .ok 16 ∧
      ((collectFromSource oneOctetSources .jitter repeatedState
        Buf.zero).2.2.health .jitter).disabled = false := by
  have hok : (collectFromSource oneOctetSources .jitter repeatedState
      Buf.zero).1 = .ok 16 := by decide +kernel
  exact ⟨by decide +kernel, hok, disabled_spec.2 oneOctetSources .jitter
    repeatedState Buf.zero 16 hok⟩

end IsoLightK0
