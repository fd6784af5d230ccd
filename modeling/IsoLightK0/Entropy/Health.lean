import IsoLightK0.Support.Bytes

/-!
# The health tests of an entropy source

`health.rs` examines the octets of an entropy source one by one.  The
repetition count test fails when an octet comes too often in a row, the
adaptive proportion test when the first octet of a window comes too often in
it.  The state is kept between the calls, so whether an octet passes depends on
the octets of earlier calls as well.

The array `apt_window` and its index are not read by any function of the
source and have no counterpart here.
-/

namespace IsoLightK0

open Bytes

def aptWindow : ℕ := 1024

def rctCutoff : ℕ := 41

def aptCutoff : ℕ := 793

def reentryThreshold : ℕ := 16

/-- `saturating_add(1)` of a `u32`. -/
def saturatingSucc (n : ℕ) : ℕ := min (n + 1) (2 ^ 32 - 1)

inductive HealthVerdict
  | pass
  | fail
  | needMoreData
  deriving DecidableEq, Repr

structure StreamHealth where
  rctLast : Byte
  rctCount : ℕ
  aptObservedCount : ℕ
  aptInitial : Byte
  aptFilled : ℕ
  consecutivePass : ℕ
  disabled : Bool
  deriving DecidableEq, Repr

namespace StreamHealth

def new : StreamHealth where
  rctLast := 0
  rctCount := 0
  aptObservedCount := 0
  aptInitial := 0
  aptFilled := 0
  consecutivePass := 0
  disabled := false

def disable (h : StreamHealth) : StreamHealth :=
  { h with disabled := true, consecutivePass := 0 }

/-- The reentry of a disabled source, counted in octets. -/
def reenter (h : StreamHealth) : StreamHealth :=
  let passed := saturatingSucc h.consecutivePass
  if h.disabled = true ∧ reentryThreshold ≤ passed then
    { h with consecutivePass := passed, disabled := false }
  else { h with consecutivePass := passed }

/-- The adaptive proportion test, the last part of `check`. -/
def checkApt (h : StreamHealth) (sample : Byte) :
    HealthVerdict × StreamHealth :=
  if h.aptFilled < aptWindow then
    let h :=
      if h.aptFilled = 0 then
        { h with aptInitial := sample, aptObservedCount := 1 }
      else if sample = h.aptInitial then
        { h with aptObservedCount := saturatingSucc h.aptObservedCount }
      else h
    let h := { h with aptFilled := h.aptFilled + 1 }
    if h.aptFilled < aptWindow then (.needMoreData, h)
    else
      let observed := h.aptObservedCount
      let h := { h with aptFilled := 0, aptObservedCount := 0 }
      if aptCutoff ≤ observed then (.fail, h.disable) else (.pass, h)
  else (.pass, h)

def check (h : StreamHealth) (sample : Byte) : HealthVerdict × StreamHealth :=
  if sample = h.rctLast then
    let h := { h with rctCount := saturatingSucc h.rctCount }
    if rctCutoff ≤ h.rctCount then (.fail, h.disable)
    else h.reenter.checkApt sample
  else
    { h with rctCount := 1, rctLast := sample }.reenter.checkApt sample

/-- The loop of `collect_from_source` over the octets of a sample.  It stops at
the first octet that fails. -/
def examine (h : StreamHealth) : List Byte → Bool × StreamHealth
  | [] => (true, h)
  | sample :: rest =>
    if (h.check sample).1 = .fail then (false, (h.check sample).2)
    else (h.check sample).2.examine rest

/-- The state after some octets, whatever their verdicts. -/
def after (h : StreamHealth) (samples : List Byte) : StreamHealth :=
  samples.foldl (fun h sample => (h.check sample).2) h

/-- No octet fails its check. -/
def Healthy (h : StreamHealth) (samples : List Byte) : Prop :=
  ∀ earlier sample later, samples = earlier ++ sample :: later →
    ((h.after earlier).check sample).1 ≠ .fail

theorem healthy_nil (h : StreamHealth) : h.Healthy [] := by
  intro earlier sample later hsplit
  simp at hsplit

theorem healthy_cons_iff (h : StreamHealth) (sample : Byte) (rest : List Byte) :
    h.Healthy (sample :: rest) ↔
      (h.check sample).1 ≠ .fail ∧ (h.check sample).2.Healthy rest := by
  constructor
  · intro hall
    refine ⟨hall [] sample rest rfl, ?_⟩
    intro earlier next later hsplit
    exact hall (sample :: earlier) next later
      (congrArg (List.cons sample) hsplit)
  · rintro ⟨hfirst, hrest⟩ earlier next later hsplit
    rcases earlier with _ | ⟨first, earlier⟩
    · obtain ⟨rfl, rfl⟩ := List.cons.inj hsplit
      exact hfirst
    · obtain ⟨rfl, htail⟩ := List.cons.inj hsplit
      exact hrest earlier next later htail

theorem examine_fst_iff (h : StreamHealth) (samples : List Byte) :
    (h.examine samples).1 = true ↔ h.Healthy samples := by
  induction samples generalizing h with
  | nil =>
    exact iff_of_true rfl (healthy_nil h)
  | cons sample rest ih =>
    rw [healthy_cons_iff, examine]
    by_cases hfail : (h.check sample).1 = .fail
    · simp [hfail]
    · simp [hfail, ih]

/-! ## One octet -/

theorem saturatingSucc_eq {n : ℕ} (h : n < 2 ^ 32 - 1) :
    saturatingSucc n = n + 1 := by
  unfold saturatingSucc
  omega

theorem saturatingSucc_min (n : ℕ) :
    saturatingSucc (min n (2 ^ 32 - 1)) = min (n + 1) (2 ^ 32 - 1) := by
  unfold saturatingSucc
  omega

/-- How often the octet has come in a row, itself included. -/
def nextRun (h : StreamHealth) (sample : Byte) : ℕ :=
  if sample = h.rctLast then saturatingSucc h.rctCount else 1

/-- The state in which the octet has been counted by the repetition count
test. -/
def noteRun (h : StreamHealth) (sample : Byte) : StreamHealth :=
  { h with rctLast := sample, rctCount := h.nextRun sample }

/-- Both branches of `check` count the octet; the second one never reaches the
cutoff. -/
theorem check_eq (h : StreamHealth) (sample : Byte) :
    h.check sample =
      if rctCutoff ≤ h.nextRun sample then
        (.fail, (h.noteRun sample).disable)
      else (h.noteRun sample).reenter.checkApt sample := by
  unfold check noteRun nextRun
  by_cases hsame : sample = h.rctLast
  · simp only [← hsame, if_true]
  · have hone : ¬ rctCutoff ≤ 1 := by decide
    simp only [if_neg hsame, if_neg hone]

theorem reenter_eq (h : StreamHealth) :
    ∃ disabled, h.reenter =
        { h with
          consecutivePass := saturatingSucc h.consecutivePass
          disabled := disabled } ∧
      (disabled = true ↔ h.disabled = true ∧
        saturatingSucc h.consecutivePass < reentryThreshold) := by
  unfold reenter
  dsimp only
  by_cases hback : h.disabled = true ∧
      reentryThreshold ≤ saturatingSucc h.consecutivePass
  · rw [if_pos hback]
    refine ⟨false, rfl, iff_of_false (by decide) fun hkept => ?_⟩
    exact absurd hback.2 (Nat.not_le_of_lt hkept.2)
  · rw [if_neg hback]
    refine ⟨h.disabled, rfl, fun hdisabled => ⟨hdisabled, ?_⟩, And.left⟩
    exact Nat.lt_of_not_le fun hle => hback ⟨hdisabled, hle⟩

/-- What the adaptive proportion test can do to the rest of the state: a
failure disables the source, any other verdict leaves it as it is. -/
theorem checkApt_cases (h : StreamHealth) (sample : Byte) :
    (h.checkApt sample).2.rctLast = h.rctLast ∧
      (h.checkApt sample).2.rctCount = h.rctCount ∧
      ((h.checkApt sample).1 = .fail ∧
          (h.checkApt sample).2.disabled = true ∧
          (h.checkApt sample).2.consecutivePass = 0 ∨
        (h.checkApt sample).1 ≠ .fail ∧
          (h.checkApt sample).2.disabled = h.disabled ∧
          (h.checkApt sample).2.consecutivePass = h.consecutivePass) := by
  unfold checkApt disable
  dsimp only
  split_ifs <;> simp

theorem check_run (h : StreamHealth) (sample : Byte) :
    (h.check sample).2.rctLast = sample ∧
      (h.check sample).2.rctCount = h.nextRun sample := by
  rw [check_eq]
  split
  · exact ⟨rfl, rfl⟩
  · obtain ⟨hlast, hcount, -⟩ :=
      checkApt_cases (h.noteRun sample).reenter sample
    obtain ⟨_, hreenter, -⟩ := (h.noteRun sample).reenter_eq
    rw [hlast, hcount, hreenter]
    exact ⟨rfl, rfl⟩

/-- What one octet does to the admission of the source: a failure disables it
and starts the count anew, any other verdict counts and may admit it again. -/
theorem check_admission (h : StreamHealth) (sample : Byte) :
    (h.check sample).1 = .fail ∧
        (h.check sample).2.disabled = true ∧
        (h.check sample).2.consecutivePass = 0 ∨
      (h.check sample).1 ≠ .fail ∧
        (h.check sample).2.consecutivePass =
          saturatingSucc h.consecutivePass ∧
        ((h.check sample).2.disabled = true ↔ h.disabled = true ∧
          saturatingSucc h.consecutivePass < reentryThreshold) := by
  rw [check_eq]
  split
  · exact .inl ⟨rfl, rfl, rfl⟩
  · obtain ⟨-, -, ⟨hfail, hdisabled, hpass⟩ | ⟨hok, hdisabled, hpass⟩⟩ :=
      checkApt_cases (h.noteRun sample).reenter sample
    · exact .inl ⟨hfail, hdisabled, hpass⟩
    · obtain ⟨_, hreenter, hiff⟩ := (h.noteRun sample).reenter_eq
      refine .inr ⟨hok, hpass.trans (by rw [hreenter]; rfl), ?_⟩
      rw [hdisabled, hreenter]
      exact hiff

/-- The first octet of the window, once the octet has been counted. -/
def nextInitial (h : StreamHealth) (sample : Byte) : Byte :=
  if h.aptFilled = 0 then sample else h.aptInitial

/-- How often the first octet of the window has come, once the octet has been
counted. -/
def nextObserved (h : StreamHealth) (sample : Byte) : ℕ :=
  if h.aptFilled = 0 then 1
  else if sample = h.aptInitial then saturatingSucc h.aptObservedCount
  else h.aptObservedCount

theorem checkApt_of_lt {h : StreamHealth} {sample : Byte}
    (hfilled : h.aptFilled + 1 < aptWindow) :
    h.checkApt sample = (.needMoreData,
      { h with
        aptInitial := h.nextInitial sample
        aptObservedCount := h.nextObserved sample
        aptFilled := h.aptFilled + 1 }) := by
  unfold checkApt nextInitial nextObserved
  rw [if_pos (by omega)]
  split_ifs <;> simp_all

theorem checkApt_of_full {h : StreamHealth}
    (hfilled : h.aptFilled + 1 = aptWindow) (sample : Byte) :
    (h.checkApt sample).1 =
        (if aptCutoff ≤ h.nextObserved sample then .fail else .pass) ∧
      (h.checkApt sample).2.aptFilled = 0 := by
  have hopen : h.aptFilled ≠ 0 := by
    unfold aptWindow at hfilled
    omega
  unfold checkApt nextObserved disable
  rw [if_pos (by omega)]
  by_cases hsame : sample = h.aptInitial
  · simp only [if_neg hopen, if_pos hsame, hfilled, lt_irrefl, if_false]
    split_ifs <;> simp
  · simp only [if_neg hopen, if_neg hsame, hfilled, lt_irrefl, if_false]
    split_ifs <;> simp

end StreamHealth

end IsoLightK0
