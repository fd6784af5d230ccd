import Mathlib.Logic.Relation
import Mathlib.Tactic.Common

/-!
# Loops with fuel

A `while` loop is given by its round: from the loop variables it goes on with
new ones, leaves with a result, or stops with an error.  `loop` runs at most
`fuel` rounds and stops with `stuck` when they do not suffice.

A loop that does not get stuck for some fuel gives the same answer for every
larger one.  Two rules decide which loops get stuck: a measure that each round
decreases (`loop_meets`), and an invariant under which there is always another
round (`loop_eq_stuck`).
-/

namespace Loops

universe u v w

variable {κ : Type u} {β : Type v} {ε : Type w} {stuck : ε}

/-- Run the rounds from the loop variables `k`. -/
def loop (stuck : ε) (round : κ → Except ε (κ ⊕ β)) : ℕ → κ → Except ε β
  | 0, _ => .error stuck
  | fuel + 1, k =>
    match round k with
    | .error e => .error e
    | .ok (.inl k') => loop stuck round fuel k'
    | .ok (.inr b) => .ok b

/-- The computation returns only values in `Q` and stops only with errors in
`P`. -/
def Meets (Q : β → Prop) (P : ε → Prop) : Except ε β → Prop
  | .ok b => Q b
  | .error e => P e

variable {Q : β → Prop} {r : Except ε β} {e : ε} {P : ε → Prop}
  {round : ℕ → κ → Except ε (κ ⊕ β)}

theorem Meets.exists_ok (h : Meets Q (fun _ => False) r) :
    ∃ b, r = .ok b ∧ Q b := by
  cases r with
  | ok b => exact ⟨b, rfl, h⟩
  | error e => exact h.elim

theorem Meets.eq_error (h : Meets Q (· = e) r) (hQ : ∀ b, ¬ Q b) :
    r = .error e := by
  cases r with
  | ok b => exact absurd h (hQ b)
  | error e' => exact congrArg Except.error h

theorem Meets.of_error (h : Meets Q P r) (hr : r = .error e) : P e := by
  rwa [hr] at h

theorem Meets.exists_ok_of_ne {Q' : β → Prop} {P' : ε → Prop} (h : Meets Q P r)
    (h' : Meets Q' P' r) (hne : ∀ e, P e → ¬ P' e) : ∃ b, r = .ok b := by
  cases r with
  | ok b => exact ⟨b, rfl⟩
  | error e => exact absurd h' (hne e h)

theorem Meets.bind {α : Type v} {Q : α → Prop} {Q' : β → Prop} {x : Except ε α}
    {f : α → Except ε β} (hx : Meets Q P x) (hf : ∀ a, Q a → Meets Q' P (f a)) :
    Meets Q' P (x >>= f) := by
  cases x with
  | ok a => exact hf a hx
  | error e => exact hx

theorem meets_true (r : Except ε β) :
    Meets (fun _ => True) (fun _ => True) r := by
  cases r <;> trivial

section Rounds

variable {round : κ → Except ε (κ ⊕ β)} {k k' : κ} {b : β} {e : ε}

theorem loop_of_next (h : round k = .ok (.inl k')) (fuel : ℕ) :
    loop stuck round (fuel + 1) k = loop stuck round fuel k' := by
  rw [loop, h]

theorem loop_of_done (h : round k = .ok (.inr b)) (fuel : ℕ) :
    loop stuck round (fuel + 1) k = .ok b := by
  rw [loop, h]

theorem loop_of_error (h : round k = .error e) (fuel : ℕ) :
    loop stuck round (fuel + 1) k = .error e := by
  rw [loop, h]

variable {I : κ → Prop}

/-- A loop whose rounds decrease a measure ends with what its rounds end
with. -/
theorem loop_meets {μ : κ → ℕ} {Q : β → Prop} {P : ε → Prop}
    (hround : ∀ k, I k →
      Meets (Sum.elim (fun k' => I k' ∧ μ k' < μ k) Q) P (round k)) {fuel : ℕ}
    (hk : I k) (hfuel : μ k < fuel) : Meets Q P (loop stuck round fuel k) := by
  induction fuel generalizing k with
  | zero => exact absurd hfuel (Nat.not_lt_zero _)
  | succ fuel ih =>
    have hk' := hround k hk
    rcases hr : round k with e | k' | b
    · rw [loop_of_error hr]
      rwa [hr] at hk'
    · rw [loop_of_next hr]
      rw [hr] at hk'
      exact ih hk'.1 (Nat.lt_of_lt_of_le hk'.2 (Nat.le_of_lt_succ hfuel))
    · rw [loop_of_done hr]
      rwa [hr] at hk'

/-- Without a measure it may also get stuck. -/
theorem loop_meets_of_stuck {Q : β → Prop} {P : ε → Prop} (hstuck : P stuck)
    (hround : ∀ k, I k → Meets (Sum.elim I Q) P (round k)) (fuel : ℕ)
    (hk : I k) : Meets Q P (loop stuck round fuel k) := by
  induction fuel generalizing k with
  | zero => exact hstuck
  | succ fuel ih =>
    have hk' := hround k hk
    rcases hr : round k with e | k' | b
    · rw [loop_of_error hr]
      rwa [hr] at hk'
    · rw [loop_of_next hr]
      rw [hr] at hk'
      exact ih hk'
    · rw [loop_of_done hr]
      rwa [hr] at hk'

/-- A loop that can always make another round gets stuck. -/
theorem loop_eq_stuck
    (hstep : ∀ k, I k →
      round k = .error stuck ∨ ∃ k', round k = .ok (.inl k') ∧ I k') (fuel : ℕ)
    (hk : I k) : loop stuck round fuel k = .error stuck := by
  induction fuel generalizing k with
  | zero => rfl
  | succ fuel ih =>
    rcases hstep k hk with hr | ⟨k', hr, hk'⟩
    · exact loop_of_error hr fuel
    · rw [loop_of_next hr]
      exact ih hk'

/-- A loop that counts from `i` to `n` folds its rounds. -/
theorem loop_eq_foldl {σ : Type*} {p : ℕ → κ} {f : ℕ → σ → σ} {n i fuel : ℕ}
    {s : σ} {round : κ × σ → Except ε ((κ × σ) ⊕ σ)}
    (hnext : ∀ i < n, ∀ s, round (p i, s) = .ok (.inl (p (i + 1), f i s)))
    (hdone : ∀ s, round (p n, s) = .ok (.inr s)) (hi : i ≤ n)
    (hfuel : n - i < fuel) :
    loop stuck round fuel (p i, s) =
      .ok ((List.range' i (n - i)).foldl (fun s i => f i s) s) := by
  induction fuel generalizing i s with
  | zero => exact absurd hfuel (Nat.not_lt_zero _)
  | succ fuel ih =>
    rcases Nat.lt_or_eq_of_le hi with hlt | rfl
    · have hcount : n - i = (n - (i + 1)) + 1 := by omega
      rw [loop_of_next (hnext i hlt s), ih hlt (by omega), hcount,
        List.range'_succ, List.foldl_cons]
    · rw [loop_of_done (hdone s), Nat.sub_self]
      rfl

/-- The loop goes from `k` to `k'` in one round. -/
def Goes (round : κ → Except ε (κ ⊕ β)) (k k' : κ) : Prop :=
  round k = .ok (.inl k')

/-- A loop never stops with an error other than `stuck` exactly if no round
that it comes to does. -/
theorem forall_loop_ne_error_iff (he : e ≠ stuck) :
    (∀ fuel, loop stuck round fuel k ≠ .error e) ↔
      ∀ k', Relation.ReflTransGen (Goes round) k k' →
        round k' ≠ .error e := by
  constructor
  · intro h k' hreach
    induction hreach using Relation.ReflTransGen.head_induction_on with
    | refl => exact fun hr => h 1 (loop_of_error hr 0)
    | head hgoes _ ih =>
      apply ih
      intro fuel
      rw [← loop_of_next hgoes]
      exact h (fuel + 1)
  · intro h fuel
    induction fuel generalizing k with
    | zero =>
      intro heq
      cases heq
      exact he rfl
    | succ fuel ih =>
      rcases hr : round k with e' | k' | b
      · rw [loop_of_error hr]
        intro heq
        cases heq
        exact h k .refl hr
      · rw [loop_of_next hr]
        exact ih fun k'' hreach => h k'' (hreach.head hr)
      · rw [loop_of_done hr]
        intro heq
        cases heq

/-- Suppose a part `π` of the loop variables decides alone where the loop goes
and whether a round stops with an error: it does where `S` fails.  Then no
round that the loop comes to does exactly if `S` holds along the way. -/
theorem forall_reachable_ne_error_iff {ω : Type*} {π : κ → ω}
    {R : ω → ω → Prop} {S : ω → Prop}
    (hround : ∀ k', Relation.ReflTransGen R (π k) (π k') →
      (¬ S (π k') ∧ round k' = .error e) ∨
        (S (π k') ∧ (∀ o, ¬ R (π k') o) ∧ ∃ b, round k' = .ok (.inr b)) ∨
        (S (π k') ∧ ∃ k'', (∀ o, R (π k') o ↔ o = π k'') ∧
          round k' = .ok (.inl k''))) :
    (∀ k', Relation.ReflTransGen (Goes round) k k' → round k' ≠ .error e) ↔
      ∀ o, Relation.ReflTransGen R (π k) o → S o := by
  constructor
  · intro hsafe o hreach
    have hlift : ∃ k', Relation.ReflTransGen (Goes round) k k' ∧ π k' = o := by
      induction hreach with
      | refl => exact ⟨k, .refl, rfl⟩
      | tail hreach hstep ih =>
        obtain ⟨k₁, hk₁, rfl⟩ := ih
        rcases hround k₁ hreach with ⟨-, herror⟩ | ⟨-, hlast, -⟩ |
          ⟨-, k₂, hnext, hgoes⟩
        · exact absurd herror (hsafe k₁ hk₁)
        · exact absurd hstep (hlast _)
        · exact ⟨k₂, hk₁.tail hgoes, ((hnext _).mp hstep).symm⟩
    obtain ⟨k', hk', rfl⟩ := hlift
    rcases hround k' hreach with ⟨-, herror⟩ | ⟨hS, -⟩ | ⟨hS, -⟩
    · exact absurd herror (hsafe k' hk')
    · exact hS
    · exact hS
  · intro hall k' hreach
    have hproj : Relation.ReflTransGen R (π k) (π k') := by
      induction hreach with
      | refl => exact .refl
      | tail _ hstep ih =>
        rcases hround _ ih with ⟨-, hr⟩ | ⟨-, -, b, hr⟩ | ⟨-, k₂, hnext, hr⟩
        · cases hr.symm.trans hstep
        · cases hr.symm.trans hstep
        · cases hr.symm.trans hstep
          exact ih.tail ((hnext _).mpr rfl)
    rcases hround k' hproj with ⟨hnot, -⟩ | ⟨-, -, b, hr⟩ | ⟨-, k'', -, hr⟩
    · exact absurd (hall _ hproj) hnot
    · rw [hr]
      exact fun heq => nomatch heq
    · rw [hr]
      exact fun heq => nomatch heq

end Rounds

/-! ## Loops inside loops

The rounds of an outer loop get the fuel for their inner loops. -/

/-- The answer no longer depends on the fuel once it suffices. -/
def Stable (stuck : ε) (run : ℕ → Except ε β) : Prop :=
  ∀ n m, n ≤ m → run n ≠ .error stuck → run m = run n

/-- Some fuel suffices. -/
def Halts (stuck : ε) (run : ℕ → Except ε β) : Prop :=
  ∃ fuel, run fuel ≠ .error stuck

theorem halts_of_ok {run : ℕ → Except ε β} {fuel : ℕ} {b : β}
    (h : run fuel = .ok b) : Halts stuck run :=
  ⟨fuel, fun hstuck => by rw [h] at hstuck; cases hstuck⟩

theorem Stable.error {run : ℕ → Except ε β} {n m : ℕ} (h : Stable stuck run)
    (he : e ≠ stuck) (hn : run n = .error e) (hle : n ≤ m) :
    run m = .error e := by
  rw [h n m hle, hn]
  rw [hn]
  intro hstuck
  cases hstuck
  exact he rfl

theorem stable_const (r : Except ε β) : Stable stuck fun _ => r :=
  fun _ _ _ _ => rfl

theorem Stable.bind {α : Type v} {x : ℕ → Except ε α}
    {f : ℕ → α → Except ε β} (hx : Stable stuck x)
    (hf : ∀ a, Stable stuck fun n => f n a) :
    Stable stuck fun n => x n >>= f n := by
  intro n m hle hne
  dsimp only at hne ⊢
  rcases hn : x n with e | a
  · rw [hn] at hne
    have hstuck : x n ≠ .error stuck := by
      rw [hn]
      intro heq
      cases heq
      exact hne rfl
    rw [hx n m hle hstuck, hn]
    rfl
  · have hstuck : x n ≠ .error stuck := by
      rw [hn]
      intro heq
      cases heq
    rw [hn] at hne
    rw [hx n m hle hstuck, hn]
    exact hf a n m hle hne

theorem stable_loop (hround : ∀ k, Stable stuck fun n => round n k) (k : κ) :
    Stable stuck fun n => loop stuck (round n) n k := by
  have hboth : ∀ fuel n m, n ≤ m → ∀ k,
      loop stuck (round n) fuel k ≠ .error stuck → ∀ fuel', fuel ≤ fuel' →
        loop stuck (round m) fuel' k = loop stuck (round n) fuel k := by
    intro fuel n m hle
    induction fuel with
    | zero => exact fun k hne => absurd rfl hne
    | succ fuel ih =>
      intro k hne fuel' hfuel
      obtain ⟨fuel', rfl⟩ : ∃ extra, fuel' = extra + 1 := ⟨fuel' - 1, by omega⟩
      have hr : round n k ≠ .error stuck := fun hr =>
        hne (loop_of_error hr fuel)
      have hsame : round m k = round n k := hround k n m hle hr
      rcases hn : round n k with e | k' | b
      · rw [loop_of_error hn, loop_of_error (hsame.trans hn)]
      · rw [loop_of_next hn] at hne ⊢
        rw [loop_of_next (hsame.trans hn)]
        exact ih k' hne fuel' (by omega)
      · rw [loop_of_done hn, loop_of_done (hsame.trans hn)]
  intro n m hle hne
  exact hboth n n m hle k hne m hle

/-- If the fuel `N` suffices for the inner loops of every round, the errors of
the outer loop are those of its rounds with that fuel. -/
theorem forall_loop_ne_error_iff_of_stable {N : ℕ} {k : κ}
    (hround : ∀ k, Stable stuck fun n => round n k)
    (henough : ∀ k, round N k ≠ .error stuck) (he : e ≠ stuck) :
    (∀ fuel, loop stuck (round fuel) fuel k ≠ .error e) ↔
      ∀ k', Relation.ReflTransGen (Goes (round N)) k k' →
        round N k' ≠ .error e := by
  have hsame : ∀ fuel, N ≤ fuel → round fuel = round N := fun fuel hle =>
    funext fun k => hround k N fuel hle (henough k)
  rw [← forall_loop_ne_error_iff he]
  constructor
  · intro h fuel heq
    have hconst : ∀ k, Stable stuck fun _ : ℕ => round N k :=
      fun k => stable_const _
    have hmore := (stable_loop hconst k).error he heq (Nat.le_max_left fuel N)
    rw [← hsame _ (Nat.le_max_right fuel N)] at hmore
    exact h _ hmore
  · intro h fuel heq
    have hmore := (stable_loop hround k).error he heq (Nat.le_max_left fuel N)
    rw [hsame _ (Nat.le_max_right fuel N)] at hmore
    exact h _ hmore

theorem stable_loop_const (round : κ → Except ε (κ ⊕ β)) (k : κ) :
    Stable stuck fun n => loop stuck round n k := by
  have hround : ∀ k, Stable stuck fun _ : ℕ => round k :=
    fun k => stable_const (round k)
  exact stable_loop hround k

end Loops
