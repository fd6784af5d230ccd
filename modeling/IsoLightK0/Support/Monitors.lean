import IsoLightK0.Support.Worlds

/-!
# Programs with checks

A monitor is a program with additional checks: of a bound, of an arithmetic
operation, of an address.  A check that fails ends the program with a fault,
which is no exit of the program itself.  A program passes its monitor if no
check ever fails, so that both do the same.

The rules follow the program; where a check needs to know what happened
before, a specification of the program without checks provides it.
-/

namespace Worlds

open Triples

variable {ω σ ε φ α β : Type}

/-- How a monitored program ends early: by itself, or with a fault. -/
inductive Monitored (ε φ : Type)
  | exit (e : ε)
  | fault (f : φ)
  deriving DecidableEq, Repr

def check (c : Prop) [Decidable c] (f : φ) : Prog σ (Monitored ε φ) Unit :=
  Prog.exitIf (¬ c) (.fault f)

/-- From states with `A`, the program `y` with checks does what `x` does. -/
def Passes (I A : ω → σ → Prop) (x : Prog σ ε α)
    (y : Prog σ (Monitored ε φ) α) : Prop :=
  ∀ w s, I w s → A w s → y.eval s = (x.mapExit .exit).eval s

namespace Passes

variable {I A A' : ω → σ → Prop} {x : Prog σ ε α}
  {y : Prog σ (Monitored ε φ) α}

theorem unchecked (x : Prog σ ε α) :
    Passes I A x (x.mapExit (Monitored.exit (φ := φ))) :=
  fun _ _ _ _ => rfl

theorem pure (a : α) :
    Passes I A (Pure.pure a) (Pure.pure a : Prog σ (Monitored ε φ) α) :=
  fun _ _ _ _ => rfl

theorem weaken (h : Passes I A' x y) (hA : ∀ w s, I w s → A w s → A' w s) :
    Passes I A x y :=
  fun w s hinv hpre => h w s hinv (hA w s hinv hpre)

theorem of_exists {γ : Type} {P : γ → Prop} {C : γ → ω → σ → Prop}
    (h : ∀ c, P c → Passes I (C c) x y) :
    Passes I (fun w s => ∃ c, P c ∧ C c w s) x y := by
  rintro w s hinv ⟨c, hc, hpre⟩
  exact h c hc w s hinv hpre

theorem check_bind {c : Prop} [Decidable c] {f : φ}
    {g : Unit → Prog σ (Monitored ε φ) α} (hc : ∀ w s, I w s → A w s → c)
    (h : Passes I A x (g ())) : Passes I A x (check c f >>= g) := by
  intro w s hinv hpre
  rw [check, Prog.eval_exitIf_bind, if_neg (not_not.mpr (hc w s hinv hpre))]
  exact h w s hinv hpre

theorem exitIf_bind {c : Prop} [Decidable c] {e : ε} {f : Unit → Prog σ ε α}
    {g : Unit → Prog σ (Monitored ε φ) α} (h : ¬ c → Passes I A (f ()) (g ())) :
    Passes I A (Prog.exitIf c e >>= f) (Prog.exitIf c (.exit e) >>= g) := by
  intro w s hinv hpre
  rw [Prog.eval_mapExit, Prog.eval_exitIf_bind, Prog.eval_exitIf_bind]
  by_cases hc : c
  · rw [if_pos hc, if_pos hc]
  · rw [if_neg hc, if_neg hc]
    exact h hc w s hinv hpre

theorem get_bind {g : σ → Prog σ (Monitored ε φ) α}
    (h : ∀ w s, I w s → A w s →
      Passes I (fun w' s' => w' = w ∧ s' = s) x (g s)) :
    Passes I A x (get >>= g) := by
  intro w s hinv hpre
  rw [Prog.eval_get_bind]
  exact h w s hinv hpre w s hinv ⟨rfl, rfl⟩

variable [Preorder ω]

/-- The sequence rule.  The first part has to establish what the checks of the
second part need. -/
theorem bind {M : β → ω → σ → Prop} {x : Prog σ ε β}
    {y : Prog σ (Monitored ε φ) β} {f : β → Prog σ ε α}
    {g : β → Prog σ (Monitored ε φ) α} (hx : Passes I A x y)
    (hpost : Evolves I False A x M) (hf : ∀ b, Passes I (M b) (f b) (g b)) :
    Passes I A (x >>= f) (y >>= g) := by
  intro w s hinv hpre
  obtain ⟨w', -, hinv', hM, -⟩ := hpost w s hinv hpre
  rw [Prog.eval_bind, hx w s hinv hpre, Prog.eval_mapExit, Prog.eval_mapExit,
    Prog.eval_bind]
  rcases hstep : x.eval s with ⟨e | b, s'⟩
  · rfl
  · rw [hstep] at hinv' hM
    exact hf b w' s' hinv' (hM b rfl)

theorem foldRange {L : ℕ → β → ω → σ → Prop} {body : ℕ → β → Prog σ ε β}
    {body' : ℕ → β → Prog σ (Monitored ε φ) β} (n : ℕ) (b : β)
    (hbody : ∀ i, i < n → ∀ b, Evolves I False (L i b) (body i b) (L (i + 1)))
    (hpass : ∀ i, i < n → ∀ b, Passes I (L i b) (body i b) (body' i b)) :
    Passes I (L 0 b) (Prog.foldRange n b body) (Prog.foldRange n b body') := by
  induction n with
  | zero => exact pure b
  | succ n ih =>
    have hfirst := ih (fun i hi => hbody i (Nat.lt_succ_of_lt hi))
      fun i hi => hpass i (Nat.lt_succ_of_lt hi)
    refine bind hfirst (Evolves.foldRange n b fun i hi =>
      hbody i (Nat.lt_succ_of_lt hi)) fun b' => ?_
    exact hpass n (Nat.lt_succ_self n) b'

end Passes

end Worlds
