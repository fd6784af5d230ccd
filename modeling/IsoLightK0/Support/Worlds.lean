import IsoLightK0.Support.Triples
import Mathlib.Order.Monotone.Defs

/-!
# Programs that only extend a ghost world

Some data structures are best described by a ghost world that is no part of
the state: which cells are in use, and for what.  Worlds are ordered by
extension.  A program that keeps the relation `I` between worlds and states
may replace the world by a larger one, and a fact that is monotone in the
world can be carried past the program without looking at it again.

A specification comes in two strengths.  With `total` the program has to
return a value; without, it may also exit early, in a state that a larger
world still describes.
-/

namespace Worlds

open Triples

variable {ω σ ε δ α β : Type} [Preorder ω]

/-- From a described state with `A`, the program reaches a state that a larger
world describes; with a returned value, `B` holds there. -/
def Evolves (I : ω → σ → Prop) (total : Prop) (A : ω → σ → Prop)
    (x : Prog σ ε α) (B : α → ω → σ → Prop) : Prop :=
  ∀ w s, I w s → A w s → ∃ w', w ≤ w' ∧ I w' (x.eval s).2 ∧
    (∀ a, (x.eval s).1 = .ok a → B a w' (x.eval s).2) ∧
    (total → ∃ a, (x.eval s).1 = .ok a)

namespace Evolves

variable {I : ω → σ → Prop} {total : Prop} {A A' : ω → σ → Prop}
  {B B' : α → ω → σ → Prop} {x : Prog σ ε α}

theorem pure (a : α) (h : ∀ w s, A w s → B a w s) :
    Evolves I total A (Pure.pure a : Prog σ ε α) B := by
  intro w s hinv hA
  rw [Prog.eval_pure]
  refine ⟨w, le_rfl, hinv, ?_, fun _ => ⟨a, rfl⟩⟩
  rintro _ ⟨⟩
  exact h w s hA

theorem throw (e : ε) (h : ∀ w s, A w s → ¬ total) :
    Evolves I total A (MonadExcept.throw e : Prog σ ε α) B := by
  intro w s hinv hA
  rw [Prog.eval_throw]
  exact ⟨w, le_rfl, hinv, fun _ h => (nomatch h),
    fun htotal => (h w s hA htotal).elim⟩

theorem bind {M : β → ω → σ → Prop} {y : Prog σ ε β} {f : β → Prog σ ε α}
    (hy : Evolves I total A y M) (hf : ∀ b, Evolves I total (M b) (f b) B) :
    Evolves I total A (y >>= f) B := by
  intro w s hinv hA
  obtain ⟨w₁, hle₁, hinv₁, hM, hret₁⟩ := hy w s hinv hA
  rw [Prog.eval_bind]
  rcases hstep : y.eval s with ⟨e | b, s₁⟩
  · rw [hstep] at hinv₁ hret₁
    refine ⟨w₁, hle₁, hinv₁, fun _ h => (nomatch h), fun htotal => ?_⟩
    obtain ⟨b, hb⟩ := hret₁ htotal
    cases hb
  · rw [hstep] at hinv₁ hM
    obtain ⟨w₂, hle₂, hinv₂, hB, hret₂⟩ := hf b w₁ s₁ hinv₁ (hM b rfl)
    exact ⟨w₂, hle₁.trans hle₂, hinv₂, hB, hret₂⟩

theorem of_eval_eq_ok (hx : Evolves I total A x B) {w : ω} {s s' : σ} {a : α}
    (hinv : I w s) (hA : A w s) (heval : x.eval s = (.ok a, s')) :
    ∃ w', w ≤ w' ∧ I w' s' ∧ B a w' s' := by
  obtain ⟨w', hle, hinv', hpost, -⟩ := hx w s hinv hA
  rw [heval] at hinv' hpost
  exact ⟨w', hle, hinv', hpost a rfl⟩

theorem weaken (hx : Evolves I total A' x B')
    (hA : ∀ w s, I w s → A w s → A' w s)
    (hB : ∀ a w s, B' a w s → B a w s) : Evolves I total A x B := by
  intro w s hinv h
  obtain ⟨w', hle, hinv', hpost, hret⟩ := hx w s hinv (hA w s hinv h)
  exact ⟨w', hle, hinv', fun a ha => hB a w' _ (hpost a ha), hret⟩

/-- An auxiliary variable of the precondition, with a fact about it. -/
theorem of_exists {γ : Type} {P : γ → Prop} {C : γ → ω → σ → Prop}
    (h : ∀ c, P c → Evolves I total (C c) x B) :
    Evolves I total (fun w s => ∃ c, P c ∧ C c w s) x B := by
  rintro w s hinv ⟨c, hc, hpre⟩
  exact h c hc w s hinv hpre

/-- The frame rule: monotone facts are still there afterwards. -/
theorem frame {F : ω → Prop} (hF : Monotone F) (hx : Evolves I total A x B) :
    Evolves I total (fun w s => A w s ∧ F w) x
      (fun a w s => B a w s ∧ F w) := by
  rintro w s hinv ⟨hA, hframe⟩
  obtain ⟨w', hle, hinv', hpost, hret⟩ := hx w s hinv hA
  exact ⟨w', hle, hinv', fun a ha => ⟨hpost a ha, hF hle hframe⟩, hret⟩

theorem exitIf_bind {c : Prop} [Decidable c] {e : ε}
    {f : Unit → Prog σ ε α} (hexit : c → ¬ total)
    (hrest : ¬ c → Evolves I total A (f ()) B) :
    Evolves I total A (Prog.exitIf c e >>= f) B := by
  unfold Prog.exitIf
  by_cases hc : c
  · rw [if_pos hc]
    exact bind (M := fun _ _ _ => False) (throw e fun _ _ _ => hexit hc)
      fun _ _ _ _ h => h.elim
  · rw [if_neg hc]
    exact bind (M := fun _ => A) (pure () fun _ _ h => h) fun _ => hrest hc

theorem mapExit (f : ε → δ) (hx : Evolves I total A x B) :
    Evolves I total A (x.mapExit f) B := by
  intro w s hinv hA
  obtain ⟨w', hle, hinv', hpost, hret⟩ := hx w s hinv hA
  rw [Prog.eval_mapExit]
  rcases hstep : x.eval s with ⟨e | a, s'⟩
  · rw [hstep] at hinv' hret
    refine ⟨w', hle, hinv', fun _ h => (nomatch h), fun htotal => ?_⟩
    obtain ⟨a, ha⟩ := hret htotal
    cases ha
  · rw [hstep] at hinv' hpost
    refine ⟨w', hle, hinv', ?_, fun _ => ⟨a, rfl⟩⟩
    rintro _ ⟨⟩
    exact hpost a rfl

/-- The rule for counted loops: `L i` holds before round `i`. -/
theorem foldRange {L : ℕ → β → ω → σ → Prop} {body : ℕ → β → Prog σ ε β}
    (n : ℕ) (b : β)
    (hbody : ∀ i, i < n → ∀ b,
      Evolves I total (L i b) (body i b) (L (i + 1))) :
    Evolves I total (L 0 b) (Prog.foldRange n b body) (L n) := by
  induction n with
  | zero => exact pure b fun _ _ h => h
  | succ n ih =>
    have hfirst : Evolves I total (L 0 b) (Prog.foldRange n b body) (L n) :=
      ih fun i hi => hbody i (Nat.lt_succ_of_lt hi)
    exact bind hfirst fun b' => hbody n (Nat.lt_succ_self n) b'

end Evolves

end Worlds
