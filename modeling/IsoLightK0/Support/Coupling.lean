import IsoLightK0.Support.Triples

/-!
# Two runs of one program

A program couples a relation on states when, started in related states, it has
the same outcome in both runs and leaves related states.  If the relation says
"equal up to a secret" then the outcome does not depend on the secret.  The
precondition is a condition on the first run only.
-/

namespace Triples

variable {σ ε α β : Type}

def Couples (P : σ → Prop) (R : σ → σ → Prop) (x : Prog σ ε α) : Prop :=
  ∀ s₁ s₂, P s₁ → R s₁ s₂ →
    (x.eval s₁).1 = (x.eval s₂).1 ∧ R (x.eval s₁).2 (x.eval s₂).2

namespace Couples

variable {P P' : σ → Prop} {R : σ → σ → Prop} {x : Prog σ ε α}

theorem pure (a : α) : Couples P R (Pure.pure a : Prog σ ε α) := by
  intro s₁ s₂ _ hR
  exact ⟨rfl, hR⟩

theorem throw (e : ε) :
    Couples P R (MonadExcept.throw e : Prog σ ε α) := by
  intro s₁ s₂ _ hR
  exact ⟨rfl, hR⟩

theorem weaken (hx : Couples P' R x) (hP : ∀ s, P s → P' s) :
    Couples P R x := by
  intro s₁ s₂ hs hR
  exact hx s₁ s₂ (hP s₁ hs) hR

theorem bind {Q : β → σ → Prop} {y : Prog σ ε β} {f : β → Prog σ ε α}
    (hy : Couples P R y)
    (hpost : ∀ s b s', P s → y.eval s = (.ok b, s') → Q b s')
    (hf : ∀ b, Couples (Q b) R (f b)) : Couples P R (y >>= f) := by
  intro s₁ s₂ hs hR
  obtain ⟨hsame, hR'⟩ := hy s₁ s₂ hs hR
  rw [Prog.eval_bind, Prog.eval_bind]
  rcases h₁ : y.eval s₁ with ⟨e | b, s₁'⟩
  · rcases h₂ : y.eval s₂ with ⟨e' | b', s₂'⟩
    · rw [h₁, h₂] at hsame hR'
      cases hsame
      exact ⟨rfl, hR'⟩
    · rw [h₁, h₂] at hsame
      cases hsame
  · rcases h₂ : y.eval s₂ with ⟨e' | b', s₂'⟩
    · rw [h₁, h₂] at hsame
      cases hsame
    · rw [h₁, h₂] at hsame hR'
      cases hsame
      exact hf b s₁' s₂' (hpost s₁ b s₁' hs h₁) hR'

theorem bind_any {y : Prog σ ε β} {f : β → Prog σ ε α}
    (hy : Couples P R y) (hf : ∀ b, Couples (fun _ => True) R (f b)) :
    Couples P R (y >>= f) :=
  bind (Q := fun _ _ => True) hy (fun _ _ _ _ _ => trivial) hf

theorem throw_bind (e : ε) (f : β → Prog σ ε α) :
    Couples P R ((MonadExcept.throw e : Prog σ ε β) >>= f) :=
  bind (Q := fun _ _ => False) (throw e) (fun _ _ _ _ h => (nomatch h))
    (fun _ _ _ h => h.elim)

theorem ite {c : Prop} [Decidable c] {y : Prog σ ε α}
    (hx : c → Couples P R x) (hy : ¬ c → Couples P R y) :
    Couples P R (if c then x else y) := by
  split
  · rename_i hc
    exact hx hc
  · rename_i hc
    exact hy hc

theorem exitIf_bind {c : Prop} [Decidable c] {e : ε} {f : Unit → Prog σ ε α}
    (hrest : ¬ c → Couples P R (f ())) :
    Couples P R (Prog.exitIf c e >>= f) := by
  unfold Prog.exitIf
  by_cases hc : c
  · rw [if_pos hc]
    exact throw_bind e f
  · rw [if_neg hc, pure_bind]
    exact hrest hc

end Couples

end Triples
