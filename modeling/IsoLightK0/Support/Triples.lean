import Mathlib.Algebra.GroupWithZero.Nat
import Mathlib.Order.Monotone.Basic
import Mathlib.Tactic.Common

/-!
# Pre- and postconditions for programs with early exits

A program runs over a state and either returns a value or exits early; the
state survives both.  A triple gives a precondition on the state, a
postcondition for each returned value and one for each early exit.  The rules
below follow the constructs of such programs, so a proof reads a program from
top to bottom.
-/

namespace Triples

variable {σ ε δ α β : Type}

/-- Programs over states `σ` with exits `ε`. -/
abbrev Prog (σ ε : Type) := ExceptT ε (StateM σ)

namespace Prog

/-- Outcome and final state of a program. -/
def eval (x : Prog σ ε α) (s : σ) : Except ε α × σ :=
  StateT.run (ExceptT.run x) s

/-- The value of a program with the state it leaves; on an early exit the
state is dropped. -/
def result (x : Prog σ ε α) (s : σ) : Except ε (α × σ) :=
  match x.eval s with
  | (.ok a, s') => .ok (a, s')
  | (.error e, _) => .error e

/-- Leave the program with `e` when the condition holds. -/
def exitIf (c : Prop) [Decidable c] (e : ε) : Prog σ ε Unit :=
  if c then throw e else pure ()

theorem eval_pure (a : α) (s : σ) :
    (pure a : Prog σ ε α).eval s = (.ok a, s) := rfl

theorem eval_throw (e : ε) (s : σ) :
    (throw e : Prog σ ε α).eval s = (.error e, s) := rfl

theorem eval_bind (x : Prog σ ε α) (f : α → Prog σ ε β) (s : σ) :
    (x >>= f).eval s =
      match x.eval s with
      | (.ok a, s') => (f a).eval s'
      | (.error e, s') => (.error e, s') := by
  show StateT.run (ExceptT.run (x >>= f)) s = _
  unfold eval
  rw [ExceptT.run_bind, StateT.run_bind]
  show (match StateT.run (ExceptT.run x) s with | (r, s') => _) = _
  rcases StateT.run (ExceptT.run x) s with ⟨r | a, s'⟩
  · rfl
  · rfl

theorem eval_bind_of_eq_ok {x : Prog σ ε α} {s s' : σ} {a : α}
    (h : x.eval s = (.ok a, s')) (f : α → Prog σ ε β) :
    (x >>= f).eval s = (f a).eval s' := by
  rw [eval_bind, h]

theorem exists_of_eval_bind_eq_ok {x : Prog σ ε α} {f : α → Prog σ ε β}
    {s s' : σ} {b : β} (h : (x >>= f).eval s = (.ok b, s')) :
    ∃ a s₁, x.eval s = (.ok a, s₁) ∧ (f a).eval s₁ = (.ok b, s') := by
  rw [eval_bind] at h
  rcases hx : x.eval s with ⟨e | a, s₁⟩
  · rw [hx] at h
    cases h
  · rw [hx] at h
    exact ⟨a, s₁, rfl, h⟩

theorem eval_get_bind (f : σ → Prog σ ε α) (s : σ) :
    ((get : Prog σ ε σ) >>= f).eval s = (f s).eval s := rfl

theorem eval_exitIf_bind (c : Prop) [Decidable c] (e : ε)
    (f : Unit → Prog σ ε α) (s : σ) :
    (exitIf c e >>= f).eval s = if c then (.error e, s) else (f ()).eval s := by
  unfold exitIf
  split
  · rfl
  · rfl

/-- The program with its exits renamed. -/
def mapExit (f : ε → δ) (x : Prog σ ε α) : Prog σ δ α :=
  ExceptT.mk fun s =>
    match x.eval s with
    | (.ok a, s') => (.ok a, s')
    | (.error e, s') => (.error (f e), s')

theorem eval_mapExit (f : ε → δ) (x : Prog σ ε α) (s : σ) :
    (x.mapExit f).eval s =
      match x.eval s with
      | (.ok a, s') => (.ok a, s')
      | (.error e, s') => (.error (f e), s') := rfl

/-- The outcome of the program as a value; the exits are caught. -/
def attempt (x : Prog σ ε α) : Prog σ ε (Except ε α) :=
  ExceptT.mk fun s => (.ok (x.eval s).1, (x.eval s).2)

/-- Run `body i` for `i = 0, …, n - 1`, passing a value along. -/
def foldRange (n : ℕ) (b : β) (body : ℕ → β → Prog σ ε β) :
    Prog σ ε β :=
  match n with
  | 0 => pure b
  | n + 1 => foldRange n b body >>= body n

end Prog

theorem of_guard_eq_ok {c : Prop} [Decidable c] {e : ε} {x : Except ε α} {a : α}
    (h : (if c then .error e else x) = .ok a) : ¬ c ∧ x = .ok a := by
  by_cases hc : c
  · rw [if_pos hc] at h
    cases h
  · rw [if_neg hc] at h
    exact ⟨hc, h⟩

theorem exists_of_bind_eq_ok {x : Except ε α} {f : α → Except ε β} {b : β}
    (h : (x >>= f) = .ok b) : ∃ a, x = .ok a ∧ f a = .ok b := by
  cases x with
  | error e => cases h
  | ok a => exact ⟨a, rfl, h⟩

/-- Started where `P` holds, the program returns a value `a` only in states
where `Q a` holds, and exits with `e` only in states where `R e` holds. -/
def Triple (P : σ → Prop) (x : Prog σ ε α) (Q : α → σ → Prop)
    (R : ε → σ → Prop) : Prop :=
  ∀ s, P s → (∀ a s', x.eval s = (.ok a, s') → Q a s') ∧
    ∀ e s', x.eval s = (.error e, s') → R e s'

namespace Triple

variable {P P' : σ → Prop} {Q Q' : α → σ → Prop} {R : ε → σ → Prop}
  {x : Prog σ ε α}

theorem pure (a : α) (h : ∀ s, P s → Q a s) :
    Triple P (Pure.pure a : Prog σ ε α) Q R := by
  intro s hs
  rw [Prog.eval_pure]
  refine ⟨?_, fun _ _ h => (nomatch h)⟩
  rintro _ _ ⟨⟩
  exact h s hs

theorem throw (e : ε) (h : ∀ s, P s → R e s) :
    Triple P (MonadExcept.throw e : Prog σ ε α) Q R := by
  intro s hs
  rw [Prog.eval_throw]
  refine ⟨fun _ _ h => (nomatch h), ?_⟩
  rintro _ _ ⟨⟩
  exact h s hs

theorem bind {M : β → σ → Prop} {y : Prog σ ε β} {f : β → Prog σ ε α}
    (hy : Triple P y M R) (hf : ∀ b, Triple (M b) (f b) Q R) :
    Triple P (y >>= f) Q R := by
  intro s hs
  obtain ⟨hok, hexit⟩ := hy s hs
  rw [Prog.eval_bind]
  rcases hstep : y.eval s with ⟨e | b, s'⟩
  · refine ⟨fun _ _ h => (nomatch h), ?_⟩
    rintro _ _ ⟨⟩
    exact hexit e s' hstep
  · exact hf b s' (hok b s' hstep)

theorem get_bind {f : σ → Prog σ ε α}
    (h : ∀ s, P s → Triple (· = s) (f s) Q R) :
    Triple P (MonadState.get >>= f) Q R :=
  fun s hs => h s hs s rfl

theorem weaken (hx : Triple P' x Q' R) (hP : ∀ s, P s → P' s)
    (hQ : ∀ a s, Q' a s → Q a s) : Triple P x Q R := by
  intro s hs
  obtain ⟨hok, hexit⟩ := hx s (hP s hs)
  exact ⟨fun a s' h => hQ a s' (hok a s' h), hexit⟩

theorem ite {c : Prop} [Decidable c] {y : Prog σ ε α}
    (hx : c → Triple P x Q R) (hy : ¬ c → Triple P y Q R) :
    Triple P (if c then x else y) Q R := by
  split
  · rename_i hc
    exact hx hc
  · rename_i hc
    exact hy hc

theorem exitIf_bind {c : Prop} [Decidable c] {e : ε} {f : Unit → Prog σ ε α}
    (hexit : c → ∀ s, P s → R e s) (hrest : ¬ c → Triple P (f ()) Q R) :
    Triple P (Prog.exitIf c e >>= f) Q R := by
  unfold Prog.exitIf
  by_cases hc : c
  · rw [if_pos hc]
    exact bind (M := fun _ _ => False) (throw e (hexit hc)) fun _ _ h => h.elim
  · rw [if_neg hc]
    exact bind (M := fun _ => P) (pure () fun _ h => h) fun _ => hrest hc

end Triple

/-- However the program ends, the invariant survives. -/
def Keeps (I : σ → Prop) (x : Prog σ ε α) : Prop :=
  ∀ s, I s → I (x.eval s).2

namespace Keeps

variable {I : σ → Prop} {x : Prog σ ε α}

theorem pure (a : α) : Keeps I (Pure.pure a : Prog σ ε α) :=
  fun _ hs => hs

theorem throw (e : ε) : Keeps I (MonadExcept.throw e : Prog σ ε α) :=
  fun _ hs => hs

theorem get : Keeps I (MonadState.get : Prog σ ε σ) :=
  fun _ hs => hs

theorem modify {f : σ → σ} (hf : ∀ s, I s → I (f s)) :
    Keeps I (modifyGet fun s => (PUnit.unit, f s) : Prog σ ε PUnit) :=
  hf

/-- What a program establishes is kept by what follows it. -/
theorem after {f : α → Prog σ ε β} (hf : ∀ a, Keeps I (f a)) {s : σ}
    (hs : I (x.eval s).2) : I ((x >>= f).eval s).2 := by
  rw [Prog.eval_bind]
  rcases hstep : x.eval s with ⟨e | a, s'⟩
  · rwa [hstep] at hs
  · rw [hstep] at hs
    exact hf a s' hs

theorem bind {f : α → Prog σ ε β} (hx : Keeps I x)
    (hf : ∀ a, Keeps I (f a)) : Keeps I (x >>= f) :=
  fun s hs => after hf (hx s hs)

theorem attempt (hx : Keeps I x) : Keeps I x.attempt := hx

theorem ite {c : Prop} [Decidable c] {y : Prog σ ε α} (hx : Keeps I x)
    (hy : Keeps I y) : Keeps I (if c then x else y) := by
  split
  · exact hx
  · exact hy

theorem exitIf (c : Prop) [Decidable c] (e : ε) :
    Keeps I (Prog.exitIf c e : Prog σ ε Unit) :=
  ite (throw e) (pure ())

theorem mapExit {δ : Type} (f : ε → δ) (hx : Keeps I x) :
    Keeps I (x.mapExit f) := by
  intro s hs
  have hs' : I (x.eval s).2 := hx s hs
  rw [Prog.eval_mapExit]
  rcases hstep : x.eval s with ⟨e | a, s'⟩
  · rwa [hstep] at hs'
  · rwa [hstep] at hs'

theorem foldRange {body : ℕ → β → Prog σ ε β} (n : ℕ) (b : β)
    (hbody : ∀ i b, Keeps I (body i b)) :
    Keeps I (Prog.foldRange n b body) := by
  induction n with
  | zero => exact pure b
  | succ n ih => exact bind ih fun b' => hbody n b'

/-- What the first round establishes is kept by the others. -/
theorem after_foldRange {body : ℕ → β → Prog σ ε β} (n : ℕ) {b : β}
    (hbody : ∀ i b, Keeps I (body i b)) {s : σ}
    (hfirst : I ((body 0 b).eval s).2) :
    I ((Prog.foldRange (n + 1) b body).eval s).2 := by
  induction n with
  | zero => exact hfirst
  | succ n ih => exact after (hbody (n + 1)) ih

end Keeps

/-- However the program ends, it uses up at most `k` of what `B` counts. -/
def Spends (B : ℕ → σ → Prop) (k : ℕ) (x : Prog σ ε α) : Prop :=
  ∀ n s, B n s → B (n - k) (x.eval s).2

namespace Spends

variable {B : ℕ → σ → Prop} {j k : ℕ} {x : Prog σ ε α}

theorem pure (a : α) : Spends B 0 (Pure.pure a : Prog σ ε α) :=
  fun _ _ hs => hs

theorem discard_attempt (hx : Spends B k x) :
    Spends B k (discard x.attempt) :=
  fun n s hs => hx n s hs

variable (hB : Antitone B)

include hB

theorem mono (hx : Spends B j x) (hle : j ≤ k) : Spends B k x :=
  fun n s hs => hB (Nat.sub_le_sub_left hle n) _ (hx n s hs)

theorem bind {f : α → Prog σ ε β} (hx : Spends B j x)
    (hf : ∀ a, Spends B k (f a)) : Spends B (j + k) (x >>= f) := by
  intro n s hs
  have hfirst := hx n s hs
  rw [Prog.eval_bind, ← Nat.sub_sub]
  rcases hstep : x.eval s with ⟨e | a, s'⟩
  · rw [hstep] at hfirst
    exact hB (Nat.sub_le _ k) _ hfirst
  · rw [hstep] at hfirst
    exact hf a _ s' hfirst

theorem foldRange {body : ℕ → β → Prog σ ε β} (n : ℕ) (b : β)
    (hbody : ∀ i b, Spends B k (body i b)) :
    Spends B (n * k) (Prog.foldRange n b body) := by
  induction n with
  | zero => exact mono hB (pure b) (Nat.zero_le _)
  | succ n ih =>
    rw [Nat.succ_mul]
    exact bind hB ih fun b' => hbody n b'

theorem forM {f : α → Prog σ ε PUnit} {cost : α → ℕ} (l : List α)
    (hf : ∀ a ∈ l, Spends B (cost a) (f a)) :
    Spends B (l.map cost).sum (l.forM f) := by
  induction l with
  | nil => exact pure _
  | cons a l ih =>
    exact bind hB (hf a List.mem_cons_self) fun _ =>
      ih fun b hb => hf b (List.mem_cons_of_mem _ hb)

end Spends

end Triples
