import Mathlib.Data.List.Basic
import Mathlib.Algebra.Order.Group.Nat
import Mathlib.Order.Basic
import Mathlib.Tactic.Common

/-!
# Runs of calls that may fail to return

A call is a partial step `step s a`.  The value `none` means that the call
never returns, so that the machine makes no further step.  A run records every
completed call together with its result, the most recent one first; the
history is therefore the ghost log against which statements about "some
earlier call" are phrased.

The second part is about recursive procedures.  A procedure is given by its
body; cutting it off at a depth makes it structurally recursive, and when every
recursive call decreases a measure the cut-off is never reached.
-/

namespace Runs

universe u v w

variable {State : Type u} {Call : Type v} {Result : Type w}

/-- The histories and states reached from `init` by completed calls. -/
inductive Run (step : State → Call → Option (Result × State))
    (init : State) : List (Call × Result) → State → Prop
  | start : Run step init [] init
  | next {history : List (Call × Result)} {s s' : State}
      {a : Call} {r : Result} :
      Run step init history s → step s a = some (r, s') →
        Run step init ((a, r) :: history) s'

variable {step : State → Call → Option (Result × State)} {init : State}
  {I : List (Call × Result) → State → Prop} {history : List (Call × Result)}
  {s : State} {r : Result} {f : State → Call → Result × State}
  {admits : State → Call → Prop}

/-- A relation between histories and states which holds initially and is kept
by every completed call holds after every run. -/
theorem Run.history_invariant (hstart : I [] init)
    (hnext : ∀ history s a r s', Run step init history s → I history s →
      step s a = some (r, s') → I ((a, r) :: history) s')
    (hrun : Run step init history s) : I history s := by
  induction hrun with
  | start => exact hstart
  | next hprev hstep ih => exact hnext _ _ _ _ _ hprev ih hstep

/-- A state predicate kept by every completed call holds after every run. -/
theorem Run.invariant {I : State → Prop} (hstart : I init)
    (hnext : ∀ s a r s', I s → step s a = some (r, s') → I s')
    (hrun : Run step init history s) : I s :=
  hrun.history_invariant (I := fun _ s => I s) hstart
    (fun _ s a r s' _ hs hstep => hnext s a r s' hs hstep)

theorem Run.exists_step {later earlier : List (Call × Result)} {a : Call}
    (hrun : Run step init (later ++ (a, r) :: earlier) s) :
    ∃ s₁ s₂, Run step init earlier s₁ ∧ step s₁ a = some (r, s₂) := by
  induction later generalizing s with
  | nil =>
    cases hrun with
    | next hprev hstep => exact ⟨_, _, hprev, hstep⟩
  | cons first later ih =>
    cases hrun with
    | next hprev hstep => exact ih hprev

/-- The history and the state after a list of calls that always return, the
most recent call first. -/
def replay (f : State → Call → Result × State) (init : State) :
    List Call → List (Call × Result) × State
  | [] => ([], init)
  | a :: earlier =>
    let prev := replay f init earlier
    ((a, (f prev.2 a).1) :: prev.1, (f prev.2 a).2)

/-- A machine whose calls always return has a run for every list of calls. -/
theorem run_replay {init : State} (calls : List Call) :
    Run (fun s a => some (f s a)) init (replay f init calls).1
      (replay f init calls).2 := by
  induction calls with
  | nil => exact .start
  | cons a earlier ih => exact .next ih rfl

theorem map_fst_replay (f : State → Call → Result × State) (init : State)
    (calls : List Call) : (replay f init calls).1.map Prod.fst = calls := by
  induction calls with
  | nil => rfl
  | cons a earlier ih => rw [replay, List.map_cons, ih]

/-- If an invariant holds at the start and gives `P`, a call that is admitted
keeps the invariant, and one that is not loses `P`, then `P` holds after each
call of a run exactly if each call is admitted. -/
theorem forall_replay_iff {init : State} {I P : State → Prop} (hinit : I init)
    (hI : ∀ s, I s → P s) (hkeep : ∀ s a, I s → admits s a → I (f s a).2)
    (hlose : ∀ s a, I s → ¬ admits s a → ¬ P (f s a).2) (calls : List Call) :
    (∀ earlier, earlier <:+ calls → P (replay f init earlier).2) ↔
      ∀ a earlier, a :: earlier <:+ calls →
        admits (replay f init earlier).2 a := by
  have hcons : ∀ (a : Call) {earlier calls : List Call},
      a :: earlier <:+ calls → earlier <:+ calls := fun a _ _ h =>
    (List.suffix_cons a _).trans h
  constructor
  · intro hP
    -- the invariant holds up to each call, so `P` could only be lost
    have hinv : ∀ earlier, earlier <:+ calls →
        I (replay f init earlier).2 ∧ ∀ a, a :: earlier <:+ calls →
          admits (replay f init earlier).2 a := by
      intro earlier
      induction earlier with
      | nil =>
        intro _
        refine ⟨hinit, fun a ha => ?_⟩
        by_contra hnot
        exact hlose init a hinit hnot (hP [a] ha)
      | cons b earlier ih =>
        intro hmem
        obtain ⟨hI', hadmits⟩ := ih (hcons b hmem)
        have hnext := hkeep _ b hI' (hadmits b hmem)
        refine ⟨hnext, fun a ha => ?_⟩
        by_contra hnot
        exact hlose _ a hnext hnot (hP (a :: b :: earlier) ha)
    intro a earlier ha
    exact (hinv earlier (hcons a ha)).2 a ha
  · intro hadmits earlier
    suffices hinv : earlier <:+ calls → I (replay f init earlier).2 from
      fun hmem => hI _ (hinv hmem)
    induction earlier with
    | nil => exact fun _ => hinit
    | cons a earlier ih =>
      intro hmem
      exact hkeep _ a (ih (hcons a hmem)) (hadmits a earlier hmem)

/-- Two related machines give the same results to a list of calls exactly if
each call is admitted, when an admitted call gets the same result from both
and keeps the relation, and one that is not admitted gets different
results. -/
theorem replay_fst_eq_iff {State' : Type*} {g : State' → Call → Result × State'}
    {t : State'} {Rel : State → State' → Prop} (hinit : Rel s t)
    (hkeep : ∀ s t a, Rel s t → admits s a →
      (f s a).1 = (g t a).1 ∧ Rel (f s a).2 (g t a).2)
    (hlose : ∀ s t a, Rel s t → ¬ admits s a → (f s a).1 ≠ (g t a).1)
    (calls : List Call) :
    (replay f s calls).1 = (replay g t calls).1 ↔
      ∀ a earlier, a :: earlier <:+ calls →
        admits (replay f s earlier).2 a := by
  -- while the calls are admitted the machines stay related
  have hboth : ∀ calls : List Call,
      ((replay f s calls).1 = (replay g t calls).1 ↔
          ∀ a earlier, a :: earlier <:+ calls →
            admits (replay f s earlier).2 a) ∧
        ((replay f s calls).1 = (replay g t calls).1 →
          Rel (replay f s calls).2 (replay g t calls).2) := by
    intro calls
    induction calls with
    | nil =>
      refine ⟨⟨fun _ a earlier h => ?_, fun _ => rfl⟩, fun _ => hinit⟩
      exact absurd (List.suffix_nil.mp h) (List.cons_ne_nil a earlier)
    | cons b calls ih =>
      obtain ⟨hiff, hrel⟩ := ih
      simp only [replay, List.cons.injEq, Prod.mk.injEq, true_and]
      refine ⟨⟨?_, ?_⟩, ?_⟩
      · rintro ⟨hhead, htail⟩ a earlier ha
        rcases List.suffix_cons_iff.mp ha with heq | hsuffix
        · obtain ⟨rfl, rfl⟩ := List.cons.inj heq
          by_contra hnot
          exact hlose _ _ a (hrel htail) hnot hhead
        · exact hiff.mp htail a earlier hsuffix
      · intro hadmits
        have htail := hiff.mpr fun a earlier ha =>
          hadmits a earlier (ha.trans (List.suffix_cons b calls))
        have hb := hadmits b calls (List.suffix_refl _)
        exact ⟨(hkeep _ _ b (hrel htail) hb).1, htail⟩
      · rintro ⟨hhead, htail⟩
        have hb : admits (replay f s calls).2 b := by
          by_contra hnot
          exact hlose _ _ b (hrel htail) hnot hhead
        exact (hkeep _ _ b (hrel htail) hb).2
  exact (hboth calls).1

theorem exists_run_of_replay {init : State}
    (h : (replay f init (history.map Prod.fst)).1.map Prod.snd =
      history.map Prod.snd) :
    ∃ s, Run (fun s a => some (f s a)) init history s := by
  have hsame : (replay f init (history.map Prod.fst)).1 = history := by
    rw [← List.zip_unzip (replay f init (history.map Prod.fst)).1,
      List.unzip_fst, List.unzip_snd, map_fst_replay, h, ← List.unzip_fst,
      ← List.unzip_snd, List.zip_unzip]
  have hrun : Run (fun s a => some (f s a)) init _ _ :=
    run_replay (history.map Prod.fst)
  rw [hsame] at hrun
  exact ⟨_, hrun⟩

/-- Make the calls one after the other; `none` if one of them does not
return. -/
def runCalls (step : State → Call → Option (Result × State)) :
    State → List Call → Option (List Result × State)
  | s, [] => some ([], s)
  | s, a :: calls =>
    match step s a with
    | none => none
    | some (r, s') =>
      match runCalls step s' calls with
      | none => none
      | some (rs, s'') => some (r :: rs, s'')

theorem runCalls_cons {s' s'' : State} {a : Call} {calls : List Call}
    {rs : List Result} (hstep : step s a = some (r, s'))
    (hrest : runCalls step s' calls = some (rs, s'')) :
    runCalls step s (a :: calls) = some (r :: rs, s'') := by
  simp only [runCalls, hstep, hrest]

theorem runCalls_append {s' s'' : State} {first second : List Call}
    {rs rs' : List Result} (hfirst : runCalls step s first = some (rs, s'))
    (hsecond : runCalls step s' second = some (rs', s'')) :
    runCalls step s (first ++ second) = some (rs ++ rs', s'') := by
  induction first generalizing s rs with
  | nil =>
    cases hfirst
    exact hsecond
  | cons a first ih =>
    cases hstep : step s a with
    | none => simp [runCalls, hstep] at hfirst
    | some next =>
      obtain ⟨r, s₁⟩ := next
      cases hrest : runCalls step s₁ first with
      | none => simp [runCalls, hstep, hrest] at hfirst
      | some rest =>
        obtain ⟨rs₁, s₂⟩ := rest
        simp only [runCalls, hstep, hrest, Option.some.injEq,
          Prod.mk.injEq] at hfirst
        obtain ⟨rfl, rfl⟩ := hfirst
        exact runCalls_cons hstep (ih hrest)

/-- Calls that leave the state as it is answer independently. -/
theorem runCalls_map_of_state_eq {Index : Type*} {call : Index → Call}
    {result : Index → Result} {indices : List Index}
    (h : ∀ i ∈ indices, step s (call i) = some (result i, s)) :
    runCalls step s (indices.map call) = some (indices.map result, s) := by
  induction indices with
  | nil => rfl
  | cons i indices ih =>
    apply runCalls_cons (h i List.mem_cons_self)
    apply ih
    intro j hj
    exact h j (List.mem_cons_of_mem i hj)

/-- The runs in which every call is made in a state that admits it. -/
inductive GuardedRun (admits : State → Call → Prop)
    (step : State → Call → Option (Result × State)) (init : State) :
    List (Call × Result) → State → Prop
  | start : GuardedRun admits step init [] init
  | next {history : List (Call × Result)} {s s' : State}
      {a : Call} {r : Result} :
      GuardedRun admits step init history s → admits s a →
        step s a = some (r, s') →
        GuardedRun admits step init ((a, r) :: history) s'

/-- A relation between histories and states which holds initially and is kept
by every admitted step holds after every guarded run. -/
theorem GuardedRun.history_invariant (hstart : I [] init)
    (hnext : ∀ history s a r s', I history s → admits s a →
      step s a = some (r, s') → I ((a, r) :: history) s')
    (hrun : GuardedRun admits step init history s) : I history s := by
  induction hrun with
  | start => exact hstart
  | next _ hadmits hstep ih => exact hnext _ _ _ _ _ ih hadmits hstep

theorem GuardedRun.exists_step {later earlier : List (Call × Result)} {a : Call}
    (hrun : GuardedRun admits step init (later ++ (a, r) :: earlier) s) :
    ∃ s₁ s₂, GuardedRun admits step init earlier s₁ ∧ admits s₁ a ∧
      step s₁ a = some (r, s₂) := by
  induction later generalizing s with
  | nil =>
    cases hrun with
    | next hprev hadmits hstep => exact ⟨_, _, hprev, hadmits, hstep⟩
  | cons first later ih =>
    cases hrun with
    | next hprev _ _ => exact ih hprev

/-- Two runs in lockstep: if every admitted step is matched from a related
state, then a whole guarded run is matched by a run of the same calls. -/
theorem GuardedRun.couple {R : State → State → Prop}
    {E : Call → Result → Result → Prop}
    (hstep : ∀ s₁ s₂ a r₁ s₁', R s₁ s₂ → admits s₁ a →
      step s₁ a = some (r₁, s₁') →
      ∃ r₂ s₂', step s₂ a = some (r₂, s₂') ∧ R s₁' s₂' ∧ E a r₁ r₂)
    {init₂ : State} (hinit : R init init₂)
    (h : GuardedRun admits step init history s) :
    ∃ history₂ s₂, Run step init₂ history₂ s₂ ∧ R s s₂ ∧
      List.Forall₂ (fun e₁ e₂ => e₁.1 = e₂.1 ∧ E e₁.1 e₁.2 e₂.2)
        history history₂ := by
  induction h with
  | start => exact ⟨[], init₂, .start, hinit, .nil⟩
  | next _ hadmits hstep₁ ih =>
    obtain ⟨history₂, s₂, hrun₂, hR, hevents⟩ := ih
    obtain ⟨r₂, s₂', hstep₂, hR', hE⟩ := hstep _ s₂ _ _ _ hR hadmits hstep₁
    exact ⟨(_, r₂) :: history₂, s₂', .next hrun₂ hstep₂, hR',
      .cons ⟨rfl, hE⟩ hevents⟩

/-- The pairs of states that two machines reach by guarded runs whose calls
agree step by step, from the state of the first machine. -/
inductive Lockstep (admits : State → Call → Prop)
    (agree : State → Call → Call → Prop)
    (step₁ step₂ : State → Call → Option (Result × State))
    (init₁ init₂ : State) : State → State → Prop
  | start : Lockstep admits agree step₁ step₂ init₁ init₂ init₁ init₂
  | next {s₁ s₂ s₁' s₂' : State} {a₁ a₂ : Call} {r₁ r₂ : Result} :
      Lockstep admits agree step₁ step₂ init₁ init₂ s₁ s₂ →
        agree s₁ a₁ a₂ → admits s₁ a₁ → admits s₂ a₂ →
        step₁ s₁ a₁ = some (r₁, s₁') → step₂ s₂ a₂ = some (r₂, s₂') →
        Lockstep admits agree step₁ step₂ init₁ init₂ s₁' s₂'

/-- A relation that holds initially and is kept by every pair of steps holds
between the states of both runs. -/
theorem Lockstep.invariant {agree : State → Call → Call → Prop}
    {step₁ step₂ : State → Call → Option (Result × State)} {init₁ init₂ : State}
    {R : State → State → Prop} (hstart : R init₁ init₂)
    (hnext : ∀ s₁ s₂ a₁ a₂ r₁ r₂ s₁' s₂', R s₁ s₂ → agree s₁ a₁ a₂ →
      step₁ s₁ a₁ = some (r₁, s₁') → step₂ s₂ a₂ = some (r₂, s₂') → R s₁' s₂')
    {s₁ s₂ : State}
    (hrun : Lockstep admits agree step₁ step₂ init₁ init₂ s₁ s₂) : R s₁ s₂ := by
  induction hrun with
  | start => exact hstart
  | next _ hagree _ _ hstep₁ hstep₂ ih =>
    exact hnext _ _ _ _ _ _ _ _ ih hagree hstep₁ hstep₂

section Grants

variable {Event : Type u} {Grant : Type v}

def Live (issues revokes : Event → Grant → Prop) (history : List Event)
    (g : Grant) : Prop :=
  ∃ later event earlier, history = later ++ event :: earlier ∧
    issues event g ∧ ∀ e ∈ later, ¬ revokes e g

variable {issues revokes : Event → Grant → Prop}

theorem not_live_nil (g : Grant) : ¬ Live issues revokes [] g := by
  rintro ⟨later, event, earlier, hsplit, -⟩
  simp at hsplit

/-- One more event either issues the grant or leaves it unrevoked. -/
theorem live_cons_iff (event : Event) (history : List Event) (g : Grant) :
    Live issues revokes (event :: history) g ↔
      issues event g ∨ (Live issues revokes history g ∧ ¬ revokes event g) := by
  constructor
  · rintro ⟨later, e, earlier, hsplit, hissue, hlater⟩
    cases later with
    | nil =>
      obtain ⟨rfl, rfl⟩ : event = e ∧ history = earlier := by
        simpa using hsplit
      exact .inl hissue
    | cons first later =>
      obtain ⟨rfl, rfl⟩ :
          event = first ∧ history = later ++ e :: earlier := by
        simpa using hsplit
      refine .inr ⟨⟨later, e, earlier, rfl, hissue, ?_⟩, ?_⟩
      · intro e' he'
        exact hlater e' (List.mem_cons_of_mem _ he')
      · exact hlater event List.mem_cons_self
  · rintro (hissue | ⟨⟨later, e, earlier, rfl, hissue, hlater⟩, hkept⟩)
    · exact ⟨[], event, history, rfl, hissue, by simp⟩
    · refine ⟨event :: later, e, earlier, rfl, hissue, ?_⟩
      intro e' he'
      rcases List.mem_cons.mp he' with rfl | hmem
      · exact hkept
      · exact hlater e' hmem

theorem Live.exists_issue {history : List Event} {g : Grant}
    (h : Live issues revokes history g) : ∃ e ∈ history, issues e g := by
  obtain ⟨later, event, earlier, rfl, hissue, -⟩ := h
  exact ⟨event, by simp, hissue⟩

/-- A grant that is live although an event revoked it was issued again after
that event. -/
theorem Live.exists_issue_after {later earlier : List Event} {event : Event}
    {g : Grant} (h : Live issues revokes (later ++ event :: earlier) g)
    (hrevoke : revokes event g) (hissue : ¬ issues event g) :
    ∃ e ∈ later, issues e g := by
  induction later with
  | nil =>
    rcases (live_cons_iff event earlier g).mp h with hnow | ⟨-, hkept⟩
    · exact (hissue hnow).elim
    · exact (hkept hrevoke).elim
  | cons first later ih =>
    rcases (live_cons_iff first _ g).mp h with hnow | ⟨hlive, -⟩
    · exact ⟨first, List.mem_cons_self, hnow⟩
    · obtain ⟨e, hmem, he⟩ := ih hlive
      exact ⟨e, List.mem_cons_of_mem _ hmem, he⟩

end Grants

/-- Every event of the history stands in the relation to the events before
it. -/
def Throughout {Event : Type u} (P : Event → List Event → Prop) :
    List Event → Prop
  | [] => True
  | event :: earlier => P event earlier ∧ Throughout P earlier

/-- The computation returns at some recursion depth. -/
def Returns (f : ℕ → Option Result) : Prop :=
  ∃ depth, (f depth).isSome

theorem not_returns_of_forall_none {f : ℕ → Option Result}
    (h : ∀ depth, f depth = none) : ¬ Returns f := by
  rintro ⟨depth, hsome⟩
  rw [h depth] at hsome
  cases hsome

section Recursion

variable {Arg : Type u} {Value : Type v}

/-- The recursive procedure with body `body`, cut off at a depth. -/
def atDepth (body : (Arg → Option Value) → Arg → Option Value) :
    ℕ → Arg → Option Value
  | 0 => fun _ => none
  | depth + 1 => body (atDepth body depth)

/-- The body makes recursive calls only on arguments of smaller measure. -/
def CallsBelow (measure : Arg → ℕ)
    (body : (Arg → Option Value) → Arg → Option Value) : Prop :=
  ∀ f g x, (∀ y, measure y < measure x → f y = g y) → body f x = body g x

/-- The recursive procedure, unfolded as deep as the measure allows. -/
def recurse (measure : Arg → ℕ)
    (body : (Arg → Option Value) → Arg → Option Value) (x : Arg) :
    Option Value :=
  atDepth body (measure x + 1) x

variable {measure : Arg → ℕ}
  {body : (Arg → Option Value) → Arg → Option Value}

/-- Beyond the measure, a larger depth makes no difference. -/
theorem atDepth_eq_of_lt (hbody : CallsBelow measure body) {m n : ℕ}
    {x : Arg} (hm : measure x < m) (hn : measure x < n) :
    atDepth body m x = atDepth body n x := by
  induction m generalizing n x with
  | zero => omega
  | succ m ih =>
    obtain ⟨n, rfl⟩ : ∃ k, n = k + 1 := ⟨n - 1, by omega⟩
    apply hbody
    intro y hy
    exact ih (by omega) (by omega)

/-- The recursive procedure satisfies its defining equation. -/
theorem recurse_eq (hbody : CallsBelow measure body) (x : Arg) :
    recurse measure body x = body (recurse measure body) x := by
  apply hbody
  intro y hy
  exact atDepth_eq_of_lt hbody hy (Nat.lt_succ_self _)

/-- What the body establishes from its recursive calls holds of the
procedure. -/
theorem recurse_induction (hbody : CallsBelow measure body)
    {P : Arg → Option Value → Prop}
    (hstep : ∀ f x, (∀ y, measure y < measure x → P y (f y)) →
      P x (body f x)) (x : Arg) : P x (recurse measure body x) := by
  induction hx : measure x using Nat.strong_induction_on generalizing x with
  | _ n ih =>
    subst hx
    rw [recurse_eq hbody]
    apply hstep
    intro y hy
    exact ih (measure y) hy y rfl

/-- The body calls the procedure on `y` when it runs on `x`: its result depends
on what this call returns. -/
def Calls (body : (Arg → Option Value) → Arg → Option Value) (x y : Arg) :
    Prop :=
  ∃ f g, (∀ z, z ≠ y → f z = g z) ∧ body f x ≠ body g x

/-- Whatever tells apart the calls on which the body depends holds of every
call it makes. -/
theorem Calls.of_congr {R : Arg → Arg → Prop}
    (hbody : ∀ f g x, (∀ y, R x y → f y = g y) → body f x = body g x)
    {x y : Arg} (h : Calls body x y) : R x y := by
  obtain ⟨f, g, hagree, hne⟩ := h
  by_contra hnot
  refine hne (hbody f g x fun z hz => hagree z ?_)
  rintro rfl
  exact hnot hz

/-- Calls that each get at least `k` less than their caller cannot be nested
deeper than the size of the first allows. -/
theorem length_le_of_isChain {R : Arg → Arg → Prop} (size : Arg → ℕ) {k : ℕ}
    (hk : 0 < k) (hR : ∀ x y, R x y → size y + k ≤ size x) {x : Arg}
    {chain : List Arg} (h : (x :: chain).IsChain R) :
    chain.length ≤ size x / k := by
  induction chain generalizing x with
  | nil => exact Nat.zero_le _
  | cons y chain ih =>
    obtain ⟨hxy, hchain⟩ := List.isChain_cons_cons.mp h
    have hlater := ih hchain
    have hstep := Nat.div_le_div_right (c := k) (hR x y hxy)
    rw [Nat.add_div_right _ hk] at hstep
    rw [List.length_cons]
    omega

end Recursion

end Runs
