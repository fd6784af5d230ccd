import Mathlib.Data.List.Nodup
import Mathlib.Tactic.Common

/-!
# Counter nonces

The abstract behaviour of a component that encrypts under one key at a time
and numbers the encryptions.  Drawing a key starts the numbers again, and a key
that was dropped is not used any more.  If no key is drawn twice, no number is
used twice under one key.
-/

namespace Nonces

variable {Key : Type}

inductive Event (Key : Type)
  | draw (key : Key)
  | drop
  | use (key : Key) (n : ℕ)
  | idle

/-- The state is the current key with the number of its last use. -/
inductive Step : Option (Key × ℕ) → Event Key → Option (Key × ℕ) → Prop
  | draw (s : Option (Key × ℕ)) (key : Key) : Step s (.draw key) (some (key, 0))
  | drop (s : Option (Key × ℕ)) : Step s .drop none
  | use (key : Key) (n : ℕ) :
      Step (some (key, n)) (.use key (n + 1)) (some (key, n + 1))
  | idle (s : Option (Key × ℕ)) : Step s .idle s

/-- Sequences of events from the state without a key, the latest event
first. -/
inductive Steps : List (Event Key) → Option (Key × ℕ) → Prop
  | start : Steps [] none
  | next {history : List (Event Key)} {s s' : Option (Key × ℕ)}
      {event : Event Key} :
      Steps history s → Step s event s' → Steps (event :: history) s'

/-- The keys drawn, the latest first. -/
def draws : List (Event Key) → List Key :=
  List.filterMap fun
    | .draw key => some key
    | _ => none

/-- The uses, the latest first. -/
def uses : List (Event Key) → List (Key × ℕ) :=
  List.filterMap fun
    | .use key n => some (key, n)
    | _ => none

/-- Only drawn keys are used, and no use of the current key has a number above
the last one. -/
structure Accounted (history : List (Event Key)) (s : Option (Key × ℕ)) :
    Prop where
  drawn : ∀ {key : Key} {n : ℕ}, (key, n) ∈ uses history → key ∈ draws history
  current : ∀ {key : Key} {n : ℕ}, s = some (key, n) → key ∈ draws history
  bounded : ∀ {key : Key} {n m : ℕ}, s = some (key, n) →
    (key, m) ∈ uses history → m ≤ n
  nodup : (uses history).Nodup

theorem Steps.accounted {history : List (Event Key)} {s : Option (Key × ℕ)}
    (h : Steps history s) (hdraws : (draws history).Nodup) :
    Accounted history s := by
  induction h with
  | start =>
    refine ⟨?_, ?_, ?_, List.nodup_nil⟩
    · intro key n hmem
      exact (List.not_mem_nil hmem).elim
    · intro key n hs
      cases hs
    · intro key n m hs
      cases hs
  | @next history s s' event hprev hstep ih =>
    cases hstep with
    | draw s key =>
      obtain ⟨hfresh, hearlier⟩ := List.nodup_cons.mp hdraws
      have hacc := ih hearlier
      refine ⟨fun hmem => List.mem_cons_of_mem _ (hacc.drawn hmem), ?_, ?_,
        hacc.nodup⟩
      · rintro key' n ⟨⟩
        exact List.mem_cons_self
      · rintro key' n m ⟨⟩ hmem
        exact (hfresh (hacc.drawn hmem)).elim
    | drop s =>
      have hacc := ih hdraws
      refine ⟨hacc.drawn, ?_, ?_, hacc.nodup⟩
      · intro key n hs
        cases hs
      · intro key n m hs
        cases hs
    | use key n =>
      have hacc := ih hdraws
      refine ⟨?_, ?_, ?_, ?_⟩
      · intro key' m hmem
        rcases List.mem_cons.mp hmem with heq | hmem
        · cases heq
          exact hacc.current rfl
        · exact hacc.drawn hmem
      · rintro key' m ⟨⟩
        exact hacc.current rfl
      · rintro key' n' m ⟨⟩ hmem
        rcases List.mem_cons.mp hmem with heq | hmem
        · cases heq
          exact Nat.le_refl _
        · exact Nat.le_succ_of_le (hacc.bounded rfl hmem)
      · apply List.nodup_cons.mpr
        refine ⟨?_, hacc.nodup⟩
        intro hmem
        exact Nat.not_succ_le_self n (hacc.bounded rfl hmem)
    | idle s =>
      have hacc := ih hdraws
      exact ⟨hacc.drawn, hacc.current, hacc.bounded, hacc.nodup⟩

end Nonces
