import Mathlib.Data.List.Basic
import Mathlib.Tactic.Common

/-!
# A single-slot mailbox

The abstract behaviour of a channel that holds at most one item.  An item may
be put only into an empty mailbox and is taken whole, which empties it.  The
conservation law says that over any sequence of events nothing is lost,
duplicated or reordered.
-/

namespace Mailbox

universe u

variable {Item : Type u}

inductive Event (Item : Type u)
  | put (x : Item)
  | take (x : Item)
  | idle

inductive Step : Option Item → Event Item → Option Item → Prop
  | put (x : Item) : Step none (.put x) (some x)
  | take (x : Item) : Step (some x) (.take x) none
  | idle (s : Option Item) : Step s .idle s

/-- Sequences of events from `init`, the latest event first. -/
inductive Steps (init : Option Item) :
    List (Event Item) → Option Item → Prop
  | start : Steps init [] init
  | next {history : List (Event Item)} {s s' : Option Item}
      {event : Event Item} :
      Steps init history s → Step s event s' →
        Steps init (event :: history) s'

/-- The items put, in the order in which they were put. -/
def puts : List (Event Item) → List Item
  | [] => []
  | .put x :: history => puts history ++ [x]
  | .take _ :: history => puts history
  | .idle :: history => puts history

/-- The items taken, in the order in which they were taken. -/
def takes : List (Event Item) → List Item
  | [] => []
  | .put _ :: history => takes history
  | .take x :: history => takes history ++ [x]
  | .idle :: history => takes history

/-- What was there and what was put is what was taken and what is left. -/
theorem Steps.conservation {init s : Option Item}
    {history : List (Event Item)} (h : Steps init history s) :
    init.toList ++ puts history = takes history ++ s.toList := by
  induction h with
  | start => simp [puts, takes]
  | next _ hstep ih =>
    cases hstep with
    | put x =>
      rw [puts, takes, ← List.append_assoc, ih]
      simp
    | take x =>
      rw [puts, takes, ih]
      simp
    | idle s => simpa [puts, takes] using ih

end Mailbox
