import IsoLightK0.Support.Bytes

/-!
# Programs with checked accesses

A program that indexes a buffer out of range does not go on.  Here such a
fault is told apart from the errors that a program returns on purpose: it
either returns a value, refuses with an error, or faults.  `Meets` says that a
program does not fault and that the value it returns, if any, has a property.
The rules below follow the constructs of a program, so that one reading of the
program gives both.
-/

namespace Faults

open Bytes

variable {ε α β : Type} {n : ℕ}

/-- The ends of a program other than a value. -/
inductive Stop (ε : Type)
  | refused (e : ε)
  | fault
  deriving DecidableEq, Repr

/-- A program that may fault. -/
abbrev Checked (ε α : Type) := Except (Stop ε) α

def refuse (e : ε) : Checked ε α := .error (.refused e)

def refuseIf (c : Prop) [Decidable c] (e : ε) : Checked ε Unit :=
  if c then refuse e else .ok ()

/-- The value of a fallible step, or an error. -/
def orRefuse (e : ε) : Option α → Checked ε α
  | some a => .ok a
  | none => refuse e

/-- The octets from `lo` up to `hi`. -/
def range (b : Buf n) (lo hi : ℕ) : Checked ε (List Byte) :=
  if lo ≤ hi ∧ hi ≤ n then .ok (b.slice lo (hi - lo)) else .error .fault

/-- Copy octets to the places from `lo` up to `hi`, of which there must be as
many. -/
def copyRange (b : Buf n) (lo hi : ℕ) (octets : List Byte) :
    Checked ε (Buf n) :=
  if lo ≤ hi ∧ hi ≤ n ∧ octets.length = hi - lo then .ok (b.blit lo octets)
  else .error .fault

/-- Octets as an array of a fixed size, if they have this size. -/
def asArray (n : ℕ) (octets : List Byte) : Option (Buf n) :=
  if octets.length = n then some (Buf.ofList n octets) else none

/-- Octets copied to a new array of a fixed size, which they must have. -/
def toArray (n : ℕ) (octets : List Byte) : Checked ε (Buf n) :=
  if octets.length = n then .ok (Buf.ofList n octets) else .error .fault

@[simp] theorem ok_bind (a : α) (f : α → Checked ε β) :
    ((.ok a : Checked ε α) >>= f) = f a := rfl

@[simp] theorem refuse_bind (e : ε) (f : α → Checked ε β) :
    (refuse e >>= f) = refuse e := rfl

theorem refuseIf_of_not {c : Prop} [Decidable c] {e : ε} (hc : ¬ c) :
    refuseIf c e = .ok () := if_neg hc

theorem refuseIf_of {c : Prop} [Decidable c] {e : ε} (hc : c) :
    refuseIf c e = refuse e := if_pos hc

variable {b : Buf n} {hi : ℕ} {octets : List Byte}

theorem range_of_le {lo : ℕ} (hlo : lo ≤ hi) (hhi : hi ≤ n) :
    (range b lo hi : Checked ε (List Byte)) = .ok (b.slice lo (hi - lo)) :=
  if_pos ⟨hlo, hhi⟩

theorem copyRange_of_le {lo : ℕ} (hlo : lo ≤ hi) (hhi : hi ≤ n)
    (hlength : octets.length = hi - lo) :
    (copyRange b lo hi octets : Checked ε (Buf n)) = .ok (b.blit lo octets) :=
  if_pos ⟨hlo, hhi, hlength⟩

theorem range_zero_of_le (hhi : hi ≤ n) :
    (range b 0 hi : Checked ε (List Byte)) = .ok (b.slice 0 hi) :=
  range_of_le (Nat.zero_le hi) hhi

theorem copyRange_zero_of_le (hhi : hi ≤ n) (hlength : octets.length = hi) :
    (copyRange b 0 hi octets : Checked ε (Buf n)) = .ok (b.blit 0 octets) :=
  copyRange_of_le (Nat.zero_le hi) hhi hlength

theorem toArray_of_length (hlength : octets.length = n) :
    (toArray n octets : Checked ε (Buf n)) = .ok (Buf.ofList n octets) :=
  if_pos hlength

theorem toArray_toList (b : Buf n) :
    (toArray n b.toList : Checked ε (Buf n)) = .ok b := by
  rw [toArray_of_length (Buf.length_toList b), Buf.ofList_toList]

/-- The program does not fault, and a value that it returns has the property
`Q`. -/
def Meets (x : Checked ε α) (Q : α → Prop) : Prop :=
  x ≠ .error .fault ∧ ∀ a, x = .ok a → Q a

namespace Meets

variable {Q : β → Prop} {M : α → Prop} {f : α → Checked ε β}

theorem value {b : β} (hb : Q b) : Meets (.ok b : Checked ε β) Q := by
  refine ⟨by simp, ?_⟩
  rintro _ ⟨⟩
  exact hb

theorem refused (e : ε) : Meets (refuse e : Checked ε β) Q :=
  ⟨by simp [refuse], by simp [refuse]⟩

theorem weaken {Q' : β → Prop} {x : Checked ε β} (hx : Meets x Q)
    (hQ : ∀ b, Q b → Q' b) : Meets x Q' :=
  ⟨hx.1, fun b hb => hQ b (hx.2 b hb)⟩

theorem bind {x : Checked ε α} (hx : Meets x M)
    (hf : ∀ a, M a → Meets (f a) Q) : Meets (x >>= f) Q := by
  obtain ⟨hfault, hvalue⟩ := hx
  rcases x with ⟨e | _⟩ | a
  · exact refused e
  · exact absurd rfl hfault
  · exact hf a (hvalue a rfl)

theorem refuseIf_bind {c : Prop} [Decidable c] {e : ε}
    {g : Unit → Checked ε β} (hg : ¬ c → Meets (g ()) Q) :
    Meets (refuseIf c e >>= g) Q := by
  by_cases hc : c
  · rw [refuseIf_of hc]
    exact refused e
  · rw [refuseIf_of_not hc]
    exact hg hc

theorem orRefuse_bind {e : ε} {x : Option α}
    (hf : ∀ a, x = some a → Meets (f a) Q) :
    Meets (orRefuse e x >>= f) Q := by
  rcases x with _ | a
  · exact refused e
  · exact hf a rfl

theorem range_bind {b : Buf n} {lo hi : ℕ}
    {g : List Byte → Checked ε β} (hlo : lo ≤ hi) (hhi : hi ≤ n)
    (hg : Meets (g (b.slice lo (hi - lo))) Q) :
    Meets (range b lo hi >>= g) Q := by
  rw [range_of_le hlo hhi]
  exact hg

theorem copyRange_bind {b : Buf n} {lo hi : ℕ} {octets : List Byte}
    {g : Buf n → Checked ε β} (hlo : lo ≤ hi) (hhi : hi ≤ n)
    (hlength : octets.length = hi - lo) (hg : Meets (g (b.blit lo octets)) Q) :
    Meets (copyRange b lo hi octets >>= g) Q := by
  rw [copyRange_of_le hlo hhi hlength]
  exact hg

theorem toArray_bind {octets : List Byte} {g : Buf n → Checked ε β}
    (hlength : octets.length = n) (hg : Meets (g (Buf.ofList n octets)) Q) :
    Meets (toArray n octets >>= g) Q := by
  rw [toArray_of_length hlength]
  exact hg

end Meets

end Faults
