import IsoLightK0.Support.Bytes

/-!
# System call context and the user window

The registers and error codes of the system call interface, and the two-ended
range check that every handler applies to a user pointer.  The check accepts
exactly the ranges that lie in the user window without wrapping around.
-/

namespace IsoLightK0

open Bytes

inductive SyscallError
  | unknown
  | badArg
  | badAddress
  | denied
  | noMessage
  | internal
  deriving DecidableEq, Repr

/-- `as_rax`: the negative code as a 64-bit word. -/
def SyscallError.asRax : SyscallError → BitVec 64
  | .unknown => BitVec.ofInt 64 (-1)
  | .badArg => BitVec.ofInt 64 (-2)
  | .badAddress => BitVec.ofInt 64 (-3)
  | .denied => BitVec.ofInt 64 (-4)
  | .noMessage => BitVec.ofInt 64 (-5)
  | .internal => BitVec.ofInt 64 (-6)

/-- The call number and the argument registers of `SyscallContext`. -/
structure SyscallContext where
  num : BitVec 64
  arg0 : BitVec 64
  arg1 : BitVec 64
  arg2 : BitVec 64
  arg3 : BitVec 64
  arg4 : BitVec 64
  arg5 : BitVec 64

def userMin : ℕ := 0x1000

def userMax : ℕ := 0x0000_8000_0000_0000

def isUserAddress (va : BitVec 64) : Bool :=
  userMin ≤ va.toNat ∧ va.toNat < userMax

def saturatingAdd (a b : BitVec 64) : BitVec 64 :=
  if a.toNat + b.toNat < 2 ^ 64 then a + b else BitVec.allOnes 64

def saturatingMul (a b : BitVec 64) : BitVec 64 :=
  if a.toNat * b.toNat < 2 ^ 64 then a * b else BitVec.allOnes 64

/-- The check `is_user_address(p) && is_user_address(p.saturating_add(len))`
that guards a user range. -/
def userRangeOk (ptr len : BitVec 64) : Bool :=
  isUserAddress ptr && isUserAddress (saturatingAdd ptr len)

theorem isUserAddress_iff (va : BitVec 64) :
    isUserAddress va = true ↔ 0x1000 ≤ va.toNat ∧ va.toNat < 2 ^ 47 := by
  rw [isUserAddress, decide_eq_true_iff]
  exact Iff.rfl

/-- The two-ended check accepts a range exactly when all of it, and its end,
lie in the window; a wrapping sum saturates out of the window. -/
theorem userRangeOk_iff (ptr len : BitVec 64) :
    userRangeOk ptr len = true ↔
      0x1000 ≤ ptr.toNat ∧ ptr.toNat + len.toNat < 2 ^ 47 := by
  unfold userRangeOk
  rw [Bool.and_eq_true, isUserAddress_iff, isUserAddress_iff]
  unfold saturatingAdd
  split
  · rename_i hsum
    have hadd : (ptr + len).toNat = ptr.toNat + len.toNat := by
      rw [BitVec.toNat_add, Nat.mod_eq_of_lt hsum]
    rw [hadd]
    omega
  · rename_i hsum
    have hones : (BitVec.allOnes 64).toNat = 2 ^ 64 - 1 := BitVec.toNat_allOnes
    rw [hones]
    omega

end IsoLightK0
