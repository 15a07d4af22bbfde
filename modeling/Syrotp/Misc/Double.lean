import Mathlib.Algebra.Group.Nat.Defs
import Mathlib.Data.Nat.Log

/-!
# Doubles

The double that an integer converts to. Its value is an integer too: the nearest one with at most
53 significant bits, and of two the one with an even last bit.
-/

namespace Syrotp

/-- `n / 2 ^ s` to the nearest integer, and to the even one of two. -/
def roundHalfEven (n s : Nat) : Nat :=
  let q := n / 2 ^ s
  let r := n % 2 ^ s
  if 2 ^ s < 2 * r ∨ 2 * r = 2 ^ s ∧ q % 2 = 1 then q + 1 else q

/-- Every double is less than two to this power. -/
def exponentRange : Nat := 1024

/-- The value of the double for `n`, if there is a finite one. -/
def toDouble (n : Nat) : Option Nat :=
  let s := n.log2 + 1 - 53
  let v := roundHalfEven n s * 2 ^ s
  if v < 2 ^ exponentRange then some v else none

variable {n : Nat}

theorem roundHalfEven_zero : roundHalfEven n 0 = n := by
  simp [roundHalfEven, Nat.mod_one]

/-- Whatever fits in 53 bits is converted exactly. -/
theorem toDouble_exact (h : n < 2 ^ 53) : toDouble n = some n := by
  have shift : n.log2 + 1 - 53 = 0 := by
    rcases Nat.eq_zero_or_pos n with rfl | pos
    · rfl
    · have := (Nat.log2_lt pos.ne').mpr h
      omega
  have finite : n < 2 ^ exponentRange :=
    Nat.lt_of_lt_of_le h (Nat.pow_le_pow_right Nat.two_pos (by decide))
  rw [toDouble, shift, roundHalfEven_zero, Nat.pow_zero, Nat.mul_one]
  exact if_pos finite

example : toDouble (2 ^ 53 + 1) = some (2 ^ 53) := by decide +kernel

example : toDouble (10 ^ 309) = none := by decide +kernel

end Syrotp
