import Mathlib.Data.Nat.Bitwise

/-!
# CIDR ranges

A range of addresses of a given width: those that start with the same bits as its network. That is
a quotient of the numbers; comparing under a mask comes to the same.
-/

namespace Syrotp

/-- Addresses of `width` bits of which the first `bits` are those of `network`. -/
structure Cidr (width : Nat) where
  network : Nat
  bits : Nat
  deriving DecidableEq, Repr

namespace Cidr

variable {width : Nat}

def Contains (c : Cidr width) (address : Nat) : Prop :=
  address / 2 ^ (width - c.bits) = c.network / 2 ^ (width - c.bits)

instance (c : Cidr width) (address : Nat) : Decidable (c.Contains address) :=
  inferInstanceAs (Decidable (_ = _))

end Cidr

/-- A mask of high bits rounds down. -/
theorem land_highMask {width low x : Nat} (bound : x < 2 ^ width) :
    x &&& ((2 ^ width - 1) <<< low % 2 ^ width) = x / 2 ^ low * 2 ^ low := by
  rw [← Nat.shiftRight_eq_div_pow, ← Nat.shiftLeft_eq]
  refine Nat.eq_of_testBit_eq fun i => ?_
  rw [Nat.testBit_and, Nat.testBit_mod_two_pow, Nat.testBit_shiftLeft, Nat.testBit_shiftLeft,
    Nat.testBit_two_pow_sub_one, Nat.testBit_shiftRight]
  rcases Nat.lt_or_ge i low with below | above
  · simp [Nat.not_le.mpr below]
  · have index : low + (i - low) = i := by omega
    rw [index]
    rcases Nat.lt_or_ge i width with inside | outside
    · have : i - low < width := by omega
      simp [above, inside, this]
    · have zero : x.testBit i = false :=
        Nat.testBit_lt_two_pow (Nat.lt_of_lt_of_le bound (Nat.pow_le_pow_right (by decide) outside))
      simp [zero]

/-- Two addresses agree under the mask of a range if they agree in its bits. -/
theorem land_highMask_eq_iff (width low : Nat) {x y : Nat} (hx : x < 2 ^ width) (hy : y < 2 ^ width) :
    x &&& ((2 ^ width - 1) <<< low % 2 ^ width) = y &&& ((2 ^ width - 1) <<< low % 2 ^ width) ↔
      x / 2 ^ low = y / 2 ^ low := by
  rw [land_highMask hx, land_highMask hy]
  exact Nat.mul_left_inj (Nat.two_pow_pos low).ne'

end Syrotp
