/-
# `Lib.BitFields` — fields of a word as numbers

A word put together from fields by shifts and `|`, each field below the one before it,
is the sum of the fields at their places, and a shift and a mask take a field out as a
quotient and a remainder.
-/
import Mathlib.Data.Nat.Bitwise

namespace Lib

section

variable {w k v : ℕ}

/-- A field above another. -/
theorem toNat_shift_or {x y : BitVec w} (hy : y.toNat < 2 ^ k) (hx : x.toNat * 2 ^ k < 2 ^ w) :
    ((x <<< k) ||| y).toNat = x.toNat * 2 ^ k + y.toNat := by
  rw [BitVec.toNat_or, BitVec.toNat_shiftLeft, Nat.shiftLeft_eq, Nat.mod_eq_of_lt hx,
    ← Nat.shiftLeft_eq, Nat.shiftLeft_add_eq_or_of_lt hy]

/-- The low bits of a word. -/
theorem toNat_and_mask (x mask : BitVec w) (hmask : mask.toNat = 2 ^ k - 1) :
    (x &&& mask).toNat = x.toNat % 2 ^ k := by
  rw [BitVec.toNat_and, hmask, Nat.and_two_pow_sub_one_eq_mod]

theorem toNat_field (x : BitVec w) (k v : ℕ) :
    ((x >>> k).setWidth v).toNat = x.toNat / 2 ^ k % 2 ^ v := by
  rw [BitVec.toNat_setWidth, BitVec.toNat_ushiftRight, Nat.shiftRight_eq_div_pow]

theorem toNat_widen (x : BitVec w) (h : w ≤ v) : (x.setWidth v).toNat = x.toNat := by
  rw [BitVec.toNat_setWidth]
  exact Nat.mod_eq_of_lt (lt_of_lt_of_le x.isLt (Nat.pow_le_pow_right (by decide) h))

end

end Lib
