/-
# `Lib.Fraction` — mixed fractions of natural numbers

`mixed i n d` is the number `i + n/d`.  Carrying the whole part of `n/d` over and
dividing `n` and `d` by a common divisor do not change it.  Cutting both of them short
changes it by the last place of the smaller denominator at most, and a quotient by it in
proportion.
-/
import Mathlib.Data.Nat.Cast.Field
import Mathlib.Data.Nat.Cast.Order.Field
import Mathlib.Tactic.FieldSimp
import Mathlib.Tactic.Linarith
import Mathlib.Tactic.Positivity
import Mathlib.Tactic.Ring

namespace Lib

/-- `i + n/d` -/
def mixed (i n d : ℕ) : ℚ := i + n / d

section

variable {i n d m : ℕ}

theorem mixed_nonneg (i n d : ℕ) : 0 ≤ mixed i n d := by
  unfold mixed
  positivity

/-- The whole part is carried over. -/
theorem mixed_carry (hd : 0 < d) (i n : ℕ) : mixed (i + n / d) (n % d) d = mixed i n d := by
  have hd' : (d : ℚ) ≠ 0 := Nat.cast_ne_zero.mpr (Nat.pos_iff_ne_zero.mp hd)
  have hn : (n : ℚ) / d = (n / d : ℕ) + (n % d : ℕ) / d := by
    rw [← mul_div_cancel_left₀ ((n / d : ℕ) : ℚ) hd', ← add_div]
    congr 1
    exact_mod_cast (Nat.div_add_mod n d).symm
  unfold mixed
  rw [hn, Nat.cast_add, add_assoc]

/-- A common divisor is divided out. -/
theorem mixed_div (hn : m ∣ n) (hd : m ∣ d) (hm : 0 < m) (i : ℕ) :
    mixed i (n / m) (d / m) = mixed i n d := by
  have hm' : (m : ℚ) ≠ 0 := Nat.cast_ne_zero.mpr (Nat.pos_iff_ne_zero.mp hm)
  unfold mixed
  rw [Nat.cast_div hn hm', Nat.cast_div hd hm', div_div_div_cancel_right₀ hm']

/-- A fraction as a quotient. -/
theorem mixed_eq_div (hd : 0 < d) (i n : ℕ) : mixed i n d = (i * d + n : ℕ) / (d : ℕ) := by
  have hd' : (d : ℚ) ≠ 0 := Nat.cast_ne_zero.mpr (Nat.pos_iff_ne_zero.mp hd)
  unfold mixed
  rw [Nat.cast_add, Nat.cast_mul, add_div, mul_div_cancel_right₀ _ hd']

theorem le_mixed (i n d : ℕ) : (i : ℚ) ≤ mixed i n d := by
  have hnonneg : (0 : ℚ) ≤ n / d := by positivity
  unfold mixed
  linarith

/-- Both parts of a proper fraction are cut short. -/
theorem cut_close (hnd : n ≤ d) (hm : 0 < m) (hc : 0 < d / m) :
    |(n / d : ℚ) - (n / m : ℕ) / (d / m : ℕ)| ≤ 1 / (d / m : ℕ) := by
  obtain ⟨b, hb⟩ : ∃ b, n / m = b := ⟨_, rfl⟩
  obtain ⟨c, hcdef⟩ : ∃ c, d / m = c := ⟨_, rfl⟩
  obtain ⟨e, he⟩ : ∃ e, n % m = e := ⟨_, rfl⟩
  obtain ⟨f, hf⟩ : ∃ f, d % m = f := ⟨_, rfl⟩
  have hn : n = m * b + e := by rw [← hb, ← he, Nat.div_add_mod]
  have hd : d = m * c + f := by rw [← hcdef, ← hf, Nat.div_add_mod]
  have hem : e < m := by rw [← he]; exact Nat.mod_lt _ hm
  have hfm : f < m := by rw [← hf]; exact Nat.mod_lt _ hm
  have hbc : b ≤ c := by rw [← hb, ← hcdef]; exact Nat.div_le_div_right hnd
  rw [hcdef] at hc
  rw [hb, hcdef]
  have hcq : (0 : ℚ) < c := Nat.cast_pos.mpr hc
  have hdq : (0 : ℚ) < d := Nat.cast_pos.mpr (by rw [hd]; positivity)
  have hmc : (m : ℚ) * c ≤ d := by
    rw [hd]
    push_cast
    linarith [Nat.cast_nonneg (α := ℚ) f]
  -- what is thrown away, over the product of the denominators
  have hdiff : (n / d : ℚ) - b / c = (c * e - b * f) / (c * d) := by
    rw [div_sub_div _ _ hdq.ne' hcq.ne', mul_comm (d : ℚ) c]
    congr 1
    rw [hn, hd]
    push_cast
    ring
  have hce : (c : ℚ) * e ≤ c * m := mul_le_mul_of_nonneg_left (Nat.cast_le.mpr hem.le) hcq.le
  have hbf : (b : ℚ) * f ≤ c * m :=
    mul_le_mul (Nat.cast_le.mpr hbc) (Nat.cast_le.mpr hfm.le) (Nat.cast_nonneg _) hcq.le
  have hce0 : (0 : ℚ) ≤ c * e := by positivity
  have hbf0 : (0 : ℚ) ≤ b * f := by positivity
  have hnum : |(c * e - b * f : ℚ)| ≤ c * m := by
    rw [abs_le]
    constructor
    · linarith
    · linarith
  rw [hdiff, abs_div, abs_of_pos (mul_pos hcq hdq), div_le_div_iff₀ (mul_pos hcq hdq) hcq]
  calc |(c * e - b * f : ℚ)| * c ≤ c * m * c := mul_le_mul_of_nonneg_right hnum hcq.le
    _ = c * (m * c) := by ring
    _ ≤ c * d := mul_le_mul_of_nonneg_left hmc hcq.le
    _ = 1 * (c * d) := by ring

theorem div_close {K x y ε : ℚ} (hK : 0 ≤ K) (hx : 0 < x) (hy : 0 < y) (h : |x - y| ≤ ε) :
    |K / y - K / x| ≤ ε / y * (K / x) := by
  have hdiff : K / y - K / x = (x - y) / y * (K / x) := by
    field_simp
  rw [hdiff, abs_mul, abs_div, abs_of_pos hy, abs_of_nonneg (div_nonneg hK hx.le)]
  exact mul_le_mul_of_nonneg_right (div_le_div_of_nonneg_right h hy.le) (div_nonneg hK hx.le)

end

end Lib
