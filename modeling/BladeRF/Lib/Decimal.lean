/-
# `Lib.Decimal` — decimal numbers as strings of bytes

`decimal` is what `snprintf` prints for `%u`, `atoi` reads a number back from the
digits a string starts with.  A string that is cut short by a reader loses its
last digits, which divides the number.
-/
import BladeRF.Lib.CString
import Mathlib.Data.Nat.Digits.Lemmas

namespace Lib

/-- The digits of a number, the first one first; zero has one digit. -/
def decimalDigits (n : ℕ) : List ℕ := if n = 0 then [0] else (Nat.digits 10 n).reverse

def digitChar (d : ℕ) : BitVec 8 := BitVec.ofNat 8 (0x30 + d)

/-- `snprintf(str, size, "%u", n)`. -/
def decimal (n : ℕ) : List (BitVec 8) := (decimalDigits n).map digitChar

/-- The value of a character, if it is a digit. -/
def digitValue (c : BitVec 8) : Option ℕ :=
  if 0x30 ≤ c.toNat ∧ c.toNat ≤ 0x39 then some (c.toNat - 0x30) else none

/-- `atoi` from an intermediate value on. -/
def atoiFrom (v : ℕ) : List (BitVec 8) → ℕ
  | [] => v
  | c :: cs =>
      match digitValue c with
      | some d => atoiFrom (10 * v + d) cs
      | none => v

/-- `atoi` of a string without blanks and sign. -/
def atoi (cs : List (BitVec 8)) : ℕ := atoiFrom 0 cs

theorem digitValue_digitChar {d : ℕ} (h : d < 10) : digitValue (digitChar d) = some d := by
  have hval : (digitChar d).toNat = 0x30 + d := by
    unfold digitChar
    rw [BitVec.toNat_ofNat, Nat.mod_eq_of_lt (by omega)]
  unfold digitValue
  rw [hval, if_pos (by omega)]
  congr 1
  omega

theorem decimalDigits_lt {n d : ℕ} (h : d ∈ decimalDigits n) : d < 10 := by
  unfold decimalDigits at h
  split_ifs at h with hn
  · obtain rfl := List.mem_singleton.mp h
    decide
  · exact Nat.digits_lt_base (by decide) (List.mem_reverse.mp h)

/-- No character of a printed number is the terminator. -/
theorem zero_notMem_decimal (n : ℕ) : 0 ∉ decimal n := by
  intro h
  obtain ⟨d, hd, hzero⟩ := List.mem_map.mp h
  have hvalue := digitValue_digitChar (decimalDigits_lt hd)
  rw [hzero] at hvalue
  exact nomatch hvalue

/-- The string of a printed number. -/
def decimalStr (n : ℕ) : CStr := ⟨decimal n, zero_notMem_decimal n⟩

theorem atoiFrom_digits (ds : List ℕ) (hd : ∀ d ∈ ds, d < 10) (v : ℕ) :
    atoiFrom v (ds.map digitChar) = ds.foldl (fun a d => 10 * a + d) v := by
  induction ds generalizing v with
  | nil => rfl
  | cons d ds ih =>
      rw [List.map_cons, atoiFrom, digitValue_digitChar (hd d List.mem_cons_self)]
      exact ih (fun e he => hd e (List.mem_cons_of_mem _ he)) _

theorem foldl_reverse_digits (ds : List ℕ) :
    ds.reverse.foldl (fun a d => 10 * a + d) 0 = Nat.ofDigits 10 ds := by
  rw [List.foldl_reverse, Nat.ofDigits_eq_foldr]
  congr 1
  funext d a
  simp [Nat.add_comm]

/-- A number of at most `k` digits is printed in `k` characters. -/
theorem length_decimal_le {n k : ℕ} (hk : 0 < k) (h : n < 10 ^ k) : (decimal n).length ≤ k := by
  unfold decimal decimalDigits
  rw [List.length_map]
  split_ifs with hn
  · exact hk
  · rw [List.length_reverse, Nat.digits_length_le_iff (by decide)]
    exact h

/-- … and one that is larger than that in more. -/
theorem lt_length_decimal {n k : ℕ} (h : 10 ^ k ≤ n) : k < (decimal n).length := by
  have hn : n ≠ 0 := (lt_of_lt_of_le (Nat.pow_pos (by decide)) h).ne'
  unfold decimal decimalDigits
  rw [List.length_map, if_neg hn, List.length_reverse, Nat.lt_digits_length_iff (by decide)]
  exact h

/-- A reader that takes `k` characters divides the number by what it leaves. -/
theorem atoi_take_decimal {n : ℕ} (hn : n ≠ 0) (k : ℕ) :
    atoi ((decimal n).take k) = n / 10 ^ ((decimal n).length - k) := by
  have hdigits : decimalDigits n = (Nat.digits 10 n).reverse := if_neg hn
  unfold atoi decimal
  rw [← List.map_take, atoiFrom_digits _ fun d hd => decimalDigits_lt (List.mem_of_mem_take hd),
    List.length_map, hdigits, List.length_reverse, List.take_reverse, foldl_reverse_digits,
    Nat.self_div_pow_eq_ofDigits_drop _ n (by decide)]

/-- A printed number that is not cut is read back. -/
theorem atoi_take_decimal_of_lt {n k : ℕ} (hn : n ≠ 0) (hk : 0 < k) (h : n < 10 ^ k) :
    atoi ((decimal n).take k) = n := by
  rw [atoi_take_decimal hn, Nat.sub_eq_zero_of_le (length_decimal_le hk h), Nat.pow_zero,
    Nat.div_one]

end Lib
