/-
# `Lib.Bytes` — little-endian fields

`leBytes w v` is the `w` bytes a C packer writes for `v`, least significant
first, and `leNat` reads them back.  A field that is packed and unpacked at its
own width keeps its value; one that is wider is reduced.
-/
import Mathlib.Algebra.Order.Ring.Nat
import Mathlib.Data.List.OfFn

namespace Lib

/-- The `w` low bytes of `v`, least significant first. -/
def leBytes : ℕ → ℕ → List (BitVec 8)
  | 0, _ => []
  | w + 1, v => BitVec.ofNat 8 v :: leBytes w (v / 256)

/-- The number a list of bytes spells, least significant first. -/
def leNat : List (BitVec 8) → ℕ
  | [] => 0
  | b :: bs => b.toNat + 256 * leNat bs

@[simp] theorem length_leBytes (w v : ℕ) : (leBytes w v).length = w := by
  induction w generalizing v with
  | zero => rfl
  | succ w ih => simp [leBytes, ih]

theorem leNat_leBytes (w v : ℕ) : leNat (leBytes w v) = v % 256 ^ w := by
  induction w generalizing v with
  | zero => simp [leBytes, leNat, Nat.mod_one]
  | succ w ih =>
      have hpow : 256 ^ (w + 1) = 256 * 256 ^ w := by rw [Nat.pow_succ, Nat.mul_comm]
      rw [leBytes, leNat, ih, BitVec.toNat_ofNat, hpow, Nat.mod_mul]

/-- A field read at the width it was written with. -/
theorem leNat_leBytes_of_lt {w v : ℕ} (h : v < 256 ^ w) : leNat (leBytes w v) = v := by
  rw [leNat_leBytes, Nat.mod_eq_of_lt h]

theorem leBytes_eq_ofFn (w v : ℕ) :
    leBytes w v = List.ofFn fun i : Fin w => BitVec.ofNat 8 (v / 256 ^ i.val) := by
  induction w generalizing v with
  | zero => rfl
  | succ w ih =>
      rw [leBytes, ih, List.ofFn_succ]
      congr 1
      · rw [Fin.val_zero, Nat.pow_zero, Nat.div_one]
      · congr 1
        funext i
        rw [Nat.div_div_eq_div_mul, Fin.val_succ, Nat.pow_succ, Nat.mul_comm 256]

/-- The bytes of the number that bytes spell. -/
theorem leBytes_leNat (bs : List (BitVec 8)) : leBytes bs.length (leNat bs) = bs := by
  induction bs with
  | nil => rfl
  | cons b bs ih =>
      have hb : b.toNat < 256 := b.isLt
      have hlow : BitVec.ofNat 8 (b.toNat + 256 * leNat bs) = b :=
        BitVec.eq_of_toNat_eq (by rw [BitVec.toNat_ofNat]; omega)
      have hhigh : (b.toNat + 256 * leNat bs) / 256 = leNat bs := by omega
      rw [List.length_cons, leBytes, leNat, hlow, hhigh, ih]

theorem ofNat_leNat_div {bs : List (BitVec 8)} {i : ℕ} (hi : i < bs.length) :
    BitVec.ofNat 8 (leNat bs / 256 ^ i) = bs[i] := by
  have hall := leBytes_leNat bs
  rw [leBytes_eq_ofFn] at hall
  have hget : (List.ofFn fun i : Fin bs.length => BitVec.ofNat 8 (leNat bs / 256 ^ i.val))[i]? =
      bs[i]? := by rw [hall]
  rw [List.getElem?_ofFn, dif_pos hi, List.getElem?_eq_getElem hi] at hget
  exact Option.some.inj hget

theorem leNat_eq_zero {bs : List (BitVec 8)} : leNat bs = 0 ↔ ∀ b ∈ bs, b = 0 := by
  induction bs with
  | nil => simp [leNat]
  | cons b bs ih =>
      have hb : b.toNat = 0 ↔ b = 0 := by
        constructor
        · intro h
          exact BitVec.eq_of_toNat_eq h
        · rintro rfl
          rfl
      simp only [leNat, List.mem_cons, forall_eq_or_imp, ← ih, ← hb]
      omega

theorem leNat_lt (bs : List (BitVec 8)) : leNat bs < 256 ^ bs.length := by
  induction bs with
  | nil => simp [leNat]
  | cons b bs ih =>
      have hb : b.toNat < 256 := b.isLt
      rw [leNat, List.length_cons, Nat.pow_succ]
      omega

end Lib
