/-
# `Lib.Field` — read, modify, write

A control register is changed by reading it, setting and clearing some of its
bits, and writing it back.  Every such change overwrites a field: the bits under
a mask get a value, the others stay.  Changes of this kind compose, so a whole
sequence of them is again one, and what a reader finds under another mask
follows from the masks alone.
-/
import Mathlib.Order.Basic

namespace Lib

variable {w : ℕ}

/-- The bits of `x` under `mask` are overwritten with `value`. -/
def writeField (mask value x : BitVec w) : BitVec w := (x &&& ~~~mask) ||| (value &&& mask)

/-- The bits of `x` under `mask`. -/
def readField (mask x : BitVec w) : BitVec w := x &&& mask

theorem or_eq_writeField (bits x : BitVec w) : x ||| bits = writeField bits bits x := by
  ext i hi
  cases hb : bits[i] <;> simp [writeField, hb]

theorem and_not_eq_writeField (bits x : BitVec w) : x &&& ~~~bits = writeField bits 0 x := by
  simp [writeField]

/-- Two changes in a row are one. -/
theorem writeField_writeField (m₁ v₁ m₂ v₂ x : BitVec w) :
    writeField m₂ v₂ (writeField m₁ v₁ x) = writeField (m₁ ||| m₂) (writeField m₂ v₂ v₁) x := by
  ext i hi
  cases h₁ : m₁[i] <;> cases h₂ : m₂[i] <;> simp [writeField, h₁, h₂]

theorem readField_writeField_self (mask value x : BitVec w) :
    readField mask (writeField mask value x) = readField mask value := by
  ext i hi
  cases h : mask[i] <;> simp [readField, writeField, h]

theorem readField_writeField_of_disjoint {mask part : BitVec w} (value x : BitVec w)
    (h : part &&& mask = 0) :
    readField part (writeField mask value x) = readField part x := by
  ext i hi
  have hbit : (part &&& mask)[i] = false := by rw [h]; exact BitVec.getElem_zero hi
  rw [BitVec.getElem_and] at hbit
  cases hm : mask[i] <;> cases hp : part[i] <;> simp_all [readField, writeField]

/-! ## One bit, and a run of bits -/

/-- Bit `b` gets the value `v`. -/
def setBit (b : ℕ) (v : Bool) (x : BitVec w) : BitVec w :=
  if v then x ||| 1#w <<< b else x &&& ~~~(1#w <<< b)

/-- The bits from `shift` on get the value `v`. -/
def writeBits (shift : ℕ) {k : ℕ} (v : BitVec k) (x : BitVec w) : BitVec w :=
  (x &&& ~~~((BitVec.allOnes k).setWidth w <<< shift)) ||| v.setWidth w <<< shift

theorem getLsbD_setBit {b i : ℕ} (v : Bool) (x : BitVec w) (hi : i < w) :
    (setBit b v x).getLsbD i = if i = b then v else x.getLsbD i := by
  have hone : (1#w <<< b).getLsbD i = decide (i = b) := by
    rw [BitVec.getLsbD_shiftLeft, BitVec.getLsbD_one]
    by_cases hlt : i < b
    · have hne : i ≠ b := by omega
      simp [hlt, hne]
    · by_cases heq : i = b
      · subst heq
        simp [hi, Nat.zero_lt_of_lt hi]
      · have hne : i - b ≠ 0 := by omega
        simp [heq, hne]
  cases v
  · rw [setBit, if_neg Bool.false_ne_true, BitVec.getLsbD_and, BitVec.getLsbD_not, hone]
    by_cases h : i = b <;> simp [hi, h]
  · rw [setBit, if_pos rfl, BitVec.getLsbD_or, hone]
    by_cases h : i = b <;> simp [h]

theorem getLsbD_writeBits {shift k i : ℕ} (v : BitVec k) (x : BitVec w) (hi : i < w) :
    (writeBits shift v x).getLsbD i =
      if shift ≤ i ∧ i < shift + k then v.getLsbD (i - shift) else x.getLsbD i := by
  by_cases hge : shift ≤ i
  · by_cases hlt : i < shift + k
    · simp [writeBits, hi, hge, hlt, Nat.not_lt.mpr hge, show i - shift < k by omega]
    · have hout : v.getLsbD (i - shift) = false := BitVec.getLsbD_of_ge _ _ (by omega)
      simp [writeBits, hi, hlt, Nat.not_lt.mpr hge, hout, show ¬i - shift < k by omega]
  · simp [writeBits, hi, hge, Nat.not_le.mp hge]

/-- The run of bits is read back. -/
theorem extractLsb'_writeBits {shift k : ℕ} (v : BitVec k) (x : BitVec w)
    (h : shift + k ≤ w) : (writeBits shift v x).extractLsb' shift k = v := by
  apply BitVec.eq_of_getLsbD_eq
  intro i hi
  rw [BitVec.getLsbD_extractLsb', getLsbD_writeBits _ _ (by omega),
    if_pos ⟨by omega, by omega⟩]
  simp [hi]

/-- Another run of bits is not changed. -/
theorem extractLsb'_writeBits_of_disjoint {shift shift' k k' : ℕ} (v : BitVec k) (x : BitVec w)
    (hw : shift' + k' ≤ w) (h : shift + k ≤ shift' ∨ shift' + k' ≤ shift) :
    (writeBits shift v x).extractLsb' shift' k' = x.extractLsb' shift' k' := by
  apply BitVec.eq_of_getLsbD_eq
  intro i hi
  rw [BitVec.getLsbD_extractLsb', BitVec.getLsbD_extractLsb', getLsbD_writeBits _ _ (by omega),
    if_neg (by omega)]

theorem extractLsb'_setBit {b shift k : ℕ} (v : Bool) (x : BitVec w) (hw : shift + k ≤ w)
    (h : b < shift ∨ shift + k ≤ b) :
    (setBit b v x).extractLsb' shift k = x.extractLsb' shift k := by
  apply BitVec.eq_of_getLsbD_eq
  intro i hi
  rw [BitVec.getLsbD_extractLsb', BitVec.getLsbD_extractLsb', getLsbD_setBit _ _ (by omega),
    if_neg (by omega)]

/-! ## Fields side by side

A word that is packed as `a <<< s ||| b <<< t ||| ..` is read back field by
field: a field has its own value where it lies and is zero elsewhere. -/

theorem extractLsb'_setWidth_shiftLeft {k w s : ℕ} (v : BitVec k) (h : s + k ≤ w) :
    (v.setWidth w <<< s).extractLsb' s k = v := by
  apply BitVec.eq_of_getLsbD_eq
  intro i hi
  have hlt : s + i < w := by omega
  simp [hi, hlt]

theorem extractLsb'_setWidth_shiftLeft_of_disjoint {k w s s' k' : ℕ} (v : BitVec k)
    (h : s + k ≤ s' ∨ s' + k' ≤ s) : (v.setWidth w <<< s).extractLsb' s' k' = 0 := by
  apply BitVec.eq_of_getLsbD_eq
  intro i hi
  rw [BitVec.getLsbD_extractLsb', BitVec.getLsbD_shiftLeft, BitVec.getLsbD_setWidth]
  rcases h with h | h
  · rw [BitVec.getLsbD_of_ge v _ (by omega)]
    simp
  · simp [show s' + i < s by omega]

end Lib
