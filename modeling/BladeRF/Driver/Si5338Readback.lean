/-
# `Driver.Si5338Readback` — programming a multisynth and reading it back

The setter writes ten registers and the exponent of `r`, and the getter computes the rate
from what it reads.  A denominator of 2^30 has a bit that the getter masks out of the last
register; every other `a`, `b`, `c` come back, or `a + 1` and 0 where `b` was `c`.
-/
import BladeRF.Driver.Si5338Rate
import BladeRF.Lib.BitFields
import BladeRF.Lib.Outcome

namespace BladeRF

structure Si5338Bus where
  regs : ℕ → BitVec 8
  accesses : ℕ

/-! ## The driver -/

section

variable (status : ℕ → ℤ)

/-- `si5338_read` of the backend; the `n`-th access has the status `status n`. -/
def si5338Read (addr : ℕ) (s : Si5338Bus) : Except ℤ (BitVec 8 × Si5338Bus) :=
  if status s.accesses < 0 then .error (status s.accesses)
  else .ok (s.regs addr, ⟨s.regs, s.accesses + 1⟩)

/-- `si5338_write` of the backend. -/
def si5338Write (addr : ℕ) (data : BitVec 8) (s : Si5338Bus) : Except ℤ Si5338Bus :=
  if status s.accesses < 0 then .error (status s.accesses)
  else .ok ⟨Function.update s.regs addr data, s.accesses + 1⟩

/-- `si5338_update_base` -/
def si5338Base (index : ℕ) : ℕ := 53 + index * 11

/-- The loop for `r_power`. -/
def rPower (rCount : ℕ) : ℕ := if 0 < rCount then rPower (rCount / 2) + 1 else 0

def si5338WriteMultisynth (ms : Multisynth) (enable : BitVec 8) (s : Si5338Bus) :
    Except ℤ Si5338Bus := do
  let (val, s) ← si5338Read status (36 + ms.index) s
  let s ← si5338Write status (36 + ms.index) (val ||| enable) s
  let regs := si5338PackRegs ms.a ms.b ms.c
  let s ← (List.finRange 10).foldlM (fun s (i : Fin 10) =>
    si5338Write status (si5338Base ms.index + i) (regs i) s) s
  let power := rPower ((ms.r >>> 1).setWidth 8).toNat
  si5338Write status (31 + ms.index) (0xc0 ||| (BitVec.ofNat 8 power <<< 2)) s

def si5338ReadMultisynth (index : ℕ) (s : Si5338Bus) : Except ℤ Multisynth := do
  let (_, s) ← si5338Read status (36 + index) s
  let (regs, s) ← (List.finRange 10).foldlM (fun (regs, s) (i : Fin 10) => do
    let (val, s) ← si5338Read status (si5338Base index + i) s
    pure (Function.update regs i val, s)) ((fun _ => 0 : SynthRegs), s)
  let (val, _) ← si5338Read status (31 + index) s
  let (a, b, c) := si5338UnpackRegs regs
  pure ⟨index, a, b, c, (1 : BitVec 32) <<< ((val >>> 2) &&& 7).toNat⟩

/-- `si5338_set_rational_multisynth`: the rate that is reported, and the registers. -/
def si5338SetRationalMultisynth (index : ℕ) (channel : BitVec 8) (rate : RationalRate)
    (s : Si5338Bus) : Except ℤ (RationalRate × Si5338Bus) := do
  let ms ← si5338CalculateMultisynth index (si5338RationalReduce rate)
  let actual := si5338CalculateMsFreq ms
  let s ← si5338WriteMultisynth status ms channel s
  pure (actual, s)

def indexOf (ch : ℕ) : ℕ := if ch = 0 then 1 else 2

def si5338SetRationalSampleRate (ch : ℕ) (rate : RationalRate) (s : Si5338Bus) :
    Except ℤ (RationalRate × Si5338Bus) :=
  let rate := si5338RationalReduce rate
  if rate.integer < 80000 then .error bladerfErrInval
  else si5338SetRationalMultisynth status (indexOf ch) (if ch = 1 then 0x03 else 0x01) rate s

/-- `si5338_set_rational_smb_freq`, between `BLADERF_SMB_FREQUENCY_MIN` and
`BLADERF_SMB_FREQUENCY_MAX` -/
def si5338SetRationalSmbFreq (rate : RationalRate) (s : Si5338Bus) :
    Except ℤ (RationalRate × Si5338Bus) :=
  let rate := si5338RationalReduce rate
  if rate.integer < 38400000 * 66 / (32 * 567) then .error bladerfErrInval
  else if 200000000 < rate.integer then .error bladerfErrInval
  else si5338SetRationalMultisynth status 3 0x01 rate s

def si5338GetRationalSampleRate (ch : ℕ) (s : Si5338Bus) : Except ℤ RationalRate := do
  let ms ← si5338ReadMultisynth status (indexOf ch) s
  pure (si5338CalculateMsFreq ms)

def si5338GetRationalSmbFreq (s : Si5338Bus) : Except ℤ RationalRate := do
  let ms ← si5338ReadMultisynth status 3 s
  pure (si5338CalculateMsFreq ms)

end

/-! ## What is asked of them -/

/-- What a setter reports is what its getter finds in the registers behind it. -/
def ReadsBack (setter : (ℕ → ℤ) → Si5338Bus → Except ℤ (RationalRate × Si5338Bus))
    (getter : (ℕ → ℤ) → Si5338Bus → Except ℤ RationalRate) : Prop :=
  ∀ status s actual s', setter status s = .ok (actual, s') →
    ∀ status' n, (∀ k, 0 ≤ status' k) → getter status' ⟨s'.regs, n⟩ = .ok actual

def DenominatorFits (index : ℕ) (rate : RationalRate) : Prop :=
  DividerTaken index rate →
    ∀ k, (dividerOf (requestOf index rate).1).den.toNat / 2 ^ k ≠ 2 ^ 30

/-! ## The registers of a multisynth -/

section

variable {a b c : BitVec 32}

/-- `p1` and `p2` for a multisynth. -/
def p1Of (a b c : ℕ) : ℕ := (a * c + b) * 128 / c - 512

def p2Of (b c : ℕ) : ℕ := b * 128 % c

theorem p1Of_bounds {a b c : ℕ} (ha : 4 ≤ a ∧ a ≤ 567) (hbc : b ≤ c) (hpos : 0 < c) :
    p1Of a b c + 512 = (a * c + b) * 128 / c ∧ p1Of a b c < 2 ^ 17 := by
  have hlow : 512 ≤ (a * c + b) * 128 / c := by
    rw [Nat.le_div_iff_mul_le hpos]
    nlinarith
  have hhigh : (a * c + b) * 128 / c ≤ 568 * 128 := by
    apply Nat.div_le_of_le_mul
    nlinarith
  unfold p1Of
  omega

theorem p1_toNat (ha : 4 ≤ a.toNat ∧ a.toNat ≤ 567) (hbc : b.toNat ≤ c.toNat)
    (hpos : 0 < c.toNat) (hc : c.toNat ≤ 2 ^ 30) :
    (((a.setWidth 64 * c.setWidth 64 + b.setWidth 64) * 128 / c.setWidth 64 - 512 :
      BitVec 64).setWidth 32).toNat = p1Of a.toNat b.toNat c.toNat := by
  obtain ⟨hp1, hlt⟩ := p1Of_bounds ha hbc hpos
  have hwide (x : BitVec 32) : (x.setWidth 64).toNat = x.toNat := Lib.toNat_widen x (by decide)
  have hmul : a.toNat * c.toNat ≤ 567 * 2 ^ 30 := Nat.mul_le_mul ha.2 hc
  have hsum : (a.setWidth 64 * c.setWidth 64 + b.setWidth 64).toNat =
      a.toNat * c.toNat + b.toNat := by
    rw [BitVec.toNat_add, BitVec.toNat_mul, hwide, hwide, hwide, Nat.mod_add_mod]
    exact Nat.mod_eq_of_lt (by omega)
  have hscaled : ((a.setWidth 64 * c.setWidth 64 + b.setWidth 64) * 128).toNat =
      (a.toNat * c.toNat + b.toNat) * 128 := by
    have h128 : (128 : BitVec 64).toNat = 128 := rfl
    rw [BitVec.toNat_mul, hsum, h128]
    exact Nat.mod_eq_of_lt (by omega)
  have hquot : ((a.setWidth 64 * c.setWidth 64 + b.setWidth 64) * 128 / c.setWidth 64).toNat =
      p1Of a.toNat b.toNat c.toNat + 512 := by
    rw [BitVec.toNat_udiv, hscaled, hwide, hp1]
  have h512 : (512 : BitVec 64).toNat = 512 := rfl
  rw [BitVec.toNat_setWidth, BitVec.toNat_sub_of_le (BitVec.le_def.mpr (by rw [hquot, h512]; omega)),
    hquot, h512, Nat.add_sub_cancel]
  exact Nat.mod_eq_of_lt (by omega)

theorem p2_toNat (hpos : 0 < c.toNat) (hc : c.toNat ≤ 2 ^ 30) :
    ((b.setWidth 64 * 128 % c.setWidth 64 : BitVec 64).setWidth 32).toNat =
      p2Of b.toNat c.toNat := by
  have hwide (x : BitVec 32) : (x.setWidth 64).toNat = x.toNat := Lib.toNat_widen x (by decide)
  have h128 : (128 : BitVec 64).toNat = 128 := rfl
  have hlt : b.toNat * 128 % c.toNat < c.toNat := Nat.mod_lt _ hpos
  have hscaled : (b.setWidth 64 * 128).toNat = b.toNat * 128 := by
    rw [BitVec.toNat_mul, hwide, h128]
    exact Nat.mod_eq_of_lt (by omega)
  unfold p2Of
  rw [BitVec.toNat_setWidth, BitVec.toNat_umod, hscaled, hwide]
  exact Nat.mod_eq_of_lt (by omega)

theorem sharedByte_toNat (p1 p2 : BitVec 32) :
    ((((p2 &&& 0x3f) <<< 2) ||| ((p1 >>> 16) &&& 0x3)).setWidth 8).toNat =
      p2.toNat % 2 ^ 6 * 4 + p1.toNat / 2 ^ 16 % 2 ^ 2 := by
  have hhigh : (p2 &&& 0x3f).toNat = p2.toNat % 2 ^ 6 := Lib.toNat_and_mask (k := 6) p2 _ rfl
  have hlow : ((p1 >>> 16) &&& 0x3).toNat = p1.toNat / 2 ^ 16 % 2 ^ 2 := by
    rw [Lib.toNat_and_mask (k := 2) _ _ rfl, BitVec.toNat_ushiftRight, Nat.shiftRight_eq_div_pow]
  have hor := Lib.toNat_shift_or (k := 2) (x := p2 &&& 0x3f) (y := (p1 >>> 16) &&& 0x3)
    (by rw [hlow]; exact Nat.mod_lt _ (by decide)) (by rw [hhigh]; omega)
  rw [BitVec.toNat_setWidth, hor, hhigh, hlow]
  exact Nat.mod_eq_of_lt (by omega)

/-- The bytes of `p1`, `p2` and `p3`. -/
def bytesOf (p1 p2 p3 : ℕ) : Fin 10 → ℕ :=
  ![p1 % 256, p1 / 2 ^ 8 % 256, p2 % 2 ^ 6 * 4 + p1 / 2 ^ 16 % 2 ^ 2, p2 / 2 ^ 6 % 256,
    p2 / 2 ^ 14 % 256, p2 / 2 ^ 22 % 256, p3 % 256, p3 / 2 ^ 8 % 256, p3 / 2 ^ 16 % 256,
    p3 / 2 ^ 24 % 256]

theorem packRegs_toNat (ha : 4 ≤ a.toNat ∧ a.toNat ≤ 567) (hbc : b.toNat ≤ c.toNat)
    (hpos : 0 < c.toNat) (hc : c.toNat ≤ 2 ^ 30) (i : Fin 10) :
    (si5338PackRegs a b c i).toNat =
      bytesOf (p1Of a.toNat b.toNat c.toNat) (p2Of b.toNat c.toNat) c.toNat i := by
  have hp1 := p1_toNat ha hbc hpos hc
  have hp2 := p2_toNat (b := b) hpos hc
  unfold si5338PackRegs bytesOf
  dsimp only
  obtain ⟨p1, hword1⟩ : ∃ p1 : BitVec 32, ((a.setWidth 64 * c.setWidth 64 + b.setWidth 64) * 128 /
    c.setWidth 64 - 512 : BitVec 64).setWidth 32 = p1 := ⟨_, rfl⟩
  obtain ⟨p2, hword2⟩ : ∃ p2 : BitVec 32,
    (b.setWidth 64 * 128 % c.setWidth 64 : BitVec 64).setWidth 32 = p2 := ⟨_, rfl⟩
  rw [← hp1, ← hp2, hword1, hword2]
  have hbyte (x : BitVec 32) : (x.setWidth 8).toNat = x.toNat % 256 := BitVec.toNat_setWidth 8 x
  have hfield (x : BitVec 32) (k : ℕ) : ((x >>> k).setWidth 8).toNat = x.toNat / 2 ^ k % 256 :=
    Lib.toNat_field x k 8
  match i with
  | 0 => exact hbyte p1
  | 1 => exact hfield p1 8
  | 2 => exact sharedByte_toNat p1 p2
  | 3 => exact hfield p2 6
  | 4 => exact hfield p2 14
  | 5 => exact hfield p2 22
  | 6 => exact hbyte c
  | 7 => exact hfield c 8
  | 8 => exact hfield c 16
  | 9 => exact hfield c 24

structure Unpacked (regs : Fin 10 → ℕ) (p1 p2 p3 : ℕ) : Prop where
  p1_eq : p1 = regs 2 % 2 ^ 2 * 2 ^ 16 + (regs 1 * 2 ^ 8 + regs 0)
  p2_eq : p2 = regs 5 * 2 ^ 22 + (regs 4 * 2 ^ 14 + (regs 3 * 2 ^ 6 + regs 2 / 2 ^ 2 % 2 ^ 6))
  p3_eq : p3 = regs 9 % 2 ^ 6 * 2 ^ 24 + (regs 8 * 2 ^ 16 + (regs 7 * 2 ^ 8 + regs 6))

theorem unpackRegs_words (regs : SynthRegs) :
    let reg (i : Fin 10) : BitVec 32 := (regs i).setWidth 32
    Unpacked (fun i => (regs i).toNat)
      (((reg 2 &&& 3) <<< 16) ||| (reg 1 <<< 8) ||| reg 0).toNat
      ((reg 5 <<< 22) ||| (reg 4 <<< 14) ||| (reg 3 <<< 6) ||| ((reg 2 >>> 2) &&& 0x3f)).toNat
      (((reg 9 &&& 0x3f) <<< 24) ||| (reg 8 <<< 16) ||| (reg 7 <<< 8) ||| reg 6).toNat := by
  intro reg
  have hreg (i : Fin 10) : (reg i).toNat = (regs i).toNat := Lib.toNat_widen _ (by decide)
  have hlt (i : Fin 10) : (regs i).toNat < 256 := (regs i).isLt
  have hjoin (x y : BitVec 32) (k : ℕ) (hy : y.toNat < 2 ^ k) (hx : x.toNat * 2 ^ k < 2 ^ 32) :
      ((x <<< k) ||| y).toNat = x.toNat * 2 ^ k + y.toNat := Lib.toNat_shift_or hy hx
  have h0 := hlt 0
  have h1 := hlt 1
  have h2 := hlt 2
  have h3 := hlt 3
  have h4 := hlt 4
  have h5 := hlt 5
  have h6 := hlt 6
  have h7 := hlt 7
  have h8 := hlt 8
  constructor
  · have hmask : (reg 2 &&& 3).toNat = (regs 2).toNat % 2 ^ 2 := by
      rw [Lib.toNat_and_mask (k := 2) _ _ rfl, hreg]
    have hlow := hjoin (reg 1) (reg 0) 8 (by rw [hreg]; omega) (by rw [hreg]; omega)
    rw [hreg, hreg] at hlow
    rw [BitVec.or_assoc, hjoin _ _ 16 (by rw [hlow]; omega) (by rw [hmask]; omega), hmask, hlow]
  · have hmask : ((reg 2 >>> 2) &&& 0x3f).toNat = (regs 2).toNat / 2 ^ 2 % 2 ^ 6 := by
      rw [Lib.toNat_and_mask (k := 6) _ _ rfl, BitVec.toNat_ushiftRight, Nat.shiftRight_eq_div_pow,
        hreg]
    have hlow := hjoin (reg 3) ((reg 2 >>> 2) &&& 0x3f) 6 (by rw [hmask]; omega)
      (by rw [hreg]; omega)
    rw [hreg, hmask] at hlow
    have hmid := hjoin (reg 4) ((reg 3 <<< 6) ||| ((reg 2 >>> 2) &&& 0x3f)) 14
      (by rw [hlow]; omega) (by rw [hreg]; omega)
    rw [hreg, hlow] at hmid
    rw [BitVec.or_assoc, BitVec.or_assoc, hjoin _ _ 22 (by rw [hmid]; omega)
      (by rw [hreg]; omega), hreg, hmid]
  · have hmask : (reg 9 &&& 0x3f).toNat = (regs 9).toNat % 2 ^ 6 := by
      rw [Lib.toNat_and_mask (k := 6) _ _ rfl, hreg]
    have hlow := hjoin (reg 7) (reg 6) 8 (by rw [hreg]; omega) (by rw [hreg]; omega)
    rw [hreg, hreg] at hlow
    have hmid := hjoin (reg 8) ((reg 7 <<< 8) ||| reg 6) 16 (by rw [hlow]; omega)
      (by rw [hreg]; omega)
    rw [hreg, hlow] at hmid
    rw [BitVec.or_assoc, BitVec.or_assoc, hjoin _ _ 24 (by rw [hmid]; omega)
      (by rw [hmask]; omega), hmask, hmid]

theorem unpack_toNat {p1 p2 p3 : BitVec 32} (h1 : p1.toNat < 2 ^ 18) (h2 : p2.toNat < 2 ^ 30)
    (h3 : p3.toNat < 2 ^ 30) :
    ((p1 + 512) / 128).toNat = (p1.toNat + 512) / 128 ∧
      (((((p1 + 512).setWidth 64 - 128 * ((p1 + 512) / 128).setWidth 64) * p3.setWidth 64 +
        p2.setWidth 64 + 64) / 128 : BitVec 64).setWidth 32).toNat =
        ((p1.toNat + 512) % 128 * p3.toNat + p2.toNat + 64) / 128 := by
  have hwide (x : BitVec 32) : (x.setWidth 64).toNat = x.toNat := Lib.toNat_widen x (by decide)
  have h512 : (512 : BitVec 32).toNat = 512 := rfl
  have h128 : (128 : BitVec 32).toNat = 128 := rfl
  have h128' : (128 : BitVec 64).toNat = 128 := rfl
  have h64 : (64 : BitVec 64).toNat = 64 := rfl
  have hsum : (p1 + 512).toNat = p1.toNat + 512 := by
    rw [BitVec.toNat_add, h512]
    exact Nat.mod_eq_of_lt (by omega)
  have ha : ((p1 + 512) / 128).toNat = (p1.toNat + 512) / 128 := by
    rw [BitVec.toNat_udiv, hsum, h128]
  have hmul : (128 * ((p1 + 512) / 128).setWidth 64 : BitVec 64).toNat =
      128 * ((p1.toNat + 512) / 128) := by
    rw [BitVec.toNat_mul, hwide, ha, h128']
    exact Nat.mod_eq_of_lt (by omega)
  have hrem : ((p1 + 512).setWidth 64 - 128 * ((p1 + 512) / 128).setWidth 64 : BitVec 64).toNat =
      (p1.toNat + 512) % 128 := by
    rw [BitVec.toNat_sub_of_le (BitVec.le_def.mpr (by rw [hmul, hwide, hsum]; omega)), hmul, hwide,
      hsum]
    omega
  have hle : (p1.toNat + 512) % 128 * p3.toNat ≤ 127 * 2 ^ 30 :=
    Nat.mul_le_mul (by omega) h3.le
  refine ⟨ha, ?_⟩
  have htemp : (((p1 + 512).setWidth 64 - 128 * ((p1 + 512) / 128).setWidth 64) * p3.setWidth 64 +
      p2.setWidth 64 + 64 : BitVec 64).toNat =
        (p1.toNat + 512) % 128 * p3.toNat + p2.toNat + 64 := by
    rw [BitVec.toNat_add, BitVec.toNat_add, BitVec.toNat_mul, hrem, hwide, hwide, h64,
      Nat.mod_add_mod, Nat.mod_eq_of_lt (show _ * p3.toNat < 2 ^ 64 by omega)]
    exact Nat.mod_eq_of_lt (by omega)
  rw [BitVec.toNat_setWidth, BitVec.toNat_udiv, htemp, h128']
  exact Nat.mod_eq_of_lt (by omega)

theorem unpackRegs_toNat (regs : SynthRegs) : ∃ p1 p2 p3,
    Unpacked (fun i => (regs i).toNat) p1 p2 p3 ∧
      (si5338UnpackRegs regs).1.toNat = (p1 + 512) / 128 ∧
      (si5338UnpackRegs regs).2.1.toNat = ((p1 + 512) % 128 * p3 + p2 + 64) / 128 ∧
      (si5338UnpackRegs regs).2.2.toNat = p3 := by
  have hlt (i : Fin 10) : (regs i).toNat < 256 := (regs i).isLt
  have hwords := unpackRegs_words regs
  dsimp only at hwords
  obtain ⟨hp1, hp2, hp3⟩ := hwords
  have h0 := hlt 0
  have h1 := hlt 1
  have h3 := hlt 3
  have h4 := hlt 4
  have h5 := hlt 5
  have h6 := hlt 6
  have h7 := hlt 7
  have h8 := hlt 8
  obtain ⟨ha, hb⟩ := unpack_toNat (by rw [hp1]; omega) (by rw [hp2]; omega) (by rw [hp3]; omega)
  exact ⟨_, _, _, ⟨hp1, hp2, hp3⟩, ha, hb, rfl⟩

theorem unpacked_bytesOf {p1 p2 p3 q1 q2 q3 : ℕ} (h1 : p1 < 2 ^ 18) (h2 : p2 < 2 ^ 30)
    (h : Unpacked (bytesOf p1 p2 p3) q1 q2 q3) :
    q1 = p1 ∧ q2 = p2 ∧ q3 = p3 % 2 ^ 30 := by
  obtain ⟨hq1, hq2, hq3⟩ := h
  have b0 : bytesOf p1 p2 p3 0 = p1 % 256 := rfl
  have b1 : bytesOf p1 p2 p3 1 = p1 / 2 ^ 8 % 256 := rfl
  have b2 : bytesOf p1 p2 p3 2 = p2 % 2 ^ 6 * 4 + p1 / 2 ^ 16 % 2 ^ 2 := rfl
  have b3 : bytesOf p1 p2 p3 3 = p2 / 2 ^ 6 % 256 := rfl
  have b4 : bytesOf p1 p2 p3 4 = p2 / 2 ^ 14 % 256 := rfl
  have b5 : bytesOf p1 p2 p3 5 = p2 / 2 ^ 22 % 256 := rfl
  have b6 : bytesOf p1 p2 p3 6 = p3 % 256 := rfl
  have b7 : bytesOf p1 p2 p3 7 = p3 / 2 ^ 8 % 256 := rfl
  have b8 : bytesOf p1 p2 p3 8 = p3 / 2 ^ 16 % 256 := rfl
  have b9 : bytesOf p1 p2 p3 9 = p3 / 2 ^ 24 % 256 := rfl
  rw [b0, b1, b2] at hq1
  rw [b2, b3, b4, b5] at hq2
  rw [b6, b7, b8, b9] at hq3
  omega

theorem unpack_pack (ha : 4 ≤ a.toNat ∧ a.toNat ≤ 567) (hbc : b.toNat ≤ c.toNat)
    (hpos : 0 < c.toNat) (hc : c.toNat ≤ 2 ^ 30) :
    (c.toNat = 2 ^ 30 → (si5338UnpackRegs (si5338PackRegs a b c)).2.2 = 0) ∧
      (c.toNat ≠ 2 ^ 30 → b.toNat < c.toNat → si5338UnpackRegs (si5338PackRegs a b c) = (a, b, c)) ∧
      (c.toNat ≠ 2 ^ 30 → b = c → si5338UnpackRegs (si5338PackRegs a b c) = (a + 1, 0, c)) := by
  obtain ⟨q1, q2, q3, hunpacked, ha', hb', hc'⟩ := unpackRegs_toNat (si5338PackRegs a b c)
  obtain ⟨hp1, hlt⟩ := p1Of_bounds ha hbc hpos
  have hp2 : p2Of b.toNat c.toNat < c.toNat := Nat.mod_lt _ hpos
  have hbytes : (fun i => (si5338PackRegs a b c i).toNat) =
      bytesOf (p1Of a.toNat b.toNat c.toNat) (p2Of b.toNat c.toNat) c.toNat :=
    funext (packRegs_toNat ha hbc hpos hc)
  rw [hbytes] at hunpacked
  obtain ⟨hq1, hq2, hq3⟩ := unpacked_bytesOf (by omega) (by omega) hunpacked
  rw [hq1, hp1] at ha'
  rw [hq1, hq2, hq3, hp1] at hb'
  rw [hq3] at hc'
  refine ⟨fun he => ?_, fun hne hless => ?_, fun hne he => ?_⟩
  · apply BitVec.eq_of_toNat_eq
    have hmod : c.toNat % 2 ^ 30 = 0 := by omega
    rw [hc', hmod]
    rfl
  · have hsmall : c.toNat < 2 ^ 30 := by omega
    obtain ⟨x, hx⟩ : ∃ x, b.toNat * 128 / c.toNat = x := ⟨_, rfl⟩
    have hquot : (a.toNat * c.toNat + b.toNat) * 128 / c.toNat = 128 * a.toNat + x := by
      have hsum : (a.toNat * c.toNat + b.toNat) * 128 =
          c.toNat * (128 * a.toNat) + b.toNat * 128 := by ring
      rw [hsum, Nat.mul_add_div hpos, hx]
    have hpart : x < 128 := by
      rw [← hx, Nat.div_lt_iff_lt_mul hpos]
      omega
    have hwhole : x * c.toNat + p2Of b.toNat c.toNat = b.toNat * 128 := by
      rw [← hx]
      exact Nat.div_add_mod' _ _
    have hrem : (128 * a.toNat + x) % 128 = x := by omega
    rw [hquot] at ha' hb'
    rw [Nat.mod_eq_of_lt hsmall, hrem, hwhole] at hb'
    rw [Nat.mod_eq_of_lt hsmall] at hc'
    refine Prod.ext (BitVec.eq_of_toNat_eq ?_) (Prod.ext (BitVec.eq_of_toNat_eq ?_)
      (BitVec.eq_of_toNat_eq ?_))
    · rw [ha']
      dsimp only
      omega
    · rw [hb']
      dsimp only
      omega
    · exact hc'
  · have hsmall : c.toNat < 2 ^ 30 := by omega
    subst he
    have hquot : (a.toNat * b.toNat + b.toNat) * 128 / b.toNat = 128 * (a.toNat + 1) := by
      have hfactor : (a.toNat * b.toNat + b.toNat) * 128 = 128 * (a.toNat + 1) * b.toNat := by ring
      rw [hfactor, Nat.mul_div_cancel _ hpos]
    have hzero : p2Of b.toNat b.toNat = 0 := Nat.mul_mod_right _ _
    rw [hquot] at ha' hb'
    rw [Nat.mul_mod_right, hzero, Nat.zero_mul] at hb'
    rw [Nat.mod_eq_of_lt hsmall] at hc'
    refine Prod.ext (BitVec.eq_of_toNat_eq ?_) (Prod.ext (BitVec.eq_of_toNat_eq ?_)
      (BitVec.eq_of_toNat_eq ?_))
    · have hone : (1 : BitVec 32).toNat = 1 := rfl
      rw [ha', Nat.mul_div_cancel_left _ (by decide), BitVec.toNat_add, hone,
        Nat.mod_eq_of_lt (by omega)]
    · rw [hb']
      rfl
    · exact hc'

/-! ## The rate from what comes back -/

def Multisynth.readback (ms : Multisynth) : Multisynth :=
  let u := si5338UnpackRegs (si5338PackRegs ms.a ms.b ms.c)
  ⟨ms.index, u.1, u.2.1, u.2.2, ms.r⟩

theorem msFreq_integer (ms : Multisynth) :
    (si5338CalculateMsFreq ms).integer.toNat =
      si5338FVco.toNat * ms.c.toNat % 2 ^ 64 /
        (ms.r.toNat * (ms.a.toNat * ms.c.toNat + ms.b.toNat) * clockFactor ms.index % 2 ^ 64) := by
  have hwide (x : BitVec 32) : (x.setWidth 64).toNat = x.toNat := Lib.toNat_widen x (by decide)
  have hnum : (si5338FVco * ms.c.setWidth 64).toNat = si5338FVco.toNat * ms.c.toNat % 2 ^ 64 := by
    rw [BitVec.toNat_mul, hwide]
  have hout : (ms.r.setWidth 64 * (ms.a.setWidth 64 * ms.c.setWidth 64 + ms.b.setWidth 64)).toNat =
      ms.r.toNat * (ms.a.toNat * ms.c.toNat + ms.b.toNat) % 2 ^ 64 := by
    rw [BitVec.toNat_mul, BitVec.toNat_add, BitVec.toNat_mul, hwide, hwide, hwide, hwide,
      Nat.mod_add_mod, Nat.mul_mod_mod]
  obtain ⟨out, houtdef⟩ : ∃ out : BitVec 64, (if isSampleClock ms.index then
      ms.r.setWidth 64 * (ms.a.setWidth 64 * ms.c.setWidth 64 + ms.b.setWidth 64) * 2
      else ms.r.setWidth 64 * (ms.a.setWidth 64 * ms.c.setWidth 64 + ms.b.setWidth 64)) = out :=
    ⟨_, rfl⟩
  have hden : out.toNat =
      ms.r.toNat * (ms.a.toNat * ms.c.toNat + ms.b.toNat) * clockFactor ms.index % 2 ^ 64 := by
    have htwo : (2 : BitVec 64).toNat = 2 := rfl
    rw [← houtdef]
    unfold clockFactor
    split
    · rw [BitVec.toNat_mul, hout, htwo, Nat.mod_mul_mod]
    · rw [hout, Nat.mul_one]
  obtain ⟨hinteger, -, -⟩ := reduce_toNat ⟨0, si5338FVco * ms.c.setWidth 64, out⟩
  have hzero : (0 : BitVec 64).toNat = 0 := rfl
  dsimp only at hinteger
  rw [hnum, hden, hzero, Nat.zero_add, Nat.mod_eq_of_lt
    (lt_of_le_of_lt (Nat.div_le_self _ _) (Nat.mod_lt _ (by decide)))] at hinteger
  unfold si5338CalculateMsFreq
  dsimp only
  rw [houtdef]
  exact hinteger

theorem msFreq_carry (index : ℕ) (ha : a.toNat ≤ 567) (r : BitVec 32) :
    si5338CalculateMsFreq ⟨index, a + 1, 0, c, r⟩ = si5338CalculateMsFreq ⟨index, a, c, c, r⟩ := by
  have hwide (x : BitVec 32) : (x.setWidth 64).toNat = x.toNat := Lib.toNat_widen x (by decide)
  have hsum : ((a + 1).setWidth 64 * c.setWidth 64 + (0 : BitVec 32).setWidth 64 : BitVec 64) =
      a.setWidth 64 * c.setWidth 64 + c.setWidth 64 := by
    have hone : (1 : BitVec 32).toNat = 1 := rfl
    have hzero : (0 : BitVec 32).toNat = 0 := rfl
    have hnext : (a + 1).toNat = a.toNat + 1 := by
      rw [BitVec.toNat_add, hone]
      exact Nat.mod_eq_of_lt (by omega)
    apply BitVec.eq_of_toNat_eq
    rw [BitVec.toNat_add, BitVec.toNat_add, BitVec.toNat_mul, BitVec.toNat_mul, hwide, hwide, hwide,
      hwide, hnext, hzero, Nat.mod_add_mod, Nat.mod_add_mod, Nat.add_zero, Nat.succ_mul]
  unfold si5338CalculateMsFreq
  dsimp only
  rw [hsum]

theorem SynthFor.bounds {index : ℕ} {rate : RationalRate} {ms : Multisynth}
    (hfor : SynthFor index rate ms) (htaken : DividerTaken index rate) :
    (4 ≤ ms.a.toNat ∧ ms.a.toNat ≤ 567) ∧ ms.b.toNat ≤ ms.c.toNat ∧ 0 < ms.c.toNat ∧
      ms.c.toNat ≤ 2 ^ 30 := by
  obtain ⟨hproper, -⟩ := divider_proper htaken.2
  obtain ⟨k, -, hc, hbc, hle, hcut⟩ := hfor.cut
  refine ⟨?_, hbc, ?_, hle⟩
  · rw [hfor.a_eq]
    exact divides_le htaken.2
  · rw [hc]
    cases k with
    | zero =>
        rw [pow_zero, Nat.div_one]
        omega
    | succ k =>
        have hlarge := hcut (Nat.succ_pos k)
        rw [Nat.add_sub_cancel] at hlarge
        rw [pow_succ, ← Nat.div_div_eq_div_mul]
        omega

theorem SynthFor.edge_iff {index : ℕ} {rate : RationalRate} {ms : Multisynth}
    (hfor : SynthFor index rate ms) :
    ms.c.toNat = 2 ^ 30 ↔
      ∃ k, (dividerOf (requestOf index rate).1).den.toNat / 2 ^ k = 2 ^ 30 := by
  obtain ⟨k, -, hc, -, hle, hcut⟩ := hfor.cut
  constructor
  · intro he
    exact ⟨k, hc ▸ he⟩
  · rintro ⟨k', hk'⟩
    obtain ⟨d, hd⟩ : ∃ d, (dividerOf (requestOf index rate).1).den.toNat = d := ⟨_, rfl⟩
    rw [hd] at hc hcut hk'
    have hshift (i j : ℕ) : d / 2 ^ (i + j) = d / 2 ^ i / 2 ^ j := by
      rw [pow_add, Nat.div_div_eq_div_mul]
    rcases Nat.lt_trichotomy k k' with hlt | rfl | hlt
    · obtain ⟨j, rfl⟩ := Nat.exists_eq_add_of_lt hlt
      have hstep : d / 2 ^ k / 2 ^ (j + 1) = 2 ^ 30 := by
        rw [← hshift, ← hk']
        rfl
      have hhalf : d / 2 ^ k / 2 ^ (j + 1) ≤ d / 2 ^ k / 2 := by
        apply Nat.div_le_div_left _ (by decide)
        exact Nat.le_self_pow (by omega) 2
      omega
    · rw [hc, hk']
    · have hbig := hcut (by omega)
      obtain ⟨j, hj⟩ := Nat.exists_eq_add_of_le (show k' ≤ k - 1 by omega)
      rw [hj, hshift, hk'] at hbig
      exact absurd hbig (Nat.not_lt.mpr (Nat.div_le_self _ _))

theorem msFreq_readback {index : ℕ} {rate : RationalRate} {ms : Multisynth}
    (hfor : SynthFor index rate ms) (htaken : DividerTaken index rate) :
    si5338CalculateMsFreq ms.readback = si5338CalculateMsFreq ms ↔ ms.c.toNat ≠ 2 ^ 30 := by
  obtain ⟨ha, hbc, hpos, hle⟩ := hfor.bounds htaken
  obtain ⟨hedge, hless, heq⟩ := unpack_pack ha hbc hpos hle
  unfold Multisynth.readback
  dsimp only
  constructor
  · intro hsame he
    have hback := congrArg (fun r => r.integer.toNat) hsame
    rw [msFreq_integer, msFreq_integer, hedge he, he] at hback
    -- the getter divides nothing, and the setter more than it divides by
    obtain ⟨e, hr, he5⟩ := requestOf_power index rate
    have hrle : ms.r.toNat ≤ 32 := by
      rw [hfor.r_eq, hr]
      exact Nat.pow_le_pow_right (by decide) he5
    have hrpos : 0 < ms.r.toNat := by
      rw [hfor.r_eq, hr]
      exact Nat.two_pow_pos e
    have hfactor : 0 < clockFactor ms.index ∧ clockFactor ms.index ≤ 2 := by
      unfold clockFactor
      split
      · exact ⟨Nat.two_pos, Nat.le_refl _⟩
      · exact ⟨Nat.one_pos, by omega⟩
    obtain ⟨m, hm⟩ : ∃ m, ms.a.toNat * 2 ^ 30 + ms.b.toNat = m := ⟨_, rfl⟩
    have hmpos : 0 < m := by omega
    have hmle : m ≤ 568 * 2 ^ 30 := by omega
    have hden : ms.r.toNat * m * clockFactor ms.index ≤ 32 * (568 * 2 ^ 30) * 2 :=
      Nat.mul_le_mul (Nat.mul_le_mul hrle hmle) hfactor.2
    have hdenpos : 0 < ms.r.toNat * m * clockFactor ms.index :=
      Nat.mul_pos (Nat.mul_pos hrpos hmpos) hfactor.1
    have hfvco : si5338FVco.toNat = 2534400000 := rfl
    have hzero : (0 : BitVec 32).toNat = 0 := rfl
    rw [hm, hfvco, hzero, Nat.mul_zero, Nat.zero_mod, Nat.zero_div,
      Nat.mod_eq_of_lt (show ms.r.toNat * m * clockFactor ms.index < 2 ^ 64 by omega)] at hback
    have hone := Nat.div_pos (show ms.r.toNat * m * clockFactor ms.index ≤
      2534400000 * 2 ^ 30 % 2 ^ 64 by omega) hdenpos
    omega
  · intro hne
    rcases Nat.lt_or_ge ms.b.toNat ms.c.toNat with hlt | hge
    · rw [hless hne hlt]
    · have hsame : ms.b = ms.c := BitVec.eq_of_toNat_eq (Nat.le_antisymm hbc hge)
      rw [heq hne hsame, msFreq_carry ms.index ha.2]
      obtain ⟨index', a', b', c', r'⟩ := ms
      dsimp only at hsame ⊢
      rw [hsame]

end

/-! ## Over the bus -/

section

variable {status : ℕ → ℤ} {s s' : Si5338Bus} {addr index base : ℕ} {data : BitVec 8}
  {regs : SynthRegs} {ms : Multisynth} {rate : RationalRate} {channel : BitVec 8}

theorem si5338Write_eq_ok : si5338Write status addr data s = .ok s' ↔
    0 ≤ status s.accesses ∧ s' = ⟨Function.update s.regs addr data, s.accesses + 1⟩ := by
  unfold si5338Write
  split
  · rename_i h
    exact ⟨fun he => (by cases he), fun hok => absurd hok.1 (not_le.mpr h)⟩
  · rename_i h
    constructor
    · intro he
      cases he
      exact ⟨not_lt.mp h, rfl⟩
    · rintro ⟨-, rfl⟩
      rfl

theorem si5338Read_eq_ok {val : BitVec 8} : si5338Read status addr s = .ok (val, s') ↔
    0 ≤ status s.accesses ∧ val = s.regs addr ∧ s' = ⟨s.regs, s.accesses + 1⟩ := by
  unfold si5338Read
  split
  · rename_i h
    exact ⟨fun he => (by cases he), fun hok => absurd hok.1 (not_le.mpr h)⟩
  · rename_i h
    constructor
    · intro he
      cases he
      exact ⟨not_lt.mp h, rfl, rfl⟩
    · rintro ⟨-, rfl, rfl⟩
      rfl

theorem writeRegs_regs {l : List (Fin 10)} (hl : l.Nodup)
    (h : l.foldlM (fun s (i : Fin 10) => si5338Write status (base + i) (regs i) s) s = .ok s') :
    (∀ i ∈ l, s'.regs (base + i) = regs i) ∧
      ∀ addr, (∀ i ∈ l, addr ≠ base + i) → s'.regs addr = s.regs addr := by
  induction l generalizing s with
  | nil =>
      cases h
      exact ⟨fun i hi => absurd hi List.not_mem_nil, fun _ _ => rfl⟩
  | cons j l ih =>
      rw [List.foldlM_cons] at h
      obtain ⟨s₁, hwrite, hrest⟩ := Lib.bind_eq_ok.mp h
      obtain ⟨-, rfl⟩ := si5338Write_eq_ok.mp hwrite
      rw [List.nodup_cons] at hl
      obtain ⟨hin, hout⟩ := ih hl.2 hrest
      constructor
      · intro i hi
        rcases List.mem_cons.mp hi with rfl | hi
        · rw [hout _ fun k hk he => hl.1 (by
            have hik : i = k := Fin.ext (by omega)
            rw [hik]
            exact hk)]
          exact Function.update_self _ _ _
        · exact hin i hi
      · intro addr haddr
        rw [hout addr fun k hk => haddr k (List.mem_cons_of_mem _ hk)]
        exact Function.update_of_ne (haddr j List.mem_cons_self) _ _

theorem writeRegs_ok (hstatus : ∀ k, 0 ≤ status k) (l : List (Fin 10)) (s : Si5338Bus) :
    ∃ s', l.foldlM (fun s (i : Fin 10) => si5338Write status (base + i) (regs i) s) s = .ok s' := by
  induction l generalizing s with
  | nil => exact ⟨s, rfl⟩
  | cons j l ih =>
      obtain ⟨s', hrest⟩ := ih ⟨Function.update s.regs (base + j) (regs j), s.accesses + 1⟩
      refine ⟨s', ?_⟩
      rw [List.foldlM_cons, si5338Write_eq_ok.mpr ⟨hstatus _, rfl⟩]
      exact hrest

theorem readRegs_eq (hstatus : ∀ k, 0 ≤ status k) (l : List (Fin 10)) (acc : SynthRegs) :
    ∃ n, l.foldlM (fun (p : SynthRegs × Si5338Bus) (i : Fin 10) => do
        let (val, s) ← si5338Read status (base + i) p.2
        pure (Function.update p.1 i val, s)) (acc, s) =
      .ok (fun i => if i ∈ l then s.regs (base + i) else acc i, ⟨s.regs, n⟩) := by
  induction l generalizing acc s with
  | nil => exact ⟨s.accesses, rfl⟩
  | cons j l ih =>
      obtain ⟨n, hrest⟩ := @ih ⟨s.regs, s.accesses + 1⟩ (Function.update acc j (s.regs (base + j)))
      refine ⟨n, ?_⟩
      rw [List.foldlM_cons, si5338Read_eq_ok.mpr ⟨hstatus _, rfl, rfl⟩]
      refine Eq.trans hrest (congrArg (fun f => Except.ok (f, _)) (funext fun i => ?_))
      by_cases hi : i ∈ l
      · rw [if_pos hi, if_pos (List.mem_cons_of_mem _ hi)]
      · rw [if_neg hi]
        by_cases hij : i = j
        · rw [hij, Function.update_self, if_pos List.mem_cons_self]
        · rw [Function.update_of_ne hij, if_neg fun hmem => hi ((List.mem_cons.mp hmem).resolve_left hij)]

theorem writeMultisynth_regs (hindex : index ≤ 3) (hms : ms.index = index)
    (h : si5338WriteMultisynth status ms channel s = .ok s') :
    (∀ i : Fin 10, s'.regs (si5338Base index + i) = si5338PackRegs ms.a ms.b ms.c i) ∧
      s'.regs (31 + index) =
        0xc0 ||| (BitVec.ofNat 8 (rPower ((ms.r >>> 1).setWidth 8).toNat) <<< 2) := by
  unfold si5338WriteMultisynth at h
  rw [hms] at h
  obtain ⟨⟨val, s₁⟩, -, h⟩ := Lib.bind_eq_ok.mp h
  obtain ⟨s₂, -, h⟩ := Lib.bind_eq_ok.mp h
  obtain ⟨s₃, hloop, h⟩ := Lib.bind_eq_ok.mp h
  obtain ⟨-, rfl⟩ := si5338Write_eq_ok.mp h
  have hregs := (writeRegs_regs (List.nodup_finRange 10) hloop).1
  constructor
  · intro i
    dsimp only
    rw [Function.update_of_ne (by unfold si5338Base; omega)]
    exact hregs i (List.mem_finRange i)
  · exact Function.update_self _ _ _

theorem writeMultisynth_ok (hstatus : ∀ k, 0 ≤ status k) (ms : Multisynth) (channel : BitVec 8)
    (s : Si5338Bus) : ∃ s', si5338WriteMultisynth status ms channel s = .ok s' := by
  unfold si5338WriteMultisynth
  rw [si5338Read_eq_ok.mpr ⟨hstatus _, rfl, rfl⟩, Lib.ok_bind]
  dsimp only
  rw [si5338Write_eq_ok.mpr ⟨hstatus _, rfl⟩, Lib.ok_bind]
  obtain ⟨s₃, hloop⟩ := @writeRegs_ok status (si5338Base ms.index) (si5338PackRegs ms.a ms.b ms.c)
    hstatus (List.finRange 10) _
  rw [hloop, Lib.ok_bind]
  exact ⟨_, si5338Write_eq_ok.mpr ⟨hstatus _, rfl⟩⟩

theorem readMultisynth_eq (hstatus : ∀ k, 0 ≤ status k) (index : ℕ) (s : Si5338Bus) :
    si5338ReadMultisynth status index s =
      let u := si5338UnpackRegs fun i => s.regs (si5338Base index + i)
      .ok ⟨index, u.1, u.2.1, u.2.2, (1 : BitVec 32) <<< ((s.regs (31 + index) >>> 2) &&& 7).toNat⟩ := by
  unfold si5338ReadMultisynth
  rw [si5338Read_eq_ok.mpr ⟨hstatus _, rfl, rfl⟩, Lib.ok_bind]
  dsimp only
  obtain ⟨n, hloop⟩ := @readRegs_eq status ⟨s.regs, s.accesses + 1⟩ (si5338Base index) hstatus
    (List.finRange 10) fun _ => 0
  simp only [List.mem_finRange, if_true] at hloop
  rw [hloop, Lib.ok_bind]
  dsimp only
  rw [si5338Read_eq_ok.mpr ⟨hstatus _, rfl, rfl⟩, Lib.ok_bind]
  rfl

theorem rPower_two_pow (e : ℕ) : rPower (2 ^ e) = e + 1 := by
  induction e with
  | zero =>
      rw [rPower, if_pos (by decide), rPower, if_neg (by decide)]
  | succ e ih =>
      rw [rPower, if_pos (Nat.two_pow_pos _), pow_succ, Nat.mul_div_cancel _ (by decide), ih]

theorem rRegister : ∀ e < 6,
    (((0xc0 ||| (BitVec.ofNat 8 e <<< 2)) >>> 2) &&& 7 : BitVec 8).toNat = e := by
  decide

theorem readback_r (hfor : SynthFor index rate ms) (val : BitVec 8)
    (hval : val = 0xc0 ||| (BitVec.ofNat 8 (rPower ((ms.r >>> 1).setWidth 8).toNat) <<< 2)) :
    (1 : BitVec 32) <<< ((val >>> 2) &&& 7).toNat = ms.r := by
  obtain ⟨e, hr, he⟩ := requestOf_power index rate
  rw [← hfor.r_eq] at hr
  have hpow : 2 ^ e ≤ 2 ^ 5 := Nat.pow_le_pow_right (by decide) he
  have hpower : rPower ((ms.r >>> 1).setWidth 8).toNat = e := by
    rw [Lib.toNat_field, hr, Nat.mod_eq_of_lt (by omega)]
    cases e with
    | zero => rw [rPower, if_neg (by decide)]
    | succ e => rw [pow_one, pow_succ, Nat.mul_div_cancel _ (by decide), rPower_two_pow]
  rw [hval, hpower, rRegister e (by omega)]
  apply BitVec.eq_of_toNat_eq
  have hone : (1 : BitVec 32).toNat = 1 := rfl
  rw [BitVec.toNat_shiftLeft, hone, Nat.shiftLeft_eq, Nat.one_mul, hr]
  exact Nat.mod_eq_of_lt (by omega)

theorem read_of_write {status' : ℕ → ℤ} (hindex : index ≤ 3)
    (hfor : SynthFor index rate ms) (h : si5338WriteMultisynth status ms channel s = .ok s')
    (hstatus : ∀ k, 0 ≤ status' k) (n : ℕ) :
    si5338ReadMultisynth status' index ⟨s'.regs, n⟩ = .ok ms.readback := by
  obtain ⟨hregs, hr⟩ := writeMultisynth_regs hindex hfor.index_eq h
  have hpack : (fun i : Fin 10 => s'.regs (si5338Base index + i)) =
      si5338PackRegs ms.a ms.b ms.c := funext hregs
  rw [readMultisynth_eq hstatus]
  dsimp only
  rw [hpack, readback_r hfor _ hr]
  unfold Multisynth.readback
  rw [hfor.index_eq]

theorem multisynth_iff (hindex : index ≤ 3) (channel : BitVec 8) (rate : RationalRate) :
    ReadsBack (fun status => si5338SetRationalMultisynth status index channel rate)
      (fun status s => do
        let ms ← si5338ReadMultisynth status index s
        pure (si5338CalculateMsFreq ms)) ↔
      DenominatorFits index (si5338RationalReduce rate) := by
  have hback {ms : Multisynth} (hfor : SynthFor index (si5338RationalReduce rate) ms)
      (htaken : DividerTaken index (si5338RationalReduce rate)) :
      si5338CalculateMsFreq ms.readback = si5338CalculateMsFreq ms ↔
        ∀ k, (dividerOf (requestOf index (si5338RationalReduce rate)).1).den.toNat / 2 ^ k ≠
          2 ^ 30 := by
    rw [msFreq_readback hfor htaken, Ne, hfor.edge_iff, not_exists]
  constructor
  · intro hreads htaken
    obtain ⟨ms, hms, hfor⟩ := calculate_taken htaken
    obtain ⟨s', hwrite⟩ := @writeMultisynth_ok (fun _ => 0) (fun _ => le_refl 0) ms channel
      ⟨fun _ => 0, 0⟩
    have hset : si5338SetRationalMultisynth (fun _ => 0) index channel rate ⟨fun _ => 0, 0⟩ =
        .ok (si5338CalculateMsFreq ms, s') := by
      unfold si5338SetRationalMultisynth
      rw [hms, Lib.ok_bind, hwrite]
      rfl
    have hget := hreads _ _ _ _ hset (fun _ => 0) 0 fun _ => le_refl 0
    dsimp only at hget
    rw [read_of_write hindex hfor hwrite (fun _ => le_refl 0)] at hget
    exact (hback hfor htaken).mp (Except.ok.inj hget)
  · intro hfits status s actual s' hset status' n hstatus
    obtain ⟨ms, hms, hset⟩ := Lib.bind_eq_ok.mp hset
    obtain ⟨s₁, hwrite, hset⟩ := Lib.bind_eq_ok.mp hset
    cases hset
    obtain ⟨htaken, hfor⟩ := taken_of_calculate hms
    dsimp only
    rw [read_of_write hindex hfor hwrite hstatus]
    exact congrArg Except.ok ((hback hfor htaken).mpr (hfits htaken))

end

theorem indexOf_le (ch : ℕ) : indexOf ch ≤ 3 := by
  unfold indexOf
  split
  · decide
  · decide

theorem readsBack_guard {c : Prop} [Decidable c] {err : ℤ}
    {setter : (ℕ → ℤ) → Si5338Bus → Except ℤ (RationalRate × Si5338Bus)}
    {getter : (ℕ → ℤ) → Si5338Bus → Except ℤ RationalRate} :
    ReadsBack (fun status s => if c then .error err else setter status s) getter ↔
      (¬c → ReadsBack setter getter) := by
  by_cases hc : c
  · constructor
    · exact fun _ h => absurd hc h
    · intro _ status s actual s' hset
      dsimp only at hset
      rw [if_pos hc] at hset
      cases hset
  · constructor
    · intro hreads _ status s actual s' hset
      exact hreads status s actual s' (by dsimp only; rw [if_neg hc]; exact hset)
    · intro hreads status s actual s' hset
      dsimp only at hset
      rw [if_neg hc] at hset
      exact hreads hc status s actual s' hset

/-- What a setter reports is read back if and only if the denominator fits. -/
theorem si5338_readback_iff (ch : ℕ) (rate : RationalRate) :
    (ReadsBack (fun status => si5338SetRationalSampleRate status ch rate)
        (fun status => si5338GetRationalSampleRate status ch) ↔
      (¬(si5338RationalReduce rate).integer < 80000 →
        DenominatorFits (indexOf ch) (si5338RationalReduce (si5338RationalReduce rate)))) ∧
    (ReadsBack (fun status => si5338SetRationalSmbFreq status rate)
        (fun status => si5338GetRationalSmbFreq status) ↔
      (¬(si5338RationalReduce rate).integer < 38400000 * 66 / (32 * 567) →
        ¬200000000 < (si5338RationalReduce rate).integer →
        DenominatorFits 3 (si5338RationalReduce (si5338RationalReduce rate)))) := by
  constructor
  · rw [← multisynth_iff (indexOf_le ch) (if ch = 1 then 0x03 else 0x01)]
    exact readsBack_guard
  · rw [← multisynth_iff (Nat.le_refl 3) 0x01, ← @readsBack_guard _ _ bladerfErrInval]
    exact readsBack_guard

def edgeRate : RationalRate := ⟨9988296, 17, 430⟩

theorem reduce_edgeRate : si5338RationalReduce edgeRate = edgeRate := by
  rw [reduce_eq]
  decide +kernel

theorem double_edgeRate : si5338RationalDouble edgeRate = ⟨19976592, 17, 215⟩ := by
  unfold si5338RationalDouble
  rw [reduce_eq]
  decide +kernel

/-- The denominator 2^32 + 1 of the divider is cut to 2^30. -/
theorem not_readback : ¬ReadsBack (fun status => si5338SetRationalSampleRate status 0 edgeRate)
    (fun status => si5338GetRationalSampleRate status 0) := by
  intro hreads
  have hguard := readsBack_guard.mp hreads
  rw [reduce_edgeRate] at hguard
  have hfits := (multisynth_iff (indexOf_le 0) 0x01 edgeRate).mp (hguard (by decide))
  rw [reduce_edgeRate] at hfits
  have hrequest : requestOf 1 edgeRate = (⟨19976592, 17, 215⟩, 1) := by
    unfold requestOf
    rw [if_pos (by decide), double_edgeRate]
    rfl
  unfold DenominatorFits DividerTaken at hfits
  rw [show indexOf 0 = 1 from rfl, hrequest] at hfits
  obtain ⟨hinteger, -, hden⟩ := dividerOf_toNat ⟨19976592, 17, 215⟩
  refine hfits ⟨by decide, ?_⟩ 2 ?_
  · rw [hinteger]
    decide +kernel
  · rw [hden]
    decide +kernel

end BladeRF
