/-
# `Driver.Si5338` — the multisynths of the clock generator

A rate is `integer + num/den` in 64-bit words.  A request is doubled until the
multisynth can make it, the ratio of the VCO to it becomes `a + b/c`, and `a`, `b`, `c`
go to ten registers in another form, from which they are read back.
-/
import BladeRF.Streaming.RxRing
import Mathlib.Data.Fin.VecNotation

namespace BladeRF

@[ext]
structure RationalRate where
  integer : BitVec 64
  num : BitVec 64
  den : BitVec 64
deriving DecidableEq

def si5338FVco : BitVec 64 := 38400000 * 66

def si5338Gcd (a b : BitVec 64) : BitVec 64 :=
  if b = 0 then a else si5338Gcd b (a % b)
termination_by b.toNat
decreasing_by
  rw [BitVec.toNat_umod]
  exact Nat.mod_lt _ (Nat.pos_of_ne_zero fun h => ‹¬b = 0› (BitVec.eq_of_toNat_eq h))

/-- `si5338_rational_reduce`; the divisor goes through an `int64_t`. -/
def si5338RationalReduce (r : RationalRate) : RationalRate :=
  let r : RationalRate :=
    if 0 < r.den ∧ r.den ≤ r.num then
      let whole := r.num / r.den
      ⟨r.integer + whole, r.num - whole * r.den, r.den⟩
    else r
  let val := si5338Gcd r.num r.den
  if 0 < val.toInt then ⟨r.integer, r.num / val, r.den / val⟩ else r

def si5338RationalDouble (r : RationalRate) : RationalRate :=
  si5338RationalReduce ⟨r.integer * 2, r.num * 2, r.den⟩

def isSampleClock (index : ℕ) : Bool := index = 1 ∨ index = 2

/-- The loop for `r_value`; five turns bring it to 32. -/
def findRValue : ℕ → RationalRate → ℕ → RationalRate × ℕ
  | 0, req, r => (req, r)
  | turns + 1, req, r =>
      if req.integer < 5000000 ∧ r < 32 then findRValue turns (si5338RationalDouble req) (r * 2)
      else (req, r)

/-- The clock for a rate, and `r_value`. -/
def requestOf (index : ℕ) (rate : RationalRate) : RationalRate × ℕ :=
  findRValue 5 (if isSampleClock index then si5338RationalDouble rate else rate) 1

def dividerOf (req : RationalRate) : RationalRate :=
  si5338RationalReduce ⟨0, si5338FVco * req.den, req.integer * req.den + req.num⟩

def divides (integer : ℕ) : Bool := integer = 4 ∨ integer = 6 ∨ 8 ≤ integer ∧ integer ≤ 567

/-- The loop that halves `num` and `den`. -/
def losePrecision (num den : BitVec 64) : BitVec 64 × BitVec 64 :=
  if 2 ^ 30 < num.toNat ∨ 2 ^ 30 < den.toNat then losePrecision (num >>> 1) (den >>> 1)
  else (num, den)
termination_by num.toNat + den.toNat
decreasing_by
  rw [BitVec.toNat_ushiftRight, BitVec.toNat_ushiftRight]
  simp only [Nat.shiftRight_eq_div_pow]
  omega

abbrev SynthRegs := Fin 10 → BitVec 8

/-- `struct si5338_multisynth`: what a request comes to. -/
structure Multisynth where
  index : ℕ
  a : BitVec 32
  b : BitVec 32
  c : BitVec 32
  r : BitVec 32

def si5338PackRegs (a b c : BitVec 32) : SynthRegs :=
  let word (x : BitVec 32) : BitVec 64 := x.setWidth 64
  let p1 : BitVec 32 := ((word a * word c + word b) * 128 / word c - 512).setWidth 32
  let p2 : BitVec 32 := (word b * 128 % word c).setWidth 32
  let p3 := c
  let byte (x : BitVec 32) : BitVec 8 := x.setWidth 8
  ![byte p1, byte (p1 >>> 8), byte (((p2 &&& 0x3f) <<< 2) ||| ((p1 >>> 16) &&& 0x3)),
    byte (p2 >>> 6), byte (p2 >>> 14), byte (p2 >>> 22),
    byte p3, byte (p3 >>> 8), byte (p3 >>> 16), byte (p3 >>> 24)]

/-- `si5338_unpack_regs`: `a`, `b` and `c`. -/
def si5338UnpackRegs (regs : SynthRegs) : BitVec 32 × BitVec 32 × BitVec 32 :=
  let word (x : BitVec 32) : BitVec 64 := x.setWidth 64
  let reg (i : Fin 10) : BitVec 32 := (regs i).setWidth 32
  let p1 := ((reg 2 &&& 3) <<< 16) ||| (reg 1 <<< 8) ||| reg 0
  let p2 := (reg 5 <<< 22) ||| (reg 4 <<< 14) ||| (reg 3 <<< 6) ||| ((reg 2 >>> 2) &&& 0x3f)
  let p3 := ((reg 9 &&& 0x3f) <<< 24) ||| (reg 8 <<< 16) ||| (reg 7 <<< 8) ||| reg 6
  let c := p3
  let a := (p1 + 512) / 128
  let temp := word (p1 + 512) - 128 * word a
  let temp := temp * word c + word p2
  let temp := (temp + 64) / 128
  (a, temp.setWidth 32, c)

def si5338CalculateMsFreq (ms : Multisynth) : RationalRate :=
  let integer : BitVec 64 := ms.a.setWidth 64
  let num : BitVec 64 := ms.b.setWidth 64
  let den : BitVec 64 := ms.c.setWidth 64
  let out := ms.r.setWidth 64 * (integer * den + num)
  si5338RationalReduce ⟨0, si5338FVco * den, if isSampleClock ms.index then out * 2 else out⟩

def si5338CalculateMultisynth (index : ℕ) (rate : RationalRate) : Except ℤ Multisynth :=
  let (req, r) := requestOf index rate
  if r = 32 ∧ req.integer < 5000000 then .error bladerfErrInval
  else
    let abc := dividerOf req
    if ¬divides abc.integer.toNat then .error bladerfErrInval
    else
      let (num, den) := losePrecision abc.num abc.den
      .ok ⟨index, abc.integer.setWidth 32, num.setWidth 32, den.setWidth 32, BitVec.ofNat 32 r⟩

end BladeRF
