/-
# `Driver.Si5338Rate` — the rate that a request comes to

Where none of the products and carries of a request reaches 2^64 the multisynth makes
the rate, up to what the fraction loses when it is halved.  A request that wraps and
still gives a divider is made as another rate.
-/
import BladeRF.Driver.Si5338
import BladeRF.Lib.Fraction
import Mathlib.Data.BitVec

namespace BladeRF

open Lib (mixed)

/-! ## Numbers of a rate -/

def RationalRate.value (r : RationalRate) : ℚ := mixed r.integer.toNat r.num.toNat r.den.toNat

/-- What `num` and `den` are divided by. -/
def commonDivisor (n d : ℕ) : ℕ :=
  if 0 < (n % d).gcd d ∧ (n % d).gcd d < 2 ^ 63 then (n % d).gcd d else 1

def doubleProducts (r : RationalRate) : List ℕ := [r.integer.toNat * 2, r.num.toNat * 2]

def doubleCarry (r : RationalRate) : ℕ :=
  r.integer.toNat * 2 + r.num.toNat * 2 / r.den.toNat

/-- The rates that the loop for `r_value` doubles. -/
def loopDoubles : ℕ → RationalRate → ℕ → List RationalRate
  | 0, _, _ => []
  | turns + 1, req, r =>
      if req.integer < 5000000 ∧ r < 32 then
        req :: loopDoubles turns (si5338RationalDouble req) (r * 2)
      else []

def doublesOf (index : ℕ) (rate : RationalRate) : List RationalRate :=
  if isSampleClock index then rate :: loopDoubles 5 (si5338RationalDouble rate) 1
  else loopDoubles 5 rate 1

def productsOf (index : ℕ) (rate : RationalRate) : List ℕ :=
  let req := (requestOf index rate).1
  (doublesOf index rate).flatMap doubleProducts ++
    [si5338FVco.toNat * req.den.toNat, req.integer.toNat * req.den.toNat + req.num.toNat]

def Multisynth.rate (ms : Multisynth) : ℚ :=
  si5338FVco.toNat / mixed ms.a.toNat ms.b.toNat ms.c.toNat / ms.r.toNat /
    (if isSampleClock ms.index then 2 else 1)

def KeepsPrecision (index : ℕ) (rate : RationalRate) : Prop :=
  let abc := dividerOf (requestOf index rate).1
  abc.num.toNat ≤ 2 ^ 30 ∧ abc.den.toNat ≤ 2 ^ 30

structure SolvedBy (index : ℕ) (rate : RationalRate) (ms : Multisynth) : Prop where
  products : ∀ p ∈ productsOf index rate, p < 2 ^ 64
  close : |ms.rate - rate.value| ≤ rate.value / 2 ^ 28
  exact : KeepsPrecision index rate → ms.rate = rate.value

def RateSolved (index : ℕ) (rate : RationalRate) : Prop :=
  ∀ ms, si5338CalculateMultisynth index rate = .ok ms → SolvedBy index rate ms

/-- The remainders modulo 2^64 give a clock and a divider that the part takes. -/
def DividerTaken (index : ℕ) (rate : RationalRate) : Prop :=
  let req := requestOf index rate
  ¬(req.2 = 32 ∧ req.1.integer < 5000000) ∧ divides (dividerOf req.1).integer.toNat = true

structure RequestFits (index : ℕ) (rate : RationalRate) : Prop where
  products : ∀ p ∈ productsOf index rate, p < 2 ^ 64
  carries : ∀ r ∈ doublesOf index rate, doubleCarry r < 2 ^ 64

/-! ## Reducing and doubling -/

section

variable {r rate : RationalRate} {n d i turns rValue index : ℕ}

theorem si5338Gcd_toNat (a b : BitVec 64) :
    (si5338Gcd a b).toNat = a.toNat.gcd b.toNat := by
  induction a, b using si5338Gcd.induct with
  | case1 a =>
      rw [si5338Gcd, if_pos rfl]
      exact (Nat.gcd_zero_right _).symm
  | case2 a b hb ih =>
      rw [si5338Gcd, if_neg hb, ih, BitVec.toNat_umod, Nat.gcd_comm, ← Nat.gcd_rec, Nat.gcd_comm]

theorem toInt_pos_iff (x : BitVec 64) : 0 < x.toInt ↔ 0 < x.toNat ∧ x.toNat < 2 ^ 63 := by
  have hx := x.isLt
  rw [BitVec.toInt_eq_toNat_cond]
  split
  · omega
  · omega

theorem commonDivisor_pos (n d : ℕ) : 0 < commonDivisor n d := by
  unfold commonDivisor
  split
  · rename_i h
    exact h.1
  · exact Nat.one_pos

theorem commonDivisor_dvd (n d : ℕ) : commonDivisor n d ∣ n % d ∧ commonDivisor n d ∣ d := by
  unfold commonDivisor
  split
  · exact ⟨Nat.gcd_dvd_left _ _, Nat.gcd_dvd_right _ _⟩
  · exact ⟨one_dvd _, one_dvd _⟩

theorem reduce_toNat (r : RationalRate) :
    (si5338RationalReduce r).integer.toNat =
        (r.integer.toNat + r.num.toNat / r.den.toNat) % 2 ^ 64 ∧
      (si5338RationalReduce r).num.toNat =
        r.num.toNat % r.den.toNat / commonDivisor r.num.toNat r.den.toNat ∧
      (si5338RationalReduce r).den.toNat =
        r.den.toNat / commonDivisor r.num.toNat r.den.toNat := by
  obtain ⟨carried, hcarried⟩ : ∃ carried : RationalRate, (if 0 < r.den ∧ r.den ≤ r.num then
      (⟨r.integer + r.num / r.den, r.num - r.num / r.den * r.den, r.den⟩ : RationalRate)
      else r) = carried := ⟨_, rfl⟩
  have hparts : carried.integer.toNat =
        (r.integer.toNat + r.num.toNat / r.den.toNat) % 2 ^ 64 ∧
      carried.num.toNat = r.num.toNat % r.den.toNat ∧ carried.den = r.den := by
    have hden := r.den.isLt
    rw [← hcarried]
    split
    · rename_i h
      have hwhole : (r.num / r.den * r.den).toNat = r.num.toNat / r.den.toNat * r.den.toNat := by
        rw [BitVec.toNat_mul, BitVec.toNat_udiv]
        exact Nat.mod_eq_of_lt (lt_of_le_of_lt (Nat.div_mul_le_self _ _) r.num.isLt)
      refine ⟨by rw [BitVec.toNat_add, BitVec.toNat_udiv], ?_, rfl⟩
      dsimp only
      rw [BitVec.toNat_sub_of_le (BitVec.le_def.mpr (by
        rw [hwhole]
        exact Nat.div_mul_le_self _ _)), hwhole, Nat.mod_eq_sub_div_mul]
    · rename_i h
      have hless : r.num.toNat / r.den.toNat = 0 ∧ r.num.toNat % r.den.toNat = r.num.toNat := by
        rw [BitVec.lt_def, BitVec.le_def, not_and_or] at h
        rcases h with h | h
        · have hzero : r.den.toNat = 0 := Nat.eq_zero_of_not_pos h
          rw [hzero]
          exact ⟨Nat.div_zero _, Nat.mod_zero _⟩
        · exact ⟨Nat.div_eq_of_lt (Nat.lt_of_not_le h), Nat.mod_eq_of_lt (Nat.lt_of_not_le h)⟩
      refine ⟨?_, hless.2.symm, rfl⟩
      rw [hless.1, Nat.add_zero, Nat.mod_eq_of_lt r.integer.isLt]
  obtain ⟨hinteger, hnum, hden⟩ := hparts
  unfold si5338RationalReduce
  dsimp only
  rw [hcarried]
  have hgcd : (si5338Gcd carried.num carried.den).toNat =
      (r.num.toNat % r.den.toNat).gcd r.den.toNat := by
    rw [si5338Gcd_toNat, hnum, hden]
  have hpos := toInt_pos_iff (si5338Gcd carried.num carried.den)
  rw [hgcd] at hpos
  by_cases hval : 0 < (si5338Gcd carried.num carried.den).toInt
  · rw [if_pos hval]
    have hq : commonDivisor r.num.toNat r.den.toNat =
        (r.num.toNat % r.den.toNat).gcd r.den.toNat := if_pos (hpos.mp hval)
    rw [hq]
    refine ⟨hinteger, ?_, ?_⟩
    · dsimp only
      rw [BitVec.toNat_udiv, hgcd, hnum]
    · dsimp only
      rw [BitVec.toNat_udiv, hgcd, hden]
  · rw [if_neg hval]
    have hq : commonDivisor r.num.toNat r.den.toNat = 1 := if_neg fun h => hval (hpos.mpr h)
    rw [hq, Nat.div_one, Nat.div_one, hden]
    exact ⟨hinteger, hnum, rfl⟩

theorem reduce_eq (r : RationalRate) : si5338RationalReduce r =
    ⟨BitVec.ofNat 64 (r.integer.toNat + r.num.toNat / r.den.toNat),
      BitVec.ofNat 64 (r.num.toNat % r.den.toNat / commonDivisor r.num.toNat r.den.toNat),
      BitVec.ofNat 64 (r.den.toNat / commonDivisor r.num.toNat r.den.toNat)⟩ := by
  obtain ⟨hinteger, hnum, hden⟩ := reduce_toNat r
  have hword (x : BitVec 64) : BitVec.ofNat 64 x.toNat = x := by
    rw [BitVec.ofNat_toNat, BitVec.setWidth_eq]
  rw [← hnum, ← hden, hword, hword]
  exact RationalRate.ext (BitVec.eq_of_toNat_eq hinteger) rfl rfl

theorem value_reduce (hd : 0 < r.den.toNat)
    (hfits : r.integer.toNat + r.num.toNat / r.den.toNat < 2 ^ 64) :
    (si5338RationalReduce r).value = r.value := by
  obtain ⟨hinteger, hnum, hden⟩ := reduce_toNat r
  obtain ⟨hdvdn, hdvdd⟩ := commonDivisor_dvd r.num.toNat r.den.toNat
  unfold RationalRate.value
  rw [hinteger, hnum, hden, Nat.mod_eq_of_lt hfits,
    Lib.mixed_div hdvdn hdvdd (commonDivisor_pos _ _), Lib.mixed_carry hd]

theorem reduce_proper (hd : 0 < r.den.toNat) :
    (si5338RationalReduce r).num.toNat < (si5338RationalReduce r).den.toNat := by
  obtain ⟨-, hnum, hden⟩ := reduce_toNat r
  obtain ⟨hdvdn, hdvdd⟩ := commonDivisor_dvd r.num.toNat r.den.toNat
  rw [hnum, hden]
  exact Nat.div_lt_div_of_lt_of_dvd hdvdd (Nat.mod_lt _ hd)

theorem reduce_den_pos : 0 < (si5338RationalReduce r).den.toNat ↔ 0 < r.den.toNat := by
  obtain ⟨-, -, hden⟩ := reduce_toNat r
  obtain ⟨-, hdvdd⟩ := commonDivisor_dvd r.num.toNat r.den.toNat
  rw [hden]
  constructor
  · intro h
    exact Nat.pos_of_ne_zero fun hzero => by
      rw [hzero, Nat.zero_div] at h
      exact Nat.lt_irrefl 0 h
  · exact fun h => Nat.div_pos (Nat.le_of_dvd h hdvdd) (commonDivisor_pos _ _)

theorem double_den_pos : 0 < (si5338RationalDouble r).den.toNat ↔ 0 < r.den.toNat :=
  reduce_den_pos

theorem mixed_double (i n d : ℕ) : mixed (i * 2) (n * 2) d = mixed i n d * 2 := by
  unfold mixed
  push_cast
  ring

theorem value_double (hd : 0 < r.den.toNat) (hproducts : ∀ p ∈ doubleProducts r, p < 2 ^ 64)
    (hcarry : doubleCarry r < 2 ^ 64) : (si5338RationalDouble r).value = r.value * 2 := by
  unfold doubleProducts at hproducts
  have hinteger : (r.integer * 2).toNat = r.integer.toNat * 2 := by
    rw [BitVec.toNat_mul]
    exact Nat.mod_eq_of_lt (hproducts _ (List.mem_cons_self))
  have hnum : (r.num * 2).toNat = r.num.toNat * 2 := by
    rw [BitVec.toNat_mul]
    exact Nat.mod_eq_of_lt (hproducts _ (List.mem_cons_of_mem _ (List.mem_singleton.mpr rfl)))
  have hreduce := @value_reduce ⟨r.integer * 2, r.num * 2, r.den⟩ hd
    (by dsimp only; rw [hinteger, hnum]; exact hcarry)
  unfold si5338RationalDouble
  rw [hreduce]
  unfold RationalRate.value
  dsimp only
  rw [hinteger, hnum, mixed_double]

theorem value_of_carry (hd : 0 < r.den.toNat) (h : ¬doubleCarry r < 2 ^ 64) :
    2 ^ 64 ≤ r.value * 2 := by
  unfold doubleCarry at h
  have hnum : r.num.toNat * 2 / r.den.toNat * r.den.toNat ≤ r.num.toNat * 2 :=
    Nat.div_mul_le_self _ _
  unfold RationalRate.value
  rw [← mixed_double, ← Lib.mixed_carry hd]
  have hle := Lib.le_mixed (r.integer.toNat * 2 + r.num.toNat * 2 / r.den.toNat)
    (r.num.toNat * 2 % r.den.toNat) r.den.toNat
  have hcast : (2 ^ 64 : ℚ) ≤ (r.integer.toNat * 2 + r.num.toNat * 2 / r.den.toNat : ℕ) := by
    exact_mod_cast Nat.le_of_not_lt h
  exact hcast.trans hle

/-! ## The loops -/

theorem value_findRValue (hd : 0 < r.den.toNat)
    (hproducts : ∀ p ∈ (loopDoubles turns r rValue).flatMap doubleProducts, p < 2 ^ 64)
    (hcarries : ∀ q ∈ loopDoubles turns r rValue, doubleCarry q < 2 ^ 64) :
    (findRValue turns r rValue).1.value * rValue = r.value * (findRValue turns r rValue).2 := by
  induction turns generalizing r rValue with
  | zero => rfl
  | succ turns ih =>
      rw [findRValue]
      rw [loopDoubles] at hproducts hcarries
      split at hproducts
      · rename_i h
        rw [if_pos h] at hcarries ⊢
        rw [List.flatMap_cons, List.forall_mem_append] at hproducts
        rw [List.forall_mem_cons] at hcarries
        have hdouble := value_double hd hproducts.1 hcarries.1
        have hrest := ih (double_den_pos.mpr hd) hproducts.2 hcarries.2
        rw [hdouble] at hrest
        push_cast at hrest
        linarith
      · rename_i h
        rw [if_neg h]

theorem value_of_loop (hd : 0 < r.den.toNat)
    (hproducts : ∀ p ∈ (loopDoubles turns r rValue).flatMap doubleProducts, p < 2 ^ 64)
    (hwraps : ¬∀ q ∈ loopDoubles turns r rValue, doubleCarry q < 2 ^ 64) :
    2 ^ 64 ≤ r.value * 2 ^ turns := by
  induction turns generalizing r rValue with
  | zero => exact absurd (fun q hq => absurd hq List.not_mem_nil) hwraps
  | succ turns ih =>
      have hnonneg : 0 ≤ r.value := Lib.mixed_nonneg _ _ _
      rw [loopDoubles] at hproducts hwraps
      split at hproducts
      · rename_i h
        rw [if_pos h, List.forall_mem_cons] at hwraps
        rw [List.flatMap_cons, List.forall_mem_append] at hproducts
        by_cases hcarry : doubleCarry r < 2 ^ 64
        · have hrest := ih (double_den_pos.mpr hd) hproducts.2 fun hall => hwraps ⟨hcarry, hall⟩
          rw [value_double hd hproducts.1 hcarry] at hrest
          calc (2 ^ 64 : ℚ) ≤ r.value * 2 * 2 ^ turns := hrest
            _ = r.value * 2 ^ (turns + 1) := by ring
        · have hlarge := value_of_carry hd hcarry
          have hpow : (1 : ℚ) ≤ 2 ^ turns := one_le_pow₀ (by norm_num)
          calc (2 ^ 64 : ℚ) ≤ r.value * 2 := hlarge
            _ ≤ r.value * 2 * 2 ^ turns := le_mul_of_one_le_right (by linarith) hpow
            _ = r.value * 2 ^ (turns + 1) := by ring
      · rename_i h
        rw [if_neg h] at hwraps
        exact absurd (fun q hq => absurd hq List.not_mem_nil) hwraps

theorem findRValue_den_pos :
    0 < (findRValue turns r rValue).1.den.toNat ↔ 0 < r.den.toNat := by
  induction turns generalizing r rValue with
  | zero => rfl
  | succ turns ih =>
      rw [findRValue]
      split
      · rw [ih, double_den_pos]
      · rfl

theorem findRValue_power (turns : ℕ) (r : RationalRate) (e : ℕ) :
    ∃ e', (findRValue turns r (2 ^ e)).2 = 2 ^ e' ∧ e' ≤ e + turns := by
  induction turns generalizing r e with
  | zero => exact ⟨e, rfl, Nat.le_refl _⟩
  | succ turns ih =>
      rw [findRValue]
      split
      · obtain ⟨e', he', hle⟩ := ih (si5338RationalDouble r) (e + 1)
        rw [pow_succ] at he'
        exact ⟨e', he', by omega⟩
      · exact ⟨e, rfl, by omega⟩

theorem requestOf_power (index : ℕ) (rate : RationalRate) :
    ∃ e, (requestOf index rate).2 = 2 ^ e ∧ e ≤ 5 := by
  obtain ⟨e, he, hle⟩ := findRValue_power 5
    (if isSampleClock index then si5338RationalDouble rate else rate) 0
  exact ⟨e, he, by omega⟩

/-! ## A request -/

def clockFactor (index : ℕ) : ℕ := if isSampleClock index then 2 else 1

theorem requestOf_den_pos :
    0 < (requestOf index rate).1.den.toNat ↔ 0 < rate.den.toNat := by
  unfold requestOf
  rw [findRValue_den_pos]
  split
  · exact double_den_pos
  · rfl

theorem value_requestOf (hd : 0 < rate.den.toNat) (hfits : RequestFits index rate) :
    (requestOf index rate).1.value =
      rate.value * clockFactor index * (requestOf index rate).2 := by
  obtain ⟨hproducts, hcarries⟩ := hfits
  unfold productsOf at hproducts
  have hdoubles := (List.forall_mem_append.mp hproducts).1
  unfold doublesOf at hdoubles hcarries
  unfold requestOf clockFactor
  by_cases hclock : isSampleClock index = true
  · rw [if_pos hclock] at hdoubles hcarries ⊢
    rw [List.flatMap_cons, List.forall_mem_append] at hdoubles
    rw [List.forall_mem_cons] at hcarries
    have hloop := value_findRValue (double_den_pos.mpr hd) hdoubles.2 hcarries.2
    rw [value_double hd hdoubles.1 hcarries.1] at hloop
    rw [if_pos hclock]
    push_cast at hloop ⊢
    linarith
  · rw [if_neg hclock] at hdoubles hcarries ⊢
    have hloop := value_findRValue hd hdoubles hcarries
    rw [if_neg hclock]
    push_cast at hloop ⊢
    linarith

theorem value_of_wraps (hd : 0 < rate.den.toNat)
    (hproducts : ∀ p ∈ productsOf index rate, p < 2 ^ 64)
    (hwraps : ¬∀ q ∈ doublesOf index rate, doubleCarry q < 2 ^ 64) :
    2 ^ 64 ≤ rate.value * 2 ^ 6 := by
  unfold productsOf at hproducts
  have hdoubles := (List.forall_mem_append.mp hproducts).1
  have hnonneg : 0 ≤ rate.value := Lib.mixed_nonneg _ _ _
  unfold doublesOf at hdoubles hwraps
  split at hdoubles
  · rename_i h
    rw [if_pos h, List.forall_mem_cons] at hwraps
    rw [List.flatMap_cons, List.forall_mem_append] at hdoubles
    by_cases hcarry : doubleCarry rate < 2 ^ 64
    · have hlarge := value_of_loop (double_den_pos.mpr hd) hdoubles.2 fun hall => hwraps ⟨hcarry, hall⟩
      rw [value_double hd hdoubles.1 hcarry] at hlarge
      linarith
    · have hlarge := value_of_carry hd hcarry
      linarith
  · rename_i h
    rw [if_neg h] at hwraps
    have hlarge := value_of_loop hd hdoubles hwraps
    linarith

/-! ## The divider -/

theorem losePrecision_toNat (num den : BitVec 64) :
    ∃ k, (losePrecision num den).1.toNat = num.toNat / 2 ^ k ∧
      (losePrecision num den).2.toNat = den.toNat / 2 ^ k ∧
      (losePrecision num den).1.toNat ≤ 2 ^ 30 ∧ (losePrecision num den).2.toNat ≤ 2 ^ 30 ∧
      ∀ j < k, 2 ^ 30 < num.toNat / 2 ^ j ∨ 2 ^ 30 < den.toNat / 2 ^ j := by
  induction num, den using losePrecision.induct with
  | case1 num den h ih =>
      obtain ⟨k, hnum, hden, hnumLe, hdenLe, hbefore⟩ := ih
      have hhalf (x : BitVec 64) (j : ℕ) : (x >>> 1).toNat / 2 ^ j = x.toNat / 2 ^ (j + 1) := by
        rw [BitVec.toNat_ushiftRight, Nat.shiftRight_eq_div_pow, Nat.div_div_eq_div_mul, ← pow_add,
          Nat.add_comm]
      rw [hhalf] at hnum hden
      rw [losePrecision, if_pos h]
      refine ⟨k + 1, hnum, hden, hnumLe, hdenLe, fun j hj => ?_⟩
      cases j with
      | zero =>
          rw [pow_zero, Nat.div_one, Nat.div_one]
          exact h
      | succ j =>
          have hj' := hbefore j (by omega)
          rw [hhalf, hhalf] at hj'
          exact hj'
  | case2 num den h =>
      rw [losePrecision, if_neg h]
      rw [not_or, Nat.not_lt, Nat.not_lt] at h
      refine ⟨0, ?_, ?_, h.1, h.2, fun j hj => absurd hj (Nat.not_lt_zero j)⟩
      · rw [pow_zero, Nat.div_one]
      · rw [pow_zero, Nat.div_one]

theorem divides_le {a : ℕ} (h : divides a = true) : 4 ≤ a ∧ a ≤ 567 := by
  have ha := of_decide_eq_true h
  omega

theorem dividerOf_toNat (req : RationalRate) :
    let n := si5338FVco.toNat * req.den.toNat % 2 ^ 64
    let d := (req.integer.toNat * req.den.toNat + req.num.toNat) % 2 ^ 64
    (dividerOf req).integer.toNat = n / d ∧ (dividerOf req).num.toNat = n % d / commonDivisor n d ∧
      (dividerOf req).den.toNat = d / commonDivisor n d := by
  intro n d
  have hn : (si5338FVco * req.den).toNat = n := BitVec.toNat_mul _ _
  have hd : (req.integer * req.den + req.num).toNat = d := by
    rw [BitVec.toNat_add, BitVec.toNat_mul, Nat.mod_add_mod]
  obtain ⟨hinteger, hnum, hden⟩ :=
    reduce_toNat ⟨0, si5338FVco * req.den, req.integer * req.den + req.num⟩
  dsimp only at hinteger hnum hden
  rw [hn, hd] at hinteger hnum hden
  have hlt : n / d < 2 ^ 64 := lt_of_le_of_lt (Nat.div_le_self _ _) (Nat.mod_lt _ (by decide))
  have hzero : (0 : BitVec 64).toNat = 0 := rfl
  rw [hzero, Nat.zero_add, Nat.mod_eq_of_lt hlt] at hinteger
  exact ⟨hinteger, hnum, hden⟩

theorem divider_proper {req : RationalRate} (h : divides (dividerOf req).integer.toNat = true) :
    (dividerOf req).num.toNat < (dividerOf req).den.toNat ∧ 0 < req.den.toNat := by
  obtain ⟨hinteger, -, -⟩ := dividerOf_toNat req
  have hfour := (divides_le h).1
  rw [hinteger] at hfour
  constructor
  · apply reduce_proper
    dsimp only
    rw [BitVec.toNat_add, BitVec.toNat_mul, Nat.mod_add_mod]
    refine Nat.pos_of_ne_zero fun hzero => ?_
    rw [hzero, Nat.div_zero] at hfour
    omega
  · refine Nat.pos_of_ne_zero fun hzero => ?_
    rw [hzero, Nat.mul_zero, Nat.zero_mod, Nat.zero_div] at hfour
    omega

theorem divider_value {req : RationalRate} (h : divides (dividerOf req).integer.toNat = true)
    (hn : si5338FVco.toNat * req.den.toNat < 2 ^ 64)
    (hd : req.integer.toNat * req.den.toNat + req.num.toNat < 2 ^ 64) :
    (dividerOf req).value = si5338FVco.toNat / req.value := by
  obtain ⟨-, hpos⟩ := divider_proper h
  obtain ⟨hinteger, -, -⟩ := dividerOf_toNat req
  have hfour := (divides_le h).1
  rw [hinteger, Nat.mod_eq_of_lt hn, Nat.mod_eq_of_lt hd] at hfour
  have hmul : (si5338FVco * req.den).toNat = si5338FVco.toNat * req.den.toNat := by
    rw [BitVec.toNat_mul]
    exact Nat.mod_eq_of_lt hn
  have hadd : (req.integer * req.den + req.num).toNat =
      req.integer.toNat * req.den.toNat + req.num.toNat := by
    rw [BitVec.toNat_add, BitVec.toNat_mul, Nat.mod_add_mod]
    exact Nat.mod_eq_of_lt hd
  have hdpos : 0 < req.integer.toNat * req.den.toNat + req.num.toNat := by
    refine Nat.pos_of_ne_zero fun hzero => ?_
    rw [hzero, Nat.div_zero] at hfour
    omega
  have hroom : 0 + si5338FVco.toNat * req.den.toNat /
      (req.integer.toNat * req.den.toNat + req.num.toNat) < 2 ^ 64 := by
    rw [Nat.zero_add]
    exact lt_of_le_of_lt (Nat.div_le_self _ _) hn
  have hreduce := @value_reduce ⟨0, si5338FVco * req.den, req.integer * req.den + req.num⟩
    (by dsimp only; rw [hadd]; exact hdpos) (by dsimp only; rw [hmul, hadd]; exact hroom)
  unfold dividerOf
  rw [hreduce]
  unfold RationalRate.value
  dsimp only
  rw [hmul, hadd, Lib.mixed_eq_div hpos]
  unfold mixed
  have hzero : ((0 : BitVec 64).toNat : ℚ) = 0 := rfl
  rw [hzero, zero_add, div_div_eq_mul_div, Nat.cast_mul]

structure SynthFor (index : ℕ) (rate : RationalRate) (ms : Multisynth) : Prop where
  index_eq : ms.index = index
  a_eq : ms.a.toNat = (dividerOf (requestOf index rate).1).integer.toNat
  r_eq : ms.r.toNat = (requestOf index rate).2
  cut : ∃ k, ms.b.toNat = (dividerOf (requestOf index rate).1).num.toNat / 2 ^ k ∧
    ms.c.toNat = (dividerOf (requestOf index rate).1).den.toNat / 2 ^ k ∧
    ms.b.toNat ≤ ms.c.toNat ∧ ms.c.toNat ≤ 2 ^ 30 ∧
    (0 < k → 2 ^ 30 < (dividerOf (requestOf index rate).1).den.toNat / 2 ^ (k - 1))

theorem calculate_taken (h : DividerTaken index rate) :
    ∃ ms, si5338CalculateMultisynth index rate = .ok ms ∧ SynthFor index rate ms := by
  obtain ⟨hclock, htaken⟩ := h
  obtain ⟨e, hr, he⟩ := requestOf_power index rate
  obtain ⟨k, hnum, hden, hnumLe, hdenLe, hbefore⟩ :=
    losePrecision_toNat (dividerOf (requestOf index rate).1).num
      (dividerOf (requestOf index rate).1).den
  obtain ⟨hproper, -⟩ := divider_proper htaken
  have hword (x : BitVec 64) (hx : x.toNat ≤ 2 ^ 30) : (x.setWidth 32).toNat = x.toNat := by
    rw [BitVec.toNat_setWidth]
    exact Nat.mod_eq_of_lt (by omega)
  have hpow : 2 ^ e < 2 ^ 32 := Nat.pow_lt_pow_right (by decide) (by omega)
  refine ⟨⟨index, (dividerOf (requestOf index rate).1).integer.setWidth 32,
    (losePrecision (dividerOf (requestOf index rate).1).num
      (dividerOf (requestOf index rate).1).den).1.setWidth 32,
    (losePrecision (dividerOf (requestOf index rate).1).num
      (dividerOf (requestOf index rate).1).den).2.setWidth 32,
    BitVec.ofNat 32 (requestOf index rate).2⟩, ?_, ?_⟩
  · unfold si5338CalculateMultisynth
    dsimp only
    rw [if_neg hclock, if_neg (not_not.mpr htaken)]
  · constructor
    · rfl
    · exact hword _ (by have := (divides_le htaken).2; omega)
    · dsimp only
      rw [hr, BitVec.toNat_ofNat]
      exact Nat.mod_eq_of_lt hpow
    · refine ⟨k, ?_, ?_, ?_, ?_, ?_⟩
      · exact (hword _ hnumLe).trans hnum
      · exact (hword _ hdenLe).trans hden
      · dsimp only
        rw [hword _ hnumLe, hword _ hdenLe, hnum, hden]
        exact Nat.div_le_div_right hproper.le
      · dsimp only
        rw [hword _ hdenLe]
        exact hdenLe
      · intro hk
        rcases hbefore (k - 1) (by omega) with h | h
        · exact lt_of_lt_of_le h (Nat.div_le_div_right hproper.le)
        · exact h

theorem taken_of_calculate {ms : Multisynth} (h : si5338CalculateMultisynth index rate = .ok ms) :
    DividerTaken index rate ∧ SynthFor index rate ms := by
  have htaken : DividerTaken index rate := by
    unfold si5338CalculateMultisynth at h
    dsimp only at h
    split at h
    · cases h
    · rename_i hclock
      split at h
      · cases h
      · rename_i hdivides
        exact ⟨hclock, not_not.mp hdivides⟩
  obtain ⟨ms', hms', hfor⟩ := calculate_taken htaken
  rw [h] at hms'
  cases hms'
  exact ⟨htaken, hfor⟩

/-! ## The rate of a multisynth -/

theorem clockFactor_pos (index : ℕ) : (1 : ℚ) ≤ clockFactor index := by
  unfold clockFactor
  split
  · norm_num
  · norm_num

theorem Multisynth.rate_eq {ms : Multisynth} (h : SynthFor index rate ms) :
    ms.rate = si5338FVco.toNat / (requestOf index rate).2 / clockFactor index /
      mixed ms.a.toNat ms.b.toNat ms.c.toNat := by
  have hfactor : (if isSampleClock ms.index then 2 else 1 : ℚ) = clockFactor index := by
    rw [h.index_eq]
    unfold clockFactor
    split
    · rfl
    · exact Nat.cast_one.symm
  unfold Multisynth.rate
  rw [hfactor, h.r_eq, div_right_comm, div_right_comm (si5338FVco.toNat / mixed _ _ _ : ℚ),
    div_right_comm (si5338FVco.toNat : ℚ), div_right_comm (_ / _ : ℚ)]

theorem SynthFor.divider_close {ms : Multisynth} (h : SynthFor index rate ms)
    (hproper : (dividerOf (requestOf index rate).1).num.toNat <
      (dividerOf (requestOf index rate).1).den.toNat) :
    |(dividerOf (requestOf index rate).1).value - mixed ms.a.toNat ms.b.toNat ms.c.toNat| ≤
        1 / 2 ^ 29 ∧
      (KeepsPrecision index rate →
        (dividerOf (requestOf index rate).1).value = mixed ms.a.toNat ms.b.toNat ms.c.toNat) := by
  obtain ⟨k, hb, hc, -, hcLe, hcut⟩ := h.cut
  have hvalue : (dividerOf (requestOf index rate).1).value =
      mixed ms.a.toNat (dividerOf (requestOf index rate).1).num.toNat
        (dividerOf (requestOf index rate).1).den.toNat := by
    unfold RationalRate.value
    rw [h.a_eq]
  obtain ⟨n, hn⟩ : ∃ n, (dividerOf (requestOf index rate).1).num.toNat = n := ⟨_, rfl⟩
  obtain ⟨d, hd⟩ : ∃ d, (dividerOf (requestOf index rate).1).den.toNat = d := ⟨_, rfl⟩
  rw [hn] at hb
  rw [hd] at hc hcut
  rw [hn, hd] at hvalue hproper
  unfold KeepsPrecision
  dsimp only
  rw [hvalue, hn, hd]
  cases k with
  | zero =>
      rw [pow_zero, Nat.div_one] at hb hc
      rw [hb, hc, sub_self, abs_zero]
      exact ⟨by norm_num, fun _ => rfl⟩
  | succ k =>
      have hlarge := hcut (Nat.succ_pos k)
      rw [Nat.add_sub_cancel] at hlarge
      have hhalf : d / 2 ^ (k + 1) = d / 2 ^ k / 2 := by rw [Nat.div_div_eq_div_mul, pow_succ]
      have hclarge : 2 ^ 29 ≤ d / 2 ^ (k + 1) := by omega
      constructor
      · have hclose := Lib.cut_close hproper.le (Nat.pow_pos (n := k + 1) (show 0 < 2 by decide))
          (by omega)
        have hplace : (1 : ℚ) / (d / 2 ^ (k + 1) : ℕ) ≤ 1 / 2 ^ 29 := by
          apply one_div_le_one_div_of_le (by norm_num)
          exact_mod_cast hclarge
        unfold mixed
        rw [add_sub_add_left_eq_sub, hb, hc]
        exact hclose.trans hplace
      · rintro ⟨-, hkeep⟩
        have hle : d / 2 ^ k ≤ d := Nat.div_le_self _ _
        omega

theorem solvedBy_of_fits {ms : Multisynth} (hms : si5338CalculateMultisynth index rate = .ok ms)
    (hfits : RequestFits index rate) : SolvedBy index rate ms := by
  obtain ⟨⟨-, htaken⟩, hfor⟩ := taken_of_calculate hms
  obtain ⟨hproper, hden⟩ := divider_proper htaken
  have hrate := requestOf_den_pos.mp hden
  obtain ⟨e, hr, -⟩ := requestOf_power index rate
  have hproducts := (List.forall_mem_append.mp hfits.products).2
  rw [List.forall_mem_cons, List.forall_mem_singleton] at hproducts
  have hratio := divider_value htaken hproducts.1 hproducts.2
  have hclock := value_requestOf hrate hfits
  obtain ⟨hclose, hexact⟩ := hfor.divider_close hproper
  have hfour : (4 : ℚ) ≤ ms.a.toNat := by
    rw [hfor.a_eq]
    exact_mod_cast (divides_le htaken).1
  have hy : (4 : ℚ) ≤ mixed ms.a.toNat ms.b.toNat ms.c.toNat := hfour.trans (Lib.le_mixed _ _ _)
  have hx : (4 : ℚ) ≤ (dividerOf (requestOf index rate).1).value := by
    rw [hfor.a_eq] at hfour
    exact hfour.trans (Lib.le_mixed _ _ _)
  obtain ⟨x, hxdef⟩ : ∃ x, (dividerOf (requestOf index rate).1).value = x := ⟨_, rfl⟩
  obtain ⟨y, hydef⟩ : ∃ y, mixed ms.a.toNat ms.b.toNat ms.c.toNat = y := ⟨_, rfl⟩
  have hrpos : (0 : ℚ) < (requestOf index rate).2 := by
    rw [hr]
    push_cast
    positivity
  have hspos : (0 : ℚ) < clockFactor index := by linarith [clockFactor_pos index]
  have hfvco : (0 : ℚ) < si5338FVco.toNat := by exact_mod_cast (by decide : 0 < si5338FVco.toNat)
  -- the rate through the divider as it was before the loss of precision
  have hvalue : rate.value =
      si5338FVco.toNat / (requestOf index rate).2 / clockFactor index / x := by
    have hreq : (requestOf index rate).1.value = si5338FVco.toNat / x := by
      rw [← hxdef, hratio]
      rw [hratio] at hx
      field_simp
    have hxpos : 0 < x := by linarith
    rw [hclock, eq_div_iff hxpos.ne'] at hreq
    rw [eq_div_iff hxpos.ne', eq_div_iff hspos.ne', eq_div_iff hrpos.ne', ← hreq]
    ring
  have hms := Multisynth.rate_eq hfor
  rw [hxdef] at hclose hexact hx
  rw [hydef] at hclose hexact hy hms
  refine ⟨hfits.products, ?_, ?_⟩
  · have hK : 0 ≤ (si5338FVco.toNat : ℚ) / (requestOf index rate).2 / clockFactor index := by
      positivity
    have hnonneg : 0 ≤ rate.value := Lib.mixed_nonneg _ _ _
    have hdiff := Lib.div_close hK (by linarith) (by linarith) hclose
    rw [← hms, ← hvalue] at hdiff
    have hsmall : (1 : ℚ) / 2 ^ 29 / y ≤ 1 / 2 ^ 28 := by
      rw [div_div, one_div_le_one_div (by positivity) (by norm_num)]
      linarith
    calc |ms.rate - rate.value| ≤ 1 / 2 ^ 29 / y * rate.value := hdiff
      _ ≤ 1 / 2 ^ 28 * rate.value := mul_le_mul_of_nonneg_right hsmall hnonneg
      _ = rate.value / 2 ^ 28 := by ring
  · intro hkeeps
    rw [hms, hvalue, hexact hkeeps]

theorem rate_le {ms : Multisynth} (hms : si5338CalculateMultisynth index rate = .ok ms) :
    ms.rate ≤ 2 ^ 32 := by
  obtain ⟨⟨-, htaken⟩, hfor⟩ := taken_of_calculate hms
  obtain ⟨e, hr, -⟩ := requestOf_power index rate
  have hfour : (4 : ℚ) ≤ ms.a.toNat := by
    rw [hfor.a_eq]
    exact_mod_cast (divides_le htaken).1
  have hy : (1 : ℚ) ≤ mixed ms.a.toNat ms.b.toNat ms.c.toNat := by
    linarith [Lib.le_mixed ms.a.toNat ms.b.toNat ms.c.toNat]
  have hrone : (1 : ℚ) ≤ (requestOf index rate).2 := by
    rw [hr]
    exact_mod_cast Nat.one_le_two_pow
  have hfvco : (si5338FVco.toNat : ℚ) ≤ 2 ^ 32 := by
    exact_mod_cast (by decide : si5338FVco.toNat ≤ 2 ^ 32)
  have hpos : (0 : ℚ) ≤ si5338FVco.toNat := Nat.cast_nonneg _
  rw [Multisynth.rate_eq hfor]
  calc (si5338FVco.toNat : ℚ) / (requestOf index rate).2 / clockFactor index / mixed _ _ _
      ≤ si5338FVco.toNat / (requestOf index rate).2 / clockFactor index :=
        div_le_self (by positivity) hy
    _ ≤ si5338FVco.toNat / (requestOf index rate).2 :=
        div_le_self (by positivity) (clockFactor_pos index)
    _ ≤ si5338FVco.toNat := div_le_self hpos hrone
    _ ≤ 2 ^ 32 := hfvco

end

/-- A request that is taken is made if and only if nothing of it wraps. -/
theorem rateSolved_iff (index : ℕ) (rate : RationalRate) :
    RateSolved index rate ↔ (DividerTaken index rate → RequestFits index rate) := by
  constructor
  · intro hsolved htaken
    obtain ⟨ms, hms, -⟩ := calculate_taken htaken
    obtain ⟨hproducts, hclose, -⟩ := hsolved ms hms
    refine ⟨hproducts, ?_⟩
    by_contra hwraps
    have hden := requestOf_den_pos.mp (divider_proper htaken.2).2
    have hlarge := value_of_wraps hden hproducts hwraps
    have hsmall := rate_le hms
    have hbelow := (abs_le.mp hclose).1
    linarith
  · intro hfits ms hms
    exact solvedBy_of_fits hms (hfits (taken_of_calculate hms).1)

def wrappingRate : RationalRate := ⟨2 ^ 63 + 5000000, 0, 1⟩

theorem double_wrappingRate : si5338RationalDouble wrappingRate = ⟨10000000, 0, 1⟩ := by
  unfold si5338RationalDouble
  rw [reduce_eq]
  decide +kernel

/-- The request wraps to one that is taken. -/
theorem not_rateSolved : ¬RateSolved 1 wrappingRate := by
  have hrequest : requestOf 1 wrappingRate = (⟨10000000, 0, 1⟩, 1) := by
    unfold requestOf
    rw [if_pos (by decide), double_wrappingRate]
    rfl
  rw [rateSolved_iff]
  intro hfits
  have htaken : DividerTaken 1 wrappingRate := by
    unfold DividerTaken
    rw [hrequest]
    refine ⟨by decide, ?_⟩
    rw [(dividerOf_toNat _).1]
    decide
  have hproducts := (hfits htaken).products
  unfold productsOf doublesOf at hproducts
  rw [if_pos (by decide)] at hproducts
  exact absurd (hproducts (wrappingRate.integer.toNat * 2) List.mem_cons_self) (by decide +kernel)

end BladeRF
