/-
# `Fpga.DwellTotals` — the samples and the energy that the dwells account for

`dwell_summary` squares a sample on one clock, adds the squares on the next and
accumulates them on the third.  The boundary is registered once and goes before
the accumulation: the clock that clears the totals takes no sample, so the one
that was valid on the clock before `dwell_start` is in no dwell.

Clips, peak, windows and trigger feed neither total and are left out.
-/
import BladeRF.Lib.Clocked
import Mathlib.Algebra.BigOperators.Ring.Finset
import Mathlib.Algebra.Order.Ring.Abs
import Mathlib.Data.BitVec
import Mathlib.Tactic.Positivity

namespace BladeRF

/-- `sample` and `dwell_start` on a clock. -/
structure DwellInput where
  dataI : BitVec 16 := 0
  dataQ : BitVec 16 := 0
  dataV : Bool := false
  dwellStart : Bool := false

/-- The registers of `dwell_summary` that the two totals go through. -/
structure DwellTotals where
  /-- `dwell_start_pipe(0)` -/
  dwellStartD : Bool := false
  dwellStartCmp : Bool := false
  dwellStartPub : Bool := false
  snapEnergy : BitVec 64 := 0
  snapSamples : BitVec 32 := 0
  summaryValid : Bool := false
  energySum : BitVec 64 := 0
  sampleCount : BitVec 32 := 0
  sqI : BitVec 32 := 0
  sqQ : BitVec 32 := 0
  sqValid : Bool := false
  instEnergy : BitVec 32 := 0
  instValid : Bool := false
  dwellEnergy : BitVec 64 := 0
  dwellSamples : BitVec 32 := 0

def DwellTotals.clock (s : DwellTotals) (x : DwellInput) : DwellTotals where
  dwellStartD := x.dwellStart
  dwellStartCmp := s.dwellStartD
  dwellStartPub := s.dwellStartCmp
  snapEnergy := if s.dwellStartD then s.dwellEnergy else s.snapEnergy
  snapSamples := if s.dwellStartD then s.dwellSamples else s.snapSamples
  summaryValid := s.dwellStartPub
  energySum := if s.dwellStartPub then s.snapEnergy else s.energySum
  sampleCount := if s.dwellStartPub then s.snapSamples else s.sampleCount
  sqI := x.dataI.signExtend 32 * x.dataI.signExtend 32
  sqQ := x.dataQ.signExtend 32 * x.dataQ.signExtend 32
  sqValid := x.dataV
  instEnergy := s.sqI + s.sqQ
  instValid := s.sqValid
  dwellEnergy :=
    if s.dwellStartD then 0
    else if s.instValid then s.dwellEnergy + s.instEnergy.setWidth 64
    else s.dwellEnergy
  dwellSamples :=
    if s.dwellStartD then 0
    else if s.instValid then s.dwellSamples + 1
    else s.dwellSamples

def dwellRegs (i : ℕ → DwellInput) : ℕ → DwellTotals :=
  Lib.trace (fun t s => s.clock (i t)) {}

/-- `dwell_start` is not high on two clocks in a row. -/
def Apart (i : ℕ → DwellInput) : Prop := ∀ t, ¬ ((i t).dwellStart ∧ (i (t + 1)).dwellStart)

theorem Apart.cmp {i : ℕ → DwellInput} (h : Apart i) :
    ∀ t, ¬ ((dwellRegs i t).dwellStartD ∧ (dwellRegs i t).dwellStartCmp)
  | 0 => by simp [dwellRegs, Lib.trace]
  | 1 => by simp [dwellRegs, Lib.trace, DwellTotals.clock]
  | t + 2 => fun ⟨hd, hc⟩ => h t ⟨hc, hd⟩

theorem Apart.pub {i : ℕ → DwellInput} (h : Apart i) :
    ∀ t, ¬ ((dwellRegs i t).dwellStartCmp ∧ (dwellRegs i t).dwellStartPub)
  | 0 => by simp [dwellRegs, Lib.trace]
  | t + 1 => h.cmp t

/-! ## A total -/

/-- One of the totals: its registers, and what a sample counts on its way to them. -/
structure DwellBook (w : ℕ) where
  acc : DwellTotals → BitVec w
  snap : DwellTotals → BitVec w
  record : DwellTotals → BitVec w
  inst : DwellTotals → ℕ
  sq : DwellTotals → ℕ
  arriving : DwellInput → ℕ
  blank : acc {} = 0 ∧ inst {} = 0 ∧ sq {} = 0
  acc_clock : ∀ (s : DwellTotals) (x : DwellInput),
    acc (s.clock x) = if s.dwellStartD then 0 else acc s + BitVec.ofNat w (inst s)
  snap_clock : ∀ (s : DwellTotals) (x : DwellInput),
    snap (s.clock x) = if s.dwellStartD then acc s else snap s
  record_clock : ∀ (s : DwellTotals) (x : DwellInput),
    record (s.clock x) = if s.dwellStartPub then snap s else record s
  inst_clock : ∀ (s : DwellTotals) (x : DwellInput), inst (s.clock x) = sq s
  sq_clock : ∀ (s : DwellTotals) (x : DwellInput), sq (s.clock x) = arriving x

namespace DwellBook

variable {w : ℕ} (b : DwellBook w) (i : ℕ → DwellInput) (s : DwellTotals)

def published : ℕ := if s.summaryValid then (b.record s).toNat else 0

/-- The record of a boundary behind the accumulators, until it is published. -/
def pending : ℕ := if s.dwellStartCmp || s.dwellStartPub then (b.snap s).toNat else 0

/-- Records, dwell and stages before clock `t`. -/
def held (t : ℕ) : ℕ :=
  ∑ u ∈ Finset.range (t + 1), b.published (dwellRegs i u) + b.pending (dwellRegs i t) +
    (b.acc (dwellRegs i t)).toNat + b.inst (dwellRegs i t) + b.sq (dwellRegs i t)

/-- What came in before clock `t`. -/
def received (t : ℕ) : ℕ := ∑ u ∈ Finset.range t, b.arriving (i u)

def lost : ℕ := if s.dwellStartD then b.inst s else 0

def wrapped : ℕ :=
  if s.dwellStartD then 0 else ((b.acc s).toNat + b.inst s) / 2 ^ w * 2 ^ w

variable {b i s}

theorem clock_conserves {x : DwellInput} (hcmp : ¬ (s.dwellStartD ∧ s.dwellStartCmp))
    (hpub : ¬ (s.dwellStartCmp ∧ s.dwellStartPub)) :
    b.published (s.clock x) + b.pending (s.clock x) + (b.acc (s.clock x)).toNat +
        b.inst (s.clock x) + b.sq (s.clock x) + (b.lost s + b.wrapped s) =
      b.pending s + (b.acc s).toNat + b.inst s + b.sq s + b.arriving x := by
  have hrecord : b.published (s.clock x) = if s.dwellStartPub then (b.snap s).toNat else 0 := by
    unfold published
    rw [b.record_clock]
    dsimp only [DwellTotals.clock]
    split <;> simp_all
  have hpending : b.pending (s.clock x) =
      if s.dwellStartD then (b.acc s).toNat
      else if s.dwellStartCmp then (b.snap s).toNat else 0 := by
    unfold pending
    rw [b.snap_clock]
    dsimp only [DwellTotals.clock]
    by_cases hd : s.dwellStartD <;> simp [hd]
  have hacc : (b.acc (s.clock x)).toNat + (b.lost s + b.wrapped s) =
      if s.dwellStartD then b.inst s else (b.acc s).toNat + b.inst s := by
    unfold lost wrapped
    rw [b.acc_clock]
    split
    · simp
    · have hdiv := Nat.div_add_mod' ((b.acc s).toNat + b.inst s) (2 ^ w)
      rw [BitVec.toNat_add, BitVec.toNat_ofNat, Nat.add_mod_mod]
      omega
  have hold : b.pending s =
      (if s.dwellStartPub then (b.snap s).toNat else 0) +
        if s.dwellStartCmp then (b.snap s).toNat else 0 := by
    unfold pending
    cases hc : s.dwellStartCmp <;> cases hp : s.dwellStartPub <;> simp_all
  rw [hrecord, hpending, b.inst_clock, b.sq_clock, hold]
  cases hd : s.dwellStartD <;> cases hc : s.dwellStartCmp <;> simp_all <;> omega

theorem held_add_dropped (hapart : Apart i) (t : ℕ) :
    b.held i t + ∑ u ∈ Finset.range t, (b.lost (dwellRegs i u) + b.wrapped (dwellRegs i u)) =
      b.received i t := by
  induction t with
  | zero =>
      obtain ⟨hacc, hinst, hsq⟩ := b.blank
      have hstart : dwellRegs i 0 = {} := rfl
      unfold held received
      rw [zero_add, Finset.sum_range_one, hstart, hacc, hinst, hsq]
      simp [published, pending]
  | succ t ih =>
      have hclock := clock_conserves (b := b) (x := i t) (hapart.cmp t) (hapart.pub t)
      have hnext : dwellRegs i (t + 1) = (dwellRegs i t).clock (i t) := rfl
      unfold held received at ih ⊢
      rw [Finset.sum_range_succ _ (t + 1), Finset.sum_range_succ (fun u => b.lost _ + _) t,
        Finset.sum_range_succ (fun u => b.arriving _) t, hnext]
      omega

theorem held_eq_received (hapart : Apart i) :
    (∀ t, b.held i t = b.received i t) ↔
      ∀ t, b.lost (dwellRegs i t) = 0 ∧ b.wrapped (dwellRegs i t) = 0 := by
  constructor
  · intro h t
    have hdropped := b.held_add_dropped (i := i) hapart (t + 1)
    rw [h (t + 1), Finset.sum_range_succ] at hdropped
    omega
  · intro h t
    have hdropped := b.held_add_dropped (i := i) hapart t
    rwa [Finset.sum_eq_zero fun u _ => Nat.add_eq_zero_iff.mpr (h u)] at hdropped

theorem held_modEq (hapart : Apart i) (hlost : ∀ t, b.lost (dwellRegs i t) = 0) (t : ℕ) :
    b.held i t ≡ b.received i t [MOD 2 ^ w] := by
  have hdropped := b.held_add_dropped (i := i) hapart t
  simp only [hlost, wrapped, zero_add] at hdropped
  rw [← hdropped]
  refine (Nat.modEq_iff_dvd' (Nat.le_add_right _ _)).mpr ?_
  rw [Nat.add_sub_cancel_left]
  refine Finset.dvd_sum fun u _ => ?_
  split
  · exact dvd_zero _
  · exact dvd_mul_left _ _

end DwellBook

/-! ## The two totals -/

def sampleBook : DwellBook 32 where
  acc s := s.dwellSamples
  snap s := s.snapSamples
  record s := s.sampleCount
  inst s := s.instValid.toNat
  sq s := s.sqValid.toNat
  arriving x := x.dataV.toNat
  blank := ⟨rfl, rfl, rfl⟩
  acc_clock s x := by cases hv : s.instValid <;> simp [DwellTotals.clock, hv]
  snap_clock _ _ := rfl
  record_clock _ _ := rfl
  inst_clock _ _ := rfl
  sq_clock _ _ := rfl

def DwellInput.energy (x : DwellInput) : ℕ := (x.dataI.toInt ^ 2 + x.dataQ.toInt ^ 2).toNat

theorem DwellInput.squares (x : DwellInput) :
    (x.dataI.signExtend 32 * x.dataI.signExtend 32 +
      x.dataQ.signExtend 32 * x.dataQ.signExtend 32).toNat = x.energy := by
  have hsq (a : BitVec 16) : a.signExtend 32 * a.signExtend 32 = BitVec.ofInt 32 (a.toInt ^ 2) := by
    rw [pow_two, BitVec.ofInt_mul]
    rfl
  have hlt (a : BitVec 16) : a.toInt ^ 2 ≤ 2 ^ 30 :=
    sq_le_sq' (BitVec.le_toInt a) (BitVec.toInt_lt.le)
  rw [hsq, hsq, ← BitVec.ofInt_add, BitVec.toNat_ofInt, Int.emod_eq_of_lt (by positivity), energy]
  exact (add_le_add (hlt x.dataI) (hlt x.dataQ)).trans_lt (by decide)

def energyBook : DwellBook 64 where
  acc s := s.dwellEnergy
  snap s := s.snapEnergy
  record s := s.energySum
  inst s := if s.instValid then s.instEnergy.toNat else 0
  sq s := if s.sqValid then (s.sqI + s.sqQ).toNat else 0
  arriving x := if x.dataV then x.energy else 0
  blank := ⟨rfl, rfl, rfl⟩
  acc_clock s x := by
    cases hv : s.instValid <;> simp [DwellTotals.clock, hv]
  snap_clock _ _ := rfl
  record_clock _ _ := rfl
  inst_clock _ _ := rfl
  sq_clock s x := by simp only [DwellTotals.clock, DwellInput.squares]

def Clear (i : ℕ → DwellInput) : Prop := ∀ t, (i (t + 1)).dwellStart → (i t).dataV = false

def DwellTotals.Overflows (s : DwellTotals) : Prop :=
  s.dwellStartD = false ∧ s.instValid ∧ s.dwellSamples = BitVec.allOnes 32

theorem sampleBook_lost {i : ℕ → DwellInput} :
    (∀ t, sampleBook.lost (dwellRegs i t) = 0) ↔ Clear i := by
  have hlost (s : DwellTotals) :
      sampleBook.lost s = 0 ↔ (s.dwellStartD → s.instValid = false) := by
    cases hv : s.instValid <;> simp [DwellBook.lost, sampleBook, hv]
  simp only [hlost]
  constructor
  · exact fun h t => h (t + 2)
  · intro h t
    match t with
    | 0 => exact fun _ => rfl
    | 1 => exact fun _ => rfl
    | t + 2 => exact h t

theorem sampleBook_wrapped {s : DwellTotals} : sampleBook.wrapped s = 0 ↔ ¬ s.Overflows := by
  have hlt := s.dwellSamples.isLt
  unfold DwellBook.wrapped DwellTotals.Overflows sampleBook
  rw [BitVec.toNat_eq]
  cases s.dwellStartD <;> cases hv : s.instValid <;> simp [hv] <;> omega

/-- Every sample and its energy are in exactly one place if and only if none is valid
on the clock before a boundary and no dwell is longer than its count. -/
theorem dwellTotals_keep (i : ℕ → DwellInput) (hapart : Apart i) :
    (∀ t, sampleBook.held i t = sampleBook.received i t ∧
        energyBook.held i t ≡ energyBook.received i t [MOD 2 ^ 64]) ↔
      Clear i ∧ ∀ t, ¬ (dwellRegs i t).Overflows := by
  have hcount := sampleBook.held_eq_received hapart
  constructor
  · intro h
    have hdropped := hcount.mp fun t => (h t).1
    exact ⟨sampleBook_lost.mp fun t => (hdropped t).1,
      fun t => sampleBook_wrapped.mp (hdropped t).2⟩
  · intro ⟨hclear, hfits⟩ t
    have hlost := sampleBook_lost.mpr hclear
    refine ⟨hcount.mpr (fun t => ⟨hlost t, sampleBook_wrapped.mpr (hfits t)⟩) t,
      energyBook.held_modEq hapart (fun t => ?_) t⟩
    have hlost := hlost t
    simp only [DwellBook.lost, sampleBook, energyBook] at hlost ⊢
    cases hv : (dwellRegs i t).instValid <;> simp_all

/-- A boundary on every eighth clock, and samples on all clocks but the one before. -/
def gappedDwell : ℕ → DwellInput := fun t =>
  { dataI := BitVec.ofNat 16 t, dataV := t % 8 ≠ 7, dwellStart := t % 8 = 0 }

theorem gappedDwell_apart : Apart gappedDwell := by
  rintro t ⟨h, hnext⟩
  simp only [gappedDwell, decide_eq_true_eq] at h hnext
  omega

theorem gappedDwell_clear : Clear gappedDwell := by
  intro t hnext
  simp only [gappedDwell, decide_eq_true_eq] at hnext
  have ht : t % 8 = 7 := by omega
  simp [gappedDwell, ht]

theorem gappedDwell_samples (t : ℕ) :
    (dwellRegs gappedDwell t).dwellSamples.toNat ≤ (t + 6) % 8 := by
  induction t with
  | zero => exact Nat.zero_le _
  | succ t ih =>
      have hclock : (dwellRegs gappedDwell (t + 1)).dwellSamples.toNat ≤
          if (dwellRegs gappedDwell t).dwellStartD then 0
          else (dwellRegs gappedDwell t).dwellSamples.toNat + 1 := by
        show ((dwellRegs gappedDwell t).clock (gappedDwell t)).dwellSamples.toNat ≤ _
        dsimp only [DwellTotals.clock]
        split
        · exact le_rfl
        · split
          · rw [BitVec.toNat_add]
            exact Nat.mod_le _ _
          · exact Nat.le_succ _
      refine hclock.trans ?_
      split
      · exact Nat.zero_le _
      · rename_i hstart
        have ht : t % 8 ≠ 1 := by
          rintro ht
          refine hstart ?_
          obtain ⟨u, rfl⟩ : ∃ u, t = u + 1 := ⟨t - 1, by omega⟩
          show (gappedDwell u).dwellStart = true
          simp only [gappedDwell, decide_eq_true_eq]
          omega
        omega

/-- Three dwells of seven samples each, and the count and the energy at every clock. -/
theorem dwellTotals_keep_gapped :
    (∀ t, sampleBook.held gappedDwell t = sampleBook.received gappedDwell t ∧
        energyBook.held gappedDwell t ≡ energyBook.received gappedDwell t [MOD 2 ^ 64]) ∧
      sampleBook.held gappedDwell 24 = 21 := by
  have hkeep := (dwellTotals_keep gappedDwell gappedDwell_apart).mpr ⟨gappedDwell_clear, by
    rintro t ⟨-, -, hfull⟩
    have hle := gappedDwell_samples t
    rw [hfull] at hle
    exact absurd (hle.trans_lt (Nat.mod_lt _ (by decide))) (by decide)⟩
  refine ⟨hkeep, ?_⟩
  rw [(hkeep 24).1]
  decide

/-- One sample on clock 0, the boundary on clock 1. -/
theorem dwellTotals_lose :
    ¬ ∀ i, Apart i → ∀ t, sampleBook.held i t = sampleBook.received i t := by
  intro h
  have hapart : Apart fun t => { dataI := 1, dataV := t = 0, dwellStart := t = 1 } := by
    intro t ⟨ht, hnext⟩
    simp_all
  exact absurd (h _ hapart 3) (by decide)

end BladeRF
