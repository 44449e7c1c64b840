/-
# `Fpga.TxRetuneGate` — the TX mute of a retune

`tx_retune_gate` zeroes the DAC from the timestamp of a request on until a
COMPLETE, and at once for an ABORT or an underflow.  A request that comes while
another one waits goes into the second of two banks, and a comparison of two
registered stages selects the earlier one.

The mute output looks at the bank that is selected and at the command on the
line.  Between the two lies the clock of the comparison: a replacement that is
due when it arrives, or at the next clock, mutes, lets go, and mutes again.
-/
import BladeRF.Fpga.Lanes
import BladeRF.Lib.Clocked

namespace BladeRF

/-! ## Timestamps -/

/-- `timestamp_reached`: the signed difference is not negative. -/
def timestampReached (currentTs targetTs : BitVec 64) : Bool :=
  !(currentTs - targetTs).msb

/-- `less_than`: the borrow of `a - b`. -/
def lessThan {w : ℕ} (a b : BitVec w) : Bool :=
  (a.setWidth (w + 1) - b.setWidth (w + 1)).msb

/-- `timestamp_order_parts_t`; the defaults are the reset values. -/
structure TimestampOrderParts where
  signDiff : Bool := false
  highEq : Bool := true
  highLt : Bool := false
  highGt : Bool := false
  lowLt : Bool := false
  lowGt : Bool := false

def timestampOrderParts (leftTs rightTs : BitVec 64) : TimestampOrderParts where
  signDiff := leftTs[63] ^^ rightTs[63]
  highEq := leftTs.extractLsb 62 32 == rightTs.extractLsb 62 32
  highLt := lessThan (leftTs.extractLsb 62 32) (rightTs.extractLsb 62 32)
  highGt := lessThan (rightTs.extractLsb 62 32) (leftTs.extractLsb 62 32)
  lowLt := lessThan (leftTs.extractLsb 31 0) (rightTs.extractLsb 31 0)
  lowGt := lessThan (rightTs.extractLsb 31 0) (leftTs.extractLsb 31 0)

def timestampAfter (parts : TimestampOrderParts) : Bool :=
  if parts.signDiff then parts.highLt || (parts.highEq && parts.lowLt)
  else parts.highGt || (parts.highEq && parts.lowGt)

theorem lessThan_eq {w : ℕ} (a b : BitVec w) : lessThan a b = decide (a.toNat < b.toNat) := by
  unfold lessThan
  rw [BitVec.msb_eq_decide]
  have ha := a.isLt
  have hb := b.isLt
  have hw : 2 ^ (w + 1) = 2 * 2 ^ w := by rw [Nat.pow_succ, Nat.mul_comm]
  congr 1
  rw [BitVec.toNat_sub, BitVec.toNat_setWidth, BitVec.toNat_setWidth,
    Nat.mod_eq_of_lt (a := a.toNat) (by omega), Nat.mod_eq_of_lt (a := b.toNat) (by omega),
    Nat.add_sub_cancel, hw]
  refine propext ⟨?_, ?_⟩
  · intro h
    by_contra hge
    have hmod : (2 * 2 ^ w - b.toNat + a.toNat) % (2 * 2 ^ w) = a.toNat - b.toNat := by
      rw [show 2 * 2 ^ w - b.toNat + a.toNat = a.toNat - b.toNat + 2 * 2 ^ w by omega,
        Nat.add_mod_right, Nat.mod_eq_of_lt (by omega)]
    omega
  · intro h
    rw [Nat.mod_eq_of_lt (by omega)]
    omega

theorem timestampAfter_iff (x y : BitVec 64) :
    timestampAfter (timestampOrderParts x y) = true ↔
      0 < (x - y).toNat ∧ (x - y).toNat < 2 ^ 63 := by
  have hx := x.isLt
  have hy := y.isLt
  have hsign : ∀ z : BitVec 64, z[63] = decide (2 ^ 63 ≤ z.toNat) := by
    intro z
    rw [← BitVec.getLsbD_eq_getElem (by decide), ← BitVec.msb_eq_decide z]
    exact (BitVec.msb_eq_getLsbD_last z).symm
  have hhigh : ∀ z : BitVec 64, (z.extractLsb 62 32).toNat = z.toNat / 2 ^ 32 % 2 ^ 31 := by
    intro z
    rw [BitVec.extractLsb_toNat, Nat.shiftRight_eq_div_pow]
  have hlow : ∀ z : BitVec 64, (z.extractLsb 31 0).toNat = z.toNat % 2 ^ 32 := by
    intro z
    rw [BitVec.extractLsb_toNat, Nat.shiftRight_zero]
  have heq : (x.extractLsb 62 32 == y.extractLsb 62 32) =
      decide (x.toNat / 2 ^ 32 % 2 ^ 31 = y.toNat / 2 ^ 32 % 2 ^ 31) := by
    rw [← hhigh x, ← hhigh y, beq_eq_decide]
    congr 1
    exact propext ⟨fun h => by rw [h], BitVec.eq_of_toNat_eq⟩
  have hsub : (x - y).toNat = (2 ^ 64 - y.toNat + x.toNat) % 2 ^ 64 := BitVec.toNat_sub x y
  unfold timestampAfter timestampOrderParts
  simp only [lessThan_eq, hsign, hhigh, hlow, heq, hsub]
  generalize x.toNat = a at *
  generalize y.toNat = b at *
  by_cases ha : 2 ^ 63 ≤ a <;> by_cases hb : 2 ^ 63 ≤ b <;>
    simp only [ha, hb, decide_true, decide_false, Bool.xor_true, Bool.xor_false, Bool.not_true,
      Bool.not_false, if_true, if_false, Bool.false_eq_true, Bool.or_eq_true, Bool.and_eq_true,
      decide_eq_true_eq] <;>
    omega

theorem timestampReached_iff (now x : BitVec 64) :
    timestampReached now x = true ↔ (now - x).toNat < 2 ^ 63 := by
  rw [timestampReached, BitVec.msb_eq_decide, Bool.not_eq_true', decide_eq_false_iff_not]
  omega

theorem not_reached_iff (now x : BitVec 64) :
    timestampReached now x = false ↔ 0 < (x - now).toNat ∧ (x - now).toNat ≤ 2 ^ 63 := by
  rw [← Bool.not_eq_true, timestampReached_iff]
  bv_omega

theorem reached_later {now now' x : BitVec 64} (htime : timestampReached now' now = true)
    (hx : timestampReached now x = false) :
    timestampReached now' x = true ↔ (x - now).toNat ≤ (now' - now).toNat := by
  rw [timestampReached_iff] at htime ⊢
  rw [not_reached_iff] at hx
  bv_omega

theorem ahead_later {now now' x : BitVec 64} (htime : timestampReached now' now = true)
    (hx : timestampReached now x = false) (hx' : timestampReached now' x = false) :
    (x - now').toNat + (now' - now).toNat = (x - now).toNat := by
  rw [timestampReached_iff] at htime
  rw [not_reached_iff] at hx hx'
  bv_omega

theorem after_ahead {now x y : BitVec 64} (hx : timestampReached now x = false)
    (hy : timestampReached now y = false) :
    timestampAfter (timestampOrderParts x y) = true ↔ (y - now).toNat < (x - now).toNat := by
  rw [timestampAfter_iff]
  rw [not_reached_iff] at hx hy
  bv_omega

/-! ## The gate -/

/-- `STATE_ACTIVE` to `STATE_ERROR`. -/
inductive TxGateState where
  | active
  | armed
  | muted
  | error
  deriving DecidableEq

/-- The registers of the gate; the defaults are their reset values.  A register
of a bank is indexed by the value of the selector that means the bank. -/
structure TxRetuneGate where
  state : TxGateState := .active
  targetBank : Bool → BitVec 64 := fun _ => 0
  targetBankSelect : Bool := false
  targetAfterBank : Bool → Bool := fun _ => false
  targetAfterStage1Bank : Bool → TimestampOrderParts := fun _ => {}
  replacementComparePending : Bool := false
  immediate : Bool := false
  muteStartTimestamp : BitVec 64 := 0
  mutedSampleCount : BitVec 64 := 0
  muteStartEvent : Bool := false
  resumeEvent : Bool := false

namespace TxRetuneGate

/-- The inputs at a clock, with `NUM_STREAMS = n`. -/
structure Input (n : ℕ) where
  timestamp : BitVec 64
  arm : Bool := false
  armImmediate : Bool := false
  targetTimestamp : BitVec 64 := 0
  complete : Bool := false
  abort : Bool := false
  underflow : Bool := false
  inSamples : Fin n → SampleStream := fun _ => {}

variable {n : ℕ}

/-- `abort_i` -/
def Input.aborts (x : Input n) : Bool :=
  x.abort || x.underflow

def Input.anyValid (x : Input n) : Bool :=
  (List.finRange n).any fun l => (x.inSamples l).dataV

section Clock

variable (s : TxRetuneGate) (x : Input n)

/-- `target_reached_i` -/
def targetReached : Bool :=
  timestampReached x.timestamp (s.targetBank s.targetBankSelect)

def nextBankSelect : Bool :=
  (s.targetBankSelect && !s.targetAfterBank true) ||
    (!s.targetBankSelect && s.targetAfterBank false)

/-- `target_bank_effective_select_i` -/
def targetBankEffectiveSelect : Bool :=
  if s.state = .armed ∧ s.replacementComparePending = true then s.nextBankSelect
  else s.targetBankSelect

/-- `target_bank_active_write_i` -/
def activeWrite : Bool :=
  !x.aborts && x.arm && (s.state == .active || s.state == .error)

/-- `target_bank_armed_write_i` -/
def armedWrite : Bool :=
  !x.aborts && x.arm && s.state == .armed

/-- `target_bank0_write_en_i` and `target_bank1_write_en_i` -/
def bankWriteEn : Bool → Bool
  | false => s.activeWrite x || (s.armedWrite x && s.targetBankEffectiveSelect)
  | true => s.armedWrite x && !s.targetBankEffectiveSelect

/-- `muted_i` -/
def muted : Bool :=
  x.aborts ||
    (x.arm && (x.armImmediate || timestampReached x.timestamp x.targetTimestamp)) ||
    s.state == .muted || s.state == .error ||
    (s.state == .armed && (s.immediate || s.targetReached x))

/-- The process `state_machine`, beside the other registers. -/
def stateMachine : TxRetuneGate :=
  let s₀ : TxRetuneGate := { s with muteStartEvent := false, resumeEvent := false }
  let s₁ : TxRetuneGate :=
    if !x.aborts && s.state == .armed && s.replacementComparePending then
      { s₀ with targetBankSelect := s.nextBankSelect }
    else s₀
  let mute (s : TxRetuneGate) : TxRetuneGate :=
    { s with state := .muted, muteStartTimestamp := x.timestamp, muteStartEvent := true }
  if x.aborts then
    let s₂ : TxRetuneGate := { s₁ with state := .error, replacementComparePending := false }
    if s.state ≠ .muted ∧ s.state ≠ .error then
      { s₂ with muteStartTimestamp := x.timestamp, muteStartEvent := true }
    else s₂
  else if x.arm then
    match s.state with
    | .active =>
        let s₂ : TxRetuneGate :=
          { s₁ with
            targetBankSelect := false
            replacementComparePending := false
            immediate := x.armImmediate }
        if x.armImmediate || timestampReached x.timestamp x.targetTimestamp then mute s₂
        else { s₂ with state := .armed }
    | .error =>
        { s₁ with
          targetBankSelect := false
          replacementComparePending := false
          immediate := x.armImmediate
          state := .muted }
    | .armed =>
        if x.armImmediate || s.targetReached x then
          mute { s₁ with replacementComparePending := false }
        else { s₁ with replacementComparePending := true }
    | .muted => s₁
  else if s.state = .armed then
    let s₂ : TxRetuneGate := { s₁ with replacementComparePending := false }
    if s.immediate || s.targetReached x then mute s₂ else s₂
  else if s.state = .muted ∧ x.complete = true then
    { s₁ with state := .active, immediate := false, resumeEvent := true }
  else s₁

def clock : TxRetuneGate :=
  { s.stateMachine x with
    targetBank := fun b => if s.bankWriteEn x b then x.targetTimestamp else s.targetBank b
    targetAfterBank := fun b => timestampAfter (s.targetAfterStage1Bank b)
    targetAfterStage1Bank := fun b => timestampOrderParts (s.targetBank b) x.targetTimestamp
    mutedSampleCount :=
      if s.muted x && x.anyValid then s.mutedSampleCount + 1 else s.mutedSampleCount }

end Clock

/-- The registers before clock `t` after a reset. -/
def regs (i : ℕ → Input n) : ℕ → TxRetuneGate :=
  Lib.trace (fun t s => s.clock (i t)) {}

end TxRetuneGate

/-! ## The DAC output -/

/-- The registers of `tx_dac_output`. -/
structure TxDacOutput (n : ℕ) where
  hold : Fin n → SampleStream := fun _ => {}
  zero : Fin n → Bool := fun _ => true

namespace TxDacOutput

variable {n : ℕ}

/-- The process `registers`. -/
def clock (d : TxDacOutput n) (inSamples : Fin n → SampleStream) (muted : Bool) :
    TxDacOutput n where
  hold := fun l => if (inSamples l).dataV then inSamples l else d.hold l
  zero := fun l => muted || (d.zero l && !(inSamples l).dataV)

/-- The process `select_zero`. -/
def outSamples (d : TxDacOutput n) (l : Fin n) : SampleStream :=
  if d.zero l then ⟨0, 0, true⟩ else { d.hold l with dataV := true }

end TxDacOutput

namespace TxRetuneGate

variable {n : ℕ}

/-! ## One clock -/

section Clock

variable {s : TxRetuneGate} {x : Input n}

/-- `STATE_MUTED` or `STATE_ERROR`. -/
def Shut (s : TxRetuneGate) : Prop :=
  s.state = .muted ∨ s.state = .error

theorem clock_abort (ha : x.aborts = true) : (s.clock x).state = .error := by
  show (s.stateMachine x).state = .error
  unfold stateMachine
  simp only [ha, if_true]
  split
  · rfl
  · rfl

theorem clock_error (hs : s.state = .error) (ha : x.aborts = false) :
    (s.clock x).state = if x.arm then .muted else .error := by
  show (s.stateMachine x).state = _
  unfold stateMachine
  cases x.arm with
  | true => simp [hs, ha]
  | false => simp [hs, ha]

theorem clock_muted (hs : s.state = .muted) (ha : x.aborts = false) :
    (s.clock x).state = if !x.arm && x.complete then .active else .muted := by
  show (s.stateMachine x).state = _
  unfold stateMachine
  cases x.arm with
  | true => simp [hs, ha]
  | false =>
      cases x.complete with
      | true => simp [hs, ha]
      | false => simp [hs, ha]

theorem clock_active (hs : s.state = .active) (ha : x.aborts = false) :
    (s.clock x).state =
      if x.arm then
        if x.armImmediate || timestampReached x.timestamp x.targetTimestamp then .muted
        else .armed
      else .active := by
  show (s.stateMachine x).state = _
  unfold stateMachine
  cases x.arm with
  | true =>
      cases x.armImmediate || timestampReached x.timestamp x.targetTimestamp with
      | true => simp [hs, ha]
      | false => simp [hs, ha]
  | false => simp [hs, ha]

theorem clock_active_arm (hs : s.state = .active) (ha : x.aborts = false) (harm : x.arm = true)
    (hdue : (x.armImmediate || timestampReached x.timestamp x.targetTimestamp) = false) :
    (s.clock x).targetBankSelect = false ∧ (s.clock x).replacementComparePending = false ∧
      (s.clock x).immediate = false := by
  obtain ⟨himm, hahead⟩ := Bool.or_eq_false_iff.mp hdue
  show (s.stateMachine x).targetBankSelect = false ∧
    (s.stateMachine x).replacementComparePending = false ∧ (s.stateMachine x).immediate = false
  unfold stateMachine
  simp [hs, ha, harm, himm, hahead]

theorem clock_armed (hs : s.state = .armed) (ha : x.aborts = false) (himm : s.immediate = false) :
    (s.clock x).state =
      if (x.arm && x.armImmediate) || s.targetReached x then .muted else .armed := by
  show (s.stateMachine x).state = _
  unfold stateMachine
  cases x.arm with
  | true =>
      cases hdue : x.armImmediate || s.targetReached x with
      | true => cases s.replacementComparePending <;> simp [hs, ha, hdue]
      | false => cases s.replacementComparePending <;> simp [hs, ha, hdue]
  | false =>
      cases s.targetReached x with
      | true => cases s.replacementComparePending <;> simp [hs, ha, himm]
      | false => cases s.replacementComparePending <;> simp [hs, ha, himm]

theorem clock_armed_wait (hs : s.state = .armed) (ha : x.aborts = false)
    (himm : s.immediate = false)
    (hdue : ((x.arm && x.armImmediate) || s.targetReached x) = false) :
    (s.clock x).targetBankSelect = s.targetBankEffectiveSelect ∧
      (s.clock x).replacementComparePending = x.arm ∧ (s.clock x).immediate = false := by
  obtain ⟨hnow, hreached⟩ := Bool.or_eq_false_iff.mp hdue
  show (s.stateMachine x).targetBankSelect = _ ∧ (s.stateMachine x).replacementComparePending = _ ∧
    (s.stateMachine x).immediate = _
  unfold stateMachine targetBankEffectiveSelect
  cases harm : x.arm with
  | true =>
      rw [harm, Bool.true_and] at hnow
      cases s.replacementComparePending <;> simp [hs, ha, hnow, hreached, himm]
  | false =>
      cases s.replacementComparePending <;> simp [hs, ha, hreached, himm]

theorem clock_event (s : TxRetuneGate) (x : Input n) :
    ((s.clock x).muteStartEvent = true ↔ ¬s.Shut ∧ (s.clock x).Shut) ∧
      (s.clock x).muteStartTimestamp =
        if (s.clock x).muteStartEvent then x.timestamp else s.muteStartTimestamp := by
  show ((s.stateMachine x).muteStartEvent = true ↔ ¬s.Shut ∧
      ((s.stateMachine x).state = .muted ∨ (s.stateMachine x).state = .error)) ∧
    (s.stateMachine x).muteStartTimestamp =
      if (s.stateMachine x).muteStartEvent then x.timestamp else s.muteStartTimestamp
  unfold stateMachine Shut
  cases hs : s.state with
  | active =>
      cases x.aborts <;> cases x.arm <;> simp
      all_goals split <;> simp
  | armed =>
      cases x.aborts <;> cases s.replacementComparePending <;> cases x.arm <;> simp
      all_goals split <;> simp
  | muted =>
      cases x.aborts <;> cases x.arm <;> simp
      all_goals split <;> simp
  | error => cases x.aborts <;> cases x.arm <;> simp

end Clock

/-! ## When the gate has to mute -/

def ArmTaken (s : TxRetuneGate) (x : Input n) : Prop :=
  x.arm = true ∧ x.aborts = false ∧ s.state ≠ .muted

def CompleteTaken (s : TxRetuneGate) (x : Input n) : Prop :=
  s.state = .muted ∧ x.complete = true ∧ x.aborts = false ∧ x.arm = false

instance (s : TxRetuneGate) (x : Input n) : Decidable (ArmTaken s x) :=
  inferInstanceAs (Decidable (_ ∧ _))

instance (s : TxRetuneGate) (x : Input n) : Decidable (CompleteTaken s x) :=
  inferInstanceAs (Decidable (_ ∧ _))

section Law

variable (i : ℕ → Input n)

/-- No COMPLETE was taken from clock `j` up to clock `t`. -/
def Stands (j t : ℕ) : Prop :=
  ∀ c, j ≤ c → c < t → ¬CompleteTaken (regs i c) (i c)

/-- Clock `j` calls for the mute by what happens before clock `t`: an ABORT or an
underflow, or an ARM that is immediate or whose target has been reached. -/
def Calls (j t : ℕ) : Prop :=
  (i j).aborts = true ∨
    ArmTaken (regs i j) (i j) ∧ ((i j).armImmediate = true ∨
      ∃ k, j ≤ k ∧ k < t ∧ timestampReached (i k).timestamp (i j).targetTimestamp = true)

/-- The gate has to mute on clock `t`. -/
def Due (t : ℕ) : Prop :=
  ∃ j ≤ t, Stands i j t ∧ Calls i j (t + 1)

def DueBefore (t : ℕ) : Prop :=
  ∃ j < t, Stands i j t ∧ Calls i j t

/-- The ARM of clock `j` waits for its target. -/
def Requested (t j : ℕ) : Prop :=
  j < t ∧ ArmTaken (regs i j) (i j) ∧ Stands i j t

variable {i} {j t : ℕ}

theorem Stands.self (t : ℕ) : Stands i t t := by
  intro c htc hct
  omega

theorem stands_succ (hjt : j ≤ t) :
    Stands i j (t + 1) ↔ Stands i j t ∧ ¬CompleteTaken (regs i t) (i t) := by
  constructor
  · intro h
    exact ⟨fun c hjc hct => h c hjc (by omega), h t hjt (Nat.lt_succ_self t)⟩
  · rintro ⟨h, ht⟩ c hjc hct
    rcases Nat.lt_succ_iff_lt_or_eq.mp hct with hlt | rfl
    · exact h c hjc hlt
    · exact ht

theorem Calls.mono {t' : ℕ} (h : Calls i j t) (ht : t ≤ t') : Calls i j t' := by
  rcases h with habort | ⟨harm, himm | ⟨k, hjk, hkt, hreached⟩⟩
  · exact .inl habort
  · exact .inr ⟨harm, .inl himm⟩
  · exact .inr ⟨harm, .inr ⟨k, hjk, by omega, hreached⟩⟩

theorem dueBefore_succ :
    DueBefore i (t + 1) ↔ Due i t ∧ ¬CompleteTaken (regs i t) (i t) := by
  constructor
  · rintro ⟨j, hjt, hstands, hcalls⟩
    obtain ⟨hstands, hno⟩ := (stands_succ (by omega)).mp hstands
    exact ⟨⟨j, by omega, hstands, hcalls⟩, hno⟩
  · rintro ⟨⟨j, hjt, hstands, hcalls⟩, hno⟩
    exact ⟨j, by omega, (stands_succ hjt).mpr ⟨hstands, hno⟩, hcalls⟩

theorem requested_succ : Requested i (t + 1) j ↔
    (Requested i t j ∨ j = t ∧ ArmTaken (regs i t) (i t)) ∧
      ¬CompleteTaken (regs i t) (i t) := by
  constructor
  · rintro ⟨hjt, harm, hstands⟩
    obtain ⟨hstands, hno⟩ := (stands_succ (by omega)).mp hstands
    refine ⟨?_, hno⟩
    rcases Nat.lt_succ_iff_lt_or_eq.mp hjt with hlt | rfl
    · exact .inl ⟨hlt, harm, hstands⟩
    · exact .inr ⟨rfl, harm⟩
  · rintro ⟨⟨hjt, harm, hstands⟩ | ⟨rfl, harm⟩, hno⟩
    · exact ⟨by omega, harm, (stands_succ (by omega)).mpr ⟨hstands, hno⟩⟩
    · exact ⟨by omega, harm, (stands_succ (Nat.le_refl _)).mpr ⟨.self _, hno⟩⟩

theorem due_iff : Due i t ↔ DueBefore i t ∨ (i t).aborts = true ∨
    (ArmTaken (regs i t) (i t) ∧ ((i t).armImmediate = true ∨
      timestampReached (i t).timestamp (i t).targetTimestamp = true)) ∨
    ∃ j, Requested i t j ∧ timestampReached (i t).timestamp (i j).targetTimestamp = true := by
  constructor
  · rintro ⟨j, hjt, hstands, hcalls⟩
    rcases Nat.lt_or_eq_of_le hjt with hlt | rfl
    · rcases hcalls with habort | ⟨harm, himm | ⟨k, hjk, hkt, hreached⟩⟩
      · exact .inl ⟨j, hlt, hstands, .inl habort⟩
      · exact .inl ⟨j, hlt, hstands, .inr ⟨harm, .inl himm⟩⟩
      · rcases Nat.lt_succ_iff_lt_or_eq.mp hkt with hk | rfl
        · exact .inl ⟨j, hlt, hstands, .inr ⟨harm, .inr ⟨k, hjk, hk, hreached⟩⟩⟩
        · exact .inr (.inr (.inr ⟨j, ⟨hlt, harm, hstands⟩, hreached⟩))
    · rcases hcalls with habort | ⟨harm, himm | ⟨k, hjk, hkt, hreached⟩⟩
      · exact .inr (.inl habort)
      · exact .inr (.inr (.inl ⟨harm, .inl himm⟩))
      · obtain rfl : k = j := by omega
        exact .inr (.inr (.inl ⟨harm, .inr hreached⟩))
  · rintro (⟨j, hjt, hstands, hcalls⟩ | habort | ⟨harm, hnow⟩ | ⟨j, ⟨hjt, harm, hstands⟩, hreached⟩)
    · exact ⟨j, by omega, hstands, hcalls.mono (by omega)⟩
    · exact ⟨t, Nat.le_refl t, .self t, .inl habort⟩
    · refine ⟨t, Nat.le_refl t, .self t, .inr ⟨harm, ?_⟩⟩
      exact hnow.imp id fun h => ⟨t, Nat.le_refl t, Nat.lt_succ_self t, h⟩
    · exact ⟨j, by omega, hstands,
        .inr ⟨harm, .inr ⟨t, by omega, Nat.lt_succ_self t, hreached⟩⟩⟩

end Law

/-! ## The banks -/

/-- A replacement is not due while the gate compares it: neither at its ARM nor at
the next clock, unless the mute starts then anyway. -/
def Prompt (s : TxRetuneGate) (x : Input n) : Prop :=
  s.state = .armed → x.aborts = false → (x.arm && x.armImmediate) = false →
    s.targetReached x = false →
    (x.arm = true → timestampReached x.timestamp x.targetTimestamp = false) ∧
    (s.replacementComparePending = true →
      timestampReached x.timestamp (s.targetBank (!s.targetBankSelect)) = false)

section Bank

variable {s : TxRetuneGate} {x : Input n}

instance : Decidable (s.Prompt x) :=
  inferInstanceAs (Decidable (_ → _ → _ → _ → _))

theorem effectiveSelect_of_pending (hs : s.state = .armed)
    (hp : s.replacementComparePending = true) :
    s.targetBankEffectiveSelect =
      (s.targetBankSelect ^^ s.targetAfterBank s.targetBankSelect) := by
  rw [targetBankEffectiveSelect, if_pos ⟨hs, hp⟩, nextBankSelect]
  cases hsel : s.targetBankSelect <;> simp

theorem effectiveSelect_of_settled (hp : s.replacementComparePending = false) :
    s.targetBankEffectiveSelect = s.targetBankSelect := by
  rw [targetBankEffectiveSelect, if_neg (by simp [hp])]

theorem clock_armed_bank (hs : s.state = .armed) (ha : x.aborts = false) (b : Bool) :
    (s.clock x).targetBank b =
      if x.arm && (b != s.targetBankEffectiveSelect) then x.targetTimestamp
      else s.targetBank b := by
  show (if s.bankWriteEn x b then x.targetTimestamp else s.targetBank b) = _
  have hen : s.bankWriteEn x b = (x.arm && (b != s.targetBankEffectiveSelect)) := by
    cases b <;> simp [bankWriteEn, activeWrite, armedWrite, hs, ha]
  rw [hen]

theorem Prompt.effective (h : s.Prompt x) (hs : s.state = .armed) (ha : x.aborts = false)
    (himm : (x.arm && x.armImmediate) = false) (hsel : s.targetReached x = false) :
    timestampReached x.timestamp (s.targetBank s.targetBankEffectiveSelect) = false := by
  cases hp : s.replacementComparePending with
  | false =>
      rw [effectiveSelect_of_settled hp]
      exact hsel
  | true =>
      have hother := (h hs ha himm hsel).2 hp
      rw [effectiveSelect_of_pending hs hp]
      cases s.targetAfterBank s.targetBankSelect with
      | false =>
          rw [Bool.xor_false]
          exact hsel
      | true =>
          rw [Bool.xor_true]
          exact hother

end Bank

section Track

variable (i : ℕ → Input n)

structure Waiting (t : ℕ) (s : TxRetuneGate) : Prop where
  immediate : s.immediate = false
  selected : ∃ j, Requested i t j ∧ (i j).targetTimestamp = s.targetBank s.targetBankSelect
  effective : ∃ j, Requested i t j ∧
    (i j).targetTimestamp = s.targetBank s.targetBankEffectiveSelect
  earliest : ∀ j, Requested i t j →
    (s.targetBank s.targetBankEffectiveSelect - (i (t - 1)).timestamp).toNat ≤
      ((i j).targetTimestamp - (i (t - 1)).timestamp).toNat
  ahead : ∀ j, Requested i t j →
    timestampReached (i (t - 1)).timestamp (i j).targetTimestamp = false

/-- The first stage of the comparison is about the target of the clock before,
and about a bank that has not been written since or holds that target. -/
def Staged (t : ℕ) (s : TxRetuneGate) : Prop :=
  ∀ b, ∃ old, s.targetAfterStage1Bank b =
      timestampOrderParts old (i (t - 1)).targetTimestamp ∧
    (s.targetBank b = old ∨ s.targetBank b = (i (t - 1)).targetTimestamp)

/-- The registers before clock `t` know what is due. -/
structure Tracks (t : ℕ) : Prop where
  shut : (regs i t).Shut ↔ DueBefore i t
  active : (regs i t).state = .active → ∀ j, ¬Requested i t j
  armed : (regs i t).state = .armed → 0 < t ∧ Waiting i t (regs i t)
  staged : 0 < t → Staged i t (regs i t)

def Ordered (t : ℕ) : Prop :=
  0 < t → timestampReached (i t).timestamp (i (t - 1)).timestamp = true

/-- The target of an ARM is on the line since the clock before. -/
def Steady (t : ℕ) : Prop :=
  0 < t → (i t).arm = true → (i t).armImmediate = false →
    (i (t - 1)).targetTimestamp = (i t).targetTimestamp

instance (t : ℕ) : Decidable (Ordered i t) :=
  inferInstanceAs (Decidable (_ → _))

instance (t : ℕ) : Decidable (Steady i t) :=
  inferInstanceAs (Decidable (_ → _ → _ → _))

variable {i} {t : ℕ}

theorem staged_clock (s : TxRetuneGate) : Staged i (t + 1) (s.clock (i t)) := by
  intro b
  refine ⟨s.targetBank b, rfl, ?_⟩
  have hbank : (s.clock (i t)).targetBank b =
      if s.bankWriteEn (i t) b then (i t).targetTimestamp else s.targetBank b := rfl
  rw [hbank]
  split
  · exact .inr rfl
  · exact .inl rfl

variable {s : TxRetuneGate}

section

variable (h : Waiting i t s)

include h

theorem Waiting.reached_iff
    (htime : timestampReached (i t).timestamp (i (t - 1)).timestamp = true) :
    (∃ j, Requested i t j ∧
      timestampReached (i t).timestamp (i j).targetTimestamp = true) ↔
    timestampReached (i t).timestamp (s.targetBank s.targetBankEffectiveSelect) = true := by
  obtain ⟨k, hk, hbank⟩ := h.effective
  constructor
  · rintro ⟨j, hj, hreached⟩
    have hle := h.earliest j hj
    rw [reached_later htime (h.ahead j hj)] at hreached
    rw [← hbank] at hle ⊢
    rw [reached_later htime (h.ahead k hk)]
    omega
  · intro hreached
    rw [← hbank] at hreached
    exact ⟨k, hk, hreached⟩

theorem Waiting.due_iff (hs : s.state = .armed) (hbefore : ¬DueBefore i t)
    (htime : timestampReached (i t).timestamp (i (t - 1)).timestamp = true)
    (hprompt : s.Prompt (i t)) (ha : (i t).aborts = false)
    (himm : ((i t).arm && (i t).armImmediate) = false) :
    Due i t ↔ s.targetReached (i t) = true := by
  rw [TxRetuneGate.due_iff, h.reached_iff htime]
  constructor
  · intro hdue
    by_contra hsel
    have hsel := Bool.not_eq_true _ ▸ hsel
    rcases hdue with hdue | hdue | ⟨⟨harm, -, -⟩, hdue⟩ | hdue
    · exact hbefore hdue
    · exact absurd (ha.symm.trans hdue) Bool.false_ne_true
    · rw [harm, Bool.true_and] at himm
      rcases hdue with hdue | hdue
      · exact absurd (himm.symm.trans hdue) Bool.false_ne_true
      · have himm' : ((i t).arm && (i t).armImmediate) = false := by simp [himm]
        exact absurd (((hprompt hs ha himm' hsel).1 harm).symm.trans hdue) Bool.false_ne_true
    · exact absurd ((hprompt.effective hs ha himm hsel).symm.trans hdue) Bool.false_ne_true
  · intro hsel
    obtain ⟨j, hj, hbank⟩ := h.selected
    refine .inr (.inr (.inr ((h.reached_iff htime).mp ⟨j, hj, ?_⟩)))
    rw [hbank]
    exact hsel

theorem Waiting.later
    (htime : timestampReached (i t).timestamp (i (t - 1)).timestamp = true)
    (heff : timestampReached (i t).timestamp (s.targetBank s.targetBankEffectiveSelect) = false)
    {j : ℕ} (hj : Requested i t j) :
    timestampReached (i t).timestamp (i j).targetTimestamp = false ∧
      (s.targetBank s.targetBankEffectiveSelect - (i t).timestamp).toNat ≤
        ((i j).targetTimestamp - (i t).timestamp).toNat := by
  obtain ⟨k, hk, hbank⟩ := h.effective
  have hahead : timestampReached (i t).timestamp (i j).targetTimestamp = false := by
    by_contra hreached
    have := (h.reached_iff htime).mp ⟨j, hj, Bool.not_eq_false _ ▸ hreached⟩
    exact absurd (heff.symm.trans this) Bool.false_ne_true
  refine ⟨hahead, ?_⟩
  have hle := h.earliest j hj
  rw [← hbank] at hle heff ⊢
  have hk' := ahead_later htime (h.ahead k hk) heff
  have hj' := ahead_later htime (h.ahead j hj) hahead
  omega

theorem Waiting.settle (hs : s.state = .armed)
    (htime : timestampReached (i t).timestamp (i (t - 1)).timestamp = true)
    (hprompt : s.Prompt (i t)) (ha : (i t).aborts = false) (harm : (i t).arm = false)
    (hsel : s.targetReached (i t) = false)
    (hsame : ∀ j, Requested i (t + 1) j ↔ Requested i t j) :
    Waiting i (t + 1) (s.clock (i t)) := by
  have himm : ((i t).arm && (i t).armImmediate) = false := by simp [harm]
  have heff := hprompt.effective hs ha himm hsel
  obtain ⟨hselect, hpending, himmediate⟩ :=
    clock_armed_wait hs ha h.immediate (by simp [himm, hsel])
  have hbank : ∀ b, (s.clock (i t)).targetBank b = s.targetBank b := by
    intro b
    rw [clock_armed_bank hs ha, harm, Bool.false_and, if_neg Bool.false_ne_true]
  have heffective := effectiveSelect_of_settled (hpending.trans harm)
  obtain ⟨k, hk, hbankk⟩ := h.effective
  refine ⟨himmediate, ⟨k, (hsame k).mpr hk, ?_⟩, ⟨k, (hsame k).mpr hk, ?_⟩, ?_, ?_⟩
  · rw [hselect, hbank, hbankk]
  · rw [heffective, hselect, hbank, hbankk]
  · intro j hj
    rw [heffective, hselect, hbank]
    exact (h.later htime heff ((hsame j).mp hj)).2
  · intro j hj
    exact (h.later htime heff ((hsame j).mp hj)).1

theorem Waiting.replace (hs : s.state = .armed)
    (htime : timestampReached (i t).timestamp (i (t - 1)).timestamp = true)
    (hprompt : s.Prompt (i t)) (ha : (i t).aborts = false) (harm : (i t).arm = true)
    (himm : (i t).armImmediate = false) (hsel : s.targetReached (i t) = false)
    (hstaged : Staged i t s)
    (hsteady : (i (t - 1)).targetTimestamp = (i t).targetTimestamp)
    (hnew : ∀ j, Requested i (t + 1) j ↔ Requested i t j ∨ j = t) :
    Waiting i (t + 1) (s.clock (i t)) := by
  have hnow : ((i t).arm && (i t).armImmediate) = false := by simp [himm]
  have heff := hprompt.effective hs ha hnow hsel
  have htarget := (hprompt hs ha hnow hsel).1 harm
  obtain ⟨hselect, hpending, himmediate⟩ :=
    clock_armed_wait hs ha h.immediate (by simp [hnow, hsel])
  have hstate : (s.clock (i t)).state = .armed := by
    rw [clock_armed hs ha h.immediate, if_neg (by simp [hnow, hsel])]
  have hkept : (s.clock (i t)).targetBank s.targetBankEffectiveSelect =
      s.targetBank s.targetBankEffectiveSelect := by
    rw [clock_armed_bank hs ha]
    simp
  have hwritten : (s.clock (i t)).targetBank (!s.targetBankEffectiveSelect) =
      (i t).targetTimestamp := by
    rw [clock_armed_bank hs ha, harm]
    simp
  obtain ⟨k, hk, hbankk⟩ := h.effective
  have hlater : ∀ j, Requested i t j → _ := fun j hj => h.later htime heff hj
  -- the value behind the comparison, whichever bank has it
  have hvalue : ((s.clock (i t)).targetBank (s.clock (i t)).targetBankEffectiveSelect =
        s.targetBank s.targetBankEffectiveSelect ∧
      (s.targetBank s.targetBankEffectiveSelect - (i t).timestamp).toNat ≤
        ((i t).targetTimestamp - (i t).timestamp).toNat) ∨
    ((s.clock (i t)).targetBank (s.clock (i t)).targetBankEffectiveSelect =
        (i t).targetTimestamp ∧
      ((i t).targetTimestamp - (i t).timestamp).toNat ≤
        (s.targetBank s.targetBankEffectiveSelect - (i t).timestamp).toNat) := by
    rw [effectiveSelect_of_pending hstate (hpending.trans harm), hselect]
    have hafter : (s.clock (i t)).targetAfterBank s.targetBankEffectiveSelect =
        timestampAfter (s.targetAfterStage1Bank s.targetBankEffectiveSelect) := rfl
    obtain ⟨old, hparts, hold⟩ := hstaged s.targetBankEffectiveSelect
    rw [hafter, hparts, hsteady]
    rw [hsteady] at hold
    rcases hold with rfl | hsame
    · cases hcmp : timestampAfter (timestampOrderParts
        (s.targetBank s.targetBankEffectiveSelect) (i t).targetTimestamp) with
      | false =>
          rw [Bool.xor_false, hkept]
          have hno := (after_ahead heff htarget).not.mp (by simp [hcmp])
          exact .inl ⟨rfl, by omega⟩
      | true =>
          rw [Bool.xor_true, hwritten]
          have hyes := (after_ahead heff htarget).mp hcmp
          exact .inr ⟨rfl, by omega⟩
    · cases timestampAfter (timestampOrderParts old (i t).targetTimestamp) with
      | false =>
          rw [Bool.xor_false, hkept, hsame]
          exact .inl ⟨rfl, Nat.le_refl _⟩
      | true =>
          rw [Bool.xor_true, hwritten, hsame]
          exact .inr ⟨rfl, Nat.le_refl _⟩
  refine ⟨himmediate, ⟨k, (hnew k).mpr (.inl hk), ?_⟩, ?_, ?_, ?_⟩
  · rw [hselect, hkept, hbankk]
  · rcases hvalue with ⟨heq, -⟩ | ⟨heq, -⟩
    · exact ⟨k, (hnew k).mpr (.inl hk), hbankk.trans heq.symm⟩
    · exact ⟨t, (hnew t).mpr (.inr rfl), heq.symm⟩
  · intro j hj
    rw [Nat.add_sub_cancel]
    rcases (hnew j).mp hj with hj | rfl
    · have hle := (hlater j hj).2
      rcases hvalue with ⟨heq, -⟩ | ⟨heq, hle'⟩
      · rw [heq]
        exact hle
      · rw [heq]
        exact hle'.trans hle
    · rcases hvalue with ⟨heq, hle'⟩ | ⟨heq, -⟩
      · rw [heq]
        exact hle'
      · rw [heq]
  · intro j hj
    rw [Nat.add_sub_cancel]
    rcases (hnew j).mp hj with hj | rfl
    · exact (hlater j hj).1
    · exact htarget

end

theorem waiting_first (hs : s.state = .active) (ha : (i t).aborts = false)
    (harm : (i t).arm = true) (himm : (i t).armImmediate = false)
    (hahead : timestampReached (i t).timestamp (i t).targetTimestamp = false)
    (hnew : ∀ j, Requested i (t + 1) j ↔ j = t) : Waiting i (t + 1) (s.clock (i t)) := by
  obtain ⟨hselect, hpending, himmediate⟩ := clock_active_arm hs ha harm (by simp [himm, hahead])
  have heffective := effectiveSelect_of_settled hpending
  have hbank : (s.clock (i t)).targetBank false = (i t).targetTimestamp := by
    show (if s.bankWriteEn (i t) false then (i t).targetTimestamp else s.targetBank false) = _
    rw [if_pos (by simp [bankWriteEn, activeWrite, hs, ha, harm])]
  refine ⟨himmediate, ⟨t, (hnew t).mpr rfl, ?_⟩, ⟨t, (hnew t).mpr rfl, ?_⟩, ?_, ?_⟩
  · rw [hselect, hbank]
  · rw [heffective, hselect, hbank]
  · intro j hj
    rw [heffective, hselect, hbank, (hnew j).mp hj]
  · intro j hj
    rw [Nat.add_sub_cancel, (hnew j).mp hj]
    exact hahead

theorem muted_of_shut {x : Input n} (h : s.Shut) : s.muted x = true := by
  rcases h with hs | hs <;> simp [muted, hs]

theorem not_completeTaken {x : Input n} (h : ¬s.Shut) :
    ¬CompleteTaken s x :=
  fun hc => h (.inl hc.1)

theorem shut_clock_iff {x : Input n} (hopen : ¬s.Shut)
    (himm : s.state = .armed → s.immediate = false) (hprompt : s.Prompt x) :
    (s.clock x).Shut ↔ s.muted x = true := by
  cases ha : x.aborts with
  | true =>
      have hmuted : s.muted x = true := by simp [muted, ha]
      exact ⟨fun _ => hmuted, fun _ => .inr (clock_abort ha)⟩
  | false =>
      unfold Shut
      cases hs : s.state with
      | active =>
          rw [clock_active hs ha]
          cases harm : x.arm with
          | false => simp [muted, hs, ha, harm]
          | true =>
              cases hdue : x.armImmediate || timestampReached x.timestamp x.targetTimestamp <;>
                simp [muted, hs, ha, harm, hdue]
      | armed =>
          have himm := himm hs
          rw [clock_armed hs ha himm]
          cases hnow : (x.arm && x.armImmediate) || s.targetReached x with
          | true =>
              rcases Bool.or_eq_true_iff.mp hnow with h | h
              · obtain ⟨harm, hi⟩ := Bool.and_eq_true_iff.mp h
                simp [muted, harm, hi]
              · simp [muted, hs, h]
          | false =>
              obtain ⟨hnow, hsel⟩ := Bool.or_eq_false_iff.mp hnow
              have htarget := (hprompt hs ha hnow hsel).1
              cases harm : x.arm with
              | false => simp [muted, hs, ha, harm, himm, hsel]
              | true =>
                  rw [harm, Bool.true_and] at hnow
                  simp [muted, hs, ha, harm, himm, hsel, hnow, htarget harm]
      | muted => exact absurd (.inl hs) hopen
      | error => exact absurd (.inr hs) hopen

theorem Tracks.immediate (h : Tracks i t) : (regs i t).state = .armed →
    (regs i t).immediate = false :=
  fun hs => (h.armed hs).2.immediate

theorem Tracks.due_iff (h : Tracks i t) (hprompt : (regs i t).Prompt (i t))
    (htime : Ordered i t) : Due i t ↔ (regs i t).muted (i t) = true := by
  by_cases hshut : (regs i t).Shut
  · refine ⟨fun _ => muted_of_shut hshut, fun _ => ?_⟩
    rw [TxRetuneGate.due_iff]
    exact .inl (h.shut.mp hshut)
  · have hbefore : ¬DueBefore i t := fun hd => hshut (h.shut.mpr hd)
    cases ha : (i t).aborts with
    | true =>
        have hmuted : (regs i t).muted (i t) = true := by simp [muted, ha]
        refine ⟨fun _ => hmuted, fun _ => ?_⟩
        rw [TxRetuneGate.due_iff]
        exact .inr (.inl ha)
    | false =>
        cases hs : (regs i t).state with
        | active =>
            have hno : ¬∃ j, Requested i t j ∧
                timestampReached (i t).timestamp (i j).targetTimestamp = true := by
              rintro ⟨j, hj, -⟩
              exact h.active hs j hj
            rw [TxRetuneGate.due_iff]
            simp [hbefore, ha, hno, ArmTaken, hs, muted]
        | armed =>
            obtain ⟨hpos, hw⟩ := h.armed hs
            cases hnow : (i t).arm && (i t).armImmediate with
            | true =>
                obtain ⟨harm, hi⟩ := Bool.and_eq_true_iff.mp hnow
                have hmuted : (regs i t).muted (i t) = true := by simp [muted, harm, hi]
                refine ⟨fun _ => hmuted, fun _ => ?_⟩
                rw [TxRetuneGate.due_iff]
                refine .inr (.inr (.inl ⟨⟨harm, ha, ?_⟩, .inl hi⟩))
                rw [hs]
                decide
            | false =>
                rw [hw.due_iff hs hbefore (htime hpos) hprompt ha hnow,
                  ← shut_clock_iff hshut h.immediate hprompt, Shut, clock_armed hs ha hw.immediate,
                  hnow, Bool.false_or]
                cases (regs i t).targetReached (i t) <;> simp
        | muted => exact absurd (.inl hs) hshut
        | error => exact absurd (.inr hs) hshut

theorem Tracks.shut_succ (h : Tracks i t) (hprompt : (regs i t).Prompt (i t))
    (htime : Ordered i t) : (regs i (t + 1)).Shut ↔ DueBefore i (t + 1) := by
  rw [dueBefore_succ, h.due_iff hprompt htime]
  show ((regs i t).clock (i t)).Shut ↔ _
  by_cases hshut : (regs i t).Shut
  · rw [show (regs i t).muted (i t) = true from muted_of_shut hshut]
    cases ha : (i t).aborts with
    | true =>
        simp only [true_and]
        refine ⟨fun _ hc => ?_, fun _ => .inr (clock_abort ha)⟩
        exact absurd (hc.2.2.1.symm.trans ha) Bool.false_ne_true
    | false =>
        unfold Shut CompleteTaken
        rcases hshut with hs | hs
        · rw [clock_muted hs ha]
          cases harm : (i t).arm <;> cases hc : (i t).complete <;> simp [hs, ha]
        · rw [clock_error hs ha]
          cases harm : (i t).arm <;> simp [hs]
  · rw [shut_clock_iff hshut h.immediate hprompt]
    exact ⟨fun hm => ⟨hm, not_completeTaken hshut⟩, And.left⟩

theorem Tracks.clock (h : Tracks i t) (hprompt : (regs i t).Prompt (i t))
    (htime : Ordered i t) (hsteady : Steady i t) : Tracks i (t + 1) := by
  have hshut' := h.shut_succ hprompt htime
  refine ⟨hshut', ?_, ?_, fun _ => staged_clock _⟩
  · intro hactive j hj
    have hopen' : ¬(regs i (t + 1)).Shut := by
      unfold Shut
      rw [hactive]
      decide
    obtain ⟨hj, hno⟩ := requested_succ.mp hj
    change ((regs i t).clock (i t)).state = .active at hactive
    by_cases ha : (i t).aborts = true
    · exact absurd (hactive.symm.trans (clock_abort ha)) (by decide)
    · have ha := Bool.not_eq_true _ ▸ ha
      cases hs : (regs i t).state with
      | active =>
          rcases hj with hj | ⟨-, harm, -, -⟩
          · exact h.active hs j hj
          · rw [clock_active hs ha, harm, if_pos rfl] at hactive
            split at hactive <;> cases hactive
      | armed =>
          rw [clock_armed hs ha (h.immediate hs)] at hactive
          split at hactive <;> cases hactive
      | muted =>
          rw [clock_muted hs ha] at hactive
          split at hactive
          · rename_i hc
            rw [Bool.and_eq_true, Bool.not_eq_true'] at hc
            exact hno ⟨hs, hc.2, ha, hc.1⟩
          · cases hactive
      | error =>
          rw [clock_error hs ha] at hactive
          split at hactive <;> cases hactive
  · intro harmed
    refine ⟨Nat.succ_pos t, ?_⟩
    change ((regs i t).clock (i t)).state = .armed at harmed
    change Waiting i (t + 1) ((regs i t).clock (i t))
    by_cases ha : (i t).aborts = true
    · exact absurd (harmed.symm.trans (clock_abort ha)) (by decide)
    · have ha := Bool.not_eq_true _ ▸ ha
      cases hs : (regs i t).state with
      | active =>
          have hno : ¬CompleteTaken (regs i t) (i t) := fun hc => by cases hs.symm.trans hc.1
          rw [clock_active hs ha] at harmed
          split at harmed
          · rename_i harm
            split at harmed
            · cases harmed
            · rename_i hdue
              obtain ⟨himm, hahead⟩ := Bool.or_eq_false_iff.mp (Bool.not_eq_true _ ▸ hdue)
              refine waiting_first hs ha harm himm hahead ?_
              intro j
              have htaken : ArmTaken (regs i t) (i t) := ⟨harm, ha, by rw [hs]; decide⟩
              rw [requested_succ]
              refine ⟨?_, fun hj => ⟨.inr ⟨hj, htaken⟩, hno⟩⟩
              rintro ⟨hj | ⟨hj, -⟩, -⟩
              · exact absurd hj (h.active hs j)
              · exact hj
          · cases harmed
      | armed =>
          obtain ⟨hpos, hw⟩ := h.armed hs
          have hno : ¬CompleteTaken (regs i t) (i t) := fun hc => by cases hs.symm.trans hc.1
          rw [clock_armed hs ha hw.immediate] at harmed
          split at harmed
          · cases harmed
          · rename_i hnow
            have hnow := Bool.not_eq_true _ ▸ hnow
            obtain ⟨hnow, hsel⟩ := Bool.or_eq_false_iff.mp hnow
            cases harm : (i t).arm with
            | false =>
                refine hw.settle hs (htime hpos) hprompt ha harm hsel ?_
                intro j
                rw [requested_succ]
                refine ⟨?_, fun hj => ⟨.inl hj, hno⟩⟩
                rintro ⟨hj | ⟨-, hj, -⟩, -⟩
                · exact hj
                · exact absurd (harm.symm.trans hj) Bool.false_ne_true
            | true =>
                rw [harm, Bool.true_and] at hnow
                refine hw.replace hs (htime hpos) hprompt ha harm hnow hsel (h.staged hpos)
                  (hsteady hpos harm hnow) ?_
                intro j
                have htaken : ArmTaken (regs i t) (i t) := ⟨harm, ha, by rw [hs]; decide⟩
                rw [requested_succ]
                exact ⟨fun hj => hj.1.imp id And.left,
                  fun hj => ⟨hj.imp id fun hjt => ⟨hjt, htaken⟩, hno⟩⟩
      | muted =>
          rw [clock_muted hs ha] at harmed
          split at harmed <;> cases harmed
      | error =>
          rw [clock_error hs ha] at harmed
          split at harmed <;> cases harmed

/-! ## Runs -/

def dacRegs (i : ℕ → Input n) (d : TxDacOutput n) : ℕ → TxDacOutput n :=
  Lib.trace (fun t d => d.clock (i t).inSamples ((regs i t).muted (i t))) d

/-- The mute starts: it is due, and it was not or a COMPLETE ended it. -/
def Starts (i : ℕ → Input n) (t : ℕ) : Prop :=
  Due i t ∧ ¬DueBefore i t

/-- What the gate and the DAC output owe on clock `t`. -/
structure MuteLaw (i : ℕ → Input n) (t : ℕ) : Prop where
  muted : (regs i t).muted (i t) = true ↔ Due i t
  dac : Due i t → ∀ d l, ((dacRegs i d (t + 1)).outSamples l).dataI = 0 ∧
    ((dacRegs i d (t + 1)).outSamples l).dataQ = 0
  event : (regs i (t + 1)).muteStartEvent = true ↔ Starts i t
  start : Due i t → ∃ k ≤ t, Starts i k ∧ (∀ u, k < u → u ≤ t → Due i u ∧ ¬Starts i u) ∧
    (regs i (t + 1)).muteStartTimestamp = (i k).timestamp
  count : ((i t).anyValid = true ∧ Due i t →
      (regs i (t + 1)).mutedSampleCount = (regs i t).mutedSampleCount + 1) ∧
    (¬((i t).anyValid = true ∧ Due i t) →
      (regs i (t + 1)).mutedSampleCount = (regs i t).mutedSampleCount)
  ends : ∀ k ≤ t, (i k).aborts = true → ¬Due i t → ∃ a c, k < a ∧ a < c ∧ c < t ∧
    ArmTaken (regs i a) (i a) ∧ CompleteTaken (regs i c) (i c)

theorem tracks (t : ℕ)
    (hok : ∀ u < t, (regs i u).Prompt (i u) ∧ Ordered i u ∧ Steady i u) : Tracks i t := by
  induction t with
  | zero =>
      refine ⟨⟨?_, ?_⟩, ?_, (fun hs => by cases hs), fun h => absurd h (Nat.lt_irrefl 0)⟩
      · rintro (h | h) <;> cases h
      · rintro ⟨j, hj, -⟩
        exact absurd hj (Nat.not_lt_zero j)
      · rintro - j ⟨hj, -⟩
        exact absurd hj (Nat.not_lt_zero j)
  | succ t ih =>
      obtain ⟨hprompt, htime, hsteady⟩ := hok t (Nat.lt_succ_self t)
      exact (ih fun u hu => hok u (by omega)).clock hprompt htime hsteady

theorem after_abort {k u : ℕ} (hk : (i k).aborts = true) (hku : k + 1 ≤ u) :
    (Stands i k u ∧ ((regs i u).state = .error ∨
      (regs i u).state = .muted ∧ ∃ a, k < a ∧ a < u ∧ ArmTaken (regs i a) (i a))) ∨
    ∃ a c, k < a ∧ a < c ∧ c < u ∧ ArmTaken (regs i a) (i a) ∧
      CompleteTaken (regs i c) (i c) := by
  induction u, hku using Nat.le_induction with
  | base =>
      refine .inl ⟨(stands_succ (Nat.le_refl k)).mpr ⟨.self k, ?_⟩, .inl (clock_abort hk)⟩
      intro hc
      exact absurd (hc.2.2.1.symm.trans hk) Bool.false_ne_true
  | succ u hku ih =>
      rcases ih with ⟨hstands, hstate⟩ | ⟨a, c, hka, hac, hcu, ha, hc⟩
      · by_cases hdone : CompleteTaken (regs i u) (i u)
        · rcases hstate with hs | ⟨-, a, hka, hau, ha⟩
          · cases hs.symm.trans hdone.1
          · exact .inr ⟨a, u, hka, hau, by omega, ha, hdone⟩
        · refine .inl ⟨(stands_succ (by omega)).mpr ⟨hstands, hdone⟩, ?_⟩
          change ((regs i u).clock (i u)).state = .error ∨
            ((regs i u).clock (i u)).state = .muted ∧ _
          cases habort : (i u).aborts with
          | true => exact .inl (clock_abort habort)
          | false =>
              rcases hstate with hs | ⟨hs, a, hka, hau, ha⟩
              · rw [clock_error hs habort]
                cases harm : (i u).arm with
                | true =>
                    refine .inr ⟨rfl, u, by omega, Nat.lt_succ_self u, harm, habort, ?_⟩
                    rw [hs]
                    decide
                | false => exact .inl rfl
              · rw [clock_muted hs habort]
                refine .inr ⟨if_neg ?_, a, hka, by omega, ha⟩
                rw [Bool.and_eq_true, Bool.not_eq_true']
                rintro ⟨harm, hc⟩
                exact hdone ⟨hs, hc, habort, harm⟩
      · exact .inr ⟨a, c, hka, hac, by omega, ha, hc⟩

theorem dac_zero (h : (regs i t).muted (i t) = true) (d : TxDacOutput n) (l : Fin n) :
    ((dacRegs i d (t + 1)).outSamples l).dataI = 0 ∧
      ((dacRegs i d (t + 1)).outSamples l).dataQ = 0 := by
  have hzero : (dacRegs i d (t + 1)).zero l = true := by
    show ((regs i t).muted (i t) || _) = true
    rw [h, Bool.true_or]
  unfold TxDacOutput.outSamples
  rw [hzero]
  exact ⟨rfl, rfl⟩

/-- The mute follows its law up to clock `t`, if the timestamp does not decrease,
targets are stable before their ARM and no replacement is due while the gate
compares it. -/
theorem txRetuneGate_mutes (i : ℕ → Input n) (t : ℕ)
    (hprompt : ∀ u ≤ t, (regs i u).Prompt (i u)) (htime : ∀ u ≤ t, Ordered i u)
    (hsteady : ∀ u ≤ t, Steady i u) : MuteLaw i t := by
  have htracks : ∀ u ≤ t, Tracks i u := fun u hu =>
    tracks u fun v hv => ⟨hprompt v (by omega), htime v (by omega), hsteady v (by omega)⟩
  have hmuted : ∀ u ≤ t, ((regs i u).muted (i u) = true ↔ Due i u) := fun u hu =>
    ((htracks u hu).due_iff (hprompt u hu) (htime u hu)).symm
  have hevent : ∀ u ≤ t, ((regs i (u + 1)).muteStartEvent = true ↔ Starts i u) := by
    intro u hu
    rw [Starts, ← (htracks u hu).shut, ← hmuted u hu, and_comm]
    refine (clock_event (regs i u) (i u)).1.trans ?_
    refine ⟨?_, ?_⟩
    · rintro ⟨hopen, hshut⟩
      exact ⟨hopen, (shut_clock_iff hopen (htracks u hu).immediate (hprompt u hu)).mp hshut⟩
    · rintro ⟨hopen, hm⟩
      exact ⟨hopen, (shut_clock_iff hopen (htracks u hu).immediate (hprompt u hu)).mpr hm⟩
  have hstart : ∀ u ≤ t, Due i u → ∃ k ≤ u, Starts i k ∧
      (∀ v, k < v → v ≤ u → Due i v ∧ ¬Starts i v) ∧
      (regs i (u + 1)).muteStartTimestamp = (i k).timestamp := by
    intro u
    induction u with
    | zero =>
        intro hu hdue
        have hs : Starts i 0 := ⟨hdue, fun ⟨j, hj, _⟩ => absurd hj (Nat.not_lt_zero j)⟩
        refine ⟨0, Nat.le_refl 0, hs, fun v hv hv' => by omega, ?_⟩
        exact (clock_event (regs i 0) (i 0)).2.trans (if_pos ((hevent 0 hu).mpr hs))
    | succ u ih =>
        intro hu hdue
        have hts := (clock_event (regs i (u + 1)) (i (u + 1))).2
        by_cases hs : Starts i (u + 1)
        · refine ⟨u + 1, Nat.le_refl _, hs, fun v hv hv' => by omega, ?_⟩
          exact hts.trans (if_pos ((hevent (u + 1) hu).mpr hs))
        · have hbefore : DueBefore i (u + 1) := by
            by_contra hno
            exact hs ⟨hdue, hno⟩
          obtain ⟨k, hku, hk, hbetween, hkts⟩ := ih (by omega) (dueBefore_succ.mp hbefore).1
          refine ⟨k, by omega, hk, ?_, ?_⟩
          · intro v hkv hvu
            rcases Nat.le_succ_iff.mp hvu with hvu | rfl
            · exact hbetween v hkv hvu
            · exact ⟨hdue, hs⟩
          · rw [← hkts]
            exact hts.trans (if_neg fun he => hs ((hevent (u + 1) hu).mp he))
  have hcount : (regs i (t + 1)).mutedSampleCount =
      if (regs i t).muted (i t) && (i t).anyValid then (regs i t).mutedSampleCount + 1
      else (regs i t).mutedSampleCount := rfl
  refine ⟨hmuted t (Nat.le_refl t), fun hdue => dac_zero ((hmuted t (Nat.le_refl t)).mpr hdue),
    hevent t (Nat.le_refl t), hstart t (Nat.le_refl t), ⟨?_, ?_⟩, ?_⟩
  · rintro ⟨hvalid, hdue⟩
    rw [hcount, if_pos (by rw [(hmuted t (Nat.le_refl t)).mpr hdue, hvalid]; rfl)]
  · intro hno
    refine hcount.trans (if_neg ?_)
    rw [Bool.and_eq_true, hmuted t (Nat.le_refl t)]
    exact fun h => hno ⟨h.2, h.1⟩
  · intro k hkt hk hno
    rcases Nat.eq_or_lt_of_le hkt with rfl | hlt
    · exact absurd (TxRetuneGate.due_iff.mpr (.inr (.inl hk))) hno
    · rcases after_abort hk hlt with ⟨hstands, -⟩ | hopened
      · exact absurd ⟨k, hkt, hstands, .inl hk⟩ hno
      · exact hopened

end Track

/-- Time from 10 on.  An ARM for 100, and at 17 a replacement with the target of
the line. -/
def replacedInput (target : BitVec 64) (t : ℕ) : Input 2 where
  timestamp := BitVec.ofNat 64 (10 + t)
  arm := decide (t = 2) || decide (t = 7)
  targetTimestamp := if t < 4 then 100 else target
  inSamples := fun _ => ⟨5, 6, true⟩

/-- A replacement for 20 in time. -/
theorem txRetuneGate_mutes_replacedInput :
    MuteLaw (replacedInput 20) 10 ∧ Starts (replacedInput 20) 10 := by
  have h : MuteLaw (replacedInput 20) 10 :=
    txRetuneGate_mutes (replacedInput 20) 10 (by decide +kernel) (by decide +kernel)
      (by decide +kernel)
  exact ⟨h, h.event.mp (by decide +kernel)⟩

theorem replacedInput_ordered (target : BitVec 64) (t : ℕ) : Ordered (replacedInput target) t := by
  intro ht
  rw [timestampReached_iff]
  show (BitVec.ofNat 64 (10 + t) - BitVec.ofNat 64 (10 + (t - 1))).toNat < 2 ^ 63
  bv_omega

theorem replacedInput_due : Due (replacedInput 12) 7 ∧ Due (replacedInput 12) 8 := by
  have harm : ArmTaken (regs (replacedInput 12) 7) (replacedInput 12 7) := by decide +kernel
  have hreached : timestampReached (replacedInput 12 7).timestamp
      (replacedInput 12 7).targetTimestamp = true := by decide +kernel
  have hdue : Due (replacedInput 12) 7 := due_iff.mpr (.inr (.inr (.inl ⟨harm, .inr hreached⟩)))
  refine ⟨hdue, due_iff.mpr (.inl (dueBefore_succ.mpr ⟨hdue, ?_⟩))⟩
  decide +kernel

/-- A replacement that is due already: the mute lets go for a clock. -/
theorem txRetuneGate_flickers :
    (∀ t, Ordered (replacedInput 12) t) ∧
    (∀ t, (replacedInput 12 (t + 2)).arm = true →
      (replacedInput 12 t).targetTimestamp = (replacedInput 12 (t + 2)).targetTimestamp ∧
      (replacedInput 12 (t + 1)).targetTimestamp =
        (replacedInput 12 (t + 2)).targetTimestamp) ∧
    Due (replacedInput 12) 7 ∧ (regs (replacedInput 12) 7).muted (replacedInput 12 7) = true ∧
    Due (replacedInput 12) 8 ∧ (regs (replacedInput 12) 8).muted (replacedInput 12 8) = false ∧
    ¬MuteLaw (replacedInput 12) 8 := by
  have hopen : (regs (replacedInput 12) 8).muted (replacedInput 12 8) = false := by
    decide +kernel
  refine ⟨replacedInput_ordered 12, ?_, replacedInput_due.1, by decide +kernel,
    replacedInput_due.2, hopen, ?_⟩
  · intro t harm
    simp only [replacedInput, Bool.or_eq_true, decide_eq_true_eq] at harm
    obtain rfl | rfl : t = 0 ∨ t = 5 := by omega
    · decide
    · decide
  · intro h
    exact absurd (hopen.symm.trans (h.muted.mpr replacedInput_due.2)) Bool.false_ne_true

end TxRetuneGate

end BladeRF
