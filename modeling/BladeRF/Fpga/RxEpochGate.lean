/-
# `Fpga.RxEpochGate` — IQ of a completed epoch only

`rx_epoch_gate` stands between the ADC and the RX FIFO.  A retune closes it with
an ARM, and it opens with the first sample after the COMPLETE that is valid on
every enabled lane.  In between it sends zero-IQ keepalives.

The sample, its fence decision, the timestamp and the id of a clock are
registered together: the outputs behind a clock are about the tuple of that
clock.  Only `out_epoch_id` and `out_state` show the registers before it.
-/
import BladeRF.Fpga.Lanes
import BladeRF.Lib.Clocked

namespace BladeRF

/-- The five encodings of `state` that a constant of the source names. -/
inductive RxGateState where
  | active
  | pending
  | waitFirstSample
  | activeNew
  | error
  deriving DecidableEq

def RxGateState.code : RxGateState → BitVec 4
  | .active => 0b0000#4
  | .pending => 0b0001#4
  | .waitFirstSample => 0b0010#4
  | .activeNew => 0b0011#4
  | .error => 0b0100#4

/-- The registers of the gate with `NUM_STREAMS = n`; the defaults are their
reset values. -/
structure RxEpochGate (n : ℕ) where
  state : RxGateState := .active
  sampleTupleQ : Fin n → SampleStream := fun _ => {}
  forwardSamplesQ : Bool := false
  activeEpochId : BitVec 8 := 0
  outSampleControls : Fin n → SampleControl := fun _ => {}
  outTimestamp : BitVec 64 := 0
  outEpochId : BitVec 8 := 0
  outState : RxGateState := .active
  epochStartEvent : Bool := false
  firstValidTimestamp : BitVec 64 := 0

namespace RxEpochGate

variable {n : ℕ}

structure Input (n : ℕ) where
  inSampleControls : Fin n → SampleControl
  inSamples : Fin n → SampleStream
  rxTimestamp : BitVec 64
  epochArm : Bool := false
  epochComplete : Bool := false
  epochAbort : Bool := false
  epochIdIn : BitVec 8 := 0

namespace Input

variable (i : Input n)

def valid (l : Fin n) : Bool :=
  (i.inSampleControls l).enable && (i.inSamples l).dataV

def anyEnabled : Bool :=
  (List.finRange n).any fun l => (i.inSampleControls l).enable

def allEnabledValid : Bool :=
  ((List.finRange n).all fun l => !(i.inSampleControls l).enable || (i.inSamples l).dataV) &&
    i.anyEnabled

def enabledLaneCount : ℕ :=
  (List.finRange n).countP fun l => (i.inSampleControls l).enable

def validEnabledLaneCount : ℕ :=
  (List.finRange n).countP i.valid

def partialEnabledValid : Bool :=
  decide (1 < i.enabledLaneCount) && decide (0 < i.validEnabledLaneCount) &&
    decide (i.validEnabledLaneCount < i.enabledLaneCount)

def keepaliveDataValid : Bool :=
  (List.finRange n).any i.valid

end Input

/-- What the `case` of a clock decides. -/
structure Decision where
  state : RxGateState
  activeEpochId : BitVec 8
  forwardSamples : Bool := false
  epochStart : Bool := false

/-- The `case` of the process `gate`. -/
def decision (s : RxEpochGate n) (i : Input n) : Decision :=
  match s.state with
  | .active =>
      let d : Decision :=
        if i.epochAbort then { state := .error, activeEpochId := s.activeEpochId }
        else if i.epochArm then { state := .active, activeEpochId := s.activeEpochId }
        else if i.partialEnabledValid then
          { state := .error, activeEpochId := s.activeEpochId, forwardSamples := true }
        else { state := .active, activeEpochId := s.activeEpochId, forwardSamples := true }
      if i.epochArm && !i.epochAbort then
        { d with state := .pending, activeEpochId := i.epochIdIn }
      else d
  | .pending =>
      if i.epochAbort then { state := .error, activeEpochId := s.activeEpochId }
      else if i.epochArm then { state := .pending, activeEpochId := i.epochIdIn }
      else if i.epochComplete then
        { state := .waitFirstSample, activeEpochId := s.activeEpochId }
      else { state := .pending, activeEpochId := s.activeEpochId }
  | .waitFirstSample =>
      if i.epochAbort then { state := .error, activeEpochId := s.activeEpochId }
      else if i.epochArm then { state := .pending, activeEpochId := i.epochIdIn }
      else if i.allEnabledValid then
        { state := .activeNew
          activeEpochId := s.activeEpochId
          forwardSamples := true
          epochStart := true }
      else { state := .waitFirstSample, activeEpochId := s.activeEpochId }
  | .activeNew =>
      if i.epochAbort then { state := .error, activeEpochId := s.activeEpochId }
      else if i.epochArm then { state := .pending, activeEpochId := i.epochIdIn }
      else if i.partialEnabledValid then
        { state := .error, activeEpochId := s.activeEpochId, forwardSamples := true }
      else { state := .active, activeEpochId := s.activeEpochId, forwardSamples := true }
  | .error =>
      if i.epochAbort then { state := .error, activeEpochId := s.activeEpochId }
      else if i.epochArm then { state := .pending, activeEpochId := i.epochIdIn }
      else { state := .error, activeEpochId := s.activeEpochId }

/-- The process `gate`. -/
def clock (s : RxEpochGate n) (i : Input n) : RxEpochGate n :=
  let d := s.decision i
  { state := d.state
    sampleTupleQ := fun l =>
      { i.inSamples l with
        dataV := (i.inSampleControls l).enable &&
          if d.forwardSamples then i.allEnabledValid else i.keepaliveDataValid }
    forwardSamplesQ := d.forwardSamples
    activeEpochId := d.activeEpochId
    outSampleControls := i.inSampleControls
    outTimestamp := i.rxTimestamp
    outEpochId := s.activeEpochId
    outState := s.state
    epochStartEvent := d.epochStart
    firstValidTimestamp := if d.epochStart then i.rxTimestamp else s.firstValidTimestamp }

/-- The process `output_samples`. -/
def outSamples (s : RxEpochGate n) (l : Fin n) : SampleStream :=
  if s.forwardSamplesQ then s.sampleTupleQ l else { s.sampleTupleQ l with dataI := 0, dataQ := 0 }

def outDiscardActive (s : RxEpochGate n) (i : Input n) : Bool :=
  ((s.state.code[1] ^^ s.state.code[0]) || s.state.code[2]) || i.epochArm || i.epochAbort

def outFault (s : RxEpochGate n) : Bool :=
  s.state.code[2]

/-- The registers before clock `t` after a reset. -/
def regs (i : ℕ → Input n) : ℕ → RxEpochGate n :=
  Lib.trace (fun t s => s.clock (i t)) {}

/-- `STATE_ACTIVE` or `STATE_ACTIVE_NEW`. -/
def Open (s : RxEpochGate n) : Prop :=
  s.state = .active ∨ s.state = .activeNew

/-! ## One clock -/

section Clock

variable (s : RxEpochGate n) (i : Input n)

@[simp] theorem clock_state : (s.clock i).state = (s.decision i).state := rfl

theorem decision_state : (s.decision i).state =
    if i.epochAbort then .error
    else if i.epochArm then .pending
    else match s.state with
      | .active | .activeNew => if i.partialEnabledValid then .error else .active
      | .pending => if i.epochComplete then .waitFirstSample else .pending
      | .waitFirstSample => if i.allEnabledValid then .activeNew else .waitFirstSample
      | .error => .error := by
  unfold decision
  cases s.state <;> cases i.epochAbort <;> cases i.epochArm <;> simp
  all_goals split <;> rfl

theorem decision_activeEpochId : (s.decision i).activeEpochId =
    if i.epochArm && !i.epochAbort then i.epochIdIn else s.activeEpochId := by
  unfold decision
  cases s.state <;> cases i.epochAbort <;> cases i.epochArm <;> simp
  all_goals split <;> rfl

theorem decision_epochStart : (s.decision i).epochStart = true ↔
    s.state = .waitFirstSample ∧ i.epochAbort = false ∧ i.epochArm = false ∧
      i.allEnabledValid = true := by
  unfold decision
  cases s.state <;> cases i.epochAbort <;> cases i.epochArm <;> simp
  all_goals split <;> simp_all

theorem decision_forwardSamples : (s.decision i).forwardSamples = true ↔
    i.epochAbort = false ∧ i.epochArm = false ∧ (s.Open ∨ (s.decision i).epochStart = true) := by
  unfold Open decision
  cases s.state <;> cases i.epochAbort <;> cases i.epochArm <;> simp
  all_goals split <;> rfl

end Clock

/-! ## Tuples -/

section Tuple

variable {i : Input n}

theorem Input.keepaliveDataValid_iff : i.keepaliveDataValid = true ↔ ∃ l, i.valid l = true := by
  simp [keepaliveDataValid]

theorem Input.allEnabledValid_iff : i.allEnabledValid = true ↔
    (∃ l, (i.inSampleControls l).enable = true) ∧
      ∀ l, (i.inSampleControls l).enable = true → (i.inSamples l).dataV = true := by
  unfold allEnabledValid anyEnabled
  rw [Bool.and_eq_true, List.all_eq_true, List.any_eq_true]
  constructor
  · rintro ⟨hall, l, -, hl⟩
    refine ⟨⟨l, hl⟩, ?_⟩
    intro k hk
    simpa [hk] using hall k (List.mem_finRange k)
  · rintro ⟨⟨l, hl⟩, hall⟩
    refine ⟨?_, l, List.mem_finRange l, hl⟩
    intro k _
    by_cases hk : (i.inSampleControls k).enable = true
    · simp [hall k hk]
    · simp [hk]

theorem Input.partialEnabledValid_iff : i.partialEnabledValid = true ↔
    (∃ l, i.valid l = true) ∧
      ∃ l, (i.inSampleControls l).enable = true ∧ (i.inSamples l).dataV = false := by
  have hsome : 0 < i.validEnabledLaneCount ↔ ∃ l, i.valid l = true := by
    unfold validEnabledLaneCount
    simp [List.countP_pos_iff]
  have hmissing : i.validEnabledLaneCount < i.enabledLaneCount ↔
      ∃ l, (i.inSampleControls l).enable = true ∧ (i.inSamples l).dataV = false := by
    have hcount : i.validEnabledLaneCount =
        ((List.finRange n).filter fun l => (i.inSampleControls l).enable).countP
          fun l => (i.inSamples l).dataV := by
      rw [List.countP_filter]
      exact List.countP_congr fun l _ => by simp [valid, Bool.and_comm]
    have henabled : i.enabledLaneCount =
        ((List.finRange n).filter fun l => (i.inSampleControls l).enable).length :=
      List.countP_eq_length_filter
    rw [hcount, henabled, List.countP_lt_length_iff]
    simp
  unfold partialEnabledValid
  simp only [Bool.and_eq_true, decide_eq_true_eq]
  rw [← hsome, ← hmissing]
  omega

end Tuple

/-! ## Runs -/

section Run

variable {i : ℕ → Input n} {t k : ℕ}

theorem regs_succ (i : ℕ → Input n) (t : ℕ) : regs i (t + 1) = (regs i t).clock (i t) := rfl

def Quiet (i : Input n) : Prop :=
  i.epochArm = false ∧ i.epochAbort = false

structure Armed (i : ℕ → Input n) (t : ℕ) (s : RxEpochGate n) : Prop where
  pending : s.state = .pending → ∃ a < t, (i a).epochArm = true ∧
    s.activeEpochId = (i a).epochIdIn ∧ ∀ u, a < u → u < t → Quiet (i u)
  completed : s.state = .waitFirstSample → ∃ a c, a < c ∧ c < t ∧ (i a).epochArm = true ∧
    (i c).epochComplete = true ∧ s.activeEpochId = (i a).epochIdIn ∧
    ∀ u, a < u → u < t → Quiet (i u)

theorem Quiet.until_succ {a : ℕ} (h : ∀ u, a < u → u < t → Quiet (i u)) (ht : Quiet (i t)) :
    ∀ u, a < u → u < t + 1 → Quiet (i u) := by
  intro u hau hut
  rcases Nat.lt_succ_iff_lt_or_eq.mp hut with hlt | rfl
  · exact h u hau hlt
  · exact ht

variable {s : RxEpochGate n} {x : Input n}

theorem Armed.clock (h : Armed i t s) : Armed i (t + 1) (s.clock (i t)) := by
  have hid := s.decision_activeEpochId (i t)
  have hstate := s.decision_state (i t)
  cases habort : (i t).epochAbort with
  | true =>
      rw [habort, if_pos rfl] at hstate
      exact ⟨(fun hp => by cases hstate.symm.trans hp), fun hp => by cases hstate.symm.trans hp⟩
  | false =>
      rw [habort, if_neg Bool.false_ne_true] at hstate
      rw [habort, Bool.not_false, Bool.and_true] at hid
      cases harm : (i t).epochArm with
      | true =>
          rw [harm, if_pos rfl] at hstate hid
          refine ⟨fun _ => ⟨t, Nat.lt_succ_self t, harm, hid, ?_⟩,
            fun hp => by cases hstate.symm.trans hp⟩
          intro u hau hut
          omega
      | false =>
          rw [harm, if_neg Bool.false_ne_true] at hstate hid
          have hquiet : Quiet (i t) := ⟨harm, habort⟩
          cases hs : s.state with
          | active | activeNew =>
              rw [hs] at hstate
              dsimp only at hstate
              split at hstate
              · exact ⟨(fun hp => by cases hstate.symm.trans hp),
                  fun hp => by cases hstate.symm.trans hp⟩
              · exact ⟨(fun hp => by cases hstate.symm.trans hp),
                  fun hp => by cases hstate.symm.trans hp⟩
          | pending =>
              obtain ⟨a, hat, ha, hactive, hsince⟩ := h.pending hs
              rw [hs] at hstate
              refine ⟨fun _ => ⟨a, by omega, ha, hid.trans hactive, hquiet.until_succ hsince⟩, ?_⟩
              intro hp
              have hcomplete : (i t).epochComplete = true := by
                by_contra hno
                dsimp only at hstate
                rw [if_neg hno] at hstate
                cases hstate.symm.trans hp
              exact ⟨a, t, hat, Nat.lt_succ_self t, ha, hcomplete, hid.trans hactive,
                hquiet.until_succ hsince⟩
          | waitFirstSample =>
              obtain ⟨a, c, hac, hct, ha, hc, hactive, hsince⟩ := h.completed hs
              rw [hs] at hstate
              refine ⟨?_, fun _ => ⟨a, c, hac, by omega, ha, hc, hid.trans hactive,
                hquiet.until_succ hsince⟩⟩
              intro hp
              dsimp only at hstate
              split at hstate
              · cases hstate.symm.trans hp
              · cases hstate.symm.trans hp
          | error =>
              rw [hs] at hstate
              exact ⟨(fun hp => by cases hstate.symm.trans hp),
                fun hp => by cases hstate.symm.trans hp⟩

theorem regs_armed (i : ℕ → Input n) (t : ℕ) : Armed i t (regs i t) :=
  Lib.trace_always ⟨(fun h => by cases h), fun h => by cases h⟩ (fun _ _ h => h.clock) t

/-- The gate is open or in `STATE_ERROR`: it has no COMPLETE to wait for. -/
def Unarmed (s : RxEpochGate n) : Prop :=
  s.state ≠ .pending ∧ s.state ≠ .waitFirstSample

theorem Unarmed.clock (h : s.Unarmed) (harm : x.epochArm = false) : (s.clock x).Unarmed := by
  have hstate := s.decision_state x
  rw [harm] at hstate
  obtain ⟨hpending, hwait⟩ := h
  unfold Unarmed
  rw [clock_state, hstate]
  cases hs : s.state with
  | pending => exact absurd hs hpending
  | waitFirstSample => exact absurd hs hwait
  | active | activeNew | error =>
      dsimp only
      cases x.epochAbort <;> cases x.partialEnabledValid <;> decide

def Fenced (s : RxEpochGate n) : Prop :=
  s.state = .pending ∨ s.state = .waitFirstSample ∨ s.state = .error

/-- What closes the gate, or keeps it closed: an ARM, an ABORT, or a partial
tuple in the open gate. -/
def Revokes (s : RxEpochGate n) (x : Input n) : Prop :=
  x.epochArm = true ∨ x.epochAbort = true ∨
    s.Open ∧ (∃ l, x.valid l = true) ∧
      ∃ l, (x.inSampleControls l).enable = true ∧ (x.inSamples l).dataV = false

theorem Revokes.fenced (h : s.Revokes x) :
    (s.clock x).Fenced := by
  have hstate := s.decision_state x
  unfold Fenced
  rw [clock_state, hstate]
  rcases h with harm | habort | ⟨hopen, hpartial⟩
  · rw [harm]
    cases x.epochAbort with
    | true => exact .inr (.inr rfl)
    | false => exact .inl rfl
  · rw [habort]
    exact .inr (.inr rfl)
  · rw [← Input.partialEnabledValid_iff] at hpartial
    rcases hopen with hs | hs
    · rw [hs, hpartial]
      cases x.epochAbort <;> cases x.epochArm <;> simp
    · rw [hs, hpartial]
      cases x.epochAbort <;> cases x.epochArm <;> simp

theorem Fenced.clock (h : s.Fenced)
    (hevent : (s.decision x).epochStart = false) : (s.clock x).Fenced := by
  have hstate := s.decision_state x
  have hstart := s.decision_epochStart x
  rw [hevent] at hstart
  unfold Fenced
  rw [clock_state, hstate]
  cases habort : x.epochAbort with
  | true => exact .inr (.inr rfl)
  | false =>
      cases harm : x.epochArm with
      | true => exact .inl rfl
      | false =>
          rcases h with hs | hs | hs
          · rw [hs]
            cases x.epochComplete <;> simp
          · rw [hs]
            cases hall : x.allEnabledValid with
            | true => exact absurd (hstart.mpr ⟨hs, habort, harm, hall⟩) Bool.false_ne_true
            | false => exact .inr (.inl rfl)
          · rw [hs]
            exact .inr (.inr rfl)

theorem Fenced.not_open (h : s.Fenced) : ¬s.Open := by
  rintro (hs | hs)
  · rcases h with h | h | h <;> cases hs.symm.trans h
  · rcases h with h | h | h <;> cases hs.symm.trans h

theorem fenced_since (hk : (regs i (k + 1)).Fenced) (hkt : k + 1 ≤ t)
    (hno : ∀ u, k < u → u < t → (regs i (u + 1)).epochStartEvent = false) :
    (regs i t).Fenced := by
  induction t, hkt using Nat.le_induction with
  | base => exact hk
  | succ t hkt ih =>
      exact (ih fun u hku hut => hno u hku (by omega)).clock (hno t (by omega) (by omega))

def OutValid (s : RxEpochGate n) : Prop :=
  ∃ l, (s.outSamples l).dataV = true

theorem outSamples_dataV (s : RxEpochGate n) (x : Input n) (l : Fin n) :
    ((s.clock x).outSamples l).dataV = ((x.inSampleControls l).enable &&
      if (s.decision x).forwardSamples then x.allEnabledValid else x.keepaliveDataValid) := by
  unfold outSamples
  split
  · rfl
  · rfl

theorem outSamples_zero (h : (s.decision x).forwardSamples = false) (l : Fin n) :
    ((s.clock x).outSamples l).dataI = 0 ∧ ((s.clock x).outSamples l).dataQ = 0 := by
  have hq : (s.clock x).forwardSamplesQ = false := h
  unfold outSamples
  rw [hq]
  exact ⟨rfl, rfl⟩

theorem outSamples_forward
    (h : (s.decision x).forwardSamples = true) (hall : x.allEnabledValid = true) (l : Fin n) :
    (s.clock x).outSamples l =
      { x.inSamples l with dataV := (x.inSampleControls l).enable } := by
  have hq : (s.clock x).forwardSamplesQ = true := h
  have hv := outSamples_dataV s x l
  rw [h, if_pos rfl, hall, Bool.and_true] at hv
  unfold outSamples at hv ⊢
  rw [hq, if_pos rfl] at hv ⊢
  rw [← hv]
  rfl

theorem Revokes.zero (h : s.Revokes x) (hvalid : (s.clock x).OutValid) (l : Fin n) :
    ((s.clock x).outSamples l).dataI = 0 ∧ ((s.clock x).outSamples l).dataQ = 0 := by
  refine outSamples_zero ?_ l
  by_contra hforward
  have hforward := Bool.not_eq_false _ ▸ hforward
  obtain ⟨habort, harm, -⟩ := (s.decision_forwardSamples x).mp hforward
  rcases h with h | h | ⟨-, -, k, henable, hdata⟩
  · exact absurd (harm.symm.trans h) Bool.false_ne_true
  · exact absurd (habort.symm.trans h) Bool.false_ne_true
  · obtain ⟨m, hm⟩ := hvalid
    rw [outSamples_dataV, hforward, if_pos rfl, Bool.and_eq_true] at hm
    have := (Input.allEnabledValid_iff.mp hm.2).2 k henable
    exact absurd (hdata.symm.trans this) Bool.false_ne_true

theorem Fenced.zero (h : s.Fenced) (hevent : (s.decision x).epochStart = false) (l : Fin n) :
    ((s.clock x).outSamples l).dataI = 0 ∧ ((s.clock x).outSamples l).dataQ = 0 := by
  refine outSamples_zero ?_ l
  by_contra hforward
  have hforward := Bool.not_eq_false _ ▸ hforward
  obtain ⟨-, -, hopen | hstart⟩ := (s.decision_forwardSamples x).mp hforward
  · exact h.not_open hopen
  · exact absurd (hevent.symm.trans hstart) Bool.false_ne_true

theorem outDiscardActive_iff (s : RxEpochGate n) (x : Input n) :
    s.outDiscardActive x = true ↔
      s.Fenced ∨ x.epochArm = true ∨ x.epochAbort = true := by
  unfold outDiscardActive Fenced
  cases s.state <;> simp [RxGateState.code]

theorem outFault_iff (s : RxEpochGate n) : s.outFault = true ↔ s.state = .error := by
  unfold outFault
  cases s.state <;> simp [RxGateState.code]

/-- What the gate promises of a run: the outputs for the tuple of clock `t` are
in the registers before clock `t + 1`. -/
structure Admits (i : ℕ → Input n) : Prop where
  /-- from the clock behind the one that revokes up to the next event -/
  fenced : ∀ k t, k < t → (regs i k).Revokes (i k) →
    (∀ u, k < u → u < t → (regs i (u + 1)).epochStartEvent = false) → (regs i t).Fenced
  /-- from the clock that revokes up to the next event -/
  zero : ∀ k t, k ≤ t → (regs i k).Revokes (i k) →
    (∀ u, k ≤ u → u ≤ t → (regs i (u + 1)).epochStartEvent = false) →
    (regs i (t + 1)).OutValid →
    ∀ l, ((regs i (t + 1)).outSamples l).dataI = 0 ∧ ((regs i (t + 1)).outSamples l).dataQ = 0
  completed : ∀ t, (regs i (t + 1)).epochStartEvent = true → ∃ a c, a < c ∧ c < t ∧
    (i a).epochArm = true ∧ (i c).epochComplete = true ∧
    (∀ u, a < u → u ≤ t → (i u).epochArm = false ∧ (i u).epochAbort = false) ∧
    (∃ l, ((i t).inSampleControls l).enable = true) ∧
    (∀ l, ((i t).inSampleControls l).enable = true → ((i t).inSamples l).dataV = true) ∧
    (∀ l, (regs i (t + 1)).outSamples l =
      { (i t).inSamples l with dataV := ((i t).inSampleControls l).enable }) ∧
    (regs i (t + 1)).firstValidTimestamp = (i t).rxTimestamp ∧
    (regs i (t + 1)).outTimestamp = (i t).rxTimestamp ∧
    (regs i (t + 1)).outEpochId = (i a).epochIdIn
  once : ∀ t u, t < u → (regs i (t + 1)).epochStartEvent = true →
    (regs i (u + 1)).epochStartEvent = true → ∃ a, t < a ∧ a < u ∧ (i a).epochArm = true
  paired : ∀ t, (regs i (t + 1)).OutValid →
    (∃ l, ((regs i (t + 1)).outSamples l).dataI ≠ 0 ∨ ((regs i (t + 1)).outSamples l).dataQ ≠ 0) →
    ∀ l, ((regs i (t + 1)).outSamples l).dataV = ((i t).inSampleControls l).enable ∧
      (regs i (t + 1)).outSampleControls l = (i t).inSampleControls l
  alive : ∀ t, (regs i t).Fenced → (∃ l, (i t).valid l = true) →
    ∀ l, ((i t).inSampleControls l).enable = true →
      ((regs i (t + 1)).outSamples l).dataV = true
  discard : ∀ t, (regs i t).outDiscardActive (i t) = true ↔
    (regs i t).Fenced ∨ (i t).epochArm = true ∨ (i t).epochAbort = true
  fault : ∀ t, (regs i t).outFault = true ↔ (regs i t).state = .error

/-- RX samples pass under a completed epoch only, for every sequence of inputs. -/
theorem rxEpochGate_admits (i : ℕ → Input n) : Admits i where
  fenced := fun _ _ hkt hrevokes hno => fenced_since hrevokes.fenced hkt hno
  zero := by
    intro k t hkt hrevokes hno hvalid
    rcases Nat.eq_or_lt_of_le hkt with rfl | hlt
    · exact hrevokes.zero hvalid
    · have hfenced : (regs i t).Fenced :=
        fenced_since hrevokes.fenced hlt fun u hku hut => hno u (by omega) (by omega)
      exact hfenced.zero (hno t hkt (Nat.le_refl t))
  completed := by
    intro t hevent
    obtain ⟨hstate, habort, harm, hall⟩ := ((regs i t).decision_epochStart (i t)).mp hevent
    obtain ⟨a, c, hac, hct, ha, hc, hid, hsince⟩ := (regs_armed i t).completed hstate
    have hforward : ((regs i t).decision (i t)).forwardSamples = true :=
      ((regs i t).decision_forwardSamples (i t)).mpr ⟨habort, harm, .inr hevent⟩
    obtain ⟨hany, hvalid⟩ := Input.allEnabledValid_iff.mp hall
    refine ⟨a, c, hac, hct, ha, hc, ?_, hany, hvalid, outSamples_forward hforward hall, ?_, rfl,
      hid⟩
    · intro u hau hut
      rcases Nat.eq_or_lt_of_le hut with rfl | hlt
      · exact ⟨harm, habort⟩
      · exact hsince u hau hlt
    · exact if_pos hevent
  once := by
    intro t u htu ht hu
    by_contra hnone
    push Not at hnone
    have hunarmed : ∀ m, t + 1 ≤ m → m ≤ u → (regs i m).Unarmed := by
      intro m htm
      induction m, htm using Nat.le_induction with
      | base =>
          intro _
          obtain ⟨hstate, habort, harm, hall⟩ := ((regs i t).decision_epochStart (i t)).mp ht
          have hnew := (regs i t).decision_state (i t)
          rw [habort, harm, hstate] at hnew
          simp only [hall, Bool.false_eq_true, if_false, if_true] at hnew
          have hs : (regs i (t + 1)).state = .activeNew := hnew
          unfold Unarmed
          rw [hs]
          decide
      | succ m htm ih =>
          intro hmu
          exact (ih (by omega)).clock (by simpa using hnone m (by omega) (by omega))
    exact (hunarmed u (by omega) (Nat.le_refl u)).2
      (((regs i u).decision_epochStart (i u)).mp hu).1
  paired := by
    rintro t ⟨m, hm⟩ ⟨k, hk⟩ l
    have hforward : ((regs i t).decision (i t)).forwardSamples = true := by
      by_contra hno
      obtain ⟨hI, hQ⟩ := outSamples_zero (Bool.not_eq_true _ ▸ hno) k
      rcases hk with hk | hk
      · exact hk hI
      · exact hk hQ
    refine ⟨?_, rfl⟩
    rw [regs_succ, outSamples_dataV, hforward, if_pos rfl, Bool.and_eq_true] at hm
    rw [regs_succ, outSamples_dataV, hforward, if_pos rfl, hm.2, Bool.and_true]
  alive := by
    intro t hfenced hvalid l hl
    rw [regs_succ, outSamples_dataV, hl, Bool.true_and]
    split
    · rename_i hforward
      obtain ⟨-, -, hopen | hstart⟩ := ((regs i t).decision_forwardSamples (i t)).mp hforward
      · exact absurd hopen hfenced.not_open
      · exact (((regs i t).decision_epochStart (i t)).mp hstart).2.2.2
    · exact Input.keepaliveDataValid_iff.mpr hvalid
  discard := fun t => outDiscardActive_iff (regs i t) (i t)
  fault := fun t => outFault_iff (regs i t)

/-- An ARM with id 7, a COMPLETE, a tuple of one lane, two tuples of both, and from
clock 5 on tuples of one lane. -/
def retunedInput (t : ℕ) : Input 2 where
  inSampleControls := fun _ => ⟨true, false⟩
  inSamples := fun l => ⟨5, 6, decide (t = 3 ∨ t = 4) || l == 0⟩
  rxTimestamp := BitVec.ofNat 64 (100 + t)
  epochArm := decide (t = 0)
  epochComplete := decide (t = 1)
  epochIdIn := 7

/-- The gate opens for the first tuple of both lanes, and the tuple of one lane
behind it closes the gate. -/
theorem rxEpochGate_admits_retuned :
    ((regs retunedInput 3).Fenced ∧ (regs retunedInput 3).outSamples 0 = ⟨0, 0, true⟩) ∧
    (∃ a c, a < c ∧ c < 3 ∧ (retunedInput a).epochArm = true ∧
      (retunedInput c).epochComplete = true ∧
      (regs retunedInput 4).outEpochId = (retunedInput a).epochIdIn ∧
      (regs retunedInput 4).firstValidTimestamp = 103 ∧
      ∀ l, (regs retunedInput 4).outSamples l = ⟨5, 6, true⟩) ∧
    (regs retunedInput 7).Fenced := by
  have h := rxEpochGate_admits retunedInput
  refine ⟨⟨h.fenced 0 3 (by decide) (.inl rfl) ?_, by decide⟩, ?_, h.fenced 5 7 (by decide) ?_ ?_⟩
  · intro u hu hut
    obtain rfl | rfl : u = 1 ∨ u = 2 := by omega
    · decide
    · decide
  · obtain ⟨a, c, hac, hc, harm, hcomplete, -, -, -, hout, hfirst, -, hid⟩ :=
      h.completed 3 (by decide)
    exact ⟨a, c, hac, hc, harm, hcomplete, hid, hfirst, hout⟩
  · exact .inr (.inr ⟨.inl (by decide), ⟨0, by decide⟩, 1, by decide⟩)
  · intro u hu hut
    obtain rfl : u = 6 := by omega
    decide

end Run

end RxEpochGate

end BladeRF
