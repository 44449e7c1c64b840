/-
# `Nios.RficFaultLatch` — when the calibration fault is forgotten

A calibration whose end is unknown latches `calibration_faulted`, and nothing
but an INIT command may clear it.  INIT OFF clears it after a board reset and a
complete teardown.  INIT ON clears it when `_rfic_initialize` returns true, and
that is already the case when the retained constructor has only been started.
Every run in which no faulted INIT ON gets so far obeys the latch law.
-/
import BladeRF.Nios.RficFrame

namespace BladeRF

def Adi.boardReset (a : Adi) (phy : Option Phy) : Bool :=
  a.test .clearFaulted && a.test .resetAsserted && a.test .resetDeinit && a.test .clearDeinit &&
    (phy.isNone || a.remove = .removed) && a.test .resetReleased

/-- The preflight of `_rfic_initialize` passes and the constructor starts. -/
def Adi.constructorStarts (a : Adi) : Bool :=
  a.test .digTunePolicyValid && a.test .clearInit && a.test .resetInit && a.test .initRead &&
    a.test .initWrite && a.test .ifClockAlive && !(a.status .initStart).failed

namespace RficState

variable (a : Adi) (s : RficState)

/-! ## Handlers keep the latch -/

@[simp] theorem recordError_faulted (st : Status) :
    (s.recordError st).calibrationFaulted = s.calibrationFaulted := rfl

@[simp] theorem recordCleanupError_faulted (st : Status) :
    (s.recordCleanupError st).calibrationFaulted = s.calibrationFaulted := rfl

@[simp] theorem setFrequencyInvalid_faulted (tx b : Bool) :
    (s.setFrequencyInvalid tx b).calibrationFaulted = s.calibrationFaulted := by
  unfold setFrequencyInvalid
  split <;> rfl

@[simp] theorem checkTrue_faulted (ok : Bool) :
    (s.checkTrue ok).1.calibrationFaulted = s.calibrationFaulted := by
  unfold checkTrue
  split <;> rfl

@[simp] theorem forceRfPathOff_faulted :
    (s.forceRfPathOff a).calibrationFaulted = s.calibrationFaulted := by
  unfold forceRfPathOff
  split <;> rfl

@[simp] theorem failClosed_faulted :
    (s.failClosedAfterPathMutation a).calibrationFaulted = true := by
  simp [failClosedAfterPathMutation]

@[simp] theorem ensureRxRfdcCalibrated_faulted :
    (s.ensureRxRfdcCalibrated a).1.calibrationFaulted = s.calibrationFaulted := by
  unfold ensureRxRfdcCalibrated
  dsimp only
  split_ifs <;> rfl

variable {s} (h : s.calibrationFaulted = true)

include h

theorem latchCalibrationFault_faulted (u : AdiTest) :
    (s.latchCalibrationFault a u).1.calibrationFaulted = true := by
  unfold latchCalibrationFault
  split
  · exact h
  · simp

theorem failTxQuadCalibration_faulted (st : Status) :
    (s.failTxQuadCalibration a st).calibrationFaulted = true := by
  unfold failTxQuadCalibration
  dsimp only
  split_ifs
  · exact latchCalibrationFault_faulted a (by simpa using h) _
  · exact h
  · exact h

theorem startTxQuadForFrequency_faulted :
    (s.startTxQuadForFrequency a).1.calibrationFaulted = true := by
  have hstart : (s.startTxQuadCalibration a).1.calibrationFaulted = true := by
    unfold startTxQuadCalibration
    dsimp only
    split_ifs
    · exact failTxQuadCalibration_faulted a h _
    · exact h
    · exact failTxQuadCalibration_faulted a h _
    · exact h
  unfold startTxQuadForFrequency
  dsimp only
  split
  · exact hstart
  · exact hstart

theorem frequencyLoProgrammed_faulted (ch : BitVec 8) :
    (s.frequencyLoProgrammed a ch).1.calibrationFaulted = true := by
  have htx := startTxQuadForFrequency_faulted a h
  unfold frequencyLoProgrammed
  dsimp only
  split
  · split <;> simpa using htx
  · split_ifs <;> simpa using h

theorem cmdWrFrequencyInternal_faulted (ch : BitVec 8) (v : BitVec 64) (i : Bool) :
    (s.cmdWrFrequencyInternal a ch v i).1.calibrationFaulted = true := by
  have hstart (s' : RficState) (h' : s'.calibrationFaulted = true) :
      (s'.frequencyStart a ch v i).1.calibrationFaulted = true := by
    unfold frequencyStart
    dsimp only
    split_ifs <;> simp [frequencyLoProgrammed_faulted a h', h']
  unfold cmdWrFrequencyInternal
  dsimp only
  split_ifs <;> simp [hstart, frequencyLoProgrammed_faulted, h]

theorem standbyFrequency_faulted (tx : Bool) :
    (s.standbyFrequency a tx).1.calibrationFaulted = true := by
  unfold standbyFrequency
  dsimp only
  split
  · rw [checkTrue_faulted]
    exact cmdWrFrequencyInternal_faulted a h _ _ _
  · exact h

theorem deinitializeRfic_faulted (r c : Bool) :
    (s.deinitializeRfic a r c).1.calibrationFaulted = true := by
  have hreport (s' : RficState) (b : Bool) (st : Status) :
      (s'.reportCleanupError b st).calibrationFaulted = s'.calibrationFaulted := by
    unfold reportCleanupError
    split <;> rfl
  have hunless (s' : RficState) (h' : s'.calibrationFaulted = true) (b : Bool) :
      (s'.failClosedUnless a b).calibrationFaulted = true := by
    unfold failClosedUnless
    split
    · exact h'
    · simp
  have hend (s' : RficState) (h' : s'.calibrationFaulted = true) (b : Bool) :
      (s'.deinitializeEnd a b).1.calibrationFaulted = true := by
    unfold deinitializeEnd
    dsimp only
    split <;> simpa [retireContinuations] using hunless s' h' b
  unfold deinitializeRfic
  dsimp only
  split
  · simpa [hreport] using h
  · split
    · exact hend _ (by simpa [hreport] using h) _
    · split
      · exact hend _ (by simpa [hreport] using h) _
      · exact hunless _ (by simp [hreport]) _

theorem rficStandby_faulted : (s.rficStandby a).1.calibrationFaulted = true := by
  have htx (s' : RficState) (h' : s'.calibrationFaulted = true) (tx : Bool) :=
    standbyFrequency_faulted a h' tx
  unfold rficStandby
  dsimp only
  split
  · exact deinitializeRfic_faulted a h _ _
  · split_ifs <;> simp [htx, h]

omit h in
theorem poll_faulted (i : Bool) :
    (s.pollInit a).1.calibrationFaulted = s.calibrationFaulted ∧
      (s.pollFirLoad a).1.calibrationFaulted = s.calibrationFaulted ∧
      (s.pollFirEnable a i).1.calibrationFaulted = s.calibrationFaulted ∧
      (s.pollRfpll a).1.calibrationFaulted = s.calibrationFaulted ∧
      (s.pollSampleRate a i).1.calibrationFaulted = s.calibrationFaulted ∧
      (s.pollBandwidth a i).1.calibrationFaulted = s.calibrationFaulted ∧
      (s.pollRfdc a i).1.calibrationFaulted = s.calibrationFaulted := by
  refine ⟨?_, ?_, ?_, ?_, ?_, ?_, ?_⟩
  · unfold pollInit
    dsimp only
    split <;> rfl
  · unfold pollFirLoad
    dsimp only
    split_ifs <;> rfl
  · unfold pollFirEnable
    dsimp only
    split_ifs <;> rfl
  · unfold pollRfpll
    dsimp only
    split <;> rfl
  · unfold pollSampleRate
    dsimp only
    split_ifs <;> rfl
  · unfold pollBandwidth
    dsimp only
    split_ifs <;> rfl
  · unfold pollRfdc
    dsimp only
    split_ifs <;> rfl

theorem pollTxQuadInit_faulted (st : Status) :
    (s.pollTxQuadInit a st).calibrationFaulted = true := by
  unfold pollTxQuadInit
  dsimp only
  split_ifs
  · exact failTxQuadCalibration_faulted a (by simpa using h) _
  · exact h
  · exact h

theorem pollTxQuadCommand_faulted (st : Status) (io : Bool) :
    (s.pollTxQuadCommand a st io).1.calibrationFaulted = true := by
  unfold pollTxQuadCommand
  dsimp only
  split_ifs
  · exact failTxQuadCalibration_faulted a (by simpa using h) _
  · exact latchCalibrationFault_faulted a (by exact h) _
  · exact latchCalibrationFault_faulted a (by exact h) _
  · exact h
  · exact latchCalibrationFault_faulted a (by exact h) _
  · exact latchCalibrationFault_faulted a (by exact h) _
  · exact h

theorem pollTxQuad_faulted (i io : Bool) : (s.pollTxQuad a i io).1.calibrationFaulted = true := by
  unfold pollTxQuad
  dsimp only
  split_ifs
  · exact h
  · exact pollTxQuadInit_faulted a (by simpa using h) _
  · exact pollTxQuadCommand_faulted a (by simpa using h) _ _

theorem complete_faulted (rv : Bool) : (s.complete a rv).calibrationFaulted = true := by
  have hlatch := latchCalibrationFault_faulted a h .unknownComplete
  unfold complete
  dsimp only
  split <;> simpa using hlatch

/-! ## A faulted INIT -/

omit h

/-- What a successful board reset leaves: no PHY and no continuation. -/
structure ResetDone (s : RficState) : Prop where
  phy : s.phy = none
  started : s.initJobStarted = false
  pending : s.calibrationPending = false
  tail : s.tail = .idle
  initState : s.initState = .off

theorem deinitializeEnd_of_none (hphy : s.phy = none) (hstate : s.initState = .off) :
    (s.deinitializeEnd a true).2 = true ∧ ResetDone (s.deinitializeEnd a true).1 := by
  have h : s.deinitializeEnd a true = (s.retireContinuations, true) := by
    simp [deinitializeEnd, failClosedUnless, hphy]
  rw [h]
  exact ⟨rfl, hphy, rfl, rfl, rfl, hstate⟩

theorem deinitializeRfic_reset :
    (s.deinitializeRfic a true false).2 =
        (a.test .resetDeinit && a.test .clearDeinit && (s.phy.isNone || a.remove = .removed)) ∧
      ((s.deinitializeRfic a true false).2 = true → ResetDone (s.deinitializeRfic a true false).1)
    := by
  have hend (s' : RficState) (b : Bool) : (s'.deinitializeEnd a b).2 = b := rfl
  have hphy (s' : RficState) (b : Bool) (st : Status) : (s'.reportCleanupError b st).phy = s'.phy := by
    unfold reportCleanupError
    split <;> rfl
  unfold deinitializeRfic
  dsimp only
  cases hreset : a.test .resetDeinit with
  | false => simp
  | true =>
      rw [if_neg (by simp)]
      simp only [hphy, Bool.true_and]
      cases hclear : a.test .clearDeinit with
      | false =>
          split
          · simp [hend]
          · split <;> simp [hend]
      | true =>
          cases hp : s.phy with
          | none =>
              simp only [Option.isNone_none, if_true]
              refine ⟨by simp [hend], fun _ => (deinitializeEnd_of_none a ?_ rfl).2⟩
              simp
          | some phy =>
              rw [if_neg (by simp)]
              cases hr : a.remove with
              | removed =>
                  exact ⟨by simp [hend], fun _ => (deinitializeEnd_of_none a rfl rfl).2⟩
              | failed e c => simp

theorem faultedReset_iff :
    (s.faultedReset a).2 = a.boardReset s.phy ∧
      ((s.faultedReset a).2 = true → ResetDone (s.faultedReset a).1) := by
  obtain ⟨hok, hdone⟩ := deinitializeRfic_reset a (s := s)
  unfold faultedReset Adi.boardReset
  dsimp only
  by_cases hboard : a.test .clearFaulted = true ∧ a.test .resetAsserted = true
  · rw [if_neg (by simp [hboard])]
    cases hd : (s.deinitializeRfic a true false).2 with
    | false =>
        rw [hd] at hok
        simp only [Bool.not_false, if_true, hboard, Bool.true_and]
        simp [← hok]
    | true =>
        rw [hd] at hok
        have hdone := hdone hd
        simp only [Bool.not_true, Bool.false_eq_true, if_false, hboard, Bool.true_and]
        rw [← hok, Bool.true_and]
        unfold checkTrue
        cases a.test .resetReleased with
        | false => simp
        | true => simpa using hdone
  · rw [if_pos]
    · simp only [not_and, Bool.not_eq_true] at hboard
      cases hc : a.test .clearFaulted with
      | false => simp
      | true => simp [hboard hc]
    · cases hc : a.test .clearFaulted <;> simp_all

theorem initOn_of_reset (h : ResetDone s) :
    (s.initOn a).1.calibrationFaulted = !a.constructorStarts ∧
      (a.constructorStarts = true → (s.initOn a).1.initState = .off ∧
        (s.initOn a).1.calibrationPending = true) := by
  have hinit : s.jobs.initJobPending = false := by
    have := h.pending
    simp only [calibrationPending, Bool.or_eq_false_iff] at this
    tauto
  have hresult : (s.rficInitialize a).2 = a.constructorStarts ∧
      (a.constructorStarts = true → (s.rficInitialize a).1.initState = .off ∧
        (s.rficInitialize a).1.jobs.initJobPending = true) := by
    have hfirst : s.rficInitialize a =
        if !a.test .digTunePolicyValid then ({ s with initState := .off }.recordError
          (.error .einval), false)
        else
          let s :=
            { s with
              initState := .off
              frequencyInvalidRx := true
              frequencyInvalidTx := true }
          if !a.test .clearInit then (s.failClosedAfterPathMutation a, false)
          else s.initializeStart a := by
      unfold rficInitialize
      simp [h.phy, h.started, h.tail, h.initState, InitTail.idle]
    rw [hfirst]
    unfold initializeStart Adi.constructorStarts
    dsimp only
    split_ifs <;> simp_all
  obtain ⟨hok, hstate⟩ := hresult
  unfold initOn
  dsimp only
  cases hc : a.constructorStarts with
  | true =>
      rw [hc] at hok hstate
      rw [if_pos hok]
      refine ⟨rfl, fun _ => ⟨(hstate rfl).1, ?_⟩⟩
      simp [calibrationPending, (hstate rfl).2]
  | false =>
      rw [hc] at hok
      rw [if_neg (by simp [hok])]
      exact ⟨deinitializeRfic_faulted a rfl _ _, fun h => absurd h Bool.false_ne_true⟩

/-- The turns that this development excludes: an INIT ON handler, entered with
the latch set, that resets the board and starts the constructor. -/
def faultedInitStarts (s : RficState) : RficAct → Bool
  | .work a =>
      match s.queue.peek with
      | some e =>
          e.state = .running ∧ e.cmd = bladerfRficCommandInit ∧ e.ch = rficSystemChannel ∧
            e.value = 1 ∧ !s.jobs.txQuadRetuneOwner ∧ !s.jobs.owned ∧ s.calibrationFaulted ∧
            s.initState ≠ .on ∧ a.boardReset s.phy ∧ a.constructorStarts
      | none => false
  | _ => false

/-- The latch is cleared only by an INIT command that completes its reset. -/
def LatchLaw (s : RficState) (act : RficAct) (s' : RficState) : Prop :=
  s.calibrationFaulted = true → s'.calibrationFaulted = false →
    ∃ a e e', act = .work a ∧ s.queue.peek = some e ∧ s'.queue.peek = some e' ∧
      e.state = .running ∧ e'.state = .complete ∧ e.cmd = bladerfRficCommandInit ∧
      (e.value = 1 ∧ s'.initState = .on ∨ e.value = 0 ∧ s'.initState = .off)

section

variable (h : s.calibrationFaulted = true)

include h

theorem faultedReset_faulted :
    (s.faultedReset a).1.calibrationFaulted = true := by
  have hd := deinitializeRfic_faulted a h true false
  unfold faultedReset
  dsimp only
  split_ifs
  · exact h
  · exact hd
  · rw [checkTrue_faulted]
    exact hd

theorem cmdWrInit_faulted {v : BitVec 64}
    (hc : (s.cmdWrInit a v).1.calibrationFaulted = false) :
    v = 0 ∧ (s.cmdWrInit a v).2 = true ∧ ResetDone (s.cmdWrInit a v).1 ∨
      v = 1 ∧ s.initState ≠ .on ∧ a.boardReset s.phy = true ∧ a.constructorStarts = true := by
  obtain ⟨hok, hdone⟩ := faultedReset_iff a (s := s)
  have hreset := faultedReset_faulted a h
  unfold cmdWrInit at hc ⊢
  dsimp only at hc ⊢
  by_cases h0 : v = 0
  · simp only [h0, if_true, h] at hc ⊢
    left
    cases hr : (s.faultedReset a).2 with
    | false =>
        simp only [hr, Bool.not_false, if_true, hreset] at hc
        cases hc
    | true =>
        have := hdone hr
        simp only [Bool.not_true, Bool.false_eq_true, if_false, true_and]
        exact ⟨this.phy, this.started, this.pending, this.tail, this.initState⟩
  · simp only [h0, if_false] at hc ⊢
    by_cases h1 : v = 1
    · simp only [h1, if_true] at hc ⊢
      right
      split at hc
      · rw [h] at hc
        cases hc
      · rename_i hon
        cases hr : (s.faultedReset a).2 with
        | false =>
            simp only [hr, Bool.not_false, if_true, hreset] at hc
            cases hc
        | true =>
            simp only [hr, Bool.not_true, Bool.false_eq_true, if_false] at hc
            rw [(initOn_of_reset a (hdone hr)).1] at hc
            exact ⟨trivial, hon, hok ▸ hr, by simpa using hc⟩
    · simp only [h1, if_false] at hc
      split_ifs at hc
      · rw [h] at hc
        cases hc
      · rw [rficStandby_faulted a h] at hc
        cases hc
      · rw [recordError_faulted, h] at hc
        cases hc

theorem cmdWrInit_starts (hon : s.initState ≠ .on)
    (hreset : a.boardReset s.phy = true) (hstarts : a.constructorStarts = true) :
    (s.cmdWrInit a 1).1.calibrationFaulted = false ∧ (s.cmdWrInit a 1).1.initState = .off ∧
      (s.cmdWrInit a 1).1.calibrationPending = true := by
  obtain ⟨hok, hdone⟩ := faultedReset_iff a (s := s)
  have hr : (s.faultedReset a).2 = true := hok.trans hreset
  obtain ⟨hfault, hstate⟩ := initOn_of_reset a (hdone hr)
  have heq : s.cmdWrInit a 1 = (s.faultedReset a).1.initOn a := by
    simp [cmdWrInit, hon, h, hr]
  rw [heq, hfault, hstarts]
  exact ⟨rfl, hstate hstarts⟩

theorem enterCallback_faulted {e : RficQueueEntry}
    (hc : (s.enterCallback a e).1.calibrationFaulted = false) :
    e.cmd = bladerfRficCommandInit ∧ e.ch = rficSystemChannel ∧
      (e.value = 0 ∧ (s.enterCallback a e).2 = .finish true ∧
          ResetDone (s.enterCallback a e).1 ∨
        e.value = 1 ∧ s.initState ≠ .on ∧ a.boardReset s.phy = true ∧
          a.constructorStarts = true) := by
  have hstate : (s.enterCallback a e).1 = (s.callbackResult a e).1 := by
    unfold enterCallback
    dsimp only
    split <;> rfl
  have hturn (hp : (s.callbackResult a e).1.calibrationPending = false) :
      (s.enterCallback a e).2 = .finish (s.callbackResult a e).2 := by
    unfold enterCallback
    dsimp only
    rw [if_neg (by simp [hp])]
  rw [hstate] at hc ⊢
  by_cases hcmd : e.cmd = bladerfRficCommandInit
  · have hptr : getCmdPtr e.cmd = some .init := by simp [getCmdPtr, hcmd]
    unfold callbackResult at hc hturn ⊢
    simp only [hptr] at hc hturn ⊢
    split_ifs at hc hturn ⊢ with hvalid hallowed hwide
    · rw [h] at hc
      cases hc
    · rw [recordError_faulted, h] at hc
      cases hc
    · rw [h] at hc
      cases hc
    · have hch : e.ch = rficSystemChannel := by
        by_contra hne
        simp [checkValidity, hne, WriteFn.chanTx, WriteFn.chanRx, WriteFn.initReqd] at hvalid
      refine ⟨hcmd, hch, ?_⟩
      rcases cmdWrInit_faulted a h hc with ⟨h0, hrv, hdone⟩ | h1
      · refine .inl ⟨h0, ?_, hdone⟩
        rw [hturn hdone.pending]
        exact congrArg Turn.finish hrv
      · exact .inr h1
  · exfalso
    unfold callbackResult at hc
    split at hc
    · rw [h] at hc
      cases hc
    · split_ifs at hc with hvalid hallowed
      · rw [h] at hc
        cases hc
      · rw [recordError_faulted, h] at hc
        cases hc
      · simp [commandAllowed, h, hcmd] at hallowed
      · simp [commandAllowed, h, hcmd] at hallowed

end

/-! ## One turn of the worker -/

def pollsNothing (j : RficJobs) : Bool :=
  !(j.initJobPending || j.firLoadJobPending || j.firEnableJobPending || j.rfpllJobPending ||
    j.sampleRateJobPending || j.bandwidthJobPending || j.txQuadJobPending || j.rfdcJobPending)

theorem runHead_of_pollsNothing {e : RficQueueEntry} (h : pollsNothing s.jobs) :
    s.runHead a e = s.enterCallback a e := by
  simp only [pollsNothing, Bool.not_eq_true', Bool.or_eq_false_iff] at h
  simp [runHead, h]

theorem runHead_faulted (h : s.calibrationFaulted = true) {e : RficQueueEntry}
    (hc : (s.runHead a e).1.calibrationFaulted = false) : pollsNothing s.jobs = true := by
  have hpoll (i : Bool) := poll_faulted a (s := s) i
  by_contra hno
  simp only [pollsNothing, Bool.not_eq_true', Bool.not_eq_false] at hno
  unfold runHead at hc
  dsimp only at hc
  split_ifs at hc
  · rw [(hpoll false).1, h] at hc
    cases hc
  · rw [(hpoll false).2.1, h] at hc
    cases hc
  · rw [(hpoll _).2.2.1, h] at hc
    cases hc
  · rw [(hpoll false).2.2.2.1, h] at hc
    cases hc
  · rw [(hpoll _).2.2.2.2.1, h] at hc
    cases hc
  · rw [(hpoll _).2.2.2.2.2.1, h] at hc
    cases hc
  · rw [pollTxQuad_faulted a h] at hc
    cases hc
  · rw [(hpoll _).2.2.2.2.2.2, h] at hc
    cases hc
  · simp_all

theorem complete_of_reset (hd : ResetDone s) (rv : Bool) :
    (s.complete a rv).calibrationFaulted = s.calibrationFaulted ∧
      (s.complete a rv).initState = .off := by
  simp [complete, latchCalibrationFault, hd.phy, hd.initState]

theorem peek_map_plain (q : RficQueue) : q.plain.peek = q.peek.map RficQueueEntry.plain := by
  obtain ⟨⟨items, hfits⟩⟩ := q
  cases items <;> rfl

theorem complete_peek {e : RficQueueEntry} (rv : Bool) (hp : s.queue.peek = some e)
    (he : e.state = .running) :
    ∃ e', (s.complete a rv).queue.peek = some e' ∧ e'.state = .complete := by
  obtain ⟨e', hc, -, -, -, -, -, hq⟩ := s.complete_queue a rv hp he
  have hhead : (s.complete a rv).queue.plain.peek = some e' := by
    rw [hq, RficQueue.modifyHead, RficQueue.peek, Lib.Fifo.peek_modifyHead]
    change s.queue.plain.peek.map _ = _
    rw [peek_map_plain, hp]
    rfl
  rw [peek_map_plain] at hhead
  obtain ⟨e'', hpeek, hplain⟩ := Option.map_eq_some_iff.mp hhead
  refine ⟨e'', hpeek, ?_⟩
  rw [← RficQueueEntry.plain_state, hplain, hc]

theorem commandWork_faulted (h : s.calibrationFaulted = true)
    (hc : (s.commandWork a).calibrationFaulted = false) :
    ∃ e, s.queue.peek = some e ∧ e.state = .running ∧ e.cmd = bladerfRficCommandInit ∧
      s.jobs.txQuadRetuneOwner = false ∧ pollsNothing s.jobs = true ∧ e.ch = rficSystemChannel ∧
      (e.value = 0 ∧ (s.commandWork a).initState = .off ∧
          (∃ e', (s.commandWork a).queue.peek = some e' ∧ e'.state = .complete) ∨
        e.value = 1 ∧ s.initState ≠ .on ∧ a.boardReset s.phy = true ∧
          a.constructorStarts = true) := by
  unfold commandWork at hc ⊢
  cases hp : s.queue.peek with
  | none =>
      rw [hp] at hc
      dsimp only at hc
      split at hc
      · exact absurd (h.symm.trans hc) nofun
      · rw [h] at hc
        cases hc
  | some e =>
      rw [hp] at hc
      dsimp only at hc ⊢
      cases ho : s.jobs.txQuadRetuneOwner with
      | true =>
          rw [ho, if_pos rfl, h] at hc
          cases hc
      | false =>
          simp only [ho, Bool.false_eq_true, if_false] at hc ⊢
          cases he : e.state with
          | new =>
              simp only [he, h] at hc
              cases hc
          | complete =>
              simp only [he, h] at hc
              cases hc
          | running =>
              simp only [he] at hc ⊢
              have hrun : (s.runHead a e).1.calibrationFaulted = false := by
                by_contra hno
                have hno : (s.runHead a e).1.calibrationFaulted = true := by simpa using hno
                split at hc
                · rw [hno] at hc
                  cases hc
                · rw [complete_faulted a hno] at hc
                  cases hc
              have hnone := runHead_faulted a h hrun
              rw [runHead_of_pollsNothing a hnone] at hrun ⊢
              obtain ⟨hcmd, hch, hcase⟩ := enterCallback_faulted a h hrun
              refine ⟨e, rfl, he, hcmd, trivial, hnone, hch, ?_⟩
              rcases hcase with ⟨h0, hturn, hdone⟩ | h1
              · left
                rw [hturn]
                dsimp only
                obtain ⟨e₁, hp₁, he₁⟩ := RficQueue.peek_plain (enterCallback_plain a s e) hp
                have hstate : e₁.state = .running := by
                  rw [← RficQueueEntry.plain_state, he₁, RficQueueEntry.plain_state, he]
                exact ⟨h0, (complete_of_reset a hdone true).2, complete_peek a true hp₁ hstate⟩
              · exact .inr h1

theorem enterCallback_starts (h : s.calibrationFaulted = true) {e : RficQueueEntry}
    (hcmd : e.cmd = bladerfRficCommandInit) (hch : e.ch = rficSystemChannel) (hv : e.value = 1)
    (hon : s.initState ≠ .on) (hreset : a.boardReset s.phy = true)
    (hstarts : a.constructorStarts = true) :
    (s.enterCallback a e).1.calibrationFaulted = false ∧
      (s.enterCallback a e).1.initState = .off ∧ (s.enterCallback a e).2 = .yield := by
  obtain ⟨hfault, hstate, hpending⟩ := cmdWrInit_starts a h hon hreset hstarts
  have hcall : s.callbackResult a e = s.cmdWrInit a 1 := by
    simp [callbackResult, getCmdPtr, hcmd, hch, hv, checkValidity, rficChanIsValid,
      WriteFn.chanSystem, WriteFn.initReqd, commandAllowed, WriteFn.wide, callback]
  have hturn : s.enterCallback a e = ((s.cmdWrInit a 1).1, .yield) := by
    unfold enterCallback
    rw [hcall]
    exact if_pos hpending
  rw [hturn]
  exact ⟨hfault, hstate, rfl⟩

theorem pollsNothing_of_not_owned {j : RficJobs} (h : j.owned = false) :
    pollsNothing j = true := by
  simp only [RficJobs.owned, Bool.or_eq_false_iff] at h
  simp [pollsNothing, h]

theorem commandWork_starts (h : faultedInitStarts s (.work a) = true) :
    s.calibrationFaulted = true ∧ (s.commandWork a).calibrationFaulted = false ∧
      (s.commandWork a).initState = .off ∧ ∃ e, s.queue.peek = some e ∧ e.value = 1 := by
  unfold faultedInitStarts at h
  cases hp : s.queue.peek with
  | none =>
      rw [hp] at h
      cases h
  | some e =>
      simp only [hp, decide_eq_true_eq, Bool.not_eq_true'] at h
      obtain ⟨he, hcmd, hch, hv, hq, ho, hf, hon, hreset, hstarts⟩ := h
      obtain ⟨hfault, hstate, hturn⟩ := enterCallback_starts a hf hcmd hch hv hon hreset hstarts
      have hwork : s.commandWork a = (s.enterCallback a e).1 := by
        unfold commandWork
        simp only [hp, hq, he, Bool.false_eq_true, if_false]
        rw [runHead_of_pollsNothing a (pollsNothing_of_not_owned ho), hturn]
      rw [hwork]
      exact ⟨hf, hfault, hstate, e, rfl, hv⟩

/-! ## Runs -/

def ObeysLatch (s : RficState) (act : RficAct) : Prop :=
  ∀ s', s.step act = some s' → LatchLaw s act s'

/-- An INIT command completes its full reset: INIT ON with the part up, or
INIT OFF with the part down. -/
def FullReset (s : RficState) (act : RficAct) : Prop :=
  ∃ s' a e e', s.step act = some s' ∧ act = .work a ∧ s.queue.peek = some e ∧
    s'.queue.peek = some e' ∧ e.state = .running ∧ e'.state = .complete ∧
    e.cmd = bladerfRficCommandInit ∧
    (e.value = 1 ∧ s'.initState = .on ∨ e.value = 0 ∧ s'.initState = .off)

theorem startTxQuadForRetune_faulted (h : s.calibrationFaulted = true) :
    (s.startTxQuadForRetune a).1.calibrationFaulted = true := by
  have hstart : (s.startTxQuadCalibration a).1.calibrationFaulted = true := by
    unfold startTxQuadCalibration
    dsimp only
    split_ifs
    · exact failTxQuadCalibration_faulted a h _
    · exact h
    · exact failTxQuadCalibration_faulted a h _
    · exact h
  unfold startTxQuadForRetune
  dsimp only
  split <;> exact hstart

theorem pollTxQuadForRetune_faulted (h : s.calibrationFaulted = true) :
    (s.pollTxQuadForRetune a).1.calibrationFaulted = true := by
  have hfail (j : RficJobs) (st : Status) :
      (RficState.failTxQuadCalibration a { s with jobs := j } st).calibrationFaulted = true :=
    failTxQuadCalibration_faulted a (by exact h) st
  unfold pollTxQuadForRetune
  dsimp only
  split
  · exact h
  · split
    · exact h
    · split <;> split <;> first | exact hfail _ _ | exact h

theorem commandWriteAdmit_faulted (addr : BitVec 16) (data : BitVec 64) (id : BitVec 16) :
    (s.commandWriteAdmit addr data id).1.calibrationFaulted = s.calibrationFaulted := by
  have henqueue (ch cmd : BitVec 8) :
      (s.enqueueWrite ch cmd data id).1.calibrationFaulted = s.calibrationFaulted := by
    unfold enqueueWrite
    split
    · rfl
    · split
      · rfl
      · split <;> rfl
  unfold commandWriteAdmit
  dsimp only
  split
  · rfl
  · split
    · split <;> rfl
    · split
      · rfl
      · split
        · rfl
        · split
          · rfl
          · split
            · rfl
            · exact henqueue _ _

theorem step_faulted {act : RficAct} {s s' : RficState} (hs : s.step act = some s')
    (h : s.calibrationFaulted = true) (hc : s'.calibrationFaulted = false) :
    ∃ a, act = .work a ∧ s' = s.commandWork a := by
  have hkeep (b : RficState) (hb : b.calibrationFaulted = true) (he : b = s') :
      ∃ a, act = .work a ∧ s' = s.commandWork a := by
    rw [he, hc] at hb
    cases hb
  cases act with
  | write addr data id =>
      cases hs
      exact hkeep _ ((commandWriteAdmit_faulted addr data id).trans h) rfl
  | work a =>
      simp only [step] at hs
      split at hs
      · cases hs
      · cases hs
        exact ⟨a, rfl, rfl⟩
  | retuneTxQuadStart a =>
      simp only [step] at hs
      split at hs <;> cases hs
      exact hkeep _ (startTxQuadForRetune_faulted a h) rfl
  | retuneTxQuadPoll a =>
      simp only [step] at hs
      split at hs <;> cases hs
      exact hkeep _ (pollTxQuadForRetune_faulted a h) rfl
  | retuneGainTableStart a r =>
      simp only [step] at hs
      split at hs <;> cases hs
      refine hkeep _ ?_ rfl
      unfold startGainTableForRetune
      dsimp only
      split_ifs <;> exact h
  | retuneGainTablePoll a =>
      simp only [step] at hs
      split at hs <;> cases hs
      refine hkeep _ ?_ rfl
      unfold pollGainTableForRetune
      dsimp only
      split_ifs <;> exact h
  | retuneFrequency tx i =>
      simp only [step] at hs
      split at hs <;> cases hs
      exact hkeep _ ((setFrequencyInvalid_faulted s tx i).trans h) rfl

theorem obeysLatch_iff {act : RficAct} {s s' : RficState} (hs : s.step act = some s') :
    ObeysLatch s act ↔ faultedInitStarts s act = false := by
  constructor
  · intro hlaw
    by_contra hno
    cases act with
    | work a =>
        obtain ⟨hf, hc, hoff, e, hp, hv⟩ := commandWork_starts a (by simpa using hno)
        have hs' : s' = s.commandWork a := by
          simp only [step] at hs
          split at hs <;> cases hs
          rfl
        rw [← hs'] at hc hoff
        obtain ⟨_, e₁, _, -, hp₁, -, -, -, -, ⟨-, hon⟩ | ⟨hv₀, -⟩⟩ := hlaw s' hs hf hc
        · rw [hoff] at hon
          cases hon
        · rw [hp] at hp₁
          cases hp₁
          rw [hv] at hv₀
          cases hv₀
    | _ => exact hno rfl
  · intro hno s₁ hs₁ hf hc
    obtain ⟨a, rfl, rfl⟩ := step_faulted hs₁ hf hc
    obtain ⟨e, hp, he, hcmd, howner, hnone, hch, ⟨h0, hoff, e', hp', he'⟩ | hstarts⟩ :=
      commandWork_faulted a hf hc
    · exact ⟨a, e, e', rfl, hp, hp', he, he', hcmd, .inr ⟨h0, hoff⟩⟩
    · exfalso
      obtain ⟨hv, hon, hreset, hstart⟩ := hstarts
      have hgain : s.jobs.gainTableRetuneOwner = false := by
        simp only [step] at hs₁
        split at hs₁
        · cases hs₁
        · rename_i h
          simp only [retuneOwner, Bool.or_eq_true, not_or] at h
          simpa using h.2
      have howned : s.jobs.owned = false := by
        simp only [pollsNothing, Bool.not_eq_true', Bool.or_eq_false_iff] at hnone
        simp [RficJobs.owned, hnone, hgain]
      simp [faultedInitStarts, hp, he, hcmd, hch, hv, howner, howned, hf, hon, hreset, hstart]
        at hno

theorem commandWriteAdmit_of_faulted (h : s.calibrationFaulted = true) {addr : BitVec 16}
    (hcmd : unpackCmd addr ≠ bladerfRficCommandInit)
    (hack : unpackCmd addr ≠ bladerfRficCommandResultAck) (data : BitVec 64) (id : BitVec 16) :
    s.commandWriteAdmit addr data id = (s, .rejected) := by
  unfold commandWriteAdmit
  dsimp only
  split
  · rfl
  · simp [commandAllowed, h, hcmd]

/-- The runs that obey the latch law are those without a faulted INIT ON that
gets its constructor started.  In these the latch, once set, stays set and keeps
every other command out until an INIT command has completed its full reset. -/
theorem rfic_fault_latch_law (acts : List RficAct) (s : RficState) :
    (Lib.Steps step ObeysLatch commandInit acts s ↔
        Lib.Steps step (fun s act => faultedInitStarts s act = false) commandInit acts s) ∧
      (Lib.Steps step (fun s act => faultedInitStarts s act = false) commandInit acts s →
        s.calibrationFaulted = true → ∀ acts' t,
          Lib.Steps step (fun s act => faultedInitStarts s act = false ∧ ¬FullReset s act)
            s acts' t →
          t.calibrationFaulted = true ∧
            ∀ addr data id, unpackCmd addr ≠ bladerfRficCommandInit →
              unpackCmd addr ≠ bladerfRficCommandResultAck →
              t.commandWriteAdmit addr data id = (t, .rejected)) := by
  refine ⟨⟨fun hrun => ?_, fun hrun => ?_⟩, fun _ hf acts' t hrun => ?_⟩
  · induction hrun with
    | nil => exact .nil
    | snoc _ hok hs ih => exact .snoc ih ((obeysLatch_iff hs).mp hok) hs
  · induction hrun with
    | nil => exact .nil
    | snoc _ hok hs ih => exact .snoc ih ((obeysLatch_iff hs).mpr hok) hs
  · have hlatch : t.calibrationFaulted = true := by
      refine Lib.Steps.invariant hrun (P := fun t => t.calibrationFaulted = true) hf
        fun {b act b'} hb hok hs => ?_
      by_contra hc
      have hlaw := (obeysLatch_iff hs).mpr hok.1 b' hs hb (by simpa using hc)
      obtain ⟨a, e, e', hact, hrest⟩ := hlaw
      exact hok.2 ⟨b', a, e, e', hs, hact, hrest⟩
    exact ⟨hlatch, fun addr data id hcmd hack =>
      commandWriteAdmit_of_faulted hlatch hcmd hack data id⟩

/-- The drivers answer calmly, but no constructor can be started. -/
def noConstructor : Adi :=
  { Adi.calm with status := fun c => if c = .initStart then .error .eio else .ok }

def failedInit : List RficAct :=
  [.write 0x0f01 1 0, .work Adi.calm, .work noConstructor, .work Adi.calm]

/-- After a failed INIT ON a frequency command is refused, and goes on being
refused. -/
theorem rfic_fault_latch_law_failedInit :
    ∃ s, Lib.Steps step (fun s act => faultedInitStarts s act = false) commandInit failedInit s ∧
      s.calibrationFaulted = true ∧ s.step (.write 0x0004 2400000000 0) = some s ∧
      s.commandWriteAdmit 0x0004 2400000000 0 = (s, .rejected) := by
  have hrun : Lib.exec step (fun s act => faultedInitStarts s act = false) commandInit
      failedInit = some _ := rfl
  refine ⟨_, Lib.Steps.of_exec hrun, rfl, rfl, ?_⟩
  have hlaw := (rfic_fault_latch_law failedInit _).2 (Lib.Steps.of_exec hrun) rfl
    [.write 0x0004 2400000000 0] _ (.snoc .nil ⟨rfl, fun ⟨_, _, _, _, _, h, _⟩ => nomatch h⟩ rfl)
  exact hlaw.2 _ _ _ (by decide) (by decide)

/-- The next INIT ON resets the board, starts the constructor and forgets the
fault, with initialization still pending. -/
theorem rfic_fault_latch_broken :
    ¬∀ acts s, Lib.Steps step (fun _ _ => True) commandInit acts s → ∀ act, ObeysLatch s act := by
  intro h
  have hlaw := h (failedInit ++ [RficAct.write 0x0f01 1 0, .work Adi.calm]) _ (Lib.Steps.of_exec rfl)
    (.work Adi.calm) _ rfl rfl rfl
  obtain ⟨_, _, _, _, hp, _, _, _, _, ⟨-, hon⟩ | ⟨hv, -⟩⟩ := hlaw
  · cases hon
  · cases hp
    cases hv

end RficState
end BladeRF
