/-
# `Nios.RficContinuation` — one continuation at a time

The flags of `RficJobs` never hold more than one continuation: they are idle,
one pending job, or one resume flag.  `Cont` names the continuations, and the
invariant says which of them the running command can have.  A command retires
its continuation before it completes, so that nothing is left for the next one.

`_rfic_standby` is the exception.  It starts an RFPLL transaction and sets its
final state in the same turn; entered again it returns at once, and the resume
flag survives the command.  A run in which no INIT STANDBY gets that far keeps
the invariant.
-/
import BladeRF.Nios.RficExactlyOnce
import BladeRF.Nios.RficFaultLatch

namespace BladeRF

open RficJobs RficState

/-! ## Continuations -/

inductive Cont where
  | idle
  /-- owned by RETUNE2 -/
  | txQuadRetune
  | gainTable
  /-- jobs of the worker, and the flags that their polls leave -/
  | init
  | firLoad
  | firLoadDone
  | firEnable
  | firEnableDone
  | firPairDone
  | sampleRate
  | sampleRateDone
  | bandwidth
  | bandwidthDone
  | rfpll
  | rfpllDone
  | rfdc (resume : Bool)
  | rfdcDone
  | txQuad (resume : Bool)
  | txQuadDone
deriving DecidableEq

def Cont.jobs : Cont → RficJobs
  | .idle => .idle
  | .txQuadRetune =>
      { RficJobs.idle with
        txQuadJobPending := true
        txQuadRetuneOwner := true }
  | .gainTable => { RficJobs.idle with gainTableRetuneOwner := true }
  | .init => { RficJobs.idle with initJobPending := true }
  | .firLoad => { RficJobs.idle with firLoadJobPending := true }
  | .firLoadDone => { RficJobs.idle with firLoadInitPairResume := true }
  | .firEnable => { RficJobs.idle with firEnableJobPending := true }
  | .firEnableDone => { RficJobs.idle with firEnableResumeCommand := true }
  | .firPairDone => { RficJobs.idle with firEnableInitPairResume := true }
  | .sampleRate => { RficJobs.idle with sampleRateJobPending := true }
  | .sampleRateDone => { RficJobs.idle with sampleRateResumeCommand := true }
  | .bandwidth => { RficJobs.idle with bandwidthJobPending := true }
  | .bandwidthDone => { RficJobs.idle with bandwidthResumeCommand := true }
  | .rfpll => { RficJobs.idle with rfpllJobPending := true }
  | .rfpllDone => { RficJobs.idle with frequencyRfpllResumeCommand := true }
  | .rfdc resume =>
      { RficJobs.idle with
        rfdcJobPending := true
        rfdcResumeEnableCommand := resume }
  | .rfdcDone => { RficJobs.idle with rfdcResumeEnableCommand := true }
  | .txQuad resume =>
      { RficJobs.idle with
        txQuadJobPending := true
        txQuadResumeCommand := resume }
  | .txQuadDone => { RficJobs.idle with txQuadResumeCommand := true }

@[simp] theorem Cont.idle_jobs : Cont.idle.jobs = .idle := rfl

/-- The flags that share `job_context`. -/
def RficJobs.jobFlags (j : RficJobs) : List Bool :=
  [j.rfdcJobPending, j.txQuadJobPending, j.sampleRateJobPending, j.bandwidthJobPending,
    j.initJobPending, j.firLoadJobPending, j.firEnableJobPending, j.rfpllJobPending,
    j.gainTableRetuneOwner]

/-- The flags of the worker's own commands: every job but a TX quadrature
calibration of RETUNE2, and every resume flag. -/
def RficJobs.commandFlags (j : RficJobs) : List Bool :=
  [j.initJobPending, j.firLoadJobPending, j.firEnableJobPending, j.sampleRateJobPending,
    j.bandwidthJobPending, j.rfpllJobPending, j.rfdcJobPending,
    j.txQuadJobPending && !j.txQuadRetuneOwner, j.firLoadInitPairResume,
    j.firEnableInitPairResume, j.firEnableResumeCommand, j.sampleRateResumeCommand,
    j.bandwidthResumeCommand, j.frequencyRfpllResumeCommand, j.rfdcResumeEnableCommand,
    j.txQuadResumeCommand]

theorem Cont.jobFlags_le (c : Cont) : c.jobs.jobFlags.count true ≤ 1 := by
  cases c <;> simp [jobs, RficJobs.jobFlags, RficJobs.idle]

/-- The answer to the start of an RFPLL transaction, or to its fallback. -/
def Adi.rfpllAccepted (a : Adi) (tx : Bool) : Status :=
  if a.status (.rfpllStart tx) = .error .enotsup then a.status (.setLoFreq tx)
  else a.status (.rfpllStart tx)

/-- `_rfic_cmd_wr_frequency_internal`, started afresh, gets an RFPLL transaction. -/
def Adi.loStarts (a : Adi) (tx : Bool) : Bool :=
  !(a.status (.fastlockExitForeign tx)).failed && a.test (.frequencyRead tx) &&
    !(a.status (.frequencySpdt tx firstChannel)).failed &&
    !(a.status (.frequencySpdt tx secondChannel)).failed &&
    a.test (.frequencyWrite tx) && !(a.status (.frequencyPort tx)).failed &&
    !(a.rfpllAccepted tx).failed

def Adi.loActive (a : Adi) (tx : Bool) : Bool := a.loStarts tx && a.test (.rfpllActive tx)

/-- `_rfic_standby` gets past the RFFE and the TX mute. -/
def Adi.standbyReady (a : Adi) : Bool :=
  a.test .clearStandby &&
    !(a.status (.txmuteGet firstChannel)).failed &&
    !(a.status (.txmuteSet firstChannel)).failed &&
    !(a.status (.txmuteGet secondChannel)).failed &&
    !(a.status (.txmuteSet secondChannel)).failed

namespace RficState

variable (a : Adi) (s : RficState)

/-! ## What the small operations leave alone -/

section Frame

variable (st : Status) (tx b : Bool) (u : AdiTest)

@[simp] theorem recordError_frame :
    (s.recordError st).jobs = s.jobs ∧ (s.recordError st).tail = s.tail ∧
      (s.recordError st).phy = s.phy ∧ (s.recordError st).initState = s.initState :=
  ⟨rfl, rfl, rfl, rfl⟩

@[simp] theorem recordCleanupError_frame :
    (s.recordCleanupError st).jobs = s.jobs ∧ (s.recordCleanupError st).tail = s.tail ∧
      (s.recordCleanupError st).phy = s.phy ∧ (s.recordCleanupError st).initState = s.initState :=
  ⟨rfl, rfl, rfl, rfl⟩

@[simp] theorem setFrequencyInvalid_frame :
    (s.setFrequencyInvalid tx b).jobs = s.jobs ∧ (s.setFrequencyInvalid tx b).tail = s.tail ∧
      (s.setFrequencyInvalid tx b).phy = s.phy ∧
      (s.setFrequencyInvalid tx b).initState = s.initState := by
  cases tx <;> exact ⟨rfl, rfl, rfl, rfl⟩

@[simp] theorem forceRfPathOff_frame :
    (s.forceRfPathOff a).jobs = s.jobs ∧ (s.forceRfPathOff a).tail = s.tail ∧
      (s.forceRfPathOff a).phy = s.phy ∧ (s.forceRfPathOff a).initState = s.initState := by
  unfold forceRfPathOff
  split <;> exact ⟨rfl, rfl, rfl, rfl⟩

@[simp] theorem failClosed_frame :
    (s.failClosedAfterPathMutation a).jobs = s.jobs ∧
      (s.failClosedAfterPathMutation a).tail = s.tail ∧
      (s.failClosedAfterPathMutation a).phy = s.phy ∧
      (s.failClosedAfterPathMutation a).initState = .off := by
  simp [failClosedAfterPathMutation]

@[simp] theorem latchCalibrationFault_frame :
    (s.latchCalibrationFault a u).1.jobs = s.jobs ∧
      (s.latchCalibrationFault a u).1.tail = s.tail ∧
      (s.latchCalibrationFault a u).1.phy = s.phy := by
  unfold latchCalibrationFault
  split <;> simp

@[simp] theorem check_frame : (s.check st).1.jobs = s.jobs ∧ (s.check st).1.tail = s.tail := by
  unfold check
  split <;> exact ⟨rfl, rfl⟩

@[simp] theorem checkTrue_frame :
    (s.checkTrue b).1.jobs = s.jobs ∧ (s.checkTrue b).1.tail = s.tail ∧
      (s.checkTrue b).1.phy = s.phy ∧ (s.checkTrue b).1.initState = s.initState := by
  unfold checkTrue
  split <;> exact ⟨rfl, rfl, rfl, rfl⟩

@[simp] theorem enableCommit_frame :
    (s.enableCommit a u).1.jobs = s.jobs ∧ (s.enableCommit a u).1.tail = s.tail := by
  unfold enableCommit
  split <;> simp

@[simp] theorem samplerateCommit_frame (ch : BitVec 8) :
    (s.samplerateCommit a ch).1.jobs = s.jobs ∧ (s.samplerateCommit a ch).1.tail = s.tail := by
  unfold samplerateCommit
  split_ifs <;> simp

@[simp] theorem claimThen_idle (h : s.jobs = .idle) : s.claimThen st = st := by
  simp [claimThen, h, owned, idle]

end Frame

/-! ## Starts -/

/-- The parts of the state that decide whether a command reaches its handler. -/
structure SameGate (s s' : RficState) : Prop where
  initState : s'.initState = s.initState
  faulted : s'.calibrationFaulted = s.calibrationFaulted

/-- What only INIT touches; any handler may switch the part off. -/
def Apart (s s' : RficState) : Prop :=
  s'.tail = s.tail ∧ s'.phy = s.phy ∧ (s'.initState = s.initState ∨ s'.initState = .off)

theorem Apart.trans {s s₀ s' : RficState} (h : Apart s s₀) (h' : Apart s₀ s') : Apart s s' := by
  refine ⟨h'.1.trans h.1, h'.2.1.trans h.2.1, ?_⟩
  rcases h'.2.2 with he | he
  · rw [he]
    exact h.2.2
  · exact .inr he

theorem Apart.recordError {s s' : RficState} (h : Apart s s') (st : Status) :
    Apart s (s'.recordError st) := h

theorem Apart.setFrequencyInvalid {s s' : RficState} (h : Apart s s') (tx b : Bool) :
    Apart s (s'.setFrequencyInvalid tx b) := by
  cases tx <;> exact h

theorem Apart.failClosed {s s' : RficState} (h : Apart s s') (a : Adi) :
    Apart s (s'.failClosedAfterPathMutation a) :=
  ⟨by simp [h.1], by simp [h.2.1], .inr (by simp)⟩

theorem Apart.samplerateCommit {s s' : RficState} (h : Apart s s') (a : Adi) (ch : BitVec 8) :
    Apart s (s'.samplerateCommit a ch).1 := by
  unfold RficState.samplerateCommit check
  split_ifs <;> exact h

theorem Apart.enableCommit {s s' : RficState} (h : Apart s s') (a : Adi) (u : AdiTest) :
    Apart s (s'.enableCommit a u).1 := by
  unfold RficState.enableCommit
  split
  · exact h
  · exact h.failClosed a

/-- A handler of a command other than INIT: it leaves the tail alone, and what
it leaves pending keeps the way back into the handler open. -/
structure Leaves (allowed : List Cont) (s : RficState) (r : RficState × Bool) : Prop where
  apart : Apart s r.1
  jobs : r.1.jobs = .idle ∨ r.2 = true ∧ ∃ c ∈ allowed, r.1.jobs = c.jobs ∧ SameGate s r.1

theorem Leaves.of_idle {allowed : List Cont} {s : RficState} {r : RficState × Bool}
    (ha : Apart s r.1) (hj : r.1.jobs = .idle) : Leaves allowed s r := ⟨ha, .inl hj⟩

theorem Leaves.mono {l l' : List Cont} {s : RficState} {r : RficState × Bool}
    (h : Leaves l s r) (hl : l ⊆ l') : Leaves l' s r :=
  ⟨h.apart, h.jobs.imp id fun ⟨hr, c, hc, hrest⟩ => ⟨hr, c, hl hc, hrest⟩⟩

theorem Leaves.of_frame {l : List Cont} {s s₀ : RficState} {r : RficState × Bool}
    (h : Leaves l s₀ r) (ha : Apart s s₀) (hg : SameGate s s₀) : Leaves l s r where
  apart := ha.trans h.apart
  jobs := h.jobs.imp id fun ⟨hr, c, hc, hj, hg'⟩ =>
    ⟨hr, c, hc, hj, hg'.1.trans hg.1, hg'.2.trans hg.2⟩

theorem Leaves.failed {l : List Cont} {s : RficState} {r : RficState × Bool} (h : Leaves l s r)
    (hr : r.2 = false) : r.1.jobs = .idle := by
  rcases h.jobs with hj | ⟨hr', -⟩
  · exact hj
  · rw [hr] at hr'
    cases hr'

theorem failTxQuadCalibration_jobs (h : s.jobs = .idle) (st : Status) :
    (s.failTxQuadCalibration a st).jobs = .idle := by
  unfold failTxQuadCalibration
  dsimp only
  split_ifs <;> simp [h, idle]

theorem failTxQuadCalibration_apart (st : Status) : Apart s (s.failTxQuadCalibration a st) := by
  unfold failTxQuadCalibration
  dsimp only
  split_ifs
  · refine ⟨by simp, by simp, ?_⟩
    unfold latchCalibrationFault
    split
    · exact .inl rfl
    · exact .inr (by simp)
  · exact ⟨rfl, rfl, .inl rfl⟩
  · exact ⟨rfl, rfl, .inl rfl⟩

theorem startTxQuadCalibration_cases (h : s.jobs = .idle) :
    Apart s (s.startTxQuadCalibration a).1 ∧
      ((s.startTxQuadCalibration a).2 = .started ∧
          (s.startTxQuadCalibration a).1 = { s with jobs.txQuadJobPending := true } ∨
        (s.startTxQuadCalibration a).2 ≠ .started ∧
          (s.startTxQuadCalibration a).1.jobs = .idle ∧
          ((s.startTxQuadCalibration a).2 = .unneeded →
            (s.startTxQuadCalibration a).1 = s)) := by
  have hfail (st : Status) := failTxQuadCalibration_jobs a s h st
  unfold startTxQuadCalibration
  dsimp only
  split_ifs
  · exact ⟨failTxQuadCalibration_apart a s _, .inr ⟨nofun, hfail _, nofun⟩⟩
  · exact ⟨⟨rfl, rfl, .inl rfl⟩, .inr ⟨nofun, h, fun _ => rfl⟩⟩
  · exact ⟨failTxQuadCalibration_apart a s _, .inr ⟨nofun, hfail _, nofun⟩⟩
  · exact ⟨⟨rfl, rfl, .inl rfl⟩, .inl ⟨rfl, rfl⟩⟩

theorem startTxQuadForFrequency_leaves (h : s.jobs = .idle) :
    Leaves [.txQuad false] s
      ((s.startTxQuadForFrequency a).1, (s.startTxQuadForFrequency a).2 = .started) := by
  obtain ⟨ha, ⟨hst, heq⟩ | ⟨hst, hj, -⟩⟩ := startTxQuadCalibration_cases a s h
  · have hr : s.startTxQuadForFrequency a =
        ({ (s.startTxQuadCalibration a).1 with
          txQuadCommitTxFrequency := true
          jobs.txQuadResumeCommand := false
          jobs.txQuadRetuneOwner := false
          frequencyInvalidTx := true }, .started) := if_pos hst
    rw [hr, heq]
    refine ⟨⟨rfl, rfl, .inl rfl⟩, .inr ⟨by simp, _, List.mem_singleton_self _, ?_, rfl, rfl⟩⟩
    simp [h, Cont.jobs, idle]
  · have hr : s.startTxQuadForFrequency a = s.startTxQuadCalibration a := if_neg hst
    rw [hr]
    exact .of_idle ha hj

theorem startTxQuadForCommand_leaves (h : s.jobs = .idle) :
    Leaves [.txQuad true] s
      ((s.startTxQuadForCommand a).1, (s.startTxQuadForCommand a).2 = .started) := by
  obtain ⟨ha, ⟨hst, heq⟩ | ⟨hst, hj, -⟩⟩ := startTxQuadCalibration_cases a s h
  · have hr : s.startTxQuadForCommand a =
        ({ (s.startTxQuadCalibration a).1 with
          txQuadCommitTxFrequency := false
          jobs.txQuadResumeCommand := true
          jobs.txQuadRetuneOwner := false }, .started) := if_pos hst
    rw [hr, heq]
    refine ⟨⟨rfl, rfl, .inl rfl⟩, .inr ⟨by simp, _, List.mem_singleton_self _, ?_, rfl, rfl⟩⟩
    simp [h, Cont.jobs, idle]
  · have hr : s.startTxQuadForCommand a = s.startTxQuadCalibration a := if_neg hst
    rw [hr]
    exact .of_idle ha hj

theorem ensureRxRfdcCalibrated_cases (h : s.jobs = .idle) :
    (s.ensureRxRfdcCalibrated a).1.jobs = .idle ∧
        Apart s (s.ensureRxRfdcCalibrated a).1 ∧
        SameGate s (s.ensureRxRfdcCalibrated a).1 ∨
      s.ensureRxRfdcCalibrated a = ({ s with jobs.rfdcJobPending := true }, true) := by
  unfold ensureRxRfdcCalibrated
  dsimp only
  split_ifs
  · exact .inl ⟨h, ⟨rfl, rfl, .inl rfl⟩, rfl, rfl⟩
  · exact .inl ⟨h, ⟨rfl, rfl, .inl rfl⟩, rfl, rfl⟩
  · exact .inl ⟨h, ⟨rfl, rfl, .inl rfl⟩, rfl, rfl⟩
  · exact .inl ⟨h, ⟨rfl, rfl, .inl rfl⟩, rfl, rfl⟩
  · exact .inr rfl

/-! ## Handlers -/

theorem enableTxQuad_leaves (h : s.jobs = .idle) (ch : BitVec 8) (enable : Bool) :
    Leaves [.txQuad true] s (s.enableTxQuad a ch enable) := by
  have hl := startTxQuadForCommand_leaves a s h
  have ha : Apart s (s.startTxQuadForCommand a).1 := hl.apart
  have hidle (hr : (s.startTxQuadForCommand a).2 ≠ .started) :
      (s.startTxQuadForCommand a).1.jobs = .idle := hl.failed (by simp [hr])
  unfold enableTxQuad
  dsimp only
  split
  · split
    · rename_i hr
      exact .of_idle (ha.failClosed a) (by simp [hidle (by rw [hr]; nofun)])
    · refine ⟨ha, hl.jobs.imp id ?_⟩
      rintro ⟨-, c, hc, hj, hg⟩
      exact ⟨rfl, c, hc, hj, hg.1, hg.2⟩
    · rename_i hr
      exact .of_idle (ha.enableCommit a _) (by simp [hidle (by rw [hr]; nofun)])
  · exact .of_idle (Apart.enableCommit ⟨rfl, rfl, .inl rfl⟩ a _) (by simp [h])

theorem enableDirection_leaves (h : s.jobs = .idle) (ch : BitVec 8) (enable : Bool) :
    Leaves [.rfdc true, .txQuad true] s (s.enableDirection a ch enable) := by
  have htx : Leaves [.rfdc true, .txQuad true] s (s.enableTxQuad a ch enable) :=
    (enableTxQuad_leaves a s h ch enable).mono (by simp)
  unfold enableDirection
  dsimp only
  split
  · exact .of_idle ⟨rfl, rfl, .inl rfl⟩ h
  · split
    · exact .of_idle (by simp [Apart]) (by simp [h])
    · split
      · rcases ensureRxRfdcCalibrated_cases a s h with ⟨hj, ha, hg⟩ | heq
        · have hnone : (s.ensureRxRfdcCalibrated a).1.jobs.rfdcJobPending = false := by
            rw [hj]
            rfl
          split
          · exact .of_idle (ha.failClosed a) (by simp [hj])
          · rw [if_neg (by simp [hnone])]
            exact ((enableTxQuad_leaves a _ hj ch enable).of_frame ha hg).mono (by simp)
        · rw [heq]
          refine ⟨⟨rfl, rfl, .inl rfl⟩, .inr ⟨rfl, .rfdc true, by simp, ?_, rfl, rfl⟩⟩
          simp [h, Cont.jobs, idle]
      · exact htx

theorem cmdWrEnable_leaves {c : Cont} (hc : c ∈ [Cont.idle, .rfdcDone, .txQuadDone])
    (h : s.jobs = c.jobs) (ch : BitVec 8) (v : BitVec 64) :
    Leaves [.rfdc true, .txQuad true] s (s.cmdWrEnable a ch v) := by
  unfold cmdWrEnable
  dsimp only
  simp only [List.mem_cons, List.not_mem_nil, or_false] at hc
  rcases hc with rfl | rfl | rfl
  · have hj : s.jobs = .idle := h
    have htx : Leaves [.rfdc true, .txQuad true] s (s.enableTxQuad a ch (v ≠ 0)) :=
      (enableTxQuad_leaves a s hj ch (v ≠ 0)).mono (by simp)
    rw [if_neg (by simp [hj, idle]), if_neg (by simp [hj, idle])]
    split_ifs
    · exact .of_idle ⟨rfl, rfl, .inl rfl⟩ hj
    · exact .of_idle ⟨rfl, rfl, .inl rfl⟩ hj
    · exact .of_idle ⟨rfl, rfl, .inl rfl⟩ hj
    · exact .of_idle ⟨rfl, rfl, .inl rfl⟩ hj
    · exact .of_idle ⟨rfl, rfl, .inl rfl⟩ hj
    · exact enableDirection_leaves a s hj ch _
    · exact htx
  · rw [if_pos (by simp [h, Cont.jobs])]
    split_ifs
    · exact .of_idle (Apart.enableCommit ⟨rfl, rfl, .inl rfl⟩ a _)
        (by simp [h, Cont.jobs, RficJobs.idle])
    · exact .of_idle (Apart.failClosed ⟨rfl, rfl, .inl rfl⟩ a)
        (by simp [h, Cont.jobs, RficJobs.idle])
  · rw [if_neg (by simp [h, Cont.jobs, RficJobs.idle]), if_pos (by simp [h, Cont.jobs])]
    split_ifs
    · exact .of_idle (Apart.enableCommit ⟨rfl, rfl, .inl rfl⟩ a _)
        (by simp [h, Cont.jobs, RficJobs.idle])
    · exact .of_idle (Apart.failClosed ⟨rfl, rfl, .inl rfl⟩ a)
        (by simp [h, Cont.jobs, RficJobs.idle])

theorem cmdWrSamplerate_leaves {c : Cont} (hc : c ∈ [Cont.idle, .sampleRateDone])
    (h : s.jobs = c.jobs) (ch : BitVec 8) :
    Leaves [.sampleRate] s (s.cmdWrSamplerate a ch) := by
  unfold cmdWrSamplerate
  dsimp only
  rcases List.mem_pair.mp hc with rfl | rfl
  · have hj : s.jobs = .idle := h
    rw [if_neg (by simp [hj, idle])]
    split_ifs
    · exact .of_idle ⟨rfl, rfl, .inl rfl⟩ hj
    · refine ⟨⟨rfl, rfl, .inl rfl⟩, .inr ⟨rfl, _, List.mem_singleton_self _, ?_, rfl, rfl⟩⟩
      simp [hj, Cont.jobs]
    · exact .of_idle (Apart.samplerateCommit ⟨rfl, rfl, .inl rfl⟩ a ch) (by simp [hj])
  · rw [if_pos (by simp [h, Cont.jobs])]
    exact .of_idle (Apart.samplerateCommit ⟨rfl, rfl, .inl rfl⟩ a ch)
      (by simp [h, Cont.jobs, RficJobs.idle])

theorem cmdWrBandwidth_leaves {c : Cont} (hc : c ∈ [Cont.idle, .bandwidthDone])
    (h : s.jobs = c.jobs) : Leaves [.bandwidth] s (s.cmdWrBandwidth a) := by
  unfold cmdWrBandwidth
  dsimp only
  rcases List.mem_pair.mp hc with rfl | rfl
  · have hj : s.jobs = .idle := h
    rw [if_neg (by simp [hj, idle])]
    split_ifs
    · exact .of_idle ⟨rfl, rfl, .inl rfl⟩ hj
    · exact .of_idle ⟨rfl, rfl, .inl rfl⟩ hj
    · refine ⟨⟨rfl, rfl, .inl rfl⟩, .inr ⟨rfl, _, List.mem_singleton_self _, ?_, rfl, rfl⟩⟩
      simp [hj, Cont.jobs]
    · exact .of_idle ⟨rfl, rfl, .inl rfl⟩ hj
  · rw [if_pos (by simp [h, Cont.jobs])]
    exact .of_idle ⟨rfl, rfl, .inl rfl⟩ (by simp [h, Cont.jobs, RficJobs.idle])

theorem frequencyLoProgrammed_leaves (h : s.jobs = .idle) (ch : BitVec 8) :
    Leaves [.txQuad false, .rfdc false] s (s.frequencyLoProgrammed a ch) := by
  unfold frequencyLoProgrammed
  dsimp only
  split
  · have hl := startTxQuadForFrequency_leaves a s h
    have ha : Apart s (s.startTxQuadForFrequency a).1 := hl.apart
    have hidle (hr : (s.startTxQuadForFrequency a).2 ≠ .started) :
        (s.startTxQuadForFrequency a).1.jobs = .idle := hl.failed (by simp [hr])
    split
    · rename_i hr
      exact .of_idle (ha.recordError _) (by simp [hidle (by rw [hr]; nofun)])
    · refine ⟨ha, hl.jobs.imp id ?_⟩
      rintro ⟨-, c, hc, hj, hg⟩
      exact ⟨rfl, c, List.mem_cons.mpr (.inl (List.mem_singleton.mp hc)), hj, hg⟩
    · rename_i hr
      exact .of_idle (ha.setFrequencyInvalid _ _) (by simp [hidle (by rw [hr]; nofun)])
  · rcases ensureRxRfdcCalibrated_cases a s h with ⟨hj, ha, -⟩ | heq
    · have hnone : (s.ensureRxRfdcCalibrated a).1.jobs.rfdcJobPending = false := by
        rw [hj]
        rfl
      split
      · exact .of_idle (ha.recordError _) (by simp [hj])
      · rw [if_neg (by simp [hnone])]
        exact .of_idle (ha.setFrequencyInvalid _ _) (by simp [hj])
    · rw [heq]
      refine ⟨⟨rfl, rfl, .inl rfl⟩, .inr ⟨rfl, .rfdc false, by simp, ?_, rfl, rfl⟩⟩
      simp [h, Cont.jobs, idle]

structure LoPending (tx : Bool) (s : RficState) (r : RficState × Bool) : Prop where
  ok : r.2 = true
  jobs : r.1.jobs = Cont.rfpll.jobs
  tail : r.1.tail = s.tail
  phy : r.1.phy = s.phy
  gate : SameGate s r.1
  peer : r.1.frequencyPeerUnknown tx = s.frequencyPeerUnknown tx

theorem setFrequencyInvalid_peer (tx b : Bool) :
    (s.setFrequencyInvalid tx b).frequencyPeerUnknown tx = s.frequencyPeerUnknown tx := by
  cases tx <;> rfl

/-- The end of a fresh FREQUENCY whose transaction has been accepted. -/
def loStarted (a : Adi) (s : RficState) (ch : BitVec 8) (frequency : BitVec 64) (i : Bool) :
    RficState × Bool :=
  if a.test (.rfpllActive (channelIsTx ch)) then
    ({ s with
      jobs.rfpllJobPending := true
      frequencyRfpllChannel := ch
      frequencyRfpllTarget := frequency
      frequencyRfpllInitSequence := i
      frequencyRfpllStatus := .ok }, true)
  else s.frequencyLoProgrammed a ch

theorem cmdWrFrequencyInternal_fresh (h : s.jobs = .idle) (ch : BitVec 8) (f : BitVec 64)
    (i : Bool) :
    (i = true ∨ s.frequencyPeerUnknown (channelIsTx ch) = false) ∧
        a.loStarts (channelIsTx ch) = true ∧
        s.cmdWrFrequencyInternal a ch f i =
          (s.setFrequencyInvalid (channelIsTx ch) true).loStarted a ch f i ∨
      (s.cmdWrFrequencyInternal a ch f i).2 = false ∧
        (s.cmdWrFrequencyInternal a ch f i).1.jobs = .idle ∧
        Apart s (s.cmdWrFrequencyInternal a ch f i).1 := by
  have hj : (s.setFrequencyInvalid (channelIsTx ch) true).jobs = .idle := by
    simpa using h
  have ha : Apart s (s.setFrequencyInvalid (channelIsTx ch) true) :=
    Apart.setFrequencyInvalid ⟨rfl, rfl, .inl rfl⟩ _ _
  unfold cmdWrFrequencyInternal
  dsimp only
  split
  · exact .inr ⟨rfl, h, rfl, rfl, .inl rfl⟩
  · rename_i hpeer
    rw [if_neg (by rw [hj]; simp [idle])]
    split
    · exact .inr ⟨rfl, hj, ha.recordError _⟩
    · split
      · exact .inr ⟨rfl, hj, ha.recordError _⟩
      · split
        · exact .inr ⟨rfl, hj, ha.recordError _⟩
        · split
          · exact .inr ⟨rfl, hj, ha.recordError _⟩
          · split
            · exact .inr ⟨rfl, hj, ha.recordError _⟩
            · split
              · exact .inr ⟨rfl, hj, ha.recordError _⟩
              · unfold frequencyStart
                dsimp only
                rw [claimThen_idle _ _ hj, ← Adi.rfpllAccepted]
                split
                · exact .inr ⟨rfl, by simp [h], (ha.recordError _).failClosed a⟩
                · refine .inl ⟨?_, ?_, rfl⟩
                  · cases i <;> simp_all
                  · simp_all [Adi.loStarts]

theorem cmdWrFrequencyInternal_leaves {c : Cont} (hc : c ∈ [Cont.idle, .rfpllDone])
    (h : s.jobs = c.jobs) (ch : BitVec 8) (f : BitVec 64) (i : Bool)
    (hpeer : c = .idle ∨ i = true ∨ s.frequencyPeerUnknown (channelIsTx ch) = false) :
    Leaves [.txQuad false, .rfdc false] s (s.cmdWrFrequencyInternal a ch f i) ∨
      LoPending (channelIsTx ch) s (s.cmdWrFrequencyInternal a ch f i) ∧
        (i = true ∨ s.frequencyPeerUnknown (channelIsTx ch) = false) ∧
        a.loActive (channelIsTx ch) = true := by
  rcases List.mem_pair.mp hc with rfl | rfl
  · rcases cmdWrFrequencyInternal_fresh a s h ch f i with ⟨hp, hst, heq⟩ | ⟨-, hj, ha⟩
    · rw [heq]
      unfold loStarted
      split
      · rename_i hact
        refine .inr ⟨⟨rfl, ?_, by simp, by simp, ⟨by simp, by simp⟩, ?_⟩, hp, ?_⟩
        · simp [h, Cont.jobs]
        · exact setFrequencyInvalid_peer s _ true
        · simp [Adi.loActive, hst, hact]
      · left
        exact (frequencyLoProgrammed_leaves a _ (by simpa using h) ch).of_frame
          (Apart.setFrequencyInvalid ⟨rfl, rfl, .inl rfl⟩ _ _) ⟨by simp, by simp⟩
    · exact .inl (.of_idle ha hj)
  · left
    unfold cmdWrFrequencyInternal
    dsimp only
    have hj : ({ s.setFrequencyInvalid (channelIsTx ch) true with
        jobs.frequencyRfpllResumeCommand := false } : RficState).jobs = .idle := by
      simp [h, Cont.jobs, idle]
    split
    · rename_i hunknown
      rcases hpeer with hi | hi | hp
      · cases hi
      · simp [hi] at hunknown
      · simp [hp] at hunknown
    · rw [if_pos (by simp [h, Cont.jobs])]
      split
      · exact .of_idle (by simp [Apart]) hj
      · split
        · exact .of_idle (by simp [Apart]) (by simpa using hj)
        · exact (frequencyLoProgrammed_leaves a _ hj ch).of_frame (by simp [Apart])
            ⟨by simp, by simp⟩

theorem startInitFirPair_leaves (h : s.jobs = .idle) (ch : BitVec 8) (n : ℕ) :
    Leaves [.firEnable] s (s.startInitFirPair a ch n) := by
  unfold startInitFirPair
  dsimp only
  split_ifs
  · exact .of_idle ⟨rfl, rfl, .inl rfl⟩ h
  · exact .of_idle ⟨rfl, rfl, .inl rfl⟩ h
  · refine ⟨⟨rfl, rfl, .inl rfl⟩, .inr ⟨rfl, _, List.mem_singleton_self _, ?_, rfl, rfl⟩⟩
    simp [h, Cont.jobs, idle]

theorem filterStart_leaves (h : s.jobs = .idle) (ch : BitVec 8) (n : ℕ) :
    Leaves [.firEnable] s (s.filterStart a ch n false) := by
  unfold filterStart
  dsimp only
  rw [if_neg Bool.false_ne_true]
  split
  · exact .of_idle ⟨rfl, rfl, .inl rfl⟩ h
  · generalize (if (a.status .firConfig).failed then a.status .firConfig
      else a.status .firConfigCleanup) = config
    split
    · exact .of_idle ⟨rfl, rfl, .inl rfl⟩ h
    · split
      · exact .of_idle ⟨rfl, rfl, .inl rfl⟩ h
      · refine ⟨⟨rfl, rfl, .inl rfl⟩, .inr ⟨rfl, _, List.mem_singleton_self _, ?_, rfl, rfl⟩⟩
        simp [h, Cont.jobs]

theorem filterStart_initPair_leaves (h : s.jobs = .idle) (ch : BitVec 8) (n : ℕ) :
    Leaves [.firLoad] s (s.filterStart a ch n true) := by
  unfold filterStart
  dsimp only
  rw [if_pos rfl]
  split
  · exact .of_idle ⟨rfl, rfl, .inl rfl⟩ h
  · split
    · exact .of_idle ⟨rfl, rfl, .inl rfl⟩ h
    · refine ⟨⟨rfl, rfl, .inl rfl⟩, .inr ⟨rfl, _, List.mem_singleton_self _, ?_, rfl, rfl⟩⟩
      simp [h, Cont.jobs]

theorem cmdWrFilter_leaves {c : Cont} (hc : c ∈ [Cont.idle, .firEnableDone])
    (h : s.jobs = c.jobs) (ch : BitVec 8) (n : ℕ) :
    Leaves [.firEnable] s (s.cmdWrFilter a ch n) := by
  unfold cmdWrFilter cmdWrFilterInternal
  dsimp only
  rcases List.mem_pair.mp hc with rfl | rfl
  · have hj : s.jobs = .idle := h
    rw [if_neg (by simp), if_neg (by simp [hj, idle]),
      if_neg (by simp [hj, idle])]
    exact filterStart_leaves a s hj ch n
  · rw [if_neg (by simp), if_neg (by simp [h, Cont.jobs, RficJobs.idle]),
      if_pos (by simp [h, Cont.jobs])]
    split_ifs <;> exact .of_idle ⟨rfl, rfl, .inl rfl⟩ (by simp [h, Cont.jobs, RficJobs.idle])

theorem cmdWrFilterInitPair_leaves {c : Cont} (hc : c ∈ [Cont.idle, .firLoadDone, .firPairDone])
    (h : s.jobs = c.jobs) (ch : BitVec 8) (n : ℕ) :
    Leaves [.firLoad, .firEnable] s (s.cmdWrFilterInitPair a ch n) := by
  unfold cmdWrFilterInitPair cmdWrFilterInternal
  dsimp only
  simp only [List.mem_cons, List.not_mem_nil, or_false] at hc
  rcases hc with rfl | rfl | rfl
  · have hj : s.jobs = .idle := h
    rw [if_neg (by simp [hj, idle]), if_neg (by simp [hj, idle]),
      if_neg (by simp [hj, idle])]
    exact (filterStart_initPair_leaves a s hj ch n).mono (by simp)
  · rw [if_pos (by simp [h, Cont.jobs])]
    have hj : ({ s with jobs.firLoadInitPairResume := false } : RficState).jobs = .idle := by
      simp [h, Cont.jobs, idle]
    split
    · exact .of_idle ⟨rfl, rfl, .inl rfl⟩ hj
    · split
      · exact .of_idle ⟨rfl, rfl, .inl rfl⟩ hj
      · have hl := startInitFirPair_leaves a _ hj ch n
        exact (hl.mono (by simp)).of_frame ⟨rfl, rfl, .inl rfl⟩ ⟨rfl, rfl⟩
  · rw [if_neg (by simp [h, Cont.jobs, RficJobs.idle]), if_pos (by simp [h, Cont.jobs])]
    split_ifs <;> exact .of_idle ⟨rfl, rfl, .inl rfl⟩ (by simp [h, Cont.jobs, RficJobs.idle])

/-! ## INIT -/

/-- The continuation of an INIT ON fits the step its tail stands at. -/
def TailFits : InitTailPhase → Cont → Prop
  | .filter, c => c ∈ [Cont.firLoad, .firLoadDone, .firEnable, .firPairDone]
  | .sampleRate, c => c ∈ [Cont.sampleRate, .sampleRateDone]
  | .finalLo, c => c ∈ [Cont.rfpll, .rfpllDone, .rfdc false, .txQuad false]
  | _, _ => False

structure Retired (s : RficState) : Prop where
  jobs : s.jobs = .idle
  pending : s.tail.pending = false

structure InTail (s : RficState) : Prop where
  pending : s.tail.pending = true
  off : s.initState ≠ .on
  cont : ∃ c : Cont, s.jobs = c.jobs ∧
    (c = .idle ∨ s.tail.nestedComplete = false ∧ TailFits s.tail.phase c)

structure InitStarted (s : RficState) : Prop where
  jobs : s.jobs = Cont.init.jobs
  pending : s.tail.pending = false
  off : s.initState ≠ .on

/-- A step of the tail is done with, or leaves the tail under way. -/
def TailLeaves (s : RficState) (r : RficState × Bool) : Prop :=
  Retired r.1 ∨ r.2 = true ∧ InTail r.1 ∧ r.1.phy = s.phy

theorem tailYield_leaves {s s' : RficState} {c : Cont} (hoff : s'.initState ≠ .on)
    (hphy : s'.phy = s.phy) (hj : s'.jobs = c.jobs)
    (hc : c = .idle ∨ s'.tail.nestedComplete = false ∧ TailFits s'.tail.phase c) :
    TailLeaves s s'.tailYield :=
  .inr ⟨rfl, ⟨rfl, hoff, c, hj, hc⟩, hphy⟩

theorem Apart.off {s s' : RficState} (h : Apart s s') (hoff : s.initState ≠ .on) :
    s'.initState ≠ .on := by
  rcases h.2.2 with he | he
  · rwa [he]
  · rw [he]
    nofun

section Tail

variable {s} (hp : s.tail.pending = false) (hn : s.tail.nestedComplete = false)
  (hoff : s.initState ≠ .on)

include hp hn hoff

theorem initTailFilter_leaves (hphase : s.tail.phase = .filter) {c : Cont}
    (hc : c ∈ [Cont.idle, .firLoadDone, .firPairDone]) (hj : s.jobs = c.jobs) (rs : Bool) :
    TailLeaves s (s.initTailFilter a rs) := by
  unfold initTailFilter
  dsimp only
  generalize (if s.tail.moduleIndex = 1 then bladerfRficTxfirDefault
    else bladerfRficRxfirDefault) = filter
  have hl := cmdWrFilterInitPair_leaves a s hc hj s.tailChannel filter
  have hoff' := hl.apart.off hoff
  split
  · rename_i hr
    exact .inl ⟨hl.failed (by simpa using hr), by rw [hl.apart.1, hp]⟩
  · rcases hl.jobs with hidle | ⟨-, c', hc', hj', -⟩
    · rw [if_neg (by simp [hidle, idle])]
      split
      · exact tailYield_leaves hoff' hl.apart.2.1 (c := .idle) hidle (.inl rfl)
      · exact tailYield_leaves hoff' hl.apart.2.1 (c := .idle) hidle (.inl rfl)
    · simp only [List.mem_cons, List.not_mem_nil, or_false] at hc'
      have hpending : (s.cmdWrFilterInitPair a s.tailChannel filter).1.jobs.firLoadJobPending ∨
          (s.cmdWrFilterInitPair a s.tailChannel filter).1.jobs.firEnableJobPending := by
        rw [hj']
        rcases hc' with rfl | rfl <;> simp [Cont.jobs]
      rw [if_pos hpending]
      refine tailYield_leaves hoff' hl.apart.2.1 hj' (.inr ?_)
      rw [hl.apart.1, hphase]
      refine ⟨hn, ?_⟩
      rcases hc' with rfl | rfl <;> simp [TailFits]

theorem initTailSampleRate_leaves (hphase : s.tail.phase = .sampleRate) {c : Cont}
    (hc : c ∈ [Cont.idle, .sampleRateDone]) (hj : s.jobs = c.jobs) :
    TailLeaves s (s.initTailSampleRate a) := by
  unfold initTailSampleRate
  dsimp only
  have hl := cmdWrSamplerate_leaves a s hc hj s.tailChannel
  have hoff' := hl.apart.off hoff
  split
  · rename_i hr
    exact .inl ⟨hl.failed (by simpa using hr), by rw [hl.apart.1, hp]⟩
  · rcases hl.jobs with hidle | ⟨-, c', hc', hj', -⟩
    · rw [if_neg (by simp [hidle, idle])]
      exact tailYield_leaves hoff' hl.apart.2.1 (c := .idle) hidle (.inl rfl)
    · cases List.mem_singleton.mp hc'
      rw [if_pos (by simp [hj', Cont.jobs])]
      refine tailYield_leaves hoff' hl.apart.2.1 hj' (.inr ?_)
      rw [hl.apart.1, hphase]
      exact ⟨hn, by simp [TailFits]⟩

theorem initTailFinalLo_leaves (hphase : s.tail.phase = .finalLo) {c : Cont}
    (hc : c ∈ [Cont.idle, .rfpllDone]) (hj : s.jobs = c.jobs) (rs : Bool) :
    TailLeaves s (s.initTailFinalLo a rs) := by
  unfold initTailFinalLo
  dsimp only
  generalize (if s.tail.moduleIndex = 1 then bladerf2RficInitParams.txSynthesizerFrequencyHz
    else bladerf2RficInitParams.rxSynthesizerFrequencyHz) = f
  obtain ⟨s₀, hs₀⟩ : ∃ s₀ : RficState, s₀ = { s with tail.nestedStatus := .ok } := ⟨_, rfl⟩
  have hfits (c' : Cont) (hc' : c' ∈ [Cont.rfpll, .rfpllDone, .rfdc false, .txQuad false]) :
      s₀.tail.nestedComplete = false ∧ TailFits s₀.tail.phase c' := by
    rw [hs₀]
    refine ⟨hn, ?_⟩
    rw [hphase]
    exact hc'
  have hp₀ : s₀.tail.pending = false := by rw [hs₀]; exact hp
  have hoff₀ : s₀.initState ≠ .on := by rw [hs₀]; exact hoff
  have hphy₀ : s₀.phy = s.phy := by rw [hs₀]
  have hj₀ : s₀.jobs = c.jobs := by rw [hs₀]; exact hj
  have hcases := cmdWrFrequencyInternal_leaves a s₀ hc hj₀ s.tailChannel f true (.inr (.inl rfl))
  rw [← hs₀]
  generalize hr : s₀.cmdWrFrequencyInternal a s.tailChannel f true = r at hcases ⊢
  rcases hcases with hl | ⟨hl, -⟩
  · have hoff' := hl.apart.off hoff₀
    split
    · rename_i hfail
      exact .inl ⟨hl.failed (by simpa using hfail), by rw [hl.apart.1, hp₀]⟩
    · rcases hl.jobs with hidle | ⟨-, c', hc', hj', -⟩
      · rw [if_neg (by simp [hidle, idle])]
        exact tailYield_leaves hoff' (hl.apart.2.1.trans hphy₀) (c := .idle) hidle (.inl rfl)
      · simp only [List.mem_cons, List.not_mem_nil, or_false] at hc'
        have hpending : r.1.jobs.rfpllJobPending ∨ r.1.jobs.rfdcJobPending ∨
            r.1.jobs.txQuadJobPending := by
          rw [hj']
          rcases hc' with rfl | rfl <;> simp [Cont.jobs]
        rw [if_pos hpending]
        refine tailYield_leaves hoff' (hl.apart.2.1.trans hphy₀) hj' (.inr ?_)
        rw [hl.apart.1]
        exact hfits c' (by rcases hc' with rfl | rfl <;> simp)
  · rw [if_neg (by simp [hl.ok]), if_pos (by simp [hl.jobs, Cont.jobs])]
    refine tailYield_leaves ?_ (hl.phy.trans hphy₀) hl.jobs (.inr ?_)
    · rw [hl.gate.initState]
      exact hoff₀
    · rw [hl.tail]
      exact hfits .rfpll (by simp)

omit hn in
theorem initTailTxMute_leaves (hj : s.jobs = .idle) (rs : Bool) :
    TailLeaves s (s.initTailTxMute a rs) := by
  unfold initTailTxMute
  dsimp only
  generalize (if s.tail.channelIndex = 0 then AdiCall.txmuteSet 0 else .txmuteSet 1) = site
  split
  · exact .inl ⟨hj, hp⟩
  · exact tailYield_leaves hoff rfl (c := .idle) hj (.inl rfl)

omit hp hn hoff in
theorem mem_flags {l : List Cont} {c : Cont} (hc : c = .idle ∨ c ∈ l)
    (hpoll : pollsNothing c.jobs = true) :
    c ∈ Cont.idle :: l.filter fun c => pollsNothing c.jobs := by
  rcases hc with rfl | hc
  · exact List.mem_cons_self
  · exact List.mem_cons_of_mem _ (List.mem_filter.mpr ⟨hc, hpoll⟩)

theorem initTailStep_leaves {c : Cont} (hj : s.jobs = c.jobs) (hpoll : pollsNothing c.jobs = true)
    (hc : c = .idle ∨ TailFits s.tail.phase c) (rs : Bool) :
    TailLeaves s (s.initTailStep a rs) := by
  have hidle (hno : ¬TailFits s.tail.phase c) : s.jobs = .idle := by
    rcases hc with rfl | hc
    · exact hj
    · exact absurd hc hno
  unfold initTailStep
  cases hphase : s.tail.phase with
  | filter =>
      rw [hphase] at hc
      exact initTailFilter_leaves a hp hn hoff hphase (mem_flags hc hpoll) hj rs
  | sampleRate =>
      rw [hphase] at hc
      exact initTailSampleRate_leaves a hp hn hoff hphase (mem_flags hc hpoll) hj
  | finalLo =>
      rw [hphase] at hc
      exact initTailFinalLo_leaves a hp hn hoff hphase (mem_flags hc hpoll) hj rs
  | txGain =>
      have hj' := hidle (by simp [hphase, TailFits])
      dsimp only
      split
      · exact .inl ⟨hj', hp⟩
      · exact tailYield_leaves hoff rfl (c := .idle) hj' (.inl rfl)
  | txMute => exact initTailTxMute_leaves a hp hoff (hidle (by simp [hphase, TailFits])) rs
  | done => exact .inl ⟨by simp [initFinish, hidle (by simp [hphase, TailFits]), idle], rfl⟩
  | idle => exact .inl ⟨hidle (by simp [hphase, TailFits]), hp⟩
  | resetLo => exact .inl ⟨hidle (by simp [hphase, TailFits]), hp⟩

end Tail

/-- INIT ON is entered with nothing left or with its tail under way. -/
def EntersInit (s : RficState) : Prop :=
  s.initState ≠ .on ∧ pollsNothing s.jobs = true ∧ (Retired s ∨ InTail s)

/-- What `_rfic_initialize` leaves. -/
structure InitLeaves (s : RficState) (r : RficState × Bool) : Prop where
  failed : r.2 = false → r.1.jobs = s.jobs ∧ r.1.tail = s.tail ∨ Retired r.1
  ok : r.2 = true → Retired r.1 ∨ InTail r.1 ∧ r.1.phy.isSome ∨ InitStarted r.1

theorem InitLeaves.unchanged {s s' : RficState} (hj : s'.jobs = s.jobs) (ht : s'.tail = s.tail) :
    InitLeaves s (s', false) := ⟨fun _ => .inl ⟨hj, ht⟩, nofun⟩

theorem InitLeaves.of_tail {s s₀ : RficState} {r : RficState × Bool} (h : TailLeaves s₀ r)
    (hphy : s₀.phy.isSome) : InitLeaves s r := by
  rcases h with h | ⟨hr, h, hp⟩
  · exact ⟨fun _ => .inr h, fun _ => .inl h⟩
  · exact ⟨fun hf => absurd (hr.symm.trans hf) nofun, fun _ => .inr (.inl ⟨h, hp ▸ hphy⟩)⟩

theorem EntersInit.cont {s : RficState} (h : EntersInit s) :
    ∃ c : Cont, s.jobs = c.jobs ∧ pollsNothing c.jobs = true ∧
      (c = .idle ∨ s.tail.nestedComplete = false ∧ TailFits s.tail.phase c) := by
  obtain ⟨-, hpoll, hr | ht⟩ := h
  · exact ⟨.idle, hr.jobs, rfl, .inl rfl⟩
  · obtain ⟨c, hj, hc⟩ := ht.cont
    exact ⟨c, hj, hj ▸ hpoll, hc⟩

theorem initializeReady_leaves {s : RficState} (h : EntersInit s) (rs : Bool) :
    InitLeaves s (s.initializeReady a rs) := by
  obtain ⟨c, hj, hpoll, hc⟩ := h.cont
  have hoff := h.1
  have htail (s' : RficState) (hp' : s'.tail.pending = false)
      (hn' : s'.tail.nestedComplete = false) (hoff' : s'.initState ≠ .on)
      (hphy' : s'.phy.isSome) (c' : Cont) (hj' : s'.jobs = c'.jobs)
      (hpoll' : pollsNothing c'.jobs = true) (hc' : c' = .idle ∨ TailFits s'.tail.phase c') :
      InitLeaves s (s'.initTailStep a rs) :=
    .of_tail (initTailStep_leaves a hp' hn' hoff' hj' hpoll' hc' rs) hphy'
  unfold initializeReady
  cases hphy : s.phy with
  | none => exact .unchanged rfl rfl
  | some phy =>
      dsimp only
      split
      · split <;> exact .unchanged rfl rfl
      · have hidle (hno : ¬TailFits s.tail.phase c) : s.jobs = .idle := by
          rcases hc with rfl | hc
          · exact hj
          · exact absurd hc.2 hno
        by_cases hphase : s.tail.phase = .idle
        · -- a fresh tail
          have hj' := hidle (by simp [hphase, TailFits])
          rw [if_pos hphase, if_neg (by simp)]
          refine htail _ ?_ ?_ ?_ ?_ .idle hj' rfl (.inl rfl)
          · rfl
          · rfl
          · exact hoff
          · rfl
        · rw [if_neg hphase]
          split
          · -- a nested job has ended, and has left no flag
            rename_i hnested
            have hj' : s.jobs = .idle := by
              rcases hc with rfl | hc
              · exact hj
              · rw [hc.1] at hnested
                cases hnested
            split
            · exact ⟨fun _ => .inr ⟨hj', rfl⟩, nofun⟩
            · split
              · refine htail _ ?_ ?_ ?_ ?_ .idle hj' rfl (.inl rfl)
                · unfold InitTail.advanceModule
                  split <;> rfl
                · unfold InitTail.advanceModule
                  split <;> rfl
                · exact hoff
                · simp [hphy]
              · exact ⟨fun _ => .inr ⟨hj', rfl⟩, nofun⟩
          · rename_i hnested
            refine htail _ ?_ ?_ ?_ ?_ c hj hpoll (hc.imp id And.right)
            · rfl
            · simpa using hnested
            · exact hoff
            · simp [hphy]

theorem initializeStart_leaves {s : RficState} (h : Retired s) :
    InitLeaves s (s.initializeStart a) := by
  unfold initializeStart
  dsimp only
  split
  · exact .unchanged rfl rfl
  · split
    · exact .unchanged rfl rfl
    · split
      · exact .unchanged rfl rfl
      · split
        · exact .unchanged rfl rfl
        · split
          · exact .unchanged rfl rfl
          · refine ⟨nofun, fun _ => .inr (.inr ⟨?_, h.pending, nofun⟩)⟩
            simp [h.jobs, Cont.jobs]

theorem rficInitialize_leaves {s : RficState} (h : EntersInit s)
    (hphy : s.tail.pending = true → s.phy.isSome) : InitLeaves s (s.rficInitialize a) := by
  have hready (s' : RficState) (hj : s'.jobs = s.jobs) (ht : s'.tail = s.tail)
      (hoff : s'.initState ≠ .on) (rs : Bool) : InitLeaves s (s'.initializeReady a rs) := by
    have h' : EntersInit s' := by
      refine ⟨hoff, hj ▸ h.2.1, h.2.2.imp (fun hr => ⟨hj ▸ hr.jobs, ht ▸ hr.pending⟩) fun hr => ?_⟩
      exact ⟨ht ▸ hr.pending, hoff, by rw [hj, ht]; exact hr.cont⟩
    have hl := initializeReady_leaves a h' rs
    refine ⟨fun hf => ?_, hl.ok⟩
    rw [← hj, ← ht]
    exact hl.failed hf
  unfold rficInitialize
  dsimp only
  generalize (if s.tail.phase ≠ .idle then s.tail.restoreStandby
    else decide (s.initState = .standby ∧ s.phy.isSome = true)) = rs
  split
  · exact .unchanged rfl rfl
  · split
    · exact hready s rfl rfl h.1 _
    · split
      · exact .unchanged rfl rfl
      · split
        · exact .unchanged rfl rfl
        · have hset (s' : RficState) (hs' : s' = { s with initState := .off } ∨
              s' = { s with
                initState := .off
                frequencyInvalidRx := true
                frequencyInvalidTx := true }) :
              InitLeaves s (if !a.test .clearInit then (s'.failClosedAfterPathMutation a, false)
                else if s'.phy.isNone then s'.initializeStart a
                else s'.initializeReady a rs) := by
            have hj : s'.jobs = s.jobs := by rcases hs' with rfl | rfl <;> rfl
            have ht : s'.tail = s.tail := by rcases hs' with rfl | rfl <;> rfl
            have hp : s'.phy = s.phy := by rcases hs' with rfl | rfl <;> rfl
            have hoff : s'.initState ≠ .on := by rcases hs' with rfl | rfl <;> nofun
            split
            · exact .unchanged (by simp [hj]) (by simp [ht])
            · split
              · rename_i hnone
                have hr : Retired s := by
                  rcases h.2.2 with hr | hr
                  · exact hr
                  · have := hphy hr.pending
                    rw [hp, Option.isNone_iff_eq_none] at hnone
                    simp [hnone] at this
                have hl := initializeStart_leaves a (s := s') ⟨hj ▸ hr.jobs, ht ▸ hr.pending⟩
                refine ⟨fun hf => ?_, hl.ok⟩
                rw [← hj, ← ht]
                exact hl.failed hf
              · exact hready s' hj ht hoff _
          refine hset _ ?_
          split
          · exact .inl rfl
          · exact .inr rfl

theorem deinitializeRfic_leaves (s : RficState) (r c : Bool) :
    ((s.deinitializeRfic a r c).1.jobs = s.jobs ∧ (s.deinitializeRfic a r c).1.tail = s.tail ∨
        (s.deinitializeRfic a r c).1.jobs = s.retireContinuations.jobs ∧
          (s.deinitializeRfic a r c).1.tail = .idle) ∧
      ((s.deinitializeRfic a r c).1.initState = s.initState ∨
        (s.deinitializeRfic a r c).1.initState = .off) ∧
      (r = false → (s.deinitializeRfic a r c).1.initState = .off) := by
  have hreport (s' : RficState) (b : Bool) (st : Status) :
      (s'.reportCleanupError b st).jobs = s'.jobs ∧ (s'.reportCleanupError b st).tail = s'.tail ∧
        (s'.reportCleanupError b st).initState = s'.initState := by
    unfold reportCleanupError
    split <;> exact ⟨rfl, rfl, rfl⟩
  have hunless (s' : RficState) (b : Bool) (hoff : s'.initState = .off) :
      (s'.failClosedUnless a b).jobs = s'.jobs ∧ (s'.failClosedUnless a b).tail = s'.tail ∧
        (s'.failClosedUnless a b).initState = .off := by
    unfold failClosedUnless
    split
    · exact ⟨rfl, rfl, hoff⟩
    · simp
  have hend (s' : RficState) (b : Bool) (hj : s'.jobs = s.jobs) (ht : s'.tail = s.tail)
      (hoff : s'.initState = .off) :
      ((s'.deinitializeEnd a b).1.jobs = s.jobs ∧ (s'.deinitializeEnd a b).1.tail = s.tail ∨
          (s'.deinitializeEnd a b).1.jobs = s.retireContinuations.jobs ∧
            (s'.deinitializeEnd a b).1.tail = .idle) ∧
        (s'.deinitializeEnd a b).1.initState = .off := by
    obtain ⟨hj', ht', hoff'⟩ := hunless s' b hoff
    unfold deinitializeEnd
    dsimp only
    split
    · exact ⟨.inr ⟨by simp [retireContinuations, hj', hj], rfl⟩, hoff'⟩
    · exact ⟨.inl ⟨hj'.trans hj, ht'.trans ht⟩, hoff'⟩
  unfold deinitializeRfic
  dsimp only
  split
  · rename_i hboard
    exact ⟨.inl ⟨by simp [hreport], by simp [hreport]⟩, .inl (by simp [hreport]),
      fun hr => by simp [hr] at hboard⟩
  · split
    · obtain ⟨hl, hoff⟩ := hend { reportCleanupError { s with
          frequencyInvalidRx := true
          frequencyInvalidTx := true } (!a.test .clearDeinit && c) (.error .eio) with
          initState := .off } (a.test .clearDeinit) (hreport _ _ _).1 (hreport _ _ _).2.1 rfl
      exact ⟨hl, .inr hoff, fun _ => hoff⟩
    · split
      · obtain ⟨hl, hoff⟩ := hend { reportCleanupError { s with
            frequencyInvalidRx := true
            frequencyInvalidTx := true } (!a.test .clearDeinit && c) (.error .eio) with
            initState := .off
            phy := none } (a.test .clearDeinit) (hreport _ _ _).1 (hreport _ _ _).2.1 rfl
        exact ⟨hl, .inr hoff, fun _ => hoff⟩
      · have hfail (s' : RficState) (e : Errno) (b x y : Bool) (hj : s'.jobs = s.jobs)
            (ht : s'.tail = s.tail) (hoff : s'.initState = .off) :
            (s'.removeFailed a e b x y).jobs = s.jobs ∧ (s'.removeFailed a e b x y).tail = s.tail ∧
              (s'.removeFailed a e b x y).initState = .off := by
          unfold removeFailed
          dsimp only
          obtain ⟨hj', ht', hoff'⟩ := hunless ((reportCleanupError { s' with
              phy := if b then none else s'.phy
              calibrationFaulted := true } y (.error e)).recordError (.error e)) x
            ((hreport _ _ _).2.2.trans hoff)
          exact ⟨hj'.trans ((hreport _ _ _).1.trans hj), ht'.trans ((hreport _ _ _).2.1.trans ht),
            hoff'⟩
        rename_i e consumed _
        obtain ⟨hj, ht, hoff⟩ := hfail { reportCleanupError { s with
            frequencyInvalidRx := true
            frequencyInvalidTx := true } (!a.test .clearDeinit && c) (.error .eio) with
            initState := .off } e consumed (a.test .clearDeinit) c (hreport _ _ _).1
          (hreport _ _ _).2.1 rfl
        exact ⟨.inl ⟨hj, ht⟩, .inr hoff, fun _ => hoff⟩

theorem retireContinuations_jobs {s : RficState} {c : Cont} (h : s.jobs = c.jobs)
    (hc : c ∉ [Cont.gainTable, .rfdc true, .rfdcDone]) : s.retireContinuations.jobs = .idle := by
  simp only [retireContinuations, h]
  cases c with
  | rfdc resume => cases resume <;> simp_all [Cont.jobs, RficJobs.idle]
  | _ => simp_all [Cont.jobs, RficJobs.idle]

theorem TailFits.not_kept {phase : InitTailPhase} {c : Cont} (h : TailFits phase c) :
    c ∉ [Cont.gainTable, .rfdc true, .rfdcDone] := by
  revert c
  cases phase <;> simp only [TailFits] <;> first | decide | exact fun h => h.elim

def InitFits (s : RficState) : Prop :=
  Retired s ∨ InTail s ∧ (s.phy.isSome = true ∨ s.calibrationFaulted = true) ∨ InitStarted s

def TailFlags (s : RficState) : Prop :=
  s.tail.pending = true ∧ ∃ c : Cont, s.jobs = c.jobs ∧
    (c = .idle ∨ s.tail.nestedComplete = false ∧ TailFits s.tail.phase c)

theorem deinitializeRfic_fits {s : RficState} (h : Retired s ∨ TailFlags s)
    (hf : s.calibrationFaulted = true) (r c : Bool)
    (hoff : r = true → s.initState ≠ .on) : InitFits (s.deinitializeRfic a r c).1 := by
  have hf' := deinitializeRfic_faulted a hf r c
  obtain ⟨⟨hj, ht⟩ | ⟨hj, ht⟩, hstate, hoff'⟩ := deinitializeRfic_leaves a s r c
  · rcases h with h | h
    · exact .inl ⟨hj.trans h.jobs, ht ▸ h.pending⟩
    · refine .inr (.inl ⟨⟨ht ▸ h.1, ?_, by rw [hj, ht]; exact h.2⟩, .inr hf'⟩)
      cases r with
      | false =>
          rw [hoff' rfl]
          nofun
      | true =>
          rcases hstate with he | he
          · rw [he]
            exact hoff rfl
          · rw [he]
            nofun
  · refine .inl ⟨hj.trans ?_, by rw [ht]; rfl⟩
    rcases h with h | ⟨-, c', hj', hc'⟩
    · exact retireContinuations_jobs (c := .idle) h.jobs (by simp)
    · rcases hc' with rfl | hc'
      · exact retireContinuations_jobs hj' (by simp)
      · exact retireContinuations_jobs hj' hc'.2.not_kept

theorem initOn_fits {s : RficState} (h : EntersInit s)
    (hphy : s.tail.pending = true → s.phy.isSome) : InitFits (s.initOn a).1 := by
  have hl := rficInitialize_leaves a h hphy
  unfold initOn
  dsimp only
  split
  · rename_i hr
    rcases hl.ok hr with hd | ⟨ht, hp⟩ | hi
    · exact .inl ⟨hd.jobs, hd.pending⟩
    · exact .inr (.inl ⟨⟨ht.pending, ht.off, ht.cont⟩, .inl hp⟩)
    · exact .inr (.inr ⟨hi.jobs, hi.pending, hi.off⟩)
  · rename_i hr
    refine deinitializeRfic_fits a ?_ rfl false true nofun
    rcases hl.failed (by simpa using hr) with ⟨hj, ht⟩ | hd
    · rcases h.2.2 with hs | hs
      · exact .inl ⟨hj.trans hs.jobs, ht ▸ hs.pending⟩
      · refine .inr ⟨ht ▸ hs.pending, ?_⟩
        rw [hj, ht]
        exact hs.cont
    · exact .inl ⟨hd.jobs, hd.pending⟩

theorem faultedReset_fits {s : RficState} (h : Retired s ∨ InTail s)
    (hf : s.calibrationFaulted = true) (hoff : s.initState ≠ .on) :
    InitFits (s.faultedReset a).1 ∧
      ((s.faultedReset a).2 = true →
        Retired (s.faultedReset a).1 ∧ (s.faultedReset a).1.initState = .off) := by
  have hd := deinitializeRfic_fits a (h.imp id fun ht => ⟨ht.pending, ht.cont⟩) hf true false
    fun _ => hoff
  have hs : InitFits s := h.imp id fun ht => .inl ⟨ht, .inr hf⟩
  have hframe {s' : RficState} (hs' : InitFits s') (b : Bool) : InitFits (s'.checkTrue b).1 := by
    unfold checkTrue
    split
    · exact hs'
    · rcases hs' with hr | ⟨ht, hp⟩ | hi
      · exact .inl ⟨hr.jobs, hr.pending⟩
      · exact .inr (.inl ⟨⟨ht.pending, ht.off, ht.cont⟩, hp⟩)
      · exact .inr (.inr ⟨hi.jobs, hi.pending, hi.off⟩)
  have hfits : InitFits (s.faultedReset a).1 := by
    unfold faultedReset
    dsimp only
    split
    · exact hframe (b := false) hs
    · split
      · exact hd
      · exact hframe hd _
  refine ⟨hfits, fun hr => ?_⟩
  have hdone := (faultedReset_iff a (s := s)).2 hr
  rcases hfits with hr' | ⟨ht, -⟩ | hi
  · exact ⟨hr', hdone.initState⟩
  · have hp := ht.pending
    rw [hdone.tail] at hp
    cases hp
  · have := hdone.pending
    simp [calibrationPending, hi.jobs, Cont.jobs] at this

theorem cmdWrInit_on_fits {s : RficState} (h : InitFits s) (hpoll : pollsNothing s.jobs = true) :
    InitFits (s.cmdWrInit a 1).1 := by
  have h' : Retired s ∨ InTail s ∧ (s.phy.isSome = true ∨ s.calibrationFaulted = true) := by
    rcases h with hr | ht | hi
    · exact .inl hr
    · exact .inr ht
    · rw [hi.jobs] at hpoll
      cases hpoll
  unfold cmdWrInit
  rw [if_neg (by simp), if_pos rfl]
  split
  · exact h
  · rename_i hon
    dsimp only
    split
    · rename_i hf
      obtain ⟨hfits, hdone⟩ := faultedReset_fits a (h'.imp id And.left) hf hon
      split
      · exact hfits
      · rename_i hr
        obtain ⟨hret, hoff⟩ := hdone (by simpa using hr)
        refine initOn_fits a ⟨by rw [hoff]; nofun, by rw [hret.jobs]; rfl, .inl hret⟩ fun hp => ?_
        rw [hret.pending] at hp
        cases hp
    · rename_i hf
      refine initOn_fits a ⟨hon, hpoll, h'.imp id And.left⟩ fun hp => ?_
      rcases h' with hr | ⟨-, hphy | hf'⟩
      · rw [hr.pending] at hp
        cases hp
      · exact hphy
      · exact absurd hf' hf

theorem cmdWrInit_off_retired {s : RficState} (h : Retired s) : Retired (s.cmdWrInit a 0).1 := by
  have hd (r c : Bool) : Retired (s.deinitializeRfic a r c).1 := by
    obtain ⟨⟨hj, ht⟩ | ⟨hj, ht⟩, -⟩ := deinitializeRfic_leaves a s r c
    · exact ⟨hj.trans h.jobs, ht ▸ h.pending⟩
    · exact ⟨hj.trans (retireContinuations_jobs (c := .idle) h.jobs (by simp)), by rw [ht]; rfl⟩
  have hreset : Retired (s.faultedReset a).1 := by
    unfold faultedReset checkTrue
    dsimp only
    split
    · exact ⟨h.jobs, h.pending⟩
    · split
      · exact hd _ _
      · split
        · exact hd _ _
        · exact ⟨(hd true false).jobs, (hd true false).pending⟩
  unfold cmdWrInit
  rw [if_pos rfl]
  dsimp only
  split
  · split
    · exact hreset
    · exact ⟨hreset.jobs, hreset.pending⟩
  · exact hd _ _

/-! ## INIT STANDBY -/

/-- `_rfic_standby` leaves an RFPLL transaction: that of the TX LO, or that of
the RX LO when the TX LO is valid or becomes so in the same turn. -/
def standbyStarts (a : Adi) (s : RficState) : Bool :=
  let tx := !s.frequencyPeerUnknown true && a.loStarts true
  let rx := !({ s with frequencyInvalidTx := false }.frequencyPeerUnknown false) &&
    a.loActive false
  s.initState ≠ .standby && s.phy.isSome && a.standbyReady &&
    (s.frequencyInvalidTx && tx && a.test (.rfpllActive true) ||
      (!s.frequencyInvalidTx ||
        tx && !a.test (.rfpllActive true) && a.status .txQuadStart = .pending) &&
          s.frequencyInvalidRx && rx)

theorem startTxQuadForFrequency_cases (h : s.jobs = .idle) :
    (s.startTxQuadForFrequency a).2 = .failed ∨
      ((s.startTxQuadForFrequency a).2 = .unneeded ∧ a.status .txQuadStart = .pending ∧
          (s.startTxQuadForFrequency a).1 = s) ∨
        (s.startTxQuadForFrequency a).2 = .started ∧
          (s.startTxQuadForFrequency a).1.jobs.txQuadJobPending = true := by
  unfold startTxQuadForFrequency startTxQuadCalibration
  dsimp only
  rw [claimThen_idle _ _ h]
  by_cases hphy : s.phy.isNone
  · simp [hphy]
  · by_cases hpend : a.status .txQuadStart = .pending
    · simp [hphy, hpend]
    · by_cases hfail : (a.status .txQuadStart).failed <;> simp [hphy, hpend, hfail]

theorem cmdWrFrequency_done (h : s.jobs = .idle) (f : BitVec 64)
    (hr : (s.cmdWrFrequency a 1 f).2 = true) (hidle : (s.cmdWrFrequency a 1 f).1.jobs = .idle) :
    s.frequencyPeerUnknown true = false ∧ a.loStarts true = true ∧
      a.test (.rfpllActive true) = false ∧ a.status .txQuadStart = .pending ∧
      (s.cmdWrFrequency a 1 f).1 = { s with frequencyInvalidTx := false } := by
  have htx : channelIsTx 1 = true := rfl
  rcases cmdWrFrequencyInternal_fresh a s h 1 f false with ⟨hp, hst, heq⟩ | ⟨hf, -⟩
  · have hinv : (s.setFrequencyInvalid true true).jobs = .idle := h
    unfold cmdWrFrequency at hr hidle ⊢
    rw [heq] at hr hidle ⊢
    unfold loStarted at hr hidle ⊢
    simp only [htx] at hr hidle hp hst ⊢
    cases hact : a.test (.rfpllActive true) with
    | true =>
        rw [if_pos hact] at hidle
        simp [idle] at hidle
    | false =>
        rw [if_neg (by simp [hact])] at hr hidle ⊢
        unfold frequencyLoProgrammed at hr hidle ⊢
        simp only [htx, if_true] at hr hidle ⊢
        rcases startTxQuadForFrequency_cases a _ hinv with hfail | ⟨hun, hpend, hsame⟩ | ⟨hst', hj⟩
        · rw [hfail] at hr
          cases hr
        · refine ⟨by simpa using hp, hst, trivial, hpend, ?_⟩
          rw [hun, hsame]
          rfl
        · simp only [hst'] at hidle
          rw [hidle] at hj
          cases hj
  · exact absurd (hr.symm.trans hf) nofun

theorem cmdWrFrequency_owned {s : RficState} {c : Cont} (hc : c ∈ [Cont.txQuad false, .rfdc false])
    (h : s.jobs = c.jobs) (ch : BitVec 8) (f : BitVec 64) :
    (s.cmdWrFrequency a ch f).2 = false ∧ (s.cmdWrFrequency a ch f).1.jobs = s.jobs ∧
      (s.cmdWrFrequency a ch f).1.tail = s.tail := by
  have howned : s.jobs.owned = true ∧ s.jobs.frequencyRfpllResumeCommand = false := by
    simp only [List.mem_cons, List.not_mem_nil, or_false] at hc
    rw [h]
    rcases hc with rfl | rfl <;> exact ⟨rfl, rfl⟩
  unfold cmdWrFrequency cmdWrFrequencyInternal
  dsimp only
  split
  · exact ⟨rfl, rfl, rfl⟩
  · rw [if_neg (by simp [howned.2])]
    have hfail : ((s.setFrequencyInvalid (channelIsTx ch) true).claimThen
        (a.status (.rfpllStart (channelIsTx ch)))) = .error .ebusy := by
      simp [claimThen, howned.1]
    have hstart : ((s.setFrequencyInvalid (channelIsTx ch) true).frequencyStart a ch f false).2 =
          false ∧
        ((s.setFrequencyInvalid (channelIsTx ch) true).frequencyStart a ch f false).1.jobs =
          s.jobs ∧
        ((s.setFrequencyInvalid (channelIsTx ch) true).frequencyStart a ch f false).1.tail =
          s.tail := by
      simp [frequencyStart, hfail, Status.failed]
    split_ifs
    · simp
    · simp
    · simp
    · simp
    · simp
    · simp
    · exact hstart

structure StandbyFits (s : RficState) : Prop where
  pending : s.tail.pending = false
  cont : s.jobs = .idle ∨ ∃ c ∈ [Cont.txQuad false, .rfdc false], s.jobs = c.jobs

theorem Retired.standbyFits {s : RficState} (h : Retired s) : StandbyFits s :=
  ⟨h.pending, .inl h.jobs⟩

theorem Leaves.standbyFits {s : RficState} {r : RficState × Bool}
    (h : Leaves [.txQuad false, .rfdc false] s r) (hp : s.tail.pending = false) :
    StandbyFits r.1 where
  pending := by rw [h.apart.1, hp]
  cont := h.jobs.imp id fun ⟨_, c, hc, hj, _⟩ => ⟨c, hc, hj⟩

theorem StandbyFits.checkTrue {s : RficState} (h : StandbyFits s) (b : Bool) :
    StandbyFits (s.checkTrue b).1 := ⟨by simp [h.pending], by simpa using h.cont⟩

theorem standbyFrequency_tx {s : RficState} (h : Retired s)
    (htx : ¬(s.frequencyInvalidTx = true ∧ s.frequencyPeerUnknown true = false ∧
      a.loActive true = true)) :
    StandbyFits (s.standbyFrequency a true).1 ∧
      ((s.standbyFrequency a true).2 = true → (s.standbyFrequency a true).1.jobs = .idle →
        (s.standbyFrequency a true).1 = { s with frequencyInvalidTx := false } ∧
          (s.frequencyInvalidTx = false ∨
            s.frequencyPeerUnknown true = false ∧ a.loStarts true = true ∧
              a.test (.rfpllActive true) = false ∧ a.status .txQuadStart = .pending)) := by
  unfold standbyFrequency
  simp only [if_true]
  split
  · rename_i hinv
    have hinv : s.frequencyInvalidTx = true := hinv
    constructor
    · apply StandbyFits.checkTrue
      rcases cmdWrFrequencyInternal_leaves a s (c := .idle) (by simp) h.jobs 1
        bladerf2RficInitParams.txSynthesizerFrequencyHz false (.inl rfl) with hl | ⟨-, hp, hact⟩
      · exact hl.standbyFits h.pending
      · exact absurd ⟨hinv, by simpa [channelIsTx] using hp, hact⟩ htx
    · intro hr hj
      generalize hres : s.cmdWrFrequency a 1 bladerf2RficInitParams.txSynthesizerFrequencyHz = r
        at hr hj ⊢
      obtain ⟨s', ok⟩ := r
      cases ok with
      | false => cases hr
      | true =>
          have hj : s'.jobs = .idle := hj
          obtain ⟨h1, h2, h3, h4, hdone⟩ := cmdWrFrequency_done a s h.jobs
            bladerf2RficInitParams.txSynthesizerFrequencyHz (by rw [hres]) (by rw [hres]; exact hj)
          rw [hres] at hdone
          exact ⟨hdone, .inr ⟨h1, h2, h3, h4⟩⟩
  · rename_i hinv
    have hinv : s.frequencyInvalidTx = false := by simpa [frequencyInvalid] using hinv
    refine ⟨h.standbyFits, fun _ _ => ⟨?_, .inl hinv⟩⟩
    rw [← hinv]

theorem standbyFrequency_rx {s : RficState} (h : StandbyFits s)
    (hrx : s.jobs = .idle → ¬(s.frequencyInvalidRx = true ∧ s.frequencyPeerUnknown false = false ∧
      a.loActive false = true)) : StandbyFits (s.standbyFrequency a false).1 := by
  unfold standbyFrequency
  dsimp only
  split
  · rename_i hinv
    apply StandbyFits.checkTrue
    rcases h.cont with hj | ⟨c, hc, hj⟩
    · rcases cmdWrFrequencyInternal_leaves a s (c := .idle) (by simp) hj 0
        bladerf2RficInitParams.rxSynthesizerFrequencyHz false (.inl rfl) with hl | ⟨-, hp, hact⟩
      · exact hl.standbyFits h.pending
      · exact absurd ⟨hinv, by simpa [channelIsTx] using hp, hact⟩ (hrx hj)
    · obtain ⟨-, hj', ht⟩ := cmdWrFrequency_owned a hc hj 0
        bladerf2RficInitParams.rxSynthesizerFrequencyHz
      refine ⟨?_, .inr ⟨c, hc, ?_⟩⟩
      · exact (congrArg InitTail.pending ht).trans h.pending
      · exact hj'.trans hj
  · exact h

theorem rficStandby_fits {s : RficState} (h : Retired s) (hstate : s.initState ≠ .standby)
    (hno : standbyStarts a s = false) : StandbyFits (s.rficStandby a).1 := by
  have hret {s' : RficState} (hj : s'.jobs = s.jobs) (ht : s'.tail = s.tail) : StandbyFits s' :=
    Retired.standbyFits ⟨hj.trans h.jobs, ht ▸ h.pending⟩
  unfold rficStandby
  split
  · obtain ⟨⟨hj, ht⟩ | ⟨hj, ht⟩, -⟩ := deinitializeRfic_leaves a s false false
    · exact hret hj ht
    · refine Retired.standbyFits ⟨hj.trans ?_, by rw [ht]; rfl⟩
      exact retireContinuations_jobs (c := .idle) h.jobs (by simp)
  · rename_i hphy
    have hsome : s.phy.isSome = true := by
      rw [Option.isSome_iff_ne_none]
      simpa using hphy
    dsimp only
    split
    · exact hret (by simp) (by simp)
    · split
      · exact hret rfl rfl
      · split
        · exact hret rfl rfl
        · split
          · exact hret rfl rfl
          · split
            · exact hret rfl rfl
            · have hready : a.standbyReady = true := by simp_all [Adi.standbyReady]
              simp only [standbyStarts, hstate, hsome, hready, ne_eq, not_false_eq_true,
                decide_true, Bool.true_and, Bool.or_eq_false_iff] at hno
              obtain ⟨hnotx, hnorx⟩ := hno
              have h₀ : Retired { s with initState := .off } := ⟨h.jobs, h.pending⟩
              obtain ⟨hfits, hdone⟩ := standbyFrequency_tx a h₀ (by
                rintro ⟨h1, h2, h3⟩
                have h1 : s.frequencyInvalidTx = true := h1
                have h2 : s.frequencyPeerUnknown true = false := h2
                simp only [Adi.loActive, Bool.and_eq_true] at h3
                simp [h1, h2, h3] at hnotx)
              split
              · exact hfits
              · rename_i hok
                have hrx := standbyFrequency_rx a hfits (by
                  intro hj
                  obtain ⟨heq, hcase⟩ := hdone (by simpa using hok) hj
                  rw [heq]
                  rintro ⟨h1, h2, h3⟩
                  have h1 : s.frequencyInvalidRx = true := h1
                  have h2 : { s with frequencyInvalidTx := false }.frequencyPeerUnknown false =
                    false := h2
                  rw [h2, h3, h1] at hnorx
                  rcases hcase with h4 | ⟨h4, h5, h6, h7⟩
                  · have h4 : s.frequencyInvalidTx = false := h4
                    simp [h4] at hnorx
                  · have h4 : s.frequencyPeerUnknown true = false := h4
                    simp [h4, h5, h6, h7] at hnorx)
                split
                · exact hrx
                · exact ⟨hrx.pending, hrx.cont⟩

/-! ## Polls -/

end RficState

def Cont.resumes (init : Bool) : Cont → Option Cont
  | .firLoad => some .firLoadDone
  | .firEnable => some (if init then .firPairDone else .firEnableDone)
  | .sampleRate => some .sampleRateDone
  | .bandwidth => some .bandwidthDone
  | .rfpll => some .rfpllDone
  | .rfdc true => some .rfdcDone
  | .txQuad true => some .txQuadDone
  | _ => none

def Cont.pollable (init : Bool) : Cont → Bool
  | .firLoad => init
  | .firEnable => true
  | .sampleRate => true
  | .bandwidth => !init
  | .rfpll => true
  | .rfdc resume => !(init && resume)
  | .txQuad resume => !(init && resume)
  | _ => false

namespace RficState

variable (a : Adi)

inductive Polled (s : RficState) (init : Bool) (next : Option Cont) : RficState × Turn → Prop
  | pending : Polled s init next (s, .yield)
  /-- the handler goes on -/
  | resumes {s' : RficState} (c : Cont) (hnext : next = some c) (jobs : s'.jobs = c.jobs)
      (tail : s'.tail = s.tail) (phy : s'.phy = s.phy) (gate : SameGate s s')
      (peer : c = .rfpllDone →
        ∀ tx, s'.frequencyPeerUnknown tx = s.frequencyPeerUnknown tx) :
      Polled s init next (s', .yield)
  | nested {s' : RficState} (hinit : init = true) (jobs : s'.jobs = .idle)
      (pending : s'.tail.pending = s.tail.pending) (phy : s'.phy = s.phy)
      (state : s'.initState = s.initState ∨ s'.initState = .off)
      (faulted : s.calibrationFaulted = true → s'.calibrationFaulted = true) :
      Polled s init next (s', .yield)
  | finished {s' : RficState} (rv : Bool) (hinit : init = false) (jobs : s'.jobs = .idle)
      (tail : s'.tail = s.tail) : Polled s init next (s', .finish rv)

theorem pollFirLoad_polled {s : RficState} (h : s.jobs = Cont.firLoad.jobs) :
    Polled s true (some .firLoadDone) (s.pollFirLoad a) := by
  unfold pollFirLoad
  dsimp only
  split
  · exact .pending
  · split
    · exact .nested rfl (by simp [nestedResult, h, Cont.jobs, RficJobs.idle]) rfl rfl (.inl rfl) id
    · exact .resumes _ rfl (by simp [h, Cont.jobs, RficJobs.idle]) rfl rfl ⟨rfl, rfl⟩ nofun

theorem pollFirEnable_polled {s : RficState} (h : s.jobs = Cont.firEnable.jobs) (i : Bool) :
    Polled s i (Cont.firEnable.resumes i) (s.pollFirEnable a i) := by
  unfold pollFirEnable
  dsimp only
  split
  · exact .pending
  · cases i with
    | true =>
        split
        · exact .nested rfl (by simp [nestedResult, h, Cont.jobs, RficJobs.idle]) rfl rfl (.inl rfl)
            id
        · exact .resumes _ rfl (by simp [h, Cont.jobs, RficJobs.idle]) rfl rfl ⟨rfl, rfl⟩ nofun
    | false =>
        split
        · exact .finished _ rfl (by simp [h, Cont.jobs, RficJobs.idle]) rfl
        · exact .resumes _ rfl (by simp [h, Cont.jobs, RficJobs.idle]) rfl rfl ⟨rfl, rfl⟩ nofun

theorem pollRfpll_polled {s : RficState} (h : s.jobs = Cont.rfpll.jobs) (i : Bool) :
    Polled s i (some .rfpllDone) (s.pollRfpll a) := by
  unfold pollRfpll
  dsimp only
  split
  · exact .pending
  · exact .resumes _ rfl (by simp [h, Cont.jobs, RficJobs.idle]) rfl rfl ⟨rfl, rfl⟩
      fun _ tx => by cases tx <;> rfl

theorem pollSampleRate_polled {s : RficState} (h : s.jobs = Cont.sampleRate.jobs) (i : Bool) :
    Polled s i (some .sampleRateDone) (s.pollSampleRate a i) := by
  unfold pollSampleRate
  dsimp only
  split
  · exact .pending
  · split
    · cases i with
      | true =>
          exact .nested rfl (by simp [nestedResult, h, Cont.jobs, RficJobs.idle]) rfl rfl (.inl rfl)
            id
      | false => exact .finished _ rfl (by simp [h, Cont.jobs, RficJobs.idle]) rfl
    · exact .resumes _ rfl (by simp [h, Cont.jobs, RficJobs.idle]) rfl rfl ⟨rfl, rfl⟩ nofun

theorem pollBandwidth_polled {s : RficState} (h : s.jobs = Cont.bandwidth.jobs) :
    Polled s false (some .bandwidthDone) (s.pollBandwidth a false) := by
  unfold pollBandwidth
  dsimp only
  split
  · exact .pending
  · split
    · exact .finished _ rfl (by simp [h, Cont.jobs, RficJobs.idle]) rfl
    · exact .resumes _ rfl (by simp [h, Cont.jobs, RficJobs.idle]) rfl rfl ⟨rfl, rfl⟩ nofun

theorem pollRfdc_polled {s : RficState} {resume : Bool} (h : s.jobs = (Cont.rfdc resume).jobs)
    (i : Bool) (hi : (i && resume) = false) :
    Polled s i ((Cont.rfdc resume).resumes i) (s.pollRfdc a i) := by
  unfold pollRfdc
  dsimp only
  split
  · exact .pending
  · cases i with
    | true =>
        cases resume with
        | true => cases hi
        | false =>
            refine .nested rfl ?_ ?_ ?_ ?_ ?_ <;> dsimp only [if_true, nestedResult] <;>
              split_ifs <;> first | exact .inl rfl | simp [h, Cont.jobs, idle]
    | false =>
        cases resume with
        | true =>
            rw [if_neg (by simp), if_pos (by simp [h, Cont.jobs])]
            exact .resumes _ rfl (by simp [h, Cont.jobs, RficJobs.idle]) rfl rfl ⟨rfl, rfl⟩ nofun
        | false =>
            rw [if_neg (by simp), if_neg (by simp [h, Cont.jobs, RficJobs.idle])]
            refine .finished _ rfl ?_ ?_ <;> dsimp only <;>
              split_ifs <;> simp [h, Cont.jobs, idle]

theorem latchCalibrationFault_not (s : RficState) {u : AdiTest}
    (h : (s.latchCalibrationFault a u).2 = false) : (s.latchCalibrationFault a u).1 = s := by
  unfold latchCalibrationFault at h ⊢
  split
  · rfl
  · rename_i hn
    rw [if_neg hn] at h
    cases h

theorem pollTxQuadInit_eq (s : RficState) (st : Status) :
    ∃ s₁ st', s.pollTxQuadInit a st = { s₁ with txQuadCommitTxFrequency := false }.nestedResult st' ∧
      Apart s s₁ ∧ (s.calibrationFaulted = true → s₁.calibrationFaulted = true) ∧
      ({ s.jobs with txQuadResumeCommand := false } = .idle → s₁.jobs = .idle) := by
  refine ⟨_, _, rfl, ?_⟩
  obtain ⟨s₂, hs₂⟩ : ∃ s₂ : RficState, s₂ = { s with jobs.txQuadResumeCommand := false } := ⟨_, rfl⟩
  have ha : Apart s s₂ := by rw [hs₂]; exact ⟨rfl, rfl, .inl rfl⟩
  have hf (h : s.calibrationFaulted = true) : s₂.calibrationFaulted = true := by rw [hs₂]; exact h
  have hidle (h : { s.jobs with txQuadResumeCommand := false } = idle) :
      s₂.jobs = .idle := by rw [hs₂]; exact h
  rw [← hs₂]
  split
  · refine ⟨ha.trans (failTxQuadCalibration_apart a (s₂.recordError _) _), fun h => ?_, fun h => ?_⟩
    · exact failTxQuadCalibration_faulted a ((recordError_faulted s₂ _).trans (hf h)) _
    · exact failTxQuadCalibration_jobs a (s₂.recordError _) (hidle h) _
  · split
    · exact ⟨ha, hf, hidle⟩
    · exact ⟨ha, hf, hidle⟩

theorem pollTxQuad_polled {s : RficState} {resume : Bool} (h : s.jobs = (Cont.txQuad resume).jobs)
    (i io : Bool) (hi : (i && resume) = false) :
    Polled s i ((Cont.txQuad resume).resumes i) (s.pollTxQuad a i io) := by
  unfold pollTxQuad
  dsimp only
  split
  · exact .pending
  · obtain ⟨s₁, hs₁⟩ : ∃ s₁ : RficState, s₁ = { s.recordCleanupError (a.status .jobCleanup) with
        jobs.txQuadJobPending := false } := ⟨_, rfl⟩
    have ht : s₁.tail = s.tail := by rw [hs₁]; rfl
    have hphy : s₁.phy = s.phy := by rw [hs₁]; rfl
    have hg : SameGate s s₁ := by rw [hs₁]; exact ⟨rfl, rfl⟩
    have hj : s₁.jobs = { RficJobs.idle with txQuadResumeCommand := resume } := by
      rw [hs₁]
      simp [h, Cont.jobs, idle]
    rw [← hs₁]
    cases i with
    | true =>
        cases resume with
        | true => cases hi
        | false =>
            rw [if_pos rfl]
            obtain ⟨s₂, st', heq, ha, hf, hidle⟩ :=
              pollTxQuadInit_eq a s₁ (checkedPoll a .txQuadPoll)
            rw [heq]
            refine .nested rfl (hidle (by simp [hj, idle])) ?_ ?_ ?_ ?_
            · exact (congrArg InitTail.pending ha.1).trans (congrArg InitTail.pending ht)
            · exact ha.2.1.trans hphy
            · rw [← hg.1]
              exact ha.2.2
            · exact fun h => hf (hg.2.trans h)
    | false =>
        rw [if_neg (by simp)]
        have hidle : ({ s₁ with jobs.txQuadResumeCommand := false } : RficState).jobs = .idle := by
          simp [hj, idle]
        unfold pollTxQuadCommand
        dsimp only
        split
        · refine .finished _ rfl ?_ ?_
          · exact failTxQuadCalibration_jobs a _ (by exact hidle) _
          · exact (failTxQuadCalibration_apart a _ _).1.trans ht
        · obtain ⟨s₂, hs₂⟩ : ∃ s₂ : RficState, s₂ = if s₁.txQuadCommitTxFrequency then
              { s₁ with frequencyInvalidTx := false } else s₁ := ⟨_, rfl⟩
          have hsame : s₂.jobs = s₁.jobs ∧ s₂.tail = s₁.tail ∧ s₂.phy = s₁.phy ∧ SameGate s₁ s₂ := by
            rw [hs₂]
            split <;> exact ⟨rfl, rfl, rfl, rfl, rfl⟩
          obtain ⟨hj₂, ht₂, hphy₂, hg₂⟩ := hsame
          rw [← hs₂]
          cases resume with
          | true =>
              rw [if_pos (by rw [hj₂, hj])]
              split
              · refine .finished _ rfl ?_ ?_
                · simp [hj₂, hj, idle]
                · simp [ht₂, ht]
              · rename_i hno
                rw [latchCalibrationFault_not a s₂ (by simpa using hno)]
                refine .resumes .txQuadDone rfl ?_ (ht₂.trans ht) (hphy₂.trans hphy) ?_ nofun
                · exact (hj₂.trans hj).trans rfl
                · exact ⟨hg₂.1.trans hg.1, hg₂.2.trans hg.2⟩
          | false =>
              rw [if_neg (by rw [hj₂, hj]; simp)]
              refine .finished _ rfl ?_ ?_
              · exact (hj₂.trans hj).trans rfl
              · exact ht₂.trans ht

/-! ## One turn of the running command -/

def WriteFn.conts : WriteFn → List Cont
  | .enable => [.rfdc true, .rfdcDone, .txQuad true, .txQuadDone]
  | .samplerate => [.sampleRate, .sampleRateDone]
  | .frequency => [.rfpll, .rfpllDone, .txQuad false, .rfdc false]
  | .bandwidth => [.bandwidth, .bandwidthDone]
  | .filter => [.firEnable, .firEnableDone]
  | _ => []

def WriteFn.starts : WriteFn → List Cont
  | .enable => [.rfdc true, .txQuad true]
  | .samplerate => [.sampleRate]
  | .frequency => [.txQuad false, .rfdc false]
  | .bandwidth => [.bandwidth]
  | .filter => [.firEnable]
  | _ => []

/-- The worker enters the handler of `e`. -/
structure Reaches (s : RficState) (e : RficQueueEntry) (f : WriteFn) : Prop where
  ptr : getCmdPtr e.cmd = some f
  valid : s.checkValidity f e.ch = true
  allowed : s.commandAllowed e.cmd = true
  fits : ¬(!f.wide ∧ e.value >>> 32 ≠ 0)

theorem Reaches.callbackResult {s : RficState} {e : RficQueueEntry} {f : WriteFn}
    (h : Reaches s e f) : s.callbackResult a e = s.callback a f e.ch e.value := by
  unfold RficState.callbackResult
  simp only [h.ptr, h.valid, h.allowed, Bool.not_true, Bool.false_eq_true, if_false, h.fits]

theorem Reaches.of_gate {s s' : RficState} {e : RficQueueEntry} {f : WriteFn} (h : Reaches s e f)
    (hg : SameGate s s') : Reaches s' e f where
  ptr := h.ptr
  valid := by
    have := h.valid
    simp only [checkValidity, isInitialized, hg.1] at this ⊢
    exact this
  allowed := by
    have := h.allowed
    simp only [commandAllowed, hg.2] at this ⊢
    exact this
  fits := h.fits

theorem Reaches.init {s : RficState} {e : RficQueueEntry} (h : Reaches s e .init) (s' : RficState) :
    Reaches s' e .init where
  ptr := h.ptr
  valid := by
    have hv := h.valid
    unfold checkValidity at hv ⊢
    split at hv
    · cases hv
    · rename_i h1
      rw [if_neg h1]
      split at hv
      · rename_i h2
        rw [if_pos h2]
        simp [WriteFn.chanSystem, WriteFn.initReqd]
      · rename_i h2
        rw [if_neg h2]
        split_ifs at hv <;> simp [WriteFn.chanTx, WriteFn.chanRx] at hv
  allowed := by
    have hp := h.ptr
    unfold getCmdPtr at hp
    split at hp
    · rename_i hc
      simp [commandAllowed, hc]
    · split_ifs at hp <;> cases hp
  fits := h.fits

/-- The running command `e` and what it has left pending. -/
inductive RunFits (s : RficState) (e : RficQueueEntry) : Prop
  | retired (h : Retired s)
  | command (f : WriteFn) (hf : Reaches s e f) (hp : s.tail.pending = false) (c : Cont)
      (hc : c ∈ f.conts) (hj : s.jobs = c.jobs)
      (hpeer : c = .rfpll ∨ c = .rfpllDone → s.frequencyPeerUnknown (channelIsTx e.ch) = false)
  | initOn (hf : Reaches s e .init) (hv : e.value = 1) (h : InitFits s)
  | standby (hf : Reaches s e .init) (hv : e.value = 2) (h : StandbyFits s)

def TurnFits (e : RficQueueEntry) (r : RficState × Turn) : Prop :=
  (r.2 = .yield → RunFits r.1 e) ∧ ∀ rv, r.2 = .finish rv → Retired r.1

theorem turnFits_of_callback {s : RficState} {e : RficQueueEntry}
    (h : RunFits (s.callbackResult a e).1 e)
    (hdone : (s.callbackResult a e).1.calibrationPending = false →
      Retired (s.callbackResult a e).1) : TurnFits e (s.enterCallback a e) := by
  unfold enterCallback
  dsimp only
  split
  · exact ⟨fun _ => h, nofun⟩
  · rename_i hp
    exact ⟨nofun, fun _ _ => hdone (by simpa using hp)⟩

theorem calibrationPending_of_jobs {s : RficState} {c : Cont} (hj : s.jobs = c.jobs)
    (hc : pollsNothing c.jobs = false) (hno : c ≠ .firLoad) : s.calibrationPending = true := by
  unfold calibrationPending
  rw [hj]
  cases c <;> simp_all [Cont.jobs, pollsNothing, idle]

theorem Leaves.retired {l : List Cont} {s : RficState} {r : RficState × Bool} (h : Leaves l s r)
    (hp : s.tail.pending = false) (hj : r.1.jobs = .idle) : Retired r.1 :=
  ⟨hj, by rw [h.apart.1, hp]⟩

theorem callback_plain_leaves {s : RficState} (h : s.jobs = .idle) {f : WriteFn}
    (hf : f = .gainmode ∨ f = .gain ∨ f = .txmute ∨ f = .fastlock) (ch : BitVec 8)
    (v : BitVec 64) : Leaves [] s (s.callback a f ch v) := by
  have hcheck (st : Status) : Leaves [] s (s.check st) := by
    refine .of_idle ?_ (by simp [h])
    unfold check
    split <;> exact ⟨rfl, rfl, .inl rfl⟩
  rcases hf with rfl | rfl | rfl | rfl
  · unfold callback cmdWrGainmode
    dsimp only
    split
    · exact .of_idle ⟨rfl, rfl, .inl rfl⟩ h
    · exact hcheck _
  · unfold callback cmdWrGain
    dsimp only
    split
    · exact hcheck _
    · split
      · exact .of_idle ⟨rfl, rfl, .inl rfl⟩ h
      · split
        · exact hcheck _
        · exact hcheck _
  · exact hcheck _
  · exact hcheck _

theorem callback_leaves {s : RficState} {f : WriteFn} (hf : f ≠ .init) {c : Cont}
    (hc : c = .idle ∨ c ∈ f.conts) (hj : s.jobs = c.jobs) (hpoll : pollsNothing c.jobs = true)
    (ch : BitVec 8) (v : BitVec 64)
    (hpeer : c = .rfpllDone → s.frequencyPeerUnknown (channelIsTx ch) = false) :
    Leaves f.starts s (s.callback a f ch v) ∨
      f = .frequency ∧ LoPending (channelIsTx ch) s (s.callback a f ch v) ∧
        s.frequencyPeerUnknown (channelIsTx ch) = false := by
  have hplain (hf' : f = .gainmode ∨ f = .gain ∨ f = .txmute ∨ f = .fastlock)
      (hnone : f.conts = []) : Leaves f.starts s (s.callback a f ch v) := by
    rcases hc with rfl | hc
    · exact (callback_plain_leaves a hj hf' ch v).mono (by simp)
    · rw [hnone] at hc
      cases hc
  cases f with
  | init => exact absurd rfl hf
  | enable => exact .inl (cmdWrEnable_leaves a s (mem_flags hc hpoll) hj ch v)
  | samplerate => exact .inl (cmdWrSamplerate_leaves a s (mem_flags hc hpoll) hj ch)
  | bandwidth => exact .inl (cmdWrBandwidth_leaves a s (mem_flags hc hpoll) hj)
  | filter => exact .inl (cmdWrFilter_leaves a s (mem_flags hc hpoll) hj ch v.toNat)
  | frequency =>
      have hc' : c ∈ [Cont.idle, .rfpllDone] := mem_flags hc hpoll
      have hpeer' : c = .idle ∨ false = true ∨
          s.frequencyPeerUnknown (channelIsTx ch) = false := by
        rcases List.mem_pair.mp hc' with rfl | rfl
        · exact .inl rfl
        · exact .inr (.inr (hpeer rfl))
      rcases cmdWrFrequencyInternal_leaves a s hc' hj ch v false hpeer' with hl | ⟨hl, hp, -⟩
      · exact .inl hl
      · exact .inr ⟨rfl, hl, hp.resolve_left (by simp)⟩
  | gainmode => exact .inl (hplain (.inl rfl) rfl)
  | gain => exact .inl (hplain (.inr (.inl rfl)) rfl)
  | txmute => exact .inl (hplain (.inr (.inr (.inl rfl))) rfl)
  | fastlock => exact .inl (hplain (.inr (.inr (.inr rfl))) rfl)

theorem WriteFn.starts_subset (f : WriteFn) : f.starts ⊆ f.conts := by
  cases f <;> simp [WriteFn.starts, WriteFn.conts]

theorem WriteFn.starts_poll {f : WriteFn} {c : Cont} (h : c ∈ f.starts) :
    pollsNothing c.jobs = false ∧ c ≠ .firLoad ∧ c ≠ .rfpll ∧ c ≠ .rfpllDone := by
  revert c
  cases f <;> decide

theorem enterCallback_command {s : RficState} {e : RficQueueEntry} {f : WriteFn}
    (hr : Reaches s e f) (hf : f ≠ .init) {c : Cont} (hc : c = .idle ∨ c ∈ f.conts)
    (hj : s.jobs = c.jobs) (hpoll : pollsNothing c.jobs = true) (hp : s.tail.pending = false)
    (hpeer : c = .rfpllDone → s.frequencyPeerUnknown (channelIsTx e.ch) = false) :
    TurnFits e (s.enterCallback a e) := by
  have hcases := callback_leaves a hf hc hj hpoll e.ch e.value hpeer
  rw [← hr.callbackResult a] at hcases
  have htail (ht : (s.callbackResult a e).1.tail = s.tail) :
      (s.callbackResult a e).1.tail.pending = false := by rw [ht, hp]
  rcases hcases with hl | ⟨rfl, hl, hknown⟩
  · rcases hl.jobs with hidle | ⟨-, c', hc', hj', hg⟩
    · exact turnFits_of_callback a (.retired (hl.retired hp hidle)) fun _ => hl.retired hp hidle
    · obtain ⟨h1, h2, h3, h4⟩ := WriteFn.starts_poll hc'
      refine turnFits_of_callback a ?_ fun hno => ?_
      · refine .command f (hr.of_gate hg) (htail hl.apart.1) c' (WriteFn.starts_subset f hc') hj' ?_
        rintro (h | h)
        · exact absurd h h3
        · exact absurd h h4
      · rw [calibrationPending_of_jobs hj' h1 h2] at hno
        cases hno
  · refine turnFits_of_callback a ?_ fun hno => ?_
    · refine .command .frequency (hr.of_gate hl.gate) (htail hl.tail) .rfpll ?_ hl.jobs
        fun _ => hl.peer.trans hknown
      simp [WriteFn.conts]
    · rw [calibrationPending_of_jobs hl.jobs rfl nofun] at hno
      cases hno

theorem InitFits.retired {s : RficState} (h : InitFits s) (hp : s.calibrationPending = false) :
    Retired s := by
  rcases h with hr | ⟨ht, -⟩ | hi
  · exact hr
  · have := ht.pending
    simp [calibrationPending, this] at hp
  · rw [calibrationPending_of_jobs hi.jobs rfl (by simp)] at hp
    cases hp

theorem StandbyFits.retired {s : RficState} (h : StandbyFits s)
    (hp : s.calibrationPending = false) : Retired s := by
  rcases h.cont with hj | ⟨c, hc, hj⟩
  · exact ⟨hj, h.pending⟩
  · exfalso
    rcases List.mem_pair.mp hc with rfl | rfl
    · rw [calibrationPending_of_jobs hj rfl nofun] at hp
      cases hp
    · rw [calibrationPending_of_jobs hj rfl nofun] at hp
      cases hp

theorem enterCallback_init {s : RficState} {e : RficQueueEntry} (hr : Reaches s e .init)
    (h : Retired s ∨ e.value = 1 ∧ InitFits s ∨ e.value = 2 ∧ Retired s)
    (hpoll : pollsNothing s.jobs = true)
    (hno : Retired s → e.value = 2 → s.initState ≠ .standby → standbyStarts a s = false) :
    TurnFits e (s.enterCallback a e) := by
  have hcall : s.callbackResult a e = s.cmdWrInit a e.value := hr.callbackResult a
  have hinit (s' : RficState) := hr.init s'
  have hfits : InitFits s ∨ e.value ≠ 1 := by
    rcases h with hd | ⟨-, hf⟩ | ⟨hv, -⟩
    · exact .inl (.inl hd)
    · exact .inl hf
    · right
      rw [hv]
      decide
  have hret (hv : e.value ≠ 1) : Retired s := by
    rcases h with hd | ⟨hv', -⟩ | ⟨-, hd⟩
    · exact hd
    · exact absurd hv' hv
    · exact hd
  by_cases h1 : e.value = 1
  · have hon := cmdWrInit_on_fits a (hfits.resolve_right (not_not.mpr h1)) hpoll
    refine turnFits_of_callback a ?_ ?_ <;> rw [hcall, h1]
    · exact .initOn (hinit _) h1 hon
    · exact hon.retired
  · have hd := hret h1
    by_cases h0 : e.value = 0
    · have hoff := cmdWrInit_off_retired a hd
      refine turnFits_of_callback a ?_ ?_ <;> rw [hcall, h0]
      · exact .retired hoff
      · exact fun _ => hoff
    · by_cases h2 : e.value = 2
      · have hstandby : StandbyFits (s.cmdWrInit a 2).1 := by
          unfold cmdWrInit
          rw [if_neg (by decide), if_neg (by decide), if_pos rfl]
          split
          · exact hd.standbyFits
          · rename_i hst
            exact rficStandby_fits a hd hst (hno hd h2 hst)
        refine turnFits_of_callback a ?_ ?_ <;> rw [hcall, h2]
        · exact .standby (hinit _) h2 hstandby
        · exact hstandby.retired
      · have hbad : (s.cmdWrInit a e.value).1 = s.recordError (.error .einval) := by
          unfold cmdWrInit
          rw [if_neg h0, if_neg h1, if_neg h2]
        refine turnFits_of_callback a ?_ ?_ <;> rw [hcall, hbad]
        · exact .retired ⟨hd.jobs, hd.pending⟩
        · exact fun _ => ⟨hd.jobs, hd.pending⟩

theorem runHead_polled {s : RficState} {e : RficQueueEntry} {c : Cont} (hj : s.jobs = c.jobs)
    (hc : c.pollable (e.cmd = bladerfRficCommandInit) = true) :
    Polled s (e.cmd = bladerfRficCommandInit) (c.resumes (e.cmd = bladerfRficCommandInit))
      (s.runHead a e) := by
  unfold runHead
  dsimp only
  generalize hi : (decide (e.cmd = bladerfRficCommandInit) : Bool) = i at hc ⊢
  cases c with
  | firLoad =>
      have hi' : i = true := hc
      rw [hi', if_neg (by simp [hj, Cont.jobs, idle]), if_pos (by simp [hj, Cont.jobs])]
      exact pollFirLoad_polled a hj
  | firEnable =>
      rw [if_neg (by simp [hj, Cont.jobs, idle]),
        if_neg (by simp [hj, Cont.jobs, idle]), if_pos (by simp [hj, Cont.jobs])]
      exact pollFirEnable_polled a hj i
  | rfpll =>
      simp only [hj, Cont.jobs, idle, Bool.false_eq_true, if_false, if_true]
      exact pollRfpll_polled a hj i
  | sampleRate =>
      simp only [hj, Cont.jobs, idle, Bool.false_eq_true, if_false, if_true]
      exact pollSampleRate_polled a hj i
  | bandwidth =>
      have hi' : i = false := by simpa [Cont.pollable] using hc
      simp only [hj, Cont.jobs, idle, Bool.false_eq_true, if_false, if_true, hi']
      exact pollBandwidth_polled a hj
  | txQuad resume =>
      simp only [hj, Cont.jobs, idle, Bool.false_eq_true, if_false, if_true]
      exact pollTxQuad_polled a hj i _ (by simpa only [Cont.pollable, Bool.not_eq_true'] using hc)
  | rfdc resume =>
      simp only [hj, Cont.jobs, idle, Bool.false_eq_true, if_false, if_true]
      exact pollRfdc_polled a hj i (by simpa only [Cont.pollable, Bool.not_eq_true'] using hc)
  | _ => cases hc

theorem runHead_pollInit {s : RficState} {e : RficQueueEntry} (hj : s.jobs = Cont.init.jobs) :
    s.runHead a e = s.pollInit a := by
  simp [runHead, hj, Cont.jobs]

theorem WriteFn.resumes_mem {f : WriteFn} {c c' : Cont} (hc : c ∈ f.conts)
    (h : c.resumes false = some c') :
    c' ∈ f.conts ∧ (c' = .rfpll ∨ c' = .rfpllDone → c = .rfpll) := by
  have table : ∀ c ∈ f.conts, ∀ c' ∈ c.resumes false,
      c' ∈ f.conts ∧ (c' = .rfpll ∨ c' = .rfpllDone → c = .rfpll) := by
    cases f <;> decide
  exact table c hc c' h

theorem turnFits_of_polled {s : RficState} {e : RficQueueEntry} {f : WriteFn}
    (hr : Reaches s e f) {c : Cont} (hc : c ∈ f.conts) (hj : s.jobs = c.jobs)
    (hp : s.tail.pending = false)
    (hpeer : c = .rfpll ∨ c = .rfpllDone → s.frequencyPeerUnknown (channelIsTx e.ch) = false)
    {r : RficState × Turn} (h : Polled s false (c.resumes false) r) : TurnFits e r := by
  cases h with
  | pending => exact ⟨fun _ => .command f hr hp c hc hj hpeer, nofun⟩
  | resumes c' hnext jobs tail phy gate peer =>
      obtain ⟨hmem, hrf⟩ := WriteFn.resumes_mem hc hnext
      refine ⟨fun _ => .command f (hr.of_gate gate) (by rw [tail, hp]) c' hmem jobs ?_, nofun⟩
      intro h
      have hc' : c = .rfpll := hrf h
      subst hc'
      cases hnext
      rw [peer rfl]
      exact hpeer (.inl rfl)
  | nested hinit => cases hinit
  | finished rv hinit jobs tail => exact ⟨nofun, fun _ _ => ⟨jobs, by rw [tail, hp]⟩⟩

theorem TailFits.resumes {phase : InitTailPhase} {c c' : Cont} (hc : TailFits phase c)
    (h : c.resumes true = some c') : TailFits phase c' := by
  have table : ∀ {c}, TailFits phase c → ∀ c' ∈ c.resumes true, TailFits phase c' := by
    cases phase <;> simp only [TailFits] <;> first | decide | exact fun h => h.elim
  exact table hc c' h

theorem inTail_of_polled {s : RficState} (h : InTail s)
    (hphy : s.phy.isSome = true ∨ s.calibrationFaulted = true) {c : Cont}
    (hc : s.tail.nestedComplete = false ∧ TailFits s.tail.phase c)
    {r : RficState × Turn} (hp : Polled s true (c.resumes true) r) :
    r.2 = .yield ∧ InTail r.1 ∧ (r.1.phy.isSome = true ∨ r.1.calibrationFaulted = true) := by
  cases hp with
  | pending => exact ⟨rfl, h, hphy⟩
  | resumes c' hnext jobs tail phy gate peer =>
      refine ⟨rfl, ⟨by rw [tail, h.pending], by rw [gate.1]; exact h.off, c', jobs, .inr ?_⟩, ?_⟩
      · rw [tail]
        exact ⟨hc.1, hc.2.resumes hnext⟩
      · rw [phy, gate.2]
        exact hphy
  | nested hinit jobs pending phy state faulted =>
      refine ⟨rfl, ⟨by rw [pending, h.pending], ?_, .idle, jobs, .inl rfl⟩, ?_⟩
      · rcases state with he | he
        · rw [he]
          exact h.off
        · rw [he]
          nofun
      · rw [phy]
        exact hphy.imp id faulted
  | finished rv hinit => cases hinit

theorem standbyFits_of_polled {s : RficState} (h : StandbyFits s) {c : Cont}
    (hc : c ∈ [Cont.txQuad false, .rfdc false]) {r : RficState × Turn}
    (hp : Polled s true (c.resumes true) r) : r.2 = .yield ∧ StandbyFits r.1 := by
  cases hp with
  | pending => exact ⟨rfl, h⟩
  | resumes c' hnext =>
      rcases List.mem_pair.mp hc with rfl | rfl <;> cases hnext
  | nested hinit jobs pending phy state faulted => exact ⟨rfl, by rw [pending, h.pending], .inl jobs⟩
  | finished rv hinit => cases hinit

theorem cmd_of_ptr {cmd : BitVec 8} {f : WriteFn} (h : getCmdPtr cmd = some f) :
    cmd = bladerfRficCommandInit ↔ f = .init := by
  constructor
  · rintro rfl
    cases h
    rfl
  · rintro rfl
    unfold getCmdPtr at h
    split at h
    · assumption
    · split_ifs at h <;> cases h

theorem WriteFn.conts_pollable {f : WriteFn} {c : Cont} (h : c ∈ f.conts) :
    pollsNothing c.jobs = true ∨ c.pollable false = true := by
  revert c
  cases f <;> decide

theorem TailFits.pollable {phase : InitTailPhase} {c : Cont} (h : TailFits phase c) :
    pollsNothing c.jobs = true ∨ c.pollable true = true := by
  revert c
  cases phase <;> simp only [TailFits] <;> first | decide | exact fun h => h.elim

theorem enterCallback_unreached {s : RficState} {e : RficQueueEntry} (h : Retired s)
    (hno : ∀ f, ¬Reaches s e f) : TurnFits e (s.enterCallback a e) := by
  have hret : Retired (s.callbackResult a e).1 := by
    unfold callbackResult
    split
    · exact h
    · rename_i f hf
      split
      · exact h
      · rename_i h1
        split
        · exact ⟨h.jobs, h.pending⟩
        · rename_i h2
          split
          · exact h
          · rename_i h3
            exact absurd ⟨hf, by simpa using h1, by simpa using h2, h3⟩ (hno f)
  exact turnFits_of_callback a (.retired hret) fun _ => hret

theorem runHead_fits {s : RficState} {e : RficQueueEntry} (h : RunFits s e)
    (hno : Reaches s e .init → Retired s → e.value = 2 → s.initState ≠ .standby →
      standbyStarts a s = false) : TurnFits e (s.runHead a e) := by
  cases h with
  | retired h =>
      rw [runHead_of_pollsNothing a (by rw [h.jobs]; rfl)]
      by_cases hreach : ∃ f, Reaches s e f
      · obtain ⟨f, hf⟩ := hreach
        by_cases hinit : f = .init
        · subst hinit
          exact enterCallback_init a hf (.inl h) (by rw [h.jobs]; rfl) (hno hf)
        · exact enterCallback_command a hf hinit (c := .idle) (.inl rfl) h.jobs rfl h.pending nofun
      · exact enterCallback_unreached a h fun f hf => hreach ⟨f, hf⟩
  | command f hf hp c hc hj hpeer =>
      have hinit : f ≠ .init := by
        rintro rfl
        cases hc
      rcases WriteFn.conts_pollable hc with hpoll | hpoll
      · rw [runHead_of_pollsNothing a (hj ▸ hpoll)]
        exact enterCallback_command a hf hinit (.inr hc) hj hpoll hp fun h => hpeer (.inr h)
      · have hcmd : decide (e.cmd = bladerfRficCommandInit) = false := by
          rw [decide_eq_false_iff_not, cmd_of_ptr hf.ptr]
          exact hinit
        have hpolled := runHead_polled a (e := e) hj (by rw [hcmd]; exact hpoll)
        rw [hcmd] at hpolled
        exact turnFits_of_polled hf hc hj hp hpeer hpolled
  | initOn hf hv h =>
      have hcmd : decide (e.cmd = bladerfRficCommandInit) = true := by
        rw [decide_eq_true_iff, cmd_of_ptr hf.ptr]
      have henter (hpoll : pollsNothing s.jobs = true) : TurnFits e (s.runHead a e) := by
        rw [runHead_of_pollsNothing a hpoll]
        exact enterCallback_init a hf (.inr (.inl ⟨hv, h⟩)) hpoll (hno hf)
      rcases h with hr | ⟨ht, hphy⟩ | hi
      · exact henter (by rw [hr.jobs]; rfl)
      · obtain ⟨c, hj, hc⟩ := ht.cont
        rcases hc with rfl | hc
        · exact henter (by rw [hj]; rfl)
        · rcases hc.2.pollable with hpoll | hpoll
          · exact henter (hj ▸ hpoll)
          · have hpolled := runHead_polled a (e := e) hj (by rw [hcmd]; exact hpoll)
            rw [hcmd] at hpolled
            obtain ⟨hy, hin, hphy'⟩ := inTail_of_polled ht hphy hc hpolled
            refine ⟨fun _ => .initOn (hf.init _) hv (.inr (.inl ⟨hin, hphy'⟩)), fun rv hfin => ?_⟩
            rw [hy] at hfin
            cases hfin
      · rw [runHead_pollInit a hi.jobs]
        unfold pollInit
        dsimp only
        split
        · exact ⟨fun _ => .initOn hf hv (.inr (.inr hi)), nofun⟩
        · refine ⟨fun _ => .initOn (hf.init _) hv (.inl ⟨?_, hi.pending⟩), nofun⟩
          simp [hi.jobs, Cont.jobs, idle]
  | standby hf hv h =>
      have hcmd : decide (e.cmd = bladerfRficCommandInit) = true := by
        rw [decide_eq_true_iff, cmd_of_ptr hf.ptr]
      rcases h.cont with hj | ⟨c, hc, hj⟩
      · have hret : Retired s := ⟨hj, h.pending⟩
        rw [runHead_of_pollsNothing a (by rw [hj]; rfl)]
        exact enterCallback_init a hf (.inl hret) (by rw [hj]; rfl) (hno hf)
      · have hpoll : c.pollable true = true := by
          rcases List.mem_pair.mp hc with rfl | rfl <;> rfl
        have hpolled := runHead_polled a (e := e) hj (by rw [hcmd]; exact hpoll)
        rw [hcmd] at hpolled
        obtain ⟨hy, hfits⟩ := standbyFits_of_polled h hc hpolled
        refine ⟨fun _ => .standby (hf.init _) hv hfits, fun rv hfin => ?_⟩
        rw [hy] at hfin
        cases hfin

/-! ## Runs -/

/-- A worker turn in which INIT STANDBY strands an RFPLL transaction. -/
def standbyStrands (s : RficState) : RficAct → Bool
  | .work a =>
      match s.queue.peek with
      | some e =>
          e.state = .running ∧ e.cmd = bladerfRficCommandInit ∧ e.ch = rficSystemChannel ∧
            e.value = 2 ∧ !s.jobs.txQuadRetuneOwner ∧ !s.jobs.owned ∧ standbyStarts a s
      | none => false
  | _ => false

/-- The job flags are exclusive, and between two commands only RETUNE2 has one. -/
structure NoStale (s : RficState) : Prop where
  exclusive : s.jobs.jobFlags.count true ≤ 1
  between : s.headRunning = false → s.tail.pending = false ∧ ∀ b ∈ s.jobs.commandFlags, b = false

structure OneCont (s : RficState) : Prop where
  running : ∀ e, s.queue.peek = some e → e.state = .running → RunFits s e
  quiet : s.headRunning = false →
    s.tail.pending = false ∧ ∃ c ∈ [Cont.idle, .txQuadRetune, .gainTable], s.jobs = c.jobs

theorem RunFits.cont {s : RficState} {e : RficQueueEntry} (h : RunFits s e) :
    ∃ c : Cont, s.jobs = c.jobs ∧ c ∉ [Cont.txQuadRetune, .gainTable] := by
  cases h with
  | retired h => exact ⟨.idle, h.jobs, by simp⟩
  | command f hf hp c hc hj hpeer =>
      refine ⟨c, hj, ?_⟩
      simp only [List.mem_cons, List.not_mem_nil, or_false]
      rintro (rfl | rfl) <;> cases f <;> simp [WriteFn.conts] at hc
  | initOn hf hv h =>
      rcases h with hr | ⟨ht, -⟩ | hi
      · exact ⟨.idle, hr.jobs, by simp⟩
      · obtain ⟨c, hj, hc⟩ := ht.cont
        refine ⟨c, hj, ?_⟩
        simp only [List.mem_cons, List.not_mem_nil, or_false]
        rintro (rfl | rfl)
        · rcases hc with hc | ⟨-, hc⟩
          · cases hc
          · cases hp : s.tail.phase <;> rw [hp] at hc <;> simp [TailFits] at hc
        · rcases hc with hc | ⟨-, hc⟩
          · cases hc
          · cases hp : s.tail.phase <;> rw [hp] at hc <;> simp [TailFits] at hc
      · exact ⟨.init, hi.jobs, by simp⟩
  | standby hf hv h =>
      rcases h.cont with hj | ⟨c, hc, hj⟩
      · exact ⟨.idle, hj, by simp⟩
      · refine ⟨c, hj, ?_⟩
        simp only [List.mem_cons, List.not_mem_nil, or_false] at hc ⊢
        rcases hc with rfl | rfl <;> simp

theorem RunFits.retuneOwner {s : RficState} {e : RficQueueEntry} (h : RunFits s e) :
    s.retuneOwner = false := by
  obtain ⟨c, hj, hc⟩ := h.cont
  simp only [RficState.retuneOwner, txQuadRetuneOwner, hj]
  cases c <;> simp_all [Cont.jobs, idle]

theorem OneCont.noStale {s : RficState} (h : OneCont s) : NoStale s := by
  constructor
  · have hcont : ∃ c : Cont, s.jobs = c.jobs := by
      cases hr : s.headRunning with
      | false =>
          obtain ⟨-, c, -, hj⟩ := h.quiet hr
          exact ⟨c, hj⟩
      | true =>
          unfold headRunning at hr
          cases hp : s.queue.peek with
          | none =>
              rw [hp] at hr
              cases hr
          | some e =>
              rw [hp] at hr
              obtain ⟨c, hj, -⟩ := (h.running e hp (by simpa using hr)).cont
              exact ⟨c, hj⟩
    obtain ⟨c, hj⟩ := hcont
    rw [hj]
    exact c.jobFlags_le
  · intro hr
    obtain ⟨hp, c, hc, hj⟩ := h.quiet hr
    refine ⟨hp, ?_⟩
    rw [hj]
    simp only [List.mem_cons, List.not_mem_nil, or_false] at hc
    rcases hc with rfl | rfl | rfl <;> simp [commandFlags, Cont.jobs, idle]

theorem RunFits.of_plain {s : RficState} {e e' : RficQueueEntry} (h : RunFits s e)
    (he : e'.cmd = e.cmd ∧ e'.ch = e.ch ∧ e'.value = e.value) : RunFits s e' := by
  obtain ⟨hcmd, hch, hv⟩ := he
  have hreach {f : WriteFn} (hf : Reaches s e f) : Reaches s e' f :=
    ⟨hcmd ▸ hf.ptr, hch ▸ hf.valid, hcmd ▸ hf.allowed, hv ▸ hf.fits⟩
  cases h with
  | retired h => exact .retired h
  | command f hf hp c hc hj hpeer => exact .command f (hreach hf) hp c hc hj (hch ▸ hpeer)
  | initOn hf hv' h => exact .initOn (hreach hf) (hv.trans hv') h
  | standby hf hv' h => exact .standby (hreach hf) (hv.trans hv') h

theorem RunFits.setQueue {s : RficState} {e : RficQueueEntry} (h : RunFits s e) (q : RficQueue) :
    RunFits { s with queue := q } e := by
  cases h with
  | retired h => exact .retired ⟨h.jobs, h.pending⟩
  | command f hf hp c hc hj hpeer =>
      exact .command f (hf.of_gate ⟨rfl, rfl⟩) hp c hc hj hpeer
  | initOn hf hv h =>
      refine .initOn (hf.init _) hv ?_
      rcases h with hr | ⟨ht, hphy⟩ | hi
      · exact .inl ⟨hr.jobs, hr.pending⟩
      · exact .inr (.inl ⟨⟨ht.pending, ht.off, ht.cont⟩, hphy⟩)
      · exact .inr (.inr ⟨hi.jobs, hi.pending, hi.off⟩)
  | standby hf hv h => exact .standby (hf.init _) hv ⟨h.pending, h.cont⟩

theorem plain_fields {e e' : RficQueueEntry} (h : e'.plain = e.plain) :
    e'.state = e.state ∧ e'.cmd = e.cmd ∧ e'.ch = e.ch ∧ e'.value = e.value := by
  have hs : e'.state = e.state := by
    rw [← RficQueueEntry.plain_state, h, RficQueueEntry.plain_state]
  unfold RficQueueEntry.plain at h
  split at h
  · rename_i h1
    rw [if_pos (hs ▸ h1)] at h
    simp only [RficQueueEntry.mk.injEq] at h
    exact ⟨hs, h.2.2.2.1, h.2.2.1, h.2.2.2.2.2.1⟩
  · rename_i h1
    rw [if_neg (hs ▸ h1)] at h
    rw [h]
    exact ⟨rfl, rfl, rfl, rfl⟩

theorem headRunning_of_plain {s s' : RficState} (h : s'.queue.plain = s.queue.plain) :
    s'.headRunning = s.headRunning := by
  have hpeek : s'.queue.peek.map RficQueueEntry.plain = s.queue.peek.map RficQueueEntry.plain := by
    rw [← peek_map_plain, ← peek_map_plain, h]
  unfold headRunning
  cases hp : s.queue.peek with
  | none =>
      rw [hp, Option.map_none, Option.map_eq_none_iff] at hpeek
      rw [hpeek]
  | some e =>
      rw [hp, Option.map_some, Option.map_eq_some_iff] at hpeek
      obtain ⟨e', hp', he⟩ := hpeek
      rw [hp']
      simp only [(plain_fields he).1]

theorem standbyStarts_of_not {s : RficState} {e : RficQueueEntry}
    (hno : standbyStrands s (.work a) = false) (hp : s.queue.peek = some e)
    (he : e.state = .running) (hf : Reaches s e .init) (hr : Retired s) (hv : e.value = 2) :
    standbyStarts a s = false := by
  have hcmd : e.cmd = bladerfRficCommandInit := (cmd_of_ptr hf.ptr).mpr rfl
  have hch : e.ch = rficSystemChannel := by
    by_contra hne
    have := hf.valid
    simp [checkValidity, hne, WriteFn.chanTx, WriteFn.chanRx, WriteFn.initReqd] at this
  simp only [standbyStrands, hp, he, hcmd, hch, hv, hr.jobs] at hno
  simpa [owned, idle] using hno

theorem OneCont.idle {s : RficState} (h : OneCont s) (hr : s.headRunning = false)
    (ho : s.retuneOwner = false) : Retired s := by
  obtain ⟨hp, c, hc, hj⟩ := h.quiet hr
  refine ⟨?_, hp⟩
  simp only [List.mem_cons, List.not_mem_nil, or_false] at hc
  rcases hc with rfl | rfl | rfl
  · exact hj
  · simp [retuneOwner, txQuadRetuneOwner, hj, Cont.jobs] at ho
  · simp [retuneOwner, txQuadRetuneOwner, hj, Cont.jobs] at ho

theorem OneCont.of_retired {s : RficState} (h : Retired s) : OneCont s :=
  ⟨fun _ _ _ => .retired h, fun _ => ⟨h.pending, .idle, by simp, h.jobs⟩⟩

theorem headRunning_of_peek {s : RficState} {e : RficQueueEntry} (hp : s.queue.peek = some e) :
    s.headRunning = decide (e.state = .running) := by
  simp [headRunning, hp]

theorem complete_jobs (s : RficState) (rv : Bool) :
    (s.complete a rv).jobs = s.jobs ∧ (s.complete a rv).tail = s.tail := by
  unfold complete
  dsimp only
  split <;> exact ⟨by simp, by simp⟩

theorem OneCont.work {s : RficState} (h : OneCont s) (ho : s.retuneOwner = false)
    (hno : standbyStrands s (.work a) = false) : OneCont (s.commandWork a) := by
  unfold commandWork
  cases hp : s.queue.peek with
  | none =>
      have hd := h.idle (by simp [headRunning, hp]) ho
      dsimp only
      split
      · exact .of_retired ⟨by simp [retireOrphans, hd.jobs, RficJobs.idle], rfl⟩
      · exact h
  | some e =>
      dsimp only
      split
      · exact h
      · cases he : e.state with
        | new =>
            have hd := h.idle (by simp [headRunning_of_peek hp, he]) ho
            exact .of_retired ⟨hd.jobs, hd.pending⟩
        | complete =>
            have hd := h.idle (by simp [headRunning_of_peek hp, he]) ho
            exact .of_retired ⟨hd.jobs, hd.pending⟩
        | running =>
            have hfits := h.running e hp he
            have hturn := runHead_fits a hfits fun hf hr hv _ =>
              standbyStarts_of_not a hno hp he hf hr hv
            obtain ⟨e', hp', he'⟩ := RficQueue.peek_plain (runHead_plain a s e) hp
            obtain ⟨hstate, hfields⟩ := plain_fields he'
            dsimp only
            split
            · rename_i hy
              constructor
              · intro e₁ hp₁ _
                rw [hp'] at hp₁
                cases hp₁
                exact (hturn.1 hy).of_plain hfields
              · intro hr
                rw [headRunning_of_peek hp', hstate, he] at hr
                cases hr
            · rename_i rv hfin
              have hd := hturn.2 rv hfin
              obtain ⟨hj, ht⟩ := complete_jobs a (s.runHead a e).1 rv
              exact .of_retired ⟨hj.trans hd.jobs, by rw [ht, hd.pending]⟩

theorem OneCont.write {s : RficState} (h : OneCont s) (addr : BitVec 16) (data : BitVec 64)
    (id : BitVec 16) : OneCont (s.commandWriteAdmit addr data id).1 := by
  have hset (q : RficQueue)
      (hq : ∀ e, q.peek = some e → s.queue.peek = some e ∨ e.state = .new)
      (hq' : ∀ e, s.queue.peek = some e → q.peek = some e) : OneCont { s with queue := q } := by
    refine ⟨fun e hp he => ?_, fun hr => h.quiet ?_⟩
    · rcases hq e hp with hp | hn
      · exact (h.running e hp he).setQueue q
      · rw [he] at hn
        cases hn
    · cases hp : s.queue.peek with
      | none => simp [headRunning, hp]
      | some e =>
          rw [headRunning_of_peek hp]
          have hp' : ({ s with queue := q } : RficState).queue.peek = some e := hq' e hp
          rwa [headRunning_of_peek hp'] at hr
  rcases s.commandWriteAdmit_cases addr data id with
    ⟨hr, -⟩ | ⟨-, -, hr⟩ | ⟨-, -, -, hr⟩ | ⟨-, -, hr⟩ | ⟨-, -, -, -, q, hq, hr⟩
  · rw [hr]
    exact h
  · rw [hr]
    exact h
  · rw [hr]
    exact hset _ (fun e hp => .inl hp) fun e hp => hp
  · rw [hr]
    exact h
  · rw [hr]
    have hitems := (RficQueue.enqueue_eq hq).2
    refine hset _ (fun e hp => ?_) fun e hp => ?_
    · have hp : (q.entries.items).head? = some e := by
        simpa [RficQueue.peek, Lib.Fifo.peek] using hp
      rw [hitems] at hp
      cases hs : s.queue.entries.items with
      | nil =>
          rw [hs] at hp
          cases hp
          exact .inr rfl
      | cons b bs =>
          rw [hs] at hp
          left
          simpa [RficQueue.peek, Lib.Fifo.peek, hs] using hp
    · have hp : s.queue.entries.items.head? = some e := hp
      simp only [RficQueue.peek, Lib.Fifo.peek, RficQueue.afterEnqueue_entries, hitems,
        List.head?_append, hp]
      rfl

theorem OneCont.not_running {s : RficState} (h : OneCont s) (hr : s.retuneRuns = true) :
    s.headRunning = false := by
  by_contra hno
  have hno : s.headRunning = true := by simpa using hno
  have howner : s.retuneOwner = false := by
    unfold headRunning at hno
    cases hp : s.queue.peek with
    | none =>
        rw [hp] at hno
        cases hno
    | some e =>
        rw [hp] at hno
        exact (h.running e hp (by simpa using hno)).retuneOwner
  simp [retuneRuns, howner, ownsDevice, hno] at hr

theorem OneCont.of_quiet {s s' : RficState} (h : OneCont s) (hr : s.headRunning = false)
    (hq : s'.queue.plain = s.queue.plain) (ht : s'.tail = s.tail)
    (hj : ∃ c ∈ [Cont.idle, .txQuadRetune, .gainTable], s'.jobs = c.jobs) : OneCont s' := by
  have hr' : s'.headRunning = false := (headRunning_of_plain hq).trans hr
  refine ⟨fun e hp he => ?_, fun _ => ⟨by rw [ht]; exact (h.quiet hr).1, hj⟩⟩
  rw [headRunning_of_peek hp, he] at hr'
  cases hr'

theorem startTxQuadForRetune_jobs {s : RficState} (h : s.jobs = .idle) :
    (s.startTxQuadForRetune a).1.tail = s.tail ∧
      ∃ c ∈ [Cont.idle, .txQuadRetune, .gainTable], (s.startTxQuadForRetune a).1.jobs = c.jobs := by
  obtain ⟨ha, ⟨hst, heq⟩ | ⟨hst, hj, -⟩⟩ := startTxQuadCalibration_cases a s h
  · unfold startTxQuadForRetune
    dsimp only
    rw [hst, heq]
    exact ⟨rfl, .txQuadRetune, by simp, by simp [h, Cont.jobs, idle]⟩
  · unfold startTxQuadForRetune
    dsimp only
    split
    · exact ⟨ha.1, .idle, by simp, hj⟩
    · exact ⟨ha.1, .idle, by simp, hj⟩
    · rename_i h'
      exact absurd h' hst

theorem pollTxQuadForRetune_jobs {s : RficState} {c : Cont}
    (hc : c ∈ [Cont.idle, .txQuadRetune, .gainTable]) (hj : s.jobs = c.jobs) :
    (s.pollTxQuadForRetune a).1.tail = s.tail ∧
      ∃ c ∈ [Cont.idle, .txQuadRetune, .gainTable], (s.pollTxQuadForRetune a).1.jobs = c.jobs := by
  have hidle (hown : s.jobs.txQuadRetuneOwner = true) :
      { s.jobs with
        txQuadJobPending := false
        txQuadRetuneOwner := false } = idle := by
    simp only [List.mem_cons, List.not_mem_nil, or_false] at hc
    rw [hj] at hown ⊢
    rcases hc with rfl | rfl | rfl <;> simp [Cont.jobs, idle] at hown ⊢
  have hfail (st : Status) (hown : s.jobs.txQuadRetuneOwner = true) :
      (failTxQuadCalibration a { s with jobs :=
        { s.jobs with
          txQuadJobPending := false
          txQuadRetuneOwner := false } } st).jobs = Cont.idle.jobs :=
    failTxQuadCalibration_jobs a _ (hidle hown) st
  unfold pollTxQuadForRetune
  dsimp only
  split
  · exact ⟨rfl, c, hc, hj⟩
  · rename_i hown
    have hown : s.jobs.txQuadRetuneOwner = true := by
      simp only [not_or, Bool.not_eq_true', Bool.not_eq_false] at hown
      exact hown.2.1
    split
    · exact ⟨rfl, c, hc, hj⟩
    · generalize (if checkedPoll a .txQuadPoll = .ok ∧ a.test .unknownRetune = true then
        Status.error .eio else checkedPoll a .txQuadPoll) = st
      split
      · exact ⟨(failTxQuadCalibration_apart a _ st).1, .idle, by simp, hfail st hown⟩
      · exact ⟨rfl, .idle, by simp, hidle hown⟩

theorem startGainTableForRetune_cases (s : RficState) (r : GainTableRequest) :
    (s.startGainTableForRetune a r).1 = s ∨
      (s.startGainTableForRetune a r).1 = { s with jobs.gainTableRetuneOwner := true } := by
  have hstart (st : Status) (s' : RficState)
      (hs : s' = (if st = .pending then ({ s with jobs.gainTableRetuneOwner := true }, .pending)
        else (s, st) : RficState × Status).1) :
      s' = s ∨ s' = { s with jobs.gainTableRetuneOwner := true } := by
    rw [hs]
    split
    · exact .inr rfl
    · exact .inl rfl
  unfold startGainTableForRetune
  split
  · exact .inl rfl
  · exact hstart _ _ rfl

theorem OneCont.step {s s' : RficState} {act : RficAct} (h : OneCont s)
    (hno : standbyStrands s act = false) (hs : s.step act = some s') : OneCont s' := by
  have hfree (hr : s.headRunning = false) (ho : (!s.retuneOwner) = true) : s.jobs = .idle :=
    (h.idle hr (by simpa using ho)).jobs
  cases act with
  | write addr data id =>
      cases hs
      exact h.write addr data id
  | work a =>
      simp only [RficState.step] at hs
      split at hs
      · cases hs
      · rename_i ho
        cases hs
        exact h.work a (by simpa using ho) hno
  | retuneTxQuadStart a =>
      have hq := step_retune_plain hs rfl
      simp only [RficState.step] at hs
      split at hs
      · rename_i hr
        cases hs
        have hn := h.not_running hr.1
        obtain ⟨ht, hj⟩ := startTxQuadForRetune_jobs a (hfree hn hr.2)
        exact h.of_quiet hn hq ht hj
      · cases hs
  | retuneTxQuadPoll a =>
      have hq := step_retune_plain hs rfl
      simp only [RficState.step] at hs
      split at hs
      · rename_i hr
        cases hs
        have hn := h.not_running hr
        obtain ⟨-, c, hc, hj⟩ := h.quiet hn
        obtain ⟨ht, hj'⟩ := pollTxQuadForRetune_jobs a hc hj
        exact h.of_quiet hn hq ht hj'
      · cases hs
  | retuneGainTableStart a r =>
      have hq := step_retune_plain hs rfl
      simp only [RficState.step] at hs
      split at hs
      · rename_i hr
        cases hs
        have hn := h.not_running hr.1
        have hj := hfree hn hr.2
        rcases startGainTableForRetune_cases a s r with heq | heq
        · rw [heq]
          exact h
        · refine h.of_quiet hn hq (by rw [heq]) ⟨.gainTable, by simp, ?_⟩
          rw [heq]
          simp [hj, Cont.jobs]
      · cases hs
  | retuneGainTablePoll a =>
      have hq := step_retune_plain hs rfl
      simp only [RficState.step] at hs
      split at hs
      · rename_i hr
        cases hs
        have hn := h.not_running hr
        obtain ⟨-, c, hc, hj⟩ := h.quiet hn
        refine h.of_quiet hn hq ?_ ?_
        · unfold pollGainTableForRetune
          dsimp only
          split_ifs <;> rfl
        · unfold pollGainTableForRetune
          dsimp only
          split
          · exact ⟨c, hc, hj⟩
          · rename_i hown
            split
            · exact ⟨c, hc, hj⟩
            · refine ⟨.idle, by simp, ?_⟩
              simp only [List.mem_cons, List.not_mem_nil, or_false] at hc
              rw [hj] at hown ⊢
              rcases hc with rfl | rfl | rfl <;> simp [Cont.jobs, RficJobs.idle] at hown ⊢
      · cases hs
  | retuneFrequency tx i =>
      have hq := step_retune_plain hs rfl
      simp only [RficState.step] at hs
      split at hs
      · rename_i hr
        cases hs
        have hn := h.not_running hr
        exact h.of_quiet hn hq (by simp) (by simpa using (h.quiet hn).2)
      · cases hs

theorem commandInit_oneCont : OneCont commandInit :=
  .of_retired ⟨rfl, rfl⟩

/-- No RFIC command leaves a continuation behind, and no two jobs are pending
at once, as long as no INIT STANDBY strands an RFPLL transaction. -/
theorem rfic_no_stale_continuation {acts : List RficAct} {s : RficState}
    (hrun : Lib.Steps step (fun s act => standbyStrands s act = false) commandInit acts s) :
    NoStale s :=
  (hrun.invariant commandInit_oneCont fun h hno hs => h.step hno hs).noStale

def calmInit : List RficAct := .write 0x0f01 1 0 :: List.replicate 22 (.work Adi.calm)

theorem rfic_no_stale_continuation_init :
    ∃ s, Lib.exec step (fun s act => standbyStrands s act = false) commandInit calmInit = some s ∧
      s.initState = .on ∧ NoStale s := by
  have hrun : Lib.exec step (fun s act => standbyStrands s act = false) commandInit calmInit =
      some _ := rfl
  exact ⟨_, hrun, rfl, rfic_no_stale_continuation (Lib.Steps.of_exec hrun)⟩

theorem NoStale.rfpll_resume {s : RficState} (h : NoStale s) (hr : s.headRunning = false) :
    s.jobs.frequencyRfpllResumeCommand = false :=
  (h.between hr).2 _ (by simp [commandFlags])

/-- INIT ON leaves the RX LO unset, INIT STANDBY restores it, and completes
with the resume flag of the RFPLL transaction still up. -/
theorem rfic_stale_continuation :
    ¬∀ acts s, Lib.Steps step (fun _ _ => True) commandInit acts s → NoStale s := by
  intro h
  have hstale := h (calmInit ++ RficAct.write 0x0f01 2 0 :: List.replicate 5 (.work Adi.calm)) _
    (Lib.Steps.of_exec rfl)
  have hflag : true = false := hstale.rfpll_resume rfl
  cases hflag

end RficState
end BladeRF
