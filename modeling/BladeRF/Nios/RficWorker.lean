/-
# `Nios.RficWorker` — the RFIC queue worker and its system

One turn of `rfic_command_work_wq` polls the one pending job or enters the
handler of the running command, and retires the command when nothing of it is
pending.  RETUNE2 shares the job context for the TX quadrature calibration and
the RX gain table; its four calls are steps of the system, taken when
`run_deferred_packet_work_pass` lets RETUNE2 run.
-/
import BladeRF.Lib.Steps
import BladeRF.Nios.RficCommands

namespace BladeRF
namespace RficState

/-! ## Polls -/

inductive Turn where
  /-- `break`: the command stays RUNNING -/
  | yield
  | finish (rv : Bool)

/-- `rfic_checked_poll_status`. -/
def checkedPoll (a : Adi) (poll : AdiCall) : Status := (a.status poll).retainedPoll

/-- A poll of a job nested in INIT hands its status to the tail. -/
def nestedResult (s : RficState) (status : Status) : RficState :=
  { s with
    tail.nestedStatus := status
    tail.nestedComplete := true }

def pollInit (a : Adi) (s : RficState) : RficState × Turn :=
  let status := checkedPoll a .initPoll
  if status = .pending then (s, .yield)
  else
    let s :=
      { s with
        jobs.initJobPending := false
        initJobStatus := status
        phy := a.candidate }
    (s.recordError status, .yield)

def pollFirLoad (a : Adi) (s : RficState) : RficState × Turn :=
  let status := checkedPoll a .firLoadPoll
  if status = .pending then (s, .yield)
  else
    let s := { s.recordCleanupError (a.status .jobCleanup) with jobs.firLoadJobPending := false }
    if status.failed then ((s.recordError status).nestedResult status, .yield)
    else ({ s with jobs.firLoadInitPairResume := true }, .yield)

def pollFirEnable (a : Adi) (s : RficState) (init : Bool) : RficState × Turn :=
  let status := checkedPoll a .firEnablePoll
  if status = .pending then (s, .yield)
  else
    let s := { s.recordCleanupError (a.status .jobCleanup) with jobs.firEnableJobPending := false }
    if status.failed then
      let s := { s.recordError status with jobs.firEnableResumeCommand := false }
      if init then (s.nestedResult status, .yield) else (s, .finish false)
    else if init then ({ s with jobs.firEnableInitPairResume := true }, .yield)
    else ({ s with jobs.firEnableResumeCommand := true }, .yield)

def pollRfpll (a : Adi) (s : RficState) : RficState × Turn :=
  let status := checkedPoll a .rfpllPoll
  if status = .pending then (s, .yield)
  else
    let s :=
      { s with
        jobs.rfpllJobPending := false
        frequencyRfpllStatus := status
        jobs.frequencyRfpllResumeCommand := true }
    (s.recordError status, .yield)

def pollSampleRate (a : Adi) (s : RficState) (init : Bool) : RficState × Turn :=
  let status := checkedPoll a .sampleRatePoll
  if status = .pending then (s, .yield)
  else
    let s := { s.recordCleanupError (a.status .jobCleanup) with jobs.sampleRateJobPending := false }
    if status.failed then
      let s := s.recordError status
      if init then (s.nestedResult status, .yield) else (s, .finish false)
    else ({ s with jobs.sampleRateResumeCommand := true }, .yield)

def pollBandwidth (a : Adi) (s : RficState) (init : Bool) : RficState × Turn :=
  let status := checkedPoll a .bandwidthPoll
  if status = .pending then (s, .yield)
  else
    let s := { s.recordCleanupError (a.status .jobCleanup) with jobs.bandwidthJobPending := false }
    if status.failed then
      let s := s.recordError status
      if init then (s.nestedResult status, .yield) else (s, .finish false)
    else ({ s with jobs.bandwidthResumeCommand := true }, .yield)

/-- The status of a nested job is an error when the calibration state is unknown. -/
def nestedStatus (a : Adi) (s : RficState) (status : Status) : Status :=
  if status = .ok ∧ s.phy.isSome ∧ a.test .unknownNested then .error .eio else status

def pollTxQuadInit (a : Adi) (s : RficState) (status : Status) : RficState :=
  let status := s.nestedStatus a status
  let s := { s with jobs.txQuadResumeCommand := false }
  let s := if status.failed then (s.recordError status).failTxQuadCalibration a status
    else if s.txQuadCommitTxFrequency then { s with frequencyInvalidTx := false }
    else s
  { s with txQuadCommitTxFrequency := false }.nestedResult status

/-- The TX quadrature poll of any other command; `rv` is what `e->rv` becomes
when no error has been latched. -/
def pollTxQuadCommand (a : Adi) (s : RficState) (status : Status) (io : Bool) :
    RficState × Turn :=
  if status.failed then
    let s := { s with jobs.txQuadResumeCommand := false }
    ({ (s.recordError status).failTxQuadCalibration a status with
      txQuadCommitTxFrequency := false }, .finish false)
  else
    let s := if s.txQuadCommitTxFrequency then { s with frequencyInvalidTx := false } else s
    if s.jobs.txQuadResumeCommand then
      let r := s.latchCalibrationFault a .unknownTxQuadResume
      if r.2 then
        ({ r.1.recordError (.error .eio) with
          jobs.txQuadResumeCommand := false
          txQuadCommitTxFrequency := false }, .finish false)
      else ({ r.1 with txQuadCommitTxFrequency := false }, .yield)
    else ({ s with txQuadCommitTxFrequency := false }, .finish (!io))

def pollTxQuad (a : Adi) (s : RficState) (init io : Bool) : RficState × Turn :=
  let status := checkedPoll a .txQuadPoll
  if status = .pending then (s, .yield)
  else
    let s := { s.recordCleanupError (a.status .jobCleanup) with jobs.txQuadJobPending := false }
    if init then (s.pollTxQuadInit a status, .yield)
    else s.pollTxQuadCommand a status io

def pollRfdc (a : Adi) (s : RficState) (init : Bool) : RficState × Turn :=
  let status := checkedPoll a .rfdcPoll
  if status = .pending then (s, .yield)
  else
    let s := { s.recordCleanupError (a.status .jobCleanup) with jobs.rfdcJobPending := false }
    if init then
      let status := s.nestedStatus a status
      let s := if status.failed then s.recordError status
        else if s.rfdcCommitRxFrequency then { s with frequencyInvalidRx := false }
        else s
      ({ s with rfdcCommitRxFrequency := false }.nestedResult status, .yield)
    else if s.jobs.rfdcResumeEnableCommand then
      ({ s with rfdcResumeEnableStatus := status }.recordError status, .yield)
    else
      let s := if status.failed then s.recordError status
        else if s.rfdcCommitRxFrequency then { s with frequencyInvalidRx := false }
        else s
      ({ s with rfdcCommitRxFrequency := false }, .finish (!status.failed))

/-! ## The worker -/

/-- The handler call of a running command, after its revalidation. -/
def callbackResult (a : Adi) (s : RficState) (e : RficQueueEntry) : RficState × Bool :=
  match getCmdPtr e.cmd with
  | none => (s, false)
  | some f =>
      if !s.checkValidity f e.ch then (s, false)
      else if !s.commandAllowed e.cmd then (s.recordError (.error .eio), false)
      else if !f.wide ∧ e.value >>> 32 ≠ 0 then (s, false)
      else s.callback a f e.ch e.value

def enterCallback (a : Adi) (s : RficState) (e : RficQueueEntry) : RficState × Turn :=
  let r := s.callbackResult a e
  if r.1.calibrationPending then (r.1, .yield) else (r.1, .finish r.2)

/-- `ENTRY_STATE_RUNNING`, up to the publication. -/
def runHead (a : Adi) (s : RficState) (e : RficQueueEntry) : RficState × Turn :=
  let init : Bool := e.cmd = bladerfRficCommandInit
  if s.jobs.initJobPending then s.pollInit a
  else if s.jobs.firLoadJobPending then s.pollFirLoad a
  else if s.jobs.firEnableJobPending then s.pollFirEnable a init
  else if s.jobs.rfpllJobPending then s.pollRfpll a
  else if s.jobs.sampleRateJobPending then s.pollSampleRate a init
  else if s.jobs.bandwidthJobPending then s.pollBandwidth a init
  else if s.jobs.txQuadJobPending then s.pollTxQuad a init (e.resultCode = .io)
  else if s.jobs.rfdcJobPending then s.pollRfdc a init
  else s.enterCallback a e

def complete (a : Adi) (s : RficState) (rv : Bool) : RficState :=
  let latched := s.latchCalibrationFault a .unknownComplete
  let s := if latched.2 then latched.1.recordError (.error .eio) else latched.1
  { s with
    queue := s.queue.modifyHead fun e =>
      let result := e.resultCode.finalizeWithCleanup (rv && !latched.2) e.cleanupResultCode
      { e with
        resultCode := result
        rv := result = .success
        state := .complete } }

def retireOrphans (s : RficState) : RficState :=
  { s with
    tail := .idle
    initJobStatus := .ok
    frequencyRfpllStatus := .ok
    txQuadCommitTxFrequency := false
    jobs :=
      { s.jobs with
        initJobPending := false
        rfpllJobPending := false
        frequencyRfpllResumeCommand := false
        sampleRateJobPending := false
        sampleRateResumeCommand := false
        bandwidthJobPending := false
        bandwidthResumeCommand := false
        rfdcJobPending := false
        txQuadJobPending := false
        txQuadRetuneOwner := false
        txQuadResumeCommand := false
        firEnableJobPending := false
        firEnableResumeCommand := false
        firEnableInitPairResume := false } }

/-- `rfic_command_work_wq`. -/
def commandWork (a : Adi) (s : RficState) : RficState :=
  match s.queue.peek with
  | none => if s.phy.isNone ∧ !s.initJobStarted then s.retireOrphans else s
  | some e =>
      if s.jobs.txQuadRetuneOwner then s
      else match e.state with
        | .new => { s with queue := s.queue.modifyHead fun e => { e with state := .running } }
        | .running =>
            let r := s.runHead a e
            match r.2 with
            | .yield => r.1
            | .finish rv => r.1.complete a rv
        | .complete => { s with queue := s.queue.retire e }

/-! ## The calls of RETUNE2 -/

/-- `rfic_poll_tx_quad_calibration_for_retune`. -/
def pollTxQuadForRetune (a : Adi) (s : RficState) : RficState × Status :=
  if !s.jobs.txQuadJobPending ∨ !s.jobs.txQuadRetuneOwner ∨ s.phy.isNone then
    (s, .error .einval)
  else
    let status := checkedPoll a .txQuadPoll
    if status = .pending then (s, .pending)
    else
      let status := if status = .ok ∧ a.test .unknownRetune then .error .eio else status
      let s :=
        { s with
          jobs.txQuadJobPending := false
          jobs.txQuadRetuneOwner := false }
      if status.failed then (s.failTxQuadCalibration a status, status)
      else ({ s with frequencyInvalidTx := false }, status)

/-- The gain-table byte of a RETUNE2 request: FROM and TO regions, with region
3 for an unknown table. -/
structure GainTableRequest where
  start : Fin 4
  target : Fin 4

def niosPktRetune2GtUnknown : Fin 4 := 3

/-- What `rfic_start_gain_table_for_retune` starts from in HOST tuning mode. -/
def gainTableFrom (s : RficState) (r : GainTableRequest) : Fin 4 :=
  if s.gainTableDoubt then niosPktRetune2GtUnknown else r.start

/-- `rfic_start_gain_table_for_retune`: zero when nothing must be loaded, one
when a load started. -/
def startGainTableForRetune (a : Adi) (s : RficState) (r : GainTableRequest) :
    RficState × Status :=
  if s.jobs.owned then (s, .error .ebusy)
  else
    let status := if s.phy.isSome then
        if a.status .gainTableStart = .ok ∧ a.test .gainTableTerminal then .ok
        else if (a.status .gainTableStart).failed then a.status .gainTableStart
        else .pending
      else if s.gainTableFrom r = r.target then .ok
      else if r.target = niosPktRetune2GtUnknown then .error .einval
      else if (a.status .gainTableStart).failed then a.status .gainTableStart
      else .pending
    if status = .pending then ({ s with jobs.gainTableRetuneOwner := true }, .pending)
    else (s, status)

def pollGainTableForRetune (a : Adi) (s : RficState) : RficState × Status :=
  if !s.jobs.gainTableRetuneOwner then (s, .error .einval)
  else
    let status := a.status .gainTablePoll
    if status = .pending then (s, .pending)
    else
      ({ s with
        jobs.gainTableRetuneOwner := false
        gainTableDoubt := status ≠ .ok }, status)

/-! ## Steps -/

inductive RficAct where
  | write (addr : BitVec 16) (data : BitVec 64) (id : BitVec 16)
  /-- `rfic_command_work` -/
  | work (a : Adi)
  /-- RETUNE2 starts or polls a job in the shared context -/
  | retuneTxQuadStart (a : Adi)
  | retuneTxQuadPoll (a : Adi)
  | retuneGainTableStart (a : Adi) (r : GainTableRequest)
  | retuneGainTablePoll (a : Adi)
  /-- RETUNE2 moves an LO, or learns where it is -/
  | retuneFrequency (tx invalid : Bool)

def retuneOwner (s : RficState) : Bool :=
  s.txQuadRetuneOwner || s.jobs.gainTableRetuneOwner

/-- The RFIC worker leaves the part to RETUNE2 between its own commands. -/
def retuneRuns (s : RficState) : Bool := s.retuneOwner || !s.ownsDevice false

def step (s : RficState) : RficAct → Option RficState
  | .write addr data id => some (s.commandWriteAdmit addr data id).1
  | .work a => if s.retuneOwner then none else some (s.commandWork a)
  | .retuneTxQuadStart a =>
      if s.retuneRuns ∧ !s.retuneOwner then some (s.startTxQuadForRetune a).1 else none
  | .retuneTxQuadPoll a => if s.retuneRuns then some (s.pollTxQuadForRetune a).1 else none
  | .retuneGainTableStart a r =>
      if s.retuneRuns ∧ !s.retuneOwner then some (s.startGainTableForRetune a r).1 else none
  | .retuneGainTablePoll a => if s.retuneRuns then some (s.pollGainTableForRetune a).1 else none
  | .retuneFrequency tx invalid =>
      if s.retuneRuns then some (s.setFrequencyInvalid tx invalid) else none

end RficState
end BladeRF
