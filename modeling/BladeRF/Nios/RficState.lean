/-
# `Nios.RficState` — the state of the RFIC worker and the ADI driver's answers

Every resumable RFIC operation leaves a flag behind: a pending job in the one
job context that all ADI transactions share, or a resume flag that tells the
command's callback where to continue.  `RficJobs` holds these flags and nothing
else, so that a result about continuations is a result about one record.

What the ADI driver and the RFFE helpers answer is an oracle, one value for
each place in the source that asks.  The RFDC history, the register words and
the readback caches decide nothing but such answers and are left out, as are
the stage and timing diagnostics.
-/
import BladeRF.Nios.RficQueue

namespace BladeRF

/-! ## Answers of the drivers -/

/-- The AD9361 instance behind `state.phy`. -/
structure Phy where
  /-- `phy->pdata != NULL` -/
  pdata : Bool
  /-- `fdd && !fdd_independent_mode` -/
  dependentFdd : Bool

/-- How `ad9361_remove_ex` ends.  A success consumes the PHY; after a failure
the `consumed` flag tells. -/
inductive RemoveResult where
  | removed
  | failed (e : Errno) (consumed : Bool)
deriving DecidableEq

/-- Calls that return an `int32_t` status. -/
inductive AdiCall where
  -- polls of the worker
  | initPoll
  | firLoadPoll
  | firEnablePoll
  | rfpllPoll
  | sampleRatePoll
  | bandwidthPoll
  | txQuadPoll
  | rfdcPoll
  | jobCleanup
  -- starts
  | initStart
  | initCleanup
  | firLoadStart
  | firEnableStart
  | firPairStart
  | rfpllStart (tx : Bool)
  | sampleRateStart
  | bandwidthStart
  | txQuadStart
  | txQuadStartCleanup
  | rfdcStart
  | gainTableStart
  | gainTablePoll
  -- calls that complete at once
  | getRxPort
  | getLoFreq
  | setLoFreq (tx : Bool)
  | modifySpdt (i : Fin 2)
  | frequencySpdt (tx : Bool) (i : Fin 2)
  | setRfPort
  | frequencyPort (tx : Bool)
  | fastlockExitForeign (tx : Bool)
  | digTune
  | digTuneCleanup
  | firConfig
  | firConfigCleanup
  | txmuteGet (i : Fin 2)
  | txmuteSet (i : Fin 2)
  | txmuteSetCached
  | setGain
  | setGainMode
  | fastlockStore
  | fastlockSync
deriving DecidableEq

inductive AdiTest where
  -- RFFE accesses that succeeded
  | enableRead
  | enableCommit
  | enableResumeCommit
  | frequencyRead (tx : Bool)
  | frequencyWrite (tx : Bool)
  | initRead
  | initWrite
  | clearFaulted
  | clearDeinit
  | clearInit
  | clearStandby
  | resetAsserted
  | resetDeinit
  | resetReleased
  | resetInit
  | forcePathOff
  | disableTxOutput
  -- what a register or an ADI object says
  | chEnabled
  | dirEnabled
  | dirOtherwiseEnabled
  | portMapped
  | rxPortValid
  | rfdcRequired
  | rxAdcPresent
  | digTuneSkipped
  | digTunePolicyValid
  | ifClockAlive
  | rfpllActive (tx : Bool)
  | sampleRateActive
  | bandwidthCommitted
  | bandwidthActive
  | firPairTerminal
  | gainTableTerminal
  | txMuted
  -- `ad9361_calibration_state_unknown` where it is read
  | unknownTxQuad
  | unknownResume
  | unknownNested
  | unknownComplete
  | unknownTxQuadResume
  | unknownRetune
deriving DecidableEq

/-- Everything the drivers answer during one turn of the worker. -/
structure Adi where
  status : AdiCall → Status
  test : AdiTest → Bool
  remove : RemoveResult
  removeInvalid : RemoveResult
  candidate : Option Phy

/-- Every call succeeds at once, and no calibration state is unknown. -/
def Adi.calm : Adi where
  status _ := .ok
  test
    | .unknownTxQuad => false
    | .unknownResume => false
    | .unknownNested => false
    | .unknownComplete => false
    | .unknownTxQuadResume => false
    | .unknownRetune => false
    | _ => true
  remove := .removed
  removeInvalid := .removed
  candidate := some ⟨true, true⟩

/-! ## The state -/

/-- `bladerf_rfic_init_state`. -/
inductive InitState where
  | off
  | on
  | standby
deriving DecidableEq

inductive InitTailPhase where
  | idle
  | resetLo
  | filter
  | sampleRate
  | finalLo
  | txGain
  | txMute
  | done
deriving DecidableEq

structure RficJobs where
  initJobPending : Bool
  firLoadJobPending : Bool
  firEnableJobPending : Bool
  sampleRateJobPending : Bool
  bandwidthJobPending : Bool
  rfpllJobPending : Bool
  rfdcJobPending : Bool
  txQuadJobPending : Bool
  txQuadRetuneOwner : Bool
  gainTableRetuneOwner : Bool
  firLoadInitPairResume : Bool
  firEnableInitPairResume : Bool
  firEnableResumeCommand : Bool
  sampleRateResumeCommand : Bool
  bandwidthResumeCommand : Bool
  frequencyRfpllResumeCommand : Bool
  rfdcResumeEnableCommand : Bool
  txQuadResumeCommand : Bool

namespace RficJobs

/-- After the `memset` of `rfic_command_init`. -/
def idle : RficJobs :=
  ⟨false, false, false, false, false, false, false, false, false, false,
    false, false, false, false, false, false, false, false⟩

/-- The test of `rfic_job_context_claim`. -/
def owned (j : RficJobs) : Bool :=
  j.initJobPending || j.firLoadJobPending || j.firEnableJobPending ||
    j.sampleRateJobPending || j.bandwidthJobPending || j.rfpllJobPending ||
    j.rfdcJobPending || j.txQuadJobPending || j.gainTableRetuneOwner

end RficJobs

structure InitTail where
  /-- `init_tail_pending` -/
  pending : Bool
  phase : InitTailPhase
  moduleIndex : ℕ
  channelIndex : ℕ
  restoreStandby : Bool
  nestedComplete : Bool
  nestedStatus : Status

/-- `_rfic_deinitialize` and the queue recovery leave the cursor like this. -/
def InitTail.idle : InitTail := ⟨false, .idle, 0, 0, false, false, .ok⟩

/-- `_rfic_init_tail_advance_module`. -/
def InitTail.advanceModule (t : InitTail) (restoreStandby : Bool) : InitTail :=
  if 2 ≤ t.moduleIndex + 1 then
    { t with
      moduleIndex := t.moduleIndex + 1
      channelIndex := 0
      phase := if restoreStandby then .txMute else .txGain }
  else
    { t with
      moduleIndex := t.moduleIndex + 1
      phase := .filter }

structure RficState where
  queue : RficQueue
  jobs : RficJobs
  tail : InitTail
  initState : InitState
  initJobStarted : Bool
  initJobStatus : Status
  phy : Option Phy
  calibrationFaulted : Bool
  frequencyInvalidRx : Bool
  frequencyInvalidTx : Bool
  gainTableDoubt : Bool
  txQuadCommitTxFrequency : Bool
  txQuadResumeChannel : BitVec 8
  rfdcCommitRxFrequency : Bool
  rfdcResumeEnableChannel : BitVec 8
  rfdcResumeEnableStatus : Status
  frequencyRfpllChannel : BitVec 8
  frequencyRfpllTarget : BitVec 64
  frequencyRfpllInitSequence : Bool
  frequencyRfpllStatus : Status
  firLoadChannel : BitVec 8
  firLoadFilter : ℕ
  firEnableChannel : BitVec 8
  firEnableFilter : ℕ

def channelIsTx (ch : BitVec 8) : Bool := ch.getLsbD 0

def rficSystemChannel : BitVec 8 := 0xf

def rficChanIsValid (ch : BitVec 8) : Bool :=
  ch = 0 ∨ ch = 1 ∨ ch = 2 ∨ ch = 3 ∨ ch = rficSystemChannel

namespace RficState

def commandInit : RficState :=
  { queue := .reset
    jobs := .idle
    tail := .idle
    initState := .off
    initJobStarted := false
    initJobStatus := .ok
    phy := none
    calibrationFaulted := false
    frequencyInvalidRx := true
    frequencyInvalidTx := true
    gainTableDoubt := false
    txQuadCommitTxFrequency := false
    txQuadResumeChannel := 0
    rfdcCommitRxFrequency := false
    rfdcResumeEnableChannel := 0
    rfdcResumeEnableStatus := .ok
    frequencyRfpllChannel := 0
    frequencyRfpllTarget := 0
    frequencyRfpllInitSequence := false
    frequencyRfpllStatus := .ok
    firLoadChannel := 0
    firLoadFilter := 0
    firEnableChannel := 0
    firEnableFilter := 0 }

def frequencyInvalid (s : RficState) (tx : Bool) : Bool :=
  if tx then s.frequencyInvalidTx else s.frequencyInvalidRx

def setFrequencyInvalid (s : RficState) (tx b : Bool) : RficState :=
  if tx then { s with frequencyInvalidTx := b } else { s with frequencyInvalidRx := b }

/-- `RFIC_ERR`, as far as it is not a debug print. -/
def recordError (s : RficState) (status : Status) : RficState :=
  { s with queue := s.queue.recordError status }

def recordCleanupError (s : RficState) (status : Status) : RficState :=
  { s with queue := s.queue.recordCleanupError status }

def isInitialized (s : RficState) : Bool := s.initState = .on

def frequencyPeerUnknown (s : RficState) (tx : Bool) : Bool :=
  match s.phy with
  | none => true
  | some phy => !phy.pdata || (phy.dependentFdd && s.frequencyInvalid (!tx))

/-- `rfic_force_rf_path_off`, with the cleanup error of its callers. -/
def forceRfPathOff (a : Adi) (s : RficState) : RficState :=
  if a.test .forcePathOff then s else s.recordCleanupError (.error .eio)

def failClosedAfterPathMutation (a : Adi) (s : RficState) : RficState :=
  ({ s with
    calibrationFaulted := true
    initState := .off
    frequencyInvalidRx := true
    frequencyInvalidTx := true }.recordError (.error .eio)).forceRfPathOff a

/-- `rfic_latch_calibration_fault`; `unknown` is what
`ad9361_calibration_state_unknown` says at this call. -/
def latchCalibrationFault (a : Adi) (s : RficState) (unknown : AdiTest) : RficState × Bool :=
  if s.phy.isNone ∨ !a.test unknown then (s, false)
  else
    ({ s with
      calibrationFaulted := true
      initState := .off }.forceRfPathOff a, true)

/-- `rfic_job_context_claim` followed by the start of a job. -/
def claimThen (s : RficState) (start : Status) : Status :=
  if s.jobs.owned then .error .ebusy else start

def failTxQuadCalibration (a : Adi) (s : RficState) (status : Status) : RficState :=
  let s := (s.recordError status).recordCleanupError (a.status .txQuadStartCleanup)
  let s :=
    { s with
      jobs.txQuadJobPending := false
      jobs.txQuadResumeCommand := false
      jobs.txQuadRetuneOwner := false
      txQuadCommitTxFrequency := false
      frequencyInvalidTx := true }
  if s.phy.isSome ∧ a.test .unknownTxQuad then (s.latchCalibrationFault a .unknownTxQuad).1
  else if a.test .disableTxOutput then s
  else (s.recordCleanupError (.error .eio)).recordError (.error .eio)

inductive TxQuadStart where
  | failed
  /-- the history already covers the present LO and port -/
  | unneeded
  | started
deriving DecidableEq

/-- The part that the three `rfic_start_tx_quad_calibration_for_*` share. -/
def startTxQuadCalibration (a : Adi) (s : RficState) : RficState × TxQuadStart :=
  if s.phy.isNone then (s.failTxQuadCalibration a (.error .eio), .failed)
  else
    let status := s.claimThen (a.status .txQuadStart)
    if status = .pending then (s, .unneeded)
    else if status.failed then (s.failTxQuadCalibration a status, .failed)
    else ({ s with jobs.txQuadJobPending := true }, .started)

/-- `rfic_start_tx_quad_calibration_for_frequency`. -/
def startTxQuadForFrequency (a : Adi) (s : RficState) : RficState × TxQuadStart :=
  let r := s.startTxQuadCalibration a
  if r.2 = .started then
    ({ r.1 with
      txQuadCommitTxFrequency := true
      jobs.txQuadResumeCommand := false
      jobs.txQuadRetuneOwner := false
      frequencyInvalidTx := true }, .started)
  else r

/-- `rfic_start_tx_quad_calibration_for_command`. -/
def startTxQuadForCommand (a : Adi) (s : RficState) : RficState × TxQuadStart :=
  let r := s.startTxQuadCalibration a
  if r.2 = .started then
    ({ r.1 with
      txQuadCommitTxFrequency := false
      jobs.txQuadResumeCommand := true
      jobs.txQuadRetuneOwner := false }, .started)
  else r

/-- `rfic_start_tx_quad_calibration_for_retune`. -/
def startTxQuadForRetune (a : Adi) (s : RficState) : RficState × TxQuadStart :=
  let r := s.startTxQuadCalibration a
  match r.2 with
  | .failed => r
  | .unneeded => ({ r.1 with frequencyInvalidTx := false }, .unneeded)
  | .started =>
      ({ r.1 with
        txQuadCommitTxFrequency := false
        jobs.txQuadResumeCommand := false
        jobs.txQuadRetuneOwner := true
        frequencyInvalidTx := true }, .started)

def ensureRxRfdcCalibrated (a : Adi) (s : RficState) : RficState × Bool :=
  if (a.status .getRxPort).failed then (s.recordError (a.status .getRxPort), false)
  else if !a.test .rxPortValid then (s.recordError (.error .einval), false)
  else if !a.test .rfdcRequired then (s, true)
  else
    let status := s.claimThen (a.status .rfdcStart)
    if status.failed then (s.recordError status, false)
    else ({ s with jobs.rfdcJobPending := true }, true)

/-! ## Admission of a write -/

/-- The write handlers of `struct rfic_command_fns`. -/
inductive WriteFn where
  | init
  | enable
  | samplerate
  | frequency
  | bandwidth
  | gainmode
  | gain
  | filter
  | txmute
  | fastlock
deriving DecidableEq

namespace WriteFn

/-- Registered as `write64`; the others are `write32`. -/
def wide (f : WriteFn) : Bool := f = .frequency

/-- `RFIC_CMD_INIT_REQD`. -/
def initReqd (f : WriteFn) : Bool := f ≠ .init

/-- `RFIC_CMD_CHAN_SYSTEM`. -/
def chanSystem (f : WriteFn) : Bool := f = .init

/-- `RFIC_CMD_CHAN_TX`. -/
def chanTx (f : WriteFn) : Bool := f ≠ .init ∧ f ≠ .gainmode

/-- `RFIC_CMD_CHAN_RX`. -/
def chanRx (f : WriteFn) : Bool := f ≠ .init ∧ f ≠ .txmute

end WriteFn

def bladerfRficCommandResultAck : BitVec 8 := 0x0e
def bladerfRficCommandInit : BitVec 8 := 0x01

/-- The entries of `funcs` that have a write handler, as `_get_cmd_ptr` finds
them. -/
def getCmdPtr (cmd : BitVec 8) : Option WriteFn :=
  if cmd = bladerfRficCommandInit then some .init
  else if cmd = 0x02 then some .enable
  else if cmd = 0x03 then some .samplerate
  else if cmd = 0x04 then some .frequency
  else if cmd = 0x05 then some .bandwidth
  else if cmd = 0x06 then some .gainmode
  else if cmd = 0x07 then some .gain
  else if cmd = 0x09 then some .filter
  else if cmd = 0x0a then some .txmute
  else if cmd = 0x0b then some .fastlock
  else none

def checkValidity (s : RficState) (f : WriteFn) (ch : BitVec 8) : Bool :=
  if !rficChanIsValid ch then false
  else if ch = rficSystemChannel then f.chanSystem && (s.isInitialized || !f.initReqd)
  else if !s.isInitialized && f.initReqd then false
  else if channelIsTx ch then f.chanTx
  else f.chanRx

/-- `rfic_calibration_command_allowed`. -/
def commandAllowed (s : RficState) (cmd : BitVec 8) : Bool :=
  !s.calibrationFaulted || cmd = bladerfRficCommandInit

/-- `enum bladerf_rfic_write_admission`. -/
inductive WriteAdmission where
  | accepted
  | rejected
  | queueFull
deriving DecidableEq

def addressFieldsValid (addr : BitVec 16) : Bool := addr &&& 0xf0f0 = 0

def unpackChan (addr : BitVec 16) : BitVec 8 := ((addr >>> 8) &&& 0xf).setWidth 8

def unpackCmd (addr : BitVec 16) : BitVec 8 := (addr &&& 0xf).setWidth 8

/-- The end of `rfic_command_write_admit`: the command is queued. -/
def enqueueWrite (s : RficState) (ch cmd : BitVec 8) (data : BitVec 64) (id : BitVec 16) :
    RficState × WriteAdmission :=
  match getCmdPtr cmd with
  | none => (s, .rejected)
  | some f =>
      if !s.checkValidity f ch then (s, .rejected)
      else match s.queue.enqueue ch cmd data id with
        | none => (s, .queueFull)
        | some q => ({ s with queue := q.afterEnqueue id }, .accepted)

def commandWriteAdmit (s : RficState) (addr : BitVec 16) (data : BitVec 64) (id : BitVec 16) :
    RficState × WriteAdmission :=
  let cmd := unpackCmd addr
  let ch := unpackChan addr
  if !addressFieldsValid addr then (s, .rejected)
  else if cmd = bladerfRficCommandResultAck then
    if data >>> 32 ≠ 0 ∨ id = 0 then (s, .rejected)
    else
      let r := s.queue.ackResult id (data.setWidth 32)
      ({ s with queue := r.1 }, if r.2 then .accepted else .rejected)
  else if !s.commandAllowed cmd then (s, .rejected)
  else if id = 0 ∧ s.queue.taggedProtocolEnabled then (s, .rejected)
  else match s.queue.findTransaction id ch cmd data with
    | some same => (s, if same then .accepted else .rejected)
    | none =>
        if id ≠ 0 ∧ !s.queue.taggedWriteAllowed then (s, .queueFull)
        else s.enqueueWrite ch cmd data id

/-! ## Who owns the part -/

/-- `rfic_scheduler_calibration_pending` over the flags of the state. -/
def calibrationPending (s : RficState) : Bool :=
  s.jobs.rfdcJobPending || s.jobs.txQuadJobPending || s.jobs.sampleRateJobPending ||
    s.jobs.bandwidthJobPending || s.jobs.initJobPending || s.tail.pending ||
    s.jobs.rfpllJobPending || s.jobs.firEnableJobPending

/-- The queue head is `ENTRY_STATE_RUNNING`. -/
def headRunning (s : RficState) : Bool :=
  match s.queue.peek with
  | some e => e.state = .running
  | none => false

/-- `rfic_command_owns_device`; `external` is a fastlock load or recall. -/
def ownsDevice (s : RficState) (external : Bool) : Bool :=
  s.headRunning || s.calibrationPending || external

def txQuadRetuneOwner (s : RficState) : Bool :=
  s.jobs.txQuadJobPending && s.jobs.txQuadRetuneOwner

end RficState
end BladeRF
