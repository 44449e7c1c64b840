/-
# `Nios.RficCommands` — the write handlers of the RFIC commands

Each handler is entered from the top on every turn of its command, and returns
true either because it is done or because it has left a job pending.  It finds
its own continuation by a resume flag.  `_rfic_initialize` is the long one: a
retained constructor, then a tail that walks the modules and channels one step
a turn.
-/
import BladeRF.Nios.RficState

namespace BladeRF

local instance twoOfEach : NeZero 2 := ⟨by decide⟩

namespace RficState

/-- `CHECK_BOOL`: a failed call is recorded and ends the handler. -/
def check (s : RficState) (status : Status) : RficState × Bool :=
  if status.failed then (s.recordError status, false) else (s, true)

def checkTrue (s : RficState) (ok : Bool) : RficState × Bool :=
  if ok then (s, true) else (s.recordError (.error .eio), false)

/-! ## ENABLE -/

def enableCommit (a : Adi) (s : RficState) (commit : AdiTest) : RficState × Bool :=
  if a.test commit then (s, true) else (s.failClosedAfterPathMutation a, false)

def enableTxQuad (a : Adi) (s : RficState) (ch : BitVec 8) (enable : Bool) : RficState × Bool :=
  if enable ∧ channelIsTx ch then
    let r := s.startTxQuadForCommand a
    match r.2 with
    | .failed => (r.1.failClosedAfterPathMutation a, false)
    | .started => ({ r.1 with txQuadResumeChannel := ch }, true)
    | .unneeded => r.1.enableCommit a .enableCommit
  else s.enableCommit a .enableCommit

def enableDirection (a : Adi) (s : RficState) (ch : BitVec 8) (enable : Bool) :
    RficState × Bool :=
  if !a.test .portMapped then (s.recordError (.error .erange), false)
  else if (a.status .setRfPort).failed then (s.failClosedAfterPathMutation a, false)
  else if !channelIsTx ch ∧ enable then
    let r := s.ensureRxRfdcCalibrated a
    if !r.2 then (r.1.failClosedAfterPathMutation a, false)
    else if r.1.jobs.rfdcJobPending then
      -- the commit waits for the calibration of the new input
      ({ r.1 with
        rfdcCommitRxFrequency := false
        jobs.rfdcResumeEnableCommand := true
        rfdcResumeEnableChannel := ch
        rfdcResumeEnableStatus := .pending }, true)
    else r.1.enableTxQuad a ch enable
  else s.enableTxQuad a ch enable

def cmdWrEnable (a : Adi) (s : RficState) (ch : BitVec 8) (value : BitVec 64) :
    RficState × Bool :=
  let enable : Bool := value ≠ 0
  if s.jobs.rfdcResumeEnableCommand then
    let allowed := s.rfdcResumeEnableStatus = .ok ∧ s.rfdcResumeEnableChannel = ch ∧ enable ∧
      s.phy.isSome ∧ !a.test .unknownResume
    let s :=
      { s with
        jobs.rfdcResumeEnableCommand := false
        rfdcResumeEnableStatus := .ok }
    if allowed then s.enableCommit a .enableResumeCommit
    else (s.failClosedAfterPathMutation a, false)
  else if s.jobs.txQuadResumeCommand then
    let matching := s.txQuadResumeChannel = ch ∧ enable
    let s := { s with jobs.txQuadResumeCommand := false }
    if matching then s.enableCommit a .enableResumeCommit
    else (s.failClosedAfterPathMutation a, false)
  else if !a.test .enableRead then (s.recordError (.error .eio), false)
  else
    let dirEnable := enable || a.test .dirOtherwiseEnabled
    let chPending := a.test .chEnabled != enable
    let dirPending := a.test .dirEnabled != dirEnable
    if !chPending ∧ !dirPending then (s, true)
    else if enable ∧ (a.status .getLoFreq).failed then
      (s.recordError (a.status .getLoFreq), false)
    else if chPending ∧ (a.status (.modifySpdt 0)).failed then
      (s.recordError (a.status (.modifySpdt 0)), false)
    else if dirPending then
      if !dirEnable ∧ (a.status (.modifySpdt 1)).failed then
        (s.recordError (a.status (.modifySpdt 1)), false)
      else s.enableDirection a ch enable
    else s.enableTxQuad a ch enable

/-! ## SAMPLERATE and BANDWIDTH -/

/-- The end of `_rfic_cmd_wr_samplerate`, after the transaction. -/
def samplerateCommit (a : Adi) (s : RficState) (ch : BitVec 8) : RficState × Bool :=
  if channelIsTx ch then (s, true)
  else if a.test .rxAdcPresent then
    (s.recordCleanupError (a.status .digTuneCleanup)).check (a.status .digTune)
  else if a.test .digTuneSkipped then (s, true)
  else (s.recordError (.error .enotsup), false)

def cmdWrSamplerate (a : Adi) (s : RficState) (ch : BitVec 8) : RficState × Bool :=
  if s.jobs.sampleRateResumeCommand then
    { s with jobs.sampleRateResumeCommand := false }.samplerateCommit a ch
  else
    let status := s.claimThen (a.status .sampleRateStart)
    if status.failed then (s.recordError status, false)
    else if a.test .sampleRateActive then ({ s with jobs.sampleRateJobPending := true }, true)
    else s.samplerateCommit a ch

def cmdWrBandwidth (a : Adi) (s : RficState) : RficState × Bool :=
  if s.jobs.bandwidthResumeCommand then
    ({ s with jobs.bandwidthResumeCommand := false }, true)
  else if a.test .bandwidthCommitted then (s, true)
  else
    let status := s.claimThen (a.status .bandwidthStart)
    if status.failed then (s.recordError status, false)
    else if a.test .bandwidthActive then ({ s with jobs.bandwidthJobPending := true }, true)
    else (s, true)

/-! ## FREQUENCY -/

def frequencyLoProgrammed (a : Adi) (s : RficState) (ch : BitVec 8) : RficState × Bool :=
  if channelIsTx ch then
    let r := s.startTxQuadForFrequency a
    match r.2 with
    | .failed => (r.1.recordError (.error .eio), false)
    | .started => (r.1, true)
    | .unneeded => (r.1.setFrequencyInvalid true false, true)
  else
    let r := s.ensureRxRfdcCalibrated a
    if !r.2 then (r.1.recordError (.error .eio), false)
    else if r.1.jobs.rfdcJobPending then ({ r.1 with rfdcCommitRxFrequency := true }, true)
    else (r.1.setFrequencyInvalid false false, true)

def frequencyStart (a : Adi) (s : RficState) (ch : BitVec 8) (frequency : BitVec 64)
    (initSequence : Bool) : RficState × Bool :=
  let tx := channelIsTx ch
  let started := s.claimThen (a.status (.rfpllStart tx))
  let status := if started = .error .enotsup then a.status (.setLoFreq tx) else started
  if status.failed then ((s.recordError status).failClosedAfterPathMutation a, false)
  else if a.test (.rfpllActive tx) then
    ({ s with
      jobs.rfpllJobPending := true
      frequencyRfpllChannel := ch
      frequencyRfpllTarget := frequency
      frequencyRfpllInitSequence := initSequence
      frequencyRfpllStatus := .ok }, true)
  else s.frequencyLoProgrammed a ch

def cmdWrFrequencyInternal (a : Adi) (s : RficState) (ch : BitVec 8) (frequency : BitVec 64)
    (initSequence : Bool) : RficState × Bool :=
  let tx := channelIsTx ch
  if !initSequence ∧ s.frequencyPeerUnknown tx then (s.recordError (.error .einval), false)
  else
    let s := s.setFrequencyInvalid tx true
    if s.jobs.frequencyRfpllResumeCommand then
      let matching := s.frequencyRfpllChannel = ch ∧ s.frequencyRfpllTarget = frequency ∧
        s.frequencyRfpllInitSequence = initSequence
      let status := s.frequencyRfpllStatus
      let s := { s with jobs.frequencyRfpllResumeCommand := false }
      if ¬matching then (s.recordError (.error .einval), false)
      else if status.failed then ((s.recordError status).failClosedAfterPathMutation a, false)
      else s.frequencyLoProgrammed a ch
    else if (a.status (.fastlockExitForeign tx)).failed then
      (s.recordError (a.status (.fastlockExitForeign tx)), false)
    else if !a.test (.frequencyRead tx) then (s.recordError (.error .eio), false)
    else if (a.status (.frequencySpdt tx 0)).failed then
      (s.recordError (a.status (.frequencySpdt tx 0)), false)
    else if (a.status (.frequencySpdt tx 1)).failed then
      (s.recordError (a.status (.frequencySpdt tx 1)), false)
    else if !a.test (.frequencyWrite tx) then (s.recordError (.error .eio), false)
    else if (a.status (.frequencyPort tx)).failed then
      (s.recordError (a.status (.frequencyPort tx)), false)
    else s.frequencyStart a ch frequency initSequence

def cmdWrFrequency (a : Adi) (s : RficState) (ch : BitVec 8) (frequency : BitVec 64) :
    RficState × Bool :=
  s.cmdWrFrequencyInternal a ch frequency false

/-! ## FILTER -/

def bladerfRficRxfirDefault : ℕ := 2
def bladerfRficTxfirDefault : ℕ := 0

/-- `BLADERF_RFIC_RXFIR_DEC4` and `BLADERF_RFIC_TXFIR_INT4`, the last settings. -/
def bladerfRficFirLast : ℕ := 4

def startInitFirPair (a : Adi) (s : RficState) (ch : BitVec 8) (filter : ℕ) :
    RficState × Bool :=
  let status := s.claimThen (a.status .firPairStart)
  if status.failed then
    ((s.recordCleanupError (a.status .jobCleanup)).recordError status, false)
  else if status = .ok ∧ a.test .firPairTerminal then (s, true)
  else
    ({ s with
      jobs.firEnableJobPending := true
      jobs.firEnableInitPairResume := false
      firEnableChannel := ch
      firEnableFilter := filter }, true)

/-- The part of `_rfic_cmd_wr_filter_internal` behind its continuations. -/
def filterStart (a : Adi) (s : RficState) (ch : BitVec 8) (filter : ℕ) (initPair : Bool) :
    RficState × Bool :=
  if bladerfRficFirLast < filter then (s.recordError (.error .einval), false)
  else if initPair then
    -- this start does not claim the job context
    if (a.status .firLoadStart).failed then (s.recordError (a.status .firLoadStart), false)
    else
      ({ s with
        jobs.firLoadJobPending := true
        firLoadChannel := ch
        firLoadFilter := filter }, true)
  else
    let s := s.recordCleanupError (a.status .firConfigCleanup)
    let config := if (a.status .firConfig).failed then a.status .firConfig
      else a.status .firConfigCleanup
    if config.failed then (s.recordError config, false)
    else
      let status := s.claimThen (a.status .firEnableStart)
      if status.failed then
        ((s.recordCleanupError (a.status .jobCleanup)).recordError status, false)
      else
        ({ s with
          jobs.firEnableJobPending := true
          firEnableChannel := ch
          firEnableFilter := filter }, true)

/-- `_rfic_cmd_wr_filter_internal`; the TX and the RX half differ in the
driver call and the cache they name. -/
def cmdWrFilterInternal (a : Adi) (s : RficState) (ch : BitVec 8) (filter : ℕ)
    (initPair : Bool) : RficState × Bool :=
  if initPair ∧ s.jobs.firLoadInitPairResume then
    let matching := s.firLoadChannel = ch ∧ s.firLoadFilter = filter
    let s := { s with jobs.firLoadInitPairResume := false }
    if ¬matching then (s.recordError (.error .eio), false)
    else if s.tail.moduleIndex + 1 < 2 then (s, true)
    else s.startInitFirPair a ch filter
  else if s.jobs.firEnableInitPairResume then
    let matching := initPair ∧ s.firEnableChannel = ch ∧ s.firEnableFilter = filter
    let s := { s with jobs.firEnableInitPairResume := false }
    if ¬matching then (s.recordError (.error .eio), false) else (s, true)
  else if s.jobs.firEnableResumeCommand then
    let matching := s.firEnableChannel = ch ∧ s.firEnableFilter = filter
    let s := { s with jobs.firEnableResumeCommand := false }
    if ¬matching then (s.recordError (.error .eio), false) else (s, true)
  else s.filterStart a ch filter initPair

def cmdWrFilter (a : Adi) (s : RficState) (ch : BitVec 8) (filter : ℕ) : RficState × Bool :=
  s.cmdWrFilterInternal a ch filter false

def cmdWrFilterInitPair (a : Adi) (s : RficState) (ch : BitVec 8) (filter : ℕ) :
    RficState × Bool :=
  s.cmdWrFilterInternal a ch filter true

/-! ## The commands without a continuation -/

def cmdWrGainmode (a : Adi) (s : RficState) (ch : BitVec 8) (gainmode : BitVec 64) :
    RficState × Bool :=
  if 4 < gainmode.toNat ∨ (gainmode = 0 ∧ ch ≠ 0 ∧ ch ≠ 2) then
    (s.recordError (.error .einval), false)
  else s.check (a.status .setGainMode)

def cmdWrGain (a : Adi) (s : RficState) (ch : BitVec 8) : RficState × Bool :=
  if !channelIsTx ch then s.check (a.status .setGain)
  else if (a.status (.txmuteGet 0)).failed then (s.recordError (a.status (.txmuteGet 0)), false)
  else if a.test .txMuted then s.check (a.status .txmuteSetCached)
  else s.check (a.status .setGain)

def cmdWrTxmute (a : Adi) (s : RficState) : RficState × Bool := s.check (a.status (.txmuteSet 0))

def cmdWrFastlock (a : Adi) (s : RficState) : RficState × Bool := s.check (a.status .fastlockStore)

/-! ## INIT -/

def retireContinuations (s : RficState) : RficState :=
  { s with
    tail := .idle
    initJobStarted := false
    initJobStatus := .ok
    frequencyRfpllStatus := .ok
    jobs :=
      { s.jobs with
        initJobPending := false
        rfpllJobPending := false
        frequencyRfpllResumeCommand := false
        sampleRateJobPending := false
        sampleRateResumeCommand := false
        bandwidthJobPending := false
        bandwidthResumeCommand := false
        rfdcJobPending := false
        txQuadJobPending := false
        txQuadRetuneOwner := false
        txQuadResumeCommand := false
        firEnableJobPending := false
        firEnableResumeCommand := false
        firEnableInitPairResume := false
        firLoadJobPending := false
        firLoadInitPairResume := false } }

def failClosedUnless (a : Adi) (s : RficState) (rffeCleared : Bool) : RficState :=
  if rffeCleared then s else s.failClosedAfterPathMutation a

/-- `report_cleanup_errors`. -/
def reportCleanupError (s : RficState) (report : Bool) (status : Status) : RficState :=
  if report then s.recordCleanupError status else s

/-- The end of `_rfic_deinitialize`, after the removal of the PHY. -/
def deinitializeEnd (a : Adi) (s : RficState) (rffeCleared : Bool) : RficState × Bool :=
  let s := s.failClosedUnless a rffeCleared
  (if s.phy.isNone then s.retireContinuations else s, rffeCleared)

/-- A failed `ad9361_remove_ex` in `_rfic_deinitialize`. -/
def removeFailed (a : Adi) (s : RficState) (e : Errno) (consumed rffeCleared report : Bool) :
    RficState :=
  let s :=
    { s with
      phy := if consumed then none else s.phy
      calibrationFaulted := true }
  ((s.reportCleanupError report (.error e)).recordError (.error e)).failClosedUnless a rffeCleared

/-- `_rfic_deinitialize`. -/
def deinitializeRfic (a : Adi) (s : RficState) (boardResetAsserted reportCleanupErrors : Bool) :
    RficState × Bool :=
  let rffeCleared := a.test .clearDeinit
  let s :=
    { s with
      frequencyInvalidRx := true
      frequencyInvalidTx := true }.reportCleanupError (!rffeCleared && reportCleanupErrors)
        (.error .eio)
  if boardResetAsserted ∧ !a.test .resetDeinit then (s.recordError (.error .eio), false)
  else
    let s := { s with initState := .off }
    if s.phy.isNone then s.deinitializeEnd a rffeCleared
    else match a.remove with
      | .removed => { s with phy := none }.deinitializeEnd a rffeCleared
      | .failed e consumed => (s.removeFailed a e consumed rffeCleared reportCleanupErrors, false)

/-- What `bladerf2_rfic_init_params` asks for. -/
structure InitParams where
  txSynthesizerFrequencyHz : BitVec 64
  rxSynthesizerFrequencyHz : BitVec 64

/-- The values of `bladerf2_rfic_init_params`. -/
def bladerf2RficInitParams : InitParams := ⟨2400000000, 2400000000⟩

/-- `CHANNEL_IDX(dir, 0)` of the module the tail stands at. -/
def tailChannel (s : RficState) : BitVec 8 := if s.tail.moduleIndex = 1 then 1 else 0

/-- A tail step ends with `init_tail_pending`. -/
def tailYield (s : RficState) : RficState × Bool := ({ s with tail.pending := true }, true)

def initTailFilter (a : Adi) (s : RficState) (restoreStandby : Bool) : RficState × Bool :=
  let filter := if s.tail.moduleIndex = 1 then bladerfRficTxfirDefault else bladerfRficRxfirDefault
  let r := s.cmdWrFilterInitPair a s.tailChannel filter
  if !r.2 then (r.1, false)
  else if r.1.jobs.firLoadJobPending ∨ r.1.jobs.firEnableJobPending then r.1.tailYield
  else if r.1.tail.moduleIndex + 1 < 2 then
    { r.1 with tail := r.1.tail.advanceModule restoreStandby }.tailYield
  else { r.1 with tail.phase := .sampleRate }.tailYield

def initTailSampleRate (a : Adi) (s : RficState) : RficState × Bool :=
  let r := s.cmdWrSamplerate a s.tailChannel
  if !r.2 then (r.1, false)
  else if r.1.jobs.sampleRateJobPending then r.1.tailYield
  else { r.1 with tail.phase := .finalLo }.tailYield

def initTailFinalLo (a : Adi) (s : RficState) (restoreStandby : Bool) : RficState × Bool :=
  let target := if s.tail.moduleIndex = 1 then bladerf2RficInitParams.txSynthesizerFrequencyHz
    else bladerf2RficInitParams.rxSynthesizerFrequencyHz
  let r := { s with tail.nestedStatus := .ok }.cmdWrFrequencyInternal a s.tailChannel target true
  if !r.2 then (r.1, false)
  else if r.1.jobs.rfpllJobPending ∨ r.1.jobs.rfdcJobPending ∨ r.1.jobs.txQuadJobPending then
    r.1.tailYield
  else { r.1 with tail := r.1.tail.advanceModule restoreStandby }.tailYield

/-- The last lines of `_rfic_initialize`. -/
def initFinish (s : RficState) : RficState × Bool :=
  ({ s with
    initState := .on
    initJobStarted := false
    jobs.initJobPending := false
    initJobStatus := .ok
    tail :=
      { s.tail with
        phase := .idle
        pending := false
        nestedComplete := false } }, true)

def initTailTxMute (a : Adi) (s : RficState) (restoreStandby : Bool) : RficState × Bool :=
  let site := if s.tail.channelIndex = 0 then AdiCall.txmuteSet 0 else .txmuteSet 1
  if (a.status site).failed then (s.recordError (a.status site), false)
  else
    let phase := if 2 ≤ s.tail.channelIndex + 1 then .done
      else if restoreStandby then s.tail.phase else .txGain
    { s with
      tail.channelIndex := s.tail.channelIndex + 1
      tail.phase := phase }.tailYield

/-- The two switches over `init_tail_phase`. -/
def initTailStep (a : Adi) (s : RficState) (restoreStandby : Bool) : RficState × Bool :=
  match s.tail.phase with
  | .filter => s.initTailFilter a restoreStandby
  | .sampleRate => s.initTailSampleRate a
  | .finalLo => s.initTailFinalLo a restoreStandby
  | .txGain =>
      if (a.status .txmuteSetCached).failed then
        (s.recordError (a.status .txmuteSetCached), false)
      else { s with tail.phase := .txMute }.tailYield
  | .txMute => s.initTailTxMute a restoreStandby
  | .done => { s with tail.pending := false }.initFinish
  | .idle => (s.recordError (.error .eio), false)
  | .resetLo => (s.recordError (.error .eio), false)

/-- From the retained constructor's success to the end of `_rfic_initialize`. -/
def initializeReady (a : Adi) (s : RficState) (restoreStandby : Bool) : RficState × Bool :=
  match s.phy with
  | none => (s.recordError (.error .eio), false)
  | some phy =>
      if !phy.pdata then
        let s := s.recordError (.error .eio)
        match a.removeInvalid with
        | .removed => ({ s with phy := none }, false)
        | .failed e consumed =>
            ({ s with phy := if consumed then none else s.phy }.recordCleanupError (.error e), false)
      else
        let s := if s.tail.phase = .idle then
            { s with tail :=
              { s.tail with
                restoreStandby := restoreStandby
                moduleIndex := 0
                channelIndex := 0
                nestedComplete := false
                nestedStatus := .ok
                phase := if restoreStandby then .txMute else .filter } }
          else s
        let s := { s with tail.pending := false }
        if s.tail.nestedComplete then
          let s := { s with tail.nestedComplete := false }
          if s.tail.nestedStatus.failed then (s, false)
          else if s.tail.phase = .finalLo then
            { s with tail := s.tail.advanceModule restoreStandby }.initTailStep a
              restoreStandby
          else (s.recordError (.error .eio), false)
        else s.initTailStep a restoreStandby

def initializeStart (a : Adi) (s : RficState) : RficState × Bool :=
  let s := { s with initState := .off }
  if !a.test .resetInit then (s.recordError (.error .eio), false)
  else if !a.test .initRead then (s.recordError (.error .eio), false)
  else if !a.test .initWrite then (s.recordError (.error .eio), false)
  else if !a.test .ifClockAlive then (s.recordError (.error .etimedout), false)
  else if (a.status .initStart).failed then
    ({ s with phy := a.candidate }.recordError (a.status .initStart), false)
  else
    ({ s with
      initJobStarted := true
      jobs.initJobPending := true
      initJobStatus := .ok }, true)

def rficInitialize (a : Adi) (s : RficState) : RficState × Bool :=
  let resume := s.initJobStarted ∧ !s.jobs.initJobPending ∧ s.initJobStatus = .ok ∧ s.phy.isSome
  let restoreStandby := if s.tail.phase ≠ .idle then s.tail.restoreStandby
    else s.initState = .standby ∧ s.phy.isSome
  if s.initJobStarted ∧ !s.jobs.initJobPending ∧ s.initJobStatus.failed then
    (({ s with calibrationFaulted := true }.recordCleanupError (a.status .initCleanup)).recordError
      s.initJobStatus, false)
  else if resume then s.initializeReady a restoreStandby
  else if s.initJobStarted then (s.recordError (.error .eio), false)
  else
    let s := { s with initState := .off }
    if s.phy.isNone ∧ !a.test .digTunePolicyValid then (s.recordError (.error .einval), false)
    else
      let s := if restoreStandby then s else
        { s with
          frequencyInvalidRx := true
          frequencyInvalidTx := true }
      if !a.test .clearInit then (s.failClosedAfterPathMutation a, false)
      else if s.phy.isNone then s.initializeStart a
      else s.initializeReady a restoreStandby

/-- The frequency restores of `_rfic_standby`. -/
def standbyFrequency (a : Adi) (s : RficState) (tx : Bool) : RficState × Bool :=
  if s.frequencyInvalid tx then
    let r := s.cmdWrFrequency a (if tx then 1 else 0)
      (if tx then bladerf2RficInitParams.txSynthesizerFrequencyHz
        else bladerf2RficInitParams.rxSynthesizerFrequencyHz)
    r.1.checkTrue r.2
  else (s, true)

def rficStandby (a : Adi) (s : RficState) : RficState × Bool :=
  if s.phy.isNone then s.deinitializeRfic a false false
  else
    let s := { s with initState := .off }
    if !a.test .clearStandby then (s.failClosedAfterPathMutation a, false)
    else if (a.status (.txmuteGet 0)).failed then
      (s.recordError (a.status (.txmuteGet 0)), false)
    else if (a.status (.txmuteSet 0)).failed then
      (s.recordError (a.status (.txmuteSet 0)), false)
    else if (a.status (.txmuteGet 1)).failed then
      (s.recordError (a.status (.txmuteGet 1)), false)
    else if (a.status (.txmuteSet 1)).failed then
      (s.recordError (a.status (.txmuteSet 1)), false)
    else
      let tx := s.standbyFrequency a true
      if !tx.2 then (tx.1, false)
      else
        let rx := tx.1.standbyFrequency a false
        if !rx.2 then (rx.1, false) else ({ rx.1 with initState := .standby }, true)

/-- The board reset of a faulted context, up to the release of RESETB. -/
def faultedReset (a : Adi) (s : RficState) : RficState × Bool :=
  if !a.test .clearFaulted ∨ !a.test .resetAsserted then (s.recordError (.error .eio), false)
  else
    let r := s.deinitializeRfic a true false
    if !r.2 then (r.1, false) else r.1.checkTrue (a.test .resetReleased)

def initOn (a : Adi) (s : RficState) : RficState × Bool :=
  let r := s.rficInitialize a
  if r.2 then ({ r.1 with calibrationFaulted := false }, true)
  else (({ r.1 with calibrationFaulted := true }.deinitializeRfic a false true).1, false)

def cmdWrInit (a : Adi) (s : RficState) (value : BitVec 64) : RficState × Bool :=
  if value = 0 then
    if s.calibrationFaulted then
      let r := s.faultedReset a
      if !r.2 then (r.1, false) else ({ r.1 with calibrationFaulted := false }, true)
    else s.deinitializeRfic a false false
  else if value = 1 then
    if s.initState = .on then (s, true)
    else if s.calibrationFaulted then
      let r := s.faultedReset a
      if !r.2 then (r.1, false) else r.1.initOn a
    else s.initOn a
  else if value = 2 then
    if s.initState = .standby then (s, true) else s.rficStandby a
  else (s.recordError (.error .einval), false)

def callback (a : Adi) (s : RficState) (f : WriteFn) (ch : BitVec 8) (value : BitVec 64) :
    RficState × Bool :=
  match f with
  | .init => s.cmdWrInit a value
  | .enable => s.cmdWrEnable a ch value
  | .samplerate => s.cmdWrSamplerate a ch
  | .frequency => s.cmdWrFrequency a ch value
  | .bandwidth => s.cmdWrBandwidth a
  | .gainmode => s.cmdWrGainmode a ch value
  | .gain => s.cmdWrGain a ch
  | .filter => s.cmdWrFilter a ch value.toNat
  | .txmute => s.cmdWrTxmute a
  | .fastlock => s.cmdWrFastlock a

end RficState

abbrev firstChannel : Fin 2 := 0

abbrev secondChannel : Fin 2 := 1

end BladeRF
