/-
# `Board.TxAdmission` — the TX admission state of the board

Whether a sample buffer may go to USB is decided under `rx_async_epoch_lock`
from a dozen flags.  USB callbacks, the fault monitor, the TX setters and the
recovery coordinator write them, each in a critical section of its own; a
definition here is one such section.  The event history is appended inside
the same section, so its TX events are kept in the state in that order.
-/
import Mathlib.Data.BitVec

namespace BladeRF

/-! ## Events -/

/-- The codes of the RETCODES list that the board and its callers tell apart. -/
inductive RetCode
  | ok
  | unexpected
  | inval
  | mem
  | io
  | timeout
  | noDev
  | unsupported
  | checksum
  | wouldBlock
  | notInit
  | fpgaOp
  | aborted
  | queueFull
  deriving DecidableEq

/-- `bladerf_rf_state`, as far as TX events use it. -/
inductive TxRfState
  | idle
  | error
  deriving DecidableEq

/-- The TX members of `bladerf_rf_event_type`. -/
inductive TxEventType
  | linkValid
  | underrun
  | linkFault
  | statusUnavailable
  | streamStopped
  | counterReset
  | statusRecovered
  | epochInvalid
  | transportError
  | rficStateValid
  | rficStateInvalid
  | retuneFailed
  | retunePending
  | retuneApplied
  | retuneCompletionLost
  | retuneValid
  | frequencyInvalid
  | configurationInvalid
  | faultFlushComplete
  deriving DecidableEq

namespace TxEventType

def positive : TxEventType → Bool
  | .rficStateValid | .statusRecovered | .retuneValid => true
  | _ => false

def negative : TxEventType → Bool
  | .underrun | .linkFault | .statusUnavailable | .streamStopped | .counterReset
  | .epochInvalid | .transportError | .rficStateInvalid | .retuneFailed
  | .retuneCompletionLost | .frequencyInvalid | .configurationInvalid => true
  | _ => false

/-- The types that `bladerf2_tx_stream_event` lets through. -/
def isStream : TxEventType → Bool
  | .linkValid | .underrun | .linkFault | .statusUnavailable | .streamStopped
  | .counterReset | .statusRecovered | .epochInvalid | .transportError
  | .rficStateValid | .rficStateInvalid | .configurationInvalid | .retuneFailed => true
  | _ => false

/-- The types that `bladerf2_tx_retune_event` lets through. -/
def isRetune : TxEventType → Bool
  | .retunePending | .retuneApplied | .retuneCompletionLost | .retuneValid
  | .frequencyInvalid => true
  | _ => false

end TxEventType

/-- `struct bladerf_rf_event`, as far as TX events fill it. -/
structure TxEvent where
  hostMonotonicNs : ℕ
  fpgaTimestamp : ℕ
  eventType : TxEventType
  epochId : BitVec 8
  fpgaState : TxRfState
  rficStatus : BitVec 32
  flags : BitVec 32
  requestedHz : ℕ
  readbackHz : ℕ
  errorCode : RetCode
  deriving DecidableEq

def TxEvent.ofType (now : ℕ) (type : TxEventType) : TxEvent :=
  { hostMonotonicNs := now
    fpgaTimestamp := 0
    eventType := type
    epochId := 0
    fpgaState := .idle
    rficStatus := 0
    flags := 0
    requestedHz := 0
    readbackHz := 0
    errorCode := .ok }

/-- `error_code == 0 ? BLADERF_RF_STATE_IDLE : BLADERF_RF_STATE_ERROR`. -/
def rfStateOf (err : RetCode) : TxRfState := if err = .ok then .idle else .error

/-- `(uint8_t)(link_status >> 20)`. -/
def linkEpochOf (linkStatus : BitVec 32) : BitVec 8 := (linkStatus >>> 20).setWidth 8

def rfLinkEpochId (linkStatus : BitVec 32) (fallback : BitVec 8) : BitVec 8 :=
  if linkStatus &&& 0xf0000000 = 0x20000000 then linkEpochOf linkStatus else fallback

/-! ## The state -/

/-- The TX part of `struct bladerf2_board_data` behind `rx_async_epoch_lock`. -/
structure TxAdmission where
  asyncAdmissionGeneration : ℕ
  asyncTransportFaulted : Bool
  asyncTransportFailureGeneration : ℕ
  streamFaultedAsync : Bool
  asyncLinkCertified : Bool
  asyncRficStateCertified : Bool
  asyncLinkEpochId : BitVec 8
  asyncSubmitLeases : ℕ
  asyncFaultFlushRequired : Bool
  asyncFaultFlushGeneration : ℕ
  gateAbortPending : Bool
  gateAbortFailureReported : Bool
  retune2PendingCount : ℕ
  retune2CompletionFaulted : Bool
  retune2AppliedWaitingRfValid : Bool
  retuneGateReleaseRequested : Bool
  retuneRecoveryPending : Bool
  firstDataAdmitted : Bool
  rfConfigurationInvalidReported : Bool
  referenceClockKnown : Bool
  frequencyModelKnown : Bool
  events : List TxEvent

namespace TxAdmission

variable (s : TxAdmission)

def closed : TxAdmission :=
  { asyncAdmissionGeneration := 0
    asyncTransportFaulted := false
    asyncTransportFailureGeneration := 0
    streamFaultedAsync := false
    asyncLinkCertified := false
    asyncRficStateCertified := false
    asyncLinkEpochId := 0
    asyncSubmitLeases := 0
    asyncFaultFlushRequired := false
    asyncFaultFlushGeneration := 0
    gateAbortPending := false
    gateAbortFailureReported := false
    retune2PendingCount := 0
    retune2CompletionFaulted := false
    retune2AppliedWaitingRfValid := false
    retuneGateReleaseRequested := false
    retuneRecoveryPending := false
    firstDataAdmitted := false
    rfConfigurationInvalidReported := false
    referenceClockKnown := false
    frequencyModelKnown := false
    events := [] }

/-- `bladerf2_rf_event_append`. -/
def append (e : TxEvent) : TxAdmission := { s with events := s.events ++ [e] }

def frequencyModelValid : Bool := s.referenceClockKnown && s.frequencyModelKnown

/-- The `retune_gate_pending` argument of the two rules below. -/
def retuneGatePending : Bool := s.retune2AppliedWaitingRfValid || s.retuneGateReleaseRequested

def admissionAllowed : Bool :=
  s.asyncLinkCertified && s.asyncRficStateCertified && !s.streamFaultedAsync &&
    !s.asyncTransportFaulted && !s.gateAbortPending && !s.retuneGatePending &&
    s.retune2PendingCount = 0 && !s.retune2CompletionFaulted && s.frequencyModelValid

def rficCertificatePending : Bool :=
  s.asyncLinkCertified && (!s.asyncRficStateCertified || s.retuneGatePending) &&
    !s.streamFaultedAsync && !s.asyncTransportFaulted && !s.gateAbortPending &&
    s.retune2PendingCount = 0 && !s.retune2CompletionFaulted && s.frequencyModelValid

/-! ## Critical sections -/

def streamSetFaulted (faulted : Bool) : TxAdmission :=
  let s := if s.streamFaultedAsync ≠ faulted then
      { s with asyncAdmissionGeneration := s.asyncAdmissionGeneration + 1 }
    else s
  let s := if faulted || !s.asyncTransportFaulted then
      { s with
        streamFaultedAsync := faulted
        asyncLinkCertified := !faulted && !s.asyncFaultFlushRequired }
    else s
  if faulted || s.asyncFaultFlushRequired then { s with asyncRficStateCertified := false } else s

def asyncTransportFailure (errorCode : RetCode) (now : ℕ) : TxAdmission :=
  let report := !s.asyncTransportFaulted
  let t :=
    { s with
      asyncAdmissionGeneration := s.asyncAdmissionGeneration + 1
      asyncTransportFaulted := true
      streamFaultedAsync := true
      asyncLinkCertified := false
      asyncRficStateCertified := false
      gateAbortPending := true
      gateAbortFailureReported := s.gateAbortPending && s.gateAbortFailureReported
      asyncTransportFailureGeneration := s.asyncTransportFailureGeneration + 1 }
  if report then
    t.append
      { TxEvent.ofType now .transportError with
        epochId := s.asyncLinkEpochId
        fpgaState := .error
        errorCode := errorCode }
  else t

/-- `bladerf2_tx_stream_new_epoch`. -/
def streamNewEpoch (linkStatus : BitVec 32) (baseline now : ℕ) : TxAdmission × Bool :=
  let s :=
    { s with
      asyncLinkEpochId := linkEpochOf linkStatus
      asyncRficStateCertified := false
      firstDataAdmitted := false
      asyncAdmissionGeneration := s.asyncAdmissionGeneration + 1 }
  if s.asyncTransportFailureGeneration ≠ baseline then (s, false)
  else if s.asyncFaultFlushRequired then
    ({ s with
      streamFaultedAsync := true
      asyncLinkCertified := false }, false)
  else
    ({ s with
      asyncTransportFaulted := false
      streamFaultedAsync := false
      asyncLinkCertified := true }.append
        { TxEvent.ofType now .linkValid with
          epochId := linkEpochOf linkStatus
          rficStatus := linkStatus }, true)

def statusRecoveryEvent (linkStatus : BitVec 32) (now : ℕ) : TxAdmission × Bool :=
  if s.asyncTransportFaulted || s.gateAbortPending || s.asyncFaultFlushRequired then (s, false)
  else
    ({ s with
      streamFaultedAsync := false
      asyncLinkCertified := true
      asyncRficStateCertified := true
      asyncAdmissionGeneration := s.asyncAdmissionGeneration + 1
      rfConfigurationInvalidReported := false }.append
        { TxEvent.ofType now .statusRecovered with epochId := linkEpochOf linkStatus }, true)

/-- The switch of `bladerf2_tx_stream_event`. -/
def certifiedAfter (type : TxEventType) : Bool :=
  match type with
  | .rficStateValid | .statusRecovered => true
  | .linkValid | .underrun | .linkFault | .statusUnavailable | .streamStopped
  | .counterReset | .epochInvalid | .transportError | .rficStateInvalid
  | .configurationInvalid | .retuneFailed => false
  | _ => s.asyncRficStateCertified

/-- The event that `bladerf2_tx_stream_event` appends. -/
def streamEventOf (type : TxEventType) (lossCount : BitVec 64) (linkStatus : BitVec 32)
    (errorCode : RetCode) (now : ℕ) : TxEvent :=
  let counted : Bool := type = .underrun ∨ type = .counterReset
  { TxEvent.ofType now type with
    epochId := rfLinkEpochId linkStatus s.asyncLinkEpochId
    fpgaState := rfStateOf errorCode
    flags := if type = .retuneFailed ∨ counted then lossCount.setWidth 32 else 0
    rficStatus := if counted then (lossCount >>> 32).setWidth 32 else linkStatus
    errorCode := errorCode }

/-- `bladerf2_tx_stream_event`. -/
def streamEvent (type : TxEventType) (lossCount : BitVec 64) (linkStatus : BitVec 32)
    (errorCode : RetCode) (now : ℕ) : TxAdmission :=
  if !type.isStream then s
  else
    let certified := s.certifiedAfter type
    { s with
      asyncRficStateCertified := certified
      asyncAdmissionGeneration :=
        if s.asyncRficStateCertified ≠ certified then s.asyncAdmissionGeneration + 1
        else s.asyncAdmissionGeneration }.append
      (s.streamEventOf type lossCount linkStatus errorCode now)

def revokeRficState : TxAdmission :=
  { s with
    asyncAdmissionGeneration :=
      if s.asyncRficStateCertified then s.asyncAdmissionGeneration + 1
      else s.asyncAdmissionGeneration
    asyncRficStateCertified := false }

/-- `bladerf2_tx_retune_event`. -/
def retuneEvent (type : TxEventType) (requestedHz readbackHz : ℕ) (flags : BitVec 32)
    (errorCode : RetCode) (now : ℕ) : TxAdmission :=
  if !type.isRetune then s
  else
    (if type = .retuneValid then s else s.revokeRficState).append
      { TxEvent.ofType now type with
        epochId := s.asyncLinkEpochId
        fpgaState := rfStateOf errorCode
        requestedHz := requestedHz
        readbackHz := readbackHz
        flags := flags
        errorCode := errorCode }

def niosPktRetune2FailureGainTable : BitVec 8 := 21

def bladerfRfEventFNiosFailureStageValid : BitVec 32 := 1 <<< 26

def retuneFailureDetailEvent (scheduledTimestamp requestedHz : ℕ) (failureStage : BitVec 8)
    (errorCode : RetCode) (now : ℕ) : TxAdmission :=
  if niosPktRetune2FailureGainTable < failureStage then s
  else
    s.revokeRficState.append
      { TxEvent.ofType now .retuneFailed with
        fpgaTimestamp := scheduledTimestamp
        epochId := s.asyncLinkEpochId
        fpgaState := .error
        requestedHz := requestedHz
        rficStatus := failureStage.setWidth 32
        flags := if failureStage ≠ 0 then bladerfRfEventFNiosFailureStageValid else 0
        errorCode := errorCode }

/-- The section of `bladerf2_tx_rf_config_change_begin` that closes TX ahead of
the change. -/
def configurationFence : TxAdmission :=
  { s with
    asyncAdmissionGeneration := s.asyncAdmissionGeneration + 1
    streamFaultedAsync := true
    asyncLinkCertified := false
    retune2CompletionFaulted := true
    retune2AppliedWaitingRfValid := false }

/-! ### Gate ABORT -/

/-- The first section of `bladerf2_tx_gate_abort_fail_closed`. -/
def gateAbortRequest : TxAdmission :=
  { s with
    asyncFaultFlushRequired := true
    asyncFaultFlushGeneration := s.asyncFaultFlushGeneration + 1
    retune2CompletionFaulted := true
    retune2AppliedWaitingRfValid := false
    retuneRecoveryPending := true
    gateAbortFailureReported := s.gateAbortPending && s.gateAbortFailureReported
    gateAbortPending := true
    retuneGateReleaseRequested := false }

def gateAbortMark : TxAdmission :=
  { s with
    retune2CompletionFaulted := true
    retune2AppliedWaitingRfValid := false
    retuneRecoveryPending := true }

/-- The end of an ABORT that succeeded; `generation` is the transport failure
generation its issuer had read. -/
def gateAbortSucceeded (generation : ℕ) : TxAdmission :=
  if s.asyncTransportFailureGeneration = generation then
    { s with
      gateAbortPending := false
      gateAbortFailureReported := false }
  else s

/-- The latch of an ABORT that failed: whether its event is still due. -/
def gateAbortFailed : TxAdmission × Bool :=
  ({ s with gateAbortFailureReported := true }, !s.gateAbortFailureReported)

/-! ### Leases and recovery -/

def asyncSubmitLeaseAcquire (generation : ℕ) : TxAdmission × RetCode :=
  if s.asyncAdmissionGeneration = generation ∧ !s.asyncFaultFlushRequired ∧ s.admissionAllowed then
    ({ s with asyncSubmitLeases := s.asyncSubmitLeases + 1 }, .ok)
  else (s, .wouldBlock)

def asyncSubmitLeaseRelease : TxAdmission :=
  { s with asyncSubmitLeases := s.asyncSubmitLeases - 1 }

/-- `_begin` of the recovery coordinator: the generation this pass may retire. -/
def faultRecoverBegin : Except RetCode ℕ :=
  if !s.asyncFaultFlushRequired then .error .inval
  else if s.asyncSubmitLeases ≠ 0 then .error .wouldBlock
  else .ok s.asyncFaultFlushGeneration

/-- `_commit` of the recovery coordinator. -/
def faultRecoverCommit (generation now : ℕ) : TxAdmission × RetCode :=
  if s.asyncFaultFlushGeneration ≠ generation then (s, .wouldBlock)
  else
    ({ s with
      asyncFaultFlushRequired := false
      streamFaultedAsync := true
      asyncLinkCertified := false
      asyncRficStateCertified := false
      asyncAdmissionGeneration := s.asyncAdmissionGeneration + 1 }.append
        { TxEvent.ofType now .faultFlushComplete with epochId := s.asyncLinkEpochId }, .ok)

end TxAdmission

/-! ## The sections of the other parties -/

/-- What the retune ledgers and the TX setters write into the state. -/
structure TxRetuneWrite where
  pendingCount : ℕ
  completionFaulted : Bool
  appliedWaitingRfValid : Bool
  gateReleaseRequested : Bool
  recoveryPending : Bool
  configurationInvalidReported : Bool
  referenceClockKnown : Bool
  frequencyModelKnown : Bool
  linkEpochId : BitVec 8
  firstDataAdmitted : Bool
  deriving DecidableEq

inductive TxSection
  | setFaulted (faulted : Bool)
  | newEpoch (linkStatus : BitVec 32) (baseline now : ℕ)
  | statusRecovery (linkStatus : BitVec 32) (now : ℕ)
  | streamEvent (type : TxEventType) (lossCount : BitVec 64) (linkStatus : BitVec 32)
      (errorCode : RetCode) (now : ℕ)
  | retuneEvent (type : TxEventType) (requestedHz readbackHz : ℕ) (flags : BitVec 32)
      (errorCode : RetCode) (now : ℕ)
  | retuneFailureDetail (scheduledTimestamp requestedHz : ℕ) (failureStage : BitVec 8)
      (errorCode : RetCode) (now : ℕ)
  | leaseAcquire (generation : ℕ)
  | leaseRelease
  | recoverCommit (generation now : ℕ)
  | retune (w : TxRetuneWrite)
  deriving DecidableEq

namespace TxSection

def run (s : TxAdmission) : TxSection → TxAdmission
  | .setFaulted faulted => s.streamSetFaulted faulted
  | .newEpoch linkStatus baseline now => (s.streamNewEpoch linkStatus baseline now).1
  | .statusRecovery linkStatus now => (s.statusRecoveryEvent linkStatus now).1
  | .streamEvent type lossCount linkStatus errorCode now =>
      s.streamEvent type lossCount linkStatus errorCode now
  | .retuneEvent type requestedHz readbackHz flags errorCode now =>
      s.retuneEvent type requestedHz readbackHz flags errorCode now
  | .retuneFailureDetail scheduledTimestamp requestedHz failureStage errorCode now =>
      s.retuneFailureDetailEvent scheduledTimestamp requestedHz failureStage errorCode now
  | .leaseAcquire generation => (s.asyncSubmitLeaseAcquire generation).1
  | .leaseRelease => s.asyncSubmitLeaseRelease
  | .recoverCommit generation now => (s.faultRecoverCommit generation now).1
  | .retune w =>
      { s with
        retune2PendingCount := w.pendingCount
        retune2CompletionFaulted := w.completionFaulted
        retune2AppliedWaitingRfValid := w.appliedWaitingRfValid
        retuneGateReleaseRequested := w.gateReleaseRequested
        retuneRecoveryPending := w.recoveryPending
        rfConfigurationInvalidReported := w.configurationInvalidReported
        referenceClockKnown := w.referenceClockKnown
        frequencyModelKnown := w.frequencyModelKnown
        asyncLinkEpochId := w.linkEpochId
        firstDataAdmitted := w.firstDataAdmitted }

end TxSection
end BladeRF
