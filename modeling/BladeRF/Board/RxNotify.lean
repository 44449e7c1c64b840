/-
# `Board.RxNotify` — the RX data notifications of the board

A consumer of the event history is told when certified samples first reach the
host, when samples are lost or withheld, and when they flow again.  USB
callbacks, the sync reader and its worker, the fault monitor and the setters
all notify, each in one critical section of `rx_async_epoch_lock`; a definition
here is one such section.

A loss may be reported by several of them, so the sections share two things:
the flag of an open interval, and a mask of the reasons reported within it,
which is good for one source only.
-/
import BladeRF.Board.TransitionCalls
import BladeRF.Streaming.Metadata

namespace BladeRF

/-! ## Events -/

/-- The RX members of `bladerf_rf_event_type` that concern host data; `other`
is any member that is not one of them. -/
inductive RxEventType
  | epochValid
  | firstValidHostData
  | dataResumed
  | dataWithheld
  | formatUnsupported
  | streamOverrun
  | other
  deriving DecidableEq

/-- `bladerf_rf_state`, as far as these events use it. -/
inductive RxRfState
  | dataValid
  | dataInvalid
  | other
  deriving DecidableEq

/-- `struct bladerf_rf_event`. -/
structure RxEvent where
  hostMonotonicNs : ℕ
  fpgaTimestamp : BitVec 64
  transactionId : BitVec 32
  epochId : BitVec 32
  requestedHz : ℕ
  readbackHz : ℕ
  rficStatus : BitVec 32
  fpgaState : RxRfState
  eventType : RxEventType
  flags : BitVec 32
  errorCode : RetCode
  deriving DecidableEq

def RxEvent.zero : RxEvent := ⟨0, 0, 0, 0, 0, 0, 0, .other, .other, 0, .ok⟩

def bladerfRfEventFFpgaTimestampValid : BitVec 32 := 1 <<< 31
def bladerfRfEventFRxX2Layout : BitVec 32 := 1 <<< 30
def bladerfRfEventFTransitionRx2 : BitVec 32 := 1 <<< 29
def bladerfRfEventFTransitionChannelValid : BitVec 32 := 1 <<< 28
def bladerfRfEventFSourceProvenanceUnknown : BitVec 32 := 1 <<< 27
def bladerfRfEventFRxClippingRx1 : BitVec 32 := 1 <<< 0
def bladerfRfEventFRxClippingRx2 : BitVec 32 := 1 <<< 1

/-- The timestamp of an event, if its flags say that it has one. -/
def RxEvent.timestamp (e : RxEvent) : Option (BitVec 64) :=
  if e.flags &&& bladerfRfEventFFpgaTimestampValid = 0 then none else some e.fpgaTimestamp

def bladerfRfStreamStatusOverrun : BitVec 32 := 1 <<< 0
def bladerfRfStreamStatusAsyncUsb : BitVec 32 := 1 <<< 3
def bladerfRfStreamStatusTimestampDiscontinuity : BitVec 32 := 1 <<< 4

def transitionChannelMask : BitVec 32 :=
  bladerfRfEventFTransitionRx2 ||| bladerfRfEventFTransitionChannelValid

/-- The `BLADERF_RF_WITHHELD` reasons. -/
inductive WithheldReason
  | epochUncertified
  | epochOrTimestampMismatch
  | timestampDiscontinuity
  | shortTransfer
  | usbOverflow
  | usbTransferError
  | usbTimeout
  | deviceLost
  | syncTimeout
  | rxChannelSelection
  deriving DecidableEq

namespace WithheldReason

def bit : WithheldReason → BitVec 32
  | .epochUncertified => 1 <<< 0
  | .epochOrTimestampMismatch => 1 <<< 1
  | .timestampDiscontinuity => 1 <<< 2
  | .shortTransfer => 1 <<< 3
  | .usbOverflow => 1 <<< 4
  | .usbTransferError => 1 <<< 5
  | .usbTimeout => 1 <<< 6
  | .deviceLost => 1 <<< 7
  | .syncTimeout => 1 <<< 8
  | .rxChannelSelection => 1 <<< 9

def usb : WithheldReason → Bool
  | .shortTransfer | .usbOverflow | .usbTransferError | .usbTimeout | .deviceLost => true
  | _ => false

def everyTime (r : WithheldReason) : Bool := r.usb || r = .syncTimeout

theorem bit_ne_zero (r : WithheldReason) : r.bit ≠ 0 := by
  cases r <;> decide

end WithheldReason

/-- `bladerf_channel_layout` of an RX stream; `other` is no RX layout. -/
inductive RxLayout
  | x1
  | x2
  | other
  deriving DecidableEq

/-- The fields of `struct bladerf_metadata` that a host packet is judged by. -/
structure RxPacketMeta where
  timestamp : BitVec 64
  status : BitVec 32
  actualCount : ℕ
  epochIdValid : Bool
  epochId : BitVec 8

def RxPacketMeta.hasEpochSamples (m : RxPacketMeta) : Bool := m.actualCount ≠ 0 ∧ m.epochIdValid

/-- `bladerf2_rx_transition_channel_event_flags`; channel `2 * n` is RX `n`. -/
def rxTransitionChannelEventFlags (channel : ℕ) (channelValid : Bool) : BitVec 32 :=
  if !channelValid ∨ channel ≠ 0 ∧ channel ≠ 2 then 0
  else bladerfRfEventFTransitionChannelValid |||
    (if channel = 2 then bladerfRfEventFTransitionRx2 else 0)

def rxLayoutMatchesChannelMask (layout : RxLayout) (transitionChannel : ℕ) (maskValid : Bool)
    (mask : BitVec 8) : Bool :=
  maskValid &&
    match layout with
    | .x2 => mask = 3
    | .x1 => transitionChannel % 2 = 0 ∧ transitionChannel / 2 ≤ 1 ∧
        mask = 1 <<< (transitionChannel / 2)
    | .other => false

/-! ## The state -/

def rfEventHistorySize : ℕ := 64

/-- The RX part of `struct bladerf2_board_data` behind `rx_async_epoch_lock`. -/
structure RxNotify where
  currentId : BitVec 32
  currentChannel : ℕ
  currentChannelValid : Bool
  epochId : BitVec 8
  epochContractEnabled : Bool
  epochCertified : Bool
  certifiedEpochId : BitVec 8
  firstValidTimestamp : BitVec 64
  certifiedEpochEvent : RxEvent
  rxClippingReported : BitVec 8
  firstHostDataRequired : Bool
  rxX2HostDataRequired : Bool
  firstHostDataDeadlineNs : ℕ
  /-- `ok` is no failure -/
  firstHostDataFailure : RetCode
  firstHostDataReported : Bool
  firstHostDataEvent : RxEvent
  formatUnsupportedReported : Bool
  formatUnsupportedTransactionId : BitVec 32
  formatUnsupportedEpochId : BitVec 8
  formatUnsupportedIdentityValid : Bool
  withheldReportedReasons : BitVec 32
  withheldTransactionId : BitVec 32
  withheldEpochId : BitVec 8
  withheldIdentityValid : Bool
  withheldActive : Bool
  timestampDiscontinuityReported : Bool
  haveExpectedTimestamp : Bool
  timestampEpochId : BitVec 8
  expectedTimestamp : BitVec 64
  channelEnableMask : BitVec 8
  channelEnableMaskValid : Bool
  /-- RX events in the order they were appended; the ring retains the newest -/
  events : List RxEvent
  deriving DecidableEq

namespace RxNotify

def closed : RxNotify where
  currentId := 0
  currentChannel := 0
  currentChannelValid := false
  epochId := 0
  epochContractEnabled := false
  epochCertified := false
  certifiedEpochId := 0
  firstValidTimestamp := 0
  certifiedEpochEvent := .zero
  rxClippingReported := 0
  firstHostDataRequired := false
  rxX2HostDataRequired := false
  firstHostDataDeadlineNs := 0
  firstHostDataFailure := .ok
  firstHostDataReported := false
  firstHostDataEvent := .zero
  formatUnsupportedReported := false
  formatUnsupportedTransactionId := 0
  formatUnsupportedEpochId := 0
  formatUnsupportedIdentityValid := false
  withheldReportedReasons := 0
  withheldTransactionId := 0
  withheldEpochId := 0
  withheldIdentityValid := false
  withheldActive := false
  timestampDiscontinuityReported := false
  haveExpectedTimestamp := false
  timestampEpochId := 0
  expectedTimestamp := 0
  channelEnableMask := 0
  channelEnableMaskValid := false
  events := []

variable (s : RxNotify)

/-- `bladerf2_rf_event_append`. -/
def append (e : RxEvent) : RxNotify := { s with events := s.events ++ [e] }

def retained : List RxEvent := s.events.drop (s.events.length - rfEventHistorySize)

def channelFlags : BitVec 32 :=
  rxTransitionChannelEventFlags s.currentChannel (s.epochContractEnabled && s.currentChannelValid)

/-- `bladerf2_rx_transition_fail_first_host_data_locked`. -/
def failFirstHostData (status : RetCode) : RxNotify :=
  if status = .ok ∨ !s.firstHostDataRequired ∨ s.firstHostDataReported ∨
      s.firstHostDataFailure ≠ .ok then s
  else { s with firstHostDataFailure := status }

section
variable {s} (status : RetCode)

@[simp] theorem failFirstHostData_events : (s.failFirstHostData status).events = s.events := by
  unfold failFirstHostData; split <;> rfl

@[simp] theorem failFirstHostData_epochCertified :
    (s.failFirstHostData status).epochCertified = s.epochCertified := by
  unfold failFirstHostData; split <;> rfl

@[simp] theorem failFirstHostData_epochContractEnabled :
    (s.failFirstHostData status).epochContractEnabled = s.epochContractEnabled := by
  unfold failFirstHostData; split <;> rfl

@[simp] theorem failFirstHostData_firstHostDataReported :
    (s.failFirstHostData status).firstHostDataReported = s.firstHostDataReported := by
  unfold failFirstHostData; split <;> rfl

@[simp] theorem failFirstHostData_withheldActive :
    (s.failFirstHostData status).withheldActive = s.withheldActive := by
  unfold failFirstHostData; split <;> rfl

@[simp] theorem failFirstHostData_withheldReportedReasons :
    (s.failFirstHostData status).withheldReportedReasons = s.withheldReportedReasons := by
  unfold failFirstHostData; split <;> rfl

end

/-- `bladerf2_rx_data_rearm_notifications_locked`. -/
def rearmNotifications : RxNotify :=
  { s with
    formatUnsupportedReported := false
    formatUnsupportedIdentityValid := false
    withheldReportedReasons := 0
    withheldIdentityValid := false
    timestampDiscontinuityReported := false }

/-! ### Certificates -/

/-- `rx_epoch_admission_deadline_status`; `none` is a clock that cannot be read. -/
def admissionDeadlineStatus (clock : Option ℕ) (deadlineNs : ℕ) : RetCode :=
  match clock with
  | none => .unexpected
  | some now => if deadlineNs ≤ now then .timeout else .ok

def commitCertificate (e : RxEvent) (now : ℕ) : RxNotify :=
  let event := { e with hostMonotonicNs := now }
  { s with
    epochCertified := true
    certifiedEpochId := e.epochId.setWidth 8
    firstValidTimestamp := e.fpgaTimestamp
    certifiedEpochEvent := event
    rxClippingReported := 0
    firstHostDataReported := false
    firstHostDataEvent := .zero
    haveExpectedTimestamp := false }.append event

/-- The section of `bladerf2_rx_epoch_admission_prepare`. -/
def certify (e : RxEvent) (deadlineNs : ℕ) (clock : Option ℕ) (now : ℕ) : RxNotify × RetCode :=
  let status := admissionDeadlineStatus clock deadlineNs
  if status ≠ .ok then (s, status)
  else if !s.epochContractEnabled then (s, .unexpected)
  else (s.commitCertificate e now, .ok)

theorem certify_refused {deadlineNs : ℕ} {clock : Option ℕ}
    (h : admissionDeadlineStatus clock deadlineNs ≠ .ok ∨ s.epochContractEnabled = false)
    (e : RxEvent) (now : ℕ) : ∃ status, status ≠ .ok ∧
      s.certify e deadlineNs clock now = (s, status) := by
  unfold certify
  dsimp only
  split
  · rename_i hstatus
    exact ⟨_, hstatus, rfl⟩
  · rename_i hstatus
    have hoff : s.epochContractEnabled = false := h.resolve_left hstatus
    rw [hoff]
    exact ⟨_, by decide, rfl⟩

theorem certify_accepted {deadlineNs : ℕ} {clock : Option ℕ}
    (h : admissionDeadlineStatus clock deadlineNs = .ok) (hon : s.epochContractEnabled = true)
    (e : RxEvent) (now : ℕ) :
    s.certify e deadlineNs clock now = (s.commitCertificate e now, .ok) := by
  simp [certify, h, hon]

/-- `bladerf2_rx_epoch_admission_prepare`: two deadline checks, the second in
the section. -/
def epochAdmissionPrepare (e : RxEvent) (deadlineNs : ℕ) (clock₁ clock₂ : Option ℕ) (now : ℕ) :
    RxNotify × RetCode :=
  if e.eventType ≠ .epochValid ∨ e.fpgaState ≠ .dataValid then (s, .inval)
  else
    let status := admissionDeadlineStatus clock₁ deadlineNs
    if status ≠ .ok then (s, status) else s.certify e deadlineNs clock₂ now

theorem epochAdmissionPrepare_cases (e : RxEvent) (deadlineNs : ℕ) (clock₁ clock₂ : Option ℕ)
    (now : ℕ) :
    (∃ status, status ≠ .ok ∧
      s.epochAdmissionPrepare e deadlineNs clock₁ clock₂ now = (s, status)) ∨
    e.eventType = .epochValid ∧ s.epochContractEnabled = true ∧
      s.epochAdmissionPrepare e deadlineNs clock₁ clock₂ now =
        (s.commitCertificate e now, .ok) := by
  unfold epochAdmissionPrepare certify
  dsimp only
  split
  · exact .inl ⟨_, by decide, rfl⟩
  · rename_i htype
    have hvalid : e.eventType = .epochValid := by
      by_contra hne
      exact htype (.inl hne)
    split
    · rename_i hstatus
      exact .inl ⟨_, hstatus, rfl⟩
    · split
      · rename_i hstatus
        exact .inl ⟨_, hstatus, rfl⟩
      · split
        · exact .inl ⟨_, by decide, rfl⟩
        · rename_i hcontract
          exact .inr ⟨hvalid, by simpa using hcontract, rfl⟩

def epochRevokeAdmission : RxNotify :=
  { s with
    epochCertified := false
    haveExpectedTimestamp := false
    firstHostDataReported := false }

def revokeFailedTransitionAdmission (status : RetCode) : RxNotify :=
  let s := s.epochRevokeAdmission
  if s.firstHostDataRequired ∧ s.firstHostDataFailure = .ok then
    { s with firstHostDataFailure := if status ≠ .ok then status else .unexpected }
  else s

/-! ### Losses -/

/-- The retained epoch that a late packet belongs to: the newest one with its
tag that is not newer than it. -/
def sourceEpoch (history : List RxEvent) (epochId : BitVec 32) (timestamp : BitVec 64) :
    Option RxEvent :=
  history.foldl (fun best candidate =>
    if candidate.eventType ≠ .epochValid ∨ candidate.epochId ≠ epochId ∨
        !metadataTimestampAtOrAfter timestamp candidate.fpgaTimestamp ∨
        best.any (fun b => candidate.fpgaTimestamp = b.fpgaTimestamp ∨
          !metadataTimestampAtOrAfter candidate.fpgaTimestamp b.fpgaTimestamp)
      then best else some candidate) none

/-- `rx_withheld_event_apply_source_provenance`. -/
def applySourceProvenance (e : RxEvent) : RxEvent :=
  if e.flags &&& bladerfRfEventFFpgaTimestampValid = 0 then e
  else
    match sourceEpoch s.retained e.epochId e.fpgaTimestamp with
    | none => e
    | some best =>
        { e with
          transactionId := best.transactionId
          requestedHz := best.requestedHz
          readbackHz := best.readbackHz
          rficStatus := best.rficStatus
          flags := (e.flags &&& ~~~transitionChannelMask) |||
            (best.flags &&& transitionChannelMask) }

/-- Whether the certificate, if there is one, covers a source with this
identity. -/
def covers (epochId transactionId : BitVec 32) (timestamp : Option (BitVec 64)) : Bool :=
  epochId = s.certifiedEpochId.setWidth 32 ∧
    (transactionId = 0 ∨ s.certifiedEpochEvent.transactionId = 0 ∨
      transactionId = s.certifiedEpochEvent.transactionId) ∧
    timestamp.all (metadataTimestampAtOrAfter · s.firstValidTimestamp)

end RxNotify

structure RxSource where
  epochId : BitVec 8
  timestamp : BitVec 64
  timestampValid : Bool

namespace RxNotify

variable (s : RxNotify)

/-- The cursor of the async stream stands in the certified epoch. -/
def cursorCertified (reason : WithheldReason) : Bool :=
  reason ≠ .syncTimeout ∧ s.epochCertified ∧ s.haveExpectedTimestamp ∧
    s.timestampEpochId = s.certifiedEpochId

/-- The event of `_rx_data_withheld`, as its source is judged. -/
def withheldEvent (reason : WithheldReason) (source : Option RxSource) (now : ℕ) : RxEvent :=
  let e := { RxEvent.zero with
    hostMonotonicNs := now
    fpgaState := .dataInvalid
    eventType := .dataWithheld }
  match source with
  | some src =>
      s.applySourceProvenance
        { e with
          fpgaTimestamp := src.timestamp
          epochId := src.epochId.setWidth 32
          flags := reason.bit |||
            (if src.timestampValid then bladerfRfEventFFpgaTimestampValid else 0) |||
              s.channelFlags }
  | none =>
      if s.cursorCertified reason then
        { e with
          fpgaTimestamp := s.expectedTimestamp
          epochId := s.certifiedEpochId.setWidth 32
          flags := reason.bit ||| bladerfRfEventFFpgaTimestampValid ||| s.channelFlags }
      else
        { e with
          epochId := s.epochId.setWidth 32
          flags := reason.bit ||| s.channelFlags }

/-- `source_transaction_id`. -/
def withheldTransaction (reason : WithheldReason) (source : Option RxSource) (now : ℕ) :
    BitVec 32 :=
  if source.isSome then (s.withheldEvent reason source now).transactionId else s.currentId

/-- A loss from another source than the last one starts a mask of its own. -/
def rearmSource (transactionId epochId : BitVec 32) : RxNotify :=
  if !s.withheldIdentityValid ∨ s.withheldTransactionId ≠ transactionId ∨
      s.withheldEpochId.setWidth 32 ≠ epochId then
    { s with
      withheldReportedReasons := 0
      timestampDiscontinuityReported := false
      withheldTransactionId := transactionId
      withheldEpochId := epochId.setWidth 8
      withheldIdentityValid := true }
  else s

section
variable {s} {transactionId epochId : BitVec 32}

@[simp] theorem rearmSource_events : (s.rearmSource transactionId epochId).events = s.events := by
  unfold rearmSource; split <;> rfl

@[simp] theorem rearmSource_epochCertified :
    (s.rearmSource transactionId epochId).epochCertified = s.epochCertified := by
  unfold rearmSource; split <;> rfl

@[simp] theorem rearmSource_epochContractEnabled :
    (s.rearmSource transactionId epochId).epochContractEnabled = s.epochContractEnabled := by
  unfold rearmSource; split <;> rfl

@[simp] theorem rearmSource_firstHostDataReported :
    (s.rearmSource transactionId epochId).firstHostDataReported = s.firstHostDataReported := by
  unfold rearmSource; split <;> rfl

@[simp] theorem rearmSource_withheldActive :
    (s.rearmSource transactionId epochId).withheldActive = s.withheldActive := by
  unfold rearmSource; split <;> rfl

theorem rearmSource_withheldReportedReasons
    (h : (s.rearmSource transactionId epochId).withheldReportedReasons ≠ 0) :
    s.withheldReportedReasons ≠ 0 := by
  unfold rearmSource at h
  split at h
  · exact absurd rfl h
  · exact h

end

/-- `source_is_current` of a source with a known identity. -/
def sourceIsCurrent (epochId transactionId : BitVec 32) (timestamp : Option (BitVec 64)) : Bool :=
  if s.epochCertified then s.covers epochId transactionId timestamp
  else epochId = s.epochId.setWidth 32 ∧ (transactionId = 0 ∨ transactionId = s.currentId)

/-- `source_is_current` of `_rx_data_withheld`. -/
def withheldIsCurrent (reason : WithheldReason) (source : Option RxSource) (now : ℕ) : Bool :=
  let e := s.withheldEvent reason source now
  if !s.epochCertified ∧ source.isNone then true
  else s.sourceIsCurrent e.epochId (s.withheldTransaction reason source now) e.timestamp

def withheldAnonymous (reason : WithheldReason) (source : Option RxSource) (e : RxEvent) :
    RxEvent :=
  if source.isNone ∧ reason.usb then
    { e with
      epochId := 0
      transactionId := 0
      fpgaTimestamp := 0
      flags := (e.flags &&& ~~~bladerfRfEventFFpgaTimestampValid) |||
        bladerfRfEventFSourceProvenanceUnknown }
  else e

/-- `s.withheldActive = true` from now on, if `current`. -/
def activate (current : Bool) : RxNotify := { s with withheldActive := s.withheldActive || current }

/-- `_rx_data_withheld`; no source is `bladerf2_rx_data_withheld`, a source is
`bladerf2_rx_data_withheld_at`. -/
def dataWithheld (reason : WithheldReason) (source : Option RxSource) (now : ℕ) : RxNotify :=
  let e := s.withheldEvent reason source now
  let t := (s.rearmSource (s.withheldTransaction reason source now) e.epochId).activate
    (s.withheldIsCurrent reason source now)
  if reason.everyTime then t.append (withheldAnonymous reason source e)
  else if t.epochContractEnabled ∧ t.withheldReportedReasons &&& reason.bit ≠ reason.bit then
    { t with withheldReportedReasons := t.withheldReportedReasons ||| reason.bit }.append
      (withheldAnonymous reason source e)
  else t

/-- The first event of `bladerf2_rx_async_timestamp_discontinuity`. -/
def discontinuityEvent (expectedEpochId : BitVec 8) (timestamp : BitVec 64) (now : ℕ) : RxEvent :=
  s.applySourceProvenance
    { RxEvent.zero with
      hostMonotonicNs := now
      fpgaTimestamp := timestamp
      epochId := expectedEpochId.setWidth 32
      fpgaState := .dataInvalid
      eventType := .dataWithheld
      flags := WithheldReason.timestampDiscontinuity.bit ||| bladerfRfEventFFpgaTimestampValid |||
        s.channelFlags
      errorCode := .unexpected }

/-- `bladerf2_rx_async_timestamp_discontinuity`: two events. -/
def asyncTimestampDiscontinuity (expectedEpochId : BitVec 8) (timestamp : BitVec 64)
    (now now' : ℕ) : RxNotify :=
  let e := s.discontinuityEvent expectedEpochId timestamp now
  let t := s.rearmSource e.transactionId e.epochId
  if t.epochContractEnabled ∧ !t.timestampDiscontinuityReported then
    (({ t with timestampDiscontinuityReported := true }.activate
      (s.sourceIsCurrent e.epochId e.transactionId (some timestamp))).append e).append
      { e with
        hostMonotonicNs := now'
        eventType := .streamOverrun
        flags := bladerfRfStreamStatusOverrun ||| bladerfRfStreamStatusTimestampDiscontinuity |||
          s.channelFlags
        errorCode := .ok }
  else t

def asyncStreamOverrun (now : ℕ) : RxNotify :=
  (s.activate true).append
    { RxEvent.zero with
      hostMonotonicNs := now
      fpgaState := .dataInvalid
      eventType := .streamOverrun
      flags := bladerfRfStreamStatusOverrun ||| bladerfRfStreamStatusAsyncUsb ||| s.channelFlags |||
        bladerfRfEventFSourceProvenanceUnknown }

/-- The event of `bladerf2_rx_stream_overrun`. -/
def overrunEvent (sourceFlags : BitVec 32) (source : RxSource) (now : ℕ) : RxEvent :=
  let e := { RxEvent.zero with
    hostMonotonicNs := now
    fpgaTimestamp := source.timestamp
    epochId := source.epochId.setWidth 32
    fpgaState := .dataInvalid
    eventType := .streamOverrun
    flags := bladerfRfStreamStatusOverrun ||| sourceFlags |||
      (if source.timestampValid then bladerfRfEventFFpgaTimestampValid else 0) }
  let e := if source.timestampValid then s.applySourceProvenance e else e
  if e.flags &&& bladerfRfEventFTransitionChannelValid = 0 then
    { e with flags := e.flags ||| s.channelFlags }
  else e

/-- `source_is_current` of `bladerf2_rx_stream_overrun`, which does not ask for
the transaction while nothing is certified. -/
def overrunIsCurrent (source : RxSource) (e : RxEvent) : Bool :=
  if s.epochCertified then
    s.covers e.epochId e.transactionId
      (if source.timestampValid then some e.fpgaTimestamp else none)
  else e.epochId = s.epochId.setWidth 32

/-- `bladerf2_rx_stream_overrun`. -/
def streamOverrun (sourceFlags : BitVec 32) (source : RxSource) (now : ℕ) : RxNotify :=
  let e := s.overrunEvent sourceFlags source now
  (s.activate (s.overrunIsCurrent source e && s.epochContractEnabled)).append e

def workerStreamOverrun (sourceFlags : BitVec 32) (now : ℕ) : RxNotify :=
  if sourceFlags = 0 then s
  else
    (s.activate s.epochContractEnabled).append
      { RxEvent.zero with
        hostMonotonicNs := now
        epochId := (if s.epochCertified then s.certifiedEpochId else s.epochId).setWidth 32
        fpgaState := if s.epochCertified then .dataValid else .dataInvalid
        eventType := .streamOverrun
        flags := bladerfRfStreamStatusOverrun ||| sourceFlags ||| s.channelFlags }

/-- `bladerf2_rx_fault_observation_is_current` of the certificate. -/
def fpgaLossIsCurrent (e : RxEvent) : Bool :=
  s.epochContractEnabled ∧ s.epochCertified ∧ e.transactionId ≠ 0 ∧
    e.transactionId = s.certifiedEpochEvent.transactionId ∧
    e.epochId.setWidth 8 = s.certifiedEpochId

def publishRxFpgaLossEvent (e : RxEvent) : RxNotify :=
  if s.fpgaLossIsCurrent e then
    (s.activate true).append { e with eventType := .streamOverrun }
  else s

/-- A rejected format is reported once for a transition and its epoch. -/
def rearmFormat : RxNotify :=
  if !s.formatUnsupportedIdentityValid ∨ s.formatUnsupportedTransactionId ≠ s.currentId ∨
      s.formatUnsupportedEpochId ≠ s.epochId then
    { s with
      formatUnsupportedReported := false
      formatUnsupportedTransactionId := s.currentId
      formatUnsupportedEpochId := s.epochId
      formatUnsupportedIdentityValid := true }
  else s

/-- The event of `bladerf2_rx_format_unsupported`. -/
def formatEvent (format : BitVec 32) (now : ℕ) : RxEvent :=
  { RxEvent.zero with
    hostMonotonicNs := now
    epochId := s.epochId.setWidth 32
    fpgaState := .dataInvalid
    eventType := .formatUnsupported
    flags := format ||| s.channelFlags
    errorCode := .unsupported }

def formatUnsupported (format : BitVec 32) (deduplicate : Bool) (now : ℕ) : RxNotify :=
  let t := s.rearmFormat
  if t.epochContractEnabled ∧ (!deduplicate ∨ !t.formatUnsupportedReported) then
    let t := t.failFirstHostData .unsupported
    let t := if deduplicate then { t with formatUnsupportedReported := true }.activate true else t
    t.append (s.formatEvent format now)
  else t

/-! ### Host data -/

def packetCertified (m : RxPacketMeta) (layout : RxLayout) : Bool :=
  m.hasEpochSamples ∧ layout ≠ .other ∧ s.epochContractEnabled ∧ s.epochCertified ∧
    (!s.rxX2HostDataRequired ∨ layout = .x2) ∧ s.certifiedEpochEvent.eventType = .epochValid ∧
    s.certifiedEpochEvent.epochId = m.epochId.setWidth 32 ∧ s.certifiedEpochId = m.epochId ∧
    metadataTimestampAtOrAfter m.timestamp s.firstValidTimestamp ∧
    metadataTimestampAtOrAfter m.timestamp s.certifiedEpochEvent.fpgaTimestamp

def packetSelected (layout : RxLayout) : Bool :=
  rxLayoutMatchesChannelMask layout s.currentChannel s.channelEnableMaskValid s.channelEnableMask

def packetLate (admissionNs : ℕ) : Bool :=
  !s.firstHostDataReported ∧ s.firstHostDataRequired ∧ s.firstHostDataDeadlineNs ≠ 0 ∧
    !firstHostDataBeforeDeadline admissionNs s.firstHostDataDeadlineNs

def admits (m : RxPacketMeta) (layout : RxLayout) (admissionNs : ℕ) : Bool :=
  s.packetCertified m layout && s.packetSelected layout && !s.packetLate admissionNs

/-- The identity that the events of a packet take from its certificate. -/
def packetEvent (m : RxPacketMeta) : RxEvent :=
  let c := s.certifiedEpochEvent
  { RxEvent.zero with
    fpgaTimestamp := m.timestamp
    transactionId := c.transactionId
    epochId := c.epochId
    requestedHz := c.requestedHz
    readbackHz := c.readbackHz
    rficStatus := c.rficStatus
    flags := bladerfRfEventFFpgaTimestampValid ||| (c.flags &&& transitionChannelMask) }

def selectionEvent (m : RxPacketMeta) (now : ℕ) : RxEvent :=
  { s.packetEvent m with
    hostMonotonicNs := now
    fpgaState := .dataInvalid
    eventType := .dataWithheld
    flags := WithheldReason.rxChannelSelection.bit ||| (s.packetEvent m).flags
    errorCode := .unsupported }

def selectionWithheld (m : RxPacketMeta) (now : ℕ) : RxNotify :=
  let t := s.failFirstHostData .unsupported
  if t.withheldReportedReasons &&& WithheldReason.rxChannelSelection.bit = 0 then
    { t with
      withheldReportedReasons := t.withheldReportedReasons ||| WithheldReason.rxChannelSelection.bit
      withheldActive := true }.append (s.selectionEvent m now)
  else t

def hostDataEvent (m : RxPacketMeta) (layout : RxLayout) (admissionNs : ℕ) : RxEvent :=
  { s.packetEvent m with
    hostMonotonicNs := admissionNs
    fpgaState := .dataValid
    eventType := if s.firstHostDataReported then .dataResumed else .firstValidHostData
    flags := m.status ||| (s.packetEvent m).flags |||
      (if layout = .x2 then bladerfRfEventFRxX2Layout else 0) }

/-- An admitted packet reports the first data, or the end of a loss. -/
def packetAdmitted (m : RxPacketMeta) (layout : RxLayout) (admissionNs : ℕ) : RxNotify :=
  let e := s.hostDataEvent m layout admissionNs
  let t :=
    if !s.firstHostDataReported ∨ s.withheldActive then
      { s with
        firstHostDataEvent := if s.firstHostDataReported then s.firstHostDataEvent else e
        firstHostDataReported := true
        withheldActive := false }.append e
    else s
  t.rearmNotifications

/-- `bladerf2_rx_data_note_first_packet_at_locked`; `now` is read for a packet
of the wrong lanes only. -/
def noteFirstPacketAt (m : RxPacketMeta) (layout : RxLayout) (admissionNs now : ℕ) : RxNotify :=
  if !s.packetCertified m layout then s
  else if !s.packetSelected layout then s.selectionWithheld m now
  else if s.packetLate admissionNs then s.failFirstHostData .timeout
  else s.packetAdmitted m layout admissionNs

/-- The packets that `bladerf2_rx_transition_note_first_packet_at` notes. -/
def notesPacket (m : RxPacketMeta) (admissionNs : ℕ) : Bool :=
  admissionNs ≠ 0 ∧ s.epochCertified ∧ m.epochIdValid ∧ m.epochId = s.certifiedEpochId ∧
    metadataTimestampAtOrAfter m.timestamp s.firstValidTimestamp

/-- `bladerf2_rx_transition_note_first_packet_at`, the entry of the sync
reader. -/
def transitionNoteFirstPacketAt (m : RxPacketMeta) (layout : RxLayout) (admissionNs now : ℕ) :
    RxNotify :=
  if s.notesPacket m admissionNs then s.noteFirstPacketAt m layout admissionNs now else s

end RxNotify
end BladeRF
