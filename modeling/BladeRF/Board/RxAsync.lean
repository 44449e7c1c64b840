/-
# `Board.RxAsync` — the admission of async RX transfers

`bladerf2_rx_async_buffer_valid` takes a snapshot of the certificate in one
section of `rx_async_epoch_lock`, judges the whole transfer outside, and commits
in a second section; every refusal notifies in a section of its own.  The other
sections of the board may come between any two of these.

What makes this safe is that the certificate comes back only through
`bladerf2_rx_epoch_admission_prepare`, which forgets the cursor.  So a commit
that still finds the certificate of the snapshot finds the cursor of the
snapshot too, unless the very same pair of epoch and first timestamp was issued
again.
-/
import BladeRF.Board.RxAlternation
import BladeRF.Board.SampleFormat
import Mathlib.Data.List.Chain

namespace BladeRF

/-! ## One call -/

def BladerfFormat.code : BladerfFormat → BitVec 32
  | .sc16Q11 => 0
  | .sc16Q11Packed => 1
  | .sc16Q11Meta => 2
  | .packetMeta => 3
  | .sc8Q7 => 4
  | .sc8Q7Meta => 5

def RxLayout.code : RxLayout → BitVec 32
  | .x1 => 0
  | .x2 => 2
  | .other => 1

structure RxAsyncCall where
  layout : RxLayout
  format : BladerfFormat
  buffer : MetaBuffer

structure RxAsyncSnapshot where
  contractEnabled : Bool
  epochValid : Bool
  epochId : BitVec 8
  transitionEpochId : BitVec 8
  transactionId : BitVec 32
  firstValidTimestamp : BitVec 64
  haveExpectedTimestamp : Bool
  expectedTimestamp : BitVec 64

inductive RxAsyncNotice
  | format (format : BladerfFormat)
  | layout (layout : RxLayout)
  | withheld (reason : WithheldReason) (source : Option RxSource)
  | discontinuity (expectedEpochId : BitVec 8) (timestamp : BitVec 64)

def rxFirstHostDataAdmissible (required alreadyReported : Bool) (deadlineNs nowNs : ℕ) : Bool :=
  !required || alreadyReported || decide (deadlineNs ≠ 0 ∧ nowNs ≠ 0 ∧ nowNs < deadlineNs)

def rxLayoutSatisfiesTransition (requireRxX2 : Bool) (layout : RxLayout) : Bool :=
  !requireRxX2 || layout = .x2

/-- `bladerf2_rx_async_note_withheld_source`. -/
def rxAsyncWithheldSource (reason : WithheldReason) (b : MetaBuffer) (messageSize : ℕ) :
    RxAsyncNotice :=
  if metadataHeaderSize ≤ b.length ∧ metadataHeaderSize ≤ messageSize then
    .withheld reason ((metadataGetRxEpochId (b.header 0)).map fun epochId =>
      ⟨epochId, (b.header 0).timestamp, true⟩)
  else .withheld reason none

namespace RxAsyncCall

variable (c : RxAsyncCall)

def timestampStep (messageSize : ℕ) : BitVec 64 :=
  let step := (messageSize - metadataHeaderSize) / c.format.bytesPerSample
  BitVec.ofNat 64 (if c.layout = .x2 then step / 2 else step)

def firstPacket (epochId : BitVec 8) : RxPacketMeta where
  timestamp := (c.buffer.header 0).timestamp
  status := 0
  actualCount := c.buffer.length / c.format.bytesPerSample
  epochIdValid := true
  epochId := epochId

/-- `first_packet.rx_clipping_flags`. -/
def clippingFlags (messageSize : ℕ) : BitVec 8 :=
  (c.buffer.messages messageSize).foldl (fun flags m => flags ||| metadataGetRxClippingFlags m) 0

end RxAsyncCall

namespace RxNotify

variable (s : RxNotify)

def asyncSnapshot : RxAsyncSnapshot where
  contractEnabled := s.epochContractEnabled
  epochValid := s.epochCertified
  epochId := s.certifiedEpochId
  transitionEpochId := s.epochId
  transactionId := s.currentId
  firstValidTimestamp := s.firstValidTimestamp
  haveExpectedTimestamp := s.haveExpectedTimestamp && s.timestampEpochId = s.certifiedEpochId
  expectedTimestamp := s.expectedTimestamp

/-- `metadata_rx_uncertified_snapshot_is_current`, and the section that asks for
it. -/
def asyncUncertified (snap : RxAsyncSnapshot) : RxNotify :=
  if !s.epochCertified ∧ snap.transactionId = s.currentId ∧ snap.transitionEpochId = s.epochId then
    s.run (.commitCursor false s.timestampEpochId s.expectedTimestamp)
  else s

/-- `metadata_rx_epoch_snapshot_is_current`. -/
def snapshotIsCurrent (snap : RxAsyncSnapshot) : Bool :=
  snap.contractEnabled ∧ snap.epochValid ∧ s.epochContractEnabled ∧ s.epochCertified ∧
    snap.epochId = s.certifiedEpochId ∧ snap.firstValidTimestamp = s.firstValidTimestamp

/-- `metadata_rx_epoch_commit_timestamp`. -/
def commitTimestamp (snap : RxAsyncSnapshot) (next : BitVec 64) : Option RxNotify :=
  if s.snapshotIsCurrent snap then some (s.run (.commitCursor true snap.epochId next)) else none

/-- `bladerf2_rx_layout_unsupported`, with an active requirement. -/
def layoutUnsupported (layout : RxLayout) (now : ℕ) : RxNotify :=
  let t := if s.rxX2HostDataRequired then s.failFirstHostData .unsupported else s
  t.append { RxEvent.zero with
    hostMonotonicNs := now
    transactionId := if s.rxX2HostDataRequired then s.currentId else 0
    epochId :=
      if s.rxX2HostDataRequired ∧ s.epochCertified ∧
          s.certifiedEpochEvent.transactionId = s.currentId then s.certifiedEpochId.setWidth 32
      else 0
    fpgaState := .dataInvalid
    flags := layout.code ||| s.channelFlags
    errorCode := .unsupported }

def asyncNotice (now now' : ℕ) : RxAsyncNotice → RxNotify
  | .format format => s.run (.formatUnsupported format.code true now)
  | .layout layout => s.layoutUnsupported layout now
  | .withheld reason source => s.run (.withheld reason source now)
  | .discontinuity expectedEpochId timestamp =>
      s.run (.discontinuity expectedEpochId timestamp now now')

/-- `bladerf2_rx_report_clipping`. -/
def reportClipping (m : RxPacketMeta) (clippingFlags : BitVec 8) (now : ℕ) : RxNotify :=
  let observed := clippingFlags &&& 3 &&& ~~~s.rxClippingReported
  if m.epochIdValid ∧ s.epochContractEnabled ∧ s.epochCertified ∧ s.certifiedEpochId = m.epochId ∧
      observed ≠ 0 then
    { s with rxClippingReported := s.rxClippingReported ||| observed }.append
      { RxEvent.zero with
        hostMonotonicNs := now
        fpgaTimestamp := m.timestamp
        transactionId := s.certifiedEpochEvent.transactionId
        epochId := m.epochId.setWidth 32
        requestedHz := s.certifiedEpochEvent.requestedHz
        readbackHz := s.certifiedEpochEvent.readbackHz
        flags := bladerfRfEventFFpgaTimestampValid |||
          (if observed &&& 1 = 0 then 0 else bladerfRfEventFRxClippingRx1) |||
          if observed &&& 2 = 0 then 0 else bladerfRfEventFRxClippingRx2 }
  else s

/-- The commit of a contiguous transfer: no notice is an admission. -/
def asyncCommit (messageSize : ℕ) (c : RxAsyncCall) (snap : RxAsyncSnapshot) (next : BitVec 64)
    (clock : Option ℕ) (now later : ℕ) : RxNotify × Option RxAsyncNotice :=
  let nowNs := clock.getD 0
  if !rxLayoutSatisfiesTransition s.rxX2HostDataRequired c.layout then
    (s.failFirstHostData .unsupported, some (.layout c.layout))
  else if !rxFirstHostDataAdmissible s.firstHostDataRequired s.firstHostDataReported
      s.firstHostDataDeadlineNs nowNs then
    (s, some (rxAsyncWithheldSource .epochUncertified c.buffer messageSize))
  else if !rxLayoutMatchesChannelMask c.layout s.currentChannel s.channelEnableMaskValid
      s.channelEnableMask then
    (s.failFirstHostData .unsupported,
      some (.withheld .rxChannelSelection
        (some ⟨snap.epochId, (c.buffer.header 0).timestamp, true⟩)))
  else
    match s.commitTimestamp snap next with
    | none => (s, some (rxAsyncWithheldSource .epochUncertified c.buffer messageSize))
    | some t =>
        (t.rearmNotifications.noteFirstPacketAt (c.firstPacket snap.epochId) c.layout
          (if nowNs ≠ 0 then nowNs else now) later, none)

/-- The commit of a transfer behind a gap: the cursor moves to its end, and it
is withheld. -/
def asyncRebase (messageSize : ℕ) (c : RxAsyncCall) (snap : RxAsyncSnapshot) (next : BitVec 64) :
    RxNotify × RxAsyncNotice :=
  match s.commitTimestamp snap next with
  | none => (s, rxAsyncWithheldSource .epochUncertified c.buffer messageSize)
  | some t => (t, .discontinuity snap.epochId snap.expectedTimestamp)

end RxNotify

inductive RxAsyncPc
  | idle
  /-- before the section of an uncertified interval -/
  | uncertified (c : RxAsyncCall) (snap : RxAsyncSnapshot)
  /-- `METADATA_RX_BUFFER_CONTIGUOUS` -/
  | commit (c : RxAsyncCall) (snap : RxAsyncSnapshot) (next : BitVec 64)
  /-- `METADATA_RX_BUFFER_DISCONTINUITY` -/
  | rebase (c : RxAsyncCall) (snap : RxAsyncSnapshot) (next : BitVec 64)
  /-- refused, and not announced yet -/
  | notice (n : RxAsyncNotice)
  /-- admitted -/
  | clipping (m : RxPacketMeta) (flags : BitVec 8)

namespace RxAsyncPc

def snapshot? : RxAsyncPc → Option RxAsyncSnapshot
  | .uncertified _ snap | .commit _ snap _ | .rebase _ snap _ => some snap
  | _ => none

def open? : RxAsyncPc → Bool
  | .notice _ => false
  | _ => true

end RxAsyncPc

def RxAsyncCall.check (c : RxAsyncCall) (messageSize : ℕ) (snap : RxAsyncSnapshot) : RxAsyncPc :=
  if !c.format.isSampleMeta then .notice (.format c.format)
  else if !snap.epochValid then .uncertified c snap
  else if messageSize ≤ metadataHeaderSize ∨ c.format.bytesPerSample = 0 then
    .notice (.format c.format)
  else
    match metadataRxBufferEpochContiguous c.buffer messageSize snap.epochId
        snap.firstValidTimestamp snap.haveExpectedTimestamp snap.expectedTimestamp
        (c.timestampStep messageSize) with
    | .contiguous next => .commit c snap next
    | .discontinuity next => .rebase c snap next
    | .invalid =>
        .notice (.withheld .epochOrTimestampMismatch
          ((metadataRxBufferInvalidSource c.buffer messageSize snap.epochId
            snap.firstValidTimestamp).map fun source => ⟨source.1, source.2, true⟩))

/-! ## Runs -/

structure RxCertificate where
  epochId : BitVec 8
  firstValidTimestamp : BitVec 64

def RxNotify.certificate (s : RxNotify) : RxCertificate :=
  ⟨s.certifiedEpochId, s.firstValidTimestamp⟩

def RxAsyncSnapshot.certificate (snap : RxAsyncSnapshot) : RxCertificate :=
  ⟨snap.epochId, snap.firstValidTimestamp⟩

/-- An admitted transfer: the certificate it was checked against and the one in
force when it was committed, each with its place among those issued. -/
structure RxAdmitted where
  checkedAt : ℕ
  checked : RxCertificate
  admittedAt : ℕ
  certificate : RxCertificate
  step : BitVec 64
  messages : List MetaHeader

inductive RxVerdict
  | admitted (a : RxAdmitted)
  | withheld
  /-- admitted while no epoch is required -/
  | unchecked

structure RxAsync where
  board : RxNotify
  messageSize : ℕ
  pc : RxAsyncPc
  /-- the place of the certificate at the last snapshot -/
  checkedAt : ℕ
  certificates : List RxCertificate
  log : List RxVerdict

inductive RxAsyncLabel
  /-- a call, up to the section that follows its snapshot -/
  | call (layout : RxLayout) (format : BladerfFormat) (buffer : Option MetaBuffer)
  | resume (clock : Option ℕ) (now later : ℕ)
  | other (c : RxNotifySection)

/-- The cursor of the async stream is written by its calls only. -/
def RxNotifySection.movesCursor : RxNotifySection → Bool
  | .commitCursor _ _ _ => true
  | _ => false

def RxNotify.issued (s : RxNotify) : RxNotifySection → List RxCertificate
  | .prepare e deadlineNs clock₁ clock₂ now =>
      let r := s.epochAdmissionPrepare e deadlineNs clock₁ clock₂ now
      if r.2 = .ok then [r.1.certificate] else []
  | _ => []

namespace RxAsync

variable (s : RxAsync)

def newest : ℕ := s.certificates.length - 1

/-- `return`. -/
def conclude (pc : RxAsyncPc) (v : RxVerdict) : RxAsync := { s with pc := pc, log := s.log ++ [v] }

/-- The first section of a call, and what follows it outside the lock. -/
def begin (layout : RxLayout) (format : BladerfFormat) (buffer : Option MetaBuffer) : RxAsync :=
  if layout = .other then s
  else
    match buffer with
    | none => s.conclude .idle .withheld
    | some buffer =>
        let c : RxAsyncCall := ⟨layout, format, buffer⟩
        if !s.board.asyncSnapshot.contractEnabled then s.conclude .idle .unchecked
        else { s with
          pc := c.check s.messageSize s.board.asyncSnapshot
          checkedAt := s.newest }

def admission (c : RxAsyncCall) (snap : RxAsyncSnapshot) : RxAdmitted where
  checkedAt := s.checkedAt
  checked := snap.certificate
  admittedAt := s.newest
  certificate := s.board.certificate
  step := c.timestampStep s.messageSize
  messages := c.buffer.messages s.messageSize

def resume (clock : Option ℕ) (now later : ℕ) : Option RxAsync :=
  match s.pc with
  | .idle => none
  | .uncertified c snap =>
      some { s with
        board := s.board.asyncUncertified snap
        pc := .notice (rxAsyncWithheldSource .epochUncertified c.buffer s.messageSize) }
  | .commit c snap next =>
      match s.board.asyncCommit s.messageSize c snap next clock now later with
      | (t, some n) => some { s with board := t, pc := .notice n }
      | (t, none) =>
          some ({ s with board := t }.conclude
            (.clipping (c.firstPacket snap.epochId) (c.clippingFlags s.messageSize))
            (.admitted (s.admission c snap)))
  | .rebase c snap next =>
      let r := s.board.asyncRebase s.messageSize c snap next
      some { s with board := r.1, pc := .notice r.2 }
  | .notice n => some ({ s with board := s.board.asyncNotice now later n }.conclude .idle .withheld)
  | .clipping m flags => some { s with board := s.board.reportClipping m flags now, pc := .idle }

def step (s : RxAsync) : RxAsyncLabel → Option RxAsync
  | .call layout format buffer =>
      match s.pc with
      | .idle => some (s.begin layout format buffer)
      | _ => none
  | .resume clock now later => s.resume clock now later
  | .other c =>
      if c.movesCursor then none
      else some { s with
        board := s.board.run c
        certificates := s.certificates ++ s.board.issued c }

def start (board : RxNotify) (messageSize : ℕ) : RxAsync := ⟨board, messageSize, .idle, 0, [], []⟩

end RxAsync

/-! ## What admission is judged by -/

structure RxCursor where
  known : Bool
  epochId : BitVec 8
  expected : BitVec 64

structure RxGate where
  contractEnabled : Bool
  certified : Bool
  certificate : RxCertificate
  cursor : RxCursor

namespace RxNotify

def cursor (s : RxNotify) : RxCursor :=
  ⟨s.haveExpectedTimestamp, s.timestampEpochId, s.expectedTimestamp⟩

def gate (s : RxNotify) : RxGate :=
  ⟨s.epochContractEnabled, s.epochCertified, s.certificate, s.cursor⟩

section
variable {s : RxNotify}

/-! ### Notices leave the gate alone -/

@[simp] theorem append_gate (e : RxEvent) : (s.append e).gate = s.gate := rfl

@[simp] theorem activate_gate (current : Bool) : (s.activate current).gate = s.gate := rfl

@[simp] theorem rearmNotifications_gate : s.rearmNotifications.gate = s.gate := rfl

@[simp] theorem failFirstHostData_gate (status : RetCode) :
    (s.failFirstHostData status).gate = s.gate := by
  simp only [failFirstHostData]
  split <;> rfl

@[simp] theorem rearmSource_gate (transactionId epochId : BitVec 32) :
    (s.rearmSource transactionId epochId).gate = s.gate := by
  simp only [rearmSource]
  split <;> rfl

@[simp] theorem rearmFormat_gate : s.rearmFormat.gate = s.gate := by
  simp only [rearmFormat]
  split <;> rfl

@[simp] theorem dataWithheld_gate (reason : WithheldReason) (source : Option RxSource) (now : ℕ) :
    (s.dataWithheld reason source now).gate = s.gate := by
  have hreasons : ∀ (t : RxNotify) (reasons : BitVec 32),
      { t with withheldReportedReasons := reasons }.gate = t.gate := fun _ _ => rfl
  simp only [dataWithheld]
  split
  · simp only [append_gate, activate_gate, rearmSource_gate]
  · split
    · simp only [append_gate, hreasons, activate_gate, rearmSource_gate]
    · simp only [activate_gate, rearmSource_gate]

@[simp] theorem asyncTimestampDiscontinuity_gate (expectedEpochId : BitVec 8)
    (timestamp : BitVec 64) (now now' : ℕ) :
    (s.asyncTimestampDiscontinuity expectedEpochId timestamp now now').gate = s.gate := by
  have hreported : ∀ (t : RxNotify) (reported : Bool),
      { t with timestampDiscontinuityReported := reported }.gate = t.gate := fun _ _ => rfl
  simp only [asyncTimestampDiscontinuity]
  split
  · simp only [append_gate, activate_gate, hreported, rearmSource_gate]
  · exact rearmSource_gate _ _

@[simp] theorem formatUnsupported_gate (format : BitVec 32) (deduplicate : Bool) (now : ℕ) :
    (s.formatUnsupported format deduplicate now).gate = s.gate := by
  have hreported : ∀ (t : RxNotify) (reported : Bool),
      { t with formatUnsupportedReported := reported }.gate = t.gate := fun _ _ => rfl
  simp only [formatUnsupported]
  split
  · split
    · simp only [append_gate, activate_gate, hreported, failFirstHostData_gate, rearmFormat_gate]
    · simp only [append_gate, failFirstHostData_gate, rearmFormat_gate]
  · exact rearmFormat_gate

@[simp] theorem layoutUnsupported_gate (layout : RxLayout) (now : ℕ) :
    (s.layoutUnsupported layout now).gate = s.gate := by
  simp only [layoutUnsupported, append_gate]
  split
  · exact failFirstHostData_gate _
  · rfl

@[simp] theorem asyncNotice_gate (now now' : ℕ) (n : RxAsyncNotice) :
    (s.asyncNotice now now' n).gate = s.gate := by
  cases n with
  | format format => exact formatUnsupported_gate _ _ _
  | layout layout => exact layoutUnsupported_gate layout now
  | withheld reason source => exact dataWithheld_gate reason source now
  | discontinuity expectedEpochId timestamp => exact asyncTimestampDiscontinuity_gate _ _ _ _

variable (m : RxPacketMeta)

@[simp] theorem reportClipping_gate (clippingFlags : BitVec 8) (now : ℕ) :
    (s.reportClipping m clippingFlags now).gate = s.gate := by
  simp only [reportClipping]
  split <;> rfl

@[simp] theorem packetAdmitted_gate (layout : RxLayout) (admissionNs : ℕ) :
    (s.packetAdmitted m layout admissionNs).gate = s.gate := by
  simp only [packetAdmitted, rearmNotifications_gate]
  split <;> rfl

@[simp] theorem selectionWithheld_gate (now : ℕ) :
    (s.selectionWithheld m now).gate = s.gate := by
  have hreasons : ∀ (t : RxNotify) (reasons : BitVec 32) (active : Bool),
      { t with withheldReportedReasons := reasons, withheldActive := active }.gate = t.gate :=
    fun _ _ _ => rfl
  simp only [selectionWithheld]
  split
  · simp only [append_gate, hreasons, failFirstHostData_gate]
  · exact failFirstHostData_gate _

@[simp] theorem noteFirstPacketAt_gate (layout : RxLayout)
    (admissionNs now : ℕ) : (s.noteFirstPacketAt m layout admissionNs now).gate = s.gate := by
  simp only [noteFirstPacketAt]
  split
  · rfl
  · split
    · exact selectionWithheld_gate m now
    · split
      · exact failFirstHostData_gate _
      · exact packetAdmitted_gate m layout admissionNs

@[simp] theorem transitionNoteFirstPacketAt_gate (layout : RxLayout) (admissionNs now : ℕ) :
    (s.transitionNoteFirstPacketAt m layout admissionNs now).gate = s.gate := by
  simp only [transitionNoteFirstPacketAt]
  split
  · exact noteFirstPacketAt_gate m layout admissionNs now
  · rfl

end
end RxNotify

/-! ### Other threads -/

/-- What a section that issues no certificate may do: a certificate in force
afterwards was in force before, with the same cursor. -/
structure RxGate.Weakens (g g' : RxGate) : Prop where
  contract : g.contractEnabled = true → g'.contractEnabled = true
  certified : g'.certified = true →
    g.certified = true ∧ g'.certificate = g.certificate ∧ g'.cursor = g.cursor

namespace RxGate.Weakens

variable {g g' : RxGate}

theorem of_eq (h : g' = g) : Weakens g g' := by
  subst h
  exact ⟨id, fun hc => ⟨hc, rfl, rfl⟩⟩

theorem revoked (hcontract : g'.contractEnabled = g.contractEnabled)
    (h : g'.certified = false) : Weakens g g' where
  contract hc := hcontract.trans hc
  certified hc := absurd (h.symm.trans hc) (by decide)

end RxGate.Weakens

namespace RxNotify

variable {s : RxNotify}

structure Issues (s t : RxNotify) (cert : RxCertificate) : Prop where
  contract : s.epochContractEnabled = true
  kept : t.epochContractEnabled = true
  certified : t.epochCertified = true
  certificate : t.certificate = cert
  unknown : t.haveExpectedTimestamp = false

theorem run_gate (c : RxNotifySection) (hc : c.movesCursor = false) :
    (∃ cert, s.issued c = [cert] ∧ s.Issues (s.run c) cert) ∨
      s.issued c = [] ∧ s.gate.Weakens (s.run c).gate := by
  have hkeep : s.issued c = [] → (s.run c).gate = s.gate →
      (∃ cert, s.issued c = [cert] ∧ s.Issues (s.run c) cert) ∨
        s.issued c = [] ∧ s.gate.Weakens (s.run c).gate :=
    fun h₁ h₂ => .inr ⟨h₁, .of_eq h₂⟩
  cases c with
  | prepare e deadlineNs clock₁ clock₂ now =>
      rcases s.epochAdmissionPrepare_cases e deadlineNs clock₁ clock₂ now with
        ⟨status, hstatus, heq⟩ | ⟨-, hcontract, heq⟩
      · refine hkeep ?_ ?_
        · simp [issued, heq, hstatus]
        · simp [run, heq]
      · refine .inl ⟨(s.commitCertificate e now).certificate, ?_, ?_⟩
        · simp [issued, heq]
        · simp only [run, heq]
          exact ⟨hcontract, hcontract, rfl, rfl, rfl⟩
  | revoke => exact .inr ⟨rfl, .revoked rfl rfl⟩
  | revokeFailed status =>
      refine .inr ⟨rfl, ?_⟩
      simp only [run, revokeFailedTransitionAdmission]
      split
      · exact .revoked rfl rfl
      · exact .revoked rfl rfl
  | transitionEvent e =>
      refine .inr ⟨rfl, ?_⟩
      simp only [run, transitionEvent]
      split
      · exact .revoked rfl rfl
      · split
        · exact .revoked rfl rfl
        · exact .of_eq rfl
  | allocate id channel x2Required epochRequired firstDataRequired =>
      refine .inr ⟨rfl, ?_⟩
      simp only [run, allocate]
      split
      · exact ⟨fun _ => rfl, fun h => ⟨h, rfl, rfl⟩⟩
      · exact .of_eq rfl
  | setEpochId epochId => exact hkeep rfl rfl
  | setDeadline deadlineNs => exact hkeep rfl rfl
  | failHostData status => exact hkeep rfl (failFirstHostData_gate status)
  | withheld reason source now => exact hkeep rfl (dataWithheld_gate reason source now)
  | withheldReset => exact hkeep rfl rfl
  | notePacket m layout admissionNs now =>
      exact hkeep rfl (noteFirstPacketAt_gate m layout admissionNs now)
  | syncNotePacket m layout admissionNs now =>
      exact hkeep rfl (transitionNoteFirstPacketAt_gate m layout admissionNs now)
  | discontinuity expectedEpochId timestamp now now' =>
      exact hkeep rfl (asyncTimestampDiscontinuity_gate expectedEpochId timestamp now now')
  | asyncOverrun now => exact hkeep rfl rfl
  | overrun sourceFlags source now => exact hkeep rfl rfl
  | workerOverrun sourceFlags now =>
      refine hkeep rfl ?_
      simp only [run, workerStreamOverrun]
      split <;> rfl
  | fpgaLoss e =>
      refine hkeep rfl ?_
      simp only [run, publishRxFpgaLossEvent]
      split <;> rfl
  | formatUnsupported format deduplicate now =>
      exact hkeep rfl (formatUnsupported_gate format deduplicate now)
  | channelMask mask => cases mask <;> exact hkeep rfl rfl
  | commitCursor valid epochId expected => cases hc
  | event e => exact hkeep rfl rfl

/-! ### The calls -/

theorem snapshotIsCurrent_spec {snap : RxAsyncSnapshot} (h : s.snapshotIsCurrent snap = true) :
    s.epochContractEnabled = true ∧ s.epochCertified = true ∧
      s.certificate = snap.certificate := by
  obtain ⟨-, -, hcontract, hcertified, hepoch, hfirst⟩ := of_decide_eq_true h
  refine ⟨hcontract, hcertified, ?_⟩
  simp only [certificate, RxAsyncSnapshot.certificate, hepoch, hfirst]

theorem commitTimestamp_cases {snap : RxAsyncSnapshot} {next : BitVec 64} {t : RxNotify}
    (h : s.commitTimestamp snap next = some t) :
    s.snapshotIsCurrent snap = true ∧
      t.gate = { s.gate with cursor := ⟨true, snap.epochId, next⟩ } := by
  simp only [commitTimestamp] at h
  split at h
  · rename_i hcurrent
    obtain rfl := Option.some.inj h
    exact ⟨hcurrent, rfl⟩
  · cases h

theorem asyncCommit_cases {messageSize : ℕ} {c : RxAsyncCall} {snap : RxAsyncSnapshot}
    {next : BitVec 64} {clock : Option ℕ} {now later : ℕ} {t : RxNotify} {n : Option RxAsyncNotice}
    (h : s.asyncCommit messageSize c snap next clock now later = (t, n)) :
    n.isSome = true ∧ t.gate = s.gate ∨
      n = none ∧ s.snapshotIsCurrent snap = true ∧
        t.gate = { s.gate with cursor := ⟨true, snap.epochId, next⟩ } := by
  simp only [asyncCommit] at h
  split at h
  · obtain ⟨rfl, rfl⟩ := Prod.mk.inj h
    exact .inl ⟨rfl, failFirstHostData_gate _⟩
  · split at h
    · obtain ⟨rfl, rfl⟩ := Prod.mk.inj h
      exact .inl ⟨rfl, rfl⟩
    · split at h
      · obtain ⟨rfl, rfl⟩ := Prod.mk.inj h
        exact .inl ⟨rfl, failFirstHostData_gate _⟩
      · split at h
        · obtain ⟨rfl, rfl⟩ := Prod.mk.inj h
          exact .inl ⟨rfl, rfl⟩
        · rename_i u hu
          obtain ⟨rfl, rfl⟩ := Prod.mk.inj h
          obtain ⟨hcurrent, hgate⟩ := commitTimestamp_cases hu
          exact .inr ⟨rfl, hcurrent, by simpa using hgate⟩

theorem asyncRebase_cases (messageSize : ℕ) (c : RxAsyncCall) (snap : RxAsyncSnapshot)
    (next : BitVec 64) :
    (s.asyncRebase messageSize c snap next).1.gate = s.gate ∨
      s.snapshotIsCurrent snap = true ∧
        (s.asyncRebase messageSize c snap next).1.gate =
          { s.gate with cursor := ⟨true, snap.epochId, next⟩ } := by
  simp only [asyncRebase]
  split
  · exact .inl rfl
  · rename_i t ht
    exact .inr (commitTimestamp_cases ht)

theorem asyncUncertified_cases (snap : RxAsyncSnapshot) :
    s.asyncUncertified snap = s ∨
      s.epochCertified = false ∧
        (s.asyncUncertified snap).gate =
          { s.gate with cursor := { s.cursor with known := false } } := by
  simp only [asyncUncertified]
  split
  · rename_i h
    exact .inr ⟨by simpa using h.1, rfl⟩
  · exact .inl rfl

end RxNotify

/-! ### The next section of a call -/

/-- What the next section of a call does.  The gate moves by the cursor only,
and only where a certificate of the snapshot is in force, or none. -/
inductive RxAsync.Section (s : RxAsync) : RxAsync → Prop
  | refused {t : RxNotify} {cursor : RxCursor} (n : RxAsyncNotice) :
      t.gate = { s.board.gate with cursor } →
      (cursor = s.board.cursor ∨ s.board.epochCertified = false ∨
        ∃ snap, s.pc.snapshot? = some snap ∧ s.board.snapshotIsCurrent snap = true) →
      Section s { s with board := t, pc := .notice n }
  | admitted {t : RxNotify} {c : RxAsyncCall} {snap : RxAsyncSnapshot} {next : BitVec 64}
      (m : RxPacketMeta) (flags : BitVec 8) :
      s.pc = .commit c snap next → s.board.snapshotIsCurrent snap = true →
      t.gate = { s.board.gate with cursor := ⟨true, snap.epochId, next⟩ } →
      Section s ({ s with board := t }.conclude (.clipping m flags)
        (.admitted (s.admission c snap)))
  | announced {t : RxNotify} : t.gate = s.board.gate →
      Section s ({ s with board := t }.conclude .idle .withheld)
  | settled {t : RxNotify} : s.pc.open? = true → t.gate = s.board.gate →
      Section s { s with board := t, pc := .idle }

theorem RxAsync.resume_cases {s u : RxAsync} {clock : Option ℕ} {now later : ℕ}
    (hs : s.resume clock now later = some u) : s.Section u := by
  simp only [RxAsync.resume] at hs
  cases hpc : s.pc with
  | idle =>
      rw [hpc] at hs
      cases hs
  | uncertified c snap =>
      simp only [hpc] at hs
      obtain rfl := Option.some.inj hs
      rcases s.board.asyncUncertified_cases snap with heq | ⟨hoff, hgate⟩
      · exact .refused _ (by rw [heq]; rfl) (.inl rfl)
      · exact .refused _ hgate (.inr (.inl hoff))
  | commit c snap next =>
      simp only [hpc] at hs
      split at hs
      · rename_i t n hcommit
        obtain rfl := Option.some.inj hs
        rcases RxNotify.asyncCommit_cases hcommit with ⟨-, hgate⟩ | ⟨hnone, -⟩
        · exact .refused n hgate (.inl rfl)
        · cases hnone
      · rename_i t hcommit
        obtain rfl := Option.some.inj hs
        rcases RxNotify.asyncCommit_cases hcommit with ⟨hsome, -⟩ | ⟨-, hcurrent, hgate⟩
        · cases hsome
        · exact .admitted _ _ hpc hcurrent hgate
  | rebase c snap next =>
      simp only [hpc] at hs
      obtain rfl := Option.some.inj hs
      rcases s.board.asyncRebase_cases s.messageSize c snap next with hgate | ⟨hcurrent, hgate⟩
      · exact .refused _ hgate (.inl rfl)
      · exact .refused _ hgate (.inr (.inr ⟨snap, by rw [hpc]; rfl, hcurrent⟩))
  | notice n =>
      simp only [hpc] at hs
      obtain rfl := Option.some.inj hs
      exact .announced (RxNotify.asyncNotice_gate now later n)
  | clipping m flags =>
      simp only [hpc] at hs
      obtain rfl := Option.some.inj hs
      exact .settled (by rw [hpc]; rfl) (RxNotify.reportClipping_gate m flags now)

/-! ## The invariant -/

namespace RxAdmitted

def next (a : RxAdmitted) : Option (BitVec 64) := nextTimestamp a.step a.messages

def first (a : RxAdmitted) : Option (BitVec 64) := firstTimestamp a.messages

/-- What an admitted transfer has to be, by the certificates issued so far. -/
structure Valid (a : RxAdmitted) (certificates : List RxCertificate) : Prop where
  checked : certificates[a.checkedAt]? = some a.checked
  admitted : certificates[a.admittedAt]? = some a.certificate
  unchanged : a.checked = a.certificate
  messages : MessagesContiguous a.certificate.epochId a.certificate.firstValidTimestamp a.step
    a.messages

variable {a : RxAdmitted} {certificates : List RxCertificate}

theorem place_append {i : ℕ} {cert : RxCertificate} (h : certificates[i]? = some cert)
    (new : List RxCertificate) : (certificates ++ new)[i]? = some cert := by
  obtain ⟨hlt, -⟩ := List.getElem?_eq_some_iff.mp h
  rw [List.getElem?_append_left hlt, h]

theorem Valid.append (h : a.Valid certificates) (new : List RxCertificate) :
    a.Valid (certificates ++ new) where
  checked := place_append h.checked new
  admitted := place_append h.admitted new
  unchanged := h.unchanged
  messages := h.messages

theorem Valid.lt_length (h : a.Valid certificates) : a.admittedAt < certificates.length :=
  (List.getElem?_eq_some_iff.mp h.admitted).1

theorem place_unique {i j : ℕ} {cert : RxCertificate} (hnodup : certificates.Nodup)
    (hi : certificates[i]? = some cert) (hj : certificates[j]? = some cert) : i = j := by
  obtain ⟨hlt, -⟩ := List.getElem?_eq_some_iff.mp hi
  exact (List.getElem?_inj hlt hnodup).mp (hi.trans hj.symm)

theorem Valid.same_place (h : a.Valid certificates) (hnodup : certificates.Nodup) :
    a.checkedAt = a.admittedAt :=
  place_unique hnodup h.checked (h.unchanged ▸ h.admitted)

end RxAdmitted

def RxVerdict.Follows : RxVerdict → RxVerdict → Prop
  | .admitted a, .admitted b => a.admittedAt = b.admittedAt → b.first = a.next
  | .admitted _, .unchecked => False
  | _, _ => True

/-- A transfer that was found contiguous and is not committed yet. -/
structure RxAsync.Waiting (s : RxAsync) (c : RxAsyncCall) (snap : RxAsyncSnapshot)
    (next : BitVec 64) : Prop where
  epochValid : snap.epochValid = true
  messages : MessagesContiguous snap.epochId snap.firstValidTimestamp
    (c.timestampStep s.messageSize) (c.buffer.messages s.messageSize)
  ends : some next = nextTimestamp (c.timestampStep s.messageSize)
    (c.buffer.messages s.messageSize)
  /-- it continues what was admitted under the certificate of the snapshot -/
  continues : ∀ a, s.log.getLast? = some (.admitted a) → a.admittedAt ≤ s.checkedAt ∧
    (a.admittedAt = s.checkedAt → firstTimestamp (c.buffer.messages s.messageSize) = a.next)

structure RxAsync.Sound (s : RxAsync) : Prop where
  newest : s.board.gate.certified = true →
    s.certificates[s.newest]? = some s.board.gate.certificate
  contract : ∀ a, .admitted a ∈ s.log → s.board.gate.contractEnabled = true
  valid : ∀ a, .admitted a ∈ s.log → a.Valid s.certificates
  follows : s.log.IsChain RxVerdict.Follows
  /-- the cursor stands behind the last transfer of the certificate in force -/
  cursor : s.pc.open? = true → s.board.gate.certified = true →
    ∀ a, s.log.getLast? = some (.admitted a) → a.admittedAt = s.newest →
      s.board.gate.cursor.known = true ∧ s.board.gate.cursor.epochId = a.certificate.epochId ∧
        some s.board.gate.cursor.expected = a.next
  snapshot : ∀ snap, s.pc.snapshot? = some snap → snap.epochValid = true →
    s.certificates[s.checkedAt]? = some snap.certificate
  waiting : ∀ c snap next, s.pc = .commit c snap next → s.Waiting c snap next

namespace RxAsync

variable {s : RxAsync} {t : RxNotify}

theorem follows_concat {log : List RxVerdict} {v : RxVerdict}
    (h : log.IsChain RxVerdict.Follows)
    (hlast : ∀ a, log.getLast? = some (.admitted a) → RxVerdict.Follows (.admitted a) v) :
    (log ++ [v]).IsChain RxVerdict.Follows := by
  refine List.isChain_append.mpr ⟨h, .singleton v, ?_⟩
  intro x hx y hy
  obtain rfl : v = y := by simpa using hy
  cases x with
  | admitted a => exact hlast a hx
  | withheld => exact trivial
  | unchecked => exact trivial

namespace Sound

theorem refuse (h : s.Sound) {cursor : RxCursor} (hgate : t.gate = { s.board.gate with cursor })
    (n : RxAsyncNotice) : Sound { s with board := t, pc := .notice n } where
  newest := by
    rw [hgate]
    exact h.newest
  contract := by
    rw [hgate]
    exact h.contract
  valid := h.valid
  follows := h.follows
  cursor hopen := by cases hopen
  snapshot snap hsnap := by cases hsnap
  waiting c snap next hpc := by cases hpc

theorem conclude (h : s.Sound) (hgate : t.gate = s.board.gate) {v : RxVerdict}
    (hv : ∀ a, v ≠ .admitted a)
    (hlast : ∀ a, s.log.getLast? = some (.admitted a) → RxVerdict.Follows (.admitted a) v) :
    Sound ({ s with board := t }.conclude .idle v) where
  newest := by
    simp only [RxAsync.conclude, hgate]
    exact h.newest
  contract a ha := by
    simp only [RxAsync.conclude, hgate]
    rcases List.mem_append.mp ha with ha | ha
    · exact h.contract a ha
    · exact absurd (List.mem_singleton.mp ha).symm (hv a)
  valid a ha := by
    rcases List.mem_append.mp ha with ha | ha
    · exact h.valid a ha
    · exact absurd (List.mem_singleton.mp ha).symm (hv a)
  follows := follows_concat h.follows hlast
  cursor _ _ a ha := by
    simp only [RxAsync.conclude, List.getLast?_append, List.getLast?_singleton,
      Option.some_or, Option.some.injEq] at ha
    exact absurd ha (hv a)
  snapshot snap hsnap := by cases hsnap
  waiting c snap next hpc := by cases hpc

theorem settle (h : s.Sound) (hopen : s.pc.open? = true) (hgate : t.gate = s.board.gate) :
    Sound { s with board := t, pc := .idle } where
  newest := by
    rw [hgate]
    exact h.newest
  contract := by
    rw [hgate]
    exact h.contract
  valid := h.valid
  follows := h.follows
  cursor _ := by
    rw [hgate]
    exact h.cursor hopen
  snapshot snap hsnap := by cases hsnap
  waiting c snap next hpc := by cases hpc

theorem admittedAt_le (h : s.Sound) {a : RxAdmitted}
    (ha : s.log.getLast? = some (.admitted a)) : a.admittedAt ≤ s.newest := by
  have hlt := (h.valid a (List.mem_of_getLast? ha)).lt_length
  exact Nat.le_sub_one_of_lt hlt

theorem snapshot_continues (h : s.Sound) (hopen : s.pc.open? = true)
    (hcert : s.board.epochCertified = true) {a : RxAdmitted}
    (ha : s.log.getLast? = some (.admitted a)) (hnew : a.admittedAt = s.newest) :
    s.board.asyncSnapshot.haveExpectedTimestamp = true ∧
      some s.board.asyncSnapshot.expectedTimestamp = a.next := by
  obtain ⟨hknown, hepoch, hnext⟩ := h.cursor hopen hcert a ha hnew
  have hcertificate : a.certificate = s.board.certificate := by
    have hadmitted := (h.valid a (List.mem_of_getLast? ha)).admitted
    rw [hnew, h.newest hcert] at hadmitted
    exact (Option.some.inj hadmitted).symm
  refine ⟨?_, hnext⟩
  have hcurrent : s.board.timestampEpochId = s.board.certifiedEpochId := by
    rw [hcertificate] at hepoch
    exact hepoch
  simp only [RxNotify.asyncSnapshot, hcurrent, decide_true, Bool.and_true]
  exact hknown

theorem check_waiting (h : s.Sound) (hopen : s.pc.open? = true) {c c' : RxAsyncCall}
    {snap : RxAsyncSnapshot} {next : BitVec 64}
    (hcheck : c.check s.messageSize s.board.asyncSnapshot = .commit c' snap next) :
    Waiting { s with pc := .commit c' snap next, checkedAt := s.newest } c' snap next := by
  simp only [RxAsyncCall.check] at hcheck
  split at hcheck
  · cases hcheck
  · split at hcheck
    · cases hcheck
    · rename_i hvalid
      have hsnap : s.board.asyncSnapshot.epochValid = true := by simpa using hvalid
      have hcert : s.board.epochCertified = true := hsnap
      split at hcheck
      · cases hcheck
      · split at hcheck
        · rename_i next' hscan
          obtain ⟨rfl, rfl, rfl⟩ := RxAsyncPc.commit.inj hcheck
          obtain ⟨hmessages, hfirst, hends⟩ := epochContiguous_contiguous hscan
          refine ⟨hcert, hmessages, hends, ?_⟩
          intro a ha
          refine ⟨h.admittedAt_le ha, ?_⟩
          intro hnew
          obtain ⟨hknown, hnext⟩ := h.snapshot_continues hopen hcert ha hnew
          rw [← hnext]
          exact hfirst hknown
        · cases hcheck
        · cases hcheck

theorem check_snapshot {c : RxAsyncCall} {messageSize : ℕ} {snap snap' : RxAsyncSnapshot}
    (hcheck : (c.check messageSize snap).snapshot? = some snap') : snap' = snap := by
  simp only [RxAsyncCall.check] at hcheck
  split at hcheck
  · cases hcheck
  · split at hcheck
    · exact (Option.some.inj hcheck).symm
    · split at hcheck
      · cases hcheck
      · split at hcheck
        · exact (Option.some.inj hcheck).symm
        · exact (Option.some.inj hcheck).symm
        · cases hcheck

theorem begin (h : s.Sound) (hidle : s.pc = .idle) (layout : RxLayout) (format : BladerfFormat)
    (buffer : Option MetaBuffer) : (s.begin layout format buffer).Sound := by
  have hopen : s.pc.open? = true := by
    rw [hidle]
    rfl
  simp only [RxAsync.begin]
  split
  · exact h
  · split
    · exact h.conclude rfl (fun a => by simp) fun a _ => trivial
    · split
      · rename_i hoff
        refine h.conclude rfl (fun a => by simp) fun a ha => ?_
        have hon := h.contract a (List.mem_of_getLast? ha)
        have hsnap : s.board.asyncSnapshot.contractEnabled = false := by simpa using hoff
        exact absurd (hsnap.symm.trans hon) (by decide)
      · exact {
          newest := h.newest
          contract := h.contract
          valid := h.valid
          follows := h.follows
          cursor := fun _ => h.cursor hopen
          snapshot := fun snap hsnap hvalid => by
            obtain rfl := check_snapshot hsnap
            exact h.newest hvalid
          waiting := fun c snap next hpc => by
            have hwaiting := h.check_waiting hopen hpc
            exact ⟨hwaiting.epochValid, hwaiting.messages, hwaiting.ends, hwaiting.continues⟩ }

theorem admitted (h : s.Sound) {c : RxAsyncCall} {snap : RxAsyncSnapshot} {next : BitVec 64}
    (hpc : s.pc = .commit c snap next) (hcurrent : s.board.snapshotIsCurrent snap = true)
    (hgate : t.gate = { s.board.gate with cursor := ⟨true, snap.epochId, next⟩ })
    (m : RxPacketMeta) (flags : BitVec 8) :
    Sound ({ s with board := t }.conclude (.clipping m flags) (.admitted (s.admission c snap))) := by
  obtain ⟨hcontract, hcertified, hcertificate⟩ := RxNotify.snapshotIsCurrent_spec hcurrent
  have hwaiting := h.waiting c snap next hpc
  have hchecked := h.snapshot snap (by rw [hpc]; rfl) hwaiting.epochValid
  have hnewest : s.certificates[s.newest]? = some s.board.certificate := h.newest hcertified
  have hvalid : (s.admission c snap).Valid s.certificates := by
    refine ⟨hchecked, hnewest, hcertificate.symm, ?_⟩
    simp only [admission, hcertificate]
    exact hwaiting.messages
  have hplace : s.checkedAt ≤ s.newest :=
    Nat.le_sub_one_of_lt (List.getElem?_eq_some_iff.mp hchecked).1
  exact {
    newest := fun _ => by
      simp only [RxAsync.conclude, hgate]
      exact hnewest
    contract := fun a _ => by
      simp only [RxAsync.conclude, hgate]
      exact hcontract
    valid := fun a ha => by
      rcases List.mem_append.mp ha with ha | ha
      · exact h.valid a ha
      · obtain rfl := RxVerdict.admitted.inj (List.mem_singleton.mp ha)
        exact hvalid
    follows := follows_concat h.follows fun a ha hsame => by
      obtain ⟨hle, hcontinues⟩ := hwaiting.continues a ha
      exact hcontinues (Nat.le_antisymm hle (hplace.trans hsame.ge))
    cursor := fun _ _ a ha _ => by
      simp only [RxAsync.conclude, List.getLast?_append, List.getLast?_singleton,
        Option.some_or, Option.some.injEq, RxVerdict.admitted.injEq] at ha
      subst ha
      simp only [RxAsync.conclude, hgate]
      refine ⟨trivial, ?_, hwaiting.ends⟩
      simp only [admission, hcertificate]
      rfl
    snapshot := fun snap hsnap => by cases hsnap
    waiting := fun c snap next hpc => by cases hpc }

theorem resume (h : s.Sound) {u : RxAsync} (hs : s.Section u) : u.Sound := by
  cases hs with
  | refused n hgate _ => exact h.refuse hgate n
  | admitted m flags hpc hcurrent hgate => exact h.admitted hpc hcurrent hgate m flags
  | announced hgate => exact h.conclude hgate (fun a => by simp) fun a _ => trivial
  | settled hopen hgate => exact h.settle hopen hgate

theorem other (h : s.Sound) {c : RxNotifySection} (hc : c.movesCursor = false) :
    Sound { s with
      board := s.board.run c
      certificates := s.certificates ++ s.board.issued c } := by
  have hsnapshot : ∀ new snap, s.pc.snapshot? = some snap → snap.epochValid = true →
      (s.certificates ++ new)[s.checkedAt]? = some snap.certificate :=
    fun new snap hsnap hvalid => RxAdmitted.place_append (h.snapshot snap hsnap hvalid) new
  have hwaiting : ∀ c snap next, s.pc = .commit c snap next → s.Waiting c snap next := h.waiting
  rcases RxNotify.run_gate c hc with ⟨cert, hissued, hissues⟩ | ⟨hissued, hweak⟩
  · rw [hissued]
    exact {
      newest := fun _ => by
        simp only [RxAsync.newest, List.length_append, List.length_singleton, Nat.add_sub_cancel]
        rw [List.getElem?_concat_length]
        exact congrArg some hissues.certificate.symm
      contract := fun _ _ => hissues.kept
      valid := fun a ha => (h.valid a ha).append _
      follows := h.follows
      cursor := fun _ _ a ha hnew => by
        have hlt := (h.valid a (List.mem_of_getLast? ha)).lt_length
        simp only [RxAsync.newest, List.length_append, List.length_singleton,
          Nat.add_sub_cancel] at hnew
        exact absurd hnew (Nat.ne_of_lt hlt)
      snapshot := hsnapshot _
      waiting := fun c snap next hpc => by
        have hw := hwaiting c snap next hpc
        exact ⟨hw.epochValid, hw.messages, hw.ends, hw.continues⟩ }
  · rw [hissued, List.append_nil]
    exact {
      newest := fun hcert => by
        obtain ⟨hcert', hcertificate, -⟩ := hweak.certified hcert
        simp only [hcertificate]
        exact h.newest hcert'
      contract := fun a ha => hweak.contract (h.contract a ha)
      valid := h.valid
      follows := h.follows
      cursor := fun hopen hcert => by
        obtain ⟨hcert', -, hcursor⟩ := hweak.certified hcert
        simp only [hcursor]
        exact h.cursor hopen hcert'
      snapshot := h.snapshot
      waiting := fun c snap next hpc => by
        have hw := hwaiting c snap next hpc
        exact ⟨hw.epochValid, hw.messages, hw.ends, hw.continues⟩ }

theorem step (h : s.Sound) {l : RxAsyncLabel} {u : RxAsync} (hs : s.step l = some u) :
    u.Sound := by
  cases l with
  | call layout format buffer =>
      simp only [RxAsync.step] at hs
      split at hs
      · rename_i hidle
        obtain rfl := Option.some.inj hs
        exact h.begin hidle layout format buffer
      · cases hs
  | resume clock now later => exact h.resume (resume_cases hs)
  | other c =>
      simp only [RxAsync.step] at hs
      split at hs
      · cases hs
      · rename_i hc
        obtain rfl := Option.some.inj hs
        exact h.other (by simpa using hc)

theorem start {board : RxNotify} (hboard : board.epochCertified = false) (messageSize : ℕ) :
    Sound (RxAsync.start board messageSize) where
  newest hcert := absurd (hboard.symm.trans hcert) (by decide)
  contract a ha := by cases ha
  valid a ha := by cases ha
  follows := .nil
  cursor _ _ a ha := by cases ha
  snapshot snap hsnap := by cases hsnap
  waiting c snap next hpc := by cases hpc

end Sound

/-! ## The promise -/

structure Contiguous (t : RxAsync) : Prop where
  /-- the messages of an admitted transfer, and its certificate -/
  admitted : ∀ a, .admitted a ∈ t.log → a.Valid t.certificates ∧
    (t.certificates.Nodup → a.checkedAt = a.admittedAt)
  /-- two admissions in a row: the second continues the first, or a refusal was
  returned in between -/
  announced : ∀ past a mid b rest,
    t.log = past ++ RxVerdict.admitted a :: (mid ++ RxVerdict.admitted b :: rest) → (∀ x, .admitted x ∉ mid) →
      a.admittedAt = b.admittedAt → b.first = a.next ∨ .withheld ∈ mid

theorem Sound.contiguous {t : RxAsync} (h : t.Sound) : t.Contiguous where
  admitted a ha := ⟨h.valid a ha, (h.valid a ha).same_place⟩
  announced past a mid b rest hlog hmid hsame := by
    have hfollows := h.follows
    rw [hlog] at hfollows
    have hrest := (List.isChain_append.mp hfollows).2.1
    cases mid with
    | nil => exact .inl ((List.isChain_cons_cons.mp hrest).1 hsame)
    | cons v mid =>
        cases v with
        | admitted x => exact absurd (List.mem_cons_self) (hmid x)
        | withheld => exact .inr List.mem_cons_self
        | unchecked => exact absurd (List.isChain_cons_cons.mp hrest).1 id

/-- What a section of a call may do to the cursor of a certificate in force: the
certificate is the one that the call was checked against. -/
def CursorHeld (t u : RxAsync) (l : RxAsyncLabel) : Prop :=
  (∀ c, l ≠ .other c) → u.board.cursor ≠ t.board.cursor → t.board.epochCertified = true →
    ∃ snap, t.pc.snapshot? = some snap ∧ snap.certificate = t.board.certificate ∧
      (t.certificates.Nodup → t.checkedAt = t.newest)

theorem Sound.current {t : RxAsync} (h : t.Sound) {snap : RxAsyncSnapshot}
    (hpc : t.pc.snapshot? = some snap) (hcurrent : t.board.snapshotIsCurrent snap = true) :
    ∃ snap, t.pc.snapshot? = some snap ∧ snap.certificate = t.board.certificate ∧
      (t.certificates.Nodup → t.checkedAt = t.newest) := by
  obtain ⟨-, hcertified, hcertificate⟩ := RxNotify.snapshotIsCurrent_spec hcurrent
  refine ⟨snap, hpc, hcertificate.symm, ?_⟩
  intro hnodup
  have hvalid : snap.epochValid = true := (of_decide_eq_true hcurrent).2.1
  refine RxAdmitted.place_unique hnodup (h.snapshot snap hpc hvalid) ?_
  rw [← hcertificate]
  exact h.newest hcertified

theorem Sound.cursorHeld {t u : RxAsync} (h : t.Sound) {l : RxAsyncLabel}
    (hs : t.step l = some u) : t.CursorHeld u l := by
  intro hcall hmoved hcert
  cases l with
  | other c => exact absurd rfl (hcall c)
  | call layout format buffer =>
      simp only [RxAsync.step] at hs
      split at hs
      · obtain rfl := Option.some.inj hs
        refine absurd ?_ hmoved
        simp only [RxAsync.begin]
        split
        · rfl
        · split
          · rfl
          · split <;> rfl
      · cases hs
  | resume clock now later =>
      cases resume_cases hs with
      | refused n hgate hcursor =>
          rcases hcursor with hsame | hoff | ⟨snap, hpc, hcurrent⟩
          · exact absurd ((congrArg RxGate.cursor hgate).trans hsame) hmoved
          · exact absurd (hoff.symm.trans hcert) (by decide)
          · exact h.current hpc hcurrent
      | admitted m flags hpc hcurrent _ => exact h.current (by rw [hpc]; rfl) hcurrent
      | announced hgate => exact absurd (congrArg RxGate.cursor hgate) hmoved
      | settled _ hgate => exact absurd (congrArg RxGate.cursor hgate) hmoved

structure Required (s : RxAsync) : Prop where
  contract : s.board.gate.contractEnabled = true
  checked : .unchecked ∉ s.log

namespace Required

variable {s u : RxAsync}

theorem conclude (h : s.Required) {t : RxNotify} (hcontract : t.gate.contractEnabled = true)
    {v : RxVerdict} (hv : v ≠ .unchecked) (pc : RxAsyncPc) :
    Required ({ s with board := t }.conclude pc v) where
  contract := hcontract
  checked hmem := by
    rcases List.mem_append.mp hmem with hmem | hmem
    · exact h.checked hmem
    · exact hv (List.mem_singleton.mp hmem).symm

theorem begin (h : s.Required) (layout : RxLayout) (format : BladerfFormat)
    (buffer : Option MetaBuffer) : (s.begin layout format buffer).Required := by
  simp only [RxAsync.begin]
  split
  · exact h
  · split
    · exact h.conclude h.contract (by simp) _
    · split
      · rename_i hoff
        have hsnap : s.board.asyncSnapshot.contractEnabled = false := by simpa using hoff
        exact absurd (hsnap.symm.trans h.contract) (by decide)
      · exact ⟨h.contract, h.checked⟩

theorem resume (h : s.Required) (hs : s.Section u) : u.Required := by
  cases hs with
  | refused n hgate _ => exact ⟨(congrArg RxGate.contractEnabled hgate).trans h.contract, h.checked⟩
  | admitted m flags _ _ hgate =>
      exact h.conclude ((congrArg RxGate.contractEnabled hgate).trans h.contract) (by simp) _
  | announced hgate =>
      exact h.conclude ((congrArg RxGate.contractEnabled hgate).trans h.contract) (by simp) _
  | settled _ hgate => exact ⟨(congrArg RxGate.contractEnabled hgate).trans h.contract, h.checked⟩

theorem other (h : s.Required) {c : RxNotifySection} (hc : c.movesCursor = false) :
    (s.board.run c).gate.contractEnabled = true := by
  rcases RxNotify.run_gate c hc with ⟨cert, -, hissues⟩ | ⟨-, hweak⟩
  · exact hissues.kept
  · exact hweak.contract h.contract

theorem step (h : s.Required) {l : RxAsyncLabel} (hs : s.step l = some u) : u.Required := by
  cases l with
  | call layout format buffer =>
      simp only [RxAsync.step] at hs
      split at hs
      · obtain rfl := Option.some.inj hs
        exact h.begin layout format buffer
      · cases hs
  | resume clock now later => exact h.resume (resume_cases hs)
  | other c =>
      simp only [RxAsync.step] at hs
      split at hs
      · cases hs
      · rename_i hc
        obtain rfl := Option.some.inj hs
        exact ⟨h.other (by simpa using hc), h.checked⟩

end Required

/-- Whatever the transfers hold and whatever comes between the sections of a
call, in every run from a board without a certificate: admission is contiguous
under one certificate or a refusal was returned, no transfer goes unchecked
while an epoch is required, and a call moves the cursor of no certificate but
the one it was checked against. -/
theorem admission_contiguous {board : RxNotify} (hboard : board.epochCertified = false)
    {messageSize : ℕ} {ls : List RxAsyncLabel} {t : RxAsync}
    (hrun : Lib.Steps step (fun _ _ => True) (start board messageSize) ls t) :
    t.Contiguous ∧ (board.epochContractEnabled = true → .unchecked ∉ t.log) ∧
      ∀ l u, t.step l = some u → t.CursorHeld u l := by
  have hsound : t.Sound :=
    hrun.invariant (Sound.start hboard messageSize) fun h _ hs => h.step hs
  refine ⟨hsound.contiguous, ?_, fun l u hs => hsound.cursorHeld hs⟩
  intro hcontract
  have hrequired : t.Required :=
    hrun.invariant (P := Required) ⟨hcontract, List.not_mem_nil⟩ fun h _ hs => h.step hs
  exact hrequired.checked

def someTransfer (timestamp : BitVec 64) : RxAsyncLabel :=
  .call .x1 .sc16Q11Meta (some ⟨64, fun offset =>
    ⟨0x80000005#32, timestamp + BitVec.ofNat 64 (offset / 8), 0⟩⟩)

/-- A certificate, two transfers in a row, and one behind a gap. -/
def someCalls : List RxAsyncLabel :=
  [.other (.allocate 1 0 false true false), .other (.setEpochId 5), .other (.channelMask (some 1)),
    .other (.prepare { RxEvent.zero with
      fpgaTimestamp := 100
      transactionId := 1
      epochId := 5
      fpgaState := .dataValid
      eventType := .epochValid } 50 (some 10) (some 11) 12),
    someTransfer 100, .resume (some 20) 20 20, .resume none 21 21,
    someTransfer 108, .resume (some 22) 22 22, .resume none 23 23,
    someTransfer 200, .resume none 24 24, .resume none 25 25]

def verdicts (s : RxAsync) : List Bool :=
  s.log.map fun | .admitted _ => true | _ => false

theorem admission_contiguous_calls : ∃ t, Lib.Steps step (fun _ _ => True) (start .closed 32)
    someCalls t ∧ t.verdicts = [true, true, false] ∧ t.Contiguous := by
  have hexec : (Lib.exec step (fun _ _ => True) (start .closed 32) someCalls).map verdicts =
      some [true, true, false] := by rfl
  obtain ⟨t, ht, hverdicts⟩ := Option.map_eq_some_iff.mp hexec
  have hrun := Lib.Steps.of_exec ht
  exact ⟨t, hrun, hverdicts, (admission_contiguous rfl hrun).1⟩

end RxAsync
end BladeRF
