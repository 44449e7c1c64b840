/-
# `Board.RxAlternation` — losses and resumptions alternate

Whatever is certified, revoked, lost, withheld and received, and in whatever
order the sections of `rx_async_epoch_lock` come: a certificate brings its first
data once, data resumes only after a loss, and a loss is over when data is
reported again.

The one section that reports a loss without opening an interval is the
rejection of a sync configuration, which is no loss of packets.
-/
import BladeRF.Lib.Since
import BladeRF.Board.RxNotify

namespace BladeRF

open RxNotify

/-! ## The sections -/

inductive RxNotifySection
  | prepare (e : RxEvent) (deadlineNs : ℕ) (clock₁ clock₂ : Option ℕ) (now : ℕ)
  | revoke
  | revokeFailed (status : RetCode)
  /-- `_emit_event` of a transition: the certificate goes unless data is valid -/
  | transitionEvent (e : RxEvent)
  /-- the section of `_bladerf_rx_transition_begin` that allocates a transition -/
  | allocate (id : BitVec 32) (channel : ℕ) (x2Required epochRequired firstDataRequired : Bool)
  | setEpochId (epochId : BitVec 8)
  | setDeadline (deadlineNs : ℕ)
  | failHostData (status : RetCode)
  | withheld (reason : WithheldReason) (source : Option RxSource) (now : ℕ)
  | withheldReset
  | notePacket (m : RxPacketMeta) (layout : RxLayout) (admissionNs now : ℕ)
  | syncNotePacket (m : RxPacketMeta) (layout : RxLayout) (admissionNs now : ℕ)
  | discontinuity (expectedEpochId : BitVec 8) (timestamp : BitVec 64) (now now' : ℕ)
  | asyncOverrun (now : ℕ)
  | overrun (sourceFlags : BitVec 32) (source : RxSource) (now : ℕ)
  | workerOverrun (sourceFlags : BitVec 32) (now : ℕ)
  | fpgaLoss (e : RxEvent)
  | formatUnsupported (format : BitVec 32) (deduplicate : Bool) (now : ℕ)
  | channelMask (mask : Option (BitVec 8))
  | commitCursor (valid : Bool) (epochId : BitVec 8) (expected : BitVec 64)
  | event (e : RxEvent)

namespace RxEventType

def hostData : RxEventType → Bool
  | .firstValidHostData | .dataResumed => true
  | _ => false

def loss : RxEventType → Bool
  | .dataWithheld | .formatUnsupported | .streamOverrun => true
  | _ => false

end RxEventType

namespace RxNotify

variable (s : RxNotify)

/-- A transition event revokes, unless it says that data is valid. -/
def transitionEvent (e : RxEvent) : RxNotify :=
  let t := s.append e
  if e.eventType = .epochValid then { t.epochRevokeAdmission with firstHostDataEvent := .zero }
  else if e.fpgaState ≠ .dataValid then
    { t with epochCertified := false, firstHostDataReported := false }
  else t

def allocate (id : BitVec 32) (channel : ℕ) (x2Required epochRequired firstDataRequired : Bool) :
    RxNotify :=
  let t := { s with
    currentId := id
    currentChannel := channel
    currentChannelValid := true
    rxX2HostDataRequired := x2Required }
  if epochRequired then
    { t with
      epochContractEnabled := true
      firstHostDataRequired := firstDataRequired
      firstHostDataDeadlineNs := 0
      firstHostDataReported := false
      firstHostDataFailure := .ok
      firstHostDataEvent := .zero }
  else t

/-- The outcome of `rffe_control_read`. -/
def setChannelMask : Option (BitVec 8) → RxNotify
  | some mask => { s with channelEnableMask := mask, channelEnableMaskValid := true }
  | none => { s with channelEnableMaskValid := false }

def run : RxNotifySection → RxNotify
  | .prepare e deadlineNs clock₁ clock₂ now =>
      (s.epochAdmissionPrepare e deadlineNs clock₁ clock₂ now).1
  | .revoke => s.epochRevokeAdmission
  | .revokeFailed status => s.revokeFailedTransitionAdmission status
  | .transitionEvent e => s.transitionEvent e
  | .allocate id channel x2Required epochRequired firstDataRequired =>
      s.allocate id channel x2Required epochRequired firstDataRequired
  | .setEpochId epochId => { s with epochId := epochId }
  | .setDeadline deadlineNs => { s with firstHostDataDeadlineNs := deadlineNs }
  | .failHostData status => s.failFirstHostData status
  | .withheld reason source now => s.dataWithheld reason source now
  | .withheldReset => s.rearmNotifications
  | .notePacket m layout admissionNs now => s.noteFirstPacketAt m layout admissionNs now
  | .syncNotePacket m layout admissionNs now =>
      s.transitionNoteFirstPacketAt m layout admissionNs now
  | .discontinuity expectedEpochId timestamp now now' =>
      s.asyncTimestampDiscontinuity expectedEpochId timestamp now now'
  | .asyncOverrun now => s.asyncStreamOverrun now
  | .overrun sourceFlags source now => s.streamOverrun sourceFlags source now
  | .workerOverrun sourceFlags now => s.workerStreamOverrun sourceFlags now
  | .fpgaLoss e => s.publishRxFpgaLossEvent e
  | .formatUnsupported format deduplicate now => s.formatUnsupported format deduplicate now
  | .channelMask mask => s.setChannelMask mask
  | .commitCursor valid epochId expected =>
      { s with
        haveExpectedTimestamp := valid
        timestampEpochId := epochId
        expectedTimestamp := expected }
  | .event e => s.append e

end RxNotify

namespace RxNotifySection

/-- The rejection of a sync configuration reports its format and withholds
nothing. -/
def rejectsConfiguration : RxNotifySection → Bool
  | .formatUnsupported _ deduplicate _ => !deduplicate
  | _ => false

def admissible : RxNotifySection → Bool
  | .transitionEvent e | .event e => !e.eventType.hostData
  | _ => true

end RxNotifySection

namespace RxNotify

variable (s : RxNotify)

/-- The certificate covers the source of what a section reports.  A failed
transfer of an async stream has no source; it counts as a loss of what is
certified. -/
def ofCertificate : RxNotifySection → Bool
  | .withheld reason source now => s.epochCertified && s.withheldIsCurrent reason source now
  | .notePacket _ _ _ _ | .syncNotePacket _ _ _ _ => s.epochCertified
  | .discontinuity expectedEpochId timestamp now _ =>
      let e := s.discontinuityEvent expectedEpochId timestamp now
      s.epochCertified && s.covers e.epochId e.transactionId (some timestamp)
  | .asyncOverrun _ | .workerOverrun _ _ | .fpgaLoss _ => s.epochCertified
  | .overrun sourceFlags source now =>
      s.epochCertified && s.overrunIsCurrent source (s.overrunEvent sourceFlags source now)
  | .formatUnsupported _ _ _ =>
      s.epochCertified && s.covers (s.epochId.setWidth 32) s.currentId none
  | _ => false

end RxNotify

/-! ## What a consumer can tell apart -/

/-- What happened, in order: the events, and between them the points that the
promises count from. -/
inductive RxMark
  | certified
  /-- a transition that wants an epoch: a new report of first data -/
  | allocated
  | event (type : RxEventType) (ofCertificate rejection : Bool)
  | packet
  deriving DecidableEq

namespace RxMark

def hostData : RxMark → Bool
  | .event type _ _ => type.hostData
  | _ => false

def loss : RxMark → Bool
  | .event type _ _ => type.loss
  | _ => false

def certifiedLoss : RxMark → Bool
  | .event type ofCertificate _ => type.loss && ofCertificate
  | _ => false

def owed : RxMark → Bool
  | .event type ofCertificate rejection => type.loss && ofCertificate && !rejection
  | _ => false

def isPacket : RxMark → Bool
  | .packet => true
  | _ => false

/-- A certificate, or the allocation of a transition that wants one. -/
def opens : RxMark → Bool
  | .certified | .allocated => true
  | _ => false

def reports (m : RxMark) : Bool := m.hostData || m.opens

def settles : RxMark → Bool
  | .certified | .packet => true
  | _ => false

end RxMark

/-- A log in which the data events of the consumer alternate with the losses
that `owed` names. -/
structure Alternates (owed : RxMark → Bool) (log : List RxMark) : Prop where
  /-- the first data is reported once -/
  first : Lib.Appended (fun past m => ∀ c r, m = .event .firstValidHostData c r →
    ∀ x ∈ Lib.since RxMark.opens past, x.hostData = false) log
  /-- data resumes behind a loss, and behind the first data -/
  resumed : Lib.Appended (fun past m => ∀ c r, m = .event .dataResumed c r →
    (∃ x ∈ Lib.since RxMark.opens past, x.hostData = true) ∧
      ∃ x ∈ Lib.since RxMark.reports past, x.loss = true) log
  /-- a loss is answered by the next packet, once -/
  answered : Lib.Appended (fun past m => m = .packet →
    (∃ x ∈ Lib.since RxMark.settles past, owed x = true) →
      ∃ d, (Lib.since RxMark.isPacket past).filter RxMark.hostData = [d]) log

/-! ## Runs -/

structure RxHistory where
  board : RxNotify
  log : List RxMark

namespace RxHistory

def appended (s : RxNotify) (c : RxNotifySection) : List RxEvent :=
  (s.run c).events.drop s.events.length

def point (s : RxNotify) : RxNotifySection → List RxMark
  | .prepare e deadlineNs clock₁ clock₂ now =>
      if (s.epochAdmissionPrepare e deadlineNs clock₁ clock₂ now).2 = .ok then [.certified] else []
  | .allocate _ _ _ epochRequired _ => if epochRequired then [.allocated] else []
  | .notePacket m layout admissionNs _ => if s.admits m layout admissionNs then [.packet] else []
  | .syncNotePacket m layout admissionNs _ =>
      if s.notesPacket m admissionNs && s.admits m layout admissionNs then [.packet] else []
  | _ => []

def mark (s : RxNotify) (c : RxNotifySection) (e : RxEvent) : RxMark :=
  .event e.eventType (s.ofCertificate c) c.rejectsConfiguration

def step (h : RxHistory) (c : RxNotifySection) : Option RxHistory :=
  if c.admissible then
    some ⟨h.board.run c, h.log ++ (appended h.board c).map (mark h.board c) ++ point h.board c⟩
  else none

end RxHistory

/-! ## What a section may do -/

/-- A section that reports no host data: it appends `es`, and keeps the
certificate and its report.  `owed` says whether its losses are the
certificate's. -/
structure RxNotify.Loses (s t : RxNotify) (es : List RxEvent) (owed : Bool) : Prop where
  events : t.events = s.events ++ es
  quiet : ∀ e ∈ es, e.eventType.hostData = false
  certified : t.epochCertified = s.epochCertified
  contract : t.epochContractEnabled = s.epochContractEnabled
  reported : t.firstHostDataReported = s.firstHostDataReported
  kept : s.withheldActive = true → t.withheldActive = true
  /-- an interval is opened by a loss, or again by one that was reported in it -/
  opened : s.epochContractEnabled = true → t.withheldActive = true ∨ t.withheldReportedReasons ≠ 0 →
    s.withheldActive = true ∨ s.withheldReportedReasons ≠ 0 ∨ ∃ e ∈ es, e.eventType.loss = true
  answered : s.epochCertified = true → s.epochContractEnabled = true → owed = true →
    (∃ e ∈ es, e.eventType.loss = true) → t.withheldActive = true

/-- The invariant: what the flags of the board say about the log. -/
structure RxHistory.Kept (h : RxHistory) : Prop where
  contract : h.board.epochCertified = true → h.board.epochContractEnabled = true
  reported : h.board.epochCertified = true → (h.board.firstHostDataReported = true ↔
    ∃ x ∈ Lib.since RxMark.opens h.log, x.hostData = true)
  lost : h.board.epochCertified = true → h.board.firstHostDataReported = true →
    h.board.withheldActive = true ∨ h.board.withheldReportedReasons ≠ 0 →
      ∃ x ∈ Lib.since RxMark.reports h.log, x.loss = true
  owed : h.board.epochCertified = true →
    (∃ x ∈ Lib.since RxMark.settles h.log, x.owed = true) → h.board.withheldActive = true
  idle : ∀ x ∈ Lib.since RxMark.isPacket h.log, x.hostData = false
  alternates : Alternates RxMark.owed h.log

namespace RxNotify

variable (s : RxNotify)

/-! ### The events of a loss -/

@[simp] theorem applySourceProvenance_eventType (e : RxEvent) :
    (s.applySourceProvenance e).eventType = e.eventType := by
  unfold applySourceProvenance
  split
  · rfl
  · split <;> rfl

@[simp] theorem withheldEvent_eventType (reason : WithheldReason) (source : Option RxSource)
    (now : ℕ) : (s.withheldEvent reason source now).eventType = .dataWithheld := by
  cases source with
  | some src => simp [withheldEvent]
  | none =>
      unfold withheldEvent
      dsimp only
      split <;> rfl

@[simp] theorem withheldAnonymous_eventType (reason : WithheldReason) (source : Option RxSource)
    (e : RxEvent) : (withheldAnonymous reason source e).eventType = e.eventType := by
  unfold withheldAnonymous
  split <;> rfl

@[simp] theorem discontinuityEvent_eventType (expectedEpochId : BitVec 8) (timestamp : BitVec 64)
    (now : ℕ) : (s.discontinuityEvent expectedEpochId timestamp now).eventType = .dataWithheld := by
  simp [discontinuityEvent]

@[simp] theorem overrunEvent_eventType (sourceFlags : BitVec 32) (source : RxSource) (now : ℕ) :
    (s.overrunEvent sourceFlags source now).eventType = .streamOverrun := by
  unfold overrunEvent
  dsimp only
  split <;> split <;> simp

theorem transitionEvent_cases (e : RxEvent) : s.transitionEvent e = s.append e ∨
    (s.transitionEvent e).events = s.events ++ [e] ∧
      (s.transitionEvent e).epochCertified = false := by
  unfold transitionEvent
  dsimp only
  split
  · exact .inr ⟨rfl, rfl⟩
  · split
    · exact .inr ⟨rfl, rfl⟩
    · exact .inl rfl

end RxNotify

namespace RxNotify.Loses

variable {s t u : RxNotify} {es : List RxEvent} {e : RxEvent} {owed : Bool}

theorem keep (hevents : t.events = s.events ++ es) (hquiet : ∀ e ∈ es, e.eventType.hostData = false)
    (hcert : t.epochCertified = s.epochCertified)
    (hcontract : t.epochContractEnabled = s.epochContractEnabled)
    (hreported : t.firstHostDataReported = s.firstHostDataReported)
    (hactive : t.withheldActive = s.withheldActive)
    (hreasons : t.withheldReportedReasons ≠ 0 → s.withheldReportedReasons ≠ 0)
    (howed : owed = true → ¬ ∃ e ∈ es, e.eventType.loss = true) : Loses s t es owed where
  events := hevents
  quiet := hquiet
  certified := hcert
  contract := hcontract
  reported := hreported
  kept h := hactive.trans h
  opened _ h := by
    rcases h with h | h
    · exact .inl (hactive.symm.trans h)
    · exact .inr (.inl (hreasons h))
  answered _ _ h hloss := absurd hloss (howed h)

theorem nothing (hevents : t.events = s.events) (hcert : t.epochCertified = s.epochCertified)
    (hcontract : t.epochContractEnabled = s.epochContractEnabled)
    (hreported : t.firstHostDataReported = s.firstHostDataReported)
    (hactive : t.withheldActive = s.withheldActive)
    (hreasons : t.withheldReportedReasons ≠ 0 → s.withheldReportedReasons ≠ 0) :
    Loses s t [] owed :=
  keep (by simpa using hevents) (by simp) hcert hcontract hreported hactive hreasons (by simp)

theorem report (hevents : t.events = s.events ++ es)
    (hloss : ∀ e ∈ es, e.eventType.loss = true) (hnil : es ≠ [])
    (hcert : t.epochCertified = s.epochCertified)
    (hcontract : t.epochContractEnabled = s.epochContractEnabled)
    (hreported : t.firstHostDataReported = s.firstHostDataReported)
    (hkept : s.withheldActive = true → t.withheldActive = true)
    (hactive : s.epochCertified = true → s.epochContractEnabled = true → owed = true →
      t.withheldActive = true) : Loses s t es owed where
  events := hevents
  quiet e he := by
    have h := hloss e he
    cases hty : e.eventType <;> rw [hty] at h <;> first | rfl | cases h
  certified := hcert
  contract := hcontract
  reported := hreported
  kept := hkept
  opened _ _ := by
    obtain ⟨e, he⟩ := List.exists_mem_of_ne_nil es hnil
    exact .inr (.inr ⟨e, he, hloss e he⟩)
  answered h₁ h₂ h₃ _ := hactive h₁ h₂ h₃

/-! ### One lemma for each section -/

theorem failFirstHostData (status : RetCode) : Loses s (s.failFirstHostData status) [] owed :=
  nothing (by simp) (by simp) (by simp) (by simp) (by simp) (by simp)

theorem rearmNotifications : Loses s s.rearmNotifications [] owed :=
  nothing rfl rfl rfl rfl rfl fun h => absurd rfl h

theorem dataWithheld (reason : WithheldReason) (source : Option RxSource) (now : ℕ) :
    ∃ es, Loses s (s.dataWithheld reason source now) es
      (s.ofCertificate (.withheld reason source now)) := by
  unfold RxNotify.dataWithheld
  dsimp only
  have hloss : ∀ e ∈ [withheldAnonymous reason source (s.withheldEvent reason source now)],
      e.eventType.loss = true := by
    intro e he
    rw [List.mem_singleton.mp he]
    simp [RxEventType.loss]
  split
  · refine ⟨_, report (by simp [append, activate]) hloss (by simp) ?_ ?_ ?_ ?_ ?_⟩
    all_goals simp [append, activate, ofCertificate]
    · exact fun h => .inl h
    · exact fun _ _ _ h => .inr h
  · split
    · refine ⟨_, report (by simp [append, activate]) hloss (by simp) ?_ ?_ ?_ ?_ ?_⟩
      all_goals simp [append, activate, ofCertificate]
      · exact fun h => .inl h
      · exact fun _ _ _ h => .inr h
    · rename_i hdup
      refine ⟨[], ?_⟩
      have hmask : s.epochContractEnabled = true → s.withheldReportedReasons ≠ 0 := by
        intro hcontract
        have hbit : (s.rearmSource (s.withheldTransaction reason source now)
            (s.withheldEvent reason source now).epochId).withheldReportedReasons &&& reason.bit =
              reason.bit := by
          by_contra hne
          exact hdup ⟨by simpa [activate] using hcontract, hne⟩
        have hset : (s.rearmSource (s.withheldTransaction reason source now)
            (s.withheldEvent reason source now).epochId).withheldReportedReasons ≠ 0 := by
          intro h0
          rw [h0] at hbit
          exact reason.bit_ne_zero (hbit.symm.trans BitVec.zero_and)
        exact rearmSource_withheldReportedReasons hset
      exact {
        events := by simp [activate]
        quiet := by simp
        certified := by simp [activate]
        contract := by simp [activate]
        reported := by simp [activate]
        kept := fun h => by simp [activate, h]
        opened := fun hcontract _ => .inr (.inl (hmask hcontract))
        answered := fun _ _ _ hloss => by simp at hloss }

theorem asyncTimestampDiscontinuity (expectedEpochId : BitVec 8) (timestamp : BitVec 64)
    (now now' : ℕ) :
    ∃ es, Loses s (s.asyncTimestampDiscontinuity expectedEpochId timestamp now now') es
      (s.ofCertificate (.discontinuity expectedEpochId timestamp now now')) := by
  unfold RxNotify.asyncTimestampDiscontinuity
  dsimp only
  split
  · refine ⟨_, report (by simp only [append, activate, rearmSource_events]; exact
      (List.append_assoc _ _ _)) ?_ (by simp) ?_ ?_ ?_ ?_ ?_⟩
    · intro e he
      rcases List.mem_append.mp he with he | he
      · rw [List.mem_singleton.mp he]
        simp [RxEventType.loss]
      · rw [List.mem_singleton.mp he]
        rfl
    all_goals simp [append, activate, ofCertificate]
    · exact fun h => .inl h
    · intro hcert _ _ h
      exact .inr (by simp [sourceIsCurrent, hcert, h])
  · exact ⟨[], nothing (by simp) (by simp) (by simp) (by simp) (by simp)
      rearmSource_withheldReportedReasons⟩

theorem asyncStreamOverrun (now : ℕ) :
    ∃ es, Loses s (s.asyncStreamOverrun now) es (s.ofCertificate (.asyncOverrun now)) := by
  refine ⟨_, report rfl ?_ (by simp) rfl rfl rfl ?_ ?_⟩
  · intro e he
    rw [List.mem_singleton.mp he]
    rfl
  · exact fun _ => Bool.or_true _
  · exact fun _ _ _ => Bool.or_true _

theorem streamOverrun (sourceFlags : BitVec 32) (source : RxSource) (now : ℕ) :
    ∃ es, Loses s (s.streamOverrun sourceFlags source now) es
      (s.ofCertificate (.overrun sourceFlags source now)) := by
  refine ⟨_, report rfl ?_ (by simp) rfl rfl rfl ?_ ?_⟩
  · intro e he
    rw [List.mem_singleton.mp he]
    simp [RxEventType.loss]
  all_goals simp [RxNotify.streamOverrun, append, activate, ofCertificate]
  · exact fun h => .inl h
  · exact fun _ hcontract _ h => .inr ⟨h, hcontract⟩

theorem workerStreamOverrun (sourceFlags : BitVec 32) (now : ℕ) :
    ∃ es, Loses s (s.workerStreamOverrun sourceFlags now) es
      (s.ofCertificate (.workerOverrun sourceFlags now)) := by
  unfold RxNotify.workerStreamOverrun
  split
  · exact ⟨[], nothing rfl rfl rfl rfl rfl id⟩
  · refine ⟨_, report rfl ?_ (by simp) rfl rfl rfl ?_ ?_⟩
    · intro e he
      rw [List.mem_singleton.mp he]
      rfl
    all_goals simp [append, activate]
    · exact fun h => .inl h
    · exact fun _ hcontract _ => .inr hcontract

theorem publishRxFpgaLossEvent (e : RxEvent) :
    ∃ es, Loses s (s.publishRxFpgaLossEvent e) es (s.ofCertificate (.fpgaLoss e)) := by
  unfold RxNotify.publishRxFpgaLossEvent
  split
  · refine ⟨_, report rfl ?_ (by simp) rfl rfl rfl ?_ ?_⟩
    · intro e he
      rw [List.mem_singleton.mp he]
      rfl
    · exact fun _ => Bool.or_true _
    · exact fun _ _ _ => Bool.or_true _
  · exact ⟨[], nothing rfl rfl rfl rfl rfl id⟩

theorem formatUnsupported (format : BitVec 32) (deduplicate : Bool) (now : ℕ) :
    ∃ es, Loses s (s.formatUnsupported format deduplicate now) es
      (s.ofCertificate (.formatUnsupported format deduplicate now) && deduplicate) := by
  have hrearm : ∀ o, Loses s s.rearmFormat [] o := by
    intro o
    unfold rearmFormat
    split
    · exact nothing rfl rfl rfl rfl rfl id
    · exact nothing rfl rfl rfl rfl rfl id
  unfold RxNotify.formatUnsupported
  dsimp only
  split
  · have hloss : ∀ e ∈ [s.formatEvent format now], e.eventType.loss = true := by
      intro e he
      rw [List.mem_singleton.mp he]
      rfl
    have hr := hrearm false
    cases deduplicate with
    | true =>
        refine ⟨_, report ?_ hloss (by simp) ?_ ?_ ?_ (fun _ => Bool.or_true _)
          fun _ _ _ => Bool.or_true _⟩
        all_goals simp [append, activate, hr.certified, hr.contract, hr.reported]
        simpa using hr.events
    | false =>
        refine ⟨_, report ?_ hloss (by simp) ?_ ?_ ?_ ?_ ?_⟩
        all_goals simp [append, hr.certified, hr.contract, hr.reported]
        · simpa using hr.events
        · exact hr.kept
  · exact ⟨[], hrearm _⟩

theorem selectionWithheld (m : RxPacketMeta) (now : ℕ) (owed : Bool) :
    ∃ es, Loses s (s.selectionWithheld m now) es owed := by
  unfold RxNotify.selectionWithheld
  dsimp only
  split
  · have hloss : ∀ e ∈ [s.selectionEvent m now], e.eventType.loss = true := by
      intro e he
      rw [List.mem_singleton.mp he]
      rfl
    refine ⟨_, report ?_ hloss (by simp) ?_ ?_ ?_ ?_ ?_⟩
    all_goals simp [append]
  · exact ⟨[], failFirstHostData _⟩

end RxNotify.Loses

/-! ## The invariant -/

theorem Alternates.append {owed : RxMark → Bool} {log l : List RxMark} (h : Alternates owed log)
    (hl : ∀ x ∈ l, x.hostData = false ∧ x.isPacket = false) : Alternates owed (log ++ l) where
  first := h.first.append fun x hx past c r heq => by
    have hdata := (hl x hx).1
    rw [heq] at hdata
    cases hdata
  resumed := h.resumed.append fun x hx past c r heq => by
    have hdata := (hl x hx).1
    rw [heq] at hdata
    cases hdata
  answered := h.answered.append fun x hx past heq => by
    have hpacket := (hl x hx).2
    rw [heq] at hpacket
    cases hpacket

def RxMark.events (es : List RxEvent) (c r : Bool) : List RxMark :=
  es.map fun e => .event e.eventType c r

namespace RxMark

variable {es : List RxEvent} {c r : Bool}

theorem mem_events {x : RxMark} : x ∈ events es c r ↔ ∃ e ∈ es, x = .event e.eventType c r := by
  simp only [events, List.mem_map, eq_comm]

theorem since_events {p : RxMark → Bool} (hp : ∀ e ∈ es, p (.event e.eventType c r) = false)
    (log : List RxMark) :
    Lib.since p (log ++ events es c r) = Lib.since p log ++ events es c r := by
  refine Lib.since_append fun x hx => ?_
  obtain ⟨e, he, rfl⟩ := mem_events.mp hx
  exact hp e he

theorem since_opens_events (log : List RxMark) :
    Lib.since opens (log ++ events es c r) = Lib.since opens log ++ events es c r :=
  since_events (fun _ _ => rfl) log

theorem since_settles_events (log : List RxMark) :
    Lib.since settles (log ++ events es c r) = Lib.since settles log ++ events es c r :=
  since_events (fun _ _ => rfl) log

theorem since_isPacket_events (log : List RxMark) :
    Lib.since isPacket (log ++ events es c r) = Lib.since isPacket log ++ events es c r :=
  since_events (fun _ _ => rfl) log

end RxMark

namespace RxHistory.Kept

variable {s t : RxNotify} {log : List RxMark} {es : List RxEvent} {owed c r : Bool}

section

variable (h : Kept ⟨s, log⟩)

include h

theorem idle_events (hquiet : ∀ e ∈ es, e.eventType.hostData = false) :
    ∀ x ∈ Lib.since RxMark.isPacket (log ++ RxMark.events es c r), x.hostData = false := by
  intro x hx
  rw [RxMark.since_isPacket_events] at hx
  rcases List.mem_append.mp hx with hx | hx
  · exact h.idle x hx
  · obtain ⟨e, he, rfl⟩ := RxMark.mem_events.mp hx
    exact hquiet e he

theorem alternates_events (hquiet : ∀ e ∈ es, e.eventType.hostData = false) :
    Alternates RxMark.owed (log ++ RxMark.events es c r) :=
  h.alternates.append fun x hx => by
    obtain ⟨e, he, rfl⟩ := RxMark.mem_events.mp hx
    exact ⟨hquiet e he, rfl⟩

theorem loses (hl : RxNotify.Loses s t es owed)
    (howed : c = true → r = false → owed = true) : Kept ⟨t, log ++ RxMark.events es c r⟩ where
  contract hcert := hl.contract.trans (h.contract (hl.certified.symm.trans hcert))
  reported hcert := by
    have hiff := h.reported (hl.certified.symm.trans hcert)
    change t.firstHostDataReported = true ↔ _
    rw [hl.reported, hiff, RxMark.since_opens_events]
    constructor
    · rintro ⟨x, hx, hdata⟩
      exact ⟨x, List.mem_append_left _ hx, hdata⟩
    · rintro ⟨x, hx, hdata⟩
      rcases List.mem_append.mp hx with hx | hx
      · exact ⟨x, hx, hdata⟩
      · obtain ⟨e, he, rfl⟩ := RxMark.mem_events.mp hx
        exact absurd (hl.quiet e he) (by simpa [RxMark.hostData] using hdata)
  lost hcert hreported hopen := by
    have hcert' := hl.certified.symm.trans hcert
    have hreports : Lib.since RxMark.reports (log ++ RxMark.events es c r) =
        Lib.since RxMark.reports log ++ RxMark.events es c r :=
      RxMark.since_events (fun e he => by simp [RxMark.reports, RxMark.hostData, RxMark.opens,
        hl.quiet e he]) log
    rw [hreports]
    rcases or_assoc.mpr (hl.opened (h.contract hcert') hopen) with hs | ⟨e, he, hloss⟩
    · obtain ⟨x, hx, hloss⟩ := h.lost hcert' (hl.reported.symm.trans hreported) hs
      exact ⟨x, List.mem_append_left _ hx, hloss⟩
    · exact ⟨_, List.mem_append_right _ (RxMark.mem_events.mpr ⟨e, he, rfl⟩), hloss⟩
  owed hcert := by
    have hcert' := hl.certified.symm.trans hcert
    rintro ⟨x, hx, hx'⟩
    rw [RxMark.since_settles_events] at hx
    rcases List.mem_append.mp hx with hx | hx
    · exact hl.kept (h.owed hcert' ⟨x, hx, hx'⟩)
    · obtain ⟨e, he, rfl⟩ := RxMark.mem_events.mp hx
      obtain ⟨⟨hloss, hc⟩, hr⟩ : (e.eventType.loss = true ∧ c = true) ∧ r = false := by
        simpa [RxMark.owed] using hx'
      exact hl.answered hcert' (h.contract hcert') (howed hc hr) ⟨e, he, hloss⟩
  idle := h.idle_events hl.quiet
  alternates := h.alternates_events hl.quiet

theorem revoked (hcert : t.epochCertified = false)
    (hquiet : ∀ e ∈ es, e.eventType.hostData = false) :
    Kept ⟨t, log ++ RxMark.events es c r⟩ where
  contract ht := absurd (hcert.symm.trans ht) (by decide)
  reported ht := absurd (hcert.symm.trans ht) (by decide)
  lost ht := absurd (hcert.symm.trans ht) (by decide)
  owed ht := absurd (hcert.symm.trans ht) (by decide)
  idle := h.idle_events hquiet
  alternates := h.alternates_events hquiet

theorem opened {m : RxMark} (hopens : m.opens = true)
    (hcontract : t.epochContractEnabled = true) (hreported : t.firstHostDataReported = false)
    (howed : t.epochCertified = true →
      (∃ x ∈ Lib.since RxMark.settles (log ++ [m]), x.owed = true) → t.withheldActive = true) :
    Kept ⟨t, log ++ [m]⟩ := by
  have hdata : m.hostData = false ∧ m.isPacket = false := by
    cases m <;> first | exact ⟨rfl, rfl⟩ | cases hopens
  exact {
    contract := fun _ => hcontract
    reported := fun _ => by
      rw [Lib.since_concat, if_pos hopens]
      simp [hreported]
    lost := fun _ ht => absurd (hreported.symm.trans ht) (by decide)
    owed := howed
    idle := fun x hx => by
      rw [Lib.since_concat, hdata.2] at hx
      rcases List.mem_append.mp hx with hx | hx
      · exact h.idle x hx
      · exact List.mem_singleton.mp hx ▸ hdata.1
    alternates := h.alternates.append fun x hx => List.mem_singleton.mp hx ▸ hdata }

theorem data (hcert : s.epochCertified = true)
    (hopen : s.firstHostDataReported = false ∨ s.withheldActive = true) {e : RxEvent}
    (he : e.eventType = if s.firstHostDataReported then .dataResumed else .firstValidHostData) :
    Alternates RxMark.owed (log ++ RxMark.events [e] c r ++ [RxMark.packet]) := by
  have hsince : (Lib.since RxMark.isPacket (log ++ [RxMark.event e.eventType c r])).filter
      RxMark.hostData = [.event e.eventType c r] := by
    have hnone : (Lib.since RxMark.isPacket log).filter RxMark.hostData = [] :=
      List.filter_eq_nil_iff.mpr fun x hx => by simp [h.idle x hx]
    have hdata : RxMark.hostData (.event e.eventType c r) = true := by
      rw [he]
      split <;> rfl
    rw [Lib.since_concat, if_neg (by simp [RxMark.isPacket]), List.filter_append, hnone]
    simp [hdata]
  refine ⟨?_, ?_, ?_⟩
  · refine Lib.appended_concat.mpr ⟨Lib.appended_concat.mpr ⟨h.alternates.first, ?_⟩, ?_⟩
    · -- the first data: nothing was reported under this certificate
      intro c' r' heq x hx
      injection heq with htype
      have hreported : s.firstHostDataReported = false := by
        cases hs : s.firstHostDataReported with
        | false => rfl
        | true =>
            rw [he, hs] at htype
            cases htype
      cases hx' : x.hostData with
      | false => rfl
      | true =>
          have := (h.reported hcert).mpr ⟨x, hx, hx'⟩
          exact absurd (hreported.symm.trans this) (by decide)
    · intro c' r' heq
      cases heq
  · refine Lib.appended_concat.mpr ⟨Lib.appended_concat.mpr ⟨h.alternates.resumed, ?_⟩, ?_⟩
    · -- a resumption: the interval is open, so a loss opened it
      intro c' r' heq
      injection heq with htype
      have hreported : s.firstHostDataReported = true := by
        cases hs : s.firstHostDataReported with
        | true => rfl
        | false =>
            rw [he, hs] at htype
            cases htype
      have hactive : s.withheldActive = true :=
        hopen.resolve_left fun hf => absurd (hf.symm.trans hreported) (by decide)
      exact ⟨(h.reported hcert).mp hreported, h.lost hcert hreported (.inl hactive)⟩
    · intro c' r' heq
      cases heq
  · refine Lib.appended_concat.mpr ⟨Lib.appended_concat.mpr ⟨h.alternates.answered, ?_⟩, ?_⟩
    · intro heq
      cases heq
    · exact fun _ _ => ⟨_, hsince⟩

theorem noData (hcert : s.epochCertified = true)
    (hclosed : s.withheldActive = false) : Alternates RxMark.owed (log ++ [RxMark.packet]) := by
  refine ⟨?_, ?_, ?_⟩
  · refine Lib.appended_concat.mpr ⟨h.alternates.first, ?_⟩
    intro c' r' heq
    cases heq
  · refine Lib.appended_concat.mpr ⟨h.alternates.resumed, ?_⟩
    intro c' r' heq
    cases heq
  · refine Lib.appended_concat.mpr ⟨h.alternates.answered, ?_⟩
    intro _ howed
    exact absurd (hclosed.symm.trans (h.owed hcert howed)) (by decide)

theorem packet (hcert : s.epochCertified = true) (m : RxPacketMeta)
    (layout : RxLayout) (admissionNs : ℕ) :
    ∃ es, (s.packetAdmitted m layout admissionNs).events = s.events ++ es ∧
      Kept ⟨s.packetAdmitted m layout admissionNs, log ++ RxMark.events es c r ++ [RxMark.packet]⟩ := by
  unfold packetAdmitted
  dsimp only
  have hidle : ∀ es, ∀ x ∈ Lib.since RxMark.isPacket (log ++ RxMark.events es c r ++ [RxMark.packet]),
      x.hostData = false := by
    intro es x hx
    rw [Lib.since_mark rfl] at hx
    cases hx
  have hsettled : ∀ es, ¬ ∃ x ∈ Lib.since RxMark.settles
      (log ++ RxMark.events es c r ++ [RxMark.packet]), x.owed = true := by
    rintro es ⟨x, hx, -⟩
    rw [Lib.since_mark rfl] at hx
    cases hx
  split
  · rename_i hopen
    have hopen' : s.firstHostDataReported = false ∨ s.withheldActive = true := by
      simpa using hopen
    have hdata : RxMark.hostData (.event (s.hostDataEvent m layout admissionNs).eventType c r) =
        true := by
      unfold hostDataEvent
      dsimp only
      split <;> rfl
    refine ⟨[s.hostDataEvent m layout admissionNs], rfl, ?_⟩
    exact {
      contract := h.contract
      reported := fun _ => by
        refine ⟨fun _ => ⟨_, ?_, hdata⟩, fun _ => rfl⟩
        rw [Lib.since_concat, RxMark.since_opens_events]
        simp [RxMark.opens, RxMark.events]
      lost := fun _ _ hopen => by
        rcases hopen with ho | ho
        · cases ho
        · exact absurd rfl ho
      owed := fun _ howed => absurd howed (hsettled _)
      idle := hidle _
      alternates := h.data hcert hopen' rfl }
  · rename_i hclosed
    obtain ⟨hreported, hactive⟩ : s.firstHostDataReported = true ∧ s.withheldActive = false := by
      simpa using hclosed
    refine ⟨[], (List.append_nil _).symm, ?_⟩
    exact {
      contract := h.contract
      reported := fun hc => by
        rw [Lib.since_concat, RxMark.since_opens_events]
        simpa [RxMark.opens, RxMark.events, rearmNotifications, RxMark.hostData] using
          h.reported hc
      lost := fun _ _ hopen => by
        rcases hopen with ho | ho
        · exact absurd (hactive.symm.trans ho) (by decide)
        · exact absurd rfl ho
      owed := fun _ howed => absurd howed (hsettled _)
      idle := hidle _
      alternates := by simpa [RxMark.events] using h.noData hcert hactive }

end

end RxHistory.Kept

/-! ## Every section keeps it -/

namespace RxHistory

variable {h h' : RxHistory} {s : RxNotify} {log : List RxMark}

theorem appended_of {c : RxNotifySection} {es : List RxEvent}
    (he : (s.run c).events = s.events ++ es) : appended s c = es := by
  simp [appended, he]

theorem Kept.notePacket (hk : Kept ⟨s, log⟩) (m : RxPacketMeta) (layout : RxLayout)
    (admissionNs now : ℕ) (c r : Bool) :
    ∃ es, (s.noteFirstPacketAt m layout admissionNs now).events = s.events ++ es ∧
      Kept ⟨s.noteFirstPacketAt m layout admissionNs now, log ++ RxMark.events es c r ++
        (if s.admits m layout admissionNs then [.packet] else [])⟩ := by
  have hlosing : ∀ t es, RxNotify.Loses s t es true → s.admits m layout admissionNs = false →
      ∃ es, t.events = s.events ++ es ∧ Kept ⟨t, log ++ RxMark.events es c r ++
        (if s.admits m layout admissionNs then [.packet] else [])⟩ := by
    intro t es hl hno
    refine ⟨es, hl.events, ?_⟩
    rw [hno]
    simpa using hk.loses hl fun _ _ => rfl
  unfold noteFirstPacketAt
  split
  · rename_i hcert
    refine hlosing s [] (.nothing rfl rfl rfl rfl rfl id) ?_
    simp_all [admits]
  · rename_i hcert
    have hcertified : s.packetCertified m layout = true := by simpa using hcert
    split
    · rename_i hselected
      obtain ⟨es, hl⟩ := RxNotify.Loses.selectionWithheld (s := s) m now true
      refine hlosing _ es hl ?_
      simp_all [admits]
    · rename_i hselected
      split
      · rename_i hlate
        refine hlosing _ [] (.failFirstHostData _) ?_
        simp_all [admits]
      · rename_i hlate
        have hadmits : s.admits m layout admissionNs = true := by simp_all [admits]
        have hepoch : s.epochCertified = true := by
          simp only [packetCertified, decide_eq_true_eq] at hcertified
          exact hcertified.2.2.2.1
        rw [hadmits]
        simpa using hk.packet hepoch m layout admissionNs

theorem Kept.prepare (hk : Kept ⟨s, log⟩) (e : RxEvent) (deadlineNs : ℕ)
    (clock₁ clock₂ : Option ℕ) (now : ℕ) (c r : Bool) :
    ∃ es, (s.epochAdmissionPrepare e deadlineNs clock₁ clock₂ now).1.events = s.events ++ es ∧
      Kept ⟨(s.epochAdmissionPrepare e deadlineNs clock₁ clock₂ now).1,
        log ++ RxMark.events es c r ++
          (if (s.epochAdmissionPrepare e deadlineNs clock₁ clock₂ now).2 = .ok then [.certified]
            else [])⟩ := by
  rcases s.epochAdmissionPrepare_cases e deadlineNs clock₁ clock₂ now with
    ⟨status, hstatus, heq⟩ | ⟨hvalid, hcontract, heq⟩
  · refine ⟨[], by simp [heq], ?_⟩
    rw [heq, if_neg hstatus]
    simpa [RxMark.events] using hk
  · refine ⟨[{ e with hostMonotonicNs := now }], by rw [heq]; rfl, ?_⟩
    have hquiet : ∀ e' ∈ [{ e with hostMonotonicNs := now }], e'.eventType.hostData = false := by
      intro e' he'
      rw [List.mem_singleton.mp he']
      exact hvalid ▸ rfl
    rw [heq, if_pos rfl]
    refine Kept.opened (hk.revoked (t := s.epochRevokeAdmission) rfl hquiet) rfl hcontract rfl
      fun _ howed => ?_
    obtain ⟨x, hx, -⟩ := howed
    rw [Lib.since_mark rfl] at hx
    cases hx

theorem Kept.allocate (hk : Kept ⟨s, log⟩) (id : BitVec 32) (channel : ℕ)
    (x2Required epochRequired firstDataRequired : Bool) :
    Kept ⟨s.allocate id channel x2Required epochRequired firstDataRequired,
      log ++ if epochRequired then [.allocated] else []⟩ := by
  cases epochRequired with
  | false =>
      rw [if_neg (by decide), List.append_nil]
      exact ⟨hk.contract, hk.reported, hk.lost, hk.owed, hk.idle, hk.alternates⟩
  | true =>
      refine hk.opened rfl rfl rfl fun hcert howed => hk.owed hcert ?_
      obtain ⟨x, hx, hx'⟩ := howed
      rw [Lib.since_concat, if_neg (by decide)] at hx
      rcases List.mem_append.mp hx with hx | hx
      · exact ⟨x, hx, hx'⟩
      · rw [List.mem_singleton.mp hx] at hx'
        cases hx'

theorem Kept.step (hk : Kept h) {c : RxNotifySection} (hs : step h c = some h') : Kept h' := by
  obtain ⟨s, log⟩ := h
  unfold RxHistory.step at hs
  split at hs
  · rename_i hc
    obtain rfl := Option.some.inj hs
    have hof : ∀ es, (s.run c).events = s.events ++ es →
        Kept ⟨s.run c, log ++ RxMark.events es (s.ofCertificate c) c.rejectsConfiguration ++
          point s c⟩ → Kept ⟨s.run c, log ++ (appended s c).map (mark s c) ++ point s c⟩ := by
      intro es he hk
      rwa [← appended_of he] at hk
    have hlosing : ∀ {owed : Bool}, (∃ es, RxNotify.Loses s (s.run c) es owed) → point s c = [] →
        (s.ofCertificate c = true → c.rejectsConfiguration = false → owed = true) →
        Kept ⟨s.run c, log ++ (appended s c).map (mark s c) ++ point s c⟩ := by
      rintro owed ⟨es, hl⟩ hpoint howed
      refine hof es hl.events ?_
      rw [hpoint, List.append_nil]
      exact hk.loses hl howed
    have hrevoking : ∀ es, (s.run c).events = s.events ++ es → (s.run c).epochCertified = false →
        (∀ e ∈ es, e.eventType.hostData = false) → point s c = [] →
        Kept ⟨s.run c, log ++ (appended s c).map (mark s c) ++ point s c⟩ := by
      intro es he hcert hquiet hpoint
      refine hof es he ?_
      rw [hpoint, List.append_nil]
      exact hk.revoked hcert hquiet
    cases c with
    | prepare e deadlineNs clock₁ clock₂ now =>
        obtain ⟨es, he, hk'⟩ := hk.prepare e deadlineNs clock₁ clock₂ now _ _
        exact hof es he hk'
    | revoke => exact hrevoking [] (by simp [run]; rfl) rfl (by simp) rfl
    | revokeFailed status =>
        have hevents : (s.revokeFailedTransitionAdmission status).events = s.events := by
          unfold revokeFailedTransitionAdmission
          dsimp only
          split <;> rfl
        have hcert : (s.revokeFailedTransitionAdmission status).epochCertified = false := by
          unfold revokeFailedTransitionAdmission
          dsimp only
          split <;> rfl
        exact hrevoking [] (hevents.trans (List.append_nil _).symm) hcert (by simp) rfl
    | transitionEvent e =>
        have hquiet : ∀ e' ∈ [e], e'.eventType.hostData = false := by
          intro e' he'
          rw [List.mem_singleton.mp he']
          simpa [RxNotifySection.admissible] using hc
        rcases s.transitionEvent_cases e with heq | ⟨hevents, hcert⟩
        · have hrun : s.run (.transitionEvent e) = s.append e := heq
          refine hlosing ⟨[e], ?_⟩ rfl fun h _ => h
          rw [hrun]
          exact .keep rfl hquiet rfl rfl rfl rfl id fun h => by cases h
        · exact hrevoking [e] hevents hcert hquiet rfl
    | allocate id channel x2Required epochRequired firstDataRequired =>
        exact hof [] (by cases epochRequired <;> exact (List.append_nil _).symm)
          (by rw [RxMark.events, List.map_nil, List.append_nil]; exact hk.allocate _ _ _ _ _)
    | setEpochId epochId => exact hlosing ⟨[], .nothing rfl rfl rfl rfl rfl id⟩ rfl fun _ _ => rfl
    | setDeadline deadlineNs =>
        exact hlosing ⟨[], .nothing rfl rfl rfl rfl rfl id⟩ rfl fun _ _ => rfl
    | failHostData status => exact hlosing ⟨[], .failFirstHostData status⟩ rfl fun _ _ => rfl
    | withheld reason source now =>
        exact hlosing (RxNotify.Loses.dataWithheld reason source now) rfl fun h _ => h
    | withheldReset => exact hlosing ⟨[], .rearmNotifications⟩ rfl fun _ _ => rfl
    | notePacket m layout admissionNs now =>
        obtain ⟨es, he, hk'⟩ := hk.notePacket m layout admissionNs now _ _
        exact hof es he hk'
    | syncNotePacket m layout admissionNs now =>
        cases hnotes : s.notesPacket m admissionNs with
        | true =>
            obtain ⟨es, he, hk'⟩ := hk.notePacket m layout admissionNs now _ _
            refine hof es ?_ ?_
            · simpa [run, transitionNoteFirstPacketAt, hnotes] using he
            · simpa [run, transitionNoteFirstPacketAt, point, hnotes] using hk'
        | false =>
            have hrun : s.run (.syncNotePacket m layout admissionNs now) = s := by
              simp [run, transitionNoteFirstPacketAt, hnotes]
            refine hlosing ⟨[], ?_⟩ (by simp [point, hnotes]) fun h _ => h
            rw [hrun]
            exact .nothing rfl rfl rfl rfl rfl id
    | discontinuity expectedEpochId timestamp now now' =>
        exact hlosing
          (RxNotify.Loses.asyncTimestampDiscontinuity expectedEpochId timestamp now now') rfl
          fun h _ => h
    | asyncOverrun now => exact hlosing (RxNotify.Loses.asyncStreamOverrun now) rfl fun h _ => h
    | overrun sourceFlags source now =>
        exact hlosing (RxNotify.Loses.streamOverrun sourceFlags source now) rfl fun h _ => h
    | workerOverrun sourceFlags now =>
        exact hlosing (RxNotify.Loses.workerStreamOverrun sourceFlags now) rfl fun h _ => h
    | fpgaLoss e => exact hlosing (RxNotify.Loses.publishRxFpgaLossEvent e) rfl fun h _ => h
    | formatUnsupported format deduplicate now =>
        refine hlosing (RxNotify.Loses.formatUnsupported format deduplicate now) rfl fun h hr => ?_
        have hdedup : deduplicate = true := by simpa [RxNotifySection.rejectsConfiguration] using hr
        rw [h, hdedup]
        rfl
    | channelMask mask =>
        cases mask with
        | none => exact hlosing ⟨[], .nothing rfl rfl rfl rfl rfl id⟩ rfl fun _ _ => rfl
        | some mask => exact hlosing ⟨[], .nothing rfl rfl rfl rfl rfl id⟩ rfl fun _ _ => rfl
    | commitCursor valid epochId expected =>
        exact hlosing ⟨[], .nothing rfl rfl rfl rfl rfl id⟩ rfl fun _ _ => rfl
    | event e =>
        have hquiet : ∀ e' ∈ [e], e'.eventType.hostData = false := by
          intro e' he'
          rw [List.mem_singleton.mp he']
          simpa [RxNotifySection.admissible] using hc
        exact hlosing ⟨[e], .keep rfl hquiet rfl rfl rfl rfl id fun h => by cases h⟩ rfl
          fun h _ => h
  · cases hs

/-! ## The promise -/

theorem Kept.start (hs : s.epochCertified = false) : Kept ⟨s, []⟩ where
  contract h := absurd (hs.symm.trans h) (by decide)
  reported h := absurd (hs.symm.trans h) (by decide)
  lost h := absurd (hs.symm.trans h) (by decide)
  owed h := absurd (hs.symm.trans h) (by decide)
  idle x hx := by cases hx
  alternates := ⟨Lib.appended_nil, Lib.appended_nil, Lib.appended_nil⟩

/-- In every run from a board without a certificate the data events of the
consumer alternate with the losses, the rejection of a sync configuration
apart. -/
theorem data_events_alternate (hs : s.epochCertified = false) {cs : List RxNotifySection}
    (hrun : Lib.Steps step (fun _ _ => True) ⟨s, []⟩ cs h) : Alternates RxMark.owed h.log :=
  (hrun.invariant (Kept.start hs) fun hk _ hstep => hk.step hstep).alternates

def somePacket (timestamp : BitVec 64) : RxPacketMeta := ⟨timestamp, 0, 1, true, 5⟩

/-- Transaction 1 is certified at timestamp 100, and its first packet admitted. -/
def certifiedStart : List RxNotifySection :=
  [.allocate 1 0 false true false, .setEpochId 5, .channelMask (some 1),
    .prepare { RxEvent.zero with
      fpgaTimestamp := 100
      transactionId := 1
      epochId := 5
      fpgaState := .dataValid
      eventType := .epochValid } 50 (some 10) (some 11) 12,
    .notePacket (somePacket 100) .x1 20 20]

def lossAndResumption : List RxNotifySection :=
  [.overrun 0 ⟨5, 200, true⟩ 30, .notePacket (somePacket 300) .x1 40 40]

theorem data_events_alternate_resumed : ∃ h, Lib.Steps step (fun _ _ => True) ⟨.closed, []⟩
    (certifiedStart ++ lossAndResumption) h ∧ Alternates RxMark.owed h.log ∧
      h.log.filter RxMark.hostData = [.event .firstValidHostData true false,
        .event .dataResumed true false] := by
  have hexec : (Lib.exec step (fun _ _ => True) ⟨.closed, []⟩
      (certifiedStart ++ lossAndResumption)).map (fun h => h.log.filter RxMark.hostData) =
        some [.event .firstValidHostData true false, .event .dataResumed true false] := by rfl
  obtain ⟨h, hh, hdata⟩ := Option.map_eq_some_iff.mp hexec
  have hrun := Lib.Steps.of_exec hh
  exact ⟨h, hrun, data_events_alternate rfl hrun, hdata⟩

/-- A sync configuration is rejected while certified data flows: the event is a
loss of the certified epoch, and the next packet does not answer it. -/
theorem rejection_is_not_answered : ¬ ∀ (s : RxNotify) (cs : List RxNotifySection) (h : RxHistory),
    s.epochCertified = false → Lib.Steps step (fun _ _ => True) ⟨s, []⟩ cs h →
      Alternates RxMark.certifiedLoss h.log := by
  intro hall
  have hexec : (Lib.exec step (fun _ _ => True) ⟨.closed, []⟩ (certifiedStart ++
      [.formatUnsupported 0 false 30, .notePacket (somePacket 300) .x1 40 40])).map (·.log) =
        some ([.allocated, .event .epochValid false false, .certified,
          .event .firstValidHostData true false, .packet, .event .formatUnsupported true true] ++
            [.packet]) := by rfl
  obtain ⟨h, hh, hlog⟩ := Option.map_eq_some_iff.mp hexec
  have hanswered := (hall .closed _ h rfl (.of_exec hh)).answered
  rw [hlog] at hanswered
  obtain ⟨d, hd⟩ := hanswered _ .packet List.prefix_rfl rfl
    ⟨.event .formatUnsupported true true, by decide, rfl⟩
  have hlength : 0 = 1 := congrArg List.length hd
  exact absurd hlength (by decide)

end RxHistory
end BladeRF
