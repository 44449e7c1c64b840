/-
# `Board.TxValidity` — what the TX events say, in the order they say it

Three TX events claim a working path: the RFIC certificate, the recovery of the
status and the completion of a retune.  All three are appended by the fault
monitor, which decides under `dev->lock` and appends in a later critical
section of `rx_async_epoch_lock`.  A USB callback that lost the transport takes
the second lock only.

The recovery event looks at the transport latch in the section that appends
it.  The other two do not.
-/
import BladeRF.Lib.Since
import BladeRF.Lib.Steps
import BladeRF.Board.TxAdmission

namespace BladeRF

/-! ## A pass of the monitor -/

inductive TxRficObservation
  | unavailable
  | invalid
  | configInvalid
  | valid
  deriving DecidableEq

def rfLinkTxEpochValid (status : BitVec 32) (expected : BitVec 8) : Bool :=
  status &&& 0xf0000000 = 0x20000000 ∧ status.getLsbD 9 ∧ status.getLsbD 12 ∧ status.getLsbD 0 ∧
    linkEpochOf status = expected

/-- TX flags that only holders of `dev->lock` touch. -/
structure TxReports where
  linkEpochId : BitVec 8
  recoveryBlocked : Bool
  statusUnavailableReported : Bool
  rficStateInvalidReported : Bool
  rficStateValidReported : Bool

/-- What a pass has read and found before it looks for recovery. -/
structure TxPass where
  linkStatus : BitVec 32
  linkStatusError : RetCode
  lossCountStatus : RetCode
  rficStatus : RetCode
  retune2Status : RetCode
  retune2SuccessStatus : RetCode
  rficObservation : TxRficObservation
  /-- calibration, ENSM and PLL words, packed for the event -/
  rficWord : BitVec 32
  lossCountValid : Bool
  counterBaselineWasValid : Bool
  abortGatePending : Bool
  abortRetuneGate : Bool
  reportFault : Bool
  reportEpochInvalid : Bool
  reportUnderrun : Bool
  reportRetuneFailure : Bool
  reportRetuneCounterReset : Bool
  counterReset : Bool
  /-- the gate is ACTIVE, its release was requested and RESUME is shown -/
  gateResumed : Bool
  deriving DecidableEq

/-- Where the monitor stands; everything between `idle` and the end of
`reported` is under `dev->lock`. -/
inductive TxMonitorPc
  | idle
  | detecting
  | judging (p : TxPass)
  | gating (p : TxPass)
  | releasing (p : TxPass)
  | resumeDecided (p : TxPass) (appliedHz : ℕ)
  | resumeCleared (p : TxPass) (appliedHz : ℕ)
  | recovering (p : TxPass)
  | recoveryDecided (p : TxPass) (frequencyModelKnown : Bool)
  | concluding (p : TxPass) (frequencyModelKnown : Bool)
  | reporting (p : TxPass) (rficValid : Bool)
  | reported (p : TxPass)
  deriving DecidableEq

namespace TxPass

variable (p : TxPass) (r : TxReports) (tx : TxAdmission)

def releasePrerequisites : Bool :=
  tx.retune2AppliedWaitingRfValid ∧ tx.retune2PendingCount = 0 ∧ p.linkStatusError = .ok ∧
    p.lossCountStatus = .ok ∧ p.retune2Status = .ok ∧ p.retune2SuccessStatus = .ok ∧
    p.counterBaselineWasValid ∧ rfLinkTxEpochValid p.linkStatus r.linkEpochId ∧
    !r.recoveryBlocked ∧ !p.reportFault ∧ !p.reportEpochInvalid ∧ !p.reportUnderrun ∧
    !p.reportRetuneFailure ∧ !p.reportRetuneCounterReset ∧ !p.counterReset ∧
    p.rficObservation = .valid

def releaseStillValid : Bool :=
  tx.retune2AppliedWaitingRfValid ∧ tx.retune2PendingCount = 0 ∧ !tx.retune2CompletionFaulted ∧
    !tx.gateAbortPending ∧ !tx.asyncTransportFaulted

def resumeIsValid : Bool :=
  tx.retune2PendingCount = 0 ∧ tx.retune2AppliedWaitingRfValid ∧ !tx.gateAbortPending ∧
    !tx.asyncTransportFaulted ∧ tx.frequencyModelValid

def recovers : Bool :=
  p.linkStatusError = .ok ∧ p.lossCountStatus = .ok ∧ p.retune2Status = .ok ∧
    p.retune2SuccessStatus = .ok ∧ tx.retune2PendingCount = 0 ∧ !tx.retune2CompletionFaulted ∧
    tx.frequencyModelValid ∧ p.rficObservation = .valid ∧
    rfLinkTxEpochValid p.linkStatus r.linkEpochId ∧
    (r.statusUnavailableReported ∨ tx.retuneRecoveryPending) ∧ !r.recoveryBlocked ∧
    p.lossCountValid ∧ p.counterBaselineWasValid ∧ !p.reportFault ∧ !p.reportUnderrun ∧
    !p.reportRetuneFailure ∧ !p.counterReset ∧ !p.abortGatePending ∧ !p.abortRetuneGate

def certifiesRfic (frequencyModelKnown : Bool) : Bool :=
  p.linkStatusError = .ok ∧ p.lossCountStatus = .ok ∧ p.retune2Status = .ok ∧
    p.rficStatus = .ok ∧ p.rficObservation = .valid ∧
    rfLinkTxEpochValid p.linkStatus r.linkEpochId ∧ !r.rficStateInvalidReported ∧
    !r.rficStateValidReported ∧ !tx.retune2CompletionFaulted ∧ frequencyModelKnown ∧
    !r.recoveryBlocked ∧ !p.reportFault ∧ !p.reportEpochInvalid ∧ !p.reportUnderrun ∧
    !p.counterReset

end TxPass

/-! ## The system -/

structure TxValidity where
  tx : TxAdmission
  reports : TxReports
  monitor : TxMonitorPc

/-- A section that neither claims a working path nor starts the link nor
reports the transport: what is left to the setters, the retune ledgers, the
submitters and the fault branches of the monitor. -/
def TxSection.plain : TxSection → Bool
  | .setFaulted faulted => faulted
  | .newEpoch _ _ _ | .statusRecovery _ _ => false
  | .streamEvent type _ _ _ _ => type.negative ∧ type ≠ .transportError
  | .retuneEvent type _ _ _ _ _ => type ≠ .retuneValid
  | _ => true

inductive TxValidityLabel
  | section (c : TxSection)
  | configurationFence
  | transportFailure (errorCode : RetCode) (now : ℕ)
  | gateAbortRequest
  | gateAbortMark
  | gateAbortSucceeded (generation : ℕ)
  | gateAbortFailed
  /-- a START that was confirmed, up to its new epoch -/
  | linkStart (linkStatus : BitVec 32) (baseline now : ℕ)
  /-- another holder of `dev->lock` -/
  | setReports (r : TxReports)
  | beginPass
  | observe (p : TxPass) (r : TxReports)
  | prerequisites
  | release
  | resume (appliedHz : ℕ)
  | resumeClear
  | resumeReport (now : ℕ)
  | recover
  | recoverReport (now : ℕ)
  | conclude
  | reportRficValid (now : ℕ)
  | finish

namespace TxValidity

variable (v : TxValidity)

def start (r : TxReports) : TxValidity := ⟨.closed, r, .idle⟩

/-- The flags that a START with TX active clears ahead of its new epoch. -/
def startReports (r : TxReports) (linkStatus : BitVec 32) : TxReports :=
  { r with
    linkEpochId := linkEpochOf linkStatus
    rficStateValidReported := false
    rficStateInvalidReported := false }

def linkStart (linkStatus : BitVec 32) (baseline now : ℕ) : TxValidity :=
  let (tx, valid) := v.tx.streamNewEpoch linkStatus baseline now
  let r := startReports v.reports linkStatus
  { v with
    tx := tx
    reports := if valid then { r with recoveryBlocked := false, statusUnavailableReported := false }
      else r }

def resumeSection (tx : TxAdmission) : TxAdmission :=
  if TxPass.resumeIsValid tx then
    { tx with
      retune2AppliedWaitingRfValid := false
      retuneGateReleaseRequested := false
      retune2CompletionFaulted := false }
  else if tx.retune2PendingCount = 0 then
    { tx with
      retune2AppliedWaitingRfValid := false
      retuneGateReleaseRequested := false }
  else tx

/-- The monitor after the recovery event, or after its refusal. -/
def recovered (p : TxPass) (known : Bool) : TxAdmission × Bool → TxValidity
  | (tx, true) =>
      { v with
        tx := { tx with retuneRecoveryPending := false }
        reports := { v.reports with statusUnavailableReported := false }
        monitor := .concluding p known }
  | (tx, false) => { v with tx := tx, monitor := .concluding p known }

def step : TxValidityLabel → Option TxValidity
  | .section c => if c.plain then some { v with tx := c.run v.tx } else none
  | .configurationFence => some { v with tx := v.tx.configurationFence }
  | .transportFailure errorCode now =>
      some { v with tx := v.tx.asyncTransportFailure errorCode now }
  | .gateAbortRequest => some { v with tx := v.tx.gateAbortRequest }
  | .gateAbortMark => some { v with tx := v.tx.gateAbortMark }
  | .gateAbortSucceeded generation => some { v with tx := v.tx.gateAbortSucceeded generation }
  | .gateAbortFailed => some { v with tx := v.tx.gateAbortFailed.1 }
  | .linkStart linkStatus baseline now =>
      if v.monitor = .idle then some (v.linkStart linkStatus baseline now) else none
  | .setReports r => if v.monitor = .idle then some { v with reports := r } else none
  | .beginPass => if v.monitor = .idle then some { v with monitor := .detecting } else none
  | .observe p r =>
      if v.monitor = .detecting then some { v with reports := r, monitor := .judging p } else none
  | .prerequisites =>
      match v.monitor with
      | .judging p =>
          some { v with
            monitor := if p.releasePrerequisites v.reports v.tx then .gating p else .recovering p }
      | _ => none
  | .release =>
      match v.monitor with
      | .gating p =>
          some { v with
            monitor := if TxPass.releaseStillValid v.tx then .releasing p else .recovering p }
      | _ => none
  | .resume appliedHz =>
      match v.monitor with
      | .releasing p =>
          some (if !p.gateResumed then { v with monitor := .recovering p }
            else { v with
              tx := resumeSection v.tx
              monitor := if TxPass.resumeIsValid v.tx then .resumeDecided p appliedHz
                else .recovering { p with abortRetuneGate := true } })
      | _ => none
  | .resumeClear =>
      match v.monitor with
      | .resumeDecided p appliedHz =>
          some { v with
            tx := v.tx.streamSetFaulted false
            monitor := .resumeCleared p appliedHz }
      | _ => none
  | .resumeReport now =>
      match v.monitor with
      | .resumeCleared p appliedHz =>
          some { v with
            tx := v.tx.retuneEvent .retuneValid appliedHz appliedHz 0 .ok now
            monitor := .recovering p }
      | _ => none
  | .recover =>
      match v.monitor with
      | .recovering p =>
          some { v with
            monitor := if p.recovers v.reports v.tx then .recoveryDecided p v.tx.frequencyModelValid
              else .concluding p v.tx.frequencyModelValid }
      | _ => none
  | .recoverReport now =>
      match v.monitor with
      | .recoveryDecided p known =>
          some (v.recovered p known (v.tx.statusRecoveryEvent p.linkStatus now))
      | _ => none
  | .conclude =>
      match v.monitor with
      | .concluding p known =>
          some (if p.certifiesRfic v.reports v.tx known then
              { v with
                reports := { v.reports with rficStateValidReported := true }
                monitor := .reporting p true }
            else { v with monitor := .reporting p false })
      | _ => none
  | .reportRficValid now =>
      match v.monitor with
      | .reporting p rficValid =>
          some { v with
            tx := if rficValid then v.tx.streamEvent .rficStateValid 0 p.rficWord .ok now else v.tx
            monitor := .reported p }
      | _ => none
  | .finish =>
      match v.monitor with
      | .reported p =>
          some { v with
            tx := if p.abortRetuneGate then { v.tx with gateAbortPending := true } else v.tx
            monitor := .idle }
      | _ => none

/-- The steps of the monitor that append without a look at the transport latch:
RETUNE_VALID, and the certificate of a pass that has one to report. -/
def unfenced : TxValidityLabel → Bool
  | .resumeReport _ => true
  | .reportRficValid _ =>
      match v.monitor with
      | .reporting _ rficValid => rficValid
      | _ => false
  | _ => false

end TxValidity

/-! ## What the events promise -/

namespace TxEvent

def startsLink (e : TxEvent) : Bool := e.eventType = .linkValid

def certifies (e : TxEvent) : Bool := e.eventType = .rficStateValid ∨ e.eventType = .statusRecovered

end TxEvent

/-- The transport was reported lost and no link START was reported since. -/
def TransportLost (events : List TxEvent) : Prop :=
  ∃ e ∈ Lib.since TxEvent.startsLink events, e.eventType = .transportError

/-- The events tell the truth in order, and so does the certificate. -/
structure Truthful (tx : TxAdmission) : Prop where
  /-- nothing positive is appended while the transport is lost -/
  fenced : Lib.Appended (fun past e => e.eventType.positive = true → ¬ TransportLost past) tx.events
  /-- and nothing is certified -/
  closed : TransportLost tx.events → tx.asyncRficStateCertified = false
  /-- a certificate is newer than every negative event -/
  fresh : tx.asyncRficStateCertified = true →
    (∃ e ∈ tx.events, e.certifies = true) ∧
      ∀ e ∈ Lib.since TxEvent.certifies tx.events, e.eventType.negative = false

/-- What makes the promise good: the latch stands for the lost transport. -/
structure Latched (tx : TxAdmission) : Prop where
  latched : TransportLost tx.events → tx.asyncTransportFaulted = true
  certified : tx.asyncTransportFaulted = true → tx.asyncRficStateCertified = false

variable {tx t : TxAdmission} {e : TxEvent}

theorem transportLost_concat {events : List TxEvent} (h : TransportLost (events ++ [e])) :
    e.eventType = .transportError ∨ e.startsLink = false ∧ TransportLost events := by
  obtain ⟨f, hf, hlost⟩ := h
  rw [Lib.since_concat] at hf
  split at hf
  · cases hf
  · rename_i hstart
    rcases List.mem_append.mp hf with hf | hf
    · exact .inr ⟨by simpa using hstart, f, hf, hlost⟩
    · exact .inl (List.mem_singleton.mp hf ▸ hlost)

def TxAdmission.Honest (tx : TxAdmission) : Prop := Truthful tx ∧ Latched tx

namespace TxAdmission.Honest

theorem keep (h : tx.Honest) (hevents : t.events = tx.events)
    (hlatch : t.asyncTransportFaulted = tx.asyncTransportFaulted)
    (hcert : t.asyncRficStateCertified = true → tx.asyncRficStateCertified = true) : t.Honest := by
  obtain ⟨⟨hfenced, hclosed, hfresh⟩, hlatched, hcertified⟩ := h
  have hdrop : tx.asyncRficStateCertified = false → t.asyncRficStateCertified = false := by
    intro h0
    cases ht : t.asyncRficStateCertified with
    | false => rfl
    | true => rw [hcert ht] at h0; cases h0
  refine ⟨⟨?_, fun hlost => hdrop (hclosed (hevents ▸ hlost)), fun ht => ?_⟩,
    fun hlost => hlatch ▸ hlatched (hevents ▸ hlost), fun hl => hdrop (hcertified (hlatch ▸ hl))⟩
  · rw [hevents]
    exact hfenced
  · rw [hevents]
    exact hfresh (hcert ht)

theorem append (h : tx.Honest) (hevents : t.events = tx.events ++ [e])
    (hpos : e.eventType.positive = true → tx.asyncTransportFaulted = false)
    (hlatch : e.startsLink = false → tx.asyncTransportFaulted = true →
      t.asyncTransportFaulted = true)
    (herror : e.eventType = .transportError → t.asyncTransportFaulted = true)
    (hclosed : t.asyncTransportFaulted = true → t.asyncRficStateCertified = false)
    (hcert : t.asyncRficStateCertified = true → e.certifies = true ∨
      tx.asyncRficStateCertified = true ∧ e.eventType.negative = false) : t.Honest := by
  obtain ⟨⟨hfenced, -, hfresh⟩, hlatched, -⟩ := h
  have hlost : TransportLost t.events → t.asyncTransportFaulted = true := by
    intro hl
    rw [hevents] at hl
    rcases transportLost_concat hl with he | ⟨hstart, hl⟩
    · exact herror he
    · exact hlatch hstart (hlatched hl)
  refine ⟨⟨?_, fun hl => hclosed (hlost hl), fun ht => ?_⟩, hlost, hclosed⟩
  · rw [hevents, Lib.appended_concat]
    refine ⟨hfenced, fun hp hl => ?_⟩
    have hf := hlatched hl
    rw [hpos hp] at hf
    cases hf
  · rw [hevents]
    rcases hcert ht with he | ⟨hold, hneg⟩
    · exact ⟨⟨e, by simp, he⟩, fun f hf => by simp [he] at hf⟩
    · obtain ⟨⟨f, hf, hfc⟩, hall⟩ := hfresh hold
      refine ⟨⟨f, by simp [hf], hfc⟩, fun g hg => ?_⟩
      rw [Lib.since_concat] at hg
      split at hg
      · cases hg
      · rcases List.mem_append.mp hg with hg | hg
        · exact hall g hg
        · exact List.mem_singleton.mp hg ▸ hneg

theorem appendRevoked (h : tx.Honest) (hevents : t.events = tx.events ++ [e])
    (hpos : e.eventType.positive = false)
    (hlatch : e.startsLink = false → tx.asyncTransportFaulted = true →
      t.asyncTransportFaulted = true)
    (herror : e.eventType = .transportError → t.asyncTransportFaulted = true)
    (hcert : t.asyncRficStateCertified = false) : t.Honest := by
  refine h.append hevents (fun hp => ?_) hlatch herror (fun _ => hcert) fun ht => ?_
  · rw [hpos] at hp
    cases hp
  · rw [hcert] at ht
    cases ht

/-! ### One lemma for each section -/

section

variable (h : tx.Honest)

include h

theorem streamSetFaulted (faulted : Bool) : (tx.streamSetFaulted faulted).Honest := by
  refine h.keep ?_ ?_ ?_ <;> simp only [TxAdmission.streamSetFaulted] <;> split_ifs <;> simp_all

theorem configurationFence : tx.configurationFence.Honest := h.keep rfl rfl id

theorem asyncTransportFailure (errorCode : RetCode) (now : ℕ) :
    (tx.asyncTransportFailure errorCode now).Honest := by
  simp only [TxAdmission.asyncTransportFailure]
  split
  · exact h.appendRevoked rfl rfl (fun _ _ => rfl) (fun _ => rfl) rfl
  · rename_i hreport
    exact h.keep rfl (by simpa using hreport) fun ht => by cases ht

theorem streamNewEpoch (linkStatus : BitVec 32) (baseline now : ℕ) :
    (tx.streamNewEpoch linkStatus baseline now).1.Honest := by
  simp only [TxAdmission.streamNewEpoch]
  split_ifs
  · exact h.keep rfl rfl fun ht => by cases ht
  · exact h.keep rfl rfl fun ht => by cases ht
  · exact h.appendRevoked rfl rfl (fun hs => by cases hs) (fun he => by cases he) rfl

theorem statusRecoveryEvent (linkStatus : BitVec 32) (now : ℕ) :
    (tx.statusRecoveryEvent linkStatus now).1.Honest := by
  simp only [TxAdmission.statusRecoveryEvent]
  split
  · exact h
  · rename_i hlatch
    have hok : tx.asyncTransportFaulted = false := by simp_all
    exact h.append rfl (fun _ => hok) (fun _ hf => hf) (fun he => by cases he)
      (fun hf => absurd (hf.symm.trans hok) (by decide)) fun _ => .inl rfl

theorem streamEvent_negative {type : TxEventType} (hneg : type.negative = true)
    (herror : type ≠ .transportError) (lossCount : BitVec 64) (linkStatus : BitVec 32)
    (errorCode : RetCode) (now : ℕ) :
    (tx.streamEvent type lossCount linkStatus errorCode now).Honest := by
  simp only [TxAdmission.streamEvent]
  split
  · exact h
  · rename_i hstream
    have hrevoked : tx.certifiedAfter type = false := by
      cases type <;> first | rfl | exact absurd rfl hstream | cases hneg
    refine h.appendRevoked rfl ?_ (fun _ hf => hf) (fun he => absurd he herror) hrevoked
    cases type <;> first | rfl | cases hneg

theorem reportRficValid (hok : tx.asyncTransportFaulted = false)
    (lossCount : BitVec 64) (linkStatus : BitVec 32) (errorCode : RetCode) (now : ℕ) :
    (tx.streamEvent .rficStateValid lossCount linkStatus errorCode now).Honest :=
  h.append rfl (fun _ => hok) (fun _ hf => hf) (fun he => by cases he)
    (fun hf => absurd (hf.symm.trans hok) (by decide)) fun _ => .inl rfl

theorem retuneEvent {type : TxEventType} (hvalid : type ≠ .retuneValid)
    (requestedHz readbackHz : ℕ) (flags : BitVec 32) (errorCode : RetCode) (now : ℕ) :
    (tx.retuneEvent type requestedHz readbackHz flags errorCode now).Honest := by
  simp only [TxAdmission.retuneEvent, if_neg hvalid]
  split
  · exact h
  · rename_i hretune
    refine h.appendRevoked rfl ?_ (fun _ hf => hf) (fun he => ?_) rfl
    · cases type <;> first | rfl | exact absurd rfl hvalid | exact absurd rfl hretune
    · change type = .transportError at he
      subst he
      exact absurd rfl hretune

theorem reportRetuneValid (hok : tx.asyncTransportFaulted = false)
    (requestedHz readbackHz : ℕ) (flags : BitVec 32) (errorCode : RetCode) (now : ℕ) :
    (tx.retuneEvent .retuneValid requestedHz readbackHz flags errorCode now).Honest :=
  h.append rfl (fun _ => hok) (fun _ hf => hf) (fun he => by cases he)
    (fun hf => absurd (hf.symm.trans hok) (by decide)) fun ht => .inr ⟨ht, rfl⟩

theorem retuneFailureDetailEvent (scheduledTimestamp requestedHz : ℕ)
    (failureStage : BitVec 8) (errorCode : RetCode) (now : ℕ) :
    (tx.retuneFailureDetailEvent scheduledTimestamp requestedHz failureStage errorCode
      now).Honest := by
  simp only [TxAdmission.retuneFailureDetailEvent]
  split
  · exact h
  · exact h.appendRevoked rfl rfl (fun _ hf => hf) (fun he => by cases he) rfl

theorem faultRecoverCommit (generation now : ℕ) :
    (tx.faultRecoverCommit generation now).1.Honest := by
  simp only [TxAdmission.faultRecoverCommit]
  split
  · exact h
  · exact h.appendRevoked rfl rfl (fun _ hf => hf) (fun he => by cases he) rfl

theorem plain {c : TxSection} (hc : c.plain = true) : (c.run tx).Honest := by
  cases c with
  | setFaulted faulted => exact h.streamSetFaulted faulted
  | newEpoch linkStatus baseline now => cases hc
  | statusRecovery linkStatus now => cases hc
  | streamEvent type lossCount linkStatus errorCode now =>
      obtain ⟨hneg, herror⟩ : type.negative = true ∧ type ≠ .transportError := by
        simpa [TxSection.plain] using hc
      exact h.streamEvent_negative hneg herror lossCount linkStatus errorCode now
  | retuneEvent type requestedHz readbackHz flags errorCode now =>
      exact h.retuneEvent (by simpa [TxSection.plain] using hc) requestedHz readbackHz flags
        errorCode now
  | retuneFailureDetail scheduledTimestamp requestedHz failureStage errorCode now =>
      exact h.retuneFailureDetailEvent scheduledTimestamp requestedHz failureStage errorCode now
  | leaseAcquire generation =>
      simp only [TxSection.run, TxAdmission.asyncSubmitLeaseAcquire]
      split
      · exact h.keep rfl rfl id
      · exact h
  | leaseRelease => exact h.keep rfl rfl id
  | recoverCommit generation now => exact h.faultRecoverCommit generation now
  | retune w => exact h.keep rfl rfl id

theorem resumeSection : (TxValidity.resumeSection tx).Honest := by
  simp only [TxValidity.resumeSection]
  split_ifs
  · exact h.keep rfl rfl id
  · exact h.keep rfl rfl id
  · exact h

end

end TxAdmission.Honest

/-! ## Every run -/

namespace TxValidity

/-- The monitor's two unfenced events are appended only while the transport
latch is clear. -/
def TransportChecked (v : TxValidity) (l : TxValidityLabel) : Prop :=
  v.unfenced l = true → v.tx.asyncTransportFaulted = false

instance (v : TxValidity) (l : TxValidityLabel) : Decidable (v.TransportChecked l) :=
  inferInstanceAs (Decidable (_ → _))

theorem honest_start (r : TxReports) : (start r).tx.Honest := by
  refine ⟨⟨Lib.appended_nil, ?_, fun h => by cases h⟩, ?_, fun h => by cases h⟩ <;>
    rintro ⟨e, he, -⟩ <;> cases he

theorem honest_step {v u : TxValidity} {l : TxValidityLabel} (h : v.tx.Honest)
    (hok : v.TransportChecked l) (hs : step v l = some u) : u.tx.Honest := by
  cases l with
  | «section» c =>
      obtain ⟨hc, ⟨⟩⟩ := Option.ite_none_right_eq_some.mp hs
      exact h.plain hc
  | configurationFence =>
      cases hs
      exact h.configurationFence
  | transportFailure errorCode now =>
      cases hs
      exact h.asyncTransportFailure errorCode now
  | gateAbortRequest =>
      cases hs
      exact h.keep rfl rfl id
  | gateAbortMark =>
      cases hs
      exact h.keep rfl rfl id
  | gateAbortSucceeded generation =>
      cases hs
      simp only [TxAdmission.gateAbortSucceeded]
      split
      · exact h.keep rfl rfl id
      · exact h
  | gateAbortFailed =>
      cases hs
      exact h.keep rfl rfl id
  | linkStart linkStatus baseline now =>
      obtain ⟨-, ⟨⟩⟩ := Option.ite_none_right_eq_some.mp hs
      exact h.streamNewEpoch linkStatus baseline now
  | setReports r =>
      obtain ⟨-, ⟨⟩⟩ := Option.ite_none_right_eq_some.mp hs
      exact h
  | beginPass =>
      obtain ⟨-, ⟨⟩⟩ := Option.ite_none_right_eq_some.mp hs
      exact h
  | observe p r =>
      obtain ⟨-, ⟨⟩⟩ := Option.ite_none_right_eq_some.mp hs
      exact h
  | prerequisites =>
      simp only [step] at hs
      split at hs <;> cases hs
      exact h
  | release =>
      simp only [step] at hs
      split at hs <;> cases hs
      exact h
  | resume appliedHz =>
      simp only [step] at hs
      split at hs <;> cases hs
      split
      · exact h
      · exact h.resumeSection
  | resumeClear =>
      simp only [step] at hs
      split at hs <;> cases hs
      exact h.streamSetFaulted false
  | resumeReport now =>
      simp only [step] at hs
      split at hs <;> cases hs
      exact h.reportRetuneValid (hok rfl) _ _ _ _ now
  | recover =>
      simp only [step] at hs
      split at hs <;> cases hs
      exact h
  | recoverReport now =>
      simp only [step] at hs
      split at hs <;> cases hs
      rename_i p known _
      have hrec := h.statusRecoveryEvent p.linkStatus now
      generalize v.tx.statusRecoveryEvent p.linkStatus now = x at hrec ⊢
      rcases x with ⟨t, _ | _⟩
      · exact hrec
      · exact hrec.keep rfl rfl id
  | conclude =>
      simp only [step] at hs
      split at hs <;> cases hs
      split <;> exact h
  | reportRficValid now =>
      simp only [step] at hs
      split at hs <;> cases hs
      rename_i p rficValid hpc
      split
      · rename_i hreports
        exact h.reportRficValid (hok (by simp [unfenced, hpc, hreports])) _ _ _ now
      · exact h
  | finish =>
      simp only [step] at hs
      split at hs <;> cases hs
      split
      · exact h.keep rfl rfl id
      · exact h

/-- As long as the monitor's events look at the latch, the TX events tell the
truth in every state of every run. -/
theorem tx_events_truthful {r : TxReports} {ls : List TxValidityLabel} {v : TxValidity}
    (h : Lib.Steps step TransportChecked (start r) ls v) : Truthful v.tx := by
  have hinv := h.invariant (P := fun v => v.tx.Honest) (honest_start r)
    fun ha hok hs => honest_step ha hok hs
  exact hinv.1

/-! ### A certificate on a lost transport -/

def freshReports : TxReports := ⟨0, false, false, false, false⟩

def modelKnown : TxRetuneWrite := ⟨0, false, false, false, false, false, true, true, 0, false⟩

/-- A pass that found nothing wrong: the link shows its epoch and the RFIC is
in order. -/
def healthyPass : TxPass where
  linkStatus := 0x20001201
  linkStatusError := .ok
  lossCountStatus := .ok
  rficStatus := .ok
  retune2Status := .ok
  retune2SuccessStatus := .ok
  rficObservation := .valid
  rficWord := 0
  lossCountValid := true
  counterBaselineWasValid := true
  abortGatePending := false
  abortRetuneGate := false
  reportFault := false
  reportEpochInvalid := false
  reportUnderrun := false
  reportRetuneFailure := false
  reportRetuneCounterReset := false
  counterReset := false
  gateResumed := false

def certifyingPass : List TxValidityLabel :=
  [.beginPass, .observe healthyPass freshReports, .prerequisites, .recover, .conclude,
    .reportRficValid 3]

def faultyPass : List TxValidityLabel :=
  [.beginPass, .observe { healthyPass with reportFault := true } freshReports, .prerequisites,
    .recover, .conclude, .reportRficValid 2, .finish]

/-- A transport failure, a pass that certifies nothing, a START after it, and
the certificate. -/
theorem tx_events_truthful_pass :
    ∃ v : TxValidity, v.tx.asyncRficStateCertified = true ∧ Truthful v.tx := by
  have hrun : ∃ v : TxValidity, v.tx.asyncRficStateCertified = true ∧
      Lib.Steps step TransportChecked (start freshReports)
        ([TxValidityLabel.section (.retune modelKnown), .transportFailure .io 1] ++ faultyPass ++
          [.linkStart 0x20001201 1 2] ++ certifyingPass) v := ⟨_, rfl, .of_exec rfl⟩
  obtain ⟨v, hv, hsteps⟩ := hrun
  exact ⟨v, hv, tx_events_truthful hsteps⟩

/-- The transport fails between the START and the first pass after it, which
certifies the RFIC all the same. -/
theorem certificate_after_transport_error :
    ∃ v, Lib.Steps step (fun _ _ => True) (start freshReports)
      ([TxValidityLabel.section (.retune modelKnown), .linkStart 0x20001201 0 1, .transportFailure .io 2] ++
        certifyingPass) v ∧ ¬ Truthful v.tx := by
  refine ⟨_, .of_exec rfl, fun h => ?_⟩
  have hlost := h.closed ⟨{ TxEvent.ofType 2 .transportError with
    fpgaState := .error, errorCode := .io }, by decide, rfl⟩
  cases hlost

end TxValidity
end BladeRF
