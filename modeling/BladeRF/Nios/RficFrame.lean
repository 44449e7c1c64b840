/-
# `Nios.RficFrame` — what the RFIC handlers leave alone

A handler touches the queue only to record an error on the running command:
`Worked` says so, one lemma a handler, and carries it to the worker.
`RficQueue.plain` forgets the two result codes of the queued commands, so that
"the queue is untouched" is an equation.
-/
import BladeRF.Nios.RficWorker

namespace BladeRF

open RficQueueEntry

/-! ## The queue without its result codes -/

/-- The entry without the result codes it collects while it runs. -/
def RficQueueEntry.plain (e : RficQueueEntry) : RficQueueEntry :=
  if e.state = .running then
    { e with
      resultCode := .noResult
      cleanupResultCode := .success }
  else e

namespace RficQueueEntry

@[simp] theorem plain_state (e : RficQueueEntry) : e.plain.state = e.state := by
  unfold plain
  split <;> rfl

@[simp] theorem plain_transactionId (e : RficQueueEntry) :
    e.plain.transactionId = e.transactionId := by
  unfold plain
  split <;> rfl

theorem plain_of_not_running {e : RficQueueEntry} (h : e.state ≠ .running) : e.plain = e :=
  if_neg h

end RficQueueEntry

namespace RficQueue

def plain (q : RficQueue) : RficQueue := { q with entries := q.entries.map RficQueueEntry.plain }

variable (q : RficQueue)

theorem plain_items :
    q.plain.entries.items = q.entries.items.map RficQueueEntry.plain := rfl

theorem modifyHead_plain {q : RficQueue} {f : RficQueueEntry → RficQueueEntry}
    (hf : ∀ e, (f e).plain = e.plain) : (q.modifyHead f).plain = q.plain := by
  obtain ⟨⟨items, hfits⟩⟩ := q
  cases items with
  | nil => rfl
  | cons e es => simp [plain, modifyHead, Lib.Fifo.map, Lib.Fifo.modifyHead, hf]

@[simp] theorem recordError_plain (st : Status) :
    (q.recordError st).plain = q.plain := by
  apply modifyHead_plain
  intro e
  split
  · rename_i h
    simp [RficQueueEntry.plain, h.2]
  · rfl

@[simp] theorem recordCleanupError_plain (st : Status) :
    (q.recordCleanupError st).plain = q.plain := by
  apply modifyHead_plain
  intro e
  split
  · rename_i h
    simp [RficQueueEntry.plain, h.2.1]
  · rfl

theorem peek_eq_some {q : RficQueue} {e : RficQueueEntry} (h : q.peek = some e) :
    q.entries.items = e :: q.entries.items.tail := by
  obtain ⟨⟨items, hfits⟩⟩ := q
  cases items with
  | nil => cases h
  | cons b bs =>
      cases h
      rfl

theorem peek_plain {q q' : RficQueue} {e : RficQueueEntry} (h : q'.plain = q.plain)
    (hp : q.peek = some e) : ∃ e', q'.peek = some e' ∧ e'.plain = e.plain := by
  have hitems : q'.entries.items.map RficQueueEntry.plain =
      q.entries.items.map RficQueueEntry.plain := by
    rw [← plain_items, ← plain_items, h]
  rw [peek_eq_some hp] at hitems
  obtain ⟨e', es, hq', he', -⟩ := List.map_eq_cons_iff.mp hitems
  exact ⟨e', by simp [peek, Lib.Fifo.peek, hq'], he'⟩

theorem modifyHead_plain_of_peek {q q' : RficQueue} {e' : RficQueueEntry}
    (f : RficQueueEntry → RficQueueEntry) (h : q'.plain = q.plain) (hp : q'.peek = some e') :
    (q'.modifyHead f).plain = q.plain.modifyHead fun _ => (f e').plain := by
  rw [← h]
  have hitems := peek_eq_some hp
  obtain ⟨⟨items, hfits⟩⟩ := q'
  cases items with
  | nil => cases hp
  | cons b bs =>
      cases hp
      rfl

end RficQueue

/-! ## Records -/

/-- A call of `rfic_command_record_error` or of
`rfic_command_record_cleanup_error`. -/
inductive RficRecord where
  | error (status : Status)
  | cleanup (status : Status)

def RficQueue.record (q : RficQueue) : RficRecord → RficQueue
  | .error status => q.recordError status
  | .cleanup status => q.recordCleanupError status

theorem RficQueue.records_plain (rs : List RficRecord) (q : RficQueue) :
    (rs.foldl RficQueue.record q).plain = q.plain := by
  induction rs generalizing q with
  | nil => rfl
  | cons r rs ih =>
      rw [List.foldl_cons, ih]
      cases r with
      | error status => exact q.recordError_plain status
      | cleanup status => exact q.recordCleanupError_plain status

/-! ## What the handlers record -/

/-- From the queue `q₀` and the fault latch `f₀` on there were only records, and
where the fault was latched anew there was an error among them. -/
def Recorded (q₀ : RficQueue) (f₀ : Bool) (q : RficQueue) (f : Bool) : Prop :=
  ∃ rs : List RficRecord, q = rs.foldl RficQueue.record q₀ ∧
    (f₀ = false → f = true → ∃ status, RficRecord.error status ∈ rs ∧ status.failed = true)

namespace Recorded

variable {q₀ q : RficQueue} {f₀ f : Bool}

theorem start (q : RficQueue) (f : Bool) : Recorded q f q f :=
  ⟨[], rfl, fun h h' => absurd (h.symm.trans h') (by decide)⟩

section

variable (h : Recorded q₀ f₀ q f)

include h

theorem fault {status : Status} (hfailed : status.failed = true)
    (f' : Bool) : Recorded q₀ f₀ (q.recordError status) f' := by
  obtain ⟨rs, rfl, -⟩ := h
  exact ⟨rs ++ [RficRecord.error status], by simp [RficQueue.record],
    fun _ _ => ⟨status, by simp, hfailed⟩⟩

theorem error (status : Status) :
    Recorded q₀ f₀ (q.recordError status) f := by
  obtain ⟨rs, rfl, hf⟩ := h
  refine ⟨rs ++ [RficRecord.error status], by simp [RficQueue.record], fun h h' => ?_⟩
  obtain ⟨st, hst, hfailed⟩ := hf h h'
  exact ⟨st, by simp [hst], hfailed⟩

theorem cleanup (status : Status) :
    Recorded q₀ f₀ (q.recordCleanupError status) f := by
  obtain ⟨rs, rfl, hf⟩ := h
  refine ⟨rs ++ [RficRecord.cleanup status], by simp [RficQueue.record], fun h h' => ?_⟩
  obtain ⟨st, hst, hfailed⟩ := hf h h'
  exact ⟨st, by simp [hst], hfailed⟩

theorem clear : Recorded q₀ f₀ q false := by
  obtain ⟨rs, rfl, -⟩ := h
  exact ⟨rs, rfl, fun _ h => by cases h⟩

theorem weaken (f' : Bool) : Recorded q₀ true q f' := by
  obtain ⟨rs, rfl, -⟩ := h
  exact ⟨rs, rfl, fun h => by cases h⟩

end

end Recorded

namespace RficState

/-- The records of a handler that has got as far as `s`. -/
def Worked (q₀ : RficQueue) (f₀ : Bool) (s : RficState) : Prop :=
  Recorded q₀ f₀ s.queue s.calibrationFaulted

variable {q₀ : RficQueue} {f₀ : Bool} {a : Adi} {s : RficState} (h : Worked q₀ f₀ s)

include h

theorem recordError_worked (status : Status) : Worked q₀ f₀ (s.recordError status) :=
  Recorded.error h status

theorem recordCleanupError_worked (status : Status) :
    Worked q₀ f₀ (s.recordCleanupError status) :=
  Recorded.cleanup h status

theorem setFrequencyInvalid_worked (tx b : Bool) :
    Worked q₀ f₀ (s.setFrequencyInvalid tx b) := by
  unfold setFrequencyInvalid
  split
  · exact h
  · exact h

theorem forceRfPathOff_worked : Worked q₀ f₀ (s.forceRfPathOff a) := by
  unfold forceRfPathOff
  split
  · exact h
  · exact recordCleanupError_worked h _

theorem failClosed_worked : Worked q₀ f₀ (s.failClosedAfterPathMutation a) := by
  unfold failClosedAfterPathMutation
  apply forceRfPathOff_worked
  exact Recorded.fault h rfl true

theorem latch_worked (hfault : Recorded q₀ f₀ s.queue true) (u : AdiTest) :
    Worked q₀ f₀ (s.latchCalibrationFault a u).1 := by
  unfold latchCalibrationFault
  split
  · exact h
  · apply forceRfPathOff_worked
    exact hfault

theorem failTxQuadCalibration_worked {status : Status} (hfailed : status.failed = true) :
    Worked q₀ f₀ (s.failTxQuadCalibration a status) := by
  have hfault (f : Bool) : Recorded q₀ f₀ ((s.queue.recordError status).recordCleanupError
      (a.status .txQuadStartCleanup)) f :=
    (Recorded.fault h hfailed f).cleanup _
  have hdone : Worked q₀ f₀
      { (s.recordError status).recordCleanupError (a.status .txQuadStartCleanup) with
        jobs.txQuadJobPending := false
        jobs.txQuadResumeCommand := false
        jobs.txQuadRetuneOwner := false
        txQuadCommitTxFrequency := false
        frequencyInvalidTx := true } := hfault _
  unfold failTxQuadCalibration
  dsimp only
  split
  · exact latch_worked hdone (hfault _) _
  · split
    · exact hdone
    · exact recordError_worked (recordCleanupError_worked hdone _) _

theorem startTxQuadCalibration_worked : Worked q₀ f₀ (s.startTxQuadCalibration a).1 := by
  unfold startTxQuadCalibration
  dsimp only
  split
  · exact failTxQuadCalibration_worked h rfl
  · split
    · exact h
    · split
      · rename_i hfailed
        exact failTxQuadCalibration_worked h hfailed
      · exact h

theorem startTxQuadForFrequency_worked : Worked q₀ f₀ (s.startTxQuadForFrequency a).1 := by
  have hstart : Worked q₀ f₀ (s.startTxQuadCalibration a).1 := startTxQuadCalibration_worked h
  unfold startTxQuadForFrequency
  dsimp only
  split
  · exact hstart
  · exact hstart

theorem startTxQuadForCommand_worked : Worked q₀ f₀ (s.startTxQuadForCommand a).1 := by
  have hstart : Worked q₀ f₀ (s.startTxQuadCalibration a).1 := startTxQuadCalibration_worked h
  unfold startTxQuadForCommand
  dsimp only
  split
  · exact hstart
  · exact hstart

theorem startTxQuadForRetune_worked : Worked q₀ f₀ (s.startTxQuadForRetune a).1 := by
  have hstart : Worked q₀ f₀ (s.startTxQuadCalibration a).1 := startTxQuadCalibration_worked h
  unfold startTxQuadForRetune
  dsimp only
  split
  · exact hstart
  · exact hstart
  · exact hstart

theorem ensureRxRfdcCalibrated_worked : Worked q₀ f₀ (s.ensureRxRfdcCalibrated a).1 := by
  unfold ensureRxRfdcCalibrated
  dsimp only
  split_ifs
  · exact recordError_worked h _
  · exact recordError_worked h _
  · exact h
  · exact recordError_worked h _
  · exact h

theorem check_worked (status : Status) : Worked q₀ f₀ (s.check status).1 := by
  unfold check
  split
  · exact recordError_worked h _
  · exact h

theorem checkTrue_worked (ok : Bool) : Worked q₀ f₀ (s.checkTrue ok).1 := by
  unfold checkTrue
  split
  · exact h
  · exact recordError_worked h _

theorem enableCommit_worked (t : AdiTest) : Worked q₀ f₀ (s.enableCommit a t).1 := by
  unfold enableCommit
  split
  · exact h
  · exact failClosed_worked h

variable (ch : BitVec 8)

theorem enableTxQuad_worked (enable : Bool) :
    Worked q₀ f₀ (s.enableTxQuad a ch enable).1 := by
  have hstart : Worked q₀ f₀ (s.startTxQuadForCommand a).1 := startTxQuadForCommand_worked h
  unfold enableTxQuad
  dsimp only
  split
  · split
    · exact failClosed_worked hstart
    · exact hstart
    · exact enableCommit_worked hstart _
  · exact enableCommit_worked h _

theorem enableDirection_worked (enable : Bool) :
    Worked q₀ f₀ (s.enableDirection a ch enable).1 := by
  have hrfdc : Worked q₀ f₀ (s.ensureRxRfdcCalibrated a).1 := ensureRxRfdcCalibrated_worked h
  unfold enableDirection
  dsimp only
  split_ifs
  · exact recordError_worked h _
  · exact failClosed_worked h
  · exact failClosed_worked hrfdc
  · exact hrfdc
  · exact enableTxQuad_worked hrfdc _ _
  · exact enableTxQuad_worked h _ _

theorem cmdWrEnable_worked (v : BitVec 64) :
    Worked q₀ f₀ (s.cmdWrEnable a ch v).1 := by
  have hresume (s' : RficState) (h' : Worked q₀ f₀ s') (allowed : Prop) [Decidable allowed] :
      Worked q₀ f₀ (if allowed then s'.enableCommit a .enableResumeCommit
        else (s'.failClosedAfterPathMutation a, false)).1 := by
    split
    · exact enableCommit_worked h' _
    · exact failClosed_worked h'
  unfold cmdWrEnable
  dsimp only
  split
  · exact hresume { s with
      jobs.rfdcResumeEnableCommand := false
      rfdcResumeEnableStatus := .ok } h _
  · split
    · exact hresume { s with jobs.txQuadResumeCommand := false } h _
    · split_ifs
      all_goals first
        | exact h
        | exact recordError_worked h _
        | exact enableDirection_worked h _ _
        | exact enableTxQuad_worked h _ _

theorem samplerateCommit_worked : Worked q₀ f₀ (s.samplerateCommit a ch).1 := by
  unfold samplerateCommit
  split_ifs
  · exact h
  · exact check_worked (recordCleanupError_worked h _) _
  · exact h
  · exact recordError_worked h _

theorem cmdWrSamplerate_worked : Worked q₀ f₀ (s.cmdWrSamplerate a ch).1 := by
  have hresume : Worked q₀ f₀ { s with jobs.sampleRateResumeCommand := false } := h
  unfold cmdWrSamplerate
  dsimp only
  split_ifs
  · exact samplerateCommit_worked hresume ch
  · exact recordError_worked h _
  · exact h
  · exact samplerateCommit_worked h ch

theorem cmdWrBandwidth_worked : Worked q₀ f₀ (s.cmdWrBandwidth a).1 := by
  unfold cmdWrBandwidth
  dsimp only
  split_ifs
  · exact h
  · exact h
  · exact recordError_worked h _
  · exact h
  · exact h

theorem frequencyLoProgrammed_worked :
    Worked q₀ f₀ (s.frequencyLoProgrammed a ch).1 := by
  have htx : Worked q₀ f₀ (s.startTxQuadForFrequency a).1 := startTxQuadForFrequency_worked h
  have hrx : Worked q₀ f₀ (s.ensureRxRfdcCalibrated a).1 := ensureRxRfdcCalibrated_worked h
  unfold frequencyLoProgrammed
  dsimp only
  split
  · split
    · exact recordError_worked htx _
    · exact htx
    · exact setFrequencyInvalid_worked htx _ _
  · split_ifs
    · exact recordError_worked hrx _
    · exact hrx
    · exact setFrequencyInvalid_worked hrx _ _

theorem frequencyStart_worked (v : BitVec 64) (i : Bool) :
    Worked q₀ f₀ (s.frequencyStart a ch v i).1 := by
  unfold frequencyStart
  dsimp only
  split_ifs
  all_goals first
    | exact h
    | exact failClosed_worked (recordError_worked h _)
    | exact frequencyLoProgrammed_worked h ch

theorem cmdWrFrequencyInternal_worked (v : BitVec 64) (i : Bool) :
    Worked q₀ f₀ (s.cmdWrFrequencyInternal a ch v i).1 := by
  have hinvalid : Worked q₀ f₀ (s.setFrequencyInvalid (channelIsTx ch) true) :=
    setFrequencyInvalid_worked h _ _
  have hresume : Worked q₀ f₀ { s.setFrequencyInvalid (channelIsTx ch) true with
      jobs.frequencyRfpllResumeCommand := false } := hinvalid
  unfold cmdWrFrequencyInternal
  dsimp only
  split
  · exact recordError_worked h _
  · split
    · split
      · exact recordError_worked hresume _
      · split
        · exact failClosed_worked (recordError_worked hresume _)
        · exact frequencyLoProgrammed_worked hresume ch
    · split_ifs
      all_goals first
        | exact recordError_worked hinvalid _
        | exact frequencyStart_worked hinvalid _ _ _

theorem startInitFirPair_worked (n : ℕ) :
    Worked q₀ f₀ (s.startInitFirPair a ch n).1 := by
  unfold startInitFirPair
  dsimp only
  split
  · exact recordError_worked (recordCleanupError_worked h _) _
  · split
    · exact h
    · exact h

theorem filterStart_worked (n : ℕ) (p : Bool) :
    Worked q₀ f₀ (s.filterStart a ch n p).1 := by
  have hconfig : Worked q₀ f₀ (s.recordCleanupError (a.status .firConfigCleanup)) :=
    recordCleanupError_worked h _
  unfold filterStart
  dsimp only
  split_ifs
  all_goals first
    | exact h
    | exact hconfig
    | exact recordError_worked h _
    | exact recordError_worked hconfig _
    | exact recordError_worked (recordCleanupError_worked hconfig _) _

theorem cmdWrFilterInternal_worked (n : ℕ) (p : Bool) :
    Worked q₀ f₀ (s.cmdWrFilterInternal a ch n p).1 := by
  have hload : Worked q₀ f₀ { s with jobs.firLoadInitPairResume := false } := h
  unfold cmdWrFilterInternal
  dsimp only
  split_ifs
  all_goals first
    | exact h
    | exact recordError_worked h _
    | exact startInitFirPair_worked hload _ _
    | exact filterStart_worked h _ _ _

theorem failClosedUnless_worked (c : Bool) : Worked q₀ f₀ (s.failClosedUnless a c) := by
  unfold failClosedUnless
  split
  · exact h
  · exact failClosed_worked h

theorem reportCleanupError_worked (b : Bool) (status : Status) :
    Worked q₀ f₀ (s.reportCleanupError b status) := by
  unfold reportCleanupError
  split
  · exact recordCleanupError_worked h _
  · exact h

theorem deinitializeEnd_worked (c : Bool) : Worked q₀ f₀ (s.deinitializeEnd a c).1 := by
  have hclosed : Worked q₀ f₀ (s.failClosedUnless a c) := failClosedUnless_worked h c
  unfold deinitializeEnd
  dsimp only
  split
  · exact hclosed
  · exact hclosed

omit h in
theorem removeFailed_worked {f : Bool} (hq : Recorded q₀ f₀ s.queue f) (e : Errno)
    (consumed c r : Bool) : Worked q₀ f₀ (s.removeFailed a e consumed c r) := by
  unfold removeFailed
  dsimp only
  apply failClosedUnless_worked
  unfold reportCleanupError
  split
  · exact (hq.cleanup _).fault rfl true
  · exact hq.fault rfl true

theorem deinitializeRfic_worked (r c : Bool) : Worked q₀ f₀ (s.deinitializeRfic a r c).1 := by
  have hstart : Worked q₀ f₀ ({ s with
      frequencyInvalidRx := true
      frequencyInvalidTx := true }.reportCleanupError (!a.test .clearDeinit && c)
        (.error .eio)) :=
    reportCleanupError_worked (s := { s with
      frequencyInvalidRx := true
      frequencyInvalidTx := true }) h _ _
  unfold deinitializeRfic
  dsimp only
  generalize { s with
      frequencyInvalidRx := true
      frequencyInvalidTx := true }.reportCleanupError (!a.test .clearDeinit && c)
        (.error .eio) = m at hstart ⊢
  split
  · exact recordError_worked hstart _
  · split
    · apply deinitializeEnd_worked
      exact hstart
    · split
      · apply deinitializeEnd_worked
        exact hstart
      · exact removeFailed_worked (s := { m with initState := .off }) hstart _ _ _ _

theorem initTailFilter_worked (r : Bool) : Worked q₀ f₀ (s.initTailFilter a r).1 := by
  unfold initTailFilter cmdWrFilterInitPair
  dsimp only
  generalize (if s.tail.moduleIndex = 1 then bladerfRficTxfirDefault
    else bladerfRficRxfirDefault) = filter
  have hfilter : Worked q₀ f₀ (s.cmdWrFilterInternal a s.tailChannel filter true).1 :=
    cmdWrFilterInternal_worked h _ _ _
  split_ifs
  · exact hfilter
  · exact hfilter
  · exact hfilter
  · exact hfilter

theorem initTailSampleRate_worked : Worked q₀ f₀ (s.initTailSampleRate a).1 := by
  have hrate : Worked q₀ f₀ (s.cmdWrSamplerate a s.tailChannel).1 := cmdWrSamplerate_worked h _
  unfold initTailSampleRate
  dsimp only
  split_ifs
  · exact hrate
  · exact hrate
  · exact hrate

theorem initTailFinalLo_worked (r : Bool) : Worked q₀ f₀ (s.initTailFinalLo a r).1 := by
  have hstart : Worked q₀ f₀ { s with tail.nestedStatus := .ok } := h
  unfold initTailFinalLo
  dsimp only
  generalize (if s.tail.moduleIndex = 1 then bladerf2RficInitParams.txSynthesizerFrequencyHz
    else bladerf2RficInitParams.rxSynthesizerFrequencyHz) = target
  have hlo := cmdWrFrequencyInternal_worked (a := a) hstart s.tailChannel target true
  split_ifs
  · exact hlo
  · exact hlo
  · exact hlo

theorem initTailTxMute_worked (r : Bool) : Worked q₀ f₀ (s.initTailTxMute a r).1 := by
  unfold initTailTxMute
  dsimp only
  split_ifs
  all_goals first
    | exact h
    | exact recordError_worked h _

theorem initTailStep_worked (r : Bool) : Worked q₀ f₀ (s.initTailStep a r).1 := by
  unfold initTailStep
  split
  · exact initTailFilter_worked h r
  · exact initTailSampleRate_worked h
  · exact initTailFinalLo_worked h r
  · split
    · exact recordError_worked h _
    · exact h
  · exact initTailTxMute_worked h r
  · exact h
  · exact recordError_worked h _
  · exact recordError_worked h _

theorem initializeReady_worked (r : Bool) : Worked q₀ f₀ (s.initializeReady a r).1 := by
  unfold initializeReady
  split
  · exact recordError_worked h _
  · dsimp only
    split
    · split
      · exact recordError_worked h _
      · apply recordCleanupError_worked
        exact recordError_worked h _
    · generalize hs' : (if s.tail.phase = .idle then
          { s with tail :=
            { s.tail with
              restoreStandby := r
              moduleIndex := 0
              channelIndex := 0
              nestedComplete := false
              nestedStatus := .ok
              phase := if r then .txMute else .filter } }
        else s) = s'
      have h' : Worked q₀ f₀ s' := by
        rw [← hs']
        split
        · exact h
        · exact h
      split_ifs
      · exact h'
      · apply initTailStep_worked
        exact h'
      · apply recordError_worked
        exact h'
      · apply initTailStep_worked
        exact h'

theorem initializeStart_worked : Worked q₀ f₀ (s.initializeStart a).1 := by
  have hoff : Worked q₀ f₀ { s with initState := .off } := h
  unfold initializeStart
  dsimp only
  split_ifs
  · exact recordError_worked hoff _
  · exact recordError_worked hoff _
  · exact recordError_worked hoff _
  · exact recordError_worked hoff _
  · apply recordError_worked
    exact h
  · exact h

theorem rficInitialize_worked : Worked q₀ f₀ (s.rficInitialize a).1 := by
  unfold rficInitialize
  dsimp only
  split
  · rename_i hfailed
    exact Recorded.fault (recordCleanupError_worked h _) hfailed.2.2 true
  · split
    · exact initializeReady_worked h _
    · split_ifs
      all_goals first
        | exact recordError_worked h _
        | (apply failClosed_worked; exact h)
        | (apply initializeStart_worked; exact h)
        | (apply initializeReady_worked; exact h)

theorem standbyFrequency_worked (tx : Bool) : Worked q₀ f₀ (s.standbyFrequency a tx).1 := by
  unfold standbyFrequency cmdWrFrequency
  dsimp only
  split
  · exact checkTrue_worked (cmdWrFrequencyInternal_worked h _ _ _) _
  · exact h

theorem rficStandby_worked : Worked q₀ f₀ (s.rficStandby a).1 := by
  have hoff : Worked q₀ f₀ { s with initState := .off } := h
  have htx := standbyFrequency_worked (a := a) hoff true
  have hrx := standbyFrequency_worked (a := a) htx false
  unfold rficStandby
  dsimp only
  split_ifs
  · exact deinitializeRfic_worked h _ _
  · exact failClosed_worked hoff
  · exact recordError_worked hoff _
  · exact recordError_worked hoff _
  · exact recordError_worked hoff _
  · exact recordError_worked hoff _
  · exact htx
  · exact hrx
  · exact hrx

theorem faultedReset_worked : Worked q₀ f₀ (s.faultedReset a).1 := by
  have hdeinit : Worked q₀ f₀ (s.deinitializeRfic a true false).1 :=
    deinitializeRfic_worked h _ _
  unfold faultedReset
  dsimp only
  split_ifs
  · exact recordError_worked h _
  · exact hdeinit
  · exact checkTrue_worked hdeinit _

omit h in
theorem deinitializeRfic_pending {f : Bool} (hq : Recorded q₀ f₀ s.queue f) (c : Bool) :
    (s.deinitializeRfic a false c).1.calibrationPending = false ∨
      Worked q₀ f₀ (s.deinitializeRfic a false c).1 := by
  have hend (s' : RficState) (hphy : s'.phy = none) (cleared : Bool) :
      (s'.deinitializeEnd a cleared).1.calibrationPending = false := by
    have hphy' : (s'.failClosedUnless a cleared).phy = none := by
      unfold failClosedUnless
      split
      · exact hphy
      · simp [failClosedAfterPathMutation, forceRfPathOff, apply_ite RficState.phy,
          recordCleanupError, recordError, hphy]
    simp [deinitializeEnd, hphy', retireContinuations, calibrationPending, InitTail.idle]
  unfold deinitializeRfic
  dsimp only
  split
  · rename_i hreset
    cases hreset.1
  · split
    · rename_i hphy
      refine .inl (hend _ ?_ _)
      simpa using hphy
    · split
      · exact .inl (hend _ rfl _)
      · refine .inr (removeFailed_worked (f := f) ?_ _ _ _ _)
        unfold reportCleanupError
        split
        · exact hq.cleanup _
        · exact hq

omit h in
theorem initOn_worked (h : Worked q₀ f₀ s) :
    Worked q₀ f₀ (s.initOn a).1 ∨
      ((s.initOn a).2 = false ∧ (s.initOn a).1.calibrationPending = false ∧
        Recorded q₀ true (s.initOn a).1.queue true) := by
  have hinit : Worked q₀ f₀ (s.rficInitialize a).1 := rficInitialize_worked h
  unfold initOn
  dsimp only
  split
  · exact .inl hinit.clear
  · have hweak : Recorded q₀ true (s.rficInitialize a).1.queue true := hinit.weaken true
    rcases deinitializeRfic_pending (a := a)
        (s := { (s.rficInitialize a).1 with calibrationFaulted := true }) hinit true with
      hdone | hworked
    · exact .inr ⟨rfl, hdone,
        (deinitializeRfic_worked (s := { (s.rficInitialize a).1 with calibrationFaulted := true })
          hweak false true).weaken true⟩
    · exact .inl hworked

theorem cmdWrInit_worked (v : BitVec 64) :
    Worked q₀ f₀ (s.cmdWrInit a v).1 ∨
      ((s.cmdWrInit a v).2 = false ∧ (s.cmdWrInit a v).1.calibrationPending = false ∧
        Recorded q₀ true (s.cmdWrInit a v).1.queue true) := by
  have hreset : Worked q₀ f₀ (s.faultedReset a).1 := faultedReset_worked h
  unfold cmdWrInit
  dsimp only
  split
  · split
    · split
      · exact .inl hreset
      · exact .inl hreset.clear
    · exact .inl (deinitializeRfic_worked h _ _)
  · split
    · split
      · exact .inl h
      · split
        · split
          · exact .inl hreset
          · exact initOn_worked hreset
        · exact initOn_worked h
    · split
      · split
        · exact .inl h
        · exact .inl (rficStandby_worked h)
      · exact .inl (recordError_worked h _)

theorem callback_worked (f : WriteFn) (ch : BitVec 8) (v : BitVec 64) :
    Worked q₀ f₀ (s.callback a f ch v).1 ∨
      ((s.callback a f ch v).2 = false ∧ (s.callback a f ch v).1.calibrationPending = false ∧
        Recorded q₀ true (s.callback a f ch v).1.queue true) := by
  cases f with
  | init => exact cmdWrInit_worked h v
  | enable => exact .inl (cmdWrEnable_worked h ch v)
  | samplerate => exact .inl (cmdWrSamplerate_worked h ch)
  | frequency => exact .inl (cmdWrFrequencyInternal_worked h ch v false)
  | bandwidth => exact .inl (cmdWrBandwidth_worked h)
  | gainmode =>
      simp only [callback, cmdWrGainmode]
      split
      · exact .inl (recordError_worked h _)
      · exact .inl (check_worked h _)
  | gain =>
      simp only [callback, cmdWrGain]
      split_ifs
      · exact .inl (check_worked h _)
      · exact .inl (recordError_worked h _)
      · exact .inl (check_worked h _)
      · exact .inl (check_worked h _)
  | filter => exact .inl (cmdWrFilterInternal_worked h ch _ false)
  | txmute => exact .inl (check_worked h _)
  | fastlock => exact .inl (check_worked h _)

/-! ## What a turn records -/

theorem pollInit_worked : Worked q₀ f₀ (s.pollInit a).1 := by
  unfold pollInit
  dsimp only
  split
  · exact h
  · apply recordError_worked
    exact h

theorem pollFirLoad_worked : Worked q₀ f₀ (s.pollFirLoad a).1 := by
  have hclean := recordCleanupError_worked h (a.status .jobCleanup)
  unfold pollFirLoad
  dsimp only
  split_ifs
  · exact h
  · exact Recorded.error hclean _
  · exact hclean

theorem pollFirEnable_worked (i : Bool) : Worked q₀ f₀ (s.pollFirEnable a i).1 := by
  have hclean := recordCleanupError_worked h (a.status .jobCleanup)
  unfold pollFirEnable
  dsimp only
  split_ifs
  all_goals first
    | exact h
    | exact hclean
    | exact Recorded.error hclean _

theorem pollRfpll_worked : Worked q₀ f₀ (s.pollRfpll a).1 := by
  unfold pollRfpll
  dsimp only
  split
  · exact h
  · apply recordError_worked
    exact h

theorem pollSampleRate_worked (i : Bool) : Worked q₀ f₀ (s.pollSampleRate a i).1 := by
  have hclean := recordCleanupError_worked h (a.status .jobCleanup)
  unfold pollSampleRate
  dsimp only
  split_ifs
  all_goals first
    | exact h
    | exact hclean
    | exact Recorded.error hclean _

theorem pollBandwidth_worked (i : Bool) : Worked q₀ f₀ (s.pollBandwidth a i).1 := by
  have hclean := recordCleanupError_worked h (a.status .jobCleanup)
  unfold pollBandwidth
  dsimp only
  split_ifs
  all_goals first
    | exact h
    | exact hclean
    | exact Recorded.error hclean _

theorem pollTxQuadInit_worked (status : Status) : Worked q₀ f₀ (s.pollTxQuadInit a status) := by
  unfold pollTxQuadInit
  dsimp only
  split
  · rename_i hfailed
    have hfail := failTxQuadCalibration_worked (a := a)
      (recordError_worked (s := { s with jobs.txQuadResumeCommand := false }) h
        (s.nestedStatus a status)) hfailed
    exact hfail
  · split
    · exact h
    · exact h

theorem latch_recorded (u : AdiTest) :
    Recorded q₀ f₀ (s.latchCalibrationFault a u).1.queue false := by
  unfold latchCalibrationFault forceRfPathOff
  split
  · exact h.clear
  · split
    · exact h.clear
    · exact (h.cleanup _).clear

omit h in
theorem latch_free {u : AdiTest} (hfree : (s.latchCalibrationFault a u).2 = false) :
    (s.latchCalibrationFault a u).1 = s := by
  unfold latchCalibrationFault at hfree ⊢
  split at hfree
  · rename_i hcond
    rw [if_pos hcond]
  · cases hfree

theorem pollTxQuadCommand_worked (status : Status) (io : Bool) :
    Worked q₀ f₀ (s.pollTxQuadCommand a status io).1 := by
  have hcommit : Worked q₀ f₀
      (if s.txQuadCommitTxFrequency then { s with frequencyInvalidTx := false } else s) := by
    split
    · exact h
    · exact h
  unfold pollTxQuadCommand
  dsimp only
  split
  · rename_i hfailed
    exact failTxQuadCalibration_worked (a := a)
      (recordError_worked (s := { s with jobs.txQuadResumeCommand := false }) h status) hfailed
  · generalize (if s.txQuadCommitTxFrequency then { s with frequencyInvalidTx := false } else s)
      = m at hcommit ⊢
    split
    · split
      · exact (latch_recorded hcommit _).fault rfl _
      · rename_i hfree
        rw [latch_free (Bool.eq_false_iff.mpr hfree)]
        exact hcommit
    · exact hcommit

theorem pollTxQuad_worked (i io : Bool) : Worked q₀ f₀ (s.pollTxQuad a i io).1 := by
  have hclean := recordCleanupError_worked h (a.status .jobCleanup)
  unfold pollTxQuad
  dsimp only
  split
  · exact h
  · split
    · apply pollTxQuadInit_worked
      exact hclean
    · apply pollTxQuadCommand_worked
      exact hclean

theorem pollRfdc_worked (i : Bool) : Worked q₀ f₀ (s.pollRfdc a i).1 := by
  have hclean := recordCleanupError_worked h (a.status .jobCleanup)
  unfold pollRfdc
  dsimp only
  split_ifs
  all_goals first
    | exact h
    | exact hclean
    | exact Recorded.error hclean _

theorem callbackResult_worked (e : RficQueueEntry) :
    Worked q₀ f₀ (s.callbackResult a e).1 ∨
      ((s.callbackResult a e).2 = false ∧ (s.callbackResult a e).1.calibrationPending = false ∧
        Recorded q₀ true (s.callbackResult a e).1.queue true) := by
  unfold callbackResult
  split
  · exact .inl h
  · split_ifs
    · exact .inl h
    · exact .inl (recordError_worked h _)
    · exact .inl h
    · exact callback_worked h _ _ _

theorem runHead_worked (e : RficQueueEntry) :
    Worked q₀ f₀ (s.runHead a e).1 ∨
      ((s.runHead a e).2 = .finish false ∧ Recorded q₀ true (s.runHead a e).1.queue true) := by
  unfold runHead
  dsimp only
  split_ifs
  · exact .inl (pollInit_worked h)
  · exact .inl (pollFirLoad_worked h)
  · exact .inl (pollFirEnable_worked h _)
  · exact .inl (pollRfpll_worked h)
  · exact .inl (pollSampleRate_worked h _)
  · exact .inl (pollBandwidth_worked h _)
  · exact .inl (pollTxQuad_worked h _ _)
  · exact .inl (pollRfdc_worked h _)
  · have hcall := callbackResult_worked (a := a) h e
    unfold enterCallback
    dsimp only
    split
    · rename_i hpending
      refine .inl (hcall.resolve_right fun ⟨_, hfree, _⟩ => ?_)
      rw [hfree] at hpending
      cases hpending
    · rcases hcall with hworked | ⟨hfalse, _, hrecorded⟩
      · exact .inl hworked
      · exact .inr ⟨by rw [hfalse], hrecorded⟩

theorem pollTxQuadForRetune_worked : Worked q₀ f₀ (s.pollTxQuadForRetune a).1 := by
  unfold pollTxQuadForRetune
  dsimp only
  generalize (if checkedPoll a .txQuadPoll = .ok ∧ a.test .unknownRetune then
    Status.error .eio else checkedPoll a .txQuadPoll) = status
  split
  · exact h
  · split
    · exact h
    · split
      · rename_i hfailed
        apply failTxQuadCalibration_worked _ hfailed
        exact h
      · exact h

theorem startGainTableForRetune_worked (r : GainTableRequest) :
    Worked q₀ f₀ (s.startGainTableForRetune a r).1 := by
  unfold startGainTableForRetune
  dsimp only
  split_ifs
  all_goals exact h

theorem pollGainTableForRetune_worked : Worked q₀ f₀ (s.pollGainTableForRetune a).1 := by
  unfold pollGainTableForRetune
  dsimp only
  split_ifs
  all_goals exact h

end RficState

/-! ## The worker and the queue -/

theorem Recorded.plain {q q' : RficQueue} {f f' : Bool} (h : Recorded q f q' f') :
    q'.plain = q.plain := by
  obtain ⟨rs, rfl, -⟩ := h
  exact RficQueue.records_plain rs q

namespace RficState

variable (a : Adi) (s : RficState)

@[simp] theorem recordError_queue (st : Status) :
    (s.recordError st).queue = s.queue.recordError st := rfl

@[simp] theorem recordCleanupError_queue (st : Status) :
    (s.recordCleanupError st).queue = s.queue.recordCleanupError st := rfl

theorem worked_self : Worked s.queue s.calibrationFaulted s := Recorded.start _ _

theorem enterCallback_plain (e : RficQueueEntry) :
    (s.enterCallback a e).1.queue.plain = s.queue.plain := by
  have hcall : (s.callbackResult a e).1.queue.plain = s.queue.plain :=
    (callbackResult_worked s.worked_self e).elim Recorded.plain fun h => h.2.2.plain
  unfold enterCallback
  dsimp only
  split <;> exact hcall

theorem runHead_plain (e : RficQueueEntry) :
    (s.runHead a e).1.queue.plain = s.queue.plain :=
  (runHead_worked s.worked_self e).elim Recorded.plain fun h => h.2.plain

theorem complete_queue {e : RficQueueEntry} (rv : Bool) (hp : s.queue.peek = some e)
    (he : e.state = .running) :
    ∃ e' : RficQueueEntry, e'.state = .complete ∧ e'.transactionId = e.transactionId ∧
      e'.ch = e.ch ∧ e'.cmd = e.cmd ∧ e'.value = e.value ∧ e'.resultCode ≠ .noResult ∧
      (s.complete a rv).queue.plain = s.queue.plain.modifyHead fun _ => e' := by
  have publish (s' : RficState) (b : Bool) (hs' : s'.queue.plain = s.queue.plain) :
      ∃ e' : RficQueueEntry, e'.state = .complete ∧ e'.transactionId = e.transactionId ∧
        e'.ch = e.ch ∧ e'.cmd = e.cmd ∧ e'.value = e.value ∧ e'.resultCode ≠ .noResult ∧
        (s'.queue.modifyHead fun e =>
          { e with
            resultCode := e.resultCode.finalizeWithCleanup b e.cleanupResultCode
            rv := e.resultCode.finalizeWithCleanup b e.cleanupResultCode = .success
            state := .complete }).plain = s.queue.plain.modifyHead fun _ => e' := by
    obtain ⟨e₁, hp₁, he₁⟩ := RficQueue.peek_plain hs' hp
    have hstate : e₁.state = .running := by
      rw [← plain_state, he₁, plain_state, he]
    simp only [plain, he, hstate, if_true, RficQueueEntry.mk.injEq] at he₁
    refine ⟨_, ?_, ?_, ?_, ?_, ?_, ?_, RficQueue.modifyHead_plain_of_peek _ hs' hp₁⟩
    all_goals rw [plain_of_not_running (by simp)]
    · exact he₁.2.2.2.2.1
    · exact he₁.2.2.1
    · exact he₁.2.2.2.1
    · exact he₁.2.2.2.2.2.1
    · exact RficResult.finalizeWithCleanup_ne_noResult _ _ _
  have hlatch : (s.latchCalibrationFault a .unknownComplete).1.queue.plain = s.queue.plain :=
    (latch_worked (s.worked_self.weaken s.calibrationFaulted) (s.worked_self.weaken true) _).plain
  unfold complete
  dsimp only
  split
  · refine publish _ _ (Eq.trans ?_ hlatch)
    exact RficQueue.recordError_plain _ _
  · exact publish _ _ hlatch

theorem commandWork_queue :
    (s.commandWork a).queue.plain = s.queue.plain ∧
        (s.jobs.txQuadRetuneOwner = false →
          ∀ e, s.queue.peek = some e → e.state = .running) ∨
      ∃ e, s.queue.peek = some e ∧ s.jobs.txQuadRetuneOwner = false ∧
        (e.state = .new ∧
            (s.commandWork a).queue = s.queue.modifyHead (fun e => { e with state := .running }) ∨
          (e.state = .running ∧ ∃ e' : RficQueueEntry, e'.state = .complete ∧
            e'.transactionId = e.transactionId ∧ e'.ch = e.ch ∧ e'.cmd = e.cmd ∧
            e'.value = e.value ∧ e'.resultCode ≠ .noResult ∧
            (s.commandWork a).queue.plain = s.queue.plain.modifyHead fun _ => e') ∨
          e.state = .complete ∧ (s.commandWork a).queue = s.queue.retire e) := by
  unfold commandWork
  cases hp : s.queue.peek with
  | none =>
      left
      refine ⟨?_, by simp⟩
      dsimp only
      split <;> rfl
  | some e =>
      dsimp only
      cases ho : s.jobs.txQuadRetuneOwner with
      | true =>
          left
          exact ⟨by simp, by simp⟩
      | false =>
          simp only [Bool.false_eq_true, if_false]
          cases he : e.state with
          | new => exact .inr ⟨e, rfl, trivial, .inl ⟨he, rfl⟩⟩
          | complete => exact .inr ⟨e, rfl, trivial, .inr (.inr ⟨he, rfl⟩)⟩
          | running =>
              dsimp only
              split
              · refine .inl ⟨runHead_plain a s e, ?_⟩
                intro _ e' he'
                cases he'
                exact he
              · rename_i rv _
                obtain ⟨e₁, hp₁, he₁⟩ := RficQueue.peek_plain (runHead_plain a s e) hp
                have hstate : e₁.state = .running := by
                  rw [← plain_state, he₁, plain_state, he]
                obtain ⟨e', hc, hid, hch, hcmd, hv, hr, hq⟩ :=
                  (s.runHead a e).1.complete_queue a rv hp₁ hstate
                simp only [plain, he, hstate, if_true,
                  RficQueueEntry.mk.injEq] at he₁
                refine .inr ⟨e, rfl, trivial, .inr (.inl ⟨he, e', hc, ?_, ?_, ?_, ?_, hr, ?_⟩)⟩
                · rw [hid, he₁.2.2.2.2.1]
                · rw [hch, he₁.2.2.1]
                · rw [hcmd, he₁.2.2.2.1]
                · rw [hv, he₁.2.2.2.2.2.1]
                · rw [hq, runHead_plain]

def RficAct.isRetune : RficAct → Bool
  | .write _ _ _ => false
  | .work _ => false
  | _ => true

theorem step_retune_plain {act : RficAct} {s s' : RficState} (h : s.step act = some s')
    (hr : act.isRetune) : s'.queue.plain = s.queue.plain := by
  suffices hworked : Worked s.queue s.calibrationFaulted s' from hworked.plain
  cases act with
  | write addr data id => cases hr
  | work a => cases hr
  | retuneTxQuadStart a =>
      simp only [step] at h
      split at h <;> cases h
      exact startTxQuadForRetune_worked s.worked_self
  | retuneTxQuadPoll a =>
      simp only [step] at h
      split at h <;> cases h
      exact pollTxQuadForRetune_worked s.worked_self
  | retuneGainTableStart a r =>
      simp only [step] at h
      split at h <;> cases h
      exact startGainTableForRetune_worked s.worked_self r
  | retuneGainTablePoll a =>
      simp only [step] at h
      split at h <;> cases h
      exact pollGainTableForRetune_worked s.worked_self
  | retuneFrequency tx i =>
      simp only [step] at h
      split at h <;> cases h
      exact setFrequencyInvalid_worked s.worked_self tx i

end RficState
end BladeRF
