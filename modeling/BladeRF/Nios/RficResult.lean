/-
# `Nios.RficResult` — the result of an RFIC command

`rfic_command_record_error` keeps the class of the first error of the running
command, `rfic_command_record_cleanup_error` that of the first cleanup error, and
the publication of COMPLETE folds both with the calibration fault and the last
result of the callback.  An execution here is any number of turns with any
records in them, and host writes in between, and the turns of the worker are of
this kind.
-/
import BladeRF.Nios.RficExactlyOnce
import BladeRF.Nios.RficFaultLatch

namespace BladeRF

open RficRecord RficQueueEntry

/-! ## Records -/

namespace RficRecord

def failedError : RficRecord → Option Status
  | .error status => if status.failed then some status else none
  | .cleanup _ => none

def failedCleanup : RficRecord → Option Status
  | .error _ => none
  | .cleanup status => if status.failed then some status else none

end RficRecord

namespace RficState

/-- A command is worked on: every turn leaves its records on the queue, and
requests of the host come in between.  The list holds all records in order. -/
inductive Executes : RficState → List RficRecord → RficState → Prop
  | start (s : RficState) : Executes s [] s
  | turn {s m m' : RficState} {rs rs' : List RficRecord} (h : Executes s rs m)
      (hturn : m'.queue = rs'.foldl RficQueue.record m.queue) : Executes s (rs ++ rs') m'
  | write {s m : RficState} {rs : List RficRecord} (h : Executes s rs m) (addr : BitVec 16)
      (data : BitVec 64) (id : BitVec 16) : Executes s rs (m.commandWriteAdmit addr data id).1

end RficState

/-! ## What the records leave on the running command -/

namespace RficQueueEntry

def record (e : RficQueueEntry) : RficRecord → RficQueueEntry
  | .error status =>
      if status.failed then { e with resultCode := e.resultCode.latchError status } else e
  | .cleanup status =>
      if status.failed ∧ e.cleanupResultCode = .success then
        { e with cleanupResultCode := .fromStatus status }
      else e

theorem record_frame (e : RficQueueEntry) (r : RficRecord) :
    ∃ code cleanup, e.record r = { e with resultCode := code, cleanupResultCode := cleanup } := by
  cases r with
  | error status =>
      simp only [record]
      split
      · exact ⟨_, e.cleanupResultCode, rfl⟩
      · exact ⟨e.resultCode, e.cleanupResultCode, rfl⟩
  | cleanup status =>
      simp only [record]
      split
      · exact ⟨e.resultCode, _, rfl⟩
      · exact ⟨e.resultCode, e.cleanupResultCode, rfl⟩

theorem records_frame (e : RficQueueEntry) (rs : List RficRecord) :
    ∃ code cleanup, rs.foldl record e =
      { e with resultCode := code, cleanupResultCode := cleanup } := by
  induction rs generalizing e with
  | nil => exact ⟨e.resultCode, e.cleanupResultCode, rfl⟩
  | cons r rs ih =>
      obtain ⟨code, cleanup, hr⟩ := record_frame e r
      obtain ⟨code', cleanup', hrs⟩ := ih (e.record r)
      refine ⟨code', cleanup', ?_⟩
      rw [List.foldl_cons, hrs, hr]

theorem record_resultCode (e : RficQueueEntry) (r : RficRecord) :
    (e.record r).resultCode = match r.failedError with
      | some status => e.resultCode.latchError status
      | none => e.resultCode := by
  cases r with
  | error status => cases hfailed : status.failed <;> simp [record, failedError, hfailed]
  | cleanup status =>
      simp only [record, failedError]
      split <;> rfl

theorem record_cleanupResultCode (e : RficQueueEntry) (r : RficRecord) :
    (e.record r).cleanupResultCode = match r.failedCleanup with
      | some status =>
          if e.cleanupResultCode = .success then .fromStatus status else e.cleanupResultCode
      | none => e.cleanupResultCode := by
  cases r with
  | error status =>
      simp only [record, failedCleanup]
      split <;> rfl
  | cleanup status =>
      cases hfailed : status.failed with
      | false => simp [record, failedCleanup, hfailed]
      | true =>
          simp only [record, failedCleanup, hfailed, true_and, if_true]
          split <;> rfl

theorem fromStatus_failed {status : Status} (h : status.failed = true) :
    RficResult.fromStatus status ≠ .noResult ∧ RficResult.fromStatus status ≠ .success := by
  cases status with
  | error e => cases e <;> exact ⟨by decide, by decide⟩
  | ok | pending | invalid => cases h

theorem failed_of_failedError {r : RficRecord} {status : Status}
    (h : r.failedError = some status) : status.failed = true := by
  cases r with
  | cleanup st => cases h
  | error st =>
      simp only [failedError] at h
      split at h
      · cases h
        assumption
      · cases h

theorem failed_of_failedCleanup {r : RficRecord} {status : Status}
    (h : r.failedCleanup = some status) : status.failed = true := by
  cases r with
  | error st => cases h
  | cleanup st =>
      simp only [failedCleanup] at h
      split at h
      · cases h
        assumption
      · cases h

variable {e : RficQueueEntry}

theorem records_resultCode_latched
    (h : e.resultCode ≠ .noResult ∧ e.resultCode ≠ .success) (rs : List RficRecord) :
    (rs.foldl record e).resultCode = e.resultCode := by
  induction rs generalizing e with
  | nil => rfl
  | cons r rs ih =>
      have hstep : (e.record r).resultCode = e.resultCode := by
        rw [record_resultCode]
        cases hr : r.failedError with
        | none => rfl
        | some status => simp [RficResult.latchError, failed_of_failedError hr, h.1, h.2]
      rw [List.foldl_cons, ih (by rw [hstep]; exact h), hstep]

theorem records_resultCode (h : e.resultCode = .noResult) (rs : List RficRecord) :
    (rs.foldl record e).resultCode =
      match rs.findSome? failedError with
      | some status => .fromStatus status
      | none => .noResult := by
  induction rs generalizing e with
  | nil => exact h
  | cons r rs ih =>
      have hstep := record_resultCode e r
      rw [List.foldl_cons, List.findSome?_cons]
      cases hr : r.failedError with
      | none =>
          rw [hr, h] at hstep
          exact ih hstep
      | some status =>
          have hfailed := failed_of_failedError hr
          have hfirst : (e.record r).resultCode = .fromStatus status := by
            rw [hstep, hr]
            simp [RficResult.latchError, hfailed, h]
          rw [records_resultCode_latched (by rw [hfirst]; exact fromStatus_failed hfailed), hfirst]

theorem records_cleanup_failed (h : e.cleanupResultCode ≠ .success)
    (rs : List RficRecord) : (rs.foldl record e).cleanupResultCode ≠ .success := by
  induction rs generalizing e with
  | nil => exact h
  | cons r rs ih =>
      refine ih ?_
      rw [record_cleanupResultCode]
      cases r.failedCleanup with
      | none => exact h
      | some status => simp [h]

theorem records_cleanup (h : e.cleanupResultCode = .success) (rs : List RficRecord) :
    (rs.foldl record e).cleanupResultCode = .success ↔
      rs.findSome? failedCleanup = none := by
  induction rs generalizing e with
  | nil => exact ⟨fun _ => rfl, fun _ => h⟩
  | cons r rs ih =>
      have hstep := record_cleanupResultCode e r
      rw [List.foldl_cons, List.findSome?_cons]
      cases hr : r.failedCleanup with
      | none =>
          rw [hr, h] at hstep
          exact ih hstep
      | some status =>
          have hfirst : (e.record r).cleanupResultCode ≠ .success := by
            rw [hstep, hr]
            simpa [h] using (fromStatus_failed (failed_of_failedCleanup hr)).2
          exact ⟨fun hs => absurd hs (records_cleanup_failed hfirst rs), fun hs => by cases hs⟩

end RficQueueEntry

/-! ## The running command at the head of the queue -/

namespace RficQueue

theorem peek_modifyHead (q : RficQueue) (f : RficQueueEntry → RficQueueEntry) :
    (q.modifyHead f).peek = q.peek.map f :=
  Lib.Fifo.peek_modifyHead _ _

theorem peek_record {q : RficQueue} {e : RficQueueEntry} (hp : q.peek = some e)
    (he : e.state = .running) (r : RficRecord) : (q.record r).peek = some (e.record r) := by
  cases r with
  | error status =>
      simp [record, recordError, peek_modifyHead, hp, he, RficQueueEntry.record]
  | cleanup status =>
      simp [record, recordCleanupError, peek_modifyHead, hp, he, RficQueueEntry.record]

theorem peek_records {q : RficQueue} {e : RficQueueEntry} (hp : q.peek = some e)
    (he : e.state = .running) (rs : List RficRecord) :
    (rs.foldl record q).peek = some (rs.foldl RficQueueEntry.record e) := by
  induction rs generalizing q e with
  | nil => exact hp
  | cons r rs ih =>
      obtain ⟨code, cleanup, hr⟩ := e.record_frame r
      exact ih (peek_record hp he r) (by rw [hr]; exact he)

end RficQueue

namespace RficState

variable {s : RficState} {e : RficQueueEntry} {rs : List RficRecord}

theorem commandWriteAdmit_peek (hp : s.queue.peek = some e)
    (addr : BitVec 16) (data : BitVec 64) (id : BitVec 16) :
    (s.commandWriteAdmit addr data id).1.queue.peek = some e := by
  have hcount : s.queue.count ≠ 0 := by
    rw [RficQueue.count, RficQueue.peek_eq_some hp]
    exact Nat.succ_ne_zero _
  have hack : (s.queue.ackResult id (data.setWidth 32)).1 = s.queue := by
    have hmatches : s.queue.ackMatches id (data.setWidth 32) = false := by
      simp [RficQueue.ackMatches, hcount]
    simp only [RficQueue.ackResult, hmatches, Bool.not_false, true_or, if_true]
    split_ifs <;> rfl
  have henqueue (ch cmd : BitVec 8) :
      (s.enqueueWrite ch cmd data id).1.queue.peek = some e := by
    unfold enqueueWrite
    split
    · exact hp
    · split
      · exact hp
      · split
        · exact hp
        · rename_i q hq
          obtain ⟨-, hitems⟩ := RficQueue.enqueue_eq hq
          have hhead : q.peek = some e := by
            rw [RficQueue.peek_eq_some hp] at hitems
            simp [RficQueue.peek, Lib.Fifo.peek, hitems]
          show (q.afterEnqueue id).entries.peek = some e
          rw [RficQueue.afterEnqueue_entries]
          exact hhead
  unfold commandWriteAdmit
  dsimp only
  split
  · exact hp
  · split
    · split
      · exact hp
      · show (s.queue.ackResult id (data.setWidth 32)).1.peek = some e
        rw [hack]
        exact hp
    · split
      · exact hp
      · split
        · exact hp
        · split
          · exact hp
          · split
            · exact hp
            · exact henqueue _ _

theorem Executes.peek {m : RficState} (h : Executes s rs m)
    (hp : s.queue.peek = some e) (he : e.state = .running) :
    m.queue.peek = some (rs.foldl record e) := by
  induction h with
  | start => exact hp
  | turn h hturn ih =>
      rename_i m' rs rs'
      obtain ⟨code, cleanup, hrs⟩ := e.records_frame rs
      rw [hturn, List.foldl_append]
      exact RficQueue.peek_records ih (by rw [hrs]; exact he) rs'
  | write h addr data id ih => exact commandWriteAdmit_peek ih addr data id

/-! ## The publication -/

def publicationRecords (a : Adi) (m : RficState) : List RficRecord :=
  if (m.latchCalibrationFault a .unknownComplete).2 then
    (if a.test .forcePathOff then [] else [RficRecord.cleanup (.error .eio)]) ++
      [RficRecord.error (.error .eio)]
  else []

theorem complete_head {m : RficState} (a : Adi) (rv : Bool)
    (hp : m.queue.peek = some e) (he : e.state = .running) :
    (m.complete a rv).queue.peek =
      let e := (m.publicationRecords a).foldl record e
      let result := e.resultCode.finalizeWithCleanup
        (rv && !(m.latchCalibrationFault a .unknownComplete).2) e.cleanupResultCode
      some { e with resultCode := result, rv := result = .success, state := .complete } := by
  have hlatched : (if (m.latchCalibrationFault a .unknownComplete).2
      then (m.latchCalibrationFault a .unknownComplete).1.recordError (.error .eio)
      else (m.latchCalibrationFault a .unknownComplete).1).queue =
        (m.publicationRecords a).foldl RficQueue.record m.queue := by
    unfold publicationRecords latchCalibrationFault forceRfPathOff
    split_ifs <;> simp_all [RficQueue.record]
  have hhead := RficQueue.peek_records hp he (m.publicationRecords a)
  rw [← hlatched] at hhead
  unfold complete
  dsimp only
  rw [RficQueue.peek_modifyHead, hhead]
  rfl

theorem finalize_of_failed {code cleanup : RficResult} {succeeded : Bool}
    (h : code ≠ .noResult ∧ code ≠ .success) :
    code.finalizeWithCleanup succeeded cleanup = code := by
  simp [RficResult.finalizeWithCleanup, RficResult.finalize, h.1, h.2]

theorem finalize_of_none {cleanup : RficResult} {succeeded : Bool} :
    RficResult.noResult.finalizeWithCleanup succeeded cleanup = .success ↔
      succeeded = true ∧ cleanup = .success := by
  cases succeeded <;> cases cleanup <;> decide

theorem failedError_eq_none :
    rs.findSome? failedError = none ↔
      ∀ status, error status ∈ rs → status.failed = false := by
  rw [List.findSome?_eq_none_iff]
  refine ⟨fun h status hmem => ?_, fun h r hmem => ?_⟩
  · have hnone := h _ hmem
    cases hfailed : status.failed with
    | false => rfl
    | true => simp [failedError, hfailed] at hnone
  · cases r with
    | cleanup status => rfl
    | error status => simp [failedError, h status hmem]

theorem failedCleanup_eq_none :
    rs.findSome? failedCleanup = none ↔
      ∀ status, cleanup status ∈ rs → status.failed = false := by
  rw [List.findSome?_eq_none_iff]
  refine ⟨fun h status hmem => ?_, fun h r hmem => ?_⟩
  · have hnone := h _ hmem
    cases hfailed : status.failed with
    | false => rfl
    | true => simp [failedCleanup, hfailed] at hnone
  · cases r with
    | error status => rfl
    | cleanup status => simp [failedCleanup, h status hmem]

/-- The command with this id is published in `s`: as a success exactly when it
recorded no error and no cleanup error, no fault was latched and the last result
of the callback was true; else as its first error, if it had one. -/
def Published (s : RficState) (id : BitVec 16) (rs : List RficRecord) (latched rv : Bool) :
    Prop :=
  ∃ e, s.queue.peek = some e ∧ e.state = .complete ∧ e.transactionId = id ∧
    (e.resultCode = .success ↔
      (∀ status, error status ∈ rs → status.failed = false) ∧
        (∀ status, cleanup status ∈ rs → status.failed = false) ∧
        latched = false ∧ rv = true) ∧
    ∀ status, rs.findSome? failedError = some status →
      e.resultCode = .fromStatus status

theorem Published.latched {id : BitVec 16}
    {latched latched' rv : Bool} (h : s.Published id rs latched' rv)
    (hfault : latched = true → rv = true →
      ∃ status, error status ∈ rs ∧ status.failed = true) :
    s.Published id rs (latched || latched') rv := by
  obtain ⟨e, hp, hstate, hid, hsuccess, hfirst⟩ := h
  refine ⟨e, hp, hstate, hid, hsuccess.trans ?_, hfirst⟩
  cases latched with
  | false => rw [Bool.false_or]
  | true =>
      refine ⟨fun ⟨hnone, _, _, hrv⟩ => ?_, fun ⟨_, _, hno, _⟩ => ?_⟩
      · obtain ⟨status, hmem, hfailed⟩ := hfault rfl hrv
        rw [hnone status hmem] at hfailed
        cases hfailed
      · cases hno

theorem Executes.complete {m : RficState} (h : Executes s rs m)
    (hp : s.queue.peek = some e) (he : e.state = .running)
    (hcode : e.resultCode = .noResult) (hcleanup : e.cleanupResultCode = .success) (a : Adi)
    (rv : Bool) :
    (m.complete a rv).Published e.transactionId rs (m.latchCalibrationFault a .unknownComplete).2
      rv := by
  obtain ⟨code, cleanup, hrs⟩ := e.records_frame rs
  have hhead := complete_head a rv (h.peek hp he) (by rw [hrs]; exact he)
  rw [← List.foldl_append] at hhead
  let all := rs ++ m.publicationRecords a
  obtain ⟨code', cleanup', hall⟩ := e.records_frame all
  have hresult := records_resultCode hcode all
  have hclean := records_cleanup hcleanup all
  refine ⟨_, hhead, rfl, by simp only [all] at hall; rw [hall], ?_, fun status hfirst => ?_⟩
  · show RficResult.finalizeWithCleanup (all.foldl record e).resultCode _
      (all.foldl record e).cleanupResultCode = .success ↔ _
    rw [hresult]
    cases hfault : (m.latchCalibrationFault a .unknownComplete).2 with
    | true =>
        have hall' : ∃ status, all.findSome? failedError = some status := by
          rw [← Option.isSome_iff_exists, Option.isSome_iff_ne_none, ne_eq, failedError_eq_none]
          intro hnone
          have hfailed := hnone (.error .eio) (by simp [all, publicationRecords, hfault])
          cases hfailed
        obtain ⟨status, hstatus⟩ := hall'
        obtain ⟨r, -, hr⟩ := List.exists_of_findSome?_eq_some hstatus
        have hclass := fromStatus_failed (failed_of_failedError hr)
        rw [hstatus]
        simp only [finalize_of_failed hclass, hclass.2, Bool.true_eq_false, false_and, and_false]
    | false =>
        have hrecords : all = rs := by
          simp [all, publicationRecords, hfault]
        rw [hrecords] at hclean ⊢
        rw [← failedError_eq_none, ← failedCleanup_eq_none, ← hclean]
        cases hfirst : rs.findSome? failedError with
        | some status =>
            obtain ⟨r, -, hr⟩ := List.exists_of_findSome?_eq_some hfirst
            have hclass :=
              fromStatus_failed (failed_of_failedError hr)
            simp only [finalize_of_failed hclass, hclass.2, reduceCtorEq, false_and]
        | none =>
            rw [finalize_of_none]
            simp [and_comm]
  · have hfailed : status.failed = true := by
      obtain ⟨r, -, hr⟩ := List.exists_of_findSome?_eq_some hfirst
      exact failed_of_failedError hr
    have hcode' : (all.foldl record e).resultCode = .fromStatus status := by
      rw [hresult, List.findSome?_append, hfirst]
      rfl
    show RficResult.finalizeWithCleanup (all.foldl record e).resultCode _ _ = _
    rw [hcode']
    exact finalize_of_failed (fromStatus_failed hfailed)

end RficState

/-! ## The runs of a command -/

def RficQueue.Fresh (q : RficQueue) : Prop :=
  ∀ e ∈ q.entries.items, e.state = .new →
    e.resultCode = .noResult ∧ e.cleanupResultCode = .success

namespace RficQueue.Fresh

variable {q q' : RficQueue}

theorem of_plain (h : q.plain.Fresh) : q.Fresh := by
  intro e he hnew
  have hplain : e.plain = e := plain_of_not_running (by rw [hnew]; decide)
  refine h e ?_ hnew
  rw [plain_items]
  exact List.mem_map.mpr ⟨e, he, hplain⟩

theorem plain (h : q.Fresh) : q.plain.Fresh := by
  intro e he hnew
  rw [plain_items] at he
  obtain ⟨e', he', rfl⟩ := List.mem_map.mp he
  rw [plain_state] at hnew
  rw [plain_of_not_running (by rw [hnew]; decide)]
  exact h e' he' hnew

theorem congr (h : q.Fresh) (hplain : q'.plain = q.plain) : q'.Fresh := by
  apply of_plain
  rw [hplain]
  exact h.plain

theorem modifyHead (h : q.Fresh) {f : RficQueueEntry → RficQueueEntry}
    (hf : ∀ e, (f e).state ≠ .new) : (q.modifyHead f).Fresh := by
  obtain ⟨⟨items, hfits⟩⟩ := q
  intro e he hnew
  cases items with
  | nil => cases he
  | cons e₀ items =>
      rcases List.mem_cons.mp he with rfl | hmem
      · exact absurd hnew (hf _)
      · exact h e (List.mem_cons_of_mem _ hmem) hnew

theorem retire (h : q.Fresh) (e : RficQueueEntry) : (q.retire e).Fresh := by
  intro e' he' hnew
  exact h e' (List.mem_of_mem_tail he') hnew

theorem enqueue (h : q.Fresh) {ch cmd : BitVec 8} {value : BitVec 64} {id : BitVec 16}
    (hq : q.enqueue ch cmd value id = some q') : q'.Fresh := by
  intro e he hnew
  rw [(enqueue_eq hq).2] at he
  rcases List.mem_append.mp he with hmem | hmem
  · exact h e hmem hnew
  · rw [List.mem_singleton.mp hmem]
    exact ⟨rfl, rfl⟩

end RficQueue.Fresh

namespace RficState

variable {s m : RficState}

theorem step_fresh {s' : RficState} {act : RficAct} (h : s.queue.Fresh)
    (hs : s.step act = some s') : s'.queue.Fresh := by
  cases step_queue hs with
  | records hq => exact h.congr hq
  | head e e₁ _ _ hstate hq =>
      apply RficQueue.Fresh.of_plain
      rw [hq]
      exact h.plain.modifyHead fun _ => hstate
  | retire e _ hq =>
      rw [hq]
      exact h.retire e
  | ack addr data id _ _ _ _ hq =>
      rw [hq]
      exact h
  | enqueue addr data id _ _ _ _ _ _ q hq hqueue =>
      have hfresh := h.enqueue hq
      rw [hqueue]
      unfold RficQueue.Fresh at hfresh ⊢
      rw [RficQueue.afterEnqueue_entries]
      exact hfresh

def newlyFaulted (m m' : RficState) : Bool := !m.calibrationFaulted && m'.calibrationFaulted

/-- The run of a command that was started in `s`: its records, and whether the
calibration fault was latched on the way. -/
inductive CommandRun (s : RficState) : List RficRecord → Bool → RficState → Prop
  | start : CommandRun s [] false s
  | step {m m' : RficState} {rs rs' : List RficRecord} {latched : Bool} {act : RficAct}
      (h : CommandRun s rs latched m) (hstep : m.step act = some m')
      (hrecords : m.Executes rs' m') :
      CommandRun s (rs ++ rs') (latched || m.newlyFaulted m') m'

theorem Executes.trans {m' : RficState} {rs rs' : List RficRecord} (h : s.Executes rs m)
    (h' : m.Executes rs' m') : s.Executes (rs ++ rs') m' := by
  induction h' with
  | start =>
      rw [List.append_nil]
      exact h
  | turn h' hturn ih =>
      rw [← List.append_assoc]
      exact .turn ih hturn
  | write h' addr data id ih => exact .write ih addr data id

theorem CommandRun.executes {rs : List RficRecord} {latched : Bool}
    (h : s.CommandRun rs latched m) : s.Executes rs m := by
  induction h with
  | start => exact .start s
  | step h hstep hrecords ih => exact ih.trans hrecords

theorem step_running {m' : RficState} {act : RficAct} (hs : m.step act = some m')
    {e : RficQueueEntry} (hp : m.queue.peek = some e) (he : e.state = .running) :
    (∃ rs, m.Executes rs m' ∧ (m.newlyFaulted m' = true →
      ∃ status, error status ∈ rs ∧ status.failed = true)) ∨
    ∃ (a : Adi) (rv : Bool) (rs : List RficRecord), act = .work a ∧ (m.runHead a e).2 = .finish rv ∧
      m' = (m.runHead a e).1.complete a rv ∧
      (m.runHead a e).1.queue = rs.foldl RficQueue.record m.queue ∧
      (m.newlyFaulted (m.runHead a e).1 = true → rv = true →
        ∃ status, error status ∈ rs ∧ status.failed = true) := by
  have hstart : Worked m.queue m.calibrationFaulted m := Recorded.start _ _
  have hturn {m' : RficState} (h : Worked m.queue m.calibrationFaulted m') :
      ∃ rs, m.Executes rs m' ∧ (m.newlyFaulted m' = true →
        ∃ status, error status ∈ rs ∧ status.failed = true) := by
    obtain ⟨rs, hrs, hfault⟩ := h
    refine ⟨rs, .turn (.start m) hrs, fun hnew => ?_⟩
    simp only [newlyFaulted, Bool.and_eq_true, Bool.not_eq_true'] at hnew
    exact hfault hnew.1 hnew.2
  cases act with
  | write addr data id =>
      cases hs
      refine .inl ⟨[], .write (.start m) addr data id, fun hnew => ?_⟩
      rw [newlyFaulted, commandWriteAdmit_faulted] at hnew
      simp at hnew
  | retuneTxQuadStart a =>
      simp only [step] at hs
      split at hs <;> cases hs
      exact .inl (hturn (startTxQuadForRetune_worked hstart))
  | retuneTxQuadPoll a =>
      simp only [step] at hs
      split at hs <;> cases hs
      exact .inl (hturn (pollTxQuadForRetune_worked hstart))
  | retuneGainTableStart a r =>
      simp only [step] at hs
      split at hs <;> cases hs
      exact .inl (hturn (startGainTableForRetune_worked hstart r))
  | retuneGainTablePoll a =>
      simp only [step] at hs
      split at hs <;> cases hs
      exact .inl (hturn (pollGainTableForRetune_worked hstart))
  | retuneFrequency tx invalid =>
      simp only [step] at hs
      split at hs <;> cases hs
      exact .inl (hturn (setFrequencyInvalid_worked hstart tx invalid))
  | work a =>
      simp only [step] at hs
      split at hs
      · cases hs
      · cases hs
        have hrun := runHead_worked (a := a) hstart e
        unfold commandWork
        rw [hp]
        dsimp only
        split
        · exact .inl (hturn hstart)
        · rw [he]
          dsimp only
          split
          · rename_i hyield
            refine .inl (hturn (hrun.resolve_right fun hfinish => ?_))
            rw [hyield] at hfinish
            cases hfinish.1
          · rename_i rv hfinish
            rcases hrun with ⟨rs, hrs, hfault⟩ | ⟨hfalse, rs, hrs, -⟩
            · refine .inr ⟨a, rv, rs, rfl, hfinish, rfl, hrs, fun hnew _ => ?_⟩
              simp only [newlyFaulted, Bool.and_eq_true, Bool.not_eq_true'] at hnew
              exact hfault hnew.1 hnew.2
            · refine .inr ⟨a, rv, rs, rfl, hfinish, rfl, hrs, fun _ hrv => ?_⟩
              rw [hfinish, hrv] at hfalse
              cases hfalse

theorem CommandRun.latched {rs : List RficRecord} {latched : Bool}
    (h : s.CommandRun rs latched m) {e : RficQueueEntry} (hp : s.queue.peek = some e)
    (he : e.state = .running) (hcode : e.resultCode = .noResult) (hlatched : latched = true) :
    ∃ status, error status ∈ rs ∧ status.failed = true := by
  induction h with
  | start => cases hlatched
  | @step m m' rs rs' latched act h hstep hrecords ih =>
      rcases Bool.or_eq_true_iff.mp hlatched with hbefore | hnew
      · obtain ⟨status, hmem, hfailed⟩ := ih hbefore
        exact ⟨status, List.mem_append_left _ hmem, hfailed⟩
      · obtain ⟨code, cleanup, hrs⟩ := e.records_frame rs
        have hhead := h.executes.peek hp he
        have hrunning : (rs.foldl record e).state = .running := by
          rw [hrs]
          exact he
        have hend := (h.executes.trans hrecords).peek hp he
        rcases step_running hstep hhead hrunning with
          ⟨rs'', hrs'', hfault⟩ | ⟨a, rv, rs'', -, -, rfl, hq, -⟩
        · -- Both lists of records leave the same head behind.
          obtain ⟨status, hmem, hfailed⟩ := hfault hnew
          have hend' := (h.executes.trans hrs'').peek hp he
          have hsame : (rs ++ rs').findSome? failedError ≠ none := by
            intro hnone
            have hcode' := records_resultCode hcode (rs ++ rs')
            rw [hnone, Option.some.inj (hend.symm.trans hend'),
              records_resultCode hcode] at hcode'
            cases hfirst : (rs ++ rs'').findSome? failedError with
            | none =>
                rw [failedError_eq_none.mp hfirst status (List.mem_append_right _ hmem)] at hfailed
                cases hfailed
            | some first =>
                obtain ⟨r, -, hr⟩ := List.exists_of_findSome?_eq_some hfirst
                rw [hfirst] at hcode'
                exact (fromStatus_failed
                  (failed_of_failedError hr)).1 hcode'
          by_contra hno
          push Not at hno
          exact hsame (failedError_eq_none.mpr fun st hst => by simpa using hno st hst)
        · -- A published result is not running any more.
          have hturn : m.Executes rs'' (m.runHead a (rs.foldl record e)).1 :=
            .turn (.start m) hq
          obtain ⟨code', cleanup', hrs'⟩ := e.records_frame (rs ++ rs'')
          obtain ⟨code'', cleanup'', hrs''⟩ := e.records_frame (rs ++ rs')
          rw [complete_head a rv ((h.executes.trans hturn).peek hp he) (by rw [hrs']; exact he)]
            at hend
          have hstate := congrArg state (Option.some.inj hend)
          rw [hrs''] at hstate
          have hcomplete : EntryState.complete = .running := hstate.trans he
          cases hcomplete

theorem work_starts {s₁ : RficState} {a₀ : Adi} {e e₁ : RficQueueEntry}
    (hp : s.queue.peek = some e) (hnew : e.state = .new) (hstart : s.step (.work a₀) = some s₁)
    (hp₁ : s₁.queue.peek = some e₁) (hrunning : e₁.state = .running) :
    e₁ = { e with state := .running } := by
  simp only [step] at hstart
  split at hstart
  · cases hstart
  · cases hstart
    rcases s.commandWork_queue (a := a₀) with
      ⟨hplain, -⟩ | ⟨e', hp', -, ⟨-, hq⟩ | ⟨hrun, -⟩ | ⟨hcomplete, -⟩⟩
    · obtain ⟨e', hp', he'⟩ := RficQueue.peek_plain hplain hp
      have hstate := congrArg state he'
      rw [plain_state, plain_state, hnew,
        Option.some.inj (hp'.symm.trans hp₁), hrunning] at hstate
      cases hstate
    · rw [hq, RficQueue.peek_modifyHead, hp] at hp₁
      exact (Option.some.inj hp₁).symm
    · rw [Option.some.inj (hp'.symm.trans hp), hnew] at hrun
      cases hrun
    · rw [Option.some.inj (hp'.symm.trans hp), hnew] at hcomplete
      cases hcomplete

/-- **The result of a command**: once a queued command is started, any records
and any last result of the callback are published as `Published` says; and a
step of the worker either carries the run on or is such a publication, after the
last records and with the result of the last turn. -/
theorem result_latching {acts : List RficAct} {s s₁ : RficState} {a₀ : Adi}
    {e e₁ : RficQueueEntry} (hs : Lib.Steps step (fun _ _ => True) commandInit acts s)
    (hp : s.queue.peek = some e) (hnew : e.state = .new) (hstart : s.step (.work a₀) = some s₁)
    (hp₁ : s₁.queue.peek = some e₁) (hrunning : e₁.state = .running) :
    (∀ rs m a rv, s₁.Executes rs m →
      (m.complete a rv).Published e.transactionId rs
        (m.latchCalibrationFault a .unknownComplete).2 rv) ∧
    ∀ rs latched m act m', s₁.CommandRun rs latched m → m.step act = some m' →
      (∃ rs', s₁.CommandRun (rs ++ rs') (latched || m.newlyFaulted m') m') ∨
      ∃ a rv rs' head, act = .work a ∧ m.queue.peek = some head ∧
        (m.runHead a head).2 = .finish rv ∧ m' = (m.runHead a head).1.complete a rv ∧
        m.Executes rs' (m.runHead a head).1 ∧
        m'.Published e.transactionId (rs ++ rs')
          (latched || m.newlyFaulted (m.runHead a head).1 ||
            ((m.runHead a head).1.latchCalibrationFault a .unknownComplete).2) rv := by
  have hfresh : s.queue.Fresh :=
    hs.invariant (P := fun s => s.queue.Fresh) (fun _ hmem => by cases hmem)
      (fun h _ hstep => step_fresh h hstep)
  have hmem : e ∈ s.queue.entries.items := by
    rw [RficQueue.peek_eq_some hp]
    exact List.mem_cons_self
  obtain ⟨hcode, hcleanup⟩ := hfresh e hmem hnew
  obtain rfl := work_starts hp hnew hstart hp₁ hrunning
  refine ⟨fun rs m a rv hrun => hrun.complete hp₁ hrunning hcode hcleanup a rv,
    fun rs latched m act m' hrun hstep => ?_⟩
  obtain ⟨code, cleanup, hrs⟩ := records_frame { e with state := .running } rs
  have hhead := hrun.executes.peek hp₁ hrunning
  rcases step_running hstep hhead (by rw [hrs]) with
    ⟨rs', hrs', -⟩ | ⟨a, rv, rs', hact, hfinish, hm', hq, hfault⟩
  · exact .inl ⟨rs', hrun.step hstep hrs'⟩
  · have hturn : m.Executes rs' (m.runHead a _).1 := .turn (.start m) hq
    refine .inr ⟨a, rv, rs', _, hact, hhead, hfinish, hm', hturn, ?_⟩
    rw [hm']
    refine ((hrun.executes.trans hturn).complete hp₁ hrunning hcode hcleanup a rv).latched
      fun hlatched hrv => ?_
    rcases Bool.or_eq_true_iff.mp hlatched with hbefore | hnewly
    · obtain ⟨status, hstatus, hfailed⟩ := hrun.latched hp₁ hrunning hcode hbefore
      exact ⟨status, List.mem_append_left _ hstatus, hfailed⟩
    · obtain ⟨status, hstatus, hfailed⟩ := hfault hnewly hrv
      exact ⟨status, List.mem_append_right _ hstatus, hfailed⟩

/-- INIT OFF that runs into two errors and ends with a true result: the first
error is published. -/
theorem result_latching_twoErrors :
    ∃ s₁ m : RficState, s₁.Executes [.error (.error .einval), .error (.error .eio)] m ∧
      ∃ e, (m.complete Adi.calm true).queue.peek = some e ∧ e.resultCode = .invalidParameter := by
  let s : RficState := (commandInit.commandWriteAdmit 0x0f01 0 1).1
  have hs : Lib.exec step (fun _ _ => True) commandInit [.write 0x0f01 0 1] = some s := rfl
  have hstart : s.step (.work Adi.calm) = some (s.commandWork Adi.calm) := rfl
  have hlaw := (result_latching (Lib.Steps.of_exec hs) rfl rfl hstart rfl rfl).1
  have hrun : (s.commandWork Adi.calm).Executes [.error (.error .einval), .error (.error .eio)]
      (((s.commandWork Adi.calm).recordError (.error .einval)).recordError (.error .eio)) :=
    @Executes.turn _ _ _ [] [.error (.error .einval), .error (.error .eio)] (.start _) rfl
  obtain ⟨e, hp, -, -, -, hfirst⟩ := hlaw _ _ Adi.calm true hrun
  exact ⟨_, _, hrun, e, hp, hfirst _ rfl⟩

end RficState

end BladeRF
