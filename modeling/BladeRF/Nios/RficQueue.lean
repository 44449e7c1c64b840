/-
# `Nios.RficQueue` — the write queue of the RFIC command interface

A ring of sixteen commands with one record of the last terminal result.  A
tagged command carries a nonzero transaction id; its result stays in the record
until the host acknowledges it by id and retirement sequence, and the identity
of the last acknowledgement is kept for its retries.

The ring is a bounded FIFO: the slots outside it (`ENTRY_STATE_INVALID`) are
read by nothing.  `progress_sequence` is a diagnostic and is left out.
-/
import Mathlib.Data.BitVec
import BladeRF.Lib.Fifo

namespace BladeRF

/-! ## Driver results -/

/-- The errno values that `bladerf_rfic_result_from_status` and the RFIC
commands tell apart. -/
inductive Errno where
  | etimedout
  | einval
  | erange
  | eio
  | eopnotsupp
  | enotsup
  | ebusy
  | other
deriving DecidableEq

/-- An `int32_t` result of a driver: zero, one, a larger value or an errno. -/
inductive Status where
  | ok
  | pending
  | invalid
  | error (e : Errno)
deriving DecidableEq

namespace Status

/-- `status < 0`. -/
def failed : Status → Bool
  | .error _ => true
  | _ => false

/-- `rfic_retained_poll_status`. -/
def retainedPoll : Status → Status
  | .invalid => .error .eio
  | s => s

end Status

/-- `enum bladerf_rfic_result_code`. -/
inductive RficResult where
  | success
  | timeout
  | invalidParameter
  | io
  | unsupported
  | internal
  | noResult
deriving DecidableEq

namespace RficResult

/-- `bladerf_rfic_result_from_status`. -/
def fromStatus : Status → RficResult
  | .error .etimedout => .timeout
  | .error .einval => .invalidParameter
  | .error .erange => .invalidParameter
  | .error .eio => .io
  | .error .eopnotsupp => .unsupported
  | .error .enotsup => .unsupported
  | .error _ => .internal
  | _ => .success

/-- `bladerf_rfic_result_latch_error`. -/
def latchError (latched : RficResult) (status : Status) : RficResult :=
  if !status.failed then latched
  else if latched ≠ .noResult ∧ latched ≠ .success then latched
  else fromStatus status

/-- `bladerf_rfic_result_finalize`. -/
def finalize (latched : RficResult) (succeeded : Bool) : RficResult :=
  if latched = .noResult then (if succeeded then .success else .internal)
  else if latched = .success ∧ !succeeded then .internal
  else latched

/-- `bladerf_rfic_result_finalize_with_cleanup`. -/
def finalizeWithCleanup (latched : RficResult) (succeeded : Bool) (cleanup : RficResult) :
    RficResult :=
  finalize latched (succeeded && cleanup = .success)

theorem finalizeWithCleanup_ne_noResult (latched cleanup : RficResult) (succeeded : Bool) :
    finalizeWithCleanup latched succeeded cleanup ≠ .noResult := by
  unfold finalizeWithCleanup finalize
  split
  · split <;> simp
  · split
    · simp
    · assumption

end RficResult

/-! ## The queue -/

/-- `enum rfic_entry_state`, without the state of an unused slot. -/
inductive EntryState where
  | new
  | running
  | complete
deriving DecidableEq

structure RficQueueEntry where
  state : EntryState
  rv : Bool
  ch : BitVec 8
  cmd : BitVec 8
  transactionId : BitVec 16
  value : BitVec 64
  resultCode : RficResult
  cleanupResultCode : RficResult

def commandQueueMax : ℕ := 16

structure RficQueue where
  entries : Lib.Fifo RficQueueEntry commandQueueMax
  lastRv : Bool
  lastRvValid : Bool
  lastRvSequence : BitVec 32
  lastRvTransactionId : BitVec 16
  lastRvCh : BitVec 8
  lastRvCmd : BitVec 8
  lastRvValue : BitVec 64
  lastResultCode : RficResult
  lastCleanupResultCode : RficResult
  lastAckedTransactionId : BitVec 16
  lastAckedSequence : BitVec 32
  taggedProtocolEnabled : Bool

namespace RficQueue

def count (q : RficQueue) : ℕ := q.entries.items.length

/-- `rfic_queue_peek`. -/
def peek (q : RficQueue) : Option RficQueueEntry := q.entries.peek

/-- `rfic_queue_reset`. -/
def reset : RficQueue :=
  { entries := .empty
    lastRv := true
    lastRvValid := false
    lastRvSequence := 0
    lastRvTransactionId := 0
    lastRvCh := 0
    lastRvCmd := 0
    lastRvValue := 0
    lastResultCode := .noResult
    lastCleanupResultCode := .noResult
    lastAckedTransactionId := 0
    lastAckedSequence := 0
    taggedProtocolEnabled := false }

/-- `rfic_enqueue`; `none` is `COMMAND_QUEUE_FULL`. -/
def enqueue (q : RficQueue) (ch cmd : BitVec 8) (value : BitVec 64) (id : BitVec 16) :
    Option RficQueue :=
  (q.entries.push
    { state := .new
      rv := true
      ch := ch
      cmd := cmd
      transactionId := id
      value := value
      resultCode := .noResult
      cleanupResultCode := .success }).map fun es => { q with entries := es }

def modifyHead (q : RficQueue) (f : RficQueueEntry → RficQueueEntry) : RficQueue :=
  { q with entries := q.entries.modifyHead f }

/-- The retirement of a `COMPLETE` head. -/
def retire (q : RficQueue) (e : RficQueueEntry) : RficQueue :=
  { q with
    lastRv := e.rv
    lastRvValid := true
    lastRvTransactionId := e.transactionId
    lastRvCh := e.ch
    lastRvCmd := e.cmd
    lastRvValue := e.value
    lastResultCode := e.resultCode
    lastCleanupResultCode := e.cleanupResultCode
    lastRvSequence := q.lastRvSequence + 1
    entries := q.entries.pop }

/-- `rfic_command_record_error`. -/
def recordError (q : RficQueue) (status : Status) : RficQueue :=
  q.modifyHead fun e =>
    if status.failed ∧ e.state = .running then
      { e with resultCode := e.resultCode.latchError status }
    else e

def recordCleanupError (q : RficQueue) (status : Status) : RficQueue :=
  q.modifyHead fun e =>
    if status.failed ∧ e.state = .running ∧ e.cleanupResultCode = .success then
      { e with cleanupResultCode := .fromStatus status }
    else e

def sameCommand (e : RficQueueEntry) (ch cmd : BitVec 8) (value : BitVec 64) : Bool :=
  e.ch = ch ∧ e.cmd = cmd ∧ e.value = value

/-- `rfic_find_transaction`: `some true` for the same command under the same
id, `some false` for another one. -/
def findTransaction (q : RficQueue) (id : BitVec 16) (ch cmd : BitVec 8) (value : BitVec 64) :
    Option Bool :=
  if id = 0 then none
  else match q.entries.items.find? (fun e => e.transactionId = id) with
    | some e => some (sameCommand e ch cmd value)
    | none =>
        if q.lastRvTransactionId = id then
          some (q.lastRvCh = ch ∧ q.lastRvCmd = cmd ∧ q.lastRvValue = value)
        else none

/-- `bladerf_rfic_result_ack_is_duplicate`. -/
def ackIsDuplicate (q : RficQueue) (id : BitVec 16) (sequence : BitVec 32) : Bool :=
  id ≠ 0 ∧ q.lastAckedTransactionId = id ∧ q.lastAckedSequence = sequence

/-- `bladerf_rfic_result_ack_matches`. -/
def ackMatches (q : RficQueue) (id : BitVec 16) (sequence : BitVec 32) : Bool :=
  q.lastRvValid ∧ q.count = 0 ∧ id ≠ 0 ∧ q.lastRvTransactionId = id ∧
    q.lastRvSequence = sequence

def taggedWriteAllowed (q : RficQueue) : Bool :=
  q.count + (if q.lastRvValid ∧ q.lastRvTransactionId ≠ 0 then 1 else 0) < 1

def clearResult (q : RficQueue) : RficQueue :=
  { q with
    lastRvValid := false
    lastResultCode := .noResult
    lastCleanupResultCode := .noResult }

/-- A queued tagged write retires a legacy result and opts into the tagged
protocol. -/
def afterEnqueue (q : RficQueue) (id : BitVec 16) : RficQueue :=
  if id = 0 then q
  else { (if q.lastRvValid then q.clearResult else q) with taggedProtocolEnabled := true }

@[simp] theorem afterEnqueue_entries (q : RficQueue) (id : BitVec 16) :
    (q.afterEnqueue id).entries = q.entries := by
  unfold afterEnqueue
  split_ifs <;> rfl

theorem afterEnqueue_lastRvValid (q : RficQueue) {id : BitVec 16} (h : id ≠ 0) :
    (q.afterEnqueue id).lastRvValid = false := by
  unfold afterEnqueue
  rw [if_neg h]
  split_ifs with hv
  · rfl
  · simpa using hv

theorem afterEnqueue_tagged (q : RficQueue) {id : BitVec 16} (h : id ≠ 0) :
    (q.afterEnqueue id).taggedProtocolEnabled = true := by
  unfold afterEnqueue
  rw [if_neg h]

theorem enqueue_eq {q q' : RficQueue} {ch cmd : BitVec 8} {value : BitVec 64} {id : BitVec 16}
    (h : q.enqueue ch cmd value id = some q') :
    q' = { q with entries := q'.entries } ∧
      q'.entries.items = q.entries.items ++ [⟨.new, true, ch, cmd, id, value, .noResult, .success⟩] := by
  simp only [enqueue, Option.map_eq_some_iff] at h
  obtain ⟨es, hes, rfl⟩ := h
  exact ⟨rfl, Lib.Fifo.push_items hes⟩

/-- `rfic_command_ack_result`. -/
def ackResult (q : RficQueue) (id : BitVec 16) (sequence : BitVec 32) : RficQueue × Bool :=
  if id = 0 then (q, false)
  else if q.ackIsDuplicate id sequence then (q, true)
  else if !q.ackMatches id sequence ∨ q.lastResultCode = .noResult then (q, false)
  else
    ({ q.clearResult with
      lastAckedTransactionId := id
      lastAckedSequence := sequence }, true)

end RficQueue
end BladeRF
