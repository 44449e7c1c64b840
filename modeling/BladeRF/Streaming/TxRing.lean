/-
# `Streaming.TxRing` — the TX ring as a system of steps

`sync_tx` fills buffers and submits them; when the backend has no free transfer
it hands the duty to submit over to `tx_callback`, which ships one deferred
buffer for each buffer that completes.  The duty moves between the two through
`submitter` and `cons_i`, and `buf_mgmt.lock` is dropped around every call of
`async_submit_stream_buffer`, so a callback may run in the middle of
`advance_tx_buffer` and of `reclaim_tx_submission`.  Each step below is one
section of code under `buf_mgmt.lock`, or one decision of the backend under the
stream's lock; every order of them is a run.

* A submission by `sync_tx` is three steps: the section that marks the slot and
  drops the lock, the backend's decision, and the section that follows.
* A buffer that `tx_callback` returns is `pending` until the backend has decided
  on it: `async_tx_buffer_validate` drops the stream's lock for the timestamp
  check of the board, so `sync_tx` may submit in between.
* Calls of `sync_tx` are not delimited: `s->state` lives across calls, and a
  call that returns is one whose next iteration belongs to the next call.  What
  is left to copy is a choice of each iteration.
* Contents and lengths of buffers, log output and condition signals are left
  out.  `fills`, `fillOf` and `accepted` record the order of events and are read
  by no operation.
-/
import BladeRF.Streaming.RxRing

namespace BladeRF

/-- `sync_tx_submitter`, the values a TX ring has. -/
inductive SyncTxSubmitter where
  | fn
  | callback
deriving DecidableEq

/-- What `async_submit_stream_buffer` returns: `0`, `BLADERF_ERR_WOULD_BLOCK`,
or any other error. -/
inductive SubmitResult where
  | accepted
  | wouldBlock
  | failed
deriving DecidableEq

/-- `struct buffer_mgmt`, the fields the TX side uses.  `consI` is `none` for
`BUFFER_MGMT_INVALID_INDEX`. -/
structure TxBufferMgmt (n : ℕ) where
  status : Fin n → SyncBufferStatus
  prodI : Fin n
  consI : Option (Fin n)
  partialOff : ℕ
  submitter : SyncTxSubmitter

namespace TxBufferMgmt

variable {n : ℕ} [NeZero n]

/-- The ring as `sync_init` leaves it. -/
def init : TxBufferMgmt n where
  status _ := .empty
  prodI := 0
  consI := none
  partialOff := 0
  submitter := .fn

/-- `b->status[i] = st`. -/
def setStatus (b : TxBufferMgmt n) (i : Fin n) (st : SyncBufferStatus) : TxBufferMgmt n :=
  { b with status := Function.update b.status i st }

def oldestFullBuffer (b : TxBufferMgmt n) : Option (Fin n) :=
  Lib.findFrom (b.consI.getD b.prodI) (fun i => decide (b.status i = .full))

def txSubmissionParked (b : TxBufferMgmt n) : Bool :=
  match b.submitter with
  | .callback => b.consI.isSome
  | .fn => b.oldestFullBuffer.isSome

/-- Submission is `sync_tx`'s own again. -/
def takeBack (b : TxBufferMgmt n) : TxBufferMgmt n :=
  { b with submitter := .fn, consI := none }

/-- `reclaim_tx_submission` up to the submission; the slot is the one that is
submitted. -/
def reclaimBegin (b : TxBufferMgmt n) : TxBufferMgmt n × Option (Fin n) :=
  match b.oldestFullBuffer with
  | none => (b.takeBack, none)
  | some idx => (b.setStatus idx .inFlight, some idx)

/-- `reclaim_tx_submission` from the submission on.  It returns `0` unless the
result is `failed`. -/
def reclaimEnd (b : TxBufferMgmt n) (idx : Fin n) : SubmitResult → TxBufferMgmt n
  | .accepted =>
      let b₁ := { b with consI := some (idx + 1) }
      if b₁.oldestFullBuffer = none then b₁.takeBack else b₁
  | .wouldBlock | .failed => b.setStatus idx .full

/-- `tx_callback` for a completed buffer, with no stop request pending; `none`
is a failed assertion. -/
def txCompleted (b : TxBufferMgmt n) (completedIdx : Fin n) :
    Option (TxBufferMgmt n × StreamReturn n) :=
  if b.status completedIdx ≠ .inFlight then none
  else
    let b₁ := b.setStatus completedIdx .empty
    match b₁.submitter, b₁.consI with
    | .fn, _ => some (b₁, .noData)
    | .callback, none => none
    | .callback, some c =>
        if b₁.status c = .full then
          some ({ b₁.setStatus c .inFlight with consI := some (c + 1) }, .buffer c)
        else some (b₁.takeBack, .noData)

/-- `tx_callback`.  `stop` is the `SYNC_WORKER_STOP` request bit; `samples` is
`none` for the initial callbacks, which bring no completed buffer. -/
def txCallback (stop : Bool) (b : TxBufferMgmt n) (samples : Option (Fin n)) :
    Option (TxBufferMgmt n × StreamReturn n) :=
  if stop then some (b, .shutdown)
  else
    match samples with
    | none => some (b, .noData)
    | some completedIdx => b.txCompleted completedIdx

/-- The TX part of `exec_idle_state` on a start request. -/
def retireInFlight (b : TxBufferMgmt n) : TxBufferMgmt n :=
  { b with status := fun i => if b.status i = .inFlight then .empty else b.status i }

def restoreRejectedTxBuffer (b : TxBufferMgmt n) (idx : Fin n) : TxBufferMgmt n :=
  if b.status idx = .inFlight then
    { b.setStatus idx .full with submitter := .callback, consI := some idx }
  else b

end TxBufferMgmt

inductive BladerfStreamState where
  | idle
  | running
  | shuttingDown
  | done
deriving DecidableEq

/-- Where the worker thread is.  `starting` is `SYNC_WORKER_STATE_RUNNING`
before `async_run_stream` has set the stream running, `ended` is the rest of
`exec_running_state` once a rejected buffer has been restored. -/
inductive TxWorker where
  | idle
  | starting
  | streaming
  | ended
  | stopped
deriving DecidableEq

/-- Who called `async_submit_stream_buffer`: the submission of
`advance_tx_buffer`, or `reclaim_tx_submission` from one of its three places.
`reclaimWait` carries the loop's `before`. -/
inductive TxSubmitCaller (n : ℕ) where
  | advance
  | reclaimAdvance
  | reclaimWait (before : Option (Fin n))
  | reclaimTimeout
deriving DecidableEq

/-- Where the producer is: at the head of its loop, inside one of its two waits,
or in a submission, with the result once the backend has decided. -/
inductive TxPoint (n : ℕ) where
  | outside
  | starting
  | waiting
  | submitting (caller : TxSubmitCaller n) (idx : Fin n) (result : Option SubmitResult)
deriving DecidableEq

/-- How the wait of `SYNC_STATE_WAIT_FOR_BUFFER` ends.  A deadline that had
passed before the wait is `timedOut`, too. -/
inductive TxWaitResult where
  | woken
  | timedOut
  | failed

/-- The parameters of `sync_init`; it refuses `buffer_size == 0`. -/
structure TxConfig where
  format : BladerfFormat
  samplesPerBuffer : ℕ
  samplesPerBuffer_pos : 0 < samplesPerBuffer
  msgPerBuf : ℕ

/-- `struct bladerf_sync` of a TX stream, with the producer's and the worker's
positions, the buffers the backend owns (`usb`), the one `tx_callback` has just
returned (`pending`) and `stream->tx_buffer_rejected`. -/
structure TxSync (n : ℕ) where
  cfg : TxConfig
  b : TxBufferMgmt n
  state : SyncState
  msgNum : ℕ
  point : TxPoint n
  worker : TxWorker
  startRequested : Bool
  stopRequested : Bool
  errCode : ℤ
  stream : BladerfStreamState
  usb : List (Fin n)
  pending : Option (Fin n)
  rejected : Option (Fin n)
  /-- How many buffers `sync_tx` has filled. -/
  fills : ℕ
  /-- Which fill left its samples in a slot, counted from `0`. -/
  fillOf : Fin n → ℕ
  /-- The fills the backend has accepted, in the order in which it did. -/
  accepted : List ℕ

/-- What becomes of a buffer that `tx_callback` returned: submitted, refused by
the final check, or lost to an error of the submission. -/
inductive CallbackSubmit where
  | accepted
  | rejected
  | lost

/-- The steps.  `remaining` is `num_samples - samples_written`; `endMsg` says
that the iteration completes the current message. -/
inductive TxAct (n : ℕ) where
  | checkWorker
  | startWorker
  | startWorkerDone (reached : Bool)
  | waitForBuffer
  | waitDone (result : TxWaitResult)
  | bufferReady
  | usingBuffer (remaining : ℕ)
  | usingBufferMeta (endMsg : Bool)
  | usingPacketMeta
  | submitDone (result : SubmitResult)
  | submitReturn
  | complete (i : Fin n)
  | cancelled (i : Fin n)
  | callbackSubmit (r : CallbackSubmit)
  | streamStop
  | streamDone
  | requestStop
  | execIdle
  | runStream
  | streamEnd
  | publish (status : ℤ)

namespace TxSync

variable {n : ℕ} [NeZero n]

/-- A TX stream as `sync_init` leaves it. -/
def init (cfg : TxConfig) : TxSync n where
  cfg := cfg
  b := .init
  state := .checkWorker
  msgNum := 0
  point := .outside
  worker := .idle
  startRequested := false
  stopRequested := false
  errCode := 0
  stream := .idle
  usb := []
  pending := none
  rejected := none
  fills := 0
  fillOf _ := 0
  accepted := []

/-! ## `advance_tx_buffer` -/

/-- `sync_tx` has filled the slot at `prod_i`. -/
def filled (t : TxSync n) : TxSync n :=
  { t with
    fills := t.fills + 1
    fillOf := Function.update t.fillOf t.b.prodI t.fills }

/-- What `sync_tx` does after `advance_tx_buffer` has returned, whatever it
returned: the two metadata states go on at `WAIT_FOR_BUFFER`. -/
def afterAdvance (t : TxSync n) : TxSync n :=
  match t.cfg.format with
  | .sc16Q11 | .sc16Q11Packed | .sc8Q7 => t
  | .sc16Q11Meta | .packetMeta | .sc8Q7Meta =>
      { t with msgNum := 0, state := .waitForBuffer }

/-- The end of `advance_tx_buffer`: the producer index moves on. -/
def advanceDone (t : TxSync n) : TxSync n :=
  let next := t.b.prodI + 1
  afterAdvance { t with
    b := { t.b with prodI := next }
    state := if t.b.status next = .empty then .bufferReady else .checkWorker
    point := .outside }

/-- The rollback of `advance_tx_buffer` after its own submission failed. -/
def advanceRollback (t : TxSync n) (idx : Fin n) : TxSync n :=
  afterAdvance { t with
    b := { t.b.setStatus idx .empty with partialOff := 0 }
    state := .bufferReady
    point := .outside }

/-- `advance_tx_buffer` up to its submission, or to its end if it makes none. -/
def advanceTxBuffer (t : TxSync n) : TxSync n :=
  match t.b.submitter with
  | .fn =>
      { t with
        b := t.b.setStatus t.b.prodI .inFlight
        point := .submitting .advance t.b.prodI none }
  | .callback =>
      let b₁ := t.b.setStatus t.b.prodI .full
      if b₁.consI.isSome then
        match b₁.reclaimBegin with
        | (b₂, some idx) =>
            { t with b := b₂, point := .submitting .reclaimAdvance idx none }
        | (b₂, none) => advanceDone { t with b := b₂ }
      else advanceDone { t with b := b₁ }

/-! ## `SYNC_STATE_WAIT_FOR_BUFFER` -/

/-- After the reclaim loop: wait unless the slot at `prod_i` is free by now. -/
def waitTail (t : TxSync n) : TxSync n :=
  { t with point := if t.b.status t.b.prodI = .empty then .outside else .waiting }

/-- The reclaim loop from its head on.  When nothing is `FULL` the duty comes
back, and then the loop's condition fails. -/
def waitLoop (t : TxSync n) : TxSync n :=
  if t.b.txSubmissionParked then
    match t.b.reclaimBegin with
    | (b₁, some idx) =>
        { t with b := b₁, point := .submitting (.reclaimWait t.b.consI) idx none }
    | (b₁, none) => waitTail { t with b := b₁ }
  else waitTail t

/-- The code after the wait, with the status it gave: on a timeout, one more
reclaim. -/
def waitStatus (t : TxSync n) (status : ℤ) : TxSync n :=
  if status = bladerfErrTimeout ∧ t.b.txSubmissionParked = true then
    match t.b.reclaimBegin with
    | (b₁, some idx) => { t with b := b₁, point := .submitting .reclaimTimeout idx none }
    | (b₁, none) => { t with b := b₁, point := .outside }
  else { t with point := .outside }

/-! ## The section after a submission -/

def submitReturn (t : TxSync n) (idx : Fin n) (r : SubmitResult) :
    TxSubmitCaller n → TxSync n
  | .advance =>
      match r with
      | .accepted => advanceDone t
      | .wouldBlock =>
          advanceDone { t with
            b := { t.b.setStatus idx .full with submitter := .callback, consI := some idx } }
      | .failed => advanceRollback t idx
  | .reclaimAdvance =>
      -- a failure returns before the producer index moves
      if r = .failed then
        afterAdvance { t with b := t.b.reclaimEnd idx r, point := .outside }
      else advanceDone { t with b := t.b.reclaimEnd idx r }
  | .reclaimWait before =>
      let t₁ := { t with b := t.b.reclaimEnd idx r }
      if r = .failed then { t₁ with point := .outside }
      else if t₁.b.consI = before then waitTail t₁
      else waitLoop t₁
  | .reclaimTimeout => { t with b := t.b.reclaimEnd idx r, point := .outside }

/-- The number of samples `SYNC_STATE_USING_BUFFER` leaves in the buffer. -/
def copiedOff (t : TxSync n) (remaining : ℕ) : ℕ :=
  t.b.partialOff + min remaining (t.cfg.samplesPerBuffer - t.b.partialOff)

/-- `s->meta.msg_num` once the iteration has ended its message or not. -/
def copiedMsgs (t : TxSync n) (endMsg : Bool) : ℕ :=
  t.msgNum + endMsg.toNat

/-- `SYNC_STATE_USING_BUFFER`.  A buffer that was full before, after a reclaim
failed in `advance_tx_buffer`, is handed to it again with nothing copied. -/
def copySamples (t : TxSync n) (remaining : ℕ) : TxSync n :=
  let off := t.copiedOff remaining
  let t₁ := { t with b := { t.b with partialOff := off } }
  if t.cfg.samplesPerBuffer ≤ off then
    if t.b.partialOff < t.cfg.samplesPerBuffer then t₁.filled.advanceTxBuffer
    else t₁.advanceTxBuffer
  else t₁

/-- `SYNC_STATE_USING_BUFFER_META`. -/
def copyMessage (t : TxSync n) (endMsg : Bool) : TxSync n :=
  let msgs := t.copiedMsgs endMsg
  let t₁ := { t with msgNum := msgs }
  if t.cfg.msgPerBuf ≤ msgs then t₁.filled.advanceTxBuffer else t₁

def usingState : BladerfFormat → SyncState
  | .sc16Q11 | .sc16Q11Packed | .sc8Q7 => .usingBuffer
  | .sc16Q11Meta | .sc8Q7Meta => .usingBufferMeta
  | .packetMeta => .usingPacketMeta

/-- The backend takes the buffer in slot `i`. -/
def accept (t : TxSync n) (i : Fin n) : TxSync n :=
  { t with
    usb := t.usb ++ [i]
    accepted := t.accepted ++ [t.fillOf i] }

/-- What the backend does with the value `tx_callback` returned. -/
def returned (t : TxSync n) : StreamReturn n → TxSync n
  | .buffer c => { t with pending := some c }
  | .shutdown => { t with stream := .shuttingDown }
  | .noData | .reuseBuffer => t

/-- The restore of `exec_running_state`. -/
def restoreRejected (t : TxSync n) : TxSync n :=
  match t.rejected with
  | none => t
  | some idx => { t with b := t.b.restoreRejectedTxBuffer idx, rejected := none }

/-! ## The steps -/

/-- The producer's states; each iteration begins at the head of the loop. -/
def stepState (t : TxSync n) : TxAct n → Option (TxSync n)
  | .checkWorker =>
      if t.state ≠ .checkWorker then none
      else if t.errCode ≠ 0 then some { t with errCode := 0 }
      else if t.worker = .idle then some { t with state := .startWorker }
      else if t.stream = .done ∨ t.stream = .shuttingDown then some t
      else some { t with state := .waitForBuffer }
  | .startWorker =>
      if t.state ≠ .startWorker then none
      else some { t with startRequested := true, point := .starting }
  | .waitForBuffer =>
      if t.state ≠ .waitForBuffer then none
      else if t.b.status t.b.prodI = .empty then some { t with state := .bufferReady }
      else some t.waitLoop
  | .bufferReady =>
      if t.state ≠ .bufferReady then none
      else some { t with
        b := { t.b.setStatus t.b.prodI .partlyUsed with partialOff := 0 }
        state := usingState t.cfg.format
        msgNum := 0 }
  | .usingBuffer remaining =>
      if t.state ≠ .usingBuffer ∨ remaining = 0 then none
      else some (t.copySamples remaining)
  | .usingBufferMeta endMsg =>
      if t.state ≠ .usingBufferMeta then none else some (t.copyMessage endMsg)
  | .usingPacketMeta =>
      if t.state ≠ .usingPacketMeta then none else some t.filled.advanceTxBuffer
  | _ => none

def stepInside (t : TxSync n) : TxAct n → Option (TxSync n)
  | .startWorkerDone reached =>
      if t.point ≠ .starting then none
      else if reached = true then
        if t.worker = .idle ∨ t.worker = .stopped then none
        else some { t with state := .waitForBuffer, point := .outside }
      else some { t with point := .outside }
  | .waitDone result =>
      if t.point ≠ .waiting then none
      else
        match result with
        | .woken =>
            if t.errCode ≠ 0 then some ({ t with state := .checkWorker }.waitStatus t.errCode)
            else some (t.waitStatus 0)
        | .timedOut => some (t.waitStatus bladerfErrTimeout)
        | .failed => some (t.waitStatus bladerfErrUnexpected)
  | .submitDone r =>
      match t.point with
      | .submitting caller idx none =>
          let t₁ := { t with point := .submitting caller idx (some r) }
          if r = .accepted then
            if t.stream = .running then some (t₁.accept idx) else none
          else some t₁
      | _ => none
  | .submitReturn =>
      match t.point with
      | .submitting caller idx (some r) => some (t.submitReturn idx r caller)
      | _ => none
  | _ => none

def stepBackend (t : TxSync n) : TxAct n → Option (TxSync n)
  | .complete i =>
      if t.stream = .running ∧ t.pending = none ∧ i ∈ t.usb then
        match t.b.txCallback t.stopRequested (some i) with
        | none => none
        | some (b₁, ret) => some ({ t with b := b₁, usb := t.usb.erase i }.returned ret)
      else none
  | .cancelled i =>
      if t.stream ≠ .running ∧ i ∈ t.usb then some { t with usb := t.usb.erase i } else none
  | .callbackSubmit r =>
      match t.pending with
      | none => none
      | some c =>
          let t₁ := { t with pending := none }
          match r with
          | .accepted => if t.stream = .running then some (t₁.accept c) else none
          | .rejected => some { t₁ with rejected := some c, stream := .shuttingDown }
          | .lost => some { t₁ with stream := .shuttingDown }
  | .streamStop =>
      if t.stream = .running then some { t with stream := .shuttingDown } else none
  | .streamDone =>
      if t.stream = .shuttingDown ∧ t.usb = [] then some { t with stream := .done } else none
  | _ => none

def stepWorker (t : TxSync n) : TxAct n → Option (TxSync n)
  | .requestStop => some { t with stopRequested := true }
  | .execIdle =>
      if t.worker ≠ .idle then none
      else if t.stopRequested then
        some { t with stopRequested := false, startRequested := false, worker := .stopped }
      else if t.startRequested then
        some { t with startRequested := false, b := t.b.retireInFlight, worker := .starting }
      else none
  | .runStream =>
      if t.worker ≠ .starting then none
      else some { t with stream := .running, rejected := none, worker := .streaming }
  | .streamEnd =>
      if t.worker = .streaming ∧ t.stream = .done then
        some { t.restoreRejected with worker := .ended }
      else none
  | .publish status =>
      if t.worker ≠ .ended then none else some { t with errCode := status, worker := .idle }
  | _ => none

def step (t : TxSync n) (a : TxAct n) : Option (TxSync n) :=
  match a with
  | .checkWorker | .startWorker | .waitForBuffer | .bufferReady | .usingBuffer _
  | .usingBufferMeta _ | .usingPacketMeta =>
      if t.point = .outside then t.stepState a else none
  | .startWorkerDone _ | .waitDone _ | .submitDone _ | .submitReturn => t.stepInside a
  | .complete _ | .cancelled _ | .callbackSubmit _ | .streamStop | .streamDone =>
      t.stepBackend a
  | .requestStop | .execIdle | .runStream | .streamEnd | .publish _ => t.stepWorker a

end TxSync

end BladeRF
