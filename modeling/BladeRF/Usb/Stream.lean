/-
# `Usb.Stream` — the libusb stream, section by section

Submitters, the event loop and completion callbacks share a stream under
`stream->lock`.  They drop it around everything slow: the libusb submission, the
application's RX callback and its notifications, the timestamp check of a TX
buffer and the wait for a transfer.  A thread is a `Point` of the source it goes
on from.  At most one holds the lock; the others wait to take it back, in any
order.  A step runs the holder to its next point, hands the lock to a thread, or
is something libusb or another thread does: a submission accepted or refused, a
completion, a shutdown.
-/
import BladeRF.Usb.Transfers

namespace BladeRF.Usb

/-- `BLADERF_ERR_*`, the nonzero values of `error_code`. -/
inductive StreamError
  | unexpected
  | inval
  | mem
  | io
  | timeout
  | nodev
  | unsupported
  | permission
  | wouldBlock
  | callback
  | aborted
  | timePast

/-- `BLADERF_DIRECTION_MASK` of the layout. -/
inductive Direction
  | rx
  | tx
  deriving DecidableEq

/-- `bladerf_stream_state` of a stream that runs. -/
inductive StreamState
  | running
  | shuttingDown
  | done
  deriving DecidableEq

/-- `transfer->status` of a completion. -/
inductive CompletionStatus
  | completed
  | cancelled
  | stall
  | error
  | overflow
  | timedOut
  | noDevice
  | unknown
  deriving DecidableEq

inductive Next
  | shutdown
  | noData
  | buffer (data : List (BitVec 8))

/-- What `async_rx_process_buffer` does with a completed transfer. -/
inductive RxDelivery
  /-- Recycle it without a callback. -/
  | withheld
  /-- A callback without samples. -/
  | notice
  /-- A callback with the samples. -/
  | samples

/-- Where a thread goes on when it has `stream->lock`. -/
inductive Point
  /-- The initial loop of `lusb_stream` at this index. -/
  | initial (k : ℕ)
  /-- … behind the timestamp check of its buffer. -/
  | initialChecked (k : ℕ) (before : StreamState) (data : List (BitVec 8))
  /-- The event loop of `lusb_stream`. -/
  | loop
  /-- … behind a failure of the event handling. -/
  | eventFailed (err : StreamError)
  /-- `submit_transfer`. -/
  | submit (req : Request) (caller : Caller)
  | returned (caller : Caller) (status : Option StreamError)
  /-- `lusb_stream_cb` behind the bookkeeping of a completion. -/
  | handle (j : ℕ) (status : CompletionStatus) (actualLength : ℤ) (retire : Bool)
  /-- … at a status other than completed. -/
  | errored (status : CompletionStatus) (retire stale : Bool)
  /-- … behind the application's RX callback. -/
  | rxCalled (j : ℕ) (retire : Bool)
  /-- … behind the timestamp check of the next buffer. -/
  | txChecked (j : ℕ) (retire : Bool) (before : StreamState) (data : List (BitVec 8))
      (submitted : ℕ)
  /-- … with the next buffer. -/
  | next (j : ℕ) (retire : Bool) (next : Next)
  /-- … at the check for the end of the shutdown. -/
  | tail (retire : Bool)
  /-- … at its end. -/
  | finish (retire : Bool)
  /-- `fail_rx_stream`. -/
  | failRx (status : StreamError) (after : Point)
  /-- … behind the notification. -/
  | failed (after : Point)
  /-- An error code that is written behind a notification. -/
  | wrote (code : StreamError) (after : Point)
  /-- `cancel_all_transfers`. -/
  | cancel (after : Point)
  /-- `lusb_submit_stream_buffer` behind its wait for a transfer. -/
  | submitterWoken (req : Request)
  /-- … with a transfer or an error of the wait. -/
  | submitterGo (req : Request) (nonblock : Bool) (status : Option StreamError)
  | submitterChecked (req : Request) (before : StreamState)
  /-- The end of a section. -/
  | unlock

structure Env where
  next : Next
  /-- `async_tx_packet_meta_transfer_length`. -/
  packetLength : Option ℕ
  /-- The result of the checks of a TX buffer. -/
  checked : Option StreamError
  generation : ℕ
  /-- `async_tx_submit_lease_acquire`. -/
  leaseAcquire : Option StreamError
  rx : RxDelivery
  /-- The TX cancel deadline has not passed. -/
  deferCancel : Bool
  cancelRefused : ℕ → Bool
  waitTimedOut : Bool

structure Stream where
  direction : Direction
  packetMeta : Bool
  bufBytes : ℕ
  /-- `stream->buffers`. -/
  buffers : List (List (BitVec 8))
  pool : Transfers
  cbActive : ℕ
  state : StreamState
  errorCode : Option StreamError
  shutdownRequested : Bool
  deinitRequested : Bool
  /-- `tx_admission_generation`. -/
  txGeneration : ℕ
  rxTerminalFailureReported : Bool
  /-- `lusb_stream` is in its event loop. -/
  looping : Bool
  /-- The thread that has `stream->lock`. -/
  holder : Option Point
  /-- The threads that have dropped it. -/
  waiting : List Point
  /-- Terminal-failure notifications issued. -/
  notifications : ℕ
  /-- Callbacks with samples started. -/
  sampled : ℕ
  /-- Submissions of a transfer that libusb had before. -/
  resubmitted : ℕ

namespace Stream

variable (s : Stream)

/-- Keep the lock and go on from `pt`. -/
def go (pt : Point) : Stream := { s with holder := some pt }

/-- Drop the lock and go on from `pt` when it is back. -/
def wait (pt : Point) : Stream :=
  { s with
    holder := none
    waiting := s.waiting ++ [pt] }

def unlock : Stream := { s with holder := none }

/-- `mark_stream_done`. -/
def markDone : Stream := { s with state := .done }

/-- The state moves to `STREAM_SHUTTING_DOWN`. -/
def shutDown : Stream := { s with state := .shuttingDown }

/-- `error_code` is written. -/
def setError (err : StreamError) : Stream := { s with errorCode := some err }

/-- `tx_admission_generation` is written. -/
def setTxGeneration (generation : ℕ) : Stream := { s with txGeneration := generation }

def setPool (pool : Transfers) : Stream := { s with pool := pool }

/-- `rx_terminal_failure_reported` is set for a notification. -/
def report : Stream :=
  { s with
    rxTerminalFailureReported := true
    notifications := s.notifications + 1 }

def countSampled : Stream := { s with sampled := s.sampled + 1 }

def setLooping (looping : Bool) : Stream := { s with looping := looping }

def drained : Bool := s.pool.numAvail = s.pool.num

def submittable : ℕ := s.pool.numAvail - s.cbActive

/-- `notify_rx_terminal_failure_once`. -/
def notifyOnce (after : Point) : Stream :=
  if s.direction = .rx ∧ ¬ s.rxTerminalFailureReported then
    s.report.wait after
  else s.go after

/-! ## Submission -/

/-- `submit_transfer` up to its unlock. -/
def submitTransfer (req : Request) (caller : Caller) (env : Env) : Stream :=
  match s.pool.nextAvailable with
  | none => s.go (.returned caller (some .wouldBlock))
  | some j =>
      let t := s.setPool (s.pool.claim j req caller)
      match s.direction with
      | .rx => t.unlock
      | .tx =>
          let t := t.setTxGeneration req.generation
          match env.leaseAcquire with
          | some err => (t.setPool (t.pool.unclaim j)).go (.returned caller (some err))
          | none => (t.setPool (t.pool.lease j)).unlock

def submitReturned (caller : Caller) (status : Option StreamError) : Stream :=
  match caller, status with
  | .initial k, none => s.go (.initial (k + 1))
  | .initial _, some err => (s.setError err).go (.failRx err (.cancel .loop))
  | .requeue retire, none => s.go (.finish retire)
  | .requeue retire, some _ => s.go (.errored .timedOut retire false)
  | .replacement retire, none => s.go (.tail retire)
  | .replacement retire, some err =>
      match s.direction with
      | .rx => s.go (.failRx err (.tail retire))
      | .tx => (s.shutDown.setError err).go (.tail retire)
  | .submitter, none => s.unlock
  | .submitter, some err =>
      match s.direction with
      | .rx => s.go (.failRx err (.cancel .unlock))
      | .tx => s.unlock

/-- `fail_rx_stream`: the notification drops the lock before the state moves. -/
def failRxStream (status : StreamError) (after : Point) : Stream :=
  match s.direction with
  | .tx => s.go after
  | .rx => (s.setError (s.errorCode.getD status)).notifyOnce (.failed after)

/-- `cancel_all_transfers`; only TX waits for the deadline. -/
def cancelAllTransfers (env : Env) : Stream :=
  if s.direction = .tx ∧ env.deferCancel then s
  else s.setPool (s.pool.cancelAll env.cancelRefused)

/-! ## The initial loop of `lusb_stream` -/

def initialSubmit (k : ℕ) (env : Env) : Stream :=
  if k ≥ s.pool.num then s.go .loop
  else
    match s.direction with
    | .rx => s.go (.submit ⟨s.buffers.getD k [], s.bufBytes, s.txGeneration, none⟩ (.initial k))
    | .tx =>
        match env.next with
        | .shutdown => if s.drained then s.markDone.go .loop else s.shutDown.go .loop
        | .noData => (s.setTxGeneration 0).go (.initial (k + 1))
        | .buffer data =>
            (s.setTxGeneration env.generation).wait (.initialChecked k s.state data)

/-- `async_tx_buffer_validate` behind its timestamp check. -/
def checkResult (before : StreamState) (env : Env) : Option StreamError :=
  if s.state ≠ before then some .aborted else env.checked

def initialChecked (k : ℕ) (before : StreamState) (data : List (BitVec 8)) (env : Env) :
    Stream :=
  let status := s.checkResult before env
  if status ≠ none ∨ s.txGeneration ≠ env.generation then
    let t := s.setError (status.getD .wouldBlock)
    if s.drained then t.markDone.go .loop else t.shutDown.go .loop
  else
    match (if s.packetMeta then env.packetLength else some s.bufBytes) with
    | none => (s.setError .callback).shutDown.go .loop
    | some length => s.go (.submit ⟨data, length, s.txGeneration, none⟩ (.initial k))

/-! ## `lusb_stream_cb` -/

/-- The callback behind the bookkeeping of the completed transfer `j`. -/
def handle (j : ℕ) (status : CompletionStatus) (actualLength : ℤ) (retire : Bool) (env : Env) :
    Stream :=
  match s.pool.all[j]? with
  | none => s.go (.tail retire)
  | some t =>
      if status = .timedOut ∧ actualLength = 0 ∧ s.direction = .tx ∧ s.state = .running then
        if t.generation ≠ env.generation then
          (s.setError .wouldBlock).shutDown.go (.errored .timedOut retire true)
        else
          -- the length of the retry is that of the stream, not of the transfer
          s.go (.submit ⟨t.data, s.bufBytes, t.generation, t.serial⟩ (.requeue retire))
      else if status ≠ .completed then s.go (.errored status retire false)
      else if s.state ≠ .running then s.go (.tail retire)
      else
        match s.direction with
        | .tx =>
            if actualLength ≠ t.length then (s.setError .io).shutDown.go (.tail retire)
            else if t.generation ≠ env.generation then
              (s.setError .wouldBlock).go (.next j retire .shutdown)
            else
              match env.next with
              | .shutdown => s.go (.next j retire .shutdown)
              | .noData => s.go (.next j retire .noData)
              | .buffer data =>
                  (s.setTxGeneration env.generation).wait
                    (.txChecked j retire s.state data t.generation)
        | .rx =>
            match env.rx with
            | .withheld =>
                s.go (.next j retire (match env.next with
                  | .buffer data => .buffer data
                  | _ => .buffer t.data))
            | .notice => s.wait (.rxCalled j retire)
            | .samples => s.countSampled.wait (.rxCalled j retire)

def errored (status : CompletionStatus) (retire stale : Bool) : Stream :=
  match status with
  | .cancelled =>
      if s.state = .running then (s.shutDown.setError .io).notifyOnce (.tail retire)
      else s.shutDown.go (.tail retire)
  | .stall | .error | .overflow => s.shutDown.notifyOnce (.wrote .io (.tail retire))
  | .timedOut =>
      if stale ∨ s.shutdownRequested then s.shutDown.go (.tail retire)
      else s.shutDown.notifyOnce (.wrote .timeout (.tail retire))
  | .noDevice => s.shutDown.notifyOnce (.wrote .nodev (.tail retire))
  | .unknown | .completed => (s.shutDown.setError .io).notifyOnce (.tail retire)

def nextBuffer (j : ℕ) (retire : Bool) (next : Next) (env : Env) : Stream :=
  match next with
  | .shutdown => (s.setTxGeneration 0).shutDown.go (.tail retire)
  | .noData => (s.setTxGeneration 0).go (.tail retire)
  | .buffer data =>
      let generation := (s.pool.all[j]?).elim 0 (·.generation)
      if s.direction = .tx ∧ s.packetMeta then
        match env.packetLength with
        | none =>
            (s.setError .callback).shutDown.go (.returned (.replacement retire) (some .callback))
        | some length => s.go (.submit ⟨data, length, generation, none⟩ (.replacement retire))
      else s.go (.submit ⟨data, s.bufBytes, generation, none⟩ (.replacement retire))

def txChecked (j : ℕ) (retire : Bool) (before : StreamState) (data : List (BitVec 8))
    (submitted : ℕ) (env : Env) : Stream :=
  let status := s.checkResult before env
  let status := if status = none ∧ submitted ≠ env.generation then some .wouldBlock else status
  match status with
  | some err => (s.setError err).go (.next j retire .shutdown)
  | none => (s.setTxGeneration submitted).go (.next j retire (.buffer data))

def tail (retire : Bool) : Stream :=
  if s.state = .shuttingDown then
    if s.drained then s.markDone.go (.finish retire) else s.go (.cancel (.finish retire))
  else s.go (.finish retire)

/-- The end of the callback: the lease and `lusb_cb_release`. -/
def finish (retire : Bool) : Stream :=
  { s with
    pool := s.pool.release retire
    cbActive := if s.direction = Direction.tx then s.cbActive - 1 else s.cbActive }.unlock

/-! ## `lusb_submit_stream_buffer` -/

def submitterGo (req : Request) (nonblock : Bool) (status : Option StreamError) (env : Env) :
    Stream :=
  if s.state ≠ .running ∨ s.deinitRequested then s.unlock
  else if status ≠ none then s.unlock
  else
    match s.direction with
    | .rx => s.go (.submit req .submitter)
    | .tx =>
        if nonblock then
          if env.checked ≠ none ∨ req.generation ≠ env.generation then s.unlock
          else s.go (.submit req .submitter)
        else (s.setTxGeneration env.generation).wait (.submitterChecked req s.state)

def submitterWoken (req : Request) (env : Env) : Stream :=
  if env.waitTimedOut then s.go (.submitterGo req false (some .timeout))
  else if s.submittable = 0 then s.wait (.submitterWoken req)
  else s.go (.submitterGo req false none)

def submitterChecked (req : Request) (before : StreamState) (env : Env) : Stream :=
  if s.checkResult before env ≠ none ∨ req.generation ≠ env.generation then s.unlock
  else s.go (.submit req .submitter)

/-! ## Steps -/

def eventFailed (err : StreamError) : Stream :=
  match s.direction with
  | .rx => s.go .loop
  | .tx => (s.setError err).shutDown.go .loop

def run (env : Env) : Point → Stream
  | .initial k => s.initialSubmit k env
  | .initialChecked k before data => s.initialChecked k before data env
  | .loop => (s.setLooping true).unlock
  | .eventFailed err => s.eventFailed err
  | .submit req caller => s.submitTransfer req caller env
  | .returned caller status => s.submitReturned caller status
  | .handle j status actualLength retire => s.handle j status actualLength retire env
  | .errored status retire stale => s.errored status retire stale
  | .rxCalled j retire =>
      s.go (.next j retire (if s.state ≠ .running then .shutdown else env.next))
  | .txChecked j retire before data submitted => s.txChecked j retire before data submitted env
  | .next j retire next => s.nextBuffer j retire next env
  | .tail retire => s.tail retire
  | .finish retire => s.finish retire
  | .failRx status after => s.failRxStream status after
  | .failed after => s.shutDown.go after
  | .wrote code after => (s.setError code).go after
  | .cancel after => (s.cancelAllTransfers env).go after
  | .submitterWoken req => s.submitterWoken req env
  | .submitterGo req nonblock status => s.submitterGo req nonblock status env
  | .submitterChecked req before => s.submitterChecked req before env
  | .unlock => s.unlock

end Stream

inductive Label
  /-- The thread that has the lock goes on. -/
  | run (env : Env)
  /-- A thread takes the lock back. -/
  | lock (k : ℕ)
  /-- `libusb_submit_transfer` accepts a transfer. -/
  | accept (j : ℕ)
  /-- `libusb_submit_transfer` refuses it. -/
  | reject (j : ℕ) (err : StreamError)
  /-- libusb calls `lusb_stream_cb`. -/
  | complete (j : ℕ) (status : CompletionStatus) (actualLength : ℤ)
  | submit (req : Request) (nonblock : Bool)
  /-- `lusb_submit_stream_buffer` with `BLADERF_STREAM_SHUTDOWN`. -/
  | submitShutdown
  | shutdown
  | deinit
  /-- The event handling of the loop fails. -/
  | eventError (err : StreamError)
  /-- The loop looks at the state. -/
  | tick

namespace Stream

/-- libusb accepts a transfer; `submit_transfer` returns when it has the lock. -/
def accepted (s : Stream) (j : ℕ) (caller : Caller) : Stream :=
  { s with
    pool := s.pool.accept j
    waiting := s.waiting ++ [.returned caller none]
    resubmitted := s.resubmitted + ((s.pool.all[j]?).any Transfer.used).toNat }

def completion (s : Stream) (j : ℕ) (status : CompletionStatus) (actualLength : ℤ) : Stream :=
  { s with
    pool := s.pool.complete j
    cbActive := if s.direction = Direction.tx then s.cbActive + 1 else s.cbActive }.go
      (.handle j status actualLength
        (s.direction = Direction.tx ∧ (s.pool.all[j]?).any Transfer.leaseActive))

/-- The check of the event loop and of a shutdown: done, or cancel what is left. -/
def settle (s : Stream) : Stream :=
  if s.drained then s.markDone else s.go (.cancel .unlock)

/-- The step function; a label that is not possible changes nothing. -/
def next (s : Stream) : Label → Stream
  | .run env =>
      match s.holder with
      | some pt => s.run env pt
      | none => s
  | .accept j =>
      match (s.pool.all[j]?).map Transfer.hold with
      | some (.window caller) => s.accepted j caller
      | _ => s
  | .lock k =>
      match s.holder, s.waiting[k]? with
      | none, some pt => { s with waiting := s.waiting.eraseIdx k }.go pt
      | _, _ => s
  | .reject j err =>
      match s.holder, (s.pool.all[j]?).map Transfer.hold with
      | none, some (.window caller) =>
          (s.setPool (s.pool.reject j)).go (.returned caller (some err))
      | _, _ => s
  | .complete j status actualLength =>
      match s.holder, (s.pool.all[j]?).map Transfer.hold with
      | none, some .libusb => s.completion j status actualLength
      | _, _ => s
  | .submit req nonblock =>
      if s.holder ≠ none ∨ req.serial ≠ none then s
      else if s.submittable ≠ 0 then s.go (.submitterGo req nonblock none)
      else if nonblock then s
      else s.wait (.submitterWoken req)
  | .submitShutdown =>
      if s.holder ≠ none then s
      else if s.drained then s.markDone
      else s.shutDown
  | .shutdown =>
      if s.holder ≠ none ∨ s.state = .done then s
      else { s with shutdownRequested := true }.shutDown.settle
  | .deinit => { s with deinitRequested := true }
  | .eventError err =>
      if s.holder ≠ none ∨ ¬ s.looping ∨ s.state ≠ .running then s
      else (s.setLooping false).go (.failRx err (.eventFailed err))
  | .tick =>
      if s.holder ≠ none ∨ ¬ s.looping ∨ s.state ≠ .shuttingDown then s else s.settle

end Stream

/-- `lusb_stream` enters its initial loop: nothing failed yet, and what is in
flight was submitted before by `lusb_submit_stream_buffer`. -/
structure Started (s : Stream) : Prop where
  holder : s.holder = some (.initial 0)
  waiting : s.waiting = []
  state : s.state = .running
  errorCode : s.errorCode = none
  reported : s.rxTerminalFailureReported = false
  looping : s.looping = false
  notifications : s.notifications = 0

def unused : Transfer := ⟨.avail, false, 0, [], 0, .free, false, false, none⟩

/-- A stream of two unused transfers at the start of `lusb_stream`. -/
def opening (direction : Direction) : Stream :=
  { direction
    packetMeta := false
    bufBytes := 4
    buffers := [[1, 2, 3, 4], [5, 6, 7, 8]]
    pool := ⟨[unused, unused], 2, 0, 0, false, []⟩
    cbActive := 0
    state := .running
    errorCode := none
    shutdownRequested := false
    deinitRequested := false
    txGeneration := 0
    rxTerminalFailureReported := false
    looping := false
    holder := some (.initial 0)
    waiting := []
    notifications := 0
    sampled := 0
    resubmitted := 0 }

theorem started_opening (direction : Direction) : Started (opening direction) :=
  ⟨rfl, rfl, rfl, rfl, rfl, rfl, rfl⟩

def smooth : Env :=
  { next := .buffer [9, 9, 9, 9]
    packetLength := none
    checked := none
    generation := 0
    leaseAcquire := none
    rx := .samples
    deferCancel := false
    cancelRefused := fun _ => false
    waitTimedOut := false }

end BladeRF.Usb
