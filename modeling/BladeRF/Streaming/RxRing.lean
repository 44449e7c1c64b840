/-
# `Streaming.RxRing` — the RX ring as a system of steps

The worker thread completes or rejects any buffer the USB backend owns, the
reader takes the states of `sync_rx` that touch the ring, and an RF transition
may invalidate the epoch.  Each step is one section of code under
`buf_mgmt.lock`, so a run of the program is a list of these steps in some
order; nothing about the order in which USB completes its transfers is assumed.

The worker is running throughout: a run starts where `exec_idle_state` has
armed the ring and ends before the stream does.
-/
import BladeRF.Lib.Steps
import BladeRF.Streaming.BufferMgmt

namespace BladeRF

inductive SyncState where
  | checkWorker
  | resetBufMgmt
  | startWorker
  | waitForBuffer
  | bufferReady
  | usingBuffer
  | usingPacketMeta
  | usingBufferMeta
deriving DecidableEq

/-- The `BLADERF_ERR_*` codes that `sync_rx` returns. -/
def bladerfErrUnexpected : ℤ := -1
def bladerfErrInval : ℤ := -3
def bladerfErrMem : ℤ := -4
def bladerfErrTimeout : ℤ := -6
def bladerfErrTimePast : ℤ := -14
def bladerfErrWouldBlock : ℤ := -18

/-- How the section of `SYNC_STATE_WAIT_FOR_BUFFER` before the wait ends. -/
inductive WaitOutcome where
  | wouldBlock
  | ready
  | wait

/-- `struct bladerf_sync` as far as the ring goes, with the buffers the USB
backend owns in the order of their submission.  `waiting` says that the reader
is inside `wait_for_buffer`. -/
structure RxSync (n : ℕ) (α : Type) where
  b : BufferMgmt n α
  state : SyncState
  waiting : Bool
  format : BladerfFormat
  samplesPerBuffer : ℕ
  overrunHook : Bool
  usb : List (Fin n)

/-- The steps.  `complete` and `reject` carry what the transfer left in the
buffer; `rxNow` is `BLADERF_META_FLAG_RX_NOW` of the caller, `nonblocking` is
`timeout_ms == 0`, and `ok` is the success of the condition wait. -/
inductive RxAct (n : ℕ) (α : Type) where
  | complete (i : Fin n) (contents : α) (numSamples : ℕ)
  | reject (i : Fin n) (contents : α)
  | withheld
  | checkWorker
  | waitForBuffer (rxNow nonblocking : Bool)
  | waitDone (ok : Bool)
  | bufferReady
  | usingBuffer (count : ℕ)
  | advance
  | reportOverrun
  | invalidate

/-- The buffers a callback's return value submits; `reuse` is the completed
one. -/
def StreamReturn.submitted {n : ℕ} (reuse : Fin n) : StreamReturn n → List (Fin n)
  | .buffer i => [i]
  | .noData => []
  | .reuseBuffer => [reuse]
  | .shutdown => []

namespace BufferMgmt

variable {n : ℕ} {α : Type} [NeZero n]

/-- The buffer memory once a transfer of slot `i` has ended. -/
def landed (b : BufferMgmt n α) (i : Fin n) (contents : α) : BufferMgmt n α :=
  { b with buffers := Function.update b.buffers i contents }

def rxAnchorConsumer (b : BufferMgmt n α) : BufferMgmt n α :=
  (b.skipDropped n).reanchorRxConsumerToOldest

/-- The stale drop, if one is pending and this reader may make it. -/
def rxDropStale (b : BufferMgmt n α) (format : BladerfFormat) (rxNow : Bool) :
    BufferMgmt n α × Bool :=
  if b.stalePending && syncRxShouldDropStale format rxNow then
    b.dropStale (rxNow && format.isSampleMeta)
  else (b, false)

/-- `SYNC_STATE_WAIT_FOR_BUFFER` up to the wait: the ring, whether a partly
consumed buffer was dropped as stale, and how the section ends. -/
def waitForBuffer (b : BufferMgmt n α) (format : BladerfFormat) (rxNow nonblocking : Bool) :
    BufferMgmt n α × Bool × WaitOutcome :=
  let withheld := b.rxDataWithheldPending
  let b₁ := { b with rxDataWithheldPending := false }
  if withheld && nonblocking then (b₁, false, .wouldBlock)
  else
    let (b₂, stale) := b₁.rxAnchorConsumer.rxDropStale format rxNow
    (b₂, stale, if b₂.status b₂.consI = .full then .ready else .wait)

/-- `SYNC_STATE_BUFFER_READY`. -/
def bufferReady (b : BufferMgmt n α) : BufferMgmt n α :=
  { b with
    status := Function.update b.status b.consI .partlyUsed
    partialOff := 0 }

/-- The overrun report at the entry and at label `out` of `sync_rx`. -/
def reportOverrun (b : BufferMgmt n α) : BufferMgmt n α :=
  if b.overrunPending then
    { b with
      overrunPending := false
      overrunSourceFlags := 0
      overrunEventPublished := false }
  else b

/-- The loss marker of the epoch being discarded, in
`sync_rx_epoch_invalidate_with_revoke`. -/
def dropFpgaLoss (b : BufferMgmt n α) : BufferMgmt n α :=
  let flags := b.overrunSourceFlags &&& ~~~streamStatusFpgaRxLoss
  if flags = 0 then
    { b with
      overrunSourceFlags := flags
      overrunPending := false
      overrunEventPublished := false }
  else { b with overrunSourceFlags := flags }

end BufferMgmt

/-- The state `SYNC_STATE_BUFFER_READY` moves to. -/
def BladerfFormat.usingState : BladerfFormat → SyncState
  | .sc16Q11 | .sc16Q11Packed | .sc8Q7 => .usingBuffer
  | .sc16Q11Meta | .sc8Q7Meta => .usingBufferMeta
  | .packetMeta => .usingPacketMeta

namespace RxSync

variable {n : ℕ} {α : Type} [NeZero n]

/-- The ring as `sync_init` and the START branch of `exec_idle_state` leave
it. -/
def start (format : BladerfFormat) (samplesPerBuffer : ℕ) (overrunHook : Bool)
    (numXfers : ℕ) (buffers : Fin n → α) : RxSync n α :=
  { b := BufferMgmt.syncResetSequenceTracking
      { status := fun i => if i.val < numXfers then .inFlight else .empty
        actualLengths := fun _ => 0
        buffers := buffers
        prodI := Fin.ofNat n numXfers
        consI := 0
        partialOff := 0
        overrunPending := false
        overrunSourceFlags := 0
        overrunEventPublished := false
        rxDataWithheldPending := false
        stalePending := false
        rxRingFullWarningPublished := false
        bufferSeq := fun _ => 0
        bufferDropped := fun _ => false
        expectedSeq := 0
        nextSeq := 0
        reorder := []
        reorderLimit := 0 } numXfers
    state := .waitForBuffer
    waiting := false
    format := format
    samplesPerBuffer := samplesPerBuffer
    overrunHook := overrunHook
    usb := (List.finRange n).filter (fun i => i.val < numXfers) }

/-- `SYNC_STATE_USING_BUFFER`: copy up to `count` samples, and move on when the
buffer is used up.  A pending overrun fails the read first. -/
def usingBuffer (s : RxSync n α) (count : ℕ) : RxSync n α :=
  if s.b.overrunPending then s
  else
    let off := s.b.partialOff + min count (s.samplesPerBuffer - s.b.partialOff)
    let b₁ := { s.b with partialOff := off }
    if s.samplesPerBuffer ≤ off then
      { s with b := b₁.advanceRxBuffer, state := .waitForBuffer }
    else { s with b := b₁ }

/-- The section of `sync_rx_epoch_invalidate_with_revoke` under `sync->lock`.
Formats without epoch tags have nothing to revoke. -/
def invalidate (s : RxSync n α) : RxSync n α :=
  if s.format.isSampleMeta then
    { s with
      b := s.b.dropFpgaLoss.discardRxEpoch
      state := if s.state = .bufferReady ∨ s.state = .usingBufferMeta
        then .waitForBuffer else s.state }
  else s

/-- One step; `none` when it is not enabled. -/
def step (s : RxSync n α) : RxAct n α → Option (RxSync n α)
  | .complete i contents numSamples =>
      if i ∈ s.usb then
        let (b', ret) :=
          (s.b.landed i contents).rxCallback s.overrunHook false (some (i, numSamples))
        some { s with b := b', usb := s.usb.erase i ++ ret.submitted i }
      else none
  | .reject i contents =>
      if i ∈ s.usb then
        let (b', next) := (s.b.landed i contents).rxBufferRejected s.overrunHook i
        some { s with b := b', usb := s.usb.erase i ++ [next] }
      else none
  | .withheld => some { s with b := (s.b.rxCallback s.overrunHook false none).1 }
  | .checkWorker =>
      if s.state = .checkWorker then some { s with state := .waitForBuffer } else none
  | .waitForBuffer rxNow nonblocking =>
      if s.state = .waitForBuffer ∧ s.waiting = false then
        match s.b.waitForBuffer s.format rxNow nonblocking with
        | (b', _, .wouldBlock) => some { s with b := b' }
        | (b', _, .ready) => some { s with b := b', state := .bufferReady }
        | (b', _, .wait) => some { s with b := b', waiting := true }
      else none
  | .waitDone ok =>
      if s.waiting then
        some { s with
          waiting := false
          state := if ok && s.b.status s.b.consI = .full then .bufferReady else .checkWorker }
      else none
  | .bufferReady =>
      if s.state = .bufferReady then
        some { s with b := s.b.bufferReady, state := s.format.usingState }
      else none
  | .usingBuffer count =>
      if s.state = .usingBuffer then some (s.usingBuffer count) else none
  | .advance =>
      if s.state = .usingBufferMeta ∨ s.state = .usingPacketMeta then
        some { s with b := s.b.advanceRxBuffer, state := .waitForBuffer }
      else none
  | .reportOverrun => some { s with b := s.b.reportOverrun }
  | .invalidate => some s.invalidate

theorem start_usb_seq (format : BladerfFormat) (samplesPerBuffer : ℕ) (hook : Bool)
    (numXfers : ℕ) (buffers : Fin n → α) :
    (start format samplesPerBuffer hook numXfers buffers).usb.map
        (start format samplesPerBuffer hook numXfers buffers).b.bufferSeq
      = (List.range (min numXfers n)).map (BitVec.ofNat 32) := by
  rw [← Lib.filter_lt_finRange, List.map_map]
  refine List.map_congr_left (fun i hi => ?_)
  have hlt : i.val < numXfers := by simpa using (List.mem_filter.mp hi).2
  have hmin : i.val < min numXfers n := lt_min hlt i.isLt
  exact if_pos hmin

/-! ## The worker's steps, read off a run -/

theorem step_complete {s t : RxSync n α} {i : Fin n} {contents : α} {k : ℕ}
    (h : s.step (.complete i contents k) = some t) :
    i ∈ s.usb ∧ t = { s with
      b := ((s.b.landed i contents).rxCompleted s.overrunHook i k).1
      usb := s.usb.erase i ++
        ((s.b.landed i contents).rxCompleted s.overrunHook i k).2.submitted i } := by
  simp only [step] at h
  split at h
  · rename_i hi
    exact ⟨hi, (Option.some.inj h).symm⟩
  · simp at h

theorem step_reject {s t : RxSync n α} {i : Fin n} {contents : α}
    (h : s.step (.reject i contents) = some t) :
    i ∈ s.usb ∧ t = { s with
      b := ((s.b.landed i contents).rxBufferRejected s.overrunHook i).1
      usb := s.usb.erase i ++
        [((s.b.landed i contents).rxBufferRejected s.overrunHook i).2] } := by
  simp only [step] at h
  split at h
  · rename_i hi
    exact ⟨hi, (Option.some.inj h).symm⟩
  · simp at h

end RxSync

end BladeRF
