/-
# `Streaming.RxReader` — META reads and the epoch fence as a system of steps

One reader at a time (`rx_reader_lock`) calls `sync_rx` on a META stream, and
other threads move the epoch fence.  A step is a section of code between two
points at which another thread can get in:

* the generation of the epoch has a lock of its own, so it can advance anywhere
  in a call;
* the setters of the fence need `sync->lock`, which a call holds except before
  its entry fences and while it waits for a buffer;
* the return holds the lock of the generation until `sync->lock` is free, so the
  last section of a call is one step.

The clock, the waits, the worker and the board are part of the label.  The
generation counts up from 0 and is a natural number: it would take `2^64`
transitions to wrap.
-/
import BladeRF.Streaming.RxMeta

namespace BladeRF

structure RxRequest where
  numSamples : ℕ
  rxNow : Bool
  timestamp : BitVec 64
  timed : Bool

def RxRequest.read (request : RxRequest) : RxRead where
  numSamples := request.numSamples
  timed := request.timed
  userMeta := ⟨request.rxNow, request.timestamp, 0#32, 0, none, 0#8⟩
  status := 0
  exitEarly := false
  copiedData := false
  targetTimestamp := request.timestamp
  dest := []

/-- The loop ends: the request is met, or there is nothing more to give. -/
def RxRead.done (r : RxRead) : Bool :=
  r.exitEarly || decide (r.numSamples ≤ r.dest.length) || r.status != 0

/-- Where a call is: before it has `sync->lock`, at the head of its loop, in the
condition wait, or at `out`. -/
inductive RxCallPoint where
  | entered
  | loop
  | waiting
  | out
deriving DecidableEq

/-- A call in progress.  `generation` is the snapshot taken at its start. -/
structure RxCallState where
  point : RxCallPoint
  request : RxRequest
  generation : ℕ
  read : RxRead

/-- A call that returned: its status, the caller's metadata and buffer (`none` is
a sample overwritten with zero), and the fence and generation at the return. -/
structure RxReturn where
  request : RxRequest
  status : ℤ
  userMeta : UserMeta
  dest : List (Option RxSample)
  fence : RxEpochFence
  startGeneration : ℕ
  returnGeneration : ℕ

def RxReturn.samples (r : RxReturn) : List RxSample :=
  r.dest.reduceOption

/-- `struct bladerf_sync` of a META stream, the call in progress and the calls
that returned, the last one first. -/
structure RxReader where
  parser : RxParser
  fence : RxEpochFence
  generation : ℕ
  certifiedGeneration : ℕ
  overrunPending : Bool
  call : Option RxCallState
  returned : List RxReturn

/-- What one turn of the loop sees.  `staleDropped` full buffers are dropped
after an overrun, and `stalePartial` says that the one at `cons_i` is among them
with a part used. -/
structure MetaTurn where
  deadline : ℤ
  streamError : ℤ
  workerIdle : Bool
  workerRunning : Bool
  startDeadline : ℤ
  startStatus : ℤ
  withheldPending : Bool
  staleDropped : ℕ
  stalePartial : Bool
  full : Bool
  waitDeadline : ℤ
  admission : BitVec 32

inductive RxReaderAct where
  | call (request : RxRequest)
  | enter
  | turn (t : MetaTurn)
  | wake (status : ℤ) (full : Bool)
  | leave
  | overrun
  | advanceGeneration
  | invalidate (dropped : ℕ) (fpgaLossOnly : Bool)
  | expectId (epochId : BitVec 8)
  | stageMinTimestamp (minTimestamp : BitVec 64) (epochId : BitVec 8) (inTime : Bool)
  | activate (admitted : Bool)

namespace RxReader

/-! ## The reader -/

/-- A request for whole time steps, else `BLADERF_ERR_INVAL`. -/
def syncSampleCountAligned (cfg : MetaConfig) (request : RxRequest) : Bool :=
  request.numSamples % cfg.samplesPerTs == 0

def deliveryRevoked (s : RxReader) : Bool :=
  s.generation != s.certifiedGeneration

/-- The entry fences: only a transition that has installed its expected epoch
keeps a blocking caller waiting. -/
def fencedOff (s : RxReader) (r : RxRead) : Bool :=
  s.fence.idFilterEnabled && (s.deliveryRevoked || s.fence.dataInvalidated) &&
    (!s.fence.transitionPending || !r.timed)

/-- The section from `MUTEX_LOCK(&s->lock)` to the loop. -/
def enter (s : RxReader) (c : RxCallState) : RxReader :=
  let user := if s.overrunPending then c.read.userMeta.markOverrun else c.read.userMeta
  let r := { c.read with userMeta := user }
  { s with
    overrunPending := false
    call :=
      if s.fencedOff r then
        some { c with point := .out, read := { r with status := bladerfErrWouldBlock } }
      else some { c with point := .loop, read := r } }

def leaveLoop (c : RxCallState) (status : ℤ) : RxCallState :=
  { c with
    point := .out
    read :=
      { c.read with
        status := status
        userMeta := { c.read.userMeta with actualCount := c.read.dest.length } } }

/-- `sync_rx_should_drop_stale` and the drop.  In this state the buffer at
`cons_i` has no part used; the source has the branch. -/
def dropStale (t : MetaTurn) (p : RxParser) (r : RxRead) : RxParser × RxRead :=
  if r.userMeta.rxNow then
    let p' := { p with consumed := p.consumed + t.staleDropped }
    if t.stalePartial then
      ({ p' with
          consumed := p'.consumed + 1, metaState := .header, msgNum := 0, currMsgOff := 0 },
        if r.dest ≠ [] then { r with userMeta := r.userMeta.markOverrun, exitEarly := true }
        else r)
    else (p', r)
  else (p, r)

/-- `SYNC_STATE_WAIT_FOR_BUFFER` up to the wait. -/
def waitForBuffer (t : MetaTurn) (p : RxParser) (r : RxRead) : RxParser × RxCallPoint × RxRead :=
  if t.withheldPending && !r.timed then (p, .loop, { r with status := bladerfErrWouldBlock })
  else
    let (p', r') := dropStale t p r
    if t.full then ({ p' with syncState := .bufferReady }, .loop, r')
    else if r'.timed && t.waitDeadline != 0 then (p', .loop, { r' with status := t.waitDeadline })
    else (p', .waiting, r')

/-- The `switch` of the loop.  The two states of other formats do not arise. -/
def dispatch (cfg : MetaConfig) (stream : MetaStream) (fence : RxEpochFence) (t : MetaTurn)
    (p : RxParser) (r : RxRead) : RxParser × RxCallPoint × RxRead :=
  match p.syncState with
  | .checkWorker =>
      if t.streamError ≠ 0 then (p, .loop, { r with status := t.streamError })
      else if t.workerIdle then ({ p with syncState := .resetBufMgmt }, .loop, r)
      else if t.workerRunning then ({ p with syncState := .waitForBuffer }, .loop, r)
      else (p, .loop, { r with status := bladerfErrUnexpected })
  | .resetBufMgmt => ({ p with haveTimestamp := false, syncState := .startWorker }, .loop, r)
  | .startWorker =>
      if r.timed && t.startDeadline != 0 then (p, .loop, { r with status := t.startDeadline })
      else if t.startStatus = 0 then ({ p with syncState := .waitForBuffer }, .loop, r)
      else (p, .loop, { r with status := t.startStatus })
  | .waitForBuffer => waitForBuffer t p r
  | .bufferReady =>
      ({ p with syncState := .usingBufferMeta, currMsgOff := 0, msgNum := 0 }, .loop, r)
  | .usingBufferMeta =>
      let (p', r') := p.usingBufferMeta cfg stream fence t.admission r
      (p', .loop, r')
  | .usingBuffer | .usingPacketMeta => (p, .loop, r)

/-- The turn gets to the `switch`. -/
def dispatches (s : RxReader) (c : RxCallState) (t : MetaTurn) : Bool :=
  !c.read.done && s.generation == c.generation && !(c.read.timed && t.deadline != 0)

def turn (cfg : MetaConfig) (stream : MetaStream) (s : RxReader) (c : RxCallState)
    (t : MetaTurn) : RxReader :=
  if c.read.done then { s with call := some (leaveLoop c c.read.status) }
  else if s.generation ≠ c.generation then
    { s with call := some (leaveLoop c bladerfErrWouldBlock) }
  else if c.read.timed && t.deadline != 0 then { s with call := some (leaveLoop c t.deadline) }
  else
    let (p, point, r) := dispatch cfg stream s.fence t s.parser c.read
    { s with parser := p, call := some { c with point := point, read := r } }

/-- The end of the condition wait, with `sync->lock` taken again. -/
def wake (s : RxReader) (c : RxCallState) (status : ℤ) (full : Bool) : RxReader :=
  { s with
    parser :=
      { s.parser with
        syncState := if status = 0 ∧ full then .bufferReady else .checkWorker }
    call := some { c with point := .loop, read := { c.read with status := status } } }

def result (s : RxReader) (c : RxCallState) : RxReturn :=
  let user := if s.overrunPending then c.read.userMeta.markOverrun else c.read.userMeta
  if s.generation ≠ c.generation then
    { request := c.request
      status := bladerfErrWouldBlock
      userMeta := { user with actualCount := 0, rxEpochId := none, rxClippingFlags := 0#8 }
      dest := c.read.dest.map (fun _ => none)
      fence := s.fence
      startGeneration := c.generation
      returnGeneration := s.generation }
  else
    { request := c.request
      status := c.read.status
      userMeta := user
      dest := c.read.dest.map some
      fence := s.fence
      startGeneration := c.generation
      returnGeneration := s.generation }

/-- The section from `out` to the return. -/
def leave (s : RxReader) (c : RxCallState) : RxReader :=
  { s with overrunPending := false, call := none, returned := s.result c :: s.returned }

/-! ## The setters -/

/-- `sync->lock` is free. -/
def unlocked (s : RxReader) : Bool :=
  match s.call with
  | none => true
  | some c => c.point == .entered || c.point == .waiting

/-- The part of `sync_rx_epoch_invalidate_with_revoke` under `sync->lock`.  It
frees every buffer that is full or in use, and an overrun that only the FPGA
reported does not outlive the epoch. -/
def invalidate (s : RxReader) (dropped : ℕ) (fpgaLossOnly : Bool) : RxReader :=
  let fence :=
    { s.fence with
      boundaryEnabled := true
      minTimestamp := 0#64
      idFilterEnabled := true
      dataInvalidated := true
      transitionPending := false }
  let p := { s.parser with consumed := s.parser.consumed + dropped }
  { s with
    fence := fence
    overrunPending := s.overrunPending && !fpgaLossOnly
    parser :=
      if s.parser.syncState = .bufferReady ∨ s.parser.syncState = .usingBufferMeta then
        { p with
          consumed := p.consumed + 1
          syncState := .waitForBuffer
          metaState := .header
          msgNum := 0
          currMsgOff := 0
          msgEpochFilteredOut := false
          msgEpochId := none }
      else p }

/-- `sync_rx_epoch_expect_id`. -/
def expectId (s : RxReader) (epochId : BitVec 8) : RxReader :=
  { s with
    fence :=
      { boundaryEnabled := true
        minTimestamp := 0#64
        idFilterEnabled := true
        dataInvalidated := true
        transitionPending := true
        expectedId := epochId }
    parser :=
      { s.parser with
        haveTimestamp := false
        msgEpochFilteredOut := s.parser.msgEpochFilteredOut ||
          (s.parser.syncState == .usingBufferMeta && s.parser.metaState == .samples) } }

/-- `sync_rx_epoch_stage_min_timestamp_before_deadline`. -/
def stageMinTimestamp (s : RxReader) (minTimestamp : BitVec 64) (epochId : BitVec 8)
    (inTime : Bool) : RxReader :=
  if inTime then
    { s with
      fence :=
        { boundaryEnabled := true
          minTimestamp := minTimestamp
          idFilterEnabled := true
          dataInvalidated := true
          transitionPending := true
          expectedId := epochId } }
  else s

/-- `sync_rx_epoch_activate_with_admission_before_deadline`; `admitted` is the
deadline and the board's `prepare`. -/
def activate (s : RxReader) (admitted : Bool) : RxReader :=
  if s.fence.boundaryEnabled && s.fence.idFilterEnabled && admitted then
    { s with
      certifiedGeneration := s.generation
      fence := { s.fence with dataInvalidated := false, transitionPending := false } }
  else s

/-! ## Steps -/

def step (cfg : MetaConfig) (stream : MetaStream) (s : RxReader) :
    RxReaderAct → Option RxReader
  | .call request =>
      if s.call.isNone && syncSampleCountAligned cfg request then
        some
          { s with
            call := some ⟨.entered, request, s.generation, request.read⟩ }
      else none
  | .enter =>
      match s.call with
      | some c => if c.point = .entered then some (s.enter c) else none
      | none => none
  | .turn t =>
      match s.call with
      | some c => if c.point = .loop then some (s.turn cfg stream c t) else none
      | none => none
  | .wake status full =>
      match s.call with
      | some c => if c.point = .waiting then some (s.wake c status full) else none
      | none => none
  | .leave =>
      match s.call with
      | some c => if c.point = .out then some (s.leave c) else none
      | none => none
  | .overrun => some { s with overrunPending := true }
  | .advanceGeneration => some { s with generation := s.generation + 1 }
  | .invalidate dropped fpgaLossOnly =>
      if s.unlocked then some (s.invalidate dropped fpgaLossOnly) else none
  | .expectId epochId => if s.unlocked then some (s.expectId epochId) else none
  | .stageMinTimestamp minTimestamp epochId inTime =>
      if s.unlocked then some (s.stageMinTimestamp minTimestamp epochId inTime) else none
  | .activate admitted => if s.unlocked then some (s.activate admitted) else none

/-- A stream as `sync_init` leaves it, and after it
`sync_rx_epoch_require_transition` if the device has an epoch contract. -/
def start (epochContract : Bool) : RxReader where
  parser := ⟨.checkWorker, 0, .header, false, (0, 0), 0, 0, 0#64, 0#32, none, false, false, 0#32,
    0#64⟩
  fence := ⟨epochContract, 0#64, epochContract, epochContract, false, 0#8⟩
  generation := 0
  certifiedGeneration := 0
  overrunPending := false
  call := none
  returned := []

variable {s s' : RxReader}

theorem call_of_point {point : RxCallPoint} {f : RxCallState → RxReader}
    (h : (match s.call with
      | some c => if c.point = point then some (f c) else none
      | none => none) = some s') :
    ∃ c, s.call = some c ∧ c.point = point ∧ s' = f c := by
  split at h
  · rename_i c hcall
    simp only [Option.ite_none_right_eq_some, Option.some.injEq] at h
    exact ⟨c, hcall, h.1, h.2.symm⟩
  · cases h

/-- What a turn does outside a buffer: it may drop buffers, and it clears
`have_timestamp` only to start the worker again. -/
structure Idles (p : RxParser) (r : RxRead) (p' : RxParser) (r' : RxRead) : Prop where
  metaState : p.metaState = .header → p'.metaState = .header
  consumed : p.consumed ≤ p'.consumed
  msgNum : p'.syncState = .usingBufferMeta → p'.msgNum = 0
  currTimestamp : p'.currTimestamp = p.currTimestamp
  haveTimestamp : p.syncState = .resetBufMgmt ∨ p'.haveTimestamp = p.haveTimestamp
  noCopy : r.NoCopy r'
  marked : r.Marked → r'.Marked

theorem Idles.move (p : RxParser) (r : RxRead) {state : SyncState} (status : ℤ)
    (h : state ≠ .usingBufferMeta) :
    Idles p r { p with syncState := state } { r with status := status } where
  metaState := fun hm => hm
  consumed := Nat.le_refl _
  msgNum := fun hu => absurd hu h
  currTimestamp := rfl
  haveTimestamp := .inr rfl
  noCopy := ⟨rfl, rfl, rfl, rfl, rfl, rfl⟩
  marked := fun hm => hm

theorem dropStale_idles (t : MetaTurn) (p : RxParser) (r : RxRead)
    (h : p.syncState ≠ .usingBufferMeta) :
    Idles p r (dropStale t p r).1 (dropStale t p r).2 ∧
      (dropStale t p r).1.syncState = p.syncState ∧
      (dropStale t p r).2.status = r.status := by
  unfold dropStale
  split
  · dsimp only
    split
    · refine ⟨⟨fun _ => rfl, ?_, fun hu => absurd hu h, rfl, .inr rfl, ?_, ?_⟩, rfl, ?_⟩
      · dsimp only
        omega
      · dsimp only
        split
        · exact ⟨rfl, rfl, rfl, rfl, rfl, rfl⟩
        · exact ⟨rfl, rfl, rfl, rfl, rfl, rfl⟩
      · intro hm
        dsimp only
        split
        · exact fun _ => UserMeta.overrun_markOverrun _
        · exact hm
      · dsimp only
        split
        · rfl
        · rfl
    · exact ⟨⟨fun hm => hm, Nat.le_add_right _ _, fun hu => absurd hu h, rfl, .inr rfl,
        ⟨rfl, rfl, rfl, rfl, rfl, rfl⟩, fun hm => hm⟩, rfl, rfl⟩
  · exact ⟨⟨fun hm => hm, Nat.le_refl _, fun hu => absurd hu h, rfl, .inr rfl,
      ⟨rfl, rfl, rfl, rfl, rfl, rfl⟩, fun hm => hm⟩, rfl, rfl⟩

theorem waitForBuffer_idles (t : MetaTurn) (p : RxParser) (r : RxRead)
    (h : p.syncState = .waitForBuffer) :
    Idles p r (waitForBuffer t p r).1 (waitForBuffer t p r).2.2 ∧
      ((waitForBuffer t p r).2.1 = .loop ∨
        ((waitForBuffer t p r).2.1 = .waiting ∧
          (waitForBuffer t p r).1.syncState = .waitForBuffer ∧
          (waitForBuffer t p r).2.2.status = r.status)) := by
  have hne : p.syncState ≠ .usingBufferMeta := by
    rw [h]
    decide
  obtain ⟨hidle, hstate, hstatus⟩ := dropStale_idles t p r hne
  unfold waitForBuffer
  split
  · exact ⟨.move p r _ hne, .inl rfl⟩
  · dsimp only
    split
    · refine ⟨⟨hidle.metaState, hidle.consumed, (fun hu => by cases hu), hidle.currTimestamp,
        hidle.haveTimestamp, hidle.noCopy, hidle.marked⟩, .inl rfl⟩
    · split
      · refine ⟨⟨hidle.metaState, hidle.consumed, hidle.msgNum, hidle.currTimestamp,
          hidle.haveTimestamp, ?_, hidle.marked⟩, .inl rfl⟩
        obtain ⟨h1, h2, h3, h4, h5, h6⟩ := hidle.noCopy
        exact ⟨h1, h2, h3, h4, h5, h6⟩
      · exact ⟨hidle, .inr ⟨rfl, hstate.trans h, hstatus⟩⟩

theorem dispatch_cases (cfg : MetaConfig) (stream : MetaStream) (fence : RxEpochFence)
    (t : MetaTurn) (p : RxParser) (r : RxRead) :
    (p.syncState = .usingBufferMeta ∧
      dispatch cfg stream fence t p r =
        ((p.usingBufferMeta cfg stream fence t.admission r).1, .loop,
          (p.usingBufferMeta cfg stream fence t.admission r).2)) ∨
    (p.syncState ≠ .usingBufferMeta ∧
      Idles p r (dispatch cfg stream fence t p r).1 (dispatch cfg stream fence t p r).2.2 ∧
      ((dispatch cfg stream fence t p r).2.1 = .loop ∨
        ((dispatch cfg stream fence t p r).2.1 = .waiting ∧
          (dispatch cfg stream fence t p r).1.syncState = .waitForBuffer ∧
          (dispatch cfg stream fence t p r).2.2.status = r.status))) := by
  by_cases hs : p.syncState = .usingBufferMeta
  · refine .inl ⟨hs, ?_⟩
    unfold dispatch
    rw [hs]
  · refine .inr ⟨hs, ?_⟩
    unfold dispatch
    split
    · split
      · exact ⟨.move p r _ hs, .inl rfl⟩
      · split
        · exact ⟨.move p r _ (by decide), .inl rfl⟩
        · split
          · exact ⟨.move p r _ (by decide), .inl rfl⟩
          · exact ⟨.move p r _ hs, .inl rfl⟩
    · rename_i hreset
      exact ⟨⟨fun hm => hm, Nat.le_refl _, (fun hu => by cases hu), rfl, .inl hreset,
        ⟨rfl, rfl, rfl, rfl, rfl, rfl⟩, fun hm => hm⟩, .inl rfl⟩
    · split
      · exact ⟨.move p r _ hs, .inl rfl⟩
      · split
        · exact ⟨.move p r _ (by decide), .inl rfl⟩
        · exact ⟨.move p r _ hs, .inl rfl⟩
    · rename_i hwait
      exact waitForBuffer_idles t p r hwait
    · exact ⟨⟨fun hm => hm, Nat.le_refl _, fun _ => rfl, rfl, .inr rfl,
        ⟨rfl, rfl, rfl, rfl, rfl, rfl⟩, fun hm => hm⟩, .inl rfl⟩
    · rename_i hu
      exact absurd hu hs
    · exact ⟨.move p r _ hs, .inl rfl⟩
    · exact ⟨.move p r _ hs, .inl rfl⟩

theorem dispatch_point (cfg : MetaConfig) (stream : MetaStream) (fence : RxEpochFence)
    (t : MetaTurn) (p : RxParser) (r : RxRead) :
    (dispatch cfg stream fence t p r).2.1 = .loop ∨
      ((dispatch cfg stream fence t p r).2.1 = .waiting ∧
        (dispatch cfg stream fence t p r).1.syncState = .waitForBuffer ∧
        (dispatch cfg stream fence t p r).2.2.status = r.status) := by
  rcases dispatch_cases cfg stream fence t p r with ⟨-, heq⟩ | ⟨-, -, hpoint⟩
  · rw [heq]
    exact .inl rfl
  · exact hpoint

/-! ## A small stream -/

def taggedHeader (epochId : BitVec 8) (timestamp : BitVec 64) : MetaHeader :=
  ⟨metadataRxEpochTagValid ||| epochId.setWidth 32, timestamp, 0#32⟩

def steadyStream : MetaStream :=
  fun buffer msg => taggedHeader 7#8 (100#64 + BitVec.ofNat 64 (4 * (2 * buffer + msg)))

def quietTurn : MetaTurn := ⟨0, 0, false, true, 0, 0, false, 0, false, true, 0, 0#32⟩

def quietCall (request : RxRequest) (turns : ℕ) : List RxReaderAct :=
  [RxReaderAct.call request, .enter] ++ List.replicate turns (RxReaderAct.turn quietTurn) ++
    [RxReaderAct.leave]

/-- A transition to an epoch, from the change of the generation to the
activation. -/
def transition (epochId : BitVec 8) (minTimestamp : BitVec 64) : List RxReaderAct :=
  [.advanceGeneration, .invalidate 0 false, .expectId epochId,
    .stageMinTimestamp minTimestamp epochId true, .activate true]

end RxReader

def RxEpochFence.Closed (fence : RxEpochFence) : Prop :=
  fence.dataInvalidated = true → fence.boundaryEnabled = true ∧ fence.idFilterEnabled = true

end BladeRF
