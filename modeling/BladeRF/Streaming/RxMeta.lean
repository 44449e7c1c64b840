/-
# `Streaming.RxMeta` — the parser of a META read

The state `SYNC_STATE_USING_BUFFER_META` of `sync_rx`, one turn of its loop at a
time: read the header of the message at hand, then drop it, skip it to the epoch
boundary, copy from it or seek in it.

* A stream is the sequence of FULL buffers the reader gets, each a sequence of
  messages; of a message the parser looks at the header only.  `consumed` counts
  the buffers given back by `advance_rx_buffer`, so it names the buffer at
  `cons_i`.
* A sample is named by its place in the stream.  The caller's buffer is the list
  of the samples copied to it, and `samples_returned` is its length.
* Timestamps are `uint64_t`, as `BitVec 64`.  Counts of samples and messages are
  bounded by a buffer, and are natural numbers.
* What is noted about withheld data goes to the board's event history, not back
  into the parser, and is left out.
-/
import BladeRF.Streaming.Metadata
import BladeRF.Streaming.RxRing

namespace BladeRF

/-- The geometry of a META stream.  A message has whole time steps: its payload
is a multiple of four samples in every format and at every USB speed. -/
structure MetaConfig where
  msgPerBuf : ℕ
  samplesPerMsg : ℕ
  samplesPerTs : ℕ
  msgPerBuf_pos : 0 < msgPerBuf
  samplesPerMsg_pos : 0 < samplesPerMsg
  samplesPerTs_eq : samplesPerTs = 1 ∨ samplesPerTs = 2
  aligned : samplesPerTs ∣ samplesPerMsg

def RxReader.smallBuffers : MetaConfig where
  msgPerBuf := 2
  samplesPerMsg := 4
  samplesPerTs := 1
  msgPerBuf_pos := by decide
  samplesPerMsg_pos := Nat.succ_pos 3
  samplesPerTs_eq := by decide
  aligned := by decide

def highSpeed : MetaConfig where
  msgPerBuf := 2
  samplesPerMsg := 252
  samplesPerTs := 1
  msgPerBuf_pos := by decide
  samplesPerMsg_pos := by decide
  samplesPerTs_eq := .inl rfl
  aligned := ⟨252, rfl⟩

abbrev MetaStream := ℕ → ℕ → MetaHeader

structure RxSample where
  buffer : ℕ
  msg : ℕ
  off : ℕ
deriving DecidableEq

/-- Sample `j` of a message at `T` lies at `T + j / samples_per_ts`. -/
def RxSample.timestamp (cfg : MetaConfig) (stream : MetaStream) (x : RxSample) : BitVec 64 :=
  (stream x.buffer x.msg).timestamp + BitVec.ofNat 64 (x.off / cfg.samplesPerTs)

inductive SyncMetaState where
  | header
  | samples
deriving DecidableEq

/-- The epoch fence of `struct sync_meta`. -/
structure RxEpochFence where
  boundaryEnabled : Bool
  minTimestamp : BitVec 64
  idFilterEnabled : Bool
  dataInvalidated : Bool
  transitionPending : Bool
  expectedId : BitVec 8
deriving DecidableEq

/-- `struct bladerf_metadata` of the caller.  `flags` matters for its bit
`BLADERF_META_FLAG_RX_NOW` only. -/
structure UserMeta where
  rxNow : Bool
  timestamp : BitVec 64
  status : BitVec 32
  actualCount : ℕ
  rxEpochId : Option (BitVec 8)
  rxClippingFlags : BitVec 8

/-- The local variables of `sync_rx` that the parser uses.  `timed` is
`timeout_ms != 0`. -/
structure RxRead where
  numSamples : ℕ
  timed : Bool
  userMeta : UserMeta
  status : ℤ
  exitEarly : Bool
  copiedData : Bool
  targetTimestamp : BitVec 64
  dest : List RxSample

/-- Where the reader is in the stream: `sync->state`, the buffers it is done with
and the RX part of `struct sync_meta` without the epoch fence.  `currMsg` is the
buffer and the number of the message `curr_msg` points to; `msg_epoch_id` is
present if `msg_epoch_id_valid`. -/
structure RxParser where
  syncState : SyncState
  consumed : ℕ
  metaState : SyncMetaState
  haveTimestamp : Bool
  currMsg : ℕ × ℕ
  currMsgOff : ℕ
  msgNum : ℕ
  msgTimestamp : BitVec 64
  msgFlags : BitVec 32
  msgEpochId : Option (BitVec 8)
  msgEpochFilteredOut : Bool
  msgChannelFilteredOut : Bool
  msgAdmissionWithheldReason : BitVec 32
  currTimestamp : BitVec 64

def bladerfRfWithheldSyncTimeout : BitVec 32 := 0x100#32
def bladerfRfWithheldRxChannelSelection : BitVec 32 := 0x200#32

/-- `user_meta->status |= BLADERF_META_STATUS_OVERRUN`. -/
def UserMeta.markOverrun (u : UserMeta) : UserMeta :=
  { u with status := u.status ||| bladerfMetaStatusOverrun }

/-- `BLADERF_META_STATUS_OVERRUN` is set. -/
def UserMeta.overrun (u : UserMeta) : Bool :=
  u.status.getLsbD 0

@[simp] theorem UserMeta.overrun_markOverrun (u : UserMeta) : u.markOverrun.overrun = true := by
  simp [overrun, markOverrun, bladerfMetaStatusOverrun]

/-- An early exit shows in the status of the caller's metadata. -/
def RxRead.Marked (r : RxRead) : Prop :=
  r.exitEarly = true → r.userMeta.overrun = true

structure RxRead.NoCopy (r r' : RxRead) : Prop where
  numSamples : r'.numSamples = r.numSamples
  rxNow : r'.userMeta.rxNow = r.userMeta.rxNow
  timestamp : r'.userMeta.timestamp = r.userMeta.timestamp
  copiedData : r'.copiedData = r.copiedData
  targetTimestamp : r'.targetTimestamp = r.targetTimestamp
  dest : r'.dest = r.dest

/-! ## Distances -/

def timestampToMsg (cfg : MetaConfig) (t : ℕ) : ℕ :=
  t / cfg.samplesPerMsg

/-- A distance in time as a number of samples, at most those available. -/
def syncTimestampDeltaToSamples (timestampDelta samplesPerTs samplesAvailable : ℕ) : ℕ :=
  if samplesPerTs = 0 then 0
  else
    let timestampsAvailable := samplesAvailable / samplesPerTs +
      if samplesAvailable % samplesPerTs ≠ 0 then 1 else 0
    if timestampsAvailable ≤ timestampDelta then samplesAvailable
    else timestampDelta * samplesPerTs

namespace RxParser

def tsRemaining (cfg : MetaConfig) (p : RxParser) : ℕ :=
  (cfg.samplesPerMsg - p.currMsgOff) / cfg.samplesPerTs

def leftInMsg (cfg : MetaConfig) (p : RxParser) : ℕ :=
  cfg.samplesPerMsg - p.currMsgOff

def leftInBuffer (cfg : MetaConfig) (p : RxParser) : ℕ :=
  cfg.samplesPerMsg * (cfg.msgPerBuf - p.msgNum) - p.currMsgOff

/-! ## The parser -/

/-- `advance_rx_buffer`, and back to `SYNC_STATE_WAIT_FOR_BUFFER`. -/
def advanceRxBuffer (p : RxParser) : RxParser :=
  { p with syncState := .waitForBuffer, consumed := p.consumed + 1 }

def nextMessage (cfg : MetaConfig) (p : RxParser) : RxParser :=
  if cfg.msgPerBuf ≤ p.msgNum + 1 then
    { p.advanceRxBuffer with metaState := .header, msgNum := 0 }
  else { p with metaState := .header, msgNum := p.msgNum + 1 }

def skipMessage (cfg : MetaConfig) (p : RxParser) : RxParser :=
  nextMessage cfg
    { p with
      currMsgOff := p.currMsgOff + p.leftInMsg cfg
      currTimestamp := p.currTimestamp + BitVec.ofNat 64 (p.leftInMsg cfg / cfg.samplesPerTs) }

/-- Whether a header belongs to the epoch the fence lets through. -/
def epochMatches (fence : RxEpochFence) (header : MetaHeader) : Bool :=
  !fence.dataInvalidated &&
    (!fence.idFilterEnabled || metadataRxEpochMatches header fence.expectedId)

/-- `msg_epoch_filtered_out` of a header. -/
def filteredOut (fence : RxEpochFence) (header : MetaHeader) : Bool :=
  fence.boundaryEnabled && fence.idFilterEnabled && !epochMatches fence header

def disposition (fence : RxEpochFence) (p : RxParser) (header : MetaHeader) (copiedData : Bool) :
    MetadataRxEpochDisposition :=
  metadataRxEpochDisposition fence.boundaryEnabled fence.idFilterEnabled
    (epochMatches fence header) header.timestamp p.currTimestamp fence.minTimestamp
    p.haveTimestamp copiedData

def readHeader (fence : RxEpochFence) (p : RxParser) (header : MetaHeader) : RxParser :=
  { p with
    currMsg := (p.consumed, p.msgNum)
    msgTimestamp := header.timestamp
    msgFlags := header.flags
    msgEpochId := metadataGetRxEpochId header
    msgChannelFilteredOut := false
    msgAdmissionWithheldReason := 0#32
    currMsgOff := 0
    msgEpochFilteredOut := filteredOut fence header }

/-- On to the samples.  A message that is filtered out does not seed the
timestamp expected next. -/
def enterSamples (p : RxParser) : RxParser :=
  if p.msgEpochFilteredOut then { p with metaState := .samples }
  else
    { p with
      metaState := .samples
      currTimestamp := p.msgTimestamp
      haveTimestamp := true }

def headerStatus (fence : RxEpochFence) (header : MetaHeader) (user : UserMeta) : UserMeta :=
  if !fence.boundaryEnabled || metadataTimestampAtOrAfter header.timestamp fence.minTimestamp then
    { user with status := user.status ||| metadataFlagsToSyncStatus header.flags }
  else user

/-- `SYNC_META_STATE_HEADER`.  After `METADATA_RX_EPOCH_RETURN_VALID_PREFIX` the
header is read again by the next call. -/
def metaHeader (stream : MetaStream) (fence : RxEpochFence) (p : RxParser) (r : RxRead) :
    RxParser × RxRead :=
  let header := stream p.consumed p.msgNum
  let p' := p.readHeader fence header
  let user := headerStatus fence header r.userMeta
  match p.disposition fence header r.copiedData with
  | .returnValidPrefix =>
      ({ p' with metaState := .header },
        { r with userMeta := user.markOverrun, exitEarly := true })
  | .discontinuity =>
      (p'.enterSamples, { r with userMeta := user.markOverrun, exitEarly := r.copiedData })
  | .accept | .dropMessage | .skipTimestampPrefix =>
      (p'.enterSamples, { r with userMeta := user })

def noteDropped (p : RxParser) (r : RxRead) : RxRead :=
  if p.msgAdmissionWithheldReason = bladerfRfWithheldSyncTimeout then
    { r with status := bladerfErrTimeout }
  else if p.msgChannelFilteredOut || p.msgAdmissionWithheldReason != 0#32 then
    if !r.copiedData && !r.timed then { r with status := bladerfErrWouldBlock }
    else if r.copiedData then { r with userMeta := r.userMeta.markOverrun, exitEarly := true }
    else r
  else r

def skipToBoundary (cfg : MetaConfig) (fence : RxEpochFence) (p : RxParser) : RxParser :=
  let timestampsToSkip := (fence.minTimestamp - p.currTimestamp).toNat
  let timestampsToEnd := (p.leftInMsg cfg + cfg.samplesPerTs - 1) / cfg.samplesPerTs
  if timestampsToEnd ≤ timestampsToSkip then p.skipMessage cfg
  else
    { p with
      currMsgOff := p.currMsgOff + timestampsToSkip * cfg.samplesPerTs
      currTimestamp := p.currTimestamp + BitVec.ofNat 64 timestampsToSkip }

/-- The number of samples of a copy: up to the end of the message or of the
request. -/
def samplesToCopy (cfg : MetaConfig) (p : RxParser) (r : RxRead) : ℕ :=
  min (r.numSamples - r.dest.length) (p.leftInMsg cfg)

def chunk (p : RxParser) (count : ℕ) : List RxSample :=
  (List.range count).map (fun i => ⟨p.currMsg.1, p.currMsg.2, p.currMsgOff + i⟩)

def takeSamples (cfg : MetaConfig) (p : RxParser) (count : ℕ) : RxParser :=
  let p' :=
    { p with
      currMsgOff := p.currMsgOff + count
      currTimestamp := p.currTimestamp + BitVec.ofNat 64 (count / cfg.samplesPerTs) }
  if p'.leftInMsg cfg = 0 then p'.nextMessage cfg else p'

def giveSamples (cfg : MetaConfig) (stream : MetaStream) (p : RxParser) (r : RxRead)
    (count : ℕ) : RxRead :=
  let header := stream p.currMsg.1 p.currMsg.2
  { r with
    userMeta :=
      { r.userMeta with
        rxClippingFlags := r.userMeta.rxClippingFlags ||| metadataGetRxClippingFlags header
        rxEpochId :=
          if !r.copiedData && p.msgEpochId.isSome then p.msgEpochId else r.userMeta.rxEpochId
        timestamp :=
          if !r.copiedData && r.userMeta.rxNow then p.currTimestamp
          else r.userMeta.timestamp }
    copiedData := true
    targetTimestamp := p.currTimestamp + BitVec.ofNat 64 (count / cfg.samplesPerTs)
    dest := r.dest ++ p.chunk count }

def refuses (cfg : MetaConfig) (fence : RxEpochFence) (admission : BitVec 32) (p : RxParser)
    (r : RxRead) : Bool :=
  decide (samplesToCopy cfg p r ≠ 0) && fence.idFilterEnabled && admission != 0#32

def copySamples (cfg : MetaConfig) (stream : MetaStream) (fence : RxEpochFence)
    (admission : BitVec 32) (p : RxParser) (r : RxRead) : RxParser × RxRead :=
  if p.refuses cfg fence admission r then
    ({ p with
        msgAdmissionWithheldReason := admission
        msgChannelFilteredOut := admission == bladerfRfWithheldRxChannelSelection
        msgEpochFilteredOut := true }, r)
  else
    (p.takeSamples cfg (samplesToCopy cfg p r),
      p.giveSamples cfg stream r (samplesToCopy cfg p r))

/-- The way to a later timestamp: give up the buffer, move within the message,
or move to a later message. -/
def seek (cfg : MetaConfig) (p : RxParser) (r : RxRead) : RxParser :=
  let timeDelta := (r.targetTimestamp - p.currTimestamp).toNat
  let left := p.leftInBuffer cfg
  let samplesLeft := syncTimestampDeltaToSamples timeDelta cfg.samplesPerTs left
  if left ≤ samplesLeft then
    { p.advanceRxBuffer with
      metaState := .header
      currTimestamp := p.currTimestamp + BitVec.ofNat 64 (left / cfg.samplesPerTs) }
  else if timeDelta ≤ p.tsRemaining cfg then
    { p with
      currMsgOff := p.currMsgOff + samplesLeft
      currTimestamp := p.currTimestamp + BitVec.ofNat 64 timeDelta }
  else
    let skipMsgs := timestampToMsg cfg samplesLeft
    let skipped : ℤ := (skipMsgs : ℤ) * cfg.samplesPerMsg - p.currMsgOff
    { p with
      metaState := .header
      msgNum := p.msgNum + skipMsgs
      currTimestamp := p.currTimestamp + BitVec.ofInt 64 (skipped.tdiv cfg.samplesPerTs) }

/-- `SYNC_META_STATE_SAMPLES`. -/
def metaSamples (cfg : MetaConfig) (stream : MetaStream) (fence : RxEpochFence)
    (admission : BitVec 32) (p : RxParser) (r : RxRead) : RxParser × RxRead :=
  if fence.dataInvalidated || p.msgEpochFilteredOut then (p.skipMessage cfg, p.noteDropped r)
  else if fence.boundaryEnabled &&
      !metadataTimestampAtOrAfter p.currTimestamp fence.minTimestamp then
    (p.skipToBoundary cfg fence, r)
  else if !r.copiedData && !r.userMeta.rxNow &&
      !metadataTimestampAtOrAfter r.targetTimestamp p.currTimestamp then
    (p, { r with status := bladerfErrTimePast })
  else if r.userMeta.rxNow || r.targetTimestamp == p.currTimestamp then
    p.copySamples cfg stream fence admission r
  else (p.seek cfg r, r)

def usingBufferMeta (cfg : MetaConfig) (stream : MetaStream) (fence : RxEpochFence)
    (admission : BitVec 32) (p : RxParser) (r : RxRead) : RxParser × RxRead :=
  match p.metaState with
  | .header => p.metaHeader stream fence r
  | .samples => p.metaSamples cfg stream fence admission r

end RxParser

end BladeRF
