/-
# `Streaming.TxMeta` — `sync_tx` with SC16_Q11_META

`handle_tx_parameters` and the loop of `sync_tx`, one turn at a time: get a
buffer, fill in the header of a message, zero up to an updated timestamp, copy,
flush, and hand the buffer over behind its last message.

* The memory of a buffer is its messages by number, a message its header and its
  samples by place.  What a buffer holds when `sync_tx` gets it is up to the turn.
* A buffer given to `advance_tx_buffer` goes to the end of `submitted`, whether it
  is in flight at once or deferred.
* The calls of interest return 0: a turn that sets another status is left out, and
  so are the time limits.
-/
import BladeRF.Streaming.RxMeta

namespace BladeRF

variable {α : Type*}

/-- The flags `BLADERF_META_FLAG_TX_…` and the timestamp of `struct bladerf_metadata`. -/
structure TxUserMeta where
  burstStart : Bool := false
  burstEnd : Bool := false
  txNow : Bool := false
  updateTimestamp : Bool := false
  timestamp : BitVec 64 := 0

structure TxOptions where
  flush : Bool := false
  zeroPad : Bool := false

structure TxMessage (α : Type*) where
  header : MetaHeader
  slots : ℕ → α

abbrev TxBuffer (α : Type*) := ℕ → TxMessage α

/-- The words of `n` slots from `off` on are set. -/
def TxMessage.fill (m : TxMessage α) (off n : ℕ) (f : ℕ → α) : TxMessage α :=
  { m with slots := fun k => if off ≤ k ∧ k < off + n then f (k - off) else m.slots k }

def metadataSet (timestamp : BitVec 64) (flags : BitVec 32) : MetaHeader where
  resv := 0
  timestamp
  flags

/-- What `sync_tx` keeps between calls. -/
structure TxWriter (α : Type*) where
  syncState : SyncState := .checkWorker
  metaState : SyncMetaState := .header
  currMsg : ℕ := 0
  currMsgOff : ℕ := 0
  msgNum : ℕ := 0
  inBurst : Bool := false
  burstStart : BitVec 64 := 0
  now : Bool := false
  currTimestamp : BitVec 64
  /-- the memory at `buffers[prod_i]` -/
  buffer : TxBuffer α
  submitted : List (TxBuffer α) := []

structure TxCall (α : Type*) where
  samples : List α
  user : TxUserMeta
  written : ℕ := 0
  op : TxOptions := {}

def TxCall.active (c : TxCall α) : Bool := c.written < c.samples.length || c.op.flush

namespace TxWriter

def timestampInPast (w : TxWriter α) (user : TxUserMeta) : Bool :=
  !metadataTimestampAtOrAfter user.timestamp w.currTimestamp

def handleTxParameters (w : TxWriter α) : Option TxUserMeta → Except ℤ (TxWriter α × TxOptions)
  | none => .error bladerfErrInval
  | some user => do
      let (w, zeroPad) ←
        if user.burstStart then
          if w.inBurst then .error bladerfErrInval
          else if !user.txNow && w.timestampInPast user then .error bladerfErrTimePast
          else if user.txNow then pure ({ w with inBurst := true, now := true }, false)
          else
            pure
              ({ w with
                  inBurst := true
                  currTimestamp := user.timestamp
                  burstStart := user.timestamp }, false)
        else if user.txNow then .error bladerfErrInval
        else if user.updateTimestamp then
          if w.timestampInPast user then .error bladerfErrTimePast else pure (w, true)
        else pure (w, false)
      if user.burstEnd then
        if w.inBurst then pure (w, { flush := true, zeroPad }) else .error bladerfErrInval
      else pure (w, { zeroPad })

/-! ## The message at hand -/

variable (cfg : MetaConfig)

def leftInMsg (w : TxWriter α) : ℕ := cfg.samplesPerMsg - w.currMsgOff

/-- `n` slots of the current message are set, and left behind. -/
def put (w : TxWriter α) (n : ℕ) (f : ℕ → α) : TxWriter α :=
  { w with
    buffer := fun m => if m = w.currMsg then (w.buffer m).fill w.currMsgOff n f else w.buffer m
    currMsgOff := w.currMsgOff + n }

/-- `SYNC_META_STATE_HEADER` -/
def fillHeader (w : TxWriter α) : TxWriter α :=
  { w with
    currMsg := w.msgNum
    currMsgOff := 0
    buffer := fun m =>
      if m = w.msgNum then
        { w.buffer m with header := metadataSet (if w.now then 0 else w.currTimestamp) 0 }
      else w.buffer m
    metaState := .samples }

def samplesToTimestampDelta (n : ℕ) : BitVec 64 :=
  BitVec.ofNat 64 (if cfg.samplesPerTs = 0 then 0 else n / cfg.samplesPerTs)

/-- The zeros up to the timestamp of the user, or to the end of the message. -/
def zeroPad [Zero α] (w : TxWriter α) (c : TxCall α) : TxWriter α × TxCall α :=
  if c.op.zeroPad then
    let delta := c.user.timestamp - w.currTimestamp
    let toZero := syncTimestampDeltaToSamples delta.toNat cfg.samplesPerTs (w.leftInMsg cfg)
    let w := w.put toZero fun _ => 0
    -- too few zeros for a discontinuity: go on in the next message
    if toZero < 3 ∧ w.leftInMsg cfg = 0 then
      ({ w with currTimestamp := w.currTimestamp + samplesToTimestampDelta cfg toZero }, c)
    else
      ({ w with currTimestamp := c.user.timestamp },
        { c with op := { c.op with zeroPad := false } })
  else (w, c)

def copySamples [Zero α] (w : TxWriter α) (c : TxCall α) : TxWriter α × TxCall α :=
  let n := min (c.samples.length - c.written) (w.leftInMsg cfg)
  if n = 0 then (w, c)
  else
    let w := w.put n fun i => (c.samples[c.written + i]?).getD 0
    let ticks := if cfg.samplesPerTs = 2 then n / 2 else n
    ({ w with currTimestamp := w.currTimestamp + BitVec.ofNat 64 ticks },
      { c with written := c.written + n })

def flush [Zero α] (w : TxWriter α) (c : TxCall α) : TxWriter α :=
  let n := w.leftInMsg cfg
  if n ≠ 0 ∧ c.op.flush then
    let w := w.put n fun _ => 0
    { w with currTimestamp := w.currTimestamp + samplesToTimestampDelta cfg n }
  else w

def nextMessage (w : TxWriter α) : TxWriter α :=
  if w.leftInMsg cfg = 0 then { w with msgNum := w.msgNum + 1, metaState := .header } else w

def advance (w : TxWriter α) (c : TxCall α) : TxWriter α × TxCall α :=
  if cfg.msgPerBuf ≤ w.msgNum then
    ({ w with submitted := w.submitted ++ [w.buffer], msgNum := 0, syncState := .waitForBuffer },
      { c with op := { c.op with flush := c.op.flush && c.written != c.samples.length } })
  else (w, c)

/-- `SYNC_META_STATE_SAMPLES` -/
def fillSamples [Zero α] (w : TxWriter α) (c : TxCall α) : TxWriter α × TxCall α :=
  let (w, c) := w.zeroPad cfg c
  let (w, c) := w.copySamples cfg c
  ((w.flush cfg c).nextMessage cfg).advance cfg c

/-! ## The loop -/

/-- What the worker and the backend have for a turn: is the worker idle, is the next
buffer empty, and what memory is that. -/
structure Turn (α : Type*) where
  workerIdle : Bool
  bufferEmpty : Bool
  memory : TxBuffer α

def turn [Zero α] (w : TxWriter α) (c : TxCall α) (e : Turn α) : TxWriter α × TxCall α :=
  match w.syncState with
  | .checkWorker =>
      ({ w with syncState := if e.workerIdle then .startWorker else .waitForBuffer }, c)
  | .startWorker => ({ w with syncState := .waitForBuffer }, c)
  | .waitForBuffer =>
      ({ w with syncState := if e.bufferEmpty then .bufferReady else .waitForBuffer }, c)
  | .bufferReady =>
      ({ w with syncState := .usingBufferMeta, currMsgOff := 0, msgNum := 0, buffer := e.memory }, c)
  | .usingBufferMeta =>
      match w.metaState with
      | .header => (w.fillHeader, c)
      | .samples => w.fillSamples cfg c
  | .resetBufMgmt | .usingBuffer | .usingPacketMeta => (w, c)

def loop [Zero α] : List (Turn α) → TxWriter α → TxCall α → Option (TxWriter α × TxCall α)
  | [], w, c => if c.active then none else some (w, c)
  | e :: turns, w, c =>
      if c.active then loop turns (w.turn cfg c e).1 (w.turn cfg c e).2 else none

/-- The state after a call that returns 0 by way of `turns`. -/
def syncTx [Zero α] (w : TxWriter α) (samples : List α) (user : Option TxUserMeta)
    (turns : List (Turn α)) : Option (TxWriter α) :=
  if samples.length % cfg.samplesPerTs = 0 then
    match user, w.handleTxParameters user with
    | some user, .ok (w, op) =>
        (loop cfg turns w { samples, user, op }).map fun r =>
          if user.burstEnd then { r.1 with inBurst := false, now := false } else r.1
    | _, _ => none
  else none

end TxWriter

end BladeRF
