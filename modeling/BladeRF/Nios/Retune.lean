/-
# `Nios.Retune` — retunes that wait for a timestamp

`pkt_retune` decodes a request into a `struct lms_freq` on its stack and either
tunes at once, from the local variables, or copies the structure into a queue of
16 entries that a time tamer starts.  The structure has a field for the XB-200
settings; the decoder puts them into a local variable of their own, and nothing
copies them over.  What a queued entry carries there is what the stack held.
-/
import BladeRF.Lib.Ring
import BladeRF.Nios.LmsTune

namespace BladeRF

/-! ## The packets -/

/-- What `nios_pkt_retune_unpack` returns; `module` is `none` for its -1. -/
structure RetuneRequest where
  module : Option BladerfModule
  timestamp : BitVec 64
  nint : BitVec 16
  nfrac : BitVec 32
  freqsel : BitVec 8
  vcocap : BitVec 8
  lowBand : Bool
  xbGpio : BitVec 8
  quickTune : Bool

def niosPktRetuneUnpack (p : Packet) : RetuneRequest :=
  { timestamp := BitVec.ofNat 64 (p.field 1 8)
    nint := ((p.byte 9).setWidth 16 <<< 1) ||| (p.byte 10 >>> 7).setWidth 16
    nfrac := ((p.byte 10 &&& 0x7f).setWidth 32 <<< 16) ||| ((p.byte 11).setWidth 32 <<< 8)
      ||| (p.byte 12).setWidth 32
    freqsel := p.byte 13 &&& 0x3f
    module := if p.flag 13 0x80 then some .tx else if p.flag 13 0x40 then some .rx else none
    lowBand := p.flag 14 0x80
    quickTune := p.flag 14 0x40
    vcocap := p.byte 14 &&& 0x3f
    xbGpio := p.byte 15 }

def niosPktRetuneRespFlagTsvtuneValid : BitVec 8 := 0x01
def niosPktRetuneRespFlagSuccess : BitVec 8 := 0x02
def niosPktRetuneRespFlagCancelFailed : BitVec 8 := 0x04
def niosPktRetuneRespFlagCancelPending : BitVec 8 := 0x08

def niosPktRetuneRespPack (duration : BitVec 64) (vcocap flags : BitVec 8) : Packet :=
  ⟨[niosPktRetuneMagic] ++ Lib.leBytes 8 duration.toNat ++ [vcocap, flags, 0, 0, 0, 0, 0],
    by simp⟩

/-- The request with the time field `NIOS_PKT_RETUNE_NOW`. -/
def Packet.retuneNow (p : Packet) : Packet :=
  ⟨p.bytes.take 1 ++ Lib.leBytes 8 niosPktRetuneNow ++ p.bytes.drop 9, by simp [p.length_eq]⟩

/-- The `struct lms_freq` that `pkt_retune` builds.  `stack` is what its
`xb_gpio` held before the call. -/
def RetuneRequest.lmsFreq (r : RetuneRequest) (stack : BitVec 8) : LmsFreq :=
  { nint := r.nint
    nfrac := r.nfrac
    freqsel := r.freqsel
    vcocap := r.vcocap
    vcocapResult := 0xff
    flags := (if r.lowBand then lmsFreqFlagsLowBand else 0)
      ||| (if r.quickTune then lmsFreqFlagsForceVcocap else 0)
    xbGpio := stack }

/-- `timestamp` is neither of the two special values. -/
def RetuneRequest.scheduled (r : RetuneRequest) : Bool :=
  r.timestamp.toNat != niosPktRetuneNow && r.timestamp.toNat != niosPktRetuneClearQueue

namespace Retune

/-! ## The queue -/

inductive EntryState where
  | invalid
  | new
  | schedulePending
  | scheduled
  | cancelPending
  | ready
deriving DecidableEq

structure QueueEntry where
  state : EntryState
  freq : LmsFreq
  timestamp : BitVec 64
  cancelRecoverySeen : Bool
  cancelRequestPending : Bool
  cancelAckBefore : BitVec 8

abbrev retuneQueueMax : ℕ := 16

/-- `struct queue`.  `head` of the ring is `rem_idx`; `ins_idx` moves with it and
with `count` and is the cell behind the last. -/
structure Queue where
  ring : Lib.Ring QueueEntry retuneQueueMax
  clearRequested : Bool
  clearComplete : Bool
  clearCancelPending : Bool
  clearCancelRecoverySeen : Bool
  clearCancelAckBefore : BitVec 8

namespace Queue

/-- `peek_next_retune` -/
def peek (q : Queue) : Option QueueEntry := q.ring.peek

/-- A write through the pointer that `peek_next_retune` returns. -/
def modifyHead (q : Queue) (f : QueueEntry → QueueEntry) : Queue :=
  { q with ring := q.ring.modifyHead f }

/-- `enqueue_retune`; `false` is `QUEUE_FULL`. -/
def enqueueRetune (q : Queue) (f : LmsFreq) (timestamp : BitVec 64) : Bool × Queue :=
  if q.clearRequested then (false, q)
  else
    let q := { q with clearComplete := false }
    if h : q.ring.count < retuneQueueMax then
      let e := q.ring.cells ((q.ring.head + q.ring.count) % retuneQueueMax)
      let e : QueueEntry :=
        { e with
          freq := f
          state := .new
          timestamp := timestamp
          cancelRecoverySeen := false
          cancelRequestPending := false }
      (true, { q with ring := q.ring.append e h })
    else (false, q)

def dequeueRetune (q : Queue) : Queue :=
  if q.ring.count = 0 then q else { q with ring := q.ring.dropOldest }

/-- `reset_queue` -/
def reset (q : Queue) : Queue :=
  { q with
    ring := q.ring.reset.mapCells fun e => { e with state := .invalid }
    clearRequested := false
    clearComplete := false
    clearCancelPending := false
    clearCancelRecoverySeen := false }

end Queue

/-! ## The time tamer -/

/-- What the time tamer of a module answers in one call, and whether its
interrupt comes in between. -/
structure TamerAnswers where
  clockStalled : Bool
  scheduleRequest : Bool
  scheduleAcknowledged : Bool
  scheduleFailed : Bool
  compareFired : Bool
  cancelFailed : Bool
  /-- The acknowledge bit that `tamer_cancel_request` saves, where it is not
  refused. -/
  cancelRequest : Option (BitVec 8)
  cancelAcknowledged : BitVec 8 → Bool
  /-- `retune_isr` runs after the arm, with a compare that fired. -/
  preempted : Bool

def retuneIsr (compareFired : Bool) (q : Queue) : Queue :=
  if q.clearRequested then q
  else
    match q.peek with
    | none => q
    | some e =>
        if (e.state = .schedulePending ∨ e.state = .scheduled) ∧ compareFired then
          q.modifyHead ({ · with state := .ready })
        else q

/-- What `clear_queue_async` returns, with `*cancel_failed`. -/
inductive ClearAnswer where
  | complete
  | pending
  | failed
deriving DecidableEq

/-- `tamer_cancel_request` for an empty queue, and what follows a request that
was not refused. -/
def Queue.requestClearCancel (q : Queue) (t : TamerAnswers) (recoverySeen : Bool) : Queue :=
  match t.cancelRequest with
  | some ack =>
      { q with
        clearCancelAckBefore := ack
        clearCancelPending := true
        clearCancelRecoverySeen := recoverySeen }
  | none => q

/-- `tamer_cancel_request` for an entry. -/
def QueueEntry.requestCancel (e : QueueEntry) (t : TamerAnswers) (recoverySeen : Bool) :
    QueueEntry :=
  match t.cancelRequest with
  | some ack =>
      { e with
        cancelAckBefore := ack
        cancelRequestPending := true
        cancelRecoverySeen := recoverySeen }
  | none => e

/-- The part of `clear_queue_async` after an earlier request. -/
def clearQueueAgain (t : TamerAnswers) (q : Queue) : ClearAnswer × Queue :=
  if t.clockStalled then (.failed, q)
  else
    match q.peek with
    | none =>
        if t.cancelFailed then (.failed, q.requestClearCancel t true)
        else if !q.clearCancelPending && q.clearCancelRecoverySeen then
          (.pending, q.requestClearCancel t q.clearCancelRecoverySeen)
        else (.pending, q)
    | some e =>
        if t.cancelFailed then (.failed, q.modifyHead (·.requestCancel t true))
        else if e.state = .cancelPending ∧ !e.cancelRequestPending ∧ e.cancelRecoverySeen then
          (.pending, q.modifyHead (·.requestCancel t e.cancelRecoverySeen))
        else (.pending, q)

def QueueEntry.startCancel (e : QueueEntry) : QueueEntry :=
  if e.state ≠ .cancelPending then
    { e with
      state := .cancelPending
      cancelRecoverySeen := false
      cancelRequestPending := false }
  else e

/-- A cancel request of the worker: without one in flight the next turn tries
again. -/
def QueueEntry.tryCancel (e : QueueEntry) (t : TamerAnswers) : QueueEntry :=
  { e with cancelRecoverySeen := t.cancelRequest.isSome }.requestCancel t true

def clearQueueAsync (t : TamerAnswers) (q : Queue) : ClearAnswer × Queue :=
  if q.clearComplete then (.complete, { q with clearComplete := false })
  else if q.clearRequested then clearQueueAgain t q
  else
    let q := { q with clearRequested := true }
    match q.peek with
    | none =>
        let q := { q with clearCancelPending := false, clearCancelRecoverySeen := false }
        if t.clockStalled then (.failed, q)
        else if t.cancelFailed then (.failed, q.requestClearCancel t true)
        else (.pending, q.requestClearCancel t true)
    | some e =>
        let q := q.modifyHead QueueEntry.startCancel
        if t.clockStalled then (.failed, q)
        else if t.cancelFailed then (.failed, q.modifyHead (·.requestCancel t true))
        else if e.startCancel.cancelRequestPending then (.pending, q)
        else (.pending, q.modifyHead (·.tryCancel t))

/-! ## The worker -/

/-- `perform_work` on an empty queue. -/
def performClear (t : TamerAnswers) (q : Queue) : Queue :=
  if ¬q.clearRequested then q
  else if q.clearCancelPending then
    if t.clockStalled then
      { q with clearCancelPending := false, clearCancelRecoverySeen := false }
    else if t.cancelAcknowledged q.clearCancelAckBefore then
      { q with clearCancelPending := false, clearRequested := false, clearComplete := true }
    else if t.cancelFailed then
      { q with clearCancelPending := false, clearCancelRecoverySeen := true }
    else q
  else if !t.clockStalled && !q.clearCancelRecoverySeen then
    { q with clearCancelRecoverySeen := t.cancelRequest.isSome }.requestClearCancel t true
  else if t.clockStalled then { q with clearCancelRecoverySeen := false }
  else q

def QueueEntry.cancel (e : QueueEntry) : QueueEntry :=
  { e with
    state := .cancelPending
    cancelRecoverySeen := false
    cancelRequestPending := false }

def QueueEntry.arm (e : QueueEntry) (t : TamerAnswers) : QueueEntry :=
  { e with state := if t.compareFired then .ready else .scheduled }

/-- `ENTRY_STATE_NEW` -/
def QueueEntry.schedule (e : QueueEntry) (t : TamerAnswers) (clearRequested : Bool) :
    QueueEntry :=
  let e := { e with state := .schedulePending }
  if t.scheduleRequest then
    -- the interrupt may be faster than the worker
    let e := if t.preempted && !clearRequested then { e with state := .ready } else e
    if t.scheduleFailed then e.cancel
    else if e.state = .schedulePending ∧ t.scheduleAcknowledged then e.arm t
    else e
  else e.cancel

/-- What the board does for an entry that is ready: the programming, and after a
success the band and the XB-200, whatever the band said. -/
def performRetune {σ : Type} (b : LmsBoard σ) (module : BladerfModule) (f : LmsFreq) (dev : σ) :
    LmsState σ :=
  match (lmsSetPrecalculatedFrequency b module f).exec ⟨dev, f.vcocapResult⟩ with
  | (.error _, s) => s
  | (.ok _, s) =>
      let lowBand := f.flags &&& lmsFreqFlagsLowBand != 0
      let s := ((bandSelect b module lowBand).exec s).2
      ((xbConfigWrite b f.xbGpio).exec s).2

/-- `ENTRY_STATE_CANCEL_PENDING` -/
def performCancel (t : TamerAnswers) (q : Queue) (e : QueueEntry) : Queue :=
  if t.clockStalled then
    q.modifyHead ({ · with cancelRecoverySeen := false, cancelRequestPending := false })
  else if e.cancelRequestPending then
    if t.cancelAcknowledged e.cancelAckBefore then
      if q.clearRequested then { q.reset with clearComplete := true } else q.dequeueRetune
    else if t.cancelFailed then
      q.modifyHead ({ · with cancelRequestPending := false, cancelRecoverySeen := true })
    else q
  else if !e.cancelRecoverySeen then q.modifyHead (·.tryCancel t)
  else q

def performWork {σ : Type} (b : LmsBoard σ) (module : BladerfModule) (t : TamerAnswers)
    (q : Queue) (dev : σ) : Queue × σ :=
  match q.peek with
  | none => (performClear t q, dev)
  | some e =>
      match e.state with
      | .new => (q.modifyHead (·.schedule t q.clearRequested), dev)
      | .schedulePending =>
          if t.scheduleFailed then (q.modifyHead QueueEntry.cancel, dev)
          else if t.scheduleAcknowledged then (q.modifyHead (·.arm t), dev)
          else if t.clockStalled then (q.modifyHead QueueEntry.cancel, dev)
          else (q, dev)
      | .scheduled =>
          if t.compareFired then (q.modifyHead ({ · with state := .ready }), dev)
          else if t.clockStalled then
            (q.modifyHead ({ · with state := .cancelPending, cancelRecoverySeen := false }), dev)
          else (q, dev)
      | .cancelPending => (performCancel t q e, dev)
      | .ready =>
          let s := performRetune b module e.freq dev
          ((q.modifyHead fun e =>
            { e with freq := { e.freq with vcocapResult := s.vcocapResult } }).dequeueRetune, s.dev)
      | .invalid => (q, dev)

/-! ## `pkt_retune` -/

structure System (σ : Type) where
  queues : BladerfModule → Queue
  dev : σ

/-- What a call of `pkt_retune` meets: the byte of its stack frame, the tamer,
and the time before and after, where it can be read. -/
structure Call where
  stack : BitVec 8
  tamer : TamerAnswers
  startTime : Option (BitVec 64)
  endTime : Option (BitVec 64)

structure Answer where
  success : Bool
  flags : BitVec 8
  vcocapResult : BitVec 8

/-- `NIOS_PKT_RETUNE_NOW`: from the local variables, and each step only after the
one before. -/
def retuneAtOnce {σ : Type} (b : LmsBoard σ) (module : BladerfModule) (r : RetuneRequest)
    (f : LmsFreq) (dev : σ) : Answer × σ :=
  match (lmsSetPrecalculatedFrequency b module f).exec ⟨dev, f.vcocapResult⟩ with
  | (.error _, s) => (⟨false, niosPktRetuneRespFlagSuccess, s.vcocapResult⟩, s.dev)
  | (.ok _, s) =>
      let flags := niosPktRetuneRespFlagSuccess ||| niosPktRetuneRespFlagTsvtuneValid
      match (bandSelect b module r.lowBand).exec s with
      | (.error _, s) => (⟨false, flags, s.vcocapResult⟩, s.dev)
      | (.ok _, s) =>
          match (xbConfigWrite b r.xbGpio).exec s with
          | (.error _, s) => (⟨false, flags, s.vcocapResult⟩, s.dev)
          | (.ok _, s) => (⟨true, flags, s.vcocapResult⟩, s.dev)

def ClearAnswer.flags : ClearAnswer → BitVec 8
  | .complete => niosPktRetuneRespFlagSuccess
  | .pending => niosPktRetuneRespFlagSuccess ||| niosPktRetuneRespFlagCancelPending
  | .failed => niosPktRetuneRespFlagSuccess ||| niosPktRetuneRespFlagCancelFailed

/-- The body of `pkt_retune` for a module, once the start time is read. -/
def retuneModule {σ : Type} (b : LmsBoard σ) (module : BladerfModule) (r : RetuneRequest)
    (c : Call) (s : System σ) : Answer × System σ :=
  let f := r.lmsFreq c.stack
  if r.timestamp.toNat = niosPktRetuneNow then
    let res := retuneAtOnce b module r f s.dev
    (res.1, { s with dev := res.2 })
  else if r.timestamp.toNat = niosPktRetuneClearQueue then
    let res := clearQueueAsync c.tamer (s.queues module)
    (⟨res.1 = .complete, res.1.flags, f.vcocapResult⟩,
      { s with queues := Function.update s.queues module res.2 })
  else
    let res := (s.queues module).enqueueRetune f r.timestamp
    (⟨res.1, niosPktRetuneRespFlagSuccess, f.vcocapResult⟩,
      { s with queues := Function.update s.queues module res.2 })

def Answer.packet (a : Answer) (duration : BitVec 64) : Packet :=
  niosPktRetuneRespPack duration a.vcocapResult
    (if a.success then a.flags else a.flags &&& ~~~niosPktRetuneRespFlagSuccess)

def pktRetune {σ : Type} (b : LmsBoard σ) (c : Call) (p : Packet) (s : System σ) :
    Packet × System σ :=
  let r := niosPktRetuneUnpack p
  let failed : Answer := ⟨false, niosPktRetuneRespFlagSuccess, 0xff⟩
  if r.scheduled && c.startTime.isNone then (failed.packet 0, s)
  else
    let res := match r.module with
      | some module => retuneModule b module r c s
      | none => (failed, s)
    let duration :=
      if r.scheduled then
        c.endTime.elim 0 (· - c.startTime.getD 0)
      else 0
    (res.1.packet duration, res.2)

end Retune

end BladeRF
