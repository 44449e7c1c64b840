/-
# `Fpga.TxFaultFlush` — the barrier around a flush of the TX FIFOs

After a fault NIOS clears both TX FIFOs with `tx_fifo_fault_flush`.  From the
start to the release the FIFOs take no writes and give no reads; the clear goes
away once the TX clock is seen to run, and the barrier once each side has seen
the FIFOs empty from its own clock.

The three clocks are unrelated, so each edge is a step.  Every synchronizer of
the sys clock takes its sample on the same edges: they are kept as one chain of
samples.  A sample also carries how often the TX clock and `tx_reset` had changed
when it was taken, which no register reads.
-/
import BladeRF.Lib.Steps

namespace BladeRF

/-! ## Synchronizers -/

/-- `reset_synchronizer`: set at once, released by three edges. -/
structure ResetSynchronizer where
  sync : Bool := true
  reg1 : Bool := true
  reg0 : Bool := true

namespace ResetSynchronizer

def clock (r : ResetSynchronizer) : ResetSynchronizer where
  sync := r.reg1
  reg1 := r.reg0
  reg0 := false

def async (r : ResetSynchronizer) (level : Bool) : ResetSynchronizer :=
  if level then {} else r

end ResetSynchronizer

/-- What an edge of the sys clock samples: `write_block_seen`, both empty-ready
bits, `tx_clock_alive_toggle` and `tx_reset`, with the number of toggles and of
resets up to then. -/
structure FlushSample where
  writeBlockSeen : Bool := false
  writeEmptyReady : Bool := false
  readEmptyReady : Bool := false
  txClockAlive : Bool := false
  txReset : Bool := false
  toggles : ℕ := 0
  resets : ℕ := 0

structure FlushChain where
  sync : FlushSample := {}
  reg1 : FlushSample := {}
  reg0 : FlushSample := {}

def FlushChain.clock (c : FlushChain) (x : FlushSample) : FlushChain where
  sync := c.reg1
  reg1 := c.reg0
  reg0 := x

/-! ## The controller -/

/-- `state_t` -/
inductive FlushState where
  | idle
  | assertClear
  | held
  | waitTxClockBaseline
  | waitTxClock
  | releaseWait
  deriving DecidableEq

def FlushState.halfReleased : FlushState → Bool
  | .waitTxClockBaseline | .waitTxClock | .releaseWait => true
  | .idle | .assertClear | .held => false

/-- The registers of the process of `sys_clock`. -/
structure FlushController where
  state : FlushState := .idle
  resetHold : Bool := false
  busy : Bool := false
  done : Bool := false
  error : Bool := false
  released : Bool := false
  txClockAliveSeen : Bool := false
  txClockEdgesAfterRelease : ℕ := 0
  txClockBaselineWait : ℕ := 0

structure FlushInput where
  start : Bool := false
  releaseRequest : Bool := false
  gpifIdle : Bool := false

namespace FlushController

/-- The process of `sys_clock`, with the synchronized levels in `y`. -/
def clock (c : FlushController) (y : FlushSample) (x : FlushInput) : FlushController :=
  if y.txReset then
    if c.state.halfReleased then
      { c with
        released := false
        busy := true
        done := true
        resetHold := true
        state := .held
        txClockEdgesAfterRelease := 0
        txClockBaselineWait := 0 }
    else { c with released := false }
  else
    match c.state with
    | .idle =>
        if x.start then
          { c with
            busy := true
            done := false
            error := false
            released := false
            resetHold := true
            state := .assertClear }
        else
          { c with
            busy := false
            done := false
            resetHold := false
            error := c.error || x.releaseRequest }
    | .assertClear =>
        let c := { c with error := c.error || x.start, busy := true, resetHold := true }
        if y.writeBlockSeen && !y.writeEmptyReady && !y.readEmptyReady && x.gpifIdle then
          { c with done := true, state := .held }
        else c
    | .held =>
        let c := { c with error := c.error || x.start, busy := true, done := true, resetHold := true }
        if x.releaseRequest then
          { c with
            txClockEdgesAfterRelease := 0
            txClockBaselineWait := 0
            state := .waitTxClockBaseline }
        else c
    | .waitTxClockBaseline =>
        let c := { c with error := c.error || x.start, busy := true, done := true, resetHold := true }
        if c.txClockBaselineWait = 2 then
          { c with
            txClockAliveSeen := y.txClockAlive
            txClockEdgesAfterRelease := 0
            state := .waitTxClock }
        else { c with txClockBaselineWait := c.txClockBaselineWait + 1 }
    | .waitTxClock =>
        let c := { c with error := c.error || x.start, busy := true, done := true, resetHold := true }
        if y.txClockAlive != c.txClockAliveSeen then
          let c := { c with txClockAliveSeen := y.txClockAlive }
          if c.txClockEdgesAfterRelease = 2 then
            { c with txClockEdgesAfterRelease := 3, resetHold := false, state := .releaseWait }
          else { c with txClockEdgesAfterRelease := c.txClockEdgesAfterRelease + 1 }
        else c
    | .releaseWait =>
        let c := { c with error := c.error || x.start, busy := true, done := true, resetHold := false }
        if y.writeEmptyReady && y.readEmptyReady then
          { c with busy := false, done := false, released := true, state := .idle }
        else c

/-- What an edge does, up to the error bit `e`. -/
inductive Moves (c : FlushController) (y : FlushSample) (x : FlushInput) (e : Bool) :
    FlushController → Prop
  | invalidates : y.txReset = true → c.state.halfReleased = false →
      Moves c y x e { c with error := e, released := false }
  | fallsBack : y.txReset = true → c.state.halfReleased = true →
      Moves c y x e
        { c with
          error := e
          released := false
          busy := true
          done := true
          resetHold := true
          state := .held
          txClockEdgesAfterRelease := 0
          txClockBaselineWait := 0 }
  | rests : y.txReset = false → c.state = .idle → x.start = false →
      Moves c y x e { c with error := e, busy := false, done := false, resetHold := false }
  | begins : y.txReset = false → c.state = .idle → x.start = true →
      Moves c y x e
        { c with
          error := e
          busy := true
          done := false
          released := false
          resetHold := true
          state := .assertClear }
  | clearing : y.txReset = false → c.state = .assertClear →
      Moves c y x e { c with error := e, busy := true, resetHold := true }
  | cleared : y.txReset = false → c.state = .assertClear → y.writeBlockSeen = true →
      y.writeEmptyReady = false → y.readEmptyReady = false → x.gpifIdle = true →
      Moves c y x e
        { c with error := e, busy := true, resetHold := true, done := true, state := .held }
  | holds : y.txReset = false → c.state = .held → x.releaseRequest = false →
      Moves c y x e { c with error := e, busy := true, done := true, resetHold := true }
  | requested : y.txReset = false → c.state = .held → x.releaseRequest = true →
      Moves c y x e
        { c with
          error := e
          busy := true
          done := true
          resetHold := true
          txClockEdgesAfterRelease := 0
          txClockBaselineWait := 0
          state := .waitTxClockBaseline }
  | drains : y.txReset = false → c.state = .waitTxClockBaseline → c.txClockBaselineWait ≠ 2 →
      Moves c y x e
        { c with
          error := e
          busy := true
          done := true
          resetHold := true
          txClockBaselineWait := c.txClockBaselineWait + 1 }
  | baseline : y.txReset = false → c.state = .waitTxClockBaseline → c.txClockBaselineWait = 2 →
      Moves c y x e
        { c with
          error := e
          busy := true
          done := true
          resetHold := true
          txClockAliveSeen := y.txClockAlive
          txClockEdgesAfterRelease := 0
          state := .waitTxClock }
  | watches : y.txReset = false → c.state = .waitTxClock → y.txClockAlive = c.txClockAliveSeen →
      Moves c y x e { c with error := e, busy := true, done := true, resetHold := true }
  | counts : y.txReset = false → c.state = .waitTxClock → y.txClockAlive ≠ c.txClockAliveSeen →
      c.txClockEdgesAfterRelease ≠ 2 →
      Moves c y x e
        { c with
          error := e
          busy := true
          done := true
          resetHold := true
          txClockAliveSeen := y.txClockAlive
          txClockEdgesAfterRelease := c.txClockEdgesAfterRelease + 1 }
  | releases : y.txReset = false → c.state = .waitTxClock →
      y.txClockAlive ≠ c.txClockAliveSeen → c.txClockEdgesAfterRelease = 2 →
      Moves c y x e
        { c with
          error := e
          busy := true
          done := true
          resetHold := false
          txClockAliveSeen := y.txClockAlive
          txClockEdgesAfterRelease := 3
          state := .releaseWait }
  | waits : y.txReset = false → c.state = .releaseWait →
      (y.writeEmptyReady && y.readEmptyReady) = false →
      Moves c y x e { c with error := e, busy := true, done := true, resetHold := false }
  | completes : y.txReset = false → c.state = .releaseWait →
      (y.writeEmptyReady && y.readEmptyReady) = true →
      Moves c y x e
        { c with
          error := e
          busy := false
          done := false
          released := true
          resetHold := false
          state := .idle }

theorem clock_moves (c : FlushController) (y : FlushSample) (x : FlushInput) :
    ∃ e, Moves c y x e (c.clock y x) := by
  refine ⟨(c.clock y x).error, ?_⟩
  unfold clock
  cases hreset : y.txReset with
  | true =>
      rw [if_pos rfl]
      cases hhalf : c.state.halfReleased with
      | true => exact .fallsBack hreset hhalf
      | false => exact .invalidates hreset hhalf
  | false =>
      rw [if_neg Bool.false_ne_true]
      obtain ⟨state, resetHold, busy, done, error, released, seen, edges, wait⟩ := c
      cases state with
      | idle =>
          cases hstart : x.start with
          | true => exact .begins hreset rfl hstart
          | false => exact .rests hreset rfl hstart
      | assertClear =>
          dsimp only
          split
          · rename_i h
            simp only [Bool.and_eq_true, Bool.not_eq_true'] at h
            exact .cleared hreset rfl h.1.1.1 h.1.1.2 h.1.2 h.2
          · exact .clearing hreset rfl
      | held =>
          dsimp only
          split
          · rename_i h
            exact .requested hreset rfl h
          · rename_i h
            exact .holds hreset rfl (Bool.not_eq_true _ ▸ h)
      | waitTxClockBaseline =>
          dsimp only
          split
          · rename_i h
            exact .baseline hreset rfl h
          · rename_i h
            exact .drains hreset rfl h
      | waitTxClock =>
          dsimp only
          split
          · rename_i h
            split
            · rename_i h2
              exact .releases hreset rfl (bne_iff_ne.mp h) h2
            · rename_i h2
              exact .counts hreset rfl (bne_iff_ne.mp h) h2
          · rename_i h
            refine .watches hreset rfl ?_
            simpa using h
      | releaseWait =>
          dsimp only
          split
          · rename_i h
            exact .completes hreset rfl h
          · rename_i h
            exact .waits hreset rfl (Bool.not_eq_true _ ▸ h)

structure Levels (c : FlushController) : Prop where
  busy : c.busy = (c.state != .idle)
  resetHold : c.resetHold = (c.state != .idle && c.state != .releaseWait)
  done : c.done = (c.state != .idle && c.state != .assertClear)
  released : c.released = true → c.state = .idle

theorem Levels.moves {c c' : FlushController} {y : FlushSample} {x : FlushInput} {e : Bool}
    (h : c.Levels) (hm : Moves c y x e c') : c'.Levels := by
  obtain ⟨hbusy, hhold, hdone, hreleased⟩ := h
  cases hm with
  | invalidates _ _ => exact ⟨hbusy, hhold, hdone, fun hr => absurd hr Bool.false_ne_true⟩
  | fallsBack _ _ | begins _ _ _ =>
      exact ⟨rfl, rfl, rfl, fun hr => absurd hr Bool.false_ne_true⟩
  | rests _ hs _ => exact ⟨by rw [hs]; rfl, by rw [hs]; rfl, by rw [hs]; rfl, fun _ => hs⟩
  | clearing _ hs =>
      refine ⟨by rw [hs]; rfl, by rw [hs]; rfl, hdone, hreleased⟩
  | holds _ hs _ | drains _ hs _ | watches _ hs _ | counts _ hs _ _ | waits _ hs _ =>
      exact ⟨by rw [hs]; rfl, by rw [hs]; rfl, by rw [hs]; rfl, hreleased⟩
  | cleared _ hs _ _ _ _ | requested _ hs _ | baseline _ hs _ | releases _ hs _ _ =>
      refine ⟨rfl, rfl, rfl, fun hr => ?_⟩
      have := hreleased hr
      rw [hs] at this
      cases this
  | completes _ _ _ => exact ⟨rfl, rfl, rfl, fun _ => rfl⟩

end FlushController

/-! ## The sides of the FIFOs -/

/-- The evidence of one side that both FIFOs are empty.  `sawEmpty` records an edge
with both of them empty since the controller last held the clear. -/
structure EmptyEvidence where
  releaseReset : ResetSynchronizer := {}
  releaseCount : ℕ := 0
  emptyReady : Bool := false
  sawEmpty : Bool := false

namespace EmptyEvidence

def clock (e : EmptyEvidence) (empty : Bool) : EmptyEvidence where
  releaseReset := e.releaseReset.clock
  releaseCount := if e.releaseReset.sync then 0 else min 3 (e.releaseCount + 1)
  emptyReady := !e.releaseReset.sync && decide (2 ≤ e.releaseCount) && empty
  sawEmpty := e.sawEmpty || (!e.releaseReset.sync && empty)

def async (e : EmptyEvidence) (fifoAclr resetHold : Bool) : EmptyEvidence where
  releaseReset := e.releaseReset.async fifoAclr
  releaseCount := if (e.releaseReset.async fifoAclr).sync then 0 else e.releaseCount
  emptyReady := !(e.releaseReset.async fifoAclr).sync && e.emptyReady
  sawEmpty := !resetHold && e.sawEmpty

end EmptyEvidence

/-- The registers of `write_clock`. -/
structure FlushWriteSide where
  blockSysReset : ResetSynchronizer := {}
  blockTxReset : ResetSynchronizer := {}
  blockBusy : ResetSynchronizer := {}
  seenReset : ResetSynchronizer := {}
  writeBlockSeen : Bool := false
  evidence : EmptyEvidence := {}

/-- `write_block_i` -/
def FlushWriteSide.writeBlock (w : FlushWriteSide) : Bool :=
  w.blockSysReset.sync || w.blockTxReset.sync || w.blockBusy.sync

/-- The registers of `tx_clock`, with the reader block of `tx.vhd`. -/
structure FlushReadSide where
  evidence : EmptyEvidence := {}
  txClockAliveToggle : Bool := false
  faultBlock : ResetSynchronizer := {}
  txResetBlock : ResetSynchronizer := {}
  sysResetBlock : ResetSynchronizer := {}
  readerBlock : Bool := true

/-- A word of a FIFO, and the number of starts before it was written. -/
structure FlushWord (α : Type) where
  data : α
  starts : ℕ

/-- The block with both FIFOs.  Behind the registers are the counts and the events
that the properties speak of. -/
structure TxFaultFlush (α : Type) where
  ctl : FlushController := {}
  chain : FlushChain := {}
  writeSide : FlushWriteSide := {}
  readSide : FlushReadSide := {}
  txReset : Bool := false
  sampleFifo : List (FlushWord α) := []
  metaFifo : List (FlushWord α) := []
  toggles : ℕ := 0
  resets : ℕ := 0
  /-- starts taken -/
  starts : ℕ := 0
  /-- from a start until `release_complete` next rises -/
  flushing : Bool := false
  /-- `toggles` at the last release request -/
  requestToggles : ℕ := 0
  /-- a release request was taken since the start -/
  sawRequest : Bool := false
  /-- the sample that `tx_clock_alive_seen` is from -/
  seenAt : FlushSample := {}
  /-- since the start: the write side has sampled the block, -/
  sawBlock : Bool := false
  /-- `gpif_idle` was high, -/
  sawIdle : Bool := false
  /-- and both synchronizers showed no side ready -/
  sawClear : Bool := false
  /-- sys clocks since `tx_reset` hit a release under way, until the state is HELD -/
  hitFor : Option ℕ := none
  /-- the words read, each with the number of starts before the read -/
  reads : List (FlushWord α × ℕ) := []

namespace TxFaultFlush

variable {α : Type}

section Step

variable (s : TxFaultFlush α)

def fifoAclr : Bool :=
  s.txReset || s.ctl.resetHold

def releaseComplete : Bool :=
  s.ctl.released && !s.chain.sync.txReset

def sample : FlushSample where
  writeBlockSeen := s.writeSide.writeBlockSeen
  writeEmptyReady := s.writeSide.evidence.emptyReady
  readEmptyReady := s.readSide.evidence.emptyReady
  txClockAlive := s.readSide.txClockAliveToggle
  txReset := s.txReset
  toggles := s.toggles
  resets := s.resets

def settle : TxFaultFlush α :=
  { s with
    writeSide :=
      { s.writeSide with
        blockTxReset := s.writeSide.blockTxReset.async s.txReset
        blockBusy := s.writeSide.blockBusy.async s.ctl.busy
        writeBlockSeen := !s.writeSide.seenReset.sync && s.writeSide.writeBlockSeen
        evidence := s.writeSide.evidence.async s.fifoAclr s.ctl.resetHold }
    readSide :=
      { s.readSide with
        evidence := s.readSide.evidence.async s.fifoAclr s.ctl.resetHold
        txClockAliveToggle := !s.txReset && s.readSide.txClockAliveToggle
        faultBlock := s.readSide.faultBlock.async s.ctl.busy
        txResetBlock := s.readSide.txResetBlock.async s.txReset }
    sampleFifo := if s.fifoAclr then [] else s.sampleFifo
    metaFifo := if s.fifoAclr then [] else s.metaFifo }

def takes (x : FlushInput) : Bool :=
  !s.chain.sync.txReset && s.ctl.state == .idle && x.start

def requested (x : FlushInput) : Bool :=
  !s.chain.sync.txReset && s.ctl.state == .held && x.releaseRequest

def completes : Bool :=
  !s.chain.sync.txReset && s.ctl.state == .releaseWait && s.chain.sync.writeEmptyReady &&
    s.chain.sync.readEmptyReady

/-- `tx_clock_alive_seen` is assigned. -/
def seesAlive : Bool :=
  !s.chain.sync.txReset &&
    (s.ctl.state == .waitTxClockBaseline && s.ctl.txClockBaselineWait == 2 ||
      s.ctl.state == .waitTxClock && s.chain.sync.txClockAlive != s.ctl.txClockAliveSeen)

def sysClock (x : FlushInput) : TxFaultFlush α :=
  let ctl := s.ctl.clock s.chain.sync x
  let chain := s.chain.clock s.sample
  settle
    { s with
      ctl := ctl
      chain := chain
      starts := if s.takes x then s.starts + 1 else s.starts
      flushing :=
        if s.takes x then true
        else if (ctl.released && !chain.sync.txReset) && !s.releaseComplete then false
        else s.flushing
      requestToggles := if s.requested x then s.toggles else s.requestToggles
      sawRequest := !s.takes x && (s.sawRequest || s.requested x)
      seenAt := if s.seesAlive then s.chain.sync else s.seenAt
      sawBlock := !s.takes x && s.sawBlock
      sawIdle := !s.takes x && (s.sawIdle || x.gpifIdle)
      sawClear := !s.takes x &&
        (s.sawClear || !s.chain.sync.writeEmptyReady && !s.chain.sync.readEmptyReady)
      hitFor := if ctl.state == .held then none else s.hitFor.map (· + 1) }

def written (d : Option α) : List (FlushWord α) :=
  if s.writeSide.writeBlock then [] else d.toList.map (⟨·, s.starts⟩)

def writeClock (sample metadata : Option α) : TxFaultFlush α :=
  settle
    { s with
      writeSide :=
        { blockSysReset := s.writeSide.blockSysReset.clock
          blockTxReset := s.writeSide.blockTxReset.clock
          blockBusy := s.writeSide.blockBusy.clock
          seenReset := s.writeSide.seenReset.clock
          writeBlockSeen := !s.writeSide.seenReset.sync && s.writeSide.writeBlock
          evidence := s.writeSide.evidence.clock (s.sampleFifo.isEmpty && s.metaFifo.isEmpty) }
      sampleFifo := s.sampleFifo ++ s.written sample
      metaFifo := s.metaFifo ++ s.written metadata
      sawBlock := s.sawBlock || s.writeSide.writeBlock }

def readCount (request : Bool) : ℕ :=
  if request && !s.readSide.readerBlock then 1 else 0

def txClock (readSample readMeta : Bool) : TxFaultFlush α :=
  settle
    { s with
      readSide :=
        { evidence := s.readSide.evidence.clock (s.sampleFifo.isEmpty && s.metaFifo.isEmpty)
          txClockAliveToggle := !s.readSide.txClockAliveToggle
          faultBlock := s.readSide.faultBlock.clock
          txResetBlock := s.readSide.txResetBlock.clock
          sysResetBlock := s.readSide.sysResetBlock.clock
          readerBlock := s.readSide.faultBlock.sync || s.readSide.txResetBlock.sync ||
            s.readSide.sysResetBlock.sync }
      sampleFifo := s.sampleFifo.drop (s.readCount readSample)
      metaFifo := s.metaFifo.drop (s.readCount readMeta)
      toggles := if s.txReset then s.toggles else s.toggles + 1
      reads := s.reads ++ (s.sampleFifo.take (s.readCount readSample) ++
        s.metaFifo.take (s.readCount readMeta)).map (·, s.starts) }

/-- The pin `tx_reset`. -/
def setTxReset (level : Bool) : TxFaultFlush α :=
  settle
    { s with
      txReset := level
      resets := if level && !s.txReset then s.resets + 1 else s.resets
      hitFor := if level && s.ctl.state.halfReleased then some (s.hitFor.getD 0) else s.hitFor }

end Step

inductive Act (α : Type) where
  | sysClock (x : FlushInput)
  | writeClock (sample metadata : Option α)
  | txClock (readSample readMeta : Bool)
  | setTxReset (level : Bool)

def step (s : TxFaultFlush α) : Act α → Option (TxFaultFlush α)
  | .sysClock x => some (s.sysClock x)
  | .writeClock sample metadata => some (s.writeClock sample metadata)
  | .txClock readSample readMeta => some (s.txClock readSample readMeta)
  | .setTxReset level => some (s.setTxReset level)

/-- What the steps need.  `tx_reset` falls only once the sys clock has sampled it; a
release completes with no `tx_reset` at the pin or on its way; and a start finds
no block of before at the write side or on its way. -/
def Timely (s : TxFaultFlush α) : Act α → Prop
  | .sysClock x =>
      (s.completes = true → s.txReset = false ∧ s.chain.reg0.txReset = false ∧
        s.chain.reg1.txReset = false) ∧
      (s.takes x = true → s.writeSide.writeBlockSeen = false ∧
        s.chain.reg0.writeBlockSeen = false ∧ s.chain.reg1.writeBlockSeen = false)
  | .setTxReset level => level = false → s.txReset = true → s.chain.reg0.txReset = true
  | .writeClock _ _ | .txClock _ _ => True

variable {s : TxFaultFlush α}

/-! ## What the asynchronous resets keep -/

/-- The levels behind `settle`. -/
structure Settled (s : TxFaultFlush α) : Prop where
  blocked : s.ctl.busy = true → s.writeSide.writeBlock = true
  writeReady : s.ctl.resetHold = true → s.writeSide.evidence.emptyReady = false
  readReady : s.ctl.resetHold = true → s.readSide.evidence.emptyReady = false
  cleared : s.fifoAclr = true → s.sampleFifo = [] ∧ s.metaFifo = []

theorem EmptyEvidence.async_emptyReady (e : EmptyEvidence) (hold : Bool) :
    (e.async true hold).emptyReady = false := rfl

theorem settle_settled (s : TxFaultFlush α) : s.settle.Settled := by
  have haclr : s.ctl.resetHold = true → s.fifoAclr = true := by
    intro h
    unfold fifoAclr
    rw [h, Bool.or_true]
  refine ⟨?_, ?_, ?_, ?_⟩
  · intro h
    change s.ctl.busy = true at h
    show (_ || (s.writeSide.blockBusy.async s.ctl.busy).sync) = true
    rw [h]
    exact Bool.or_true _
  · intro h
    show (s.writeSide.evidence.async s.fifoAclr _).emptyReady = false
    rw [haclr h]
    rfl
  · intro h
    show (s.readSide.evidence.async s.fifoAclr _).emptyReady = false
    rw [haclr h]
    rfl
  · intro h
    change s.fifoAclr = true at h
    show (if s.fifoAclr then [] else _) = [] ∧ (if s.fifoAclr then [] else _) = []
    rw [h]
    exact ⟨rfl, rfl⟩

/-! ## The evidence of the TX clock -/

def phase (x : FlushSample) : Bool :=
  x.txClockAlive ^^ decide (x.toggles % 2 = 1)

/-- `n` is a later sample than `o`: without a reset between them, the toggle changed
on edges of the TX clock only. -/
structure Follows (o n : FlushSample) : Prop where
  toggles : o.toggles ≤ n.toggles
  resets : o.resets ≤ n.resets
  phase : o.resets = n.resets → phase o = phase n

/-- Between two samples without a `tx_reset` there was none. -/
def Adjacent (o n : FlushSample) : Prop :=
  o.txReset = false → n.txReset = false → o.resets = n.resets

theorem Follows.refl (x : FlushSample) : Follows x x := ⟨Nat.le_refl _, Nat.le_refl _, fun _ => rfl⟩

theorem Follows.trans {o m n : FlushSample} (h : Follows o m) (h' : Follows m n) : Follows o n := by
  refine ⟨h.toggles.trans h'.toggles, h.resets.trans h'.resets, ?_⟩
  intro he
  have hm : o.resets = m.resets := Nat.le_antisymm h.resets (he ▸ h'.resets)
  exact (h.phase hm).trans (h'.phase (hm.symm.trans he))

theorem Follows.lt {o n : FlushSample} (h : Follows o n) (hr : o.resets = n.resets)
    (hne : n.txClockAlive ≠ o.txClockAlive) : o.toggles < n.toggles := by
  refine Nat.lt_of_le_of_ne h.toggles ?_
  intro he
  have hphase := h.phase hr
  unfold TxFaultFlush.phase at hphase
  rw [he] at hphase
  exact hne (Bool.xor_left_inj.mp hphase).symm

structure InOrder (s : TxFaultFlush α) : Prop where
  follows₂ : Follows s.chain.sync s.chain.reg1
  follows₁ : Follows s.chain.reg1 s.chain.reg0
  follows₀ : Follows s.chain.reg0 s.sample
  adjacent₂ : Adjacent s.chain.sync s.chain.reg1
  adjacent₁ : Adjacent s.chain.reg1 s.chain.reg0
  adjacent₀ : Adjacent s.chain.reg0 s.sample
  still : s.txReset = true → s.readSide.txClockAliveToggle = false

/-- The changes that the controller has counted are edges of the TX clock since the
release request, which found `request` of them. -/
def Counts (c : FlushController) (y : FlushChain) (seenAt : FlushSample) (request toggles : ℕ) :
    Prop :=
  match c.state with
  | .waitTxClockBaseline =>
      request ≤ y.reg0.toggles ∧
        (1 ≤ c.txClockBaselineWait → request ≤ y.reg1.toggles) ∧
        (2 ≤ c.txClockBaselineWait → request ≤ y.sync.toggles)
  | .waitTxClock =>
      c.txClockAliveSeen = seenAt.txClockAlive ∧ Follows seenAt y.sync ∧
        (y.sync.txReset = false → seenAt.resets = y.sync.resets) ∧
        request + c.txClockEdgesAfterRelease ≤ seenAt.toggles
  | .releaseWait => request + 3 ≤ toggles
  | .idle | .assertClear | .held => True

theorem Follows.of_eq {o n : FlushSample} (ha : n.txClockAlive = o.txClockAlive)
    (ht : n.toggles = o.toggles) (hr : n.resets = o.resets) : Follows o n := by
  refine ⟨Nat.le_of_eq ht.symm, Nat.le_of_eq hr.symm, fun _ => ?_⟩
  unfold TxFaultFlush.phase
  rw [ha, ht]

theorem toggle_settled (h : s.txReset = true → s.readSide.txClockAliveToggle = false) :
    (!s.txReset && s.readSide.txClockAliveToggle) = s.readSide.txClockAliveToggle := by
  cases hr : s.txReset with
  | true => rw [h hr]; rfl
  | false => rfl

theorem settle_still (s : TxFaultFlush α) :
    s.settle.txReset = true → s.settle.readSide.txClockAliveToggle = false := by
  intro h
  change s.txReset = true at h
  show (!s.txReset && _) = false
  rw [h]
  rfl

theorem InOrder.sysClock (h : s.InOrder) (x : FlushInput) : (s.sysClock x).InOrder := by
  have hfollows : Follows s.sample (s.sysClock x).sample :=
    .of_eq (toggle_settled h.still) rfl rfl
  exact ⟨h.follows₁, h.follows₀, hfollows, h.adjacent₁, h.adjacent₀, fun _ _ => rfl,
    settle_still _⟩

theorem InOrder.writeClock (h : s.InOrder) (sample metadata : Option α) :
    (s.writeClock sample metadata).InOrder := by
  have hfollows : Follows s.sample (s.writeClock sample metadata).sample :=
    .of_eq (toggle_settled h.still) rfl rfl
  exact ⟨h.follows₂, h.follows₁, h.follows₀.trans hfollows, h.adjacent₂, h.adjacent₁,
    h.adjacent₀, settle_still _⟩

theorem InOrder.txClock (h : s.InOrder) (readSample readMeta : Bool) :
    (s.txClock readSample readMeta).InOrder := by
  have hfollows : Follows s.sample (s.txClock readSample readMeta).sample := by
    have htoggles : (s.txClock readSample readMeta).sample.toggles =
        if s.txReset then s.toggles else s.toggles + 1 := rfl
    have halive : (s.txClock readSample readMeta).sample.txClockAlive =
        (!s.txReset && !s.readSide.txClockAliveToggle) := rfl
    cases hr : s.txReset with
    | true =>
        rw [hr] at htoggles halive
        exact .of_eq (halive.trans (h.still hr).symm) htoggles rfl
    | false =>
        rw [hr] at htoggles halive
        refine ⟨?_, Nat.le_refl _, fun _ => ?_⟩
        · rw [htoggles]
          exact Nat.le_succ _
        · unfold phase
          rw [htoggles, halive]
          show (s.readSide.txClockAliveToggle ^^ decide (s.toggles % 2 = 1)) =
            ((!false && !s.readSide.txClockAliveToggle) ^^ decide ((s.toggles + 1) % 2 = 1))
          rcases Nat.mod_two_eq_zero_or_one s.toggles with hp | hp
          · simp [Nat.add_mod, hp]
          · simp [Nat.add_mod, hp]
  exact ⟨h.follows₂, h.follows₁, h.follows₀.trans hfollows, h.adjacent₂, h.adjacent₁,
    h.adjacent₀, settle_still _⟩

theorem InOrder.setTxReset (h : s.InOrder) {level : Bool} (hok : s.Timely (.setTxReset level)) :
    (s.setTxReset level).InOrder := by
  have hresets : (s.setTxReset level).resets =
      if level && !s.txReset then s.resets + 1 else s.resets := rfl
  have halive : (s.setTxReset level).sample.txClockAlive =
      (!level && s.readSide.txClockAliveToggle) := rfl
  have hfollows : Follows s.sample (s.setTxReset level).sample := by
    cases hrise : level && !s.txReset with
    | true =>
        rw [hrise, if_pos rfl] at hresets
        refine ⟨Nat.le_refl _, ?_, fun he => ?_⟩
        · exact Nat.le_of_lt (Nat.lt_of_lt_of_eq (Nat.lt_succ_self _) hresets.symm)
        · exact absurd (he.trans hresets) (Nat.ne_of_lt (Nat.lt_succ_self _))
    | false =>
        rw [hrise, if_neg Bool.false_ne_true] at hresets
        refine .of_eq ?_ rfl hresets
        cases level with
        | false => exact halive
        | true =>
            rw [Bool.true_and, Bool.not_eq_false'] at hrise
            exact halive.trans (h.still hrise).symm
  refine ⟨h.follows₂, h.follows₁, h.follows₀.trans hfollows, h.adjacent₂, h.adjacent₁, ?_,
    settle_still _⟩
  intro hreg hlevel
  change level = false at hlevel
  subst hlevel
  cases hr : s.txReset with
  | true => exact absurd (hreg.symm.trans (hok rfl hr)) Bool.false_ne_true
  | false => exact h.adjacent₀ hreg hr

theorem Counts.sysClock (h : Counts s.ctl s.chain s.seenAt s.requestToggles s.toggles)
    (ho : s.InOrder) (x : FlushInput) :
    Counts (s.ctl.clock s.chain.sync x) (s.chain.clock s.sample)
      (if s.seesAlive then s.chain.sync else s.seenAt)
      (if s.requested x then s.toggles else s.requestToggles) s.toggles := by
  obtain ⟨e, hm⟩ := s.ctl.clock_moves s.chain.sync x
  generalize s.ctl.clock s.chain.sync x = c at hm
  have hrequest : s.ctl.state ≠ .held → s.requested x = false := by
    intro hs
    unfold requested
    rw [beq_eq_false_iff_ne.mpr hs, Bool.and_false, Bool.false_and]
  cases hm with
  | invalidates hr hhalf =>
      unfold Counts
      cases hs : s.ctl.state <;> first | trivial | (rw [hs] at hhalf; cases hhalf)
  | fallsBack _ _ | begins _ _ _ | cleared _ _ _ _ _ _ | completes _ _ _ => trivial
  | rests _ hs _ | clearing _ hs | holds _ hs _ =>
      unfold Counts
      dsimp only
      rw [hs]
      trivial
  | requested hr hs hx =>
      have htakes : s.requested x = true := by
        unfold requested
        rw [hr, hs, hx]
        rfl
      rw [htakes]
      exact ⟨Nat.le_refl _, fun hw => absurd hw (Nat.not_succ_le_zero 0),
        fun hw => absurd hw (Nat.not_succ_le_zero 1)⟩
  | drains hr hs hw =>
      rw [hrequest (by rw [hs]; decide)]
      unfold Counts at h ⊢
      dsimp only at h ⊢
      rw [hs] at h ⊢
      obtain ⟨h₀, h₁, -⟩ := h
      exact ⟨h₀.trans ho.follows₀.toggles, fun _ => h₀, fun hw => h₁ (Nat.le_of_succ_le_succ hw)⟩
  | baseline hr hs hw =>
      have hsees : s.seesAlive = true := by
        unfold seesAlive
        rw [hr, hs, hw]
        rfl
      rw [hrequest (by rw [hs]; decide), hsees]
      unfold Counts at h
      rw [hs] at h
      exact ⟨rfl, ho.follows₂, ho.adjacent₂ hr, h.2.2 (Nat.le_of_eq hw.symm)⟩
  | watches hr hs ha =>
      have hsees : s.seesAlive = false := by
        unfold seesAlive
        rw [hr, hs, ha, bne_self_eq_false]
        rfl
      rw [hrequest (by rw [hs]; decide), hsees]
      unfold Counts at h ⊢
      dsimp only at h ⊢
      rw [hs] at h ⊢
      obtain ⟨hseen, hfollows, hresets, hle⟩ := h
      exact ⟨hseen, hfollows.trans ho.follows₂,
        fun hr' => (hresets hr).trans (ho.adjacent₂ hr hr'), hle⟩
  | counts hr hs ha hn =>
      have hsees : s.seesAlive = true := by
        unfold seesAlive
        rw [hr, hs, bne_iff_ne.mpr ha]
        rfl
      rw [hrequest (by rw [hs]; decide), hsees]
      unfold Counts at h ⊢
      dsimp only at h ⊢
      rw [hs] at h ⊢
      obtain ⟨hseen, hfollows, hresets, hle⟩ := h
      have hlt := hfollows.lt (hresets hr) (hseen ▸ ha)
      refine ⟨rfl, ho.follows₂, ho.adjacent₂ hr, ?_⟩
      show s.requestToggles + (s.ctl.txClockEdgesAfterRelease + 1) ≤ s.chain.sync.toggles
      omega
  | releases hr hs ha hn =>
      rw [hrequest (by rw [hs]; decide)]
      unfold Counts at h
      rw [hs] at h
      obtain ⟨hseen, hfollows, hresets, hle⟩ := h
      have hlt := hfollows.lt (hresets hr) (hseen ▸ ha)
      have hnow := (ho.follows₂.trans (ho.follows₁.trans ho.follows₀)).toggles
      change s.chain.sync.toggles ≤ s.toggles at hnow
      show s.requestToggles + 3 ≤ s.toggles
      omega
  | waits hr hs hy =>
      rw [hrequest (by rw [hs]; decide)]
      unfold Counts at h ⊢
      dsimp only at h ⊢
      rw [hs] at h ⊢
      exact h

variable {c : FlushController} {x : FlushInput} {e : EmptyEvidence} {r₂ r₁ r₀ : Bool}

theorem Counts.mono {y : FlushChain} {seenAt : FlushSample}
    {request toggles toggles' : ℕ} (h : Counts c y seenAt request toggles)
    (hle : toggles ≤ toggles') : Counts c y seenAt request toggles' := by
  unfold Counts at h ⊢
  cases hs : c.state <;> rw [hs] at h <;> first | exact h | exact h.trans hle

/-! ## The evidence of the empty FIFOs -/

/-- The bits of a side on their way, the last one first: under a release none is left of
before, and behind it each is of an edge that saw both FIFOs empty. -/
def Fresh (c : FlushController) (r₂ r₁ r₀ now saw : Bool) : Prop :=
  (now = true → saw = true) ∧
    match c.state with
    | .waitTxClockBaseline =>
        r₀ = false ∧ (1 ≤ c.txClockBaselineWait → r₁ = false) ∧
          (2 ≤ c.txClockBaselineWait → r₂ = false)
    | .waitTxClock => r₂ = false ∧ r₁ = false ∧ r₀ = false
    | .releaseWait => r₂ = true ∨ r₁ = true ∨ r₀ = true → saw = true
    | .idle => c.released = true → saw = true
    | .assertClear | .held => True

theorem Fresh.sysClock {c' : FlushController} {y : FlushSample} {e : Bool}
    {now saw : Bool} (h : Fresh c r₂ r₁ r₀ now saw) (hl : c.Levels)
    (hnow : c.resetHold = true → now = false) (hm : c.Moves y x e c')
    (hr : (y.writeEmptyReady && y.readEmptyReady) = true → r₂ = true) :
    Fresh c' r₁ r₀ now (!c'.resetHold && now) (!c'.resetHold && saw) := by
  obtain ⟨hsaw, h⟩ := h
  refine ⟨fun hn => ?_, ?_⟩
  · obtain ⟨hhold, hn⟩ := Bool.and_eq_true_iff.mp hn
    rw [hhold, hsaw hn]
    rfl
  have hhold := hl.resetHold
  cases hm with
  | invalidates _ hhalf =>
      cases hs : c.state <;> rw [hs] at hhalf <;> first
        | trivial
        | exact fun hr => absurd hr Bool.false_ne_true
  | fallsBack _ _ | begins _ _ _ | cleared _ _ _ _ _ _ => trivial
  | rests _ hs _ =>
      rw [hs] at h
      dsimp only
      rw [hs]
      exact h
  | clearing _ hs | holds _ hs _ =>
      dsimp only
      rw [hs]
      trivial
  | requested _ hs _ =>
      rw [hs] at hhold
      exact ⟨hnow hhold, fun hw => absurd hw (Nat.not_succ_le_zero 0),
        fun hw => absurd hw (Nat.not_succ_le_zero 1)⟩
  | drains _ hs _ =>
      rw [hs] at h hhold
      obtain ⟨h₀, h₁, -⟩ := h
      dsimp only
      rw [hs]
      exact ⟨hnow hhold, fun _ => h₀, fun hw => h₁ (Nat.le_of_succ_le_succ hw)⟩
  | baseline _ hs hw =>
      rw [hs] at h hhold
      exact ⟨h.2.1 (by rw [hw]; decide), h.1, hnow hhold⟩
  | watches _ hs _ | counts _ hs _ _ =>
      rw [hs] at h hhold
      dsimp only
      rw [hs]
      exact ⟨h.2.1, h.2.2, hnow hhold⟩
  | releases _ hs _ _ =>
      rw [hs] at h hhold
      rintro (h₁ | h₀ | hn)
      · exact absurd (h.2.1.symm.trans h₁) Bool.false_ne_true
      · exact absurd (h.2.2.symm.trans h₀) Bool.false_ne_true
      · exact absurd ((hnow hhold).symm.trans hn) Bool.false_ne_true
  | waits _ hs _ =>
      rw [hs] at h
      dsimp only
      rw [hs]
      rintro (h₁ | h₀ | hn)
      · exact h (.inr (.inl h₁))
      · exact h (.inr (.inr h₀))
      · exact hsaw hn
  | completes _ hs hy =>
      rw [hs] at h
      exact fun _ => h (.inl (hr hy))

theorem Fresh.mono {now saw now' saw' : Bool}
    (h : Fresh c r₂ r₁ r₀ now saw) (hl : c.Levels) (hnow : now' = true → saw' = true)
    (hsaw : c.resetHold = false → saw = true → saw' = true) : Fresh c r₂ r₁ r₀ now' saw' := by
  obtain ⟨-, h⟩ := h
  refine ⟨hnow, ?_⟩
  have hhold := hl.resetHold
  cases hs : c.state <;> rw [hs] at h hhold <;> first
    | exact h
    | exact fun hr => hsaw hhold (h hr)

theorem EmptyEvidence.async_ready {aclr hold : Bool}
    (h : hold = true → aclr = true) (hr : (e.async aclr hold).emptyReady = true) :
    hold = false ∧ e.emptyReady = true := by
  cases hold with
  | true =>
      rw [h rfl, async_emptyReady] at hr
      exact absurd hr Bool.false_ne_true
  | false => exact ⟨rfl, (Bool.and_eq_true_iff.mp hr).2⟩

theorem EmptyEvidence.async_sawEmpty {aclr hold : Bool} :
    (e.async aclr hold).sawEmpty = (!hold && e.sawEmpty) := rfl

theorem EmptyEvidence.clock_ready {empty : Bool}
    (h : (e.clock empty).emptyReady = true) : (e.clock empty).sawEmpty = true := by
  unfold EmptyEvidence.clock at h ⊢
  simp only [Bool.and_eq_true] at h
  rw [h.1.1, h.2]
  exact Bool.or_true _

theorem fifoAclr_of_hold (h : s.ctl.resetHold = true) : s.fifoAclr = true := by
  unfold fifoAclr
  rw [h, Bool.or_true]

theorem Fresh.async {e' : EmptyEvidence}
    (h : Fresh s.ctl r₂ r₁ r₀ e.emptyReady e.sawEmpty) (hl : s.ctl.Levels)
    (hready : e'.emptyReady = true → e'.sawEmpty = true)
    (hsaw : e.sawEmpty = true → e'.sawEmpty = true) :
    Fresh s.ctl r₂ r₁ r₀ (e'.async s.fifoAclr s.ctl.resetHold).emptyReady
      (e'.async s.fifoAclr s.ctl.resetHold).sawEmpty := by
  refine h.mono hl ?_ ?_
  · intro hr
    obtain ⟨hhold, hr⟩ := EmptyEvidence.async_ready fifoAclr_of_hold hr
    rw [EmptyEvidence.async_sawEmpty, hhold, hready hr]
    rfl
  · intro hhold hs
    rw [EmptyEvidence.async_sawEmpty, hhold, hsaw hs]
    rfl

theorem Fresh.settle {aclr : Bool}
    (h : Fresh c r₂ r₁ r₀ (!c.resetHold && e.emptyReady) (!c.resetHold && e.sawEmpty))
    (hl : c.Levels) :
    Fresh c r₂ r₁ r₀ (e.async (aclr || c.resetHold) c.resetHold).emptyReady
      (e.async (aclr || c.resetHold) c.resetHold).sawEmpty := by
  refine h.mono hl ?_ fun _ hs => hs
  intro hr
  obtain ⟨hhold, hr⟩ :=
    EmptyEvidence.async_ready (fun hh => by rw [hh, Bool.or_true]) hr
  refine h.1 ?_
  rw [hhold, hr]
  rfl

/-! ## The invariant -/

structure Inv (s : TxFaultFlush α) : Prop where
  settled : s.Settled
  inOrder : s.InOrder
  levels : s.ctl.Levels
  counts : Counts s.ctl s.chain s.seenAt s.requestToggles s.toggles
  writeFresh : Fresh s.ctl s.chain.sync.writeEmptyReady s.chain.reg1.writeEmptyReady
    s.chain.reg0.writeEmptyReady s.writeSide.evidence.emptyReady s.writeSide.evidence.sawEmpty
  readFresh : Fresh s.ctl s.chain.sync.readEmptyReady s.chain.reg1.readEmptyReady
    s.chain.reg0.readEmptyReady s.readSide.evidence.emptyReady s.readSide.evidence.sawEmpty
  request : s.ctl.state.halfReleased = true → s.sawRequest = true
  flushing : s.flushing = s.ctl.busy
  /-- without a sample of the block, none is on its way -/
  block : s.ctl.busy = true → s.sawBlock = false →
    s.writeSide.writeBlockSeen = false ∧ s.chain.reg0.writeBlockSeen = false ∧
      s.chain.reg1.writeBlockSeen = false ∧ s.chain.sync.writeBlockSeen = false
  done : s.ctl.done = true → s.sawBlock = true ∧ s.sawIdle = true ∧ s.sawClear = true
  /-- the `tx_reset` that hit a release is on its way -/
  hit : ∀ k, s.hitFor = some k → s.ctl.state.halfReleased = true ∧
    true ∈ [s.txReset, s.chain.reg0.txReset, s.chain.reg1.txReset, s.chain.sync.txReset].drop k
  empty : s.ctl.busy = true → s.sampleFifo = [] ∧ s.metaFifo = []
  words : ∀ w ∈ s.sampleFifo ++ s.metaFifo, w.starts = s.starts
  reads : ∀ r ∈ s.reads, r.1.starts = r.2

theorem start_inv : ({} : TxFaultFlush α).Inv where
  settled := ⟨(fun h => by cases h), (fun _ => rfl), (fun _ => rfl), fun _ => ⟨rfl, rfl⟩⟩
  inOrder := ⟨.refl _, .refl _, .refl _, fun _ _ => rfl, fun _ _ => rfl, fun _ _ => rfl,
    fun h => by cases h⟩
  levels := ⟨rfl, rfl, rfl, fun _ => rfl⟩
  counts := trivial
  writeFresh := ⟨(fun h => by cases h), fun h => by cases h⟩
  readFresh := ⟨(fun h => by cases h), fun h => by cases h⟩
  request := fun h => by cases h
  flushing := rfl
  block := fun h => by cases h
  done := fun h => by cases h
  hit := fun k h => by cases h
  empty := fun _ => ⟨rfl, rfl⟩
  words := fun w h => by cases h
  reads := fun r h => by cases h

theorem settle_empty (h : s.sampleFifo = [] ∧ s.metaFifo = []) :
    s.settle.sampleFifo = [] ∧ s.settle.metaFifo = [] := by
  show (if s.fifoAclr then [] else s.sampleFifo) = [] ∧ (if s.fifoAclr then [] else s.metaFifo) = []
  rw [h.1, h.2, ite_self]
  exact ⟨rfl, rfl⟩

theorem mem_settle {w : FlushWord α} (h : w ∈ s.settle.sampleFifo ++ s.settle.metaFifo) :
    w ∈ s.sampleFifo ++ s.metaFifo := by
  change w ∈ (if s.fifoAclr then [] else s.sampleFifo) ++
    (if s.fifoAclr then [] else s.metaFifo) at h
  split at h
  · cases h
  · exact h

theorem written_starts {d : Option α} {w : FlushWord α} (h : w ∈ s.written d) :
    w.starts = s.starts := by
  unfold written at h
  split at h
  · cases h
  · obtain ⟨a, -, rfl⟩ := List.mem_map.mp h
    rfl

theorem written_blocked (h : s.writeSide.writeBlock = true) (d : Option α) : s.written d = [] :=
  if_pos h

theorem Inv.writeClock (h : s.Inv) (sample metadata : Option α) :
    (s.writeClock sample metadata).Inv where
  settled := settle_settled _
  inOrder := h.inOrder.writeClock sample metadata
  levels := h.levels
  counts := h.counts
  writeFresh := h.writeFresh.async h.levels EmptyEvidence.clock_ready fun hs => by
    show (s.writeSide.evidence.sawEmpty || _) = true
    rw [hs, Bool.true_or]
  readFresh := h.readFresh.async h.levels h.readFresh.1 id
  request := h.request
  flushing := h.flushing
  block := by
    intro hbusy hno
    have hsaw : (s.sawBlock || s.writeSide.writeBlock) = true := by
      rw [h.settled.blocked hbusy, Bool.or_true]
    exact absurd (hno.symm.trans hsaw) Bool.false_ne_true
  done := by
    intro hd
    obtain ⟨hblock, hrest⟩ := h.done hd
    refine ⟨?_, hrest⟩
    show (s.sawBlock || _) = true
    rw [hblock, Bool.true_or]
  hit := h.hit
  empty := by
    intro hbusy
    refine settle_empty ?_
    show s.sampleFifo ++ s.written sample = [] ∧ s.metaFifo ++ s.written metadata = []
    rw [(h.empty hbusy).1, (h.empty hbusy).2, written_blocked (h.settled.blocked hbusy),
      written_blocked (h.settled.blocked hbusy)]
    exact ⟨rfl, rfl⟩
  words := by
    intro w hw
    have hw := mem_settle hw
    change w ∈ (s.sampleFifo ++ s.written sample) ++ (s.metaFifo ++ s.written metadata) at hw
    simp only [List.mem_append] at hw
    rcases hw with (hw | hw) | hw | hw
    · exact h.words w (List.mem_append_left _ hw)
    · exact written_starts (s := s) hw
    · exact h.words w (List.mem_append_right _ hw)
    · exact written_starts (s := s) hw
  reads := h.reads

theorem Inv.txClock (h : s.Inv) (readSample readMeta : Bool) :
    (s.txClock readSample readMeta).Inv where
  settled := settle_settled _
  inOrder := h.inOrder.txClock readSample readMeta
  levels := h.levels
  counts := by
    refine h.counts.mono ?_
    show s.toggles ≤ if s.txReset then s.toggles else s.toggles + 1
    split
    · exact Nat.le_refl _
    · exact Nat.le_succ _
  writeFresh := h.writeFresh.async h.levels h.writeFresh.1 id
  readFresh := h.readFresh.async h.levels EmptyEvidence.clock_ready fun hs => by
    show (s.readSide.evidence.sawEmpty || _) = true
    rw [hs, Bool.true_or]
  request := h.request
  flushing := h.flushing
  block := by
    intro hbusy hno
    obtain ⟨hseen, hchain⟩ := h.block hbusy hno
    refine ⟨?_, hchain⟩
    show (_ && s.writeSide.writeBlockSeen) = false
    rw [hseen, Bool.and_false]
  done := h.done
  hit := h.hit
  empty := by
    intro hbusy
    refine settle_empty ?_
    show s.sampleFifo.drop _ = [] ∧ s.metaFifo.drop _ = []
    rw [(h.empty hbusy).1, (h.empty hbusy).2, List.drop_nil, List.drop_nil]
    exact ⟨rfl, rfl⟩
  words := by
    intro w hw
    have hw := mem_settle hw
    rcases List.mem_append.mp hw with hw | hw
    · exact h.words w (List.mem_append_left _ (List.mem_of_mem_drop hw))
    · exact h.words w (List.mem_append_right _ (List.mem_of_mem_drop hw))
  reads := by
    intro r hr
    change r ∈ s.reads ++ _ at hr
    rcases List.mem_append.mp hr with hr | hr
    · exact h.reads r hr
    · obtain ⟨w, hw, rfl⟩ := List.mem_map.mp hr
      refine h.words w ?_
      rcases List.mem_append.mp hw with hw | hw
      · exact List.mem_append_left _ (List.mem_of_mem_take hw)
      · exact List.mem_append_right _ (List.mem_of_mem_take hw)

theorem mem_drop_rise {a b c d : Bool} {k : ℕ} (h : true ∈ [a, b, c, d].drop k) :
    true ∈ [true, b, c, d].drop k := by
  cases k with
  | zero => exact List.mem_cons_self
  | succ k => exact h

theorem mem_drop_fall {a b c d : Bool} {k : ℕ} (h : true ∈ [a, b, c, d].drop k)
    (hsampled : a = true → b = true) : true ∈ [false, b, c, d].drop k := by
  cases k with
  | succ k => exact h
  | zero =>
      rcases List.mem_cons.mp h with ha | h
      · rw [hsampled ha.symm]
        exact List.mem_cons_of_mem _ List.mem_cons_self
      · exact List.mem_cons_of_mem _ h

theorem Inv.setTxReset (h : s.Inv) {level : Bool} (hok : s.Timely (.setTxReset level)) :
    (s.setTxReset level).Inv where
  settled := settle_settled _
  inOrder := h.inOrder.setTxReset hok
  levels := h.levels
  counts := h.counts
  writeFresh := h.writeFresh.async (s := { s with txReset := level }) h.levels h.writeFresh.1 id
  readFresh := h.readFresh.async (s := { s with txReset := level }) h.levels h.readFresh.1 id
  request := h.request
  flushing := h.flushing
  block := by
    intro hbusy hno
    obtain ⟨hseen, hchain⟩ := h.block hbusy hno
    refine ⟨?_, hchain⟩
    show (_ && s.writeSide.writeBlockSeen) = false
    rw [hseen, Bool.and_false]
  done := h.done
  hit := by
    intro k hk
    change (if level && s.ctl.state.halfReleased then some (s.hitFor.getD 0) else s.hitFor) =
      some k at hk
    show s.ctl.state.halfReleased = true ∧ true ∈ [level, s.chain.reg0.txReset,
      s.chain.reg1.txReset, s.chain.sync.txReset].drop k
    cases hhalf : s.ctl.state.halfReleased with
    | false =>
        rw [hhalf, Bool.and_false, if_neg Bool.false_ne_true] at hk
        exact absurd (hhalf.symm.trans (h.hit k hk).1) Bool.false_ne_true
    | true =>
        refine ⟨rfl, ?_⟩
        cases level with
        | true =>
            rw [hhalf, Bool.true_and, if_pos rfl, Option.some.injEq] at hk
            cases hhit : s.hitFor with
            | none =>
                rw [hhit] at hk
                subst hk
                exact List.mem_cons_self
            | some m =>
                rw [hhit] at hk
                obtain rfl : m = k := hk
                exact mem_drop_rise (h.hit m hhit).2
        | false => exact mem_drop_fall (h.hit k hk).2 (hok rfl)
  empty := fun hbusy => settle_empty (h.empty hbusy)
  words := by
    intro w hw
    have hw := mem_settle hw
    exact h.words w hw
  reads := h.reads

theorem takes_iff : s.takes x = true ↔
    s.chain.sync.txReset = false ∧ s.ctl.state = .idle ∧ x.start = true := by
  simp [takes, and_assoc]

theorem completes_iff : s.completes = true ↔ s.chain.sync.txReset = false ∧
    s.ctl.state = .releaseWait ∧
    (s.chain.sync.writeEmptyReady && s.chain.sync.readEmptyReady) = true := by
  simp [completes, and_assoc]

theorem Inv.sysClock_flushing (h : s.Inv) (hok : s.Timely (.sysClock x)) :
    (s.sysClock x).flushing = (s.ctl.clock s.chain.sync x).busy := by
  show (if s.takes x then true
    else if ((s.ctl.clock s.chain.sync x).released && !s.chain.reg1.txReset) &&
      !s.releaseComplete then false else s.flushing) = _
  obtain ⟨e, hm⟩ := s.ctl.clock_moves s.chain.sync x
  generalize s.ctl.clock s.chain.sync x = c at hm
  have hbusy := h.levels.busy
  have hreleased := h.levels.released
  have hnot : s.ctl.state ≠ .idle → s.takes x = false ∧ s.ctl.released = false := by
    intro hs
    refine ⟨?_, ?_⟩
    · by_contra hno
      exact hs (takes_iff.mp (Bool.not_eq_false _ ▸ hno)).2.1
    · by_contra hno
      exact hs (hreleased (Bool.not_eq_false _ ▸ hno))
  cases hm with
  | invalidates hr hhalf =>
      have htakes : s.takes x = false := by
        unfold takes
        rw [hr]
        rfl
      rw [htakes, h.flushing]
      rfl
  | fallsBack hr hhalf =>
      obtain ⟨htakes, -⟩ := hnot (by intro hs; rw [hs] at hhalf; cases hhalf)
      rw [htakes, h.flushing, hbusy]
      cases hs : s.ctl.state <;> rw [hs] at hhalf <;> first | rfl | cases hhalf
  | begins hr hs hx => rw [takes_iff.mpr ⟨hr, hs, hx⟩, if_pos rfl]
  | rests hr hs hx =>
      rw [h.flushing, hbusy, hs]
      have htakes : s.takes x = false := by
        unfold takes
        rw [hx, Bool.and_false]
      rw [htakes, if_neg Bool.false_ne_true]
      exact ite_self _
  | clearing _ hs | cleared _ hs _ _ _ _ | holds _ hs _ | requested _ hs _ | drains _ hs _
  | baseline _ hs _ | watches _ hs _ | counts _ hs _ _ | releases _ hs _ _ | waits _ hs _ =>
      obtain ⟨htakes, hno⟩ := hnot (by rw [hs]; decide)
      rw [htakes, hno, h.flushing, hbusy, hs]
      rfl
  | completes hr hs hy =>
      obtain ⟨htakes, hno⟩ := hnot (by rw [hs]; decide)
      obtain ⟨-, -, hreg⟩ := hok.1 (completes_iff.mpr ⟨hr, hs, hy⟩)
      unfold releaseComplete
      rw [htakes, hno, hreg]
      rfl

theorem done_moves {c' : FlushController} {y : FlushSample} {e : Bool}
    (hl : c.Levels) (hm : c.Moves y x e c') (hd : c'.done = true) :
    c.done = true ∨ c.state = .assertClear ∧ y.writeBlockSeen = true ∧
      y.writeEmptyReady = false ∧ y.readEmptyReady = false ∧ x.gpifIdle = true := by
  have hdone := hl.done
  cases hm with
  | invalidates _ _ | clearing _ _ => exact .inl hd
  | fallsBack _ hhalf =>
      refine .inl ?_
      rw [hdone]
      cases hs : c.state <;> rw [hs] at hhalf <;> first | rfl | cases hhalf
  | begins _ _ _ | rests _ _ _ | completes _ _ _ => cases hd
  | cleared _ hs hblock hwrite hread hidle => exact .inr ⟨hs, hblock, hwrite, hread, hidle⟩
  | holds _ hs _ | requested _ hs _ | drains _ hs _ | baseline _ hs _ | watches _ hs _
  | counts _ hs _ _ | releases _ hs _ _ | waits _ hs _ => exact .inl (by rw [hdone, hs]; rfl)

theorem hit_moves {c' : FlushController} {y : FlushSample} {e : Bool}
    (hm : c.Moves y x e c') (hhalf : c.state.halfReleased = true)
    (hno : ¬(y.txReset = false ∧ c.state = .releaseWait ∧
      (y.writeEmptyReady && y.readEmptyReady) = true)) :
    c'.state = .held ∨ c'.state.halfReleased = true ∧ y.txReset = false := by
  cases hm with
  | invalidates _ hhalf' => exact absurd (hhalf.symm.trans hhalf') (by decide)
  | fallsBack _ _ => exact .inl rfl
  | begins _ hs _ | rests _ hs _ | clearing _ hs | cleared _ hs _ _ _ _ | holds _ hs _
  | requested _ hs _ =>
      rw [hs] at hhalf
      cases hhalf
  | drains hr _ _ | watches hr _ _ | counts hr _ _ _ | waits hr _ _ => exact .inr ⟨hhalf, hr⟩
  | baseline hr _ _ | releases hr _ _ _ => exact .inr ⟨rfl, hr⟩
  | completes hr hs hy => exact absurd ⟨hr, hs, hy⟩ hno

theorem Inv.busy_before (h : s.Inv) (hok : s.Timely (.sysClock x))
    (hbusy : (s.ctl.clock s.chain.sync x).busy = true) (htakes : s.takes x = false) :
    s.ctl.busy = true := by
  have hflushing := h.sysClock_flushing hok
  change (if s.takes x then true else if _ then false else s.flushing) = _ at hflushing
  rw [htakes, if_neg Bool.false_ne_true, hbusy] at hflushing
  split at hflushing
  · cases hflushing
  · exact h.flushing.symm.trans hflushing

theorem takes_clock (h : s.takes x = true) :
    (s.ctl.clock s.chain.sync x).resetHold = true ∧
      (s.ctl.clock s.chain.sync x).state = .assertClear := by
  obtain ⟨hr, hs, hx⟩ := takes_iff.mp h
  unfold FlushController.clock
  rw [hr, hs, hx]
  exact ⟨rfl, rfl⟩

theorem request_moves {e : Bool}
    (hm : s.ctl.Moves s.chain.sync x e c) (hhalf : c.state.halfReleased = true) :
    s.ctl.state.halfReleased = true ∨ s.requested x = true := by
  cases hm with
  | requested hr hs hx =>
      refine .inr ?_
      unfold requested
      rw [hr, hs, hx]
      rfl
  | fallsBack _ _ | begins _ _ _ | cleared _ _ _ _ _ _ | completes _ _ _ => cases hhalf
  | invalidates _ _ | rests _ _ _ | clearing _ _ | holds _ _ _ | drains _ _ _ | watches _ _ _
  | counts _ _ _ _ | waits _ _ _ => exact .inl hhalf
  | baseline _ hs _ | releases _ hs _ _ => exact .inl (by rw [hs]; rfl)

theorem mem_drop_shift {a b c : Bool} {k : ℕ} (h : true ∈ [a, b, c, false].drop k) :
    true ∈ [a, a, b, c].drop (k + 1) := by
  rcases k with _ | _ | _ | _ | k <;> simp_all

theorem Inv.sysClock (h : s.Inv) (hok : s.Timely (.sysClock x)) :
    (s.sysClock x).Inv where
  settled := settle_settled _
  inOrder := h.inOrder.sysClock x
  levels := by
    obtain ⟨e, hm⟩ := s.ctl.clock_moves s.chain.sync x
    exact h.levels.moves hm
  counts := h.counts.sysClock h.inOrder x
  writeFresh := by
    obtain ⟨e, hm⟩ := s.ctl.clock_moves s.chain.sync x
    have hfresh := h.writeFresh.sysClock h.levels h.settled.writeReady hm fun hy =>
      (Bool.and_eq_true_iff.mp hy).1
    exact hfresh.settle (h.levels.moves hm)
  readFresh := by
    obtain ⟨e, hm⟩ := s.ctl.clock_moves s.chain.sync x
    have hfresh := h.readFresh.sysClock h.levels h.settled.readReady hm fun hy =>
      (Bool.and_eq_true_iff.mp hy).2
    exact hfresh.settle (h.levels.moves hm)
  request := by
    intro hhalf
    obtain ⟨e, hm⟩ := s.ctl.clock_moves s.chain.sync x
    have htakes : s.takes x = false := by
      by_contra hno
      have hstate := (takes_clock (Bool.not_eq_false _ ▸ hno)).2
      change (s.ctl.clock s.chain.sync x).state.halfReleased = true at hhalf
      rw [hstate] at hhalf
      cases hhalf
    show (!s.takes x && (s.sawRequest || s.requested x)) = true
    rw [htakes, Bool.not_false, Bool.true_and, Bool.or_eq_true]
    exact (request_moves hm hhalf).imp h.request id
  flushing := h.sysClock_flushing hok
  block := by
    intro hbusy hno
    change (!s.takes x && s.sawBlock) = false at hno
    show (_ && s.writeSide.writeBlockSeen) = false ∧ s.writeSide.writeBlockSeen = false ∧
      s.chain.reg0.writeBlockSeen = false ∧ s.chain.reg1.writeBlockSeen = false
    have hseen : s.writeSide.writeBlockSeen = false ∧ s.chain.reg0.writeBlockSeen = false ∧
        s.chain.reg1.writeBlockSeen = false := by
      cases htakes : s.takes x with
      | true => exact hok.2 htakes
      | false =>
          rw [htakes, Bool.not_false, Bool.true_and] at hno
          obtain ⟨hseen, hreg0, hreg1, -⟩ := h.block (h.busy_before hok hbusy htakes) hno
          exact ⟨hseen, hreg0, hreg1⟩
    rw [hseen.1, Bool.and_false]
    exact ⟨rfl, rfl, hseen.2⟩
  done := by
    intro hd
    obtain ⟨e, hm⟩ := s.ctl.clock_moves s.chain.sync x
    have hbusy : s.ctl.state ≠ .idle → s.takes x = false := by
      intro hs
      by_contra hno
      exact hs (takes_iff.mp (Bool.not_eq_false _ ▸ hno)).2.1
    show (!s.takes x && s.sawBlock) = true ∧ (!s.takes x && (s.sawIdle || x.gpifIdle)) = true ∧
      (!s.takes x && (s.sawClear ||
        !s.chain.sync.writeEmptyReady && !s.chain.sync.readEmptyReady)) = true
    rcases done_moves h.levels hm hd with hdone | ⟨hs, hblock, hwrite, hread, hidle⟩
    · obtain ⟨hsaw, hgpif, hclear⟩ := h.done hdone
      have hs : s.ctl.state ≠ .idle := by
        intro hs
        have := h.levels.done
        rw [hdone, hs] at this
        cases this
      rw [hbusy hs, hsaw, hgpif, hclear]
      exact ⟨rfl, rfl, rfl⟩
    · have hsaw : s.sawBlock = true := by
        by_contra hno
        have hb : s.ctl.busy = true := by
          rw [h.levels.busy, hs]
          rfl
        have := (h.block hb (Bool.not_eq_true _ ▸ hno)).2.2.2
        exact Bool.false_ne_true (this.symm.trans hblock)
      rw [hbusy (by rw [hs]; decide), hsaw, hidle, hwrite, hread, Bool.or_true, Bool.not_false,
        Bool.and_true, Bool.or_true]
      exact ⟨rfl, rfl, rfl⟩
  hit := by
    intro k hk
    obtain ⟨e, hm⟩ := s.ctl.clock_moves s.chain.sync x
    change (if (s.ctl.clock s.chain.sync x).state == .held then none
      else s.hitFor.map (· + 1)) = some k at hk
    show (s.ctl.clock s.chain.sync x).state.halfReleased = true ∧
      true ∈ [s.txReset, s.txReset, s.chain.reg0.txReset, s.chain.reg1.txReset].drop k
    split at hk
    · cases hk
    · rename_i hheld
      obtain ⟨m, hm', rfl⟩ := Option.map_eq_some_iff.mp hk
      obtain ⟨hhalf, hmem⟩ := h.hit m hm'
      have hno : ¬(s.chain.sync.txReset = false ∧ s.ctl.state = .releaseWait ∧
          (s.chain.sync.writeEmptyReady && s.chain.sync.readEmptyReady) = true) := by
        intro hcompletes
        obtain ⟨hpin, hreg0, hreg1⟩ := hok.1 (completes_iff.mpr hcompletes)
        rw [hpin, hreg0, hreg1, hcompletes.1] at hmem
        simpa using List.mem_of_mem_drop hmem
      rcases hit_moves hm hhalf hno with hs | ⟨hhalf', hsync⟩
      · exact absurd (beq_iff_eq.mpr hs) hheld
      · rw [hsync] at hmem
        exact ⟨hhalf', mem_drop_shift hmem⟩
  empty := by
    intro hbusy
    cases htakes : s.takes x with
    | false => exact settle_empty (h.empty (h.busy_before hok hbusy htakes))
    | true =>
        exact (settle_settled _).cleared (fifoAclr_of_hold (s := s.sysClock x) (takes_clock htakes).1)
  words := by
    intro w hw
    cases htakes : s.takes x with
    | true =>
        have hclear : (s.sysClock x).sampleFifo = [] ∧ (s.sysClock x).metaFifo = [] :=
          (settle_settled _).cleared
            (fifoAclr_of_hold (s := s.sysClock x) (takes_clock htakes).1)
        rw [hclear.1, hclear.2] at hw
        cases hw
    | false =>
        have hw := mem_settle hw
        have hstarts : (s.sysClock x).starts = if s.takes x then s.starts + 1 else s.starts := rfl
        rw [hstarts, htakes]
        exact h.words w hw
  reads := h.reads

theorem Inv.step {s' : TxFaultFlush α} (h : s.Inv) {a : Act α} (hok : s.Timely a)
    (hs : s.step a = some s') : s'.Inv := by
  cases a with
  | sysClock x =>
      cases hs
      exact h.sysClock hok
  | writeClock sample metadata =>
      cases hs
      exact h.writeClock sample metadata
  | txClock readSample readMeta =>
      cases hs
      exact h.txClock readSample readMeta
  | setTxReset level =>
      cases hs
      exact h.setTxReset hok

/-! ## The barrier -/

structure Barrier (s : TxFaultFlush α) : Prop where
  busy : s.flushing = true → s.ctl.busy = true
  /-- all since the start -/
  done : s.ctl.done = true → s.sawBlock = true ∧ s.sawIdle = true ∧ s.sawClear = true
  clear : s.flushing = true → s.fifoAclr = false →
    s.sawRequest = true ∧ s.requestToggles + 3 ≤ s.toggles
  /-- both since the clear ended -/
  release : s.releaseComplete = true →
    s.writeSide.evidence.sawEmpty = true ∧ s.readSide.evidence.sawEmpty = true
  /-- a `tx_reset` in a release puts the barrier back to HELD within four sys clocks,
  and no release completes before -/
  returns : ∀ k, s.hitFor = some k → k < 4 ∧ s.flushing = true
  held : s.ctl.state = .held → s.fifoAclr = true
  certificate : s.flushing = true → s.releaseComplete = false
  /-- a word read is of the time since the last start -/
  fresh : ∀ r ∈ s.reads, r.1.starts = r.2

theorem Inv.barrier (h : s.Inv) : s.Barrier where
  busy := fun hf => h.flushing.symm.trans hf
  done := h.done
  clear := by
    intro hf haclr
    have hbusy := h.levels.busy.symm.trans (h.flushing.symm.trans hf)
    have hhold := (Bool.or_eq_false_iff.mp haclr).2
    rw [h.levels.resetHold] at hhold
    have hcounts := h.counts
    have hrequest := h.request
    unfold Counts at hcounts
    cases hs : s.ctl.state <;> rw [hs] at hbusy hhold hcounts hrequest <;>
      first
        | exact ⟨hrequest rfl, hcounts⟩
        | exact absurd hbusy (by decide)
        | exact absurd hhold (by decide)
  release := by
    intro hc
    have hreleased := (Bool.and_eq_true_iff.mp hc).1
    have hs := h.levels.released hreleased
    have hwrite := h.writeFresh.2
    have hread := h.readFresh.2
    rw [hs] at hwrite hread
    exact ⟨hwrite hreleased, hread hreleased⟩
  returns := by
    intro k hk
    obtain ⟨hhalf, hmem⟩ := h.hit k hk
    refine ⟨?_, ?_⟩
    · by_contra hle
      rw [List.drop_eq_nil_of_le (Nat.le_of_not_lt hle)] at hmem
      cases hmem
    · rw [h.flushing, h.levels.busy]
      cases hs : s.ctl.state <;> rw [hs] at hhalf <;> first | rfl | cases hhalf
  held := by
    intro hs
    refine fifoAclr_of_hold ?_
    rw [h.levels.resetHold, hs]
    rfl
  certificate := by
    intro hf
    have hbusy := h.levels.busy.symm.trans (h.flushing.symm.trans hf)
    cases hr : s.ctl.released with
    | true =>
        rw [h.levels.released hr] at hbusy
        exact absurd hbusy (by decide)
    | false =>
        unfold releaseComplete
        rw [hr]
        rfl
  fresh := h.reads

/-- The barrier holds in every run whose steps are timely. -/
theorem txFifoFaultFlush_holds {acts : List (Act α)}
    (h : Lib.Steps step Timely ({} : TxFaultFlush α) acts s) : s.Barrier :=
  (h.invariant start_inv fun h hok hs => h.step hok hs).barrier

instance (s : TxFaultFlush α) : (a : Act α) → Decidable (s.Timely a)
  | .sysClock _ => inferInstanceAs (Decidable ((_ → _ ∧ _ ∧ _) ∧ (_ → _ ∧ _ ∧ _)))
  | .setTxReset _ => inferInstanceAs (Decidable (_ → _ → _))
  | .writeClock _ _ | .txClock _ _ => inferInstanceAs (Decidable True)

section Runs

/-- `k` edges of each clock, with the inputs of the controller. -/
def ticks (k : ℕ) (x : FlushInput) : List (Act ℕ) :=
  (List.replicate k [.txClock true true, .writeClock none none, .sysClock x]).flatten

/-- A word in each FIFO, a flush to HELD, and a release request. -/
def flushed : List (Act ℕ) :=
  (List.replicate 5 [.txClock true true, .writeClock none none]).flatten ++
    [.writeClock (some 7) (some 8)] ++ ticks 1 { start := true } ++ ticks 5 { gpifIdle := true } ++
    ticks 1 { releaseRequest := true }

/-- The release is hit by a `tx_reset`, and comes through when asked for again. -/
def releasedTwice : List (Act ℕ) :=
  flushed ++ ticks 8 {} ++ [.setTxReset true] ++ ticks 4 {} ++ [.setTxReset false] ++ ticks 4 {} ++
    ticks 1 { releaseRequest := true } ++ ticks 15 {}

/-- A `tx_reset` three sys clocks before the release completes. -/
def resetAtRelease : List (Act ℕ) :=
  flushed ++ ticks 12 {} ++ [.setTxReset true] ++ ticks 3 {}

/-- The release is certified by edges that saw both FIFOs empty. -/
theorem txFifoFaultFlush_holds_releasedTwice :
    ∃ s, Lib.Steps step Timely ({} : TxFaultFlush ℕ) releasedTwice s ∧
      s.releaseComplete = true ∧ s.ctl.busy = false ∧
      s.writeSide.evidence.sawEmpty = true ∧ s.readSide.evidence.sawEmpty = true := by
  have hrun : (Lib.exec step Timely ({} : TxFaultFlush ℕ) releasedTwice).any
      (fun s => s.releaseComplete = true ∧ s.ctl.busy = false) = true := by
    decide +kernel
  obtain ⟨s, hs, hstate⟩ := (Option.any_eq_true ..).mp hrun
  obtain ⟨hcomplete, hbusy⟩ := of_decide_eq_true hstate
  exact ⟨s, .of_exec hs, hcomplete, hbusy, (txFifoFaultFlush_holds (.of_exec hs)).release hcomplete⟩

/-- The barrier is down, and no release was certified. -/
theorem txFifoFaultFlush_drops :
    ¬∀ acts (s : TxFaultFlush ℕ), Lib.Steps step (fun _ _ => True) {} acts s → s.Barrier := by
  intro h
  have hrun : (Lib.exec step (fun _ _ => True) ({} : TxFaultFlush ℕ) resetAtRelease).any
      (fun s => s.flushing = true ∧ s.ctl.busy = false) = true := by
    decide +kernel
  obtain ⟨s, hs, hstate⟩ := (Option.any_eq_true ..).mp hrun
  obtain ⟨hflushing, hbusy⟩ := of_decide_eq_true hstate
  have hup := (h _ s (.of_exec hs)).busy hflushing
  exact absurd (hbusy.symm.trans hup) Bool.false_ne_true

end Runs

end TxFaultFlush

end BladeRF
