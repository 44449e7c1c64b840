/-
# `Fpga.Gpif` — the GPIF state machine

`fx3_gpif` moves DMA buffers between the FX3 and four FIFOs.  Every signal of
the design is a register or a function of registers and inputs, so a clock edge
is one function: `Gpif.clock` computes every register from the values before
the edge, process by process.

`GpifSystem` closes the design with its queues.  The other sides of the queues,
the host lines and the words on the bus are inputs.
-/
import BladeRF.Lib.Dcfifo
import Mathlib.Data.BitVec

namespace BladeRF
namespace Gpif

abbrev Dword := BitVec 32

/-! ## `fx3_gpif_p` -/

def gpifBufSizeHs : ℕ := 1024
def gpifBufSizeSs : ℕ := 2048

def fifoHasRoom (used : ℕ) (full : Bool) (depth buf : ℕ) : Bool :=
  !full && decide ((used : ℤ) < depth - buf)

def fifoIsCritical (used : ℕ) (full : Bool) (depth buf : ℕ) : Bool :=
  full || decide ((used : ℤ) ≥ depth - buf)

/-! ## Types of the architecture -/

/-- `state_t` -/
inductive State
  | idle
  | setupRd
  | metaRead
  | sampleRead
  | setupWr
  | metaWrite
  | sampleWrite
  | sampleWriteIgnore
  | finished
  deriving DecidableEq

/-- `gpif_mode_t` -/
inductive Mode
  | idle
  | rx
  | rxMeta
  | rxIgnore
  | tx
  | txMeta
  | txIgnore
  deriving DecidableEq

/-- `dma_channel_t` -/
inductive DmaChannel
  | rx0
  | rx1
  | tx2
  | tx3

/-- `dma_handshake_t` -/
structure DmaHandshake where
  rx0 : Bool := false
  rx1 : Bool := false
  tx2 : Bool := false
  tx3 : Bool := false

def acknowledge : DmaChannel → DmaHandshake
  | .rx0 => { rx0 := true }
  | .rx1 => { rx1 := true }
  | .tx2 => { tx2 := true }
  | .tx3 => { tx3 := true }

def ackDowncountRead : ℕ := 2
def ackDowncountWrite : ℕ := 4
def metaDowncountReset : ℤ := 4
def finiDowncountReset : ℕ := 10

/-- `meta_buf`: four dwords, of which `w3` is the bits 127 to 96. -/
structure MetaBuf where
  w3 : Dword := 0
  w2 : Dword := 0
  w1 : Dword := 0
  w0 : Dword := 0

/-- `meta_buf(95 downto 0) & w` -/
def MetaBuf.shift (b : MetaBuf) (w : Dword) : MetaBuf := ⟨b.w2, b.w1, b.w0, w⟩

/-- `fsm_t`; the defaults are `FSM_RESET_VALUE`. -/
structure Fsm where
  state : State := .idle
  gpifMode : Mode := .idle
  dmaIdle : Bool := false
  rxMetaEn : Bool := false
  txMetaEn : Bool := false
  rxFifoRd : Bool := false
  txFifoWr : Bool := false
  rxmFifoRd : Bool := false
  txmFifoWr : Bool := false
  underrunSet : Bool := false
  underrunClr : Bool := true
  finishingRx : Bool := false
  metaDword : Dword := 0
  ackDowncount : ℕ := 0
  dmaDowncount : ℤ := 0
  metaDowncount : ℤ := 0
  finiDowncount : ℕ := 0
  txTimestamp : BitVec 64 := 0
  metaBuf : MetaBuf := {}
  dmaAcks : DmaHandshake := {}
  rxCurrentDma : DmaChannel := .rx0
  txCurrentDma : DmaChannel := .tx3

/-! ## Ports -/

structure Config where
  usbSpeed : Bool
  metaEnable : Bool
  packetEnable : Bool

/-- The lines of the FX3 and of the TX side.  The request lines are active low. -/
structure Pins where
  gpifIn : Dword := 0
  dmaRxEnable : Bool := true
  dmaTxEnable : Bool := true
  dmaIdle : Bool := true
  dma0RxReqx : Bool := true
  dma1RxReqx : Bool := true
  dma2TxReqx : Bool := true
  dma3TxReqx : Bool := true
  txFaultStop : Bool := false
  txTimestamp : BitVec 64 := 0

structure FifoPorts where
  txFifoFull : Bool
  txFifoUsedw : ℕ
  txMetaFifoUsedw : ℕ
  rxFifoFull : Bool
  rxFifoUsedw : ℕ
  rxFifoData : Dword
  rxMetaFifoEmpty : Bool
  rxMetaFifoData : Dword

/-- The generics and the widths of the count ports.  A width counts the whole
FIFO, and an assertion of the architecture rejects an RX FIFO that holds no
SuperSpeed block. -/
structure Generics where
  txFifoWords : ℕ
  rxFifoWords : ℕ
  txFifoUsedwBits : ℕ
  rxFifoUsedwBits : ℕ
  txMetaFifoUsedwBits : ℕ
  rxMetaFifoWords : ℕ
  lag : ℕ
  tx_fits : txFifoWords ≤ 2 ^ txFifoUsedwBits
  rx_fits : rxFifoWords ≤ 2 ^ rxFifoUsedwBits
  rx_holds : gpifBufSizeSs < if rxFifoWords ≠ 0 then rxFifoWords else 2 ^ rxFifoUsedwBits
  lag_le : lag ≤ 3

def depthOr (words usedwBits : ℕ) : ℕ := if words ≠ 0 then words else 2 ^ usedwBits

def Generics.txDepth (e : Generics) : ℕ := depthOr e.txFifoWords e.txFifoUsedwBits
def Generics.rxDepth (e : Generics) : ℕ := depthOr e.rxFifoWords e.rxFifoUsedwBits
def Generics.txMetaDepth (e : Generics) : ℕ := 2 ^ e.txMetaFifoUsedwBits

end Gpif

open Gpif

/-- `set_clear_ff`: both inputs act on their rising edge, and set wins. -/
structure SetClearFf where
  q : Bool := false
  setR : Bool := false
  clrR : Bool := false

def SetClearFf.clock (f : SetClearFf) (set clear : Bool) : SetClearFf where
  q := if !f.setR && set then true else if !f.clrR && clear then false else f.q
  setR := set
  clrR := clear

structure Gpif where
  current : Fsm := {}
  underrun : SetClearFf := {}
  txFaultIdle : Bool := false
  gpifBufSize : ℕ := gpifBufSizeSs
  rxFifoEnough : Bool := false
  rxFifoCritical : Bool := false
  txFifoEnough : Bool := false
  gpifOe : Bool := true
  gpifOut : Dword := 0
  txFifoData : Dword := 0
  txMetaFifoData : Dword := 0
  canRx : Bool := false
  canTx : Bool := false

namespace Gpif

/-! ## `fsm_comb_proc` -/

def Fsm.parsing (current : Fsm) : Bool :=
  current.state = .setupWr || current.state = .metaWrite || current.state = .sampleWrite ||
    current.state = .sampleWriteIgnore || (current.state = .finished && !current.finishingRx)

def Fsm.defaults (current : Fsm) (k : Config) (p : Pins) : Fsm :=
  { current with
    rxFifoRd := false
    txFifoWr := false
    rxmFifoRd := false
    txmFifoWr := false
    underrunSet := false
    underrunClr := false
    dmaAcks := {}
    dmaIdle := p.dmaIdle
    txTimestamp := p.txTimestamp
    rxMetaEn := k.metaEnable
    txMetaEn := k.metaEnable }

/-- `if tx_fault_stop = '1' and …` -/
def Fsm.whenStopped (future : Fsm) : Fsm :=
  { future with
    state := .idle
    gpifMode := .idle
    dmaAcks := {}
    txFifoWr := false
    txmFifoWr := false
    dmaDowncount := -1
    metaDowncount := metaDowncountReset }

/-- `when IDLE`: TX goes first unless RX is about to overflow. -/
def whenIdle (p : Pins) (gpifBufSize : ℕ) (canRx rxFifoCritical canTx : Bool)
    (current future : Fsm) : Fsm :=
  let future := { future with
    gpifMode := .idle
    metaBuf := {}
    metaDowncount := metaDowncountReset
    finiDowncount := finiDowncountReset
    finishingRx := false }
  if current.dmaIdle then
    let future := { future with dmaDowncount := gpifBufSize - 1 }
    if canRx && rxFifoCritical then
      { future with ackDowncount := ackDowncountRead, rxCurrentDma := .rx0, state := .setupRd }
    else if canTx && !p.txFaultStop then
      { future with ackDowncount := ackDowncountWrite, txCurrentDma := .tx3, state := .setupWr }
    else if canRx then
      { future with ackDowncount := ackDowncountRead, rxCurrentDma := .rx0, state := .setupRd }
    else future
  else future

def whenSetupRd (k : Config) (rxMetaFifoData : Dword) (current future : Fsm) : Fsm :=
  let future :=
    if !current.rxMetaEn then { future with gpifMode := .rx, rxFifoRd := true }
    else { future with gpifMode := .rxMeta, rxmFifoRd := true }
  let nextState := if !current.rxMetaEn then State.sampleRead else State.metaRead
  { future with
    dmaAcks :=
      if current.ackDowncount ≠ ackDowncountRead then acknowledge current.rxCurrentDma
      else future.dmaAcks
    metaDword :=
      if k.packetEnable && current.ackDowncount == 1 then rxMetaFifoData else future.metaDword
    state := if current.ackDowncount = 0 then nextState else current.state
    ackDowncount := current.ackDowncount - 1
    dmaDowncount := max (current.dmaDowncount - 1) (-1)
    metaDowncount := max (current.metaDowncount - 1) (-1) }

def packetLength (w : Dword) : ℤ := (w.extractLsb' 0 16).toNat

def whenMetaRead (k : Config) (current future : Fsm) : Fsm :=
  { future with
    gpifMode := .rxMeta
    rxmFifoRd := true
    state := if current.metaDowncount = 1 then .sampleRead else future.state
    dmaDowncount :=
      if !k.packetEnable then max (current.dmaDowncount - 1) (-1)
      else if current.metaDowncount = 1 then
        packetLength current.metaDword - 1 + (current.metaDword.getLsbD 0).toNat
      else future.dmaDowncount
    metaDowncount := max (current.metaDowncount - 1) (-1) }

def whenSampleRead (k : Config) (current future : Fsm) : Fsm :=
  { future with
    gpifMode :=
      if k.packetEnable && decide (current.dmaDowncount = 0) && current.metaDword.getLsbD 0 then
        .idle
      else .rx
    rxFifoRd := true
    finishingRx := true
    underrunClr := true
    state := if current.dmaDowncount = 0 then .finished else future.state
    dmaDowncount := max (current.dmaDowncount - 1) (-1) }

def whenSetupWr (current future : Fsm) : Fsm :=
  let future := { future with
    dmaAcks := acknowledge current.txCurrentDma
    gpifMode := if current.ackDowncount ≠ ackDowncountWrite then .txIgnore else future.gpifMode
    ackDowncount := current.ackDowncount - 1 }
  if current.ackDowncount = 0 then
    if !current.txMetaEn then { future with state := .sampleWrite, gpifMode := .tx }
    else { future with state := .metaWrite, gpifMode := .txMeta }
  else future

/-- The test in `META_WRITE`, when three of the four header dwords are in the
buffer: the time is zero or far enough ahead. -/
def MetaBuf.admits (b : MetaBuf) (txTimestamp : BitVec 64) : Bool :=
  (b.w1 ++ b.w0 : BitVec 64) == 0 || decide (txTimestamp + 32 < (b.w0 ++ b.w1 : BitVec 64))

def whenMetaWrite (k : Config) (p : Pins) (current future : Fsm) : Fsm :=
  let future := { future with
    gpifMode := .txIgnore
    metaBuf := current.metaBuf.shift p.gpifIn
    dmaDowncount := max (current.dmaDowncount - 1) (-1)
    metaDowncount := max (current.metaDowncount - 1) (-1)
    metaDword :=
      if decide (current.metaDowncount = 4) && k.packetEnable then p.gpifIn else future.metaDword }
  if current.metaDowncount = 1 then
    let future := { future with
      dmaDowncount :=
        if k.packetEnable then
          packetLength current.metaDword - (!current.metaDword.getLsbD 0).toNat
        else future.dmaDowncount }
    if current.metaBuf.admits current.txTimestamp then
      { future with metaDowncount := metaDowncountReset, state := .sampleWrite }
    else { future with state := .sampleWriteIgnore }
  else future

/-- `when SAMPLE_WRITE`: the header is flushed while the samples already flow. -/
def whenSampleWrite (k : Config) (current future : Fsm) : Fsm :=
  let future := { future with
    txFifoWr := true
    gpifMode := if !current.txMetaEn then .tx else .txMeta
    state := if current.dmaDowncount = 0 then .finished else future.state
    dmaDowncount := max (current.dmaDowncount - 1) (-1) }
  if k.metaEnable && decide (current.metaDowncount > 0) &&
      (!k.packetEnable || decide (current.dmaDowncount < 6)) then
    { future with
      metaDowncount := max (current.metaDowncount - 1) (-1)
      txmFifoWr := current.txMetaEn
      metaBuf := current.metaBuf.shift 0 }
  else future

def whenSampleWriteIgnore (current future : Fsm) : Fsm :=
  { future with
    gpifMode := .txIgnore
    underrunSet := true
    state := if current.dmaDowncount = 0 then .finished else future.state
    dmaDowncount := max (current.dmaDowncount - 1) (-1) }

def whenFinished (k : Config) (current future : Fsm) : Fsm :=
  { future with
    gpifMode := .idle
    finiDowncount := current.finiDowncount - 1
    dmaAcks :=
      if k.packetEnable && current.finishingRx && current.finiDowncount == 8 then
        acknowledge current.rxCurrentDma
      else future.dmaAcks
    state := if current.finiDowncount = 0 then .idle else future.state }

def fsmCombProc (k : Config) (p : Pins) (gpifBufSize : ℕ) (canRx rxFifoCritical canTx : Bool)
    (rxMetaFifoData : Dword) (current : Fsm) : Fsm :=
  let future := current.defaults k p
  if p.txFaultStop && current.parsing then future.whenStopped
  else match current.state with
    | .idle => whenIdle p gpifBufSize canRx rxFifoCritical canTx current future
    | .setupRd => whenSetupRd k rxMetaFifoData current future
    | .metaRead => whenMetaRead k current future
    | .sampleRead => whenSampleRead k current future
    | .setupWr => whenSetupWr current future
    | .metaWrite => whenMetaWrite k p current future
    | .sampleWrite => whenSampleWrite k current future
    | .sampleWriteIgnore => whenSampleWriteIgnore current future
    | .finished => whenFinished k current future

/-! ## The clocked processes -/

/-- The last header dword carries the underrun flag and its complement. -/
def reportUnderrun (w : Dword) (underrun : Bool) : Dword :=
  w.extractLsb' 16 16 ++ (0 : BitVec 14) ++ BitVec.ofBool (!underrun) ++ BitVec.ofBool underrun

/-- What `gpif_mux` puts on the bus, if it drives the bus. -/
def gpifMux (f : FifoPorts) (underrun : Bool) (current : Fsm) : Option Dword :=
  match current.gpifMode with
  | .rx => some f.rxFifoData
  | .rxMeta =>
      some (if current.metaDowncount = 0 then reportUnderrun f.rxMetaFifoData underrun
        else f.rxMetaFifoData)
  | .rxIgnore => some 0
  | .idle | .tx | .txMeta | .txIgnore => none

/-- What `gpif_mux` hands to the TX META FIFO. -/
def gpifMuxMeta (p : Pins) (current : Fsm) : Dword :=
  match current.gpifMode with
  | .txMeta | .txIgnore => current.metaBuf.w3
  | .idle | .rx | .rxMeta | .rxIgnore | .tx => p.gpifIn

/-- One rising edge of `pclk`. -/
def clock (e : Generics) (k : Config) (p : Pins) (f : FifoPorts) (s : Gpif) : Gpif where
  current :=
    fsmCombProc k p s.gpifBufSize s.canRx s.rxFifoCritical s.canTx f.rxMetaFifoData s.current
  underrun := s.underrun.clock s.current.underrunSet s.current.underrunClr
  txFaultIdle := p.txFaultStop && !s.current.parsing
  -- calculate_conditionals
  gpifBufSize := if !k.usbSpeed then gpifBufSizeSs else gpifBufSizeHs
  -- calculate_fifo_waterlines
  rxFifoEnough :=
    if k.packetEnable then !f.rxMetaFifoEmpty
    else decide (s.gpifBufSize ≤
      (if f.rxFifoFull then 2 ^ e.rxFifoUsedwBits else 0) + f.rxFifoUsedw)
  rxFifoCritical := fifoIsCritical f.rxFifoUsedw f.rxFifoFull e.rxDepth s.gpifBufSize
  txFifoEnough := fifoHasRoom f.txFifoUsedw f.txFifoFull e.txDepth s.gpifBufSize &&
    decide ((f.txMetaFifoUsedw : ℤ) < 2 ^ (e.txMetaFifoUsedwBits - 1) - 4)
  -- gpif_mux
  gpifOe := (gpifMux f s.underrun.q s.current).isSome
  gpifOut := (gpifMux f s.underrun.q s.current).getD (BitVec.allOnes 32)
  txFifoData := p.gpifIn
  txMetaFifoData := gpifMuxMeta p s.current
  -- can_and_should
  canRx := p.dmaRxEnable && s.rxFifoEnough && (!p.dma0RxReqx || !p.dma1RxReqx) &&
    !(k.metaEnable && f.rxMetaFifoEmpty)
  canTx := p.dmaTxEnable && s.txFifoEnough && (!p.dma2TxReqx || !p.dma3TxReqx)

end Gpif
end BladeRF
