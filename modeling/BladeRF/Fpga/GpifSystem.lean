/-
# `Fpga.GpifSystem` — the GPIF between its queues

The queues are seen from this side (`Lib.Dcfifo`); the writers of the RX queues
and the readers of the TX queues act between the edges, and how late they are
noticed is theirs to choose.

A monitor records what is on the ports at every clock of a transaction, from the
first clock in a set-up state to the last before the machine is back in `IDLE`.
It only looks: nothing of the design depends on it.
-/
import BladeRF.Lib.Waveform
import BladeRF.Fpga.Gpif

namespace BladeRF

open Gpif

/-! ## Transactions -/

/-- The ports of the machine at one clock, with its state, the registered copy of
the TX time, the test of the header buffer against it and the underrun flip-flop. -/
structure GpifSample where
  state : State
  rxMetaFifoRead : Bool
  rxMetaFifoData : Dword
  rxFifoRead : Bool
  rxFifoData : Dword
  gpifOe : Bool
  gpifOut : Dword
  gpifIn : Dword
  txMetaFifoWrite : Bool
  txMetaFifoData : Dword
  txFifoWrite : Bool
  txFifoData : Dword
  txTimestamp : BitVec 64
  admits : Bool
  underrun : Bool

def GpifSample.bus (x : GpifSample) : Option Dword := if x.gpifOe then some x.gpifOut else none

inductive GpifDirection
  | rx
  | tx
  deriving DecidableEq

structure Transaction where
  dir : GpifDirection
  wave : List GpifSample

namespace Transaction

variable (t : Transaction)

def metaTaken : List Dword := (t.wave.filter (·.rxMetaFifoRead)).map (·.rxMetaFifoData)

def taken : List Dword := (t.wave.filter (·.rxFifoRead)).map (·.rxFifoData)

def metaPushed : List Dword := (t.wave.filter (·.txMetaFifoWrite)).map (·.txMetaFifoData)

def pushed : List Dword := (t.wave.filter (·.txFifoWrite)).map (·.txFifoData)

def bus : List (Option Dword) := t.wave.map GpifSample.bus

/-- The header the host sends: the four dwords on the bus after the acknowledge
phase. -/
def hostHeader : List Dword := (Lib.span 5 4 t.wave).map (·.gpifIn)

def hostSamples (gpifBufSize : ℕ) : List Dword :=
  (Lib.span 9 (gpifBufSize - 4) t.wave).map (·.gpifIn)

/-- The clock at which the machine decides about a TX transaction. -/
def decisionClock : ℕ := 8

/-- The header dwords of the timestamp: bits 63 to 32 and bits 31 to 0. -/
def timestamp : Option (BitVec 64) := do
  let low ← t.wave[decisionClock - 2]?
  let high ← t.wave[decisionClock - 1]?
  return high.gpifIn ++ low.gpifIn

/-- The timestamp is zero or later than `tx_timestamp + 32` at the decision, as
unsigned 64-bit numbers. -/
def Admissible : Prop :=
  ∃ ts x, t.timestamp = some ts ∧ t.wave[decisionClock]? = some x ∧
    (ts = 0 ∨ x.txTimestamp + 32 < ts)

/-- The machine left for `IDLE` before the last dword: only `tx_fault_stop` does
that. -/
def Cut : Prop := ∀ x ∈ t.wave.getLast?, x.state ≠ .finished

def Underrun : Prop := ∃ x ∈ t.wave.getLast?, x.underrun = true

end Transaction

/-! ## The closed system -/

structure GpifInput where
  pins : Pins := {}
  headers : List (Dword × Dword × Dword × Dword) := []
  samples : List Dword := []
  txMetaRead : ℕ := 0
  /-- dwords taken from the TX sample FIFO -/
  txRead : ℕ := 0
  /-- what this side notices of the other sides; the write pointer of the RX META
  FIFO counts headers -/
  noticeRxMeta : ℕ := 0
  noticeRx : ℕ := 0
  noticeTxMeta : ℕ := 0
  noticeTx : ℕ := 0
  /-- by how much each count lags behind this side's own accesses -/
  lagRx : ℕ := 0
  lagTxMeta : ℕ := 0
  lagTx : ℕ := 0

structure GpifSystem (e : Generics) where
  gpif : Gpif := {}
  txFifo : Lib.Sink Dword e.txDepth := .empty
  txMetaFifo : Lib.Sink Dword e.txMetaDepth := .empty
  rxFifo : Lib.Source Dword e.rxDepth := .empty
  rxMetaFifo : Lib.Source Dword e.rxMetaFifoWords := .empty
  ongoing : Option Transaction := none
  completed : List Transaction := []

namespace GpifSystem

variable {e : Generics}

def rxCount (s : GpifSystem e) (i : GpifInput) : ℕ :=
  min e.rxDepth (s.rxFifo.shown + min i.lagRx e.lag)

def txCount (s : GpifSystem e) (i : GpifInput) : ℕ := s.txFifo.shown - min i.lagTx e.lag

def txMetaCount (s : GpifSystem e) (i : GpifInput) : ℕ :=
  s.txMetaFifo.shown - min i.lagTxMeta e.lag

def ports (s : GpifSystem e) (i : GpifInput) : FifoPorts where
  txFifoFull := s.txCount i = e.txDepth
  txFifoUsedw := s.txCount i % 2 ^ e.txFifoUsedwBits
  txMetaFifoUsedw := s.txMetaCount i % 2 ^ e.txMetaFifoUsedwBits
  rxFifoFull := s.rxCount i = e.rxDepth
  rxFifoUsedw := s.rxCount i % 2 ^ e.rxFifoUsedwBits
  rxFifoData := s.rxFifo.items.head?.getD 0
  rxMetaFifoEmpty := s.rxMetaFifo.shown = 0
  rxMetaFifoData := s.rxMetaFifo.items.head?.getD 0

def sample (s : GpifSystem e) (i : GpifInput) : GpifSample where
  state := s.gpif.current.state
  rxMetaFifoRead := s.gpif.current.rxmFifoRd
  rxMetaFifoData := (s.ports i).rxMetaFifoData
  rxFifoRead := s.gpif.current.rxFifoRd
  rxFifoData := (s.ports i).rxFifoData
  gpifOe := s.gpif.gpifOe
  gpifOut := s.gpif.gpifOut
  gpifIn := i.pins.gpifIn
  txMetaFifoWrite := s.gpif.current.txmFifoWr
  txMetaFifoData := s.gpif.txMetaFifoData
  txFifoWrite := s.gpif.current.txFifoWr
  txFifoData := s.gpif.txFifoData
  txTimestamp := s.gpif.current.txTimestamp
  admits := s.gpif.current.metaBuf.admits s.gpif.current.txTimestamp
  underrun := s.gpif.underrun.q

def dwords (h : Dword × Dword × Dword × Dword) : List Dword := [h.1, h.2.1, h.2.2.1, h.2.2.2]

/-- The transaction of the monitor after a clock that showed `x` and led to `next`. -/
def observe (ongoing : Option Transaction) (x : GpifSample) (next : State) : Option Transaction :=
  match ongoing with
  | some t => some { t with wave := t.wave ++ [x] }
  | none =>
      match next with
      | .setupRd => some ⟨.rx, []⟩
      | .setupWr => some ⟨.tx, []⟩
      | _ => none

/-- One clock: the edge of the design, the accesses it strobes, then the other
sides. -/
def step (k : Config) (s : GpifSystem e) (i : GpifInput) : GpifSystem e :=
  let gpif := s.gpif.clock e k i.pins (s.ports i)
  let rxFifo := if s.gpif.current.rxFifoRd then s.rxFifo.pop else s.rxFifo
  let rxMetaFifo := if s.gpif.current.rxmFifoRd then s.rxMetaFifo.pop else s.rxMetaFifo
  let txFifo := if s.gpif.current.txFifoWr then s.txFifo.push s.gpif.txFifoData else s.txFifo
  let txMetaFifo :=
    if s.gpif.current.txmFifoWr then s.txMetaFifo.push s.gpif.txMetaFifoData else s.txMetaFifo
  let recorded := observe s.ongoing (s.sample i) gpif.current.state
  { gpif
    rxFifo := (rxFifo.supply i.samples).notice i.noticeRx
    rxMetaFifo := (rxMetaFifo.supply (i.headers.flatMap dwords)).notice (4 * i.noticeRxMeta)
    txFifo := (txFifo.drain i.txRead).notice i.noticeTx
    txMetaFifo := (txMetaFifo.drain i.txMetaRead).notice i.noticeTxMeta
    ongoing := if gpif.current.state = .idle then none else recorded
    completed :=
      if gpif.current.state = .idle then s.completed ++ recorded.toList else s.completed }

def run (e : Generics) (usbSpeed : Bool) (is : List GpifInput) : GpifSystem e :=
  is.foldl (step ⟨usbSpeed, true, false⟩) {}

end GpifSystem
end BladeRF
