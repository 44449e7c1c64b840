/-
# `Nios.Transaction` — `nios_usb_transaction` against a device

The host side of the command channel as a machine whose steps are the USB
transfers of `nios_usb_transaction_impl` and `nios_drain_pending_read_locked`.
A call holds `state->lock` from its first line to its return, so calls do not
overlap and a run is a list of steps: a call, the OUT transfer of its request
(preceded by the barrier that recovers an unanswered read), and as many IN
transfers as the call makes.

The device is the other half of the state.  It answers every request that goes
out, with a packet the validator accepts for that request.  The answers leave
in the order of the requests; only the answer to a RETUNE2 request without a
token may be overtaken.  How long it takes is open: a transfer may bring a
whole answer, a part of one, or nothing.
-/
import BladeRF.Lib.Steps
import BladeRF.Nios.Packet

namespace BladeRF

/-! ## Kinds of requests -/

def niosIsTaggedRficWrite (packet : Packet) : Bool :=
  packet.byte 0 == niosPkt16x64Magic && packet.byte 1 == niosPkt16x64TargetRfic &&
    packet.flag 2 1 && niosPkt16x64TransactionId packet != 0

def niosIsRecoveryStatusRead (packet : Packet) : Bool :=
  packet.byte 0 == niosPkt16x64Magic && packet.byte 1 == niosPkt16x64TargetRfic &&
    !packet.flag 2 1 && (packet.field 4 2 == 0x0f00 || packet.field 4 2 == 0x0f0c)

def niosIsRetune2ReadoutRequest (packet : Packet) : Bool :=
  let req := niosPkt8x32.unpack packet
  packet.byte 0 == niosPkt8x32Magic && req.target == niosPkt8x32TargetRetune2Completion &&
    ((!req.write && decide (req.addr ≤ niosPkt8x32Retune2CompletionRequestToken)) ||
      (req.write && decide (req.addr ≤ niosPkt8x32Retune2FailureSelectTx)))

/-- `nios_is_fixed_read_request`; every format has its write flag in byte 2. -/
def niosIsFixedReadRequest (packet : Packet) : Bool :=
  if packet.byte 0 = niosPkt8x8Magic then !(niosPkt8x8.unpack packet).write
  else if packet.byte 0 = niosPkt8x16Magic then !(niosPkt8x16.unpack packet).write
  else if packet.byte 0 = niosPkt8x32Magic then !(niosPkt8x32.unpack packet).write
  else if packet.byte 0 = niosPkt8x64Magic then !(niosPkt8x64.unpack packet).write
  else if packet.byte 0 = niosPkt16x64Magic then
    !(niosPkt16x64.unpack packet).write && niosPkt16x64TransactionId packet == 0
  else if packet.byte 0 = niosPkt32x32Magic then !(niosPkt32x32.unpack packet).write
  else false

/-- A RETUNE2 request for `NIOS_PKT_RETUNE2_CLEAR_QUEUE`. -/
def niosIsRetune2ClearQueue (packet : Packet) : Bool :=
  packet.byte 0 == niosPktRetune2Magic && niosPktRetuneTime packet == niosPktRetuneClearQueue

def niosIsRetune2RecoveryRequest (packet : Packet) : Bool :=
  if packet.byte 0 = niosPkt8x32Magic then
    let req := niosPkt8x32.unpack packet
    !req.write || (req.target == niosPkt8x32TargetRetune2Completion &&
      decide (req.addr ≤ niosPkt8x32Retune2FailureSelectTx))
  else niosIsRecoveryStatusRead packet || niosIsRetune2ClearQueue packet

def niosIsSessionGenerationRead (packet : Packet) : Bool :=
  packet.byte 0 == niosPkt8x32Magic && !packet.flag 2 1 &&
    packet.byte 1 == niosPkt8x32TargetCommandSessionGeneration && packet.byte 4 == 0

/-- The barrier of `nios_drain_pending_read_locked`. -/
def niosDrainBarrier (pendingRead : Packet) : Packet :=
  if pendingRead.byte 0 = niosPkt8x32Magic ∧
      pendingRead.byte 1 = niosPkt8x32TargetVersion ∧ pendingRead.byte 4 = 0 then
    niosPkt8x32Pack niosPkt8x32TargetControl false 0 0
  else niosPkt8x32Pack niosPkt8x32TargetVersion false 0 0

/-! ## The host -/

/-- `struct usb_peripheral_state`: each flag and the packet it guards are one
option. -/
structure PeripheralState where
  desynchronized : Bool
  pendingRead : Option Packet
  pendingRfic : Option Packet
  pendingRetune2 : Option (Packet × ℕ)
  sessionGenerationValid : Bool
  sessionGeneration : ℕ

/-- What the transaction functions and `bulk_transfer` return; `other` is any
further error code. -/
inductive NiosStatus where
  | success
  | timeout
  | unexpected
  | wouldBlock
  | io
  | other (code : ℤ)
deriving DecidableEq

/-- `enum nios_transaction_stage`. -/
inductive NiosStage where
  | desynchronized
  | outFailed
  | inFailed
  | responseMismatch
  | pendingResponse
  | complete
deriving DecidableEq

inductive FrameOutcome where
  | consumed
  | complete
  | mismatch

namespace PeripheralState

/-- `nios_response_matches_request` with the host's view of the session. -/
def accepts (st : PeripheralState) (request response : Packet) : Bool :=
  niosResponseMatchesRequest request response st.sessionGenerationValid st.sessionGeneration

/-- `pending_matches` of the response loop, `pending_write_matches` of the
drain loop. -/
def acceptsRfic (st : PeripheralState) (response : Packet) : Bool :=
  st.pendingRfic.any (fun w => st.accepts w response)

/-- `pending_retune2_matches`. -/
def acceptsRetune2 (st : PeripheralState) (response : Packet) : Bool :=
  st.pendingRetune2.any (fun p => niosResponseMatchesRequest p.1 response true p.2)

def admits (st : PeripheralState) (request : Packet) : Bool :=
  st.pendingRfic.all (fun w => niosIsRecoveryStatusRead request ||
      niosIsRetune2ReadoutRequest request || request == w) &&
    (st.pendingRetune2.isNone || niosIsRetune2RecoveryRequest request)

/-- A frame in the loop of `nios_drain_pending_read_locked`. -/
def drainFrame (st : PeripheralState) (barrier response : Packet) : FrameOutcome :=
  let pendingMatches := st.pendingRead.any (fun r => st.accepts r response)
  let barrierMatches := st.accepts barrier response
  if (pendingMatches && !barrierMatches) || st.acceptsRfic response ||
      st.acceptsRetune2 response then .consumed
  else if barrierMatches && !pendingMatches then .complete
  else .mismatch

/-- The answer to a read of the command-session generation.  A new generation
is taken to mean that the old session's answers are gone. -/
def readGeneration (st : PeripheralState) (recoveringRetune2 : Bool)
    (request response : Packet) : PeripheralState :=
  if niosIsSessionGenerationRead request && response.flag 2 2 then
    let value := (niosPkt8x32.unpack response).data
    let st₁ := { st with sessionGeneration := value, sessionGenerationValid := true }
    if recoveringRetune2 && st.sessionGenerationValid &&
        st.pendingRetune2.any (fun p => value != p.2) then
      { st₁ with pendingRetune2 := none }
    else st₁
  else st

/-- A recovery readout cannot pass an older acknowledgement of the RFIC
write. -/
def settleRfic (st : PeripheralState) (recoveringWrite : Bool) (request : Packet) :
    PeripheralState :=
  if recoveringWrite &&
      (niosIsRecoveryStatusRead request || niosIsRetune2ReadoutRequest request) then
    { st with pendingRfic := none }
  else st

/-- An acknowledged queue clear ends the recovery of a RETUNE2 request. -/
def settleQueueClear (st : PeripheralState) (recoveringRetune2 : Bool) (request : Packet) :
    PeripheralState :=
  if recoveringRetune2 && st.pendingRetune2.isSome && niosIsRetune2ClearQueue request then
    { st with pendingRetune2 := none }
  else st

def acknowledge (st : PeripheralState) (recoveringWrite recoveringRetune2 : Bool)
    (request response : Packet) : PeripheralState :=
  ((st.settleRfic recoveringWrite request).readGeneration recoveringRetune2 request
    response).settleQueueClear recoveringRetune2 request

/-- A frame in the response loop of `nios_usb_transaction_impl`. -/
def responseFrame (st : PeripheralState) (recoveringWrite recoveringRetune2 : Bool)
    (request response : Packet) : PeripheralState × FrameOutcome :=
  let currentMatches := st.accepts request response
  let pendingMatches := recoveringWrite && st.acceptsRfic response
  let pendingRetune2Matches := recoveringRetune2 && st.acceptsRetune2 response
  let st₁ := if pendingRetune2Matches then { st with pendingRetune2 := none } else st
  if currentMatches then
    (st₁.acknowledge recoveringWrite recoveringRetune2 request response, .complete)
  else if pendingMatches || pendingRetune2Matches then (st₁, .consumed)
  else ({ st₁ with desynchronized := true }, .mismatch)

def responseTimeout (st : PeripheralState) (request : Packet) : PeripheralState × NiosStatus :=
  if request.byte 0 = niosPktRetune2Magic then
    let tokenlessQueueClear := niosPktRetune2UnpackRequestToken request == 0 &&
      niosPktRetuneTime request == niosPktRetuneClearQueue
    if st.pendingRetune2.isSome then ({ st with desynchronized := true }, .timeout)
    else if !st.sessionGenerationValid && !tokenlessQueueClear then
      ({ st with desynchronized := true }, .unexpected)
    else
      let gen := if st.sessionGenerationValid then st.sessionGeneration else 0
      ({ st with pendingRetune2 := some (request, gen) }, .timeout)
  else if niosIsTaggedRficWrite request && st.pendingRfic.all (fun w => request == w) then
    ({ st with pendingRfic := some request }, .timeout)
  else if niosIsFixedReadRequest request then ({ st with pendingRead := some request }, .timeout)
  else ({ st with desynchronized := true }, .timeout)

end PeripheralState

/-! ## Host and device -/

/-- A request that went out, and the answer the device has for it.  `gen` is the
session the answer belongs to. -/
structure Exchange where
  id : ℕ
  request : Packet
  answer : Packet
  gen : ℕ
deriving DecidableEq

/-- Only the answer to a RETUNE2 request without a token may be overtaken. -/
def Exchange.deferrable (e : Exchange) : Bool :=
  e.request.byte 0 == niosPktRetune2Magic && niosPktRetune2UnpackRequestToken e.request == 0

/-- Where the calling thread is.  `drainOut` and `out` are before an OUT
transfer, `draining` and `reading` at the head of the receive loops. -/
inductive NiosPhase where
  | idle
  | drainOut (request : Packet)
  | draining (request barrier : Packet)
  | out (request : Packet)
  | reading (request : Packet) (id : ℕ) (recoveringWrite recoveringRetune2 : Bool)
deriving DecidableEq

/-- What the last call returned.  `id` numbers the exchange of its request, and
`buffer` is what a successful call leaves in the caller's buffer. -/
structure CallResult where
  request : Packet
  id : Option ℕ
  status : NiosStatus
  stage : NiosStage
  buffer : Option Packet
deriving DecidableEq

/-- The channel.  `log` has every exchange since the start, `unread` those of
which no byte has been read, in the order of the requests, and `wire` the one
being read with the number of its bytes already in the caller's buffer.  `outs`
counts OUT transfers. -/
structure NiosLink where
  state : PeripheralState
  phase : NiosPhase
  log : List Exchange
  unread : List Exchange
  wire : Option (Exchange × ℕ)
  outs : ℕ
  result : Option CallResult

/-- The steps.  `out` is an OUT transfer that succeeds, with the answer the
device will give; `transfer pick len status` an IN transfer that brings `len`
bytes, of the answer at position `pick` of `unread` if none has begun.
`clockFailed` is an error of the clock, `deadline` the end of the time budget,
and `transferInvalid` a transfer without a usable byte count. -/
inductive NiosAct where
  | call (request : Packet)
  | outFailed (status : NiosStatus)
  | out (answer : Packet) (gen : ℕ)
  | clockFailed
  | deadline
  | transferInvalid
  | transfer (pick len : ℕ) (status : NiosStatus)

namespace NiosLink

def start : NiosLink :=
  { state :=
      { desynchronized := false
        pendingRead := none
        pendingRfic := none
        pendingRetune2 := none
        sessionGenerationValid := false
        sessionGeneration := 0 }
    phase := .idle
    log := []
    unread := []
    wire := none
    outs := 0
    result := none }

def ret (l : NiosLink) (request : Packet) (id : Option ℕ) (status : NiosStatus)
    (stage : NiosStage) (buffer : Option Packet) : NiosLink :=
  { l with phase := .idle, result := some ⟨request, id, status, stage, buffer⟩ }

/-- Latch `desynchronized` and return. -/
def fail (l : NiosLink) (request : Packet) (id : Option ℕ) (status : NiosStatus)
    (stage : NiosStage) : NiosLink :=
  { l with state := { l.state with desynchronized := true } }.ret request id status stage none

def startRequest (l : NiosLink) (request : Packet) : NiosLink :=
  if l.state.admits request then { l with phase := .out request }
  else l.ret request none .wouldBlock .pendingResponse none

def send (l : NiosLink) (request answer : Packet) (gen : ℕ) : NiosLink :=
  let e : Exchange := ⟨l.log.length, request, answer, gen⟩
  { l with log := l.log ++ [e], unread := l.unread ++ [e], outs := l.outs + 1 }

/-- The device's answer belongs to the request: the validator accepts it, in
the session the host knows if it knows one. -/
def answers (l : NiosLink) (request answer : Packet) (gen : ℕ) : Bool :=
  (!l.state.sessionGenerationValid || gen == l.state.sessionGeneration) &&
    niosResponseMatchesRequest request answer true gen

/-- The bytes of an IN transfer.  An answer can begin once everything before it
may be overtaken. -/
def receive (l : NiosLink) (pick len : ℕ) : Option NiosLink :=
  if len = 0 then some l
  else
    match l.wire with
    | some (e, k) => if k + len ≤ 16 then some { l with wire := some (e, k + len) } else none
    | none =>
        match l.unread[pick]? with
        | some e =>
            if len ≤ 16 ∧ (l.unread.take pick).all Exchange.deferrable then
              some { l with unread := l.unread.eraseIdx pick, wire := some (e, len) }
            else none
        | none => none

def frame (l : NiosLink) : Option Exchange :=
  match l.wire with
  | some (e, k) => if k = 16 then some e else none
  | none => none

def drainTransfer (l : NiosLink) (request barrier : Packet) (status : NiosStatus) : NiosLink :=
  match l.frame with
  | some e =>
      if status ≠ .success ∧ status ≠ .timeout then l.fail request none status .inFailed
      else
        match l.state.drainFrame barrier e.answer with
        | .consumed => { l with wire := none }
        | .complete =>
            { l with
              wire := none
              state := { l.state with pendingRead := none } }.startRequest request
        | .mismatch => l.fail request none .unexpected .responseMismatch
  | none =>
      if status = .timeout ∧ l.wire.isNone then l.fail request none .timeout .inFailed
      else l.fail request none (if status = .success then .io else status) .inFailed

/-- The response loop when `status` is `BLADERF_ERR_TIMEOUT` and the frame is
not whole. -/
def timedOut (l : NiosLink) (request : Packet) (id : ℕ) : NiosLink :=
  if l.wire.isNone then
    let (st, status) := l.state.responseTimeout request
    { l with state := st }.ret request (some id) status .inFailed none
  else l.fail request (some id) .timeout .inFailed

def frameRead (l : NiosLink) (request : Packet) (id : ℕ) (answer : Packet) :
    PeripheralState × FrameOutcome → NiosLink
  | (st, .complete) =>
      { l with state := st, wire := none }.ret request (some id) .success .complete (some answer)
  | (st, .consumed) => { l with state := st, wire := none }
  | (st, .mismatch) =>
      { l with state := st, wire := none }.ret request (some id) .unexpected .responseMismatch none

/-- The response loop after an IN transfer of `len` bytes. -/
def responseTransfer (l : NiosLink) (request : Packet) (id : ℕ)
    (recoveringWrite recoveringRetune2 : Bool) (len : ℕ) (status : NiosStatus) : NiosLink :=
  match l.frame with
  | some e =>
      if status ≠ .success ∧ status ≠ .timeout then l.fail request (some id) status .inFailed
      else
        l.frameRead request id e.answer
          (l.state.responseFrame recoveringWrite recoveringRetune2 request e.answer)
  | none =>
      if status ≠ .success ∧ status ≠ .timeout then l.fail request (some id) status .inFailed
      else if status = .timeout then l.timedOut request id
      else if len = 0 then l.fail request (some id) .io .inFailed
      else l

/-- One step; `none` when it is not enabled. -/
def step (l : NiosLink) : NiosAct → Option NiosLink
  | .call request =>
      match l.phase with
      | .idle =>
          if l.state.desynchronized then
            some (l.ret request none .unexpected .desynchronized none)
          else if l.state.pendingRead.isSome then
            some { l with phase := .drainOut request, result := none }
          else some ({ l with result := none }.startRequest request)
      | _ => none
  | .outFailed status =>
      if status = .success then none
      else
        match l.phase with
        | .drainOut request | .out request =>
            some ({ l with outs := l.outs + 1 }.fail request none status .outFailed)
        | _ => none
  | .out answer gen =>
      match l.phase, l.state.pendingRead with
      | .drainOut request, some r =>
          let barrier := niosDrainBarrier r
          if l.answers barrier answer gen then
            some { l.send barrier answer gen with phase := .draining request barrier }
          else none
      | .out request, _ =>
          if l.answers request answer gen then
            some { l.send request answer gen with
              phase := .reading request l.log.length l.state.pendingRfic.isSome
                l.state.pendingRetune2.isSome }
          else none
      | _, _ => none
  | .clockFailed =>
      match l.phase with
      | .drainOut request | .draining request _ =>
          some (l.fail request none .unexpected .inFailed)
      | .reading request id _ _ => some (l.fail request (some id) .unexpected .inFailed)
      | _ => none
  | .deadline =>
      match l.phase with
      | .draining request _ => some (l.fail request none .timeout .inFailed)
      | .reading request id _ _ => some (l.timedOut request id)
      | _ => none
  | .transferInvalid =>
      match l.phase with
      | .draining request _ => some (l.fail request none .unexpected .inFailed)
      | .reading request id _ _ => some (l.fail request (some id) .unexpected .inFailed)
      | _ => none
  | .transfer pick len status =>
      match l.phase with
      | .draining request barrier =>
          (l.receive pick len).map (fun l' => l'.drainTransfer request barrier status)
      | .reading request id recoveringWrite recoveringRetune2 =>
          (l.receive pick len).map (fun l' =>
            l'.responseTransfer request id recoveringWrite recoveringRetune2 len status)
      | _ => none

end NiosLink

end BladeRF
