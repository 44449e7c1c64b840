/-
# `Nios.Dispatch` — the main loop of the bladeRF-micro NIOS

The command UART hands one request at a time to `pkt`, a single packet buffer
shared by its interrupt handler, the main loop, the safe-point hook of the RFIC
drivers and the RETUNE2 worker.  Five flags say who has to act on it next.

The model keeps the program counter of `main`, so that the interrupt handler, a
session change and the hook can come between any two actions that touch the
buffer.  A handler runs from its dispatch to its return; the hook can be called
at every point in between and inside `do_work`.  The RFIC ownership predicates
belong to the drivers, and each step takes their values from its label.  What
has happened to which request is kept beside the state as a history.
-/
import BladeRF.Lib.Steps
import BladeRF.Nios.Device

namespace BladeRF

/-! ## Formats read by the dispatcher -/

def niosPkt8x16TargetVctcxoDac : BitVec 8 := 0x00
def niosPkt8x16TargetAd56x1Dac : BitVec 8 := 0x03
def niosPkt8x16TargetIna219 : BitVec 8 := 0x04
def niosPkt8x32TargetRffeCsr : BitVec 8 := 0x03
def niosPkt8x32TargetAdf400x : BitVec 8 := 0x04
def niosPkt8x32TargetRfLinkStatus : BitVec 8 := 0x81
def niosPkt8x32TargetLossCounters : BitVec 8 := 0x86
def niosPkt8x32TargetRxEpochCtrl : BitVec 8 := 0x87
def niosPkt8x32TargetRxEpochStatus : BitVec 8 := 0x89
def niosPkt8x32TargetRetune2Failures : BitVec 8 := 0x8d
def niosPkt8x32TargetRetune2Successes : BitVec 8 := 0x8e
def niosPkt8x32TargetTxRetuneGate : BitVec 8 := 0x91
def niosPkt8x32TargetNiosRam : BitVec 8 := 0x92
def niosPkt8x32TargetRxSpatialFir : BitVec 8 := 0x93
def niosPkt8x32TargetBootNonce : BitVec 8 := 0x94
def niosPkt8x32TargetRxGainTableIndex : BitVec 8 := 0x95
def niosPkt8x32TargetI2cDiag : BitVec 8 := 0x96
def niosPkt8x32RxEpochCmdAbort : ℕ := 0x02
def niosPkt8x32TxRetuneCmdComplete : ℕ := 3
def niosPkt8x32TxRetuneCmdAbort : ℕ := 4
def niosPkt8x32TxRetuneCmdStatus : ℕ := 5
def niosPkt8x32SfirCmdIdentity : ℕ := 0x81
def niosPkt8x64TargetTimestamp : BitVec 8 := 0x00
def niosPkt32x32TargetAdiAxi : BitVec 8 := 0x02
def niosPktLegacyModeCntMask : BitVec 8 := 0x07
def niosPktLegacyModeDevMask : BitVec 8 := 0x30
def niosPktLegacyModeDirMask : BitVec 8 := 0xc0
def niosPktLegacyModeDirRead : BitVec 8 := 0x80
def niosPktLegacyDevConfig : BitVec 8 := 0x00

/-- `NIOS_PKT_LEGACY_PIO_ADDR_FPGA_VERSION`, four bytes long. -/
def niosPktLegacyPioAddrFpgaVersion : ℕ := 12
def niosPktLegacyPioLenFpgaVersion : ℕ := 4

/-- `pkt_handlers[i].magic`. -/
def pktHandlers : List (BitVec 8) :=
  [niosPktRetune2Magic, niosPkt8x8Magic, niosPkt8x16Magic, niosPkt8x32Magic, niosPkt8x64Magic,
    niosPkt16x64Magic, niosPkt32x32Magic, niosPktLegacyMagic]

def niosPkt8x32RficOwnerAccessSafe (target : BitVec 8) (write : Bool) (addr data : ℕ) : Bool :=
  if target = niosPkt8x32TargetRetune2Completion then true
  else if target = niosPkt8x32TargetBootNonce then addr = 0
  else if target = niosPkt8x32TargetRxGainTableIndex ∧ write then true
  else if target = niosPkt8x32TargetRxEpochCtrl ∧ write then
    addr = niosPkt8x32RxEpochCmdAbort ∧ data = 0
  else if target = niosPkt8x32TargetTxRetuneGate ∧ write then
    data = 0 ∧ (addr = niosPkt8x32TxRetuneCmdComplete ∨ addr = niosPkt8x32TxRetuneCmdAbort)
  else if target = niosPkt8x32TargetRxSpatialFir then
    !write ∨ (addr = niosPkt8x32SfirCmdIdentity ∧ data = 0)
  else if write then false
  else if target ∈ [niosPkt8x32TargetRetune2Successes, niosPkt8x32TargetRetune2Failures,
      niosPkt8x32TargetRfLinkStatus, niosPkt8x32TargetLossCounters,
      niosPkt8x32TargetRxEpochStatus, niosPkt8x32TargetNiosRam, niosPkt8x32TargetI2cDiag,
      niosPkt8x32TargetCommandSessionGeneration, niosPkt8x32TargetRffeCsr] then true
  else target = niosPkt8x32TargetTxRetuneGate ∧ addr = niosPkt8x32TxRetuneCmdStatus

def niosPkt8x64RficOwnerAccessSafe (target : BitVec 8) (write : Bool) : Bool :=
  !write && target = niosPkt8x64TargetTimestamp

/-! ## The safe-point hook -/

/-- What the drivers answer when a step asks who owns the RFIC. -/
structure Owners where
  workerActive : Bool
  /-- `rfic_command_owns_device()` -/
  ownsDevice : Bool
  /-- `rfic_tx_quad_retune_owner()` -/
  txQuad : Bool
  load : Bool
  /-- `adi_fastlock_recall_active()` -/
  recallActive : Bool
  /-- `rfic_gain_table_retune_owner()` -/
  gainTable : Bool
  recallOrphaned : Bool
  /-- `rfic_command_has_orphaned_jobs()` -/
  orphanedJobs : Bool
  /-- `rfic_command_transaction_is_duplicate(addr, data, transaction_id)` -/
  duplicate : Bool

namespace Owners

/-- `worker_owns_rfic`. -/
def worker (o : Owners) : Bool :=
  o.workerActive || o.ownsDevice || o.txQuad

/-- Some owner is left that keeps host peripheral traffic off the part. -/
def any (o : Owners) : Bool :=
  o.worker || o.load || o.recallActive || o.gainTable

/-- The test in front of normal dispatch; it leaves the gain-table load out. -/
def dispatchBlocked (o : Owners) : Bool :=
  o.worker || o.load || o.recallActive

def none : Owners := ⟨false, false, false, false, false, false, false, false, false⟩

end Owners

/-- How a request is answered without the main loop: by its packet handler, by
an answer packed in its place (a rejection, a duplicate acknowledgement), or by
leaving the clear intent to the RETUNE2 worker. -/
inductive Answer where
  | handler
  | packed
  | deferClear

inductive Service where
  /-- leave it to the parser of the main loop -/
  | leave
  | answer (how : Answer)

/-- The legacy read of the FPGA version byte by byte; `strict` is the form of
the rejection path, which also wants `req[3]` set. -/
def legacyVersionRead (p : Packet) (strict : Bool) : Bool :=
  p.byte 0 = niosPktLegacyMagic ∧
  p.byte 1 &&& (niosPktLegacyModeDirMask ||| niosPktLegacyModeDevMask |||
    niosPktLegacyModeCntMask) = niosPktLegacyModeDirRead ||| niosPktLegacyDevConfig ||| 1 ∧
  niosPktLegacyPioAddrFpgaVersion ≤ (p.byte 2).toNat ∧
  (p.byte 2).toNat < niosPktLegacyPioAddrFpgaVersion + niosPktLegacyPioLenFpgaVersion ∧
  (strict → p.byte 3 = 0xff)

def rejectPacketDuringRficOperation (p : Packet) : Service :=
  if legacyVersionRead p true then .answer .handler
  else if p.byte 0 ∈ [niosPkt8x8Magic, niosPkt8x16Magic, niosPkt8x32Magic, niosPkt8x64Magic,
      niosPkt32x32Magic, niosPktRetuneMagic, niosPktRetune2Magic, niosPktLegacyMagic] then
    .answer .packed
  else .leave

/-- The requests the hook keeps pending until the owners retire. -/
def heldForOwner (p : Packet) (o : Owners) : Bool :=
  (p.byte 0 = niosPkt16x64Magic ∧ p.byte 1 = niosPkt16x64TargetAd9361 ∧ !p.flag 2 1 ∧
    (o.recallOrphaned || o.orphanedJobs)) ∨
  (p.byte 0 = niosPkt32x32Magic ∧ p.byte 1 = niosPkt32x32TargetAdiAxi ∧ o.any) ∨
  (p.byte 0 = niosPkt8x32Magic ∧
    (p.byte 1 = niosPkt8x32TargetControl ∨ p.byte 1 = niosPkt8x32TargetAdf400x) ∧
    p.flag 2 1 ∧ o.any) ∨
  (p.byte 0 = niosPkt8x16Magic ∧
    (p.byte 1 = niosPkt8x16TargetVctcxoDac ∨ p.byte 1 = niosPkt8x16TargetAd56x1Dac) ∧ o.any)

def serviceRetune2 (p : Packet) (o : Owners) : Service :=
  if niosPktRetuneTime p = niosPktRetuneClearQueue then
    if o.ownsDevice || o.txQuad then .answer .deferClear else .answer .handler
  else if niosPktRetuneTime p ≠ niosPktRetuneNow then .answer .handler
  else rejectPacketDuringRficOperation p

def service16x64 (p : Packet) (o : Owners) : Service :=
  let r := niosPkt16x64.unpack p
  let id := niosPkt16x64TransactionId p
  if r.target = niosPkt16x64TargetRfic ∧ r.write ∧ id ≠ 0 ∧ r.addr = 0x0f01 ∧
      !o.dispatchBlocked then
    .answer .handler
  else if r.target = niosPkt16x64TargetRfic ∧ r.write ∧ id ≠ 0 ∧ r.addr = 0x0f0e then
    .answer .handler
  else if r.target = niosPkt16x64TargetAd9361 ∨
      r.target = niosPkt16x64TargetAd9361WriteBatch ∨
      r.target = niosPkt16x64TargetGainTableRow then
    if !r.write ∧ o.any then .answer .packed else .answer .handler
  else if r.target = niosPkt16x64TargetFastlockProfile ∨
      r.target = niosPkt16x64TargetRetune2Record then
    .answer .handler
  else if r.target ≠ niosPkt16x64TargetRfic then .answer .packed
  else if r.write ∧ id ≠ 0 ∧ o.duplicate then .answer .packed
  else if r.write then .answer .packed
  else if id = 0 ∧ (r.addr = 0x0f00 ∨ r.addr = 0x0f0c ∨ r.addr = 0x0f0d ∨ r.addr = 0x0f01) then
    .answer .handler
  else .answer .packed

/-- The switch of `service_rfic_status_request_impl` over an unprepared request. -/
def serviceAction (p : Packet) (o : Owners) : Service :=
  if !o.dispatchBlocked ∧ p.byte 0 ∈ [niosPkt8x8Magic, niosPkt8x16Magic, niosPkt8x32Magic,
      niosPkt8x64Magic, niosPkt32x32Magic, niosPktLegacyMagic] then
    .answer .handler
  else if p.byte 0 = niosPktRetune2Magic then serviceRetune2 p o
  else if p.byte 0 = niosPkt8x32Magic ∧
      niosPkt8x32RficOwnerAccessSafe (p.byte 1) (p.flag 2 1) (p.byte 4).toNat
        (niosPkt8x32.unpack p).data then
    .answer .handler
  else if p.byte 0 = niosPkt8x64Magic ∧
      niosPkt8x64RficOwnerAccessSafe (p.byte 1) (p.flag 2 1) then
    .answer .handler
  else if p.byte 0 = niosPkt8x16Magic ∧ p.byte 1 = niosPkt8x16TargetIna219 then
    .answer .handler
  else if p.byte 0 = niosPkt8x32Magic ∧ p.byte 1 = niosPkt8x32TargetControl ∧ !p.flag 2 1 then
    .answer .handler
  else if legacyVersionRead p false then .answer .handler
  else if p.byte 0 ≠ niosPkt16x64Magic then rejectPacketDuringRficOperation p
  else service16x64 p o

/-! ## State -/

/-- `struct pkt_buf`.  The response bytes are left out: an answer is identified
by the request it was computed for. -/
structure PktBuf where
  req : Packet
  sessionGeneration : ℕ
  deferredWorkActiveAtAccept : Bool
  responsePrepared : Bool
  responseDeferred : Bool
  ready : Bool
  /-- history: which captured request this is -/
  request : ℕ

/-- The command UART: the control shadow, the session register and
`command_uart_fault`. -/
structure CommandUart where
  isrEnabled : Bool
  workerBusy : Bool
  session : ℕ
  faultLatched : Bool
  faultSession : ℕ

/-- `enum command_uart_try_publish_result`. -/
inductive TryPublish where
  | error
  | backpressure
  | ok
  | stale

/-- The `do_work` calls of a deferred-work pass. -/
inductive Worker where
  /-- `rfic_command_work`, before everything else -/
  | rfic
  /-- the RETUNE2 worker as the owner; nothing else runs in this pass -/
  | retune2Owner
  /-- the RETUNE2 worker at the end of a pass without an owner -/
  | retune2Last
deriving DecidableEq

/-- Where `main` stands.  `discard` marks the pass after an invalid magic. -/
inductive MainPc where
  | top
  | poll
  | exec
  | pass (discard : Bool)
  | doWork (w : Worker) (discard : Bool)
  | revisit
deriving DecidableEq

structure Frame where
  request : ℕ
  session : ℕ

structure NiosLoop where
  pkt : PktBuf
  uart : CommandUart
  /-- `servicing`: a cooperative handler is on the stack -/
  servicing : Bool
  pc : MainPc
  /-- some queue entry has `deferred_response_pkt` set -/
  deferredResponsePkt : Bool
  /-- history: session generations of the captured requests, in order -/
  requests : List ℕ
  /-- history: whose side effects ran -/
  ran : List ℕ
  frames : List Frame
  /-- history: answered or retired requests -/
  settled : List ℕ

namespace CommandUart

/-- `command_uart_enable_isr(true)`. -/
def enableIsr (u : CommandUart) : CommandUart :=
  if u.faultLatched then u else { u with isrEnabled := true }

def checkSessionRecovery (u : CommandUart) : CommandUart :=
  if u.faultLatched ∧ u.session ≠ u.faultSession then
    { u with
      faultLatched := false
      faultSession := u.session
      isrEnabled := true }
  else u

/-- What a failed response write does: `command_uart_fault_latch`, and the
request interrupt off. -/
def fault (u : CommandUart) : CommandUart :=
  { u with
    faultLatched := true
    faultSession := u.session
    isrEnabled := false }

end CommandUart

namespace NiosLoop

def retirePkt (s : NiosLoop) : NiosLoop :=
  { s with
    pkt := { s.pkt with
      ready := false
      deferredWorkActiveAtAccept := false
      responseDeferred := false
      responsePrepared := false }
    settled := s.pkt.request :: s.settled }

def setWorkerBusy (s : NiosLoop) (b : Bool) : NiosLoop :=
  { s with uart := { s.uart with workerBusy := b } }

def enableIsr (s : NiosLoop) : NiosLoop :=
  { s with uart := s.uart.enableIsr }

/-- The release shared by a published, a stale and an outdated response. -/
def release (s : NiosLoop) (o : Owners) : NiosLoop :=
  (s.retirePkt.setWorkerBusy o.worker).enableIsr

/-- `retry_prepared_cooperative_response`; `w` is what the UART says to the
write.  A session change between the generation check and the write is the
result `stale`. -/
def retryPrepared (s : NiosLoop) (o : Owners) (w : TryPublish) : NiosLoop :=
  if s.pkt.ready ∧ s.pkt.responsePrepared then
    if s.pkt.sessionGeneration ≠ s.uart.session then s.release o
    else match w with
      | .ok =>
          { s.release o with
            frames := ⟨s.pkt.request, s.pkt.sessionGeneration⟩ :: s.frames }
      | .stale => s.release o
      | .backpressure => s
      | .error => { s.retirePkt with uart := s.uart.fault }
  else s

def beginDeferredWorker (s : NiosLoop) (o : Owners) : NiosLoop :=
  let busy := o.worker || s.pkt.responseDeferred
  let s := s.setWorkerBusy busy
  if busy ∧ s.pkt.ready then
    { s with pkt := { s.pkt with deferredWorkActiveAtAccept := true } }
  else s

def endDeferredWorker (s : NiosLoop) (o : Owners) : NiosLoop :=
  let s := s.setWorkerBusy (o.worker || s.pkt.responseDeferred)
  if o.worker ∧ s.pkt.ready then
    { s with pkt := { s.pkt with deferredWorkActiveAtAccept := true } }
  else s

/-- `service_rfic_status_request`, up to the call of a cooperative handler. -/
def service (s : NiosLoop) (o : Owners) (w : TryPublish) : NiosLoop :=
  if s.servicing then s
  else if !s.pkt.ready then s
  else if s.pkt.sessionGeneration ≠ s.uart.session then s.release o
  else if heldForOwner s.pkt.req o then s
  else
    let s := { s with pkt := { s.pkt with deferredWorkActiveAtAccept := false } }
    if s.pkt.responsePrepared then s.retryPrepared o w
    else match serviceAction s.pkt.req o with
      | .leave => s
      | .answer _ =>
          { s with
            servicing := true
            ran := s.pkt.request :: s.ran }

/-- `publish_cooperative_response`, after the handler has returned. -/
def serviceReturn (s : NiosLoop) (o : Owners) (w : TryPublish) : NiosLoop :=
  { s with
    servicing := false
    pkt := { s.pkt with responsePrepared := true } }.retryPrepared o w

/-- The main loop reaches `handler->exec(&pkt)` in its next step. -/
def dispatches (s : NiosLoop) : Bool :=
  s.pc = .poll ∧ s.pkt.ready ∧ s.pkt.sessionGeneration = s.uart.session ∧
    !s.pkt.deferredWorkActiveAtAccept ∧ s.pkt.req.byte 0 ∈ pktHandlers

/-- The loop body from `HAVE_REQUEST()` to the dispatch. -/
def poll (s : NiosLoop) (o : Owners) (w : TryPublish) : NiosLoop :=
  if !s.pkt.ready then { s with pc := .pass false }
  else if s.pkt.sessionGeneration ≠ s.uart.session then
    { s.retirePkt.enableIsr with pc := .pass false }
  else if s.pkt.deferredWorkActiveAtAccept then
    { s.service o w with pc := .pass false }
  else if s.pkt.req.byte 0 ∈ pktHandlers then
    { s with
      pkt := { s.pkt with ready := false }
      uart := { s.uart with workerBusy := true }
      ran := s.pkt.request :: s.ran
      pc := .exec }
  else
    -- the frame is thrown away
    { s with
      pkt := { s.pkt with ready := false }
      settled := s.pkt.request :: s.settled
      pc := .pass true }

/-- After `handler->exec(&pkt)`; `retained` when `pkt_retune2` has kept the
buffer for its queue entry. -/
def execReturn (s : NiosLoop) (o : Owners) (w : TryPublish) (retained : Bool) : NiosLoop :=
  let s := if retained ∧ s.pkt.req.byte 0 = niosPktRetune2Magic then
      { s with
        pkt := { s.pkt with responseDeferred := true }
        deferredResponsePkt := true }
    else s
  if s.pkt.responseDeferred then
    { s with
      pkt := { s.pkt with
        ready := false
        deferredWorkActiveAtAccept := false }
      pc := .pass false }
  else
    { { s with
        pkt := { s.pkt with
          responsePrepared := true
          ready := true
          deferredWorkActiveAtAccept := false } }.retryPrepared o w with
      pc := .pass false }

/-- The end of a pass, with its retry; an invalid magic continues at the top. -/
def passEnd (s : NiosLoop) (o : Owners) (w : TryPublish) (discard : Bool) : NiosLoop :=
  let s := s.retryPrepared o w
  if discard then { s.enableIsr with pc := .top } else { s with pc := .revisit }

/-- `run_deferred_packet_work_pass` from its entry to the first `do_work`. -/
def passBegin (s : NiosLoop) (o : Owners) (discard : Bool) : NiosLoop :=
  { s.beginDeferredWorker o with
    pc := .doWork
      (if o.load || o.recallActive || o.gainTable || o.txQuad then .retune2Owner else .rfic) discard }

/-- The return of one `do_work` of a pass. -/
def workReturn (s : NiosLoop) (o : Owners) (w : TryPublish) (k : Worker) (discard : Bool) :
    NiosLoop :=
  let s := s.endDeferredWorker o
  match k with
  | .retune2Owner => s.passEnd o w discard
  | .retune2Last => (s.setWorkerBusy (o.worker || s.pkt.responseDeferred)).passEnd o w discard
  | .rfic =>
      if o.ownsDevice then
        if o.txQuad then { s.beginDeferredWorker o with pc := .doWork .retune2Owner discard }
        else s.passEnd o w discard
      else { s.beginDeferredWorker o with pc := .doWork .retune2Last discard }

/-- One step of `main`. -/
def mainStep (s : NiosLoop) (o : Owners) (w : TryPublish) (retained : Bool) : NiosLoop :=
  match s.pc with
  | .top => { s with uart := s.uart.checkSessionRecovery, pc := .poll }
  | .poll => s.poll o w
  | .exec => s.execReturn o w retained
  | .pass discard => s.passBegin o discard
  | .doWork k discard => s.workReturn o w k discard
  | .revisit =>
      if s.pkt.ready ∧ s.pkt.deferredWorkActiveAtAccept then { s.service o w with pc := .top }
      else { s with pc := .top }

/-- `main` is inside a handler, the VCTCXO tamer or a worker, where SPI and delays
call the hook. -/
def atSafePoint (s : NiosLoop) : Bool :=
  s.servicing || match s.pc with
    | .exec => true
    -- `vctcxo_trim_dac_write`, behind an idle `HAVE_REQUEST()`
    | .pass false => true
    | .doWork _ _ => true
    | _ => false

def inRetune2 (s : NiosLoop) : Bool :=
  s.servicing || match s.pc with
    | .exec => true
    | .doWork k _ => k ≠ .rfic
    | _ => false

end NiosLoop

/-! ## Steps -/

inductive LoopAct where
  | isr (req : Packet) (session : ℕ) (fence : Bool)
  /-- the FX3 starts another session -/
  | session (g : ℕ)
  | main (o : Owners) (w : TryPublish) (retained : Bool)
  | hook (o : Owners) (w : TryPublish)
  /-- the cooperative handler returns -/
  | hookReturn (o : Owners) (w : TryPublish)
  /-- a queue entry with a retained packet reaches its outcome -/
  | deferredResponse

namespace NiosLoop

def commandUartIsr (s : NiosLoop) (req : Packet) (session : ℕ) (fence : Bool) : NiosLoop :=
  { s with
    pkt :=
      { req := req
        sessionGeneration := session
        deferredWorkActiveAtAccept := fence || s.uart.workerBusy
        responsePrepared := false
        responseDeferred := false
        ready := true
        request := s.requests.length }
    uart := { s.uart with isrEnabled := false }
    requests := s.requests ++ [session] }

/-- The end of `publish_retune2_success` and `record_retune2_entry_failure`. -/
def answerDeferred (s : NiosLoop) : NiosLoop :=
  { s with
    pkt := { s.pkt with
      responsePrepared := true
      ready := true
      deferredWorkActiveAtAccept := true }
    deferredResponsePkt := false }

def step (s : NiosLoop) : LoopAct → Option NiosLoop
  | .isr req session fence =>
      if s.uart.isrEnabled then some (s.commandUartIsr req session fence) else none
  | .session g => some { s with uart := { s.uart with session := g } }
  | .main o w retained => if s.servicing then none else some (s.mainStep o w retained)
  | .hook o w => if s.atSafePoint then some (s.service o w) else none
  | .hookReturn o w => if s.servicing then some (s.serviceReturn o w) else none
  | .deferredResponse =>
      if s.deferredResponsePkt ∧ s.inRetune2 then some s.answerDeferred else none

/-- After `bladerf_nios_init`. -/
def start (req : Packet) : NiosLoop :=
  { pkt := ⟨req, 0, false, false, false, false, 0⟩
    uart := ⟨true, false, 0, false, 0⟩
    servicing := false
    pc := .top
    deferredResponsePkt := false
    requests := []
    ran := []
    frames := []
    settled := [] }

end NiosLoop

end BladeRF
