/-
# `Nios.Device` — the packets the firmware answers with

`pkt_16x64` and `pkt_retune2` as the functions from a request to a response
that they are.  What they ask of the rest of the firmware (the SPI drivers, the
RFIC command queue, the retune queues, the time tamer) is a parameter: a device
state is any set of results these could return, so what is shown about the
response holds in every state, reachable or not.

The packers are those of `nios_pkt_16x64.h` and `nios_pkt_retune2.h`; the host
packs its requests with the same ones.
-/
import BladeRF.Nios.Packet

namespace BladeRF

/-! ## Packers -/

/-- The bytes `nios_pkt_16x64_pack` and its variants write. -/
def niosPkt16x64Bytes (target flags : BitVec 8) (addr : BitVec 16) (data : BitVec 64)
    (transactionId : BitVec 16) : Packet :=
  ⟨niosPkt16x64.bytes target flags addr.toNat data.toNat transactionId.toNat, by
    simp [RegFormat.bytes, RegFormat.resvIdx, RegFormat.dataIdx, niosPkt16x64]⟩

def niosPkt16x64WriteFlag (write : Bool) : BitVec 8 := if write then 0x01 else 0x00
def niosPkt16x64SuccessFlag (success : Bool) : BitVec 8 := if success then 0x02 else 0x00

def niosPkt16x64PackWithTransactionId (target : BitVec 8) (write : Bool) (addr : BitVec 16)
    (data : BitVec 64) (transactionId : BitVec 16) : Packet :=
  niosPkt16x64Bytes target (niosPkt16x64WriteFlag write) addr data transactionId

def niosPkt16x64Pack (target : BitVec 8) (write : Bool) (addr : BitVec 16) (data : BitVec 64) :
    Packet :=
  niosPkt16x64PackWithTransactionId target write addr data 0

def niosPkt16x64RespPackWithTransactionId (target : BitVec 8) (write : Bool) (addr : BitVec 16)
    (data : BitVec 64) (success : Bool) (transactionId : BitVec 16) : Packet :=
  niosPkt16x64Bytes target (niosPkt16x64WriteFlag write ||| niosPkt16x64SuccessFlag success) addr
    data transactionId

def niosPkt16x64RespPack (target : BitVec 8) (write : Bool) (addr : BitVec 16)
    (data : BitVec 64) (success : Bool) : Packet :=
  niosPkt16x64RespPackWithTransactionId target write addr data success 0

def niosPkt16x64RespPackQueueFull (target : BitVec 8) (addr : BitVec 16) (data : BitVec 64)
    (transactionId : BitVec 16) : Packet :=
  niosPkt16x64Bytes target (niosPkt16x64WriteFlag true ||| 0x08) addr data transactionId

/-- `bladerf_module`, as far as a retune request can name one. -/
inductive BladerfModule where
  | rx
  | tx
deriving DecidableEq

def niosPktRetune2PackToken (module : BladerfModule) (timestamp : BitVec 64)
    (niosProfile : BitVec 16) (rffeProfile port spdt : BitVec 8) (requestToken : BitVec 16) :
    Packet :=
  let pktPort := (port &&& 0x7f) ||| (if module = .tx then 0x00 else 0x80)
  ⟨[niosPktRetune2Magic] ++ Lib.leBytes 8 timestamp.toNat ++ Lib.leBytes 2 niosProfile.toNat
      ++ [rffeProfile, pktPort, spdt] ++ Lib.leBytes 2 requestToken.toNat, by simp⟩

inductive NiosPktRetune2Failure where
  | none
  | invalidRequest
  | timerRead
  | queueFull
  | invalidTimestamp
  | profileSlotBusy
  | profileLoad
  | peerFrequencyUnknown
  | fastlockSetupWrite
  | pllStatusRead
  | pllLockTimeout
  | rfPortSelect
  | spdtSelect
  | loReadback
  | txQuadCalibration
  | rficFaulted
  | schedule
  | timerStopped
  | internal
  | cancelled
  | rficContextUnavailable
  | gainTable
deriving DecidableEq

def NiosPktRetune2Failure.code (f : NiosPktRetune2Failure) : ℕ := f.ctorIdx

def niosPktRetune2FailureDurationTag : BitVec 64 := 0xa75c000000000000

def niosPktRetune2RespPack (duration : BitVec 64) (flags : BitVec 8)
    (failure : NiosPktRetune2Failure) (requestToken : BitVec 16)
    (sessionGeneration : BitVec 32) : Packet :=
  let duration' :=
    if failure ≠ .none ∧ flags &&& 0x02 = 0 then
      niosPktRetune2FailureDurationTag ||| BitVec.ofNat 64 failure.code
    else duration
  let generation := if requestToken ≠ 0 then sessionGeneration.toNat else 0
  ⟨[niosPktRetune2Magic] ++ Lib.leBytes 8 duration'.toNat ++ [flags]
      ++ Lib.leBytes 2 requestToken.toNat ++ Lib.leBytes 4 generation, by simp⟩

/-- `nios_pkt_retune2_resp_set_async_baseline`: the counts take the place of the
duration. -/
def niosPktRetune2RespSetAsyncBaseline (p : Packet) (successCount failureCount : BitVec 32) :
    Packet :=
  ⟨p.bytes.take 1 ++ Lib.leBytes 4 successCount.toNat ++ Lib.leBytes 4 failureCount.toNat
      ++ p.bytes.drop 9, by simp [p.length_eq]⟩

/-! ## 16x64 -/

inductive RficWriteAdmission where
  | accepted
  | queueFull
  | rejected
deriving DecidableEq

/-- What `pkt_16x64` asks of the firmware.  `micro`, `libad936x` and
`epochRegisters` are the build's `BOARD_BLADERF_MICRO` (or the simulation),
`BLADERF_NIOS_LIBAD936X` and the presence of the RX epoch registers; a read
returns its success and what it leaves in `data`. -/
structure Device16x64 where
  micro : Bool
  libad936x : Bool
  epochRegisters : Bool
  directAd9361WriteAllowed : Bool
  directAd9361BatchAllowed : BitVec 16 → BitVec 64 → Bool
  directGainTableWriteAllowed : Bool
  adiSpiWrite : BitVec 16 → BitVec 64 → Bool
  adiSpiReadChecked : BitVec 16 → Bool × BitVec 64
  adiSpiGainTableRow : BitVec 16 → BitVec 64 → Bool
  adiSpiWriteRegisterBatch : BitVec 16 → BitVec 64 → Bool × BitVec 8
  adiSpiUpdateBits : BitVec 16 → BitVec 8 → BitVec 8 → Bool × BitVec 8
  gainTableRegionWrite : BitVec 16 → BitVec 64 → Bool
  gainTableRegionDigest : BitVec 16 → Bool × BitVec 64
  rficCommandWriteAdmit : BitVec 16 → BitVec 64 → BitVec 16 → RficWriteAdmission
  rficCommandRead : BitVec 16 → Bool × BitVec 64
  rxEpochStatusSnapshotRead : BitVec 64
  fastlockProfileCacheWrite : BitVec 16 → BitVec 64 → BitVec 8
  fastlockProfileCacheRead : BitVec 16 → BitVec 8 × BitVec 64
  retune2RecordRead : BitVec 16 → BitVec 64 → BitVec 8 × BitVec 64

def niosPkt16x64TargetAd9361WriteBatch : BitVec 8 := 0x03
def niosPkt16x64TargetAd9361UpdateBits : BitVec 8 := 0x04
def niosPkt16x64TargetRxEpochSnapshot : BitVec 8 := 0x05
def niosPkt16x64TargetFastlockProfile : BitVec 8 := 0x06
def niosPkt16x64TargetRetune2Record : BitVec 8 := 0x07
def niosPkt16x64TargetGainTableRegion : BitVec 8 := 0x08

def niosPkt16x64BatchPayloadValid (count : BitVec 16) (data : BitVec 64) : Bool :=
  let marker := data >>> 56
  let entryMask : BitVec 64 := (1 <<< (18 * count.toNat)) - 1
  if count = 0 ∨ 3 < count.toNat ∨ (marker ≠ 0 ∧ marker ≠ 0xa5) then false
  else data &&& ~~~(entryMask ||| (0xff <<< 56)) == 0

/-- `nios_pkt_16x64_gain_table_region_unpack` succeeds. -/
def niosPkt16x64GainTableRegionValid (addr : BitVec 16) : Bool :=
  addr &&& 0x00f8 == 0 && addr &&& 0x3 != 3 && addr >>> 8 != 0

namespace Device16x64

/-- `perform_write`: success, and `queue_full`. -/
def performWrite (dev : Device16x64) (id : BitVec 8) (addr : BitVec 16) (data : BitVec 64)
    (transactionId : BitVec 16) : Bool × Bool :=
  if dev.micro ∧ id = niosPkt16x64TargetAd9361 then
    ((!dev.libad936x || dev.directAd9361WriteAllowed) && dev.adiSpiWrite addr data, false)
  else if dev.micro ∧ id = niosPkt16x64TargetGainTableRow then
    ((!dev.libad936x || dev.directGainTableWriteAllowed) && data >>> 32 == 0 &&
      dev.adiSpiGainTableRow addr data, false)
  else if dev.micro ∧ dev.libad936x ∧ id = niosPkt16x64TargetGainTableRegion then
    (dev.directGainTableWriteAllowed && niosPkt16x64GainTableRegionValid addr &&
      data >>> 16 == 0 && dev.gainTableRegionWrite addr data, false)
  else if dev.libad936x ∧ id = niosPkt16x64TargetRfic then
    let admission := dev.rficCommandWriteAdmit addr data transactionId
    (admission == .accepted, admission == .queueFull)
  else (false, false)

/-- `perform_read`: success, and `data` after it. -/
def performRead (dev : Device16x64) (id : BitVec 8) (addr : BitVec 16) (data : BitVec 64) :
    Bool × BitVec 64 :=
  if dev.micro ∧ id = niosPkt16x64TargetAd9361 then
    if addr &&& 0x8c00 ≠ 0 then (false, data) else dev.adiSpiReadChecked addr
  else if dev.micro ∧ dev.libad936x ∧ id = niosPkt16x64TargetGainTableRegion then
    if niosPkt16x64GainTableRegionValid addr then dev.gainTableRegionDigest addr else (false, data)
  else if dev.libad936x ∧ id = niosPkt16x64TargetRfic then dev.rficCommandRead addr
  else (false, data)

/-- The AD9361 write batch: success, and the completed entries. -/
def writeBatch (dev : Device16x64) (addr : BitVec 16) (data : BitVec 64) : Bool × BitVec 64 :=
  if !dev.micro then (false, data)
  else if (!dev.libad936x || dev.directAd9361BatchAllowed addr data) &&
      niosPkt16x64BatchPayloadValid addr data then
    let (success, completed) := dev.adiSpiWriteRegisterBatch addr data
    (success, if !success && completed == 0xff then 0xa5 <<< 56 else completed.setWidth 64)
  else (false, 0)

def updateBits (dev : Device16x64) (addr : BitVec 16) (data : BitVec 64) : Bool × BitVec 64 :=
  if !dev.micro then (false, data)
  else
    let marker := data >>> 56
    let mask := (data >>> 48).setWidth 8
    let value := (data >>> 40).setWidth 8
    let (updated, result) := dev.adiSpiUpdateBits addr mask value
    if (!dev.libad936x || dev.directAd9361WriteAllowed) && marker == 0xa6 && mask != 0 &&
        value &&& ~~~mask == 0 && decide (addr.toNat ≤ 0x03ff) &&
        data &&& 0x000000ffffffffff == 0 && updated then
      (true, result.setWidth 64)
    else (false, 0x5a <<< 56)

def epochSnapshot (dev : Device16x64) (addr : BitVec 16) (data : BitVec 64) :
    Bool × BitVec 64 :=
  if addr ≠ 0 then (false, 0)
  else if dev.epochRegisters then (true, dev.rxEpochStatusSnapshotRead)
  else (false, data)

def fastlockProfile (dev : Device16x64) (write : Bool) (addr : BitVec 16) (data : BitVec 64) :
    Bool × BitVec 64 :=
  if !dev.micro then (false, data)
  else
    let (code, readData) :=
      if write then (dev.fastlockProfileCacheWrite addr data, 0)
      else dev.fastlockProfileCacheRead addr
    if code = 0 then (true, if write then 0 else readData)
    else (false, (0x5b <<< 56) ||| code.setWidth 64)

def retune2Record (dev : Device16x64) (write : Bool) (addr : BitVec 16) (data : BitVec 64) :
    Bool × BitVec 64 :=
  if !dev.micro then (false, data)
  else
    let (code, readData) := if write then (1, 0) else dev.retune2RecordRead addr data
    if code = 0 then (true, readData) else (false, (0x5c <<< 56) ||| code.setWidth 64)

/-- The dispatch of `pkt_16x64`: success, `data` for the response, and
`queue_full`. -/
def execute (dev : Device16x64) (id : BitVec 8) (write : Bool) (addr : BitVec 16)
    (data : BitVec 64) (transactionId : BitVec 16) : (Bool × BitVec 64) × Bool :=
  if transactionId ≠ 0 ∧ (!write || id != niosPkt16x64TargetRfic) then ((false, data), false)
  else if write ∧ id = niosPkt16x64TargetAd9361WriteBatch then (dev.writeBatch addr data, false)
  else if !write ∧ id = niosPkt16x64TargetRxEpochSnapshot then
    (dev.epochSnapshot addr data, false)
  else if write ∧ id = niosPkt16x64TargetAd9361UpdateBits then (dev.updateBits addr data, false)
  else if id = niosPkt16x64TargetFastlockProfile then
    (dev.fastlockProfile write addr data, false)
  else if id = niosPkt16x64TargetRetune2Record then (dev.retune2Record write addr data, false)
  else if write then
    let (success, queueFull) := dev.performWrite id addr data transactionId
    ((success, data), queueFull)
  else (dev.performRead id addr data, false)

def pkt16x64 (dev : Device16x64) (request : Packet) : Packet :=
  let req := niosPkt16x64.unpack request
  let addr := BitVec.ofNat 16 req.addr
  let transactionId := BitVec.ofNat 16 (niosPkt16x64TransactionId request)
  let ((success, data), queueFull) :=
    dev.execute req.target req.write addr (BitVec.ofNat 64 req.data) transactionId
  if req.write && req.target == niosPkt16x64TargetRfic then
    if queueFull then niosPkt16x64RespPackQueueFull req.target addr data transactionId
    else
      niosPkt16x64RespPackWithTransactionId req.target req.write addr data success transactionId
  else niosPkt16x64RespPack req.target req.write addr data success

end Device16x64

/-! ## RETUNE2 -/

/-- What `clear_queue_async` returns. -/
inductive ClearQueueResult where
  | cleared
  | cancelFailed
  | cancelPending

/-- What `enqueue_retune_with_identity` returns. -/
inductive EnqueueResult where
  | queued
  | full
  | invalidTimestamp

/-- What `pkt_retune2` asks of the firmware, for the module of the request.
`libad936x` is the build's `BLADERF_NIOS_LIBAD936X`.  `deferred` is how the
retained worker ends a request whose response it holds: without a failure, or
with one. -/
structure DeviceRetune2 where
  libad936x : Bool
  sessionGeneration : BitVec 32
  startTime : Option (BitVec 64)
  endTime : Option (BitVec 64)
  clearQueueAsync : ClearQueueResult
  rficCommandStateFaulted : Bool
  fastlockRecallActive : Bool
  ownerBusy : Bool
  count : ℕ
  otherCount : ℕ
  profileSlotArmed : Bool
  enqueueNowFull : Bool
  loadStatus : ℤ
  profileLoad : Bool
  profileActivate : Option NiosPktRetune2Failure
  enqueue : EnqueueResult
  successCount : BitVec 32
  failureCount : BitVec 32
  deferred : Option NiosPktRetune2Failure

def timestampIsStrictlyAfter (candidate reference : BitVec 64) : Bool :=
  let delta := candidate - reference
  delta != 0 && decide (delta.toNat < 2 ^ 63)

def niosPktRetune2RouteValid : BladerfModule → BitVec 8 → BitVec 8 → Bool
  | .rx, port, spdt => (port == 0x83 && spdt == 0x00) || (port == 0x8c && spdt == 0x0a) ||
      (port == 0x83 && spdt == 0x05)
  | .tx, port, spdt => (port == 0x00 && spdt == 0x00) || (port == 0x40 && spdt == 0xa0) ||
      (port == 0x00 && spdt == 0x50)

def retune2ProfileIndicesValid (niosProfile : BitVec 16) (rffeProfile : BitVec 8) : Bool :=
  decide (niosProfile.toNat < 16) && decide (rffeProfile.toNat < 8)

def retune2GainTableValid (module : BladerfModule) (gainTable : BitVec 8) : Bool :=
  gainTable == 0 || (module == .rx && gainTable &&& 0x80 != 0 && gainTable &&& 0x10 == 0 &&
    gainTable &&& 0x3 != 3)

/-- What the branches of `pkt_retune2` leave behind: the flags beside `SUCCESS`,
whether `status` is 0, the failure stage and whether the response is
deferred. -/
structure Retune2Result where
  flags : BitVec 8
  ok : Bool
  failureStage : NiosPktRetune2Failure
  responseDeferred : Bool

/-- `status = -1` with a failure stage and no further flag. -/
def Retune2Result.failed (failure : NiosPktRetune2Failure) : Retune2Result :=
  ⟨0, false, failure, false⟩

/-- The flags of the response: `SUCCESS` stays if `status` is 0. -/
def Retune2Result.flagByte (r : Retune2Result) : BitVec 8 :=
  if r.ok then 0x02 ||| r.flags else r.flags

namespace DeviceRetune2

/-- The branch of `NIOS_PKT_RETUNE2_CLEAR_QUEUE`. -/
def clearQueue (dev : DeviceRetune2) : Retune2Result :=
  match dev.clearQueueAsync with
  | .cleared => ⟨0, true, .none, false⟩
  | .cancelFailed => ⟨0x08, false, .none, false⟩
  | .cancelPending => ⟨0x10, false, .none, false⟩

/-- The branch of `NIOS_PKT_RETUNE2_NOW`. -/
def retuneNow (dev : DeviceRetune2) (requestToken : BitVec 16) : Retune2Result :=
  let asyncNow : Bool := requestToken != 0
  let deferredLegacyNow := dev.libad936x && requestToken == 0
  let queuedNow := asyncNow || deferredLegacyNow
  if dev.libad936x && dev.fastlockRecallActive then .failed .profileSlotBusy
  else if queuedNow && ((dev.libad936x && dev.ownerBusy) || dev.count != 0 ||
      dev.otherCount != 0) then .failed .profileSlotBusy
  else if dev.profileSlotArmed then .failed .profileSlotBusy
  else if queuedNow then
    if dev.enqueueNowFull then .failed .queueFull
    else if dev.loadStatus < 0 then .failed .profileLoad
    else ⟨if asyncNow then 0x40 else 0, true, .none, deferredLegacyNow⟩
  else if dev.libad936x then .failed .internal
  else if !dev.profileLoad then .failed .profileLoad
  else
    match dev.profileActivate with
    | none => ⟨0x01, true, .none, false⟩
    | some failure => .failed failure

def retuneScheduled (dev : DeviceRetune2) (timestamp startTime : BitVec 64) : Retune2Result :=
  if !timestampIsStrictlyAfter timestamp startTime then ⟨0x04, false, .none, false⟩
  else
    match dev.enqueue with
    | .queued => ⟨0, true, .none, false⟩
    | .full => ⟨0, false, .none, false⟩
    | .invalidTimestamp => ⟨0x04, false, .none, false⟩

/-- The tests of the route, of the profile indices and of the gain-table byte; in
this build the high byte of the profile field is that byte. -/
def requestValid (dev : DeviceRetune2) (request : Packet) : Bool :=
  let port := request.byte 12
  let module : BladerfModule := if port &&& 0x80 ≠ 0 then .rx else .tx
  let profileWord := BitVec.ofNat 16 (request.field 9 2)
  let niosProfile := if dev.libad936x then profileWord &&& 0xff else profileWord
  let gainTable : BitVec 8 := if dev.libad936x then (profileWord >>> 8).setWidth 8 else 0
  niosPktRetune2RouteValid module port (request.byte 13) &&
    retune2ProfileIndicesValid niosProfile (request.byte 11) &&
    retune2GainTableValid module gainTable

/-- The dispatch of `pkt_retune2`; `startTime` is 0 where it is not read. -/
def dispatch (dev : DeviceRetune2) (request : Packet) (startTime : BitVec 64) : Retune2Result :=
  let timestamp := niosPktRetuneTime request
  if timestamp = niosPktRetuneClearQueue then dev.clearQueue
  else if dev.libad936x && dev.rficCommandStateFaulted then .failed .rficFaulted
  else if !dev.requestValid request then .failed .invalidRequest
  else if timestamp = niosPktRetuneNow then
    dev.retuneNow (BitVec.ofNat 16 (niosPktRetune2UnpackRequestToken request))
  else dev.retuneScheduled (BitVec.ofNat 64 timestamp) startTime

/-- The response at the end of `pkt_retune2`. -/
def respond (dev : DeviceRetune2) (request : Packet) (duration : BitVec 64)
    (result : Retune2Result) : Packet :=
  let token := BitVec.ofNat 16 (niosPktRetune2UnpackRequestToken request)
  let failureStage :=
    if niosPktRetuneTime request ≠ niosPktRetuneNow then NiosPktRetune2Failure.none
    else result.failureStage
  let resp := niosPktRetune2RespPack duration result.flagByte failureStage token
    dev.sessionGeneration
  if result.flagByte &&& 0x40 ≠ 0 then
    niosPktRetune2RespSetAsyncBaseline resp dev.successCount dev.failureCount
  else resp

/-- The response of the retained worker to a deferred request, from
`record_retune2_entry_failure` or from the publication of its success. -/
def respondDeferred (dev : DeviceRetune2) (request : Packet) : Packet :=
  let token := BitVec.ofNat 16 (niosPktRetune2UnpackRequestToken request)
  match dev.deferred with
  | none => niosPktRetune2RespPack 0 (0x02 ||| 0x01) .none token dev.sessionGeneration
  | some failure => niosPktRetune2RespPack 0 0 failure token dev.sessionGeneration

/-- The response the device sends to a RETUNE2 request: what `pkt_retune2`
leaves in the packet, or what the worker leaves there later.  A scheduled
request is refused at once if the time tamer cannot be read. -/
def pktRetune2 (dev : DeviceRetune2) (request : Packet) : Packet :=
  if niosPktRetuneTime request ≠ niosPktRetuneNow ∧
      niosPktRetuneTime request ≠ niosPktRetuneClearQueue then
    match dev.startTime with
    | none =>
        niosPktRetune2RespPack 0 0 .none
          (BitVec.ofNat 16 (niosPktRetune2UnpackRequestToken request)) dev.sessionGeneration
    | some startTime =>
        let duration := match dev.endTime with
          | some endTime => endTime - startTime
          | none => 0
        dev.respond request duration (dev.dispatch request startTime)
  else
    let result := dev.dispatch request 0
    if result.responseDeferred then dev.respondDeferred request
    else dev.respond request 0 result

end DeviceRetune2

end BladeRF
