/-
# `Board.RficHost` — the host RFIC controller when calls fail

The host drives the AD9361 through the ADI library.  A calibration that timed
out leaves the chip in a state nobody knows, and `calibration_faulted` stands
for that: the setters refuse to work and the RF path is disconnected.  INIT is
the way out: RESETB, a new `ad9361_init`, and the ordinary setters.

A call of the ADI library or of the backend answers what the environment says.
The answers of one operation are a stream that its calls read in turn.
-/
import BladeRF.Board.RficEnable
import BladeRF.Lib.Status

namespace BladeRF

attribute [local instance] twoIndices

/-! ## The state -/

/-- What the controller reads of `struct ad9361_phy_platform_data`. -/
structure Ad9361Pdata where
  fdd : Bool
  fddIndependentMode : Bool
  rxSynthFreq : ℕ
  txSynthFreq : ℕ

/-- What it reads of `struct ad9361_rf_phy`. -/
structure Ad9361Phy where
  calibrationStateUnknown : Bool
  pdata : Option Ad9361Pdata
  currentRxLoFreq : ℕ
  currentTxLoFreq : ℕ
  txMute : Fin 2 → TxMute

/-- `bladerf_rfic_rxfir` and `bladerf_rfic_txfir`; `by1` stands for DEC1 and INT1. -/
inductive RficFir
  | bypass
  | custom
  | by1
  | by2
  | by4
  | unhandled
  deriving DecidableEq

def bladerfRficFirDefault : BladerfDirection → RficFir
  | .rx => .by1
  | .tx => .bypass

/-- The part of `struct bladerf2_board_data` that the controller works on, and
the RFFE control register. -/
structure HostRfic where
  calibrationFaulted : Bool
  phy : Option Ad9361Phy
  firKnown : BladerfDirection → Bool
  fir : BladerfDirection → RficFir
  rxRfdcCalibrationValidMask : BitVec 8
  rffe : BitVec 32
  layout : BladerfDirection → BladerfChannelLayout
  syncInitialized : Bool
  rfTransitionPending : Bool
  rfTransitionSetterActive : Bool
  rxRetune2PendingCount : ℕ
  rxRetune2OutcomeUnknown : Bool

/-- What a call of the ADI library, of the backend or of another part of the
board does; each call reads the fields it has. -/
structure RficAnswer where
  status : RetCode
  /-- the `cleanup_status` of the calls that have one -/
  cleanup : RetCode
  /-- `ad9361_calibration_state_unknown` afterwards -/
  unknown : Bool
  /-- a register write that failed has reached the register -/
  written : Bool
  /-- `ad9361_remove_ex` took the context -/
  consumed : Bool
  /-- the context that `ad9361_init_with_cleanup` leaves -/
  phy : Option Ad9361Phy
  /-- a frequency or a gain that is read -/
  value : ℕ

structure HostWorld where
  board : HostRfic
  answers : ℕ → RficAnswer
  /-- the message "RFIC fault containment incomplete" was logged -/
  reported : Bool

inductive HostExit
  | status (code : RetCode)
  | range
  | nullDeref
  deriving DecidableEq

abbrev HostM (α : Type) := Lib.StatusM HostExit HostWorld α

/-! ## Channels -/

def bladerfChannelIsTx (ch : ℕ) : Bool := ch % 2 = 1

/-- The channel of a number that passes `bladerf2_channel_valid`. -/
def channelOf (ch : ℕ) : Option BladerfChannel :=
  match ch with
  | 0 => some ⟨.rx, 0⟩
  | 1 => some ⟨.tx, 0⟩
  | 2 => some ⟨.rx, 1⟩
  | 3 => some ⟨.tx, 1⟩
  | _ => none

namespace HostM

/-! ## Calls -/

def modifyBoard (f : HostRfic → HostRfic) : HostM Unit :=
  modify fun w => { w with board := f w.board }

def modifyPhy (f : Ad9361Phy → Ad9361Phy) : HostM Unit :=
  modifyBoard fun b => { b with phy := b.phy.map f }

def board : HostM HostRfic := do return (← get).board

/-- `return status` with an error. -/
def fail {α : Type} (code : RetCode) : HostM α := throw (.status code)

def nextAnswer : HostM RficAnswer := do
  let w ← get
  modify fun w => { w with answers := fun n => w.answers (n + 1) }
  return w.answers 0

def when (c : Prop) [Decidable c] (m : HostM Unit) : HostM Unit := if c then m else pure ()

def call : HostM Unit := do
  let a ← nextAnswer
  if a.status = .ok then pure () else fail a.status

/-- The status of a call that is looked at before it is returned. -/
def attempt (m : HostM Unit) : HostM RetCode :=
  tryCatch (do m; return .ok) fun
    | .status code => return code
    | e => throw e

def adiAnswer : HostM RficAnswer := do
  let b ← board
  if b.phy.isNone then throw .nullDeref
  else
    let a ← nextAnswer
    modifyPhy fun phy => { phy with calibrationStateUnknown := a.unknown }
    return a

def adi : HostM Unit := do
  let a ← adiAnswer
  if a.status = .ok then pure () else fail a.status

def rffeControlRead : HostM (BitVec 32) := do
  call
  return (← board).rffe

def rffeControlWrite (reg : BitVec 32) : HostM Unit := do
  let a ← nextAnswer
  if a.status = .ok then modifyBoard fun b => { b with rffe := reg }
  else do
    modifyBoard fun b => if a.written then { b with rffe := reg } else b
    fail a.status

def rffeControlResetN : ℕ := 0

/-! ## The fault latch -/

/-- `_rfic_host_calibration_faulted`, on the board data. -/
def derive (b : HostRfic) : HostRfic :=
  let faulted := b.calibrationFaulted || b.phy.any (·.calibrationStateUnknown)
  if faulted then { b with calibrationFaulted := true, firKnown := fun _ => false } else b

def calibrationFaulted : HostM Bool := do
  modifyBoard derive
  return (← board).calibrationFaulted

/-- The register of `_rfic_host_clear_rffe_control`. -/
def clearedRffe (reg : BitVec 32) : BitVec 32 :=
  let reg := rffeSetDir .tx false reg
  let reg := rffeSetDir .rx false reg
  let reg := Lib.writeBits (rffeControlSpdt ⟨.rx, 0⟩) rffeControlSpdtShutdown reg
  let reg := Lib.writeBits (rffeControlSpdt ⟨.rx, 1⟩) rffeControlSpdtShutdown reg
  let reg := Lib.writeBits (rffeControlSpdt ⟨.tx, 0⟩) rffeControlSpdtShutdown reg
  let reg := Lib.writeBits (rffeControlSpdt ⟨.tx, 1⟩) rffeControlSpdtShutdown reg
  let reg := rffeSetCh ⟨.rx, 0⟩ false reg
  let reg := rffeSetCh ⟨.tx, 0⟩ false reg
  let reg := rffeSetCh ⟨.rx, 1⟩ false reg
  rffeSetCh ⟨.tx, 1⟩ false reg

def clearRffeControl : HostM Unit := do
  let reg ← rffeControlRead
  rffeControlWrite (clearedRffe reg)

/-- `_rfic_host_fail_closed`, as far as the RF path goes: the TX gate ABORT is one
call. -/
def failClosed : HostM Unit := do
  if ← calibrationFaulted then do
    modifyBoard fun b => { b with rxRfdcCalibrationValidMask := 0 }
    let status ← attempt clearRffeControl
    let gate ← nextAnswer
    if status = .ok ∧ gate.status = .ok then pure ()
    else modify fun w => { w with reported := true }
  else pure ()

def refuse : HostM Unit := do
  failClosed
  fail .unexpected

def refuseFaulted (body : HostM Unit) : HostM Unit := do
  if ← calibrationFaulted then refuse else body

def checkAd936x (fn : HostM Unit) : HostM Unit :=
  refuseFaulted do
    let status ← attempt fn
    if status = .ok then pure ()
    else do
      failClosed
      fail status

/-- A call of the ADI library with a cleanup status, and what its callers do about
either. -/
def adiWithCleanup : HostM Unit := do
  let a ← adiAnswer
  if a.status = .ok ∧ a.cleanup = .ok then pure ()
  else do
    failClosed
    fail (if a.status = .ok then a.cleanup else a.status)

/-! ## TX calibration and mute -/

def txQuadCalibrationFinalize : HostM Unit := do
  let b ← board
  if b.phy.isNone then fail .unexpected
  else
    let a ← adiAnswer
    if a.status = .ok then pure ()
    else if a.unknown then do
      failClosed
      fail a.status
    else do
      -- RX is preserved: only the TX route is taken down
      let _ ← attempt do
        let reg ← rffeControlRead
        let reg := rffeSetDir .tx false reg
        let reg := rffeSetCh ⟨.tx, 1⟩ false (rffeSetCh ⟨.tx, 0⟩ false reg)
        let reg := Lib.writeBits (rffeControlSpdt ⟨.tx, 0⟩) rffeControlSpdtShutdown reg
        rffeControlWrite (Lib.writeBits (rffeControlSpdt ⟨.tx, 1⟩) rffeControlSpdtShutdown reg)
      fail a.status

/-- `_rfic_host_txq_refresh`. -/
def txqRefresh : HostM Unit := do
  let reg ← rffeControlRead
  if rffeDirHasEnabledCh reg .tx then txQuadCalibrationFinalize else pure ()

def txmuteSet (i : Fin 2) (state : Bool) : HostM Unit := do
  let b ← board
  match b.phy with
  | none => fail .inval
  | some phy =>
      let m := phy.txMute i
      if m.mutedValid ∧ m.muted = state then pure ()
      else do
        -- the attenuation is read to be saved, or because none was saved
        when (state || !m.attenCachedValid) adi
        match m.set state with
        | none => fail .unexpected
        | some m' =>
            let status ← attempt adi
            if status = .ok then
              modifyPhy fun phy => { phy with txMute := Function.update phy.txMute i m' }
            else do
              modifyPhy fun phy =>
                { phy with txMute := Function.update phy.txMute i { m with mutedValid := false } }
              fail status

/-- `_rfic_host_set_txmute`. -/
def setTxmute (ch : ℕ) (state : Bool) : HostM Unit :=
  if bladerfChannelIsTx ch then
    checkAd936x <|
      match channelOf ch with
      | some c => txmuteSet c.index state
      | none => fail .inval
  else fail .unsupported

/-! ## Setters -/

def setSampleRate (ch : ℕ) : HostM Unit :=
  match channelOf ch with
  | none => fail .inval
  | some _ => refuseFaulted do
      adiWithCleanup
      txqRefresh

/-- `_rfic_host_set_bandwidth`; the caller may ask for the actual value. -/
def setBandwidth (ch : ℕ) (actual : Bool) : HostM Unit :=
  match channelOf ch with
  | none => fail .inval
  | some _ => refuseFaulted do
      adiWithCleanup
      txqRefresh
      when actual (checkAd936x adi)

def getFrequency : HostM ℕ := do
  let a ← nextAnswer
  checkAd936x do
    let b ← board
    if b.phy.isNone then throw .nullDeref
    else do
      modifyPhy fun phy => { phy with calibrationStateUnknown := a.unknown }
      if a.status = .ok then pure () else fail a.status
  return a.value

def setAd9361PortByFreq (ch : BladerfChannel) (enabled : Bool) (freq : ℕ) : HostM Unit := do
  let b ← board
  if enabled && b.phy.isNone then fail .inval
  else if !enabled then pure ()
  else
    match getBandPortMapByFreq ch.dir freq with
    | none => fail .inval
    | some _ => adi

/-- `_modify_spdt_bits_by_freq`. -/
def spdtBits (reg : BitVec 32) (ch : BladerfChannel) (enabled : Bool) (freq : ℕ) :
    HostM (BitVec 32) :=
  match modifySpdtBitsByFreq reg ch enabled freq with
  | none => fail .inval
  | some reg => pure reg

/-- `_rfic_host_select_band`. -/
def selectBand (ch : BladerfChannel) (freq : ℕ) : HostM Unit :=
  refuseFaulted do
    let regOrig ← rffeControlRead
    let reg ← spdtBits regOrig ⟨ch.dir, 0⟩ (rffeChEnabled regOrig ⟨ch.dir, 0⟩) freq
    let reg ← spdtBits reg ⟨ch.dir, 1⟩ (rffeChEnabled reg ⟨ch.dir, 1⟩) freq
    when (reg ≠ regOrig) (rffeControlWrite reg)
    let portCh := RficBoard.portCh reg ch
    checkAd936x (setAd9361PortByFreq portCh
      (decide (ch.dir = .tx) || rffeChEnabled reg portCh) freq)

def rxRetuneBlocksRfTune (pendingCount : ℕ) (outcomeUnknown : Bool) : Bool :=
  pendingCount ≠ 0 || outcomeUnknown

def rfTunePeerLoUnknown (txTarget dependentFdd rxLoKnown txLoKnown : Bool) : Bool :=
  if !dependentFdd then false
  else if txTarget then !rxLoKnown
  else !txLoKnown

/-- What `_rfic_host_set_frequency` looks at ahead of its first call. -/
def setFrequencyCheck (b : HostRfic) (ch freq : ℕ) : Except HostExit BladerfChannel :=
  if !bladerfChannelIsTx ch && b.rfTransitionPending && !b.rfTransitionSetterActive then
    .error (.status .wouldBlock)
  else if rxRetuneBlocksRfTune b.rxRetune2PendingCount b.rxRetune2OutcomeUnknown then
    .error (.status .wouldBlock)
  else
    match b.phy with
    | none => .error .nullDeref
    | some phy =>
        match phy.pdata with
        | none => .error .nullDeref
        | some pdata =>
            if rfTunePeerLoUnknown (bladerfChannelIsTx ch) (pdata.fdd && !pdata.fddIndependentMode)
                (phy.currentRxLoFreq ≠ 0) (phy.currentTxLoFreq ≠ 0) then
              .error (.status .wouldBlock)
            else
              match channelOf ch with
              | none => .error (.status .inval)
              | some c => if isWithinFrequencyRange c.dir freq then .ok c else .error .range

def setFrequency (ch freq : ℕ) : HostM Unit := do
  let b ← board
  match setFrequencyCheck b ch freq with
  | .error e => throw e
  | .ok c =>
      -- ad9361_fastlock_exit_foreign
      checkAd936x adi
      selectBand c freq
      match c.dir with
      | .tx => do
          checkAd936x do
            adi
            modifyPhy fun phy => { phy with currentTxLoFreq := freq }
          txQuadCalibrationFinalize
      | .rx => do
          checkAd936x do
            adi
            modifyPhy fun phy => { phy with currentRxLoFreq := freq }

/-- `get_gain_offset` and `bladerf2_get_gain_stage_range`: the row of a gain table
that has the current frequency. -/
def gainTableRow : HostM Unit := do
  let _ ← getFrequency
  call

/-- `_rfic_host_set_gain_stage` of "dsa" and of "full". -/
def setGainStage : HostM Unit := do
  gainTableRow
  checkAd936x adi

/-- `_rfic_host_set_gain`; `atten` is the attenuation that the tables make of the gain. -/
def setGain (ch : ℕ) (atten : ℕ) : HostM Unit :=
  refuseFaulted do
    gainTableRow
    match channelOf ch with
    | some ⟨.tx, i⟩ => do
        checkAd936x do
          let b ← board
          match b.phy with
          | none => fail .inval
          | some phy => if (phy.txMute i).mutedValid then pure () else fail .unexpected
        let b ← board
        if b.phy.any fun phy => (phy.txMute i).muted then do
          gainTableRow
          modifyPhy fun phy =>
            { phy with
              txMute := Function.update phy.txMute i
                { phy.txMute i with attenCached := atten, attenCachedValid := true } }
        else setGainStage
    | some ⟨.rx, _⟩ => setGainStage
    | none => fail .inval

/-- `_rfic_host_set_filter`. -/
def setFilter (ch : ℕ) (rxfir txfir : RficFir) : HostM Unit :=
  refuseFaulted do
    let dir : BladerfDirection := if bladerfChannelIsTx ch then .tx else .rx
    let fir := if bladerfChannelIsTx ch then txfir else rxfir
    -- either programming step may change the filter in part
    modifyBoard fun b => { b with firKnown := Function.update b.firKnown dir false }
    let fir := if fir = .custom then bladerfRficFirDefault dir else fir
    if fir = .unhandled then fail .unexpected
    else do
      adiWithCleanup
      adiWithCleanup
      modifyBoard fun b =>
        { b with
          fir := Function.update b.fir dir fir
          firKnown := Function.update b.firKnown dir true }

/-! ## Enable -/

def queryFrequency (enable : Bool) : HostM ℕ := if enable then getFrequency else pure 0

/-- The stream part of `_rfic_host_enable_module`. -/
def backendSetup (dir : BladerfDirection) (dirEnable dirPending backendClear : Bool) :
    HostM Unit :=
  when (dirPending || backendClear) do
    when (!dirEnable || backendClear) call
    when (dirEnable || backendClear) do
      let b ← board
      when (dir = .rx ∧ b.syncInitialized) call
      call

def channelSetup (c : BladerfChannel) (enable chPending faulted : Bool) (freq : ℕ)
    (reg : BitVec 32) : HostM (BitVec 32) :=
  if chPending then do
    let reg ← spdtBits reg c enable freq
    when (c.dir = .tx ∧ !faulted) (checkAd936x (txmuteSet c.index (!enable)))
    return rffeSetCh c enable reg
  else pure reg

/-- The direction part; what it does to the streams is in `Board.RficEnable`. -/
def directionSetup (c : BladerfChannel) (dirEnable dirPending faulted : Bool) (freq : ℕ)
    (reg : BitVec 32) : HostM (BitVec 32) :=
  if dirPending then do
    when (!faulted) (checkAd936x (setAd9361PortByFreq c dirEnable freq))
    return rffeSetDir c.dir dirEnable reg
  else pure reg

def enableModule (ch : ℕ) (enable : Bool) : HostM Unit := do
  let faulted ← calibrationFaulted
  if enable && faulted then refuse
  else
    match channelOf ch with
    | none => fail .inval
    | some c => do
        let freq ← queryFrequency enable
        let regOld ← rffeControlRead
        let b ← board
        let chPending := rffeChEnabled regOld c != enable
        let reg := RficBoard.layoutBits (b.layout c.dir) enable regOld
        let reg ← channelSetup c enable chPending faulted freq reg
        let dirEnable := enable || rffeDirHasEnabledCh reg c.dir
        let dirPending := rffeDirEnabled reg c.dir != dirEnable
        let reg ← directionSetup c dirEnable dirPending faulted freq reg
        when (enable ∧ c.dir = .tx) txQuadCalibrationFinalize
        let mimo := decide (b.layout c.dir = .rxX2 ∨ b.layout c.dir = .txX2)
        when (regOld ≠ reg) (rffeControlWrite reg)
        backendSetup c.dir dirEnable dirPending
          (enable && !dirPending && decide (c.dir = .rx) && !mimo)
        when enable do
          let freq ← getFrequency
          setFrequency ch freq

/-! ## Initialization -/

/-- `ad9361_remove_ex` on the context, when there is one. -/
def removePhy : HostM RetCode := do
  let b ← board
  if b.phy.isNone then return .ok
  else do
    let a ← nextAnswer
    modifyBoard fun b => { b with phy := if a.consumed then none else b.phy }
    return a.status

/-- `_rfic_host_deinitialize_internal`. -/
def deinitInternal (boardResetAsserted : Bool) : HostM Unit := do
  let _ ← calibrationFaulted
  let status ← attempt do
    clearRffeControl
    when boardResetAsserted do
      let reg ← rffeControlRead
      when (reg.getLsbD rffeControlResetN) (fail .unexpected)
    let remove ← removePhy
    when (remove ≠ .ok) (fail remove)
  modifyBoard fun b => { b with firKnown := fun _ => false }
  when (status ≠ .ok) (fail status)

/-- RESETB is asserted, the context is removed, and RESETB is released. -/
def resetAndRemove : HostM Unit := do
  clearRffeControl
  let reg ← rffeControlRead
  rffeControlWrite (Lib.setBit rffeControlResetN false reg)
  deinitInternal true
  rffeControlWrite (Lib.setBit rffeControlResetN true reg)

/-- `_rfic_host_deinitialize`, and `_rfic_host_standby`. -/
def deinit : HostM Unit := do
  if ← calibrationFaulted then resetAndRemove else deinitInternal false

def seedRfdcBankA : HostM Unit := do
  let b ← board
  if b.rxRfdcCalibrationValidMask.getLsbD 0 then pure ()
  else do
    adi
    let status ← attempt do
      adi
      modifyPhy fun phy => { phy with currentRxLoFreq := 3500000000 }
      adi
      adi
      modifyBoard fun b =>
        { b with rxRfdcCalibrationValidMask := b.rxRfdcCalibrationValidMask ||| 1 }
    let restore ← attempt adi
    if status = .ok then (if restore = .ok then pure () else fail restore) else fail status

/-- The steps of `_rfic_host_initialize` that go to `init_fail`. -/
def programRfic : HostM Unit := do
  seedRfdcBankA
  setFilter 0 (bladerfRficFirDefault .rx) .bypass
  setFilter 1 .bypass (bladerfRficFirDefault .tx)
  clearRffeControl
  let b ← board
  match b.phy.bind (·.pdata) with
  | none => throw .nullDeref
  | some pdata => do
      setFrequency 0 pdata.rxSynthFreq
      setFrequency 1 pdata.txSynthFreq
      setTxmute 1 true
      setTxmute 3 true

def initFail (e : HostExit) : HostM Unit := do
  modifyBoard fun b => { b with calibrationFaulted := true }
  let cleanup ← attempt clearRffeControl
  let remove ← removePhy
  modifyBoard fun b => { b with firKnown := fun _ => false }
  throw (if cleanup ≠ .ok then .status cleanup else if remove ≠ .ok then .status remove else e)

/-- `_rfic_host_initialize`; the selected input of the init parameters is
B_BALANCED. -/
def init : HostM Unit := do
  let recovery ← calibrationFaulted
  modifyBoard fun b => { b with rxRfdcCalibrationValidMask := 0 }
  when recovery resetAndRemove
  modifyBoard fun b => { b with firKnown := fun _ => false }
  clearRffeControl
  -- config_gpio_read
  call
  let a ← nextAnswer
  if a.status ≠ .ok then do
    modifyBoard fun b =>
      { b with calibrationFaulted := true, phy := if a.phy.isSome then a.phy else b.phy }
    fail a.status
  else
    match a.phy with
    | none => fail .unexpected
    | some phy =>
        if phy.pdata.isNone then do
          let remove ← nextAnswer
          modifyBoard fun b =>
            if remove.consumed then b else { b with phy := some phy, calibrationFaulted := true }
          if remove.status = .ok then fail .unexpected
          else do
            modifyBoard fun b => { b with calibrationFaulted := true }
            fail remove.status
        else do
          modifyBoard fun b =>
            { b with
              phy := some phy
              rxRfdcCalibrationValidMask := b.rxRfdcCalibrationValidMask ||| 2 }
          tryCatch programRfic fun e => if e = .nullDeref then throw e else initFail e
          modifyBoard fun b => { b with calibrationFaulted := false }

end HostM

/-! ## Operations -/

/-- What other parts of the board write into the state, and the ADI library into
its context, between two operations. -/
structure BoardWrite where
  calibrationStateUnknown : Bool
  rffe : BitVec 32
  layout : BladerfDirection → BladerfChannelLayout
  syncInitialized : Bool
  rfTransitionPending : Bool
  rfTransitionSetterActive : Bool
  rxRetune2PendingCount : ℕ
  rxRetune2OutcomeUnknown : Bool

inductive HostOp
  | init
  | deinit
  | standby
  | enableModule (ch : ℕ) (enable : Bool)
  | setFrequency (ch freq : ℕ)
  | setSampleRate (ch : ℕ)
  | setBandwidth (ch : ℕ) (actual : Bool)
  | setFilter (ch : ℕ) (rxfir txfir : RficFir)
  | setGain (ch atten : ℕ)
  | setTxmute (ch : ℕ) (state : Bool)
  /-- a getter derives the latch -/
  | query
  | elsewhere (w : BoardWrite)

namespace HostOp

open HostM

def run : HostOp → HostM Unit
  | .init => HostM.init
  | .deinit | .standby => HostM.deinit
  | .enableModule ch enable => HostM.enableModule ch enable
  | .setFrequency ch freq => HostM.setFrequency ch freq
  | .setSampleRate ch => HostM.setSampleRate ch
  | .setBandwidth ch actual => HostM.setBandwidth ch actual
  | .setFilter ch rxfir txfir => HostM.setFilter ch rxfir txfir
  | .setGain ch atten => HostM.setGain ch atten
  | .setTxmute ch state => HostM.setTxmute ch state
  | .query => do let _ ← calibrationFaulted
  | .elsewhere w => modifyBoard fun b =>
      { b with
        phy := b.phy.map fun phy => { phy with calibrationStateUnknown := w.calibrationStateUnknown }
        rffe := w.rffe
        layout := w.layout
        syncInitialized := w.syncInitialized
        rfTransitionPending := w.rfTransitionPending
        rfTransitionSetterActive := w.rfTransitionSetterActive
        rxRetune2PendingCount := w.rxRetune2PendingCount
        rxRetune2OutcomeUnknown := w.rxRetune2OutcomeUnknown }

def isSetter : HostOp → Bool
  | .enableModule _ enable => enable
  | .setFrequency .. | .setSampleRate _ | .setBandwidth .. | .setFilter .. | .setGain ..
  | .setTxmute .. => true
  | _ => false

/-- How a setter ends that returns ahead of its check of the latch. -/
def earlyExit (b : HostRfic) : HostOp → Option HostExit
  | .setFrequency ch freq =>
      match setFrequencyCheck b ch freq with
      | .error e => some e
      | .ok _ => none
  | .setSampleRate ch | .setBandwidth ch _ =>
      if (channelOf ch).isNone then some (.status .inval) else none
  | .setTxmute ch _ => if bladerfChannelIsTx ch then none else some (.status .unsupported)
  | _ => none

end HostOp

structure HostStep where
  op : HostOp
  answers : ℕ → RficAnswer

namespace HostRfic

def after (b : HostRfic) (l : HostStep) : Except HostExit Unit × HostWorld :=
  l.op.run.exec ⟨b, l.answers, false⟩

def next (b : HostRfic) (l : HostStep) : HostRfic := (b.after l).2.board

end HostRfic

/-! ## What is asked of the latch -/

/-- No route of the RF front end is connected, and no direction enabled. -/
structure RffeDisconnected (reg : BitVec 32) : Prop where
  direction : ∀ dir, rffeDirEnabled reg dir = false
  channel : ∀ ch, rffeChEnabled reg ch = false
  spdt : ∀ ch, rffeSpdt reg ch = rffeControlSpdtShutdown

/-- The RF path is disconnected, or it was reported that it could not be. -/
def HostWorld.Contained (w : HostWorld) : Prop := RffeDisconnected w.board.rffe ∨ w.reported = true

structure RficAnswer.Succeeds (a : RficAnswer) : Prop where
  status : a.status = .ok
  cleanup : a.cleanup = .ok
  known : a.unknown = false
  consumed : a.consumed = true
  phy : ∃ phy, a.phy = some phy ∧ phy.pdata.isSome = true ∧ phy.calibrationStateUnknown = false

structure Recovered (r : Except HostExit Unit × HostWorld) : Prop where
  returns : r.1 = .ok ()
  cleared : r.2.board.calibrationFaulted = false
  phy : ∃ phy, r.2.board.phy = some phy ∧
    ∀ i, (phy.txMute i).mutedValid = true ∧ (phy.txMute i).muted = true
  fir : ∀ dir, r.2.board.firKnown dir = true

namespace HostRfic

variable (b : HostRfic) (l : HostStep)

/-- In a faulted state a setter returns an error and leaves the RF path contained,
only an INIT that returns 0 clears the latch, and an INIT whose calls all
succeed does. -/
def Latched : Prop :=
  b.calibrationFaulted = true →
    (l.op.isSetter = true →
      (∃ e, (b.after l).1 = .error e ∧ e ≠ .nullDeref) ∧ (b.after l).2.Contained) ∧
    ((b.next l).calibrationFaulted = false → l.op = .init ∧ (b.after l).1 = .ok ()) ∧
    (l.op = .init → (∀ n, (l.answers n).Succeeds) → Recovered (b.after l))

/-- A faulted state is not asked to recover, and a setter that returns ahead of its
check finds the RF path disconnected already. -/
def Bypassed : Prop :=
  b.calibrationFaulted = true →
    (∀ e, l.op.earlyExit b = some e → e ≠ .nullDeref ∧ RffeDisconnected b.rffe) ∧
    ¬(l.op = .init ∧ ∀ n, (l.answers n).Succeeds)

end HostRfic

/-! ## The latch in a faulted state -/

theorem rffeDisconnected_cleared (reg : BitVec 32) :
    RffeDisconnected (HostM.clearedRffe reg) where
  direction dir := by cases dir <;> simp [HostM.clearedRffe]
  channel := by
    rintro ⟨dir, i⟩
    cases dir <;> fin_cases i <;> simp [HostM.clearedRffe]
  spdt := by
    rintro ⟨dir, i⟩
    cases dir <;> fin_cases i <;> simp [HostM.clearedRffe]

open Lib.StatusM

def HostWorld.Faulted (w : HostWorld) : Prop := w.board.calibrationFaulted = true

open HostWorld (Faulted Contained)

namespace HostM

/-! ### Calls keep the latch -/

theorem keeps_modifyBoard {f : HostRfic → HostRfic}
    (h : ∀ b, b.calibrationFaulted = true → (f b).calibrationFaulted = true) :
    Keeps Faulted (modifyBoard f) := Keeps.modify fun w => h w.board

theorem keeps_modifyPhy (f : Ad9361Phy → Ad9361Phy) : Keeps Faulted (modifyPhy f) :=
  keeps_modifyBoard fun _ => id

theorem keeps_board : Keeps Faulted board := Keeps.bind Keeps.get fun _ => Keeps.pure _

theorem keeps_fail {α : Type} (code : RetCode) : Keeps Faulted (fail code : HostM α) := Keeps.throw _

theorem keeps_nextAnswer : Keeps Faulted nextAnswer := by
  refine Keeps.bind Keeps.get fun w => Keeps.bind (Keeps.modify fun _ h => h) fun _ => ?_
  exact Keeps.pure _

theorem keeps_when {c : Prop} [Decidable c] {m : HostM Unit} (h : Keeps Faulted m) :
    Keeps Faulted (when c m) := Keeps.ite h (Keeps.pure _)

theorem keeps_call : Keeps Faulted call :=
  Keeps.bind keeps_nextAnswer fun _ => Keeps.ite (Keeps.pure _) (keeps_fail _)

theorem keeps_attempt {m : HostM Unit} (h : Keeps Faulted m) : Keeps Faulted (attempt m) := by
  refine Keeps.tryCatch (Keeps.bind h fun _ => Keeps.pure _) fun e => ?_
  cases e with
  | status code => exact Keeps.pure _
  | range => exact Keeps.throw _
  | nullDeref => exact Keeps.throw _

theorem keeps_adiAnswer : Keeps Faulted adiAnswer := by
  refine Keeps.bind keeps_board fun b => Keeps.ite (Keeps.throw _) ?_
  refine Keeps.bind keeps_nextAnswer fun a => Keeps.bind (keeps_modifyPhy _) fun _ => ?_
  exact Keeps.pure _

theorem keeps_adi : Keeps Faulted adi :=
  Keeps.bind keeps_adiAnswer fun _ => Keeps.ite (Keeps.pure _) (keeps_fail _)

theorem keeps_rffeControlRead : Keeps Faulted rffeControlRead :=
  Keeps.bind keeps_call fun _ => Keeps.bind keeps_board fun _ => Keeps.pure _

theorem keeps_rffeControlWrite (reg : BitVec 32) : Keeps Faulted (rffeControlWrite reg) := by
  refine Keeps.bind keeps_nextAnswer fun a => Keeps.ite (keeps_modifyBoard fun _ => id) ?_
  refine Keeps.bind (keeps_modifyBoard fun b hb => ?_) fun _ => keeps_fail _
  split
  · exact hb
  · exact hb

theorem keeps_clearRffeControl : Keeps Faulted clearRffeControl :=
  Keeps.bind keeps_rffeControlRead fun _ => keeps_rffeControlWrite _

theorem derive_faulted {b : HostRfic} (h : b.calibrationFaulted = true) :
    (derive b).calibrationFaulted = true := by
  simp [derive, h]

theorem calibrationFaulted_of_faulted :
    Meets Faulted calibrationFaulted (fun faulted w => faulted = true ∧ Faulted w)
      fun _ _ => False := by
  intro w hw
  exact ⟨derive_faulted hw, derive_faulted hw⟩

theorem keeps_calibrationFaulted : Keeps Faulted calibrationFaulted :=
  calibrationFaulted_of_faulted.weaken (fun _ => id) (fun _ _ h => h.2) fun _ _ h => h.elim

/-! ### Containment -/

def CallFailed (e : HostExit) (w : HostWorld) : Prop :=
  ∃ code, e = .status code ∧ code ≠ .ok ∧ Faulted w

/-- A setter has refused: it returned an error and contained the fault. -/
def Refused (e : HostExit) (w : HostWorld) : Prop := e ≠ .nullDeref ∧ Faulted w ∧ Contained w

theorem meets_attempt {P : HostWorld → Prop} {m : HostM Unit} {Q : RetCode → HostWorld → Prop}
    {E : HostExit → HostWorld → Prop}
    (h : Meets P m (fun _ => Q .ok) fun e w => ∃ code, e = .status code ∧ Q code w) :
    Meets P (attempt m) Q E := by
  refine Meets.tryCatch (Meets.bind h fun _ => Meets.pure fun _ => id) fun e => ?_
  cases e with
  | status code =>
      refine Meets.pure fun w hw => ?_
      obtain ⟨_, ⟨rfl⟩, hq⟩ := hw
      exact hq
  | range => exact Meets.throw fun _ hw => by cases hw.choose_spec.1
  | nullDeref => exact Meets.throw fun _ hw => by cases hw.choose_spec.1

theorem meets_nextAnswer {P : HostWorld → Prop} {E : HostExit → HostWorld → Prop}
    (h : ∀ w answers, P w → P { w with answers := answers }) :
    Meets P nextAnswer (fun _ => P) E := fun w hw => h w _ hw

theorem call_of_faulted : Meets Faulted call (fun _ => Faulted) CallFailed :=
  Meets.bind (meets_nextAnswer fun _ _ => id) fun _ =>
    Meets.ite (fun _ => Meets.pure fun _ => id) fun ha => Meets.throw fun _ hw => ⟨_, rfl, ha, hw⟩

theorem rffeControlWrite_of_faulted (reg : BitVec 32) :
    Meets Faulted (rffeControlWrite reg) (fun _ w => Faulted w ∧ w.board.rffe = reg)
      CallFailed := by
  refine Meets.bind (meets_nextAnswer fun _ _ => id) fun _ => Meets.ite (fun _ => ?_) fun ha => ?_
  · exact Meets.modify fun w hw => ⟨hw, rfl⟩
  · refine Meets.bind (Q := fun _ => Faulted) (Meets.modify fun w hw => ?_) fun _ => ?_
    · change HostRfic.calibrationFaulted (if _ then _ else _) = true
      split
      · exact hw
      · exact hw
    · exact Meets.throw fun _ hw => ⟨_, rfl, ha, hw⟩

theorem clearRffeControl_of_faulted :
    Meets Faulted clearRffeControl (fun _ w => Faulted w ∧ RffeDisconnected w.board.rffe)
      CallFailed := by
  refine Meets.bind (Q := fun _ => Faulted) (Meets.bind call_of_faulted fun _ => ?_) fun reg => ?_
  · exact Meets.bind (Meets.bind (Meets.get fun _ => id) fun _ => Meets.pure fun _ => id) fun _ =>
      Meets.pure fun _ => id
  · refine (rffeControlWrite_of_faulted _).weaken (fun _ => id) (fun _ w hw => ?_) fun _ _ => id
    rw [hw.2]
    exact ⟨hw.1, rffeDisconnected_cleared reg⟩

theorem failClosed_of_faulted {E : HostExit → HostWorld → Prop} :
    Meets Faulted failClosed (fun _ w => Faulted w ∧ Contained w) E := by
  refine Meets.bind (calibrationFaulted_of_faulted.weaken (fun _ => id) (fun _ _ => id)
    fun _ _ => False.elim) fun faulted => Meets.ite (fun _ => ?_) fun hno => ?_
  · refine Meets.bind (Q := fun _ => Faulted) (Meets.modify fun w hw => hw.2) fun _ => ?_
    refine Meets.bind
      (Q := fun status w => Faulted w ∧ (status = .ok → RffeDisconnected w.board.rffe))
      (meets_attempt (clearRffeControl_of_faulted.weaken (fun _ => id) (fun _ w hw => ?_)
        fun e w hw => ?_)) fun status => ?_
    · exact ⟨hw.1, fun _ => hw.2⟩
    · obtain ⟨code, rfl, hne, hf⟩ := hw
      exact ⟨code, rfl, hf, fun h => absurd h hne⟩
    · refine Meets.bind (meets_nextAnswer fun _ _ => id) fun gate => Meets.ite (fun hok => ?_) fun _ => ?_
      · exact Meets.pure fun w hw => ⟨hw.1, .inl (hw.2 hok.1)⟩
      · exact Meets.modify fun w hw => ⟨hw.1, .inr rfl⟩
  · exact fun w hw => absurd hw.1 hno

theorem refuse_refuses : Refuses Faulted refuse Refused :=
  Refuses.after failClosed_of_faulted fun _ =>
    Refuses.throw fun _ hw => ⟨nofun, hw⟩

theorem refuseFaulted_refuses (body : HostM Unit) :
    Refuses Faulted (refuseFaulted body) Refused := by
  refine Meets.bind (calibrationFaulted_of_faulted.weaken (fun _ => id) (fun _ _ => id)
    fun _ _ => False.elim) fun faulted => Meets.ite (fun _ => ?_) fun hno => ?_
  · exact refuse_refuses.weaken (fun _ hw => hw.2) fun _ _ => id
  · exact fun w hw => absurd hw.1 hno

theorem checkAd936x_refuses (fn : HostM Unit) :
    Refuses Faulted (checkAd936x fn) Refused := refuseFaulted_refuses _

theorem keeps_of_refuses {α : Type} {m : HostM α}
    (h : Refuses Faulted m Refused) : Keeps Faulted m :=
  Meets.weaken h (fun _ => id) (fun _ _ => False.elim) fun _ _ hw => hw.2.1

theorem keeps_checkAd936x (fn : HostM Unit) : Keeps Faulted (checkAd936x fn) :=
  keeps_of_refuses (checkAd936x_refuses fn)

theorem keeps_failClosed : Keeps Faulted failClosed :=
  failClosed_of_faulted.weaken (fun _ => id) (fun _ _ hw => hw.1) fun _ _ => id

/-! ### Operations that do not check at their start -/

theorem keeps_getFrequency : Keeps Faulted getFrequency :=
  Keeps.bind keeps_nextAnswer fun _ => Keeps.bind (keeps_checkAd936x _) fun _ => Keeps.pure _

theorem keeps_spdtBits (reg : BitVec 32) (ch : BladerfChannel) (enabled : Bool) (freq : ℕ) :
    Keeps Faulted (spdtBits reg ch enabled freq) := by
  rw [spdtBits]
  split
  · exact keeps_fail _
  · exact Keeps.pure _

theorem keeps_backendSetup (dir : BladerfDirection) (dirEnable dirPending backendClear : Bool) :
    Keeps Faulted (backendSetup dir dirEnable dirPending backendClear) := by
  refine keeps_when (Keeps.bind (keeps_when keeps_call) fun _ => keeps_when ?_)
  exact Keeps.bind keeps_board fun _ => Keeps.bind (keeps_when keeps_call) fun _ => keeps_call

theorem setFrequency_refuses {b : HostRfic} {ch freq : ℕ} {c : BladerfChannel}
    (h : setFrequencyCheck b ch freq = .ok c) :
    Refuses (fun w => w.board = b ∧ Faulted w) (setFrequency ch freq) Refused := by
  refine Meets.bind (Q := fun b' w => b' = b ∧ Faulted w) ?_ fun b' => Meets.of_state ?_
  · exact Meets.bind (Meets.get (Q := fun s w => s.board = b ∧ Faulted w) fun _ => id) fun _ =>
      Meets.pure fun _ => id
  · rintro w ⟨rfl, hw⟩
    rw [h]
    refine ((checkAd936x_refuses adi).weaken (fun w' hw' => ?_) fun _ _ => id).bind
    rw [hw']
    exact hw

theorem setFrequency_early {b : HostRfic} {ch freq : ℕ} {e : HostExit}
    (h : setFrequencyCheck b ch freq = .error e) (answers : ℕ → RficAnswer) (reported : Bool) :
    (setFrequency ch freq).exec ⟨b, answers, reported⟩ = (.error e, ⟨b, answers, reported⟩) := by
  rw [setFrequency, exec_bind]
  change (match setFrequencyCheck b ch freq with
    | .error e => (throw e : HostM Unit)
    | .ok c => _).exec ⟨b, answers, reported⟩ = _
  rw [h]
  rfl

theorem keeps_setFrequency (ch freq : ℕ) : Keeps Faulted (setFrequency ch freq) := by
  rintro ⟨b, answers, reported⟩ hw
  cases h : setFrequencyCheck b ch freq with
  | error e =>
      rw [setFrequency_early h]
      exact hw
  | ok c =>
      have := setFrequency_refuses h ⟨b, answers, reported⟩ ⟨rfl, hw⟩
      split at this
      · exact this.elim
      · exact this.2.1

theorem keeps_txQuadCalibrationFinalize : Keeps Faulted txQuadCalibrationFinalize := by
  refine Keeps.bind keeps_board fun b => Keeps.ite (keeps_fail _) ?_
  refine Keeps.bind keeps_adiAnswer fun a => Keeps.ite (Keeps.pure _) (Keeps.ite ?_ ?_)
  · exact Keeps.bind keeps_failClosed fun _ => keeps_fail _
  · refine Keeps.bind (keeps_attempt ?_) fun _ => keeps_fail _
    exact Keeps.bind keeps_rffeControlRead fun _ => keeps_rffeControlWrite _

theorem keeps_channelSetup (c : BladerfChannel) (enable chPending faulted : Bool) (freq : ℕ)
    (reg : BitVec 32) : Keeps Faulted (channelSetup c enable chPending faulted freq reg) := by
  refine Keeps.ite (Keeps.bind (keeps_spdtBits _ _ _ _) fun _ => ?_) (Keeps.pure _)
  exact Keeps.bind (keeps_when (keeps_checkAd936x _)) fun _ => Keeps.pure _

theorem keeps_directionSetup (c : BladerfChannel) (dirEnable dirPending faulted : Bool)
    (freq : ℕ) (reg : BitVec 32) :
    Keeps Faulted (directionSetup c dirEnable dirPending faulted freq reg) :=
  Keeps.ite (Keeps.bind (keeps_when (keeps_checkAd936x _)) fun _ => Keeps.pure _) (Keeps.pure _)

theorem keeps_enableModule (ch : ℕ) (enable : Bool) : Keeps Faulted (enableModule ch enable) := by
  refine Keeps.bind keeps_calibrationFaulted fun faulted => Keeps.ite ?_ ?_
  · exact keeps_of_refuses refuse_refuses
  · split
    · exact keeps_fail _
    · refine Keeps.bind (Keeps.ite keeps_getFrequency (Keeps.pure _)) fun freq => ?_
      refine Keeps.bind keeps_rffeControlRead fun regOld => Keeps.bind keeps_board fun b => ?_
      refine Keeps.bind (keeps_channelSetup _ _ _ _ _ _) fun reg => ?_
      refine Keeps.bind (keeps_directionSetup _ _ _ _ _ _) fun reg => ?_
      refine Keeps.bind (keeps_when keeps_txQuadCalibrationFinalize) fun _ => ?_
      refine Keeps.bind (keeps_when (keeps_rffeControlWrite _)) fun _ => ?_
      refine Keeps.bind (keeps_backendSetup _ _ _ _) fun _ => keeps_when ?_
      exact Keeps.bind keeps_getFrequency fun _ => keeps_setFrequency _ _

theorem enableModule_refuses (ch : ℕ) :
    Refuses Faulted (enableModule ch true) Refused := by
  refine Meets.bind (calibrationFaulted_of_faulted.weaken (fun _ => id) (fun _ _ => id)
    fun _ _ => False.elim) fun faulted => Meets.ite (fun _ => ?_) fun hno => ?_
  · exact refuse_refuses.weaken (fun _ hw => hw.2) fun _ _ => id
  · exact fun w hw => absurd hw.1 (by simpa using hno)

/-! ### Leaving the latch -/

theorem keeps_removePhy : Keeps Faulted removePhy := by
  refine Keeps.bind keeps_board fun b => Keeps.ite (Keeps.pure _) ?_
  refine Keeps.bind keeps_nextAnswer fun a => Keeps.bind (keeps_modifyBoard fun _ => id) fun _ => ?_
  exact Keeps.pure _

theorem keeps_deinitInternal (boardResetAsserted : Bool) :
    Keeps Faulted (deinitInternal boardResetAsserted) := by
  refine Keeps.bind keeps_calibrationFaulted fun _ => Keeps.bind (keeps_attempt ?_) fun status => ?_
  · refine Keeps.bind keeps_clearRffeControl fun _ => Keeps.bind (keeps_when ?_) fun _ => ?_
    · exact Keeps.bind keeps_rffeControlRead fun _ => keeps_when (keeps_fail _)
    · exact Keeps.bind keeps_removePhy fun _ => keeps_when (keeps_fail _)
  · exact Keeps.bind (keeps_modifyBoard fun _ => id) fun _ => keeps_when (keeps_fail _)

theorem keeps_resetAndRemove : Keeps Faulted resetAndRemove := by
  refine Keeps.bind keeps_clearRffeControl fun _ => Keeps.bind keeps_rffeControlRead fun reg => ?_
  refine Keeps.bind (keeps_rffeControlWrite _) fun _ => ?_
  exact Keeps.bind (keeps_deinitInternal true) fun _ => keeps_rffeControlWrite _

theorem keeps_deinit : Keeps Faulted deinit :=
  Keeps.bind keeps_calibrationFaulted fun _ =>
    Keeps.ite keeps_resetAndRemove (keeps_deinitInternal false)

theorem keeps_seedRfdcBankA : Keeps Faulted seedRfdcBankA := by
  refine Keeps.bind keeps_board fun b => Keeps.ite (Keeps.pure _) ?_
  refine Keeps.bind keeps_adi fun _ => Keeps.bind (keeps_attempt ?_) fun status => ?_
  · refine Keeps.bind keeps_adi fun _ => Keeps.bind (keeps_modifyPhy _) fun _ => ?_
    refine Keeps.bind keeps_adi fun _ => Keeps.bind keeps_adi fun _ => ?_
    exact keeps_modifyBoard fun _ => id
  · refine Keeps.bind (keeps_attempt keeps_adi) fun restore => Keeps.ite ?_ (keeps_fail _)
    exact Keeps.ite (Keeps.pure _) (keeps_fail _)

theorem programRfic_refuses : Refuses Faulted programRfic fun _ => Faulted := by
  refine Refuses.after keeps_seedRfdcBankA fun _ => Refuses.bind ?_
  exact (refuseFaulted_refuses _).weaken (fun _ => id) fun _ _ hw => hw.2.1

theorem initFail_refuses (e : HostExit) {P : HostWorld → Prop} :
    Refuses P (initFail e) fun _ => Faulted := by
  refine Refuses.after (Q := fun _ => Faulted) (Meets.modify fun _ _ => rfl) fun _ => ?_
  refine Refuses.after (keeps_attempt keeps_clearRffeControl) fun _ => ?_
  refine Refuses.after keeps_removePhy fun _ => ?_
  refine Refuses.after (keeps_modifyBoard fun _ => id) fun _ => ?_
  exact Refuses.throw fun _ => id

/-- **INIT does not leave the latch**: whatever its calls answer, it returns an
error with the flag still set. -/
theorem init_refuses : Refuses Faulted init fun _ => Faulted := by
  refine Refuses.after keeps_calibrationFaulted fun recovery => ?_
  refine Refuses.after (keeps_modifyBoard fun _ => id) fun _ => ?_
  refine Refuses.after (keeps_when keeps_resetAndRemove) fun _ => ?_
  refine Refuses.after (keeps_modifyBoard fun _ => id) fun _ => ?_
  refine Refuses.after keeps_clearRffeControl fun _ => ?_
  refine Refuses.after keeps_call fun _ => ?_
  refine Refuses.after keeps_nextAnswer fun a => Meets.ite (fun _ => ?_) fun _ => ?_
  · refine Refuses.after (keeps_modifyBoard fun _ _ => rfl) fun _ => ?_
    exact Refuses.throw fun _ => id
  · split
    · exact Refuses.throw fun _ => id
    · refine Meets.ite (fun _ => ?_) fun _ => ?_
      · -- a context without platform data is removed
        refine Refuses.after keeps_nextAnswer fun remove => ?_
        refine Refuses.after (keeps_modifyBoard fun b hb => ?_) fun _ =>
          Meets.ite (fun _ => Refuses.throw fun _ => id) fun _ => ?_
        · split
          · exact hb
          · rfl
        · refine Refuses.after (keeps_modifyBoard fun _ _ => rfl) fun _ => ?_
          exact Refuses.throw fun _ => id
      · refine Refuses.after (keeps_modifyBoard fun _ => id) fun _ => ?_
        refine Refuses.bind (Meets.tryCatch programRfic_refuses fun e => ?_)
        exact Meets.ite (fun _ => Refuses.throw fun _ => id) fun _ => initFail_refuses e

end HostM

namespace HostOp

open HostM

theorem keeps (op : HostOp) : Keeps Faulted op.run := by
  cases op with
  | init => exact Meets.weaken init_refuses (fun _ => id) (fun _ _ => False.elim) fun _ _ => id
  | deinit => exact keeps_deinit
  | standby => exact keeps_deinit
  | enableModule ch enable => exact keeps_enableModule ch enable
  | setFrequency ch freq => exact keeps_setFrequency ch freq
  | setSampleRate ch =>
      simp only [run, HostM.setSampleRate]
      split
      · exact keeps_fail _
      · exact keeps_of_refuses (refuseFaulted_refuses _)
  | setBandwidth ch actual =>
      simp only [run, HostM.setBandwidth]
      split
      · exact keeps_fail _
      · exact keeps_of_refuses (refuseFaulted_refuses _)
  | setFilter ch rxfir txfir => exact keeps_of_refuses (refuseFaulted_refuses _)
  | setGain ch atten => exact keeps_of_refuses (refuseFaulted_refuses _)
  | setTxmute ch state => exact Keeps.ite (keeps_checkAd936x _) (keeps_fail _)
  | query => exact Keeps.bind keeps_calibrationFaulted fun _ => Keeps.pure _
  | elsewhere w => exact keeps_modifyBoard fun _ => id

theorem setter_refuses {op : HostOp} {b : HostRfic} (hset : op.isSetter = true)
    (hearly : op.earlyExit b = none) :
    Refuses (fun w => w.board = b ∧ Faulted w) op.run Refused := by
  cases op with
  | init => cases hset
  | deinit => cases hset
  | standby => cases hset
  | query => cases hset
  | elsewhere w => cases hset
  | enableModule ch enable =>
      obtain rfl : enable = true := hset
      exact (enableModule_refuses ch).weaken (fun _ hw => hw.2) fun _ _ => id
  | setFrequency ch freq =>
      simp only [earlyExit] at hearly
      split at hearly
      · cases hearly
      · exact setFrequency_refuses ‹_›
  | setSampleRate ch =>
      simp only [earlyExit] at hearly
      simp only [run, HostM.setSampleRate]
      split
      · rename_i hch
        simp [hch] at hearly
      · exact (refuseFaulted_refuses _).weaken (fun _ hw => hw.2) fun _ _ => id
  | setBandwidth ch actual =>
      simp only [earlyExit] at hearly
      simp only [run, HostM.setBandwidth]
      split
      · rename_i hch
        simp [hch] at hearly
      · exact (refuseFaulted_refuses _).weaken (fun _ hw => hw.2) fun _ _ => id
  | setFilter ch rxfir txfir =>
      exact (refuseFaulted_refuses _).weaken (fun _ hw => hw.2) fun _ _ => id
  | setGain ch atten =>
      exact (refuseFaulted_refuses _).weaken (fun _ hw => hw.2) fun _ _ => id
  | setTxmute ch state =>
      simp only [earlyExit] at hearly
      refine Meets.ite (fun _ => ?_) fun hrx => ?_
      · exact (checkAd936x_refuses _).weaken (fun _ hw => hw.2) fun _ _ => id
      · simp [hrx] at hearly

theorem early_exec {op : HostOp} {b : HostRfic} {e : HostExit} (h : op.earlyExit b = some e)
    (answers : ℕ → RficAnswer) (reported : Bool) :
    op.run.exec ⟨b, answers, reported⟩ = (.error e, ⟨b, answers, reported⟩) := by
  cases op with
  | setFrequency ch freq =>
      simp only [earlyExit] at h
      split at h
      · cases h
        exact setFrequency_early ‹_› answers reported
      · cases h
  | setSampleRate ch =>
      simp only [earlyExit, Option.isNone_iff_eq_none, Option.ite_none_right_eq_some] at h
      obtain ⟨hch, ⟨rfl⟩⟩ := h
      simp only [run, HostM.setSampleRate, hch]
      rfl
  | setBandwidth ch actual =>
      simp only [earlyExit, Option.isNone_iff_eq_none, Option.ite_none_right_eq_some] at h
      obtain ⟨hch, ⟨rfl⟩⟩ := h
      simp only [run, HostM.setBandwidth, hch]
      rfl
  | setTxmute ch state =>
      simp only [earlyExit, Option.ite_none_left_eq_some] at h
      obtain ⟨hch, ⟨rfl⟩⟩ := h
      simp only [run, HostM.setTxmute, hch]
      rfl
  | _ => cases h

theorem isSetter_of_early {op : HostOp} {b : HostRfic} {e : HostExit}
    (h : op.earlyExit b = some e) : op.isSetter = true := by
  cases op <;> first | rfl | cases h

end HostOp

namespace HostRfic

variable {b : HostRfic} {l : HostStep}

theorem next_faulted (h : b.calibrationFaulted = true) : (b.next l).calibrationFaulted = true := by
  have hkeeps := l.op.keeps ⟨b, l.answers, false⟩ h
  rw [next, after]
  split at hkeeps <;> simp_all [Faulted]

theorem after_refused (h : b.calibrationFaulted = true) (hset : l.op.isSetter = true)
    (hearly : l.op.earlyExit b = none) :
    (∃ e, (b.after l).1 = .error e ∧ e ≠ .nullDeref) ∧ (b.after l).2.Contained := by
  have hrefuse := HostOp.setter_refuses hset hearly ⟨b, l.answers, false⟩ ⟨rfl, h⟩
  rw [after]
  split at hrefuse
  · exact hrefuse.elim
  · rename_i e w heq
    rw [heq]
    exact ⟨⟨e, rfl, hrefuse.1⟩, hrefuse.2.2⟩

theorem not_recovered (h : b.calibrationFaulted = true) : ¬Recovered (b.after l) := by
  intro hrec
  have hfaulted := next_faulted (l := l) h
  rw [next, hrec.cleared] at hfaulted
  cases hfaulted

theorem latched_iff_bypassed : b.Latched l ↔ b.Bypassed l := by
  constructor
  · intro hlatched h
    obtain ⟨hsetter, -, hinit⟩ := hlatched h
    refine ⟨fun e he => ?_, fun ⟨hop, hall⟩ => not_recovered h (hinit hop hall)⟩
    obtain ⟨⟨e', he', hne⟩, hcontained⟩ := hsetter (HostOp.isSetter_of_early he)
    rw [after, HostOp.early_exec he] at he' hcontained
    cases he'
    exact ⟨hne, hcontained.resolve_right Bool.false_ne_true⟩
  · intro hbypassed h
    obtain ⟨hearly, hinit⟩ := hbypassed h
    refine ⟨fun hset => ?_, fun hclear => ?_, fun hop hall => (hinit ⟨hop, hall⟩).elim⟩
    · cases he : l.op.earlyExit b with
      | none => exact after_refused h hset he
      | some e =>
          obtain ⟨hne, hdisc⟩ := hearly e he
          rw [after, HostOp.early_exec he]
          exact ⟨⟨e, rfl, hne⟩, .inl hdisc⟩
    · rw [next_faulted h] at hclear
      cases hclear

/-- **The fault latch over whole runs**: every operation of a sequence does what is
asked of it exactly when none of them bypasses the latch. -/
theorem latch_held_unless_bypassed (b : HostRfic) (ls : List HostStep) :
    Lib.Along next (fun b l _ => b.Latched l) b ls ↔
      Lib.Along next (fun b l _ => b.Bypassed l) b ls := by
  refine Lib.along_iff (I := fun _ => True) (fun b l _ => ?_) (fun _ _ _ _ => trivial) ls b trivial
  exact latched_iff_bypassed

def opened : HostRfic where
  calibrationFaulted := false
  phy := none
  firKnown _ := false
  fir _ := .bypass
  rxRfdcCalibrationValidMask := 0
  rffe := 1
  layout _ := .rxX1
  syncInitialized := false
  rfTransitionPending := false
  rfTransitionSetterActive := false
  rxRetune2PendingCount := 0
  rxRetune2OutcomeUnknown := false

def goodAnswer : RficAnswer where
  status := .ok
  cleanup := .ok
  unknown := false
  written := true
  consumed := true
  phy := some
    { calibrationStateUnknown := false
      pdata := some ⟨true, true, 2400000000, 2400000000⟩
      currentRxLoFreq := 2400000000
      currentTxLoFreq := 2400000000
      txMute := fun _ => ⟨false, false, 0, false, 10000⟩ }
  value := 0

theorem goodAnswer_succeeds : goodAnswer.Succeeds where
  status := rfl
  cleanup := rfl
  known := rfl
  consumed := rfl
  phy := ⟨_, rfl, rfl, rfl⟩

/-- `ad9361_init` fails and leaves no context. -/
def failedInit : HostStep where
  op := .init
  answers
    | 3 => { goodAnswer with status := .io, phy := none }
    | _ => goodAnswer

def goodInit : HostStep := ⟨.init, fun _ => goodAnswer⟩

/-- One INIT whose `ad9361_init` failed, and no later one succeeds: with the same
answers it works on a board that was just opened. -/
theorem init_never_recovers :
    Recovered (opened.after goodInit) ∧ (opened.next failedInit).calibrationFaulted = true ∧
      (∀ n, (goodInit.answers n).Succeeds) ∧
      ((opened.next failedInit).after goodInit).1 = .error (.status .unexpected) ∧
      ¬Lib.Along next (fun b l _ => b.Latched l) opened [failedInit, goodInit] := by
  have hfaulted : (opened.next failedInit).calibrationFaulted = true := by decide
  refine ⟨⟨by decide, by decide, ⟨_, rfl, ?_⟩, fun dir => ?_⟩, hfaulted,
    fun _ => goodAnswer_succeeds, by decide, ?_⟩
  · decide
  · cases dir <;> decide
  · rintro ⟨-, hlatched, -⟩
    exact not_recovered hfaulted ((hlatched hfaulted).2.2 rfl fun _ => goodAnswer_succeeds)

end HostRfic
end BladeRF
