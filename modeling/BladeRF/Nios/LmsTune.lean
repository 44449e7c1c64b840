/-
# `Nios.LmsTune` — what a retune of the LMS6002D does to the board

The devices are those of the board, whose state the firmware does not see: it
reads and writes LMS registers over the SPI arbiter, which may be refused,
writes two GPIO ports and waits.  `lms_set_precalculated_frequency` programs the
PLL and looks for a VCOCAP in the middle of the range that locks, `band_select`
routes the band it is in, and `xb_config_write` sets the XB-200 for it.
-/
import BladeRF.Lib.Status
import BladeRF.Nios.Device

namespace BladeRF

/-- The devices of a board with states `σ`. -/
structure LmsBoard (σ : Type) where
  lms6Read : BitVec 8 → σ → Option (BitVec 8) × σ
  /-- `lms6_write`, of an address and a byte. -/
  lms6Write : BitVec 8 → BitVec 8 → σ → Bool × σ
  controlRegRead : σ → BitVec 32
  controlRegWrite : BitVec 32 → σ → Bool × σ
  expansionPortRead : σ → BitVec 32
  expansionPortWrite : BitVec 32 → σ → Bool × σ
  /-- `VTUNE_BUSY_WAIT`, in µs. -/
  busyWait : ℕ → σ → σ

/-- `struct lms_freq`, as the firmware builds it. -/
structure LmsFreq where
  freqsel : BitVec 8
  vcocap : BitVec 8
  nint : BitVec 16
  nfrac : BitVec 32
  flags : BitVec 8
  xbGpio : BitVec 8
  vcocapResult : BitVec 8

def lmsFreqFlagsLowBand : BitVec 8 := 0x01
def lmsFreqFlagsForceVcocap : BitVec 8 := 0x02

/-- The board, and the field of the caller's `struct lms_freq` that tuning
fills in. -/
structure LmsState (σ : Type) where
  dev : σ
  vcocapResult : BitVec 8

/-- Firmware that returns a status: what is thrown is the status it returns. -/
abbrev LmsM (σ : Type) := Lib.StatusM ℤ (LmsState σ)

variable {σ : Type} (b : LmsBoard σ)

/-! ## The accessors of `libbladeRF_nios_compat.h` -/

def lmsRead (addr : BitVec 8) : LmsM σ (BitVec 8) := do
  let s ← get
  set { s with dev := (b.lms6Read addr s.dev).2 }
  match (b.lms6Read addr s.dev).1 with
  | some data => pure data
  | none => throw (-1)

def lmsWrite (addr data : BitVec 8) : LmsM σ Unit := do
  let s ← get
  set { s with dev := (b.lms6Write addr data s.dev).2 }
  if (b.lms6Write addr data s.dev).1 then pure () else throw (-1)

def configGpioRead : LmsM σ (BitVec 32) := do
  let s ← get
  pure (b.controlRegRead s.dev)

def configGpioWrite (data : BitVec 32) : LmsM σ Unit := do
  let s ← get
  set { s with dev := (b.controlRegWrite data s.dev).2 }
  if (b.controlRegWrite data s.dev).1 then pure () else throw (-1)

def vtuneBusyWait (us : ℕ) : LmsM σ Unit :=
  modify fun s => { s with dev := b.busyWait us s.dev }

theorem lmsRead_exec (addr : BitVec 8) (s : LmsState σ) :
    (lmsRead b addr).exec s =
      ((b.lms6Read addr s.dev).1.elim (.error (-1)) .ok,
        { s with dev := (b.lms6Read addr s.dev).2 }) := by
  show (match (b.lms6Read addr s.dev).1 with
    | some data => pure data
    | none => throw (-1) : LmsM σ (BitVec 8)).exec { s with dev := (b.lms6Read addr s.dev).2 } = _
  cases (b.lms6Read addr s.dev).1 <;> rfl

theorem lmsWrite_exec (addr data : BitVec 8) (s : LmsState σ) :
    (lmsWrite b addr data).exec s =
      (if (b.lms6Write addr data s.dev).1 then .ok () else .error (-1),
        { s with dev := (b.lms6Write addr data s.dev).2 }) := by
  show (if (b.lms6Write addr data s.dev).1 then pure () else throw (-1) : LmsM σ Unit).exec
    { s with dev := (b.lms6Write addr data s.dev).2 } = _
  split <;> rfl

theorem configGpioWrite_exec (data : BitVec 32) (s : LmsState σ) :
    (configGpioWrite b data).exec s =
      (if (b.controlRegWrite data s.dev).1 then .ok () else .error (-1),
        { s with dev := (b.controlRegWrite data s.dev).2 }) := by
  show (if (b.controlRegWrite data s.dev).1 then pure () else throw (-1) : LmsM σ Unit).exec
    { s with dev := (b.controlRegWrite data s.dev).2 } = _
  split <;> rfl

/-- `BLADERF_ERR_UNEXPECTED`. -/
def lmsErrUnexpected : ℤ := -1

/-! ## Loopback -/

def lbenLpfin : BitVec 8 := 0x40
def lbenVga2in : BitVec 8 := 0x20
def lbenMask : BitVec 8 := 0x70
def loopbbenTxlpf : BitVec 8 := 0x04
def loopbbenTxvga : BitVec 8 := 0x08

/-- `lms_get_loopback_mode`, as far as `is_loopback_enabled` asks: whether the
mode is another than `BLADERF_LB_NONE`. -/
def isLoopbackEnabled : LmsM σ Bool := do
  let lbenLbrfen ← lmsRead b 0x08
  let loopbben ← lmsRead b 0x46
  let lna := lbenLbrfen &&& 0x7
  if lna = 1 ∨ lna = 2 ∨ lna = 3 then
    pure true
  else if lbenLbrfen &&& lbenMask = lbenVga2in ∨ lbenLbrfen &&& lbenMask = lbenLpfin then
    pure (loopbben &&& loopbbenTxlpf != 0 || loopbben &&& loopbbenTxvga != 0)
  else
    pure false

/-! ## The PLL -/

def writePllConfig (module : BladerfModule) (freqsel : BitVec 8) (lowBand : Bool) :
    LmsM σ Unit := do
  let addr := if module = .tx then 0x15 else 0x25
  let regval ← lmsRead b addr
  if ← isLoopbackEnabled b then
    -- the PLL output buffer is left alone
    lmsWrite b addr ((regval &&& ~~~(0xfc : BitVec 8)) ||| (freqsel <<< 2))
  else
    let selout := if lowBand then 1 else 2
    lmsWrite b addr ((freqsel <<< 2) ||| selout)

def vcocapMaxValue : BitVec 8 := 0x3f
def vcoHigh : BitVec 8 := 0x02
def vcoNorm : BitVec 8 := 0x00
def vcoLow : BitVec 8 := 0x01
def vtuneDelayLarge : ℕ := 50
def vtuneDelaySmall : ℕ := 25
def vtuneMaxIterations : ℕ := 20
def vcocapMaxLowHigh : BitVec 8 := 12

def getVtune (base : BitVec 8) (delay : ℕ) : LmsM σ (BitVec 8) := do
  if delay ≠ 0 then
    vtuneBusyWait b delay
  let vtune ← lmsRead b (base + 10)
  pure (vtune >>> 6)

def writeVcocap (base vcocap vcocapRegState : BitVec 8) : LmsM σ Unit :=
  lmsWrite b (base + 9) (vcocap ||| vcocapRegState)

/-- What the three walks of VCOCAP differ in: where they stop and the limit they
then report, the step, the VTUNE they look for, and how far the limit is from the
VCOCAP that has it. -/
structure VtuneWalk where
  atEnd : BitVec 8 → Bool
  endLimit : BitVec 8
  inc : BitVec 8
  target : BitVec 8
  limitOffset : BitVec 8

/-- One of the walks, with what is left of `VTUNE_MAX_ITERATIONS`; it returns the
limit it found. -/
def vtuneWalk (w : VtuneWalk) (base vcocapRegState : BitVec 8) :
    ℕ → BitVec 8 → LmsM σ (BitVec 8)
  | 0, _ => throw lmsErrUnexpected
  | n + 1, vcocap =>
      if w.atEnd vcocap then pure w.endLimit
      else do
        let vcocap := vcocap + w.inc
        writeVcocap b base vcocap vcocapRegState
        let vtune ← getVtune b base vtuneDelaySmall
        if vtune = w.target then pure (vcocap + w.limitOffset)
        else vtuneWalk w base vcocapRegState n vcocap

def vtuneHighToNorm (base vcocap vcocapRegState : BitVec 8) : LmsM σ (BitVec 8) :=
  vtuneWalk b ⟨fun v => vcocapMaxValue ≤ v, vcocapMaxValue, 1, vcoNorm, -1⟩
    base vcocapRegState vtuneMaxIterations vcocap

def vtuneNormToHigh (base vcocap vcocapRegState : BitVec 8) : LmsM σ (BitVec 8) :=
  vtuneWalk b ⟨fun v => v = 0, 0, -1, vcoHigh, 0⟩
    base vcocapRegState vtuneMaxIterations vcocap

def vtuneLowToNorm (base vcocap vcocapRegState : BitVec 8) : LmsM σ (BitVec 8) :=
  vtuneWalk b ⟨fun v => v = 0, 0, -1, vcoNorm, 1⟩
    base vcocapRegState vtuneMaxIterations vcocap

/-- The retries of `wait_for_vtune_value`: whether the target was seen. -/
def retryVtune (base target : BitVec 8) : ℕ → LmsM σ Bool
  | 0 => pure false
  | n + 1 => do
      let vtune ← getVtune b base 0
      if vtune = target then pure true
      else
        vtuneBusyWait b 10
        retryVtune base target n

/-- The `while` of `wait_for_vtune_value`, `n` steps of `inc` before its limit. -/
def walkVcocap (base target vcocapRegState inc : BitVec 8) : ℕ → BitVec 8 → LmsM σ (BitVec 8)
  | 0, vcocap => pure vcocap
  | n + 1, vcocap => do
      let vcocap := vcocap + inc
      writeVcocap b base vcocap vcocapRegState
      let vtune ← getVtune b base vtuneDelaySmall
      if vtune = target then pure vcocap
      else walkVcocap base target vcocapRegState inc n vcocap

/-- The VCOCAP it leaves is returned; it is no error not to see the target. -/
def waitForVtuneValue (base target vcocap vcocapRegState : BitVec 8) : LmsM σ (BitVec 8) := do
  if ← retryVtune b base target 15 then
    pure vcocap
  else if target = vcoHigh then
    walkVcocap b base target vcocapRegState (-1) vcocap.toNat vcocap
  else
    walkVcocap b base target vcocapRegState 1 (vcocapMaxValue - vcocap).toNat vcocap

/-- The midpoint, in `int`. -/
def vcocapMidpoint (vtuneHighLimit vtuneLowLimit : BitVec 8) : BitVec 8 :=
  BitVec.ofInt 8 (vtuneHighLimit.toNat
    + ((vtuneLowLimit.toNat : ℤ) - vtuneHighLimit.toNat).tdiv 2)

/-- The first limit that `tune_vcocap` looks for, from where the estimate is; the
other is at its end of the range. -/
def firstVtuneLimit (vtune vcocapEst base vcocapRegState : BitVec 8) :
    LmsM σ (BitVec 8 × BitVec 8) := do
  if vtune = vcoHigh then
    let vtuneHighLimit ← vtuneHighToNorm b base vcocapEst vcocapRegState
    pure (vtuneHighLimit, 0)
  else if vtune = vcoNorm then
    let vtuneHighLimit ← vtuneNormToHigh b base vcocapEst vcocapRegState
    pure (vtuneHighLimit, 0)
  else if vtune = vcoLow then
    let vtuneLowLimit ← vtuneLowToNorm b base vcocapEst vcocapRegState
    pure (vcocapMaxValue, vtuneLowLimit)
  else
    pure (vcocapMaxValue, 0)

def secondVtuneLimit (vtune : BitVec 8) (limits : BitVec 8 × BitVec 8)
    (base vcocapRegState : BitVec 8) : LmsM σ (BitVec 8 × BitVec 8) := do
  if limits.1 ≠ vcocapMaxValue then
    if ¬(vtune = vcoHigh ∨ vtune = vcoNorm) then
      throw lmsErrUnexpected
    let vcocap :=
      if limits.1.toNat + vcocapMaxLowHigh.toNat < vcocapMaxValue.toNat then
        limits.1 + vcocapMaxLowHigh
      else vcocapMaxValue
    writeVcocap b base vcocap vcocapRegState
    let vcocap ← waitForVtuneValue b base vcoLow vcocap vcocapRegState
    let vtuneLowLimit ← vtuneLowToNorm b base vcocap vcocapRegState
    pure (limits.1, vtuneLowLimit)
  else
    if ¬(vtune = vcoLow ∨ vtune = vcoNorm) then
      throw lmsErrUnexpected
    let vcocap :=
      if (limits.2.toNat : ℤ) - vcocapMaxLowHigh.toNat > 0 then limits.2 - vcocapMaxLowHigh
      else 0
    writeVcocap b base vcocap vcocapRegState
    let vcocap ← waitForVtuneValue b base vcoHigh vcocap vcocapRegState
    let vtuneHighLimit ← vtuneHighToNorm b base vcocap vcocapRegState
    pure (vtuneHighLimit, limits.2)

def tuneVcocap (vcocapEst base vcocapRegState : BitVec 8) : LmsM σ Unit := do
  let vtune ← getVtune b base vtuneDelayLarge
  let limits ← firstVtuneLimit b vtune vcocapEst base vcocapRegState
  let limits ← secondVtuneLimit b vtune limits base vcocapRegState
  let vcocap := vcocapMidpoint limits.1 limits.2
  writeVcocap b base vcocap vcocapRegState
  modify fun s => { s with vcocapResult := vcocap }
  let vtune ← getVtune b base vtuneDelaySmall
  if vtune ≠ vcoNorm then
    throw lmsErrUnexpected

/-- What `lms_set_precalculated_frequency` does while the DSMs are on. -/
def lmsProgramFrequency (module : BladerfModule) (f : LmsFreq) : LmsM σ Unit := do
  let base : BitVec 8 := if module = .rx then 0x20 else 0x10
  let pllBase := base ||| 0x80
  let vcocapReg ← lmsRead b (base + 9)
  let vcocapRegState := vcocapReg &&& ~~~(0x3f : BitVec 8)
  writeVcocap b base f.vcocap vcocapRegState
  writePllConfig b module f.freqsel (f.flags &&& lmsFreqFlagsLowBand != 0)
  lmsWrite b (pllBase + 0) ((f.nint >>> 1).setWidth 8)
  lmsWrite b (pllBase + 1)
    (((f.nint &&& 1) <<< 7).setWidth 8 ||| ((f.nfrac >>> 16) &&& 0x7f).setWidth 8)
  lmsWrite b (pllBase + 2) ((f.nfrac >>> 8) &&& 0xff |>.setWidth 8)
  lmsWrite b (pllBase + 3) (f.nfrac &&& 0xff |>.setWidth 8)
  if f.flags &&& lmsFreqFlagsForceVcocap ≠ 0 then
    modify fun s => { s with vcocapResult := f.vcocap }
  else
    tuneVcocap b f.vcocap base vcocapRegState

def lmsUpdateDsm (update : BitVec 8 → BitVec 8) : LmsM σ Unit := do
  let data ← lmsRead b 0x09
  lmsWrite b 0x09 (update data)

/-- The status of a part whose failure does not end the function. -/
def lmsStatus (m : LmsM σ Unit) : LmsM σ ℤ :=
  tryCatch (m >>= fun _ => pure 0) pure

def lmsSetPrecalculatedFrequency (module : BladerfModule) (f : LmsFreq) : LmsM σ Unit := do
  modify fun s => { s with vcocapResult := 0xff }
  lmsUpdateDsm b (· ||| 0x05)
  let status ← lmsStatus (lmsProgramFrequency b module f)
  let dsmStatus ← lmsStatus (lmsUpdateDsm b (· &&& ~~~(0x05 : BitVec 8)))
  let result := if status = 0 then dsmStatus else status
  if result ≠ 0 then
    throw result

/-! ## The band -/

/-- `lms_select_pa`, of the `PA_EN` bits. -/
def lmsSelectPa (paEn : BitVec 8) : LmsM σ Unit := do
  let data ← lmsRead b 0x44
  lmsWrite b 0x44 (((data &&& ~~~(0x1c : BitVec 8)) ||| 0x02) ||| (paEn <<< 2))

def lmsSelectLna (lna : BitVec 8) : LmsM σ Unit := do
  let data ← lmsRead b 0x75
  lmsWrite b 0x75 ((data &&& ~~~(0x30 : BitVec 8)) ||| ((lna &&& 3) <<< 4))

def lmsSelectBand (module : BladerfModule) (lowBand : Bool) : LmsM σ Unit := do
  -- in a loopback mode the PA and the LNA stay as they are
  if ← isLoopbackEnabled b then
    pure ()
  else if module = .tx then
    lmsSelectPa b (if lowBand then 2 else 4)
  else
    lmsSelectLna b (if lowBand then 1 else 2)

def bandSelect (module : BladerfModule) (lowBand : Bool) : LmsM σ Unit := do
  let band : BitVec 32 := if lowBand then 2 else 1
  lmsSelectBand b module lowBand
  let gpio ← configGpioRead b
  let shift := if module = .tx then 3 else 5
  configGpioWrite b ((gpio &&& ~~~((3 : BitVec 32) <<< shift)) ||| (band <<< shift))

/-! ## The XB-200 -/

def lmsFreqXb200Enable : BitVec 8 := 0x80
def lmsFreqXb200ModuleRx : BitVec 8 := 0x40

/-- `LMS_FREQ_XB_200_FILTER_SW`, shifted. -/
def xb200FilterSw (xbGpio : BitVec 8) : BitVec 8 := ((xbGpio &&& 0x30) >>> 4) &&& 3

/-- `LMS_FREQ_XB_200_PATH`, shifted. -/
def xb200Path (xbGpio : BitVec 8) : BitVec 8 := ((xbGpio &&& 0x0c) >>> 2) &&& 3

def xb200Enabled (xbGpio : BitVec 8) : Bool := xbGpio &&& lmsFreqXb200Enable != 0

def xb200ModuleRx (xbGpio : BitVec 8) : Bool := xbGpio &&& lmsFreqXb200ModuleRx != 0

/-- The expansion port that `xb_config_write` computes. -/
def xb200Port (xbGpio : BitVec 8) (val : BitVec 32) : BitVec 32 :=
  if xb200ModuleRx xbGpio then
    (val &&& ~~~(0x30000030 : BitVec 32)) ||| ((xb200FilterSw xbGpio).setWidth 32 <<< 28)
      ||| ((xb200Path xbGpio).setWidth 32 <<< 4) ||| 0x2000
  else
    (val &&& ~~~(0x0c00000c : BitVec 32)) ||| ((xb200FilterSw xbGpio).setWidth 32 <<< 26)
      ||| ((xb200Path xbGpio).setWidth 32 <<< 2) ||| 0x1000

def xb200Swap (xbGpio reg : BitVec 8) : BitVec 8 :=
  let swap : BitVec 8 := if xb200ModuleRx xbGpio then 0x40 else 0x08
  if xb200Path xbGpio &&& 1 ≠ 0 then reg ||| swap else reg &&& ~~~swap

/-- `xb_config_write`; its `false` is the -1 that `pkt_retune` makes of it. -/
def xbConfigWrite (xbGpio : BitVec 8) : LmsM σ Unit := do
  let s ← get
  let val := xb200Port xbGpio (b.expansionPortRead s.dev)
  if xb200Enabled xbGpio then
    set { s with dev := (b.expansionPortWrite val s.dev).2 }
    if ¬(b.expansionPortWrite val s.dev).1 then
      throw (-1)
    let reg ← lmsRead b 0x5a
    lmsWrite b 0x5a (xb200Swap xbGpio reg)

end BladeRF
