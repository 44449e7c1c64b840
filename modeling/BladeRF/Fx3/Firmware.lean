/-
# `Fx3.Firmware` — the FX3 application states and what each one holds

The firmware's globals, the SDK resources that its applications create and
destroy, and the start and stop functions of the three alternate settings of
USB interface 0.  The SDK side is the one fact the code relies on: a create (or
init) is accepted iff the resource is not live, a destroy (or deinit) iff it
is.  Every other SDK call succeeds, apart from the suspend request of a TX
pause, whose result is an input.  A call that the firmware checks and the SDK
refuses ends in `CyFxAppErrorHandler`, which never returns: from there on a
thread makes no further call.

Endpoint, GPIO, GPIF and clock settings are not part of the state.
-/
import BladeRF.Lib.Steps

namespace BladeRF

inductive AppMode
  | noConfig
  | fpgaConfig
  | rfConfig
  | fwConfig
  deriving DecidableEq

/-- `tx_dma_pause_state`. -/
inductive TxDmaPause
  | idle
  | pending
  | confirmed
  | failed
  deriving DecidableEq

/-- What the applications create: the SPI block, the two sample channels, the
UART block with its two channels, and the FPGA configuration channel. -/
inductive Resource
  | spi
  | utoP
  | ptoU
  | uart
  | utoUart
  | uartToU
  | configUtoP
  deriving DecidableEq

/-- DMA callback types, as far as a notification mask of the firmware names
them. -/
inductive DmaCbType
  | prodEvent
  | consSusp
  | error
  | aborted
  deriving DecidableEq

inductive DmaCallback
  | rfLink
  | configUtoP

/-- The part of `CyU3PDmaChannelConfig_t` that decides who hears of an event. -/
structure DmaChannelConfig where
  notification : List DmaCbType
  cb : Option DmaCallback

def ifNull : ℕ := 0
def ifRfLink : ℕ := 1
def ifSpiFlash : ℕ := 2
def ifConfig : ℕ := 3

structure Fx3 where
  live : Resource → Bool
  /-- How each channel was created last. -/
  channelCfg : Resource → DmaChannelConfig
  refused : Bool
  errorHandler : Bool
  appMode : AppMode
  usbAltInterface : ℕ
  deviceReady : Bool
  autoLoadValid : Bool
  linkStarted : Bool
  configStarted : Bool
  loopback : Bool
  loopbackWhenCreated : Bool
  txDmaPauseState : TxDmaPause

namespace Fx3

/-- A checked call: nothing is called from inside the error handler. -/
def call (f : Fx3 → Fx3) (s : Fx3) : Fx3 := if s.errorHandler then s else f s

/-- `CyU3PDmaChannelCreate` and the init calls, with the firmware's check of the
result. -/
def create (r : Resource) (cfg : DmaChannelConfig) : Fx3 → Fx3 :=
  call fun s =>
    if s.live r then
      { s with
        refused := true
        errorHandler := true }
    else
      { s with
        live := Function.update s.live r true
        channelCfg := Function.update s.channelCfg r cfg }

/-- `CyU3PDmaChannelDestroy` and the deinit calls that are checked. -/
def destroy (r : Resource) : Fx3 → Fx3 :=
  call fun s =>
    if s.live r then { s with live := Function.update s.live r false }
    else
      { s with
        refused := true
        errorHandler := true }

def destroyUnchecked (r : Resource) : Fx3 → Fx3 :=
  call fun s =>
    if s.live r then { s with live := Function.update s.live r false }
    else { s with refused := true }

def noCallback : DmaChannelConfig := ⟨[], none⟩

/-- `dmaCfg` of the two UART channels. -/
def uartDmaCfg : DmaChannelConfig := ⟨[.consSusp, .error, .aborted], some .rfLink⟩

/-- `dmaCfg` of the FPGA configuration channel. -/
def configDmaCfg : DmaChannelConfig := ⟨[.prodEvent], some .configUtoP⟩

def uartBridgeStart (s : Fx3) : Fx3 :=
  s |> create .uart noCallback |> create .utoUart uartDmaCfg |> create .uartToU uartDmaCfg

def uartBridgeStop (s : Fx3) : Fx3 :=
  s |> destroy .uartToU |> destroy .utoUart |> destroy .uart

def nuandRFLinkLoopBack (lp : Bool) (s : Fx3) : Fx3 := { s with loopback := lp }

def nuandRFLinkStop (s : Fx3) : Fx3 :=
  if s.linkStarted then
    { s with linkStarted := false }
      |> destroy .utoP
      |> (fun s => if s.loopbackWhenCreated then s else destroy .ptoU s)
      |> uartBridgeStop
      |> call (fun s => { s with appMode := .noConfig })
  else s

/-- The sample channels are created with `notification = 0` and `cb = 0`. -/
def nuandRFLinkStart (s : Fx3) : Fx3 :=
  nuandRFLinkStop s
    |> call (fun s =>
        { s with
          loopbackWhenCreated := s.loopback
          txDmaPauseState := .idle })
    |> create .utoP noCallback
    |> (fun s => if s.loopback then s else create .ptoU noCallback s)
    |> uartBridgeStart
    |> call (fun s =>
        { s with
          linkStarted := true
          appMode := .rfConfig })

def nuandFpgaConfigStop (s : Fx3) : Fx3 :=
  if s.configStarted then
    { s with configStarted := false }
      |> destroy .configUtoP
      |> call (fun s => { s with appMode := .noConfig })
  else s

def nuandFpgaConfigStart (s : Fx3) : Fx3 :=
  nuandFpgaConfigStop s
    |> create .configUtoP configDmaCfg
    |> call (fun s =>
        { s with
          configStarted := true
          appMode := .fpgaConfig })

/-- `NuandFlashInit` as the event handler calls it: a refused `CyU3PSpiInit` is
returned and sends the handler to `CyFxAppErrorHandler`. -/
def nuandFlashInit (s : Fx3) : Fx3 :=
  s |> create .spi noCallback |> call (fun s => { s with appMode := .fwConfig })

def nuandFlashDeinit (s : Fx3) : Fx3 := destroyUnchecked .spi s

def stopApplication (s : Fx3) : Fx3 :=
  (if s.appMode = .rfConfig then nuandRFLinkStop s
    else if s.appMode = .fpgaConfig then
      -- a flash autoload in progress is not stopped
      if s.deviceReady || !s.autoLoadValid then nuandFpgaConfigStop s else s
    else s)
    |> call (fun s => { s with usbAltInterface := ifNull })

/-! ## USB events -/

inductive UsbEvent
  | setIntf (evdata : ℕ)
  | setConf (evdata : ℕ)
  | reset
  | disconnect
  /-- Vendor request `BLADE_USB_CMD_SET_LOOPBACK`. -/
  | loopBack (lp : Bool)

/-- `(evdata & 0xf0) >> 4`. -/
def intfOf (evdata : ℕ) : ℕ := evdata / 16 % 16

/-- `evdata & 0xf`. -/
def altOf (evdata : ℕ) : ℕ := evdata % 16

def stopSetting (s : Fx3) : Fx3 :=
  if s.usbAltInterface = ifConfig then nuandFpgaConfigStop s
  else if s.usbAltInterface = ifRfLink then nuandRFLinkStop s
  else if s.usbAltInterface = ifSpiFlash then nuandFlashDeinit s
  else s

def startSetting (alt : ℕ) (s : Fx3) : Fx3 :=
  if alt = ifConfig then nuandFpgaConfigStart s
  else if alt = ifRfLink then nuandRFLinkStart s
  else if alt = ifSpiFlash then nuandFlashInit s
  else s

def setInterface (alt : ℕ) (s : Fx3) : Fx3 :=
  if alt = s.usbAltInterface ∧ alt = ifSpiFlash then s
  else
    s |> stopSetting |> call (startSetting alt)
      |> call (fun s => { s with usbAltInterface := alt })

/-- `CyFxbladeRFApplnUSBEventCB`, and the loopback request. -/
def usbEventCB (s : Fx3) (e : UsbEvent) : Fx3 :=
  s |> call (fun s =>
    match e with
    | .setIntf evdata => if intfOf evdata = 0 then setInterface (altOf evdata) s else s
    | .setConf _ => s
    | .reset | .disconnect => stopApplication s
    | .loopBack lp => nuandRFLinkLoopBack lp s)

/-- The state in which `glDeviceReady` is set: nothing is live. -/
def ready (autoLoadValid loopback : Bool) : Fx3 where
  live _ := false
  channelCfg _ := noCallback
  refused := false
  errorHandler := false
  appMode := .noConfig
  usbAltInterface := ifNull
  deviceReady := true
  autoLoadValid := autoLoadValid
  linkStarted := false
  configStarted := false
  loopback := loopback
  loopbackWhenCreated := false
  txDmaPauseState := .idle

end Fx3

end BladeRF
