/-
# `Fx3.Lifecycle` — the resources of the selected setting, and no others

What the firmware believes to be live is spread over `glAppMode`,
`glUsbAltInterface`, `link_started` and `config_started`; the SPI block has no
flag.  `Held` says that these agree with the SDK.  A SETINTF keeps it, from any
setting to any other.  A reset keeps it in every setting but the SPI flash one:
`StopApplication` has no case for that mode, yet forgets the setting, so the
block stays live behind it and the next SETINTF finds it there.
-/
import BladeRF.Fx3.Firmware

namespace BladeRF

namespace Fx3

/-- The resources of an alternate setting; the second sample channel is left
out when the link was created in loopback. -/
def resourcesOf (alt : ℕ) (loopback : Bool) : Resource → Bool
  | .spi => alt = ifSpiFlash
  | .configUtoP => alt = ifConfig
  | .ptoU => alt = ifRfLink && !loopback
  | .utoP | .uart | .utoUart | .uartToU => alt = ifRfLink

/-- Nothing runs: no resource is live and no start flag is set. -/
structure Idle (s : Fx3) : Prop where
  refused : s.refused = false
  errorHandler : s.errorHandler = false
  deviceReady : s.deviceReady = true
  live : ∀ r, s.live r = false
  link : s.linkStarted = false
  config : s.configStarted = false
  mode : s.appMode ≠ .rfConfig ∧ s.appMode ≠ .fpgaConfig

/-- The five places where the firmware keeps what is live agree with the SDK. -/
structure Held (s : Fx3) : Prop where
  refused : s.refused = false
  errorHandler : s.errorHandler = false
  deviceReady : s.deviceReady = true
  live : ∀ r, s.live r = resourcesOf s.usbAltInterface s.loopbackWhenCreated r
  link : s.linkStarted = decide (s.usbAltInterface = ifRfLink)
  config : s.configStarted = decide (s.usbAltInterface = ifConfig)
  rfMode : s.appMode = .rfConfig ↔ s.usbAltInterface = ifRfLink
  fpgaMode : s.appMode = .fpgaConfig ↔ s.usbAltInterface = ifConfig

variable {s : Fx3}

/-! ## The applications, one at a time -/

theorem nuandRFLinkStop_idle (h : Held s) (halt : s.usbAltInterface = ifRfLink) :
    Idle (nuandRFLinkStop s) := by
  have hlink : s.linkStarted = true := by simpa [halt] using h.link
  have hconf : s.configStarted = false := by simpa [halt, ifRfLink, ifConfig] using h.config
  have hlive := h.live
  simp only [halt] at hlive
  cases hlp : s.loopbackWhenCreated with
  | false =>
      constructor <;>
        simp [nuandRFLinkStop, uartBridgeStop, destroy, call, hlink, hconf, hlp, h.errorHandler,
          h.refused, h.deviceReady, hlive, resourcesOf, Function.update_apply]
      intro r
      cases r <;> simp [ifRfLink, ifSpiFlash, ifConfig]
  | true =>
      constructor <;>
        simp [nuandRFLinkStop, uartBridgeStop, destroy, call, hlink, hconf, hlp, h.errorHandler,
          h.refused, h.deviceReady, hlive, resourcesOf, Function.update_apply]
      intro r
      cases r <;> simp [ifRfLink, ifSpiFlash, ifConfig]

theorem nuandFpgaConfigStop_idle (h : Held s) (halt : s.usbAltInterface = ifConfig) :
    Idle (nuandFpgaConfigStop s) := by
  have hlink : s.linkStarted = false := by simpa [halt, ifRfLink, ifConfig] using h.link
  have hconf : s.configStarted = true := by simpa [halt] using h.config
  have hlive := h.live
  simp only [halt] at hlive
  constructor <;>
    simp [nuandFpgaConfigStop, destroy, call, hlink, hconf, h.errorHandler, h.refused,
      h.deviceReady, hlive, resourcesOf, Function.update_apply]
  intro r
  cases r <;> simp [ifRfLink, ifSpiFlash, ifConfig]

theorem nuandFlashDeinit_idle (h : Held s) (halt : s.usbAltInterface = ifSpiFlash) :
    Idle (nuandFlashDeinit s) := by
  have hlink : s.linkStarted = false := by simpa [halt, ifRfLink, ifSpiFlash] using h.link
  have hconf : s.configStarted = false := by simpa [halt, ifConfig, ifSpiFlash] using h.config
  have hrf : s.appMode ≠ .rfConfig := by simp [h.rfMode, halt, ifRfLink, ifSpiFlash]
  have hfpga : s.appMode ≠ .fpgaConfig := by simp [h.fpgaMode, halt, ifConfig, ifSpiFlash]
  have hlive := h.live
  simp only [halt] at hlive
  constructor <;>
    simp [nuandFlashDeinit, destroyUnchecked, call, hlink, hconf, h.errorHandler, h.refused,
      h.deviceReady, hlive, resourcesOf, Function.update_apply, hrf, hfpga]
  intro r
  cases r <;> simp [ifRfLink, ifSpiFlash, ifConfig]

theorem Held.idle (h : Held s) (hr : s.usbAltInterface ≠ ifRfLink)
    (hc : s.usbAltInterface ≠ ifConfig) (hs : s.usbAltInterface ≠ ifSpiFlash) : Idle s where
  refused := h.refused
  errorHandler := h.errorHandler
  deviceReady := h.deviceReady
  live r := by
    rw [h.live r]
    cases r <;> simp [resourcesOf, hr, hc, hs]
  link := by simpa [hr] using h.link
  config := by simpa [hc] using h.config
  mode := ⟨by simp [h.rfMode, hr], by simp [h.fpgaMode, hc]⟩

theorem stopSetting_idle (h : Held s) : Idle (stopSetting s) := by
  unfold stopSetting
  split_ifs with hc hr hs
  · exact nuandFpgaConfigStop_idle h hc
  · exact nuandRFLinkStop_idle h hr
  · exact nuandFlashDeinit_idle h hs
  · exact h.idle hr hc hs

theorem nuandRFLinkStart_held (h : Idle s) :
    Held { nuandRFLinkStart s with usbAltInterface := ifRfLink } := by
  cases hlp : s.loopback with
  | false =>
      constructor <;>
        simp [nuandRFLinkStart, nuandRFLinkStop, uartBridgeStart, create, call, h.link, h.config,
          hlp, h.errorHandler, h.refused, h.deviceReady, h.live, Function.update_apply,
          ifRfLink, ifConfig]
      intro r
      cases r <;> simp [resourcesOf, ifRfLink, ifSpiFlash, ifConfig]
  | true =>
      constructor <;>
        simp [nuandRFLinkStart, nuandRFLinkStop, uartBridgeStart, create, call, h.link, h.config,
          hlp, h.errorHandler, h.refused, h.deviceReady, h.live, Function.update_apply,
          ifRfLink, ifConfig]
      intro r
      cases r <;> simp [resourcesOf, ifRfLink, ifSpiFlash, ifConfig]

theorem nuandFpgaConfigStart_held (h : Idle s) :
    Held { nuandFpgaConfigStart s with usbAltInterface := ifConfig } := by
  constructor <;>
    simp [nuandFpgaConfigStart, nuandFpgaConfigStop, create, call, h.link, h.config,
      h.errorHandler, h.refused, h.deviceReady, h.live, Function.update_apply, ifRfLink, ifConfig]
  intro r
  cases r <;> simp [resourcesOf, ifRfLink, ifSpiFlash, ifConfig]

theorem nuandFlashInit_held (h : Idle s) :
    Held { nuandFlashInit s with usbAltInterface := ifSpiFlash } := by
  constructor <;>
    simp [nuandFlashInit, create, call, h.link, h.config, h.errorHandler, h.refused,
      h.deviceReady, h.live, Function.update_apply, ifRfLink, ifConfig, ifSpiFlash]
  intro r
  cases r <;> simp [resourcesOf, ifRfLink, ifSpiFlash, ifConfig]

theorem Idle.held (h : Idle s) {alt : ℕ} (hr : alt ≠ ifRfLink) (hc : alt ≠ ifConfig)
    (hs : alt ≠ ifSpiFlash) : Held { s with usbAltInterface := alt } where
  refused := h.refused
  errorHandler := h.errorHandler
  deviceReady := h.deviceReady
  live r := by
    rw [h.live r]
    cases r <;> simp [resourcesOf, hr, hc, hs]
  link := by simpa [hr] using h.link
  config := by simpa [hc] using h.config
  rfMode := by simp [h.mode.1, hr]
  fpgaMode := by simp [h.mode.2, hc]

theorem startSetting_held (h : Idle s) (alt : ℕ) :
    Held { startSetting alt s with usbAltInterface := alt } := by
  unfold startSetting
  split_ifs with hc hr hs
  · subst hc
    exact nuandFpgaConfigStart_held h
  · subst hr
    exact nuandRFLinkStart_held h
  · subst hs
    exact nuandFlashInit_held h
  · exact h.held hr hc hs

/-! ## The event handler -/

theorem call_of_running {f : Fx3 → Fx3} (h : s.errorHandler = false) : call f s = f s := by
  simp [call, h]

theorem setInterface_held (h : Held s) (alt : ℕ) :
    Held (setInterface alt s) ∧ (setInterface alt s).usbAltInterface = alt := by
  unfold setInterface
  split_ifs with hsame
  · exact ⟨h, hsame.1.symm⟩
  · have hstop := stopSetting_idle h
    have hstart := startSetting_held hstop alt
    have hrun : (startSetting alt (stopSetting s)).errorHandler = false := hstart.errorHandler
    simp only [call_of_running hstop.errorHandler, call_of_running hrun]
    exact ⟨hstart, trivial⟩

theorem stopApplication_held (h : Held s) (halt : s.usbAltInterface ≠ ifSpiFlash) :
    Held (stopApplication s) ∧ (stopApplication s).usbAltInterface = ifNull := by
  have hnull : ∀ {t : Fx3}, Idle t →
      Held (call (fun s => { s with usbAltInterface := ifNull }) t) ∧
        (call (fun s => { s with usbAltInterface := ifNull }) t).usbAltInterface = ifNull := by
    intro t ht
    rw [call_of_running ht.errorHandler]
    exact ⟨ht.held (by decide) (by decide) (by decide), rfl⟩
  unfold stopApplication
  by_cases hr : s.usbAltInterface = ifRfLink
  · rw [if_pos (h.rfMode.mpr hr)]
    exact hnull (nuandRFLinkStop_idle h hr)
  · have hrf : s.appMode ≠ .rfConfig := fun hm => hr (h.rfMode.mp hm)
    rw [if_neg hrf]
    by_cases hc : s.usbAltInterface = ifConfig
    · rw [if_pos (h.fpgaMode.mpr hc), if_pos (by simp [h.deviceReady])]
      exact hnull (nuandFpgaConfigStop_idle h hc)
    · have hfpga : s.appMode ≠ .fpgaConfig := fun hm => hc (h.fpgaMode.mp hm)
      rw [if_neg hfpga]
      exact hnull (h.idle hr hc halt)

/-! ## A reset in the SPI flash setting -/

structure SpiLeft (s : Fx3) : Prop where
  refused : s.refused = false
  errorHandler : s.errorHandler = false
  live : ∀ r, s.live r = decide (r = .spi)
  link : s.linkStarted = false
  config : s.configStarted = false
  mode : s.appMode = .fwConfig
  alt : s.usbAltInterface = ifNull

theorem stopApplication_spiLeft (h : Held s) (halt : s.usbAltInterface = ifSpiFlash)
    (hmode : s.appMode = .fwConfig) : SpiLeft (stopApplication s) := by
  have hlink : s.linkStarted = false := by simpa [halt, ifRfLink, ifSpiFlash] using h.link
  have hconf : s.configStarted = false := by simpa [halt, ifConfig, ifSpiFlash] using h.config
  have hlive := h.live
  simp only [halt] at hlive
  constructor <;>
    simp [stopApplication, call, hmode, h.errorHandler, h.refused, hlink, hconf, hlive]
  intro r
  cases r <;> simp [resourcesOf, ifRfLink, ifSpiFlash, ifConfig]

theorem SpiLeft.stopApplication (h : SpiLeft s) : SpiLeft (stopApplication s) := by
  constructor <;>
    simp [Fx3.stopApplication, call, h.mode, h.errorHandler, h.refused, h.link, h.config, h.live]

theorem nuandRFLinkStart_live_spi (h : SpiLeft s) : (nuandRFLinkStart s).live .spi = true := by
  cases hlp : s.loopback <;>
    simp [nuandRFLinkStart, nuandRFLinkStop, uartBridgeStart, create, call, h.link, hlp,
      h.errorHandler, h.live]

theorem nuandFpgaConfigStart_live_spi (h : SpiLeft s) :
    (nuandFpgaConfigStart s).live .spi = true := by
  simp [nuandFpgaConfigStart, nuandFpgaConfigStop, create, call, h.config, h.errorHandler, h.live]

theorem SpiLeft.setInterface (h : SpiLeft s) (alt : ℕ) :
    (setInterface alt s).errorHandler = true ∨
      ((setInterface alt s).live .spi = true ∧ alt ≠ ifSpiFlash) := by
  have hstop : stopSetting s = s := by
    simp [stopSetting, h.alt, ifNull, ifRfLink, ifSpiFlash, ifConfig]
  have hkeep : ∀ {t : Fx3}, t.live .spi = true →
      (call (fun s => { s with usbAltInterface := alt }) t).live .spi = true := by
    intro t ht
    unfold call
    split_ifs <;> exact ht
  have hne : ¬ (alt = s.usbAltInterface ∧ alt = ifSpiFlash) := by
    rintro ⟨rfl, h2⟩
    rw [h.alt] at h2
    exact absurd h2 (by decide)
  unfold Fx3.setInterface
  rw [if_neg hne]
  simp only [hstop, call_of_running h.errorHandler]
  unfold startSetting
  split_ifs with hc hr hs
  · exact .inr ⟨hkeep (nuandFpgaConfigStart_live_spi h), by simp [hc, ifConfig, ifSpiFlash]⟩
  · exact .inr ⟨hkeep (nuandRFLinkStart_live_spi h), by simp [hr, ifRfLink, ifSpiFlash]⟩
  · left
    simp [nuandFlashInit, create, call, h.errorHandler, h.live]
  · exact .inr ⟨hkeep (by simp [h.live]), hs⟩

/-! ## Whole runs -/

def Selects (e : UsbEvent) (alt : ℕ) : Prop :=
  ∃ evdata, e = .setIntf evdata ∧ intfOf evdata = 0 ∧ alt = altOf evdata

/-- What a step must leave: no refused create or destroy, no error handler, and
after a SETINTF exactly the resources of the selected setting. -/
structure LifecycleOk (_ : Fx3) (e : UsbEvent) (t : Fx3) : Prop where
  refused : t.refused = false
  errorHandler : t.errorHandler = false
  selected : ∀ alt, Selects e alt → ∀ r, t.live r = resourcesOf alt t.loopbackWhenCreated r

/-- No SETINTF finds the SPI block live under another setting, where a reset or
a disconnect in the SPI flash setting leaves it. -/
def NoSpiLeft (s : Fx3) (e : UsbEvent) (_ : Fx3) : Prop :=
  ∀ alt, Selects e alt → ¬ (s.live .spi = true ∧ s.usbAltInterface ≠ ifSpiFlash)

/-- What holds between events: everything agrees, with the SPI flash setting in
its own mode, or a reset has left the SPI block. -/
def Settled (s : Fx3) : Prop :=
  (Held s ∧ (s.usbAltInterface = ifSpiFlash → s.appMode = .fwConfig)) ∨ SpiLeft s

theorem Settled.refused (h : Settled s) : s.refused = false := by
  rcases h with ⟨h, _⟩ | h
  · exact h.refused
  · exact h.refused

theorem Settled.errorHandler (h : Settled s) : s.errorHandler = false := by
  rcases h with ⟨h, _⟩ | h
  · exact h.errorHandler
  · exact h.errorHandler

theorem settled_ready (a l : Bool) : Settled (ready a l) := by
  refine .inl ⟨?_, by simp [ready, ifNull, ifSpiFlash]⟩
  constructor <;> simp [ready, ifNull, ifRfLink, ifConfig]
  intro r
  cases r <;> simp [resourcesOf, ifRfLink, ifSpiFlash, ifConfig]

theorem setInterface_mode (h : Held s)
    (hm : s.usbAltInterface = ifSpiFlash → s.appMode = .fwConfig) :
    (setInterface ifSpiFlash s).appMode = .fwConfig := by
  unfold setInterface
  split_ifs with hsame
  · exact hm hsame.1.symm
  · have hstop := stopSetting_idle h
    have hinit : startSetting ifSpiFlash (stopSetting s) = nuandFlashInit (stopSetting s) := by
      simp [startSetting, ifSpiFlash, ifConfig, ifRfLink]
    simp [hinit, nuandFlashInit, create, call, hstop.errorHandler, hstop.live]

theorem usbEventCB_settled (h : Settled s) (e : UsbEvent)
    (hok : NoSpiLeft s e (usbEventCB s e)) : Settled (usbEventCB s e) := by
  unfold usbEventCB
  rw [call_of_running h.errorHandler]
  cases e with
  | setIntf evdata =>
      dsimp only
      split_ifs with hintf
      · rcases h with ⟨h, hm⟩ | h
        · obtain ⟨hheld, halt⟩ := setInterface_held h (altOf evdata)
          refine .inl ⟨hheld, fun hs => ?_⟩
          rw [halt] at hs
          rw [hs]
          exact setInterface_mode h hm
        · exact absurd ⟨by simp [h.live], by simp [h.alt, ifNull, ifSpiFlash]⟩
            (hok _ ⟨evdata, rfl, hintf, rfl⟩)
      · exact h
  | setConf _ => exact h
  | reset | disconnect =>
      rcases h with ⟨h, hm⟩ | h
      · by_cases halt : s.usbAltInterface = ifSpiFlash
        · exact .inr (stopApplication_spiLeft h halt (hm halt))
        · obtain ⟨hheld, hnull⟩ := stopApplication_held h halt
          refine .inl ⟨hheld, fun hs => ?_⟩
          rw [hnull] at hs
          exact absurd hs (by decide)
      · exact .inr h.stopApplication
  | loopBack lp =>
      rcases h with ⟨h, hm⟩ | h
      · exact .inl ⟨⟨h.refused, h.errorHandler, h.deviceReady, h.live, h.link, h.config, h.rfMode,
          h.fpgaMode⟩, hm⟩
      · exact .inr ⟨h.refused, h.errorHandler, h.live, h.link, h.config, h.mode, h.alt⟩

theorem lifecycleOk_iff (h : Settled s) (e : UsbEvent) :
    LifecycleOk s e (usbEventCB s e) ↔ NoSpiLeft s e (usbEventCB s e) := by
  constructor
  · rintro hok alt hsel ⟨hspi, halt⟩
    rcases h with ⟨h, _⟩ | h
    · rw [h.live] at hspi
      exact halt (by simpa [resourcesOf] using hspi)
    · have hlive := hok.selected alt hsel .spi
      obtain ⟨evdata, rfl, hintf, rfl⟩ := hsel
      have hcb : usbEventCB s (.setIntf evdata) = setInterface (altOf evdata) s := by
        simp [usbEventCB, call_of_running h.errorHandler, hintf]
      have herr := hok.errorHandler
      rw [hcb] at hlive herr
      rcases h.setInterface (altOf evdata) with he | ⟨hl, hne⟩
      · rw [he] at herr
        cases herr
      · rw [hl] at hlive
        simp [resourcesOf, hne] at hlive
  · intro hok
    have hset := usbEventCB_settled h e hok
    refine ⟨hset.refused, hset.errorHandler, fun alt hsel r => ?_⟩
    have hno := hok alt hsel
    obtain ⟨evdata, rfl, hintf, rfl⟩ := hsel
    rcases h with ⟨h, _⟩ | h
    · have hcb : usbEventCB s (.setIntf evdata) = setInterface (altOf evdata) s := by
        simp [usbEventCB, call_of_running h.errorHandler, hintf]
      obtain ⟨hheld, halt⟩ := setInterface_held h (altOf evdata)
      rw [hcb, hheld.live r, halt]
    · exact absurd ⟨by simp [h.live], by simp [h.alt, ifNull, ifSpiFlash]⟩ hno

/-- The lifecycle of interface 0: in a run from `glDeviceReady`, nothing is
created while live or destroyed while not live, the error handler is never
entered and each SETINTF leaves exactly the resources of its setting, iff no
SETINTF follows a reset or disconnect that came in the SPI flash setting. -/
theorem fx3_interface_lifecycle (autoLoadValid loopback : Bool) (events : List UsbEvent) :
    Lib.Along usbEventCB LifecycleOk (ready autoLoadValid loopback) events ↔
      Lib.Along usbEventCB NoSpiLeft (ready autoLoadValid loopback) events :=
  Lib.along_iff (fun _ e h => lifecycleOk_iff h e) (fun _ e h hok => usbEventCB_settled h e hok)
    events _ (settled_ready autoLoadValid loopback)

/-- SPI flash selected, a reset, SPI flash selected again: the second
`CyU3PSpiInit` is refused and the handler never returns. -/
theorem fx3_spi_reset_reselect :
    (usbEventCB (usbEventCB (usbEventCB (ready false false) (.setIntf 2)) .reset)
      (.setIntf 2)).errorHandler = true ∧
    ¬ Lib.Along usbEventCB LifecycleOk (ready false false) [.setIntf 2, .reset, .setIntf 2] := by
  have herr : (usbEventCB (usbEventCB (usbEventCB (ready false false) (.setIntf 2)) .reset)
      (.setIntf 2)).errorHandler = true := rfl
  refine ⟨herr, ?_⟩
  rintro ⟨_, _, h, _⟩
  rw [h.errorHandler] at herr
  cases herr

end Fx3

end BladeRF
