/-
# `Fx3.TxPause` — who confirms a TX DMA pause

A pause request suspends the sample channel from USB to the FPGA and then waits
for `NuandRFLinkDmaCallback` to hear that the channel's consumer was suspended.
The callback answers only to the sample channel, but it is registered when the
two UART channels are created; the sample channel is created without one.
Events reach the firmware only through the callback and the mask their channel
was created with.
-/
import BladeRF.Fx3.Lifecycle

namespace BladeRF

inductive LinkEndpoint
  | sampleProducer
  | sampleConsumer
  | uartProducer
  | uartConsumer

/-- Results of `NuandRFLinkPauseTxDma`. -/
inductive PauseResult
  | success
  | notSupported
  | failure

namespace Fx3

/-- `NuandRFLinkDmaCallback`, registered by the RF link. -/
def nuandRFLinkDmaCallback (handle : Resource) (type : DmaCbType) (s : Fx3) : Fx3 :=
  if s.txDmaPauseState = .pending ∧ handle = .utoP ∧ type = .consSusp then
    { s with txDmaPauseState := .confirmed }
  else if s.txDmaPauseState = .pending ∧ handle = .utoP ∧ (type = .error ∨ type = .aborted) then
    { s with txDmaPauseState := .failed }
  else s

/-- `NuandRFLinkPauseTxDma`; `suspend` is the result of
`CyU3PDmaChannelSetSuspend`. -/
def nuandRFLinkPauseTxDma (suspend : Bool) (s : Fx3) : PauseResult × Fx3 :=
  if !s.linkStarted || s.loopbackWhenCreated then (.notSupported, s)
  else
    match s.txDmaPauseState with
    | .pending | .confirmed => (.success, s)
    | .failed => (.failure, s)
    | .idle =>
        if suspend then (.success, { s with txDmaPauseState := .pending })
        else (.failure, { s with txDmaPauseState := .failed })

def nuandRFLinkTxDmaPauseStatus (s : Fx3) : TxDmaPause := s.txDmaPauseState

/-- `NuandRFLinkResetEndpoint`: the channel itself keeps its configuration. -/
def nuandRFLinkResetEndpoint (endpoint : LinkEndpoint) (s : Fx3) : Fx3 :=
  match endpoint with
  | .sampleProducer => { s with txDmaPauseState := .idle }
  | .sampleConsumer | .uartProducer | .uartConsumer => s

/-- The SDK hands an event of a channel to the callback of that channel, if the
mask names it. -/
def dmaEvent (ch : Resource) (type : DmaCbType) (s : Fx3) : Fx3 :=
  if s.live ch ∧ type ∈ (s.channelCfg ch).notification then
    match (s.channelCfg ch).cb with
    | some .rfLink => nuandRFLinkDmaCallback ch type s
    | some .configUtoP | none => s
  else s

/-- Calls of the control endpoint and events of the DMA channels. -/
inductive LinkAct
  | start
  | stop
  | loopBack (lp : Bool)
  | pauseTxDma (suspend : Bool)
  | resetEndpoint (endpoint : LinkEndpoint)
  | event (ch : Resource) (type : DmaCbType)

def linkAct (s : Fx3) : LinkAct → Fx3
  | .start => nuandRFLinkStart s
  | .stop => nuandRFLinkStop s
  | .loopBack lp => nuandRFLinkLoopBack lp s
  | .pauseTxDma suspend => (nuandRFLinkPauseTxDma suspend s).2
  | .resetEndpoint endpoint => nuandRFLinkResetEndpoint endpoint s
  | .event ch type => dmaEvent ch type s

/-! ## What the status should say -/

/-- The history since the last link start or reset of the sample producer
endpoint: whether a pause was requested, and what the sample channel raised
first after it. -/
inductive PauseHistory
  | noRequest
  | requested
  | suspended
  | broken
  deriving DecidableEq

/-- A request counts when it gets as far as the suspend call, an event when the
sample channel from USB to the FPGA is there to raise it. -/
def pauseHistory (s : Fx3) (g : PauseHistory) : LinkAct → PauseHistory
  | .start => .noRequest
  | .resetEndpoint .sampleProducer => .noRequest
  | .pauseTxDma suspend =>
      if g = .noRequest ∧ s.linkStarted ∧ !s.loopbackWhenCreated then
        if suspend then .requested else .broken
      else g
  | .event .utoP type =>
      if g = .requested ∧ s.live .utoP then
        match type with
        | .consSusp => .suspended
        | .error | .aborted => .broken
        | .prodEvent => .requested
      else g
  | _ => g

/-- The firmware together with the history its status has to reflect. -/
abbrev PauseState := Fx3 × PauseHistory

def pauseStep (s : PauseState) (a : LinkAct) : PauseState :=
  (linkAct s.1 a, pauseHistory s.1 s.2 a)

/-- The status after a step reads CONFIRMED and FAILED exactly when the history
says so, and an event of another channel has not changed it. -/
structure PauseReported (s : PauseState) (a : LinkAct) (t : PauseState) : Prop where
  confirmed : nuandRFLinkTxDmaPauseStatus t.1 = .confirmed ↔ t.2 = .suspended
  failed : nuandRFLinkTxDmaPauseStatus t.1 = .failed ↔ t.2 = .broken
  others : ∀ ch type, a = .event ch type → ch ≠ .utoP →
    nuandRFLinkTxDmaPauseStatus t.1 = nuandRFLinkTxDmaPauseStatus s.1

/-- While a pause is pending the sample channel raises no consumer-suspended,
error or aborted event. -/
def SampleChannelSilent (s : PauseState) (a : LinkAct) (_ : PauseState) : Prop :=
  ∀ type, a = .event .utoP type → s.1.live .utoP = true → s.1.txDmaPauseState = .pending →
    type = .prodEvent

/-! ## Status and history along a run -/

def PauseHistory.status : PauseHistory → TxDmaPause
  | .noRequest => .idle
  | .requested => .pending
  | .suspended => .confirmed
  | .broken => .failed

/-- The resources of the link are live exactly while it is started, and nothing
hears the sample channel. -/
structure LinkHeld (s : Fx3) : Prop where
  errorHandler : s.errorHandler = false
  live : ∀ r, s.live r = (s.linkStarted && resourcesOf ifRfLink s.loopbackWhenCreated r)
  unheard : s.live .utoP = true → s.channelCfg .utoP = noCallback

section

variable {s : Fx3}

theorem nuandRFLinkStop_fields (h : LinkHeld s) :
    (nuandRFLinkStop s).errorHandler = false ∧ (∀ r, (nuandRFLinkStop s).live r = false) ∧
      (nuandRFLinkStop s).linkStarted = false ∧ (nuandRFLinkStop s).loopback = s.loopback ∧
      (nuandRFLinkStop s).txDmaPauseState = s.txDmaPauseState := by
  cases hlink : s.linkStarted with
  | false => simp [nuandRFLinkStop, hlink, h.errorHandler, h.live]
  | true =>
      have hlive := h.live
      cases hlp : s.loopbackWhenCreated <;>
        · simp [nuandRFLinkStop, uartBridgeStop, destroy, call, hlink, hlp, h.errorHandler,
            hlive, resourcesOf, Function.update_apply]
          intro r
          cases r <;> simp [ifRfLink, ifSpiFlash, ifConfig]

theorem nuandRFLinkStop_linkHeld (h : LinkHeld s) : LinkHeld (nuandRFLinkStop s) := by
  obtain ⟨herr, hlive, hlink, -, -⟩ := nuandRFLinkStop_fields h
  refine ⟨herr, fun r => by simp [hlive, hlink], fun hl => ?_⟩
  rw [hlive] at hl
  cases hl

theorem nuandRFLinkStart_fields (h : LinkHeld s) :
    LinkHeld (nuandRFLinkStart s) ∧ (nuandRFLinkStart s).txDmaPauseState = .idle := by
  obtain ⟨herr, hlive, hlink, hloop, -⟩ := nuandRFLinkStop_fields h
  cases hlp : s.loopback <;>
    · rw [hlp] at hloop
      refine ⟨⟨?_, fun r => ?_, fun _ => ?_⟩, ?_⟩ <;>
        simp [nuandRFLinkStart, uartBridgeStart, create, call, herr, hlive, hloop,
          Function.update_apply]
      cases r <;> simp [resourcesOf, ifRfLink, ifSpiFlash, ifConfig]

theorem dmaEvent_utoP (h : LinkHeld s) (type : DmaCbType) : dmaEvent .utoP type s = s := by
  unfold dmaEvent
  split_ifs with hl
  · simp [h.unheard hl.1, noCallback] at hl
  · rfl

theorem dmaEvent_other {ch : Resource} (hch : ch ≠ .utoP) (type : DmaCbType) :
    dmaEvent ch type s = s := by
  unfold dmaEvent
  split_ifs
  · split
    · simp [nuandRFLinkDmaCallback, hch]
    · rfl
    · rfl
  · rfl

theorem dmaEvent_eq (h : LinkHeld s) (ch : Resource) (type : DmaCbType) :
    dmaEvent ch type s = s := by
  by_cases hch : ch = .utoP
  · rw [hch]
    exact dmaEvent_utoP h type
  · exact dmaEvent_other hch type

end

/-- The link is as it is held, and the status is that of the history. -/
structure PauseAgree (s : PauseState) : Prop where
  held : LinkHeld s.1
  status : s.1.txDmaPauseState = s.2.status

theorem PauseHistory.status_confirmed (g : PauseHistory) :
    g.status = .confirmed ↔ g = .suspended := by
  cases g <;> simp [PauseHistory.status]

theorem PauseHistory.status_failed (g : PauseHistory) :
    g.status = .failed ↔ g = .broken := by
  cases g <;> simp [PauseHistory.status]

theorem PauseHistory.status_pending (g : PauseHistory) :
    g.status = .pending ↔ g = .requested := by
  cases g <;> simp [PauseHistory.status]

theorem nuandRFLinkPauseTxDma_agree {s : PauseState} (h : PauseAgree s) (suspend : Bool) :
    PauseAgree (pauseStep s (.pauseTxDma suspend)) := by
  obtain ⟨s, g⟩ := s
  obtain ⟨hheld, hst⟩ := h
  dsimp only at hheld hst
  have hkeep : LinkHeld (nuandRFLinkPauseTxDma suspend s).2 := by
    have hset : ∀ p : TxDmaPause, LinkHeld { s with txDmaPauseState := p } := fun _ =>
      ⟨hheld.errorHandler, hheld.live, hheld.unheard⟩
    unfold nuandRFLinkPauseTxDma
    cases (!s.linkStarted || s.loopbackWhenCreated) with
    | true => exact hheld
    | false =>
        cases s.txDmaPauseState with
        | pending => exact hheld
        | confirmed => exact hheld
        | failed => exact hheld
        | idle =>
            cases suspend with
            | true => exact hset .pending
            | false => exact hset .failed
  refine ⟨hkeep, ?_⟩
  show (nuandRFLinkPauseTxDma suspend s).2.txDmaPauseState =
    (pauseHistory s g (.pauseTxDma suspend)).status
  cases hlink : s.linkStarted <;> cases hlp : s.loopbackWhenCreated <;> cases g <;>
    cases suspend <;>
    simp [nuandRFLinkPauseTxDma, pauseHistory, hlink, hlp, hst, PauseHistory.status]

theorem pauseStep_agree {s : PauseState} (h : PauseAgree s) (a : LinkAct)
    (hok : SampleChannelSilent s a (pauseStep s a)) : PauseAgree (pauseStep s a) := by
  have hheld := h.held
  cases a with
  | start =>
      obtain ⟨hnew, hidle⟩ := nuandRFLinkStart_fields hheld
      exact ⟨hnew, hidle⟩
  | stop =>
      refine ⟨nuandRFLinkStop_linkHeld hheld, ?_⟩
      exact (nuandRFLinkStop_fields hheld).2.2.2.2.trans h.status
  | loopBack lp => exact ⟨⟨hheld.errorHandler, hheld.live, hheld.unheard⟩, h.status⟩
  | pauseTxDma suspend => exact nuandRFLinkPauseTxDma_agree h suspend
  | resetEndpoint endpoint =>
      cases endpoint with
      | sampleProducer => exact ⟨⟨hheld.errorHandler, hheld.live, hheld.unheard⟩, rfl⟩
      | sampleConsumer => exact ⟨hheld, h.status⟩
      | uartProducer => exact ⟨hheld, h.status⟩
      | uartConsumer => exact ⟨hheld, h.status⟩
  | event ch type =>
      have hsame : (pauseStep s (.event ch type)).1 = s.1 := dmaEvent_eq hheld ch type
      have hhist : (pauseStep s (.event ch type)).2 = s.2 := by
        cases ch with
        | utoP =>
            show pauseHistory s.1 s.2 (.event .utoP type) = s.2
            simp only [pauseHistory]
            split_ifs with hreq
            · have hpend : s.1.txDmaPauseState = .pending := by
                rw [h.status, PauseHistory.status_pending]
                exact hreq.1
              rw [hok type rfl hreq.2 hpend]
              exact hreq.1.symm
            · rfl
        | spi | ptoU | uart | utoUart | uartToU | configUtoP => rfl
      exact ⟨hsame ▸ hheld, by rw [hsame, hhist]; exact h.status⟩

theorem pauseReported_iff {s : PauseState} (h : PauseAgree s) (a : LinkAct) :
    PauseReported s a (pauseStep s a) ↔ SampleChannelSilent s a (pauseStep s a) := by
  constructor
  · rintro hrep type rfl hlive hpend
    have hreq : s.2 = .requested := by
      rw [← PauseHistory.status_pending, ← h.status]
      exact hpend
    have hsame : (pauseStep s (.event .utoP type)).1 = s.1 := dmaEvent_utoP h.held type
    have hhist : (pauseStep s (.event .utoP type)).2 =
        pauseHistory s.1 .requested (.event .utoP type) := by
      rw [← hreq]
      rfl
    have hconf := hrep.confirmed
    have hfail := hrep.failed
    simp only [hsame, nuandRFLinkTxDmaPauseStatus, hpend, hhist] at hconf hfail
    cases type <;> simp [pauseHistory, hlive] at hconf hfail ⊢
  · intro hok
    have hagree := pauseStep_agree h a hok
    refine ⟨?_, ?_, ?_⟩
    · rw [nuandRFLinkTxDmaPauseStatus, hagree.status, PauseHistory.status_confirmed]
    · rw [nuandRFLinkTxDmaPauseStatus, hagree.status, PauseHistory.status_failed]
    · rintro ch type rfl hch
      have hsame : (pauseStep s (.event ch type)).1 = s.1 := dmaEvent_other hch type
      rw [hsame]

theorem pauseAgree_ready (a l : Bool) : PauseAgree (ready a l, .noRequest) :=
  ⟨⟨rfl, fun _ => by simp [ready], fun _ => rfl⟩, rfl⟩

/-- The pause protocol: along a run of link calls and channel events the status
reads CONFIRMED and FAILED exactly when the history of the sample channel says
so, iff that channel raises no suspended, error or aborted event while a pause
is pending — the events the status is there to report. -/
theorem fx3_tx_pause_protocol (autoLoadValid loopback : Bool) (acts : List LinkAct) :
    Lib.Along pauseStep PauseReported (ready autoLoadValid loopback, .noRequest) acts ↔
      Lib.Along pauseStep SampleChannelSilent (ready autoLoadValid loopback, .noRequest) acts :=
  Lib.along_iff (fun _ a h => pauseReported_iff h a) (fun _ a h hok => pauseStep_agree h a hok)
    acts _ (pauseAgree_ready autoLoadValid loopback)

/-- The link is started, a pause accepted, and the sample channel's consumer is
suspended: the status still reads PENDING. -/
theorem fx3_tx_pause_unconfirmed :
    (linkAct (linkAct (linkAct (ready false false) .start) (.pauseTxDma true))
      (.event .utoP .consSusp)).txDmaPauseState = .pending ∧
    ¬ Lib.Along pauseStep PauseReported (ready false false, .noRequest)
      [.start, .pauseTxDma true, .event .utoP .consSusp] := by
  have hpend : (linkAct (linkAct (linkAct (ready false false) .start) (.pauseTxDma true))
      (.event .utoP .consSusp)).txDmaPauseState = .pending := rfl
  refine ⟨hpend, ?_⟩
  rintro ⟨_, _, h, _⟩
  have hconf : TxDmaPause.pending = .confirmed := hpend.symm.trans (h.confirmed.mpr rfl)
  cases hconf

end Fx3

end BladeRF
