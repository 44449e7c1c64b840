/-
# `Board.RficEnable` — enabling the modules through the host RFIC controller

`_rfic_host_enable_module` keeps four things in step: the bits of the RFFE
control register, the TX mutes of the RFIC, its port selectors and the FPGA
streams.  With a two-channel layout it changes the enable bits of both channels
of the direction; the switches and the mute it changes for the named channel,
and only when that channel's own bit was different.

An enable ends with a retune to the current LO, and `_rfic_host_select_band`
sets the switches of both channels.  So the switches of the second channel are
repaired by an enable and not by a disable, and its mute by neither.

Every device call succeeds here; what the code refuses by itself is `none`.
-/
import BladeRF.Board.SampleFormat
import Mathlib.Tactic.FinCases

namespace BladeRF

local instance twoIndices : NeZero 2 := ⟨by decide⟩

/-! ## Channels and bands -/

/-- `bladerf_channel`: `BLADERF_CHANNEL_RX(i)` and `BLADERF_CHANNEL_TX(i)`. -/
structure BladerfChannel where
  dir : BladerfDirection
  index : Fin 2
  deriving DecidableEq

def BladerfChannel.peer (ch : BladerfChannel) : BladerfChannel := ⟨ch.dir, 1 - ch.index⟩

theorem BladerfChannel.eq_peer {c ch : BladerfChannel} (hdir : c.dir = ch.dir) (hne : c ≠ ch) :
    c = ch.peer := by
  obtain ⟨d, i⟩ := c
  obtain ⟨d', i'⟩ := ch
  obtain rfl : d = d' := hdir
  revert hne
  cases d <;> fin_cases i <;> fin_cases i' <;> decide

theorem BladerfChannel.peer_ne (ch : BladerfChannel) : ch.peer ≠ ch := by
  obtain ⟨d, i⟩ := ch
  cases d <;> fin_cases i <;> decide

structure BandPortMap where
  spdt : BitVec 2
  rficPort : ℕ

def rffeControlSpdtShutdown : BitVec 2 := 0
def rffeControlSpdtLowband : BitVec 2 := 2
def rffeControlSpdtHighband : BitVec 2 := 1

/-- `_get_band_port_map_by_freq`: the first entry that has the frequency.  Ports 0
and 1 are A_BALANCED and B_BALANCED, or TXA and TXB. -/
def getBandPortMapByFreq (dir : BladerfDirection) (freq : ℕ) : Option BandPortMap :=
  let lowMin := match dir with
    | .rx => 70000000
    | .tx => 46875000
  if freq = 0 then some ⟨rffeControlSpdtShutdown, 0⟩
  else if lowMin ≤ freq ∧ freq ≤ 3000000000 then some ⟨rffeControlSpdtLowband, 1⟩
  else if 3000000000 ≤ freq ∧ freq ≤ 6000000000 then some ⟨rffeControlSpdtHighband, 0⟩
  else none

/-- The frequency is in `bladerf2_rx_frequency_range` or `bladerf2_tx_frequency_range`. -/
def isWithinFrequencyRange (dir : BladerfDirection) (freq : ℕ) : Bool :=
  match dir with
  | .rx => 70000000 ≤ freq ∧ freq ≤ 6000000000
  | .tx => 47000000 ≤ freq ∧ freq ≤ 6000000000

def bandSpdt (freq : ℕ) : BitVec 2 :=
  if freq ≤ 3000000000 then rffeControlSpdtLowband else rffeControlSpdtHighband

theorem bandSpdt_ne_shutdown (freq : ℕ) : bandSpdt freq ≠ rffeControlSpdtShutdown := by
  unfold bandSpdt
  split <;> decide

theorem getBandPortMapByFreq_of_valid {dir : BladerfDirection} {freq : ℕ}
    (h : isWithinFrequencyRange dir freq = true) :
    ∃ port, getBandPortMapByFreq dir freq = some ⟨bandSpdt freq, port⟩ := by
  cases dir <;>
    simp only [isWithinFrequencyRange, decide_eq_true_eq, Bool.decide_and, Bool.and_eq_true] at h <;>
    unfold getBandPortMapByFreq bandSpdt <;>
    by_cases hlow : freq ≤ 3000000000
  · exact ⟨1, by simp [hlow, h.1, show freq ≠ 0 by omega]⟩
  · exact ⟨0, by simp [hlow, h.2, show freq ≠ 0 by omega, show 3000000000 ≤ freq by omega]⟩
  · exact ⟨1, by simp [hlow, show freq ≠ 0 by omega, show 46875000 ≤ freq by omega]⟩
  · exact ⟨0, by simp [hlow, h.2, show freq ≠ 0 by omega, show 3000000000 ≤ freq by omega]⟩

/-! ## The RFFE control register -/

def rffeControlBitForCh (ch : BladerfChannel) : ℕ :=
  match ch.dir, ch.index with
  | .rx, 0 => 15
  | .tx, 0 => 16
  | .rx, 1 => 17
  | .tx, 1 => 18

def rffeControlBitForDir : BladerfDirection → ℕ
  | .rx => 1
  | .tx => 2

/-- The `shift` of `_modify_spdt_bits_by_freq`. -/
def rffeControlSpdt (ch : BladerfChannel) : ℕ :=
  match ch.dir, ch.index with
  | .rx, 0 => 6
  | .rx, 1 => 8
  | .tx, 0 => 11
  | .tx, 1 => 13

def rffeChEnabled (reg : BitVec 32) (ch : BladerfChannel) : Bool :=
  reg.getLsbD (rffeControlBitForCh ch)

def rffeDirEnabled (reg : BitVec 32) (dir : BladerfDirection) : Bool :=
  reg.getLsbD (rffeControlBitForDir dir)

/-- `does_rffe_dir_have_enabled_ch`. -/
def rffeDirHasEnabledCh (reg : BitVec 32) (dir : BladerfDirection) : Bool :=
  rffeChEnabled reg ⟨dir, 0⟩ || rffeChEnabled reg ⟨dir, 1⟩

def rffeSpdt (reg : BitVec 32) (ch : BladerfChannel) : BitVec 2 :=
  reg.extractLsb' (rffeControlSpdt ch) 2

def rffeSetCh (ch : BladerfChannel) (on : Bool) (reg : BitVec 32) : BitVec 32 :=
  Lib.setBit (rffeControlBitForCh ch) on reg

def rffeSetDir (dir : BladerfDirection) (on : Bool) (reg : BitVec 32) : BitVec 32 :=
  Lib.setBit (rffeControlBitForDir dir) on reg

def modifySpdtBitsByFreq (reg : BitVec 32) (ch : BladerfChannel) (enabled : Bool) (freq : ℕ) :
    Option (BitVec 32) := do
  let portMap ← getBandPortMapByFreq ch.dir (if enabled then freq else 0)
  some (Lib.writeBits (rffeControlSpdt ch) portMap.spdt reg)

/-! Where the bits lie: no two of them meet. -/

section
variable (ch ch' : BladerfChannel) (dir : BladerfDirection)

theorem rffeControlBitForCh_lt : rffeControlBitForCh ch < 32 := by
  obtain ⟨d, i⟩ := ch
  cases d <;> fin_cases i <;> decide

theorem rffeControlBitForDir_lt : rffeControlBitForDir dir < 32 := by
  cases dir <;> decide

theorem rffeControlSpdt_le : rffeControlSpdt ch + 2 ≤ 32 := by
  obtain ⟨d, i⟩ := ch
  cases d <;> fin_cases i <;> decide

theorem rffeControlBitForCh_inj (h : rffeControlBitForCh ch = rffeControlBitForCh ch') :
    ch = ch' := by
  obtain ⟨d, i⟩ := ch
  obtain ⟨d', i'⟩ := ch'
  revert h
  cases d <;> cases d' <;> fin_cases i <;> fin_cases i' <;> decide

theorem rffeControlBitForDir_inj {dir' : BladerfDirection}
    (h : rffeControlBitForDir dir = rffeControlBitForDir dir') : dir = dir' := by
  revert h
  cases dir <;> cases dir' <;> decide

theorem rffeControlBitForCh_ne : rffeControlBitForCh ch ≠ rffeControlBitForDir dir := by
  obtain ⟨d, i⟩ := ch
  cases d <;> cases dir <;> fin_cases i <;> decide

theorem rffeControlBitForCh_spdt : rffeControlBitForCh ch < rffeControlSpdt ch' ∨
    rffeControlSpdt ch' + 2 ≤ rffeControlBitForCh ch := by
  obtain ⟨d, i⟩ := ch
  obtain ⟨d', i'⟩ := ch'
  cases d <;> cases d' <;> fin_cases i <;> fin_cases i' <;> decide

theorem rffeControlBitForDir_spdt : rffeControlBitForDir dir < rffeControlSpdt ch ∨
    rffeControlSpdt ch + 2 ≤ rffeControlBitForDir dir := by
  obtain ⟨d, i⟩ := ch
  cases d <;> cases dir <;> fin_cases i <;> decide

theorem rffeControlSpdt_disjoint (h : ch ≠ ch') : rffeControlSpdt ch + 2 ≤ rffeControlSpdt ch' ∨
    rffeControlSpdt ch' + 2 ≤ rffeControlSpdt ch := by
  obtain ⟨d, i⟩ := ch
  obtain ⟨d', i'⟩ := ch'
  revert h
  cases d <;> cases d' <;> fin_cases i <;> fin_cases i' <;> decide

end

/-! The three readers under the three writers. -/

section
variable (reg : BitVec 32) (ch ch' : BladerfChannel) (dir dir' : BladerfDirection) (on : Bool)
  (v : BitVec 2)

@[simp] theorem rffeChEnabled_setCh :
    rffeChEnabled (rffeSetCh ch on reg) ch' = if ch' = ch then on else rffeChEnabled reg ch' := by
  rw [rffeChEnabled, rffeSetCh, Lib.getLsbD_setBit _ _ (rffeControlBitForCh_lt ch')]
  exact if_congr ⟨rffeControlBitForCh_inj _ _, fun h => h ▸ rfl⟩ rfl rfl

@[simp] theorem rffeChEnabled_setDir :
    rffeChEnabled (rffeSetDir dir on reg) ch' = rffeChEnabled reg ch' := by
  rw [rffeChEnabled, rffeSetDir, Lib.getLsbD_setBit _ _ (rffeControlBitForCh_lt ch'),
    if_neg (rffeControlBitForCh_ne ch' dir), rffeChEnabled]

@[simp] theorem rffeChEnabled_writeSpdt :
    rffeChEnabled (Lib.writeBits (rffeControlSpdt ch) v reg) ch' = rffeChEnabled reg ch' := by
  have hout := rffeControlBitForCh_spdt ch' ch
  rw [rffeChEnabled, Lib.getLsbD_writeBits _ _ (rffeControlBitForCh_lt ch'), if_neg (by omega),
    rffeChEnabled]

@[simp] theorem rffeDirEnabled_setCh :
    rffeDirEnabled (rffeSetCh ch on reg) dir' = rffeDirEnabled reg dir' := by
  rw [rffeDirEnabled, rffeSetCh, Lib.getLsbD_setBit _ _ (rffeControlBitForDir_lt dir'),
    if_neg (rffeControlBitForCh_ne ch dir').symm, rffeDirEnabled]

@[simp] theorem rffeDirEnabled_setDir :
    rffeDirEnabled (rffeSetDir dir on reg) dir' =
      if dir' = dir then on else rffeDirEnabled reg dir' := by
  rw [rffeDirEnabled, rffeSetDir, Lib.getLsbD_setBit _ _ (rffeControlBitForDir_lt dir')]
  exact if_congr ⟨rffeControlBitForDir_inj _, fun h => h ▸ rfl⟩ rfl rfl

@[simp] theorem rffeDirEnabled_writeSpdt :
    rffeDirEnabled (Lib.writeBits (rffeControlSpdt ch) v reg) dir' = rffeDirEnabled reg dir' := by
  have hout := rffeControlBitForDir_spdt ch dir'
  rw [rffeDirEnabled, Lib.getLsbD_writeBits _ _ (rffeControlBitForDir_lt dir'),
    if_neg (by omega), rffeDirEnabled]

@[simp] theorem rffeSpdt_setCh : rffeSpdt (rffeSetCh ch on reg) ch' = rffeSpdt reg ch' :=
  Lib.extractLsb'_setBit _ _ (rffeControlSpdt_le ch') (rffeControlBitForCh_spdt ch ch')

@[simp] theorem rffeSpdt_setDir : rffeSpdt (rffeSetDir dir on reg) ch' = rffeSpdt reg ch' :=
  Lib.extractLsb'_setBit _ _ (rffeControlSpdt_le ch') (rffeControlBitForDir_spdt ch' dir)

@[simp] theorem rffeSpdt_writeSpdt :
    rffeSpdt (Lib.writeBits (rffeControlSpdt ch) v reg) ch' =
      if ch' = ch then v else rffeSpdt reg ch' := by
  split
  · rename_i heq
    rw [heq]
    exact Lib.extractLsb'_writeBits _ _ (rffeControlSpdt_le ch)
  · rename_i hne
    exact Lib.extractLsb'_writeBits_of_disjoint _ _ (rffeControlSpdt_le ch')
      (rffeControlSpdt_disjoint ch ch' (Ne.symm hne))

end

/-! ## The TX mute -/

/-- The mute of one TX channel: its part of `struct ad9361_rf_phy`, and the
attenuation of the RFIC. -/
structure TxMute where
  muted : Bool
  mutedValid : Bool
  attenCached : ℕ
  attenCachedValid : Bool
  atten : ℕ

def mutedAtten : ℕ := 89750

/-- `txmute_set`. -/
def TxMute.set (m : TxMute) (state : Bool) : Option TxMute :=
  if m.mutedValid ∧ m.muted = state then some m
  else if state then
    -- the value that an unmute restores is saved, unless the attenuation is the mute's own
    if m.atten = mutedAtten then
      if !m.attenCachedValid then none
      else some { m with muted := true, mutedValid := true }
    else
      some {
        muted := true
        mutedValid := true
        attenCached := m.atten
        attenCachedValid := true
        atten := mutedAtten }
  else if m.attenCachedValid then
    some { m with muted := false, mutedValid := true, atten := m.attenCached }
  else if m.atten = mutedAtten then none
  else
    some {
      muted := false
      mutedValid := true
      attenCached := m.atten
      attenCachedValid := true
      atten := m.atten }

/-- The state of the mute is known, and so is the value to restore. -/
structure TxMute.Known (m : TxMute) : Prop where
  muted : m.mutedValid = true
  atten : m.attenCachedValid = true

theorem TxMute.Known.set {m : TxMute} (h : m.Known) (state : Bool) :
    ∃ m', m.set state = some m' ∧ m'.Known ∧ m'.muted = state := by
  by_cases hsame : m.muted = state
  · exact ⟨m, by simp [TxMute.set, h.muted, hsame], h, hsame⟩
  · cases state with
    | true =>
        by_cases hatten : m.atten = mutedAtten
        · exact ⟨{ m with muted := true, mutedValid := true },
            by simp [TxMute.set, hsame, hatten, h.atten], ⟨rfl, h.atten⟩, rfl⟩
        · exact ⟨⟨true, true, m.atten, true, mutedAtten⟩,
            by simp [TxMute.set, hsame, hatten], ⟨rfl, rfl⟩, rfl⟩
    | false =>
        exact ⟨{ m with muted := false, mutedValid := true, atten := m.attenCached },
          by simp [TxMute.set, hsame, h.atten], ⟨rfl, h.atten⟩, rfl⟩

/-! ## The controller -/

structure RficBoard where
  rffe : BitVec 32
  /-- the LO of each direction, as `get_frequency` reads it -/
  lo : BladerfDirection → ℕ
  /-- the RX input and the TX output of the AD9361 -/
  rfPort : BladerfDirection → ℕ
  txMute : Fin 2 → TxMute
  /-- the stream of the direction is enabled in the FPGA -/
  backend : BladerfDirection → Bool
  /-- `sync[dir].stream_config.layout` -/
  layout : BladerfDirection → BladerfChannelLayout
  /-- the streams, and `module_format` -/
  formats : FormatBoard

namespace RficBoard

variable (s : RficBoard)

/-- `set_ad9361_port_by_freq`.  A port is left alone when it is being disabled. -/
def setAd9361PortByFreq (ch : BladerfChannel) (enabled : Bool) (freq : ℕ) : Option RficBoard :=
  if !enabled then some s
  else do
    let portMap ← getBandPortMapByFreq ch.dir freq
    some { s with rfPort := Function.update s.rfPort ch.dir portMap.rficPort }

/-- The `port_ch` of `_rfic_host_select_band`: an enabled channel, when there is one. -/
def portCh (reg : BitVec 32) (ch : BladerfChannel) : BladerfChannel :=
  if rffeChEnabled reg ⟨ch.dir, 1⟩ then ⟨ch.dir, 1⟩
  else if rffeChEnabled reg ⟨ch.dir, 0⟩ then ⟨ch.dir, 0⟩
  else ch

theorem portCh_dir (reg : BitVec 32) (ch : BladerfChannel) : (portCh reg ch).dir = ch.dir := by
  unfold portCh
  split
  · rfl
  · split <;> rfl

/-- `_rfic_host_select_band`: both channels share the LO. -/
def selectBand (ch : BladerfChannel) (freq : ℕ) : Option RficBoard := do
  let reg := s.rffe
  let reg ← modifySpdtBitsByFreq reg ⟨ch.dir, 0⟩ (rffeChEnabled reg ⟨ch.dir, 0⟩) freq
  let reg ← modifySpdtBitsByFreq reg ⟨ch.dir, 1⟩ (rffeChEnabled reg ⟨ch.dir, 1⟩) freq
  { s with rffe := reg }.setAd9361PortByFreq (portCh reg ch)
    (decide (ch.dir = BladerfDirection.tx) || rffeChEnabled reg (portCh reg ch)) freq

def setFrequency (ch : BladerfChannel) (freq : ℕ) : Option RficBoard :=
  if !isWithinFrequencyRange ch.dir freq then none
  else do
    let s ← s.selectBand ch freq
    some { s with lo := Function.update s.lo ch.dir freq }

/-- The bits of a two-channel layout are set and cleared together. -/
def layoutBits (layout : BladerfChannelLayout) (enable : Bool) (reg : BitVec 32) : BitVec 32 :=
  match layout with
  | .txX2 => rffeSetCh ⟨.tx, 1⟩ enable (rffeSetCh ⟨.tx, 0⟩ enable reg)
  | .rxX2 => rffeSetCh ⟨.rx, 1⟩ enable (rffeSetCh ⟨.rx, 0⟩ enable reg)
  | .rxX1 | .txX1 => reg

/-- The channel set-up or teardown of `_rfic_host_enable_module`: the register to
write, and the board with the mute set. -/
def channelSetup (ch : BladerfChannel) (enable chPending : Bool) (freq : ℕ) (reg : BitVec 32) :
    Option (BitVec 32 × RficBoard) :=
  if chPending then do
    let reg ← modifySpdtBitsByFreq reg ch enable freq
    let reg := rffeSetCh ch enable reg
    match ch.dir with
    | .rx => some (reg, s)
    | .tx =>
        let m ← (s.txMute ch.index).set (!enable)
        some (reg, { s with txMute := Function.update s.txMute ch.index m })
  else some (reg, s)

/-- `sync_deinit` and `perform_format_deconfig` of a direction. -/
def syncTeardown (dir : BladerfDirection) : RficBoard :=
  { s with formats :=
      { s.formats with sync := Function.update s.formats.sync dir none }.performFormatDeconfig dir }

def directionSetup (ch : BladerfChannel) (dirEnable dirPending : Bool) (freq : ℕ)
    (reg : BitVec 32) : Option (BitVec 32 × RficBoard) :=
  if dirPending then do
    let s ← s.setAd9361PortByFreq ch dirEnable freq
    some (rffeSetDir ch.dir dirEnable reg, if dirEnable then s else s.syncTeardown ch.dir)
  else some (reg, s)

def backendEnableModule (dir : BladerfDirection) (enable : Bool) : RficBoard :=
  { s with backend := Function.update s.backend dir enable }

def backendSetup (dir : BladerfDirection) (dirEnable dirPending backendClear : Bool) : RficBoard :=
  if dirPending || backendClear then
    let s := if !dirEnable || backendClear then s.backendEnableModule dir false else s
    if dirEnable || backendClear then s.backendEnableModule dir true else s
  else s

def enableModule (ch : BladerfChannel) (enable : Bool) : Option RficBoard := do
  let freq := if enable then s.lo ch.dir else 0
  let chPending := rffeChEnabled s.rffe ch != enable
  let layout := s.layout ch.dir
  let mimoEnabled := decide (layout = .rxX2 ∨ layout = .txX2)
  let reg := layoutBits layout enable s.rffe
  let (reg, s) ← s.channelSetup ch enable chPending freq reg
  let dirEnable := enable || rffeDirHasEnabledCh reg ch.dir
  let dirPending := rffeDirEnabled reg ch.dir != dirEnable
  let (reg, s) ← s.directionSetup ch dirEnable dirPending freq reg
  let backendClear := enable && !dirPending && decide (ch.dir = .rx) && !mimoEnabled
  let s := { s with rffe := reg }.backendSetup ch.dir dirEnable dirPending backendClear
  if enable then s.setFrequency ch (s.lo ch.dir) else some s

/-! ### What is to stay in step -/

/-- The register, the streams, the switches and the mutes are in step. -/
structure InStep : Prop where
  direction : ∀ dir, rffeDirEnabled s.rffe dir = rffeDirHasEnabledCh s.rffe dir
  backend : ∀ dir, s.backend dir = rffeDirEnabled s.rffe dir
  spdt : ∀ ch, rffeSpdt s.rffe ch =
    if rffeChEnabled s.rffe ch then bandSpdt (s.lo ch.dir) else rffeControlSpdtShutdown
  mute : ∀ i, (s.txMute i).muted = !rffeChEnabled s.rffe ⟨.tx, i⟩

/-- What the calls rely on: valid frequencies, layouts of their own direction (an
unconfigured TX handle has the zero layout, RX_X1), and mutes whose state is
known. -/
structure Ready : Prop where
  lo : ∀ dir, isWithinFrequencyRange dir (s.lo dir) = true
  layout : ∀ dir, s.layout dir = .rxX1 ∨ (s.layout dir).direction = dir
  mute : ∀ i, (s.txMute i).Known

end RficBoard

/-! ## What each part of a call does -/

theorem modifySpdtBitsByFreq_valid {ch : BladerfChannel} {freq : ℕ}
    (h : isWithinFrequencyRange ch.dir freq = true) (reg : BitVec 32) (enabled : Bool) :
    modifySpdtBitsByFreq reg ch enabled freq =
      some (Lib.writeBits (rffeControlSpdt ch)
        (if enabled then bandSpdt freq else rffeControlSpdtShutdown) reg) := by
  cases enabled with
  | true =>
      obtain ⟨port, hport⟩ := getBandPortMapByFreq_of_valid h
      simp [modifySpdtBitsByFreq, hport]
  | false => rfl

namespace RficBoard

variable {s t : RficBoard} {ch : BladerfChannel} {enable : Bool} {freq : ℕ} {reg : BitVec 32}

theorem setAd9361PortByFreq_valid (h : isWithinFrequencyRange ch.dir freq = true)
    (enabled : Bool) :
    ∃ port, s.setAd9361PortByFreq ch enabled freq = some { s with rfPort := port } := by
  cases enabled with
  | true =>
      obtain ⟨port, hport⟩ := getBandPortMapByFreq_of_valid h
      exact ⟨Function.update s.rfPort ch.dir port, by simp [setAd9361PortByFreq, hport]⟩
  | false => exact ⟨s.rfPort, rfl⟩

theorem setFrequency_valid (h : isWithinFrequencyRange ch.dir freq = true) :
    ∃ rffe port, s.setFrequency ch freq =
        some { s with rffe := rffe, rfPort := port, lo := Function.update s.lo ch.dir freq } ∧
      rffeChEnabled rffe = rffeChEnabled s.rffe ∧ rffeDirEnabled rffe = rffeDirEnabled s.rffe ∧
      ∀ c, rffeSpdt rffe c =
        if c.dir = ch.dir then
          (if rffeChEnabled s.rffe c then bandSpdt freq else rffeControlSpdtShutdown)
        else rffeSpdt s.rffe c := by
  have h₀ : isWithinFrequencyRange (⟨ch.dir, 0⟩ : BladerfChannel).dir freq = true := h
  have h₁ : isWithinFrequencyRange (⟨ch.dir, 1⟩ : BladerfChannel).dir freq = true := h
  let target (c : BladerfChannel) : BitVec 2 :=
    if rffeChEnabled s.rffe c then bandSpdt freq else rffeControlSpdtShutdown
  let reg := Lib.writeBits (rffeControlSpdt ⟨ch.dir, 1⟩) (target ⟨ch.dir, 1⟩)
    (Lib.writeBits (rffeControlSpdt ⟨ch.dir, 0⟩) (target ⟨ch.dir, 0⟩) s.rffe)
  have hport : isWithinFrequencyRange (portCh reg ch).dir freq = true := by
    rw [portCh_dir]
    exact h
  obtain ⟨port, hport⟩ := ({ s with rffe := reg } : RficBoard).setAd9361PortByFreq_valid hport
    (decide (ch.dir = .tx) || rffeChEnabled s.rffe (portCh reg ch))
  refine ⟨reg, port, ?_, ?_, ?_, fun c => ?_⟩
  · simp only [setFrequency, h, Bool.not_true, Bool.false_eq_true, if_false, selectBand,
      modifySpdtBitsByFreq_valid h₀, modifySpdtBitsByFreq_valid h₁, Option.bind_eq_bind,
      Option.bind_some, rffeChEnabled_writeSpdt]
    exact (congrArg (Option.bind · _) hport).trans rfl
  · funext c
    simp [reg]
  · funext d
    simp [reg]
  · obtain ⟨d, i⟩ := c
    by_cases hd : d = ch.dir
    · subst hd
      fin_cases i <;> simp [reg, target]
    · simp [reg, hd]

def twoChannel (s : RficBoard) (dir : BladerfDirection) : Bool :=
  decide (s.layout dir = .rxX2 ∨ s.layout dir = .txX2)

def target (s : RficBoard) (ch : BladerfChannel) (enable : Bool) (c : BladerfChannel) : Bool :=
  if c = ch ∨ s.twoChannel ch.dir = true ∧ c.dir = ch.dir then enable else rffeChEnabled s.rffe c

theorem layoutBits_ready (hr : s.Ready) (ch : BladerfChannel) (enable : Bool)
    (reg : BitVec 32) :
    (∀ c, rffeChEnabled (layoutBits (s.layout ch.dir) enable reg) c =
      if s.twoChannel ch.dir = true ∧ c.dir = ch.dir then enable else rffeChEnabled reg c) ∧
    rffeDirEnabled (layoutBits (s.layout ch.dir) enable reg) = rffeDirEnabled reg ∧
    rffeSpdt (layoutBits (s.layout ch.dir) enable reg) = rffeSpdt reg := by
  have hlayout := hr.layout ch.dir
  unfold twoChannel
  generalize s.layout ch.dir = layout at hlayout ⊢
  refine ⟨fun ⟨d, i⟩ => ?_, ?_, ?_⟩
  · cases layout <;> simp only [layoutBits, BladerfChannelLayout.direction, reduceCtorEq, or_self,
      or_true, true_or, or_false, false_or, decide_true, decide_false, true_and, false_and,
      Bool.false_eq_true, if_false] at hlayout ⊢ <;> rw [← hlayout] <;>
      cases d <;> fin_cases i <;> simp
  · funext d
    cases layout <;> simp [layoutBits]
  · funext c
    cases layout <;> simp [layoutBits]

theorem channelSetup_ready (hr : s.Ready) (ch : BladerfChannel) (enable pending : Bool)
    {reg : BitVec 32}
    (hbit : pending = false → rffeChEnabled reg ch = enable) :
    ∃ reg' mute,
      s.channelSetup ch enable pending (if enable then s.lo ch.dir else 0) reg =
        some (reg', { s with txMute := mute }) ∧
      (∀ c, rffeChEnabled reg' c = if c = ch then enable else rffeChEnabled reg c) ∧
      rffeDirEnabled reg' = rffeDirEnabled reg ∧
      (∀ c, rffeSpdt reg' c =
        if c = ch ∧ pending = true then
          (if enable then bandSpdt (s.lo ch.dir) else rffeControlSpdtShutdown)
        else rffeSpdt reg c) ∧
      (∀ i, (mute i).Known) ∧
      ∀ i, (mute i).muted =
        if ch = ⟨.tx, i⟩ ∧ pending = true then !enable else (s.txMute i).muted := by
  cases pending with
  | false =>
      refine ⟨reg, s.txMute, rfl, fun c => ?_, rfl, fun c => by simp, hr.mute, fun i => by simp⟩
      split
      · rename_i heq
        rw [heq, hbit rfl]
      · rfl
  | true =>
      have hspdt : modifySpdtBitsByFreq reg ch enable (if enable then s.lo ch.dir else 0) =
          some (Lib.writeBits (rffeControlSpdt ch)
            (if enable then bandSpdt (s.lo ch.dir) else rffeControlSpdtShutdown) reg) := by
        cases enable with
        | true => exact modifySpdtBitsByFreq_valid (hr.lo ch.dir) reg true
        | false => rfl
      obtain ⟨m, hm, hknown, hmuted⟩ := (hr.mute ch.index).set (!enable)
      refine ⟨rffeSetCh ch enable (Lib.writeBits (rffeControlSpdt ch)
          (if enable then bandSpdt (s.lo ch.dir) else rffeControlSpdtShutdown) reg),
        if ch.dir = .tx then Function.update s.txMute ch.index m else s.txMute,
        ?_, fun c => by simp, by funext d; simp, fun c => by simp, fun i => ?_, fun i => ?_⟩
      · simp only [if_true, channelSetup, hspdt, Option.bind_eq_bind, Option.bind_some]
        cases hdir : ch.dir <;> simp [hm]
      · split
        · by_cases hi : i = ch.index
          · subst hi
            simpa using hknown
          · simpa [hi] using hr.mute i
        · exact hr.mute i
      · obtain ⟨d, j⟩ := ch
        cases d with
        | rx => simp
        | tx =>
            by_cases hi : i = j
            · subst hi
              simpa using hmuted
            · simp [hi, Ne.symm hi]

theorem directionSetup_ready (hr : s.Ready) (ch : BladerfChannel)
    (enable dirEnable pending : Bool) {reg : BitVec 32}
    (hvalid : pending = true → dirEnable = enable)
    (hbit : pending = false → rffeDirEnabled reg ch.dir = dirEnable) :
    ∃ reg' port formats,
      s.directionSetup ch dirEnable pending (if enable then s.lo ch.dir else 0) reg =
        some (reg', { s with rfPort := port, formats := formats }) ∧
      rffeChEnabled reg' = rffeChEnabled reg ∧
      (∀ d, rffeDirEnabled reg' d = if d = ch.dir then dirEnable else rffeDirEnabled reg d) ∧
      rffeSpdt reg' = rffeSpdt reg := by
  cases pending with
  | false =>
      refine ⟨reg, s.rfPort, s.formats, rfl, rfl, fun d => ?_, rfl⟩
      split
      · rename_i heq
        rw [heq, hbit rfl]
      · rfl
  | true =>
      obtain rfl := hvalid rfl
      cases dirEnable with
      | true =>
          obtain ⟨port, hport⟩ := s.setAd9361PortByFreq_valid (hr.lo ch.dir) true
          refine ⟨rffeSetDir ch.dir true reg, port, s.formats, ?_, by funext c; simp,
            fun d => by simp, by funext c; simp⟩
          simp [directionSetup, hport]
      | false =>
          exact ⟨rffeSetDir ch.dir false reg, s.rfPort, _, rfl, by funext c; simp,
            fun d => by simp, by funext c; simp⟩

theorem backendSetup_eq (s : RficBoard) (dir : BladerfDirection)
    (dirEnable dirPending backendClear : Bool) (hclear : backendClear = true → dirEnable = true)
    (hbit : dirPending = false → s.backend dir = dirEnable) :
    s.backendSetup dir dirEnable dirPending backendClear =
      { s with backend := Function.update s.backend dir dirEnable } := by
  cases dirEnable <;> cases dirPending <;> cases backendClear <;>
    simp_all [backendSetup, backendEnableModule]
  all_goals rw [← hbit, Function.update_eq_self]

structure Enabled (s : RficBoard) (ch : BladerfChannel) (enable : Bool) (t : RficBoard) : Prop where
  chEnabled : ∀ c, rffeChEnabled t.rffe c = s.target ch enable c
  dirEnabled : ∀ d, rffeDirEnabled t.rffe d =
    if d = ch.dir then enable || rffeDirHasEnabledCh t.rffe d else rffeDirEnabled s.rffe d
  spdt : ∀ c, rffeSpdt t.rffe c =
    if enable = true ∧ c.dir = ch.dir then
      (if s.target ch enable c then bandSpdt (s.lo ch.dir) else rffeControlSpdtShutdown)
    else if enable = false ∧ c = ch ∧ rffeChEnabled s.rffe ch = true then rffeControlSpdtShutdown
    else rffeSpdt s.rffe c
  backend : ∀ d, t.backend d = if d = ch.dir then rffeDirEnabled t.rffe d else s.backend d
  mute : ∀ i, (t.txMute i).muted =
    if ch = ⟨.tx, i⟩ ∧ rffeChEnabled s.rffe ch ≠ enable then !enable else (s.txMute i).muted
  lo : t.lo = s.lo
  layout : t.layout = s.layout
  known : ∀ i, (t.txMute i).Known

theorem Enabled.ready {ch : BladerfChannel} (h : Enabled s ch enable t) (hr : s.Ready) :
    t.Ready where
  lo := by rw [h.lo]; exact hr.lo
  layout := by rw [h.layout]; exact hr.layout
  mute := h.known

theorem enableModule_ready (hr : s.Ready) (hi : s.InStep) (ch : BladerfChannel) (enable : Bool) :
    ∃ t, s.enableModule ch enable = some t ∧ Enabled s ch enable t := by
  obtain ⟨hch₀, hdir₀, hspdt₀⟩ := layoutBits_ready hr ch enable s.rffe
  set reg₀ := layoutBits (s.layout ch.dir) enable s.rffe with hreg₀
  obtain ⟨reg₁, mute, hset, hch₁, hdir₁, hspdt₁, hknown, hmuted⟩ :=
    channelSetup_ready hr ch enable (rffeChEnabled s.rffe ch != enable) (by
        intro hpending
        rw [hch₀]
        split
        · rfl
        · simpa using hpending)
  have htarget : ∀ c, rffeChEnabled reg₁ c = s.target ch enable c := fun c => by
    rw [hch₁, hch₀, target]
    split_ifs <;> simp_all
  -- a direction that stays enabled was enabled before
  have hstays : enable = false → rffeDirHasEnabledCh reg₁ ch.dir = true →
      rffeDirEnabled s.rffe ch.dir = true := fun hoff hhas => by
    rw [hi.direction]
    simp only [rffeDirHasEnabledCh, htarget, target, hoff, Bool.or_eq_true] at hhas ⊢
    exact hhas.imp (fun h => by split at h <;> simp_all) (fun h => by split at h <;> simp_all)
  let dirEnable := enable || rffeDirHasEnabledCh reg₁ ch.dir
  let s₁ : RficBoard := { s with txMute := mute }
  have hr₁ : s₁.Ready := ⟨hr.lo, hr.layout, hknown⟩
  obtain ⟨reg₂, port, formats, hdirSetup, hch₂, hdir₂, hspdt₂⟩ :=
    directionSetup_ready hr₁ ch enable dirEnable (rffeDirEnabled reg₁ ch.dir != dirEnable) (by
        intro hpending
        cases enable with
        | true => rfl
        | false =>
            by_contra hon
            have hhas : rffeDirHasEnabledCh reg₁ ch.dir = true := by simpa [dirEnable] using hon
            simp [dirEnable, hdir₁, hdir₀, hhas, hstays rfl hhas] at hpending) (by
        intro hpending
        simpa using hpending)
  let dirPending := rffeDirEnabled reg₁ ch.dir != dirEnable
  let backendClear := enable && !dirPending && decide (ch.dir = .rx) &&
    !decide (s.layout ch.dir = .rxX2 ∨ s.layout ch.dir = .txX2)
  let s₂ : RficBoard := { s with rffe := reg₂, rfPort := port, txMute := mute, formats := formats }
  have hbackend := backendSetup_eq s₂ ch.dir dirEnable dirPending backendClear
    (fun h => by
      simp only [backendClear, Bool.and_eq_true] at h
      simp [dirEnable, h.1.1.1])
    (fun h => by
      rw [show s₂.backend ch.dir = rffeDirEnabled s.rffe ch.dir from hi.backend ch.dir,
        ← hdir₀, ← hdir₁]
      simpa [dirPending] using h)
  have hcall : s.enableModule ch enable =
      if enable then (s₂.backendSetup ch.dir dirEnable dirPending backendClear).setFrequency ch
        (s.lo ch.dir)
      else some (s₂.backendSetup ch.dir dirEnable dirPending backendClear) := by
    have hlo : (s₂.backendSetup ch.dir dirEnable dirPending backendClear).lo = s.lo := by
      rw [hbackend]
    rw [← hlo]
    simp only [enableModule, Option.bind_eq_bind]
    rw [← hreg₀, hset, Option.bind_some, hdirSetup, Option.bind_some]
  have hch : rffeChEnabled reg₂ = s.target ch enable := by
    rw [hch₂]
    exact funext htarget
  have hdir : ∀ d, rffeDirEnabled reg₂ d =
      if d = ch.dir then dirEnable else rffeDirEnabled s.rffe d := fun d => by
    rw [hdir₂, hdir₁, hdir₀]
  have hon : dirEnable = (enable || rffeDirHasEnabledCh reg₂ ch.dir) := by
    simp only [dirEnable, rffeDirHasEnabledCh, hch₂]
  have hspdt : ∀ c, rffeSpdt reg₂ c =
      if c = ch ∧ (rffeChEnabled s.rffe ch != enable) = true then
        (if enable then bandSpdt (s.lo ch.dir) else rffeControlSpdtShutdown)
      else rffeSpdt s.rffe c := fun c => by
    rw [hspdt₂, hspdt₁, hspdt₀]
  have hbackend' : ∀ d, Function.update s.backend ch.dir dirEnable d =
      if d = ch.dir then rffeDirEnabled reg₂ d else s.backend d := fun d => by
    by_cases hd : d = ch.dir
    · subst hd
      simp [hdir]
    · simp [hd]
  have hmuted' : ∀ i, (mute i).muted =
      if ch = ⟨.tx, i⟩ ∧ rffeChEnabled s.rffe ch ≠ enable then !enable
      else (s.txMute i).muted := fun i => by
    rw [hmuted]
    simp only [bne_iff_ne]
  rw [hbackend] at hcall
  cases enable with
  | false =>
      refine ⟨_, hcall, ⟨fun c => congrFun hch c, fun d => ?_, fun c => ?_, hbackend', hmuted',
        rfl, rfl, hknown⟩⟩
      · refine (hdir d).trans ?_
        split
        · rename_i heq
          rw [hon, heq]
        · rfl
      · refine (hspdt c).trans ?_
        simp
  | true =>
      let s₃ : RficBoard := { s₂ with backend := Function.update s₂.backend ch.dir dirEnable }
      obtain ⟨rffe, port', htune, hch₄, hdir₄, hspdt₄⟩ :=
        setFrequency_valid (s := s₃) (hr.lo ch.dir)
      have hlo : Function.update s.lo ch.dir (s.lo ch.dir) = s.lo := Function.update_eq_self ..
      refine ⟨_, hcall.trans htune, ⟨fun c => ?_, fun d => ?_, fun c => ?_, fun d => ?_, hmuted',
        hlo, rfl, hknown⟩⟩
      · exact (congrFun hch₄ c).trans (congrFun hch c)
      · exact (congrFun hdir₄ d).trans (hdir d)
      · refine (hspdt₄ c).trans ?_
        rw [show rffeChEnabled s₃.rffe = s.target ch true from hch]
        by_cases hd : c.dir = ch.dir
        · simp [hd]
        · have hne : c ≠ ch := fun h => hd (congrArg _ h)
          simpa [hd, hne] using hspdt c
      · rw [show rffeDirEnabled rffe d = rffeDirEnabled reg₂ d from congrFun hdir₄ d]
        exact hbackend' d

/-- The layout leaves nothing of the other channel behind: the call leaves its bit
as it was, or is an enable of RX, whose retune sets both switches. -/
def Covers (s : RficBoard) (ch : BladerfChannel) (enable : Bool) : Prop :=
  s.twoChannel ch.dir = true → rffeChEnabled s.rffe ch.peer = enable ∨
    enable = true ∧ ch.dir = .rx

theorem Enabled.inStep_iff (h : Enabled s ch enable t) (hi : s.InStep) :
    t.InStep ↔ s.Covers ch enable := by
  constructor
  · intro ht htwo
    by_contra hnot
    obtain ⟨hpeer, hrest⟩ := not_or.mp hnot
    have htarget : rffeChEnabled t.rffe ch.peer = enable := by
      rw [h.chEnabled, target, if_pos (.inr ⟨htwo, rfl⟩)]
    cases enable with
    | false =>
        -- the switch of the other channel stays where it was
        have hold : rffeSpdt t.rffe ch.peer = bandSpdt (s.lo ch.dir) := by
          rw [h.spdt, if_neg (by simp), if_neg (by simp [ch.peer_ne]), hi.spdt,
            if_pos (by simpa using hpeer)]
          rfl
        have hnew := ht.spdt ch.peer
        rw [htarget, if_neg (by simp), hold] at hnew
        exact bandSpdt_ne_shutdown _ hnew
    | true =>
        -- the other channel of TX stays muted
        obtain ⟨d, i⟩ := ch
        cases d with
        | rx => exact hrest ⟨rfl, rfl⟩
        | tx =>
            have hnew := ht.mute (1 - i)
            have hne : (⟨.tx, i⟩ : BladerfChannel) ≠ ⟨.tx, 1 - i⟩ :=
              (BladerfChannel.peer_ne ⟨.tx, i⟩).symm
            rw [h.mute, if_neg (fun hc => hne hc.1), hi.mute] at hnew
            exact hpeer ((Bool.not_inj hnew).trans htarget)
  · intro hcover
    -- a bit that the call does not name is as it was, but for an enable of RX
    have hbit : ∀ c, c ≠ ch → ¬(enable = true ∧ c.dir = .rx ∧ c.dir = ch.dir) →
        rffeChEnabled t.rffe c = rffeChEnabled s.rffe c := fun c hne hrx => by
      rw [h.chEnabled, target]
      split
      · rename_i hc
        obtain ⟨htwo, hdir⟩ := hc.resolve_left hne
        obtain hsame | ⟨hon, hdir'⟩ := hcover htwo
        · rw [BladerfChannel.eq_peer hdir hne, hsame]
        · exact absurd ⟨hon, hdir.trans hdir', hdir⟩ hrx
      · rfl
    have hnamed : rffeChEnabled t.rffe ch = enable := by
      rw [h.chEnabled, target, if_pos (.inl rfl)]
    refine ⟨fun d => ?_, fun d => ?_, fun c => ?_, fun i => ?_⟩
    · rw [h.dirEnabled]
      by_cases hd : d = ch.dir
      · rw [if_pos hd]
        cases enable with
        | false => rfl
        | true =>
            obtain ⟨d', i⟩ := ch
            subst hd
            fin_cases i <;> simp_all [rffeDirHasEnabledCh]
      · have hother : ∀ i, rffeChEnabled t.rffe ⟨d, i⟩ = rffeChEnabled s.rffe ⟨d, i⟩ := fun i =>
          hbit _ (fun heq => hd (congrArg BladerfChannel.dir heq)) fun hrx => hd hrx.2.2
        rw [if_neg hd, hi.direction, rffeDirHasEnabledCh, rffeDirHasEnabledCh, hother, hother]
    · rw [h.backend]
      split
      · rfl
      · rename_i hd
        rw [hi.backend, h.dirEnabled, if_neg hd]
    · rw [h.spdt, h.lo]
      by_cases hon : enable = true ∧ c.dir = ch.dir
      · rw [if_pos hon, h.chEnabled, hon.2]
      · rw [if_neg hon]
        by_cases hc : c = ch
        · subst hc
          have hoff : enable = false := by simpa using hon
          rw [hnamed, hoff]
          by_cases hold : rffeChEnabled s.rffe c = true
          · simp [hold]
          · rw [if_neg (by simp [hold]), hi.spdt, if_neg hold, if_neg Bool.false_ne_true]
        · rw [if_neg (fun hx => hc hx.2.1), hi.spdt,
            hbit c hc fun hx => hon ⟨hx.1, hx.2.2⟩]
    · rw [h.mute]
      by_cases hc : ch = ⟨.tx, i⟩
      · subst hc
        by_cases hpending : rffeChEnabled s.rffe ⟨.tx, i⟩ = enable
        · rw [if_neg (by simp [hpending]), hi.mute, hnamed, hpending]
        · rw [if_pos ⟨rfl, hpending⟩, hnamed]
      · rw [if_neg (fun hx => hc hx.1), hi.mute, hbit _ (Ne.symm hc) (by simp)]

theorem Enabled.otherDirection (h : Enabled s ch enable t) {d : BladerfDirection}
    (hd : d ≠ ch.dir) :
    rffeDirEnabled t.rffe d = rffeDirEnabled s.rffe d ∧
    ∀ c, c.dir = d → rffeChEnabled t.rffe c = rffeChEnabled s.rffe c ∧
      rffeSpdt t.rffe c = rffeSpdt s.rffe c := by
  refine ⟨by rw [h.dirEnabled, if_neg hd], fun c hc => ?_⟩
  subst hc
  have hne : c ≠ ch := fun h => hd (congrArg _ h)
  exact ⟨by simp [h.chEnabled, target, hd, hne], by simp [h.spdt, hd, hne]⟩

/-! ## Runs -/

structure AllDisabled (s : RficBoard) : Prop where
  channel : ∀ ch, rffeChEnabled s.rffe ch = false
  direction : ∀ dir, rffeDirEnabled s.rffe dir = false
  spdt : ∀ ch, rffeSpdt s.rffe ch = rffeControlSpdtShutdown
  backend : ∀ dir, s.backend dir = false
  mute : ∀ i, (s.txMute i).muted = true

theorem AllDisabled.inStep (h : s.AllDisabled) : s.InStep where
  direction dir := by simp [rffeDirHasEnabledCh, h.direction, h.channel]
  backend dir := by rw [h.backend, h.direction]
  spdt ch := by simp [h.spdt, h.channel]
  mute i := by simp [h.mute, h.channel]

end RficBoard

inductive RficLabel
  | enableModule (ch : BladerfChannel) (enable : Bool)
  | configure (layout : BladerfChannelLayout) (formats : FormatBoard)
  | setFrequency (ch : BladerfChannel) (freq : ℕ)

namespace RficBoard

variable {s t : RficBoard}

def step (s : RficBoard) : RficLabel → Option RficBoard
  | .enableModule ch enable => s.enableModule ch enable
  | .configure layout formats =>
      some { s with
        layout := Function.update s.layout layout.direction layout
        formats := formats }
  | .setFrequency ch freq => s.setFrequency ch freq

def Covered (s : RficBoard) : RficLabel → Prop
  | .enableModule ch enable => s.Covers ch enable
  | .configure _ _ => True
  | .setFrequency _ _ => True

theorem inStep_step {l : RficLabel} (hi : s.InStep) (hr : s.Ready) (hok : s.Covered l)
    (h : s.step l = some t) : t.InStep ∧ t.Ready := by
  cases l with
  | enableModule ch enable =>
      obtain ⟨u, hu, he⟩ := enableModule_ready hr hi ch enable
      obtain rfl : u = t := Option.some_injective _ (hu.symm.trans h)
      exact ⟨(he.inStep_iff hi).mpr hok, he.ready hr⟩
  | configure layout formats =>
      obtain rfl := Option.some_injective _ h
      refine ⟨⟨hi.direction, hi.backend, hi.spdt, hi.mute⟩, hr.lo, fun dir => ?_, hr.mute⟩
      by_cases hdir : dir = layout.direction
      · subst hdir
        exact .inr (by simp)
      · simpa [hdir] using hr.layout dir
  | setFrequency ch freq =>
      by_cases hvalid : isWithinFrequencyRange ch.dir freq = true
      · obtain ⟨rffe, port, htune, hch, hdir, hspdt⟩ := setFrequency_valid (s := s) hvalid
        obtain rfl := Option.some_injective _ (htune.symm.trans h)
        refine ⟨⟨fun d => ?_, fun d => ?_, fun c => ?_, fun i => ?_⟩, fun d => ?_, hr.layout,
          hr.mute⟩
        · simpa only [rffeDirHasEnabledCh, hch, hdir] using hi.direction d
        · simpa only [hdir] using hi.backend d
        · refine (hspdt c).trans ?_
          simp only [hch]
          by_cases hd : c.dir = ch.dir
          · simp [hd]
          · simpa [hd] using hi.spdt c
        · simpa only [hch] using hi.mute i
        · by_cases hd : d = ch.dir
          · subst hd
            simpa using hvalid
          · simpa [hd] using hr.lo d
      · simp [step, setFrequency, hvalid] at h

/-- In every run whose calls cover the other channel everything stays in step, and
the next call succeeds and leaves the other direction alone. -/
theorem modules_in_step {ls : List RficLabel} (hs : s.AllDisabled) (hr : s.Ready)
    (h : Lib.Steps step Covered s ls t) :
    t.InStep ∧ ∀ ch enable, ∃ u, t.enableModule ch enable = some u ∧
      ∀ d, d ≠ ch.dir → rffeDirEnabled u.rffe d = rffeDirEnabled t.rffe d ∧
        ∀ c, c.dir = d → rffeChEnabled u.rffe c = rffeChEnabled t.rffe c ∧
          rffeSpdt u.rffe c = rffeSpdt t.rffe c := by
  obtain ⟨hi, hready⟩ := h.invariant (P := fun t => t.InStep ∧ t.Ready) ⟨hs.inStep, hr⟩
    fun ha hok hstep => inStep_step ha.1 ha.2 hok hstep
  refine ⟨hi, fun ch enable => ?_⟩
  obtain ⟨u, hu, he⟩ := enableModule_ready hready hi ch enable
  exact ⟨u, hu, fun d hd => he.otherDirection hd⟩

/-! ### Two channels of TX -/

/-- A board after initialization, at 2.4 GHz, with two-channel layouts. -/
def initialized : RficBoard where
  rffe := 1
  lo _ := 2400000000
  rfPort _ := 1
  txMute _ := ⟨true, true, 10000, true, mutedAtten⟩
  backend _ := false
  layout
    | .rx => .rxX2
    | .tx => .txX2
  formats := .opened

theorem initialized_allDisabled : initialized.AllDisabled where
  channel := fun ⟨d, i⟩ => by cases d <;> fin_cases i <;> rfl
  direction dir := by cases dir <;> rfl
  spdt := fun ⟨d, i⟩ => by cases d <;> fin_cases i <;> rfl
  backend _ := rfl
  mute _ := rfl

theorem initialized_ready : initialized.Ready where
  lo dir := by cases dir <;> rfl
  layout dir := by cases dir <;> exact .inr rfl
  mute _ := ⟨rfl, rfl⟩

/-- RX with two channels, then TX with one: its channels are enabled one by one, and
the first is disabled again at another frequency. -/
def rxThenTx : List RficLabel :=
  [.enableModule ⟨.rx, 0⟩ true, .configure .txX1 .opened, .enableModule ⟨.tx, 0⟩ true,
    .enableModule ⟨.tx, 1⟩ true, .setFrequency ⟨.tx, 0⟩ 3500000000, .enableModule ⟨.tx, 0⟩ false]

theorem modules_in_step_rx_tx : ∃ t, Lib.Steps step Covered initialized rxThenTx t ∧ t.InStep ∧
    rffeChEnabled t.rffe ⟨.rx, 1⟩ = true ∧ rffeSpdt t.rffe ⟨.tx, 1⟩ = rffeControlSpdtHighband ∧
    (t.txMute 0).muted = true ∧ (t.txMute 1).muted = false := by
  have hone : ∀ {s : RficBoard} {ch enable}, s.layout ch.dir = .txX1 → s.Covers ch enable :=
    fun hlayout htwo => absurd htwo (by simp [twoChannel, hlayout])
  have hstep : ∃ a b c d e t, initialized.enableModule ⟨.rx, 0⟩ true = some a ∧
      a.step (.configure .txX1 .opened) = some b ∧ b.enableModule ⟨.tx, 0⟩ true = some c ∧
      c.enableModule ⟨.tx, 1⟩ true = some d ∧ d.setFrequency ⟨.tx, 0⟩ 3500000000 = some e ∧
      e.enableModule ⟨.tx, 0⟩ false = some t ∧
      (b.layout .tx = .txX1 ∧ c.layout .tx = .txX1 ∧ e.layout .tx = .txX1) ∧
      rffeChEnabled t.rffe ⟨.rx, 1⟩ = true ∧ rffeSpdt t.rffe ⟨.tx, 1⟩ = rffeControlSpdtHighband ∧
      (t.txMute 0).muted = true ∧ (t.txMute 1).muted = false :=
    ⟨_, _, _, _, _, _, rfl, rfl, rfl, rfl, rfl, rfl, ⟨rfl, rfl, rfl⟩, rfl, rfl, rfl, rfl⟩
  obtain ⟨a, b, c, d, e, t, h₁, h₂, h₃, h₄, h₅, h₆, ⟨hb, hc, he⟩, hend⟩ := hstep
  have hrun : Lib.Steps step Covered initialized rxThenTx t :=
    .cons (fun _ => .inr ⟨rfl, rfl⟩) h₁ (.cons trivial h₂ (.cons (hone hb) h₃
      (.cons (hone hc) h₄ (.cons trivial h₅ (.cons (hone he) h₆ .nil)))))
  exact ⟨t, hrun, (modules_in_step initialized_allDisabled initialized_ready hrun).1, hend⟩

/-- TX is enabled channel by channel under a two-channel layout.  The first call
sets both enable bits, so the second finds nothing pending, and its channel stays
muted. -/
theorem second_tx_channel_muted : ∃ t,
    initialized.AllDisabled ∧ initialized.Ready ∧
    Lib.Steps step (fun _ _ => True) initialized
      [.enableModule ⟨.tx, 0⟩ true, .enableModule ⟨.tx, 1⟩ true] t ∧
    rffeChEnabled t.rffe ⟨.tx, 1⟩ = true ∧ (t.txMute 1).muted = true ∧ ¬t.InStep := by
  have hstep : ∃ a t, initialized.enableModule ⟨.tx, 0⟩ true = some a ∧
      a.enableModule ⟨.tx, 1⟩ true = some t ∧
      rffeChEnabled t.rffe ⟨.tx, 1⟩ = true ∧ (t.txMute 1).muted = true :=
    ⟨_, _, rfl, rfl, rfl, rfl⟩
  obtain ⟨a, t, h₁, h₂, hbit, hmuted⟩ := hstep
  refine ⟨t, initialized_allDisabled, initialized_ready,
    .cons trivial h₁ (.cons trivial h₂ .nil), hbit, hmuted, fun hi => ?_⟩
  have hin := hi.mute 1
  rw [hmuted, hbit] at hin
  cases hin

end RficBoard
end BladeRF
