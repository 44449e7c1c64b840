/-
# `Board.SampleFormat` — the format bits that both directions share

Four bits of the config GPIO tell the FPGA how samples are laid out on the USB
link, for RX and TX alike.  `perform_format_config` sets all four for the format
of one direction, and before that compares one of them, the timestamp bit, with
the format recorded for the other direction.

A recorded format and a live stream are not the same thing.  `sync_init` may
refuse its arguments before it takes the old stream down, and an asynchronous
stream that ends erases the record of its direction, whoever set it.
-/
import BladeRF.Lib.Field
import BladeRF.Lib.Steps
import BladeRF.Board.TxAdmission
import BladeRF.Streaming.BufferMgmt

namespace BladeRF

/-! ## Directions, layouts, formats -/

inductive BladerfDirection
  | rx
  | tx
  deriving DecidableEq

/-- The `other` of `perform_format_config`. -/
def BladerfDirection.other : BladerfDirection → BladerfDirection
  | .rx => .tx
  | .tx => .rx

inductive BladerfChannelLayout
  | rxX1
  | rxX2
  | txX1
  | txX2
  deriving DecidableEq

/-- `layout & BLADERF_DIRECTION_MASK`. -/
def BladerfChannelLayout.direction : BladerfChannelLayout → BladerfDirection
  | .rxX1 | .rxX2 => .rx
  | .txX1 | .txX2 => .tx

def bladerfGpioTimestamp : BitVec 32 := 1#32 <<< 16
def bladerfGpioPacket : BitVec 32 := 1#32 <<< 19
def bladerfGpio8bitMode : BitVec 32 := 1#32 <<< 20
def bladerfGpioHighlyPackedMode : BitVec 32 := 1#32 <<< 21

/-- The four bits that `perform_format_config` writes. -/
def bladerfGpioFormatBits : BitVec 32 :=
  bladerfGpioTimestamp ||| bladerfGpioPacket ||| bladerfGpio8bitMode |||
    bladerfGpioHighlyPackedMode

namespace BladerfFormat

/-- `requires_timestamps`, on the formats it knows. -/
def requiresTimestamps : BladerfFormat → Bool
  | .sc8Q7Meta | .sc16Q11Meta | .packetMeta => true
  | .sc8Q7 | .sc16Q11 | .sc16Q11Packed => false

/-- What a format needs of the four bits, as the FPGA reads them. -/
def formatBits : BladerfFormat → BitVec 32
  | .sc16Q11 => 0
  | .sc16Q11Packed => bladerfGpioHighlyPackedMode
  | .sc16Q11Meta => bladerfGpioTimestamp
  | .packetMeta => bladerfGpioTimestamp ||| bladerfGpioPacket
  | .sc8Q7 => bladerfGpio8bitMode
  | .sc8Q7Meta => bladerfGpioTimestamp ||| bladerfGpio8bitMode

/-- The value `perform_format_config` writes over `gpioVal`. -/
def gpioValue (format : BladerfFormat) (gpioVal : BitVec 32) : BitVec 32 :=
  let gpioVal := if format.requiresTimestamps then gpioVal ||| bladerfGpioTimestamp
    else gpioVal &&& ~~~bladerfGpioTimestamp
  let gpioVal := if format = .packetMeta
    then gpioVal ||| (bladerfGpioPacket ||| bladerfGpioTimestamp)
    else gpioVal &&& ~~~bladerfGpioPacket
  let gpioVal := if format = .sc8Q7 ∨ format = .sc8Q7Meta
    then gpioVal ||| bladerfGpio8bitMode
    else gpioVal &&& ~~~bladerfGpio8bitMode
  if format = .sc16Q11Packed then gpioVal ||| bladerfGpioHighlyPackedMode
  else gpioVal &&& ~~~bladerfGpioHighlyPackedMode

theorem gpioValue_eq (format : BladerfFormat) (gpioVal : BitVec 32) :
    format.gpioValue gpioVal = Lib.writeField bladerfGpioFormatBits format.formatBits gpioVal := by
  cases format <;>
    simp only [gpioValue, requiresTimestamps, reduceCtorEq, or_self, or_true, true_or, if_true,
      if_false, Bool.false_eq_true, Lib.or_eq_writeField, Lib.and_not_eq_writeField,
      Lib.writeField_writeField] <;>
    rfl

theorem readField_gpioValue (format : BladerfFormat) (gpioVal : BitVec 32) :
    Lib.readField bladerfGpioFormatBits (format.gpioValue gpioVal) = format.formatBits := by
  rw [gpioValue_eq, Lib.readField_writeField_self]
  cases format <;> rfl

theorem otherBits_gpioValue (format : BladerfFormat) (gpioVal : BitVec 32) :
    Lib.readField (~~~bladerfGpioFormatBits) (format.gpioValue gpioVal) =
      Lib.readField (~~~bladerfGpioFormatBits) gpioVal := by
  rw [gpioValue_eq]
  exact Lib.readField_writeField_of_disjoint _ _ (by decide)

/-- `metadata_rx_format_allowed_for_epoch_contract`. -/
def allowedForEpochContract (format : BladerfFormat) (epochContractEnabled : Bool) : Bool :=
  !epochContractEnabled || format.isSampleMeta

/-- `samples_to_bytes(format, 1)`. -/
def bytesPerSample : BladerfFormat → ℕ
  | .sc8Q7 | .sc8Q7Meta => 2
  | .sc16Q11Packed => 3
  | .sc16Q11 | .sc16Q11Meta | .packetMeta => 4

end BladerfFormat

/-! ## The board -/

/-- An asynchronous stream between the two critical sections of
`bladerf2_stream`. -/
structure RunningStream where
  layout : BladerfChannelLayout
  format : BladerfFormat
  deriving DecidableEq

/-- What the calls share, behind `dev->lock`. -/
structure FormatBoard where
  /-- `module_format`; `none` is -1 -/
  moduleFormat : BladerfDirection → Option BladerfFormat
  configGpio : BitVec 32
  /-- the format of the `sync` handle, when it is initialized -/
  sync : BladerfDirection → Option BladerfFormat
  /-- the calls inside `async_run_stream` -/
  running : List RunningStream
  rxAsyncEpochlessStreamCount : ℕ
  rxAsyncX1StreamCount : ℕ

/-- The two accesses of `perform_format_config`. -/
structure GpioAnswers where
  read : RetCode
  write : RetCode
  /-- a write that is reported as failed has reached the FPGA all the same -/
  landed : Bool

namespace FormatBoard

variable (s : FormatBoard)

/-- The direction uses the format: it is recorded, or a live stream has it. -/
def Uses (dir : BladerfDirection) (f : BladerfFormat) : Prop :=
  s.moduleFormat dir = some f ∨ s.sync dir = some f ∨
    ∃ r ∈ s.running, r.layout.direction = dir ∧ r.format = f

def Agrees : Prop :=
  ∀ dir f, s.Uses dir f → Lib.readField bladerfGpioFormatBits s.configGpio = f.formatBits

structure Unconfigured : Prop where
  moduleFormat : ∀ dir, s.moduleFormat dir = none
  sync : ∀ dir, s.sync dir = none
  running : s.running = []

def performFormatDeconfig (dir : BladerfDirection) : FormatBoard :=
  { s with moduleFormat := Function.update s.moduleFormat dir none }

/-- The format conflicts with the one that is recorded for the other direction. -/
def formatConflict (dir : BladerfDirection) (format : BladerfFormat) : Bool :=
  (s.moduleFormat dir.other).any (·.requiresTimestamps != format.requiresTimestamps)

def performFormatConfig (dir : BladerfDirection) (format : BladerfFormat) (initialized : Bool)
    (a : GpioAnswers) : FormatBoard × RetCode :=
  if !initialized then (s, .notInit)
  else if s.formatConflict dir format then (s, .inval)
  else if a.read ≠ .ok then (s, a.read)
  else
    let gpioVal := format.gpioValue s.configGpio
    if a.write ≠ .ok then
      (if a.landed then { s with configGpio := gpioVal } else s, a.write)
    else
      ({ s with
          configGpio := gpioVal
          moduleFormat := Function.update s.moduleFormat dir (some format) }, .ok)

end FormatBoard

/-! ## The calls -/

/-- The buffers of a synchronous stream; `unsigned int` values. -/
structure StreamGeometry where
  numBuffers : ℕ
  bufferSize : ℕ
  numTransfers : ℕ

/-- What `sync_init` learns of the device, and how its own set-up goes. -/
structure SyncInitAnswers where
  fwShortPacket : Bool
  fpgaPacketMeta : Bool
  fpga8bitSamples : Bool
  fwVersion : RetCode
  /-- the firmware is older than `FW_LARGER_BUFFER_VERSION` -/
  legacyFw : Bool
  /-- locks, memory and worker -/
  setup : RetCode

def uintMax : ℕ := 2 ^ 32 - 1
def intMax : ℕ := 2 ^ 31 - 1

/-- `USB_MSG_SIZE_SS` and its value for old firmware. -/
def usbMsgSizeSs (legacyFw : Bool) : ℕ := if legacyFw then 2048 else 8192

/-- The buffer size that `sync_init` settles on, in samples.  The tests against
`SIZE_MAX` cannot fail for `unsigned int` arguments. -/
def syncBufferSize (format : BladerfFormat) (bufferSize : ℕ) (legacyFw : Bool) : ℕ :=
  let validBufferSize := if format = .sc16Q11Packed then 3 * usbMsgSizeSs legacyFw
    else usbMsgSizeSs legacyFw
  let bytesPerBuffer := format.bytesPerSample * bufferSize
  if bytesPerBuffer < validBufferSize ∨ bytesPerBuffer % validBufferSize ≠ 0 then
    (bytesPerBuffer / validBufferSize + if bytesPerBuffer % validBufferSize ≠ 0 then 1 else 0) *
      (validBufferSize / format.bytesPerSample)
  else bufferSize

/-- What `sync_init` checks before it takes down the handle as it was. -/
def syncInitCheck (format : BladerfFormat) (g : StreamGeometry) (a : SyncInitAnswers) : RetCode :=
  if g.numBuffers = 0 ∨ g.numTransfers = 0 ∨ g.numBuffers ≤ g.numTransfers ∨
      g.bufferSize = 0 ∨ uintMax < g.bufferSize then .inval
  else if format = .packetMeta ∧ !(a.fwShortPacket && a.fpgaPacketMeta) then .unsupported
  else if (format = .sc8Q7 ∨ format = .sc8Q7Meta) ∧ !a.fpga8bitSamples then .unsupported
  else if a.fwVersion ≠ .ok then a.fwVersion
  else
    let bufferSize := syncBufferSize format g.bufferSize a.legacyFw
    if uintMax < bufferSize ∨ intMax < format.bytesPerSample * bufferSize then .inval
    else .ok

structure FormatBoardAnswers where
  initialized : Bool
  epochContractEnabled : Bool
  /-- `rf_transition_rx_x2_host_data_required` -/
  rxX2HostDataRequired : Bool
  /-- `rx_epoch_id_filter_enabled` of the RX sync handle -/
  rxEpochIdFilterEnabled : Bool
  oversample : Bool
  txFirstDataAdmitted : Bool
  /-- `bladerf2_tx_config_change_begin` -/
  txConfigChange : RetCode

/-- The arguments of `bladerf2_sync_config`, and what it meets. -/
structure SyncConfigCall where
  layout : BladerfChannelLayout
  format : BladerfFormat
  geometry : StreamGeometry
  board : FormatBoardAnswers
  gpio : GpioAnswers
  sync : SyncInitAnswers

/-- `bladerf2_stream` up to `async_run_stream`, and what it meets. -/
structure StreamCall where
  layout : BladerfChannelLayout
  format : BladerfFormat
  board : FormatBoardAnswers
  gpio : GpioAnswers

namespace SyncConfigCall

variable (c : SyncConfigCall)

/-- RX META streams get three times as many buffers as transfers. -/
def ringGeometry : StreamGeometry :=
  if c.layout.direction = .rx ∧ c.format.isSampleMeta then
    { c.geometry with numBuffers := max c.geometry.numBuffers (c.geometry.numTransfers * 3) }
  else c.geometry

/-- `preserve_rx_epoch_contract`. -/
def preservesEpochContract (s : FormatBoard) : Bool :=
  c.layout.direction = .rx && (c.board.epochContractEnabled ||
    ((s.sync .rx).any (·.isSampleMeta) && c.board.rxEpochIdFilterEnabled))

/-- The checks ahead of `perform_format_config`. -/
def check (s : FormatBoard) : RetCode :=
  if !c.board.initialized then .notInit
  else if c.layout.direction = .rx ∧ c.board.rxX2HostDataRequired ∧ c.layout ≠ .rxX2 then .unsupported
  else if c.layout.direction = .rx ∧ c.format.isSampleMeta ∧
      uintMax / 3 < c.geometry.numTransfers then .inval
  else if !c.format.allowedForEpochContract (c.preservesEpochContract s) then .unsupported
  else if c.board.oversample ∧ (c.format = .sc16Q11 ∨ c.format = .sc16Q11Meta) then .unsupported
  else .ok

/-- The result of `sync_init`'s checks. -/
def initCheck : RetCode := syncInitCheck c.format c.ringGeometry c.sync

end SyncConfigCall

namespace StreamCall

variable (c : StreamCall)

/-- The checks of `bladerf2_stream` before it touches the format. -/
def check : RetCode :=
  if c.layout.direction = .rx ∧ c.board.rxX2HostDataRequired ∧ c.layout ≠ .rxX2 then .unsupported
  else if c.layout.direction = .rx ∧ c.board.epochContractEnabled ∧ !c.format.isSampleMeta then
    .unsupported
  else if c.layout.direction = .tx ∧ c.board.txFirstDataAdmitted then c.board.txConfigChange
  else .ok

end StreamCall

namespace FormatBoard

variable (s : FormatBoard)

/-- `sync_init`.  A handle that fails to come up is deinitialized. -/
def syncInit (c : SyncConfigCall) : FormatBoard × RetCode :=
  if c.initCheck ≠ .ok then (s, c.initCheck)
  else
    let handle := if c.sync.setup = .ok then some c.format else none
    ({ s with sync := Function.update s.sync c.layout.direction handle }, c.sync.setup)

def syncRxEpochRequireTransition : RetCode :=
  if (s.sync .rx).any (!·.isSampleMeta) then .unsupported else .ok

/-- The last lines of `bladerf2_sync_config`. -/
def configEnd (dir : BladerfDirection) (status : RetCode) : FormatBoard :=
  if status ≠ .ok then s.performFormatDeconfig dir else s

/-- `bladerf2_sync_config`. -/
def syncConfig (c : SyncConfigCall) : FormatBoard × RetCode :=
  if c.check s ≠ .ok then (s, c.check s)
  else
    let (s', status) := s.performFormatConfig c.layout.direction c.format c.board.initialized c.gpio
    if status ≠ .ok then (s', status)
    else
      let (s'', status) := s'.syncInit c
      let status := if status = .ok ∧ c.preservesEpochContract s
        then s''.syncRxEpochRequireTransition else status
      (s''.configEnd c.layout.direction status, status)

/-- `bladerf2_stream` up to `async_run_stream`. -/
def streamBegin (c : StreamCall) : FormatBoard × RetCode :=
  if c.check ≠ .ok then (s, c.check)
  else
    let (s', status) := s.performFormatConfig c.layout.direction c.format c.board.initialized c.gpio
    if status ≠ .ok then (s', status)
    else
      ({ s' with
          running := s'.running ++ [⟨c.layout, c.format⟩]
          rxAsyncEpochlessStreamCount := s'.rxAsyncEpochlessStreamCount +
            (if c.layout.direction = .rx ∧ !c.format.isSampleMeta then 1 else 0)
          rxAsyncX1StreamCount := s'.rxAsyncX1StreamCount +
            (if c.layout = .rxX1 then 1 else 0) }, .ok)

/-- `bladerf2_stream` after `async_run_stream`. -/
def streamEnd (r : RunningStream) : FormatBoard :=
  { s.performFormatDeconfig r.layout.direction with
    running := s.running.erase r
    rxAsyncEpochlessStreamCount := s.rxAsyncEpochlessStreamCount -
      (if r.layout.direction = .rx ∧ !r.format.isSampleMeta then 1 else 0)
    rxAsyncX1StreamCount := s.rxAsyncX1StreamCount - (if r.layout = .rxX1 then 1 else 0) }

end FormatBoard

/-! ## Runs -/

/-- A critical section of `dev->lock`. -/
inductive FormatLabel
  | syncConfig (c : SyncConfigCall)
  | streamBegin (c : StreamCall)
  | streamEnd (r : RunningStream)

namespace FormatBoard

variable (s : FormatBoard)

def step : FormatLabel → Option FormatBoard
  | .syncConfig c => some (s.syncConfig c).1
  | .streamBegin c => some (s.streamBegin c).1
  | .streamEnd r => if r ∈ s.running then some (s.streamEnd r) else none

/-- The write of `perform_format_config` reaches the FPGA. -/
def formatWritten (dir : BladerfDirection) (f : BladerfFormat) (initialized : Bool)
    (a : GpioAnswers) : Bool :=
  initialized && !s.formatConflict dir f && a.read = .ok && (a.write = .ok || a.landed)

def written : FormatLabel → Option BladerfFormat
  | .syncConfig c =>
      if c.check s = .ok ∧ s.formatWritten c.layout.direction c.format c.board.initialized c.gpio
      then some c.format else none
  | .streamBegin c =>
      if c.check = .ok ∧ s.formatWritten c.layout.direction c.format c.board.initialized c.gpio
      then some c.format else none
  | .streamEnd _ => none

/-- The board without what a section replaces: the record of its direction, once
the write is confirmed, and the handle that `sync_init` takes down. -/
def retained : FormatLabel → FormatBoard
  | .syncConfig c =>
      if c.gpio.write ≠ .ok then s
      else if c.initCheck ≠ .ok then s.performFormatDeconfig c.layout.direction
      else
        { s.performFormatDeconfig c.layout.direction with
          sync := Function.update s.sync c.layout.direction none }
  | .streamBegin c =>
      if c.gpio.write ≠ .ok then s else s.performFormatDeconfig c.layout.direction
  | .streamEnd _ => s

/-- When a section puts the bits of a format on the GPIO, every format that stays
in use has the same bits. -/
def Compatible (l : FormatLabel) : Prop :=
  ∀ f, s.written l = some f → ∀ dir g, (s.retained l).Uses dir g → g.formatBits = f.formatBits

def formats : List BladerfFormat :=
  [BladerfDirection.rx, .tx].flatMap (fun dir => (s.moduleFormat dir).toList ++
    (s.sync dir).toList) ++ s.running.map (·.format)

theorem mem_formats {g : BladerfFormat} : g ∈ s.formats ↔ ∃ dir, s.Uses dir g := by
  simp only [formats, List.mem_append, List.mem_flatMap, Option.mem_toList, List.mem_map]
  constructor
  · rintro (⟨dir, -, h | h⟩ | ⟨r, hr, rfl⟩)
    · exact ⟨dir, .inl h⟩
    · exact ⟨dir, .inr (.inl h)⟩
    · exact ⟨r.layout.direction, .inr (.inr ⟨r, hr, rfl, rfl⟩)⟩
  · rintro ⟨dir, h | h | ⟨r, hr, -, rfl⟩⟩
    · exact .inl ⟨dir, by cases dir <;> simp, .inl h⟩
    · exact .inl ⟨dir, by cases dir <;> simp, .inr h⟩
    · exact .inr ⟨r, hr, rfl⟩

instance (l : FormatLabel) : Decidable (s.Compatible l) :=
  decidable_of_iff
    (∀ f ∈ (s.written l).toList, ∀ g ∈ (s.retained l).formats, g.formatBits = f.formatBits) <| by
    simp only [Compatible, Option.mem_toList, mem_formats, forall_exists_index]
    exact forall₂_congr fun f _ => forall_comm

end FormatBoard

/-! ## What a section does -/

namespace FormatBoard

variable {s r t u : FormatBoard} {dir : BladerfDirection} {f g : BladerfFormat}

/-- From `s` to `t` the GPIO is as it was, and no use is new. -/
structure Quiet (s t : FormatBoard) : Prop where
  gpio : t.configGpio = s.configGpio
  uses : ∀ dir g, t.Uses dir g → s.Uses dir g

/-- From `s` to `t` the bits of `f` are put on the GPIO; `r` stays in use, and
`f` is the only new use. -/
structure Writes (s r : FormatBoard) (f : BladerfFormat) (t : FormatBoard) : Prop where
  gpio : t.configGpio = f.gpioValue s.configGpio
  kept : ∀ dir g, r.Uses dir g → t.Uses dir g
  new : ∀ dir g, t.Uses dir g → r.Uses dir g ∨ g = f

theorem Quiet.refl : Quiet s s := ⟨rfl, fun _ _ h => h⟩

theorem Quiet.agrees (h : Quiet s t) (hs : s.Agrees) : t.Agrees := fun dir g hg => by
  rw [h.gpio]
  exact hs dir g (h.uses dir g hg)

theorem Writes.agrees_iff (h : Writes s r f t) :
    t.Agrees ↔ ∀ dir g, r.Uses dir g → g.formatBits = f.formatBits := by
  have hbits : Lib.readField bladerfGpioFormatBits t.configGpio = f.formatBits := by
    rw [h.gpio, f.readField_gpioValue]
  constructor
  · intro hagrees dir g hg
    rw [← hbits, hagrees dir g (h.kept dir g hg)]
  · intro hsame dir g hg
    rw [hbits]
    obtain hr | rfl := h.new dir g hg
    · exact (hsame dir g hr).symm
    · rfl

theorem configEnd_cases (s : FormatBoard) (dir : BladerfDirection) (status : RetCode) :
    s.configEnd dir status = s.performFormatDeconfig dir ∨ s.configEnd dir status = s := by
  unfold configEnd
  split
  · exact .inl rfl
  · exact .inr rfl

theorem uses_performFormatDeconfig {d : BladerfDirection}
    (h : (s.performFormatDeconfig d).Uses dir g) : s.Uses dir g := by
  obtain h | h := h
  · refine .inl ?_
    by_cases hd : dir = d
    · subst hd
      simp [performFormatDeconfig] at h
    · simpa [performFormatDeconfig, hd] using h
  · exact .inr h

theorem performFormatConfig_cases (s : FormatBoard) (dir : BladerfDirection) (f : BladerfFormat)
    (initialized : Bool) (a : GpioAnswers) :
    (s.formatWritten dir f initialized a = false ∧
      ∃ status, status ≠ .ok ∧ s.performFormatConfig dir f initialized a = (s, status)) ∨
    (s.formatWritten dir f initialized a = true ∧ a.write ≠ .ok ∧
      s.performFormatConfig dir f initialized a =
        ({ s with configGpio := f.gpioValue s.configGpio }, a.write)) ∨
    (s.formatWritten dir f initialized a = true ∧ a.write = .ok ∧
      s.performFormatConfig dir f initialized a =
        ({ s with
            configGpio := f.gpioValue s.configGpio
            moduleFormat := Function.update s.moduleFormat dir (some f) }, .ok)) := by
  unfold performFormatConfig formatWritten
  by_cases hinit : initialized = true
  · by_cases hconflict : s.formatConflict dir f = true
    · exact .inl ⟨by simp [hconflict], .inval, by decide, by simp [hinit, hconflict]⟩
    · by_cases hread : a.read = .ok
      · by_cases hwrite : a.write = .ok
        · exact .inr (.inr ⟨by simp [hinit, hconflict, hread, hwrite], hwrite,
            by simp [hinit, hconflict, hread, hwrite]⟩)
        · by_cases hlanded : a.landed = true
          · exact .inr (.inl ⟨by simp [hinit, hconflict, hread, hlanded], hwrite,
              by simp [hinit, hconflict, hread, hwrite, hlanded]⟩)
          · exact .inl ⟨by simp [hwrite, hlanded], a.write, hwrite,
              by simp [hinit, hconflict, hread, hwrite, hlanded]⟩
      · exact .inl ⟨by simp [hread], a.read, hread, by simp [hinit, hconflict, hread]⟩
  · exact .inl ⟨by simp [hinit], .notInit, by decide, by simp [hinit]⟩

/-- An entry stays as it was, or an empty one now holds `f`. -/
def Gains (f : BladerfFormat) (a b : Option BladerfFormat) : Prop :=
  b = a ∨ a = none ∧ b = some f

theorem gains_update (m : BladerfDirection → Option BladerfFormat) {b : Option BladerfFormat}
    (hb : b = none ∨ b = some f) (d : BladerfDirection) :
    Gains f (Function.update m dir none d) (Function.update m dir b d) := by
  by_cases hd : d = dir
  · subst hd
    simpa only [Gains, Function.update_self, true_and] using hb
  · exact .inl (by simp only [Function.update_of_ne hd])

theorem Writes.of_fields (hgpio : t.configGpio = f.gpioValue s.configGpio)
    (hformat : ∀ d, Gains f (r.moduleFormat d) (t.moduleFormat d))
    (hsync : ∀ d, Gains f (r.sync d) (t.sync d))
    (hkept : ∀ x ∈ r.running, x ∈ t.running)
    (hnew : ∀ x ∈ t.running, x ∈ r.running ∨ x.format = f) : Writes s r f t where
  gpio := hgpio
  kept dir g := by
    rintro (h | h | ⟨x, hx, hfields⟩)
    · refine .inl ?_
      obtain heq | ⟨hnone, -⟩ := hformat dir
      · rw [heq, h]
      · rw [hnone] at h
        cases h
    · refine .inr (.inl ?_)
      obtain heq | ⟨hnone, -⟩ := hsync dir
      · rw [heq, h]
      · rw [hnone] at h
        cases h
    · exact .inr (.inr ⟨x, hkept x hx, hfields⟩)
  new dir g := by
    rintro (h | h | ⟨x, hx, hdir, rfl⟩)
    · obtain heq | ⟨-, hsome⟩ := hformat dir
      · exact .inl (.inl (heq ▸ h))
      · exact .inr (Option.some_injective _ (h.symm.trans hsome))
    · obtain heq | ⟨-, hsome⟩ := hsync dir
      · exact .inl (.inr (.inl (heq ▸ h)))
      · exact .inr (Option.some_injective _ (h.symm.trans hsome))
    · obtain hx | hx := hnew x hx
      · exact .inl (.inr (.inr ⟨x, hx, hdir, rfl⟩))
      · exact .inr hx

/-- The effect of a section: the GPIO keeps its bits, or gets those of `written`. -/
def Effect (s : FormatBoard) (l : FormatLabel) (t : FormatBoard) : Prop :=
  (s.written l = none ∧ Quiet s t) ∨ ∃ f, s.written l = some f ∧ Writes s (s.retained l) f t

theorem Effect.agrees_iff {l : FormatLabel} (h : s.Effect l t) (hs : s.Agrees) :
    t.Agrees ↔ s.Compatible l := by
  obtain ⟨hnone, hquiet⟩ | ⟨f, hf, hwrites⟩ := h
  · simp only [Compatible, hnone, reduceCtorEq, false_implies, implies_true, iff_true]
    exact hquiet.agrees hs
  · simp only [Compatible, hf, Option.some.injEq, forall_eq']
    exact hwrites.agrees_iff

theorem Effect.otherBits {l : FormatLabel} (h : s.Effect l t) :
    Lib.readField (~~~bladerfGpioFormatBits) t.configGpio =
      Lib.readField (~~~bladerfGpioFormatBits) s.configGpio := by
  obtain ⟨-, hquiet⟩ | ⟨f, -, hwrites⟩ := h
  · rw [hquiet.gpio]
  · rw [hwrites.gpio, f.otherBits_gpioValue]

theorem effect_syncConfig (c : SyncConfigCall) : s.Effect (.syncConfig c) (s.syncConfig c).1 := by
  by_cases hcheck : c.check s = .ok
  · obtain ⟨hwritten, status, hstatus, hconfig⟩ | ⟨hwritten, hwrite, hconfig⟩ |
        ⟨hwritten, hwrite, hconfig⟩ :=
      s.performFormatConfig_cases c.layout.direction c.format c.board.initialized c.gpio
    · refine .inl ⟨by simp [written, hwritten], ?_⟩
      simpa [syncConfig, hcheck, hconfig, hstatus] using Quiet.refl
    · refine .inr ⟨c.format, by simp [written, hcheck, hwritten], ?_⟩
      simp only [syncConfig, hcheck, hconfig, hwrite, retained, ne_eq, not_true, not_false_eq_true,
        if_true, if_false]
      exact .of_fields rfl (fun _ => .inl rfl) (fun _ => .inl rfl) (fun _ h => h) fun _ h => .inl h
    · refine .inr ⟨c.format, by simp [written, hcheck, hwritten], ?_⟩
      simp only [syncConfig, hcheck, hconfig, hwrite, retained, ne_eq, not_true, if_false]
      by_cases hinit : c.initCheck = .ok
      · have hhandle : ∀ d, Gains c.format (Function.update s.sync c.layout.direction none d)
            (Function.update s.sync c.layout.direction
              (if c.sync.setup = .ok then some c.format else none) d) :=
          gains_update _ (by split <;> simp)
        simp only [syncInit, hinit, ne_eq, not_true, if_false]
        obtain hend | hend := configEnd_cases _ c.layout.direction _ <;> rw [hend]
        · exact .of_fields rfl (fun d => .inl (by simp [performFormatDeconfig])) hhandle
            (fun _ h => h) fun _ h => .inl h
        · exact .of_fields rfl (gains_update _ (.inr rfl)) hhandle (fun _ h => h)
            fun _ h => .inl h
      · simp only [syncInit, hinit, configEnd, ne_eq, not_false_eq_true, if_true, false_and,
          if_false]
        exact .of_fields rfl (fun d => .inl (by simp [performFormatDeconfig]))
          (fun _ => .inl rfl) (fun _ h => h) fun _ h => .inl h
  · refine .inl ⟨by simp [written, hcheck], ?_⟩
    simpa [syncConfig, hcheck] using Quiet.refl

theorem effect_streamBegin (c : StreamCall) :
    s.Effect (.streamBegin c) (s.streamBegin c).1 := by
  by_cases hcheck : c.check = .ok
  · obtain ⟨hwritten, status, hstatus, hconfig⟩ | ⟨hwritten, hwrite, hconfig⟩ |
        ⟨hwritten, hwrite, hconfig⟩ :=
      s.performFormatConfig_cases c.layout.direction c.format c.board.initialized c.gpio
    · refine .inl ⟨by simp [written, hwritten], ?_⟩
      simpa [streamBegin, hcheck, hconfig, hstatus] using Quiet.refl
    · refine .inr ⟨c.format, by simp [written, hcheck, hwritten], ?_⟩
      simp only [streamBegin, hcheck, hconfig, hwrite, retained, ne_eq, not_true,
        not_false_eq_true, if_true, if_false]
      exact .of_fields rfl (fun _ => .inl rfl) (fun _ => .inl rfl) (fun _ h => h) fun _ h => .inl h
    · refine .inr ⟨c.format, by simp [written, hcheck, hwritten], ?_⟩
      simp only [streamBegin, hcheck, hconfig, hwrite, retained, ne_eq, not_true, if_false]
      refine .of_fields rfl (gains_update _ (.inr rfl)) (fun _ => .inl rfl)
        (fun x hx => List.mem_append_left _ hx) fun x hx => ?_
      obtain hx | hx := List.mem_append.mp hx
      · exact .inl hx
      · exact .inr (by rw [List.mem_singleton.mp hx])
  · refine .inl ⟨by simp [written, hcheck], ?_⟩
    simpa [streamBegin, hcheck] using Quiet.refl

theorem effect_streamEnd (x : RunningStream) : s.Effect (.streamEnd x) (s.streamEnd x) := by
  refine .inl ⟨rfl, rfl, fun dir g => ?_⟩
  rintro (h | h | ⟨y, hy, hfields⟩)
  · exact uses_performFormatDeconfig (.inl h)
  · exact .inr (.inl h)
  · exact .inr (.inr ⟨y, List.mem_of_mem_erase hy, hfields⟩)

theorem effect_step {l : FormatLabel} (h : s.step l = some t) : s.Effect l t := by
  cases l with
  | syncConfig c =>
      obtain rfl := Option.some_injective _ h
      exact effect_syncConfig c
  | streamBegin c =>
      obtain rfl := Option.some_injective _ h
      exact effect_streamBegin c
  | streamEnd x =>
      simp only [step] at h
      split at h
      · obtain rfl := Option.some_injective _ h
        exact effect_streamEnd x
      · cases h

theorem agrees_step_iff {l : FormatLabel} (hs : s.Agrees) (h : s.step l = some t) :
    t.Agrees ↔ s.Compatible l :=
  (effect_step h).agrees_iff hs

theorem Unconfigured.agrees (h : s.Unconfigured) : s.Agrees := by
  rintro dir g (hg | hg | ⟨x, hx, -⟩)
  · rw [h.moduleFormat] at hg
    cases hg
  · rw [h.sync] at hg
    cases hg
  · rw [h.running] at hx
    cases hx

/-- In every run whose sections are compatible the format bits are those of every
format in use, and the other bits of the GPIO are as at the start. -/
theorem format_bits_agree {ls : List FormatLabel} (hs : s.Unconfigured)
    (h : Lib.Steps step Compatible s ls t) :
    t.Agrees ∧ Lib.readField (~~~bladerfGpioFormatBits) t.configGpio =
      Lib.readField (~~~bladerfGpioFormatBits) s.configGpio := by
  refine h.invariant (P := fun t => t.Agrees ∧ Lib.readField (~~~bladerfGpioFormatBits)
    t.configGpio = Lib.readField (~~~bladerfGpioFormatBits) s.configGpio)
    ⟨hs.agrees, rfl⟩ fun {a l b} ha hok hstep => ?_
  exact ⟨(agrees_step_iff ha.1 hstep).mpr hok, (effect_step hstep).otherBits.trans ha.2⟩

/-! ### Two configurations -/

/-- A board that was just opened; 0x57 is the default of the config GPIO. -/
def opened : FormatBoard where
  moduleFormat _ := none
  configGpio := 0x57
  sync _ := none
  running := []
  rxAsyncEpochlessStreamCount := 0
  rxAsyncX1StreamCount := 0

theorem opened_unconfigured : opened.Unconfigured := ⟨fun _ => rfl, fun _ => rfl, rfl⟩

/-- A `bladerf2_sync_config` that meets no obstacle. -/
def plainConfig (layout : BladerfChannelLayout) (format : BladerfFormat) : SyncConfigCall where
  layout := layout
  format := format
  geometry := ⟨16, 8192, 8⟩
  board := ⟨true, false, false, false, false, false, .ok⟩
  gpio := ⟨.ok, .ok, false⟩
  sync := ⟨true, true, true, .ok, false, .ok⟩

/-- A `bladerf2_stream` that meets no obstacle. -/
def plainStream (layout : BladerfChannelLayout) (format : BladerfFormat) : StreamCall where
  layout := layout
  format := format
  board := (plainConfig layout format).board
  gpio := ⟨.ok, .ok, false⟩

/-- Beside the RX stream, TX runs and ends an asynchronous stream, fails to write
8-bit samples, fails a write that takes effect, and is configured. -/
def bothDirections : List FormatLabel :=
  [.syncConfig (plainConfig .rxX1 .sc16Q11Meta),
    .streamBegin (plainStream .txX1 .sc16Q11Meta),
    .streamEnd ⟨.txX1, .sc16Q11Meta⟩,
    .syncConfig { plainConfig .txX1 .sc8Q7Meta with gpio := ⟨.ok, .io, false⟩ },
    .syncConfig { plainConfig .txX1 .sc16Q11Meta with gpio := ⟨.ok, .io, true⟩ },
    .syncConfig (plainConfig .txX2 .sc16Q11Meta)]

theorem format_bits_agree_meta : ∃ t, Lib.Steps step Compatible opened bothDirections t ∧
    t.sync .rx = some .sc16Q11Meta ∧ t.sync .tx = some .sc16Q11Meta ∧ t.Agrees ∧
      Lib.readField bladerfGpioFormatBits t.configGpio = bladerfGpioTimestamp := by
  have hrun : ∃ t, Lib.Steps step Compatible opened bothDirections t ∧
      t.sync .rx = some .sc16Q11Meta ∧ t.sync .tx = some .sc16Q11Meta := ⟨_, .of_exec rfl, rfl, rfl⟩
  obtain ⟨t, hsteps, hrx, htx⟩ := hrun
  have hagrees := (format_bits_agree opened_unconfigured hsteps).1
  exact ⟨t, hsteps, hrx, htx, hagrees, hagrees .rx .sc16Q11Meta (.inr (.inl hrx))⟩

/-- RX is configured with 16-bit samples and TX with 8-bit samples, and both calls
succeed: the RX stream is then read in 8-bit mode. -/
theorem format_bits_overwritten : ∃ ls t, Lib.Steps step (fun _ _ => True) opened ls t ∧
    opened.Unconfigured ∧ t.sync .rx = some .sc16Q11Meta ∧ ¬t.Agrees := by
  let a := (opened.syncConfig (plainConfig .rxX1 .sc16Q11Meta)).1
  let b := (a.syncConfig (plainConfig .txX1 .sc8Q7Meta)).1
  refine ⟨[.syncConfig (plainConfig .rxX1 .sc16Q11Meta),
    .syncConfig (plainConfig .txX1 .sc8Q7Meta)], b,
    .cons trivial rfl (.cons trivial rfl .nil), opened_unconfigured, rfl, fun h => ?_⟩
  exact absurd (h .rx .sc16Q11Meta (.inr (.inl rfl))) (by decide)

end FormatBoard
end BladeRF
