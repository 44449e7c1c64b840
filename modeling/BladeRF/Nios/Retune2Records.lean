/-
# `Nios.Retune2Records` — the outcome records of RETUNE2

Every finished retune publishes a record: a success or a failure, of one module.
Each of the four kinds has its own counter and its own ring of records, and a
record is asked for by its sequence number, the counter at its publication.  The
ring answers while the slot still holds exactly that sequence.

`publish_retune2_success`, `record_retune2_failure` and
`pkt_retune2_record_read` of `pkt_retune2.c`, and the host's
`nios_retune2_record_read`.  A publication is one step: nothing on the NIOS reads
the ring between the marker and the sequence.
-/
import BladeRF.Lib.Field
import BladeRF.Lib.Laps
import BladeRF.Nios.Device
import BladeRF.Nios.FastlockCache
import BladeRF.Sweep.Record

namespace BladeRF

/-! ## What is published -/

/-- `struct retune2_execution`.  Only `NIOS_PKT_RETUNE2_EXEC_*` flags are set. -/
structure Retune2Execution where
  timestamp : BitVec 64 := 0
  flags : BitVec 8 := 0
  synth : Fin 7 → BitVec 8 := fun _ => 0
  flags_known : flags &&& 0xc0 = 0 := by decide

/-- `struct queue_entry`, as far as an outcome reports it. -/
structure Retune2QueueEntry extends Retune2Entry where
  immediate : Bool
  requestToken : BitVec 16
  gainTable : BitVec 8
  timestamp : BitVec 64
  sessionGeneration : BitVec 32
  execution : Retune2Execution

structure Retune2NowTiming where
  workerStartTimestamp : BitVec 64 := 0
  profileEndTimestamp : BitVec 32 := 0
  gainStartTimestamp : BitVec 32 := 0
  gainEndTimestamp : BitVec 32 := 0
  pllStartTimestamp : BitVec 32 := 0
  gainLoaderActiveTicks : BitVec 32 := 0
  gainLoaderSpiUs : BitVec 32 := 0
  gainLoaderArbiterUs : BitVec 32 := 0
  workerStartValid : Bool := false
  profileEndValid : Bool := false
  gainStartValid : Bool := false
  gainEndValid : Bool := false
  pllStartValid : Bool := false
  gainLoaderTimingValid : Bool := false
  gainLoaderSpiTimingValid : Bool := false

/-- The arguments of `publish_retune2_success`; `workerEnd` is what
`time_tamer_read` returns in it. -/
structure Retune2Success where
  entry : Retune2QueueEntry
  readbackFrequencyHz : BitVec 64
  timing : Retune2NowTiming
  workerEnd : Option (BitVec 64)

/-- The arguments of `record_retune2_failure`. -/
structure Retune2Failure where
  entry : Option Retune2QueueEntry
  failureStage : BitVec 8

/-! ## The words of a success -/

def retune2GainTableFlags (gainTable : BitVec 8) : BitVec 8 :=
  if gainTable &&& 0x80 ≠ 0 then
    0x04 ||| (if gainTable &&& 0x10 ≠ 0 then 0x08 else 0) ||| (gainTable &&& 0x3) <<< 4
  else 0

theorem retune2GainTableFlags_known (gainTable : BitVec 8) :
    retune2GainTableFlags gainTable &&& 0xc0 = 0 := by
  revert gainTable
  decide

def Retune2QueueEntry.executed (e : Retune2QueueEntry) : Retune2Execution where
  timestamp := e.execution.timestamp
  flags := e.execution.flags ||| retune2GainTableFlags e.gainTable
  synth := e.execution.synth
  flags_known := by
    rw [BitVec.and_or_distrib_right, e.execution.flags_known, retune2GainTableFlags_known]
    rfl

/-- A stage duration at its place in the TIMING word, with its valid bit. -/
def retune2TimingField (shift ticks : ℕ) : BitVec 64 :=
  BitVec.ofNat 64 (ticks / 64) <<< shift ||| 1#64 <<< (shift + 15)

/-- The durations of profile load, gain table, PLL and the rest. -/
structure Retune2Stages where
  profile : ℕ
  gain : ℕ
  pll : ℕ
  other : ℕ

def Retune2Stages.Fits (s : Retune2Stages) : Prop :=
  s.profile / 64 ≤ 0x7fff ∧ s.gain / 64 ≤ 0x7fff ∧ s.pll / 64 ≤ 0x7fff ∧ s.other / 64 ≤ 0x7fff

instance (s : Retune2Stages) : Decidable s.Fits := by
  unfold Retune2Stages.Fits
  infer_instance

/-- `worker_timing_word` -/
def Retune2Stages.word (s : Retune2Stages) : BitVec 64 :=
  retune2TimingField 0 s.profile ||| retune2TimingField 16 s.gain |||
    retune2TimingField 32 s.pll ||| retune2TimingField 48 s.other

/-- The stage durations of a tokened NOW request, if they were all taken, are in
order and fit. -/
def Retune2Success.stages (p : Retune2Success) : Option Retune2Stages :=
  match p.workerEnd with
  | none => none
  | some workerEnd =>
      let t := p.timing
      if p.entry.immediate ∧ p.entry.requestToken ≠ 0 ∧ t.workerStartValid ∧
          t.workerStartTimestamp ≤ workerEnd ∧
          (workerEnd - t.workerStartTimestamp).toNat ≤ 2 ^ 32 - 1 ∧ t.profileEndValid ∧
          t.gainStartValid ∧ t.gainEndValid ∧ t.pllStartValid then
        let totalTicks := (workerEnd - t.workerStartTimestamp).toNat
        let startLow := t.workerStartTimestamp.setWidth 32
        let profileEnd := (t.profileEndTimestamp - startLow).toNat
        let gainStart := (t.gainStartTimestamp - startLow).toNat
        let gainEnd := (t.gainEndTimestamp - startLow).toNat
        let pllStart := (t.pllStartTimestamp - startLow).toNat
        if profileEnd ≤ gainStart ∧ gainStart ≤ gainEnd ∧ gainEnd ≤ pllStart ∧
            pllStart ≤ totalTicks then
          let profile := profileEnd
          let gain := gainEnd - gainStart
          let pll := totalTicks - pllStart
          if profile + gain + pll ≤ totalTicks then
            let stages : Retune2Stages := ⟨profile, gain, pll, totalTicks - profile - gain - pll⟩
            if stages.Fits then some stages else none
          else none
        else none
      else none

/-- `worker_timing_word`, zero without durations. -/
def Retune2Success.workerTimingWord (p : Retune2Success) : BitVec 64 :=
  p.stages.elim 0 Retune2Stages.word

def Retune2Success.workerGainDetailWord (p : Retune2Success) : BitVec 64 :=
  match p.stages with
  | none => 0
  | some stages =>
      let t := p.timing
      let gap := stages.gain - t.gainLoaderActiveTicks.toNat
      if t.gainLoaderTimingValid ∧ t.gainLoaderSpiTimingValid ∧
          t.gainLoaderActiveTicks.toNat ≤ stages.gain ∧ gap ≤ 0xfffff ∧
          t.gainLoaderSpiUs.toNat ≤ 0xfffff ∧ t.gainLoaderArbiterUs.toNat ≤ 0xfffff then
        BitVec.ofNat 64 gap ||| 1#64 <<< 60 ||| t.gainLoaderSpiUs.setWidth 64 <<< 20 |||
          1#64 <<< 61 ||| t.gainLoaderArbiterUs.setWidth 64 <<< 40 ||| 1#64 <<< 62
      else 0

/-! ## The records -/

structure Retune2Completion where
  sequence : BitVec 32 := 0
  frequencyHz : BitVec 64 := 0
  scheduledTimestamp : BitVec 64 := 0
  sessionGeneration : BitVec 32 := 0
  niosProfile : BitVec 16 := 0
  requestToken : BitVec 16 := 0
  workerTimingWord : BitVec 64 := 0
  execution : Retune2Execution := {}

structure Retune2FailureCompletion where
  sequence : BitVec 32 := 0
  scheduledTimestamp : BitVec 64 := 0
  niosProfile : BitVec 16 := 0
  failureStage : BitVec 8 := 0
  sessionGeneration : BitVec 32 := 0
  requestToken : BitVec 16 := 0

/-- `rx_retune2_gain_detail` and `tx_retune2_gain_detail` -/
structure Retune2GainDetail where
  sequence : BitVec 32 := 0
  word : BitVec 64 := 0

structure Retune2Records where
  successCount : BladerfModule → BitVec 32 := fun _ => 0
  failureCount : BladerfModule → BitVec 32 := fun _ => 0
  completions : BladerfModule → ℕ → Retune2Completion := fun _ _ => {}
  failureCompletions : BladerfModule → ℕ → Retune2FailureCompletion := fun _ _ => {}
  gainDetail : BladerfModule → Retune2GainDetail := fun _ => {}

/-- `(sequence - 1u) & (RETUNE2_QUEUE_MAX - 1u)` -/
def retune2Slot (sequence : BitVec 32) : ℕ := ((sequence - 1) &&& 0xf).toNat

/-- `retune2_completion_begin_write` -/
def Retune2Completion.beginWrite (c : Retune2Completion) (sequence : BitVec 32) :
    Retune2Completion :=
  { c with sequence := ~~~sequence }

/-- `retune2_completion_publish` -/
def Retune2Completion.publish (_c : Retune2Completion) (sequence : BitVec 32)
    (frequencyHz scheduledTimestamp : BitVec 64) (niosProfile : BitVec 16)
    (sessionGeneration : BitVec 32) (requestToken : BitVec 16) (workerTimingWord : BitVec 64)
    (execution : Option Retune2Execution) : Retune2Completion :=
  { sequence := sequence
    frequencyHz := frequencyHz
    scheduledTimestamp := scheduledTimestamp
    niosProfile := niosProfile
    sessionGeneration := sessionGeneration
    requestToken := requestToken
    workerTimingWord := workerTimingWord
    execution := execution.getD {} }

namespace Retune2Records

def publishRetune2Success (st : Retune2Records) (module : BladerfModule) (p : Retune2Success) :
    Retune2Records :=
  let sequence := st.successCount module + 1
  let slot := retune2Slot sequence
  let completion := (st.completions module slot).beginWrite sequence
  { st with
    gainDetail := Function.update st.gainDetail module ⟨sequence, p.workerGainDetailWord⟩
    completions := Function.update st.completions module
      (Function.update (st.completions module) slot
        (completion.publish sequence p.readbackFrequencyHz p.entry.timestamp p.entry.niosProfile
          p.entry.sessionGeneration p.entry.requestToken p.workerTimingWord
          (some p.entry.executed)))
    successCount := Function.update st.successCount module sequence }

def recordRetune2Failure (st : Retune2Records) (module : BladerfModule) (p : Retune2Failure) :
    Retune2Records :=
  let sequence := st.failureCount module + 1
  let slot := retune2Slot sequence
  { st with
    failureCompletions := Function.update st.failureCompletions module
      (Function.update (st.failureCompletions module) slot
        { scheduledTimestamp := p.entry.elim 0 (·.timestamp)
          niosProfile := p.entry.elim 0xffff (·.niosProfile)
          failureStage := p.failureStage
          sessionGeneration := p.entry.elim 0 (·.sessionGeneration)
          requestToken := p.entry.elim 0 (·.requestToken)
          sequence := sequence })
    failureCount := Function.update st.failureCount module sequence }

end Retune2Records

/-! ## `pkt_retune2_record_read` -/

/-- `NIOS_PKT_16x64_RETUNE2_RECORD_WORD_*` -/
inductive Retune2RecordWord where
  | identity
  | execution
  | counts
  | synth
  | timing
  | gainDetail
deriving DecidableEq

def Retune2RecordWord.code (w : Retune2RecordWord) : BitVec 8 := BitVec.ofNat 8 w.ctorIdx

/-- `NIOS_PKT_16x64_RETUNE2_RECORD_ERR_*` -/
inductive Retune2RecordError where
  | invalid
  | sequence

def niosPkt16x64Retune2RecordAddr (failure tx : Bool) (word : BitVec 8) : BitVec 16 :=
  (if failure then 0x8 else 0) ||| (if tx then 0x4 else 0) ||| (word.setWidth 16 &&& 0x3) |||
    (word.setWidth 16 &&& 0x4) <<< 2

def niosPkt16x64Retune2RecordAddrUnpack (addr : BitVec 16) :
    Option (Bool × Bool × Retune2RecordWord) :=
  let decodedWord := (addr &&& 0x3) ||| (addr &&& 0x10) >>> 2
  if addr &&& 0xffe0 ≠ 0 then none
  else
    (match decodedWord.toNat with
      | 0 => some Retune2RecordWord.identity
      | 1 => some .execution
      | 2 => some .counts
      | 3 => some .synth
      | 4 => some .timing
      | 5 => some .gainDetail
      | _ => none).map fun word => (addr &&& 0x8 != 0, addr &&& 0x4 != 0, word)

def niosPkt16x64Retune2RecordIdentity (token : BitVec 16)
    (niosProfile flags sessionLow failureStage : BitVec 8) : BitVec 64 :=
  token.setWidth 64 ||| niosProfile.setWidth 64 <<< 16 ||| flags.setWidth 64 <<< 24 |||
    sessionLow.setWidth 64 <<< 32 ||| failureStage.setWidth 64 <<< 40

namespace Retune2Completion

/-- The execution is not stamped before its schedule, and not too long after. -/
def DeltaFits (c : Retune2Completion) : Prop :=
  ¬(c.execution.timestamp < c.scheduledTimestamp ∨
    2 ^ 32 - 1 < (c.execution.timestamp - c.scheduledTimestamp).toNat)

instance (c : Retune2Completion) : Decidable c.DeltaFits := by
  unfold DeltaFits
  infer_instance

/-- `flags` of the identity: without `TS_VALID` where the difference does not
fit. -/
def flags (c : Retune2Completion) : BitVec 8 :=
  if c.execution.flags &&& 0x01 ≠ 0 ∧ ¬c.DeltaFits then c.execution.flags &&& ~~~0x01
  else c.execution.flags

def delta (c : Retune2Completion) : BitVec 64 :=
  if c.execution.flags &&& 0x01 ≠ 0 ∧ c.DeltaFits then
    c.execution.timestamp - c.scheduledTimestamp
  else 0

def word (c : Retune2Completion) (detail : Retune2GainDetail) (sequence : BitVec 32) :
    Retune2RecordWord → BitVec 64
  | .identity =>
      niosPkt16x64Retune2RecordIdentity c.requestToken (c.niosProfile.setWidth 8) c.flags
        (c.sessionGeneration.setWidth 8) 0
  | .synth =>
      -- the eight bytes from `flags` on, in the byte order of the NIOS
      BitVec.ofNat 64 (Lib.leNat (c.execution.flags :: List.ofFn c.execution.synth))
  | .timing => c.workerTimingWord
  | .gainDetail => if detail.sequence = sequence then detail.word else 0
  | .execution | .counts =>
      let readback2hz := c.frequencyHz >>> 1
      c.delta ||| (if 2 ^ 32 - 1 < readback2hz.toNat then 0 else readback2hz) <<< 32

end Retune2Completion

def Retune2FailureCompletion.identity (c : Retune2FailureCompletion) : BitVec 64 :=
  niosPkt16x64Retune2RecordIdentity c.requestToken (c.niosProfile.setWidth 8) 0
    (c.sessionGeneration.setWidth 8) c.failureStage

def BladerfModule.ofTx (tx : Bool) : BladerfModule := if tx then .tx else .rx

/-- `pkt_retune2_record_read`.  The second look at the sequence, after the word
was copied, is the first one again. -/
def Retune2Records.pktRetune2RecordRead (st : Retune2Records) (addr : BitVec 16)
    (request : BitVec 64) : Except Retune2RecordError (BitVec 64) :=
  match niosPkt16x64Retune2RecordAddrUnpack addr with
  | none => .error .invalid
  | some (failure, tx, word) =>
      let module := BladerfModule.ofTx tx
      if word = .counts then
        if failure ∨ request ≠ 0 then .error .invalid
        else
          .ok ((st.successCount module).setWidth 64 |||
            (st.failureCount module).setWidth 64 <<< 32)
      else if request = 0 ∨ request >>> 32 ≠ 0 then .error .invalid
      else
        let sequence := request.setWidth 32
        if failure then
          let record := st.failureCompletions module (retune2Slot sequence)
          if word ≠ .identity then .error .invalid
          else if record.sequence ≠ sequence then .error .sequence
          else .ok record.identity
        else
          let record := st.completions module (retune2Slot sequence)
          if record.sequence ≠ sequence then .error .sequence
          else .ok (record.word (st.gainDetail module) sequence word)

/-! ## The host's decoding -/

/-- The codes `nios_retune2_record_read` returns: `BLADERF_ERR_WOULD_BLOCK`,
`BLADERF_ERR_INVAL` and `BLADERF_ERR_UNEXPECTED`. -/
inductive NiosRecordError where
  | wouldBlock
  | inval
  | unexpected

/-- `nios_retune2_record_access`, on what the firmware returns. -/
def niosRetune2RecordAccess (st : Retune2Records) (addr : BitVec 16) (request : BitVec 64) :
    Except NiosRecordError (BitVec 64) :=
  match st.pktRetune2RecordRead addr request with
  | .ok data => .ok data
  | .error .sequence => .error .wouldBlock
  | .error .invalid => .error .inval

def niosRetune2KnownFlags : BitVec 64 := 0x3f

/-- The last part of `nios_retune2_record_read`: the words as a record. -/
def niosRetune2RecordDecode (identity execution : BitVec 64) (synth : Option (BitVec 64)) :
    Except NiosRecordError NiosRetune2Record :=
  if identity >>> 48 ≠ 0 ∨ identity >>> 24 &&& 0xff &&& ~~~niosRetune2KnownFlags ≠ 0 ∨
      synth.getD 0 &&& 0xff &&& ~~~niosRetune2KnownFlags ≠ 0 then .error .unexpected
  else
    .ok
      { requestToken := (identity.setWidth 16).toNat
        niosProfile := ((identity >>> 16).setWidth 8).toNat
        executionFlags := (identity >>> 24).setWidth 8
        sessionGenerationLow := ((identity >>> 32).setWidth 8).toNat
        failureStage := ((identity >>> 40).setWidth 8).toNat
        executedDelta := (execution.setWidth 32).toNat
        readbackFrequencyHz := ((execution >>> 32) <<< 1).toNat
        synth := synth.map fun (s : BitVec 64) =>
          (List.range 7).map fun i => (s >>> (8 * (i + 1))).setWidth 8 }

def niosRetune2RecordRead (st : Retune2Records) (module : BladerfModule) (failure : Bool)
    (sequence : BitVec 32) (readSynth : Bool) : Except NiosRecordError NiosRetune2Record := do
  let tx := module == .tx
  let request := sequence.setWidth 64
  if sequence = 0 then throw .inval
  let access (failure : Bool) (word : Retune2RecordWord) :=
    niosRetune2RecordAccess st (niosPkt16x64Retune2RecordAddr failure tx word.code) request
  let identity ← access failure .identity
  let execution ← if failure then pure 0 else access false .execution
  let synth ← if failure ∨ !readSynth then pure none else some <$> access false .synth
  niosRetune2RecordDecode identity execution synth

/-- A stage duration of the TIMING word, as
`nios_retune2_completion_device_timing_read` decodes it. -/
def niosRetune2TimingDecode (shift : ℕ) (data : BitVec 64) : Option ℕ :=
  if data &&& 1#64 <<< (shift + 15) ≠ 0 then some ((data >>> shift &&& 0x7fff).toNat * 64)
  else none

def niosRetune2CountsDecode (data : BitVec 64) : BitVec 32 × BitVec 32 :=
  (data.setWidth 32, (data >>> 32).setWidth 32)

/-! ## Runs of publications -/

inductive Retune2Publication where
  | success (module : BladerfModule) (p : Retune2Success)
  | failure (module : BladerfModule) (p : Retune2Failure)

def Retune2Success.record (p : Retune2Success) (sequence : BitVec 32) : Retune2Completion where
  sequence := sequence
  frequencyHz := p.readbackFrequencyHz
  scheduledTimestamp := p.entry.timestamp
  sessionGeneration := p.entry.sessionGeneration
  niosProfile := p.entry.niosProfile
  requestToken := p.entry.requestToken
  workerTimingWord := p.workerTimingWord
  execution := p.entry.executed

def Retune2Failure.record (p : Retune2Failure) (sequence : BitVec 32) :
    Retune2FailureCompletion where
  sequence := sequence
  scheduledTimestamp := p.entry.elim 0 (·.timestamp)
  niosProfile := p.entry.elim 0xffff (·.niosProfile)
  failureStage := p.failureStage
  sessionGeneration := p.entry.elim 0 (·.sessionGeneration)
  requestToken := p.entry.elim 0 (·.requestToken)

namespace Retune2Records

def step (st : Retune2Records) : Retune2Publication → Retune2Records
  | .success module p => st.publishRetune2Success module p
  | .failure module p => st.recordRetune2Failure module p

def after (pubs : List Retune2Publication) : Retune2Records := pubs.foldl step {}

theorem after_concat (pubs : List Retune2Publication) (p : Retune2Publication) :
    after (pubs ++ [p]) = (after pubs).step p := by
  rw [after, List.foldl_append]
  rfl

def successes (module : BladerfModule) (pubs : List Retune2Publication) : List Retune2Success :=
  pubs.filterMap fun
    | .success m p => if m = module then some p else none
    | .failure .. => none

def failures (module : BladerfModule) (pubs : List Retune2Publication) : List Retune2Failure :=
  pubs.filterMap fun
    | .success .. => none
    | .failure m p => if m = module then some p else none

def sequenceOf (i : ℕ) : BitVec 32 := BitVec.ofNat 32 (i + 1)

theorem ofNat_add_one (n : ℕ) : BitVec.ofNat 32 n + 1 = sequenceOf n := by
  rw [sequenceOf, BitVec.ofNat_add]
  rfl

theorem retune2Slot_sequenceOf (i : ℕ) : retune2Slot (sequenceOf i) = i % 16 := by
  have hsub : sequenceOf i - 1 = BitVec.ofNat 32 i := by
    rw [← ofNat_add_one, BitVec.add_sub_cancel]
  have hmask : (15 : BitVec 32).toNat = 2 ^ 4 - 1 := rfl
  rw [retune2Slot, hsub, BitVec.toNat_and, BitVec.toNat_ofNat, hmask,
    Nat.and_two_pow_sub_one_eq_mod]
  exact Nat.mod_mod_of_dvd i (by decide)

theorem retune2Slot_lt (s : BitVec 32) : retune2Slot s < 16 := by
  have hmask : (15 : BitVec 32).toNat = 2 ^ 4 - 1 := rfl
  rw [retune2Slot, BitVec.toNat_and, hmask, Nat.and_two_pow_sub_one_eq_mod]
  exact Nat.mod_lt _ (by decide)

def ringOf {α β : Type} (init : β) (record : α → BitVec 32 → β) (l : List α) : ℕ → β :=
  Lib.laps 16 (fun _ => init) (l.mapIdx fun i p => record p (sequenceOf i))

theorem ringOf_concat {α β : Type} (init : β) (record : α → BitVec 32 → β) (l : List α) (p : α) :
    ringOf init record (l ++ [p]) =
      Function.update (ringOf init record l) (retune2Slot (sequenceOf l.length))
        (record p (sequenceOf l.length)) := by
  rw [ringOf, List.mapIdx_concat, Lib.laps_concat, List.length_mapIdx, retune2Slot_sequenceOf]
  rfl

structure Holds (st : Retune2Records) (pubs : List Retune2Publication) : Prop where
  successCount : ∀ m, st.successCount m = BitVec.ofNat 32 (successes m pubs).length
  failureCount : ∀ m, st.failureCount m = BitVec.ofNat 32 (failures m pubs).length
  completions : ∀ m, st.completions m = ringOf {} Retune2Success.record (successes m pubs)
  failureCompletions : ∀ m,
    st.failureCompletions m = ringOf {} Retune2Failure.record (failures m pubs)

variable {st : Retune2Records} {pubs : List Retune2Publication}

theorem published_next {α β : Type} {init : β} {record : α → BitVec 32 → β}
    {count : BladerfModule → BitVec 32} {ring : BladerfModule → ℕ → β}
    {l : BladerfModule → List α} (module : BladerfModule) (p : α) (l' : BladerfModule → List α)
    (hcount : ∀ m, count m = BitVec.ofNat 32 (l m).length)
    (hring : ∀ m, ring m = ringOf init record (l m))
    (hl : ∀ m, l' m = if m = module then l module ++ [p] else l m) :
    (∀ m, Function.update count module (count module + 1) m = BitVec.ofNat 32 (l' m).length) ∧
      ∀ m, Function.update ring module (Function.update (ring module)
        (retune2Slot (count module + 1)) (record p (count module + 1))) m =
          ringOf init record (l' m) := by
  have hsequence : count module + 1 = sequenceOf (l module).length := by
    rw [hcount, ofNat_add_one]
  constructor
  · intro m
    rw [hl m, Function.update_apply]
    split
    · rw [List.length_append, hsequence]
      rfl
    · exact hcount m
  · intro m
    rw [hl m, Function.update_apply]
    split
    · rw [ringOf_concat, hring, hsequence]
    · exact hring m

theorem Holds.success (h : Holds st pubs) (module : BladerfModule) (p : Retune2Success) :
    Holds (st.publishRetune2Success module p) (pubs ++ [Retune2Publication.success module p]) := by
  have hfailures (m : BladerfModule) :
      failures m (pubs ++ [Retune2Publication.success module p]) = failures m pubs := by simp [failures]
  obtain ⟨hcount, hring⟩ := published_next module p
    (fun m => successes m (pubs ++ [Retune2Publication.success module p])) h.successCount h.completions
    fun m => by by_cases hm : m = module <;> simp [successes, hm, eq_comm]
  exact ⟨hcount, fun m => (h.failureCount m).trans (by rw [hfailures]), hring,
    fun m => (h.failureCompletions m).trans (by rw [hfailures])⟩

theorem Holds.failure (h : Holds st pubs) (module : BladerfModule) (p : Retune2Failure) :
    Holds (st.recordRetune2Failure module p) (pubs ++ [Retune2Publication.failure module p]) := by
  have hsuccesses (m : BladerfModule) :
      successes m (pubs ++ [Retune2Publication.failure module p]) = successes m pubs := by simp [successes]
  obtain ⟨hcount, hring⟩ := published_next module p
    (fun m => failures m (pubs ++ [Retune2Publication.failure module p])) h.failureCount h.failureCompletions
    fun m => by by_cases hm : m = module <;> simp [failures, hm, eq_comm]
  exact ⟨fun m => (h.successCount m).trans (by rw [hsuccesses]), hcount,
    fun m => (h.completions m).trans (by rw [hsuccesses]), hring⟩

theorem holds_after (pubs : List Retune2Publication) : Holds (after pubs) pubs := by
  induction pubs using List.reverseRecOn with
  | nil => exact ⟨fun _ => rfl, fun _ => rfl, fun _ => rfl, fun _ => rfl⟩
  | append_singleton pubs p ih =>
      rw [after_concat]
      cases p with
      | success module p => exact ih.success module p
      | failure module p => exact ih.failure module p

/-! ## Which records can be read -/

/-- The publication with an index is one of the last `RETUNE2_QUEUE_MAX`, and has
the sequence. -/
def PublishedAt {α : Type} (l : List α) (s : BitVec 32) (i : ℕ) (p : α) : Prop :=
  l[i]? = some p ∧ l.length ≤ i + 16 ∧ s = sequenceOf i

theorem PublishedAt.ring {α β : Type} {init : β} {record : α → BitVec 32 → β} {l : List α}
    {s : BitVec 32} {i : ℕ} {p : α} (h : PublishedAt l s i p) :
    ringOf init record l (retune2Slot s) = record p s := by
  obtain ⟨hget, hnew, rfl⟩ := h
  rw [retune2Slot_sequenceOf]
  refine Lib.laps_of_getElem? ?_ (by rw [List.length_mapIdx]; exact hnew)
  rw [List.getElem?_mapIdx, hget]
  rfl

theorem ring_sequence_iff {α β : Type} {init : β} {record : α → BitVec 32 → β}
    (sequence : β → BitVec 32) (hinit : sequence init = 0)
    (hrecord : ∀ p s, sequence (record p s) = s) {l : List α} {s : BitVec 32} (hs : s ≠ 0) :
    sequence (ringOf init record l (retune2Slot s)) = s ↔ ∃ i p, PublishedAt l s i p := by
  constructor
  · intro hslot
    rcases Lib.laps_cases (fun _ => init) (l.mapIdx fun i p => record p (sequenceOf i))
      (retune2Slot_lt s) with ⟨i, r, hget, hnew, -, hr⟩ | ⟨-, hr⟩
    · rw [List.getElem?_mapIdx] at hget
      obtain ⟨p, hp, rfl⟩ := Option.map_eq_some_iff.mp hget
      rw [ringOf, hr, hrecord] at hslot
      rw [List.length_mapIdx] at hnew
      exact ⟨i, p, hp, hnew, hslot.symm⟩
    · rw [ringOf, hr, hinit] at hslot
      exact absurd hslot.symm hs
  · rintro ⟨i, p, h⟩
    rw [h.ring, hrecord]

end Retune2Records

/-! ## The words are read back -/

section

variable (token : BitVec 16) (niosProfile flags sessionLow failureStage : BitVec 8)

theorem identity_fields :
    (niosPkt16x64Retune2RecordIdentity token niosProfile flags sessionLow
        failureStage).extractLsb' 0 16 = token ∧
      (niosPkt16x64Retune2RecordIdentity token niosProfile flags sessionLow
        failureStage).extractLsb' 16 8 = niosProfile ∧
      (niosPkt16x64Retune2RecordIdentity token niosProfile flags sessionLow
        failureStage).extractLsb' 24 8 = flags ∧
      (niosPkt16x64Retune2RecordIdentity token niosProfile flags sessionLow
        failureStage).extractLsb' 32 8 = sessionLow ∧
      (niosPkt16x64Retune2RecordIdentity token niosProfile flags sessionLow
        failureStage).extractLsb' 40 8 = failureStage ∧
      (niosPkt16x64Retune2RecordIdentity token niosProfile flags sessionLow
        failureStage).extractLsb' 48 16 = 0 := by
  have hshift : token.setWidth 64 = token.setWidth 64 <<< 0 := (BitVec.shiftLeft_zero _).symm
  rw [niosPkt16x64Retune2RecordIdentity, hshift]
  refine ⟨?_, ?_, ?_, ?_, ?_, ?_⟩ <;>
    simp (disch := omega) only [BitVec.extractLsb'_or, Lib.extractLsb'_setWidth_shiftLeft,
      Lib.extractLsb'_setWidth_shiftLeft_of_disjoint] <;> simp

end

theorem halves_fields (low high : BitVec 32) :
    (low.setWidth 64 ||| high.setWidth 64 <<< 32).setWidth 32 = low ∧
      (low.setWidth 64 ||| high.setWidth 64 <<< 32) >>> 32 = high.setWidth 64 := by
  constructor
  · ext i hi
    simp
  · ext i hi
    rw [← BitVec.getLsbD_eq_getElem, ← BitVec.getLsbD_eq_getElem, BitVec.getLsbD_ushiftRight,
      BitVec.getLsbD_or, BitVec.getLsbD_setWidth, BitVec.getLsbD_shiftLeft,
      BitVec.getLsbD_of_ge low _ (by omega), BitVec.getLsbD_setWidth, BitVec.getLsbD_setWidth]
    by_cases hlt : i < 32
    · simp [hi, show 32 + i < 64 by omega]
    · simp [BitVec.getLsbD_of_ge high i (by omega)]

theorem synth_byte (flags : BitVec 8) (synth : Fin 7 → BitVec 8) (i : ℕ) (hi : i < 8) :
    (BitVec.ofNat 64 (Lib.leNat (flags :: List.ofFn synth)) >>> (8 * i)).setWidth 8 =
      (flags :: List.ofFn synth).getD i 0 := by
  have hlen : i < (flags :: List.ofFn synth).length := by simpa using hi
  have hlt : Lib.leNat (flags :: List.ofFn synth) < 2 ^ 64 := by
    have h := Lib.leNat_lt (flags :: List.ofFn synth)
    rwa [List.length_cons, List.length_ofFn] at h
  rw [List.getD_eq_getElem?_getD, List.getElem?_eq_getElem hlen, Option.getD_some,
    ← Lib.ofNat_leNat_div hlen]
  apply BitVec.eq_of_toNat_eq
  rw [BitVec.toNat_setWidth, BitVec.toNat_ushiftRight, BitVec.toNat_ofNat, BitVec.toNat_ofNat,
    Nat.mod_eq_of_lt hlt, Nat.shiftRight_eq_div_pow, Nat.pow_mul]

theorem retune2TimingField_eq {ticks : ℕ} (shift : ℕ) (h : ticks / 64 ≤ 0x7fff) :
    retune2TimingField shift ticks =
      (BitVec.ofNat 16 (2 ^ 15 + ticks / 64)).setWidth 64 <<< shift := by
  have hvalue : BitVec.ofNat 64 (ticks / 64) ||| 1#64 <<< 15 =
      (BitVec.ofNat 16 (2 ^ 15 + ticks / 64)).setWidth 64 := by
    apply BitVec.eq_of_toNat_eq
    have hsmall : ticks / 64 < 2 ^ 15 := by omega
    have hone : (1#64 <<< 15).toNat = 2 ^ 15 := rfl
    have hor := Nat.two_pow_add_eq_or_of_lt hsmall 1
    rw [Nat.mul_one] at hor
    rw [BitVec.toNat_or, hone, BitVec.toNat_ofNat, BitVec.toNat_setWidth, BitVec.toNat_ofNat,
      Nat.mod_eq_of_lt (by omega), Nat.mod_eq_of_lt (by omega), Nat.mod_eq_of_lt (by omega),
      Nat.or_comm, hor]
  rw [← hvalue, BitVec.shiftLeft_or_distrib, retune2TimingField, ← BitVec.shiftLeft_add,
    Nat.add_comm 15 shift]

theorem niosRetune2TimingDecode_of_field {data : BitVec 64} {shift q : ℕ} (hs : shift + 16 ≤ 64)
    (hq : q ≤ 0x7fff) (h : data.extractLsb' shift 16 = BitVec.ofNat 16 (2 ^ 15 + q)) :
    niosRetune2TimingDecode shift data = some (q * 64) := by
  have hnat : data.toNat / 2 ^ shift % 2 ^ 16 = 2 ^ 15 + q := by
    have hfield := congrArg BitVec.toNat h
    rwa [BitVec.extractLsb'_toNat, BitVec.toNat_ofNat, Nat.shiftRight_eq_div_pow,
      Nat.mod_eq_of_lt (show 2 ^ 15 + q < 2 ^ 16 by omega)] at hfield
  have hbit : data.getLsbD (shift + 15) = true := by
    have hlast : (data.extractLsb' shift 16).getLsbD 15 = true := by
      rw [h, BitVec.getLsbD, BitVec.toNat_ofNat, Nat.mod_eq_of_lt (by omega),
        Nat.testBit_eq_decide_div_mod_eq]
      have hdiv : (2 ^ 15 + q) / 2 ^ 15 = 1 := by omega
      rw [hdiv]
      rfl
    rw [BitVec.getLsbD_extractLsb'] at hlast
    simpa using hlast
  have hvalid : data &&& 1#64 <<< (shift + 15) ≠ 0 := by
    intro hzero
    have hget := congrArg (fun x : BitVec 64 => x.getLsbD (shift + 15)) hzero
    simp only [BitVec.getLsbD_and, hbit, Bool.true_and] at hget
    rw [BitVec.getLsbD_shiftLeft] at hget
    simp [show shift + 15 < 64 by omega] at hget
  have hmask : (0x7fff : BitVec 64).toNat = 2 ^ 15 - 1 := rfl
  rw [niosRetune2TimingDecode, if_pos hvalid, BitVec.toNat_and, hmask,
    Nat.and_two_pow_sub_one_eq_mod, BitVec.toNat_ushiftRight, Nat.shiftRight_eq_div_pow]
  congr 2
  omega

theorem Retune2Success.fits_of_stages {p : Retune2Success} {s : Retune2Stages}
    (h : p.stages = some s) : s.Fits := by
  rw [stages] at h
  split at h
  · cases h
  · simp only at h
    split_ifs at h with h1 h2 h3 h4
    exact Option.some.inj h ▸ h4

theorem Retune2Success.timing_decode (p : Retune2Success) :
    niosRetune2TimingDecode 0 p.workerTimingWord = p.stages.map (·.profile / 64 * 64) ∧
      niosRetune2TimingDecode 16 p.workerTimingWord = p.stages.map (·.gain / 64 * 64) ∧
      niosRetune2TimingDecode 32 p.workerTimingWord = p.stages.map (·.pll / 64 * 64) ∧
      niosRetune2TimingDecode 48 p.workerTimingWord = p.stages.map (·.other / 64 * 64) := by
  rw [workerTimingWord]
  cases hstages : p.stages with
  | none => exact ⟨rfl, rfl, rfl, rfl⟩
  | some s =>
      obtain ⟨hprofile, hgain, hpll, hother⟩ := fits_of_stages hstages
      rw [Option.elim_some, Retune2Stages.word, retune2TimingField_eq _ hprofile,
        retune2TimingField_eq _ hgain, retune2TimingField_eq _ hpll,
        retune2TimingField_eq _ hother]
      refine ⟨niosRetune2TimingDecode_of_field (by decide) hprofile ?_,
        niosRetune2TimingDecode_of_field (by decide) hgain ?_,
        niosRetune2TimingDecode_of_field (by decide) hpll ?_,
        niosRetune2TimingDecode_of_field (by decide) hother ?_⟩ <;>
      simp (disch := omega) only [BitVec.extractLsb'_or, Lib.extractLsb'_setWidth_shiftLeft,
        Lib.extractLsb'_setWidth_shiftLeft_of_disjoint] <;> simp

theorem byte_of_shift (x : BitVec 64) (s : ℕ) :
    x >>> s &&& 0xff = (x.extractLsb' s 8).setWidth 64 := by
  have hmask : ∀ i, (0xff : BitVec 64).getLsbD i = decide (i < 8) := by
    intro i
    by_cases hi : i < 64
    · revert i
      decide
    · rw [BitVec.getLsbD_of_ge _ _ (by omega)]
      exact (decide_eq_false (by omega)).symm
  apply BitVec.eq_of_getLsbD_eq
  intro i hi
  rw [BitVec.getLsbD_and, hmask, BitVec.getLsbD_ushiftRight, BitVec.getLsbD_setWidth,
    BitVec.getLsbD_extractLsb']
  simp [hi, Bool.and_comm]

theorem known_flags (flags : BitVec 8) (h : flags &&& 0xc0 = 0) :
    flags.setWidth 64 &&& ~~~niosRetune2KnownFlags = 0 ∧ (flags &&& ~~~0x01) &&& 0xc0 = 0 := by
  revert flags
  decide

theorem niosRetune2RecordDecode_identity (token : BitVec 16)
    (niosProfile flags sessionLow failureStage : BitVec 8) (hflags : flags &&& 0xc0 = 0)
    (execution : BitVec 64) (synth : Option (BitVec 64))
    (hsynth : synth.getD 0 &&& 0xff &&& ~~~niosRetune2KnownFlags = 0) :
    niosRetune2RecordDecode
        (niosPkt16x64Retune2RecordIdentity token niosProfile flags sessionLow failureStage)
        execution synth =
      .ok
        { requestToken := token.toNat
          niosProfile := niosProfile.toNat
          executionFlags := flags
          sessionGenerationLow := sessionLow.toNat
          failureStage := failureStage.toNat
          executedDelta := (execution.setWidth 32).toNat
          readbackFrequencyHz := ((execution >>> 32) <<< 1).toNat
          synth := synth.map fun (s : BitVec 64) =>
            (List.range 7).map fun i => (s >>> (8 * (i + 1))).setWidth 8 } := by
  obtain ⟨h0, h1, h2, h3, h4, h5⟩ :=
    identity_fields token niosProfile flags sessionLow failureStage
  have hhigh : niosPkt16x64Retune2RecordIdentity token niosProfile flags sessionLow failureStage
      >>> 48 = 0 := by
    have hext : ∀ x : BitVec 64, x >>> 48 = (x.extractLsb' 48 16).setWidth 64 := by
      intro x
      ext i hi
      simp only [BitVec.getElem_ushiftRight, BitVec.getElem_setWidth, BitVec.getLsbD_extractLsb']
      by_cases hlt : i < 16
      · simp [hlt]
      · simp [hlt, BitVec.getLsbD_of_ge x (48 + i) (by omega)]
    rw [hext, h5]
    rfl
  rw [niosRetune2RecordDecode, if_neg]
  · rw [BitVec.setWidth_ushiftRight_eq_extractLsb, BitVec.setWidth_ushiftRight_eq_extractLsb,
      BitVec.setWidth_ushiftRight_eq_extractLsb, BitVec.setWidth_ushiftRight_eq_extractLsb,
      BitVec.setWidth_eq_extractLsb' (by decide), h0, h1, h2, h3, h4]
  · rw [byte_of_shift, h2]
    rintro (h | h | h)
    · exact h hhigh
    · exact h (known_flags flags hflags).1
    · exact h hsynth

/-- What the host must get for a success: the fields of the publication, the time
difference and its flag where it fits, and the LO readback in steps of 2 Hz. -/
def Retune2Success.hostRecord (p : Retune2Success) (readSynth : Bool) : NiosRetune2Record :=
  let e := p.entry
  let x := e.executed
  let fits : Prop := e.timestamp.toNat ≤ x.timestamp.toNat ∧
    x.timestamp.toNat - e.timestamp.toNat < 2 ^ 32
  { requestToken := e.requestToken.toNat
    niosProfile := e.niosProfile.toNat % 256
    executionFlags := if x.flags &&& 0x01 ≠ 0 ∧ ¬fits then x.flags &&& ~~~0x01 else x.flags
    sessionGenerationLow := e.sessionGeneration.toNat % 256
    failureStage := 0
    executedDelta :=
      if x.flags &&& 0x01 ≠ 0 ∧ fits then x.timestamp.toNat - e.timestamp.toNat else 0
    readbackFrequencyHz :=
      if p.readbackFrequencyHz.toNat / 2 < 2 ^ 32 then p.readbackFrequencyHz.toNat / 2 * 2 else 0
    synth := if readSynth then some (List.ofFn x.synth) else none }

def Retune2Failure.hostRecord (p : Retune2Failure) : NiosRetune2Record :=
  { requestToken := p.entry.elim 0 (·.requestToken.toNat)
    niosProfile := p.entry.elim 0xff (·.niosProfile.toNat % 256)
    executionFlags := 0
    sessionGenerationLow := p.entry.elim 0 (·.sessionGeneration.toNat % 256)
    failureStage := p.failureStage.toNat
    executedDelta := 0
    readbackFrequencyHz := 0
    synth := none }

theorem Retune2Completion.deltaFits_iff {c : Retune2Completion} :
    c.DeltaFits ↔ c.scheduledTimestamp.toNat ≤ c.execution.timestamp.toNat ∧
      c.execution.timestamp.toNat - c.scheduledTimestamp.toNat < 2 ^ 32 := by
  rw [DeltaFits, BitVec.lt_def]
  by_cases hle : c.scheduledTimestamp.toNat ≤ c.execution.timestamp.toNat
  · rw [BitVec.toNat_sub_of_le (BitVec.le_def.mpr hle)]
    omega
  · exact iff_of_false (fun h => h (.inl (by omega))) fun h => hle h.1

theorem Retune2Completion.execution_halves (c : Retune2Completion)
    (detail : Retune2GainDetail) (s : BitVec 32) :
    ((c.word detail s .execution).setWidth 32).toNat =
      (if c.execution.flags &&& 0x01 ≠ 0 ∧ c.DeltaFits then
        c.execution.timestamp.toNat - c.scheduledTimestamp.toNat else 0) ∧
    (((c.word detail s .execution) >>> 32) <<< 1).toNat =
      (if c.frequencyHz.toNat / 2 < 2 ^ 32 then c.frequencyHz.toNat / 2 * 2 else 0) := by
  have hnarrow : ∀ x : BitVec 64, x.toNat < 2 ^ 32 → (x.setWidth 32).setWidth 64 = x := by
    intro x hx
    apply BitVec.eq_of_toNat_eq
    rw [BitVec.toNat_setWidth, BitVec.toNat_setWidth, Nat.mod_eq_of_lt hx,
      Nat.mod_eq_of_lt x.isLt]
  have hdelta : c.delta.toNat =
      if c.execution.flags &&& 0x01 ≠ 0 ∧ c.DeltaFits then
        c.execution.timestamp.toNat - c.scheduledTimestamp.toNat else 0 := by
    rw [delta]
    split
    · rename_i hfits
      exact BitVec.toNat_sub_of_le (BitVec.le_def.mpr (deltaFits_iff.mp hfits.2).1)
    · rfl
  have hdelta_lt : c.delta.toNat < 2 ^ 32 := by
    rw [hdelta]
    split
    · rename_i hfits
      exact (deltaFits_iff.mp hfits.2).2
    · decide
  generalize hr : (if 2 ^ 32 - 1 < (c.frequencyHz >>> 1).toNat then 0
    else c.frequencyHz >>> 1 : BitVec 64) = r
  have hr_nat : r.toNat =
      if c.frequencyHz.toNat / 2 < 2 ^ 32 then c.frequencyHz.toNat / 2 else 0 := by
    have hhalf : (c.frequencyHz >>> 1).toNat = c.frequencyHz.toNat / 2 := by
      rw [BitVec.toNat_ushiftRight, Nat.shiftRight_eq_div_pow, Nat.pow_one]
    rw [← hr, apply_ite BitVec.toNat, hhalf]
    split_ifs <;> first | rfl | omega
  have hr_lt : r.toNat < 2 ^ 32 := by
    rw [hr_nat]
    split_ifs with hlt
    · exact hlt
    · decide
  have hword : c.word detail s .execution =
      (c.delta.setWidth 32).setWidth 64 ||| (r.setWidth 32).setWidth 64 <<< 32 := by
    rw [hnarrow _ hdelta_lt, hnarrow _ hr_lt, ← hr]
    rfl
  obtain ⟨hlow, hhigh⟩ := halves_fields (c.delta.setWidth 32) (r.setWidth 32)
  constructor
  · rw [hword, hlow, BitVec.toNat_setWidth, Nat.mod_eq_of_lt hdelta_lt, hdelta]
  · rw [hword, hhigh, hnarrow _ hr_lt, BitVec.toNat_shiftLeft, Nat.shiftLeft_eq,
      Nat.mod_eq_of_lt (by omega), hr_nat]
    split_ifs <;> rfl

theorem Retune2Success.decode_record (p : Retune2Success) (s : BitVec 32)
    (detail : Retune2GainDetail) (readSynth : Bool) :
    niosRetune2RecordDecode ((p.record s).word detail s .identity)
        ((p.record s).word detail s .execution)
        (if readSynth then some ((p.record s).word detail s .synth) else none) =
      .ok (p.hostRecord readSynth) := by
  have hknown : (p.record s).flags &&& 0xc0 = 0 := by
    rw [Retune2Completion.flags]
    split
    · exact (known_flags _ p.entry.executed.flags_known).2
    · exact p.entry.executed.flags_known
  have hbyte : (p.record s).word detail s .synth &&& 0xff &&& ~~~niosRetune2KnownFlags = 0 := by
    have hfirst := synth_byte p.entry.executed.flags p.entry.executed.synth 0 (by decide)
    rw [BitVec.setWidth_ushiftRight_eq_extractLsb] at hfirst
    have hmask := byte_of_shift ((p.record s).word detail s .synth) 0
    rw [BitVec.ushiftRight_zero] at hmask
    rw [hmask]
    exact (congrArg (fun x => BitVec.setWidth 64 x &&& ~~~niosRetune2KnownFlags) hfirst).trans
      (known_flags _ p.entry.executed.flags_known).1
  have hsynth : (if readSynth then some ((p.record s).word detail s .synth) else none).getD 0
      &&& 0xff &&& ~~~niosRetune2KnownFlags = 0 := by
    cases readSynth
    · simp
    · exact hbyte
  obtain ⟨hdelta, hreadback⟩ := (p.record s).execution_halves detail s
  have hbytes : (List.range 7).map (fun i =>
      (((p.record s).word detail s .synth) >>> (8 * (i + 1))).setWidth 8) =
      List.ofFn p.entry.executed.synth := by
    apply List.ext_getElem
    · simp
    · intro i hi _
      have hlt : i < 7 := by simpa using hi
      rw [List.getElem_map, List.getElem_range, List.getElem_ofFn]
      refine (synth_byte p.entry.executed.flags p.entry.executed.synth (i + 1) (by omega)).trans ?_
      rw [List.getD_cons_succ, List.getD_eq_getElem?_getD, List.getElem?_ofFn, dif_pos hlt,
        Option.getD_some]
  have hidentity : (p.record s).word detail s .identity =
      niosPkt16x64Retune2RecordIdentity p.entry.requestToken (p.entry.niosProfile.setWidth 8)
        (p.record s).flags (p.entry.sessionGeneration.setWidth 8) 0 := rfl
  rw [hidentity, niosRetune2RecordDecode_identity _ _ _ _ _ hknown _ _ hsynth, hdelta, hreadback,
    hostRecord, Retune2Completion.flags]
  simp only [Retune2Completion.deltaFits_iff, BitVec.toNat_setWidth]
  congr 2
  cases readSynth
  · rfl
  · exact congrArg some hbytes

theorem Retune2Failure.decode_record (p : Retune2Failure) (s : BitVec 32) :
    niosRetune2RecordDecode (p.record s).identity 0 none = .ok p.hostRecord := by
  rw [Retune2FailureCompletion.identity,
    niosRetune2RecordDecode_identity _ _ _ _ _ (by decide) _ _ rfl, hostRecord, record]
  cases p.entry <;> simp

/-! ## Reading -/

theorem retune2RecordAddr_unpack (failure tx : Bool) (word : Retune2RecordWord) :
    niosPkt16x64Retune2RecordAddrUnpack (niosPkt16x64Retune2RecordAddr failure tx word.code) =
      some (failure, tx, word) := by
  revert failure tx
  cases word <;> decide

theorem sequence_request {s : BitVec 32} (hs : s ≠ 0) :
    ¬(s.setWidth 64 = 0 ∨ s.setWidth 64 >>> 32 ≠ 0) ∧ (s.setWidth 64).setWidth 32 = s := by
  have hback : (s.setWidth 64).setWidth 32 = s := by
    rw [BitVec.setWidth_setWidth_of_le _ (by decide), BitVec.setWidth_eq]
  refine ⟨?_, hback⟩
  rintro (hzero | hhigh)
  · rw [hzero] at hback
    exact hs hback.symm
  · apply hhigh
    apply BitVec.eq_of_toNat_eq
    rw [BitVec.toNat_ushiftRight, BitVec.toNat_setWidth, Nat.mod_eq_of_lt (by omega),
      Nat.shiftRight_eq_div_pow, Nat.div_eq_of_lt s.isLt]
    rfl

namespace Retune2Records

variable {st : Retune2Records} {pubs : List Retune2Publication} {s : BitVec 32}

theorem read_success (hs : s ≠ 0) (tx : Bool) {word : Retune2RecordWord} (hw : word ≠ .counts) :
    st.pktRetune2RecordRead (niosPkt16x64Retune2RecordAddr false tx word.code) (s.setWidth 64) =
      let record := st.completions (BladerfModule.ofTx tx) (retune2Slot s)
      if record.sequence ≠ s then .error .sequence
      else .ok (record.word (st.gainDetail (BladerfModule.ofTx tx)) s word) := by
  obtain ⟨hrequest, hback⟩ := sequence_request hs
  rw [pktRetune2RecordRead, retune2RecordAddr_unpack]
  simp only
  rw [if_neg hw, if_neg hrequest, if_neg Bool.false_ne_true, hback]

theorem read_failure (hs : s ≠ 0) (tx : Bool) :
    st.pktRetune2RecordRead
        (niosPkt16x64Retune2RecordAddr true tx Retune2RecordWord.identity.code) (s.setWidth 64) =
      let record := st.failureCompletions (BladerfModule.ofTx tx) (retune2Slot s)
      if record.sequence ≠ s then .error .sequence else .ok record.identity := by
  obtain ⟨hrequest, hback⟩ := sequence_request hs
  rw [pktRetune2RecordRead, retune2RecordAddr_unpack]
  simp only
  rw [if_neg (by decide), if_neg hrequest, hback]
  rfl

theorem read_counts (tx : Bool) :
    st.pktRetune2RecordRead
        (niosPkt16x64Retune2RecordAddr false tx Retune2RecordWord.counts.code) 0 =
      .ok ((st.successCount (BladerfModule.ofTx tx)).setWidth 64 |||
        (st.failureCount (BladerfModule.ofTx tx)).setWidth 64 <<< 32) := by
  rw [pktRetune2RecordRead, retune2RecordAddr_unpack]
  rfl

theorem Holds.read_success (h : Holds st pubs) (hs : s ≠ 0) (tx : Bool) {i : ℕ}
    {p : Retune2Success} (hp : PublishedAt (successes (BladerfModule.ofTx tx) pubs) s i p)
    (word : Retune2RecordWord) (hw : word ≠ .counts) :
    st.pktRetune2RecordRead (niosPkt16x64Retune2RecordAddr false tx word.code) (s.setWidth 64) =
      .ok ((p.record s).word (st.gainDetail (BladerfModule.ofTx tx)) s word) := by
  rw [Retune2Records.read_success hs tx hw, h.completions, hp.ring]
  exact if_neg (not_not.mpr rfl)

theorem Holds.read_failure (h : Holds st pubs) (hs : s ≠ 0) (tx : Bool) {i : ℕ}
    {p : Retune2Failure} (hp : PublishedAt (failures (BladerfModule.ofTx tx) pubs) s i p) :
    st.pktRetune2RecordRead
        (niosPkt16x64Retune2RecordAddr true tx Retune2RecordWord.identity.code)
        (s.setWidth 64) = .ok (p.record s).identity := by
  rw [Retune2Records.read_failure hs tx, h.failureCompletions, hp.ring]
  exact if_neg (not_not.mpr rfl)

theorem except_ite_ok {ε α : Type} {c : Prop} [Decidable c] {e : ε} {a : α} :
    (∃ d, (if c then .error e else .ok a : Except ε α) = .ok d) ↔ ¬c := by
  by_cases hc : c
  · rw [if_pos hc]
    exact iff_of_false (fun ⟨_, h⟩ => by cases h) (not_not.mpr hc)
  · rw [if_neg hc]
    exact iff_of_true ⟨a, rfl⟩ hc

/-- A record is read exactly while its sequence is one of the last
`RETUNE2_QUEUE_MAX` of its ring.  Its words are those of the publication, the
host decodes them to its fields, and the counts are the numbers of publications
modulo 2^32. -/
theorem retune2_records (pubs : List Retune2Publication) (tx : Bool) :
    let st := after pubs
    let ps := successes (BladerfModule.ofTx tx) pubs
    let fs := failures (BladerfModule.ofTx tx) pubs
    (∀ s : BitVec 32, s ≠ 0 →
      (∀ word ∈ [Retune2RecordWord.identity, .execution, .synth, .timing],
        ((∃ d, st.pktRetune2RecordRead (niosPkt16x64Retune2RecordAddr false tx word.code)
          (s.setWidth 64) = .ok d) ↔ ∃ i p, PublishedAt ps s i p) ∧
        ∀ i p, PublishedAt ps s i p →
          st.pktRetune2RecordRead (niosPkt16x64Retune2RecordAddr false tx word.code)
            (s.setWidth 64) = .ok ((p.record s).word {} s word)) ∧
      (∀ i p, PublishedAt ps s i p →
        (∀ readSynth, niosRetune2RecordRead st (BladerfModule.ofTx tx) false s readSynth =
          .ok (p.hostRecord readSynth)) ∧
        niosRetune2TimingDecode 0 ((p.record s).word {} s .timing) =
          p.stages.map (·.profile / 64 * 64) ∧
        niosRetune2TimingDecode 16 ((p.record s).word {} s .timing) =
          p.stages.map (·.gain / 64 * 64) ∧
        niosRetune2TimingDecode 32 ((p.record s).word {} s .timing) =
          p.stages.map (·.pll / 64 * 64) ∧
        niosRetune2TimingDecode 48 ((p.record s).word {} s .timing) =
          p.stages.map (·.other / 64 * 64)) ∧
      ((∃ d, st.pktRetune2RecordRead
          (niosPkt16x64Retune2RecordAddr true tx Retune2RecordWord.identity.code)
          (s.setWidth 64) = .ok d) ↔ ∃ i p, PublishedAt fs s i p) ∧
      ∀ i p, PublishedAt fs s i p →
        st.pktRetune2RecordRead
          (niosPkt16x64Retune2RecordAddr true tx Retune2RecordWord.identity.code)
          (s.setWidth 64) = .ok (p.record s).identity ∧
        ∀ readSynth, niosRetune2RecordRead st (BladerfModule.ofTx tx) true s readSynth =
          .ok p.hostRecord) ∧
    ∃ d, st.pktRetune2RecordRead
        (niosPkt16x64Retune2RecordAddr false tx Retune2RecordWord.counts.code) 0 = .ok d ∧
      niosRetune2CountsDecode d = (BitVec.ofNat 32 ps.length, BitVec.ofNat 32 fs.length) := by
  intro st ps fs
  have h : Holds st pubs := holds_after pubs
  refine ⟨fun s hs => ⟨?_, ?_, ?_, ?_⟩, ?_⟩
  · intro word hword
    have hcounts : word ≠ .counts := by
      rintro rfl
      exact absurd hword (by decide)
    have hdetail : ∀ (c : Retune2Completion) (detail : Retune2GainDetail),
        c.word detail s word = c.word {} s word := by
      intro c detail
      cases word with
      | gainDetail => exact absurd hword (by decide)
      | _ => rfl
    constructor
    · rw [Retune2Records.read_success hs tx hcounts]
      simp only [h.completions]
      rw [except_ite_ok, not_not]
      exact ring_sequence_iff Retune2Completion.sequence rfl (fun _ _ => rfl) hs
    · intro i p hp
      rw [h.read_success hs tx hp word hcounts, hdetail]
  · intro i p hp
    refine ⟨fun readSynth => ?_, p.timing_decode⟩
    have hread := h.read_success hs tx hp
    have htx : (BladerfModule.ofTx tx == .tx) = tx := by cases tx <;> rfl
    rw [niosRetune2RecordRead, htx, if_neg hs]
    simp only [niosRetune2RecordAccess, hread _ (by decide : Retune2RecordWord.identity ≠ .counts),
      hread _ (by decide : Retune2RecordWord.execution ≠ .counts),
      hread _ (by decide : Retune2RecordWord.synth ≠ .counts)]
    rw [← p.decode_record s (st.gainDetail (BladerfModule.ofTx tx)) readSynth]
    cases readSynth <;> rfl
  · rw [Retune2Records.read_failure hs tx]
    simp only [h.failureCompletions]
    rw [except_ite_ok, not_not]
    exact ring_sequence_iff Retune2FailureCompletion.sequence rfl
      (fun _ _ => rfl) hs
  · intro i p hp
    refine ⟨h.read_failure hs tx hp, fun readSynth => ?_⟩
    have htx : (BladerfModule.ofTx tx == .tx) = tx := by cases tx <;> rfl
    rw [niosRetune2RecordRead, htx, if_neg hs]
    simp only [niosRetune2RecordAccess, h.read_failure hs tx hp]
    exact p.decode_record s
  · refine ⟨_, read_counts tx, ?_⟩
    obtain ⟨hlow, hhigh⟩ := halves_fields (st.successCount (BladerfModule.ofTx tx))
      (st.failureCount (BladerfModule.ofTx tx))
    rw [niosRetune2CountsDecode, hlow, hhigh, h.successCount, h.failureCount]
    rw [BitVec.setWidth_setWidth_of_le _ (by decide), BitVec.setWidth_eq]

/-- A NOW request whose worker took 640 ticks for the profile, 1280 for the gain
table, 3200 for the PLL and 192 for the rest. -/
def timedRetune : Retune2Success where
  entry :=
    { state := .done
      niosProfile := 3
      immediate := true
      requestToken := 41
      gainTable := 0x82
      timestamp := 0
      sessionGeneration := 0x107
      execution := { timestamp := 6000, flags := 0x01 } }
  readbackFrequencyHz := 2400000000
  timing :=
    { workerStartTimestamp := 5000, workerStartValid := true
      profileEndTimestamp := 5640, profileEndValid := true
      gainStartTimestamp := 5700, gainStartValid := true
      gainEndTimestamp := 6980, gainEndValid := true
      pllStartTimestamp := 7112, pllStartValid := true }
  workerEnd := some 10312

/-- Behind a failure of the same module and a success of the other, its record is
read under sequence 1 with all its stage durations. -/
theorem retune2_records_timed :
    let st := after [.failure .rx ⟨none, 4⟩, .success .tx timedRetune, .success .rx timedRetune]
    let timing := (timedRetune.record 1).word {} 1 .timing
    st.pktRetune2RecordRead (niosPkt16x64Retune2RecordAddr false false Retune2RecordWord.timing.code)
        1 = .ok timing ∧
      [0, 16, 32, 48].map (niosRetune2TimingDecode · timing) =
        [some 640, some 1280, some 3200, some 192] ∧
      niosRetune2RecordRead st .rx false 1 true = .ok (timedRetune.hostRecord true) := by
  intro st timing
  have hp : PublishedAt [timedRetune] 1 0 timedRetune := ⟨rfl, by decide, rfl⟩
  obtain ⟨hwords, hhost, -⟩ := (retune2_records [.failure .rx ⟨none, 4⟩, .success .tx timedRetune,
    .success .rx timedRetune] false).1 1 (by decide)
  obtain ⟨hread, hprofile, hgain, hpll, hother⟩ := hhost 0 timedRetune hp
  refine ⟨(hwords .timing (by decide)).2 0 timedRetune hp, ?_, hread true⟩
  simp only [List.map_cons, List.map_nil, timing, hprofile, hgain, hpll, hother]
  decide

end Retune2Records

end BladeRF
