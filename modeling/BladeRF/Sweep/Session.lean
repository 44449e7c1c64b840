/-
# `Sweep.Session` — the ledger, the collector and the record ring of a session

A request enters the pending ledger before it is sent.  `sweep_collect` reads
what NIOS published since the last call, finds the ledger entry that each NIOS
record identifies and turns the two into a sweep record; as soon as one record
cannot be read or matched, everything left in the ledger is lost.
`bladerf2_rx_sweep_end` cancels the rest.  NIOS is the environment: which counts
it reports and what every record read returns is part of the call.
-/
import BladeRF.Lib.Ring
import BladeRF.Lib.Slots
import BladeRF.Sweep.Record
import Mathlib.Data.List.Sort

namespace BladeRF

open SweepRecord

/-- `SWEEP_DEPTH`: requests NIOS and the ledger hold. -/
def sweepDepth : ℕ := 16

/-- `BLADERF2_RX_SWEEP_RING_SIZE`. -/
def sweepRingSize : ℕ := 256

/-! ## The ledger -/

/-- `rx_retune2_pending[i]`: a request whose outcome is open. -/
structure PendingRetune where
  timestamp : ℕ
  requestedFrequencyHz : ℕ
  niosProfile : ℕ
  requestToken : ℕ
  sessionGeneration : ℕ
  sweepSequence : ℕ
  gainTable : ℕ
  /-- The synthesizer bytes NIOS must read back, when the host knows them. -/
  synthExpected : Option (List (BitVec 8))

structure RetuneIdentity where
  requestToken : ℕ
  niosProfile : ℕ
  sessionGeneration : ℕ
  sweepSequence : ℕ

namespace PendingRetune

def identity (e : PendingRetune) : RetuneIdentity :=
  ⟨e.requestToken, e.niosProfile, e.sessionGeneration, e.sweepSequence⟩

/-- The entry with the synthesizer bytes of the host's words for its slot. -/
def withSynth (e : PendingRetune) (synth : Option (List (BitVec 8))) : PendingRetune :=
  { e with synthExpected := synth }

/-- `sweep_record_from_ledger`. -/
def record (e : PendingRetune) (status : SweepStatus) : SweepRecord where
  sequence := e.sweepSequence
  status := status
  flags := 0
  failureStage := 0
  gainTable := 0
  niosProfile := e.niosProfile
  frequency := e.requestedFrequencyHz
  readbackFrequency := 0
  scheduledTimestamp := e.timestamp
  executedTimestamp := 0
  certifiedStart := 0

end PendingRetune

/-- The match of `sweep_ledger_take`: token, profile and the low byte of the
command session. -/
def RetuneIdentity.matches (id : RetuneIdentity) (nios : NiosRetune2Record) : Bool :=
  id.sweepSequence ≠ 0 ∧ id.requestToken ≠ 0 ∧ id.requestToken = nios.requestToken ∧
    id.niosProfile = nios.niosProfile ∧ id.sessionGeneration % 256 = nios.sessionGenerationLow

structure Ledger where
  slots : Lib.Slots PendingRetune sweepDepth
  count : ℕ
  count_eq : count = slots.entries.length

namespace Ledger

def entries (l : Ledger) : List PendingRetune := l.slots.entries

def empty : Ledger := ⟨.empty, 0, by simp⟩

/-- Retire the first entry with `p`. -/
def take (l : Ledger) (p : PendingRetune → Bool) : Option (PendingRetune × Ledger) :=
  match h : l.slots.take p with
  | none => none
  | some (e, slots) => some (e, ⟨slots, l.count - 1, by
      rw [l.count_eq, (Lib.Slots.take_spec h).2.length_eq, List.length_cons,
        Nat.add_sub_cancel]⟩)

def insert (l : Ledger) (e : PendingRetune) : Option Ledger :=
  if l.count ≥ sweepDepth then none
  else
    match h : l.slots.insert e with
    | none => none
    | some slots => some ⟨slots, l.count + 1, by
        rw [l.count_eq, (Lib.Slots.insert_spec h).length_eq, List.length_cons]⟩

/-- Update the first entry with `p` in place. -/
def update (l : Ledger) (p : PendingRetune → Bool) (f : PendingRetune → PendingRetune) :
    Option Ledger :=
  match h : l.slots.update p f with
  | none => none
  | some slots => some ⟨slots, l.count, by
      rw [l.count_eq, Lib.Slots.update_length h]⟩

@[simp] theorem entries_empty : empty.entries = [] := Lib.Slots.entries_empty

theorem take_spec {l l' : Ledger} {p : PendingRetune → Bool} {e : PendingRetune}
    (h : l.take p = some (e, l')) : p e ∧ l.entries.Perm (e :: l'.entries) := by
  unfold take at h
  split at h
  · exact absurd h (by simp)
  · rename_i e' slots hslots
    obtain ⟨rfl, rfl⟩ := Prod.mk.inj (Option.some.inj h)
    exact Lib.Slots.take_spec hslots

theorem insert_spec {l l' : Ledger} {e : PendingRetune} (h : l.insert e = some l') :
    l'.entries.Perm (e :: l.entries) := by
  unfold insert at h
  split_ifs at h
  split at h
  · exact absurd h (by simp)
  · rename_i slots hslots
    obtain rfl := Option.some.inj h
    exact Lib.Slots.insert_spec hslots

end Ledger

/-! ## The board -/

/-- The board data of a session, with the history that its accounting is about. -/
structure SweepBoard where
  ledger : Ledger
  /-- `rx_retune2_success_count_last`, when valid. -/
  successCountLast : Option ℕ
  /-- `rx_retune2_failure_count_last`, when valid. -/
  failureCountLast : Option ℕ
  outcomeUnknown : Bool
  /-- `BLADERF_CAP_RETUNE2_GAIN_TABLE`. -/
  gainTableCap : Bool
  gainTableRegion : ℕ
  ch : ℕ
  active : Bool
  settleSamples : ℕ
  refclkHz : ℕ
  nextSequence : ℕ
  ring : Lib.Ring SweepRecord sweepRingSize
  /-- Every record pushed in this session, in push order. -/
  pushed : List SweepRecord
  handed : List ℕ
  /-- Every request that NIOS did not reject. -/
  requested : List RetuneIdentity
  /-- Every record read, with the ring: the success ring (`false`) or the failure ring. -/
  readout : List (Bool × NiosRetune2Record)
  /-- A record array was written past its end. -/
  overran : Bool

namespace SweepBoard

variable (s : SweepBoard)

/-- `sweep_push`. -/
def push (r : SweepRecord) : SweepBoard :=
  { s with
    ring := s.ring.push r
    pushed := s.pushed ++ [r] }

/-- `sweep_sort`: each record is inserted into the sorted ones before it.  The
sorted part is kept newest first, the order in which the loop shifts. -/
def sort (records : List SweepRecord) : List SweepRecord :=
  (records.foldl (fun sorted key =>
    sorted.orderedInsert (fun a b => b.sequence ≤ a.sequence) key) []).reverse

/-- What one `sweep_collect` has gathered so far. -/
structure Batch where
  ledger : Ledger
  records : List SweepRecord
  readout : List (Bool × NiosRetune2Record)
  lost : Bool

/-- One of the two record loops of `sweep_collect`: read `n` records of a ring
from `seq` on and retire the ledger entry of each. -/
def Batch.gather (failure : Bool) (read : Bool → ℕ → Option NiosRetune2Record)
    (finish : PendingRetune → NiosRetune2Record → SweepRecord) : ℕ → ℕ → Batch → Batch
  | 0, _, b => b
  | n + 1, seq, b =>
      if b.lost then b
      else
        match read failure seq with
        | none => { b with lost := true }
        | some nios =>
            match b.ledger.take fun e => e.identity.matches nios with
            | none =>
                { b with
                  readout := b.readout ++ [(failure, nios)]
                  lost := true }
            | some (e, ledger) =>
                gather failure read finish n ((seq + 1) % counterModulus)
                  { ledger := ledger
                    records := b.records ++ [finish e nios]
                    readout := b.readout ++ [(failure, nios)]
                    lost := false }

def Batch.abandon (b : Batch) : Batch :=
  if b.lost then
    { b with
      ledger := .empty
      records := b.ledger.entries.foldl (fun records e =>
        if e.sweepSequence ≠ 0 ∧ records.length < 2 * sweepDepth then
          records ++ [e.record .lost]
        else records) b.records }
  else b

/-- What NIOS answers during one `sweep_collect`. -/
structure CollectEnv where
  /-- Success and failure count, when they can be read. -/
  counts : Option (ℕ × ℕ)
  /-- The record read of the success ring (`false`) or the failure ring. -/
  read : Bool → ℕ → Option NiosRetune2Record

/-- Records published since `last`, in 32-bit arithmetic. -/
def newRecords (count last : ℕ) : ℕ := (count + counterModulus - last) % counterModulus

def finishSuccess (e : PendingRetune) (nios : NiosRetune2Record) : SweepRecord :=
  ofNiosSuccess (e.record .success) nios e.synthExpected s.refclkHz s.settleSamples
    (e.gainTable ≠ 0)

def finishFailure (e : PendingRetune) (nios : NiosRetune2Record) : SweepRecord :=
  { e.record .failed with failureStage := nios.failureStage }

/-- The batch of `sweep_collect` when the counts could be read. -/
def batch (read : Bool → ℕ → Option NiosRetune2Record) (success failure : ℕ) : Batch :=
  match s.successCountLast, s.failureCountLast with
  | some successLast, some failureLast =>
      let newSuccesses := newRecords success successLast
      let newFailures := newRecords failure failureLast
      let lost : Bool := (newSuccesses > sweepDepth ∨ newFailures > sweepDepth ∨
        newSuccesses + newFailures > s.ledger.count) ∧ (newSuccesses ≠ 0 ∨ newFailures ≠ 0)
      let start : Batch := ⟨s.ledger, [], [], lost⟩
      let successes := start.gather false read s.finishSuccess newSuccesses
        ((successLast + 1) % counterModulus)
      (successes.gather true read finishFailure newFailures
        ((failureLast + 1) % counterModulus)).abandon
  | _, _ => (Batch.mk s.ledger [] [] true).abandon

/-- `sweep_collect`; false when the counts cannot be read. -/
def collect (env : CollectEnv) : Bool × SweepBoard :=
  match env.counts with
  | none => (false, s)
  | some (success, failure) =>
      let b := s.batch env.read success failure
      (true, (sort b.records).foldl push
        { s with
          ledger := b.ledger
          outcomeUnknown := s.outcomeUnknown || b.lost
          successCountLast := some success
          failureCountLast := some failure
          readout := s.readout ++ b.readout
          overran := s.overran || decide (b.records.length > 2 * sweepDepth) })

/-! ## The entry points -/

/-- `sweep_channel_valid`: `BLADERF_CHANNEL_RX(0)` or `BLADERF_CHANNEL_RX(1)`. -/
def channelValid (ch : ℕ) : Bool := ch = 0 ∨ ch = 2

/-- `bladerf2_rx_sweep_begin`.  `allowed` stands for the capabilities, the
transition state, the gain-table region and the clock. -/
def rxSweepBegin (ch settleSamples refclkHz region : ℕ) (allowed : Bool)
    (counts : Option (ℕ × ℕ)) : SweepBoard :=
  match counts with
  | none => s
  | some (success, failure) =>
      if ¬ channelValid ch ∨ ¬ allowed ∨ s.active ∨ s.ledger.count ≠ 0 ∨ s.outcomeUnknown then s
      else
        { s with
          successCountLast := some success
          failureCountLast := some failure
          gainTableRegion := region
          ch := ch
          active := true
          settleSamples := settleSamples
          refclkHz := refclkHz
          nextSequence := 1
          ring := s.ring.reset
          pushed := []
          handed := []
          requested := []
          readout := [] }

/-- How `bladerf2_schedule_retune_sequenced` ends for a request in the ledger. -/
inductive RetuneSent
  | accepted
  | rejected
  | ambiguous
  deriving DecidableEq

structure ScheduleEnv where
  collect : CollectEnv
  /-- A refusal before the request enters the ledger. -/
  blocked : Bool
  requestToken : ℕ
  sessionGeneration : ℕ
  gainTable : ℕ
  sent : RetuneSent
  /-- `nios_fastlock_words[0][nios_profile]`, when valid. -/
  words : Option (List (BitVec 8))

/-- `bladerf2_schedule_retune_sequenced` for a session request: a complete NIOS
rejection takes the entry out again, an ambiguous transport failure keeps it. -/
def scheduleRetuneSequenced (timestamp frequency niosProfile sequence : ℕ) (env : ScheduleEnv) :
    SweepBoard :=
  if s.outcomeUnknown ∨ env.blocked then s
  else
    let e : PendingRetune :=
      { timestamp := timestamp
        requestedFrequencyHz := frequency
        niosProfile := niosProfile
        requestToken := env.requestToken
        sessionGeneration := env.sessionGeneration
        sweepSequence := sequence
        gainTable := env.gainTable
        synthExpected := none }
    match s.ledger.insert e with
    | none => s
    | some ledger =>
        if env.sent = .rejected then s
        else
          { s with
            ledger := ledger
            requested := s.requested ++ [e.identity] }

def rxSweepSchedule (ch timestamp frequency : ℕ) (quickTune : Option (ℕ × ℕ))
    (env : ScheduleEnv) : SweepBoard :=
  match quickTune with
  | none => s
  | some (niosProfile, rffeProfile) =>
      if ¬ s.active ∨ ch ≠ s.ch ∨ timestamp = 0 then s
      else if ¬ s.gainTableCap ∧ SweepRecord.gainTableRegion frequency ≠ s.gainTableRegion then s
      else
        let collected := s.collect env.collect
        if ¬ collected.1 then collected.2
        else
          let candidate := collected.2.nextSequence
          let t := collected.2.scheduleRetuneSequenced timestamp frequency niosProfile candidate env
          match t.ledger.update (fun e => e.sweepSequence = candidate)
              (·.withSynth (env.words.map fun w => synthExpected w rffeProfile)) with
          | none => t
          | some ledger =>
              { t with
                ledger := ledger
                nextSequence := (candidate + 1) % counterModulus
                handed := t.handed ++ [candidate] }

/-- `bladerf2_rx_sweep_completions`: the records returned, unless it fails. -/
def rxSweepCompletions (ch maxRecords : ℕ) (env : CollectEnv) :
    Option (List SweepRecord) × SweepBoard :=
  if ¬ channelValid ch ∨ s.active ∧ ch ≠ s.ch then (none, s)
  else
    let collected := if s.active then s.collect env else (true, s)
    if ¬ collected.1 then (none, collected.2)
    else
      let read := collected.2.ring.take maxRecords
      (some read.1, { collected.2 with ring := read.2 })

/-- What decides `bladerf2_rx_sweep_end`. -/
structure EndEnv where
  collect : CollectEnv
  cancelled : Bool
  successCount : Option ℕ
  failureCount : Option ℕ
  /-- The RX timestamp, when it can be read. -/
  timestamp : Option ℕ

/-- `cancel_scheduled_retunes` when it succeeds. -/
def cancelScheduledRetunes (env : EndEnv) : SweepBoard :=
  { s with
    ledger := .empty
    outcomeUnknown := false
    successCountLast := env.successCount
    failureCountLast := env.failureCount }

def endRecord (endTimestamp : ℕ) : SweepRecord where
  sequence := s.nextSequence
  status := .ended
  flags := 0
  failureStage := 0
  gainTable := 0
  niosProfile := 0
  frequency := 0
  readbackFrequency := 0
  scheduledTimestamp := endTimestamp
  executedTimestamp := 0
  certifiedStart := 0

/-- `cancelled[]` of `bladerf2_rx_sweep_end`. -/
def cancelledRecords : List SweepRecord :=
  (s.ledger.entries.filter fun e => e.sweepSequence ≠ 0).map fun e => e.record .cancelled

/-- The schedule of a cancelled request never lies past the end. -/
def clampSchedule (endTimestamp : ℕ) (r : SweepRecord) : SweepRecord :=
  { r with
    scheduledTimestamp :=
      if r.scheduledTimestamp > endTimestamp then endTimestamp else r.scheduledTimestamp }

/-- `bladerf2_rx_sweep_end` behind the queue clear: the cancelled records, then
the end. -/
def close (cancelled : List SweepRecord) (endTimestamp : ℕ) : SweepBoard :=
  let t := ((sort cancelled).map (clampSchedule endTimestamp)).foldl push s
  { t.push (t.endRecord endTimestamp) with active := false }

/-- `bladerf2_rx_sweep_end`. -/
def rxSweepEnd (ch : ℕ) (env : EndEnv) : SweepBoard :=
  if ¬ s.active ∨ ch ≠ s.ch then s
  else
    -- best effort: a failed read only turns more requests into CANCELLED
    let t := (s.collect env.collect).2
    let cancelled := t.cancelledRecords
    let t := { t with overran := t.overran || decide (cancelled.length > sweepDepth) }
    if ¬ env.cancelled then t
    else (t.cancelScheduledRetunes env).close cancelled (env.timestamp.getD 0)

end SweepBoard

end BladeRF
