/-
# `Board.TxLossCount` — the TX loss counter and the four that observe it

The FPGA counts the times TX ran out of samples.  The monitor, the snapshot
ahead of a shared START, the TX disable path and the first-data boundary read
the counter; `tx_loss_counter_lock` numbers the reads.  Each compares what it
read with one baseline behind `rx_async_epoch_lock`, in a critical section of
its own, so the sections may come in another order than the reads.

The first three hold `dev->lock` from that section to the event they publish;
the first-data boundary runs on an application or USB thread without it.
-/
import BladeRF.Board.TxAdmission
import BladeRF.Lib.Climb
import BladeRF.Lib.Steps

namespace BladeRF

/-! ## The baseline -/

structure LossRead where
  count : BitVec 64
  sequence : ℕ
  deriving DecidableEq

/-- `tx_fpga_loss_count_last`, `_valid` and `_observation_sequence`. -/
structure LossBaseline where
  last : BitVec 64
  valid : Bool
  sequence : ℕ

inductive LossFinding
  | underrun
  | counterReset
  deriving DecidableEq

namespace LossBaseline

variable (b : LossBaseline) (r : LossRead)

/-- `last` and the number are taken over. -/
def advance : LossBaseline := { b with last := r.count, sequence := r.sequence }

/-- The section of `_rx_fault_monitor`. -/
def monitorCommit (firstDataAdmitted : Bool) : LossBaseline × Option LossFinding :=
  if r.sequence > b.sequence ∧ !firstDataAdmitted then
    -- empty-FIFO counts ahead of the first application buffer are startup
    ({ b.advance r with valid := true }, none)
  else if r.sequence > b.sequence ∧ !b.valid then
    ({ b.advance r with valid := true }, none)
  else if r.count < b.last ∧ r.sequence > b.sequence then
    (b.advance r, some .counterReset)
  else if r.count > b.last ∧ r.sequence > b.sequence then
    (b.advance r, some .underrun)
  else if r.sequence > b.sequence then
    ({ b with sequence := r.sequence }, none)
  else (b, none)

/-- The second section of `bladerf2_tx_snapshot_before_shared_start`; the first
one returned unless the baseline was valid. -/
def snapshotCommit : LossBaseline × Option LossFinding :=
  if r.sequence > b.sequence then
    if r.count > b.last then (b.advance r, some .underrun)
    else if r.count < b.last then (b.advance r, some .counterReset)
    else ({ b with sequence := r.sequence }, none)
  else (b, none)

/-- The section of the TX disable path of `bladerf2_enable_module`. -/
def disableCommit : LossBaseline × Option LossFinding :=
  if b.valid ∧ r.sequence > b.sequence then
    if r.count > b.last then (b.advance r, some .underrun)
    else if r.count < b.last then (b.advance r, some .counterReset)
    else ({ b with sequence := r.sequence }, none)
  else (b, none)

/-! ### What the sections do on a counter that only grows -/

def raised : LossBaseline := if b.sequence < r.sequence then ⟨r.count, true, r.sequence⟩ else b

def growth : Option LossFinding :=
  if b.sequence < r.sequence ∧ b.last < r.count then some .underrun else none

def Precedes : Prop := b.sequence < r.sequence → b.last ≤ r.count

variable {b r}

theorem raised_newer (h : b.sequence < r.sequence) : b.raised r = ⟨r.count, true, r.sequence⟩ :=
  if_pos h

theorem raised_older (h : ¬b.sequence < r.sequence) : b.raised r = b := if_neg h

theorem raised_valid (hv : b.valid = true) : (b.raised r).valid = true := by
  rw [raised]
  split
  · rfl
  · exact hv

theorem last_le_raised (h : b.Precedes r) : b.last ≤ (b.raised r).last := by
  by_cases hnewer : b.sequence < r.sequence
  · rw [raised_newer hnewer]
    exact h hnewer
  · rw [raised_older hnewer]
    exact BitVec.le_refl _

theorem growth_eq_none (h : b.sequence < r.sequence → r.count ≤ b.last) : b.growth r = none := by
  rw [growth, if_neg]
  rintro ⟨hnewer, hlt⟩
  exact absurd hlt (BitVec.not_lt.mpr (h hnewer))

theorem snapshotCommit_eq (hv : b.valid = true) (h : b.Precedes r) :
    b.snapshotCommit r = (b.raised r, b.growth r) := by
  by_cases hnewer : b.sequence < r.sequence
  · have hle := h hnewer
    simp only [snapshotCommit, raised, growth, advance, gt_iff_lt, hnewer, true_and, if_true,
      BitVec.not_lt.mpr hle, if_false]
    split
    · rw [hv]
    · have heq : b.last = r.count := BitVec.le_antisymm hle (BitVec.not_lt.mp ‹_›)
      rw [hv, heq]
  · simp [snapshotCommit, raised, growth, hnewer]

theorem disableCommit_eq (hv : b.valid = true) :
    b.disableCommit r = b.snapshotCommit r := by
  simp [disableCommit, snapshotCommit, hv]

theorem monitorCommit_startup : b.monitorCommit r false = (b.raised r, none) := by
  by_cases hnewer : b.sequence < r.sequence
  · simp [monitorCommit, raised, advance, hnewer]
  · simp [monitorCommit, raised, hnewer]

theorem monitorCommit_eq (hv : b.valid = true) (h : b.Precedes r) :
    b.monitorCommit r true = (b.raised r, b.growth r) := by
  rw [← snapshotCommit_eq hv h]
  by_cases hnewer : b.sequence < r.sequence
  · have hle := h hnewer
    simp [monitorCommit, snapshotCommit, hv, hnewer, BitVec.not_lt.mpr hle]
  · simp [monitorCommit, snapshotCommit, hnewer]

end LossBaseline

/-! ## Loss reports -/

/-- The `loss_count` that a caller of `bladerf2_tx_stream_event` gave. -/
def TxEvent.lossCount (e : TxEvent) : BitVec 64 := e.rficStatus ++ e.flags

def TxEvent.lossReport (e : TxEvent) : Option (LossFinding × ℕ) :=
  match e.eventType with
  | .underrun => some (.underrun, e.lossCount.toNat)
  | .counterReset => some (.counterReset, e.lossCount.toNat)
  | _ => none

def LossFinding.eventType : LossFinding → TxEventType
  | .underrun => .underrun
  | .counterReset => .counterReset

def LossFinding.errorCode : LossFinding → RetCode
  | .underrun => .fpgaOp
  | .counterReset => .unexpected

namespace TxAdmission

variable (tx : TxAdmission)

def lossReports : List (LossFinding × ℕ) := tx.events.filterMap TxEvent.lossReport

theorem lossCount_streamEventOf {type : TxEventType} (h : type = .underrun ∨ type = .counterReset)
    (count : BitVec 64) (linkStatus : BitVec 32) (err : RetCode) (now : ℕ) :
    (tx.streamEventOf type count linkStatus err now).lossCount = count := by
  have hparts : (count >>> 32).setWidth 32 ++ count.setWidth 32 = count := by
    refine BitVec.eq_of_getLsbD_eq fun i hi => ?_
    rw [BitVec.getLsbD_append]
    by_cases hlow : i < 32
    · simp [hlow]
    · have hhigh : i - 32 < 32 := by omega
      simp [hlow, hhigh, Nat.add_sub_cancel' (not_lt.mp hlow)]
  simpa only [TxEvent.lossCount, streamEventOf, h, decide_true, or_true, if_true] using hparts

theorem lossReports_streamEvent (f : LossFinding) (count : BitVec 64) (linkStatus : BitVec 32)
    (now : ℕ) :
    (tx.streamEvent f.eventType count linkStatus f.errorCode now).lossReports =
      tx.lossReports ++ [(f, count.toNat)] := by
  have htype : f.eventType = .underrun ∨ f.eventType = .counterReset := by
    cases f <;> simp [LossFinding.eventType]
  have hcount := tx.lossCount_streamEventOf htype count linkStatus f.errorCode now
  have hreport : (tx.streamEventOf f.eventType count linkStatus f.errorCode now).lossReport =
      some (f, count.toNat) := by
    cases f <;> simp_all [TxEvent.lossReport, LossFinding.eventType, streamEventOf, TxEvent.ofType]
  have hstream : f.eventType.isStream = true := by cases f <;> rfl
  simp [streamEvent, hstream, append, lossReports, List.filterMap_append, hreport]

theorem firstDataAdmitted_streamEvent (type : TxEventType) (count : BitVec 64)
    (linkStatus : BitVec 32) (err : RetCode) (now : ℕ) :
    (tx.streamEvent type count linkStatus err now).firstDataAdmitted = tx.firstDataAdmitted := by
  simp only [streamEvent]
  split <;> rfl

theorem firstDataAdmitted_streamSetFaulted (faulted : Bool) :
    (tx.streamSetFaulted faulted).firstDataAdmitted = tx.firstDataAdmitted := by
  simp only [streamSetFaulted]
  split_ifs <;> rfl

theorem lossReports_streamSetFaulted (faulted : Bool) :
    (tx.streamSetFaulted faulted).lossReports = tx.lossReports := by
  simp only [streamSetFaulted, lossReports]
  split_ifs <;> rfl

theorem firstDataAdmitted_streamNewEpoch (linkStatus : BitVec 32) (baseline now : ℕ) :
    (tx.streamNewEpoch linkStatus baseline now).1.firstDataAdmitted = false := by
  simp only [streamNewEpoch, append]
  split_ifs <;> rfl

theorem lossReports_streamNewEpoch (linkStatus : BitVec 32) (baseline now : ℕ) :
    (tx.streamNewEpoch linkStatus baseline now).1.lossReports = tx.lossReports := by
  simp only [streamNewEpoch, append, lossReports]
  split_ifs <;> simp [TxEvent.lossReport, TxEvent.ofType]

/-- The test of both sections of `bladerf2_tx_note_first_data_admitted`. -/
def noteAllowed (generation : ℕ) : Bool :=
  tx.asyncAdmissionGeneration = generation && !tx.asyncFaultFlushRequired && tx.admissionAllowed

end TxAdmission

/-! ## Observers -/

inductive LossPc
  | idle
  /-- a monitor pass has read the counter -/
  | monitor (r : LossRead)
  /-- the TX disable path has read the counter -/
  | disable (r : LossRead)
  /-- the snapshot has read the counter -/
  | snapshot (r : LossRead)
  /-- the snapshot has found the baseline valid -/
  | snapshotValid (r : LossRead)
  /-- the first-data boundary passed its first section -/
  | noteAllowed (generation : ℕ)
  /-- the first-data boundary has read the counter -/
  | note (generation : ℕ) (r : LossRead)
  deriving DecidableEq

def LossPc.read? : LossPc → Option LossRead
  | .monitor r | .disable r | .snapshot r | .snapshotValid r | .note _ r => some r
  | .idle | .noteAllowed _ => none

/-- Who may read the counter out of `idle`. -/
inductive LossObserver
  | monitor
  | disable
  | snapshot

def LossObserver.read : LossObserver → LossRead → LossPc
  | .monitor => .monitor
  | .disable => .disable
  | .snapshot => .snapshot

structure PendingLoss where
  finding : LossFinding
  count : BitVec 64
  /-- `bladerf2_tx_stream_set_faulted` was called -/
  marked : Bool

variable {ι : Type*} [DecidableEq ι]

/-- The board while TX stays enabled; `ι` names the threads.  The last four
fields record the run and are not read by the code. -/
structure TxLoss (ι : Type*) where
  tx : TxAdmission
  baseline : LossBaseline
  counter : BitVec 64
  counterSequence : ℕ
  pc : ι → LossPc
  /-- while it is there its observer holds `dev->lock` -/
  pending : Option PendingLoss
  reads : List LossRead
  /-- the reads that were compared with a valid baseline, or became it -/
  committed : List LossRead
  /-- the read that admitted the first data of this link epoch -/
  admission : Option LossRead
  /-- the reports ahead of this position belong to an epoch that had its data -/
  since : ℕ

namespace TxLoss

inductive Label (ι : Type*)
  | count (value : BitVec 64)
  | read (i : ι) (o : LossObserver)
  /-- the observer gives up, or only wanted the value -/
  | abandon (i : ι)
  /-- the first section of the snapshot -/
  | check (i : ι)
  | commit (i : ι)
  /-- the first section of the first-data boundary -/
  | noteCheck (i : ι) (generation : ℕ)
  | noteRead (i : ι)
  | noteCommit (i : ι)
  /-- `bladerf2_tx_stream_set_faulted` of the observer that reports -/
  | mark
  /-- its `bladerf2_tx_stream_event` -/
  | publish (linkStatus : BitVec 32) (now : ℕ)
  /-- a shared START -/
  | newEpoch (linkStatus : BitVec 32) (baseline now : ℕ)
  | other (tx : TxAdmission)

variable (s : TxLoss ι)

/-- `bladerf2_get_loss_event_count_with_sequence`, as far as it succeeds. -/
def nextRead : LossRead := ⟨s.counter, s.counterSequence + 1⟩

def takeRead (i : ι) (pc : LossRead → LossPc) : TxLoss ι :=
  { s with
    counterSequence := s.counterSequence + 1
    pc := Function.update s.pc i (pc s.nextRead)
    reads := s.reads ++ [s.nextRead] }

def goto (i : ι) (pc : LossPc) : TxLoss ι := { s with pc := Function.update s.pc i pc }

/-- The end of a section that compared `r`. -/
def conclude (i : ι) (r : LossRead) (res : LossBaseline × Option LossFinding) : TxLoss ι :=
  { s with
    baseline := res.1
    pending := res.2.map fun f => ⟨f, r.count, false⟩
    pc := Function.update s.pc i .idle
    committed := if res.1.valid then s.committed ++ [r] else s.committed }

/-- The second section of `bladerf2_tx_note_first_data_admitted`. -/
def noteCommit (i : ι) (generation : ℕ) (r : LossRead) : TxLoss ι :=
  let s := s.goto i .idle
  if s.tx.noteAllowed generation && !s.tx.firstDataAdmitted then
    { s with
      baseline := ⟨r.count, true, r.sequence⟩
      tx := { s.tx with firstDataAdmitted := true }
      admission := some r }
  else s

/-- `bladerf2_tx_stream_new_epoch` at a shared START that was confirmed. -/
def newEpoch (linkStatus : BitVec 32) (baseline now : ℕ) : TxLoss ι :=
  { s with
    tx := (s.tx.streamNewEpoch linkStatus baseline now).1
    admission := none
    since := if s.admission.isSome then s.tx.lossReports.length else s.since }

def step : Label ι → Option (TxLoss ι)
  | .count value => if s.counter ≤ value then some { s with counter := value } else none
  | .read i o => if s.pc i = .idle then some (s.takeRead i o.read) else none
  | .abandon i => some (s.goto i .idle)
  | .check i =>
      match s.pc i with
      | .snapshot r => if s.baseline.valid then some (s.goto i (.snapshotValid r)) else none
      | _ => none
  | .commit i =>
      if s.pending.isSome then none
      else
        match s.pc i with
        | .monitor r =>
            some (s.conclude i r (s.baseline.monitorCommit r s.tx.firstDataAdmitted))
        | .disable r => some (s.conclude i r (s.baseline.disableCommit r))
        | .snapshotValid r => some (s.conclude i r (s.baseline.snapshotCommit r))
        | _ => none
  | .noteCheck i generation =>
      if s.pc i = .idle then
        if s.tx.noteAllowed generation && !s.tx.firstDataAdmitted then
          some (s.goto i (.noteAllowed generation))
        else some s
      else none
  | .noteRead i =>
      match s.pc i with
      | .noteAllowed generation => some (s.takeRead i (.note generation))
      | _ => none
  | .noteCommit i =>
      match s.pc i with
      | .note generation r => some (s.noteCommit i generation r)
      | _ => none
  | .mark =>
      match s.pending with
      | some p =>
          if p.marked then none
          else some { s with tx := s.tx.streamSetFaulted true, pending := some { p with marked := true } }
      | none => none
  | .publish linkStatus now =>
      match s.pending with
      | some p =>
          if p.marked then
            -- an underrun goes without the link status
            let linkStatus := if p.finding = .underrun then 0 else linkStatus
            some { s with
              tx := s.tx.streamEvent p.finding.eventType p.count linkStatus p.finding.errorCode now
              pending := none }
          else none
      | none => none
  | .newEpoch linkStatus baseline now =>
      if s.pending.isSome then none else some (s.newEpoch linkStatus baseline now)
  | .other tx =>
      if tx.firstDataAdmitted = s.tx.firstDataAdmitted ∧ tx.lossReports = s.tx.lossReports then
        some { s with tx := tx }
      else none

/-! ## What is asked of a run -/

def reports : List (LossFinding × ℕ) := s.tx.lossReports.drop s.since

/-- TX was enabled a moment ago: nobody has read the counter but for the baseline. -/
structure Enabled : Prop where
  idle : ∀ i, s.pc i = .idle
  pending : s.pending = none
  reads : s.reads = if s.baseline.valid then [⟨s.baseline.last, s.baseline.sequence⟩] else []
  committed : s.committed = []
  admission : s.admission = none
  firstData : s.tx.firstDataAdmitted = false
  since : s.since = s.tx.lossReports.length
  counter : s.baseline.last ≤ s.counter
  sequence : s.baseline.sequence ≤ s.counterSequence

/-- The losses since the first data are reported one by one: there is no report
of a counter reset, every report is larger than the one before and than the
count at the first data, and what a later read saw lies in exactly one of them. -/
def CountedOnce : Prop :=
  ∀ r₀, s.admission = some r₀ →
    ∃ counts : List ℕ, s.reports = counts.map (LossFinding.underrun, ·) ∧
      Lib.Climbs r₀.count.toNat counts ∧
      (s.pending = none → ∀ r ∈ s.committed, r₀.sequence < r.sequence →
        ∀ n, r₀.count.toNat ≤ n → n < r.count.toNat →
          ∃! k, Lib.PassedAt r₀.count.toNat counts n k)

/-- Ahead of the first data, the snapshot and the disable path see no new
counts; and the first-data boundary does not take the baseline back. -/
def Orderly : Label ι → Prop
  | .commit i => s.tx.firstDataAdmitted = false → s.baseline.valid = true →
      ∀ r, s.pc i = .disable r ∨ s.pc i = .snapshotValid r →
        s.baseline.sequence < r.sequence → r.count ≤ s.baseline.last
  | .noteCommit i => s.tx.firstDataAdmitted = false → s.baseline.valid = true →
      ∀ generation r, s.pc i = .note generation r → s.tx.noteAllowed generation = true →
        s.baseline.last ≤ r.count
  | _ => True

/-! ## Reads -/

variable {s}

/-- The reads follow the counter, and whatever is compared is one of them. -/
structure Known (s : TxLoss ι) : Prop where
  bound : ∀ r ∈ s.reads, r.sequence ≤ s.counterSequence ∧ r.count ≤ s.counter
  mono : ∀ r ∈ s.reads, ∀ r' ∈ s.reads, r.sequence ≤ r'.sequence → r.count ≤ r'.count
  held : ∀ i r, (s.pc i).read? = some r → r ∈ s.reads
  checked : ∀ i r, s.pc i = .snapshotValid r → s.baseline.valid = true
  baseline : s.baseline.valid = true → ⟨s.baseline.last, s.baseline.sequence⟩ ∈ s.reads

namespace Known

omit [DecidableEq ι] in
theorem precedes (h : s.Known) {r : LossRead} (hr : r ∈ s.reads) (hv : s.baseline.valid = true) :
    s.baseline.Precedes r :=
  fun hnewer => h.mono _ (h.baseline hv) r hr hnewer.le

omit [DecidableEq ι] in
theorem le_last (h : s.Known) {r : LossRead} (hr : r ∈ s.reads) (hv : s.baseline.valid = true)
    (hold : ¬s.baseline.sequence < r.sequence) : r.count ≤ s.baseline.last :=
  h.mono r hr _ (h.baseline hv) (not_lt.mp hold)

theorem goto (h : s.Known) (i : ι) {pc : LossPc}
    (hpc : ∀ r, pc.read? = some r → r ∈ s.reads)
    (hv : ∀ r, pc = .snapshotValid r → s.baseline.valid = true) : (s.goto i pc).Known where
  bound := h.bound
  mono := h.mono
  held := by
    intro j r hr
    by_cases hj : j = i
    · subst hj
      exact hpc r (by simpa [TxLoss.goto] using hr)
    · exact h.held j r (by simpa [TxLoss.goto, hj] using hr)
  checked := by
    intro j r hr
    by_cases hj : j = i
    · subst hj
      exact hv r (by simpa [TxLoss.goto] using hr)
    · exact h.checked j r (by simpa [TxLoss.goto, hj] using hr)
  baseline := h.baseline

theorem idle (h : s.Known) (i : ι) : (s.goto i .idle).Known := h.goto i nofun nofun

theorem takeRead (h : s.Known) (i : ι) {pc : LossRead → LossPc}
    (hpc : (pc s.nextRead).read? = some s.nextRead)
    (hv : ∀ r r', pc r ≠ .snapshotValid r') : (s.takeRead i pc).Known where
  bound := by
    intro r hr
    obtain hr | hr := List.mem_append.mp hr
    · exact ⟨(h.bound r hr).1.trans (Nat.le_succ _), (h.bound r hr).2⟩
    · rw [List.mem_singleton.mp hr]
      exact ⟨le_rfl, BitVec.le_refl _⟩
  mono := by
    intro r hr r' hr' hle
    obtain hr | hr := List.mem_append.mp hr <;> obtain hr' | hr' := List.mem_append.mp hr'
    · exact h.mono r hr r' hr' hle
    · rw [List.mem_singleton.mp hr']
      exact (h.bound r hr).2
    · -- the new read carries a number that no earlier one has
      rw [List.mem_singleton.mp hr] at hle
      exact absurd (hle.trans (h.bound r' hr').1) (Nat.not_succ_le_self _)
    · rw [List.mem_singleton.mp hr, List.mem_singleton.mp hr']
      exact BitVec.le_refl _
  held := by
    intro j r hr
    by_cases hj : j = i
    · subst hj
      have heq : some s.nextRead = some r := by
        rw [← hpc]
        simpa [TxLoss.takeRead] using hr
      cases heq
      exact List.mem_append_right _ (List.mem_singleton_self _)
    · exact List.mem_append_left _ (h.held j r (by simpa [TxLoss.takeRead, hj] using hr))
  checked := by
    intro j r hr
    by_cases hj : j = i
    · subst hj
      exact absurd (by simpa [TxLoss.takeRead] using hr) (hv _ r)
    · exact h.checked j r (by simpa [TxLoss.takeRead, hj] using hr)
  baseline := fun hvalid => List.mem_append_left _ (h.baseline hvalid)

end Known

/-! ## The invariant -/

/-- How the last report, at `a`, and the baseline stand to each other. -/
def Outstanding (a : ℕ) (last : BitVec 64) : Option PendingLoss → Prop
  | none => a = last.toNat
  | some p => p.finding = .underrun ∧ p.count = last ∧ a < last.toNat

structure Reported (s : TxLoss ι) (r₀ : LossRead) (counts : List ℕ) : Prop where
  valid : s.baseline.valid = true
  reports : s.reports = counts.map (LossFinding.underrun, ·)
  climbs : Lib.Climbs r₀.count.toNat counts
  outstanding : Outstanding (Lib.top r₀.count.toNat counts) s.baseline.last s.pending

structure Counted (s : TxLoss ι) : Prop where
  known : s.Known
  committed : ∀ r ∈ s.committed, s.baseline.valid = true ∧ r.count ≤ s.baseline.last
  firstData : s.tx.firstDataAdmitted = s.admission.isSome
  since : s.since ≤ s.tx.lossReports.length
  startup : s.admission = none → s.since = s.tx.lossReports.length ∧ s.pending = none
  admitted : ∀ r₀, s.admission = some r₀ → ∃ counts, s.Reported r₀ counts

omit [DecidableEq ι] in
theorem Enabled.counted (h : s.Enabled) : s.Counted where
  known :=
    { bound := by
        intro r hr
        rw [h.reads] at hr
        split at hr
        · rw [List.mem_singleton.mp hr]
          exact ⟨h.sequence, h.counter⟩
        · cases hr
      mono := by
        intro r hr r' hr' _
        rw [h.reads] at hr hr'
        split at hr
        · rw [if_pos ‹_›] at hr'
          rw [List.mem_singleton.mp hr, List.mem_singleton.mp hr']
          exact BitVec.le_refl _
        · cases hr
      held := by
        intro i r hr
        rw [h.idle] at hr
        cases hr
      checked := by
        intro i r hr
        rw [h.idle] at hr
        cases hr
      baseline := by
        intro hv
        rw [h.reads, if_pos hv]
        exact List.mem_singleton_self _ }
  committed := by
    intro r hr
    rw [h.committed] at hr
    cases hr
  firstData := by rw [h.firstData, h.admission]; rfl
  since := h.since.le
  startup _ := ⟨h.since, h.pending⟩
  admitted := by
    intro r₀ hr₀
    rw [h.admission] at hr₀
    cases hr₀

omit [DecidableEq ι] in
theorem Counted.countedOnce (h : s.Counted) : s.CountedOnce := by
  intro r₀ hr₀
  obtain ⟨counts, hrep⟩ := h.admitted r₀ hr₀
  refine ⟨counts, hrep.reports, hrep.climbs, fun hidle r hr _ n hle hlt => ?_⟩
  have htop : Lib.top r₀.count.toNat counts = s.baseline.last.toNat := by
    have := hrep.outstanding
    rwa [hidle] at this
  refine hrep.climbs.exactlyOne hle ?_
  rw [htop]
  exact hlt.trans_le (h.committed r hr).2

namespace Counted

theorem outstanding_growth {b : LossBaseline} {r : LossRead} (h : b.Precedes r) :
    Outstanding b.last.toNat (b.raised r).last
      ((b.growth r).map fun f => ⟨f, r.count, false⟩) := by
  by_cases hnewer : b.sequence < r.sequence
  · rw [LossBaseline.raised_newer hnewer]
    by_cases hlt : b.last < r.count
    · rw [LossBaseline.growth, if_pos ⟨hnewer, hlt⟩]
      exact ⟨rfl, rfl, hlt⟩
    · rw [LossBaseline.growth_eq_none fun _ => BitVec.not_lt.mp hlt]
      exact congrArg BitVec.toNat (BitVec.le_antisymm (h hnewer) (BitVec.not_lt.mp hlt))
  · rw [LossBaseline.raised_older hnewer,
      LossBaseline.growth_eq_none fun hn => absurd hn hnewer]
    rfl

theorem goto (h : s.Counted) (i : ι) {pc : LossPc} (hk : (s.goto i pc).Known) :
    (s.goto i pc).Counted where
  known := hk
  committed := h.committed
  firstData := h.firstData
  since := h.since
  startup := h.startup
  admitted r₀ hr₀ := by
    obtain ⟨counts, hrep⟩ := h.admitted r₀ hr₀
    exact ⟨counts, hrep.valid, hrep.reports, hrep.climbs, hrep.outstanding⟩

theorem takeRead (h : s.Counted) (i : ι) {pc : LossRead → LossPc}
    (hk : (s.takeRead i pc).Known) : (s.takeRead i pc).Counted where
  known := hk
  committed := h.committed
  firstData := h.firstData
  since := h.since
  startup := h.startup
  admitted r₀ hr₀ := by
    obtain ⟨counts, hrep⟩ := h.admitted r₀ hr₀
    exact ⟨counts, hrep.valid, hrep.reports, hrep.climbs, hrep.outstanding⟩

omit [DecidableEq ι] in
theorem other (h : s.Counted) {tx : TxAdmission} {pending : Option PendingLoss}
    (hdata : tx.firstDataAdmitted = s.tx.firstDataAdmitted)
    (hreports : tx.lossReports = s.tx.lossReports)
    (hpending : ∀ a, Outstanding a s.baseline.last s.pending →
      Outstanding a s.baseline.last pending)
    (hnone : s.pending = none → pending = none) :
    ({ s with tx := tx, pending := pending } : TxLoss ι).Counted where
  known := ⟨h.known.bound, h.known.mono, h.known.held, h.known.checked, h.known.baseline⟩
  committed := h.committed
  firstData := hdata.trans h.firstData
  since := h.since.trans_eq (by rw [hreports])
  startup ha := ⟨(h.startup ha).1.trans (by rw [hreports]), hnone (h.startup ha).2⟩
  admitted r₀ hr₀ := by
    obtain ⟨counts, hrep⟩ := h.admitted r₀ hr₀
    refine ⟨counts, hrep.valid, ?_, hrep.climbs, hpending _ hrep.outstanding⟩
    have heq := hrep.reports
    rw [TxLoss.reports] at heq ⊢
    rw [← heq, hreports]

theorem conclude (h : s.Counted) (i : ι) {r : LossRead} {res : LossBaseline × Option LossFinding}
    (hr : r ∈ s.reads) (hidle : s.pending = none)
    (hbase : res.1 = s.baseline.raised r ∨ s.baseline.valid = false ∧ res.1 = s.baseline)
    (hstartup : s.admission = none → res.2 = none)
    (hadmitted : s.admission.isSome → res.1 = s.baseline.raised r ∧ res.2 = s.baseline.growth r) :
    (s.conclude i r res).Counted := by
  have hvalid : s.baseline.valid = true → res.1 = s.baseline.raised r := fun hv =>
    hbase.resolve_right fun hinv => by
      rw [hv] at hinv
      cases hinv.1
  have hraised : res.1.valid = true → res.1 = s.baseline.raised r := fun hv =>
    hbase.resolve_right fun hinv => by
      rw [hinv.2, hinv.1] at hv
      cases hv
  refine ⟨⟨h.known.bound, h.known.mono, (h.known.idle i).held, ?_, ?_⟩, ?_, h.firstData, h.since,
    ?_, ?_⟩
  case refine_1 =>
    intro j r' hj
    have hv := (h.known.idle i).checked j r' hj
    rw [TxLoss.conclude, hvalid hv]
    exact LossBaseline.raised_valid hv
  case refine_2 =>
    intro hv
    have hb := hraised hv
    simp only [TxLoss.conclude, hb] at hv ⊢
    by_cases hnewer : s.baseline.sequence < r.sequence
    · rw [LossBaseline.raised_newer hnewer]
      exact hr
    · rw [LossBaseline.raised_older hnewer] at hv ⊢
      exact h.known.baseline hv
  case refine_3 =>
    intro c hc
    have hold : c ∈ s.committed → res.1.valid = true ∧ c.count ≤ res.1.last := fun hc => by
      obtain ⟨hv, hle⟩ := h.committed c hc
      rw [hvalid hv]
      exact ⟨LossBaseline.raised_valid hv,
        BitVec.le_trans hle (LossBaseline.last_le_raised (h.known.precedes hr hv))⟩
    simp only [TxLoss.conclude] at hc
    split at hc
    · rename_i hv
      obtain hc | hc := List.mem_append.mp hc
      · exact hold hc
      · refine ⟨hv, ?_⟩
        rw [List.mem_singleton.mp hc]
        have hb := hraised hv
        simp only [TxLoss.conclude, hb] at hv ⊢
        by_cases hnewer : s.baseline.sequence < r.sequence
        · rw [LossBaseline.raised_newer hnewer]
          exact BitVec.le_refl _
        · rw [LossBaseline.raised_older hnewer] at hv ⊢
          exact h.known.le_last hr hv hnewer
    · exact hold hc
  case refine_4 =>
    intro ha
    refine ⟨(h.startup ha).1, ?_⟩
    simp only [TxLoss.conclude, hstartup ha, Option.map_none]
  case refine_5 =>
    intro r₀ hr₀
    obtain ⟨counts, hrep⟩ := h.admitted r₀ hr₀
    have hres := hadmitted (Option.isSome_iff_exists.mpr ⟨r₀, hr₀⟩)
    have htop := hrep.outstanding
    rw [hidle] at htop
    refine ⟨counts, ?_, hrep.reports, hrep.climbs, ?_⟩
    · rw [TxLoss.conclude, hres.1]
      exact LossBaseline.raised_valid hrep.valid
    · simp only [TxLoss.conclude, hres.1, hres.2]
      exact htop ▸ outstanding_growth (h.known.precedes hr hrep.valid)

theorem commit {i : ι} {t : TxLoss ι} (h : s.Counted) (ho : s.Orderly (.commit i))
    (hidle : s.pending = none)
    (hs : (match s.pc i with
        | .monitor r =>
            some (s.conclude i r (s.baseline.monitorCommit r s.tx.firstDataAdmitted))
        | .disable r => some (s.conclude i r (s.baseline.disableCommit r))
        | .snapshotValid r => some (s.conclude i r (s.baseline.snapshotCommit r))
        | _ => none) = some t) : t.Counted := by
  have hstarted : s.admission.isSome → s.tx.firstDataAdmitted = true ∧ s.baseline.valid = true :=
    fun ha => by
      obtain ⟨r₀, hr₀⟩ := Option.isSome_iff_exists.mp ha
      obtain ⟨counts, hrep⟩ := h.admitted r₀ hr₀
      exact ⟨h.firstData.trans ha, hrep.valid⟩
  have hnotStarted : s.admission = none → s.tx.firstDataAdmitted = false := fun ha => by
    rw [h.firstData, ha]
    rfl
  -- the snapshot and the disable path on a valid baseline
  have hcompare : ∀ r, s.pc i = .disable r ∨ s.pc i = .snapshotValid r →
      s.baseline.valid = true →
      (s.conclude i r (s.baseline.snapshotCommit r)).Counted := fun r hpc hv => by
    have hr : r ∈ s.reads := h.known.held i r (by obtain hpc | hpc := hpc <;> rw [hpc] <;> rfl)
    rw [LossBaseline.snapshotCommit_eq hv (h.known.precedes hr hv)]
    refine h.conclude i hr hidle (.inl rfl) (fun ha => ?_) fun _ => ⟨rfl, rfl⟩
    exact LossBaseline.growth_eq_none (ho (hnotStarted ha) hv r hpc)
  split at hs
  · rename_i r hpc
    cases hs
    have hr : r ∈ s.reads := h.known.held i r (by rw [hpc]; rfl)
    cases hdata : s.tx.firstDataAdmitted with
    | false =>
        rw [LossBaseline.monitorCommit_startup]
        refine h.conclude i hr hidle (.inl rfl) (fun _ => rfl) fun ha => ?_
        rw [(hstarted ha).1] at hdata
        cases hdata
    | true =>
        have ha : s.admission.isSome = true := h.firstData.symm.trans hdata
        have hv := (hstarted ha).2
        rw [LossBaseline.monitorCommit_eq hv (h.known.precedes hr hv)]
        refine h.conclude i hr hidle (.inl rfl) (fun hnone => ?_) fun _ => ⟨rfl, rfl⟩
        rw [hnone] at ha
        cases ha
  · rename_i r hpc
    cases hs
    cases hv : s.baseline.valid with
    | true =>
        rw [LossBaseline.disableCommit_eq hv]
        exact hcompare r (.inl hpc) hv
    | false =>
        have heq : s.baseline.disableCommit r = (s.baseline, none) := by
          simp [LossBaseline.disableCommit, hv]
        have hr : r ∈ s.reads := h.known.held i r (by rw [hpc]; rfl)
        rw [heq]
        refine h.conclude i hr hidle (.inr ⟨hv, rfl⟩) (fun _ => rfl) fun ha => ?_
        rw [(hstarted ha).2] at hv
        cases hv
  · rename_i r hpc
    cases hs
    exact hcompare r (.inr hpc) (h.known.checked i r hpc)
  · cases hs

theorem noteCommit (h : s.Counted) (i : ι) {generation : ℕ} {r : LossRead} (hr : r ∈ s.reads)
    (hahead : s.tx.firstDataAdmitted = false → s.baseline.valid = true →
      s.tx.noteAllowed generation = true → s.baseline.last ≤ r.count) :
    (s.noteCommit i generation r).Counted := by
  have hidle := h.known.idle i
  by_cases hadm : (s.tx.noteAllowed generation && !s.tx.firstDataAdmitted) = true
  · have heq : s.noteCommit i generation r =
        { s.goto i .idle with
          baseline := ⟨r.count, true, r.sequence⟩
          tx := { s.tx with firstDataAdmitted := true }
          admission := some r } := if_pos hadm
    simp only [Bool.and_eq_true, Bool.not_eq_true'] at hadm
    have hnone : s.admission = none := by
      have := h.firstData
      rw [hadm.2] at this
      exact Option.not_isSome_iff_eq_none.mp (by rw [← this]; exact Bool.false_ne_true)
    obtain ⟨hsince, hpending⟩ := h.startup hnone
    rw [heq]
    refine ⟨⟨h.known.bound, h.known.mono, hidle.held, fun _ _ _ => rfl, fun _ => hr⟩, ?_, rfl,
      h.since, nofun, ?_⟩
    · intro c hc
      obtain ⟨hv, hle⟩ := h.committed c hc
      exact ⟨rfl, BitVec.le_trans hle (hahead hadm.2 hv hadm.1)⟩
    · intro r₀ hr₀
      cases hr₀
      refine ⟨[], rfl, ?_, Lib.climbs_nil, ?_⟩
      · exact List.drop_eq_nil_iff.mpr hsince.ge
      · simp [TxLoss.goto, hpending, Outstanding]
  · have heq : s.noteCommit i generation r = s.goto i .idle := if_neg hadm
    rw [heq]
    exact h.goto i hidle

omit [DecidableEq ι] in
theorem publish (h : s.Counted) {p : PendingLoss} (hp : s.pending = some p)
    (linkStatus : BitVec 32) (now : ℕ) :
    ({ s with
        tx := s.tx.streamEvent p.finding.eventType p.count linkStatus p.finding.errorCode now
        pending := none } : TxLoss ι).Counted := by
  have hreports := s.tx.lossReports_streamEvent p.finding p.count linkStatus now
  refine ⟨⟨h.known.bound, h.known.mono, h.known.held, h.known.checked, h.known.baseline⟩,
    h.committed, ?_, ?_, ?_, ?_⟩
  · exact (TxAdmission.firstDataAdmitted_streamEvent ..).trans h.firstData
  · rw [hreports, List.length_append]
    exact h.since.trans (Nat.le_add_right _ _)
  · intro ha
    rw [(h.startup ha).2] at hp
    cases hp
  · intro r₀ hr₀
    obtain ⟨counts, hrep⟩ := h.admitted r₀ hr₀
    obtain ⟨hfinding, hcount, hlt⟩ : p.finding = .underrun ∧ p.count = s.baseline.last ∧
        Lib.top r₀.count.toNat counts < s.baseline.last.toNat := by
      have := hrep.outstanding
      rwa [hp] at this
    refine ⟨counts ++ [s.baseline.last.toNat], hrep.valid, ?_, hrep.climbs.concat hlt, ?_⟩
    · have heq := hrep.reports
      rw [TxLoss.reports] at heq ⊢
      rw [hreports, List.drop_append_of_le_length h.since, heq, hfinding, hcount, List.map_append]
      rfl
    · exact Lib.top_concat

omit [DecidableEq ι] in
theorem newEpoch (h : s.Counted) (hidle : s.pending = none) (linkStatus : BitVec 32)
    (baseline now : ℕ) : (s.newEpoch linkStatus baseline now).Counted := by
  have hreports := s.tx.lossReports_streamNewEpoch linkStatus baseline now
  refine ⟨⟨h.known.bound, h.known.mono, h.known.held, h.known.checked, h.known.baseline⟩,
    h.committed, TxAdmission.firstDataAdmitted_streamNewEpoch .., ?_, fun _ => ⟨?_, hidle⟩, nofun⟩
  · simp only [TxLoss.newEpoch, hreports]
    split
    · exact le_rfl
    · exact h.since
  · simp only [TxLoss.newEpoch, hreports]
    split
    · rfl
    · exact (h.startup (Option.not_isSome_iff_eq_none.mp ‹_›)).1

theorem step {l : Label ι} {t : TxLoss ι} (h : s.Counted) (ho : s.Orderly l)
    (hs : s.step l = some t) : t.Counted := by
  cases l with
  | count value =>
      obtain ⟨hle, ⟨⟩⟩ := Option.ite_none_right_eq_some.mp hs
      have hbound : ∀ r ∈ s.reads, r.sequence ≤ s.counterSequence ∧ r.count ≤ value :=
        fun r hr => ⟨(h.known.bound r hr).1, BitVec.le_trans (h.known.bound r hr).2 hle⟩
      refine ⟨⟨hbound, h.known.mono, h.known.held, h.known.checked, h.known.baseline⟩,
        h.committed, h.firstData, h.since, h.startup, fun r₀ hr₀ => ?_⟩
      obtain ⟨counts, hrep⟩ := h.admitted r₀ hr₀
      exact ⟨counts, hrep.valid, hrep.reports, hrep.climbs, hrep.outstanding⟩
  | read i o =>
      obtain ⟨-, ⟨⟩⟩ := Option.ite_none_right_eq_some.mp hs
      refine h.takeRead i (h.known.takeRead i ?_ ?_)
      · cases o <;> rfl
      · cases o <;> exact fun _ _ => nofun
  | abandon i =>
      cases hs
      exact h.goto i (h.known.idle i)
  | check i =>
      simp only [TxLoss.step] at hs
      split at hs
      · rename_i r hpc
        obtain ⟨hv, ⟨⟩⟩ := Option.ite_none_right_eq_some.mp hs
        refine h.goto i (h.known.goto i (fun r' hr' => ?_) fun _ _ => hv)
        exact h.known.held i r' (by rw [hpc]; exact hr')
      · cases hs
  | commit i =>
      simp only [TxLoss.step, Option.ite_none_left_eq_some] at hs
      obtain ⟨hbusy, hs⟩ := hs
      have hidle : s.pending = none := Option.not_isSome_iff_eq_none.mp hbusy
      exact h.commit ho hidle hs
  | noteCheck i generation =>
      simp only [TxLoss.step, Option.ite_none_right_eq_some] at hs
      obtain ⟨-, hs⟩ := hs
      split at hs <;> cases hs
      · exact h.goto i (h.known.goto i nofun nofun)
      · exact h
  | noteRead i =>
      simp only [TxLoss.step] at hs
      split at hs
      · cases hs
        exact h.takeRead i (h.known.takeRead i rfl fun _ _ => nofun)
      · cases hs
  | noteCommit i =>
      simp only [TxLoss.step] at hs
      split at hs
      · rename_i generation r hpc
        cases hs
        have hr : r ∈ s.reads := h.known.held i r (by rw [hpc]; rfl)
        exact h.noteCommit i hr fun hdata hv hallowed => ho hdata hv generation r hpc hallowed
      · cases hs
  | mark =>
      simp only [TxLoss.step] at hs
      split at hs
      · rename_i p hp
        rw [Option.ite_none_left_eq_some, Option.some.injEq] at hs
        obtain ⟨-, rfl⟩ := hs
        refine h.other (TxAdmission.firstDataAdmitted_streamSetFaulted ..)
          (TxAdmission.lossReports_streamSetFaulted ..) (fun a ha => ?_) fun hnone => ?_
        · rw [hp] at ha
          exact ha
        · rw [hp] at hnone
          cases hnone
      · cases hs
  | publish linkStatus now =>
      simp only [TxLoss.step] at hs
      split at hs
      · rename_i p hp
        obtain ⟨-, ⟨⟩⟩ := Option.ite_none_right_eq_some.mp hs
        exact h.publish hp _ now
      · cases hs
  | newEpoch linkStatus baseline now =>
      simp only [TxLoss.step, Option.ite_none_left_eq_some, Option.some.injEq] at hs
      obtain ⟨hbusy, rfl⟩ := hs
      exact h.newEpoch (Option.not_isSome_iff_eq_none.mp hbusy) linkStatus baseline now
  | other tx =>
      obtain ⟨⟨hdata, hreports⟩, ⟨⟩⟩ := Option.ite_none_right_eq_some.mp hs
      exact h.other hdata hreports (fun _ => id) id

end Counted

/-- **The losses of an orderly run are counted once**: whatever the order of the
reads and of the sections, in every state. -/
theorem losses_counted_once {s t : TxLoss ι} {ls : List (Label ι)} (h0 : s.Enabled)
    (h : Lib.Steps step Orderly s ls t) : t.CountedOnce :=
  (h.invariant h0.counted fun hc ho hs => hc.step ho hs).countedOnce

/-- TX was enabled with the counter at zero; thread 0 observes, thread 1 submits. -/
def enabledAtZero : TxLoss (Fin 2) where
  tx :=
    { TxAdmission.closed with
      asyncAdmissionGeneration := 1
      asyncLinkCertified := true
      asyncRficStateCertified := true
      referenceClockKnown := true
      frequencyModelKnown := true }
  baseline := ⟨0, true, 1⟩
  counter := 0
  counterSequence := 1
  pc _ := .idle
  pending := none
  reads := [⟨0, 1⟩]
  committed := []
  admission := none
  since := 0

theorem enabledAtZero_enabled : enabledAtZero.Enabled where
  idle _ := rfl
  pending := rfl
  reads := rfl
  committed := rfl
  admission := rfl
  firstData := rfl
  since := rfl
  counter := BitVec.le_refl _
  sequence := le_rfl

theorem losses_counted_once_monitor : ∃ t,
    Lib.Steps step Orderly enabledAtZero
      [.noteCheck 1 1, .noteRead 1, .noteCommit 1, .count 2, .read 0 .monitor, .commit 0, .mark,
        .publish 0 7] t ∧ t.CountedOnce ∧ t.reports = [(.underrun, 2)] := by
  have hrun : ∃ t, Lib.Steps step Orderly enabledAtZero
      [.noteCheck 1 1, .noteRead 1, .noteCommit 1, .count 2, .read 0 .monitor, .commit 0, .mark,
        .publish 0 7] t ∧ t.reports = [(.underrun, 2)] := by
    refine ⟨_, .cons trivial rfl <| .cons trivial rfl <| .cons ?_ rfl <| .cons trivial rfl <|
      .cons trivial rfl <| .cons ?_ rfl <| .cons trivial rfl <| .cons trivial rfl .nil, ?_⟩
    · exact fun _ _ _ _ _ _ => Nat.zero_le _
    · exact nofun
    · decide
  obtain ⟨t, hrun, hreports⟩ := hrun
  exact ⟨t, hrun, losses_counted_once enabledAtZero_enabled hrun, hreports⟩

/-- RX is enabled while the first buffer goes out: the snapshot takes the counts
of the empty FIFO for losses, and publishes them after the first data was
admitted by a read that already contains them. -/
theorem startup_counts_reported : ∃ ls t,
    enabledAtZero.Enabled ∧ Lib.Steps step (fun _ _ => True) enabledAtZero ls t ∧
      t.admission = some ⟨3, 3⟩ ∧ t.reports = [(.underrun, 3)] ∧ ¬t.CountedOnce := by
  let ls : List (Label (Fin 2)) :=
    [.count 3, .read 0 .snapshot, .check 0, .noteCheck 1 1, .noteRead 1, .commit 0,
      .noteCommit 1, .mark, .publish 0 7]
  have hexec : (Lib.exec step (fun _ _ => True) enabledAtZero ls).map
      (fun t => (t.admission, t.reports)) = some (some ⟨3, 3⟩, [(.underrun, 3)]) := by decide
  obtain ⟨t, ht, hseen⟩ := Option.map_eq_some_iff.mp hexec
  obtain ⟨hadmission, hreports⟩ := Prod.mk.injEq .. ▸ hseen
  refine ⟨ls, t, enabledAtZero_enabled, .of_exec ht, hadmission, hreports, fun h => ?_⟩
  obtain ⟨counts, hcounts, hclimbs, -⟩ := h _ hadmission
  rw [hreports] at hcounts
  match counts, hcounts, hclimbs with
  | [n], hcounts, hclimbs =>
      have hn : n = 3 := by simpa using hcounts.symm
      subst hn
      simp [Lib.Climbs] at hclimbs
  | [], hcounts, _ => simp at hcounts
  | _ :: _ :: _, hcounts, _ => simp at hcounts

end TxLoss
end BladeRF
