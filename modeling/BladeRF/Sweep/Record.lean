/-
# `Sweep.Record` — one retune of an RX sweep session and its certificate

A session reports every scheduled retune with one record.  A success record is
certified when NIOS read a timestamp and a PLL lock after the recall, the LO
read back is the one requested, the gain table is that of its region if the
request named one, and the settle window does not overflow.
-/
import Mathlib.Algebra.Order.Ring.Nat
import Mathlib.Data.List.Basic

namespace BladeRF

/-- `bladerf_rx_sweep_status`. -/
inductive SweepStatus
  | success
  | failed
  | lost
  | cancelled
  | ended
  deriving DecidableEq

/-- `struct bladerf_rx_sweep_record`. -/
structure SweepRecord where
  sequence : ℕ
  status : SweepStatus
  flags : BitVec 8
  failureStage : ℕ
  gainTable : ℕ
  niosProfile : ℕ
  frequency : ℕ
  readbackFrequency : ℕ
  scheduledTimestamp : ℕ
  executedTimestamp : ℕ
  certifiedStart : ℕ

/-- `struct nios_retune2_record`: what NIOS reports of one request. -/
structure NiosRetune2Record where
  requestToken : ℕ
  niosProfile : ℕ
  executionFlags : BitVec 8
  sessionGenerationLow : ℕ
  failureStage : ℕ
  executedDelta : ℕ
  readbackFrequencyHz : ℕ
  /-- The synthesizer bytes, when they were read. -/
  synth : Option (List (BitVec 8))

/-- One more than `UINT64_MAX`, the modulus of timestamps. -/
def timestampModulus : ℕ := 2 ^ 64

def counterModulus : ℕ := 2 ^ 32

namespace SweepRecord

/-! ## Flags -/

def fExecutedValid : BitVec 8 := 0x01
def fPllLocked : BitVec 8 := 0x02
def fReadbackMismatch : BitVec 8 := 0x04
def fCertified : BitVec 8 := 0x08
def fReadbackValid : BitVec 8 := 0x10
def fGainTableValid : BitVec 8 := 0x20
def fGainTableLoaded : BitVec 8 := 0x40

/-- `NIOS_PKT_RETUNE2_EXEC_*`. -/
def execTsValid : BitVec 8 := 0x01
def execPllLocked : BitVec 8 := 0x02
def execGtValid : BitVec 8 := 0x04
def execGtLoaded : BitVec 8 := 0x08

/-- `NIOS_PKT_RETUNE2_EXEC_GT_REGION`. -/
def execGtRegion (flags : BitVec 8) : ℕ := ((flags >>> 4) &&& 0x3).toNat

def gainTableRegion (frequency : ℕ) : ℕ :=
  if frequency ≤ 1300000000 then 0 else if frequency ≤ 4000000000 then 1 else 2

/-! ## Readback -/

/-- `enum bladerf2_rx_sweep_readback`. -/
inductive Readback
  | none
  | valid
  | mismatch

/-- `bladerf2_rx_sweep_synth_expected`: profile words 0–4 and 12, and the setup
register that selects the slot with fastlock enabled. -/
def synthExpected (profileWords : List (BitVec 8)) (rffeProfile : ℕ) : List (BitVec 8) :=
  (List.range 5).map (fun i => profileWords.getD i 0) ++
    [profileWords.getD 12 0, BitVec.ofNat 8 (rffeProfile % 8 * 32 + 1)]

/-- `bladerf2_rx_sweep_synth_frequency`. -/
def synthFrequency (synth : List (BitVec 8)) (refclkHz : ℕ) : ℕ :=
  let byte := fun i => (synth.getD i 0).toNat
  let fract := byte 4 % 128 * 65536 + byte 3 * 256 + byte 2
  let integer := byte 1 % 8 * 256 + byte 0
  (refclkHz * fract / 8388593 + refclkHz * integer) / 2 ^ (byte 5 % 16 + 1)

/-- `bladerf2_rx_sweep_readback`: the kind of readback and the LO read. -/
def readback (synth expected : Option (List (BitVec 8))) (refclkHz niosReadbackHz : ℕ) :
    Readback × ℕ :=
  let nios : Readback × ℕ :=
    if niosReadbackHz ≠ 0 then (.valid, niosReadbackHz) else (.none, 0)
  match synth, expected with
  | some synth, some expected =>
      if synth.getD 6 0 ≠ 0 then
        let hz := if refclkHz ≠ 0 then synthFrequency synth refclkHz else 0
        if (List.range 6).any fun i => synth.getD i 0 ≠ expected.getD i 0 then (.mismatch, hz)
        else if synth.getD 6 0 &&& 0xe3 ≠ expected.getD 6 0 then (.mismatch, hz)
        else if refclkHz ≠ 0 then (.valid, hz)
        else (.none, hz)
      else nios
  | _, _ => nios

/-! ## The success record -/

/-- The flags of `bladerf2_rx_sweep_record_success` before the certificate. -/
def successFlags (frequency : ℕ) (kind : Readback) (readbackHz : ℕ) (executionFlags : BitVec 8) :
    BitVec 8 :=
  let delta := if frequency > readbackHz then frequency - readbackHz else readbackHz - frequency
  (if executionFlags &&& execTsValid ≠ 0 then fExecutedValid else 0) |||
  (if executionFlags &&& execPllLocked ≠ 0 then fPllLocked else 0) |||
  (if executionFlags &&& execGtValid ≠ 0 then
    (if execGtRegion executionFlags = gainTableRegion frequency then fGainTableValid else 0) |||
    (if executionFlags &&& execGtLoaded ≠ 0 then fGainTableLoaded else 0)
  else 0) |||
  (match kind with
  | .valid => fReadbackValid ||| (if delta > 1000 then fReadbackMismatch else 0)
  | .mismatch => fReadbackMismatch
  | .none => 0)

def requiredFlags (gainTableRequired : Bool) : BitVec 8 :=
  fExecutedValid ||| fPllLocked ||| fReadbackValid |||
    (if gainTableRequired then fGainTableValid else 0)

/-- `bladerf2_rx_sweep_record_success`. -/
def recordSuccess (record : SweepRecord) (kind : Readback) (readbackHz executedTimestamp : ℕ)
    (executionFlags : BitVec 8) (settleSamples : ℕ) (gainTableRequired : Bool) : SweepRecord :=
  let flags := successFlags record.frequency kind readbackHz executionFlags
  let required := requiredFlags gainTableRequired
  let certified := flags &&& (required ||| fReadbackMismatch) = required ∧
    executedTimestamp ≤ timestampModulus - 1 - settleSamples
  { record with
    status := .success
    flags := if certified then flags ||| fCertified else flags
    failureStage := 0
    gainTable := if executionFlags &&& execGtValid ≠ 0 then execGtRegion executionFlags else 0
    readbackFrequency := readbackHz
    executedTimestamp := if executionFlags &&& execTsValid ≠ 0 then executedTimestamp else 0
    certifiedStart := if certified then executedTimestamp + settleSamples else 0 }

/-- What the collector makes of a success record of NIOS and the ledger entry it
identifies.  The execution time is the schedule plus NIOS's delta; when the sum
wraps, the timestamp does not count as valid. -/
def ofNiosSuccess (base : SweepRecord) (nios : NiosRetune2Record)
    (expected : Option (List (BitVec 8))) (refclkHz settleSamples : ℕ) (gainTableRequired : Bool) :
    SweepRecord :=
  let executed := (base.scheduledTimestamp + nios.executedDelta) % timestampModulus
  let executionFlags :=
    if executed < base.scheduledTimestamp then nios.executionFlags &&& ~~~execTsValid
    else nios.executionFlags
  let rb := readback nios.synth expected refclkHz nios.readbackFrequencyHz
  recordSuccess base rb.1 rb.2 executed executionFlags settleSamples gainTableRequired

def Certified (r : SweepRecord) : Prop := r.flags &&& fCertified ≠ 0

instance (r : SweepRecord) : Decidable r.Certified :=
  inferInstanceAs (Decidable (r.flags &&& fCertified ≠ 0))

/-! ## What a certificate says -/

section

variable (r : SweepRecord) (kind : Readback) (readbackHz executed settle : ℕ)
  (executionFlags : BitVec 8) (gt : Bool)

theorem successFlags_certified (frequency : ℕ) :
    successFlags frequency kind readbackHz executionFlags &&& fCertified = 0 := by
  unfold successFlags
  dsimp only
  cases kind <;> split_ifs <;> rfl

theorem successFlags_executed (frequency : ℕ) (required : Bool)
    (h : successFlags frequency kind readbackHz executionFlags &&&
      (requiredFlags required ||| fReadbackMismatch) = requiredFlags required) :
    executionFlags &&& execTsValid ≠ 0 := by
  intro h0
  revert h
  unfold successFlags requiredFlags
  dsimp only
  rw [if_neg (by simpa using h0)]
  cases kind <;> cases required <;> split_ifs <;> decide

theorem recordSuccess_certified
    (h : (recordSuccess r kind readbackHz executed executionFlags settle gt).Certified) :
    (recordSuccess r kind readbackHz executed executionFlags settle gt).certifiedStart =
        executed + settle ∧ executionFlags &&& execTsValid ≠ 0 := by
  by_cases hc : successFlags r.frequency kind readbackHz executionFlags &&&
      (requiredFlags gt ||| fReadbackMismatch) = requiredFlags gt ∧
      executed ≤ timestampModulus - 1 - settle
  · exact ⟨if_pos hc, successFlags_executed kind readbackHz executionFlags _ gt hc.1⟩
  · refine absurd ?_ h
    show (if _ then _ else successFlags r.frequency kind readbackHz executionFlags) &&&
      fCertified = 0
    rw [if_neg hc]
    exact successFlags_certified kind readbackHz executionFlags _

end

section

variable (base : SweepRecord) (nios : NiosRetune2Record) (expected : Option (List (BitVec 8)))
  (refclkHz settle : ℕ) (gt : Bool)

/-- A certified range never starts before the schedule: an execution time that
wrapped is not valid. -/
theorem ofNiosSuccess_certified
    (h : (ofNiosSuccess base nios expected refclkHz settle gt).Certified) :
    base.scheduledTimestamp ≤
      (ofNiosSuccess base nios expected refclkHz settle gt).certifiedStart := by
  unfold ofNiosSuccess at h ⊢
  dsimp only at h ⊢
  obtain ⟨hstart, hts⟩ := recordSuccess_certified _ _ _ _ _ _ _ h
  rw [hstart]
  split_ifs at hts with hwrap
  · refine absurd ?_ hts
    rw [BitVec.and_assoc, show (~~~execTsValid &&& execTsValid : BitVec 8) = 0 from rfl]
    exact BitVec.and_zero
  · omega

end

end SweepRecord

end BladeRF
