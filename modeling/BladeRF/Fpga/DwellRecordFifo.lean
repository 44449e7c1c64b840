/-
# `Fpga.DwellRecordFifo` — completed dwell records for the system domain

The writer stores a record word by word and publishes it by a step of its
pointer; there is no back-pressure.  The reader sees that pointer in Gray code
behind two registers, skips what the writer has lapped and counts it in
`dropped_count`.

The two clocks are unrelated, so each edge is a step.  Records are numbered in
the order they are accepted.  The counters `published`, `retired` and `seen…` are
the pointers without their wrap-around, and the lists keep what was accepted,
read, delivered and dropped; no register reads any of them.
-/
import Mathlib.Algebra.Group.Nat.Defs
import Mathlib.Data.List.Perm.Basic
import Mathlib.Data.List.Range
import BladeRF.Lib.Steps

namespace BladeRF

/-! ## Gray pointers -/

def binToGray {n : ℕ} (b : BitVec n) : BitVec n := b ^^^ b >>> 1

/-- The bits below `i`, from the highest down. -/
def grayToBinFrom {n : ℕ} (g : BitVec n) : ℕ → BitVec n → BitVec n
  | 0, b => b
  | i + 1, b =>
      grayToBinFrom g i (if b.getLsbD (i + 1) ^^ g.getLsbD i then b ||| BitVec.twoPow n i else b)

def grayToBin {n : ℕ} (g : BitVec n) : BitVec n := grayToBinFrom g n 0#n

theorem grayToBinFrom_binToGray {n : ℕ} (x : BitVec n) (i : ℕ) :
    ∀ b : BitVec n, (∀ j, b.getLsbD j = (decide (i ≤ j) && x.getLsbD j)) →
      grayToBinFrom (binToGray x) i b = x := by
  induction i with
  | zero =>
      intro b hb
      refine BitVec.eq_of_getLsbD_eq fun j _ => ?_
      rw [grayToBinFrom, hb j, decide_eq_true j.zero_le, Bool.true_and]
  | succ i ih =>
      intro b hb
      refine ih _ fun j => ?_
      have hnext : b.getLsbD (i + 1) = x.getLsbD (i + 1) := by simpa using hb (i + 1)
      have hbit : (b.getLsbD (i + 1) ^^ (binToGray x).getLsbD i) = x.getLsbD i := by
        rw [hnext, binToGray, BitVec.getLsbD_xor, BitVec.getLsbD_ushiftRight, Nat.add_comm 1 i]
        cases x.getLsbD i <;> cases x.getLsbD (i + 1) <;> rfl
      rw [hbit]
      have hj := hb j
      rcases Nat.lt_trichotomy j i with hlt | heq | hgt
      · have hfalse : b.getLsbD j = false := by
          simpa [Nat.not_le.mpr (Nat.lt_succ_of_lt hlt)] using hj
        split <;> simp [BitVec.getLsbD_twoPow, hfalse, hlt.ne', Nat.not_le.mpr hlt]
      · subst heq
        have hfalse : b.getLsbD j = false := by simpa [Nat.not_succ_le_self] using hj
        split
        · rename_i hx
          simp [BitVec.lt_of_getLsbD hx, hx]
        · rename_i hx
          simp [hfalse, Bool.not_eq_true _ ▸ hx]
      · have hsame : b.getLsbD j = x.getLsbD j := by simpa [Nat.succ_le_of_lt hgt] using hj
        split <;> simp [BitVec.getLsbD_twoPow, hsame, hgt.ne, hgt.le]

theorem grayToBin_binToGray {n : ℕ} (x : BitVec n) : grayToBin (binToGray x) = x := by
  refine grayToBinFrom_binToGray x n _ fun j => ?_
  by_cases hj : n ≤ j
  · simp [BitVec.getLsbD_of_ge x j hj]
  · simp [hj]

/-! ## The record -/

/-- What is at the inputs with `summary_valid`. -/
structure DwellSummary where
  energySum : BitVec 64 := 0
  peak : BitVec 32 := 0
  clipCount : BitVec 32 := 0
  sampleCount : BitVec 32 := 0
  firstTimestamp : BitVec 64 := 0
  firstWindow : BitVec 16 := 0
  meanPower : BitVec 32 := 0
  noiseFloor : BitVec 48 := 0
  peakWindow : BitVec 48 := 0
  triggered : Bool := false
  measureValid : Bool := false
  gainTooHigh : Bool := false
  settleElapsed : BitVec 16 := 0

/-- The registers `hold_…`. -/
structure DwellHold where
  energy : BitVec 64 := 0
  peak : BitVec 32 := 0
  clips : BitVec 32 := 0
  count : BitVec 32 := 0
  ts : BitVec 64 := 0
  win : BitVec 16 := 0
  mean : BitVec 32 := 0
  floor : BitVec 48 := 0
  pkwin : BitVec 48 := 0
  verdict : BitVec 32 := 0

def DwellSummary.hold (x : DwellSummary) : DwellHold where
  energy := x.energySum
  peak := x.peak
  clips := x.clipCount
  count := x.sampleCount
  ts := x.firstTimestamp
  win := x.firstWindow
  mean := x.meanPower
  floor := x.noiseFloor
  pkwin := x.peakWindow
  verdict :=
    x.settleElapsed ++ 0#12 ++ 0#1 ++ BitVec.ofBool x.triggered ++ BitVec.ofBool x.gainTooHigh ++
      BitVec.ofBool x.measureValid

def recordWord (h : DwellHold) (i : BitVec 4) : BitVec 32 :=
  match i.toNat with
  | 0 => h.energy.extractLsb' 0 32
  | 1 => h.energy.extractLsb' 32 32
  | 2 => h.peak
  | 3 => h.clips
  | 4 => h.count
  | 5 => h.ts.extractLsb' 0 32
  | 6 => h.ts.extractLsb' 32 32
  | 7 => h.mean
  | 8 => h.floor.extractLsb' 0 32
  | 9 => (h.floor.extractLsb' 32 16).setWidth 32
  | 10 => h.pkwin.extractLsb' 0 32
  | 11 => (h.pkwin.extractLsb' 32 16).setWidth 32
  | 12 => h.win.setWidth 32
  | 13 => h.verdict
  | _ => 0

/-! ## The two sides -/

/-- The slot and the word: the high and the low bits of an address. -/
abbrev DwellAddr (d : ℕ) := BitVec d × BitVec 4

abbrev DwellMem (d : ℕ) := DwellAddr d → BitVec 32

variable {d : ℕ}

/-- The registers of `write_proc`, for `DEPTH_LOG2 = d`. -/
structure DwellWriter (d : ℕ) where
  hold : DwellHold := {}
  wrWord : BitVec 4 := 0
  wrBusy : Bool := false
  wrPtrBin : BitVec (d + 1) := 0
  wrPtrGray : BitVec (d + 1) := 0
  rdPtrGrayW1 : BitVec (d + 1) := 0
  rdPtrGrayWr : BitVec (d + 1) := 0

namespace DwellWriter

def slot (w : DwellWriter d) : BitVec d := w.wrPtrBin.setWidth d

def stores (w : DwellWriter d) (wrReset : Bool) : Bool := !wrReset && w.wrBusy

/-- The registers after a rising edge of `wr_clock`. -/
def clock (w : DwellWriter d) (wrReset : Bool) (summary : Option DwellSummary)
    (rdPtrGray : BitVec (d + 1)) : DwellWriter d :=
  let w := { w with rdPtrGrayW1 := rdPtrGray, rdPtrGrayWr := w.rdPtrGrayW1 }
  if wrReset then { w with wrPtrBin := 0, wrPtrGray := 0, wrWord := 0, wrBusy := false }
  else if w.wrBusy then
    if w.wrWord = 15#4 then
      { w with
        wrBusy := false
        wrPtrBin := w.wrPtrBin + 1
        wrPtrGray := binToGray (w.wrPtrBin + 1) }
    else { w with wrWord := w.wrWord + 1 }
  else
    match summary with
    | some x => { w with hold := x.hold, wrWord := 0, wrBusy := true }
    | none => w

def write (w : DwellWriter d) (wrReset : Bool) (mem : DwellMem d) : DwellMem d :=
  if w.stores wrReset then Function.update mem (w.slot, w.wrWord) (recordWord w.hold w.wrWord)
  else mem

end DwellWriter

/-- The registers of `read_proc`. -/
structure DwellReader (d : ℕ) where
  rdAddrQ : DwellAddr d := (0, 0)
  rdData : BitVec 32 := 0
  rdValid : Bool := false
  rdPtrBin : BitVec (d + 1) := 0
  rdPtrGray : BitVec (d + 1) := 0
  wrPtrGrayR1 : BitVec (d + 1) := 0
  wrPtrGrayRd : BitVec (d + 1) := 0
  droppedCount : BitVec 16 := 0

namespace DwellReader

def wrBinInRd (r : DwellReader d) : BitVec (d + 1) := grayToBin r.wrPtrGrayRd

def lead (r : DwellReader d) : BitVec (d + 1) := r.wrBinInRd - r.rdPtrBin

def lapped (r : DwellReader d) : Bool := 2 ^ d < r.lead.toNat

def pops (r : DwellReader d) (rdAck : Bool) : Bool :=
  !r.lapped && rdAck && r.wrBinInRd != r.rdPtrBin

/-- The registers after a rising edge of `rd_clock`. -/
def clock (r : DwellReader d) (rdReset : Bool) (rdIndex : BitVec 4) (rdAck : Bool)
    (wrPtrGray : BitVec (d + 1)) (mem : DwellMem d) : DwellReader d :=
  let next := { r with wrPtrGrayR1 := wrPtrGray, wrPtrGrayRd := r.wrPtrGrayR1 }
  if rdReset then
    { next with rdPtrBin := 0, rdPtrGray := 0, rdValid := false, droppedCount := 0, rdData := 0 }
  else
    let next :=
      { next with
        rdValid := r.wrBinInRd != r.rdPtrBin
        rdAddrQ := (r.rdPtrBin.setWidth d, rdIndex)
        rdData := mem r.rdAddrQ }
    let skipTo := r.wrBinInRd - BitVec.ofNat (d + 1) (2 ^ d)
    if r.lapped then
      { next with
        droppedCount :=
          r.droppedCount + (r.lead - BitVec.ofNat (d + 1) (2 ^ d)).setWidth 16
        rdPtrBin := skipTo
        rdPtrGray := binToGray skipTo }
    else if rdAck && r.wrBinInRd != r.rdPtrBin then
      { next with
        rdPtrBin := r.rdPtrBin + 1
        rdPtrGray := binToGray (r.rdPtrBin + 1) }
    else next

end DwellReader

/-! ## The system -/

/-- A word the reader took.  `record` is the record at the read pointer from the
address to the word, if the pointer did not move between. -/
structure DwellWord where
  record : Option ℕ
  index : BitVec 4
  data : BitVec 32
  deriving DecidableEq

structure DwellRecordFifo (d : ℕ) where
  mem : DwellMem d
  wr : DwellWriter d := {}
  rd : DwellReader d := {}
  /-- in the order of their numbers -/
  accepted : List DwellSummary := []
  published : ℕ := 0
  retired : ℕ := 0
  /-- the write pointer in the two registers, and as the last clock used it -/
  seenR1 : ℕ := 0
  seenRd : ℕ := 0
  seen : ℕ := 0
  /-- the index at the last clock and the record at the read pointer, while `rd_valid` is high -/
  lastIndex : Option (BitVec 4 × ℕ) := none
  words : List DwellWord := []
  /-- for each `rd_ack` the record at the read pointer and the words read -/
  delivered : List (ℕ × List DwellWord) := []
  dropped : List ℕ := []

namespace DwellRecordFifo

/-- An edge of a clock.  `takes` is the reader taking the word at `rd_data` after it. -/
inductive Act where
  | wrClock (summary : Option DwellSummary)
  | rdClock (rdIndex : BitVec 4) (rdAck takes : Bool)

def wrClock (s : DwellRecordFifo d) (summary : Option DwellSummary) : DwellRecordFifo d :=
  { s with
    wr := s.wr.clock false summary s.rd.rdPtrGray
    mem := s.wr.write false s.mem
    accepted := if s.wr.wrBusy then s.accepted else s.accepted ++ summary.toList
    published := if s.wr.wrBusy && s.wr.wrWord == 15#4 then s.published + 1 else s.published }

/-- The record at the read pointer after an edge of `rd_clock`. -/
def retires (s : DwellRecordFifo d) (rdAck : Bool) : ℕ :=
  if s.rd.lapped then s.retired + (s.rd.lead.toNat - 2 ^ d)
  else if s.rd.pops rdAck then s.retired + 1
  else s.retired

/-- The word that an edge of `rd_clock` puts on `rd_data`. -/
def fetched (s : DwellRecordFifo d) (rdIndex : BitVec 4) : DwellWord where
  record := s.lastIndex.bind fun x => if x.2 = s.retired then some s.retired else none
  index := rdIndex
  data := s.mem s.rd.rdAddrQ

def rdClock (s : DwellRecordFifo d) (rdIndex : BitVec 4) (rdAck takes : Bool) :
    DwellRecordFifo d :=
  let rd := s.rd.clock false rdIndex rdAck s.wr.wrPtrGray s.mem
  let words := if takes then s.words ++ [s.fetched rdIndex] else s.words
  { s with
    rd
    retired := s.retires rdAck
    seenR1 := s.published
    seenRd := s.seenR1
    seen := s.seenRd
    lastIndex := if rd.rdValid then some (rdIndex, s.retired) else none
    words := if rdAck || !rd.rdValid then [] else words
    delivered := if rdAck then s.delivered ++ [(s.retired, s.words)] else s.delivered
    dropped :=
      if s.rd.lapped then s.dropped ++ List.range' s.retired (s.rd.lead.toNat - 2 ^ d)
      else s.dropped }

def step (s : DwellRecordFifo d) : Act → Option (DwellRecordFifo d)
  | .wrClock summary => some (s.wrClock summary)
  | .rdClock rdIndex rdAck takes => some (s.rdClock rdIndex rdAck takes)

/-- The reader holds an index for two clocks before it takes the word, and gives
`rd_ack` after it has read the sixteen words with `rd_valid` high. -/
def Proper (s : DwellRecordFifo d) : Act → Prop
  | .wrClock _ => True
  | .rdClock rdIndex rdAck takes =>
      (takes → s.lastIndex.map Prod.fst = some rdIndex) ∧
      (rdAck → s.rd.rdValid ∧ ∀ i, ∃ w ∈ s.words, w.index = i)

/-- The writer has not stored a newer word over word `i` of record `n`. -/
def Intact (s : DwellRecordFifo d) (n : ℕ) (i : BitVec 4) : Prop :=
  s.published < n + 2 ^ d ∨ s.published = n + 2 ^ d ∧ (s.wr.wrBusy → s.wr.wrWord ≤ i)

/-- A word is taken before the writer gets to it, and `rd_ack` given for a record
that was read whole and not on the clock of a skip; the write pointer seen is less
than two laps ahead, and the count of a skip fits. -/
def Clean (s : DwellRecordFifo d) : Act → Prop
  | .wrClock _ => True
  | .rdClock rdIndex rdAck takes =>
      (takes → s.lastIndex = some (rdIndex, s.retired) → s.Intact s.retired rdIndex) ∧
      (rdAck → s.seenRd ≤ s.retired + 2 ^ d ∧
        ∀ i, ∃ w ∈ s.words, w.index = i ∧ w.record = some s.retired) ∧
      s.seenRd < s.retired + 2 * 2 ^ d ∧
      s.rd.droppedCount.toNat + (s.seenRd - (s.retired + 2 ^ d)) < 2 ^ 16

/-! ## Pointers -/

theorem lead_ofNat {a b : ℕ} (hab : b ≤ a) (h : a < b + 2 * 2 ^ d) :
    (BitVec.ofNat (d + 1) a - BitVec.ofNat (d + 1) b).toNat = a - b := by
  have hsum : BitVec.ofNat (d + 1) a = BitVec.ofNat (d + 1) (a - b) + BitVec.ofNat (d + 1) b := by
    rw [← BitVec.ofNat_add, Nat.sub_add_cancel hab]
  rw [hsum, BitVec.add_sub_cancel, BitVec.toNat_ofNat, Nat.mod_eq_of_lt]
  rw [Nat.pow_succ]
  omega

theorem slot_ne {n m : ℕ} (hnm : n < m) (h : m < n + 2 ^ d) :
    BitVec.ofNat d n ≠ BitVec.ofNat d m := by
  intro heq
  have hmod : m % 2 ^ d = n % 2 ^ d := by simpa using (congrArg BitVec.toNat heq).symm
  have hzero := Nat.sub_mod_eq_zero_of_mod_eq hmod
  rw [Nat.mod_eq_of_lt (by omega)] at hzero
  omega

theorem slot_ofNat (n : ℕ) : (BitVec.ofNat (d + 1) n).setWidth d = BitVec.ofNat d n :=
  BitVec.setWidth_ofNat_of_le (Nat.le_succ d) n

end DwellRecordFifo

namespace DwellReader

theorem clock_always (r : DwellReader d) (i : BitVec 4) (ack : Bool) (g : BitVec (d + 1))
    (m : DwellMem d) :
    (r.clock false i ack g m).rdValid = (r.wrBinInRd != r.rdPtrBin) ∧
      (r.clock false i ack g m).rdAddrQ = (r.rdPtrBin.setWidth d, i) ∧
      (r.clock false i ack g m).rdData = m r.rdAddrQ ∧
      (r.clock false i ack g m).wrPtrGrayR1 = g ∧
      (r.clock false i ack g m).wrPtrGrayRd = r.wrPtrGrayR1 := by
  unfold clock
  rw [if_neg Bool.false_ne_true]
  dsimp only
  split
  · exact ⟨rfl, rfl, rfl, rfl, rfl⟩
  · split <;> exact ⟨rfl, rfl, rfl, rfl, rfl⟩

theorem clock_rdPtrBin (r : DwellReader d) (i : BitVec 4) (ack : Bool) (g : BitVec (d + 1))
    (m : DwellMem d) :
    (r.clock false i ack g m).rdPtrBin =
      if r.lapped then r.wrBinInRd - BitVec.ofNat (d + 1) (2 ^ d)
      else if r.pops ack then r.rdPtrBin + 1
      else r.rdPtrBin := by
  unfold clock pops
  rw [if_neg Bool.false_ne_true]
  cases hlap : r.lapped with
  | true => rfl
  | false =>
      rw [Bool.not_false, Bool.true_and, if_neg Bool.false_ne_true, if_neg Bool.false_ne_true]
      split <;> rfl

theorem clock_droppedCount (r : DwellReader d) (i : BitVec 4) (ack : Bool) (g : BitVec (d + 1))
    (m : DwellMem d) :
    (r.clock false i ack g m).droppedCount =
      if r.lapped then r.droppedCount + (r.lead - BitVec.ofNat (d + 1) (2 ^ d)).setWidth 16
      else r.droppedCount := by
  unfold clock
  rw [if_neg Bool.false_ne_true]
  dsimp only
  split
  · rfl
  · split <;> rfl

end DwellReader

namespace DwellRecordFifo

variable {s : DwellRecordFifo d}

/-! ## The edges of the write clock -/

theorem wrClock_idle (hbusy : s.wr.wrBusy = false) :
    s.wrClock none =
      { s with
        wr := { s.wr with rdPtrGrayW1 := s.rd.rdPtrGray, rdPtrGrayWr := s.wr.rdPtrGrayW1 } } := by
  simp [wrClock, DwellWriter.clock, DwellWriter.write, DwellWriter.stores, hbusy]

theorem wrClock_latch (hbusy : s.wr.wrBusy = false) (x : DwellSummary) :
    s.wrClock (some x) =
      { s with
        wr :=
          { s.wr with
            rdPtrGrayW1 := s.rd.rdPtrGray
            rdPtrGrayWr := s.wr.rdPtrGrayW1
            hold := x.hold
            wrWord := 0
            wrBusy := true }
        accepted := s.accepted ++ [x] } := by
  simp [wrClock, DwellWriter.clock, DwellWriter.write, DwellWriter.stores, hbusy]

theorem wrClock_store (hbusy : s.wr.wrBusy = true) (hword : s.wr.wrWord ≠ 15#4)
    (summary : Option DwellSummary) :
    s.wrClock summary =
      { s with
        wr :=
          { s.wr with
            rdPtrGrayW1 := s.rd.rdPtrGray
            rdPtrGrayWr := s.wr.rdPtrGrayW1
            wrWord := s.wr.wrWord + 1 }
        mem :=
          Function.update s.mem (s.wr.slot, s.wr.wrWord) (recordWord s.wr.hold s.wr.wrWord) } := by
  cases summary <;>
    simp [wrClock, DwellWriter.clock, DwellWriter.write, DwellWriter.stores, hbusy, hword]

theorem wrClock_publish (hbusy : s.wr.wrBusy = true) (hword : s.wr.wrWord = 15#4)
    (summary : Option DwellSummary) :
    s.wrClock summary =
      { s with
        wr :=
          { s.wr with
            rdPtrGrayW1 := s.rd.rdPtrGray
            rdPtrGrayWr := s.wr.rdPtrGrayW1
            wrBusy := false
            wrPtrBin := s.wr.wrPtrBin + 1
            wrPtrGray := binToGray (s.wr.wrPtrBin + 1) }
        mem :=
          Function.update s.mem (s.wr.slot, s.wr.wrWord) (recordWord s.wr.hold s.wr.wrWord)
        published := s.published + 1 } := by
  cases summary <;>
    simp [wrClock, DwellWriter.clock, DwellWriter.write, DwellWriter.stores, hbusy, hword]

/-! ## Runs -/

structure Inv (s : DwellRecordFifo d) : Prop where
  wrPtrBin : s.wr.wrPtrBin = BitVec.ofNat (d + 1) s.published
  wrPtrGray : s.wr.wrPtrGray = binToGray (BitVec.ofNat (d + 1) s.published)
  rdPtrBin : s.rd.rdPtrBin = BitVec.ofNat (d + 1) s.retired
  wrPtrGrayR1 : s.rd.wrPtrGrayR1 = binToGray (BitVec.ofNat (d + 1) s.seenR1)
  wrPtrGrayRd : s.rd.wrPtrGrayRd = binToGray (BitVec.ofNat (d + 1) s.seenRd)
  behind : s.retired ≤ s.seenRd ∧ s.seenRd ≤ s.seenR1 ∧ s.seenR1 ≤ s.published
  seen : s.seen ≤ s.retired + 2 ^ d
  count : s.accepted.length = if s.wr.wrBusy then s.published + 1 else s.published
  /-- the record being stored, up to the next word -/
  storing : s.wr.wrBusy = true → ∃ x, s.accepted[s.published]? = some x ∧ s.wr.hold = x.hold ∧
    ∀ i < s.wr.wrWord, s.mem (BitVec.ofNat d s.published, i) = recordWord x.hold i
  stored : ∀ n x i, n < s.published → s.accepted[n]? = some x → s.Intact n i →
    s.mem (BitVec.ofNat d n, i) = recordWord x.hold i
  address : ∀ i n, s.lastIndex = some (i, n) →
    n < s.seenRd ∧ s.rd.rdAddrQ = (BitVec.ofNat d n, i)
  words : ∀ w ∈ s.words, ∀ n, w.record = some n → n < s.seenRd ∧
    ∃ x, s.accepted[n]? = some x ∧ w.data = recordWord x.hold w.index
  delivered : ∀ r ∈ s.delivered, (∀ i, ∃ w ∈ r.2, w.index = i ∧ w.record = some r.1) ∧
    ∃ x, s.accepted[r.1]? = some x ∧
      ∀ w ∈ r.2, w.record = some r.1 → w.data = recordWord x.hold w.index
  ordered : s.delivered.Pairwise (·.1 < ·.1)
  /-- every record behind the read pointer was delivered or dropped, once -/
  accounted : (s.delivered.map Prod.fst ++ s.dropped).Perm (List.range s.retired)
  droppedCount : s.rd.droppedCount.toNat = s.dropped.length

theorem start_inv (mem : DwellMem d) : ({ mem } : DwellRecordFifo d).Inv where
  wrPtrBin := rfl
  wrPtrGray := by simp [binToGray]
  rdPtrBin := rfl
  wrPtrGrayR1 := by simp [binToGray]
  wrPtrGrayRd := by simp [binToGray]
  behind := ⟨Nat.le_refl _, Nat.le_refl _, Nat.le_refl _⟩
  seen := Nat.zero_le _
  count := rfl
  storing := fun h => absurd h Bool.false_ne_true
  stored := fun n _ _ h => absurd h n.not_lt_zero
  address := fun _ _ h => by cases h
  words := fun _ h => by cases h
  delivered := fun _ h => by cases h
  ordered := .nil
  accounted := .nil
  droppedCount := rfl

variable {n : ℕ} {rdAck : Bool} {rdIndex : BitVec 4}

theorem accepted_append {l : List DwellSummary} {x : DwellSummary} (h : l[n]? = some x)
    (l' : List DwellSummary) : (l ++ l')[n]? = some x := by
  obtain ⟨hlt, rfl⟩ := List.getElem?_eq_some_iff.mp h
  rw [List.getElem?_append_left hlt]
  exact h

section

variable (h : s.Inv)

include h

theorem Inv.accepted_of_lt (hn : n < s.published) :
    ∃ x, s.accepted[n]? = some x := by
  have hcount := h.count
  have hlt : n < s.accepted.length := by
    rw [hcount]
    split <;> omega
  exact ⟨_, List.getElem?_eq_getElem hlt⟩

theorem update_other {i : BitVec 4} (v : BitVec 32)
    (hne : BitVec.ofNat d n ≠ BitVec.ofNat d s.published ∨ i ≠ s.wr.wrWord) :
    Function.update s.mem (s.wr.slot, s.wr.wrWord) v (BitVec.ofNat d n, i) =
      s.mem (BitVec.ofNat d n, i) := by
  refine Function.update_of_ne ?_ _ _
  rw [DwellWriter.slot, h.wrPtrBin, slot_ofNat]
  intro heq
  obtain ⟨hslot, hword⟩ := Prod.mk.inj heq
  rcases hne with hne | hne
  · exact hne hslot
  · exact hne hword

theorem update_same (v : BitVec 32) :
    Function.update s.mem (s.wr.slot, s.wr.wrWord) v (BitVec.ofNat d s.published, s.wr.wrWord) =
      v := by
  rw [DwellWriter.slot, h.wrPtrBin, slot_ofNat]
  exact Function.update_self _ _ _

theorem Inv.idle (hbusy : s.wr.wrBusy = false) : (s.wrClock none).Inv := by
  rw [wrClock_idle hbusy]
  exact { h with }

theorem Inv.latch (hbusy : s.wr.wrBusy = false) (x : DwellSummary) :
    (s.wrClock (some x)).Inv := by
  have hlen : s.accepted.length = s.published := by simpa [hbusy] using h.count
  rw [wrClock_latch hbusy]
  exact
    { h with
      count := by
        show (s.accepted ++ [x]).length = s.published + 1
        rw [List.length_append, hlen]
        rfl
      storing := by
        intro _
        refine ⟨x, ?_, rfl, fun i hi => absurd hi (by simp)⟩
        show (s.accepted ++ [x])[s.published]? = some x
        rw [← hlen]
        exact List.getElem?_concat_length
      stored := by
        intro n y i hn hy hintact
        have hn : n < s.published := hn
        obtain ⟨z, hz⟩ := h.accepted_of_lt hn
        have hsame : some z = some y := (accepted_append hz [x]).symm.trans hy
        refine h.stored n y i hn (hz.trans hsame) (hintact.imp id fun hlap => ⟨hlap.1, ?_⟩)
        intro hb
        exact absurd (hbusy.symm.trans hb) Bool.false_ne_true
      words := by
        intro w hw n hn
        obtain ⟨hseen, y, hy, hdata⟩ := h.words w hw n hn
        exact ⟨hseen, y, accepted_append hy [x], hdata⟩
      delivered := by
        intro r hr
        obtain ⟨hall, y, hy, hdata⟩ := h.delivered r hr
        exact ⟨hall, y, accepted_append hy [x], hdata⟩ }

theorem Inv.store (hbusy : s.wr.wrBusy = true) (hword : s.wr.wrWord ≠ 15#4)
    (summary : Option DwellSummary) : (s.wrClock summary).Inv := by
  rw [wrClock_store hbusy hword]
  exact
    { h with
      storing := by
        intro _
        obtain ⟨x, hx, hhold, hwords⟩ := h.storing hbusy
        refine ⟨x, hx, hhold, fun i hi => ?_⟩
        have hi : i < s.wr.wrWord + 1 := hi
        by_cases hlast : i = s.wr.wrWord
        · rw [hlast, ← hhold]
          exact update_same h _
        · rw [← hwords i (by bv_omega)]
          exact update_other h _ (.inr hlast)
      stored := by
        intro n x i hn hx hintact
        have hn : n < s.published := hn
        rcases hintact with hin | ⟨hlap, hstored⟩
        · rw [← h.stored n x i hn hx (.inl hin)]
          exact update_other h _ (.inl (slot_ne hn hin))
        · have hi : s.wr.wrWord + 1 ≤ i := hstored hbusy
          rw [← h.stored n x i hn hx (.inr ⟨hlap, fun _ => by bv_omega⟩)]
          exact update_other h _ (.inr (by bv_omega)) }

theorem Inv.publish (hbusy : s.wr.wrBusy = true) (hword : s.wr.wrWord = 15#4)
    (summary : Option DwellSummary) : (s.wrClock summary).Inv := by
  rw [wrClock_publish hbusy hword]
  have hnext : s.wr.wrPtrBin + 1 = BitVec.ofNat (d + 1) (s.published + 1) := by
    rw [h.wrPtrBin, BitVec.ofNat_add]
    rfl
  exact
    { h with
      wrPtrBin := hnext
      wrPtrGray := congrArg binToGray hnext
      behind := ⟨h.behind.1, h.behind.2.1, Nat.le_succ_of_le h.behind.2.2⟩
      count := by simpa [hbusy] using h.count
      storing := fun hb => absurd hb Bool.false_ne_true
      stored := by
        intro n x i hn hx hintact
        have hn : n < s.published + 1 := hn
        obtain ⟨y, hy, hhold, hwords⟩ := h.storing hbusy
        by_cases hlast : n = s.published
        · subst hlast
          obtain rfl : y = x := Option.some.inj (hy.symm.trans hx)
          by_cases hi : i = s.wr.wrWord
          · rw [hi, ← hhold]
            exact update_same h _
          · rw [← hwords i (by bv_omega)]
            exact update_other h _ (.inr hi)
        · have hin : s.published < n + 2 ^ d := by
            rcases hintact with hin | ⟨hlap, _⟩
            · exact Nat.lt_of_succ_lt hin
            · exact Nat.lt_of_succ_le (Nat.le_of_eq hlap)
          have hn : n < s.published := by omega
          rw [← h.stored n x i hn hx (.inl hin)]
          exact update_other h _ (.inl (slot_ne hn hin)) }

theorem Inv.wrClock (summary : Option DwellSummary) : (s.wrClock summary).Inv := by
  cases hbusy : s.wr.wrBusy with
  | false =>
      cases summary with
      | none => exact h.idle hbusy
      | some x => exact h.latch hbusy x
  | true =>
      by_cases hword : s.wr.wrWord = 15#4
      · exact h.publish hbusy hword summary
      · exact h.store hbusy hword summary

end

/-! ### The edges of the read clock -/

theorem Inv.wrBinInRd (h : s.Inv) : s.rd.wrBinInRd = BitVec.ofNat (d + 1) s.seenRd := by
  rw [DwellReader.wrBinInRd, h.wrPtrGrayRd, grayToBin_binToGray]

theorem retires_stays (hlap : s.rd.lapped = false)
    (hpops : s.rd.pops rdAck = false) : s.retires rdAck = s.retired := by
  rw [retires, hlap, hpops]
  rfl

section Lead

variable (h : s.Inv) (hlaps : s.seenRd < s.retired + 2 * 2 ^ d)

include h hlaps

theorem Inv.lead : s.rd.lead.toNat = s.seenRd - s.retired := by
  rw [DwellReader.lead, h.wrBinInRd, h.rdPtrBin, lead_ofNat h.behind.1 hlaps]

theorem Inv.lapped_iff : s.rd.lapped = true ↔ s.retired + 2 ^ d < s.seenRd := by
  rw [DwellReader.lapped, h.lead hlaps, decide_eq_true_iff]
  omega

theorem Inv.present_iff : (s.rd.wrBinInRd != s.rd.rdPtrBin) = true ↔ s.retired < s.seenRd := by
  have hbehind := h.behind.1
  have hlead := h.lead hlaps
  rw [DwellReader.lead] at hlead
  rw [bne_iff_ne]
  constructor
  · intro hne
    refine Nat.lt_of_le_of_ne hbehind fun heq => hne ?_
    rw [h.wrBinInRd, h.rdPtrBin, heq]
  · intro hlt heq
    rw [heq, BitVec.sub_self] at hlead
    have hzero : s.seenRd - s.retired = 0 := hlead.symm
    omega

theorem Inv.retires_lapped (rdAck : Bool) (hlap : s.rd.lapped = true) :
    s.retires rdAck + 2 ^ d = s.seenRd := by
  have hlt := (h.lapped_iff hlaps).mp hlap
  rw [retires, if_pos hlap, h.lead hlaps]
  omega

theorem Inv.retires_pops (rdAck : Bool) (hpops : s.rd.pops rdAck = true) :
    s.retires rdAck = s.retired + 1 ∧ s.retired < s.seenRd ∧ s.rd.lapped = false := by
  have hparts := hpops
  simp only [DwellReader.pops, Bool.and_eq_true, Bool.not_eq_true'] at hparts
  obtain ⟨⟨hlap, _⟩, hpresent⟩ := hparts
  refine ⟨?_, (h.present_iff hlaps).mp hpresent, hlap⟩
  rw [retires, hlap, if_neg Bool.false_ne_true, if_pos hpops]

theorem Inv.retires_bounds (rdAck : Bool) :
    s.retired ≤ s.retires rdAck ∧ s.retires rdAck ≤ s.seenRd ∧
      s.seenRd ≤ s.retires rdAck + 2 ^ d := by
  have hbehind := h.behind.1
  cases hlap : s.rd.lapped with
  | true =>
      have hto := h.retires_lapped hlaps rdAck hlap
      have hlt := (h.lapped_iff hlaps).mp hlap
      omega
  | false =>
      have hle : ¬s.retired + 2 ^ d < s.seenRd := by
        rw [← h.lapped_iff hlaps, hlap]
        exact Bool.false_ne_true
      cases hpops : s.rd.pops rdAck with
      | true =>
          obtain ⟨hto, hlt, _⟩ := h.retires_pops hlaps rdAck hpops
          omega
      | false =>
          rw [retires_stays hlap hpops]
          omega

theorem Inv.rdClock_rdPtrBin (rdIndex : BitVec 4) (rdAck takes : Bool) :
    (s.rdClock rdIndex rdAck takes).rd.rdPtrBin =
      BitVec.ofNat (d + 1) (s.retires rdAck) := by
  refine (s.rd.clock_rdPtrBin rdIndex rdAck s.wr.wrPtrGray s.mem).trans ?_
  cases hlap : s.rd.lapped with
  | true =>
      have hto := h.retires_lapped hlaps rdAck hlap
      rw [if_pos rfl, h.wrBinInRd, BitVec.ofNat_sub_ofNat_of_le, ← hto, Nat.add_sub_cancel]
      · exact Nat.pow_lt_pow_right (by omega) (Nat.lt_succ_self d)
      · omega
  | false =>
      rw [if_neg Bool.false_ne_true]
      cases hpops : s.rd.pops rdAck with
      | true =>
          rw [if_pos rfl, h.rdPtrBin, (h.retires_pops hlaps rdAck hpops).1, BitVec.ofNat_add]
          rfl
      | false =>
          rw [if_neg Bool.false_ne_true, h.rdPtrBin, retires_stays hlap hpops]

theorem Inv.rdClock_droppedCount (rdIndex : BitVec 4) (rdAck takes : Bool)
    (hfits : s.rd.droppedCount.toNat + (s.seenRd - (s.retired + 2 ^ d)) < 2 ^ 16) :
    (s.rdClock rdIndex rdAck takes).rd.droppedCount.toNat =
      (s.rdClock rdIndex rdAck takes).dropped.length := by
  have hcount := h.droppedCount
  have hlead := h.lead hlaps
  have hskip : (s.rdClock rdIndex rdAck takes).dropped =
    if s.rd.lapped then s.dropped ++ List.range' s.retired (s.rd.lead.toNat - 2 ^ d)
    else s.dropped := rfl
  refine (congrArg BitVec.toNat
    (s.rd.clock_droppedCount rdIndex rdAck s.wr.wrPtrGray s.mem)).trans ?_
  rw [hskip]
  cases hlap : s.rd.lapped with
  | true =>
      have hdepth : (BitVec.ofNat (d + 1) (2 ^ d)).toNat = 2 ^ d := by
        rw [BitVec.toNat_ofNat, Nat.mod_eq_of_lt]
        exact Nat.pow_lt_pow_right (by omega) (Nat.lt_succ_self d)
      have hlt : 2 ^ d < s.rd.lead.toNat := of_decide_eq_true hlap
      have hskips : (s.rd.lead - BitVec.ofNat (d + 1) (2 ^ d)).toNat = s.rd.lead.toNat - 2 ^ d := by
        rw [BitVec.toNat_sub_of_le, hdepth]
        rw [BitVec.le_def, hdepth]
        exact hlt.le
      rw [if_pos rfl, if_pos rfl, BitVec.toNat_add, BitVec.toNat_setWidth, hskips, hcount,
        List.length_append, List.length_range']
      rw [hcount] at hfits
      have hsmall : s.rd.lead.toNat - 2 ^ d < 2 ^ 16 := by omega
      rw [Nat.mod_eq_of_lt hsmall, Nat.mod_eq_of_lt (by omega)]
  | false =>
      rw [if_neg Bool.false_ne_true, if_neg Bool.false_ne_true, hcount]

end Lead

theorem rdClock_rdValid (rdIndex : BitVec 4) (rdAck takes : Bool) :
    (s.rdClock rdIndex rdAck takes).rd.rdValid = (s.rd.wrBinInRd != s.rd.rdPtrBin) :=
  (s.rd.clock_always rdIndex rdAck s.wr.wrPtrGray s.mem).1

theorem Inv.fetched (h : s.Inv) (hproper : s.Proper (.rdClock rdIndex rdAck true))
    (hclean : s.Clean (.rdClock rdIndex rdAck true))
    (hn : (s.fetched rdIndex).record = some n) :
    n < s.seenRd ∧ ∃ x, s.accepted[n]? = some x ∧
      (s.fetched rdIndex).data = recordWord x.hold rdIndex := by
  obtain ⟨⟨i, m⟩, hlast, hm⟩ := Option.bind_eq_some_iff.mp hn
  split at hm
  · rename_i hrest
    have hrest : m = s.retired := hrest
    cases hm
    subst hrest
    obtain rfl : i = rdIndex := by
      have hheld := hproper.1 rfl
      rw [hlast] at hheld
      exact Option.some.inj hheld
    obtain ⟨hseen, haddr⟩ := h.address i _ hlast
    have hpublished : s.retired < s.published := by
      have := h.behind
      omega
    obtain ⟨x, hx⟩ := h.accepted_of_lt hpublished
    refine ⟨hseen, x, hx, ?_⟩
    show s.mem s.rd.rdAddrQ = _
    rw [haddr]
    exact h.stored _ x i hpublished hx (hclean.1 rfl hlast)
  · cases hm

theorem Inv.ack_pops (h : s.Inv) {takes : Bool}
    (hclean : s.Clean (.rdClock rdIndex true takes)) : s.rd.pops true = true := by
  obtain ⟨_, hack, hlaps, _⟩ := hclean
  obtain ⟨hnear, hwhole⟩ := hack rfl
  obtain ⟨w, hw, _, hrecord⟩ := hwhole 0
  have hlap : s.rd.lapped = false := by
    rw [← Bool.not_eq_true, h.lapped_iff hlaps]
    omega
  have hpresent := (h.present_iff hlaps).mpr (h.words w hw _ hrecord).1
  rw [DwellReader.pops, hlap, hpresent]
  rfl

theorem Inv.rdClock_accounted (h : s.Inv) {takes : Bool}
    (hclean : s.Clean (.rdClock rdIndex rdAck takes)) :
    ((s.rdClock rdIndex rdAck takes).delivered.map Prod.fst ++
        (s.rdClock rdIndex rdAck takes).dropped).Perm
      (List.range (s.retires rdAck)) := by
  have hlaps := hclean.2.2.1
  have hdelivered : (s.rdClock rdIndex rdAck takes).delivered =
    if rdAck then s.delivered ++ [(s.retired, s.words)] else s.delivered := rfl
  have hdropped : (s.rdClock rdIndex rdAck takes).dropped =
    if s.rd.lapped then s.dropped ++ List.range' s.retired (s.rd.lead.toNat - 2 ^ d)
    else s.dropped := rfl
  rw [hdelivered, hdropped]
  cases rdAck with
  | true =>
      obtain ⟨hto, _, hlap⟩ := h.retires_pops hlaps true (h.ack_pops hclean)
      rw [if_pos rfl, hlap, if_neg Bool.false_ne_true, hto, List.range_succ, List.map_append,
        List.append_assoc]
      have hswap : ([s.retired] ++ s.dropped).Perm (s.dropped ++ [s.retired]) :=
        List.perm_append_comm
      refine (hswap.append_left _).trans ?_
      rw [← List.append_assoc]
      exact h.accounted.append_right _
  | false =>
      rw [if_neg Bool.false_ne_true]
      cases hlap : s.rd.lapped with
      | true =>
          have hrange : List.range (s.retires false) =
              List.range s.retired ++ List.range' s.retired (s.rd.lead.toNat - 2 ^ d) := by
            rw [retires, if_pos hlap, List.range_eq_range', List.range_eq_range']
            have hcat := List.range'_append_1 (s := 0) (m := s.retired)
              (n := s.rd.lead.toNat - 2 ^ d)
            rw [Nat.zero_add] at hcat
            exact hcat.symm
          rw [if_pos rfl, hrange, ← List.append_assoc]
          exact h.accounted.append_right _
      | false =>
          have hpops : s.rd.pops false = false := by
            rw [DwellReader.pops, Bool.and_false, Bool.false_and]
          rw [if_neg Bool.false_ne_true, retires_stays hlap hpops]
          exact h.accounted

theorem Inv.rdClock (h : s.Inv) {takes : Bool} (hproper : s.Proper (.rdClock rdIndex rdAck takes))
    (hclean : s.Clean (.rdClock rdIndex rdAck takes)) : (s.rdClock rdIndex rdAck takes).Inv := by
  have hlaps := hclean.2.2.1
  have hbounds := h.retires_bounds hlaps rdAck
  have hbehind := h.behind
  obtain ⟨hvalid, haddr, _, hr1, hrd⟩ :=
    s.rd.clock_always rdIndex rdAck s.wr.wrPtrGray s.mem
  exact
    { wrPtrBin := h.wrPtrBin
      wrPtrGray := h.wrPtrGray
      rdPtrBin := h.rdClock_rdPtrBin hlaps rdIndex rdAck takes
      wrPtrGrayR1 := hr1.trans h.wrPtrGray
      wrPtrGrayRd := hrd.trans h.wrPtrGrayR1
      behind := ⟨Nat.le_trans hbounds.2.1 hbehind.2.1, hbehind.2.2, Nat.le_refl _⟩
      seen := hbounds.2.2
      count := h.count
      storing := h.storing
      stored := h.stored
      address := by
        intro i n hlast
        have hlast : (if (s.rdClock rdIndex rdAck takes).rd.rdValid = true
          then some (rdIndex, s.retired) else none) = some (i, n) := hlast
        split at hlast
        · rename_i hv
          cases hlast
          have hseen := (h.present_iff hlaps).mp (rdClock_rdValid (s := s) .. ▸ hv)
          refine ⟨Nat.lt_of_lt_of_le hseen hbehind.2.1, haddr.trans ?_⟩
          rw [h.rdPtrBin, slot_ofNat]
        · cases hlast
      words := by
        intro w hw n hn
        show n < s.seenR1 ∧ _
        have hw : w ∈ if (rdAck || !(s.rdClock rdIndex rdAck takes).rd.rdValid) = true then []
          else if takes = true then s.words ++ [s.fetched rdIndex] else s.words := hw
        suffices hold : n < s.seenRd ∧
            ∃ x, s.accepted[n]? = some x ∧ w.data = recordWord x.hold w.index from
          ⟨Nat.lt_of_lt_of_le hold.1 hbehind.2.1, hold.2⟩
        split at hw
        · cases hw
        · cases takes with
          | false => exact h.words w hw n hn
          | true =>
              rcases List.mem_append.mp hw with hw | hw
              · exact h.words w hw n hn
              · obtain rfl := List.mem_singleton.mp hw
                exact h.fetched hproper hclean hn
      delivered := by
        intro r hr
        have hr : r ∈ if rdAck = true then s.delivered ++ [(s.retired, s.words)]
          else s.delivered := hr
        cases rdAck with
        | false => exact h.delivered r hr
        | true =>
            rcases List.mem_append.mp hr with hr | hr
            · exact h.delivered r hr
            · obtain rfl := List.mem_singleton.mp hr
              have hwhole := (hclean.2.1 rfl).2
              refine ⟨hwhole, ?_⟩
              obtain ⟨w, hw, _, hrecord⟩ := hwhole 0
              obtain ⟨_, x, hx, _⟩ := h.words w hw _ hrecord
              refine ⟨x, hx, fun v hv hvrecord => ?_⟩
              obtain ⟨_, y, hy, hdata⟩ := h.words v hv _ hvrecord
              obtain rfl : y = x := Option.some.inj (hy.symm.trans hx)
              exact hdata
      ordered := by
        show (if rdAck = true then s.delivered ++ [(s.retired, s.words)]
          else s.delivered).Pairwise (·.1 < ·.1)
        split
        · refine List.pairwise_append.mpr ⟨h.ordered, List.pairwise_singleton _ _, ?_⟩
          intro r hr v hv
          obtain rfl := List.mem_singleton.mp hv
          have hmem : r.1 ∈ s.delivered.map Prod.fst ++ s.dropped :=
            List.mem_append_left _ (List.mem_map_of_mem hr)
          exact List.mem_range.mp (h.accounted.mem_iff.mp hmem)
        · exact h.ordered
      accounted := h.rdClock_accounted hclean
      droppedCount := h.rdClock_droppedCount hlaps rdIndex rdAck takes hclean.2.2.2 }

/-! ## Delivery -/

/-- Record `n` is still there: not behind the read pointer, nor lapped as far as the read
side has seen.  Its words are in the memory, unless the writer is over them, or on
their way from the hold registers. -/
def Held (s : DwellRecordFifo d) (n : ℕ) : Prop :=
  s.retired ≤ n ∧ s.seen ≤ n + 2 ^ d ∧ ∃ x, s.accepted[n]? = some x ∧
    (n < s.published → ∀ i, s.Intact n i → s.mem (BitVec.ofNat d n, i) = recordWord x.hold i) ∧
    (s.published ≤ n → s.wr.wrBusy = true ∧ s.wr.hold = x.hold)

structure Delivers (s : DwellRecordFifo d) : Prop where
  /-- words read with `rd_valid` high and the read pointer at rest are of one summary -/
  atomic : ∀ n, (∃ w ∈ s.words, w.record = some n) → ∃ x ∈ s.accepted,
    ∀ w ∈ s.words, w.record = some n → w.data = recordWord x.hold w.index
  whole : ∀ r ∈ s.delivered, ∃ x, s.accepted[r.1]? = some x ∧
    ∀ i, ∃ w ∈ r.2, w.index = i ∧ w.record = some r.1 ∧ w.data = recordWord x.hold i
  /-- in the order of publication, each at most once -/
  ordered : s.delivered.Pairwise (·.1 < ·.1)
  complete : ∀ n < s.accepted.length,
    n ∈ s.delivered.map Prod.fst ∨ n ∈ s.dropped ∨ s.Held n
  once : ∀ n, (n ∈ s.dropped → n ∉ s.delivered.map Prod.fst ∧ ¬s.Held n) ∧
    (n ∈ s.delivered.map Prod.fst → ¬s.Held n)
  counted : s.dropped.Nodup ∧ s.rd.droppedCount.toNat = s.dropped.length

theorem Inv.held (h : s.Inv) (hn : n < s.accepted.length) (hretired : s.retired ≤ n) :
    s.Held n := by
  have hseen := h.seen
  have hcount := h.count
  obtain ⟨x, hx⟩ : ∃ x, s.accepted[n]? = some x := ⟨_, List.getElem?_eq_getElem hn⟩
  refine ⟨hretired, by omega, x, hx, fun hlt i hi => h.stored n x i hlt hx hi, fun hle => ?_⟩
  cases hbusy : s.wr.wrBusy with
  | false =>
      rw [hbusy, if_neg Bool.false_ne_true] at hcount
      omega
  | true =>
      rw [hbusy, if_pos rfl] at hcount
      obtain ⟨y, hy, hhold, _⟩ := h.storing hbusy
      have heq : n = s.published := by omega
      obtain rfl : y = x := Option.some.inj ((heq ▸ hy).symm.trans hx)
      exact ⟨rfl, hhold⟩

theorem Inv.delivers (h : s.Inv) : s.Delivers where
  atomic := by
    rintro n ⟨w, hw, hn⟩
    obtain ⟨_, x, hx, _⟩ := h.words w hw n hn
    refine ⟨x, List.mem_of_getElem? hx, fun v hv hvn => ?_⟩
    obtain ⟨_, y, hy, hdata⟩ := h.words v hv n hvn
    obtain rfl : y = x := Option.some.inj (hy.symm.trans hx)
    exact hdata
  whole := by
    intro r hr
    obtain ⟨hall, x, hx, hdata⟩ := h.delivered r hr
    refine ⟨x, hx, fun i => ?_⟩
    obtain ⟨w, hw, rfl, hrecord⟩ := hall i
    exact ⟨w, hw, rfl, hrecord, hdata w hw hrecord⟩
  ordered := h.ordered
  complete := by
    intro n hn
    by_cases hretired : n < s.retired
    · have hmem := h.accounted.mem_iff.mpr (List.mem_range.mpr hretired)
      exact (List.mem_append.mp hmem).imp id .inl
    · exact .inr (.inr (h.held hn (Nat.le_of_not_lt hretired)))
  once := by
    intro n
    have hnodup := h.accounted.nodup_iff.mpr List.nodup_range
    have hbehind : n ∈ s.delivered.map Prod.fst ++ s.dropped → ¬s.Held n := by
      intro hn hheld
      have hlt := List.mem_range.mp (h.accounted.mem_iff.mp hn)
      exact Nat.not_le_of_lt hlt hheld.1
    have hdisjoint := (List.nodup_append.mp hnodup).2.2
    exact ⟨fun hn => ⟨fun hdel => hdisjoint n hdel n hn rfl,
        hbehind (List.mem_append_right _ hn)⟩,
      fun hn => hbehind (List.mem_append_left _ hn)⟩
  counted := by
    have hnodup := h.accounted.nodup_iff.mpr List.nodup_range
    exact ⟨(List.nodup_append.mp hnodup).2.1, h.droppedCount⟩

/-- Records are delivered whole or counted as dropped in every run whose steps are
clean. -/
theorem dwellRecordFifo_delivers {mem : DwellMem d} {acts : List Act}
    (h : Lib.Steps step (fun s a => s.Proper a ∧ s.Clean a) ({ mem } : DwellRecordFifo d) acts s) :
    s.Delivers := by
  refine (h.invariant (P := Inv) (start_inv mem) ?_).delivers
  intro a act b ha hok hstep
  cases act with
  | wrClock summary =>
      cases hstep
      exact ha.wrClock summary
  | rdClock rdIndex rdAck takes =>
      cases hstep
      exact ha.rdClock hok.1 hok.2

instance (s : DwellRecordFifo d) : (a : Act) → Decidable (s.Proper a)
  | .wrClock _ => inferInstanceAs (Decidable True)
  | .rdClock _ _ _ => inferInstanceAs (Decidable ((_ → _) ∧ (_ → _ ∧ _)))

instance (s : DwellRecordFifo d) (n : ℕ) (i : BitVec 4) : Decidable (s.Intact n i) :=
  inferInstanceAs (Decidable (_ ∨ _ ∧ _))

instance (s : DwellRecordFifo d) : (a : Act) → Decidable (s.Clean a)
  | .wrClock _ => inferInstanceAs (Decidable True)
  | .rdClock _ _ _ => inferInstanceAs (Decidable ((_ → _ → _) ∧ (_ → _ ∧ _) ∧ _ ∧ _))

section Runs

/-- A summary, and `k` of the sixteen clocks that store it. -/
def write (n : ℕ) (k : ℕ) : List Act :=
  .wrClock (some { energySum := .ofNat 64 n, peak := .ofNat 32 n }) :: .replicate k (.wrClock none)

def look (k : ℕ) : List Act := .replicate k (.rdClock 0 false false)

def readWord (i : ℕ) : List Act :=
  [.rdClock (.ofNat 4 i) false false, .rdClock (.ofNat 4 i) false true]

/-- The first record is read and given back; five more are written before the next
look. -/
def deliveredThenLapped : List Act :=
  write 1 16 ++ look 3 ++ (List.range 16).flatMap readWord ++ [.rdClock 0 true false] ++
    [2, 3, 4, 5, 6].flatMap (fun n => write n 16) ++ look 4

/-- Four records wait, and a fifth summary is stored while the first record is read. -/
def storedUnderReader : List Act :=
  [1, 2, 3, 4].flatMap (fun n => write n 16) ++ look 3 ++ readWord 0 ++ write 5 3 ++ readWord 2

def empty : DwellRecordFifo 2 where
  mem := fun _ => 0

/-- One record delivered, one counted as dropped, four held. -/
theorem dwellRecordFifo_delivers_deliveredThenLapped :
    ∃ s, Lib.Steps step (fun s a => s.Proper a ∧ s.Clean a) empty deliveredThenLapped s ∧
      s.delivered.map Prod.fst = [0] ∧ s.dropped = [1] ∧ s.rd.droppedCount = 1 ∧ s.Delivers := by
  have hrun : (Lib.exec step (fun s a => s.Proper a ∧ s.Clean a) empty deliveredThenLapped).any
      (fun s => s.delivered.map Prod.fst = [0] ∧ s.dropped = [1] ∧ s.rd.droppedCount = 1) =
        true := by
    decide +kernel
  obtain ⟨s, hs, hstate⟩ := (Option.any_eq_true ..).mp hrun
  obtain ⟨hdelivered, hdropped, hcount⟩ := of_decide_eq_true hstate
  exact ⟨s, .of_exec hs, hdelivered, hdropped, hcount, dwellRecordFifo_delivers (.of_exec hs)⟩

/-- The words read are of no single summary. -/
theorem dwellRecordFifo_torn :
    ¬∀ acts (s : DwellRecordFifo 2), Lib.Steps step Proper empty acts s → s.Delivers := by
  intro h
  have hrun : (Lib.exec step Proper empty storedUnderReader).any (fun s =>
      s.words = [⟨some 0, 0, 1⟩, ⟨some 0, 2, 5⟩] ∧
        ∀ x ∈ s.accepted, recordWord x.hold 0 = 1 → recordWord x.hold 2 ≠ 5) = true := by
    decide +kernel
  obtain ⟨s, hs, hstate⟩ := (Option.any_eq_true ..).mp hrun
  obtain ⟨hwords, hmixed⟩ := of_decide_eq_true hstate
  obtain ⟨x, hx, hall⟩ := (h _ s (.of_exec hs)).atomic 0 (by simp [hwords])
  rw [hwords] at hall
  have hfirst : (1 : BitVec 32) = recordWord x.hold 0 := hall ⟨some 0, 0, 1⟩ (by simp) rfl
  have hsecond : (5 : BitVec 32) = recordWord x.hold 2 := hall ⟨some 0, 2, 5⟩ (by simp) rfl
  exact hmixed x hx hfirst.symm hsecond.symm

end Runs

end DwellRecordFifo

end BladeRF
