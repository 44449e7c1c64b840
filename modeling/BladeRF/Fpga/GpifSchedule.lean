/-
# `Fpga.GpifSchedule` — where every register stands at each clock of a transaction

Three downcounters that start in different states decide how long the machine
stays in which state.  Counted from the first clock of its set-up state, every
control register is a closed form of the age of the transaction; what one clock
does to the machine is then one of eight moves.
-/
import BladeRF.Fpga.GpifSystem

namespace BladeRF
namespace Gpif

/-! ## Schedules -/

structure Quiet (c : Fsm) : Prop where
  state : c.state = .idle
  mode : c.gpifMode = .idle
  rxmRd : c.rxmFifoRd = false
  rxRd : c.rxFifoRd = false
  txmWr : c.txmFifoWr = false
  txWr : c.txFifoWr = false
  set : c.underrunSet = false

/-- A read of age `n`. -/
structure Reading (size n : ℕ) (c : Fsm) : Prop where
  bound : n ≤ size + 10
  state : c.state =
    if n ≤ 2 then .setupRd else if n = 3 then .metaRead else if n < size then .sampleRead
    else .finished
  ack : n ≤ 2 → c.ackDowncount = 2 - n
  dma : c.dmaDowncount = max ((size : ℤ) - 1 - n) (-1)
  hdr : c.metaDowncount = max (4 - (n : ℤ)) 0
  fini : c.finiDowncount = 10 - (n - size)
  metaEn : c.rxMetaEn = true
  finishing : size ≤ n → c.finishingRx = true
  mode : c.gpifMode =
    if n = 0 then .idle else if n ≤ 4 then .rxMeta else if n ≤ size then .rx else .idle
  rxmRd : c.rxmFifoRd = decide (1 ≤ n ∧ n ≤ 4)
  rxRd : c.rxFifoRd = decide (5 ≤ n ∧ n ≤ size)
  txmWr : c.txmFifoWr = false
  txWr : c.txFifoWr = false
  set : c.underrunSet = false
  clr : c.underrunClr = decide (5 ≤ n ∧ n ≤ size)

/-- A write of age `n`; `ok` is the decision of `META_WRITE`, free until it is
made. -/
structure Writing (size n : ℕ) (ok : Bool) (c : Fsm) : Prop where
  bound : n ≤ size + 15
  state : c.state =
    if n ≤ 4 then .setupWr else if n ≤ 8 then .metaWrite
    else if n ≤ size + 4 then (if ok then .sampleWrite else .sampleWriteIgnore) else .finished
  ack : n ≤ 4 → c.ackDowncount = 4 - n
  dma : c.dmaDowncount = max (min ((size : ℤ) - 1) (size + 4 - n)) (-1)
  hdr : c.metaDowncount =
    if n ≤ 8 then min 4 (9 - (n : ℤ)) else if ok then max (13 - (n : ℤ)) 0 else 0
  fini : c.finiDowncount = 10 - (n - (size + 5))
  metaEn : c.txMetaEn = true
  finishing : c.finishingRx = false
  mode : c.gpifMode = .idle ∨ c.gpifMode = .tx ∨ c.gpifMode = .txMeta ∨ c.gpifMode = .txIgnore
  modeHdr : 9 ≤ n → n ≤ 12 → c.gpifMode = .txMeta ∨ c.gpifMode = .txIgnore
  rxmRd : c.rxmFifoRd = false
  rxRd : c.rxFifoRd = false
  txmWr : c.txmFifoWr = (ok && decide (10 ≤ n ∧ n ≤ 13))
  txWr : c.txFifoWr = (ok && decide (10 ≤ n ∧ n ≤ size + 5))
  set : c.underrunSet = (!ok && decide (10 ≤ n ∧ n ≤ size + 5))
  clr : c.underrunClr = false

section

variable {size n : ℕ} {ok : Bool} {c : Fsm}
variable (u : Bool) (p : Pins) (sz : ℕ) (canRx crit canTx : Bool) (w : Dword)

abbrev after (c : Fsm) : Fsm := fsmCombProc ⟨u, true, false⟩ p sz canRx crit canTx w c

/-- The assignments in front of the case statement, in sample-META mode. -/
abbrev start (c : Fsm) : Fsm := c.defaults ⟨u, true, false⟩ p

/-! ## The branches in sample-META mode -/

theorem after_setupRd (hs : c.state = .setupRd) (hm : c.rxMetaEn = true) :
    after u p sz canRx crit canTx w c =
      { start u p c with
        gpifMode := .rxMeta
        rxmFifoRd := true
        dmaAcks := if c.ackDowncount ≠ 2 then acknowledge c.rxCurrentDma else {}
        state := if c.ackDowncount = 0 then .metaRead else .setupRd
        ackDowncount := c.ackDowncount - 1
        dmaDowncount := max (c.dmaDowncount - 1) (-1)
        metaDowncount := max (c.metaDowncount - 1) (-1) } := by
  simp [after, start, fsmCombProc, Fsm.parsing, hs, whenSetupRd, hm, ackDowncountRead, Fsm.defaults]

theorem after_metaRead (hs : c.state = .metaRead) :
    after u p sz canRx crit canTx w c =
      { start u p c with
        gpifMode := .rxMeta
        rxmFifoRd := true
        state := if c.metaDowncount = 1 then .sampleRead else .metaRead
        dmaDowncount := max (c.dmaDowncount - 1) (-1)
        metaDowncount := max (c.metaDowncount - 1) (-1) } := by
  simp [after, start, fsmCombProc, Fsm.parsing, hs, whenMetaRead, Fsm.defaults]

theorem after_sampleRead (hs : c.state = .sampleRead) :
    after u p sz canRx crit canTx w c =
      { start u p c with
        gpifMode := .rx
        rxFifoRd := true
        finishingRx := true
        underrunClr := true
        state := if c.dmaDowncount = 0 then .finished else .sampleRead
        dmaDowncount := max (c.dmaDowncount - 1) (-1) } := by
  simp [after, start, fsmCombProc, Fsm.parsing, hs, whenSampleRead, Fsm.defaults]

theorem after_setupWr (hs : c.state = .setupWr) (hm : c.txMetaEn = true)
    (hstop : p.txFaultStop = false) :
    after u p sz canRx crit canTx w c =
      { start u p c with
        dmaAcks := acknowledge c.txCurrentDma
        gpifMode :=
          if c.ackDowncount = 0 then .txMeta else if c.ackDowncount ≠ 4 then .txIgnore
          else c.gpifMode
        ackDowncount := c.ackDowncount - 1
        state := if c.ackDowncount = 0 then .metaWrite else .setupWr } := by
  by_cases h0 : c.ackDowncount = 0 <;>
    simp [after, start, fsmCombProc, hstop, hs, whenSetupWr, hm, h0, ackDowncountWrite,
      Fsm.defaults]

theorem after_metaWrite (hs : c.state = .metaWrite) (hstop : p.txFaultStop = false) :
    after u p sz canRx crit canTx w c =
      { start u p c with
        gpifMode := .txIgnore
        metaBuf := c.metaBuf.shift p.gpifIn
        dmaDowncount := max (c.dmaDowncount - 1) (-1)
        metaDowncount :=
          if c.metaDowncount = 1 ∧ c.metaBuf.admits c.txTimestamp then 4
          else max (c.metaDowncount - 1) (-1)
        state :=
          if c.metaDowncount = 1 then
            if c.metaBuf.admits c.txTimestamp then .sampleWrite else .sampleWriteIgnore
          else .metaWrite } := by
  by_cases h1 : c.metaDowncount = 1 <;> by_cases hok : c.metaBuf.admits c.txTimestamp <;>
    simp [after, start, fsmCombProc, hstop, hs, whenMetaWrite, h1, hok, metaDowncountReset,
      Fsm.defaults]

theorem after_sampleWrite (hs : c.state = .sampleWrite) (hm : c.txMetaEn = true)
    (hstop : p.txFaultStop = false) :
    after u p sz canRx crit canTx w c =
      { start u p c with
        txFifoWr := true
        gpifMode := .txMeta
        state := if c.dmaDowncount = 0 then .finished else .sampleWrite
        dmaDowncount := max (c.dmaDowncount - 1) (-1)
        metaDowncount :=
          if c.metaDowncount > 0 then max (c.metaDowncount - 1) (-1) else c.metaDowncount
        txmFifoWr := decide (c.metaDowncount > 0)
        metaBuf := if c.metaDowncount > 0 then c.metaBuf.shift 0 else c.metaBuf } := by
  by_cases h0 : c.metaDowncount > 0 <;>
    simp [after, start, fsmCombProc, hstop, hs, whenSampleWrite, hm, h0, Fsm.defaults]

theorem after_sampleWriteIgnore (hs : c.state = .sampleWriteIgnore)
    (hstop : p.txFaultStop = false) :
    after u p sz canRx crit canTx w c =
      { start u p c with
        gpifMode := .txIgnore
        underrunSet := true
        state := if c.dmaDowncount = 0 then .finished else .sampleWriteIgnore
        dmaDowncount := max (c.dmaDowncount - 1) (-1) } := by
  simp [after, start, fsmCombProc, hstop, hs, whenSampleWriteIgnore, Fsm.defaults]

theorem after_finished (hs : c.state = .finished)
    (hstop : c.finishingRx = true ∨ p.txFaultStop = false) :
    after u p sz canRx crit canTx w c =
      { start u p c with
        gpifMode := .idle
        finiDowncount := c.finiDowncount - 1
        state := if c.finiDowncount = 0 then .idle else .finished } := by
  rcases hstop with h | h <;>
    simp [after, start, fsmCombProc, Fsm.parsing, h, hs, whenFinished, Fsm.defaults]

/-! ## One clock of a transaction -/

theorem Reading.next (h : Reading size n c) (hsize : 16 ≤ size) (hn : n < size + 10) :
    Reading size (n + 1) (after u p sz canRx crit canTx w c) := by
  have hs := h.state
  have hdma := h.dma
  have hhdr := h.hdr
  have hfini := h.fini
  by_cases h2 : n ≤ 2
  · rw [if_pos h2] at hs
    have hack := h.ack h2
    rw [after_setupRd u p sz canRx crit canTx w hs h.metaEn]
    constructor <;> try dsimp only [start, Fsm.defaults]
    · omega
    · by_cases h0 : n = 2
      · simp [hack, h0]
      · rw [if_neg (by omega), if_pos (by omega)]
    · omega
    · omega
    · omega
    · omega
    · omega
    · rw [if_neg (by omega), if_pos (by omega)]
    · exact (decide_eq_true (by omega)).symm
    · exact (decide_eq_false (by omega)).symm
    · exact (decide_eq_false (by omega)).symm
  rw [if_neg h2] at hs
  by_cases h3 : n = 3
  · rw [if_pos h3] at hs
    rw [after_metaRead u p sz canRx crit canTx w hs]
    constructor <;> try dsimp only [start, Fsm.defaults]
    · omega
    · rw [if_pos (by omega), if_neg (by omega), if_neg (by omega), if_pos (by omega)]
    · omega
    · omega
    · omega
    · omega
    · omega
    · rw [if_neg (by omega), if_pos (by omega)]
    · exact (decide_eq_true (by omega)).symm
    · exact (decide_eq_false (by omega)).symm
    · exact (decide_eq_false (by omega)).symm
  rw [if_neg h3] at hs
  by_cases h4 : n < size
  · rw [if_pos h4] at hs
    rw [after_sampleRead u p sz canRx crit canTx w hs]
    constructor <;> try dsimp only [start, Fsm.defaults]
    · omega
    · by_cases hlast : n + 1 < size
      · rw [if_neg (by omega), if_neg (by omega), if_neg (by omega), if_pos hlast]
      · rw [if_pos (by omega), if_neg (by omega), if_neg (by omega), if_neg hlast]
    · omega
    · omega
    · omega
    · omega
    · exact fun _ => rfl
    · rw [if_neg (by omega), if_neg (by omega), if_pos (by omega)]
    · exact (decide_eq_false (by omega)).symm
    · exact (decide_eq_true (by omega)).symm
    · exact (decide_eq_true (by omega)).symm
  · rw [if_neg h4] at hs
    rw [after_finished u p sz canRx crit canTx w hs (.inl (h.finishing (by omega)))]
    constructor <;> try dsimp only [start, Fsm.defaults]
    · omega
    · rw [if_neg (by omega), if_neg (by omega), if_neg (by omega), if_neg (by omega)]
    · omega
    · omega
    · omega
    · omega
    · exact fun _ => h.finishing (by omega)
    · rw [if_neg (by omega), if_neg (by omega), if_neg (by omega)]
    · exact (decide_eq_false (by omega)).symm
    · exact (decide_eq_false (by omega)).symm
    · exact (decide_eq_false (by omega)).symm

theorem Reading.last (h : Reading size n c) (hsize : 16 ≤ size) (hn : n = size + 10) :
    Quiet (after u p sz canRx crit canTx w c) := by
  have hs := h.state
  rw [if_neg (by omega), if_neg (by omega), if_neg (by omega)] at hs
  have hfini : c.finiDowncount = 0 := by
    have := h.fini
    omega
  rw [after_finished u p sz canRx crit canTx w hs (.inl (h.finishing (by omega))), hfini]
  constructor <;> rfl

section

variable (h : Writing size n ok c)

include h

theorem Writing.undecided (hn : n ≤ 8) (ok' : Bool) :
    Writing size n ok' c where
  bound := h.bound
  state := by
    have := h.state
    split_ifs at this ⊢ <;> exact this
  ack := h.ack
  dma := h.dma
  hdr := by
    have := h.hdr
    rwa [if_pos hn] at this ⊢
  fini := h.fini
  metaEn := h.metaEn
  finishing := h.finishing
  mode := h.mode
  modeHdr := h.modeHdr
  rxmRd := h.rxmRd
  rxRd := h.rxRd
  txmWr := by
    have := h.txmWr
    rwa [decide_eq_false (by omega), Bool.and_false] at this ⊢
  txWr := by
    have := h.txWr
    rwa [decide_eq_false (by omega), Bool.and_false] at this ⊢
  set := by
    have := h.set
    rwa [decide_eq_false (by omega), Bool.and_false] at this ⊢
  clr := h.clr

theorem Writing.next (hsize : 16 ≤ size) (hn : n < size + 15)
    (hstop : p.txFaultStop = false)
    (hok : n = 8 → ok = c.metaBuf.admits c.txTimestamp) :
    Writing size (n + 1) ok (after u p sz canRx crit canTx w c) := by
  have hs := h.state
  have hdma := h.dma
  have hhdr := h.hdr
  have hfini := h.fini
  by_cases h4 : n ≤ 4
  · rw [if_pos h4] at hs
    rw [if_pos (by omega)] at hhdr
    have hack := h.ack h4
    rw [after_setupWr u p sz canRx crit canTx w hs h.metaEn hstop]
    constructor <;> try dsimp only [start, Fsm.defaults]
    · omega
    · by_cases hlast : n = 4
      · rw [if_pos (by omega), if_neg (by omega), if_pos (by omega)]
      · rw [if_neg (by omega), if_pos (by omega)]
    · omega
    · omega
    · rw [if_pos (by omega)]
      omega
    · omega
    · exact h.finishing
    · split_ifs
      · exact .inr (.inr (.inl rfl))
      · exact .inr (.inr (.inr rfl))
      · exact h.mode
    · omega
    · rw [decide_eq_false (by omega), Bool.and_false]
    · rw [decide_eq_false (by omega), Bool.and_false]
    · rw [decide_eq_false (by omega), Bool.and_false]
  rw [if_neg h4] at hs
  by_cases h8 : n ≤ 8
  · rw [if_pos h8] at hs hhdr
    rw [after_metaWrite u p sz canRx crit canTx w hs hstop]
    constructor <;> try dsimp only [start, Fsm.defaults]
    · omega
    · by_cases hlast : n = 8
      · rw [if_pos (by omega), if_neg (c := n + 1 ≤ 4) (by omega),
          if_neg (c := n + 1 ≤ 8) (by omega), if_pos (c := n + 1 ≤ size + 4) (by omega), hok hlast]
      · rw [if_neg (by omega), if_neg (by omega), if_pos (by omega)]
    · omega
    · omega
    · by_cases hlast : n = 8
      · rw [if_neg (c := n + 1 ≤ 8) (by omega), hok hlast]
        by_cases hadm : c.metaBuf.admits c.txTimestamp
        · rw [if_pos ⟨by omega, hadm⟩, if_pos hadm]
          omega
        · rw [if_neg (fun hh => hadm hh.2), if_neg hadm]
          omega
      · rw [if_neg (fun hh => by omega), if_pos (by omega)]
        omega
    · omega
    · exact h.finishing
    · exact .inr (.inr (.inr rfl))
    · exact fun _ _ => .inr rfl
    · rw [decide_eq_false (by omega), Bool.and_false]
    · rw [decide_eq_false (by omega), Bool.and_false]
    · rw [decide_eq_false (by omega), Bool.and_false]
  rw [if_neg h8] at hs hhdr
  by_cases hlen : n ≤ size + 4
  · rw [if_pos hlen] at hs
    cases ok
    · rw [if_neg Bool.false_ne_true] at hs hhdr
      rw [after_sampleWriteIgnore u p sz canRx crit canTx w hs hstop]
      constructor <;> try dsimp only [start, Fsm.defaults]
      · omega
      · rw [if_neg (c := n + 1 ≤ 4) (by omega), if_neg (c := n + 1 ≤ 8) (by omega)]
        by_cases hlast : n = size + 4
        · rw [if_pos (by omega), if_neg (by omega)]
        · rw [if_neg (by omega), if_pos (by omega), if_neg Bool.false_ne_true]
      · omega
      · omega
      · rw [if_neg (by omega), if_neg Bool.false_ne_true]
        exact hhdr
      · omega
      · exact h.finishing
      · exact .inr (.inr (.inr rfl))
      · exact fun _ _ => .inr rfl
      · rfl
      · rfl
      · rw [decide_eq_true (by omega)]
        rfl
    · rw [if_pos rfl] at hs hhdr
      rw [after_sampleWrite u p sz canRx crit canTx w hs h.metaEn hstop]
      constructor <;> try dsimp only [start, Fsm.defaults]
      · omega
      · rw [if_neg (c := n + 1 ≤ 4) (by omega), if_neg (c := n + 1 ≤ 8) (by omega)]
        by_cases hlast : n = size + 4
        · rw [if_pos (by omega), if_neg (by omega)]
        · rw [if_neg (by omega), if_pos (by omega), if_pos rfl]
      · omega
      · omega
      · rw [if_neg (c := n + 1 ≤ 8) (by omega), if_pos rfl]
        split_ifs <;> omega
      · omega
      · exact h.finishing
      · exact .inr (.inr (.inl rfl))
      · exact fun _ _ => .inl rfl
      · rw [Bool.true_and]
        exact decide_eq_decide.mpr (by omega)
      · exact (decide_eq_true (by omega)).symm
      · rfl
  · rw [if_neg hlen] at hs
    rw [after_finished u p sz canRx crit canTx w hs (.inr hstop)]
    constructor <;> try dsimp only [start, Fsm.defaults]
    · omega
    · rw [if_neg (by omega), if_neg (by omega), if_neg (by omega), if_neg (by omega)]
    · omega
    · omega
    · rw [if_neg (by omega)]
      cases ok
      · simpa using hhdr
      · rw [if_pos rfl] at hhdr ⊢
        omega
    · omega
    · exact h.finishing
    · exact .inl rfl
    · omega
    · rw [decide_eq_false (by omega), Bool.and_false]
    · rw [decide_eq_false (by omega), Bool.and_false]
    · rw [decide_eq_false (by omega), Bool.and_false]

theorem Writing.last (hsize : 16 ≤ size) (hn : n = size + 15)
    (hstop : p.txFaultStop = false) : Quiet (after u p sz canRx crit canTx w c) := by
  have hs := h.state
  rw [if_neg (by omega), if_neg (by omega), if_neg (by omega)] at hs
  have hfini : c.finiDowncount = 0 := by
    have := h.fini
    omega
  rw [after_finished u p sz canRx crit canTx w hs (.inr hstop), hfini]
  constructor <;> rfl

theorem Writing.parsing : c.parsing = true := by
  have hs := h.state
  split_ifs at hs <;> simp [Fsm.parsing, hs, h.finishing]

theorem Writing.stop (hstop : p.txFaultStop = true) :
    Quiet (after u p sz canRx crit canTx w c) := by
  have heq : after u p sz canRx crit canTx w c = (start u p c).whenStopped := by
    simp only [after, fsmCombProc, hstop, h.parsing, Bool.and_true, if_true]
  rw [heq]
  constructor <;> rfl

end

/-! ## The arbitration -/

/-- The assignments of `IDLE`. -/
abbrev idled (c : Fsm) : Fsm :=
  { start u p c with
    gpifMode := .idle
    metaBuf := {}
    metaDowncount := 4
    finiDowncount := 10
    finishingRx := false }

theorem idled_quiet (hs : c.state = .idle) : Quiet (idled u p c) := by
  constructor
  · exact hs
  all_goals rfl

abbrev grantRx (c : Fsm) : Fsm :=
  { idled u p c with
    dmaDowncount := sz - 1, ackDowncount := 2, rxCurrentDma := .rx0, state := .setupRd }

abbrev grantTx (c : Fsm) : Fsm :=
  { idled u p c with
    dmaDowncount := sz - 1, ackDowncount := 4, txCurrentDma := .tx3, state := .setupWr }

theorem after_idle (hs : c.state = .idle) :
    (Quiet (after u p sz canRx crit canTx w c) ∧
        (after u p sz canRx crit canTx w c).underrunClr = false) ∨
      (canRx = true ∧ c.dmaIdle = true ∧ after u p sz canRx crit canTx w c = grantRx u p sz c) ∨
      (canTx = true ∧ c.dmaIdle = true ∧ after u p sz canRx crit canTx w c = grantTx u p sz c) := by
  have heq : after u p sz canRx crit canTx w c =
      if c.dmaIdle then
        if canRx && crit then grantRx u p sz c
        else if canTx && !p.txFaultStop then grantTx u p sz c
        else if canRx then grantRx u p sz c
        else { idled u p c with dmaDowncount := sz - 1 }
      else idled u p c := by
    have hp : (p.txFaultStop && c.parsing) = false := by simp [Fsm.parsing, hs]
    simp only [after, fsmCombProc, hp, hs, whenIdle, Bool.false_eq_true, if_false]
    rfl
  rw [heq]
  split_ifs with hidle hcrit htx hrx
  · exact .inr (.inl ⟨(Bool.and_eq_true_iff.mp hcrit).1, hidle, rfl⟩)
  · exact .inr (.inr ⟨(Bool.and_eq_true_iff.mp htx).1, hidle, rfl⟩)
  · exact .inr (.inl ⟨hrx, hidle, rfl⟩)
  · refine .inl ⟨?_, rfl⟩
    constructor
    · exact hs
    all_goals rfl
  · exact .inl ⟨idled_quiet u p hs, rfl⟩

theorem grantRx_reading (hsize : 16 ≤ size) : Reading size 0 (grantRx u p size c) where
  bound := by omega
  state := rfl
  ack _ := rfl
  dma := by
    show (size : ℤ) - 1 = _
    omega
  hdr := rfl
  fini := by
    show 10 = _
    omega
  metaEn := rfl
  finishing h := by omega
  mode := rfl
  rxmRd := rfl
  rxRd := rfl
  txmWr := rfl
  txWr := rfl
  set := rfl
  clr := rfl

theorem grantTx_writing (hsize : 16 ≤ size) : Writing size 0 ok (grantTx u p size c) where
  bound := by omega
  state := rfl
  ack _ := rfl
  dma := by
    show (size : ℤ) - 1 = _
    omega
  hdr := rfl
  fini := by
    show 10 = _
    omega
  metaEn := rfl
  finishing := rfl
  mode := .inl rfl
  modeHdr h := by omega
  rxmRd := rfl
  rxRd := rfl
  txmWr := (Bool.and_false ok).symm
  txWr := (Bool.and_false ok).symm
  set := (Bool.and_false (!ok)).symm
  clr := rfl

theorem Reading.busy (h : Reading size n c) : c.state ≠ .idle := by
  rw [h.state]
  split_ifs <;> simp

theorem Writing.busy (h : Writing size n ok c) : c.state ≠ .idle := by
  rw [h.state]
  split_ifs <;> simp

/-! ## What a clock leaves alone -/

theorem Reading.clr_last (h : Reading size n c) (hsize : 16 ≤ size) (hn : n = size + 10) :
    (after u p sz canRx crit canTx w c).underrunClr = false := by
  have hs := h.state
  rw [if_neg (by omega), if_neg (by omega), if_neg (by omega)] at hs
  rw [after_finished u p sz canRx crit canTx w hs (.inl (h.finishing (by omega)))]
  rfl

theorem Writing.clr_next (h : Writing size n ok c) :
    (after u p sz canRx crit canTx w c).underrunClr = false := by
  by_cases hstop : p.txFaultStop = true
  · have heq : after u p sz canRx crit canTx w c = (start u p c).whenStopped := by
      simp only [after, fsmCombProc, hstop, h.parsing, Bool.and_true, if_true]
    rw [heq]
    rfl
  · rw [Bool.not_eq_true] at hstop
    have hs := h.state
    split_ifs at hs
    · rw [after_setupWr u p sz canRx crit canTx w hs h.metaEn hstop]
      rfl
    · rw [after_metaWrite u p sz canRx crit canTx w hs hstop]
      rfl
    · rw [after_sampleWrite u p sz canRx crit canTx w hs h.metaEn hstop]
      rfl
    · rw [after_sampleWriteIgnore u p sz canRx crit canTx w hs hstop]
      rfl
    · rw [after_finished u p sz canRx crit canTx w hs (.inr hstop)]
      rfl

theorem Writing.metaBuf_fill (h : Writing size n ok c) (hstop : p.txFaultStop = false)
    (hlo : 5 ≤ n) (hhi : n ≤ 8) :
    (after u p sz canRx crit canTx w c).metaBuf = c.metaBuf.shift p.gpifIn := by
  have hs := h.state
  rw [if_neg (by omega), if_pos hhi] at hs
  rw [after_metaWrite u p sz canRx crit canTx w hs hstop]

theorem Writing.metaBuf_flush (h : Writing size n true c) (hstop : p.txFaultStop = false)
    (hsize : 16 ≤ size) (hlo : 9 ≤ n) (hhi : n ≤ 12) :
    (after u p sz canRx crit canTx w c).metaBuf = c.metaBuf.shift 0 := by
  have hs := h.state
  have hhdr := h.hdr
  rw [if_neg (by omega), if_neg (by omega), if_pos (by omega), if_pos rfl] at hs
  rw [if_neg (by omega), if_pos rfl] at hhdr
  rw [after_sampleWrite u p sz canRx crit canTx w hs h.metaEn hstop]
  exact if_pos (by omega)

end
end Gpif

/-! ## Moves of the closed system -/

namespace GpifSystem

open Gpif

variable {e : Generics} {u : Bool} {s s' : GpifSystem e} {i : GpifInput}

def bufSize (u : Bool) : ℕ := if !u then gpifBufSizeSs else gpifBufSizeHs

theorem le_bufSize (u : Bool) : 16 ≤ bufSize u := by
  cases u <;> decide

/-- What `META_WRITE` decided in a TX transaction. -/
def decided (w : List GpifSample) : Bool := (w[8]?.map fun x : GpifSample => x.admits).getD false

theorem decided_concat (w : List GpifSample) (x : GpifSample) :
    decided (w ++ [x]) = if w.length = 8 then x.admits else decided w := by
  simp only [decided]
  rcases Nat.lt_trichotomy w.length 8 with h | h | h
  · rw [if_neg (by omega), List.getElem?_eq_none (by simp; omega),
      List.getElem?_eq_none (by omega)]
  · rw [if_pos h, ← h]
    simp
  · rw [if_neg (by omega), List.getElem?_append_left h]

inductive Phase (u : Bool) (s : GpifSystem e) : Prop
  | idle : s.ongoing = none → Quiet s.gpif.current → Phase u s
  | rx (w : List GpifSample) : s.ongoing = some ⟨.rx, w⟩ →
      Reading (bufSize u) w.length s.gpif.current → Phase u s
  | tx (w : List GpifSample) : s.ongoing = some ⟨.tx, w⟩ →
      Writing (bufSize u) w.length (decided w) s.gpif.current → Phase u s

inductive Move (u : Bool) (i : GpifInput) (s s' : GpifSystem e) : Prop
  | wait : s.ongoing = none → Quiet s.gpif.current →
      s'.ongoing = none → s'.completed = s.completed → Quiet s'.gpif.current →
      s'.gpif.current.underrunClr = false → Move u i s s'
  | startRx : s.ongoing = none → Quiet s.gpif.current → s.gpif.canRx = true →
      s'.ongoing = some ⟨.rx, []⟩ → s'.completed = s.completed →
      Reading (bufSize u) 0 s'.gpif.current → Move u i s s'
  | startTx : s.ongoing = none → Quiet s.gpif.current → s.gpif.canTx = true →
      s'.ongoing = some ⟨.tx, []⟩ → s'.completed = s.completed →
      Writing (bufSize u) 0 false s'.gpif.current → Move u i s s'
  | read (w : List GpifSample) : s.ongoing = some ⟨.rx, w⟩ →
      Reading (bufSize u) w.length s.gpif.current → w.length < bufSize u + 10 →
      s'.ongoing = some ⟨.rx, w ++ [s.sample i]⟩ → s'.completed = s.completed →
      Reading (bufSize u) (w.length + 1) s'.gpif.current → Move u i s s'
  | readEnd (w : List GpifSample) : s.ongoing = some ⟨.rx, w⟩ →
      Reading (bufSize u) w.length s.gpif.current → w.length = bufSize u + 10 →
      s'.ongoing = none → s'.completed = s.completed ++ [⟨.rx, w ++ [s.sample i]⟩] →
      Quiet s'.gpif.current → s'.gpif.current.underrunClr = false → Move u i s s'
  | write (w : List GpifSample) : s.ongoing = some ⟨.tx, w⟩ →
      Writing (bufSize u) w.length (decided w) s.gpif.current → w.length < bufSize u + 15 →
      i.pins.txFaultStop = false →
      s'.ongoing = some ⟨.tx, w ++ [s.sample i]⟩ → s'.completed = s.completed →
      Writing (bufSize u) (w.length + 1) (decided (w ++ [s.sample i])) s'.gpif.current →
      Move u i s s'
  | writeEnd (w : List GpifSample) : s.ongoing = some ⟨.tx, w⟩ →
      Writing (bufSize u) w.length (decided w) s.gpif.current →
      (w.length = bufSize u + 15 ∨ i.pins.txFaultStop = true) →
      s'.ongoing = none → s'.completed = s.completed ++ [⟨.tx, w ++ [s.sample i]⟩] →
      Quiet s'.gpif.current → s'.gpif.current.underrunClr = false → Move u i s s'

abbrev config (u : Bool) : Config := ⟨u, true, false⟩

theorem Move.phase (h : Move u i s s') : Phase u s' := by
  cases h with
  | wait _ _ ho _ hq _ => exact .idle ho hq
  | startRx _ _ _ ho _ hr => exact .rx [] ho hr
  | startTx _ _ _ ho _ hw => exact .tx [] ho hw
  | read w _ _ _ ho _ hr => exact .rx _ ho (by simpa using hr)
  | readEnd w _ _ _ ho _ hq _ => exact .idle ho hq
  | write w _ _ _ _ ho _ hw => exact .tx _ ho (by simpa using hw)
  | writeEnd w _ _ _ ho _ hq _ => exact .idle ho hq

theorem step_idle (h : (step (config u) s i).gpif.current.state = .idle) :
    (step (config u) s i).ongoing = none ∧ (step (config u) s i).completed =
      s.completed ++ (observe s.ongoing (s.sample i) .idle).toList := by
  have hobs : observe s.ongoing (s.sample i) (step (config u) s i).gpif.current.state =
      observe s.ongoing (s.sample i) .idle := by rw [h]
  exact ⟨if_pos h, (if_pos h).trans (by rw [← hobs]; rfl)⟩

theorem step_busy (h : (step (config u) s i).gpif.current.state ≠ .idle) :
    (step (config u) s i).ongoing =
        observe s.ongoing (s.sample i) (step (config u) s i).gpif.current.state ∧
      (step (config u) s i).completed = s.completed :=
  ⟨if_neg h, if_neg h⟩

theorem move (h : Phase u s)
    (hsize : s.gpif.current.dmaIdle = true → s.gpif.gpifBufSize = bufSize u) :
    Move u i s (step (config u) s i) := by
  have hle := le_bufSize u
  cases h with
  | idle ho hq =>
      rcases after_idle u i.pins s.gpif.gpifBufSize s.gpif.canRx s.gpif.rxFifoCritical
        s.gpif.canTx (s.ports i).rxMetaFifoData hq.state with
        ⟨hq', hclr⟩ | ⟨hrx, hdma, heq⟩ | ⟨htx, hdma, heq⟩
      · obtain ⟨ho', hc'⟩ := step_idle (u := u) (i := i) hq'.state
        rw [ho] at hc'
        exact .wait ho hq ho' (by simpa [observe] using hc') hq' hclr
      · have hcur : (step (config u) s i).gpif.current =
            grantRx u i.pins (bufSize u) s.gpif.current := heq.trans (by rw [hsize hdma])
        have hr : Reading (bufSize u) 0 (step (config u) s i).gpif.current :=
          hcur ▸ grantRx_reading u i.pins hle
        obtain ⟨ho', hc'⟩ := step_busy hr.busy
        rw [ho, hcur] at ho'
        exact .startRx ho hq hrx ho' hc' hr
      · have hcur : (step (config u) s i).gpif.current =
            grantTx u i.pins (bufSize u) s.gpif.current := heq.trans (by rw [hsize hdma])
        have hw : Writing (bufSize u) 0 false (step (config u) s i).gpif.current :=
          hcur ▸ grantTx_writing u i.pins hle
        obtain ⟨ho', hc'⟩ := step_busy hw.busy
        rw [ho, hcur] at ho'
        exact .startTx ho hq htx ho' hc' hw
  | rx w ho hr =>
      by_cases hlast : w.length = bufSize u + 10
      · have hq' := hr.last u i.pins s.gpif.gpifBufSize s.gpif.canRx s.gpif.rxFifoCritical
          s.gpif.canTx (s.ports i).rxMetaFifoData hle hlast
        obtain ⟨ho', hc'⟩ := step_idle (u := u) (i := i) hq'.state
        rw [ho] at hc'
        exact .readEnd w ho hr hlast ho' hc' hq' (hr.clr_last u i.pins s.gpif.gpifBufSize
          s.gpif.canRx s.gpif.rxFifoCritical s.gpif.canTx _ hle hlast)
      · have hlt : w.length < bufSize u + 10 := lt_of_le_of_ne hr.bound hlast
        have hr' := hr.next u i.pins s.gpif.gpifBufSize s.gpif.canRx s.gpif.rxFifoCritical
          s.gpif.canTx (s.ports i).rxMetaFifoData hle hlt
        obtain ⟨ho', hc'⟩ := step_busy (u := u) (i := i) hr'.busy
        rw [ho] at ho'
        exact .read w ho hr hlt ho' hc' hr'
  | tx w ho hw =>
      have hend : ∀ hq' : Quiet (step (config u) s i).gpif.current,
          (w.length = bufSize u + 15 ∨ i.pins.txFaultStop = true) →
          (step (config u) s i).gpif.current.underrunClr = false →
          Move u i s (step (config u) s i) := by
        intro hq' hwhy hclr
        obtain ⟨ho', hc'⟩ := step_idle (u := u) (i := i) hq'.state
        rw [ho] at hc'
        exact .writeEnd w ho hw hwhy ho' hc' hq' hclr
      by_cases hstop : i.pins.txFaultStop = true
      · exact hend (hw.stop u i.pins _ _ _ _ _ hstop) (.inr hstop)
          (hw.clr_next u i.pins _ _ _ _ _)
      · rw [Bool.not_eq_true] at hstop
        by_cases hlast : w.length = bufSize u + 15
        · exact hend (hw.last u i.pins _ _ _ _ _ hle hlast hstop) (.inl hlast)
            (hw.clr_next u i.pins _ _ _ _ _)
        · have hlt : w.length < bufSize u + 15 := lt_of_le_of_ne hw.bound hlast
          have hw8 : Writing (bufSize u) w.length (decided (w ++ [s.sample i]))
              s.gpif.current := by
            by_cases h8 : w.length ≤ 8
            · exact hw.undecided h8 _
            · rwa [decided_concat, if_neg (by omega)]
          have hw' := hw8.next u i.pins s.gpif.gpifBufSize s.gpif.canRx s.gpif.rxFifoCritical
            s.gpif.canTx (s.ports i).rxMetaFifoData hle hlt hstop fun h => by
              rw [decided_concat, if_pos h]
              rfl
          obtain ⟨ho', hc'⟩ := step_busy (u := u) (i := i) hw'.busy
          rw [ho] at ho'
          exact .write w ho hw hlt hstop ho' hc' hw'

end GpifSystem
end BladeRF
