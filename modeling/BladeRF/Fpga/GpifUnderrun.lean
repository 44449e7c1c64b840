/-
# `Fpga.GpifUnderrun` — the underrun flag, and runs of the machine

`set_clear_ff` reacts to edges.  The flag is raised in a write that the machine
rejects and falls in a read, one clock after the last dword of its header was
put on the bus; what a header reports is therefore whether a write was rejected
since the last read.
-/
import BladeRF.Fpga.GpifFrames

namespace BladeRF

open Gpif

def Transaction.Rejected (t : Transaction) : Prop := t.dir = .tx ∧ ¬ t.Cut ∧ ¬ t.Admissible

namespace GpifSystem

variable {e : Generics} {u : Bool} {s : GpifSystem e} {i : GpifInput}

def Pending (l : List Transaction) : Prop :=
  ∃ t ∈ Lib.since (fun t : Transaction => t.dir == .rx) l, t.Rejected

theorem not_pending_nil : ¬ Pending [] := by
  rintro ⟨t, ht, -⟩
  cases ht

theorem not_pending_read {l : List Transaction} {w : List GpifSample} :
    ¬ Pending (l ++ [⟨.rx, w⟩]) := by
  rintro ⟨t, ht, -⟩
  rw [Lib.since_mark rfl] at ht
  cases ht

theorem pending_write {l : List Transaction} {w : List GpifSample} :
    Pending (l ++ [⟨.tx, w⟩]) ↔ Pending l ∨ Transaction.Rejected ⟨.tx, w⟩ := by
  simp only [Pending]
  rw [Lib.since_concat, if_neg (by simp)]
  constructor
  · rintro ⟨t, ht, hrej⟩
    rcases List.mem_append.mp ht with ht | ht
    · exact .inl ⟨t, ht, hrej⟩
    · exact .inr (List.mem_singleton.mp ht ▸ hrej)
  · rintro (⟨t, ht, hrej⟩ | hrej)
    · exact ⟨t, List.mem_append_left _ ht, hrej⟩
    · exact ⟨_, List.mem_append_right _ (List.mem_singleton_self _), hrej⟩

/-- A read of the transaction at hand has not put its whole header on the bus. -/
def HeaderOut (s : GpifSystem e) : Prop := ∃ t, s.ongoing = some t ∧ t.dir = .rx ∧ 6 ≤ t.wave.length

structure Flag (u : Bool) (s : GpifSystem e) : Prop where
  /-- between transactions the flag is only cleared by the reset -/
  clr : s.ongoing = none → s.gpif.current.underrunClr = true → s.completed = []
  setR : ∀ w, s.ongoing = some ⟨.tx, w⟩ → 1 ≤ w.length → s.gpif.underrun.setR =
    (!decided w && decide (11 ≤ w.length ∧ w.length ≤ bufSize u + 6))
  raised : ∀ w, s.ongoing = some ⟨.tx, w⟩ → decided w = false → 11 ≤ w.length →
    s.gpif.underrun.q = true
  pending : Pending s.completed → ¬ HeaderOut s → s.gpif.underrun.q = true
  seen : Pending s.completed → ∀ w, s.ongoing = some ⟨.rx, w⟩ → ∀ x, w[4]? = some x →
    x.underrun = true
  reported : Lib.Appended (fun past t => t.dir = .rx → Pending past → t.ReportsUnderrun) s.completed
  done : ∀ t ∈ s.completed, t.Rejected → t.Underrun

theorem flag_init : Flag u ({} : GpifSystem e) where
  clr _ _ := rfl
  setR _ h := nomatch h
  raised _ h := nomatch h
  pending h := (not_pending_nil h).elim
  seen h := (not_pending_nil h).elim
  reported := Lib.appended_nil
  done _ h := nomatch h

theorem q_kept (hq : s.gpif.underrun.q = true) (hclr : s.gpif.current.underrunClr = false) :
    (step (config u) s i).gpif.underrun.q = true := by
  show (if !s.gpif.underrun.setR && s.gpif.current.underrunSet then true
    else if !s.gpif.underrun.clrR && s.gpif.current.underrunClr then false
    else s.gpif.underrun.q) = true
  rw [hclr, hq, Bool.and_false]
  split <;> rfl

theorem q_raised (hr : s.gpif.underrun.setR = false) (hset : s.gpif.current.underrunSet = true) :
    (step (config u) s i).gpif.underrun.q = true := by
  show (if !s.gpif.underrun.setR && s.gpif.current.underrunSet then true
    else if !s.gpif.underrun.clrR && s.gpif.current.underrunClr then false
    else s.gpif.underrun.q) = true
  rw [hr, hset]
  rfl

theorem Flag.pending_kept (h : Flag u s) (hp : Pending s.completed) (hout : ¬ HeaderOut s)
    (hclr : s.ongoing = none ∨ s.gpif.current.underrunClr = false) :
    (step (config u) s i).gpif.underrun.q = true := by
  refine q_kept (h.pending hp hout) ?_
  rcases hclr with ho | hclr
  · rw [← Bool.not_eq_true]
    intro hclr
    rw [h.clr ho hclr] at hp
    exact not_pending_nil hp
  · exact hclr

theorem not_headerOut_none (h : s.ongoing = none) : ¬ HeaderOut s := by
  rintro ⟨t, ho, -⟩
  rw [h] at ho
  cases ho

theorem not_headerOut_tx {w : List GpifSample} (h : s.ongoing = some ⟨.tx, w⟩) :
    ¬ HeaderOut s := by
  rintro ⟨t, ho, hrx, -⟩
  rw [h] at ho
  cases ho
  cases hrx

theorem headerOut_rx {w : List GpifSample} (h : s.ongoing = some ⟨.rx, w⟩) :
    HeaderOut s ↔ 6 ≤ w.length := by
  constructor
  · rintro ⟨t, ho, -, hlen⟩
    rw [h] at ho
    cases ho
    exact hlen
  · exact fun hlen => ⟨_, h, rfl, hlen⟩

theorem Flag.raise {w : List GpifSample} (h : Flag u s) (ho : s.ongoing = some ⟨.tx, w⟩)
    (hw : Writing (bufSize u) w.length (decided w) s.gpif.current) (hd : decided w = false)
    (hlen : 10 ≤ w.length) : (step (config u) s i).gpif.underrun.q = true := by
  by_cases h11 : 11 ≤ w.length
  · exact q_kept (h.raised w ho hd h11) hw.clr
  · have hle := le_bufSize u
    refine q_raised ?_ ?_
    · rw [h.setR w ho (by omega), decide_eq_false (by omega), Bool.and_false]
    · rw [hw.set, hd, decide_eq_true (by omega)]
      rfl

theorem Flag.step (h : Flag u s) (hwaves : Waves u s)
    (hmove : Move u i s (step (config u) s i)) : Flag u (step (config u) s i) := by
  have hle := le_bufSize u
  cases hmove with
  | wait hold _ hnew hdone _ hclr' =>
      refine ⟨fun _ hc => ?_, fun w ho => ?_, fun w ho => ?_, fun hp _ => ?_, fun _ w ho => ?_,
        ?_, ?_⟩
      · rw [hclr'] at hc; cases hc
      · rw [hnew] at ho; cases ho
      · rw [hnew] at ho; cases ho
      · rw [hdone] at hp
        exact h.pending_kept hp (not_headerOut_none hold) (.inl hold)
      · rw [hnew] at ho; cases ho
      · rw [hdone]; exact h.reported
      · rw [hdone]; exact h.done
  | startRx hold _ _ hnew hdone _ =>
      refine ⟨fun ho => ?_, fun w ho => ?_, fun w ho => ?_, fun hp _ => ?_, fun _ w ho => ?_,
        ?_, ?_⟩
      · rw [hnew] at ho; cases ho
      · rw [hnew] at ho; cases ho
      · rw [hnew] at ho; cases ho
      · rw [hdone] at hp
        exact h.pending_kept hp (not_headerOut_none hold) (.inl hold)
      · rw [hnew] at ho
        cases ho
        intro x hx
        simp at hx
      · rw [hdone]; exact h.reported
      · rw [hdone]; exact h.done
  | startTx hold _ _ hnew hdone _ =>
      refine ⟨fun ho => ?_, fun w ho hlen => ?_, fun w ho _ hlen => ?_, fun hp _ => ?_,
        fun _ w ho => ?_, ?_, ?_⟩
      · rw [hnew] at ho; cases ho
      · rw [hnew] at ho
        cases ho
        simp at hlen
      · rw [hnew] at ho
        cases ho
        simp at hlen
      · rw [hdone] at hp
        exact h.pending_kept hp (not_headerOut_none hold) (.inl hold)
      · rw [hnew] at ho; cases ho
      · rw [hdone]; exact h.reported
      · rw [hdone]; exact h.done
  | read w hold hr _ hnew hdone _ =>
      refine ⟨fun ho => ?_, fun w ho => ?_, fun w ho => ?_, fun hp hout => ?_, fun hp w' ho => ?_,
        ?_, ?_⟩
      · rw [hnew] at ho; cases ho
      · rw [hnew] at ho; cases ho
      · rw [hnew] at ho; cases ho
      · rw [hdone] at hp
        rw [headerOut_rx hnew, List.length_append, List.length_singleton] at hout
        refine h.pending_kept hp (mt (headerOut_rx hold).mp (by omega)) (.inr ?_)
        rw [hr.clr, decide_eq_false (by omega)]
      · rw [hnew] at ho
        cases ho
        rw [hdone] at hp
        intro x hx
        rcases Nat.lt_trichotomy w.length 4 with hlt | heq | hgt
        · rw [List.getElem?_eq_none (by simp; omega)] at hx
          cases hx
        · obtain rfl : s.sample i = x := by simpa [← heq] using hx
          exact h.pending hp (mt (headerOut_rx hold).mp (by omega))
        · rw [List.getElem?_append_left hgt] at hx
          exact h.seen hp w hold x hx
      · rw [hdone]; exact h.reported
      · rw [hdone]; exact h.done
  | readEnd w hold hr hlen hnew hdone _ hclr' =>
      refine ⟨fun _ hc => ?_, fun w ho => ?_, fun w ho => ?_, fun hp _ => ?_, fun _ w ho => ?_,
        ?_, fun t ht hrej => ?_⟩
      · rw [hclr'] at hc; cases hc
      · rw [hnew] at ho; cases ho
      · rw [hnew] at ho; cases ho
      · rw [hdone] at hp
        exact (not_pending_read hp).elim
      · rw [hnew] at ho; cases ho
      · rw [hdone]
        refine Lib.appended_concat.mpr ⟨h.reported, fun _ hp => ?_⟩
        have hwave := hwaves.read (i := i) hold hr
        have h4 : (w ++ [s.sample i])[4]? = some w[4] := by
          rw [List.getElem?_append_left (by omega)]
          exact List.getElem?_eq_getElem (by omega)
        have h5 : (w ++ [s.sample i])[5]? = some w[5] := by
          rw [List.getElem?_append_left (by omega)]
          exact List.getElem?_eq_getElem (by omega)
        have hseen : w[4].underrun = true :=
          h.seen hp w hold _ (List.getElem?_eq_getElem (by omega))
        refine ⟨w[4].rxMetaFifoData, ?_⟩
        rw [Transaction.bus, List.getElem?_map, h5, Option.map_some, hwave.bus 4 _ _ h4 h5, ← hseen]
        rfl
      · rw [hdone] at ht
        rcases List.mem_append.mp ht with ht | ht
        · exact h.done t ht hrej
        · rw [List.mem_singleton.mp ht] at hrej
          cases hrej.1
  | write w hold hw hlt hstop hnew hdone _ =>
      refine ⟨fun ho => ?_, fun w' ho hlen => ?_, fun w' ho hd hlen => ?_, fun hp _ => ?_,
        fun _ w' ho => ?_, ?_, ?_⟩
      · rw [hnew] at ho; cases ho
      · rw [hnew] at ho
        cases ho
        rw [List.length_append, List.length_singleton]
        show s.gpif.current.underrunSet = _
        rw [hw.set, decided_concat]
        by_cases h8 : w.length = 8
        · rw [if_pos h8, decide_eq_false (by omega), decide_eq_false (by omega), Bool.and_false,
            Bool.and_false]
        · rw [if_neg h8]
          congr 1
          exact decide_eq_decide.mpr (by omega)
      · rw [hnew] at ho
        cases ho
        rw [List.length_append, List.length_singleton] at hlen
        rw [decided_concat, if_neg (by omega)] at hd
        exact h.raise hold hw hd (by omega)
      · rw [hdone] at hp
        exact h.pending_kept hp (not_headerOut_tx hold) (.inr hw.clr)
      · rw [hnew] at ho; cases ho
      · rw [hdone]; exact h.reported
      · rw [hdone]; exact h.done
  | writeEnd w hold hw _ hnew hdone _ hclr' =>
      have hwave := hwaves.write (i := i) hold hw
      have hrejected : Transaction.Rejected ⟨.tx, w ++ [s.sample i]⟩ →
          11 ≤ w.length ∧ decided w = false := by
        rintro ⟨-, hcut, hadm⟩
        have hlen := Transaction.length_of_not_cut (t := ⟨.tx, w ++ [s.sample i]⟩) hwave hcut
        rw [Transaction.admissible_iff (t := ⟨.tx, w ++ [s.sample i]⟩) hwave] at hadm
        dsimp only at hlen hadm
        rw [List.length_append, List.length_singleton] at hlen
        rw [decided_concat, if_neg (by omega), Bool.not_eq_true] at hadm
        exact ⟨by omega, hadm⟩
      refine ⟨fun _ hc => ?_, fun w ho => ?_, fun w ho => ?_, fun hp _ => ?_, fun _ w ho => ?_,
        ?_, fun t ht hrej => ?_⟩
      · rw [hclr'] at hc; cases hc
      · rw [hnew] at ho; cases ho
      · rw [hnew] at ho; cases ho
      · rw [hdone, pending_write] at hp
        rcases hp with hp | hrej
        · exact h.pending_kept hp (not_headerOut_tx hold) (.inr hw.clr)
        · obtain ⟨hlen, hd⟩ := hrejected hrej
          exact h.raise hold hw hd (by omega)
      · rw [hnew] at ho; cases ho
      · rw [hdone]
        exact Lib.appended_concat.mpr ⟨h.reported, fun hrx => by cases hrx⟩
      · rw [hdone] at ht
        rcases List.mem_append.mp ht with ht | ht
        · exact h.done t ht hrej
        · rw [List.mem_singleton.mp ht] at hrej ⊢
          obtain ⟨hlen, hd⟩ := hrejected hrej
          exact ⟨s.sample i, by simp, h.raised w hold hd hlen⟩

/-! ## Runs -/

structure Inv (u : Bool) (s : GpifSystem e) : Prop where
  phase : Phase u s
  sized : Sized u s
  txLevels : TxLevels u s
  rxLevels : RxLevels u s
  waves : Waves u s
  flag : Flag u s

theorem inv_init : Inv u ({} : GpifSystem e) where
  phase := .idle rfl ⟨rfl, rfl, rfl, rfl, rfl, rfl, rfl⟩
  sized := sized_init
  txLevels := txLevels_init
  rxLevels := rxLevels_init
  waves := {
    rx _ h := nomatch h
    tx _ h := nomatch h
    rxDone _ h := nomatch h
    txDone _ h := nomatch h }
  flag := flag_init

theorem Inv.step (h : Inv u s) (i : GpifInput) : Inv u (step (config u) s i) := by
  have hmove := move (i := i) h.phase h.sized.used
  exact ⟨hmove.phase, sized_step, h.txLevels.step h.sized h.phase hmove,
    h.rxLevels.step h.sized h.phase hmove, h.waves.step hmove, h.flag.step h.waves hmove⟩

theorem inv_run (e : Generics) (u : Bool) (is : List GpifInput) : Inv u (run e u is) := by
  induction is using List.reverseRecOn with
  | nil => exact inv_init
  | append_singleton is i ih =>
      rw [run, List.foldl_append]
      exact ih.step i

/-- In sample-META mode, whatever the FX3, the fault stop and the other sides of the
queues do: reads and writes move whole frames, no access meets a queue that is
empty or full, and a rejected write is reported by the header of the next read,
the flag being up until then. -/
theorem run_moves_whole_frames (e : Generics) (u : Bool) (is : List GpifInput) :
    (∀ t ∈ (run e u is).completed,
      (t.dir = .rx → t.ReadWhole (bufSize u)) ∧ (t.dir = .tx → t.WriteWhole (bufSize u))) ∧
    ((run e u is).gpif.current.rxFifoRd = true → 0 < (run e u is).rxFifo.shown) ∧
    ((run e u is).gpif.current.rxmFifoRd = true → 0 < (run e u is).rxMetaFifo.shown) ∧
    ((run e u is).gpif.current.txFifoWr = true → (run e u is).txFifo.shown < e.txDepth) ∧
    ((run e u is).gpif.current.txmFifoWr = true →
      (run e u is).txMetaFifo.shown < e.txMetaDepth) ∧
    Lib.Appended (fun past t => t.dir = .rx → Pending past → t.ReportsUnderrun)
      (run e u is).completed ∧
    (Pending (run e u is).completed → ¬ HeaderOut (run e u is) →
      (run e u is).gpif.underrun.q = true) := by
  have h := inv_run e u is
  have hle := le_bufSize u
  refine ⟨fun t ht => ⟨fun hdir => ?_, fun hdir => ?_⟩, (h.rxLevels.filled h.phase).1,
    (h.rxLevels.filled h.phase).2, (h.txLevels.room h.phase).1, (h.txLevels.room h.phase).2,
    h.flag.reported, h.flag.pending⟩
  · obtain ⟨dir, w⟩ := t
    obtain rfl : dir = .rx := hdir
    obtain ⟨hwave, hlen⟩ := h.waves.rxDone w ht
    exact Transaction.readWhole hwave hle hlen
  · obtain ⟨dir, w⟩ := t
    obtain rfl : dir = .tx := hdir
    refine Transaction.writeWhole (h.waves.txDone w ht) hle fun hcut hadm => ?_
    exact h.flag.done _ ht ⟨rfl, hcut, hadm⟩

/-! ## A stop in the middle of a frame -/

def exampleGenerics : Generics where
  txFifoWords := 0
  rxFifoWords := 0
  txFifoUsedwBits := 13
  rxFifoUsedwBits := 13
  txMetaFifoUsedwBits := 8
  rxMetaFifoWords := 512
  lag := 0
  tx_fits := by decide
  rx_fits := by decide
  rx_holds := by decide
  lag_le := by decide

/-- The FX3 has a TX buffer whose header asks for transmission at once; the stop
comes when three of its samples are in the FIFO. -/
def stopInputs : List GpifInput :=
  List.replicate 15 { pins := { dma3TxReqx := false } } ++ [{ pins := { txFaultStop := true } }]

/-- A write that `tx_fault_stop` cuts off has pushed dwords, and raises no
underrun. -/
theorem stop_leaves_part_of_a_frame :
    ¬ ∀ (e : Generics) (u : Bool) (is : List GpifInput), ∀ t ∈ (run e u is).completed,
      t.dir = .tx → ¬ (¬ t.Cut ∧ t.Admissible) →
      t.metaPushed = [] ∧ t.pushed = [] ∧ t.Underrun := by
  intro h
  have hrun : (run exampleGenerics false stopInputs).completed.map
      (fun t => (t.dir, t.pushed.length, t.wave.getLast?.map (·.state))) =
      [(.tx, 3, some .sampleWrite)] := by decide +kernel
  obtain ⟨t, hcompleted, ht⟩ := List.map_eq_singleton_iff.mp hrun
  simp only [Prod.mk.injEq] at ht
  obtain ⟨hdir, hlen, hstate⟩ := ht
  have hcut : t.Cut := by
    intro x hx
    rw [Option.mem_def] at hx
    rw [hx] at hstate
    have hstate : x.state = .sampleWrite := Option.some.inj hstate
    rw [hstate]
    decide
  have := (h _ _ _ t (by rw [hcompleted]; exact List.mem_singleton_self t) hdir
    fun hh => hh.1 hcut).2.1
  rw [this] at hlen
  cases hlen

end GpifSystem
end BladeRF
