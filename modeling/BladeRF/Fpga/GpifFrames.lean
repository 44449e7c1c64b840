/-
# `Fpga.GpifFrames` — transactions move whole frames

The schedule fixes at which clocks of a transaction a strobe is high, and every
data register follows what it is fed with a fixed delay.  So the wave of a
transaction determines what it moved (`Lib.Waveform`).

The underrun flag reacts to edges.  It is raised in a transaction that is
rejected and falls in an RX transaction, one clock after its header was put on
the bus.
-/
import BladeRF.Lib.Since
import BladeRF.Fpga.GpifLevels

namespace BladeRF

open Gpif GpifSystem

/-! ## The time of a header -/

theorem append_eq_zero_iff {v w : ℕ} {x : BitVec v} {y : BitVec w} :
    x ++ y = 0 ↔ x = 0 ∧ y = 0 := by
  constructor
  · intro h
    have hn := congrArg BitVec.toNat h
    rw [BitVec.toNat_append, ← Nat.shiftLeft_add_eq_or_of_lt y.isLt, Nat.shiftLeft_eq] at hn
    obtain ⟨hx, hy⟩ := Nat.add_eq_zero_iff.mp (hn.trans (by simp))
    have hx := (Nat.mul_eq_zero.mp hx).resolve_right (Nat.two_pow_pos w).ne'
    exact ⟨BitVec.eq_of_toNat_eq (by simpa using hx), BitVec.eq_of_toNat_eq (by simpa using hy)⟩
  · rintro ⟨rfl, rfl⟩
    simp

theorem admits_iff (b : MetaBuf) (txTimestamp : BitVec 64) :
    b.admits txTimestamp = true ↔ (b.w0 ++ b.w1 : BitVec 64) = 0 ∨
      txTimestamp + 32 < (b.w0 ++ b.w1 : BitVec 64) := by
  have hswap : (b.w1 ++ b.w0 : BitVec 64) = 0 ↔ (b.w0 ++ b.w1 : BitVec 64) = 0 := by
    rw [append_eq_zero_iff, append_eq_zero_iff, and_comm]
  rw [MetaBuf.admits, Bool.or_eq_true, beq_iff_eq, decide_eq_true_iff, hswap]

/-! ## Waves -/

/-- The dword that a read of age `k` puts on the bus of the next clock. -/
def shownBy (size k : ℕ) (x : GpifSample) : Option Dword :=
  if 1 ≤ k ∧ k ≤ 3 then some x.rxMetaFifoData
  else if k = 4 then some (reportUnderrun x.rxMetaFifoData x.underrun)
  else if 5 ≤ k ∧ k ≤ size then some x.rxFifoData
  else none

structure RxWave (size : ℕ) (w : List GpifSample) : Prop where
  strobes : Lib.Timed (fun k x => x.rxMetaFifoRead = decide (1 ≤ k ∧ k ≤ 4) ∧
    x.rxFifoRead = decide (5 ≤ k ∧ k ≤ size) ∧
    x.txMetaFifoWrite = false ∧ x.txFifoWrite = false) w
  first : Lib.Timed (fun k x => k = 0 → x.bus = none) w
  bus : Lib.Apart 1 (fun k x y => y.bus = shownBy size k x) w

def TimeAdmits (x6 x7 x8 : GpifSample) : Prop :=
  (x7.gpifIn ++ x6.gpifIn : BitVec 64) = 0 ∨
    x8.txTimestamp + 32 < (x7.gpifIn ++ x6.gpifIn : BitVec 64)

structure TxWave (size : ℕ) (ok : Bool) (w : List GpifSample) : Prop where
  strobes : Lib.Timed (fun k x => x.rxMetaFifoRead = false ∧ x.rxFifoRead = false ∧
    x.txMetaFifoWrite = (ok && decide (10 ≤ k ∧ k ≤ 13)) ∧
    x.txFifoWrite = (ok && decide (10 ≤ k ∧ k ≤ size + 5))) w
  states : Lib.Timed (fun k x => x.state = .finished ↔ size + 5 ≤ k) w
  data : Lib.Apart 1 (fun _ x y => y.txFifoData = x.gpifIn) w
  hdr : Lib.Apart 5 (fun k x y => ok = true → 5 ≤ k → k ≤ 8 → y.txMetaFifoData = x.gpifIn) w
  decision : ∀ x6 x7 x8, w[6]? = some x6 → w[7]? = some x7 → w[8]? = some x8 →
    (x8.admits = true ↔ TimeAdmits x6 x7 x8)

theorem rxWave_nil {size : ℕ} : RxWave size [] :=
  ⟨Lib.timed_nil, Lib.timed_nil, Lib.apart_nil⟩

theorem txWave_nil {size : ℕ} {ok : Bool} : TxWave size ok [] :=
  ⟨Lib.timed_nil, Lib.timed_nil, Lib.apart_nil, Lib.apart_nil, fun _ _ _ h => by simp at h⟩

theorem TxWave.undecided {size : ℕ} {ok : Bool} {w : List GpifSample} (h : TxWave size ok w)
    (hlen : w.length ≤ 8) (ok' : Bool) : TxWave size ok' w where
  strobes k x hk := by
    have hlt : k < w.length := (List.getElem?_eq_some_iff.mp hk).choose
    obtain ⟨h1, h2, h3, h4⟩ := h.strobes k x hk
    rw [decide_eq_false (by omega), Bool.and_false] at h3 h4
    refine ⟨h1, h2, ?_, ?_⟩
    · rw [h3, decide_eq_false (by omega), Bool.and_false]
    · rw [h4, decide_eq_false (by omega), Bool.and_false]
  states := h.states
  data := h.data
  hdr k x y _ hy _ h5 _ := by
    have hlt : k + 5 < w.length := (List.getElem?_eq_some_iff.mp hy).choose
    omega
  decision := h.decision

/-! ## What the waves say about the dwords -/

namespace Transaction

variable {size : ℕ} {ok : Bool} {t : Transaction}

/-- A read takes a header and its samples and puts them on the bus in this order,
in consecutive clocks; the last header dword carries the underrun flag. -/
def ReadWhole (size : ℕ) (t : Transaction) : Prop :=
  ∃ a b c d underrun, t.metaTaken = [a, b, c, d] ∧ t.taken.length = size - 4 ∧
    t.bus = List.replicate 2 none ++
      ([a, b, c, reportUnderrun d underrun] ++ t.taken).map some ++ List.replicate 9 none ∧
    t.metaPushed = [] ∧ t.pushed = []

def ReportsUnderrun (t : Transaction) : Prop :=
  ∃ d, t.bus[5]? = some (some (reportUnderrun d true))

/-- A write moves the whole buffer, or nothing with an underrun; one that is cut
off has moved the first dwords of it. -/
structure WriteWhole (size : ℕ) (t : Transaction) : Prop where
  moved : ¬ t.Cut → t.Admissible →
    t.metaPushed = t.hostHeader ∧ t.hostHeader.length = 4 ∧
      t.pushed = t.hostSamples size ∧ (t.hostSamples size).length = size - 4
  dropped : ¬ t.Admissible → t.metaPushed = [] ∧ t.pushed = []
  raised : ¬ t.Cut → ¬ t.Admissible → t.Underrun
  begun : t.metaPushed <+: t.hostHeader ∧ t.pushed <+: t.hostSamples size
  idle : t.metaTaken = [] ∧ t.taken = []

theorem metaTaken_eq (h : RxWave size t.wave) :
    t.metaTaken = (Lib.span 1 4 t.wave).map (·.rxMetaFifoData) := by
  rw [metaTaken, Lib.filter_eq_span]
  intro k x hk
  rw [(h.strobes k x hk).1, decide_eq_true_iff]
  omega

theorem taken_eq (h : RxWave size t.wave) (hsize : 16 ≤ size) :
    t.taken = (Lib.span 5 (size - 4) t.wave).map (·.rxFifoData) := by
  rw [taken, Lib.filter_eq_span]
  intro k x hk
  rw [(h.strobes k x hk).2.1, decide_eq_true_iff]
  omega

theorem shownBy_sample {k : ℕ} {x : GpifSample} (h5 : 5 ≤ k) (hle : k ≤ size) :
    shownBy size k x = some x.rxFifoData := by
  rw [shownBy, if_neg (by omega), if_neg (by omega), if_pos ⟨h5, hle⟩]

theorem shownBy_rest {k : ℕ} {x : GpifSample} (h : size < k) (hsize : 16 ≤ size) :
    shownBy size k x = none := by
  rw [shownBy, if_neg (by omega), if_neg (by omega), if_neg (by omega)]

theorem readWhole (h : RxWave size t.wave) (hsize : 16 ≤ size)
    (hlen : t.wave.length = size + 11) : t.ReadWhole size := by
  have htaken := taken_eq h hsize
  have hmeta := metaTaken_eq h
  obtain ⟨dir, w⟩ := t
  dsimp only at h hlen hmeta htaken
  -- the samples and the pause behind the header
  have hsamples : (Lib.span 6 (size - 4) w).map GpifSample.bus =
      (Lib.span 5 (size - 4) w).map fun x => some x.rxFifoData := by
    refine Lib.map_span_eq (d := 1) ?_ (by omega)
    intro k x y hx hy h5 hlt
    rw [h.bus k x y hx hy, shownBy_sample h5 (by omega)]
  have hpause : (Lib.span (size + 2) 9 w).map GpifSample.bus = List.replicate 9 none := by
    have := Lib.map_span_eq (d := 1) (a := size + 1) (n := 9) (w := w)
      (f := fun _ => none) (g := GpifSample.bus) (fun k x y hx hy hlo _ => by
        rw [h.bus k x y hx hy, shownBy_rest (by omega) hsize]) (by omega)
    rw [this]
    exact Lib.map_span_const (by omega) fun _ _ _ _ _ => rfl
  -- the header
  obtain ⟨x0, x1, x2, x3, x4, x5, rest, rfl⟩ :
      ∃ x0 x1 x2 x3 x4 x5 rest, w = x0 :: x1 :: x2 :: x3 :: x4 :: x5 :: rest := by
    rcases w with - | ⟨x0, - | ⟨x1, - | ⟨x2, - | ⟨x3, - | ⟨x4, - | ⟨x5, rest⟩⟩⟩⟩⟩⟩
    any_goals
      simp only [List.length_nil, List.length_cons] at hlen
      omega
    exact ⟨x0, x1, x2, x3, x4, x5, rest, rfl⟩
  have h0 : x0.bus = none := h.first 0 x0 rfl rfl
  have h1 : x1.bus = none := (h.bus 0 x0 x1 rfl rfl).trans (by simp [shownBy])
  have h2 : x2.bus = some x1.rxMetaFifoData := h.bus 1 x1 x2 rfl rfl
  have h3 : x3.bus = some x2.rxMetaFifoData := h.bus 2 x2 x3 rfl rfl
  have h4 : x4.bus = some x3.rxMetaFifoData := h.bus 3 x3 x4 rfl rfl
  have h5 : x5.bus = some (reportUnderrun x4.rxMetaFifoData x4.underrun) :=
    h.bus 4 x4 x5 rfl rfl
  have hrest : rest = Lib.span 6 (size - 4) (x0 :: x1 :: x2 :: x3 :: x4 :: x5 :: rest) ++
      Lib.span (size + 2) 9 (x0 :: x1 :: x2 :: x3 :: x4 :: x5 :: rest) := by
    have := Lib.span_append 6 (size - 4) 9 (x0 :: x1 :: x2 :: x3 :: x4 :: x5 :: rest)
    rw [show 6 + (size - 4) = size + 2 by omega] at this
    rw [this]
    refine (List.take_of_length_le ?_).symm
    show rest.length ≤ _
    simp only [List.length_cons] at hlen
    omega
  refine ⟨x1.rxMetaFifoData, x2.rxMetaFifoData, x3.rxMetaFifoData, x4.rxMetaFifoData,
    x4.underrun, hmeta, ?_, ?_, ?_, ?_⟩
  · rw [htaken, List.length_map, Lib.length_span (by omega)]
  · have htail : rest.map GpifSample.bus =
        (Transaction.taken ⟨dir, x0 :: x1 :: x2 :: x3 :: x4 :: x5 :: rest⟩).map some ++
          List.replicate 9 none := by
      rw [htaken, List.map_map]
      calc rest.map GpifSample.bus
          = (Lib.span 6 (size - 4) (x0 :: x1 :: x2 :: x3 :: x4 :: x5 :: rest) ++
              Lib.span (size + 2) 9 (x0 :: x1 :: x2 :: x3 :: x4 :: x5 :: rest)).map
                GpifSample.bus := congrArg _ hrest
        _ = _ := by
            rw [List.map_append, hsamples, hpause]
            rfl
    show x0.bus :: x1.bus :: x2.bus :: x3.bus :: x4.bus :: x5.bus :: rest.map GpifSample.bus = _
    rw [h0, h1, h2, h3, h4, h5, htail]
    rfl
  · rw [metaPushed, Lib.filter_eq_nil_of_timed fun k x hk => (h.strobes k x hk).2.2.1]
    rfl
  · rw [pushed, Lib.filter_eq_nil_of_timed fun k x hk => (h.strobes k x hk).2.2.2]
    rfl

theorem admissible_iff (h : TxWave size ok t.wave) :
    t.Admissible ↔ decided t.wave = true := by
  simp only [Admissible, timestamp, decisionClock, decided]
  constructor
  · rintro ⟨ts, x8, hts, h8, hor⟩
    obtain ⟨x6, h6, hts⟩ := Option.bind_eq_some_iff.mp hts
    obtain ⟨x7, h7, hts⟩ := Option.bind_eq_some_iff.mp hts
    obtain rfl : x7.gpifIn ++ x6.gpifIn = ts := Option.some.inj hts
    rw [h8]
    exact (h.decision x6 x7 x8 h6 h7 h8).mpr hor
  · intro hd
    cases h8 : t.wave[8]? with
    | none =>
        rw [h8] at hd
        cases hd
    | some x8 =>
        rw [h8] at hd
        have hlt : 8 < t.wave.length := (List.getElem?_eq_some_iff.mp h8).choose
        have h6 : t.wave[6]? = some t.wave[6] := List.getElem?_eq_getElem (by omega)
        have h7 : t.wave[7]? = some t.wave[7] := List.getElem?_eq_getElem (by omega)
        refine ⟨_, x8, ?_, rfl, (h.decision _ _ x8 h6 h7 h8).mp hd⟩
        simp [h6, h7]

theorem length_of_not_cut (h : TxWave size ok t.wave) (hcut : ¬ t.Cut) :
    size + 6 ≤ t.wave.length := by
  simp only [Cut, not_forall, not_not] at hcut
  obtain ⟨x, hx, hs⟩ := hcut
  rw [Option.mem_def, List.getLast?_eq_getElem?] at hx
  have hlt : t.wave.length - 1 < t.wave.length := (List.getElem?_eq_some_iff.mp hx).choose
  have := (h.states _ x hx).mp hs
  omega

theorem writeWhole (h : TxWave size (decided t.wave) t.wave) (hsize : 16 ≤ size)
    (hraised : ¬ t.Cut → ¬ t.Admissible → t.Underrun) : t.WriteWhole size := by
  have hadm := admissible_iff h
  have hnone : decided t.wave = false → t.metaPushed = [] ∧ t.pushed = [] := by
    intro hd
    constructor
    · rw [metaPushed, Lib.filter_eq_nil_of_timed fun k x hk => by
        rw [hd] at h
        exact (h.strobes k x hk).2.2.1.trans (Bool.false_and _)]
      rfl
    · rw [pushed, Lib.filter_eq_nil_of_timed fun k x hk => by
        rw [hd] at h
        exact (h.strobes k x hk).2.2.2.trans (Bool.false_and _)]
      rfl
  have hmeta : decided t.wave = true →
      t.metaPushed = (Lib.span 10 4 t.wave).map (·.txMetaFifoData) := by
    intro hd
    rw [metaPushed, Lib.filter_eq_span]
    intro k x hk
    rw [(h.strobes k x hk).2.2.1, hd, Bool.true_and, decide_eq_true_iff]
    omega
  have hpushed : decided t.wave = true →
      t.pushed = (Lib.span 10 (size - 4) t.wave).map (·.txFifoData) := by
    intro hd
    rw [pushed, Lib.filter_eq_span]
    intro k x hk
    rw [(h.strobes k x hk).2.2.2, hd, Bool.true_and, decide_eq_true_iff]
    omega
  have hhdr : decided t.wave = true → Lib.Apart 5 (fun k (x y : GpifSample) =>
      5 ≤ k → k < 5 + 4 → y.txMetaFifoData = x.gpifIn) t.wave :=
    fun hd k x y hx hy h5 h9 => h.hdr k x y hx hy hd h5 (by omega)
  have hdata : Lib.Apart 1 (fun k (x y : GpifSample) =>
      9 ≤ k → k < 9 + (size - 4) → y.txFifoData = x.gpifIn) t.wave :=
    fun k x y hx hy _ _ => h.data k x y hx hy
  refine ⟨fun hcut ha => ?_, fun ha => ?_, hraised, ?_, ?_, ?_⟩
  · have hd := hadm.mp ha
    have hlen := length_of_not_cut h hcut
    refine ⟨?_, ?_, ?_, ?_⟩
    · rw [hmeta hd]
      exact Lib.map_span_eq (hhdr hd) (by omega)
    · rw [hostHeader, List.length_map, Lib.length_span (by omega)]
    · rw [hpushed hd]
      exact Lib.map_span_eq hdata (by omega)
    · rw [hostSamples, List.length_map, Lib.length_span (by omega)]
  · exact hnone (by rwa [hadm, Bool.not_eq_true] at ha)
  · cases hd : decided t.wave with
    | false =>
        rw [(hnone hd).1, (hnone hd).2]
        exact ⟨List.nil_prefix, List.nil_prefix⟩
    | true =>
        rw [hmeta hd, hpushed hd]
        exact ⟨Lib.map_span_isPrefixOf (hhdr hd), Lib.map_span_isPrefixOf hdata⟩
  · rw [metaTaken, Lib.filter_eq_nil_of_timed fun k x hk => (h.strobes k x hk).1]
    rfl
  · rw [taken, Lib.filter_eq_nil_of_timed fun k x hk => (h.strobes k x hk).2.1]
    rfl

end Transaction

namespace GpifSystem

variable {e : Generics} {u : Bool} {s : GpifSystem e} {i : GpifInput}

/-! ## The pipeline between the host and the TX queues -/

structure TxPipe (ok : Bool) (w : List GpifSample) (g : Gpif) : Prop where
  data : ∀ k x, k + 1 = w.length → w[k]? = some x → g.txFifoData = x.gpifIn
  fill : w.length ≤ 9 ∨ ok = true → ∀ k x, 5 ≤ k → k ≤ 8 → w[k]? = some x →
    (k + 1 = w.length → g.current.metaBuf.w0 = x.gpifIn) ∧
    (k + 2 = w.length → g.current.metaBuf.w1 = x.gpifIn) ∧
    (k + 3 = w.length → g.current.metaBuf.w2 = x.gpifIn) ∧
    (k + 4 = w.length → g.current.metaBuf.w3 = x.gpifIn)
  hdr : ok = true → ∀ k x, 5 ≤ k → k ≤ 8 → k + 5 = w.length → w[k]? = some x →
    g.txMetaFifoData = x.gpifIn

/-- The samples recorded so far are what the schedule says, and the registers hold
what the last of them fed. -/
structure Waves (u : Bool) (s : GpifSystem e) : Prop where
  rx : ∀ w, s.ongoing = some ⟨.rx, w⟩ → RxWave (bufSize u) w ∧
    (w = [] → (s.sample {}).bus = none) ∧
    ∀ k x, k + 1 = w.length → w[k]? = some x → (s.sample {}).bus = shownBy (bufSize u) k x
  tx : ∀ w, s.ongoing = some ⟨.tx, w⟩ → TxWave (bufSize u) (decided w) w ∧
    TxPipe (decided w) w s.gpif
  rxDone : ∀ w, ⟨.rx, w⟩ ∈ s.completed → RxWave (bufSize u) w ∧ w.length = bufSize u + 11
  txDone : ∀ w, ⟨.tx, w⟩ ∈ s.completed → TxWave (bufSize u) (decided w) w

theorem bus_step : ((step (config u) s i).sample {}).bus =
    gpifMux (s.ports i) s.gpif.underrun.q s.gpif.current := by
  show (if (gpifMux (s.ports i) s.gpif.underrun.q s.gpif.current).isSome then
    some ((gpifMux (s.ports i) s.gpif.underrun.q s.gpif.current).getD _) else none) = _
  cases gpifMux (s.ports i) s.gpif.underrun.q s.gpif.current <;> rfl

theorem mux_quiet (h : Quiet s.gpif.current) :
    gpifMux (s.ports i) s.gpif.underrun.q s.gpif.current = none := by
  rw [gpifMux, h.mode]

theorem mux_reading {n : ℕ} (h : Reading (bufSize u) n s.gpif.current) :
    gpifMux (s.ports i) s.gpif.underrun.q s.gpif.current =
      shownBy (bufSize u) n (s.sample i) := by
  have hle := le_bufSize u
  have hmode := h.mode
  have hhdr := h.hdr
  rw [gpifMux]
  split_ifs at hmode with h0 h4 hsz
  · rw [hmode, shownBy, if_neg (c := 1 ≤ n ∧ n ≤ 3) (by omega), if_neg (c := n = 4) (by omega),
      if_neg (c := 5 ≤ n ∧ n ≤ bufSize u) (by omega)]
  · rw [hmode, shownBy]
    by_cases hlast : n = 4
    · rw [if_neg (c := 1 ≤ n ∧ n ≤ 3) (by omega), if_pos (c := n = 4) hlast]
      exact congrArg some (if_pos (by omega))
    · rw [if_pos (c := 1 ≤ n ∧ n ≤ 3) (by omega)]
      exact congrArg some (if_neg (by omega))
  · rw [hmode, shownBy, if_neg (c := 1 ≤ n ∧ n ≤ 3) (by omega), if_neg (c := n = 4) (by omega),
      if_pos (c := 5 ≤ n ∧ n ≤ bufSize u) (by omega)]
    rfl
  · rw [hmode, shownBy, if_neg (c := 1 ≤ n ∧ n ≤ 3) (by omega), if_neg (c := n = 4) (by omega),
      if_neg (c := 5 ≤ n ∧ n ≤ bufSize u) (by omega)]

theorem Waves.read {w : List GpifSample} (h : Waves u s) (ho : s.ongoing = some ⟨.rx, w⟩)
    (hr : Reading (bufSize u) w.length s.gpif.current) :
    RxWave (bufSize u) (w ++ [s.sample i]) := by
  obtain ⟨hw, hfirst, hbus⟩ := h.rx w ho
  refine ⟨Lib.timed_concat.mpr ⟨hw.strobes, hr.rxmRd, hr.rxRd, hr.txmWr, hr.txWr⟩,
    Lib.timed_concat.mpr ⟨hw.first, fun h0 => hfirst (List.length_eq_zero_iff.mp h0)⟩,
    Lib.apart_concat (by omega) hw.bus hbus⟩

theorem Waves.write {w : List GpifSample} (h : Waves u s) (ho : s.ongoing = some ⟨.tx, w⟩)
    (hw : Writing (bufSize u) w.length (decided w) s.gpif.current) :
    TxWave (bufSize u) (decided (w ++ [s.sample i])) (w ++ [s.sample i]) := by
  obtain ⟨hwave, hpipe⟩ := h.tx w ho
  have hle := le_bufSize u
  have hwave' : TxWave (bufSize u) (decided (w ++ [s.sample i])) w := by
    by_cases h8 : w.length ≤ 8
    · exact hwave.undecided h8 _
    · rwa [decided_concat, if_neg (by omega)]
  have hw' : Writing (bufSize u) w.length (decided (w ++ [s.sample i])) s.gpif.current := by
    by_cases h8 : w.length ≤ 8
    · exact hw.undecided h8 _
    · rwa [decided_concat, if_neg (by omega)]
  refine ⟨Lib.timed_concat.mpr ⟨hwave'.strobes, hw'.rxmRd, hw'.rxRd, hw'.txmWr, hw'.txWr⟩,
    Lib.timed_concat.mpr ⟨hwave'.states, ?_⟩,
    Lib.apart_concat (by omega) hwave'.data hpipe.data,
    Lib.apart_concat (by omega) hwave'.hdr ?_, ?_⟩
  · show s.gpif.current.state = .finished ↔ _
    rw [hw'.state]
    split_ifs <;> simp <;> omega
  · intro k x hk hx hd h5 h8
    rw [decided_concat, if_neg (by omega)] at hd
    exact hpipe.hdr hd k x h5 h8 hk hx
  · intro x6 x7 x8 h6 h7 h8
    rcases Nat.lt_trichotomy w.length 8 with hlt | heq | hgt
    · rw [List.getElem?_eq_none (by simp; omega)] at h8
      cases h8
    · rw [List.getElem?_append_left (by omega)] at h6 h7
      obtain rfl : s.sample i = x8 := by simpa [← heq] using h8
      obtain ⟨-, hw1, -, -⟩ := hpipe.fill (.inl (by omega)) 6 x6 (by omega) (by omega) h6
      obtain ⟨hw0, -, -, -⟩ := hpipe.fill (.inl (by omega)) 7 x7 (by omega) (by omega) h7
      rw [TimeAdmits, ← hw0 (by omega), ← hw1 (by omega)]
      exact admits_iff _ _
    · rw [List.getElem?_append_left (by omega)] at h6 h7 h8
      exact hwave.decision x6 x7 x8 h6 h7 h8

theorem Waves.pipe {w : List GpifSample} (h : Waves u s) (ho : s.ongoing = some ⟨.tx, w⟩)
    (hw : Writing (bufSize u) w.length (decided w) s.gpif.current)
    (hstop : i.pins.txFaultStop = false) :
    TxPipe (decided (w ++ [s.sample i])) (w ++ [s.sample i]) (step (config u) s i).gpif := by
  obtain ⟨hwave, hpipe⟩ := h.tx w ho
  have hle := le_bufSize u
  refine ⟨fun k x hk hx => ?_, fun hok k x h5 h8 hx => ?_, fun hok k x h5 h8 hk hx => ?_⟩
  · rw [List.length_append, List.length_singleton] at hk
    obtain rfl : s.sample i = x := by
      simpa [show k = w.length by omega] using hx
    rfl
  · rw [List.length_append, List.length_singleton] at hok ⊢
    have hlt : k < (w ++ [s.sample i]).length := (List.getElem?_eq_some_iff.mp hx).choose
    rw [List.length_append, List.length_singleton] at hlt
    by_cases hlast : k = w.length
    · obtain rfl : s.sample i = x := by simpa [hlast] using hx
      have hbuf := hw.metaBuf_fill u i.pins s.gpif.gpifBufSize s.gpif.canRx
        s.gpif.rxFifoCritical s.gpif.canTx (s.ports i).rxMetaFifoData hstop (by omega) (by omega)
      refine ⟨fun _ => ?_, fun _ => by omega, fun _ => by omega, fun _ => by omega⟩
      exact congrArg MetaBuf.w0 hbuf
    · rw [List.getElem?_append_left (by omega)] at hx
      by_cases hfill : w.length ≤ 8
      · obtain ⟨h0, h1, h2, -⟩ := hpipe.fill (.inl (by omega)) k x h5 h8 hx
        have hbuf := hw.metaBuf_fill u i.pins s.gpif.gpifBufSize s.gpif.canRx
          s.gpif.rxFifoCritical s.gpif.canTx (s.ports i).rxMetaFifoData hstop (by omega) hfill
        refine ⟨fun _ => by omega, fun hk => ?_, fun hk => ?_, fun hk => ?_⟩
        · exact (congrArg MetaBuf.w1 hbuf).trans (h0 (by omega))
        · exact (congrArg MetaBuf.w2 hbuf).trans (h1 (by omega))
        · exact (congrArg MetaBuf.w3 hbuf).trans (h2 (by omega))
      · by_cases hflush : w.length ≤ 12
        · have hd : decided w = true := by
            rcases hok with hlen | hok
            · omega
            · rwa [decided_concat, if_neg (by omega)] at hok
          rw [hd] at hw
          obtain ⟨h0, h1, h2, -⟩ := hpipe.fill (.inr hd) k x h5 h8 hx
          have hbuf := hw.metaBuf_flush u i.pins s.gpif.gpifBufSize s.gpif.canRx
            s.gpif.rxFifoCritical s.gpif.canTx (s.ports i).rxMetaFifoData hstop hle
            (by omega) hflush
          refine ⟨fun _ => by omega, fun hk => ?_, fun hk => ?_, fun hk => ?_⟩
          · exact (congrArg MetaBuf.w1 hbuf).trans (h0 (by omega))
          · exact (congrArg MetaBuf.w2 hbuf).trans (h1 (by omega))
          · exact (congrArg MetaBuf.w3 hbuf).trans (h2 (by omega))
        · exact ⟨fun _ => by omega, fun _ => by omega, fun _ => by omega, fun _ => by omega⟩
  · rw [List.length_append, List.length_singleton] at hk
    rw [decided_concat, if_neg (by omega)] at hok
    rw [List.getElem?_append_left (by omega)] at hx
    obtain ⟨-, -, -, h3⟩ := hpipe.fill (.inr hok) k x h5 h8 hx
    rw [← h3 (by omega)]
    show gpifMuxMeta i.pins s.gpif.current = _
    rw [gpifMuxMeta]
    rcases hw.modeHdr (by omega) (by omega) with hmode | hmode <;> rw [hmode]

theorem Waves.step (h : Waves u s) (hmove : Move u i s (step (config u) s i)) :
    Waves u (step (config u) s i) := by
  cases hmove with
  | wait _ _ hnew hdone _ _ =>
      refine ⟨fun w ho => ?_, fun w ho => ?_, ?_, ?_⟩
      · rw [hnew] at ho; cases ho
      · rw [hnew] at ho; cases ho
      · rw [hdone]; exact h.rxDone
      · rw [hdone]; exact h.txDone
  | startRx _ hq _ hnew hdone _ =>
      refine ⟨fun w ho => ?_, fun w ho => ?_, ?_, ?_⟩
      · rw [hnew] at ho
        cases ho
        refine ⟨rxWave_nil, fun _ => bus_step.trans (mux_quiet hq), fun k x hk => ?_⟩
        cases hk
      · rw [hnew] at ho; cases ho
      · rw [hdone]; exact h.rxDone
      · rw [hdone]; exact h.txDone
  | startTx _ _ _ hnew hdone _ =>
      refine ⟨fun w ho => ?_, fun w ho => ?_, ?_, ?_⟩
      · rw [hnew] at ho; cases ho
      · rw [hnew] at ho
        cases ho
        exact ⟨txWave_nil, fun k x hk => (by cases hk), fun _ k x _ _ hx => by simp at hx,
          fun _ k x _ _ _ hx => by simp at hx⟩
      · rw [hdone]; exact h.rxDone
      · rw [hdone]; exact h.txDone
  | read w hold hr _ hnew hdone _ =>
      refine ⟨fun w' ho => ?_, fun w' ho => ?_, ?_, ?_⟩
      · rw [hnew] at ho
        cases ho
        refine ⟨h.read hold hr, fun hnil => by simp at hnil, fun k x hk hx => ?_⟩
        rw [List.length_append, List.length_singleton] at hk
        obtain rfl : k = w.length := by omega
        obtain rfl : s.sample i = x := by simpa using hx
        exact bus_step.trans (mux_reading hr)
      · rw [hnew] at ho; cases ho
      · rw [hdone]; exact h.rxDone
      · rw [hdone]; exact h.txDone
  | readEnd w hold hr hlen hnew hdone _ _ =>
      refine ⟨fun w' ho => ?_, fun w' ho => ?_, fun w' hw' => ?_, fun w' hw' => ?_⟩
      · rw [hnew] at ho; cases ho
      · rw [hnew] at ho; cases ho
      · rw [hdone] at hw'
        rcases List.mem_append.mp hw' with hw' | hw'
        · exact h.rxDone w' hw'
        · obtain rfl : w' = w ++ [s.sample i] := by simpa using hw'
          exact ⟨h.read hold hr, by rw [List.length_append, List.length_singleton]; omega⟩
      · rw [hdone] at hw'
        rcases List.mem_append.mp hw' with hw' | hw'
        · exact h.txDone w' hw'
        · simp at hw'
  | write w hold hw _ hstop hnew hdone _ =>
      refine ⟨fun w' ho => ?_, fun w' ho => ?_, ?_, ?_⟩
      · rw [hnew] at ho; cases ho
      · rw [hnew] at ho
        cases ho
        exact ⟨h.write hold hw, h.pipe hold hw hstop⟩
      · rw [hdone]; exact h.rxDone
      · rw [hdone]; exact h.txDone
  | writeEnd w hold hw _ hnew hdone _ _ =>
      refine ⟨fun w' ho => ?_, fun w' ho => ?_, fun w' hw' => ?_, fun w' hw' => ?_⟩
      · rw [hnew] at ho; cases ho
      · rw [hnew] at ho; cases ho
      · rw [hdone] at hw'
        rcases List.mem_append.mp hw' with hw' | hw'
        · exact h.rxDone w' hw'
        · simp at hw'
      · rw [hdone] at hw'
        rcases List.mem_append.mp hw' with hw' | hw'
        · exact h.txDone w' hw'
        · obtain rfl : w' = w ++ [s.sample i] := by simpa using hw'
          exact h.write hold hw

end GpifSystem
end BladeRF
