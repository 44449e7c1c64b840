/-
# `Fpga.RxCertified` — the filter in front of the epoch gate

The samples, the timestamps and the marks of `rx_spatial_fir` go through the
register of `rx_mux` to `rx_epoch_gate`, which has ARM and ABORT without delay.
A mark opens the gate nine clocks behind the fourth sample since its COMPLETE,
and the tuples that follow are of five samples each since then.
-/
import BladeRF.Fpga.RxEpochGate
import BladeRF.Fpga.RxSpatialFir

namespace BladeRF

open RxSpatialFir

/-- The registers of `rx_mux`. -/
structure RxMux where
  muxStreams : Lane → SampleStream := fun _ => {}
  muxTimestamp : BitVec 64 := 0
  muxEpochComplete : Bool := false
  muxTsFromFir : Bool := false

/-- The RX path with `ENABLE_SPATIAL_FIR`, from the ADC to the gate. -/
structure RxChain where
  fir : RxSpatialFir := {}
  mux : RxMux := {}
  gate : RxEpochGate 2 := {}

namespace RxChain

local instance fiveStrobes : NeZero 5 := ⟨by decide⟩

structure Input extends RxSpatialFir.Input where
  triggerSignalOutSync : Bool := true
  rxEpochIdIn : BitVec 8 := 0

/-- The process `rx_mux` in the mode `RX_MUX_NORMAL`. -/
def muxClock (f : RxSpatialFir) (x : Input) : RxMux where
  muxStreams j :=
    if x.triggerSignalOutSync then f.output.outSamples j
    else { f.output.outSamples j with dataV := false }
  muxTimestamp := f.output.outTimestamp
  muxEpochComplete := f.outEpochComplete x.toInput
  muxTsFromFir := true

/-- The ports of `U_rx_epoch_gate`. -/
def gateInput (c : RxChain) (x : Input) : RxEpochGate.Input 2 where
  inSampleControls := x.inSampleControls
  inSamples := c.mux.muxStreams
  rxTimestamp := if c.mux.muxTsFromFir then c.mux.muxTimestamp else x.rxTimestamp
  epochArm := x.epochArm
  epochComplete := if c.mux.muxTsFromFir then c.mux.muxEpochComplete else x.epochComplete
  epochAbort := x.epochAbort
  epochIdIn := x.rxEpochIdIn

def clock (c : RxChain) (x : Input) : RxChain where
  fir := c.fir.clock x.toInput
  mux := muxClock c.fir x
  gate := c.gate.clock (c.gateInput x)

/-- The registers before clock `t` after a reset. -/
def regs (i : ℕ → Input) : ℕ → RxChain :=
  Lib.trace (fun t c => c.clock (i t)) {}

abbrev firInput (i : ℕ → Input) (t : ℕ) : RxSpatialFir.Input :=
  (i t).toInput

open RxSpatialFir (Marks Latest strobes strobesSince tapsOf outIq bypasses)

variable {i : ℕ → Input} {t u c g : ℕ}

theorem regs_fir (i : ℕ → Input) (t : ℕ) : (regs i t).fir = RxSpatialFir.regs (firInput i) t := by
  induction t with
  | zero => rfl
  | succ t ih =>
      rw [regs_succ, ← ih]
      rfl

/-! ## Nine clocks to the gate -/

theorem mux_dataV (j : Lane) : ((regs i t).mux.muxStreams j).dataV = true ↔
    ∃ u, t = u + 9 ∧ ((i u).inSamples j).dataV = true ∧ (i (u + 8)).triggerSignalOutSync = true := by
  cases t with
  | zero =>
      constructor
      · exact fun h => absurd h Bool.false_ne_true
      · rintro ⟨u, hu, -⟩
        omega
  | succ t =>
      have hdataV : ((regs i (t + 1)).mux.muxStreams j).dataV = true ↔
          ((regs i t).fir.output.outSamples j).dataV = true ∧
            (i t).triggerSignalOutSync = true := by
        show (if (i t).triggerSignalOutSync then (regs i t).fir.output.outSamples j
          else { (regs i t).fir.output.outSamples j with dataV := false }).dataV = true ↔ _
        cases (i t).triggerSignalOutSync with
        | true => rw [if_pos rfl, and_iff_left rfl]
        | false => simp
      rw [hdataV, regs_fir, output_dataV]
      constructor
      · rintro ⟨⟨u, rfl, hu⟩, htrigger⟩
        exact ⟨u, rfl, hu, htrigger⟩
      · rintro ⟨u, hu, h, htrigger⟩
        obtain rfl : t = u + 8 := Nat.succ.inj hu
        exact ⟨⟨u, rfl, h⟩, htrigger⟩

theorem gate_complete (ht : 0 < t) : ((regs i t).gateInput (i t)).epochComplete = true ↔
    ∃ u c, t = u + 9 ∧ Marks (firInput i) c u ∧
      ∀ w, u ≤ w → w < t → (i w).cancels = false := by
  cases t with
  | zero => exact absurd ht (Nat.lt_irrefl 0)
  | succ t =>
      change (regs i t).fir.outEpochComplete (i t).toInput = true ↔ _
      unfold outEpochComplete
      rw [regs_fir, Bool.and_eq_true, Bool.not_eq_true', output_completeQ]
      constructor
      · rintro ⟨⟨u, c, rfl, hc, hquiet⟩, hlast⟩
        refine ⟨u, c, rfl, hc, ?_⟩
        intro w huw hwt
        rcases Nat.lt_succ_iff_lt_or_eq.mp hwt with hlt | rfl
        · exact hquiet w huw hlt
        · exact hlast
      · rintro ⟨u, c, hu, hc, hquiet⟩
        obtain rfl : t = u + 8 := Nat.succ.inj hu
        exact ⟨⟨u, c, rfl, hc, fun w huw hwt => hquiet w huw (Nat.lt_succ_of_lt hwt)⟩,
          hquiet _ (Nat.le_add_right u 8) (Nat.lt_succ_self _)⟩

theorem mux_iq (i : ℕ → Input) (t : ℕ) (j : Lane) :
    ((regs i (t + 1)).mux.muxStreams j).dataI =
        ((RxSpatialFir.regs (firInput i) t).output.outSamples j).dataI ∧
      ((regs i (t + 1)).mux.muxStreams j).dataQ =
        ((RxSpatialFir.regs (firInput i) t).output.outSamples j).dataQ := by
  rw [← regs_fir]
  show (if (i t).triggerSignalOutSync then (regs i t).fir.output.outSamples j
      else { (regs i t).fir.output.outSamples j with dataV := false }).dataI = _ ∧
    (if (i t).triggerSignalOutSync then (regs i t).fir.output.outSamples j
      else { (regs i t).fir.output.outSamples j with dataV := false }).dataQ = _
  cases (i t).triggerSignalOutSync <;> exact ⟨rfl, rfl⟩

theorem gate_timestamp (i : ℕ → Input) (t : ℕ) :
    ((regs i (t + 1)).gateInput (i (t + 1))).rxTimestamp =
      (RxSpatialFir.regs (firInput i) t).output.outTimestamp := by
  rw [← regs_fir]
  rfl

/-! ## The gate behind an ARM -/

/-- The mark of the COMPLETE of clock `c` opens the gate at clock `g`. -/
structure Opens (i : ℕ → Input) (c g : ℕ) : Prop where
  pending : (regs i g).gate.state = .pending
  opened : (regs i (g + 1)).gate.state = .waitFirstSample
  marks : ∃ u, g = u + 9 ∧ Marks (firInput i) c u

inductive Since (i : ℕ → Input) (t : ℕ) : RxGateState → Prop
  | reset : (∀ a < t, (i a).cancels = false) → Since i t .active
  | pending : Since i t .pending
  | error : Since i t .error
  | opened {g : ℕ} {s : RxGateState} : g < t → (regs i g).gate.state = .pending →
      (regs i (g + 1)).gate.state = .waitFirstSample →
      (∀ v, g ≤ v → v < t → (i v).cancels = false) → Since i t s

theorem gate_since (i : ℕ → Input) (t : ℕ) : Since i t (regs i t).gate.state := by
  induction t with
  | zero => exact .reset fun a ha => absurd ha (Nat.not_lt_zero a)
  | succ t ih =>
      have hstate : (regs i (t + 1)).gate.state = _ :=
        (regs i t).gate.decision_state ((regs i t).gateInput (i t))
      change _ = if (i t).epochAbort then RxGateState.error
        else if (i t).epochArm then .pending else _ at hstate
      cases habort : (i t).epochAbort with
      | true =>
          rw [habort, if_pos rfl] at hstate
          rw [hstate]
          exact .error
      | false =>
          cases harm : (i t).epochArm with
          | true =>
              rw [habort, harm, if_neg Bool.false_ne_true, if_pos rfl] at hstate
              rw [hstate]
              exact .pending
          | false =>
              have hq : (i t).cancels = false := by
                show ((i t).epochArm || (i t).epochAbort) = false
                rw [harm, habort]
                rfl
              rw [habort, harm, if_neg Bool.false_ne_true, if_neg Bool.false_ne_true] at hstate
              generalize hs : (regs i t).gate.state = s at ih hstate
              cases ih with
              | reset hno =>
                  dsimp only at hstate
                  split at hstate
                  · rw [hstate]
                    exact .error
                  · rw [hstate]
                    refine .reset fun a ha => ?_
                    rcases Nat.lt_succ_iff_lt_or_eq.mp ha with hlt | rfl
                    · exact hno a hlt
                    · exact hq
              | pending =>
                  dsimp only at hstate
                  split at hstate
                  · refine .opened (Nat.lt_succ_self t) hs hstate fun v htv hvt => ?_
                    obtain rfl : v = t := by omega
                    exact hq
                  · rw [hstate]
                    exact .pending
              | error =>
                  rw [hstate]
                  exact .error
              | opened hgt hpending hopened hquiet =>
                  refine .opened (Nat.lt_succ_of_lt hgt) hpending hopened fun v hgv hvt => ?_
                  rcases Nat.lt_succ_iff_lt_or_eq.mp hvt with hlt | rfl
                  · exact hquiet v hgv hlt
                  · exact hq

theorem opened_of_state (hpending : (regs i g).gate.state = .pending)
    (hopened : (regs i (g + 1)).gate.state = .waitFirstSample) :
    ∃ c, Opens i c g ∧ ∀ v, c ≤ v → v ≤ g → (i v).cancels = false := by
  have hg : 0 < g := by
    rcases Nat.eq_zero_or_pos g with rfl | hg
    · cases hpending
    · exact hg
  have hstate : (regs i (g + 1)).gate.state = _ :=
    (regs i g).gate.decision_state ((regs i g).gateInput (i g))
  rw [hpending, hopened] at hstate
  change _ = if (i g).epochAbort then RxGateState.error
    else if (i g).epochArm then .pending
    else if ((regs i g).gateInput (i g)).epochComplete then .waitFirstSample else .pending at hstate
  have hcomplete : ((regs i g).gateInput (i g)).epochComplete = true ∧ (i g).cancels = false := by
    show _ ∧ ((i g).epochArm || (i g).epochAbort) = false
    split at hstate
    · cases hstate
    · split at hstate
      · cases hstate
      · split at hstate
        · simp_all
        · cases hstate
  obtain ⟨u, c, rfl, hc, hquiet⟩ := (gate_complete hg).mp hcomplete.1
  refine ⟨c, ⟨hpending, hopened, u, rfl, hc⟩, ?_⟩
  intro v hcv hvg
  rcases Nat.lt_or_ge u v with huv | hvu
  · rcases Nat.eq_or_lt_of_le hvg with rfl | hlt
    · exact hcomplete.2
    · exact hquiet v (Nat.le_of_lt huv) hlt
  · exact hc.1.quiet v hcv (Nat.lt_succ_of_le hvu)

theorem Opens.unique {c' : ℕ} (h : Opens i c g) (h' : Opens i c' g) : c = c' := by
  obtain ⟨u, rfl, hc⟩ := h.marks
  obtain ⟨u', hu, hc'⟩ := h'.marks
  obtain rfl : u = u' := Nat.add_right_cancel hu
  rcases Nat.lt_trichotomy c c' with hlt | rfl | hlt
  · exact absurd (hc.1.last c' hlt hc'.1.lt ▸ hc'.1.complete) Bool.false_ne_true
  · rfl
  · exact absurd (hc'.1.last c hlt hc.1.lt ▸ hc.1.complete) Bool.false_ne_true

/-! ## Tuples behind a COMPLETE -/

/-- The gate forwards the tuple of clock `t` with its IQ. -/
def Forwards (i : ℕ → Input) (t : ℕ) : Prop :=
  (regs i (t + 1)).gate.forwardSamplesQ = true ∧ (regs i (t + 1)).gate.OutValid

/-- The strobes at `w` are consecutive, the last one first. -/
def Consecutive (i : ℕ → Input) (w : Fin 5 → ℕ) : Prop :=
  (strobes (firInput i) (w 0 + 1)).take 5 = List.ofFn w

/-- What the filter makes of the samples at `w`, with the mode and the
coefficients of then. -/
def iqOf (i : ℕ → Input) (w : Fin 5 → ℕ) : RxSpatialFir.LaneIq :=
  outIq (bypasses (regs i (w 0 + 1)).fir.banks (firInput i (w 0 + 1)))
    (regs i (w 0 + 1)).fir.arith.s1 (tapsOf (firInput i) (List.ofFn w))

/-- The tuple of clock `t` is computed from the samples at `w`. -/
structure ComputedFrom (i : ℕ → Input) (t : ℕ) (w : Fin 5 → ℕ) : Prop where
  consecutive : Consecutive i w
  clock : w 0 + 9 = t
  iq : ∀ j, ((regs i (t + 1)).gate.outSamples j).dataI = (iqOf i w).dataI j ∧
    ((regs i (t + 1)).gate.outSamples j).dataQ = (iqOf i w).dataQ j

theorem cancels_eq_false {x : RxSpatialFir.Input} :
    x.cancels = false ↔ x.epochAbort = false ∧ x.epochArm = false := by
  show (x.epochArm || x.epochAbort) = false ↔ _
  rw [Bool.or_eq_false_iff, and_comm]

theorem forwards_iff : Forwards i t ↔
    (i t).cancels = false ∧ ((regs i t).gateInput (i t)).allEnabledValid = true ∧
      ((regs i t).gate.Open ∨ (regs i t).gate.state = .waitFirstSample) := by
  set s := (regs i t).gate with hs
  set x := (regs i t).gateInput (i t) with hx
  have hvalid : (s.clock x).OutValid ↔ ∃ l, (x.inSampleControls l).enable = true ∧
      (if (s.decision x).forwardSamples then x.allEnabledValid else x.keepaliveDataValid) =
        true := by
    unfold RxEpochGate.OutValid
    simp only [RxEpochGate.outSamples_dataV, Bool.and_eq_true]
  have hstart := s.decision_epochStart x
  change (s.decision x).forwardSamples = true ∧ (s.clock x).OutValid ↔ _
  rw [hvalid, cancels_eq_false]
  constructor
  · rintro ⟨hforward, l, -, hall⟩
    rw [hforward, if_pos rfl] at hall
    obtain ⟨habort, harm, hopen⟩ := (s.decision_forwardSamples x).mp hforward
    exact ⟨⟨habort, harm⟩, hall, hopen.imp id fun h => (hstart.mp h).1⟩
  · rintro ⟨⟨habort, harm⟩, hall, hopen⟩
    have hforward : (s.decision x).forwardSamples = true :=
      (s.decision_forwardSamples x).mpr ⟨habort, harm,
        hopen.imp id fun h => hstart.mpr ⟨h, habort, harm, hall⟩⟩
    rw [hforward, if_pos rfl]
    obtain ⟨⟨l, hl⟩, -⟩ := RxEpochGate.Input.allEnabledValid_iff.mp hall
    exact ⟨rfl, l, hl, hall⟩

theorem tapsOf_take (i : ℕ → RxSpatialFir.Input) (l : List ℕ) :
    tapsOf i (l.take 5) = tapsOf i l := by
  unfold tapsOf
  congr 1
  all_goals
    funext j k
    rw [List.getElem?_take_of_lt k.isLt]

theorem Consecutive.of_since (hs : (firInput i u).strobe = true)
    (h : 5 ≤ strobesSince (firInput i) c (u + 1)) :
    ∃ w : Fin 5 → ℕ, Consecutive i w ∧ w 0 = u ∧ ∀ k, c ≤ w k := by
  choose w hw using fun k : Fin 5 =>
    strobes_since (k := k.val) (Nat.lt_of_lt_of_le k.isLt h)
  have h0 : w 0 = u := by
    have := (hw 0).1
    rw [strobes_strobe hs] at this
    exact (Option.some.inj this).symm
  refine ⟨w, ?_, h0, fun k => (hw k).2⟩
  unfold Consecutive
  rw [h0]
  apply List.ext_getElem?
  intro n
  rcases Nat.lt_or_ge n 5 with hn | hn
  · rw [List.getElem?_take_of_lt hn, (hw ⟨n, hn⟩).1, List.getElem?_ofFn, dif_pos hn]
  · rw [List.getElem?_eq_none (by simp; omega), List.getElem?_eq_none (by simp; omega)]

theorem Forwards.strobe (h : Forwards i t) :
    ∃ u, t = u + 9 ∧ (firInput i u).strobe = true ∧
      ∀ j, ((regs i (t + 1)).gate.outSamples j).dataI =
          ((RxSpatialFir.regs (firInput i) (u + 8)).output.outSamples j).dataI ∧
        ((regs i (t + 1)).gate.outSamples j).dataQ =
          ((RxSpatialFir.regs (firInput i) (u + 8)).output.outSamples j).dataQ := by
  obtain ⟨-, hall, -⟩ := forwards_iff.mp h
  obtain ⟨⟨l, hl⟩, hvalid⟩ := RxEpochGate.Input.allEnabledValid_iff.mp hall
  obtain ⟨u, rfl, hu, -⟩ := (mux_dataV l).mp (hvalid l hl)
  refine ⟨u, rfl, ?_, ?_⟩
  · unfold RxSpatialFir.Input.strobe
    rw [Bool.or_eq_true]
    have hl : ∃ l, ((firInput i u).inSamples l).dataV = true := ⟨l, hu⟩
    exact Fin.exists_fin_two.mp hl
  · intro j
    have hout : (regs i (u + 9 + 1)).gate.outSamples j = _ :=
      RxEpochGate.outSamples_forward h.1 hall j
    rw [hout]
    exact mux_iq i (u + 8) j

theorem Forwards.computedFrom (h : Forwards i (u + 9))
    (hsince : 5 ≤ strobesSince (firInput i) c (u + 1)) :
    ∃ w, ComputedFrom i (u + 9) w ∧ ∀ k, c ≤ w k := by
  obtain ⟨v, hv, hs, hiq⟩ := h.strobe
  obtain rfl : u = v := Nat.add_right_cancel hv
  obtain ⟨w, hw, rfl, hcw⟩ := Consecutive.of_since hs hsince
  refine ⟨w, ⟨hw, rfl, ?_⟩, hcw⟩
  intro j
  unfold iqOf
  rw [← hw, tapsOf_take, regs_fir, (hiq j).1, (hiq j).2]
  exact output_iq hs j

theorem Forwards.behind_mark (h : Forwards i t) (hc : Marks (firInput i) c u)
    (hut : u + 9 < t) : ∃ w, ComputedFrom i t w ∧ ∀ k, c ≤ w k := by
  obtain ⟨v, rfl, hs, -⟩ := h.strobe
  have huv : u < v := by omega
  refine h.computedFrom ?_
  have hmono := strobesSince_mono (i := firInput i) (c := c) huv
  have hcv : c ≤ v := (Nat.le_of_lt_succ hc.1.lt).trans (Nat.le_of_lt huv)
  rw [strobesSince_succ hcv, hs, Bool.toNat_true]
  rw [hc.2.2] at hmono
  exact Nat.succ_le_succ hmono

theorem waits_for_tuple (hopened : (regs i (g + 1)).gate.state = .waitFirstSample)
    (hgt : g < t) (hquiet : ∀ v, g < v → v < t → (i v).cancels = false)
    (hno : ∀ v, g < v → v < t → ¬Forwards i v) : (regs i t).gate.state = .waitFirstSample := by
  induction t, hgt using Nat.le_induction with
  | base => exact hopened
  | succ t hgt ih =>
      have hwait := ih (fun v hgv hvt => hquiet v hgv (Nat.lt_succ_of_lt hvt))
        fun v hgv hvt => hno v hgv (Nat.lt_succ_of_lt hvt)
      have hq := hquiet t hgt (Nat.lt_succ_self t)
      have hall : ((regs i t).gateInput (i t)).allEnabledValid = false := by
        by_contra hall
        exact hno t hgt (Nat.lt_succ_self t)
          (forwards_iff.mpr ⟨hq, Bool.not_eq_false _ ▸ hall, .inr hwait⟩)
      obtain ⟨habort, harm⟩ := cancels_eq_false.mp hq
      have hstate : (regs i (t + 1)).gate.state = _ :=
        (regs i t).gate.decision_state ((regs i t).gateInput (i t))
      rw [hwait, hall] at hstate
      change _ = if (i t).epochAbort then RxGateState.error
        else if (i t).epochArm then .pending else .waitFirstSample at hstate
      rw [habort, harm] at hstate
      exact hstate

structure Certifies (i : ℕ → Input) : Prop where
  /-- behind an ARM or an ABORT, a tuple passes if a COMPLETE opened the gate, and
  its samples are of the time since that COMPLETE -/
  support : ∀ t, Forwards i t → (∃ a < t, (i a).cancels = true) →
    ∃ c g w, Opens i c g ∧ g < t ∧ (i c).epochComplete = true ∧
      (∀ v, c ≤ v → v ≤ t → (i v).cancels = false) ∧ ComputedFrom i t w ∧ ∀ k, c ≤ w k
  opened : ∀ g, (regs i g).gate.state = .pending →
    (regs i (g + 1)).gate.state = .waitFirstSample → ∃ c, Opens i c g
  /-- a COMPLETE that was still on its way at an ARM or an ABORT opens nothing -/
  stale : ∀ c g v, c ≤ v → v ≤ g → (i v).cancels = true → ¬Opens i c g
  /-- four samples after a COMPLETE its mark is nine clocks from the gate -/
  reaches : ∀ a c u, (i a).epochArm = true → a < c → (i c).epochComplete = true →
    (∀ v, a < v → v ≤ u + 9 → (i v).cancels = false) →
    (∀ v, c < v → v ≤ u → (i v).epochComplete = false) → c ≤ u →
    (firInput i u).strobe = true → strobesSince (firInput i) c (u + 1) = 4 →
    ((regs i (u + 9)).gateInput (i (u + 9))).epochComplete = true ∧
      ((regs i (u + 9)).gate.state = .pending → Opens i c (u + 9))
  /-- the first tuple behind the opening -/
  timestamp : ∀ c g t w, Opens i c g → g < t → (∀ v, g < v → v < t → (i v).cancels = false) →
    (∀ v, g < v → v < t → ¬Forwards i v) → Forwards i t → ComputedFrom i t w →
    (regs i (t + 1)).gate.epochStartEvent = true ∧
      (regs i (t + 1)).gate.firstValidTimestamp = (i (w 2 + 1)).rxTimestamp
  kept : ∀ t, (regs i (t + 1)).gate.epochStartEvent = false →
    (regs i (t + 1)).gate.firstValidTimestamp = (regs i t).gate.firstValidTimestamp

/-- Certified tuples are of samples since the COMPLETE only, for every sequence of
strobes, pulses, commits and trigger levels. -/
theorem rxCertified_support (i : ℕ → Input) : Certifies i where
  support := by
    rintro t h ⟨a, hat, ha⟩
    obtain ⟨hq, -, hopen⟩ := forwards_iff.mp h
    have hsince := gate_since i t
    generalize hs : (regs i t).gate.state = s at hsince
    unfold RxEpochGate.Open at hopen
    rw [hs] at hopen
    cases hsince with
    | reset hno => exact absurd ((hno a hat).symm.trans ha) Bool.false_ne_true
    | pending | error => simp at hopen
    | @opened g _ hgt hpending hopened hquiet =>
        obtain ⟨c, hopens, hbefore⟩ := opened_of_state hpending hopened
        obtain ⟨u, rfl, hc⟩ := hopens.marks
        obtain ⟨w, hw, hcw⟩ := h.behind_mark hc hgt
        refine ⟨c, u + 9, w, hopens, hgt, hc.1.complete, ?_, hw, hcw⟩
        intro v hcv hvt
        rcases Nat.eq_or_lt_of_le hvt with rfl | hlt
        · exact hq
        · rcases Nat.le_total v (u + 9) with hvg | hgv
          · exact hbefore v hcv hvg
          · exact hquiet v hgv hlt
  opened := fun g hpending hopened => (opened_of_state hpending hopened).imp fun _ h => h.1
  stale := by
    intro c g v hcv hvg hv hopens
    obtain ⟨c', hopens', hquiet⟩ := opened_of_state hopens.pending hopens.opened
    obtain rfl := hopens.unique hopens'
    exact absurd ((hquiet v hcv hvg).symm.trans hv) Bool.false_ne_true
  reaches := by
    intro a c u harm hac hcomplete hquiet hlast hcu hs hcount
    have hc : Marks (firInput i) c u :=
      ⟨⟨Nat.lt_succ_of_le hcu, hcomplete,
        fun v hcv hvu => hquiet v (Nat.lt_of_lt_of_le hac hcv) (by omega),
        fun v hcv hvu => hlast v hcv (Nat.le_of_lt_succ hvu)⟩, hs, hcount⟩
    have hgate : ((regs i (u + 9)).gateInput (i (u + 9))).epochComplete = true :=
      (gate_complete (Nat.succ_pos _)).mpr
        ⟨u, c, rfl, hc, fun v huv hvu => hquiet v (by omega) (Nat.le_of_lt hvu)⟩
    refine ⟨hgate, fun hpending => ⟨hpending, ?_, u, rfl, hc⟩⟩
    obtain ⟨habort, harm⟩ := cancels_eq_false.mp (hquiet (u + 9) (by omega) (Nat.le_refl _))
    have hstate : (regs i (u + 9 + 1)).gate.state = _ :=
      (regs i (u + 9)).gate.decision_state ((regs i (u + 9)).gateInput (i (u + 9)))
    rw [hpending, hgate] at hstate
    change _ = if (i (u + 9)).epochAbort then RxGateState.error
      else if (i (u + 9)).epochArm then .pending else .waitFirstSample at hstate
    rw [habort, harm] at hstate
    exact hstate
  timestamp := by
    intro c g t w hopens hgt hquiet hno h hw
    obtain ⟨hq, hall, -⟩ := forwards_iff.mp h
    obtain ⟨habort, harm⟩ := cancels_eq_false.mp hq
    have hwait := waits_for_tuple hopens.opened hgt hquiet hno
    have hevent : (regs i (t + 1)).gate.epochStartEvent = true :=
      ((regs i t).gate.decision_epochStart ((regs i t).gateInput (i t))).mpr
        ⟨hwait, habort, harm, hall⟩
    refine ⟨hevent, ?_⟩
    have hts : (regs i (t + 1)).gate.firstValidTimestamp =
        ((regs i t).gateInput (i t)).rxTimestamp := if_pos hevent
    obtain ⟨u, rfl, hs, -⟩ := h.strobe
    obtain rfl : w 0 = u := Nat.add_right_cancel hw.clock
    rw [hts, gate_timestamp, output_timestamp hs]
    have htwo : (strobes (firInput i) (w 0 + 1))[2]? = some (w 2) := by
      rw [← List.getElem?_take_of_lt (show 2 < 5 by decide), hw.consecutive]
      rfl
    rw [htwo]
    rfl
  kept := by
    intro t hevent
    exact if_neg (Bool.not_eq_true _ ▸ hevent)

def certified (t : ℕ) : Input where
  inSampleControls := fun _ => ⟨true, false⟩
  inSamples := fun _ => ⟨5, 6, true⟩
  rxTimestamp := BitVec.ofNat 64 (100 + t)
  epochArm := decide (t = 1)
  epochComplete := decide (t = 3)

/-- The fourth sample since the COMPLETE is that of clock 6: the gate opens at 15,
and the tuple of the next clock is of the samples from clock 3 to 7. -/
theorem rxCertified_support_certified :
    Opens certified 3 15 ∧ Forwards certified 16 ∧
      (∃ c w, (certified c).epochComplete = true ∧ ComputedFrom certified 16 w ∧ ∀ k, c ≤ w k) ∧
      (regs certified 17).gate.epochStartEvent = true ∧
      (regs certified 17).gate.firstValidTimestamp = 106 := by
  have h := rxCertified_support certified
  have hquiet : ∀ v, 1 < v → (certified v).cancels = false := by
    intro v hv
    show (decide (v = 1) || false) = false
    rw [Bool.or_false, decide_eq_false_iff_not]
    omega
  have hlast : ∀ v, 3 < v → (certified v).epochComplete = false := by
    intro v hv
    exact decide_eq_false (by omega)
  have hopens : Opens certified 3 15 :=
    (h.reaches 1 3 6 rfl (by decide) rfl (fun v hv _ => hquiet v hv) (fun v hv _ => hlast v hv)
      (by decide) rfl (by decide +kernel)).2 (by decide +kernel)
  have hforwards : Forwards certified 16 :=
    forwards_iff.mpr ⟨hquiet 16 (by decide), by decide +kernel, .inr hopens.opened⟩
  obtain ⟨c, g, w, -, -, hc, -, hw, hcw⟩ := h.support 16 hforwards ⟨1, by decide, rfl⟩
  obtain ⟨hevent, htime⟩ := h.timestamp 3 15 16 w hopens (by decide)
    (fun v hv hvt => by omega) (fun v hv hvt => by omega) hforwards hw
  have htwo : w 2 = 5 := by
    have hstrobes : (strobes (firInput certified) (7 + 1)).take 5 = [7, 6, 5, 4, 3] := by
      decide +kernel
    have hw0 : w 0 = 7 := Nat.add_right_cancel hw.clock
    have hof := hw.consecutive
    unfold Consecutive at hof
    rw [hw0, hstrobes] at hof
    exact (Option.some.inj (congrArg (fun l => l[2]?) hof)).symm
  rw [htwo] at htime
  exact ⟨hopens, hforwards, ⟨c, w, hc, hw, hcw⟩, hevent, htime⟩

/-- An ARM, a COMPLETE and three samples, then another COMPLETE and a sample. -/
def restarted (t : ℕ) : Input where
  inSampleControls := fun _ => ⟨true, false⟩
  inSamples := fun _ => ⟨5, 6, decide (t = 4) || decide (t = 5) || decide (t = 6) || decide (t = 8)⟩
  epochArm := decide (t = 1)
  epochComplete := decide (t = 3) || decide (t = 7)

/-- Samples on every clock, and a COMPLETE at 20 without an ARM. -/
def unarmed (t : ℕ) : Input where
  inSampleControls := fun _ => ⟨true, false⟩
  inSamples := fun _ => ⟨5, 6, true⟩
  epochComplete := decide (t = 20)

/-- A newer COMPLETE before the fourth sample takes the mark of the older one, and
a COMPLETE that finds the gate open leaves older samples on their way. -/
theorem rxCertified_restarts :
    ((restarted 1).epochArm = true ∧ (restarted 3).epochComplete = true ∧
      (∀ v, 1 < v → (restarted v).cancels = false) ∧
      strobesSince (firInput restarted) 3 9 = 4 ∧
      ∀ t, ((regs restarted t).gateInput (restarted t)).epochComplete = false) ∧
    (unarmed 20).epochComplete = true ∧
      ∃ t w, 20 < t ∧ Forwards unarmed t ∧ ComputedFrom unarmed t w ∧ w 0 < 20 := by
  refine ⟨⟨rfl, rfl, ?_, by decide +kernel, ?_⟩, rfl, ?_⟩
  · intro v hv
    show (decide (v = 1) || false) = false
    rw [Bool.or_false, decide_eq_false_iff_not]
    omega
  · intro t
    rcases Nat.eq_zero_or_pos t with rfl | ht
    · rfl
    · by_contra hno
      obtain ⟨u, c, rfl, ⟨hlatest, hs, hcount⟩, -⟩ := (gate_complete ht).mp (Bool.not_eq_false _ ▸ hno)
      have hu : u = 4 ∨ u = 5 ∨ u = 6 ∨ u = 8 := by
        simpa [firInput, restarted, RxSpatialFir.Input.strobe, or_assoc] using hs
      have hc : c = 3 ∨ c = 7 := by
        simpa [firInput, restarted] using hlatest.complete
      rcases hu with rfl | rfl | rfl | rfl <;> rcases hc with rfl | rfl
      all_goals first
        | exact absurd hcount (by decide +kernel)
        | exact absurd (hlatest.last 7 (by decide) (by decide)) (by decide)
  · have hforwards : Forwards unarmed 21 :=
      forwards_iff.mpr ⟨rfl, by decide +kernel, .inl (.inl (by decide +kernel))⟩
    obtain ⟨w, hw, -⟩ := hforwards.computedFrom (u := 12) (c := 0) (by decide +kernel)
    refine ⟨21, w, by decide, hforwards, hw, ?_⟩
    have := hw.clock
    omega

end RxChain

end BladeRF
