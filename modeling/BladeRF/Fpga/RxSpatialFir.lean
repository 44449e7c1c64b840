/-
# `Fpga.RxSpatialFir` — the 2×2 complex FIR of the RX samples

`rx_spatial_fir` filters the samples of both lanes with five taps, or passes the
centre sample through.  A sample takes eight clocks, whatever the gaps between
the strobes.  Beside it travel the timestamp of its centre sample and the mark
of an epoch: the fourth sample since a COMPLETE carries one, so that the sample
behind it, the first that the gate may pass, has all five taps in the epoch.

A `variable` of the source is a `let` here, and each process is one structure of
registers with one `clock`.
-/
import BladeRF.Fpga.Lanes
import BladeRF.Lib.Clocked
import BladeRF.Lib.Shift

namespace BladeRF

namespace RxSpatialFir

local instance twoLanes : NeZero 2 := ⟨by decide⟩

structure Input where
  inSampleControls : Lane → SampleControl := fun _ => ⟨true, false⟩
  inSamples : Lane → SampleStream := fun _ => {}
  rxTimestamp : BitVec 64 := 0
  epochArm : Bool := false
  epochComplete : Bool := false
  epochAbort : Bool := false
  coefWrEn : Bool := false
  coefWrIdx : BitVec 5 := 0
  coefWrData : BitVec 32 := 0
  coefCommit : Bool := false
  coefCommitTag : BitVec 8 := 0
  forceIdentity : Bool := false

/-- `strobe`: either lane has a sample. -/
def Input.strobe (x : Input) : Bool :=
  (x.inSamples 0).dataV || (x.inSamples 1).dataV

/-- `epoch_arm or epoch_abort` -/
def Input.cancels (x : Input) : Bool :=
  x.epochArm || x.epochAbort

/-! ## Coefficients -/

def idxOf (i j : Lane) (k : Fin 5) : Fin 20 :=
  ⟨(i * 2 + j) * 5 + k, by omega⟩

def laneOf (n : Fin 20) : Lane :=
  ⟨n / 5 % 2, Nat.mod_lt _ (by decide)⟩

def tapOf (n : Fin 20) : Fin 5 :=
  ⟨n % 5, Nat.mod_lt _ (by decide)⟩

/-- `identity_word`; 1.0 is 16384. -/
def identityWord (n : Fin 20) : BitVec 32 :=
  if n = idxOf 0 0 2 ∨ n = idxOf 1 1 2 then 16384 else 0

/-- The coefficients as the multipliers see them: `s1_re`, `s1_im`, `s1_nim`. -/
structure Coefs where
  re : Fin 20 → BitVec 16 := fun _ => 0
  im : Fin 20 → BitVec 16 := fun _ => 0
  nim : Fin 20 → BitVec 17 := fun _ => 0

def Coefs.ofWords (w : Fin 20 → BitVec 32) : Coefs where
  re n := (w n).extractLsb' 0 16
  im n := (w n).extractLsb' 16 16
  nim n := -((w n).extractLsb' 16 16).signExtend 17

/-- The registers of `banks`; the defaults are the reset values. -/
structure Banks where
  shadow : Fin 20 → BitVec 32 := identityWord
  shadowWordId : Fin 20 → Bool := fun _ => true
  actIdentity : Bool := true
  actTag : BitVec 8 := 0
  bankGen : Bool := false
  wrEnD : Bool := false

/-- The process `banks`. -/
def Banks.clock (b : Banks) (x : Input) : Banks where
  shadow n := if x.coefWrEn && x.coefWrIdx.toNat == n.val then x.coefWrData else b.shadow n
  shadowWordId n := b.shadow n == identityWord n
  actIdentity := if x.coefCommit then (List.finRange 20).all b.shadowWordId else b.actIdentity
  actTag := if x.coefCommit then x.coefCommitTag else b.actTag
  bankGen := if x.coefCommit then !b.bankGen else b.bankGen
  wrEnD := x.coefWrEn

/-! ## The delay line and the COMPLETE counter -/

structure Taps where
  dataI : Lane → Fin 5 → BitVec 16 := fun _ _ => 0
  dataQ : Lane → Fin 5 → BitVec 16 := fun _ _ => 0

/-- The registers of `front`. -/
structure Front where
  dl : Taps := {}
  tsLine : Fin 3 → BitVec 64 := fun _ => 0
  epPending : Bool := false
  epCount : BitVec 3 := 0
  v0 : Bool := false
  lv0 : Lane → Bool := fun _ => false
  mark0 : Bool := false
  clean0 : Bool := false

def Front.act (f : Front) (x : Input) : Bool :=
  f.epPending || x.epochComplete

/-- `cnt` before the strobe. -/
def Front.cnt (f : Front) (x : Input) : BitVec 3 :=
  if x.epochComplete then 0 else f.epCount

/-- The process `front`. -/
def Front.clock (f : Front) (x : Input) : Front :=
  let counts := f.act x && x.strobe
  let cnt := if counts then f.cnt x + 1 else f.cnt x
  let m4 := counts && cnt == 4
  let m5 := counts && cnt == 5
  { dl :=
      if x.strobe then
        { dataI := fun j => Lib.shift (x.inSamples j).dataI (f.dl.dataI j)
          dataQ := fun j => Lib.shift (x.inSamples j).dataQ (f.dl.dataQ j) }
      else f.dl
    tsLine := if f.v0 then Lib.shift x.rxTimestamp f.tsLine else f.tsLine
    epPending := if x.cancels then false else if m5 then false else f.act x
    epCount := if x.cancels then 0 else cnt
    v0 := x.strobe
    lv0 := fun j => (x.inSamples j).dataV
    mark0 := if x.cancels then false else m4
    clean0 := if x.cancels then false else m5 }

/-! ## Stages 1 to 7 -/

/-- The registers of `sideband`; stage `s` of the source is place `s - 1`. -/
structure Sideband where
  v : Fin 6 → Bool := fun _ => false
  lv : Lane → Fin 6 → Bool := fun _ _ => false
  mark : Fin 6 → Bool := fun _ => false
  clean : Fin 6 → Bool := fun _ => false
  mode : Fin 6 → Bool := fun _ => true
  gen : Fin 6 → Bool := fun _ => false
  bothLanesQ : Bool := false

/-- The mode of the sample that enters stage 2: bypass or filter. -/
def bypasses (b : Banks) (x : Input) : Bool :=
  !(x.inSampleControls 0).enable || !(x.inSampleControls 1).enable || b.actIdentity ||
    x.forceIdentity

/-- The process `sideband`. -/
def Sideband.clock (s : Sideband) (f : Front) (b : Banks) (x : Input) : Sideband where
  v := Lib.shift f.v0 s.v
  lv j := Lib.shift (f.lv0 j) (s.lv j)
  mark := if x.cancels then fun _ => false else Lib.shift f.mark0 s.mark
  clean := Lib.shift f.clean0 s.clean
  mode := Lib.shift (bypasses b x) s.mode
  gen := Lib.shift b.bankGen s.gen
  bothLanesQ := (x.inSampleControls 0).enable && (x.inSampleControls 1).enable

structure LaneIq where
  dataI : Lane → BitVec 16 := fun _ => 0
  dataQ : Lane → BitVec 16 := fun _ => 0

def Taps.centre (d : Taps) : LaneIq where
  dataI j := d.dataI j 2
  dataQ j := d.dataQ j 2

/-- The registers of `data_carry`; place 0 of `byp` is stage 1, and of `tsP`
stage 2. -/
structure DataCarry where
  byp : Fin 6 → LaneIq := fun _ => {}
  tsP : Fin 5 → BitVec 64 := fun _ => 0

/-- The process `data_carry`. -/
def DataCarry.clock (d : DataCarry) (f : Front) (s : Sideband) : DataCarry where
  byp k := if Lib.shift f.v0 s.v k then Lib.shift f.dl.centre d.byp k else d.byp k
  tsP k := if s.v k.castSucc then Lib.shift (f.tsLine 2) d.tsP k else d.tsP k

structure Complex (α : Type) where
  r : α
  i : α

def products (c : Coefs) (d : Taps) : Complex (Fin 20 → BitVec 34) where
  r n := (c.re n).signExtend 34 * (d.dataI (laneOf n) (tapOf n)).signExtend 34 +
    (c.nim n).signExtend 34 * (d.dataQ (laneOf n) (tapOf n)).signExtend 34
  i n := (c.re n).signExtend 34 * (d.dataQ (laneOf n) (tapOf n)).signExtend 34 +
    (c.im n).signExtend 34 * (d.dataI (laneOf n) (tapOf n)).signExtend 34

def level1 (p : Fin 20 → BitVec 34) (i : Lane) (a : Fin 5) : BitVec 38 :=
  (p ⟨i * 10 + 2 * a, by omega⟩).signExtend 38 + (p ⟨i * 10 + 2 * a + 1, by omega⟩).signExtend 38

def level2 (p : Fin 5 → BitVec 38) : Fin 3 → BitVec 38
  | 0 => p 0 + p 1
  | 1 => p 2 + p 3
  | 2 => p 4

def level3 (p : Fin 3 → BitVec 38) : Fin 2 → BitVec 38
  | 0 => p 0 + p 1
  | 1 => p 2

def level4 (p : Fin 2 → BitVec 38) : BitVec 38 :=
  p 0 + p 1

/-- `round_sat`: whether it saturates, and the value. -/
def roundSat (a : BitVec 38) : Bool × BitVec 16 :=
  let r := (a + 8192#38).sshiftRight 14
  if (2047#38).slt r then (true, 2047#16)
  else if r.slt (-2048#38) then (true, -2048#16)
  else (false, r.setWidth 16)

/-- The registers of `arith`. -/
structure Arith where
  s1 : Coefs := {}
  s2 : Complex (Fin 20 → BitVec 34) := ⟨fun _ => 0, fun _ => 0⟩
  s3 : Complex (Lane → Fin 5 → BitVec 38) := ⟨fun _ _ => 0, fun _ _ => 0⟩
  s4 : Complex (Lane → Fin 3 → BitVec 38) := ⟨fun _ _ => 0, fun _ _ => 0⟩
  s5 : Complex (Lane → Fin 2 → BitVec 38) := ⟨fun _ _ => 0, fun _ _ => 0⟩
  s6 : Complex (Lane → BitVec 38) := ⟨fun _ => 0, fun _ => 0⟩
  s7 : LaneIq := {}
  s7Sat : Lane → Bool := fun _ => false

/-- The process `arith`. -/
def Arith.clock (a : Arith) (b : Banks) (f : Front) (s : Sideband) (x : Input) : Arith where
  s1 := if x.coefCommit then .ofWords b.shadow else a.s1
  s2 := if f.v0 then products a.s1 f.dl else a.s2
  s3 := if s.v 0 then ⟨level1 a.s2.r, level1 a.s2.i⟩ else a.s3
  s4 := if s.v 1 then ⟨fun i => level2 (a.s3.r i), fun i => level2 (a.s3.i i)⟩ else a.s4
  s5 := if s.v 2 then ⟨fun i => level3 (a.s4.r i), fun i => level3 (a.s4.i i)⟩ else a.s5
  s6 := if s.v 3 then ⟨fun i => level4 (a.s5.r i), fun i => level4 (a.s5.i i)⟩ else a.s6
  s7 := if s.v 4 then ⟨fun i => (roundSat (a.s6.r i)).2, fun i => (roundSat (a.s6.i i)).2⟩ else a.s7
  s7Sat := if s.v 4 then fun i => (roundSat (a.s6.r i)).1 || (roundSat (a.s6.i i)).1 else a.s7Sat

/-! ## Stage 8 -/

/-- The registers of `output`. -/
structure Output where
  outSamples : Lane → SampleStream := fun _ => {}
  outTimestamp : BitVec 64 := 0
  completeQ : Bool := false
  outSupportClean : Bool := false
  satSticky : Lane → Bool := fun _ => false

/-- The process `output`. -/
def Output.clock (o : Output) (b : Banks) (s : Sideband) (d : DataCarry) (a : Arith) (x : Input) :
    Output where
  outSamples i :=
    { dataI := if s.mode 5 then (d.byp 5).dataI i else a.s7.dataI i
      dataQ := if s.mode 5 then (d.byp 5).dataQ i else a.s7.dataQ i
      dataV := s.lv i 5 }
  outTimestamp := d.tsP 4
  completeQ := s.v 5 && s.mark 5 && !x.cancels
  outSupportClean := s.v 5 && s.clean 5
  satSticky i :=
    if x.coefCommit then false
    else o.satSticky i || (s.lv i 5 && !s.mode 5 && s.gen 5 == b.bankGen && a.s7Sat i)

end RxSpatialFir

structure RxSpatialFir where
  banks : RxSpatialFir.Banks := {}
  front : RxSpatialFir.Front := {}
  sideband : RxSpatialFir.Sideband := {}
  carry : RxSpatialFir.DataCarry := {}
  arith : RxSpatialFir.Arith := {}
  output : RxSpatialFir.Output := {}

namespace RxSpatialFir

def clock (s : RxSpatialFir) (x : Input) : RxSpatialFir where
  banks := s.banks.clock x
  front := s.front.clock x
  sideband := s.sideband.clock s.front s.banks x
  carry := s.carry.clock s.front s.sideband
  arith := s.arith.clock s.banks s.front s.sideband x
  output := s.output.clock s.banks s.sideband s.carry s.arith x

def outEpochComplete (s : RxSpatialFir) (x : Input) : Bool :=
  s.output.completeQ && !x.cancels

/-- The registers before clock `t` after a reset. -/
def regs (i : ℕ → Input) : ℕ → RxSpatialFir :=
  Lib.trace (fun t s => s.clock (i t)) {}

theorem regs_succ (i : ℕ → Input) (t : ℕ) : regs i (t + 1) = (regs i t).clock (i t) := rfl

/-! ## The strobes of a run -/

section Run

/-- The clocks of the strobes before clock `t`, the last one first. -/
def strobes (i : ℕ → Input) : ℕ → List ℕ
  | 0 => []
  | t + 1 => if (i t).strobe then t :: strobes i t else strobes i t

variable {i : ℕ → Input} {t u c : ℕ}

theorem strobes_strobe (h : (i t).strobe = true) : strobes i (t + 1) = t :: strobes i t :=
  if_pos h

theorem strobes_idle (h : (i t).strobe = false) : strobes i (t + 1) = strobes i t :=
  if_neg (Bool.not_eq_true _ ▸ h)

theorem mem_strobes : u ∈ strobes i t ↔ u < t ∧ (i u).strobe = true := by
  induction t with
  | zero => simp [strobes]
  | succ t ih =>
      cases hs : (i t).strobe with
      | true =>
          rw [strobes_strobe hs, List.mem_cons, ih]
          constructor
          · rintro (rfl | ⟨hut, hu⟩)
            · exact ⟨Nat.lt_succ_self u, hs⟩
            · exact ⟨Nat.lt_succ_of_lt hut, hu⟩
          · rintro ⟨hut, hu⟩
            rcases Nat.lt_succ_iff_lt_or_eq.mp hut with hlt | rfl
            · exact .inr ⟨hlt, hu⟩
            · exact .inl rfl
      | false =>
          rw [strobes_idle hs, ih]
          constructor
          · exact fun ⟨hut, hu⟩ => ⟨Nat.lt_succ_of_lt hut, hu⟩
          · rintro ⟨hut, hu⟩
            refine ⟨Nat.lt_of_le_of_ne (Nat.le_of_lt_succ hut) ?_, hu⟩
            rintro rfl
            exact Bool.false_ne_true (hs.symm.trans hu)

/-- The number of strobes from clock `c` on and before clock `t`. -/
def strobesSince (i : ℕ → Input) (c t : ℕ) : ℕ :=
  (strobes i t).countP (c ≤ ·)

theorem strobesSince_succ (h : c ≤ t) :
    strobesSince i c (t + 1) = strobesSince i c t + (i t).strobe.toNat := by
  unfold strobesSince
  cases hs : (i t).strobe with
  | true =>
      rw [strobes_strobe hs, List.countP_cons, decide_eq_true h]
      rfl
  | false =>
      rw [strobes_idle hs]
      rfl

theorem strobesSince_self : strobesSince i t t = 0 := by
  unfold strobesSince
  rw [List.countP_eq_zero]
  intro u hu
  have := (mem_strobes.mp hu).1
  simp only [decide_eq_true_eq]
  omega

theorem strobesSince_mono (h : t ≤ u) : strobesSince i c t ≤ strobesSince i c u := by
  induction u, h using Nat.le_induction with
  | base => exact Nat.le_refl _
  | succ u _ ih =>
      refine ih.trans ?_
      unfold strobesSince
      cases hs : (i u).strobe with
      | true =>
          rw [strobes_strobe hs, List.countP_cons]
          exact Nat.le_add_right _ _
      | false => rw [strobes_idle hs]

theorem strobes_since {k : ℕ} (h : k < strobesSince i c t) :
    ∃ u, (strobes i t)[k]? = some u ∧ c ≤ u := by
  have hct : ∀ t, 0 < strobesSince i c t → c < t := by
    intro t hpos
    obtain ⟨u, hu, hcu⟩ := List.countP_pos_iff.mp hpos
    exact Nat.lt_of_le_of_lt (of_decide_eq_true hcu) (mem_strobes.mp hu).1
  induction t generalizing k with
  | zero => exact absurd h (Nat.not_lt_zero k)
  | succ t ih =>
      have hct := Nat.le_of_lt_succ (hct (t + 1) (Nat.zero_lt_of_lt h))
      unfold strobesSince at h ih
      cases hs : (i t).strobe with
      | false =>
          rw [strobes_idle hs] at h ⊢
          exact ih h
      | true =>
          rw [strobes_strobe hs, List.countP_cons] at h
          rw [strobes_strobe hs]
          cases k with
          | zero => exact ⟨t, rfl, hct⟩
          | succ k =>
              rw [decide_eq_true hct, if_pos rfl] at h
              exact ih (Nat.lt_of_succ_lt_succ h)

/-! ## Stage 0 -/

def tapsOf (i : ℕ → Input) (l : List ℕ) : Taps where
  dataI j k := l[k.val]?.elim 0 fun u => ((i u).inSamples j).dataI
  dataQ j k := l[k.val]?.elim 0 fun u => ((i u).inSamples j).dataQ

theorem tapsOf_cons (i : ℕ → Input) (t : ℕ) (l : List ℕ) : tapsOf i (t :: l) =
    { dataI := fun j => Lib.shift ((i t).inSamples j).dataI ((tapsOf i l).dataI j)
      dataQ := fun j => Lib.shift ((i t).inSamples j).dataQ ((tapsOf i l).dataQ j) } := by
  unfold tapsOf
  congr 1
  all_goals
    funext j k
    cases k using Fin.cases <;> rfl

theorem front_dl (i : ℕ → Input) (t : ℕ) : (regs i t).front.dl = tapsOf i (strobes i t) := by
  induction t with
  | zero => rfl
  | succ t ih =>
      show (if (i t).strobe then _ else (regs i t).front.dl) = _
      rw [ih]
      cases hs : (i t).strobe with
      | false => rw [strobes_idle hs]; rfl
      | true =>
          rw [strobes_strobe hs, if_pos rfl, tapsOf_cons, ← ih]
          rfl

theorem front_v0 (i : ℕ → Input) (t : ℕ) : (regs i (t + 1)).front.v0 = (i t).strobe := rfl

theorem front_tsLine (i : ℕ → Input) (t : ℕ) (k : Fin 3) : (regs i (t + 1)).front.tsLine k =
    (strobes i t)[k.val]?.elim 0 fun u => (i (u + 1)).rxTimestamp := by
  induction t generalizing k with
  | zero => rfl
  | succ t ih =>
      show (if (regs i (t + 1)).front.v0 then Lib.shift _ (regs i (t + 1)).front.tsLine
        else (regs i (t + 1)).front.tsLine) k = _
      rw [front_v0]
      cases hs : (i t).strobe with
      | false =>
          rw [strobes_idle hs, if_neg Bool.false_ne_true]
          exact ih k
      | true =>
          rw [strobes_strobe hs, if_pos rfl]
          cases k using Fin.cases with
          | zero => rfl
          | succ k => rw [Lib.shift_succ, ih]; rfl

/-! ## The COMPLETE counter -/

/-- The COMPLETE of clock `c` is the last one before clock `t`, and neither an ARM
nor an ABORT has come since. -/
structure Latest (i : ℕ → Input) (c t : ℕ) : Prop where
  lt : c < t
  complete : (i c).epochComplete = true
  quiet : ∀ w, c ≤ w → w < t → (i w).cancels = false
  last : ∀ w, c < w → w < t → (i w).epochComplete = false

/-- The strobe of clock `t` is the fourth since the COMPLETE of clock `c`. -/
def Marks (i : ℕ → Input) (c t : ℕ) : Prop :=
  Latest i c (t + 1) ∧ (i t).strobe = true ∧ strobesSince i c (t + 1) = 4

theorem latest_succ (hq : (i t).cancels = false) : Latest i c (t + 1) ↔
    if (i t).epochComplete then c = t else Latest i c t := by
  cases hc : (i t).epochComplete with
  | true =>
      rw [if_pos rfl]
      constructor
      · intro h
        by_contra hne
        have hct : c < t := Nat.lt_of_le_of_ne (Nat.le_of_lt_succ h.lt) hne
        exact Bool.false_ne_true ((h.last t hct (Nat.lt_succ_self t)).symm.trans hc)
      · rintro rfl
        refine ⟨Nat.lt_succ_self c, hc, ?_, fun w hcw hwc => by omega⟩
        intro w hcw hwc
        obtain rfl : w = c := by omega
        exact hq
  | false =>
      rw [if_neg Bool.false_ne_true]
      constructor
      · intro h
        refine ⟨Nat.lt_of_le_of_ne (Nat.le_of_lt_succ h.lt) ?_, h.complete,
          fun w hcw hwt => h.quiet w hcw (Nat.lt_succ_of_lt hwt),
          fun w hcw hwt => h.last w hcw (Nat.lt_succ_of_lt hwt)⟩
        rintro rfl
        exact Bool.false_ne_true (hc.symm.trans h.complete)
      · intro h
        refine ⟨Nat.lt_succ_of_lt h.lt, h.complete, ?_, ?_⟩
        · intro w hcw hwt
          rcases Nat.lt_succ_iff_lt_or_eq.mp hwt with hlt | rfl
          · exact h.quiet w hcw hlt
          · exact hq
        · intro w hcw hwt
          rcases Nat.lt_succ_iff_lt_or_eq.mp hwt with hlt | rfl
          · exact h.last w hcw hlt
          · exact hc

theorem Latest.not_cancels (h : Latest i c (t + 1)) : (i t).cancels = false :=
  h.quiet t (Nat.le_of_lt_succ h.lt) (Nat.lt_succ_self t)

/-- What the counter knows of a COMPLETE, with `n` for the strobes since. -/
structure Knows (i : ℕ → Input) (t u : ℕ) (act : Bool) (cnt : BitVec 3) : Prop where
  since : act = true → ∃ c, Latest i c t ∧ strobesSince i c u = cnt.toNat ∧ cnt.toNat < 5
  counts : ∀ c, Latest i c t → strobesSince i c u < 5 →
    act = true ∧ cnt.toNat = strobesSince i c u

theorem Knows.before {f : Front} (h : Knows i t t f.epPending f.epCount)
    (hq : (i t).cancels = false) : Knows i (t + 1) t (f.act (i t)) (f.cnt (i t)) := by
  unfold Front.act Front.cnt
  cases hc : (i t).epochComplete with
  | true =>
      refine ⟨fun _ => ⟨t, (latest_succ hq).mpr (by rw [hc]; rfl), strobesSince_self, by simp⟩, ?_⟩
      · intro c hl _
        obtain rfl : c = t := by simpa [hc] using (latest_succ hq).mp hl
        exact ⟨Bool.or_true _, strobesSince_self.symm⟩
  | false =>
      have hiff : ∀ c, Latest i c (t + 1) ↔ Latest i c t := fun c => by
        simpa [hc] using latest_succ (c := c) hq
      rw [Bool.or_false, if_neg Bool.false_ne_true]
      refine ⟨fun hp => ?_, fun c hl => h.counts c ((hiff c).mp hl)⟩
      obtain ⟨c, hl, hcount⟩ := h.since hp
      exact ⟨c, (hiff c).mpr hl, hcount⟩

theorem front_clock {f : Front} {x : Input} (hq : x.cancels = false) :
    (f.clock x).epPending = (f.act x && !(x.strobe && f.cnt x == 4)) ∧
      (f.clock x).epCount = (if f.act x && x.strobe then f.cnt x + 1 else f.cnt x) ∧
      (f.clock x).mark0 = (f.act x && (x.strobe && f.cnt x == 3)) := by
  unfold Front.clock
  simp only [hq]
  generalize f.cnt x = n
  cases f.act x <;> cases x.strobe <;> simp
  exact ⟨by revert n; decide, by revert n; decide⟩

theorem Knows.clock {f : Front} (h : Knows i t t f.epPending f.epCount) :
    Knows i (t + 1) (t + 1) (f.clock (i t)).epPending (f.clock (i t)).epCount := by
  cases hq : (i t).cancels with
  | true =>
      constructor
      · intro hp
        have hno : (f.clock (i t)).epPending = false := by
          show (if (i t).cancels then false else _) = false
          rw [if_pos hq]
        exact absurd (hno.symm.trans hp) Bool.false_ne_true
      · intro c hl
        exact absurd (hl.not_cancels.symm.trans hq) Bool.false_ne_true
  | false =>
      obtain ⟨hsince, hcounts⟩ := h.before hq
      obtain ⟨hpending, hcount, -⟩ := front_clock (f := f) hq
      rw [hpending, hcount]
      constructor
      · intro hp
        obtain ⟨hact, hgo⟩ := Bool.and_eq_true_iff.mp hp
        obtain ⟨c, hl, hn, hlt⟩ := hsince hact
        refine ⟨c, hl, ?_⟩
        rw [strobesSince_succ (Nat.le_of_lt_succ hl.lt), hn, hact, Bool.true_and]
        cases hs : (i t).strobe with
        | false => exact ⟨rfl, hlt⟩
        | true =>
            rw [hs, Bool.true_and, Bool.not_eq_true', beq_eq_false_iff_ne] at hgo
            rw [if_pos rfl, Bool.toNat_true]
            constructor <;> bv_omega
      · intro c hl hlt
        rw [strobesSince_succ (Nat.le_of_lt_succ hl.lt)] at hlt ⊢
        obtain ⟨hact, hn⟩ := hcounts c hl (by omega)
        rw [hact, Bool.true_and, Bool.true_and]
        cases hs : (i t).strobe with
        | false => exact ⟨rfl, hn⟩
        | true =>
            rw [hs, Bool.toNat_true] at hlt
            rw [if_pos rfl, Bool.toNat_true, Bool.true_and, Bool.not_eq_true', beq_eq_false_iff_ne]
            constructor <;> bv_omega

theorem front_knows (i : ℕ → Input) (t : ℕ) :
    Knows i t t (regs i t).front.epPending (regs i t).front.epCount := by
  induction t with
  | zero => exact ⟨(fun hp => by cases hp), fun c hl => absurd hl.lt (Nat.not_lt_zero c)⟩
  | succ t ih => exact ih.clock

theorem front_mark0 (i : ℕ → Input) (t : ℕ) :
    (regs i (t + 1)).front.mark0 = true ↔ ∃ c, Marks i c t := by
  cases hq : (i t).cancels with
  | true =>
      have hno : (regs i (t + 1)).front.mark0 = false := by
        show (if (i t).cancels then false else _) = false
        rw [if_pos hq]
      rw [hno]
      constructor
      · intro h
        exact absurd h Bool.false_ne_true
      · rintro ⟨c, hl, -⟩
        exact absurd (hl.not_cancels.symm.trans hq) Bool.false_ne_true
  | false =>
      obtain ⟨hsince, hcounts⟩ := (front_knows i t).before hq
      obtain ⟨-, -, hmark⟩ := front_clock (f := (regs i t).front) hq
      change ((regs i t).front.clock (i t)).mark0 = true ↔ _
      rw [hmark, Bool.and_eq_true, Bool.and_eq_true, beq_iff_eq]
      constructor
      · rintro ⟨hact, hs, hn⟩
        obtain ⟨c, hl, hcount, -⟩ := hsince hact
        refine ⟨c, hl, hs, ?_⟩
        rw [strobesSince_succ (Nat.le_of_lt_succ hl.lt), hs, hcount, hn]
        rfl
      · rintro ⟨c, hl, hs, hcount⟩
        rw [strobesSince_succ (Nat.le_of_lt_succ hl.lt), hs, Bool.toNat_true] at hcount
        obtain ⟨hact, hn⟩ := hcounts c hl (by omega)
        refine ⟨hact, hs, ?_⟩
        bv_omega

/-! ## Eight clocks later -/

theorem sideband_v (h : (i u).strobe = true) (k : Fin 6) :
    (regs i (u + 1 + k + 1)).sideband.v k = true :=
  (Lib.shift_at (r := fun t => (regs i t).sideband.v) (fun _ => rfl) (u + 1) k).trans h

theorem output_dataV (j : Lane) : ((regs i t).output.outSamples j).dataV = true ↔
    ∃ u, t = u + 8 ∧ ((i u).inSamples j).dataV = true := by
  cases t with
  | zero =>
      constructor
      · exact fun h => absurd h Bool.false_ne_true
      · rintro ⟨u, hu, -⟩
        omega
  | succ t =>
      change (regs i t).sideband.lv j 5 = true ↔ _
      rw [Lib.shift_iff (r := fun t => (regs i t).sideband.lv j) (fun _ => rfl) fun _ => rfl]
      constructor
      · rintro ⟨w, rfl, hw⟩
        cases w with
        | zero => cases hw
        | succ u => exact ⟨u, rfl, hw⟩
      · rintro ⟨u, hu, h⟩
        exact ⟨u + 1, Nat.succ.inj hu, h⟩

theorem output_completeQ : (regs i t).output.completeQ = true ↔
    ∃ u c, t = u + 8 ∧ Marks i c u ∧ ∀ w, u ≤ w → w < t → (i w).cancels = false := by
  cases t with
  | zero =>
      constructor
      · exact fun h => absurd h Bool.false_ne_true
      · rintro ⟨u, c, hu, -⟩
        omega
  | succ t =>
      change ((regs i t).sideband.v 5 && (regs i t).sideband.mark 5 && !(i t).cancels) = true ↔ _
      rw [Bool.and_eq_true, Bool.and_eq_true, Bool.not_eq_true',
        Lib.shift_clear_iff (r := fun t => (regs i t).sideband.mark) (fun _ => rfl) fun _ => rfl]
      constructor
      · rintro ⟨⟨-, w, rfl, hmark, hquiet⟩, hlast⟩
        cases w with
        | zero => cases hmark
        | succ u =>
            obtain ⟨c, hc⟩ := (front_mark0 i u).mp hmark
            refine ⟨u, c, rfl, hc, ?_⟩
            intro w huw hwt
            rcases Nat.eq_or_lt_of_le huw with rfl | huw
            · exact hc.1.not_cancels
            · rcases Nat.lt_succ_iff_lt_or_eq.mp hwt with hlt | rfl
              · exact hquiet w huw hlt
              · exact hlast
      · rintro ⟨u, c, hu, hc, hquiet⟩
        obtain rfl : t = u + 7 := Nat.succ.inj hu
        refine ⟨⟨sideband_v hc.2.1 5, u + 1, rfl, (front_mark0 i u).mpr ⟨c, hc⟩, ?_⟩,
          hquiet _ (by omega) (by omega)⟩
        intro w huw hwt
        exact hquiet w (by omega) (by omega)

def filtered (c : Coefs) (d : Taps) : LaneIq where
  dataI j := (roundSat (level4 (level3 (level2 (level1 (products c d).r j))))).2
  dataQ j := (roundSat (level4 (level3 (level2 (level1 (products c d).i j))))).2

theorem arith_s7 (h : (i u).strobe = true) : (regs i (u + 7)).arith.s7 =
    filtered (regs i (u + 1)).arith.s1 (tapsOf i (strobes i (u + 1))) := by
  have h2 : (regs i (u + 2)).arith.s2 =
      products (regs i (u + 1)).arith.s1 (tapsOf i (strobes i (u + 1))) := by
    rw [← front_dl]
    exact if_pos h
  have h3 : (regs i (u + 3)).arith.s3 =
      ⟨level1 (regs i (u + 2)).arith.s2.r, level1 (regs i (u + 2)).arith.s2.i⟩ :=
    if_pos (sideband_v h 0)
  have h4 : (regs i (u + 4)).arith.s4 =
      ⟨fun j => level2 ((regs i (u + 3)).arith.s3.r j),
        fun j => level2 ((regs i (u + 3)).arith.s3.i j)⟩ := if_pos (sideband_v h 1)
  have h5 : (regs i (u + 5)).arith.s5 =
      ⟨fun j => level3 ((regs i (u + 4)).arith.s4.r j),
        fun j => level3 ((regs i (u + 4)).arith.s4.i j)⟩ := if_pos (sideband_v h 2)
  have h6 : (regs i (u + 6)).arith.s6 =
      ⟨fun j => level4 ((regs i (u + 5)).arith.s5.r j),
        fun j => level4 ((regs i (u + 5)).arith.s5.i j)⟩ := if_pos (sideband_v h 3)
  have h7 : (regs i (u + 7)).arith.s7 =
      ⟨fun j => (roundSat ((regs i (u + 6)).arith.s6.r j)).2,
        fun j => (roundSat ((regs i (u + 6)).arith.s6.i j)).2⟩ := if_pos (sideband_v h 4)
  rw [h7, h6, h5, h4, h3, h2]
  rfl

theorem carry_byp (h : (i u).strobe = true) :
    (regs i (u + 7)).carry.byp 5 = (tapsOf i (strobes i (u + 1))).centre := by
  rw [← front_dl]
  exact Lib.carry_at (v := fun t => (regs i t).sideband.v) (r := fun t => (regs i t).carry.byp)
    (fun _ => rfl) (fun _ _ => rfl) (e := fun t => (regs i t).front.v0) (t := u + 1) h 5

theorem carry_tsP (h : (i u).strobe = true) : (regs i (u + 7)).carry.tsP 4 =
    (strobes i (u + 1))[2]?.elim 0 fun w => (i (w + 1)).rxTimestamp := by
  have hv : ∀ t, (fun k : Fin 5 => (regs i (t + 1)).sideband.v k.succ) =
      Lib.shift ((regs i t).sideband.v 0) fun k => (regs i t).sideband.v k.succ := by
    intro t
    funext k
    cases k using Fin.cases <;> rfl
  have hts : ∀ t (k : Fin 5), (regs i (t + 1)).carry.tsP k =
      if Lib.shift ((regs i t).sideband.v 0) (fun k => (regs i t).sideband.v k.succ) k then
        Lib.shift ((regs i t).front.tsLine 2) (regs i t).carry.tsP k
      else (regs i t).carry.tsP k := by
    intro t k
    cases k using Fin.cases <;> rfl
  exact (Lib.carry_at (r := fun t => (regs i t).carry.tsP) hv hts
    (sideband_v (k := 0) h) 4).trans (front_tsLine i (u + 1) 2)

def outIq (bypass : Bool) (c : Coefs) (d : Taps) : LaneIq :=
  if bypass then d.centre else filtered c d

theorem output_iq (h : (i u).strobe = true) (j : Lane) :
    ((regs i (u + 8)).output.outSamples j).dataI =
        (outIq (bypasses (regs i (u + 1)).banks (i (u + 1))) (regs i (u + 1)).arith.s1
          (tapsOf i (strobes i (u + 1)))).dataI j ∧
      ((regs i (u + 8)).output.outSamples j).dataQ =
        (outIq (bypasses (regs i (u + 1)).banks (i (u + 1))) (regs i (u + 1)).arith.s1
          (tapsOf i (strobes i (u + 1)))).dataQ j := by
  have hmode : (regs i (u + 7)).sideband.mode 5 = bypasses (regs i (u + 1)).banks (i (u + 1)) :=
    Lib.shift_at (r := fun t => (regs i t).sideband.mode) (fun _ => rfl) (u + 1) 5
  show (if (regs i (u + 7)).sideband.mode 5 then ((regs i (u + 7)).carry.byp 5).dataI j
      else (regs i (u + 7)).arith.s7.dataI j) = _ ∧
    (if (regs i (u + 7)).sideband.mode 5 then ((regs i (u + 7)).carry.byp 5).dataQ j
      else (regs i (u + 7)).arith.s7.dataQ j) = _
  rw [hmode, carry_byp h, arith_s7 h]
  unfold outIq
  split
  · exact ⟨rfl, rfl⟩
  · exact ⟨rfl, rfl⟩

theorem output_timestamp (h : (i u).strobe = true) : (regs i (u + 8)).output.outTimestamp =
    (strobes i (u + 1))[2]?.elim 0 fun w => (i (w + 1)).rxTimestamp :=
  carry_tsP h

end Run

end RxSpatialFir

end BladeRF
