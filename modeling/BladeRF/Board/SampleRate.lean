/-
# `Board.SampleRate` — the sample rate and the 4x filters

Below the native range the AD9361 needs its decimating and interpolating filters,
and above it those do not fit the clock chain.  `bladerf2_set_sample_rate` changes
filters and rate in up to five steps, any of which may fail halfway, and decides from
the current rate whether to leave the 4x filters.  After a call that fails they can
therefore stay on at a native rate, until a call asks for a 4x rate.
-/
import BladeRF.Board.RficHost

namespace BladeRF

open Lib StatusM

/-- The controller: the rate of the AD9361, and the filters where they are known. -/
structure RateRfic where
  rate : ℕ
  fir : BladerfDirection → Option RficFir

structure RateAnswer where
  status : RetCode
  left : RateRfic

/-- The controller, the answers it will give, and `manual_tx_quad_cal_en` of the host
PHY where there is one. -/
structure RateWorld where
  rfic : RateRfic
  manual : Option Bool
  answers : ℕ → RateAnswer

abbrev RateM (α : Type) := StatusM HostExit RateWorld α

/-! ## The policy -/

def rateFirIntermediate : ℕ := 30000000

/-- `bladerf2_sample_rate_range_4x`, as a test. -/
def inRange4x (rate : ℕ) : Bool := 520834 ≤ rate && rate ≤ 2083334

structure RateFirPlan where
  oldLow : Bool
  newLow : Bool
  enter4x : Bool
  leave4x : Bool

def rateFirClassify (rficCurrent requested : ℕ) (oversample : Bool) : RateFirPlan :=
  let rficNew := if oversample then requested / 2 else requested
  ⟨inRange4x rficCurrent, inRange4x rficNew, false, false⟩

def rateFirActions (plan : RateFirPlan) (firIs4x firIsDefault : Bool) : RateFirPlan :=
  { plan with
    enter4x := plan.newLow && !firIs4x
    leave4x := plan.oldLow && !plan.newLow && !firIsDefault }

namespace RateM

/-! ## The steps of the controller -/

def nextAnswer : RateM RateAnswer := do
  let w ← get
  modify fun w => { w with answers := fun n => w.answers (n + 1) }
  return w.answers 0

def getRate : RateM ℕ := do
  let a ← nextAnswer
  if a.status = .ok then return (← get).rfic.rate else throw (.status a.status)

def getFir (dir : BladerfDirection) : RateM RficFir := do
  let a ← nextAnswer
  match (← get).rfic.fir dir with
  | some fir => if a.status = .ok then return fir else throw (.status a.status)
  | none => throw (.status .unexpected)

/-- A step that changes the controller as `f` says, or fails halfway. -/
def step (f : RateRfic → RateRfic) : RateM RetCode := do
  let a ← nextAnswer
  modify fun w => { w with rfic := if a.status = .ok then f w.rfic else a.left }
  return a.status

def setRate (rate : ℕ) : RateM RetCode := step fun c => { c with rate := rate }

def setFir (dir : BladerfDirection) (fir : RficFir) : RateM RetCode :=
  step fun c => { c with fir := Function.update c.fir dir (some fir) }

def checkStatus (m : RateM RetCode) : RateM Unit := do
  let status ← m
  if status = .ok then return () else throw (.status status)

def when (c : Bool) (m : RateM Unit) : RateM Unit := if c then m else pure ()

/-- `phy->manual_tx_quad_cal_en` -/
def manual : RateM Bool := do
  match (← get).manual with
  | some m => return m
  | none => throw .nullDeref

/-- The RX filter with the automatic TX quadrature calibration off, which is put back. -/
def setRxFirDeferred (was : Bool) (fir : RficFir) : RateM RetCode := do
  modify fun w => { w with manual := some true }
  let status ← setFir .rx fir
  modify fun w => { w with manual := some was }
  return status

/-! ## `bladerf2_set_sample_rate` -/

/-- To the 4x filters, or back to the default ones where one of the two failed. -/
def enter4x : RateM Unit := do
  let was ← manual
  checkStatus (setRate rateFirIntermediate)
  let rx ← setRxFirDeferred was .by4
  let tx ← setFir .tx .by4
  if rx = .ok ∧ tx = .ok then return ()
  else do
    let _ ← setFir .rx (bladerfRficFirDefault .rx)
    let _ ← setFir .tx (bladerfRficFirDefault .tx)
    throw (.status .unexpected)

def leave4x : RateM Unit := do
  checkStatus (setRate rateFirIntermediate)
  let was ← manual
  checkStatus (setRxFirDeferred was (bladerfRficFirDefault .rx))
  checkStatus (setFir .tx (bladerfRficFirDefault .tx))

def plan (oversample : Bool) (rate : ℕ) : RateM RateFirPlan := do
  let current ← getRate
  let plan := rateFirClassify current rate oversample
  if plan.newLow || plan.oldLow then do
    let rxfir ← getFir .rx
    let txfir ← getFir .tx
    return rateFirActions plan (rxfir = .by4 && txfir = .by4)
      (rxfir = bladerfRficFirDefault .rx && txfir = bladerfRficFirDefault .tx)
  else return plan

end RateM

/-- A call: `blocked` is `bladerf2_rx_retune_blocks_rf_config`, and `actual` asks for the
rate that was set. -/
structure RateCall where
  blocked : Bool
  oversample : Bool
  rate : ℕ
  actual : Bool

def RateCall.target (c : RateCall) : ℕ := if c.oversample then c.rate / 2 else c.rate

/-- `is_within_range` for the range of the feature. -/
def RateCall.inRange (c : RateCall) : Bool :=
  if c.oversample then 6250000 ≤ c.rate && c.rate ≤ 122880000
  else 520834 ≤ c.rate && c.rate ≤ 61440000

open RateM in
def bladerf2SetSampleRate (c : RateCall) : RateM Unit := do
  if c.blocked then throw (.status .wouldBlock)
  else if !c.inRange then throw .range
  else do
    let plan ← plan c.oversample c.rate
    when (plan.newLow && plan.enter4x) enter4x
    when plan.leave4x leave4x
    checkStatus (setRate c.target)
    when c.actual do
      let _ ← getRate
      return ()

/-! ## What a call does -/

namespace RateM

def fir4x : BladerfDirection → Option RficFir := fun _ => some .by4

def firDefault (dir : BladerfDirection) : Option RficFir := some (bladerfRficFirDefault dir)

/-- The controller after a call that found it as `x`. -/
def after (c : RateCall) (x : RateRfic) : RateRfic :=
  ⟨c.target, if inRange4x c.target then fir4x else if inRange4x x.rate then firDefault else x.fir⟩

section

variable {x : RateRfic} {m : Option Bool} {was : Bool} {P Q : RateWorld → Prop}

/-- The calibration mode is `m`, and under `c` the controller is as `x`. -/
def Under (m : Option Bool) (c : Prop) (x : RateRfic) (w : RateWorld) : Prop :=
  w.manual = m ∧ (c → w.rfic = x)

def At (m : Option Bool) (x : RateRfic) (w : RateWorld) : Prop := w.manual = m ∧ w.rfic = x

/-- A part of the call, which leaves the calibration mode also where it fails. -/
def Does {α : Type} (P : RateWorld → Prop) (m : Option Bool) (y : RateM α)
    (Q : α → RateWorld → Prop) : Prop := Meets P y Q fun _ w => w.manual = m

theorem of_fact {p : Prop} {α : Type} {y : RateM α} {R : α → RateWorld → Prop}
    (h : p → Does P m y R) : Does (fun w => p ∧ P w) m y R := fun w hw => h hw.1 w hw.2

theorem Does.check {y : RateM RetCode} (h : Does P m y fun s => Under m (s = .ok) x) :
    Does P m (checkStatus y) fun _ => At m x :=
  Meets.bind h fun _ => Meets.ite (fun hs => Meets.pure fun _ hw => ⟨hw.1, hw.2 hs⟩)
    fun _ => Meets.throw fun _ hw => hw.1

theorem Does.when {b : Bool} {y : RateM Unit} (hon : b = true → Does P m y fun _ => Q)
    (hoff : b = false → ∀ w, P w → Q w) : Does P m (when b y) fun _ => Q :=
  Meets.ite hon fun hb => Meets.pure (hoff (Bool.not_eq_true _ ▸ hb))

theorem step_under (f : RateRfic → RateRfic) (c : Prop) :
    Does (Under m c x) m (step f) fun s => Under m (c ∧ s = .ok) (f x) :=
  fun _ hw => ⟨hw.1, fun hs => (if_pos hs.2).trans (congrArg f (hw.2 hs.1))⟩

theorem step_keeps (f : RateRfic → RateRfic) :
    Does (fun w => w.manual = m) m (step f) fun _ w => w.manual = m := fun _ hw => hw

theorem step_does (f : RateRfic → RateRfic) :
    Does (At m x) m (step f) fun s => Under m (s = .ok) (f x) :=
  fun _ hw => ⟨hw.1, fun hs => (if_pos hs).trans (congrArg f hw.2)⟩

theorem setRxFirDeferred_does (fir : RficFir) :
    Does (At (some was) x) (some was) (setRxFirDeferred was fir) fun s =>
      Under (some was) (s = .ok) { x with fir := Function.update x.fir .rx (some fir) } := by
  rintro w ⟨-, rfl⟩
  exact ⟨rfl, fun hs => if_pos hs⟩

theorem nextAnswer_does : Does (At m x) m nextAnswer fun _ => At m x := fun _ h => h

theorem getRate_does : Does (At m x) m getRate fun rate w => rate = x.rate ∧ At m x w := by
  refine Meets.bind nextAnswer_does fun a => ?_
  refine Meets.ite (fun _ => ?_) fun _ => Meets.throw fun w hw => hw.1
  exact fun w hw => ⟨congrArg RateRfic.rate hw.2, hw⟩

theorem getFir_does (dir : BladerfDirection) :
    Does (At m x) m (getFir dir) fun fir w => x.fir dir = some fir ∧ At m x w := by
  refine Meets.bind nextAnswer_does fun a => ?_
  refine Meets.bind (Meets.get (Q := fun v w => v = w ∧ At m x w) fun _ hw => ⟨rfl, hw⟩)
    fun v => ?_
  rintro w ⟨rfl, hw⟩
  cases hfir : v.rfic.fir dir with
  | none => exact hw.1
  | some fir =>
      have hknown : x.fir dir = some fir := hw.2 ▸ hfir
      exact Meets.ite (c := a.status = .ok) (fun _ => Meets.pure fun w hw => ⟨hknown, hw⟩)
        (fun _ => Meets.throw fun w hw => hw.1) v hw

theorem manual_does : Does (At m x) m manual fun was w => m = some was ∧ At m x w := by
  refine Meets.bind (Meets.get (Q := fun v w => v = w ∧ At m x w) fun _ hw => ⟨rfl, hw⟩)
    fun v => ?_
  rintro w ⟨rfl, hw⟩
  cases hm : v.manual with
  | none => exact hw.1
  | some was => exact ⟨hw.1.symm.trans hm, hw⟩

theorem update_both (g : BladerfDirection → Option RficFir) (f : BladerfDirection → RficFir) :
    Function.update (Function.update g .rx (some (f .rx))) .tx (some (f .tx)) =
      fun dir => some (f dir) := by
  funext dir
  cases dir <;> rfl

theorem enter4x_does : Does (At m x) m enter4x fun _ => At m ⟨rateFirIntermediate, fir4x⟩ := by
  refine Meets.bind manual_does fun was => of_fact fun hm => ?_
  subst hm
  refine Meets.bind (step_does _).check fun _ => ?_
  refine Meets.bind (setRxFirDeferred_does _) fun rx => ?_
  refine Meets.bind (step_under _ _) fun tx => ?_
  refine Meets.ite (fun hok => Meets.pure fun w hw => ⟨hw.1, (hw.2 hok).trans ?_⟩) fun _ => ?_
  · exact congrArg (RateRfic.mk _) (update_both x.fir fun _ => .by4)
  · -- what is put back is of no consequence: the call fails
    refine Meets.bind ((step_keeps _).weaken (fun _ hw => hw.1) (fun _ _ => id) fun _ _ => id)
      fun _ => ?_
    exact Meets.bind (step_keeps _) fun _ => Meets.throw fun _ => id

theorem leave4x_does :
    Does (At m x) m leave4x fun _ => At m ⟨rateFirIntermediate, firDefault⟩ := by
  refine Meets.bind (step_does _).check fun _ => ?_
  refine Meets.bind manual_does fun was => of_fact fun hm => ?_
  subst hm
  refine Meets.bind (setRxFirDeferred_does _).check fun _ => ?_
  refine (step_does _).check.weaken (fun _ => id) (fun _ w hw => ⟨hw.1, hw.2.trans ?_⟩)
    fun _ _ => id
  exact congrArg (RateRfic.mk _) (update_both x.fir bladerfRficFirDefault)

/-- What the plan comes to: the filters are changed where they have to be. -/
structure PlanFor (c : RateCall) (x : RateRfic) (p : RateFirPlan) : Prop where
  enter : (p.newLow && p.enter4x) = true → p.leave4x = false ∧ (after c x).fir = fir4x
  leave : p.leave4x = true → (after c x).fir = firDefault
  stay : (p.newLow && p.enter4x) = false → p.leave4x = false → (after c x).fir = x.fir

theorem planFor_actions (c : RateCall) {is4x isDefault : Bool}
    (h4x : is4x = true → x.fir = fir4x) (hdefault : isDefault = true → x.fir = firDefault) :
    PlanFor c x (rateFirActions (rateFirClassify x.rate c.rate c.oversample) is4x isDefault) := by
  have hplan : rateFirActions (rateFirClassify x.rate c.rate c.oversample) is4x isDefault =
    ⟨inRange4x x.rate, inRange4x c.target, inRange4x c.target && !is4x,
      inRange4x x.rate && !inRange4x c.target && !isDefault⟩ := rfl
  rw [hplan]
  cases htarget : inRange4x c.target with
  | true =>
      have hafter : (after c x).fir = fir4x := if_pos htarget
      refine ⟨fun _ => ⟨by simp, hafter⟩, fun hleave => ?_, fun hstay _ => ?_⟩
      · simp at hleave
      · rw [hafter, h4x (by simpa using hstay)]
  | false =>
      have hafter : (after c x).fir = if inRange4x x.rate then firDefault else x.fir :=
        if_neg (by rw [htarget]; exact Bool.false_ne_true)
      refine ⟨fun henter => ?_, fun hleave => ?_, fun _ hstay => ?_⟩
      · simp at henter
      · have hr : inRange4x x.rate = true := by
          simp only [Bool.not_false, Bool.and_true, Bool.and_eq_true] at hleave
          exact hleave.1
        rw [hafter, if_pos hr]
      · rw [hafter]
        split_ifs with hr
        · exact (hdefault (by simpa [hr] using hstay)).symm
        · rfl

theorem plan_does (c : RateCall) :
    Does (At m x) m (plan c.oversample c.rate) fun p w => PlanFor c x p ∧ At m x w := by
  refine Meets.bind getRate_does fun current => of_fact fun hcurrent => ?_
  subst hcurrent
  refine Meets.ite (fun _ => ?_) fun hnone => Meets.pure fun w hw => ⟨?_, hw⟩
  · refine Meets.bind (getFir_does .rx) fun rxfir => of_fact fun hrx => ?_
    refine Meets.bind (getFir_does .tx) fun txfir => of_fact fun htx => ?_
    have hboth : ∀ f : BladerfDirection → RficFir, rxfir = f .rx ∧ txfir = f .tx →
        x.fir = fun dir => some (f dir) := by
      rintro f ⟨rfl, rfl⟩
      funext dir
      cases dir
      · exact hrx
      · exact htx
    refine Meets.pure fun w hw => ⟨planFor_actions c (fun h => ?_) fun h => ?_, hw⟩
    · exact hboth (fun _ => .by4) (by simpa using h)
    · exact hboth bladerfRficFirDefault (by simpa using h)
  · have hlow : inRange4x c.target = false ∧ inRange4x x.rate = false := by
      simpa [rateFirClassify, RateCall.target] using hnone
    refine ⟨fun henter => ?_, fun hleave => (by cases hleave), fun _ _ => ?_⟩
    · rw [Bool.and_eq_true] at henter
      cases henter.2
    · rw [after, hlow.1, hlow.2]
      rfl

theorem bladerf2SetSampleRate_does (c : RateCall) :
    Does (At m x) m (bladerf2SetSampleRate c) fun _ => At m (after c x) := by
  refine Meets.ite (fun _ => Meets.throw fun _ hw => hw.1) fun _ => ?_
  refine Meets.ite (fun _ => Meets.throw fun _ hw => hw.1) fun _ => ?_
  refine Meets.bind (plan_does c) fun p => of_fact fun hp => ?_
  refine Meets.bind (Does.when (Q := fun w => ∃ y, At m y w ∧
    y.fir = if p.newLow && p.enter4x then fir4x else x.fir) (fun hb => ?_) fun hb w hw => ?_)
    fun _ => ?_
  · exact enter4x_does.weaken (fun _ => id) (fun _ w hw => ⟨_, hw, (if_pos hb).symm⟩) fun _ _ => id
  · exact ⟨x, hw, (if_neg (Bool.eq_false_iff.mp hb)).symm⟩
  refine Meets.of_state fun w hw => ?_
  obtain ⟨y, hy, hfir⟩ := hw
  refine Meets.weaken (P := At m y) ?_ (by rintro _ rfl; exact hy) (fun _ _ => id) fun _ _ => id
  refine Meets.bind (Does.when (Q := fun w => ∃ z, At m z w ∧ z.fir = (after c x).fir)
    (fun hl => ?_) fun hl w hw => ⟨y, hw, ?_⟩) fun _ => ?_
  · exact leave4x_does.weaken (fun _ => id) (fun _ w hw => ⟨_, hw, (hp.leave hl).symm⟩)
      fun _ _ => id
  · rw [hfir]
    split_ifs with hb
    · exact (hp.enter hb).2.symm
    · exact (hp.stay (Bool.eq_false_iff.mpr hb) hl).symm
  refine Meets.bind (Q := fun _ => At m (after c x)) ?_ fun _ => ?_
  · rintro w ⟨z, hz, hzfir⟩
    refine ((step_does _).check.weaken (fun _ => id) (fun _ v hv => ⟨hv.1, hv.2.trans ?_⟩)
      fun _ _ => id) w hz
    exact congrArg (RateRfic.mk c.target) hzfir
  · exact Does.when (fun _ => Meets.bind getRate_does fun _ => Meets.pure fun _ hw => hw.2)
      fun _ _ => id

end

end RateM

/-! ## Runs -/

/-- The calls, each from where the one before it ended, whichever way it ended. -/
def rateRun (w : RateWorld) (calls : List RateCall) : RateWorld :=
  calls.foldl (fun w c => ((bladerf2SetSampleRate c).exec w).2) w

def RateCall.Returns (c : RateCall) (w : RateWorld) : Prop :=
  ((bladerf2SetSampleRate c).exec w).1 = .ok ()

def RateWorld.Together (w : RateWorld) : Prop :=
  w.rfic.fir = if inRange4x w.rfic.rate then RateM.fir4x else RateM.firDefault

section

variable {c : RateCall} {w : RateWorld}

theorem rateRun_append (w : RateWorld) (calls : List RateCall) (c : RateCall) :
    rateRun w (calls ++ [c]) = rateRun (rateRun w calls) [c] := List.foldl_append

theorem rateRun_cases (w : RateWorld) (c : RateCall) : (rateRun w [c]).manual = w.manual ∧
    (c.Returns w → (rateRun w [c]).rfic = RateM.after c w.rfic) := by
  have hdoes := RateM.bladerf2SetSampleRate_does c w ⟨rfl, rfl⟩
  unfold RateCall.Returns
  show ((bladerf2SetSampleRate c).exec w).2.manual = _ ∧
    (_ → ((bladerf2SetSampleRate c).exec w).2.rfic = _)
  split at hdoes
  · rename_i hexec
    rw [hexec]
    exact ⟨hdoes.1, fun _ => hdoes.2⟩
  · rename_i hexec
    rw [hexec]
    exact ⟨hdoes, nofun⟩

theorem manual_rateRun (w : RateWorld) (calls : List RateCall) :
    (rateRun w calls).manual = w.manual := by
  induction calls using List.reverseRecOn with
  | nil => rfl
  | append_singleton calls c ih =>
      rw [rateRun_append, ← ih]
      exact (rateRun_cases _ c).1

theorem RateCall.Returns.together (h : c.Returns w)
    (hw : inRange4x c.target = false → inRange4x w.rfic.rate = false →
      w.rfic.fir = RateM.firDefault) : (rateRun w [c]).Together := by
  unfold RateWorld.Together
  rw [(rateRun_cases w c).2 h, RateM.after]
  dsimp only
  split_ifs with htarget hr
  · rfl
  · rfl
  · exact hw (Bool.eq_false_iff.mpr htarget) (Bool.eq_false_iff.mpr hr)

theorem together_or_failed (hw : w.rfic.fir = RateM.firDefault) (calls : List RateCall)
    (hc : c.Returns (rateRun w calls)) : (rateRun w (calls ++ [c])).Together ∨
      ∃ pre failed post, calls = pre ++ failed :: post ∧ ¬failed.Returns (rateRun w pre) ∧
        ∀ d ∈ post ++ [c], inRange4x d.target = false := by
  induction calls using List.reverseRecOn generalizing c with
  | nil => exact .inl (hc.together fun _ _ => hw)
  | append_singleton calls b ih =>
      rw [rateRun_append]
      cases htarget : inRange4x c.target with
      | true => exact .inl (hc.together fun h => nomatch htarget.symm.trans h)
      | false =>
          by_cases hb : b.Returns (rateRun w calls)
          · rcases ih hb with htogether | ⟨pre, failed, post, rfl, hfailed, hpost⟩
            · refine .inl (hc.together fun _ hr => htogether.trans (if_neg ?_))
              rw [hr]
              exact Bool.false_ne_true
            · refine .inr ⟨pre, failed, post ++ [b], by simp, hfailed, ?_⟩
              intro d hd
              rcases List.mem_append.mp hd with hd | hd
              · exact hpost d hd
              · rw [List.mem_singleton.mp hd, htarget]
          · refine .inr ⟨calls, b, [], rfl, hb, fun d hd => ?_⟩
            rw [List.mem_singleton.mp hd, htarget]

end

/-- A call that returns 0 has set the rate it was asked for, with the filters that fit it; or
a call failed before it, and no call behind that one asked for a 4x rate. -/
theorem rate_and_filters_together (w : RateWorld) (hw : w.rfic.fir = RateM.firDefault)
    (calls : List RateCall) (c : RateCall) (hc : c.Returns (rateRun w calls)) :
    (rateRun w (calls ++ [c])).rfic.rate = c.target ∧
    (rateRun w (calls ++ [c])).manual = w.manual ∧
    ((rateRun w (calls ++ [c])).Together ∨
      ∃ pre failed post, calls = pre ++ failed :: post ∧ ¬failed.Returns (rateRun w pre) ∧
        ∀ d ∈ post ++ [c], inRange4x d.target = false) := by
  refine ⟨?_, manual_rateRun _ _, together_or_failed hw calls hc⟩
  rw [rateRun_append]
  exact congrArg RateRfic.rate ((rateRun_cases _ c).2 hc)

/-- A host board at the intermediate rate.  The first 4x filter of TX fails, and so do
the steps that would put the default filters back. -/
def unluckyRate : RateWorld where
  rfic := ⟨rateFirIntermediate, RateM.firDefault⟩
  manual := some false
  answers n := if 5 ≤ n ∧ n ≤ 7 then ⟨.io, ⟨rateFirIntermediate, RateM.fir4x⟩⟩
    else ⟨.ok, ⟨0, fun _ => none⟩⟩

def slowRate : RateCall := ⟨false, false, 1000000, true⟩

def fastRate : RateCall := ⟨false, false, 20000000, false⟩

/-- Behind a failed call a native rate runs with the 4x filters, until a 4x rate has been
set in between. -/
theorem rate_and_filters_together_again :
    ¬slowRate.Returns unluckyRate ∧ fastRate.Returns (rateRun unluckyRate [slowRate]) ∧
      ¬(rateRun unluckyRate [slowRate, fastRate]).Together ∧
    (rateRun unluckyRate ([slowRate, fastRate, slowRate] ++ [fastRate])).rfic.rate = 20000000 ∧
    (rateRun unluckyRate ([slowRate, fastRate, slowRate] ++ [fastRate])).manual = some false ∧
    (rateRun unluckyRate ([slowRate, fastRate, slowRate] ++ [fastRate])).Together := by
  have hslow : slowRate.Returns (rateRun unluckyRate [slowRate, fastRate]) := rfl
  have h4x : inRange4x slowRate.target = true := rfl
  obtain ⟨hrate, hmanual, hfir⟩ := rate_and_filters_together unluckyRate rfl
    [slowRate, fastRate, slowRate] fastRate rfl
  refine ⟨(fun h => nomatch h), rfl, (fun h => nomatch congrFun h .tx), hrate, hmanual,
    hfir.resolve_right ?_⟩
  rintro ⟨pre, failed, post, hcalls, hfailed, hpost⟩
  have hlast : slowRate ∉ post := fun hmem =>
    absurd (h4x.symm.trans (hpost slowRate (List.mem_append_left _ hmem))) Bool.true_eq_false.mp
  match pre, hcalls with
  | [], hcalls =>
      have hpost : [fastRate, slowRate] = post := (List.cons.inj hcalls).2
      exact hlast (hpost ▸ by simp)
  | [_], hcalls =>
      have hpost : [slowRate] = post := (List.cons.inj (List.cons.inj hcalls).2).2
      exact hlast (hpost ▸ by simp)
  | [a, b], hcalls =>
      obtain ⟨rfl, rfl, rfl, -⟩ : slowRate = a ∧ fastRate = b ∧ slowRate = failed ∧ [] = post := by
        simpa using hcalls
      exact hfailed hslow
  | _ :: _ :: _ :: pre, hcalls =>
      have hlength := congrArg List.length hcalls
      simp at hlength

end BladeRF
