/-
# `Nios.RetuneScheduled` — a queued retune against the same retune at once

The queue is first-in first-out: in every run, what is at its head is the oldest
retune that was accepted and has neither run nor been cancelled, with the
frequency words of its packet, whatever the slot held a lap before.  Its XB-200
settings are the stack byte of the call that queued it.  So a retune that is due
programs the LMS6002D as the packet says, and does with the XB-200 what that byte
says.
-/
import BladeRF.Nios.Agreement
import BladeRF.Nios.Retune
import Mathlib.Data.List.Forall2

namespace BladeRF

open Lib.StatusM

variable {σ : Type}

/-! ## The XB-200 -/

theorem xbConfigWrite_disabled (b : LmsBoard σ) {xbGpio : BitVec 8}
    (h : xb200Enabled xbGpio = false) (s : LmsState σ) :
    (xbConfigWrite b xbGpio).exec s = (.ok (), s) := by
  simp only [xbConfigWrite, h]
  rfl

theorem xb200_bits (xbGpio : BitVec 8) :
    xb200Enabled (xbGpio &&& 0xfc) = xb200Enabled xbGpio ∧
      xb200ModuleRx (xbGpio &&& 0xfc) = xb200ModuleRx xbGpio ∧
      xb200FilterSw (xbGpio &&& 0xfc) = xb200FilterSw xbGpio ∧
      xb200Path (xbGpio &&& 0xfc) = xb200Path xbGpio := by
  revert xbGpio
  decide +kernel

theorem xbConfigWrite_bits (b : LmsBoard σ) (xbGpio : BitVec 8) :
    xbConfigWrite b (xbGpio &&& 0xfc) = xbConfigWrite b xbGpio := by
  obtain ⟨henabled, hrx, hfilter, hpath⟩ := xb200_bits xbGpio
  have hport : xb200Port (xbGpio &&& 0xfc) = xb200Port xbGpio := by
    funext val
    simp only [xb200Port, hrx, hfilter, hpath]
  have hswap : xb200Swap (xbGpio &&& 0xfc) = xb200Swap xbGpio := by
    funext reg
    simp only [xb200Swap, hrx, hpath]
  simp only [xbConfigWrite]
  rw [hport, hswap, henabled]

/-- The two settings ask for the same: for nothing, or for one configuration. -/
def SameXb200 (x y : BitVec 8) : Prop :=
  (xb200Enabled x = false ∧ xb200Enabled y = false) ∨
    (xb200Enabled x = true ∧ x &&& 0xfc = y &&& 0xfc)

theorem SameXb200.exec_eq {x y : BitVec 8} (h : SameXb200 x y) (b : LmsBoard σ) (s : LmsState σ) :
    (xbConfigWrite b x).exec s = (xbConfigWrite b y).exec s := by
  rcases h with ⟨hx, hy⟩ | ⟨-, h⟩
  · rw [xbConfigWrite_disabled b hx, xbConfigWrite_disabled b hy]
  · rw [← xbConfigWrite_bits b x, h, xbConfigWrite_bits]

/-! ## A board that takes the calls down

Its VTUNE comparator answers as in a tuning that converges, whatever VCOCAP it
starts from; it records what the expansion port is set to. -/

structure RecordingBoard where
  vtuneReads : ℕ
  port : List (BitVec 32)
deriving DecidableEq

/-- NORM, then over the HIGH limit, then over the LOW limit and back. -/
def recordingVtune (n : ℕ) : BitVec 8 := [0x00, 0x80, 0x40, 0x00].getD n 0x00

def recordingBoard (bandOk : Bool) : LmsBoard RecordingBoard where
  lms6Read addr s :=
    if addr = 0x1a ∨ addr = 0x2a then
      (some (recordingVtune s.vtuneReads), { s with vtuneReads := s.vtuneReads + 1 })
    else (some 0, s)
  lms6Write _ _ s := (true, s)
  controlRegRead _ := 0
  controlRegWrite _ s := (bandOk, s)
  expansionPortRead _ := 0
  expansionPortWrite v s := (true, { s with port := s.port ++ [v] })
  busyWait _ s := s

namespace RecordingBoard

variable {ok : Bool}

/-- The program succeeds and has not touched the expansion port. -/
def Quiet (m : LmsM RecordingBoard Unit) (s : LmsState RecordingBoard) : Prop :=
  ∃ t, m.exec s = (.ok (), t) ∧ t.dev.port = s.dev.port

variable (module : BladerfModule)

theorem tuneVcocap_quiet {vcocap : BitVec 8} (h : vcocap.toNat < 64) :
    Quiet (tuneVcocap (recordingBoard ok) vcocap (if module = .rx then 0x20 else 0x10) 0)
      ⟨⟨0, []⟩, 0xff⟩ := by
  have hrun : ∀ (ok rx : Bool) (v : BitVec 6),
      (match (tuneVcocap (recordingBoard ok) (v.setWidth 8) (if rx then 0x20 else 0x10) 0).exec
          ⟨⟨0, []⟩, 0xff⟩ with
        | (.ok _, s) => decide (s.dev.port = [])
        | (.error _, _) => false) = true := by
    decide +kernel
  have hv : vcocap = (vcocap.setWidth 6).setWidth 8 := by bv_omega
  have hthis := hrun ok (decide (module = .rx)) (vcocap.setWidth 6)
  rw [← hv] at hthis
  simp only [decide_eq_true_eq] at hthis
  split at hthis
  · exact ⟨_, ‹_›, of_decide_eq_true hthis⟩
  · cases hthis

theorem lmsProgramFrequency_exec (f : LmsFreq) :
    (lmsProgramFrequency (recordingBoard ok) module f).exec ⟨⟨0, []⟩, 0xff⟩ =
      (if f.flags &&& lmsFreqFlagsForceVcocap ≠ 0 then
        modify fun s => { s with vcocapResult := f.vcocap }
      else
        tuneVcocap (recordingBoard ok) f.vcocap (if module = .rx then 0x20 else 0x10) 0 :
          LmsM RecordingBoard Unit).exec ⟨⟨0, []⟩, 0xff⟩ := by
  cases module <;> rfl

theorem lmsProgramFrequency_quiet {f : LmsFreq} (h : f.vcocap.toNat < 64) :
    Quiet (lmsProgramFrequency (recordingBoard ok) module f) ⟨⟨0, []⟩, 0xff⟩ := by
  rw [Quiet, lmsProgramFrequency_exec]
  split
  · exact ⟨_, rfl, rfl⟩
  · exact tuneVcocap_quiet module h

theorem lmsSetPrecalculatedFrequency_quiet {f : LmsFreq} (h : f.vcocap.toNat < 64) (v : BitVec 8) :
    Quiet (lmsSetPrecalculatedFrequency (recordingBoard ok) module f) ⟨⟨0, []⟩, v⟩ := by
  obtain ⟨t, ht, hport⟩ : Quiet (lmsProgramFrequency (recordingBoard ok) module f) _ :=
    lmsProgramFrequency_quiet module h
  have hstatus : (lmsStatus (lmsProgramFrequency (recordingBoard ok) module f)).exec
      ⟨⟨0, []⟩, 0xff⟩ = (.ok 0, t) := by
    rw [lmsStatus, exec_tryCatch, exec_bind, ht]
    rfl
  have hdsm : (lmsUpdateDsm (recordingBoard ok) (· ||| 0x05)).exec ⟨⟨0, []⟩, 0xff⟩ =
      (.ok (), ⟨⟨0, []⟩, 0xff⟩) := rfl
  have hoff : (lmsStatus (lmsUpdateDsm (recordingBoard ok)
      (· &&& ~~~(0x05 : BitVec 8)))).exec t = (.ok 0, t) := rfl
  refine ⟨t, ?_, hport⟩
  rw [lmsSetPrecalculatedFrequency, exec_bind]
  show (lmsUpdateDsm (recordingBoard ok) (· ||| 0x05) >>= fun _ => _).exec ⟨⟨0, []⟩, 0xff⟩ = _
  rw [exec_bind, hdsm]
  show (lmsStatus (lmsProgramFrequency (recordingBoard ok) module f) >>= fun _ => _).exec
    ⟨⟨0, []⟩, 0xff⟩ = _
  rw [exec_bind, hstatus]
  show (lmsStatus (lmsUpdateDsm (recordingBoard ok) (· &&& ~~~(0x05 : BitVec 8)))
    >>= fun _ => _).exec t = _
  rw [exec_bind, hoff]
  rfl

theorem bandSelect_exec (lowBand : Bool) (s : LmsState RecordingBoard) :
    (bandSelect (recordingBoard ok) module lowBand).exec s =
      (if ok then .ok () else .error (-1), s) := by
  cases module <;> cases ok <;> rfl

theorem xbConfigWrite_port {xbGpio : BitVec 8} (h : xb200Enabled xbGpio = true)
    (s : LmsState RecordingBoard) :
    ((xbConfigWrite (recordingBoard ok) xbGpio).exec s).2.dev.port =
      s.dev.port ++ [xb200Port xbGpio 0] := by
  simp only [xbConfigWrite, h]
  rfl

end RecordingBoard

/-! ## The two executions -/

structure LmsBoard.Reliable (b : LmsBoard σ) : Prop where
  read : ∀ addr s, (b.lms6Read addr s).1.isSome
  write : ∀ addr data s, (b.lms6Write addr data s).1 = true
  control : ∀ data s, (b.controlRegWrite data s).1 = true

section

variable {b : LmsBoard σ}

abbrev Succeeds {α : Type} (m : LmsM σ α) : Prop :=
  Meets (fun _ => True) m (fun _ _ => True) fun _ _ => False

section

variable (h : b.Reliable)

include h

theorem LmsBoard.Reliable.lmsRead (addr : BitVec 8) :
    Succeeds (lmsRead b addr) := by
  intro s _
  obtain ⟨data, hdata⟩ := Option.isSome_iff_exists.mp (h.read addr s.dev)
  rw [lmsRead_exec, hdata]
  trivial

theorem LmsBoard.Reliable.lmsWrite (addr data : BitVec 8) :
    Succeeds (lmsWrite b addr data) := by
  intro s _
  rw [lmsWrite_exec, if_pos (h.write addr data s.dev)]
  trivial

theorem LmsBoard.Reliable.configGpioWrite (data : BitVec 32) :
    Succeeds (configGpioWrite b data) := by
  intro s _
  rw [configGpioWrite_exec, if_pos (h.control data s.dev)]
  trivial

theorem LmsBoard.Reliable.isLoopbackEnabled :
    Succeeds (isLoopbackEnabled b) := by
  refine Meets.bind (h.lmsRead 0x08) fun lbenLbrfen => ?_
  refine Meets.bind (h.lmsRead 0x46) fun loopbben => ?_
  refine Meets.ite (fun _ => Meets.pure fun _ => id) fun _ => ?_
  exact Meets.ite (fun _ => Meets.pure fun _ => id) fun _ => Meets.pure fun _ => id

theorem LmsBoard.Reliable.lmsSelectBand (module : BladerfModule)
    (lowBand : Bool) : Succeeds (lmsSelectBand b module lowBand) := by
  refine Meets.bind h.isLoopbackEnabled fun loopback => ?_
  refine Meets.ite (fun _ => Meets.pure fun _ => id) fun _ => ?_
  refine Meets.ite (fun _ => ?_) fun _ => ?_
  · exact Meets.bind (h.lmsRead 0x44) fun _ => h.lmsWrite 0x44 _
  · exact Meets.bind (h.lmsRead 0x75) fun _ => h.lmsWrite 0x75 _

theorem LmsBoard.Reliable.bandSelect (module : BladerfModule)
    (lowBand : Bool) : Succeeds (bandSelect b module lowBand) := by
  refine Meets.bind (h.lmsSelectBand module lowBand) fun _ => ?_
  refine Meets.bind (Q := fun _ _ => True) (fun _ _ => trivial) fun gpio => ?_
  exact h.configGpioWrite _

end

end

namespace Retune

section

variable {b : LmsBoard σ} {module : BladerfModule} {r : RetuneRequest} {stack stack' : BitVec 8}
  {dev : σ}

theorem lmsSetPrecalculatedFrequency_stack (b : LmsBoard σ) (module : BladerfModule)
    (r : RetuneRequest) (stack stack' : BitVec 8) :
    lmsSetPrecalculatedFrequency b module (r.lmsFreq stack) =
      lmsSetPrecalculatedFrequency b module (r.lmsFreq stack') := rfl

theorem lmsFreq_lowBand (r : RetuneRequest) (stack : BitVec 8) :
    ((r.lmsFreq stack).flags &&& lmsFreqFlagsLowBand != 0) = r.lowBand := by
  show (((if r.lowBand then lmsFreqFlagsLowBand else 0)
    ||| (if r.quickTune then lmsFreqFlagsForceVcocap else 0)) &&& lmsFreqFlagsLowBand != 0) = _
  cases r.lowBand <;> cases r.quickTune <;> decide

theorem performRetune_dev (b : LmsBoard σ) (module : BladerfModule) (r : RetuneRequest)
    (stack : BitVec 8) (dev : σ) :
    (performRetune b module (r.lmsFreq stack) dev).dev =
      match (lmsSetPrecalculatedFrequency b module (r.lmsFreq stack)).exec ⟨dev, 0xff⟩ with
      | (.error _, s) => s.dev
      | (.ok _, s) =>
          ((xbConfigWrite b stack).exec ((bandSelect b module r.lowBand).exec s).2).2.dev := by
  rw [← lmsFreq_lowBand r stack]
  simp only [performRetune]
  show (match (lmsSetPrecalculatedFrequency b module (r.lmsFreq stack)).exec ⟨dev, 0xff⟩ with
    | (.error _, s) => s
    | (.ok _, s) => _).dev = _
  rcases (lmsSetPrecalculatedFrequency b module (r.lmsFreq stack)).exec ⟨dev, 0xff⟩ with ⟨_ | _, s⟩
    <;> rfl

theorem retuneAtOnce_dev (b : LmsBoard σ) (module : BladerfModule) (r : RetuneRequest)
    (stack : BitVec 8) (dev : σ) :
    (retuneAtOnce b module r (r.lmsFreq stack) dev).2 =
      match (lmsSetPrecalculatedFrequency b module (r.lmsFreq stack)).exec ⟨dev, 0xff⟩ with
      | (.error _, s) => s.dev
      | (.ok _, s) =>
          match (bandSelect b module r.lowBand).exec s with
          | (.error _, s) => s.dev
          | (.ok _, s) => ((xbConfigWrite b r.xbGpio).exec s).2.dev := by
  simp only [retuneAtOnce]
  show (match (lmsSetPrecalculatedFrequency b module (r.lmsFreq stack)).exec ⟨dev, 0xff⟩ with
    | (.error _, s) => _
    | (.ok _, s) => _ : Answer × σ).2 = _
  rcases (lmsSetPrecalculatedFrequency b module (r.lmsFreq stack)).exec ⟨dev, 0xff⟩ with
    ⟨_ | _, s⟩
  · rfl
  · dsimp only
    rcases (bandSelect b module r.lowBand).exec s with ⟨_ | _, s⟩
    · rfl
    · dsimp only
      rcases (xbConfigWrite b r.xbGpio).exec s with ⟨_ | _, s⟩ <;> rfl

theorem retune_eq_of_disabled (hstack : xb200Enabled stack = false)
    (hpacket : xb200Enabled r.xbGpio = false) :
    (performRetune b module (r.lmsFreq stack) dev).dev =
      (retuneAtOnce b module r (r.lmsFreq stack') dev).2 := by
  rw [performRetune_dev, retuneAtOnce_dev, lmsSetPrecalculatedFrequency_stack b module r stack
    stack']
  rcases (lmsSetPrecalculatedFrequency b module (r.lmsFreq stack')).exec ⟨dev, 0xff⟩ with
    ⟨_ | _, s⟩
  · rfl
  · dsimp only
    rw [xbConfigWrite_disabled b hstack]
    rcases (bandSelect b module r.lowBand).exec s with ⟨_ | _, s⟩
    · rfl
    · dsimp only
      rw [xbConfigWrite_disabled b hpacket]

theorem retune_eq_of_sameXb200 (hb : b.Reliable) (h : SameXb200 stack r.xbGpio) :
    (performRetune b module (r.lmsFreq stack) dev).dev =
      (retuneAtOnce b module r (r.lmsFreq stack') dev).2 := by
  rw [performRetune_dev, retuneAtOnce_dev, lmsSetPrecalculatedFrequency_stack b module r stack
    stack']
  rcases (lmsSetPrecalculatedFrequency b module (r.lmsFreq stack')).exec ⟨dev, 0xff⟩ with
    ⟨_ | _, s⟩
  · rfl
  · have hband := hb.bandSelect module r.lowBand s trivial
    dsimp only
    split at hband
    · rename_i t heq
      rw [heq]
      dsimp only
      rw [h.exec_eq]
    · exact hband.elim

end

/-! ## What tells them apart -/

section

variable {module : BladerfModule} {r : RetuneRequest} {stack stack' : BitVec 8}

theorem recorded_perform (ok : Bool) (h : r.vcocap.toNat < 64) :
    (performRetune (recordingBoard ok) module (r.lmsFreq stack) ⟨0, []⟩).dev.port =
      if xb200Enabled stack then [xb200Port stack 0] else [] := by
  obtain ⟨s, hs, hport⟩ : RecordingBoard.Quiet (lmsSetPrecalculatedFrequency (recordingBoard ok)
    module (r.lmsFreq stack)) ⟨⟨0, []⟩, 0xff⟩ :=
    RecordingBoard.lmsSetPrecalculatedFrequency_quiet module h 0xff
  rw [performRetune_dev, hs]
  dsimp only
  rw [RecordingBoard.bandSelect_exec]
  cases henabled : xb200Enabled stack with
  | false =>
      rw [xbConfigWrite_disabled _ henabled]
      exact hport
  | true =>
      rw [RecordingBoard.xbConfigWrite_port henabled]
      show s.dev.port ++ _ = _
      rw [hport]
      rfl

theorem recorded_at_once (ok : Bool) (h : r.vcocap.toNat < 64) :
    (retuneAtOnce (recordingBoard ok) module r (r.lmsFreq stack) ⟨0, []⟩).2.port =
      if ok && xb200Enabled r.xbGpio then [xb200Port r.xbGpio 0] else [] := by
  obtain ⟨s, hs, hport⟩ : RecordingBoard.Quiet (lmsSetPrecalculatedFrequency (recordingBoard ok)
    module (r.lmsFreq stack)) ⟨⟨0, []⟩, 0xff⟩ :=
    RecordingBoard.lmsSetPrecalculatedFrequency_quiet module h 0xff
  rw [retuneAtOnce_dev, hs]
  dsimp only
  rw [RecordingBoard.bandSelect_exec]
  cases ok with
  | false => exact hport
  | true =>
      cases henabled : xb200Enabled r.xbGpio with
      | false =>
          rw [if_pos rfl]
          dsimp only
          rw [xbConfigWrite_disabled _ henabled]
          exact hport
      | true =>
          rw [if_pos rfl]
          dsimp only
          rw [RecordingBoard.xbConfigWrite_port henabled, hport]
          rfl

theorem xb200Port_inj {x y : BitVec 8} (h : xb200Port x 0 = xb200Port y 0) :
    x &&& 0x7c = y &&& 0x7c := by
  let settings (val : BitVec 32) : BitVec 8 :=
    if val &&& 0x2000 ≠ 0 then
      0x40 ||| ((val >>> 28) &&& 3).setWidth 8 <<< 4 ||| ((val >>> 4) &&& 3).setWidth 8 <<< 2
    else ((val >>> 26) &&& 3).setWidth 8 <<< 4 ||| ((val >>> 2) &&& 3).setWidth 8 <<< 2
  have hsettings : ∀ x : BitVec 8, settings (xb200Port x 0) = x &&& 0x7c := by
    decide +kernel
  rw [← hsettings x, h, hsettings y]

theorem recordingBoard_reliable : (recordingBoard true).Reliable where
  read addr s := by
    simp only [recordingBoard]
    split <;> rfl
  write _ _ _ := rfl
  control _ _ := rfl

theorem sameXb200_of_port {x y : BitVec 8}
    (h : (if xb200Enabled x then [xb200Port x 0] else []) =
      if xb200Enabled y then [xb200Port y 0] else []) : SameXb200 x y := by
  have hbits : ∀ x : BitVec 8, xb200Enabled x = true → x &&& 0xfc = 0x80 ||| (x &&& 0x7c) := by
    decide +kernel
  cases hx : xb200Enabled x with
  | false =>
      cases hy : xb200Enabled y with
      | false => exact .inl ⟨hx, hy⟩
      | true =>
          rw [hx, hy] at h
          cases h
  | true =>
      cases hy : xb200Enabled y with
      | false =>
          rw [hx, hy] at h
          cases h
      | true =>
          rw [hx, hy] at h
          have hport := xb200Port_inj (List.cons.inj h).1
          exact .inr ⟨hx, by rw [hbits x hx, hbits y hy, hport]⟩

theorem retune_eq_iff (module : BladerfModule) (stack stack' : BitVec 8) (h : r.vcocap.toNat < 64) :
    (∀ (τ : Type) (b : LmsBoard τ) (dev : τ),
      (performRetune b module (r.lmsFreq stack) dev).dev =
        (retuneAtOnce b module r (r.lmsFreq stack') dev).2) ↔
      xb200Enabled stack = false ∧ xb200Enabled r.xbGpio = false := by
  constructor
  · intro heq
    -- the board on which the band selection fails shows what the stack asks for
    have hfails := congrArg RecordingBoard.port (heq _ (recordingBoard false) ⟨0, []⟩)
    rw [recorded_perform false h, recorded_at_once false h] at hfails
    have hstack : xb200Enabled stack = false := by
      cases hx : xb200Enabled stack with
      | false => rfl
      | true =>
          rw [hx] at hfails
          cases hfails
    have hworks := congrArg RecordingBoard.port (heq _ (recordingBoard true) ⟨0, []⟩)
    rw [recorded_perform true h, recorded_at_once true h, hstack] at hworks
    refine ⟨hstack, ?_⟩
    cases hx : xb200Enabled r.xbGpio with
    | false => rfl
    | true =>
        rw [hx] at hworks
        cases hworks
  · rintro ⟨hstack, hpacket⟩ τ b dev
    exact retune_eq_of_disabled hstack hpacket

theorem retune_eq_iff_reliable (module : BladerfModule) (stack stack' : BitVec 8)
    (h : r.vcocap.toNat < 64) :
    (∀ (τ : Type) (b : LmsBoard τ), b.Reliable → ∀ dev : τ,
      (performRetune b module (r.lmsFreq stack) dev).dev =
        (retuneAtOnce b module r (r.lmsFreq stack') dev).2) ↔
      SameXb200 stack r.xbGpio := by
  constructor
  · intro heq
    have hworks := congrArg RecordingBoard.port
      (heq _ (recordingBoard true) recordingBoard_reliable ⟨0, []⟩)
    rw [recorded_perform true h, recorded_at_once true h, Bool.true_and] at hworks
    exact sameXb200_of_port hworks
  · intro hsame τ b hb dev
    exact retune_eq_of_sameXb200 hb hsame

end

/-! ## Runs -/

/-- A call of `pkt_retune` that queued a retune. -/
structure Accepted where
  packet : Packet
  stack : BitVec 8

def Accepted.request (a : Accepted) : RetuneRequest := niosPktRetuneUnpack a.packet

inductive Event where
  | packet (c : Call) (p : Packet)
  | interrupt (module : BladerfModule) (compareFired : Bool)
  | work (module : BladerfModule) (t : TamerAnswers)

/-- The system, and the retunes of each module that were accepted and have not
left its queue. -/
structure Run (σ : Type) extends System σ where
  owed : BladerfModule → List Accepted

/-- The response says that the retune is queued for the module. -/
def queuedFor (p resp : Packet) (module : BladerfModule) : Bool :=
  (niosPktRetuneUnpack p).module == some module && (niosPktRetuneUnpack p).scheduled
    && resp.flag 10 niosPktRetuneRespFlagSuccess

def Run.step (b : LmsBoard σ) (s : Run σ) : Event → Run σ
  | .packet c p =>
      let res := pktRetune b c p s.toSystem
      { toSystem := res.2
        owed := fun module =>
          if queuedFor p res.1 module then s.owed module ++ [⟨p, c.stack⟩] else s.owed module }
  | .interrupt module compareFired =>
      { s with
        queues := Function.update s.queues module (retuneIsr compareFired (s.queues module)) }
  | .work module t =>
      let res := performWork b module t (s.queues module) s.dev
      let left := (s.queues module).ring.count - res.1.ring.count
      { queues := Function.update s.queues module res.1
        dev := res.2
        owed := Function.update s.owed module ((s.owed module).drop left) }

/-- After `pkt_retune_init`, over whatever the queues held. -/
def Run.Start (s : Run σ) : Prop :=
  ∀ module, (∃ q : Queue, s.queues module = q.reset) ∧ s.owed module = []

/-! ## The queue is first-in first-out -/

def QueueEntry.Holds (e : QueueEntry) (a : Accepted) : Prop :=
  e.freq = a.request.lmsFreq a.stack ∧ e.timestamp = a.request.timestamp

def Queue.Carries (q : Queue) (l : List Accepted) : Prop :=
  List.Forall₂ QueueEntry.Holds q.ring.items l

def KeepsRequest (f : QueueEntry → QueueEntry) : Prop :=
  ∀ e, (f e).freq = e.freq ∧ (f e).timestamp = e.timestamp

variable (t : TamerAnswers)

theorem requestCancel_keeps (recoverySeen : Bool) :
    KeepsRequest (·.requestCancel t recoverySeen) := by
  intro e
  simp only [QueueEntry.requestCancel]
  split <;> exact ⟨rfl, rfl⟩

theorem tryCancel_keeps : KeepsRequest (·.tryCancel t) := fun e =>
  requestCancel_keeps t true { e with cancelRecoverySeen := t.cancelRequest.isSome }

theorem startCancel_keeps : KeepsRequest QueueEntry.startCancel := by
  intro e
  simp only [QueueEntry.startCancel]
  split <;> exact ⟨rfl, rfl⟩

theorem cancel_keeps : KeepsRequest QueueEntry.cancel := fun _ => ⟨rfl, rfl⟩

theorem arm_keeps : KeepsRequest (·.arm t) := fun _ => ⟨rfl, rfl⟩

theorem schedule_keeps (clearRequested : Bool) :
    KeepsRequest (·.schedule t clearRequested) := by
  intro e
  simp only [QueueEntry.schedule]
  split_ifs <;> exact ⟨rfl, rfl⟩

inductive Updated (r : Lib.Ring QueueEntry retuneQueueMax) :
    Lib.Ring QueueEntry retuneQueueMax → Prop
  | same : Updated r r
  | head {f : QueueEntry → QueueEntry} (hf : KeepsRequest f) : Updated r (r.modifyHead f)

/-- The ring after a turn of the worker: the head is updated, it is dropped, or
all is. -/
inductive Turned (r : Lib.Ring QueueEntry retuneQueueMax) :
    Lib.Ring QueueEntry retuneQueueMax → Prop
  | update {r' : Lib.Ring QueueEntry retuneQueueMax} (h : Updated r r') : Turned r r'
  | drop {f : QueueEntry → QueueEntry} (h : r.count ≠ 0) : Turned r (r.modifyHead f).dropOldest
  | clear {r' : Lib.Ring QueueEntry retuneQueueMax} (h : r'.count = 0) : Turned r r'

theorem Updated.count_eq {r r' : Lib.Ring QueueEntry retuneQueueMax} (h : Updated r r') :
    r'.count = r.count := by
  cases h <;> rfl

variable {q : Queue} {l : List Accepted} {e : QueueEntry} {module : BladerfModule} {p : Packet}

theorem Updated.carries {q' : Queue} (h : Updated q.ring q'.ring)
    (hq : q.Carries l) : q'.Carries l := by
  unfold Queue.Carries at hq ⊢
  generalize q'.ring = r' at h
  cases h with
  | same => exact hq
  | @head f hf =>
      rw [Lib.Ring.items_modifyHead]
      generalize q.ring.items = items at hq
      cases hq with
      | nil => exact .nil
      | @cons e a es as hea hrest =>
          refine .cons ⟨?_, ?_⟩ hrest
          · rw [(hf e).1]
            exact hea.1
          · rw [(hf e).2]
            exact hea.2

theorem Turned.carries {q' : Queue} (h : Turned q.ring q'.ring)
    (hq : q.Carries l) : q'.Carries (l.drop (q.ring.count - q'.ring.count)) := by
  unfold Queue.Carries at hq ⊢
  have hlen : q.ring.count = l.length := by rw [← q.ring.length_items, hq.length_eq]
  generalize hr : q'.ring = r' at h
  cases h with
  | update h =>
      rw [h.count_eq, Nat.sub_self, List.drop_zero, ← hr]
      rw [← hr] at h
      exact h.carries hq
  | @drop f h =>
      have hone : q.ring.count - (q.ring.modifyHead f).dropOldest.count = 1 := by
        show q.ring.count - (q.ring.count - 1) = 1
        omega
      rw [hone, Lib.Ring.items_dropOldest, Lib.Ring.items_modifyHead]
      generalize q.ring.items = items at hq
      cases hq with
      | nil => exact .nil
      | cons hea hrest => exact hrest
  | clear h =>
      rw [h, Nat.sub_zero, hlen, List.drop_length, List.eq_nil_of_length_eq_zero
        ((Lib.Ring.length_items _).trans h)]
      exact .nil

theorem count_ne_zero_of_peek (h : q.peek = some e) :
    q.ring.count ≠ 0 := by
  intro hzero
  rw [Queue.peek, Lib.Ring.peek, if_pos hzero] at h
  cases h

theorem requestClearCancel_ring (q : Queue) (t : TamerAnswers) (recoverySeen : Bool) :
    (q.requestClearCancel t recoverySeen).ring = q.ring := by
  simp only [Queue.requestClearCancel]
  split <;> rfl

theorem retuneIsr_ring (compareFired : Bool) (q : Queue) :
    Updated q.ring (retuneIsr compareFired q).ring := by
  unfold retuneIsr
  split
  · exact .same
  · split
    · exact .same
    · split
      · exact Updated.head (f := ({ · with state := .ready })) fun _ => ⟨rfl, rfl⟩
      · exact .same

theorem clearQueueAgain_ring (q : Queue) :
    Updated q.ring (clearQueueAgain t q).2.ring := by
  unfold clearQueueAgain
  split
  · exact .same
  · split
    · split_ifs
      · rw [requestClearCancel_ring]
        exact .same
      · rw [requestClearCancel_ring]
        exact .same
      · exact .same
    · split_ifs
      · exact .head (requestCancel_keeps t true)
      · exact .head (requestCancel_keeps t _)
      · exact .same

theorem clearQueueAsync_ring (q : Queue) :
    Updated q.ring (clearQueueAsync t q).2.ring := by
  have hstart : ∀ {f : QueueEntry → QueueEntry}, KeepsRequest f →
      Updated q.ring ((q.ring.modifyHead QueueEntry.startCancel).modifyHead f) := by
    intro f hf
    rw [Lib.Ring.modifyHead_modifyHead]
    refine .head fun e => ⟨?_, ?_⟩
    · exact (hf e.startCancel).1.trans (startCancel_keeps e).1
    · exact (hf e.startCancel).2.trans (startCancel_keeps e).2
  unfold clearQueueAsync
  split
  · exact .same
  · split
    · exact clearQueueAgain_ring t q
    · dsimp only
      split
      · split_ifs
        · exact .same
        · rw [requestClearCancel_ring]
          exact .same
        · rw [requestClearCancel_ring]
          exact .same
      · split_ifs
        · exact .head startCancel_keeps
        · exact hstart (requestCancel_keeps t true)
        · exact .head startCancel_keeps
        · exact hstart (tryCancel_keeps t)

theorem performClear_ring (q : Queue) : (performClear t q).ring = q.ring := by
  unfold performClear
  split_ifs
  all_goals first
    | rfl
    | exact requestClearCancel_ring _ _ _

theorem dequeueRetune_ring (f : QueueEntry → QueueEntry) (h : q.ring.count ≠ 0) :
    Turned q.ring (q.modifyHead f).dequeueRetune.ring := by
  rw [Queue.dequeueRetune, if_neg (show (q.modifyHead f).ring.count ≠ 0 from h)]
  exact .drop h

theorem performCancel_ring (h : q.ring.count ≠ 0) : Turned q.ring (performCancel t q e).ring := by
  unfold performCancel
  split
  · exact Turned.update <| Updated.head
      (f := ({ · with cancelRecoverySeen := false, cancelRequestPending := false }))
      fun _ => ⟨rfl, rfl⟩
  · split
    · split
      · split
        · exact .clear rfl
        · have hid : q.modifyHead id = q := by
            simp only [Queue.modifyHead, Lib.Ring.modifyHead, id, Function.update_eq_self]
          have hdrop := dequeueRetune_ring id h
          rw [hid] at hdrop
          exact hdrop
      · split
        · exact Turned.update <| Updated.head
            (f := ({ · with cancelRequestPending := false, cancelRecoverySeen := true }))
            fun _ => ⟨rfl, rfl⟩
        · exact .update .same
    · split
      · exact .update (.head (tryCancel_keeps t))
      · exact .update .same

theorem performWork_ring (b : LmsBoard σ) (module : BladerfModule) (t : TamerAnswers)
    (q : Queue) (dev : σ) : Turned q.ring (performWork b module t q dev).1.ring := by
  unfold performWork
  split
  · rw [performClear_ring]
    exact .update .same
  · rename_i e hpeek
    have hcount := count_ne_zero_of_peek hpeek
    split
    · exact .update (.head (schedule_keeps t q.clearRequested))
    · split_ifs
      · exact .update (.head cancel_keeps)
      · exact .update (.head (arm_keeps t))
      · exact .update (.head cancel_keeps)
      · exact .update .same
    · split_ifs
      · exact Turned.update <| Updated.head (f := ({ · with state := .ready })) fun _ => ⟨rfl, rfl⟩
      · exact Turned.update <| Updated.head
          (f := ({ · with state := .cancelPending, cancelRecoverySeen := false }))
          fun _ => ⟨rfl, rfl⟩
      · exact .update .same
    · exact performCancel_ring t hcount
    · exact dequeueRetune_ring _ hcount
    · exact .update .same

theorem enqueueRetune_refused {f : LmsFreq} {timestamp : BitVec 64}
    (h : (q.enqueueRetune f timestamp).1 = false) :
    (q.enqueueRetune f timestamp).2.ring = q.ring := by
  unfold Queue.enqueueRetune at h ⊢
  dsimp only at h ⊢
  split_ifs at h ⊢
  · rfl
  · rfl

theorem enqueueRetune_carries {a : Accepted}
    (h : (q.enqueueRetune (a.request.lmsFreq a.stack) a.request.timestamp).1 = true)
    (hq : q.Carries l) :
    (q.enqueueRetune (a.request.lmsFreq a.stack) a.request.timestamp).2.Carries (l ++ [a]) := by
  unfold Queue.enqueueRetune at h ⊢
  dsimp only at h ⊢
  split_ifs at h ⊢
  unfold Queue.Carries at hq ⊢
  rw [Lib.Ring.items_append]
  exact List.rel_append hq (.cons ⟨rfl, rfl⟩ .nil)

/-! ## One step of a run -/

/-- Every queue carries what it owes, and owes retunes of its own module. -/
def Inv (s : Run σ) : Prop :=
  ∀ module, (s.queues module).Carries (s.owed module) ∧
    ∀ a ∈ s.owed module, a.request.module = some module ∧ a.request.scheduled = true

theorem Run.Start.inv {s : Run σ} (h : s.Start) : Inv s := by
  intro module
  obtain ⟨⟨q, hq⟩, howed⟩ := h module
  rw [howed]
  refine ⟨?_, fun a ha => absurd ha List.not_mem_nil⟩
  rw [hq]
  exact .nil

theorem Inv.update {s s' : Run σ}
    (h : Inv s) (hqueues : s'.queues = Function.update s.queues module q)
    (howed : s'.owed = Function.update s.owed module l) (hq : q.Carries l)
    (hl : ∀ a ∈ l, a.request.module = some module ∧ a.request.scheduled = true) : Inv s' := by
  intro module'
  rw [hqueues, howed]
  rcases eq_or_ne module' module with rfl | hne
  · rw [Function.update_self, Function.update_self]
    exact ⟨hq, hl⟩
  · rw [Function.update_of_ne hne, Function.update_of_ne hne]
    exact h module'

theorem flag_packet (a : Answer) (duration : BitVec 64)
    (h : a.flags &&& niosPktRetuneRespFlagSuccess = niosPktRetuneRespFlagSuccess) :
    (a.packet duration).flag 10 niosPktRetuneRespFlagSuccess = a.success := by
  have hbyte : ∀ (duration : BitVec 64) (vcocap flags : BitVec 8),
      (niosPktRetuneRespPack duration vcocap flags).byte 10 = flags := fun _ _ _ => rfl
  rw [Packet.flag, Answer.packet, hbyte]
  cases a.success with
  | false =>
      have hclear : ~~~niosPktRetuneRespFlagSuccess &&& niosPktRetuneRespFlagSuccess = 0 := by
        decide
      rw [if_neg (by simp), BitVec.and_assoc, hclear]
      simp
  | true =>
      rw [if_pos rfl, h]
      rfl

theorem Inv.quiet {s s' : Run σ} (h : Inv s)
    (hqueues : ∀ module, Updated (s.queues module).ring (s'.queues module).ring)
    (howed : s'.owed = s.owed) : Inv s' := by
  intro module
  rw [howed]
  exact ⟨(hqueues module).carries (h module).1, (h module).2⟩

theorem queuedFor_unscheduled (h : (niosPktRetuneUnpack p).scheduled = false)
    (resp : Packet) (module : BladerfModule) : queuedFor p resp module = false := by
  rw [queuedFor, h, Bool.and_false, Bool.false_and]

theorem pktRetune_decoded (b : LmsBoard σ) {c : Call} {r : RetuneRequest}
    {s : System σ} (hr : niosPktRetuneUnpack p = r)
    (hmodule : r.module = some module) (hstart : ¬(r.scheduled && c.startTime.isNone) = true) :
    ∃ duration, pktRetune b c p s =
      ((retuneModule b module r c s).1.packet duration, (retuneModule b module r c s).2) := by
  refine ⟨if r.scheduled then c.endTime.elim 0 (· - c.startTime.getD 0) else 0, ?_⟩
  simp only [pktRetune, hr, hmodule]
  rw [if_neg hstart]

theorem Inv.decoded {s s' : Run σ} {r : RetuneRequest} (b : LmsBoard σ) (c : Call) (h : Inv s)
    (hr : niosPktRetuneUnpack p = r) (hmodule : r.module = some module) (duration : BitVec 64)
    (hqueues : s'.queues = (retuneModule b module r c s.toSystem).2.queues)
    (howed : ∀ m, s'.owed m =
      if queuedFor p ((retuneModule b module r c s.toSystem).1.packet duration) m then
        s.owed m ++ [⟨p, c.stack⟩]
      else s.owed m) : Inv s' := by
  have hunscheduled : r.scheduled = false → s'.owed = s.owed := by
    intro hscheduled
    funext m
    rw [howed, queuedFor_unscheduled (hr ▸ hscheduled)]
    rfl
  by_cases hnow : r.timestamp.toNat = niosPktRetuneNow
  · have hscheduled : r.scheduled = false := by simp [RetuneRequest.scheduled, hnow]
    refine h.quiet (fun m => ?_) (hunscheduled hscheduled)
    rw [hqueues, retuneModule, if_pos hnow]
    exact .same
  by_cases hclear : r.timestamp.toNat = niosPktRetuneClearQueue
  · have hscheduled : r.scheduled = false := by simp [RetuneRequest.scheduled, hclear]
    refine h.quiet (fun m => ?_) (hunscheduled hscheduled)
    rw [hqueues, retuneModule, if_neg hnow, if_pos hclear]
    show Updated (s.queues m).ring (Function.update s.queues module _ m).ring
    rcases eq_or_ne m module with rfl | hne
    · rw [Function.update_self]
      exact clearQueueAsync_ring c.tamer _
    · rw [Function.update_of_ne hne]
      exact .same
  have hscheduled : r.scheduled = true := by
    simp [RetuneRequest.scheduled, hnow, hclear]
  let a : Accepted := ⟨p, c.stack⟩
  have ha : a.request = r := hr
  let res := (s.queues module).enqueueRetune (r.lmsFreq c.stack) r.timestamp
  have hres : retuneModule b module r c s.toSystem =
      (⟨res.1, niosPktRetuneRespFlagSuccess, 0xff⟩,
        { s.toSystem with queues := Function.update s.queues module res.2 }) := by
    rw [retuneModule, if_neg hnow, if_neg hclear]
    rfl
  rw [hres] at hqueues
  have howed' : ∀ m, s'.owed m =
      if decide (m = module) && res.1 then s.owed m ++ [a] else s.owed m := by
    intro m
    have hmodules : (r.module == some m) = decide (m = module) := by
      rw [hmodule]
      cases m <;> cases module <;> decide
    have hflag := flag_packet ⟨res.1, niosPktRetuneRespFlagSuccess, 0xff⟩ duration
      (by decide : niosPktRetuneRespFlagSuccess &&& niosPktRetuneRespFlagSuccess = _)
    rw [howed, hres, queuedFor, hflag, hr, hscheduled, hmodules, Bool.and_true]
  cases hroom : res.1 with
  | false =>
      refine h.quiet (fun m => ?_) (funext fun m => ?_)
      · rw [hqueues]
        show Updated (s.queues m).ring (Function.update s.queues module res.2 m).ring
        rcases eq_or_ne m module with rfl | hne
        · rw [Function.update_self, enqueueRetune_refused hroom]
          exact .same
        · rw [Function.update_of_ne hne]
          exact .same
      · rw [howed', hroom, Bool.and_false]
        rfl
  | true =>
      have hcarries := enqueueRetune_carries (a := a) (ha ▸ hroom) (h module).1
      rw [ha] at hcarries
      refine h.update hqueues (l := s.owed module ++ [a]) (funext fun m => ?_) hcarries ?_
      · rw [howed', hroom, Bool.and_true]
        rcases eq_or_ne m module with rfl | hne
        · rw [Function.update_self, decide_eq_true rfl]
          rfl
        · rw [Function.update_of_ne hne, decide_eq_false hne]
          rfl
      · intro a' ha'
        rcases List.mem_append.mp ha' with hmem | hmem
        · exact (h module).2 a' hmem
        · rw [List.mem_singleton.mp hmem, ha]
          exact ⟨hmodule, hscheduled⟩

theorem Inv.packet {s : Run σ} (b : LmsBoard σ) (c : Call) (p : Packet) (h : Inv s) :
    Inv (s.step b (.packet c p)) := by
  have hquiet : ∀ {resp : Packet}, (∀ module, queuedFor p resp module = false) →
      (fun module => if queuedFor p resp module then s.owed module ++ [⟨p, c.stack⟩]
        else s.owed module) = s.owed := by
    intro resp hnone
    funext module
    rw [hnone module]
    rfl
  generalize hr : niosPktRetuneUnpack p = r
  by_cases hstart : (r.scheduled && c.startTime.isNone) = true
  · -- the time cannot be read
    have hres : pktRetune b c p s.toSystem =
        (Answer.packet ⟨false, niosPktRetuneRespFlagSuccess, 0xff⟩ 0, s.toSystem) := by
      simp only [pktRetune, hr, hstart, if_pos]
    simp only [Run.step, hres]
    refine h.quiet (fun _ => .same) (hquiet fun module => ?_)
    rw [queuedFor, flag_packet _ _ rfl, Bool.and_false]
  · cases hmodule : r.module with
    | none =>
        have hres : (pktRetune b c p s.toSystem).2 = s.toSystem := by
          simp only [pktRetune, hr, hmodule]
          rw [if_neg hstart]
        simp only [Run.step, hres]
        refine h.quiet (fun _ => .same) (hquiet fun module => ?_)
        rw [queuedFor, hr, hmodule]
        rfl
    | some module =>
        obtain ⟨duration, hres⟩ := pktRetune_decoded b (s := s.toSystem) hr hmodule hstart
        refine h.decoded b c hr hmodule duration ?_ fun m => ?_
        · simp only [Run.step, hres]
        · simp only [Run.step, hres]

theorem Inv.step {s : Run σ} (b : LmsBoard σ) (e : Event) (h : Inv s) : Inv (s.step b e) := by
  cases e with
  | packet c p => exact h.packet b c p
  | interrupt module compareFired =>
      refine h.quiet (fun m => ?_) rfl
      show Updated (s.queues m).ring
        (Function.update s.queues module (retuneIsr compareFired (s.queues module)) m).ring
      rcases eq_or_ne m module with rfl | hne
      · rw [Function.update_self]
        exact retuneIsr_ring compareFired _
      · rw [Function.update_of_ne hne]
        exact .same
  | work module t =>
      have hring := performWork_ring b module t (s.queues module) s.dev
      exact h.update rfl rfl (hring.carries (h module).1) fun a ha =>
        (h module).2 a (List.mem_of_mem_drop ha)

theorem Inv.run {s : Run σ} (b : LmsBoard σ) (events : List Event) (h : Inv s) :
    Inv (events.foldl (Run.step b) s) := by
  induction events generalizing s with
  | nil => exact h
  | cons e events ih => exact ih (h.step b e)

/-! ## The packet at once -/

theorem retuneNow_byte (p : Packet) {i : ℕ} (h : 9 ≤ i) : p.retuneNow.byte i = p.byte i := by
  have hlen : (p.bytes.take 1 ++ Lib.leBytes 8 niosPktRetuneNow).length = 9 := by
    simp [p.length_eq]
  show (p.bytes.take 1 ++ Lib.leBytes 8 niosPktRetuneNow ++ p.bytes.drop 9).getD i 0 =
    p.bytes.getD i 0
  rw [List.getD_eq_getElem?_getD, List.getD_eq_getElem?_getD,
    List.getElem?_append_right (by omega), hlen, List.getElem?_drop]
  congr 2
  omega

theorem retuneNow_timestamp (p : Packet) : p.retuneNow.field 1 8 = niosPktRetuneNow := by
  have hlen : (p.bytes.take 1).length = 1 := by
    simp [p.length_eq]
  have hbytes : p.retuneNow.bytes =
      p.bytes.take 1 ++ Lib.leBytes 8 niosPktRetuneNow ++ p.bytes.drop 9 := rfl
  rw [Packet.field_segment _ _ _ hbytes hlen (Lib.length_leBytes _ _),
    Lib.leNat_leBytes_of_lt (by decide)]

theorem unpack_retuneNow (p : Packet) :
    niosPktRetuneUnpack p.retuneNow = { niosPktRetuneUnpack p with timestamp := 0 } := by
  simp only [niosPktRetuneUnpack, Packet.flag, retuneNow_timestamp,
    retuneNow_byte p (show 9 ≤ 9 by omega), retuneNow_byte p (show 9 ≤ 10 by omega),
    retuneNow_byte p (show 9 ≤ 11 by omega), retuneNow_byte p (show 9 ≤ 12 by omega),
    retuneNow_byte p (show 9 ≤ 13 by omega), retuneNow_byte p (show 9 ≤ 14 by omega),
    retuneNow_byte p (show 9 ≤ 15 by omega)]
  rfl

theorem pktRetune_now (b : LmsBoard σ) (c : Call)
    (h : (niosPktRetuneUnpack p).module = some module) (s : System σ) (stack : BitVec 8) :
    (pktRetune b c p.retuneNow s).2.dev =
      (retuneAtOnce b module (niosPktRetuneUnpack p)
        ((niosPktRetuneUnpack p).lmsFreq stack) s.dev).2 := by
  obtain ⟨duration, hres⟩ := pktRetune_decoded b (c := c) (s := s) (unpack_retuneNow p) h
    Bool.false_ne_true
  rw [hres]
  exact (retuneAtOnce_dev b module _ c.stack s.dev).trans
    (retuneAtOnce_dev b module _ stack s.dev).symm

theorem vcocap_lt (p : Packet) : (niosPktRetuneUnpack p).vcocap.toNat < 64 := by
  show (p.byte 14 &&& 0x3f).toNat < 64
  have hle : (p.byte 14 &&& 0x3f).toNat ≤ 0x3f := by
    rw [BitVec.toNat_and]
    exact Nat.and_le_right
  omega

/-! ## A retune that is due -/

theorem performWork_ready (b : LmsBoard σ) (module : BladerfModule) (t : TamerAnswers)
    (hpeek : q.peek = some e) (hready : e.state = .ready) (dev : σ) :
    (performWork b module t q dev).2 = (performRetune b module e.freq dev).dev := by
  simp only [performWork, hpeek, hready]

theorem Queue.Carries.peek (h : q.Carries l)
    (hpeek : q.peek = some e) : ∃ a rest, l = a :: rest ∧ e.Holds a := by
  rw [Queue.peek, Lib.Ring.peek_eq_head?] at hpeek
  unfold Queue.Carries at h
  generalize q.ring.items = items at h hpeek
  cases h with
  | nil => cases hpeek
  | @cons e' a es as hea hrest =>
      obtain rfl : e' = e := Option.some.inj hpeek
      exact ⟨a, as, rfl, hea⟩

/-- A turn of the worker on the queue is the packet at once, on the boards with
`P`. -/
def SameAsNow (module : BladerfModule) (q : Queue) (p : Packet)
    (P : ∀ {τ : Type}, LmsBoard τ → Prop) : Prop :=
  ∀ (τ : Type) (b : LmsBoard τ), P b → ∀ (t : TamerAnswers) (c : Call) (s : System τ),
    (performWork b module t q s.dev).2 = (pktRetune b c p.retuneNow s).2.dev

/-- In every run, a retune that is due is that of the oldest packet still owed.
It does to the board what the packet would do at once exactly where neither the
packet nor the stack byte of the call that queued it asks for the XB-200; on
boards whose accesses do not fail, exactly where both ask for the same. -/
theorem retune_scheduled_eq_now (b : LmsBoard σ) {s : Run σ} (hstart : s.Start)
    (events : List Event) (module : BladerfModule)
    (hready : ((events.foldl (Run.step b) s).queues module).peek.map (·.state) = some .ready) :
    ∃ a rest, (events.foldl (Run.step b) s).owed module = a :: rest ∧
      a.request.module = some module ∧ a.request.scheduled = true ∧
      (SameAsNow module ((events.foldl (Run.step b) s).queues module) a.packet (fun _ => True) ↔
        xb200Enabled a.stack = false ∧ xb200Enabled a.request.xbGpio = false) ∧
      (SameAsNow module ((events.foldl (Run.step b) s).queues module) a.packet
        LmsBoard.Reliable ↔ SameXb200 a.stack a.request.xbGpio) := by
  have hinv := (hstart.inv.run b events) module
  generalize (events.foldl (Run.step b) s).queues module = q at hready hinv
  obtain ⟨e, hpeek, hstate⟩ := Option.map_eq_some_iff.mp hready
  obtain ⟨a, rest, howed, hfreq, -⟩ := hinv.1.peek hpeek
  obtain ⟨hmodule, hscheduled⟩ := hinv.2 a (howed ▸ List.mem_cons_self)
  have hvcocap : a.request.vcocap.toNat < 64 := vcocap_lt a.packet
  have hsame : ∀ P : ∀ {τ : Type}, LmsBoard τ → Prop, SameAsNow module q a.packet P ↔
      ∀ (τ : Type) (b : LmsBoard τ), P b → ∀ dev : τ,
        (performRetune b module (a.request.lmsFreq a.stack) dev).dev =
          (retuneAtOnce b module a.request (a.request.lmsFreq a.stack) dev).2 := by
    intro P
    have hdev : ∀ {τ : Type} (b : LmsBoard τ) (t : TamerAnswers) (c : Call) (s : System τ),
        (performWork b module t q s.dev).2 = (pktRetune b c a.packet.retuneNow s).2.dev ↔
          (performRetune b module (a.request.lmsFreq a.stack) s.dev).dev =
            (retuneAtOnce b module a.request (a.request.lmsFreq a.stack) s.dev).2 := by
      intro τ b t c s
      rw [performWork_ready b module t hpeek hstate, hfreq,
        pktRetune_now b c hmodule s a.stack]
      rfl
    constructor
    · intro h τ b hb dev
      let t : TamerAnswers :=
        ⟨false, false, false, false, false, false, none, fun _ => false, false⟩
      exact (hdev b t ⟨0, t, none, none⟩ ⟨fun _ => q, dev⟩).mp (h τ b hb _ _ _)
    · intro h τ b hb t c s
      exact (hdev b t c s).mpr (h τ b hb s.dev)
  refine ⟨a, rest, howed, hmodule, hscheduled, ?_, ?_⟩
  · rw [hsame, ← retune_eq_iff module a.stack a.stack hvcocap]
    exact ⟨fun h τ b dev => h τ b trivial dev, fun h τ b _ dev => h τ b dev⟩
  · rw [hsame]
    exact retune_eq_iff_reliable module a.stack a.stack hvcocap

/-! ### A packet for tick 1000 -/

/-- A quick tune of the receiver with the given XB-200 settings. -/
def tick1000 (xbGpio : BitVec 8) : Packet :=
  ⟨[niosPktRetuneMagic] ++ Lib.leBytes 8 1000
      ++ [0x3e, 0x80, 0x00, 0x00, 0x40 ||| 0x25, 0xc0 ||| 0x1c, xbGpio], by simp⟩

def promptTamer : TamerAnswers :=
  { clockStalled := false
    scheduleRequest := true
    scheduleAcknowledged := true
    scheduleFailed := false
    compareFired := true
    cancelFailed := false
    cancelRequest := none
    cancelAcknowledged := fun _ => false
    preempted := false }

def clearCall : Call := ⟨0, promptTamer, some 0, some 0⟩

def booted : Run RecordingBoard :=
  { queues := fun _ => Queue.reset
      { ring :=
          { cells := fun _ => ⟨.invalid, ⟨0, 0, 0, 0, 0, 0, 0⟩, 0, false, false, 0⟩
            head := 0
            count := 0
            head_lt := by decide
            count_le := by decide }
        clearRequested := false
        clearComplete := false
        clearCancelPending := false
        clearCancelRecoverySeen := false
        clearCancelAckBefore := 0 }
    dev := ⟨0, []⟩
    owed := fun _ => [] }

theorem booted_start : booted.Start := fun _ => ⟨⟨_, rfl⟩, rfl⟩

def tick1000Run (xbGpio : BitVec 8) : Run RecordingBoard :=
  [.packet clearCall (tick1000 xbGpio), .work .rx promptTamer].foldl
    (Run.step (recordingBoard true)) booted

theorem retune_scheduled_eq_now_tick1000 :
    SameAsNow .rx ((tick1000Run 0).queues .rx) (tick1000 0) (fun _ => True) := by
  obtain ⟨a, rest, howed, -, -, hsame, -⟩ :=
    retune_scheduled_eq_now (recordingBoard true) booted_start
      [.packet clearCall (tick1000 0), .work .rx promptTamer] .rx (by decide +kernel)
  have hone : (tick1000Run 0).owed .rx = [⟨tick1000 0, 0⟩] := by rfl
  obtain rfl : (⟨tick1000 0, 0⟩ : Accepted) = a := (List.cons.inj (hone.symm.trans howed)).1
  exact hsame.mpr (by decide)

/-- With the XB-200 in the packet and a zero on the stack, the retune at once
sets the expansion port and the queued one does not. -/
theorem retune_scheduled_loses_xb200 :
    ¬∀ (σ : Type) (b : LmsBoard σ) (s : Run σ), s.Start → ∀ (events : List Event)
      (module : BladerfModule) (a : Accepted) (rest : List Accepted),
      ((events.foldl (Run.step b) s).queues module).peek.map (·.state) = some .ready →
      (events.foldl (Run.step b) s).owed module = a :: rest →
      SameAsNow module ((events.foldl (Run.step b) s).queues module) a.packet
        LmsBoard.Reliable := by
  intro h
  have hsame := h RecordingBoard (recordingBoard true) booted booted_start
    [.packet clearCall (tick1000 0xe4), .work .rx promptTamer] .rx ⟨tick1000 0xe4, 0⟩ []
    (by decide +kernel) (by rfl) RecordingBoard (recordingBoard true) recordingBoard_reliable
    promptTamer clearCall (tick1000Run 0xe4).toSystem
  have hports : (performWork (recordingBoard true) .rx promptTamer
        ((tick1000Run 0xe4).queues .rx) (tick1000Run 0xe4).dev).2 ≠
      (pktRetune (recordingBoard true) clearCall (tick1000 0xe4).retuneNow
        (tick1000Run 0xe4).toSystem).2.dev := by
    decide +kernel
  exact hports hsame

end Retune

end BladeRF
