/-
# `Fpga.Mailboxes` — the command mailboxes of the two gates

`rx_epoch_controller` and `tx_retune_gate_controller` decode the words of their
link and drive `rx_epoch_gate` and `tx_retune_gate`.  The RX decoder gives all
pulses of a word at once.  The TX decoder holds an ARM back for two clocks, so
that the gate has compared its target, and gives COMPLETE and ABORT at once: an
ARM and a later ABORT in one word arrive in the wrong order.
-/
import BladeRF.Fpga.CommandLink
import BladeRF.Fpga.RxEpochGate
import BladeRF.Fpga.TxRetuneGate

namespace BladeRF

variable {n : ℕ}

/-! ## The RX epoch mailbox -/

/-- The RX epoch control word. -/
instance : CommandWord (BitVec 32) where
  control := id
  zero := 0
  control_zero := rfl

def rxEpochCtrlModify (clear set toggle word : BitVec 32) : BitVec 32 :=
  ((word &&& ~~~clear) ||| set) ^^^ toggle

def rxEpochArm (epochId : BitVec 8) : BitVec 32 → BitVec 32 :=
  rxEpochCtrlModify (0xff#32 <<< 8) (epochId.setWidth 32 <<< 8 ||| 0x10000#32) 1#32

def rxEpochComplete : BitVec 32 → BitVec 32 :=
  rxEpochCtrlModify 0 0 2#32

def rxEpochAbort : BitVec 32 → BitVec 32 :=
  rxEpochCtrlModify 0 0 4#32

theorem toggleOf_control (w : BitVec 32) (c : GateCommand) : toggleOf w c = w.getLsbD c.bit := rfl

theorem rxEpochArm_flips (epochId : BitVec 8) (w : BitVec 32) :
    CommandFront.Flips w (rxEpochArm epochId w) (some .arm) := by
  intro d
  cases d <;>
    simp [toggleOf_control, GateCommand.bit, rxEpochArm, rxEpochCtrlModify]

theorem rxEpochComplete_flips (w : BitVec 32) :
    CommandFront.Flips w (rxEpochComplete w) (some .complete) := by
  intro d
  cases d <;> simp [toggleOf_control, GateCommand.bit, rxEpochComplete, rxEpochCtrlModify]

theorem rxEpochAbort_flips (w : BitVec 32) :
    CommandFront.Flips w (rxEpochAbort w) (some .abort) := by
  intro d
  cases d <;> simp [toggleOf_control, GateCommand.bit, rxEpochAbort, rxEpochCtrlModify]

/-- The registers of `decode_toggles` behind the baseline. -/
structure RxEpochController where
  armRx : Bool := false
  completeRx : Bool := false
  abortRx : Bool := false
  epochIdRx : BitVec 8 := 0
  metaEnableRx : Bool := false
  completeSeenRx : Bool := false

namespace RxEpochController

def epochIdOf (w : BitVec 32) : BitVec 8 :=
  w.extractLsb 15 8

def decodeToggles (d : RxEpochController) (f : CommandFront (BitVec 32)) : RxEpochController :=
  let d₀ := { d with armRx := false, completeRx := false, abortRx := false }
  if f.toggles.controlInitCapturePending then
    { d₀ with
      epochIdRx := epochIdOf f.control
      metaEnableRx := f.control.getLsbD 16
      completeSeenRx := false }
  else if f.acknowledge && !f.toggles.controlInitialized then d₀
  else
    { armRx := toggleOf f.control .arm != f.toggles.previousToggles .arm
      completeRx := toggleOf f.control .complete != f.toggles.previousToggles .complete
      abortRx := toggleOf f.control .abort != f.toggles.previousToggles .abort
      epochIdRx := epochIdOf f.control
      metaEnableRx := f.control.getLsbD 16
      completeSeenRx := if d.armRx then false else if d.completeRx then true else d.completeSeenRx }

def pulse (d : RxEpochController) : GateCommand → Bool
  | .arm => d.armRx
  | .complete => d.completeRx
  | .abort => d.abortRx

theorem decodeToggles_pulse (d : RxEpochController) (f : CommandFront (BitVec 32))
    (c : GateCommand) : (d.decodeToggles f).pulse c = f.flips c := by
  unfold decodeToggles CommandFront.flips ToggleBaseline.flips ToggleBaseline.decodes
  cases f.toggles.controlInitCapturePending <;> cases f.acknowledge <;>
    cases f.toggles.controlInitialized <;> cases c <;> rfl

theorem decodeToggles_epochId {d : RxEpochController} {f : CommandFront (BitVec 32)}
    (h : (d.decodeToggles f).armRx = true) :
    (d.decodeToggles f).epochIdRx = epochIdOf f.control := by
  unfold decodeToggles at h ⊢
  split at h
  · cases h
  · split at h
    · cases h
    · rename_i hp ha
      rw [if_neg hp, if_neg ha]

end RxEpochController

/-- The RX mailbox with its gate.  `pulses` counts the clocks with a pulse since
the reset, and `armWord` is the word that the last ARM was decoded from. -/
structure RxMailbox (n : ℕ) where
  front : CommandFront (BitVec 32)
  controller : RxEpochController := {}
  gate : RxEpochGate n := {}
  pulses : GateCommand → ℕ := fun _ => 0
  armWord : BitVec 32 := 0

/-- The steps: the writes of NIOS, an edge of either clock with what else the
gate sees on it, and a reset of the RX side. -/
inductive RxMailboxAct (n : ℕ) where
  | arm (epochId : BitVec 8)
  | complete
  | abort
  | sourceClock
  | rxClock (x : RxEpochGate.Input n)
  | rxReset

def RxMailboxAct.command : RxMailboxAct n → Option GateCommand
  | .arm _ => some .arm
  | .complete => some .complete
  | .abort => some .abort
  | .sourceClock | .rxClock _ | .rxReset => none

namespace RxMailbox

/-- The gate sees the registers of the controller.  Its COMPLETE comes through
the pipeline of the spatial filter, if there is one, and is left open. -/
def gateInput (m : RxMailbox n) (x : RxEpochGate.Input n) : RxEpochGate.Input n :=
  { x with
    epochArm := m.controller.armRx
    epochAbort := m.controller.abortRx
    epochIdIn := m.controller.epochIdRx }

def rxClock (m : RxMailbox n) (x : RxEpochGate.Input n) : RxMailbox n :=
  let controller := m.controller.decodeToggles m.front
  { front := m.front.destClock
    controller := controller
    gate := m.gate.clock (m.gateInput x)
    pulses := fun c => m.pulses c + (controller.pulse c).toNat
    armWord := if controller.armRx then m.front.control else m.armWord }

def step (m : RxMailbox n) : RxMailboxAct n → Option (RxMailbox n)
  | .arm epochId =>
      some { m with front := m.front.write (some .arm) (rxEpochArm epochId m.front.source) }
  | .complete =>
      some { m with front := m.front.write (some .complete) (rxEpochComplete m.front.source) }
  | .abort => some { m with front := m.front.write (some .abort) (rxEpochAbort m.front.source) }
  | .sourceClock => some { m with front := m.front.sourceClock }
  | .rxClock x => some (m.rxClock x)
  | .rxReset => some { front := m.front.destReset }

def OnceBetween (m : RxMailbox n) (a : RxMailboxAct n) : Prop :=
  ∀ c, a.command = some c → c ∉ m.front.log.drop m.front.captured

def start : RxMailbox n where
  front := .initial

structure Delivers (m : RxMailbox n) : Prop where
  /-- every command decoded since the baseline has given one pulse -/
  once : ∀ c, m.pulses c = m.front.delivered.count c
  /-- and what is captured is decoded at the next edge -/
  next : ∀ b, m.front.base = some b →
    m.front.destClock.delivered = (m.front.log.take m.front.captured).drop b
  word : m.controller.armRx = true →
    m.controller.epochIdRx = RxEpochController.epochIdOf m.armWord
  stopped : ∀ b, m.front.base = some b → b < m.front.log.length →
    m.front.decoded = m.front.log.length → m.front.log.getLast? = some .abort →
    (∀ c, m.controller.pulse c = false) → m.gate.state = .error

structure Tracks (m : RxMailbox n) : Prop where
  sound : m.front.Sound
  once : ∀ c, m.pulses c = m.front.delivered.count c
  word : m.controller.armRx = true →
    m.controller.epochIdRx = RxEpochController.epochIdOf m.armWord
  aborted : m.front.delivered.getLast? = some .abort →
    m.controller.abortRx = true ∨ m.gate.state = .error ∧ m.controller.armRx = false

variable {m m' : RxMailbox n}

theorem start_tracks : (start : RxMailbox n).Tracks :=
  ⟨CommandFront.initial_sound, fun _ => rfl, (fun h => by cases h), fun h => by cases h⟩

theorem Tracks.write (h : m.Tracks) {c : GateCommand} {w : BitVec 32}
    (hw : CommandFront.Flips m.front.source w (some c))
    (honce : c ∉ m.front.log.drop m.front.captured) :
    { m with front := m.front.write (some c) w }.Tracks := by
  have hdelivered := h.sound.delivered_write (some c) w
  refine ⟨h.sound.write hw ?_, ?_, h.word, ?_⟩
  · intro d hd
    obtain rfl := Option.some.inj hd
    exact honce
  · intro d
    rw [hdelivered]
    exact h.once d
  · rw [hdelivered]
    exact h.aborted

theorem Tracks.rxClock (h : m.Tracks) (x : RxEpochGate.Input n) : (m.rxClock x).Tracks := by
  have hpulse := m.controller.decodeToggles_pulse m.front
  refine ⟨h.sound.destClock, ?_, ?_, ?_⟩
  · intro c
    show m.pulses c + ((m.controller.decodeToggles m.front).pulse c).toNat =
      m.front.destClock.delivered.count c
    rw [hpulse, h.sound.count_delivered, h.once]
  · intro harm
    change (m.controller.decodeToggles m.front).armRx = true at harm
    show (m.controller.decodeToggles m.front).epochIdRx = RxEpochController.epochIdOf
      (if (m.controller.decodeToggles m.front).armRx then m.front.control else m.armWord)
    rw [if_pos harm]
    exact RxEpochController.decodeToggles_epochId harm
  · intro hlast
    show (m.controller.decodeToggles m.front).pulse .abort = true ∨
      (m.gate.decision (m.gateInput x)).state = .error ∧
        (m.controller.decodeToggles m.front).pulse .arm = false
    rw [hpulse, hpulse]
    rcases h.sound.delivered_last hlast with hnew | ⟨hnone, hlast⟩
    · exact .inl ((h.sound.flips_iff .abort).mpr (List.mem_of_getLast? hnew))
    · refine .inr ⟨?_, ?_⟩
      · rw [RxEpochGate.decision_state]
        show (if m.controller.abortRx then RxGateState.error
          else if m.controller.armRx then .pending else _) = .error
        rcases h.aborted hlast with habort | ⟨herror, harm⟩
        · rw [if_pos habort]
        · rw [herror, harm]
          simp
      · by_contra hflips
        have := (h.sound.flips_iff .arm).mp (Bool.not_eq_false _ ▸ hflips)
        rw [hnone] at this
        cases this

theorem Tracks.step (h : m.Tracks) {a : RxMailboxAct n} (hok : m.OnceBetween a)
    (hs : m.step a = some m') : m'.Tracks := by
  cases a with
  | arm epochId =>
      cases hs
      exact h.write (rxEpochArm_flips epochId _) (hok .arm rfl)
  | complete =>
      cases hs
      exact h.write (rxEpochComplete_flips _) (hok .complete rfl)
  | abort =>
      cases hs
      exact h.write (rxEpochAbort_flips _) (hok .abort rfl)
  | sourceClock =>
      cases hs
      exact ⟨h.sound.sourceClock, h.once, h.word, h.aborted⟩
  | rxClock x =>
      cases hs
      exact h.rxClock x
  | rxReset =>
      cases hs
      exact ⟨h.sound.destReset, fun _ => rfl, (fun ha => by cases ha), fun hl => by cases hl⟩

theorem Tracks.delivers (h : m.Tracks) : m.Delivers := by
  refine ⟨h.once, fun b hb => h.sound.delivered_next hb, h.word, ?_⟩
  intro b hb hlt hall hlast hquiet
  rw [← CommandFront.delivered_getLast hb hlt hall] at hlast
  rcases h.aborted hlast with habort | ⟨herror, -⟩
  · exact absurd ((hquiet .abort).symm.trans habort) Bool.false_ne_true
  · exact herror

instance (m : RxMailbox n) (a : RxMailboxAct n) : Decidable (m.OnceBetween a) :=
  decidable_of_iff (a.command.toList.all fun c => c ∉ m.front.log.drop m.front.captured) (by
    unfold OnceBetween
    cases a.command <;> simp)

end RxMailbox

/-! ## The TX gate mailbox -/

/-- `source_control & source_target_hi & source_target_lo` -/
structure TxGateWord where
  control : BitVec 32
  targetHi : BitVec 32
  targetLo : BitVec 32

instance : CommandWord TxGateWord where
  control := TxGateWord.control
  zero := ⟨0, 0, 0⟩
  control_zero := rfl

namespace TxGateWord

def immediate (w : TxGateWord) : Bool :=
  w.control.getLsbD 3

def target (w : TxGateWord) : BitVec 64 :=
  w.targetHi ++ w.targetLo

/-- The control word of `tx_retune_gate_arm`. -/
def arm (immediate : Bool) (w : TxGateWord) : TxGateWord :=
  { w with
    control := ((w.control &&& ~~~8#32) ||| if immediate then 8#32 else 0#32) ^^^ 1#32 }

/-- `tx_retune_gate_complete` -/
def complete (w : TxGateWord) : TxGateWord :=
  { w with control := w.control ^^^ 2#32 }

/-- `tx_retune_gate_abort` -/
def abort (w : TxGateWord) : TxGateWord :=
  { w with control := w.control ^^^ 4#32 }

/-- `tx_retune_gate_fifo_flush_command` -/
def fifoFlushCommand (release : Bool) (w : TxGateWord) : TxGateWord :=
  { w with control := w.control ^^^ if release then 0x20#32 else 0x10#32 }

theorem toggleOf_eq (w : TxGateWord) (c : GateCommand) :
    toggleOf w c = w.control.getLsbD c.bit := rfl

theorem arm_flips (immediate : Bool) (w : TxGateWord) :
    CommandFront.Flips w (w.arm immediate) (some .arm) := by
  intro d
  cases d <;> cases immediate <;> simp [toggleOf_eq, GateCommand.bit, arm]

theorem complete_flips (w : TxGateWord) : CommandFront.Flips w w.complete (some .complete) := by
  intro d
  cases d <;> simp [toggleOf_eq, GateCommand.bit, complete]

theorem abort_flips (w : TxGateWord) : CommandFront.Flips w w.abort (some .abort) := by
  intro d
  cases d <;> simp [toggleOf_eq, GateCommand.bit, abort]

theorem fifoFlushCommand_flips (release : Bool) (w : TxGateWord) :
    CommandFront.Flips w (w.fifoFlushCommand release) none := by
  intro d
  cases d <;> cases release <;> simp [toggleOf_eq, GateCommand.bit, fifoFlushCommand]

end TxGateWord

/-- The registers of `decode_commands` behind the baseline. -/
structure TxRetuneController where
  armPending : Bool := false
  armPendingToggle : Bool := false
  armCompareLead : Bool := false
  arm : Bool := false
  armImmediate : Bool := false
  armAckToggle : Bool := false
  targetTimestamp : BitVec 64 := 0
  complete : Bool := false
  abort : Bool := false

namespace TxRetuneController

def decodeCommands (d : TxRetuneController) (f : CommandFront TxGateWord) : TxRetuneController :=
  let d₀ := { d with arm := false, complete := false, abort := false }
  if f.toggles.controlInitCapturePending then
    { d₀ with
      armAckToggle := toggleOf f.control .arm
      armImmediate := f.control.immediate
      targetTimestamp := f.control.target
      armPending := false
      armCompareLead := false }
  else if f.acknowledge && !f.toggles.controlInitialized then d₀
  else
    let d₁ :=
      if d.armPending then
        if !d.armCompareLead then { d₀ with armCompareLead := true }
        else
          { d₀ with
            arm := true
            armAckToggle := d.armPendingToggle
            armPending := false
            armCompareLead := false }
      else d₀
    let d₂ :=
      if toggleOf f.control .arm != f.toggles.previousToggles .arm then
        { d₁ with
          armPending := true
          armPendingToggle := toggleOf f.control .arm
          armCompareLead := false }
      else d₁
    { d₂ with
      complete := toggleOf f.control .complete != f.toggles.previousToggles .complete
      abort := toggleOf f.control .abort != f.toggles.previousToggles .abort
      armImmediate := f.control.immediate
      targetTimestamp := f.control.target }

def pulse (d : TxRetuneController) : GateCommand → Bool
  | .arm => d.arm
  | .complete => d.complete
  | .abort => d.abort

def Holds (d : TxRetuneController) (w : TxGateWord) : Prop :=
  d.armImmediate = w.immediate ∧ d.targetTimestamp = w.target

variable {d : TxRetuneController} {f : CommandFront TxGateWord}

theorem decodeCommands_pulse {c : GateCommand} (hc : c ≠ .arm) :
    (d.decodeCommands f).pulse c = f.flips c := by
  unfold decodeCommands CommandFront.flips ToggleBaseline.flips ToggleBaseline.decodes
  cases c with
  | arm => exact absurd rfl hc
  | complete | abort =>
      cases f.toggles.controlInitCapturePending <;> cases f.acknowledge <;>
        cases f.toggles.controlInitialized <;> rfl

theorem decodeCommands_arm (h : f.toggles.decodes f.acknowledge = true) :
    (d.decodeCommands f).arm = (d.armPending && d.armCompareLead) ∧
      (d.decodeCommands f).armPending = (f.flips .arm || (d.armPending && !d.armCompareLead)) ∧
      (d.decodeCommands f).Holds f.control := by
  unfold CommandFront.flips ToggleBaseline.flips
  rw [h, Bool.true_and]
  unfold ToggleBaseline.decodes at h
  rw [Bool.and_eq_true, Bool.not_eq_true', Bool.not_eq_true'] at h
  unfold decodeCommands Holds
  rw [h.1, h.2]
  cases d.armPending <;> cases d.armCompareLead <;>
    cases toggleOf f.control .arm != f.toggles.previousToggles .arm <;> simp

theorem decodeCommands_lead (h : f.toggles.decodes f.acknowledge = true)
    (hp : d.armPending = true) (hl : d.armCompareLead = false) (hf : f.flips .arm = false) :
    (d.decodeCommands f).armCompareLead = true := by
  unfold CommandFront.flips ToggleBaseline.flips at hf
  rw [h, Bool.true_and] at hf
  unfold ToggleBaseline.decodes at h
  rw [Bool.and_eq_true, Bool.not_eq_true', Bool.not_eq_true'] at h
  unfold decodeCommands
  rw [h.1, h.2, hp, hl, hf]
  rfl

theorem decodeCommands_idle (h : f.toggles.decodes f.acknowledge = false)
    (hp : d.armPending = false) :
    (d.decodeCommands f).arm = false ∧ (d.decodeCommands f).armPending = false := by
  unfold ToggleBaseline.decodes at h
  unfold decodeCommands
  cases hpending : f.toggles.controlInitCapturePending with
  | true => exact ⟨rfl, rfl⟩
  | false =>
      rw [hpending, Bool.not_false, Bool.true_and, Bool.not_eq_false'] at h
      rw [h]
      exact ⟨rfl, hp⟩

end TxRetuneController

/-- The TX mailbox with its gate.  `armWord` is the word that the last ARM was
decoded from, and `pulseWord` that of the last ARM that got its pulse. -/
structure TxMailbox (n : ℕ) where
  front : CommandFront TxGateWord
  controller : TxRetuneController := {}
  gate : TxRetuneGate := {}
  pulses : GateCommand → ℕ := fun _ => 0
  armWord : TxGateWord := ⟨0, 0, 0⟩
  pulseWord : TxGateWord := ⟨0, 0, 0⟩

/-- The steps.  On an edge of the TX clock the gate sees a timestamp, an underflow
and samples, and the reader block holds ARM and COMPLETE back from it. -/
inductive TxMailboxAct (n : ℕ) where
  | targetLo (w : BitVec 32)
  | targetHi (w : BitVec 32)
  | arm (immediate : Bool)
  | complete
  | abort
  | fifoFlushCommand (release : Bool)
  | sourceClock
  | txClock (x : TxRetuneGate.Input n) (readerBlock : Bool)
  | txReset

def TxMailboxAct.command : TxMailboxAct n → Option GateCommand
  | .arm _ => some .arm
  | .complete => some .complete
  | .abort => some .abort
  | .targetLo _ | .targetHi _ | .fifoFlushCommand _ | .sourceClock | .txClock _ _ | .txReset =>
      none

namespace TxMailbox

def gateInput (m : TxMailbox n) (x : TxRetuneGate.Input n) (readerBlock : Bool) :
    TxRetuneGate.Input n :=
  { x with
    arm := m.controller.arm && !readerBlock
    armImmediate := m.controller.armImmediate
    targetTimestamp := m.controller.targetTimestamp
    complete := m.controller.complete && !readerBlock
    abort := m.controller.abort }

def txClock (m : TxMailbox n) (x : TxRetuneGate.Input n) (readerBlock : Bool) : TxMailbox n :=
  let controller := m.controller.decodeCommands m.front
  { front := m.front.destClock
    controller := controller
    gate := m.gate.clock (m.gateInput x readerBlock)
    pulses := fun c => m.pulses c + (controller.pulse c).toNat
    armWord := if m.front.flips .arm then m.front.control else m.armWord
    pulseWord := if controller.arm then m.armWord else m.pulseWord }

def write (m : TxMailbox n) (c : Option GateCommand) (w : TxGateWord) : TxMailbox n :=
  { m with front := m.front.write c w }

def step (m : TxMailbox n) : TxMailboxAct n → Option (TxMailbox n)
  | .targetLo w => some (m.write none { m.front.source with targetLo := w })
  | .targetHi w => some (m.write none { m.front.source with targetHi := w })
  | .arm immediate => some (m.write (some .arm) (m.front.source.arm immediate))
  | .complete => some (m.write (some .complete) m.front.source.complete)
  | .abort => some (m.write (some .abort) m.front.source.abort)
  | .fifoFlushCommand release => some (m.write none (m.front.source.fifoFlushCommand release))
  | .sourceClock => some { m with front := m.front.sourceClock }
  | .txClock x readerBlock => some (m.txClock x readerBlock)
  | .txReset => some { front := m.front.destReset }

def OnceBetween (m : TxMailbox n) (a : TxMailboxAct n) : Prop :=
  ∀ c, a.command = some c → c ∉ m.front.log.drop m.front.captured

/-- The commands that the next edge decodes leave the ARM its two clocks: no ARM
comes with a later ABORT, and while one waits neither a word with another
target nor, on its first clock, another ARM or an ABORT comes. -/
def ArmSettles (m : TxMailbox n) : Prop :=
  (m.front.news.getLast? = some .abort → .arm ∉ m.front.news ∧
    (m.controller.armPending = true → m.controller.armCompareLead = true)) ∧
  (m.controller.armPending = true →
    (m.controller.armCompareLead = false → .arm ∉ m.front.news) ∧
    m.controller.armImmediate = m.front.control.immediate ∧
    m.controller.targetTimestamp = m.front.control.target)

def Settles (m : TxMailbox n) (a : TxMailboxAct n) : Prop :=
  m.OnceBetween a ∧
    match a with
    | .txClock _ _ => m.ArmSettles
    | _ => True

def start : TxMailbox n where
  front := .initial

structure Delivers (m : TxMailbox n) : Prop where
  /-- every command decoded since the baseline has given one pulse, up to an ARM
  that waits -/
  once : ∀ c, m.pulses c + (decide (c = .arm) && m.controller.armPending).toNat =
    m.front.delivered.count c
  /-- and what is captured is decoded at the next edge -/
  next : ∀ b, m.front.base = some b →
    m.front.destClock.delivered = (m.front.log.take m.front.captured).drop b
  /-- and an ARM waits for two clocks -/
  fires : m.controller.armPending = true →
    if m.controller.armCompareLead then (m.controller.decodeCommands m.front).arm = true
    else m.ArmSettles → (m.controller.decodeCommands m.front).armPending = true ∧
      (m.controller.decodeCommands m.front).armCompareLead = true
  word : m.controller.arm = true → m.controller.Holds m.pulseWord
  stopped : ∀ b, m.front.base = some b → b < m.front.log.length →
    m.front.decoded = m.front.log.length → m.front.log.getLast? = some .abort →
    m.controller.armPending = false → (∀ c, m.controller.pulse c = false) →
    m.gate.state = .error

structure Tracks (m : TxMailbox n) : Prop where
  sound : m.front.Sound
  once : ∀ c, m.pulses c + (decide (c = .arm) && m.controller.armPending).toNat =
    m.front.delivered.count c
  waits : m.controller.armPending = true → m.controller.Holds m.armWord
  word : m.controller.arm = true → m.controller.Holds m.pulseWord
  aborted : m.front.delivered.getLast? = some .abort → m.controller.armPending = false ∧
    (m.controller.abort = true ∨ m.gate.state = .error ∧ m.controller.arm = false)

variable {m m' : TxMailbox n}

theorem start_tracks : (start : TxMailbox n).Tracks :=
  ⟨CommandFront.initial_sound, fun c => by cases c <;> rfl, (fun h => by cases h),
    (fun h => by cases h), fun h => by cases h⟩

theorem Tracks.write (h : m.Tracks) {c : Option GateCommand} {w : TxGateWord}
    (hw : CommandFront.Flips m.front.source w c)
    (honce : ∀ d, c = some d → d ∉ m.front.log.drop m.front.captured) : (m.write c w).Tracks := by
  have hdelivered := h.sound.delivered_write c w
  refine ⟨h.sound.write hw honce, ?_, h.waits, h.word, ?_⟩
  · intro d
    show _ = (m.front.write c w).delivered.count d
    rw [hdelivered]
    exact h.once d
  · show (m.front.write c w).delivered.getLast? = some .abort → _
    rw [hdelivered]
    exact h.aborted

theorem flips_none {w w' : TxGateWord} (h : w'.control = w.control) :
    CommandFront.Flips w w' none := by
  intro d
  rw [TxGateWord.toggleOf_eq, TxGateWord.toggleOf_eq, h]
  simp

section

variable (h : m.Tracks)

include h

theorem Tracks.not_pending (hd : m.front.delivered = []) :
    m.controller.armPending = false := by
  have hcount := h.once .arm
  rw [hd] at hcount
  cases hp : m.controller.armPending with
  | false => rfl
  | true => simp [hp] at hcount

theorem Tracks.clock_once (hok : m.ArmSettles) (c : GateCommand) :
    m.pulses c + ((m.controller.decodeCommands m.front).pulse c).toNat +
      (decide (c = .arm) && (m.controller.decodeCommands m.front).armPending).toNat =
    m.front.destClock.delivered.count c := by
  rw [h.sound.count_delivered, ← h.once]
  by_cases hc : c = .arm
  · subst hc
    cases hd : m.front.toggles.decodes m.front.acknowledge with
    | false =>
        obtain ⟨hdelivered, hnews⟩ := h.sound.idle hd
        have hp := h.not_pending hdelivered
        obtain ⟨harm, hp'⟩ := TxRetuneController.decodeCommands_idle hd hp
        have hflips : m.front.flips .arm = false := by
          by_contra hno
          have := (h.sound.flips_iff .arm).mp (Bool.not_eq_false _ ▸ hno)
          rw [hnews] at this
          cases this
        show m.pulses .arm + ((m.controller.decodeCommands m.front).arm).toNat + _ = _
        rw [harm, hp', hp, hflips]
        rfl
    | true =>
        obtain ⟨harm, hp', -⟩ := TxRetuneController.decodeCommands_arm (d := m.controller) hd
        show m.pulses .arm + ((m.controller.decodeCommands m.front).arm).toNat + _ = _
        rw [harm, hp']
        have hfirst : m.controller.armPending = true → m.controller.armCompareLead = false →
            m.front.flips .arm = false := by
          intro hp hl
          by_contra hno
          exact (hok.2 hp).1 hl ((h.sound.flips_iff .arm).mp (Bool.not_eq_false _ ▸ hno))
        cases hp : m.controller.armPending <;> cases hl : m.controller.armCompareLead <;>
          cases hf : m.front.flips .arm <;> simp_all
  · rw [TxRetuneController.decodeCommands_pulse hc, decide_eq_false hc]
    simp

theorem Tracks.clock_word (hok : m.ArmSettles) :
    ((m.controller.decodeCommands m.front).armPending = true →
      (m.controller.decodeCommands m.front).Holds
        (if m.front.flips .arm then m.front.control else m.armWord)) ∧
    ((m.controller.decodeCommands m.front).arm = true →
      (m.controller.decodeCommands m.front).Holds m.armWord) := by
  cases hd : m.front.toggles.decodes m.front.acknowledge with
  | false =>
      obtain ⟨hdelivered, -⟩ := h.sound.idle hd
      obtain ⟨harm, hp⟩ :=
        TxRetuneController.decodeCommands_idle hd (h.not_pending hdelivered)
      rw [harm, hp]
      exact ⟨(fun hp => by cases hp), fun ha => by cases ha⟩
  | true =>
      obtain ⟨harm, hp, hholds⟩ := TxRetuneController.decodeCommands_arm (d := m.controller) hd
      -- while an ARM waits the payload is that of its word
      have hsame : m.controller.armPending = true →
          (m.controller.decodeCommands m.front).Holds m.armWord := by
        intro hwait
        obtain ⟨-, himm, htarget⟩ := hok.2 hwait
        obtain ⟨himm', htarget'⟩ := h.waits hwait
        exact ⟨hholds.1.trans (himm.symm.trans himm'),
          hholds.2.trans (htarget.symm.trans htarget')⟩
      rw [harm, hp]
      refine ⟨?_, fun ha => hsame (Bool.and_eq_true_iff.mp ha).1⟩
      intro hwait
      split
      · exact hholds
      · rename_i hno
        have hflips : m.front.flips .arm = false := Bool.not_eq_true _ ▸ hno
        rw [hflips, Bool.false_or] at hwait
        exact hsame (Bool.and_eq_true_iff.mp hwait).1

theorem Tracks.txClock (hok : m.ArmSettles) (x : TxRetuneGate.Input n)
    (readerBlock : Bool) : (m.txClock x readerBlock).Tracks := by
  obtain ⟨hwaits, hword⟩ := h.clock_word hok
  refine ⟨h.sound.destClock, h.clock_once hok, hwaits, ?_, ?_⟩
  · intro harm
    change (m.controller.decodeCommands m.front).arm = true at harm
    show (m.controller.decodeCommands m.front).Holds
      (if (m.controller.decodeCommands m.front).arm then m.armWord else m.pulseWord)
    rw [if_pos harm]
    exact hword harm
  · intro hlast
    have hd : m.front.toggles.decodes m.front.acknowledge = true := by
      by_contra hno
      obtain ⟨hdelivered, hnews⟩ := h.sound.idle (Bool.not_eq_true _ ▸ hno)
      change m.front.destClock.delivered.getLast? = some .abort at hlast
      rw [h.sound.delivered_destClock, hdelivered, hnews] at hlast
      cases hlast
    obtain ⟨harm, hp, -⟩ := TxRetuneController.decodeCommands_arm (d := m.controller) hd
    show (m.controller.decodeCommands m.front).armPending = false ∧
      ((m.controller.decodeCommands m.front).pulse .abort = true ∨
        (m.gate.clock (m.gateInput x readerBlock)).state = .error ∧
          (m.controller.decodeCommands m.front).arm = false)
    rw [TxRetuneController.decodeCommands_pulse (by decide), harm, hp]
    have hflips : .arm ∉ m.front.news → m.front.flips .arm = false := by
      intro hno
      by_contra hf
      exact hno ((h.sound.flips_iff .arm).mp (Bool.not_eq_false _ ▸ hf))
    rcases h.sound.delivered_last hlast with hnew | ⟨hnone, hlast⟩
    · obtain ⟨hno, hlead⟩ := hok.1 hnew
      refine ⟨?_, .inl ((h.sound.flips_iff .abort).mpr (List.mem_of_getLast? hnew))⟩
      rw [hflips hno, Bool.false_or]
      cases hwait : m.controller.armPending with
      | false => rfl
      | true => rw [hlead hwait]; rfl
    · obtain ⟨hwait, hstopped⟩ := h.aborted hlast
      rw [hwait, hflips (by rw [hnone]; exact List.not_mem_nil)]
      refine ⟨rfl, .inr ⟨?_, rfl⟩⟩
      cases ha : (m.gateInput x readerBlock).aborts with
      | true => exact TxRetuneGate.clock_abort ha
      | false =>
          rcases hstopped with habort | ⟨herror, harm⟩
          · have : (m.gateInput x readerBlock).aborts = true := by
              show (m.controller.abort || _) = true
              rw [habort, Bool.true_or]
            exact absurd (ha.symm.trans this) Bool.false_ne_true
          · rw [TxRetuneGate.clock_error herror ha]
            show (if m.controller.arm && !readerBlock then TxGateState.muted else .error) = .error
            rw [harm, Bool.false_and, if_neg Bool.false_ne_true]

theorem Tracks.step {a : TxMailboxAct n} (hok : m.Settles a)
    (hs : m.step a = some m') : m'.Tracks := by
  cases a with
  | targetLo w | targetHi w =>
      cases hs
      exact h.write (flips_none rfl) fun d hd => by cases hd
  | arm immediate =>
      cases hs
      exact h.write (TxGateWord.arm_flips immediate _) hok.1
  | complete =>
      cases hs
      exact h.write (TxGateWord.complete_flips _) hok.1
  | abort =>
      cases hs
      exact h.write (TxGateWord.abort_flips _) hok.1
  | fifoFlushCommand release =>
      cases hs
      exact h.write (TxGateWord.fifoFlushCommand_flips release _) hok.1
  | sourceClock =>
      cases hs
      exact ⟨h.sound.sourceClock, h.once, h.waits, h.word, h.aborted⟩
  | txClock x readerBlock =>
      cases hs
      exact h.txClock hok.2 x readerBlock
  | txReset =>
      cases hs
      exact ⟨h.sound.destReset, fun c => by cases c <;> rfl, (fun ha => by cases ha),
        (fun ha => by cases ha), fun hl => by cases hl⟩

theorem Tracks.delivers : m.Delivers := by
  refine ⟨h.once, fun b hb => h.sound.delivered_next hb, ?_, h.word, ?_⟩
  · intro hwait
    have hd : m.front.toggles.decodes m.front.acknowledge = true := by
      by_contra hno
      have hdelivered := (h.sound.idle (Bool.not_eq_true _ ▸ hno)).1
      exact absurd (hwait.symm.trans (h.not_pending hdelivered)) (by decide)
    obtain ⟨harm, hp, -⟩ := TxRetuneController.decodeCommands_arm (d := m.controller) hd
    split
    · rename_i hl
      rw [harm, hwait, hl]
      rfl
    · rename_i hl
      have hl := Bool.not_eq_true _ ▸ hl
      intro hok
      refine ⟨by rw [hp, hwait, hl]; simp, ?_⟩
      refine TxRetuneController.decodeCommands_lead hd hwait hl ?_
      by_contra hf
      exact (hok.2 hwait).1 hl ((h.sound.flips_iff .arm).mp (Bool.not_eq_false _ ▸ hf))
  · intro b hb hlt hall hlast hwait hquiet
    rw [← CommandFront.delivered_getLast hb hlt hall] at hlast
    rcases (h.aborted hlast).2 with habort | ⟨herror, -⟩
    · exact absurd ((hquiet .abort).symm.trans habort) Bool.false_ne_true
    · exact herror

end

instance (m : TxMailbox n) (a : TxMailboxAct n) : Decidable (m.OnceBetween a) :=
  decidable_of_iff (a.command.toList.all fun c => c ∉ m.front.log.drop m.front.captured) (by
    unfold OnceBetween
    cases a.command <;> simp)

instance (m : TxMailbox n) : Decidable m.ArmSettles :=
  inferInstanceAs (Decidable ((_ → _ ∧ (_ → _)) ∧ (_ → (_ → _) ∧ _ ∧ _)))

instance (m : TxMailbox n) : (a : TxMailboxAct n) → Decidable (m.Settles a)
  | .txClock _ _ => inferInstanceAs (Decidable (_ ∧ m.ArmSettles))
  | .targetLo _ | .targetHi _ | .arm _ | .complete | .abort | .fifoFlushCommand _ | .sourceClock
  | .txReset => inferInstanceAs (Decidable (_ ∧ True))

end TxMailbox

/-! ## Both mailboxes -/

/-- Both mailboxes deliver each command behind the baseline once, with its
payload, and an ABORT that comes last stops the gate.  The RX mailbox needs no
more than that no toggle is written twice; an ARM of the TX mailbox must be left
its two clocks. -/
theorem mailboxes_deliver (n : ℕ) :
    (∀ acts m, Lib.Steps RxMailbox.step RxMailbox.OnceBetween (RxMailbox.start : RxMailbox n)
      acts m → m.Delivers) ∧
    ∀ acts m, Lib.Steps TxMailbox.step TxMailbox.Settles (TxMailbox.start : TxMailbox n)
      acts m → m.Delivers :=
  ⟨fun _ _ h => (h.invariant RxMailbox.start_tracks fun h hok hs => h.step hok hs).delivers,
    fun _ _ h => (h.invariant TxMailbox.start_tracks fun h hok hs => h.step hok hs).delivers⟩

section Runs

def txClocks (k : ℕ) : List (TxMailboxAct 1) :=
  (List.replicate k [.sourceClock, .txClock { timestamp := 0 } false]).flatten

def rxClocks (k : ℕ) : List (RxMailboxAct 1) :=
  (List.replicate k [.sourceClock,
    .rxClock { inSampleControls := fun _ => {}, inSamples := fun _ => {}, rxTimestamp := 0 }]).flatten

/-- The baseline, an ARM, and an ABORT once the ARM is decoded. -/
def armThenAbort : List (TxMailboxAct 1) :=
  txClocks 14 ++ [.targetLo 100, .arm false] ++ txClocks 13 ++ [.abort] ++ txClocks 13

def armWithAbort : List (TxMailboxAct 1) :=
  txClocks 14 ++ [.arm false, .abort] ++ txClocks 13

def rxArmWithAbort : List (RxMailboxAct 1) :=
  rxClocks 14 ++ [.arm 7, .abort] ++ rxClocks 13

/-- Both gates are stopped, each command has its pulse, and the TX gate was armed
for its target. -/
theorem mailboxes_deliver_armThenAbort :
    (∃ m, Lib.Steps RxMailbox.step RxMailbox.OnceBetween (RxMailbox.start : RxMailbox 1)
      rxArmWithAbort m ∧ m.pulses .arm = 1 ∧ m.pulses .abort = 1 ∧ m.gate.state = .error) ∧
    ∃ m, Lib.Steps TxMailbox.step TxMailbox.Settles (TxMailbox.start : TxMailbox 1)
      armThenAbort m ∧ m.pulses .arm = 1 ∧ m.pulses .abort = 1 ∧ m.pulseWord.target = 100 ∧
      m.gate.state = .error := by
  have hrx : (Lib.exec RxMailbox.step RxMailbox.OnceBetween (RxMailbox.start : RxMailbox 1)
      rxArmWithAbort).any (fun m => m.front.log = [.arm, .abort] ∧ m.front.base = some 0 ∧
        m.front.decoded = 2 ∧ [.arm, .complete, .abort].all (!m.controller.pulse ·)) = true := by
    decide +kernel
  have htx : (Lib.exec TxMailbox.step TxMailbox.Settles (TxMailbox.start : TxMailbox 1)
      armThenAbort).any (fun m => m.front.log = [.arm, .abort] ∧ m.front.base = some 0 ∧
        m.front.decoded = 2 ∧ m.controller.armPending = false ∧
        [.arm, .complete, .abort].all (!m.controller.pulse ·) ∧ m.pulseWord.target = 100) =
      true := by
    decide +kernel
  obtain ⟨r, hr, hrx⟩ := (Option.any_eq_true ..).mp hrx
  obtain ⟨t, ht, htx⟩ := (Option.any_eq_true ..).mp htx
  obtain ⟨hrlog, hrbase, hrdecoded, hrquiet⟩ := of_decide_eq_true hrx
  obtain ⟨htlog, htbase, htdecoded, hwait, htquiet, htarget⟩ := of_decide_eq_true htx
  have hr' := (mailboxes_deliver 1).1 _ r (.of_exec hr)
  have ht' := (mailboxes_deliver 1).2 _ t (.of_exec ht)
  have hrd : r.front.delivered = [.arm, .abort] := by
    unfold CommandFront.delivered
    rw [hrbase, hrlog, hrdecoded]
    rfl
  have htd : t.front.delivered = [.arm, .abort] := by
    unfold CommandFront.delivered
    rw [htbase, htlog, htdecoded]
    rfl
  have htarm := ht'.once .arm
  have htabort := ht'.once .abort
  rw [htd, hwait] at htarm htabort
  refine ⟨⟨r, .of_exec hr, ?_, ?_, ?_⟩, t, .of_exec ht, htarm, htabort, htarget, ?_⟩
  · rw [hr'.once, hrd]
    rfl
  · rw [hr'.once, hrd]
    rfl
  · refine hr'.stopped 0 hrbase ?_ ?_ ?_ ?_
    · rw [hrlog]
      decide
    · rw [hrdecoded, hrlog]
      rfl
    · rw [hrlog]
      rfl
    · intro c
      cases c <;> simp_all
  · refine ht'.stopped 0 htbase ?_ ?_ ?_ hwait ?_
    · rw [htlog]
      decide
    · rw [htdecoded, htlog]
      rfl
    · rw [htlog]
      rfl
    · intro c
      cases c <;> simp_all

/-- An ARM and an ABORT in one word: the gate is left muted, and a COMPLETE would
open it. -/
theorem txMailbox_not_stopped :
    ¬∀ acts m, Lib.Steps TxMailbox.step TxMailbox.OnceBetween (TxMailbox.start : TxMailbox 1)
      acts m → m.Delivers := by
  intro h
  have hrun : (Lib.exec TxMailbox.step TxMailbox.OnceBetween (TxMailbox.start : TxMailbox 1)
      armWithAbort).any (fun m => m.front.log = [.arm, .abort] ∧ m.front.base = some 0 ∧
        m.front.decoded = 2 ∧ m.controller.armPending = false ∧
        [.arm, .complete, .abort].all (!m.controller.pulse ·) ∧ m.gate.state = .muted) =
      true := by
    decide +kernel
  obtain ⟨m, hm, hstate⟩ := (Option.any_eq_true ..).mp hrun
  obtain ⟨hlog, hbase, hdecoded, hwait, hquiet, hmuted⟩ := of_decide_eq_true hstate
  have hstopped := (h _ m (.of_exec hm)).stopped 0 hbase (by rw [hlog]; decide)
    (by rw [hdecoded, hlog]; rfl) (by rw [hlog]; rfl) hwait (by
      intro c
      cases c <;> simp_all)
  rw [hmuted] at hstopped
  cases hstopped

/-- While ABORT is the last command that came through, however the clocks ran, the
gate puts out no IQ and reports that it discards. -/
theorem RxMailbox.abort_silences {n : ℕ} {m : RxMailbox n} {acts : List (RxMailboxAct n)}
    (hrun : Lib.Steps RxMailbox.step RxMailbox.OnceBetween RxMailbox.start acts m)
    (hlast : m.front.delivered.getLast? = some .abort) (x : RxEpochGate.Input n) :
    (∀ l, ((m.rxClock x).gate.outSamples l).dataI = 0 ∧
      ((m.rxClock x).gate.outSamples l).dataQ = 0) ∧
    m.gate.outDiscardActive (m.gateInput x) = true := by
  have htracks : m.Tracks := hrun.invariant RxMailbox.start_tracks fun h hok hs => h.step hok hs
  have hshut : (m.gateInput x).epochAbort = true ∨ m.gate.state = .error :=
    (htracks.aborted hlast).imp_right And.left
  constructor
  · refine RxEpochGate.outSamples_zero ?_
    by_contra hforward
    obtain ⟨habort, -, hpass⟩ :=
      (m.gate.decision_forwardSamples _).mp (Bool.not_eq_false _ ▸ hforward)
    rcases hshut with hnow | herror
    · exact absurd (habort.symm.trans hnow) Bool.false_ne_true
    · rcases hpass with hopen | hstart
      · exact RxEpochGate.Fenced.not_open (.inr (.inr herror)) hopen
      · have hwait := ((m.gate.decision_epochStart _).mp hstart).1
        cases herror.symm.trans hwait
  · refine (m.gate.outDiscardActive_iff _).mpr ?_
    rcases hshut with hnow | herror
    · exact .inr (.inr hnow)
    · exact .inl (.inr (.inr herror))

def loudSample : RxEpochGate.Input 1 where
  inSampleControls _ := { enable := true }
  inSamples _ := { dataI := 5, dataQ := 7, dataV := true }
  rxTimestamp := 0

/-- Behind an ARM and an ABORT in one word it is silenced. -/
theorem RxMailbox.abort_silences_loudSample :
    ∃ m, Lib.Steps RxMailbox.step RxMailbox.OnceBetween (RxMailbox.start : RxMailbox 1)
      rxArmWithAbort m ∧ ((m.rxClock loudSample).gate.outSamples 0).dataI = 0 := by
  have hexec : (Lib.exec RxMailbox.step RxMailbox.OnceBetween (RxMailbox.start : RxMailbox 1)
      rxArmWithAbort).any (·.front.delivered.getLast? = some .abort) = true := by
    decide +kernel
  obtain ⟨m, hm, hlast⟩ := (Option.any_eq_true ..).mp hexec
  have hsilent := RxMailbox.abort_silences (.of_exec hm) (of_decide_eq_true hlast) loudSample
  exact ⟨m, .of_exec hm, (hsilent.1 0).1⟩

end Runs

end BladeRF
