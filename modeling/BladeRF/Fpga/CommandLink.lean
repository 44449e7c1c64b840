/-
# `Fpga.CommandLink` — commands as toggles through a handshake

NIOS gives a command by flipping a bit of a control word.  A handshake that
cycles freely takes the word to another clock, and a decoder there makes a
pulse of every bit that differs from the word before.  After a reset of its side
the decoder adopts the first word it gets as a baseline.

The two clocks are unrelated, so each edge is a step of its own.  Beside the
registers the model keeps the log of the commands written, and of each copy of
the word how many of them it has seen: the registers never read these.
-/
import Mathlib.Data.BitVec
import BladeRF.Lib.Steps

namespace BladeRF

inductive GateCommand where
  | arm
  | complete
  | abort
  deriving DecidableEq

def GateCommand.bit : GateCommand → ℕ
  | .arm => 0
  | .complete => 1
  | .abort => 2

/-- A word of a mailbox: a control word, perhaps with more. -/
class CommandWord (W : Type) where
  control : W → BitVec 32
  zero : W
  control_zero : control zero = 0

variable {W : Type} [CommandWord W]

def toggleOf (w : W) (c : GateCommand) : Bool :=
  (CommandWord.control w).getLsbD c.bit

theorem toggleOf_zero (c : GateCommand) : toggleOf (CommandWord.zero : W) c = false := by
  rw [toggleOf, CommandWord.control_zero]
  simp

/-! ## The handshake -/

/-- `synchronizer` with `RESET_LEVEL => '0'`. -/
structure Synchronizer where
  sync : Bool := false
  reg1 : Bool := false
  reg0 : Bool := false

def Synchronizer.clock (s : Synchronizer) (async : Bool) : Synchronizer where
  sync := s.reg1
  reg1 := s.reg0
  reg0 := async

/-- The registers of `handshake`. -/
structure Handshake (W : Type) where
  sourceHolding : W
  sourceAck : Bool := false
  prevReq : Bool := false
  syncReq : Synchronizer := {}
  syncAck : Synchronizer := {}

namespace Handshake

def grabs (h : Handshake W) : Bool :=
  !h.prevReq && h.syncReq.sync && !h.sourceAck

/-- An edge of `source_clock`. -/
def sourceClock (h : Handshake W) (sourceData : W) (destReq : Bool) : Handshake W where
  sourceHolding := if h.grabs then sourceData else h.sourceHolding
  sourceAck := if h.grabs then true else if !h.syncReq.sync then false else h.sourceAck
  prevReq := h.syncReq.sync
  syncReq := h.syncReq.clock destReq
  syncAck := h.syncAck

/-- An edge of `dest_clock`. -/
def destClock (h : Handshake W) : Handshake W :=
  { h with syncAck := h.syncAck.clock h.sourceAck }

def destReset (h : Handshake W) : Handshake W :=
  { h with syncAck := {} }

end Handshake

/-! ## The link -/

/-- The words of NIOS, the handshake, and the processes `drive_request` and
`capture_control`.  Of the log, `held` commands are in the word of the handshake
and `captured` in the word captured last; `seen` is the number of those in
`control`, if there was a capture since the reset. -/
structure CommandLink (W : Type) where
  source : W
  handshake : Handshake W
  request : Bool := false
  control : W
  log : List GateCommand := []
  held : ℕ := 0
  captured : ℕ := 0
  seen : Option ℕ := none

/-- What both decoders do first: they wait for a capture, adopt its toggles, and
compare with them from then on. -/
structure ToggleBaseline where
  previousToggles : GateCommand → Bool := fun _ => false
  controlInitialized : Bool := false
  controlInitCapturePending : Bool := false

namespace ToggleBaseline

def decodes (b : ToggleBaseline) (acknowledge : Bool) : Bool :=
  !b.controlInitCapturePending && !(acknowledge && !b.controlInitialized)

def clock (b : ToggleBaseline) (acknowledge : Bool) (toggles : GateCommand → Bool) :
    ToggleBaseline :=
  if b.controlInitCapturePending then ⟨toggles, true, false⟩
  else if acknowledge && !b.controlInitialized then { b with controlInitCapturePending := true }
  else { b with previousToggles := toggles }

def flips (b : ToggleBaseline) (acknowledge : Bool) (toggles : GateCommand → Bool)
    (c : GateCommand) : Bool :=
  b.decodes acknowledge && toggles c != b.previousToggles c

end ToggleBaseline

/-- The link with the start of a decoder.  Of the log, the first `base` commands
were in the baseline and `decoded` are in the toggles compared with. -/
structure CommandFront (W : Type) extends CommandLink W where
  toggles : ToggleBaseline := {}
  base : Option ℕ := none
  decoded : ℕ := 0

namespace CommandFront

def acknowledge (f : CommandFront W) : Bool :=
  f.handshake.syncAck.sync

def flips (f : CommandFront W) (c : GateCommand) : Bool :=
  f.toggles.flips f.acknowledge (toggleOf f.control) c

def initial : CommandFront W where
  source := CommandWord.zero
  handshake := { sourceHolding := CommandWord.zero }
  control := CommandWord.zero

def write (f : CommandFront W) (c : Option GateCommand) (w : W) : CommandFront W :=
  { f with source := w, log := f.log ++ c.toList }

def sourceClock (f : CommandFront W) : CommandFront W :=
  { f with
    handshake := f.handshake.sourceClock f.source f.request
    held := if f.handshake.grabs then f.log.length else f.held }

def destClock (f : CommandFront W) : CommandFront W :=
  { f with
    handshake := f.handshake.destClock
    request := !f.acknowledge
    control := if f.acknowledge then f.handshake.sourceHolding else f.control
    captured := if f.acknowledge then f.held else f.captured
    seen := if f.acknowledge then some f.held else f.seen
    toggles := f.toggles.clock f.acknowledge (toggleOf f.control)
    base := if f.toggles.controlInitCapturePending then f.seen else f.base
    decoded :=
      if f.toggles.controlInitCapturePending || f.toggles.controlInitialized then f.captured
      else f.decoded }

def destReset (f : CommandFront W) : CommandFront W :=
  { f with
    handshake := f.handshake.destReset
    request := false
    control := CommandWord.zero
    seen := none
    toggles := {}
    base := none }

def delivered (f : CommandFront W) : List GateCommand :=
  match f.base with
  | none => []
  | some b => (f.log.take f.decoded).drop b

def news (f : CommandFront W) : List GateCommand :=
  if f.toggles.controlInitCapturePending || !f.toggles.controlInitialized then []
  else (f.log.take f.captured).drop f.decoded

/-! ## What the words know of the log -/

def level (l : List GateCommand) (c : GateCommand) : Bool :=
  decide (l.count c % 2 = 1)

theorem level_append (l m : List GateCommand) (c : GateCommand) :
    level (l ++ m) c = (level l c ^^ level m c) := by
  unfold level
  rw [List.count_append]
  rcases Nat.mod_two_eq_zero_or_one (l.count c) with h | h <;>
    rcases Nat.mod_two_eq_zero_or_one (m.count c) with h' | h' <;>
    simp [Nat.add_mod, h, h']

theorem level_of_nodup {l : List GateCommand} (h : l.Nodup) (c : GateCommand) :
    level l c = decide (c ∈ l) := by
  unfold level
  rw [List.Nodup.count h]
  split
  · rename_i hc
    simp [hc]
  · rename_i hc
    simp [hc]

structure Sound (f : CommandFront W) : Prop where
  source : ∀ c, toggleOf f.source c = level f.log c
  held_le : f.held ≤ f.log.length
  holding : ∀ c, toggleOf f.handshake.sourceHolding c = level (f.log.take f.held) c
  captured_le : f.captured ≤ f.held
  once : (f.log.drop f.captured).Nodup
  seen : ∀ k, f.seen = some k →
    k = f.captured ∧ ∀ c, toggleOf f.control c = level (f.log.take k) c
  unseen : f.seen = none → f.control = CommandWord.zero
  /-- before the baseline -/
  blank : f.toggles.controlInitialized = false → f.base = none ∧
    (∀ c, f.toggles.previousToggles c = false) ∧
    (f.toggles.controlInitCapturePending = true ↔ f.seen.isSome = true)
  /-- after it -/
  based : f.toggles.controlInitialized = true → f.toggles.controlInitCapturePending = false ∧
    f.seen.isSome = true ∧ f.decoded ≤ f.captured ∧
    (∃ b, f.base = some b ∧ b ≤ f.decoded) ∧
    (∀ c, f.toggles.previousToggles c = level (f.log.take f.decoded) c) ∧
    ((f.log.take f.captured).drop f.decoded).Nodup

variable {f : CommandFront W}

theorem initial_sound : (initial : CommandFront W).Sound := by
  refine ⟨toggleOf_zero, Nat.le_refl _, toggleOf_zero, Nat.le_refl _, List.nodup_nil,
    (fun k hk => by cases hk), fun _ => rfl, fun _ => ⟨rfl, fun _ => rfl, ?_⟩,
    fun hi => by cases hi⟩
  exact ⟨(fun hp => by cases hp), fun hp => by cases hp⟩

def Flips (w w' : W) (c : Option GateCommand) : Prop :=
  ∀ d, toggleOf w' d = (toggleOf w d ^^ decide (c = some d))

theorem level_toList (c : Option GateCommand) (d : GateCommand) :
    level c.toList d = decide (c = some d) := by
  rw [level_of_nodup (by cases c <;> simp)]
  cases c <;> simp [eq_comm]

theorem Sound.write (h : f.Sound) {c : Option GateCommand} {w : W} (hw : Flips f.source w c)
    (honce : ∀ d, c = some d → d ∉ f.log.drop f.captured) : (f.write c w).Sound := by
  have hcap : f.captured ≤ f.log.length := h.captured_le.trans h.held_le
  have htake : ∀ k ≤ f.log.length, (f.log ++ c.toList).take k = f.log.take k := by
    intro k hk
    rw [List.take_append_of_le_length hk]
  refine ⟨?_, ?_, ?_, h.captured_le, ?_, ?_, h.unseen, h.blank, ?_⟩
  · intro d
    show toggleOf w d = level (f.log ++ c.toList) d
    rw [hw d, h.source d, level_append, level_toList]
  · show f.held ≤ (f.log ++ c.toList).length
    rw [List.length_append]
    exact Nat.le_add_right_of_le h.held_le
  · intro d
    show toggleOf f.handshake.sourceHolding d = level ((f.log ++ c.toList).take f.held) d
    rw [htake _ h.held_le, h.holding d]
  · show ((f.log ++ c.toList).drop f.captured).Nodup
    rw [List.drop_append_of_le_length hcap, List.nodup_append]
    refine ⟨h.once, by cases c <;> simp, ?_⟩
    intro d hd e he hde
    cases c with
    | none => cases he
    | some c =>
        obtain rfl := List.mem_singleton.mp he
        exact honce e rfl (hde ▸ hd)
  · intro k hk
    obtain ⟨rfl, hcontrol⟩ := h.seen k hk
    refine ⟨rfl, ?_⟩
    show ∀ d, toggleOf f.control d = level ((f.log ++ c.toList).take f.captured) d
    rw [htake _ hcap]
    exact hcontrol
  · intro hinit
    obtain ⟨hpending, hseen, hdec, hbase, hprev, hnodup⟩ := h.based hinit
    refine ⟨hpending, hseen, hdec, hbase, ?_, ?_⟩
    · show ∀ d, f.toggles.previousToggles d = level ((f.log ++ c.toList).take f.decoded) d
      rw [htake _ (hdec.trans hcap)]
      exact hprev
    · show (((f.log ++ c.toList).take f.captured).drop f.decoded).Nodup
      rw [htake _ hcap]
      exact hnodup

theorem Sound.sourceClock (h : f.Sound) : f.sourceClock.Sound := by
  refine ⟨h.source, ?_, ?_, ?_, h.once, h.seen, h.unseen, h.blank, h.based⟩
  · show (if f.handshake.grabs then f.log.length else f.held) ≤ f.log.length
    split
    · exact Nat.le_refl _
    · exact h.held_le
  · show ∀ c, toggleOf (if f.handshake.grabs then f.source else f.handshake.sourceHolding) c =
      level (f.log.take (if f.handshake.grabs then f.log.length else f.held)) c
    split
    · rw [List.take_length]
      exact h.source
    · exact h.holding
  · show f.captured ≤ if f.handshake.grabs then f.log.length else f.held
    split
    · exact h.captured_le.trans h.held_le
    · exact h.captured_le

theorem Sound.destReset (h : f.Sound) : f.destReset.Sound := by
  refine ⟨h.source, h.held_le, h.holding, h.captured_le, h.once, (fun k hk => by cases hk),
    fun _ => rfl, fun _ => ⟨rfl, fun _ => rfl, ?_⟩, fun hi => by cases hi⟩
  exact ⟨(fun hp => by cases hp), fun hp => by cases hp⟩

theorem Sound.pending (h : f.Sound) (hp : f.toggles.controlInitCapturePending = true) :
    f.toggles.controlInitialized = false ∧ f.seen = some f.captured ∧
      ∀ c, toggleOf f.control c = level (f.log.take f.captured) c := by
  have hno : f.toggles.controlInitialized = false := by
    by_contra hi
    have := (h.based (Bool.not_eq_false _ ▸ hi)).1
    exact absurd (hp.symm.trans this) (by decide)
  obtain ⟨k, hk⟩ := Option.isSome_iff_exists.mp ((h.blank hno).2.2.mp hp)
  obtain ⟨rfl, hcontrol⟩ := h.seen k hk
  exact ⟨hno, hk, hcontrol⟩

theorem Sound.capture (h : f.Sound) :
    f.destClock.captured ≤ f.held ∧ f.captured ≤ f.destClock.captured ∧
      (f.log.drop f.destClock.captured).Nodup ∧
      ((f.log.take f.destClock.captured).drop f.captured).Nodup := by
  have hle : f.captured ≤ f.destClock.captured := by
    show f.captured ≤ if f.acknowledge then f.held else f.captured
    split
    · exact h.captured_le
    · exact Nat.le_refl _
  refine ⟨?_, hle, ?_, ?_⟩
  · show (if f.acknowledge then f.held else f.captured) ≤ f.held
    split
    · exact Nat.le_refl _
    · exact h.captured_le
  · refine h.once.sublist ?_
    obtain ⟨k, hk⟩ := Nat.le.dest hle
    rw [← hk, ← List.drop_drop]
    exact List.drop_sublist _ _
  · rw [List.drop_take]
    exact h.once.sublist (List.take_sublist _ _)

theorem Sound.destClock (h : f.Sound) : f.destClock.Sound := by
  obtain ⟨hheld, hcap, honce, hnew⟩ := h.capture
  refine ⟨h.source, h.held_le, h.holding, hheld, honce, ?_, ?_, ?_, ?_⟩
  · show ∀ k, (if f.acknowledge then some f.held else f.seen) = some k →
      k = (if f.acknowledge then f.held else f.captured) ∧
        ∀ c, toggleOf (if f.acknowledge then f.handshake.sourceHolding else f.control) c =
          level (f.log.take k) c
    intro k hk
    split at hk
    · obtain rfl := Option.some.inj hk
      rename_i hack
      rw [if_pos hack, if_pos hack]
      exact ⟨rfl, h.holding⟩
    · rename_i hack
      rw [if_neg hack, if_neg hack]
      exact h.seen k hk
  · show (if f.acknowledge then some f.held else f.seen) = none →
      (if f.acknowledge then f.handshake.sourceHolding else f.control) = CommandWord.zero
    split
    · intro hk
      cases hk
    · exact h.unseen
  · show (f.toggles.clock f.acknowledge (toggleOf f.control)).controlInitialized = false →
      (if f.toggles.controlInitCapturePending then f.seen else f.base) = none ∧ _
    unfold ToggleBaseline.clock
    intro hinit
    cases hp : f.toggles.controlInitCapturePending with
    | true =>
        rw [hp, if_pos rfl] at hinit
        cases hinit
    | false =>
        have hno : f.toggles.controlInitialized = false := by
          rw [hp, if_neg Bool.false_ne_true] at hinit
          split at hinit
          · exact hinit
          · exact hinit
        obtain ⟨hbase, hprev, hseen⟩ := h.blank hno
        have hunseen : f.seen = none := by
          rw [hp] at hseen
          simpa using hseen
        refine ⟨hbase, ?_⟩
        show (∀ c, (f.toggles.clock f.acknowledge (toggleOf f.control)).previousToggles c = false) ∧
          ((f.toggles.clock f.acknowledge (toggleOf f.control)).controlInitCapturePending = true ↔
            (if f.acknowledge then some f.held else f.seen).isSome = true)
        unfold ToggleBaseline.clock
        rw [hp, if_neg Bool.false_ne_true, hno, Bool.not_false, Bool.and_true]
        split
        · exact ⟨hprev, by simp⟩
        · refine ⟨?_, by simp [hunseen]⟩
          intro c
          rw [h.unseen hunseen]
          exact toggleOf_zero c
  · intro hinit
    change (f.toggles.clock f.acknowledge (toggleOf f.control)).controlInitialized = true at hinit
    show (f.toggles.clock f.acknowledge (toggleOf f.control)).controlInitCapturePending = false ∧
      (if f.acknowledge then some f.held else f.seen).isSome = true ∧
      (if f.toggles.controlInitCapturePending || f.toggles.controlInitialized then f.captured
        else f.decoded) ≤ f.destClock.captured ∧
      (∃ b, (if f.toggles.controlInitCapturePending then f.seen else f.base) = some b ∧
        b ≤ if f.toggles.controlInitCapturePending || f.toggles.controlInitialized then f.captured
          else f.decoded) ∧
      (∀ c, (f.toggles.clock f.acknowledge (toggleOf f.control)).previousToggles c =
        level (f.log.take (if f.toggles.controlInitCapturePending || f.toggles.controlInitialized
          then f.captured else f.decoded)) c) ∧
      ((f.log.take f.destClock.captured).drop
        (if f.toggles.controlInitCapturePending || f.toggles.controlInitialized then f.captured
          else f.decoded)).Nodup
    unfold ToggleBaseline.clock at hinit ⊢
    cases hp : f.toggles.controlInitCapturePending with
    | true =>
        obtain ⟨-, hk, hcontrol⟩ := h.pending hp
        simp only [Bool.true_or, if_true]
        refine ⟨trivial, ?_, hcap, ⟨f.captured, hk, Nat.le_refl _⟩, hcontrol, hnew⟩
        split
        · rfl
        · rw [hk]
          rfl
    | false =>
        rw [hp, if_neg Bool.false_ne_true] at hinit
        have hyes : f.toggles.controlInitialized = true := by
          split at hinit
          · exact hinit
          · exact hinit
        obtain ⟨-, hseen, hdec, ⟨b, hb, hbd⟩, -, -⟩ := h.based hyes
        obtain ⟨k, hk⟩ := Option.isSome_iff_exists.mp hseen
        obtain ⟨rfl, hcontrol⟩ := h.seen k hk
        simp only [hyes, Bool.not_true, Bool.and_false, Bool.false_eq_true, if_false,
          Bool.or_true, if_true]
        refine ⟨trivial, ?_, hcap, ⟨b, hb, hbd.trans hdec⟩, hcontrol, hnew⟩
        split
        · rfl
        · exact hseen

/-! ## What the decoder sees -/

theorem take_split (l : List GateCommand) {m k : ℕ} (h : m ≤ k) :
    l.take k = l.take m ++ (l.take k).drop m := by
  conv_lhs => rw [← List.take_append_drop m (l.take k)]
  rw [List.take_take, Nat.min_eq_left h]

theorem Sound.flips_iff (h : f.Sound) (c : GateCommand) : f.flips c = true ↔ c ∈ f.news := by
  unfold flips ToggleBaseline.flips ToggleBaseline.decodes news
  cases hp : f.toggles.controlInitCapturePending with
  | true => simp
  | false =>
      cases hi : f.toggles.controlInitialized with
      | false =>
          have hprev := (h.blank hi).2.1 c
          have hunseen : f.seen = none := by
            have := (h.blank hi).2.2
            rw [hp] at this
            simpa using this
          simp [h.unseen hunseen, toggleOf_zero, hprev]
      | true =>
          obtain ⟨-, hseen, hdec, -, hprev, hnodup⟩ := h.based hi
          obtain ⟨k, hk⟩ := Option.isSome_iff_exists.mp hseen
          obtain ⟨rfl, hcontrol⟩ := h.seen k hk
          have hsplit := take_split f.log hdec
          have hlevel : toggleOf f.control c =
              (level (f.log.take f.decoded) c ^^
                decide (c ∈ (f.log.take f.captured).drop f.decoded)) := by
            rw [hcontrol c, ← level_of_nodup hnodup, ← level_append, ← hsplit]
          rw [hlevel, hprev c]
          cases level (f.log.take f.decoded) c <;> simp

theorem Sound.news_nodup (h : f.Sound) : f.news.Nodup := by
  unfold news
  split
  · exact List.nodup_nil
  · rename_i hnews
    simp only [Bool.or_eq_true, Bool.not_eq_true', not_or, Bool.not_eq_false] at hnews
    exact (h.based hnews.2).2.2.2.2.2

theorem Sound.delivered_destClock (h : f.Sound) :
    f.destClock.delivered = f.delivered ++ f.news := by
  unfold delivered news
  show (match (if f.toggles.controlInitCapturePending then f.seen else f.base) with
    | none => []
    | some b => (f.log.take (if f.toggles.controlInitCapturePending ||
        f.toggles.controlInitialized then f.captured else f.decoded)).drop b) = _
  cases hp : f.toggles.controlInitCapturePending with
  | true =>
      obtain ⟨hno, hk, -⟩ := h.pending hp
      simp [hk, (h.blank hno).1]
  | false =>
      cases hi : f.toggles.controlInitialized with
      | false => simp [(h.blank hi).1]
      | true =>
          obtain ⟨-, -, hdec, ⟨b, hb, hbd⟩, -, -⟩ := h.based hi
          simp only [hb, Bool.false_eq_true, if_false, Bool.or_true, if_true, Bool.not_true,
            Bool.or_false]
          have hsplit := take_split f.log hdec
          conv_lhs => rw [hsplit]
          have hlen : b ≤ (f.log.take f.decoded).length := by
            rw [List.length_take]
            have := h.captured_le.trans h.held_le
            omega
          rw [List.drop_append_of_le_length hlen]

theorem Sound.delivered_write (h : f.Sound) (c : Option GateCommand) (w : W) :
    (f.write c w).delivered = f.delivered := by
  unfold delivered
  show (match f.base with
    | none => []
    | some b => ((f.log ++ c.toList).take f.decoded).drop b) = _
  cases hb : f.base with
  | none => rfl
  | some b =>
      have hi : f.toggles.controlInitialized = true := by
        by_contra hno
        have := (h.blank (Bool.not_eq_true _ ▸ hno)).1
        rw [hb] at this
        cases this
      have hle : f.decoded ≤ f.log.length :=
        (h.based hi).2.2.1.trans (h.captured_le.trans h.held_le)
      dsimp only
      rw [List.take_append_of_le_length hle]

theorem Sound.delivered_next (h : f.Sound) {b : ℕ} (hb : f.base = some b) :
    f.destClock.delivered = (f.log.take f.captured).drop b := by
  have hi : f.toggles.controlInitialized = true := by
    by_contra hno
    have := (h.blank (Bool.not_eq_true _ ▸ hno)).1
    rw [hb] at this
    cases this
  have hp := (h.based hi).1
  unfold delivered
  show (match (if f.toggles.controlInitCapturePending then f.seen else f.base) with
    | none => []
    | some b => (f.log.take (if f.toggles.controlInitCapturePending ||
        f.toggles.controlInitialized then f.captured else f.decoded)).drop b) = _
  simp [hp, hi, hb]

omit [CommandWord W] in
theorem delivered_getLast {b : ℕ} (hb : f.base = some b) (hlt : b < f.log.length)
    (hall : f.decoded = f.log.length) : f.delivered.getLast? = f.log.getLast? := by
  unfold delivered
  rw [hb]
  dsimp only
  rw [hall, List.take_length, List.getLast?_drop, if_neg (by omega)]

theorem Sound.delivered_last (h : f.Sound) {c : GateCommand}
    (hc : f.destClock.delivered.getLast? = some c) :
    f.news.getLast? = some c ∨ f.news = [] ∧ f.delivered.getLast? = some c := by
  rw [h.delivered_destClock] at hc
  cases hnews : f.news with
  | nil =>
      rw [hnews, List.append_nil] at hc
      exact .inr ⟨rfl, hc⟩
  | cons x xs =>
      rw [hnews, List.getLast?_append_of_ne_nil _ (by simp)] at hc
      exact .inl hc

theorem Sound.count_delivered (h : f.Sound) (c : GateCommand) :
    f.destClock.delivered.count c = f.delivered.count c + (f.flips c).toNat := by
  rw [h.delivered_destClock, List.count_append, List.Nodup.count h.news_nodup]
  by_cases hc : c ∈ f.news
  · rw [if_pos hc, (h.flips_iff c).mpr hc]
    rfl
  · have hf : f.flips c = false := by
      by_contra hno
      exact hc ((h.flips_iff c).mp (Bool.not_eq_false _ ▸ hno))
    rw [if_neg hc, hf]
    rfl

theorem Sound.idle (h : f.Sound) (hd : f.toggles.decodes f.acknowledge = false) :
    f.delivered = [] ∧ f.news = [] := by
  have hno : f.toggles.controlInitialized = false := by
    by_contra hi
    have hi := Bool.not_eq_false _ ▸ hi
    simp [ToggleBaseline.decodes, hi, (h.based hi).1] at hd
  unfold delivered news
  simp [(h.blank hno).1, hno]

end CommandFront

end BladeRF
