/-
# `Board.RfEventCursor` — reading the RF event ring with a cursor

The board keeps its newest events in a ring, each under the sequence number it
was appended with.  A reader hands in the last sequence number it has seen and
gets what came after, as much as its buffer holds.  Event `j` of everything ever
appended stands in slot `j % size` and has sequence number `j + 1`, so a cursor
is the number of events before it; one behind the oldest retained event has
missed some, and is sent to the tail.
-/
import BladeRF.Board.RxNotify

namespace BladeRF

/-- The event ring of `struct bladerf2_board_data`; `head` is the slot that is
written next.  The sequence number has 64 bits, which no device runs through. -/
structure RfEventRing (α : Type) where
  events : ℕ → α
  sequences : ℕ → ℕ
  head : ℕ
  count : ℕ
  sequence : ℕ

/-- What `bladerf_rf_events_get_since` hands out; `event_count` is the number of
events. -/
structure RfEventsSince (α : Type) where
  events : List α
  nextSequence : ℕ
  historyComplete : Bool
  status : RetCode

def rfEventCursorIsValid (afterSequence currentSequence : ℕ) : Bool :=
  afterSequence ≤ currentSequence

namespace RfEventRing

variable {α : Type}

def empty (blank : α) : RfEventRing α := ⟨fun _ => blank, fun _ => 0, 0, 0, 0⟩

/-- `bladerf2_rf_event_append_locked`. -/
def append (r : RfEventRing α) (e : α) : RfEventRing α where
  events := Function.update r.events r.head e
  sequences := Function.update r.sequences r.head (r.sequence + 1)
  head := (r.head + 1) % rfEventHistorySize
  count := if r.count < rfEventHistorySize then r.count + 1 else r.count
  sequence := r.sequence + 1

def oldest (r : RfEventRing α) : ℕ :=
  (r.head + rfEventHistorySize - r.count) % rfEventHistorySize

/-- The copy loop of `bladerf_rf_events_get_since`, with `n` slots to go from the
`i`-th oldest: the events copied, `next_sequence` and `complete`. -/
def copySince (r : RfEventRing α) (afterSequence capacity : ℕ) :
    ℕ → ℕ → List α → ℕ → List α × ℕ × Bool
  | 0, _, copied, next => (copied, next, true)
  | n + 1, i, copied, next =>
      let slot := (r.oldest + i) % rfEventHistorySize
      if r.sequences slot ≤ afterSequence then
        r.copySince afterSequence capacity n (i + 1) copied next
      else if copied.length < capacity then
        r.copySince afterSequence capacity n (i + 1) (copied ++ [r.events slot]) (r.sequences slot)
      else (copied, next, false)

/-- `bladerf_rf_events_get_since`, with a buffer for `capacity` events. -/
def getSince (r : RfEventRing α) (afterSequence capacity : ℕ) : RfEventsSince α :=
  let oldestSequence := if r.count ≠ 0 then r.sequences r.oldest else r.sequence + 1
  if !rfEventCursorIsValid afterSequence r.sequence then
    ⟨[], r.sequence, false, .inval⟩
  else if r.count ≠ 0 ∧ afterSequence < oldestSequence - 1 then
    ⟨[], r.sequence, false, .mem⟩
  else
    let (copied, next, complete) := r.copySince afterSequence capacity r.count 0 [] afterSequence
    ⟨copied, next, complete, if complete then .ok else .mem⟩

/-! ## The ring and the log -/

/-- The ring retains the newest events of `log`. -/
structure Holds (r : RfEventRing α) (log : List α) : Prop where
  sequence : r.sequence = log.length
  count : r.count = min rfEventHistorySize log.length
  head : r.head = log.length % rfEventHistorySize
  slot : ∀ j, log.length ≤ j + r.count → j < log.length →
    some (r.events (j % rfEventHistorySize)) = log[j]? ∧
      r.sequences (j % rfEventHistorySize) = j + 1

section Holds

variable {r : RfEventRing α} {log : List α}

theorem holds_empty (blank : α) : (empty blank).Holds [] where
  sequence := rfl
  count := rfl
  head := rfl
  slot := fun _ _ hj => absurd hj (Nat.not_lt_zero _)

theorem Holds.count_le (h : r.Holds log) : r.count ≤ rfEventHistorySize ∧ r.count ≤ log.length := by
  rw [h.count]
  exact ⟨min_le_left _ _, min_le_right _ _⟩

theorem slot_ne {j n : ℕ} (h : j < n) (hn : n < j + rfEventHistorySize) :
    j % rfEventHistorySize ≠ n % rfEventHistorySize := by
  unfold rfEventHistorySize at *
  omega

theorem Holds.append (h : r.Holds log) (e : α) : (r.append e).Holds (log ++ [e]) := by
  have hle := h.count_le
  have hcount : (r.append e).count = min rfEventHistorySize (log.length + 1) := by
    show (if r.count < rfEventHistorySize then r.count + 1 else r.count) = _
    rw [h.count]
    split_ifs <;> omega
  refine ⟨?_, ?_, ?_, fun j hj hlt => ?_⟩
  · rw [List.length_append, List.length_singleton, ← h.sequence]
    rfl
  · rw [List.length_append, List.length_singleton, hcount]
  · show (r.head + 1) % rfEventHistorySize = _
    rw [h.head, Nat.mod_add_mod, List.length_append, List.length_singleton]
  · rw [List.length_append, List.length_singleton] at hj hlt
    rw [hcount] at hj
    show some (Function.update r.events r.head e (j % rfEventHistorySize)) = _ ∧
      Function.update r.sequences r.head (r.sequence + 1) (j % rfEventHistorySize) = _
    rw [h.head]
    rcases Nat.lt_succ_iff_lt_or_eq.mp hlt with hold | rfl
    · have hne := slot_ne hold (by omega)
      rw [Function.update_of_ne hne, Function.update_of_ne hne, List.getElem?_append_left hold]
      exact h.slot j (by rw [h.count]; omega) hold
    · rw [Function.update_self, Function.update_self, List.getElem?_concat_length, h.sequence]
      exact ⟨rfl, rfl⟩

theorem Holds.foldl (h : r.Holds log) (es : List α) :
    (es.foldl RfEventRing.append r).Holds (log ++ es) := by
  induction es generalizing r log with
  | nil => rwa [List.append_nil]
  | cons e es ih =>
      rw [List.append_cons]
      exact ih (h.append e)

theorem Holds.slot_oldest (h : r.Holds log) (i : ℕ) :
    (r.oldest + i) % rfEventHistorySize = (log.length - r.count + i) % rfEventHistorySize := by
  have hle := h.count_le
  unfold oldest
  rw [h.head]
  unfold rfEventHistorySize at *
  omega

theorem Holds.copySince (h : r.Holds log) {afterSequence capacity : ℕ} :
    ∀ (n i : ℕ) (copied : List α) (next : ℕ), i + n = r.count →
      copied = (log.take (log.length - r.count + i)).drop afterSequence →
      copied.length ≤ capacity → next = afterSequence + copied.length →
      r.copySince afterSequence capacity n i copied next =
        ((log.drop afterSequence).take capacity,
          afterSequence + min capacity (log.length - afterSequence),
          decide (log.length - afterSequence ≤ capacity)) := by
  have hle := h.count_le
  intro n
  induction n with
  | zero =>
      intro i copied next hi hcopied hcap hnext
      rw [show log.length - r.count + i = log.length by omega, List.take_length] at hcopied
      have hlen : copied.length = log.length - afterSequence := by
        rw [hcopied, List.length_drop]
      rw [RfEventRing.copySince, hnext, ← hcopied, List.take_of_length_le hcap,
        decide_eq_true (by omega), min_eq_right (by omega), hlen]
  | succ n ih =>
      intro i copied next hi hcopied hcap hnext
      obtain ⟨j, hj⟩ : ∃ j, log.length - r.count + i = j := ⟨_, rfl⟩
      have hjlt : j < log.length := by omega
      obtain ⟨hevent, hsequence⟩ := h.slot j (by omega) hjlt
      rw [RfEventRing.copySince, h.slot_oldest, hj, hsequence]
      have hstep : (log.take (j + 1)).drop afterSequence =
          (log.take j ++ [r.events (j % rfEventHistorySize)]).drop afterSequence := by
        rw [List.take_add_one, ← hevent]
        rfl
      have hlen : copied.length = j - afterSequence := by
        rw [hcopied, hj, List.length_drop, List.length_take, min_eq_left hjlt.le]
      rw [hj] at hcopied
      split_ifs with hseen hroom
      · refine ih (i + 1) copied next (by omega) ?_ hcap hnext
        rw [show log.length - r.count + (i + 1) = j + 1 by omega, List.drop_of_length_le
          (by rw [List.length_take]; omega), hcopied, List.drop_of_length_le
          (by rw [List.length_take]; omega)]
      · refine ih (i + 1) _ _ (by omega) ?_ ?_ ?_
        · rw [show log.length - r.count + (i + 1) = j + 1 by omega, hstep,
            List.drop_append_of_le_length (by rw [List.length_take]; omega), hcopied]
        · rw [List.length_append, List.length_singleton]
          exact hroom
        · rw [List.length_append, List.length_singleton]
          omega
      · have hfull : copied.length = capacity := by omega
        rw [hnext, decide_eq_false (by omega), min_eq_left (by omega), hfull, hcopied,
          List.drop_take, ← hlen, hfull]

/-- What a call with a cursor that is not ahead of the tail returns: the tail if
something was missed, and else as many events as there is room for. -/
theorem Holds.getSince (h : r.Holds log) {afterSequence : ℕ} (hc : afterSequence ≤ log.length)
    (capacity : ℕ) :
    r.getSince afterSequence capacity =
      if afterSequence + rfEventHistorySize < log.length then
        ⟨[], log.length, false, .mem⟩
      else
        ⟨(log.drop afterSequence).take capacity,
          afterSequence + min capacity (log.length - afterSequence),
          decide (log.length - afterSequence ≤ capacity),
          if log.length - afterSequence ≤ capacity then .ok else .mem⟩ := by
  have hle := h.count_le
  have hmissed : (r.count ≠ 0 ∧ afterSequence <
      (if r.count ≠ 0 then r.sequences r.oldest else r.sequence + 1) - 1) ↔
      afterSequence + rfEventHistorySize < log.length := by
    by_cases hcount : r.count = 0
    · have hnil : log.length = 0 := by
        have hmin := h.count
        unfold rfEventHistorySize at hmin
        omega
      simp [hcount, hnil]
    · have hold := (h.slot (log.length - r.count) (by omega) (by omega)).2
      have hslot := h.slot_oldest 0
      rw [Nat.add_zero, Nat.add_zero, oldest, Nat.mod_mod] at hslot
      rw [← hslot, ← oldest] at hold
      rw [if_pos hcount, hold, h.count]
      rw [h.count] at hcount
      omega
  unfold RfEventRing.getSince
  dsimp only
  rw [if_neg (by simp [rfEventCursorIsValid, h.sequence, hc]), h.sequence]
  rw [h.sequence] at hmissed
  by_cases hgap : afterSequence + rfEventHistorySize < log.length
  · rw [if_pos (hmissed.mpr hgap), if_pos hgap]
  · rw [if_neg (mt hmissed.mp hgap), if_neg hgap, h.copySince r.count 0 [] afterSequence
      (Nat.zero_add _) ?_ (Nat.zero_le _) rfl]
    · simp only [decide_eq_true_eq]
    · rw [List.drop_of_length_le]
      rw [List.length_take, h.count]
      omega

end Holds

end RfEventRing

/-! ## A reader -/

inductive RfEventOp (α : Type)
  | append (e : α)
  | getSince (capacity : ℕ)

/-- A call, with the number of events that had been appended when it was made. -/
structure RfEventCall (α : Type) where
  afterSequence : ℕ
  capacity : ℕ
  appended : ℕ
  reply : RfEventsSince α

structure RfEventReader (α : Type) where
  ring : RfEventRing α
  log : List α
  cursor : ℕ
  calls : List (RfEventCall α)

namespace RfEventReader

variable {α : Type}

/-- A reader that starts after `before` with the cursor `first`. -/
def start (blank : α) (before : List α) (first : ℕ) : RfEventReader α :=
  ⟨before.foldl .append (.empty blank), before, first, []⟩

/-- One event appended, or one call with the cursor of the call before it. -/
def step (s : RfEventReader α) : RfEventOp α → RfEventReader α
  | .append e => { s with ring := s.ring.append e, log := s.log ++ [e] }
  | .getSince capacity =>
      let reply := s.ring.getSince s.cursor capacity
      { s with
        cursor := reply.nextSequence
        calls := s.calls ++ [⟨s.cursor, capacity, s.log.length, reply⟩] }

def run (s : RfEventReader α) (ops : List (RfEventOp α)) : RfEventReader α := ops.foldl step s

end RfEventReader

namespace RfEventCall

variable {α : Type}

def passed (c : RfEventCall α) (log : List α) : List α :=
  (log.take c.reply.nextSequence).drop c.afterSequence

/-- The call has skipped everything it did not deliver, and says so. -/
def Gap (c : RfEventCall α) : Prop :=
  c.reply.status = .mem ∧ c.reply.events = [] ∧ c.reply.historyComplete = false ∧
    c.afterSequence + rfEventHistorySize < c.appended ∧ c.reply.nextSequence = c.appended

/-- The call returns the events that it passes or is a gap, and a call without
an error leaves nothing unread. -/
structure Honest (log : List α) (c : RfEventCall α) : Prop where
  le : c.afterSequence ≤ c.reply.nextSequence
  le_appended : c.reply.nextSequence ≤ c.appended
  appended_le : c.appended ≤ log.length
  events : c.reply.events = c.passed log ∨ c.Gap
  complete : c.reply.status = .ok → c.reply.nextSequence = c.appended

theorem Honest.append {log : List α} {c : RfEventCall α} (h : c.Honest log) (e : α) :
    c.passed (log ++ [e]) = c.passed log ∧ c.Honest (log ++ [e]) := by
  have hpassed : c.passed (log ++ [e]) = c.passed log := by
    unfold passed
    rw [List.take_append_of_le_length (le_trans h.le_appended h.appended_le)]
  refine ⟨hpassed, h.le, h.le_appended, ?_, by rw [hpassed]; exact h.events, h.complete⟩
  rw [List.length_append]
  exact le_trans h.appended_le (Nat.le_add_right _ _)

end RfEventCall

theorem RfEventRing.Holds.honest {α : Type} {r : RfEventRing α} {log : List α} (h : r.Holds log)
    {cursor : ℕ} (hc : cursor ≤ log.length) (capacity : ℕ) :
    RfEventCall.Honest log ⟨cursor, capacity, log.length, r.getSince cursor capacity⟩ := by
  rw [h.getSince hc]
  by_cases hgap : cursor + rfEventHistorySize < log.length
  · rw [if_pos hgap]
    exact ⟨hc, le_rfl, le_rfl, .inr ⟨rfl, rfl, rfl, hgap, rfl⟩, nofun⟩
  · rw [if_neg hgap]
    refine ⟨Nat.le_add_right _ _, ?_, le_rfl, .inl ?_, fun hok => ?_⟩
    · show cursor + min capacity (log.length - cursor) ≤ log.length
      omega
    · show (log.drop cursor).take capacity = (log.take (cursor + min _ _)).drop cursor
      rw [List.drop_take, Nat.add_sub_cancel_left, ← List.length_drop, ← List.take_eq_take_min]
    · show cursor + min capacity (log.length - cursor) = log.length
      dsimp only at hok
      split_ifs at hok with hroom
      omega

namespace RfEventReader

variable {α : Type}

theorem drop_take_append {l : List α} {a b c : ℕ} (hab : a ≤ b) (hbc : b ≤ c)
    (hb : b ≤ l.length) : (l.take b).drop a ++ (l.take c).drop b = (l.take c).drop a := by
  have hle : a ≤ ((l.take c).take b).length := by
    simp only [List.length_take]
    omega
  nth_rewrite 2 [← List.take_append_drop b (l.take c)]
  rw [List.drop_append_of_le_length hle, List.take_take, min_eq_left hbc]

/-- What holds of a reader that began at `first`: the events that its calls pass
are those between `first` and its cursor, in order, and every call is honest. -/
structure Inv (first : ℕ) (s : RfEventReader α) : Prop where
  holds : s.ring.Holds s.log
  first_le : first ≤ s.cursor
  cursor_le : s.cursor ≤ s.log.length
  passed : s.calls.flatMap (·.passed s.log) = (s.log.take s.cursor).drop first
  honest : ∀ c ∈ s.calls, c.Honest s.log

theorem inv_start (blank : α) {before : List α} {first : ℕ} (h : first ≤ before.length) :
    (start blank before first).Inv first where
  holds := (RfEventRing.holds_empty blank).foldl before
  first_le := le_rfl
  cursor_le := h
  passed := by
    show [] = (before.take first).drop first
    rw [List.drop_of_length_le (List.length_take_le _ _)]
  honest := fun _ hc => absurd hc List.not_mem_nil

theorem Inv.step {first : ℕ} {s : RfEventReader α} (h : s.Inv first) (op : RfEventOp α) :
    (s.step op).Inv first := by
  cases op with
  | append e =>
      refine ⟨h.holds.append e, h.first_le, ?_, ?_, fun c hc => ((h.honest c hc).append e).2⟩
      · show s.cursor ≤ (s.log ++ [e]).length
        rw [List.length_append]
        exact le_trans h.cursor_le (Nat.le_add_right _ _)
      · show s.calls.flatMap (·.passed (s.log ++ [e])) = ((s.log ++ [e]).take s.cursor).drop first
        rw [List.take_append_of_le_length h.cursor_le, ← h.passed]
        exact List.flatMap_congr fun c hc => ((h.honest c hc).append e).1
  | getSince capacity =>
      have hcall := h.holds.honest h.cursor_le capacity
      refine ⟨h.holds, le_trans h.first_le hcall.le, le_trans hcall.le_appended hcall.appended_le,
        ?_, fun c hc => ?_⟩
      · show (s.calls ++ [_]).flatMap (RfEventCall.passed · s.log) = (s.log.take _).drop first
        rw [List.flatMap_append, List.flatMap_singleton, h.passed]
        exact drop_take_append h.first_le hcall.le h.cursor_le
      · rcases List.mem_append.mp hc with hc | hc
        · exact h.honest c hc
        · rw [List.mem_singleton.mp hc]
          exact hcall

theorem Inv.run {first : ℕ} {s : RfEventReader α} (h : s.Inv first) (ops : List (RfEventOp α)) :
    (s.run ops).Inv first := by
  induction ops generalizing s with
  | nil => exact h
  | cons op ops ih => exact ih (h.step op)

structure Reads (first : ℕ) (s : RfEventReader α) : Prop extends Inv first s where
  head_lt : s.ring.head < rfEventHistorySize
  count_le : s.ring.count ≤ rfEventHistorySize
  consecutive : ∀ i < s.ring.count, s.ring.sequences ((s.ring.oldest + i) % rfEventHistorySize) =
    s.ring.sequence - s.ring.count + i + 1

/-- Every run of appends and calls, from any cursor that is not ahead. -/
theorem rf_events_run (blank : α) (before : List α) (first : ℕ) (h : first ≤ before.length)
    (ops : List (RfEventOp α)) : ((start blank before first).run ops).Reads first := by
  have hinv := (inv_start blank h).run ops
  have hle := hinv.holds.count_le
  refine ⟨hinv, ?_, hle.1, fun i hi => ?_⟩
  · rw [hinv.holds.head]
    exact Nat.mod_lt _ (by decide)
  · rw [hinv.holds.slot_oldest, (hinv.holds.slot _ (by omega) (by omega)).2, hinv.holds.sequence]

/-- One call behind 65 events and one behind the next event. -/
theorem rf_events_run_gap : ((start 0 (List.range 65) 0).run
    [.getSince 8, .append 7, .getSince 8]).Reads 0 :=
  rf_events_run 0 (List.range 65) 0 (by decide) _

/-- A call without room for any event skips what was overwritten as well. -/
theorem rf_events_gap_without_room :
    ∃ c ∈ ((start 0 (List.range 65) 0).run [.getSince 0]).calls, c.Gap ∧ c.capacity = 0 := by
  have hholds := (RfEventRing.holds_empty 0).foldl (List.range 65)
  refine ⟨_, List.mem_singleton.mpr rfl, ?_, rfl⟩
  unfold RfEventCall.Gap
  dsimp only [start]
  rw [hholds.getSince (Nat.zero_le _)]
  decide

end RfEventReader

end BladeRF
