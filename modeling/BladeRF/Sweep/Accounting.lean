/-
# `Sweep.Accounting` — every request of a session is reported once

Between two calls the requests of a session are in two places: those that were
pushed and those still in the ledger.  Together their sequence numbers are the
ones handed out, each once.  A collection moves requests from the ledger to a
batch and pushes the batch; whether it reads their records, gives up on them or
cancels them, none is dropped and none is moved twice.
-/
import BladeRF.Lib.Steps
import BladeRF.Sweep.Session

namespace BladeRF

open Lib (Along lastN)

namespace SweepBoard

/-! ## A batch -/

/-- The NIOS ring a status is read from: a success from the success ring
(`false`), a failure from the failure ring. -/
def outcomeRing : SweepStatus → Option Bool
  | .success => some false
  | .failed => some true
  | _ => none

/-- A success or a failure is that of a request of `ids` which a NIOS record of
its own ring names. -/
def Attributed (ids : List RetuneIdentity) (readout : List (Bool × NiosRetune2Record))
    (r : SweepRecord) : Prop :=
  ∀ failure, outcomeRing r.status = some failure →
    ∃ id ∈ ids, ∃ nios, (failure, nios) ∈ readout ∧ id.matches nios ∧ id.sweepSequence = r.sequence

theorem Attributed.mono {ids ids' : List RetuneIdentity}
    {readout readout' : List (Bool × NiosRetune2Record)} {r : SweepRecord}
    (h : Attributed ids readout r) (hids : ids ⊆ ids') (hread : readout ⊆ readout') :
    Attributed ids' readout' r := by
  intro failure hr
  obtain ⟨id, hid, nios, hnios, hm⟩ := h failure hr
  exact ⟨id, hids hid, nios, hread hnios, hm⟩

theorem attributed_of_ring_none {ids : List RetuneIdentity}
    {readout : List (Bool × NiosRetune2Record)} {r : SweepRecord}
    (h : outcomeRing r.status = none) : Attributed ids readout r := by
  intro failure hr
  rw [h] at hr
  exact absurd hr (by simp)

/-- A batch accounts for the entries it started from: each is in a record or
still in the ledger. -/
structure Batch.Accounts (start : List PendingRetune) (b : Batch) : Prop where
  balance : (b.records.map (·.sequence) ++ b.ledger.entries.map (·.sweepSequence)).Perm
    (start.map (·.sweepSequence))
  subset : b.ledger.entries ⊆ start
  outcome : ∀ r ∈ b.records, r.status ≠ .ended
  attributed : ∀ r ∈ b.records, Attributed (start.map PendingRetune.identity) b.readout r

namespace Batch

variable {start : List PendingRetune} {b : Batch}

theorem Accounts.length_le (h : b.Accounts start) (hlen : start.length ≤ sweepDepth) :
    b.records.length + b.ledger.entries.length ≤ sweepDepth := by
  have heq := h.balance.length_eq
  simp only [List.length_append, List.length_map] at heq
  omega

theorem Accounts.take (h : b.Accounts start) {e : PendingRetune} {ledger : Ledger}
    {failure : Bool} {nios : NiosRetune2Record} {r : SweepRecord}
    (htake : b.ledger.take (fun e => e.identity.matches nios) = some (e, ledger))
    (hseq : r.sequence = e.sweepSequence) (hring : outcomeRing r.status = some failure) :
    (Batch.mk ledger (b.records ++ [r]) (b.readout ++ [(failure, nios)]) false).Accounts start := by
  obtain ⟨hm, hperm⟩ := Ledger.take_spec htake
  have he : e ∈ start := h.subset (hperm.mem_iff.mpr List.mem_cons_self)
  refine ⟨?_, fun x hx => h.subset (hperm.mem_iff.mpr (List.mem_cons_of_mem _ hx)), ?_, ?_⟩
  · refine List.Perm.trans ?_ h.balance
    have hmoved := (hperm.map (·.sweepSequence)).symm.append_left (b.records.map (·.sequence))
    simpa [hseq] using hmoved
  · intro x hx
    rcases List.mem_append.mp hx with hx | hx
    · exact h.outcome x hx
    · intro hended
      rw [← List.mem_singleton.mp hx, hended] at hring
      exact absurd hring (by simp [outcomeRing])
  · intro x hx
    rcases List.mem_append.mp hx with hx | hx
    · exact (h.attributed x hx).mono (List.Subset.refl _) (List.subset_append_left _ _)
    · intro ring hr
      rw [List.mem_singleton.mp hx, hring] at hr
      obtain rfl := Option.some.inj hr
      refine ⟨e.identity, List.mem_map_of_mem he, nios, by simp, hm, ?_⟩
      exact (List.mem_singleton.mp hx ▸ hseq).symm

theorem Accounts.lose (h : b.Accounts start) (more : List (Bool × NiosRetune2Record)) :
    (Batch.mk b.ledger b.records (b.readout ++ more) true).Accounts start where
  balance := h.balance
  subset := h.subset
  outcome := h.outcome
  attributed := fun r hr =>
    (h.attributed r hr).mono (List.Subset.refl _) (List.subset_append_left _ _)

theorem Accounts.gather {failure : Bool} {read : Bool → ℕ → Option NiosRetune2Record}
    {finish : PendingRetune → NiosRetune2Record → SweepRecord}
    (hseq : ∀ e nios, (finish e nios).sequence = e.sweepSequence)
    (hring : ∀ e nios, outcomeRing (finish e nios).status = some failure) (n : ℕ) :
    ∀ (seq : ℕ) {b : Batch}, b.Accounts start →
      (b.gather failure read finish n seq).Accounts start := by
  induction n with
  | zero => intro seq b h; exact h
  | succ n ih =>
      intro seq b h
      unfold Batch.gather
      split_ifs with hlost
      · exact h
      · cases read failure seq with
        | none => simpa using h.lose []
        | some nios =>
            cases htake : b.ledger.take (fun e => e.identity.matches nios) with
            | none => simpa [htake] using h.lose [(failure, nios)]
            | some r =>
                simp only [htake]
                exact ih _ (h.take htake (hseq _ _) (hring _ _))

theorem foldl_lost (es : List PendingRetune) (hnz : ∀ e ∈ es, e.sweepSequence ≠ 0) :
    ∀ records : List SweepRecord, records.length + es.length ≤ 2 * sweepDepth →
      es.foldl (fun records e =>
        if e.sweepSequence ≠ 0 ∧ records.length < 2 * sweepDepth then
          records ++ [e.record .lost]
        else records) records = records ++ es.map (·.record .lost) := by
  induction es with
  | nil => intro records _; simp
  | cons e es ih =>
      intro records hlen
      rw [List.length_cons] at hlen
      rw [List.foldl_cons, if_pos ⟨hnz e List.mem_cons_self, by omega⟩,
        ih (fun x hx => hnz x (List.mem_cons_of_mem _ hx)) _ (by simp; omega)]
      simp

theorem Accounts.abandon (h : b.Accounts start) (hnz : ∀ e ∈ start, e.sweepSequence ≠ 0)
    (hlen : start.length ≤ sweepDepth) : b.abandon.Accounts start := by
  unfold Batch.abandon
  split_ifs with hlost
  · have hroom : b.records.length + b.ledger.entries.length ≤ 2 * sweepDepth :=
      (h.length_le hlen).trans (by omega)
    rw [foldl_lost _ (fun e he => hnz e (h.subset he)) _ hroom]
    refine ⟨?_, by simp, ?_, ?_⟩
    · simpa [Function.comp_def, PendingRetune.record] using h.balance
    · intro r hr
      rcases List.mem_append.mp hr with hr | hr
      · exact h.outcome r hr
      · obtain ⟨e, _, rfl⟩ := List.mem_map.mp hr
        exact SweepStatus.noConfusion
    · intro r hr
      rcases List.mem_append.mp hr with hr | hr
      · exact h.attributed r hr
      · obtain ⟨e, _, rfl⟩ := List.mem_map.mp hr
        exact attributed_of_ring_none rfl
  · exact h

end Batch

variable {s : SweepBoard}

/-- An open session: what was handed out is pushed or pending, each once. -/
structure Open (s : SweepBoard) : Prop where
  next_pos : 1 ≤ s.nextSequence
  next_lt : s.nextSequence < counterModulus
  handed : s.handed = List.range' 1 (s.nextSequence - 1)
  balance : (s.pushed.map (·.sequence) ++ s.ledger.entries.map (·.sweepSequence)).Perm s.handed
  outcome : ∀ r ∈ s.pushed, r.status ≠ .ended
  requested : s.ledger.entries.map PendingRetune.identity ⊆ s.requested

structure Sound (s : SweepBoard) : Prop where
  fits : s.overran = false
  attributed : ∀ r ∈ s.pushed, Attributed s.requested s.readout r

/-- An ended session: every number handed out is in exactly one record that
reports an outcome, and the end follows them. -/
def Closed (s : SweepBoard) : Prop :=
  ∃ records last, s.pushed = records ++ [last] ∧
    last.status = .ended ∧ last.sequence = s.nextSequence ∧
    (∀ r ∈ records, r.status ≠ .ended) ∧
    (records.map (·.sequence)).Perm s.handed ∧ s.handed.Nodup

def PushesTo (s t : SweepBoard) (new : List SweepRecord) : Prop :=
  t.pushed = s.pushed ++ new ∧ t.ring.items = lastN sweepRingSize (s.ring.items ++ new)

theorem PushesTo.refl (s : SweepBoard) : PushesTo s s [] := by
  refine ⟨(List.append_nil _).symm, ?_⟩
  rw [List.append_nil, Lib.lastN_of_le (by simpa using s.ring.count_le)]

theorem PushesTo.trans {s t u : SweepBoard} {new new' : List SweepRecord}
    (h : PushesTo s t new) (h' : PushesTo t u new') : PushesTo s u (new ++ new') := by
  refine ⟨by rw [h'.1, h.1, List.append_assoc], ?_⟩
  rw [h'.2, h.2, Lib.lastN_lastN_append, List.append_assoc]

end SweepBoard

/-! ## Runs -/

/-- A call of the application, with what the device answers during it. -/
inductive SweepCall
  | begin (ch settleSamples refclkHz region : ℕ) (allowed : Bool) (counts : Option (ℕ × ℕ))
  | schedule (ch timestamp frequency : ℕ) (quickTune : Option (ℕ × ℕ))
      (env : SweepBoard.ScheduleEnv)
  | completions (ch maxRecords : ℕ) (env : SweepBoard.CollectEnv)
  | finish (ch : ℕ) (env : SweepBoard.EndEnv)
  | outside (ledger : Ledger) (outcomeUnknown : Bool)

namespace SweepBoard

def next (s : SweepBoard) : SweepCall → SweepBoard
  | .begin ch settle refclk region allowed counts =>
      s.rxSweepBegin ch settle refclk region allowed counts
  | .schedule ch timestamp frequency quickTune env =>
      s.rxSweepSchedule ch timestamp frequency quickTune env
  | .completions ch maxRecords env => (s.rxSweepCompletions ch maxRecords env).2
  | .finish ch env => s.rxSweepEnd ch env
  | .outside ledger outcomeUnknown =>
      if s.active then s
      else
        { s with
          ledger := ledger
          outcomeUnknown := outcomeUnknown }

def returned (s : SweepBoard) : SweepCall → Option (ℕ × List SweepRecord)
  | .completions ch maxRecords env =>
      (s.rxSweepCompletions ch maxRecords env).1.map fun records => (maxRecords, records)
  | _ => none

/-- A call that returns no records: every one but a completions call on a valid
channel whose session, if one is active, is that channel's and can be collected. -/
def Unanswered (s : SweepBoard) : SweepCall → Prop
  | .completions ch _ env =>
      ¬ channelValid ch ∨ s.active ∧ (ch ≠ s.ch ∨ env.counts = none)
  | _ => True

structure Idle (s : SweepBoard) : Prop where
  active : s.active = false
  pushed : s.pushed = []
  fits : s.overran = false

/-- The accounting of one call that leads from `s` to `t`. -/
structure Accounted (s : SweepBoard) (c : SweepCall) (t : SweepBoard) : Prop where
  /-- No batch exceeds its array. -/
  fits : t.overran = false
  /-- A success or a failure is that of the request the NIOS record names. -/
  attributed : ∀ r ∈ t.pushed, Attributed t.requested t.readout r
  /-- A session starts with an empty ring; otherwise a call appends to what was
  pushed, and the ring keeps the last records that nobody has read. -/
  pushes : (s.active = false ∧ t.active ∧ t.pushed = [] ∧ t.ring.items = []) ∨
    ∃ new, t.pushed = s.pushed ++ new ∧
      match s.returned c with
      | none => t.ring.items = lastN sweepRingSize (s.ring.items ++ new)
      | some (maxRecords, records) =>
          records = (lastN sweepRingSize (s.ring.items ++ new)).take maxRecords ∧
          t.ring.items = (lastN sweepRingSize (s.ring.items ++ new)).drop maxRecords
  /-- Only a bad or another channel or unreadable counts keep the records back. -/
  answered : s.returned c = none ↔ s.Unanswered c
  /-- A session that ends has reported every request. -/
  closed : s.active → t.active = false → t.Closed
  /-- Between sessions nothing is pushed. -/
  kept : s.active = false → t.active = false → t.pushed = s.pushed

structure Tracked (s : SweepBoard) : Prop where
  sound : s.Sound
  session : s.active → s.Open

variable {s : SweepBoard}

theorem Idle.tracked (h : s.Idle) : s.Tracked := by
  refine ⟨⟨h.fits, ?_⟩, ?_⟩
  · intro r hr
    rw [h.pushed] at hr
    exact absurd hr (by simp)
  · intro ha
    rw [h.active] at ha
    exact absurd ha (by simp)

end SweepBoard

end BladeRF
