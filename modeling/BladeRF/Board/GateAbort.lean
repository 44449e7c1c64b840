/-
# `Board.GateAbort` — requests to abort the TX retune gate

Three parties set `tx_gate_abort_pending`: a USB callback that lost the
transport, a setter that fails closed under `dev->lock`, and the fault monitor
when a pass finds TX broken.  The latter two also issue the ABORT and clear the
flag when it succeeded.

The clear is fenced by the transport failure generation, which only the USB
callback advances.  A setter keeps `dev->lock` from its request to its clear;
the monitor has let it go in between, and that window is what the condition of
the main theorem is about.
-/
import Mathlib.Tactic.Ring
import BladeRF.Lib.Steps
import BladeRF.Board.TxAdmission

namespace BladeRF

open TxAdmission

/-! ## Frames -/

namespace TxSection

variable (s : TxAdmission) (c : TxSection)

/-- Only the gate sections write the request flag, only a USB callback advances the
generation it is fenced with, and only the commit of a recovery clears the latch. -/
theorem run_gate : ((c.run s).gateAbortPending = s.gateAbortPending ∧
      (c.run s).asyncTransportFailureGeneration = s.asyncTransportFailureGeneration) ∧
    ((∀ generation now, c ≠ .recoverCommit generation now) →
      (c.run s).asyncFaultFlushRequired = s.asyncFaultFlushRequired) := by
  cases c with
  | setFaulted faulted =>
      simp only [run, TxAdmission.streamSetFaulted]
      split_ifs <;> exact ⟨⟨rfl, rfl⟩, fun _ => rfl⟩
  | newEpoch linkStatus baseline now =>
      simp only [run, TxAdmission.streamNewEpoch]
      split_ifs <;> exact ⟨⟨rfl, rfl⟩, fun _ => rfl⟩
  | statusRecovery linkStatus now =>
      simp only [run, TxAdmission.statusRecoveryEvent]
      split_ifs <;> exact ⟨⟨rfl, rfl⟩, fun _ => rfl⟩
  | streamEvent type lossCount linkStatus errorCode now =>
      simp only [run, TxAdmission.streamEvent]
      split_ifs <;> exact ⟨⟨rfl, rfl⟩, fun _ => rfl⟩
  | retuneEvent type requestedHz readbackHz flags errorCode now =>
      simp only [run, TxAdmission.retuneEvent]
      split_ifs <;> exact ⟨⟨rfl, rfl⟩, fun _ => rfl⟩
  | retuneFailureDetail scheduledTimestamp requestedHz failureStage errorCode now =>
      simp only [run, TxAdmission.retuneFailureDetailEvent]
      split_ifs <;> exact ⟨⟨rfl, rfl⟩, fun _ => rfl⟩
  | leaseAcquire generation =>
      simp only [run, TxAdmission.asyncSubmitLeaseAcquire]
      split_ifs <;> exact ⟨⟨rfl, rfl⟩, fun _ => rfl⟩
  | leaseRelease => exact ⟨⟨rfl, rfl⟩, fun _ => rfl⟩
  | recoverCommit generation now =>
      simp only [run, TxAdmission.faultRecoverCommit]
      split_ifs <;> exact ⟨⟨rfl, rfl⟩, fun h => absurd rfl (h _ _)⟩
  | retune w => exact ⟨⟨rfl, rfl⟩, fun _ => rfl⟩

@[simp] theorem run_gateAbortPending : (c.run s).gateAbortPending = s.gateAbortPending :=
  (run_gate s c).1.1

@[simp] theorem run_asyncTransportFailureGeneration :
    (c.run s).asyncTransportFailureGeneration = s.asyncTransportFailureGeneration :=
  (run_gate s c).1.2

end TxSection

namespace TxAdmission

variable (s : TxAdmission)

@[simp] theorem asyncTransportFailure_gateAbortPending (err : RetCode) (now : ℕ) :
    (s.asyncTransportFailure err now).gateAbortPending = true := by
  simp only [asyncTransportFailure]
  split_ifs <;> rfl

@[simp] theorem asyncTransportFailure_generation (err : RetCode) (now : ℕ) :
    (s.asyncTransportFailure err now).asyncTransportFailureGeneration =
      s.asyncTransportFailureGeneration + 1 := by
  simp only [asyncTransportFailure]
  split_ifs <;> rfl

theorem gateAbortSucceeded_of_ne {n : ℕ} (h : s.asyncTransportFailureGeneration ≠ n) :
    s.gateAbortSucceeded n = s := if_neg h

theorem gateAbortSucceeded_pending {n : ℕ} (h : s.asyncTransportFailureGeneration = n) :
    (s.gateAbortSucceeded n).gateAbortPending = false := by
  rw [gateAbortSucceeded, if_pos h]

end TxAdmission

/-! ## The system -/

/-- Who holds `dev->lock`. -/
inductive DevLock
  | free
  | monitor
  | setter
  deriving DecidableEq

/-- Where the monitor stands in the TX part of a pass.  `generation` is the
transport failure generation of its snapshot, `issued` the time of its ABORT. -/
inductive MonitorPc
  | idle
  /-- in "TX state commit", with `abort_tx_retune_gate` -/
  | committing (generation : ℕ) (abort : Bool)
  /-- `dev->lock` is released, the gate will be aborted -/
  | marking (generation : ℕ)
  | issuing (generation : ℕ)
  | aborting (generation issued : ℕ)
  | succeeded (generation issued : ℕ)
  | failed
  | latching
  deriving DecidableEq

/-- Where the holder of `dev->lock` stands in
`bladerf2_tx_gate_abort_fail_closed`. -/
inductive SetterPc
  | idle
  | requested (generation : ℕ)
  | aborting (generation issued : ℕ)
  | succeeded (generation issued : ℕ)
  | failed
  | latching
  deriving DecidableEq

structure GateAbort where
  tx : TxAdmission
  devLock : DevLock
  monitor : MonitorPc
  setter : SetterPc
  clock : ℕ
  /-- when the flag was set last; zero is never -/
  setAt : ℕ
  setterSetAt : ℕ
  succeededAt : ℕ
  /-- when the ABORT was issued that failed last while the flag was set -/
  failedAt : ℕ

inductive GateLabel
  /-- `bladerf2_tx_async_transport_failure` -/
  | transportFailure (errorCode : RetCode) (now : ℕ)
  | other (c : TxSection)
  -- the monitor
  | passBegin
  | passDecide
  | passRequest
  | passEnd
  | passMark
  | passIssue
  | passReturn (ok : Bool)
  | passClear
  | passFault
  | passLatch (linkStatus : BitVec 32) (errorCode : RetCode) (now : ℕ)
  -- the setters
  | setterLock
  | setterRequest
  | setterIssue
  | setterReturn (ok : Bool)
  | setterClear
  | setterFault
  | setterLatch (linkStatus : BitVec 32) (errorCode : RetCode) (now : ℕ)
  | setterUnlock
  deriving DecidableEq

namespace GateAbort

def start : GateAbort := ⟨.closed, .free, .idle, .idle, 0, 0, 0, 0, 0⟩

/-- The latch of a failed ABORT, with its event when that is due. -/
def abortFailed (tx : TxAdmission) (linkStatus : BitVec 32) (errorCode : RetCode) (now : ℕ) :
    TxAdmission :=
  let r := tx.gateAbortFailed
  if r.2 then r.1.streamEvent .statusUnavailable 0 linkStatus errorCode now else r.1

def returned (g : GateAbort) (ok : Bool) (issued : ℕ) : GateAbort :=
  if ok then { g with succeededAt := max g.succeededAt issued }
  else if g.tx.gateAbortPending then { g with failedAt := max g.failedAt issued }
  else g

def act (g : GateAbort) : GateLabel → Option GateAbort
  | .transportFailure errorCode now =>
      some { g with
        tx := g.tx.asyncTransportFailure errorCode now
        setAt := g.clock }
  | .other c => some { g with tx := c.run g.tx }
  | .passBegin =>
      match g.monitor, g.devLock with
      | .idle, .free =>
          some { g with
            devLock := .monitor
            monitor := .committing g.tx.asyncTransportFailureGeneration g.tx.gateAbortPending }
      | _, _ => none
  | .passDecide =>
      match g.monitor with
      | .committing generation _ => some { g with monitor := .committing generation true }
      | _ => none
  | .passRequest =>
      match g.monitor with
      | .committing _ true =>
          some { g with
            tx := { g.tx with gateAbortPending := true }
            setAt := g.clock }
      | _ => none
  | .passEnd =>
      match g.monitor with
      | .committing generation abort =>
          some { g with
            devLock := .free
            monitor := if abort then .marking generation else .idle }
      | _ => none
  | .passMark =>
      match g.monitor with
      | .marking generation =>
          some { g with
            tx := g.tx.gateAbortMark
            monitor := .issuing generation }
      | _ => none
  | .passIssue =>
      match g.monitor, g.devLock with
      | .issuing generation, .free =>
          some { g with
            devLock := .monitor
            monitor := .aborting generation g.clock }
      | _, _ => none
  | .passReturn ok =>
      match g.monitor with
      | .aborting generation issued =>
          some { g.returned ok issued with
            devLock := .free
            monitor := if ok then .succeeded generation issued else .failed }
      | _ => none
  | .passClear =>
      match g.monitor with
      | .succeeded generation _ =>
          some { g with
            tx := g.tx.gateAbortSucceeded generation
            monitor := .idle }
      | _ => none
  | .passFault =>
      match g.monitor, g.devLock with
      | .failed, .free =>
          some { g with
            tx := g.tx.streamSetFaulted true
            monitor := .latching }
      | _, _ => none
  | .passLatch linkStatus errorCode now =>
      match g.monitor with
      | .latching =>
          some { g with
            tx := abortFailed g.tx linkStatus errorCode now
            monitor := .idle }
      | _ => none
  | .setterLock =>
      match g.devLock with
      | .free => some { g with devLock := .setter }
      | _ => none
  | .setterRequest =>
      match g.setter, g.devLock with
      | .idle, .setter =>
          some { g with
            tx := g.tx.gateAbortRequest
            setter := .requested g.tx.asyncTransportFailureGeneration
            setAt := g.clock
            setterSetAt := g.clock }
      | _, _ => none
  | .setterIssue =>
      match g.setter with
      | .requested generation => some { g with setter := .aborting generation g.clock }
      | _ => none
  | .setterReturn ok =>
      match g.setter with
      | .aborting generation issued =>
          some { g.returned ok issued with
            setter := if ok then .succeeded generation issued else .failed }
      | _ => none
  | .setterClear =>
      match g.setter with
      | .succeeded generation _ =>
          some { g with
            tx := g.tx.gateAbortSucceeded generation
            setter := .idle }
      | _ => none
  | .setterFault =>
      match g.setter with
      | .failed =>
          some { g with
            tx := g.tx.streamSetFaulted true
            setter := .latching }
      | _ => none
  | .setterLatch linkStatus errorCode now =>
      match g.setter with
      | .latching =>
          some { g with
            tx := abortFailed g.tx linkStatus errorCode now
            setter := .idle }
      | _ => none
  | .setterUnlock =>
      match g.setter, g.devLock with
      | .idle, .setter => some { g with devLock := .free }
      | _, _ => none

def step (g : GateAbort) (l : GateLabel) : Option GateAbort :=
  { g with clock := g.clock + 1 }.act l

/-! ## What a request is owed -/

/-- The issue time of the ABORT on whose success a step clears the flag. -/
def clearing (g : GateAbort) (l : GateLabel) : Option ℕ :=
  match l, g.monitor, g.setter with
  | .passClear, .succeeded _ issued, _ => some issued
  | .setterClear, _, .succeeded _ issued => some issued
  | _, _, _ => none

/-- A step that clears the flag does so for an ABORT issued after the flag was
set last. -/
def HonestClear (g : GateAbort) (l : GateLabel) (u : GateAbort) : Prop :=
  g.tx.gateAbortPending = true → u.tx.gateAbortPending = false →
    ∃ issued, g.clearing l = some issued ∧ g.setAt < issued

/-- The monitor does not clear the flag for a setter that has set it since the
monitor issued its ABORT. -/
def NoSetterSince (g : GateAbort) (l : GateLabel) : Prop :=
  match l, g.monitor with
  | .passClear, .succeeded generation issued =>
      g.tx.asyncTransportFailureGeneration = generation → g.tx.gateAbortPending = true →
        g.setterSetAt < issued
  | _, _ => True

instance (g : GateAbort) (l : GateLabel) : Decidable (g.NoSetterSince l) := by
  unfold NoSetterSince
  split <;> infer_instance

/-! ## The invariant -/

/-- The invariant; every time in the history is at most `bound`. -/
@[grind cases]
structure Inv (bound : ℕ) (g : GateAbort) : Prop where
  setAt : g.setAt ≤ bound
  setterSetAt : g.setterSetAt ≤ g.setAt
  succeededAt : g.succeededAt ≤ bound
  failedAt : g.failedAt ≤ bound
  outstanding : g.tx.gateAbortPending = false → g.setAt = 0 ∨ g.setAt < g.succeededAt
  failed : g.tx.gateAbortPending = false → g.failedAt = 0 ∨ g.failedAt < g.succeededAt
  setterLocked : g.setter ≠ .idle → g.devLock = .setter
  -- the monitor
  committing : ∀ n abort, g.monitor = .committing n abort →
    g.devLock = .monitor ∧ n ≤ g.tx.asyncTransportFailureGeneration
  marking : ∀ n, g.monitor = .marking n → n ≤ g.tx.asyncTransportFailureGeneration
  issuing : ∀ n, g.monitor = .issuing n → n ≤ g.tx.asyncTransportFailureGeneration
  aborting : ∀ n issued, g.monitor = .aborting n issued →
    g.devLock = .monitor ∧ n ≤ g.tx.asyncTransportFailureGeneration ∧
      (g.tx.asyncTransportFailureGeneration = n → g.setAt < issued) ∧ g.failedAt < issued ∧
      issued ≤ bound
  -- after its ABORT only setters can set the flag behind its back
  succeeded : ∀ n issued, g.monitor = .succeeded n issued →
    n ≤ g.tx.asyncTransportFailureGeneration ∧
      (g.tx.asyncTransportFailureGeneration = n → g.setAt < issued ∨ g.setAt = g.setterSetAt) ∧
      (g.failedAt < issued ∨ issued < g.setterSetAt) ∧ issued ≤ g.succeededAt ∧
      (g.setter ≠ .idle → issued < g.setterSetAt)
  -- the setter
  requested : ∀ n, g.setter = .requested n → n ≤ g.tx.asyncTransportFailureGeneration
  setterAborting : ∀ n issued, g.setter = .aborting n issued →
    n ≤ g.tx.asyncTransportFailureGeneration ∧
      (g.tx.asyncTransportFailureGeneration = n → g.setAt < issued) ∧ g.failedAt < issued ∧
      issued ≤ bound
  setterSucceeded : ∀ n issued, g.setter = .succeeded n issued →
    n ≤ g.tx.asyncTransportFailureGeneration ∧
      (g.tx.asyncTransportFailureGeneration = n → g.setAt < issued) ∧ g.failedAt < issued ∧
      issued ≤ g.succeededAt

theorem abortFailed_gate (tx : TxAdmission) (linkStatus : BitVec 32) (errorCode : RetCode)
    (now : ℕ) :
    (abortFailed tx linkStatus errorCode now).gateAbortPending = tx.gateAbortPending ∧
      (abortFailed tx linkStatus errorCode now).asyncTransportFailureGeneration =
        tx.asyncTransportFailureGeneration := by
  simp only [abortFailed]
  split_ifs
  · exact (TxSection.run_gate tx.gateAbortFailed.1
      (.streamEvent .statusUnavailable 0 linkStatus errorCode now)).1
  · exact ⟨rfl, rfl⟩

theorem start_inv : Inv start.clock start := by
  constructor <;> simp [start, closed]

namespace Inv

variable {n : ℕ} {g u : GateAbort}

theorem frame (h : Inv n g) {tx : TxAdmission}
    (hp : tx.gateAbortPending = g.tx.gateAbortPending)
    (hg : tx.asyncTransportFailureGeneration = g.tx.asyncTransportFailureGeneration) :
    Inv n { g with tx := tx } := by
  constructor <;> grind -ring -linarith

theorem mono (h : Inv n g) {m : ℕ} (hm : n ≤ m) : Inv m g := by
  constructor <;> grind -ring -linarith

/-! ### The steps of the monitor and of a setter -/

theorem monitor_step (h : Inv n g) (hn : n < g.clock) {l : GateLabel}
    (hl : l ∈ [.passBegin, .passDecide, .passEnd, .passMark, .passIssue])
    (hs : g.act l = some u) : Inv g.clock u := by
  simp only [List.mem_cons, List.not_mem_nil, or_false] at hl
  rcases hl with rfl | rfl | rfl | rfl | rfl
  all_goals
    simp only [GateAbort.act] at hs
    split at hs <;> cases hs
    refine { h.mono hn.le with
      setterLocked := ?_, committing := ?_, marking := ?_, issuing := ?_, aborting := ?_
      succeeded := ?_ } <;> grind -ring -linarith [gateAbortMark]

theorem passRequest (h : Inv n g) (hn : n < g.clock) (hs : g.act .passRequest = some u) :
    Inv g.clock u := by
  simp only [GateAbort.act] at hs
  split at hs <;> cases hs
  constructor <;> grind -ring -linarith

theorem passReturn (h : Inv n g) (hn : n < g.clock) {ok : Bool}
    (hs : g.act (.passReturn ok) = some u) : Inv g.clock u := by
  simp only [GateAbort.act] at hs
  split at hs <;> cases hs
  cases ok <;> constructor <;> grind -ring -linarith [returned]

theorem setter_step (h : Inv n g) (hn : n < g.clock) {l : GateLabel}
    (hl : l ∈ [.setterLock, .setterIssue, .setterUnlock])
    (hs : g.act l = some u) : Inv g.clock u := by
  simp only [List.mem_cons, List.not_mem_nil, or_false] at hl
  rcases hl with rfl | rfl | rfl
  all_goals
    simp only [GateAbort.act] at hs
    split at hs <;> cases hs
    refine { h.mono hn.le with
      setterLocked := ?_, committing := ?_, aborting := ?_, succeeded := ?_, requested := ?_
      setterAborting := ?_, setterSucceeded := ?_ } <;> grind -ring -linarith

theorem setterReturn (h : Inv n g) (hn : n < g.clock) {ok : Bool}
    (hs : g.act (.setterReturn ok) = some u) : Inv g.clock u := by
  simp only [GateAbort.act] at hs
  split at hs <;> cases hs
  cases ok <;> constructor <;> grind -ring -linarith [returned]

theorem setter_sets (h : Inv n g) (hn : n < g.clock) {l : GateLabel}
    (hl : l = .setterRequest ∨ l = .setterClear) (hs : g.act l = some u) : Inv g.clock u := by
  rcases hl with rfl | rfl
  all_goals
    simp only [GateAbort.act] at hs
    split at hs <;> cases hs
    constructor <;> grind -ring -linarith [gateAbortRequest, gateAbortSucceeded]

theorem passClear (h : Inv n g) (hc : g.NoSetterSince .passClear)
    (hs : g.act .passClear = some u) : Inv n u := by
  simp only [GateAbort.act] at hs
  split at hs <;> cases hs
  rename_i hm
  simp only [NoSetterSince, hm] at hc
  constructor <;> grind -ring -linarith [gateAbortSucceeded]

theorem fault_step (h : Inv n g) {l : GateLabel} (hl : l = .passFault ∨ l = .setterFault)
    (hs : g.act l = some u) : Inv n u := by
  have hf := (TxSection.run_gate g.tx (.setFaulted true)).1
  have h := h.frame hf.1 hf.2
  rcases hl with rfl | rfl
  all_goals
    simp only [GateAbort.act] at hs
    split at hs <;> cases hs
    constructor <;> grind -ring -linarith [TxSection.run]

theorem latch_step (h : Inv n g) {l : GateLabel} {linkStatus : BitVec 32} {errorCode : RetCode}
    {now : ℕ} (hl : l = .passLatch linkStatus errorCode now ∨
      l = .setterLatch linkStatus errorCode now) (hs : g.act l = some u) : Inv n u := by
  have hf := abortFailed_gate g.tx linkStatus errorCode now
  have h := h.frame hf.1 hf.2
  rcases hl with rfl | rfl
  all_goals
    simp only [GateAbort.act] at hs
    split at hs <;> cases hs
    constructor <;> grind -ring -linarith

/-! ### All steps -/

theorem transportFailure (h : Inv n g) (hn : n < g.clock) {errorCode : RetCode} {now : ℕ}
    (hs : g.act (.transportFailure errorCode now) = some u) : Inv g.clock u := by
  cases hs
  constructor <;> grind -ring -linarith [asyncTransportFailure_generation,
    asyncTransportFailure_gateAbortPending]

theorem act_clock {l : GateLabel} (hs : g.act l = some u) : u.clock = g.clock := by
  cases l <;> simp only [GateAbort.act] at hs <;> (try split at hs) <;> cases hs <;>
    first | rfl | (simp only [returned]; split_ifs <;> rfl)

theorem act (h : Inv n g) (hn : n < g.clock) {l : GateLabel} (hc : g.NoSetterSince l)
    (hs : g.act l = some u) : Inv g.clock u := by
  have h' := h.mono hn.le
  cases l with
  | transportFailure errorCode now => exact h.transportFailure hn hs
  | other c =>
      cases hs
      exact h'.frame (by simp) (by simp)
  | passClear => exact h'.passClear hc hs
  | passFault => exact h'.fault_step (.inl rfl) hs
  | setterFault => exact h'.fault_step (.inr rfl) hs
  | passLatch linkStatus errorCode now => exact h'.latch_step (.inl rfl) hs
  | setterLatch linkStatus errorCode now => exact h'.latch_step (.inr rfl) hs
  | passRequest => exact h.passRequest hn hs
  | passReturn ok => exact h.passReturn hn hs
  | setterReturn ok => exact h.setterReturn hn hs
  | setterRequest => exact h.setter_sets hn (.inl rfl) hs
  | setterClear => exact h.setter_sets hn (.inr rfl) hs
  | setterLock | setterIssue | setterUnlock => exact h.setter_step hn (by simp) hs
  | passBegin | passDecide | passEnd | passMark | passIssue =>
      exact h.monitor_step hn (by simp) hs

theorem step (h : Inv g.clock g) {l : GateLabel} (hc : g.NoSetterSince l)
    (hs : g.step l = some u) : Inv u.clock u := by
  have ht : Inv g.clock { g with clock := g.clock + 1 } := by
      constructor <;> grind -ring -linarith
  have hu := ht.act (Nat.lt_succ_self _) hc hs
  rwa [← act_clock hs] at hu

end Inv

/-! ## Main result -/

variable {g u : GateAbort} {l : GateLabel}

theorem pending_of_clearing (hs : g.step l = some u) (hl : l ≠ .passClear)
    (hl' : l ≠ .setterClear) (hp : g.tx.gateAbortPending = true) :
    u.tx.gateAbortPending = true := by
  cases l <;> simp only [step, act] at hs <;> (try split at hs) <;> cases hs
  all_goals try exact hp
  · exact asyncTransportFailure_gateAbortPending ..
  · exact (TxSection.run_gateAbortPending ..).trans hp
  · rfl
  · simp only [returned]
    split_ifs <;> exact hp
  · exact absurd rfl hl
  · exact (TxSection.run_gate g.tx (.setFaulted true)).1.1.trans hp
  · exact (abortFailed_gate ..).1.trans hp
  · rfl
  · simp only [returned]
    split_ifs <;> exact hp
  · exact absurd rfl hl'
  · exact (TxSection.run_gate g.tx (.setFaulted true)).1.1.trans hp
  · exact (abortFailed_gate ..).1.trans hp

theorem Inv.honest_setterClear (h : Inv g.clock g) (hs : g.step .setterClear = some u) :
    g.HonestClear .setterClear u := by
  intro hp hu
  simp only [GateAbort.step, GateAbort.act] at hs
  split at hs <;> cases hs
  rename_i n issued hm
  obtain ⟨-, hset, -⟩ := h.setterSucceeded n issued hm
  by_cases hg : g.tx.asyncTransportFailureGeneration = n
  · exact ⟨issued, by simp [clearing, hm], hset hg⟩
  · rw [gateAbortSucceeded_of_ne _ hg] at hu
    exact absurd (hu.symm.trans hp) (by simp)

theorem Inv.honest_passClear (h : Inv g.clock g) (hs : g.step .passClear = some u) :
    g.HonestClear .passClear u ↔ g.NoSetterSince .passClear := by
  simp only [GateAbort.step, GateAbort.act] at hs
  split at hs <;> cases hs
  rename_i n issued hm
  obtain ⟨-, hset, -⟩ := h.succeeded n issued hm
  have hclr : g.clearing .passClear = some issued := by simp [clearing, hm]
  simp only [NoSetterSince, hm]
  constructor
  · intro hh hg hp
    obtain ⟨i, hi, hlt⟩ := hh hp (gateAbortSucceeded_pending _ hg)
    cases hclr.symm.trans hi
    exact h.setterSetAt.trans_lt hlt
  · intro hc hp hu
    by_cases hg : g.tx.asyncTransportFailureGeneration = n
    · refine ⟨issued, hclr, ?_⟩
      rcases hset hg with hlt | heq
      · exact hlt
      · exact heq ▸ hc hg hp
    · rw [gateAbortSucceeded_of_ne _ hg] at hu
      exact absurd (hu.symm.trans hp) (by simp)

theorem Inv.honest (h : Inv g.clock g) (hs : g.step l = some u) :
    g.HonestClear l u ↔ g.NoSetterSince l := by
  by_cases hl : l = .passClear
  · subst hl
    exact h.honest_passClear hs
  · have hc : g.NoSetterSince l := by
      unfold NoSetterSince
      split
      · exact absurd rfl hl
      · trivial
    refine iff_of_true ?_ hc
    by_cases hl' : l = .setterClear
    · subst hl'
      exact h.honest_setterClear hs
    · intro hp hu
      exact absurd (hu.symm.trans (pending_of_clearing hs hl hl' hp)) (by simp)

end GateAbort
end BladeRF
