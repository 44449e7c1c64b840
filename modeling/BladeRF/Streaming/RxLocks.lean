/-
# `Streaming.RxLocks` — the mutexes of a `sync_rx` call

`sync_rx` as the sections of code between its entry, its loop head, its label
`out` and its return.  A section lists what it does to the four mutexes of the
stream; every value it gets from elsewhere (the clock, the waits, the worker,
the buffers) is part of the step, so a run of the machine is a path through the
function.

One path breaks the discipline.  `SYNC_STATE_WAIT_FOR_BUFFER` reads the
deadline a second time while it holds `buf_mgmt.lock`; if it has passed, the
`break` leaves the state without unlocking, and `out` locks the mutex again.
-/
import BladeRF.Lib.Locks
import BladeRF.Streaming.RxRing

namespace BladeRF

/-- The mutexes of `struct bladerf_sync` that a reader takes. -/
inductive RxMutex where
  | rxReaderLock
  | lock
  | bufMgmtLock
  | rxEpochGenerationLock
deriving DecidableEq

/-- Section boundaries of `sync_rx`. -/
inductive RxPoint where
  | entry
  | loopHead
  | out
  | returned
deriving DecidableEq

/-- What does not change during a call: the stream, the arguments
(`timeout_ms != 0`, `num_samples`, `user_meta == NULL`). -/
structure RxCallConfig where
  format : BladerfFormat
  rx : Bool
  timed : Bool
  numSamples : ℕ
  userMetaNull : Bool

/-- `PACKET_META` and the sample formats with metadata. -/
def BladerfFormat.hasMeta (f : BladerfFormat) : Bool :=
  f.isSampleMeta || f == .packetMeta

/-- The variables the control flow of `sync_rx` depends on; a status is 0 for
success. -/
structure RxCall where
  point : RxPoint
  state : SyncState
  status : ℤ
  exitEarly : Bool
  samplesReturned : ℕ

structure RxEntry where
  argsValid : Bool
  clockStatus : ℤ
  epochIdFilterEnabled : Bool
  deliveryRevoked : Bool
  transitionPending : Bool
  dataInvalidated : Bool

/-- `sync_worker_state`, as `SYNC_STATE_CHECK_WORKER` distinguishes it. -/
inductive WorkerState where
  | idle
  | running
  | other

/-- What one turn of the loop sees.  `deadline`, `startDeadline` and
`waitDeadline` are the three reads of the remaining time; `full` and
`fullAfterWait` are the status of the slot at `cons_i` before and after the
wait; `metaState` to `metaCopied` is the effect of the metadata parser. -/
structure RxTurn where
  generationChanged : Bool
  deadline : ℤ
  streamError : ℤ
  workerState : WorkerState
  startDeadline : ℤ
  startStatus : ℤ
  withheldPending : Bool
  staleExit : Bool
  full : Bool
  waitDeadline : ℤ
  waitStatus : ℤ
  fullAfterWait : Bool
  overrunPending : Bool
  copied : ℕ
  bufferUsed : Bool
  metaState : SyncState
  metaStatus : ℤ
  metaExitEarly : Bool
  metaCopied : ℕ
  packetFits : Bool
  packetLen : ℕ

inductive RxSection where
  | enter (e : RxEntry)
  | turn (t : RxTurn)
  | leave

namespace RxCall

open Lib.LockOp (lock unlock)

structure Effect where
  ops : List (Lib.LockOp RxMutex)
  next : RxCall

/-- A snapshot of `rx_epoch_generation`. -/
def generationOps : List (Lib.LockOp RxMutex) :=
  [lock .rxEpochGenerationLock, unlock .rxEpochGenerationLock]

/-- A section under `buf_mgmt.lock`. -/
def bufMgmtOps : List (Lib.LockOp RxMutex) :=
  [lock .bufMgmtLock, unlock .bufMgmtLock]

/-- From the entry to the loop head, to `out`, or back to the caller. -/
def enter (cfg : RxCallConfig) (c : RxCall) (e : RxEntry) : Effect :=
  if !e.argsValid then ⟨[], { c with point := .returned, status := bladerfErrInval }⟩
  else if cfg.timed && e.clockStatus != 0 then
    ⟨[], { c with point := .returned, status := bladerfErrUnexpected }⟩
  else
    let ops := [lock .rxReaderLock] ++ generationOps ++ [lock .lock]
    if cfg.format.hasMeta && cfg.userMetaNull then
      ⟨ops, { c with point := .out, status := bladerfErrInval }⟩
    else
      let ops₁ := ops ++ if cfg.format.hasMeta then bufMgmtOps else []
      let filtered := cfg.rx && cfg.format.isSampleMeta && e.epochIdFilterEnabled
      let ops₂ := ops₁ ++ if filtered then generationOps else []
      let waits := e.transitionPending && cfg.timed
      if filtered && e.deliveryRevoked && !waits then
        ⟨ops₂, { c with point := .out, status := bladerfErrWouldBlock }⟩
      else if filtered && e.dataInvalidated && !waits then
        ⟨ops₂, { c with point := .out, status := bladerfErrWouldBlock }⟩
      else ⟨ops₂, { c with point := .loopHead }⟩

/-- `SYNC_STATE_WAIT_FOR_BUFFER`.  The wait gives up `sync->lock`, and inside it
`buf_mgmt.lock`. -/
def waitForBuffer (cfg : RxCallConfig) (c : RxCall) (t : RxTurn) : Effect :=
  if t.withheldPending && !cfg.timed then
    ⟨bufMgmtOps, { c with status := bladerfErrWouldBlock }⟩
  else
    let c₁ := { c with exitEarly := c.exitEarly || (t.staleExit && c.samplesReturned != 0) }
    if t.full then ⟨bufMgmtOps, { c₁ with state := .bufferReady }⟩
    else if cfg.timed && t.waitDeadline != 0 then
      ⟨[lock .bufMgmtLock], { c₁ with status := t.waitDeadline }⟩
    else
      ⟨[lock .bufMgmtLock, unlock .lock, unlock .bufMgmtLock, lock .bufMgmtLock,
          unlock .bufMgmtLock, lock .lock, lock .bufMgmtLock, unlock .bufMgmtLock],
        { c₁ with
          status := t.waitStatus
          state := if t.waitStatus = 0 ∧ t.fullAfterWait then .bufferReady else .checkWorker }⟩

/-- The `switch` of the loop. -/
def dispatch (cfg : RxCallConfig) (c : RxCall) (t : RxTurn) : Effect :=
  match c.state with
  | .checkWorker =>
      if t.streamError ≠ 0 then ⟨[], { c with status := t.streamError }⟩
      else
        match t.workerState with
        | .idle => ⟨[], { c with state := .resetBufMgmt }⟩
        | .running => ⟨[], { c with state := .waitForBuffer }⟩
        | .other => ⟨[], { c with status := bladerfErrUnexpected }⟩
  | .resetBufMgmt => ⟨bufMgmtOps, { c with state := .startWorker }⟩
  | .startWorker =>
      if cfg.timed && t.startDeadline != 0 then ⟨[], { c with status := t.startDeadline }⟩
      else if t.startStatus = 0 then ⟨[], { c with state := .waitForBuffer, status := 0 }⟩
      else ⟨[], { c with status := t.startStatus }⟩
  | .waitForBuffer => waitForBuffer cfg c t
  | .bufferReady => ⟨bufMgmtOps, { c with state := cfg.format.usingState }⟩
  | .usingBuffer =>
      if t.overrunPending then ⟨bufMgmtOps, { c with status := bladerfErrWouldBlock }⟩
      else
        ⟨bufMgmtOps,
          { c with
            samplesReturned := c.samplesReturned + t.copied
            state := if t.bufferUsed then .waitForBuffer else c.state }⟩
  | .usingBufferMeta =>
      ⟨bufMgmtOps,
        { c with
          state := t.metaState
          status := t.metaStatus
          exitEarly := c.exitEarly || t.metaExitEarly
          samplesReturned := c.samplesReturned + t.metaCopied }⟩
  | .usingPacketMeta =>
      ⟨bufMgmtOps,
        { c with
          status := if t.packetFits then c.status else bladerfErrMem
          samplesReturned := if t.packetFits && t.packetLen != 0 then t.packetLen
            else c.samplesReturned
          exitEarly := true
          state := .waitForBuffer }⟩

/-- One turn of the loop.  Leaving the loop leads to `out`. -/
def turn (cfg : RxCallConfig) (c : RxCall) (t : RxTurn) : Effect :=
  if c.exitEarly || cfg.numSamples ≤ c.samplesReturned || c.status != 0 then
    ⟨[], { c with point := .out }⟩
  else
    let ops := if cfg.rx then generationOps else []
    if cfg.rx && t.generationChanged then
      ⟨ops, { c with point := .out, status := bladerfErrWouldBlock }⟩
    else if cfg.timed && t.deadline != 0 then
      ⟨ops, { c with point := .out, status := t.deadline }⟩
    else
      let e := c.dispatch cfg t
      ⟨ops ++ e.ops, e.next⟩

/-- From `out` to the return. -/
def leave (cfg : RxCallConfig) (c : RxCall) : Effect :=
  ⟨bufMgmtOps ++
      (if cfg.rx then [lock .rxEpochGenerationLock, unlock .lock, unlock .rxEpochGenerationLock]
        else [unlock .lock]) ++
      [unlock .rxReaderLock],
    { c with point := .returned }⟩

def run (cfg : RxCallConfig) (c : RxCall) : RxSection → Option Effect
  | .enter e => if c.point = .entry then some (c.enter cfg e) else none
  | .turn t => if c.point = .loopHead then some (c.turn cfg t) else none
  | .leave => if c.point = .out then some (c.leave cfg) else none

end RxCall

/-- A call and the mutexes its thread owns; `none` after an operation a mutex
does not allow. -/
structure RxThread where
  call : RxCall
  held : Option (Finset RxMutex)

namespace RxThread

/-- A thread about to call `sync_rx` on a stream left in `state`. -/
def start (state : SyncState) : RxThread :=
  ⟨⟨.entry, state, 0, false, 0⟩, some ∅⟩

def step (cfg : RxCallConfig) (s : RxThread) (a : RxSection) : Option RxThread :=
  (s.call.run cfg a).map (fun e => ⟨e.next, s.held.bind (fun held => Lib.lockOps held e.ops)⟩)

def readerLocks : Finset RxMutex :=
  {.rxReaderLock, .lock}

def owned : RxPoint → Finset RxMutex
  | .entry | .returned => ∅
  | .loopHead | .out => readerLocks

/-- The discipline: no operation was an error, and the thread owns what the
point says. -/
def Disciplined (s : RxThread) : Prop :=
  s.held = some (owned s.call.point)

instance (s : RxThread) : Decidable s.Disciplined :=
  inferInstanceAs (Decidable (_ = _))

/-- `SYNC_STATE_WAIT_FOR_BUFFER` is about to wait: the slot at `cons_i` is not
full, and a withheld slot does not end the call before. -/
def aboutToWait (cfg : RxCallConfig) (c : RxCall) (t : RxTurn) : Bool :=
  c.state == .waitForBuffer && !(t.withheldPending && !cfg.timed) && !t.full

/-- The turn dispatches on the state: the loop condition holds, the generation
is unchanged and the first read of the deadline succeeds. -/
def dispatches (cfg : RxCallConfig) (c : RxCall) (t : RxTurn) : Bool :=
  !(c.exitEarly || cfg.numSamples ≤ c.samplesReturned || c.status != 0) &&
    !(cfg.rx && t.generationChanged) && !(cfg.timed && t.deadline != 0)

/-- A turn that is about to wait does not find the deadline passed in its
second read, the one it makes while it holds `buf_mgmt.lock`. -/
def DeadlineHolds (cfg : RxCallConfig) (s : RxThread) : RxSection → Prop
  | .turn t =>
      dispatches cfg s.call t = true → aboutToWait cfg s.call t = true → cfg.timed = true →
        t.waitDeadline = 0
  | _ => True

instance (cfg : RxCallConfig) (s : RxThread) : (a : RxSection) →
    Decidable (DeadlineHolds cfg s a)
  | .turn _ => inferInstanceAs (Decidable (_ → _ → _ → _))
  | .enter _ => inferInstanceAs (Decidable True)
  | .leave => inferInstanceAs (Decidable True)

end RxThread

/-! ## The sections -/

namespace RxCall

open RxThread (readerLocks owned aboutToWait dispatches)

variable {cfg : RxCallConfig} {c : RxCall} {t : RxTurn}

/-- A section keeps the discipline if from the mutexes of its first point its
operations lead to those of its last. -/
def Effect.Keeps (held : Finset RxMutex) (e : Effect) : Prop :=
  Lib.lockOps held e.ops = some (owned e.next.point)

theorem generationOps_balanced :
    Lib.lockOps readerLocks generationOps = some readerLocks := by
  decide

theorem bufMgmtOps_balanced :
    Lib.lockOps readerLocks bufMgmtOps = some readerLocks := by
  decide

theorem enter_keeps (cfg : RxCallConfig) (c : RxCall) (e : RxEntry) :
    (c.enter cfg e).Keeps ∅ := by
  have prologue : Lib.lockOps ∅ ([.lock .rxReaderLock] ++ generationOps ++ [.lock .lock]) =
      some readerLocks := by
    decide
  have withMeta := Lib.lockOps_append_of_eq_some prologue
    (Lib.lockOps_ite_of_balanced bufMgmtOps_balanced (cfg.format.hasMeta = true))
  have withFilter := Lib.lockOps_append_of_eq_some withMeta
    (Lib.lockOps_ite_of_balanced generationOps_balanced
      ((cfg.rx && cfg.format.isSampleMeta && e.epochIdFilterEnabled) = true))
  unfold enter
  split
  · rfl
  · split
    · rfl
    · dsimp only
      split
      · exact prologue
      · split
        · exact withFilter
        · split
          · exact withFilter
          · exact withFilter

theorem waitForBuffer_keeps_iff (hpoint : c.point = .loopHead) :
    (c.waitForBuffer cfg t).Keeps readerLocks ↔
      ((t.withheldPending && !cfg.timed) = false → t.full = false → cfg.timed = true →
        t.waitDeadline = 0) := by
  unfold waitForBuffer
  split
  · rename_i hwithheld
    simp [Effect.Keeps, hwithheld, hpoint, owned, bufMgmtOps_balanced]
  · rename_i hwithheld
    dsimp only
    split
    · rename_i hfull
      simp [Effect.Keeps, hfull, hpoint, owned, bufMgmtOps_balanced]
    · rename_i hfull
      split
      · rename_i hdeadline
        simp only [Bool.and_eq_true, bne_iff_ne] at hdeadline
        constructor
        · intro hkeeps
          -- `buf_mgmt.lock` is still held
          exact absurd hkeeps (by simp only [Effect.Keeps, hpoint]; decide)
        · intro h
          exact absurd (h (by simpa using hwithheld) (by simpa using hfull) hdeadline.1) hdeadline.2
      · rename_i hdeadline
        constructor
        · rintro - - - htimed
          simpa [htimed] using hdeadline
        · intro _
          simp only [Effect.Keeps, hpoint]
          decide

theorem dispatch_keeps (hpoint : c.point = .loopHead) (hstate : c.state ≠ .waitForBuffer) :
    (c.dispatch cfg t).Keeps readerLocks := by
  have kept : ∀ c' : RxCall, c'.point = .loopHead →
      (⟨[], c'⟩ : Effect).Keeps readerLocks ∧ (⟨bufMgmtOps, c'⟩ : Effect).Keeps readerLocks := by
    intro c' hc'
    simp only [Effect.Keeps, hc']
    exact ⟨rfl, bufMgmtOps_balanced⟩
  unfold dispatch
  split
  · split
    · exact (kept _ hpoint).1
    · split
      · exact (kept _ hpoint).1
      · exact (kept _ hpoint).1
      · exact (kept _ hpoint).1
  · exact (kept _ hpoint).2
  · split
    · exact (kept _ hpoint).1
    · split
      · exact (kept _ hpoint).1
      · exact (kept _ hpoint).1
  · rename_i h
    exact absurd h hstate
  · exact (kept _ hpoint).2
  · split
    · exact (kept _ hpoint).2
    · exact (kept _ hpoint).2
  · exact (kept _ hpoint).2
  · exact (kept _ hpoint).2

theorem turn_keeps_iff (hpoint : c.point = .loopHead) :
    (c.turn cfg t).Keeps readerLocks ↔
      (dispatches cfg c t = true → aboutToWait cfg c t = true → cfg.timed = true →
        t.waitDeadline = 0) := by
  have snapshot := Lib.lockOps_ite_of_balanced generationOps_balanced (cfg.rx = true)
  unfold turn dispatches
  split
  · rename_i hloop
    simp [Effect.Keeps, hloop, owned, Lib.lockOps]
  · rename_i hloop
    dsimp only
    split
    · rename_i hgeneration
      simp [Effect.Keeps, hgeneration, owned, snapshot]
    · rename_i hgeneration
      split
      · rename_i hdeadline
        simp [Effect.Keeps, hdeadline, owned, snapshot]
      · rename_i hdeadline
        have hkeeps : (⟨(if cfg.rx then generationOps else []) ++ (c.dispatch cfg t).ops,
              (c.dispatch cfg t).next⟩ : Effect).Keeps readerLocks ↔
            (c.dispatch cfg t).Keeps readerLocks := by
          simp only [Effect.Keeps, Lib.lockOps_append, snapshot, Option.bind_some]
        simp only [hloop, hgeneration, hdeadline, Bool.not_false, Bool.and_self, forall_const]
        rw [hkeeps]
        by_cases hstate : c.state = .waitForBuffer
        · have hdispatch : c.dispatch cfg t = c.waitForBuffer cfg t := by
            unfold dispatch
            rw [hstate]
          rw [hdispatch, waitForBuffer_keeps_iff hpoint]
          simp only [aboutToWait, hstate, BEq.rfl, Bool.true_and, Bool.and_eq_true,
            Bool.not_eq_eq_eq_not, Bool.not_true, and_imp]
        · simp [dispatch_keeps hpoint hstate, aboutToWait, hstate]

theorem leave_keeps (cfg : RxCallConfig) (c : RxCall) : (c.leave cfg).Keeps readerLocks := by
  unfold leave
  cases cfg.rx with
  | false =>
      simp only [Effect.Keeps]
      decide
  | true =>
      simp only [Effect.Keeps]
      decide

end RxCall

namespace RxThread

variable {cfg : RxCallConfig} {s s' : RxThread} {a : RxSection}

/-! ## Whole calls -/

theorem start_disciplined (state : SyncState) : (start state).Disciplined :=
  rfl

theorem disciplined_iff_keeps {e : RxCall.Effect} (h : s.Disciplined) :
    Disciplined ⟨e.next, s.held.bind (fun held => Lib.lockOps held e.ops)⟩ ↔
      e.Keeps (owned s.call.point) := by
  unfold Disciplined at h ⊢
  rw [h]
  rfl

theorem step_disciplined_iff (h : s.Disciplined) (hstep : step cfg s a = some s') :
    s'.Disciplined ↔ DeadlineHolds cfg s a := by
  unfold step at hstep
  obtain ⟨e, he, rfl⟩ := Option.map_eq_some_iff.mp hstep
  rw [disciplined_iff_keeps h]
  cases a with
  | enter entry =>
      obtain ⟨hpoint, ⟨⟩⟩ := Option.ite_none_right_eq_some.mp he
      rw [hpoint]
      simp only [DeadlineHolds, iff_true]
      exact RxCall.enter_keeps cfg s.call entry
  | turn t =>
      obtain ⟨hpoint, ⟨⟩⟩ := Option.ite_none_right_eq_some.mp he
      rw [hpoint]
      exact RxCall.turn_keeps_iff hpoint
  | leave =>
      obtain ⟨hpoint, ⟨⟩⟩ := Option.ite_none_right_eq_some.mp he
      rw [hpoint]
      simp only [DeadlineHolds, iff_true]
      exact RxCall.leave_keeps cfg s.call

/-- Along every path through `sync_rx` on which the second read of the deadline
succeeds whenever it is made, the thread owns at the loop head and at `out` the
reader's mutexes and no others, owns none after the return, and no operation on
a mutex was an error.  The first section in which the read fails ends that. -/
theorem syncRx_disciplined (cfg : RxCallConfig) (state : SyncState) (s : RxThread)
    (path : List RxSection)
    (hrun : Lib.Steps (step cfg) (DeadlineHolds cfg) (start state) path s) :
    s.Disciplined ∧
      ∀ (a : RxSection) (s' : RxThread), step cfg s a = some s' →
        (s'.Disciplined ↔ DeadlineHolds cfg s a) := by
  have hs : s.Disciplined := by
    refine hrun.invariant (start_disciplined state) ?_
    intro s₁ a s₂ h₁ hok hstep
    exact (step_disciplined_iff h₁ hstep).mpr hok
  exact ⟨hs, fun a s' hstep => step_disciplined_iff hs hstep⟩

def timedRead : RxCallConfig := ⟨.sc16Q11, true, true, 1024, true⟩

def entered : RxSection := .enter ⟨true, 0, false, false, false, false⟩

/-- A turn of a stream that runs well: the buffer arrives during the wait and
holds the samples asked for. -/
def calmTurn : RxTurn where
  generationChanged := false
  deadline := 0
  streamError := 0
  workerState := .running
  startDeadline := 0
  startStatus := 0
  withheldPending := false
  staleExit := false
  full := false
  waitDeadline := 0
  waitStatus := 0
  fullAfterWait := true
  overrunPending := false
  copied := 1024
  bufferUsed := true
  metaState := .waitForBuffer
  metaStatus := 0
  metaExitEarly := false
  metaCopied := 0
  packetFits := true
  packetLen := 0

/-- The same turn, with the deadline passing between its two reads. -/
def lateTurn : RxTurn := { calmTurn with waitDeadline := -6 }

/-- A read that finds the worker running, waits, copies and returns. -/
def calmPath : List RxSection :=
  [entered] ++ List.replicate 5 (RxSection.turn calmTurn) ++ [RxSection.leave]

/-- A read whose deadline passes between the two reads, up to `out`. -/
def latePath : List RxSection :=
  [entered, .turn calmTurn, .turn lateTurn, .turn calmTurn]

/-- The first read returns its samples with none of the mutexes owned. -/
theorem syncRx_disciplined_calmPath :
    ∃ s : RxThread,
      Lib.exec (step timedRead) (DeadlineHolds timedRead) (start .checkWorker) calmPath = some s ∧
      s.call.point = .returned ∧ s.call.samplesReturned = 1024 ∧ s.Disciplined := by
  have hs : ∃ s : RxThread,
      Lib.exec (step timedRead) (DeadlineHolds timedRead) (start .checkWorker) calmPath = some s ∧
      s.call.point = .returned ∧ s.call.samplesReturned = 1024 :=
    ⟨_, rfl, rfl, rfl⟩
  obtain ⟨s, hexec, hpoint, hsamples⟩ := hs
  exact ⟨s, hexec, hpoint, hsamples,
    (syncRx_disciplined timedRead .checkWorker s calmPath (Lib.Steps.of_exec hexec)).1⟩

/-- The second read reaches `out` with `buf_mgmt.lock` owned, and locks it
again there. -/
theorem late_read_relocks_bufMgmtLock :
    ∃ s s' : RxThread,
      Lib.Steps (step timedRead) (fun _ _ => True) (start .checkWorker) latePath s ∧
      s.call.point = .out ∧ s.held = some {.rxReaderLock, .lock, .bufMgmtLock} ∧
      step timedRead s .leave = some s' ∧ s'.held = none ∧
      ¬s.Disciplined ∧ ¬s'.Disciplined := by
  refine ⟨_, _, Lib.Steps.of_exec rfl, rfl, ?_, rfl, ?_, ?_, ?_⟩
  all_goals decide

end RxThread

end BladeRF
