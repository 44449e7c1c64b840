/-
# `Board.TxReopen` — what has to happen before TX transmits again

After a gate ABORT or a lost transport there may be stale samples in the USB
endpoint and in the FPGA queue.  `bladerf_tx_fault_recover` purges them under
`dev->lock`; a latch of its own, `tx_async_fault_flush_required`, keeps TX
closed until it has committed, and a link START has to follow.

The latch is set in one place, `bladerf2_tx_gate_abort_fail_closed`.  A USB
callback that lost the transport and the ABORT of the fault monitor leave it
as it is.
-/
import BladeRF.Board.GateAbort
import BladeRF.Lib.Since

namespace BladeRF

open TxAdmission GateAbort

/-! ## The recovery coordinator -/

/-- The device calls between `begin` and `commit`. -/
inductive RecoverOp
  | fifoFlushStart
  | fifoFlushWait
  | clearTxEndpointHalt
  | rficReady
  | fifoFlushRelease
  deriving DecidableEq

namespace RecoverOp

/-- In the order of `bladerf2_tx_fault_recovery_run`. -/
def next : RecoverOp → Option RecoverOp
  | .fifoFlushStart => some .fifoFlushWait
  | .fifoFlushWait => some .clearTxEndpointHalt
  | .clearTxEndpointHalt => some .rficReady
  | .rficReady => some .fifoFlushRelease
  | .fifoFlushRelease => none

def before : RecoverOp → List RecoverOp
  | .fifoFlushStart => []
  | .fifoFlushWait => [.fifoFlushStart]
  | .clearTxEndpointHalt => [.fifoFlushStart, .fifoFlushWait]
  | .rficReady => [.fifoFlushStart, .fifoFlushWait, .clearTxEndpointHalt]
  | .fifoFlushRelease => [.fifoFlushStart, .fifoFlushWait, .clearTxEndpointHalt, .rficReady]

def all : List RecoverOp :=
  [.fifoFlushStart, .fifoFlushWait, .clearTxEndpointHalt, .rficReady, .fifoFlushRelease]

theorem before_concat (op : RecoverOp) :
    op.before ++ [op] = (op.next.map before).getD all := by
  cases op <;> rfl

end RecoverOp

/-- Where a caller stands in `bladerf2_tx_fault_recovery_run`. -/
inductive RecoverPc
  | idle
  | draining
  | drained
  /-- `op` is the next device call; `dev->lock` is held -/
  | running (generation : ℕ) (op : RecoverOp)
  | committing (generation : ℕ)
  deriving DecidableEq

inductive RecoverAct
  | drained
  /-- with so many leases held -/
  | begun (leases : ℕ)
  | done (op : RecoverOp)
  | committed
  deriving DecidableEq

inductive ReopenAct (ι : Type*)
  /-- a gate ABORT was issued, or the transport was lost -/
  | fault
  /-- `bladerf2_tx_stream_new_epoch` returned true -/
  | linkStarted
  /-- `bladerf2_tx_async_submit_lease_acquire` returned 0 -/
  | admitted
  | recover (i : ι) (a : RecoverAct)
  deriving DecidableEq

/-! ## The system -/

structure TxReopen (ι : Type*) where
  gate : GateAbort
  /-- the caller of the recovery that holds `dev->lock` -/
  holder : Option ι
  recover : ι → RecoverPc
  log : List (ReopenAct ι)

inductive TxReopenLabel (ι : Type*)
  /-- the parties that abort the gate, and any critical section of others -/
  | gate (l : GateLabel)
  | configurationFence
  | drain (i : ι)
  | drainEnd (i : ι) (status : RetCode)
  | begin (i : ι) (initialized : Bool)
  | device (i : ι) (status : RetCode)
  | commit (i : ι) (now : ℕ)

/-- Labels of a setter, which need `dev->lock` for themselves. -/
def GateLabel.ofSetter : GateLabel → Bool
  | .setterLock | .setterRequest | .setterIssue | .setterReturn _ | .setterClear | .setterFault
  | .setterLatch _ _ _ | .setterUnlock => true
  | _ => false

def GateLabel.commits : GateLabel → Bool
  | .other (.recoverCommit _ _) => true
  | _ => false

namespace TxReopen

variable {ι : Type*} [DecidableEq ι]

def start : TxReopen ι := ⟨.start, none, fun _ => .idle, []⟩

def acts (tx : TxAdmission) : GateLabel → List (ReopenAct ι)
  | .transportFailure _ _ | .passIssue | .setterRequest => [.fault]
  | .other (.newEpoch linkStatus baseline now) =>
      if (tx.streamNewEpoch linkStatus baseline now).2 then [.linkStarted] else []
  | .other (.leaseAcquire generation) =>
      if (tx.asyncSubmitLeaseAcquire generation).2 = .ok then [.admitted] else []
  | _ => []

variable (s : TxReopen ι)

def setPc (i : ι) (pc : RecoverPc) : TxReopen ι :=
  { s with recover := Function.update s.recover i pc }

/-- The caller goes on to `pc`, having achieved `a`. -/
def achieve (i : ι) (pc : RecoverPc) (a : RecoverAct) : TxReopen ι :=
  { s.setPc i pc with log := s.log ++ [ReopenAct.recover i a] }

/-- `dev->lock` is taken, or given back, by a caller of the recovery. -/
def lockDev (i : ι) : TxReopen ι :=
  { s with gate := { s.gate with devLock := .setter }, holder := some i }

def unlockDev : TxReopen ι := { s with gate := { s.gate with devLock := .free }, holder := none }

/-- `_commit`, and the end of the call. -/
def commit (i : ι) (generation now : ℕ) : TxReopen ι :=
  match s.gate.tx.faultRecoverCommit generation now with
  | (tx, .ok) =>
      { s.unlockDev.achieve i .idle .committed with gate := { s.unlockDev.gate with tx := tx } }
  | (_, _) => s.unlockDev.setPc i .idle

def step : TxReopenLabel ι → Option (TxReopen ι)
  | .gate l =>
      if l.commits ∨ l.ofSetter ∧ s.holder.isSome then none
      else (s.gate.step l).map fun gate =>
        { s with gate := gate, log := s.log ++ acts s.gate.tx l }
  | .configurationFence =>
      some { s with gate := { s.gate with tx := s.gate.tx.configurationFence } }
  | .drain i =>
      if s.recover i = .idle then
        some (if s.gate.tx.asyncFaultFlushRequired then s.setPc i .draining else s)
      else none
  | .drainEnd i status =>
      if s.recover i ≠ .draining then none
      else if status ≠ .ok then some (s.setPc i .idle)
      else if s.gate.tx.asyncSubmitLeases = 0 then some (s.achieve i .drained .drained)
      else none
  | .begin i initialized =>
      if s.recover i ≠ .drained ∨ s.gate.devLock ≠ .free then none
      else if !initialized then some (s.setPc i .idle)
      else match s.gate.tx.faultRecoverBegin with
        | .error _ => some (s.setPc i .idle)
        | .ok generation =>
            some ((s.lockDev i).achieve i (.running generation .fifoFlushStart)
              (.begun s.gate.tx.asyncSubmitLeases))
  | .device i status =>
      match s.recover i with
      | .running generation op =>
          some (if status = .ok then
              s.achieve i ((op.next.map (.running generation)).getD (.committing generation))
                (.done op)
            else s.unlockDev.setPc i .idle)
      | _ => none
  | .commit i now =>
      match s.recover i with
      | .committing generation => some (s.commit i generation now)
      | _ => none

end TxReopen

/-! ## What a reopening is owed -/

section
variable {ι : Type*} [DecidableEq ι]

def ReopenAct.of (i : ι) : ReopenAct ι → Option RecoverAct
  | .recover j a => if j = i then some a else none
  | _ => none

def actsOf (i : ι) (log : List (ReopenAct ι)) : List RecoverAct :=
  log.filterMap (ReopenAct.of i)

/-- `run` is what happened between the begin and the commit of a recovery by
`i`, and `past` what happened before: it had drained, nothing went wrong in
between, and every device call was made in its order. -/
structure Recovery (i : ι) (past run : List (ReopenAct ι)) : Prop where
  drained : (actsOf i past).getLast? = some .drained
  ops : actsOf i run = RecoverOp.all.map .done
  quiet : ∀ x ∈ run, x ≠ .fault ∧ x ≠ .admitted

/-- After the last fault a recovery began with no lease held and committed;
`more` is the history since. -/
def RecoveredThen (more : List (ReopenAct ι) → Prop) (log : List (ReopenAct ι)) : Prop :=
  ReopenAct.fault ∈ log → ∃ i past run rest,
    log = past ++ ReopenAct.recover i (.begun 0) :: run ++ ReopenAct.recover i .committed :: rest ∧
      Recovery i past run ∧ ReopenAct.fault ∉ rest ∧ more rest

def Reopened (log : List (ReopenAct ι)) : Prop :=
  RecoveredThen (fun rest => .linkStarted ∈ rest) log

/-- Buffers are admitted only after a complete purge and a START. -/
def AdmitsPurged (log : List (ReopenAct ι)) : Prop :=
  Lib.Appended (fun past x => x = .admitted → Reopened past) log

/-! ### The history as it grows -/

variable {i : ι} {log past run rest : List (ReopenAct ι)} {x : ReopenAct ι}
  {more more' : List (ReopenAct ι) → Prop} {ops : List RecoverOp}

theorem actsOf_concat : actsOf i (log ++ [x]) = actsOf i log ++ (x.of i).toList := by
  simp only [actsOf, List.filterMap_append]
  cases h : x.of i <;> simp [h]

theorem actsOf_concat_none (h : x.of i = none) : actsOf i (log ++ [x]) = actsOf i log := by
  simp [actsOf_concat, h]

theorem actsOf_concat_own {a : RecoverAct} :
    actsOf i (log ++ [ReopenAct.recover i a]) = actsOf i log ++ [a] := by
  simp [actsOf_concat, ReopenAct.of]

theorem RecoveredThen.concat (h : RecoveredThen more log) (hx : x ≠ .fault)
    (hmore : ∀ rest, more rest → more' (rest ++ [x])) : RecoveredThen more' (log ++ [x]) := by
  intro hin
  have hold : ReopenAct.fault ∈ log := by
    rcases List.mem_append.mp hin with hin | hin
    · exact hin
    · exact absurd (List.mem_singleton.mp hin).symm hx
  obtain ⟨i, past, run, rest, rfl, hrec, hrest, hm⟩ := h hold
  refine ⟨i, past, run, rest ++ [x], by simp, hrec, ?_, hmore rest hm⟩
  intro hfault
  rcases List.mem_append.mp hfault with hfault | hfault
  · exact hrest hfault
  · exact hx (List.mem_singleton.mp hfault).symm

/-- A recovery that has come as far as `ops`. -/
def RecoverProgress (i : ι) (log : List (ReopenAct ι)) (ops : List RecoverOp) : Prop :=
  ∃ past run, log = past ++ ReopenAct.recover i (.begun 0) :: run ∧
    (actsOf i past).getLast? = some .drained ∧ actsOf i run = ops.map .done ∧
      ∀ x ∈ run, x ≠ .fault ∧ x ≠ .admitted

theorem RecoverProgress.concat (h : RecoverProgress i log ops) (hof : x.of i = none)
    (hfault : x ≠ .fault) (hnot : x ≠ .admitted) : RecoverProgress i (log ++ [x]) ops := by
  obtain ⟨past, run, rfl, hdrained, hops, hquiet⟩ := h
  refine ⟨past, run ++ [x], by simp, hdrained, ?_, fun y hy => ?_⟩
  · rw [actsOf_concat_none hof, hops]
  · rcases List.mem_append.mp hy with hy | hy
    · exact hquiet y hy
    · exact List.mem_singleton.mp hy ▸ ⟨hfault, hnot⟩

theorem RecoverProgress.begin (h : (actsOf i log).getLast? = some .drained) :
    RecoverProgress i (log ++ [ReopenAct.recover i (.begun 0)]) [] :=
  ⟨log, [], rfl, h, rfl, fun _ hy => by cases hy⟩

theorem RecoverProgress.device (op : RecoverOp) (h : RecoverProgress i log ops) :
    RecoverProgress i (log ++ [ReopenAct.recover i (.done op)]) (ops ++ [op]) := by
  obtain ⟨past, run, rfl, hdrained, hops, hquiet⟩ := h
  refine ⟨past, run ++ [ReopenAct.recover i (.done op)], by simp, hdrained, ?_, fun y hy => ?_⟩
  · rw [actsOf_concat_own, hops, List.map_append]
    rfl
  · rcases List.mem_append.mp hy with hy | hy
    · exact hquiet y hy
    · rw [List.mem_singleton.mp hy]
      exact ⟨nofun, nofun⟩

theorem RecoverProgress.commit (h : RecoverProgress i log RecoverOp.all) :
    RecoveredThen (fun _ => True) (log ++ [ReopenAct.recover i .committed]) := by
  obtain ⟨past, run, rfl, hdrained, hops, hquiet⟩ := h
  exact fun _ => ⟨i, past, run, [], by simp, ⟨hdrained, hops, hquiet⟩, List.not_mem_nil, trivial⟩

def isStart : ReopenAct ι → Bool
  | .linkStarted => true
  | _ => false

theorem reopened_of_started (h : RecoveredThen (fun _ => True) log)
    (hno : ∀ i, .recover i .committed ∉ Lib.since isStart log) : Reopened log := by
  intro hfault
  obtain ⟨i, past, run, rest, rfl, hrec, hrest, -⟩ := h hfault
  refine ⟨i, past, run, rest, rfl, hrec, hrest, ?_⟩
  by_contra hstart
  refine hno i (Lib.mem_since.mpr ⟨past ++ ReopenAct.recover i (.begun 0) :: run, rest, rfl, fun y hy => ?_⟩)
  rcases List.mem_cons.mp hy with rfl | hy
  · rfl
  · cases y with
    | linkStarted => exact absurd hy hstart
    | _ => rfl

end

/-! ## Every fault source sets the latch -/

namespace TxReopen

variable {ι : Type*} [DecidableEq ι] (s : TxReopen ι)

/-- A recovery has committed, and neither a START nor a fault came after it. -/
def AwaitsStart : Prop :=
  s.gate.tx.asyncFaultFlushRequired = false ∧ s.gate.tx.asyncTransportFaulted = false ∧
    ∃ i, .recover i .committed ∈ Lib.since isStart s.log

/-- A fault finds the latch set, and no recovery under way; what reopens the
link without a START does not come in between a recovery and its START. -/
def Guarded : TxReopenLabel ι → Prop
  | .gate (.transportFailure _ _) =>
      s.gate.tx.asyncFaultFlushRequired = true ∧ s.holder = none
  | .gate .passIssue => s.gate.tx.asyncFaultFlushRequired = true
  | .gate (.other (.statusRecovery _ _)) => s.gate.tx.gateAbortPending = true ∨ ¬ s.AwaitsStart
  | .gate (.other (.setFaulted false)) => ¬ s.AwaitsStart
  | _ => True

end TxReopen

/-! ## What the gate parties do to the latches -/

/-- The monitor holds `dev->lock`. -/
def MonitorPc.holds : MonitorPc → Bool
  | .committing _ _ | .aborting _ _ => true
  | _ => false

def TxAdmission.LinkOpen (tx : TxAdmission) : Prop :=
  tx.asyncLinkCertified = true ∧ tx.asyncTransportFaulted = false

def TxSection.opens (tx : TxAdmission) : TxSection → Bool
  | .newEpoch linkStatus baseline now => (tx.streamNewEpoch linkStatus baseline now).2
  | .statusRecovery _ _ => !tx.gateAbortPending
  | .setFaulted faulted => !faulted
  | _ => false

def GateLabel.opens (tx : TxAdmission) : GateLabel → Bool
  | .other c => c.opens tx
  | _ => false

namespace TxSection

variable (tx : TxAdmission) (c : TxSection)

theorem run_latch (h : (GateLabel.other c).commits = false) :
    (c.run tx).asyncFaultFlushRequired = tx.asyncFaultFlushRequired :=
  (run_gate tx c).2 fun _ _ hc => by subst hc; cases h

theorem run_link (h : (c.run tx).LinkOpen) : tx.LinkOpen ∨ c.opens tx = true := by
  obtain ⟨hlink, hfault⟩ := h
  cases c with
  | setFaulted faulted =>
      cases faulted with
      | false => exact .inr rfl
      | true =>
          simp only [run, TxAdmission.streamSetFaulted] at hlink
          split_ifs at hlink <;> simp_all
  | newEpoch linkStatus baseline now =>
      simp only [run, TxAdmission.streamNewEpoch] at hlink hfault
      simp only [opens, TxAdmission.streamNewEpoch]
      split_ifs at hlink hfault ⊢
      · exact .inl ⟨hlink, hfault⟩
      · exact .inr rfl
  | statusRecovery linkStatus now =>
      simp only [run, TxAdmission.statusRecoveryEvent] at hlink hfault
      simp only [opens]
      split_ifs at hlink hfault
      · exact .inl ⟨hlink, hfault⟩
      · exact .inr (by simp_all)
  | streamEvent type lossCount linkStatus errorCode now =>
      simp only [run, TxAdmission.streamEvent] at hlink hfault
      split_ifs at hlink hfault <;> exact .inl ⟨hlink, hfault⟩
  | retuneEvent type requestedHz readbackHz flags errorCode now =>
      simp only [run, TxAdmission.retuneEvent] at hlink hfault
      split_ifs at hlink hfault <;> exact .inl ⟨hlink, hfault⟩
  | retuneFailureDetail scheduledTimestamp requestedHz failureStage errorCode now =>
      simp only [run, TxAdmission.retuneFailureDetailEvent] at hlink hfault
      split_ifs at hlink hfault <;> exact .inl ⟨hlink, hfault⟩
  | leaseAcquire generation =>
      simp only [run, TxAdmission.asyncSubmitLeaseAcquire] at hlink hfault
      split_ifs at hlink hfault <;> exact .inl ⟨hlink, hfault⟩
  | leaseRelease => exact .inl ⟨hlink, hfault⟩
  | recoverCommit generation now =>
      simp only [run, TxAdmission.faultRecoverCommit] at hlink hfault
      split_ifs at hlink hfault
      · exact .inl ⟨hlink, hfault⟩
      · cases hlink
  | retune w => exact .inl ⟨hlink, hfault⟩

end TxSection

namespace GateAbort

variable {g u : GateAbort} {l : GateLabel}

theorem step_lock (h : g.step l = some u) (hm : g.monitor.holds = true → g.devLock = .monitor) :
    (u.monitor.holds = true → u.devLock = .monitor) ∧
      (l.ofSetter = false → g.devLock = .setter → u.devLock = .setter) := by
  cases l <;> simp only [step, act] at h <;>
    (try split at h) <;> cases h <;>
    grind -ring -linarith [MonitorPc.holds, GateLabel.ofSetter, returned]

theorem abortFailed_latch (tx : TxAdmission) (linkStatus : BitVec 32) (errorCode : RetCode)
    (now : ℕ) : (abortFailed tx linkStatus errorCode now).asyncFaultFlushRequired =
      tx.asyncFaultFlushRequired := by
  simp only [abortFailed]
  split
  · exact TxSection.run_latch tx.gateAbortFailed.1
      (.streamEvent .statusUnavailable 0 linkStatus errorCode now) rfl
  · rfl

theorem abortFailed_link {tx : TxAdmission} {linkStatus : BitVec 32} {errorCode : RetCode}
    {now : ℕ} (h : (abortFailed tx linkStatus errorCode now).LinkOpen) : tx.LinkOpen := by
  simp only [abortFailed] at h
  split at h
  · rcases TxSection.run_link tx.gateAbortFailed.1
      (.streamEvent .statusUnavailable 0 linkStatus errorCode now) h with h | h
    · exact h
    · cases h
  · exact h

theorem gateAbortSucceeded_latch (tx : TxAdmission) (generation : ℕ) :
    (tx.gateAbortSucceeded generation).asyncFaultFlushRequired = tx.asyncFaultFlushRequired := by
  simp only [gateAbortSucceeded]
  split <;> rfl

theorem gateAbortSucceeded_link {tx : TxAdmission} {generation : ℕ}
    (h : (tx.gateAbortSucceeded generation).LinkOpen) : tx.LinkOpen := by
  simp only [gateAbortSucceeded] at h
  split at h <;> exact h

theorem returned_tx (ok : Bool) (issued : ℕ) : (g.returned ok issued).tx = g.tx := by
  simp only [returned]
  split_ifs <;> rfl

theorem asyncTransportFailure_latch (tx : TxAdmission) (errorCode : RetCode) (now : ℕ) :
    (tx.asyncTransportFailure errorCode now).asyncFaultFlushRequired =
      tx.asyncFaultFlushRequired := by
  simp only [asyncTransportFailure]
  split <;> rfl

theorem asyncTransportFailure_link {tx : TxAdmission} {errorCode : RetCode} {now : ℕ} :
    ¬ (tx.asyncTransportFailure errorCode now).LinkOpen := by
  rintro ⟨hlink, -⟩
  simp only [asyncTransportFailure] at hlink
  split at hlink <;> cases hlink

theorem step_tx (h : g.step l = some u) :
    (∃ errorCode now, l = .transportFailure errorCode now ∧
      u.tx = g.tx.asyncTransportFailure errorCode now) ∨
    (∃ c, l = .other c ∧ u.tx = c.run g.tx) ∨
    (l = .setterRequest ∧ u.tx = g.tx.gateAbortRequest) ∨
    (∃ generation, u.tx = g.tx.gateAbortSucceeded generation) ∨
    ((l = .passFault ∨ l = .setterFault) ∧ u.tx = g.tx.streamSetFaulted true) ∨
    (∃ linkStatus errorCode now, u.tx = abortFailed g.tx linkStatus errorCode now) ∨
    u.tx = g.tx.gateAbortMark ∨ u.tx = { g.tx with gateAbortPending := true } ∨ u.tx = g.tx := by
  cases l <;> simp only [step, act] at h <;> (try split at h) <;> cases h <;>
    simp [returned_tx]

theorem step_latch (h : g.step l = some u) (hc : l.commits = false)
    (hclear : u.tx.asyncFaultFlushRequired = false) : g.tx.asyncFaultFlushRequired = false := by
  rcases step_tx h with ⟨e, n, -, ht⟩ | ⟨c, rfl, ht⟩ | ⟨-, ht⟩ | ⟨n, ht⟩ | ⟨-, ht⟩ |
    ⟨ls, e, n, ht⟩ | ht | ht | ht <;> rw [ht] at hclear
  · rwa [asyncTransportFailure_latch] at hclear
  · rwa [TxSection.run_latch _ _ hc] at hclear
  · cases hclear
  · rwa [gateAbortSucceeded_latch] at hclear
  · rwa [← TxSection.run_latch g.tx (.setFaulted true) rfl]
  · rwa [abortFailed_latch] at hclear
  · exact hclear
  · exact hclear
  · exact hclear

theorem setterRequest_latch (h : g.step .setterRequest = some u) :
    u.tx.asyncFaultFlushRequired = true := by
  simp only [step, act] at h
  split at h <;> cases h
  rfl

theorem step_link (h : g.step l = some u) (hu : u.tx.LinkOpen) :
    g.tx.LinkOpen ∨ l.opens g.tx = true := by
  rcases step_tx h with ⟨e, n, -, ht⟩ | ⟨c, rfl, ht⟩ | ⟨-, ht⟩ | ⟨n, ht⟩ | ⟨-, ht⟩ |
    ⟨ls, e, n, ht⟩ | ht | ht | ht <;> rw [ht] at hu
  · exact absurd hu asyncTransportFailure_link
  · exact TxSection.run_link g.tx c hu
  · exact .inl hu
  · exact .inl (gateAbortSucceeded_link hu)
  · rcases TxSection.run_link g.tx (.setFaulted true) hu with hu | hu
    · exact .inl hu
    · cases hu
  · exact .inl (abortFailed_link hu)
  · exact .inl hu
  · exact .inl hu
  · exact .inl hu

end GateAbort

/-! ## Every run -/

namespace RecoverPc

/-- The caller holds `dev->lock`. -/
def holds : RecoverPc → Bool
  | .running _ _ | .committing _ => true
  | _ => false

end RecoverPc

namespace TxReopen

variable {ι : Type*} [DecidableEq ι] {s t : TxReopen ι} {i : ι}

def Shown (log : List (ReopenAct ι)) (i : ι) : RecoverPc → Prop
  | .idle | .draining => True
  | .drained => (actsOf i log).getLast? = some .drained
  | .running _ op => RecoverProgress i log op.before
  | .committing _ => RecoverProgress i log RecoverOp.all

structure Inv (s : TxReopen ι) : Prop where
  monitor : s.gate.monitor.holds = true → s.gate.devLock = .monitor
  locked : ∀ i, s.holder = some i → s.gate.devLock = .setter
  holder : ∀ i, (s.recover i).holds = true ↔ s.holder = some i
  latched : ∀ i, s.holder = some i → s.gate.tx.asyncFaultFlushRequired = true
  shown : ∀ i, Shown s.log i (s.recover i)
  recovered : s.gate.tx.asyncFaultFlushRequired = false → RecoveredThen (fun _ => True) s.log
  reopened : s.gate.tx.asyncFaultFlushRequired = false → s.gate.tx.LinkOpen → Reopened s.log
  admits : AdmitsPurged s.log

theorem Shown.concat {log : List (ReopenAct ι)} {x : ReopenAct ι} {pc : RecoverPc}
    (h : Shown log i pc) (hof : x.of i = none) (hpc : pc.holds = true → x ≠ .fault ∧ x ≠ .admitted) :
    Shown (log ++ [x]) i pc := by
  cases pc with
  | idle => trivial
  | draining => trivial
  | drained =>
      simp only [Shown, actsOf_concat_none hof]
      exact h
  | running generation op =>
      obtain ⟨hfault, hnot⟩ := hpc rfl
      exact RecoverProgress.concat h hof hfault hnot
  | committing generation =>
      obtain ⟨hfault, hnot⟩ := hpc rfl
      exact RecoverProgress.concat h hof hfault hnot

omit [DecidableEq ι] in
theorem acts_cases (tx : TxAdmission) (l : GateLabel) :
    acts (ι := ι) tx l = [] ∨
    (acts (ι := ι) tx l = [.fault] ∧
      ((∃ e n, l = .transportFailure e n) ∨ l = .passIssue ∨ l = .setterRequest)) ∨
    (acts (ι := ι) tx l = [.linkStarted] ∧
      ∃ c, l = .other c ∧ (∃ ls b n, c = .newEpoch ls b n) ∧ c.opens tx = true) ∨
    (acts (ι := ι) tx l = [.admitted] ∧
      ∃ generation, l = .other (.leaseAcquire generation) ∧
        (tx.asyncSubmitLeaseAcquire generation).2 = .ok) := by
  cases l with
  | transportFailure e n => exact .inr (.inl ⟨rfl, .inl ⟨e, n, rfl⟩⟩)
  | passIssue => exact .inr (.inl ⟨rfl, .inr (.inl rfl)⟩)
  | setterRequest => exact .inr (.inl ⟨rfl, .inr (.inr rfl)⟩)
  | other c =>
      cases c with
      | newEpoch ls b n =>
          by_cases h : (tx.streamNewEpoch ls b n).2 = true
          · exact .inr (.inr (.inl ⟨by simp [acts, h], _, rfl, ⟨ls, b, n, rfl⟩, h⟩))
          · exact .inl (by simp [acts, h])
      | leaseAcquire generation =>
          by_cases h : (tx.asyncSubmitLeaseAcquire generation).2 = .ok
          · exact .inr (.inr (.inr ⟨by simp [acts, h], generation, rfl, h⟩))
          · exact .inl (by simp [acts, h])
      | _ => exact .inl rfl
  | _ => exact .inl rfl

theorem admitted_open {tx : TxAdmission} {generation : ℕ}
    (h : (tx.asyncSubmitLeaseAcquire generation).2 = .ok) :
    tx.asyncFaultFlushRequired = false ∧ tx.LinkOpen := by
  simp only [asyncSubmitLeaseAcquire] at h
  split at h
  · rename_i hok
    obtain ⟨-, hlatch, hallowed⟩ := hok
    simp only [admissionAllowed, Bool.and_eq_true, Bool.not_eq_true'] at hallowed
    simp only [Bool.not_eq_true'] at hlatch
    exact ⟨hlatch, by tauto⟩
  · cases h

theorem reopens_faulted {tx : TxAdmission} {c : TxSection}
    (hc : (∃ ls n, c = .statusRecovery ls n) ∨ ∃ f, c = .setFaulted f) :
    (c.run tx).asyncTransportFaulted = tx.asyncTransportFaulted := by
  rcases hc with ⟨ls, n, rfl⟩ | ⟨f, rfl⟩
  · simp only [TxSection.run, statusRecoveryEvent]
    split_ifs <;> rfl
  · simp only [TxSection.run, streamSetFaulted]
    split_ifs <;> rfl

namespace Inv

variable {g : GateAbort} {l : GateLabel}

theorem gate_quiet (h : s.Inv) (hi : s.holder = some i) (hok : s.Guarded (.gate l))
    (hsetter : ¬ (l.ofSetter = true ∧ s.holder.isSome = true)) (hs : s.gate.step l = some g)
    {x : ReopenAct ι} (hx : acts s.gate.tx l = [x]) : x ≠ .fault ∧ x ≠ .admitted := by
  have hlatch := h.latched i hi
  have hsome : s.holder.isSome = true := by simp [hi]
  rcases acts_cases (ι := ι) s.gate.tx l with hno | ⟨hfault, hl⟩ | ⟨hstart, -⟩ | ⟨-, n, -, hn⟩
  · rw [hno] at hx
    cases hx
  · exfalso
    rcases hl with ⟨e, n, rfl⟩ | rfl | rfl
    · rw [hok.2] at hi
      cases hi
    · have hlock := h.locked i hi
      simp only [GateAbort.step, GateAbort.act, hlock] at hs
      split at hs
      · rename_i heq
        cases heq
      · cases hs
    · exact hsetter ⟨rfl, hsome⟩
  · rw [hstart] at hx
    cases hx
    constructor
    · intro heq
      cases heq
    · intro heq
      cases heq
  · exfalso
    rw [(admitted_open hn).1] at hlatch
    cases hlatch

omit [DecidableEq ι] in
theorem gate_fault (hok : s.Guarded (.gate l)) (hs : s.gate.step l = some g)
    (hc : l.commits = false) (hx : acts (ι := ι) s.gate.tx l = [.fault]) :
    g.tx.asyncFaultFlushRequired = true := by
  by_contra hclear
  have hclear' : g.tx.asyncFaultFlushRequired = false := by simpa using hclear
  have hold := step_latch hs hc hclear'
  rcases acts_cases (ι := ι) s.gate.tx l with hno | ⟨-, hl⟩ | ⟨hstart, -⟩ | ⟨hnot, -⟩
  · rw [hno] at hx
    cases hx
  · rcases hl with ⟨e, n, rfl⟩ | rfl | rfl
    · exact absurd (hold.symm.trans hok.1) (by decide)
    · exact absurd (hold.symm.trans hok) (by decide)
    · exact hclear (setterRequest_latch hs)
  · rw [hstart] at hx
    cases hx
  · rw [hnot] at hx
    cases hx

theorem gate_opened (h : s.Inv) (hok : s.Guarded (.gate l)) (hs : s.gate.step l = some g)
    (hold : s.gate.tx.asyncFaultFlushRequired = false) (hopen : g.tx.LinkOpen) :
    Reopened (s.log ++ acts s.gate.tx l) ∨ acts (ι := ι) s.gate.tx l = [.fault] := by
  have hrecovered := h.recovered hold
  have hquiet : s.gate.tx.LinkOpen ∨ ¬ s.AwaitsStart ∧ s.gate.tx.asyncTransportFaulted = false →
      Reopened s.log := by
    rintro (hl | ⟨hno, hfault⟩)
    · exact h.reopened hold hl
    · refine reopened_of_started hrecovered fun i hi => ?_
      exact hno ⟨hold, hfault, i, hi⟩
  have hkeep : Reopened s.log → acts (ι := ι) s.gate.tx l ≠ [.fault] →
      Reopened (s.log ++ acts s.gate.tx l) := by
    intro hre hne
    rcases acts_cases (ι := ι) s.gate.tx l with hx | ⟨hx, -⟩ | ⟨hx, -⟩ | ⟨hx, -⟩ <;> rw [hx]
    · rwa [List.append_nil]
    · exact absurd hx hne
    · exact hre.concat nofun fun rest hrest => List.mem_append_left _ hrest
    · exact hre.concat nofun fun rest hrest => List.mem_append_left _ hrest
  by_cases hne : acts (ι := ι) s.gate.tx l = [.fault]
  · exact .inr hne
  left
  rcases step_link hs hopen with hl | hl
  · exact hkeep (hquiet (.inl hl)) hne
  · cases l with
    | other c =>
        simp only [GateAbort.step, GateAbort.act, Option.some.injEq] at hs
        subst hs
        cases c with
        | newEpoch ls b n =>
            have hx : acts (ι := ι) s.gate.tx (.other (.newEpoch ls b n)) = [.linkStarted] :=
              if_pos hl
            rw [hx]
            exact hrecovered.concat nofun fun rest _ =>
              List.mem_append_right rest (List.mem_singleton_self _)
        | statusRecovery ls n =>
            refine hkeep (hquiet (.inr ⟨?_, ?_⟩)) hne
            · rcases hok with hpend | hno
              · simp only [GateLabel.opens, TxSection.opens, hpend] at hl
                cases hl
              · exact hno
            · exact (reopens_faulted (.inl ⟨ls, n, rfl⟩)).symm.trans hopen.2
        | setFaulted faulted =>
            cases faulted with
            | true => cases hl
            | false =>
                refine hkeep (hquiet (.inr ⟨hok, ?_⟩)) hne
                exact (reopens_faulted (.inr ⟨false, rfl⟩)).symm.trans hopen.2
        | _ => cases hl
    | _ => cases hl

theorem gate (h : s.Inv) (hok : s.Guarded (.gate l)) (hs : step s (.gate l) = some t) : t.Inv := by
  obtain ⟨hno, hs⟩ := Option.ite_none_left_eq_some.mp hs
  obtain ⟨g, hg, rfl⟩ := Option.map_eq_some_iff.mp hs
  obtain ⟨hcommit, hsetter⟩ := not_or.mp hno
  have hc : l.commits = false := by simpa using hcommit
  obtain ⟨hmonitor, hlock⟩ := step_lock hg h.monitor
  refine ⟨hmonitor, fun i hi => ?_, h.holder, fun i hi => ?_, fun i => ?_, fun hclear => ?_,
    fun hclear hopen => ?_, ?_⟩
  · refine hlock ?_ (h.locked i hi)
    by_contra hof
    change s.holder = some i at hi
    exact hsetter ⟨by simpa using hof, by simp [hi]⟩
  · by_contra hclear
    exact absurd ((step_latch hg hc (by simpa using hclear)).symm.trans (h.latched i hi))
      (by decide)
  · have hold := h.shown i
    rcases acts_cases (ι := ι) s.gate.tx l with hx | ⟨hx, -⟩ | ⟨hx, -⟩ | ⟨hx, -⟩ <;>
      simp only [hx, List.append_nil]
    · exact hold
    all_goals exact Shown.concat hold rfl fun hpc =>
      h.gate_quiet ((h.holder i).mp hpc) hok hsetter hg hx
  · have hold := h.recovered (step_latch hg hc hclear)
    rcases acts_cases (ι := ι) s.gate.tx l with hx | ⟨hx, -⟩ | ⟨hx, -⟩ | ⟨hx, -⟩ <;>
      simp only [hx, List.append_nil]
    · exact hold
    · exact absurd ((gate_fault hok hg hc hx).symm.trans hclear) (by decide)
    · exact hold.concat nofun fun _ _ => trivial
    · exact hold.concat nofun fun _ _ => trivial
  · rcases h.gate_opened hok hg (step_latch hg hc hclear) hopen with hre | hx
    · exact hre
    · exact absurd ((gate_fault hok hg hc hx).symm.trans hclear) (by decide)
  · rcases acts_cases (ι := ι) s.gate.tx l with hx | ⟨hx, -⟩ | ⟨hx, -⟩ | ⟨hx, n, -, hn⟩ <;>
      simp only [hx, List.append_nil]
    · exact h.admits
    · exact Lib.appended_concat.mpr ⟨h.admits, nofun⟩
    · exact Lib.appended_concat.mpr ⟨h.admits, nofun⟩
    · obtain ⟨hlatch, hlink⟩ := admitted_open hn
      exact Lib.appended_concat.mpr ⟨h.admits, fun _ => h.reopened hlatch hlink⟩

theorem setPc {pc : RecoverPc} (h : s.Inv) (hheld : pc.holds = (s.recover i).holds)
    (hshown : Shown s.log i pc) : (s.setPc i pc).Inv := by
  refine ⟨h.monitor, h.locked, fun j => ?_, h.latched, fun j => ?_, h.recovered, h.reopened,
    h.admits⟩ <;> rcases eq_or_ne j i with rfl | hj
  · simpa [TxReopen.setPc, hheld] using h.holder j
  · simpa [TxReopen.setPc, hj] using h.holder j
  · simpa [TxReopen.setPc] using hshown
  · simpa [TxReopen.setPc, hj] using h.shown j

theorem achieve {pc : RecoverPc} {a : RecoverAct} (h : s.Inv)
    (hheld : pc.holds = (s.recover i).holds) (hshown : Shown (s.log ++ [ReopenAct.recover i a]) i pc) :
    (s.achieve i pc a).Inv := by
  refine ⟨h.monitor, h.locked, fun j => ?_, h.latched, fun j => ?_,
    fun hc => (h.recovered hc).concat nofun fun _ _ => trivial,
    fun hc ho => (h.reopened hc ho).concat nofun fun rest hr => List.mem_append_left _ hr,
    Lib.appended_concat.mpr ⟨h.admits, nofun⟩⟩ <;> rcases eq_or_ne j i with rfl | hj
  · simpa [TxReopen.achieve, TxReopen.setPc, hheld] using h.holder j
  · simpa [TxReopen.achieve, TxReopen.setPc, hj] using h.holder j
  · simpa [TxReopen.achieve, TxReopen.setPc] using hshown
  · have hof : ReopenAct.of j (.recover i a) = none := by simp [ReopenAct.of, hj.symm]
    simpa [TxReopen.achieve, TxReopen.setPc, hj] using
      Shown.concat (h.shown j) hof fun _ => ⟨nofun, nofun⟩

theorem release (h : s.Inv) (hi : s.holder = some i) : (s.unlockDev.setPc i .idle).Inv := by
  have hmonitor : s.gate.monitor.holds = false := by
    by_contra hm
    have hlock := h.monitor (by simpa using hm)
    rw [h.locked i hi] at hlock
    cases hlock
  refine ⟨fun hm => absurd (hmonitor.symm.trans hm) (by decide), nofun, fun j => ?_, nofun,
    fun j => ?_, h.recovered, h.reopened, h.admits⟩ <;> rcases eq_or_ne j i with rfl | hj
  · simp [TxReopen.setPc, unlockDev, RecoverPc.holds]
  · have hother : (s.recover j).holds = false := by
      by_contra hh
      have hj' := (h.holder j).mp (by simpa using hh)
      rw [hi] at hj'
      cases hj'
      exact hj rfl
    simp [TxReopen.setPc, unlockDev, hj, hother]
  · simp [TxReopen.setPc, Shown]
  · simpa [TxReopen.setPc, unlockDev, hj] using h.shown j

theorem begin {generation : ℕ} (h : s.Inv) (hpc : s.recover i = .drained)
    (hfree : s.gate.devLock = .free) (hlatch : s.gate.tx.asyncFaultFlushRequired = true)
    (hleases : s.gate.tx.asyncSubmitLeases = 0) :
    ((s.lockDev i).achieve i (.running generation .fifoFlushStart)
      (.begun s.gate.tx.asyncSubmitLeases)).Inv := by
  have hnone : s.holder = none := by
    by_contra hsome
    obtain ⟨j, hj⟩ := Option.ne_none_iff_exists'.mp hsome
    rw [h.locked j hj] at hfree
    cases hfree
  have hmonitor : s.gate.monitor.holds = false := by
    by_contra hm
    rw [h.monitor (by simpa using hm)] at hfree
    cases hfree
  have hdrained : (actsOf i s.log).getLast? = some .drained := by
    have hs := h.shown i
    rwa [hpc] at hs
  refine ⟨fun hm => absurd (hmonitor.symm.trans hm) (by decide), fun _ _ => rfl, fun j => ?_,
    fun _ _ => hlatch, fun j => ?_, fun hc => absurd (hlatch.symm.trans hc) (by decide),
    fun hc => absurd (hlatch.symm.trans hc) (by decide),
    Lib.appended_concat.mpr ⟨h.admits, nofun⟩⟩ <;> rcases eq_or_ne j i with rfl | hj
  · simp [TxReopen.achieve, TxReopen.setPc, lockDev, RecoverPc.holds]
  · have hother : (s.recover j).holds = false := by
      by_contra hh
      have hj' := (h.holder j).mp (by simpa using hh)
      rw [hnone] at hj'
      cases hj'
    simp [TxReopen.achieve, TxReopen.setPc, lockDev, hj, hother, hj.symm]
  · simp only [TxReopen.achieve, TxReopen.setPc, Function.update_self, Shown, hleases]
    exact RecoverProgress.begin hdrained
  · have hof : ReopenAct.of j (.recover i (.begun s.gate.tx.asyncSubmitLeases)) = none := by
      simp [ReopenAct.of, hj.symm]
    simpa [TxReopen.achieve, TxReopen.setPc, lockDev, hj] using
      Shown.concat (h.shown j) hof fun _ => ⟨nofun, nofun⟩

omit [DecidableEq ι] in
theorem commit_closed {tx : TxAdmission} {generation now : ℕ}
    (h : (tx.faultRecoverCommit generation now).2 = .ok) :
    (tx.faultRecoverCommit generation now).1.asyncLinkCertified = false := by
  simp only [faultRecoverCommit] at h ⊢
  split at h
  · cases h
  · rename_i hg
    rw [if_neg hg]
    rfl

theorem commit {generation now : ℕ} (h : s.Inv) (hpc : s.recover i = .committing generation) :
    (s.commit i generation now).Inv := by
  have hi : s.holder = some i := (h.holder i).mp (by simp [hpc, RecoverPc.holds])
  have hprogress : RecoverProgress i s.log RecoverOp.all := by
    have hs := h.shown i
    rwa [hpc] at hs
  have hreleased := h.release hi
  rcases hcommit : s.gate.tx.faultRecoverCommit generation now with ⟨tx, code⟩
  by_cases hcode : code = .ok
  · subst hcode
    have hclosed : ¬ tx.LinkOpen := by
      rintro ⟨hlink, -⟩
      have hlink' : (s.gate.tx.faultRecoverCommit generation now).1.asyncLinkCertified = false :=
        commit_closed (by rw [hcommit])
      rw [hcommit] at hlink'
      exact absurd (hlink'.symm.trans hlink) (by decide)
    obtain ⟨hmonitor, -, hholder, -, hshown, -, -, -⟩ := hreleased
    simp only [TxReopen.commit, hcommit]
    refine ⟨hmonitor, nofun, hholder, nofun, fun j => ?_, fun _ => hprogress.commit,
      fun _ ho => absurd ho hclosed, Lib.appended_concat.mpr ⟨h.admits, nofun⟩⟩
    rcases eq_or_ne j i with rfl | hj
    · simp [TxReopen.achieve, TxReopen.setPc, Shown]
    · have hof : ReopenAct.of j (.recover i .committed) = none := by simp [ReopenAct.of, hj.symm]
      exact Shown.concat (hshown j) hof fun _ => ⟨nofun, nofun⟩
  · have hfailed : s.commit i generation now = s.unlockDev.setPc i .idle := by
      simp only [TxReopen.commit, hcommit]
    rw [hfailed]
    exact hreleased

theorem configurationFence (h : s.Inv) :
    ({ s with gate := { s.gate with tx := s.gate.tx.configurationFence } } : TxReopen ι).Inv :=
  ⟨h.monitor, h.locked, h.holder, h.latched, h.shown, h.recovered,
    fun _ ho => absurd ho.1 (by simp [TxAdmission.configurationFence]), h.admits⟩

theorem step {l : TxReopenLabel ι} (h : s.Inv) (hok : s.Guarded l)
    (hs : TxReopen.step s l = some t) : t.Inv := by
  cases l with
  | gate l => exact h.gate hok hs
  | configurationFence =>
      cases hs
      exact h.configurationFence
  | drain i =>
      obtain ⟨hpc, ⟨⟩⟩ := Option.ite_none_right_eq_some.mp hs
      split
      · exact h.setPc (by simp [hpc, RecoverPc.holds]) trivial
      · exact h
  | drainEnd i status =>
      simp only [TxReopen.step] at hs
      split_ifs at hs with hpc hstatus hleases <;> cases hs
      all_goals have hpc' : s.recover i = .draining := by simpa using hpc
      · exact h.setPc (by simp [hpc', RecoverPc.holds]) trivial
      · exact h.achieve (by simp [hpc', RecoverPc.holds]) (by simp [Shown, actsOf_concat_own])
  | begin i initialized =>
      simp only [TxReopen.step] at hs
      split_ifs at hs with hpc hinit
      all_goals obtain ⟨hpc', hfree⟩ := not_or.mp hpc
      all_goals have hdrained : s.recover i = .drained := by simpa using hpc'
      · cases hs
        exact h.setPc (by simp [hdrained, RecoverPc.holds]) trivial
      · split at hs <;> cases hs
        · exact h.setPc (by simp [hdrained, RecoverPc.holds]) trivial
        · rename_i generation hbegin
          simp only [faultRecoverBegin] at hbegin
          split_ifs at hbegin with hlatch hleases
          exact h.begin hdrained (by simpa using hfree) (by simpa using hlatch)
            (by simpa using hleases)
  | device i status =>
      simp only [TxReopen.step] at hs
      split at hs <;> cases hs
      rename_i generation op hpc
      have hi : s.holder = some i := (h.holder i).mp (by simp [hpc, RecoverPc.holds])
      have hprogress : RecoverProgress i s.log op.before := by
        have hshown := h.shown i
        rwa [hpc] at hshown
      split
      · refine h.achieve ?_ ?_
        · cases op <;> simp [hpc, RecoverPc.holds, RecoverOp.next]
        · have hdone := hprogress.device op
          rw [RecoverOp.before_concat] at hdone
          cases op <;> exact hdone
      · exact h.release hi
  | commit i now =>
      simp only [TxReopen.step] at hs
      split at hs <;> cases hs
      rename_i generation hpc
      exact h.commit hpc

end Inv

theorem inv_start : (start (ι := ι)).Inv :=
  ⟨nofun, nofun, fun _ => ⟨nofun, nofun⟩, nofun, fun _ => trivial, fun _ => nofun, fun _ => nofun,
    Lib.appended_nil⟩

/-- As long as every fault source sets the latch and nothing but a START
reopens the link after a recovery, buffers are admitted only after a complete
purge and a START. -/
theorem admission_needs_purge {ls : List (TxReopenLabel ι)}
    (h : Lib.Steps TxReopen.step Guarded start ls s) : AdmitsPurged s.log := by
  have hinv := h.invariant (P := Inv) inv_start fun ha hok hs => ha.step hok hs
  exact hinv.admits

/-! ### Two runs -/

def settled : TxRetuneWrite := ⟨0, false, false, false, false, false, true, true, 0, false⟩

/-- The RFIC is certified, and a buffer taken at admission generation
`generation` asks for its lease. -/
def certifyAndAdmit (generation : ℕ) : List (TxReopenLabel Unit) :=
  [.gate (.other (.retune settled)), .gate (.other (.streamEvent .rficStateValid 0 0 .ok 4)),
    .gate (.other (.leaseAcquire generation))]

/-- A setter aborts the gate, the queue is purged and the link started. -/
def purgedRun : List (TxReopenLabel Unit) :=
  [TxReopenLabel.gate .setterLock, .gate .setterRequest, .gate .setterIssue, .gate (.setterReturn true),
    .gate .setterClear, .gate .setterUnlock, .drain (), .drainEnd () .ok, .begin () true,
    .device () .ok, .device () .ok, .device () .ok, .device () .ok, .device () .ok, .commit () 1,
    .gate (.other (.newEpoch 0 0 2))] ++ certifyAndAdmit 3

theorem admission_needs_purge_pass :
    ∃ s : TxReopen Unit, .fault ∈ s.log ∧ .admitted ∈ s.log ∧ AdmitsPurged s.log := by
  have hrun : ∃ s : TxReopen Unit, (.fault ∈ s.log ∧ .admitted ∈ s.log) ∧
      Lib.Steps TxReopen.step (fun _ _ => True) start purgedRun s :=
    ⟨_, by decide, .of_exec rfl⟩
  obtain ⟨s, ⟨hfault, hnot⟩, hsteps⟩ := hrun
  refine ⟨s, hfault, hnot, admission_needs_purge (hsteps.of_labels fun l hl a => ?_)⟩
  simp only [purgedRun, certifyAndAdmit, List.cons_append, List.nil_append, List.mem_cons,
    List.not_mem_nil, or_false] at hl
  rcases hl with rfl | rfl | rfl | rfl | rfl | rfl | rfl | rfl | rfl | rfl | rfl | rfl | rfl |
    rfl | rfl | rfl | rfl | rfl | rfl <;> trivial

/-- The transport is lost while TX is open, the monitor aborts the gate, and a
START follows. -/
def unpurgedRun : List (TxReopenLabel Unit) :=
  [TxReopenLabel.gate (.other (.newEpoch 0 0 1)), .gate (.transportFailure .io 2), .gate .passBegin,
    .gate .passEnd, .gate .passMark, .gate .passIssue, .gate (.passReturn true), .gate .passClear,
    .gate (.other (.newEpoch 0 1 3))] ++ certifyAndAdmit 4

theorem admitted_without_purge :
    ∃ s : TxReopen Unit, Lib.Steps TxReopen.step (fun _ _ => True) start unpurgedRun s ∧
      ¬ AdmitsPurged s.log := by
  refine ⟨_, .of_exec rfl, fun h => ?_⟩
  have hlast := h [.linkStarted, .fault, .fault, .linkStarted] .admitted List.prefix_rfl rfl
  obtain ⟨i, past, run, rest, hlog, -⟩ := hlast (by decide)
  have hmem : ReopenAct.recover i .committed ∈
      ([.linkStarted, .fault, .fault, .linkStarted] : List (ReopenAct Unit)) := by
    rw [hlog]
    simp
  simp at hmem

end TxReopen
end BladeRF
