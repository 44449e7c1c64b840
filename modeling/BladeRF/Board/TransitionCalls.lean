/-
# `Board.TransitionCalls` — closing the board under RX transition calls

`bladerf2_rx_transition_waiters_close` asks the transition calls to finish and
sleeps until the last one has left.  It shares `rx_async_epoch_cond` with the
calls that wait for their first host data and with TX submitters that wait for
a certificate, and it wakes them with a signal, not a broadcast.

A signal that reaches a call makes it leave, and leaving signals again: the
signal is a baton.  A thread that has nothing to do for the close drops it.
-/
import BladeRF.Lib.Signal
import BladeRF.Lib.Steps
import BladeRF.Board.TxAdmission

namespace BladeRF

/-! ## The waits -/

/-- The first-host-data part of `struct bladerf2_board_data`, with the
certificate it belongs to. -/
structure HostData where
  /-- `rf_transition_first_host_data_failure`; `ok` is no failure -/
  failure : RetCode
  reported : Bool
  eventTransactionId : ℕ
  eventFirstValid : Bool
  eventHostMonotonicNs : ℕ
  epochCertified : Bool
  certifiedTransactionId : ℕ

def uint64Max : ℕ := 2 ^ 64 - 1

def firstHostDataBeforeDeadline (eventNs deadlineNs : ℕ) : Bool :=
  eventNs ≠ 0 ∧ deadlineNs ≠ 0 ∧ eventNs < deadlineNs

/-- `_deadline_expired`; `none` is a clock that cannot be read. -/
def deadlineExpired (clock : Option ℕ) (deadlineNs : ℕ) : Bool :=
  match clock with
  | none => true
  | some now => deadlineNs ≤ now

/-- One turn of the loop in `_wait_for_first_host_data`: the status it leaves
with, or `none` when it sleeps.  `now` and `clock` are its two clock readings. -/
def hostDataTurn (closeRequested : Bool) (d : HostData) (transactionId deadlineNs now : ℕ)
    (clock : Option ℕ) : Option RetCode :=
  if closeRequested then some .aborted
  else if d.failure ≠ .ok then some d.failure
  else if d.reported ∧ d.eventTransactionId = transactionId ∧ d.eventFirstValid then
    some (if firstHostDataBeforeDeadline d.eventHostMonotonicNs deadlineNs then .ok else .timeout)
  else if !d.epochCertified ∨ d.certifiedTransactionId ≠ transactionId then some .unexpected
  else if now = 0 then some .unexpected
  else if deadlineExpired clock deadlineNs then some .timeout
  else none

/-- `BLADERF2_TX_VALIDITY_TIMEOUT_MS`, in nanoseconds. -/
def txValidityTimeoutNs : ℕ := 20 * 100 * 1000000

/-- One turn of the loop in `bladerf2_tx_wait_for_validity`. -/
def txValidityTurn (tx : TxAdmission) (deadlineNs now : ℕ) : Option RetCode :=
  if tx.asyncFaultFlushRequired then some .wouldBlock
  else if tx.admissionAllowed then some .ok
  else if !tx.rficCertificatePending then some .wouldBlock
  else if now = 0 then some .unexpected
  else if deadlineNs ≤ now then some .timeout
  else none

inductive WaitPc
  | outside
  /-- in the body of a counted transition call -/
  | inside
  /-- in `_wait_for_first_host_data` -/
  | hostData (transactionId deadlineNs : ℕ)
  /-- in `bladerf2_tx_wait_for_validity` -/
  | validity (deadlineNs : ℕ)
  /-- in the loop of `bladerf2_rx_transition_waiters_close` -/
  | closing
  | closed
  deriving DecidableEq

namespace WaitPc

/-- Between `call_enter` and `call_leave`. -/
def inCall : WaitPc → Bool
  | .inside | .hostData _ _ => true
  | _ => false

def awaitsData : WaitPc → Bool
  | .hostData _ _ => true
  | _ => false

def closes : WaitPc → Bool
  | .closing | .closed => true
  | _ => false

def waits : WaitPc → Bool
  | .hostData _ _ | .validity _ | .closing => true
  | _ => false

def timed : WaitPc → Bool
  | .hostData _ deadlineNs => deadlineNs ≠ uint64Max
  | .validity _ => true
  | _ => false

theorem awaitsData_inCall {p : WaitPc} (h : p.awaitsData = true) : p.inCall = true := by
  cases p <;> first | rfl | cases h

end WaitPc

/-! ## The system -/

structure Waiters (ι : Type*) where
  closeRequested : Bool
  callCount : ℕ
  hostData : HostData
  tx : TxAdmission
  pc : ι → WaitPc
  sleeping : Finset ι

inductive WaitLabel (ι : Type*)
  | enter (i : ι)
  | await (i : ι) (transactionId deadlineNs now : ℕ) (clock : Option ℕ)
  | recheck (i : ι) (now : ℕ) (clock : Option ℕ)
  | leave (i : ι) (woken : Option ι)
  | close (i : ι) (woken : Option ι)
  | closeRecheck (i : ι)
  | validate (i : ι) (start now : ℕ)
  | revalidate (i : ι) (now : ℕ)
  | expire (i : ι)
  /-- other functions change what the loops look at, and wake whom they like -/
  | others (hostData : HostData) (tx : TxAdmission) (woken : Finset ι)

def WaitLabel.own {ι : Type*} : WaitLabel ι → Bool
  | .others _ _ _ => false
  | _ => true

namespace Waiters

variable {ι : Type*} [DecidableEq ι]

def start (d : HostData) (tx : TxAdmission) : Waiters ι :=
  ⟨false, 0, d, tx, fun _ => .outside, ∅⟩

def setPc (w : Waiters ι) (i : ι) (p : WaitPc) : Waiters ι :=
  { w with pc := Function.update w.pc i p }

/-- The thread goes to sleep at `p`. -/
def sleepAt (w : Waiters ι) (i : ι) (p : WaitPc) : Waiters ι :=
  { w.setPc i p with sleeping := insert i w.sleeping }

/-- What `bladerf2_rx_transition_call_enter` returns. -/
def callEnter (w : Waiters ι) : RetCode := if w.closeRequested then .aborted else .ok

/-- The signal of a critical section, which wakes `woken`. -/
def signal (w : Waiters ι) (woken : Option ι) : Option (Waiters ι) :=
  (Lib.signal w.sleeping woken).map fun sleeping => { w with sleeping := sleeping }

/-- One turn of `_wait_for_first_host_data`. -/
def awaitTurn (w : Waiters ι) (i : ι) (transactionId deadlineNs now : ℕ) (clock : Option ℕ) :
    Waiters ι :=
  match hostDataTurn w.closeRequested w.hostData transactionId deadlineNs now clock with
  | some _ => w.setPc i .inside
  | none => w.sleepAt i (.hostData transactionId deadlineNs)

/-- One turn of `bladerf2_tx_wait_for_validity`. -/
def validityTurn (w : Waiters ι) (i : ι) (deadlineNs now : ℕ) : Waiters ι :=
  match txValidityTurn w.tx deadlineNs now with
  | some _ => w.setPc i .outside
  | none => w.sleepAt i (.validity deadlineNs)

/-- One turn of the loop in `bladerf2_rx_transition_waiters_close`. -/
def closeTurn (w : Waiters ι) (i : ι) : Waiters ι :=
  if w.callCount ≠ 0 then w.sleepAt i .closing else w.setPc i .closed

/-- `bladerf2_rx_transition_call_leave`, before its signal. -/
def left (w : Waiters ι) (i : ι) : Waiters ι :=
  { w.setPc i .outside with callCount := w.callCount - 1 }

/-- `bladerf2_rx_transition_waiters_close`, before its signal. -/
def requested (w : Waiters ι) : Waiters ι := { w with closeRequested := true }

def step (w : Waiters ι) : WaitLabel ι → Option (Waiters ι)
  | .enter i =>
      if w.pc i = .outside then
        some (if w.callEnter = .ok then { w.setPc i .inside with callCount := w.callCount + 1 }
          else w)
      else none
  | .await i transactionId deadlineNs now clock =>
      if w.pc i = .inside then some (w.awaitTurn i transactionId deadlineNs now clock) else none
  | .recheck i now clock =>
      match w.pc i with
      | .hostData transactionId deadlineNs =>
          if i ∈ w.sleeping then none else some (w.awaitTurn i transactionId deadlineNs now clock)
      | _ => none
  | .leave i woken => if w.pc i = .inside then (w.left i).signal woken else none
  | .close i woken =>
      if w.pc i = .outside then (w.requested.signal woken).map (closeTurn · i) else none
  | .closeRecheck i =>
      if w.pc i = .closing ∧ i ∉ w.sleeping then some (w.closeTurn i) else none
  | .validate i start now =>
      if w.pc i = .outside then
        some (if start = 0 then w else w.validityTurn i (start + txValidityTimeoutNs) now)
      else none
  | .revalidate i now =>
      match w.pc i with
      | .validity deadlineNs =>
          if i ∈ w.sleeping then none else some (w.validityTurn i deadlineNs now)
      | _ => none
  | .expire i =>
      if i ∈ w.sleeping ∧ (w.pc i).timed then some { w with sleeping := w.sleeping.erase i }
      else none
  | .others hostData tx woken =>
      some { w with
        hostData := hostData
        tx := tx
        sleeping := w.sleeping \ woken }

/-! ## What a close is owed -/

def Satisfied (w : Waiters ι) (i : ι) : Prop :=
  w.closeRequested = true ∧ (w.pc i = .closing ∧ w.callCount = 0 ∨ (w.pc i).awaitsData = true)

/-- The caller's part: `bladerf_close` frees the device, so it is called once. -/
def ClosedOnce (w : Waiters ι) : WaitLabel ι → Prop
  | .close _ _ => w.closeRequested = false
  | _ => True

instance (w : Waiters ι) (l : WaitLabel ι) : Decidable (w.ClosedOnce l) := by
  unfold ClosedOnce
  split <;> infer_instance

/-- Some thread sleeps for nothing, and no step of the operations will ever
wake it. -/
def Stuck (w : Waiters ι) : Prop :=
  ∃ i ∈ w.sleeping, w.Satisfied i ∧
    ∀ ls t, Lib.Steps step (fun w l => l.own = true ∧ w.ClosedOnce l) w ls t → i ∈ t.sleeping

/-- After the close has returned nobody is inside and nobody gets in. -/
def Quiet (w : Waiters ι) : Prop :=
  ∀ i, w.pc i = .closed → w.callEnter = .aborted ∧ ∀ j, (w.pc j).inCall = false

/-- A signal of the close, or of a call that leaves after it, goes to a thread
with nothing left to wait for, if one sleeps. -/
def Baton (w : Waiters ι) (woken : Option ι) : Prop :=
  ∀ i ∈ w.sleeping, w.Satisfied i → ∃ k, woken = some k ∧ w.Satisfied k

def PassesBaton (w : Waiters ι) : WaitLabel ι → Prop
  | .leave i woken => (w.left i).Baton woken
  | .close _ woken => w.requested.Baton woken
  | _ => True

/-! ## What holds while the baton is passed -/

def Counted (w : Waiters ι) : Prop :=
  ∃ calls : Finset ι, calls.card = w.callCount ∧ ∀ i, i ∈ calls ↔ (w.pc i).inCall = true

variable {w : Waiters ι} {i : ι} {d n : ℕ}

omit [DecidableEq ι] in
theorem Counted.ne_zero (h : w.Counted) (hi : (w.pc i).inCall = true) :
    w.callCount ≠ 0 := by
  obtain ⟨calls, hcard, hmem⟩ := h
  intro h0
  have hempty : calls = ∅ := Finset.card_eq_zero.mp (hcard.trans h0)
  have hin : i ∈ calls := (hmem i).mpr hi
  simp [hempty] at hin

omit [DecidableEq ι] in
theorem Counted.nobody (h : w.Counted) (h0 : w.callCount = 0) (i : ι) :
    (w.pc i).inCall = false := by
  by_contra hi
  exact h.ne_zero (i := i) (by simpa using hi) h0

theorem Counted.setPc {p : WaitPc} (h : w.Counted)
    (hp : p.inCall = (w.pc i).inCall) : (w.setPc i p).Counted := by
  obtain ⟨calls, hcard, hmem⟩ := h
  refine ⟨calls, hcard, fun j => ?_⟩
  rcases eq_or_ne j i with rfl | hj
  · simp [Waiters.setPc, hp, hmem j]
  · simp [Waiters.setPc, hj, hmem j]

theorem Counted.entered (h : w.Counted) (hi : w.pc i = .outside) :
    ({ w.setPc i .inside with callCount := w.callCount + 1 } : Waiters ι).Counted := by
  obtain ⟨calls, hcard, hmem⟩ := h
  have hnot : i ∉ calls := fun hin => by simpa [hi, WaitPc.inCall] using (hmem i).mp hin
  refine ⟨insert i calls, by simp [hnot, hcard], fun j => ?_⟩
  rcases eq_or_ne j i with rfl | hj
  · simp [Waiters.setPc, WaitPc.inCall]
  · simp [Waiters.setPc, hj, hmem j]

theorem Counted.left (h : w.Counted) (hi : w.pc i = .inside) :
    (w.left i).Counted := by
  obtain ⟨calls, hcard, hmem⟩ := h
  have hin : i ∈ calls := (hmem i).mpr (by simp [hi, WaitPc.inCall])
  refine ⟨calls.erase i, by simp [Waiters.left, hin, hcard], fun j => ?_⟩
  rcases eq_or_ne j i with rfl | hj
  · simp [Waiters.left, Waiters.setPc, WaitPc.inCall]
  · simp [Waiters.left, Waiters.setPc, hj, hmem j]

structure Sound (w : Waiters ι) : Prop where
  counted : w.Counted
  sleeps : ∀ i ∈ w.sleeping, (w.pc i).waits = true
  requested : ∀ i, (w.pc i).closes = true → w.closeRequested = true
  closed : ∀ i, w.pc i = .closed → w.callCount = 0

def OneClose (w : Waiters ι) : Prop :=
  ∀ i j, (w.pc i).closes = true → (w.pc j).closes = true → i = j

structure Carried (w : Waiters ι) : Prop where
  /-- a close that sleeps has somebody to wait for -/
  closing : ∀ i ∈ w.sleeping, w.pc i = .closing → w.callCount ≠ 0
  /-- some call that is awake holds the baton for those asleep -/
  holder : w.closeRequested = true → ∀ i ∈ w.sleeping, (w.pc i).awaitsData = true →
    ∃ j, (w.pc j).inCall = true ∧ j ∉ w.sleeping

variable {w v : Waiters ι} {i : ι} {p : WaitPc}

omit [DecidableEq ι] in
theorem Sound.awake (h : w.Sound) (hi : (w.pc i).waits = false) : i ∉ w.sleeping :=
  fun hin => by simpa [hi] using h.sleeps i hin

theorem Sound.setPc (h : w.Sound) (hawake : i ∉ w.sleeping) (hp : p.inCall = (w.pc i).inCall)
    (hc : p.closes = false) : (w.setPc i p).Sound := by
  obtain ⟨hcount, hsleeps, hreq, hclosed⟩ := h
  have hne : p ≠ .closed := by rintro rfl; cases hc
  refine ⟨hcount.setPc hp, ?_, ?_, ?_⟩ <;>
    simp only [Waiters.setPc, Function.update_apply] <;> grind -ring -linarith

theorem Sound.sleepAt (h : w.Sound) (hp : p.inCall = (w.pc i).inCall) (hw : p.waits = true)
    (hc : p.closes = false) : (w.sleepAt i p).Sound := by
  obtain ⟨hcount, hsleeps, hreq, hclosed⟩ := h
  have hne : p ≠ .closed := by rintro rfl; cases hc
  refine ⟨hcount.setPc hp, ?_, ?_, ?_⟩ <;>
    simp only [Waiters.sleepAt, Waiters.setPc, Function.update_apply] <;> grind -ring -linarith

omit [DecidableEq ι] in
theorem Sound.wake {sleeping : Finset ι} {d : HostData} {t : TxAdmission} (h : w.Sound)
    (hsub : sleeping ⊆ w.sleeping) :
    ({ w with hostData := d, tx := t, sleeping := sleeping } : Waiters ι).Sound :=
  ⟨h.counted, fun j hj => h.sleeps j (hsub hj), h.requested, h.closed⟩

theorem Sound.signal {woken : Option ι} (h : w.Sound) (hs : w.signal woken = some v) :
    v.Sound := by
  obtain ⟨t, ht, rfl⟩ := Option.map_eq_some_iff.mp hs
  exact h.wake (d := w.hostData) (t := w.tx) fun j hj => ((Lib.mem_signal ht).mp hj).1

theorem Sound.awaitTurn {x : ℕ} {c : Option ℕ} (h : w.Sound) (hawake : i ∉ w.sleeping)
    (hi : (w.pc i).inCall = true) : (w.awaitTurn i x d n c).Sound := by
  simp only [Waiters.awaitTurn]
  split
  · exact h.setPc hawake hi.symm rfl
  · exact h.sleepAt hi.symm rfl rfl

theorem Sound.validityTurn (h : w.Sound) (hawake : i ∉ w.sleeping)
    (hi : (w.pc i).inCall = false) : (w.validityTurn i d n).Sound := by
  simp only [Waiters.validityTurn]
  split
  · exact h.setPc hawake hi.symm rfl
  · exact h.sleepAt hi.symm rfl rfl

theorem Sound.closeTurn (h : w.Sound) (hreq : w.closeRequested = true) (hawake : i ∉ w.sleeping)
    (hi : (w.pc i).inCall = false) : (w.closeTurn i).Sound := by
  obtain ⟨hcount, hsleeps, -, hclosed⟩ := h
  simp only [Waiters.closeTurn]
  split
  · refine ⟨hcount.setPc hi.symm, ?_, fun _ _ => hreq, ?_⟩ <;>
      simp only [Waiters.sleepAt, Waiters.setPc, Function.update_apply] <;> grind -ring -linarith [WaitPc.waits]
  · rename_i h0
    have hzero : w.callCount = 0 := by simpa using h0
    refine ⟨hcount.setPc hi.symm, fun j hj => ?_, fun _ _ => hreq, fun _ _ => hzero⟩
    have hne : j ≠ i := fun heq => hawake (heq ▸ hj)
    simpa [Waiters.setPc, hne] using hsleeps j hj

theorem Sound.entered (h : w.Sound) (hreq : w.closeRequested = false) (hi : w.pc i = .outside) :
    ({ w.setPc i .inside with callCount := w.callCount + 1 } : Waiters ι).Sound := by
  have hnone : ∀ j, (w.pc j).closes = false := fun j => by
    by_contra hj
    simp [h.requested j (by simpa using hj)] at hreq
  refine ⟨h.counted.entered hi, ?_, ?_, ?_⟩ <;>
    simp only [Waiters.setPc, Function.update_apply] <;> grind -ring -linarith [Sound, WaitPc.closes, WaitPc.waits]

theorem Sound.left (h : w.Sound) (hi : w.pc i = .inside) : (w.left i).Sound := by
  have hawake := h.awake (i := i) (by simp [hi, WaitPc.waits])
  refine ⟨h.counted.left hi, ?_, ?_, ?_⟩ <;>
    simp only [Waiters.left, Waiters.setPc, Function.update_apply] <;> grind -ring -linarith [Sound, WaitPc.closes]

omit [DecidableEq ι] in
theorem Sound.close (h : w.Sound) : w.requested.Sound :=
  ⟨h.counted, h.sleeps, fun _ _ => rfl, h.closed⟩

omit [DecidableEq ι] in
theorem Sound.nobodyCloses (h : w.Sound) (hreq : w.closeRequested = false) (j : ι) :
    (w.pc j).closes = false := by
  by_contra hj
  simp [h.requested j (by simpa using hj)] at hreq

theorem signal_eq {woken : Option ι} (hs : w.signal woken = some v) :
    ∃ t, Lib.signal w.sleeping woken = some t ∧ v = { w with sleeping := t } := by
  obtain ⟨t, ht, rfl⟩ := Option.map_eq_some_iff.mp hs
  exact ⟨t, ht, rfl⟩

theorem Sound.step {l : WaitLabel ι} (h : w.Sound) (hs : Waiters.step w l = some v) :
    v.Sound := by
  cases l with
  | enter i =>
      obtain ⟨hi, ⟨⟩⟩ := Option.ite_none_right_eq_some.mp hs
      split
      · rename_i hok
        exact h.entered (by simpa [callEnter] using hok) hi
      · exact h
  | await i x d n c =>
      obtain ⟨hi, ⟨⟩⟩ := Option.ite_none_right_eq_some.mp hs
      exact h.awaitTurn (h.awake (by simp [hi, WaitPc.waits])) (by simp [hi, WaitPc.inCall])
  | recheck i n c =>
      simp only [Waiters.step] at hs
      split at hs
      · rename_i x d hi
        obtain ⟨hawake, ⟨⟩⟩ := Option.ite_none_left_eq_some.mp hs
        exact h.awaitTurn hawake (by simp [hi, WaitPc.inCall])
      · cases hs
  | leave i woken =>
      obtain ⟨hi, hs⟩ := Option.ite_none_right_eq_some.mp hs
      exact (h.left hi).signal hs
  | close i woken =>
      obtain ⟨hi, hs⟩ := Option.ite_none_right_eq_some.mp hs
      obtain ⟨u, hu, rfl⟩ := Option.map_eq_some_iff.mp hs
      have hu' := h.close.signal hu
      obtain ⟨t, -, rfl⟩ := signal_eq hu
      have hw : (w.pc i).waits = false := by simp [hi, WaitPc.waits]
      have hin : (w.pc i).inCall = false := by simp [hi, WaitPc.inCall]
      exact hu'.closeTurn rfl (hu'.awake hw) hin
  | closeRecheck i =>
      obtain ⟨⟨hi, hawake⟩, ⟨⟩⟩ := Option.ite_none_right_eq_some.mp hs
      have hcl : (w.pc i).closes = true := by simp [hi, WaitPc.closes]
      exact h.closeTurn (h.requested i hcl) hawake (by simp [hi, WaitPc.inCall])
  | validate i start n =>
      obtain ⟨hi, ⟨⟩⟩ := Option.ite_none_right_eq_some.mp hs
      split
      · exact h
      · exact h.validityTurn (h.awake (by simp [hi, WaitPc.waits])) (by simp [hi, WaitPc.inCall])
  | revalidate i n =>
      simp only [Waiters.step] at hs
      split at hs
      · rename_i d hi
        obtain ⟨hawake, ⟨⟩⟩ := Option.ite_none_left_eq_some.mp hs
        exact h.validityTurn hawake (by simp [hi, WaitPc.inCall])
      · cases hs
  | expire i =>
      obtain ⟨-, ⟨⟩⟩ := Option.ite_none_right_eq_some.mp hs
      exact h.wake (d := w.hostData) (t := w.tx) (Finset.erase_subset i w.sleeping)
  | others d tx woken =>
      cases hs
      exact h.wake Finset.sdiff_subset

/-! ## One close -/

theorem setPc_closes {j : ι} (hp : p.closes = false)
    (hj : ((w.setPc i p).pc j).closes = true) : (w.pc j).closes = true := by
  rcases eq_or_ne j i with rfl | hne
  · simp [Waiters.setPc, hp] at hj
  · simpa [Waiters.setPc, hne] using hj

theorem awaitTurn_closes {x : ℕ} {c : Option ℕ} {j : ι}
    (hj : ((w.awaitTurn i x d n c).pc j).closes = true) : (w.pc j).closes = true := by
  simp only [Waiters.awaitTurn] at hj
  split at hj
  · exact setPc_closes rfl hj
  · exact setPc_closes (p := .hostData x d) rfl hj

theorem validityTurn_closes {j : ι} (hj : ((w.validityTurn i d n).pc j).closes = true) :
    (w.pc j).closes = true := by
  simp only [Waiters.validityTurn] at hj
  split at hj
  · exact setPc_closes rfl hj
  · exact setPc_closes (p := .validity d) rfl hj

theorem closeTurn_closes {j : ι} (hj : ((w.closeTurn i).pc j).closes = true) :
    j = i ∨ (w.pc j).closes = true := by
  by_cases hne : j = i
  · exact .inl hne
  · refine .inr ?_
    simp only [Waiters.closeTurn] at hj
    split at hj <;> simpa [Waiters.sleepAt, Waiters.setPc, hne] using hj

theorem step_closes {l : WaitLabel ι} {j : ι} (hs : Waiters.step w l = some v)
    (hj : (v.pc j).closes = true) : (w.pc j).closes = true ∨ ∃ woken, l = .close j woken := by
  cases l with
  | enter i =>
      obtain ⟨-, ⟨⟩⟩ := Option.ite_none_right_eq_some.mp hs
      split at hj
      · exact .inl (setPc_closes (p := .inside) rfl hj)
      · exact .inl hj
  | await i x d n c =>
      obtain ⟨-, ⟨⟩⟩ := Option.ite_none_right_eq_some.mp hs
      exact .inl (awaitTurn_closes hj)
  | recheck i n c =>
      simp only [Waiters.step] at hs
      split at hs
      · obtain ⟨-, ⟨⟩⟩ := Option.ite_none_left_eq_some.mp hs
        exact .inl (awaitTurn_closes hj)
      · cases hs
  | leave i woken =>
      obtain ⟨-, hs⟩ := Option.ite_none_right_eq_some.mp hs
      obtain ⟨t, -, rfl⟩ := signal_eq hs
      exact .inl (setPc_closes (p := .outside) rfl hj)
  | close i woken =>
      obtain ⟨-, hs⟩ := Option.ite_none_right_eq_some.mp hs
      obtain ⟨u, hu, rfl⟩ := Option.map_eq_some_iff.mp hs
      obtain ⟨t, -, rfl⟩ := signal_eq hu
      rcases closeTurn_closes hj with rfl | hj
      · exact .inr ⟨woken, rfl⟩
      · exact .inl hj
  | closeRecheck i =>
      obtain ⟨⟨hi, -⟩, ⟨⟩⟩ := Option.ite_none_right_eq_some.mp hs
      rcases closeTurn_closes hj with rfl | hj
      · exact .inl (by simp [hi, WaitPc.closes])
      · exact .inl hj
  | validate i start n =>
      obtain ⟨-, ⟨⟩⟩ := Option.ite_none_right_eq_some.mp hs
      split at hj
      · exact .inl hj
      · exact .inl (validityTurn_closes hj)
  | revalidate i n =>
      simp only [Waiters.step] at hs
      split at hs
      · obtain ⟨-, ⟨⟩⟩ := Option.ite_none_left_eq_some.mp hs
        exact .inl (validityTurn_closes hj)
      · cases hs
  | expire i =>
      obtain ⟨-, ⟨⟩⟩ := Option.ite_none_right_eq_some.mp hs
      exact .inl hj
  | others d tx woken =>
      cases hs
      exact .inl hj

theorem OneClose.step {l : WaitLabel ι} (h : w.OneClose) (hsound : w.Sound)
    (honce : w.ClosedOnce l) (hs : Waiters.step w l = some v) : v.OneClose := by
  intro i j hi hj
  rcases step_closes hs hi with hi | ⟨woken, rfl⟩
  · rcases step_closes hs hj with hj | ⟨woken, rfl⟩
    · exact h i j hi hj
    · exact absurd (hi.symm.trans (hsound.nobodyCloses honce i)) (by decide)
  · rcases step_closes hs hj with hj | ⟨woken', hl⟩
    · exact absurd (hj.symm.trans (hsound.nobodyCloses honce j)) (by decide)
    · cases hl
      rfl

/-! ## The baton -/

theorem Carried.setPc (h : w.Carried) (hp : p.inCall = (w.pc i).inCall)
    (hawake : i ∉ w.sleeping) : (w.setPc i p).Carried := by
  obtain ⟨hclosing, hholder⟩ := h
  constructor <;> simp only [Waiters.setPc, Function.update_apply] <;> grind -ring -linarith

theorem Carried.sleepAt (h : w.Carried) (hp : p.inCall = (w.pc i).inCall)
    (hnot : w.closeRequested = true → p.inCall = false) (hc : p = .closing → w.callCount ≠ 0)
    (hd : p.awaitsData = true → p.inCall = true) : (w.sleepAt i p).Carried := by
  obtain ⟨hclosing, hholder⟩ := h
  constructor <;> simp only [Waiters.sleepAt, Waiters.setPc, Function.update_apply] <;> grind -ring -linarith

omit [DecidableEq ι] in
theorem Carried.wake {sleeping : Finset ι} {d : HostData} {t : TxAdmission} (h : w.Carried)
    (hsub : sleeping ⊆ w.sleeping) :
    ({ w with hostData := d, tx := t, sleeping := sleeping } : Waiters ι).Carried := by
  refine ⟨fun j hj => h.closing j (hsub hj), fun hreq j hj hd => ?_⟩
  obtain ⟨k, hk, hawake⟩ := h.holder hreq j (hsub hj) hd
  exact ⟨k, hk, fun hin => hawake (hsub hin)⟩

theorem Carried.awaitTurn {x : ℕ} {c : Option ℕ} (h : w.Carried) (hawake : i ∉ w.sleeping)
    (hi : (w.pc i).inCall = true) : (w.awaitTurn i x d n c).Carried := by
  simp only [Waiters.awaitTurn]
  split
  · exact h.setPc hi.symm hawake
  · rename_i hturn
    refine h.sleepAt hi.symm (fun hreq => ?_) (fun hp => by cases hp) fun _ => rfl
    simp [hostDataTurn, hreq] at hturn

theorem Carried.validityTurn (h : w.Carried) (hawake : i ∉ w.sleeping)
    (hi : (w.pc i).inCall = false) : (w.validityTurn i d n).Carried := by
  simp only [Waiters.validityTurn]
  split
  · exact h.setPc hi.symm hawake
  · exact h.sleepAt hi.symm (fun _ => rfl) (fun hp => by cases hp) fun hd => by cases hd

theorem Carried.closeTurn (h : w.Carried) (hawake : i ∉ w.sleeping)
    (hi : (w.pc i).inCall = false) : (w.closeTurn i).Carried := by
  simp only [Waiters.closeTurn]
  split
  · rename_i h0
    exact h.sleepAt hi.symm (fun _ => rfl) (fun _ => h0) fun hd => by cases hd
  · exact h.setPc hi.symm hawake

theorem Carried.signal {woken : Option ι} (h : w.Sound) (hone : w.OneClose)
    (hb : w.Baton woken) (hs : w.signal woken = some v) : v.Carried := by
  obtain ⟨t, ht, rfl⟩ := signal_eq hs
  constructor
  · intro j hj hpc h0
    change w.pc j = .closing at hpc
    have hreq := h.requested j (by simp [hpc, WaitPc.closes])
    obtain ⟨hin, hne⟩ := (Lib.mem_signal ht).mp hj
    obtain ⟨k, rfl, -, ⟨hk, -⟩ | hk⟩ := hb j hin ⟨hreq, .inl ⟨hpc, h0⟩⟩
    · have hjk := hone j k (by simp [hpc, WaitPc.closes]) (by simp [hk, WaitPc.closes])
      exact hne (congrArg some hjk.symm)
    · have hcall : (w.pc k).inCall = true := WaitPc.awaitsData_inCall hk
      exact h.counted.ne_zero hcall h0
  · intro hreq j hj hd
    obtain ⟨hin, -⟩ := (Lib.mem_signal ht).mp hj
    obtain ⟨k, rfl, -, ⟨-, h0⟩ | hk⟩ := hb j hin ⟨hreq, .inr hd⟩
    · exact absurd h0 (h.counted.ne_zero (WaitPc.awaitsData_inCall hd))
    · exact ⟨k, WaitPc.awaitsData_inCall hk, fun hkt => ((Lib.mem_signal ht).mp hkt).2 rfl⟩

theorem Carried.step {l : WaitLabel ι} (h : w.Carried) (hsound : w.Sound) (hone : w.OneClose)
    (hb : w.PassesBaton l) (hs : Waiters.step w l = some v) : v.Carried := by
  cases l with
  | enter i =>
      obtain ⟨hi, ⟨⟩⟩ := Option.ite_none_right_eq_some.mp hs
      split
      · rename_i hok
        have hreq : w.closeRequested = false := by simpa [callEnter] using hok
        exact ⟨fun _ _ _ => Nat.succ_ne_zero _, fun hcl => absurd (hreq.symm.trans hcl) (by decide)⟩
      · exact h
  | await i x d n c =>
      obtain ⟨hi, ⟨⟩⟩ := Option.ite_none_right_eq_some.mp hs
      exact h.awaitTurn (hsound.awake (by simp [hi, WaitPc.waits])) (by simp [hi, WaitPc.inCall])
  | recheck i n c =>
      simp only [Waiters.step] at hs
      split at hs
      · rename_i x d hi
        obtain ⟨hawake, ⟨⟩⟩ := Option.ite_none_left_eq_some.mp hs
        exact h.awaitTurn hawake (by simp [hi, WaitPc.inCall])
      · cases hs
  | leave i woken =>
      obtain ⟨hi, hs⟩ := Option.ite_none_right_eq_some.mp hs
      have hleft : (w.left i).OneClose := fun j k hj hk =>
        hone j k (setPc_closes (p := .outside) rfl hj) (setPc_closes (p := .outside) rfl hk)
      exact Carried.signal (hsound.left hi) hleft hb hs
  | close i woken =>
      obtain ⟨hi, hs⟩ := Option.ite_none_right_eq_some.mp hs
      obtain ⟨u, hu, rfl⟩ := Option.map_eq_some_iff.mp hs
      have hsound' := hsound.close.signal hu
      have hcarried := Carried.signal hsound.close hone hb hu
      obtain ⟨t, -, rfl⟩ := signal_eq hu
      have hw : (w.pc i).waits = false := by simp [hi, WaitPc.waits]
      have hin : (w.pc i).inCall = false := by simp [hi, WaitPc.inCall]
      exact hcarried.closeTurn (hsound'.awake hw) hin
  | closeRecheck i =>
      obtain ⟨⟨hi, hawake⟩, ⟨⟩⟩ := Option.ite_none_right_eq_some.mp hs
      exact h.closeTurn hawake (by simp [hi, WaitPc.inCall])
  | validate i start n =>
      obtain ⟨hi, ⟨⟩⟩ := Option.ite_none_right_eq_some.mp hs
      split
      · exact h
      · exact h.validityTurn (hsound.awake (by simp [hi, WaitPc.waits]))
          (by simp [hi, WaitPc.inCall])
  | revalidate i n =>
      simp only [Waiters.step] at hs
      split at hs
      · rename_i d hi
        obtain ⟨hawake, ⟨⟩⟩ := Option.ite_none_left_eq_some.mp hs
        exact h.validityTurn hawake (by simp [hi, WaitPc.inCall])
      · cases hs
  | expire i =>
      obtain ⟨-, ⟨⟩⟩ := Option.ite_none_right_eq_some.mp hs
      exact h.wake (d := w.hostData) (t := w.tx) (Finset.erase_subset i w.sleeping)
  | others d tx woken =>
      cases hs
      exact h.wake Finset.sdiff_subset

omit [DecidableEq ι] in
theorem sound_start (d : HostData) (tx : TxAdmission) : (start (ι := ι) d tx).Sound :=
  ⟨⟨∅, rfl, fun _ => by simp [start, WaitPc.inCall]⟩, fun _ h => absurd h (Finset.notMem_empty _),
    fun _ h => by simp [start, WaitPc.closes] at h, fun _ _ => rfl⟩

omit [DecidableEq ι] in
theorem oneClose_start (d : HostData) (tx : TxAdmission) : (start (ι := ι) d tx).OneClose :=
  fun _ _ h => by simp [start, WaitPc.closes] at h

omit [DecidableEq ι] in
theorem carried_start (d : HostData) (tx : TxAdmission) : (start (ι := ι) d tx).Carried :=
  ⟨fun _ h => absurd h (Finset.notMem_empty _), fun _ _ h => absurd h (Finset.notMem_empty _)⟩

theorem holder_wakes {j : ι} (hreq : w.closeRequested = true) (hj : (w.pc j).inCall = true)
    (hawake : j ∉ w.sleeping) (hi : i ∈ w.sleeping) :
    ∃ ls t, Lib.Steps Waiters.step (fun w l => l.own = true ∧ w.ClosedOnce l) w ls t ∧
      i ∉ t.sleeping := by
  -- a wait for host data is first told that the board closes
  have hleave : ∀ u : Waiters ι, u.pc j = .inside → i ∈ u.sleeping →
      ∃ t, Waiters.step u (.leave j (some i)) = some t ∧ i ∉ t.sleeping := by
    intro u hu hmem
    refine ⟨{ u.left j with sleeping := u.sleeping.erase i }, ?_, Finset.notMem_erase i _⟩
    simp only [Waiters.step, if_pos hu, Waiters.signal]
    rw [show (u.left j).sleeping = u.sleeping from rfl, Lib.signal_some hmem]
    rfl
  have hok : ∀ u : Waiters ι, (WaitLabel.leave j (some i)).own = true ∧
      u.ClosedOnce (.leave j (some i)) := fun _ => ⟨rfl, trivial⟩
  cases hpc : w.pc j with
  | inside =>
      obtain ⟨t, ht, hnot⟩ := hleave w hpc hi
      exact ⟨_, t, .snoc .nil (hok w) ht, hnot⟩
  | hostData x d =>
      have hturn : Waiters.step w (.recheck j 0 none) = some (w.setPc j .inside) := by
        simp [Waiters.step, hpc, hawake, Waiters.awaitTurn, hostDataTurn, hreq]
      obtain ⟨t, ht, hnot⟩ := hleave (w.setPc j .inside) (by simp [Waiters.setPc]) hi
      have hrecheck : w.ClosedOnce (.recheck j 0 none) := trivial
      exact ⟨_, t, .snoc (.snoc .nil ⟨rfl, hrecheck⟩ hturn) (hok _) ht, hnot⟩
  | outside => simp [hpc, WaitPc.inCall] at hj
  | validity d => simp [hpc, WaitPc.inCall] at hj
  | closing => simp [hpc, WaitPc.inCall] at hj
  | closed => simp [hpc, WaitPc.inCall] at hj

theorem Carried.not_stuck (h : w.Carried) : ¬ w.Stuck := by
  rintro ⟨i, hi, ⟨hreq, ⟨hpc, h0⟩ | hd⟩, hforever⟩
  · exact h.closing i hi hpc h0
  · obtain ⟨j, hj, hawake⟩ := h.holder hreq i hi hd
    obtain ⟨ls, t, hrun, hnot⟩ := holder_wakes hreq hj hawake hi
    exact hnot (hforever ls t hrun)

omit [DecidableEq ι] in
theorem Sound.quiet (h : w.Sound) : w.Quiet := by
  intro i hi
  have hreq : w.closeRequested = true := h.requested i (by simp [hi, WaitPc.closes])
  exact ⟨if_pos hreq, h.counted.nobody (h.closed i hi)⟩

/-- While the baton is passed nobody is left asleep for nothing, and a close
that returned leaves the board without calls. -/
theorem close_wakes_everybody {d : HostData} {tx : TxAdmission} {ls : List (WaitLabel ι)}
    (h : Lib.Steps Waiters.step (fun w l => w.ClosedOnce l ∧ w.PassesBaton l) (start d tx) ls w) :
    ¬ w.Stuck ∧ w.Quiet := by
  have hinv : w.Sound ∧ w.OneClose ∧ w.Carried :=
    h.invariant (P := fun w => w.Sound ∧ w.OneClose ∧ w.Carried)
      ⟨sound_start d tx, oneClose_start d tx, carried_start d tx⟩
      fun ⟨hsound, hone, hcarried⟩ ⟨honce, hbaton⟩ hs =>
        ⟨hsound.step hs, hone.step hsound honce hs, hcarried.step hsound hone hbaton hs⟩
  exact ⟨hinv.2.2.not_stuck, hinv.1.quiet⟩

/-- Host data whose certificate, of transaction 1, has not seen a packet. -/
def awaited : HostData := ⟨.ok, false, 0, false, 0, true, 1⟩

/-- Thread 1 closes the board while thread 0 is inside, and is woken by it. -/
theorem close_wakes_everybody_pass :
    ∃ w : Waiters (Fin 2), w.pc 1 = .closed ∧ ¬ w.Stuck ∧ w.Quiet := by
  let w₀ : Waiters (Fin 2) := start awaited .closed
  let w₁ : Waiters (Fin 2) := { w₀.setPc 0 .inside with callCount := 1 }
  let w₂ : Waiters (Fin 2) :=
    { w₁.setPc 1 .closing with closeRequested := true, sleeping := {1} }
  let w₃ : Waiters (Fin 2) := { w₂.setPc 0 .outside with callCount := 0, sleeping := ∅ }
  let ok : Waiters (Fin 2) → WaitLabel (Fin 2) → Prop := fun w l => w.ClosedOnce l ∧ w.PassesBaton l
  have h₁ : Lib.Steps Waiters.step ok w₀ ([] ++ [WaitLabel.enter 0]) w₁ :=
    .snoc .nil ⟨trivial, trivial⟩ rfl
  have h₂ : Lib.Steps Waiters.step ok w₀ ([] ++ [WaitLabel.enter 0] ++ [WaitLabel.close 1 none]) w₂ :=
    .snoc h₁ ⟨rfl, fun i hi _ => absurd hi (Finset.notMem_empty i)⟩ rfl
  have h₃ : Lib.Steps Waiters.step ok w₀
      ([] ++ [WaitLabel.enter 0] ++ [WaitLabel.close 1 none] ++ [WaitLabel.leave 0 (some 1)]) w₃ :=
    .snoc h₂ ⟨trivial, fun _ _ _ => ⟨1, rfl, rfl, .inl ⟨rfl, rfl⟩⟩⟩ rfl
  have hok : ok w₃ (.closeRecheck 1) := ⟨trivial, trivial⟩
  exact ⟨w₃.setPc 1 .closed, rfl, close_wakes_everybody (h₃.snoc hok rfl)⟩

/-! ## The dropped baton -/

/-- Everybody the close waits for is asleep without a time limit. -/
structure Deserted (w : Waiters ι) (i : ι) : Prop where
  requested : w.closeRequested = true
  asleep : i ∈ w.sleeping
  inside : (w.pc i).inCall = true
  calls : ∀ j, (w.pc j).inCall = true →
    j ∈ w.sleeping ∧ (w.pc j).awaitsData = true ∧ (w.pc j).timed = false

theorem Deserted.setPc {j : ι} (h : w.Deserted i) (hj : (w.pc j).inCall = false)
    (hp : p.inCall = false) : (w.setPc j p).Deserted i := by
  obtain ⟨hreq, hasleep, hinside, hcalls⟩ := h
  constructor <;> simp only [Waiters.setPc, Function.update_apply] <;> grind -ring -linarith

theorem Deserted.sleepAt {j : ι} (h : w.Deserted i) (hj : (w.pc j).inCall = false)
    (hp : p.inCall = false) : (w.sleepAt j p).Deserted i := by
  obtain ⟨hreq, hasleep, hinside, hcalls⟩ := h
  constructor <;> simp only [Waiters.sleepAt, Waiters.setPc, Function.update_apply] <;> grind -ring -linarith

theorem Deserted.step {l : WaitLabel ι} (h : w.Deserted i) (hown : l.own = true)
    (honce : w.ClosedOnce l) (hs : Waiters.step w l = some v) : v.Deserted i := by
  have hstay : ∀ j, (w.pc j).inCall = true → j ∈ w.sleeping := fun j hj => (h.calls j hj).1
  cases l with
  | enter j =>
      obtain ⟨-, ⟨⟩⟩ := Option.ite_none_right_eq_some.mp hs
      rw [if_neg (by simp [callEnter, h.requested])]
      exact h
  | await j x d n c =>
      obtain ⟨hj, -⟩ := Option.ite_none_right_eq_some.mp hs
      have hd := (h.calls j (by simp [hj, WaitPc.inCall])).2.1
      simp [hj, WaitPc.awaitsData] at hd
  | recheck j n c =>
      simp only [Waiters.step] at hs
      split at hs
      · rename_i x d hj
        obtain ⟨hawake, -⟩ := Option.ite_none_left_eq_some.mp hs
        exact absurd (hstay j (by simp [hj, WaitPc.inCall])) hawake
      · cases hs
  | leave j woken =>
      obtain ⟨hj, -⟩ := Option.ite_none_right_eq_some.mp hs
      have hd := (h.calls j (by simp [hj, WaitPc.inCall])).2.1
      simp [hj, WaitPc.awaitsData] at hd
  | close j woken =>
      exact absurd (h.requested.symm.trans honce) (by decide)
  | closeRecheck j =>
      obtain ⟨⟨hj, -⟩, ⟨⟩⟩ := Option.ite_none_right_eq_some.mp hs
      have hout : (w.pc j).inCall = false := by simp [hj, WaitPc.inCall]
      simp only [Waiters.closeTurn]
      split
      · exact h.sleepAt hout rfl
      · exact h.setPc hout rfl
  | validate j start n =>
      obtain ⟨hj, ⟨⟩⟩ := Option.ite_none_right_eq_some.mp hs
      have hout : (w.pc j).inCall = false := by simp [hj, WaitPc.inCall]
      simp only [Waiters.validityTurn]
      split_ifs
      · exact h
      · split
        · exact h.setPc hout rfl
        · exact h.sleepAt hout rfl
  | revalidate j n =>
      simp only [Waiters.step] at hs
      split at hs
      · rename_i d hj
        obtain ⟨-, ⟨⟩⟩ := Option.ite_none_left_eq_some.mp hs
        have hout : (w.pc j).inCall = false := by simp [hj, WaitPc.inCall]
        simp only [Waiters.validityTurn]
        split
        · exact h.setPc hout rfl
        · exact h.sleepAt hout rfl
      · cases hs
  | expire j =>
      obtain ⟨⟨-, htimed⟩, ⟨⟩⟩ := Option.ite_none_right_eq_some.mp hs
      have hne : ∀ k, (w.pc k).inCall = true → k ≠ j := fun k hk hkj => by
        subst hkj
        exact absurd ((h.calls k hk).2.2.symm.trans htimed) (by decide)
      exact ⟨h.requested, Finset.mem_erase.mpr ⟨hne i h.inside, h.asleep⟩, h.inside,
        fun k hk => ⟨Finset.mem_erase.mpr ⟨hne k hk, hstay k hk⟩, (h.calls k hk).2⟩⟩
  | others d tx woken => cases hown

theorem Deserted.stuck (h : w.Deserted i) : w.Stuck := by
  refine ⟨i, h.asleep, ⟨h.requested, .inr (h.calls i h.inside).2.1⟩, fun ls t hrun => ?_⟩
  exact (hrun.invariant (P := fun t => Deserted t i) h fun ha hok hs => ha.step hok.1 hok.2 hs).asleep

def linkOnly : TxAdmission :=
  { TxAdmission.closed with
    asyncLinkCertified := true
    referenceClockKnown := true
    frequencyModelKnown := true }

local instance threeThreads : NeZero 3 := ⟨by decide⟩

/-- Thread 0 waits for host data, thread 1 for the TX certificate, and thread
2 closes the board with a signal that reaches thread 1. -/
def droppedBaton : List (WaitLabel (Fin 3)) :=
  [.enter 0, .await 0 1 uint64Max 1 (some 1), .validate 1 1 1, .close 2 (some 1)]

def deserted : Waiters (Fin 3) :=
  { ((((start awaited linkOnly).setPc 0 .inside).setPc 0 (.hostData 1 uint64Max)).setPc 1
      (.validity (1 + txValidityTimeoutNs))).setPc 2 .closing with
    closeRequested := true
    callCount := 1
    sleeping := {2, 0} }

theorem close_waits_forever :
    Lib.Steps Waiters.step ClosedOnce (start awaited linkOnly) droppedBaton deserted ∧
      deserted.Stuck :=
  ⟨.of_exec rfl, Deserted.stuck (i := 0) ⟨rfl, by decide, rfl, by decide⟩⟩

/-- Whoever is woken, and however many threads close: the count is the number of
threads inside, nobody enters once a close has begun, and a close that returned has
left nobody inside. -/
theorem close_excludes_calls {d : HostData} {tx : TxAdmission} {ls : List (WaitLabel ι)}
    (h : Lib.Steps Waiters.step (fun _ _ => True) (start d tx) ls w) :
    w.Counted ∧ w.Quiet ∧ ∀ i, (w.pc i).closes = true → w.callEnter = .aborted := by
  have hsound : w.Sound := h.invariant (sound_start d tx) fun hsound _ hs => hsound.step hs
  exact ⟨hsound.counted, hsound.quiet, fun i hi => if_pos (hsound.requested i hi)⟩

/-- Threads 1 and 2 close the board while thread 0 is inside.  Its leaving wakes
thread 1, and another function thread 2. -/
def twoCloses : List (WaitLabel (Fin 3)) :=
  [.enter 0, .close 1 none, .close 2 (some 1), .closeRecheck 1, .leave 0 (some 1),
    .closeRecheck 1, .others awaited .closed {2}, .closeRecheck 2]

theorem close_excludes_calls_twice : ∃ w : Waiters (Fin 3),
    w.pc 1 = .closed ∧ w.pc 2 = .closed ∧ w.Counted ∧ w.Quiet ∧ w.callEnter = .aborted := by
  have hrun : ∃ w : Waiters (Fin 3), w.pc 1 = .closed ∧ w.pc 2 = .closed ∧
      Lib.Steps Waiters.step (fun _ _ => True) (start awaited .closed) twoCloses w :=
    ⟨_, rfl, rfl, .of_exec rfl⟩
  obtain ⟨w, h1, h2, hsteps⟩ := hrun
  obtain ⟨hcounted, hquiet, hclose⟩ := close_excludes_calls hsteps
  exact ⟨w, h1, h2, hcounted, hquiet, hclose 1 (by rw [h1]; rfl)⟩

end Waiters
end BladeRF
