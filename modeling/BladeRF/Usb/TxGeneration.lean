/-
# `Usb.TxGeneration` — a TX buffer and the generation it was admitted under

The board counts an admission generation up whenever TX was admitted under
another configuration.  Every buffer is submitted under a snapshot of it, and
the lease that a submission takes compares that snapshot with the board.

The snapshot of a stream is `tx_admission_generation`, one field that all
submitters write.  `async_submit_stream_buffer` and the completion callback keep
their own copy next to it; the initial loop of `lusb_stream` reads the field
again, behind a validation that drops `stream->lock`.
-/
import BladeRF.Lib.Steps
import BladeRF.Usb.Stream

namespace BladeRF.Usb

/-! ## Threads -/

structure TxSlot where
  inFlight : Bool
  /-- `tx_generation` of the transfer -/
  generation : ℕ

/-- The three validations of `async_submit_stream_buffer`. -/
inductive SubmitPass
  | first
  | second
  /-- in `lusb_submit_stream_buffer` -/
  | backend
  deriving DecidableEq

/-- Whose buffer it is; `own` is the snapshot it goes by. -/
inductive TxTask
  /-- the initial loop, at an index -/
  | initial (k own : ℕ)
  | submitter (own : ℕ) (nonblock : Bool) (pass : SubmitPass)
  /-- the callback of a transfer; `again` sends the same buffer -/
  | callback (j own : ℕ) (again : Bool)
  deriving DecidableEq

inductive TxGenPc
  | idle
  /-- at the top of the initial loop -/
  | looping (k : ℕ)
  /-- the application is asked for a buffer -/
  | asking (k own : ℕ)
  /-- `async_submit_stream_buffer` behind its snapshot -/
  | entered (own : ℕ) (nonblock : Bool)
  /-- at its wait for the stream -/
  | starting (own : ℕ) (nonblock : Bool)
  | sleepingStart (own : ℕ) (nonblock : Bool)
  | late (own : ℕ) (nonblock : Bool)
  /-- `lusb_submit_stream_buffer` -/
  | backend (own : ℕ) (nonblock : Bool)
  | sleepingTransfer (own : ℕ) (nonblock : Bool)
  /-- the callback of a completed transfer -/
  | completed (j own : ℕ)
  /-- … behind the application's callback -/
  | called (j own : ℕ) (stale : Bool)
  /-- … of a transfer that timed out with nothing sent -/
  | requeue (j own : ℕ)
  /-- `async_tx_buffer_validate` -/
  | validate (t : TxTask)
  /-- … behind its snapshot -/
  | anchored (t : TxTask) (generation : ℕ)
  /-- … in the timestamp check, without the lock -/
  | checking (t : TxTask) (generation : ℕ) (before : StreamState)
  | checked (t : TxTask) (generation : ℕ) (before : StreamState) (ok : Bool)
  | passed (t : TxTask)
  /-- `submit_transfer` -/
  | submit (t : TxTask) (generation : ℕ)
  /-- … at its lease -/
  | leasing (t : TxTask) (j generation : ℕ)
  | usb (t : TxTask) (j : ℕ)
  | returned (t : TxTask)
  deriving DecidableEq

namespace TxTask

def own : TxTask → ℕ
  | .initial _ own | .submitter own _ _ | .callback _ own _ => own

def inherited : TxTask → Option (ℕ × ℕ)
  | .callback j own _ => some (j, own)
  | _ => none

end TxTask

namespace TxGenPc

/-- Between two steps of these the thread has `stream->lock`. -/
def holds : TxGenPc → Bool
  | .idle | .sleepingStart _ _ | .sleepingTransfer _ _ | .checking _ _ _ | .usb _ _ => false
  | _ => true

def own : TxGenPc → Option ℕ
  | .idle | .looping _ => none
  | .asking _ own | .entered own _ | .starting own _ | .sleepingStart own _ | .late own _
  | .backend own _ | .sleepingTransfer own _ | .completed _ own | .called _ own _
  | .requeue _ own => some own
  | .validate t | .anchored t _ | .checking t _ _ | .checked t _ _ _ | .passed t | .submit t _
  | .leasing t _ _ | .usb t _ | .returned t => some t.own

def inherited : TxGenPc → Option (ℕ × ℕ)
  | .completed j own | .called j own _ | .requeue j own => some (j, own)
  | .validate t | .anchored t _ | .checking t _ _ | .checked t _ _ _ | .passed t | .submit t _
  | .leasing t _ _ | .usb t _ | .returned t => t.inherited
  | _ => none

def basis : TxGenPc → Option ℕ
  | .anchored _ generation | .checking _ generation _ | .checked _ generation _ _ => some generation
  | _ => none

def sending : TxGenPc → Option ℕ
  | .submit _ generation | .leasing _ _ generation => some generation
  | _ => none

/-- The snapshot of a completed buffer that was seen to be stale. -/
def staleOwn : TxGenPc → Option ℕ
  | .called _ own true => some own
  | _ => none

theorem own_of_inherited {p : TxGenPc} {j o : ℕ} (h : p.inherited = some (j, o)) :
    p.own = some o := by
  have htask : ∀ t : TxTask, t.inherited = some (j, o) → some t.own = some o := by
    intro t ht
    cases t with
    | callback j' own again =>
        obtain ⟨-, rfl⟩ := Prod.mk.inj (Option.some.inj ht)
        rfl
    | _ => cases ht
  cases p with
  | completed | called | requeue =>
      obtain ⟨-, rfl⟩ := Prod.mk.inj (Option.some.inj h)
      rfl
  | validate t | anchored t | checking t | checked t | passed t | submit t | leasing t | usb t
  | returned t => exact htask t h
  | _ => cases h

theorem own_of_staleOwn {p : TxGenPc} {o : ℕ} (h : p.staleOwn = some o) : p.own = some o := by
  cases p with
  | called j own stale =>
      cases stale with
      | true => exact h
      | false => cases h
  | _ => cases h

theorem holds_of_sending {p : TxGenPc} {g : ℕ} (h : p.sending = some g) : p.holds = true := by
  cases p <;> first | rfl | cases h

end TxGenPc

/-- What the board, the application, the clock and libusb answer. -/
structure TxAnswers where
  /-- `async_tx_buffer_valid` and `async_tx_buffer_valid_now` -/
  valid : Bool
  validNow : Bool
  next : Next
  /-- the result of a slow call is 0 -/
  ok : Bool
  admitted : Bool

inductive TxCompletion
  | completed
  /-- timed out, with nothing sent -/
  | stalled
  | other

/-! ## The stream -/

structure TxGenerations (ι : Type*) where
  /-- the generation of the board -/
  board : ℕ
  field : ℕ
  state : StreamState
  slots : List TxSlot
  /-- the index of the stream -/
  i : ℕ
  cbActive : ℕ
  lock : Option ι
  pc : ι → TxGenPc
  /-- ghost: the generation of each buffer handed to libusb, and that of the
  board at its lease -/
  handed : List (ℕ × ℕ)
  /-- ghost: the snapshot of each buffer that was rejected as stale, and the
  generation of the board then -/
  rejected : List (ℕ × ℕ)

inductive TxGenLabel (ι : Type*)
  /-- the board admits TX under a new generation, or revokes it -/
  | boardChange
  | initialLoop (i : ι)
  | submitBuffer (i : ι) (nonblock : Bool)
  /-- libusb calls `lusb_stream_cb` -/
  | complete (i : ι) (j : ℕ) (completion : TxCompletion)
  /-- the thread goes on, to its next reading of the board or unlock -/
  | run (i : ι) (answers : TxAnswers)
  | relock (i : ι) (answers : TxAnswers)
  /-- `async_request_stream_shutdown` -/
  | shutdown

namespace TxGenerations

variable {ι : Type*} [DecidableEq ι] (v : TxGenerations ι)

def go (i : ι) (p : TxGenPc) : TxGenerations ι := { v with pc := Function.update v.pc i p }

def drop (i : ι) (p : TxGenPc) : TxGenerations ι := { v.go i p with lock := none }

def take (i : ι) (p : TxGenPc) : TxGenerations ι := { v.go i p with lock := some i }

def setField (generation : ℕ) : TxGenerations ι := { v with field := generation }

/-- A buffer is rejected with `BLADERF_ERR_WOULD_BLOCK`, its generation stale. -/
def reject (own : ℕ) : TxGenerations ι := { v with rejected := v.rejected ++ [(own, v.board)] }

def numAvail : ℕ := (v.slots.filter fun s => !s.inFlight).length

def drained : Bool := v.numAvail = v.slots.length

def submittable : ℕ := v.numAvail - v.cbActive

/-- `get_next_available_transfer`. -/
def nextAvailable : Option ℕ :=
  ((List.range v.slots.length).map fun k => (v.i + k) % v.slots.length).find? fun j =>
    (v.slots[j]?).any fun s => !s.inFlight

def slotGeneration (j : ℕ) : ℕ := (v.slots[j]?).elim 0 TxSlot.generation

def setSlot (j : ℕ) (s : TxSlot) : TxGenerations ι := { v with slots := v.slots.set j s }

def free (j : ℕ) : TxGenerations ι := v.setSlot j ⟨false, v.slotGeneration j⟩

/-! ### How the calls end -/

/-- The end of `lusb_stream_cb`. -/
def tail (i : ι) : TxGenerations ι :=
  { v with
    cbActive := v.cbActive - 1
    state :=
      if v.state = StreamState.shuttingDown ∧ v.drained then .done else v.state }.drop i .idle

/-- The buffer is not submitted: its validation or the lease says no. -/
def fail (i : ι) : TxTask → TxGenerations ι
  | .initial _ _ =>
      { v.setField 0 with state := if v.drained then .done else .shuttingDown }.drop i .idle
  | .submitter _ _ _ => (v.setField 0).drop i .idle
  | .callback _ _ _ => { v.setField 0 with state := .shuttingDown }.tail i

/-- `submit_transfer` has failed. -/
def submitFailed (i : ι) : TxTask → TxGenerations ι
  | .initial _ _ => (v.setField 0).drop i .idle
  | .submitter _ _ _ => (v.setField 0).drop i .idle
  | .callback _ _ _ => { v.setField 0 with state := .shuttingDown }.tail i

/-- `submit_transfer` has succeeded. -/
def submitted (i : ι) : TxTask → TxGenerations ι
  | .initial k _ => v.go i (.looping (k + 1))
  | .submitter _ _ _ => (v.setField 0).drop i .idle
  | .callback _ _ again =>
      if again then { v with cbActive := v.cbActive - 1 }.drop i .idle else v.tail i

/-! ### One stretch of each -/

def looping (i : ι) (k : ℕ) : TxGenerations ι :=
  if v.slots.length ≤ k then v.drop i .idle
  else (v.setField v.board).go i (.asking k v.board)

def asking (i : ι) (k own : ℕ) (a : TxAnswers) : TxGenerations ι :=
  match a.next with
  | .shutdown =>
      { v.setField 0 with state := if v.drained then .done else .shuttingDown }.drop i .idle
  | .noData => (v.setField 0).go i (.looping (k + 1))
  | .buffer _ => v.go i (.validate (.initial k own))

/-- `async_submit_stream_buffer` at its first check. -/
def entered (i : ι) (own : ℕ) (nonblock : Bool) (a : TxAnswers) : TxGenerations ι :=
  if !nonblock then v.go i (.validate (.submitter own nonblock .first))
  else if a.validNow then v.go i (.starting own nonblock)
  else v.fail i (.submitter own nonblock .first)

/-- … when it waits for the stream, and at its second check. -/
def starting (i : ι) (own : ℕ) (nonblock : Bool) (a : TxAnswers) : TxGenerations ι :=
  if v.state ≠ .running then
    if nonblock ∨ !a.ok then v.fail i (.submitter own nonblock .first)
    else v.drop i (.sleepingStart own nonblock)
  else if !nonblock then v.go i (.validate (.submitter own nonblock .second))
  else if a.validNow then v.go i (.late own nonblock)
  else v.fail i (.submitter own nonblock .second)

/-- … at the comparison with its own copy. -/
def late (i : ι) (own : ℕ) (nonblock : Bool) (a : TxAnswers) : TxGenerations ι :=
  if !a.ok then v.fail i (.submitter own nonblock .second)
  else if own ≠ v.board then (v.reject own).fail i (.submitter own nonblock .second)
  else v.go i (.backend own nonblock)

/-- `lusb_submit_stream_buffer`. -/
def backend (i : ι) (own : ℕ) (nonblock : Bool) (a : TxAnswers) : TxGenerations ι :=
  let t := TxTask.submitter own nonblock .backend
  if v.submittable = 0 ∧ (nonblock ∨ !a.ok) then v.fail i t
  else if v.submittable = 0 then v.drop i (.sleepingTransfer own nonblock)
  else if v.state ≠ .running then v.fail i t
  else if !nonblock then v.go i (.validate t)
  else if !a.validNow then v.fail i t
  else if own ≠ v.board then (v.reject own).fail i t
  else v.go i (.submit t own)

/-- The callback of a completed transfer, up to the application's callback. -/
def completed (i : ι) (j own : ℕ) : TxGenerations ι :=
  if v.state ≠ .running then v.tail i
  else (v.setField own).go i (.called j own (own ≠ v.board))

/-- … behind it. -/
def called (i : ι) (j own : ℕ) (stale : Bool) (a : TxAnswers) : TxGenerations ι :=
  match a.next with
  | .buffer _ =>
      if stale ∨ own ≠ v.board then (v.reject own).fail i (.callback j own false)
      else v.go i (.validate (.callback j own false))
  | .shutdown => v.fail i (.callback j own false)
  | .noData =>
      if stale ∨ own ≠ v.board then v.fail i (.callback j own false) else (v.setField 0).tail i

def requeue (i : ι) (j own : ℕ) : TxGenerations ι :=
  if own ≠ v.board then (v.reject own).fail i (.callback j own true)
  else v.go i (.submit (.callback j own true) (v.slotGeneration j))

/-- `async_tx_buffer_validate` up to its snapshot, which it leaves in the
field. -/
def validate (i : ι) (t : TxTask) (a : TxAnswers) : TxGenerations ι :=
  if !a.valid then v.fail i t else (v.setField v.board).go i (.anchored t v.board)

/-- … up to its unlock. -/
def anchored (i : ι) (t : TxTask) (generation : ℕ) (a : TxAnswers) : TxGenerations ι :=
  if !a.validNow then v.fail i t
  else if generation ≠ v.board then (v.reject t.own).fail i t
  else v.drop i (.checking t generation v.state)

/-- … behind the timestamp check. -/
def checked (i : ι) (t : TxTask) (generation : ℕ) (before : StreamState) (ok : Bool) :
    TxGenerations ι :=
  if v.state ≠ before then v.fail i t
  else if generation ≠ v.board then (v.reject t.own).fail i t
  else if !ok then v.fail i t
  else v.go i (.passed t)

/-- What each caller makes of a buffer that passed.  The initial loop goes by
the field, the others by their own copy. -/
def passed (i : ι) (t : TxTask) (a : TxAnswers) : TxGenerations ι :=
  match t with
  | .initial _ own =>
      if v.field ≠ v.board then (v.reject own).fail i t
      else if !a.ok then { v.setField 0 with state := .shuttingDown }.drop i .idle
      else v.go i (.submit t v.field)
  | .submitter own nonblock .first => v.go i (.starting own nonblock)
  | .submitter own nonblock .second => v.go i (.late own nonblock)
  | .submitter own _ .backend =>
      if own ≠ v.board then (v.reject own).fail i t else v.go i (.submit t own)
  | .callback j own _ =>
      if own ≠ v.board then (v.reject own).fail i t
      else if !a.ok then v.fail i t
      else (v.setField own).go i (.submit t (v.slotGeneration j))

/-- `submit_transfer` up to its lease. -/
def submit (i : ι) (t : TxTask) (generation : ℕ) : TxGenerations ι :=
  match v.nextAvailable with
  | none => v.submitFailed i t
  | some j =>
      { (v.setSlot j ⟨true, generation⟩).setField generation with
        i := (j + 1) % v.slots.length }.go i (.leasing t j generation)

/-- `async_tx_submit_lease_acquire`, and the unlock behind it. -/
def leasing (i : ι) (t : TxTask) (j generation : ℕ) (a : TxAnswers) : TxGenerations ι :=
  if generation = v.board ∧ a.admitted then
    { v with handed := v.handed ++ [(generation, v.board)] }.drop i (.usb t j)
  else
    let w := { v.free j with i := j }
    (if generation ≠ v.board then w.reject t.own else w).submitFailed i t

def run (i : ι) (a : TxAnswers) : TxGenPc → Option (TxGenerations ι)
  | .looping k => some (v.looping i k)
  | .asking k own => some (v.asking i k own a)
  | .entered own nonblock => some (v.entered i own nonblock a)
  | .starting own nonblock => some (v.starting i own nonblock a)
  | .late own nonblock => some (v.late i own nonblock a)
  | .backend own nonblock => some (v.backend i own nonblock a)
  | .completed j own => some (v.completed i j own)
  | .called j own stale => some (v.called i j own stale a)
  | .requeue j own => some (v.requeue i j own)
  | .validate t => some (v.validate i t a)
  | .anchored t generation => some (v.anchored i t generation a)
  | .checked t generation before ok => some (v.checked i t generation before ok)
  | .passed t => some (v.passed i t a)
  | .submit t generation => some (v.submit i t generation)
  | .leasing t j generation => some (v.leasing i t j generation a)
  | .returned t => some (v.submitted i t)
  | _ => none

def resume (i : ι) (a : TxAnswers) : TxGenPc → Option (TxGenerations ι)
  | .sleepingStart own nonblock => some (v.take i (.starting own nonblock))
  | .sleepingTransfer own nonblock => some (v.take i (.backend own nonblock))
  | .checking t generation before => some (v.take i (.checked t generation before a.ok))
  | .usb t j =>
      some (if a.ok then v.take i (.returned t)
        else { v.free j with i := j }.submitFailed i t)
  | _ => none

/-- `lusb_stream_cb` up to what it does for the status. -/
def completion (i : ι) (j : ℕ) (completion : TxCompletion) : TxGenerations ι :=
  let w := { v.free j with cbActive := v.cbActive + 1 }
  match completion with
  | .completed => w.take i (.completed j (v.slotGeneration j))
  | .stalled =>
      if v.state = .running then w.take i (.requeue j (v.slotGeneration j))
      else { w with state := .shuttingDown }.tail i
  | .other => { w with state := .shuttingDown }.tail i

def step : TxGenLabel ι → Option (TxGenerations ι)
  | .boardChange => some { v with board := v.board + 1 }
  | .initialLoop i =>
      if v.pc i = .idle ∧ v.lock = none then some (v.take i (.looping 0)) else none
  | .submitBuffer i nonblock =>
      if v.pc i = .idle ∧ v.lock = none then
        some ((v.setField v.board).take i (.entered v.board nonblock))
      else none
  | .complete i j completion =>
      if v.pc i = .idle ∧ v.lock = none ∧ (v.slots[j]?).any TxSlot.inFlight then
        some (v.completion i j completion)
      else none
  | .run i a => v.run i a (v.pc i)
  | .relock i a => if v.lock = none then v.resume i a (v.pc i) else none
  | .shutdown =>
      if v.lock = none ∧ v.state ≠ .done then some { v with state := .shuttingDown } else none

/-! ## The promise -/

structure Exact : Prop where
  handed : ∀ x ∈ v.handed, x.1 = x.2
  rejected : ∀ x ∈ v.rejected, x.1 ≠ x.2

/-- The buffer of the initial loop was outdated, or the field still says what
the board says. -/
def fieldKept : TxGenLabel ι → Bool
  | .run i _ =>
      match v.pc i with
      | .passed (.initial _ own) => own ≠ v.board ∨ v.field = v.board
      | _ => true
  | _ => true

/-! ## Proof -/

structure Fits (p : TxGenPc) : Prop where
  own : ∀ o, p.own = some o → o ≤ v.board
  inherited : ∀ j o, p.inherited = some (j, o) → o ≤ v.slotGeneration j
  basis : ∀ g, p.basis = some g → g ≤ v.board ∧ ∀ o, p.own = some o → o ≤ g
  /-- a submission is newer than the snapshot of every callback -/
  sending : ∀ g, p.sending = some g → g ≤ v.board ∧ (∀ o, p.own = some o → o ≤ g) ∧
    ∀ k j o, (v.pc k).inherited = some (j, o) → o ≤ g
  stale : ∀ o, p.staleOwn = some o → o < v.board

structure Inv : Prop where
  fits : ∀ i, v.Fits (v.pc i)
  slots : ∀ j, v.slotGeneration j ≤ v.board
  held : ∀ i, (v.pc i).holds = true → v.lock = some i
  exact : v.Exact

variable {v} {w : TxGenerations ι} {i : ι} {p : TxGenPc} {t : TxTask} {a : TxAnswers}

omit [DecidableEq ι] in
theorem Inv.others (h : v.Inv) (hlock : v.lock = some i ∨ v.lock = none) {k : ι} (hk : k ≠ i) :
    (v.pc k).holds = false := by
  cases hh : (v.pc k).holds with
  | false => rfl
  | true =>
      have hheld := h.held k hh
      rcases hlock with hl | hl
      · exact absurd (Option.some.inj (hheld.symm.trans hl)) hk
      · rw [hl] at hheld
        cases hheld

theorem Inv.move (h : v.Inv) (hlock : v.lock = some i ∨ v.lock = none)
    (hboard : w.board = v.board) (hslots : w.slots = v.slots) (hhanded : w.handed = v.handed)
    (hrejected : w.rejected = v.rejected) (hpc : w.pc = Function.update v.pc i p)
    (hheld : p.holds = true → w.lock = some i) (hfits : v.Fits p) : w.Inv := by
  have hslot : w.slotGeneration = v.slotGeneration := by
    funext j
    simp only [slotGeneration, hslots]
  have hself : w.pc i = p := by simp [hpc]
  have hother : ∀ {k}, k ≠ i → w.pc k = v.pc k := fun hk => by simp [hpc, Function.update_of_ne hk]
  refine ⟨fun k => ?_, fun j => ?_, fun k hk => ?_, ?_⟩
  · by_cases hki : k = i
    · subst hki
      rw [hself]
      refine ⟨hboard ▸ hfits.own, hslot ▸ hfits.inherited, hboard ▸ hfits.basis, ?_,
        hboard ▸ hfits.stale⟩
      intro g hg
      obtain ⟨hle, hown, hall⟩ := hfits.sending g hg
      refine ⟨hboard ▸ hle, hown, fun l j o hl => ?_⟩
      by_cases hlk : l = k
      · subst hlk
        rw [hself] at hl
        exact hown o (TxGenPc.own_of_inherited hl)
      · exact hall l j o (hother hlk ▸ hl)
    · have hk := h.fits k
      rw [hother hki]
      refine ⟨hboard ▸ hk.own, hslot ▸ hk.inherited, hboard ▸ hk.basis, fun g hg => ?_,
        hboard ▸ hk.stale⟩
      have hholds := TxGenPc.holds_of_sending hg
      rw [h.others hlock hki] at hholds
      cases hholds
  · rw [hslot, hboard]
    exact h.slots j
  · by_cases hki : k = i
    · subst hki
      exact hheld (hself ▸ hk)
    · rw [hother hki, h.others hlock hki] at hk
      cases hk
  · exact ⟨hhanded ▸ h.exact.handed, hrejected ▸ h.exact.rejected⟩

omit [DecidableEq ι] in
theorem Fits.free (hown : p.own = none) (hsending : p.sending = none) (hbasis : p.basis = none) :
    v.Fits p where
  own o ho := by
    rw [hown] at ho
    cases ho
  inherited j o ho := by
    rw [TxGenPc.own_of_inherited ho] at hown
    cases hown
  basis g hg := by
    rw [hbasis] at hg
    cases hg
  sending g hg := by
    rw [hsending] at hg
    cases hg
  stale o ho := by
    rw [TxGenPc.own_of_staleOwn ho] at hown
    cases hown

omit [DecidableEq ι] in
theorem Fits.same {q : TxGenPc} (h : v.Fits q) (hown : p.own = q.own)
    (hinherited : p.inherited = q.inherited) (hbasis : p.basis = none ∨ p.basis = q.basis)
    (hsending : p.sending = none ∨ p.sending = q.sending) (hstale : p.staleOwn = none) :
    v.Fits p where
  own o ho := h.own o (hown ▸ ho)
  inherited j o ho := h.inherited j o (hinherited ▸ ho)
  basis g hg := by
    rcases hbasis with hb | hb
    · rw [hb] at hg
      cases hg
    · obtain ⟨hle, hall⟩ := h.basis g (hb ▸ hg)
      exact ⟨hle, fun o ho => hall o (hown ▸ ho)⟩
  sending g hg := by
    rcases hsending with hs | hs
    · rw [hs] at hg
      cases hg
    · obtain ⟨hle, hall, hnew⟩ := h.sending g (hs ▸ hg)
      exact ⟨hle, fun o ho => hall o (hown ▸ ho), hnew⟩
  stale o ho := by
    rw [hstale] at ho
    cases ho

omit [DecidableEq ι] in
theorem Fits.snapshot (hown : p.own = some v.board) (hinherited : p.inherited = none)
    (hbasis : p.basis = none) (hsending : p.sending = none) (hstale : p.staleOwn = none) :
    v.Fits p where
  own o ho := by
    rw [hown] at ho
    exact (Option.some.inj ho) ▸ le_rfl
  inherited j o ho := by
    rw [hinherited] at ho
    cases ho
  basis g hg := by
    rw [hbasis] at hg
    cases hg
  sending g hg := by
    rw [hsending] at hg
    cases hg
  stale o ho := by
    rw [hstale] at ho
    cases ho

omit [DecidableEq ι] in
theorem Fits.anchor (h : v.Fits (.validate t)) : v.Fits (.anchored t v.board) where
  own := h.own
  inherited := h.inherited
  basis g hg := by
    obtain rfl := Option.some.inj hg
    exact ⟨le_rfl, h.own⟩
  sending g hg := by cases hg
  stale o ho := by cases ho

variable {g own j : ℕ} {nonblock : Bool}

omit [DecidableEq ι] in
theorem Fits.send (h : v.Inv) {q : TxGenPc} (hq : v.Fits q) (hown : q.own = some t.own)
    (hinherited : q.inherited = t.inherited) (hg : g = v.board) :
    v.Fits (.submit t g) where
  own o ho := hq.own o (hown ▸ ho)
  inherited j o ho := hq.inherited j o (hinherited ▸ ho)
  basis g' hg' := by cases hg'
  sending g' hg' := by
    obtain rfl := Option.some.inj hg'
    refine ⟨hg ▸ le_rfl, fun o ho => hg ▸ hq.own o (hown ▸ ho), fun k j o hk => ?_⟩
    exact hg ▸ ((h.fits k).inherited j o hk).trans (h.slots j)
  stale o ho := by cases ho

omit [DecidableEq ι] in
theorem Fits.idle : v.Fits .idle := .free rfl rfl rfl

/-! ### The combinators -/

theorem Inv.go (h : v.Inv) (hlock : v.lock = some i) (hp : v.Fits p) : (v.go i p).Inv :=
  h.move (.inl hlock) rfl rfl rfl rfl rfl (fun _ => hlock) hp

theorem Inv.drop (h : v.Inv) (hlock : v.lock = some i) (hholds : p.holds = false)
    (hp : v.Fits p) : (v.drop i p).Inv :=
  h.move (.inl hlock) rfl rfl rfl rfl rfl (fun hh => absurd (hholds.symm.trans hh) (by decide)) hp

theorem Inv.take (h : v.Inv) (hlock : v.lock = none) (hp : v.Fits p) : (v.take i p).Inv :=
  h.move (.inr hlock) rfl rfl rfl rfl rfl (fun _ => rfl) hp

omit [DecidableEq ι] in
theorem Inv.frame {f n c : ℕ} {s : StreamState} (h : v.Inv) :
    ({ v with field := f, i := n, cbActive := c, state := s } : TxGenerations ι).Inv :=
  ⟨fun k => ⟨(h.fits k).own, (h.fits k).inherited, (h.fits k).basis, (h.fits k).sending,
    (h.fits k).stale⟩, h.slots, h.held, ⟨h.exact.handed, h.exact.rejected⟩⟩

omit [DecidableEq ι] in
theorem Inv.reject (h : v.Inv) (hown : own ≠ v.board) : (v.reject own).Inv := by
  refine ⟨fun k => ⟨(h.fits k).own, (h.fits k).inherited, (h.fits k).basis, (h.fits k).sending,
    (h.fits k).stale⟩, h.slots, h.held, ⟨h.exact.handed, fun x hx => ?_⟩⟩
  rcases List.mem_append.mp hx with hx | hx
  · exact h.exact.rejected x hx
  · rw [List.mem_singleton.mp hx]
    exact hown

omit [DecidableEq ι] in
theorem slotGeneration_setSlot (j k : ℕ) (s : TxSlot) : (v.setSlot j s).slotGeneration k =
    if j = k ∧ k < v.slots.length then s.generation else v.slotGeneration k := by
  unfold slotGeneration setSlot
  rw [List.getElem?_set]
  by_cases hjk : j = k
  · subst hjk
    by_cases hj : j < v.slots.length
    · simp [hj]
    · simp [hj]
  · simp [hjk]

omit [DecidableEq ι] in
theorem slotGeneration_free (j : ℕ) : (v.free j).slotGeneration = v.slotGeneration := by
  funext k
  unfold free
  rw [slotGeneration_setSlot]
  split
  · rename_i hjk
    rw [hjk.1]
  · rfl

omit [DecidableEq ι] in
theorem Inv.setSlot (h : v.Inv) (j : ℕ) {s : TxSlot} (hboard : s.generation ≤ v.board)
    (hnew : ∀ k o, (v.pc k).inherited = some (j, o) → o ≤ s.generation) : (v.setSlot j s).Inv := by
  refine ⟨fun k => ⟨(h.fits k).own, fun j' o ho => ?_, (h.fits k).basis, (h.fits k).sending,
    (h.fits k).stale⟩, fun j' => ?_, h.held, ⟨h.exact.handed, h.exact.rejected⟩⟩
  · rw [slotGeneration_setSlot]
    split
    · rename_i hj
      obtain ⟨rfl, -⟩ := hj
      exact hnew k o ho
    · exact (h.fits k).inherited j' o ho
  · rw [slotGeneration_setSlot]
    split
    · exact hboard
    · exact h.slots j'

omit [DecidableEq ι] in
theorem Inv.free (h : v.Inv) (j : ℕ) : (v.free j).Inv :=
  h.setSlot j (h.slots j) fun k o ho => (h.fits k).inherited j o ho

/-! ### How the calls end -/

theorem Inv.tail (h : v.Inv) (hlock : v.lock = some i ∨ v.lock = none) : (v.tail i).Inv :=
  h.move hlock rfl rfl rfl rfl rfl (fun hh => by cases hh) .idle

theorem Inv.fail (h : v.Inv) (hlock : v.lock = some i) : (v.fail i t).Inv := by
  cases t with
  | initial | submitter =>
      exact h.move (.inl hlock) rfl rfl rfl rfl rfl (fun hh => by cases hh) .idle
  | callback => exact h.move (.inl hlock) rfl rfl rfl rfl rfl (fun hh => by cases hh) .idle

theorem Inv.submitFailed (h : v.Inv) (hlock : v.lock = some i ∨ v.lock = none) :
    (v.submitFailed i t).Inv := by
  cases t with
  | initial | submitter =>
      exact h.move hlock rfl rfl rfl rfl rfl (fun hh => by cases hh) .idle
  | callback => exact h.move hlock rfl rfl rfl rfl rfl (fun hh => by cases hh) .idle

theorem Inv.submitted (h : v.Inv) (hlock : v.lock = some i) : (v.submitted i t).Inv := by
  cases t with
  | initial k own => exact h.go hlock (.free rfl rfl rfl)
  | submitter => exact h.move (.inl hlock) rfl rfl rfl rfl rfl (fun hh => by cases hh) .idle
  | callback j own again =>
      cases again with
      | true => exact h.move (.inl hlock) rfl rfl rfl rfl rfl (fun hh => by cases hh) .idle
      | false => exact h.tail (.inl hlock)

/-! ### One lemma for each stretch -/

section

variable (h : v.Inv)

include h

theorem Inv.looping (hlock : v.lock = some i) (k : ℕ) : (v.looping i k).Inv := by
  unfold TxGenerations.looping
  split
  · exact h.drop hlock rfl .idle
  · exact h.move (.inl hlock) rfl rfl rfl rfl rfl (fun _ => hlock) (.snapshot rfl rfl rfl rfl rfl)

theorem Inv.asking (hlock : v.lock = some i) {k : ℕ}
    (hfits : v.Fits (.asking k own)) : (v.asking i k own a).Inv := by
  unfold TxGenerations.asking
  split
  · exact h.move (.inl hlock) rfl rfl rfl rfl rfl (fun hh => by cases hh) .idle
  · exact h.move (.inl hlock) rfl rfl rfl rfl rfl (fun _ => hlock) (.free rfl rfl rfl)
  · exact h.go hlock (hfits.same rfl rfl (.inl rfl) (.inl rfl) rfl)

theorem Inv.entered (hlock : v.lock = some i)
    (hfits : v.Fits (.entered own nonblock)) : (v.entered i own nonblock a).Inv := by
  unfold TxGenerations.entered
  split
  · exact h.go hlock (hfits.same rfl rfl (.inl rfl) (.inl rfl) rfl)
  · split
    · exact h.go hlock (hfits.same rfl rfl (.inl rfl) (.inl rfl) rfl)
    · exact h.fail hlock

theorem Inv.starting (hlock : v.lock = some i)
    (hfits : v.Fits (.starting own nonblock)) : (v.starting i own nonblock a).Inv := by
  unfold TxGenerations.starting
  split
  · split
    · exact h.fail hlock
    · exact h.drop hlock rfl (hfits.same rfl rfl (.inl rfl) (.inl rfl) rfl)
  · split
    · exact h.go hlock (hfits.same rfl rfl (.inl rfl) (.inl rfl) rfl)
    · split
      · exact h.go hlock (hfits.same rfl rfl (.inl rfl) (.inl rfl) rfl)
      · exact h.fail hlock

theorem Inv.late (hlock : v.lock = some i)
    (hfits : v.Fits (.late own nonblock)) : (v.late i own nonblock a).Inv := by
  unfold TxGenerations.late
  split
  · exact h.fail hlock
  · split
    · rename_i hne
      exact (h.reject hne).fail hlock
    · exact h.go hlock (hfits.same rfl rfl (.inl rfl) (.inl rfl) rfl)

theorem Inv.backend (hlock : v.lock = some i)
    (hfits : v.Fits (.backend own nonblock)) : (v.backend i own nonblock a).Inv := by
  unfold TxGenerations.backend
  dsimp only
  split
  · exact h.fail hlock
  · split
    · exact h.drop hlock rfl (hfits.same rfl rfl (.inl rfl) (.inl rfl) rfl)
    · split
      · exact h.fail hlock
      · split
        · exact h.go hlock (hfits.same rfl rfl (.inl rfl) (.inl rfl) rfl)
        · split
          · exact h.fail hlock
          · split
            · rename_i hne
              exact (h.reject hne).fail hlock
            · rename_i heq
              exact h.go hlock (.send h hfits rfl rfl (not_not.mp heq))

theorem Inv.completed (hlock : v.lock = some i)
    (hfits : v.Fits (.completed j own)) : (v.completed i j own).Inv := by
  unfold TxGenerations.completed
  split
  · exact h.tail (.inl hlock)
  · refine h.move (.inl hlock) rfl rfl rfl rfl rfl (fun _ => hlock) ⟨hfits.own, hfits.inherited,
      (fun g hg => by cases hg), (fun g hg => by cases hg), fun o ho => ?_⟩
    have hle := hfits.own own rfl
    by_cases hne : own = v.board
    · rw [decide_eq_false (not_not.mpr hne)] at ho
      cases ho
    · obtain rfl : own = o := Option.some.inj ((TxGenPc.own_of_staleOwn ho))
      exact lt_of_le_of_ne hle hne

theorem Inv.called (hlock : v.lock = some i) {stale : Bool}
    (hfits : v.Fits (.called j own stale)) : (v.called i j own stale a).Inv := by
  unfold TxGenerations.called
  split
  · split
    · rename_i hstale
      have hne : own ≠ v.board := by
        rcases hstale with hs | hne
        · subst hs
          exact (hfits.stale own rfl).ne
        · exact hne
      exact (h.reject hne).fail hlock
    · exact h.go hlock (hfits.same rfl rfl (.inl rfl) (.inl rfl) rfl)
  · exact h.fail hlock
  · split
    · exact h.fail hlock
    · exact h.move (.inl hlock) rfl rfl rfl rfl rfl (fun hh => by cases hh) .idle

end

omit [DecidableEq ι] in
theorem Inv.slot_eq (h : v.Inv) (hle : own ≤ v.slotGeneration j)
    (hcurrent : own = v.board) : v.slotGeneration j = v.board :=
  le_antisymm (h.slots j) (hcurrent ▸ hle)

theorem Inv.requeue (h : v.Inv) (hlock : v.lock = some i)
    (hfits : v.Fits (.requeue j own)) : (v.requeue i j own).Inv := by
  unfold TxGenerations.requeue
  split
  · rename_i hne
    exact (h.reject hne).fail hlock
  · rename_i heq
    exact h.go hlock
      (.send h hfits rfl rfl (h.slot_eq (hfits.inherited j own rfl) (not_not.mp heq)))

theorem Inv.validate (h : v.Inv) (hlock : v.lock = some i) (hfits : v.Fits (.validate t)) :
    (v.validate i t a).Inv := by
  unfold TxGenerations.validate
  split
  · exact h.fail hlock
  · exact h.move (.inl hlock) rfl rfl rfl rfl rfl (fun _ => hlock) hfits.anchor

omit [DecidableEq ι] in
theorem Fits.outdated (h : v.Fits p) (hbasis : p.basis = some g) (hown : p.own = some t.own)
    (hne : g ≠ v.board) : t.own ≠ v.board := by
  obtain ⟨hle, hall⟩ := h.basis g hbasis
  exact ((hall t.own hown).trans_lt (lt_of_le_of_ne hle hne)).ne

section

variable (h : v.Inv)

include h

theorem Inv.anchored (hlock : v.lock = some i)
    (hfits : v.Fits (.anchored t g)) : (v.anchored i t g a).Inv := by
  unfold TxGenerations.anchored
  split
  · exact h.fail hlock
  · split
    · rename_i hne
      exact (h.reject (hfits.outdated rfl rfl hne)).fail hlock
    · exact h.drop hlock rfl (hfits.same rfl rfl (.inr rfl) (.inl rfl) rfl)

theorem Inv.checked (hlock : v.lock = some i) {before : StreamState} {ok : Bool}
    (hfits : v.Fits (.checked t g before ok)) : (v.checked i t g before ok).Inv := by
  unfold TxGenerations.checked
  split
  · exact h.fail hlock
  · split
    · rename_i hne
      exact (h.reject (hfits.outdated rfl rfl hne)).fail hlock
    · split
      · exact h.fail hlock
      · exact h.go hlock (hfits.same rfl rfl (.inl rfl) (.inl rfl) rfl)

theorem Inv.passed (hlock : v.lock = some i) (hfits : v.Fits (.passed t))
    (hfield : ∀ k own, t = .initial k own → own ≠ v.board ∨ v.field = v.board) :
    (v.passed i t a).Inv := by
  unfold TxGenerations.passed
  split
  · rename_i k own
    split
    · rename_i hne
      exact (h.reject ((hfield k own rfl).resolve_right hne)).fail hlock
    · rename_i heq
      split
      · exact h.move (.inl hlock) rfl rfl rfl rfl rfl (fun hh => by cases hh) .idle
      · exact h.go hlock (.send h hfits rfl rfl (not_not.mp heq))
  · exact h.go hlock (hfits.same rfl rfl (.inl rfl) (.inl rfl) rfl)
  · exact h.go hlock (hfits.same rfl rfl (.inl rfl) (.inl rfl) rfl)
  · split
    · rename_i hne
      exact (h.reject hne).fail hlock
    · rename_i heq
      exact h.go hlock (.send h hfits rfl rfl (not_not.mp heq))
  · rename_i j own again
    split
    · rename_i hne
      exact (h.reject hne).fail hlock
    · rename_i heq
      split
      · exact h.fail hlock
      · exact h.move (.inl hlock) rfl rfl rfl rfl rfl (fun _ => hlock)
          (.send h hfits rfl rfl (h.slot_eq (hfits.inherited j own rfl) (not_not.mp heq)))

theorem Inv.submit (hlock : v.lock = some i) (hpc : v.pc i = .submit t g) :
    (v.submit i t g).Inv := by
  unfold TxGenerations.submit
  split
  · exact h.submitFailed (.inl hlock)
  · rename_i j hj
    obtain ⟨hle, -, hnew⟩ := (h.fits i).sending g (by rw [hpc]; rfl)
    have hslot : (v.setSlot j ⟨true, g⟩).Inv := h.setSlot j hle fun k o ho => hnew k j o ho
    have hfits : (v.setSlot j ⟨true, g⟩).Fits (.submit t g) := hpc ▸ hslot.fits i
    exact hslot.move (.inl hlock) rfl rfl rfl rfl rfl (fun _ => hlock)
      (hfits.same rfl rfl (.inl rfl) (.inr rfl) rfl)

theorem Inv.leasing (hlock : v.lock = some i)
    (hfits : v.Fits (.leasing t j g)) : (v.leasing i t j g a).Inv := by
  unfold TxGenerations.leasing
  split
  · rename_i hlease
    have hhanded : ({ v with handed := v.handed ++ [(g, v.board)] } : TxGenerations ι).Inv := by
      refine ⟨fun k => ⟨(h.fits k).own, (h.fits k).inherited, (h.fits k).basis, (h.fits k).sending,
        (h.fits k).stale⟩, h.slots, h.held, ⟨fun x hx => ?_, h.exact.rejected⟩⟩
      rcases List.mem_append.mp hx with hx | hx
      · exact h.exact.handed x hx
      · rw [List.mem_singleton.mp hx]
        exact hlease.1
    have hfits' : ({ v with handed := v.handed ++ [(g, v.board)] } : TxGenerations ι).Fits
        (.leasing t j g) := ⟨hfits.own, hfits.inherited, hfits.basis, hfits.sending, hfits.stale⟩
    exact hhanded.drop hlock rfl (hfits'.same rfl rfl (.inl rfl) (.inl rfl) rfl)
  · have hfree : ({ v.free j with i := j } : TxGenerations ι).Inv := (h.free j).frame
    obtain ⟨hle, hown, -⟩ := hfits.sending g rfl
    dsimp only
    split
    · rename_i hne
      have hold : t.own ≠ v.board := ((hown t.own rfl).trans_lt (lt_of_le_of_ne hle hne)).ne
      exact (hfree.reject hold).submitFailed (.inl hlock)
    · exact hfree.submitFailed (.inl hlock)

theorem Inv.run (hlock : v.lock = some i) (hfield : v.fieldKept (.run i a) = true)
    (hs : v.run i a (v.pc i) = some w) : w.Inv := by
  have hfits := h.fits i
  have hfield' : ∀ k own, v.pc i = .passed (.initial k own) →
      own ≠ v.board ∨ v.field = v.board := by
    intro k own hpc
    simpa [fieldKept, hpc] using hfield
  cases hpc : v.pc i with
  | looping k => rw [hpc] at hs; cases hs; exact h.looping hlock k
  | asking k own => rw [hpc] at hs hfits; cases hs; exact h.asking hlock hfits
  | entered own nonblock => rw [hpc] at hs hfits; cases hs; exact h.entered hlock hfits
  | starting own nonblock => rw [hpc] at hs hfits; cases hs; exact h.starting hlock hfits
  | late own nonblock => rw [hpc] at hs hfits; cases hs; exact h.late hlock hfits
  | backend own nonblock => rw [hpc] at hs hfits; cases hs; exact h.backend hlock hfits
  | completed j own => rw [hpc] at hs hfits; cases hs; exact h.completed hlock hfits
  | called j own stale => rw [hpc] at hs hfits; cases hs; exact h.called hlock hfits
  | requeue j own => rw [hpc] at hs hfits; cases hs; exact h.requeue hlock hfits
  | validate t => rw [hpc] at hs hfits; cases hs; exact h.validate hlock hfits
  | anchored t g => rw [hpc] at hs hfits; cases hs; exact h.anchored hlock hfits
  | checked t g before ok => rw [hpc] at hs hfits; cases hs; exact h.checked hlock hfits
  | passed t =>
      rw [hpc] at hs hfits
      cases hs
      exact h.passed hlock hfits fun k own ht => hfield' k own (ht ▸ hpc)
  | submit t g => rw [hpc] at hs; cases hs; exact h.submit hlock hpc
  | leasing t j g => rw [hpc] at hs hfits; cases hs; exact h.leasing hlock hfits
  | returned t => rw [hpc] at hs; cases hs; exact h.submitted hlock
  | idle | sleepingStart | sleepingTransfer | checking | usb => rw [hpc] at hs; cases hs

theorem Inv.resume (hlock : v.lock = none) (hs : v.resume i a (v.pc i) = some w) :
    w.Inv := by
  have hfits := h.fits i
  cases hpc : v.pc i with
  | sleepingStart own nonblock =>
      rw [hpc] at hs hfits
      cases hs
      exact h.take hlock (hfits.same rfl rfl (.inl rfl) (.inl rfl) rfl)
  | sleepingTransfer own nonblock =>
      rw [hpc] at hs hfits
      cases hs
      exact h.take hlock (hfits.same rfl rfl (.inl rfl) (.inl rfl) rfl)
  | checking t g before =>
      rw [hpc] at hs hfits
      cases hs
      exact h.take hlock (hfits.same rfl rfl (.inr rfl) (.inl rfl) rfl)
  | usb t j =>
      rw [hpc] at hs hfits
      cases hs
      split
      · exact h.take hlock (hfits.same rfl rfl (.inl rfl) (.inl rfl) rfl)
      · have hfree : ({ v.free j with i := j } : TxGenerations ι).Inv := (h.free j).frame
        exact hfree.submitFailed (.inr hlock)
  | _ => rw [hpc] at hs; cases hs

theorem Inv.completion (hlock : v.lock = none) (j : ℕ) (c : TxCompletion) :
    (v.completion i j c).Inv := by
  have hw : ({ v.free j with cbActive := v.cbActive + 1 } : TxGenerations ι).Inv := (h.free j).frame
  have hfits : ∀ p : TxGenPc, p.own = some (v.slotGeneration j) →
      p.inherited = some (j, v.slotGeneration j) → p.basis = none → p.sending = none →
      p.staleOwn = none →
        ({ v.free j with cbActive := v.cbActive + 1 } : TxGenerations ι).Fits p := by
    intro p hown hinherited hbasis hsending hstale
    refine ⟨fun o ho => ?_, fun j' o ho => ?_, fun g hg => ?_, fun g hg => ?_, fun o ho => ?_⟩
    · rw [hown] at ho
      exact Option.some.inj ho ▸ h.slots j
    · rw [hinherited] at ho
      obtain ⟨rfl, rfl⟩ := Prod.mk.inj (Option.some.inj ho)
      exact (congrFun (slotGeneration_free j) j).ge
    · rw [hbasis] at hg
      cases hg
    · rw [hsending] at hg
      cases hg
    · rw [hstale] at ho
      cases ho
  unfold TxGenerations.completion
  cases c with
  | completed => exact hw.take hlock (hfits _ rfl rfl rfl rfl rfl)
  | stalled =>
      dsimp only
      split
      · exact hw.take hlock (hfits _ rfl rfl rfl rfl rfl)
      · exact hw.frame.tail (.inr hlock)
  | other => exact hw.frame.tail (.inr hlock)

end

omit [DecidableEq ι] in
theorem Inv.boardChange (h : v.Inv) : ({ v with board := v.board + 1 } : TxGenerations ι).Inv := by
  refine ⟨fun k => ?_, fun j => (h.slots j).trans (Nat.le_succ _), h.held,
    ⟨h.exact.handed, h.exact.rejected⟩⟩
  have hk := h.fits k
  refine ⟨fun o ho => (hk.own o ho).trans (Nat.le_succ _), hk.inherited, fun g hg => ?_,
    fun g hg => ?_, fun o ho => (hk.stale o ho).trans (Nat.lt_succ_self _)⟩
  · exact ⟨(hk.basis g hg).1.trans (Nat.le_succ _), (hk.basis g hg).2⟩
  · exact ⟨(hk.sending g hg).1.trans (Nat.le_succ _), (hk.sending g hg).2⟩

theorem Inv.step (h : v.Inv) {l : TxGenLabel ι} (hfield : v.fieldKept l = true)
    (hs : v.step l = some w) : w.Inv := by
  cases l with
  | boardChange => cases hs; exact h.boardChange
  | initialLoop i =>
      simp only [TxGenerations.step] at hs
      split at hs <;> cases hs
      rename_i hc
      exact h.take hc.2 (.free rfl rfl rfl)
  | submitBuffer i nonblock =>
      simp only [TxGenerations.step] at hs
      split at hs <;> cases hs
      rename_i hc
      exact h.move (.inr hc.2) rfl rfl rfl rfl rfl (fun _ => rfl) (.snapshot rfl rfl rfl rfl rfl)
  | complete i j c =>
      simp only [TxGenerations.step] at hs
      split at hs <;> cases hs
      rename_i hc
      exact h.completion hc.2.1 j c
  | run i a =>
      simp only [TxGenerations.step] at hs
      refine h.run ?_ hfield hs
      apply h.held
      cases hpc : v.pc i <;> first | rfl | (rw [hpc] at hs; cases hs)
  | relock i a =>
      simp only [TxGenerations.step] at hs
      split at hs
      · rename_i hlock
        exact h.resume hlock hs
      · cases hs
  | shutdown =>
      simp only [TxGenerations.step] at hs
      split at hs <;> cases hs
      exact h.frame

structure Start (v : TxGenerations ι) : Prop where
  idle : ∀ i, v.pc i = .idle
  slots : ∀ s ∈ v.slots, s.generation ≤ v.board
  handed : v.handed = []
  rejected : v.rejected = []

omit [DecidableEq ι] in
theorem Start.inv (h : v.Start) : v.Inv where
  fits i := h.idle i ▸ .idle
  slots j := by
    unfold slotGeneration
    cases hj : v.slots[j]? with
    | none => exact Nat.zero_le _
    | some s => exact h.slots s (List.mem_of_getElem? hj)
  held i hi := by
    rw [h.idle i] at hi
    cases hi
  exact := by
    refine ⟨fun x hx => ?_, fun x hx => ?_⟩
    · rw [h.handed] at hx
      cases hx
    · rw [h.rejected] at hx
      cases hx

/-- In every run in which the initial loop finds its generation in the field,
whenever it is still that of the board, the generations are exact. -/
theorem generations_exact (h : v.Start) {ls : List (TxGenLabel ι)}
    (hrun : Lib.Steps step (fun v l => v.fieldKept l = true) v ls w) : w.Exact :=
  (hrun.invariant h.inv fun hi hok hs => hi.step hok hs).exact

inductive TxThread
  | starter
  | other
  deriving DecidableEq

/-- A running stream of two transfers; the board is at generation 1. -/
def twoTransfers : TxGenerations TxThread where
  board := 1
  field := 0
  state := .running
  slots := [⟨false, 0⟩, ⟨false, 0⟩]
  i := 0
  cbActive := 0
  lock := none
  pc := fun _ => .idle
  handed := []
  rejected := []

theorem twoTransfers_start : twoTransfers.Start :=
  ⟨fun _ => rfl, by decide, rfl, rfl⟩

def willing : TxAnswers := ⟨true, true, .buffer [], true, true⟩

/-- The initial loop, up to the timestamp check of its first buffer. -/
def firstChecked : List (TxGenLabel TxThread) :=
  .initialLoop .starter :: List.replicate 4 (.run .starter willing)

/-- … and from there to its end, with one buffer. -/
def firstSubmitted : List (TxGenLabel TxThread) :=
  .relock .starter willing :: List.replicate 4 (.run .starter willing)

/-- The first buffer is sent; the board changes, and the replacement of the
buffer is rejected. -/
theorem generations_exact_change : ∃ w,
    Lib.Steps step (fun v l => v.fieldKept l = true) twoTransfers
      (firstChecked ++ firstSubmitted ++ [TxGenLabel.boardChange, .complete .other 0 .completed,
        .run .other willing, .run .other willing]) w ∧
      w.Exact ∧ w.handed = [(1, 1)] ∧ w.rejected = [(1, 2)] := by
  have hexec : (Lib.exec step (fun v l => v.fieldKept l = true) twoTransfers
    (firstChecked ++ firstSubmitted ++ [TxGenLabel.boardChange, .complete .other 0 .completed,
      .run .other willing, .run .other willing])).map (fun w => (w.handed, w.rejected)) =
        some ([(1, 1)], [(1, 2)]) := by rfl
  obtain ⟨w, hw, hlog⟩ := Option.map_eq_some_iff.mp hexec
  have hrun := Lib.Steps.of_exec hw
  exact ⟨w, hrun, generations_exact twoTransfers_start hrun, (Prod.mk.inj hlog).1,
    (Prod.mk.inj hlog).2⟩

/-- While the timestamp of the first buffer is checked, the application submits
a buffer of its own; its last write to the field is 0. -/
def anotherBuffer : List (TxGenLabel TxThread) :=
  TxGenLabel.submitBuffer .other true :: List.replicate 6 (TxGenLabel.run .other willing) ++
    [TxGenLabel.relock .other willing, .run .other willing]

/-- The buffer of the initial loop is then rejected under the generation that it
was admitted with. -/
theorem rejected_without_change : ¬ ∀ (v w : TxGenerations TxThread)
    (ls : List (TxGenLabel TxThread)), v.Start → Lib.Steps step (fun _ _ => True) v ls w →
      w.Exact := by
  intro hall
  have hexec : (Lib.exec step (fun _ _ => True) twoTransfers
      (firstChecked ++ anotherBuffer ++ [TxGenLabel.relock .starter willing, .run .starter willing,
        .run .starter willing])).map (·.rejected) = some [(1, 1)] := by rfl
  obtain ⟨w, hw, hlog⟩ := Option.map_eq_some_iff.mp hexec
  have hexact := (hall twoTransfers w _ twoTransfers_start (.of_exec hw)).rejected (1, 1)
    (by rw [hlog]; exact List.mem_singleton_self _)
  exact hexact rfl

end TxGenerations
end BladeRF.Usb
