/-
# `Board.RxReservation` — who may reconfigure RX

`rf_transition_setter_active` keeps transitions and setters apart while `dev->lock`
is released: a legacy setter reserves in `bladerf2_rx_data_invalidate` and gives
back in `bladerf2_rx_reconfigure_complete`, and `bladerf_rx_capture_close` and the
fault monitor reserve for themselves.  The flag has no owner, and several
sections clear it that never set it.  Those of a transition are harmless as long
as the transition is pending, because a pending transition keeps everybody else
out; the last completion of an async stream has no such protection.

A step is one critical section of `dev->lock`, with what the device answered
since the section before it.
-/
import BladeRF.Lib.Steps
import BladeRF.Lib.Locks
import BladeRF.Lib.Reservation
import Mathlib.Data.Fintype.Basic

namespace BladeRF

/-! ## The board and the calls -/

/-- The part of `struct bladerf2_board_data` that the reservation is made of. -/
structure RxReservation where
  pending : Bool
  waiting : Bool
  currentId : BitVec 32
  nextId : BitVec 32
  setterActive : Bool

/-- The setters, by what they do between `bladerf2_rx_data_invalidate` and
`bladerf2_rx_reconfigure_complete`. -/
inductive RxReconfigurer
  /-- any number of sections -/
  | setter
  /-- `bladerf_set_rx_fpga_iqcor_mask`, `bladerf_set_rx_fpga_dcfilt_mask` and
  `bladerf_set_rx_fpga_adc_enable_mask` -/
  | fpgaMask
  /-- `bladerf_set_rx_tracking_config` and its like, which return without
  completing while the RFIC is busy -/
  | guarded
  | stream
  deriving DecidableEq

/-- The sections of `_bladerf_rx_transition_begin` behind the allocation. -/
inductive RxBeginSection
  | cancelScheduledRetunes
  | epochId
  | quickTune
  | hostTune
  | spiTrace
  | readback
  deriving DecidableEq

def RxBeginSection.sequence : List RxBeginSection :=
  [.cancelScheduledRetunes, .epochId, .quickTune, .hostTune, .spiTrace, .readback]

def RxBeginSection.optional : RxBeginSection → Bool
  | .cancelScheduledRetunes | .epochId | .quickTune | .hostTune => true
  | .spiTrace | .readback => false

inductive ReservePc
  | idle
  /-- in `bladerf2_rx_data_invalidate`, which has reserved: the host fence -/
  | fence (c : RxReconfigurer)
  /-- in `bladerf2_rx_data_invalidate`: the FPGA abort and the spatial FIR -/
  | gate (c : RxReconfigurer)
  | body (c : RxReconfigurer)
  /-- before `bladerf2_rx_reconfigure_complete` -/
  | complete
  /-- in `bladerf2_stream`, before its early release -/
  | streamRelease
  | streaming
  /-- before the last completion of `bladerf_stream` -/
  | streamEnd
  /-- in `bladerf_rx_capture_close`, which has reserved -/
  | closing
  /-- in `_invalidate_faulted_rx_epoch`, which has reserved -/
  | faulted
  | allocate
  | begin (id : BitVec 32) (rest : List RxBeginSection)
  | wait (id : BitVec 32)
  | abort (id : BitVec 32)
  deriving DecidableEq

inductive ReserveCall
  | invalidate (c : RxReconfigurer) (retuneOutcomeUnknown : Bool)
  | captureClose (certified : Bool)
  /-- the monitor, with `true` for an observation of the certified epoch -/
  | faultedEpoch (current : Bool)
  | begin (sweepActive : Bool)
  | wait (id : BitVec 32)

/-- What the device answered, as far as the next section depends on it. -/
inductive ReserveAnswer
  | ok
  | fail
  /-- not taken, or nothing to do yet -/
  | skip
  deriving DecidableEq

/-! ## Sections -/

/-- `dev->lock`. -/
abbrev DevLockOp : Type := Lib.LockOp Unit

def withMutex : List DevLockOp := [.lock (), .unlock ()]

/-- `WITH_MUTEX(&dev->lock, … MUTEX_UNLOCK(__lock) …)`, without a `return`. -/
def withMutexUnlocked : List DevLockOp := [.lock (), .unlock (), .unlock ()]

def bladerf2RxConfigInvalidationBlocked (transitionPending setterActive retuneOutcomeUnknown : Bool) :
    Bool :=
  transitionPending || setterActive || retuneOutcomeUnknown

def rxTransitionNextTransactionId (previousId : BitVec 32) : BitVec 32 :=
  if previousId = 0xffffffff#32 then 1 else previousId + 1

/-- What a section leaves: the board, the thread and its use of the lock. -/
structure SectionEnd where
  board : RxReservation
  pc : ReservePc
  ops : List DevLockOp

namespace RxReservation

variable (b : RxReservation)

def reserve : RxReservation := { b with setterActive := true }

/-- `bladerf2_rx_reconfigure_complete`. -/
def release : RxReservation := { b with setterActive := false }

def finish : RxReservation := { b with pending := false, waiting := false, setterActive := false }

def allocate : RxReservation :=
  let id := rxTransitionNextTransactionId b.nextId
  { b with nextId := id, currentId := id, pending := true, waiting := false }

def beginSection : RxBeginSection → RxReservation
  | .hostTune => b.reserve.release
  | _ => b

def call : ReserveCall → SectionEnd
  | .invalidate c retuneOutcomeUnknown =>
      if bladerf2RxConfigInvalidationBlocked b.pending b.setterActive retuneOutcomeUnknown then
        ⟨b, .idle, withMutex⟩
      else ⟨b.reserve, .fence c, withMutex⟩
  | .captureClose certified =>
      if b.pending || b.setterActive then ⟨b, .idle, withMutex⟩
      else if !certified then ⟨b, .idle, withMutex⟩
      else ⟨b.reserve, .closing, withMutex⟩
  | .faultedEpoch current =>
      if !b.pending && !b.setterActive && current then ⟨b.reserve, .faulted, withMutex⟩
      else ⟨b, .idle, withMutex⟩
  | .begin sweepActive =>
      if sweepActive then ⟨b, .idle, withMutex⟩ else ⟨b, .allocate, withMutex⟩
  | .wait id =>
      if b.pending && b.currentId = id then
        if b.waiting then ⟨b, .idle, withMutex⟩
        else ⟨{ b with waiting := true }, .wait id, withMutex⟩
      else ⟨b, .idle, withMutex⟩

/-- The next section of the body of a setter.  The three masks and the guarded
setters fail while the RFIC is busy. -/
def body : RxReconfigurer → ReserveAnswer → SectionEnd
  | .setter, .skip => ⟨b, .complete, []⟩
  | .setter, _ => ⟨b, .body .setter, withMutex⟩
  | .fpgaMask, .ok => ⟨b, .complete, withMutex⟩
  | .fpgaMask, _ => ⟨b, .complete, withMutexUnlocked⟩
  | .guarded, .ok => ⟨b, .complete, withMutex⟩
  | .guarded, _ => ⟨b, .idle, withMutex⟩
  | .stream, .ok => ⟨b, .streamRelease, withMutex⟩
  | .stream, _ => ⟨b, .complete, withMutex⟩

def resume : ReservePc → ReserveAnswer → Option SectionEnd
  | .idle, _ => none
  | .fence c, .ok => some ⟨b, .gate c, withMutex⟩
  | .fence _, _ => some ⟨b.release, .idle, withMutex⟩
  | .gate c, .ok => some ⟨b, .body c, []⟩
  | .gate _, _ => some ⟨b.release, .idle, withMutex⟩
  | .body c, a => some (b.body c a)
  | .complete, _ => some ⟨b.release, .idle, withMutex⟩
  | .streamRelease, _ => some ⟨b.release, .streaming, withMutex⟩
  | .streaming, _ => some ⟨b, .streamEnd, withMutex⟩
  | .streamEnd, _ => some ⟨b.release, .idle, withMutex⟩
  | .closing, _ => some ⟨b.release, .idle, withMutex⟩
  | .faulted, _ => some ⟨b.release, .idle, withMutex⟩
  | .allocate, .ok =>
      if b.pending || b.setterActive then some ⟨b, .idle, withMutex⟩
      else some ⟨b.allocate, .begin b.allocate.currentId RxBeginSection.sequence, withMutex⟩
  | .allocate, _ => some ⟨b, .idle, withMutex⟩
  | .begin txn _, .fail => some ⟨b, .abort txn, []⟩
  | .begin _ [], _ => some ⟨b, .idle, []⟩
  | .begin txn (sect :: rest), .ok => some ⟨b.beginSection sect, .begin txn rest, withMutex⟩
  | .begin txn (sect :: rest), .skip =>
      if sect.optional then some ⟨b, .begin txn rest, []⟩ else none
  | .wait _, .ok => some ⟨b.finish, .idle, withMutex⟩
  | .wait txn, .skip => some ⟨b, .wait txn, withMutex⟩
  | .wait txn, .fail => some ⟨b, .abort txn, []⟩
  | .abort _, _ => some ⟨b.finish, .idle, withMutex⟩

end RxReservation

/-! ## Runs -/

/-- The board, its threads, and what each thread has done to `dev->lock`. -/
structure Reserving (θ : Type) where
  board : RxReservation
  pc : θ → ReservePc
  locks : θ → List DevLockOp

inductive ReserveLabel (θ : Type)
  | call (k : θ) (c : ReserveCall)
  | run (k : θ) (a : ReserveAnswer)

namespace ReservePc

def Holds : ReservePc → Prop
  | .fence _ | .gate _ | .body _ | .complete | .streamRelease | .closing | .faulted => True
  | _ => False

def Begun : ReservePc → Prop
  | .begin _ _ => True
  | _ => False

/-- The transition that the next section of the thread belongs to. -/
def transaction : ReservePc → Option (BitVec 32)
  | .begin id _ | .wait id | .abort id => some id
  | _ => none

end ReservePc

namespace Reserving

variable {θ : Type} [DecidableEq θ] (s : Reserving θ)

def after (k : θ) (e : SectionEnd) : Reserving θ where
  board := e.board
  pc := Function.update s.pc k e.pc
  locks := Function.update s.locks k (s.locks k ++ e.ops)

def step (s : Reserving θ) : ReserveLabel θ → Option (Reserving θ)
  | .call k c => if s.pc k = .idle then some (s.after k (s.board.call c)) else none
  | .run k a => (s.board.resume (s.pc k) a).map (s.after k)

def start (nextId : BitVec 32) : Reserving θ where
  board := ⟨false, false, 0, nextId, false⟩
  pc _ := .idle
  locks _ := []

/-- A section of a thread that the flag still protects: the last completion of a
stream finds the reservation clear, a transition finds itself pending, and the
masks are not set while the RFIC is busy. -/
def protectedSection (p : ReservePc) (a : ReserveAnswer) (b : RxReservation) : Bool :=
  match p with
  | .streamEnd => !b.setterActive
  | .body .fpgaMask => a = .ok
  | p => p.transaction.all fun id => b.pending && b.currentId = id

def protectedStep : ReserveLabel θ → Bool
  | .call _ _ => true
  | .run k a => protectedSection (s.pc k) a s.board

end Reserving

/-! ## What a section may do -/

/-- A section keeps the flag exclusive and apart from a transition, and gives
back the lock it takes. -/
structure SectionEnd.Fair (b : RxReservation) (p : ReservePc) (e : SectionEnd) : Prop where
  turn : Lib.Turn ReservePc.Holds b.setterActive p e.board.setterActive e.pc
  apart : e.board.pending = true → e.board.setterActive = false
  locks : Lib.lockOps ∅ e.ops = some ∅
  begun : e.pc.Begun → ¬ p.Begun → b.setterActive = false

theorem lockOps_withMutex : Lib.lockOps ∅ withMutex = some ∅ := by decide

namespace SectionEnd.Fair

variable {b : RxReservation} {p q : ReservePc} {ops : List DevLockOp}

theorem look (hapart : b.pending = true → b.setterActive = false) (hq : q.Holds → p.Holds)
    (hbegun : q.Begun → p.Begun) (hlocks : Lib.lockOps ∅ ops = some ∅) :
    Fair b p ⟨b, q, ops⟩ where
  turn := .keep hq
  apart := hapart
  locks := hlocks
  begun hq hp := absurd (hbegun hq) hp

theorem reserve (hflag : b.setterActive = false) (hpending : b.pending = false)
    (hbegun : ¬ q.Begun) : Fair b p ⟨b.reserve, q, withMutex⟩ where
  turn := .take hflag
  apart hp := absurd (hpending.symm.trans hp) (by decide)
  locks := lockOps_withMutex
  begun hq := absurd hq hbegun

theorem release (hp : p.Holds) (hq : ¬ q.Holds) (hbegun : ¬ q.Begun) :
    Fair b p ⟨b.release, q, withMutex⟩ where
  turn := .release hp hq
  apart _ := rfl
  locks := lockOps_withMutex
  begun hq := absurd hq hbegun

theorem clear {b' : RxReservation} (hflag : b.setterActive = false)
    (hflag' : b'.setterActive = false) (hq : ¬ q.Holds) (hbegun : q.Begun → p.Begun) :
    Fair b p ⟨b', q, withMutex⟩ where
  turn := .of_eq (hflag'.trans hflag.symm) fun h => absurd h hq
  apart _ := hflag'
  locks := lockOps_withMutex
  begun hq hp := absurd (hbegun hq) hp

end SectionEnd.Fair

namespace RxReservation

variable {b : RxReservation}

section

variable (hapart : b.pending = true → b.setterActive = false)

include hapart

theorem call_fair (c : ReserveCall) :
    (b.call c).Fair b .idle := by
  have hstay : ∀ q : ReservePc, ¬ q.Holds → ¬ q.Begun → SectionEnd.Fair b .idle ⟨b, q, withMutex⟩ :=
    fun q hq hbegun => .look hapart (fun h => absurd h hq) (fun h => absurd h hbegun)
      lockOps_withMutex
  cases c with
  | invalidate c retuneOutcomeUnknown =>
      simp only [call]
      split
      · exact hstay _ id id
      · rename_i hfree
        simp only [bladerf2RxConfigInvalidationBlocked, Bool.not_eq_true, Bool.or_eq_false_iff]
          at hfree
        exact .reserve hfree.1.2 hfree.1.1 id
  | captureClose certified =>
      simp only [call]
      split
      · exact hstay _ id id
      · rename_i hfree
        simp only [Bool.not_eq_true, Bool.or_eq_false_iff] at hfree
        split
        · exact hstay _ id id
        · exact .reserve hfree.2 hfree.1 id
  | faultedEpoch current =>
      simp only [call]
      split
      · rename_i hfree
        simp only [Bool.and_eq_true, Bool.not_eq_eq_eq_not, Bool.not_true] at hfree
        exact .reserve hfree.1.2 hfree.1.1 id
      · exact hstay _ id id
  | begin sweepActive =>
      simp only [call]
      split
      · exact hstay _ id id
      · exact hstay _ id id
  | wait txn =>
      simp only [call]
      split
      · split
        · exact hstay _ id id
        · exact ⟨.keep id, hapart, lockOps_withMutex, fun h => absurd h id⟩
      · exact hstay _ id id

theorem body_fair {c : RxReconfigurer}
    {a : ReserveAnswer} (hprotected : Reserving.protectedSection (.body c) a b = true) :
    (b.body c a).Fair b (.body c) := by
  have hstay : ∀ (q : ReservePc) (ops : List DevLockOp), ¬ q.Begun →
      Lib.lockOps ∅ ops = some ∅ → SectionEnd.Fair b (.body c) ⟨b, q, ops⟩ :=
    fun q ops hbegun hops => .look hapart (fun _ => trivial) (fun h => absurd h hbegun) hops
  cases c with
  | setter => cases a <;> exact hstay _ _ id (by decide)
  | fpgaMask =>
      obtain rfl : a = .ok := of_decide_eq_true hprotected
      exact hstay _ _ id lockOps_withMutex
  | guarded => cases a <;> exact hstay _ _ id lockOps_withMutex
  | stream => cases a <;> exact hstay _ _ id lockOps_withMutex

theorem resume_fair {p : ReservePc}
    {a : ReserveAnswer} {e : SectionEnd}
    (hprotected : Reserving.protectedSection p a b = true) (hs : b.resume p a = some e) :
    e.Fair b p := by
  have hpending : ∀ txn, p.transaction = some txn → b.setterActive = false := by
    intro txn htxn
    cases p <;> cases htxn <;> exact hapart (Bool.and_eq_true_iff.mp hprotected).1
  cases p with
  | idle => cases hs
  | fence c =>
      cases a <;> obtain rfl := Option.some.inj hs
      · exact .look hapart id id lockOps_withMutex
      · exact .release trivial id id
      · exact .release trivial id id
  | gate c =>
      cases a <;> obtain rfl := Option.some.inj hs
      · exact .look hapart id id rfl
      · exact .release trivial id id
      · exact .release trivial id id
  | body c =>
      obtain rfl := Option.some.inj hs
      exact body_fair hapart hprotected
  | complete =>
      obtain rfl := Option.some.inj hs
      exact .release trivial id id
  | streamRelease =>
      obtain rfl := Option.some.inj hs
      exact .release trivial id id
  | streaming =>
      obtain rfl := Option.some.inj hs
      exact .look hapart id id lockOps_withMutex
  | streamEnd =>
      obtain rfl := Option.some.inj hs
      have hflag : b.setterActive = false := by simpa [Reserving.protectedSection] using hprotected
      exact .clear hflag rfl id id
  | closing =>
      obtain rfl := Option.some.inj hs
      exact .release trivial id id
  | faulted =>
      obtain rfl := Option.some.inj hs
      exact .release trivial id id
  | allocate =>
      cases a with
      | ok =>
          simp only [resume] at hs
          split at hs
          · obtain rfl := Option.some.inj hs
            exact .look hapart id id lockOps_withMutex
          · rename_i hfree
            simp only [Bool.not_eq_true, Bool.or_eq_false_iff] at hfree
            obtain rfl := Option.some.inj hs
            exact ⟨.keep id, fun _ => hfree.2, lockOps_withMutex, fun _ _ => hfree.2⟩
      | fail =>
          obtain rfl := Option.some.inj hs
          exact .look hapart id id lockOps_withMutex
      | skip =>
          obtain rfl := Option.some.inj hs
          exact .look hapart id id lockOps_withMutex
  | begin txn rest =>
      have hflag := hpending txn rfl
      cases a with
      | fail =>
          simp only [resume] at hs
          obtain rfl := Option.some.inj hs
          exact .look hapart id (fun h => absurd h id) rfl
      | ok =>
          cases rest with
          | nil =>
              obtain rfl := Option.some.inj hs
              exact .look hapart id (fun h => absurd h id) rfl
          | cons sect rest =>
              obtain rfl := Option.some.inj hs
              have hflag' : (b.beginSection sect).setterActive = false := by
                cases sect <;> first | exact hflag | rfl
              exact .clear hflag hflag' id fun _ => trivial
      | skip =>
          cases rest with
          | nil =>
              obtain rfl := Option.some.inj hs
              exact .look hapart id (fun h => absurd h id) rfl
          | cons sect rest =>
              simp only [resume] at hs
              split at hs
              · obtain rfl := Option.some.inj hs
                exact .look hapart id (fun _ => trivial) rfl
              · cases hs
  | wait txn =>
      have hflag := hpending txn rfl
      cases a <;> obtain rfl := Option.some.inj hs
      · exact .clear hflag rfl id fun h => absurd h id
      · exact .look hapart id (fun h => absurd h id) rfl
      · exact .look hapart id (fun h => absurd h id) lockOps_withMutex
  | abort txn =>
      have hflag := hpending txn rfl
      obtain rfl := Option.some.inj hs
      exact .clear hflag rfl id fun h => absurd h id

end

end RxReservation

/-! ## One owner -/

namespace Reserving

variable {θ : Type} [DecidableEq θ] {s t u : Reserving θ} {k : θ}

/-- Whoever has reserved is alone, nobody reserves beside a transition, and every
thread has given `dev->lock` back as often as it took it. -/
structure OneOwner (s : Reserving θ) : Prop where
  exclusive : Lib.Exclusive ReservePc.Holds s.board.setterActive s.pc
  apart : s.board.pending = true → s.board.setterActive = false
  locks : ∀ k, Lib.lockOps ∅ (s.locks k) = some ∅

def thread : ReserveLabel θ → θ
  | .call k _ | .run k _ => k

/-- What a step may do to a reservation: only the thread that has reserved gives
it back, and while some thread has, no other one reserves or begins a
transition. -/
structure Respects (t u : Reserving θ) (k : θ) : Prop where
  cleared : t.board.setterActive = true → u.board.setterActive = false → (t.pc k).Holds
  admitted : ∀ j, (t.pc j).Holds → j ≠ k → ¬ (u.pc k).Holds
  begun : ∀ j, (t.pc j).Holds → (u.pc k).Begun → (t.pc k).Begun

theorem OneOwner.after (h : s.OneOwner) {e : SectionEnd} (hfair : e.Fair s.board (s.pc k)) :
    (s.after k e).OneOwner where
  exclusive := h.exclusive.turn hfair.turn
  apart := hfair.apart
  locks j := by
    by_cases hjk : j = k
    · subst hjk
      simp only [Reserving.after, Function.update_self]
      exact Lib.lockOps_append_of_eq_some (h.locks j) hfair.locks
    · simp only [Reserving.after, Function.update_of_ne hjk]
      exact h.locks j

theorem OneOwner.respects (h : s.OneOwner) {e : SectionEnd} (hfair : e.Fair s.board (s.pc k)) :
    s.Respects (s.after k e) k where
  cleared hset hclear := hfair.turn.holds_of_cleared hset hclear
  admitted j hj hne hk := by
    simp only [Reserving.after, Function.update_self] at hk
    exact hne (h.exclusive.unique j k hj (hfair.turn.holds_of_set (h.exclusive.set j hj) hk))
  begun j hj hk := by
    simp only [Reserving.after, Function.update_self] at hk
    by_contra hnot
    exact absurd ((hfair.begun hk hnot).symm.trans (h.exclusive.set j hj)) (by decide)

theorem step_fair (h : s.OneOwner) {l : ReserveLabel θ} (hprotected : s.protectedStep l = true)
    (hs : s.step l = some t) :
    ∃ e : SectionEnd, e.Fair s.board (s.pc (thread l)) ∧ t = s.after (thread l) e := by
  cases l with
  | call k c =>
      simp only [step] at hs
      split at hs
      · rename_i hidle
        refine ⟨s.board.call c, ?_, (Option.some.inj hs).symm⟩
        simp only [thread, hidle]
        exact RxReservation.call_fair h.apart c
      · cases hs
  | run k a =>
      simp only [step, Option.map_eq_some_iff] at hs
      obtain ⟨e, he, rfl⟩ := hs
      exact ⟨e, RxReservation.resume_fair h.apart hprotected he, rfl⟩

theorem OneOwner.step (h : s.OneOwner) {l : ReserveLabel θ} (hprotected : s.protectedStep l = true)
    (hs : s.step l = some t) : t.OneOwner ∧ s.Respects t (thread l) := by
  obtain ⟨e, hfair, rfl⟩ := step_fair h hprotected hs
  exact ⟨h.after hfair, h.respects hfair⟩

omit [DecidableEq θ] in
theorem OneOwner.start (nextId : BitVec 32) : (start nextId : Reserving θ).OneOwner where
  exclusive := Lib.exclusive_of_none fun _ => id
  apart _ := rfl
  locks _ := rfl

/-- In every run whose sections are protected, the reservation has one owner, the
threads keep the discipline of `dev->lock`, and every further protected section
respects the reservation. -/
theorem reservation_has_one_owner {nextId : BitVec 32} {ls : List (ReserveLabel θ)}
    (hrun : Lib.Steps step (fun s l => s.protectedStep l = true) (start nextId) ls t) :
    t.OneOwner ∧ ∀ l u, t.protectedStep l = true → t.step l = some u →
      t.Respects u (thread l) := by
  have howner : t.OneOwner :=
    hrun.invariant (.start nextId) fun h hprotected hs => (h.step hprotected hs).1
  exact ⟨howner, fun l u hprotected hs => (howner.step hprotected hs).2⟩

/-- A stream is started and released early, and ends before a setter reserves; a
transition is refused while the setter runs, and begins afterwards. -/
def someReconfigurations : List (ReserveLabel Bool) :=
  [.call true (.invalidate .stream false), .run true .ok, .run true .ok, .run true .ok,
    .run true .ok, .run true .ok, .run true .ok,
    .call false (.invalidate .setter false), .run false .ok, .run false .ok, .run false .skip,
    .call true (.begin false), .run true .ok, .run false .ok, .call true (.begin false),
    .run true .ok]

theorem reservation_has_one_owner_stream : ∃ t : Reserving Bool,
    Lib.Steps step (fun s l => s.protectedStep l = true) (start 0) someReconfigurations t ∧
      t.board.pending = true ∧ t.OneOwner := by
  have hexec : (Lib.exec step (fun s l => s.protectedStep l = true) (start 0)
      someReconfigurations).map (·.board.pending) = some true := by rfl
  obtain ⟨t, ht, hpc⟩ := Option.map_eq_some_iff.mp hexec
  have hrun := Lib.Steps.of_exec ht
  exact ⟨t, hrun, hpc, (reservation_has_one_owner hrun).1⟩

/-- A stream is released early; a setter reserves while it runs; the stream ends,
and its last completion gives the reservation of the setter back. -/
def streamOverSetter : List (ReserveLabel Bool) :=
  [.call true (.invalidate .stream false), .run true .ok, .run true .ok, .run true .ok,
    .run true .ok, .call false (.invalidate .setter false), .run false .ok, .run false .ok,
    .run true .ok, .run true .ok]

theorem stream_clears_reservation : ¬ ∀ (ls : List (ReserveLabel Bool)) (t : Reserving Bool),
    Lib.Steps step (fun _ _ => True) (start 0) ls t → t.OneOwner ∧
      ∀ l u, t.step l = some u → t.Respects u (thread l) := by
  intro hall
  have hexec : (Lib.exec step (fun _ _ => True) (start 0 : Reserving Bool) streamOverSetter).map
      (fun t => (t.pc false, t.board.setterActive)) = some (.body .setter, false) := by rfl
  obtain ⟨t, ht, hdata⟩ := Option.map_eq_some_iff.mp hexec
  obtain ⟨hpc, hflag⟩ := Prod.mk.inj hdata
  have howner := (hall _ t (.of_exec ht)).1
  have hset := howner.exclusive.set false (by rw [hpc]; trivial)
  exact absurd (hflag.symm.trans hset) (by decide)

end Reserving
end BladeRF
