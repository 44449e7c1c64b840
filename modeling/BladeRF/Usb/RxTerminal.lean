/-
# `Usb.RxTerminal` — an RX failure ends the stream, and is told once

`rx_terminal_failure_reported` is set under the lock, so the notification goes
out once.  That nothing more is delivered or submitted behind it rests on the
state: `lusb_stream_cb` leaves RUNNING before it notifies and writes the error
code behind, `fail_rx_stream` writes the error code before and leaves RUNNING
behind.  `InOrder` names the steps between the two that undo it.
-/
import BladeRF.Lib.Steps
import BladeRF.Usb.Stream

namespace BladeRF.Usb

open Lib (Along mem_modify)

/-- A thread of an RX stream may go on from here, the failure reported or not: it
is not about to submit a transfer again. -/
def Point.Safe (reported : Bool) : Point → Prop
  | .submit _ (.initial _) => True
  | .submit _ _ => reported = false
  | .next _ _ (.buffer _) => reported = false
  | .initialChecked _ _ _ => False
  | .txChecked _ _ _ _ _ => False
  | .submitterChecked _ _ => False
  | .failRx _ after => after.Safe true
  | .failed after => after.Safe true
  | .wrote _ after => after.Safe true
  | .cancel after => after.Safe true
  | _ => True

theorem Point.Safe.of_reported {pt : Point} (h : pt.Safe true) (reported : Bool) :
    pt.Safe reported := by
  cases reported with
  | true => exact h
  | false =>
      cases pt with
      | submit req caller => cases caller <;> trivial
      | next j retire next => cases next <;> trivial
      | initialChecked k before data => exact h
      | txChecked j retire before data submitted => exact h
      | submitterChecked req before => exact h
      | failRx status after => exact h
      | failed after => exact h
      | wrote code after => exact h
      | cancel after => exact h
      | _ => trivial

/-- A submission in its window hands libusb a transfer that it had before. -/
def Transfers.Resubmits (p : Transfers) : Prop :=
  ∃ t ∈ p.all, (∃ caller, t.hold = .window caller) ∧ t.used

namespace Transfers

variable {p : Transfers}

theorem Resubmits.of_modify {q : Transfers} {j : ℕ} {f : Transfer → Transfer} (hq : q.Resubmits)
    (hall : q.all = p.all.modify j f) (hf : ∀ t caller, (f t).hold ≠ .window caller) :
    p.Resubmits := by
  obtain ⟨t, ht, ⟨caller, hw⟩, hu⟩ := hq
  rw [hall] at ht
  rcases mem_modify ht with ht | ⟨x, -, rfl⟩
  · exact ⟨t, ht, ⟨caller, hw⟩, hu⟩
  · exact absurd hw (hf x caller)

theorem Resubmits.of_cancelAll {refused : ℕ → Bool} (hq : (p.cancelAll refused).Resubmits) :
    p.Resubmits := by
  obtain ⟨t, ht, ⟨caller, hw⟩, hu⟩ := hq
  obtain ⟨j, hj, rfl⟩ := List.mem_mapIdx.mp ht
  rw [Transfer.hold_cancel] at hw
  rw [Transfer.used_cancel] at hu
  exact ⟨p.all[j], List.getElem_mem hj, ⟨caller, hw⟩, hu⟩

end Transfers

namespace Stream

variable {s t : Stream}

structure Terminal (s t : Stream) : Prop where
  once : t.notifications ≤ 1
  silent : s.notifications ≠ 0 → t.sampled = s.sampled
  final : s.notifications ≠ 0 → t.resubmitted = s.resubmitted
  ended : t.state = .done → t.notifications ≠ 0 → t.errorCode ≠ none

/-! ## The condition -/

def asksRunning : Point → Bool
  | .handle _ .completed _ _ => true
  | .rxCalled _ _ => true
  | .submitterGo _ _ _ => true
  | _ => false

def Notifies (s : Stream) : Point → Prop
  | .failRx _ _ => True
  | .errored .cancelled _ _ => s.state = .running
  | .errored .timedOut _ stale => ¬ (stale ∨ s.shutdownRequested)
  | .errored _ _ _ => True
  | _ => False

/-- A step that finds the shutdown of a drained stream complete. -/
def Settles (s : Stream) : Label → Prop
  | .run _ => ∃ retire, s.holder = some (.tail retire)
  | .tick => s.holder = none ∧ s.looping
  | .submitShutdown => s.holder = none
  | .shutdown => s.holder = none
  | _ => False

/-- The steps that do not get between a notification and what belongs to it. -/
structure InOrder (s : Stream) (l : Label) : Prop where
  /-- While a notification is out in RUNNING, no thread asks for RUNNING. -/
  asks : ∀ env pt, l = .run env → s.holder = some pt → s.rxTerminalFailureReported →
    s.state = .running → asksRunning pt = false
  /-- Behind a notification the initial loop takes no transfer that libusb had. -/
  initial : ∀ env req k j t, l = .run env → s.holder = some (.submit req (.initial k)) →
    s.rxTerminalFailureReported → s.pool.nextAvailable = some j → s.pool.all[j]? = some t →
    t.used = false
  window : ∀ env pt, l = .run env → s.holder = some pt → s.Notifies pt → ¬ s.pool.Resubmits
  /-- Before the error code is written the stream is not settled. -/
  settle : s.rxTerminalFailureReported → s.errorCode = none → s.drained → ¬ s.Settles l

/-! ## The invariant -/

structure Calm (s : Stream) : Prop where
  direction : s.direction = .rx
  notifications : s.notifications = s.rxTerminalFailureReported.toNat
  waiting : ∀ pt ∈ s.waiting, pt.Safe true
  window : s.rxTerminalFailureReported → ¬ s.pool.Resubmits
  ended : s.rxTerminalFailureReported → s.errorCode = none → s.state ≠ .done

structure Terminating (s : Stream) : Prop where
  calm : s.Calm
  holder : ∀ pt, s.holder = some pt → pt.Safe s.rxTerminalFailureReported

namespace Calm

section

variable (h : s.Calm)

include h

theorem setError (err : StreamError) : (s.setError err).Calm :=
  ⟨h.direction, h.notifications, h.waiting, h.window, fun _ he => nomatch he⟩

theorem setTxGeneration (n : ℕ) : (s.setTxGeneration n).Calm :=
  ⟨h.direction, h.notifications, h.waiting, h.window, h.ended⟩

theorem setLooping (looping : Bool) : (s.setLooping looping).Calm :=
  ⟨h.direction, h.notifications, h.waiting, h.window, h.ended⟩

theorem countSampled : s.countSampled.Calm :=
  ⟨h.direction, h.notifications, h.waiting, h.window, h.ended⟩

theorem shutDown : s.shutDown.Calm :=
  ⟨h.direction, h.notifications, h.waiting, h.window, fun _ _ => StreamState.noConfusion⟩

theorem markDone (he : s.rxTerminalFailureReported → s.errorCode ≠ none) :
    s.markDone.Calm :=
  ⟨h.direction, h.notifications, h.waiting, h.window, fun hr hnone => absurd hnone (he hr)⟩

theorem setPool {p : Transfers}
    (hp : s.rxTerminalFailureReported → p.Resubmits → s.pool.Resubmits) : (s.setPool p).Calm :=
  ⟨h.direction, h.notifications, h.waiting, fun hr hw => h.window hr (hp hr hw), h.ended⟩

theorem report (hr : s.rxTerminalFailureReported = false)
    (hw : ¬ s.pool.Resubmits) (he : s.errorCode = none → s.state ≠ .done) : s.report.Calm := by
  refine ⟨h.direction, ?_, h.waiting, fun _ => hw, fun _ => he⟩
  show s.notifications + 1 = 1
  rw [h.notifications, hr]
  rfl

theorem go {pt : Point} (hpt : pt.Safe s.rxTerminalFailureReported) :
    (s.go pt).Terminating := by
  refine ⟨⟨h.direction, h.notifications, h.waiting, h.window, h.ended⟩, fun p hp => ?_⟩
  obtain rfl : pt = p := Option.some.inj hp
  exact hpt

theorem goes {pt : Point} (hpt : pt.Safe true) : (s.go pt).Terminating :=
  h.go (hpt.of_reported _)

theorem wait {pt : Point} (hpt : pt.Safe true) : (s.wait pt).Terminating := by
  refine ⟨⟨h.direction, h.notifications, fun p hp => ?_, h.window, h.ended⟩,
    fun _ hp => nomatch hp⟩
  rcases List.mem_append.mp hp with hp | hp
  · exact h.waiting p hp
  · obtain rfl := List.mem_singleton.mp hp
    exact hpt

theorem unlock : s.unlock.Terminating :=
  ⟨⟨h.direction, h.notifications, h.waiting, h.window, h.ended⟩,
    fun _ hp => nomatch hp⟩

theorem notifyOnce (hw : ¬ s.pool.Resubmits)
    (he : s.errorCode = none → s.state ≠ .done) {after : Point} (ha : after.Safe true) :
    (s.notifyOnce after).Terminating := by
  unfold Stream.notifyOnce
  split_ifs with hr
  · exact (h.report (by simpa using hr.2) hw he).wait ha
  · exact h.goes ha

end

end Calm

/-! ## What each point does -/

/-- The holder of the lock in `s` went on to `t`. -/
structure Onward (s t : Stream) : Prop where
  terminating : t.Terminating
  sampled : s.rxTerminalFailureReported → t.sampled = s.sampled
  resubmitted : t.resubmitted = s.resubmitted

theorem next_safe {reported : Bool} (hr : reported = false) (j : ℕ) (retire : Bool)
    (next : Next) : (Point.next j retire next).Safe reported := by
  cases next with
  | buffer data => exact hr
  | shutdown => trivial
  | noData => trivial

theorem Calm.notifies {u : Stream} (h : u.Calm) (hw : ¬ u.pool.Resubmits)
    (he : u.errorCode = none → u.state ≠ .done) {after : Point} (ha : after.Safe true)
    (hs : u.sampled = s.sampled) (hu : u.resubmitted = s.resubmitted) :
    Onward s (u.notifyOnce after) := by
  refine ⟨h.notifyOnce hw he ha, fun _ => ?_, ?_⟩
  · rw [← hs]
    unfold Stream.notifyOnce
    split_ifs <;> rfl
  · rw [← hu]
    unfold Stream.notifyOnce
    split_ifs <;> rfl

section

variable (h : s.Calm)

include h

theorem initialSubmit_onward (k : ℕ) (env : Env) :
    Onward s (s.initialSubmit k env) := by
  unfold initialSubmit
  rw [h.direction]
  split
  · exact ⟨h.goes trivial, fun _ => rfl, rfl⟩
  · exact ⟨h.goes trivial, fun _ => rfl, rfl⟩

theorem submitTransfer_onward (req : Request) (caller : Caller) (env : Env)
    (hused : ∀ j t, s.rxTerminalFailureReported → s.pool.nextAvailable = some j →
      s.pool.all[j]? = some t → t.used = false) :
    Onward s (s.submitTransfer req caller env) := by
  unfold submitTransfer
  cases hnext : s.pool.nextAvailable with
  | none => exact ⟨h.goes trivial, fun _ => rfl, rfl⟩
  | some j =>
      rw [h.direction]
      refine ⟨(h.setPool fun hr ⟨t, ht, hwin, hu⟩ => ?_).unlock, fun _ => rfl, rfl⟩
      rcases mem_modify ht with ht | ⟨x, hx, rfl⟩
      · exact ⟨t, ht, hwin, hu⟩
      · exact absurd (hu.symm.trans (hused j x hr hnext hx)) Bool.noConfusion

theorem submitReturned_onward (caller : Caller) (status : Option StreamError) :
    Onward s (s.submitReturned caller status) := by
  unfold submitReturned
  rcases caller with k | retire | retire | _ <;> rcases status with _ | err
  · exact ⟨h.goes trivial, fun _ => rfl, rfl⟩
  · exact ⟨(h.setError err).goes trivial, fun _ => rfl, rfl⟩
  · exact ⟨h.goes trivial, fun _ => rfl, rfl⟩
  · exact ⟨h.goes trivial, fun _ => rfl, rfl⟩
  · exact ⟨h.goes trivial, fun _ => rfl, rfl⟩
  · rw [h.direction]
    exact ⟨h.goes trivial, fun _ => rfl, rfl⟩
  · exact ⟨h.unlock, fun _ => rfl, rfl⟩
  · rw [h.direction]
    exact ⟨h.goes trivial, fun _ => rfl, rfl⟩

theorem failRxStream_onward (status : StreamError) {after : Point}
    (ha : after.Safe true) (hw : ¬ s.pool.Resubmits) : Onward s (s.failRxStream status after) := by
  unfold failRxStream
  rw [h.direction]
  exact (h.setError _).notifies hw (fun he => nomatch he) ha rfl rfl

theorem handle_onward (j : ℕ) (status : CompletionStatus) (actualLength : ℤ)
    (retire : Bool) (env : Env)
    (hask : status = .completed → s.rxTerminalFailureReported → s.state ≠ .running) :
    Onward s (s.handle j status actualLength retire env) := by
  unfold handle
  rw [h.direction]
  split
  · exact ⟨h.goes trivial, fun _ => rfl, rfl⟩
  · split
    · rename_i htx
      exact Direction.noConfusion htx.2.2.1
    · split
      · exact ⟨h.goes trivial, fun _ => rfl, rfl⟩
      · rename_i hcompleted
        split
        · exact ⟨h.goes trivial, fun _ => rfl, rfl⟩
        · rename_i hrunning
          rw [not_not] at hcompleted hrunning
          have hr : s.rxTerminalFailureReported = false := by
            rw [← Bool.not_eq_true]
            exact fun hr => hask hcompleted hr hrunning
          cases env.rx with
          | withheld => exact ⟨h.go (next_safe hr _ _ _), fun _ => rfl, rfl⟩
          | notice => exact ⟨h.wait trivial, fun _ => rfl, rfl⟩
          | samples =>
              exact ⟨h.countSampled.wait trivial, fun ht => absurd (ht.symm.trans hr)
                Bool.noConfusion, rfl⟩

theorem errored_onward (status : CompletionStatus) (retire stale : Bool)
    (hw : s.Notifies (.errored status retire stale) → ¬ s.pool.Resubmits) :
    Onward s (s.errored status retire stale) := by
  have hd := h.shutDown
  have htail : Onward s (s.shutDown.go (.tail retire)) := ⟨hd.goes trivial, fun _ => rfl, rfl⟩
  have hdown : s.shutDown.errorCode = none → s.shutDown.state ≠ .done :=
    fun _ => StreamState.noConfusion
  unfold errored
  cases status with
  | cancelled =>
      dsimp only
      split_ifs with hstate
      · exact (hd.setError .io).notifies (hw hstate) (fun he => nomatch he) trivial rfl rfl
      · exact htail
  | timedOut =>
      dsimp only
      split_ifs with hquiet
      · exact htail
      · exact hd.notifies (hw hquiet) hdown trivial rfl rfl
  | stall => exact hd.notifies (hw trivial) hdown trivial rfl rfl
  | error => exact hd.notifies (hw trivial) hdown trivial rfl rfl
  | overflow => exact hd.notifies (hw trivial) hdown trivial rfl rfl
  | noDevice => exact hd.notifies (hw trivial) hdown trivial rfl rfl
  | unknown =>
      exact (hd.setError .io).notifies (hw trivial) (fun he => nomatch he) trivial rfl rfl
  | completed =>
      exact (hd.setError .io).notifies (hw trivial) (fun he => nomatch he) trivial rfl rfl

theorem nextBuffer_onward (j : ℕ) (retire : Bool) (next : Next) (env : Env)
    (hn : (Point.next j retire next).Safe s.rxTerminalFailureReported) :
    Onward s (s.nextBuffer j retire next env) := by
  unfold nextBuffer
  cases next with
  | shutdown => exact ⟨(h.setTxGeneration 0).shutDown.goes trivial, fun _ => rfl, rfl⟩
  | noData => exact ⟨(h.setTxGeneration 0).goes trivial, fun _ => rfl, rfl⟩
  | buffer data =>
      dsimp only
      rw [h.direction]
      rw [if_neg fun htx => Direction.noConfusion htx.1]
      exact ⟨h.go hn, fun _ => rfl, rfl⟩

theorem tail_onward (retire : Bool)
    (hset : s.rxTerminalFailureReported → s.drained → s.errorCode ≠ none) :
    Onward s (s.tail retire) := by
  unfold tail
  split_ifs with hstate hdrained
  · exact ⟨(h.markDone fun hr => hset hr hdrained).goes trivial, fun _ => rfl, rfl⟩
  · exact ⟨h.goes trivial, fun _ => rfl, rfl⟩
  · exact ⟨h.goes trivial, fun _ => rfl, rfl⟩

theorem submitterGo_onward (req : Request) (nonblock : Bool)
    (status : Option StreamError) (env : Env)
    (hask : s.rxTerminalFailureReported → s.state ≠ .running) :
    Onward s (s.submitterGo req nonblock status env) := by
  unfold submitterGo
  split
  · exact ⟨h.unlock, fun _ => rfl, rfl⟩
  · rename_i hrunning
    split
    · exact ⟨h.unlock, fun _ => rfl, rfl⟩
    · rw [h.direction]
      refine ⟨h.go ?_, fun _ => rfl, rfl⟩
      show s.rxTerminalFailureReported = false
      rw [← Bool.not_eq_true]
      exact fun hr => hrunning (.inl (hask hr))

end

/-! ## Steps -/

theorem run_onward (h : s.Terminating) (env : Env) {pt : Point} (hh : s.holder = some pt)
    (ho : s.InOrder (.run env)) : Onward s (s.run env pt) := by
  have hc := h.calm
  have hsafe := h.holder pt hh
  have hask : asksRunning pt = true → s.rxTerminalFailureReported → s.state ≠ .running := by
    intro hpt hr hs
    exact absurd (hpt.symm.trans (ho.asks env pt rfl hh hr hs)) Bool.noConfusion
  cases pt with
  | initial k => exact initialSubmit_onward hc k env
  | initialChecked k before data => exact hsafe.elim
  | loop => exact ⟨(hc.setLooping true).unlock, fun _ => rfl, rfl⟩
  | eventFailed err =>
      show Onward s (s.eventFailed err)
      unfold eventFailed
      rw [hc.direction]
      exact ⟨hc.goes trivial, fun _ => rfl, rfl⟩
  | submit req caller =>
      refine submitTransfer_onward hc req caller env fun j t hr hnext ht => ?_
      cases caller with
      | initial k => exact ho.initial env req k j t rfl hh hr hnext ht
      | requeue retire => exact absurd (hr.symm.trans hsafe) Bool.noConfusion
      | replacement retire => exact absurd (hr.symm.trans hsafe) Bool.noConfusion
      | submitter => exact absurd (hr.symm.trans hsafe) Bool.noConfusion
  | returned caller status => exact submitReturned_onward hc caller status
  | handle j status actualLength retire =>
      refine handle_onward hc j status actualLength retire env fun hcompleted => ?_
      subst hcompleted
      exact hask rfl
  | errored status retire stale =>
      exact errored_onward hc status retire stale (ho.window env _ rfl hh)
  | rxCalled j retire =>
      refine ⟨hc.go ?_, fun _ => rfl, rfl⟩
      split_ifs with hstate
      · trivial
      · refine next_safe ?_ _ _ _
        rw [← Bool.not_eq_true]
        exact fun hr => hstate (hask rfl hr)
  | txChecked j retire before data submitted => exact hsafe.elim
  | next j retire next => exact nextBuffer_onward hc j retire next env hsafe
  | tail retire =>
      exact tail_onward hc retire fun hr hd hnone => ho.settle hr hnone hd ⟨retire, hh⟩
  | finish retire =>
      exact ⟨⟨⟨hc.direction, hc.notifications, hc.waiting, hc.window, hc.ended⟩,
        fun _ hp => nomatch hp⟩, fun _ => rfl, rfl⟩
  | failRx status after =>
      exact failRxStream_onward hc status hsafe (ho.window env _ rfl hh trivial)
  | failed after => exact ⟨hc.shutDown.goes hsafe, fun _ => rfl, rfl⟩
  | wrote code after => exact ⟨(hc.setError code).goes hsafe, fun _ => rfl, rfl⟩
  | cancel after =>
      show Onward s ((s.cancelAllTransfers env).go after)
      unfold cancelAllTransfers
      rw [hc.direction, if_neg fun htx => Direction.noConfusion htx.1]
      exact ⟨(hc.setPool fun _ => Transfers.Resubmits.of_cancelAll).goes hsafe, fun _ => rfl, rfl⟩
  | submitterWoken req =>
      show Onward s (s.submitterWoken req env)
      unfold submitterWoken
      split_ifs
      · exact ⟨hc.goes trivial, fun _ => rfl, rfl⟩
      · exact ⟨hc.wait trivial, fun _ => rfl, rfl⟩
      · exact ⟨hc.goes trivial, fun _ => rfl, rfl⟩
  | submitterGo req nonblock status =>
      exact submitterGo_onward hc req nonblock status env (hask rfl)
  | submitterChecked req before => exact hsafe.elim
  | unlock => exact ⟨hc.unlock, fun _ => rfl, rfl⟩

theorem Calm.reported (h : s.Calm) (hn : s.notifications ≠ 0) :
    s.rxTerminalFailureReported = true := by
  cases hr : s.rxTerminalFailureReported with
  | true => rfl
  | false => exact absurd (by rw [h.notifications, hr]; rfl) hn

theorem Terminating.step (h : s.Terminating) (ht : t.Terminating)
    (hs : s.rxTerminalFailureReported → t.sampled = s.sampled)
    (hr : s.rxTerminalFailureReported → t.resubmitted = s.resubmitted) :
    Terminal s t ∧ t.Terminating := by
  refine ⟨⟨?_, fun hn => hs (h.calm.reported hn), fun hn => hr (h.calm.reported hn), ?_⟩, ht⟩
  · rw [ht.calm.notifications]
    exact Bool.toNat_le _
  · exact fun hd hn he => ht.calm.ended (ht.calm.reported hn) he hd

theorem settle_sampled (s : Stream) : s.settle.sampled = s.sampled := by
  unfold settle
  split_ifs <;> rfl

theorem settle_resubmitted (s : Stream) : s.settle.resubmitted = s.resubmitted := by
  unfold settle
  split_ifs <;> rfl

theorem settle_terminating (h : s.Calm) (hh : s.holder = none)
    (hset : s.rxTerminalFailureReported → s.drained → s.errorCode ≠ none) :
    s.settle.Terminating := by
  unfold settle
  split_ifs with hd
  · exact ⟨h.markDone fun hr => hset hr hd, fun pt hp => nomatch hh.symm.trans hp⟩
  · exact h.goes trivial

theorem accepted_terminating (h : s.Terminating) {j : ℕ} {x : Transfer} {caller : Caller}
    (hx : s.pool.all[j]? = some x) (hw : x.hold = .window caller) :
    (s.accepted j caller).Terminating ∧
      (s.rxTerminalFailureReported → (s.accepted j caller).resubmitted = s.resubmitted) := by
  refine ⟨⟨⟨h.calm.direction, h.calm.notifications, fun pt hp => ?_, ?_, h.calm.ended⟩,
    h.holder⟩, fun hr => ?_⟩
  · rcases List.mem_append.mp hp with hp | hp
    · exact h.calm.waiting pt hp
    · obtain rfl := List.mem_singleton.mp hp
      trivial
  · exact fun hr hre => h.calm.window hr (hre.of_modify rfl fun _ _ => Hold.noConfusion)
  · have hused : x.used = false := by
      rw [← Bool.not_eq_true]
      exact fun hu => h.calm.window hr ⟨x, List.mem_of_getElem? hx, ⟨caller, hw⟩, hu⟩
    show s.resubmitted + ((s.pool.all[j]?).any Transfer.used).toNat = _
    rw [hx, Option.any_some, hused]
    rfl

theorem calm_free (h : s.Calm) {j : ℕ} {p : Transfers}
    (hp : p.all = s.pool.all.modify j Transfer.free) : (s.setPool p).Calm :=
  h.setPool fun _ hre => hre.of_modify hp fun _ _ => Hold.noConfusion

theorem next_terminating (h : s.Terminating) (l : Label) (ho : s.InOrder l) :
    Terminal s (s.next l) ∧ (s.next l).Terminating := by
  have hsame : Terminal s s ∧ s.Terminating := h.step h (fun _ => rfl) fun _ => rfl
  have hc := h.calm
  cases l with
  | run env =>
      dsimp only [next]
      cases hh : s.holder with
      | none => exact hsame
      | some pt =>
          have hon := run_onward h env hh ho
          exact h.step hon.terminating hon.sampled fun _ => hon.resubmitted
  | lock k =>
      dsimp only [next]
      split
      · rename_i pt hh hk
        have hpt := hc.waiting pt (List.mem_of_getElem? hk)
        have hcalm : { s with waiting := s.waiting.eraseIdx k }.Calm :=
          ⟨hc.direction, hc.notifications,
            fun p hp => hc.waiting p (List.mem_of_mem_eraseIdx hp), hc.window, hc.ended⟩
        exact h.step (hcalm.goes hpt) (fun _ => rfl) fun _ => rfl
      · exact hsame
  | accept j =>
      dsimp only [next]
      split
      · rename_i caller hwin
        obtain ⟨x, hx, hw⟩ := Option.map_eq_some_iff.mp hwin
        obtain ⟨ht, hr⟩ := accepted_terminating h hx hw
        exact h.step ht (fun _ => rfl) hr
      · exact hsame
  | reject j err =>
      dsimp only [next]
      split
      · exact h.step ((calm_free hc rfl).goes trivial) (fun _ => rfl) fun _ => rfl
      · exact hsame
  | complete j status actualLength =>
      dsimp only [next]
      split
      · have hcalm := calm_free (p := s.pool.complete j) hc rfl
        refine h.step (t := s.completion j status actualLength) ?_ (fun _ => rfl) fun _ => rfl
        exact ⟨⟨hcalm.direction, hcalm.notifications, hcalm.waiting, hcalm.window, hcalm.ended⟩,
          fun p hp => (Option.some.inj hp) ▸ trivial⟩
      · exact hsame
  | submit req nonblock =>
      dsimp only [next]
      split_ifs
      · exact hsame
      · exact h.step (hc.goes trivial) (fun _ => rfl) fun _ => rfl
      · exact hsame
      · exact h.step (hc.wait trivial) (fun _ => rfl) fun _ => rfl
  | submitShutdown =>
      dsimp only [next]
      split_ifs with hh hd
      · exact hsame
      · have hm := hc.markDone fun hr hnone => ho.settle hr hnone hd (not_not.mp hh)
        exact h.step ⟨hm, h.holder⟩ (fun _ => rfl) fun _ => rfl
      · exact h.step ⟨hc.shutDown, h.holder⟩ (fun _ => rfl) fun _ => rfl
  | shutdown =>
      dsimp only [next]
      split_ifs with hbusy
      · exact hsame
      · have hh : s.holder = none := by
          rw [not_or, not_not] at hbusy
          exact hbusy.1
        have hdown : { s with shutdownRequested := true }.shutDown.Calm :=
          ⟨hc.direction, hc.notifications, hc.waiting, hc.window,
            fun _ _ => StreamState.noConfusion⟩
        have hset := settle_terminating hdown hh fun hr hd hnone => ho.settle hr hnone hd hh
        refine h.step hset (fun _ => ?_) fun _ => ?_
        · exact settle_sampled _
        · exact settle_resubmitted _
  | deinit =>
      exact h.step ⟨⟨hc.direction, hc.notifications, hc.waiting, hc.window, hc.ended⟩, h.holder⟩
        (fun _ => rfl) fun _ => rfl
  | eventError err =>
      dsimp only [next]
      split_ifs
      · exact hsame
      · exact h.step ((hc.setLooping false).goes trivial) (fun _ => rfl) fun _ => rfl
  | tick =>
      dsimp only [next]
      split_ifs with hbusy
      · exact hsame
      · simp only [not_or, not_not] at hbusy
        obtain ⟨hh, hloop, -⟩ := hbusy
        have hset := settle_terminating hc hh fun hr hd hnone => ho.settle hr hnone hd ⟨hh, hloop⟩
        refine h.step hset (fun _ => ?_) fun _ => ?_
        · exact settle_sampled _
        · exact settle_resubmitted _

end Stream

/-! ## Runs -/

theorem Started.terminating {s : Stream} (h : Started s) (hd : s.direction = .rx) :
    s.Terminating := by
  refine ⟨⟨hd, ?_, ?_, fun hr => ?_, fun hr => ?_⟩, fun pt hp => ?_⟩
  · rw [h.notifications, h.reported]
    rfl
  · rw [h.waiting]
    exact fun pt hp => nomatch hp
  · exact Bool.noConfusion (h.reported.symm.trans hr)
  · exact Bool.noConfusion (h.reported.symm.trans hr)
  · obtain rfl := Option.some.inj (h.holder.symm.trans hp)
    trivial

/-- In every run of an RX stream whose steps are in order a failure is told once,
nothing is delivered or submitted again behind it, and the run ends with an error. -/
theorem rx_failure_terminal (s : Stream) (hs : Started s) (hd : s.direction = .rx)
    (ls : List Label) (ho : Along Stream.next (fun s l _ => s.InOrder l) s ls) :
    Along Stream.next (fun s _ t => s.Terminal t) s ls :=
  Lib.along_of_invariant (I := Stream.Terminating)
    (fun _ l ht hq => Stream.next_terminating ht l hq) ls s (hs.terminating hd) ho

theorem Stream.inOrder_of_unreported {s : Stream} (hr : s.rxTerminalFailureReported = false)
    (hw : ¬ s.pool.Resubmits) (l : Label) : s.InOrder l where
  asks := fun _ _ _ _ ht => Bool.noConfusion (hr.symm.trans ht)
  initial := fun _ _ _ _ _ _ _ ht => Bool.noConfusion (hr.symm.trans ht)
  window := fun _ _ _ _ _ => hw
  settle := fun ht => Bool.noConfusion (hr.symm.trans ht)

theorem Transfers.not_resubmits {p : Transfers} (h : p.all.all fun t => !t.used) :
    ¬ p.Resubmits := by
  rintro ⟨t, ht, -, hu⟩
  have hn := List.all_eq_true.mp h t ht
  simp [hu] at hn

/-- The first submission is refused. -/
theorem rx_failure_terminal_refused :
    Along Stream.next (fun s _ t => s.Terminal t) (opening .rx)
      [.run smooth, .run smooth, .reject 0 .io, .run smooth, .run smooth, .lock 0,
        .run smooth] := by
  have quiet : ∀ {s : Stream} (l : Label), s.rxTerminalFailureReported = false →
      (s.pool.all.all fun t => !t.used) → s.InOrder l := fun l hr hw =>
    Stream.inOrder_of_unreported hr (Transfers.not_resubmits hw) l
  refine rx_failure_terminal (opening .rx) (started_opening .rx) rfl _
    ⟨quiet _ rfl rfl, quiet _ rfl rfl, quiet _ rfl rfl, quiet _ rfl rfl, quiet _ rfl rfl,
      ⟨?_, ?_, ?_, ?_⟩, ⟨?_, ?_, ?_, ?_⟩, trivial⟩
  · exact fun _ _ hl => nomatch hl
  · exact fun _ _ _ _ _ hl => nomatch hl
  · exact fun _ _ hl => nomatch hl
  · exact fun _ he => nomatch he
  · intro env pt _ hh _ _
    obtain rfl := Option.some.inj hh
    rfl
  · exact fun _ _ _ _ _ _ hh => nomatch hh
  · intro env pt _ hh hn
    obtain rfl := Option.some.inj hh
    exact hn.elim
  · exact fun _ he => nomatch he

/-- The second submission is refused.  The notification of that is out, and the
completion of the first transfer starts a callback with its samples. -/
theorem rx_failure_terminal_not_always :
    let ls : List Label :=
      [.run smooth, .run smooth, .accept 0, .lock 0, .run smooth, .run smooth, .run smooth,
        .reject 1 .io, .run smooth, .run smooth, .complete 0 .completed 4]
    let s := ls.foldl Stream.next (opening .rx)
    (s.notifications = 1 ∧ (s.next (.run smooth)).sampled = s.sampled + 1) ∧
      ¬ ∀ s, Started s → s.direction = .rx → ∀ ls,
        Along Stream.next (fun s _ t => s.Terminal t) s ls := by
  intro ls s
  refine ⟨⟨rfl, rfl⟩, fun h => ?_⟩
  obtain ⟨-, -, -, -, -, -, -, -, -, -, -, hstep, -⟩ :=
    h (opening .rx) (started_opening .rx) rfl (ls ++ [Label.run smooth])
  exact absurd (hstep.silent (by decide)) (by decide)

end BladeRF.Usb
