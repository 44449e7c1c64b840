/-
# `Usb.Passes` — the points that leave the transfers alone

Most stretches of a thread only move the state of the stream and choose where to
go on.  They have the transfers as they found them, go on with the lease of the
callback they belong to, and take up no buffer that was submitted before unless
they had it.  The three points that work on the transfers are left to the modules
that follow them.
-/
import BladeRF.Usb.Stream

namespace BladeRF.Usb

/-- A callback at this point keeps the lease of the transfer it completed. -/
def Point.keeps : Point → Bool
  | .submit _ caller => caller.retires
  | .returned caller _ => caller.retires
  | .handle _ _ _ retire => retire
  | .errored _ retire _ => retire
  | .rxCalled _ retire => retire
  | .txChecked _ retire _ _ _ => retire
  | .next _ retire _ => retire
  | .tail retire => retire
  | .finish retire => retire
  | .failRx _ after => after.keeps
  | .failed after => after.keeps
  | .wrote _ after => after.keeps
  | .cancel after => after.keeps
  | _ => false

def Point.works : Point → Bool
  | .submit _ _ => true
  | .cancel _ => true
  | .finish _ => true
  | _ => false

def Point.Fresh : Point → Prop
  | .submit req _ => req.serial = none
  | .handle _ status _ _ => status ≠ .timedOut
  | .submitterWoken req => req.serial = none
  | .submitterGo req _ _ => req.serial = none
  | .submitterChecked req _ => req.serial = none
  | .failRx _ after => after.Fresh
  | .failed after => after.Fresh
  | .wrote _ after => after.Fresh
  | .cancel after => after.Fresh
  | _ => True

/-- `q` goes on for `pt`. -/
def Point.Leads (pt q : Point) : Prop := q.keeps = pt.keeps ∧ (pt.Fresh → q.Fresh)

theorem Point.Leads.refl (pt : Point) : pt.Leads pt := ⟨rfl, id⟩

namespace Stream

variable {s t u : Stream}

/-- `u` has the transfers and the waiting threads of `s`, and is not done unless
`s` is or may be. -/
structure Alike (s u : Stream) : Prop where
  pool : u.pool = s.pool
  direction : u.direction = s.direction
  bufBytes : u.bufBytes = s.bufBytes
  waiting : u.waiting = s.waiting
  done : u.state = .done → s.state = .done ∨ s.drained

/-- The thread that had the lock in `s`, at `pt`, ended or went on to a point `q`,
with the lock or without. -/
inductive Moved (s t : Stream) (pt : Point) : Prop
  | ends (hk : pt.keeps = false) (hh : t.holder = none) (hw : t.waiting = s.waiting)
  | goes (q : Point) (hq : pt.Leads q) (hh : t.holder = some q) (hw : t.waiting = s.waiting)
  | waits (q : Point) (hq : pt.Leads q) (hh : t.holder = none)
      (hw : t.waiting = s.waiting ++ [q])

structure Passes (s t : Stream) (pt : Point) : Prop where
  pool : t.pool = s.pool
  direction : t.direction = s.direction
  bufBytes : t.bufBytes = s.bufBytes
  moved : Moved s t pt
  done : t.state = .done → s.state = .done ∨ s.drained

namespace Alike

theorem refl (s : Stream) : Alike s s := ⟨rfl, rfl, rfl, rfl, .inl⟩

section

variable (h : Alike s u)

include h

theorem setError (err : StreamError) : Alike s (u.setError err) :=
  ⟨h.pool, h.direction, h.bufBytes, h.waiting, h.done⟩

theorem setTxGeneration (n : ℕ) : Alike s (u.setTxGeneration n) :=
  ⟨h.pool, h.direction, h.bufBytes, h.waiting, h.done⟩

theorem setLooping (looping : Bool) : Alike s (u.setLooping looping) :=
  ⟨h.pool, h.direction, h.bufBytes, h.waiting, h.done⟩

theorem report : Alike s u.report :=
  ⟨h.pool, h.direction, h.bufBytes, h.waiting, h.done⟩

theorem countSampled : Alike s u.countSampled :=
  ⟨h.pool, h.direction, h.bufBytes, h.waiting, h.done⟩

theorem shutDown : Alike s u.shutDown :=
  ⟨h.pool, h.direction, h.bufBytes, h.waiting, fun hd => StreamState.noConfusion hd⟩

theorem markDone (hd : s.drained) : Alike s u.markDone :=
  ⟨h.pool, h.direction, h.bufBytes, h.waiting, fun _ => .inr hd⟩

end

variable {pt q : Point}

theorem go (h : Alike s u) (hq : pt.Leads q) : Passes s (u.go q) pt :=
  ⟨h.pool, h.direction, h.bufBytes, .goes q hq rfl h.waiting, h.done⟩

theorem wait (h : Alike s u) (hq : pt.Leads q) : Passes s (u.wait q) pt :=
  ⟨h.pool, h.direction, h.bufBytes, .waits q hq rfl (congrArg (· ++ [q]) h.waiting), h.done⟩

theorem unlock (h : Alike s u) (hk : pt.keeps = false) : Passes s u.unlock pt :=
  ⟨h.pool, h.direction, h.bufBytes, .ends hk rfl h.waiting, h.done⟩

theorem notifyOnce (h : Alike s u) (hq : pt.Leads q) : Passes s (u.notifyOnce q) pt := by
  unfold Stream.notifyOnce
  split_ifs
  · exact h.report.wait hq
  · exact h.go hq

end Alike

/-! ## What each point does -/

theorem initialSubmit_passes (k : ℕ) (env : Env) :
    Passes s (s.initialSubmit k env) (.initial k) := by
  have hs := Alike.refl s
  unfold initialSubmit
  split
  · exact hs.go ⟨rfl, fun _ => trivial⟩
  · cases s.direction with
    | rx => exact hs.go ⟨rfl, fun _ => rfl⟩
    | tx =>
        cases env.next with
        | shutdown =>
            dsimp only
            split_ifs with hdrained
            · exact (hs.markDone hdrained).go ⟨rfl, fun _ => trivial⟩
            · exact hs.shutDown.go ⟨rfl, fun _ => trivial⟩
        | noData => exact (hs.setTxGeneration 0).go ⟨rfl, fun _ => trivial⟩
        | buffer data => exact (hs.setTxGeneration _).wait ⟨rfl, fun _ => trivial⟩

theorem initialChecked_passes (k : ℕ) (before : StreamState) (data : List (BitVec 8)) (env : Env) :
    Passes s (s.initialChecked k before data env) (.initialChecked k before data) := by
  have hs := Alike.refl s
  unfold initialChecked
  dsimp only
  split
  · split_ifs with hdrained
    · exact ((hs.setError _).markDone hdrained).go ⟨rfl, fun _ => trivial⟩
    · exact (hs.setError _).shutDown.go ⟨rfl, fun _ => trivial⟩
  · split
    · exact (hs.setError _).shutDown.go ⟨rfl, fun _ => trivial⟩
    · exact hs.go ⟨rfl, fun _ => rfl⟩

theorem submitReturned_passes (caller : Caller) (status : Option StreamError) :
    Passes s (s.submitReturned caller status) (.returned caller status) := by
  have hs := Alike.refl s
  unfold submitReturned
  rcases caller with k | retire | retire | _ <;> rcases status with _ | err
  · exact hs.go ⟨rfl, fun _ => trivial⟩
  · exact (hs.setError err).go ⟨rfl, fun _ => trivial⟩
  · exact hs.go ⟨rfl, fun _ => trivial⟩
  · exact hs.go ⟨rfl, fun _ => trivial⟩
  · exact hs.go ⟨rfl, fun _ => trivial⟩
  · cases s.direction with
    | rx => exact hs.go ⟨rfl, fun _ => trivial⟩
    | tx => exact (hs.shutDown.setError err).go ⟨rfl, fun _ => trivial⟩
  · exact hs.unlock rfl
  · cases s.direction with
    | rx => exact hs.go ⟨rfl, fun _ => trivial⟩
    | tx => exact hs.unlock rfl

theorem failRxStream_passes (status : StreamError) (after : Point) :
    Passes s (s.failRxStream status after) (.failRx status after) := by
  have hs := Alike.refl s
  unfold failRxStream
  cases s.direction with
  | rx => exact (hs.setError _).notifyOnce ⟨rfl, id⟩
  | tx => exact hs.go ⟨rfl, id⟩

theorem handle_passes (j : ℕ) (status : CompletionStatus) (actualLength : ℤ) (retire : Bool)
    (env : Env) :
    Passes s (s.handle j status actualLength retire env)
      (.handle j status actualLength retire) := by
  have hs := Alike.refl s
  unfold handle
  split
  · exact hs.go ⟨rfl, fun _ => trivial⟩
  · rename_i t _
    split
    · rename_i htimed
      split_ifs
      · exact (hs.setError _).shutDown.go ⟨rfl, fun _ => trivial⟩
      · exact hs.go ⟨rfl, fun hf => absurd htimed.1 hf⟩
    · split
      · exact hs.go ⟨rfl, fun _ => trivial⟩
      · split
        · exact hs.go ⟨rfl, fun _ => trivial⟩
        · cases s.direction with
          | tx =>
              dsimp only
              split
              · exact (hs.setError _).shutDown.go ⟨rfl, fun _ => trivial⟩
              · split
                · exact (hs.setError _).go ⟨rfl, fun _ => trivial⟩
                · cases env.next with
                  | shutdown => exact hs.go ⟨rfl, fun _ => trivial⟩
                  | noData => exact hs.go ⟨rfl, fun _ => trivial⟩
                  | buffer data => exact (hs.setTxGeneration _).wait ⟨rfl, fun _ => trivial⟩
          | rx =>
              cases env.rx with
              | withheld => exact hs.go ⟨rfl, fun _ => trivial⟩
              | notice => exact hs.wait ⟨rfl, fun _ => trivial⟩
              | samples => exact hs.countSampled.wait ⟨rfl, fun _ => trivial⟩

theorem errored_passes (status : CompletionStatus) (retire stale : Bool) :
    Passes s (s.errored status retire stale) (.errored status retire stale) := by
  have hs := (Alike.refl s).shutDown
  unfold errored
  cases status with
  | cancelled =>
      dsimp only
      split_ifs
      · exact (hs.setError _).notifyOnce ⟨rfl, fun _ => trivial⟩
      · exact hs.go ⟨rfl, fun _ => trivial⟩
  | timedOut =>
      dsimp only
      split_ifs
      · exact hs.go ⟨rfl, fun _ => trivial⟩
      · exact hs.notifyOnce ⟨rfl, fun _ => trivial⟩
  | stall => exact hs.notifyOnce ⟨rfl, fun _ => trivial⟩
  | error => exact hs.notifyOnce ⟨rfl, fun _ => trivial⟩
  | overflow => exact hs.notifyOnce ⟨rfl, fun _ => trivial⟩
  | noDevice => exact hs.notifyOnce ⟨rfl, fun _ => trivial⟩
  | unknown => exact (hs.setError _).notifyOnce ⟨rfl, fun _ => trivial⟩
  | completed => exact (hs.setError _).notifyOnce ⟨rfl, fun _ => trivial⟩

theorem nextBuffer_passes (j : ℕ) (retire : Bool) (next : Next) (env : Env) :
    Passes s (s.nextBuffer j retire next env) (.next j retire next) := by
  have hs := Alike.refl s
  unfold nextBuffer
  cases next with
  | shutdown => exact (hs.setTxGeneration _).shutDown.go ⟨rfl, fun _ => trivial⟩
  | noData => exact (hs.setTxGeneration _).go ⟨rfl, fun _ => trivial⟩
  | buffer data =>
      dsimp only
      split_ifs
      · split
        · exact (hs.setError _).shutDown.go ⟨rfl, fun _ => trivial⟩
        · exact hs.go ⟨rfl, fun _ => rfl⟩
      · exact hs.go ⟨rfl, fun _ => rfl⟩

theorem txChecked_passes (j : ℕ) (retire : Bool) (before : StreamState)
    (data : List (BitVec 8)) (submitted : ℕ) (env : Env) :
    Passes s (s.txChecked j retire before data submitted env)
      (.txChecked j retire before data submitted) := by
  have hs := Alike.refl s
  unfold txChecked
  dsimp only
  split
  · exact (hs.setError _).go ⟨rfl, fun _ => trivial⟩
  · exact (hs.setTxGeneration _).go ⟨rfl, fun _ => trivial⟩

theorem tail_passes (retire : Bool) : Passes s (s.tail retire) (.tail retire) := by
  have hs := Alike.refl s
  unfold tail
  split_ifs with hstate hdrained
  · exact (hs.markDone hdrained).go ⟨rfl, fun _ => trivial⟩
  · exact hs.go ⟨rfl, fun _ => trivial⟩
  · exact hs.go ⟨rfl, fun _ => trivial⟩

theorem submitterGo_passes (req : Request) (nonblock : Bool) (status : Option StreamError)
    (env : Env) :
    Passes s (s.submitterGo req nonblock status env) (.submitterGo req nonblock status) := by
  have hs := Alike.refl s
  unfold submitterGo
  split
  · exact hs.unlock rfl
  · split
    · exact hs.unlock rfl
    · cases s.direction with
      | rx => exact hs.go ⟨rfl, id⟩
      | tx =>
          dsimp only
          split_ifs
          · exact hs.unlock rfl
          · exact hs.go ⟨rfl, id⟩
          · exact (hs.setTxGeneration _).wait ⟨rfl, id⟩

theorem run_passes (env : Env) {pt : Point} (hw : pt.works = false) :
    Passes s (s.run env pt) pt := by
  have hs := Alike.refl s
  cases pt with
  | initial k => exact initialSubmit_passes k env
  | initialChecked k before data => exact initialChecked_passes k before data env
  | loop => exact (hs.setLooping true).unlock rfl
  | eventFailed err =>
      show Passes s (s.eventFailed err) (.eventFailed err)
      unfold eventFailed
      cases s.direction with
      | rx => exact hs.go ⟨rfl, fun _ => trivial⟩
      | tx => exact (hs.setError err).shutDown.go ⟨rfl, fun _ => trivial⟩
  | submit req caller => exact absurd hw (by simp [Point.works])
  | returned caller status => exact submitReturned_passes caller status
  | handle j status actualLength retire => exact handle_passes j status actualLength retire env
  | errored status retire stale => exact errored_passes status retire stale
  | rxCalled j retire => exact hs.go ⟨rfl, fun _ => trivial⟩
  | txChecked j retire before data submitted =>
      exact txChecked_passes j retire before data submitted env
  | next j retire next => exact nextBuffer_passes j retire next env
  | tail retire => exact tail_passes retire
  | finish retire => exact absurd hw (by simp [Point.works])
  | failRx status after => exact failRxStream_passes status after
  | failed after => exact hs.shutDown.go ⟨rfl, id⟩
  | wrote code after => exact (hs.setError code).go ⟨rfl, id⟩
  | cancel after => exact absurd hw (by simp [Point.works])
  | submitterWoken req =>
      show Passes s (s.submitterWoken req env) (.submitterWoken req)
      unfold submitterWoken
      split_ifs
      · exact hs.go ⟨rfl, id⟩
      · exact hs.wait ⟨rfl, id⟩
      · exact hs.go ⟨rfl, id⟩
  | submitterGo req nonblock status => exact submitterGo_passes req nonblock status env
  | submitterChecked req before =>
      show Passes s (s.submitterChecked req before env) (.submitterChecked req before)
      unfold submitterChecked
      split_ifs
      · exact hs.unlock rfl
      · exact hs.go ⟨rfl, id⟩
  | unlock => exact hs.unlock rfl

/-! ## What a move keeps -/

/-- Leases that running callbacks keep outside a submission window. -/
def kept (s : Stream) : ℕ :=
  s.holder.elim 0 (·.keeps.toNat) + s.waiting.countP Point.keeps

theorem kept_of_holder {pt : Point} (hh : s.holder = some pt) :
    s.kept = pt.keeps.toNat + s.waiting.countP Point.keeps := by
  show s.holder.elim 0 _ + _ = _
  rw [hh]
  rfl

theorem kept_of_free (hh : s.holder = none) : s.kept = s.waiting.countP Point.keeps := by
  show s.holder.elim 0 _ + _ = _
  rw [hh]
  exact Nat.zero_add _

theorem Moved.kept {pt : Point} (h : Moved s t pt) :
    t.kept = pt.keeps.toNat + s.waiting.countP Point.keeps := by
  cases h with
  | ends hk hh hw =>
      rw [kept_of_free hh, hw, hk]
      exact (Nat.zero_add _).symm
  | goes q hq hh hw => rw [kept_of_holder hh, hw, hq.1]
  | waits q hq hh hw =>
      rw [kept_of_free hh, hw, List.countP_append, List.countP_singleton, hq.1, Nat.add_comm]
      cases pt.keeps <;> rfl

end Stream

end BladeRF.Usb
