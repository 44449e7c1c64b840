/-
# `Lib.Locks` — mutexes as flags of one thread

The mutexes a thread owns are a finite set, and what it does to them is a list
of operations.  Locking a mutex it owns and unlocking one it does not own are
errors, so `lockOps` is partial; that it is defined is the thread's lock
discipline along the list.
-/
import Mathlib.Data.Finset.Basic

namespace Lib

variable {μ : Type*} [DecidableEq μ]

/-- `MUTEX_LOCK` and `MUTEX_UNLOCK`. -/
inductive LockOp (μ : Type*) where
  | lock (m : μ)
  | unlock (m : μ)

/-- One operation on the mutexes `held`. -/
def LockOp.apply (held : Finset μ) : LockOp μ → Option (Finset μ)
  | .lock m => if m ∈ held then none else some (insert m held)
  | .unlock m => if m ∈ held then some (held.erase m) else none

/-- The operations in order; `none` once one of them is an error. -/
def lockOps (held : Finset μ) : List (LockOp μ) → Option (Finset μ)
  | [] => some held
  | op :: ops => (op.apply held).bind (fun held' => lockOps held' ops)

theorem lockOps_append (held : Finset μ) (ops ops' : List (LockOp μ)) :
    lockOps held (ops ++ ops') = (lockOps held ops).bind (fun held' => lockOps held' ops') := by
  induction ops generalizing held with
  | nil => rfl
  | cons op ops ih =>
      simp only [List.cons_append, lockOps]
      cases op.apply held with
      | none => rfl
      | some held' => exact ih held'

/-- Two stretches in sequence. -/
theorem lockOps_append_of_eq_some {held held' held'' : Finset μ} {ops ops' : List (LockOp μ)}
    (h : lockOps held ops = some held') (h' : lockOps held' ops' = some held'') :
    lockOps held (ops ++ ops') = some held'' := by
  rw [lockOps_append, h]
  exact h'

/-- A stretch that gives back what it takes may be skipped. -/
theorem lockOps_ite_of_balanced {held : Finset μ} {ops : List (LockOp μ)}
    (h : lockOps held ops = some held) (p : Prop) [Decidable p] :
    lockOps held (if p then ops else []) = some held := by
  split
  · exact h
  · rfl

end Lib
