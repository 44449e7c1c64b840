/-
# `Lib.Signal` — condition variables

A condition variable is the set of the threads asleep on it.  A signal wakes
one of them, and which one is not up to the program: the choice is an argument.
A signal that finds nobody asleep is lost.
-/
import Mathlib.Data.Finset.Basic

namespace Lib

variable {ι : Type*} [DecidableEq ι] {sleeping t : Finset ι} {choice : Option ι} {i : ι}

/-- The threads still asleep after a signal that wakes `choice`; `none` when
the signal cannot have gone that way. -/
def signal (sleeping : Finset ι) : Option ι → Option (Finset ι)
  | none => if sleeping = ∅ then some ∅ else none
  | some i => if i ∈ sleeping then some (sleeping.erase i) else none

theorem signal_some (h : i ∈ sleeping) : signal sleeping (some i) = some (sleeping.erase i) :=
  if_pos h

/-- Who sleeps after a signal slept before and was not chosen. -/
theorem mem_signal (h : signal sleeping choice = some t) :
    i ∈ t ↔ i ∈ sleeping ∧ choice ≠ some i := by
  cases choice with
  | none =>
      simp only [signal] at h
      split at h <;> cases h
      rename_i he
      simp [he]
  | some j =>
      simp only [signal] at h
      split at h <;> cases h
      simp only [Finset.mem_erase, ne_eq, Option.some.injEq]
      exact ⟨fun ⟨hne, hi⟩ => ⟨hi, fun hj => hne hj.symm⟩, fun ⟨hi, hne⟩ => ⟨fun hj => hne hj.symm, hi⟩⟩

end Lib
