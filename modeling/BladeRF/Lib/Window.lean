/-
# `Lib.Window` — sequence numbers issued and not yet retired

Numbers are issued one after another and retired one after another, in a type
where counting may wrap.  The numbers in between are the multiset
`{a, a + 1, …, a + (k - 1)}`; retiring takes the first of them away and issuing
adds the next.  A multiset and not a set, so that nothing has to be assumed
about how large the window is against the period of the counter.
-/
import Mathlib.Data.Multiset.Range
import Mathlib.Data.Nat.Cast.Basic

namespace Lib

variable {R : Type*} [AddCommMonoidWithOne R]

/-- The `k` numbers from `a` on. -/
def window (a : R) (k : ℕ) : Multiset R :=
  (Multiset.range k).map (fun i : ℕ => a + (i : R))

/-- Issuing: the next number joins at the end. -/
theorem window_succ_last (a : R) (k : ℕ) :
    window a (k + 1) = (a + (k : R)) ::ₘ window a k := by
  simp only [window, Multiset.range_succ, Multiset.map_cons]

/-- Retiring: the first number leaves. -/
theorem window_succ (a : R) (k : ℕ) : window a (k + 1) = a ::ₘ window (a + 1) k := by
  induction k with
  | zero => simp [window]
  | succ k ih =>
      rw [window_succ_last, ih, window_succ_last, Multiset.cons_swap]
      congr 2
      push_cast
      rw [add_assoc, add_comm (1 : R)]

/-- If some number is outstanding, the first one is. -/
theorem mem_window {a : R} {k : ℕ} (h : window a k ≠ 0) : a ∈ window a k := by
  cases k with
  | zero => exact absurd rfl h
  | succ k => rw [window_succ]; exact Multiset.mem_cons_self a _

/-- What is left when the first number is taken out. -/
theorem window_cons_cancel {a : R} {m : Multiset R} {k : ℕ} (h : a ::ₘ m = window a k) :
    ∃ j, k = j + 1 ∧ m = window (a + 1) j := by
  cases k with
  | zero => exact absurd h (Multiset.cons_ne_zero)
  | succ j =>
      rw [window_succ] at h
      exact ⟨j, rfl, Multiset.cons_inj_right a |>.mp h⟩

end Lib
