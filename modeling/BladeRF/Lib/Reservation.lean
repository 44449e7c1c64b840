/-
# `Lib.Reservation` — a flag that threads take and give back

A reservation without an owner is a flag: a thread sets it where it finds it
clear, and clears it when it is done.  Nothing in the flag says who set it, so
whether it excludes anybody depends on every thread that writes it.  `Turn` is
what one thread may do; a thread may also go away without giving the flag back,
which excludes the others for good but harms nobody.
-/
import Mathlib.Logic.Function.Basic

namespace Lib

variable {θ π : Type*} [DecidableEq θ]

/-- What a step of one thread may do to the flag.  `holds` says at which of its
program points a thread relies on the flag. -/
inductive Turn (holds : π → Prop) (flag : Bool) (p : π) : Bool → π → Prop
  | take {q : π} : flag = false → Turn holds flag p true q
  | keep {q : π} : (holds q → holds p) → Turn holds flag p flag q
  | release {q : π} : holds p → ¬ holds q → Turn holds flag p false q

/-- The flag is set while somebody relies on it, and nobody else does. -/
structure Exclusive (holds : π → Prop) (flag : Bool) (pc : θ → π) : Prop where
  set : ∀ k, holds (pc k) → flag = true
  unique : ∀ j k, holds (pc j) → holds (pc k) → j = k

section Turn

variable {holds : π → Prop} {flag flag' : Bool} {p q : π} {pc : θ → π} {j k : θ}

theorem Turn.holds_of_cleared (h : Turn holds flag p flag' q) (hflag : flag = true)
    (hcleared : flag' = false) : holds p := by
  cases h with
  | take => cases hcleared
  | keep => exact absurd (hflag.symm.trans hcleared) (by decide)
  | release hp => exact hp

/-- While the flag is set nobody new comes to rely on it. -/
theorem Turn.holds_of_set (h : Turn holds flag p flag' q) (hflag : flag = true) (hq : holds q) :
    holds p := by
  cases h with
  | take hclear => exact absurd (hclear.symm.trans hflag) (by decide)
  | keep hkeep => exact hkeep hq
  | release hp => exact hp

theorem Turn.of_eq (h : flag' = flag) (hkeep : holds q → holds p) : Turn holds flag p flag' q :=
  h ▸ .keep hkeep

omit [DecidableEq θ] in
theorem exclusive_of_none (h : ∀ k, ¬ holds (pc k)) : Exclusive holds flag pc where
  set k hk := absurd hk (h k)
  unique j _ hj := absurd hj (h j)

theorem Exclusive.turn (h : Exclusive holds flag pc) (ht : Turn holds flag (pc k) flag' q) :
    Exclusive holds flag' (Function.update pc k q) := by
  have hother : ∀ j, j ≠ k → Function.update pc k q j = pc j :=
    fun j hj => Function.update_of_ne hj q pc
  cases ht with
  | take hclear =>
      have hnone : ∀ j, j ≠ k → ¬ holds (Function.update pc k q j) := by
        intro j hj hholds
        rw [hother j hj] at hholds
        exact absurd (hclear.symm.trans (h.set j hholds)) (by decide)
      refine ⟨fun _ _ => rfl, ?_⟩
      intro i j hi hj
      have hik : i = k := by_contra fun hne => hnone i hne hi
      have hjk : j = k := by_contra fun hne => hnone j hne hj
      exact hik.trans hjk.symm
  | keep hkeep =>
      have hback : ∀ j, holds (Function.update pc k q j) → holds (pc j) := by
        intro j hj
        by_cases hjk : j = k
        · subst hjk
          rw [Function.update_self] at hj
          exact hkeep hj
        · rwa [hother j hjk] at hj
      refine ⟨fun j hj => h.set j (hback j hj), ?_⟩
      intro i j hi hj
      exact h.unique i j (hback i hi) (hback j hj)
  | release hp hq =>
      refine exclusive_of_none fun j hj => ?_
      by_cases hjk : j = k
      · subst hjk
        rw [Function.update_self] at hj
        exact hq hj
      · rw [hother j hjk] at hj
        exact hjk (h.unique j k hj hp)

end Turn
end Lib
