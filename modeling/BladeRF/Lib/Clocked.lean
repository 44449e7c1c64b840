/-
# `Lib.Clocked` — synchronous systems, clock after clock

A design with its surroundings is a function that takes the state before a
clock to the state after it.  The inputs depend on the clock and, where a queue
closes the loop, on the state as well, so the function has both.
-/
import Mathlib.Data.Nat.Notation
import Mathlib.Tactic.ByContra

namespace Lib

variable {σ : Type*}

/-- The state before each clock. -/
def trace (next : ℕ → σ → σ) (s₀ : σ) : ℕ → σ
  | 0 => s₀
  | t + 1 => next t (trace next s₀ t)

variable {next : ℕ → σ → σ} {s₀ : σ}

/-- The invariant rule.  What a clock needs to keep `P` may be asked of every
clock up to the one in question. -/
theorem trace_invariant {P Q : ℕ → σ → Prop} (h0 : P 0 s₀)
    (hnext : ∀ t s, P t s → Q t s → P (t + 1) (next t s)) :
    ∀ t, (∀ u < t, Q u (trace next s₀ u)) → P t (trace next s₀ t) := by
  intro t
  induction t with
  | zero => intro _; exact h0
  | succ t ih =>
      intro hok
      exact hnext t _ (ih fun u hu => hok u (by omega)) (hok t (by omega))

/-- The invariant rule for what every clock keeps. -/
theorem trace_always {P : ℕ → σ → Prop} (h0 : P 0 s₀)
    (hnext : ∀ t s, P t s → P (t + 1) (next t s)) (t : ℕ) : P t (trace next s₀ t) :=
  trace_invariant (Q := fun _ _ => True) h0 (fun u s h _ => hnext u s h) t fun _ _ => trivial

/-- A rank that falls as long as `P` fails cannot fall for ever. -/
theorem reaches_of_rank {x : ℕ → σ} {P : σ → Prop} (rank : σ → ℕ)
    (hfall : ∀ n, ¬P (x n) → rank (x (n + 1)) < rank (x n)) : ∃ n, P (x n) := by
  suffices h : ∀ k n, rank (x n) ≤ k → ∃ m, P (x m) from h _ 0 (Nat.le_refl _)
  intro k
  induction k with
  | zero =>
      intro n hn
      refine ⟨n, ?_⟩
      by_contra hP
      have := hfall n hP
      omega
  | succ k ih =>
      intro n hn
      by_cases hP : P (x n)
      · exact ⟨n, hP⟩
      · have := hfall n hP
        exact ih (n + 1) (by omega)

end Lib
