/-
# `Lib.Bisect` — the halving search for a partition point

`bisect p n lo hi` is the loop that halves `[lo, hi)` and keeps the half in
which a predicate on indices turns from true to false; `n` bounds the number of
halvings.  Where the predicate is true below a point and false from it on, the
search returns that point.
-/
import Mathlib.Order.Basic
import Mathlib.Data.Nat.Init

namespace Lib

/-- `while (lo < hi) { mid = lo + (hi - lo) / 2; … }`. -/
def bisect (p : ℕ → Bool) : ℕ → ℕ → ℕ → ℕ
  | 0, lo, _ => lo
  | n + 1, lo, hi =>
      if lo < hi then
        if p (lo + (hi - lo) / 2) then bisect p n (lo + (hi - lo) / 2 + 1) hi
        else bisect p n lo (lo + (hi - lo) / 2)
      else lo

/-- The search stays on the partition point it has on its two sides. -/
theorem bisect_eq {p : ℕ → Bool} {m : ℕ} (hbelow : ∀ i < m, p i = true)
    {n : ℕ} : ∀ {lo hi : ℕ}, hi - lo ≤ n → lo ≤ m → m ≤ hi →
      (∀ i, m ≤ i → i < hi → p i = false) → bisect p n lo hi = m := by
  induction n with
  | zero =>
      intro lo hi hn hlo hhi _
      show lo = m
      omega
  | succ n ih =>
      intro lo hi hn hlo hhi habove
      unfold bisect
      split_ifs with hlt hp
      · refine ih (by omega) ?_ hhi habove
        by_contra hm
        rw [habove _ (by omega) (by omega)] at hp
        cases hp
      · refine ih (by omega) hlo ?_ (fun i h1 h2 => habove i h1 (by omega))
        by_contra hm
        exact hp (hbelow _ (by omega))
      · omega

end Lib
