/-
# `Lib.Shift` — registers in a row

A chain of registers moves up by one place a clock.  Place `k` shows the input of
`k + 1` clocks ago.  A chain of bits may be cleared, and data may move beside a
chain of bits, where each place has the bit before it as its clock enable.
-/
import Mathlib.Data.Fin.Tuple.Basic

namespace Lib

variable {α : Type*} {n : ℕ}

/-- The chain behind a clock. -/
def shift (x : α) (r : Fin (n + 1) → α) : Fin (n + 1) → α :=
  Fin.cases x fun k => r k.castSucc

@[simp] theorem shift_zero (x : α) (r : Fin (n + 1) → α) : shift x r 0 = x := rfl

@[simp] theorem shift_succ (x : α) (r : Fin (n + 1) → α) (k : Fin n) :
    shift x r k.succ = r k.castSucc := rfl

/-- What goes in is at place `k` after `k + 1` clocks. -/
theorem shift_at {r : ℕ → Fin (n + 1) → α} {x : ℕ → α}
    (h : ∀ t, r (t + 1) = shift (x t) (r t)) (t : ℕ) (k : Fin (n + 1)) :
    r (t + k + 1) k = x t := by
  induction k using Fin.induction with
  | zero => rw [h, shift_zero]; rfl
  | succ k ih => rw [h, shift_succ]; exact ih

/-- A chain of bits that `q` clears shows what went in if nothing cleared it on the
way, and nothing else. -/
theorem shift_clear_iff {r : ℕ → Fin (n + 1) → Bool} {x q : ℕ → Bool}
    (h0 : ∀ k, r 0 k = false)
    (h : ∀ t, r (t + 1) = if q t then fun _ => false else shift (x t) (r t)) {t : ℕ}
    {k : Fin (n + 1)} :
    r t k = true ↔ ∃ u, t = u + k + 1 ∧ x u = true ∧ ∀ w, u ≤ w → w < t → q w = false := by
  induction t generalizing k with
  | zero =>
      rw [h0]
      constructor
      · exact fun hno => absurd hno Bool.false_ne_true
      · rintro ⟨u, hu, -⟩
        omega
  | succ t ih =>
      rw [h]
      cases hq : q t with
      | true =>
          constructor
          · exact fun hno => absurd hno Bool.false_ne_true
          · rintro ⟨u, hu, -, hquiet⟩
            exact absurd (hq.symm.trans (hquiet t (by omega) (by omega))) (by decide)
      | false =>
          rw [if_neg Bool.false_ne_true]
          cases k using Fin.cases with
          | zero =>
              rw [shift_zero]
              constructor
              · intro hx
                refine ⟨t, rfl, hx, ?_⟩
                intro w htw hwt
                obtain rfl : w = t := by omega
                exact hq
              · rintro ⟨u, hu, hx, -⟩
                obtain rfl : t = u := Nat.succ.inj hu
                exact hx
          | succ k =>
              rw [shift_succ, ih]
              constructor
              · rintro ⟨u, hu, hx, hquiet⟩
                refine ⟨u, congrArg Nat.succ hu, hx, ?_⟩
                intro w huw hwt
                rcases Nat.lt_succ_iff_lt_or_eq.mp hwt with hlt | rfl
                · exact hquiet w huw hlt
                · exact hq
              · rintro ⟨u, hu, hx, hquiet⟩
                exact ⟨u, Nat.succ.inj hu, hx, fun w huw hwt => hquiet w huw (by omega)⟩

/-- A chain of bits that nothing clears. -/
theorem shift_iff {r : ℕ → Fin (n + 1) → Bool} {x : ℕ → Bool} (h0 : ∀ k, r 0 k = false)
    (h : ∀ t, r (t + 1) = shift (x t) (r t)) {t : ℕ} {k : Fin (n + 1)} :
    r t k = true ↔ ∃ u, t = u + k + 1 ∧ x u = true := by
  rw [shift_clear_iff (q := fun _ => false) h0
    fun t => (h t).trans (if_neg Bool.false_ne_true).symm]
  simp

/-- Data beside a chain `v` of bits; a place loads when the bit before it is set.
What goes in with its bit goes through. -/
theorem carry_at {r : ℕ → Fin (n + 1) → α} {x : ℕ → α} {v : ℕ → Fin (n + 1) → Bool}
    {e : ℕ → Bool} (hv : ∀ t, v (t + 1) = shift (e t) (v t))
    (h : ∀ t k, r (t + 1) k = if shift (e t) (v t) k then shift (x t) (r t) k else r t k)
    {t : ℕ} (he : e t = true) (k : Fin (n + 1)) : r (t + k + 1) k = x t := by
  induction k using Fin.induction with
  | zero =>
      rw [h, shift_zero, shift_zero]
      exact if_pos he
  | succ k ih =>
      have hk : v (t + k + 1) k.castSucc = true := (shift_at hv t k.castSucc).trans he
      rw [h, shift_succ, shift_succ]
      exact (if_pos hk).trans ih

end Lib
