/-
# `Lib.Climb` — reports of a growing quantity

A quantity that only grows is reported now and then.  When every report is
larger than the one before it, the reports cut the growth into steps, and each
value that was passed lies in exactly one of them.
-/
import Mathlib.Data.List.Basic
import Mathlib.Data.List.Pairwise
import Mathlib.Order.Lattice
import Mathlib.Order.Nat

namespace Lib

section
variable {α : Type*} {a x : α} {l : List α}

/-- What was reported last, `a` when nothing was. -/
def top (a : α) (l : List α) : α := l.getLastD a

@[simp] theorem top_nil : top a [] = a := rfl

@[simp] theorem top_concat : top a (l ++ [x]) = x := by
  simp [top, List.getLastD_eq_getLast?]

@[simp] theorem top_cons (b : α) : top a (b :: l) = top b l := List.getLastD_cons ..

end

variable {α : Type*} [LinearOrder α] {a n x : α} {l : List α}

/-- From `a` on every report is larger than the one before. -/
def Climbs (a : α) (l : List α) : Prop := (a :: l).Pairwise (· < ·)

theorem climbs_nil : Climbs a [] := List.pairwise_singleton _ _

theorem Climbs.le_top (h : Climbs a l) {y : α} (hy : y ∈ a :: l) : y ≤ top a l := by
  induction l generalizing a y with
  | nil => exact (List.mem_singleton.mp hy).le
  | cons b l ih =>
      obtain ⟨ha, hrest⟩ := List.pairwise_cons.mp h
      rw [top_cons]
      obtain rfl | hy := List.mem_cons.mp hy
      · exact (ha b List.mem_cons_self).le.trans (ih hrest List.mem_cons_self)
      · exact ih hrest hy

/-- A larger report can follow. -/
theorem Climbs.concat (h : Climbs a l) (hx : top a l < x) : Climbs a (l ++ [x]) := by
  unfold Climbs at h ⊢
  rw [← List.cons_append, List.pairwise_append]
  refine ⟨h, List.pairwise_singleton _ _, fun y hy z hz => ?_⟩
  rw [List.mem_singleton.mp hz]
  exact (Climbs.le_top h hy).trans_lt hx

/-- The value `n` is passed by the report at `k`: it is not below the report
before, and below this one. -/
def PassedAt (a : α) (l : List α) (n : α) (k : ℕ) : Prop :=
  ∃ lo hi, (a :: l)[k]? = some lo ∧ l[k]? = some hi ∧ lo ≤ n ∧ n < hi

/-- Reports at different places do not pass one value. -/
theorem Climbs.not_passed_twice (h : Climbs a l) {j k : ℕ} (hjk : j < k)
    (hj : PassedAt a l n j) : ¬PassedAt a l n k := by
  rintro ⟨lo, -, hlo, -, hle, -⟩
  obtain ⟨-, hi, -, hhi, -, hlt⟩ := hj
  obtain ⟨hk, rfl⟩ := List.getElem?_eq_some_iff.mp hlo
  have hcons : (a :: l)[j + 1]? = some hi := by rwa [List.getElem?_cons_succ]
  obtain ⟨hj', rfl⟩ := List.getElem?_eq_some_iff.mp hcons
  have hle' : (a :: l)[j + 1] ≤ (a :: l)[k] := by
    obtain heq | hne := Nat.eq_or_lt_of_le (Nat.succ_le_of_lt hjk)
    · subst heq
      exact le_rfl
    · exact (List.pairwise_iff_getElem.mp h _ _ _ _ hne).le
  exact absurd (hlt.trans_le (hle'.trans hle)) (lt_irrefl _)

/-- Whatever was passed was passed by exactly one report. -/
theorem Climbs.exactlyOne (h : Climbs a l) (ha : a ≤ n) (hn : n < top a l) :
    ∃! k, PassedAt a l n k := by
  have hex : ∃ k, PassedAt a l n k := by
    clear h
    induction l generalizing a with
    | nil => exact absurd hn ha.not_gt
    | cons b l ih =>
        by_cases hb : n < b
        · exact ⟨0, a, b, rfl, rfl, ha, hb⟩
        · obtain ⟨k, lo, hi, hlo, hhi, hn⟩ := ih (not_lt.mp hb) (by rwa [top_cons] at hn)
          exact ⟨k + 1, lo, hi, by simpa using hlo, by simpa using hhi, hn⟩
  obtain ⟨k, hk⟩ := hex
  refine ⟨k, hk, fun j hj => ?_⟩
  obtain hlt | heq | hgt := lt_trichotomy j k
  · exact absurd hk (h.not_passed_twice hlt hj)
  · exact heq
  · exact absurd hj (h.not_passed_twice hgt hk)

end Lib
