/-
# `Lib.Scan` — the two index scans of a ring

`firstMinBelow` is the loop `for i: if (key[i] < best) { best = key[i]; at = i; }`
started from a bound: the first index of the least key below the bound.
`findFrom` is the loop that walks a ring once from a start index and stops at
the first index with a property.  Both are stated by what they return; the
proofs of a ring's operations use only these statements.  The last lemma is
the scan that takes an element out of a list.
-/
import Mathlib.Data.List.FinRange
import Mathlib.Algebra.Group.Fin.Basic
import Mathlib.Algebra.GroupWithZero.Nat

namespace Lib

variable {n : ℕ}

/-- Whether an index is in a list is decided by comparing indices. -/
instance decidableMemIndices (i : Fin n) (l : List (Fin n)) : Decidable (i ∈ l) :=
  inferInstance

/-- One iteration: keep the best index so far with its key. -/
def minStep (key : Fin n → Option ℕ) (best : Option (Fin n) × ℕ) (i : Fin n) :
    Option (Fin n) × ℕ :=
  match key i with
  | none => best
  | some k => if k < best.2 then (some i, k) else best

/-- The first index whose key is least, if some key is below `bound`. -/
def firstMinBelow (bound : ℕ) (key : Fin n → Option ℕ) : Option (Fin n) :=
  ((List.finRange n).foldl (minStep key) (none, bound)).1

/-- What the scan knows after the indices `seen`. -/
structure MinScan (bound : ℕ) (key : Fin n → Option ℕ) (seen : List (Fin n))
    (best : Option (Fin n) × ℕ) : Prop where
  le : ∀ j ∈ seen, ∀ k, key j = some k → best.2 ≤ k
  none_eq : best.1 = none → best.2 = bound
  some_eq : ∀ i, best.1 = some i → key i = some best.2 ∧ best.2 < bound

theorem minScan_foldl {bound : ℕ} {key : Fin n → Option ℕ} :
    ∀ (rest seen : List (Fin n)) (best : Option (Fin n) × ℕ),
      MinScan bound key seen best →
      MinScan bound key (seen ++ rest) (rest.foldl (minStep key) best)
  | [], seen, best, h => by simpa using h
  | i :: rest, seen, best, h => by
      have hstep : MinScan bound key (seen ++ [i]) (minStep key best i) := by
        obtain ⟨hle, hnone, hsome⟩ := h
        have hbound : best.2 ≤ bound := by
          cases hb : best.1 with
          | none => exact (hnone hb).le
          | some j => exact (hsome j hb).2.le
        cases hk : key i with
        | none =>
            simp only [minStep, hk]
            refine ⟨fun j hj k hjk => ?_, hnone, hsome⟩
            rcases List.mem_append.mp hj with hj | hj
            · exact hle j hj k hjk
            · rw [List.mem_singleton.mp hj, hk] at hjk
              exact absurd hjk (by simp)
        | some k =>
            by_cases hlt : k < best.2
            · simp only [minStep, hk, if_pos hlt]
              refine ⟨fun j hj m hjm => ?_, fun h => by simp at h, fun j hj => ?_⟩
              · rcases List.mem_append.mp hj with hj | hj
                · exact hlt.le.trans (hle j hj m hjm)
                · rw [List.mem_singleton.mp hj, hk] at hjm
                  exact (Option.some.inj hjm).le
              · obtain rfl := Option.some.inj hj
                exact ⟨hk, hlt.trans_le hbound⟩
            · simp only [minStep, hk, if_neg hlt]
              refine ⟨fun j hj m hjm => ?_, hnone, hsome⟩
              rcases List.mem_append.mp hj with hj | hj
              · exact hle j hj m hjm
              · rw [List.mem_singleton.mp hj, hk] at hjm
                exact (Option.some.inj hjm) ▸ Nat.le_of_not_lt hlt
      have := minScan_foldl rest (seen ++ [i]) _ hstep
      simpa using this

theorem minScan_finRange (bound : ℕ) (key : Fin n → Option ℕ) :
    MinScan bound key (List.finRange n)
      ((List.finRange n).foldl (minStep key) (none, bound)) := by
  have h0 : MinScan bound key [] ((none : Option (Fin n)), bound) :=
    ⟨by simp, fun _ => rfl, by simp⟩
  simpa using minScan_foldl (List.finRange n) [] _ h0

/-- The index found has the least key of all, and it is below the bound. -/
theorem firstMinBelow_some {bound : ℕ} {key : Fin n → Option ℕ} {i : Fin n}
    (h : firstMinBelow bound key = some i) :
    ∃ k, key i = some k ∧ k < bound ∧ ∀ j m, key j = some m → k ≤ m := by
  have hs := minScan_finRange bound key
  obtain ⟨hk, hb⟩ := hs.some_eq i h
  exact ⟨_, hk, hb, fun j m hm => hs.le j (List.mem_finRange j) m hm⟩

theorem firstMinBelow_none {bound : ℕ} {key : Fin n → Option ℕ}
    (h : firstMinBelow bound key = none) :
    ∀ j m, key j = some m → bound ≤ m := by
  have hs := minScan_finRange bound key
  intro j m hm
  exact hs.none_eq h ▸ hs.le j (List.mem_finRange j) m hm

/-- The first index with property `p`, walking the ring once from `start`. -/
def findFrom [NeZero n] (start : Fin n) (p : Fin n → Bool) : Option (Fin n) :=
  ((List.finRange n).map (start + ·)).find? p

theorem findFrom_some [NeZero n] {start i : Fin n} {p : Fin n → Bool}
    (h : findFrom start p = some i) : p i = true :=
  List.find?_some h

theorem findFrom_none [NeZero n] {start : Fin n} {p : Fin n → Bool}
    (h : findFrom start p = none) (i : Fin n) : p i = false := by
  have hall := List.find?_eq_none.mp h
  have hi : i ∈ (List.finRange n).map (start + ·) :=
    List.mem_map.mpr ⟨i - start, List.mem_finRange _, add_sub_cancel start i⟩
  simpa using hall i hi

/-- The indices below a bound, as numbers. -/
theorem filter_lt_finRange (x : ℕ) :
    ((List.finRange n).filter (fun i => decide (i.val < x))).map Fin.val
      = List.range (min x n) := by
  have hrange : ∀ m : ℕ, (List.range m).filter (fun i => decide (i < x))
      = List.range (min x m) := by
    intro m
    induction m with
    | zero => simp
    | succ m ih =>
        rw [List.range_succ, List.filter_append, ih]
        by_cases h : m < x
        · have hmin : min x (m + 1) = min x m + 1 := by omega
          have hm : m = min x m := by omega
          rw [hmin, List.range_succ, ← hm]
          simp [h]
        · have hmin : min x (m + 1) = min x m := by omega
          simp [h, hmin]
  rw [← hrange, ← List.map_coe_finRange_eq_range, List.filter_map]
  rfl

/-- Removing the element a search finds leaves the rest, up to order. -/
theorem perm_cons_eraseP_of_find? {β : Type*} {p : β → Bool} {l : List β} {e : β}
    (h : l.find? p = some e) : l.Perm (e :: l.eraseP p) := by
  induction l with
  | nil => simp at h
  | cons x xs ih =>
      by_cases hx : p x = true
      · rw [List.find?_cons_of_pos hx, Option.some.injEq] at h
        rw [List.eraseP_cons_of_pos hx, h]
      · rw [List.find?_cons_of_neg hx] at h
        rw [List.eraseP_cons_of_neg hx]
        exact ((ih h).cons x).trans (List.Perm.swap e x _)

end Lib
