/-
# `Lib.Laps` — an array written round and round

The `i`-th element goes to slot `i % depth`, over the one written a lap before.
What is still there is the last `depth` elements, each in its own slot, and what
was there at the start in the slots of a first lap that is not complete.
-/
import Mathlib.Data.List.Induction
import Mathlib.Data.Nat.ModEq

namespace Lib

variable {α : Type*} {depth : ℕ} {init : ℕ → α}

/-- The slots after the elements of a list, the last of them first in the
recursion. -/
def laps (depth : ℕ) (init : ℕ → α) (l : List α) : ℕ → α :=
  (l.foldl (fun (s : ℕ × (ℕ → α)) a => (s.1 + 1, Function.update s.2 (s.1 % depth) a))
    (0, init)).2

theorem foldl_laps_fst (depth : ℕ) (l : List α) (s : ℕ × (ℕ → α)) :
    (l.foldl (fun (s : ℕ × (ℕ → α)) a => (s.1 + 1, Function.update s.2 (s.1 % depth) a))
      s).1 = s.1 + l.length := by
  induction l generalizing s with
  | nil => rfl
  | cons a l ih =>
      rw [List.foldl_cons, ih, List.length_cons]
      omega

theorem laps_concat (l : List α) (a : α) :
    laps depth init (l ++ [a]) =
      Function.update (laps depth init l) (l.length % depth) a := by
  have hlen := foldl_laps_fst depth l (0, init)
  rw [Nat.zero_add] at hlen
  rw [laps, List.foldl_append, List.foldl_cons, List.foldl_nil]
  simp only [hlen]
  rfl

/-- One of the last `depth` elements is still in its slot. -/
theorem laps_of_getElem? {l : List α} {i : ℕ} {a : α} (h : l[i]? = some a)
    (hnew : l.length ≤ i + depth) : laps depth init l (i % depth) = a := by
  induction l using List.reverseRecOn with
  | nil => exact absurd h (by simp)
  | append_singleton l b ih =>
      rw [List.length_append, List.length_singleton] at hnew
      rw [laps_concat]
      rcases Nat.lt_trichotomy i l.length with hlt | rfl | hgt
      · rw [List.getElem?_append_left hlt] at h
        have hne : i % depth ≠ l.length % depth := by
          intro hmod
          have hdvd : depth ∣ l.length - i := (Nat.modEq_iff_dvd' hlt.le).mp hmod
          have hle := Nat.le_of_dvd (by omega) hdvd
          omega
        rw [Function.update_of_ne hne]
        exact ih h (by omega)
      · rw [List.getElem?_concat_length] at h
        rw [Function.update_self]
        exact Option.some.inj h
      · rw [List.getElem?_eq_none (by simp; omega)] at h
        cases h

/-- A slot that no element has reached. -/
theorem laps_of_length_le {l : List α} {k : ℕ} (hk : l.length ≤ k) (hd : k < depth) :
    laps depth init l k = init k := by
  induction l using List.reverseRecOn with
  | nil => rfl
  | append_singleton l b ih =>
      rw [List.length_append, List.length_singleton] at hk
      have hmod : l.length % depth = l.length := Nat.mod_eq_of_lt (by omega)
      rw [laps_concat, hmod, Function.update_of_ne (by omega)]
      exact ih (by omega)

/-- Every slot holds one of the last `depth` elements or what was there at the
start. -/
theorem laps_cases (init : ℕ → α) (l : List α) {k : ℕ} (hd : k < depth) :
    (∃ i a, l[i]? = some a ∧ l.length ≤ i + depth ∧ i % depth = k ∧
      laps depth init l k = a) ∨
    (l.length ≤ k ∧ laps depth init l k = init k) := by
  rcases Nat.lt_or_ge k l.length with hlt | hge
  · -- the newest index that falls on the slot
    let i := k + depth * ((l.length - 1 - k) / depth)
    have hdiv := Nat.div_add_mod (l.length - 1 - k) depth
    have hrem := Nat.mod_lt (l.length - 1 - k) (Nat.zero_lt_of_lt hd)
    have hi : i < l.length := by omega
    have hnew : l.length ≤ i + depth := by omega
    have hmod : i % depth = k := by
      rw [Nat.add_mul_mod_self_left, Nat.mod_eq_of_lt hd]
    obtain ⟨a, ha⟩ : ∃ a, l[i]? = some a := ⟨l[i], List.getElem?_eq_getElem hi⟩
    have hslot : laps depth init l (i % depth) = a := laps_of_getElem? ha hnew
    rw [hmod] at hslot
    exact .inl ⟨i, a, ha, hnew, hmod, hslot⟩
  · exact .inr ⟨hge, laps_of_length_le hge hd⟩

end Lib
