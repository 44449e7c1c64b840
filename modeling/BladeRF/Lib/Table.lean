/-
# `Lib.Table` — updating one entry of a table

A table is a list whose entries are updated in place.  What holds of every entry
survives an update that keeps it, and a count moves by what the update changes.
-/
import Mathlib.Data.List.Perm.Basic

namespace Lib

variable {α : Type*} {l : List α} {j : ℕ} {t : α}

/-- The count after one entry is taken out. -/
theorem countP_eraseIdx (q : α → Bool) (h : l[j]? = some t) :
    (l.eraseIdx j).countP q + (q t).toNat = l.countP q := by
  obtain ⟨hj, rfl⟩ := List.getElem?_eq_some_iff.mp h
  rw [← (List.getElem_cons_eraseIdx_perm hj).countP_eq, List.countP_cons]
  cases q l[j] <;> rfl

/-- The count of a property moves with the updated entry. -/
theorem countP_modify (q : α → Bool) (f : α → α) (h : l[j]? = some t) :
    (l.modify j f).countP q + (q t).toNat = l.countP q + (q (f t)).toNat := by
  have hnew := countP_eraseIdx (l := l.modify j f) (j := j) (t := f t) q (by simp [h])
  rw [List.eraseIdx_modify_of_eq] at hnew
  have hold := countP_eraseIdx q h
  omega

/-- An entry after the update is an old one or the updated one. -/
theorem mem_modify {f : α → α} (h : t ∈ l.modify j f) : t ∈ l ∨ ∃ x, l[j]? = some x ∧ f x = t := by
  obtain ⟨i, hi⟩ := List.mem_iff_getElem?.mp h
  rw [List.getElem?_modify] at hi
  obtain ⟨x, hx, hxt⟩ := Option.map_eq_some_iff.mp hi
  by_cases hij : j = i
  · subst hij
    exact .inr ⟨x, hx, by simpa using hxt⟩
  · rw [if_neg hij] at hxt
    exact .inl (hxt ▸ List.mem_of_getElem? hx)

theorem forall_mem_modify {P : α → Prop} {f : α → α} (hall : ∀ t ∈ l, P t)
    (hf : ∀ t, l[j]? = some t → P (f t)) : ∀ t ∈ l.modify j f, P t := by
  intro t ht
  rcases mem_modify ht with ht | ⟨x, hx, rfl⟩
  · exact hall t ht
  · exact hf x hx

/-- An update of every entry that keeps a property keeps its count. -/
theorem countP_mapIdx {q : α → Bool} {f : ℕ → α → α} (hq : ∀ j t, q (f j t) = q t) (l : List α) :
    (l.mapIdx f).countP q = l.countP q := by
  induction l generalizing f with
  | nil => simp
  | cons a l ih =>
      have hrest := ih (f := fun i => f (i + 1)) fun j t => hq (j + 1) t
      rw [List.mapIdx_cons, List.countP_cons, List.countP_cons, hq, hrest]

end Lib
