/-
# `Lib.Arc` — consecutive slots of a ring

A queue kept in a ring occupies consecutive slots that end just before the slot
the next element goes to.  `RunsTo stop l` says this of a list of slots.  The
queue is pushed at `stop` and popped at its head; neither needs to know how long
it is, only that the slots are distinct.  The last two lemmas are what a scan
for an occupied slot finds: the head of the queue, from the head and from the
end of it alike.
-/
import BladeRF.Lib.Scan

namespace Lib

variable {n : ℕ} [NeZero n]

/-- The slots of `l` follow one another, and `stop` follows the last. -/
def RunsTo (stop : Fin n) : List (Fin n) → Prop
  | [] => True
  | i :: l => i + 1 = l.headD stop ∧ RunsTo stop l

variable {stop i : Fin n} {l : List (Fin n)}

theorem RunsTo.tail (h : RunsTo stop (i :: l)) :
    RunsTo stop l := h.2

/-- Pushing: the new slot is the one the arc ran to. -/
theorem RunsTo.push (h : RunsTo stop l) :
    RunsTo (stop + 1) (l ++ [stop]) := by
  induction l with
  | nil => exact ⟨rfl, trivial⟩
  | cons i l ih =>
      refine ⟨?_, ih h.tail⟩
      rw [h.1]
      cases l with
      | nil => rfl
      | cons j l => rfl

/-- Taking the last slot back. -/
theorem RunsTo.pop (h : RunsTo stop (l ++ [i])) :
    RunsTo i l := by
  induction l with
  | nil => trivial
  | cons j l ih =>
      refine ⟨?_, ih h.2⟩
      have hj : j + 1 = (l ++ [i]).headD stop := h.1
      cases l with
      | nil => exact hj
      | cons k l => exact hj

/-- A suffix of an arc is an arc. -/
theorem RunsTo.of_append {k : List (Fin n)} (h : RunsTo stop (k ++ l)) :
    RunsTo stop l := by
  induction k with
  | nil => exact h
  | cons i k ih => exact ih h.2

/-- Every slot of an arc is followed by another one, or by `stop`. -/
theorem RunsTo.succ_mem {j : Fin n} (h : RunsTo stop l)
    (hj : j ∈ l) : j + 1 ∈ l ∨ j + 1 = stop := by
  induction l with
  | nil => simp at hj
  | cons i l ih =>
      rcases List.mem_cons.mp hj with rfl | hj
      · rw [h.1]
        cases l with
        | nil => exact Or.inr rfl
        | cons k l => exact Or.inl (by simp)
      · rcases ih h.2 hj with hmem | heq
        · exact Or.inl (List.mem_cons_of_mem _ hmem)
        · exact Or.inr heq

/-- Every slot of an arc but the first has its predecessor in it. -/
theorem RunsTo.pred_mem {j : Fin n} (h : RunsTo stop (i :: l)) (hj : j ∈ l) : j - 1 ∈ i :: l := by
  induction l generalizing i with
  | nil => simp at hj
  | cons k l ih =>
      have hik : i + 1 = k := h.1
      rcases List.mem_cons.mp hj with rfl | hj
      · rw [← hik, add_sub_cancel_right]
        exact List.mem_cons_self
      · exact List.mem_cons_of_mem _ (ih h.2 hj)

/-- An arc of distinct slots that contains `stop` begins there. -/
theorem RunsTo.head_eq_of_mem (h : RunsTo stop (i :: l))
    (hnd : (i :: l).Nodup) (hmem : stop ∈ i :: l) : stop = i := by
  rcases List.mem_cons.mp hmem with heq | hl
  · exact heq
  · -- otherwise the walk from `stop` never leaves the tail, and the tail is the ring
    have hall : ∀ k : ℕ, stop + Fin.ofNat n k ∈ l := by
      intro k
      induction k with
      | zero => simpa using hl
      | succ k ih =>
          have hk : stop + Fin.ofNat n (k + 1) = stop + Fin.ofNat n k + 1 := by
            rw [add_assoc]
            congr 1
            ext
            simp [Fin.val_add]
          rw [hk]
          rcases h.tail.succ_mem ih with hm | hs
          · exact hm
          · rw [hs]
            exact hl
    have hi : i ∈ l := by
      have hval : stop + Fin.ofNat n (i - stop).val = i := by
        simp
      exact hval ▸ hall (i - stop).val
    exact absurd hi (List.nodup_cons.mp hnd).1

/-- The index before the one a scan finds was examined and refused, unless the
scan stopped where it began. -/
theorem findFrom_pred {start : Fin n} {p : Fin n → Bool}
    (h : findFrom start p = some i) : i = start ∨ p (i - 1) = false := by
  obtain ⟨-, k, hk, hget, hbefore⟩ := List.find?_eq_some_iff_getElem.mp h
  cases k with
  | zero =>
      refine Or.inl ?_
      rw [← hget]
      simp only [List.getElem_map, List.getElem_finRange]
      exact add_zero start
  | succ k =>
      refine Or.inr ?_
      have hprev := hbefore k (Nat.lt_succ_self k)
      have hlen : k + 1 < n := by simpa using hk
      have hi : i - 1 = start + ⟨k, by omega⟩ := by
        rw [← hget]
        simp only [List.getElem_map, List.getElem_finRange]
        rw [sub_eq_iff_eq_add, add_assoc]
        congr 1
        ext
        simp [Fin.val_add, Nat.mod_eq_of_lt hlen]
      rw [hi]
      simpa using hprev

/-- A scan that begins at an index with the property stops there. -/
theorem findFrom_self {start : Fin n} {p : Fin n → Bool} (h : p start = true) :
    findFrom start p = some start := by
  cases hf : findFrom start p with
  | none => exact absurd h (by simp [findFrom_none hf start])
  | some i =>
      obtain ⟨-, k, hk, hget, hbefore⟩ := List.find?_eq_some_iff_getElem.mp hf
      cases k with
      | zero =>
          rw [← hget]
          simp only [List.getElem_map, List.getElem_finRange]
          exact congrArg some (add_zero start)
      | succ k =>
          have h0 := hbefore 0 (Nat.succ_pos k)
          simp [h] at h0

/-- From the end of the queue, a scan for an occupied slot finds its head. -/
theorem RunsTo.findFrom_stop (h : RunsTo stop l)
    (hnd : l.Nodup) : findFrom stop (fun i => decide (i ∈ l)) = l.head? := by
  cases hf : findFrom stop (fun i => decide (i ∈ l)) with
  | none =>
      cases l with
      | nil => rfl
      | cons i l => exact absurd (findFrom_none hf i) (by simp)
  | some j =>
      have hj : j ∈ l := by simpa using findFrom_some hf
      cases l with
      | nil => simp at hj
      | cons i l =>
          rcases List.mem_cons.mp hj with rfl | hjl
          · rfl
          · rcases findFrom_pred hf with rfl | hpred
            · exact congrArg some (h.head_eq_of_mem hnd hj)
            · exact absurd (h.pred_mem hjl) (by simpa using hpred)

theorem findFrom_headD (l : List (Fin n)) :
    findFrom (l.headD stop) (fun i => decide (i ∈ l)) = l.head? := by
  cases l with
  | nil =>
      cases hf : findFrom stop (fun i => decide (i ∈ ([] : List (Fin n)))) with
      | none => exact hf
      | some j => exact absurd (findFrom_some hf) (by simp)
  | cons i l => exact findFrom_self (by simp)

end Lib
