/-
# `Lib.Ring` — a ring that overwrites its oldest element

A fixed array read from `head`, `count` elements long.  A push into a full ring
drops the oldest element; a pop takes it.  `items` is what a reader has not seen
yet, and pushing a list leaves the last `size` elements of it appended.
-/
import Mathlib.Data.List.Basic
import Mathlib.Data.Nat.ModEq

namespace Lib

/-- The last `n` elements. -/
def lastN {α : Type*} (n : ℕ) (l : List α) : List α := l.drop (l.length - n)

section

variable {α : Type*} {n : ℕ}

theorem lastN_of_le {l : List α} (h : l.length ≤ n) : lastN n l = l := by
  show l.drop (l.length - n) = l
  rw [Nat.sub_eq_zero_of_le h, List.drop_zero]

/-- What was dropped from a prefix is dropped from the whole. -/
theorem lastN_lastN_append (l m : List α) : lastN n (lastN n l ++ m) = lastN n (l ++ m) := by
  show ((l.drop (l.length - n)) ++ m).drop _ = (l ++ m).drop _
  rw [← List.drop_append_of_le_length (Nat.sub_le _ _), List.drop_drop]
  have hlen : (lastN n l).length = l.length - (l.length - n) := List.length_drop
  congr 1
  rw [List.length_append, List.length_append, hlen]
  omega

end

/-- A ring over an array of `size` cells. -/
structure Ring (α : Type*) (size : ℕ) where
  cells : ℕ → α
  head : ℕ
  count : ℕ
  head_lt : head < size
  count_le : count ≤ size

namespace Ring

variable {α : Type*} {size : ℕ}

/-- The unread elements, oldest first. -/
def items (r : Ring α size) : List α :=
  (List.range r.count).map fun i => r.cells ((r.head + i) % size)

theorem size_pos (r : Ring α size) : 0 < size := lt_of_le_of_lt (Nat.zero_le _) r.head_lt

/-- Forget what is unread; the cells keep their values. -/
def reset (r : Ring α size) : Ring α size where
  cells := r.cells
  head := 0
  count := 0
  head_lt := r.size_pos
  count_le := Nat.zero_le _

/-- Drop the oldest element. -/
def dropOldest (r : Ring α size) : Ring α size where
  cells := r.cells
  head := (r.head + 1) % size
  count := r.count - 1
  head_lt := Nat.mod_lt _ r.size_pos
  count_le := le_trans (Nat.sub_le _ _) r.count_le

/-- Write behind the newest element of a ring with room. -/
def append (r : Ring α size) (a : α) (h : r.count < size) : Ring α size where
  cells := Function.update r.cells ((r.head + r.count) % size) a
  head := r.head
  count := r.count + 1
  head_lt := r.head_lt
  count_le := h

/-- Append, after dropping the oldest element of a full ring. -/
def push (r : Ring α size) (a : α) : Ring α size :=
  if h : r.count = size then
    r.dropOldest.append a (by
      show r.count - 1 < size
      have := r.size_pos
      omega)
  else r.append a (lt_of_le_of_ne r.count_le h)

/-- Change the cell at the head. -/
def modifyHead (r : Ring α size) (f : α → α) : Ring α size :=
  { r with cells := Function.update r.cells r.head (f (r.cells r.head)) }

/-- Change every cell, unread or not. -/
def mapCells (r : Ring α size) (f : α → α) : Ring α size :=
  { r with cells := fun i => f (r.cells i) }

/-- The oldest unread element. -/
def peek (r : Ring α size) : Option α := if r.count = 0 then none else some (r.cells r.head)

/-- Take up to `max` elements, oldest first. -/
def take (r : Ring α size) : ℕ → List α × Ring α size
  | 0 => ([], r)
  | max + 1 =>
      if r.count = 0 then ([], r)
      else
        let rest := r.dropOldest.take max
        (r.cells r.head :: rest.1, rest.2)

section

variable (r : Ring α size)

include r

@[simp] theorem length_items : r.items.length = r.count := by
  simp [items]

theorem items_dropOldest : r.dropOldest.items = r.items.tail := by
  apply List.ext_getElem?
  intro i
  rw [List.getElem?_tail]
  simp only [items, dropOldest, List.getElem?_map]
  rcases Nat.lt_or_ge i (r.count - 1) with hi | hi
  · rw [List.getElem?_range hi, List.getElem?_range (by omega)]
    simp only [Option.map_some, Nat.mod_add_mod]
    rw [Nat.add_assoc, Nat.add_comm 1]
  · rw [List.getElem?_eq_none (by simpa using hi), List.getElem?_eq_none (by simp; omega)]
    rfl

theorem items_append (a : α) (h : r.count < size) :
    (r.append a h).items = r.items ++ [a] := by
  have hother : ∀ i, i < r.count → (r.head + i) % size ≠ (r.head + r.count) % size := by
    intro i hi heq
    have hmod : i % size = r.count % size := Nat.ModEq.add_left_cancel (Nat.ModEq.refl r.head) heq
    rw [Nat.mod_eq_of_lt h, Nat.mod_eq_of_lt (lt_trans hi h)] at hmod
    exact absurd hmod hi.ne
  simp only [items, append, List.range_succ, List.map_append, List.map_cons, List.map_nil]
  congr 1
  · apply List.map_congr_left
    intro i hi
    exact Function.update_of_ne (hother i (List.mem_range.mp hi)) _ _
  · rw [Function.update_self]

end

theorem items_of_count_pos (r : Ring α size) (h : r.count ≠ 0) :
    r.items = r.cells r.head :: r.items.tail := by
  obtain ⟨n, hn⟩ := Nat.exists_eq_succ_of_ne_zero h
  simp only [items, hn, Nat.succ_eq_add_one, List.range_succ_eq_map, List.map_cons, Nat.add_zero,
    Nat.mod_eq_of_lt r.head_lt, List.tail_cons]

theorem peek_eq_head? (r : Ring α size) : r.peek = r.items.head? := by
  unfold peek
  split_ifs with h
  · rw [List.eq_nil_of_length_eq_zero ((length_items r).trans h)]
    rfl
  · rw [r.items_of_count_pos h]
    rfl

theorem items_modifyHead (r : Ring α size) (f : α → α) :
    (r.modifyHead f).items = r.items.modifyHead f := by
  rcases Nat.eq_zero_or_pos r.count with h | h
  · have hnil : r.items = [] := List.eq_nil_of_length_eq_zero ((length_items r).trans h)
    have hnil' : (r.modifyHead f).items = [] :=
      List.eq_nil_of_length_eq_zero ((length_items _).trans h)
    rw [hnil, hnil', List.modifyHead_nil]
  · have hhead := (r.modifyHead f).items_of_count_pos h.ne'
    have htail : (r.modifyHead f).items.tail = r.items.tail := by
      have hmem : ∀ i, i + 1 < r.count → (r.head + (i + 1)) % size ≠ r.head := by
        intro i hi heq
        have hmod : (i + 1) % size = 0 % size := by
          apply Nat.ModEq.add_left_cancel (Nat.ModEq.refl r.head)
          rw [Nat.ModEq, heq, Nat.add_zero, Nat.mod_eq_of_lt r.head_lt]
        rw [Nat.mod_eq_of_lt (lt_of_lt_of_le hi r.count_le), Nat.zero_mod] at hmod
        omega
      obtain ⟨n, hn⟩ := Nat.exists_eq_succ_of_ne_zero h.ne'
      simp only [items, modifyHead, hn, Nat.succ_eq_add_one, List.range_succ_eq_map, List.map_cons,
        List.tail_cons, List.map_map]
      apply List.map_congr_left
      intro i hi
      have hi' := List.mem_range.mp hi
      exact Function.update_of_ne (hmem i (by omega)) _ _
    rw [hhead, htail, r.items_of_count_pos h.ne', List.modifyHead_cons]
    show Function.update r.cells r.head (f (r.cells r.head)) r.head :: _ = _
    rw [Function.update_self]
    rfl

theorem modifyHead_modifyHead (r : Ring α size) (f g : α → α) :
    (r.modifyHead f).modifyHead g = r.modifyHead (g ∘ f) := by
  simp only [modifyHead, Function.update_self, Function.update_idem, Function.comp_apply]

end Ring

end Lib
