/-
# `Lib.Dcfifo` — queues between two clock domains

Each side of such a queue works with a count of its own, and what the other
side does reaches that count late.  Seen from the writer, the elements that were
taken but not yet noticed still count; seen from the reader, the elements that
were added but not yet noticed do not.  Both views err on the safe side, and
each structure carries that as a field.
-/
import Mathlib.Data.List.Basic
import Mathlib.Order.Nat

namespace Lib

variable {α : Type*} {depth : ℕ}

/-! ## The writer's side -/

structure Sink (α : Type*) (depth : ℕ) where
  items : List α
  /-- the count on the writer's side -/
  shown : ℕ
  covers : items.length ≤ shown
  bounded : shown ≤ depth

namespace Sink

variable (q : Sink α depth)

def empty : Sink α depth := ⟨[], 0, le_rfl, Nat.zero_le _⟩

/-- A write; a full queue ignores it. -/
def push (a : α) : Sink α depth :=
  if h : q.shown < depth then
    ⟨q.items ++ [a], q.shown + 1, by simpa using q.covers, h⟩
  else q

/-- The reader takes up to `n` elements. -/
def drain (n : ℕ) : Sink α depth :=
  ⟨q.items.drop n, q.shown, by
    have := q.covers
    rw [List.length_drop]
    omega, q.bounded⟩

/-- The writer's count catches up with up to `n` of the elements that were taken. -/
def notice (n : ℕ) : Sink α depth :=
  ⟨q.items, max q.items.length (q.shown - n), le_max_left _ _, by
    have := q.covers
    have := q.bounded
    omega⟩

theorem shown_push_le (a : α) : (q.push a).shown ≤ q.shown + 1 := by
  rw [push]
  split
  · exact le_rfl
  · exact Nat.le_succ _

@[simp] theorem shown_drain (n : ℕ) : (q.drain n).shown = q.shown := rfl

theorem shown_notice_le (n : ℕ) : (q.notice n).shown ≤ q.shown := by
  have := q.covers
  simp only [notice]
  omega

end Sink

/-! ## The reader's side -/

structure Source (α : Type*) (depth : ℕ) where
  items : List α
  /-- the count on the reader's side -/
  shown : ℕ
  behind : shown ≤ items.length
  bounded : items.length ≤ depth

namespace Source

variable (q : Source α depth)

def empty : Source α depth := ⟨[], 0, le_rfl, Nat.zero_le _⟩

/-- A read; an empty queue ignores it. -/
def pop : Source α depth :=
  if q.shown = 0 then q
  else ⟨q.items.tail, q.shown - 1, by
    have := q.behind
    rw [List.length_tail]
    omega, by
    have := q.bounded
    rw [List.length_tail]
    omega⟩

/-- The writer adds elements if they fit. -/
def supply (xs : List α) : Source α depth :=
  if h : q.items.length + xs.length ≤ depth then
    ⟨q.items ++ xs, q.shown, by
      have := q.behind
      rw [List.length_append]
      omega, by rwa [List.length_append]⟩
  else q

/-- The reader's count catches up with up to `n` of the elements that were added. -/
def notice (n : ℕ) : Source α depth :=
  ⟨q.items, min q.items.length (q.shown + n), min_le_left _ _, q.bounded⟩

theorem shown_pop : q.pop.shown = q.shown - 1 := by
  rw [pop]
  split
  · omega
  · rfl

@[simp] theorem shown_supply (xs : List α) : (q.supply xs).shown = q.shown := by
  rw [supply]
  split <;> rfl

/-- How many elements the reader has not noticed yet. -/
def unseen : ℕ := q.items.length - q.shown

@[simp] theorem unseen_pop : q.pop.unseen = q.unseen := by
  have := q.behind
  rw [unseen, unseen, pop]
  split
  · rfl
  · simp only [List.length_tail]
    omega

/-- Whether the elements fit or not, what is unseen stays whole records. -/
theorem dvd_unseen_supply {n : ℕ} {xs : List α} (h : n ∣ q.unseen) (hxs : n ∣ xs.length) :
    n ∣ (q.supply xs).unseen := by
  have hb := q.behind
  rw [unseen, supply]
  split
  · rw [List.length_append, show q.items.length + xs.length - q.shown = q.unseen + xs.length by
      rw [unseen]
      omega]
    exact Nat.dvd_add h hxs
  · exact h

/-- Noticing whole records leaves whole records unseen and shows whole records. -/
theorem dvd_notice {n : ℕ} (h : n ∣ q.unseen) (m : ℕ) :
    n ∣ (q.notice (n * m)).unseen ∧
      ∃ k, (q.notice (n * m)).shown = q.shown + n * k := by
  have hb := q.behind
  obtain ⟨j, hj⟩ := h
  rw [unseen] at hj
  simp only [notice, unseen]
  by_cases hle : j ≤ m
  · have : n * j ≤ n * m := Nat.mul_le_mul_left n hle
    exact ⟨⟨0, by omega⟩, j, by omega⟩
  · have hlt : n * m ≤ n * j := Nat.mul_le_mul_left n (by omega)
    refine ⟨⟨j - m, ?_⟩, m, by omega⟩
    rw [Nat.mul_sub]
    omega

theorem le_shown_notice (n : ℕ) : q.shown ≤ (q.notice n).shown := by
  have := q.behind
  simp only [notice]
  omega

end Source
end Lib
