/-
# `Lib.Fifo` — a FIFO with a fixed capacity

A ring buffer with a count, an insertion index and a removal index holds a list
that never outgrows its storage.  `Fifo α cap` is that list together with the
bound, so that a full ring refuses an element and nothing else can break it.
-/
import Mathlib.Data.List.Basic

namespace Lib

structure Fifo (α : Type*) (cap : ℕ) where
  items : List α
  fits : items.length ≤ cap

namespace Fifo

variable {α : Type*} {cap : ℕ}

def empty : Fifo α cap := ⟨[], Nat.zero_le _⟩

/-- The head of the queue. -/
def peek (q : Fifo α cap) : Option α := q.items.head?

/-- Append, unless the storage is full. -/
def push (q : Fifo α cap) (a : α) : Option (Fifo α cap) :=
  if h : q.items.length < cap then
    some ⟨q.items ++ [a], by simpa [Nat.add_one_le_iff] using h⟩
  else none

/-- Drop the head. -/
def pop (q : Fifo α cap) : Fifo α cap :=
  ⟨q.items.tail, by
    have := q.fits
    simp only [List.length_tail]
    omega⟩

/-- Update the head in place. -/
def modifyHead (q : Fifo α cap) (f : α → α) : Fifo α cap :=
  ⟨q.items.modifyHead f, by simpa using q.fits⟩

/-- Update the element at an offset in place. -/
def modify (q : Fifo α cap) (i : ℕ) (f : α → α) : Fifo α cap :=
  ⟨q.items.modify i f, by simpa using q.fits⟩

/-- Update every element in place. -/
def map (q : Fifo α cap) (f : α → α) : Fifo α cap :=
  ⟨q.items.map f, by simpa using q.fits⟩

variable (q : Fifo α cap)

@[simp] theorem pop_items : q.pop.items = q.items.tail := rfl

@[simp] theorem modifyHead_items (f : α → α) :
    (q.modifyHead f).items = q.items.modifyHead f := rfl

@[simp] theorem modify_items (i : ℕ) (f : α → α) :
    (q.modify i f).items = q.items.modify i f := rfl

@[simp] theorem peek_modifyHead (f : α → α) :
    (q.modifyHead f).peek = q.peek.map f := by
  cases h : q.items <;> simp [peek, h]

theorem push_items {q q' : Fifo α cap} {a : α} (h : q.push a = some q') :
    q'.items = q.items ++ [a] := by
  unfold push at h
  split at h
  · cases h
    rfl
  · cases h

end Fifo
end Lib
