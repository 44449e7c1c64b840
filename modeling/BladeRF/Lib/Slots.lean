/-
# `Lib.Slots` — a table with a fixed number of slots

A slot is free or holds an entry.  An insertion fills the first free slot, and
entries are found, updated and removed by a predicate.  `entries` is the content
in slot order; every operation is stated on it, up to permutation where slots
are reused.
-/
import Mathlib.Data.List.ReduceOption

namespace Lib

structure Slots (α : Type*) (size : ℕ) where
  cells : List (Option α)
  length_cells : cells.length = size

namespace Slots

variable {α : Type*} {size : ℕ}

def empty : Slots α size := ⟨List.replicate size none, List.length_replicate⟩

/-- What the table holds, in slot order. -/
def entries (s : Slots α size) : List α := s.cells.reduceOption

/-! ## The loops over the cells -/

/-- Remove the first entry with `p`. -/
def takeFirst (p : α → Bool) : List (Option α) → Option (α × List (Option α))
  | [] => none
  | none :: cells => (takeFirst p cells).map fun r => (r.1, none :: r.2)
  | some a :: cells =>
      if p a then some (a, none :: cells)
      else (takeFirst p cells).map fun r => (r.1, some a :: r.2)

/-- Fill the first free cell. -/
def fillFirst (a : α) : List (Option α) → Option (List (Option α))
  | [] => none
  | none :: cells => some (some a :: cells)
  | some b :: cells => (fillFirst a cells).map (some b :: ·)

/-- Update the first entry with `p` in place. -/
def updateFirst (p : α → Bool) (f : α → α) : List (Option α) → Option (List (Option α))
  | [] => none
  | none :: cells => (updateFirst p f cells).map (none :: ·)
  | some a :: cells =>
      if p a then some (some (f a) :: cells) else (updateFirst p f cells).map (some a :: ·)

variable {p : α → Bool} {cells cells' : List (Option α)} {a : α} {f : α → α} {s s' : Slots α size}

theorem takeFirst_spec (h : takeFirst p cells = some (a, cells')) :
    p a ∧ cells'.length = cells.length ∧
      cells.reduceOption.Perm (a :: cells'.reduceOption) := by
  induction cells generalizing cells' with
  | nil => exact absurd h (by simp [takeFirst])
  | cons c cells ih =>
      cases c with
      | none =>
          obtain ⟨⟨b, rest⟩, hrest, heq⟩ := Option.map_eq_some_iff.mp h
          obtain ⟨rfl, rfl⟩ := Prod.mk.inj heq
          obtain ⟨hp, hlen, hperm⟩ := ih hrest
          exact ⟨hp, by simp [hlen], by simpa using hperm⟩
      | some b =>
          simp only [takeFirst] at h
          split_ifs at h with hb
          · obtain ⟨rfl, rfl⟩ := Prod.mk.inj (Option.some.inj h)
            exact ⟨hb, by simp, by simp⟩
          · obtain ⟨⟨b', rest⟩, hrest, heq⟩ := Option.map_eq_some_iff.mp h
            obtain ⟨rfl, rfl⟩ := Prod.mk.inj heq
            obtain ⟨hp, hlen, hperm⟩ := ih hrest
            refine ⟨hp, by simp [hlen], ?_⟩
            simpa using (hperm.cons b).trans (.swap _ _ _)

theorem fillFirst_spec (h : fillFirst a cells = some cells') :
    cells'.length = cells.length ∧ cells'.reduceOption.Perm (a :: cells.reduceOption) := by
  induction cells generalizing cells' with
  | nil => exact absurd h (by simp [fillFirst])
  | cons c cells ih =>
      cases c with
      | none =>
          obtain rfl := Option.some.inj h
          exact ⟨rfl, by simp⟩
      | some b =>
          obtain ⟨rest, hrest, rfl⟩ := Option.map_eq_some_iff.mp h
          obtain ⟨hlen, hperm⟩ := ih hrest
          refine ⟨by simp [hlen], ?_⟩
          simpa using (hperm.cons b).trans (.swap _ _ _)

theorem updateFirst_spec (h : updateFirst p f cells = some cells') :
    cells'.length = cells.length ∧ ∃ a ∈ cells.reduceOption, p a := by
  induction cells generalizing cells' with
  | nil => exact absurd h (by simp [updateFirst])
  | cons c cells ih =>
      cases c with
      | none =>
          obtain ⟨rest, hrest, rfl⟩ := Option.map_eq_some_iff.mp h
          obtain ⟨hlen, hmem⟩ := ih hrest
          exact ⟨by simp [hlen], by simpa using hmem⟩
      | some b =>
          simp only [updateFirst] at h
          split_ifs at h with hb
          · obtain rfl := Option.some.inj h
            exact ⟨by simp, b, by simp, hb⟩
          · obtain ⟨rest, hrest, rfl⟩ := Option.map_eq_some_iff.mp h
            obtain ⟨hlen, a, ha, hpa⟩ := ih hrest
            exact ⟨by simp [hlen], a, by simp [ha], hpa⟩

/-- What the update of an entry leaves alone, the update of the table does. -/
theorem updateFirst_map {β : Type*} {g : α → β} (hg : ∀ a, g (f a) = g a)
    (h : updateFirst p f cells = some cells') :
    cells'.reduceOption.map g = cells.reduceOption.map g := by
  induction cells generalizing cells' with
  | nil => exact absurd h (by simp [updateFirst])
  | cons c cells ih =>
      cases c with
      | none =>
          obtain ⟨rest, hrest, rfl⟩ := Option.map_eq_some_iff.mp h
          simpa using ih hrest
      | some b =>
          simp only [updateFirst] at h
          split_ifs at h with hb
          · obtain rfl := Option.some.inj h
            simp [hg]
          · obtain ⟨rest, hrest, rfl⟩ := Option.map_eq_some_iff.mp h
            simpa using ih hrest

/-- The first entry with `p`, and the table without it. -/
def take (s : Slots α size) (p : α → Bool) : Option (α × Slots α size) :=
  match h : takeFirst p s.cells with
  | none => none
  | some (a, cells) => some (a, ⟨cells, (takeFirst_spec h).2.1.trans s.length_cells⟩)

/-- Fill the first free slot. -/
def insert (s : Slots α size) (a : α) : Option (Slots α size) :=
  match h : fillFirst a s.cells with
  | none => none
  | some cells => some ⟨cells, (fillFirst_spec h).1.trans s.length_cells⟩

/-- Update the first entry with `p` in place. -/
def update (s : Slots α size) (p : α → Bool) (f : α → α) : Option (Slots α size) :=
  match h : updateFirst p f s.cells with
  | none => none
  | some cells => some ⟨cells, (updateFirst_spec h).1.trans s.length_cells⟩

@[simp] theorem entries_empty : (empty : Slots α size).entries = [] := by
  show (List.replicate size none).reduceOption = []
  induction size with
  | zero => rfl
  | succ n ih => simp [List.replicate_succ, ih]

theorem take_spec (h : s.take p = some (a, s')) :
    p a ∧ s.entries.Perm (a :: s'.entries) := by
  unfold take at h
  split at h
  · exact absurd h (by simp)
  · rename_i b cells hcells
    obtain ⟨rfl, rfl⟩ := Prod.mk.inj (Option.some.inj h)
    exact ⟨(takeFirst_spec hcells).1, (takeFirst_spec hcells).2.2⟩

theorem insert_spec (h : s.insert a = some s') :
    s'.entries.Perm (a :: s.entries) := by
  unfold insert at h
  split at h
  · exact absurd h (by simp)
  · rename_i cells hcells
    obtain rfl := Option.some.inj h
    exact (fillFirst_spec hcells).2

theorem update_map {β : Type*} {g : α → β} (hg : ∀ a, g (f a) = g a) (h : s.update p f = some s') :
    s'.entries.map g = s.entries.map g := by
  unfold update at h
  split at h
  · exact absurd h (by simp)
  · rename_i cells hcells
    obtain rfl := Option.some.inj h
    exact updateFirst_map hg hcells

theorem update_length (h : s.update p f = some s') : s'.entries.length = s.entries.length := by
  have hmap : s'.entries.map (fun _ => ()) = s.entries.map (fun _ => ()) :=
    update_map (fun _ => rfl) h
  simpa using congrArg List.length hmap

end Slots

end Lib
