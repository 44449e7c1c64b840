/-
# `Lib.Since` — logs read from their newest mark

A log grows at its end.  What a rule about it says usually concerns the entries
since the newest one of some kind, and it is a rule about appending: an entry
may only follow a past that allows it.
-/
import Mathlib.Data.List.Infix

namespace Lib

variable {α : Type*} {p : α → Bool} {ok ok' : List α → α → Prop} {l : List α} {a x : α}

/-- The entries after the newest one that satisfies `p`; all of them if there
is none. -/
def since (p : α → Bool) (l : List α) : List α := (l.reverse.takeWhile fun a => !p a).reverse

@[simp] theorem since_nil : since p [] = [] := rfl

@[simp] theorem since_concat : since p (l ++ [a]) = if p a then [] else since p l ++ [a] := by
  cases h : p a <;> simp [since, h]

/-- Nothing is newer than a mark at the end. -/
theorem since_mark (h : p a = true) : since p (l ++ [a]) = [] := by simp [h]

/-- Entries that are no marks come behind the ones that are there. -/
theorem since_append {l' : List α} (h : ∀ x ∈ l', p x = false) :
    since p (l ++ l') = since p l ++ l' := by
  induction l' using List.reverseRecOn with
  | nil => simp
  | append_singleton l' a ih =>
      have ha : p a = false := h a (by simp)
      rw [← List.append_assoc, since_concat, ih fun x hx => h x (by simp [hx])]
      simp [ha]

/-- An entry is newer than the newest mark when no mark is at or after it. -/
theorem mem_since : x ∈ since p l ↔ ∃ a b, l = a ++ x :: b ∧ ∀ y ∈ x :: b, p y = false := by
  induction l using List.reverseRecOn with
  | nil => simp
  | append_singleton l z ih =>
      rw [since_concat]
      constructor
      · intro h
        split at h
        · cases h
        · rename_i hz
          have hz' : p z = false := by simpa using hz
          rcases List.mem_append.mp h with hx | hx
          · obtain ⟨a, b, rfl, hb⟩ := ih.mp hx
            refine ⟨a, b ++ [z], by simp, fun y hy => ?_⟩
            rcases List.mem_append.mp (show y ∈ (x :: b) ++ [z] from hy) with hy | hy
            · exact hb y hy
            · exact List.mem_singleton.mp hy ▸ hz'
          · obtain rfl := List.mem_singleton.mp hx
            exact ⟨l, [], rfl, fun y hy => List.mem_singleton.mp hy ▸ hz'⟩
      · rintro ⟨a, b, heq, hb⟩
        rcases List.eq_nil_or_concat b with rfl | ⟨c, y, rfl⟩
        · obtain ⟨rfl, hzx⟩ := List.append_inj' heq rfl
          obtain rfl : z = x := by simpa using hzx
          simp [hb z (List.mem_singleton_self z)]
        · have heq' : l ++ [z] = (a ++ x :: c) ++ [y] := by simpa using heq
          obtain ⟨rfl, hzy⟩ := List.append_inj' heq' rfl
          obtain rfl : z = y := by simpa using hzy
          have hz : p z = false := hb z (by simp)
          have hx : x ∈ since p (a ++ x :: c) :=
            ih.mpr ⟨a, c, rfl, fun w hw => hb w (by
              rcases List.mem_cons.mp hw with rfl | hw
              · exact List.mem_cons_self
              · simp [hw])⟩
          simp [hz, hx]

/-- Every entry was allowed by the entries before it. -/
def Appended (ok : List α → α → Prop) (l : List α) : Prop :=
  ∀ past a, past ++ [a] <+: l → ok past a

theorem appended_nil : Appended ok [] := by
  intro past a h
  simp at h

theorem appended_concat : Appended ok (l ++ [a]) ↔ Appended ok l ∧ ok l a := by
  constructor
  · exact fun h => ⟨fun past b hb => h past b (hb.trans (List.prefix_append l [a])),
      h l a List.prefix_rfl⟩
  · rintro ⟨hl, ha⟩ past b hb
    rcases List.prefix_concat_iff.mp hb with heq | hb
    · obtain ⟨rfl, hba⟩ := List.append_inj' heq rfl
      obtain rfl : b = a := by simpa using hba
      exact ha
    · exact hl past b hb

/-- Entries that any past allows. -/
theorem Appended.append {l' : List α} (h : Appended ok l) (hall : ∀ x ∈ l', ∀ past, ok past x) :
    Appended ok (l ++ l') := by
  induction l' using List.reverseRecOn with
  | nil => simpa using h
  | append_singleton l' a ih =>
      rw [← List.append_assoc, appended_concat]
      exact ⟨ih fun x hx => hall x (by simp [hx]), hall a (by simp) _⟩

end Lib
