/-
# `Lib.Words` — the words of a string

Words are what is left between separators.  `strtok` finds the first one and the string
behind it, and taking words off the front until there is none finds them all.
-/
import Mathlib.Data.List.Forall2
import BladeRF.Lib.Strtol

namespace Lib

section

variable {α : Type}

/-- The words of a string, in order. -/
def wordsOf (sep : α → Bool) (s : List α) : List (List α) :=
  (s.splitOnP sep).filter fun w => !w.isEmpty

/-- `strtok_r`: the first word, and where the next search begins. -/
def strtok (sep : α → Bool) (s : List α) : Option (List α × List α) :=
  match s.dropWhile sep with
  | [] => none
  | c :: s => some ((c :: s).takeWhile fun c => !sep c, ((c :: s).dropWhile fun c => !sep c).drop 1)

/-- `strtok_r` until there is no word left. -/
def strtokAll (sep : α → Bool) : ℕ → List α → List (List α)
  | 0, _ => []
  | fuel + 1, s =>
      match strtok sep s with
      | none => []
      | some t => t.1 :: strtokAll sep fuel t.2

variable {sep : α → Bool} {s xs ys w : List α} {c : α}

theorem wordsOf_append_cons (h : sep c) (xs ys : List α) :
    wordsOf sep (xs ++ c :: ys) = wordsOf sep xs ++ wordsOf sep ys := by
  unfold wordsOf
  rw [List.splitOnP_append_cons xs ys h, List.filter_append]

theorem wordsOf_nil : wordsOf sep ([] : List α) = [] := by
  unfold wordsOf
  rw [List.splitOnP_nil]
  rfl

/-- A string without separators is one word. -/
theorem wordsOf_word (hne : w ≠ []) (hw : ∀ c ∈ w, sep c = false) : wordsOf sep w = [w] := by
  unfold wordsOf
  rw [List.splitOnP_eq_singleton hw, List.filter_cons, List.isEmpty_eq_false_iff.mpr hne]
  rfl

/-- Separators in front belong to no word. -/
theorem wordsOf_seps_append (hxs : ∀ c ∈ xs, sep c) : wordsOf sep (xs ++ ys) = wordsOf sep ys := by
  induction xs with
  | nil => rfl
  | cons x xs ih =>
      have hx := wordsOf_append_cons (hxs x (List.mem_cons_self ..)) [] (xs ++ ys)
      rw [List.nil_append, wordsOf_nil, List.nil_append] at hx
      rw [List.cons_append, hx]
      exact ih fun c hc => hxs c (List.mem_cons_of_mem x hc)

/-- … nor do separators at the end. -/
theorem wordsOf_append_seps (hys : ∀ c ∈ ys, sep c) : wordsOf sep (xs ++ ys) = wordsOf sep xs := by
  cases ys with
  | nil => rw [List.append_nil]
  | cons y ys =>
      rw [wordsOf_append_cons (hys y (List.mem_cons_self ..))]
      have hnone := @wordsOf_seps_append α sep ys [] fun c hc => hys c (List.mem_cons_of_mem y hc)
      rw [List.append_nil] at hnone
      rw [hnone, wordsOf_nil, List.append_nil]

/-- The first word, and the words behind it. -/
theorem wordsOf_strtok :
    wordsOf sep s = match strtok sep s with
      | none => []
      | some t => t.1 :: wordsOf sep t.2 := by
  have hfront : wordsOf sep s = wordsOf sep (s.dropWhile sep) := by
    conv_lhs => rw [← @List.takeWhile_append_dropWhile α sep s]
    exact wordsOf_seps_append fun c hc => List.mem_takeWhile_imp hc
  rw [hfront]
  unfold strtok
  cases hs : s.dropWhile sep with
  | nil => exact wordsOf_nil
  | cons d ds =>
      have hd : sep d = false := head_dropWhile (by rw [hs]; rfl)
      dsimp only
      have hword : (d :: ds).takeWhile (fun c => !sep c) ≠ [] := by
        rw [List.takeWhile_cons_of_pos (by rw [hd]; rfl)]
        exact List.cons_ne_nil _ _
      have hchars : ∀ c ∈ (d :: ds).takeWhile (fun c => !sep c), sep c = false := fun c hc =>
        (Bool.not_eq_true' _).mp (@List.mem_takeWhile_imp α (fun c => !sep c) _ _ hc)
      conv_lhs => rw [← @List.takeWhile_append_dropWhile α (fun c => !sep c) (d :: ds)]
      cases hrest : (d :: ds).dropWhile (fun c => !sep c) with
      | nil =>
          rw [List.append_nil, wordsOf_word hword hchars]
          rfl
      | cons e es =>
          have he : (!sep e) = false :=
            @head_dropWhile α (fun c => !sep c) (d :: ds) e (by rw [hrest]; rfl)
          rw [wordsOf_append_cons ((Bool.not_eq_false' _).mp he), wordsOf_word hword hchars]
          rfl

theorem length_strtok {t : List α × List α} (h : strtok sep s = some t) :
    t.2.length < s.length := by
  unfold strtok at h
  have hskip := (List.dropWhile_suffix sep (l := s)).length_le
  cases hs : s.dropWhile sep with
  | nil =>
      rw [hs] at h
      cases h
  | cons d ds =>
      rw [hs] at h hskip
      cases h
      have hword := (List.dropWhile_suffix (fun c => !sep c) (l := d :: ds)).length_le
      rw [List.length_cons] at hskip hword
      rw [List.length_drop]
      omega

theorem strtokAll_eq {fuel : ℕ} (h : s.length < fuel) : strtokAll sep fuel s = wordsOf sep s := by
  induction fuel generalizing s with
  | zero => omega
  | succ fuel ih =>
      rw [strtokAll, wordsOf_strtok]
      cases ht : strtok sep s with
      | none => rfl
      | some t =>
          have hshorter := length_strtok ht
          dsimp only
          rw [ih (by omega)]

/-- What the words consist of. -/
theorem flatten_wordsOf : (wordsOf sep s).flatten = s.filter fun c => !sep c := by
  induction s with
  | nil => rw [wordsOf_nil]; rfl
  | cons c s ih =>
      unfold wordsOf at ih ⊢
      rw [List.splitOnP_cons_eq_if_modifyHead]
      obtain ⟨w, ws, hsplit⟩ := List.exists_cons_of_ne_nil (List.splitOnP_ne_nil sep s)
      rw [hsplit] at ih ⊢
      have hempty : ((w :: ws).filter fun w => !w.isEmpty).flatten =
          w ++ (ws.filter fun w => !w.isEmpty).flatten := by
        cases w with
        | nil => rfl
        | cons x w => rfl
      rw [hempty] at ih
      split
      · rename_i hc
        rw [@List.filter_cons _ c s, hc, if_neg (by decide), ← ih, ← hempty]
        rfl
      · rename_i hc
        rw [@List.filter_cons _ c s, Bool.eq_false_iff.mpr hc, if_pos (by decide), ← ih]
        rfl

/-- A separator is no part of a word. -/
theorem mem_of_mem_wordsOf (hw : w ∈ wordsOf sep s) (hc : c ∈ w) : c ∈ s := by
  have hflat : c ∈ (wordsOf sep s).flatten := List.mem_flatten.mpr ⟨w, hw, hc⟩
  rw [flatten_wordsOf] at hflat
  exact (List.mem_filter.mp hflat).1

/-- What stands behind leaves the words as they are if and only if it is separators. -/
theorem wordsOf_append_eq : wordsOf sep xs = wordsOf sep (xs ++ ys) ↔ ∀ c ∈ ys, sep c := by
  constructor
  · intro h
    have hflat := congrArg List.flatten h
    rw [flatten_wordsOf, flatten_wordsOf, List.filter_append] at hflat
    have hnone := List.append_right_eq_self.mp hflat.symm
    intro c hc
    have hkept := List.filter_eq_nil_iff.mp hnone c hc
    rwa [Bool.not_eq_true', Bool.not_eq_false] at hkept
  · exact fun h => (wordsOf_append_seps h).symm

end

/-- What a pass that may stop makes of a list, one element at a time. -/
theorem mapM_eq_some {α β : Type} {f : α → Option β} {xs : List α} {ys : List β} :
    xs.mapM f = some ys ↔ List.Forall₂ (fun x y => f x = some y) xs ys := by
  induction xs generalizing ys with
  | nil =>
      rw [List.mapM_nil, List.forall₂_nil_left_iff]
      exact ⟨fun h => (Option.some.inj h).symm, fun h => congrArg some h.symm⟩
  | cons x xs ih =>
      rw [List.mapM_cons, List.forall₂_cons_left_iff]
      constructor
      · intro h
        obtain ⟨y, hy, h⟩ := Option.bind_eq_some_iff.mp h
        obtain ⟨ys', hys, h⟩ := Option.bind_eq_some_iff.mp h
        cases h
        exact ⟨y, ys', hy, ih.mp hys, rfl⟩
      · rintro ⟨y, ys', hy, hys, rfl⟩
        rw [hy, ih.mpr hys]
        rfl

theorem mapM_eq_none {α β : Type} {f : α → Option β} {xs : List α} :
    xs.mapM f = none ↔ ∃ x ∈ xs, f x = none := by
  induction xs with
  | nil => exact ⟨fun h => (by cases h), fun ⟨_, hx, _⟩ => absurd hx List.not_mem_nil⟩
  | cons x xs ih =>
      rw [List.mapM_cons, List.exists_mem_cons_iff, ← ih]
      cases f x with
      | none => exact ⟨fun _ => .inl rfl, fun _ => rfl⟩
      | some y =>
          cases xs.mapM f with
          | none => exact ⟨fun _ => .inr rfl, fun _ => rfl⟩
          | some ys => exact ⟨fun h => (by cases h), fun h => (by rcases h with h | h <;> cases h)⟩

theorem forall₂_left {α β : Type} {R : α → β → Prop} {xs : List α} {ys : List β} {x : α}
    (h : List.Forall₂ R xs ys) (hx : x ∈ xs) : ∃ y ∈ ys, R x y := by
  induction h with
  | nil => cases hx
  | @cons a b xs ys hab _ ih =>
      rcases List.mem_cons.mp hx with rfl | hx
      · exact ⟨b, List.mem_cons_self .., hab⟩
      · obtain ⟨y, hy, hxy⟩ := ih hx
        exact ⟨y, List.mem_cons_of_mem b hy, hxy⟩

end Lib
