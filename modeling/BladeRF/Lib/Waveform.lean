/-
# `Lib.Waveform` — signals sampled clock by clock

A waveform is the list of what was seen at each clock.  Two facts carry the
reasoning about sequencers: a strobe that is high exactly on an interval of
clocks selects that interval, and a register that follows a signal with a delay
repeats an interval of it, that many clocks later.
-/
import Mathlib.Data.List.Infix

namespace Lib

variable {α β : Type*}

/-! ## Appending a clock -/

/-- Every sample is one that its clock allows. -/
def Timed (P : ℕ → α → Prop) (w : List α) : Prop := ∀ k x, w[k]? = some x → P k x

theorem timed_nil {P : ℕ → α → Prop} : Timed P [] := by
  intro k x h
  simp at h

variable {w : List α} {d a n : ℕ}

theorem timed_concat {P : ℕ → α → Prop} {x : α} :
    Timed P (w ++ [x]) ↔ Timed P w ∧ P w.length x := by
  constructor
  · intro h
    refine ⟨fun k y hk => h k y ?_, h _ x (by simp)⟩
    rw [List.getElem?_append_left (List.getElem?_eq_some_iff.mp hk).choose]
    exact hk
  · rintro ⟨h, hx⟩ k y hk
    rcases Nat.lt_trichotomy k w.length with hlt | heq | hgt
    · exact h k y (by rwa [List.getElem?_append_left hlt] at hk)
    · subst heq
      obtain rfl : x = y := by simpa using hk
      exact hx
    · rw [List.getElem?_eq_none (by simp; omega)] at hk
      cases hk

/-- Every two samples that are `d` clocks apart are related. -/
def Apart (d : ℕ) (R : ℕ → α → α → Prop) (w : List α) : Prop :=
  ∀ k x y, w[k]? = some x → w[k + d]? = some y → R k x y

theorem apart_nil {R : ℕ → α → α → Prop} : Apart d R [] := by
  intro k x y h
  simp at h

theorem apart_concat {R : ℕ → α → α → Prop} {y : α} (hd : 0 < d)
    (h : Apart d R w) (hy : ∀ k x, k + d = w.length → w[k]? = some x → R k x y) :
    Apart d R (w ++ [y]) := by
  intro k x z hk hz
  have hlen : k + d < (w ++ [y]).length := (List.getElem?_eq_some_iff.mp hz).choose
  rw [List.length_append, List.length_singleton] at hlen
  rw [List.getElem?_append_left (by omega)] at hk
  by_cases hlast : k + d = w.length
  · obtain rfl : y = z := by simpa [hlast] using hz
    exact hy k x hlast hk
  · rw [List.getElem?_append_left (by omega)] at hz
    exact h k x z hk hz

/-! ## Intervals of clocks -/

/-- The `n` clocks from clock `a` on. -/
def span (a n : ℕ) (w : List α) : List α := (w.drop a).take n

theorem length_span (h : a + n ≤ w.length) : (span a n w).length = n := by
  simp only [span, List.length_take, List.length_drop]
  omega

theorem getElem?_span {k : ℕ} (h : k < n) : (span a n w)[k]? = w[a + k]? := by
  rw [span, List.getElem?_take_of_lt h, List.getElem?_drop]

/-- Two intervals that follow each other. -/
theorem span_append (a m n : ℕ) (w : List α) : span a m w ++ span (a + m) n w = span a (m + n) w := by
  simp only [span, ← List.drop_drop]
  exact (List.take_add).symm

/-- A strobe that is high on an interval of clocks selects it. -/
theorem filter_eq_span {p : α → Bool}
    (h : Timed (fun k x => p x = true ↔ a ≤ k ∧ k < a + n) w) : w.filter p = span a n w := by
  have hbefore : (w.take a).filter p = [] := by
    rw [List.filter_eq_nil_iff]
    intro x hx hp
    obtain ⟨k, hk⟩ := List.mem_iff_getElem?.mp hx
    obtain ⟨hlt, -⟩ := List.getElem?_eq_some_iff.mp hk
    rw [List.length_take] at hlt
    rw [List.getElem?_take_of_lt (by omega)] at hk
    have := (h k x hk).mp hp
    omega
  have hin : (span a n w).filter p = span a n w := by
    rw [List.filter_eq_self]
    intro x hx
    obtain ⟨k, hk⟩ := List.mem_iff_getElem?.mp hx
    obtain ⟨hlt, -⟩ := List.getElem?_eq_some_iff.mp hk
    have hn : k < n := lt_of_lt_of_le hlt (List.length_take_le _ _)
    rw [getElem?_span hn] at hk
    exact (h _ x hk).mpr (by omega)
  have hafter : ((w.drop a).drop n).filter p = [] := by
    rw [List.filter_eq_nil_iff]
    intro x hx hp
    obtain ⟨k, hk⟩ := List.mem_iff_getElem?.mp hx
    rw [List.drop_drop, List.getElem?_drop] at hk
    have := (h _ x hk).mp hp
    omega
  calc w.filter p
      = (w.take a ++ (span a n w ++ (w.drop a).drop n)).filter p := by
        rw [span, List.take_append_drop, List.take_append_drop]
    _ = span a n w := by
        rw [List.filter_append, List.filter_append, hbefore, hin, hafter, List.append_nil,
          List.nil_append]

/-- A strobe that is never high selects nothing. -/
theorem filter_eq_nil_of_timed {p : α → Bool} (h : Timed (fun _ x => p x = false) w) :
    w.filter p = [] := by
  rw [List.filter_eq_nil_iff]
  intro x hx hp
  obtain ⟨k, hk⟩ := List.mem_iff_getElem?.mp hx
  rw [h k x hk] at hp
  cases hp

/-- What follows a signal with a delay repeats an interval of it, as far as the
waveform goes. -/
theorem map_span_isPrefixOf {f g : α → β}
    (h : Apart d (fun k x y => a ≤ k → k < a + n → g y = f x) w) :
    (span (a + d) n w).map g <+: (span a n w).map f := by
  rw [List.prefix_iff_getElem?]
  intro k hk
  rw [List.length_map] at hk
  have hn : k < n := lt_of_lt_of_le hk (List.length_take_le _ _)
  have hy : (span (a + d) n w)[k]? = some (span (a + d) n w)[k] := List.getElem?_eq_getElem hk
  rw [getElem?_span hn] at hy
  have hlen : a + d + k < w.length := (List.getElem?_eq_some_iff.mp hy).choose
  have hx : w[a + k]? = some w[a + k] := List.getElem?_eq_getElem (by omega)
  have hfg := h (a + k) _ _ hx (by rw [← hy]; congr 1; omega) (by omega) (by omega)
  rw [List.getElem_map, hfg, List.getElem?_map, getElem?_span hn, hx]
  rfl

/-- What follows a signal with a delay repeats an interval of it. -/
theorem map_span_eq {f g : α → β}
    (h : Apart d (fun k x y => a ≤ k → k < a + n → g y = f x) w) (hlen : a + d + n ≤ w.length) :
    (span (a + d) n w).map g = (span a n w).map f :=
  (map_span_isPrefixOf h).eq_of_length (by
    rw [List.length_map, List.length_map, length_span hlen, length_span (by omega)])

/-- An interval on which a signal is constant. -/
theorem map_span_const {g : α → β} {b : β} (hlen : a + n ≤ w.length)
    (h : Timed (fun k x => a ≤ k → k < a + n → g x = b) w) :
    (span a n w).map g = List.replicate n b := by
  rw [List.eq_replicate_iff]
  refine ⟨by rw [List.length_map, length_span hlen], fun x hx => ?_⟩
  obtain ⟨y, hy, rfl⟩ := List.mem_map.mp hx
  obtain ⟨k, hk⟩ := List.mem_iff_getElem?.mp hy
  obtain ⟨hlt, -⟩ := List.getElem?_eq_some_iff.mp hk
  rw [length_span hlen] at hlt
  rw [getElem?_span hlt] at hk
  exact h _ y hk (by omega) (by omega)

end Lib
