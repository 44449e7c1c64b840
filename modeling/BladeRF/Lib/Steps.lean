/-
# `Lib.Steps` — finite runs of a labelled step function

A system is a step function `step : σ → ℓ → Option σ`: every choice the
environment makes is in the label, so a run is a list of labels.  `Steps`
carries a side condition `ok` that each step has to meet in the state it is
taken from; `fun _ _ => True` gives all runs.  The condition is part of the
relation because a result of the form "every run that avoids this step" needs
it at every step, not only at the last.
-/
import Mathlib.Data.List.Infix

namespace Lib

variable {σ ℓ : Type*}

/-- `Steps step ok s ls t`: the labels `ls` lead from `s` to `t`, and every
one of them meets `ok` in the state it is taken from. -/
inductive Steps (step : σ → ℓ → Option σ) (ok : σ → ℓ → Prop) (s : σ) :
    List ℓ → σ → Prop
  | nil : Steps step ok s [] s
  | snoc {ls : List ℓ} {t u : σ} {l : ℓ} :
      Steps step ok s ls t → ok t l → step t l = some u →
      Steps step ok s (ls ++ [l]) u

variable {step : σ → ℓ → Option σ} {ok : σ → ℓ → Prop}

variable {s t : σ} {ls : List ℓ}

/-- The invariant rule: what holds at the start and survives every admitted
step holds at the end of every run. -/
theorem Steps.invariant {P : σ → Prop} (h : Steps step ok s ls t) (h0 : P s)
    (hstep : ∀ {a : σ} {l : ℓ} {b : σ}, P a → ok a l → step a l = some b → P b) :
    P t := by
  induction h with
  | nil => exact h0
  | snoc _ hok hs ih => exact hstep ih hok hs

/-- Weakening the side condition. -/
theorem Steps.mono {ok' : σ → ℓ → Prop} (h : Steps step ok s ls t) (hok : ∀ a l, ok a l → ok' a l) :
    Steps step ok' s ls t := by
  induction h with
  | nil => exact .nil
  | snoc _ h1 h2 ih => exact .snoc ih (hok _ _ h1) h2

/-- A side condition that none of the labels can break. -/
theorem Steps.of_labels {ok' : σ → ℓ → Prop}
    (h : Steps step ok s ls t) (hok : ∀ l ∈ ls, ∀ a, ok' a l) : Steps step ok' s ls t := by
  induction h with
  | nil => exact .nil
  | snoc _ h1 h2 ih =>
      exact .snoc (ih fun l hl => hok l (List.mem_append_left _ hl))
        (hok _ (List.mem_append_right _ (List.mem_singleton_self _)) _) h2

/-- The executable run: apply the labels in order, as long as each is
admitted. -/
def exec (step : σ → ℓ → Option σ) (ok : σ → ℓ → Prop) [∀ s l, Decidable (ok s l)] :
    σ → List ℓ → Option σ
  | s, [] => some s
  | s, l :: ls => if ok s l then (step s l).bind (fun t => exec step ok t ls) else none

/-- Prepending a step to a run. -/
theorem Steps.cons {u : σ} {l : ℓ}
    (hok : ok s l) (hs : step s l = some t) (h : Steps step ok t ls u) :
    Steps step ok s (l :: ls) u := by
  induction h with
  | nil =>
      change Steps step ok s ([] ++ [l]) t
      exact .snoc .nil hok hs
  | snoc _ h1 h2 ih =>
      rw [← List.cons_append]
      exact .snoc ih h1 h2

/-- An executable run is a run. -/
theorem Steps.of_exec [∀ s l, Decidable (ok s l)]
    (h : exec step ok s ls = some t) : Steps step ok s ls t := by
  induction ls generalizing s with
  | nil =>
      simp only [exec, Option.some.injEq] at h
      exact h ▸ .nil
  | cons l ls ih =>
      simp only [exec] at h
      split at h
      · rename_i hok
        obtain ⟨a, ha, hrest⟩ := Option.bind_eq_some_iff.mp h
        exact .cons hok ha (ih hrest)
      · simp at h

/-! ## Runs of a total step function -/

/-- `Along next P s ls`: every step of the run of `ls` from `s` satisfies `P`,
read on the state before the step, its label and the state after it. -/
def Along (next : σ → ℓ → σ) (P : σ → ℓ → σ → Prop) : σ → List ℓ → Prop
  | _, [] => True
  | s, l :: ls => P s l (next s l) ∧ Along next P (next s l) ls

/-- The invariant rule: a condition on the steps gives a property of every step
when some invariant carries it. -/
theorem along_of_invariant {next : σ → ℓ → σ} {P Q : σ → ℓ → σ → Prop} {I : σ → Prop}
    (hstep : ∀ s l, I s → Q s l (next s l) → P s l (next s l) ∧ I (next s l)) :
    ∀ (ls : List ℓ) (s : σ), I s → Along next Q s ls → Along next P s ls := by
  intro ls
  induction ls with
  | nil => intro s _ _; trivial
  | cons l ls ih =>
      intro s hs ⟨hq, hrest⟩
      obtain ⟨hp, hi⟩ := hstep s l hs hq
      exact ⟨hp, ih _ hi hrest⟩

/-- Two step properties agree on whole runs when they agree in every state with
an invariant that each step with the property keeps. -/
theorem along_iff {next : σ → ℓ → σ} {P Q : σ → ℓ → σ → Prop} {I : σ → Prop}
    (hiff : ∀ s l, I s → (P s l (next s l) ↔ Q s l (next s l)))
    (hkeep : ∀ s l, I s → Q s l (next s l) → I (next s l)) :
    ∀ (ls : List ℓ) (s : σ), I s → (Along next P s ls ↔ Along next Q s ls) := by
  intro ls
  induction ls with
  | nil => intro s _; exact Iff.rfl
  | cons l ls ih =>
      intro s hs
      constructor
      · rintro ⟨h, hrest⟩
        have hq := (hiff s l hs).mp h
        exact ⟨hq, (ih _ (hkeep s l hs hq)).mp hrest⟩
      · rintro ⟨hq, hrest⟩
        exact ⟨(hiff s l hs).mpr hq, (ih _ (hkeep s l hs hq)).mpr hrest⟩

end Lib
