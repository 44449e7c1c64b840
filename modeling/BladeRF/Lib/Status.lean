/-
# `Lib.Status` — functions that work on a state and may fail

A function that changes a shared state and either returns or leaves early with
an error is a program of `StatusM`.  What it did before it left stays done, so
a statement about it has two ends: one for the value it returns and one for the
error it leaves with.
-/
import Mathlib.Logic.Basic

namespace Lib

abbrev StatusM (ε σ α : Type) := ExceptT ε (StateM σ) α

namespace StatusM

variable {ε σ α β : Type}

/-- The outcome, and the state it is left in. -/
def exec (m : StatusM ε σ α) (s : σ) : Except ε α × σ := (ExceptT.run m).run s

theorem exec_bind (m : StatusM ε σ α) (f : α → StatusM ε σ β) (s : σ) :
    (m >>= f).exec s = match m.exec s with
      | (.ok a, t) => (f a).exec t
      | (.error e, t) => (.error e, t) := by
  change (ExceptT.run (m >>= f)).run s = _
  simp only [ExceptT.run_bind, StateT.run_bind, exec]
  generalize (ExceptT.run m).run s = r
  obtain ⟨a | e, t⟩ := r <;> rfl

/-- What is done with the value of a program that returns. -/
theorem exec_bind_pure_iff {m : StatusM ε σ α} {g : α → β} {s : σ} {p : β → Prop} :
    (∃ b t, (m >>= fun a => pure (g a)).exec s = (.ok b, t) ∧ p b) ↔
      ∃ a t, m.exec s = (.ok a, t) ∧ p (g a) := by
  rw [exec_bind]
  obtain ⟨a | e, t⟩ := m.exec s
  · simp
  · constructor
    · rintro ⟨b, t', h, hp⟩
      cases h
      exact ⟨e, t, rfl, hp⟩
    · rintro ⟨a, t', h, hp⟩
      cases h
      exact ⟨g e, t, rfl, hp⟩

theorem exec_tryCatch (m : StatusM ε σ α) (f : ε → StatusM ε σ α) (s : σ) :
    (tryCatch m f).exec s = match m.exec s with
      | (.ok a, t) => (.ok a, t)
      | (.error e, t) => (f e).exec t := by
  change StateT.run (do
    match ← ExceptT.run m with
    | .ok a => pure (.ok a)
    | .error e => ExceptT.run (f e)) s = _
  simp only [StateT.run_bind, exec]
  generalize (ExceptT.run m).run s = r
  obtain ⟨a | e, t⟩ := r <;> rfl

/-- From a state with `P` the program returns a value with `Q`, or leaves with an
error with `E`. -/
def Meets (P : σ → Prop) (m : StatusM ε σ α) (Q : α → σ → Prop) (E : ε → σ → Prop) : Prop :=
  ∀ s, P s → match m.exec s with
    | (.ok a, t) => Q a t
    | (.error e, t) => E e t

variable {P P' : σ → Prop} {Q Q' : α → σ → Prop} {R : β → σ → Prop} {E E' : ε → σ → Prop}
  {m : StatusM ε σ α} {f : α → StatusM ε σ β}

namespace Meets

theorem pure {a : α} (h : ∀ s, P s → Q a s) : Meets P (pure a : StatusM ε σ α) Q E := h

theorem throw {e : ε} (h : ∀ s, P s → E e s) : Meets P (throw e : StatusM ε σ α) Q E := h

theorem get {Q : σ → σ → Prop} (h : ∀ s, P s → Q s s) :
    Meets P (MonadState.get : StatusM ε σ σ) Q E := h

theorem modify {g : σ → σ} {Q : PUnit → σ → Prop} (h : ∀ s, P s → Q ⟨⟩ (g s)) :
    Meets P (modify g : StatusM ε σ PUnit) Q E := h

/-- A stronger precondition, weaker ends. -/
theorem weaken (h : Meets P m Q E) (hP : ∀ s, P' s → P s) (hQ : ∀ a s, Q a s → Q' a s)
    (hE : ∀ e s, E e s → E' e s) : Meets P' m Q' E' := by
  intro s hs
  have := h s (hP s hs)
  split at this
  · exact hQ _ _ this
  · exact hE _ _ this

theorem bind (h : Meets P m Q E) (hf : ∀ a, Meets (Q a) (f a) R E) :
    Meets P (m >>= f) R E := by
  intro s hs
  have hm := h s hs
  rw [exec_bind]
  split at hm
  · exact hf _ _ hm
  · exact hm

theorem tryCatch {g : ε → StatusM ε σ α} (h : Meets P m Q E') (hg : ∀ e, Meets (E' e) (g e) Q E) :
    Meets P (tryCatch m g) Q E := by
  intro s hs
  have hm := h s hs
  rw [exec_tryCatch]
  split at hm
  · exact hm
  · exact hg _ _ hm

theorem ite {c : Prop} [Decidable c] {m' : StatusM ε σ α} (h : c → Meets P m Q E)
    (h' : ¬c → Meets P m' Q E) : Meets P (if c then m else m') Q E := by
  split
  · exact h ‹_›
  · exact h' ‹_›

/-- The precondition may be used as a fact about the state the program starts in. -/
theorem of_state (h : ∀ s, P s → Meets (· = s) m Q E) : Meets P m Q E :=
  fun s hs => h s hs s rfl

end Meets

/-- `I` survives the program, whichever way it ends. -/
def Keeps (I : σ → Prop) (m : StatusM ε σ α) : Prop := Meets I m (fun _ => I) fun _ => I

/-- The program leaves with an error that has `E`. -/
def Refuses (P : σ → Prop) (m : StatusM ε σ α) (E : ε → σ → Prop) : Prop :=
  Meets P m (fun _ _ => False) E

variable {I : σ → Prop}

namespace Keeps

theorem pure (a : α) : Keeps I (pure a : StatusM ε σ α) := Meets.pure fun _ => id

theorem throw (e : ε) : Keeps I (throw e : StatusM ε σ α) := Meets.throw fun _ => id

theorem get : Keeps I (MonadState.get : StatusM ε σ σ) := Meets.get fun _ => id

theorem modify {g : σ → σ} (h : ∀ s, I s → I (g s)) : Keeps I (modify g : StatusM ε σ PUnit) :=
  Meets.modify h

theorem bind (h : Keeps I m) (hf : ∀ a, Keeps I (f a)) : Keeps I (m >>= f) := Meets.bind h hf

theorem tryCatch {g : ε → StatusM ε σ α} (h : Keeps I m) (hg : ∀ e, Keeps I (g e)) :
    Keeps I (tryCatch m g) := Meets.tryCatch h hg

theorem ite {c : Prop} [Decidable c] {m' : StatusM ε σ α} (h : Keeps I m) (h' : Keeps I m') :
    Keeps I (if c then m else m') := Meets.ite (fun _ => h) fun _ => h'

end Keeps

namespace Refuses

theorem throw {e : ε} (h : ∀ s, P s → E e s) : Refuses P (throw e : StatusM ε σ α) E :=
  Meets.throw h

theorem bind (h : Refuses P m E) : Refuses P (m >>= f) E :=
  Meets.bind h fun _ _ hs => hs.elim

theorem after (h : Meets P m Q E) (hf : ∀ a, Refuses (Q a) (f a) E) : Refuses P (m >>= f) E :=
  Meets.bind h hf

theorem weaken (h : Refuses P m E) (hP : ∀ s, P' s → P s) (hE : ∀ e s, E e s → E' e s) :
    Refuses P' m E' := Meets.weaken h hP (fun _ _ => id) hE

end Refuses
end StatusM
end Lib
