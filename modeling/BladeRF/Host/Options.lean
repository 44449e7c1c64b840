/-
# `Host.Options` — the lines of a configuration file

`str2options` gathers a line up to its newline, reads it as a command line and keeps the
two-word lines whose scope matches.  The ways out of its loop return the number of the
options so far and leave `*opts` alone, and what stands behind the last newline is never
read.
-/
import BladeRF.Host.Args
import BladeRF.Lib.Words

namespace BladeRF

open Lib (CStr)

/-- `struct config_options` -/
structure ConfigOption where
  key : List (BitVec 8)
  value : List (BitVec 8)
  lineno : ℤ

/-- How `str2options` comes out: the return value, and what `*opts` is set to. -/
inductive OptionsResult where
  | running
  | outside
  | returned (rc : ℤ) (opts : Option (List ConfigOption))

inductive LineWords (line : List (BitVec 8)) : Option (List (List (BitVec 8))) → Prop
  | words {found : List ArgWord} {i : ℕ} :
      ArgsText 0x23 0 (CStr.ofBytes line).chars found (.done i) →
      LineWords line (some (found.map ArgWord.word))
  | quoted {found : List ArgWord} {i : ℕ} :
      ArgsText 0x23 0 (CStr.ofBytes line).chars found (.quoted i) → LineWords line none

/-- The right result for a file with the options `opts`, behind those there are. -/
def RightFor (before : List ConfigOption) (opts : Option (List ConfigOption))
    (r : OptionsResult) : Prop :=
  match opts with
  | none => ∃ rc o, r = .returned rc o ∧ rc < 0
  | some os => r = .returned (before ++ os).length (some (before ++ os))

section

variable {d : ScopeDevice} {line buf rest : List (BitVec 8)} {ws : List (List (BitVec 8))}
  {words words' : Option (List (List (BitVec 8)))} {s : OptionScan} {i fuel : ℕ}

theorem LineWords.unique (h : LineWords line words) (h' : LineWords line words') :
    words = words' := by
  cases h with
  | words htext =>
      cases h' with
      | words htext' => rw [(htext.unique htext').1]
      | quoted htext' => cases (htext.unique htext').2
  | quoted htext =>
      cases h' with
      | words htext' => cases (htext.unique htext').2
      | quoted _ => rfl

variable {before os : List ConfigOption} {opts : Option (List ConfigOption)} {r : OptionsResult}
  {lines : List (List (BitVec 8))} {m : Bool} {n : ℤ}

theorem RightFor.returns (h : RightFor before opts r) : r ≠ .running := by
  cases opts with
  | none =>
      obtain ⟨rc, o, rfl, -⟩ := h
      exact fun he => by cases he
  | some os =>
      have hr : r = .returned (before ++ os).length (some (before ++ os)) := h
      rw [hr]
      exact fun he => by cases he

end

end BladeRF
