/-
# `Host.Conversions` — numbers and versions from strings

`str2uint` and `str2int` bring the number at the front of a string into a range, and
`str2version` reads three numbers with dots between them.  `str2uint` narrows what
`strtoul` returns before it looks at the range, so a number outside of 32 bits may come
out inside; `str2version` leaves blanks and signs to `strtoul`, so it takes strings that
are no versions.
-/
import BladeRF.Lib.Strtol
import BladeRF.Flash.BinkvPage

namespace BladeRF

open Lib (CStr Literal literal strtoul strtol isDigitIn)

/-- `(unsigned int)` of a length -/
def uintOf (n : ℕ) : ℕ := n % 2 ^ 32

/-- `str2uint(str, min, max, ok)`: `ok` and the number. -/
def str2uint (str : CStr) (min max : BitVec 32) : Bool × ℕ :=
  let r := strtoul str.chars 0
  let ret := uintOf r.val
  if r.erange ∨ r.erange ∧ ret = 0 then (false, 0)
  else if str.chars = r.rest then (false, 0)
  else if min.toNat ≤ ret ∧ ret ≤ max.toNat then (true, ret)
  else (false, 0)

def str2int (str : CStr) (min max : BitVec 32) : Bool × ℤ :=
  let r := strtol str.chars 0
  if r.erange ∧ (r.val = 2 ^ 63 - 1 ∨ r.val = -2 ^ 63) ∨ r.erange ∧ r.val = 0 then (false, 0)
  else if str.chars = r.rest then (false, 0)
  else if min.toInt ≤ r.val ∧ r.val ≤ max.toInt then (true, intOf r.val)
  else (false, 0)

structure BladerfVersion where
  major : ℕ
  minor : ℕ
  patch : ℕ
  describe : CStr
deriving DecidableEq

/-- A number of a version, and the string behind it; `stop` is what may come there. -/
def versionField (start : List (BitVec 8)) (stop : Option (BitVec 8) → Bool) :
    Option (ℕ × List (BitVec 8)) :=
  let tmp := strtoul start 10
  if tmp.erange ∨ 0xffff < tmp.val ∨ tmp.rest = start ∨ ¬stop tmp.rest.head? then none
  else some (tmp.val, tmp.rest)

def dotStop (c : Option (BitVec 8)) : Bool := c = some 0x2e

def patchStop (c : Option (BitVec 8)) : Bool := c = none ∨ c = some 0x2d

/-- `str2version`: the version, or `none` for -1. -/
def str2version (str : CStr) : Option BladerfVersion := do
  let major ← versionField str.chars dotStop
  if major.2[1]? = none then none
  else
    let minor ← versionField (major.2.drop 1) dotStop
    if minor.2[1]? = none then none
    else
      let patch ← versionField (minor.2.drop 1) patchStop
      some ⟨major.1, minor.1, patch.1, str⟩

/-! ## Numbers in a range -/

/-- `str2uint` is sound: a number it takes is the number denoted, in the range. -/
def UintSound (str : CStr) (min max : BitVec 32) : Prop :=
  (str2uint str min max).1 = true →
    ∃ l, literal 0 str.chars = some l ∧ (min.toNat : ℤ) ≤ l.value ∧ l.value ≤ max.toNat ∧
      l.value = (str2uint str min max).2

def IntSound (str : CStr) (min max : BitVec 32) : Prop :=
  (str2int str min max).1 = true →
    ∃ l, literal 0 str.chars = some l ∧ min.toInt ≤ l.value ∧ l.value ≤ max.toInt ∧
      l.value = (str2int str min max).2

/-- The number denoted is in the range of an `unsigned int`, or `strtoul` cannot hold it,
or it comes out of the narrowing outside of the bounds. -/
def UintFits (str : CStr) (min max : BitVec 32) : Prop :=
  ∀ l, literal 0 str.chars = some l →
    0 ≤ l.value ∧ l.value < 2 ^ 32 ∨ 2 ^ 64 ≤ l.magnitude ∨
      ¬((min.toNat : ℤ) ≤ l.value % 2 ^ 32 ∧ l.value % 2 ^ 32 ≤ max.toNat)

section

variable {str : CStr} {min max : BitVec 32} {l : Literal}

theorem str2uint_literal (h : literal 0 str.chars = some l) (hsize : l.magnitude < 2 ^ 64) :
    str2uint str min max = if min.toNat ≤ (l.value % 2 ^ 32).toNat ∧
        (l.value % 2 ^ 32).toNat ≤ max.toNat then (true, (l.value % 2 ^ 32).toNat)
      else (false, 0) := by
  have hrest := Lib.literal_rest_ne h
  obtain ⟨r, hr⟩ : ∃ r, (if l.negative then (2 ^ 64 - l.magnitude) % 2 ^ 64 else l.magnitude) = r :=
    ⟨_, rfl⟩
  have hval : uintOf r = (l.value % 2 ^ 32).toNat := by
    unfold uintOf Literal.value
    rw [← hr]
    split
    · omega
    · omega
  unfold str2uint strtoul
  rw [h]
  dsimp only
  rw [if_neg (Nat.not_le.mpr hsize), hr, hval]
  dsimp only
  rw [if_neg (by simp only [Bool.false_eq_true, false_and, or_self, not_false_eq_true]),
    if_neg hrest.symm]

theorem str2uint_refused (h : ∀ l, literal 0 str.chars = some l → 2 ^ 64 ≤ l.magnitude) :
    str2uint str min max = (false, 0) := by
  unfold str2uint strtoul
  cases hl : literal 0 str.chars with
  | none =>
      dsimp only
      rw [if_neg (by decide), if_pos rfl]
  | some l =>
      dsimp only
      rw [if_pos (h l hl)]
      exact if_pos (.inl rfl)

theorem uintSound_iff : UintSound str min max ↔ UintFits str min max := by
  unfold UintSound UintFits
  cases hl : literal 0 str.chars with
  | none =>
      rw [str2uint_refused fun l h => (by rw [hl] at h; cases h)]
      exact ⟨fun _ _ h => (by cases h), fun _ h => (by cases h)⟩
  | some l =>
      rcases Nat.lt_or_ge l.magnitude (2 ^ 64) with hsize | hsize
      · rw [str2uint_literal hl hsize]
        constructor
        · intro hsound l' hl'
          cases hl'
          by_cases hin : 0 ≤ l.value ∧ l.value < 2 ^ 32
          · exact .inl hin
          refine .inr (.inr fun hbounds => hin ?_)
          rw [if_pos (by omega)] at hsound
          obtain ⟨l', hl', -, -, hval⟩ := hsound rfl
          cases hl'
          dsimp only at hval
          omega
        · intro hfits hok
          refine ⟨l, rfl, ?_⟩
          split at hok
          · rename_i hbounds
            rw [if_pos hbounds]
            rcases hfits l rfl with hin | hover | hout
            · dsimp only
              omega
            · omega
            · omega
          · cases hok
      · rw [str2uint_refused fun l' h => (by rw [hl] at h; cases h; exact hsize)]
        exact ⟨fun _ l' h => (by cases h; exact .inr (.inl hsize)), fun _ h => (by cases h)⟩

theorem str2int_none (h : literal 0 str.chars = none) : str2int str min max = (false, 0) := by
  unfold str2int strtol
  rw [h]
  dsimp only
  rw [if_neg (by decide), if_pos rfl]

theorem str2int_literal (h : literal 0 str.chars = some l) :
    str2int str min max =
      if min.toInt ≤ l.value ∧ l.value ≤ max.toInt then (true, l.value) else (false, 0) := by
  have hmin := min.le_toInt
  have hmax := max.toInt_lt
  unfold str2int strtol
  rw [h]
  dsimp only
  by_cases hhigh : 2 ^ 63 ≤ l.value
  · rw [if_pos hhigh, if_pos (.inl ⟨rfl, .inl rfl⟩), if_neg (by omega)]
  by_cases hlow : l.value < -2 ^ 63
  · rw [if_neg hhigh, if_pos hlow, if_pos (.inl ⟨rfl, .inr rfl⟩), if_neg (by omega)]
  rw [if_neg hhigh, if_neg hlow]
  dsimp only
  rw [if_neg (by simp only [Bool.false_eq_true, false_and, or_self, not_false_eq_true]),
    if_neg (Lib.literal_rest_ne h).symm]
  split
  · rw [intOf_small (by omega) (by omega)]
  · rfl

theorem intSound (str : CStr) (min max : BitVec 32) : IntSound str min max := by
  intro hok
  cases hl : literal 0 str.chars with
  | none =>
      rw [str2int_none hl] at hok
      cases hok
  | some l =>
      rw [str2int_literal hl] at hok ⊢
      refine ⟨l, rfl, ?_⟩
      split at hok
      · rename_i hbounds
        rw [if_pos hbounds]
        exact ⟨hbounds.1, hbounds.2, rfl⟩
      · cases hok

end

/-! ## Versions -/

/-- What `strtoul` makes of a literal that it can hold. -/
def fieldValue (l : Literal) : ℕ :=
  if l.negative then (2 ^ 64 - l.magnitude) % 2 ^ 64 else l.magnitude

/-- A field that `str2version` takes for a number. -/
structure ReadsField (l : Literal) : Prop where
  decimal : l.Decimal
  held : l.magnitude < 2 ^ 64
  small : fieldValue l ≤ 0xffff

/-- A string of three decimal literals with dots between them, before its end or a
hyphen. -/
structure VersionText (str : CStr) (major minor patch : Literal) (rest : List (BitVec 8)) :
    Prop where
  chars : str.chars =
    major.text ++ 0x2e :: (minor.text ++ 0x2e :: (patch.text ++ rest))
  stop : patchStop rest.head? = true
  major : major.Decimal
  minor : minor.Decimal
  patch : patch.Decimal

/-- `str` is the version `v`: three unsigned decimal numbers of at most 65535. -/
def VersionOf (str : CStr) (v : BladerfVersion) : Prop :=
  ∃ major minor patch rest, VersionText str major minor patch rest ∧
    (major.Unsigned ∧ major.magnitude ≤ 0xffff) ∧ (minor.Unsigned ∧ minor.magnitude ≤ 0xffff) ∧
    (patch.Unsigned ∧ patch.magnitude ≤ 0xffff) ∧
    v = ⟨major.magnitude, minor.magnitude, patch.magnitude, str⟩

/-- `str2version` takes versions, and nothing else. -/
def VersionRight (str : CStr) : Prop := ∀ v, str2version str = some v ↔ VersionOf str v

/-- If `strtoul` brings three fields of the string to at most 65535, none of them begins
with a blank or a sign. -/
def VersionPlain (str : CStr) : Prop :=
  ∀ major minor patch rest, VersionText str major minor patch rest →
    ReadsField major → ReadsField minor → ReadsField patch →
      major.Unsigned ∧ minor.Unsigned ∧ patch.Unsigned

section

variable {str : CStr} {start rest : List (BitVec 8)} {l : Literal} {v : ℕ}
  {stop : Option (BitVec 8) → Bool}

theorem dotStop_digit {c : BitVec 8} (h : dotStop (some c) = true) : isDigitIn 10 c = false := by
  have hc : c = 0x2e := Option.some.inj (of_decide_eq_true h)
  rw [hc]
  decide

theorem patchStop_digit {c : BitVec 8} (h : patchStop (some c) = true) :
    isDigitIn 10 c = false := by
  unfold patchStop at h
  rcases of_decide_eq_true h with h | h
  · cases h
  · rw [Option.some.inj h]
    decide

theorem versionField_eq_some (hstop : ∀ c, stop (some c) = true → isDigitIn 10 c = false) :
    versionField start stop = some (v, rest) ↔
      ∃ l, ReadsField l ∧ start = l.text ++ rest ∧ stop rest.head? = true ∧ v = fieldValue l := by
  unfold versionField strtoul
  constructor
  · intro h
    cases hl : literal 10 start with
    | none =>
        rw [hl] at h
        dsimp only at h
        rw [if_pos (.inr (.inr (.inl rfl)))] at h
        cases h
    | some l =>
        rw [hl] at h
        dsimp only at h
        obtain ⟨hdecimal, -⟩ := Lib.decimal_of_literal hl
        obtain ⟨htext, -⟩ := Lib.literal_text hl
        obtain ⟨n, hn⟩ : ∃ n, fieldValue l = n := ⟨_, rfl⟩
        by_cases hsize : 2 ^ 64 ≤ l.magnitude
        · rw [if_pos hsize, if_pos (.inl rfl)] at h
          cases h
        · rw [if_neg hsize, show (if l.negative then (2 ^ 64 - l.magnitude) % 2 ^ 64
            else l.magnitude) = n from hn] at h
          dsimp only at h
          split at h
          · cases h
          · rename_i hbad
            simp only [not_or, Decidable.not_not] at hbad
            cases h
            exact ⟨l, ⟨hdecimal, Nat.lt_of_not_le hsize, by rw [hn]; exact Nat.le_of_not_lt hbad.2.1⟩,
              htext.symm, hbad.2.2.2, hn.symm⟩
  · rintro ⟨l, ⟨hdecimal, hheld, hsmall⟩, rfl, hrest, rfl⟩
    have hl := Lib.literal_ten hdecimal fun c hc => hstop c (by rw [← hc]; exact hrest)
    have hne := Lib.literal_rest_ne hl
    rw [List.drop_left] at hne
    rw [hl]
    dsimp only
    rw [if_neg (Nat.not_le.mpr hheld), List.drop_left]
    dsimp only
    rw [if_neg]
    · rfl
    · rintro (he | he | he | he)
      · cases he
      · exact absurd he (Nat.not_lt.mpr hsmall)
      · exact hne he
      · exact he hrest

theorem text_ne_nil (h : l.Decimal) : l.text ≠ [] := by
  intro he
  unfold Literal.text at he
  exact h.nonempty (List.append_eq_nil_iff.mp he).2

theorem dot_front (h : dotStop rest.head? = true) : ∃ behind, rest = 0x2e :: behind := by
  cases rest with
  | nil => exact absurd h (by decide)
  | cons c behind => exact ⟨behind, by rw [Option.some.inj (of_decide_eq_true h)]⟩

theorem str2version_eq_some {version : BladerfVersion} :
    str2version str = some version ↔
      ∃ major minor patch rest, VersionText str major minor patch rest ∧
        ReadsField major ∧ ReadsField minor ∧ ReadsField patch ∧
        version = ⟨fieldValue major, fieldValue minor, fieldValue patch, str⟩ := by
  constructor
  · intro h
    unfold str2version at h
    obtain ⟨⟨a, behindMajor⟩, hmajor, h⟩ := Option.bind_eq_some_iff.mp h
    dsimp only at h
    split at h
    · cases h
    obtain ⟨⟨b, behindMinor⟩, hminor, h⟩ := Option.bind_eq_some_iff.mp h
    dsimp only at h
    split at h
    · cases h
    obtain ⟨⟨c, rest⟩, hpatch, h⟩ := Option.bind_eq_some_iff.mp h
    cases h
    obtain ⟨major, hreads₁, htext₁, hdot₁, rfl⟩ :=
      (versionField_eq_some fun _ => dotStop_digit).mp hmajor
    obtain ⟨minor, hreads₂, htext₂, hdot₂, rfl⟩ :=
      (versionField_eq_some fun _ => dotStop_digit).mp hminor
    obtain ⟨patch, hreads₃, htext₃, hend, rfl⟩ :=
      (versionField_eq_some fun _ => patchStop_digit).mp hpatch
    obtain ⟨behind₁, rfl⟩ := dot_front hdot₁
    obtain ⟨behind₂, rfl⟩ := dot_front hdot₂
    refine ⟨major, minor, patch, rest, ⟨?_, hend, hreads₁.decimal, hreads₂.decimal,
      hreads₃.decimal⟩, hreads₁, hreads₂, hreads₃, rfl⟩
    have hminorText : behind₁ = minor.text ++ 0x2e :: behind₂ := htext₂
    have hpatchText : behind₂ = patch.text ++ rest := htext₃
    rw [htext₁, hminorText, hpatchText]
  · rintro ⟨major, minor, patch, rest, htext, hreads₁, hreads₂, hreads₃, rfl⟩
    have hmajor := (@versionField_eq_some str.chars
      (0x2e :: (minor.text ++ 0x2e :: (patch.text ++ rest))) (fieldValue major) dotStop
      fun _ => dotStop_digit).mpr ⟨major, hreads₁, htext.chars, rfl, rfl⟩
    have hminor := (@versionField_eq_some (minor.text ++ 0x2e :: (patch.text ++ rest))
      (0x2e :: (patch.text ++ rest)) (fieldValue minor) dotStop
      fun _ => dotStop_digit).mpr ⟨minor, hreads₂, rfl, rfl, rfl⟩
    have hpatch := (@versionField_eq_some (patch.text ++ rest) rest (fieldValue patch) patchStop
      fun _ => patchStop_digit).mpr ⟨patch, hreads₃, rfl, htext.stop, rfl⟩
    obtain ⟨d, ds, hd⟩ := List.exists_cons_of_ne_nil (text_ne_nil hreads₂.decimal)
    obtain ⟨e, es, he⟩ := List.exists_cons_of_ne_nil (text_ne_nil hreads₃.decimal)
    unfold str2version
    rw [hmajor]
    dsimp only [bind, Option.bind]
    rw [if_neg (by rw [hd]; exact fun h => (by cases h)), List.drop_one, List.tail_cons, hminor]
    dsimp only
    rw [if_neg (by rw [he]; exact fun h => (by cases h)), List.drop_one, List.tail_cons, hpatch]

theorem literal_dot (h : l.Decimal) (behind : List (BitVec 8)) :
    literal 10 (l.text ++ 0x2e :: behind) = some l :=
  Lib.literal_ten h fun c hc => dotStop_digit (by rw [← hc]; rfl)

theorem VersionText.unique {major minor patch major' minor' patch' : Literal}
    {rest' : List (BitVec 8)} (h : VersionText str major minor patch rest)
    (h' : VersionText str major' minor' patch' rest') :
    major = major' ∧ minor = minor' ∧ patch = patch' := by
  have hchars := h.chars.symm.trans h'.chars
  have hmajor : major = major' := by
    have hl := literal_dot h.major (minor.text ++ 0x2e :: (patch.text ++ rest))
    rw [hchars, literal_dot h'.major] at hl
    exact (Option.some.inj hl).symm
  subst hmajor
  have hbehind := (List.cons.inj (List.append_cancel_left hchars)).2
  have hminor : minor = minor' := by
    have hl := literal_dot h.minor (patch.text ++ rest)
    rw [hbehind, literal_dot h'.minor] at hl
    exact (Option.some.inj hl).symm
  subst hminor
  have hlast := (List.cons.inj (List.append_cancel_left hbehind)).2
  have hpatch : patch = patch' := by
    have hl := Lib.literal_ten h.patch fun c hc => patchStop_digit (by rw [← hc]; exact h.stop)
    rw [hlast, Lib.literal_ten h'.patch fun c hc =>
      patchStop_digit (by rw [← hc]; exact h'.stop)] at hl
    exact (Option.some.inj hl).symm
  exact ⟨rfl, rfl, hpatch⟩

theorem fieldValue_unsigned (h : l.Unsigned) : fieldValue l = l.magnitude := by
  unfold fieldValue Literal.negative
  rw [h.2]
  rfl

theorem readsField_unsigned (hdecimal : l.Decimal) (h : l.Unsigned) (hsmall : l.magnitude ≤ 0xffff) :
    ReadsField l :=
  ⟨hdecimal, by omega, by rw [fieldValue_unsigned h]; exact hsmall⟩

theorem versionRight_iff : VersionRight str ↔ VersionPlain str := by
  unfold VersionRight
  constructor
  · intro hright major minor patch rest htext h₁ h₂ h₃
    obtain ⟨major', minor', patch', rest', htext', ⟨hu₁, -⟩, ⟨hu₂, -⟩, ⟨hu₃, -⟩, -⟩ :=
      (hright _).mp (str2version_eq_some.mpr ⟨major, minor, patch, rest, htext, h₁, h₂, h₃, rfl⟩)
    obtain ⟨rfl, rfl, rfl⟩ := htext.unique htext'
    exact ⟨hu₁, hu₂, hu₃⟩
  · intro hplain version
    rw [str2version_eq_some]
    constructor
    · rintro ⟨major, minor, patch, rest, htext, h₁, h₂, h₃, rfl⟩
      obtain ⟨hu₁, hu₂, hu₃⟩ := hplain major minor patch rest htext h₁ h₂ h₃
      have hsmall₁ := h₁.small
      have hsmall₂ := h₂.small
      have hsmall₃ := h₃.small
      rw [fieldValue_unsigned hu₁] at hsmall₁ ⊢
      rw [fieldValue_unsigned hu₂] at hsmall₂ ⊢
      rw [fieldValue_unsigned hu₃] at hsmall₃ ⊢
      exact ⟨major, minor, patch, rest, htext, ⟨hu₁, hsmall₁⟩, ⟨hu₂, hsmall₂⟩, ⟨hu₃, hsmall₃⟩, rfl⟩
    · rintro ⟨major, minor, patch, rest, htext, ⟨hu₁, hsmall₁⟩, ⟨hu₂, hsmall₂⟩, ⟨hu₃, hsmall₃⟩, rfl⟩
      refine ⟨major, minor, patch, rest, htext, readsField_unsigned htext.major hu₁ hsmall₁,
        readsField_unsigned htext.minor hu₂ hsmall₂, readsField_unsigned htext.patch hu₃ hsmall₃, ?_⟩
      rw [fieldValue_unsigned hu₁, fieldValue_unsigned hu₂, fieldValue_unsigned hu₃]

end

/-- Numbers from strings are the numbers denoted, and versions are versions, each under
its own condition; `str2int` has none. -/
theorem conversions_iff (str : CStr) (umin umax min max : BitVec 32) :
    (UintSound str umin umax ↔ UintFits str umin umax) ∧ IntSound str min max ∧
      (VersionRight str ↔ VersionPlain str) :=
  ⟨uintSound_iff, intSound str min max, versionRight_iff⟩

def wideNumber : CStr := ⟨[0x34, 0x32, 0x39, 0x34, 0x39, 0x36, 0x37, 0x32, 0x39, 0x37], by decide⟩

/-- ` 1.+2.3` -/
def signedVersion : CStr := ⟨[0x20, 0x31, 0x2e, 0x2b, 0x32, 0x2e, 0x33], by decide⟩

theorem not_conversions :
    ¬UintSound wideNumber 0 10 ∧ ¬VersionRight signedVersion := by
  constructor
  · intro hsound
    obtain ⟨l, hl, -, hmax, -⟩ := hsound (by decide)
    have hvalue : l.value = 4294967297 := by
      have hwide : (literal 0 wideNumber.chars).map Literal.value = some 4294967297 := by decide
      rw [hl] at hwide
      exact Option.some.inj hwide
    rw [hvalue] at hmax
    exact absurd hmax (by decide)
  · intro hright
    obtain ⟨major, minor, patch, rest, htext, ⟨⟨hblanks, -⟩, -⟩, -⟩ :=
      (hright ⟨1, 2, 3, signedVersion⟩).mp (by decide)
    have hl := literal_dot htext.major (minor.text ++ 0x2e :: (patch.text ++ rest))
    rw [← htext.chars] at hl
    have hspace : (literal 10 signedVersion.chars).map Literal.blanks = some [0x20] := by decide
    rw [hl, Option.map_some, hblanks] at hspace
    cases hspace

end BladeRF
