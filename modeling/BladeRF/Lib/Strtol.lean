/-
# `Lib.Strtol` — integer literals as `strtoul` and `strtol` read them

A literal is a run of blanks, a sign, the mark of its base and digits, and its value
is a mathematical integer.  `strtoul` and `strtol` find the literal at the front of a
string and bring its value into 64 bits, `strtoul` by counting a negative one down
from 2^64.
-/
import BladeRF.Lib.CString

namespace Lib

def isSpace (c : BitVec 8) : Bool := c = 0x20 || (0x09 ≤ c && c ≤ 0x0d)

/-- The value of a digit or a letter, 36 for any other character. -/
def digitOf (c : BitVec 8) : ℕ :=
  if 0x30 ≤ c ∧ c ≤ 0x39 then c.toNat - 0x30
  else if 0x41 ≤ c ∧ c ≤ 0x5a then c.toNat - 0x41 + 10
  else if 0x61 ≤ c ∧ c ≤ 0x7a then c.toNat - 0x61 + 10
  else 36

def isDigitIn (base : ℕ) (c : BitVec 8) : Bool := digitOf c < base

structure Literal where
  blanks : List (BitVec 8)
  sign : List (BitVec 8)
  mark : List (BitVec 8)
  base : ℕ
  digits : List (BitVec 8)

namespace Literal

variable (l : Literal)

/-- The characters of a literal. -/
def text : List (BitVec 8) := l.blanks ++ l.sign ++ l.mark ++ l.digits

def negative : Bool := l.sign = [0x2d]

def magnitude : ℕ := l.digits.foldl (fun a c => l.base * a + digitOf c) 0

/-- The number a literal denotes. -/
def value : ℤ := if l.negative then -(l.magnitude : ℤ) else l.magnitude

/-- Nothing stands before the digits. -/
def Unsigned : Prop := l.blanks = [] ∧ l.sign = []

instance : Decidable l.Unsigned := inferInstanceAs (Decidable (_ ∧ _))

end Literal

/-- The sign at the front of a string. -/
def signOf : List (BitVec 8) → List (BitVec 8)
  | [] => []
  | c :: _ => if c = 0x2d ∨ c = 0x2b then [c] else []

/-- The mark of the base at the front of a string, and the base.  Base 0 leaves the
choice to the mark; `0x` is one before a hexadecimal digit only. -/
def markOf (base : ℕ) (cs : List (BitVec 8)) : List (BitVec 8) × ℕ :=
  if base ≠ 0 then ([], base)
  else if cs.head? ≠ some 0x30 then ([], 10)
  else if (cs[1]? = some 0x78 ∨ cs[1]? = some 0x58) ∧ cs[2]?.any (isDigitIn 16) then
    (cs.take 2, 16)
  else ([], 8)

/-- The literal at the front of a string. -/
def literal (base : ℕ) (str : List (BitVec 8)) : Option Literal :=
  let blanks := str.takeWhile isSpace
  let signed := str.drop blanks.length
  let sign := signOf signed
  let marked := signed.drop sign.length
  let mark := markOf base marked
  let digits := (marked.drop mark.1.length).takeWhile (isDigitIn mark.2)
  if digits = [] then none else some ⟨blanks, sign, mark.1, mark.2, digits⟩

/-- What `strtoul` and `strtol` return: the value, whether `errno` is `ERANGE`, and the
string from `endptr` on. -/
structure Strto (α : Type) where
  val : α
  erange : Bool
  rest : List (BitVec 8)

def strtoul (str : List (BitVec 8)) (base : ℕ) : Strto ℕ :=
  match literal base str with
  | none => ⟨0, false, str⟩
  | some l =>
      let rest := str.drop l.text.length
      if 2 ^ 64 ≤ l.magnitude then ⟨2 ^ 64 - 1, true, rest⟩
      else ⟨if l.negative then (2 ^ 64 - l.magnitude) % 2 ^ 64 else l.magnitude, false, rest⟩

def strtol (str : List (BitVec 8)) (base : ℕ) : Strto ℤ :=
  match literal base str with
  | none => ⟨0, false, str⟩
  | some l =>
      let rest := str.drop l.text.length
      if 2 ^ 63 ≤ l.value then ⟨2 ^ 63 - 1, true, rest⟩
      else if l.value < -2 ^ 63 then ⟨-2 ^ 63, true, rest⟩
      else ⟨l.value, false, rest⟩

/-! ## The front of a string -/

section

variable {α : Type} {p : α → Bool} {xs ys : List α}

/-- A prefix and what comes behind it. -/
theorem prefix_append_drop (h : xs <+: ys) : xs ++ ys.drop xs.length = ys := by
  obtain ⟨zs, rfl⟩ := h
  rw [List.drop_left]

theorem drop_length_takeWhile (p : α → Bool) (xs : List α) :
    xs.drop (xs.takeWhile p).length = xs.dropWhile p := by
  have hdrop := prefix_append_drop (List.takeWhile_prefix p (l := xs))
  exact List.append_cancel_left (hdrop.trans List.takeWhile_append_dropWhile.symm)

/-- A run ends where the next character does not belong to it. -/
theorem takeWhile_append_stop (hxs : ∀ x ∈ xs, p x) (hys : ∀ y, ys.head? = some y → p y = false) :
    (xs ++ ys).takeWhile p = xs := by
  rw [List.takeWhile_append_of_pos hxs]
  cases ys with
  | nil => rw [List.takeWhile_nil, List.append_nil]
  | cons y ys => rw [List.takeWhile_cons_of_neg (by rw [hys y rfl]; decide), List.append_nil]

theorem head_dropWhile {x : α} (h : (xs.dropWhile p).head? = some x) : p x = false := by
  induction xs with
  | nil => cases h
  | cons y ys ih =>
      rw [List.dropWhile_cons] at h
      split at h
      · exact ih h
      · rename_i hy
        cases h
        exact Bool.eq_false_iff.mpr hy

end

section

variable {base : ℕ} {str rest : List (BitVec 8)} {l : Literal}

theorem signOf_prefix (cs : List (BitVec 8)) : signOf cs <+: cs := by
  cases cs with
  | nil => exact List.nil_prefix
  | cons c cs =>
      rw [signOf]
      split
      · exact List.cons_prefix_cons.mpr ⟨rfl, List.nil_prefix⟩
      · exact List.nil_prefix

theorem markOf_prefix (base : ℕ) (cs : List (BitVec 8)) : (markOf base cs).1 <+: cs := by
  unfold markOf
  split
  · exact List.nil_prefix
  · split
    · exact List.nil_prefix
    · split
      · exact List.take_prefix 2 cs
      · exact List.nil_prefix

theorem literal_text (h : literal base str = some l) :
    l.text ++ str.drop l.text.length = str ∧ l.digits ≠ [] := by
  unfold literal at h
  dsimp only at h
  split at h
  · cases h
  · rename_i hdigits
    cases h
    refine ⟨?_, hdigits⟩
    apply prefix_append_drop
    have hblanks := List.takeWhile_prefix isSpace (l := str)
    obtain ⟨signed, hsigned⟩ : ∃ signed, str.drop (str.takeWhile isSpace).length = signed := ⟨_, rfl⟩
    have hsign := signOf_prefix signed
    obtain ⟨marked, hmarked⟩ : ∃ marked, signed.drop (signOf signed).length = marked := ⟨_, rfl⟩
    have hmark := markOf_prefix base marked
    obtain ⟨num, hnum⟩ : ∃ num, marked.drop (markOf base marked).1.length = num := ⟨_, rfl⟩
    have hnumDigits := List.takeWhile_prefix (isDigitIn (markOf base marked).2) (l := num)
    have hstr : str = str.takeWhile isSpace ++ (signOf signed ++
        ((markOf base marked).1 ++ num)) := by
      rw [← hnum, prefix_append_drop hmark, ← hmarked, prefix_append_drop hsign, ← hsigned,
        prefix_append_drop hblanks]
    unfold Literal.text
    dsimp only
    rw [hsigned, hmarked, hnum, List.append_assoc, List.append_assoc]
    conv_rhs => rw [hstr]
    exact (List.prefix_append_right_inj _).mpr ((List.prefix_append_right_inj _).mpr
      ((List.prefix_append_right_inj _).mpr hnumDigits))

/-- A literal takes at least one character. -/
theorem literal_rest_ne (h : literal base str = some l) : str.drop l.text.length ≠ str := by
  obtain ⟨htext, hdigits⟩ := literal_text h
  intro he
  rw [he] at htext
  have hnil : l.text = [] := List.append_left_eq_self.mp htext
  unfold Literal.text at hnil
  exact hdigits (List.append_eq_nil_iff.mp hnil).2

/-- What makes the parts of a literal a decimal one. -/
structure Literal.Decimal (l : Literal) : Prop where
  base : l.base = 10
  mark : l.mark = []
  blanks : ∀ c ∈ l.blanks, isSpace c
  sign : l.sign = [] ∨ l.sign = [0x2d] ∨ l.sign = [0x2b]
  nonempty : l.digits ≠ []
  digits : ∀ c ∈ l.digits, isDigitIn 10 c

/-- A digit is neither a blank nor a sign. -/
theorem isDigitIn_ten {c : BitVec 8} (h : isDigitIn 10 c) :
    isSpace c = false ∧ c ≠ 0x2d ∧ c ≠ 0x2b := by
  revert c
  decide

theorem isSpace_sign : isSpace 0x2d = false ∧ isSpace 0x2b = false := by decide

/-- The decimal literal at the front of a string. -/
theorem literal_ten (hl : l.Decimal) (hrest : ∀ c, rest.head? = some c → isDigitIn 10 c = false) :
    literal 10 (l.text ++ rest) = some l := by
  obtain ⟨hbase, hmark, hblanks, hsign, hnonempty, hdigits⟩ := hl
  obtain ⟨blanks, sign, mark, base, digits⟩ := l
  dsimp only at hbase hmark hblanks hsign hnonempty hdigits
  subst hbase hmark
  obtain ⟨d, ds, rfl⟩ := List.exists_cons_of_ne_nil hnonempty
  obtain ⟨hspace, hminus, hplus⟩ := isDigitIn_ten (hdigits d (List.mem_cons_self ..))
  have htext : (Literal.text ⟨blanks, sign, [], 10, d :: ds⟩) ++ rest =
      blanks ++ (sign ++ (d :: ds ++ rest)) := by
    simp only [Literal.text, List.append_nil, List.append_assoc]
  have htake : (blanks ++ (sign ++ (d :: ds ++ rest))).takeWhile isSpace = blanks := by
    refine takeWhile_append_stop hblanks fun c hc => ?_
    rcases hsign with rfl | rfl | rfl
    · cases hc
      exact hspace
    · cases hc
      exact isSpace_sign.1
    · cases hc
      exact isSpace_sign.2
  have hsignOf : signOf (sign ++ (d :: ds ++ rest)) = sign := by
    rcases hsign with rfl | rfl | rfl
    · rw [List.nil_append, List.cons_append, signOf, if_neg (not_or.mpr ⟨hminus, hplus⟩)]
    · rfl
    · rfl
  have hmarkOf (cs : List (BitVec 8)) : markOf 10 cs = ([], 10) := rfl
  unfold literal
  rw [htext]
  dsimp only
  rw [htake, List.drop_left, hsignOf, List.drop_left, hmarkOf]
  dsimp only
  rw [List.length_nil, List.drop_zero, takeWhile_append_stop hdigits hrest, if_neg hnonempty]

/-- … and there is no other one. -/
theorem decimal_of_literal (h : literal 10 str = some l) :
    l.Decimal ∧ ∀ c, (str.drop l.text.length).head? = some c → isDigitIn 10 c = false := by
  have hnonempty := (literal_text h).2
  unfold literal at h
  dsimp only at h
  split at h
  · cases h
  · cases h
    refine ⟨⟨rfl, rfl, fun c hc => List.mem_takeWhile_imp hc, ?_, hnonempty,
      fun c hc => List.mem_takeWhile_imp hc⟩, ?_⟩
    · dsimp only
      cases str.drop (str.takeWhile isSpace).length with
      | nil => exact .inl rfl
      | cons c cs =>
          rw [signOf]
          split
          · rename_i hsign
            rcases hsign with rfl | rfl
            · exact .inr (.inl rfl)
            · exact .inr (.inr rfl)
          · exact .inl rfl
    · intro c hc
      unfold Literal.text at hc
      dsimp only at hc
      rw [List.length_append, List.length_append, List.length_append, ← List.drop_drop,
        ← List.drop_drop, ← List.drop_drop, drop_length_takeWhile (isDigitIn _)] at hc
      exact head_dropWhile hc

end

end Lib
