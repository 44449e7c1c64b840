/-
# `Host.Csv` — columns of integers

`csv2int` allocates its columns by a hint that outlives the call: a line with more
columns doubles it, a line with fewer than half of it halves it for the next call.  Two
short lines bring the hint to zero, and doubling does not help it up again.  The line is
copied into 128 bytes, so that columns behind are lost and one may be cut, and what
`str2int` leaves behind the digits of a column is not looked at.
-/
import BladeRF.Host.Conversions
import BladeRF.Lib.Words

namespace BladeRF

open Lib (CStr Literal literal wordsOf strtokAll)

local instance lawfulChar : LawfulBEq (BitVec 8) := inferInstance

/-- `delim`: blank, CR, LF, tab, comma, dot, colon. -/
def csvDelim (c : BitVec 8) : Bool :=
  c ∈ ([0x20, 0x0d, 0x0a, 0x09, 0x2c, 0x2e, 0x3a] : List (BitVec 8))

def csvMaxlen : ℕ := 128

/-- How `csv2int` comes out.  `freedTwice`: `realloc` of no bytes frees `argout`, and the
way out frees it again. -/
inductive CsvResult where
  | ints (argout : List ℤ)
  | fail
  | freedTwice
  | outside
deriving DecidableEq

/-- The tokens of `myline`. -/
def csvTokens (line : CStr) : List (List (BitVec 8)) :=
  strtokAll csvDelim csvMaxlen (line.chars.take (csvMaxlen - 1))

/-- The loop of `csv2int`, and what it leaves in `arglen`. -/
def csvLoop (arglen : ℕ) (argout : List ℤ) : List (List (BitVec 8)) → CsvResult × ℕ
  | [] => (.ints argout, arglen)
  | token :: tokens =>
      let i := argout.length
      let grown := if arglen ≤ i then arglen * 2 else arglen
      if arglen ≤ i ∧ grown = 0 then (.freedTwice, grown)
      else if grown ≤ i then (.outside, grown)
      else
        let val := str2int (CStr.ofBytes token) (BitVec.intMin 32) (BitVec.intMax 32)
        if val.1 then csvLoop grown (argout ++ [val.2]) tokens else (.fail, grown)

/-- `csv2int(line, &argout)` with `arglen` as the call before left it. -/
def csv2int (arglen : ℕ) (line : CStr) : CsvResult × ℕ :=
  let r := csvLoop arglen [] (csvTokens line)
  match r.1 with
  | .ints argout => (r.1, if argout.length ≤ r.2 / 2 then r.2 / 2 else r.2)
  | _ => r

def csvRun : ℕ → List CStr → List CsvResult
  | _, [] => []
  | arglen, line :: lines =>
      let r := csv2int arglen line
      r.1 :: if r.1 = .freedTwice ∨ r.1 = .outside then [] else csvRun r.2 lines

/-! ## What is asked for -/

/-- The token is the integer `z`. -/
def CsvInteger (token : List (BitVec 8)) (z : ℤ) : Prop :=
  ∃ l, literal 0 token = some l ∧ l.blanks = [] ∧ l.text = token ∧ l.value = z ∧
    -2 ^ 31 ≤ z ∧ z < 2 ^ 31

/-- The token begins with an integer, as `strtol` reads it. -/
def CsvBegins (token : List (BitVec 8)) : Prop :=
  ∃ l, literal 0 token = some l ∧ -2 ^ 31 ≤ l.value ∧ l.value < 2 ^ 31

def csvColumns (line : CStr) : List (List (BitVec 8)) := wordsOf csvDelim line.chars

/-- The right answer to a line: its columns, read from the tokens they are, or -1 if one
is not an integer. -/
inductive CsvRight (line : CStr) : CsvResult → Prop
  | ints {argout : List ℤ} : List.Forall₂ CsvInteger (csvColumns line) argout →
      csvTokens line = csvColumns line → CsvRight line (.ints argout)
  | fail {token : List (BitVec 8)} : token ∈ csvColumns line →
      (∀ z, ¬CsvInteger token z) → CsvRight line .fail

/-- A line that goes well with the hint: there is a hint, or no column, and the line has
integers only, with nothing but delimiters from byte 127 on, or a column that is none
and one within the first 127 bytes that does not begin with one. -/
def CsvFits (arglen : ℕ) (line : CStr) : Prop :=
  (arglen = 0 → csvTokens line = []) ∧
    ((∀ c ∈ line.chars.drop (csvMaxlen - 1), csvDelim c) ∧
        (∀ token ∈ csvColumns line, ∃ z, CsvInteger token z) ∨
      (∃ token ∈ csvTokens line, ¬CsvBegins token) ∧
        ∃ token ∈ csvColumns line, ∀ z, ¬CsvInteger token z)

def CsvRunFits : ℕ → List CStr → Prop
  | _, [] => True
  | arglen, line :: lines => CsvFits arglen line ∧ CsvRunFits (csv2int arglen line).2 lines

/-! ## The loop -/

/-- What `str2int` makes of a token. -/
def csvValue (token : List (BitVec 8)) : Option ℤ :=
  let val := str2int (CStr.ofBytes token) (BitVec.intMin 32) (BitVec.intMax 32)
  if val.1 then some val.2 else none

section

variable {line : CStr} {token : List (BitVec 8)} {tokens : List (List (BitVec 8))} {z : ℤ}
  {arglen : ℕ} {argout : List ℤ}

theorem csvTokens_eq (line : CStr) :
    csvTokens line = wordsOf csvDelim (line.chars.take (csvMaxlen - 1)) := by
  refine Lib.strtokAll_eq ?_
  rw [List.length_take]
  exact Nat.lt_of_le_of_lt (Nat.min_le_left _ _) (by decide)

theorem csvValue_eq_some (h : 0 ∉ token) :
    csvValue token = some z ↔
      ∃ l, literal 0 token = some l ∧ l.value = z ∧ -2 ^ 31 ≤ z ∧ z < 2 ^ 31 := by
  have hmin : (BitVec.intMin 32).toInt = -2 ^ 31 := by decide
  have hmax : (BitVec.intMax 32).toInt = 2 ^ 31 - 1 := by decide
  unfold csvValue
  cases hl : literal 0 token with
  | none =>
      rw [str2int_none (by rw [CStr.ofBytes_chars h, hl])]
      exact ⟨fun he => (by cases he), fun ⟨_, he, _⟩ => (by cases he)⟩
  | some l =>
      rw [str2int_literal (by rw [CStr.ofBytes_chars h, hl]), hmin, hmax]
      by_cases hbounds : -2 ^ 31 ≤ l.value ∧ l.value ≤ 2 ^ 31 - 1
      · rw [if_pos hbounds]
        constructor
        · intro he
          cases he
          exact ⟨l, rfl, rfl, hbounds.1, by omega⟩
        · rintro ⟨l', hl', rfl, -⟩
          cases hl'
          rfl
      · rw [if_neg hbounds]
        constructor
        · intro he
          cases he
        · rintro ⟨l', hl', rfl, hlow, hhigh⟩
          cases hl'
          exact absurd ⟨hlow, by omega⟩ hbounds

theorem csvValue_isSome (h : 0 ∉ token) : (csvValue token).isSome ↔ CsvBegins token := by
  rw [Option.isSome_iff_exists]
  constructor
  · rintro ⟨z, hz⟩
    obtain ⟨l, hl, rfl, hbounds⟩ := (csvValue_eq_some h).mp hz
    exact ⟨l, hl, hbounds⟩
  · rintro ⟨l, hl, hbounds⟩
    exact ⟨l.value, (csvValue_eq_some h).mpr ⟨l, hl, rfl, hbounds⟩⟩

theorem csvInteger_value (h : 0 ∉ token) (hz : CsvInteger token z) : csvValue token = some z := by
  obtain ⟨l, hl, -, -, hvalue, hbounds⟩ := hz
  exact (csvValue_eq_some h).mpr ⟨l, hl, hvalue, hbounds⟩

theorem csvLoop_eq (hpos : 0 < arglen) (hroom : argout.length ≤ arglen) :
    (csvLoop arglen argout tokens).1 =
      match tokens.mapM csvValue with
      | some vals => .ints (argout ++ vals)
      | none => .fail := by
  induction tokens generalizing arglen argout with
  | nil => rw [csvLoop, List.mapM_nil]; exact congrArg CsvResult.ints (List.append_nil argout).symm
  | cons token tokens ih =>
      obtain ⟨grown, hgrown⟩ : ∃ grown, (if arglen ≤ argout.length then arglen * 2 else arglen) =
          grown := ⟨_, rfl⟩
      have hmore : argout.length < grown := by
        rw [← hgrown]
        split <;> omega
      rw [csvLoop, List.mapM_cons]
      dsimp only
      rw [hgrown, if_neg (by omega), if_neg (by omega)]
      unfold csvValue
      dsimp only
      cases hval : (str2int (CStr.ofBytes token) (BitVec.intMin 32) (BitVec.intMax 32)).1 with
      | false =>
          rw [if_neg (by decide), if_neg (by decide)]
          rfl
      | true =>
          rw [if_pos rfl, if_pos rfl, ih (by omega) (by rw [List.length_append]; exact hmore)]
          dsimp only [bind, Option.bind]
          unfold csvValue
          cases tokens.mapM fun token =>
              if (str2int (CStr.ofBytes token) (BitVec.intMin 32) (BitVec.intMax 32)).1 = true then
                some (str2int (CStr.ofBytes token) (BitVec.intMin 32) (BitVec.intMax 32)).2
              else none with
          | none => rfl
          | some vals => exact congrArg CsvResult.ints (List.append_assoc argout _ vals)

theorem csvLoop_zero :
    (csvLoop 0 [] tokens).1 = if tokens = [] then .ints [] else .freedTwice := by
  cases tokens with
  | nil => rfl
  | cons token tokens => rfl

/-! ## Calls and runs -/

theorem csv2int_fst (arglen : ℕ) (line : CStr) :
    (csv2int arglen line).1 = (csvLoop arglen [] (csvTokens line)).1 := by
  unfold csv2int
  dsimp only
  split
  · rfl
  · rfl

theorem csv2int_eq (h : arglen = 0 → csvTokens line = []) :
    (csv2int arglen line).1 =
      match (csvTokens line).mapM csvValue with
      | some vals => .ints vals
      | none => .fail := by
  rw [csv2int_fst]
  rcases Nat.eq_zero_or_pos arglen with rfl | hpos
  · rw [csvLoop_zero, if_pos (h rfl), h rfl]
    rfl
  · exact csvLoop_eq hpos (Nat.zero_le _)

theorem csv2int_zero (h : csvTokens line ≠ []) : (csv2int 0 line).1 = .freedTwice := by
  rw [csv2int_fst, csvLoop_zero, if_neg h]

theorem csvTokens_eq_columns :
    csvTokens line = csvColumns line ↔ ∀ c ∈ line.chars.drop (csvMaxlen - 1), csvDelim c := by
  rw [csvTokens_eq, ← Lib.wordsOf_append_eq, List.take_append_drop]
  rfl

theorem csvTokens_noNul (h : token ∈ csvTokens line) : 0 ∉ token := by
  rw [csvTokens_eq] at h
  exact fun h0 => line.noNul (List.mem_of_mem_take (Lib.mem_of_mem_wordsOf h h0))

theorem csvColumns_noNul (h : token ∈ csvColumns line) : 0 ∉ token := fun h0 =>
  line.noNul (Lib.mem_of_mem_wordsOf h h0)

theorem csvRight_iff : CsvRight line (csv2int arglen line).1 ↔ CsvFits arglen line := by
  unfold CsvFits
  by_cases hhint : arglen = 0 → csvTokens line = []
  · rw [csv2int_eq hhint]
    have hreads (token : List (BitVec 8)) (hmem : token ∈ csvTokens line) :=
      csvValue_isSome (csvTokens_noNul hmem)
    cases hvals : (csvTokens line).mapM csvValue with
    | some vals =>
        have hall := Lib.mapM_eq_some.mp hvals
        constructor
        · intro hright
          cases hright with
          | ints hints hwhole =>
              refine ⟨hhint, .inl ⟨csvTokens_eq_columns.mp hwhole, fun token hmem => ?_⟩⟩
              obtain ⟨z, -, hz⟩ := Lib.forall₂_left hints hmem
              exact ⟨z, hz⟩
        · rintro ⟨-, ⟨hdelims, hints⟩ | ⟨⟨token, hmem, hno⟩, -⟩⟩
          · have hwhole := csvTokens_eq_columns.mpr hdelims
            rw [hwhole] at hall
            have hboth := (List.forall₂_and_left _ _).mpr ⟨hints, hall⟩
            have hmembers := (List.forall₂_and_left _ _).mpr
              ⟨fun token hmem => hmem, hboth⟩
            refine .ints (hmembers.imp fun token z h => ?_) hwhole
            obtain ⟨hmem, ⟨z', hz'⟩, hz⟩ := h
            have heq := csvInteger_value (csvColumns_noNul hmem) hz'
            rw [hz] at heq
            cases heq
            exact hz'
          · obtain ⟨z, -, hz⟩ := Lib.forall₂_left hall hmem
            exact absurd ((hreads token hmem).mp (by rw [hz]; rfl)) hno
    | none =>
        obtain ⟨token, hmem, hnone⟩ := Lib.mapM_eq_none.mp hvals
        have hno : ¬CsvBegins token := by
          rw [← hreads token hmem, hnone]
          decide
        constructor
        · intro hright
          cases hright with
          | fail hcolumn hbad => exact ⟨hhint, .inr ⟨⟨token, hmem, hno⟩, ⟨_, hcolumn, hbad⟩⟩⟩
        · rintro ⟨-, ⟨hdelims, hints⟩ | ⟨-, ⟨column, hcolumn, hbad⟩⟩⟩
          · rw [csvTokens_eq_columns.mpr hdelims] at hmem
            obtain ⟨z, hz⟩ := hints token hmem
            rw [csvInteger_value (csvColumns_noNul hmem) hz] at hnone
            cases hnone
          · exact .fail hcolumn hbad
  · have hzero : arglen = 0 ∧ csvTokens line ≠ [] := by
      by_contra hno
      exact hhint fun h => by_contra fun hne => hno ⟨h, hne⟩
    obtain ⟨rfl, htokens⟩ := hzero
    rw [csv2int_zero htokens]
    exact ⟨fun hright => (by cases hright), fun hfits => absurd hfits.1 hhint⟩

theorem csvRun_right (arglen : ℕ) (lines : List CStr) :
    List.Forall₂ CsvRight lines (csvRun arglen lines) ↔ CsvRunFits arglen lines := by
  induction lines generalizing arglen with
  | nil => exact ⟨fun _ => trivial, fun _ => .nil⟩
  | cons line lines ih =>
      rw [csvRun, CsvRunFits, List.forall₂_cons, csvRight_iff]
      refine and_congr_right fun hfits => ?_
      have hright := csvRight_iff.mpr hfits
      have hreturns : ¬((csv2int arglen line).1 = .freedTwice ∨ (csv2int arglen line).1 = .outside) := by
        rintro (he | he)
        · rw [he] at hright
          cases hright
        · rw [he] at hright
          cases hright
      rw [if_neg hreturns]
      exact ih _

end

/-- `arglen` before the first call. -/
def csvArglen : ℕ := 2

/-- The calls of a process have the right answers if and only if every line goes well
with the hint it finds. -/
theorem csv2int_runs (lines : List CStr) :
    List.Forall₂ CsvRight lines (csvRun csvArglen lines) ↔ CsvRunFits csvArglen lines :=
  csvRun_right csvArglen lines

/-- `5`, an empty line, `7`. -/
def shortLines : List CStr := [⟨[0x35], by decide⟩, ⟨[], by decide⟩, ⟨[0x37], by decide⟩]

/-- The second call leaves no hint for the third. -/
theorem not_csv2int_runs : ¬List.Forall₂ CsvRight shortLines (csvRun csvArglen shortLines) := by
  have hrun : csvRun csvArglen shortLines = [.ints [5], .ints [], .freedTwice] := by decide +kernel
  rw [hrun]
  intro hright
  have hlast := (List.forall₂_cons.mp (List.forall₂_cons.mp hright).2).2
  cases (List.forall₂_cons.mp hlast).1

end BladeRF
