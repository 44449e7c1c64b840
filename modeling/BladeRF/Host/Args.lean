/-
# `Host.Args` — command lines into words

`str2args` finds where words end and `add_arg` copies a word without its quotes; both
look at the quotes on their own.  What a line means is said here by a grammar of words:
plain characters and quoted segments, with blanks between the words and a comment behind
them.  The line is walked with an `unsigned` index and a word is copied with `int`s, so a
word that ends at 2^31 or behind is lost, and a line of 2^32 characters is walked in
circles.
-/
import BladeRF.Host.Conversions

namespace BladeRF

open Lib (CStr)

local instance lawfulByte : LawfulBEq (BitVec 8) := inferInstance

def isBlank (c : BitVec 8) : Bool := c ∈ ([0x20, 0x09, 0x0d, 0x0a] : List (BitVec 8))

/-- `'` and `"` -/
def isQuote (c : BitVec 8) : Bool := c ∈ ([0x27, 0x22] : List (BitVec 8))

/-- How `str2args` comes out.  `outside`: an access beside the line or the allocation, or
an `int` that overflows. -/
inductive ArgsResult where
  | running
  | outside
  | code (rc : ℤ)
  | args (argv : List (List (BitVec 8)))

/-- The values of an `int`. -/
def IsInt (n : ℤ) : Prop := -2 ^ 31 ≤ n ∧ n < 2 ^ 31

instance (n : ℤ) : Decidable (IsInt n) := inferInstanceAs (Decidable (_ ∧ _))

/-- The copy loop of `add_arg`: everything but the quotes that are in use. -/
def copyArg (quoteChar : BitVec 8) : List (BitVec 8) → List (BitVec 8)
  | [] => []
  | c :: cs =>
      if quoteChar = 0 then
        if isQuote c then copyArg c cs else c :: copyArg quoteChar cs
      else if c = quoteChar then copyArg 0 cs
      else c :: copyArg quoteChar cs

/-- `add_arg(argv, argc, buf, start, stop, quote_count)`: the new word, or how the call
fails.  No memory has the size of a negative `int`. -/
def addArg (buf : List (BitVec 8)) (start stop quoteCount : ℤ) :
    Except ArgsResult (List (BitVec 8)) :=
  let len := stop - start + 1
  let size := len + 1 - quoteCount * 2
  if ¬(IsInt (stop - start) ∧ IsInt len ∧ IsInt (len + 1) ∧ IsInt (quoteCount * 2) ∧
      IsInt size) then .error .outside
  else if size < 0 then .error (.code (-1))
  else if 0 < len ∧ (start < 0 ∨ buf.length < start + len) then .error .outside
  else
    let arg := copyArg 0 ((buf.drop start.toNat).take len.toNat)
    if size < arg.length + 1 then .error .outside else .ok arg

/-- The variables of `str2args`; `argc` is the length of `argv`. -/
structure ArgScan where
  inArg : Bool := false
  quoteChar : BitVec 8 := 0
  argStart : ℤ := 0
  quoteCount : ℤ := 0
  argv : List (List (BitVec 8)) := []

inductive ArgTurn where
  | next (s : ArgScan)
  | break
  | stop (r : ArgsResult)

/-- `i - 1`, unsigned -/
def indexBefore (i : ℕ) : ℕ := uintOf (i + 2 ^ 32 - 1)

/-- The word that ends before `line[i]`. -/
def endArg (line : List (BitVec 8)) (i : ℕ) (s : ArgScan) :
    Except ArgsResult (List (BitVec 8)) :=
  addArg line s.argStart (intOf (indexBefore i)) s.quoteCount

/-- A turn of the loop of `str2args`. -/
def argTurn (line : List (BitVec 8)) (commentChar : BitVec 8) (i : ℕ) (c : BitVec 8)
    (s : ArgScan) : ArgTurn :=
  if s.inArg then
    if s.quoteChar ≠ 0 then .next (if s.quoteChar = c then { s with quoteChar := 0 } else s)
    else if isQuote c then
      .next { s with quoteCount := s.quoteCount + 1, quoteChar := c }
    else if isBlank c then
      match endArg line i s with
      | .error r => .stop r
      | .ok arg => .next { s with inArg := false, argv := s.argv ++ [arg] }
    else .next s
  else if c = commentChar then .break
  else if ¬isBlank c then
    .next { s with quoteChar := if isQuote c then c else 0, quoteCount := 0,
                   argStart := intOf i, inArg := true }
  else .next s

def argsEnd (line : List (BitVec 8)) (i : ℕ) (s : ArgScan) : ArgsResult :=
  if s.inArg then
    if s.quoteChar ≠ 0 then .code (-2)
    else
      match endArg line i s with
      | .error r => r
      | .ok arg => .args (s.argv ++ [arg])
  else .args s.argv

/-- The loop of `str2args` from `line[i]` on, for `fuel` turns. -/
def argsFrom (line : List (BitVec 8)) (commentChar : BitVec 8) :
    ℕ → ℕ → ArgScan → ArgsResult
  | 0, _, _ => .running
  | fuel + 1, i, s =>
      match (line)[i]? with
      | none => argsEnd line i s
      | some c =>
          match argTurn line commentChar i c s with
          | .next s => argsFrom line commentChar fuel (uintOf (i + 1)) s
          | .break => argsEnd line i s
          | .stop r => r

def str2args (fuel : ℕ) (line : CStr) (commentChar : BitVec 8) : ArgsResult :=
  argsFrom line.chars commentChar fuel 0 {}

/-- `str2args` comes to the result. -/
def Str2args (line : CStr) (commentChar : BitVec 8) (r : ArgsResult) : Prop :=
  r ≠ .running ∧ ∃ fuel, str2args fuel line commentChar = r

/-! ## The grammar of a line -/

/-- `text` is the characters `word`, with `n` segments of them in quotes. -/
inductive Segments : List (BitVec 8) → List (BitVec 8) → ℕ → Prop
  | nil : Segments [] [] 0
  | plain {c : BitVec 8} {text word : List (BitVec 8)} {n : ℕ} : isBlank c = false →
      isQuote c = false → Segments text word n → Segments (c :: text) (c :: word) n
  | quoted {q : BitVec 8} {inner text word : List (BitVec 8)} {n : ℕ} : isQuote q →
      q ∉ inner → Segments text word n →
      Segments (q :: (inner ++ q :: text)) (inner ++ word) (n + 1)

inductive Unclosed : List (BitVec 8) → Prop
  | mk {front word inner : List (BitVec 8)} {n : ℕ} {q : BitVec 8} : Segments front word n →
      isQuote q → q ∉ inner → Unclosed (front ++ q :: inner)

/-- A word of a line: where it begins, its text there, and the word. -/
structure ArgWord where
  start : ℕ
  text : List (BitVec 8)
  word : List (BitVec 8)

/-- How a line ends, and where: behind its last word or at a comment, or in a quote. -/
inductive ArgStop where
  | done (i : ℕ)
  | quoted (i : ℕ)

def ArgStop.index : ArgStop → ℕ
  | .done i => i
  | .quoted i => i

/-- From `i` on a line has the words `found` and ends in `stop`. -/
inductive ArgsText (commentChar : BitVec 8) :
    ℕ → List (BitVec 8) → List ArgWord → ArgStop → Prop
  | nil {i : ℕ} : ArgsText commentChar i [] [] (.done i)
  | comment {i : ℕ} {rest : List (BitVec 8)} :
      ArgsText commentChar i (commentChar :: rest) [] (.done i)
  | blank {i : ℕ} {c : BitVec 8} {rest : List (BitVec 8)} {found : List ArgWord}
      {stop : ArgStop} : isBlank c → c ≠ commentChar →
      ArgsText commentChar (i + 1) rest found stop →
      ArgsText commentChar i (c :: rest) found stop
  | last {i n : ℕ} {text word : List (BitVec 8)} : Segments text word n → text ≠ [] →
      text.head? ≠ some commentChar →
      ArgsText commentChar i text [⟨i, text, word⟩] (.done (i + text.length))
  | word {i n : ℕ} {text word rest : List (BitVec 8)} {c : BitVec 8} {found : List ArgWord}
      {stop : ArgStop} : Segments text word n → text ≠ [] → text.head? ≠ some commentChar →
      isBlank c → ArgsText commentChar (i + text.length + 1) rest found stop →
      ArgsText commentChar i (text ++ c :: rest) (⟨i, text, word⟩ :: found) stop
  | quoted {i : ℕ} {text : List (BitVec 8)} : Unclosed text →
      text.head? ≠ some commentChar →
      ArgsText commentChar i text [] (.quoted (i + text.length))

def QuoteOpen (line : CStr) (commentChar : BitVec 8) : Prop :=
  ∃ found i, ArgsText commentChar 0 line.chars found (.quoted i)

/-- The words `ws` in quotes, with blanks between them, and blanks and a comment behind. -/
inductive Rendered (commentChar : BitVec 8) : List (List (BitVec 8)) → List (BitVec 8) → Prop
  | blanks {bs : List (BitVec 8)} : (∀ c ∈ bs, isBlank c) → Rendered commentChar [] bs
  | comment {bs rest : List (BitVec 8)} : (∀ c ∈ bs, isBlank c) →
      Rendered commentChar [] (bs ++ commentChar :: rest)
  | last {q : BitVec 8} {w : List (BitVec 8)} : isQuote q → q ∉ w →
      Rendered commentChar [w] (q :: (w ++ [q]))
  | word {q : BitVec 8} {w bs line : List (BitVec 8)} {ws : List (List (BitVec 8))} :
      isQuote q → q ∉ w → bs ≠ [] → (∀ c ∈ bs, isBlank c) → Rendered commentChar ws line →
      Rendered commentChar (w :: ws) (q :: (w ++ q :: (bs ++ line)))

/-- What is asked of `str2args` for a line. -/
structure ArgsRight (line : CStr) (commentChar : BitVec 8) : Prop where
  words : isBlank commentChar = false → isQuote commentChar = false →
    ∀ ws, Rendered commentChar ws line.chars → Str2args line commentChar (.args ws)
  quote : Str2args line commentChar (.code (-2)) ↔ QuoteOpen line commentChar
  count : ¬QuoteOpen line commentChar → ∃ found i,
    ArgsText commentChar 0 line.chars found (.done i) ∧
      Str2args line commentChar (.args (found.map ArgWord.word))
  inside : ¬Str2args line commentChar .outside

/-- The indices of a word are those of an `int`. -/
def ArgWord.Fits (w : ArgWord) : Prop :=
  w.start + w.text.length ≤ 2 ^ 31 ∧ w.text.length + 1 < 2 ^ 31

/-- Every word of the line ends before 2^31, and the line before 2^32 or in a comment
there. -/
def ArgsFit (line : CStr) (commentChar : BitVec 8) : Prop :=
  ∀ found stop, ArgsText commentChar 0 line.chars found stop →
    (∀ w ∈ found, w.Fits) ∧ stop.index < 2 ^ 32

/-! ## Characters and segments -/

section

variable {c q : BitVec 8} {text word rest line : List (BitVec 8)} {n : ℕ}

theorem isQuote_cases (h : isQuote c) : c ≠ 0 ∧ isBlank c = false := by
  revert c
  decide

theorem isBlank_quote (h : isBlank c) : isQuote c = false := by
  revert c
  decide

theorem Segments.length (h : Segments text word n) : text.length = word.length + 2 * n := by
  induction h with
  | nil => rfl
  | plain _ _ _ ih => rw [List.length_cons, List.length_cons, ih]; omega
  | quoted _ _ _ ih =>
      rw [List.length_cons, List.length_append, List.length_cons, List.length_append, ih]
      omega

theorem copyArg_inner (hq : q ≠ 0) (hinner : q ∉ text) (rest : List (BitVec 8)) :
    copyArg q (text ++ rest) = text ++ copyArg q rest := by
  induction text with
  | nil => rfl
  | cons c text ih =>
      rw [List.mem_cons, not_or] at hinner
      rw [List.cons_append, copyArg, if_neg hq, if_neg (Ne.symm hinner.1), ih hinner.2]
      rfl

theorem Segments.copy (h : Segments text word n) : copyArg 0 text = word := by
  induction h with
  | nil => rfl
  | plain _ hquote _ ih =>
      rw [copyArg, if_pos rfl, hquote, if_neg Bool.false_ne_true, ih]
  | quoted hq hinner _ ih =>
      obtain ⟨hzero, -⟩ := isQuote_cases hq
      rw [copyArg, if_pos rfl, if_pos hq, copyArg_inner hzero hinner, copyArg, if_neg hzero,
        if_pos rfl, ih]

end

/-! ## Walking a line -/

section

variable {line text word rest inner : List (BitVec 8)} {commentChar c q : BitVec 8}
  {i fuel n : ℕ} {s : ArgScan}

theorem getElem_of_drop (h : line.drop i = c :: rest) :
    (line)[i]? = some c ∧ line.drop (i + 1) = rest := by
  constructor
  · rw [← List.head?_drop, h, List.head?_cons]
  · rw [← List.drop_drop, h, List.drop_one, List.tail_cons]

theorem uintOf_small (h : n < 2 ^ 32) : uintOf n = n := Nat.mod_eq_of_lt h

theorem argsFrom_next {s' : ArgScan} (hline : (line)[i]? = some c) (hi : i + 1 < 2 ^ 32)
    (hturn : argTurn line commentChar i c s = .next s') :
    argsFrom line commentChar (fuel + 1) i s = argsFrom line commentChar fuel (i + 1) s' := by
  rw [argsFrom, hline]
  dsimp only
  rw [hturn]
  dsimp only
  rw [uintOf_small hi]

theorem add_length_cons (k : ℕ) (c : BitVec 8) (text : List (BitVec 8)) :
    k + (c :: text).length = k + 1 + text.length := by
  rw [List.length_cons]
  omega

theorem argsFrom_inner (hin : s.inArg = true) (hquote : s.quoteChar = q) (hq : q ≠ 0)
    (hinner : q ∉ inner) (hline : line.drop i = inner ++ rest) (hi : i + inner.length < 2 ^ 32) :
    argsFrom line commentChar (fuel + inner.length) i s =
      argsFrom line commentChar fuel (i + inner.length) s := by
  induction inner generalizing i with
  | nil => rfl
  | cons c inner ih =>
      rw [List.mem_cons, not_or] at hinner
      rw [List.length_cons] at hi
      obtain ⟨hc, hnext⟩ := getElem_of_drop hline
      have hturn : argTurn line commentChar i c s = .next s := by
        unfold argTurn
        rw [hquote, if_pos hin, if_pos hq, if_neg hinner.1]
      rw [add_length_cons, add_length_cons, Nat.add_right_comm fuel,
        argsFrom_next hc (by omega) hturn, ih hinner.2 hnext (by omega)]

theorem argsFrom_quoted (fuel : ℕ) {s' : ArgScan} (hzero : q ≠ 0) (hinner : q ∉ inner)
    (hline : line.drop i = q :: (inner ++ q :: text) ++ rest)
    (hi : i + (q :: (inner ++ q :: text)).length < 2 ^ 32)
    (hturn : argTurn line commentChar i q s = .next s') (hin : s'.inArg = true)
    (hquote : s'.quoteChar = q) :
    line.drop (i + 1 + inner.length + 1) = text ++ rest ∧
      argsFrom line commentChar (fuel + (q :: (inner ++ q :: text)).length) i s =
        argsFrom line commentChar (fuel + text.length) (i + 1 + inner.length + 1)
          { s' with quoteChar := 0 } := by
  have hshape : line.drop i = q :: (inner ++ (q :: (text ++ rest))) := by
    rw [hline, List.cons_append, List.append_assoc, List.cons_append]
  have htextLength : (q :: (inner ++ q :: text)).length = inner.length + text.length + 2 := by
    rw [List.length_cons, List.length_append, List.length_cons]
    omega
  rw [htextLength] at hi
  obtain ⟨hopen, hbehind⟩ := getElem_of_drop hshape
  have hclose : line.drop (i + 1 + inner.length) = q :: (text ++ rest) := by
    rw [← List.drop_drop, hbehind, List.drop_left]
  obtain ⟨hend, hnext⟩ := getElem_of_drop hclose
  have hturn' : argTurn line commentChar (i + 1 + inner.length) q s' =
      .next { s' with quoteChar := 0 } := by
    unfold argTurn
    rw [hquote, if_pos hin, if_pos hzero, if_pos rfl]
  have hfuel : fuel + (q :: (inner ++ q :: text)).length =
      fuel + text.length + 1 + inner.length + 1 := by omega
  refine ⟨hnext, ?_⟩
  rw [hfuel, argsFrom_next hopen (by omega) hturn,
    argsFrom_inner hin hquote hzero hinner hbehind (by omega),
    argsFrom_next hend (by omega) hturn']

theorem argsFrom_segments (h : Segments text word n) (hin : s.inArg = true)
    (hquote : s.quoteChar = 0) (hline : line.drop i = text ++ rest)
    (hi : i + text.length < 2 ^ 32) :
    argsFrom line commentChar (fuel + text.length) i s =
      argsFrom line commentChar fuel (i + text.length)
        { s with quoteCount := s.quoteCount + n } := by
  induction h generalizing i s with
  | nil =>
      have hsame : { s with quoteCount := s.quoteCount + ((0 : ℕ) : ℤ) } = s := by
        rw [Int.natCast_zero, Int.add_zero]
      rw [hsame]
      rfl
  | @plain c text word n hblank hplain _ ih =>
      rw [List.length_cons] at hi
      obtain ⟨hc, hnext⟩ := getElem_of_drop hline
      have hturn : argTurn line commentChar i c s = .next s := by
        unfold argTurn
        rw [hquote, if_pos hin, if_neg (by decide), hplain, hblank, if_neg (by decide),
          if_neg (by decide)]
      rw [add_length_cons, add_length_cons, Nat.add_right_comm fuel,
        argsFrom_next hc (by omega) hturn, ih hin hquote hnext (by omega)]
  | @quoted q inner text word n hq hinner _ ih =>
      obtain ⟨hzero, -⟩ := isQuote_cases hq
      have hturn : argTurn line commentChar i q s =
          .next { s with quoteCount := s.quoteCount + 1, quoteChar := q } := by
        unfold argTurn
        rw [hquote, if_pos hin, if_neg (by decide), if_pos hq]
      obtain ⟨hnext, hwalk⟩ := argsFrom_quoted fuel hzero hinner hline hi hturn hin rfl
      have hindex : i + (q :: (inner ++ q :: text)).length =
          i + 1 + inner.length + 1 + text.length := by
        rw [List.length_cons, List.length_append, List.length_cons]
        omega
      have hcount : s.quoteCount + 1 + (n : ℤ) = s.quoteCount + ((n + 1 : ℕ) : ℤ) := by omega
      rw [hindex] at hi ⊢
      rw [hwalk, @ih (i + 1 + inner.length + 1)
        { s with quoteCount := s.quoteCount + 1, quoteChar := 0 } hin rfl hnext hi]
      dsimp only
      rw [hcount, hquote]

theorem argsFrom_none (hline : (line)[i]? = none) :
    argsFrom line commentChar (fuel + 1) i s = argsEnd line i s := by
  rw [argsFrom, hline]

theorem argTurn_first (hout : s.inArg = false) (hcomment : c ≠ commentChar)
    (hblank : isBlank c = false) :
    argTurn line commentChar i c s =
      .next ⟨true, if isQuote c then c else 0, intOf i, 0, s.argv⟩ := by
  unfold argTurn
  rw [hout, if_neg (by decide), if_neg hcomment, hblank, if_pos (by decide)]

theorem argsFrom_word (h : Segments text word n) (hne : text ≠ [])
    (hcomment : text.head? ≠ some commentChar) (hout : s.inArg = false)
    (hline : line.drop i = text ++ rest) (hi : i + text.length < 2 ^ 32) :
    ∃ quotes : ℕ, quotes ≤ n ∧ ∀ fuel, argsFrom line commentChar (fuel + text.length) i s =
      argsFrom line commentChar fuel (i + text.length) ⟨true, 0, intOf i, quotes, s.argv⟩ := by
  cases h with
  | nil => exact absurd rfl hne
  | @plain c text word n hblank hplain hrest =>
      refine ⟨n, Nat.le_refl n, fun fuel => ?_⟩
      rw [List.length_cons] at hi
      obtain ⟨hc, hnext⟩ := getElem_of_drop hline
      have hturn := @argTurn_first line commentChar c i s hout
        (fun he => hcomment (congrArg some he)) hblank
      rw [hplain, if_neg Bool.false_ne_true] at hturn
      rw [add_length_cons, add_length_cons, Nat.add_right_comm fuel,
        argsFrom_next hc (by omega) hturn, argsFrom_segments hrest rfl rfl hnext (by omega)]
      dsimp only
      rw [Int.zero_add]
  | @quoted q inner text word n hq hinner hrest =>
      refine ⟨n, Nat.le_succ n, fun fuel => ?_⟩
      obtain ⟨hzero, hblank⟩ := isQuote_cases hq
      have hturn := @argTurn_first line commentChar q i s hout
        (fun he => hcomment (congrArg some he)) hblank
      rw [hq, if_pos rfl] at hturn
      obtain ⟨hnext, hwalk⟩ := argsFrom_quoted fuel hzero hinner hline hi hturn rfl rfl
      have hindex : i + (q :: (inner ++ q :: text)).length =
          i + 1 + inner.length + 1 + text.length := by
        rw [List.length_cons, List.length_append, List.length_cons]
        omega
      rw [hindex] at hi ⊢
      rw [hwalk, argsFrom_segments hrest rfl rfl hnext hi]
      dsimp only
      rw [Int.zero_add]

theorem argsFrom_unclosed (h : Unclosed text) (hcomment : text.head? ≠ some commentChar)
    (hout : s.inArg = false) (hline : line.drop i = text) (hi : i + text.length < 2 ^ 32) :
    argsFrom line commentChar (fuel + text.length + 1) i s = .code (-2) := by
  obtain ⟨hfront, hq, hinner⟩ := h
  rename_i front word inner n q
  obtain ⟨hzero, hblank⟩ := isQuote_cases hq
  rw [List.length_append, List.length_cons] at hi
  -- the state behind the quote, wherever it stands in the word
  have hlast (k : ℕ) (t : ArgScan) (hk : i + front.length + 1 = k) (hin : t.inArg = true)
      (hquote : t.quoteChar = q) :
      argsFrom line commentChar (fuel + inner.length + 1) k t = .code (-2) := by
    have hbehind : line.drop k = inner := by
      rw [← hk, Nat.add_assoc, ← List.drop_drop, hline, ← List.drop_drop, List.drop_left]
      rfl
    have hnone : (line)[k + inner.length]? = none := by
      rw [← List.head?_drop, ← List.drop_drop, hbehind, List.drop_length]
      rfl
    have hfuel : fuel + inner.length + 1 = fuel + 1 + inner.length := by omega
    rw [hfuel, @argsFrom_inner line [] inner commentChar q k (fuel + 1) t hin hquote hzero hinner
      (by rw [List.append_nil]; exact hbehind) (by omega), argsFrom_none hnone]
    unfold argsEnd
    rw [if_pos hin, hquote, if_pos hzero]
  by_cases hne : front = []
  · subst hne
    have hshape : line.drop i = q :: inner := hline
    obtain ⟨hopen, -⟩ := getElem_of_drop hshape
    have hturn := @argTurn_first line commentChar q i s hout
      (fun he => hcomment (congrArg some he)) hblank
    rw [hq, if_pos rfl] at hturn
    have hfuel : fuel + ([] ++ q :: inner).length + 1 = fuel + inner.length + 1 + 1 := by
      rw [List.nil_append, List.length_cons]
      omega
    rw [hfuel, argsFrom_next hopen (by rw [List.length_nil] at hi; omega) hturn]
    exact hlast _ _ (by rw [List.length_nil, Nat.add_zero]) rfl rfl
  · have hhead : front.head? ≠ some commentChar := by
      obtain ⟨c, cs, rfl⟩ := List.exists_cons_of_ne_nil hne
      exact hcomment
    obtain ⟨quotes, -, hword⟩ := argsFrom_word hfront hne hhead hout hline (by omega)
    have hshape : line.drop (i + front.length) = q :: inner := by
      rw [← List.drop_drop, hline, List.drop_left]
    obtain ⟨hopen, -⟩ := getElem_of_drop hshape
    have hturn : argTurn line commentChar (i + front.length) q ⟨true, 0, intOf i, quotes, s.argv⟩ =
        .next ⟨true, q, intOf i, quotes + 1, s.argv⟩ := by
      unfold argTurn
      rw [if_pos rfl, if_neg (not_not.mpr rfl), if_pos hq]
    have hfuel : fuel + (front ++ q :: inner).length + 1 =
        fuel + inner.length + 1 + 1 + front.length := by
      rw [List.length_append, List.length_cons]
      omega
    rw [hfuel, hword, argsFrom_next hopen (by omega) hturn]
    exact hlast _ _ rfl rfl rfl

/-! ## The word that is copied -/

theorem intOf_large {n : ℤ} (hlow : 2 ^ 31 ≤ n) (hhigh : n < 2 ^ 32) : intOf n = n - 2 ^ 32 := by
  unfold intOf
  rw [Int.bmod_def]
  omega

theorem indexBefore_pos (hpos : 0 < n) (hn : n < 2 ^ 32) : indexBefore n = n - 1 := by
  unfold indexBefore uintOf
  omega

theorem endArg_fits {quotes : ℕ} (h : Segments text word n) (hne : text ≠ [])
    (hquotes : quotes ≤ n) (hline : line.drop i = text ++ rest)
    (hfits : ArgWord.Fits ⟨i, text, word⟩) (argv : List (List (BitVec 8))) :
    endArg line (i + text.length) ⟨true, 0, intOf i, quotes, argv⟩ = .ok word := by
  obtain ⟨hend, hlen⟩ := hfits
  dsimp only at hend hlen
  have hpos := List.length_pos_iff.mpr hne
  have hlength := h.length
  have hinside := congrArg List.length hline
  rw [List.length_drop, List.length_append] at hinside
  have hlast := indexBefore_pos (n := i + text.length) (by omega) (by omega)
  have hdrop : (line.drop i).take text.length = text := by
    rw [hline, List.take_left]
  unfold endArg
  dsimp only
  rw [hlast, intOf_small (n := (i : ℤ)) (by omega) (by omega),
    intOf_small (n := ((i + text.length - 1 : ℕ) : ℤ)) (by omega) (by omega)]
  unfold addArg
  dsimp only
  have hcopied : ((i + text.length - 1 : ℕ) : ℤ) - i + 1 = text.length := by omega
  rw [hcopied, Int.toNat_natCast, Int.toNat_natCast, hdrop, h.copy]
  have hints : IsInt (((i + text.length - 1 : ℕ) : ℤ) - i) ∧ IsInt (text.length : ℤ) ∧
      IsInt ((text.length : ℤ) + 1) ∧ IsInt ((quotes : ℤ) * 2) ∧
        IsInt ((text.length : ℤ) + 1 - quotes * 2) := by
    unfold IsInt
    omega
  rw [if_neg (not_not.mpr hints), if_neg (by omega), if_neg (by omega), if_neg (by omega)]

theorem endArg_unfit (line : List (BitVec 8)) (quotes : ℕ) (h : Segments text word n) (hne : text ≠ [])
    (hi : i + text.length < 2 ^ 32)
    (hunfit : ¬ArgWord.Fits ⟨i, text, word⟩) (argv : List (List (BitVec 8))) :
    endArg line (i + text.length) ⟨true, 0, intOf i, quotes, argv⟩ = .error .outside ∨
      endArg line (i + text.length) ⟨true, 0, intOf i, quotes, argv⟩ = .error (.code (-1)) := by
  unfold ArgWord.Fits at hunfit
  dsimp only at hunfit
  have hpos := List.length_pos_iff.mpr hne
  have hlength := h.length
  have hlast := indexBefore_pos (n := i + text.length) (by omega) (by omega)
  unfold endArg
  dsimp only
  rw [hlast]
  rcases Nat.lt_or_ge i (2 ^ 31) with hstart | hstart
  · rw [intOf_small (n := (i : ℤ)) (by omega) (by omega)]
    rcases Nat.lt_or_ge (i + text.length - 1) (2 ^ 31) with hend | hend
    · -- the length and its terminator overflow
      rw [intOf_small (n := ((i + text.length - 1 : ℕ) : ℤ)) (by omega) (by omega)]
      unfold addArg
      dsimp only
      refine .inl (if_pos fun hints => ?_)
      obtain ⟨-, -, hover, -⟩ := hints
      unfold IsInt at hover
      omega
    · rw [intOf_large (n := ((i + text.length - 1 : ℕ) : ℤ)) (by omega) (by omega)]
      unfold addArg
      dsimp only
      split
      · exact .inl rfl
      split
      · exact .inr rfl
      split
      · exact .inl rfl
      rw [if_pos (by omega)]
      exact .inl rfl
  · -- a negative start is before the line
    rw [intOf_large (n := (i : ℤ)) (by omega) (by omega),
      intOf_large (n := ((i + text.length - 1 : ℕ) : ℤ)) (by omega) (by omega)]
    unfold addArg
    dsimp only
    split
    · exact .inl rfl
    split
    · exact .inr rfl
    rw [if_pos ⟨by omega, .inl (by omega)⟩]
    exact .inl rfl

/-! ## Lines as a whole -/

def ArgStop.result (argv : List (List (BitVec 8))) : ArgStop → ArgsResult
  | .done _ => .args argv
  | .quoted _ => .code (-2)

variable {found : List ArgWord} {stop : ArgStop}

theorem ArgsText.le_index (h : ArgsText commentChar i rest found stop) : i ≤ stop.index := by
  induction h with
  | nil => exact Nat.le_refl _
  | comment => exact Nat.le_refl _
  | blank _ _ _ ih => omega
  | last _ _ _ => exact Nat.le_add_right _ _
  | word _ _ _ _ _ ih => omega
  | quoted _ _ => exact Nat.le_add_right _ _

theorem argTurn_blank (hin : s.inArg = true) (hquote : s.quoteChar = 0) (hblank : isBlank c) :
    (∀ r, endArg line i s = .error r → argTurn line commentChar i c s = .stop r) ∧
      ∀ arg, endArg line i s = .ok arg → argTurn line commentChar i c s =
        .next { s with inArg := false, argv := s.argv ++ [arg] } := by
  unfold argTurn
  rw [if_pos hin, hquote, if_neg (not_not.mpr rfl), isBlank_quote hblank,
    if_neg Bool.false_ne_true, if_pos hblank]
  constructor
  · intro r hr
    rw [hr]
  · intro arg harg
    rw [harg]

theorem argsFrom_text (h : ArgsText commentChar i rest found stop) (hline : line.drop i = rest)
    (hstop : stop.index < 2 ^ 32) (hout : s.inArg = false) :
    ∃ k, ∀ fuel,
      ((∀ w ∈ found, w.Fits) → argsFrom line commentChar (fuel + k) i s =
        stop.result (s.argv ++ found.map ArgWord.word)) ∧
      ((¬∀ w ∈ found, w.Fits) → argsFrom line commentChar (fuel + k) i s = .outside ∨
        argsFrom line commentChar (fuel + k) i s = .code (-1)) := by
  have hnone {j : ℕ} {text : List (BitVec 8)} (htext : line.drop j = text) :
      (line)[j + text.length]? = none := by
    rw [← List.head?_drop, ← List.drop_drop, htext, List.drop_length]
    rfl
  induction h generalizing s with
  | @nil i =>
      refine ⟨1, fun fuel => ⟨fun _ => ?_, fun hbad => absurd (fun _ hw => (by cases hw)) hbad⟩⟩
      have hend : (line)[i]? = none := hnone hline
      rw [argsFrom_none hend]
      unfold argsEnd
      rw [hout, if_neg Bool.false_ne_true, List.map_nil, List.append_nil]
      rfl
  | @comment i rest =>
      refine ⟨1, fun fuel => ⟨fun _ => ?_, fun hbad => absurd (fun _ hw => (by cases hw)) hbad⟩⟩
      obtain ⟨hc, -⟩ := getElem_of_drop hline
      have hturn : argTurn line commentChar i commentChar s = .break := by
        unfold argTurn
        rw [hout, if_neg Bool.false_ne_true, if_pos rfl]
      rw [argsFrom, hc]
      dsimp only
      rw [hturn]
      dsimp only
      unfold argsEnd
      rw [hout, if_neg Bool.false_ne_true, List.map_nil, List.append_nil]
      rfl
  | @blank i c rest found stop hblank hcomment hrest ih =>
      obtain ⟨hc, hnext⟩ := getElem_of_drop hline
      obtain ⟨k, hk⟩ := ih hnext hstop hout
      have hle := hrest.le_index
      have hturn : argTurn line commentChar i c s = .next s := by
        unfold argTurn
        rw [hout, if_neg Bool.false_ne_true, if_neg hcomment, hblank, if_neg (not_not.mpr rfl)]
      refine ⟨k + 1, fun fuel => ?_⟩
      rw [← Nat.add_assoc, argsFrom_next hc (by omega) hturn]
      exact hk fuel
  | @last i n text word h hne hcomment =>
      rw [ArgStop.index] at hstop
      have htext : line.drop i = text ++ [] := by rw [List.append_nil]; exact hline
      obtain ⟨quotes, hquotes, hword⟩ := argsFrom_word h hne hcomment hout htext hstop
      refine ⟨1 + text.length, fun fuel => ?_⟩
      rw [← Nat.add_assoc, hword, argsFrom_none (hnone hline)]
      unfold argsEnd
      rw [if_pos rfl, if_neg (not_not.mpr rfl)]
      constructor
      · intro hfits
        rw [endArg_fits h hne hquotes htext (hfits _ (List.mem_singleton.mpr rfl))]
        rfl
      · intro hunfit
        rcases endArg_unfit line quotes h hne hstop
          (fun hfits => hunfit fun w hw => by rw [List.mem_singleton.mp hw]; exact hfits) s.argv
          with he | he
        · rw [he]
          exact .inl rfl
        · rw [he]
          exact .inr rfl
  | @word i n text word rest c found stop h hne hcomment hblank hrest ih =>
      have hle := hrest.le_index
      have hnext : line.drop (i + text.length) = c :: rest := by
        rw [← List.drop_drop, hline, List.drop_left]
      obtain ⟨hc, hbehind⟩ := getElem_of_drop hnext
      obtain ⟨quotes, hquotes, hword⟩ := argsFrom_word h hne hcomment hout hline (by omega)
      obtain ⟨k, hk⟩ := @ih ⟨false, 0, intOf i, quotes, s.argv ++ [word]⟩ hbehind hstop rfl
      obtain ⟨hstopped, hended⟩ := @argTurn_blank line commentChar c (i + text.length)
        ⟨true, 0, intOf i, quotes, s.argv⟩ rfl rfl hblank
      refine ⟨k + 1 + text.length, fun fuel => ?_⟩
      rw [← Nat.add_assoc, hword, ← Nat.add_assoc]
      by_cases hfits : ArgWord.Fits ⟨i, text, word⟩
      · rw [argsFrom_next hc (by omega) (hended _ (endArg_fits h hne hquotes hline hfits s.argv))]
        have hargv : s.argv ++ List.map ArgWord.word (⟨i, text, word⟩ :: found) =
            (s.argv ++ [word]) ++ List.map ArgWord.word found := by
          rw [List.map_cons, List.append_assoc]
          rfl
        have hrest := hk fuel
        dsimp only at hrest ⊢
        rw [hargv, List.forall_mem_cons, and_iff_right hfits]
        exact hrest
      · constructor
        · intro hall
          exact absurd (hall _ (List.mem_cons_self ..)) hfits
        · intro _
          rw [argsFrom, hc]
          dsimp only
          rcases endArg_unfit line quotes h hne (by omega) hfits s.argv
            with he | he
          · rw [hstopped _ he]
            exact .inl rfl
          · rw [hstopped _ he]
            exact .inr rfl
  | @quoted i text h hcomment =>
      rw [ArgStop.index] at hstop
      refine ⟨text.length + 1, fun fuel =>
        ⟨fun _ => ?_, fun hbad => absurd (fun _ hw => (by cases hw)) hbad⟩⟩
      exact argsFrom_unclosed h hcomment hout hline hstop

/-! ## A line is read in one way -/

def WordEnd (rest : List (BitVec 8)) : Prop := ∀ c, rest.head? = some c → isBlank c = true

theorem segments_exist (cs : List (BitVec 8)) :
    (∃ text word n rest, cs = text ++ rest ∧ Segments text word n ∧ WordEnd rest) ∨
      Unclosed cs := by
  induction hlen : cs.length using Nat.strong_induction_on generalizing cs with
  | _ m ih =>
      cases cs with
      | nil => exact .inl ⟨[], [], 0, [], rfl, .nil, fun c hc => by cases hc⟩
      | cons c cs =>
          rw [List.length_cons] at hlen
          by_cases hblank : isBlank c
          · refine .inl ⟨[], [], 0, c :: cs, rfl, .nil, fun d hd => ?_⟩
            cases hd
            exact hblank
          have hplain := Bool.eq_false_iff.mpr hblank
          by_cases hq : isQuote c
          · by_cases hmem : c ∈ cs
            · obtain ⟨inner, tail, rfl, hinner⟩ := List.eq_append_cons_of_mem hmem
              rw [List.length_append, List.length_cons] at hlen
              rcases ih tail.length (by omega) tail rfl with
                ⟨text, word, n, rest, rfl, hsegments, hend⟩ | hopen
              · refine .inl ⟨c :: (inner ++ c :: text), inner ++ word, n + 1, rest, ?_,
                  .quoted hq hinner hsegments, hend⟩
                rw [List.cons_append, List.append_assoc, List.cons_append]
              · obtain ⟨hfront, hq', hinner'⟩ := hopen
                rename_i front word inner' n q
                refine .inr ?_
                have hshape : c :: (inner ++ c :: (front ++ q :: inner')) =
                    c :: (inner ++ c :: front) ++ q :: inner' := by
                  rw [List.cons_append, List.append_assoc, List.cons_append]
                rw [hshape]
                exact .mk (.quoted hq hinner hfront) hq' hinner'
            · exact .inr (.mk .nil hq hmem)
          · rcases ih cs.length (by omega) cs rfl with
              ⟨text, word, n, rest, rfl, hsegments, hend⟩ | hopen
            · exact .inl ⟨c :: text, c :: word, n, rest, rfl,
                .plain hplain (Bool.eq_false_iff.mpr hq) hsegments, hend⟩
            · obtain ⟨hfront, hq', hinner'⟩ := hopen
              exact .inr (.mk (.plain hplain (Bool.eq_false_iff.mpr hq) hfront) hq' hinner')

theorem argsText_exists (commentChar : BitVec 8) (cs : List (BitVec 8)) (i : ℕ) :
    ∃ found stop, ArgsText commentChar i cs found stop := by
  induction hlen : cs.length using Nat.strong_induction_on generalizing cs i with
  | _ m ih =>
      cases cs with
      | nil => exact ⟨[], .done i, .nil⟩
      | cons c cs =>
          rw [List.length_cons] at hlen
          by_cases hcomment : c = commentChar
          · rw [hcomment]
            exact ⟨[], .done i, .comment⟩
          by_cases hblank : isBlank c
          · obtain ⟨found, stop, hrest⟩ := ih cs.length (by omega) cs (i + 1) rfl
            exact ⟨found, stop, .blank hblank hcomment hrest⟩
          have hhead : (c :: cs).head? ≠ some commentChar := fun he =>
            hcomment (Option.some.inj he)
          rcases segments_exist (c :: cs) with ⟨text, word, n, rest, hsplit, hsegments, hend⟩ | hopen
          · have hne : text ≠ [] := by
              rintro rfl
              exact hblank (hend c (by rw [List.nil_append] at hsplit; rw [← hsplit]; rfl))
            have hfirst : text.head? ≠ some commentChar := by
              obtain ⟨d, ds, rfl⟩ := List.exists_cons_of_ne_nil hne
              rw [hsplit] at hhead
              exact hhead
            rw [hsplit]
            cases rest with
            | nil =>
                rw [List.append_nil]
                exact ⟨_, _, .last hsegments hne hfirst⟩
            | cons d rest =>
                have hlength := congrArg List.length hsplit
                rw [List.length_cons, List.length_append, List.length_cons] at hlength
                obtain ⟨found, stop, hrest⟩ :=
                  ih rest.length (by omega) rest (i + text.length + 1) rfl
                exact ⟨_, stop, .word hsegments hne hfirst (hend d rfl) hrest⟩
          · exact ⟨[], _, .quoted hopen hhead⟩

/-- The segments at the beginning of a string, as text and as a word, and what is
behind them; in a quote `q`, or outside with `q = 0`. -/
def readWord (q : BitVec 8) : List (BitVec 8) →
    Option (List (BitVec 8) × List (BitVec 8) × List (BitVec 8))
  | [] => if q = 0 then some ([], [], []) else none
  | c :: cs =>
      if q ≠ 0 then
        if c = q then (readWord 0 cs).map fun r => (c :: r.1, r.2.1, r.2.2)
        else (readWord q cs).map fun r => (c :: r.1, c :: r.2.1, r.2.2)
      else if isBlank c then some ([], [], c :: cs)
      else if isQuote c then (readWord c cs).map fun r => (c :: r.1, r.2.1, r.2.2)
      else (readWord 0 cs).map fun r => (c :: r.1, c :: r.2.1, r.2.2)

theorem readWord_inner (hq : q ≠ 0) (hinner : q ∉ inner) (rest : List (BitVec 8)) :
    readWord q (inner ++ rest) =
      (readWord q rest).map fun r => (inner ++ r.1, inner ++ r.2.1, r.2.2) := by
  induction inner with
  | nil => exact (Option.map_id' ..).symm
  | cons c inner ih =>
      rw [List.mem_cons, not_or] at hinner
      rw [List.cons_append, readWord, if_pos hq, if_neg (Ne.symm hinner.1), ih hinner.2,
        Option.map_map]
      rfl

theorem Segments.read (h : Segments text word n) (rest : List (BitVec 8)) :
    readWord 0 (text ++ rest) =
      (readWord 0 rest).map fun r => (text ++ r.1, word ++ r.2.1, r.2.2) := by
  induction h with
  | nil => exact (Option.map_id' ..).symm
  | plain hblank hplain _ ih =>
      rw [List.cons_append, readWord, if_neg (not_not.mpr rfl), hblank, hplain,
        if_neg Bool.false_ne_true, if_neg Bool.false_ne_true, ih, Option.map_map]
      rfl
  | quoted hq hinner _ ih =>
      obtain ⟨hzero, hblank⟩ := isQuote_cases hq
      rw [List.cons_append, List.append_assoc, List.cons_append, readWord,
        if_neg (not_not.mpr rfl), hblank, if_neg Bool.false_ne_true, if_pos hq,
        readWord_inner hzero hinner, readWord, if_pos hzero, if_pos rfl, ih]
      cases readWord 0 rest <;> simp

theorem Segments.read_end (h : Segments text word n) (hend : WordEnd rest) :
    readWord 0 (text ++ rest) = some (text, word, rest) := by
  have hrest : readWord 0 rest = some ([], [], rest) := by
    cases rest with
    | nil => rfl
    | cons c rest => rw [readWord, if_neg (not_not.mpr rfl), if_pos (hend c rfl)]
  rw [h.read, hrest, Option.map_some, List.append_nil, List.append_nil]

theorem Unclosed.read (h : Unclosed text) : readWord 0 text = none := by
  obtain ⟨hfront, hq, hinner⟩ := h
  obtain ⟨hzero, hblank⟩ := isQuote_cases hq
  have hopen := readWord_inner hzero hinner []
  rw [List.append_nil, readWord, if_neg hzero] at hopen
  rw [hfront.read, readWord, if_neg (not_not.mpr rfl), hblank, if_neg Bool.false_ne_true,
    if_pos hq, hopen]
  rfl

theorem Segments.head (h : Segments text word n) (hne : text ≠ []) :
    ∃ c cs, text = c :: cs ∧ isBlank c = false := by
  cases h with
  | nil => exact absurd rfl hne
  | plain hblank _ _ => exact ⟨_, _, rfl, hblank⟩
  | quoted hq _ _ => exact ⟨_, _, rfl, (isQuote_cases hq).2⟩

theorem Unclosed.head (h : Unclosed text) : ∃ c cs, text = c :: cs ∧ isBlank c = false := by
  obtain ⟨hfront, hq, -⟩ := h
  rename_i front word inner n q
  by_cases hne : front = []
  · rw [hne]
    exact ⟨q, inner, rfl, (isQuote_cases hq).2⟩
  · obtain ⟨c, cs, rfl, hblank⟩ := hfront.head hne
    exact ⟨c, _, rfl, hblank⟩

/-- The words of a line from `i` on and its end, for lines of up to `fuel` characters. -/
def readArgs (commentChar : BitVec 8) : ℕ → ℕ → List (BitVec 8) → List ArgWord × ArgStop
  | 0, i, _ => ([], .done i)
  | _ + 1, i, [] => ([], .done i)
  | fuel + 1, i, c :: cs =>
      if c = commentChar then ([], .done i)
      else if isBlank c then readArgs commentChar fuel (i + 1) cs
      else
        match readWord 0 (c :: cs) with
        | none => ([], .quoted (i + (c :: cs).length))
        | some (text, word, []) => ([⟨i, text, word⟩], .done (i + text.length))
        | some (text, word, _ :: rest) =>
            let r := readArgs commentChar fuel (i + text.length + 1) rest
            (⟨i, text, word⟩ :: r.1, r.2)

variable {cs : List (BitVec 8)} {found' : List ArgWord} {stop' : ArgStop}

theorem ArgsText.read (h : ArgsText commentChar i cs found stop) (hfuel : cs.length ≤ fuel) :
    readArgs commentChar fuel i cs = (found, stop) := by
  have hnil : ∀ fuel i, readArgs commentChar fuel i [] = ([], .done i) := by
    rintro (_ | fuel) i <;> rfl
  -- a line that begins with the character of a word
  have hword : ∀ fuel i cs, (∃ c cs', cs = c :: cs' ∧ isBlank c = false) →
      cs.head? ≠ some commentChar → readArgs commentChar (fuel + 1) i cs =
        match readWord 0 cs with
        | none => ([], .quoted (i + cs.length))
        | some (t, w, []) => ([⟨i, t, w⟩], .done (i + t.length))
        | some (t, w, _ :: rest) =>
            let r := readArgs commentChar fuel (i + t.length + 1) rest
            (⟨i, t, w⟩ :: r.1, r.2) := by
    rintro fuel i _ ⟨c, cs, rfl, hblank⟩ hcomment
    rw [readArgs, if_neg fun he => hcomment (congrArg some he), hblank,
      if_neg Bool.false_ne_true]
  induction h generalizing fuel with
  | nil => exact hnil fuel _
  | comment =>
      obtain ⟨fuel, rfl⟩ := Nat.exists_eq_add_of_le' (Nat.one_le_of_lt hfuel)
      rw [readArgs, if_pos rfl]
  | blank hblank hcomment _ ih =>
      obtain ⟨fuel, rfl⟩ := Nat.exists_eq_add_of_le' (Nat.one_le_of_lt hfuel)
      rw [readArgs, if_neg hcomment, if_pos hblank, ih (Nat.le_of_succ_le_succ hfuel)]
  | @last i n text word hsegments hne hcomment =>
      have hpos := List.length_pos_iff.mpr hne
      obtain ⟨fuel, rfl⟩ := Nat.exists_eq_add_of_le' (le_trans hpos hfuel)
      have hread : readWord 0 (text ++ []) = some (text, word, []) :=
        hsegments.read_end fun _ hc => by cases hc
      rw [List.append_nil] at hread
      rw [hword fuel i _ (hsegments.head hne) hcomment, hread]
  | @word i n text word rest c found stop hsegments hne hcomment hblank _ ih =>
      obtain ⟨d, ds, hhead, hplain⟩ := hsegments.head hne
      rw [List.length_append, List.length_cons] at hfuel
      obtain ⟨fuel, rfl⟩ := Nat.exists_eq_add_of_le' (show 1 ≤ fuel by omega)
      rw [hword fuel i _ ⟨d, ds ++ c :: rest, by rw [hhead, List.cons_append], hplain⟩
        (by rw [hhead] at hcomment ⊢; exact hcomment),
        hsegments.read_end fun _ hc => by cases hc; exact hblank]
      dsimp only
      rw [ih (by omega)]
  | quoted hopen hcomment =>
      obtain ⟨c, cs, hhead, hplain⟩ := hopen.head
      obtain ⟨fuel, rfl⟩ := Nat.exists_eq_add_of_le' (show 1 ≤ fuel by
        rw [hhead, List.length_cons] at hfuel
        omega)
      rw [hword fuel _ _ ⟨c, cs, hhead, hplain⟩ hcomment, hopen.read]

theorem ArgsText.unique (h : ArgsText commentChar i cs found stop)
    (h' : ArgsText commentChar i cs found' stop') : found = found' ∧ stop = stop' :=
  Prod.ext_iff.mp ((h.read le_rfl).symm.trans (h'.read le_rfl))

/-! ## Words that are written out -/

theorem ArgsText.blanks {bs : List (BitVec 8)} (hbs : ∀ c ∈ bs, isBlank c = true)
    (hcomment : isBlank commentChar = false)
    (h : ArgsText commentChar (i + bs.length) rest found stop) :
    ArgsText commentChar i (bs ++ rest) found stop := by
  induction bs generalizing i with
  | nil => exact h
  | cons b bs ih =>
      have hb := hbs b (List.mem_cons_self ..)
      refine .blank hb (fun he => ?_) (ih (fun c hc => hbs c (List.mem_cons_of_mem b hc)) ?_)
      · rw [he, hcomment] at hb
        cases hb
      · rw [List.length_cons] at h
        rw [Nat.add_assoc, Nat.add_comm 1]
        exact h

theorem rendered_text {ws : List (List (BitVec 8))} (hblank : isBlank commentChar = false)
    (hquote : isQuote commentChar = false) (h : Rendered commentChar ws cs) (i : ℕ) :
    ∃ found j, ArgsText commentChar i cs found (.done j) ∧ found.map ArgWord.word = ws := by
  have hfirst {q : BitVec 8} (hq : isQuote q) (text : List (BitVec 8)) :
      (q :: text).head? ≠ some commentChar := fun he => by
    rw [Option.some.inj he, hquote] at hq
    cases hq
  induction h generalizing i with
  | @blanks bs hbs =>
      refine ⟨[], i + bs.length, ?_, rfl⟩
      rw [← List.append_nil bs]
      exact .blanks hbs hblank (by rw [List.append_nil]; exact .nil)
  | comment hbs => exact ⟨[], _, .blanks hbs hblank .comment, rfl⟩
  | @last q w hq hw =>
      have hsegments : Segments (q :: (w ++ [q])) (w ++ []) 1 := .quoted hq hw .nil
      rw [List.append_nil] at hsegments
      exact ⟨_, _, .last hsegments (List.cons_ne_nil _ _) (hfirst hq _), rfl⟩
  | @word q w bs line ws hq hw hne hbs _ ih =>
      obtain ⟨b, bs, rfl⟩ := List.exists_cons_of_ne_nil hne
      have hsegments : Segments (q :: (w ++ [q])) (w ++ []) 1 := .quoted hq hw .nil
      rw [List.append_nil] at hsegments
      obtain ⟨found, j, htext, hwords⟩ := ih (i + (q :: (w ++ [q])).length + 1 + bs.length)
      have hbehind := ArgsText.blanks (fun c hc => hbs c (List.mem_cons_of_mem b hc)) hblank htext
      have hshape : q :: (w ++ q :: (b :: bs ++ line)) =
          (q :: (w ++ [q])) ++ b :: (bs ++ line) := by
        rw [List.cons_append, List.cons_append, List.append_assoc]
        rfl
      rw [hshape]
      refine ⟨⟨i, q :: (w ++ [q]), w⟩ :: found, j, .word hsegments (List.cons_ne_nil _ _)
        (hfirst hq _) (hbs b (List.mem_cons_self ..)) hbehind, ?_⟩
      rw [List.map_cons, hwords]

/-! ## Around the line -/

theorem argsFrom_mono {r : ArgsResult} (h : argsFrom line commentChar fuel i s = r)
    (hr : r ≠ .running) (d : ℕ) : argsFrom line commentChar (fuel + d) i s = r := by
  induction fuel generalizing i s with
  | zero => exact absurd h.symm hr
  | succ fuel ih =>
      rw [Nat.add_right_comm]
      rw [argsFrom] at h ⊢
      cases hc : (line)[i]? with
      | none =>
          rw [hc] at h
          exact h
      | some c =>
          rw [hc] at h
          dsimp only at h ⊢
          cases hturn : argTurn line commentChar i c s with
          | next s' =>
              rw [hturn] at h
              exact ih h
          | «break» =>
              rw [hturn] at h
              exact h
          | stop r' =>
              rw [hturn] at h
              exact h

theorem Str2args.unique {line : CStr} {r r' : ArgsResult} (h : Str2args line commentChar r)
    (h' : Str2args line commentChar r') : r = r' := by
  obtain ⟨hr, fuel, hfuel⟩ := h
  obtain ⟨hr', fuel', hfuel'⟩ := h'
  have hleft := argsFrom_mono hfuel hr fuel'
  have hright := argsFrom_mono hfuel' hr' fuel
  rw [Nat.add_comm] at hright
  exact hleft.symm.trans hright

/-- From `i` to `k` the loop goes over blanks and the words `ws`. -/
inductive Walk (line : List (BitVec 8)) (commentChar : BitVec 8) :
    ℕ → ℕ → List ArgWord → Prop
  | here {i : ℕ} : Walk line commentChar i i []
  | blank {i k : ℕ} {c : BitVec 8} {ws : List ArgWord} : (line)[i]? = some c → isBlank c →
      c ≠ commentChar → Walk line commentChar (i + 1) k ws → Walk line commentChar i k ws
  | word {i k n : ℕ} {text word rest : List (BitVec 8)} {c : BitVec 8} {ws : List ArgWord} :
      Segments text word n → text ≠ [] → text.head? ≠ some commentChar →
      line.drop i = text ++ c :: rest → isBlank c →
      Walk line commentChar (i + text.length + 1) k ws →
      Walk line commentChar i k (⟨i, text, word⟩ :: ws)

theorem Walk.le {k : ℕ} {ws : List ArgWord} (h : Walk line commentChar i k ws) : i ≤ k := by
  induction h with
  | here => exact Nat.le_refl _
  | blank _ _ _ _ ih => omega
  | word _ _ _ _ _ _ ih => omega

theorem ArgsText.around {j : ℕ} (h : ArgsText commentChar i rest found stop)
    (hdone : stop = .done j) (hline : line.drop i = rest) (hi : i ≤ 2 ^ 32) (hj : 2 ^ 32 ≤ j) :
    (∃ ws, Walk line commentChar i (2 ^ 32) ws) ∨
      ∃ front, ∃ w : ArgWord, ∃ back n, Walk line commentChar i w.start front ∧ w.start < 2 ^ 32 ∧
        found = front ++ w :: back ∧ Segments w.text w.word n ∧ w.text ≠ [] ∧
        w.text.head? ≠ some commentChar ∧ w.text <+: line.drop w.start ∧
        2 ^ 32 ≤ w.start + w.text.length := by
  induction h with
  | @nil i =>
      cases hdone
      have hedge : j = 2 ^ 32 := by omega
      exact .inl ⟨[], by rw [hedge]; exact .here⟩
  | @comment i rest =>
      cases hdone
      have hedge : j = 2 ^ 32 := by omega
      exact .inl ⟨[], by rw [hedge]; exact .here⟩
  | @blank i c rest found stop hblank hcomment _ ih =>
      obtain ⟨hc, hnext⟩ := getElem_of_drop hline
      rcases Nat.lt_or_ge i (2 ^ 32) with hlt | hge
      · rcases ih hdone hnext (by omega) with ⟨ws, hws⟩ | ⟨front, w, back, n, hwalk, hw⟩
        · exact .inl ⟨ws, .blank hc hblank hcomment hws⟩
        · exact .inr ⟨front, w, back, n, .blank hc hblank hcomment hwalk, hw⟩
      · have hedge : i = 2 ^ 32 := by omega
        exact .inl ⟨[], by rw [hedge]; exact .here⟩
  | @last i n text word hsegments hne hcomment =>
      have hlast : i + text.length = j := by
        cases hdone
        rfl
      rcases Nat.lt_or_ge i (2 ^ 32) with hlt | hge
      · refine .inr ⟨[], ⟨i, text, word⟩, [], n, .here, hlt, rfl, hsegments, hne, hcomment, ?_, ?_⟩
        · rw [hline]
        · rw [hlast]
          exact hj
      · have hedge : i = 2 ^ 32 := by omega
        exact .inl ⟨[], by rw [hedge]; exact .here⟩
  | @word i n text word rest c found stop hsegments hne hcomment hblank _ ih =>
      rcases Nat.lt_or_ge i (2 ^ 32) with hlt | hge
      · rcases Nat.lt_or_ge (i + text.length) (2 ^ 32) with hin | hover
        · have hnext : line.drop (i + text.length + 1) = rest := by
            rw [Nat.add_assoc, ← List.drop_drop, hline, ← List.drop_drop, List.drop_left,
              List.drop_one, List.tail_cons]
          rcases ih hdone hnext (by omega) with ⟨ws, hws⟩ | ⟨front, w, back, n, hwalk, hw⟩
          · exact .inl ⟨_, .word hsegments hne hcomment hline hblank hws⟩
          · obtain ⟨hstart, hfound, hw⟩ := hw
            exact .inr ⟨⟨i, text, word⟩ :: front, w, back, n,
              .word hsegments hne hcomment hline hblank hwalk, hstart,
              by rw [hfound, List.cons_append], hw⟩
        · refine .inr ⟨[], ⟨i, text, word⟩, found, n, .here, hlt, rfl, hsegments, hne, hcomment,
            ?_, hover⟩
          rw [hline]
          exact List.prefix_append _ _
      · have hedge : i = 2 ^ 32 := by omega
        exact .inl ⟨[], by rw [hedge]; exact .here⟩
  | quoted _ _ => cases hdone

theorem Walk.args {k : ℕ} {ws : List ArgWord} {argv : List (List (BitVec 8))}
    (h : Walk line commentChar i k ws) (hk : k ≤ 2 ^ 32) (hout : s.inArg = false)
    (hargs : argsFrom line commentChar fuel (uintOf i) s = .args argv) :
    ∃ fuel' s', fuel' ≤ fuel ∧ (i < k → fuel' < fuel) ∧ s'.inArg = false ∧
      s'.argv = s.argv ++ ws.map ArgWord.word ∧
      argsFrom line commentChar fuel' (uintOf k) s' = .args argv := by
  induction h generalizing fuel s with
  | here =>
      exact ⟨fuel, s, Nat.le_refl _, fun hlt => absurd hlt (Nat.lt_irrefl _), hout,
        (List.append_nil _).symm, hargs⟩
  | @blank i k c ws hc hblank hcomment hwalk ih =>
      have hle := hwalk.le
      have hturn : argTurn line commentChar i c s = .next s := by
        unfold argTurn
        rw [hout, if_neg Bool.false_ne_true, if_neg hcomment, hblank, if_neg (not_not.mpr rfl)]
      cases fuel with
      | zero => cases hargs
      | succ fuel =>
          rw [uintOf_small (by omega), argsFrom, hc] at hargs
          dsimp only at hargs
          rw [hturn] at hargs
          obtain ⟨fuel', s', hle', -, hout', hargv, hlast⟩ := ih hk hout hargs
          exact ⟨fuel', s', by omega, fun _ => by omega, hout', hargv, hlast⟩
  | @word i k n text word rest c ws hsegments hne hcomment hline hblank hwalk ih =>
      have hle := hwalk.le
      have hpos := List.length_pos_iff.mpr hne
      rw [uintOf_small (by omega)] at hargs
      obtain ⟨quotes, hquotes, hword⟩ := argsFrom_word hsegments hne hcomment hout hline (by omega)
      -- fewer turns than the word is long do not come to a result
      have hlong : text.length < fuel := by
        by_contra hshort
        have hsame := argsFrom_mono hargs (fun he => by cases he) (text.length - fuel)
        have hnone := hword 0
        rw [Nat.add_sub_cancel' (by omega)] at hsame
        rw [Nat.zero_add, hsame] at hnone
        cases hnone
      obtain ⟨rest', hfuel⟩ : ∃ rest', fuel = rest' + 1 + text.length :=
        ⟨fuel - 1 - text.length, by omega⟩
      have hnext : line.drop (i + text.length) = c :: rest := by
        rw [← List.drop_drop, hline, List.drop_left]
      obtain ⟨hc, -⟩ := getElem_of_drop hnext
      obtain ⟨hstopped, hended⟩ := @argTurn_blank line commentChar c (i + text.length)
        ⟨true, 0, intOf i, quotes, s.argv⟩ rfl rfl hblank
      rw [hfuel, hword, argsFrom, hc] at hargs
      dsimp only at hargs
      by_cases hfits : ArgWord.Fits ⟨i, text, word⟩
      · rw [hended _ (endArg_fits hsegments hne hquotes hline hfits s.argv)] at hargs
        dsimp only at hargs
        obtain ⟨fuel', s', hle', -, hout', hargv, hlast⟩ := ih hk rfl hargs
        refine ⟨fuel', s', by omega, fun _ => by omega, hout', ?_, hlast⟩
        rw [hargv, List.map_cons, List.append_assoc]
        rfl
      · rcases endArg_unfit line quotes hsegments hne (by omega) hfits s.argv
          with he | he
        · rw [hstopped _ he] at hargs
          cases hargs
        · rw [hstopped _ he] at hargs
          cases hargs

theorem Walk.no_args {ws : List ArgWord} {argv : List (List (BitVec 8))}
    (h : Walk line commentChar 0 (2 ^ 32) ws) (hout : s.inArg = false) :
    argsFrom line commentChar fuel 0 s ≠ .args argv := by
  induction fuel using Nat.strong_induction_on generalizing s with
  | _ fuel ih =>
      intro hargs
      have hfirst : argsFrom line commentChar fuel (uintOf 0) s = .args argv := hargs
      obtain ⟨fuel', s', -, hless, hout', -, hlast⟩ := h.args (Nat.le_refl _) hout hfirst
      exact ih fuel' (hless (by decide)) hout' hlast

theorem addArg_error {a b q : ℤ} {r : ArgsResult} (h : addArg line a b q = .error r) :
    r = .outside ∨ r = .code (-1) := by
  unfold addArg at h
  dsimp only at h
  split at h
  · exact .inl (Except.error.inj h).symm
  split at h
  · exact .inr (Except.error.inj h).symm
  split at h
  · exact .inl (Except.error.inj h).symm
  split at h
  · exact .inl (Except.error.inj h).symm
  · cases h

theorem argTurn_in (line : List (BitVec 8)) (commentChar c : BitVec 8) (i : ℕ)
    (hin : s.inArg = true) :
    (∃ s', argTurn line commentChar i c s = .next s' ∧ s'.inArg = true ∧
        s'.argStart = s.argStart ∧ s.quoteCount ≤ s'.quoteCount ∧ s'.argv = s.argv) ∨
      (isBlank c = true ∧ ∃ arg s', endArg line i s = .ok arg ∧
        argTurn line commentChar i c s = .next s' ∧ s'.argv = s.argv ++ [arg]) ∨
      ∃ r, argTurn line commentChar i c s = .stop r ∧ (r = .outside ∨ r = .code (-1)) := by
  by_cases hquote : s.quoteChar = 0
  · by_cases hq : isQuote c
    · refine .inl ⟨{ s with quoteCount := s.quoteCount + 1, quoteChar := c }, ?_, hin, rfl,
        by dsimp only; omega, rfl⟩
      unfold argTurn
      rw [if_pos hin, hquote, if_neg (not_not.mpr rfl), if_pos hq]
    by_cases hblank : isBlank c
    · obtain ⟨hstopped, hended⟩ := @argTurn_blank line commentChar c i s hin hquote hblank
      cases he : endArg line i s with
      | error r => exact .inr (.inr ⟨r, hstopped r he, addArg_error he⟩)
      | ok arg => exact .inr (.inl ⟨hblank, arg, _, rfl, hended arg he, rfl⟩)
    · refine .inl ⟨s, ?_, hin, rfl, Int.le_refl _, rfl⟩
      unfold argTurn
      rw [if_pos hin, hquote, if_neg (not_not.mpr rfl), if_neg hq, if_neg hblank]
  · have hturn : argTurn line commentChar i c s =
        .next (if s.quoteChar = c then { s with quoteChar := 0 } else s) := by
      unfold argTurn
      rw [if_pos hin, if_pos hquote]
    by_cases hc : s.quoteChar = c
    · rw [if_pos hc] at hturn
      exact .inl ⟨_, hturn, hin, rfl, Int.le_refl _, rfl⟩
    · rw [if_neg hc] at hturn
      exact .inl ⟨_, hturn, hin, rfl, Int.le_refl _, rfl⟩

theorem argTurn_out (line : List (BitVec 8)) (commentChar c : BitVec 8) (i : ℕ)
    (hout : s.inArg = false) :
    (∃ s', argTurn line commentChar i c s = .next s' ∧ s'.argv = s.argv) ∨
      argTurn line commentChar i c s = .break := by
  unfold argTurn
  rw [hout, if_neg Bool.false_ne_true]
  split
  · exact .inr rfl
  split
  · exact .inl ⟨_, rfl, rfl⟩
  · exact .inl ⟨_, rfl, rfl⟩

theorem argsFrom_long (hlong : 2 ^ 32 ≤ line.length) (hi : i < 2 ^ 32) :
    argsFrom line commentChar fuel i s ≠ .code (-2) ∧
      ∀ argv, argsFrom line commentChar fuel i s = .args argv → s.argv <+: argv := by
  induction fuel generalizing i s with
  | zero => exact ⟨fun h => (by cases h), fun _ h => (by cases h)⟩
  | succ fuel ih =>
      have hc : (line)[i]? = some (line)[i] := List.getElem?_eq_getElem (by omega)
      have hnext : uintOf (i + 1) < 2 ^ 32 := Nat.mod_lt _ (by decide)
      rw [argsFrom, hc]
      dsimp only
      cases hin : s.inArg with
      | true =>
          rcases argTurn_in line commentChar (line)[i] i hin
            with ⟨s', hturn, -, -, -, hargv⟩ | ⟨-, arg, s', -, hturn, hargv⟩ | ⟨r, hturn, hr⟩
          · rw [hturn, ← hargv]
            exact ih hnext
          · rw [hturn]
            obtain ⟨hcode, hprefix⟩ := @ih (uintOf (i + 1)) s' hnext
            refine ⟨hcode, fun argv hargs => ?_⟩
            have hmore := hprefix argv hargs
            rw [hargv] at hmore
            exact (List.prefix_append _ _).trans hmore
          · rw [hturn]
            rcases hr with rfl | rfl
            · exact ⟨fun h => (by cases h), fun _ h => (by cases h)⟩
            · exact ⟨fun h => (by cases h), fun _ h => (by cases h)⟩
      | false =>
          rcases argTurn_out line commentChar (line)[i] i hin
            with ⟨s', hturn, hargv⟩ | hturn
          · rw [hturn, ← hargv]
            exact ih hnext
          · rw [hturn]
            dsimp only
            unfold argsEnd
            rw [hin, if_neg Bool.false_ne_true]
            exact ⟨fun h => (by cases h), fun argv h => by cases h; exact List.prefix_refl _⟩

theorem argsFrom_in {argv : List (List (BitVec 8))} (hlong : 2 ^ 32 ≤ line.length)
    (hi : i < 2 ^ 32) (hin : s.inArg = true) (hcount : 0 ≤ s.quoteCount)
    (hargs : argsFrom line commentChar fuel i s = .args argv) :
    ∃ i' c q arg, i' < 2 ^ 32 ∧ (line)[i']? = some c ∧ isBlank c = true ∧ 0 ≤ q ∧
      addArg line s.argStart (intOf (indexBefore i')) q = .ok arg ∧ s.argv ++ [arg] <+: argv := by
  induction fuel generalizing i s with
  | zero => cases hargs
  | succ fuel ih =>
      have hc : (line)[i]? = some (line)[i] := List.getElem?_eq_getElem (by omega)
      have hnext : uintOf (i + 1) < 2 ^ 32 := Nat.mod_lt _ (by decide)
      rw [argsFrom, hc] at hargs
      dsimp only at hargs
      rcases argTurn_in line commentChar (line)[i] i hin
        with ⟨s', hturn, hin', hstart, hmore, hargv⟩ | ⟨hblank, arg, s', hend, hturn, hargv⟩ |
          ⟨r, hturn, hr⟩
      · rw [hturn] at hargs
        rw [← hstart, ← hargv]
        exact ih hnext hin' (by omega) hargs
      · rw [hturn] at hargs
        refine ⟨i, (line)[i], s.quoteCount, arg, hi, hc, hblank, hcount, hend, ?_⟩
        rw [← hargv]
        exact (argsFrom_long hlong hnext).2 argv hargs
      · rw [hturn] at hargs
        dsimp only at hargs
        rcases hr with rfl | rfl
        · cases hargs
        · cases hargs

theorem addArg_range {k : ℕ} {q : ℤ} {arg : List (BitVec 8)} (hk : k < 2 ^ 32) (hi : i < 2 ^ 32)
    (hne : i ≠ k) (hq : 0 ≤ q) (h : addArg line (intOf k) (intOf (indexBefore i)) q = .ok arg) :
    k < i ∧ arg = copyArg 0 ((line.drop k).take (i - k)) := by
  obtain ⟨e, he⟩ : ∃ e, indexBefore i = e := ⟨_, rfl⟩
  have hbefore : i = 0 ∧ e = 2 ^ 32 - 1 ∨ 0 < i ∧ e = i - 1 := by
    rcases Nat.eq_zero_or_pos i with rfl | hpos
    · left
      rw [← he]
      exact ⟨rfl, rfl⟩
    · right
      rw [← he, indexBefore_pos hpos hi]
      exact ⟨hpos, rfl⟩
  rw [he] at h
  have hstart : (k < 2 ^ 31 ∧ intOf k = k) ∨ (2 ^ 31 ≤ k ∧ intOf k = k - 2 ^ 32) := by
    rcases Nat.lt_or_ge k (2 ^ 31) with hlt | hge
    · exact .inl ⟨hlt, intOf_small (by omega) (by omega)⟩
    · exact .inr ⟨hge, intOf_large (by omega) (by omega)⟩
  have hstop : (e < 2 ^ 31 ∧ intOf e = e) ∨ (2 ^ 31 ≤ e ∧ intOf e = e - 2 ^ 32) := by
    rcases Nat.lt_or_ge e (2 ^ 31) with hlt | hge
    · exact .inl ⟨hlt, intOf_small (by omega) (by omega)⟩
    · exact .inr ⟨hge, intOf_large (by omega) (by omega)⟩
  obtain ⟨a, ha⟩ : ∃ a, intOf k = a := ⟨_, rfl⟩
  obtain ⟨b, hb⟩ : ∃ b, intOf e = b := ⟨_, rfl⟩
  rw [ha] at h hstart
  rw [hb] at h hstop
  unfold addArg at h
  dsimp only at h
  split at h
  · cases h
  split at h
  · cases h
  split at h
  · cases h
  rename_i hinside
  split at h
  · cases h
  rename_i hroom
  have hlen : 0 < b - a + 1 := by
    by_contra hnone
    omega
  have hsize : a = k ∧ b - a + 1 = ((i - k : ℕ) : ℤ) ∧ k < i := by omega
  obtain ⟨hak, hbk, hlt⟩ := hsize
  refine ⟨hlt, ?_⟩
  rw [hbk, hak, Int.toNat_natCast, Int.toNat_natCast] at h
  exact (Except.ok.inj h).symm

theorem copyArg_blank (xs ys : List (BitVec 8)) (hc : isBlank c = true)
    (hq : q = 0 ∨ isQuote q = true) :
    (copyArg q xs).length < (copyArg q (xs ++ c :: ys)).length := by
  induction xs generalizing q with
  | nil =>
      have hplain := isBlank_quote hc
      rw [List.nil_append, copyArg, copyArg]
      split
      · rw [hplain, if_neg Bool.false_ne_true, List.length_cons]
        exact Nat.succ_pos _
      · rename_i hzero
        have hne : c ≠ q := by
          rintro rfl
          rcases hq with hq | hq
          · exact hzero hq
          · rw [hplain] at hq
            cases hq
        rw [if_neg hne, List.length_cons]
        exact Nat.succ_pos _
  | cons x xs ih =>
      rw [List.cons_append, copyArg, copyArg]
      split
      · split
        · rename_i hx
          exact ih (.inr hx)
        · rw [List.length_cons, List.length_cons]
          exact Nat.succ_lt_succ (ih hq)
      · split
        · exact ih (.inl rfl)
        · rw [List.length_cons, List.length_cons]
          exact Nat.succ_lt_succ (ih hq)

theorem no_args_over {j : ℕ} (h : ArgsText commentChar 0 line found (.done j)) (hj : 2 ^ 32 ≤ j)
    (hout : s.inArg = false) :
    argsFrom line commentChar fuel 0 s ≠ .args (s.argv ++ found.map ArgWord.word) := by
  intro hargs
  rcases h.around rfl rfl (Nat.zero_le _) hj with
    ⟨ws, hcircle⟩ | ⟨front, w, back, n, hwalk, hk, hfound, hsegments, hne, hcomment, hprefix, hover⟩
  · exact hcircle.no_args hout hargs
  obtain ⟨fuel', s', -, -, hout', hargv, hlast⟩ := hwalk.args (by omega) hout hargs
  rw [uintOf_small hk] at hlast
  have hlong : 2 ^ 32 ≤ line.length := by
    have hinside := hprefix.length_le
    rw [List.length_drop] at hinside
    have hpos := List.length_pos_iff.mpr hne
    omega
  -- the first character of the word that is not finished in time
  obtain ⟨c, cs, htext, hblank⟩ := hsegments.head hne
  obtain ⟨behind, hbehind⟩ := hprefix
  have hdrop : line.drop w.start = c :: (cs ++ behind) := by
    rw [← hbehind, htext]
    rfl
  obtain ⟨hfirst, -⟩ := getElem_of_drop hdrop
  have hturn := @argTurn_first line commentChar c w.start s' hout'
    (fun he => hcomment (by rw [htext, he]; rfl)) hblank
  cases fuel' with
  | zero => cases hlast
  | succ fuel' =>
      rw [argsFrom, hfirst] at hlast
      dsimp only at hlast
      rw [hturn] at hlast
      obtain ⟨i', d, q, arg, hi', hd, hdblank, hq, hadd, hmore⟩ :=
        argsFrom_in hlong (Nat.mod_lt _ (by decide)) rfl (Int.le_refl 0) hlast
      have hdiffer : i' ≠ w.start := by
        rintro rfl
        rw [hfirst] at hd
        rw [Option.some.inj hd, hdblank] at hblank
        cases hblank
      dsimp only at hadd
      obtain ⟨hlt, harg⟩ := addArg_range hk hi' hdiffer hq hadd
      -- it is shorter than the word, which has the blank in it
      have hinside : i' - w.start < w.text.length := by omega
      have hblankAt : w.text[i' - w.start]? = some d := by
        have hwhole : (line.drop w.start)[i' - w.start]? = some d := by
          rw [List.getElem?_drop, Nat.add_sub_cancel' (Nat.le_of_lt hlt), hd]
        rw [← hbehind, List.getElem?_append_left hinside] at hwhole
        exact hwhole
      have hsplit : w.text = w.text.take (i' - w.start) ++ d :: w.text.drop (i' - w.start + 1) := by
        obtain ⟨hlt', hget⟩ := List.getElem?_eq_some_iff.mp hblankAt
        rw [← hget, List.getElem_cons_drop, List.take_append_drop]
      have htake : (line.drop w.start).take (i' - w.start) = w.text.take (i' - w.start) := by
        rw [← hbehind, List.take_append_of_le_length (by omega)]
      have hshorter := copyArg_blank (w.text.take (i' - w.start))
        (w.text.drop (i' - w.start + 1)) hdblank (.inl (Eq.refl (0 : BitVec 8)))
      rw [← hsplit, hsegments.copy, ← htake, ← harg] at hshorter
      have hsame : arg = w.word := by
        dsimp only at hmore
        rw [hargv, hfound, List.map_append, List.map_cons, List.append_assoc,
          List.prefix_append_right_inj, List.prefix_append_right_inj] at hmore
        exact (List.cons_prefix_cons.mp hmore).1
      rw [hsame] at hshorter
      exact Nat.lt_irrefl _ hshorter

theorem ArgsText.quoted_index {j : ℕ} (h : ArgsText commentChar i cs found stop)
    (hstop : stop = .quoted j) : j = i + cs.length := by
  induction h with
  | nil => cases hstop
  | comment => cases hstop
  | blank _ _ _ ih =>
      rw [ih hstop, List.length_cons]
      omega
  | last _ _ _ => cases hstop
  | word _ _ _ _ _ ih =>
      rw [ih hstop, List.length_append, List.length_cons]
      omega
  | quoted _ _ =>
      cases hstop
      rfl

end

section

variable {line : CStr} {commentChar : BitVec 8} {found : List ArgWord} {stop : ArgStop}

theorem str2args_text (h : ArgsText commentChar 0 line.chars found stop)
    (hstop : stop.index < 2 ^ 32) :
    ((∀ w ∈ found, w.Fits) → Str2args line commentChar (stop.result (found.map ArgWord.word))) ∧
      ((¬∀ w ∈ found, w.Fits) →
        Str2args line commentChar .outside ∨ Str2args line commentChar (.code (-1))) := by
  obtain ⟨k, hk⟩ := argsFrom_text (s := {}) h rfl hstop rfl
  obtain ⟨hfit, hunfit⟩ := hk 0
  constructor
  · intro hall
    refine ⟨fun he => ?_, 0 + k, hfit hall⟩
    cases stop <;> cases he
  · intro hbad
    rcases hunfit hbad with hr | hr
    · exact .inl ⟨fun he => (by cases he), 0 + k, hr⟩
    · exact .inr ⟨fun he => (by cases he), 0 + k, hr⟩

theorem argsRight_of_fit (hfit : ArgsFit line commentChar) : ArgsRight line commentChar := by
  obtain ⟨found, stop, htext⟩ := argsText_exists commentChar line.chars 0
  obtain ⟨hwords, hstop⟩ := hfit found stop htext
  have hresult := (str2args_text htext hstop).1 hwords
  refine ⟨fun hblank hquote ws hrendered => ?_, ⟨fun hcode => ?_, ?_⟩, fun hclosed => ?_,
    fun hout => ?_⟩
  · obtain ⟨found', j, htext', hws⟩ := rendered_text hblank hquote hrendered 0
    obtain ⟨rfl, rfl⟩ := htext.unique htext'
    rw [← hws]
    exact hresult
  · have hsame := hresult.unique hcode
    cases stop with
    | done j => cases hsame
    | quoted j => exact ⟨found, j, htext⟩
  · rintro ⟨found', j, htext'⟩
    obtain ⟨rfl, rfl⟩ := htext.unique htext'
    exact hresult
  · cases stop with
    | done j => exact ⟨found, j, htext, hresult⟩
    | quoted j => exact absurd ⟨found, j, htext⟩ hclosed
  · have hsame := hresult.unique hout
    cases stop <;> cases hsame

theorem argsFit_of_right (hright : ArgsRight line commentChar) : ArgsFit line commentChar := by
  obtain ⟨found, stop, htext⟩ := argsText_exists commentChar line.chars 0
  have hcode : Str2args line commentChar (.code (-2)) ∨
      ∃ argv, Str2args line commentChar (.args argv) := by
    by_cases hopen : QuoteOpen line commentChar
    · exact .inl (hright.quote.mpr hopen)
    · obtain ⟨_, _, -, hargs⟩ := hright.count hopen
      exact .inr ⟨_, hargs⟩
  have hstop : stop.index < 2 ^ 32 := by
    by_contra hover
    cases stop with
    | done j =>
        have hclosed : ¬QuoteOpen line commentChar := by
          rintro ⟨found', j', htext'⟩
          cases (htext.unique htext').2
        obtain ⟨found', j', htext', -, fuel, hargs⟩ := hright.count hclosed
        obtain ⟨rfl, -⟩ := htext.unique htext'
        exact no_args_over (s := {}) htext (by rw [ArgStop.index] at hover; omega) rfl hargs
    | quoted j =>
        obtain ⟨-, fuel, hopen⟩ := hright.quote.mpr ⟨found, j, htext⟩
        have hindex := htext.quoted_index rfl
        rw [ArgStop.index] at hover
        have hlong : 2 ^ 32 ≤ line.chars.length := by omega
        have hzero : 0 < 2 ^ 32 := by decide
        exact absurd hopen (argsFrom_long hlong hzero).1
  intro found' stop' htext'
  obtain ⟨rfl, rfl⟩ := htext.unique htext'
  refine ⟨?_, hstop⟩
  by_contra hunfit
  rcases (str2args_text htext hstop).2 hunfit with hfails | hfails
  · exact hright.inside hfails
  · rcases hcode with hcode | ⟨argv, hargs⟩
    · cases hfails.unique hcode
    · cases hfails.unique hargs

theorem segments_replicate {c : BitVec 8} (hblank : isBlank c = false) (hquote : isQuote c = false)
    (n : ℕ) : Segments (List.replicate n c) (List.replicate n c) 0 := by
  induction n with
  | zero => exact .nil
  | succ n ih =>
      rw [List.replicate_succ]
      exact .plain hblank hquote ih

/-- `n` characters `x`. -/
def longWord (n : ℕ) : CStr :=
  ⟨List.replicate n 0x78, fun h => absurd (List.eq_of_mem_replicate h) (by decide)⟩

theorem longWord_not_right {n : ℕ} (hlong : 2 ^ 31 ≤ n + 1) : ¬ArgsRight (longWord n) 0x23 := by
  intro hright
  have hlength : (longWord n).chars.length = n := List.length_replicate
  have hne : (longWord n).chars ≠ [] := by
    rw [← List.length_pos_iff, hlength]
    omega
  have hhead : (longWord n).chars.head? ≠ some 0x23 := by
    obtain ⟨m, rfl⟩ := Nat.exists_eq_succ_of_ne_zero (n := n) (by omega)
    intro he
    have hx : some (0x78 : BitVec 8) = some 0x23 := he
    exact absurd hx (by decide)
  have htext : ArgsText 0x23 0 (longWord n).chars [⟨0, (longWord n).chars, (longWord n).chars⟩]
      (.done (0 + (longWord n).chars.length)) :=
    .last (segments_replicate (by decide) (by decide) n) hne hhead
  have hfits := ((argsFit_of_right hright) _ _ htext).1 _ (List.mem_singleton.mpr rfl)
  unfold ArgWord.Fits at hfits
  dsimp only at hfits
  rw [hlength] at hfits
  omega

end

/-- `str2args` reads a line as its grammar says if and only if the indices fit. -/
theorem str2args_iff (line : CStr) (commentChar : BitVec 8) :
    ArgsRight line commentChar ↔ ArgsFit line commentChar :=
  ⟨argsFit_of_right, argsRight_of_fit⟩

/-- A word of 2^31 characters, which is one more than an `int` can count. -/
theorem not_argsRight : ¬ArgsRight (longWord (2 ^ 31)) 0x23 := longWord_not_right (by decide)

end BladeRF
