/-
# `Flash.BinkvPage` — key/value pages and the bytes around them

`Flash.Binkv` has the records in a memory without end.  Here a page is the bytes of
the buffer and nothing else, a read or a write beside it has no outcome, and `int`
has its 32 bits.  `binkv_encode_field` leaves room for one byte of the CRC only,
`binkv_decode_field` believes every length byte and takes a key for found where key
and value together begin with it.
-/
import BladeRF.Flash.Binkv
import BladeRF.Lib.Memcpy
import BladeRF.Streaming.RxRing

namespace BladeRF

open BinkvRecord

open Lib (CStr leBytes leNat memcpy strncmpIn strncpyIn)

/-- `(int)` of a length -/
def intOf (n : ℤ) : ℤ := n.bmod (2 ^ 32)

/-- A store at `pos`, inside the page only. -/
def storeAt (page : List (BitVec 8)) (pos : ℤ) (bs : List (BitVec 8)) : Option (List (BitVec 8)) :=
  if 0 ≤ pos then memcpy page pos.toNat bs 0 bs.length else none

namespace BinkvRecord

variable (r : BinkvRecord)

def flen : ℤ := intOf r.key.length

def vlen : ℤ := intOf r.val.length

def tlen : ℤ := intOf (r.flen + r.vlen + 1)

/-- The check of `binkv_encode_field`. -/
def refused (len idx : ℤ) : Prop := 256 ≤ r.tlen ∨ len ≤ idx + r.tlen

instance (len idx : ℤ) : Decidable (r.refused len idx) := inferInstanceAs (Decidable (_ ∨ _))

end BinkvRecord

structure BinkvPage where
  bytes : List (BitVec 8)
  idx : ℤ := 0

/-- `binkv_encode_field(buf + base, len, idx, field, val)`: the return code, the page
and the index. -/
def binkvEncodeAt (page : List (BitVec 8)) (base len idx : ℤ) (r : BinkvRecord) :
    Option (ℤ × List (BitVec 8) × ℤ) :=
  if r.refused len idx then some (bladerfErrMem, page, idx)
  else do
    let ptr := base + idx
    let page ← storeAt page ptr [BitVec.ofInt 8 (r.flen + r.vlen)]
    let page ← storeAt page (ptr + 1) (r.key.chars ++ [0])
    let page ← storeAt page (ptr + 1 + r.flen) (r.val.chars ++ [0])
    let crc := zcrc ((page.drop ptr.toNat).take r.tlen.toNat)
    let page ← storeAt page (ptr + r.tlen) (leBytes 2 crc.toNat)
    some (0, page, idx + r.tlen + 2)

/-- How the loop of `binkv_add_field` comes out. -/
inductive BinkvEnd where
  | running
  | outside
  | at (i : ℤ)

/-- The loop of `binkv_add_field`. -/
def binkvEndFrom (page : List (BitVec 8)) : ℕ → ℤ → BinkvEnd
  | 0, _ => .running
  | fuel + 1, i =>
      if i < page.length then
        if i < 0 then .outside
        else
          match page[i.toNat]? with
          | none => .outside
          | some fieldLen =>
              if fieldLen = 0xff then .at i
              else binkvEndFrom page fuel (intOf (i + fieldLen.toNat + 3))
      else .at i

/-- `binkv_add_field`, with turns enough for its loop. -/
def binkvAddField (page : List (BitVec 8)) (r : BinkvRecord) :
    Option (ℤ × List (BitVec 8)) :=
  match binkvEndFrom page (page.length + 1) 0 with
  | .at i => (binkvEncodeAt page i (page.length - i) 0 r).map fun t => (t.1, t.2.1)
  | .outside | .running => none

inductive BinkvWriter where
  | encode
  | add
deriving DecidableEq

/-- A call that writes a record: its return code, and the page behind it. -/
def binkvCall (s : BinkvPage) (r : BinkvRecord) : BinkvWriter → Option (ℤ × BinkvPage)
  | .encode =>
      (binkvEncodeAt s.bytes 0 s.bytes.length s.idx r).map fun t => (t.1, ⟨t.2.1, t.2.2⟩)
  | .add => (binkvAddField s.bytes r).map fun t => (t.1, { s with bytes := t.2 })

/-- A sequence of calls: the page behind it, and the records it took. -/
def binkvRun (writer : BinkvWriter) :
    BinkvPage → List BinkvRecord → Option (BinkvPage × List BinkvRecord)
  | s, [] => some (s, [])
  | s, r :: rs => do
      let t ← binkvCall s r writer
      let u ← binkvRun writer t.2 rs
      some (u.1, if t.1 = 0 then r :: u.2 else u.2)

def blankPage (len : ℕ) : BinkvPage := { bytes := List.replicate len 0xff }

/-- How `binkv_decode_field` comes out. -/
inductive BinkvDecoded where
  | running
  | outside
  | invalid
  | value (val : List (BitVec 8))

/-- The loop of `binkv_decode_field`, on the bytes from `ub` to the end. -/
def binkvDecodeIn (field : CStr) (maxlen : ℕ) : ℕ → List (BitVec 8) → BinkvDecoded
  | 0, _ => .running
  | _ + 1, [] => .invalid
  | fuel + 1, ub :: rest =>
      let c := ub.toNat
      if c = 255 then .invalid
      else if rest.length < c + 2 then .outside
      else if leNat ((rest.drop c).take 2) = (zcrc (ub :: rest.take c)).toNat then
        match strncmpIn rest field.chars with
        | none => .outside
        | some true =>
            let wlen := min ((c + sizeModulus - field.length) % sizeModulus) maxlen
            match strncpyIn (rest.drop field.length) wlen with
            | none => .outside
            | some val => .value val
        | some false => binkvDecodeIn field maxlen fuel (rest.drop (c + 2))
      else .invalid

/-- `binkv_decode_field`, with turns enough for its loop. -/
def binkvDecode (page : List (BitVec 8)) (field : CStr) (maxlen : ℕ) : BinkvDecoded :=
  binkvDecodeIn field maxlen (page.length + 1) page

/-! ## Writing a record -/

section

variable {page page' bs : List (BitVec 8)} {pos : ℕ} {r : BinkvRecord}

theorem storeAt_inside (h : pos + bs.length ≤ page.length) :
    storeAt page pos bs = some (page.take pos ++ bs ++ page.drop (pos + bs.length)) := by
  unfold storeAt memcpy
  rw [if_pos (Int.natCast_nonneg pos), Int.toNat_natCast, if_pos ⟨h, by omega⟩, List.drop_zero,
    List.take_length]

theorem storeAt_append {front behind : List (BitVec 8)} {p : ℤ} (hp : (front.length : ℤ) = p)
    (h : bs.length ≤ behind.length) :
    storeAt (front ++ behind) p bs = some (front ++ bs ++ behind.drop bs.length) := by
  rw [← hp, storeAt_inside (by rw [List.length_append]; omega), List.take_left, List.drop_append,
    List.drop_eq_nil_of_le (by omega), List.nil_append]
  congr 3
  omega

theorem storeAt_some {p : ℤ} (h : storeAt page p bs = some page') :
    0 ≤ p ∧ p + bs.length ≤ page.length ∧ page'.length = page.length := by
  unfold storeAt at h
  split at h
  · rename_i hpos
    by_cases hinside : p.toNat + bs.length ≤ page.length ∧ 0 + bs.length ≤ bs.length
    · obtain ⟨out, hout, hlength, -⟩ := Lib.memcpy_inside page bs hinside.1 hinside.2
      rw [hout] at h
      rw [← Option.some.inj h]
      exact ⟨hpos, by omega, hlength⟩
    · unfold memcpy at h
      rw [if_neg hinside] at h
      cases h
  · cases h

theorem intOf_small {n : ℤ} (hlow : -2 ^ 31 ≤ n) (hhigh : n < 2 ^ 31) : intOf n = n := by
  unfold intOf
  rw [Int.bmod_eq_of_le (by omega) (by omega)]

theorem BinkvRecord.lengths (h : r.key.length + r.val.length + 1 < 2 ^ 31) :
    r.flen = r.key.length ∧ r.vlen = r.val.length ∧
      r.tlen = r.key.length + r.val.length + 1 := by
  have hflen : r.flen = r.key.length := intOf_small (by omega) (by omega)
  have hvlen : r.vlen = r.val.length := intOf_small (by omega) (by omega)
  refine ⟨hflen, hvlen, ?_⟩
  unfold tlen
  rw [hflen, hvlen]
  exact intOf_small (by omega) (by omega)

theorem length_chars_zero (s : CStr) : (s.chars ++ [0]).length = s.length + 1 := by
  rw [List.length_append]
  rfl

theorem binkvEncodeAt_some {base len idx : ℤ} {t : ℤ × List (BitVec 8) × ℤ}
    (hshort : page.length < 2 ^ 31) (h : binkvEncodeAt page base len idx r = some t) :
    r.refused len idx ∧ t = (bladerfErrMem, page, idx) ∨
      ¬r.refused len idx ∧ 0 ≤ base + idx ∧ base + idx + r.bytes.length ≤ page.length := by
  unfold binkvEncodeAt at h
  split at h
  · rename_i hrefused
    exact .inl ⟨hrefused, (Option.some.inj h).symm⟩
  · rename_i htaken
    obtain ⟨page₁, h₁, h⟩ := Option.bind_eq_some_iff.mp h
    obtain ⟨page₂, h₂, h⟩ := Option.bind_eq_some_iff.mp h
    obtain ⟨page₃, h₃, h⟩ := Option.bind_eq_some_iff.mp h
    obtain ⟨page₄, h₄, -⟩ := Option.bind_eq_some_iff.mp h
    obtain ⟨hpos, -, hlen₁⟩ := storeAt_some h₁
    obtain ⟨-, hkey, hlen₂⟩ := storeAt_some h₂
    rw [length_chars_zero] at hkey
    have hflen : r.flen = r.key.length := intOf_small (by omega) (by omega)
    obtain ⟨-, hval, hlen₃⟩ := storeAt_some h₃
    rw [length_chars_zero, hflen] at hval
    obtain ⟨-, -, htlen⟩ := r.lengths (by omega)
    obtain ⟨-, hcrc, -⟩ := storeAt_some h₄
    rw [Lib.length_leBytes, htlen] at hcrc
    rw [r.length_bytes, r.length_data]
    exact .inr ⟨htaken, hpos, by omega⟩

theorem binkvEncodeAt_fits {base idx : ℕ} {len : ℤ} (hshort : page.length < 2 ^ 31)
    (htaken : ¬r.refused len idx) (hfits : base + idx + r.bytes.length ≤ page.length) :
    binkvEncodeAt page base len idx r =
      some (0, page.take (base + idx) ++ r.bytes ++ page.drop (base + idx + r.bytes.length),
        (idx : ℤ) + r.bytes.length) := by
  have hlength := r.length_bytes
  have hdata := r.length_data
  obtain ⟨hflen, hvlen, htlen⟩ := r.lengths (by omega)
  obtain ⟨p, hp⟩ : ∃ p, base + idx = p := ⟨_, rfl⟩
  have hptr : (base : ℤ) + idx = p := by omega
  obtain ⟨front, hfrontEq⟩ : ∃ front, page.take p = front := ⟨_, rfl⟩
  have hfront : front.length = p := by
    rw [← hfrontEq, List.length_take]
    omega
  have hsize : BitVec.ofInt 8 (r.flen + r.vlen) = BitVec.ofNat 8 r.data.length := by
    rw [hflen, hvlen, hdata]
    exact BitVec.ofInt_natCast 8 _
  obtain ⟨b, hb⟩ : ∃ b, BitVec.ofNat 8 r.data.length = b := ⟨_, rfl⟩
  have hkey : (front ++ [b] ++ r.key.chars).length = p + 1 + r.key.length := by
    rw [List.length_append, List.length_append, hfront]
    rfl
  have hbody : front ++ [b] ++ r.key.chars ++ r.val.chars = front ++ r.body := by
    rw [← hb, List.append_assoc, List.append_assoc]
    rfl
  have hrest (k : ℕ) : (page.drop k).length = page.length - k := List.length_drop
  -- each terminator is written over by what comes next
  have h₁ : storeAt page p [b] = some (front ++ ([b] ++ page.drop (p + 1))) := by
    rw [storeAt_inside (by rw [List.length_singleton]; omega), hfrontEq, List.append_assoc]
    rfl
  have h₂ : storeAt (front ++ ([b] ++ page.drop (p + 1))) (p + 1) (r.key.chars ++ [0]) =
      some (front ++ [b] ++ r.key.chars ++ ([0] ++ page.drop (p + 1 + (r.key.length + 1)))) := by
    rw [← List.append_assoc, storeAt_append (by simp [hfront])
      (by rw [length_chars_zero, hrest]; omega), length_chars_zero, List.drop_drop]
    simp only [List.append_assoc]
  have h₃ : storeAt (front ++ [b] ++ r.key.chars ++ ([0] ++ page.drop (p + 1 + (r.key.length + 1))))
      (p + 1 + r.key.length) (r.val.chars ++ [0]) =
        some (front ++ r.body ++ ([0] ++ page.drop (p + 1 + (r.key.length + 1) + r.val.length))) := by
    rw [← hbody, storeAt_append (by rw [hkey]; omega)
      (by rw [length_chars_zero, List.length_append, hrest]; simp only [List.length_singleton]; omega),
      length_chars_zero]
    have hdrop : ([0] ++ page.drop (p + 1 + (r.key.length + 1))).drop (r.val.length + 1) =
        page.drop (p + 1 + (r.key.length + 1) + r.val.length) := by
      rw [List.singleton_append, List.drop_succ_cons, List.drop_drop]
    rw [hdrop]
    simp only [List.append_assoc]
  have hcrc : ((front ++ r.body ++ ([0] ++
      page.drop (p + 1 + (r.key.length + 1) + r.val.length))).drop p).take
        (r.key.length + r.val.length + 1) = r.body := by
    rw [List.append_assoc, List.drop_left' hfront]
    exact List.take_left' (by rw [r.length_body, hdata])
  have h₄ : storeAt (front ++ r.body ++ ([0] ++
      page.drop (p + 1 + (r.key.length + 1) + r.val.length))) (p + (r.key.length + r.val.length + 1))
        (leBytes 2 (zcrc r.body).toNat) =
          some (front ++ r.bytes ++ page.drop (p + r.bytes.length)) := by
    have hpos : (front ++ r.body).length = p + (r.key.length + r.val.length + 1) := by
      rw [List.length_append, hfront, r.length_body, hdata]
    rw [storeAt_append (by rw [hpos]; omega)
      (by rw [Lib.length_leBytes, List.length_append, hrest]; simp only [List.length_singleton]; omega),
      Lib.length_leBytes]
    have hdrop : ([0] ++ page.drop (p + 1 + (r.key.length + 1) + r.val.length)).drop 2 =
        page.drop (p + r.bytes.length) := by
      have hend : p + 1 + (r.key.length + 1) + r.val.length + 1 = p + r.bytes.length := by omega
      rw [List.singleton_append, List.drop_succ_cons, List.drop_drop, hend]
    rw [hdrop, bytes]
    simp only [List.append_assoc]
  unfold binkvEncodeAt
  rw [if_neg htaken, hsize, hb, hptr, hflen, htlen]
  dsimp only [bind, Option.bind]
  rw [h₁]
  dsimp only
  rw [h₂]
  dsimp only
  rw [h₃]
  dsimp only
  have htoNat : ((r.key.length : ℤ) + r.val.length + 1).toNat =
      r.key.length + r.val.length + 1 := by omega
  rw [Int.toNat_natCast, htoNat, hcrc]
  have hpos : (p : ℤ) + ((r.key.length : ℤ) + r.val.length + 1) =
      (p : ℤ) + (r.key.length + r.val.length + 1) := rfl
  rw [hpos, h₄, hp, hfrontEq]
  dsimp only
  have hidx : (idx : ℤ) + ((r.key.length : ℤ) + r.val.length + 1) + 2 =
      (idx : ℤ) + r.bytes.length := by omega
  rw [hidx]

end

/-! ## The end of the records -/

/-- Stepping from length byte to length byte leads from `i` to `e`. -/
inductive WalkEnd (page : List (BitVec 8)) : ℕ → ℕ → Prop
  | past {i : ℕ} : page.length ≤ i → WalkEnd page i i
  | erased {i : ℕ} : page[i]? = some 0xff → WalkEnd page i i
  | skip {i e : ℕ} {b : BitVec 8} : page[i]? = some b → b ≠ 0xff →
      WalkEnd page (i + b.toNat + 3) e → WalkEnd page i e

section

variable {page : List (BitVec 8)} {i e : ℕ}

theorem walkEnd_exists (page : List (BitVec 8)) (n : ℕ) (hn : page.length - i ≤ n) :
    ∃ e, WalkEnd page i e := by
  induction n generalizing i with
  | zero => exact ⟨i, .past (by omega)⟩
  | succ n ih =>
      cases hb : page[i]? with
      | none => exact ⟨i, .past (List.getElem?_eq_none_iff.mp hb)⟩
      | some b =>
          by_cases herased : b = 0xff
          · exact ⟨i, .erased (by rw [hb, herased])⟩
          · obtain ⟨e, he⟩ := @ih (i + b.toNat + 3) (by omega)
            exact ⟨e, .skip hb herased he⟩

theorem WalkEnd.unique {e' : ℕ} (h : WalkEnd page i e) (h' : WalkEnd page i e') : e = e' := by
  induction h with
  | past hlen =>
      cases h' with
      | past _ => rfl
      | erased _ => rfl
      | skip hb _ _ =>
          rw [List.getElem?_eq_none hlen] at hb
          cases hb
  | erased hff =>
      cases h' with
      | past _ => rfl
      | erased _ => rfl
      | skip hb hne _ =>
          rw [hff] at hb
          exact absurd (Option.some.inj hb).symm hne
  | skip hb hne _ ih =>
      cases h' with
      | past hlen =>
          rw [List.getElem?_eq_none hlen] at hb
          cases hb
      | erased hff =>
          rw [hff] at hb
          exact absurd (Option.some.inj hb).symm hne
      | skip hb' _ hwalk' =>
          rw [hb] at hb'
          cases hb'
          exact ih hwalk'

theorem binkvEndFrom_eq (hshort : page.length < 2 ^ 31) (h : WalkEnd page i e) {fuel : ℕ}
    (hi : i < 2 ^ 31) (hfuel : page.length - i < fuel) :
    binkvEndFrom page fuel i = if e < 2 ^ 31 then .at e else .outside := by
  induction h generalizing fuel with
  | past hlen =>
      obtain ⟨fuel, rfl⟩ := Nat.exists_eq_succ_of_ne_zero (Nat.ne_of_gt (Nat.zero_lt_of_lt hfuel))
      rw [binkvEndFrom, if_neg (by omega), if_pos hi]
  | @erased i hff =>
      obtain ⟨fuel, rfl⟩ := Nat.exists_eq_succ_of_ne_zero (Nat.ne_of_gt (Nat.zero_lt_of_lt hfuel))
      have hlt := (List.getElem?_eq_some_iff.mp hff).1
      rw [binkvEndFrom, if_pos (by omega), if_neg (by omega), Int.toNat_natCast, hff, if_pos hi]
      rfl
  | @skip i e b hb hne hwalk ih =>
      obtain ⟨fuel, rfl⟩ := Nat.exists_eq_succ_of_ne_zero (Nat.ne_of_gt (Nat.zero_lt_of_lt hfuel))
      have hlt := (List.getElem?_eq_some_iff.mp hb).1
      have hbyte := b.isLt
      rw [binkvEndFrom, if_pos (by omega), if_neg (by omega), Int.toNat_natCast, hb]
      dsimp only
      rw [if_neg hne]
      rcases Nat.lt_or_ge (i + b.toNat + 3) (2 ^ 31) with hsmall | hlarge
      · have hnext : intOf ((i : ℤ) + b.toNat + 3) = ((i + b.toNat + 3 : ℕ) : ℤ) := by
          rw [intOf_small (by omega) (by omega)]
          omega
        rw [hnext]
        exact ih hsmall (by omega)
      · -- the step leaves the range of `int`, and the page
        have hend : e = i + b.toNat + 3 := (WalkEnd.unique hwalk (.past (by omega)))
        obtain ⟨fuel, rfl⟩ := Nat.exists_eq_succ_of_ne_zero (n := fuel) (by omega)
        have hnegative : intOf ((i : ℤ) + b.toNat + 3) < 0 := by
          unfold intOf
          rw [Int.bmod_def]
          omega
        rw [binkvEndFrom, if_pos (by omega), if_pos hnegative, if_neg (by omega)]

theorem binkvAddField_eq (hshort : page.length < 2 ^ 31) (h : WalkEnd page 0 e)
    (r : BinkvRecord) :
    binkvAddField page r = if e < 2 ^ 31 then
      (binkvEncodeAt page e (page.length - e) 0 r).map fun t => (t.1, t.2.1) else none := by
  have hloop : binkvEndFrom page (page.length + 1) 0 =
      if e < 2 ^ 31 then .at e else .outside :=
    @binkvEndFrom_eq page 0 e hshort h (page.length + 1) (by omega) (by omega)
  unfold binkvAddField
  rw [hloop]
  by_cases he : e < 2 ^ 31
  · rw [if_pos he, if_pos he]
  · rw [if_neg he, if_neg he]

end

/-! ## Runs of calls that write -/

/-- The records that are taken from `idx` on. -/
def taken (len : ℕ) : ℕ → List BinkvRecord → List BinkvRecord
  | _, [] => []
  | idx, r :: rs =>
      if r.refused len idx then taken len idx rs
      else r :: taken len (idx + r.bytes.length) rs

/-- Every record that is taken ends inside the page, its CRC included. -/
def RecordsFit (len : ℕ) : ℕ → List BinkvRecord → Prop
  | _, [] => True
  | idx, r :: rs =>
      if r.refused len idx then RecordsFit len idx rs
      else idx + r.bytes.length ≤ len ∧ RecordsFit len (idx + r.bytes.length) rs

/-- The page with the records `ws` on it. -/
structure Written (writer : BinkvWriter) (len : ℕ) (ws : List BinkvRecord) (s : BinkvPage) :
    Prop where
  bytes : s.bytes = ws.flatMap bytes ++
    List.replicate (len - (ws.flatMap bytes).length) 0xff
  inside : (ws.flatMap BinkvRecord.bytes).length ≤ len
  idx : writer = .encode → s.idx = (ws.flatMap BinkvRecord.bytes).length
  small : ∀ r ∈ ws, r.data.length < 255

section

variable {writer : BinkvWriter} {len : ℕ} {ws : List BinkvRecord} {s : BinkvPage}

theorem Written.length (h : Written writer len ws s) : s.bytes.length = len := by
  have hinside := h.inside
  rw [h.bytes, List.length_append, List.length_replicate]
  omega

theorem walkEnd_records {page : List (BitVec 8)} {rs : List BinkvRecord} {i n : ℕ}
    (hsmall : ∀ r ∈ rs, r.data.length < 255) (hi : i ≤ page.length)
    (h : page.drop i = rs.flatMap bytes ++ List.replicate n 0xff) :
    WalkEnd page i (i + (rs.flatMap bytes).length) := by
  induction rs generalizing i with
  | nil =>
      cases n with
      | zero =>
          have hlen := congrArg List.length h
          rw [List.length_drop] at hlen
          exact .past (Nat.sub_eq_zero_iff_le.mp hlen)
      | succ n =>
          refine .erased ?_
          rw [← Nat.add_zero i, ← List.getElem?_drop, h]
          rfl
  | cons r rs ih =>
      have hr := hsmall r List.mem_cons_self
      rw [List.flatMap_cons, List.append_assoc] at h
      have hlen := congrArg List.length h
      rw [List.length_drop, List.length_append, r.length_bytes] at hlen
      have hbyte : page[i]? = some (BitVec.ofNat 8 r.data.length) := by
        rw [← Nat.add_zero i, ← List.getElem?_drop, h]
        rfl
      have htoNat : (BitVec.ofNat 8 r.data.length).toNat = r.data.length := by
        rw [BitVec.toNat_ofNat, Nat.mod_eq_of_lt (by omega)]
      have hnext : i + (BitVec.ofNat 8 r.data.length).toNat + 3 = i + r.bytes.length := by
        rw [htoNat, r.length_bytes]
        omega
      have hdrop : page.drop (i + r.bytes.length) =
          rs.flatMap bytes ++ List.replicate n 0xff := by
        rw [← List.drop_drop, h, List.drop_left]
      have hrest := @ih (i + r.bytes.length) (fun x hx => hsmall x (List.mem_cons_of_mem r hx))
        (by rw [r.length_bytes]; omega) hdrop
      have hend : i + ((r :: rs).flatMap bytes).length =
          i + r.bytes.length + (rs.flatMap bytes).length := by
        rw [List.flatMap_cons, List.length_append]
        omega
      rw [hend]
      refine .skip hbyte ?_ (by rw [hnext]; exact hrest)
      intro hff
      have hfull := congrArg BitVec.toNat hff
      rw [htoNat] at hfull
      have hconst : (0xff : BitVec 8).toNat = 255 := rfl
      omega

theorem binkvCall_eq (hshort : len < 2 ^ 31) (h : Written writer len ws s) (r : BinkvRecord) :
    ∃ base idx : ℕ, base + idx = (ws.flatMap bytes).length ∧
      (writer = .encode → idx = (ws.flatMap bytes).length) ∧
      binkvCall s r writer = (binkvEncodeAt s.bytes base (len - base) idx r).map fun t =>
        (t.1, ⟨t.2.1, if writer = .encode then t.2.2 else s.idx⟩) := by
  have hlength := h.length
  cases writer with
  | encode =>
      refine ⟨0, (ws.flatMap bytes).length, Nat.zero_add _, fun _ => rfl, ?_⟩
      unfold binkvCall
      rw [hlength, h.idx rfl]
      simp
  | add =>
      refine ⟨(ws.flatMap bytes).length, 0, Nat.add_zero _, fun he => (by cases he), ?_⟩
      have hwalk : WalkEnd s.bytes 0 (ws.flatMap bytes).length := by
        have hrecords := @walkEnd_records s.bytes ws 0 _ h.small (Nat.zero_le _) h.bytes
        rwa [Nat.zero_add] at hrecords
      have hinside := h.inside
      unfold binkvCall
      rw [binkvAddField_eq (by omega) hwalk, if_pos (by omega), hlength, Option.map_map]
      rfl

theorem binkvCall_cases (hshort : len < 2 ^ 31) (h : Written writer len ws s) (r : BinkvRecord) :
    (r.refused len (ws.flatMap bytes).length ∧
        binkvCall s r writer = some (bladerfErrMem, s)) ∨
      ¬r.refused len (ws.flatMap bytes).length ∧
        ((ws.flatMap bytes).length + r.bytes.length ≤ len ∧
            (∃ s', binkvCall s r writer = some (0, s') ∧ Written writer len (ws ++ [r]) s') ∨
          len < (ws.flatMap bytes).length + r.bytes.length ∧
            binkvCall s r writer = none) := by
  have hlength := h.length
  have hinside := h.inside
  obtain ⟨base, idx, hsum, hidx, hcall⟩ := binkvCall_eq hshort h r
  have hrefused : r.refused ((len : ℤ) - base) idx ↔
      r.refused len (ws.flatMap bytes).length := by
    unfold refused
    omega
  by_cases hr : r.refused len (ws.flatMap bytes).length
  · refine .inl ⟨hr, ?_⟩
    rw [hcall]
    unfold binkvEncodeAt
    rw [if_pos (hrefused.mpr hr)]
    have hsame : (if writer = .encode then (idx : ℤ) else s.idx) = s.idx := by
      split
      · rename_i he
        rw [h.idx he, hidx he]
      · rfl
    simp only [Option.map_some, hsame]
  · refine .inr ⟨hr, ?_⟩
    have htaken := fun hbad => hr (hrefused.mp hbad)
    rcases Nat.lt_or_ge len ((ws.flatMap bytes).length + r.bytes.length) with hover | hfits
    · refine .inr ⟨hover, ?_⟩
      rw [hcall, Option.map_eq_none_iff]
      cases hencode : binkvEncodeAt s.bytes base (len - base) idx r with
      | none => rfl
      | some t =>
          rcases binkvEncodeAt_some (by omega) hencode with ⟨hbad, -⟩ | ⟨-, -, hfits⟩
          · exact absurd hbad htaken
          · omega
    · have hencode := @binkvEncodeAt_fits s.bytes r base idx (len - base) (by omega) htaken
        (by omega)
      have hbytes : s.bytes.take (base + idx) ++ r.bytes ++ s.bytes.drop (base + idx + r.bytes.length) =
          (ws ++ [r]).flatMap bytes ++ List.replicate
            (len - ((ws ++ [r]).flatMap bytes).length) 0xff := by
        have hflat : (ws ++ [r]).flatMap bytes =
            ws.flatMap bytes ++ r.bytes := by
          rw [List.flatMap_append, List.flatMap_cons, List.flatMap_nil, List.append_nil]
        rw [hsum, h.bytes, List.take_left, ← List.drop_drop, List.drop_left, List.drop_replicate,
          hflat, List.length_append, Nat.sub_sub]
      have htlen := r.length_bytes
      have hdata := r.length_data
      obtain ⟨-, -, hexact⟩ := r.lengths (by omega)
      refine .inl ⟨hfits, ⟨_, if writer = .encode then (idx : ℤ) + r.bytes.length else s.idx⟩,
        ?_, ⟨hbytes, ?_, fun he => ?_, fun x hx => ?_⟩⟩
      · rw [hcall, hencode]
        rfl
      · rw [List.flatMap_append, List.length_append, List.flatMap_cons, List.flatMap_nil,
          List.append_nil]
        exact hfits
      · show (if writer = .encode then (idx : ℤ) + r.bytes.length else s.idx) = _
        rw [if_pos he, hidx he, List.flatMap_append, List.length_append, List.flatMap_cons,
          List.flatMap_nil, List.append_nil]
        omega
      · rcases List.mem_append.mp hx with hx | hx
        · exact h.small x hx
        · rw [List.mem_singleton.mp hx]
          unfold refused at hr
          omega

theorem binkvRun_cases (hshort : len < 2 ^ 31) (h : Written writer len ws s)
    (rs : List BinkvRecord) :
    (RecordsFit len (ws.flatMap bytes).length rs →
        ∃ s', binkvRun writer s rs = some (s', taken len (ws.flatMap bytes).length rs) ∧
          Written writer len (ws ++ taken len (ws.flatMap BinkvRecord.bytes).length rs) s') ∧
      (¬RecordsFit len (ws.flatMap bytes).length rs → binkvRun writer s rs = none) := by
  induction rs generalizing ws s with
  | nil => exact ⟨fun _ => ⟨s, rfl, by rw [taken, List.append_nil]; exact h⟩,
      fun hbad => absurd trivial hbad⟩
  | cons r rs ih =>
      unfold binkvRun RecordsFit taken
      rcases binkvCall_cases hshort h r with ⟨hr, hcall⟩ | ⟨hr, ⟨hfits, s', hcall, hs'⟩ | ⟨hover, hcall⟩⟩
      · obtain ⟨hin, hout⟩ := ih h
        rw [if_pos hr, if_pos hr, hcall]
        dsimp only [bind, Option.bind]
        constructor
        · intro hfit
          obtain ⟨s', hrun, hs'⟩ := hin hfit
          refine ⟨s', ?_, hs'⟩
          rw [hrun]
          dsimp only
          rw [if_neg (by decide)]
        · intro hbad
          rw [hout hbad]
      · have hlen : ((ws ++ [r]).flatMap bytes).length =
            (ws.flatMap bytes).length + r.bytes.length := by
          rw [List.flatMap_append, List.length_append, List.flatMap_cons, List.flatMap_nil,
            List.append_nil]
        obtain ⟨hin, hout⟩ := ih hs'
        rw [hlen] at hin hout
        rw [if_neg hr, if_neg hr, hcall]
        dsimp only [bind, Option.bind]
        constructor
        · rintro ⟨-, hfit⟩
          obtain ⟨t, hrun, ht⟩ := hin hfit
          refine ⟨t, ?_, by rwa [List.append_assoc] at ht⟩
          rw [hrun]
          rfl
        · intro hbad
          rw [hout fun hfit => hbad ⟨hfits, hfit⟩]
      · rw [if_neg hr, if_neg hr, hcall]
        exact ⟨fun hfit => absurd hfit.1 (Nat.not_le.mpr hover), fun _ => rfl⟩

end

/-! ## Reading a page -/

/-- The record of `rest` behind the length byte `ub` has the right CRC. -/
def CrcRight (ub : BitVec 8) (rest : List (BitVec 8)) : Prop :=
  leNat ((rest.drop ub.toNat).take 2) = (zcrc (ub :: rest.take ub.toNat)).toNat

instance (ub : BitVec 8) (rest : List (BitVec 8)) : Decidable (CrcRight ub rest) :=
  inferInstanceAs (Decidable (_ = _))

/-- Pages on which the reader stays inside: each record it gets to is there as a
whole, and neither the comparison with the key nor the copy of the value runs over
the end. -/
inductive DecodeInside (field : CStr) : List (BitVec 8) → Prop
  | past : DecodeInside field []
  | erased (rest : List (BitVec 8)) : DecodeInside field (0xff :: rest)
  | corrupt {ub : BitVec 8} {rest : List (BitVec 8)} : ub ≠ 0xff →
      ub.toNat + 2 ≤ rest.length → ¬CrcRight ub rest → DecodeInside field (ub :: rest)
  | found {ub : BitVec 8} {rest : List (BitVec 8)} : ub ≠ 0xff →
      ub.toNat + 2 ≤ rest.length → CrcRight ub rest → field.chars <+: rest →
      (field.length ≤ ub.toNat ∨ 0 ∈ rest.drop field.length) → DecodeInside field (ub :: rest)
  | skip {ub : BitVec 8} {rest : List (BitVec 8)} : ub ≠ 0xff →
      ub.toNat + 2 ≤ rest.length → CrcRight ub rest → ¬field.chars <+: rest →
      ¬rest <+: field.chars → DecodeInside field (rest.drop (ub.toNat + 2)) →
      DecodeInside field (ub :: rest)

section

variable {field : CStr} {ub : BitVec 8} {rest : List (BitVec 8)} {maxlen fuel : ℕ}

theorem toNat_eq_255 : ub.toNat = 255 ↔ ub = 0xff :=
  ⟨fun h => BitVec.eq_of_toNat_eq h, fun h => by rw [h]; rfl⟩

def wlen (field : CStr) (ub : BitVec 8) (maxlen : ℕ) : ℕ :=
  min ((ub.toNat + sizeModulus - field.length) % sizeModulus) maxlen

theorem wlen_inside (h : field.length ≤ ub.toNat) :
    wlen field ub maxlen = min (ub.toNat - field.length) maxlen := by
  have hbyte := ub.isLt
  have hsize : (ub.toNat + sizeModulus - field.length) % sizeModulus =
      ub.toNat - field.length := by
    unfold sizeModulus
    omega
  rw [wlen, hsize]

theorem wlen_behind (h : ub.toNat < field.length) (hfield : field.length < 2 ^ 31)
    (hmax : maxlen ≤ 2 ^ 32) : wlen field ub maxlen = maxlen := by
  have hsize : 2 ^ 32 ≤ (ub.toNat + sizeModulus - field.length) % sizeModulus := by
    unfold sizeModulus
    omega
  rw [wlen, Nat.min_eq_right (Nat.le_trans hmax hsize)]

theorem binkvDecodeIn_record (hff : ub ≠ 0xff) (hlength : ub.toNat + 2 ≤ rest.length)
    (hcrc : CrcRight ub rest) :
    (rest <+: field.chars → rest.length < field.length →
        binkvDecodeIn field maxlen (fuel + 1) (ub :: rest) = .outside) ∧
      (field.chars <+: rest → binkvDecodeIn field maxlen (fuel + 1) (ub :: rest) =
        match strncpyIn (rest.drop field.length) (wlen field ub maxlen) with
        | none => .outside
        | some val => .value val) ∧
      (¬field.chars <+: rest → ¬rest <+: field.chars →
        binkvDecodeIn field maxlen (fuel + 1) (ub :: rest) =
          binkvDecodeIn field maxlen fuel (rest.drop (ub.toNat + 2))) := by
  have hcrc' : leNat ((rest.drop ub.toNat).take 2) = (zcrc (ub :: rest.take ub.toNat)).toNat := hcrc
  have hturn : binkvDecodeIn field maxlen (fuel + 1) (ub :: rest) =
      match strncmpIn rest field.chars with
      | none => .outside
      | some true =>
          match strncpyIn (rest.drop field.length) (wlen field ub maxlen) with
          | none => .outside
          | some val => .value val
      | some false => binkvDecodeIn field maxlen fuel (rest.drop (ub.toNat + 2)) := by
    rw [binkvDecodeIn]
    dsimp only
    rw [if_neg (fun he => hff (toNat_eq_255.mp he)), if_neg (by omega), if_pos hcrc']
    rfl
  rw [hturn]
  refine ⟨fun hbegins hshort => ?_, fun hbegins => ?_, fun hno hno' => ?_⟩
  · rw [Lib.strncmpIn_eq_none.mpr ⟨hbegins, hshort⟩]
  · rw [Lib.strncmpIn_eq_true.mpr hbegins]
  · cases hcompare : strncmpIn rest field.chars with
    | none => exact absurd (Lib.strncmpIn_eq_none.mp hcompare).1 hno'
    | some same =>
        cases same with
        | true => exact absurd (Lib.strncmpIn_eq_true.mp hcompare) hno
        | false => rfl

theorem binkvDecodeIn_ends {page : List (BitVec 8)} (h : page.length < fuel) :
    binkvDecodeIn field maxlen fuel page ≠ .running := by
  induction fuel generalizing page with
  | zero => omega
  | succ fuel ih =>
      cases page with
      | nil => exact fun he => by cases he
      | cons ub rest =>
          unfold binkvDecodeIn
          dsimp only
          rw [List.length_cons] at h
          split
          · exact fun he => by cases he
          · split
            · exact fun he => by cases he
            · split
              · split
                · exact fun he => by cases he
                · split <;> exact fun he => by cases he
                · exact ih (by rw [List.length_drop]; omega)
              · exact fun he => by cases he

theorem decodeInside_iff {page : List (BitVec 8)} (hshort : page.length < 2 ^ 31)
    (hfuel : page.length < fuel) :
    (∀ maxlen < sizeModulus, binkvDecodeIn field maxlen fuel page ≠ .outside) ↔
      DecodeInside field page := by
  induction fuel generalizing page with
  | zero => omega
  | succ fuel ih =>
      cases page with
      | nil => exact ⟨fun _ => .past, fun _ _ _ he => by cases he⟩
      | cons ub rest =>
          rw [List.length_cons] at hshort hfuel
          by_cases hff : ub = 0xff
          · subst hff
            exact ⟨fun _ => .erased rest, fun _ _ _ he => by cases he⟩
          by_cases hlength : ub.toNat + 2 ≤ rest.length
          · by_cases hcrc : CrcRight ub rest
            · by_cases hfound : field.chars <+: rest
              · have hfield : field.length ≤ rest.length := hfound.length_le
                have hdrop : (rest.drop field.length).length = rest.length - field.length :=
                  List.length_drop
                constructor
                · intro hinside
                  refine .found hff hlength hcrc hfound ?_
                  by_contra hnone
                  rw [not_or] at hnone
                  refine hinside (2 ^ 32) (by decide) ?_
                  rw [(binkvDecodeIn_record hff hlength hcrc).2.1 hfound,
                    wlen_behind (by omega) (by omega) (Nat.le_refl _),
                    Lib.strncpyIn_eq_none.mpr ⟨hnone.2, by omega⟩]
                · intro hinside maxlen _
                  rw [(binkvDecodeIn_record hff hlength hcrc).2.1 hfound]
                  cases hcopy : strncpyIn (rest.drop field.length) (wlen field ub maxlen) with
                  | some val => exact fun he => by cases he
                  | none =>
                      obtain ⟨hnul, hover⟩ := Lib.strncpyIn_eq_none.mp hcopy
                      cases hinside with
                      | erased => exact absurd rfl hff
                      | corrupt _ _ hbad => exact absurd hcrc hbad
                      | skip _ _ _ hno => exact absurd hfound hno
                      | found _ _ _ _ hroom =>
                          rcases hroom with hroom | hroom
                          · rw [wlen_inside hroom] at hover
                            omega
                          · exact absurd hroom hnul
              · by_cases hover : rest <+: field.chars
                · have hlt : rest.length < field.length := by
                    rcases Nat.lt_or_ge rest.length field.length with hlt | hge
                    · exact hlt
                    · rw [hover.eq_of_length_le hge] at hfound
                      exact absurd (List.prefix_refl _) hfound
                  constructor
                  · intro hinside
                    exact absurd ((binkvDecodeIn_record hff hlength hcrc).1 hover hlt)
                      (hinside 0 (by decide))
                  · intro hinside
                    cases hinside with
                    | erased => exact absurd rfl hff
                    | corrupt _ _ hbad => exact absurd hcrc hbad
                    | found _ _ _ hyes => exact absurd hyes hfound
                    | skip _ _ _ _ hno => exact absurd hover hno
                · have hnext := @ih (rest.drop (ub.toNat + 2)) (by rw [List.length_drop]; omega)
                    (by rw [List.length_drop]; omega)
                  have hstep (maxlen : ℕ) := (@binkvDecodeIn_record field ub rest maxlen fuel hff
                    hlength hcrc).2.2 hfound hover
                  simp only [hstep]
                  rw [hnext]
                  constructor
                  · exact .skip hff hlength hcrc hfound hover
                  · intro hinside
                    cases hinside with
                    | erased => exact absurd rfl hff
                    | corrupt _ _ hbad => exact absurd hcrc hbad
                    | found _ _ _ hyes => exact absurd hyes hfound
                    | skip _ _ _ _ _ hrest => exact hrest
            · have hcrc' : ¬leNat ((rest.drop ub.toNat).take 2) =
                  (zcrc (ub :: rest.take ub.toNat)).toNat := hcrc
              refine ⟨fun _ => .corrupt hff hlength hcrc, fun _ maxlen _ => ?_⟩
              unfold binkvDecodeIn
              dsimp only
              rw [if_neg (fun he => hff (toNat_eq_255.mp he)), if_neg (by omega), if_neg hcrc']
              exact fun he => by cases he
          · constructor
            · intro hinside
              refine absurd ?_ (hinside 0 (by decide))
              unfold binkvDecodeIn
              dsimp only
              rw [if_neg (fun he => hff (toNat_eq_255.mp he)), if_pos (by omega)]
            · intro hinside
              cases hinside with
              | erased => exact absurd rfl hff
              | corrupt _ hle _ => exact absurd hle hlength
              | found _ hle _ _ _ => exact absurd hle hlength
              | skip _ hle _ _ _ _ => exact absurd hle hlength

end

/-! ## Reading back what was written -/

/-- The answer to a key: the value of the first record with it, cut to `maxlen`. -/
def Answers (expected : Option (List (BitVec 8))) (maxlen : ℕ) (result : BinkvDecoded) : Prop :=
  match expected with
  | none => result = .invalid
  | some v => ∃ val, result = .value val ∧ val.takeWhile (· ≠ 0) = v.take maxlen

def valueOf (field : CStr) (rs : List BinkvRecord) : Option (List (BitVec 8)) :=
  (rs.find? fun r => r.key = field).map fun r => r.val.chars

/-- The page behind the length byte of a record: its data, its CRC and the bytes
behind the record. -/
def BinkvRecord.tail (r : BinkvRecord) (rest : List (BitVec 8)) : List (BitVec 8) :=
  r.data ++ leBytes 2 (zcrc r.body).toNat ++ rest

/-- What the reader takes for the value of a record that begins with the key: the
data behind the key, or for a key longer than the data what stands behind it up to
the next zero. -/
def BinkvRecord.Reads (r : BinkvRecord) (field : CStr) (rest v : List (BitVec 8)) : Prop :=
  if field.length ≤ r.data.length then v = r.data.drop field.length
  else 0 ∈ (r.tail rest).drop field.length ∧
    v = ((r.tail rest).drop field.length).takeWhile (· ≠ 0)

/-- The key and the records before `padding` bytes `0xff` do not get into each other's
way: a record that begins with the key, as far as the page goes, has the value to be
found, and the comparison with one that does not ends inside the page. -/
def KeyFits (field : CStr) (padding : ℕ) : List BinkvRecord → Prop
  | [] => True
  | r :: rs =>
      let rest := rs.flatMap bytes ++ List.replicate padding 0xff
      if field.chars <+: r.tail rest then
        ∃ v, r.Reads field rest v ∧ valueOf field (r :: rs) = some v
      else ¬r.tail rest <+: field.chars ∧ KeyFits field padding rs

section

variable {field : CStr} {r : BinkvRecord} {rest : List (BitVec 8)} {maxlen fuel padding : ℕ}

theorem BinkvRecord.length_tail (r : BinkvRecord) (rest : List (BitVec 8)) :
    (r.tail rest).length = r.data.length + 2 + rest.length := by
  rw [tail, List.length_append, List.length_append, Lib.length_leBytes]

theorem BinkvRecord.bytes_append (r : BinkvRecord) (rest : List (BitVec 8)) :
    r.bytes ++ rest = BitVec.ofNat 8 r.data.length :: r.tail rest := rfl

theorem BinkvRecord.tail_parts (hsmall : r.data.length < 255) :
    (BitVec.ofNat 8 r.data.length).toNat = r.data.length ∧
      BitVec.ofNat 8 r.data.length ≠ 0xff ∧
      CrcRight (BitVec.ofNat 8 r.data.length) (r.tail rest) ∧
      (r.tail rest).drop (r.data.length + 2) = rest := by
  have hsize : (BitVec.ofNat 8 r.data.length).toNat = r.data.length := by
    rw [BitVec.toNat_ofNat, Nat.mod_eq_of_lt (by omega)]
  refine ⟨hsize, fun he => ?_, ?_, ?_⟩
  · have := congrArg BitVec.toNat he
    rw [hsize] at this
    exact absurd (this.trans (by decide : (0xff : BitVec 8).toNat = 255)) (by omega)
  · unfold CrcRight tail
    have htake : (leBytes 2 (zcrc r.body).toNat ++ rest).take 2 = leBytes 2 (zcrc r.body).toNat :=
      List.take_left' (Lib.length_leBytes _ _)
    rw [hsize, List.append_assoc, List.drop_left, List.take_left, htake,
      Lib.leNat_leBytes_of_lt (zcrc r.body).isLt]
    rfl
  · unfold tail
    exact List.drop_left' (by rw [List.length_append, Lib.length_leBytes])

theorem BinkvRecord.reads_own (hkey : r.key = field) :
    field.chars <+: r.tail rest ∧ r.Reads field rest r.val.chars := by
  subst hkey
  refine ⟨?_, ?_⟩
  · rw [tail, data, List.append_assoc, List.append_assoc]
    exact List.prefix_append _ _
  · unfold BinkvRecord.Reads
    rw [if_pos (by rw [r.length_data]; omega), data]
    exact (List.drop_left' rfl).symm

theorem valueOf_cons_of_ne {rs : List BinkvRecord} (hkey : r.key ≠ field) :
    valueOf field (r :: rs) = valueOf field rs := by
  rw [valueOf, List.find?_cons_of_neg (by simpa using hkey)]
  rfl

theorem take_all_eq {v w : List (BitVec 8)} (hv : v.length < 2 ^ 32) (hw : w.length < 2 ^ 32)
    (h : v.take (2 ^ 32) = w.take (2 ^ 32)) : v = w := by
  rwa [List.take_of_length_le (by omega), List.take_of_length_le (by omega)] at h

theorem takeWhile_take (p : BitVec 8 → Bool) (bs : List (BitVec 8)) (n : ℕ) :
    (bs.take n).takeWhile p = (bs.takeWhile p).take n := by
  induction bs generalizing n with
  | nil => rw [List.take_nil, List.takeWhile_nil, List.take_nil]
  | cons b bs ih =>
      cases n with
      | zero => rw [List.take_zero, List.take_zero, List.takeWhile_nil]
      | succ n =>
          rw [List.take_succ_cons, List.takeWhile_cons, List.takeWhile_cons]
          split
          · rw [List.take_succ_cons, ih]
          · rw [List.take_nil]

theorem BinkvRecord.reads_copy {v : List (BitVec 8)} (hreads : r.Reads field rest v)
    (hbegins : field.chars <+: r.tail rest) (hshort : (r.tail rest).length < 2 ^ 31)
    (hsmall : r.data.length < 255) (maxlen : ℕ) :
    ∃ val, strncpyIn ((r.tail rest).drop field.length)
        (wlen field (BitVec.ofNat 8 r.data.length) maxlen) = some val ∧
      val.takeWhile (· ≠ 0) = v.take maxlen := by
  obtain ⟨hsize, -⟩ := @BinkvRecord.tail_parts r rest hsmall
  have hlength := r.length_tail rest
  have hdrop : ((r.tail rest).drop field.length).length =
      (r.tail rest).length - field.length := List.length_drop
  have hfield : field.length ≤ (r.tail rest).length := hbegins.length_le
  unfold BinkvRecord.Reads at hreads
  split at hreads
  · rename_i hle
    subst hreads
    have hwlen := @wlen_inside field (BitVec.ofNat 8 r.data.length) maxlen (by omega)
    rw [hsize] at hwlen
    rw [hwlen]
    cases hcopy : strncpyIn ((r.tail rest).drop field.length)
        (min (r.data.length - field.length) maxlen) with
    | none =>
        have := (Lib.strncpyIn_eq_none.mp hcopy).2
        omega
    | some val =>
        refine ⟨val, rfl, ?_⟩
        rw [Lib.takeWhile_strncpyIn hcopy, Nat.min_comm, ← List.take_take]
        have hdata : ((r.tail rest).drop field.length).take (r.data.length - field.length) =
            r.data.drop field.length := by
          rw [tail, List.append_assoc, List.drop_append_of_le_length hle]
          exact List.take_left' List.length_drop
        rw [hdata]
        refine List.takeWhile_eq_self_iff.mpr fun b hb => ?_
        have hmem := List.mem_of_mem_drop (List.mem_of_mem_take hb)
        simp only [ne_eq, decide_not, Bool.not_eq_eq_eq_not, Bool.not_true, decide_eq_false_iff_not]
        exact fun he => r.noNul (he ▸ hmem)
  · rename_i hgt
    obtain ⟨hnul, rfl⟩ := hreads
    cases hcopy : strncpyIn ((r.tail rest).drop field.length)
        (wlen field (BitVec.ofNat 8 r.data.length) maxlen) with
    | none => exact absurd hnul (Lib.strncpyIn_eq_none.mp hcopy).1
    | some val =>
        refine ⟨val, rfl, ?_⟩
        rw [Lib.takeWhile_strncpyIn hcopy, takeWhile_take]
        have hstr : (((r.tail rest).drop field.length).takeWhile (· ≠ 0)).length ≤
            (r.tail rest).length := by
          have := (List.takeWhile_prefix (· ≠ 0) (l := (r.tail rest).drop field.length)).length_le
          omega
        rcases Nat.lt_or_ge maxlen (2 ^ 32) with hmax | hmax
        · rw [wlen_behind (by omega) (by omega) (by omega)]
        · have hwide : 2 ^ 32 ≤ wlen field (BitVec.ofNat 8 r.data.length) maxlen := by
            unfold wlen sizeModulus
            omega
          rw [List.take_of_length_le (by omega), List.take_of_length_le (by omega)]

theorem length_valueOf {rs : List BinkvRecord} (hsmall : ∀ r ∈ rs, r.data.length < 255)
    {v : List (BitVec 8)} (h : valueOf field rs = some v) : v.length < 255 := by
  obtain ⟨r, hfind, rfl⟩ := Option.map_eq_some_iff.mp h
  have hr := hsmall r (List.mem_of_find?_eq_some hfind)
  rw [r.length_data] at hr
  exact Nat.lt_of_le_of_lt (Nat.le_add_left _ _) hr

theorem BinkvRecord.answers_iff {expected : Option (List (BitVec 8))}
    (hexpected : ∀ v, expected = some v → v.length < 255)
    (hbegins : field.chars <+: r.tail rest) (hshort : (r.tail rest).length < 2 ^ 31)
    (hsmall : r.data.length < 255) :
    (∀ maxlen < sizeModulus, Answers expected maxlen
      (match strncpyIn ((r.tail rest).drop field.length)
          (wlen field (BitVec.ofNat 8 r.data.length) maxlen) with
        | none => .outside
        | some val => .value val)) ↔
      ∃ v, r.Reads field rest v ∧ expected = some v := by
  have hfield : field.length ≤ (r.tail rest).length := hbegins.length_le
  obtain ⟨hsize, -⟩ := @BinkvRecord.tail_parts r rest hsmall
  constructor
  · intro hanswers
    have hwide := hanswers (2 ^ 32) (by decide)
    cases hcopy : strncpyIn ((r.tail rest).drop field.length)
        (wlen field (BitVec.ofNat 8 r.data.length) (2 ^ 32)) with
    | none =>
        rw [hcopy] at hwide
        cases expected with
        | none => cases hwide
        | some w =>
            obtain ⟨_, hval, -⟩ := hwide
            cases hval
    | some val =>
        rw [hcopy] at hwide
        cases expected with
        | none => cases hwide
        | some w =>
            obtain ⟨_, hval, hw⟩ := hwide
            cases hval
            have hreads : ∃ v, r.Reads field rest v ∧ v.length < 2 ^ 32 := by
              unfold BinkvRecord.Reads
              by_cases hle : field.length ≤ r.data.length
              · refine ⟨_, by rw [if_pos hle], ?_⟩
                rw [List.length_drop]
                omega
              · rw [wlen_behind (by omega) (by omega) (Nat.le_refl _)] at hcopy
                have hnul : 0 ∈ (r.tail rest).drop field.length := by
                  by_contra hnone
                  rw [Lib.strncpyIn_eq_none.mpr
                    ⟨hnone, by rw [List.length_drop]; omega⟩] at hcopy
                  cases hcopy
                refine ⟨_, by rw [if_neg hle]; exact ⟨hnul, rfl⟩, ?_⟩
                have := (List.takeWhile_prefix (· ≠ 0)
                  (l := (r.tail rest).drop field.length)).length_le
                rw [List.length_drop] at this
                omega
            obtain ⟨v, hreads, hv⟩ := hreads
            obtain ⟨val', hcopy', hval'⟩ := r.reads_copy hreads hbegins hshort hsmall (2 ^ 32)
            rw [hcopy] at hcopy'
            cases hcopy'
            have hw' := hexpected w rfl
            exact ⟨v, hreads, congrArg some (take_all_eq (by omega) hv (hw.symm.trans hval'))⟩
  · rintro ⟨v, hreads, rfl⟩ maxlen -
    obtain ⟨val, hcopy, hval⟩ := r.reads_copy hreads hbegins hshort hsmall maxlen
    rw [hcopy]
    exact ⟨val, rfl, hval⟩

theorem binkvDecodeIn_answers {rs : List BinkvRecord} (hsmall : ∀ r ∈ rs, r.data.length < 255)
    (hshort : (rs.flatMap bytes).length + padding < 2 ^ 31)
    (hfuel : (rs.flatMap bytes).length + padding < fuel) :
    (∀ maxlen < sizeModulus, Answers (valueOf field rs) maxlen
      (binkvDecodeIn field maxlen fuel
        (rs.flatMap bytes ++ List.replicate padding 0xff))) ↔
      KeyFits field padding rs := by
  induction rs generalizing fuel with
  | nil =>
      refine ⟨fun _ => trivial, fun _ maxlen _ => ?_⟩
      obtain ⟨fuel, rfl⟩ := Nat.exists_eq_succ_of_ne_zero (Nat.ne_of_gt (Nat.zero_lt_of_lt hfuel))
      cases padding with
      | zero => rfl
      | succ n =>
          rw [List.flatMap_nil, List.nil_append, List.replicate_succ, binkvDecodeIn]
          rfl
  | cons r rs ih =>
      have hr := hsmall r (List.mem_cons_self ..)
      obtain ⟨rest, hrest⟩ : ∃ rest, rs.flatMap bytes ++
          List.replicate padding (0xff : BitVec 8) = rest := ⟨_, rfl⟩
      have hrestLength : rest.length = (rs.flatMap bytes).length + padding := by
        rw [← hrest, List.length_append, List.length_replicate]
      have hbytes := r.length_bytes
      rw [List.flatMap_cons, List.length_append] at hshort hfuel
      obtain ⟨fuel, rfl⟩ := Nat.exists_eq_succ_of_ne_zero (Nat.ne_of_gt (Nat.zero_lt_of_lt hfuel))
      have htailLength := r.length_tail rest
      obtain ⟨hsize, hff, hcrc, hdrop⟩ := @BinkvRecord.tail_parts r rest hr
      have hwhole : (BitVec.ofNat 8 r.data.length).toNat + 2 ≤ (r.tail rest).length := by omega
      have hturn (maxlen : ℕ) := @binkvDecodeIn_record field (BitVec.ofNat 8 r.data.length)
        (r.tail rest) maxlen fuel hff hwhole hcrc
      rw [List.flatMap_cons, List.append_assoc, hrest, r.bytes_append, KeyFits, hrest]
      by_cases hbegins : field.chars <+: r.tail rest
      · rw [if_pos hbegins]
        simp only [fun maxlen => (hturn maxlen).2.1 hbegins]
        exact r.answers_iff (fun v hv => length_valueOf hsmall hv) hbegins (by omega) hr
      · rw [if_neg hbegins]
        have hkey : r.key ≠ field := fun he => hbegins (r.reads_own he).1
        rw [valueOf_cons_of_ne hkey]
        by_cases hover : r.tail rest <+: field.chars
        · have hlt : (r.tail rest).length < field.length := by
            rcases Nat.lt_or_ge (r.tail rest).length field.length with hlt | hge
            · exact hlt
            · rw [hover.eq_of_length_le hge] at hbegins
              exact absurd (List.prefix_refl _) hbegins
          constructor
          · intro hanswers
            have hzero := hanswers 0 (by decide)
            rw [(hturn 0).1 hover hlt] at hzero
            cases hvalue : valueOf field rs with
            | none =>
                rw [hvalue] at hzero
                cases hzero
            | some v =>
                rw [hvalue] at hzero
                obtain ⟨_, hval, -⟩ := hzero
                cases hval
          · intro hfits
            exact absurd hover hfits.1
        · simp only [fun maxlen => (hturn maxlen).2.2 hbegins hover, hsize, hdrop]
          rw [← hrest, ih (fun x hx => hsmall x (List.mem_cons_of_mem r hx)) (by omega) (by omega)]
          exact ⟨fun h => ⟨by rw [hrest]; exact hover, h⟩, fun h => h.2⟩

end

/-! ## Pages of records, and pages of anything -/

/-- Every call of a run from an erased page stays inside it, and after the run
`binkv_decode_field` answers to the key. -/
def RoundTrips (writer : BinkvWriter) (len : ℕ) (rs : List BinkvRecord) (field : CStr) : Prop :=
  ∃ s ws, binkvRun writer (blankPage len) rs = some (s, ws) ∧
    ∀ maxlen < sizeModulus, Answers (valueOf field ws) maxlen (binkvDecode s.bytes field maxlen)

def FailuresKeep (page : BinkvPage) (r : BinkvRecord) (writer : BinkvWriter) : Prop :=
  ∀ rc page', binkvCall page r writer = some (rc, page') → rc ≠ 0 → page' = page

/-- `binkv_decode_field` comes to an end, and reads inside the page. -/
def DecodeSafe (page : List (BitVec 8)) (field : CStr) : Prop :=
  ∀ maxlen < sizeModulus, binkvDecode page field maxlen ≠ .running ∧
    binkvDecode page field maxlen ≠ .outside

/-- What is left of the page behind the records takes the new record with its whole CRC,
or is too short for the record without it. -/
def AddFits (page : List (BitVec 8)) (r : BinkvRecord) : Prop :=
  ∀ e, WalkEnd page 0 e →
    e < 2 ^ 31 ∧ (r.refused (page.length - e) 0 ∨ e + r.bytes.length ≤ page.length)

def RunFits (len : ℕ) (rs : List BinkvRecord) (field : CStr) : Prop :=
  RecordsFit len 0 rs ∧
    KeyFits field (len - ((taken len 0 rs).flatMap bytes).length) (taken len 0 rs)

section

variable {writer : BinkvWriter} {len : ℕ} {rs : List BinkvRecord} {field : CStr}
  {page : List (BitVec 8)} {r : BinkvRecord}

theorem written_blankPage : Written writer len [] (blankPage len) :=
  ⟨rfl, Nat.zero_le len, fun _ => rfl, fun _ hr => absurd hr List.not_mem_nil⟩

theorem roundTrips_iff (hlen : len < 2 ^ 31) :
    RoundTrips writer len rs field ↔ RunFits len rs field := by
  obtain ⟨hin, hout⟩ := binkvRun_cases hlen (@written_blankPage writer len) rs
  rw [List.flatMap_nil, List.length_nil] at hin hout
  by_cases hfit : RecordsFit len 0 rs
  · obtain ⟨s, hrun, hwritten⟩ := hin hfit
    rw [List.nil_append] at hwritten
    have hinside := hwritten.inside
    have hlength := hwritten.length
    have hanswers := @binkvDecodeIn_answers field (s.bytes.length + 1)
      (len - ((taken len 0 rs).flatMap bytes).length) (taken len 0 rs)
      hwritten.small (by omega) (by omega)
    rw [← hwritten.bytes] at hanswers
    constructor
    · rintro ⟨s', ws, hrun', hdecode⟩
      rw [hrun] at hrun'
      cases hrun'
      exact ⟨hfit, hanswers.mp hdecode⟩
    · rintro ⟨-, hkey⟩
      exact ⟨s, taken len 0 rs, hrun, hanswers.mpr hkey⟩
  · constructor
    · rintro ⟨s, ws, hrun, -⟩
      rw [hout hfit] at hrun
      cases hrun
    · exact fun h => absurd h.1 hfit

theorem not_roundTrips_long (hlen : len < 2 ^ 31) (htaken : ¬r.refused len 0)
    (hlong : len < r.bytes.length) : ¬RoundTrips writer len [r] field := by
  have hover : ¬RecordsFit len 0 [r] := by
    rw [RecordsFit, Int.natCast_zero, if_neg htaken]
    exact fun h => absurd h.1 (by omega)
  rw [roundTrips_iff hlen]
  exact not_and_of_not_left _ hover

theorem binkvEncodeAt_keeps {base len idx : ℤ} {t : ℤ × List (BitVec 8) × ℤ}
    (h : binkvEncodeAt page base len idx r = some t) (hrc : t.1 ≠ 0) : t.2 = (page, idx) := by
  unfold binkvEncodeAt at h
  split at h
  · cases h
    rfl
  · obtain ⟨page₁, -, h⟩ := Option.bind_eq_some_iff.mp h
    obtain ⟨page₂, -, h⟩ := Option.bind_eq_some_iff.mp h
    obtain ⟨page₃, -, h⟩ := Option.bind_eq_some_iff.mp h
    obtain ⟨page₄, -, h⟩ := Option.bind_eq_some_iff.mp h
    cases h
    exact absurd rfl hrc

theorem failuresKeep (s : BinkvPage) (r : BinkvRecord) (writer : BinkvWriter) :
    FailuresKeep s r writer := by
  intro rc s' hcall hrc
  cases writer with
  | encode =>
      unfold binkvCall at hcall
      obtain ⟨t, hencode, ht⟩ := Option.map_eq_some_iff.mp hcall
      cases ht
      rw [binkvEncodeAt_keeps hencode hrc]
  | add =>
      unfold binkvCall at hcall
      obtain ⟨t, hadd, ht⟩ := Option.map_eq_some_iff.mp hcall
      cases ht
      unfold binkvAddField at hadd
      split at hadd
      · obtain ⟨u, hencode, hu⟩ := Option.map_eq_some_iff.mp hadd
        cases hu
        rw [binkvEncodeAt_keeps hencode hrc]
      · cases hadd
      · cases hadd

theorem decodeSafe_iff (hpage : page.length < 2 ^ 31) :
    DecodeSafe page field ↔ DecodeInside field page := by
  rw [← decodeInside_iff hpage (Nat.lt_succ_self page.length)]
  exact ⟨fun h maxlen hmax => (h maxlen hmax).2,
    fun h maxlen hmax => ⟨binkvDecodeIn_ends (Nat.lt_succ_self _), h maxlen hmax⟩⟩

theorem binkvAddField_isSome_iff (hpage : page.length < 2 ^ 31) :
    (binkvAddField page r).isSome ↔ AddFits page r := by
  obtain ⟨e, hwalk⟩ := @walkEnd_exists 0 page page.length (by omega)
  have hfits : AddFits page r ↔
      e < 2 ^ 31 ∧ (r.refused (page.length - e) 0 ∨ e + r.bytes.length ≤ page.length) := by
    constructor
    · exact fun h => h e hwalk
    · intro h e' hwalk'
      rw [hwalk'.unique hwalk]
      exact h
  rw [hfits, binkvAddField_eq hpage hwalk]
  split
  · rename_i he
    rw [Option.isSome_map]
    constructor
    · intro hsome
      obtain ⟨t, ht⟩ := Option.isSome_iff_exists.mp hsome
      rcases binkvEncodeAt_some hpage ht with ⟨hrefused, -⟩ | ⟨-, -, hinside⟩
      · exact ⟨he, .inl hrefused⟩
      · exact ⟨he, .inr (by omega)⟩
    · rintro ⟨-, hroom⟩
      by_cases hrefused : r.refused (page.length - e) 0
      · unfold binkvEncodeAt
        rw [if_pos hrefused]
        rfl
      · have hencode := @binkvEncodeAt_fits page r e 0 (page.length - e) hpage hrefused
          (by have := hroom.resolve_left hrefused; omega)
        rw [Int.natCast_zero] at hencode
        rw [hencode]
        rfl
  · rename_i he
    exact ⟨fun h => absurd h (by decide), fun h => absurd h.1 he⟩

end

/-- Key/value pages: what a run of calls wrote is read back inside the page, and a page
of any content is read and extended inside it, each under its own condition. -/
theorem binkvPage_iff (writer : BinkvWriter) (len : ℕ) (rs : List BinkvRecord) (field : CStr)
    (page : BinkvPage) (r : BinkvRecord) (hlen : len < 2 ^ 31)
    (hpage : page.bytes.length < 2 ^ 31) :
    (RoundTrips writer len rs field ↔ RunFits len rs field) ∧
      FailuresKeep page r writer ∧
      (DecodeSafe page.bytes field ↔ DecodeInside field page.bytes) ∧
      ((binkvAddField page.bytes r).isSome ↔ AddFits page.bytes r) :=
  ⟨roundTrips_iff hlen, failuresKeep page r writer, decodeSafe_iff hpage,
    binkvAddField_isSome_iff hpage⟩

/-- Key `B` with the value `1`. -/
def shortRecord : BinkvRecord where
  key := ⟨[0x42], by decide⟩
  val := ⟨[0x31], by decide⟩

/-- Key `D` with the value `7F`. -/
def trimRecord : BinkvRecord where
  key := ⟨[0x44], by decide⟩
  val := ⟨[0x37, 0x46], by decide⟩

/-- Key `BA` with the value `1`. -/
def longerKey : BinkvRecord where
  key := ⟨[0x42, 0x41], by decide⟩
  val := ⟨[0x31], by decide⟩

def twoRecords : BinkvPage where
  bytes := shortRecord.bytes ++ trimRecord.bytes ++ List.replicate 21 0xff
  idx := 11

theorem twoRecords_run : RunFits 32 [shortRecord, trimRecord] trimRecord.key := by
  have htaken : taken 32 0 [shortRecord, trimRecord] = [shortRecord, trimRecord] := by
    rw [taken, if_neg (by decide), taken, if_neg (by decide), taken]
  refine ⟨?_, ?_⟩
  · rw [RecordsFit, if_neg (by decide), RecordsFit, if_neg (by decide), RecordsFit]
    decide
  · rw [htaken, KeyFits, if_neg (by decide), KeyFits, if_pos (by decide)]
    have hreads (rest : List (BitVec 8)) : trimRecord.Reads trimRecord.key rest [0x37, 0x46] := by
      rw [Reads, if_pos (by decide)]
      decide
    exact ⟨by decide, [0x37, 0x46], hreads _, by decide⟩

theorem twoRecords_inside : DecodeInside trimRecord.key twoRecords.bytes :=
  .skip (by decide) (by decide +kernel) (by decide +kernel) (by decide +kernel)
    (by decide +kernel)
    (.found (by decide) (by decide +kernel) (by decide +kernel) (by decide +kernel)
      (.inl (by decide)))

/-- Two records are written and the second is read back; of the page they make, every
read stays inside, and so does a third record. -/
theorem binkvPage_iff_twoRecords :
    RoundTrips .add 32 [shortRecord, trimRecord] trimRecord.key ∧
      FailuresKeep twoRecords longerKey .add ∧
      DecodeSafe twoRecords.bytes trimRecord.key ∧
      AddFits twoRecords.bytes longerKey := by
  obtain ⟨hround, hkeep, hsafe, hadd⟩ := binkvPage_iff .add 32 [shortRecord, trimRecord]
    trimRecord.key twoRecords longerKey (by decide) (by decide +kernel)
  exact ⟨hround.mpr twoRecords_run, hkeep, hsafe.mpr twoRecords_inside, hadd.mp (by decide +kernel)⟩

/-- Key `B` with 253 characters behind it: the length byte, the data and one byte of the
CRC are a page of 256 bytes. -/
def pageRecord : BinkvRecord where
  key := ⟨[0x42], by decide⟩
  val := ⟨List.replicate 253 0x78, fun h => absurd (List.eq_of_mem_replicate h) (by decide)⟩

/-- The CRC of the long record ends behind the page, and to the key `B` the record of
`BA` answers `A1`. -/
theorem not_roundTrips :
    ¬RoundTrips .encode 256 [pageRecord] pageRecord.key ∧
      ¬RoundTrips .add 256 [longerKey] shortRecord.key := by
  constructor
  · have hkey : pageRecord.key.length = 1 := rfl
    have hval : pageRecord.val.length = 253 := List.length_replicate
    have hdata := pageRecord.length_data
    obtain ⟨-, -, htlen⟩ := pageRecord.lengths (by omega)
    rw [hkey, hval] at hdata htlen
    have htaken : ¬pageRecord.refused 256 0 := by
      unfold refused
      omega
    exact not_roundTrips_long (by decide) htaken
      (by rw [pageRecord.length_bytes, hdata]; decide)
  · rw [roundTrips_iff (by decide)]
    rintro ⟨-, hkey⟩
    have htaken : taken 256 0 [longerKey] = [longerKey] := by
      rw [taken, if_neg (by decide), taken]
    rw [htaken, KeyFits, if_pos] at hkey
    · obtain ⟨v, -, hvalue⟩ := hkey
      exact absurd hvalue (by rw [show valueOf shortRecord.key [longerKey] = none by decide]; simp)
    · rw [tail, data, List.append_assoc, List.append_assoc]
      exact List.cons_prefix_cons.mpr ⟨rfl, List.nil_prefix⟩

end BladeRF
