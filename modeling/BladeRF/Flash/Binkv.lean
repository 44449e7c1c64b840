/-
# `Flash.Binkv` — the key/value records of OTP, calibration and metadata pages

A record is a length byte, key and value, and a CRC over what precedes it.  The
host writes records with `binkv_encode_field` and reads them back with
`binkv_decode_field`; the FX3 reads the same pages with `NuandExtractField`, a
copy of the host's reader that has since gone its own way.  Both readers stop
at the first record that starts with the key, at an erased byte and at the end
of the page.
-/
import BladeRF.Lib.CString

namespace BladeRF

open Lib (CStr Memory bytesAt writeBytes strncmpEq strncpy)

/-- One shift of `zcrc`. -/
def zcrcShift (ret : BitVec 16) : BitVec 16 :=
  if ret &&& 0x8000 = 0 then ret <<< 1 else (ret <<< 1) ^^^ 0x1021

/-- One byte of `zcrc`. -/
def zcrcByte (ret : BitVec 16) (b : BitVec 8) : BitVec 16 :=
  Nat.repeat zcrcShift 8 (ret ^^^ (b.setWidth 16 <<< 8))

def zcrc (data : List (BitVec 8)) : BitVec 16 := data.foldl zcrcByte 0

/-- The size of `size_t`, as a modulus. -/
def sizeModulus : ℕ := 2 ^ 64

structure BinkvRecord where
  key : CStr
  val : CStr
  deriving DecidableEq

namespace BinkvRecord

def data (r : BinkvRecord) : List (BitVec 8) := r.key.chars ++ r.val.chars

def body (r : BinkvRecord) : List (BitVec 8) := BitVec.ofNat 8 r.data.length :: r.data

def bytes (r : BinkvRecord) : List (BitVec 8) :=
  r.body ++ Lib.leBytes 2 (zcrc r.body).toNat

end BinkvRecord

/-- `binkv_encode_field(ptr, len, idx, key, val)`: refused when the record is
too long for its length byte or for the page, otherwise the new page and
index.  The CRC is not part of the check. -/
def binkvEncodeField (ptr : Memory) (len idx : ℕ) (r : BinkvRecord) : Option (Memory × ℕ) :=
  let tlen := r.data.length + 1
  if tlen ≥ 256 ∨ idx + tlen ≥ len then none
  else some (writeBytes ptr idx r.bytes, idx + tlen + 2)

/-- A sequence of fields, each encoded behind the one before it. -/
def binkvEncodeFields (len : ℕ) : Memory × ℕ → List BinkvRecord → Option (Memory × ℕ)
  | p, [] => some p
  | p, r :: rs => (binkvEncodeField p.1 len p.2 r).bind fun q => binkvEncodeFields len q rs

/-- The loop of `binkv_decode_field` from `ub` on. -/
def binkvDecodeFrom (ptr : Memory) (len : ℕ) (field : CStr) (maxlen : ℕ) :
    ℕ → ℕ → Option (List (BitVec 8))
  | 0, _ => none
  | fuel + 1, ub =>
      if ub < len then
        let c := (ptr ub).toNat
        if c = 255 then none
        else if Lib.leNat (bytesAt ptr (ub + c + 1) 2) = (zcrc (bytesAt ptr ub (c + 1))).toNat then
          if strncmpEq ptr (ub + 1) field then
            -- `c - flen` is computed in size_t
            let wlen := min ((c + sizeModulus - field.length) % sizeModulus) maxlen
            some (strncpy ptr (ub + 1 + field.length) wlen)
          else binkvDecodeFrom ptr len field maxlen fuel (ub + c + 3)
        else none
      else none

/-- `binkv_decode_field`: the bytes stored in `val`, to which a terminator is
added.  `maxlen` does not count the terminator. -/
def binkvDecodeField (ptr : Memory) (len : ℕ) (field : CStr) (maxlen : ℕ) :
    Option (List (BitVec 8)) :=
  binkvDecodeFrom ptr len field maxlen len 0

/-- The loop of `NuandExtractField` from `ub` on.  The checksums are compared
with `|| 1`, so they decide nothing. -/
def nuandExtractFrom (ptr : Memory) (len : ℕ) (field : CStr) (maxlen : ℕ) :
    ℕ → ℕ → Option (List (BitVec 8))
  | 0, _ => none
  | fuel + 1, ub =>
      if ub < len then
        let c := (ptr ub).toNat
        if c = 255 then none
        else if len - ub < c + 3 then none
        else if strncmpEq ptr (ub + 1) field then
          if c < field.length then none
          else
            let wlen := min (c - field.length) (if maxlen > 0 then maxlen - 1 else 0)
            some (strncpy ptr (ub + 1 + field.length) wlen)
        else nuandExtractFrom ptr len field maxlen fuel (ub + c + 3)
      else none

/-- `NuandExtractField`: the bytes stored in `val`, to which a terminator is
added.  `maxlen` counts the terminator. -/
def nuandExtractField (ptr : Memory) (len : ℕ) (field : CStr) (maxlen : ℕ) :
    Option (List (BitVec 8)) :=
  nuandExtractFrom ptr len field maxlen len 0

/-! ## Pages of valid records -/

/-- From `ub` on the page holds the records `rs`, each with its CRC inside the
page, and then ends or is erased. -/
inductive HoldsRecords (ptr : Memory) (len : ℕ) : ℕ → List BinkvRecord → Prop
  | full : HoldsRecords ptr len len []
  | erased {ub : ℕ} : ub < len → ptr ub = 0xff → HoldsRecords ptr len ub []
  | record {ub : ℕ} {r : BinkvRecord} {rs : List BinkvRecord} :
      r.data.length < 255 → bytesAt ptr ub r.bytes.length = r.bytes →
      ub + r.bytes.length ≤ len → HoldsRecords ptr len (ub + r.bytes.length) rs →
      HoldsRecords ptr len ub (r :: rs)

namespace BinkvRecord

variable (r : BinkvRecord)

@[simp] theorem length_body : r.body.length = r.data.length + 1 := by simp [body]

@[simp] theorem length_bytes : r.bytes.length = r.data.length + 3 := by simp [bytes]

theorem length_data : r.data.length = r.key.length + r.val.length := by
  simp [data, CStr.length]

end BinkvRecord

section

variable {ptr : Memory} {len ub : ℕ} {r : BinkvRecord}

structure RecordAt (ptr : Memory) (ub : ℕ) (r : BinkvRecord) : Prop where
  size : (ptr ub).toNat = r.data.length
  data : bytesAt ptr (ub + 1) r.data.length = r.data
  crc : Lib.leNat (bytesAt ptr (ub + r.data.length + 1) 2) =
    (zcrc (bytesAt ptr ub (r.data.length + 1))).toNat

theorem recordAt_of_bytes (hlen : r.data.length < 255)
    (h : bytesAt ptr ub r.bytes.length = r.bytes) : RecordAt ptr ub r := by
  have hsplit : r.bytes.length = r.body.length + (Lib.leBytes 2 (zcrc r.body).toNat).length := by
    simp [BinkvRecord.bytes]
  rw [hsplit, BinkvRecord.bytes] at h
  obtain ⟨hbody, hcrc⟩ := Lib.bytesAt_append h
  have hcons : bytesAt ptr ub (1 + r.data.length) =
      [BitVec.ofNat 8 r.data.length] ++ r.data := by
    rw [Nat.add_comm]
    simpa [BinkvRecord.body] using hbody
  obtain ⟨hsize, hdata⟩ := @Lib.bytesAt_append _ _ [BitVec.ofNat 8 r.data.length] _ hcons
  refine ⟨?_, hdata, ?_⟩
  · have h0 : ptr ub = BitVec.ofNat 8 r.data.length := by simpa [bytesAt] using hsize
    rw [h0, BitVec.toNat_ofNat, Nat.mod_eq_of_lt (by omega)]
  · rw [BinkvRecord.length_body, ← Nat.add_assoc, Lib.length_leBytes] at hcrc
    rw [BinkvRecord.length_body] at hbody
    rw [hcrc, hbody, Lib.leNat_leBytes_of_lt]
    exact (zcrc r.body).isLt

theorem strncmpEq_record (h : RecordAt ptr ub r) {field : CStr}
    (hf : field.length ≤ r.data.length) :
    strncmpEq ptr (ub + 1) field = decide (field.chars <+: r.data) := by
  unfold strncmpEq
  rw [Lib.bytesAt_take ptr (ub + 1) hf, h.data, CStr.length]
  congr 1
  rw [eq_iff_iff]
  constructor
  · intro htake
    exact htake ▸ List.take_prefix _ _
  · intro hpre
    exact (List.prefix_iff_eq_take.mp hpre).symm

theorem BinkvRecord.noNul (r : BinkvRecord) : 0 ∉ r.data := by
  rw [BinkvRecord.data, List.mem_append]
  rintro (h | h)
  · exact r.key.noNul h
  · exact r.val.noNul h

theorem strncpy_record (h : RecordAt ptr ub r) {k n : ℕ} (hk : k ≤ r.data.length) :
    strncpy ptr (ub + 1 + k) (min (r.data.length - k) n) = (r.data.drop k).take n := by
  have hdata : bytesAt ptr (ub + 1 + k) (r.data.length - k) = r.data.drop k := by
    have hsplit : r.data.length = k + (r.data.length - k) := by omega
    have h2 := h.data
    rw [hsplit, Lib.bytesAt_add] at h2
    have hdrop := congrArg (List.drop k) h2
    rwa [List.drop_left' (by simp)] at hdrop
  have hlen : ((r.data.drop k).take n).length = min (r.data.length - k) n := by
    simp [Nat.min_comm]
  rw [← hlen]
  apply Lib.strncpy_eq
  · intro h0
    exact r.noNul (List.mem_of_mem_drop (List.mem_of_mem_take h0))
  · rw [Lib.bytesAt_take _ _ (by simp : ((r.data.drop k).take n).length ≤ r.data.length - k),
      hdata, hlen, ← List.take_take, List.take_of_length_le (by simp)]

end

/-! ## What the two readers find -/

def findRecord (field : CStr) (rs : List BinkvRecord) : Option BinkvRecord :=
  rs.find? fun r => decide (field.chars <+: r.data)

/-- No record is shorter than the key, so no comparison runs past a record. -/
def Comparable (field : CStr) (rs : List BinkvRecord) : Prop :=
  ∀ r ∈ rs, field.length ≤ r.data.length

section

variable {ptr : Memory} {len ub : ℕ} {rs : List BinkvRecord} {field : CStr}

section

variable (h : HoldsRecords ptr len ub rs)

include h

theorem walk_eq {walk : ℕ → ℕ → Option (List (BitVec 8))} {view : BinkvRecord → List (BitVec 8)}
    (hc : Comparable field rs)
    (hend : ∀ fuel ub, ub = len ∨ ub < len ∧ ptr ub = 0xff → walk (fuel + 1) ub = none)
    (hstep : ∀ fuel ub r, RecordAt ptr ub r → r.data.length < 255 →
      field.length ≤ r.data.length → ub + r.data.length + 3 ≤ len →
      walk (fuel + 1) ub = if field.chars <+: r.data then some (view r)
        else walk fuel (ub + r.data.length + 3)) :
    ∀ fuel, rs.length < fuel → walk fuel ub = (findRecord field rs).map view := by
  intro fuel hfuel
  induction h generalizing fuel with
  | full =>
      obtain ⟨fuel, rfl⟩ := Nat.exists_eq_succ_of_ne_zero hfuel.ne'
      exact hend fuel len (.inl rfl)
  | @erased ub hlt hff =>
      obtain ⟨fuel, rfl⟩ := Nat.exists_eq_succ_of_ne_zero hfuel.ne'
      exact hend fuel ub (.inr ⟨hlt, hff⟩)
  | @record ub r rs hlen hbytes hfits hrest ih =>
      obtain ⟨fuel, rfl⟩ := Nat.exists_eq_succ_of_ne_zero (Nat.zero_lt_of_lt hfuel).ne'
      rw [BinkvRecord.length_bytes, ← Nat.add_assoc] at hfits ih
      rw [hstep fuel ub r (recordAt_of_bytes hlen hbytes) hlen (hc r List.mem_cons_self) hfits,
        ih (fun r hr => hc r (List.mem_cons_of_mem _ hr)) fuel (Nat.lt_of_succ_lt_succ hfuel)]
      by_cases hpre : field.chars <+: r.data <;> simp [findRecord, hpre]

theorem nuandExtractFrom_eq (hc : Comparable field rs) (maxlen : ℕ) : ∀ fuel, rs.length < fuel →
    nuandExtractFrom ptr len field maxlen fuel ub =
      (findRecord field rs).map fun r => (r.data.drop field.length).take (maxlen - 1) := by
  refine walk_eq h hc ?_ fun fuel ub r hrec hlen hkey hfits => ?_
  · rintro fuel ub (rfl | ⟨hlt, hff⟩)
    · simp [nuandExtractFrom]
    · simp [nuandExtractFrom, hlt, hff]
  · have hmax : (if maxlen > 0 then maxlen - 1 else 0) = maxlen - 1 := by
      split_ifs <;> omega
    simp only [nuandExtractFrom, hrec.size, strncmpEq_record hrec hkey, hmax, decide_eq_true_eq]
    rw [if_pos (by omega), if_neg (by omega), if_neg (by omega),
      if_neg (c := r.data.length < field.length) (by omega), strncpy_record hrec hkey]

theorem binkvDecodeFrom_eq (hc : Comparable field rs) (maxlen : ℕ) : ∀ fuel, rs.length < fuel →
    binkvDecodeFrom ptr len field maxlen fuel ub =
      (findRecord field rs).map fun r => (r.data.drop field.length).take maxlen := by
  refine walk_eq h hc ?_ fun fuel ub r hrec hlen hkey hfits => ?_
  · rintro fuel ub (rfl | ⟨hlt, hff⟩)
    · simp [binkvDecodeFrom]
    · simp [binkvDecodeFrom, hlt, hff]
  · have hsub : (r.data.length + sizeModulus - field.length) % sizeModulus =
        r.data.length - field.length := by
      unfold sizeModulus
      omega
    simp only [binkvDecodeFrom, hrec.size, strncmpEq_record hrec hkey, hrec.crc, hsub,
      decide_eq_true_eq]
    rw [if_pos (by omega), if_neg (by omega), if_pos trivial, strncpy_record hrec hkey]

theorem HoldsRecords.length_le : ub + 3 * rs.length ≤ len := by
  induction h with
  | full => simp
  | erased hlt _ => simpa using hlt.le
  | record _ _ _ _ ih =>
      rw [BinkvRecord.length_bytes] at ih
      rw [List.length_cons]
      omega

theorem HoldsRecords.congr {ptr' : Memory}
    (hm : ∀ i < len, ptr' i = ptr i) : HoldsRecords ptr' len ub rs := by
  induction h with
  | full => exact .full
  | erased hlt hff => exact .erased hlt ((hm _ hlt).trans hff)
  | record hlen hbytes hfits _ ih =>
      refine .record hlen ?_ hfits ih
      rw [← hbytes]
      simp only [Lib.length_bytesAt]
      exact Lib.bytesAt_congr fun i _ hi => hm i (by omega)

end

theorem HoldsRecords.fuel (h : HoldsRecords ptr len 0 rs) (hlen : 0 < len) : rs.length < len := by
  have := h.length_le
  omega

end

/-! ## Pages written by the encoder -/

theorem holdsRecords_of_encode {len : ℕ} :
    ∀ (rs : List BinkvRecord) (m m' : Memory) (idx idx' : ℕ),
      (∀ i, idx ≤ i → i < len → m i = 0xff) →
      binkvEncodeFields len (m, idx) rs = some (m', idx') → idx' ≤ len →
      HoldsRecords m' len idx rs ∧ (∀ i < idx, m' i = m i) ∧ idx ≤ idx' := by
  intro rs
  induction rs with
  | nil =>
      intro m m' idx idx' hff henc hfits
      obtain ⟨rfl, rfl⟩ : m = m' ∧ idx = idx' := by simpa [binkvEncodeFields] using henc
      refine ⟨?_, fun _ _ => rfl, le_rfl⟩
      rcases Nat.lt_or_ge idx len with hlt | hge
      · exact .erased hlt (hff idx le_rfl hlt)
      · rw [Nat.le_antisymm hfits hge]
        exact .full
  | cons r rs ih =>
      intro m m' idx idx' hff henc hfits
      obtain ⟨⟨m₁, idx₁⟩, hone, hrest⟩ := Option.bind_eq_some_iff.mp henc
      simp only [binkvEncodeField] at hone
      split_ifs at hone with hbad
      obtain ⟨rfl, rfl⟩ : writeBytes m idx r.bytes = m₁ ∧ idx + (r.data.length + 1) + 2 = idx₁ := by
        simpa using hone
      have hend : idx + (r.data.length + 1) + 2 = idx + r.bytes.length := by simp; omega
      rw [hend] at hrest
      have hff' : ∀ i, idx + r.bytes.length ≤ i → i < len → writeBytes m idx r.bytes i = 0xff := by
        intro i hi hlt
        rw [Lib.writeBytes_ge hi]
        exact hff i (by omega) hlt
      obtain ⟨hhold, hkeep, hle⟩ := ih _ _ _ _ hff' hrest hfits
      refine ⟨.record (by omega) ?_ (by omega) hhold, fun i hi => ?_, by omega⟩
      · have hkept : bytesAt _ idx r.bytes.length =
            bytesAt (writeBytes m idx r.bytes) idx r.bytes.length :=
          Lib.bytesAt_congr fun i _ hi => hkeep i hi
        rw [hkept]
        exact Lib.bytesAt_writeBytes m idx r.bytes
      · rw [hkeep i (by omega), Lib.writeBytes_lt hi]

end BladeRF
