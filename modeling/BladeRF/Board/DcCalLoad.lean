/-
# `Board.DcCalLoad` — loading a DC calibration table and interpolating in it

The loader checks the length of the buffer with the record size of version 1 and
accepts a table without entries.  The interpolation takes both values from the
lower entry, so between two entries it returns the lower one's corrections.
-/
import BladeRF.Board.DcCalTable
import BladeRF.Lib.Bytes
import Mathlib.Data.Rat.Floor

namespace BladeRF

variable (buf : List (BitVec 8)) (version : BitVec 32)

/-- The number in the `w` bytes from `off` on. -/
def leAt (off w : ℕ) : ℕ := Lib.leNat ((buf.drop off).take w)

def calMetaSize : ℕ := 0x18

/-- `DC_CAL_TBL_ENTRY_SIZE`, of the checks. -/
def calEntrySize : ℕ := 8

def calRecordSize : ℕ := if 2 ≤ version.toNat then 20 else 8

def DcCorrection.place : DcCorrection → ℕ
  | .dcI => 4
  | .dcQ => 6
  | .maxDcI => 8
  | .maxDcQ => 10
  | .midDcI => 12
  | .midDcQ => 14
  | .minDcI => 16
  | .minDcQ => 18

/-- The record at `off`; what it does not have stays as `malloc` left it. -/
def entryAt (junk : DcCorrection → BitVec 16) (off : ℕ) : DcCalEntry where
  freq := leAt buf off 4
  val c := if c.place < calRecordSize version then BitVec.ofNat 16 (leAt buf (off + c.place) 2)
    else junk c

/-- The loop over the entries; none where it reads behind the buffer. -/
def readEntries (junk : ℕ → DcCorrection → BitVec 16) : ℕ → ℕ → ℕ → Option (List DcCalEntry)
  | 0, _, _ => some []
  | n + 1, i, off =>
      if off + calRecordSize version ≤ buf.length then
        (readEntries junk n (i + 1) (off + calRecordSize version)).map
          (entryAt buf version (junk i) off :: ·)
      else none

/-- What the two `malloc` give. -/
structure CalMemory where
  tbl : Bool
  entries : Bool
  junk : ℕ → DcCorrection → BitVec 16

def calVersion : BitVec 32 := BitVec.ofNat 32 (leAt buf 6 4)

def calEntries : ℕ := leAt buf 10 4

/-- `dc_cal_tbl_load`: NULL or a table. -/
def dcCalTblLoad (mem : CalMemory) : Option (Option DcCalTbl) :=
  if buf.length < calMetaSize + calEntrySize then some none
  else if leAt buf 0 2 ≠ 0x1ab1 then some none
  else if !mem.tbl then some none
  else if buf.length < calMetaSize + calEntrySize * calEntries buf then some none
  else if !mem.entries then some none
  else
    match readEntries buf (calVersion buf) mem.junk (calEntries buf) 0 calMetaSize with
    | none => none
    | some entries =>
        if h : entries.length < 2 ^ 32 then
          some (some ⟨calVersion buf, calEntries buf / 2, entries, h⟩)
        else none

inductive CalImageType where
  | rxDcCal
  | txDcCal
  | other
  deriving DecidableEq

/-- `dc_cal_tbl_image_load`: its status and the table, where it sets one.  `img` is what
`bladerf_image_read` returns and reads, if there was memory. -/
def dcCalTblImageLoad (mem : CalMemory) (img : Option (ℤ × CalImageType × List (BitVec 8))) :
    Option (ℤ × Option DcCalTbl) :=
  match img with
  | none => some (-4, none)
  | some (status, type, data) =>
      if status ≠ 0 then some (status, none)
      else if type = .rxDcCal ∨ type = .txDcCal then (dcCalTblLoad data mem).map (0, ·)
      else some (-3, none)

/-- `interp`, on rationals. -/
def interp (x0 y0 x1 y1 x : ℕ) : ℕ :=
  let num : ℚ := y1 - y0
  let den : ℚ := x1 - x0
  let m := if den = 0 then (2 ^ 24 - 1) * 2 ^ 104 else num / den
  ⌊(unsignedSub x x0 : ℚ) * m + y0⌋.toNat

namespace DcCalTbl

variable (tbl : DcCalTbl) (freq : ℕ)

def dcCalInterpEntry (idxLow idxHigh : ℕ) (entry : DcCalEntry) : Option DcCalEntry := do
  let low ← tbl.entries[idxLow]?
  let high ← tbl.entries[idxHigh]?
  return { entry with
    val := fun c =>
      let y := ((low.val c).signExtend 32).toNat
      BitVec.ofNat 16 (interp low.freq y high.freq y freq) }

def dcCalTblEntry (fuel : ℕ) (entry : DcCalEntry) : Option DcCalEntry := do
  let idx ← tbl.dcCalTblLookup freq fuel
  let found ← tbl.entries[idx]?
  if found.freq = freq then return found
  else if idx = tbl.lastIdx then tbl.dcCalInterpEntry freq (unsignedSub idx 1) idx entry
  else tbl.dcCalInterpEntry freq idx (idx + 1) entry

end DcCalTbl

/-! ## The load -/

variable {buf version}

theorem readEntries_eq (junk : ℕ → DcCorrection → BitVec 16) :
    ∀ {n i off : ℕ}, off ≤ buf.length → readEntries buf version junk n i off =
      if off + n * calRecordSize version ≤ buf.length then
        some ((List.range n).map fun k =>
          entryAt buf version (junk (i + k)) (off + k * calRecordSize version))
      else none
  | 0, i, off, h => by simp [readEntries, h]
  | n + 1, i, off, h => by
      have hsucc := Nat.add_one_mul n (calRecordSize version)
      unfold readEntries
      split
      · rename_i hread
        rw [readEntries_eq junk hread]
        have hiff : off + calRecordSize version + n * calRecordSize version ≤ buf.length ↔
            off + (n + 1) * calRecordSize version ≤ buf.length := by omega
        simp only [hiff]
        split
        · rw [Option.map_some, List.range_succ_eq_map, List.map_cons, List.map_map]
          congr 3
          · simp
          · funext k
            simp only [Function.comp, Nat.succ_eq_add_one, Nat.add_one_mul]
            rw [show i + 1 + k = i + (k + 1) by omega, Nat.add_assoc, Nat.add_comm (calRecordSize _)]
        · rfl
      · rw [if_neg (by omega)]

variable (buf) (mem : CalMemory)

def Accepts : Prop :=
  calMetaSize + calEntrySize ≤ buf.length ∧ leAt buf 0 2 = 0x1ab1 ∧ mem.tbl ∧
    calMetaSize + calEntrySize * calEntries buf ≤ buf.length ∧ mem.entries

def Fits : Prop :=
  calMetaSize + calEntries buf * calRecordSize (calVersion buf) ≤ buf.length

def bufEntries : List DcCalEntry :=
  (List.range (calEntries buf)).map fun k =>
    entryAt buf (calVersion buf) (mem.junk k) (calMetaSize + k * calRecordSize (calVersion buf))

variable {buf mem}

theorem dcCalTblLoad_cases :
    ¬ Accepts buf mem ∧ dcCalTblLoad buf mem = some none ∨
      Accepts buf mem ∧ ¬ Fits buf ∧ dcCalTblLoad buf mem = none ∨
      Accepts buf mem ∧ Fits buf ∧ ∃ tbl, dcCalTblLoad buf mem = some (some tbl) ∧
        tbl.currIdx = calEntries buf / 2 ∧ tbl.entries = bufEntries buf mem := by
  by_cases h : Accepts buf mem
  · refine .inr ?_
    simp only [h, true_and]
    obtain ⟨hlen, hmagic, htbl, hsize, hentries⟩ := h
    have hn : calEntries buf < 2 ^ 32 :=
      (Lib.leNat_lt _).trans_le (Nat.pow_le_pow_right (by decide) (List.length_take_le _ _))
    unfold dcCalTblLoad Fits
    rw [if_neg (Nat.not_lt.mpr hlen), if_neg (not_not.mpr hmagic), htbl, if_neg (by simp),
      if_neg (Nat.not_lt.mpr hsize), hentries, if_neg (by simp),
      readEntries_eq mem.junk (by omega)]
    by_cases hfit : calMetaSize + calEntries buf * calRecordSize (calVersion buf) ≤ buf.length
    · rw [if_pos hfit]
      simp only [Nat.zero_add]
      exact .inr ⟨hfit, _, dif_pos (by simpa using hn), rfl, rfl⟩
    · rw [if_neg hfit]
      exact .inl ⟨hfit, rfl⟩
  · refine .inl ⟨h, ?_⟩
    unfold dcCalTblLoad
    split_ifs <;> first | rfl | exact absurd (by simp_all [Accepts]) h

/-! ## The interpolation -/

theorem interp_same {x0 x1 y x : ℕ} (h : x0 ≠ x1) : interp x0 y x1 y x = y := by
  have hden : (x1 : ℚ) - x0 ≠ 0 := sub_ne_zero.mpr (Nat.cast_injective.ne h.symm)
  simp [interp, hden]

/-- The value at `t` of a gap `g`, rounded toward zero. -/
def lerp (y0 y1 t g : ℤ) : ℤ := (y0 * g + (y1 - y0) * t).tdiv g

/-- The value rises or falls away from zero, by less than one so far. -/
def Flat (y0 y1 t g : ℤ) : Prop :=
  y1 = y0 ∨ 0 ≤ y0 ∧ y0 < y1 ∧ (y1 - y0) * t < g ∨ y0 ≤ 0 ∧ y1 < y0 ∧ (y0 - y1) * t < g

theorem tdiv_away_iff {y p g : ℤ} (hy : 0 ≤ y) (hp : 0 < p) (hg : 0 < g) :
    (y * g + p).tdiv g = y ↔ p < g := by
  have hnum : 0 ≤ y * g + p := Int.add_nonneg (Int.mul_nonneg hy hg.le) hp.le
  rw [Int.tdiv_eq_ediv_of_nonneg hnum, Int.add_comm, Int.add_mul_ediv_right _ _ hg.ne']
  refine ⟨fun h => ?_, fun h => by rw [Int.ediv_eq_zero_of_lt hp.le h, Int.zero_add]⟩
  by_contra hle
  have := (Int.le_ediv_iff_mul_le hg).mpr (show 1 * g ≤ p by omega)
  omega

theorem tdiv_toward_ne {y p g : ℤ} (hy : 0 < y) (hp : 0 < p) (hg : 0 < g) :
    (y * g - p).tdiv g ≠ y := by
  rcases Int.le_total 0 (y * g - p) with h | h
  · have hneg := Int.ediv_neg_of_neg_of_pos (Int.neg_neg_of_pos hp) hg
    rw [Int.tdiv_eq_ediv_of_nonneg h, Int.sub_eq_add_neg, Int.add_comm,
      Int.add_mul_ediv_right _ _ hg.ne']
    omega
  · have := Int.tdiv_nonneg (Int.neg_nonneg_of_nonpos h) hg.le
    rw [Int.neg_tdiv] at this
    omega

theorem lerp_eq_left_iff {y0 y1 t g : ℤ} (ht : 0 < t) (hg : t < g) :
    lerp y0 y1 t g = y0 ↔ Flat y0 y1 t g := by
  unfold lerp Flat
  have hpos : 0 < g := ht.trans hg
  rcases lt_trichotomy y1 y0 with h | rfl | h
  · have hd : 0 < (y0 - y1) * t := Int.mul_pos (by omega) ht
    rw [show y0 * g + (y1 - y0) * t = -(-y0 * g + (y0 - y1) * t) by ring, Int.neg_tdiv]
    rcases le_or_gt y0 0 with hy | hy
    · have := tdiv_away_iff (Int.neg_nonneg_of_nonpos hy) hd hpos
      omega
    · have := tdiv_toward_ne hy hd hpos
      rw [show -y0 * g + (y0 - y1) * t = -(y0 * g - (y0 - y1) * t) by ring, Int.neg_tdiv]
      omega
  · simp [Int.mul_tdiv_cancel _ hpos.ne']
  · have hd : 0 < (y1 - y0) * t := Int.mul_pos (by omega) ht
    rcases lt_or_ge y0 0 with hy | hy
    · have := tdiv_toward_ne (Int.neg_pos_of_neg hy) hd hpos
      rw [show y0 * g + (y1 - y0) * t = -(-y0 * g - (y1 - y0) * t) by ring, Int.neg_tdiv]
      omega
    · have := tdiv_away_iff hy hd hpos
      omega

namespace DcCalTbl

variable {tbl : DcCalTbl} {freq fuel : ℕ}

theorem dcCalInterpEntry_low {lo hi : ℕ} {low high : DcCalEntry} (entry : DcCalEntry)
    (hlow : tbl.entries[lo]? = some low) (hhigh : tbl.entries[hi]? = some high)
    (hne : low.freq ≠ high.freq) :
    tbl.dcCalInterpEntry freq lo hi entry = some { entry with val := low.val } := by
  unfold dcCalInterpEntry
  rw [hlow, hhigh, Option.bind_eq_bind, Option.bind_some, Option.bind_some]
  simp only [interp_same hne, BitVec.ofNat_toNat]
  congr
  funext c
  ext k hk
  simpa [BitVec.getLsbD_signExtend, hk] using fun _ => hk.trans (by decide)

def Between (tbl : DcCalTbl) (freq : ℕ) (low high : DcCalEntry) : Prop :=
  ∃ i, tbl.entries[i]? = some low ∧ tbl.entries[i + 1]? = some high ∧
    low.freq < freq ∧ freq < high.freq

/-- No correction has moved a whole step away from the lower entry yet. -/
def Steady (tbl : DcCalTbl) (freq : ℕ) : Prop :=
  ∀ low high, tbl.Between freq low high → ∀ c,
    Flat (low.val c).toInt (high.val c).toInt (freq - low.freq) (high.freq - low.freq)

/-- The entry at its own frequency, and between two entries the interpolation. -/
def EntryRight (tbl : DcCalTbl) (freq fuel : ℕ) (entry : DcCalEntry) : Prop :=
  ∃ out, tbl.dcCalTblEntry freq fuel entry = some out ∧
    (∀ e ∈ tbl.entries, e.freq = freq → out = e) ∧
    ∀ low high, tbl.Between freq low high → ∀ c,
      min (low.val c).toInt (high.val c).toInt ≤ (out.val c).toInt ∧
        (out.val c).toInt ≤ max (low.val c).toInt (high.val c).toInt ∧
        (out.val c).toInt = lerp (low.val c).toInt (high.val c).toInt (freq - low.freq)
          (high.freq - low.freq)

theorem freqAt_of_some {i : ℕ} {e : DcCalEntry} (h : tbl.entries[i]? = some e) :
    i < tbl.nEntries ∧ tbl.freqAt i = e.freq :=
  ⟨(List.getElem?_eq_some_iff.mp h).1, by simp [freqAt, h]⟩

theorem Increasing.lt_of_freqAt_lt (hinc : tbl.Increasing) {i j : ℕ} (hi : i < tbl.nEntries)
    (h : tbl.freqAt i < tbl.freqAt j) : i < j := by
  by_contra hle
  rcases Nat.eq_or_lt_of_le (Nat.not_lt.mp hle) with rfl | hlt
  · exact lt_irrefl _ h
  · exact lt_asymm h (hinc j i hlt hi)

theorem dcCalTblEntry_none (entry : DcCalEntry) (hcurr : tbl.currIdx = tbl.nEntries / 2)
    (hfuel : tbl.nEntries < fuel)
    (h : tbl.nEntries = 0 ∨ tbl.nEntries = 1 ∧ tbl.freqAt 0 ≠ freq) :
    tbl.dcCalTblEntry freq fuel entry = none := by
  unfold dcCalTblEntry
  rcases h with h | ⟨h, hne⟩
  · have hnil : tbl.entries = [] := List.length_eq_zero_iff.mp h
    simp [hnil]
  · obtain ⟨i, hlookup, hi, -⟩ := dcCalTblLookup_floor tbl freq (by omega) hfuel
    obtain rfl : i = 0 := by omega
    obtain ⟨found, hfound, hfreq⟩ := tbl.exists_entry hi
    have hwrap : tbl.entries[unsignedSub 0 1]? = none :=
      List.getElem?_eq_none (h.trans_le (by decide))
    rw [hlookup, Option.bind_eq_bind, Option.bind_some, hfound, Option.bind_eq_bind,
      Option.bind_some, if_neg (hfreq.trans_ne hne), if_pos (by rw [lastIdx_eq hi, h]),
      dcCalInterpEntry, hwrap]
    rfl

theorem dcCalTblEntry_spec (entry : DcCalEntry) (hcurr : tbl.currIdx < tbl.nEntries)
    (hfuel : tbl.nEntries < fuel) (hinc : tbl.Increasing)
    (hone : tbl.nEntries = 1 → tbl.freqAt 0 = freq) :
    ∃ out, tbl.dcCalTblEntry freq fuel entry = some out ∧
      (∀ e ∈ tbl.entries, e.freq = freq → out = e) ∧
      ∀ low high, tbl.Between freq low high → out.val = low.val := by
  obtain ⟨i, hlookup, hi, hfloor⟩ := dcCalTblLookup_floor tbl freq hcurr hfuel
  obtain ⟨hfloor, -⟩ := hfloor hinc
  have hlast := lastIdx_eq (Nat.zero_lt_of_lt hcurr)
  obtain ⟨found, hfound, hfreq⟩ := tbl.exists_entry hi
  have hsame : ∀ e ∈ tbl.entries, e.freq = freq → found = e := by
    rintro e he rfl
    obtain ⟨j, hj⟩ := List.mem_iff_getElem?.mp he
    obtain ⟨hjn, hjfreq⟩ := freqAt_of_some hj
    obtain ⟨hle, hji⟩ := hfloor j hjn hjfreq.le
    obtain rfl : j = i := hji.eq_of_not_lt fun hlt => by have := hinc j i hlt hi; omega
    exact Option.some.inj (hfound.symm.trans hj)
  have hbetween : ∀ low high, tbl.Between freq low high → found = low ∧ i + 1 < tbl.nEntries := by
    rintro low high ⟨j, hlow, hhigh, hl, hh⟩
    obtain ⟨hjn, hjfreq⟩ := freqAt_of_some hlow
    obtain ⟨hjn', hjfreq'⟩ := freqAt_of_some hhigh
    obtain ⟨hle, hji⟩ := hfloor j hjn (by omega)
    have hij := hinc.lt_of_freqAt_lt hi (j := j + 1) (by omega)
    obtain rfl : j = i := by omega
    exact ⟨Option.some.inj (hfound.symm.trans hlow), hjn'⟩
  unfold dcCalTblEntry
  rw [hlookup, Option.bind_eq_bind, Option.bind_some, hfound, Option.bind_eq_bind, Option.bind_some]
  by_cases hat : found.freq = freq
  · rw [if_pos hat]
    exact ⟨found, rfl, hsame, fun low high h => by rw [(hbetween low high h).1]⟩
  · rw [if_neg hat]
    have hoff : ∀ e ∈ tbl.entries, e.freq ≠ freq := fun e he h => hat (hsame e he h ▸ h)
    by_cases hend : i = tbl.lastIdx
    · have htwo : tbl.nEntries ≠ 1 := fun h => by
        obtain rfl : i = 0 := by omega
        exact hat (hfreq.trans (hone h))
      obtain ⟨prev, hprev, hpfreq⟩ := tbl.exists_entry (i := i - 1) (by omega)
      have hlt := hinc (i - 1) i (by omega) hi
      rw [if_pos hend, unsignedSub_eq (by omega) (hi.trans tbl.fits),
        dcCalInterpEntry_low entry hprev hfound (by omega)]
      exact ⟨_, rfl, fun e he h => absurd h (hoff e he),
        fun low high h => absurd (hbetween low high h).2 (by omega)⟩
    · obtain ⟨next, hnext, hnfreq⟩ := tbl.exists_entry (i := i + 1) (by omega)
      have hlt := hinc i (i + 1) (by omega) (by omega)
      rw [if_neg hend, dcCalInterpEntry_low entry hfound hnext (by omega)]
      exact ⟨_, rfl, fun e he h => absurd h (hoff e he),
        fun low high h => by rw [(hbetween low high h).1]⟩

theorem entryRight_iff (entry : DcCalEntry) (hcurr : tbl.currIdx = tbl.nEntries / 2)
    (hfuel : tbl.nEntries < fuel) (hinc : tbl.Increasing) :
    tbl.EntryRight freq fuel entry ↔
      0 < tbl.nEntries ∧ (tbl.nEntries = 1 → tbl.freqAt 0 = freq) ∧ tbl.Steady freq := by
  by_cases h : tbl.nEntries = 0 ∨ tbl.nEntries = 1 ∧ tbl.freqAt 0 ≠ freq
  · refine iff_of_false ?_ fun ⟨hn, hone, _⟩ => h.elim hn.ne' fun h => h.2 (hone h.1)
    rintro ⟨out, hout, -⟩
    rw [dcCalTblEntry_none entry hcurr hfuel h] at hout
    exact nomatch hout
  · obtain ⟨hn, hone⟩ : 0 < tbl.nEntries ∧ (tbl.nEntries = 1 → tbl.freqAt 0 = freq) := by
      rw [not_or, not_and_not_right] at h
      exact ⟨Nat.pos_of_ne_zero h.1, h.2⟩
    obtain ⟨out, hout, hsame, hval⟩ :=
      @dcCalTblEntry_spec tbl freq fuel entry (by omega) hfuel hinc hone
    unfold EntryRight Steady
    simp only [hout, Option.some.injEq, exists_eq_left', hn, true_and]
    rw [and_iff_right hsame, and_iff_right hone]
    refine forall₄_congr fun low high hb c => ?_
    have ⟨_, _, _, hl, hh⟩ := hb
    rw [hval low high hb, ← lerp_eq_left_iff (by omega) (by omega)]
    simp [eq_comm]

end DcCalTbl

/-- Nothing is read behind the buffer, and a table has entries, the buffer's. -/
def LoadsRight (buf : List (BitVec 8)) (mem : CalMemory) : Prop :=
  ∃ r, dcCalTblLoad buf mem = some r ∧
    ∀ tbl ∈ r, tbl.entries ≠ [] ∧ tbl.entries = bufEntries buf mem

def ImageRight (mem : CalMemory) (img : Option (ℤ × CalImageType × List (BitVec 8))) : Prop :=
  ∀ tbl, dcCalTblImageLoad mem img = some (0, tbl) → tbl.isSome

theorem loadsRight_iff :
    LoadsRight buf mem ↔ (Accepts buf mem → 0 < calEntries buf ∧ Fits buf) := by
  unfold LoadsRight
  rcases @dcCalTblLoad_cases buf mem with ⟨hacc, h⟩ | ⟨hacc, hfit, h⟩ | ⟨hacc, hfit, tbl, h, -, hentries⟩
  · simp [h, hacc]
  · simp [h, hfit, hacc]
  · have hempty : bufEntries buf mem ≠ [] ↔ 0 < calEntries buf := by
      simp [bufEntries, Nat.pos_iff_ne_zero]
    simp [h, hacc, hfit, hentries, hempty]

theorem imageRight_iff {img : Option (ℤ × CalImageType × List (BitVec 8))} :
    ImageRight mem img ↔
      ∀ type data, img = some (0, type, data) → type ≠ .other → Accepts data mem := by
  refine ⟨fun h type data himg htype => ?_, fun h tbl himg => ?_⟩
  · rcases @dcCalTblLoad_cases data mem with ⟨-, hload⟩ | ⟨hacc, -⟩ | ⟨hacc, -⟩
    · have hnull : dcCalTblImageLoad mem img = some (0, none) := by
        cases type <;> simp_all [dcCalTblImageLoad]
      exact nomatch h none hnull
    · exact hacc
    · exact hacc
  · rcases img with - | ⟨status, type, data⟩
    · cases himg
    · have hacc := h type data
      rcases @dcCalTblLoad_cases data mem with ⟨hno, -⟩ | ⟨-, -, hload⟩ | ⟨-, -, tbl', hload, -⟩ <;>
        cases type <;> by_cases hs : status = 0 <;> simp_all [dcCalTblImageLoad] <;> aesop

/-- The load is right where the table that it accepts has entries and the buffer holds
them all, the image where its data are accepted, and the interpolation where one entry
is asked for at its frequency only and the values do not move yet. -/
theorem dcCalTbl_right_iff (buf : List (BitVec 8)) (mem : CalMemory)
    (img : Option (ℤ × CalImageType × List (BitVec 8))) {fuel : ℕ} (hfuel : calEntries buf < fuel) :
    (LoadsRight buf mem ↔ (Accepts buf mem → 0 < calEntries buf ∧ Fits buf)) ∧
      (ImageRight mem img ↔
        ∀ type data, img = some (0, type, data) → type ≠ .other → Accepts data mem) ∧
      ∀ tbl freq entry, dcCalTblLoad buf mem = some (some tbl) → tbl.Increasing →
        (tbl.EntryRight freq fuel entry ↔
          0 < tbl.nEntries ∧ (tbl.nEntries = 1 → tbl.freqAt 0 = freq) ∧ tbl.Steady freq) := by
  refine ⟨loadsRight_iff, imageRight_iff, fun tbl freq entry hload hinc => ?_⟩
  rcases @dcCalTblLoad_cases buf mem with ⟨-, h⟩ | ⟨-, -, h⟩ | ⟨-, -, tbl', h, hcurr, hentries⟩
  · exact nomatch hload.symm.trans h
  · exact nomatch hload.symm.trans h
  · cases hload.symm.trans h
    have hn : tbl.nEntries = calEntries buf := by simp [DcCalTbl.nEntries, hentries, bufEntries]
    exact DcCalTbl.entryRight_iff entry (hn ▸ hcurr) (hn ▸ hfuel) hinc

def calMemory : CalMemory := ⟨true, true, fun _ _ => 0⟩

/-- A table of version 2: no correction at 1000, and `dc_i` is 2 at 2000. -/
def twoEntryBuf : List (BitVec 8) :=
  [0xb1, 0x1a, 0, 0, 0, 0, 2, 0, 0, 0, 2, 0, 0, 0] ++ List.replicate 10 0 ++
    [0xe8, 0x03, 0, 0] ++ List.replicate 16 0 ++ [0xd0, 0x07, 0, 0, 2, 0] ++ List.replicate 14 0

/-- It loads, and its lower entry is the interpolation up to half way only. -/
theorem dcCalTbl_right_iff_two :
    LoadsRight twoEntryBuf calMemory ∧
      ∃ tbl, dcCalTblLoad twoEntryBuf calMemory = some (some tbl) ∧ ∀ entry,
        tbl.EntryRight 1400 3 entry ∧ ¬tbl.EntryRight 1500 3 entry := by
  obtain ⟨hloads, -, hentry⟩ := dcCalTbl_right_iff twoEntryBuf calMemory none
    (show calEntries twoEntryBuf < 3 by decide)
  obtain ⟨tbl, hload, hentries⟩ : ∃ tbl, dcCalTblLoad twoEntryBuf calMemory = some (some tbl) ∧
      tbl.entries = [entryAt twoEntryBuf 2 (fun _ => 0) 24,
        entryAt twoEntryBuf 2 (fun _ => 0) 44] := ⟨_, rfl, rfl⟩
  have hn : tbl.nEntries = 2 := by rw [DcCalTbl.nEntries, hentries]; rfl
  have hinc : tbl.Increasing := by
    intro i j hij hj
    obtain ⟨rfl, rfl⟩ : i = 0 ∧ j = 1 := by omega
    simp only [DcCalTbl.freqAt, hentries]
    decide
  have hsteady : tbl.Steady 1400 := by
    rintro low high ⟨i, hlow, hhigh, -⟩ c
    have hi : i + 1 < tbl.nEntries := (DcCalTbl.freqAt_of_some hhigh).1
    obtain rfl : i = 0 := by omega
    rw [hentries] at hlow hhigh
    cases hlow
    cases hhigh
    unfold Flat
    cases c <;> decide
  have hmoved : ¬tbl.Steady 1500 := by
    intro h
    have hflat := h _ _ ⟨0, by rw [hentries]; rfl, by rw [hentries]; rfl, by decide, by decide⟩ .dcI
    unfold Flat at hflat
    exact absurd hflat (by decide)
  refine ⟨hloads.mpr fun _ => by unfold Fits; decide, tbl, hload, fun entry => ⟨?_, fun h => ?_⟩⟩
  · exact (hentry tbl 1400 entry hload hinc).mpr ⟨by omega, fun h => absurd h (by omega), hsteady⟩
  · exact hmoved ((hentry tbl 1500 entry hload hinc).mp h).2.2

/-- A table of version 2 in a buffer of one entry of version 1. -/
def shortBuf : List (BitVec 8) :=
  [0xb1, 0x1a, 0, 0, 0, 0, 2, 0, 0, 0, 1, 0, 0, 0] ++ List.replicate 18 0

theorem dcCalTblLoad_short :
    ¬ LoadsRight shortBuf calMemory ∧ ¬ ImageRight calMemory (some (0, .rxDcCal, [])) :=
  ⟨fun ⟨_, h, _⟩ => (nomatch (rfl : none = dcCalTblLoad shortBuf _).trans h),
    fun h => Bool.false_ne_true (h none rfl)⟩

end BladeRF
