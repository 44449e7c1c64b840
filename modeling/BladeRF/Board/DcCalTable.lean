/-
# `Board.DcCalTable` — the lookup in a DC calibration table

`dc_cal_tbl_lookup` searches around the entry found last, and then the whole
table where that search ran into a limit.  The bounds of the search are
`unsigned int` and may cross; an entry that does not exist is no result here.
-/
import Mathlib.Data.BitVec

namespace BladeRF

inductive DcCorrection where
  | dcI
  | dcQ
  | maxDcI
  | maxDcQ
  | midDcI
  | midDcQ
  | minDcI
  | minDcQ

structure DcCalEntry where
  freq : ℕ
  val : DcCorrection → BitVec 16

/-- `struct dc_cal_tbl`; `n_entries` is an `uint32_t`. -/
structure DcCalTbl where
  version : BitVec 32
  currIdx : ℕ
  entries : List DcCalEntry
  fits : entries.length < 2 ^ 32

/-- `a - b` of `unsigned int`. -/
def unsignedSub (a b : ℕ) : ℕ := (a + (2 ^ 32 - b)) % 2 ^ 32

theorem unsignedSub_eq {a b : ℕ} (hb : b ≤ a) (ha : a < 2 ^ 32) : unsignedSub a b = a - b := by
  unfold unsignedSub
  omega

namespace DcCalTbl

variable (tbl : DcCalTbl) (freq : ℕ)

def nEntries : ℕ := tbl.entries.length

/-- `n_entries - 1` -/
def lastIdx : ℕ := unsignedSub tbl.nEntries 1

def entryMatches (entryIdx : ℕ) : Option Bool := do
  let entry ← tbl.entries[entryIdx]?
  if tbl.lastIdx ≤ entryIdx then some (entry.freq ≤ freq)
  else if freq < entry.freq then some false
  else
    let next ← tbl.entries[entryIdx + 1]?
    some (freq < next.freq)

/-- `find_entry`, with the value that `hit_limit` is left with. -/
def findEntry : ℕ → ℕ → ℕ → ℕ → Option (ℕ × Bool)
  | 0, _, _, _ => none
  | fuel + 1, currIdx, minIdx, maxIdx =>
      if maxIdx < minIdx ∨ maxIdx = minIdx ∧ maxIdx = currIdx then some (currIdx, true)
      else do
        if ← tbl.entryMatches freq currIdx then some (currIdx, false)
        else
          let entry ← tbl.entries[currIdx]?
          if freq < entry.freq then
            if 0 < currIdx then
              let maxIdx := currIdx - 1
              findEntry fuel ((minIdx + unsignedSub maxIdx minIdx / 2) % 2 ^ 32) minIdx maxIdx
            else some (0, true)
          else if currIdx < tbl.lastIdx then
            let minIdx := currIdx + 1
            findEntry fuel ((minIdx + unsignedSub maxIdx minIdx / 2) % 2 ^ 32) minIdx maxIdx
          else some (tbl.lastIdx, true)

def shortSearch : ℕ := 10

def dcCalTblLookup (fuel : ℕ) : Option ℕ := do
  if shortSearch < tbl.nEntries then
    let minIdx := tbl.currIdx - shortSearch / 2
    let maxIdx := min tbl.lastIdx ((tbl.currIdx + shortSearch / 2) % 2 ^ 32)
    let (ret, limit) ← tbl.findEntry freq fuel tbl.currIdx minIdx maxIdx
    if !limit then
      return ret
  let (ret, _) ← tbl.findEntry freq fuel tbl.currIdx 0 tbl.lastIdx
  return ret

variable {tbl freq}

/-! ## The search -/

def freqAt (tbl : DcCalTbl) (i : ℕ) : ℕ := (tbl.entries[i]?.map DcCalEntry.freq).getD 0

theorem exists_entry {i : ℕ} (hi : i < tbl.nEntries) :
    ∃ e, tbl.entries[i]? = some e ∧ e.freq = tbl.freqAt i :=
  ⟨tbl.entries[i], List.getElem?_eq_getElem hi, by simp [freqAt, List.getElem?_eq_getElem hi]⟩

theorem lastIdx_eq (hn : 0 < tbl.nEntries) : tbl.lastIdx = tbl.nEntries - 1 :=
  unsignedSub_eq hn tbl.fits

/-- The place of a frequency: at or above its entry and below the next, or below
the first entry of all. -/
def Spot (tbl : DcCalTbl) (freq : ℕ) (i : ℕ) : Prop :=
  i < tbl.nEntries ∧
    (tbl.freqAt i ≤ freq ∧ (i = tbl.lastIdx ∨ freq < tbl.freqAt (i + 1)) ∨
      i = 0 ∧ freq < tbl.freqAt 0)

theorem entryMatches_eq (hn : 0 < tbl.nEntries) {i : ℕ} (hi : i < tbl.nEntries) :
    ∃ b, tbl.entryMatches freq i = some b ∧
      (b = true ↔ tbl.freqAt i ≤ freq ∧ (i = tbl.lastIdx ∨ freq < tbl.freqAt (i + 1))) := by
  obtain ⟨e, he, hfreq⟩ := tbl.exists_entry hi
  have hlast := lastIdx_eq hn
  unfold entryMatches
  rw [he, ← hfreq, Option.bind_eq_bind, Option.bind_some]
  split_ifs with h h'
  · exact ⟨_, rfl, by simp [show i = tbl.lastIdx by omega]⟩
  · exact ⟨_, rfl, by simp [Nat.not_le.mpr h']⟩
  · obtain ⟨e', he', hfreq'⟩ := tbl.exists_entry (i := i + 1) (by omega)
    rw [he', ← hfreq', Option.bind_some]
    exact ⟨_, rfl, by simp [Nat.not_lt.mp h', show i ≠ tbl.lastIdx by omega]⟩

/-- What the search has on its two sides where it started from the whole table. -/
def Bracketed (tbl : DcCalTbl) (freq : ℕ) (minIdx maxIdx : ℕ) : Prop :=
  minIdx ≤ maxIdx ∧ (minIdx = 0 ∨ tbl.freqAt minIdx ≤ freq) ∧
    (maxIdx = tbl.lastIdx ∨ freq < tbl.freqAt (maxIdx + 1))

theorem midpoint_range {minIdx maxIdx : ℕ} (hmax : maxIdx < 2 ^ 32) :
    maxIdx < minIdx ∨ minIdx ≤ (minIdx + unsignedSub maxIdx minIdx / 2) % 2 ^ 32 ∧
      (minIdx + unsignedSub maxIdx minIdx / 2) % 2 ^ 32 ≤ maxIdx := by
  rcases Nat.lt_or_ge maxIdx minIdx with h | h
  · exact .inl h
  · rw [unsignedSub_eq h hmax, Nat.mod_eq_of_lt (by omega)]
    omega

theorem findEntry_spec (hn : 0 < tbl.nEntries) :
    ∀ {fuel currIdx minIdx maxIdx : ℕ}, maxIdx + 1 - minIdx < fuel → maxIdx ≤ tbl.lastIdx →
      (maxIdx < minIdx ∨ minIdx ≤ currIdx ∧ currIdx ≤ maxIdx) →
      ∃ r, tbl.findEntry freq fuel currIdx minIdx maxIdx = some r ∧
        (r.2 = false ∨ tbl.Bracketed freq minIdx maxIdx → tbl.Spot freq r.1) := by
  have hlast := lastIdx_eq hn
  have hfits : tbl.nEntries < 2 ^ 32 := tbl.fits
  intro fuel
  induction fuel with
  | zero => exact fun h => absurd h (Nat.not_lt_zero _)
  | succ fuel ih =>
      intro currIdx minIdx maxIdx hfuel hmax hrange
      unfold findEntry
      split
      · rename_i hend
        refine ⟨_, rfl, fun h => ?_⟩
        obtain ⟨hle, hlow, hhigh⟩ := h.resolve_left Bool.noConfusion
        obtain ⟨rfl, rfl⟩ := hend.resolve_left (Nat.not_lt.mpr hle)
        refine ⟨by omega, ?_⟩
        rcases lt_or_ge freq (tbl.freqAt maxIdx) with hat | hat
        · obtain rfl := hlow.resolve_right hat.not_ge
          exact .inr ⟨rfl, hat⟩
        · exact .inl ⟨hat, hhigh⟩
      · rename_i hgo
        obtain ⟨b, hb, hiff⟩ := @entryMatches_eq tbl freq hn currIdx (by omega)
        obtain ⟨e, he, hfreq⟩ := tbl.exists_entry (i := currIdx) (by omega)
        rw [hb, Option.bind_eq_bind, Option.bind_some]
        cases b with
        | true => exact ⟨_, rfl, fun _ => ⟨by omega, .inl (hiff.mp rfl)⟩⟩
        | false =>
            have hno := mt hiff.mpr Bool.false_ne_true
            rw [if_neg Bool.false_ne_true, he, Option.bind_eq_bind, Option.bind_some, hfreq]
            split
            · rename_i habove
              split
              · obtain ⟨r, hr, hspot⟩ := ih (by omega) (by omega)
                  (@midpoint_range minIdx (currIdx - 1) (by omega))
                refine ⟨r, hr, fun h => hspot (h.imp id fun ⟨hle, hlow, _⟩ => ⟨?_, hlow, .inr ?_⟩)⟩
                · -- the entry is not the lower bound, which is not above the frequency
                  have hne : minIdx ≠ currIdx := by
                    rintro rfl
                    exact habove.not_ge (hlow.resolve_left (by omega))
                  omega
                · rwa [Nat.sub_add_cancel ‹_›]
              · obtain rfl : currIdx = 0 := by omega
                exact ⟨_, rfl, fun _ => ⟨hn, .inr ⟨rfl, habove⟩⟩⟩
            · rename_i hbelow
              have hle := Nat.not_lt.mp hbelow
              split
              · obtain ⟨r, hr, hspot⟩ := ih (by omega) hmax
                  (@midpoint_range (currIdx + 1) maxIdx (by omega))
                have hnext : tbl.freqAt (currIdx + 1) ≤ freq :=
                  Nat.not_lt.mp fun h => hno ⟨hle, .inr h⟩
                refine ⟨r, hr, fun h => hspot (h.imp id fun ⟨_, _, hhigh⟩ => ⟨?_, .inr hnext, hhigh⟩)⟩
                have hne : currIdx ≠ maxIdx := by
                  rintro rfl
                  exact (hhigh.resolve_left (by omega)).not_ge hnext
                omega
              · exact absurd ⟨hle, .inl (by omega)⟩ hno

/-- `entries` is "Sorted (increasing) by freq". -/
def Increasing (tbl : DcCalTbl) : Prop :=
  ∀ i j, i < j → j < tbl.nEntries → tbl.freqAt i < tbl.freqAt j

/-- The greatest entry at or below the frequency, or the first if there is none. -/
def IsFloor (tbl : DcCalTbl) (freq : ℕ) (i : ℕ) : Prop :=
  (∀ j < tbl.nEntries, tbl.freqAt j ≤ freq → tbl.freqAt i ≤ freq ∧ j ≤ i) ∧
    ((∀ j < tbl.nEntries, freq < tbl.freqAt j) → i = 0)

theorem Spot.isFloor {i : ℕ} (h : tbl.Spot freq i) (hinc : tbl.Increasing) :
    tbl.IsFloor freq i := by
  obtain ⟨hi, ⟨hle, hnext⟩ | ⟨rfl, hlt⟩⟩ := h
  · refine ⟨fun j hj hjle => ⟨hle, ?_⟩, fun hall => absurd hle (hall i hi).not_ge⟩
    by_contra hij
    have hlast := lastIdx_eq (Nat.zero_lt_of_lt hi)
    have hlt := hnext.resolve_left (by omega)
    rcases eq_or_ne j (i + 1) with rfl | hne
    · exact hlt.not_ge hjle
    · exact (hlt.trans (hinc (i + 1) j (by omega) hj)).not_ge hjle
  · refine ⟨fun j hj hjle => ?_, fun _ => rfl⟩
    rcases Nat.eq_zero_or_pos j with rfl | hpos
    · exact absurd hjle hlt.not_ge
    · exact absurd hjle (hlt.trans (hinc 0 j hpos hj)).not_ge

/-- Wherever the search starts, it ends, at an existing entry and on existing
entries only; in a sorted table that is the floor of the frequency. -/
theorem dcCalTblLookup_floor (tbl : DcCalTbl) (freq : ℕ)
    (hcurr : tbl.currIdx < tbl.nEntries) {fuel : ℕ} (hfuel : tbl.nEntries < fuel) :
    ∃ i, tbl.dcCalTblLookup freq fuel = some i ∧ i < tbl.nEntries ∧
      (tbl.Increasing → tbl.IsFloor freq i) := by
  have hn : 0 < tbl.nEntries := Nat.zero_lt_of_lt hcurr
  have hlast := lastIdx_eq hn
  obtain ⟨full, hfull, hspot⟩ := @findEntry_spec tbl freq hn fuel tbl.currIdx 0 tbl.lastIdx
    (by omega) le_rfl (.inr ⟨Nat.zero_le _, by omega⟩)
  have hspot := hspot (.inr ⟨Nat.zero_le _, .inl rfl, .inl rfl⟩)
  have hdone : ∃ i, (do
      let (ret, _) ← tbl.findEntry freq fuel tbl.currIdx 0 tbl.lastIdx
      return ret : Option ℕ) = some i ∧ i < tbl.nEntries ∧
      (tbl.Increasing → tbl.IsFloor freq i) := by
    rw [hfull]
    exact ⟨_, rfl, hspot.1, hspot.isFloor⟩
  unfold dcCalTblLookup
  split
  · obtain ⟨short, hshort, hspot'⟩ := @findEntry_spec tbl freq hn fuel tbl.currIdx
      (tbl.currIdx - shortSearch / 2)
      (min tbl.lastIdx ((tbl.currIdx + shortSearch / 2) % 2 ^ 32)) (by omega)
      (Nat.min_le_left _ _) (by have := tbl.fits; simp only [shortSearch, nEntries] at *; omega)
    obtain ⟨i, limit⟩ := short
    dsimp only
    rw [hshort, Option.bind_eq_bind, Option.bind_some]
    cases limit with
    | true => exact hdone
    | false =>
        have hspot' := hspot' (.inl rfl)
        exact ⟨i, rfl, hspot'.1, hspot'.isFloor⟩
  · exact hdone

/-- Twelve entries at 0, 10, …, 110, and the cursor at the eighth. -/
def twelveEntries : DcCalTbl where
  version := 1
  currIdx := 7
  entries := (List.range 12).map fun i => ⟨10 * i, fun _ => 0⟩
  fits := by decide

theorem twelveEntries_increasing : twelveEntries.Increasing := by
  have hfreq : ∀ i < 12, twelveEntries.freqAt i = 10 * i := by decide
  intro i j hij hj
  have hj : j < 12 := hj
  rw [hfreq i (hij.trans hj), hfreq j hj]
  omega

/-- The short search around the cursor finds one frequency; for the other its bounds
cross, and the whole table is searched. -/
theorem dcCalTblLookup_floor_twelve :
    (twelveEntries.findEntry 25 13 7 2 11 = some (2, false) ∧
      ∃ i, twelveEntries.dcCalTblLookup 25 13 = some i ∧ twelveEntries.IsFloor 25 i) ∧
    (twelveEntries.findEntry 15 13 7 2 11 = some (2147483649, true) ∧
      ∃ i, twelveEntries.dcCalTblLookup 15 13 = some i ∧ twelveEntries.IsFloor 15 i) := by
  have hfloor : ∀ freq, ∃ i, twelveEntries.dcCalTblLookup freq 13 = some i ∧
      twelveEntries.IsFloor freq i := by
    intro freq
    obtain ⟨i, hlookup, -, hfloor⟩ :=
      dcCalTblLookup_floor twelveEntries freq (by decide) (show 12 < 13 by decide)
    exact ⟨i, hlookup, hfloor twelveEntries_increasing⟩
  exact ⟨⟨by decide, hfloor 25⟩, by decide, hfloor 15⟩

end DcCalTbl

end BladeRF
