/-
# `Fx3.Image` — the parser of FX3 firmware images

`fx3_fw_parse` checks the header, and `scan_fw_sections` follows the list of
sections to the checksum; `fx3_fw_next_section` then follows the same list again, a
section for each call.

* An assertion that fails is an outcome of its own: `rel_assert.h` keeps assertions
  in release builds.
* Offsets are below 2 ^ 32, and only the end of a section is worked out without a
  check that what it is the end of is there.
* `calloc` and `malloc` succeed.
-/
import BladeRF.Lib.Bytes
import BladeRF.Streaming.RxRing

namespace BladeRF

open Lib (leBytes leNat)

inductive Fx3Stop where
  | assertion
  | status (code : ℤ)

/-- `struct fx3_firmware`, whose `data_len` is the length of `data`. -/
structure Fx3Firmware where
  data : List (BitVec 8)
  entryAddr : BitVec 32 := 0
  numSections : ℕ := 0
  currSection : ℕ := 0
  sectionOffset : ℕ := 0

/-- The word at `offset`. -/
def fx3Word (data : List (BitVec 8)) (offset : ℕ) : BitVec 32 :=
  BitVec.ofNat 32 (leNat ((data.drop offset).take 4))

def toUint32 (data : List (BitVec 8)) (offset : ℕ) : Except Fx3Stop (BitVec 32) :=
  if offset + 4 ≤ data.length then .ok (fx3Word data offset) else .error .assertion

def isValidFx3RamAddr (addr : BitVec 32) (len : ℕ) : Bool :=
  let last := (addr.toNat + len) % 2 ^ 32
  let inItcm := addr.toNat < 0x4000 ∧ len ≤ 0x4000 ∧ last < 0x4000
  let inSysmem := 0x40000000 ≤ addr.toNat ∧ addr.toNat < 0x40080000 ∧ len ≤ 0x80000 ∧
    last < 0x40080000
  inItcm ∨ inSysmem

def fx3RamSizeWords : ℕ := 256 * 1024 / 4

def sumWords (data : List (BitVec 8)) : ℕ → ℕ → BitVec 32 → Except Fx3Stop (BitVec 32)
  | _, 0, checksum => .ok checksum
  | i, n + 1, checksum => do
      let w ← toUint32 data i
      sumWords data (i + 4) n (checksum + w)

/-- What `scan_fw_sections` keeps from turn to turn. -/
structure Fx3Scan where
  offset : ℕ
  checksum : BitVec 32 := 0
  numSections : ℕ := 0
  entryAddr : BitVec 32 := 0

def checksumOff (data : List (BitVec 8)) : ℕ := data.length - 4

def scanTurn (data : List (BitVec 8)) (s : Fx3Scan) : Except Fx3Stop (Bool × Fx3Scan) := do
  let sectionLenWords ← toUint32 data s.offset
  if fx3RamSizeWords < sectionLenWords.toNat then
    throw (.status bladerfErrInval)
  else
    let sectionLenBytes := sectionLenWords.toNat * 4
    -- a word read ends in the data, so these offsets do not wrap
    let offset := s.offset + 4
    if sectionLenBytes = 0 then
      let entryAddr ← toUint32 data offset
      if isValidFx3RamAddr entryAddr 0 then
        pure (true, { s with offset := offset + 4, entryAddr })
      else throw (.status bladerfErrInval)
    else
      let addr ← toUint32 data offset
      if isValidFx3RamAddr addr sectionLenBytes then
        let offset := offset + 4
        let nextSection := (offset + sectionLenBytes) % 2 ^ 32
        if checksumOff data ≤ offset ∨ checksumOff data ≤ nextSection then
          throw (.status bladerfErrInval)
        else
          let checksum ← sumWords data offset ((nextSection - offset + 3) / 4) s.checksum
          pure (false,
            { s with
              offset := nextSection
              checksum
              numSections := (s.numSections + 1) % 2 ^ 32 })
      else throw (.status bladerfErrInval)

/-- The loop; `none` when it is still running. -/
def scanLoop (data : List (BitVec 8)) : ℕ → Fx3Scan → Option (Except Fx3Stop Fx3Scan)
  | 0, _ => none
  | fuel + 1, s =>
      match scanTurn data s with
      | .error stop => some (.error stop)
      | .ok (true, s) => some (.ok s)
      | .ok (false, s) => scanLoop data fuel s

def scanEnd (data : List (BitVec 8)) (s : Fx3Scan) : Except Fx3Stop Fx3Firmware := do
  if s.offset ≠ checksumOff data then throw (.status bladerfErrInval)
  else
    let expected ← toUint32 data (checksumOff data)
    if s.checksum ≠ expected then throw (.status bladerfErrInval)
    else
      pure
        { data
          entryAddr := s.entryAddr
          numSections := s.numSections
          sectionOffset := 4 }

def scanFwSections (fuel : ℕ) (data : List (BitVec 8)) : Option (Except Fx3Stop Fx3Firmware) :=
  if 12 < checksumOff data ∧ checksumOff data % 4 = 0 then
    (scanLoop data fuel { offset := 4 }).map fun r => r.bind (scanEnd data)
  else some (.error .assertion)

def fx3FwParse (fuel : ℕ) (buf : List (BitVec 8)) : Option (Except Fx3Stop Fx3Firmware) :=
  if 2 ^ 32 - 1 < buf.length then some (.error (.status bladerfErrInval))
  else if buf.length < 12 then some (.error (.status bladerfErrInval))
  else if buf.length % 4 ≠ 0 then some (.error (.status bladerfErrInval))
  else if buf[0]? ≠ some 0x43 ∧ buf[1]? ≠ some 0x59 then some (.error (.status bladerfErrInval))
  else if buf[3]? ≠ some 0xb0 then some (.error (.status bladerfErrInval))
  else scanFwSections fuel buf

abbrev Fx3Section := BitVec 32 × List (BitVec 8) × ℕ

def fx3FwNextSection (fw : Fx3Firmware) : Except Fx3Stop (Option Fx3Section × Fx3Firmware) :=
  if fw.numSections ≤ fw.currSection then .ok (none, fw)
  else do
    let words ← toUint32 fw.data fw.sectionOffset
    let len := words.toNat * 4 % 2 ^ 32
    if len = 0 then .ok (none, fw)
    else
      let maxOffset := checksumOff fw.data
      let offset := fw.sectionOffset + 4
      if offset < maxOffset then
        let addr ← toUint32 fw.data offset
        let offset := offset + 4
        let nextSection := (offset + len) % 2 ^ 32
        if offset < maxOffset ∧ nextSection < maxOffset then
          .ok (some (addr, (fw.data.drop offset).take len, len),
            { fw with
              sectionOffset := nextSection
              currSection := fw.currSection + 1 })
        else .error .assertion
      else .error .assertion

/-- What `n` calls in a row return. -/
def fx3FwSections : ℕ → Fx3Firmware → Except Fx3Stop (List (Option Fx3Section))
  | 0, _ => .ok []
  | n + 1, fw => do
      let r ← fx3FwNextSection fw
      let rest ← fx3FwSections n r.2
      .ok (r.1 :: rest)

/-! ## Images -/

structure ImageSection where
  addr : BitVec 32
  words : List (BitVec 32)

structure FwImage where
  control : BitVec 8
  sections : List ImageSection
  entry : BitVec 32

def wordBytes (w : BitVec 32) : List (BitVec 8) := leBytes 4 w.toNat

namespace ImageSection

def data (x : ImageSection) : List (BitVec 8) := x.words.flatMap wordBytes

def bytes (x : ImageSection) : List (BitVec 8) :=
  wordBytes (BitVec.ofNat 32 x.words.length) ++ (wordBytes x.addr ++ x.data)

def view (x : ImageSection) : Fx3Section := (x.addr, x.data, 4 * x.words.length)

end ImageSection

/-- `n` bytes from `addr` on are in I-TCM or in SYSMEM. -/
def InRam (addr n : ℕ) : Prop :=
  addr + n ≤ 0x4000 ∨ 0x40000000 ≤ addr ∧ addr + n ≤ 0x40080000

/-- A section has one word or more, not more than the RAM, and lies in a region. -/
def ImageSection.Valid (x : ImageSection) : Prop :=
  0 < x.words.length ∧ x.words.length ≤ fx3RamSizeWords ∧
    InRam x.addr.toNat (4 * x.words.length)

def ImageSection.AtEnd (x : ImageSection) : Prop :=
  x.addr.toNat + 4 * x.words.length = 0x4000 ∨ x.addr.toNat + 4 * x.words.length = 0x40080000

namespace FwImage

def checksum (m : FwImage) : BitVec 32 :=
  (m.sections.flatMap fun x => x.words).foldl (fun c w => c + w) 0

def body (m : FwImage) : List (BitVec 8) :=
  m.sections.flatMap ImageSection.bytes ++
    (wordBytes 0 ++ (wordBytes m.entry ++ wordBytes m.checksum))

def bytes (m : FwImage) : List (BitVec 8) := [0x43, 0x59, m.control, 0xb0] ++ m.body

/-- Every section is valid, and the entry address is in a region. -/
def Valid (m : FwImage) : Prop := (∀ x ∈ m.sections, x.Valid) ∧ InRam m.entry.toNat 1

end FwImage

/-! ## Words -/

@[simp] theorem length_wordBytes (w : BitVec 32) : (wordBytes w).length = 4 :=
  Lib.length_leBytes 4 w.toNat

/-- The words from `offset` on. -/
def fx3Words (data : List (BitVec 8)) : ℕ → ℕ → List (BitVec 32)
  | _, 0 => []
  | offset, n + 1 => fx3Word data offset :: fx3Words data (offset + 4) n

section

variable {data rest : List (BitVec 8)} {o n : ℕ}

@[simp] theorem length_fx3Words (data : List (BitVec 8)) (o n : ℕ) :
    (fx3Words data o n).length = n := by
  induction n generalizing o with
  | zero => rfl
  | succ n ih => rw [fx3Words, List.length_cons, ih]

theorem toUint32_inside (h : o + 4 ≤ data.length) : toUint32 data o = .ok (fx3Word data o) :=
  if_pos h

theorem drop_fx3Word (h : o + 4 ≤ data.length) :
    data.drop o = wordBytes (fx3Word data o) ++ data.drop (o + 4) := by
  have hlength : ((data.drop o).take 4).length = 4 := by
    rw [List.length_take, List.length_drop]
    omega
  have hlt : leNat ((data.drop o).take 4) < 2 ^ 32 := by
    have hbytes := Lib.leNat_lt ((data.drop o).take 4)
    rwa [hlength] at hbytes
  have hbytes : wordBytes (fx3Word data o) = (data.drop o).take 4 := by
    unfold wordBytes fx3Word
    rw [BitVec.toNat_ofNat, Nat.mod_eq_of_lt hlt]
    calc leBytes 4 (leNat ((data.drop o).take 4))
        = leBytes ((data.drop o).take 4).length (leNat ((data.drop o).take 4)) := by rw [hlength]
      _ = (data.drop o).take 4 := Lib.leBytes_leNat _
  rw [hbytes, ← List.drop_drop]
  exact (List.take_append_drop 4 _).symm

theorem fx3Word_of_drop {w : BitVec 32} (h : data.drop o = wordBytes w ++ rest) :
    o + 4 ≤ data.length ∧ fx3Word data o = w ∧ data.drop (o + 4) = rest := by
  have hlength : data.length - o = 4 + rest.length := by
    rw [← List.length_drop, h, List.length_append, length_wordBytes]
  refine ⟨by omega, ?_, ?_⟩
  · have htake : (data.drop o).take 4 = wordBytes w := by
      rw [h, List.take_left' (length_wordBytes w)]
    unfold fx3Word
    rw [htake, wordBytes, Lib.leNat_leBytes_of_lt w.isLt, BitVec.ofNat_toNat, BitVec.setWidth_eq]
  · rw [← List.drop_drop, h, List.drop_left' (length_wordBytes w)]

theorem drop_fx3Words (h : o + 4 * n ≤ data.length) :
    data.drop o = (fx3Words data o n).flatMap wordBytes ++ data.drop (o + 4 * n) := by
  induction n generalizing o with
  | zero => rfl
  | succ n ih =>
      have hnext := @ih (o + 4) (by omega)
      have hoff : o + 4 + 4 * n = o + 4 * (n + 1) := by omega
      rw [hoff] at hnext
      rw [fx3Words, List.flatMap_cons, List.append_assoc, ← hnext]
      exact drop_fx3Word (by omega)

theorem fx3Words_of_drop {ws : List (BitVec 32)} (h : data.drop o = ws.flatMap wordBytes ++ rest)
    (ho : o ≤ data.length) :
    o + 4 * ws.length ≤ data.length ∧ fx3Words data o ws.length = ws ∧
      data.drop (o + 4 * ws.length) = rest := by
  induction ws generalizing o with
  | nil => exact ⟨ho, rfl, h⟩
  | cons w ws ih =>
      rw [List.flatMap_cons, List.append_assoc] at h
      obtain ⟨hle, hword, hdrop⟩ := fx3Word_of_drop h
      obtain ⟨hle', hwords, hdrop'⟩ := ih hdrop hle
      have hoff : o + 4 * (w :: ws).length = o + 4 + 4 * ws.length := by
        rw [List.length_cons]
        omega
      rw [hoff, List.length_cons, fx3Words, hword, hwords]
      exact ⟨hle', rfl, hdrop'⟩

theorem take_flatMap_wordBytes (ws : List (BitVec 32)) :
    (ws.flatMap wordBytes ++ rest).take (4 * ws.length) = ws.flatMap wordBytes := by
  refine List.take_left' ?_
  induction ws with
  | nil => rfl
  | cons w ws ih =>
      rw [List.flatMap_cons, List.length_append, ih, length_wordBytes, List.length_cons]
      omega

theorem sumWords_inside (checksum : BitVec 32) (h : o + 4 * n ≤ data.length) :
    sumWords data o n checksum = .ok ((fx3Words data o n).foldl (fun c w => c + w) checksum) := by
  induction n generalizing o checksum with
  | zero => rfl
  | succ n ih =>
      rw [sumWords, toUint32_inside (by omega), fx3Words, List.foldl_cons]
      exact ih _ (by omega)

end

/-! ## Addresses -/

theorem isValidFx3RamAddr_entry (addr : BitVec 32) :
    isValidFx3RamAddr addr 0 = true ↔ InRam addr.toNat 1 := by
  have hlt := addr.isLt
  unfold isValidFx3RamAddr InRam
  simp only [decide_eq_true_eq, Nat.add_zero, Nat.mod_eq_of_lt hlt]
  omega

theorem isValidFx3RamAddr_section (x : ImageSection) (hpos : 0 < x.words.length)
    (hsize : x.words.length ≤ fx3RamSizeWords) :
    isValidFx3RamAddr x.addr (4 * x.words.length) = true ↔ x.Valid ∧ ¬x.AtEnd := by
  have hlt := x.addr.isLt
  have hwords : fx3RamSizeWords = 65536 := rfl
  unfold isValidFx3RamAddr ImageSection.Valid ImageSection.AtEnd InRam
  simp only [decide_eq_true_eq]
  omega

/-! ## A turn -/

/-- The length of an image that `scan_fw_sections` can look at. -/
structure Scannable (data : List (BitVec 8)) : Prop where
  aligned : data.length % 4 = 0
  long : 20 ≤ data.length
  short : data.length < 2 ^ 32

/-- A section that is followed stands at `o`, and what comes next at `next`. -/
def SectionAt (data : List (BitVec 8)) (o next : ℕ) : Prop :=
  0 < (fx3Word data o).toNat ∧ (fx3Word data o).toNat ≤ fx3RamSizeWords ∧
    isValidFx3RamAddr (fx3Word data (o + 4)) (4 * (fx3Word data o).toNat) = true ∧
    o + 8 < checksumOff data ∧ (o + 8 + 4 * (fx3Word data o).toNat) % 2 ^ 32 = next ∧
    next < checksumOff data

/-- The end of the list stands at `o`, with an entry address. -/
def TerminatorAt (data : List (BitVec 8)) (o : ℕ) : Prop :=
  fx3Word data o = 0 ∧ InRam (fx3Word data (o + 4)).toNat 1

namespace Fx3Scan

def behind (data : List (BitVec 8)) (s : Fx3Scan) (next : ℕ) : Fx3Scan :=
  { s with
    offset := next
    checksum := (fx3Words data (s.offset + 8) ((next - (s.offset + 8) + 3) / 4)).foldl
      (fun c w => c + w) s.checksum
    numSections := (s.numSections + 1) % 2 ^ 32 }

def ended (data : List (BitVec 8)) (s : Fx3Scan) : Fx3Scan :=
  { s with
    offset := s.offset + 8
    entryAddr := fx3Word data (s.offset + 4) }

def Placed (data : List (BitVec 8)) (s : Fx3Scan) : Prop :=
  s.offset % 4 = 0 ∧ s.offset < checksumOff data

end Fx3Scan

section

variable {data : List (BitVec 8)} {s : Fx3Scan} {next : ℕ}

theorem Fx3Scan.Placed.inside (h : s.Placed data) (hdata : Scannable data) :
    s.offset + 8 ≤ data.length := by
  obtain ⟨hmod, hlt⟩ := h
  have haligned := hdata.aligned
  unfold checksumOff at hlt
  omega

theorem SectionAt.placed (h : SectionAt data s.offset next) (hs : s.Placed data) :
    (s.behind data next).Placed data := by
  obtain ⟨-, -, -, -, hnext, hlt⟩ := h
  obtain ⟨hmod, -⟩ := hs
  refine ⟨?_, hlt⟩
  show next % 4 = 0
  omega

theorem scanTurn_cases (hdata : Scannable data) (hs : s.Placed data) :
    (∃ next, SectionAt data s.offset next ∧
        scanTurn data s = .ok (false, s.behind data next)) ∨
      TerminatorAt data s.offset ∧ scanTurn data s = .ok (true, s.ended data) ∨
      (∀ next, ¬SectionAt data s.offset next) ∧ ¬TerminatorAt data s.offset ∧
        scanTurn data s = .error (.status bladerfErrInval) := by
  have hinside := hs.inside hdata
  have hlen : toUint32 data s.offset = .ok (fx3Word data s.offset) :=
    toUint32_inside (by omega)
  have haddr : toUint32 data (s.offset + 4) = .ok (fx3Word data (s.offset + 4)) :=
    toUint32_inside (by omega)
  have hzero : (fx3Word data s.offset).toNat = 0 ↔ fx3Word data s.offset = 0 :=
    ⟨fun h => BitVec.eq_of_toNat_eq h, fun h => by rw [h]; rfl⟩
  unfold scanTurn
  rw [hlen]
  dsimp only [bind, Except.bind]
  rw [haddr]
  dsimp only [pure, Except.pure, throw, throwThe, MonadExceptOf.throw]
  by_cases hlarge : fx3RamSizeWords < (fx3Word data s.offset).toNat
  · rw [if_pos hlarge]
    refine .inr (.inr ⟨fun next hnext => ?_, fun hend => ?_, rfl⟩)
    · exact absurd hnext.2.1 (Nat.not_le.mpr hlarge)
    · rw [hzero.mpr hend.1] at hlarge
      exact absurd hlarge (Nat.not_lt_zero _)
  · rw [if_neg hlarge]
    by_cases hlast : (fx3Word data s.offset).toNat * 4 = 0
    · rw [if_pos hlast]
      have hword : (fx3Word data s.offset).toNat = 0 := by omega
      by_cases hentry : isValidFx3RamAddr (fx3Word data (s.offset + 4)) 0 = true
      · rw [if_pos hentry]
        exact .inr (.inl ⟨⟨hzero.mp hword, (isValidFx3RamAddr_entry _).mp hentry⟩, rfl⟩)
      · rw [if_neg hentry]
        refine .inr (.inr ⟨fun next hnext => ?_, fun hend => ?_, rfl⟩)
        · exact absurd hword (Nat.ne_of_gt hnext.1)
        · exact hentry ((isValidFx3RamAddr_entry _).mpr hend.2)
    · rw [if_neg hlast, Nat.mul_comm]
      have hnoend : ¬TerminatorAt data s.offset := fun hend => hlast (by rw [hend.1]; rfl)
      by_cases hvalid : isValidFx3RamAddr (fx3Word data (s.offset + 4))
          (4 * (fx3Word data s.offset).toNat) = true
      · rw [if_pos hvalid]
        by_cases hcut : checksumOff data ≤ s.offset + 4 + 4 ∨
            checksumOff data ≤ (s.offset + 4 + 4 + 4 * (fx3Word data s.offset).toNat) % 2 ^ 32
        · rw [if_pos hcut]
          refine .inr (.inr ⟨fun next hnext => ?_, hnoend, rfl⟩)
          obtain ⟨-, -, -, hoff, hnext, hlt⟩ := hnext
          omega
        · rw [if_neg hcut]
          have hsection : SectionAt data s.offset
              ((s.offset + 4 + 4 + 4 * (fx3Word data s.offset).toNat) % 2 ^ 32) :=
            ⟨by omega, Nat.not_lt.mp hlarge, hvalid, by omega, rfl, by omega⟩
          rw [sumWords_inside _ (by unfold checksumOff at hcut; omega)]
          exact .inl ⟨_, hsection, rfl⟩
      · rw [if_neg hvalid]
        exact .inr (.inr ⟨fun next hnext => hvalid hnext.2.2.1, hnoend, rfl⟩)

end

/-! ## The walk along the list -/

inductive Fx3Walk (data : List (BitVec 8)) : Fx3Scan → Fx3Scan → Prop
  | here (s : Fx3Scan) : Fx3Walk data s s
  | next {s t : Fx3Scan} {o : ℕ} : SectionAt data s.offset o →
      Fx3Walk data (s.behind data o) t → Fx3Walk data s t

def DeadEnd (data : List (BitVec 8)) (o : ℕ) : Prop :=
  (∀ next, ¬SectionAt data o next) ∧ ¬TerminatorAt data o

def GoodEnd (data : List (BitVec 8)) (t : Fx3Scan) : Prop :=
  TerminatorAt data t.offset ∧ t.offset + 8 = checksumOff data ∧
    fx3Word data (checksumOff data) = t.checksum

def fx3Start : Fx3Scan := { offset := 4 }

section

variable {data : List (BitVec 8)} {s t : Fx3Scan} {r : Except Fx3Stop Fx3Scan} {fuel : ℕ}

theorem SectionAt.unique {o n n' : ℕ} (h : SectionAt data o n) (h' : SectionAt data o n') :
    n = n' :=
  h.2.2.2.2.1.symm.trans h'.2.2.2.2.1

theorem SectionAt.not_terminator {o n : ℕ} (h : SectionAt data o n) : ¬TerminatorAt data o := by
  intro hend
  have hpos := h.1
  rw [hend.1] at hpos
  exact absurd hpos (Nat.lt_irrefl 0)

theorem Fx3Walk.placed (h : Fx3Walk data s t) (hs : s.Placed data) : t.Placed data := by
  induction h with
  | here s => exact hs
  | next hsection _ ih => exact ih (hsection.placed hs)

section

variable (hdata : Scannable data)

include hdata

theorem fx3Start_placed : fx3Start.Placed data := by
  have hlong := hdata.long
  refine ⟨rfl, ?_⟩
  show 4 < data.length - 4
  omega

theorem scanTurn_section {o : ℕ} (hs : s.Placed data)
    (h : SectionAt data s.offset o) : scanTurn data s = .ok (false, s.behind data o) := by
  rcases scanTurn_cases hdata hs with ⟨o', h', hturn⟩ | ⟨hend, -⟩ | ⟨hnone, -, -⟩
  · rw [hturn, h.unique h']
  · exact absurd hend h.not_terminator
  · exact absurd h (hnone o)

theorem scanTurn_terminator (hs : s.Placed data)
    (h : TerminatorAt data s.offset) : scanTurn data s = .ok (true, s.ended data) := by
  rcases scanTurn_cases hdata hs with ⟨o, h', -⟩ | ⟨-, hturn⟩ | ⟨-, hnone, -⟩
  · exact absurd h h'.not_terminator
  · exact hturn
  · exact absurd h hnone

theorem scanTurn_deadEnd (hs : s.Placed data)
    (h : DeadEnd data s.offset) : scanTurn data s = .error (.status bladerfErrInval) := by
  rcases scanTurn_cases hdata hs with ⟨o, h', -⟩ | ⟨hend, -⟩ | ⟨-, -, hturn⟩
  · exact absurd h' (h.1 o)
  · exact absurd hend h.2
  · exact hturn

theorem scanLoop_of_walk (h : Fx3Walk data s t) (hs : s.Placed data)
    (hloop : scanLoop data fuel t = some r) : ∃ fuel', scanLoop data fuel' s = some r := by
  induction h with
  | here s => exact ⟨fuel, hloop⟩
  | next hsection _ ih =>
      obtain ⟨fuel', hrun⟩ := ih (hsection.placed hs) hloop
      refine ⟨fuel' + 1, ?_⟩
      rw [scanLoop, scanTurn_section hdata hs hsection]
      exact hrun

theorem walk_of_scanLoop (hs : s.Placed data)
    (hloop : scanLoop data fuel s = some r) :
    ∃ t, Fx3Walk data s t ∧
      (TerminatorAt data t.offset ∧ r = .ok (t.ended data) ∨
        DeadEnd data t.offset ∧ r = .error (.status bladerfErrInval)) := by
  induction fuel generalizing s with
  | zero => cases hloop
  | succ fuel ih =>
      rw [scanLoop] at hloop
      rcases scanTurn_cases hdata hs with ⟨o, hsection, hturn⟩ | ⟨hend, hturn⟩ | ⟨hnone, hno, hturn⟩
      · rw [hturn] at hloop
        obtain ⟨t, hwalk, hends⟩ := ih (hsection.placed hs) hloop
        exact ⟨t, .next hsection hwalk, hends⟩
      · rw [hturn] at hloop
        exact ⟨s, .here s, .inl ⟨hend, (Option.some.inj hloop).symm⟩⟩
      · rw [hturn] at hloop
        exact ⟨s, .here s, .inr ⟨⟨hnone, hno⟩, (Option.some.inj hloop).symm⟩⟩

end

theorem Fx3Walk.end_unique {t' : Fx3Scan} (h : Fx3Walk data s t) (h' : Fx3Walk data s t')
    (hend : ∀ o, ¬SectionAt data t.offset o) (hend' : ∀ o, ¬SectionAt data t'.offset o) :
    t = t' := by
  induction h with
  | here s =>
      cases h' with
      | here => rfl
      | next hsection _ => exact absurd hsection (hend _)
  | next hsection _ ih =>
      cases h' with
      | here => exact absurd hsection (hend' _)
      | next hsection' hwalk' =>
          rw [← hsection.unique hsection'] at hwalk'
          exact ih hwalk' hend

end

/-! ## The parser along the walk -/

def HeaderPasses (buf : List (BitVec 8)) : Prop :=
  (buf[0]? = some 0x43 ∨ buf[1]? = some 0x59) ∧ buf[3]? = some 0xb0

def WalkRefused (data : List (BitVec 8)) : Prop :=
  ∃ t, Fx3Walk data fx3Start t ∧
    (DeadEnd data t.offset ∨ TerminatorAt data t.offset ∧ ¬GoodEnd data t)

def firmwareAt (data : List (BitVec 8)) (t : Fx3Scan) : Fx3Firmware where
  data
  entryAddr := fx3Word data (t.offset + 4)
  numSections := t.numSections
  sectionOffset := 4

section

variable {buf : List (BitVec 8)} {fuel : ℕ} {r : Except Fx3Stop Fx3Firmware}

theorem fx3FwParse_scan (h : HeaderPasses buf) (hlength : 12 ≤ buf.length)
    (haligned : buf.length % 4 = 0) (hshort : buf.length < 2 ^ 32) :
    fx3FwParse fuel buf = scanFwSections fuel buf := by
  obtain ⟨hsignature, htype⟩ := h
  unfold fx3FwParse
  rw [if_neg (by omega), if_neg (by omega), if_neg (not_not.mpr haligned), if_neg (by tauto),
    if_neg (not_not.mpr htype)]

section

variable (hdata : Scannable buf)

include hdata

theorem scanFwSections_loop :
    scanFwSections fuel buf = (scanLoop buf fuel fx3Start).map fun r => r.bind (scanEnd buf) := by
  have haligned := hdata.aligned
  have hlong := hdata.long
  unfold scanFwSections
  rw [if_pos (by unfold checksumOff; omega)]
  rfl

theorem scanEnd_ended {t : Fx3Scan} :
    (GoodEnd buf t → TerminatorAt buf t.offset →
        scanEnd buf (t.ended buf) = .ok (firmwareAt buf t)) ∧
      (¬GoodEnd buf t → TerminatorAt buf t.offset →
        scanEnd buf (t.ended buf) = .error (.status bladerfErrInval)) := by
  have hlong := hdata.long
  have hword : toUint32 buf (checksumOff buf) = .ok (fx3Word buf (checksumOff buf)) :=
    toUint32_inside (by unfold checksumOff; omega)
  unfold scanEnd Fx3Scan.ended
  rw [hword]
  dsimp only [bind, Except.bind, pure, Except.pure, throw, throwThe, MonadExceptOf.throw]
  constructor
  · rintro ⟨-, hoff, hsum⟩ -
    rw [if_neg (not_not.mpr hoff), if_neg (not_not.mpr hsum.symm)]
    rfl
  · intro hbad hend
    by_cases hoff : t.offset + 8 = checksumOff buf
    · have hsum : t.checksum ≠ fx3Word buf (checksumOff buf) := fun hsum =>
        hbad ⟨hend, hoff, hsum.symm⟩
      rw [if_neg (not_not.mpr hoff), if_pos hsum]
    · rw [if_pos hoff]

theorem scanFwSections_cases (h : scanFwSections fuel buf = some r) :
    (∃ t, Fx3Walk buf fx3Start t ∧ GoodEnd buf t ∧ r = .ok (firmwareAt buf t)) ∨
      WalkRefused buf ∧ r = .error (.status bladerfErrInval) := by
  rw [scanFwSections_loop hdata] at h
  obtain ⟨r', hloop, hr⟩ := Option.map_eq_some_iff.mp h
  obtain ⟨t, hwalk, ⟨hend, rfl⟩ | ⟨hdead, rfl⟩⟩ :=
    walk_of_scanLoop hdata (fx3Start_placed hdata) hloop
  · by_cases hgood : GoodEnd buf t
    · exact .inl ⟨t, hwalk, hgood, hr.symm.trans ((scanEnd_ended hdata).1 hgood hend)⟩
    · exact .inr ⟨⟨t, hwalk, .inr ⟨hend, hgood⟩⟩,
        hr.symm.trans ((scanEnd_ended hdata).2 hgood hend)⟩
  · exact .inr ⟨⟨t, hwalk, .inl hdead⟩, hr.symm⟩

theorem scanFwSections_good {t : Fx3Scan}
    (hwalk : Fx3Walk buf fx3Start t) (hgood : GoodEnd buf t) :
    ∃ fuel, scanFwSections fuel buf = some (.ok (firmwareAt buf t)) := by
  have hstart := fx3Start_placed hdata
  have hturn := scanTurn_terminator hdata (hwalk.placed hstart) hgood.1
  have hone : scanLoop buf 1 t = some (.ok (t.ended buf)) := by rw [scanLoop, hturn]
  obtain ⟨fuel, hloop⟩ := scanLoop_of_walk hdata hwalk hstart hone
  refine ⟨fuel, ?_⟩
  rw [scanFwSections_loop hdata, hloop]
  exact congrArg some ((scanEnd_ended hdata).1 hgood hgood.1)

theorem scanFwSections_refused (h : WalkRefused buf) :
    ∃ fuel, scanFwSections fuel buf = some (.error (.status bladerfErrInval)) := by
  have hstart := fx3Start_placed hdata
  obtain ⟨t, hwalk, hdead | ⟨hend, hbad⟩⟩ := h
  · have hturn := scanTurn_deadEnd hdata (hwalk.placed hstart) hdead
    have hone : scanLoop buf 1 t = some (.error (.status bladerfErrInval)) := by
      rw [scanLoop, hturn]
    obtain ⟨fuel, hloop⟩ := scanLoop_of_walk hdata hwalk hstart hone
    refine ⟨fuel, ?_⟩
    rw [scanFwSections_loop hdata, hloop]
    rfl
  · have hturn := scanTurn_terminator hdata (hwalk.placed hstart) hend
    have hone : scanLoop buf 1 t = some (.ok (t.ended buf)) := by rw [scanLoop, hturn]
    obtain ⟨fuel, hloop⟩ := scanLoop_of_walk hdata hwalk hstart hone
    refine ⟨fuel, ?_⟩
    rw [scanFwSections_loop hdata, hloop]
    exact congrArg some ((scanEnd_ended hdata).2 hbad hend)

end

end

/-! ## Images and walks -/

namespace FwImage

def tail (m : FwImage) : List (BitVec 8) :=
  wordBytes 0 ++ (wordBytes m.entry ++ wordBytes m.checksum)

theorem length_tail (m : FwImage) : m.tail.length = 12 := by simp [tail]

def Inside (m : FwImage) : Prop := ∀ x ∈ m.sections, ¬x.AtEnd

end FwImage

theorem ImageSection.length_bytes (x : ImageSection) :
    x.bytes.length = 8 + 4 * x.words.length := by
  have hdata : x.data.length = 4 * x.words.length := by
    unfold ImageSection.data
    induction x.words with
    | nil => rfl
    | cons w ws ih =>
        rw [List.flatMap_cons, List.length_append, ih, length_wordBytes, List.length_cons]
        omega
  unfold ImageSection.bytes
  rw [List.length_append, List.length_append, length_wordBytes, length_wordBytes, hdata]
  omega

section

variable {data rest : List (BitVec 8)} {o : ℕ}

theorem words_of_drop {x : ImageSection} (h : data.drop o = x.bytes ++ rest)
    (hsize : x.words.length ≤ fx3RamSizeWords) :
    (fx3Word data o).toNat = x.words.length ∧ fx3Word data (o + 4) = x.addr ∧
      fx3Words data (o + 8) x.words.length = x.words ∧
      o + 8 + 4 * x.words.length ≤ data.length ∧
      data.drop (o + 8 + 4 * x.words.length) = rest ∧ data.drop (o + 8) = x.data ++ rest := by
  unfold ImageSection.bytes at h
  rw [List.append_assoc, List.append_assoc] at h
  obtain ⟨-, hlen, hdrop⟩ := fx3Word_of_drop h
  obtain ⟨hle, haddr, hdrop'⟩ := fx3Word_of_drop hdrop
  obtain ⟨hle', hwords, hrest⟩ := fx3Words_of_drop hdrop' hle
  refine ⟨?_, haddr, hwords, hle', hrest, hdrop'⟩
  have hram : fx3RamSizeWords = 65536 := rfl
  rw [hlen, BitVec.toNat_ofNat, Nat.mod_eq_of_lt (by omega)]

theorem sectionAt_of_drop {x : ImageSection} (h : data.drop o = x.bytes ++ rest) (hx : x.Valid)
    (hshort : data.length < 2 ^ 32) (hrest : 12 ≤ rest.length) :
    ¬x.AtEnd → SectionAt data o (o + 8 + 4 * x.words.length) := by
  intro hinside
  obtain ⟨hlen, haddr, -, hle, hdrop, -⟩ := words_of_drop h hx.2.1
  have hlength : data.length - (o + 8 + 4 * x.words.length) = rest.length := by
    rw [← List.length_drop, hdrop]
  refine ⟨hlen ▸ hx.1, hlen ▸ hx.2.1, ?_, ?_, ?_, ?_⟩
  · rw [hlen, haddr]
    exact (isValidFx3RamAddr_section x hx.1 hx.2.1).mpr ⟨hx, hinside⟩
  · unfold checksumOff
    omega
  · rw [hlen]
    exact Nat.mod_eq_of_lt (by omega)
  · unfold checksumOff
    omega

theorem deadEnd_of_drop {x : ImageSection} (h : data.drop o = x.bytes ++ rest) (hx : x.Valid)
    (hend : x.AtEnd) : DeadEnd data o := by
  obtain ⟨hlen, haddr, -⟩ := words_of_drop h hx.2.1
  refine ⟨fun next hsection => ?_, fun hterminator => ?_⟩
  · have hvalid := hsection.2.2.1
    rw [hlen, haddr] at hvalid
    exact ((isValidFx3RamAddr_section x hx.1 hx.2.1).mp hvalid).2 hend
  · have hzero : (fx3Word data o).toNat = 0 := by
      rw [hterminator.1]
      rfl
    have hpos := hx.1
    omega

def sectionOf (data : List (BitVec 8)) (o : ℕ) : ImageSection where
  addr := fx3Word data (o + 4)
  words := fx3Words data (o + 8) (fx3Word data o).toNat

theorem drop_sectionOf {next : ℕ} (h : SectionAt data o next)
    (hwrap : o + 8 + 4 * (fx3Word data o).toNat < 2 ^ 32) :
    data.drop o = (sectionOf data o).bytes ++ data.drop next ∧ (sectionOf data o).Valid ∧
      ¬(sectionOf data o).AtEnd ∧ next = o + 8 + 4 * (fx3Word data o).toNat := by
  obtain ⟨hpos, hsize, hvalid, hoff, hnext, hlt⟩ := h
  rw [Nat.mod_eq_of_lt hwrap] at hnext
  unfold checksumOff at hlt hoff
  have hlength : (sectionOf data o).words.length = (fx3Word data o).toNat :=
    length_fx3Words data (o + 8) _
  have haddress : isValidFx3RamAddr (sectionOf data o).addr
      (4 * (sectionOf data o).words.length) = true := by
    rw [hlength]
    exact hvalid
  obtain ⟨hregion, hinside⟩ := (isValidFx3RamAddr_section (sectionOf data o)
    (by rw [hlength]; exact hpos) (by rw [hlength]; exact hsize)).mp haddress
  refine ⟨?_, hregion, hinside, hnext.symm⟩
  unfold ImageSection.bytes
  rw [hlength, BitVec.ofNat_toNat, BitVec.setWidth_eq, List.append_assoc, List.append_assoc,
    drop_fx3Word (by omega), drop_fx3Word (o := o + 4) (by omega),
    drop_fx3Words (o := o + 4 + 4) (n := (fx3Word data o).toNat) (by omega), ← hnext]
  rfl

end

section

variable {data tail : List (BitVec 8)} {s t : Fx3Scan}

def sumSections (xs : List ImageSection) (c : BitVec 32) : BitVec 32 :=
  (xs.flatMap fun x => x.words).foldl (fun c w => c + w) c

theorem walk_sections {xs : List ImageSection} (hshort : data.length < 2 ^ 32)
    (htail : 12 ≤ tail.length) (hvalid : ∀ x ∈ xs, x.Valid ∧ ¬x.AtEnd)
    (hs : s.numSections < 2 ^ 32) (h : data.drop s.offset = xs.flatMap ImageSection.bytes ++ tail) :
    ∃ t, Fx3Walk data s t ∧ data.drop t.offset = tail ∧
      t.checksum = sumSections xs s.checksum ∧
      t.numSections = (s.numSections + xs.length) % 2 ^ 32 := by
  induction xs generalizing s with
  | nil => exact ⟨s, .here s, h, rfl, (Nat.mod_eq_of_lt hs).symm⟩
  | cons x xs ih =>
      rw [List.flatMap_cons, List.append_assoc] at h
      obtain ⟨hx, hinside⟩ := hvalid x List.mem_cons_self
      obtain ⟨hlen, -, hwords, -, hdrop, -⟩ := words_of_drop h hx.2.1
      have hsection := sectionAt_of_drop h hx hshort
        (by rw [List.length_append]; omega) hinside
      obtain ⟨t, hwalk, htdrop, hsum, hnum⟩ := @ih (s.behind data _)
        (fun y hy => hvalid y (List.mem_cons_of_mem x hy)) (Nat.mod_lt _ (by decide)) hdrop
      refine ⟨t, .next hsection hwalk, htdrop, ?_, ?_⟩
      · have hcount : (s.offset + 8 + 4 * x.words.length - (s.offset + 8) + 3) / 4 =
            x.words.length := by omega
        rw [hsum, sumSections, sumSections, List.flatMap_cons, List.foldl_append]
        unfold Fx3Scan.behind
        rw [hcount, hwords]
      · rw [hnum, List.length_cons]
        show ((s.numSections + 1) % 2 ^ 32 + xs.length) % 2 ^ 32 = _
        omega

theorem walk_inside {xs : List ImageSection} (hshort : data.length < 2 ^ 32)
    (hvalid : ∀ x ∈ xs, x.Valid) (htail : fx3Word data (data.length - tail.length) = 0)
    (hlength : tail.length ≤ data.length) (hwalk : Fx3Walk data s t)
    (h : data.drop s.offset = xs.flatMap ImageSection.bytes ++ tail)
    (hoff : s.offset ≤ data.length) :
    ∃ ys : List ImageSection, (∀ y ∈ ys, y.Valid) ∧
      data.drop t.offset = ys.flatMap ImageSection.bytes ++ tail ∧ t.offset ≤ data.length := by
  induction hwalk generalizing xs with
  | here s => exact ⟨xs, hvalid, h, hoff⟩
  | @next s t o hsection _ ih =>
      cases xs with
      | nil =>
          have hat : s.offset = data.length - tail.length := by
            have hlen := congrArg List.length h
            rw [List.length_drop, List.flatMap_nil, List.nil_append] at hlen
            omega
          have hpos := hsection.1
          rw [hat, htail] at hpos
          exact absurd hpos (Nat.lt_irrefl 0)
      | cons x xs =>
          rw [List.flatMap_cons, List.append_assoc] at h
          have hx := hvalid x List.mem_cons_self
          obtain ⟨hlen, -, -, hle, hdrop, -⟩ := words_of_drop h hx.2.1
          have hnext : o = s.offset + 8 + 4 * x.words.length := by
            have hmod := hsection.2.2.2.2.1
            rw [hlen, Nat.mod_eq_of_lt (by omega)] at hmod
            exact hmod.symm
          subst hnext
          exact ih (fun y hy => hvalid y (List.mem_cons_of_mem x hy)) hdrop hle

def WalkWraps (data : List (BitVec 8)) : Prop :=
  ∃ s o, Fx3Walk data fx3Start s ∧ SectionAt data s.offset o ∧
    2 ^ 32 ≤ s.offset + 8 + 4 * (fx3Word data s.offset).toNat

theorem sections_of_walk (hwalk : Fx3Walk data s t)
    (hwrap : ∀ u o, Fx3Walk data s u → SectionAt data u.offset o →
      u.offset + 8 + 4 * (fx3Word data u.offset).toNat < 2 ^ 32) :
    ∃ xs : List ImageSection, (∀ x ∈ xs, x.Valid ∧ ¬x.AtEnd) ∧
      data.drop s.offset = xs.flatMap ImageSection.bytes ++ data.drop t.offset ∧
      t.checksum = sumSections xs s.checksum := by
  induction hwalk with
  | here s => exact ⟨[], fun x hx => (by cases hx), rfl, rfl⟩
  | @next s t o hsection _ ih =>
      obtain ⟨hdrop, hvalid, hinside, hnext⟩ :=
        drop_sectionOf hsection (hwrap s o (.here s) hsection)
      obtain ⟨xs, hxs, hdrops, hsum⟩ := ih fun u n hwalk hsec =>
        hwrap u n (.next hsection hwalk) hsec
      refine ⟨sectionOf data s.offset :: xs, fun x hx => ?_, ?_, ?_⟩
      · rcases List.mem_cons.mp hx with rfl | hx
        · exact ⟨hvalid, hinside⟩
        · exact hxs x hx
      · rw [List.flatMap_cons, List.append_assoc, ← hdrops]
        exact hdrop
      · have hcount : (o - (s.offset + 8) + 3) / 4 = (fx3Word data s.offset).toNat := by omega
        rw [hsum, sumSections, sumSections, List.flatMap_cons, List.foldl_append]
        unfold Fx3Scan.behind
        rw [hcount]
        rfl

theorem walk_ends (n : ℕ) (hn : checksumOff data - s.offset ≤ n)
    (hwrap : ∀ u o, Fx3Walk data s u → SectionAt data u.offset o →
      u.offset + 8 + 4 * (fx3Word data u.offset).toNat < 2 ^ 32) :
    ∃ t, Fx3Walk data s t ∧ ∀ o, ¬SectionAt data t.offset o := by
  induction n generalizing s with
  | zero =>
      refine ⟨s, .here s, fun o hsection => ?_⟩
      have hoff := hsection.2.2.2.1
      omega
  | succ n ih =>
      by_cases hsome : ∃ o, SectionAt data s.offset o
      · obtain ⟨o, hsection⟩ := hsome
        obtain ⟨-, -, -, hnext⟩ := drop_sectionOf hsection (hwrap s o (.here s) hsection)
        have hlt : s.offset < o := by omega
        obtain ⟨t, hwalk, hend⟩ := @ih (s.behind data o)
          (by show checksumOff data - o ≤ n; omega)
          (fun u n hwalk hsec => hwrap u n (.next hsection hwalk) hsec)
        exact ⟨t, .next hsection hwalk, hend⟩
      · exact ⟨s, .here s, fun o hsection => hsome ⟨o, hsection⟩⟩

end

/-! ## Images in front of the parser -/

instance (x : ImageSection) : Decidable x.AtEnd :=
  inferInstanceAs (Decidable (_ ∨ _))

section

variable {buf : List (BitVec 8)} {m : FwImage}

theorem terminator_of_tail {o : ℕ} (h : buf.drop o = m.tail) (hm : m.Valid) :
    TerminatorAt buf o ∧ fx3Word buf (o + 4) = m.entry ∧ o + 8 = checksumOff buf ∧
      fx3Word buf (checksumOff buf) = m.checksum := by
  have hlength := congrArg List.length h
  rw [List.length_drop, m.length_tail] at hlength
  obtain ⟨-, hzero, hdrop⟩ := fx3Word_of_drop h
  obtain ⟨-, hentry, hdrop'⟩ := fx3Word_of_drop hdrop
  rw [← List.append_nil (wordBytes m.checksum)] at hdrop'
  obtain ⟨-, hsum, -⟩ := fx3Word_of_drop hdrop'
  have hoff : o + 8 = checksumOff buf := by
    unfold checksumOff
    omega
  exact ⟨⟨hzero, by rw [hentry]; exact hm.2⟩, hentry, hoff, by rw [← hoff]; exact hsum⟩

theorem walk_of_image (hshort : buf.length < 2 ^ 32) (h : buf.drop 4 = m.body) (hm : m.Valid)
    (hinside : m.Inside) :
    ∃ t, Fx3Walk buf fx3Start t ∧ GoodEnd buf t ∧ buf.drop t.offset = m.tail ∧
      fx3Word buf (t.offset + 4) = m.entry ∧ t.numSections = m.sections.length % 2 ^ 32 := by
  obtain ⟨t, hwalk, hdrop, hsum, hnum⟩ := @walk_sections buf m.tail fx3Start m.sections hshort
    m.length_tail.ge (fun x hx => ⟨hm.1 x hx, hinside x hx⟩) (by decide) h
  obtain ⟨hend, hentry, hoff, hchecksum⟩ := terminator_of_tail hdrop hm
  refine ⟨t, hwalk, ⟨hend, hoff, hchecksum.trans hsum.symm⟩, hdrop, hentry, ?_⟩
  rw [hnum]
  show (0 + _) % _ = _
  rw [Nat.zero_add]

theorem refused_of_image (hshort : buf.length < 2 ^ 32) (h : buf.drop 4 = m.body) (hm : m.Valid)
    (hend : ¬m.Inside) : WalkRefused buf := by
  obtain ⟨x, hfind⟩ : ∃ x, m.sections.find? (fun x => decide x.AtEnd) = some x := by
    refine Option.isSome_iff_exists.mp (List.find?_isSome.mpr ?_)
    unfold FwImage.Inside at hend
    push Not at hend
    obtain ⟨x, hx, hat⟩ := hend
    exact ⟨x, hx, decide_eq_true hat⟩
  obtain ⟨hat, before, behind, hsplit, hbefore⟩ := List.find?_eq_some_iff_append.mp hfind
  have hdrop : buf.drop fx3Start.offset = before.flatMap ImageSection.bytes ++
      (x.bytes ++ (behind.flatMap ImageSection.bytes ++ m.tail)) := by
    have hbody : m.body = m.sections.flatMap ImageSection.bytes ++ m.tail := rfl
    show buf.drop 4 = _
    rw [h, hbody, hsplit, List.flatMap_append, List.flatMap_cons, List.append_assoc,
      List.append_assoc]
  obtain ⟨t, hwalk, hdropt, -⟩ := walk_sections hshort
    (by rw [List.length_append, List.length_append, m.length_tail]; omega)
    (fun y hy => ⟨hm.1 y (by rw [hsplit]; exact List.mem_append_left _ hy), by
      simpa using hbefore y hy⟩) (by decide) hdrop
  exact ⟨t, hwalk, .inl (deadEnd_of_drop hdropt
    (hm.1 x (by rw [hsplit]; exact List.mem_append_right _ List.mem_cons_self))
    (of_decide_eq_true hat))⟩

theorem not_wraps_of_image (hshort : buf.length < 2 ^ 32) (h : buf.drop 4 = m.body)
    (hm : m.Valid) : ¬WalkWraps buf := by
  rintro ⟨s, o, hwalk, hsection, hwrap⟩
  have hlength := congrArg List.length h
  have hbody : m.body.length = (m.sections.flatMap ImageSection.bytes).length + 12 := by
    rw [← m.length_tail, ← List.length_append]
    rfl
  rw [List.length_drop, hbody] at hlength
  have htail : buf.drop (buf.length - m.tail.length) = m.tail := by
    have hdrop : buf.drop (4 + (m.sections.flatMap ImageSection.bytes).length) = m.tail := by
      rw [← List.drop_drop, h]
      exact List.drop_left
    rw [m.length_tail, ← hdrop]
    congr 1
    omega
  obtain ⟨ys, hys, hdrop, -⟩ := walk_inside hshort hm.1 (terminator_of_tail htail hm).1.1
    (by rw [m.length_tail]; omega) hwalk h (by show 4 ≤ _; omega)
  cases ys with
  | nil => exact hsection.not_terminator (terminator_of_tail hdrop hm).1
  | cons y ys =>
      rw [List.flatMap_cons, List.append_assoc] at hdrop
      obtain ⟨hlen, -, -, hle, -⟩ := words_of_drop hdrop (hys y List.mem_cons_self).2.1
      omega

theorem image_of_walk {t : Fx3Scan} (hdata : Scannable buf) (hwalk : Fx3Walk buf fx3Start t)
    (hgood : GoodEnd buf t) (hwrap : ¬WalkWraps buf) (control : BitVec 8) :
    ∃ m : FwImage, m.Valid ∧ m.Inside ∧ buf.drop 4 = m.body ∧ m.control = control := by
  have hplaced := hwalk.placed (fx3Start_placed hdata)
  have hle := hplaced.inside hdata
  have hlong := hdata.long
  obtain ⟨hend, hoff, hchecksum⟩ := hgood
  obtain ⟨xs, hxs, hdrop, hsum⟩ := sections_of_walk hwalk fun u o hu hsection =>
    Nat.lt_of_not_le fun hbig => hwrap ⟨u, o, hu, hsection, hbig⟩
  refine ⟨⟨control, xs, fx3Word buf (t.offset + 4)⟩, ⟨fun x hx => (hxs x hx).1, hend.2⟩,
    fun x hx => (hxs x hx).2, ?_, rfl⟩
  have htail : buf.drop t.offset = wordBytes 0 ++ (wordBytes (fx3Word buf (t.offset + 4)) ++
      wordBytes t.checksum) := by
    have hnil : buf.drop (t.offset + 4 + 4 + 4) = [] :=
      List.drop_eq_nil_of_le (by unfold checksumOff at hoff; omega)
    rw [drop_fx3Word (by omega), drop_fx3Word (o := t.offset + 4) (by omega),
      drop_fx3Word (o := t.offset + 4 + 4) (by unfold checksumOff at hoff; omega), hnil,
      List.append_nil, hend.1]
    have hat : t.offset + 4 + 4 = checksumOff buf := hoff
    rw [hat, hchecksum]
  have hstart : buf.drop 4 = xs.flatMap ImageSection.bytes ++ buf.drop t.offset := hdrop
  rw [hstart, htail, hsum]
  rfl

theorem header_of_image (h : buf = m.bytes) :
    HeaderPasses buf ∧ 16 ≤ buf.length ∧ buf.length % 4 = 0 ∧ buf.drop 4 = m.body := by
  have hsections : (m.sections.flatMap ImageSection.bytes).length % 4 = 0 := by
    induction m.sections with
    | nil => rfl
    | cons x xs ih =>
        rw [List.flatMap_cons, List.length_append, x.length_bytes]
        omega
  have hlength : buf.length = 4 + ((m.sections.flatMap ImageSection.bytes).length + 12) := by
    have hbody : m.body = m.sections.flatMap ImageSection.bytes ++ m.tail := rfl
    rw [h, FwImage.bytes, List.length_append, hbody, List.length_append, m.length_tail]
    rfl
  refine ⟨?_, by omega, by omega, ?_⟩
  · rw [h]
    exact ⟨.inl rfl, rfl⟩
  · rw [h]
    rfl

theorem bytes_of_header (hbody : buf.drop 4 = m.body) (h₀ : buf[0]? = some 0x43)
    (h₁ : buf[1]? = some 0x59) (h₂ : buf[2]? = some m.control) (h₃ : buf[3]? = some 0xb0) :
    buf = m.bytes := by
  match buf with
  | b₀ :: b₁ :: b₂ :: b₃ :: rest =>
      have hrest : rest = m.body := hbody
      have e₀ : b₀ = 0x43 := Option.some.inj h₀
      have e₁ : b₁ = 0x59 := Option.some.inj h₁
      have e₂ : b₂ = m.control := Option.some.inj h₂
      have e₃ : b₃ = 0xb0 := Option.some.inj h₃
      rw [e₀, e₁, e₂, e₃, hrest]
      rfl

end

/-! ## The sections, one by one -/

theorem fx3FwSections_eq {tail : List (BitVec 8)} (n : ℕ) {fw : Fx3Firmware}
    {xs : List ImageSection} (hshort : fw.data.length < 2 ^ 32) (htail : 12 ≤ tail.length)
    (hvalid : ∀ x ∈ xs, x.Valid)
    (hdrop : fw.data.drop fw.sectionOffset = xs.flatMap ImageSection.bytes ++ tail)
    (hcount : fw.currSection + xs.length = fw.numSections) :
    fx3FwSections n fw = .ok ((List.range n).map fun k => (xs[k]?).map ImageSection.view) := by
  induction n generalizing fw xs with
  | zero => rfl
  | succ n ih =>
      rw [List.range_succ_eq_map, List.map_cons, List.map_map]
      cases xs with
      | nil =>
          have hdone : fw.numSections ≤ fw.currSection := by
            rw [List.length_nil] at hcount
            omega
          have hnext : fx3FwNextSection fw = .ok (none, fw) := by
            unfold fx3FwNextSection
            rw [if_pos hdone]
          rw [fx3FwSections, hnext]
          have hrest := ih hshort hvalid hdrop hcount
          dsimp only [bind, Except.bind]
          rw [hrest]
          rfl
      | cons x xs =>
          have hx := hvalid x List.mem_cons_self
          have hram : fx3RamSizeWords = 65536 := rfl
          have hsize := hx.2.1
          have hpos := hx.1
          rw [List.length_cons] at hcount
          rw [List.flatMap_cons, List.append_assoc] at hdrop
          obtain ⟨hlen, haddr, -, hle, hrest, hdata⟩ := words_of_drop hdrop hsize
          have hlength : 12 ≤ fw.data.length - (fw.sectionOffset + 8 + 4 * x.words.length) := by
            rw [← List.length_drop, hrest, List.length_append]
            omega
          have hbytes : x.words.length * 4 % 2 ^ 32 = 4 * x.words.length := by omega
          have hview : (fw.data.drop (fw.sectionOffset + 8)).take (4 * x.words.length) = x.data := by
            rw [hdata]
            exact take_flatMap_wordBytes x.words
          have hnext : fx3FwNextSection fw = .ok (some x.view,
              { fw with
                sectionOffset := fw.sectionOffset + 8 + 4 * x.words.length
                currSection := fw.currSection + 1 }) := by
            unfold fx3FwNextSection
            rw [if_neg (by omega), toUint32_inside (by omega)]
            dsimp only [bind, Except.bind]
            rw [hlen, hbytes, if_neg (by omega), if_pos (by unfold checksumOff; omega),
              toUint32_inside (by omega)]
            dsimp only
            have hnowrap : (fw.sectionOffset + 4 + 4 + 4 * x.words.length) % 2 ^ 32 =
                fw.sectionOffset + 8 + 4 * x.words.length := by omega
            rw [hnowrap, if_pos (by unfold checksumOff; omega), haddr, hview]
            rfl
          rw [fx3FwSections, hnext]
          have hrest' := @ih { fw with
            sectionOffset := fw.sectionOffset + 8 + 4 * x.words.length
            currSection := fw.currSection + 1 } xs hshort
            (fun y hy => hvalid y (List.mem_cons_of_mem x hy)) hrest
            (by show fw.currSection + 1 + xs.length = fw.numSections; omega)
          dsimp only [bind, Except.bind]
          rw [hrest']
          rfl

/-! ## What the parser accepts -/

def fx3FwEntryPoint (fw : Fx3Firmware) : BitVec 32 := fw.entryAddr

/-- The parser comes to an end without a failed assertion, accepts exactly the images,
and hands out their sections, once each and in order, and their entry address. -/
def ParsesImages (buf : List (BitVec 8)) : Prop :=
  ∃ fuel r, fx3FwParse fuel buf = some r ∧ r ≠ .error .assertion ∧
    ((∃ fw, r = .ok fw) ↔ ∃ m : FwImage, m.Valid ∧ buf = m.bytes) ∧
    ∀ fw (m : FwImage), r = .ok fw → m.Valid → buf = m.bytes →
      fx3FwEntryPoint fw = m.entry ∧
        ∀ n, fx3FwSections n fw =
          .ok ((List.range n).map fun k => (m.sections[k]?).map ImageSection.view)

structure ParserFits (buf : List (BitVec 8)) : Prop where
  /-- a header that passes is not followed by no section at all -/
  long : HeaderPasses buf → buf.length ≠ 12 ∧ buf.length ≠ 16
  /-- in front of the body of an image, both bytes of the signature are right or neither -/
  signature : ∀ m : FwImage, m.Valid → m.Inside → buf.length < 2 ^ 32 → buf.drop 4 = m.body →
    buf[3]? = some 0xb0 → (buf[0]? = some 0x43 ↔ buf[1]? = some 0x59)
  /-- no section of an image reaches the end of its region, and offsets have 32 bits -/
  inside : ∀ m : FwImage, m.Valid → buf = m.bytes → m.Inside ∧ buf.length < 2 ^ 32
  /-- sections that run past the last offset lead to one that is turned down -/
  offsets : HeaderPasses buf → Scannable buf → WalkWraps buf → WalkRefused buf

section

variable {buf : List (BitVec 8)} {fuel : ℕ}

theorem fx3FwParse_short (h : HeaderPasses buf) (hlength : buf.length = 12 ∨ buf.length = 16) :
    fx3FwParse fuel buf = some (.error .assertion) := by
  rw [fx3FwParse_scan h (by omega) (by omega) (by omega)]
  unfold scanFwSections
  rw [if_neg (by unfold checksumOff; omega)]

theorem fx3FwParse_rejects (h : ¬(HeaderPasses buf ∧ 12 ≤ buf.length ∧ buf.length % 4 = 0 ∧
    buf.length < 2 ^ 32)) : fx3FwParse fuel buf = some (.error (.status bladerfErrInval)) := by
  unfold fx3FwParse
  split_ifs with hbig hsmall hmod hsignature htype
  all_goals first
    | rfl
    | exact absurd ⟨⟨by tauto, not_not.mp htype⟩, by omega, by omega, by omega⟩ h

theorem not_refused_of_good {t : Fx3Scan} (hwalk : Fx3Walk buf fx3Start t)
    (hgood : GoodEnd buf t) : ¬WalkRefused buf := by
  have hnone : ∀ o, ¬SectionAt buf t.offset o := fun o h => h.not_terminator hgood.1
  rintro ⟨t', hwalk', hdead | ⟨hend, hbad⟩⟩
  · rw [← hwalk.end_unique hwalk' hnone hdead.1] at hdead
    exact hdead.2 hgood.1
  · rw [← hwalk.end_unique hwalk' hnone fun o h => h.not_terminator hend] at hbad
    exact hbad hgood

theorem firmwareAt_image {t : Fx3Scan} {m : FwImage} (hdata : Scannable buf)
    (hwalk : Fx3Walk buf fx3Start t) (hgood : GoodEnd buf t) (hm : m.Valid) (hinside : m.Inside)
    (hbody : buf.drop 4 = m.body) :
    fx3FwEntryPoint (firmwareAt buf t) = m.entry ∧
      ∀ n, fx3FwSections n (firmwareAt buf t) =
        .ok ((List.range n).map fun k => (m.sections[k]?).map ImageSection.view) := by
  obtain ⟨t', hwalk', hgood', -, hentry, hnum⟩ := walk_of_image hdata.short hbody hm hinside
  have hsame : t = t' := hwalk.end_unique hwalk' (fun o h => h.not_terminator hgood.1)
    (fun o h => h.not_terminator hgood'.1)
  subst hsame
  have hcount : m.sections.length < 2 ^ 32 := by
    have hlength := congrArg List.length hbody
    have hsections : 8 * m.sections.length ≤ (m.sections.flatMap ImageSection.bytes).length := by
      induction m.sections with
      | nil => exact Nat.le_refl _
      | cons x xs ih =>
          rw [List.flatMap_cons, List.length_append, x.length_bytes, List.length_cons]
          omega
    have hshort := hdata.short
    have hbytes : m.body.length = (m.sections.flatMap ImageSection.bytes ++ m.tail).length := rfl
    rw [List.length_drop, hbytes, List.length_append] at hlength
    omega
  rw [Nat.mod_eq_of_lt hcount] at hnum
  exact ⟨hentry, fun n => fx3FwSections_eq n hdata.short m.length_tail.ge hm.1 hbody
    ((Nat.zero_add _).trans hnum.symm)⟩

theorem parsesImages_of_fits (h : ParserFits buf) : ParsesImages buf := by
  by_cases hchecks : HeaderPasses buf ∧ 12 ≤ buf.length ∧ buf.length % 4 = 0 ∧ buf.length < 2 ^ 32
  · obtain ⟨hheader, htwelve, haligned, hshort⟩ := hchecks
    have hlong := h.long hheader
    have hdata : Scannable buf := ⟨haligned, by omega, hshort⟩
    have hparse (fuel : ℕ) : fx3FwParse fuel buf = scanFwSections fuel buf :=
      fx3FwParse_scan hheader htwelve haligned hshort
    have hrefused (hr : WalkRefused buf) (hno : ∀ m : FwImage, m.Valid → buf ≠ m.bytes) :
        ParsesImages buf := by
      obtain ⟨fuel, hscan⟩ := scanFwSections_refused hdata hr
      exact ⟨fuel, _, (hparse fuel).trans hscan, by simp,
        ⟨fun ⟨fw, he⟩ => (by cases he), fun ⟨m, hm, he⟩ => absurd he (hno m hm)⟩,
        fun fw m he => by cases he⟩
    by_cases hwraps : WalkWraps buf
    · refine hrefused (h.offsets hheader hdata hwraps) fun m hm he => ?_
      exact not_wraps_of_image hshort (header_of_image he).2.2.2 hm hwraps
    · obtain ⟨t, hwalk, hend⟩ := @walk_ends buf fx3Start _ (Nat.le_refl _) fun u o hu hsection =>
        Nat.lt_of_not_le fun hbig => hwraps ⟨u, o, hu, hsection, hbig⟩
      by_cases hgood : GoodEnd buf t
      · obtain ⟨fuel, hscan⟩ := scanFwSections_good hdata hwalk hgood
        refine ⟨fuel, _, (hparse fuel).trans hscan, by simp, ⟨fun _ => ?_, fun _ => ⟨_, rfl⟩⟩,
          fun fw m he hm hbytes => ?_⟩
        · obtain ⟨control, hcontrol⟩ : ∃ control, buf[2]? = some control :=
            ⟨_, List.getElem?_eq_getElem (by omega)⟩
          obtain ⟨m, hm, hinside, hbody, rfl⟩ := image_of_walk hdata hwalk hgood hwraps control
          have hboth := h.signature m hm hinside hshort hbody hheader.2
          have hfirst : buf[0]? = some 0x43 := hheader.1.elim id hboth.mpr
          exact ⟨m, hm, bytes_of_header hbody hfirst (hboth.mp hfirst) hcontrol hheader.2⟩
        · cases he
          exact firmwareAt_image hdata hwalk hgood hm (h.inside m hm hbytes).1
            (header_of_image hbytes).2.2.2
      · have hr : WalkRefused buf := by
          refine ⟨t, hwalk, ?_⟩
          by_cases hterminator : TerminatorAt buf t.offset
          · exact .inr ⟨hterminator, hgood⟩
          · exact .inl ⟨hend, hterminator⟩
        refine hrefused hr fun m hm he => ?_
        obtain ⟨t', hwalk', hgood', -⟩ :=
          walk_of_image hshort (header_of_image he).2.2.2 hm (h.inside m hm he).1
        exact not_refused_of_good hwalk' hgood' hr
  · refine ⟨0, _, fx3FwParse_rejects hchecks, by simp, ⟨fun ⟨fw, he⟩ => (by cases he), ?_⟩,
      fun fw m he => by cases he⟩
    rintro ⟨m, hm, he⟩
    obtain ⟨hheader, hlength, haligned, -⟩ := header_of_image he
    exact absurd ⟨hheader, by omega, haligned, (h.inside m hm he).2⟩ hchecks

theorem fits_of_parsesImages (h : ParsesImages buf) : ParserFits buf := by
  obtain ⟨fuel, r, hrun, hassert, himages, -⟩ := h
  have hlong : HeaderPasses buf → buf.length ≠ 12 ∧ buf.length ≠ 16 := by
    intro hheader
    by_contra hlength
    have hassertion := @fx3FwParse_short buf fuel hheader (by omega)
    rw [hrun] at hassertion
    exact hassert (Option.some.inj hassertion)
  -- behind a header that passes the outcome is that of the walk
  have hcases (hheader : HeaderPasses buf) (hdata : Scannable buf) :
      (∃ t, Fx3Walk buf fx3Start t ∧ GoodEnd buf t ∧ r = .ok (firmwareAt buf t)) ∨
        WalkRefused buf ∧ r = .error (.status bladerfErrInval) := by
    have hlength := hdata.long
    rw [fx3FwParse_scan hheader (by omega) hdata.aligned hdata.short] at hrun
    exact scanFwSections_cases hdata hrun
  have hscannable {m : FwImage} (hheader : HeaderPasses buf) (hshort : buf.length < 2 ^ 32)
      (hbody : buf.drop 4 = m.body) : Scannable buf := by
    have hm : [0x43, 0x59, m.control, 0xb0] ++ buf.drop 4 = m.bytes := by
      rw [hbody]
      rfl
    obtain ⟨-, hlength, haligned, -⟩ := header_of_image hm
    rw [List.length_append, List.length_drop] at hlength haligned
    simp only [List.length_cons, List.length_nil] at hlength haligned
    have hnot := hlong hheader
    exact ⟨by omega, by omega, hshort⟩
  refine ⟨hlong, fun m hm hinside hshort hbody htype => ?_, fun m hm hbytes => ?_,
    fun hheader hdata hwraps => ?_⟩
  · by_contra hone
    have hheader : HeaderPasses buf := ⟨by tauto, htype⟩
    obtain ⟨t, hwalk, hgood, -⟩ := walk_of_image hshort hbody hm hinside
    rcases hcases hheader (hscannable hheader hshort hbody) with ⟨_, _, _, hok⟩ | ⟨hr, -⟩
    · obtain ⟨m', -, he⟩ := himages.mp ⟨_, hok⟩
      rw [he] at hone
      exact hone ⟨fun _ => rfl, fun _ => rfl⟩
    · exact not_refused_of_good hwalk hgood hr
  · obtain ⟨hheader, -, -, hbody⟩ := header_of_image hbytes
    obtain ⟨fw, hok⟩ := himages.mpr ⟨m, hm, hbytes⟩
    have hshort : buf.length < 2 ^ 32 := by
      by_contra hbig
      rw [fx3FwParse_rejects (by tauto), hok] at hrun
      cases hrun
    refine ⟨?_, hshort⟩
    by_contra hend
    have hr := refused_of_image hshort hbody hm hend
    rcases hcases hheader (hscannable hheader hshort hbody) with ⟨t, hwalk, hgood, -⟩ | ⟨-, he⟩
    · exact not_refused_of_good hwalk hgood hr
    · rw [he] at hok
      cases hok
  · rcases hcases hheader hdata with ⟨t, hwalk, hgood, hok⟩ | ⟨hr, -⟩
    · obtain ⟨m, hm, hbytes⟩ := himages.mp ⟨_, hok⟩
      exact absurd hwraps
        (not_wraps_of_image hdata.short (header_of_image hbytes).2.2.2 hm)
    · exact hr

/-- **When the parser does what it is for.** -/
theorem parsesImages_iff : ParsesImages buf ↔ ParserFits buf :=
  ⟨fits_of_parsesImages, parsesImages_of_fits⟩

end

/-- A header with no section behind it, only the entry address and the checksum, is
an image. -/
def emptyImage : FwImage where
  control := 0x1c
  sections := []
  entry := 0x40000000

theorem not_parsesImages : ¬∀ buf : List (BitVec 8), ParsesImages buf := by
  intro h
  obtain ⟨fuel, r, hrun, hassert, -⟩ := h emptyImage.bytes
  have hheader : HeaderPasses emptyImage.bytes := ⟨.inl rfl, rfl⟩
  rw [fx3FwParse_short hheader (.inr rfl)] at hrun
  exact hassert (Option.some.inj hrun).symm

end BladeRF
