/-
# `Flash.Chip` — geometry and access of the SPI flash

The host knows the flash by its sizes, which it takes from the chip's identity or
guesses from the FPGA.  It erases whole blocks, writes and reads whole pages, and
refuses what is not on the chip.
-/
import BladeRF.Lib.CString

namespace BladeRF

open Lib (Memory bytesAt)

/-- `bladerf_fpga_size`. -/
inductive FpgaSize
  | unknown
  | kle40
  | kle115
  | a4
  | a5
  | a9
  deriving DecidableEq

/-- `bladerf_flash_arch`. -/
structure FlashArch where
  tsizeBytes : ℕ
  psizeBytes : ℕ
  ebsizeBytes : ℕ

namespace FlashArch

variable (arch : FlashArch)

def numPages : ℕ := arch.tsizeBytes / arch.psizeBytes

def numEbs : ℕ := arch.tsizeBytes / arch.ebsizeBytes

end FlashArch

def knownChip (manufacturerId deviceId : ℕ) : Option ℕ :=
  match manufacturerId, deviceId with
  | 0xc2, 0x36 => some (32 <<< 17)
  | 0xef, 0x15 => some (32 <<< 17)
  | 0xef, 0x16 => some (64 <<< 17)
  | 0xef, 0x17 => some (128 <<< 17)
  | 0x1f, 0x47 => some (32 <<< 17)
  | _, _ => none

def spiFlashDecodeFlashArchitecture (manufacturerId deviceId : ℕ) (fpgaSize : Option FpgaSize) :
    FlashArch where
  tsizeBytes := (knownChip manufacturerId deviceId).getD
    (if fpgaSize = some .a9 then 128 <<< 17 else 32 <<< 17)
  psizeBytes := 256
  ebsizeBytes := 64 <<< 10

/-- The geometry of every chip: pages of 256 bytes, blocks of 64 KiB, at most 16 MiB. -/
structure FlashArch.Regular (arch : FlashArch) : Prop where
  psize : arch.psizeBytes = 256
  ebsize : arch.ebsizeBytes = 65536
  blocks : ∃ n, n ≤ 256 ∧ arch.tsizeBytes = n * 65536

theorem regular_decode (manufacturerId deviceId : ℕ) (fpgaSize : Option FpgaSize) :
    (spiFlashDecodeFlashArchitecture manufacturerId deviceId fpgaSize).Regular := by
  have hknown : ∀ t ∈ knownChip manufacturerId deviceId, ∃ n, n ≤ 256 ∧ t = n * 65536 := by
    unfold knownChip
    intro t ht
    split at ht
    · exact ⟨64, by decide, (Option.some.inj ht).symm⟩
    · exact ⟨64, by decide, (Option.some.inj ht).symm⟩
    · exact ⟨128, by decide, (Option.some.inj ht).symm⟩
    · exact ⟨256, by decide, (Option.some.inj ht).symm⟩
    · exact ⟨64, by decide, (Option.some.inj ht).symm⟩
    · exact nomatch ht
  refine ⟨rfl, rfl, ?_⟩
  unfold spiFlashDecodeFlashArchitecture
  dsimp only
  cases hk : knownChip manufacturerId deviceId with
  | some t => exact hknown t hk
  | none =>
      rw [Option.getD_none]
      split_ifs
      · exact ⟨256, by decide, rfl⟩
      · exact ⟨64, by decide, rfl⟩

/-- `BLADERF_ERR_*` of the flash path. -/
inductive FlashError
  | inval
  | mem
  | io
  | unexpected
  | updateFw
  deriving DecidableEq

structure Flash where
  mem : Memory
  erased : List ℕ
  written : List ℕ

def attempt : Option FlashError → Except FlashError Unit
  | some err => .error err
  | none => .ok ()

/-- A check that returns `err` when it fails. -/
def require (c : Prop) [Decidable c] (err : FlashError) : Except FlashError Unit :=
  if c then .ok () else .error err

section

variable {α β : Type} {x : Except FlashError α} {f : α → Except FlashError β} {b : β}

theorem bind_eq_ok : x >>= f = .ok b ↔ ∃ a, x = .ok a ∧ f a = .ok b := by
  cases x with
  | error err => exact ⟨fun h => (nomatch h), fun ⟨_, h, _⟩ => (nomatch h)⟩
  | ok a => exact ⟨fun h => ⟨a, rfl, h⟩, fun ⟨_, h, hf⟩ => Except.ok.inj h ▸ hf⟩

theorem require_eq_ok {c : Prop} [Decidable c] {err : FlashError} {u : Unit} :
    require c err = .ok u ↔ c := by
  unfold require
  split_ifs with h
  · exact ⟨fun _ => h, fun _ => rfl⟩
  · exact ⟨fun he => (nomatch he), fun hc => absurd hc h⟩

theorem attempt_eq_ok {fault : Option FlashError} {u : Unit} :
    attempt fault = .ok u ↔ fault = none := by
  cases fault with
  | none => exact ⟨fun _ => rfl, fun _ => rfl⟩
  | some err => exact ⟨fun h => (nomatch h), fun h => (nomatch h)⟩

end

/-! ## Access -/

def EbAccess (arch : FlashArch) (eraseBlock count : ℕ) : Prop :=
  eraseBlock < arch.numEbs ∧ count ≤ arch.numEbs ∧ eraseBlock + count ≤ arch.numEbs

def PageAccess (arch : FlashArch) (page count : ℕ) : Prop :=
  page < arch.numPages ∧ count ≤ arch.numPages ∧ page + count ≤ arch.numPages

instance (arch : FlashArch) (eraseBlock count : ℕ) : Decidable (EbAccess arch eraseBlock count) :=
  inferInstanceAs (Decidable (_ ∧ _))

instance (arch : FlashArch) (page count : ℕ) : Decidable (PageAccess arch page count) :=
  inferInstanceAs (Decidable (_ ∧ _))

def eraseBytes (m : Memory) (addr n : ℕ) : Memory := fun i =>
  if addr ≤ i ∧ i < addr + n then 0xff else m i

/-- Writing a byte over another gives `program old new`. -/
def programBytes (program : BitVec 8 → BitVec 8 → BitVec 8) (m : Memory) (addr : ℕ)
    (bs : List (BitVec 8)) : Memory := fun i =>
  if addr ≤ i then (bs[i - addr]?).elim (m i) (program (m i)) else m i

/-- `spi_flash_erase`; `fault` is what the backend returns. -/
def spiFlashErase (arch : FlashArch) (fault : Option FlashError) (eraseBlock count : ℕ)
    (f : Flash) : Except FlashError Flash := do
  require (EbAccess arch eraseBlock count) .inval
  attempt fault
  return { f with
    mem := eraseBytes f.mem (eraseBlock * arch.ebsizeBytes) (count * arch.ebsizeBytes)
    erased := f.erased ++ List.range' eraseBlock count }

/-- `spi_flash_write` of a buffer of `count` pages. -/
def spiFlashWrite (arch : FlashArch) (program : BitVec 8 → BitVec 8 → BitVec 8)
    (fault : Option FlashError) (buf : List (BitVec 8)) (page count : ℕ) (f : Flash) :
    Except FlashError Flash := do
  require (PageAccess arch page count) .inval
  attempt fault
  return { f with
    mem := programBytes program f.mem (page * arch.psizeBytes) (buf.take (count * arch.psizeBytes))
    written := f.written ++ List.range' page count }

def spiFlashVerify (arch : FlashArch) (fault : Option FlashError) (expected : List (BitVec 8))
    (page count : ℕ) (f : Flash) : Except FlashError Unit := do
  require (PageAccess arch page count) .inval
  attempt fault
  require (bytesAt f.mem (page * arch.psizeBytes) (count * arch.psizeBytes) = expected) .unexpected

section

variable {m : Memory} {program : BitVec 8 → BitVec 8 → BitVec 8} {addr i : ℕ}
  {bs : List (BitVec 8)}

theorem eraseBytes_in {n : ℕ} (h : addr ≤ i) (h' : i < addr + n) : eraseBytes m addr n i = 0xff :=
  if_pos ⟨h, h'⟩

theorem eraseBytes_below {n : ℕ} (h : i < addr) : eraseBytes m addr n i = m i :=
  if_neg fun hi => absurd hi.1 (not_le.mpr h)

theorem programBytes_below (h : i < addr) : programBytes program m addr bs i = m i :=
  if_neg (not_le.mpr h)

theorem programBytes_above (h : addr + bs.length ≤ i) : programBytes program m addr bs i = m i := by
  unfold programBytes
  rw [List.getElem?_eq_none (by omega)]
  split_ifs <;> rfl

theorem bytesAt_programBytes (hp : ∀ b, program 0xff b = b)
    (herased : ∀ i, addr ≤ i → i < addr + bs.length → m i = 0xff) :
    bytesAt (programBytes program m addr bs) addr bs.length = bs := by
  refine List.ext_getElem (by simp) fun i h1 h2 => ?_
  rw [Lib.getElem_bytesAt]
  unfold programBytes
  rw [if_pos (Nat.le_add_right addr i), Nat.add_sub_cancel_left, List.getElem?_eq_getElem h2,
    herased (addr + i) (Nat.le_add_right addr i) (by omega)]
  exact hp _

end

end BladeRF
