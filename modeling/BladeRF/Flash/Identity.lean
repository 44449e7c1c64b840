/-
# `Flash.Identity` — the serial number on the two sides of the cable

The FX3 puts the serial of the OTP page into its USB descriptor at boot, and
the host reads the same page to name the device.  The FX3 passes the size of a
32-byte buffer to a reader that now counts the terminator, and copies the
buffer whole: a serial of 32 characters loses its last one, and a shorter one
carries its terminator and whatever lay behind it on the stack.
-/
import BladeRF.Flash.Binkv
import Mathlib.Data.List.Pairwise

namespace BladeRF

open Lib (CStr Memory bytesAt writeBytes)

def otpBufferSize : ℕ := 256

def erasedPage : Memory := fun _ => 0xff

/-- The key of the serial number, `"S"`. -/
def serialKey : CStr := ⟨[0x53], by decide⟩

/-- The character `'0'`. -/
def zeroChar : BitVec 8 := 0x30

def NonPrefix (r r' : BinkvRecord) : Prop :=
  ¬ r.key.IsPrefix r'.key ∧ ¬ r'.key.IsPrefix r.key

instance : Std.Symm NonPrefix := ⟨fun _ _ h => h.symm⟩

/-- An OTP page: fields written one behind the other into an erased page that
holds them all, no key a prefix of another. -/
structure OtpPage where
  records : List BinkvRecord
  mem : Memory
  idx : ℕ
  encoded : binkvEncodeFields otpBufferSize (erasedPage, 0) records = some (mem, idx)
  fits : idx ≤ otpBufferSize
  keys : records.Pairwise NonPrefix

def OtpPage.ReadInto (page : OtpPage) (buf : Memory) : Prop :=
  ∀ i < otpBufferSize, buf i = page.mem i

/-! ## The FX3 -/

/-- `CyFxUSBSerial` before it is filled in: 32 times `'0'`. -/
def cyFxUSBSerial : Memory := fun i =>
  if i = 0 then 0x42 else if i = 1 then 0x03 else if i % 2 = 0 then zeroChar else 0

/-- `for (i = 0; i < 32; i++) CyFxUSBSerial[2+i*2] = serial_buf[i]`. -/
def copySerial (descr serialBuf : Memory) : ℕ → Memory
  | 0 => descr
  | n + 1 => Function.update (copySerial descr serialBuf n) (2 + n * 2) (serialBuf n)

/-- The serial part of `extractSerialAndCal`; `stack` is what `serial_buf` holds
before. -/
def extractSerial (otpBuf stack : Memory) : Memory :=
  match nuandExtractField otpBuf otpBufferSize serialKey 32 with
  | some val => copySerial cyFxUSBSerial (writeBytes stack 0 (val ++ [0])) 32
  | none => cyFxUSBSerial

def descriptorChars (descr : Memory) : List (BitVec 8) :=
  (List.range 32).map fun i => descr (2 + i * 2)

/-! ## The host -/

def bladerfSerialLength : ℕ := 33

/-- `spi_flash_read_serial`: the string left in `serial_buf`, if the field was
found. -/
def spiFlashReadSerial (otp : Memory) : Option (List (BitVec 8)) :=
  (binkvDecodeField otp otpBufferSize serialKey (bladerfSerialLength - 1)).map
    fun val => val.takeWhile (· ≠ 0)

/-! ## One identity -/

/-- The descriptor is the host's serial, padded by the default. -/
def SerialAgrees (otpBuf stack otp : Memory) : Prop :=
  ∃ serial, spiFlashReadSerial otp = some serial ∧
    descriptorChars (extractSerial otpBuf stack) =
      serial ++ (descriptorChars cyFxUSBSerial).drop serial.length

/-- For every key and capacity both readers accept, and a value that fits with
its terminator is the same. -/
def ExtractorsAgree (otpBuf otp : Memory) : Prop :=
  ∀ (field : CStr) (maxlen : ℕ),
    ((nuandExtractField otpBuf otpBufferSize field maxlen).isSome ↔
      (binkvDecodeField otp otpBufferSize field maxlen).isSome) ∧
    ∀ val, binkvDecodeField otp otpBufferSize field maxlen = some val → val.length < maxlen →
      nuandExtractField otpBuf otpBufferSize field maxlen = some val

variable {page : OtpPage} {serial : CStr}

theorem OtpPage.holdsRecords (page : OtpPage) {buf : Memory} (h : page.ReadInto buf) :
    HoldsRecords buf otpBufferSize 0 page.records :=
  (holdsRecords_of_encode page.records erasedPage page.mem 0 page.idx (fun _ _ _ => rfl)
    page.encoded page.fits).1.congr h

section

variable (hmem : ⟨serialKey, serial⟩ ∈ page.records)

include hmem

theorem OtpPage.serial_unique {r : BinkvRecord}
    (hr : r ∈ page.records) (hpre : serialKey.chars <+: r.data) : r = ⟨serialKey, serial⟩ := by
  by_contra hne
  obtain ⟨hrs, hsr⟩ := page.keys.forall hr hmem hne
  cases hk : r.key.chars with
  | nil => exact hrs (by simp [CStr.IsPrefix, hk])
  | cons b bs =>
      refine hsr ?_
      have hpre' : [0x53] <+: (b :: bs) ++ r.val.chars := by
        rw [← hk]
        exact hpre
      show serialKey.chars <+: r.key.chars
      rw [hk]
      obtain ⟨t, ht⟩ := hpre'
      injection ht with hb _
      exact ⟨bs, by rw [← hb]; rfl⟩

theorem OtpPage.serial_comparable :
    Comparable serialKey page.records := by
  intro r hr
  by_contra hlt
  have hempty : r.data.length = 0 := by
    have h1 : serialKey.length = 1 := rfl
    omega
  have hkey : r.key.chars = [] := by
    rw [BinkvRecord.length_data] at hempty
    exact List.length_eq_zero_iff.mp (by unfold CStr.length at hempty; omega)
  by_cases heq : r = ⟨serialKey, serial⟩
  · rw [heq] at hkey
    cases hkey
  · exact (page.keys.forall hr hmem heq).1 (by simp [CStr.IsPrefix, hkey])

theorem OtpPage.findRecord_serial :
    findRecord serialKey page.records = some ⟨serialKey, serial⟩ := by
  have hsome : (findRecord serialKey page.records).isSome := by
    rw [findRecord, List.find?_isSome]
    exact ⟨_, hmem, by simp [BinkvRecord.data]⟩
  obtain ⟨r, hr⟩ := Option.isSome_iff_exists.mp hsome
  have hpre : serialKey.chars <+: r.data := by simpa using List.find?_some hr
  rw [hr, OtpPage.serial_unique hmem (List.mem_of_find?_eq_some hr) hpre]

theorem OtpPage.host_serial
    (hlen : serial.length ≤ 32) {otp : Memory} (hotp : page.ReadInto otp) :
    spiFlashReadSerial otp = some serial.chars := by
  have hhold := page.holdsRecords hotp
  rw [spiFlashReadSerial, binkvDecodeField,
    binkvDecodeFrom_eq hhold (OtpPage.serial_comparable hmem) _ _ (hhold.fuel (by decide)),
    OtpPage.findRecord_serial hmem]
  have htake : serial.chars.take 32 = serial.chars := List.take_of_length_le hlen
  have hnul : serial.chars.takeWhile (· ≠ 0) = serial.chars := by
    rw [List.takeWhile_eq_self_iff]
    intro b hb
    rw [decide_eq_true_eq]
    rintro rfl
    exact serial.noNul hb
  simp only [Option.map_some, BinkvRecord.data]
  rw [show serialKey.length = serialKey.chars.length from rfl, List.drop_left,
    show bladerfSerialLength - 1 = 32 from rfl, htake, hnul]

theorem OtpPage.fx3_extract {otpBuf : Memory}
    (hbuf : page.ReadInto otpBuf) :
    nuandExtractField otpBuf otpBufferSize serialKey 32 = some (serial.chars.take 31) := by
  have hhold := page.holdsRecords hbuf
  rw [nuandExtractField,
    nuandExtractFrom_eq hhold (OtpPage.serial_comparable hmem) _ _ (hhold.fuel (by decide)),
    OtpPage.findRecord_serial hmem]
  simp only [Option.map_some, BinkvRecord.data]
  rw [show serialKey.length = serialKey.chars.length from rfl, List.drop_left]

end

theorem copySerial_apply {descr serialBuf : Memory} :
    ∀ (n i : ℕ), i < n → copySerial descr serialBuf n (2 + i * 2) = serialBuf i := by
  intro n
  induction n with
  | zero => intro i hi; omega
  | succ n ih =>
      intro i hi
      unfold copySerial
      by_cases h : i = n
      · rw [h, Function.update_self]
      · rw [Function.update_of_ne (by omega), ih i (by omega)]

theorem OtpPage.descriptor_terminator (hmem : ⟨serialKey, serial⟩ ∈ page.records)
    {otpBuf stack : Memory} (hbuf : page.ReadInto otpBuf) :
    (descriptorChars (extractSerial otpBuf stack))[(serial.chars.take 31).length]? = some 0 := by
  have hlt : (serial.chars.take 31).length < 32 := by
    rw [List.length_take]
    omega
  rw [extractSerial, OtpPage.fx3_extract hmem hbuf]
  simp only [descriptorChars]
  rw [List.getElem?_map, List.getElem?_range hlt, Option.map_some, copySerial_apply 32 _ hlt]
  simp [writeBytes]

theorem OtpPage.not_serialAgrees (hmem : ⟨serialKey, serial⟩ ∈ page.records)
    (hlen : serial.length ≤ 32) {otpBuf otp stack : Memory} (hbuf : page.ReadInto otpBuf)
    (hotp : page.ReadInto otp) : ¬ SerialAgrees otpBuf stack otp := by
  rintro ⟨serial', hhost, hdescr⟩
  rw [OtpPage.host_serial hmem hlen hotp] at hhost
  obtain rfl : serial.chars = serial' := by simpa using hhost
  have hnul : (descriptorChars (extractSerial otpBuf stack))[(serial.chars.take 31).length]? =
      some 0 := OtpPage.descriptor_terminator hmem hbuf
  rw [hdescr] at hnul
  rcases List.mem_append.mp (List.mem_of_getElem? hnul) with h | h
  · exact serial.noNul h
  · have hpad : (0 : BitVec 8) ∈ descriptorChars cyFxUSBSerial := List.mem_of_mem_drop h
    exact absurd hpad (by decide)

/-- No page gives the two sides one identity: for every OTP page with a serial
of up to 32 characters the descriptor is not the host's serial. -/
theorem fx3_serial_differs (page : OtpPage) (serial : CStr)
    (hmem : ⟨serialKey, serial⟩ ∈ page.records) (hlen : serial.length ≤ 32)
    (otpBuf otp stack : Memory) (hbuf : page.ReadInto otpBuf) (hotp : page.ReadInto otp) :
    ¬ (SerialAgrees otpBuf stack otp ∧ ExtractorsAgree otpBuf otp) := by
  rintro ⟨hserial, -⟩
  exact OtpPage.not_serialAgrees hmem hlen hbuf hotp hserial

def shortSerial : CStr := ⟨[0x34, 0x32], by decide⟩

def shortPage : OtpPage where
  records := [⟨serialKey, shortSerial⟩]
  mem := writeBytes erasedPage 0 (BinkvRecord.bytes ⟨serialKey, shortSerial⟩)
  idx := 6
  encoded := rfl
  fits := by decide
  keys := List.pairwise_singleton _ _

theorem fx3_serial_differs_short :
    ¬ (SerialAgrees shortPage.mem erasedPage shortPage.mem ∧
      ExtractorsAgree shortPage.mem shortPage.mem) :=
  fx3_serial_differs shortPage shortSerial (List.mem_singleton_self _) (by decide) _ _ _
    (fun _ _ => rfl) (fun _ _ => rfl)

def fullSerial : CStr := ⟨List.replicate 32 0x61, by decide⟩

def fullPage : OtpPage where
  records := [⟨serialKey, fullSerial⟩]
  mem := writeBytes erasedPage 0 (BinkvRecord.bytes ⟨serialKey, fullSerial⟩)
  idx := 36
  encoded := rfl
  fits := by decide
  keys := List.pairwise_singleton _ _

/-- The host reads 32 characters, the FX3's descriptor ends in a terminator. -/
theorem fx3_serial_truncated :
    spiFlashReadSerial fullPage.mem = some fullSerial.chars ∧
      (descriptorChars (extractSerial fullPage.mem erasedPage))[31]? = some 0 ∧
      ¬ SerialAgrees fullPage.mem erasedPage fullPage.mem := by
  have hmem : ⟨serialKey, fullSerial⟩ ∈ fullPage.records := List.mem_singleton_self _
  have hread : fullPage.ReadInto fullPage.mem := fun _ _ => rfl
  exact ⟨OtpPage.host_serial hmem le_rfl hread, OtpPage.descriptor_terminator hmem hread,
    OtpPage.not_serialAgrees hmem le_rfl hread hread⟩

/-! ## What the host encodes -/

/-- What the host encodes is read alike on both sides: the first record that starts
with the key, with one character less on the FX3. -/
theorem encoded_page_read {len idx : ℕ} {m₀ m : Memory} {rs : List BinkvRecord} {field : CStr}
    (hff : ∀ i < len, m₀ i = 0xff) (henc : binkvEncodeFields len (m₀, 0) rs = some (m, idx))
    (hfits : idx ≤ len) (hlen : 0 < len) (hc : Comparable field rs) (maxlen : ℕ) :
    binkvDecodeField m len field maxlen =
        (findRecord field rs).map (fun r => (r.data.drop field.length).take maxlen) ∧
      nuandExtractField m len field maxlen =
        (findRecord field rs).map fun r => (r.data.drop field.length).take (maxlen - 1) := by
  have hpage := (holdsRecords_of_encode rs m₀ m 0 idx (fun i _ => hff i) henc hfits).1
  exact ⟨binkvDecodeFrom_eq hpage hc maxlen len (hpage.fuel hlen),
    nuandExtractFrom_eq hpage hc maxlen len (hpage.fuel hlen)⟩

/-- The size of an FPGA, key `B`. -/
def fpgaField : BinkvRecord := ⟨.ofBytes [0x42], .ofBytes [0x41, 0x34]⟩

def absentKey : CStr := .ofBytes [0x44]

def twoFields : List BinkvRecord := [fpgaField, ⟨serialKey, shortSerial⟩]

theorem twoFields_encoded :
    ∃ m, binkvEncodeFields otpBufferSize (erasedPage, 0) twoFields = some (m, 12) := ⟨_, rfl⟩

theorem encoded_page_read_two :
    ∃ m, binkvEncodeFields otpBufferSize (erasedPage, 0) twoFields = some (m, 12) ∧
      (binkvDecodeField m otpBufferSize serialKey 32 = some shortSerial.chars ∧
        nuandExtractField m otpBufferSize serialKey 32 = some shortSerial.chars) ∧
      (binkvDecodeField m otpBufferSize fpgaField.key 2 = some [0x41, 0x34] ∧
        nuandExtractField m otpBufferSize fpgaField.key 2 = some [0x41]) ∧
      binkvDecodeField m otpBufferSize absentKey 32 = none ∧
        nuandExtractField m otpBufferSize absentKey 32 = none := by
  obtain ⟨m, hm⟩ := twoFields_encoded
  have hcomparable : ∀ field : CStr, field.length = 1 → Comparable field twoFields :=
    fun _ hfield r hr => hfield ▸ (by decide : ∀ r ∈ twoFields, 1 ≤ r.data.length) r hr
  exact ⟨m, hm,
    encoded_page_read (fun _ _ => rfl) hm (by decide) (by decide) (hcomparable _ rfl) 32,
    encoded_page_read (fun _ _ => rfl) hm (by decide) (by decide) (hcomparable _ rfl) 2,
    encoded_page_read (fun _ _ => rfl) hm (by decide) (by decide) (hcomparable _ rfl) 32⟩

end BladeRF
