/-
# `Flash.RoundTrip` — a bitstream written by the host is loaded by the FX3

What `spi_flash_write_fpga_bitstream` leaves in flash is known from its two
verifications.  The FX3 finds the fields it asks for in the metadata page, cut to
nine characters, and its loaders send what the host stored.  The lengths agree
as long as they have nine digits.  The compressed length always has; the length
of the bitstream is cut from 10⁹ bytes on, and the loader then stops with frames
left.
-/
import BladeRF.Flash.Loader

namespace BladeRF

open Lib (CStr Memory bytesAt leBytes decimal decimalStr atoi)

set_option maxRecDepth 4000

/-! ## The metadata page -/

section

variable {m : Memory} {idx : ℕ} {rs : List BinkvRecord}

theorem binkvEncodeFields_fits (rs : List BinkvRecord) : ∀ (m : Memory) (idx : ℕ),
    (∀ r ∈ rs, r.data.length < 255) → idx + (rs.map (·.bytes.length)).sum ≤ metadataLen →
    ∃ m', binkvEncodeFields metadataLen (m, idx) rs =
      some (m', idx + (rs.map (·.bytes.length)).sum) := by
  induction rs with
  | nil => intro m idx _ _; exact ⟨m, rfl⟩
  | cons r rs ih =>
      intro m idx hdata hfits
      have hr := hdata r List.mem_cons_self
      rw [List.map_cons, List.sum_cons, BinkvRecord.length_bytes] at hfits
      have hone : binkvEncodeField m metadataLen idx r =
          some (Lib.writeBytes m idx r.bytes, idx + (r.data.length + 1) + 2) :=
        if_neg (by unfold metadataLen at *; omega)
      obtain ⟨m', henc⟩ := ih (Lib.writeBytes m idx r.bytes) (idx + (r.data.length + 1) + 2)
        (fun s hs => hdata s (List.mem_cons_of_mem _ hs)) (by omega)
      refine ⟨m', ?_⟩
      show (binkvEncodeField m metadataLen idx r).bind _ = _
      rw [hone, Option.bind_some, henc, List.map_cons, List.sum_cons, BinkvRecord.length_bytes]
      congr 2
      omega

theorem foldl_encode (rs : List BinkvRecord) : ∀ (p q : Memory × ℕ),
    binkvEncodeFields metadataLen p rs = some q →
    rs.foldl (fun p r => (binkvEncodeField p.1 metadataLen p.2 r).getD p) p = q := by
  induction rs with
  | nil => intro p q h; exact Option.some.inj h
  | cons r rs ih =>
      intro p q h
      obtain ⟨p', hone, hrest⟩ := Option.bind_eq_some_iff.mp h
      rw [List.foldl_cons, hone]
      exact ih p' q hrest

theorem holdsRecords_autoload {flash : Memory} (hdata : ∀ r ∈ rs, r.data.length < 255)
    (hfits : (rs.map (·.bytes.length)).sum ≤ metadataLen)
    (hpage : bytesAt flash (autoloadPage * 256) metadataLen =
      bytesAt (fillFields rs).1 0 metadataLen) :
    HoldsRecords (cyFxSpiTransfer flash autoloadPage fun _ => 0) metadataLen 0 rs := by
  obtain ⟨m', henc⟩ := binkvEncodeFields_fits rs (fun _ => 0xff) 0 hdata (by omega)
  have hfill : fillFields rs = (m', 0 + (rs.map (·.bytes.length)).sum) := foldl_encode rs _ _ henc
  have hholds := (holdsRecords_of_encode rs _ _ _ _ (fun _ _ _ => rfl) henc (by omega)).1
  rw [hfill] at hpage
  refine hholds.congr fun i hi => ?_
  have hbyte := congrArg (·[i]?) hpage
  have hl : (bytesAt flash (autoloadPage * 256) metadataLen)[i]? =
      some (flash (autoloadPage * 256 + i)) := by
    rw [List.getElem?_eq_getElem (by rwa [Lib.length_bytesAt]), Lib.getElem_bytesAt]
  have hr : (bytesAt m' 0 metadataLen)[i]? = some (m' i) := by
    rw [List.getElem?_eq_getElem (by rwa [Lib.length_bytesAt]), Lib.getElem_bytesAt, Nat.zero_add]
  have hsame : flash (autoloadPage * 256 + i) = m' i :=
    Option.some.inj (hl.symm.trans (hbyte.trans hr))
  rw [← hsame]
  exact if_pos hi

def rawRecords (len : ℕ) : List BinkvRecord := [⟨lenKey, decimalStr len⟩]

def compressedRecords (len storedLen : ℕ) : List BinkvRecord :=
  [⟨fmtKey, lzmaFormat⟩, ⟨ulenKey, decimalStr len⟩, ⟨clenKey, decimalStr storedLen⟩]

theorem length_decimal_le_ten {n : ℕ} (h : n ≤ 2 ^ 32 - 1) : (decimal n).length ≤ 10 :=
  Lib.length_decimal_le (by decide) (by omega)

theorem length_record (key : CStr) (n : ℕ) :
    (⟨key, decimalStr n⟩ : BinkvRecord).data.length = key.length + (decimal n).length :=
  BinkvRecord.length_data _

theorem nuandExtractField_eq {page : Memory} {field : CStr}
    (h : HoldsRecords page metadataLen 0 rs) (hc : Comparable field rs) (n : ℕ) :
    nuandExtractField page metadataLen field (n + 1) =
      (findRecord field rs).map fun r => (r.data.drop field.length).take n :=
  nuandExtractFrom_eq h hc _ _ (h.fuel (by decide))

theorem autoload_raw (lzma : Lzma) (flipLut : BitVec 8 → BitVec 16) {flash : Memory}
    (page buf : Memory) {len : ℕ} (hlen : len ≤ 2 ^ 32 - 1)
    (hpage : bytesAt flash (autoloadPage * 256) metadataLen = fillFpgaMetadataPage len) :
    autoload lzma flipLut flash page buf =
      nuandLoadFromFlash flipLut flash buf (atoi ((decimal len).take 9)) := by
  have hdigits := length_decimal_le_ten hlen
  have hsize := length_record lenKey len
  have hkey : lenKey.length = 3 := rfl
  have hholds : HoldsRecords (cyFxSpiTransfer flash autoloadPage fun _ => 0) metadataLen 0
      (rawRecords len) := by
    refine holdsRecords_autoload (fun r hr => ?_) ?_ hpage
    · obtain rfl := List.mem_singleton.mp hr
      omega
    · simp [rawRecords, hsize, metadataLen]
      omega
  have hlenField : nuandExtractField (cyFxSpiTransfer flash autoloadPage fun _ => 0) 256 lenKey 10 =
      some ((decimal len).take 9) := by
    have hcomp : Comparable lenKey (rawRecords len) := by
      intro r hr
      obtain rfl := List.mem_singleton.mp hr
      omega
    refine (nuandExtractField_eq hholds hcomp 9).trans ?_
    simp [rawRecords, findRecord, BinkvRecord.data, CStr.length, decimalStr]
  unfold autoload
  dsimp only
  rw [hlenField]

theorem autoload_compressed (lzma : Lzma) (flipLut : BitVec 8 → BitVec 16) {flash : Memory}
    (page buf : Memory) {len storedLen : ℕ} (hlen : len ≤ 2 ^ 32 - 1)
    (hstored : storedLen ≤ 2 ^ 32 - 1)
    (hpage : bytesAt flash (autoloadPage * 256) metadataLen =
      fillFpgaCompressedMetadataPage len storedLen lzmaFormat) :
    autoload lzma flipLut flash page buf =
      nuandLoadCompressedFromFlash lzma flipLut flash page buf (atoi ((decimal len).take 9))
        (atoi ((decimal storedLen).take 9)) := by
  have hdigits := length_decimal_le_ten hlen
  have hdigits' := length_decimal_le_ten hstored
  have hulen := length_record ulenKey len
  have hclen := length_record clenKey storedLen
  have hkey : ulenKey.length = 4 ∧ clenKey.length = 4 := ⟨rfl, rfl⟩
  have hfmt : (⟨fmtKey, lzmaFormat⟩ : BinkvRecord).data.length = 7 := rfl
  have hdata : ∀ r ∈ compressedRecords len storedLen, 4 ≤ r.data.length ∧ r.data.length < 255 := by
    intro r hr
    simp only [compressedRecords, List.mem_cons, List.not_mem_nil, or_false] at hr
    rcases hr with rfl | rfl | rfl <;> omega
  have hholds : HoldsRecords (cyFxSpiTransfer flash autoloadPage fun _ => 0) metadataLen 0
      (compressedRecords len storedLen) := by
    refine holdsRecords_autoload (fun r hr => (hdata r hr).2) ?_ hpage
    simp [compressedRecords, hulen, hclen, hfmt, metadataLen]
    omega
  have hcomp : ∀ field : CStr, field.length ≤ 4 →
      Comparable field (compressedRecords len storedLen) :=
    fun field hfield r hr => hfield.trans (hdata r hr).1
  have hlenField : nuandExtractField (cyFxSpiTransfer flash autoloadPage fun _ => 0) 256 lenKey 10 =
      none := by
    refine (nuandExtractField_eq hholds (hcomp lenKey (by decide)) 9).trans ?_
    simp [compressedRecords, findRecord, BinkvRecord.data, lenKey, fmtKey, ulenKey, clenKey,
      lzmaFormat]
  have hfmtField : nuandExtractField (cyFxSpiTransfer flash autoloadPage fun _ => 0) 256 fmtKey 5 =
      some lzmaFormat.chars := by
    refine (nuandExtractField_eq hholds (hcomp fmtKey (by decide)) 4).trans ?_
    rfl
  have hulenField : nuandExtractField (cyFxSpiTransfer flash autoloadPage fun _ => 0) 256 ulenKey 10
      = some ((decimal len).take 9) := by
    refine (nuandExtractField_eq hholds (hcomp ulenKey (by decide)) 9).trans ?_
    simp [compressedRecords, findRecord, BinkvRecord.data, CStr.length, ulenKey, fmtKey, lzmaFormat,
      decimalStr]
  have hclenField : nuandExtractField (cyFxSpiTransfer flash autoloadPage fun _ => 0) 256 clenKey 10
      = some ((decimal storedLen).take 9) := by
    refine (nuandExtractField_eq hholds (hcomp clenKey (by decide)) 9).trans ?_
    simp [compressedRecords, findRecord, BinkvRecord.data, CStr.length, ulenKey, fmtKey, clenKey,
      lzmaFormat, decimalStr]
  unfold autoload
  dsimp only
  rw [hlenField, hfmtField, hulenField, hclenField]
  exact if_pos rfl

end

/-! ## What the host leaves in flash -/

structure AutoloadWritten (metadata padded : List (BitVec 8)) (f f' : Flash) : Prop where
  below : ∀ i < bladerfFlashAddrFpga, f'.mem i = f.mem i
  erased : f'.erased = f.erased ++ List.range' 4 ((padded.length + 256 + 65536 - 1) / 65536)
  written : f'.written = f.written ++ [1024] ++ List.range' 1025 (padded.length / 256)
  metadata : bytesAt f'.mem (autoloadPage * 256) metadataLen = metadata
  bitstream : bytesAt f'.mem (1025 * 256) (padded.length / 256 * 256) = padded

section

variable {arch : FlashArch} {program : BitVec 8 → BitVec 8 → BitVec 8}
  {faults : FlashCall → Option FlashError} {metadata padded : List (BitVec 8)} {f f' : Flash}

theorem checked_eq_ok {α : Type} {c : Prop} [Decidable c] {err : FlashError}
    {fault : Option FlashError} {x : Except FlashError α} {a : α} :
    (do require c err; attempt fault; x) = .ok a ↔ c ∧ fault = none ∧ x = .ok a := by
  simp [bind_eq_ok, require_eq_ok, attempt_eq_ok]

theorem spiFlashErase_eq_ok {fault : Option FlashError} {eraseBlock count : ℕ} :
    spiFlashErase arch fault eraseBlock count f = .ok f' ↔
      EbAccess arch eraseBlock count ∧ fault = none ∧
        { f with
          mem := eraseBytes f.mem (eraseBlock * arch.ebsizeBytes) (count * arch.ebsizeBytes)
          erased := f.erased ++ List.range' eraseBlock count } = f' := by
  unfold spiFlashErase
  rw [checked_eq_ok]
  exact and_congr_right' (and_congr_right' ⟨Except.ok.inj, congrArg _⟩)

theorem spiFlashWrite_eq_ok {fault : Option FlashError} {buf : List (BitVec 8)} {page count : ℕ} :
    spiFlashWrite arch program fault buf page count f = .ok f' ↔
      PageAccess arch page count ∧ fault = none ∧
        { f with
          mem := programBytes program f.mem (page * arch.psizeBytes)
            (buf.take (count * arch.psizeBytes))
          written := f.written ++ List.range' page count } = f' := by
  unfold spiFlashWrite
  rw [checked_eq_ok]
  exact and_congr_right' (and_congr_right' ⟨Except.ok.inj, congrArg _⟩)

theorem spiFlashVerify_eq_ok {fault : Option FlashError} {expected : List (BitVec 8)}
    {page count : ℕ} {u : Unit} :
    spiFlashVerify arch fault expected page count f = .ok u ↔
      PageAccess arch page count ∧ fault = none ∧
        bytesAt f.mem (page * arch.psizeBytes) (count * arch.psizeBytes) = expected := by
  unfold spiFlashVerify
  rw [checked_eq_ok, require_eq_ok]

theorem autoloadWritten_of_programAutoload (hreg : arch.Regular)
    (h : programAutoload arch program faults metadata padded f = .ok f') :
    AutoloadWritten metadata padded f f' := by
  unfold programAutoload at h
  dsimp only at h
  have hfirst : bladerfFlashAddrFpga / 256 = 1024 ∧ bladerfFlashAddrFpga / 65536 = 4 := ⟨rfl, rfl⟩
  rw [hreg.psize, hreg.ebsize, hfirst.1, hfirst.2] at h
  obtain ⟨f₁, herase, h⟩ := bind_eq_ok.mp h
  obtain ⟨f₂, hmeta, h⟩ := bind_eq_ok.mp h
  obtain ⟨f₃, hbits, h⟩ := bind_eq_ok.mp h
  obtain ⟨_, hverify, h⟩ := bind_eq_ok.mp h
  obtain ⟨_, hverify', h⟩ := bind_eq_ok.mp h
  obtain rfl := Except.ok.inj h
  obtain ⟨-, -, hread⟩ := spiFlashVerify_eq_ok.mp hverify
  obtain ⟨-, -, hread'⟩ := spiFlashVerify_eq_ok.mp hverify'
  rw [hreg.psize] at hread hread'
  obtain ⟨-, -, rfl⟩ := spiFlashErase_eq_ok.mp herase
  obtain ⟨-, -, rfl⟩ := spiFlashWrite_eq_ok.mp hmeta
  obtain ⟨-, -, rfl⟩ := spiFlashWrite_eq_ok.mp hbits
  refine ⟨fun i hi => ?_, rfl, rfl, hread, hread'⟩
  unfold bladerfFlashAddrFpga at hi
  dsimp only
  rw [hreg.psize, hreg.ebsize, programBytes_below (by omega), programBytes_below (by omega),
    eraseBytes_below (by omega)]

theorem length_padded (stored : List (BitVec 8)) :
    (stored ++ List.replicate (paddingLen stored.length 256) (0xff : BitVec 8)).length / 256 * 256 =
      stored.length + paddingLen stored.length 256 := by
  rw [List.length_append, List.length_replicate]
  unfold paddingLen
  split_ifs <;> omega

structure AutoloadStored (lzma : Lzma) (arch : FlashArch) (fw : FirmwareVersion)
    (bitstream stored : List (BitVec 8)) (f f' : Flash) : Prop where
  regular : arch.Regular
  encoded : storedBitstream lzma arch fw bitstream = .ok stored
  fits : FpgaAutoloadFits stored.length (paddingLen stored.length 256) 256
    (arch.tsizeBytes - bladerfFlashAddrFpga)
  written : AutoloadWritten (autoloadMetadata fw bitstream.length stored.length)
    (stored ++ List.replicate (paddingLen stored.length 256) 0xff) f f'

theorem autoloadStored_of_write {lzma : Lzma} {fw : FirmwareVersion} {bitstream : List (BitVec 8)}
    (hreg : arch.Regular)
    (h : spiFlashWriteFpgaBitstream lzma arch program faults fw bitstream f = .ok f') :
    ∃ stored, AutoloadStored lzma arch fw bitstream stored f f' := by
  unfold spiFlashWriteFpgaBitstream at h
  obtain ⟨_, -, h⟩ := bind_eq_ok.mp h
  obtain ⟨_, -, h⟩ := bind_eq_ok.mp h
  obtain ⟨stored, hstored, h⟩ := bind_eq_ok.mp h
  dsimp only at h
  rw [hreg.psize] at h
  obtain ⟨_, hfits, h⟩ := bind_eq_ok.mp h
  obtain ⟨_, -, h⟩ := bind_eq_ok.mp h
  exact ⟨stored, hreg, hstored, require_eq_ok.mp hfits, autoloadWritten_of_programAutoload hreg h⟩

end

/-! ## What the FX3 loads -/

/-- A write from `f` to `f'`, and the next boot from `f'`.  Writing stays inside
the blocks erased and leaves what is below the region; the FX3 sends the words of
the bitstream and two more, from pages that hold stored bytes. -/
structure RoundTrip (lzma : Lzma) (flipLut : BitVec 8 → BitVec 16) (arch : FlashArch)
    (bitstream : List (BitVec 8)) (storedLen : ℕ) (f f' : Flash) : Prop where
  written : ∃ pages blocks, f'.written = f.written ++ pages ∧ f'.erased = f.erased ++ blocks ∧
    ∀ p ∈ pages, bladerfFlashAddrFpga ≤ p * arch.psizeBytes ∧
      p * arch.psizeBytes / arch.ebsizeBytes ∈ blocks
  below : ∀ i < bladerfFlashAddrFpga, f'.mem i = f.mem i
  loads : ∀ page buf, ∃ (extra : List (BitVec 16)) (pages : List ℕ), extra.length = 2 ∧
    autoload lzma flipLut f'.mem page buf = some ⟨bitstream.map flipLut ++ extra, pages⟩ ∧
    ∀ p ∈ pages, 1025 ≤ p ∧ (p - 1025) * 256 < storedLen

section

variable {arch : FlashArch} {metadata padded : List (BitVec 8)} {f f' : Flash}

theorem AutoloadWritten.inside (h : AutoloadWritten metadata padded f f') (hreg : arch.Regular) :
    ∃ pages blocks, f'.written = f.written ++ pages ∧ f'.erased = f.erased ++ blocks ∧
      ∀ p ∈ pages, bladerfFlashAddrFpga ≤ p * arch.psizeBytes ∧
        p * arch.psizeBytes / arch.ebsizeBytes ∈ blocks := by
  refine ⟨_, _, (h.written.trans (List.append_assoc _ _ _)), h.erased, fun p hp => ?_⟩
  have hrange : 1024 ≤ p ∧ p ≤ 1024 + padded.length / 256 := by
    rcases List.mem_append.mp hp with hp | hp
    · obtain rfl := List.mem_singleton.mp hp
      omega
    · rw [List.mem_range'_1] at hp
      omega
  rw [hreg.psize, hreg.ebsize, List.mem_range'_1]
  unfold bladerfFlashAddrFpga
  omega

end

namespace AutoloadStored

variable {lzma : Lzma} {arch : FlashArch} {fw : FirmwareVersion}
  {bitstream stored : List (BitVec 8)} {f f' : Flash}

section

variable (h : AutoloadStored lzma arch fw bitstream stored f f')

include h

theorem length_le :
    1025 * 256 + stored.length ≤ 2 ^ 24 := by
  obtain ⟨n, hn, hsize⟩ := h.regular.blocks
  obtain ⟨hlen, -, hfits⟩ := h.fits
  unfold bladerfFlashAddrFpga at hlen hfits
  omega

theorem bytes :
    bytesAt f'.mem (1025 * 256) stored.length = stored := by
  have hall := h.written.bitstream
  rw [length_padded, Lib.bytesAt_add] at hall
  exact (List.append_inj hall (Lib.length_bytesAt _ _ _)).1

theorem autoload_rawOnly
    (hraw : fw.rawOnly = true) (hne : bitstream ≠ []) (flipLut : BitVec 8 → BitVec 16)
    (page buf : Memory) :
    ∃ (extra : List (BitVec 16)) (pages : List ℕ), extra.length = 2 ∧
      autoload lzma flipLut f'.mem page buf = some ⟨bitstream.map flipLut ++ extra, pages⟩ ∧
      ∀ p ∈ pages, 1025 ≤ p ∧ (p - 1025) * 256 < stored.length := by
  have hlen := h.length_le
  obtain rfl : bitstream = stored := by
    have hstored := h.encoded
    unfold storedBitstream at hstored
    rw [if_pos hraw] at hstored
    obtain ⟨_, -, hok⟩ := bind_eq_ok.mp hstored
    exact Except.ok.inj hok
  have hzero : bitstream.length ≠ 0 := fun h0 => hne (List.length_eq_zero_iff.mp h0)
  have hmeta := h.written.metadata
  unfold autoloadMetadata at hmeta
  rw [if_pos hraw] at hmeta
  obtain ⟨extra, hextra, hwords, hpages⟩ := nuandLoadFrom_sends flipLut f'.mem bitstream.length
    bitstream.length 1025 buf hzero le_rfl hlen
  rw [h.bytes] at hwords
  refine ⟨extra, _, hextra, ?_, hpages⟩
  rw [autoload_raw lzma flipLut page buf (by omega) hmeta,
    Lib.atoi_take_decimal_of_lt hzero (by decide) (by omega)]
  unfold nuandLoadFromFlash
  rw [if_neg hzero, ← hwords]

theorem frames (hraw : fw.rawOnly = false) :
    Frames lzma bitstream stored ∧ bitstream.length ≤ 2 ^ 32 - 1 := by
  have hstored := h.encoded
  unfold storedBitstream at hstored
  rw [hraw, if_neg Bool.false_ne_true] at hstored
  obtain ⟨_, hlen, hok⟩ := bind_eq_ok.mp hstored
  exact ⟨frames_of_lzmaEncodeFrom _ _ _ le_rfl hok, require_eq_ok.mp hlen⟩

theorem autoload_frames
    (hraw : fw.rawOnly = false) (hne : bitstream ≠ []) (flipLut : BitVec 8 → BitVec 16)
    (page buf : Memory) :
    autoload lzma flipLut f'.mem page buf =
      nuandLoadCompressedFromFlash lzma flipLut f'.mem page buf
        (atoi ((decimal bitstream.length).take 9)) stored.length := by
  have hsize := h.length_le
  obtain ⟨hframes, hlen⟩ := h.frames hraw
  have hzero : stored.length ≠ 0 :=
    fun h0 => hframes.ne_nil hne (List.length_eq_zero_iff.mp h0)
  have hmeta := h.written.metadata
  unfold autoloadMetadata at hmeta
  rw [hraw, if_neg Bool.false_ne_true] at hmeta
  rw [autoload_compressed lzma flipLut page buf hlen (by omega) hmeta,
    @Lib.atoi_take_decimal_of_lt stored.length 9 hzero (by decide) (by omega)]

theorem autoload_long
    (hraw : fw.rawOnly = false) (hlong : 10 ^ 9 ≤ bitstream.length)
    (flipLut : BitVec 8 → BitVec 16) (page buf : Memory) :
    autoload lzma flipLut f'.mem page buf = none := by
  have hne : bitstream ≠ [] := List.length_pos_iff.mp (by omega)
  rw [h.autoload_frames hraw hne flipLut page buf]
  refine nuandLoadCompressedFromFlash_short flipLut page buf (h.frames hraw).1 ?_ h.length_le
    h.bytes
  have hcut : atoi ((decimal bitstream.length).take 9) ≤ bitstream.length / 10 := by
    have hdigits : 9 < (decimal bitstream.length).length := Lib.lt_length_decimal hlong
    rw [Lib.atoi_take_decimal (by omega)]
    refine Nat.div_le_div_left ?_ (by decide)
    calc 10 = 10 ^ 1 := rfl
      _ ≤ 10 ^ ((decimal bitstream.length).length - 9) :=
        Nat.pow_le_pow_right (by decide) (by omega)
  unfold fpgaLzmaBlockBytes
  omega

theorem autoload_short
    (hinv : lzma.Inverts) (hraw : fw.rawOnly = false) (hne : bitstream ≠ [])
    (hshort : bitstream.length < 10 ^ 9) (flipLut : BitVec 8 → BitVec 16) (page buf : Memory) :
    ∃ (extra : List (BitVec 16)) (pages : List ℕ), extra.length = 2 ∧
      autoload lzma flipLut f'.mem page buf = some ⟨bitstream.map flipLut ++ extra, pages⟩ ∧
      ∀ p ∈ pages, 1025 ≤ p ∧ (p - 1025) * 256 < stored.length := by
  have hzero : bitstream.length ≠ 0 := fun h0 => hne (List.length_eq_zero_iff.mp h0)
  rw [h.autoload_frames hraw hne flipLut page buf,
    Lib.atoi_take_decimal_of_lt hzero (by decide) hshort]
  exact nuandLoadCompressedFromFlash_sends hinv flipLut page buf (h.frames hraw).1 hne h.length_le
    h.bytes

theorem roundTrip_iff
    (hinv : lzma.Inverts) (hne : bitstream ≠ []) (flipLut : BitVec 8 → BitVec 16) :
    RoundTrip lzma flipLut arch bitstream stored.length f f' ↔
      fw.rawOnly = true ∨ bitstream.length < 10 ^ 9 := by
  constructor
  · intro htrip
    by_contra hnot
    rw [not_or, Bool.not_eq_true, not_lt] at hnot
    obtain ⟨_, _, -, hload, -⟩ := htrip.loads (fun _ => 0) fun _ => 0
    rw [h.autoload_long hnot.1 hnot.2] at hload
    exact nomatch hload
  · intro hfit
    refine ⟨h.written.inside h.regular, h.written.below, fun page buf => ?_⟩
    cases hraw : fw.rawOnly with
    | true => exact h.autoload_rawOnly hraw hne flipLut page buf
    | false =>
        have hshort := hfit.resolve_left (by rw [hraw]; exact Bool.false_ne_true)
        exact h.autoload_short hinv hraw hne hshort flipLut page buf

end

end AutoloadStored

/-! ## Writes that succeed -/

section

variable {arch : FlashArch} {program : BitVec 8 → BitVec 8 → BitVec 8}
  {faults : FlashCall → Option FlashError} {metadata padded stored bitstream : List (BitVec 8)}

theorem programAutoload_ok (hreg : arch.Regular) (hprogram : ∀ b, program 0xff b = b)
    (hfaults : ∀ c, faults c = none) (hmeta : metadata.length = 256)
    (hpages : padded.length / 256 * 256 = padded.length)
    (hfits : 1025 * 256 + padded.length ≤ arch.tsizeBytes) (f : Flash) :
    ∃ f', programAutoload arch program faults metadata padded f = .ok f' := by
  obtain ⟨n, hn, hsize⟩ := hreg.blocks
  have heb : EbAccess arch 4 ((padded.length + 256 + 65536 - 1) / 65536) := by
    unfold EbAccess FlashArch.numEbs
    rw [hreg.ebsize, hsize, Nat.mul_div_cancel _ (by decide)]
    omega
  have hpage : PageAccess arch 1024 1 ∧ PageAccess arch 1025 (padded.length / 256) := by
    unfold PageAccess FlashArch.numPages
    rw [hreg.psize]
    omega
  have hfirst : bladerfFlashAddrFpga / 256 = 1024 ∧ bladerfFlashAddrFpga / 65536 = 4 := ⟨rfl, rfl⟩
  have htake : metadata.take (1 * 256) = metadata ∧
      padded.take (padded.length / 256 * 256) = padded := by
    rw [hpages, List.take_length]
    exact ⟨List.take_of_length_le (by omega), rfl⟩
  let erased := eraseBytes f.mem (4 * 65536) ((padded.length + 256 + 65536 - 1) / 65536 * 65536)
  let named := programBytes program erased (1024 * 256) metadata
  have herased : ∀ i, 1024 * 256 ≤ i → i < 1025 * 256 + padded.length → erased i = 0xff :=
    fun i hlow hhigh => eraseBytes_in (by omega) (by omega)
  have hnamed : bytesAt named (1024 * 256) metadata.length = metadata :=
    bytesAt_programBytes hprogram fun i hlow hhigh => herased i hlow (by omega)
  have hbits : bytesAt (programBytes program named (1025 * 256) padded) (1025 * 256) padded.length =
      padded :=
    bytesAt_programBytes hprogram fun i hlow hhigh =>
      (programBytes_above (by omega)).trans (herased i (by omega) hhigh)
  have hkept : bytesAt (programBytes program named (1025 * 256) padded) (1024 * 256) 256 =
      metadata := by
    rw [hmeta] at hnamed
    exact (Lib.bytesAt_congr fun i _ hi => programBytes_below (by omega)).trans hnamed
  unfold programAutoload
  dsimp only
  rw [hreg.psize, hreg.ebsize, hfirst.1, hfirst.2]
  refine ⟨_, bind_eq_ok.mpr ⟨_, spiFlashErase_eq_ok.mpr ⟨heb, hfaults _, rfl⟩,
    bind_eq_ok.mpr ⟨_, spiFlashWrite_eq_ok.mpr ⟨hpage.1, hfaults _, rfl⟩,
      bind_eq_ok.mpr ⟨_, spiFlashWrite_eq_ok.mpr ⟨hpage.2, hfaults _, rfl⟩,
        bind_eq_ok.mpr ⟨(), spiFlashVerify_eq_ok.mpr ⟨hpage.1, hfaults _, ?_⟩,
          bind_eq_ok.mpr ⟨(), spiFlashVerify_eq_ok.mpr ⟨hpage.2, hfaults _, ?_⟩, rfl⟩⟩⟩⟩⟩⟩
  · rw [hreg.psize, hreg.ebsize, htake.1, htake.2]
    exact hkept
  · rw [hreg.psize, hreg.ebsize, htake.1, htake.2, hpages]
    exact hbits

theorem write_ok {lzma : Lzma} {fw : FirmwareVersion} (hreg : arch.Regular)
    (hprogram : ∀ b, program 0xff b = b) (hfaults : ∀ c, faults c = none)
    (hstored : storedBitstream lzma arch fw bitstream = .ok stored)
    (hfits : 1025 * 256 + stored.length + paddingLen stored.length 256 ≤ arch.tsizeBytes)
    (f : Flash) :
    ∃ f', spiFlashWriteFpgaBitstream lzma arch program faults fw bitstream f = .ok f' := by
  obtain ⟨n, hn, hsize⟩ := hreg.blocks
  have hpadded := length_padded stored
  have hlen : (stored ++ List.replicate (paddingLen stored.length 256) (0xff : BitVec 8)).length =
      stored.length + paddingLen stored.length 256 := by
    rw [List.length_append, List.length_replicate]
  have hmeta : (autoloadMetadata fw bitstream.length stored.length).length = 256 := by
    unfold autoloadMetadata
    split_ifs
    · exact Lib.length_bytesAt _ _ _
    · exact Lib.length_bytesAt _ _ _
  obtain ⟨f', hdone⟩ := programAutoload_ok hreg hprogram hfaults hmeta
    (hpadded.trans hlen.symm) (by omega) f
  have hok : FpgaAutoloadFits stored.length (paddingLen stored.length 256) 256
      (arch.tsizeBytes - bladerfFlashAddrFpga) := by
    unfold FpgaAutoloadFits bladerfFlashAddrFpga
    omega
  unfold spiFlashWriteFpgaBitstream
  refine ⟨f', bind_eq_ok.mpr ⟨(), require_eq_ok.mpr ?_, bind_eq_ok.mpr ⟨(),
    attempt_eq_ok.mpr (hfaults _), bind_eq_ok.mpr ⟨stored, hstored, ?_⟩⟩⟩⟩
  · unfold bladerfFlashAddrFpga
    omega
  · dsimp only
    rw [hreg.psize]
    exact bind_eq_ok.mpr ⟨(), require_eq_ok.mpr hok, bind_eq_ok.mpr ⟨(),
      attempt_eq_ok.mpr (hfaults _), hdone⟩⟩

end

/-! ## A codec with a table

Blocks of the table are coded as the table says, the others as they are. -/

/-- The properties of the encoder's parameters: `lc` 3, `lp` 0, `pb` 2 and 64 KiB. -/
def tableProps : List (BitVec 8) := [0x5d, 0x00, 0x00, 0x01, 0x00]

def plainProps : List (BitVec 8) := [0xff, 0x00, 0x00, 0x00, 0x00]

def tableLzma (table : List (List (BitVec 8) × List (BitVec 8))) : Lzma where
  encode block :=
    .ok (((table.find? fun e => e.1 = block).map fun e => (tableProps, e.2)).getD
      (plainProps, block))
  decode props data len :=
    if props = tableProps then
      (table.find? fun e => e.2 = data ∧ e.1.length = len).map fun e => (e.1, data.length)
    else some (data, data.length)

section

variable (table : List (List (BitVec 8) × List (BitVec 8)))

theorem decode_plainProps (data : List (BitVec 8)) (len : ℕ) :
    (tableLzma table).decode plainProps data len = some (data, data.length) := by
  have hprops : plainProps ≠ tableProps := by decide
  unfold tableLzma
  dsimp only
  exact if_neg hprops

theorem decode_tableProps (data : List (BitVec 8)) (len : ℕ) :
    (tableLzma table).decode tableProps data len =
      (table.find? fun e => e.2 = data ∧ e.1.length = len).map fun e => (e.1, data.length) := by
  unfold tableLzma
  dsimp only
  exact if_pos rfl

theorem tableLzma_inverts (hdata : ∀ e ∈ table, e.2 ≠ [])
    (hinj : ∀ e ∈ table, ∀ e' ∈ table, e.2 = e'.2 → e.1.length = e'.1.length → e.1 = e'.1) :
    (tableLzma table).Inverts := by
  intro block props data hne _ henc
  have hpair := Except.ok.inj henc
  cases hfind : table.find? fun e => e.1 = block with
  | none =>
      rw [hfind] at hpair
      obtain ⟨rfl, rfl⟩ := Prod.mk.inj hpair
      exact ⟨hne, decode_plainProps table _ _⟩
  | some e =>
      rw [hfind] at hpair
      obtain ⟨rfl, rfl⟩ := Prod.mk.inj hpair
      have hmem := List.mem_of_find?_eq_some hfind
      have hblock : e.1 = block := by simpa using List.find?_some hfind
      refine ⟨hdata e hmem, (decode_tableProps table _ _).trans ?_⟩
      cases hback : table.find? fun e' => e'.2 = e.2 ∧ e'.1.length = block.length with
      | none =>
          rw [List.find?_eq_none] at hback
          exact absurd (congrArg List.length hblock) (by simpa using hback e hmem)
      | some e' =>
          have hmem' := List.mem_of_find?_eq_some hback
          have hboth : e'.2 = e.2 ∧ e'.1.length = block.length := by
            simpa using List.find?_some hback
          have hsame := hinj e' hmem' e hmem hboth.1 (hblock ▸ hboth.2)
          rw [Option.map_some, hsame, hblock]

theorem encode_pair {a b x y : List (BitVec 8)} (hne : a ≠ b) :
    (tableLzma [(a, x), (b, y)]).encode a = .ok (tableProps, x) ∧
      (tableLzma [(a, x), (b, y)]).encode b = .ok (tableProps, y) := by
  unfold tableLzma
  constructor
  · simp
  · simp [hne]

end

/-! ## The round trip -/

/-- Every write that succeeds makes the round trip, unless newer firmware gets a
bitstream whose length has ten digits. -/
theorem autoload_round_trip (lzma : Lzma) (hinv : lzma.Inverts) (flipLut : BitVec 8 → BitVec 16)
    (manufacturerId deviceId : ℕ) (fpgaSize : Option FpgaSize)
    (program : BitVec 8 → BitVec 8 → BitVec 8) (faults : FlashCall → Option FlashError)
    (fw : FirmwareVersion) (bitstream : List (BitVec 8)) (hne : bitstream ≠ []) (f f' : Flash)
    (h : spiFlashWriteFpgaBitstream lzma
      (spiFlashDecodeFlashArchitecture manufacturerId deviceId fpgaSize) program faults fw bitstream
      f = .ok f') :
    ∃ stored, storedBitstream lzma
        (spiFlashDecodeFlashArchitecture manufacturerId deviceId fpgaSize) fw bitstream =
          .ok stored ∧
      (RoundTrip lzma flipLut
          (spiFlashDecodeFlashArchitecture manufacturerId deviceId fpgaSize) bitstream
          stored.length f f' ↔
        fw.rawOnly = true ∨ bitstream.length < 10 ^ 9) := by
  obtain ⟨stored, hstored⟩ :=
    autoloadStored_of_write (regular_decode manufacturerId deviceId fpgaSize) h
  exact ⟨stored, hstored.encoded, hstored.roundTrip_iff hinv hne flipLut⟩

def noFaults : FlashCall → Option FlashError := fun _ => none

def clearBits (old new : BitVec 8) : BitVec 8 := old &&& new

theorem clearBits_erased (b : BitVec 8) : clearBits 0xff b = b := BitVec.allOnes_and

/-- The code of the block `0xab`. -/
def byteTable : List (List (BitVec 8) × List (BitVec 8)) :=
  [([0xab], [0x00, 0x55, 0x7f, 0xfc, 0x00, 0x00])]

theorem byteTable_inverts : (tableLzma byteTable).Inverts :=
  tableLzma_inverts byteTable (by decide) (by decide)

/-- What is stored for it: the length, the properties and the code. -/
def byteStored : List (BitVec 8) :=
  [0x0b, 0x00, 0x00, 0x00, 0x5d, 0x00, 0x00, 0x01, 0x00, 0x00, 0x55, 0x7f, 0xfc, 0x00, 0x00]

def blankFlash : Flash := ⟨fun _ => 0, [], []⟩

theorem autoload_round_trip_byte :
    ∃ f', spiFlashWriteFpgaBitstream (tableLzma byteTable)
        (spiFlashDecodeFlashArchitecture 0xc2 0x36 (some .kle40)) clearBits noFaults ⟨2, 6, 1⟩
        [0xab] blankFlash = .ok f' ∧
      RoundTrip (tableLzma byteTable) flipLutBladeRF1
        (spiFlashDecodeFlashArchitecture 0xc2 0x36 (some .kle40)) [0xab] 15 blankFlash f' := by
  have hstored : storedBitstream (tableLzma byteTable)
      (spiFlashDecodeFlashArchitecture 0xc2 0x36 (some .kle40)) ⟨2, 6, 1⟩ [0xab] =
      .ok byteStored := by decide
  obtain ⟨f', hwrite⟩ := write_ok (regular_decode 0xc2 0x36 (some .kle40)) clearBits_erased
    (fun _ => rfl) hstored (by decide) blankFlash
  obtain ⟨stored, hok, htrip⟩ := autoload_round_trip (tableLzma byteTable) byteTable_inverts
    flipLutBladeRF1 0xc2 0x36 (some .kle40) clearBits noFaults ⟨2, 6, 1⟩ [0xab] (by decide)
    blankFlash f' hwrite
  obtain rfl := Except.ok.inj (hstored.symm.trans hok)
  exact ⟨f', hwrite, htrip.mpr (.inr (by decide))⟩

/-! A thousand million zeros. -/

/-- The code of a full block of zeros, and of the 2560 zeros behind 16276 of them. -/
def zerosCode : List (BitVec 8) :=
  [0x00, 0x00, 0x6f, 0xfd, 0xff, 0xff, 0xa3, 0xb7, 0xff, 0x47, 0x3e, 0x48, 0x15, 0x72,
    0x39, 0x61, 0x51, 0xb8, 0x92, 0x28, 0xe6, 0xa3, 0x86, 0x07, 0xf9, 0xee, 0xe4, 0x1e,
    0x82, 0xd3, 0x2f, 0xc5, 0x3a, 0x3c, 0x01, 0x4b, 0xb1, 0x7e, 0xc9, 0x8a, 0x8a, 0x4d,
    0x2f, 0xa3, 0x0d, 0xd9, 0x7f, 0xa6, 0xe3, 0x8c, 0x23, 0x11, 0x53, 0xe0, 0x59, 0x18,
    0xc5, 0x75, 0x8a, 0xe2, 0x77, 0xf8, 0xb6, 0x94, 0x7f, 0x0c, 0x6a, 0xc0, 0xde, 0x74,
    0x48, 0xe7, 0x5b, 0xae, 0x9b, 0x00]

def zerosTailCode : List (BitVec 8) :=
  [0x00, 0x00, 0x6f, 0xfd, 0xff, 0xff, 0xa3, 0xb7, 0xff, 0x47, 0x3e, 0x48, 0x15, 0x72,
    0x39, 0x61, 0x44, 0x3b, 0xe0, 0x0e, 0x00]

def zerosTable : List (List (BitVec 8) × List (BitVec 8)) :=
  [(List.replicate fpgaLzmaBlockBytes 0, zerosCode), (List.replicate 2560 0, zerosTailCode)]

theorem zerosTable_inverts : (tableLzma zerosTable).Inverts := by
  have hmem : ∀ e ∈ zerosTable, e = (List.replicate fpgaLzmaBlockBytes 0, zerosCode) ∨
      e = (List.replicate 2560 0, zerosTailCode) := by
    intro e he
    rcases List.mem_cons.mp he with rfl | he
    · exact .inl rfl
    · exact .inr (List.mem_singleton.mp he)
  have hcode : zerosCode ≠ [] ∧ zerosTailCode ≠ [] := ⟨by decide, by decide⟩
  refine tableLzma_inverts zerosTable (fun e he => ?_) fun e he e' he' _ hlen => ?_
  · rcases hmem e he with rfl | rfl
    · exact hcode.1
    · exact hcode.2
  · have hzeros : ∀ e ∈ zerosTable, e.1 = List.replicate e.1.length 0 := by
      intro e he
      rcases hmem e he with rfl | rfl
      · rw [List.length_replicate]
      · rw [List.length_replicate]
    rw [hzeros e he, hzeros e' he', hlen]

theorem encode_zeros :
    (tableLzma zerosTable).encode (List.replicate fpgaLzmaBlockBytes 0) =
        .ok (tableProps, zerosCode) ∧
      (tableLzma zerosTable).encode (List.replicate 2560 0) = .ok (tableProps, zerosTailCode) := by
  refine encode_pair fun h => ?_
  have hlen := congrArg List.length h
  rw [List.length_replicate, List.length_replicate] at hlen
  exact absurd hlen (by decide)

theorem lzmaEncodeFrom_step {fuel n m : ℕ} {code rest : List (BitVec 8)} (hn : n ≠ 0)
    (hm : min fpgaLzmaBlockBytes n = m) (hcode : code.length ≤ 100)
    (henc : (tableLzma zerosTable).encode (List.replicate m 0) = .ok (tableProps, code))
    (hrest : lzmaEncodeFrom (tableLzma zerosTable) fuel
      (List.replicate (n - fpgaLzmaBlockBytes) 0) = .ok rest) :
    ∃ stored, lzmaEncodeFrom (tableLzma zerosTable) (fuel + 1) (List.replicate n 0) = .ok stored ∧
      stored.length = 9 + code.length + rest.length := by
  have hprops : tableProps.length = 5 := rfl
  have hblock : lzmaEncodeBlock (tableLzma zerosTable) (List.replicate m 0) =
      .ok (leBytes 4 (tableProps.length + code.length) ++ (tableProps ++ code)) := by
    unfold lzmaEncodeBlock
    rw [henc]
    refine if_neg ?_
    unfold lzmaPropsSize fpgaLzmaMaxBlockBytes
    omega
  refine ⟨leBytes 4 (tableProps.length + code.length) ++ (tableProps ++ code) ++ rest, ?_, ?_⟩
  · unfold lzmaEncodeFrom
    rw [if_neg (by rw [List.replicate_eq_nil_iff]; exact hn), List.take_replicate,
      List.drop_replicate, hm]
    exact bind_eq_ok.mpr ⟨_, hblock, bind_eq_ok.mpr ⟨rest, hrest, rfl⟩⟩
  · rw [List.length_append, List.length_append, List.length_append, Lib.length_leBytes, hprops]
    omega

theorem lzmaEncodeFrom_zeros (k : ℕ) : ∀ fuel, k < fuel →
    ∃ stored, lzmaEncodeFrom (tableLzma zerosTable) fuel
        (List.replicate (k * fpgaLzmaBlockBytes + 2560) 0) = .ok stored ∧
      stored.length = k * 85 + 30 := by
  have hblock : fpgaLzmaBlockBytes = 61440 := rfl
  have hcode : zerosCode.length = 76 ∧ zerosTailCode.length = 21 := ⟨rfl, rfl⟩
  induction k with
  | zero =>
      intro fuel hfuel
      obtain ⟨fuel, rfl⟩ := Nat.exists_eq_add_of_lt hfuel
      have hnil : lzmaEncodeFrom (tableLzma zerosTable) (0 + fuel)
          (List.replicate (0 * fpgaLzmaBlockBytes + 2560 - fpgaLzmaBlockBytes) 0) = .ok [] := by
        rw [Nat.sub_eq_zero_of_le (by omega), List.replicate_zero]
        cases (0 + fuel) with
        | zero => rfl
        | succ fuel => rfl
      obtain ⟨stored, hstored, hlen⟩ := lzmaEncodeFrom_step (by omega) (by omega) (by omega)
        encode_zeros.2 hnil
      refine ⟨stored, hstored, ?_⟩
      rw [hlen, hcode.2]
      rfl
  | succ k ih =>
      intro fuel hfuel
      obtain ⟨fuel, rfl⟩ := Nat.exists_eq_add_of_lt hfuel
      obtain ⟨rest, hrest, hlen⟩ := ih (k + 1 + fuel) (by omega)
      have hdrop : (k + 1) * fpgaLzmaBlockBytes + 2560 - fpgaLzmaBlockBytes =
          k * fpgaLzmaBlockBytes + 2560 := by
        rw [Nat.add_mul]
        omega
      rw [← hdrop] at hrest
      obtain ⟨stored, hstored, hlen'⟩ := lzmaEncodeFrom_step (by omega)
        (Nat.min_eq_left (by rw [Nat.add_mul]; omega)) (by omega) encode_zeros.1 hrest
      refine ⟨stored, hstored, ?_⟩
      rw [hlen', hlen, hcode.1]
      omega

/-- A thousand million zeros, which newer firmware gets in 1.3 MB, are not loaded. -/
theorem autoload_round_trip_not_always :
    ¬ ∀ (lzma : Lzma) (flipLut : BitVec 8 → BitVec 16) (manufacturerId deviceId : ℕ)
      (fpgaSize : Option FpgaSize) (program : BitVec 8 → BitVec 8 → BitVec 8)
      (faults : FlashCall → Option FlashError) (fw : FirmwareVersion)
      (bitstream : List (BitVec 8)) (f f' : Flash), lzma.Inverts →
      (∀ b, program 0xff b = b) → bitstream ≠ [] →
      spiFlashWriteFpgaBitstream lzma
        (spiFlashDecodeFlashArchitecture manufacturerId deviceId fpgaSize) program faults fw
        bitstream f = .ok f' →
      ∃ stored, storedBitstream lzma
          (spiFlashDecodeFlashArchitecture manufacturerId deviceId fpgaSize) fw bitstream =
            .ok stored ∧
        RoundTrip lzma flipLut
          (spiFlashDecodeFlashArchitecture manufacturerId deviceId fpgaSize) bitstream
          stored.length f f' := by
  intro hall
  obtain ⟨stored, henc, hlen⟩ := lzmaEncodeFrom_zeros 16276 (10 ^ 9) (by decide)
  have hsize : 16276 * fpgaLzmaBlockBytes + 2560 = 10 ^ 9 := by decide
  rw [hsize] at henc
  have hreg := regular_decode 0xc2 0x36 (some .kle40)
  have hlarge : (List.replicate (10 ^ 9) (0 : BitVec 8)).length = 10 ^ 9 := List.length_replicate
  have hne : List.replicate (10 ^ 9) (0 : BitVec 8) ≠ [] :=
    List.length_pos_iff.mp (by rw [hlarge]; decide)
  have hstored : storedBitstream (tableLzma zerosTable)
      (spiFlashDecodeFlashArchitecture 0xc2 0x36 (some .kle40)) ⟨2, 6, 1⟩
      (List.replicate (10 ^ 9) 0) = .ok stored := by
    refine bind_eq_ok.mpr ⟨(), require_eq_ok.mpr ?_, ?_⟩
    · rw [hlarge]
      decide
    · rw [hlarge]
      exact henc
  obtain ⟨f', hwrite⟩ := write_ok hreg clearBits_erased (fun _ => rfl) hstored
    (by rw [hlen]; decide) blankFlash
  obtain ⟨stored', hok, htrip⟩ := hall (tableLzma zerosTable) flipLutBladeRF1 0xc2 0x36
    (some .kle40) clearBits noFaults ⟨2, 6, 1⟩ (List.replicate (10 ^ 9) 0) blankFlash f'
    zerosTable_inverts clearBits_erased hne hwrite
  obtain ⟨stored'', hleft⟩ := autoloadStored_of_write hreg hwrite
  obtain rfl := Except.ok.inj (hok.symm.trans hleft.encoded)
  rcases (hleft.roundTrip_iff zerosTable_inverts hne flipLutBladeRF1).mp htrip with hraw | hshort
  · exact absurd hraw (by decide)
  · rw [hlarge] at hshort
    exact lt_irrefl _ hshort

end BladeRF
