/-
# `Flash.Autoload` — the host writes a bitstream for the FX3 to load

Firmware from version 2.6.1 on gets the bitstream in LZMA blocks of 60 KiB, each
behind its length; older firmware gets it as it is.  In front of it stands a page
of metadata with the lengths in decimal.  The region is erased, written and read
back.
-/
import BladeRF.Flash.Binkv
import BladeRF.Flash.Chip
import BladeRF.Lib.Decimal

namespace BladeRF

open Lib (CStr Memory bytesAt leBytes decimalStr)

inductive LzmaError
  | mem
  | other

/-- `LzmaEncode` and `LzmaDecode` with the parameters of the two programs.  The
encoder gives properties and data; the decoder is told how many bytes to make
and says how much of the data it used. -/
structure Lzma where
  encode : List (BitVec 8) → Except LzmaError (List (BitVec 8) × List (BitVec 8))
  decode : List (BitVec 8) → List (BitVec 8) → ℕ → Option (List (BitVec 8) × ℕ)

def fpgaLzmaBlockBytes : ℕ := 60 * 1024

def fpgaLzmaMaxBlockBytes : ℕ := 65504

def lzmaPropsSize : ℕ := 5

/-- The decoder inverts the encoder on every block: it uses all the data, which is
not empty, and gives the block back. -/
def Lzma.Inverts (lzma : Lzma) : Prop :=
  ∀ block props data, block ≠ [] → block.length ≤ fpgaLzmaBlockBytes →
    lzma.encode block = .ok (props, data) →
    data ≠ [] ∧ lzma.decode props data block.length = some (block, data.length)

def bladerfFlashAddrFpga : ℕ := 0x40000

/-- `bladerf_version`. -/
structure FirmwareVersion where
  major : ℕ
  minor : ℕ
  patch : ℕ

/-- `version_fields_less_than`. -/
def FirmwareVersion.lessThan (v : FirmwareVersion) (major minor patch : ℕ) : Bool :=
  !(v.major > major || v.major = major && v.minor > minor ||
    v.major = major && v.minor = minor && v.patch ≥ patch)

/-- The firmware does not load compressed bitstreams: it is older than 2.6.1. -/
def FirmwareVersion.rawOnly (v : FirmwareVersion) : Bool := v.lessThan 2 6 1

/-! ## Metadata -/

/-- The keys `"LEN"`, `"FMT"`, `"ULEN"`, `"CLEN"` and the format `"LZMA"`. -/
def lenKey : CStr := ⟨[0x4c, 0x45, 0x4e], by decide⟩

def fmtKey : CStr := ⟨[0x46, 0x4d, 0x54], by decide⟩

def ulenKey : CStr := ⟨[0x55, 0x4c, 0x45, 0x4e], by decide⟩

def clenKey : CStr := ⟨[0x43, 0x4c, 0x45, 0x4e], by decide⟩

def lzmaFormat : CStr := ⟨[0x4c, 0x5a, 0x4d, 0x41], by decide⟩

def metadataLen : ℕ := 256

/-- An erased page with the fields; a field that does not fit is left out. -/
def fillFields (rs : List BinkvRecord) : Memory × ℕ :=
  rs.foldl (fun p r => (binkvEncodeField p.1 metadataLen p.2 r).getD p) (fun _ => 0xff, 0)

def fillFpgaMetadataPage (actualBitstreamLen : ℕ) : List (BitVec 8) :=
  bytesAt (fillFields [⟨lenKey, decimalStr actualBitstreamLen⟩]).1 0 metadataLen

def fillFpgaCompressedMetadataPage (uncompressedLen compressedLen : ℕ) (format : CStr) :
    List (BitVec 8) :=
  bytesAt (fillFields [⟨fmtKey, format⟩, ⟨ulenKey, decimalStr uncompressedLen⟩,
    ⟨clenKey, decimalStr compressedLen⟩]).1 0 metadataLen

/-! ## Compression -/

/-- One turn of `lzma_encode_blocks`. -/
def lzmaEncodeBlock (lzma : Lzma) (block : List (BitVec 8)) :
    Except FlashError (List (BitVec 8)) :=
  match lzma.encode block with
  | .error .mem => .error .mem
  | .error .other => .error .unexpected
  | .ok (props, data) =>
      let frameLen := props.length + data.length
      if props.length ≠ lzmaPropsSize ∨ frameLen > fpgaLzmaMaxBlockBytes then .error .unexpected
      else .ok (leBytes 4 frameLen ++ (props ++ data))

/-- The loop of `lzma_encode_blocks`, with a bound on the turns left. -/
def lzmaEncodeFrom (lzma : Lzma) : ℕ → List (BitVec 8) → Except FlashError (List (BitVec 8))
  | 0, _ => .ok []
  | fuel + 1, bs =>
      if bs = [] then .ok []
      else do
        let frame ← lzmaEncodeBlock lzma (bs.take fpgaLzmaBlockBytes)
        let rest ← lzmaEncodeFrom lzma fuel (bs.drop fpgaLzmaBlockBytes)
        return frame ++ rest

def lzmaEncodeBlocks (lzma : Lzma) (bs : List (BitVec 8)) :
    Except FlashError (List (BitVec 8)) := do
  require (bs.length ≤ 2 ^ 32 - 1) .inval
  lzmaEncodeFrom lzma bs.length bs

/-! ## The bitstream region -/

/-- The bytes behind `len` to the end of its page. -/
def paddingLen (len pageSize : ℕ) : ℕ := if len % pageSize = 0 then 0 else pageSize - len % pageSize

def FpgaAutoloadFits (len padding pageSize flashLen : ℕ) : Prop :=
  flashLen > pageSize ∧ len < 2 ^ 32 - 1 - padding ∧ len + padding ≤ flashLen - pageSize

instance (len padding pageSize flashLen : ℕ) :
    Decidable (FpgaAutoloadFits len padding pageSize flashLen) :=
  inferInstanceAs (Decidable (_ ∧ _))

inductive FlashCall
  | fwVersion
  | buffers
  | erase
  | writeMetadata
  | writeBitstream
  | readMetadata
  | readBitstream

/-- The bitstream as it is stored, for the firmware on the device. -/
def storedBitstream (lzma : Lzma) (arch : FlashArch) (fw : FirmwareVersion)
    (bitstream : List (BitVec 8)) : Except FlashError (List (BitVec 8)) :=
  if fw.rawOnly then do
    require (FpgaAutoloadFits bitstream.length (paddingLen bitstream.length arch.psizeBytes)
      arch.psizeBytes (arch.tsizeBytes - bladerfFlashAddrFpga)) .updateFw
    return bitstream
  else lzmaEncodeBlocks lzma bitstream

def autoloadMetadata (fw : FirmwareVersion) (len storedLen : ℕ) : List (BitVec 8) :=
  if fw.rawOnly then fillFpgaMetadataPage len
  else fillFpgaCompressedMetadataPage len storedLen lzmaFormat

def programAutoload (arch : FlashArch) (program : BitVec 8 → BitVec 8 → BitVec 8)
    (faults : FlashCall → Option FlashError) (metadata padded : List (BitVec 8)) (f : Flash) :
    Except FlashError Flash := do
  let page := bladerfFlashAddrFpga / arch.psizeBytes
  let pages := padded.length / arch.psizeBytes
  let blocks := (padded.length + arch.psizeBytes + arch.ebsizeBytes - 1) / arch.ebsizeBytes
  let f ← spiFlashErase arch (faults .erase) (bladerfFlashAddrFpga / arch.ebsizeBytes) blocks f
  let f ← spiFlashWrite arch program (faults .writeMetadata) metadata page 1 f
  let f ← spiFlashWrite arch program (faults .writeBitstream) padded (page + 1) pages f
  spiFlashVerify arch (faults .readMetadata) metadata page 1 f
  spiFlashVerify arch (faults .readBitstream) padded (page + 1) pages f
  return f

def spiFlashWriteFpgaBitstream (lzma : Lzma) (arch : FlashArch)
    (program : BitVec 8 → BitVec 8 → BitVec 8) (faults : FlashCall → Option FlashError)
    (fw : FirmwareVersion) (bitstream : List (BitVec 8)) (f : Flash) :
    Except FlashError Flash := do
  require (bladerfFlashAddrFpga < arch.tsizeBytes) .inval
  attempt (faults .fwVersion)
  let stored ← storedBitstream lzma arch fw bitstream
  let padding := paddingLen stored.length arch.psizeBytes
  require (FpgaAutoloadFits stored.length padding arch.psizeBytes
    (arch.tsizeBytes - bladerfFlashAddrFpga)) .inval
  attempt (faults .buffers)
  programAutoload arch program faults (autoloadMetadata fw bitstream.length stored.length)
    (stored ++ List.replicate padding 0xff) f

end BladeRF
