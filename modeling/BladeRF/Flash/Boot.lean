/-
# `Flash.Boot` — the FX3 loads the FPGA from flash

At boot the FX3 reads the metadata page and sends the bitstream behind it to the
FPGA, as it is or out of its LZMA frames.  A page of 256 bytes becomes 256 words
in place, from the last byte down, by the table that the wiring of the board
gives; the last transfer is two words longer.  Frames are read through a page
buffer, across pages.
-/
import BladeRF.Flash.Autoload

namespace BladeRF

open Lib (Memory bytesAt writeBytes leBytes leNat atoi)

/-- The table of `NuandFpgaConfigSwFlipLut_bladeRF1`: GPIF bit and FPP bit. -/
def usGpif2Fpp : List (ℕ × ℕ) :=
  [(7, 0), (15, 1), (6, 2), (2, 3), (1, 4), (3, 5), (9, 6), (11, 7)]

/-- `NuandFpgaConfigSwFlipLut_bladeRF1`. -/
def flipLutBladeRF1 (i : BitVec 8) : BitVec 16 :=
  usGpif2Fpp.foldl (fun w p => if i.getLsbD p.2 then w ||| 1 <<< p.1 else w) 0

/-- `CyFxSpiTransfer(page, 0x100, buf, CyTrue, CyFalse)`; the page is 16 bits. -/
def cyFxSpiTransfer (flash : Memory) (page : ℕ) (buf : Memory) : Memory := fun i =>
  if i < 256 then flash (page % 65536 * 256 + i) else buf i

/-- The loop of `FpgaSendFlashBytes` over the bytes below `n`: byte `i` becomes word `i`. -/
def flipBytes (flipLut : BitVec 8 → BitVec 16) : ℕ → Memory → Memory
  | 0, buf => buf
  | i + 1, buf => flipBytes flipLut i (writeBytes buf (2 * i) (leBytes 2 (flipLut (buf i)).toNat))

/-- The word `i` of a buffer. -/
def wordAt (buf : Memory) (i : ℕ) : BitVec 16 := BitVec.ofNat 16 (leNat (bytesAt buf (2 * i) 2))

/-- `FpgaSendFlashBytes`: the buffer after it and the words sent. -/
def fpgaSendFlashBytes (flipLut : BitVec 8 → BitVec 16) (buf : Memory) (count : ℕ) (last : Bool) :
    Memory × List (BitVec 16) :=
  let buf := flipBytes flipLut 256 buf
  (buf, (List.range (if last then count + 2 else count)).map (wordAt buf))

/-- What a loader that succeeds sent to the FPGA, and the pages it read. -/
structure Loaded where
  words : List (BitVec 16)
  pages : List ℕ

/-! ## Bitstreams as they are -/

/-- The loop of `NuandLoadFromFlash` with `nleft` bytes to go; the first argument
bounds the turns. -/
def nuandLoadFrom (flipLut : BitVec 8 → BitVec 16) (flash : Memory) :
    ℕ → (nleft sector : ℕ) → Memory → Loaded
  | 0, _, _, _ => ⟨[], []⟩
  | fuel + 1, nleft, sector, buf =>
      let page := cyFxSpiTransfer flash sector buf
      if nleft > 256 then
        let sent := fpgaSendFlashBytes flipLut page 256 false
        let rest := nuandLoadFrom flipLut flash fuel (nleft - 256) (sector + 1) sent.1
        ⟨sent.2 ++ rest.words, sector :: rest.pages⟩
      else ⟨(fpgaSendFlashBytes flipLut page nleft true).2, [sector]⟩

/-- `NuandLoadFromFlash`; `buf` is what the DMA buffer holds before. -/
def nuandLoadFromFlash (flipLut : BitVec 8 → BitVec 16) (flash buf : Memory) (fpgaLen : ℕ) :
    Option Loaded :=
  if fpgaLen = 0 then none else some (nuandLoadFrom flipLut flash fpgaLen fpgaLen 1025 buf)

/-! ## Compressed bitstreams -/

/-- The page buffer and the counters of `FpgaReadCompressedBytes`. -/
structure FrameReader where
  page : Memory
  sector : ℕ
  nleft : ℕ
  offset : ℕ
  avail : ℕ
  pages : List ℕ

namespace FrameReader

def refill (flash : Memory) (r : FrameReader) : Option FrameReader :=
  if r.avail ≠ 0 then some r
  else if r.nleft = 0 then none
  else
    let avail := if r.nleft > 256 then 256 else r.nleft
    some
      { page := cyFxSpiTransfer flash r.sector r.page
        sector := r.sector + 1
        nleft := r.nleft - avail
        offset := 0
        avail := avail
        pages := r.pages ++ [r.sector] }

/-- `FpgaReadCompressedBytes`: the bytes and the state behind them; the first
argument bounds the turns. -/
def fpgaReadCompressedBytes (flash : Memory) :
    ℕ → FrameReader → ℕ → Option (List (BitVec 8) × FrameReader)
  | _, r, 0 => some ([], r)
  | 0, _, _ + 1 => none
  | fuel + 1, r, count + 1 =>
      (r.refill flash).bind fun r =>
        let take := if count + 1 < r.avail then count + 1 else r.avail
        (fpgaReadCompressedBytes flash fuel
          { r with
            offset := r.offset + take
            avail := r.avail - take } (count + 1 - take)).map fun rest =>
          (bytesAt r.page r.offset take ++ rest.1, rest.2)

/-- A read of `count` bytes takes at most that many turns. -/
def read (flash : Memory) (r : FrameReader) (count : ℕ) : Option (List (BitVec 8) × FrameReader) :=
  fpgaReadCompressedBytes flash count r count

end FrameReader

def fpgaDecodeLzmaBlock (lzma : Lzma) (frame : List (BitVec 8)) (blockLen : ℕ) :
    Option (List (BitVec 8)) :=
  if frame.length ≤ lzmaPropsSize then none
  else
    (lzma.decode (frame.take lzmaPropsSize) (frame.drop lzmaPropsSize) blockLen).bind fun out =>
      if out.1.length = blockLen ∧ out.2 = frame.length - lzmaPropsSize then some out.1 else none

/-- `FpgaSendDecodedBlock` of what is left of a block: the buffer after it and the
words sent.  `nleft` bytes of the bitstream are left before it. -/
def fpgaSendDecodedBlock (flipLut : BitVec 8 → BitVec 16) :
    ℕ → Memory → List (BitVec 8) → ℕ → Memory × List (BitVec 16)
  | 0, page, _, _ => (page, [])
  | fuel + 1, page, block, nleft =>
      if block = [] then (page, [])
      else
        let count := if block.length > 256 then 256 else block.length
        let page := writeBytes (writeBytes page 0 (List.replicate 256 0xff)) 0 (block.take count)
        let nleft := nleft - count
        let sent := fpgaSendFlashBytes flipLut page count (nleft = 0)
        let rest := fpgaSendDecodedBlock flipLut fuel sent.1 (block.drop count) nleft
        (rest.1, sent.2 ++ rest.2)

/-- The loop of `NuandLoadCompressedFromFlash` with `left` bytes to decode: what it
sends and the reader behind it.  Bytes to decode are bytes to send. -/
def loadBlocks (lzma : Lzma) (flipLut : BitVec 8 → BitVec 16) (flash : Memory) :
    ℕ → (left : ℕ) → FrameReader → Memory → Option (List (BitVec 16) × FrameReader)
  | 0, _, _, _ => none
  | fuel + 1, left, r, buf =>
      if left = 0 then some ([], r)
      else
        let blockLen := if left > fpgaLzmaBlockBytes then fpgaLzmaBlockBytes else left
        (r.read flash 4).bind fun header =>
          let clen := leNat header.1
          if clen = 0 ∨ clen > fpgaLzmaMaxBlockBytes ∨ clen > header.2.nleft + header.2.avail then
            none
          else
            (header.2.read flash clen).bind fun frame =>
              (fpgaDecodeLzmaBlock lzma frame.1 blockLen).bind fun block =>
                let sent := fpgaSendDecodedBlock flipLut block.length
                  (writeBytes buf 0 frame.1) block left
                (loadBlocks lzma flipLut flash fuel (left - blockLen) frame.2 sent.1).map
                  fun rest => (sent.2 ++ rest.1, rest.2)

/-- `NuandLoadCompressedFromFlash`; `page` and `buf` are what the DMA buffers hold. -/
def nuandLoadCompressedFromFlash (lzma : Lzma) (flipLut : BitVec 8 → BitVec 16)
    (flash page buf : Memory) (fpgaLen compressedLen : ℕ) : Option Loaded :=
  if fpgaLen = 0 ∨ compressedLen = 0 then none
  else
    (loadBlocks lzma flipLut flash (fpgaLen + 1) fpgaLen
      { page
        sector := 1025
        nleft := compressedLen
        offset := 0
        avail := 0
        pages := [] } buf).bind fun done =>
      if done.2.nleft = 0 ∧ done.2.avail = 0 then some ⟨done.1, done.2.pages⟩ else none

/-! ## Boot -/

def autoloadPage : ℕ := 1024

/-- The autoload part of `bladeRFAppThread_Entry`: the metadata page is in
`glAutoLoad`, and says which loader runs on which lengths. -/
def autoload (lzma : Lzma) (flipLut : BitVec 8 → BitVec 16) (flash page buf : Memory) :
    Option Loaded :=
  let glAutoLoad := cyFxSpiTransfer flash autoloadPage fun _ => 0
  match nuandExtractField glAutoLoad 256 lenKey 10 with
  | some len => nuandLoadFromFlash flipLut flash buf (atoi len)
  | none =>
      match nuandExtractField glAutoLoad 256 fmtKey 5, nuandExtractField glAutoLoad 256 ulenKey 10,
        nuandExtractField glAutoLoad 256 clenKey 10 with
      | some format, some fpgaLen, some compressedLen =>
          if format = lzmaFormat.chars then
            nuandLoadCompressedFromFlash lzma flipLut flash page buf (atoi fpgaLen)
              (atoi compressedLen)
          else none
      | _, _, _ => none

end BladeRF
