/-
# `Nios.Packet` — the 16-byte packets of the NIOS command channel

The formats of `nios_pkt_*.h` as far as the host's transaction layer reads them.
A packet is a list of 16 bytes; a field is read little-endian at its offset, so
the unpackers of the register formats are one function with the offsets and
widths of the format as data.

The last section is the validator, `nios_response_matches_request`: whether a
response can be the answer to a request.  It is a formula of the two packets,
and of the host's view of the command-session generation for RETUNE2 requests
that carry a token.
-/
import BladeRF.Lib.Bytes

namespace BladeRF

/-- `uint8_t buf[NIOS_PKT_LEN]`. -/
structure Packet where
  bytes : List (BitVec 8)
  length_eq : bytes.length = 16
deriving DecidableEq

namespace Packet

/-- `buf[i]`. -/
def byte (p : Packet) (i : ℕ) : BitVec 8 :=
  p.bytes.getD i 0

/-- The little-endian field of `len` bytes at `off`. -/
def field (p : Packet) (off len : ℕ) : ℕ :=
  Lib.leNat ((p.bytes.drop off).take len)

/-- `(buf[i] & mask) != 0`. -/
def flag (p : Packet) (i : ℕ) (mask : BitVec 8) : Bool :=
  p.byte i &&& mask != 0

end Packet

/-! ## Formats -/

def niosPktLegacyMagic : BitVec 8 := 0x4e
def niosPktLegacyErrorMagic : BitVec 8 := 0xb1
def niosPkt8x8Magic : BitVec 8 := 0x41
def niosPkt8x16Magic : BitVec 8 := 0x42
def niosPkt8x32Magic : BitVec 8 := 0x43
def niosPkt8x64Magic : BitVec 8 := 0x44
def niosPkt16x64Magic : BitVec 8 := 0x45
def niosPkt32x32Magic : BitVec 8 := 0x4b
def niosPktRetuneMagic : BitVec 8 := 0x54
def niosPktRetune2Magic : BitVec 8 := 0x55

structure RegAccess where
  target : BitVec 8
  write : Bool
  addr : ℕ
  data : ℕ

/-- The layout of a register format: target at byte 1, flags at byte 2, a
reserved byte, then address and data, then reserved bytes to the end. -/
structure RegFormat where
  magic : BitVec 8
  addrLen : ℕ
  dataLen : ℕ

namespace RegFormat

/-- `IDX_DATA`; `IDX_ADDR` is 4 in every format. -/
def dataIdx (f : RegFormat) : ℕ := 4 + f.addrLen

/-- `IDX_RESV2`. -/
def resvIdx (f : RegFormat) : ℕ := f.dataIdx + f.dataLen

def unpack (f : RegFormat) (p : Packet) : RegAccess :=
  { target := p.byte 1
    write := p.flag 2 1
    addr := p.field 4 f.addrLen
    data := p.field f.dataIdx f.dataLen }

/-- A packet of the format; `flags` is the flag byte and `tail` fills the
reserved bytes at the end. -/
def bytes (f : RegFormat) (target flags : BitVec 8) (addr data tail : ℕ) : List (BitVec 8) :=
  [f.magic, target, flags, 0] ++ Lib.leBytes f.addrLen addr ++ Lib.leBytes f.dataLen data
    ++ Lib.leBytes (16 - f.resvIdx) tail

end RegFormat

def niosPkt8x8 : RegFormat := ⟨niosPkt8x8Magic, 1, 1⟩
def niosPkt8x16 : RegFormat := ⟨niosPkt8x16Magic, 1, 2⟩
def niosPkt8x32 : RegFormat := ⟨niosPkt8x32Magic, 1, 4⟩
def niosPkt8x64 : RegFormat := ⟨niosPkt8x64Magic, 1, 8⟩
def niosPkt16x64 : RegFormat := ⟨niosPkt16x64Magic, 2, 8⟩
def niosPkt32x32 : RegFormat := ⟨niosPkt32x32Magic, 4, 4⟩

def niosPkt8x32TargetVersion : BitVec 8 := 0x00
def niosPkt8x32TargetControl : BitVec 8 := 0x01
def niosPkt8x32TargetRetune2Completion : BitVec 8 := 0x8f
def niosPkt8x32TargetCommandSessionGeneration : BitVec 8 := 0x90
def niosPkt8x32Retune2FailureSelectTx : ℕ := 3
def niosPkt8x32Retune2CompletionRequestToken : ℕ := 7

def niosPkt16x64TargetAd9361 : BitVec 8 := 0x00
def niosPkt16x64TargetRfic : BitVec 8 := 0x01
def niosPkt16x64TargetGainTableRow : BitVec 8 := 0x02

def niosPkt8x32Pack (target : BitVec 8) (write : Bool) (addr : BitVec 8) (data : BitVec 32) :
    Packet :=
  ⟨niosPkt8x32.bytes target (if write then 1 else 0) addr.toNat data.toNat 0, by
    simp [RegFormat.bytes, RegFormat.resvIdx, RegFormat.dataIdx, niosPkt8x32]⟩

def niosPkt16x64TransactionId (p : Packet) : ℕ :=
  p.field 14 2

def niosPkt16x64RespIsBusy (p : Packet) : Bool :=
  p.flag 2 4

def niosPkt16x64RespIsQueueFull (p : Packet) : Bool :=
  p.flag 2 8

/-- `NIOS_PKT_RETUNE_CLEAR_QUEUE` and `NIOS_PKT_RETUNE2_CLEAR_QUEUE`. -/
def niosPktRetuneClearQueue : ℕ := 2 ^ 64 - 1

/-- `NIOS_PKT_RETUNE_NOW` and `NIOS_PKT_RETUNE2_NOW`. -/
def niosPktRetuneNow : ℕ := 0

/-- The time field of a retune request, `nios_read_le64(request, IDX_TIME)`. -/
def niosPktRetuneTime (p : Packet) : ℕ :=
  p.field 1 8

def niosPktRetune2UnpackRequestToken (p : Packet) : ℕ :=
  p.field 14 2

/-! ## The validator -/

def niosResponseHasZeroTail (response : Packet) (firstReserved : ℕ) : Bool :=
  (response.bytes.drop firstReserved).all (· == 0)

def niosResponseFlagsAndReservedValid (response : Packet) (flagsOffset reservedOffset : ℕ) :
    Bool :=
  !response.flag flagsOffset 0xfc && response.byte reservedOffset == 0

/-- The PIO ranges of `nios_legacy_config_response_matches`, start and
length. -/
def niosLegacyConfigRanges : List (ℕ × ℕ) :=
  [(0, 4), (4, 2), (6, 2), (8, 2), (10, 2), (12, 4), (16, 8), (24, 8), (34, 2), (36, 4),
    (40, 4), (44, 4)]

def niosLegacyConfigResponseMatches (request response : Packet) : Bool :=
  let count := (request.byte 1 &&& 0x7).toNat
  let firstAddr := (request.byte 2).toNat
  if count = 0 then false
  else
    match niosLegacyConfigRanges.find?
        (fun r => decide (r.1 ≤ firstAddr ∧ firstAddr < r.1 + r.2)) with
    | none => false
    | some (start, length) =>
        let pairs := min count (length - (firstAddr - start))
        (List.range pairs).all (fun k =>
          response.byte (2 + 2 * k) == request.byte (2 + 2 * k) - BitVec.ofNat 8 start)

def niosLegacyMatches (request response : Packet) : Bool :=
  if (response.byte 0 ≠ niosPktLegacyMagic ∧ response.byte 0 ≠ niosPktLegacyErrorMagic) ∨
      response.byte 1 ≠ request.byte 1 then false
  else if response.byte 0 = niosPktLegacyErrorMagic then true
  else if request.byte 1 &&& 0x30 = 0x00 then niosLegacyConfigResponseMatches request response
  else if request.byte 1 &&& 0x30 = 0x10 ∨ request.byte 1 &&& 0x30 = 0x30 then
    response.byte 2 == request.byte 2
  else true

/-- The register formats echo target, direction and address, and a write its
data. -/
def RegFormat.echoes (f : RegFormat) (request response : Packet) : Bool :=
  let req := f.unpack request
  let resp := f.unpack response
  req.target == resp.target && req.write == resp.write && req.addr == resp.addr &&
    (!req.write || req.data == resp.data)

def RegFormat.standardMatches (f : RegFormat) (request response : Packet) : Bool :=
  niosResponseFlagsAndReservedValid response 2 3 &&
    niosResponseHasZeroTail response f.resvIdx && f.echoes request response

/-- The 8x16 branch: `BUSY` is a response-only flag. -/
def nios8x16Matches (request response : Packet) : Bool :=
  !response.flag 2 0xf8 && response.byte 3 == 0 &&
    !(response.flag 2 4 && response.flag 2 2) &&
    niosResponseHasZeroTail response niosPkt8x16.resvIdx && niosPkt8x16.echoes request response

/-- The 16x64 branch: transaction ids belong to RFIC writes, and so do the
response-only flags `BUSY` and `QUEUE_FULL`. -/
def nios16x64Matches (request response : Packet) : Bool :=
  let req := niosPkt16x64.unpack request
  let resp := niosPkt16x64.unpack response
  let rficWrite := req.target == niosPkt16x64TargetRfic && req.write
  if response.flag 2 0xf0 || response.byte 3 != 0 then false
  else if niosPkt16x64RespIsQueueFull response &&
      (!rficWrite || niosPkt16x64RespIsBusy response || response.flag 2 2) then false
  else if rficWrite &&
      niosPkt16x64TransactionId request != niosPkt16x64TransactionId response then false
  else if !rficWrite && (niosPkt16x64TransactionId request != 0 ||
      !niosResponseHasZeroTail response niosPkt16x64.resvIdx) then false
  else if req.target != resp.target || req.write != resp.write || req.addr != resp.addr then false
  else if niosPkt16x64RespIsBusy response &&
      (!rficWrite || niosPkt16x64TransactionId request == 0 || response.flag 2 2) then false
  else if req.write && (req.target == niosPkt16x64TargetAd9361 ||
      req.target == niosPkt16x64TargetRfic || req.target == niosPkt16x64TargetGainTableRow) then
    req.data == resp.data
  else true

def niosRetuneMatches (request response : Packet) : Bool :=
  let timestamp := niosPktRetuneTime request
  !(response.flag 10 0xe0 ||
    !niosResponseHasZeroTail response 11 ||
    (response.flag 10 0x10 && response.flag 10 0x0e) ||
    (response.flag 10 0x01 && timestamp != niosPktRetuneNow) ||
    (response.flag 10 0x04 &&
      (timestamp != niosPktRetuneClearQueue || response.flag 10 0x02)) ||
    (response.flag 10 0x08 &&
      (timestamp != niosPktRetuneClearQueue || response.flag 10 0x06)))

/-- The RETUNE2 branch.  The flags of byte 9 are `TSVTUNE_VALID` (0x01),
`SUCCESS` (0x02), `INVALID_TIMESTAMP` (0x04), `CANCEL_FAILED` (0x08),
`CANCEL_PENDING` (0x10), `BUSY` (0x20) and `ASYNC_PENDING` (0x40). -/
def niosRetune2Matches (request response : Packet) (sessionGenerationValid : Bool)
    (sessionGeneration : ℕ) : Bool :=
  let timestamp := niosPktRetuneTime request
  let requestToken := niosPktRetune2UnpackRequestToken request
  !(response.flag 9 0x80 ||
    (response.flag 9 0x40 &&
      (timestamp != niosPktRetuneNow || requestToken == 0 || !response.flag 9 0x02 ||
        response.flag 9 0x3d)) ||
    (requestToken == 0 && !niosResponseHasZeroTail response 10) ||
    (requestToken != 0 && response.field 10 2 != requestToken) ||
    (requestToken != 0 &&
      (!sessionGenerationValid || response.field 12 4 != sessionGeneration)) ||
    (response.flag 9 0x20 && response.flag 9 0x5e) ||
    (response.flag 9 0x01 && timestamp != niosPktRetuneNow) ||
    (response.flag 9 0x08 &&
      (timestamp != niosPktRetuneClearQueue || response.flag 9 0x02)) ||
    (response.flag 9 0x10 &&
      (timestamp != niosPktRetuneClearQueue || response.flag 9 0x4a)) ||
    (response.flag 9 0x04 &&
      (timestamp == niosPktRetuneNow || timestamp == niosPktRetuneClearQueue ||
        response.flag 9 0x5a)))

def niosResponseMatchesRequest (request response : Packet) (sessionGenerationValid : Bool)
    (sessionGeneration : ℕ) : Bool :=
  if request.byte 0 = niosPktLegacyMagic then niosLegacyMatches request response
  else if request.byte 0 ≠ response.byte 0 then false
  else if request.byte 0 = niosPkt8x8Magic then niosPkt8x8.standardMatches request response
  else if request.byte 0 = niosPkt8x16Magic then nios8x16Matches request response
  else if request.byte 0 = niosPkt8x32Magic then niosPkt8x32.standardMatches request response
  else if request.byte 0 = niosPkt8x64Magic then niosPkt8x64.standardMatches request response
  else if request.byte 0 = niosPkt16x64Magic then nios16x64Matches request response
  else if request.byte 0 = niosPkt32x32Magic then niosPkt32x32.standardMatches request response
  else if request.byte 0 = niosPktRetuneMagic then niosRetuneMatches request response
  else if request.byte 0 = niosPktRetune2Magic then
    niosRetune2Matches request response sessionGenerationValid sessionGeneration
  else true

end BladeRF
