/-
# `Streaming.Metadata` — headers of sample-META messages

A message of a META stream is a header of three little-endian words and its
samples.  This module has what the receive path reads from a header, and the
decision `metadata_rx_epoch_disposition` takes from it.
-/
import Mathlib.Data.List.Basic
import Mathlib.Algebra.Order.Ring.Nat

namespace BladeRF

/-- The words of a header: `METADATA_RESV`, the timestamp of the first sample
and the flags. -/
structure MetaHeader where
  resv : BitVec 32
  timestamp : BitVec 64
  flags : BitVec 32
deriving DecidableEq

def metadataRxEpochTagValid : BitVec 32 := 0x80000000#32
def metadataRxEpochIdMask : BitVec 32 := 0xff#32

def metadataGetRxEpochId (header : MetaHeader) : Option (BitVec 8) :=
  if header.resv &&& metadataRxEpochTagValid = 0#32 then none
  else some ((header.resv &&& metadataRxEpochIdMask).setWidth 8)

/-- The clipping flags of the two channels, in a tagged message. -/
def metadataGetRxClippingFlags (header : MetaHeader) : BitVec 8 :=
  if header.resv &&& metadataRxEpochTagValid = 0#32 then 0#8
  else ((header.resv >>> 8) &&& 3#32).setWidth 8

def metadataRxEpochMatches (header : MetaHeader) (expectedEpochId : BitVec 8) : Bool :=
  metadataGetRxEpochId header == some expectedEpochId

/-- Timestamps are counters modulo `2^64`; a timestamp less than half the range
ahead of the boundary is at or after it. -/
def metadataTimestampAtOrAfter (timestamp boundary : BitVec 64) : Bool :=
  decide ((timestamp - boundary).toNat < 2 ^ 63)

def bladerfMetaStatusOverrun : BitVec 32 := 1#32
def bladerfMetaStatusUnderrun : BitVec 32 := 2#32
def bladerfMetaFlagRxHwUnderflow : BitVec 32 := 1#32
def bladerfMetaFlagRxHwMiniexp1 : BitVec 32 := 0x10000#32
def bladerfMetaFlagRxHwMiniexp2 : BitVec 32 := 0x20000#32

/-- The flags of a header as status bits of the API.  The underflow flag has the
bit of `BLADERF_META_STATUS_OVERRUN`, and is translated. -/
def metadataFlagsToSyncStatus (flags : BitVec 32) : BitVec 32 :=
  let status := flags &&& (bladerfMetaFlagRxHwMiniexp1 ||| bladerfMetaFlagRxHwMiniexp2)
  if flags &&& bladerfMetaFlagRxHwUnderflow ≠ 0#32 then status ||| bladerfMetaStatusUnderrun
  else status

inductive MetadataRxEpochDisposition where
  | accept
  | dropMessage
  | skipTimestampPrefix
  | returnValidPrefix
  | discontinuity
deriving DecidableEq

/-- What to do with a message, from its header and the timestamp expected next. -/
def metadataRxEpochDisposition (boundaryEnabled epochFilterEnabled epochMatches : Bool)
    (messageTimestamp expectedTimestamp minimumTimestamp : BitVec 64)
    (haveTimestamp copiedData : Bool) : MetadataRxEpochDisposition :=
  if boundaryEnabled && epochFilterEnabled && !epochMatches then
    if copiedData then .returnValidPrefix else .dropMessage
  else if boundaryEnabled &&
      (!metadataTimestampAtOrAfter messageTimestamp minimumTimestamp ||
        (haveTimestamp && !metadataTimestampAtOrAfter expectedTimestamp minimumTimestamp)) then
    .skipTimestampPrefix
  else if haveTimestamp && messageTimestamp != expectedTimestamp then .discontinuity
  else .accept

section Disposition

variable {boundary filter matched known copied : Bool} {timestamp expected minimum : BitVec 64}

theorem disposition_dropMessage
    (h : metadataRxEpochDisposition boundary filter matched timestamp expected minimum known
      copied = .dropMessage) : copied = false := by
  unfold metadataRxEpochDisposition at h
  split at h
  · split at h
    · cases h
    · rename_i hc
      simpa using hc
  · split at h
    · cases h
    · split at h
      · cases h
      · cases h

theorem disposition_accept
    (h : metadataRxEpochDisposition boundary filter matched timestamp expected minimum known
      copied = .accept) :
    (boundary = true → filter = true → matched = true) ∧
      (boundary = true → metadataTimestampAtOrAfter timestamp minimum = true) ∧
      (known = true → timestamp = expected) := by
  unfold metadataRxEpochDisposition at h
  split at h
  · split at h
    · cases h
    · cases h
  · rename_i hfilter
    split at h
    · cases h
    · rename_i hbefore
      split at h
      · cases h
      · rename_i hne
        refine ⟨?_, ?_, ?_⟩
        · intro hb hf
          simpa [hb, hf] using hfilter
        · intro hb
          simp only [hb, Bool.true_and, Bool.or_eq_true, Bool.not_eq_eq_eq_not, Bool.not_true,
            not_or] at hbefore
          simpa using hbefore.1
        · intro hk
          simpa [hk] using hne

end Disposition

/-! ## Whole transfers

An async transfer is judged in one piece: every message of it has to belong to
the epoch, and they have to follow one another. -/

def metadataHeaderSize : ℕ := 16

/-- A transfer: its length in bytes, and the header that is read at an offset. -/
structure MetaBuffer where
  length : ℕ
  header : ℕ → MetaHeader

/-- The messages of a transfer, one every `messageSize` bytes. -/
def MetaBuffer.messages (b : MetaBuffer) (messageSize : ℕ) : List MetaHeader :=
  (List.range (b.length / messageSize)).map fun k => b.header (k * messageSize)

def metadataRxMessageAdmissible (expectedEpochId : BitVec 8) (minimumTimestamp : BitVec 64)
    (header : MetaHeader) : Bool :=
  metadataRxEpochMatches header expectedEpochId &&
    metadataTimestampAtOrAfter header.timestamp minimumTimestamp

def metadataRxBufferMatchesEpoch (b : MetaBuffer) (messageSize : ℕ) (expectedEpochId : BitVec 8)
    (minimumTimestamp : BitVec 64) : Bool :=
  if messageSize ≤ metadataHeaderSize ∨ b.length = 0 ∨ b.length % messageSize ≠ 0 then false
  else (b.messages messageSize).all
    (metadataRxMessageAdmissible expectedEpochId minimumTimestamp)

/-- The loop of `metadata_rx_buffer_invalid_source`: the first message that is
rejected, unless one without a tag stands before it. -/
def metadataRxInvalidSource (expectedEpochId : BitVec 8) (minimumTimestamp : BitVec 64) :
    List MetaHeader → Option (BitVec 8 × BitVec 64)
  | [] => none
  | header :: rest =>
      match metadataGetRxEpochId header with
      | none => none
      | some observed =>
          if observed ≠ expectedEpochId ∨
              !metadataTimestampAtOrAfter header.timestamp minimumTimestamp then
            some (observed, header.timestamp)
          else metadataRxInvalidSource expectedEpochId minimumTimestamp rest

def metadataRxBufferInvalidSource (b : MetaBuffer) (messageSize : ℕ) (expectedEpochId : BitVec 8)
    (minimumTimestamp : BitVec 64) : Option (BitVec 8 × BitVec 64) :=
  if messageSize ≤ metadataHeaderSize ∨ b.length = 0 ∨ b.length % messageSize ≠ 0 then none
  else metadataRxInvalidSource expectedEpochId minimumTimestamp (b.messages messageSize)

/-- `enum metadata_rx_buffer_epoch_result`, with `next_timestamp` where it is
set. -/
inductive MetadataRxBufferEpochResult
  | invalid
  | contiguous (next : BitVec 64)
  | discontinuity (next : BitVec 64)
  deriving DecidableEq

structure MetadataScan where
  known : Bool
  expected : BitVec 64
  discontinuity : Bool

def MetadataScan.message (timestampStep : BitVec 64) (scan : MetadataScan) (header : MetaHeader) :
    MetadataScan where
  known := true
  expected := header.timestamp + timestampStep
  discontinuity := scan.discontinuity || (scan.known && header.timestamp != scan.expected)

def metadataRxBufferEpochContiguous (b : MetaBuffer) (messageSize : ℕ)
    (expectedEpochId : BitVec 8) (minimumTimestamp : BitVec 64) (haveExpectedTimestamp : Bool)
    (expectedTimestamp timestampStep : BitVec 64) : MetadataRxBufferEpochResult :=
  if timestampStep = 0 ∨
      !metadataRxBufferMatchesEpoch b messageSize expectedEpochId minimumTimestamp then .invalid
  else
    let scan := (b.messages messageSize).foldl (MetadataScan.message timestampStep)
      ⟨haveExpectedTimestamp, expectedTimestamp, false⟩
    if scan.discontinuity then .discontinuity scan.expected else .contiguous scan.expected

def MetaHeader.Precedes (timestampStep : BitVec 64) (a b : MetaHeader) : Prop :=
  b.timestamp = a.timestamp + timestampStep

def nextTimestamp (timestampStep : BitVec 64) (messages : List MetaHeader) : Option (BitVec 64) :=
  messages.getLast?.map (·.timestamp + timestampStep)

def firstTimestamp (messages : List MetaHeader) : Option (BitVec 64) :=
  messages.head?.map (·.timestamp)

/-- What a transfer has to be: messages of the epoch, one step apart. -/
structure MessagesContiguous (epochId : BitVec 8) (minimum timestampStep : BitVec 64)
    (messages : List MetaHeader) : Prop where
  nonempty : messages ≠ []
  moves : timestampStep ≠ 0
  epoch : ∀ m ∈ messages, metadataRxEpochMatches m epochId = true
  boundary : ∀ m ∈ messages, metadataTimestampAtOrAfter m.timestamp minimum = true
  chain : messages.IsChain (MetaHeader.Precedes timestampStep)

section Transfer

variable {b : MetaBuffer} {messageSize : ℕ} {epochId : BitVec 8}
  {minimum expected timestampStep next : BitVec 64} {known : Bool}

theorem message_contiguous {scan : MetadataScan} {m : MetaHeader}
    (h : (scan.message timestampStep m).discontinuity = false) :
    scan.discontinuity = false ∧ (scan.known = true → m.timestamp = scan.expected) := by
  simp only [MetadataScan.message, Bool.or_eq_false_iff, Bool.and_eq_false_imp,
    bne_eq_false_iff_eq] at h
  exact h

theorem scan_contiguous {messages : List MetaHeader} {scan : MetadataScan} {m : MetaHeader}
    (h : ((m :: messages).foldl (MetadataScan.message timestampStep) scan).discontinuity = false) :
    scan.discontinuity = false ∧ (scan.known = true → m.timestamp = scan.expected) ∧
      (m :: messages).IsChain (MetaHeader.Precedes timestampStep) ∧
      some ((m :: messages).foldl (MetadataScan.message timestampStep) scan).expected =
        nextTimestamp timestampStep (m :: messages) := by
  induction messages generalizing scan m with
  | nil =>
      obtain ⟨hdisc, hfirst⟩ := message_contiguous h
      exact ⟨hdisc, hfirst, .singleton m, rfl⟩
  | cons m' messages ih =>
      rw [List.foldl_cons] at h
      obtain ⟨hdisc, hnext, hchain, hlast⟩ := ih h
      obtain ⟨hdisc, hfirst⟩ := message_contiguous hdisc
      refine ⟨hdisc, hfirst, .cons_cons (hnext rfl) hchain, ?_⟩
      rw [List.foldl_cons, hlast]
      simp [nextTimestamp]

theorem matchesEpoch_messages
    (h : metadataRxBufferMatchesEpoch b messageSize epochId minimum = true) :
    b.messages messageSize ≠ [] ∧
      (b.messages messageSize).all (metadataRxMessageAdmissible epochId minimum) = true := by
  unfold metadataRxBufferMatchesEpoch at h
  split at h
  · cases h
  · rename_i hshape
    refine ⟨?_, h⟩
    intro hnil
    have hcount : b.length / messageSize = 0 := by
      simpa [MetaBuffer.messages] using hnil
    have hsplit := Nat.div_add_mod b.length messageSize
    rw [hcount] at hsplit
    push Not at hshape
    omega

theorem epochContiguous_contiguous
    (h : metadataRxBufferEpochContiguous b messageSize epochId minimum known expected
      timestampStep = .contiguous next) :
    MessagesContiguous epochId minimum timestampStep (b.messages messageSize) ∧
      (known = true → firstTimestamp (b.messages messageSize) = some expected) ∧
      some next = nextTimestamp timestampStep (b.messages messageSize) := by
  unfold metadataRxBufferEpochContiguous at h
  split at h
  · cases h
  · rename_i hvalid
    push Not at hvalid
    obtain ⟨hmoves, hmatches⟩ := hvalid
    obtain ⟨hne, hall⟩ := matchesEpoch_messages (by simpa using hmatches)
    obtain ⟨m, messages, hm⟩ := List.exists_cons_of_ne_nil hne
    simp only [hm] at h hall ⊢
    split at h
    · cases h
    · rename_i hdisc
      obtain ⟨-, hfirst, hchain, hnext⟩ := scan_contiguous (by simpa using hdisc)
      injection h with h
      have heach : ∀ x ∈ m :: messages, metadataRxMessageAdmissible epochId minimum x = true :=
        List.all_eq_true.mp hall
      refine ⟨⟨by simp, hmoves, ?_, ?_, hchain⟩, ?_, h ▸ hnext⟩
      · intro x hx
        exact (Bool.and_eq_true_iff.mp (heach x hx)).1
      · intro x hx
        exact (Bool.and_eq_true_iff.mp (heach x hx)).2
      · intro hk
        exact congrArg some (hfirst hk)

end Transfer

end BladeRF
