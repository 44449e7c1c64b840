/-
# `Streaming.BufferMgmt` — the ring of `struct buffer_mgmt` and its RX operations

The data of `sync.h` that the RX side of the synchronous interface uses, and
the functions of `sync_worker.c`/`sync_worker.h` that change it.  Each of them
runs with `buf_mgmt.lock` held, so each is one function on the ring.

* A ring of `num_buffers` slots is indexed by `Fin n`; `(i + 1) % num_buffers`
  is addition in `Fin n`, and the range checks the source makes on its cursors
  hold by typing.
* A buffer is named by its slot: `buffers[]` has distinct addresses, so
  `sync_buf2idx` of a buffer's base address is its index.  `α` is what a USB
  transfer leaves in a buffer.
* `reorder[0..reorder_len)` is a list.  Shifting the array is insertion and
  removal in the list.
* Sequence numbers are `uint32_t`, as `BitVec 32`: every subtraction wraps.
* Log output, condition signals and the call into the board's event writer have
  no effect on the ring and are left out; the latch the last one sets is kept.
-/
import Mathlib.Data.List.Sort
import BladeRF.Lib.Scan

namespace BladeRF

/-- `sync_buffer_status`.  `partlyUsed` is `SYNC_BUFFER_PARTIAL`. -/
inductive SyncBufferStatus where
  | empty
  | partlyUsed
  | full
  | inFlight
deriving DecidableEq

/-- `bladerf_format`, the values `sync_init` accepts. -/
inductive BladerfFormat where
  | sc16Q11
  | sc16Q11Packed
  | sc16Q11Meta
  | packetMeta
  | sc8Q7
  | sc8Q7Meta
deriving DecidableEq

/-- The two sample formats whose messages carry a metadata header. -/
def BladerfFormat.isSampleMeta : BladerfFormat → Bool
  | .sc16Q11Meta | .sc8Q7Meta => true
  | _ => false

/-- `struct rx_reorder_entry`.  An entry is either a completed buffer held for
ordered delivery, or the tombstone of a sequence whose buffer was dropped
(`dropped == true`, `buf_idx == BUFFER_MGMT_INVALID_INDEX`, no samples). -/
inductive RxReorderEntry (n : ℕ) where
  | held (seq : BitVec 32) (bufIdx : Fin n) (numSamples : ℕ)
  | dropped (seq : BitVec 32)

namespace RxReorderEntry

variable {n : ℕ}

def seq : RxReorderEntry n → BitVec 32
  | .held s _ _ => s
  | .dropped s => s

/-- The entry is not dropped and its `buf_idx` is `i`. -/
def holds (i : Fin n) : RxReorderEntry n → Bool
  | .held _ j _ => j = i
  | .dropped _ => false

@[simp] theorem holds_held (i j : Fin n) (s : BitVec 32) (k : ℕ) :
    holds i (.held s j k) = decide (j = i) := rfl

@[simp] theorem holds_dropped (i : Fin n) (s : BitVec 32) :
    holds i (.dropped s) = false := rfl

end RxReorderEntry

def syncRxMaxReorder : ℕ := 256

/-- `BLADERF_RF_STREAM_STATUS_*`, the source flags of an overrun. -/
def streamStatusFpgaRxLoss : BitVec 32 := 1#32 <<< 1
def streamStatusSyncRxQueue : BitVec 32 := 1#32 <<< 2
def streamStatusSyncRxRingFull : BitVec 32 := 1#32 <<< 6
def streamStatusSyncRxReorder : BitVec 32 := 1#32 <<< 7
def streamStatusSyncRxSequenceTracker : BitVec 32 := 1#32 <<< 8

/-- `struct buffer_mgmt`, the fields the RX side uses. -/
structure BufferMgmt (n : ℕ) (α : Type) where
  status : Fin n → SyncBufferStatus
  actualLengths : Fin n → ℕ
  buffers : Fin n → α
  prodI : Fin n
  consI : Fin n
  partialOff : ℕ
  overrunPending : Bool
  overrunSourceFlags : BitVec 32
  overrunEventPublished : Bool
  rxDataWithheldPending : Bool
  stalePending : Bool
  rxRingFullWarningPublished : Bool
  bufferSeq : Fin n → BitVec 32
  bufferDropped : Fin n → Bool
  expectedSeq : BitVec 32
  nextSeq : BitVec 32
  reorder : List (RxReorderEntry n)
  reorderLimit : ℕ

/-- What a stream callback hands back to `async.c`: a buffer to submit,
`BLADERF_STREAM_NO_DATA`, `BLADERF_STREAM_REUSE_BUFFER`, or `NULL`
(`BLADERF_STREAM_SHUTDOWN`). -/
inductive StreamReturn (n : ℕ) where
  | buffer (i : Fin n)
  | noData
  | reuseBuffer
  | shutdown

namespace BufferMgmt

variable {n : ℕ} {α : Type}

/-! ## Sequence tracking -/

def syncResetSequenceTracking (b : BufferMgmt n α) (numInFlight : ℕ) : BufferMgmt n α :=
  let limit := min numInFlight n
  { b with
    bufferSeq := fun i => if i.val < limit then BitVec.ofNat 32 i.val else BitVec.allOnes 32
    expectedSeq := 0
    nextSeq := BitVec.ofNat 32 limit
    reorder := []
    reorderLimit := if 1 < n then min (n - 1) syncRxMaxReorder else 0 }

def markBufferReady (b : BufferMgmt n α) (idx : Fin n) (numSamples : ℕ) : BufferMgmt n α :=
  { b with
    status := Function.update b.status idx .full
    actualLengths := Function.update b.actualLengths idx numSamples }

/-- Releasing one entry of `reorder[]`: a held buffer becomes ready, a
tombstone only gives way. -/
def releaseEntry (b : BufferMgmt n α) : RxReorderEntry n → BufferMgmt n α
  | .held _ idx numSamples => b.markBufferReady idx numSamples
  | .dropped _ => b

/-- The entry is the one `expected_seq` waits for. -/
def isExpected (b : BufferMgmt n α) (e : RxReorderEntry n) : Bool :=
  e.seq == b.expectedSeq

/-- The `while (progressed && reorder_len > 0)` loop of
`flush_reorder_entries`.  Each round that makes progress removes an entry, so
`reorder_len` rounds are enough. -/
def flushRounds : ℕ → BufferMgmt n α → BufferMgmt n α
  | 0, b => b
  | k + 1, b =>
      match b.reorder.find? b.isExpected with
      | none => b
      | some e =>
          flushRounds k
            { b.releaseEntry e with
              expectedSeq := b.expectedSeq + 1
              reorder := b.reorder.eraseP b.isExpected }

def flushReorderEntries (b : BufferMgmt n α) : BufferMgmt n α :=
  flushRounds b.reorder.length b

/-- The insertion both hold functions make: before the first entry that is
further from `expected_seq`. -/
def insertEntry (b : BufferMgmt n α) (e : RxReorderEntry n) : List (RxReorderEntry n) :=
  b.reorder.orderedInsert
    (fun x y => x.seq - b.expectedSeq < y.seq - b.expectedSeq) e

/-- `hold_out_of_order_buffer`, as its only caller uses it (`dropped == false`);
`none` when it returns false. -/
def holdOutOfOrderBuffer (b : BufferMgmt n α) (seq : BitVec 32) (idx : Fin n)
    (numSamples : ℕ) : Option (BufferMgmt n α) :=
  if b.reorderLimit = 0 ∨ b.reorderLimit ≤ b.reorder.length then none
  else some { b with reorder := b.insertEntry (.held seq idx numSamples) }

/-- `hold_dropped_sequence`; `none` when it returns false. -/
def holdDroppedSequence (b : BufferMgmt n α) (seq : BitVec 32) : Option (BufferMgmt n α) :=
  if syncRxMaxReorder ≤ b.reorder.length then none
  else some { b with reorder := b.insertEntry (.dropped seq) }

/-- `note_rx_overrun`.  `hook` says that the board has a
`rx_worker_stream_overrun` writer; calling it latches the event. -/
def noteRxOverrun (hook : Bool) (b : BufferMgmt n α) (sourceFlags : BitVec 32) :
    BufferMgmt n α :=
  { b with
    overrunPending := true
    overrunSourceFlags := b.overrunSourceFlags ||| sourceFlags
    overrunEventPublished := b.overrunEventPublished || hook
    stalePending := true }

def retireDroppedSequence (hook : Bool) (b : BufferMgmt n α) (seq : BitVec 32) :
    BufferMgmt n α :=
  if seq = b.expectedSeq then
    flushReorderEntries { b with expectedSeq := b.expectedSeq + 1 }
  else
    match b.holdDroppedSequence seq with
    | some b' => b'
    | none =>
        b.noteRxOverrun hook (streamStatusSyncRxQueue ||| streamStatusSyncRxSequenceTracker)

def markRxSlotInFlight (b : BufferMgmt n α) (idx : Fin n) (seq : BitVec 32) :
    BufferMgmt n α :=
  { b with
    status := Function.update b.status idx .inFlight
    bufferSeq := Function.update b.bufferSeq idx seq
    bufferDropped := Function.update b.bufferDropped idx false }

/-- `sync_worker_mark_rx_slot_in_flight(b, idx, b->next_seq++)`. -/
def issueRxSlot (b : BufferMgmt n α) (idx : Fin n) : BufferMgmt n α :=
  { b.markRxSlotInFlight idx b.nextSeq with nextSeq := b.nextSeq + 1 }

def rxRingFullRecycle (hook : Bool) (b : BufferMgmt n α) (bufferIdx : Fin n) :
    BufferMgmt n α :=
  (b.retireDroppedSequence hook (b.bufferSeq bufferIdx)).issueRxSlot bufferIdx

/-- `sync_worker_rx_reorder_buffer`: the ring afterwards, and whether the
buffer was held. -/
def rxReorderBuffer (hook : Bool) (b : BufferMgmt n α) (seq : BitVec 32)
    (bufferIdx : Fin n) (numSamples : ℕ) : BufferMgmt n α × Bool :=
  let distance := seq - b.expectedSeq
  if distance = 0 then (b, false)
  else
    -- `hold_out_of_order_buffer` runs only if the distance fits the window
    match if distance.toNat ≤ b.reorderLimit then
        b.holdOutOfOrderBuffer seq bufferIdx numSamples else none with
    | some b' => (b', true)
    | none =>
        (b.noteRxOverrun hook (streamStatusSyncRxQueue ||| streamStatusSyncRxReorder), false)

section Ring

variable [NeZero n]

/-- `sync_worker_rx_select_producer_slot`: the `EMPTY` slot found from
`prod_i` on.  The cursor repair is `prod_i = idx`. -/
def rxSelectProducerSlot (b : BufferMgmt n α) : Option (Fin n) :=
  Lib.findFrom b.prodI (fun i => b.status i = .empty)

/-! ## The worker's two completion paths -/

/-- `sync_worker_rx_buffer_rejected`: the ring afterwards and the buffer handed
back for submission. -/
def rxBufferRejected (hook : Bool) (b : BufferMgmt n α) (idx : Fin n) :
    BufferMgmt n α × Fin n :=
  if b.status idx ≠ .inFlight then (b, idx)
  else
    let b₁ := b.retireDroppedSequence hook (b.bufferSeq idx)
    let b₂ := { b₁ with
      bufferDropped := Function.update b₁.bufferDropped idx true
      status := Function.update b₁.status idx .empty }
    match b₂.rxSelectProducerSlot with
    | some nextIdx => ({ b₂.issueRxSlot nextIdx with prodI := nextIdx + 1 }, nextIdx)
    | none => (b₂.issueRxSlot idx, idx)

/-- The release decision of `rx_callback`: the completed buffer is held for its
turn, or becomes ready and lets the buffers held behind it follow. -/
def rxRelease (hook : Bool) (b : BufferMgmt n α) (samplesIdx : Fin n) (numSamples : ℕ) :
    BufferMgmt n α :=
  let seq := b.bufferSeq samplesIdx
  let (b₁, held) :=
    if seq ≠ b.expectedSeq then b.rxReorderBuffer hook seq samplesIdx numSamples
    else (b, false)
  if held then b₁
  else
    let b₂ := b₁.markBufferReady samplesIdx numSamples
    if seq = b₂.expectedSeq then
      flushReorderEntries { b₂ with expectedSeq := b₂.expectedSeq + 1 }
    else b₂

/-- `rx_callback` for a completed buffer, with no stop request pending. -/
def rxCompleted (hook : Bool) (b : BufferMgmt n α) (samplesIdx : Fin n) (numSamples : ℕ) :
    BufferMgmt n α × StreamReturn n :=
  let b₁ := { b with bufferDropped := Function.update b.bufferDropped samplesIdx false }
  match b₁.rxSelectProducerSlot with
  | some nextIdx =>
      -- the cursor repair precedes the release
      let b₂ := { b₁ with prodI := nextIdx }.rxRelease hook samplesIdx numSamples
      ({ b₂.issueRxSlot nextIdx with prodI := nextIdx + 1 }, .buffer nextIdx)
  | none =>
      if 0 < b₁.reorder.length then (b₁, .noData)
      else
        let b₂ := { b₁ with rxRingFullWarningPublished := true }
        ((b₂.rxRingFullRecycle hook samplesIdx).noteRxOverrun hook
          (streamStatusSyncRxQueue ||| streamStatusSyncRxRingFull), .buffer samplesIdx)

/-- `rx_callback`.  `stop` is the `SYNC_WORKER_STOP` request bit; `samples` is
`none` for the event-only callback (`samples == NULL && num_samples == 0`). -/
def rxCallback (hook stop : Bool) (b : BufferMgmt n α) (samples : Option (Fin n × ℕ)) :
    BufferMgmt n α × StreamReturn n :=
  if stop then (b, .shutdown)
  else
    match samples with
    | none => ({ b with rxDataWithheldPending := true }, .reuseBuffer)
    | some (samplesIdx, numSamples) => b.rxCompleted hook samplesIdx numSamples

/-! ## The consumer's steps -/

/-- The skip loop of `SYNC_STATE_WAIT_FOR_BUFFER`, `skipped < num_buffers`. -/
def skipDropped : ℕ → BufferMgmt n α → BufferMgmt n α
  | 0, b => b
  | k + 1, b =>
      if b.bufferDropped b.consI then
        skipDropped k { b with
          bufferDropped := Function.update b.bufferDropped b.consI false
          consI := b.consI + 1 }
      else b

/-- The order key of `sync_worker_reanchor_rx_consumer_to_oldest`: released
buffers behind `expected_seq` first, oldest first, then whatever is at or after
it.  `none` is the loop's `continue`. -/
def rxOrderKey (b : BufferMgmt n α) (i : Fin n) : Option ℕ :=
  let ahead := b.bufferSeq i - b.expectedSeq
  let behind : Bool := 0x7fffffff#32 < ahead
  if b.status i = .full && behind then some (0xffffffff - (0 - ahead).toNat)
  else if (b.status i = .full || b.status i = .inFlight) && !behind then
    some (2 ^ 32 + ahead.toNat)
  else none

def reanchorRxConsumerToOldest (b : BufferMgmt n α) : BufferMgmt n α :=
  if b.status b.consI = .partlyUsed then b
  else if ∃ i, b.status i = .partlyUsed then b
  else
    match Lib.firstMinBelow (2 ^ 64 - 1) b.rxOrderKey with
    | none => b
    | some best => if best = b.consI then b else { b with consI := best, partialOff := 0 }

/-- Dropping every `FULL` slot after an overrun. -/
def dropFull (b : BufferMgmt n α) : BufferMgmt n α :=
  { b with status := fun i => if b.status i = .full then .empty else b.status i }

/-- The stale drop of `SYNC_STATE_WAIT_FOR_BUFFER`; the flag says that a partly
consumed buffer went too, which restarts the metadata parser. -/
def dropStale (b : BufferMgmt n α) (metadataRxNow : Bool) : BufferMgmt n α × Bool :=
  let b₁ := { b.dropFull with stalePending := false }
  if metadataRxNow && b₁.status b₁.consI = .partlyUsed then
    ({ b₁ with
      status := Function.update b₁.status b₁.consI .empty
      consI := b₁.consI + 1 }, true)
  else (b₁, false)

def advanceRxBuffer (b : BufferMgmt n α) : BufferMgmt n α :=
  { b with
    status := Function.update b.status b.consI .empty
    consI := b.consI + 1 }

/-! ## The epoch fence -/

/-- The first loop of `sync_worker_discard_rx_epoch`: held payloads are
retired. -/
def retireHeldPayloads (b : BufferMgmt n α) : BufferMgmt n α :=
  let hit (i : Fin n) : Bool :=
    b.reorder.any (·.holds i) && b.status i = .inFlight
  { b with
    status := fun i => if hit i then .empty else b.status i
    actualLengths := fun i => if hit i then 0 else b.actualLengths i
    bufferDropped := fun i => if hit i then false else b.bufferDropped i }

/-- The second loop's effect on `FULL` and `PARTIAL` slots. -/
def discardReleased (b : BufferMgmt n α) : BufferMgmt n α :=
  let hit (i : Fin n) : Bool := b.status i = .full || b.status i = .partlyUsed
  { b with
    status := fun i => if hit i then .empty else b.status i
    actualLengths := fun i => if hit i then 0 else b.actualLengths i
    bufferDropped := fun i => if hit i then true else b.bufferDropped i
    partialOff := if hit b.consI then 0 else b.partialOff }

/-- The second loop's candidate for the oldest transfer still owned by USB. -/
def discardDistance (b : BufferMgmt n α) (i : Fin n) : Option ℕ :=
  if b.status i = .inFlight then some (b.bufferSeq i - b.expectedSeq).toNat else none

/-- `sync_worker_discard_rx_epoch`. -/
def discardRxEpoch (b : BufferMgmt n α) : BufferMgmt n α :=
  let b₁ := b.retireHeldPayloads
  let b₂ := b₁.discardReleased
  match Lib.firstMinBelow (2 ^ 32 - 1) b₁.discardDistance with
  | none => b₂
  | some i =>
      { b₂ with
        expectedSeq := b₂.bufferSeq i
        consI := i
        partialOff := 0
        reorder := [] }

/-! ## What the worker's operations can do

One inversion lemma per operation; the invariants of the ring are derived from
these and never unfold the operations again. -/

variable (hook : Bool)

omit [NeZero n] in
theorem retireDroppedSequence_cases (b : BufferMgmt n α) (seq : BitVec 32) :
    (seq = b.expectedSeq ∧ b.retireDroppedSequence hook seq
      = flushReorderEntries { b with expectedSeq := b.expectedSeq + 1 }) ∨
    (seq ≠ b.expectedSeq ∧ b.reorder.length < syncRxMaxReorder ∧
      b.retireDroppedSequence hook seq = { b with reorder := b.insertEntry (.dropped seq) }) ∨
    (seq ≠ b.expectedSeq ∧ syncRxMaxReorder ≤ b.reorder.length ∧
      b.retireDroppedSequence hook seq = b.noteRxOverrun hook
        (streamStatusSyncRxQueue ||| streamStatusSyncRxSequenceTracker)) := by
  unfold retireDroppedSequence holdDroppedSequence
  by_cases hseq : seq = b.expectedSeq
  · exact Or.inl ⟨hseq, if_pos hseq⟩
  · by_cases hlen : syncRxMaxReorder ≤ b.reorder.length
    · exact Or.inr (Or.inr ⟨hseq, hlen, by simp only [if_neg hseq, if_pos hlen]⟩)
    · exact Or.inr (Or.inl ⟨hseq, Nat.lt_of_not_le hlen, by simp only [if_neg hseq, if_neg hlen]⟩)

omit [NeZero n] in
theorem rxRelease_cases (b : BufferMgmt n α) (i : Fin n) (k : ℕ) :
    (b.bufferSeq i = b.expectedSeq ∧ b.rxRelease hook i k
      = flushReorderEntries
          { b.markBufferReady i k with expectedSeq := b.expectedSeq + 1 }) ∨
    (b.bufferSeq i ≠ b.expectedSeq ∧
      (b.bufferSeq i - b.expectedSeq).toNat ≤ b.reorderLimit ∧
      b.reorder.length < b.reorderLimit ∧
      b.rxRelease hook i k
        = { b with reorder := b.insertEntry (.held (b.bufferSeq i) i k) }) ∨
    (b.bufferSeq i ≠ b.expectedSeq ∧
      (b.reorderLimit < (b.bufferSeq i - b.expectedSeq).toNat ∨
        b.reorderLimit ≤ b.reorder.length) ∧
      b.rxRelease hook i k = (b.noteRxOverrun hook
        (streamStatusSyncRxQueue ||| streamStatusSyncRxReorder)).markBufferReady i k) := by
  by_cases hseq : b.bufferSeq i = b.expectedSeq
  · refine Or.inl ⟨hseq, ?_⟩
    unfold rxRelease
    simp only [hseq, ne_eq, not_true_eq_false, if_false, Bool.false_eq_true]
    exact if_pos rfl
  · refine Or.inr ?_
    have hdist : b.bufferSeq i - b.expectedSeq ≠ 0 := fun h0 => hseq (by bv_omega)
    by_cases hwin : (b.bufferSeq i - b.expectedSeq).toNat ≤ b.reorderLimit
    · by_cases hlen : b.reorderLimit = 0 ∨ b.reorderLimit ≤ b.reorder.length
      · have hlen' : b.reorderLimit ≤ b.reorder.length := by omega
        refine Or.inr ⟨hseq, Or.inr hlen', ?_⟩
        simp only [rxRelease, rxReorderBuffer, holdOutOfOrderBuffer, ne_eq, hseq,
          not_false_eq_true, if_true, if_neg hdist, if_pos hwin, if_pos hlen,
          Bool.false_eq_true, if_false]
        exact if_neg hseq
      · have hlen' : b.reorder.length < b.reorderLimit := by omega
        refine Or.inl ⟨hseq, hwin, hlen', ?_⟩
        simp only [rxRelease, rxReorderBuffer, holdOutOfOrderBuffer, ne_eq, hseq,
          not_false_eq_true, if_true, if_neg hdist, if_pos hwin, if_neg hlen]
    · refine Or.inr ⟨hseq, Or.inl (Nat.lt_of_not_le hwin), ?_⟩
      simp only [rxRelease, rxReorderBuffer, ne_eq, hseq,
        not_false_eq_true, if_true, if_neg hdist, if_neg hwin, Bool.false_eq_true, if_false]
      exact if_neg hseq

/-- What releasing and retiring leave alone: the cursors, the sequence of every
slot, its rejection marker and its contents. -/
structure Frame (b b' : BufferMgmt n α) : Prop where
  consI : b'.consI = b.consI
  prodI : b'.prodI = b.prodI
  partialOff : b'.partialOff = b.partialOff
  buffers : b'.buffers = b.buffers
  bufferSeq : b'.bufferSeq = b.bufferSeq
  bufferDropped : b'.bufferDropped = b.bufferDropped
  nextSeq : b'.nextSeq = b.nextSeq
  reorderLimit : b'.reorderLimit = b.reorderLimit

omit [NeZero n] in
theorem releaseEntry_frame (b : BufferMgmt n α) (e : RxReorderEntry n) (seq : BitVec 32)
    (rest : List (RxReorderEntry n)) :
    b.Frame { b.releaseEntry e with expectedSeq := seq, reorder := rest } := by
  cases e <;> exact ⟨rfl, rfl, rfl, rfl, rfl, rfl, rfl, rfl⟩

omit [NeZero n] in
theorem Frame.trans {b₁ b₂ b₃ : BufferMgmt n α} (h : b₁.Frame b₂) (h' : b₂.Frame b₃) :
    b₁.Frame b₃ :=
  ⟨h'.consI.trans h.consI, h'.prodI.trans h.prodI, h'.partialOff.trans h.partialOff,
    h'.buffers.trans h.buffers, h'.bufferSeq.trans h.bufferSeq,
    h'.bufferDropped.trans h.bufferDropped, h'.nextSeq.trans h.nextSeq,
    h'.reorderLimit.trans h.reorderLimit⟩

omit [NeZero n] in
theorem flushRounds_frame (k : ℕ) (b : BufferMgmt n α) : b.Frame (b.flushRounds k) := by
  induction k generalizing b with
  | zero => exact ⟨rfl, rfl, rfl, rfl, rfl, rfl, rfl, rfl⟩
  | succ k ih =>
      simp only [flushRounds]
      split
      · exact ⟨rfl, rfl, rfl, rfl, rfl, rfl, rfl, rfl⟩
      · rename_i e _
        exact (b.releaseEntry_frame e _ _).trans (ih _)

omit [NeZero n] in
theorem retireDroppedSequence_frame (b : BufferMgmt n α) (seq : BitVec 32) :
    b.Frame (b.retireDroppedSequence hook seq) := by
  rcases b.retireDroppedSequence_cases hook seq with ⟨-, heq⟩ | ⟨-, -, heq⟩ | ⟨-, -, heq⟩
  · rw [heq]
    have hnext : b.Frame { b with expectedSeq := b.expectedSeq + 1 } :=
      ⟨rfl, rfl, rfl, rfl, rfl, rfl, rfl, rfl⟩
    exact hnext.trans (flushRounds_frame _ _)
  · rw [heq]
    exact ⟨rfl, rfl, rfl, rfl, rfl, rfl, rfl, rfl⟩
  · rw [heq]
    exact ⟨rfl, rfl, rfl, rfl, rfl, rfl, rfl, rfl⟩

omit [NeZero n] in
theorem rxRelease_frame (b : BufferMgmt n α) (i : Fin n) (k : ℕ) :
    b.Frame (b.rxRelease hook i k) := by
  rcases b.rxRelease_cases hook i k with ⟨-, heq⟩ | ⟨-, -, -, heq⟩ | ⟨-, -, heq⟩
  · rw [heq]
    have hready : b.Frame { b.markBufferReady i k with expectedSeq := b.expectedSeq + 1 } :=
      ⟨rfl, rfl, rfl, rfl, rfl, rfl, rfl, rfl⟩
    exact hready.trans (flushRounds_frame _ _)
  · rw [heq]
    exact ⟨rfl, rfl, rfl, rfl, rfl, rfl, rfl, rfl⟩
  · rw [heq]
    exact ⟨rfl, rfl, rfl, rfl, rfl, rfl, rfl, rfl⟩

/-- The ring as `rx_callback` sees it once it has cleared the dropped marker of
the completed slot and repaired the producer cursor. -/
def rxPrepared (b : BufferMgmt n α) (samplesIdx nextIdx : Fin n) : BufferMgmt n α :=
  { b with
    bufferDropped := Function.update b.bufferDropped samplesIdx false
    prodI := nextIdx }

/-- The slot of a rejected buffer, once its sequence is retired. -/
def rxRejected (hook : Bool) (b : BufferMgmt n α) (idx : Fin n) : BufferMgmt n α :=
  { b.retireDroppedSequence hook (b.bufferSeq idx) with
    bufferDropped := Function.update
      (b.retireDroppedSequence hook (b.bufferSeq idx)).bufferDropped idx true
    status := Function.update
      (b.retireDroppedSequence hook (b.bufferSeq idx)).status idx .empty }

theorem rxCompleted_cases (b : BufferMgmt n α) (i : Fin n) (k : ℕ) :
    (∃ next, b.status next = .empty ∧ b.rxCompleted hook i k
      = ({ ((b.rxPrepared i next).rxRelease hook i k).issueRxSlot next with
            prodI := next + 1 }, .buffer next)) ∨
    ((∀ j, b.status j ≠ .empty) ∧ b.reorder ≠ [] ∧ b.rxCompleted hook i k
      = ({ b with bufferDropped := Function.update b.bufferDropped i false }, .noData)) ∨
    ((∀ j, b.status j ≠ .empty) ∧ b.reorder = [] ∧ b.rxCompleted hook i k
      = (({ b with
            bufferDropped := Function.update b.bufferDropped i false
            rxRingFullWarningPublished := true }.rxRingFullRecycle hook i).noteRxOverrun hook
          (streamStatusSyncRxQueue ||| streamStatusSyncRxRingFull), .buffer i)) := by
  unfold rxCompleted rxSelectProducerSlot
  cases hfind : Lib.findFrom b.prodI (fun j => decide (b.status j = .empty)) with
  | some next =>
      have hempty : b.status next = .empty := by
        simpa using Lib.findFrom_some hfind
      exact Or.inl ⟨next, hempty, by simp only [hfind]; rfl⟩
  | none =>
      have hfull : ∀ j, b.status j ≠ .empty := fun j => by
        simpa using Lib.findFrom_none hfind j
      by_cases hre : b.reorder = []
      · refine Or.inr (Or.inr ⟨hfull, hre, ?_⟩)
        simp [hfind, hre]
      · refine Or.inr (Or.inl ⟨hfull, hre, ?_⟩)
        have hpos : 0 < b.reorder.length := List.length_pos_iff.mpr hre
        simp [hfind, hpos]

theorem rxBufferRejected_cases (b : BufferMgmt n α) (i : Fin n) (hi : b.status i = .inFlight) :
    ∃ next, (b.rxRejected hook i).status next = .empty ∧
      b.rxBufferRejected hook i
        = ({ (b.rxRejected hook i).issueRxSlot next with prodI := next + 1 }, next) := by
  unfold rxBufferRejected rxSelectProducerSlot
  rw [if_neg (not_not.mpr hi)]
  change ∃ next, _ ∧ (match Lib.findFrom (b.rxRejected hook i).prodI
    (fun j => decide ((b.rxRejected hook i).status j = .empty)) with
    | some nextIdx =>
        ({ (b.rxRejected hook i).issueRxSlot nextIdx with prodI := nextIdx + 1 }, nextIdx)
    | none => ((b.rxRejected hook i).issueRxSlot i, i)) = _
  cases hfind : Lib.findFrom (b.rxRejected hook i).prodI
      (fun j => decide ((b.rxRejected hook i).status j = .empty)) with
  | some next =>
      exact ⟨next, by simpa using Lib.findFrom_some hfind, rfl⟩
  | none =>
      -- the rejected slot itself is `EMPTY` here, so the search cannot fail
      have := Lib.findFrom_none hfind i
      simp [rxRejected] at this

end Ring

end BufferMgmt

def syncRxShouldDropStale (format : BladerfFormat) (rxNow : Bool) : Bool :=
  match format with
  | .packetMeta => false
  | .sc16Q11Meta | .sc8Q7Meta => rxNow
  | _ => true

end BladeRF
