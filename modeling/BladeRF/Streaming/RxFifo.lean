/-
# `Streaming.RxFifo` — in-order delivery of the sample-only stream

What the ring is for: a queue.  A valid completion puts a buffer in, the reader
takes buffers out in the order they came, and a rejected completion does
nothing.  `RxLog` runs the ring beside that queue: `completed` and `consumed`
are the contents of the two ends, `unread` is the queue of slots in between, and
`ended` counts the transfers that have ended, which is `expected_seq` before it
is reduced to 32 bits.

When the backend ends its transfers in the order they were submitted, every
completion carries `expected_seq` and `reorder[]` stays empty.  What is left to
prove is that the reader's cursor follows the queue although rejections rotate
the slots: `sync_worker_reanchor_rx_consumer_to_oldest` selects the head of the
queue.  It does so while no unread buffer is more than 2^31 transfers old, for it
compares sequence numbers in half the range of `uint32_t`.

And it runs only before the wait.  A reader that wakes takes the slot at
`cons_i` if that is `FULL` by then; when rejections have brought the slot back
into use meanwhile, it may hold a younger buffer than another `FULL` slot, and
the reader delivers it first.  `AtHead` excludes these two situations.
-/
import BladeRF.Streaming.RxConservation

namespace BladeRF

/-- The ring beside the queue it implements.  `number i` is the number of the
transfer whose buffer slot `i` has in the queue. -/
structure RxLog (n : ℕ) (α : Type) where
  sync : RxSync n α
  completed : List α
  consumed : List α
  ended : ℕ
  unread : List (Fin n)
  number : Fin n → ℕ

namespace BufferMgmt

variable {n : ℕ} {α : Type} [NeZero n]

/-! ## The worker, in submission order -/

omit [NeZero n] in
theorem flushReorderEntries_nil {b : BufferMgmt n α} (h : b.reorder = []) :
    b.flushReorderEntries = b := by
  rw [flushReorderEntries, h]
  rfl

theorem rxCompleted_in_order (hook : Bool) {b : BufferMgmt n α} {i : Fin n} (k : ℕ)
    (hre : b.reorder = []) (hseq : b.bufferSeq i = b.expectedSeq)
    (hempty : ∃ j, b.status j = .empty) :
    ∃ next, b.status next = .empty ∧ b.rxCompleted hook i k
      = ({ ({ b.rxPrepared i next with expectedSeq := b.expectedSeq + 1 }.markBufferReady
            i k).issueRxSlot next with prodI := next + 1 }, .buffer next) := by
  rcases b.rxCompleted_cases hook i k with ⟨next, hnext, heq⟩ | ⟨hfull, -, -⟩ | ⟨hfull, -, -⟩
  · refine ⟨next, hnext, ?_⟩
    rcases (b.rxPrepared i next).rxRelease_cases hook i k with
      ⟨-, hrel⟩ | ⟨hne, -, -, -⟩ | ⟨hne, -, -⟩
    · have hflush : flushReorderEntries { (b.rxPrepared i next).markBufferReady i k with
          expectedSeq := (b.rxPrepared i next).expectedSeq + 1 } = _ :=
        flushReorderEntries_nil hre
      rw [heq, hrel, hflush]
      rfl
    · exact absurd hseq hne
    · exact absurd hseq hne
  · obtain ⟨j, hj⟩ := hempty
    exact absurd hj (hfull j)
  · obtain ⟨j, hj⟩ := hempty
    exact absurd hj (hfull j)

theorem rxBufferRejected_in_order (hook : Bool) {b : BufferMgmt n α} {i : Fin n}
    (hi : b.status i = .inFlight) (hre : b.reorder = [])
    (hseq : b.bufferSeq i = b.expectedSeq) :
    ∃ next, (next = i ∨ b.status next = .empty) ∧ b.rxBufferRejected hook i
      = ({ { b with
            expectedSeq := b.expectedSeq + 1
            bufferDropped := Function.update b.bufferDropped i true
            status := Function.update b.status i .empty }.issueRxSlot next with
          prodI := next + 1 }, next) := by
  have hretire : b.retireDroppedSequence hook (b.bufferSeq i)
      = { b with expectedSeq := b.expectedSeq + 1 } := by
    rcases b.retireDroppedSequence_cases hook (b.bufferSeq i) with
      ⟨-, heq⟩ | ⟨hne, -, -⟩ | ⟨hne, -, -⟩
    · have hflush : flushReorderEntries { b with expectedSeq := b.expectedSeq + 1 } = _ :=
        flushReorderEntries_nil hre
      rw [heq, hflush]
    · exact absurd hseq hne
    · exact absurd hseq hne
  obtain ⟨next, hnext, heq⟩ := b.rxBufferRejected_cases hook i hi
  rw [rxRejected, hretire] at hnext heq
  refine ⟨next, ?_, heq⟩
  by_cases hni : next = i
  · exact Or.inl hni
  · refine Or.inr ?_
    simpa [Function.update_of_ne hni] using hnext

/-! ## The reader's cursor -/

/-- The lag of every `FULL` slot, in the half range the order key compares. -/
def LagsBehind (b : BufferMgmt n α) (lag : Fin n → ℕ) : Prop :=
  ∀ i, b.status i = .full →
    0 < lag i ∧ lag i ≤ 2 ^ 31 ∧ b.bufferSeq i = b.expectedSeq - BitVec.ofNat 32 (lag i)

omit [NeZero n] in
theorem rxOrderKey_full {b : BufferMgmt n α} {lag : Fin n → ℕ} (h : b.LagsBehind lag)
    {i : Fin n} (hi : b.status i = .full) :
    b.rxOrderKey i = some (0xffffffff - lag i) := by
  obtain ⟨hpos, hle, hseq⟩ := h i hi
  have hahead : (b.bufferSeq i - b.expectedSeq).toNat = 2 ^ 32 - lag i := by
    rw [hseq]
    bv_omega
  have hbehind : 0x7fffffff#32 < b.bufferSeq i - b.expectedSeq := by
    rw [BitVec.lt_def, hahead]
    change 2147483647 < _
    omega
  have hneg : (0 - (b.bufferSeq i - b.expectedSeq)).toNat = lag i := by
    bv_omega
  simp only [rxOrderKey, hi, hbehind, hneg, decide_true, Bool.and_self, if_true]

omit [NeZero n] in
theorem rxOrderKey_not_full {b : BufferMgmt n α} {i : Fin n} (hi : b.status i ≠ .full)
    {k : ℕ} (hk : b.rxOrderKey i = some k) : 2 ^ 32 ≤ k ∧ k < 2 ^ 33 := by
  unfold rxOrderKey at hk
  simp only [hi, decide_false, Bool.false_and, Bool.false_eq_true, if_false, Bool.false_or] at hk
  split at hk
  · have := (b.bufferSeq i - b.expectedSeq).isLt
    have hk' := Option.some.inj hk
    omega
  · simp at hk

omit [NeZero n] in
theorem reanchor_oldest {b : BufferMgmt n α} {lag : Fin n → ℕ} (h : b.LagsBehind lag)
    (hpart : ∀ i, b.status i ≠ .partlyUsed) {m : Fin n} (hm : b.status m = .full)
    (holdest : ∀ i, b.status i = .full → i ≠ m → lag i < lag m) :
    b.reanchorRxConsumerToOldest.consI = m := by
  have hnone : ¬ ∃ i, b.status i = .partlyUsed := fun ⟨i, hi⟩ => hpart i hi
  unfold reanchorRxConsumerToOldest
  rw [if_neg (hpart _), if_neg hnone]
  have hkm := rxOrderKey_full h hm
  have hlag := h m hm
  cases hmin : Lib.firstMinBelow (2 ^ 64 - 1) b.rxOrderKey with
  | none =>
      have := Lib.firstMinBelow_none hmin m _ hkm
      omega
  | some best =>
      obtain ⟨k, hk, -, hleast⟩ := Lib.firstMinBelow_some hmin
      have hle := hleast m _ hkm
      have hbest : best = m := by
        by_contra hne
        by_cases hfull : b.status best = .full
        · rw [rxOrderKey_full h hfull] at hk
          have hlt := holdest best hfull hne
          have hk' := Option.some.inj hk
          omega
        · have := rxOrderKey_not_full hfull hk
          omega
      subst hbest
      dsimp only
      split
      · rename_i heq
        exact heq.symm
      · rfl

theorem anchor_oldest {b : BufferMgmt n α} {lag : Fin n → ℕ} (h : b.LagsBehind lag)
    (hpart : ∀ i, b.status i ≠ .partlyUsed) {m : Fin n} (hm : b.status m = .full)
    (holdest : ∀ i, b.status i = .full → i ≠ m → lag i < lag m) :
    b.rxAnchorConsumer.consI = m := by
  obtain ⟨dropped, cons, heq⟩ := b.skipDropped_cases n
  rw [rxAnchorConsumer, heq]
  exact reanchor_oldest (b := { b with bufferDropped := dropped, consI := cons }) h hpart hm
    holdest

theorem waitForBuffer_quiet {b : BufferMgmt n α} (hw : b.rxDataWithheldPending = false)
    (hs : b.stalePending = false) (format : BladerfFormat) (rxNow nonblocking : Bool) :
    ∃ dropped off, b.waitForBuffer format rxNow nonblocking
      = ({ b with
            bufferDropped := dropped
            consI := b.rxAnchorConsumer.consI
            partialOff := off }, false,
          if b.status b.rxAnchorConsumer.consI = .full then .ready else .wait) := by
  have hclear : { b with rxDataWithheldPending := false } = b := by rw [← hw]
  obtain ⟨dropped, cons, off, heq⟩ := b.rxAnchorConsumer_cases
  refine ⟨dropped, off, ?_⟩
  have hstale : b.rxAnchorConsumer.stalePending = false := by
    rw [heq]
    exact hs
  simp only [waitForBuffer, rxDropStale, hclear, hw, hstale, Bool.false_and, Bool.false_eq_true,
    if_false]
  rw [heq, hw]

end BufferMgmt

namespace RxSync

variable {n : ℕ} {α : Type}

/-- Nothing is held, nothing is lost, and the outstanding transfers carry the
numbers from `ended` on, in the order of their submission. -/
structure InOrder (s : RxSync n α) (ended : ℕ) : Prop where
  sampleOnly : s.format.usingState = .usingBuffer
  reorder : s.b.reorder = []
  overrun : s.b.overrunPending = false
  stale : s.b.stalePending = false
  withheld : s.b.rxDataWithheldPending = false
  expected : s.b.expectedSeq = BitVec.ofNat 32 ended
  next : s.b.nextSeq = BitVec.ofNat 32 (ended + s.usb.length)
  usb : s.usb.map s.b.bufferSeq = (List.range' ended s.usb.length).map (BitVec.ofNat 32)

/-- The oldest transfer, of slot `i`, has ended: its slot has become `st`, and
slot `next` has been submitted. -/
structure Ended (s t : RxSync n α) (i next : Fin n) (contents : α)
    (st : SyncBufferStatus) : Prop where
  head : s.usb.head? = some i
  ended : s.b.status i = .inFlight
  seq : s.b.bufferSeq i = s.b.expectedSeq
  submitted : next = i ∨ s.b.status next = .empty
  usb : t.usb = s.usb.tail ++ [next]
  status : t.b.status = Function.update (Function.update s.b.status i st) next .inFlight
  bufferSeq : t.b.bufferSeq = Function.update s.b.bufferSeq next s.b.nextSeq
  buffers : t.b.buffers = Function.update s.b.buffers i contents
  expectedSeq : t.b.expectedSeq = s.b.expectedSeq + 1
  nextSeq : t.b.nextSeq = s.b.nextSeq + 1
  reorder : t.b.reorder = s.b.reorder
  overrunPending : t.b.overrunPending = s.b.overrunPending
  stalePending : t.b.stalePending = s.b.stalePending
  withheld : t.b.rxDataWithheldPending = s.b.rxDataWithheldPending
  consI : t.b.consI = s.b.consI
  state : t.state = s.state
  waiting : t.waiting = s.waiting
  format : t.format = s.format

theorem InOrder.head_seq {s : RxSync n α} {ended : ℕ} (h : s.InOrder ended) {i : Fin n}
    (hi : s.usb.head? = some i) : s.b.bufferSeq i = s.b.expectedSeq := by
  obtain ⟨rest, hrest⟩ := List.head?_eq_some_iff.mp hi
  have husb := h.usb
  rw [hrest, List.length_cons, List.range'_succ, List.map_cons, List.map_cons] at husb
  rw [(List.cons.inj husb).1, h.expected]

theorem InOrder.ended {s t : RxSync n α} {ended : ℕ} (h : s.InOrder ended) {i next : Fin n}
    {contents : α} {st : SyncBufferStatus} (he : s.Ended t i next contents st)
    (hnodup : t.usb.Nodup) : t.InOrder (ended + 1) := by
  obtain ⟨rest, hrest⟩ := List.head?_eq_some_iff.mp he.head
  have htusb : t.usb = rest ++ [next] := by rw [he.usb, hrest, List.tail_cons]
  have hold := h.usb
  rw [hrest, List.length_cons, List.range'_succ, List.map_cons, List.map_cons] at hold
  have hnot : next ∉ rest := by
    rw [htusb] at hnodup
    intro hmem
    exact List.disjoint_of_nodup_append hnodup hmem (List.mem_singleton_self next)
  have hsame : rest.map (Function.update s.b.bufferSeq next s.b.nextSeq)
      = rest.map s.b.bufferSeq := by
    refine List.map_congr_left (fun j hj => ?_)
    have hjn : j ≠ next := fun hjn => hnot (hjn ▸ hj)
    exact Function.update_of_ne hjn _ _
  have hlen : ended + s.usb.length = ended + 1 + rest.length := by
    rw [hrest, List.length_cons]
    omega
  refine ⟨he.format ▸ h.sampleOnly, he.reorder ▸ h.reorder, he.overrunPending ▸ h.overrun,
    he.stalePending ▸ h.stale, he.withheld ▸ h.withheld, ?_, ?_, ?_⟩
  · rw [he.expectedSeq, h.expected, BitVec.ofNat_add]
    rfl
  · rw [he.nextSeq, h.next, htusb, List.length_append, List.length_singleton, hlen,
      ← Nat.add_assoc, BitVec.ofNat_add (ended + 1 + rest.length)]
    rfl
  · rw [htusb, he.bufferSeq, List.map_append, hsame, (List.cons.inj hold).2, List.length_append,
      List.length_singleton, List.range'_concat, List.map_append]
    simp only [List.map_cons, List.map_nil, Function.update_self, h.next, hlen, Nat.one_mul]

variable [NeZero n]

theorem InOrder.complete {s t : RxSync n α} {ended : ℕ} (h : s.InOrder ended)
    (hc : s.Consistent) {i : Fin n} {contents : α} {k : ℕ} (hhead : s.usb.head? = some i)
    (hempty : ∃ j, s.b.status j = .empty) (hs : s.step (.complete i contents k) = some t) :
    ∃ next, next ≠ i ∧ s.Ended t i next contents .full := by
  obtain ⟨hi, ht⟩ := step_complete hs
  have hflight := (hc.conserved.inFlight (usbCount_pos hi)).1
  obtain ⟨next, hnext, hcb⟩ := BufferMgmt.rxCompleted_in_order s.overrunHook
    (b := s.b.landed i contents) k h.reorder (h.head_seq hhead) hempty
  have hni : next ≠ i := by
    rintro rfl
    have hnext' : s.b.status next = .empty := hnext
    rw [hflight] at hnext'
    simp at hnext'
  obtain ⟨rest, hrest⟩ := List.head?_eq_some_iff.mp hhead
  rw [hcb] at ht
  have husb : t.usb = s.usb.tail ++ [next] := by
    rw [ht, hrest]
    simp [StreamReturn.submitted]
  subst ht
  exact ⟨next, hni, hhead, hflight, h.head_seq hhead, Or.inr hnext, husb, rfl, rfl, rfl, rfl, rfl,
    rfl, rfl, rfl, rfl, rfl, rfl, rfl, rfl⟩

theorem InOrder.reject {s t : RxSync n α} {ended : ℕ} (h : s.InOrder ended)
    (hc : s.Consistent) {i : Fin n} {contents : α} (hhead : s.usb.head? = some i)
    (hs : s.step (.reject i contents) = some t) :
    ∃ next, s.Ended t i next contents .empty := by
  obtain ⟨hi, ht⟩ := step_reject hs
  have hflight := (hc.conserved.inFlight (usbCount_pos hi)).1
  obtain ⟨next, hnext, hcb⟩ := BufferMgmt.rxBufferRejected_in_order s.overrunHook
    (b := s.b.landed i contents) hflight h.reorder (h.head_seq hhead)
  obtain ⟨rest, hrest⟩ := List.head?_eq_some_iff.mp hhead
  rw [hcb] at ht
  have husb : t.usb = s.usb.tail ++ [next] := by
    rw [ht, hrest]
    simp
  subst ht
  exact ⟨next, hhead, hflight, h.head_seq hhead, hnext, husb, rfl, rfl, rfl, rfl, rfl,
    rfl, rfl, rfl, rfl, rfl, rfl, rfl, rfl⟩

end RxSync

/-- The buffer a `SYNC_STATE_USING_BUFFER` step uses up. -/
def RxSync.finished {n : ℕ} {α : Type} (s : RxSync n α) (count : ℕ) : List α :=
  if s.b.overrunPending = false ∧
      s.samplesPerBuffer ≤ s.b.partialOff + min count (s.samplesPerBuffer - s.b.partialOff)
  then [s.b.buffers s.b.consI] else []

namespace RxLog

variable {n : ℕ} {α : Type}

/-! ## The queue beside the ring -/

/-- What a step does to the queue: a completion enters it, `BUFFER_READY` takes
the buffer at `cons_i` out, and a buffer that is used up is consumed. -/
def note (l : RxLog n α) (a : RxAct n α) (t : RxSync n α) : RxLog n α :=
  match a with
  | .complete i contents _ =>
      { sync := t
        completed := l.completed ++ [contents]
        consumed := l.consumed
        ended := l.ended + 1
        unread := l.unread ++ [i]
        number := Function.update l.number i l.ended }
  | .reject _ _ => { l with sync := t, ended := l.ended + 1 }
  | .bufferReady => { l with sync := t, unread := l.unread.erase l.sync.b.consI }
  | .usingBuffer count => { l with sync := t, consumed := l.consumed ++ l.sync.finished count }
  | _ => { l with sync := t }

def step [NeZero n] (l : RxLog n α) (a : RxAct n α) : Option (RxLog n α) :=
  (l.sync.step a).map (l.note a)

def start [NeZero n] (format : BladerfFormat) (samplesPerBuffer : ℕ) (hook : Bool)
    (numXfers : ℕ) (buffers : Fin n → α) : RxLog n α :=
  { sync := RxSync.start format samplesPerBuffer hook numXfers buffers
    completed := []
    consumed := []
    ended := 0
    unread := []
    number := fun _ => 0 }

def inHand (l : RxLog n α) : List α :=
  if l.sync.state = .usingBuffer then [l.sync.b.buffers l.sync.b.consI] else []

/-- The backend ends its transfers in the order of their submission, a valid
completion finds an `EMPTY` slot, and no metadata event interferes. -/
def InSubmissionOrder (l : RxLog n α) : RxAct n α → Prop
  | .complete i _ _ => l.sync.usb.head? = some i ∧ ∃ j, l.sync.b.status j = .empty
  | .reject i _ => l.sync.usb.head? = some i
  | .withheld => False
  | _ => True

/-- The reader is at the head of the queue: it looks for a buffer while the
unread ones are within half the sequence range, and when it wakes to find the
slot at `cons_i` `FULL`, that slot holds the oldest unread buffer. -/
def AtHead (l : RxLog n α) : RxAct n α → Prop
  | .waitForBuffer _ _ => ∀ i ∈ l.unread, l.ended ≤ l.number i + 2 ^ 31
  | .waitDone ok => ok = true → l.sync.b.status l.sync.b.consI = .full →
      l.unread.head? = some l.sync.b.consI
  | _ => True

instance (l : RxLog n α) : (a : RxAct n α) → Decidable (l.InSubmissionOrder a)
  | .complete i _ _ => inferInstanceAs
      (Decidable (l.sync.usb.head? = some i ∧ ∃ j, l.sync.b.status j = .empty))
  | .reject i _ => inferInstanceAs (Decidable (l.sync.usb.head? = some i))
  | .withheld => inferInstanceAs (Decidable False)
  | .checkWorker | .waitForBuffer _ _ | .waitDone _ | .bufferReady | .usingBuffer _ | .advance
  | .reportOverrun | .invalidate => inferInstanceAs (Decidable True)

instance (l : RxLog n α) : (a : RxAct n α) → Decidable (l.AtHead a)
  | .waitForBuffer _ _ =>
      inferInstanceAs (Decidable (∀ i ∈ l.unread, l.ended ≤ l.number i + 2 ^ 31))
  | .waitDone ok => inferInstanceAs (Decidable (ok = true →
      l.sync.b.status l.sync.b.consI = .full → l.unread.head? = some l.sync.b.consI))
  | .complete _ _ _ | .reject _ _ | .withheld | .checkWorker | .bufferReady | .usingBuffer _
  | .advance | .reportOverrun | .invalidate => inferInstanceAs (Decidable True)

structure Fifo (l : RxLog n α) : Prop where
  consistent : l.sync.Consistent
  inOrder : l.sync.InOrder l.ended
  full : ∀ i, l.sync.b.status i = .full ↔ i ∈ l.unread
  numbered : ∀ i ∈ l.unread,
    l.sync.b.bufferSeq i = BitVec.ofNat 32 (l.number i) ∧ l.number i < l.ended
  sorted : l.unread.Pairwise (fun i j => l.number i < l.number j)
  partlyUsed : ∀ i, l.sync.b.status i = .partlyUsed →
    l.sync.state = .usingBuffer ∧ i = l.sync.b.consI
  waiting : l.sync.waiting = true → l.sync.state = .waitForBuffer
  ready : l.sync.state = .bufferReady → l.unread.head? = some l.sync.b.consI
  delivered : l.completed = l.consumed ++ l.inHand ++ l.unread.map l.sync.b.buffers

/-! ## A transfer ends -/

section Ended

variable {l : RxLog n α} {t : RxSync n α} {i next : Fin n} {contents : α}
  {st : SyncBufferStatus}

section

variable (h : l.Fifo)

include h

theorem Fifo.unread_ne (he : l.sync.Ended t i next contents st) {j : Fin n}
    (hj : j ∈ l.unread) : j ≠ i ∧ j ≠ next := by
  have hfull := (h.full j).mpr hj
  have hji : j ≠ i := by
    rintro rfl
    rw [he.ended] at hfull
    simp at hfull
  refine ⟨hji, ?_⟩
  rintro rfl
  rcases he.submitted with hni | hempty
  · exact hji hni
  · rw [hempty] at hfull
    simp at hfull

theorem Fifo.map_buffers (he : l.sync.Ended t i next contents st) :
    l.unread.map t.b.buffers = l.unread.map l.sync.b.buffers := by
  refine List.map_congr_left (fun j hj => ?_)
  rw [he.buffers, Function.update_of_ne (h.unread_ne he hj).1]

theorem Fifo.inHand_ended (he : l.sync.Ended t i next contents st) :
    (if t.state = .usingBuffer then [t.b.buffers t.b.consI] else []) = l.inHand := by
  rw [inHand, he.state, he.consI]
  split
  · rename_i hu
    have hpart := (h.consistent.using_ (Or.inl hu)).2
    have hne : l.sync.b.consI ≠ i := fun hc => by
      rw [hc, he.ended] at hpart
      simp at hpart
    rw [he.buffers, Function.update_of_ne hne]
  · rfl

theorem Fifo.partlyUsed_ended (he : l.sync.Ended t i next contents st)
    (hst : st ≠ .partlyUsed) {j : Fin n} (hj : t.b.status j = .partlyUsed) :
    t.state = .usingBuffer ∧ j = t.b.consI := by
  rw [he.state, he.consI]
  refine h.partlyUsed j ?_
  rw [he.status] at hj
  by_cases hjn : j = next
  · subst hjn
    simp at hj
  · rw [Function.update_of_ne hjn] at hj
    by_cases hji : j = i
    · subst hji
      rw [Function.update_self] at hj
      exact absurd hj hst
    · rwa [Function.update_of_ne hji] at hj

theorem Fifo.waiting_ended (he : l.sync.Ended t i next contents st)
    (hw : t.waiting = true) : t.state = .waitForBuffer := by
  rw [he.waiting] at hw
  rw [he.state]
  exact h.waiting hw

theorem Fifo.note_complete (he : l.sync.Ended t i next contents .full)
    (hni : next ≠ i) (ht : t.Consistent) (k : ℕ) :
    (l.note (.complete i contents k) t).Fifo := by
  refine ⟨ht, h.inOrder.ended he ht.oneOwner.nodup, fun j => ?_, fun j hj => ?_, ?_,
    fun j hj => h.partlyUsed_ended he (by simp) hj, h.waiting_ended he, fun hr => ?_, ?_⟩
  · change t.b.status j = .full ↔ j ∈ l.unread ++ [i]
    rw [List.mem_append, List.mem_singleton, ← h.full, he.status]
    by_cases hjn : j = next
    · subst hjn
      rcases he.submitted with hji | hempty
      · exact absurd hji hni
      · simp [hni, hempty]
    · rw [Function.update_of_ne hjn]
      by_cases hji : j = i
      · subst hji
        simp
      · simp [hji]
  · change t.b.bufferSeq j = BitVec.ofNat 32 (Function.update l.number i l.ended j) ∧
      Function.update l.number i l.ended j < l.ended + 1
    rcases List.mem_append.mp hj with hj | hj
    · obtain ⟨hji, hjn⟩ := h.unread_ne he hj
      obtain ⟨hnum, hlt⟩ := h.numbered j hj
      rw [he.bufferSeq, Function.update_of_ne hjn, Function.update_of_ne hji]
      exact ⟨hnum, by omega⟩
    · obtain rfl := List.mem_singleton.mp hj
      rw [he.bufferSeq, Function.update_of_ne hni.symm, Function.update_self, he.seq,
        h.inOrder.expected]
      exact ⟨rfl, Nat.lt_succ_self _⟩
  · change (l.unread ++ [i]).Pairwise (fun a b =>
      Function.update l.number i l.ended a < Function.update l.number i l.ended b)
    refine List.pairwise_append.mpr ⟨?_, List.pairwise_singleton _ _, fun a ha b hb => ?_⟩
    · refine h.sorted.imp_of_mem (fun ha hb hab => ?_)
      rw [Function.update_of_ne (h.unread_ne he ha).1, Function.update_of_ne (h.unread_ne he hb).1]
      exact hab
    · obtain rfl := List.mem_singleton.mp hb
      rw [Function.update_of_ne (h.unread_ne he ha).1, Function.update_self]
      exact (h.numbered a ha).2
  · change t.state = .bufferReady at hr
    rw [he.state] at hr
    change (l.unread ++ [i]).head? = some t.b.consI
    rw [he.consI, List.head?_append, h.ready hr]
    rfl
  · change l.completed ++ [contents]
      = l.consumed ++ (if t.state = .usingBuffer then [t.b.buffers t.b.consI] else [])
        ++ (l.unread ++ [i]).map t.b.buffers
    rw [h.inHand_ended he, List.map_append, h.map_buffers he, h.delivered]
    simp [he.buffers]

theorem Fifo.note_reject (he : l.sync.Ended t i next contents .empty)
    (ht : t.Consistent) : (l.note (.reject i contents) t).Fifo := by
  refine ⟨ht, h.inOrder.ended he ht.oneOwner.nodup, fun j => ?_, fun j hj => ?_, h.sorted,
    fun j hj => h.partlyUsed_ended he (by simp) hj, h.waiting_ended he, fun hr => ?_, ?_⟩
  · change t.b.status j = .full ↔ j ∈ l.unread
    rw [← h.full, he.status]
    by_cases hjn : j = next
    · subst hjn
      rcases he.submitted with hji | hempty
      · simp [hji, he.ended]
      · simp [hempty]
    · rw [Function.update_of_ne hjn]
      by_cases hji : j = i
      · subst hji
        simp [he.ended]
      · rw [Function.update_of_ne hji]
  · obtain ⟨hnum, hlt⟩ := h.numbered j hj
    refine ⟨?_, Nat.lt_succ_of_lt hlt⟩
    change t.b.bufferSeq j = BitVec.ofNat 32 (l.number j)
    rw [he.bufferSeq, Function.update_of_ne (h.unread_ne he hj).2]
    exact hnum
  · change t.state = .bufferReady at hr
    rw [he.state] at hr
    change l.unread.head? = some t.b.consI
    rw [he.consI]
    exact h.ready hr
  · change l.completed
      = l.consumed ++ (if t.state = .usingBuffer then [t.b.buffers t.b.consI] else [])
        ++ l.unread.map t.b.buffers
    rw [h.inHand_ended he, h.map_buffers he]
    exact h.delivered

end

end Ended

variable [NeZero n]

theorem step_eq {l m : RxLog n α} {a : RxAct n α} (h : l.step a = some m) :
    ∃ t, l.sync.step a = some t ∧ m = l.note a t := by
  obtain ⟨t, ht, hm⟩ := Option.map_eq_some_iff.mp h
  exact ⟨t, ht, hm.symm⟩

theorem Fifo.complete {l m : RxLog n α} (h : l.Fifo) {i : Fin n} {contents : α} {k : ℕ}
    (hok : l.InSubmissionOrder (.complete i contents k))
    (hs : l.step (.complete i contents k) = some m) : m.Fifo := by
  obtain ⟨t, hstep, rfl⟩ := step_eq hs
  obtain ⟨hhead, hempty⟩ := hok
  obtain ⟨next, hni, he⟩ := h.inOrder.complete h.consistent hhead hempty hstep
  exact h.note_complete he hni (h.consistent.complete (Or.inl hempty) hstep).1 k

theorem Fifo.reject {l m : RxLog n α} (h : l.Fifo) {i : Fin n} {contents : α}
    (hok : l.InSubmissionOrder (.reject i contents))
    (hs : l.step (.reject i contents) = some m) : m.Fifo := by
  obtain ⟨t, hstep, rfl⟩ := step_eq hs
  obtain ⟨next, he⟩ := h.inOrder.reject h.consistent hok hstep
  exact h.note_reject he (h.consistent.reject hstep)

/-! ## The reader -/

omit [NeZero n] in
theorem Fifo.move {l : RxLog n α} (h : l.Fifo) (hu : l.sync.state ≠ .usingBuffer)
    {dropped : Fin n → Bool} {cons : Fin n} {off : ℕ} {st : SyncState} {w : Bool}
    (ht : ({ l.sync with
      b := { l.sync.b with bufferDropped := dropped, consI := cons, partialOff := off }
      state := st, waiting := w } : RxSync n α).Consistent)
    (hst : st ≠ .usingBuffer) (hw : w = true → st = .waitForBuffer)
    (hr : st = .bufferReady → l.unread.head? = some cons) :
    ({ l with sync := { l.sync with
      b := { l.sync.b with bufferDropped := dropped, consI := cons, partialOff := off }
      state := st, waiting := w } } : RxLog n α).Fifo := by
  have ho := h.inOrder
  refine ⟨ht, ⟨ho.sampleOnly, ho.reorder, ho.overrun, ho.stale, ho.withheld, ho.expected,
    ho.next, ho.usb⟩, h.full, h.numbered, h.sorted, fun j hj => ?_, hw, hr, ?_⟩
  · exact absurd (h.partlyUsed j hj).1 hu
  · have hdel := h.delivered
    rw [inHand, if_neg hu] at hdel
    rw [inHand, if_neg hst]
    exact hdel

omit [NeZero n] in
theorem Fifo.lagsBehind {l : RxLog n α} (h : l.Fifo)
    (hlag : ∀ i ∈ l.unread, l.ended ≤ l.number i + 2 ^ 31) :
    l.sync.b.LagsBehind (fun i => l.ended - l.number i) := by
  intro i hi
  have hmem := (h.full i).mp hi
  obtain ⟨hseq, hlt⟩ := h.numbered i hmem
  have := hlag i hmem
  refine ⟨Nat.sub_pos_of_lt hlt, Nat.sub_le_iff_le_add'.mpr this, ?_⟩
  rw [hseq, h.inOrder.expected]
  have hsum : BitVec.ofNat 32 l.ended
      = BitVec.ofNat 32 (l.number i) + BitVec.ofNat 32 (l.ended - l.number i) := by
    rw [← BitVec.ofNat_add]
    congr 1
    omega
  rw [hsum, BitVec.add_sub_cancel]

theorem Fifo.anchor_head {l : RxLog n α} (h : l.Fifo)
    (hlag : ∀ i ∈ l.unread, l.ended ≤ l.number i + 2 ^ 31)
    (hstate : l.sync.state = .waitForBuffer) {m : Fin n} (hm : l.unread.head? = some m) :
    l.sync.b.rxAnchorConsumer.consI = m := by
  obtain ⟨rest, hrest⟩ := List.head?_eq_some_iff.mp hm
  have hsorted := h.sorted
  rw [hrest, List.pairwise_cons] at hsorted
  refine BufferMgmt.anchor_oldest (h.lagsBehind hlag) (fun i hi => ?_)
    ((h.full m).mpr (by simp [hrest])) (fun i hi hne => ?_)
  · have := (h.partlyUsed i hi).1
    rw [hstate] at this
    simp at this
  · have hmem := (h.full i).mp hi
    have hlt := (h.numbered i hmem).2
    rw [hrest] at hmem
    have hmi := hsorted.1 i (List.mem_of_ne_of_mem hne hmem)
    omega

theorem Fifo.waitForBuffer {l m : RxLog n α} (h : l.Fifo) {rxNow nonblocking : Bool}
    (hlag : l.AtHead (.waitForBuffer rxNow nonblocking))
    (hs : l.step (.waitForBuffer rxNow nonblocking) = some m) :
    m.Fifo ∧ (l.unread ≠ [] → m.sync.state = .bufferReady ∧
      m.sync.b.status m.sync.b.consI = .full) := by
  obtain ⟨t, hstep, rfl⟩ := step_eq hs
  have ht := h.consistent.step (a := .waitForBuffer rxNow nonblocking) trivial hstep
  obtain ⟨dropped, off, heq⟩ := BufferMgmt.waitForBuffer_quiet h.inOrder.withheld h.inOrder.stale
    l.sync.format rxNow nonblocking
  simp only [RxSync.step, heq] at hstep
  split at hstep
  · rename_i hstate
    have hu : l.sync.state ≠ .usingBuffer := by simp [hstate.1]
    by_cases hfull : l.sync.b.status l.sync.b.rxAnchorConsumer.consI = .full
    · simp only [if_pos hfull] at hstep
      obtain rfl := Option.some.inj hstep
      refine ⟨h.move hu ht (by simp) (by simp [hstate.2]) (fun _ => ?_),
        fun _ => ⟨rfl, hfull⟩⟩
      have hmem := (h.full _).mp hfull
      obtain ⟨x, hx⟩ := Option.isSome_iff_exists.mp
        (List.isSome_head?.mpr (List.ne_nil_of_mem hmem))
      rw [h.anchor_head hlag hstate.1 hx, hx]
    · simp only [if_neg hfull] at hstep
      obtain rfl := Option.some.inj hstep
      refine ⟨h.move hu ht (by simp [hstate.1]) (fun _ => hstate.1)
          (fun hr => by simp [hstate.1] at hr),
        fun hne => ?_⟩
      obtain ⟨x, hx⟩ := Option.isSome_iff_exists.mp (List.isSome_head?.mpr hne)
      rw [h.anchor_head hlag hstate.1 hx] at hfull
      exact absurd ((h.full x).mpr (List.mem_of_head? hx)) hfull
  · simp at hstep

theorem Fifo.bufferReady {l m : RxLog n α} (h : l.Fifo)
    (hs : l.step .bufferReady = some m) : m.Fifo := by
  obtain ⟨t, hstep, rfl⟩ := step_eq hs
  have ht := h.consistent.step (a := .bufferReady) trivial hstep
  simp only [RxSync.step] at hstep
  split at hstep
  · rename_i hready
    obtain rfl := Option.some.inj hstep
    obtain ⟨rest, hrest⟩ := List.head?_eq_some_iff.mp (h.ready hready)
    have hsorted := h.sorted
    rw [hrest, List.pairwise_cons] at hsorted
    have herase : l.unread.erase l.sync.b.consI = rest := by
      rw [hrest, List.erase_cons_head]
    have hnot : l.sync.b.consI ∉ rest := fun hmem => Nat.lt_irrefl _ (hsorted.1 _ hmem)
    have ho := h.inOrder
    refine ⟨ht, ⟨ho.sampleOnly, ho.reorder, ho.overrun, ho.stale, ho.withheld, ho.expected,
      ho.next, ho.usb⟩, fun j => ?_, fun j hj => ?_, ?_, fun j hj => ⟨ho.sampleOnly, ?_⟩,
      fun hw => ?_, fun hr => ?_, ?_⟩
    · change Function.update l.sync.b.status l.sync.b.consI .partlyUsed j = .full ↔
        j ∈ l.unread.erase l.sync.b.consI
      rw [herase]
      by_cases hj : j = l.sync.b.consI
      · subst hj
        simp [hnot]
      · rw [Function.update_of_ne hj, h.full, hrest, List.mem_cons]
        simp [hj]
    · change j ∈ l.unread.erase l.sync.b.consI at hj
      exact h.numbered j (List.mem_of_mem_erase hj)
    · change (l.unread.erase l.sync.b.consI).Pairwise _
      rw [herase]
      exact hsorted.2
    · change Function.update l.sync.b.status l.sync.b.consI .partlyUsed j = .partlyUsed at hj
      by_contra hne
      change j ≠ l.sync.b.consI at hne
      rw [Function.update_of_ne hne] at hj
      have := (h.partlyUsed j hj).1
      rw [hready] at this
      simp at this
    · have := h.waiting hw
      rw [hready] at this
      simp at this
    · exact absurd hr (RxSync.usingState_ne _)
    · change l.completed = l.consumed
        ++ (if l.sync.format.usingState = .usingBuffer
            then [l.sync.b.buffers l.sync.b.consI] else [])
        ++ (l.unread.erase l.sync.b.consI).map l.sync.b.buffers
      have hdel := h.delivered
      rw [inHand, if_neg (by simp [hready]), hrest] at hdel
      rw [if_pos ho.sampleOnly, herase, hdel]
      simp
  · simp at hstep

theorem Fifo.usingBuffer {l m : RxLog n α} (h : l.Fifo) {count : ℕ}
    (hs : l.step (.usingBuffer count) = some m) : m.Fifo := by
  obtain ⟨t, hstep, rfl⟩ := step_eq hs
  have ht := h.consistent.step (a := .usingBuffer count) trivial hstep
  have ho := h.inOrder
  simp only [RxSync.step] at hstep
  split at hstep
  · rename_i hstate
    obtain rfl := Option.some.inj hstep
    have hpart := (h.consistent.using_ (Or.inl hstate)).2
    have hdel := h.delivered
    rw [inHand, if_pos hstate] at hdel
    unfold RxSync.usingBuffer at ht ⊢
    rw [if_neg (by simp [ho.overrun])] at ht ⊢
    dsimp only at ht ⊢
    by_cases hend : l.sync.samplesPerBuffer
        ≤ l.sync.b.partialOff + min count (l.sync.samplesPerBuffer - l.sync.b.partialOff)
    · rw [if_pos hend] at ht ⊢
      have hfin : l.sync.finished count = [l.sync.b.buffers l.sync.b.consI] :=
        if_pos ⟨ho.overrun, hend⟩
      refine ⟨ht, ⟨ho.sampleOnly, ho.reorder, ho.overrun, ho.stale, ho.withheld, ho.expected,
        ho.next, ho.usb⟩, fun j => ?_, h.numbered, h.sorted, fun j hj => ?_,
        fun _ => rfl, fun hr => by simp [note] at hr, ?_⟩
      · change Function.update l.sync.b.status l.sync.b.consI .empty j = .full ↔ j ∈ l.unread
        by_cases hj : j = l.sync.b.consI
        · subst hj
          rw [← h.full, hpart]
          simp
        · rw [Function.update_of_ne hj]
          exact h.full j
      · change Function.update l.sync.b.status l.sync.b.consI .empty j = .partlyUsed at hj
        by_cases hjc : j = l.sync.b.consI
        · subst hjc
          simp at hj
        · rw [Function.update_of_ne hjc] at hj
          exact absurd (h.partlyUsed j hj).2 hjc
      · change l.completed = l.consumed ++ l.sync.finished count ++ [] ++
          l.unread.map l.sync.b.buffers
        rw [hfin, hdel]
        simp
    · rw [if_neg hend] at ht ⊢
      have hfin : l.sync.finished count = [] := if_neg (fun hc => hend hc.2)
      refine ⟨ht, ⟨ho.sampleOnly, ho.reorder, ho.overrun, ho.stale, ho.withheld, ho.expected,
        ho.next, ho.usb⟩, h.full, h.numbered, h.sorted, h.partlyUsed,
        h.waiting, h.ready, ?_⟩
      change l.completed = l.consumed ++ l.sync.finished count ++
        (if l.sync.state = .usingBuffer then [l.sync.b.buffers l.sync.b.consI] else []) ++
        l.unread.map l.sync.b.buffers
      rw [hfin, if_pos hstate, List.append_nil]
      exact hdel
  · simp at hstep

theorem Fifo.step {l m : RxLog n α} {a : RxAct n α} (h : l.Fifo)
    (horder : l.InSubmissionOrder a) (hhead : l.AtHead a) (hs : l.step a = some m) :
    m.Fifo := by
  cases a with
  | complete i contents k => exact h.complete horder hs
  | reject i contents => exact h.reject horder hs
  | withheld => exact horder.elim
  | waitForBuffer rxNow nonblocking => exact (h.waitForBuffer hhead hs).1
  | bufferReady => exact h.bufferReady hs
  | usingBuffer count => exact h.usingBuffer hs
  | checkWorker =>
      obtain ⟨t, hstep, rfl⟩ := step_eq hs
      have ht := h.consistent.step (a := .checkWorker) trivial hstep
      simp only [RxSync.step] at hstep
      split at hstep
      · rename_i hstate
        obtain rfl := Option.some.inj hstep
        exact h.move (by simp [hstate]) ht (by simp) (fun _ => rfl) (by simp)
      · simp at hstep
  | waitDone ok =>
      obtain ⟨t, hstep, rfl⟩ := step_eq hs
      have ht := h.consistent.step (a := .waitDone ok) trivial hstep
      simp only [RxSync.step] at hstep
      split at hstep
      · rename_i hwait
        obtain rfl := Option.some.inj hstep
        refine h.move ?_ ht ?_ (by simp) (fun hr => ?_)
        · simp [h.waiting hwait]
        · split <;> simp
        · split at hr
          · rename_i hcond
            obtain ⟨hok, hfull⟩ := Bool.and_eq_true_iff.mp hcond
            exact hhead hok (of_decide_eq_true hfull)
          · simp at hr
      · simp at hstep
  | advance =>
      obtain ⟨t, hstep, rfl⟩ := step_eq hs
      simp only [RxSync.step] at hstep
      split at hstep
      · rename_i hstate
        have hu := (h.consistent.using_ (Or.inr hstate.symm)).1
        rw [h.inOrder.sampleOnly] at hu
        rcases hstate with hstate | hstate <;> rw [hstate] at hu <;> simp at hu
      · simp at hstep
  | reportOverrun =>
      obtain ⟨t, hstep, rfl⟩ := step_eq hs
      obtain rfl := Option.some.inj hstep
      have hnone : l.sync.b.reportOverrun = l.sync.b := by
        rw [BufferMgmt.reportOverrun, h.inOrder.overrun]
        rfl
      change ({ l with sync := { l.sync with b := l.sync.b.reportOverrun } } : RxLog n α).Fifo
      rw [hnone]
      exact h
  | invalidate =>
      obtain ⟨t, hstep, rfl⟩ := step_eq hs
      obtain rfl := Option.some.inj hstep
      have hnone : l.sync.invalidate = l.sync := by
        refine if_neg ?_
        have hformat := h.inOrder.sampleOnly
        revert hformat
        cases l.sync.format <;> simp [BladerfFormat.usingState, BladerfFormat.isSampleMeta]
      change ({ l with sync := l.sync.invalidate } : RxLog n α).Fifo
      rw [hnone]
      exact h

theorem start_fifo (format : BladerfFormat) (hformat : format.usingState = .usingBuffer)
    (samplesPerBuffer : ℕ) (hook : Bool) (numXfers : ℕ) (buffers : Fin n → α) :
    (start format samplesPerBuffer hook numXfers buffers).Fifo := by
  have hseq := RxSync.start_usb_seq format samplesPerBuffer hook numXfers buffers
  have hlen : (RxSync.start format samplesPerBuffer hook numXfers buffers).usb.length
      = min numXfers n := by
    simpa using congrArg List.length hseq
  refine ⟨RxSync.start_consistent format samplesPerBuffer hook numXfers buffers,
    ⟨hformat, rfl, rfl, rfl, rfl, rfl, ?_, ?_⟩, fun i => ?_, fun i hi => ?_, List.Pairwise.nil,
    fun i hi => ?_, fun _ => rfl, fun hr => ?_, rfl⟩
  · change BitVec.ofNat 32 (min numXfers n)
      = BitVec.ofNat 32 (0 + (RxSync.start format samplesPerBuffer hook numXfers buffers).usb.length)
    rw [hlen, Nat.zero_add]
  · change (RxSync.start format samplesPerBuffer hook numXfers buffers).usb.map _
      = (List.range' 0 (RxSync.start format samplesPerBuffer hook numXfers
          buffers).usb.length).map _
    rw [hlen, ← List.range_eq_range']
    exact hseq
  · change (if i.val < numXfers then SyncBufferStatus.inFlight else .empty) = .full ↔ i ∈ []
    split <;> simp
  · simp [start] at hi
  · change (if i.val < numXfers then SyncBufferStatus.inFlight else .empty) = .partlyUsed at hi
    split at hi <;> simp at hi
  · exact absurd hr (by simp [start, RxSync.start])

/-- In-order delivery.  In every run that ends its transfers in submission order
and keeps the reader at the head of the queue, what has been consumed is a prefix
of what has been completed, the rest is in the reader's hand and in the `FULL`
slots, no overrun is pending, and a reader that looks for a buffer finds one if
there is one. -/
theorem rx_delivers_in_order (format : BladerfFormat) (hformat : format.usingState = .usingBuffer)
    (samplesPerBuffer : ℕ) (hook : Bool) (numXfers : ℕ) (buffers : Fin n → α)
    {acts : List (RxAct n α)} {l : RxLog n α}
    (hrun : Lib.Steps step (fun l a => l.InSubmissionOrder a ∧ l.AtHead a)
      (start format samplesPerBuffer hook numXfers buffers) acts l) :
    l.completed = l.consumed ++ l.inHand ++ l.unread.map l.sync.b.buffers ∧
      (∀ i, l.sync.b.status i = .full ↔ i ∈ l.unread) ∧ l.unread.Nodup ∧
      l.sync.b.overrunPending = false ∧
      ∀ rxNow nonblocking m, l.AtHead (.waitForBuffer rxNow nonblocking) → l.unread ≠ [] →
        l.step (.waitForBuffer rxNow nonblocking) = some m →
        m.sync.state = .bufferReady ∧ m.sync.b.status m.sync.b.consI = .full := by
  have h : l.Fifo :=
    hrun.invariant (start_fifo format hformat samplesPerBuffer hook numXfers buffers)
      (fun h hok hs => h.step hok.1 hok.2 hs)
  refine ⟨h.delivered, h.full, h.sorted.imp (fun hab => ?_), h.inOrder.overrun,
    fun rxNow nonblocking m hlag hne hs => (h.waitForBuffer hlag hs).2 hne⟩
  rintro rfl
  exact Nat.lt_irrefl _ hab

/-- Two completions with a rejection between them, and one of them read. -/
theorem rx_delivers_in_order_past_rejection :
    ∃ l : RxLog 4 Bool,
      Lib.exec step (fun l a => l.InSubmissionOrder a ∧ l.AtHead a)
        (start .sc16Q11 2 false 2 (fun _ => false))
        [.complete 0 true 2, .reject 1 false, .complete 2 false 2, .waitForBuffer false false,
          .bufferReady, .usingBuffer 2] = some l ∧
      l.consumed = [true] ∧
      l.completed = l.consumed ++ l.inHand ++ l.unread.map l.sync.b.buffers := by
  have hread : (Lib.exec step (fun l a => l.InSubmissionOrder a ∧ l.AtHead a)
      (start (n := 4) .sc16Q11 2 false 2 (fun _ => false))
      [.complete 0 true 2, .reject 1 false, .complete 2 false 2, .waitForBuffer false false,
        .bufferReady, .usingBuffer 2]).map RxLog.consumed = some [true] := by decide
  obtain ⟨l, hl, hc⟩ := Option.map_eq_some_iff.mp hread
  exact ⟨l, hl, hc, (rx_delivers_in_order .sc16Q11 rfl 2 false 2 (fun _ => false)
    (Lib.Steps.of_exec hl)).1⟩

/-- The reader waits at slot 0.  Its transfer is rejected, slot 1 completes, the
next transfer is rejected too, which brings slot 0 back, and slot 0 completes.
The reader wakes, finds slot 0 `FULL`, and delivers the younger buffer while the
older one is unread. -/
theorem rx_delivers_out_of_order :
    ∃ l : RxLog 3 Bool,
      Lib.Steps step InSubmissionOrder (start .sc16Q11 2 false 1 (fun _ => false))
        [.waitForBuffer false false, .reject 0 false, .complete 1 true 2, .reject 2 false,
          .complete 0 false 2, .waitDone true, .bufferReady, .usingBuffer 2] l ∧
      l.completed = [true, false] ∧ l.consumed = [false] := by
  have hread : (Lib.exec step InSubmissionOrder
      (start (n := 3) .sc16Q11 2 false 1 (fun _ => false))
      [.waitForBuffer false false, .reject 0 false, .complete 1 true 2, .reject 2 false,
        .complete 0 false 2, .waitDone true, .bufferReady, .usingBuffer 2]).map
      (fun l => (l.completed, l.consumed)) = some ([true, false], [false]) := by decide
  obtain ⟨l, hl, hc⟩ := Option.map_eq_some_iff.mp hread
  obtain ⟨hcompleted, hconsumed⟩ := Prod.mk.inj hc
  exact ⟨l, Lib.Steps.of_exec hl, hcompleted, hconsumed⟩

end RxLog

end BladeRF
