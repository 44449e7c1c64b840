/-
# `Streaming.RxConservation` — every buffer of the RX ring has one owner

An `IN_FLIGHT` slot belongs either to the USB backend or to `reorder[]`, and to
exactly one of them; every other slot belongs to neither.  Stated by counting,
this is one equation per slot,

    owners in USB + entries of reorder[] that hold it = [status is IN_FLIGHT],

and each operation of the ring moves one unit of the count.  While a callback
runs, the completed buffer still counts as USB's: `Conserved b v` takes the
external count `v` as an argument, and the lemmas say how `v` changes.

The equation fails on two paths.  `rx_callback` returns
`BLADERF_STREAM_NO_DATA` for a completed buffer when the ring has no `EMPTY`
slot and `reorder[]` is not empty: nobody owns the buffer afterwards, and unlike
the path without held entries no overrun is reported.  And
`sync_worker_discard_rx_epoch` empties the slots of held buffers but keeps their
entries if it finds no transfer to rebase on.  `Accountable` excludes exactly
these.
-/
import Mathlib.Data.List.Count
import BladeRF.Streaming.RxRing

namespace BladeRF

open BufferMgmt

namespace BufferMgmt

variable {n : ℕ} {α : Type}

/-- How many entries of `reorder[]` hold slot `i`. -/
def heldCount (b : BufferMgmt n α) (i : Fin n) : ℕ :=
  b.reorder.countP (·.holds i)

/-- One owner per `IN_FLIGHT` slot, none elsewhere; `v` counts the owners
outside the ring. -/
def Conserved (b : BufferMgmt n α) (v : Fin n → ℕ) : Prop :=
  ∀ i, v i + b.heldCount i = if b.status i = .inFlight then 1 else 0

variable {b : BufferMgmt n α} {v : Fin n → ℕ}

variable {i : Fin n}

theorem Conserved.inFlight (h : b.Conserved v) (hi : 0 < v i) :
    b.status i = .inFlight ∧ v i = 1 ∧ b.heldCount i = 0 := by
  have := h i
  split at this <;> rename_i hs
  · exact ⟨hs, by omega, by omega⟩
  · omega

theorem Conserved.zero (h : b.Conserved v) (hi : b.status i ≠ .inFlight) :
    v i = 0 ∧ b.heldCount i = 0 := by
  have := h i
  rw [if_neg hi] at this
  omega

theorem Conserved.markBufferReady (h : b.Conserved v) (hi : 0 < v i) (k : ℕ) :
    (b.markBufferReady i k).Conserved (Function.update v i 0) := by
  intro j
  by_cases hj : j = i
  · subst hj
    have := (h.inFlight hi).2.2
    simp [markBufferReady, heldCount] at this ⊢
    exact this
  · have := h j
    simpa [BufferMgmt.markBufferReady, heldCount, Function.update_of_ne hj] using this

/-- The external count once USB has been given slot `next`. -/
def given (v : Fin n → ℕ) (next j : Fin n) : ℕ :=
  v j + if next = j then 1 else 0

theorem Conserved.issueRxSlot (h : b.Conserved v) (hi : b.status i ≠ .inFlight) :
    (b.issueRxSlot i).Conserved (given v i) := by
  intro j
  by_cases hj : j = i
  · subst hj
    obtain ⟨hv, hheld⟩ := h.zero hi
    have hheld' : (b.issueRxSlot j).heldCount j = 0 := hheld
    rw [given, hv, hheld']
    simp [issueRxSlot, markRxSlotInFlight]
  · have := h j
    simpa [BufferMgmt.issueRxSlot, markRxSlotInFlight, heldCount, given, Ne.symm hj,
      Function.update_of_ne hj] using this

theorem Conserved.reissueRxSlot (h : b.Conserved v) (hi : 0 < v i) :
    (b.issueRxSlot i).Conserved v := by
  intro j
  by_cases hj : j = i
  · subst hj
    obtain ⟨-, hv, hheld⟩ := h.inFlight hi
    have hheld' : (b.issueRxSlot j).heldCount j = 0 := hheld
    rw [hv, hheld']
    simp [BufferMgmt.issueRxSlot, markRxSlotInFlight]
  · have := h j
    simpa [BufferMgmt.issueRxSlot, markRxSlotInFlight, heldCount,
      Function.update_of_ne hj] using this

theorem Conserved.congr {b' : BufferMgmt n α} (h : b.Conserved v)
    (hst : ∀ i, b'.status i = .inFlight ↔ b.status i = .inFlight)
    (hre : b'.reorder = b.reorder) : b'.Conserved v := by
  intro i
  have hi := h i
  rw [heldCount] at hi ⊢
  rw [hre, hi]
  by_cases hs : b.status i = .inFlight
  · rw [if_pos hs, if_pos ((hst i).mpr hs)]
  · rw [if_neg hs, if_neg (fun h' => hs ((hst i).mp h'))]

/-! ## `reorder[]` -/

/-- A slot that is not `IN_FLIGHT` keeps its status. -/
def KeepsSettled (b b' : BufferMgmt n α) : Prop :=
  ∀ i, b.status i ≠ .inFlight → b'.status i = b.status i

theorem heldCount_insertEntry (e : RxReorderEntry n) (i : Fin n) :
    ({ b with reorder := b.insertEntry e } : BufferMgmt n α).heldCount i
      = b.heldCount i + if e.holds i then 1 else 0 := by
  simp only [heldCount, insertEntry]
  rw [(List.perm_orderedInsert _ e b.reorder).countP_eq, List.countP_cons]

section

variable (h : b.Conserved v)

include h

theorem Conserved.releaseEntry {e : RxReorderEntry n}
    {rest : List (RxReorderEntry n)} (hperm : b.reorder.Perm (e :: rest))
    (seq : BitVec 32) :
    ({ b.releaseEntry e with expectedSeq := seq, reorder := rest }
      : BufferMgmt n α).Conserved v ∧ b.KeepsSettled (b.releaseEntry e) := by
  have hcount : ∀ j, b.heldCount j = rest.countP (·.holds j) + if e.holds j then 1 else 0 := by
    intro j
    rw [heldCount, hperm.countP_eq, List.countP_cons]
  cases e with
  | dropped s =>
      refine ⟨fun j => ?_, fun _ _ => rfl⟩
      have hj := h j
      rw [hcount j] at hj
      exact hj
  | held s idx k =>
      have hidx := h idx
      rw [hcount idx, RxReorderEntry.holds_held, if_pos (decide_eq_true rfl)] at hidx
      have hflight : b.status idx = .inFlight := by
        by_contra hs
        rw [if_neg hs] at hidx
        omega
      refine ⟨fun j => ?_, fun j hj => ?_⟩
      · by_cases hji : j = idx
        · subst hji
          rw [if_pos hflight] at hidx
          simp only [BufferMgmt.releaseEntry, BufferMgmt.markBufferReady, heldCount,
            Function.update_self, reduceCtorEq, if_false]
          omega
        · have hj := h j
          rw [hcount j] at hj
          simpa [BufferMgmt.releaseEntry, BufferMgmt.markBufferReady, heldCount,
            Ne.symm hji, Function.update_of_ne hji] using hj
      · have hji : j ≠ idx := fun hji => hj (hji ▸ hflight)
        simp [BufferMgmt.releaseEntry, BufferMgmt.markBufferReady, Function.update_of_ne hji]

theorem Conserved.flushRounds (k : ℕ) :
    (b.flushRounds k).Conserved v ∧ b.KeepsSettled (b.flushRounds k) := by
  induction k generalizing b with
  | zero => exact ⟨h, fun _ _ => rfl⟩
  | succ k ih =>
      simp only [flushRounds]
      split
      · exact ⟨h, fun _ _ => rfl⟩
      · rename_i e he
        obtain ⟨hc, hkeep⟩ := h.releaseEntry (Lib.perm_cons_eraseP_of_find? he)
          (b.expectedSeq + 1)
        obtain ⟨hc', hkeep'⟩ := ih hc
        refine ⟨hc', fun j hj => ?_⟩
        rw [hkeep' j (by simpa [hkeep j hj] using hj)]
        exact hkeep j hj

theorem Conserved.flushReorderEntries :
    b.flushReorderEntries.Conserved v ∧ b.KeepsSettled b.flushReorderEntries :=
  h.flushRounds _

theorem Conserved.retireDroppedSequence (hook : Bool)
    (seq : BitVec 32) :
    (b.retireDroppedSequence hook seq).Conserved v ∧
      b.KeepsSettled (b.retireDroppedSequence hook seq) := by
  rcases b.retireDroppedSequence_cases hook seq with ⟨-, heq⟩ | ⟨-, -, heq⟩ | ⟨-, -, heq⟩
  · rw [heq]
    have hnext : ({ b with expectedSeq := b.expectedSeq + 1 } : BufferMgmt n α).Conserved v := h
    exact hnext.flushReorderEntries
  · rw [heq]
    refine ⟨fun j => ?_, fun _ _ => rfl⟩
    rw [heldCount_insertEntry]
    simpa using h j
  · rw [heq]
    exact ⟨h, fun _ _ => rfl⟩

theorem Conserved.hold (hi : 0 < v i) (seq : BitVec 32) (k : ℕ) :
    ({ b with reorder := b.insertEntry (.held seq i k) }
      : BufferMgmt n α).Conserved (Function.update v i 0) := by
  intro j
  rw [heldCount_insertEntry]
  by_cases hji : i = j
  · subst hji
    obtain ⟨hst, -, hheld⟩ := h.inFlight hi
    simp [hst, hheld]
  · simpa [hji, Function.update_of_ne (Ne.symm hji)] using h j

end

/-! ## The worker's two completion paths -/

theorem rxRelease_spec (hook : Bool) (h : b.Conserved v) (hi : 0 < v i) (k : ℕ) :
    (b.rxRelease hook i k).Conserved (Function.update v i 0) ∧
    ((b.rxRelease hook i k).status i = .full ∨ 0 < (b.rxRelease hook i k).heldCount i) ∧
    b.KeepsSettled (b.rxRelease hook i k) := by
  have hready : b.KeepsSettled (b.markBufferReady i k) := by
    intro j hj
    have hji : j ≠ i := fun hji => hj (hji ▸ (h.inFlight hi).1)
    simp [markBufferReady, Function.update_of_ne hji]
  rcases b.rxRelease_cases hook i k with ⟨-, heq⟩ | ⟨-, -, -, heq⟩ | ⟨-, -, heq⟩
  · rw [heq]
    have hmark : ({ b.markBufferReady i k with expectedSeq := b.expectedSeq + 1 }
        : BufferMgmt n α).Conserved (Function.update v i 0) := h.markBufferReady hi k
    obtain ⟨hc, hkeep⟩ := hmark.flushReorderEntries
    refine ⟨hc, Or.inl ?_, fun j hj => ?_⟩
    · rw [hkeep i (by simp [markBufferReady])]
      simp [markBufferReady]
    · rw [hkeep j (by simpa [hready j hj] using hj)]
      exact hready j hj
  · rw [heq]
    refine ⟨h.hold hi _ k, Or.inr ?_, fun _ _ => rfl⟩
    rw [heldCount_insertEntry]
    simp
  · rw [heq]
    exact ⟨h.markBufferReady hi k, Or.inl (by simp [markBufferReady]), hready⟩

/-- Marked ready, held, or handed back to USB with an overrun reported: what a
completed buffer can come to. -/
def Accounted (b : BufferMgmt n α) (ret : StreamReturn n) (i : Fin n) : Prop :=
  b.status i = .full ∨ (∃ e ∈ b.reorder, e.holds i = true) ∨
    (ret = .buffer i ∧ b.overrunPending = true)

/-- What the reader relies on across the worker's steps: the slots it may be
using, and its cursor. -/
def KeepsReader (b b' : BufferMgmt n α) : Prop :=
  b'.consI = b.consI ∧
    ∀ i, b.status i = .full ∨ b.status i = .partlyUsed → b'.status i = b.status i

theorem KeepsSettled.issueRxSlot {b' : BufferMgmt n α} (hkeep : b.KeepsSettled b')
    {next : Fin n} (hnext : b.status next = .empty ∨ b.status next = .inFlight)
    (j : Fin n) (hj : b.status j = .full ∨ b.status j = .partlyUsed) :
    (b'.issueRxSlot next).status j = b.status j := by
  have hjn : j ≠ next := by
    rintro rfl
    rcases hnext with hn | hn <;> rcases hj with hj | hj <;> simp [hn] at hj
  have hset : b.status j ≠ .inFlight := by
    rcases hj with hj | hj <;> simp [hj]
  simpa [BufferMgmt.issueRxSlot, markRxSlotInFlight, Function.update_of_ne hjn]
    using hkeep j hset

variable [NeZero n]

theorem rxCompleted_spec (hook : Bool) (h : b.Conserved v) (hi : 0 < v i) (k : ℕ)
    (hok : (∃ j, b.status j = .empty) ∨ b.reorder = []) :
    ∃ next, (b.rxCompleted hook i k).2 = .buffer next ∧
      (b.rxCompleted hook i k).1.Conserved
        (given (Function.update v i 0) next) ∧
      (b.rxCompleted hook i k).1.Accounted (b.rxCompleted hook i k).2 i ∧
      b.KeepsReader (b.rxCompleted hook i k).1 := by
  rcases b.rxCompleted_cases hook i k with
    ⟨next, hnext, heq⟩ | ⟨hfull, hre, -⟩ | ⟨-, -, heq⟩
  · have hprep : (b.rxPrepared i next).Conserved v := h
    obtain ⟨hc, hdisp, hkeep⟩ := rxRelease_spec hook hprep hi k
    have hni : next ≠ i := fun hn => by
      rw [hn, (h.inFlight hi).1] at hnext
      exact absurd hnext (by simp)
    have hnext' : ((b.rxPrepared i next).rxRelease hook i k).status next ≠ .inFlight := by
      rw [hkeep next (by simp [rxPrepared, hnext])]
      simp [rxPrepared, hnext]
    rw [heq]
    refine ⟨next, rfl, hc.issueRxSlot hnext', ?_, (rxRelease_frame hook (b.rxPrepared i next) i k).consI,
      fun j hj => hkeep.issueRxSlot (Or.inl hnext) j hj⟩
    rcases hdisp with hf | hh
    · refine Or.inl ?_
      simpa [issueRxSlot, markRxSlotInFlight, Function.update_of_ne hni.symm] using hf
    · exact Or.inr (Or.inl (List.countP_pos_iff.mp hh))
  · rcases hok with ⟨j, hj⟩ | hre'
    · exact absurd hj (hfull j)
    · exact absurd hre' hre
  · rw [heq]
    have hwarn : ({ b with
        bufferDropped := Function.update b.bufferDropped i false
        rxRingFullWarningPublished := true } : BufferMgmt n α).Conserved v := h
    obtain ⟨hc, hkeep⟩ := hwarn.retireDroppedSequence hook (b.bufferSeq i)
    have hv : given (Function.update v i 0) i = v := by
      funext j
      by_cases hj : j = i
      · subst hj
        simp [given, (h.inFlight hi).2.1]
      · simp [given, Function.update_of_ne hj, Ne.symm hj]
    refine ⟨i, rfl, ?_, Or.inr (Or.inr ⟨rfl, rfl⟩),
      (retireDroppedSequence_frame hook _ (b.bufferSeq i)).consI,
      fun j hj => hkeep.issueRxSlot (Or.inr (h.inFlight hi).1) j hj⟩
    rw [hv]
    exact hc.reissueRxSlot hi

theorem rxBufferRejected_spec (hook : Bool) (h : b.Conserved v) (hi : 0 < v i) :
    (b.rxBufferRejected hook i).1.Conserved
      (given (Function.update v i 0) (b.rxBufferRejected hook i).2) ∧
    b.KeepsReader (b.rxBufferRejected hook i).1 := by
  obtain ⟨hr, hkeep⟩ := h.retireDroppedSequence hook (b.bufferSeq i)
  have hfree : (b.rxRejected hook i).Conserved (Function.update v i 0) := by
    intro j
    have hj := hr j
    by_cases hji : j = i
    · subst hji
      have := (hr.inFlight hi).2.2
      simp [rxRejected, heldCount] at this ⊢
      exact this
    · simpa [rxRejected, heldCount, Function.update_of_ne hji] using hj
  obtain ⟨next, hnext, heq⟩ := b.rxBufferRejected_cases hook i (h.inFlight hi).1
  rw [heq]
  refine ⟨hfree.issueRxSlot (by rw [hnext]; simp), (retireDroppedSequence_frame hook b _).consI,
    fun j hj => ?_⟩
  have hset : b.status j ≠ .inFlight := by
    rcases hj with hj | hj <;> simp [hj]
  have hji : j ≠ i := fun hji => hset (hji ▸ (h.inFlight hi).1)
  have hst : (b.rxRejected hook i).status j = b.status j := by
    simpa [rxRejected, Function.update_of_ne hji] using hkeep j hset
  have hjn : j ≠ next := by
    rintro rfl
    rw [hst] at hnext
    rcases hj with hj | hj <;> simp [hj] at hnext
  simpa [issueRxSlot, markRxSlotInFlight, Function.update_of_ne hjn] using hst

/-! ## The reader's steps -/

structure SameSequence (b b' : BufferMgmt n α) : Prop where
  bufferSeq : b'.bufferSeq = b.bufferSeq
  expectedSeq : b'.expectedSeq = b.expectedSeq
  nextSeq : b'.nextSeq = b.nextSeq
  reorder : b'.reorder = b.reorder
  reorderLimit : b'.reorderLimit = b.reorderLimit

theorem skipDropped_cases (k : ℕ) :
    ∃ dropped cons, b.skipDropped k = { b with bufferDropped := dropped, consI := cons } := by
  induction k generalizing b with
  | zero => exact ⟨_, _, rfl⟩
  | succ k ih =>
      simp only [skipDropped]
      split
      · obtain ⟨dropped, cons, heq⟩ := ih (b := { b with
          bufferDropped := Function.update b.bufferDropped b.consI false
          consI := b.consI + 1 })
        exact ⟨dropped, cons, heq⟩
      · exact ⟨_, _, rfl⟩

omit [NeZero n] in
theorem reanchor_cases :
    b.reanchorRxConsumerToOldest = b ∨
      ∃ i, b.reanchorRxConsumerToOldest = { b with consI := i, partialOff := 0 } := by
  unfold reanchorRxConsumerToOldest
  split
  · exact Or.inl rfl
  · split
    · exact Or.inl rfl
    · split
      · exact Or.inl rfl
      · rename_i best _
        split
        · exact Or.inl rfl
        · exact Or.inr ⟨best, rfl⟩

theorem rxAnchorConsumer_cases :
    ∃ dropped cons off, b.rxAnchorConsumer
      = { b with bufferDropped := dropped, consI := cons, partialOff := off } := by
  obtain ⟨dropped, cons, heq⟩ := b.skipDropped_cases n
  unfold rxAnchorConsumer
  rcases (b.skipDropped n).reanchor_cases with hre | ⟨i, hre⟩
  · exact ⟨dropped, cons, _, by rw [hre, heq]⟩
  · exact ⟨dropped, i, _, by rw [hre, heq]⟩

theorem Conserved.rxAnchorConsumer (h : b.Conserved v) : b.rxAnchorConsumer.Conserved v := by
  obtain ⟨dropped, cons, off, heq⟩ := b.rxAnchorConsumer_cases
  rw [heq]
  exact h

theorem Conserved.dropStale (h : b.Conserved v) (metadataRxNow : Bool) :
    (b.dropStale metadataRxNow).1.Conserved v := by
  have hfull : ({ b.dropFull with stalePending := false } : BufferMgmt n α).Conserved v := by
    refine h.congr (fun i => ?_) rfl
    by_cases hs : b.status i = .full <;> simp [dropFull, hs]
  unfold BufferMgmt.dropStale
  dsimp only
  split
  · rename_i hcond
    obtain ⟨-, hpart⟩ := Bool.and_eq_true_iff.mp hcond
    refine hfull.congr (fun i => ?_) rfl
    by_cases hi : i = b.dropFull.consI
    · subst hi
      have hne := of_decide_eq_true hpart
      simp [hne]
    · simp [Function.update_of_ne hi]
  · exact hfull

theorem Conserved.waitForBuffer (h : b.Conserved v) (format : BladerfFormat)
    (rxNow nonblocking : Bool) :
    (b.waitForBuffer format rxNow nonblocking).1.Conserved v := by
  have hclear : ({ b with rxDataWithheldPending := false } : BufferMgmt n α).Conserved v := h
  unfold BufferMgmt.waitForBuffer rxDropStale
  dsimp only
  split
  · exact hclear
  · split
    · exact hclear.rxAnchorConsumer.dropStale _
    · exact hclear.rxAnchorConsumer

theorem dropStale_sameSequence (metadataRxNow : Bool) :
    b.SameSequence (b.dropStale metadataRxNow).1 := by
  unfold dropStale
  dsimp only
  split
  · exact ⟨rfl, rfl, rfl, rfl, rfl⟩
  · exact ⟨rfl, rfl, rfl, rfl, rfl⟩

theorem waitForBuffer_sameSequence (format : BladerfFormat) (rxNow nonblocking : Bool) :
    b.SameSequence (b.waitForBuffer format rxNow nonblocking).1 := by
  unfold waitForBuffer rxDropStale
  dsimp only
  split
  · exact ⟨rfl, rfl, rfl, rfl, rfl⟩
  · obtain ⟨dropped, cons, off, heq⟩ :=
      ({ b with rxDataWithheldPending := false } : BufferMgmt n α).rxAnchorConsumer_cases
    rw [heq]
    split
    · obtain ⟨h1, h2, h3, h4, h5⟩ := dropStale_sameSequence
        (b := { b with
          rxDataWithheldPending := false, bufferDropped := dropped, consI := cons
          partialOff := off }) (rxNow && format.isSampleMeta)
      exact ⟨h1, h2, h3, h4, h5⟩
    · exact ⟨rfl, rfl, rfl, rfl, rfl⟩

theorem waitForBuffer_ready (format : BladerfFormat) (rxNow nonblocking : Bool)
    (h : (b.waitForBuffer format rxNow nonblocking).2.2 = .ready) :
    (b.waitForBuffer format rxNow nonblocking).1.status
      (b.waitForBuffer format rxNow nonblocking).1.consI = .full := by
  unfold waitForBuffer at h ⊢
  dsimp only at h ⊢
  split at h
  · simp at h
  · rename_i hcond
    rw [if_neg hcond]
    dsimp only at h ⊢
    by_contra hne
    rw [if_neg hne] at h
    simp at h

omit [NeZero n] in
theorem Conserved.bufferReady (h : b.Conserved v) (hs : b.status b.consI = .full) :
    b.bufferReady.Conserved v := by
  refine h.congr (fun i => ?_) rfl
  by_cases hi : i = b.consI
  · subst hi
    simp [BufferMgmt.bufferReady, hs]
  · simp [BufferMgmt.bufferReady, Function.update_of_ne hi]

theorem Conserved.advanceRxBuffer (h : b.Conserved v) (hs : b.status b.consI = .partlyUsed) :
    b.advanceRxBuffer.Conserved v := by
  refine h.congr (fun i => ?_) rfl
  by_cases hi : i = b.consI
  · subst hi
    simp [BufferMgmt.advanceRxBuffer, hs]
  · simp [BufferMgmt.advanceRxBuffer, Function.update_of_ne hi]

/-! ## The epoch fence -/

omit [NeZero n] in
theorem dropFpgaLoss_cases (b : BufferMgmt n α) :
    ∃ p f e, b.dropFpgaLoss = { b with
      overrunPending := p, overrunSourceFlags := f, overrunEventPublished := e } := by
  unfold dropFpgaLoss
  dsimp only
  split
  · exact ⟨_, _, _, rfl⟩
  · exact ⟨_, _, _, rfl⟩

/-- No entry of `reorder[]` holds a buffer: tombstones only. -/
def NothingHeld (b : BufferMgmt n α) : Prop :=
  ∀ i, b.heldCount i = 0

omit [NeZero n] in
theorem Conserved.retireHeldPayloads_status (h : b.Conserved v) (i : Fin n) :
    v i = if b.retireHeldPayloads.status i = .inFlight then 1 else 0 := by
  have hi := h i
  have hst : b.retireHeldPayloads.status i
      = if (b.reorder.any (·.holds i) && decide (b.status i = .inFlight)) = true
          then .empty else b.status i := rfl
  cases hheld : b.reorder.any (·.holds i) with
  | true =>
      have hpos : 0 < b.heldCount i := by
        rw [heldCount, List.countP_pos_iff]
        exact List.any_eq_true.mp hheld
      by_cases hs : b.status i = .inFlight
      · rw [if_pos hs] at hi
        rw [hst, hheld, hs]
        simp only [decide_true, Bool.and_self, if_true, reduceCtorEq, if_false]
        omega
      · rw [if_neg hs] at hi
        omega
  | false =>
      have hzero : b.heldCount i = 0 := by
        rw [heldCount, List.countP_eq_zero]
        intro e he hh
        exact absurd (List.any_eq_true.mpr ⟨e, he, hh⟩) (by simp [hheld])
      rw [hzero] at hi
      rw [hst, hheld]
      simpa using hi

omit [NeZero n] in
theorem Conserved.discardRxEpoch (h : b.Conserved v)
    (hok : b.NothingHeld ∨
      ∃ i, 0 < v i ∧ b.bufferSeq i - b.expectedSeq ≠ BitVec.allOnes 32) :
    b.discardRxEpoch.Conserved v := by
  have hst : ∀ i, b.retireHeldPayloads.discardReleased.status i = .inFlight ↔
      b.retireHeldPayloads.status i = .inFlight := by
    intro i
    by_cases hf : b.retireHeldPayloads.status i = .full
    · simp [discardReleased, hf]
    · by_cases hp : b.retireHeldPayloads.status i = .partlyUsed <;>
        simp [discardReleased, hf, hp]
  have hv : ∀ i, v i =
      if b.retireHeldPayloads.discardReleased.status i = .inFlight then 1 else 0 := by
    intro i
    rw [h.retireHeldPayloads_status i]
    simp only [hst i]
  unfold BufferMgmt.discardRxEpoch
  dsimp only
  cases hmin : Lib.firstMinBelow (2 ^ 32 - 1) b.retireHeldPayloads.discardDistance with
  | some i =>
      intro j
      have hj := hv j
      simpa [heldCount] using hj
  | none =>
      have hzero : b.NothingHeld := by
        rcases hok with hok | ⟨i, hi, hne⟩
        · exact hok
        · -- a transfer at a distance below the bound would have been chosen
          exfalso
          have hflight : b.retireHeldPayloads.status i = .inFlight := by
            by_contra hs
            have := h.retireHeldPayloads_status i
            rw [if_neg hs] at this
            omega
          have hkey : b.retireHeldPayloads.discardDistance i
              = some (b.bufferSeq i - b.expectedSeq).toNat := by
            rw [discardDistance, if_pos hflight]
            rfl
          have hge := Lib.firstMinBelow_none hmin i _ hkey
          refine hne (BitVec.eq_of_toNat_eq ?_)
          rw [BitVec.toNat_allOnes]
          have := (b.bufferSeq i - b.expectedSeq).isLt
          omega
      intro j
      have hheld : (b.retireHeldPayloads.discardReleased).heldCount j = 0 := hzero j
      rw [hheld]
      exact hv j

end BufferMgmt

namespace RxSync

variable {n : ℕ} {α : Type}

/-! ## Whole runs -/

/-- How many transfers of slot `i` the USB backend owns. -/
def usbCount (s : RxSync n α) (i : Fin n) : ℕ :=
  s.usb.count i

/-- The reader is in one of the states that use the slot at `cons_i`. -/
def Using (s : RxSync n α) : Prop :=
  s.state = .usingBuffer ∨ s.state = .usingPacketMeta ∨ s.state = .usingBufferMeta

/-- The invariant: every slot is accounted for, and the slot the reader is
about to use, or uses, is the reader's. -/
structure Consistent (s : RxSync n α) : Prop where
  conserved : s.b.Conserved s.usbCount
  ready : s.state = .bufferReady → s.b.status s.b.consI = .full
  using_ : s.Using → s.state = s.format.usingState ∧ s.b.status s.b.consI = .partlyUsed

/-- The slots of the ring, each with its owner: an `IN_FLIGHT` slot is USB's or
is held by exactly one entry of `reorder[]`, and no other slot is either. -/
structure OneOwner (s : RxSync n α) : Prop where
  nodup : s.usb.Nodup
  inFlight : ∀ i, s.b.status i = .inFlight →
    (i ∈ s.usb ∧ s.b.heldCount i = 0) ∨ (i ∉ s.usb ∧ s.b.heldCount i = 1)
  other : ∀ i, s.b.status i ≠ .inFlight → i ∉ s.usb ∧ s.b.heldCount i = 0

/-- What may become of a completed buffer: `FULL`, held in `reorder[]`, or back
with USB and an overrun pending. -/
def Disposed (s : RxSync n α) (i : Fin n) : Prop :=
  s.b.status i = .full ∨ (∃ e ∈ s.b.reorder, e.holds i = true) ∨
    (i ∈ s.usb ∧ s.b.overrunPending = true)

/-- The step does not lose track of a buffer.  A completion needs an `EMPTY`
slot or an empty `reorder[]`; an epoch fence needs an outstanding transfer it
can rebase on, or nothing held. -/
def Accountable (s : RxSync n α) : RxAct n α → Prop
  | .complete _ _ _ => (∃ j, s.b.status j = .empty) ∨ s.b.reorder = []
  | .invalidate => s.format.isSampleMeta = true → s.b.NothingHeld ∨
      ∃ i ∈ s.usb, s.b.bufferSeq i - s.b.expectedSeq ≠ BitVec.allOnes 32
  | _ => True

instance (b : BufferMgmt n α) : Decidable b.NothingHeld :=
  inferInstanceAs (Decidable (∀ i, b.heldCount i = 0))

instance (s : RxSync n α) : (a : RxAct n α) → Decidable (s.Accountable a)
  | .complete _ _ _ =>
      inferInstanceAs (Decidable ((∃ j, s.b.status j = .empty) ∨ s.b.reorder = []))
  | .invalidate => inferInstanceAs (Decidable (s.format.isSampleMeta = true → s.b.NothingHeld ∨
      ∃ i ∈ s.usb, s.b.bufferSeq i - s.b.expectedSeq ≠ BitVec.allOnes 32))
  | .reject _ _ | .withheld | .checkWorker | .waitForBuffer _ _ | .waitDone _ | .bufferReady
  | .usingBuffer _ | .advance | .reportOverrun => inferInstanceAs (Decidable True)

variable {s t : RxSync n α} {i : Fin n}

theorem usbCount_pos (h : i ∈ s.usb) : 0 < s.usbCount i :=
  List.count_pos_iff.mpr h

theorem count_erase_append (h : s.b.Conserved s.usbCount) (hi : i ∈ s.usb) (next : Fin n) :
    (fun j => (s.usb.erase i ++ [next]).count j)
      = given (Function.update s.usbCount i 0) next := by
  funext j
  have hone := (h.inFlight (usbCount_pos hi)).2.1
  rw [usbCount] at hone
  rw [List.count_append, List.count_singleton, given]
  congr 1
  · by_cases hj : j = i
    · subst hj
      rw [List.count_erase_self, hone, Function.update_self]
    · rw [List.count_erase_of_ne (by simpa using hj), Function.update_of_ne hj, usbCount]
  · simp [beq_iff_eq]

theorem Consistent.of_keepsReader (h : s.Consistent) {b' : BufferMgmt n α}
    {usb' : List (Fin n)} (hc : b'.Conserved (fun j => usb'.count j))
    (hkeep : s.b.KeepsReader b') :
    ({ s with b := b', usb := usb' } : RxSync n α).Consistent := by
  obtain ⟨hcons, hst⟩ := hkeep
  refine ⟨hc, fun hs => ?_, fun hs => ?_⟩
  · rw [hcons, hst _ (Or.inl (h.ready hs))]
    exact h.ready hs
  · obtain ⟨hstate, hpart⟩ := h.using_ hs
    refine ⟨hstate, ?_⟩
    rw [hcons, hst _ (Or.inr hpart)]
    exact hpart

variable [NeZero n]

theorem Consistent.complete (h : s.Consistent) {contents : α}
    {k : ℕ} (hok : s.Accountable (.complete i contents k))
    (hs : s.step (.complete i contents k) = some t) :
    t.Consistent ∧ t.Disposed i := by
  obtain ⟨hi, ht⟩ := step_complete hs
  have hc : (s.b.landed i contents).Conserved s.usbCount := h.conserved
  obtain ⟨next, hret, hc', hacc, hkeep⟩ :=
    rxCompleted_spec s.overrunHook hc (usbCount_pos hi) k hok
  rw [ht]
  refine ⟨h.of_keepsReader ?_ hkeep, ?_⟩
  · rw [hret]
    exact count_erase_append h.conserved hi next ▸ hc'
  · rcases hacc with hfull | hheld | ⟨hret', hover⟩
    · exact Or.inl hfull
    · exact Or.inr (Or.inl hheld)
    · refine Or.inr (Or.inr ⟨?_, hover⟩)
      rw [hret']
      exact List.mem_append_right _ (List.mem_singleton_self i)

theorem Consistent.reject (h : s.Consistent) {contents : α}
    (hs : s.step (.reject i contents) = some t) : t.Consistent := by
  obtain ⟨hi, ht⟩ := step_reject hs
  have hc : (s.b.landed i contents).Conserved s.usbCount := h.conserved
  obtain ⟨hc', hkeep⟩ := rxBufferRejected_spec s.overrunHook hc (usbCount_pos hi)
  rw [ht]
  exact h.of_keepsReader (count_erase_append h.conserved hi _ ▸ hc') hkeep

theorem Consistent.waitForBuffer (h : s.Consistent)
    {rxNow nonblocking : Bool} (hs : s.step (.waitForBuffer rxNow nonblocking) = some t) :
    t.Consistent := by
  have hc : (s.b.waitForBuffer s.format rxNow nonblocking).1.Conserved s.usbCount :=
    h.conserved.waitForBuffer s.format rxNow nonblocking
  have hready := s.b.waitForBuffer_ready s.format rxNow nonblocking
  simp only [step] at hs
  split at hs
  · rename_i hstate
    obtain ⟨hw, -⟩ := hstate
    split at hs
    · rename_i heq
      rw [heq] at hc
      obtain rfl := Option.some.inj hs
      exact ⟨hc, fun h' => by simp [hw] at h', fun h' => by simp [Using, hw] at h'⟩
    · rename_i heq
      rw [heq] at hc hready
      obtain rfl := Option.some.inj hs
      exact ⟨hc, fun _ => hready rfl, fun h' => by simp [Using] at h'⟩
    · rename_i heq
      rw [heq] at hc
      obtain rfl := Option.some.inj hs
      exact ⟨hc, fun h' => by simp [hw] at h', fun h' => by simp [Using, hw] at h'⟩
  · simp at hs

theorem usingState_ne (f : BladerfFormat) : f.usingState ≠ .bufferReady := by
  cases f <;> simp [BladerfFormat.usingState]

theorem Consistent.advance (h : s.Consistent) (hu : s.Using) (off : ℕ) :
    ({ s with b := { s.b with partialOff := off }.advanceRxBuffer, state := .waitForBuffer }
      : RxSync n α).Consistent := by
  have hc : ({ s.b with partialOff := off } : BufferMgmt n α).Conserved s.usbCount :=
    h.conserved
  exact ⟨hc.advanceRxBuffer (h.using_ hu).2, fun h' => by simp at h',
    fun h' => by simp [Using] at h'⟩

theorem Consistent.usingBuffer (h : s.Consistent)
    (hstate : s.state = .usingBuffer) (count : ℕ) : (s.usingBuffer count).Consistent := by
  unfold RxSync.usingBuffer
  split
  · exact h
  · dsimp only
    split
    · exact h.advance (Or.inl hstate) _
    · exact ⟨h.conserved, h.ready, h.using_⟩

omit [NeZero n] in
theorem Consistent.invalidate (h : s.Consistent)
    (hok : s.Accountable .invalidate) : s.invalidate.Consistent := by
  unfold RxSync.invalidate
  split
  · rename_i hmeta
    obtain ⟨p, f, e, hdrop⟩ := s.b.dropFpgaLoss_cases
    have hc : s.b.dropFpgaLoss.Conserved s.usbCount := by
      rw [hdrop]
      exact h.conserved
    have hsame : s.b.dropFpgaLoss.NothingHeld ∨
        ∃ i, 0 < s.usbCount i ∧
          s.b.dropFpgaLoss.bufferSeq i - s.b.dropFpgaLoss.expectedSeq ≠ BitVec.allOnes 32 := by
      rw [hdrop]
      rcases hok hmeta with hno | ⟨i, hi, hne⟩
      · exact Or.inl hno
      · exact Or.inr ⟨i, usbCount_pos hi, hne⟩
    have hmoved : ∀ st, st = (if s.state = .bufferReady ∨ s.state = .usingBufferMeta
        then SyncState.waitForBuffer else s.state) →
        st ≠ .bufferReady ∧ (st = .usingBuffer ∨ st = .usingPacketMeta ∨ st = .usingBufferMeta →
          False) := by
      rintro st rfl
      split
      · exact ⟨by simp, by simp⟩
      · rename_i hne
        refine ⟨fun h' => hne (Or.inl h'), fun h' => ?_⟩
        have hform := (h.using_ h').1
        have : s.format.usingState = .usingBufferMeta := by
          revert hmeta
          cases s.format <;> simp [BladerfFormat.isSampleMeta, BladerfFormat.usingState]
        exact hne (Or.inr (hform.trans this))
    obtain ⟨h1, h2⟩ := hmoved _ rfl
    exact ⟨hc.discardRxEpoch hsame, fun h' => absurd h' h1, fun h' => (h2 h').elim⟩
  · exact h

theorem Consistent.step {a : RxAct n α} (h : s.Consistent)
    (hok : s.Accountable a) (hs : s.step a = some t) : t.Consistent := by
  cases a with
  | complete i contents k => exact (h.complete hok hs).1
  | reject i contents => exact h.reject hs
  | withheld =>
      obtain rfl := Option.some.inj hs
      exact ⟨h.conserved, h.ready, h.using_⟩
  | checkWorker =>
      simp only [RxSync.step] at hs
      split at hs
      · obtain rfl := Option.some.inj hs
        exact ⟨h.conserved, fun h' => by simp at h', fun h' => by simp [Using] at h'⟩
      · simp at hs
  | waitForBuffer rxNow nonblocking => exact h.waitForBuffer hs
  | waitDone ok =>
      simp only [RxSync.step] at hs
      split at hs
      · obtain rfl := Option.some.inj hs
        refine ⟨h.conserved, fun h' => ?_, fun h' => ?_⟩
        · dsimp only at h' ⊢
          split at h'
          · rename_i hcond
            simpa using (Bool.and_eq_true_iff.mp hcond).2
          · simp at h'
        · unfold Using at h'
          dsimp only at h'
          split at h' <;> simp at h'
      · simp at hs
  | bufferReady =>
      simp only [RxSync.step] at hs
      split at hs
      · rename_i hready
        obtain rfl := Option.some.inj hs
        refine ⟨h.conserved.bufferReady (h.ready hready), fun h' => ?_, fun _ => ⟨rfl, ?_⟩⟩
        · exact absurd h' (usingState_ne _)
        · simp [bufferReady]
      · simp at hs
  | usingBuffer count =>
      simp only [RxSync.step] at hs
      split at hs
      · rename_i hstate
        obtain rfl := Option.some.inj hs
        exact h.usingBuffer hstate count
      · simp at hs
  | advance =>
      simp only [RxSync.step] at hs
      split at hs
      · rename_i hstate
        obtain rfl := Option.some.inj hs
        exact h.advance (Or.inr (hstate.symm)) s.b.partialOff
      · simp at hs
  | reportOverrun =>
      obtain rfl := Option.some.inj hs
      unfold reportOverrun
      split
      · exact ⟨h.conserved, h.ready, h.using_⟩
      · exact h
  | invalidate =>
      obtain rfl := Option.some.inj hs
      exact h.invalidate hok

theorem start_consistent (format : BladerfFormat) (samplesPerBuffer : ℕ) (hook : Bool)
    (numXfers : ℕ) (buffers : Fin n → α) :
    (start format samplesPerBuffer hook numXfers buffers).Consistent := by
  refine ⟨fun i => ?_, fun h => by simp [start] at h, fun h => by simp [start, Using] at h⟩
  have hcount : (start format samplesPerBuffer hook numXfers buffers).usbCount i
      = if i.val < numXfers then 1 else 0 := by
    have hnodup : ((List.finRange n).filter (fun j => decide (j.val < numXfers))).Nodup :=
      (List.nodup_finRange n).filter _
    rw [usbCount]
    change ((List.finRange n).filter (fun j => decide (j.val < numXfers))).count i = _
    rw [hnodup.count]
    simp
  rw [hcount]
  by_cases hi : i.val < numXfers <;>
    simp [start, syncResetSequenceTracking, heldCount, hi]

omit [NeZero n] in
theorem Consistent.oneOwner (h : s.Consistent) : s.OneOwner := by
  have hle : ∀ i, s.usb.count i ≤ 1 := by
    intro i
    have := h.conserved i
    rw [usbCount] at this
    split at this <;> omega
  refine ⟨List.nodup_iff_count_le_one.mpr hle, fun i hi => ?_, fun i hi => ?_⟩
  · have := h.conserved i
    rw [if_pos hi, usbCount] at this
    by_cases hmem : i ∈ s.usb
    · have hpos := List.count_pos_iff.mpr hmem
      exact Or.inl ⟨hmem, by omega⟩
    · rw [List.count_eq_zero.mpr hmem] at this
      exact Or.inr ⟨hmem, by omega⟩
  · obtain ⟨hv, hheld⟩ := h.conserved.zero hi
    exact ⟨List.count_eq_zero.mp hv, hheld⟩

/-- In every run whose steps are accountable, every slot has the one owner its
status says, and no completed buffer is lost. -/
theorem rx_ring_conserves_buffers (format : BladerfFormat) (samplesPerBuffer : ℕ) (hook : Bool)
    (numXfers : ℕ) (buffers : Fin n → α) {acts : List (RxAct n α)} {s : RxSync n α}
    (hrun : Lib.Steps step Accountable
      (start format samplesPerBuffer hook numXfers buffers) acts s) :
    s.OneOwner ∧
      ∀ i contents k t, s.Accountable (.complete i contents k) →
        s.step (.complete i contents k) = some t → t.Disposed i := by
  have hcons : s.Consistent :=
    hrun.invariant (start_consistent format samplesPerBuffer hook numXfers buffers)
      (fun h hok hs => h.step hok hs)
  exact ⟨hcons.oneOwner, fun i contents k t hok hs => (hcons.complete hok hs).2⟩

local instance fourBuffers : NeZero 4 := ⟨by decide⟩

def heldRun : List (RxAct 4 Unit) := [.complete 1 () 4]

/-- The older one follows, both are handed on and one is read, and the next two
transfers end out of order as well. -/
def outOfOrderRun : List (RxAct 4 Unit) :=
  heldRun ++ [.complete 0 () 4, .waitForBuffer false false, .bufferReady, .usingBuffer 4,
    .complete 3 () 4, .reject 2 ()]

theorem rx_ring_conserves_buffers_out_of_order :
    (∃ s : RxSync 4 Unit,
      Lib.exec step Accountable (start .sc16Q11 4 false 2 (fun _ => ())) heldRun = some s ∧
        s.b.heldCount 1 = 1 ∧ s.OneOwner ∧ s.Disposed 1) ∧
    ∃ s : RxSync 4 Unit,
      Lib.exec step Accountable (start .sc16Q11 4 false 2 (fun _ => ())) outOfOrderRun = some s ∧
        s.OneOwner := by
  have hheld : ∃ s : RxSync 4 Unit,
      Lib.exec step Accountable (start .sc16Q11 4 false 2 (fun _ => ())) heldRun = some s ∧
        s.b.heldCount 1 = 1 ∧ ∃ e ∈ s.b.reorder, e.holds 1 = true := ⟨_, rfl, by decide, by decide⟩
  obtain ⟨s, hs, hcount, hmem⟩ := hheld
  have hsome : (Lib.exec step Accountable (start (n := 4) .sc16Q11 4 false 2 (fun _ => ()))
      outOfOrderRun).isSome := by decide
  obtain ⟨t, ht⟩ := Option.isSome_iff_exists.mp hsome
  exact ⟨⟨s, hs, hcount, (rx_ring_conserves_buffers .sc16Q11 4 false 2 (fun _ => ())
      (Lib.Steps.of_exec hs)).1, .inr (.inl hmem)⟩,
    t, ht, (rx_ring_conserves_buffers .sc16Q11 4 false 2 (fun _ => ())
      (Lib.Steps.of_exec ht)).1⟩

/-- The younger of two transfers completes first and is held; its successor
completes next, finds no `EMPTY` slot, and is gone: its slot stays `IN_FLIGHT`,
no transfer and no entry of `reorder[]` owns it, and no overrun is pending. -/
theorem rx_ring_loses_completed_buffer :
    ∃ s : RxSync 3 Unit,
      Lib.Steps step (fun _ _ => True) (start .sc16Q11 4 false 2 (fun _ => ()))
        [.complete 1 () 4, .complete 2 () 4] s ∧
      ¬ s.OneOwner ∧ ¬ s.Disposed 2 := by
  refine ⟨_, Lib.Steps.of_exec rfl, fun h => ?_, ?_⟩
  · have := h.inFlight 2 (by decide)
    revert this
    decide
  · unfold Disposed
    decide

end RxSync

end BladeRF
