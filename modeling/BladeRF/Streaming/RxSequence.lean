/-
# `Streaming.RxSequence` — the sequence `expected_seq` waits for

Every transfer gets the next sequence number when it is submitted, and
`expected_seq` moves past a number when the transfer it names is released or
retired.  Between the two, a number is either carried by an outstanding
transfer or recorded in `reorder[]`: together they are the window

    {expected_seq, expected_seq + 1, …, next_seq - 1}

as a multiset of `uint32_t` values.  `flush_reorder_entries` leaves no entry for
`expected_seq` itself in `reorder[]`, so if anything is outstanding then
`expected_seq` is, and its completion releases what is held behind it.

Four paths let a number slip out of the window without `expected_seq` moving
past it, and each leaves a hole no later completion can close: a completion
answered with `BLADERF_STREAM_NO_DATA`, a completion forwarded out of order, a
rejection when the tombstone queue is full, and an epoch fence that empties a
`reorder[]` with entries in it.  `SequenceKeeping` excludes these four.
-/
import BladeRF.Lib.Window
import BladeRF.Streaming.RxConservation
import Mathlib.Data.BitVec
import Mathlib.Tactic.Ring

namespace BladeRF

open BufferMgmt

namespace BufferMgmt

variable {n : ℕ} {α : Type}

/-- The sequence numbers recorded in `reorder[]`. -/
def entrySeqs (reorder : List (RxReorderEntry n)) : Multiset (BitVec 32) :=
  (reorder.map RxReorderEntry.seq : List (BitVec 32))

/-- The numbers `u` outside and those in `reorder[]` are the window from
`expected_seq` to `next_seq`. -/
def Tracked (b : BufferMgmt n α) (u : Multiset (BitVec 32)) : Prop :=
  ∃ k : ℕ, u + entrySeqs b.reorder = Lib.window b.expectedSeq k ∧
    b.nextSeq = b.expectedSeq + (k : BitVec 32)

/-- Nothing in `reorder[]` is ready to be released. -/
def NoneExpected (b : BufferMgmt n α) : Prop :=
  ∀ e ∈ b.reorder, e.seq ≠ b.expectedSeq

variable {b : BufferMgmt n α} {u : Multiset (BitVec 32)}

theorem Tracked.retire (h : b.Tracked (b.expectedSeq ::ₘ u)) :
    ({ b with expectedSeq := b.expectedSeq + 1 } : BufferMgmt n α).Tracked u := by
  obtain ⟨k, hwin, hnext⟩ := h
  rw [Multiset.cons_add] at hwin
  obtain ⟨j, rfl, hrest⟩ := Lib.window_cons_cancel hwin
  refine ⟨j, hrest, ?_⟩
  change b.nextSeq = b.expectedSeq + 1 + (j : BitVec 32)
  rw [hnext]
  push_cast
  ring

theorem Tracked.issueRxSlot (h : b.Tracked u) (i : Fin n) :
    (b.issueRxSlot i).Tracked (b.nextSeq ::ₘ u) := by
  obtain ⟨k, hwin, hnext⟩ := h
  refine ⟨k + 1, ?_, ?_⟩
  · change b.nextSeq ::ₘ u + entrySeqs b.reorder = Lib.window b.expectedSeq (k + 1)
    rw [Multiset.cons_add, hwin, Lib.window_succ_last, hnext]
  · change b.nextSeq + 1 = b.expectedSeq + ((k + 1 : ℕ) : BitVec 32)
    rw [hnext]
    push_cast
    ring

variable {e : RxReorderEntry n}

theorem entrySeqs_perm {r rest : List (RxReorderEntry n)}
    (h : r.Perm (e :: rest)) : entrySeqs r = e.seq ::ₘ entrySeqs rest :=
  Multiset.coe_eq_coe.mpr (h.map RxReorderEntry.seq)

theorem Tracked.insertEntry (h : b.Tracked (e.seq ::ₘ u)) :
    ({ b with reorder := b.insertEntry e } : BufferMgmt n α).Tracked u := by
  obtain ⟨k, hwin, hnext⟩ := h
  refine ⟨k, ?_, hnext⟩
  have hins : entrySeqs (b.insertEntry e) = e.seq ::ₘ entrySeqs b.reorder :=
    entrySeqs_perm (List.perm_orderedInsert _ e b.reorder)
  change u + entrySeqs (b.insertEntry e) = _
  rw [hins, ← hwin, Multiset.add_cons, Multiset.cons_add]

theorem NoneExpected.insertEntry (h : b.NoneExpected) (he : e.seq ≠ b.expectedSeq) :
    ({ b with reorder := b.insertEntry e } : BufferMgmt n α).NoneExpected := by
  intro x hx
  rcases List.mem_cons.mp ((List.perm_orderedInsert _ e b.reorder).mem_iff.mp hx) with rfl | hx
  · exact he
  · exact h x hx

theorem Tracked.releaseEntry (h : b.Tracked u)
    {rest : List (RxReorderEntry n)} (hperm : b.reorder.Perm (e :: rest))
    (he : e.seq = b.expectedSeq) :
    ({ b.releaseEntry e with expectedSeq := b.expectedSeq + 1, reorder := rest }
      : BufferMgmt n α).Tracked u := by
  have hout : ({ b with reorder := rest } : BufferMgmt n α).Tracked (b.expectedSeq ::ₘ u) := by
    obtain ⟨k, hwin, hnext⟩ := h
    refine ⟨k, ?_, hnext⟩
    rw [entrySeqs_perm hperm, he] at hwin
    change b.expectedSeq ::ₘ u + entrySeqs rest = _
    rw [← hwin, Multiset.add_cons, Multiset.cons_add]
  obtain ⟨k, hwin, hnext⟩ := hout.retire
  refine ⟨k, hwin, ?_⟩
  cases e <;> exact hnext

theorem Tracked.flushRounds (h : b.Tracked u) (k : ℕ) (hk : b.reorder.length ≤ k) :
    (b.flushRounds k).Tracked u ∧ (b.flushRounds k).NoneExpected := by
  induction k generalizing b with
  | zero =>
      have hnil : b.reorder = [] := List.eq_nil_of_length_eq_zero (Nat.le_zero.mp hk)
      exact ⟨h, fun e he => by simp [flushRounds, hnil] at he⟩
  | succ k ih =>
      simp only [flushRounds]
      split
      · rename_i hnone
        refine ⟨h, fun e he => ?_⟩
        simpa [isExpected] using List.find?_eq_none.mp hnone e he
      · rename_i e he
        have hseq : e.seq = b.expectedSeq := by simpa [isExpected] using List.find?_some he
        refine ih (h.releaseEntry (Lib.perm_cons_eraseP_of_find? he) hseq) ?_
        have hlen := (Lib.perm_cons_eraseP_of_find? he).length_eq
        simp only [List.length_cons] at hlen
        dsimp only
        omega

theorem Tracked.retireDroppedSequence (hook : Bool) {seq : BitVec 32}
    (h : b.Tracked (seq ::ₘ u)) (hnone : b.NoneExpected)
    (hroom : seq = b.expectedSeq ∨ b.reorder.length < syncRxMaxReorder) :
    (b.retireDroppedSequence hook seq).Tracked u ∧
      (b.retireDroppedSequence hook seq).NoneExpected := by
  rcases b.retireDroppedSequence_cases hook seq with
    ⟨hseq, heq⟩ | ⟨hseq, -, heq⟩ | ⟨hseq, hlen, -⟩
  · rw [heq]
    subst hseq
    exact h.retire.flushRounds _ le_rfl
  · rw [heq]
    exact ⟨Tracked.insertEntry (e := .dropped seq) h, hnone.insertEntry hseq⟩
  · exfalso
    rcases hroom with hroom | hroom
    · exact hseq hroom
    · omega

theorem Tracked.rxRelease (hook : Bool) {i : Fin n} (k : ℕ)
    (h : b.Tracked (b.bufferSeq i ::ₘ u)) (hnone : b.NoneExpected)
    (hroom : b.bufferSeq i = b.expectedSeq ∨
      ((b.bufferSeq i - b.expectedSeq).toNat ≤ b.reorderLimit ∧
        b.reorder.length < b.reorderLimit)) :
    (b.rxRelease hook i k).Tracked u ∧ (b.rxRelease hook i k).NoneExpected := by
  rcases b.rxRelease_cases hook i k with ⟨hseq, heq⟩ | ⟨hseq, -, -, heq⟩ | ⟨hseq, hfar, -⟩
  · rw [heq]
    rw [hseq] at h
    have hmark : (b.markBufferReady i k).Tracked ((b.markBufferReady i k).expectedSeq ::ₘ u) := h
    exact hmark.retire.flushRounds _ le_rfl
  · rw [heq]
    exact ⟨Tracked.insertEntry (e := .held (b.bufferSeq i) i k) h, hnone.insertEntry hseq⟩
  · exfalso
    rcases hroom with hroom | ⟨hwin, hlen⟩
    · exact hseq hroom
    · omega

variable [NeZero n]

/-- The completion of slot `i` is released, held or recycled with its number
accounted for: it has a slot for the next transfer and is in order or fits the
window, or the ring is full and nothing is held. -/
def KeepsSequence (b : BufferMgmt n α) (i : Fin n) : Prop :=
  ((∃ j, b.status j = .empty) ∧
    (b.bufferSeq i = b.expectedSeq ∨
      ((b.bufferSeq i - b.expectedSeq).toNat ≤ b.reorderLimit ∧
        b.reorder.length < b.reorderLimit))) ∨
  ((∀ j, b.status j ≠ .empty) ∧ b.reorder = [])

theorem rxCompleted_tracked (hook : Bool) {i : Fin n} (k : ℕ)
    (h : b.Tracked (b.bufferSeq i ::ₘ u)) (hnone : b.NoneExpected) (hok : b.KeepsSequence i) :
    ∃ next, (b.rxCompleted hook i k).2 = .buffer next ∧
      (b.rxCompleted hook i k).1.bufferSeq = Function.update b.bufferSeq next b.nextSeq ∧
      (b.rxCompleted hook i k).1.Tracked (b.nextSeq ::ₘ u) ∧
      (b.rxCompleted hook i k).1.NoneExpected := by
  rcases b.rxCompleted_cases hook i k with
    ⟨next, hnext, heq⟩ | ⟨hfull, hre, -⟩ | ⟨hfull, hre, heq⟩
  · have hfit : b.bufferSeq i = b.expectedSeq ∨
        ((b.bufferSeq i - b.expectedSeq).toNat ≤ b.reorderLimit ∧
          b.reorder.length < b.reorderLimit) := by
      rcases hok with ⟨-, hfit⟩ | ⟨hnot, -⟩
      · exact hfit
      · exact absurd hnext (hnot next)
    obtain ⟨htr, hno⟩ := Tracked.rxRelease (b := b.rxPrepared i next) hook k h hnone hfit
    have hframe := rxRelease_frame hook (b.rxPrepared i next) i k
    rw [heq]
    refine ⟨next, rfl, ?_, ?_, hno⟩
    · simp only [issueRxSlot, markRxSlotInFlight, hframe.bufferSeq, hframe.nextSeq]
      rfl
    · have hissued := htr.issueRxSlot next
      rw [hframe.nextSeq] at hissued
      exact hissued
  · exfalso
    rcases hok with ⟨⟨j, hj⟩, -⟩ | ⟨-, hre'⟩
    · exact hfull j hj
    · exact hre hre'
  · have hwarn : ({ b with
        bufferDropped := Function.update b.bufferDropped i false
        rxRingFullWarningPublished := true } : BufferMgmt n α).Tracked (b.bufferSeq i ::ₘ u) := h
    obtain ⟨htr, hno⟩ := hwarn.retireDroppedSequence hook hnone
      (Or.inr (by simp [hre, syncRxMaxReorder]))
    have hframe := retireDroppedSequence_frame hook { b with
        bufferDropped := Function.update b.bufferDropped i false
        rxRingFullWarningPublished := true } (b.bufferSeq i)
    rw [heq]
    refine ⟨i, rfl, ?_, ?_, hno⟩
    · simp only [rxRingFullRecycle, noteRxOverrun, issueRxSlot, markRxSlotInFlight,
        hframe.bufferSeq, hframe.nextSeq]
    · have hissued := htr.issueRxSlot i
      rw [hframe.nextSeq] at hissued
      exact hissued

theorem rxBufferRejected_tracked (hook : Bool) {i : Fin n} (hi : b.status i = .inFlight)
    (h : b.Tracked (b.bufferSeq i ::ₘ u)) (hnone : b.NoneExpected)
    (hok : b.bufferSeq i = b.expectedSeq ∨ b.reorder.length < syncRxMaxReorder) :
    (b.rxBufferRejected hook i).1.bufferSeq
        = Function.update b.bufferSeq (b.rxBufferRejected hook i).2 b.nextSeq ∧
      (b.rxBufferRejected hook i).1.Tracked (b.nextSeq ::ₘ u) ∧
      (b.rxBufferRejected hook i).1.NoneExpected := by
  obtain ⟨htr, hno⟩ := h.retireDroppedSequence hook hnone hok
  have hframe := retireDroppedSequence_frame hook b (b.bufferSeq i)
  obtain ⟨next, -, heq⟩ := b.rxBufferRejected_cases hook i hi
  have hrej : (b.rxRejected hook i).Tracked u := htr
  rw [heq]
  refine ⟨?_, ?_, hno⟩
  · simp only [issueRxSlot, markRxSlotInFlight, rxRejected, hframe.bufferSeq,
      hframe.nextSeq]
  · have hissued := hrej.issueRxSlot next
    have hnext : (b.rxRejected hook i).nextSeq = b.nextSeq := hframe.nextSeq
    rw [hnext] at hissued
    exact hissued

end BufferMgmt

namespace RxSync

variable {n : ℕ} {α : Type}

/-! ## Whole runs -/

def usbSeqs (s : RxSync n α) : Multiset (BitVec 32) :=
  (s.usb.map s.b.bufferSeq : List (BitVec 32))

/-- The invariant: one owner per slot, and every number of the window outstanding
or recorded. -/
structure Sequenced (s : RxSync n α) : Prop where
  consistent : s.Consistent
  tracked : s.b.Tracked s.usbSeqs
  noneExpected : s.b.NoneExpected

/-- The step keeps the number of the transfer it ends, and the fence finds
nothing recorded. -/
def SequenceKeeping (s : RxSync n α) : RxAct n α → Prop
  | .complete i _ _ => s.b.KeepsSequence i
  | .reject i _ => s.b.bufferSeq i = s.b.expectedSeq ∨ s.b.reorder.length < syncRxMaxReorder
  | .invalidate => s.format.isSampleMeta = true → s.b.reorder = []
  | _ => True

instance (b : BufferMgmt n α) (i : Fin n) : Decidable (b.KeepsSequence i) :=
  inferInstanceAs (Decidable (((∃ j, b.status j = .empty) ∧
    (b.bufferSeq i = b.expectedSeq ∨
      ((b.bufferSeq i - b.expectedSeq).toNat ≤ b.reorderLimit ∧
        b.reorder.length < b.reorderLimit))) ∨ ((∀ j, b.status j ≠ .empty) ∧ b.reorder = [])))

instance (s : RxSync n α) : (a : RxAct n α) → Decidable (s.SequenceKeeping a)
  | .complete i _ _ => inferInstanceAs (Decidable (s.b.KeepsSequence i))
  | .reject i _ => inferInstanceAs (Decidable (s.b.bufferSeq i = s.b.expectedSeq ∨
      s.b.reorder.length < syncRxMaxReorder))
  | .invalidate =>
      inferInstanceAs (Decidable (s.format.isSampleMeta = true → s.b.reorder = []))
  | .withheld | .checkWorker | .waitForBuffer _ _ | .waitDone _ | .bufferReady
  | .usingBuffer _ | .advance | .reportOverrun => inferInstanceAs (Decidable True)

variable {s t : RxSync n α} {i : Fin n}

theorem SequenceKeeping.accountable {a : RxAct n α}
    (h : s.SequenceKeeping a) : s.Accountable a := by
  cases a with
  | complete i contents k =>
      rcases h with ⟨hempty, -⟩ | ⟨-, hre⟩
      · exact Or.inl hempty
      · exact Or.inr hre
  | invalidate => exact fun hmeta => Or.inl (fun i => by simp [heldCount, h hmeta])
  | reject | withheld | checkWorker | waitForBuffer | waitDone | bufferReady
  | usingBuffer | advance | reportOverrun => trivial

theorem Sequenced.expected_outstanding (h : s.Sequenced) (hne : s.usb ≠ []) :
    ∃ i ∈ s.usb, s.b.bufferSeq i = s.b.expectedSeq := by
  obtain ⟨k, hwin, -⟩ := h.tracked
  have hne' : Lib.window s.b.expectedSeq k ≠ 0 := by
    obtain ⟨i, hi⟩ := List.exists_mem_of_ne_nil _ hne
    have hmem : s.b.bufferSeq i ∈ s.usbSeqs + entrySeqs s.b.reorder :=
      Multiset.mem_add.mpr (Or.inl (List.mem_map_of_mem hi))
    rw [hwin] at hmem
    intro h0
    rw [h0] at hmem
    exact Multiset.notMem_zero _ hmem
  have hmem := Lib.mem_window hne'
  rw [← hwin, Multiset.mem_add] at hmem
  rcases hmem with hmem | hmem
  · exact List.mem_map.mp hmem
  · -- `flush_reorder_entries` would have released an entry for `expected_seq`
    obtain ⟨e, he, hseq⟩ := List.mem_map.mp hmem
    exact absurd hseq (h.noneExpected e he)

theorem usbSeqs_exchange {next : Fin n} (hi : i ∈ s.usb)
    (hnodup : t.usb.Nodup) (husb : t.usb = s.usb.erase i ++ [next])
    (hseq : t.b.bufferSeq = Function.update s.b.bufferSeq next s.b.nextSeq) :
    ∃ u : Multiset (BitVec 32), s.usbSeqs = s.b.bufferSeq i ::ₘ u ∧
      t.usbSeqs = s.b.nextSeq ::ₘ u := by
  refine ⟨((s.usb.erase i).map s.b.bufferSeq : List (BitVec 32)), ?_, ?_⟩
  · exact Multiset.coe_eq_coe.mpr ((List.perm_cons_erase hi).map s.b.bufferSeq)
  · have hnext : next ∉ s.usb.erase i := by
      rw [husb] at hnodup
      intro hmem
      exact List.disjoint_of_nodup_append hnodup hmem (List.mem_singleton_self next)
    have hsame : (s.usb.erase i).map (Function.update s.b.bufferSeq next s.b.nextSeq)
        = (s.usb.erase i).map s.b.bufferSeq := by
      refine List.map_congr_left (fun j hj => ?_)
      have hjn : j ≠ next := fun hjn => hnext (hjn ▸ hj)
      exact Function.update_of_ne hjn _ _
    rw [usbSeqs, husb, hseq, List.map_append, hsame]
    refine Multiset.coe_eq_coe.mpr ?_
    simp only [List.map_cons, List.map_nil, Function.update_self]
    exact List.perm_append_singleton _ _

theorem Sequenced.of_same (h : s.Sequenced) (ht : t.Consistent)
    (husb : t.usb = s.usb) (hsame : s.b.SameSequence t.b) : t.Sequenced := by
  refine ⟨ht, ?_, ?_⟩
  · obtain ⟨k, hwin, hnext⟩ := h.tracked
    refine ⟨k, ?_, ?_⟩
    · rw [usbSeqs, husb, hsame.bufferSeq, hsame.reorder, hsame.expectedSeq]
      exact hwin
    · rw [hsame.nextSeq, hsame.expectedSeq]
      exact hnext
  · intro e he
    rw [hsame.reorder] at he
    rw [hsame.expectedSeq]
    exact h.noneExpected e he

theorem Sequenced.discard_sameSequence (h : s.Sequenced)
    (hre : s.b.reorder = []) : s.b.SameSequence s.b.discardRxEpoch := by
  unfold discardRxEpoch
  dsimp only
  cases hmin : Lib.firstMinBelow (2 ^ 32 - 1) s.b.retireHeldPayloads.discardDistance with
  | none => exact ⟨rfl, rfl, rfl, rfl, rfl⟩
  | some i =>
      obtain ⟨m, hm, -, hleast⟩ := Lib.firstMinBelow_some hmin
      have husb : ∀ j, s.b.retireHeldPayloads.status j = .inFlight ↔ j ∈ s.usb := by
        intro j
        have hj := h.consistent.conserved.retireHeldPayloads_status j
        rw [usbCount] at hj
        by_cases hs : s.b.retireHeldPayloads.status j = .inFlight
        · rw [if_pos hs] at hj
          exact iff_of_true hs (List.count_pos_iff.mp (by omega))
        · rw [if_neg hs] at hj
          exact iff_of_false hs (List.count_eq_zero.mp hj)
      have hi : i ∈ s.usb := by
        refine (husb i).mp ?_
        by_contra hs
        rw [discardDistance, if_neg hs] at hm
        simp at hm
      obtain ⟨j, hj, hjseq⟩ := h.expected_outstanding (List.ne_nil_of_mem hi)
      have hzero : s.b.retireHeldPayloads.discardDistance j = some 0 := by
        rw [discardDistance, if_pos ((husb j).mpr hj)]
        change some (s.b.bufferSeq j - s.b.expectedSeq).toNat = some 0
        rw [hjseq]
        simp
      have hm0 : m = 0 := Nat.le_zero.mp (hleast j 0 hzero)
      have hdist : (s.b.bufferSeq i - s.b.expectedSeq).toNat = 0 := by
        rw [discardDistance, if_pos ((husb i).mpr hi), hm0] at hm
        exact Option.some.inj hm
      have hexp : s.b.bufferSeq i = s.b.expectedSeq := by bv_omega
      exact ⟨rfl, hexp, rfl, hre.symm, rfl⟩

variable [NeZero n]

theorem step_reader_sameSequence {a : RxAct n α} (hs : s.step a = some t) (ha : match a with
      | .complete _ _ _ | .reject _ _ | .invalidate => False
      | _ => True) :
    t.usb = s.usb ∧ s.b.SameSequence t.b := by
  have hrefl : s.b.SameSequence s.b := ⟨rfl, rfl, rfl, rfl, rfl⟩
  cases a with
  | complete | reject | invalidate => exact ha.elim
  | withheld =>
      obtain rfl := Option.some.inj hs
      exact ⟨rfl, rfl, rfl, rfl, rfl, rfl⟩
  | waitForBuffer rxNow nonblocking =>
      have hsame := s.b.waitForBuffer_sameSequence s.format rxNow nonblocking
      simp only [step] at hs
      split at hs
      · split at hs <;> rename_i heq <;> rw [heq] at hsame <;>
          obtain rfl := Option.some.inj hs <;> exact ⟨rfl, hsame⟩
      · simp at hs
  | usingBuffer count =>
      simp only [step] at hs
      split at hs
      · obtain rfl := Option.some.inj hs
        unfold RxSync.usingBuffer
        split
        · exact ⟨rfl, hrefl⟩
        · dsimp only
          split
          · exact ⟨rfl, rfl, rfl, rfl, rfl, rfl⟩
          · exact ⟨rfl, rfl, rfl, rfl, rfl, rfl⟩
      · simp at hs
  | reportOverrun =>
      obtain rfl := Option.some.inj hs
      unfold reportOverrun
      split
      · exact ⟨rfl, rfl, rfl, rfl, rfl, rfl⟩
      · exact ⟨rfl, hrefl⟩
  | checkWorker | waitDone | bufferReady | advance =>
      simp only [step] at hs
      split at hs
      · obtain rfl := Option.some.inj hs
        exact ⟨rfl, rfl, rfl, rfl, rfl, rfl⟩
      · simp at hs

omit [NeZero n] in
theorem Sequenced.exchange (ht : t.Consistent) {next : Fin n}
    (hi : i ∈ s.usb) (husb : t.usb = s.usb.erase i ++ [next])
    (hseq : t.b.bufferSeq = Function.update s.b.bufferSeq next s.b.nextSeq)
    (htr : ∀ u, s.usbSeqs = s.b.bufferSeq i ::ₘ u → t.b.Tracked (s.b.nextSeq ::ₘ u))
    (hno : t.b.NoneExpected) : t.Sequenced := by
  obtain ⟨u, hu, hu'⟩ := usbSeqs_exchange hi ht.oneOwner.nodup husb hseq
  exact ⟨ht, hu' ▸ htr u hu, hno⟩

omit [NeZero n] in
theorem Sequenced.landed (h : s.Sequenced) (i : Fin n) (contents : α)
    {u : Multiset (BitVec 32)} (hu : s.usbSeqs = s.b.bufferSeq i ::ₘ u) :
    (s.b.landed i contents).Tracked ((s.b.landed i contents).bufferSeq i ::ₘ u) :=
  hu ▸ h.tracked

omit [NeZero n] in
theorem exists_usbSeqs (hi : i ∈ s.usb) :
    ∃ u, s.usbSeqs = s.b.bufferSeq i ::ₘ u :=
  Multiset.exists_cons_of_mem (List.mem_map_of_mem hi)

theorem Sequenced.complete (h : s.Sequenced) {contents : α}
    {k : ℕ} (hok : s.SequenceKeeping (.complete i contents k))
    (hs : s.step (.complete i contents k) = some t) : t.Sequenced := by
  have ht := (h.consistent.complete hok.accountable hs).1
  obtain ⟨hi, heq⟩ := step_complete hs
  have hb : t.b = ((s.b.landed i contents).rxCompleted s.overrunHook i k).1 := by rw [heq]
  obtain ⟨u₀, hu₀⟩ := exists_usbSeqs hi
  obtain ⟨next, hret, hseq, -, hno⟩ :=
    rxCompleted_tracked s.overrunHook k (h.landed i contents hu₀) h.noneExpected hok
  have husb : t.usb = s.usb.erase i ++ [next] := by
    rw [heq, hret]
    rfl
  refine Sequenced.exchange ht hi husb (hb ▸ hseq) (fun u hu => ?_) (hb ▸ hno)
  obtain ⟨-, -, -, htr, -⟩ :=
    rxCompleted_tracked s.overrunHook k (h.landed i contents hu) h.noneExpected hok
  exact hb ▸ htr

theorem Sequenced.reject (h : s.Sequenced) {contents : α}
    (hok : s.SequenceKeeping (.reject i contents))
    (hs : s.step (.reject i contents) = some t) : t.Sequenced := by
  have ht := h.consistent.reject hs
  obtain ⟨hi, heq⟩ := step_reject hs
  have hb : t.b = ((s.b.landed i contents).rxBufferRejected s.overrunHook i).1 := by rw [heq]
  have hflight : (s.b.landed i contents).status i = .inFlight :=
    (h.consistent.conserved.inFlight (usbCount_pos hi)).1
  obtain ⟨u₀, hu₀⟩ := exists_usbSeqs hi
  obtain ⟨hseq, -, hno⟩ := rxBufferRejected_tracked s.overrunHook hflight
    (h.landed i contents hu₀) h.noneExpected hok
  refine Sequenced.exchange ht hi (by rw [heq]) (hb ▸ hseq) (fun u hu => ?_) (hb ▸ hno)
  obtain ⟨-, htr, -⟩ := rxBufferRejected_tracked s.overrunHook hflight
    (h.landed i contents hu) h.noneExpected hok
  exact hb ▸ htr

omit [NeZero n] in
theorem Sequenced.invalidate (h : s.Sequenced)
    (hok : s.SequenceKeeping .invalidate) : s.invalidate.Sequenced := by
  have ht := h.consistent.invalidate hok.accountable
  by_cases hmeta : s.format.isSampleMeta = true
  · obtain ⟨p, f, e, hdrop⟩ := s.b.dropFpgaLoss_cases
    have hloss : ({ s with b := s.b.dropFpgaLoss } : RxSync n α).Sequenced := by
      rw [hdrop]
      exact ⟨⟨h.consistent.conserved, h.consistent.ready, h.consistent.using_⟩, h.tracked,
        h.noneExpected⟩
    have hre : s.b.dropFpgaLoss.reorder = [] := by
      rw [hdrop]
      exact hok hmeta
    refine hloss.of_same ht ?_ ?_
    · unfold RxSync.invalidate
      rw [if_pos hmeta]
    · have hsame := hloss.discard_sameSequence hre
      unfold RxSync.invalidate
      rw [if_pos hmeta]
      exact hsame
  · unfold RxSync.invalidate
    rw [if_neg hmeta]
    exact h

theorem Sequenced.step {a : RxAct n α} (h : s.Sequenced)
    (hok : s.SequenceKeeping a) (hs : s.step a = some t) : t.Sequenced := by
  have ht := h.consistent.step hok.accountable hs
  cases a with
  | complete i contents k => exact h.complete hok hs
  | reject i contents => exact h.reject hok hs
  | invalidate =>
      obtain rfl := Option.some.inj hs
      exact h.invalidate hok
  | withheld | checkWorker | waitForBuffer | waitDone | bufferReady | usingBuffer | advance
  | reportOverrun =>
      obtain ⟨husb, hsame⟩ := step_reader_sameSequence hs trivial
      exact h.of_same ht husb hsame

theorem start_sequenced (format : BladerfFormat) (samplesPerBuffer : ℕ) (hook : Bool)
    (numXfers : ℕ) (buffers : Fin n → α) :
    (start format samplesPerBuffer hook numXfers buffers).Sequenced := by
  refine ⟨start_consistent format samplesPerBuffer hook numXfers buffers,
    ⟨min numXfers n, ?_, ?_⟩, fun e he => ?_⟩
  · rw [usbSeqs, start_usb_seq]
    change ((List.range (min numXfers n)).map (BitVec.ofNat 32) : Multiset (BitVec 32)) + 0 = _
    rw [Multiset.add_zero]
    refine congrArg _ (List.map_congr_left (fun m _ => ?_))
    exact (zero_add _).symm
  · change BitVec.ofNat 32 (min numXfers n) = 0 + ((min numXfers n : ℕ) : BitVec 32)
    simp
  · exact absurd he List.not_mem_nil

/-- In every run whose steps keep the sequence numbers they end, the number the
worker waits for belongs to an outstanding transfer as long as there is one. -/
theorem rx_expected_seq_outstanding (format : BladerfFormat) (samplesPerBuffer : ℕ) (hook : Bool)
    (numXfers : ℕ) (buffers : Fin n → α) {acts : List (RxAct n α)} {s : RxSync n α}
    (hrun : Lib.Steps step SequenceKeeping
      (start format samplesPerBuffer hook numXfers buffers) acts s) (hne : s.usb ≠ []) :
    ∃ i ∈ s.usb, s.b.bufferSeq i = s.b.expectedSeq := by
  have hseq : s.Sequenced :=
    hrun.invariant (start_sequenced format samplesPerBuffer hook numXfers buffers)
      (fun h hok hs => h.step hok hs)
  exact hseq.expected_outstanding hne

/-- The younger transfer of two is held, then a rejection retires the older. -/
theorem rx_expected_seq_outstanding_after_hold :
    ∃ s : RxSync 4 Unit,
      Lib.exec step SequenceKeeping (start .sc16Q11 4 false 2 (fun _ => ()))
        [.complete 1 () 4, .reject 0 ()] = some s ∧
      ∃ i ∈ s.usb, s.b.bufferSeq i = s.b.expectedSeq := by
  have husb : (Lib.exec step SequenceKeeping (start (n := 4) .sc16Q11 4 false 2 (fun _ => ()))
      [.complete 1 () 4, .reject 0 ()]).map RxSync.usb = some [2, 3] := by decide
  obtain ⟨s, hs, hu⟩ := Option.map_eq_some_iff.mp husb
  exact ⟨s, hs, rx_expected_seq_outstanding .sc16Q11 4 false 2 (fun _ => ())
    (Lib.Steps.of_exec hs) (by simp [hu])⟩

/-- Two transfers complete in the other order on a ring of three: the first is
held and takes the last `EMPTY` slot, so the one `expected_seq` waits for is
answered with `BLADERF_STREAM_NO_DATA` and its number is never retired. -/
theorem rx_expected_seq_lost :
    ∃ s : RxSync 3 Unit,
      Lib.Steps step (fun _ _ => True) (start .sc16Q11 4 false 2 (fun _ => ()))
        [.complete 1 () 4, .complete 0 () 4] s ∧
      s.usb ≠ [] ∧ ∀ i ∈ s.usb, s.b.bufferSeq i ≠ s.b.expectedSeq :=
  ⟨_, Lib.Steps.of_exec rfl, by decide, by decide⟩

end RxSync

end BladeRF
