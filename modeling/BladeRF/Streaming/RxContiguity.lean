/-
# `Streaming.RxContiguity` — META reads give consecutive samples, once

The samples a call returns lie at consecutive timestamps from the one asked for,
no sample is returned twice, and a short read is marked.  For a read at a
timestamp the parser checks every copy against the timestamp expected next; an
`RX_NOW` read copies wherever the parser is, so there continuity rests on
`curr_timestamp` alone (`Continues`).

Two decisions do not keep this.  `METADATA_RX_EPOCH_SKIP_TIMESTAMP_PREFIX` goes
before the check for a discontinuity even after samples were copied, and a seek
may lead back to the start of its message, where the next call begins if this
one ends first.  The results are about the runs without them.
-/
import BladeRF.Streaming.RxPosition
import BladeRF.Streaming.RxReader

namespace BladeRF

open RxReader RxParser

variable {cfg : MetaConfig} {stream : MetaStream} {fence : RxEpochFence}

/-! ## The locals of a call -/

namespace RxRead

def base (request : RxRequest) (r : RxRead) : BitVec 64 :=
  if r.userMeta.rxNow then r.userMeta.timestamp else request.timestamp

/-- What was copied so far is consecutive from the base on, in whole time
steps. -/
structure Consecutive (cfg : MetaConfig) (stream : MetaStream) (request : RxRequest)
    (r : RxRead) : Prop where
  rxNow : r.userMeta.rxNow = request.rxNow
  numSamples : r.numSamples = request.numSamples
  num_dvd : cfg.samplesPerTs ∣ r.numSamples
  dest_dvd : cfg.samplesPerTs ∣ r.dest.length
  fresh : r.copiedData = false → r.dest = []
  target : r.copiedData = true ∨ r.userMeta.rxNow = false →
    r.targetTimestamp = r.base request + BitVec.ofNat 64 (r.dest.length / cfg.samplesPerTs)
  times : ∀ (m : ℕ) (x : RxSample), r.dest[m]? = some x →
    x.timestamp cfg stream = r.base request + BitVec.ofNat 64 (m / cfg.samplesPerTs)
  marked : r.Marked

variable {request : RxRequest} {r r' : RxRead}

theorem Consecutive.noCopy (h : r.Consecutive cfg stream request) (hn : r.NoCopy r')
    (hm : r'.Marked) : r'.Consecutive cfg stream request := by
  have hbase : r'.base request = r.base request := by
    unfold base
    rw [hn.rxNow, hn.timestamp]
  refine ⟨?_, ?_, ?_, ?_, ?_, ?_, ?_, hm⟩
  · rw [hn.rxNow, h.rxNow]
  · rw [hn.numSamples, h.numSamples]
  · rw [hn.numSamples]
    exact h.num_dvd
  · rw [hn.dest]
    exact h.dest_dvd
  · rw [hn.copiedData, hn.dest]
    exact h.fresh
  · rw [hn.copiedData, hn.rxNow, hn.targetTimestamp, hbase, hn.dest]
    exact h.target
  · rw [hn.dest, hbase]
    exact h.times

theorem Consecutive.withStatus (h : r.Consecutive cfg stream request) (status : ℤ) :
    { r with status := status }.Consecutive cfg stream request :=
  h.noCopy ⟨rfl, rfl, rfl, rfl, rfl, rfl⟩ h.marked

theorem chunk_timestamp {p : RxParser} (ha : p.AtSample cfg stream)
    (hf : p.msgEpochFilteredOut = false) {count i : ℕ} {x : RxSample}
    (hx : (p.chunk count)[i]? = some x) :
    x.timestamp cfg stream = p.currTimestamp + BitVec.ofNat 64 (i / cfg.samplesPerTs) := by
  unfold chunk at hx
  rw [List.getElem?_map, Option.map_eq_some_iff] at hx
  obtain ⟨j, hj, rfl⟩ := hx
  obtain ⟨-, rfl⟩ := List.getElem?_eq_some_iff.mp hj
  rw [List.getElem_range]
  exact ha.sample_timestamp hf i

theorem Consecutive.giveSamples {p : RxParser} {count : ℕ}
    (h : r.Consecutive cfg stream request) (ha : p.AtSample cfg stream)
    (hf : p.msgEpochFilteredOut = false)
    (hcurr : r.copiedData = true ∨ r.userMeta.rxNow = false →
      p.currTimestamp = r.targetTimestamp)
    (hcount : cfg.samplesPerTs ∣ count) :
    (p.giveSamples cfg stream r count).Consecutive cfg stream request := by
  have hpos := cfg.samplesPerTs_pos
  have hold : r.dest ≠ [] → (p.giveSamples cfg stream r count).base request = r.base request := by
    intro hne
    have hcopied : r.copiedData = true := by
      cases hc : r.copiedData with
      | true => rfl
      | false => exact absurd (h.fresh hc) hne
    simp [base, RxParser.giveSamples, hcopied]
  -- the copy starts where the samples before it end
  have hnow : p.currTimestamp = (p.giveSamples cfg stream r count).base request +
      BitVec.ofNat 64 (r.dest.length / cfg.samplesPerTs) := by
    cases hc : r.copiedData with
    | true =>
        rw [hcurr (.inl hc), h.target (.inl hc)]
        simp [base, RxParser.giveSamples, hc]
    | false =>
        rw [h.fresh hc]
        cases hr : r.userMeta.rxNow with
        | true => simp [base, RxParser.giveSamples, hc, hr]
        | false =>
            rw [hcurr (.inr hr), h.target (.inr hr), h.fresh hc]
            simp [base, RxParser.giveSamples, hr]
  have hlen : (p.giveSamples cfg stream r count).dest.length = r.dest.length + count := by
    simp [RxParser.giveSamples, RxParser.chunk]
  obtain ⟨k, hk⟩ := h.dest_dvd
  refine ⟨h.rxNow, h.numSamples, h.num_dvd, ?_, ?_, ?_, ?_, h.marked⟩
  · rw [hlen]
    exact Nat.dvd_add h.dest_dvd hcount
  · intro hc
    cases hc
  · intro _
    rw [hlen, hk, Nat.mul_add_div hpos, BitVec.ofNat_add, ← BitVec.add_assoc]
    rw [hk, Nat.mul_div_cancel_left _ hpos] at hnow
    rw [← hnow]
    rfl
  · intro m x hx
    change (r.dest ++ p.chunk count)[m]? = some x at hx
    rcases Nat.lt_or_ge m r.dest.length with hm | hm
    · rw [List.getElem?_append_left hm] at hx
      rw [hold (fun hnil => by simp [hnil] at hm)]
      exact h.times m x hx
    · rw [List.getElem?_append_right hm] at hx
      rw [chunk_timestamp ha hf hx, hnow, BitVec.add_assoc, ← BitVec.ofNat_add]
      obtain ⟨i, rfl⟩ := Nat.exists_eq_add_of_le hm
      rw [Nat.add_sub_cancel_left, hk, Nat.mul_add_div hpos, Nat.mul_div_cancel_left _ hpos]

end RxRead

/-! ## Turns -/

/-- An `RX_NOW` read that copied samples and is not done goes on where it
stopped: the next header is checked against the timestamp after the last
sample, and inside a message nothing but a refusal of the board keeps the
parser from copying. -/
def Continues (fence : RxEpochFence) (p : RxParser) (r : RxRead) : Prop :=
  r.userMeta.rxNow = true → r.copiedData = true → r.done = false →
    p.haveTimestamp = true ∧ p.currTimestamp = r.targetTimestamp ∧
      (p.metaState = .samples → fence.dataInvalidated = false ∧
        (fence.boundaryEnabled = true →
          metadataTimestampAtOrAfter p.currTimestamp fence.minTimestamp = true) ∧
        (p.msgEpochFilteredOut = true → p.msgAdmissionWithheldReason ≠ 0#32))

/-- What a turn leads to: the place is kept, the copy is consecutive and goes on
where it stopped, and the samples it adds are new. -/
structure Progress (cfg : MetaConfig) (stream : MetaStream) (fence : RxEpochFence)
    (request : RxRequest) (p : RxParser) (r : RxRead) (p' : RxParser) (r' : RxRead) : Prop where
  sound : p'.Sound cfg stream
  consecutive : r'.Consecutive cfg stream request
  continues : Continues fence p' r'
  behind : p.Behind p'
  fresh : ∃ new : List RxSample, r'.dest = r.dest ++ new ∧ new.Nodup ∧
    ∀ x ∈ new, ¬p.Passed x ∧ p'.Passed x

variable {request : RxRequest} {p p' : RxParser} {r r' : RxRead}

theorem Progress.of_noCopy (hs : p'.Sound cfg stream) (h : r.Consecutive cfg stream request)
    (hn : r.NoCopy r') (hm : r'.Marked) (hc : Continues fence p' r') (hb : p.Behind p') :
    Progress cfg stream fence request p r p' r' :=
  ⟨hs, h.noCopy hn hm, hc, hb, [], by simp [hn.dest], List.nodup_nil, by simp⟩

theorem done_of_exitEarly (h : r.exitEarly = true) : r.done = true := by
  simp [RxRead.done, h]

theorem done_of_status (h : r.status ≠ 0) : r.done = true := by
  simp [RxRead.done, h]

theorem overrun_headerStatus {header : MetaHeader} {u : UserMeta} (h : u.overrun = true) :
    (headerStatus fence header u).overrun = true := by
  unfold headerStatus
  split
  · simpa [UserMeta.overrun] using .inl h
  · exact h

theorem headerStatus_frame (fence : RxEpochFence) (header : MetaHeader) (u : UserMeta) :
    (headerStatus fence header u).rxNow = u.rxNow ∧
      (headerStatus fence header u).timestamp = u.timestamp := by
  unfold headerStatus
  split
  · exact ⟨rfl, rfl⟩
  · exact ⟨rfl, rfl⟩

theorem metaHeader_noCopy (hr : r.Marked) :
    r.NoCopy (p.metaHeader stream fence r).2 ∧ (p.metaHeader stream fence r).2.Marked := by
  have hframe := headerStatus_frame fence (stream p.consumed p.msgNum) r.userMeta
  unfold metaHeader
  dsimp only
  split
  · exact ⟨⟨rfl, hframe.1, hframe.2, rfl, rfl, rfl⟩, fun _ => UserMeta.overrun_markOverrun _⟩
  · exact ⟨⟨rfl, hframe.1, hframe.2, rfl, rfl, rfl⟩, fun _ => UserMeta.overrun_markOverrun _⟩
  all_goals
    exact ⟨⟨rfl, hframe.1, hframe.2, rfl, rfl, rfl⟩, fun he => overrun_headerStatus (hr he)⟩

theorem enterSamples_continues (hclosed : fence.Closed)
    (ha : p.disposition fence (stream p.consumed p.msgNum) r.copiedData = .accept)
    (hhave : p.haveTimestamp = true) (hcurr : p.currTimestamp = r.targetTimestamp) :
    let p' := (p.readHeader fence (stream p.consumed p.msgNum)).enterSamples
    p'.haveTimestamp = true ∧ p'.currTimestamp = r.targetTimestamp ∧
      fence.dataInvalidated = false ∧
      (fence.boundaryEnabled = true →
        metadataTimestampAtOrAfter p'.currTimestamp fence.minTimestamp = true) ∧
      p'.msgEpochFilteredOut = false := by
  obtain ⟨hmatch, hbound, hts⟩ := disposition_accept ha
  have hf : filteredOut fence (stream p.consumed p.msgNum) = false := by
    unfold filteredOut
    cases hb : fence.boundaryEnabled with
    | false => rfl
    | true =>
        cases hi : fence.idFilterEnabled with
        | false => rfl
        | true => rw [hmatch hb hi]; rfl
  have hinv : fence.dataInvalidated = false := by
    cases hd : fence.dataInvalidated with
    | false => rfl
    | true =>
        obtain ⟨hb, hi⟩ := hclosed hd
        have := hmatch hb hi
        simp [epochMatches, hd] at this
  have hentered : (p.readHeader fence (stream p.consumed p.msgNum)).enterSamples =
      { p.readHeader fence (stream p.consumed p.msgNum) with
        metaState := .samples
        currTimestamp := (stream p.consumed p.msgNum).timestamp
        haveTimestamp := true } := by
    unfold enterSamples
    rw [if_neg (by simp [readHeader, hf])]
    rfl
  dsimp only
  rw [hentered]
  refine ⟨rfl, ?_, hinv, hbound, hf⟩
  rw [← hcurr]
  exact hts hhave

theorem metaHeader_continues (hc : Continues fence p r) (hclosed : fence.Closed)
    (hdone : r.done = false)
    (hskip : r.userMeta.rxNow = true → r.copiedData = true →
      p.disposition fence (stream p.consumed p.msgNum) r.copiedData ≠ .skipTimestampPrefix) :
    Continues fence (p.metaHeader stream fence r).1 (p.metaHeader stream fence r).2 := by
  have hframe := headerStatus_frame fence (stream p.consumed p.msgNum) r.userMeta
  unfold metaHeader
  dsimp only
  split
  · intro _ _ hd
    rw [done_of_exitEarly rfl] at hd
    cases hd
  · intro _ hcopied hd
    rw [done_of_exitEarly hcopied] at hd
    cases hd
  · rename_i hdisp
    intro hnow hcopied _
    obtain ⟨hhave, hcurr, -⟩ := hc (hframe.1.symm.trans hnow) hcopied hdone
    obtain ⟨h1, h2, h3, h4, h5⟩ := enterSamples_continues hclosed hdisp hhave hcurr
    exact ⟨h1, h2, fun _ => ⟨h3, h4, fun hf => absurd (h5.symm.trans hf) (by decide)⟩⟩
  · rename_i hdisp
    intro _ hcopied _
    exact absurd ((disposition_dropMessage hdisp).symm.trans hcopied) (by decide)
  · rename_i hdisp
    intro hnow hcopied _
    exact absurd hdisp (hskip (hframe.1.symm.trans hnow) hcopied)

theorem metaHeader_progress (h : p.Sound cfg stream) (hu : p.syncState = .usingBufferMeta)
    (hm : p.metaState = .header) (hr : r.Consecutive cfg stream request)
    (hc : Continues fence p r) (hclosed : fence.Closed) (hdone : r.done = false)
    (hskip : r.userMeta.rxNow = true → r.copiedData = true →
      p.disposition fence (stream p.consumed p.msgNum) r.copiedData ≠ .skipTimestampPrefix) :
    Progress cfg stream fence request p r (p.metaHeader stream fence r).1
      (p.metaHeader stream fence r).2 :=
  .of_noCopy (metaHeader_sound h hu) hr (metaHeader_noCopy hr.marked).1
    (metaHeader_noCopy hr.marked).2 (metaHeader_continues hc hclosed hdone hskip)
    (behind_metaHeader hm)

theorem noteDropped_noCopy (hr : r.Marked) :
    r.NoCopy (p.noteDropped r) ∧ (p.noteDropped r).Marked := by
  unfold noteDropped
  split
  · exact ⟨⟨rfl, rfl, rfl, rfl, rfl, rfl⟩, hr⟩
  · split
    · split
      · exact ⟨⟨rfl, rfl, rfl, rfl, rfl, rfl⟩, hr⟩
      · split
        · exact ⟨⟨rfl, rfl, rfl, rfl, rfl, rfl⟩, fun _ => UserMeta.overrun_markOverrun _⟩
        · exact ⟨⟨rfl, rfl, rfl, rfl, rfl, rfl⟩, hr⟩
    · exact ⟨⟨rfl, rfl, rfl, rfl, rfl, rfl⟩, hr⟩

theorem noteDropped_done (hreason : p.msgAdmissionWithheldReason ≠ 0#32)
    (hcopied : r.copiedData = true) : (p.noteDropped r).done = true := by
  unfold noteDropped
  split
  · refine done_of_status ?_
    dsimp only
    decide
  · rw [if_pos (by simp [hreason]), if_neg (by simp [hcopied])]
    simp only [hcopied]
    exact done_of_exitEarly rfl

theorem Continues.of_rxNow (h : r.userMeta.rxNow = false) : Continues fence p r := by
  intro hnow
  exact absurd (h.symm.trans hnow) (by decide)

theorem copySamples_progress {admission : BitVec 32} (h : p.Sound cfg stream)
    (hm : p.metaState = .samples) (hr : r.Consecutive cfg stream request)
    (hc : Continues fence p r) (hdone : r.done = false)
    (hinv : fence.dataInvalidated = false) (hf : p.msgEpochFilteredOut = false)
    (hbound : fence.boundaryEnabled = true →
      metadataTimestampAtOrAfter p.currTimestamp fence.minTimestamp = true)
    (hgo : r.userMeta.rxNow = true ∨ r.targetTimestamp = p.currTimestamp) :
    Progress cfg stream fence request p r (p.copySamples cfg stream fence admission r).1
      (p.copySamples cfg stream fence admission r).2 := by
  have ha := h.atSample hm
  have hdvd := samplesToCopy_dvd ha hr.num_dvd hr.dest_dvd
  have hsound : (p.copySamples cfg stream fence admission r).1.Sound cfg stream :=
    copySamples_sound h hm hr.num_dvd hr.dest_dvd
  unfold copySamples at hsound ⊢
  by_cases hrefuse : p.refuses cfg fence admission r = true
  · rw [if_pos hrefuse] at hsound ⊢
    have hreason : admission ≠ 0#32 := by
      simp only [refuses, Bool.and_eq_true, bne_iff_ne] at hrefuse
      exact hrefuse.2
    refine .of_noCopy hsound hr ⟨rfl, rfl, rfl, rfl, rfl, rfl⟩ hr.marked ?_ ?_
    · intro hnow hcopied _
      obtain ⟨hhave, hcurr, -⟩ := hc hnow hcopied hdone
      exact ⟨hhave, hcurr, fun _ => ⟨hinv, hbound, fun _ => hreason⟩⟩
    · intro x hx
      exact hx
  · rw [if_neg hrefuse] at hsound ⊢
    have hcurr : r.copiedData = true ∨ r.userMeta.rxNow = false →
        p.currTimestamp = r.targetTimestamp := by
      intro hcase
      rcases hgo with hnow | heq
      · rcases hcase with hcopied | hnot
        · exact (hc hnow hcopied hdone).2.1
        · exact absurd (hnow.symm.trans hnot) (by decide)
      · exact heq.symm
    refine ⟨hsound, hr.giveSamples ha hf hcurr hdvd, ?_, behind_takeSamples,
      p.chunk (samplesToCopy cfg p r), rfl, chunk_nodup, ?_⟩
    · intro _ _ hmore
      have hend : samplesToCopy cfg p r = p.leftInMsg cfg := by
        simp only [RxRead.done, giveSamples, List.length_append, chunk,
          List.length_map, List.length_range, Bool.or_eq_false_iff,
          decide_eq_false_iff_not] at hmore
        unfold samplesToCopy at hmore ⊢
        omega
      have htake : p.takeSamples cfg (samplesToCopy cfg p r) =
          nextMessage cfg
            { p with
              currMsgOff := p.currMsgOff + samplesToCopy cfg p r
              currTimestamp := p.currTimestamp +
                BitVec.ofNat 64 (samplesToCopy cfg p r / cfg.samplesPerTs) } := by
        unfold takeSamples
        dsimp only
        rw [if_pos]
        have := ha.off_le
        unfold leftInMsg at hend ⊢
        dsimp only
        omega
      rw [htake]
      refine ⟨?_, ?_, ?_⟩
      · rw [nextMessage_timestamp.1]
        exact ha.haveTimestamp hf
      · rw [nextMessage_timestamp.2]
        rfl
      · intro hs
        rw [nextMessage_metaState] at hs
        cases hs
    · intro x hx
      exact ⟨chunk_not_passed ha hx, chunk_passed ha hm hx⟩

/-- The parser gets to `seek`. -/
def reachesSeek (fence : RxEpochFence) (p : RxParser) (r : RxRead) : Bool :=
  !(fence.dataInvalidated || p.msgEpochFilteredOut) &&
    !(fence.boundaryEnabled && !metadataTimestampAtOrAfter p.currTimestamp fence.minTimestamp) &&
    !r.userMeta.rxNow &&
    (r.copiedData || metadataTimestampAtOrAfter r.targetTimestamp p.currTimestamp) &&
    r.targetTimestamp != p.currTimestamp

theorem metaSamples_progress {admission : BitVec 32} (h : p.Sound cfg stream)
    (hm : p.metaState = .samples) (hr : r.Consecutive cfg stream request)
    (hc : Continues fence p r) (hdone : r.done = false)
    (hback : reachesSeek fence p r = true → seeksBack cfg p r = false) :
    Progress cfg stream fence request p r (p.metaSamples cfg stream fence admission r).1
      (p.metaSamples cfg stream fence admission r).2 := by
  unfold metaSamples
  split
  · rename_i hdrop
    obtain ⟨hno, hmarked⟩ := noteDropped_noCopy (p := p) hr.marked
    refine .of_noCopy skipMessage_sound hr hno hmarked ?_ behind_skipMessage
    -- only a refusal of the board drops a message that continues a copy
    intro hnow hcopied hmore
    obtain ⟨-, -, hin⟩ := hc (hno.rxNow.symm.trans hnow) (hno.copiedData.symm.trans hcopied) hdone
    obtain ⟨hinv, -, hreason⟩ := hin hm
    rw [hinv, Bool.false_or] at hdrop
    rw [noteDropped_done (hreason hdrop) (hno.copiedData.symm.trans hcopied)] at hmore
    cases hmore
  · rename_i hdrop
    simp only [Bool.or_eq_true, not_or, Bool.not_eq_true] at hdrop
    obtain ⟨hinv, hf⟩ := hdrop
    split
    · rename_i hbefore
      refine .of_noCopy (skipToBoundary_sound h hm) hr
        ⟨rfl, rfl, rfl, rfl, rfl, rfl⟩ hr.marked ?_ behind_skipToBoundary
      intro hnow hcopied _
      obtain ⟨-, -, hin⟩ := hc hnow hcopied hdone
      simp only [Bool.and_eq_true, Bool.not_eq_eq_eq_not, Bool.not_true] at hbefore
      exact absurd (((hin hm).2.1 hbefore.1).symm.trans hbefore.2) (by decide)
    · rename_i hbefore
      have hbound : fence.boundaryEnabled = true →
          metadataTimestampAtOrAfter p.currTimestamp fence.minTimestamp = true := by
        intro hb
        simpa [hb] using hbefore
      split
      · rename_i hpast
        simp only [Bool.and_eq_true, Bool.not_eq_eq_eq_not, Bool.not_true] at hpast
        exact .of_noCopy h hr ⟨rfl, rfl, rfl, rfl, rfl, rfl⟩ hr.marked
          (.of_rxNow hpast.1.2) (.refl p)
      · rename_i hpast
        split
        · rename_i hgo
          refine copySamples_progress h hm hr hc hdone hinv hf hbound ?_
          simpa using hgo
        · rename_i hgo
          simp only [Bool.or_eq_true, beq_iff_eq, not_or, Bool.not_eq_true] at hgo
          refine .of_noCopy (seek_sound h hm) hr
            ⟨rfl, rfl, rfl, rfl, rfl, rfl⟩ hr.marked (.of_rxNow hgo.1)
            (behind_seek (hback ?_))
          simp only [hgo.1, Bool.not_false, Bool.and_true, Bool.and_eq_true,
            Bool.not_eq_eq_eq_not, Bool.not_true, not_and, Bool.not_eq_false] at hpast
          simp only [reachesSeek, hinv, hf, hgo, Bool.or_false, Bool.not_false, Bool.true_and,
            Bool.and_eq_true, Bool.not_eq_eq_eq_not, Bool.not_true, bne_iff_ne]
          refine ⟨⟨⟨by simpa using hbefore, trivial⟩, ?_⟩, hgo.2⟩
          cases hcd : r.copiedData with
          | true => rfl
          | false => simpa using hpast hcd

/-- The turn does none of the three things that break a read: restart the worker
or skip the prefix of a message after an `RX_NOW` read has samples, or seek back
to the start of the message. -/
def Regular (cfg : MetaConfig) (stream : MetaStream) (fence : RxEpochFence)
    (p : RxParser) (r : RxRead) : Prop :=
  (p.syncState = .resetBufMgmt → r.userMeta.rxNow = true → r.copiedData = false) ∧
  (p.syncState = .usingBufferMeta → p.metaState = .header → r.userMeta.rxNow = true →
    r.copiedData = true →
    p.disposition fence (stream p.consumed p.msgNum) r.copiedData ≠ .skipTimestampPrefix) ∧
  (p.syncState = .usingBufferMeta → p.metaState = .samples → reachesSeek fence p r = true →
    seeksBack cfg p r = false)

instance : Decidable (Regular cfg stream fence p r) :=
  inferInstanceAs (Decidable (_ ∧ _ ∧ _))

theorem idles_progress (hi : RxReader.Idles p r p' r') (h : p.Sound cfg stream)
    (hne : p.syncState ≠ .usingBufferMeta) (hr : r.Consecutive cfg stream request)
    (hc : Continues fence p r) (hdone : r.done = false)
    (hrestart : p.syncState = .resetBufMgmt → r.userMeta.rxNow = true →
      r.copiedData = false) :
    Progress cfg stream fence request p r p' r' := by
  have hm := hi.metaState (h.header_of_ne hne)
  refine .of_noCopy (.of_header hm ?_) hr hi.noCopy (hi.marked hr.marked) ?_ ?_
  · intro hu
    rw [hi.msgNum hu]
    exact cfg.msgPerBuf_pos
  · intro hnow hcopied _
    have hnow' := hi.noCopy.rxNow.symm.trans hnow
    have hcopied' := hi.noCopy.copiedData.symm.trans hcopied
    obtain ⟨h1, h2, -⟩ := hc hnow' hcopied' hdone
    have hhave : p'.haveTimestamp = p.haveTimestamp := by
      rcases hi.haveTimestamp with hs | heq
      · exact absurd ((hrestart hs hnow').symm.trans hcopied') (by decide)
      · exact heq
    refine ⟨hhave.trans h1, ?_, fun hs => ?_⟩
    · rw [hi.currTimestamp, hi.noCopy.targetTimestamp, h2]
    · exact absurd (hm.symm.trans hs) (by decide)
  · rintro x (hx | ⟨-, hu, -⟩)
    · exact .inl (Nat.lt_of_lt_of_le hx hi.consumed)
    · exact absurd hu hne

theorem dispatch_progress (t : MetaTurn) (h : p.Sound cfg stream)
    (hr : r.Consecutive cfg stream request) (hc : Continues fence p r) (hclosed : fence.Closed)
    (hdone : r.done = false) (hreg : Regular cfg stream fence p r) :
    Progress cfg stream fence request p r (dispatch cfg stream fence t p r).1
      (dispatch cfg stream fence t p r).2.2 := by
  rcases dispatch_cases cfg stream fence t p r with ⟨hs, heq⟩ | ⟨hne, hi, -⟩
  · rw [heq]
    dsimp only
    unfold usingBufferMeta
    cases hm : p.metaState with
    | header => exact metaHeader_progress h hs hm hr hc hclosed hdone (hreg.2.1 hs hm)
    | samples => exact metaSamples_progress h hm hr hc hdone (hreg.2.2 hs hm)
  · exact idles_progress hi h hne hr hc hdone hreg.1

/-! ## Calls -/

/-- What a call that returns samples returns: as many as it says, consecutive
from the timestamp asked for, and fewer than asked for only with an error or a
mark. -/
structure RxReturn.Contiguous (cfg : MetaConfig) (stream : MetaStream) (r : RxReturn) : Prop where
  count : r.samples.length = r.userMeta.actualCount
  times : ∀ (m : ℕ) (x : RxSample), r.samples[m]? = some x →
    x.timestamp cfg stream =
      (if r.request.rxNow then r.userMeta.timestamp else r.request.timestamp) +
        BitVec.ofNat 64 (m / cfg.samplesPerTs)
  short : r.userMeta.actualCount < r.request.numSamples →
    r.status ≠ 0 ∨ r.userMeta.overrun = true

namespace RxReader

variable {s s' : RxReader} {c : RxCallState}

/-- The samples given to callers: by the call in progress, and by those that
returned. -/
def given (s : RxReader) : List RxSample :=
  (match s.call with
    | some c => c.read.dest
    | none => []) ++ s.returned.flatMap RxReturn.samples

structure CallKept (cfg : MetaConfig) (stream : MetaStream) (s : RxReader) (c : RxCallState) :
    Prop where
  generation_le : c.generation ≤ s.generation
  consecutive : c.read.Consecutive cfg stream c.request
  entered : c.point = .entered → c.read = c.request.read
  continues : c.point = .loop ∨ c.point = .waiting → s.generation = c.generation →
    Continues s.fence s.parser c.read
  waiting : c.point = .waiting → s.parser.syncState = .waitForBuffer ∧ c.read.status = 0
  out : c.point = .out → c.read.userMeta.actualCount = c.read.dest.length ∧ c.read.done = true

structure Kept (cfg : MetaConfig) (stream : MetaStream) (s : RxReader) : Prop where
  sound : s.parser.Sound cfg stream
  closed : s.fence.Closed
  call : ∀ c, s.call = some c → s.CallKept cfg stream c
  contiguous : ∀ r ∈ s.returned, 0 < r.userMeta.actualCount → r.Contiguous cfg stream
  passed : ∀ x ∈ s.given, s.parser.Passed x
  nodup : s.given.Nodup

/-- The step keeps clear of what breaks a read; `expect_id` may also not reset the
continuity of a call that is not cancelled. -/
def RegularStep (cfg : MetaConfig) (stream : MetaStream) (s : RxReader) : RxReaderAct → Prop
  | .turn t => ∀ c ∈ s.call, s.dispatches c t = true →
      Regular cfg stream s.fence s.parser c.read
  | .expectId _ => ∀ c ∈ s.call, s.generation = c.generation →
      c.read.userMeta.rxNow = true → c.read.copiedData = false
  | _ => True

instance : (a : RxReaderAct) → Decidable (RegularStep cfg stream s a)
  | .turn _ | .expectId _ => inferInstanceAs (Decidable (∀ c ∈ s.call, _))
  | .call _ | .enter | .wake _ _ | .leave | .overrun | .advanceGeneration | .invalidate _ _
  | .stageMinTimestamp _ _ _ | .activate _ => inferInstanceAs (Decidable True)

theorem read_consecutive {request : RxRequest}
    (h : syncSampleCountAligned cfg request = true) :
    request.read.Consecutive cfg stream request := by
  refine ⟨rfl, rfl, Nat.dvd_of_mod_eq_zero ?_, Nat.dvd_zero _, fun _ => rfl, ?_, ?_, ?_⟩
  · exact beq_iff_eq.mp h
  · rintro (hc | hnow)
    · cases hc
    · simp only [RxRead.base, hnow]
      simp [RxRequest.read]
  · intro m x hx
    simp [RxRequest.read] at hx
  · intro he
    cases he

theorem Kept.of_given (h : s.Kept cfg stream) (hsound : s'.parser.Sound cfg stream)
    (hclosed : s'.fence.Closed) (hbehind : s.parser.Behind s'.parser)
    (hreturned : s'.returned = s.returned) (hgiven : s'.given = s.given)
    (hcall : ∀ c, s'.call = some c → s'.CallKept cfg stream c) : s'.Kept cfg stream := by
  refine ⟨hsound, hclosed, hcall, ?_, ?_, ?_⟩
  · rw [hreturned]
    exact h.contiguous
  · intro x hx
    rw [hgiven] at hx
    exact hbehind x (h.passed x hx)
  · rw [hgiven]
    exact h.nodup

theorem given_eq {c : RxCallState} (hcall : s.call = some c) :
    s.given = c.read.dest ++ s.returned.flatMap RxReturn.samples := by
  rw [given, hcall]

theorem Kept.call_step {request : RxRequest} (h : s.Kept cfg stream)
    (hnone : s.call = none) (haligned : syncSampleCountAligned cfg request = true) :
    { s with call := some ⟨.entered, request, s.generation, request.read⟩ }.Kept
      cfg stream := by
  refine h.of_given h.sound h.closed (.refl _) rfl ?_ ?_
  · simp [given, hnone, RxRequest.read]
  · rintro c ⟨⟩
    refine ⟨Nat.le_refl _, read_consecutive haligned, fun _ => rfl, ?_, ?_, ?_⟩
    · rintro (h' | h')
      · cases h'
      · cases h'
    · intro h'
      cases h'
    · intro h'
      cases h'

theorem Kept.enter_step (h : s.Kept cfg stream) (hcall : s.call = some c)
    (hp : c.point = .entered) : (s.enter c).Kept cfg stream := by
  have hc := h.call c hcall
  have hread := hc.entered hp
  have hmark : { c.read with
      userMeta := if s.overrunPending then c.read.userMeta.markOverrun
        else c.read.userMeta }.Consecutive cfg stream c.request := by
    split
    · exact hc.consecutive.noCopy ⟨rfl, rfl, rfl, rfl, rfl, rfl⟩
        (fun _ => UserMeta.overrun_markOverrun _)
    · exact hc.consecutive
  have hcount : (if s.overrunPending then c.read.userMeta.markOverrun
      else c.read.userMeta).actualCount = 0 := by
    rw [hread]
    split
    · rfl
    · rfl
  have hfresh : c.read.copiedData = false := by
    rw [hread]
    rfl
  have hdest : c.read.dest = [] := hc.consecutive.fresh hfresh
  unfold enter
  dsimp only
  generalize (if s.overrunPending then c.read.userMeta.markOverrun else c.read.userMeta) = user
    at hmark hcount ⊢
  split
  · refine h.of_given h.sound h.closed (.refl _) rfl ?_ ?_
    · rw [given_eq hcall, given_eq rfl]
    · rintro c' ⟨⟩
      refine ⟨hc.generation_le, ?_, ?_, ?_, ?_, ?_⟩
      · exact hmark.withStatus _
      · intro h'
        cases h'
      · rintro (h' | h')
        · cases h'
        · cases h'
      · intro h'
        cases h'
      · intro _
        refine ⟨?_, done_of_status (by dsimp only; decide)⟩
        dsimp only
        rw [hcount, hdest]
        rfl
  · refine h.of_given h.sound h.closed (.refl _) rfl ?_ ?_
    · rw [given_eq hcall, given_eq rfl]
    · rintro c' ⟨⟩
      refine ⟨hc.generation_le, hmark, ?_, ?_, ?_, ?_⟩
      · intro h'
        cases h'
      · intro _ _ _ hcopied
        rw [hfresh] at hcopied
        cases hcopied
      · intro h'
        cases h'
      · intro h'
        cases h'

theorem CallKept.leaveLoop (h : s.CallKept cfg stream c) {status : ℤ}
    (hdone : status ≠ 0 ∨ status = c.read.status ∧ c.read.done = true) :
    { s with call := some (leaveLoop c status) }.CallKept cfg stream (leaveLoop c status) := by
  refine ⟨h.generation_le, ?_, ?_, ?_, ?_, ?_⟩
  · exact h.consecutive.noCopy ⟨rfl, rfl, rfl, rfl, rfl, rfl⟩ h.consecutive.marked
  · intro h'
    cases h'
  · rintro (h' | h')
    · cases h'
    · cases h'
  · intro h'
    cases h'
  · intro _
    refine ⟨rfl, ?_⟩
    rcases hdone with hne | ⟨rfl, hd⟩
    · exact done_of_status hne
    · exact hd

theorem Kept.leaveLoop (h : s.Kept cfg stream) (hcall : s.call = some c) {status : ℤ}
    (hdone : status ≠ 0 ∨ status = c.read.status ∧ c.read.done = true) :
    { s with call := some (leaveLoop c status) }.Kept cfg stream := by
  refine h.of_given h.sound h.closed (.refl _) rfl ?_ ?_
  · rw [given_eq hcall, given_eq rfl]
    rfl
  · rintro c' ⟨⟩
    exact (h.call c hcall).leaveLoop hdone

theorem Kept.dispatch (h : s.Kept cfg stream) (hcall : s.call = some c) (hp : c.point = .loop)
    (hdone : c.read.done = false) (hgen : s.generation = c.generation) (t : MetaTurn)
    (hreg : Regular cfg stream s.fence s.parser c.read) :
    { s with
      parser := (dispatch cfg stream s.fence t s.parser c.read).1
      call := some
        { c with
          point := (dispatch cfg stream s.fence t s.parser c.read).2.1
          read := (dispatch cfg stream s.fence t s.parser c.read).2.2 } }.Kept cfg stream := by
  have hc := h.call c hcall
  have hprog := dispatch_progress t h.sound hc.consecutive (hc.continues (.inl hp) hgen) h.closed
    hdone hreg
  have hpoint := dispatch_point cfg stream s.fence t s.parser c.read
  have hstatus : c.read.status = 0 := by
    simp only [RxRead.done, Bool.or_eq_false_iff, bne_eq_false_iff_eq] at hdone
    exact hdone.2
  obtain ⟨new, hdest, hnew, hfresh⟩ := hprog.fresh
  have hold := given_eq hcall
  generalize RxReader.dispatch cfg stream s.fence t s.parser c.read = q at hprog hpoint hdest hfresh ⊢
  obtain ⟨p, point, r⟩ := q
  dsimp only at hprog hpoint hdest hfresh ⊢
  -- the samples of the turn go behind those of the call
  have hperm : (given { s with
      parser := p, call := some { c with point := point, read := r } }).Perm (new ++ s.given) := by
    rw [given_eq rfl, hold]
    dsimp only
    rw [hdest, List.append_assoc, ← List.append_assoc new]
    exact List.perm_append_comm_assoc _ _ _ |>.trans (by rw [List.append_assoc])
  refine ⟨hprog.sound, h.closed, ?_, h.contiguous, ?_, ?_⟩
  · rintro c' ⟨⟩
    refine ⟨hc.generation_le, hprog.consecutive, ?_, fun _ _ => hprog.continues, ?_, ?_⟩
    · intro h'
      dsimp only at h'
      rcases hpoint with hl | ⟨hw, -⟩
      · rw [hl] at h'
        cases h'
      · rw [hw] at h'
        cases h'
    · intro h'
      dsimp only at h' ⊢
      rcases hpoint with hl | ⟨-, hs, hst⟩
      · rw [hl] at h'
        cases h'
      · exact ⟨hs, hst.trans hstatus⟩
    · intro h'
      dsimp only at h'
      rcases hpoint with hl | ⟨hw, -⟩
      · rw [hl] at h'
        cases h'
      · rw [hw] at h'
        cases h'
  · intro x hx
    rcases List.mem_append.mp (hperm.mem_iff.mp hx) with hx | hx
    · exact (hfresh x hx).2
    · exact hprog.behind x (h.passed x hx)
  · rw [hperm.nodup_iff, List.nodup_append]
    refine ⟨hnew, h.nodup, ?_⟩
    rintro x hx y hy rfl
    exact (hfresh x hx).1 (h.passed x hy)

theorem Kept.turn_step (h : s.Kept cfg stream) (hcall : s.call = some c) (hp : c.point = .loop)
    (t : MetaTurn)
    (hreg : s.dispatches c t = true → Regular cfg stream s.fence s.parser c.read) :
    (s.turn cfg stream c t).Kept cfg stream := by
  unfold turn
  split
  · rename_i hdone
    exact h.leaveLoop hcall (.inr ⟨rfl, hdone⟩)
  · rename_i hdone
    split
    · exact h.leaveLoop hcall (.inl (by decide))
    · rename_i hgen
      split
      · rename_i hlate
        simp only [Bool.and_eq_true, bne_iff_ne] at hlate
        exact h.leaveLoop hcall (.inl hlate.2)
      · rename_i hlate
        have hdone' : c.read.done = false := by simpa using hdone
        have hgen' : s.generation = c.generation := not_not.mp hgen
        refine h.dispatch hcall hp hdone' hgen' t (hreg ?_)
        simp only [dispatches, hdone', hgen', Bool.not_false, BEq.rfl, Bool.true_and,
          Bool.not_eq_true_eq_eq_false]
        exact Bool.eq_false_iff.mpr hlate

theorem Kept.wake_step (h : s.Kept cfg stream) (hcall : s.call = some c)
    (hp : c.point = .waiting) (status : ℤ) (full : Bool) :
    (s.wake c status full).Kept cfg stream := by
  have hc := h.call c hcall
  obtain ⟨hs, hst⟩ := hc.waiting hp
  have hne : s.parser.syncState ≠ .usingBufferMeta := by
    rw [hs]
    decide
  have hm := h.sound.header_of_ne hne
  have hstate : (if status = 0 ∧ full = true then SyncState.bufferReady else .checkWorker) ≠
      .usingBufferMeta := by
    split
    · decide
    · decide
  refine h.of_given (.of_header hm (fun hu => absurd hu hstate)) h.closed ?_ rfl ?_ ?_
  · rintro x (hx | ⟨-, hu, -⟩)
    · exact .inl hx
    · exact absurd hu hne
  · rw [given_eq hcall, given_eq rfl]
    rfl
  · rintro c' ⟨⟩
    refine ⟨hc.generation_le, hc.consecutive.withStatus _, ?_, ?_, ?_, ?_⟩
    · intro h'
      cases h'
    · intro _ hgen hnow hcopied hdone
      have hdone' : c.read.done = false := by
        simp only [RxRead.done, Bool.or_eq_false_iff] at hdone ⊢
        exact ⟨hdone.1, by simp [hst]⟩
      obtain ⟨h1, h2, -⟩ := hc.continues (.inr hp) hgen hnow hcopied hdone'
      refine ⟨h1, h2, fun hsm => ?_⟩
      exact absurd (hm.symm.trans hsm) (by decide)
    · intro h'
      cases h'
    · intro h'
      cases h'

theorem result_samples (hc : s.generation = c.generation) :
    (s.result c).samples = c.read.dest := by
  unfold result
  rw [if_neg (not_not.mpr hc)]
  change (c.read.dest.map some).filterMap id = c.read.dest
  rw [List.filterMap_map]
  exact List.filterMap_some

theorem result_samples_of_ne (hc : s.generation ≠ c.generation) :
    (s.result c).samples = [] ∧ (s.result c).userMeta.actualCount = 0 := by
  unfold result
  rw [if_pos hc]
  refine ⟨?_, rfl⟩
  change (c.read.dest.map (fun _ => none)).filterMap id = []
  rw [List.filterMap_map]
  exact List.filterMap_eq_nil_iff.mpr (fun _ _ => rfl)

theorem CallKept.result (h : s.CallKept cfg stream c) (hp : c.point = .out)
    (hgen : s.generation = c.generation) : (s.result c).Contiguous cfg stream := by
  obtain ⟨hcount, hdone⟩ := h.out hp
  have hc := h.consecutive
  have huser : (s.result c).userMeta = c.read.userMeta ∨
      (s.result c).userMeta = c.read.userMeta.markOverrun := by
    unfold RxReader.result
    rw [if_neg (not_not.mpr hgen)]
    dsimp only
    split
    · exact .inr rfl
    · exact .inl rfl
  have hframe : (s.result c).userMeta.actualCount = c.read.userMeta.actualCount ∧
      (s.result c).userMeta.timestamp = c.read.userMeta.timestamp := by
    rcases huser with hu | hu
    · rw [hu]
      exact ⟨rfl, rfl⟩
    · rw [hu]
      exact ⟨rfl, rfl⟩
  have hrequest : (s.result c).request = c.request ∧ (s.result c).status = c.read.status := by
    unfold RxReader.result
    rw [if_neg (not_not.mpr hgen)]
    exact ⟨rfl, rfl⟩
  refine ⟨?_, ?_, ?_⟩
  · rw [result_samples hgen, hframe.1, hcount]
  · intro m x hx
    rw [result_samples hgen] at hx
    rw [hc.times m x hx, hrequest.1, hframe.2, RxRead.base, hc.rxNow]
  · intro hshort
    rw [hframe.1, hcount, hrequest.1, ← hc.numSamples] at hshort
    simp only [RxRead.done, Bool.or_eq_true, bne_iff_ne, decide_eq_true_eq] at hdone
    rcases hdone with (hearly | hfull) | hstatus
    · refine .inr ?_
      rcases huser with hu | hu
      · rw [hu]
        exact hc.marked hearly
      · rw [hu]
        exact UserMeta.overrun_markOverrun _
    · omega
    · exact .inl (hrequest.2 ▸ hstatus)

section

variable (h : s.Kept cfg stream)

include h

theorem Kept.leave_step (hcall : s.call = some c)
    (hp : c.point = .out) : (s.leave c).Kept cfg stream := by
  have hc := h.call c hcall
  have hsub : (s.leave c).given.Sublist s.given := by
    rw [given_eq hcall]
    change List.Sublist ([] ++ (s.result c :: s.returned).flatMap RxReturn.samples) _
    rw [List.nil_append, List.flatMap_cons]
    by_cases hgen : s.generation = c.generation
    · rw [result_samples hgen]
    · rw [(result_samples_of_ne hgen).1, List.nil_append]
      exact List.sublist_append_right _ _
  refine ⟨h.sound, h.closed, ?_, ?_, ?_, ?_⟩
  · intro c' h'
    cases h'
  · intro r hr hpos
    rcases List.mem_cons.mp hr with rfl | hr
    · by_cases hgen : s.generation = c.generation
      · exact hc.result hp hgen
      · rw [(result_samples_of_ne hgen).2] at hpos
        omega
    · exact h.contiguous r hr hpos
  · intro x hx
    exact h.passed x (hsub.subset hx)
  · exact hsub.nodup h.nodup

section

variable (hfree : s.unlocked = true)

include hfree

/-- A change of the fence by another thread.  The call, if there is one, has not
passed its entry fences or is waiting, and then the parser is at a header. -/
theorem Kept.setter
    {fence : RxEpochFence} {p : RxParser} {generation : ℕ} {pending : Bool}
    (hclosed : fence.Closed) (hsound : p.Sound cfg stream) (hbehind : s.parser.Behind p)
    (hstate : s.parser.syncState = .waitForBuffer → p.syncState = .waitForBuffer)
    (hcurr : p.currTimestamp = s.parser.currTimestamp)
    (hhave : ∀ c, s.call = some c → s.generation = c.generation →
      c.read.userMeta.rxNow = true → c.read.copiedData = true →
      p.haveTimestamp = s.parser.haveTimestamp) :
    { s with
      fence := fence
      parser := p
      certifiedGeneration := generation
      overrunPending := pending }.Kept cfg stream := by
  refine h.of_given hsound hclosed hbehind rfl rfl ?_
  intro c hcall
  have hc := h.call c hcall
  have hpoint : c.point = .entered ∨ c.point = .waiting := by
    change s.call = some c at hcall
    simpa [unlocked, hcall] using hfree
  refine ⟨hc.generation_le, hc.consecutive, hc.entered, ?_, ?_, hc.out⟩
  · intro hp hgen hnow hcopied hdone
    have hw : c.point = .waiting := by
      rcases hpoint with he | hw
      · rw [he] at hp
        rcases hp with hp | hp
        · cases hp
        · cases hp
      · exact hw
    obtain ⟨h1, h2, -⟩ := hc.continues hp hgen hnow hcopied hdone
    refine ⟨(hhave c hcall hgen hnow hcopied).trans h1, hcurr.trans h2, fun hm => ?_⟩
    have hs := hstate (hc.waiting hw).1
    have hheader := hsound.header_of_ne (by rw [hs]; decide)
    exact absurd (hheader.symm.trans hm) (by decide)
  · intro hw
    exact ⟨hstate (hc.waiting hw).1, (hc.waiting hw).2⟩

theorem Kept.invalidate_step (dropped : ℕ)
    (fpgaLossOnly : Bool) : (s.invalidate dropped fpgaLossOnly).Kept cfg stream := by
  have hclosed : RxEpochFence.Closed
      { s.fence with
        boundaryEnabled := true
        minTimestamp := 0#64
        idFilterEnabled := true
        dataInvalidated := true
        transitionPending := false } := fun _ => ⟨rfl, rfl⟩
  unfold invalidate
  dsimp only
  by_cases hin : s.parser.syncState = .bufferReady ∨ s.parser.syncState = .usingBufferMeta
  · rw [if_pos hin]
    refine h.setter hfree hclosed (.of_header rfl (fun hu => by cases hu)) ?_ (fun _ => rfl) rfl
      (fun _ _ _ _ _ => rfl)
    rintro x (hx | ⟨hb, -, -⟩)
    · refine .inl ?_
      dsimp only
      omega
    · refine .inl ?_
      dsimp only
      omega
  · rw [if_neg hin]
    have hne : s.parser.syncState ≠ .usingBufferMeta := fun hu => hin (.inr hu)
    refine h.setter hfree hclosed
      (.of_header (h.sound.header_of_ne hne) (fun hu => absurd hu hne)) ?_ (fun hs => hs) rfl
      (fun _ _ _ _ _ => rfl)
    rintro x (hx | ⟨-, hu, -⟩)
    · refine .inl ?_
      dsimp only
      omega
    · exact absurd hu hne

theorem Kept.expectId_step
    (epochId : BitVec 8)
    (hreg : ∀ c, s.call = some c → s.generation = c.generation →
      c.read.userMeta.rxNow = true → c.read.copiedData = false) :
    (s.expectId epochId).Kept cfg stream := by
  unfold expectId
  refine h.setter hfree (fun _ => ⟨rfl, rfl⟩) ?_ ?_ (fun hs => hs) rfl ?_
  · exact h.sound.refenced
  · intro x hx
    exact hx
  · intro c hcall hgen hnow hcopied
    rw [hreg c hcall hgen hnow] at hcopied
    cases hcopied

theorem Kept.stageMinTimestamp_step
    (minTimestamp : BitVec 64) (epochId : BitVec 8) (inTime : Bool) :
    (s.stageMinTimestamp minTimestamp epochId inTime).Kept cfg stream := by
  unfold stageMinTimestamp
  split
  · exact h.setter hfree (fun _ => ⟨rfl, rfl⟩) h.sound (.refl _) (fun hs => hs) rfl
      (fun _ _ _ _ _ => rfl)
  · exact h

theorem Kept.activate_step
    (admitted : Bool) : (s.activate admitted).Kept cfg stream := by
  unfold activate
  split
  · exact h.setter hfree (fun hd => by cases hd) h.sound (.refl _) (fun hs => hs) rfl
      (fun _ _ _ _ _ => rfl)
  · exact h

end

end

/-! ## Runs -/

theorem Kept.step {a : RxReaderAct} (h : s.Kept cfg stream) (hreg : RegularStep cfg stream s a)
    (hs : step cfg stream s a = some s') : s'.Kept cfg stream := by
  cases a with
  | call request =>
      simp only [RxReader.step, Bool.and_eq_true, Option.isNone_iff_eq_none,
        Option.ite_none_right_eq_some, Option.some.injEq] at hs
      obtain ⟨⟨hnone, haligned⟩, rfl⟩ := hs
      exact h.call_step hnone haligned
  | enter =>
      obtain ⟨c, hcall, hp, rfl⟩ := call_of_point hs
      exact h.enter_step hcall hp
  | turn t =>
      obtain ⟨c, hcall, hp, rfl⟩ := call_of_point hs
      exact h.turn_step hcall hp t (hreg c hcall)
  | wake status full =>
      obtain ⟨c, hcall, hp, rfl⟩ := call_of_point hs
      exact h.wake_step hcall hp status full
  | leave =>
      obtain ⟨c, hcall, hp, rfl⟩ := call_of_point hs
      exact h.leave_step hcall hp
  | overrun =>
      cases hs
      exact h.of_given h.sound h.closed (.refl _) rfl rfl (fun c hcall =>
        have hc := h.call c hcall
        ⟨hc.generation_le, hc.consecutive, hc.entered, hc.continues, hc.waiting, hc.out⟩)
  | advanceGeneration =>
      cases hs
      refine h.of_given h.sound h.closed (.refl _) rfl rfl ?_
      intro c hcall
      have hc := h.call c hcall
      refine ⟨Nat.le_succ_of_le hc.generation_le, hc.consecutive, hc.entered, ?_, hc.waiting,
        hc.out⟩
      intro _ hgen
      have := hc.generation_le
      dsimp only at hgen
      omega
  | invalidate dropped fpgaLossOnly =>
      obtain ⟨hfree, ⟨⟩⟩ := Option.ite_none_right_eq_some.mp hs
      exact h.invalidate_step hfree dropped fpgaLossOnly
  | expectId epochId =>
      obtain ⟨hfree, ⟨⟩⟩ := Option.ite_none_right_eq_some.mp hs
      exact h.expectId_step hfree epochId hreg
  | stageMinTimestamp minTimestamp epochId inTime =>
      obtain ⟨hfree, ⟨⟩⟩ := Option.ite_none_right_eq_some.mp hs
      exact h.stageMinTimestamp_step hfree minTimestamp epochId inTime
  | activate admitted =>
      obtain ⟨hfree, ⟨⟩⟩ := Option.ite_none_right_eq_some.mp hs
      exact h.activate_step hfree admitted

theorem start_kept (epochContract : Bool) : (start epochContract).Kept cfg stream := by
  refine ⟨.of_header rfl (fun h => by cases h), ?_, ?_, ?_, ?_, List.nodup_nil⟩
  · intro h
    exact ⟨h, h⟩
  · intro c hc
    cases hc
  · intro r hr
    cases hr
  · intro x hx
    cases hx

/-- In every run without the steps that break a read, each call that returned
samples returned consecutive ones from the timestamp asked for, short only with
an error or a mark, and no sample was returned twice. -/
theorem syncRx_contiguous (cfg : MetaConfig) (stream : MetaStream) (epochContract : Bool)
    (acts : List RxReaderAct) (s : RxReader)
    (hrun : Lib.Steps (step cfg stream) (RegularStep cfg stream) (start epochContract)
      acts s) :
    (∀ r ∈ s.returned, 0 < r.userMeta.actualCount → r.Contiguous cfg stream) ∧
      (s.returned.flatMap RxReturn.samples).Nodup := by
  have h : s.Kept cfg stream :=
    hrun.invariant (start_kept epochContract) (fun h hok hs => h.step hok hs)
  refine ⟨h.contiguous, h.nodup.sublist ?_⟩
  exact List.sublist_append_right _ _

/-- An `RX_NOW` read of six samples, then a read at 113 that seeks. -/
theorem syncRx_contiguous_steadyStream :
    ∃ s : RxReader,
      Lib.exec (step smallBuffers steadyStream) (RegularStep smallBuffers steadyStream)
        (start false) (quietCall ⟨6, true, 0#64, true⟩ 8 ++ quietCall ⟨2, false, 113#64, true⟩ 9) =
          some s ∧
      s.returned.map (fun r => r.userMeta.actualCount) = [2, 6] ∧
      (∀ r ∈ s.returned, 0 < r.userMeta.actualCount →
        r.Contiguous smallBuffers steadyStream) ∧
      (s.returned.flatMap RxReturn.samples).Nodup := by
  have hs : ∃ s : RxReader,
      Lib.exec (step smallBuffers steadyStream) (RegularStep smallBuffers steadyStream)
        (start false) (quietCall ⟨6, true, 0#64, true⟩ 8 ++ quietCall ⟨2, false, 113#64, true⟩ 9) =
          some s ∧
      s.returned.map (fun r => r.userMeta.actualCount) = [2, 6] :=
    ⟨_, rfl, rfl⟩
  obtain ⟨s, hexec, hcounts⟩ := hs
  exact ⟨s, hexec, hcounts, syncRx_contiguous smallBuffers steadyStream false _ s
    (Lib.Steps.of_exec hexec)⟩

/-- A message at 100, and after it one that starts before the boundary at 50. -/
def steppingBack : MetaStream :=
  fun _ msg => taggedHeader 7#8 (if msg = 0 then 100#64 else 48#64)

/-- An epoch certified from 50 on, and an `RX_NOW` read of six samples in it. -/
def prefixRead : List RxReaderAct :=
  transition 7#8 50#64 ++ quietCall ⟨6, true, 0#64, true⟩ 9

/-- Two samples, a read at 105 whose deadline passes after the seek, and two
samples again. -/
def interruptedSeek : List RxReaderAct :=
  quietCall ⟨2, true, 0#64, true⟩ 6 ++
    [RxReaderAct.call ⟨2, false, 105#64, true⟩, .enter, .turn quietTurn,
      .turn { quietTurn with deadline := bladerfErrTimeout }, .leave] ++
    quietCall ⟨2, true, 0#64, true⟩ 3

/-- A read skips the prefix of a message after it has samples, and returns
samples at 100 to 103 and at 50 and 51 as six consecutive ones, without an error
or a mark; and a seek that leads back lets the next call return two samples a
second time. -/
theorem syncRx_not_contiguous :
    (∃ (s : RxReader) (r : RxReturn),
      Lib.Steps (step smallBuffers steppingBack) (fun _ _ => True) (start false)
        prefixRead s ∧
      r ∈ s.returned ∧ r.userMeta.actualCount = 6 ∧ r.status = 0 ∧
      r.userMeta.overrun = false ∧ ¬r.Contiguous smallBuffers steppingBack) ∧
    ∃ s : RxReader,
      Lib.Steps (step smallBuffers steadyStream) (fun _ _ => True) (start false)
        interruptedSeek s ∧
      ¬(s.returned.flatMap RxReturn.samples).Nodup := by
  constructor
  · refine ⟨_, _, Lib.Steps.of_exec rfl, List.mem_cons_self, rfl, rfl, by decide, ?_⟩
    intro h
    exact absurd (h.times 4 ⟨0, 1, 2⟩ rfl) (by decide)
  · refine ⟨_, Lib.Steps.of_exec rfl, ?_⟩
    decide

end RxReader

end BladeRF
