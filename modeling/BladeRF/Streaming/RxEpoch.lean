/-
# `Streaming.RxEpoch` — a certified epoch is what a read returns

A read that returns samples while the epoch filter is on returns samples of the
expected epoch, at or after its first valid timestamp, and was not overtaken by
a change of the generation; a read that was overtaken returns nothing.

The second half holds in every run: the last section of a call compares the
generation with the snapshot of its start.  The first half rests on how a
transition uses the fence.  A setter does not recall samples that a call has
copied; that is what the generation is for, and a transition advances it first.
And `sync_rx_epoch_stage_min_timestamp_before_deadline` leaves the message at
hand as it is; `sync_rx_epoch_expect_id` comes before it and marks it.
-/
import BladeRF.Streaming.RxPosition
import BladeRF.Streaming.RxReader

namespace BladeRF

open RxReader RxParser

variable {cfg : MetaConfig} {stream : MetaStream} {fence : RxEpochFence}

/-- A sample of the expected epoch, at or after its first valid timestamp. -/
def RxSample.Certified (cfg : MetaConfig) (stream : MetaStream) (fence : RxEpochFence)
    (x : RxSample) : Prop :=
  metadataRxEpochMatches (stream x.buffer x.msg) fence.expectedId = true ∧
    metadataTimestampAtOrAfter (x.timestamp cfg stream) fence.minTimestamp = true

structure RxEpochFence.Coherent (fence : RxEpochFence) : Prop where
  closed : fence.Closed
  boundary : fence.idFilterEnabled = true → fence.boundaryEnabled = true

/-- The message the parser is inside of passed the fence as it is now, or will be
dropped. -/
def MsgCertified (stream : MetaStream) (fence : RxEpochFence) (p : RxParser) : Prop :=
  p.metaState = .samples → p.msgEpochFilteredOut = false → fence.idFilterEnabled = true →
    fence.dataInvalidated = false ∧
      metadataRxEpochMatches (stream p.consumed p.msgNum) fence.expectedId = true

def RxRead.Aligned (cfg : MetaConfig) (r : RxRead) : Prop :=
  cfg.samplesPerTs ∣ r.numSamples ∧ cfg.samplesPerTs ∣ r.dest.length

/-- The rest of the message at hand lies in the half of the range that counts as
after the boundary; the source requires this of an epoch. -/
def inHalfRange (cfg : MetaConfig) (fence : RxEpochFence) (p : RxParser) : Prop :=
  (p.currTimestamp - fence.minTimestamp).toNat + p.leftInMsg cfg / cfg.samplesPerTs ≤ 2 ^ 63

variable {p : RxParser} {r : RxRead}

/-! ## Turns -/

/-- What a turn does to the copy: nothing, or it adds certified samples. -/
def Adds (cfg : MetaConfig) (stream : MetaStream) (fence : RxEpochFence) (r r' : RxRead) : Prop :=
  r'.numSamples = r.numSamples ∧
    ∃ new : List RxSample, r'.dest = r.dest ++ new ∧ cfg.samplesPerTs ∣ new.length ∧
      (fence.idFilterEnabled = true → ∀ x ∈ new, x.Certified cfg stream fence)

theorem Adds.nothing {r' : RxRead} (hnum : r'.numSamples = r.numSamples)
    (hdest : r'.dest = r.dest) : Adds cfg stream fence r r' :=
  ⟨hnum, [], by simp [hdest], Nat.dvd_zero _, by simp⟩

theorem atOrAfter_add {t m : BitVec 64} {n k : ℕ} (h : (t - m).toNat + n ≤ 2 ^ 63) (hk : k < n) :
    metadataTimestampAtOrAfter (t + BitVec.ofNat 64 k) m = true := by
  unfold metadataTimestampAtOrAfter
  rw [decide_eq_true_eq]
  bv_omega

theorem chunk_certified (ha : p.AtSample cfg stream) (hf : p.msgEpochFilteredOut = false)
    (hmatch : metadataRxEpochMatches (stream p.consumed p.msgNum) fence.expectedId = true)
    (hrange : inHalfRange cfg fence p) {count : ℕ} (hcount : count ≤ p.leftInMsg cfg)
    {x : RxSample} (hx : x ∈ p.chunk count) : x.Certified cfg stream fence := by
  unfold chunk at hx
  obtain ⟨i, hi, rfl⟩ := List.mem_map.mp hx
  rw [List.mem_range] at hi
  refine ⟨?_, ?_⟩
  · rw [ha.currMsg]
    exact hmatch
  · rw [ha.sample_timestamp hf]
    refine atOrAfter_add hrange ?_
    obtain ⟨k, hk⟩ := leftInMsg_dvd ha
    rw [hk, Nat.mul_div_cancel_left _ cfg.samplesPerTs_pos]
    refine Nat.div_lt_of_lt_mul ?_
    omega

theorem copySamples_adds {admission : BitVec 32} (ha : p.AtSample cfg stream)
    (hf : p.msgEpochFilteredOut = false)
    (hmsg : fence.idFilterEnabled = true →
      metadataRxEpochMatches (stream p.consumed p.msgNum) fence.expectedId = true)
    (hrange : fence.idFilterEnabled = true → inHalfRange cfg fence p) (hr : r.Aligned cfg) :
    Adds cfg stream fence r (p.copySamples cfg stream fence admission r).2 := by
  unfold copySamples
  split
  · exact .nothing rfl rfl
  · refine ⟨rfl, p.chunk (samplesToCopy cfg p r), rfl, ?_, ?_⟩
    · simp only [chunk, List.length_map, List.length_range]
      exact samplesToCopy_dvd ha hr.1 hr.2
    · intro hfilter x hx
      exact chunk_certified ha hf (hmsg hfilter) (hrange hfilter) (Nat.min_le_right _ _) hx

def reachesCopy (fence : RxEpochFence) (p : RxParser) (r : RxRead) : Bool :=
  p.metaState == .samples && !(fence.dataInvalidated || p.msgEpochFilteredOut) &&
    !(fence.boundaryEnabled && !metadataTimestampAtOrAfter p.currTimestamp fence.minTimestamp) &&
    (r.userMeta.rxNow || r.targetTimestamp == p.currTimestamp)

theorem MsgCertified.of_header (hm : p.metaState = .header) : MsgCertified stream fence p := by
  intro hs
  exact absurd (hm.symm.trans hs) (by decide)

theorem MsgCertified.forward (h : MsgCertified stream fence p) {off : ℕ} {now : BitVec 64} :
    MsgCertified stream fence { p with currMsgOff := off, currTimestamp := now } :=
  h

theorem MsgCertified.takeSamples (h : MsgCertified stream fence p) {count : ℕ} :
    MsgCertified stream fence (p.takeSamples cfg count) := by
  unfold RxParser.takeSamples
  dsimp only
  split
  · exact .of_header nextMessage_metaState
  · exact h.forward

theorem metaHeader_certified (hcoherent : fence.Coherent) (p : RxParser) (r : RxRead) :
    MsgCertified stream fence (p.metaHeader stream fence r).1 := by
  have hsamples : MsgCertified stream fence
      (p.readHeader fence (stream p.consumed p.msgNum)).enterSamples := by
    have hmatch : filteredOut fence (stream p.consumed p.msgNum) = false →
        fence.idFilterEnabled = true → fence.dataInvalidated = false ∧
          metadataRxEpochMatches (stream p.consumed p.msgNum) fence.expectedId = true := by
      intro hf hfilter
      simpa [filteredOut, epochMatches, hfilter,
        hcoherent.boundary hfilter] using hf
    unfold enterSamples
    split
    · intro _ hf hfilter
      exact hmatch hf hfilter
    · intro _ hf hfilter
      exact hmatch hf hfilter
  unfold metaHeader
  dsimp only
  split
  · exact .of_header rfl
  · exact hsamples
  · exact hsamples
  · exact hsamples
  · exact hsamples

theorem metaHeader_adds (p : RxParser) (r : RxRead) :
    Adds cfg stream fence r (p.metaHeader stream fence r).2 := by
  unfold metaHeader
  dsimp only
  split
  all_goals exact .nothing rfl rfl

theorem noteDropped_adds : Adds cfg stream fence r (p.noteDropped r) := by
  unfold noteDropped
  split
  · exact .nothing rfl rfl
  · split
    · split
      · exact .nothing rfl rfl
      · split
        · exact .nothing rfl rfl
        · exact .nothing rfl rfl
    · exact .nothing rfl rfl

theorem metaSamples_certified {admission : BitVec 32} (h : p.Sound cfg stream)
    (hm : p.metaState = .samples) (hmsg : MsgCertified stream fence p) (hr : r.Aligned cfg)
    (hrange : fence.idFilterEnabled = true → reachesCopy fence p r = true →
      inHalfRange cfg fence p) :
    MsgCertified stream fence (p.metaSamples cfg stream fence admission r).1 ∧
      Adds cfg stream fence r (p.metaSamples cfg stream fence admission r).2 := by
  unfold metaSamples
  split
  · exact ⟨.of_header nextMessage_metaState, noteDropped_adds⟩
  · rename_i hdrop
    split
    · refine ⟨?_, .nothing rfl rfl⟩
      unfold skipToBoundary
      dsimp only
      split
      · exact .of_header nextMessage_metaState
      · exact hmsg.forward
    · rename_i hbefore
      split
      · exact ⟨hmsg, .nothing rfl rfl⟩
      · split
        · rename_i hgo
          have hreach : reachesCopy fence p r = true := by
            simp only [reachesCopy, hm, BEq.rfl, Bool.true_and, Bool.and_eq_true]
            refine ⟨⟨by simpa using hdrop, ?_⟩, hgo⟩
            rw [Bool.eq_false_iff.mpr hbefore]
            rfl
          simp only [Bool.or_eq_true, not_or, Bool.not_eq_true] at hdrop
          refine ⟨?_, copySamples_adds (h.atSample hm) hdrop.2
            (fun hfilter => (hmsg hm hdrop.2 hfilter).2)
            (fun hfilter => hrange hfilter hreach) hr⟩
          unfold copySamples
          split
          · intro _ hf
            cases hf
          · exact hmsg.takeSamples
        · refine ⟨?_, .nothing rfl rfl⟩
          unfold seek
          dsimp only
          split
          · exact .of_header rfl
          · split
            · exact hmsg.forward
            · exact .of_header rfl

theorem dispatch_certified (t : MetaTurn) (h : p.Sound cfg stream)
    (hmsg : MsgCertified stream fence p) (hcoherent : fence.Coherent) (hr : r.Aligned cfg)
    (hrange : p.syncState = .usingBufferMeta → fence.idFilterEnabled = true →
      reachesCopy fence p r = true → inHalfRange cfg fence p) :
    (dispatch cfg stream fence t p r).1.Sound cfg stream ∧
      MsgCertified stream fence (dispatch cfg stream fence t p r).1 ∧
      Adds cfg stream fence r (dispatch cfg stream fence t p r).2.2 := by
  rcases dispatch_cases cfg stream fence t p r with ⟨hs, heq⟩ | ⟨hne, hi, -⟩
  · rw [heq]
    refine ⟨usingBufferMeta_sound h hs hr.1 hr.2, ?_⟩
    dsimp only
    unfold usingBufferMeta
    cases hm : p.metaState with
    | header => exact ⟨metaHeader_certified hcoherent p r, metaHeader_adds p r⟩
    | samples => exact metaSamples_certified h hm hmsg hr (hrange hs)
  · have hm := hi.metaState (h.header_of_ne hne)
    refine ⟨.of_header hm ?_, .of_header hm, .nothing hi.noCopy.numSamples hi.noCopy.dest⟩
    intro hu
    rw [hi.msgNum hu]
    exact cfg.msgPerBuf_pos

/-! ## Calls -/

/-- A call that returns samples while the filter is on was not overtaken, and its
samples are certified by the fence at its return. -/
def RxReturn.Certified (cfg : MetaConfig) (stream : MetaStream) (r : RxReturn) : Prop :=
  0 < r.userMeta.actualCount → r.fence.idFilterEnabled = true →
    r.returnGeneration = r.startGeneration ∧
      ∀ x ∈ r.dest, ∃ y : RxSample, x = some y ∧ y.Certified cfg stream r.fence

/-- A call that was overtaken returns an error, and what it copied is zero. -/
def RxReturn.FailsClosed (r : RxReturn) : Prop :=
  r.returnGeneration ≠ r.startGeneration →
    r.status = bladerfErrWouldBlock ∧ r.userMeta.actualCount = 0 ∧ ∀ x ∈ r.dest, x = none

namespace RxReader

variable {s s' : RxReader} {c : RxCallState}

structure CallCertified (cfg : MetaConfig) (stream : MetaStream) (s : RxReader)
    (c : RxCallState) : Prop where
  generation_le : c.generation ≤ s.generation
  aligned : c.read.Aligned cfg
  entered : c.point = .entered → c.read.dest = []
  waiting : c.point = .waiting → s.parser.syncState = .waitForBuffer
  certified : s.generation = c.generation → s.fence.idFilterEnabled = true →
    ∀ x ∈ c.read.dest, x.Certified cfg stream s.fence

structure Fenced (cfg : MetaConfig) (stream : MetaStream) (s : RxReader) : Prop where
  sound : s.parser.Sound cfg stream
  coherent : s.fence.Coherent
  msg : MsgCertified stream s.fence s.parser
  call : ∀ c, s.call = some c → s.CallCertified cfg stream c
  returned : ∀ r ∈ s.returned, r.Certified cfg stream

def NothingToRecall (s : RxReader) : Prop :=
  ∀ c ∈ s.call, s.generation = c.generation → c.read.dest = []

/-- How a transition uses the fence: it moves the fence only when there is nothing
to recall, and stages a boundary only when no message is being delivered.  And an
epoch spans less than half the range of timestamps. -/
def TransitionStep (cfg : MetaConfig) (s : RxReader) : RxReaderAct → Prop
  | .turn t => ∀ c ∈ s.call, s.dispatches c t = true →
      s.parser.syncState = .usingBufferMeta → s.fence.idFilterEnabled = true →
      reachesCopy s.fence s.parser c.read = true → inHalfRange cfg s.fence s.parser
  | .invalidate _ _ | .expectId _ => s.NothingToRecall
  | .stageMinTimestamp _ _ _ => s.NothingToRecall ∧
      (s.parser.metaState = .samples → s.parser.msgEpochFilteredOut = true)
  | _ => True

instance : Decidable s.NothingToRecall :=
  inferInstanceAs (Decidable (∀ c ∈ s.call, _))

instance : Decidable (inHalfRange cfg fence p) :=
  inferInstanceAs (Decidable (_ ≤ _))

instance : (a : RxReaderAct) → Decidable (TransitionStep cfg s a)
  | .turn _ => inferInstanceAs (Decidable (∀ c ∈ s.call, _))
  | .invalidate _ _ | .expectId _ => inferInstanceAs (Decidable s.NothingToRecall)
  | .stageMinTimestamp _ _ _ => inferInstanceAs (Decidable (_ ∧ (_ → _)))
  | .call _ | .enter | .wake _ _ | .leave | .overrun | .advanceGeneration | .activate _ =>
      inferInstanceAs (Decidable True)

section

variable (h : s.Fenced cfg stream)

include h

theorem Fenced.of_same (hsound : s'.parser.Sound cfg stream)
    (hfence : s'.fence = s.fence) (hmsg : MsgCertified stream s.fence s'.parser)
    (hreturned : s'.returned = s.returned)
    (hcall : ∀ c, s'.call = some c → s'.CallCertified cfg stream c) : s'.Fenced cfg stream := by
  refine ⟨hsound, ?_, ?_, hcall, ?_⟩
  · rw [hfence]
    exact h.coherent
  · rw [hfence]
    exact hmsg
  · rw [hreturned]
    exact h.returned

theorem Fenced.call_step {request : RxRequest}
    (haligned : syncSampleCountAligned cfg request = true) :
    { s with call := some ⟨.entered, request, s.generation, request.read⟩ }.Fenced
      cfg stream := by
  refine h.of_same h.sound rfl h.msg rfl ?_
  rintro c ⟨⟩
  refine ⟨Nat.le_refl _, ⟨Nat.dvd_of_mod_eq_zero (beq_iff_eq.mp haligned), Nat.dvd_zero _⟩,
    fun _ => rfl, ?_, ?_⟩
  · intro h'
    cases h'
  · intro _ _ x hx
    cases hx

section

variable (hcall : s.call = some c)

include hcall

theorem Fenced.enter_step
    (hp : c.point = .entered) : (s.enter c).Fenced cfg stream := by
  have hc := h.call c hcall
  have hdest := hc.entered hp
  unfold enter
  dsimp only
  generalize (if s.overrunPending then c.read.userMeta.markOverrun else c.read.userMeta) = user
  have hnone : ∀ c' : RxCallState, c'.generation = c.generation →
      c'.read.numSamples = c.read.numSamples → c'.read.dest = c.read.dest →
      (c'.point = .out ∨ c'.point = .loop) →
      { s with overrunPending := false, call := some c' }.CallCertified cfg stream c' := by
    intro c' hgen hnum hd hpoint
    refine ⟨?_, ?_, fun _ => hd.trans hdest, ?_, ?_⟩
    · rw [hgen]
      exact hc.generation_le
    · unfold RxRead.Aligned
      rw [hnum, hd]
      exact hc.aligned
    · intro h'
      rcases hpoint with hp' | hp'
      · rw [hp'] at h'
        cases h'
      · rw [hp'] at h'
        cases h'
    · intro _ _ x hx
      rw [hd, hdest] at hx
      cases hx
  split
  · refine h.of_same h.sound rfl h.msg rfl ?_
    rintro c' ⟨⟩
    exact hnone _ rfl rfl rfl (.inl rfl)
  · refine h.of_same h.sound rfl h.msg rfl ?_
    rintro c' ⟨⟩
    exact hnone _ rfl rfl rfl (.inr rfl)

theorem Fenced.leaveLoop (status : ℤ) :
    { s with call := some (leaveLoop c status) }.Fenced cfg stream := by
  have hc := h.call c hcall
  refine h.of_same h.sound rfl h.msg rfl ?_
  rintro c' ⟨⟩
  refine ⟨hc.generation_le, hc.aligned, ?_, ?_, hc.certified⟩
  · intro h'
    cases h'
  · intro h'
    cases h'

theorem Fenced.dispatch (t : MetaTurn)
    (hrange : s.parser.syncState = .usingBufferMeta → s.fence.idFilterEnabled = true →
      reachesCopy s.fence s.parser c.read = true → inHalfRange cfg s.fence s.parser) :
    { s with
      parser := (dispatch cfg stream s.fence t s.parser c.read).1
      call := some
        { c with
          point := (dispatch cfg stream s.fence t s.parser c.read).2.1
          read := (dispatch cfg stream s.fence t s.parser c.read).2.2 } }.Fenced cfg stream := by
  have hc := h.call c hcall
  obtain ⟨hsound, hmsg, hnum, new, hdest, hdvd, hnew⟩ :=
    dispatch_certified t h.sound h.msg h.coherent hc.aligned hrange
  have hpoint := dispatch_point cfg stream s.fence t s.parser c.read
  generalize RxReader.dispatch cfg stream s.fence t s.parser c.read = q
    at hsound hmsg hnum hdest hpoint ⊢
  obtain ⟨p, point, r⟩ := q
  dsimp only at hsound hmsg hnum hdest hpoint ⊢
  refine h.of_same hsound rfl hmsg rfl ?_
  rintro c' ⟨⟩
  refine ⟨hc.generation_le, ?_, ?_, ?_, ?_⟩
  · refine ⟨?_, ?_⟩
    · dsimp only
      rw [hnum]
      exact hc.aligned.1
    · dsimp only
      rw [hdest, List.length_append]
      exact Nat.dvd_add hc.aligned.2 hdvd
  · intro h'
    dsimp only at h'
    rcases hpoint with hl | ⟨hw, -⟩
    · rw [hl] at h'
      cases h'
    · rw [hw] at h'
      cases h'
  · intro h'
    dsimp only at h' ⊢
    rcases hpoint with hl | ⟨-, hs, -⟩
    · rw [hl] at h'
      cases h'
    · exact hs
  · intro hgen hfilter x hx
    dsimp only at hx
    rw [hdest] at hx
    rcases List.mem_append.mp hx with hx | hx
    · exact hc.certified hgen hfilter x hx
    · exact hnew hfilter x hx

theorem Fenced.turn_step (t : MetaTurn)
    (hrange : s.dispatches c t = true → s.parser.syncState = .usingBufferMeta →
      s.fence.idFilterEnabled = true → reachesCopy s.fence s.parser c.read = true →
      inHalfRange cfg s.fence s.parser) :
    (s.turn cfg stream c t).Fenced cfg stream := by
  unfold turn
  split
  · exact h.leaveLoop hcall _
  · rename_i hdone
    split
    · exact h.leaveLoop hcall _
    · rename_i hgen
      split
      · exact h.leaveLoop hcall _
      · rename_i hlate
        refine h.dispatch hcall t (hrange ?_)
        simp only [dispatches, Bool.eq_false_iff.mpr hdone, not_not.mp hgen,
          Bool.eq_false_iff.mpr hlate, BEq.rfl, Bool.not_false, Bool.and_self]

theorem Fenced.wake_step
    (hp : c.point = .waiting) (status : ℤ) (full : Bool) :
    (s.wake c status full).Fenced cfg stream := by
  have hc := h.call c hcall
  have hne : s.parser.syncState ≠ .usingBufferMeta := by
    rw [hc.waiting hp]
    decide
  have hm := h.sound.header_of_ne hne
  have hstate : (if status = 0 ∧ full = true then SyncState.bufferReady else .checkWorker) ≠
      .usingBufferMeta := by
    split
    · decide
    · decide
  refine h.of_same (.of_header hm (fun hu => absurd hu hstate)) rfl (.of_header hm) rfl ?_
  rintro c' ⟨⟩
  refine ⟨hc.generation_le, hc.aligned, ?_, ?_, hc.certified⟩
  · intro h'
    cases h'
  · intro h'
    cases h'

end

end

theorem result_failsClosed (s : RxReader) (c : RxCallState) : (s.result c).FailsClosed := by
  unfold result
  dsimp only
  by_cases hgen : s.generation ≠ c.generation
  · rw [if_pos hgen]
    intro _
    refine ⟨rfl, rfl, ?_⟩
    intro x hx
    obtain ⟨y, -, rfl⟩ := List.mem_map.mp hx
    rfl
  · rw [if_neg hgen]
    intro hne
    exact absurd hne hgen

theorem CallCertified.result (h : s.CallCertified cfg stream c) :
    (s.result c).Certified cfg stream := by
  unfold RxReader.result
  dsimp only
  by_cases hgen : s.generation ≠ c.generation
  · rw [if_pos hgen]
    intro hpos
    dsimp only at hpos
    omega
  · rw [if_neg hgen]
    have hgen' := not_not.mp hgen
    intro _ hfilter
    refine ⟨hgen', ?_⟩
    intro x hx
    obtain ⟨y, hy, rfl⟩ := List.mem_map.mp hx
    exact ⟨y, rfl, h.certified hgen' hfilter y hy⟩

theorem Fenced.leave_step (h : s.Fenced cfg stream) (hcall : s.call = some c) :
    (s.leave c).Fenced cfg stream := by
  refine ⟨h.sound, h.coherent, h.msg, ?_, ?_⟩
  · intro c' h'
    cases h'
  · intro r hr
    rcases List.mem_cons.mp hr with rfl | hr
    · exact (h.call c hcall).result
    · exact h.returned r hr

/-! ## Setters -/

section

variable (h : s.Fenced cfg stream)

include h

section

variable (hrecall : s.NothingToRecall)

include hrecall

theorem Fenced.setter
    {fence : RxEpochFence} {p : RxParser} {pending : Bool}
    (hcoherent : fence.Coherent) (hsound : p.Sound cfg stream)
    (hmsg : MsgCertified stream fence p)
    (hstate : s.parser.syncState = .waitForBuffer → p.syncState = .waitForBuffer) :
    { s with fence := fence, parser := p, overrunPending := pending }.Fenced cfg stream := by
  refine ⟨hsound, hcoherent, hmsg, ?_, h.returned⟩
  intro c hcall
  have hc := h.call c hcall
  refine ⟨hc.generation_le, hc.aligned, hc.entered, fun hw => hstate (hc.waiting hw), ?_⟩
  intro hgen _ x hx
  rw [hrecall c hcall hgen] at hx
  cases hx

theorem Fenced.invalidate_step
    (dropped : ℕ) (fpgaLossOnly : Bool) : (s.invalidate dropped fpgaLossOnly).Fenced cfg stream := by
  have hcoherent : RxEpochFence.Coherent
      { s.fence with
        boundaryEnabled := true
        minTimestamp := 0#64
        idFilterEnabled := true
        dataInvalidated := true
        transitionPending := false } := ⟨fun _ => ⟨rfl, rfl⟩, fun _ => rfl⟩
  unfold invalidate
  dsimp only
  by_cases hin : s.parser.syncState = .bufferReady ∨ s.parser.syncState = .usingBufferMeta
  · rw [if_pos hin]
    exact h.setter hrecall hcoherent (.of_header rfl (fun hu => by cases hu)) (.of_header rfl)
      (fun _ => rfl)
  · rw [if_neg hin]
    have hne : s.parser.syncState ≠ .usingBufferMeta := fun hu => hin (.inr hu)
    have hm := h.sound.header_of_ne hne
    exact h.setter hrecall hcoherent (.of_header hm (fun hu => absurd hu hne)) (.of_header hm)
      (fun hs => hs)

theorem Fenced.expectId_step
    (epochId : BitVec 8) : (s.expectId epochId).Fenced cfg stream := by
  unfold expectId
  refine h.setter hrecall ⟨fun _ => ⟨rfl, rfl⟩, fun _ => rfl⟩ h.sound.refenced ?_ (fun hs => hs)
  intro hm hf
  -- the message at hand is filtered out
  simp [(h.sound.atSample hm).inBuffer, show s.parser.metaState = .samples from hm] at hf

theorem Fenced.stageMinTimestamp_step
    (hstage : s.parser.metaState = .samples → s.parser.msgEpochFilteredOut = true)
    (minTimestamp : BitVec 64) (epochId : BitVec 8) (inTime : Bool) :
    (s.stageMinTimestamp minTimestamp epochId inTime).Fenced cfg stream := by
  unfold stageMinTimestamp
  split
  · refine h.setter hrecall ⟨fun _ => ⟨rfl, rfl⟩, fun _ => rfl⟩ h.sound ?_ (fun hs => hs)
    intro hm hf
    exact absurd ((hstage hm).symm.trans hf) (by decide)
  · exact h

end

theorem Fenced.activate_step (admitted : Bool) :
    (s.activate admitted).Fenced cfg stream := by
  unfold activate
  split
  · refine ⟨h.sound, ⟨(fun hd => by cases hd), h.coherent.boundary⟩, ?_, ?_, h.returned⟩
    · intro hm hf hfilter
      exact ⟨rfl, (h.msg hm hf hfilter).2⟩
    · intro c hcall
      have hc := h.call c hcall
      exact ⟨hc.generation_le, hc.aligned, hc.entered, hc.waiting, hc.certified⟩
  · exact h

end

/-! ## Runs -/

theorem Fenced.step {a : RxReaderAct} (h : s.Fenced cfg stream) (hok : TransitionStep cfg s a)
    (hs : step cfg stream s a = some s') : s'.Fenced cfg stream := by
  cases a with
  | call request =>
      simp only [RxReader.step, Bool.and_eq_true, Option.isNone_iff_eq_none,
        Option.ite_none_right_eq_some, Option.some.injEq] at hs
      obtain ⟨⟨-, haligned⟩, rfl⟩ := hs
      exact h.call_step haligned
  | enter =>
      obtain ⟨c, hcall, hp, rfl⟩ := call_of_point hs
      exact h.enter_step hcall hp
  | turn t =>
      obtain ⟨c, hcall, -, rfl⟩ := call_of_point hs
      exact h.turn_step hcall t (hok c hcall)
  | wake status full =>
      obtain ⟨c, hcall, hp, rfl⟩ := call_of_point hs
      exact h.wake_step hcall hp status full
  | leave =>
      obtain ⟨c, hcall, -, rfl⟩ := call_of_point hs
      exact h.leave_step hcall
  | overrun =>
      cases hs
      refine h.of_same h.sound rfl h.msg rfl ?_
      intro c hcall
      have hc := h.call c hcall
      exact ⟨hc.generation_le, hc.aligned, hc.entered, hc.waiting, hc.certified⟩
  | advanceGeneration =>
      cases hs
      refine h.of_same h.sound rfl h.msg rfl ?_
      intro c hcall
      have hc := h.call c hcall
      refine ⟨Nat.le_succ_of_le hc.generation_le, hc.aligned, hc.entered, hc.waiting, ?_⟩
      intro hgen
      have := hc.generation_le
      dsimp only at hgen
      omega
  | invalidate dropped fpgaLossOnly =>
      obtain ⟨-, ⟨⟩⟩ := Option.ite_none_right_eq_some.mp hs
      exact h.invalidate_step hok dropped fpgaLossOnly
  | expectId epochId =>
      obtain ⟨-, ⟨⟩⟩ := Option.ite_none_right_eq_some.mp hs
      exact h.expectId_step hok epochId
  | stageMinTimestamp minTimestamp epochId inTime =>
      obtain ⟨-, ⟨⟩⟩ := Option.ite_none_right_eq_some.mp hs
      exact h.stageMinTimestamp_step hok.1 hok.2 minTimestamp epochId inTime
  | activate admitted =>
      obtain ⟨-, ⟨⟩⟩ := Option.ite_none_right_eq_some.mp hs
      exact h.activate_step admitted

theorem start_fenced (epochContract : Bool) : (start epochContract).Fenced cfg stream := by
  refine ⟨.of_header rfl (fun h => by cases h), ⟨fun h => ⟨h, h⟩, fun h => h⟩, .of_header rfl, ?_,
    ?_⟩
  · intro c hc
    cases hc
  · intro r hr
    cases hr

theorem step_returned {a : RxReaderAct} (hs : step cfg stream s a = some s') :
    s'.returned = s.returned ∨ ∃ c, s'.returned = s.result c :: s.returned := by
  cases a with
  | call request =>
      obtain ⟨-, ⟨⟩⟩ := Option.ite_none_right_eq_some.mp hs
      exact .inl rfl
  | enter =>
      obtain ⟨c, -, -, rfl⟩ := call_of_point hs
      exact .inl rfl
  | turn t =>
      obtain ⟨c, -, -, rfl⟩ := call_of_point hs
      refine .inl ?_
      unfold turn
      split
      · rfl
      · split
        · rfl
        · split
          · rfl
          · rfl
  | wake status full =>
      obtain ⟨c, -, -, rfl⟩ := call_of_point hs
      exact .inl rfl
  | leave =>
      obtain ⟨c, -, -, rfl⟩ := call_of_point hs
      exact .inr ⟨c, rfl⟩
  | overrun | advanceGeneration =>
      cases hs
      exact .inl rfl
  | invalidate dropped fpgaLossOnly =>
      obtain ⟨-, ⟨⟩⟩ := Option.ite_none_right_eq_some.mp hs
      exact .inl rfl
  | expectId epochId =>
      obtain ⟨-, ⟨⟩⟩ := Option.ite_none_right_eq_some.mp hs
      exact .inl rfl
  | stageMinTimestamp minTimestamp epochId inTime =>
      obtain ⟨-, ⟨⟩⟩ := Option.ite_none_right_eq_some.mp hs
      refine .inl ?_
      unfold stageMinTimestamp
      split
      · rfl
      · rfl
  | activate admitted =>
      obtain ⟨-, ⟨⟩⟩ := Option.ite_none_right_eq_some.mp hs
      refine .inl ?_
      unfold activate
      split
      · rfl
      · rfl

theorem run_failsClosed {epochContract : Bool} {acts : List RxReaderAct}
    (hrun : Lib.Steps (step cfg stream) (fun _ _ => True) (start epochContract) acts s) :
    ∀ r ∈ s.returned, r.FailsClosed := by
  refine hrun.invariant (P := fun s => ∀ r ∈ s.returned, r.FailsClosed) ?_ ?_
  · intro r hr
    cases hr
  · intro s a s' h _ hs r hr
    rcases step_returned hs with heq | ⟨c, heq⟩
    · rw [heq] at hr
      exact h r hr
    · rw [heq] at hr
      rcases List.mem_cons.mp hr with rfl | hr
      · exact result_failsClosed s c
      · exact h r hr

/-- In every run a call that was overtaken fails closed, and in every run in which
transitions use the fence as intended a call returns certified samples. -/
theorem syncRx_certified (cfg : MetaConfig) (stream : MetaStream) (epochContract : Bool)
    (acts : List RxReaderAct) (s : RxReader) :
    (Lib.Steps (step cfg stream) (fun _ _ => True) (start epochContract) acts s →
      ∀ r ∈ s.returned, r.FailsClosed) ∧
    (Lib.Steps (step cfg stream) (TransitionStep cfg) (start epochContract) acts s →
      ∀ r ∈ s.returned, r.Certified cfg stream) := by
  refine ⟨run_failsClosed, ?_⟩
  intro hrun
  have h : s.Fenced cfg stream :=
    hrun.invariant (start_fenced epochContract) (fun h hok hs => h.step hok hs)
  exact h.returned

/-- A transition to epoch 7 from 104 on, a read of it, and a read that the next
transition cancels after it has copied. -/
def certifiedReads : List RxReaderAct :=
  transition 7#8 104#64 ++ quietCall ⟨4, true, 0#64, true⟩ 8 ++
    [RxReaderAct.call ⟨6, true, 0#64, true⟩, .enter] ++ List.replicate 4 (RxReaderAct.turn quietTurn) ++
    [.advanceGeneration, .turn quietTurn, .leave]

theorem syncRx_certified_certifiedReads :
    ∃ s : RxReader,
      Lib.exec (step smallBuffers steadyStream) (TransitionStep smallBuffers)
        (start true) certifiedReads = some s ∧
      s.returned.map (fun r => (r.status, r.userMeta.actualCount, r.dest.length)) =
        [(bladerfErrWouldBlock, 0, 4), (0, 4, 4)] ∧
      ∀ r ∈ s.returned, r.FailsClosed ∧ r.Certified smallBuffers steadyStream := by
  have hs : ∃ s : RxReader,
      Lib.exec (step smallBuffers steadyStream) (TransitionStep smallBuffers)
        (start true) certifiedReads = some s ∧
      s.returned.map (fun r => (r.status, r.userMeta.actualCount, r.dest.length)) =
        [(bladerfErrWouldBlock, 0, 4), (0, 4, 4)] :=
    ⟨_, rfl, rfl⟩
  obtain ⟨s, hexec, hresults⟩ := hs
  have hrun := Lib.Steps.of_exec hexec
  have h := syncRx_certified smallBuffers steadyStream true certifiedReads s
  exact ⟨s, hexec, hresults, fun r hr => ⟨h.1 (hrun.mono fun _ _ _ => trivial) r hr, h.2 hrun r hr⟩⟩

def retunedStream : MetaStream :=
  fun buffer msg => taggedHeader (if buffer = 0 then 7#8 else 8#8)
    (100#64 + BitVec.ofNat 64 (4 * (2 * buffer + msg)))

/-- A read of twelve samples in epoch 7.  While it waits for the second buffer
the fence moves to epoch 8, without a change of the generation. -/
def overtakenRead : List RxReaderAct :=
  transition 7#8 100#64 ++ [RxReaderAct.call ⟨12, true, 0#64, true⟩, .enter] ++
    List.replicate 7 (.turn quietTurn) ++
    [.turn { quietTurn with full := false }, .expectId 8#8, .stageMinTimestamp 108#64 8#8 true,
      .activate true, .wake 0 true] ++
    List.replicate 4 (RxReaderAct.turn quietTurn) ++ [RxReaderAct.leave]

/-- It returns eight samples of epoch 7 and four of epoch 8, with the generation
unchanged and epoch 8 expected. -/
theorem syncRx_not_certified :
    ∃ (s : RxReader) (r : RxReturn),
      Lib.Steps (step smallBuffers retunedStream) (fun _ _ => True) (start true)
        overtakenRead s ∧
      r ∈ s.returned ∧ r.status = 0 ∧ r.userMeta.actualCount = 12 ∧
      r.fence.idFilterEnabled = true ∧ r.returnGeneration = r.startGeneration ∧
      r.fence.expectedId = 8#8 ∧ r.dest.head? = some (some ⟨0, 0, 0⟩) ∧
      metadataGetRxEpochId (retunedStream 0 0) = some 7#8 ∧
      ¬r.Certified smallBuffers retunedStream := by
  refine ⟨_, _, Lib.Steps.of_exec rfl, List.mem_cons_self, rfl, rfl, rfl, rfl, rfl, rfl,
    by decide, ?_⟩
  intro h
  obtain ⟨y, hy, hcertified⟩ := (h (by decide) rfl).2 (some ⟨0, 0, 0⟩) (by decide)
  cases hy
  exact absurd hcertified.1 (by decide)

end RxReader

end BladeRF
