/-
# `Streaming.RxProvenance` — what a META read says about its samples

Beside the samples a call returns the clipping flags of the messages they came
from and the epoch of the first one.  Both are set where samples are copied, so
they are right as long as a copy has samples.  A seek that lands on the very end
of a message is followed by a copy without any: its message then counts as
copied from, and a discontinuity behind it ends the call with nothing to give.
-/
import BladeRF.Streaming.RxEpoch
import BladeRF.Streaming.RxTermination

namespace BladeRF

variable {cfg : MetaConfig} {stream : MetaStream} {fence : RxEpochFence}

/-! ## The provenance of samples -/

def clippingOf (stream : MetaStream) (samples : List RxSample) : BitVec 8 :=
  samples.foldr
    (fun x flags => metadataGetRxClippingFlags (stream x.buffer x.msg) ||| flags) 0#8

def epochOf (stream : MetaStream) (samples : List RxSample) : Option (BitVec 8) :=
  samples.head?.bind fun x => metadataGetRxEpochId (stream x.buffer x.msg)

theorem clippingOf_append (xs ys : List RxSample) :
    clippingOf stream (xs ++ ys) = clippingOf stream xs ||| clippingOf stream ys := by
  induction xs with
  | nil => simp [clippingOf]
  | cons x xs ih =>
      change metadataGetRxClippingFlags _ ||| clippingOf stream (xs ++ ys) = _
      rw [ih, ← BitVec.or_assoc]
      rfl

theorem clippingOf_message {buffer msg : ℕ} {samples : List RxSample} (hne : samples ≠ [])
    (h : ∀ x ∈ samples, x.buffer = buffer ∧ x.msg = msg) :
    clippingOf stream samples = metadataGetRxClippingFlags (stream buffer msg) := by
  induction samples with
  | nil => exact absurd rfl hne
  | cons x xs ih =>
      obtain ⟨hb, hm⟩ := h x List.mem_cons_self
      change metadataGetRxClippingFlags (stream x.buffer x.msg) ||| clippingOf stream xs = _
      rw [hb, hm]
      rcases xs.eq_nil_or_concat with rfl | hcons
      · simp [clippingOf]
      · rw [ih (by rintro rfl; simp at hcons) fun y hy => h y (List.mem_cons_of_mem _ hy),
          BitVec.or_self]

theorem epochOf_append_of_ne {xs ys : List RxSample} (h : xs ≠ []) :
    epochOf stream (xs ++ ys) = epochOf stream xs := by
  cases xs with
  | nil => exact absurd rfl h
  | cons x xs => rfl

theorem epochOf_message {buffer msg : ℕ} {samples : List RxSample} (hne : samples ≠ [])
    (h : ∀ x ∈ samples, x.buffer = buffer ∧ x.msg = msg) :
    epochOf stream samples = metadataGetRxEpochId (stream buffer msg) := by
  cases samples with
  | nil => exact absurd rfl hne
  | cons x xs =>
      obtain ⟨hb, hm⟩ := h x List.mem_cons_self
      simp [epochOf, hb, hm]

/-! ## The locals of a call -/

namespace RxRead

/-- What the caller's metadata says about the samples copied so far. -/
structure Provenance (stream : MetaStream) (r : RxRead) : Prop where
  clipping : r.userMeta.rxClippingFlags = clippingOf stream r.dest
  epoch : r.userMeta.rxEpochId = epochOf stream r.dest
  copied : r.copiedData = true ↔ r.dest ≠ []
  early : r.exitEarly = true → r.dest ≠ []

/-- No copy between two points of a call; an early exit has samples to give. -/
structure Untouched (r r' : RxRead) : Prop where
  clipping : r'.userMeta.rxClippingFlags = r.userMeta.rxClippingFlags
  epoch : r'.userMeta.rxEpochId = r.userMeta.rxEpochId
  copied : r'.copiedData = r.copiedData
  dest : r'.dest = r.dest
  early : r'.exitEarly = true → r.exitEarly = true ∨ r.copiedData = true ∨ r.dest ≠ []

variable {r r' : RxRead}

theorem Untouched.refl (r : RxRead) : r.Untouched r :=
  ⟨rfl, rfl, rfl, rfl, .inl⟩

theorem Untouched.status (r : RxRead) (status : ℤ) : r.Untouched { r with status := status } :=
  ⟨rfl, rfl, rfl, rfl, .inl⟩

theorem Provenance.untouched (h : r.Provenance stream) (hu : r.Untouched r') :
    r'.Provenance stream := by
  refine ⟨?_, ?_, ?_, ?_⟩
  · rw [hu.clipping, hu.dest, h.clipping]
  · rw [hu.epoch, hu.dest, h.epoch]
  · rw [hu.copied, hu.dest, h.copied]
  · intro he
    rw [hu.dest]
    rcases hu.early he with h1 | h1 | h1
    · exact h.early h1
    · exact h.copied.mp h1
    · exact h1

end RxRead

namespace RxParser

variable {p : RxParser} {r : RxRead} {admission : BitVec 32}

theorem headerStatus_provenance (fence : RxEpochFence) (header : MetaHeader) (u : UserMeta) :
    (headerStatus fence header u).rxClippingFlags = u.rxClippingFlags ∧
      (headerStatus fence header u).rxEpochId = u.rxEpochId := by
  unfold headerStatus
  split
  · exact ⟨rfl, rfl⟩
  · exact ⟨rfl, rfl⟩

theorem disposition_returnValidPrefix {header : MetaHeader} {copied : Bool}
    (h : p.disposition fence header copied = .returnValidPrefix) : copied = true := by
  unfold disposition metadataRxEpochDisposition at h
  split at h
  · split at h
    · assumption
    · cases h
  · split at h
    · cases h
    · split at h
      · cases h
      · cases h

theorem metaHeader_untouched : r.Untouched (p.metaHeader stream fence r).2 := by
  obtain ⟨hclip, hepoch⟩ :=
    headerStatus_provenance fence (stream p.consumed p.msgNum) r.userMeta
  unfold metaHeader
  dsimp only
  split
  · rename_i hdisp
    exact ⟨hclip, hepoch, rfl, rfl, fun _ => .inr (.inl (disposition_returnValidPrefix hdisp))⟩
  · exact ⟨hclip, hepoch, rfl, rfl, fun he => .inr (.inl he)⟩
  all_goals exact ⟨hclip, hepoch, rfl, rfl, .inl⟩

theorem noteDropped_untouched : r.Untouched (p.noteDropped r) := by
  unfold noteDropped
  split
  · exact .status r _
  · split
    · split
      · exact .status r _
      · split
        · rename_i hcopied
          exact ⟨rfl, rfl, rfl, rfl, fun _ => .inr (.inl hcopied)⟩
        · exact .refl r
    · exact .refl r

/-- In a message the parser has the epoch of its header at hand. -/
def KnowsEpoch (stream : MetaStream) (p : RxParser) : Prop :=
  p.metaState = .samples →
    p.msgEpochId = metadataGetRxEpochId (stream p.currMsg.1 p.currMsg.2)

theorem KnowsEpoch.of_header (hm : p.metaState = .header) : KnowsEpoch stream p := by
  intro hs
  exact absurd (hm.symm.trans hs) (by decide)

theorem giveSamples_provenance (h : r.Provenance stream) (hk : KnowsEpoch stream p)
    (hm : p.metaState = .samples) {count : ℕ} (hcount : count ≠ 0) :
    (p.giveSamples cfg stream r count).Provenance stream := by
  have hmessage : ∀ x ∈ p.chunk count, x.buffer = p.currMsg.1 ∧ x.msg = p.currMsg.2 := by
    intro x hx
    obtain ⟨hb, hmsg, -⟩ := mem_chunk.mp hx
    exact ⟨hb, hmsg⟩
  have hne : p.chunk count ≠ [] := by
    intro hnil
    have hlen := chunk_length p count
    rw [hnil] at hlen
    exact hcount hlen.symm
  have hdest : (p.giveSamples cfg stream r count).dest = r.dest ++ p.chunk count := rfl
  refine ⟨?_, ?_, ?_, ?_⟩
  · rw [hdest, clippingOf_append, clippingOf_message hne hmessage, ← h.clipping]
    rfl
  · rw [hdest]
    change (if !r.copiedData && p.msgEpochId.isSome then p.msgEpochId
      else r.userMeta.rxEpochId) = _
    cases hc : r.copiedData with
    | true =>
        rw [epochOf_append_of_ne (h.copied.mp hc), h.epoch]
        simp
    | false =>
        have hnil : r.dest = [] := by
          by_contra hdest
          exact absurd (hc.symm.trans (h.copied.mpr hdest)) (by decide)
        rw [hnil, List.nil_append, epochOf_message hne hmessage, ← hk hm, h.epoch, hnil]
        cases p.msgEpochId with
        | none => rfl
        | some id => rfl
  · rw [hdest]
    exact ⟨fun _ => by simp [hne], fun _ => rfl⟩
  · intro _
    rw [hdest]
    simp [hne]

theorem KnowsEpoch.forward (h : KnowsEpoch stream p) {off : ℕ} {now : BitVec 64} :
    KnowsEpoch stream { p with currMsgOff := off, currTimestamp := now } :=
  h

theorem metaHeader_knowsEpoch :
    KnowsEpoch stream (p.metaHeader stream fence r).1 := by
  have henter : KnowsEpoch stream
      (p.readHeader fence (stream p.consumed p.msgNum)).enterSamples := by
    intro _
    unfold enterSamples
    split
    · rfl
    · rfl
  unfold metaHeader
  dsimp only
  split
  · exact .of_header rfl
  all_goals exact henter

theorem skipMessage_knowsEpoch : KnowsEpoch stream (p.skipMessage cfg) :=
  .of_header nextMessage_metaState

section

variable (h : KnowsEpoch stream p)

include h

theorem skipToBoundary_knowsEpoch :
    KnowsEpoch stream (p.skipToBoundary cfg fence) := by
  unfold skipToBoundary
  dsimp only
  split
  · exact skipMessage_knowsEpoch
  · exact h.forward

theorem takeSamples_knowsEpoch {count : ℕ} :
    KnowsEpoch stream (p.takeSamples cfg count) := by
  unfold takeSamples
  dsimp only
  split
  · exact .of_header nextMessage_metaState
  · exact h.forward

theorem seek_knowsEpoch : KnowsEpoch stream (p.seek cfg r) := by
  unfold seek
  dsimp only
  split
  · exact .of_header rfl
  · split
    · exact h.forward
    · exact .of_header rfl

theorem metaSamples_knowsEpoch :
    KnowsEpoch stream (p.metaSamples cfg stream fence admission r).1 := by
  unfold metaSamples
  split
  · exact skipMessage_knowsEpoch
  · split
    · exact skipToBoundary_knowsEpoch h
    · split
      · exact h
      · split
        · unfold copySamples
          split
          · exact h
          · exact takeSamples_knowsEpoch h
        · exact seek_knowsEpoch h

theorem usingBufferMeta_knowsEpoch :
    KnowsEpoch stream (p.usingBufferMeta cfg stream fence admission r).1 := by
  unfold usingBufferMeta
  cases hm : p.metaState with
  | header => exact metaHeader_knowsEpoch
  | samples => exact metaSamples_knowsEpoch h

end

theorem usingBufferMeta_numSamples :
    (p.usingBufferMeta cfg stream fence admission r).2.numSamples = r.numSamples := by
  unfold usingBufferMeta
  cases hm : p.metaState with
  | header => exact metaHeader_dest.1
  | samples =>
      dsimp only
      unfold metaSamples
      split
      · exact noteDropped_dest.1
      · split
        · rfl
        · split
          · rfl
          · split
            · unfold copySamples
              split
              · rfl
              · rfl
            · rfl

def CopiesSamples (cfg : MetaConfig) (fence : RxEpochFence) (p : RxParser) (r : RxRead) : Prop :=
  reachesCopy fence p r = true → p.leftInMsg cfg ≠ 0

instance : Decidable (CopiesSamples cfg fence p r) :=
  inferInstanceAs (Decidable (_ → _))

theorem metaSamples_provenance (h : r.Provenance stream) (hk : KnowsEpoch stream p)
    (hm : p.metaState = .samples) (hmore : r.dest.length < r.numSamples)
    (hcopies : CopiesSamples cfg fence p r) :
    (p.metaSamples cfg stream fence admission r).2.Provenance stream := by
  unfold metaSamples
  split
  · exact h.untouched noteDropped_untouched
  · rename_i hdrop
    split
    · exact h
    · rename_i hbefore
      split
      · exact h.untouched (.status r _)
      · split
        · rename_i hgo
          have hreach : reachesCopy fence p r = true := by
            simp only [reachesCopy, hm, BEq.rfl, Bool.true_and, Bool.and_eq_true]
            refine ⟨⟨by simpa using hdrop, ?_⟩, hgo⟩
            rw [Bool.eq_false_iff.mpr hbefore]
            rfl
          have hcount : samplesToCopy cfg p r ≠ 0 := by
            have hleft := hcopies hreach
            unfold samplesToCopy
            omega
          unfold copySamples
          split
          · exact h
          · exact giveSamples_provenance h hk hm hcount
        · exact h

theorem usingBufferMeta_provenance (h : r.Provenance stream) (hk : KnowsEpoch stream p)
    (hmore : r.dest.length < r.numSamples) (hcopies : CopiesSamples cfg fence p r) :
    (p.usingBufferMeta cfg stream fence admission r).2.Provenance stream := by
  unfold usingBufferMeta
  cases hm : p.metaState with
  | header => exact h.untouched metaHeader_untouched
  | samples => exact metaSamples_provenance h hk hm hmore hcopies

end RxParser

structure RxReturn.Truthful (stream : MetaStream) (r : RxReturn) : Prop where
  clipping : r.userMeta.rxClippingFlags = clippingOf stream r.samples
  epoch : r.userMeta.rxEpochId = epochOf stream r.samples
  counted : r.userMeta.actualCount = r.samples.length
  given : r.status = 0 → 0 < r.request.numSamples → 0 < r.userMeta.actualCount

namespace RxReader

open RxParser (KnowsEpoch CopiesSamples)

variable {s s' : RxReader} {c : RxCallState} {t : MetaTurn} {p : RxParser} {r : RxRead}

/-! ## Outside a buffer -/

theorem dropStale_untouched : r.Untouched (dropStale t p r).2 := by
  unfold dropStale
  split
  · dsimp only
    split
    · dsimp only
      split
      · rename_i hdest
        exact ⟨rfl, rfl, rfl, rfl, fun _ => .inr (.inr hdest)⟩
      · exact .refl r
    · exact .refl r
  · exact .refl r

theorem waitForBuffer_untouched : r.Untouched (waitForBuffer t p r).2.2 := by
  have hdrop : r.Untouched (dropStale t p r).2 := dropStale_untouched
  unfold waitForBuffer
  split
  · exact .status r _
  · dsimp only
    split
    · exact hdrop
    · split
      · exact ⟨hdrop.clipping, hdrop.epoch, hdrop.copied, hdrop.dest, hdrop.early⟩
      · exact hdrop

theorem dispatch_untouched (hne : p.syncState ≠ .usingBufferMeta) :
    r.Untouched (dispatch cfg stream fence t p r).2.2 := by
  unfold dispatch
  split
  · split
    · exact .status r _
    · split
      · exact .refl r
      · split
        · exact .refl r
        · exact .status r _
  · exact .refl r
  · split
    · exact .status r _
    · split
      · exact .refl r
      · exact .status r _
  · exact waitForBuffer_untouched
  · exact .refl r
  · rename_i hu
    exact absurd hu hne
  · exact .refl r
  · exact .refl r

/-! ## Calls -/

/-- A call in progress knows where its samples come from; at `out` it has counted
them, and it has some if it succeeds. -/
structure CallTruthful (stream : MetaStream) (c : RxCallState) : Prop where
  provenance : c.read.Provenance stream
  numSamples : c.read.numSamples = c.request.numSamples
  entered : c.point = .entered → c.read = c.request.read
  counted : c.point = .out → c.read.userMeta.actualCount = c.read.dest.length
  given : c.point = .out → c.read.status = 0 → 0 < c.request.numSamples → c.read.dest ≠ []

structure Truthful (cfg : MetaConfig) (stream : MetaStream) (s : RxReader) : Prop where
  placed : s.Placed cfg stream
  knows : KnowsEpoch stream s.parser
  call : ∀ c, s.call = some c → CallTruthful stream c
  returned : ∀ r ∈ s.returned, r.Truthful stream

theorem Truthful.of_call (h : s.Truthful cfg stream) (hplaced : s'.Placed cfg stream)
    (hparser : s'.parser = s.parser) (hreturned : s'.returned = s.returned)
    (hcall : ∀ c', s'.call = some c' → CallTruthful stream c') : s'.Truthful cfg stream :=
  ⟨hplaced, hparser ▸ h.knows, hcall, hreturned ▸ h.returned⟩

theorem wouldBlock_ne_zero : bladerfErrWouldBlock ≠ 0 := by decide

theorem CallTruthful.leaveLoop (h : CallTruthful stream c) {status : ℤ}
    (hgiven : status = 0 → 0 < c.request.numSamples → c.read.dest ≠ []) :
    CallTruthful stream (leaveLoop c status) := by
  refine ⟨?_, h.numSamples, (fun he => by cases he), fun _ => rfl, fun _ => hgiven⟩
  exact h.provenance.untouched ⟨rfl, rfl, rfl, rfl, .inl⟩

theorem CallTruthful.done (h : CallTruthful stream c) (hdone : c.read.done = true)
    (hstatus : c.read.status = 0) (hpos : 0 < c.request.numSamples) : c.read.dest ≠ [] := by
  simp only [RxRead.done, Bool.or_eq_true, decide_eq_true_eq, bne_iff_ne, ne_eq] at hdone
  rcases hdone with (hearly | hfull) | hne
  · exact h.provenance.early hearly
  · intro hnil
    rw [hnil, h.numSamples] at hfull
    exact absurd hpos (by simpa using hfull)
  · exact absurd hstatus hne

def ProvenanceStep (cfg : MetaConfig) (s : RxReader) : RxReaderAct → Prop
  | .turn t => ∀ c ∈ s.call, s.dispatches c t = true → s.parser.syncState = .usingBufferMeta →
      CopiesSamples cfg s.fence s.parser c.read
  | _ => True

instance : (a : RxReaderAct) → Decidable (ProvenanceStep cfg s a)
  | .turn _ => inferInstanceAs (Decidable (∀ c ∈ s.call, _))
  | .call _ | .enter | .wake _ _ | .leave | .overrun | .advanceGeneration | .invalidate _ _
  | .expectId _ | .stageMinTimestamp _ _ _ | .activate _ => .isTrue trivial

theorem Truthful.dispatch (h : s.Truthful cfg stream) (hcall : s.call = some c)
    (hmore : c.read.done = false)
    (hcopies : s.parser.syncState = .usingBufferMeta →
      CopiesSamples cfg s.fence s.parser c.read) :
    { s with
      parser := (dispatch cfg stream s.fence t s.parser c.read).1
      call := some
        { c with
          point := (dispatch cfg stream s.fence t s.parser c.read).2.1
          read := (dispatch cfg stream s.fence t s.parser c.read).2.2 } }.Truthful cfg stream := by
  have hc := h.call c hcall
  have hlength : c.read.dest.length < c.read.numSamples := by
    simp only [RxRead.done, Bool.or_eq_false_iff, decide_eq_false_iff_not] at hmore
    omega
  have hpoint := dispatch_point cfg stream s.fence t s.parser c.read
  have hnew : ∀ r' : RxRead, r'.Provenance stream → r'.numSamples = c.read.numSamples →
      CallTruthful stream
        { c with
          point := (RxReader.dispatch cfg stream s.fence t s.parser c.read).2.1
          read := r' } := by
    intro r' hprovenance hnum
    refine ⟨hprovenance, hnum.trans hc.numSamples, ?_, ?_, ?_⟩
    all_goals
      intro hp
      rcases hpoint with hl | ⟨hl, -⟩
      · exact absurd (hl.symm.trans hp) (by decide)
      · exact absurd (hl.symm.trans hp) (by decide)
  rcases dispatch_cases cfg stream s.fence t s.parser c.read with ⟨hu, heq⟩ | ⟨hne, hi, -⟩
  · refine ⟨h.placed.dispatch hcall t, ?_, ?_, h.returned⟩
    · rw [heq]
      exact RxParser.usingBufferMeta_knowsEpoch h.knows
    · rintro c' ⟨⟩
      refine hnew _ ?_ ?_
      · rw [heq]
        exact RxParser.usingBufferMeta_provenance hc.provenance h.knows hlength (hcopies hu)
      · rw [heq]
        exact RxParser.usingBufferMeta_numSamples
  · refine ⟨h.placed.dispatch hcall t, ?_, ?_, h.returned⟩
    · exact .of_header (hi.metaState (h.placed.sound.header_of_ne hne))
    · rintro c' ⟨⟩
      exact hnew _ (hc.provenance.untouched (dispatch_untouched hne)) hi.noCopy.numSamples

theorem Truthful.turn_step (h : s.Truthful cfg stream) (hcall : s.call = some c)
    (hcopies : s.dispatches c t = true → s.parser.syncState = .usingBufferMeta →
      CopiesSamples cfg s.fence s.parser c.read) :
    (s.turn cfg stream c t).Truthful cfg stream := by
  have hc := h.call c hcall
  have hplaced := h.placed.turn_step hcall t
  unfold turn at hplaced ⊢
  split at hplaced
  · rename_i hdone
    rw [if_pos hdone]
    refine h.of_call hplaced rfl rfl ?_
    rintro c' ⟨⟩
    exact hc.leaveLoop (hc.done hdone)
  · rename_i hdone
    rw [if_neg hdone]
    split at hplaced
    · rename_i hgen
      rw [if_pos hgen]
      refine h.of_call hplaced rfl rfl ?_
      rintro c' ⟨⟩
      exact hc.leaveLoop (fun hs => absurd hs wouldBlock_ne_zero)
    · rename_i hgen
      rw [if_neg hgen]
      split at hplaced
      · rename_i hlate
        rw [if_pos hlate]
        refine h.of_call hplaced rfl rfl ?_
        rintro c' ⟨⟩
        refine hc.leaveLoop (fun hs => ?_)
        rw [hs] at hlate
        simp at hlate
      · rename_i hlate
        rw [if_neg hlate]
        refine h.dispatch hcall (Bool.eq_false_iff.mpr hdone) (hcopies ?_)
        simp only [dispatches, Bool.eq_false_iff.mpr hdone, not_not.mp hgen,
          Bool.eq_false_iff.mpr hlate, BEq.rfl, Bool.not_false, Bool.and_self]

theorem CallTruthful.result (h : CallTruthful stream c) (hp : c.point = .out) :
    (s.result c).Truthful stream := by
  have huser : ∀ pending : Bool,
      ((if pending then c.read.userMeta.markOverrun else c.read.userMeta).rxClippingFlags =
        c.read.userMeta.rxClippingFlags) ∧
      ((if pending then c.read.userMeta.markOverrun else c.read.userMeta).rxEpochId =
        c.read.userMeta.rxEpochId) ∧
      ((if pending then c.read.userMeta.markOverrun else c.read.userMeta).actualCount =
        c.read.userMeta.actualCount) := by
    intro pending
    cases pending with
    | true => exact ⟨rfl, rfl, rfl⟩
    | false => exact ⟨rfl, rfl, rfl⟩
  obtain ⟨hclip, hepoch, hcount⟩ := huser s.overrunPending
  unfold RxReader.result
  dsimp only
  by_cases hgen : s.generation ≠ c.generation
  · rw [if_pos hgen]
    have hnone : (c.read.dest.map fun _ => (none : Option RxSample)).reduceOption = [] := by
      change List.filterMap id _ = _
      simp
    refine ⟨?_, ?_, ?_, fun hs => absurd hs wouldBlock_ne_zero⟩
    · rw [RxReturn.samples, hnone]
      rfl
    · rw [RxReturn.samples, hnone]
      rfl
    · rw [RxReturn.samples, hnone]
      rfl
  · rw [if_neg hgen]
    have hsome : (c.read.dest.map some).reduceOption = c.read.dest := by
      change List.filterMap id _ = _
      simp
    refine ⟨?_, ?_, ?_, ?_⟩
    · rw [RxReturn.samples, hsome]
      exact hclip.trans h.provenance.clipping
    · rw [RxReturn.samples, hsome]
      exact hepoch.trans h.provenance.epoch
    · rw [RxReturn.samples, hsome]
      exact hcount.trans (h.counted hp)
    · intro hs hpos
      dsimp only
      rw [hcount, h.counted hp]
      exact List.length_pos_of_ne_nil (h.given hp hs hpos)

theorem CallTruthful.enter (h : CallTruthful stream c) (hp : c.point = .entered)
    (user : UserMeta) (hclip : user.rxClippingFlags = c.read.userMeta.rxClippingFlags)
    (hepoch : user.rxEpochId = c.read.userMeta.rxEpochId)
    (hcount : user.actualCount = c.read.userMeta.actualCount) :
    CallTruthful stream
      { c with
        point := .out
        read := { c.read with userMeta := user, status := bladerfErrWouldBlock } } ∧
    CallTruthful stream { c with point := .loop, read := { c.read with userMeta := user } } := by
  have hread := h.entered hp
  refine ⟨⟨?_, h.numSamples, (fun he => by cases he), fun _ => ?_, ?_⟩,
    ⟨?_, h.numSamples, (fun he => by cases he), (fun he => by cases he), fun he => by cases he⟩⟩
  · exact h.provenance.untouched ⟨hclip, hepoch, rfl, rfl, .inl⟩
  · dsimp only
    rw [hcount, hread]
    rfl
  · intro _ hs
    exact absurd hs wouldBlock_ne_zero
  · exact h.provenance.untouched ⟨hclip, hepoch, rfl, rfl, .inl⟩

/-! ## Runs -/

theorem Truthful.setter (h : s.Truthful cfg stream) (hplaced : s'.Placed cfg stream)
    (hknows : KnowsEpoch stream s'.parser) (hcall : s'.call = s.call)
    (hreturned : s'.returned = s.returned) : s'.Truthful cfg stream :=
  ⟨hplaced, hknows, hcall ▸ h.call, hreturned ▸ h.returned⟩

theorem invalidate_knowsEpoch (h : s.Placed cfg stream) (dropped : ℕ) (fpgaLossOnly : Bool) :
    KnowsEpoch stream (s.invalidate dropped fpgaLossOnly).parser := by
  unfold invalidate
  dsimp only
  split
  · exact .of_header rfl
  · rename_i hin
    exact .of_header (h.sound.header_of_ne fun hu => hin (.inr hu))

theorem stageMinTimestamp_keeps (s : RxReader) (minTimestamp : BitVec 64) (epochId : BitVec 8)
    (inTime : Bool) :
    (s.stageMinTimestamp minTimestamp epochId inTime).parser = s.parser ∧
      (s.stageMinTimestamp minTimestamp epochId inTime).call = s.call ∧
      (s.stageMinTimestamp minTimestamp epochId inTime).returned = s.returned := by
  unfold stageMinTimestamp
  split
  · exact ⟨rfl, rfl, rfl⟩
  · exact ⟨rfl, rfl, rfl⟩

theorem activate_keeps (s : RxReader) (admitted : Bool) :
    (s.activate admitted).parser = s.parser ∧ (s.activate admitted).call = s.call ∧
      (s.activate admitted).returned = s.returned := by
  unfold activate
  split
  · exact ⟨rfl, rfl, rfl⟩
  · exact ⟨rfl, rfl, rfl⟩

theorem Truthful.step {a : RxReaderAct} (h : s.Truthful cfg stream) (hok : ProvenanceStep cfg s a)
    (hs : step cfg stream s a = some s') : s'.Truthful cfg stream := by
  have hplaced : s'.Placed cfg stream := h.placed.step hs
  cases a with
  | call request =>
      simp only [RxReader.step, Bool.and_eq_true, Option.isNone_iff_eq_none,
        Option.ite_none_right_eq_some, Option.some.injEq] at hs
      obtain ⟨-, rfl⟩ := hs
      refine h.of_call hplaced rfl rfl ?_
      rintro c' ⟨⟩
      refine ⟨⟨rfl, rfl, ?_, (fun he => by cases he)⟩, rfl, fun _ => rfl, (fun he => by cases he),
        fun he => by cases he⟩
      exact ⟨(fun he => by cases he), fun hne => absurd rfl hne⟩
  | enter =>
      obtain ⟨c, hcall, hp, rfl⟩ := call_of_point hs
      have hmarked : ∀ pending : Bool, CallTruthful stream _ ∧ CallTruthful stream _ :=
        fun pending => (h.call c hcall).enter hp
          (if pending then c.read.userMeta.markOverrun else c.read.userMeta)
          (by cases pending <;> rfl) (by cases pending <;> rfl) (by cases pending <;> rfl)
      obtain ⟨hout, hloop⟩ := hmarked s.overrunPending
      unfold RxReader.enter at hplaced ⊢
      dsimp only at hplaced ⊢
      generalize (if s.overrunPending then c.read.userMeta.markOverrun else c.read.userMeta) =
        user at hplaced hout hloop ⊢
      refine h.of_call hplaced rfl rfl ?_
      dsimp only
      split
      · rintro c' ⟨⟩
        exact hout
      · rintro c' ⟨⟩
        exact hloop
  | turn t =>
      obtain ⟨c, hcall, -, rfl⟩ := call_of_point hs
      exact h.turn_step hcall (hok c hcall)
  | wake status full =>
      obtain ⟨c, hcall, hp, rfl⟩ := call_of_point hs
      have hc := h.call c hcall
      have hne : s.parser.syncState ≠ .usingBufferMeta := by
        rw [h.placed.waiting c hcall hp]
        decide
      refine ⟨hplaced, .of_header (h.placed.sound.header_of_ne hne), ?_, h.returned⟩
      rintro c' ⟨⟩
      exact ⟨hc.provenance.untouched (.status _ _), hc.numSamples, (fun he => by cases he),
        (fun he => by cases he), fun he => by cases he⟩
  | leave =>
      obtain ⟨c, hcall, hp, rfl⟩ := call_of_point hs
      refine ⟨hplaced, h.knows, (fun c' hc' => by cases hc'), ?_⟩
      intro r hr
      rcases List.mem_cons.mp hr with rfl | hr
      · exact (h.call c hcall).result hp
      · exact h.returned r hr
  | overrun | advanceGeneration =>
      cases hs
      exact h.setter hplaced h.knows rfl rfl
  | invalidate dropped fpgaLossOnly =>
      obtain ⟨-, ⟨⟩⟩ := Option.ite_none_right_eq_some.mp hs
      exact h.setter hplaced (invalidate_knowsEpoch h.placed dropped fpgaLossOnly) rfl rfl
  | expectId epochId =>
      obtain ⟨-, ⟨⟩⟩ := Option.ite_none_right_eq_some.mp hs
      exact h.setter hplaced h.knows rfl rfl
  | stageMinTimestamp minTimestamp epochId inTime =>
      obtain ⟨-, ⟨⟩⟩ := Option.ite_none_right_eq_some.mp hs
      obtain ⟨hparser, hcall, hreturned⟩ := stageMinTimestamp_keeps s minTimestamp epochId inTime
      exact h.setter hplaced (hparser ▸ h.knows) hcall hreturned
  | activate admitted =>
      obtain ⟨-, ⟨⟩⟩ := Option.ite_none_right_eq_some.mp hs
      obtain ⟨hparser, hcall, hreturned⟩ := activate_keeps s admitted
      exact h.setter hplaced (hparser ▸ h.knows) hcall hreturned

theorem start_truthful (epochContract : Bool) : (start epochContract).Truthful cfg stream := by
  refine ⟨start_placed epochContract, .of_header rfl, ?_, ?_⟩
  · intro c hc
    cases hc
  · intro r hr
    cases hr

/-- In every run without an empty copy a call in progress that ends early has
samples, and a call that returned says of its samples what is so. -/
theorem syncRx_truthful (cfg : MetaConfig) (stream : MetaStream) (epochContract : Bool)
    (acts : List RxReaderAct) (s : RxReader)
    (hrun : Lib.Steps (RxReader.step cfg stream) (ProvenanceStep cfg) (start epochContract) acts
      s) :
    (∀ c, s.call = some c → c.read.exitEarly = true → c.read.dest ≠ []) ∧
      ∀ r ∈ s.returned, r.Truthful stream := by
  have h : s.Truthful cfg stream :=
    hrun.invariant (start_truthful epochContract) (fun h hok hs => h.step hok hs)
  exact ⟨fun c hcall he => (h.call c hcall).provenance.early he, h.returned⟩

/-- Epoch 7 without gaps from 100 on, with clipping in the second message. -/
def clippedStream : MetaStream :=
  fun buffer msg =>
    ⟨metadataRxEpochTagValid ||| (if buffer = 0 ∧ msg = 1 then 0x107#32 else 0x7#32),
      100#64 + BitVec.ofNat 64 (4 * (2 * buffer + msg)), 0#32⟩

/-- A read of 102 to 105. -/
theorem syncRx_truthful_clippedStream :
    ∃ s : RxReader,
      Lib.exec (RxReader.step smallBuffers clippedStream) (ProvenanceStep smallBuffers)
        (start false) (quietCall ⟨4, false, 102#64, true⟩ 9) = some s ∧
      s.returned.map (fun r => (r.status, r.userMeta.actualCount, r.userMeta.rxClippingFlags)) =
        [(0, 4, 1#8)] ∧
      ∀ r ∈ s.returned, r.Truthful clippedStream := by
  have hs : ∃ s : RxReader,
      Lib.exec (RxReader.step smallBuffers clippedStream) (ProvenanceStep smallBuffers)
        (start false) (quietCall ⟨4, false, 102#64, true⟩ 9) = some s ∧
      s.returned.map (fun r => (r.status, r.userMeta.actualCount, r.userMeta.rxClippingFlags)) =
        [(0, 4, 1#8)] :=
    ⟨_, rfl, rfl⟩
  obtain ⟨s, hexec, hresults⟩ := hs
  have h := syncRx_truthful smallBuffers clippedStream false
    (quietCall ⟨4, false, 102#64, true⟩ 9) s (Lib.Steps.of_exec hexec)
  exact ⟨s, hexec, hresults, h.2⟩

/-- Messages from 100 on with a gap behind each, and clipping in the first. -/
def gapStream : MetaStream :=
  fun buffer msg =>
    ⟨metadataRxEpochTagValid ||| (if buffer = 0 ∧ msg = 0 then 0x107#32 else 0x7#32),
      100#64 + BitVec.ofNat 64 (5 * (2 * buffer + msg)), 0#32⟩

/-- A read of 100, and one at 104, where the first message ends. -/
def readBehindMessage : List RxReaderAct :=
  quietCall ⟨1, true, 0#64, true⟩ 6 ++ quietCall ⟨2, false, 104#64, true⟩ 4

/-- The second read succeeds without a sample, with the clipping flag and the
epoch of a message it skipped. -/
theorem syncRx_not_truthful :
    ∃ (s : RxReader) (r : RxReturn),
      Lib.Steps (RxReader.step smallBuffers gapStream) (fun _ _ => True) (start false)
        readBehindMessage s ∧
      r ∈ s.returned ∧ r.status = 0 ∧ r.request.numSamples = 2 ∧ r.userMeta.actualCount = 0 ∧
      r.samples = [] ∧ r.userMeta.rxClippingFlags = 1#8 ∧ r.userMeta.rxEpochId = some 7#8 ∧
      ¬r.Truthful gapStream := by
  refine ⟨_, _, Lib.Steps.of_exec rfl, List.mem_cons_self, rfl, rfl, rfl, rfl, rfl, rfl, ?_⟩
  intro h
  exact absurd h.clipping (by decide)

end RxReader

end BladeRF
