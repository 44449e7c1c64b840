/-
# `Streaming.RxPosition` — what the parser knows about its place

Whatever the headers say, the parser keeps its place: it is inside a message
only while it uses a buffer, its offset is a whole number of time steps, and
`curr_timestamp` is the timestamp of the sample at the offset unless the message
is filtered out (`Sound`).  And it moves forward, so that no sample is given out
twice (`Passed`), with one exception: a seek from inside a message may lead back
to the start of the message (`seeksBack`).
-/
import BladeRF.Streaming.RxMeta

namespace BladeRF

variable {cfg : MetaConfig} {stream : MetaStream} {fence : RxEpochFence}

theorem MetaConfig.samplesPerTs_pos (cfg : MetaConfig) : 0 < cfg.samplesPerTs := by
  rcases cfg.samplesPerTs_eq with h | h
  · omega
  · omega

theorem syncTimestampDeltaToSamples_of_lt {delta perTs available : ℕ} (hpos : 0 < perTs)
    (h : syncTimestampDeltaToSamples delta perTs available < available) :
    syncTimestampDeltaToSamples delta perTs available = delta * perTs := by
  unfold syncTimestampDeltaToSamples at h ⊢
  rw [if_neg (by omega)] at h ⊢
  dsimp only at h ⊢
  generalize available / perTs + (if available % perTs ≠ 0 then 1 else 0) = steps at h ⊢
  split at h
  · omega
  · rename_i hlt
    rw [if_neg hlt]

namespace RxParser

variable {p : RxParser} {r : RxRead}

/-! ## The place in a message -/

/-- The parser is at the sample `currMsgOff` of the message it points to. -/
structure AtSample (cfg : MetaConfig) (stream : MetaStream) (p : RxParser) : Prop where
  inBuffer : p.syncState = .usingBufferMeta
  currMsg : p.currMsg = (p.consumed, p.msgNum)
  off_le : p.currMsgOff ≤ cfg.samplesPerMsg
  off_dvd : cfg.samplesPerTs ∣ p.currMsgOff
  haveTimestamp : p.msgEpochFilteredOut = false → p.haveTimestamp = true
  timestamp : p.msgEpochFilteredOut = false →
    p.currTimestamp = (stream p.consumed p.msgNum).timestamp +
      BitVec.ofNat 64 (p.currMsgOff / cfg.samplesPerTs)

structure Sound (cfg : MetaConfig) (stream : MetaStream) (p : RxParser) : Prop where
  msgNum_lt : p.syncState = .usingBufferMeta → p.msgNum < cfg.msgPerBuf
  atSample : p.metaState = .samples → p.AtSample cfg stream

theorem Sound.of_header (hm : p.metaState = .header)
    (hn : p.syncState = .usingBufferMeta → p.msgNum < cfg.msgPerBuf) : p.Sound cfg stream :=
  ⟨hn, fun h => by rw [hm] at h; cases h⟩

theorem Sound.header_of_ne (h : p.Sound cfg stream) (hs : p.syncState ≠ .usingBufferMeta) :
    p.metaState = .header := by
  cases hm : p.metaState with
  | header => rfl
  | samples => exact absurd (h.atSample hm).inBuffer hs

theorem AtSample.sound (h : p.AtSample cfg stream) (hn : p.msgNum < cfg.msgPerBuf) :
    p.Sound cfg stream :=
  ⟨fun _ => hn, fun _ => h⟩

theorem Sound.refenced (h : p.Sound cfg stream) :
    ({ p with
      haveTimestamp := false
      msgEpochFilteredOut := p.msgEpochFilteredOut ||
        (p.syncState == .usingBufferMeta && p.metaState == .samples) } : RxParser).Sound cfg
      stream := by
  refine ⟨h.msgNum_lt, fun hm => ?_⟩
  have ha := h.atSample hm
  have hfiltered : ∀ {P : Prop}, (p.msgEpochFilteredOut ||
      (p.syncState == .usingBufferMeta && p.metaState == .samples)) = false → P := by
    intro P hf
    simp [ha.inBuffer, show p.metaState = .samples from hm] at hf
  exact ⟨ha.inBuffer, ha.currMsg, ha.off_le, ha.off_dvd, hfiltered, hfiltered⟩

theorem nextMessage_metaState : (p.nextMessage cfg).metaState = .header := by
  unfold nextMessage
  split
  · rfl
  · rfl

theorem nextMessage_timestamp : (p.nextMessage cfg).haveTimestamp = p.haveTimestamp ∧
    (p.nextMessage cfg).currTimestamp = p.currTimestamp := by
  unfold nextMessage
  split
  · exact ⟨rfl, rfl⟩
  · exact ⟨rfl, rfl⟩

theorem nextMessage_sound : (p.nextMessage cfg).Sound cfg stream := by
  refine .of_header nextMessage_metaState ?_
  unfold nextMessage
  split
  · intro h
    cases h
  · intro _
    dsimp only
    omega

theorem skipMessage_sound : (p.skipMessage cfg).Sound cfg stream :=
  nextMessage_sound

variable {count : ℕ} {x : RxSample}

theorem AtSample.forward (h : p.AtSample cfg stream)
    (hle : p.currMsgOff + count * cfg.samplesPerTs ≤ cfg.samplesPerMsg) :
    { p with
      currMsgOff := p.currMsgOff + count * cfg.samplesPerTs
      currTimestamp := p.currTimestamp + BitVec.ofNat 64 count }.AtSample cfg stream := by
  refine ⟨h.inBuffer, h.currMsg, hle, Nat.dvd_add h.off_dvd (Nat.dvd_mul_left _ _),
    h.haveTimestamp, ?_⟩
  intro hf
  dsimp only
  rw [h.timestamp hf, Nat.add_mul_div_right _ _ cfg.samplesPerTs_pos, BitVec.ofNat_add,
    BitVec.add_assoc]

theorem AtSample.sample_timestamp (h : p.AtSample cfg stream)
    (hf : p.msgEpochFilteredOut = false) (i : ℕ) :
    RxSample.timestamp cfg stream ⟨p.currMsg.1, p.currMsg.2, p.currMsgOff + i⟩ =
      p.currTimestamp + BitVec.ofNat 64 (i / cfg.samplesPerTs) := by
  obtain ⟨k, hk⟩ := h.off_dvd
  unfold RxSample.timestamp
  dsimp only
  rw [h.timestamp hf, h.currMsg, hk, Nat.mul_add_div cfg.samplesPerTs_pos,
    Nat.mul_div_cancel_left _ cfg.samplesPerTs_pos, BitVec.ofNat_add, BitVec.add_assoc]

theorem leftInMsg_dvd (h : p.AtSample cfg stream) : cfg.samplesPerTs ∣ p.leftInMsg cfg :=
  Nat.dvd_sub cfg.aligned h.off_dvd

section

variable (h : p.Sound cfg stream)

include h

theorem skipToBoundary_sound (hm : p.metaState = .samples) :
    (p.skipToBoundary cfg fence).Sound cfg stream := by
  have ha := h.atSample hm
  unfold skipToBoundary
  dsimp only
  split
  · exact skipMessage_sound
  · rename_i hlt
    refine (ha.forward ?_).sound (h.msgNum_lt ha.inBuffer)
    obtain ⟨k, hk⟩ := leftInMsg_dvd ha
    have hpos := cfg.samplesPerTs_pos
    have hdiv : (p.leftInMsg cfg + cfg.samplesPerTs - 1) / cfg.samplesPerTs = k := by
      rw [hk, Nat.add_sub_assoc (by omega), Nat.mul_add_div hpos,
        Nat.div_eq_of_lt (by omega), Nat.add_zero]
    rw [hdiv, Nat.not_le] at hlt
    have hmul := Nat.mul_le_mul_right cfg.samplesPerTs (Nat.le_of_lt hlt)
    rw [Nat.mul_comm k, ← hk] at hmul
    have := ha.off_le
    unfold leftInMsg at hmul
    omega

theorem takeSamples_sound (hm : p.metaState = .samples)
    (hle : count ≤ p.leftInMsg cfg) (hdvd : cfg.samplesPerTs ∣ count) :
    (p.takeSamples cfg count).Sound cfg stream := by
  have ha := h.atSample hm
  unfold takeSamples
  dsimp only
  split
  · exact nextMessage_sound
  · obtain ⟨k, rfl⟩ := hdvd
    rw [Nat.mul_div_cancel_left _ cfg.samplesPerTs_pos, Nat.mul_comm]
    rw [Nat.mul_comm] at hle
    refine (ha.forward ?_).sound (h.msgNum_lt ha.inBuffer)
    have := ha.off_le
    unfold leftInMsg at hle
    omega

theorem seek_sound (hm : p.metaState = .samples) :
    (p.seek cfg r).Sound cfg stream := by
  have ha := h.atSample hm
  have hn := h.msgNum_lt ha.inBuffer
  unfold seek
  dsimp only
  split
  · refine .of_header rfl ?_
    intro hs
    cases hs
  · rename_i hlt
    have hsamples := syncTimestampDeltaToSamples_of_lt cfg.samplesPerTs_pos (Nat.not_le.mp hlt)
    split
    · rename_i hle
      rw [hsamples]
      refine (ha.forward ?_).sound hn
      have hmul := Nat.mul_le_mul_right cfg.samplesPerTs hle
      unfold tsRemaining at hmul
      have := Nat.div_mul_le_self (cfg.samplesPerMsg - p.currMsgOff) cfg.samplesPerTs
      have := ha.off_le
      omega
    · refine .of_header rfl ?_
      intro _
      dsimp only
      have hdiv : timestampToMsg cfg (syncTimestampDeltaToSamples
          (r.targetTimestamp - p.currTimestamp).toNat cfg.samplesPerTs (p.leftInBuffer cfg)) <
          cfg.msgPerBuf - p.msgNum := by
        refine Nat.div_lt_of_lt_mul ?_
        unfold leftInBuffer at hlt ⊢
        omega
      omega

theorem metaHeader_sound (hu : p.syncState = .usingBufferMeta) :
    (p.metaHeader stream fence r).1.Sound cfg stream := by
  have hn := h.msgNum_lt hu
  have hsamples : ((p.readHeader fence (stream p.consumed p.msgNum)).enterSamples).Sound
      cfg stream := by
    unfold enterSamples
    split
    · rename_i hf
      have hfiltered : ∀ {P : Prop},
          (p.readHeader fence (stream p.consumed p.msgNum)).msgEpochFilteredOut = false → P := by
        intro P hf'
        exact absurd (hf.symm.trans hf') (by decide)
      exact AtSample.sound ⟨hu, rfl, Nat.zero_le _, Nat.dvd_zero _, hfiltered, hfiltered⟩ hn
    · refine AtSample.sound ⟨hu, rfl, Nat.zero_le _, Nat.dvd_zero _, fun _ => rfl, ?_⟩ hn
      intro _
      simp [readHeader]
  unfold metaHeader
  dsimp only
  split
  · exact .of_header rfl (fun _ => hn)
  · exact hsamples
  · exact hsamples
  · exact hsamples
  · exact hsamples

end

theorem samplesToCopy_dvd (ha : p.AtSample cfg stream)
    (hnum : cfg.samplesPerTs ∣ r.numSamples) (hdest : cfg.samplesPerTs ∣ r.dest.length) :
    cfg.samplesPerTs ∣ samplesToCopy cfg p r := by
  unfold samplesToCopy
  rcases Nat.le_total (r.numSamples - r.dest.length) (p.leftInMsg cfg) with hle | hle
  · rw [Nat.min_eq_left hle]
    exact Nat.dvd_sub hnum hdest
  · rw [Nat.min_eq_right hle]
    exact leftInMsg_dvd ha

theorem copySamples_sound {admission : BitVec 32} (h : p.Sound cfg stream)
    (hm : p.metaState = .samples) (hnum : cfg.samplesPerTs ∣ r.numSamples)
    (hdest : cfg.samplesPerTs ∣ r.dest.length) :
    (p.copySamples cfg stream fence admission r).1.Sound cfg stream := by
  have ha := h.atSample hm
  unfold copySamples
  split
  · refine AtSample.sound ⟨ha.inBuffer, ha.currMsg, ha.off_le, ha.off_dvd, ?_, ?_⟩
      (h.msgNum_lt ha.inBuffer)
    · intro hf
      cases hf
    · intro hf
      cases hf
  · exact takeSamples_sound h hm (Nat.min_le_right _ _) (samplesToCopy_dvd ha hnum hdest)

theorem usingBufferMeta_sound {admission : BitVec 32} (h : p.Sound cfg stream)
    (hu : p.syncState = .usingBufferMeta) (hnum : cfg.samplesPerTs ∣ r.numSamples)
    (hdest : cfg.samplesPerTs ∣ r.dest.length) :
    (p.usingBufferMeta cfg stream fence admission r).1.Sound cfg stream := by
  unfold usingBufferMeta
  cases hm : p.metaState with
  | header => exact metaHeader_sound h hu
  | samples =>
      dsimp only
      unfold metaSamples
      split
      · exact skipMessage_sound
      · split
        · exact skipToBoundary_sound h hm
        · split
          · exact h
          · split
            · exact copySamples_sound h hm hnum hdest
            · exact seek_sound h hm

/-! ## Moving forward -/

/-- The parser has passed a sample: its buffer is given back, or the parser is in
that buffer behind the sample. -/
def Passed (p : RxParser) (x : RxSample) : Prop :=
  x.buffer < p.consumed ∨
    (x.buffer = p.consumed ∧ p.syncState = .usingBufferMeta ∧
      (x.msg < p.msgNum ∨
        (x.msg = p.msgNum ∧ p.metaState = .samples ∧ x.off < p.currMsgOff)))

def Behind (p p' : RxParser) : Prop :=
  ∀ x, p.Passed x → p'.Passed x

/-- `seek` leads back to the start of the message it is in: the target is beyond
the end of the message, but less than the length of a message away. -/
def seeksBack (cfg : MetaConfig) (p : RxParser) (r : RxRead) : Bool :=
  let timeDelta := (r.targetTimestamp - p.currTimestamp).toNat
  let samplesLeft := syncTimestampDeltaToSamples timeDelta cfg.samplesPerTs (p.leftInBuffer cfg)
  decide (0 < p.currMsgOff) && decide (samplesLeft < p.leftInBuffer cfg) &&
    decide (p.tsRemaining cfg < timeDelta) && timestampToMsg cfg samplesLeft == 0

theorem Behind.refl (p : RxParser) : p.Behind p :=
  fun _ h => h

theorem nextMessage_passed (h : x.buffer < p.consumed ∨
      (x.buffer = p.consumed ∧ p.syncState = .usingBufferMeta ∧ x.msg ≤ p.msgNum)) :
    (p.nextMessage cfg).Passed x := by
  unfold nextMessage
  split
  · refine .inl ?_
    dsimp only [advanceRxBuffer]
    omega
  · rcases h with h | ⟨hb, hs, hm⟩
    · exact .inl h
    · refine .inr ⟨hb, hs, .inl ?_⟩
      dsimp only
      omega

theorem behind_forward {now : BitVec 64} :
    p.Behind { p with currMsgOff := p.currMsgOff + count, currTimestamp := now } := by
  intro x hx
  rcases hx with hx | ⟨hb, hs, hx | ⟨hmsg, hm, hoff⟩⟩
  · exact .inl hx
  · exact .inr ⟨hb, hs, .inl hx⟩
  · refine .inr ⟨hb, hs, .inr ⟨hmsg, hm, ?_⟩⟩
    dsimp only
    omega

theorem behind_nextMessage {now : BitVec 64} :
    p.Behind
      (nextMessage cfg { p with currMsgOff := p.currMsgOff + count, currTimestamp := now }) := by
  intro x hx
  refine nextMessage_passed ?_
  rcases hx with hx | ⟨hb, hs, hx | ⟨hmsg, -, -⟩⟩
  · exact .inl hx
  · exact .inr ⟨hb, hs, Nat.le_of_lt hx⟩
  · exact .inr ⟨hb, hs, Nat.le_of_eq hmsg⟩

theorem behind_skipMessage : p.Behind (p.skipMessage cfg) :=
  behind_nextMessage

theorem behind_skipToBoundary : p.Behind (p.skipToBoundary cfg fence) := by
  unfold skipToBoundary
  dsimp only
  split
  · exact behind_skipMessage
  · exact behind_forward

theorem behind_takeSamples : p.Behind (p.takeSamples cfg count) := by
  unfold takeSamples
  dsimp only
  split
  · exact behind_nextMessage
  · exact behind_forward

theorem mem_chunk :
    x ∈ p.chunk count ↔
      x.buffer = p.currMsg.1 ∧ x.msg = p.currMsg.2 ∧ p.currMsgOff ≤ x.off ∧
        x.off < p.currMsgOff + count := by
  unfold chunk
  rw [List.mem_map]
  constructor
  · rintro ⟨i, hi, rfl⟩
    rw [List.mem_range] at hi
    exact ⟨rfl, rfl, Nat.le_add_right _ _, Nat.add_lt_add_left hi _⟩
  · obtain ⟨b, m, o⟩ := x
    rintro ⟨hb, hm, hlo, hhi⟩
    dsimp only at hb hm hlo hhi
    refine ⟨o - p.currMsgOff, List.mem_range.mpr (by omega), ?_⟩
    rw [hb, hm, Nat.add_sub_cancel' hlo]

theorem chunk_not_passed (ha : p.AtSample cfg stream) (hx : x ∈ p.chunk count) : ¬p.Passed x := by
  obtain ⟨hb, hm, hlo, -⟩ := mem_chunk.mp hx
  rw [ha.currMsg] at hb hm
  rintro (h | ⟨-, -, h | ⟨-, -, h⟩⟩)
  · dsimp only at hb
    omega
  · dsimp only at hm
    omega
  · omega

theorem chunk_passed (ha : p.AtSample cfg stream) (hm : p.metaState = .samples)
    (hx : x ∈ p.chunk count) : (p.takeSamples cfg count).Passed x := by
  obtain ⟨hb, hmsg, -, hhi⟩ := mem_chunk.mp hx
  rw [ha.currMsg] at hb hmsg
  unfold takeSamples
  dsimp only
  split
  · exact nextMessage_passed (.inr ⟨hb, ha.inBuffer, Nat.le_of_eq hmsg⟩)
  · exact .inr ⟨hb, ha.inBuffer, .inr ⟨hmsg, hm, hhi⟩⟩

theorem chunk_nodup : (p.chunk count).Nodup := by
  unfold chunk
  refine List.Nodup.map ?_ List.nodup_range
  intro i j hij
  simpa using hij

theorem behind_seek (h : seeksBack cfg p r = false) : p.Behind (p.seek cfg r) := by
  unfold seek
  dsimp only
  split
  · intro x hx
    refine .inl ?_
    dsimp only [advanceRxBuffer]
    rcases hx with hx | ⟨hb, -, -⟩
    · omega
    · omega
  · rename_i hlt
    split
    · exact behind_forward
    · rename_i hts
      -- either the message changes, or its start is where the parser is
      have hskip : 0 < timestampToMsg cfg (syncTimestampDeltaToSamples
          (r.targetTimestamp - p.currTimestamp).toNat cfg.samplesPerTs (p.leftInBuffer cfg)) ∨
          p.currMsgOff = 0 := by
        simp only [seeksBack, Bool.and_eq_false_iff, decide_eq_false_iff_not,
          beq_eq_false_iff_ne] at h
        omega
      intro x hx
      rcases hx with hx | ⟨hb, hs, hx | ⟨hmsg, -, hoff⟩⟩
      · exact .inl hx
      · refine .inr ⟨hb, hs, .inl ?_⟩
        dsimp only
        omega
      · refine .inr ⟨hb, hs, .inl ?_⟩
        dsimp only
        omega

theorem behind_metaHeader (hm : p.metaState = .header) :
    p.Behind (p.metaHeader stream fence r).1 := by
  have hheader : ∀ p' : RxParser, p'.consumed = p.consumed → p'.syncState = p.syncState →
      p'.msgNum = p.msgNum → p.Behind p' := by
    intro p' hc hs hn x hx
    unfold Passed at hx ⊢
    rw [hc, hs, hn]
    rcases hx with hx | ⟨hb, hu, hx | ⟨-, hx, -⟩⟩
    · exact .inl hx
    · exact .inr ⟨hb, hu, .inl hx⟩
    · rw [hm] at hx
      cases hx
  have hsamples : p.Behind (p.readHeader fence (stream p.consumed p.msgNum)).enterSamples := by
    unfold enterSamples
    split
    · exact hheader _ rfl rfl rfl
    · exact hheader _ rfl rfl rfl
  unfold metaHeader
  dsimp only
  split
  · exact hheader _ rfl rfl rfl
  · exact hsamples
  · exact hsamples
  · exact hsamples
  · exact hsamples

end RxParser

end BladeRF
