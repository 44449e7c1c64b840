/-
# `Streaming.RxTermination` — when the META parser leaves a buffer

Every turn of the parser moves forward except one: a seek may lead back to the
start of its message.  That is harmless when the parser was left in the middle
of the message by an earlier call, because from the start the same target is a
message or more away.  It is not when the epoch boundary lies inside the
message: then the parser skips to the boundary again, and seeks back again.

A message with that constellation is a `Trap`.  A parser that comes to one never
leaves it, and a parser that comes to none leaves its buffer, because its `rank`
falls with every turn.
-/
import BladeRF.Lib.Clocked
import BladeRF.Streaming.RxPosition
import BladeRF.Streaming.RxReader

namespace BladeRF

namespace RxParser

variable {cfg : MetaConfig} {stream : MetaStream} {fence : RxEpochFence}
  {admission : BitVec 32} {p : RxParser} {r : RxRead}

/-! ## Turns in one buffer -/

def Left (x : RxParser × RxRead) : Prop :=
  x.1.syncState ≠ .usingBufferMeta ∨ x.2.done = true

instance (x : RxParser × RxRead) : Decidable (Left x) := instDecidableOr

/-- The turns in one buffer, without the clock: no deadline ends them.  The fence
cannot change, since `sync->lock` is held; the board may answer as it likes. -/
def turns (cfg : MetaConfig) (stream : MetaStream) (fence : RxEpochFence)
    (admission : ℕ → BitVec 32) (p : RxParser) (r : RxRead) : ℕ → RxParser × RxRead :=
  Lib.trace (fun n x =>
    if Left x then x else x.1.usingBufferMeta cfg stream fence (admission n) x.2) (p, r)

/-! ## The trap -/

/-- A message that starts before the epoch boundary and ends behind it, when the
target lies behind its end but less than a message behind the boundary. -/
structure Trap (cfg : MetaConfig) (fence : RxEpochFence) (header : MetaHeader) (msgNum : ℕ)
    (r : RxRead) : Prop where
  bounded : fence.boundaryEnabled = true
  valid : fence.dataInvalidated = false
  admitted : filteredOut fence header = false
  timed : r.userMeta.rxNow = false
  after_start : 0 < (fence.minTimestamp - header.timestamp).toNat
  before_end :
    (fence.minTimestamp - header.timestamp).toNat * cfg.samplesPerTs < cfg.samplesPerMsg
  near : (r.targetTimestamp - fence.minTimestamp).toNat * cfg.samplesPerTs < cfg.samplesPerMsg
  beyond : cfg.samplesPerMsg <
    ((fence.minTimestamp - header.timestamp).toNat +
      (r.targetTimestamp - fence.minTimestamp).toNat) * cfg.samplesPerTs
  inBuffer :
    ((fence.minTimestamp - header.timestamp).toNat +
      (r.targetTimestamp - fence.minTimestamp).toNat) * cfg.samplesPerTs <
      cfg.samplesPerMsg * (cfg.msgPerBuf - msgNum)

/-- The parser is at such a message, and has not decided to drop it. -/
structure Caught (cfg : MetaConfig) (stream : MetaStream) (fence : RxEpochFence)
    (x : RxParser × RxRead) : Prop where
  staying : ¬Left x
  trap : Trap cfg fence (stream x.1.consumed x.1.msgNum) x.1.msgNum x.2
  kept : x.1.metaState = .samples → x.1.msgEpochFilteredOut = false

/-! ## Timestamps near a boundary -/

theorem toNat_sub_of_le {b t : BitVec 64} {o : ℕ} (h : o ≤ (b - t).toNat) :
    (b - (t + BitVec.ofNat 64 o)).toNat = (b - t).toNat - o := by
  bv_omega

theorem toNat_sub_of_ge {b t : BitVec 64} {o : ℕ} (h : (b - t).toNat ≤ o) (ho : o < 2 ^ 64) :
    (t + BitVec.ofNat 64 o - b).toNat = o - (b - t).toNat := by
  bv_omega

theorem toNat_sub_behind {x b t : BitVec 64} {o : ℕ} (h : (b - t).toNat ≤ o) (ho : o < 2 ^ 64)
    (hx : o - (b - t).toNat ≤ (x - b).toNat) :
    (x - (t + BitVec.ofNat 64 o)).toNat = (x - b).toNat - (o - (b - t).toNat) := by
  have hsplit : x - (t + BitVec.ofNat 64 o) = x - b - (t + BitVec.ofNat 64 o - b) := by
    bv_omega
  rw [hsplit, BitVec.toNat_sub_of_le]
  · rw [toNat_sub_of_ge h ho]
  · rw [BitVec.le_def, toNat_sub_of_ge h ho]
    exact hx

theorem before_of_toNat {b t : BitVec 64} (h0 : 0 < (b - t).toNat) (h : (b - t).toNat < 2 ^ 63) :
    metadataTimestampAtOrAfter t b = false := by
  simp only [metadataTimestampAtOrAfter, decide_eq_false_iff_not, Nat.not_lt]
  bv_omega

theorem syncTimestampDeltaToSamples_eq {delta perTs available : ℕ}
    (h : delta * perTs < available) (hpos : 0 < perTs) :
    syncTimestampDeltaToSamples delta perTs available = delta * perTs := by
  have hdelta : delta < available / perTs + (if available % perTs ≠ 0 then 1 else 0) := by
    have hsplit := Nat.div_add_mod available perTs
    split
    · have hmod := Nat.mod_lt available hpos
      refine Nat.lt_of_mul_lt_mul_left (a := perTs) ?_
      rw [Nat.mul_add, Nat.mul_one, Nat.mul_comm perTs delta]
      omega
    · refine Nat.lt_of_mul_lt_mul_left (a := perTs) ?_
      rw [Nat.add_zero, Nat.mul_comm perTs delta]
      omega
  rw [syncTimestampDeltaToSamples, if_neg (by omega)]
  exact if_neg (by omega)

/-! ## What a turn keeps -/

/-- The parser keeps its place, and the call its whole time steps. -/
structure Steady (cfg : MetaConfig) (stream : MetaStream) (x : RxParser × RxRead) : Prop where
  sound : x.1.Sound cfg stream
  num_dvd : cfg.samplesPerTs ∣ x.2.numSamples
  dest_dvd : cfg.samplesPerTs ∣ x.2.dest.length

theorem metaHeader_dest :
    (p.metaHeader stream fence r).2.numSamples = r.numSamples ∧
      (p.metaHeader stream fence r).2.dest = r.dest := by
  unfold metaHeader
  dsimp only
  split <;> exact ⟨rfl, rfl⟩

theorem noteDropped_dest :
    (p.noteDropped r).numSamples = r.numSamples ∧ (p.noteDropped r).dest = r.dest := by
  unfold noteDropped
  split
  · exact ⟨rfl, rfl⟩
  · split
    · split
      · exact ⟨rfl, rfl⟩
      · split <;> exact ⟨rfl, rfl⟩
    · exact ⟨rfl, rfl⟩

theorem chunk_length (p : RxParser) (count : ℕ) : (p.chunk count).length = count := by
  simp [chunk]

theorem Steady.turn {x : RxParser × RxRead} (h : Steady cfg stream x)
    (hu : x.1.syncState = .usingBufferMeta) :
    Steady cfg stream (x.1.usingBufferMeta cfg stream fence admission x.2) := by
  have hsound : (x.1.usingBufferMeta cfg stream fence admission x.2).1.Sound cfg stream :=
    usingBufferMeta_sound h.sound hu h.num_dvd h.dest_dvd
  suffices hr : (x.1.usingBufferMeta cfg stream fence admission x.2).2.numSamples =
      x.2.numSamples ∧ cfg.samplesPerTs ∣
      (x.1.usingBufferMeta cfg stream fence admission x.2).2.dest.length from
    ⟨hsound, hr.1 ▸ h.num_dvd, hr.2⟩
  clear hsound
  obtain ⟨p, r⟩ := x
  have hkeep : ∀ r' : RxRead, r'.numSamples = r.numSamples ∧ r'.dest = r.dest →
      r'.numSamples = r.numSamples ∧ cfg.samplesPerTs ∣ r'.dest.length := by
    intro r' hr
    exact ⟨hr.1, hr.2 ▸ h.dest_dvd⟩
  unfold usingBufferMeta
  cases hm : p.metaState with
  | header => exact hkeep _ metaHeader_dest
  | samples =>
      dsimp only
      unfold metaSamples
      split
      · exact hkeep _ noteDropped_dest
      · split
        · exact hkeep _ ⟨rfl, rfl⟩
        · split
          · exact hkeep _ ⟨rfl, rfl⟩
          · split
            · unfold copySamples
              split
              · exact hkeep _ ⟨rfl, rfl⟩
              · refine ⟨rfl, ?_⟩
                show cfg.samplesPerTs ∣ (r.dest ++ p.chunk _).length
                rw [List.length_append, chunk_length]
                exact Nat.dvd_add h.dest_dvd
                  (samplesToCopy_dvd (h.sound.atSample hm) h.num_dvd h.dest_dvd)
            · exact hkeep _ ⟨rfl, rfl⟩

/-! ## A parser in the trap stays in it -/

section Trap

theorem Trap.before (h : Trap cfg fence (stream p.consumed p.msgNum) p.msgNum r)
    (hsize : cfg.samplesPerMsg < 2 ^ 32) :
    metadataTimestampAtOrAfter (stream p.consumed p.msgNum).timestamp fence.minTimestamp =
      false := by
  have hpos := cfg.samplesPerTs_pos
  have hle := Nat.le_mul_of_pos_right
    (fence.minTimestamp - (stream p.consumed p.msgNum).timestamp).toNat hpos
  have hend := h.before_end
  exact before_of_toNat h.after_start (by omega)

theorem Trap.header (h : Trap cfg fence (stream p.consumed p.msgNum) p.msgNum r)
    (hsize : cfg.samplesPerMsg < 2 ^ 32) :
    p.metaHeader stream fence r =
      ((p.readHeader fence (stream p.consumed p.msgNum)).enterSamples, r) := by
  have hbefore := h.before hsize
  have hstatus : headerStatus fence (stream p.consumed p.msgNum) r.userMeta = r.userMeta := by
    simp [headerStatus, h.bounded, hbefore]
  have hdisp : p.disposition fence (stream p.consumed p.msgNum) r.copiedData =
      .skipTimestampPrefix := by
    have hadmitted := h.admitted
    unfold filteredOut at hadmitted
    unfold disposition metadataRxEpochDisposition
    rw [hadmitted]
    simp [h.bounded, hbefore]
  unfold metaHeader
  dsimp only
  rw [hdisp, hstatus]

theorem AtSample.offset (ha : p.AtSample cfg stream) (hf : p.msgEpochFilteredOut = false) :
    ∃ o S, p.currMsgOff = cfg.samplesPerTs * o ∧ cfg.samplesPerMsg = cfg.samplesPerTs * S ∧
      0 < cfg.samplesPerTs ∧ o ≤ S ∧ S ≤ cfg.samplesPerMsg ∧
      p.currTimestamp = (stream p.consumed p.msgNum).timestamp + BitVec.ofNat 64 o := by
  obtain ⟨o, ho⟩ := ha.off_dvd
  obtain ⟨S, hS⟩ := cfg.aligned
  have hpos := cfg.samplesPerTs_pos
  have hcurr := ha.timestamp hf
  rw [ho, Nat.mul_div_cancel_left _ hpos] at hcurr
  have hle := ha.off_le
  rw [ho, hS] at hle
  exact ⟨o, S, ho, hS, hpos, Nat.le_of_mul_le_mul_left hle hpos,
    hS ▸ Nat.le_mul_of_pos_left S hpos, hcurr⟩

/-- A turn that changes nothing but the place inside the message. -/
def Stays (p p' : RxParser) : Prop :=
  p'.syncState = p.syncState ∧ p'.consumed = p.consumed ∧ p'.msgNum = p.msgNum ∧
    (p'.metaState = .samples → p'.msgEpochFilteredOut = false)

section

variable (h : Trap cfg fence (stream p.consumed p.msgNum) p.msgNum r)

include h

theorem Trap.skips
    (hsize : cfg.samplesPerMsg < 2 ^ 32) (ha : p.AtSample cfg stream)
    (hf : p.msgEpochFilteredOut = false)
    (hearly : metadataTimestampAtOrAfter p.currTimestamp fence.minTimestamp = false) :
    Stays p (p.skipToBoundary cfg fence) := by
  obtain ⟨o, S, ho, hS, hpos, hoff, hSle, hcurr⟩ := ha.offset hf
  have hend := h.before_end
  rw [hS, Nat.mul_comm] at hend
  have hend := Nat.lt_of_mul_lt_mul_left hend
  -- the place is in front of the boundary, not half the range behind it
  have hlt : o < (fence.minTimestamp - (stream p.consumed p.msgNum).timestamp).toNat := by
    by_contra hge
    rw [hcurr] at hearly
    simp only [metadataTimestampAtOrAfter, decide_eq_false_iff_not, Nat.not_lt] at hearly
    rw [toNat_sub_of_ge (by omega) (by omega)] at hearly
    omega
  have hleft : p.leftInMsg cfg = cfg.samplesPerTs * (S - o) := by
    rw [leftInMsg, ho, Nat.mul_sub, ← hS]
  have hto : (p.leftInMsg cfg + cfg.samplesPerTs - 1) / cfg.samplesPerTs = S - o := by
    rw [hleft, Nat.add_sub_assoc (by omega), Nat.mul_add_div hpos, Nat.div_eq_of_lt (by omega),
      Nat.add_zero]
  unfold skipToBoundary
  dsimp only
  rw [hto, hcurr, toNat_sub_of_le (Nat.le_of_lt hlt), if_neg (by omega)]
  exact ⟨rfl, rfl, rfl, fun _ => hf⟩

theorem Trap.seeks
    (hsize : cfg.samplesPerMsg < 2 ^ 32) (ha : p.AtSample cfg stream)
    (hf : p.msgEpochFilteredOut = false)
    (hlate : metadataTimestampAtOrAfter p.currTimestamp fence.minTimestamp = true) :
    metadataTimestampAtOrAfter r.targetTimestamp p.currTimestamp = true ∧
      r.targetTimestamp ≠ p.currTimestamp ∧
      (p.seek cfg r).metaState = .header ∧ Stays p (p.seek cfg r) := by
  obtain ⟨o, S, ho, hS, hpos, hoff, hSle, hcurr⟩ := ha.offset hf
  have hstart := h.after_start
  have hend := h.before_end
  have hbeyond := h.beyond
  have hnear := h.near
  have hbuffer := h.inBuffer
  generalize htime : (stream p.consumed p.msgNum).timestamp = start at *
  generalize ha' : (fence.minTimestamp - start).toNat = a at *
  generalize hd' : (r.targetTimestamp - fence.minTimestamp).toNat = d at *
  rw [hS, Nat.mul_comm] at hend hnear
  have hend := Nat.lt_of_mul_lt_mul_left hend
  have hnear := Nat.lt_of_mul_lt_mul_left hnear
  rw [hS, Nat.mul_comm (a + d)] at hbeyond
  have hbeyond := Nat.lt_of_mul_lt_mul_left hbeyond
  have hge : a ≤ o := by
    by_contra hlt
    rw [hcurr] at hlate
    simp only [metadataTimestampAtOrAfter, decide_eq_true_eq] at hlate
    bv_omega
  have hdelta : (r.targetTimestamp - p.currTimestamp).toNat = d - (o - a) := by
    have hinside : o - (fence.minTimestamp - start).toNat ≤
        (r.targetTimestamp - fence.minTimestamp).toNat := by omega
    rw [hcurr, toNat_sub_behind (ha'.trans_le hge) (by omega) hinside, hd', ha']
  have hleft : (d - (o - a)) * cfg.samplesPerTs < p.leftInBuffer cfg := by
    rw [leftInBuffer, ho, Nat.mul_comm]
    have hsum : a + d = (d - (o - a)) + o := by omega
    rw [hsum, Nat.add_mul, Nat.mul_comm _ cfg.samplesPerTs, Nat.mul_comm o] at hbuffer
    omega
  have hsamples := syncTimestampDeltaToSamples_eq hleft hpos
  have hremaining : p.tsRemaining cfg = S - o := by
    rw [tsRemaining, ho, hS, ← Nat.mul_sub, Nat.mul_div_cancel_left _ hpos]
  have hskip : timestampToMsg cfg ((d - (o - a)) * cfg.samplesPerTs) = 0 := by
    refine Nat.div_eq_of_lt ?_
    rw [hS, Nat.mul_comm]
    exact Nat.mul_lt_mul_of_pos_left (by omega) hpos
  refine ⟨?_, ?_, ?_⟩
  · simp only [metadataTimestampAtOrAfter, decide_eq_true_eq]
    omega
  · intro heq
    rw [heq, BitVec.sub_self] at hdelta
    have : (0#64).toNat = 0 := rfl
    omega
  · unfold seek
    dsimp only
    rw [hdelta, hsamples, if_neg (by omega), hremaining, if_neg (by omega), hskip]
    exact ⟨rfl, rfl, rfl, rfl, fun hm => by cases hm⟩

theorem Trap.samples
    (hsize : cfg.samplesPerMsg < 2 ^ 32) (ha : p.AtSample cfg stream)
    (hf : p.msgEpochFilteredOut = false) :
    ∃ p', p.metaSamples cfg stream fence admission r = (p', r) ∧ Stays p p' := by
  unfold metaSamples
  rw [if_neg (by simp [h.valid, hf])]
  cases hearly : metadataTimestampAtOrAfter p.currTimestamp fence.minTimestamp with
  | false =>
      rw [if_pos (by simp [h.bounded])]
      exact ⟨_, rfl, h.skips hsize ha hf hearly⟩
  | true =>
      obtain ⟨hlater, hne, -, hstays⟩ := h.seeks hsize ha hf hearly
      rw [if_neg (by simp), if_neg (by simp [hlater]), if_neg (by simp [h.timed, hne])]
      exact ⟨_, rfl, hstays⟩

end

theorem Caught.turn {x : RxParser × RxRead} (h : Caught cfg stream fence x)
    (hs : Steady cfg stream x) (hsize : cfg.samplesPerMsg < 2 ^ 32) :
    Caught cfg stream fence (x.1.usingBufferMeta cfg stream fence admission x.2) := by
  obtain ⟨p, r⟩ := x
  obtain ⟨hstay, htrap, hkept⟩ := h
  have hgo : ∀ p' : RxParser, Stays p p' → Caught cfg stream fence (p', r) := by
    rintro p' ⟨hsync, hconsumed, hnum, hkept'⟩
    refine ⟨?_, ?_, hkept'⟩
    · rintro (hleft | hdone)
      · exact hstay (.inl (hsync ▸ hleft))
      · exact hstay (.inr hdone)
    · show Trap cfg fence (stream p'.consumed p'.msgNum) p'.msgNum r
      rw [hconsumed, hnum]
      exact htrap
  unfold usingBufferMeta
  cases hm : p.metaState with
  | header =>
      dsimp only
      rw [htrap.header hsize]
      refine hgo _ ?_
      have hf : (p.readHeader fence (stream p.consumed p.msgNum)).msgEpochFilteredOut = false :=
        htrap.admitted
      unfold enterSamples
      rw [if_neg (by simp [hf])]
      exact ⟨rfl, rfl, rfl, fun _ => hf⟩
  | samples =>
      obtain ⟨p', heq, hstays⟩ := htrap.samples hsize (hs.sound.atSample hm) (hkept hm)
      dsimp only
      rw [heq]
      exact hgo p' hstays

end Trap

/-! ## Outside the trap every turn makes progress -/

/-- How much the parser may still do in a message it takes: the further down
this list of places, the less. -/
def spot (cfg : MetaConfig) (fence : RxEpochFence) (p : RxParser) (r : RxRead) : ℕ :=
  if fence.boundaryEnabled &&
      !metadataTimestampAtOrAfter p.currTimestamp fence.minTimestamp then
    if (p.leftInMsg cfg + cfg.samplesPerTs - 1) / cfg.samplesPerTs ≤
        (fence.minTimestamp - p.currTimestamp).toNat then 1
    else 5
  else if r.userMeta.rxNow || r.targetTimestamp == p.currTimestamp then 3
  else if p.currMsgOff = 0 then 5
  else if fence.boundaryEnabled && p.currTimestamp == fence.minTimestamp &&
      decide (p.currMsgOff < cfg.samplesPerMsg) then 4
  else 7

/-- How much it may still do in a message.  A message that was taken under an
earlier fence may be dropped when its header is read again. -/
def place (cfg : MetaConfig) (stream : MetaStream) (fence : RxEpochFence) (p : RxParser)
    (r : RxRead) : ℕ :=
  match p.metaState with
  | .header => 6
  | .samples =>
      if fence.dataInvalidated || p.msgEpochFilteredOut then 1
      else p.spot cfg fence r +
        if filteredOut fence (stream p.consumed p.msgNum) then 7 else 0

def rank (cfg : MetaConfig) (stream : MetaStream) (fence : RxEpochFence)
    (x : RxParser × RxRead) : ℕ :=
  if Left x then 0 else 16 * (cfg.msgPerBuf - x.1.msgNum) + place cfg stream fence x.1 x.2

theorem rank_of_left {x : RxParser × RxRead} (h : Left x) : rank cfg stream fence x = 0 :=
  if_pos h

theorem rank_le (p : RxParser) (r : RxRead) :
    rank cfg stream fence (p, r) ≤
      16 * (cfg.msgPerBuf - p.msgNum) + place cfg stream fence p r := by
  unfold rank
  split
  · exact Nat.zero_le _
  · exact Nat.le_refl _

theorem place_header (hm : p.metaState = .header) : place cfg stream fence p r = 6 := by
  unfold place
  rw [hm]

theorem rank_of_msgNum_lt {n : ℕ} (hn : n < cfg.msgPerBuf) (hlt : n < p.msgNum)
    (hm : p.metaState = .header) :
    rank cfg stream fence (p, r) < 16 * (cfg.msgPerBuf - n) := by
  have hrank : rank cfg stream fence (p, r) ≤ _ := rank_le p r
  rw [place_header hm] at hrank
  omega

theorem rank_nextMessage (hn : p.msgNum < cfg.msgPerBuf) :
    rank cfg stream fence (p.nextMessage cfg, r) < 16 * (cfg.msgPerBuf - p.msgNum) := by
  unfold nextMessage
  split
  · rw [rank_of_left (.inl (by simp [advanceRxBuffer]))]
    omega
  · exact rank_of_msgNum_lt hn (Nat.lt_succ_self _) rfl

theorem rank_skipMessage (hn : p.msgNum < cfg.msgPerBuf) :
    rank cfg stream fence (p.skipMessage cfg, r) < 16 * (cfg.msgPerBuf - p.msgNum) :=
  rank_nextMessage hn

theorem rank_of_place_lt {p' : RxParser} {r' : RxRead} (hnum : p'.msgNum = p.msgNum)
    (h : place cfg stream fence p' r' < place cfg stream fence p r) :
    rank cfg stream fence (p', r') <
      16 * (cfg.msgPerBuf - p.msgNum) + place cfg stream fence p r := by
  have hrank : rank cfg stream fence (p', r') ≤ _ := rank_le p' r'
  rw [hnum] at hrank
  omega

theorem spot_first (hoff : p.currMsgOff = 0) : p.spot cfg fence r ≤ 5 := by
  unfold spot
  repeat' split
  all_goals omega

theorem metaHeader_rank (hm : p.metaState = .header) :
    rank cfg stream fence (p.metaHeader stream fence r) <
      16 * (cfg.msgPerBuf - p.msgNum) + place cfg stream fence p r := by
  have hentered : ∀ r' : RxRead,
      rank cfg stream fence ((p.readHeader fence (stream p.consumed p.msgNum)).enterSamples, r') <
        16 * (cfg.msgPerBuf - p.msgNum) + place cfg stream fence p r := by
    intro r'
    unfold enterSamples
    by_cases hf : (p.readHeader fence (stream p.consumed p.msgNum)).msgEpochFilteredOut = true
    · rw [if_pos hf]
      refine rank_of_place_lt rfl ?_
      rw [place_header hm]
      simp [place, hf]
    · rw [if_neg hf]
      refine rank_of_place_lt rfl ?_
      rw [place_header hm]
      unfold place
      dsimp only
      split
      · omega
      · refine Nat.lt_of_le_of_lt (Nat.add_le_add (spot_first rfl) (Nat.le_of_eq (if_neg hf))) ?_
        omega
  unfold metaHeader
  dsimp only
  split
  · rw [rank_of_left (.inr (by simp [RxRead.done])), place_header hm]
    omega
  all_goals exact hentered _

theorem place_samples (hm : p.metaState = .samples) (hinv : fence.dataInvalidated = false)
    (hf : p.msgEpochFilteredOut = false) :
    place cfg stream fence p r = p.spot cfg fence r +
      if filteredOut fence (stream p.consumed p.msgNum) then 7 else 0 := by
  unfold place
  rw [hm]
  simp [hinv, hf]

theorem rank_of_spot_lt {p' : RxParser} (hm : p.metaState = .samples)
    (hinv : fence.dataInvalidated = false) (hf : p.msgEpochFilteredOut = false)
    (hm' : p'.metaState = .samples) (hstays : Stays p p')
    (hlt : p'.spot cfg fence r < p.spot cfg fence r) :
    rank cfg stream fence (p', r) <
      16 * (cfg.msgPerBuf - p.msgNum) + place cfg stream fence p r := by
  obtain ⟨-, hconsumed, hnum, hf'⟩ := hstays
  refine rank_of_place_lt hnum ?_
  rw [place_samples hm hinv hf, place_samples hm' hinv (hf' hm'), hconsumed, hnum]
  omega

theorem metadataTimestampAtOrAfter_self (t : BitVec 64) :
    metadataTimestampAtOrAfter t t = true := by
  simp [metadataTimestampAtOrAfter]

theorem skipToBoundary_rank (ha : p.AtSample cfg stream) (hn : p.msgNum < cfg.msgPerBuf)
    (hm : p.metaState = .samples) (hinv : fence.dataInvalidated = false)
    (hf : p.msgEpochFilteredOut = false)
    (hearly : (fence.boundaryEnabled &&
      !metadataTimestampAtOrAfter p.currTimestamp fence.minTimestamp) = true) :
    rank cfg stream fence (p.skipToBoundary cfg fence, r) <
      16 * (cfg.msgPerBuf - p.msgNum) + place cfg stream fence p r := by
  unfold skipToBoundary
  dsimp only
  by_cases hend : (p.leftInMsg cfg + cfg.samplesPerTs - 1) / cfg.samplesPerTs ≤
      (fence.minTimestamp - p.currTimestamp).toNat
  · rw [if_pos hend]
    have hskip : rank cfg stream fence (p.skipMessage cfg, r) < _ := rank_skipMessage hn
    omega
  · rw [if_neg hend]
    refine rank_of_spot_lt hm hinv hf hm ⟨rfl, rfl, rfl, fun _ => hf⟩ ?_
    have hspot : p.spot cfg fence r = 5 := by
      unfold spot
      rw [if_pos hearly, if_neg hend]
    have hpos := cfg.samplesPerTs_pos
    have hskip : 0 < (fence.minTimestamp - p.currTimestamp).toNat := by
      by_contra h0
      have heq : p.currTimestamp = fence.minTimestamp := by bv_omega
      rw [heq, metadataTimestampAtOrAfter_self] at hearly
      simp at hearly
    have hland : p.currTimestamp +
        BitVec.ofNat 64 (fence.minTimestamp - p.currTimestamp).toNat = fence.minTimestamp := by
      rw [BitVec.ofNat_toNat, BitVec.setWidth_eq]
      bv_omega
    -- the boundary is inside the message
    have hinside : p.currMsgOff +
        (fence.minTimestamp - p.currTimestamp).toNat * cfg.samplesPerTs < cfg.samplesPerMsg := by
      obtain ⟨k, hk⟩ := leftInMsg_dvd ha
      rw [hk, Nat.add_sub_assoc (by omega), Nat.mul_add_div hpos, Nat.div_eq_of_lt (by omega),
        Nat.add_zero, Nat.not_le] at hend
      have hmul := Nat.mul_lt_mul_of_pos_right hend hpos
      rw [Nat.mul_comm k, ← hk, leftInMsg] at hmul
      omega
    have hoff := Nat.mul_pos hskip hpos
    rw [hspot]
    unfold spot
    dsimp only
    rw [hland, metadataTimestampAtOrAfter_self, if_neg (by simp)]
    split
    · omega
    · have hbounded := (Bool.and_eq_true_iff.mp hearly).1
      rw [if_neg (by omega), hbounded, beq_self_eq_true, decide_eq_true hinside,
        if_pos (by decide)]
      omega

theorem copySamples_rank (hn : p.msgNum < cfg.msgPerBuf) (hm : p.metaState = .samples)
    (hinv : fence.dataInvalidated = false) (hf : p.msgEpochFilteredOut = false)
    (hearly : (fence.boundaryEnabled &&
      !metadataTimestampAtOrAfter p.currTimestamp fence.minTimestamp) = false)
    (hgo : (r.userMeta.rxNow || r.targetTimestamp == p.currTimestamp) = true) :
    rank cfg stream fence (p.copySamples cfg stream fence admission r) <
      16 * (cfg.msgPerBuf - p.msgNum) + place cfg stream fence p r := by
  have hspot : p.spot cfg fence r = 3 := by
    unfold spot
    rw [hearly, if_neg Bool.false_ne_true, if_pos hgo]
  have hplace : place cfg stream fence p r = _ := place_samples hm hinv hf
  unfold copySamples
  split
  · refine rank_of_place_lt rfl ?_
    have hdropped : place cfg stream fence
        { p with
          msgAdmissionWithheldReason := admission
          msgChannelFilteredOut := admission == bladerfRfWithheldRxChannelSelection
          msgEpochFilteredOut := true } r = 1 := by
      simp [place, hm]
    rw [hdropped, hplace, hspot]
    omega
  · unfold takeSamples
    dsimp only
    split
    · exact Nat.lt_of_lt_of_le (rank_nextMessage hn) (Nat.le_add_right _ _)
    · rename_i hleft
      -- the message is not used up, so the request is met
      have hdone : (p.giveSamples cfg stream r (samplesToCopy cfg p r)).done = true := by
        have hcount : samplesToCopy cfg p r = r.numSamples - r.dest.length := by
          change cfg.samplesPerMsg - (p.currMsgOff + samplesToCopy cfg p r) ≠ 0 at hleft
          unfold samplesToCopy leftInMsg at *
          omega
        have hmet : r.numSamples ≤
            (p.giveSamples cfg stream r (samplesToCopy cfg p r)).dest.length := by
          show r.numSamples ≤ (r.dest ++ p.chunk _).length
          rw [List.length_append, chunk_length, hcount]
          omega
        have hnum : (p.giveSamples cfg stream r (samplesToCopy cfg p r)).numSamples =
            r.numSamples := rfl
        simp [RxRead.done, hnum, hmet]
      rw [rank_of_left (.inr hdone), hplace, hspot]
      omega

theorem spot_at_target (hsize : cfg.samplesPerMsg < 2 ^ 32) {now : BitVec 64} {off count : ℕ}
    (hcount : count ≤ cfg.samplesPerMsg)
    (hlate : (fence.boundaryEnabled &&
      !metadataTimestampAtOrAfter now fence.minTimestamp) = false)
    (htarget : r.targetTimestamp = now + BitVec.ofNat 64 count) :
    ({ p with currMsgOff := off, currTimestamp := now + BitVec.ofNat 64 count } : RxParser).spot
      cfg fence r ≤ 3 := by
  unfold spot
  dsimp only
  split
  · -- only a timestamp half the range behind the boundary can come to lie before it
    rename_i hearly
    rw [if_pos ?_]
    · omega
    · simp only [Bool.and_eq_true, Bool.not_eq_eq_eq_not, Bool.not_true] at hearly
      rw [hearly.1, Bool.true_and, Bool.not_eq_eq_eq_not, Bool.not_false] at hlate
      have hbefore := hearly.2
      simp only [metadataTimestampAtOrAfter, decide_eq_true_eq, decide_eq_false_iff_not,
        Nat.not_lt] at hlate hbefore
      have hfar : 2 ^ 62 ≤ (fence.minTimestamp - (now + BitVec.ofNat 64 count)).toNat := by
        bv_omega
      refine Nat.le_trans (Nat.div_le_self _ _) ?_
      have hleft : cfg.samplesPerMsg - off ≤ cfg.samplesPerMsg := Nat.sub_le _ _
      rcases cfg.samplesPerTs_eq with h | h
      all_goals
        show cfg.samplesPerMsg - off + cfg.samplesPerTs - 1 ≤ _
        omega
  · rw [if_pos (by simp [htarget])]

theorem trap_of_seeksBack (ha : p.AtSample cfg stream) (hinv : fence.dataInvalidated = false)
    (hsize : cfg.samplesPerMsg < 2 ^ 32) (hf : p.msgEpochFilteredOut = false)
    (hadmitted : filteredOut fence (stream p.consumed p.msgNum) = false)
    (hbounded : fence.boundaryEnabled = true) (hnow : r.userMeta.rxNow = false)
    (hhere : p.currTimestamp = fence.minTimestamp) (hoff : p.currMsgOff ≠ 0)
    (hend : p.currMsgOff < cfg.samplesPerMsg)
    (hleft : (r.targetTimestamp - p.currTimestamp).toNat * cfg.samplesPerTs < p.leftInBuffer cfg)
    (hbeyond : p.tsRemaining cfg < (r.targetTimestamp - p.currTimestamp).toNat)
    (hnear : (r.targetTimestamp - p.currTimestamp).toNat * cfg.samplesPerTs < cfg.samplesPerMsg) :
    Trap cfg fence (stream p.consumed p.msgNum) p.msgNum r := by
  obtain ⟨o, S, ho, hS, hpos, -, hSle, hcurr⟩ := ha.offset hf
  have hlt : o < S := by
    rw [ho, hS] at hend
    exact Nat.lt_of_mul_lt_mul_left hend
  have hstart : (fence.minTimestamp - (stream p.consumed p.msgNum).timestamp).toNat = o := by
    rw [← hhere, hcurr]
    bv_omega
  have ho0 : 0 < o := by
    rcases Nat.eq_zero_or_pos o with rfl | h0
    · exact absurd ho hoff
    · exact h0
  rw [hhere] at hleft hbeyond hnear
  have hremaining : p.tsRemaining cfg = S - o := by
    rw [tsRemaining, ho, hS, ← Nat.mul_sub, Nat.mul_div_cancel_left _ hpos]
  rw [hremaining] at hbeyond
  refine ⟨hbounded, hinv, hadmitted, hnow, ?_, ?_, hnear, ?_, ?_⟩
  · omega
  · rw [hstart, hS, Nat.mul_comm]
    exact Nat.mul_lt_mul_of_pos_left hlt hpos
  · rw [hstart, hS, Nat.mul_comm]
    exact Nat.mul_lt_mul_of_pos_right (by omega) hpos
  · rw [hstart, Nat.add_mul, Nat.mul_comm o, ← ho]
    unfold leftInBuffer at hleft
    omega

theorem seek_rank (hs : Steady cfg stream (p, r)) (hsize : cfg.samplesPerMsg < 2 ^ 32)
    (hstay : ¬Left (p, r)) (hfree : ¬Caught cfg stream fence (p, r)) (hm : p.metaState = .samples)
    (hinv : fence.dataInvalidated = false) (hf : p.msgEpochFilteredOut = false)
    (hlate : (fence.boundaryEnabled &&
      !metadataTimestampAtOrAfter p.currTimestamp fence.minTimestamp) = false)
    (hgo : (r.userMeta.rxNow || r.targetTimestamp == p.currTimestamp) = false) :
    rank cfg stream fence (p.seek cfg r, r) <
      16 * (cfg.msgPerBuf - p.msgNum) + place cfg stream fence p r := by
  have ha := hs.sound.atSample hm
  have hn := hs.sound.msgNum_lt ha.inBuffer
  have hpos := cfg.samplesPerTs_pos
  have hplace : place cfg stream fence p r = _ := place_samples hm hinv hf
  have hspot : p.spot cfg fence r =
      if p.currMsgOff = 0 then 5
      else if fence.boundaryEnabled && p.currTimestamp == fence.minTimestamp &&
          decide (p.currMsgOff < cfg.samplesPerMsg) then 4
      else 7 := by
    unfold spot
    rw [hlate, if_neg Bool.false_ne_true, hgo, if_neg Bool.false_ne_true]
  have hhigh : 4 ≤ p.spot cfg fence r := by
    rw [hspot]
    repeat' split
    all_goals omega
  unfold seek
  dsimp only
  split
  · rw [rank_of_left (.inl (by simp [advanceRxBuffer]))]
    omega
  · rename_i hlt
    have hsamples := syncTimestampDeltaToSamples_of_lt hpos (Nat.not_le.mp hlt)
    rw [hsamples] at hlt ⊢
    split
    · rename_i hwithin
      have hland : r.targetTimestamp = p.currTimestamp +
          BitVec.ofNat 64 (r.targetTimestamp - p.currTimestamp).toNat := by
        rw [BitVec.ofNat_toNat, BitVec.setWidth_eq]
        bv_omega
      have hcount : (r.targetTimestamp - p.currTimestamp).toNat ≤ cfg.samplesPerMsg :=
        Nat.le_trans hwithin (Nat.le_trans (Nat.div_le_self _ _) (Nat.sub_le _ _))
      refine rank_of_spot_lt hm hinv hf hm ⟨rfl, rfl, rfl, fun _ => hf⟩ ?_
      exact Nat.lt_of_le_of_lt (spot_at_target hsize hcount hlate hland) (by omega)
    · rename_i hbeyond
      rcases Nat.eq_zero_or_pos (timestampToMsg cfg
          ((r.targetTimestamp - p.currTimestamp).toNat * cfg.samplesPerTs)) with hskip | hskip
      · refine rank_of_place_lt ?_ ?_
        · show p.msgNum + _ = p.msgNum
          rw [hskip, Nat.add_zero]
        · rw [place_header rfl, hplace]
          have hnear : (r.targetTimestamp - p.currTimestamp).toNat * cfg.samplesPerTs <
              cfg.samplesPerMsg := by
            rcases (Nat.div_eq_zero_iff).mp hskip with h | h
            · have := cfg.samplesPerMsg_pos
              omega
            · exact h
          -- from the first sample the target is a message away
          have hinside : p.currMsgOff ≠ 0 := by
            intro h0
            unfold tsRemaining at hbeyond
            rw [h0, Nat.sub_zero, Nat.not_le] at hbeyond
            have hmul := Nat.mul_le_mul_right cfg.samplesPerTs (Nat.le_of_lt hbeyond)
            rw [Nat.div_mul_cancel cfg.aligned] at hmul
            omega
          rw [hspot, if_neg hinside]
          split
          · rename_i hhere
            simp only [Bool.and_eq_true, beq_iff_eq, decide_eq_true_eq] at hhere
            cases hadmitted : filteredOut fence (stream p.consumed p.msgNum) with
            | true => simp
            | false =>
                have hnow := (Bool.or_eq_false_iff.mp hgo).1
                exact absurd ⟨hstay, trap_of_seeksBack ha hinv hsize hf hadmitted hhere.1.1 hnow
                  hhere.1.2 hinside hhere.2 (Nat.not_le.mp hlt) (Nat.not_le.mp hbeyond) hnear,
                  fun _ => hf⟩ hfree
          · omega
      · exact Nat.lt_of_lt_of_le (rank_of_msgNum_lt hn (Nat.lt_add_of_pos_right hskip) rfl)
          (Nat.le_add_right _ _)

theorem usingBufferMeta_rank {x : RxParser × RxRead} (hs : Steady cfg stream x)
    (hsize : cfg.samplesPerMsg < 2 ^ 32) (hstay : ¬Left x)
    (hfree : ¬Caught cfg stream fence x) :
    rank cfg stream fence (x.1.usingBufferMeta cfg stream fence admission x.2) <
      rank cfg stream fence x := by
  obtain ⟨p, r⟩ := x
  have hu : p.syncState = .usingBufferMeta := by
    by_contra hne
    exact hstay (.inl hne)
  have hn : p.msgNum < cfg.msgPerBuf := hs.sound.msgNum_lt hu
  have hrank : rank cfg stream fence (p, r) =
      16 * (cfg.msgPerBuf - p.msgNum) + place cfg stream fence p r := if_neg hstay
  rw [hrank]
  unfold usingBufferMeta
  cases hm : p.metaState with
  | header => exact metaHeader_rank hm
  | samples =>
      dsimp only
      unfold metaSamples
      by_cases hdrop : (fence.dataInvalidated || p.msgEpochFilteredOut) = true
      · rw [if_pos hdrop]
        exact Nat.lt_of_lt_of_le (rank_skipMessage hn) (Nat.le_add_right _ _)
      · rw [if_neg hdrop]
        simp only [Bool.or_eq_true, not_or, Bool.not_eq_true] at hdrop
        obtain ⟨hinv, hf⟩ := hdrop
        by_cases hearly : (fence.boundaryEnabled &&
            !metadataTimestampAtOrAfter p.currTimestamp fence.minTimestamp) = true
        · rw [if_pos hearly]
          exact skipToBoundary_rank (hs.sound.atSample hm) hn hm hinv hf hearly
        · rw [if_neg hearly]
          rw [Bool.not_eq_true] at hearly
          split
          · rw [rank_of_left (.inr (by simp [RxRead.done, bladerfErrTimePast]))]
            omega
          · by_cases hgo : (r.userMeta.rxNow || r.targetTimestamp == p.currTimestamp) = true
            · rw [if_pos hgo]
              exact copySamples_rank hn hm hinv hf hearly hgo
            · rw [if_neg hgo]
              rw [Bool.not_eq_true] at hgo
              exact seek_rank hs hsize hstay hfree hm hinv hf hearly hgo

/-! ## The loop -/

section Turns

variable {admissions : ℕ → BitVec 32}

theorem turns_succ {n : ℕ} (h : ¬Left (turns cfg stream fence admissions p r n)) :
    turns cfg stream fence admissions p r (n + 1) =
      (turns cfg stream fence admissions p r n).1.usingBufferMeta cfg stream fence (admissions n)
        (turns cfg stream fence admissions p r n).2 :=
  if_neg h

theorem turns_succ_of_left {n : ℕ} (h : Left (turns cfg stream fence admissions p r n)) :
    turns cfg stream fence admissions p r (n + 1) = turns cfg stream fence admissions p r n :=
  if_pos h

theorem turns_steady (hs : Steady cfg stream (p, r)) (n : ℕ) :
    Steady cfg stream (turns cfg stream fence admissions p r n) := by
  induction n with
  | zero => exact hs
  | succ n ih =>
      by_cases h : Left (turns cfg stream fence admissions p r n)
      · rw [turns_succ_of_left h]
        exact ih
      · rw [turns_succ h]
        refine ih.turn ?_
        by_contra hne
        exact h (.inl hne)

theorem turns_caught (hs : Steady cfg stream (p, r)) (hsize : cfg.samplesPerMsg < 2 ^ 32)
    {n : ℕ} (h : Caught cfg stream fence (turns cfg stream fence admissions p r n)) (k : ℕ) :
    Caught cfg stream fence (turns cfg stream fence admissions p r (n + k)) := by
  induction k with
  | zero => exact h
  | succ k ih =>
      rw [← Nat.add_assoc, turns_succ ih.staying]
      exact ih.turn (turns_steady hs _) hsize

theorem never_leaves (hs : Steady cfg stream (p, r)) (hsize : cfg.samplesPerMsg < 2 ^ 32)
    (h : Caught cfg stream fence (p, r)) (n : ℕ) :
    ¬Left (turns cfg stream fence admissions p r n) := by
  have hlater : Caught cfg stream fence (turns cfg stream fence admissions p r (0 + n)) :=
    turns_caught hs hsize h n
  rw [Nat.zero_add] at hlater
  exact hlater.staying

theorem turns_left {n : ℕ} (h : Left (turns cfg stream fence admissions p r n)) (k : ℕ) :
    Left (turns cfg stream fence admissions p r (n + k)) := by
  induction k with
  | zero => exact h
  | succ k ih =>
      rw [← Nat.add_assoc, turns_succ_of_left ih]
      exact ih

theorem leaves_iff (hs : Steady cfg stream (p, r)) (hsize : cfg.samplesPerMsg < 2 ^ 32) :
    (∃ n, Left (turns cfg stream fence admissions p r n)) ↔
      ∀ n, ¬Caught cfg stream fence (turns cfg stream fence admissions p r n) := by
  constructor
  · rintro ⟨n, hleft⟩ m hcaught
    have hlater := turns_left hleft m
    rw [Nat.add_comm] at hlater
    exact (turns_caught hs hsize hcaught n).staying hlater
  · intro hfree
    refine Lib.reaches_of_rank (rank cfg stream fence) ?_
    intro n hstay
    rw [turns_succ hstay]
    exact usingBufferMeta_rank (turns_steady hs n) hsize hstay (hfree n)

end Turns

end RxParser

/-! ## The reader -/

namespace RxReader

open RxParser

variable {cfg : MetaConfig} {stream : MetaStream} {s s' : RxReader} {c : RxCallState}

/-- What every run keeps, whatever the other threads do to the fence. -/
structure Placed (cfg : MetaConfig) (stream : MetaStream) (s : RxReader) : Prop where
  sound : s.parser.Sound cfg stream
  call : ∀ c, s.call = some c → Steady cfg stream (s.parser, c.read)
  waiting : ∀ c, s.call = some c → c.point = .waiting → s.parser.syncState = .waitForBuffer

theorem Placed.of_call (h : s.Placed cfg stream) (hparser : s'.parser = s.parser)
    (hcall : ∀ c', s'.call = some c' → c'.point ≠ .waiting ∧
      cfg.samplesPerTs ∣ c'.read.numSamples ∧ cfg.samplesPerTs ∣ c'.read.dest.length) :
    s'.Placed cfg stream := by
  have hsound : s'.parser.Sound cfg stream := hparser ▸ h.sound
  refine ⟨hsound, ?_, ?_⟩
  · intro c' hc'
    exact ⟨hsound, (hcall c' hc').2.1, (hcall c' hc').2.2⟩
  · intro c' hc' hw
    exact absurd hw (hcall c' hc').1

theorem Idles.sound {p p' : RxParser} {r r' : RxRead} (hi : Idles p r p' r')
    (h : p.Sound cfg stream) (hne : p.syncState ≠ .usingBufferMeta) : p'.Sound cfg stream := by
  refine .of_header (hi.metaState (h.header_of_ne hne)) ?_
  intro hu
  rw [hi.msgNum hu]
  exact cfg.msgPerBuf_pos

section

variable (h : s.Placed cfg stream)

include h

theorem Placed.dispatch (hcall : s.call = some c) (t : MetaTurn) :
    { s with
      parser := (dispatch cfg stream s.fence t s.parser c.read).1
      call := some
        { c with
          point := (dispatch cfg stream s.fence t s.parser c.read).2.1
          read := (dispatch cfg stream s.fence t s.parser c.read).2.2 } }.Placed cfg stream := by
  have hc := h.call c hcall
  have hsteady : Steady cfg stream ((RxReader.dispatch cfg stream s.fence t s.parser c.read).1,
      (RxReader.dispatch cfg stream s.fence t s.parser c.read).2.2) := by
    rcases dispatch_cases cfg stream s.fence t s.parser c.read with ⟨hu, heq⟩ | ⟨hne, hi, -⟩
    · rw [heq]
      exact hc.turn hu
    · refine ⟨hi.sound h.sound hne, ?_, ?_⟩
      · show cfg.samplesPerTs ∣ _
        rw [hi.noCopy.numSamples]
        exact hc.num_dvd
      · show cfg.samplesPerTs ∣ _
        rw [hi.noCopy.dest]
        exact hc.dest_dvd
  refine ⟨hsteady.sound, ?_, ?_⟩
  · rintro c' ⟨⟩
    exact hsteady
  · rintro c' ⟨⟩ hw
    rcases dispatch_point cfg stream s.fence t s.parser c.read with hl | ⟨-, hs, -⟩
    · exact absurd (hl.symm.trans hw) (by decide)
    · exact hs

theorem Placed.turn_step (hcall : s.call = some c) (t : MetaTurn) :
    (s.turn cfg stream c t).Placed cfg stream := by
  have hc := h.call c hcall
  have hleave : ∀ status : ℤ,
      { s with call := some (leaveLoop c status) }.Placed cfg stream := by
    intro status
    refine h.of_call rfl ?_
    rintro c' ⟨⟩
    exact ⟨(fun h => by cases h), hc.num_dvd, hc.dest_dvd⟩
  unfold turn
  split
  · exact hleave _
  · split
    · exact hleave _
    · split
      · exact hleave _
      · exact h.dispatch hcall t

theorem Placed.wake_step (hcall : s.call = some c)
    (hp : c.point = .waiting) (status : ℤ) (full : Bool) :
    (s.wake c status full).Placed cfg stream := by
  have hc := h.call c hcall
  have hne : s.parser.syncState ≠ .usingBufferMeta := by
    rw [h.waiting c hcall hp]
    decide
  have hsound : (s.wake c status full).parser.Sound cfg stream := by
    refine .of_header (h.sound.header_of_ne hne) ?_
    intro hu
    change (if status = 0 ∧ full = true then SyncState.bufferReady else .checkWorker) =
      .usingBufferMeta at hu
    split at hu
    · cases hu
    · cases hu
  refine ⟨hsound, ?_, ?_⟩
  · rintro c' ⟨⟩
    exact ⟨hsound, hc.num_dvd, hc.dest_dvd⟩
  · rintro c' ⟨⟩ hw
    cases hw

theorem Placed.setter {fence : RxEpochFence} {p : RxParser}
    {generation : ℕ} {pending : Bool} (hsound : p.Sound cfg stream)
    (hstate : s.parser.syncState = .waitForBuffer → p.syncState = .waitForBuffer) :
    { s with
      fence := fence
      parser := p
      certifiedGeneration := generation
      overrunPending := pending }.Placed cfg stream := by
  refine ⟨hsound, ?_, ?_⟩
  · intro c hcall
    exact ⟨hsound, (h.call c hcall).num_dvd, (h.call c hcall).dest_dvd⟩
  · intro c hcall hw
    exact hstate (h.waiting c hcall hw)

theorem Placed.invalidate_step (dropped : ℕ) (fpgaLossOnly : Bool) :
    (s.invalidate dropped fpgaLossOnly).Placed cfg stream := by
  unfold invalidate
  dsimp only
  by_cases hin : s.parser.syncState = .bufferReady ∨ s.parser.syncState = .usingBufferMeta
  · rw [if_pos hin]
    exact h.setter (.of_header rfl (fun hu => by cases hu)) (fun _ => rfl)
  · rw [if_neg hin]
    have hne : s.parser.syncState ≠ .usingBufferMeta := fun hu => hin (.inr hu)
    exact h.setter (.of_header (h.sound.header_of_ne hne) (fun hu => absurd hu hne)) id

theorem Placed.expectId_step (epochId : BitVec 8) :
    (s.expectId epochId).Placed cfg stream :=
  h.setter h.sound.refenced id

theorem Placed.step {a : RxReaderAct}
    (hs : step cfg stream s a = some s') : s'.Placed cfg stream := by
  cases a with
  | call request =>
      simp only [RxReader.step, Bool.and_eq_true, Option.isNone_iff_eq_none,
        Option.ite_none_right_eq_some, Option.some.injEq] at hs
      obtain ⟨⟨-, haligned⟩, rfl⟩ := hs
      refine h.of_call rfl ?_
      rintro c' ⟨⟩
      exact ⟨(fun h => by cases h), Nat.dvd_of_mod_eq_zero (beq_iff_eq.mp haligned),
        Nat.dvd_zero _⟩
  | enter =>
      obtain ⟨c, hcall, -, rfl⟩ := call_of_point hs
      have hc := h.call c hcall
      unfold RxReader.enter
      dsimp only
      generalize (if s.overrunPending then c.read.userMeta.markOverrun else c.read.userMeta) =
        user
      split
      · refine h.of_call rfl ?_
        rintro c' ⟨⟩
        exact ⟨(fun h => by cases h), hc.num_dvd, hc.dest_dvd⟩
      · refine h.of_call rfl ?_
        rintro c' ⟨⟩
        exact ⟨(fun h => by cases h), hc.num_dvd, hc.dest_dvd⟩
  | turn t =>
      obtain ⟨c, hcall, -, rfl⟩ := call_of_point hs
      exact h.turn_step hcall t
  | wake status full =>
      obtain ⟨c, hcall, hp, rfl⟩ := call_of_point hs
      exact h.wake_step hcall hp status full
  | leave =>
      obtain ⟨c, -, -, rfl⟩ := call_of_point hs
      refine h.of_call rfl ?_
      intro c' hc'
      cases hc'
  | overrun =>
      cases hs
      exact h.setter h.sound id
  | advanceGeneration =>
      cases hs
      exact ⟨h.sound, h.call, h.waiting⟩
  | invalidate dropped fpgaLossOnly =>
      obtain ⟨-, ⟨⟩⟩ := Option.ite_none_right_eq_some.mp hs
      exact h.invalidate_step dropped fpgaLossOnly
  | expectId epochId =>
      obtain ⟨-, ⟨⟩⟩ := Option.ite_none_right_eq_some.mp hs
      exact h.expectId_step epochId
  | stageMinTimestamp minTimestamp epochId inTime =>
      obtain ⟨-, ⟨⟩⟩ := Option.ite_none_right_eq_some.mp hs
      unfold stageMinTimestamp
      split
      · exact h.setter h.sound id
      · exact h
  | activate admitted =>
      obtain ⟨-, ⟨⟩⟩ := Option.ite_none_right_eq_some.mp hs
      unfold activate
      split
      · exact h.setter h.sound id
      · exact h

end

theorem start_placed (epochContract : Bool) : (start epochContract).Placed cfg stream := by
  refine ⟨.of_header rfl (fun h => by cases h), ?_, ?_⟩
  · intro c hc
    cases hc
  · intro c hc
    cases hc

/-- A call of any run, in a buffer at any point: whatever the board answers, it
leaves the buffer, or its loop, after finitely many turns exactly if it never
comes to a trap.  The size of a message is an `unsigned int`. -/
theorem syncRx_leaves_buffer (cfg : MetaConfig) (hsize : cfg.samplesPerMsg < 2 ^ 32)
    (stream : MetaStream) (epochContract : Bool) (acts : List RxReaderAct) (s : RxReader)
    (c : RxCallState)
    (hrun : Lib.Steps (RxReader.step cfg stream) (fun _ _ => True) (start epochContract) acts s)
    (hcall : s.call = some c) (admissions : ℕ → BitVec 32) :
    (∃ n, Left (turns cfg stream s.fence admissions s.parser c.read n)) ↔
      ∀ n, ¬Caught cfg stream s.fence (turns cfg stream s.fence admissions s.parser c.read n) := by
  have h : s.Placed cfg stream :=
    hrun.invariant (start_placed epochContract) (fun h _ hs => h.step hs)
  exact leaves_iff (h.call c hcall) hsize

def seekingRead : List RxReaderAct :=
  [.call ⟨2, false, 105#64, true⟩, .enter, .turn quietTurn, .turn quietTurn, .turn quietTurn]

/-- With an epoch that is valid from 101 on, one message before 105, the read gets to
its samples. -/
theorem syncRx_leaves_buffer_boundary :
    ∃ (s : RxReader) (c : RxCallState),
      Lib.Steps (RxReader.step smallBuffers steadyStream) (fun _ _ => True) (start false)
        (transition 7#8 101#64 ++ seekingRead) s ∧
      s.call = some c ∧ s.parser.syncState = .usingBufferMeta ∧ s.fence.boundaryEnabled = true ∧
      ∀ n, ¬Caught smallBuffers steadyStream s.fence
        (turns smallBuffers steadyStream s.fence (fun _ => 0#32) s.parser c.read n) := by
  have hrun : Lib.Steps (RxReader.step smallBuffers steadyStream) (fun _ _ => True) (start false)
      (transition 7#8 101#64 ++ seekingRead) _ := Lib.Steps.of_exec rfl
  refine ⟨_, _, hrun, rfl, rfl, rfl, ?_⟩
  exact (syncRx_leaves_buffer smallBuffers (by decide) steadyStream false _ _ _ hrun rfl
    (fun _ => 0#32)).mp ⟨8, by decide⟩

/-- With an epoch that is valid from 102 on, the same read turns round in the
message from 100 to 103 for ever. -/
theorem syncRx_never_leaves_buffer :
    ∃ (s : RxReader) (c : RxCallState),
      Lib.Steps (RxReader.step smallBuffers steadyStream) (fun _ _ => True) (start false)
        (transition 7#8 102#64 ++ seekingRead) s ∧
      s.call = some c ∧ s.parser.syncState = .usingBufferMeta ∧
      ∀ n, ¬Left (turns smallBuffers steadyStream s.fence (fun _ => 0#32) s.parser c.read n) := by
  have hrun : Lib.Steps (RxReader.step smallBuffers steadyStream) (fun _ _ => True) (start false)
      (transition 7#8 102#64 ++ seekingRead) _ := Lib.Steps.of_exec rfl
  refine ⟨_, _, hrun, rfl, rfl, ?_⟩
  have hplaced := hrun.invariant (start_placed false) (fun h _ hs => h.step hs)
  intro n
  refine never_leaves (hplaced.call _ rfl) (by decide) ⟨?_, ?_, ?_⟩ n
  · decide
  · exact ⟨by decide, by decide, by decide, by decide, by decide, by decide, by decide,
      by decide, by decide⟩
  · decide

end RxReader
end BladeRF
