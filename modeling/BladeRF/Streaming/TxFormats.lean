/-
# `Streaming.TxFormats` — `sync_tx` with SC16_Q11_META and with SC8_Q7_META

The writer behind USING_BUFFER_META is one and the same for both formats, but
`handle_tx_parameters` and the end of a burst ask for SC16_Q11_META.  Here a call
is run with its return code: a turn of the loop may stop it with the status of the
worker, of a wait, of the time limit or of the handover of a buffer.
-/
import BladeRF.Streaming.TxMeta

namespace BladeRF

variable {α : Type*}

/-! ## Calls and their return codes -/

/-- The formats that `SYNC_STATE_BUFFER_READY` sends to USING_BUFFER_META. -/
inductive TxMetaFormat where
  | sc16q11Meta
  | sc8q7Meta
deriving DecidableEq

structure TxTurn (α : Type*) where
  turn : TxWriter.Turn α
  /-- `sync_timeout_remaining_ms` -/
  timeStatus : ℤ := 0
  /-- the worker is in error, or about to stop -/
  checkStatus : ℤ := 0
  /-- `sync_worker_wait_for_state` -/
  startStatus : ℤ := 0
  /-- `reclaim_tx_submission`, `wait_for_buffer` -/
  waitStatus : ℤ := 0
  /-- `advance_tx_buffer` -/
  submitStatus : ℤ := 0
  /-- the buffer stays FULL in the ring in spite of that status -/
  kept : Bool := false

/-- A call of `sync_tx`, and what it meets. -/
structure TxInput (α : Type*) where
  samples : List α
  user : Option TxUserMeta
  /-- `s`, `samples` and `num_samples` can be used -/
  valid : Bool := true
  /-- `bladerf_monotonic_now_ns` -/
  clockOk : Bool := true
  turns : List (TxTurn α)

namespace TxWriter

/-- `handle_tx_parameters` -/
def handleTxParametersFor (format : TxMetaFormat) (w : TxWriter α) (user : Option TxUserMeta) :
    Except ℤ (TxWriter α × TxOptions) :=
  if format = .sc16q11Meta then w.handleTxParameters user else .ok (w, {})

variable (cfg : MetaConfig)

/-- The handover behind the last message.  A buffer the backend refuses is filled
again from its start. -/
def advanceStatus (w : TxWriter α) (c : TxCall α) (e : TxTurn α) :
    (TxWriter α × TxCall α) × ℤ :=
  let r := w.advance cfg c
  if w.msgNum < cfg.msgPerBuf then (r, 0)
  else if e.submitStatus = 0 ∨ e.kept then (r, e.submitStatus)
  else
    (({ r.1 with
        submitted := w.submitted
        metaState := .header
        currMsgOff := 0 }, r.2), e.submitStatus)

/-- `SYNC_META_STATE_SAMPLES` -/
def fillSamplesStatus [Zero α] (w : TxWriter α) (c : TxCall α) (e : TxTurn α) :
    (TxWriter α × TxCall α) × ℤ :=
  let (w, c) := w.zeroPad cfg c
  let (w, c) := w.copySamples cfg c
  ((w.flush cfg c).nextMessage cfg).advanceStatus cfg c e

/-- A turn of the loop, with `status`. -/
def turnStatus [Zero α] (w : TxWriter α) (c : TxCall α) (e : TxTurn α) :
    (TxWriter α × TxCall α) × ℤ :=
  if e.timeStatus ≠ 0 then ((w, c), e.timeStatus)
  else match w.syncState with
    | .checkWorker =>
        if e.checkStatus ≠ 0 then ((w, c), e.checkStatus) else (w.turn cfg c e.turn, 0)
    | .startWorker =>
        if e.startStatus ≠ 0 then ((w, c), e.startStatus) else (w.turn cfg c e.turn, 0)
    | .waitForBuffer =>
        if e.turn.bufferEmpty then (w.turn cfg c e.turn, 0) else ((w, c), e.waitStatus)
    | .usingBufferMeta =>
        match w.metaState with
        | .header => (w.turn cfg c e.turn, 0)
        | .samples => w.fillSamplesStatus cfg c e
    | .bufferReady | .resetBufMgmt | .usingBuffer | .usingPacketMeta => (w.turn cfg c e.turn, 0)

def loopStatus [Zero α] : List (TxTurn α) → TxWriter α → TxCall α → Option (ℤ × TxWriter α)
  | [], w, c => if c.active then none else some (0, w)
  | e :: turns, w, c =>
      if c.active then
        let r := w.turnStatus cfg c e
        if r.2 ≠ 0 then some (r.2, r.1.1) else loopStatus turns r.1.1 r.1.2
      else some (0, w)

def endBurst (format : TxMetaFormat) (user : Option TxUserMeta) (r : ℤ × TxWriter α) :
    ℤ × TxWriter α :=
  if r.1 = 0 ∧ format = .sc16q11Meta ∧ (user.any fun u => u.burstEnd) then
    (r.1, { r.2 with inBurst := false, now := false })
  else r

/-- `sync_tx`: the return code and the state behind the call. -/
def syncTxFor [Zero α] (format : TxMetaFormat) (w : TxWriter α) (i : TxInput α) :
    Option (ℤ × TxWriter α) :=
  if !i.valid ∨ i.samples.length % cfg.samplesPerTs ≠ 0 then some (bladerfErrInval, w)
  else if !i.clockOk then some (bladerfErrUnexpected, w)
  else match w.handleTxParametersFor format i.user with
    | .error status => some (status, w)
    | .ok (w, op) =>
        (loopStatus cfg i.turns w { samples := i.samples, user := i.user.getD {}, op }).map
          (endBurst format i.user)

end TxWriter

/-! ## What a caller and the part get to see -/

structure TxView (α : Type*) where
  /-- the buffers handed over, and the one that is being filled -/
  buffers : List (TxBuffer α)
  inBurst : Bool
  now : Bool
  currTimestamp : BitVec 64

namespace TxWriter

def view (w : TxWriter α) : TxView α where
  buffers := w.submitted ++ if w.syncState = .usingBufferMeta then [w.buffer] else []
  inBurst := w.inBurst
  now := w.now
  currTimestamp := w.currTimestamp

variable (cfg : MetaConfig)

/-- Return code and view behind every call; a call that does not return is the last. -/
def outcomes [Zero α] (format : TxMetaFormat) :
    TxWriter α → List (TxInput α) → List (Option (ℤ × TxView α))
  | _, [] => []
  | w, i :: calls =>
      match w.syncTxFor cfg format i with
      | none => [none]
      | some r => some (r.1, r.2.view) :: outcomes format r.2 calls

def writerAfter [Zero α] (format : TxMetaFormat) :
    TxWriter α → List (TxInput α) → Option (TxWriter α)
  | w, [] => some w
  | w, i :: calls => (w.syncTxFor cfg format i).bind fun r => writerAfter format r.2 calls

/-- A call of `n` samples asks for nothing: no burst, and no timestamp but the one
that comes anyway. -/
def Neutral (w : TxWriter α) (n : ℕ) : Option TxUserMeta → Prop
  | none => False
  | some user =>
      user.burstStart = false ∧ user.burstEnd = false ∧ user.txNow = false ∧
        (user.updateTimestamp = true →
          if n = 0 then w.timestampInPast user = false
          else user.timestamp = w.currTimestamp)

/-- The call is refused before its metadata is looked at, or it asks for nothing. -/
def Quiet (w : TxWriter α) (i : TxInput α) : Prop :=
  i.valid = false ∨ i.samples.length % cfg.samplesPerTs ≠ 0 ∨ i.clockOk = false ∨
    w.Neutral i.samples.length i.user

def NeutralRun [Zero α] : TxWriter α → List (TxInput α) → Prop
  | _, [] => True
  | w, i :: calls =>
      w.Quiet cfg i ∧ ∀ r, w.syncTxFor cfg .sc16q11Meta i = some r → NeutralRun r.2 calls

/-- `sync_init` has set the stream up. -/
structure Opened (w : TxWriter α) : Prop where
  syncState : w.syncState = .checkWorker
  metaState : w.metaState = .header
  inBurst : w.inBurst = false
  now : w.now = false

end TxWriter

/-! ## Calls that ask for nothing -/

/-- The same call for both formats: the one may still have a timestamp to reach,
which is the one that comes anyway. -/
structure TxCall.Matches (w : TxWriter α) (c c' : TxCall α) : Prop where
  samples : c'.samples = c.samples
  written : c'.written = c.written
  flush : c'.op.flush = c.op.flush
  zeroPad : c'.op.zeroPad = false
  reached : c.op.zeroPad = true → c.user.timestamp = w.currTimestamp

namespace TxWriter

variable {cfg : MetaConfig} {w : TxWriter α} {c c' : TxCall α}

theorem put_zero (w : TxWriter α) (f : ℕ → α) : w.put 0 f = w := by
  have hfill (m : TxMessage α) : m.fill w.currMsgOff 0 f = m := by
    have hnone (k : ℕ) : ¬(w.currMsgOff ≤ k ∧ k < w.currMsgOff + 0) := by omega
    simp only [TxMessage.fill, hnone, if_false]
  simp only [put, hfill, ite_self, Nat.add_zero]

variable [Zero α]

theorem deltaToSamples_zero (perTs available : ℕ) :
    syncTimestampDeltaToSamples 0 perTs available = 0 := by
  unfold syncTimestampDeltaToSamples
  split
  · rfl
  · dsimp only
    rw [Nat.zero_mul]
    split
    · rw [if_neg (Nat.not_succ_le_zero _)]
    · rename_i hmod
      split
      · rename_i hdiv
        have hnone : available / perTs = 0 := Nat.le_zero.mp hdiv
        rw [← Nat.div_add_mod available perTs, hnone, not_not.mp hmod]
        rfl
      · rfl

theorem zeroPad_reached (cfg : MetaConfig) (h : TxCall.Matches w c c') :
    (w.zeroPad cfg c).1 = w ∧ TxCall.Matches w (w.zeroPad cfg c).2 c' ∧
      ((w.zeroPad cfg c).2.op.zeroPad = true → w.leftInMsg cfg = 0) := by
  unfold zeroPad
  cases hpad : c.op.zeroPad with
  | false => exact ⟨rfl, h, fun hp => absurd (hpad.symm.trans hp) Bool.false_ne_true⟩
  | true =>
      have hts := h.reached hpad
      have hzero : syncTimestampDeltaToSamples (c.user.timestamp - w.currTimestamp).toNat
          cfg.samplesPerTs (w.leftInMsg cfg) = 0 := by
        have hdelta : (c.user.timestamp - w.currTimestamp).toNat = 0 := by
          rw [hts, BitVec.sub_self]
          rfl
        rw [hdelta, deltaToSamples_zero]
      simp only [if_true, hzero, put_zero]
      split
      · rename_i hfull
        refine ⟨?_, h, fun _ => hfull.2⟩
        simp [samplesToTimestampDelta]
      · rw [hts]
        exact ⟨rfl, ⟨h.samples, h.written, h.flush, h.zeroPad, fun hp => by cases hp⟩,
          fun hp => by cases hp⟩

theorem copySamples_matches (h : TxCall.Matches w c c')
    (hfull : c.op.zeroPad = true → w.leftInMsg cfg = 0) :
    (w.copySamples cfg c').1 = (w.copySamples cfg c).1 ∧
      TxCall.Matches (w.copySamples cfg c).1 (w.copySamples cfg c).2 (w.copySamples cfg c').2 ∧
      ((w.copySamples cfg c).2.op.zeroPad = true → (w.copySamples cfg c).1.leftInMsg cfg = 0) := by
  unfold copySamples
  rw [h.samples, h.written]
  dsimp only
  split
  · exact ⟨rfl, h, hfull⟩
  · rename_i hcopy
    refine ⟨rfl, ⟨rfl, rfl, h.flush, h.zeroPad, fun hp => ?_⟩, fun hp => ?_⟩
    · rw [hfull hp, Nat.min_zero] at hcopy
      exact absurd rfl hcopy
    · rw [hfull hp, Nat.min_zero] at hcopy
      exact absurd rfl hcopy

theorem flush_matches (h : TxCall.Matches w c c')
    (hfull : c.op.zeroPad = true → w.leftInMsg cfg = 0) :
    w.flush cfg c' = w.flush cfg c ∧ TxCall.Matches (w.flush cfg c) c c' := by
  unfold flush
  rw [h.flush]
  dsimp only
  split
  · rename_i hflush
    exact ⟨rfl, h.samples, h.written, h.flush, h.zeroPad, fun hp => absurd (hfull hp) hflush.1⟩
  · exact ⟨rfl, h⟩

omit [Zero α] in
theorem advanceStatus_matches (h : TxCall.Matches w c c') (e : TxTurn α) :
    (w.advanceStatus cfg c' e).2 = (w.advanceStatus cfg c e).2 ∧
      (w.advanceStatus cfg c' e).1.1 = (w.advanceStatus cfg c e).1.1 ∧
      TxCall.Matches (w.advanceStatus cfg c e).1.1 (w.advanceStatus cfg c e).1.2
        (w.advanceStatus cfg c' e).1.2 := by
  have hadvance : (w.advance cfg c').1 = (w.advance cfg c).1 ∧
      TxCall.Matches (w.advance cfg c).1 (w.advance cfg c).2 (w.advance cfg c').2 := by
    unfold advance
    split
    · refine ⟨rfl, h.samples, h.written, ?_, h.zeroPad, h.reached⟩
      rw [h.flush, h.written, h.samples]
    · exact ⟨rfl, h⟩
  obtain ⟨hsame, hmatches⟩ := hadvance
  unfold advanceStatus
  dsimp only
  split
  · exact ⟨rfl, hsame, hmatches⟩
  · split
    · exact ⟨rfl, hsame, hmatches⟩
    · exact ⟨rfl, by rw [hsame], hmatches.samples, hmatches.written, hmatches.flush,
        hmatches.zeroPad, hmatches.reached⟩

theorem fillSamplesStatus_matches (h : TxCall.Matches w c c') (e : TxTurn α) :
    (w.fillSamplesStatus cfg c' e).2 = (w.fillSamplesStatus cfg c e).2 ∧
      (w.fillSamplesStatus cfg c' e).1.1 = (w.fillSamplesStatus cfg c e).1.1 ∧
      TxCall.Matches (w.fillSamplesStatus cfg c e).1.1 (w.fillSamplesStatus cfg c e).1.2
        (w.fillSamplesStatus cfg c' e).1.2 := by
  obtain ⟨hw, hpad, hfull⟩ := zeroPad_reached cfg h
  have hplain : w.zeroPad cfg c' = (w, c') := by
    unfold zeroPad
    rw [if_neg (by rw [h.zeroPad]; exact Bool.false_ne_true)]
  unfold fillSamplesStatus
  dsimp only
  rw [hplain, hw]
  obtain ⟨hcopied, hcopy, hfull'⟩ := copySamples_matches hpad hfull
  obtain ⟨hflushed, hflush⟩ := flush_matches hcopy hfull'
  rw [hcopied, hflushed]
  refine advanceStatus_matches ?_ e
  refine ⟨hflush.samples, hflush.written, hflush.flush, hflush.zeroPad, fun hp => ?_⟩
  rw [hflush.reached hp]
  unfold nextMessage
  split <;> rfl

theorem turn_outside (cfg : MetaConfig) (c c' : TxCall α) (e : Turn α)
    (h : w.syncState = .usingBufferMeta → w.metaState = .header) :
    (w.turn cfg c e).2 = c ∧ (w.turn cfg c' e).1 = (w.turn cfg c e).1 ∧
      (w.turn cfg c e).1.currTimestamp = w.currTimestamp := by
  unfold turn
  cases hstate : w.syncState with
  | usingBufferMeta =>
      rw [h hstate]
      exact ⟨rfl, rfl, rfl⟩
  | _ => exact ⟨rfl, rfl, rfl⟩

theorem turnStatus_matches (cfg : MetaConfig) (h : TxCall.Matches w c c') (e : TxTurn α) :
    (w.turnStatus cfg c' e).2 = (w.turnStatus cfg c e).2 ∧
      (w.turnStatus cfg c' e).1.1 = (w.turnStatus cfg c e).1.1 ∧
      TxCall.Matches (w.turnStatus cfg c e).1.1 (w.turnStatus cfg c e).1.2
        (w.turnStatus cfg c' e).1.2 := by
  have hstill : (w.syncState = .usingBufferMeta → w.metaState = .header) →
      (w.turn cfg c' e.turn).1 = (w.turn cfg c e.turn).1 ∧
        TxCall.Matches (w.turn cfg c e.turn).1 (w.turn cfg c e.turn).2
          (w.turn cfg c' e.turn).2 := by
    intro hout
    obtain ⟨hcall, hsame, htime⟩ := turn_outside cfg c c' e.turn hout
    obtain ⟨hcall', -, -⟩ := turn_outside cfg c' c e.turn hout
    refine ⟨hsame, ?_⟩
    rw [hcall, hcall']
    exact ⟨h.samples, h.written, h.flush, h.zeroPad, fun hp => (h.reached hp).trans htime.symm⟩
  unfold turnStatus
  split
  · exact ⟨rfl, rfl, h⟩
  · cases hstate : w.syncState with
    | usingBufferMeta =>
        cases hmeta : w.metaState with
        | header =>
            obtain ⟨hsame, hmatches⟩ := hstill fun _ => hmeta
            exact ⟨rfl, hsame, hmatches⟩
        | samples => exact fillSamplesStatus_matches h e
    | checkWorker =>
        obtain ⟨hsame, hmatches⟩ := hstill fun hs => by rw [hstate] at hs; cases hs
        dsimp only
        split
        · exact ⟨rfl, rfl, h⟩
        · exact ⟨rfl, hsame, hmatches⟩
    | startWorker =>
        obtain ⟨hsame, hmatches⟩ := hstill fun hs => by rw [hstate] at hs; cases hs
        dsimp only
        split
        · exact ⟨rfl, rfl, h⟩
        · exact ⟨rfl, hsame, hmatches⟩
    | waitForBuffer =>
        obtain ⟨hsame, hmatches⟩ := hstill fun hs => by rw [hstate] at hs; cases hs
        dsimp only
        split
        · exact ⟨rfl, hsame, hmatches⟩
        · exact ⟨rfl, rfl, h⟩
    | _ =>
        obtain ⟨hsame, hmatches⟩ := hstill fun hs => by rw [hstate] at hs; cases hs
        exact ⟨rfl, hsame, hmatches⟩

theorem loopStatus_matches (turns : List (TxTurn α)) (h : TxCall.Matches w c c') :
    loopStatus cfg turns w c' = loopStatus cfg turns w c := by
  induction turns generalizing w c c' with
  | nil =>
      unfold loopStatus TxCall.active
      rw [h.samples, h.written, h.flush]
  | cons e turns ih =>
      have hactive : c'.active = c.active := by
        unfold TxCall.active
        rw [h.samples, h.written, h.flush]
      obtain ⟨hstatus, hsame, hmatches⟩ := turnStatus_matches cfg h e
      unfold loopStatus
      rw [hactive]
      dsimp only
      rw [hstatus, hsame, ih hmatches]

end TxWriter

namespace TxWriter

variable {cfg : MetaConfig} {w : TxWriter α}

variable {user : TxUserMeta} {n : ℕ}

theorem timestampInPast_self (h : user.timestamp = w.currTimestamp) :
    w.timestampInPast user = false := by
  simp [timestampInPast, metadataTimestampAtOrAfter, h]

theorem handleTxParameters_neutral {user : Option TxUserMeta} (h : w.Neutral n user) :
    ∃ u, user = some u ∧ u.burstEnd = false ∧
      w.handleTxParameters user = .ok (w, { zeroPad := u.updateTimestamp }) ∧
      (n ≠ 0 → u.updateTimestamp = true → u.timestamp = w.currTimestamp) := by
  cases user with
  | none => exact h.elim
  | some u =>
      obtain ⟨hstart, hend, hnow, hupdate⟩ := h
      refine ⟨u, rfl, hend, ?_, fun hn hu => ?_⟩
      · cases hu : u.updateTimestamp with
        | false =>
            simp only [handleTxParameters, hstart, hend, hnow, hu, Bool.false_eq_true, if_false]
            rfl
        | true =>
            have hpast : w.timestampInPast u = false := by
              have hcond := hupdate hu
              split at hcond
              · exact hcond
              · exact timestampInPast_self hcond
            simp only [handleTxParameters, hstart, hend, hnow, hu, hpast, Bool.false_eq_true,
              if_false, if_true]
            rfl
      · have hcond := hupdate hu
        rwa [if_neg hn] at hcond

variable [Zero α]

theorem loopStatus_idle {c : TxCall α} (turns : List (TxTurn α)) (h : c.active = false) :
    loopStatus cfg turns w c = some (0, w) := by
  cases turns with
  | nil => rw [loopStatus, h, if_neg Bool.false_ne_true]
  | cons e turns => rw [loopStatus, h, if_neg Bool.false_ne_true]

theorem syncTxFor_quiet {i : TxInput α} (h : w.Quiet cfg i) :
    w.syncTxFor cfg .sc8q7Meta i = w.syncTxFor cfg .sc16q11Meta i := by
  unfold syncTxFor
  split
  · rfl
  · rename_i hargs
    split
    · rfl
    · rename_i hclock
      simp only [not_or, Bool.not_eq_true', Bool.not_eq_false, not_not] at hargs hclock
      have hneutral : w.Neutral i.samples.length i.user := by
        rcases h with hvalid | halign | hclock' | hneutral
        · rw [hargs.1] at hvalid
          cases hvalid
        · exact absurd hargs.2 halign
        · rw [hclock] at hclock'
          cases hclock'
        · exact hneutral
      obtain ⟨u, huser, hend, hhandle, hreached⟩ := handleTxParameters_neutral hneutral
      have hplain : w.handleTxParametersFor .sc8q7Meta i.user = .ok (w, {}) := rfl
      have hparams : w.handleTxParametersFor .sc16q11Meta i.user =
          .ok (w, { zeroPad := u.updateTimestamp }) := hhandle
      have hburst (r : ℤ × TxWriter α) :
          endBurst .sc8q7Meta i.user r = endBurst .sc16q11Meta i.user r := by
        simp [endBurst, huser, hend]
      rw [hplain, hparams]
      simp only [funext hburst]
      congr 1
      by_cases hnone : i.samples.length = 0
      · rw [loopStatus_idle _ (by simp [TxCall.active, hnone]),
          loopStatus_idle _ (by simp [TxCall.active, hnone])]
      · refine loopStatus_matches i.turns ⟨rfl, rfl, rfl, rfl, fun hp => ?_⟩
        rw [huser]
        exact hreached hnone hp

theorem outcomes_quiet (calls : List (TxInput α)) (h : NeutralRun cfg w calls) :
    outcomes cfg .sc8q7Meta w calls = outcomes cfg .sc16q11Meta w calls := by
  induction calls generalizing w with
  | nil => rfl
  | cons i calls ih =>
      obtain ⟨hquiet, hrest⟩ := h
      unfold outcomes
      rw [syncTxFor_quiet hquiet]
      cases hcall : w.syncTxFor cfg .sc16q11Meta i with
      | none => rfl
      | some r =>
          dsimp only
          rw [ih (hrest r hcall)]

/-! ## Where a writer can be -/

/-- The phases of `sync_tx` with metadata. -/
structure Sound (cfg : MetaConfig) (w : TxWriter α) : Prop where
  phase : w.syncState = .checkWorker ∨ w.syncState = .startWorker ∨
    w.syncState = .waitForBuffer ∨ w.syncState = .bufferReady ∨ w.syncState = .usingBufferMeta
  outside : w.syncState ≠ .usingBufferMeta → w.metaState = .header
  msgNum : w.syncState = .usingBufferMeta → w.msgNum < cfg.msgPerBuf
  left : w.metaState = .samples → w.currMsgOff < cfg.samplesPerMsg
  inBurst : w.inBurst = false

omit [Zero α] in
theorem Opened.sound (h : w.Opened) : Sound cfg w where
  phase := .inl h.syncState
  outside _ := h.metaState
  msgNum hs := by
    rw [h.syncState] at hs
    cases hs
  left hm := by
    rw [h.metaState] at hm
    cases hm
  inBurst := h.inBurst

structure SamePlace (w w' : TxWriter α) : Prop where
  syncState : w'.syncState = w.syncState
  metaState : w'.metaState = w.metaState
  msgNum : w'.msgNum = w.msgNum
  currMsg : w'.currMsg = w.currMsg
  inBurst : w'.inBurst = w.inBurst
  submitted : w'.submitted = w.submitted

theorem zeroPad_place (cfg : MetaConfig) (c : TxCall α) : SamePlace w (w.zeroPad cfg c).1 := by
  unfold zeroPad
  dsimp only
  split
  · split <;> exact ⟨rfl, rfl, rfl, rfl, rfl, rfl⟩
  · exact ⟨rfl, rfl, rfl, rfl, rfl, rfl⟩

theorem copySamples_place (cfg : MetaConfig) (c : TxCall α) :
    SamePlace w (w.copySamples cfg c).1 := by
  unfold copySamples
  dsimp only
  split <;> exact ⟨rfl, rfl, rfl, rfl, rfl, rfl⟩

theorem flush_place (c : TxCall α) : SamePlace w (w.flush cfg c) := by
  unfold flush
  dsimp only
  split <;> exact ⟨rfl, rfl, rfl, rfl, rfl, rfl⟩

omit [Zero α] in
theorem SamePlace.trans {w' w'' : TxWriter α} (h : SamePlace w w') (h' : SamePlace w' w'') :
    SamePlace w w'' :=
  ⟨h'.syncState.trans h.syncState, h'.metaState.trans h.metaState, h'.msgNum.trans h.msgNum,
    h'.currMsg.trans h.currMsg, h'.inBurst.trans h.inBurst, h'.submitted.trans h.submitted⟩

/-- The writer behind the samples of a turn, ahead of the next message. -/
def filled (cfg : MetaConfig) (w : TxWriter α) (c : TxCall α) : TxWriter α :=
  ((w.zeroPad cfg c).1.copySamples cfg (w.zeroPad cfg c).2).1.flush cfg
    ((w.zeroPad cfg c).1.copySamples cfg (w.zeroPad cfg c).2).2

theorem filled_place (cfg : MetaConfig) (c : TxCall α) : SamePlace w (w.filled cfg c) :=
  ((zeroPad_place cfg c).trans (copySamples_place cfg _)).trans (flush_place _)

theorem fillSamplesStatus_eq (c : TxCall α) (e : TxTurn α) :
    w.fillSamplesStatus cfg c e = ((w.filled cfg c).nextMessage cfg).advanceStatus cfg
      ((w.zeroPad cfg c).1.copySamples cfg (w.zeroPad cfg c).2).2 e := rfl

omit [Zero α] in
theorem Sound.finish {w' : TxWriter α} (hstate : w'.syncState = .usingBufferMeta)
    (hnum : w'.msgNum < cfg.msgPerBuf)
    (hburst : w'.inBurst = false) (c : TxCall α) (e : TxTurn α) :
    Sound cfg ((w'.nextMessage cfg).advanceStatus cfg c e).1.1 := by
  unfold nextMessage
  split
  · -- the message is full
    unfold advanceStatus
    dsimp only
    split
    · rename_i hmore
      unfold advance
      rw [if_neg (Nat.not_le.mpr hmore)]
      exact ⟨.inr (.inr (.inr (.inr hstate))), fun _ => rfl, fun _ => hmore,
        fun hm => (by cases hm), hburst⟩
    · rename_i hlast
      unfold advance
      rw [if_pos (Nat.not_lt.mp hlast)]
      split
      · exact ⟨.inr (.inr (.inl rfl)), fun _ => rfl, fun hs => (by cases hs),
          fun hm => (by cases hm), hburst⟩
      · exact ⟨.inr (.inr (.inl rfl)), fun _ => rfl, fun hs => (by cases hs),
          fun hm => (by cases hm), hburst⟩
  · rename_i hleft
    unfold advanceStatus advance
    dsimp only
    rw [if_pos hnum, if_neg (Nat.not_le.mpr hnum)]
    refine ⟨.inr (.inr (.inr (.inr hstate))), fun hs => absurd hstate hs, fun _ => hnum,
      fun _ => ?_, hburst⟩
    unfold leftInMsg at hleft
    show w'.currMsgOff < cfg.samplesPerMsg
    omega

theorem Sound.turnStatus (h : Sound cfg w) (c : TxCall α) (e : TxTurn α) :
    Sound cfg (w.turnStatus cfg c e).1.1 := by
  unfold TxWriter.turnStatus
  split
  · exact h
  · cases hstate : w.syncState with
    | checkWorker =>
        have hmeta := h.outside (by rw [hstate]; decide)
        dsimp only
        split
        · exact h
        · unfold turn
          rw [hstate]
          dsimp only
          cases e.turn.workerIdle with
          | true =>
              exact ⟨.inr (.inl rfl), fun _ => hmeta, fun hs => (by cases hs), h.left, h.inBurst⟩
          | false =>
              exact ⟨.inr (.inr (.inl rfl)), fun _ => hmeta, fun hs => (by cases hs), h.left,
                h.inBurst⟩
    | startWorker =>
        have hmeta := h.outside (by rw [hstate]; decide)
        dsimp only
        split
        · exact h
        · unfold turn
          rw [hstate]
          exact ⟨.inr (.inr (.inl rfl)), fun _ => hmeta, fun hs => (by cases hs), h.left,
            h.inBurst⟩
    | waitForBuffer =>
        have hmeta := h.outside (by rw [hstate]; decide)
        dsimp only
        split
        · rename_i hempty
          unfold turn
          rw [hstate]
          dsimp only
          rw [if_pos hempty]
          exact ⟨.inr (.inr (.inr (.inl rfl))), fun _ => hmeta, fun hs => (by cases hs), h.left,
            h.inBurst⟩
        · exact h
    | bufferReady =>
        have hmeta := h.outside (by rw [hstate]; decide)
        unfold turn
        rw [hstate]
        refine ⟨.inr (.inr (.inr (.inr rfl))), fun _ => hmeta, fun _ => cfg.msgPerBuf_pos,
          fun hm => ?_, h.inBurst⟩
        exact absurd (hmeta.symm.trans hm) (by decide)
    | usingBufferMeta =>
        cases hmeta : w.metaState with
        | header =>
            unfold turn
            rw [hstate, hmeta]
            exact ⟨.inr (.inr (.inr (.inr hstate))), fun hs => absurd hstate hs,
              fun _ => h.msgNum hstate, fun _ => cfg.samplesPerMsg_pos, h.inBurst⟩
        | samples =>
            have hplace := filled_place cfg (w := w) c
            rw [fillSamplesStatus_eq]
            exact Sound.finish (hplace.syncState.trans hstate)
              (by rw [hplace.msgNum]; exact h.msgNum hstate) (hplace.inBurst.trans h.inBurst) _ e
    | resetBufMgmt | usingBuffer | usingPacketMeta =>
        rcases h.phase with hp | hp | hp | hp | hp <;> rw [hstate] at hp <;> cases hp

theorem Sound.loopStatus {turns : List (TxTurn α)} {c : TxCall α} {r : ℤ × TxWriter α}
    (h : Sound cfg w) (hr : TxWriter.loopStatus cfg turns w c = some r) : Sound cfg r.2 := by
  induction turns generalizing w c with
  | nil =>
      unfold TxWriter.loopStatus at hr
      split at hr <;> cases hr
      exact h
  | cons e turns ih =>
      have hturn := h.turnStatus c e
      unfold TxWriter.loopStatus at hr
      split at hr
      · dsimp only at hr
        split at hr
        · cases hr
          exact hturn
        · exact ih hturn hr
      · cases hr
        exact h

theorem Sound.quiet {i : TxInput α} {r : ℤ × TxWriter α} (h : Sound cfg w)
    (hcall : w.syncTxFor cfg .sc8q7Meta i = some r) : Sound cfg r.2 := by
  unfold syncTxFor at hcall
  split at hcall
  · cases hcall
    exact h
  · split at hcall
    · cases hcall
      exact h
    · have hplain : w.handleTxParametersFor .sc8q7Meta i.user = .ok (w, {}) := rfl
      rw [hplain] at hcall
      dsimp only at hcall
      obtain ⟨r', hloop, rfl⟩ := Option.map_eq_some_iff.mp hcall
      have hburst : endBurst .sc8q7Meta i.user r' = r' := by simp [endBurst]
      rw [hburst]
      exact h.loopStatus hloop

/-! ## Calls that ask for something -/

theorem loopStatus_step {w' : TxWriter α} {c c' : TxCall α} {e : TxTurn α}
    (hactive : c.active = true) (hturn : w.turnStatus cfg c e = ((w', c'), 0))
    (turns : List (TxTurn α)) :
    loopStatus cfg (e :: turns) w c = loopStatus cfg turns w' c' := by
  rw [loopStatus, if_pos hactive, hturn]
  rfl

/-- Some turns lead from `w` to the samples of a message. -/
def ReachesSamples (cfg : MetaConfig) (w : TxWriter α) : Prop :=
  ∃ (turns : List (TxTurn α)) (w' : TxWriter α), w'.syncState = .usingBufferMeta ∧
    w'.metaState = .samples ∧ w'.currMsgOff < cfg.samplesPerMsg ∧
    w'.currTimestamp = w.currTimestamp ∧
    ∀ c : TxCall α, c.active = true → ∀ rest,
      loopStatus cfg (turns ++ rest) w c = loopStatus cfg rest w' c

theorem ReachesSamples.step {w' : TxWriter α} (h : ReachesSamples cfg w')
    (htime : w'.currTimestamp = w.currTimestamp) (e : TxTurn α)
    (hturn : ∀ c : TxCall α, w.turnStatus cfg c e = ((w', c), 0)) : ReachesSamples cfg w := by
  obtain ⟨turns, v, hstate, hmeta, hleft, hv, hrun⟩ := h
  refine ⟨e :: turns, v, hstate, hmeta, hleft, hv.trans htime, fun c hactive rest => ?_⟩
  rw [List.cons_append, loopStatus_step hactive (hturn c)]
  exact hrun c hactive rest

def fineTurn (w : TxWriter α) : TxTurn α where
  turn := ⟨false, true, w.buffer⟩

theorem reachesSamples_header (hstate : w.syncState = .usingBufferMeta)
    (hmeta : w.metaState = .header) : ReachesSamples cfg w := by
  have hnext : ReachesSamples cfg w.fillHeader :=
    ⟨[], w.fillHeader, hstate, rfl, cfg.samplesPerMsg_pos, rfl, fun _ _ _ => rfl⟩
  refine hnext.step rfl w.fineTurn fun c => ?_
  simp [turnStatus, fineTurn, hstate, hmeta, turn]

theorem reachesSamples_ready (hstate : w.syncState = .bufferReady)
    (hmeta : w.metaState = .header) : ReachesSamples cfg w := by
  have hnext : ReachesSamples cfg
      { w with syncState := .usingBufferMeta, currMsgOff := 0, msgNum := 0 } :=
    reachesSamples_header rfl hmeta
  refine hnext.step rfl w.fineTurn fun c => ?_
  simp [turnStatus, fineTurn, hstate, turn]

theorem reachesSamples_wait (hstate : w.syncState = .waitForBuffer)
    (hmeta : w.metaState = .header) : ReachesSamples cfg w := by
  have hnext : ReachesSamples cfg { w with syncState := .bufferReady } :=
    reachesSamples_ready rfl hmeta
  refine hnext.step rfl w.fineTurn fun c => ?_
  simp [turnStatus, fineTurn, hstate, turn]

theorem Sound.reachesSamples (h : Sound cfg w) : ReachesSamples cfg w := by
  rcases h.phase with hstate | hstate | hstate | hstate | hstate
  · have hnext : ReachesSamples cfg { w with syncState := .waitForBuffer } :=
      reachesSamples_wait rfl (h.outside (by rw [hstate]; decide))
    refine hnext.step rfl w.fineTurn fun c => ?_
    simp [TxWriter.turnStatus, fineTurn, hstate, turn]
  · have hnext : ReachesSamples cfg { w with syncState := .waitForBuffer } :=
      reachesSamples_wait rfl (h.outside (by rw [hstate]; decide))
    refine hnext.step rfl w.fineTurn fun c => ?_
    simp [TxWriter.turnStatus, fineTurn, hstate, turn]
  · exact reachesSamples_wait hstate (h.outside (by rw [hstate]; decide))
  · exact reachesSamples_ready hstate (h.outside (by rw [hstate]; decide))
  · cases hmeta : w.metaState with
    | header => exact reachesSamples_header hstate hmeta
    | samples => exact ⟨[], w, hstate, hmeta, h.left hmeta, rfl, fun _ _ _ => rfl⟩

def word (w : TxWriter α) (m k : ℕ) : α := (w.buffer m).slots k

omit [Zero α] in
theorem put_word (n : ℕ) (f : ℕ → α) (k : ℕ) :
    (w.put n f).word w.currMsg k =
      if w.currMsgOff ≤ k ∧ k < w.currMsgOff + n then f (k - w.currMsgOff)
      else w.word w.currMsg k := by
  simp only [word, put, TxMessage.fill, if_true]

theorem copySamples_word (cfg : MetaConfig) (c : TxCall α) {k : ℕ} (hk : k < w.currMsgOff) :
    (w.copySamples cfg c).1.word w.currMsg k = w.word w.currMsg k := by
  unfold copySamples
  dsimp only
  split
  · rfl
  · refine (put_word _ _ k).trans ?_
    rw [if_neg (by omega)]

theorem copySamples_off (cfg : MetaConfig) (c : TxCall α) :
    w.currMsgOff ≤ (w.copySamples cfg c).1.currMsgOff := by
  unfold copySamples
  dsimp only
  split
  · exact Nat.le_refl _
  · exact Nat.le_add_right _ _

theorem flush_word (cfg : MetaConfig) (c : TxCall α) {k : ℕ} (hk : k < w.currMsgOff) :
    (w.flush cfg c).word w.currMsg k = w.word w.currMsg k := by
  unfold flush
  dsimp only
  split
  · refine (put_word _ _ k).trans ?_
    rw [if_neg (by omega)]
  · rfl

theorem deltaToSamples_pos {delta perTs available : ℕ} (hper : 0 < perTs) (hdelta : delta ≠ 0)
    (havailable : 0 < available) : 0 < syncTimestampDeltaToSamples delta perTs available := by
  unfold syncTimestampDeltaToSamples
  rw [if_neg (by omega)]
  dsimp only
  split
  · split
    · exact havailable
    · exact Nat.mul_pos (by omega) hper
  · split
    · exact havailable
    · exact Nat.mul_pos (by omega) hper

theorem filled_zero (cfg : MetaConfig) {c : TxCall α} (hpad : c.op.zeroPad = true)
    (hts : c.user.timestamp ≠ w.currTimestamp) (hleft : w.currMsgOff < cfg.samplesPerMsg) :
    (w.filled cfg c).word w.currMsg w.currMsgOff = 0 := by
  have hper : 0 < cfg.samplesPerTs := by
    rcases cfg.samplesPerTs_eq with h | h <;> omega
  have hdelta : (c.user.timestamp - w.currTimestamp).toNat ≠ 0 := by
    intro hzero
    apply hts
    have hsub : c.user.timestamp - w.currTimestamp = 0 := BitVec.eq_of_toNat_eq hzero
    rw [BitVec.sub_eq_iff_eq_add] at hsub
    exact hsub.trans (BitVec.zero_add _)
  have hsome := deltaToSamples_pos hper hdelta (Nat.sub_pos_of_lt hleft)
  have hpadded : (w.zeroPad cfg c).1.word w.currMsg w.currMsgOff = 0 ∧
      w.currMsgOff < (w.zeroPad cfg c).1.currMsgOff := by
    have hput := put_word (w := w) (syncTimestampDeltaToSamples
      (c.user.timestamp - w.currTimestamp).toNat cfg.samplesPerTs (w.leftInMsg cfg))
      (fun _ => 0) w.currMsgOff
    rw [if_pos ⟨Nat.le_refl _, Nat.lt_add_of_pos_right hsome⟩] at hput
    unfold zeroPad
    rw [if_pos hpad]
    dsimp only
    split
    · exact ⟨hput, Nat.lt_add_of_pos_right hsome⟩
    · exact ⟨hput, Nat.lt_add_of_pos_right hsome⟩
  have hplace := zeroPad_place cfg (w := w) c
  have hplace' := copySamples_place cfg (w := (w.zeroPad cfg c).1) (w.zeroPad cfg c).2
  have hcopied := copySamples_word cfg (w := (w.zeroPad cfg c).1) (w.zeroPad cfg c).2
    hpadded.2
  have hoff := copySamples_off cfg (w := (w.zeroPad cfg c).1) (w.zeroPad cfg c).2
  have hflushed := flush_word cfg
    (w := ((w.zeroPad cfg c).1.copySamples cfg (w.zeroPad cfg c).2).1)
    ((w.zeroPad cfg c).1.copySamples cfg (w.zeroPad cfg c).2).2 (Nat.lt_of_lt_of_le hpadded.2 hoff)
  rw [hplace'.currMsg, hplace.currMsg] at hflushed
  rw [hplace.currMsg] at hcopied
  unfold filled
  rw [hflushed, hcopied]
  exact hpadded.1

theorem filled_first (cfg : MetaConfig) {c : TxCall α} (hpad : c.op.zeroPad = false) {a : α}
    (hn : n ≠ 0)
    (hsamples : c.samples = List.replicate n a) (hwritten : c.written = 0)
    (hleft : w.currMsgOff < cfg.samplesPerMsg) :
    (w.filled cfg c).word w.currMsg w.currMsgOff = a := by
  have hplain : w.zeroPad cfg c = (w, c) := by
    unfold zeroPad
    rw [if_neg (by rw [hpad]; exact Bool.false_ne_true)]
  have hcount : min (c.samples.length - c.written) (w.leftInMsg cfg) ≠ 0 := by
    rw [hsamples, hwritten, List.length_replicate]
    unfold leftInMsg
    omega
  have hcopied : (w.copySamples cfg c).1.word w.currMsg w.currMsgOff = a ∧
      w.currMsgOff < (w.copySamples cfg c).1.currMsgOff := by
    have hput := put_word (w := w) (min (c.samples.length - c.written) (w.leftInMsg cfg))
      (fun i => (c.samples[c.written + i]?).getD 0) w.currMsgOff
    rw [if_pos ⟨Nat.le_refl _, Nat.lt_add_of_pos_right (Nat.pos_of_ne_zero hcount)⟩] at hput
    unfold copySamples
    dsimp only
    rw [if_neg hcount]
    refine ⟨hput.trans ?_, Nat.lt_add_of_pos_right (Nat.pos_of_ne_zero hcount)⟩
    rw [hsamples, hwritten, Nat.sub_self]
    simp [Nat.pos_of_ne_zero hn]
  have hplace := copySamples_place cfg (w := w) c
  have hflushed := flush_word cfg (w := (w.copySamples cfg c).1)
    (w.copySamples cfg c).2 hcopied.2
  rw [hplace.currMsg] at hflushed
  unfold filled
  rw [hplain, hflushed]
  exact hcopied.1

omit [Zero α] in
theorem advanceStatus_fine (w : TxWriter α) (c : TxCall α) {e : TxTurn α}
    (hfine : e.submitStatus = 0) :
    w.advanceStatus cfg c e = (((w.advance cfg c).1, (w.advance cfg c).2), 0) := by
  unfold advanceStatus
  dsimp only
  split
  · rfl
  · rw [if_pos (.inl hfine), hfine]

theorem turnStatus_fine (cfg : MetaConfig) (hstate : w.syncState = .usingBufferMeta)
    (hmeta : w.metaState = .samples)
    (c : TxCall α) :
    ∃ (v : TxWriter α) (c' : TxCall α), w.turnStatus cfg c w.fineTurn = ((v, c'), 0) ∧
      v.view.buffers = w.submitted ++ [(w.filled cfg c).buffer] := by
  have hplace := filled_place cfg (w := w) c
  have hturn : w.turnStatus cfg c w.fineTurn = w.fillSamplesStatus cfg c w.fineTurn := by
    unfold turnStatus
    rw [hstate, hmeta]
    rfl
  have hsubmitted := hplace.submitted
  have hfilled := hplace.syncState.trans hstate
  rw [hturn, fillSamplesStatus_eq]
  refine ⟨_, _, advanceStatus_fine _ _ rfl, ?_⟩
  generalize w.filled cfg c = v at hsubmitted hfilled ⊢
  unfold nextMessage advance
  split
  · split
    · simp [view, hsubmitted]
    · simp [view, hsubmitted, hfilled]
  · split
    · simp [view, hsubmitted]
    · simp [view, hsubmitted, hfilled]

def stopTurn (w : TxWriter α) : TxTurn α := { w.fineTurn with timeStatus := bladerfErrTimeout }

theorem loopStatus_stop (cfg : MetaConfig) (v : TxWriter α) (c : TxCall α) :
    ∃ status, (status = bladerfErrTimeout ∨ status = 0) ∧
      loopStatus cfg [w.stopTurn] v c = some (status, v) := by
  cases hactive : c.active with
  | false => exact ⟨0, .inr rfl, loopStatus_idle _ hactive⟩
  | true =>
      refine ⟨bladerfErrTimeout, .inl rfl, ?_⟩
      rw [loopStatus, if_pos hactive]
      rfl

theorem pad_differs (h : Sound cfg w) {a : α} (ha : a ≠ 0) (hn : n ≠ 0)
    (hts : user.timestamp ≠ w.currTimestamp) :
    ∃ turns : List (TxTurn α), ∃ v v' : TxWriter α, ∃ status status' : ℤ,
      loopStatus cfg turns w
        { samples := List.replicate n a, user, op := { zeroPad := true } } = some (status, v) ∧
      loopStatus cfg turns w { samples := List.replicate n a, user } = some (status', v') ∧
      v.view.buffers ≠ v'.view.buffers := by
  obtain ⟨turns, u, hstate, hmeta, hleft, htime, hrun⟩ := h.reachesSamples
  have hactive (op : TxOptions) :
      ({ samples := List.replicate n a, user, op } : TxCall α).active = true := by
    simp [TxCall.active, Nat.pos_of_ne_zero hn]
  have hend (op : TxOptions) : ∃ (v : TxWriter α) (status : ℤ),
      loopStatus cfg (turns ++ [u.fineTurn, u.stopTurn]) w
          { samples := List.replicate n a, user, op } = some (status, v) ∧
        v.view.buffers = u.submitted ++
          [(u.filled cfg { samples := List.replicate n a, user, op }).buffer] := by
    obtain ⟨v, c', hturn, hview⟩ := turnStatus_fine cfg hstate hmeta
      { samples := List.replicate n a, user, op }
    obtain ⟨status, -, hstop⟩ := loopStatus_stop cfg (w := u) v c'
    refine ⟨v, status, ?_, hview⟩
    rw [hrun _ (hactive op), loopStatus_step (hactive op) hturn, hstop]
  obtain ⟨v, status, hv, hbuffers⟩ := hend { zeroPad := true }
  obtain ⟨v', status', hv', hbuffers'⟩ := hend {}
  refine ⟨_, v, v', status, status', hv, hv', fun hsame => ?_⟩
  rw [hbuffers, hbuffers'] at hsame
  have hbuffer := List.singleton_inj.mp (List.append_cancel_left hsame)
  have hzero := filled_zero cfg (w := u)
    (c := { samples := List.replicate n a, user, op := { zeroPad := true } }) rfl
    (fun he => hts (he.trans htime)) hleft
  have hfirst := filled_first cfg (w := u)
    (c := { samples := List.replicate n a, user }) rfl hn rfl rfl hleft
  unfold word at hzero hfirst
  rw [hbuffer, hfirst] at hzero
  exact ha hzero

def seen (format : TxMetaFormat) (cfg : MetaConfig) (w : TxWriter α) (i : TxInput α) :
    Option (ℤ × TxView α) :=
  (w.syncTxFor cfg format i).map fun r => (r.1, r.2.view)

theorem syncTxFor_plain (user : Option TxUserMeta) {samples : List α} (turns : List (TxTurn α))
    (hlength : samples.length % cfg.samplesPerTs = 0) :
    w.syncTxFor cfg .sc8q7Meta { samples, user, turns } =
      loopStatus cfg turns w { samples, user := user.getD {} } := by
  have hburst : (endBurst .sc8q7Meta user : ℤ × TxWriter α → ℤ × TxWriter α) = fun r => r := by
    funext r
    simp [endBurst]
  unfold syncTxFor
  rw [if_neg (by simp [hlength]), if_neg (by simp)]
  show (loopStatus cfg turns w _).map (endBurst .sc8q7Meta user) = _
  rw [hburst, Option.map_id']

theorem refused_differs {user : Option TxUserMeta} {samples : List α} (status : ℤ)
    (hlength : samples.length % cfg.samplesPerTs = 0)
    (hrefused : w.handleTxParameters user = .error status)
    (hstatus : status ≠ bladerfErrTimeout ∧ status ≠ 0) :
    seen .sc8q7Meta cfg w { samples, user, turns := [w.stopTurn] } ≠
      seen .sc16q11Meta cfg w { samples, user, turns := [w.stopTurn] } := by
  obtain ⟨status', hstop, hloop⟩ :=
    loopStatus_stop cfg (w := w) w { samples, user := user.getD {} }
  have hq11 : w.syncTxFor cfg .sc16q11Meta { samples, user, turns := [w.stopTurn] } =
      some (status, w) := by
    unfold syncTxFor handleTxParametersFor
    rw [if_neg (by simp [hlength]), if_neg (by simp), if_pos rfl, hrefused]
  unfold seen
  rw [syncTxFor_plain _ _ hlength, hloop, hq11]
  intro hsame
  have hcode : status' = status := congrArg Prod.fst (Option.some.inj hsame)
  rcases hstop with h | h
  · exact hstatus.1 (hcode.symm.trans h)
  · exact hstatus.2 (hcode.symm.trans h)

theorem burst_differs {user : Option TxUserMeta} {samples : List α} {w' : TxWriter α}
    {op : TxOptions} (hlength : samples.length % cfg.samplesPerTs = 0)
    (hparams : w.handleTxParameters user = .ok (w', op)) (hburst : w.inBurst = false)
    (hburst' : w'.inBurst = true)
    (hend : (user.any fun u => u.burstEnd) = true → op.flush = true) :
    seen .sc8q7Meta cfg w { samples, user, turns := [w.stopTurn] } ≠
      seen .sc16q11Meta cfg w { samples, user, turns := [w.stopTurn] } := by
  obtain ⟨status, -, hloop⟩ :=
    loopStatus_stop cfg (w := w) w { samples, user := user.getD {} }
  obtain ⟨status', v, hq11, hv⟩ : ∃ (status' : ℤ) (v : TxWriter α),
      w.syncTxFor cfg .sc16q11Meta { samples, user, turns := [w.stopTurn] } = some (status', v) ∧
        v.inBurst = true := by
    unfold syncTxFor handleTxParametersFor
    rw [if_neg (by simp [hlength]), if_neg (by simp), if_pos rfl, hparams]
    dsimp only
    cases hactive : ({ samples, user := user.getD {}, op } : TxCall α).active with
    | false =>
        have hopen : (user.any fun u => u.burstEnd) = false := by
          rw [Bool.eq_false_iff]
          intro he
          simp [TxCall.active, hend he] at hactive
        refine ⟨0, w', ?_, hburst'⟩
        rw [loopStatus_idle _ hactive]
        simp [endBurst, hopen]
    | true =>
        refine ⟨bladerfErrTimeout, w', ?_, hburst'⟩
        rw [loopStatus, if_pos hactive]
        rfl
  unfold seen
  rw [syncTxFor_plain _ _ hlength, hloop, hq11]
  intro hsame
  have hview : w.view = v.view := congrArg Prod.snd (Option.some.inj hsame)
  have hflag : w.inBurst = v.inBurst := congrArg TxView.inBurst hview
  rw [hburst, hv] at hflag
  cases hflag

omit [Zero α] in
theorem handleTxParameters_start (hburst : w.inBurst = false)
    (hstart : user.burstStart = true) (hcond : (!user.txNow && w.timestampInPast user) = false) :
    ∃ w' : TxWriter α,
      w.handleTxParameters (some user) = .ok (w', { flush := user.burstEnd }) ∧
        w'.inBurst = true := by
  cases hnow : user.txNow with
  | true =>
      refine ⟨{ w with inBurst := true, now := true }, ?_, rfl⟩
      cases hend : user.burstEnd with
      | true => simp [handleTxParameters, hstart, hburst, hnow, hend, pure, Except.pure, bind,
          Except.bind]
      | false => simp [handleTxParameters, hstart, hburst, hnow, hend, pure, Except.pure, bind,
          Except.bind]
  | false =>
      have hpresent : w.timestampInPast user = false := by simpa [hnow] using hcond
      refine ⟨{ w with
        inBurst := true
        currTimestamp := user.timestamp
        burstStart := user.timestamp }, ?_, rfl⟩
      cases hend : user.burstEnd with
      | true => simp [handleTxParameters, hstart, hburst, hnow, hpresent, hend, pure, Except.pure,
          bind, Except.bind]
      | false => simp [handleTxParameters, hstart, hburst, hnow, hpresent, hend, pure, Except.pure,
          bind, Except.bind]

theorem start_differs {samples : List α}
    (hlength : samples.length % cfg.samplesPerTs = 0) (hburst : w.inBurst = false)
    (hstart : user.burstStart = true) :
    seen .sc8q7Meta cfg w { samples, user := some user, turns := [w.stopTurn] } ≠
      seen .sc16q11Meta cfg w { samples, user := some user, turns := [w.stopTurn] } := by
  cases hcond : !user.txNow && w.timestampInPast user with
  | true =>
      refine refused_differs bladerfErrTimePast hlength ?_ (by decide)
      simp only [handleTxParameters, hstart, hburst, hcond, Bool.false_eq_true, if_false, if_true]
      rfl
  | false =>
      obtain ⟨w', hparams, hburst'⟩ := handleTxParameters_start hburst hstart hcond
      exact burst_differs hlength hparams hburst hburst' fun hend => hend

theorem end_differs {samples : List α}
    (hlength : samples.length % cfg.samplesPerTs = 0) (hburst : w.inBurst = false)
    (hstart : user.burstStart = false) (hnow : user.txNow = false) (hend : user.burstEnd = true) :
    seen .sc8q7Meta cfg w { samples, user := some user, turns := [w.stopTurn] } ≠
      seen .sc16q11Meta cfg w { samples, user := some user, turns := [w.stopTurn] } := by
  cases hupdate : user.updateTimestamp with
  | false =>
      refine refused_differs bladerfErrInval hlength ?_ (by decide)
      simp [handleTxParameters, hstart, hnow, hupdate, hend, hburst, pure, Except.pure, bind,
        Except.bind]
  | true =>
      cases hlate : w.timestampInPast user with
      | true =>
          refine refused_differs bladerfErrTimePast hlength ?_ (by decide)
          simp [handleTxParameters, hstart, hnow, hupdate, hlate, bind, Except.bind]
      | false =>
          refine refused_differs bladerfErrInval hlength ?_ (by decide)
          simp [handleTxParameters, hstart, hnow, hupdate, hlate, hend, hburst, pure, Except.pure,
            bind, Except.bind]

theorem update_differs (h : Sound cfg w) {a : α} (ha : a ≠ 0)
    (hlength : n % cfg.samplesPerTs = 0) (hn : n ≠ 0) (hstart : user.burstStart = false)
    (hnow : user.txNow = false) (hend : user.burstEnd = false)
    (hupdate : user.updateTimestamp = true) (hpresent : w.timestampInPast user = false)
    (hts : user.timestamp ≠ w.currTimestamp) :
    ∃ turns, seen .sc8q7Meta cfg w { samples := List.replicate n a, user := some user, turns } ≠
      seen .sc16q11Meta cfg w { samples := List.replicate n a, user := some user, turns } := by
  obtain ⟨turns, v, v', status, status', hv, hv', hbuffers⟩ := pad_differs h ha hn hts
  have hparams : w.handleTxParameters (some user) = .ok (w, { zeroPad := true }) := by
    simp [handleTxParameters, hstart, hnow, hupdate, hpresent, hend, pure, Except.pure, bind,
      Except.bind]
  have hq11 : w.syncTxFor cfg .sc16q11Meta
      { samples := List.replicate n a, user := some user, turns } = some (status, v) := by
    unfold syncTxFor handleTxParametersFor
    rw [if_neg (by simp [hlength]), if_neg (by simp), if_pos rfl, hparams]
    show (loopStatus cfg turns w _).map _ = _
    rw [Option.getD_some, hv]
    simp [endBurst, hend]
  refine ⟨turns, fun hsame => ?_⟩
  unfold seen at hsame
  rw [syncTxFor_plain _ _ (by rw [List.length_replicate]; exact hlength), Option.getD_some, hv',
    hq11] at hsame
  have hview : v'.view = v.view := congrArg Prod.snd (Option.some.inj hsame)
  exact hbuffers (congrArg TxView.buffers hview).symm

theorem seen_differs (h : Sound cfg w) {a : α} (ha : a ≠ 0) {user : Option TxUserMeta}
    (hlength : n % cfg.samplesPerTs = 0) (hasks : ¬w.Neutral n user) :
    ∃ turns, seen .sc8q7Meta cfg w { samples := List.replicate n a, user, turns } ≠
      seen .sc16q11Meta cfg w { samples := List.replicate n a, user, turns } := by
  have hlength' : (List.replicate n a).length % cfg.samplesPerTs = 0 := by
    rw [List.length_replicate]
    exact hlength
  cases user with
  | none => exact ⟨_, refused_differs bladerfErrInval hlength' rfl (by decide)⟩
  | some u =>
      cases hstart : u.burstStart with
      | true => exact ⟨_, start_differs hlength' h.inBurst hstart⟩
      | false =>
          cases hnow : u.txNow with
          | true =>
              refine ⟨_, refused_differs bladerfErrInval hlength' ?_ (by decide)⟩
              simp [handleTxParameters, hstart, hnow, bind, Except.bind]
          | false =>
              cases hend : u.burstEnd with
              | true => exact ⟨_, end_differs hlength' h.inBurst hstart hnow hend⟩
              | false =>
                  -- an update of the timestamp is all that is left to ask for
                  obtain ⟨hupdate, hcond⟩ : u.updateTimestamp = true ∧
                      ¬if n = 0 then w.timestampInPast u = false
                        else u.timestamp = w.currTimestamp := by
                    rw [← Classical.not_imp]
                    exact fun hcond => hasks ⟨hstart, hend, hnow, hcond⟩
                  cases hlate : w.timestampInPast u with
                  | true =>
                      refine ⟨_, refused_differs bladerfErrTimePast hlength' ?_
                        (by decide)⟩
                      simp [handleTxParameters, hstart, hnow, hupdate, hlate, bind, Except.bind]
                  | false =>
                      split at hcond
                      · exact absurd hlate hcond
                      · rename_i hn
                        exact update_differs h ha hlength hn hstart hnow hend hupdate hlate hcond

/-! ## Calls that return 0 -/

theorem turnStatus_turn (c : TxCall α) (e : Turn α) :
    w.turnStatus cfg c { turn := e } = (w.turn cfg c e, 0) := by
  unfold turnStatus turn
  rw [if_neg (not_not.mpr rfl)]
  cases hstate : w.syncState with
  | waitForBuffer =>
      cases hempty : e.bufferEmpty with
      | true => simp
      | false =>
          have hsame : { w with syncState := .waitForBuffer } = w := by rw [← hstate]
          simp [hsame]
  | usingBufferMeta =>
      cases hmeta : w.metaState with
      | header => rfl
      | samples => exact advanceStatus_fine _ _ rfl
  | _ => rfl

theorem loopStatus_loop {turns : List (Turn α)} {c c' : TxCall α} {w' : TxWriter α}
    (h : loop cfg turns w c = some (w', c')) :
    loopStatus cfg (turns.map fun e => { turn := e }) w c = some (0, w') := by
  induction turns generalizing w c with
  | nil =>
      unfold loop at h
      rw [List.map_nil, loopStatus]
      split at h
      · cases h
      · rename_i hidle
        cases h
        rw [if_neg hidle]
  | cons e turns ih =>
      unfold loop at h
      split at h
      · rename_i hactive
        rw [List.map_cons, loopStatus_step hactive (turnStatus_turn c e)]
        exact ih h
      · cases h

theorem syncTxFor_syncTx {samples : List α} {user : Option TxUserMeta} {turns : List (Turn α)}
    {w' : TxWriter α} (h : w.syncTx cfg samples user turns = some w') :
    w.syncTxFor cfg .sc16q11Meta
      { samples, user, turns := turns.map fun e => { turn := e } } = some (0, w') := by
  unfold syncTx at h
  split at h
  · rename_i hlength
    unfold syncTxFor handleTxParametersFor
    rw [if_neg (by simp [hlength]), if_neg (by simp), if_pos rfl]
    split at h
    · rename_i u v op hparams
      obtain ⟨r, hloop, rfl⟩ := Option.map_eq_some_iff.mp h
      rw [hparams]
      dsimp only
      rw [Option.getD_some, loopStatus_loop hloop]
      cases hend : u.burstEnd with
      | true => simp [endBurst, hend]
      | false => simp [endBurst, hend]
    · cases h
  · cases h

/-! ## Runs -/

theorem writerAfter_sound {w₀ : TxWriter α} (h : Sound cfg w₀) (calls : List (TxInput α))
    (hneutral : NeutralRun cfg w₀ calls)
    (hw : writerAfter cfg .sc16q11Meta w₀ calls = some w) : Sound cfg w := by
  induction calls generalizing w₀ with
  | nil =>
      cases hw
      exact h
  | cons i calls ih =>
      obtain ⟨r, hcall, hrest⟩ := Option.bind_eq_some_iff.mp hw
      exact ih (h.quiet ((syncTxFor_quiet hneutral.1).trans hcall)) (hneutral.2 r hcall) hrest

theorem neutralRun_append {w₀ : TxWriter α} {calls : List (TxInput α)} {i : TxInput α}
    (h : NeutralRun cfg w₀ calls)
    (hi : ∀ w, writerAfter cfg .sc16q11Meta w₀ calls = some w → w.Quiet cfg i) :
    NeutralRun cfg w₀ (calls ++ [i]) := by
  induction calls generalizing w₀ with
  | nil => exact ⟨hi w₀ rfl, fun _ _ => trivial⟩
  | cons j calls ih =>
      refine ⟨h.1, fun r hcall => ih (h.2 r hcall) fun w hw => hi w ?_⟩
      exact Option.bind_eq_some_iff.mpr ⟨r, hcall, hw⟩

theorem seen_of_outcomes {w₀ : TxWriter α} {calls : List (TxInput α)} {i : TxInput α}
    (h : NeutralRun cfg w₀ calls) (hw : writerAfter cfg .sc16q11Meta w₀ calls = some w)
    (hsame : outcomes cfg .sc8q7Meta w₀ (calls ++ [i]) =
      outcomes cfg .sc16q11Meta w₀ (calls ++ [i])) :
    seen .sc8q7Meta cfg w i = seen .sc16q11Meta cfg w i := by
  induction calls generalizing w₀ with
  | nil =>
      cases hw
      simp only [List.nil_append, outcomes] at hsame
      unfold seen
      cases hq7 : w.syncTxFor cfg .sc8q7Meta i with
      | none =>
          cases hq11 : w.syncTxFor cfg .sc16q11Meta i with
          | none => rfl
          | some r => simp [hq7, hq11] at hsame
      | some r =>
          cases hq11 : w.syncTxFor cfg .sc16q11Meta i with
          | none => simp [hq7, hq11] at hsame
          | some r' => simpa [hq7, hq11] using hsame
  | cons j calls ih =>
      obtain ⟨r, hcall, hrest⟩ := Option.bind_eq_some_iff.mp hw
      refine ih (h.2 r hcall) hrest ?_
      simp only [List.cons_append, outcomes, (syncTxFor_quiet h.1).trans hcall, hcall,
        List.cons.injEq, true_and] at hsame
      exact hsame

/-- **The formats agree on calls that ask for nothing**, whatever the worker and the
backend do: return codes, messages and the state of the burst are the same behind
every call.  And the next call is sure to end alike only if it asks for nothing, too. -/
theorem formats_agree {w₀ : TxWriter α} (h : w₀.Opened) {a : α} (ha : a ≠ 0)
    (calls : List (TxInput α)) (hneutral : NeutralRun cfg w₀ calls) :
    outcomes cfg .sc8q7Meta w₀ calls = outcomes cfg .sc16q11Meta w₀ calls ∧
    ∀ w, writerAfter cfg .sc16q11Meta w₀ calls = some w →
      ∀ n user, n % cfg.samplesPerTs = 0 →
        ((∀ i : TxInput α, i.samples.length = n → i.user = user →
            outcomes cfg .sc8q7Meta w₀ (calls ++ [i]) =
              outcomes cfg .sc16q11Meta w₀ (calls ++ [i])) ↔ w.Neutral n user) := by
  refine ⟨outcomes_quiet calls hneutral, fun w hw n user hlength => ⟨fun hsame => ?_, ?_⟩⟩
  · by_contra hasks
    obtain ⟨turns, hdiffers⟩ :=
      seen_differs (writerAfter_sound h.sound calls hneutral hw) ha hlength hasks
    refine hdiffers (seen_of_outcomes hneutral hw (hsame _ ?_ rfl))
    rw [List.length_replicate]
  · rintro hquiet i rfl rfl
    refine outcomes_quiet _ (neutralRun_append hneutral fun v hv => ?_)
    rw [Option.some.inj (hv.symm.trans hw)]
    exact .inr (.inr (.inr hquiet))

def opened : TxWriter ℕ where
  currTimestamp := 1000
  buffer _ := ⟨metadataSet 0 0, fun _ => 9⟩

theorem opened_opened : opened.Opened := ⟨rfl, rfl, rfl, rfl⟩

def oneSample (user : TxUserMeta) : TxInput ℕ where
  samples := [7]
  user := some user
  turns := List.replicate 5 opened.fineTurn

theorem formats_agree_updated :
    ∃ w, writerAfter highSpeed .sc16q11Meta opened
        [oneSample { updateTimestamp := true, timestamp := 1000 }] = some w ∧
      w.currTimestamp = 1001 ∧
      outcomes highSpeed .sc8q7Meta opened
          [oneSample { updateTimestamp := true, timestamp := 1000 }] =
        outcomes highSpeed .sc16q11Meta opened
          [oneSample { updateTimestamp := true, timestamp := 1000 }] ∧
      ∀ n user, n % highSpeed.samplesPerTs = 0 →
        ((∀ i : TxInput ℕ, i.samples.length = n → i.user = user →
            outcomes highSpeed .sc8q7Meta opened
                ([oneSample { updateTimestamp := true, timestamp := 1000 }] ++ [i]) =
              outcomes highSpeed .sc16q11Meta opened
                ([oneSample { updateTimestamp := true, timestamp := 1000 }] ++ [i])) ↔
          w.Neutral n user) := by
  have hneutral : NeutralRun highSpeed opened
      [oneSample { updateTimestamp := true, timestamp := 1000 }] :=
    ⟨.inr (.inr (.inr ⟨rfl, rfl, rfl, fun _ => rfl⟩)), fun _ _ => trivial⟩
  obtain ⟨hagree, hnext⟩ := formats_agree opened_opened Nat.one_ne_zero _ hneutral
  have hrun : (writerAfter highSpeed .sc16q11Meta opened
      [oneSample { updateTimestamp := true, timestamp := 1000 }]).any
        (fun w => w.currTimestamp = 1001) = true := by
    decide +kernel
  obtain ⟨w, hw, htime⟩ := (Option.any_eq_true ..).mp hrun
  exact ⟨w, hw, of_decide_eq_true htime, hagree, hnext w hw⟩

/-- A burst that starts at once does so for SC16_Q11_META only: with SC8_Q7_META the
stream is in no burst, and the sample is due at 1000. -/
theorem formats_disagree :
    ¬∀ (cfg : MetaConfig) (w₀ : TxWriter ℕ) (calls : List (TxInput ℕ)), w₀.Opened →
      outcomes cfg .sc8q7Meta w₀ calls = outcomes cfg .sc16q11Meta w₀ calls := by
  intro hclaim
  have hsame := hclaim highSpeed opened [oneSample { burstStart := true, txNow := true }]
    opened_opened
  have hseen := congrArg (List.map (Option.map fun r : ℤ × TxView ℕ =>
    (r.1, r.2.inBurst, r.2.buffers.map fun b => (b 0).header.timestamp))) hsame
  revert hseen
  decide +kernel

end TxWriter

end BladeRF
