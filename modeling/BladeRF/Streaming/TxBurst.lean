/-
# `Streaming.TxBurst` — bursts of META samples

A run is a sequence of calls of `sync_tx` that return 0, opening bursts with
BURST_START and closing them with BURST_END.  Behind every call the samples are where
the plan of the calls has them, if no update of the timestamp comes without samples.
-/
import BladeRF.Streaming.TxPlacement

namespace BladeRF

open TxPlan

variable {α : Type*}

structure TxBurst (α : Type*) where
  writer : TxWriter α
  plan : TxPlan α := {}

/-- A call of `sync_tx`, with the turns it takes. -/
structure TxBurstCall (α : Type*) where
  samples : List α
  user : TxUserMeta
  turns : List (TxWriter.Turn α)

namespace TxBurst

variable [Zero α] (cfg : MetaConfig)

def step (s : TxBurst α) (call : TxBurstCall α) : Option (TxBurst α) :=
  (s.writer.syncTx cfg call.samples (some call.user) call.turns).map fun writer =>
    ⟨writer, s.plan.call cfg call.samples call.user⟩

omit [Zero α] in
def Proper (s : TxBurst α) (call : TxBurstCall α) : Prop :=
  call.user.txNow = false ∧ (s.writer.inBurst = true ∨ call.user.burstStart = true)

omit [Zero α] in
/-- An update of the timestamp brings a sample, ends the burst or changes nothing. -/
def Clean (s : TxBurst α) (call : TxBurstCall α) : Prop :=
  call.user.updateTimestamp = true → call.user.burstStart = false → call.samples = [] →
    call.user.burstEnd = true ∨ call.user.timestamp = s.writer.currTimestamp

/-- `sync_init`, with whatever the timestamp and the memory are. -/
def start (timestamp : BitVec 64) (memory : TxBuffer α) : TxBurst α where
  writer := { currTimestamp := timestamp, buffer := memory }

variable {cfg}

variable {w : TxWriter α} {user : TxUserMeta}

omit [Zero α] in
theorem handleTxParameters_ok {w' : TxWriter α} {op : TxOptions}
    (h : w.handleTxParameters (some user) = .ok (w', op)) (hnow : user.txNow = false) :
    op.flush = user.burstEnd ∧
      (user.burstStart = true ∧ w.inBurst = false ∧ w.timestampInPast user = false ∧
          w' = { w with
            inBurst := true, currTimestamp := user.timestamp, burstStart := user.timestamp } ∧
          op.zeroPad = false ∨
        user.burstStart = false ∧ w' = w ∧ op.zeroPad = user.updateTimestamp ∧
          (user.updateTimestamp = true → w.timestampInPast user = false)) := by
  unfold TxWriter.handleTxParameters at h
  cases hstart : user.burstStart <;> cases hend : user.burstEnd <;>
    cases hupdate : user.updateTimestamp <;> cases hpast : w.timestampInPast user <;>
    cases hburst : w.inBurst <;>
    simp [hnow, hstart, hend, hupdate, hpast, hburst, bind, pure, Except.bind, Except.pure] at h <;>
    obtain ⟨rfl, rfl⟩ := h <;> simp_all

def Inv (cfg : MetaConfig) (s : TxBurst α) : Prop :=
  ∃ t laid line starts, TxTimeline cfg s.writer t laid line starts ∧
    (s.writer.metaState = .header → TxAtHeader cfg s.writer t laid line starts) ∧
    (s.writer.metaState = .samples → s.writer.leftInMsg cfg ≠ 0 ∧
      ∃ b, TxAtSlots cfg s.writer t laid line starts b) ∧
    line.map (atPlace cfg) = s.plan.assigned ∧
    starts.map (fun b => BitVec.ofNat 64 (b / cfg.samplesPerTs)) = s.plan.starts ∧
    (s.writer.inBurst = true → cfg.samplesPerTs ∣ s.plan.since ∧ BitVec.ofNat 64 t =
      s.plan.anchor + BitVec.ofNat 64 (s.plan.since / cfg.samplesPerTs)) ∧
    (s.writer.inBurst = false → s.writer.syncState ≠ .usingBufferMeta ∧
      Near cfg laid (cfg.samplesPerTs * t))

theorem start_inv (timestamp : BitVec 64) (memory : TxBuffer α) :
    Inv cfg (start timestamp memory) := by
  refine ⟨timestamp.toNat, [], [], [], ?_, fun _ => ?_, fun hs => (by cases hs), rfl, rfl,
    fun hb => absurd hb Bool.false_ne_true, fun _ => ⟨fun hs => (by cases hs), fun _ hx => by cases hx⟩⟩
  · exact
      { time := by
          rw [BitVec.ofNat_toNat, BitVec.setWidth_eq]
          rfl
        now := rfl
        messages := rfl
        header := fun _ hx => by cases hx
        follows := .nil
        behind := fun _ hx => by cases hx
        slots := fun _ hx => by cases hx
        ordered := .nil
        before := fun _ hx => by cases hx
        outside := fun _ => ⟨rfl, rfl⟩
        inside := fun hs => by cases hs }
  · exact ⟨rfl, fun _ hx => (by cases hx), fun _ hx => by cases hx⟩

/-! ## A call -/

omit [Zero α] in
theorem not_past (h : w.timestampInPast user = false) :
    (user.timestamp - w.currTimestamp).toNat < 2 ^ 63 := by
  simpa [TxWriter.timestampInPast, metadataTimestampAtOrAfter] using h

def job (cfg : MetaConfig) (plan : TxPlan α) (samples : List α) (user : TxUserMeta)
    (hsince : anchors user = false → cfg.samplesPerTs ∣ plan.since)
    (hsamples : cfg.samplesPerTs ∣ samples.length) : TxJob cfg α where
  before := plan.assigned
  anchor := if anchors user then user.timestamp else plan.anchor
  since := if anchors user then 0 else plan.since
  samples
  user
  since_dvd := by
    split
    · exact Nat.dvd_zero _
    · rename_i hanchors
      exact hsince (Bool.not_eq_true _ ▸ hanchors)
  samples_dvd := hsamples

section Call

variable {s : TxBurst α} {samples : List α} {user : TxUserMeta} {w' : TxWriter α} {op : TxOptions}
  (hsince : anchors user = false → cfg.samplesPerTs ∣ s.plan.since)
  (hsamples : cfg.samplesPerTs ∣ samples.length)

theorem Inv.opens (h : Inv cfg s) (hstart : user.burstStart = true)
    (hburst : s.writer.inBurst = false) (hpast : s.writer.timestampInPast user = false)
    (hop : op.flush = user.burstEnd ∧ op.zeroPad = false) :
    ∃ starts, starts.map (fun b => BitVec.ofNat 64 (b / cfg.samplesPerTs)) =
        s.plan.starts ++ [user.timestamp] ∧
      TxLoop cfg (job cfg s.plan samples user hsince hsamples) starts
        { s.writer with
          inBurst := true
          currTimestamp := user.timestamp
          burstStart := user.timestamp }
        { samples, user, op } := by
  obtain ⟨t, laid, line, starts, hline, hheader, _, hassigned, hstarts, _, hclosed⟩ := h
  obtain ⟨hout, hnear⟩ := hclosed hburst
  obtain ⟨hmeta, _⟩ := hline.outside hout
  have hat := hheader hmeta
  have hpos := cfg.samplesPerTs_pos
  have hhalf := not_past hpast
  generalize hdelta : (user.timestamp - s.writer.currTimestamp).toNat = delta at hhalf
  have htarget : user.timestamp = BitVec.ofNat 64 (t + delta) := by
    rw [BitVec.ofNat_add, ← hline.time, ← hdelta, BitVec.ofNat_toNat, BitVec.setWidth_eq,
      BitVec.add_comm, BitVec.sub_add_cancel]
  have hanchors : anchors user = true := by rw [anchors, hstart, Bool.true_or]
  have hfar : cfg.samplesPerTs * delta < cfg.samplesPerTs * 2 ^ 63 :=
    Nat.mul_lt_mul_of_pos_left hhalf hpos
  have hskip := hline.skip (Nat.le_add_right t delta) htarget
  refine ⟨starts ++ [cfg.samplesPerTs * (t + delta)], ?_, t + delta, laid, line, ?_, ?_,
    fun _ => ⟨hmeta, fun x hx => ?_, hat.complete⟩,
    fun hs => absurd (hmeta.symm.trans hs) (by decide)⟩
  · rw [List.map_append, hstarts, List.map_singleton, Nat.mul_div_cancel_left _ hpos, ← htarget]
  · exact
      { hskip with
        follows := hline.follows.imp fun _ _ hxy => hxy.mono _ }
  · exact
      { samples := rfl
        user := rfl
        inBurst := rfl
        written_le := Nat.zero_le _
        written_dvd := Nat.dvd_zero _
        assigned := by
          show _ = s.plan.assigned ++ assign cfg _ _ (samples.take 0)
          rw [hassigned, List.take_zero]
          exact (List.append_nil _).symm
        pad := fun hz => absurd (hop.2.symm.trans hz) Bool.false_ne_true
        synced := fun _ _ => by
          show _ = (if anchors user then user.timestamp else s.plan.anchor) +
            BitVec.ofNat 64 (((if anchors user then 0 else s.plan.since) + 0) /
              cfg.samplesPerTs)
          rw [if_pos hanchors, if_pos hanchors, Nat.zero_div, ← htarget]
          exact (BitVec.add_zero _).symm
        flush := fun hf => hop.1.symm.trans hf
        flushed := fun hend => .inl (hop.1.trans hend) }
  · have hmem := List.mem_of_getLast? hx
    have hbehind := hline.behind x hmem
    have hless := hnear x hx
    refine ⟨?_, ?_, fun _ => .inl (List.mem_append_right _ (List.mem_singleton_self _))⟩
    · rw [Nat.mul_add]
      omega
    · rw [Nat.mul_add]
      omega

theorem Inv.goesOn (h : Inv cfg s) (hstart : user.burstStart = false)
    (hburst : s.writer.inBurst = true)
    (hpast : user.updateTimestamp = true → s.writer.timestampInPast user = false)
    (hop : op.flush = user.burstEnd ∧ op.zeroPad = user.updateTimestamp) :
    ∃ starts, starts.map (fun b => BitVec.ofNat 64 (b / cfg.samplesPerTs)) = s.plan.starts ∧
      TxLoop cfg (job cfg s.plan samples user hsince hsamples) starts s.writer
        { samples, user, op } := by
  obtain ⟨t, laid, line, starts, hline, hheader, hslots, hassigned, hstarts, hsynced, _⟩ := h
  have hanchors : anchors user = user.updateTimestamp := by
    rw [anchors, hstart, Bool.false_or]
  refine ⟨starts, hstarts, t, laid, line, hline, ?_, hheader, hslots⟩
  exact
    { samples := rfl
      user := rfl
      inBurst := hburst
      written_le := Nat.zero_le _
      written_dvd := Nat.dvd_zero _
      assigned := by
        show _ = s.plan.assigned ++ assign cfg _ _ (samples.take 0)
        rw [hassigned, List.take_zero]
        exact (List.append_nil _).symm
      pad := fun hz => by
        have hupdate := hop.2.symm.trans hz
        show _ ∧ (if anchors user then 0 else s.plan.since) = 0 ∧
          (if anchors user then user.timestamp else s.plan.anchor) = _ ∧ _
        rw [hanchors, hupdate]
        exact ⟨rfl, rfl, rfl, not_past (hpast hupdate)⟩
      synced := fun hz _ => by
        have hupdate := hop.2.symm.trans hz
        show _ = (if anchors user then user.timestamp else s.plan.anchor) +
          BitVec.ofNat 64 (((if anchors user then 0 else s.plan.since) + 0) /
            cfg.samplesPerTs)
        rw [hanchors, hupdate]
        exact (hsynced hburst).2
      flush := fun hf => hop.1.symm.trans hf
      flushed := fun hend => .inl (hop.1.trans hend) }

end Call

theorem loop_idle {c : TxCall α} {turns : List (TxWriter.Turn α)}
    {r : TxWriter α × TxCall α} (hr : TxWriter.loop cfg turns w c = some r)
    (hidle : c.active = false) : r = (w, c) := by
  cases turns with
  | nil =>
      rw [TxWriter.loop, hidle, if_neg Bool.false_ne_true] at hr
      exact (Option.some.inj hr).symm
  | cons e turns =>
      rw [TxWriter.loop, hidle, if_neg Bool.false_ne_true] at hr
      cases hr

theorem Inv.returns {s : TxBurst α} {samples : List α}
    {hsince : anchors user = false → cfg.samplesPerTs ∣ s.plan.since}
    {hsamples : cfg.samplesPerTs ∣ samples.length} {starts : List ℕ}
    (hstarts : starts.map (fun b => BitVec.ofNat 64 (b / cfg.samplesPerTs)) =
      (s.plan.call cfg samples user).starts) {c : TxCall α}
    (h : TxLoop cfg (job cfg s.plan samples user hsince hsamples) starts w c)
    (hidle : c.active = false)
    (hpad : user.burstEnd = false → c.op.zeroPad = true →
      samples = [] ∧ user.timestamp = w.currTimestamp) :
    Inv cfg ⟨if user.burstEnd then { w with inBurst := false, now := false } else w,
      s.plan.call cfg samples user⟩ := by
  obtain ⟨t, laid, line, hline, hc, hheader, hslots⟩ := h
  have hidle' : ¬c.written < samples.length ∧ c.op.flush = false := by
    have hboth := Bool.or_eq_false_iff.mp hidle
    rw [hc.samples] at hboth
    exact ⟨of_decide_eq_false hboth.1, hboth.2⟩
  have hall : c.written = samples.length :=
    Nat.le_antisymm hc.written_le (Nat.le_of_not_lt hidle'.1)
  have hassigned : line.map (atPlace cfg) = (s.plan.call cfg samples user).assigned := by
    refine hc.assigned.trans ?_
    rw [hall]
    show _ ++ assign cfg _ _ (samples.take samples.length) = _
    rw [List.take_length]
    rfl
  cases hend : user.burstEnd with
  | true =>
      rcases hc.flushed hend with hflush | ⟨_, hout, hnear⟩
      · exact absurd (hidle'.2.symm.trans hflush) Bool.false_ne_true
      · exact ⟨t, laid, line, starts, { hline with now := rfl }, fun hm => { hheader hm with },
          fun hm => ⟨(hslots hm).1, (hslots hm).2.imp fun _ hat => { hat with }⟩, hassigned, hstarts,
          fun hb => absurd hb Bool.false_ne_true, fun _ => ⟨hout, hnear⟩⟩
  | false =>
      refine ⟨t, laid, line, starts, hline, hheader, hslots, hassigned, hstarts, fun _ => ?_,
        fun hb => absurd (hb.symm.trans hc.inBurst) Bool.false_ne_true⟩
      have hdvd := Nat.dvd_add
        (job cfg s.plan samples user hsince hsamples).since_dvd hsamples
      refine ⟨hdvd, ?_⟩
      cases hzero : c.op.zeroPad with
      | false =>
          have hsynced := hc.synced hzero fun he => absurd (hend.symm.trans he) Bool.false_ne_true
          rw [hall] at hsynced
          exact hsynced
      | true =>
          obtain ⟨hnone, hts⟩ := hpad hend hzero
          obtain ⟨_, hzeroSince, hanchor, _⟩ := hc.pad hzero
          have hplan : (s.plan.call cfg samples user).anchor = user.timestamp ∧
              (s.plan.call cfg samples user).since = 0 + samples.length :=
            ⟨hanchor, congrArg (· + samples.length) hzeroSince⟩
          show _ = (s.plan.call cfg samples user).anchor +
            BitVec.ofNat 64 ((s.plan.call cfg samples user).since / cfg.samplesPerTs)
          rw [hplan.1, hplan.2, hnone, hts, hline.time]
          simp

theorem syncTx_some {w' : TxWriter α} {samples : List α}
    {turns : List (TxWriter.Turn α)} (h : w.syncTx cfg samples (some user) turns = some w') :
    cfg.samplesPerTs ∣ samples.length ∧ ∃ v op u c,
      w.handleTxParameters (some user) = .ok (v, op) ∧
      TxWriter.loop cfg turns v { samples, user, op } = some (u, c) ∧
      w' = if user.burstEnd then { u with inBurst := false, now := false } else u := by
  unfold TxWriter.syncTx at h
  split at h
  · rename_i haligned
    refine ⟨Nat.dvd_of_mod_eq_zero haligned, ?_⟩
    cases hparams : w.handleTxParameters (some user) with
    | error e =>
        simp only [hparams] at h
        cases h
    | ok r =>
        obtain ⟨v, op⟩ := r
        simp only [hparams] at h
        obtain ⟨⟨u, c⟩, hloop, rfl⟩ := Option.map_eq_some_iff.mp h
        exact ⟨v, op, u, c, rfl, hloop, rfl⟩
  · cases h

theorem unpadded {j : TxJob cfg α} {starts : List ℕ} {v : TxWriter α} {c d : TxCall α}
    {turns : List (TxWriter.Turn α)} (hloop : TxWriter.loop cfg turns v d = some (w, c))
    (h : TxLoop cfg j starts w c) (hidle : c.active = false) (hd : d.samples = j.samples)
    (hflush : d.op.flush = false) (hzero : c.op.zeroPad = true) :
    j.samples = [] ∧ w = v ∧ c = d := by
  obtain ⟨_, _, _, _, hc, _⟩ := h
  have hnone : j.samples = [] := by
    have hdone := (Bool.or_eq_false_iff.mp hidle).1
    have hlen := of_decide_eq_false hdone
    rw [hc.samples, (hc.pad hzero).1] at hlen
    exact List.length_eq_zero_iff.mp (Nat.eq_zero_of_not_pos hlen)
  have hidle' : d.active = false := by
    rw [TxCall.active, hd, hnone, hflush]
    rfl
  obtain ⟨rfl, rfl⟩ := Prod.mk.inj (loop_idle hloop hidle')
  exact ⟨hnone, rfl, rfl⟩

theorem Inv.step {s s' : TxBurst α} {call : TxBurstCall α} (h : Inv cfg s)
    (hproper : s.Proper call) (hclean : s.Clean call) (hstep : s.step cfg call = some s') :
    Inv cfg s' := by
  obtain ⟨samples, user, turns⟩ := call
  have hnow : user.txNow = false := hproper.1
  obtain ⟨w', hcall, rfl⟩ := Option.map_eq_some_iff.mp hstep
  obtain ⟨hsamples, v, op, u, c, hparams, hloop, rfl⟩ := syncTx_some hcall
  obtain ⟨hflush, hcases⟩ := handleTxParameters_ok hparams hnow
  rcases hcases with ⟨hstart, hburst, hpast, rfl, hzero⟩ | ⟨hstart, rfl, hzero, hpast⟩
  · have hanchors : anchors user = true := by rw [anchors, hstart, Bool.true_or]
    have hsince : anchors user = false → cfg.samplesPerTs ∣ s.plan.since := fun hno =>
      absurd (hno.symm.trans hanchors) Bool.false_ne_true
    obtain ⟨starts, hstarts, hbegin⟩ := h.opens hsince hsamples
      hstart hburst hpast ⟨hflush, hzero⟩
    obtain ⟨hdone, hidle⟩ := TxLoop.loop hloop hbegin
    refine Inv.returns ?_ hdone hidle fun hend hpad => ?_
    · rw [hstarts, call, hstart]
      rfl
    · obtain ⟨_, _, rfl⟩ := unpadded hloop hdone hidle rfl (hflush.trans hend) hpad
      exact absurd (hzero.symm.trans hpad) Bool.false_ne_true
  · have hburst : s.writer.inBurst = true :=
      hproper.2.resolve_right fun hno => Bool.false_ne_true (hstart.symm.trans hno)
    have hsince : anchors user = false → cfg.samplesPerTs ∣ s.plan.since := by
      obtain ⟨_, _, _, _, _, _, _, _, _, hsynced, _⟩ := h
      exact fun _ => (hsynced hburst).1
    obtain ⟨starts, hstarts, hbegin⟩ := h.goesOn hsince hsamples
      hstart hburst hpast ⟨hflush, hzero⟩
    obtain ⟨hdone, hidle⟩ := TxLoop.loop hloop hbegin
    refine Inv.returns ?_ hdone hidle fun hend hpad => ?_
    · rw [hstarts, call, hstart]
      rfl
    · obtain ⟨hnone, rfl, rfl⟩ := unpadded hloop hdone hidle rfl (hflush.trans hend) hpad
      refine ⟨hnone, (hclean (hzero.symm.trans hpad) hstart hnone).resolve_left fun hno => ?_⟩
      exact Bool.false_ne_true (hend.symm.trans hno)

/-! ## Runs -/

theorem Inv.placed {s : TxBurst α} (h : Inv cfg s) : TxPlaced cfg s.writer s.plan := by
  obtain ⟨t, laid, line, starts, hline, hheader, hslots, hassigned, hstarts, _, hclosed⟩ := h
  refine ⟨laid, line, starts, hline.messages, hline.header, hline.follows, hline.slots, hassigned,
    hline.ordered, hstarts, fun x hx => ?_, fun hburst => (hline.outside (hclosed hburst).1).2⟩
  cases hmeta : s.writer.metaState with
  | header => exact .inl ((hheader hmeta).complete x hx)
  | samples =>
      obtain ⟨_, b, hat⟩ := hslots hmeta
      refine (hat.complete x hx).imp id fun hin => ⟨?_, b, hin.2, hin.1, hat.dvd, hat.header, ?_⟩
      · rw [← Bool.not_eq_false]
        exact fun hburst => (hclosed hburst).1 hat.syncState
      · have hshows := hat.slots (x.2 - b) (by omega)
        rw [Nat.add_sub_cancel' hin.1] at hshows
        exact hshows.eq hline.ordered hx

/-- Every sample is in the slot of its timestamp, in every run whose updates bring a
sample. -/
theorem syncTx_placed {timestamp : BitVec 64} {memory : TxBuffer α} {calls : List (TxBurstCall α)}
    {s : TxBurst α}
    (h : Lib.Steps (step cfg) (fun s call => s.Proper call ∧ s.Clean call) (start timestamp memory)
      calls s) : TxPlaced cfg s.writer s.plan := by
  refine (h.invariant (P := Inv cfg) (start_inv timestamp memory) ?_).placed
  intro a call b ha hok hstep
  exact ha.step hok.1 hok.2 hstep

section Runs

instance (s : TxBurst ℕ) (call : TxBurstCall ℕ) : Decidable (s.Proper call) :=
  inferInstanceAs (Decidable (_ ∧ (_ ∨ _)))

instance (s : TxBurst ℕ) (call : TxBurstCall ℕ) : Decidable (s.Clean call) :=
  inferInstanceAs (Decidable (_ → _ → _ → _ ∨ _))

def oldMemory : TxBuffer ℕ := fun _ => ⟨metadataSet 0 0, fun _ => 9⟩

def turns (k : ℕ) : List (TxWriter.Turn ℕ) := .replicate k ⟨true, true, oldMemory⟩

/-- The second call skips three ticks behind the first message. -/
def updated : List (TxBurstCall ℕ) :=
  [⟨[1, 2, 3, 4], { burstStart := true, timestamp := 1000 }, turns 6⟩,
    ⟨[5], { updateTimestamp := true, timestamp := 1255 }, turns 3⟩,
    ⟨[6], { burstEnd := true }, turns 1⟩]

def updatedAlone : List (TxBurstCall ℕ) :=
  [⟨[1, 2, 3, 4], { burstStart := true, timestamp := 1000 }, turns 6⟩,
    ⟨[], { updateTimestamp := true, timestamp := 100000 }, turns 0⟩,
    ⟨[5], { burstEnd := true }, turns 3⟩]

theorem syncTx_placed_updated :
    ∃ s, Lib.Steps (step highSpeed) (fun s call => s.Proper call ∧ s.Clean call)
        (start 0 oldMemory) updated s ∧
      (s.writer.messages highSpeed).map (fun m => m.header.timestamp) = [1000, 1255] ∧
      TxPlaced highSpeed s.writer s.plan := by
  have hrun : (Lib.exec (step highSpeed) (fun s call => s.Proper call ∧ s.Clean call)
      (start 0 oldMemory) updated).any
      (fun s => (s.writer.messages highSpeed).map (fun m => m.header.timestamp) = [1000, 1255]) =
        true := by
    decide +kernel
  obtain ⟨s, hs, hstate⟩ := (Option.any_eq_true ..).mp hrun
  exact ⟨s, .of_exec hs, of_decide_eq_true hstate, syncTx_placed (.of_exec hs)⟩

/-- The last sample is due at 100000, and no message has this timestamp. -/
theorem syncTx_misplaced :
    ¬∀ calls (s : TxBurst ℕ), Lib.Steps (step highSpeed) Proper (start 0 oldMemory) calls s →
      TxPlaced highSpeed s.writer s.plan := by
  intro h
  have hrun : (Lib.exec (step highSpeed) Proper (start 0 oldMemory) updatedAlone).any
      (fun s => s.writer.inBurst = false ∧
        (s.writer.messages highSpeed).map (fun m => m.header.timestamp) = [1000, 1252] ∧
        100000 ∈ s.plan.assigned.map (·.timestamp)) = true := by
    decide +kernel
  obtain ⟨s, hs, hstate⟩ := (Option.any_eq_true ..).mp hrun
  obtain ⟨hburst, hheaders, hdue⟩ := of_decide_eq_true hstate
  obtain ⟨laid, line, starts, hlaid⟩ := h _ s (.of_exec hs)
  obtain ⟨a, ha, hts⟩ := List.mem_map.mp hdue
  rw [← hlaid.assigned] at ha
  obtain ⟨x, hx, rfl⟩ := List.mem_map.mp ha
  have hplace : BitVec.ofNat 64 (x.2 / 1) = 100000 := hts
  rcases hlaid.complete x hx with ⟨m, hm, hle, hlt⟩ | ⟨hopen, _⟩
  · have hheader : m.2.header.timestamp = BitVec.ofNat 64 (m.1 / 1) :=
      congrArg MetaHeader.timestamp (hlaid.header m hm).2
    have hmem : m.2.header.timestamp ∈ [1000, 1252] := by
      rw [← hheaders, ← hlaid.messages]
      exact List.mem_map_of_mem (List.mem_map_of_mem hm)
    have hlt : x.2 < m.1 + 252 := hlt
    have hoff : x.2 = m.1 + (x.2 - m.1) := by omega
    rw [hheader, Nat.div_one] at hmem
    rw [Nat.div_one, hoff, BitVec.ofNat_add] at hplace
    simp only [List.mem_cons, List.not_mem_nil, or_false] at hmem
    rcases hmem with hmem | hmem <;> rw [hmem] at hplace <;> bv_omega
  · exact Bool.false_ne_true (hburst.symm.trans hopen)

end Runs

end TxBurst

end BladeRF
