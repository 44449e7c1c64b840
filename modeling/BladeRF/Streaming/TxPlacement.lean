/-
# `Streaming.TxPlacement` — where the samples of a burst end up

The calls of `sync_tx` give each user sample a timestamp.  On a time line that does
not wrap around, the messages of the submitted buffers are stretches of
`samples_per_msg` slots one behind the other, and a slot holds the sample of its
place on the line or is zero.
-/
import Mathlib.Data.List.Chain
import Mathlib.Data.Nat.ModEq
import BladeRF.Streaming.RxPosition
import BladeRF.Streaming.TxMeta

namespace BladeRF

open TxWriter

variable {α : Type*}

/-! ## The plan -/

structure TxAssigned (α : Type*) where
  sample : α
  timestamp : BitVec 64
  lane : ℕ

structure TxPlan (α : Type*) where
  anchor : BitVec 64 := 0
  /-- the samples since -/
  since : ℕ := 0
  starts : List (BitVec 64) := []
  assigned : List (TxAssigned α) := []

namespace TxPlan

def assign (cfg : MetaConfig) (anchor : BitVec 64) (since : ℕ) (samples : List α) :
    List (TxAssigned α) :=
  (samples.zipIdx since).map fun x =>
    ⟨x.1, anchor + BitVec.ofNat 64 (x.2 / cfg.samplesPerTs), x.2 % cfg.samplesPerTs⟩

def anchors (user : TxUserMeta) : Bool := user.burstStart || user.updateTimestamp

def call (cfg : MetaConfig) (p : TxPlan α) (samples : List α) (user : TxUserMeta) : TxPlan α :=
  let anchor := if anchors user then user.timestamp else p.anchor
  let since := if anchors user then 0 else p.since
  { anchor
    since := since + samples.length
    starts := if user.burstStart then p.starts ++ [user.timestamp] else p.starts
    assigned := p.assigned ++ assign cfg anchor since samples }

theorem assign_append (cfg : MetaConfig) (anchor : BitVec 64) (since : ℕ) (xs ys : List α) :
    assign cfg anchor since (xs ++ ys) =
      assign cfg anchor since xs ++ assign cfg anchor (since + xs.length) ys := by
  rw [assign, List.zipIdx_append, List.map_append]
  rfl

end TxPlan

/-! ## The time line -/

def atPlace (cfg : MetaConfig) (x : α × ℕ) : TxAssigned α :=
  ⟨x.1, BitVec.ofNat 64 (x.2 / cfg.samplesPerTs), x.2 % cfg.samplesPerTs⟩

/-- What a slot at place `p` has to hold. -/
def Shows [Zero α] (line : List (α × ℕ)) (p : ℕ) (v : α) : Prop :=
  (v, p) ∈ line ∨ v = 0 ∧ ∀ x, (x, p) ∉ line

def LastThreeZero [Zero α] (cfg : MetaConfig) (m : TxMessage α) : Prop :=
  3 ≤ cfg.samplesPerMsg ∧
    ∀ k, cfg.samplesPerMsg ≤ k + 3 → k < cfg.samplesPerMsg → m.slots k = 0

/-- A message at `b` may follow the message `x`: at once, or after a skip, at the start of
a burst or behind three zeros.  No skip takes the clock all the way round. -/
def Follows [Zero α] (cfg : MetaConfig) (starts : List ℕ) (x : ℕ × TxMessage α) (b : ℕ) : Prop :=
  x.1 + cfg.samplesPerMsg ≤ b ∧ b < x.1 + cfg.samplesPerMsg + cfg.samplesPerTs * 2 ^ 64 ∧
    (x.1 + cfg.samplesPerMsg < b → b ∈ starts ∨ LastThreeZero cfg x.2)

def Covered (cfg : MetaConfig) (laid : List (ℕ × TxMessage α)) (p : ℕ) : Prop :=
  ∃ x ∈ laid, x.1 ≤ p ∧ p < x.1 + cfg.samplesPerMsg

namespace TxWriter

variable (cfg : MetaConfig)

/-- The complete messages: of the submitted buffers, and of the one at hand. -/
def messages (w : TxWriter α) : List (TxMessage α) :=
  (w.submitted.flatMap fun b => (List.range cfg.msgPerBuf).map b) ++
    (List.range w.msgNum).map w.buffer

theorem messages_congr {cfg : MetaConfig} {w w' : TxWriter α}
    (hsubmitted : w'.submitted = w.submitted) (hnum : w'.msgNum = w.msgNum)
    (hbuffer : ∀ m < w.msgNum, w'.buffer m = w.buffer m) : w'.messages cfg = w.messages cfg := by
  rw [messages, messages, hsubmitted, hnum]
  refine congrArg _ (List.map_congr_left fun m hm => ?_)
  exact hbuffer m (List.mem_range.mp hm)

end TxWriter

/-- The messages `laid` with the places of their first slots, the samples of `line` with
their places, and the places `starts` at which bursts start. -/
structure TxLayout [Zero α] (cfg : MetaConfig) (w : TxWriter α) (plan : TxPlan α)
    (laid : List (ℕ × TxMessage α)) (line : List (α × ℕ)) (starts : List ℕ) : Prop where
  messages : laid.map Prod.snd = w.messages cfg
  /-- every header has the timestamp of slot 0 -/
  header : ∀ x ∈ laid, cfg.samplesPerTs ∣ x.1 ∧
    x.2.header = metadataSet (BitVec.ofNat 64 (x.1 / cfg.samplesPerTs)) 0
  follows : laid.IsChain fun x y => Follows cfg starts x y.1
  /-- slot `k` of a message at `b` holds the sample of the place `b + k`, or is zero -/
  slots : ∀ x ∈ laid, ∀ k < cfg.samplesPerMsg, Shows line (x.1 + k) (x.2.slots k)
  /-- every user sample has one place, which is at its timestamp -/
  assigned : line.map (atPlace cfg) = plan.assigned
  ordered : (line.map Prod.snd).Pairwise (· < ·)
  starts : starts.map (fun b => BitVec.ofNat 64 (b / cfg.samplesPerTs)) = plan.starts
  /-- a sample that is in no complete message is in the one being filled -/
  complete : ∀ x ∈ line, Covered cfg laid x.2 ∨
    w.inBurst = true ∧ ∃ b, x.2 < b + w.currMsgOff ∧ b ≤ x.2 ∧ cfg.samplesPerTs ∣ b ∧
      (w.buffer w.currMsg).header = metadataSet (BitVec.ofNat 64 (b / cfg.samplesPerTs)) 0 ∧
      (w.buffer w.currMsg).slots (x.2 - b) = x.1
  /-- behind the end of a burst all messages are submitted -/
  closed : w.inBurst = false → w.msgNum = 0

def TxPlaced [Zero α] (cfg : MetaConfig) (w : TxWriter α) (plan : TxPlan α) : Prop :=
  ∃ laid line starts, TxLayout cfg w plan laid line starts

section Line

variable [Zero α] {cfg : MetaConfig} {line : List (α × ℕ)} {p q : ℕ} {v : α}

theorem Shows.append (h : Shows line p v) {more : List (α × ℕ)} (hmore : ∀ x ∈ more, p < x.2) :
    Shows (line ++ more) p v := by
  rcases h with h | ⟨hv, hnone⟩
  · exact .inl (List.mem_append_left _ h)
  · refine .inr ⟨hv, fun x hx => ?_⟩
    rcases List.mem_append.mp hx with hx | hx
    · exact hnone x hx
    · exact Nat.lt_irrefl p (hmore _ hx)

theorem shows_zero (h : ∀ x ∈ line, x.2 < p) : Shows line p 0 :=
  .inr ⟨rfl, fun _ hx => Nat.lt_irrefl p (h _ hx)⟩

theorem Shows.eq (h : Shows line p v) (hordered : (line.map Prod.snd).Pairwise (· < ·)) {x : α}
    (hx : (x, p) ∈ line) : v = x := by
  rcases h with h | ⟨_, hnone⟩
  · have hnodup : (line.map Prod.snd).Nodup := hordered.imp Nat.ne_of_lt
    exact congrArg Prod.fst (List.inj_on_of_nodup_map hnodup h hx rfl)
  · exact absurd hx (hnone x)

theorem Follows.mono {starts : List ℕ} {x : ℕ × TxMessage α} {b : ℕ} (h : Follows cfg starts x b)
    (more : List ℕ) : Follows cfg (starts ++ more) x b :=
  ⟨h.1, h.2.1, fun hlt => (h.2.2 hlt).imp (List.mem_append_left _) id⟩

omit [Zero α] in
theorem Covered.append {laid : List (ℕ × TxMessage α)} (h : Covered cfg laid p)
    (x : ℕ × TxMessage α) : Covered cfg (laid ++ [x]) p := by
  obtain ⟨y, hy, hp⟩ := h
  exact ⟨y, List.mem_append_left _ hy, hp⟩

omit [Zero α] in
theorem map_atPlace (cfg : MetaConfig) {t c : ℕ} {anchor : BitVec 64} (hdvd : cfg.samplesPerTs ∣ c)
    (ht : BitVec.ofNat 64 t = anchor + BitVec.ofNat 64 (c / cfg.samplesPerTs)) (xs : List α) :
    (xs.zipIdx (cfg.samplesPerTs * t)).map (atPlace cfg) = TxPlan.assign cfg anchor c xs := by
  obtain ⟨m, rfl⟩ := hdvd
  have hpos := cfg.samplesPerTs_pos
  rw [Nat.mul_div_cancel_left _ hpos] at ht
  refine List.ext_getElem (by simp [TxPlan.assign]) fun i h1 h2 => ?_
  simp only [TxPlan.assign, List.getElem_map, List.getElem_zipIdx, atPlace, TxAssigned.mk.injEq,
    Nat.mul_add_div hpos, Nat.mul_add_mod, BitVec.ofNat_add, ht, true_and, and_true]
  exact BitVec.add_assoc _ _ _

end Line

/-! ## The writer on the line -/

/-- The writer has come to the time `t` on the line. -/
structure TxTimeline [Zero α] (cfg : MetaConfig) (w : TxWriter α) (t : ℕ)
    (laid : List (ℕ × TxMessage α)) (line : List (α × ℕ)) (starts : List ℕ) : Prop where
  time : w.currTimestamp = BitVec.ofNat 64 t
  now : w.now = false
  messages : laid.map Prod.snd = w.messages cfg
  header : ∀ x ∈ laid, cfg.samplesPerTs ∣ x.1 ∧
    x.2.header = metadataSet (BitVec.ofNat 64 (x.1 / cfg.samplesPerTs)) 0
  follows : laid.IsChain fun x y => Follows cfg starts x y.1
  behind : ∀ x ∈ laid, x.1 + cfg.samplesPerMsg ≤ cfg.samplesPerTs * t
  slots : ∀ x ∈ laid, ∀ k < cfg.samplesPerMsg, Shows line (x.1 + k) (x.2.slots k)
  ordered : (line.map Prod.snd).Pairwise (· < ·)
  before : ∀ x ∈ line, x.2 < cfg.samplesPerTs * t
  outside : w.syncState ≠ .usingBufferMeta → w.metaState = .header ∧ w.msgNum = 0
  inside : w.syncState = .usingBufferMeta → w.msgNum < cfg.msgPerBuf

/-- A message at `b` fits behind the complete ones. -/
def Next [Zero α] (cfg : MetaConfig) (laid : List (ℕ × TxMessage α)) (starts : List ℕ) (b : ℕ) :
    Prop :=
  ∀ x ∈ laid.getLast?, Follows cfg starts x b

/-- The present is less than half the range of the clock ahead of them. -/
def Near (cfg : MetaConfig) (laid : List (ℕ × TxMessage α)) (p : ℕ) : Prop :=
  ∀ x ∈ laid.getLast?, p < x.1 + cfg.samplesPerMsg + cfg.samplesPerTs * 2 ^ 63

structure TxAtHeader [Zero α] (cfg : MetaConfig) (w : TxWriter α) (t : ℕ)
    (laid : List (ℕ × TxMessage α)) (line : List (α × ℕ)) (starts : List ℕ) : Prop where
  metaState : w.metaState = .header
  next : Next cfg laid starts (cfg.samplesPerTs * t)
  complete : ∀ x ∈ line, Covered cfg laid x.2

/-- In a message at `b`. -/
structure TxAtSlots [Zero α] (cfg : MetaConfig) (w : TxWriter α) (t : ℕ)
    (laid : List (ℕ × TxMessage α)) (line : List (α × ℕ)) (starts : List ℕ) (b : ℕ) : Prop where
  syncState : w.syncState = .usingBufferMeta
  metaState : w.metaState = .samples
  currMsg : w.currMsg = w.msgNum
  off_le : w.currMsgOff ≤ cfg.samplesPerMsg
  next : Next cfg laid starts b
  dvd : cfg.samplesPerTs ∣ b
  header : (w.buffer w.currMsg).header = metadataSet (BitVec.ofNat 64 (b / cfg.samplesPerTs)) 0
  slots : ∀ k < w.currMsgOff, Shows line (b + k) ((w.buffer w.currMsg).slots k)
  /-- at the place of the next slot, or behind a full message that ends in zeros -/
  place : b + w.currMsgOff = cfg.samplesPerTs * t ∨
    w.currMsgOff = cfg.samplesPerMsg ∧ b + cfg.samplesPerMsg ≤ cfg.samplesPerTs * t ∧
      cfg.samplesPerTs * t < b + cfg.samplesPerMsg + cfg.samplesPerTs * 2 ^ 63 ∧
      LastThreeZero cfg (w.buffer w.currMsg)
  complete : ∀ x ∈ line, Covered cfg laid x.2 ∨ b ≤ x.2 ∧ x.2 < b + w.currMsgOff

section Writer

variable [Zero α] {cfg : MetaConfig} {w : TxWriter α} {t b : ℕ} {laid : List (ℕ × TxMessage α)}
  {line : List (α × ℕ)} {starts : List ℕ}

section

variable (h : TxAtSlots cfg w t laid line starts b)

include h

theorem TxAtSlots.off_dvd :
    cfg.samplesPerTs ∣ w.currMsgOff := by
  rcases h.place with hplace | ⟨hfull, _⟩
  · exact (Nat.dvd_add_right h.dvd).mp (hplace ▸ Nat.dvd_mul_right _ _)
  · exact hfull ▸ cfg.aligned

theorem TxAtSlots.left_dvd :
    cfg.samplesPerTs ∣ w.leftInMsg cfg :=
  Nat.dvd_sub cfg.aligned h.off_dvd

theorem TxAtSlots.place_of_left
    (hleft : w.leftInMsg cfg ≠ 0) : b + w.currMsgOff = cfg.samplesPerTs * t := by
  rcases h.place with hplace | ⟨hfull, _⟩
  · exact hplace
  · rw [leftInMsg, hfull, Nat.sub_self] at hleft
    exact absurd rfl hleft

end

theorem TxTimeline.fillHeader (h : TxTimeline cfg w t laid line starts)
    (hat : TxAtHeader cfg w t laid line starts) (hstate : w.syncState = .usingBufferMeta) :
    TxTimeline cfg w.fillHeader t laid line starts ∧
      TxAtSlots cfg w.fillHeader t laid line starts (cfg.samplesPerTs * t) := by
  have hpos := cfg.samplesPerTs_pos
  have hmessages : w.fillHeader.messages cfg = w.messages cfg :=
    messages_congr rfl rfl fun m hm => if_neg hm.ne
  refine ⟨{ h with
    messages := h.messages.trans hmessages.symm
    outside := fun hne => absurd hstate hne }, ?_⟩
  exact
    { syncState := hstate
      metaState := rfl
      currMsg := rfl
      off_le := Nat.zero_le _
      next := hat.next
      dvd := Nat.dvd_mul_right _ _
      header := by
        show (if w.msgNum = w.msgNum then _ else _ : TxMessage α).header = _
        rw [if_pos rfl, h.now, if_neg Bool.false_ne_true, h.time, Nat.mul_div_cancel_left _ hpos]
      slots := fun k hk => absurd hk k.not_lt_zero
      place := .inl rfl
      complete := fun x hx => .inl (hat.complete x hx) }

/-! ## Slots -/

omit [Zero α] in
theorem put_currMsg (w : TxWriter α) (n : ℕ) (f : ℕ → α) :
    (w.put n f).buffer (w.put n f).currMsg = (w.buffer w.currMsg).fill w.currMsgOff n f :=
  if_pos rfl

theorem TxTimeline.put (h : TxTimeline cfg w t laid line starts)
    (hat : TxAtSlots cfg w t laid line starts b) (hplace : b + w.currMsgOff = cfg.samplesPerTs * t)
    {n : ℕ} (hn : n ≤ w.leftInMsg cfg) (hdvd : cfg.samplesPerTs ∣ n) {f : ℕ → α}
    {more : List (α × ℕ)}
    (hmore : ∀ x ∈ more, cfg.samplesPerTs * t ≤ x.2 ∧ x.2 < cfg.samplesPerTs * t + n)
    (hordered : (more.map Prod.snd).Pairwise (· < ·))
    (hf : ∀ i < n, Shows (line ++ more) (cfg.samplesPerTs * t + i) (f i)) {ts : BitVec 64}
    (hts : ts = BitVec.ofNat 64 (t + n / cfg.samplesPerTs)) :
    TxTimeline cfg { w.put n f with currTimestamp := ts } (t + n / cfg.samplesPerTs) laid
        (line ++ more) starts ∧
      TxAtSlots cfg { w.put n f with currTimestamp := ts } (t + n / cfg.samplesPerTs) laid
        (line ++ more) starts b := by
  have hoff := hat.off_le
  have hstep : cfg.samplesPerTs * (t + n / cfg.samplesPerTs) = cfg.samplesPerTs * t + n := by
    rw [Nat.mul_add, Nat.mul_div_cancel' hdvd]
  have hmessages : (w.put n f).messages cfg = w.messages cfg :=
    messages_congr rfl rfl fun m hm => if_neg (hat.currMsg ▸ hm.ne)
  have hlater : ∀ p < cfg.samplesPerTs * t, ∀ x ∈ more, p < x.2 := fun p hp x hx =>
    Nat.lt_of_lt_of_le hp (hmore x hx).1
  constructor
  · exact
      { h with
        time := hts
        messages := h.messages.trans hmessages.symm
        behind := fun x hx => by
          rw [hstep]
          exact Nat.le_trans (h.behind x hx) (Nat.le_add_right _ _)
        slots := fun x hx k hk => by
          have hlt := h.behind x hx
          exact (h.slots x hx k hk).append (hlater _ (by omega))
        ordered := by
          rw [List.map_append]
          refine List.pairwise_append.mpr ⟨h.ordered, hordered, fun p hp q hq => ?_⟩
          obtain ⟨x, hx, rfl⟩ := List.mem_map.mp hp
          obtain ⟨y, hy, rfl⟩ := List.mem_map.mp hq
          exact hlater _ (h.before x hx) y hy
        before := fun x hx => by
          rw [hstep]
          rcases List.mem_append.mp hx with hx | hx
          · exact Nat.lt_add_right _ (h.before x hx)
          · exact (hmore x hx).2 }
  · rw [leftInMsg] at hn
    exact
      { syncState := hat.syncState
        metaState := hat.metaState
        currMsg := hat.currMsg
        off_le := by
          show w.currMsgOff + n ≤ _
          omega
        next := hat.next
        dvd := hat.dvd
        header := (congrArg TxMessage.header (put_currMsg w n f)).trans hat.header
        slots := fun k hk => by
          have hk : k < w.currMsgOff + n := hk
          show Shows _ _ (((w.put n f).buffer (w.put n f).currMsg).slots k)
          rw [put_currMsg]
          by_cases hnew : w.currMsgOff ≤ k
          · have hval : ((w.buffer w.currMsg).fill w.currMsgOff n f).slots k =
                f (k - w.currMsgOff) := if_pos ⟨hnew, hk⟩
            rw [hval]
            have hshows := hf (k - w.currMsgOff) (by omega)
            rwa [← hplace, Nat.add_assoc, Nat.add_sub_cancel' hnew] at hshows
          · have hval : ((w.buffer w.currMsg).fill w.currMsgOff n f).slots k =
                (w.buffer w.currMsg).slots k := if_neg fun hin => hnew hin.1
            rw [hval]
            exact (hat.slots k (Nat.lt_of_not_le hnew)).append (hlater _ (by omega))
        place := .inl (by
          rw [hstep, ← hplace]
          exact (Nat.add_assoc _ _ _).symm)
        complete := fun x hx => by
          show _ ∨ b ≤ x.2 ∧ x.2 < b + (w.currMsgOff + n)
          rcases List.mem_append.mp hx with hx | hx
          · exact (hat.complete x hx).imp id fun hin => ⟨hin.1, by omega⟩
          · have := hmore x hx
            exact .inr ⟨by omega, by omega⟩ }

theorem TxTimeline.putZero (h : TxTimeline cfg w t laid line starts)
    (hat : TxAtSlots cfg w t laid line starts b) (hplace : b + w.currMsgOff = cfg.samplesPerTs * t)
    {n : ℕ} (hn : n ≤ w.leftInMsg cfg) (hdvd : cfg.samplesPerTs ∣ n) {ts : BitVec 64}
    (hts : ts = BitVec.ofNat 64 (t + n / cfg.samplesPerTs)) :
    TxTimeline cfg { w.put n (fun _ => 0) with currTimestamp := ts } (t + n / cfg.samplesPerTs) laid
        line starts ∧
      TxAtSlots cfg { w.put n (fun _ => 0) with currTimestamp := ts } (t + n / cfg.samplesPerTs) laid
        line starts b := by
  have hnone : ∀ x ∈ ([] : List (α × ℕ)),
      cfg.samplesPerTs * t ≤ x.2 ∧ x.2 < cfg.samplesPerTs * t + n := fun _ hx => by cases hx
  have hput := h.put hat hplace hn hdvd (f := fun _ => 0) hnone List.Pairwise.nil
    (fun i _ => by
      rw [List.append_nil]
      exact shows_zero fun x hx => Nat.lt_add_right _ (h.before x hx)) hts
  rwa [List.append_nil] at hput

/-! ## Behind a message -/

omit [Zero α] in
theorem mem_getLast?_append {x y : ℕ × TxMessage α} (h : y ∈ (laid ++ [x]).getLast?) : y = x := by
  rw [List.getLast?_concat] at h
  exact (Option.some.inj h).symm

theorem TxTimeline.nextMessage (h : TxTimeline cfg w t laid line starts)
    (hat : TxAtSlots cfg w t laid line starts b) (hfull : w.leftInMsg cfg = 0) (c : TxCall α) :
    TxTimeline cfg ((w.nextMessage cfg).advance cfg c).1 t
        (laid ++ [(b, w.buffer w.currMsg)]) line starts ∧
      TxAtHeader cfg ((w.nextMessage cfg).advance cfg c).1 t
        (laid ++ [(b, w.buffer w.currMsg)]) line starts ∧
      Near cfg (laid ++ [(b, w.buffer w.currMsg)]) (cfg.samplesPerTs * t) := by
  have hoff : w.currMsgOff = cfg.samplesPerMsg :=
    Nat.le_antisymm hat.off_le (Nat.sub_eq_zero_iff_le.mp hfull)
  have hin := h.inside hat.syncState
  have hnext : w.nextMessage cfg = { w with msgNum := w.msgNum + 1, metaState := .header } :=
    if_pos hfull
  have hmessages : (laid ++ [(b, w.buffer w.currMsg)]).map Prod.snd =
      (w.submitted.flatMap fun m => (List.range cfg.msgPerBuf).map m) ++
        (List.range (w.msgNum + 1)).map w.buffer := by
    rw [List.map_append, h.messages, TxWriter.messages, List.range_succ, List.map_append,
      List.append_assoc, hat.currMsg]
    rfl
  have hpos := cfg.samplesPerTs_pos
  have hend : b + cfg.samplesPerMsg ≤ cfg.samplesPerTs * t ∧
      cfg.samplesPerTs * t < b + cfg.samplesPerMsg + cfg.samplesPerTs * 2 ^ 63 ∧
      (b + cfg.samplesPerMsg < cfg.samplesPerTs * t → LastThreeZero cfg (w.buffer w.currMsg)) := by
    rcases hat.place with hplace | ⟨_, hle, hnear, hzero⟩
    · rw [hoff] at hplace
      exact ⟨hplace.le, by omega, fun hlt => absurd hplace hlt.ne⟩
    · exact ⟨hle, hnear, fun _ => hzero⟩
  have hlast : ∀ P : ℕ × TxMessage α → Prop, (∀ x ∈ laid, P x) → P (b, w.buffer w.currMsg) →
      ∀ x ∈ laid ++ [(b, w.buffer w.currMsg)], P x := by
    intro P hlaid hnew x hx
    rcases List.mem_append.mp hx with hx | hx
    · exact hlaid x hx
    · exact List.mem_singleton.mp hx ▸ hnew
  have hcomplete : ∀ x ∈ line, Covered cfg (laid ++ [(b, w.buffer w.currMsg)]) x.2 := by
    intro x hx
    rcases hat.complete x hx with hcov | hin
    · exact hcov.append _
    · rw [hoff] at hin
      exact ⟨_, List.mem_append_right _ (List.mem_singleton_self _), hin⟩
  have hfits : Next cfg (laid ++ [(b, w.buffer w.currMsg)]) starts (cfg.samplesPerTs * t) := by
    intro x hx
    obtain rfl := mem_getLast?_append hx
    exact ⟨hend.1, by omega, fun hlt => .inr (hend.2.2 hlt)⟩
  have hnear : Near cfg (laid ++ [(b, w.buffer w.currMsg)]) (cfg.samplesPerTs * t) := by
    intro x hx
    obtain rfl := mem_getLast?_append hx
    exact hend.2.1
  have hchain : (laid ++ [(b, w.buffer w.currMsg)]).IsChain
      fun x y => Follows cfg starts x y.1 := by
    refine List.isChain_append.mpr ⟨h.follows, List.isChain_singleton _, fun x hx y hy => ?_⟩
    obtain rfl : (b, w.buffer w.currMsg) = y := Option.some.inj hy
    exact hat.next x hx
  have hheader := hlast _ h.header ⟨hat.dvd, hat.header⟩
  have hbehind := hlast _ h.behind hend.1
  have hslots := hlast (fun x => ∀ k < cfg.samplesPerMsg, Shows line (x.1 + k) (x.2.slots k))
    h.slots (hoff ▸ hat.slots)
  rw [hnext]
  by_cases hlastMsg : cfg.msgPerBuf ≤ w.msgNum + 1
  · rw [TxWriter.advance, if_pos hlastMsg]
    have hnum : w.msgNum + 1 = cfg.msgPerBuf := Nat.le_antisymm hin hlastMsg
    refine ⟨⟨h.time, h.now, hmessages.trans ?_, hheader, hchain, hbehind, hslots, h.ordered,
      h.before, fun _ => ⟨rfl, rfl⟩, fun hs => by cases hs⟩, ⟨rfl, hfits, hcomplete⟩, hnear⟩
    rw [TxWriter.messages, List.flatMap_append, List.flatMap_singleton, hnum]
    simp
  · rw [TxWriter.advance, if_neg hlastMsg]
    exact ⟨⟨h.time, h.now, hmessages, hheader, hchain, hbehind, hslots, h.ordered, h.before,
      fun hne => absurd hat.syncState hne, fun _ => Nat.lt_of_not_le hlastMsg⟩,
      ⟨rfl, hfits, hcomplete⟩, hnear⟩

end Writer

/-! ## A call -/

/-- A call with what was assigned before, and the clock of its samples. -/
structure TxJob (cfg : MetaConfig) (α : Type*) where
  before : List (TxAssigned α)
  anchor : BitVec 64
  since : ℕ
  samples : List α
  user : TxUserMeta
  since_dvd : cfg.samplesPerTs ∣ since
  samples_dvd : cfg.samplesPerTs ∣ samples.length

structure TxCallAt [Zero α] (cfg : MetaConfig) (j : TxJob cfg α) (w : TxWriter α) (c : TxCall α)
    (t : ℕ) (laid : List (ℕ × TxMessage α)) (line : List (α × ℕ)) : Prop where
  samples : c.samples = j.samples
  user : c.user = j.user
  inBurst : w.inBurst = true
  written_le : c.written ≤ j.samples.length
  written_dvd : cfg.samplesPerTs ∣ c.written
  assigned : line.map (atPlace cfg) =
    j.before ++ TxPlan.assign cfg j.anchor j.since (j.samples.take c.written)
  pad : c.op.zeroPad = true → c.written = 0 ∧ j.since = 0 ∧ j.anchor = j.user.timestamp ∧
    (j.user.timestamp - w.currTimestamp).toNat < 2 ^ 63
  /-- the next sample goes to the present -/
  synced : c.op.zeroPad = false → (j.user.burstEnd = true → c.written < j.samples.length) →
    BitVec.ofNat 64 t =
      j.anchor + BitVec.ofNat 64 ((j.since + c.written) / cfg.samplesPerTs)
  flush : c.op.flush = true → j.user.burstEnd = true
  flushed : j.user.burstEnd = true → c.op.flush = true ∨
    c.written = j.samples.length ∧ w.syncState ≠ .usingBufferMeta ∧
      Near cfg laid (cfg.samplesPerTs * t)

section Call

variable [Zero α] {cfg : MetaConfig} {j : TxJob cfg α} {w : TxWriter α} {c : TxCall α} {t b : ℕ}
  {laid : List (ℕ × TxMessage α)} {line : List (α × ℕ)} {starts : List ℕ}

theorem syncTimestampDeltaToSamples_of_dvd {delta perTs available : ℕ} (hpos : 0 < perTs)
    (hdvd : perTs ∣ available) :
    syncTimestampDeltaToSamples delta perTs available = min (perTs * delta) available := by
  obtain ⟨k, rfl⟩ := hdvd
  have hle : perTs * k ≤ perTs * delta ↔ k ≤ delta := Nat.mul_le_mul_left_iff hpos
  unfold syncTimestampDeltaToSamples
  rw [if_neg hpos.ne', Nat.mul_mod_right, Nat.mul_div_cancel_left _ hpos]
  by_cases hk : k ≤ delta
  · rw [min_eq_right (hle.mpr hk)]
    simp [hk]
  · rw [min_eq_left (Nat.mul_le_mul_left _ (Nat.le_of_not_le hk))]
    simp [hk, Nat.mul_comm]

theorem samplesToTimestampDelta_eq (cfg : MetaConfig) (n : ℕ) :
    samplesToTimestampDelta cfg n = BitVec.ofNat 64 (n / cfg.samplesPerTs) := by
  rw [samplesToTimestampDelta, if_neg cfg.samplesPerTs_pos.ne']

theorem toNat_ofNat_sub_ofNat {n a b : ℕ} (hab : b ≤ a) (h : a - b < 2 ^ n) :
    (BitVec.ofNat n a - BitVec.ofNat n b).toNat = a - b := by
  have hsum : BitVec.ofNat n a = BitVec.ofNat n (a - b) + BitVec.ofNat n b := by
    rw [← BitVec.ofNat_add, Nat.sub_add_cancel hab]
  rw [hsum, BitVec.add_sub_cancel, BitVec.toNat_ofNat, Nat.mod_eq_of_lt h]

theorem TxTimeline.skip (h : TxTimeline cfg w t laid line starts) {u : ℕ} (htu : t ≤ u)
    {ts : BitVec 64} (hts : ts = BitVec.ofNat 64 u) :
    TxTimeline cfg { w with currTimestamp := ts } u laid line starts := by
  have hle : cfg.samplesPerTs * t ≤ cfg.samplesPerTs * u := Nat.mul_le_mul_left _ htu
  exact
    { h with
      time := hts
      behind := fun x hx => Nat.le_trans (h.behind x hx) hle
      before := fun x hx => Nat.lt_of_lt_of_le (h.before x hx) hle }

theorem TxAtSlots.skip (h : TxAtSlots cfg w t laid line starts b) {u : ℕ}
    (hfull : w.currMsgOff = cfg.samplesPerMsg) (htu : t ≤ u) (hnear : u < t + 2 ^ 63)
    (hplace : b + w.currMsgOff = cfg.samplesPerTs * t)
    (hzero : LastThreeZero cfg (w.buffer w.currMsg)) (ts : BitVec 64) :
    TxAtSlots cfg { w with currTimestamp := ts } u laid line starts b := by
  have hpos := cfg.samplesPerTs_pos
  have hle : cfg.samplesPerTs * t ≤ cfg.samplesPerTs * u := Nat.mul_le_mul_left _ htu
  have hlt : cfg.samplesPerTs * u < cfg.samplesPerTs * (t + 2 ^ 63) :=
    Nat.mul_lt_mul_of_pos_left hnear hpos
  rw [Nat.mul_add] at hlt
  exact { h with place := .inr ⟨hfull, by omega, by omega, hzero⟩ }

theorem zeroPad_eq (hzero : c.op.zeroPad = true) (hdvd : cfg.samplesPerTs ∣ w.leftInMsg cfg)
    {n : ℕ} (hn : min (cfg.samplesPerTs * (c.user.timestamp - w.currTimestamp).toNat)
      (w.leftInMsg cfg) = n) :
    w.zeroPad cfg c =
      if n < 3 ∧ (w.put n fun _ => 0).leftInMsg cfg = 0 then
        ({ w.put n (fun _ => 0) with
          currTimestamp := w.currTimestamp + samplesToTimestampDelta cfg n }, c)
      else
        ({ w.put n (fun _ => 0) with currTimestamp := c.user.timestamp },
          { c with op := { c.op with zeroPad := false } }) := by
  rw [zeroPad, if_pos hzero]
  dsimp only
  rw [syncTimestampDeltaToSamples_of_dvd cfg.samplesPerTs_pos hdvd, hn]
  rfl

section

variable (h : TxTimeline cfg w t laid line starts)

include h

theorem TxCallAt.zeroPad
    (hat : TxAtSlots cfg w t laid line starts b) (hleft : w.leftInMsg cfg ≠ 0)
    (hc : TxCallAt cfg j w c t laid line) :
    ∃ u, TxTimeline cfg (w.zeroPad cfg c).1 u laid line starts ∧
      TxAtSlots cfg (w.zeroPad cfg c).1 u laid line starts b ∧
      TxCallAt cfg j (w.zeroPad cfg c).1 (w.zeroPad cfg c).2 u laid line ∧
      ((w.zeroPad cfg c).2.op.zeroPad = true → (w.zeroPad cfg c).1.leftInMsg cfg = 0) := by
  have hpos := cfg.samplesPerTs_pos
  cases hzero : c.op.zeroPad with
  | false =>
      have hsame : w.zeroPad cfg c = (w, c) := by
        rw [TxWriter.zeroPad, hzero]
        rfl
      rw [hsame]
      exact ⟨t, h, hat, hc, fun hpad => absurd (hzero.symm.trans hpad) Bool.false_ne_true⟩
  | true =>
      obtain ⟨hwritten, hsince, hanchor, hhalf⟩ := hc.pad hzero
      rw [← hc.user] at hanchor hhalf
      have hplace := hat.place_of_left hleft
      have hoff := hat.off_le
      obtain ⟨steps, hsteps⟩ := hat.left_dvd
      generalize hdelta : (c.user.timestamp - w.currTimestamp).toNat = delta at hhalf
      have htarget : c.user.timestamp = BitVec.ofNat 64 (t + delta) := by
        rw [BitVec.ofNat_add, ← h.time, ← hdelta, BitVec.ofNat_toNat, BitVec.setWidth_eq,
          BitVec.add_comm, BitVec.sub_add_cancel]
      obtain ⟨n, hmin⟩ : ∃ n, min (cfg.samplesPerTs * delta) (w.leftInMsg cfg) = n := ⟨_, rfl⟩
      have hle : n ≤ w.leftInMsg cfg := hmin ▸ min_le_right ..
      have hdvd : cfg.samplesPerTs ∣ n := by
        rcases min_choice (cfg.samplesPerTs * delta) (w.leftInMsg cfg) with heq | heq
        · rw [← hmin, heq]
          exact Nat.dvd_mul_right _ _
        · rw [← hmin, heq]
          exact hat.left_dvd
      have hleft' : (w.put n fun _ => (0 : α)).leftInMsg cfg = w.leftInMsg cfg - n :=
        (Nat.sub_sub ..).symm
      rw [zeroPad_eq hzero hat.left_dvd (by rw [hdelta, hmin])]
      split
      · rename_i hcarry
        have hfull : n = w.leftInMsg cfg := by
          have := hleft' ▸ hcarry.2
          omega
        have hnsteps : n / cfg.samplesPerTs = steps := by
          rw [hfull, hsteps, Nat.mul_div_cancel_left _ hpos]
        have hreach : steps ≤ delta := by
          refine Nat.le_of_mul_le_mul_left ?_ hpos
          rw [← hsteps, ← hfull, ← hmin]
          exact min_le_left ..
        have hts : w.currTimestamp + samplesToTimestampDelta cfg n =
            BitVec.ofNat 64 (t + n / cfg.samplesPerTs) := by
          rw [samplesToTimestampDelta_eq, h.time, BitVec.ofNat_add]
        obtain ⟨hline, hslots⟩ := h.putZero hat hplace hle hdvd hts
        refine ⟨_, hline, hslots, ?_, fun _ => hcarry.2⟩
        exact
          { hc with
            pad := fun _ => by
              rw [← hc.user]
              refine ⟨hwritten, hsince, hanchor, ?_⟩
              show (c.user.timestamp - (w.currTimestamp + _)).toNat < _
              rw [hts, hnsteps, htarget, toNat_ofNat_sub_ofNat (by omega) (by omega)]
              omega
            synced := fun hpad => absurd (hzero.symm.trans hpad) Bool.false_ne_true.symm
            flushed := fun hend => (hc.flushed hend).imp id fun hdone =>
              absurd hat.syncState hdone.2.1 }
      · rename_i hdone
        have hsynced : c.user.timestamp =
            j.anchor + BitVec.ofNat 64 ((j.since + c.written) / cfg.samplesPerTs) := by
          rw [hwritten, hsince, hanchor]
          simp
        have hcall : TxCallAt cfg j
            { w.put n (fun _ => 0) with currTimestamp := c.user.timestamp }
            { c with op := { c.op with zeroPad := false } } (t + delta) laid line :=
          { hc with
            pad := fun hpad => absurd hpad Bool.false_ne_true
            synced := fun _ _ => htarget.symm.trans hsynced
            flushed := fun hend => (hc.flushed hend).imp id fun hdone =>
              absurd hat.syncState hdone.2.1 }
        by_cases hreach : cfg.samplesPerTs * delta ≤ w.leftInMsg cfg
        · have hnd : n / cfg.samplesPerTs = delta := by
            rw [← hmin, min_eq_left hreach, Nat.mul_div_cancel_left _ hpos]
          obtain ⟨hline, hslots⟩ := h.putZero hat hplace hle hdvd (hnd ▸ htarget)
          rw [hnd] at hline hslots
          exact ⟨_, hline, hslots, hcall, fun hpad => absurd hpad Bool.false_ne_true⟩
        · have hfull : n = w.leftInMsg cfg := hmin ▸ min_eq_right (Nat.le_of_not_le hreach)
          have hthree : 3 ≤ n := by
            by_contra hlt
            exact hdone ⟨Nat.lt_of_not_le hlt, by rw [hleft', hfull, Nat.sub_self]⟩
          have hnear : t + n / cfg.samplesPerTs ≤ t + delta ∧
              t + delta < t + n / cfg.samplesPerTs + 2 ^ 63 := by
            have hle : n / cfg.samplesPerTs ≤ delta :=
              Nat.div_le_of_le_mul (hmin ▸ min_le_left ..)
            generalize n / cfg.samplesPerTs = k at hle
            omega
          have hrest : (w.put n fun _ => (0 : α)).currMsgOff = cfg.samplesPerMsg := by
            show w.currMsgOff + n = _
            rw [hfull, leftInMsg, Nat.add_sub_cancel' hoff]
          have hlast : LastThreeZero cfg
              ((w.put n fun _ => (0 : α)).buffer (w.put n fun _ => (0 : α)).currMsg) := by
            rw [put_currMsg]
            have hrest : w.currMsgOff + n = cfg.samplesPerMsg := hrest
            exact ⟨by omega, fun k hk hlt => if_pos ⟨by omega, by omega⟩⟩
          obtain ⟨hline, hslots⟩ := h.putZero hat hplace hle hdvd (t := t) rfl
          have hend : b + (w.put n fun _ => (0 : α)).currMsgOff =
              cfg.samplesPerTs * (t + n / cfg.samplesPerTs) := by
            rw [Nat.mul_add, Nat.mul_div_cancel' hdvd, ← hplace]
            exact (Nat.add_assoc _ _ _).symm
          exact ⟨t + delta, hline.skip hnear.1 htarget,
            hslots.skip hrest hnear.1 hnear.2 hend hlast _, hcall,
            fun hpad => absurd hpad Bool.false_ne_true⟩

theorem TxCallAt.copySamples
    (hat : TxAtSlots cfg w t laid line starts b) (hc : TxCallAt cfg j w c t laid line)
    (hpad : c.op.zeroPad = true → w.leftInMsg cfg = 0) :
    ∃ u line', TxTimeline cfg (w.copySamples cfg c).1 u laid line' starts ∧
      TxAtSlots cfg (w.copySamples cfg c).1 u laid line' starts b ∧
      TxCallAt cfg j (w.copySamples cfg c).1 (w.copySamples cfg c).2 u laid line' ∧
      ((w.copySamples cfg c).1.leftInMsg cfg = 0 ∨
        (w.copySamples cfg c).2.written = j.samples.length ∧
          (w.copySamples cfg c).2.op.zeroPad = false) := by
  have hpos := cfg.samplesPerTs_pos
  have hwritten := hc.written_le
  obtain ⟨n, hn⟩ : ∃ n, min (c.samples.length - c.written) (w.leftInMsg cfg) = n := ⟨_, rfl⟩
  have heq : w.copySamples cfg c =
      if n = 0 then (w, c)
      else
        ({ w.put n (fun i => (c.samples[c.written + i]?).getD 0) with
          currTimestamp := w.currTimestamp +
            BitVec.ofNat 64 (if cfg.samplesPerTs = 2 then n / 2 else n) },
          { c with written := c.written + n }) := by
    rw [TxWriter.copySamples, hn]
    rfl
  rw [hc.samples] at hn
  rw [heq]
  split
  · rename_i hnone
    refine ⟨t, line, h, hat, hc, ?_⟩
    show w.leftInMsg cfg = 0 ∨ c.written = _ ∧ c.op.zeroPad = false
    by_cases hleft : w.leftInMsg cfg = 0
    · exact .inl hleft
    · refine .inr ⟨?_, Bool.not_eq_true _ ▸ fun hz => hleft (hpad hz)⟩
      rcases min_choice (j.samples.length - c.written) (w.leftInMsg cfg) with hmin | hmin <;> omega
  · rename_i hsome
    have hnleft : n ≤ w.leftInMsg cfg := hn ▸ min_le_right ..
    have hnrest : n ≤ j.samples.length - c.written := hn ▸ min_le_left ..
    have hzero : c.op.zeroPad = false := by
      rw [← Bool.not_eq_true]
      intro hz
      have := hpad hz
      omega
    have hplace := hat.place_of_left (by omega)
    have hdvd : cfg.samplesPerTs ∣ n := by
      rcases min_choice (j.samples.length - c.written) (w.leftInMsg cfg) with hmin | hmin
      · rw [← hn, hmin]
        exact Nat.dvd_sub j.samples_dvd hc.written_dvd
      · rw [← hn, hmin]
        exact hat.left_dvd
    have hticks : (if cfg.samplesPerTs = 2 then n / 2 else n) = n / cfg.samplesPerTs := by
      rcases cfg.samplesPerTs_eq with hone | htwo
      · rw [hone, if_neg (by decide), Nat.div_one]
      · rw [htwo, if_pos rfl]
    have hts : w.currTimestamp + BitVec.ofNat 64 (if cfg.samplesPerTs = 2 then n / 2 else n) =
        BitVec.ofNat 64 (t + n / cfg.samplesPerTs) := by
      rw [hticks, h.time, BitVec.ofNat_add]
    have hsynced := hc.synced hzero fun _ => by omega
    generalize hchunk : (j.samples.drop c.written).take n = chunk
    have hlen : chunk.length = n := by
      rw [← hchunk, List.length_take, List.length_drop]
      omega
    have hmem : ∀ x ∈ chunk.zipIdx (cfg.samplesPerTs * t),
        cfg.samplesPerTs * t ≤ x.2 ∧ x.2 < cfg.samplesPerTs * t + n := by
      intro x hx
      obtain ⟨hle, hget⟩ := List.mem_zipIdx_iff_le_and_getElem?_sub.mp hx
      obtain ⟨hlt, _⟩ := List.getElem?_eq_some_iff.mp hget
      omega
    have hordered : ((chunk.zipIdx (cfg.samplesPerTs * t)).map Prod.snd).Pairwise (· < ·) := by
      rw [List.zipIdx_map_snd]
      exact List.pairwise_lt_range'
    have hshows : ∀ i < n, Shows (line ++ chunk.zipIdx (cfg.samplesPerTs * t))
        (cfg.samplesPerTs * t + i) ((c.samples[c.written + i]?).getD 0) := by
      intro i hi
      have hlt : c.written + i < j.samples.length := by omega
      refine .inl (List.mem_append_right _ (List.mk_mem_zipIdx_iff_le_and_getElem?_sub.mpr ?_))
      refine ⟨Nat.le_add_right _ _, ?_⟩
      rw [Nat.add_sub_cancel_left, ← hchunk, List.getElem?_take_of_lt hi, List.getElem?_drop,
        hc.samples, List.getElem?_eq_getElem hlt, Option.getD_some]
    obtain ⟨hline, hslots⟩ := h.put hat hplace hnleft hdvd hmem hordered hshows hts
    refine ⟨_, _, hline, hslots, ?_, ?_⟩
    · exact
        { hc with
          written_le := by
            show c.written + n ≤ _
            omega
          written_dvd := Nat.dvd_add hc.written_dvd hdvd
          assigned := by
            have hsofar : j.samples.take (c.written + n) = j.samples.take c.written ++ chunk := by
              rw [← hchunk, List.take_add]
            rw [List.map_append, hc.assigned, hsofar, TxPlan.assign_append, List.length_take,
              min_eq_left hwritten, List.append_assoc,
              map_atPlace cfg (Nat.dvd_add j.since_dvd hc.written_dvd) hsynced]
          pad := fun hz => absurd (hzero.symm.trans hz) Bool.false_ne_true
          synced := fun _ _ => by
            show _ = j.anchor + BitVec.ofNat 64 ((j.since + (c.written + n)) / cfg.samplesPerTs)
            rw [← Nat.add_assoc, Nat.add_div_of_dvd_left hdvd, BitVec.ofNat_add, hsynced,
              BitVec.ofNat_add, BitVec.add_assoc]
          flushed := fun hend => (hc.flushed hend).imp id fun hdone =>
            absurd hat.syncState hdone.2.1 }
    · have hleft : (w.put n fun i => (c.samples[c.written + i]?).getD 0).leftInMsg cfg =
          w.leftInMsg cfg - n := (Nat.sub_sub ..).symm
      show (w.put n fun i => (c.samples[c.written + i]?).getD 0).leftInMsg cfg = 0 ∨
        c.written + n = _ ∧ c.op.zeroPad = false
      rw [hleft]
      rcases min_choice (j.samples.length - c.written) (w.leftInMsg cfg) with hmin | hmin
      · exact .inr ⟨by omega, hzero⟩
      · exact .inl (by omega)

theorem TxCallAt.flushMsg
    (hat : TxAtSlots cfg w t laid line starts b) (hc : TxCallAt cfg j w c t laid line)
    (hcopied : w.leftInMsg cfg = 0 ∨ c.written = j.samples.length ∧ c.op.zeroPad = false) :
    ∃ u, TxTimeline cfg (w.flush cfg c) u laid line starts ∧
      TxAtSlots cfg (w.flush cfg c) u laid line starts b ∧
      TxCallAt cfg j (w.flush cfg c) c u laid line := by
  rw [TxWriter.flush]
  dsimp only
  split
  · rename_i hflush
    have hts : w.currTimestamp + samplesToTimestampDelta cfg (w.leftInMsg cfg) =
        BitVec.ofNat 64 (t + w.leftInMsg cfg / cfg.samplesPerTs) := by
      rw [samplesToTimestampDelta_eq, h.time, BitVec.ofNat_add]
    have hall := hcopied.resolve_left hflush.1
    obtain ⟨hline, hslots⟩ := h.putZero hat (hat.place_of_left hflush.1) (Nat.le_refl _)
      hat.left_dvd hts
    exact ⟨_, hline, hslots,
      { hc with
        pad := fun hz => absurd (hall.2.symm.trans hz) Bool.false_ne_true
        synced := fun _ hmore => by
          have hlt := hmore (hc.flush hflush.2)
          exact absurd hall.1 hlt.ne
        flushed := fun hend => (hc.flushed hend).imp id fun hdone =>
          absurd hat.syncState hdone.2.1 }⟩
  · exact ⟨t, h, hat, hc⟩

end

end Call

/-! ## The loop -/

def TxLoop [Zero α] (cfg : MetaConfig) (j : TxJob cfg α) (starts : List ℕ) (w : TxWriter α)
    (c : TxCall α) : Prop :=
  ∃ t laid line, TxTimeline cfg w t laid line starts ∧ TxCallAt cfg j w c t laid line ∧
    (w.metaState = .header → TxAtHeader cfg w t laid line starts) ∧
    (w.metaState = .samples → w.leftInMsg cfg ≠ 0 ∧ ∃ b, TxAtSlots cfg w t laid line starts b)

section Loop

variable [Zero α] {cfg : MetaConfig} {j : TxJob cfg α} {w : TxWriter α} {c : TxCall α} {t b : ℕ}
  {laid : List (ℕ × TxMessage α)} {line : List (α × ℕ)} {starts : List ℕ}

theorem TxCallAt.advance (hc : TxCallAt cfg j w c t laid line)
    (hstate : w.syncState = .usingBufferMeta) (x : ℕ × TxMessage α)
    (hnear : Near cfg (laid ++ [x]) (cfg.samplesPerTs * t)) :
    TxCallAt cfg j ((w.nextMessage cfg).advance cfg c).1 ((w.nextMessage cfg).advance cfg c).2 t
      (laid ++ [x]) line := by
  have hflushes : j.user.burstEnd = true → c.op.flush = true := fun hend =>
    (hc.flushed hend).resolve_right fun hdone => hdone.2.1 hstate
  have hnext : (w.nextMessage cfg).inBurst = w.inBurst ∧
      (w.nextMessage cfg).currTimestamp = w.currTimestamp := by
    rw [nextMessage]
    split <;> exact ⟨rfl, rfl⟩
  rw [TxWriter.advance]
  split
  · exact
      { hc with
        inBurst := hnext.1.trans hc.inBurst
        pad := fun hz => by
          show _ ∧ _ ∧ _ ∧ (j.user.timestamp - (w.nextMessage cfg).currTimestamp).toNat < _
          rw [hnext.2]
          exact hc.pad hz
        flush := fun hf => hc.flush (Bool.and_eq_true_iff.mp hf).1
        flushed := fun hend => by
          show (c.op.flush && c.written != c.samples.length) = true ∨ _
          rw [hflushes hend, Bool.true_and, bne_iff_ne, hc.samples]
          by_cases hall : c.written = j.samples.length
          · exact .inr ⟨hall, fun hs => (by cases hs), hnear⟩
          · exact .inl hall }
  · exact
      { hc with
        inBurst := hnext.1.trans hc.inBurst
        pad := fun hz => by
          rw [hnext.2]
          exact hc.pad hz
        flushed := fun hend => .inl (hflushes hend) }

theorem TxLoop.fillSamples (h : TxTimeline cfg w t laid line starts)
    (hat : TxAtSlots cfg w t laid line starts b) (hleft : w.leftInMsg cfg ≠ 0)
    (hc : TxCallAt cfg j w c t laid line) :
    TxLoop cfg j starts (w.fillSamples cfg c).1 (w.fillSamples cfg c).2 := by
  obtain ⟨t1, h1, hat1, hc1, hpad⟩ := hc.zeroPad h hat hleft
  obtain ⟨t2, line', h2, hat2, hc2, hcopied⟩ := hc1.copySamples h1 hat1 hpad
  obtain ⟨t3, h3, hat3, hc3⟩ := hc2.flushMsg h2 hat2 hcopied
  rw [TxWriter.fillSamples]
  dsimp only
  generalize ((w.zeroPad cfg c).1.copySamples cfg (w.zeroPad cfg c).2).2 = c' at h3 hat3 hc3
  generalize flush cfg _ c' = w' at h3 hat3 hc3
  by_cases hfull : w'.leftInMsg cfg = 0
  · obtain ⟨h4, hat4, hnear⟩ := h3.nextMessage hat3 hfull c'
    exact ⟨t3, _, line', h4, hc3.advance hat3.syncState _ hnear, fun _ => hat4,
      fun hs => absurd (hat4.metaState.symm.trans hs) (by decide)⟩
  · have hnext : w'.nextMessage cfg = w' := if_neg hfull
    have hin := h3.inside hat3.syncState
    rw [hnext, advance, if_neg (Nat.not_le.mpr hin)]
    exact ⟨t3, laid, line', h3, hc3, fun hs => absurd (hat3.metaState.symm.trans hs) (by decide),
      fun _ => ⟨hfull, b, hat3⟩⟩

theorem TxLoop.outside (h : TxLoop cfg j starts w c) (hout : w.syncState ≠ .usingBufferMeta)
    (st : SyncState) (hst : st ≠ .usingBufferMeta) :
    TxLoop cfg j starts { w with syncState := st } c := by
  obtain ⟨t, laid, line, hline, hc, hheader, _⟩ := h
  obtain ⟨hmeta, hnum⟩ := hline.outside hout
  refine ⟨t, laid, line, { hline with
    outside := fun _ => ⟨hmeta, hnum⟩
    inside := fun hs => absurd hs hst }, ?_, fun _ => { hheader hmeta with }, fun hs => ?_⟩
  · exact
      { hc with
        flushed := fun hend => (hc.flushed hend).imp id fun hdone =>
          ⟨hdone.1, hst, hdone.2.2⟩ }
  · exact absurd (hmeta.symm.trans hs) (by decide)

theorem TxLoop.turn (h : TxLoop cfg j starts w c) (hactive : c.active = true)
    (e : TxWriter.Turn α) : TxLoop cfg j starts (w.turn cfg c e).1 (w.turn cfg c e).2 := by
  rw [TxWriter.turn]
  split
  · rename_i hs
    refine h.outside (by rw [hs]; decide) _ ?_
    split <;> decide
  · rename_i hs
    exact h.outside (by rw [hs]; decide) _ (by decide)
  · rename_i hs
    refine h.outside (by rw [hs]; decide) _ ?_
    split <;> decide
  · rename_i hs
    obtain ⟨t, laid, line, hline, hc, hheader, _⟩ := h
    obtain ⟨hmeta, hnum⟩ := hline.outside (by rw [hs]; decide)
    refine ⟨t, laid, line, { hline with
      messages := ?_
      outside := fun hne => absurd rfl hne
      inside := fun _ => cfg.msgPerBuf_pos }, ?_, fun _ => { hheader hmeta with }, fun hsamples => ?_⟩
    · rw [hline.messages, messages, messages, hnum]
      rfl
    · exact
        { hc with
          flushed := fun hend => .inl (by
            rcases hc.flushed hend with hflush | ⟨hall, _⟩
            · exact hflush
            · rw [TxCall.active, hall, hc.samples] at hactive
              simpa using hactive) }
    · exact absurd (hmeta.symm.trans hsamples) (by decide)
  · rename_i hs
    obtain ⟨t, laid, line, hline, hc, hheader, hsamples⟩ := h
    split
    · rename_i hmeta
      obtain ⟨hline', hat'⟩ := hline.fillHeader (hheader hmeta) hs
      refine ⟨t, laid, line, hline', { hc with }, fun hm => ?_, fun _ => ⟨?_, _, hat'⟩⟩
      · exact absurd (hat'.metaState.symm.trans hm) (by decide)
      · exact (Nat.sub_zero _).trans_ne cfg.samplesPerMsg_pos.ne'
    · rename_i hmeta
      obtain ⟨hleft, b, hat⟩ := hsamples hmeta
      exact TxLoop.fillSamples hline hat hleft hc
  all_goals exact h

theorem TxLoop.loop {turns : List (TxWriter.Turn α)} {r : TxWriter α × TxCall α}
    (hr : loop cfg turns w c = some r) (h : TxLoop cfg j starts w c) :
    TxLoop cfg j starts r.1 r.2 ∧ r.2.active = false := by
  induction turns generalizing w c with
  | nil =>
      rw [loop] at hr
      split at hr
      · cases hr
      · rename_i hidle
        cases hr
        exact ⟨h, Bool.not_eq_true _ ▸ hidle⟩
  | cons e turns ih =>
      rw [loop] at hr
      split at hr
      · rename_i hactive
        exact ih hr (h.turn hactive e)
      · cases hr

end Loop

end BladeRF
