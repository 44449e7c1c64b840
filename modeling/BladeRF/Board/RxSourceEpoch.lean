/-
# `Board.RxSourceEpoch` — the epoch that withheld samples came from

A loss may be reported long after its packet was captured.  The report has the
tag and the timestamp of the packet, and looks in the history for the
certificate of its epoch.  Tags repeat every 255 epochs, but every epoch that is
opened leaves an event, so that the ring never has certificates of two epochs
with one tag; and a newer epoch starts behind the packet.
-/
import BladeRF.Board.RxNotify

namespace BladeRF

def rxTransitionNextEpochId (previous : BitVec 8) : BitVec 8 :=
  if previous = 255 then 1 else previous + 1

/-- The tag of the `k`-th epoch after the gate had `previous`. -/
def epochIdAt (previous : BitVec 8) (k : ℕ) : BitVec 8 := rxTransitionNextEpochId^[k + 1] previous

/-- An epoch, with the events that are appended from its transition to the next. -/
structure OpenedEpoch where
  start : BitVec 64
  events : List RxEvent

def eventsOf (epochs : List OpenedEpoch) : List RxEvent := epochs.flatMap (·.events)

/-- Epochs opened one after another; a certificate names its epoch. -/
structure OpenedInOrder (previous : BitVec 8) (epochs : List OpenedEpoch) : Prop where
  increasing : epochs.IsChain fun p q => p.start.toNat < q.start.toNat
  certificate : ∀ k p, epochs[k]? = some p → ∀ c ∈ p.events, c.eventType = .epochValid →
    c.epochId = (epochIdAt previous k).setWidth 32 ∧ c.fpgaTimestamp = p.start

/-- `e` reports a packet that was captured in the `k`-th epoch. -/
structure CapturedIn (previous : BitVec 8) (epochs : List OpenedEpoch) (k : ℕ) (e : RxEvent) :
    Prop where
  timestamp : e.flags &&& bladerfRfEventFFpgaTimestampValid ≠ 0
  tag : e.epochId = (epochIdAt previous k).setWidth 32
  own : ∃ p, epochs[k]? = some p ∧ p.start.toNat ≤ e.fpgaTimestamp.toNat
  next : ∀ p, epochs[k + 1]? = some p → e.fpgaTimestamp.toNat < p.start.toNat

/-- The report with the transaction and the LO of a certificate. -/
def RxEvent.withSource (e best : RxEvent) : RxEvent :=
  { e with
    transactionId := best.transactionId
    requestedHz := best.requestedHz
    readbackHz := best.readbackHz
    rficStatus := best.rficStatus
    flags := (e.flags &&& ~~~transitionChannelMask) ||| (best.flags &&& transitionChannelMask) }

/-- The report `e` gets its own epoch's label. -/
def OwnLabel (s : RxNotify) (epochs : List OpenedEpoch) (k : ℕ) (e : RxEvent) : Prop :=
  ∃ p c, epochs[k]? = some p ∧ c ∈ p.events ∧ c.eventType = .epochValid ∧
    s.applySourceProvenance e = e.withSource c

/-- The report gets its own epoch's label or none, and gets it if the history
still has the certificate. -/
def SourceRight (s : RxNotify) (epochs : List OpenedEpoch) (k : ℕ) (e : RxEvent) : Prop :=
  (s.applySourceProvenance e = e ∨ OwnLabel s epochs k e) ∧
    ∀ p c, epochs[k]? = some p → c ∈ p.events → c.eventType = .epochValid → c ∈ s.retained →
      OwnLabel s epochs k e

section

variable {previous : BitVec 8} {epochs : List OpenedEpoch} {s : RxNotify} {e c : RxEvent} {k : ℕ}

/-! ## Tags -/

theorem rxTransitionNextEpochId_toNat (p : BitVec 8) :
    (rxTransitionNextEpochId p).toNat = p.toNat % 255 + 1 := by
  unfold rxTransitionNextEpochId
  split_ifs with h
  · rw [h]
    rfl
  · have hne : p.toNat ≠ 255 := fun hp => h (BitVec.eq_of_toNat_eq hp)
    have hlt := p.isLt
    rw [BitVec.toNat_add]
    show (p.toNat + 1) % 256 = _
    omega

theorem epochIdAt_toNat (k : ℕ) : (epochIdAt previous k).toNat = (previous.toNat + k) % 255 + 1 := by
  induction k with
  | zero => exact rxTransitionNextEpochId_toNat previous
  | succ k ih =>
      rw [epochIdAt, Function.iterate_succ_apply', ← epochIdAt, rxTransitionNextEpochId_toNat, ih]
      omega

theorem epochIdAt_inj {j : ℕ} (h : epochIdAt previous j = epochIdAt previous k)
    (hjk : j < k + 255) (hkj : k < j + 255) : j = k := by
  have htag := congrArg BitVec.toNat h
  rw [epochIdAt_toNat, epochIdAt_toNat] at htag
  omega

/-! ## The search -/

def Candidate (id : BitVec 32) (t : BitVec 64) (c : RxEvent) : Prop :=
  c.eventType = .epochValid ∧ c.epochId = id ∧ metadataTimestampAtOrAfter t c.fpgaTimestamp = true

theorem sourceEpoch_spec (history : List RxEvent) (id : BitVec 32) (t : BitVec 64) :
    (∀ best, RxNotify.sourceEpoch history id t = some best → best ∈ history ∧ Candidate id t best) ∧
      (RxNotify.sourceEpoch history id t = none → ∀ c ∈ history, ¬Candidate id t c) := by
  induction history using List.reverseRecOn with
  | nil => exact ⟨nofun, fun _ _ hc => absurd hc List.not_mem_nil⟩
  | append_singleton history d ih =>
      obtain ⟨hsome, hnone⟩ := ih
      have hcons : RxNotify.sourceEpoch (history ++ [d]) id t =
          if d.eventType ≠ .epochValid ∨ d.epochId ≠ id ∨
            !metadataTimestampAtOrAfter t d.fpgaTimestamp ∨
            (RxNotify.sourceEpoch history id t).any (fun b => d.fpgaTimestamp = b.fpgaTimestamp ∨
              !metadataTimestampAtOrAfter d.fpgaTimestamp b.fpgaTimestamp)
          then RxNotify.sourceEpoch history id t else some d := by
        rw [RxNotify.sourceEpoch, List.foldl_append]
        rfl
      rw [hcons]
      split_ifs with hskip
      · refine ⟨fun best h => ⟨List.mem_append_left _ (hsome best h).1, (hsome best h).2⟩,
          fun h c hc hcand => ?_⟩
        rcases List.mem_append.mp hc with hc | hc
        · exact hnone h c hc hcand
        · rw [List.mem_singleton.mp hc] at hcand
          obtain ⟨htype, hid, hafter⟩ := hcand
          simp [h, htype, hid, hafter] at hskip
      · push Not at hskip
        refine ⟨fun best h => ?_, nofun⟩
        obtain rfl := Option.some.inj h
        exact ⟨List.mem_append_right _ List.mem_cons_self, hskip.1, hskip.2.1, by
          simpa using hskip.2.2.1⟩

theorem length_le_eventsOf (h : ∀ p ∈ epochs, p.events ≠ []) :
    epochs.length ≤ (eventsOf epochs).length := by
  induction epochs with
  | nil => exact le_rfl
  | cons p epochs ih =>
      have hp := List.length_pos_iff.mpr (h p List.mem_cons_self)
      have htail := ih fun q hq => h q (List.mem_cons_of_mem _ hq)
      rw [eventsOf, List.flatMap_cons, List.length_append, ← eventsOf, List.length_cons]
      omega

theorem mem_retained (hs : s.events = eventsOf epochs) (h : ∀ p ∈ epochs, p.events ≠ [])
    (hc : c ∈ s.retained) :
    ∃ j p, epochs[j]? = some p ∧ c ∈ p.events ∧ epochs.length ≤ j + rfEventHistorySize := by
  obtain ⟨m, hm⟩ : ∃ m, epochs.length - rfEventHistorySize = m := ⟨_, rfl⟩
  have hsplit : eventsOf epochs = eventsOf (epochs.take m) ++ eventsOf (epochs.drop m) := by
    rw [eventsOf, eventsOf, eventsOf, ← List.flatMap_append, List.take_append_drop]
  have hlen := length_le_eventsOf fun p hp => h p (List.mem_of_mem_drop (i := m) hp)
  rw [List.length_drop] at hlen
  have hmem : c ∈ eventsOf (epochs.drop m) := by
    rw [RxNotify.retained, hs] at hc
    rcases Nat.eq_zero_or_pos m with rfl | hpos
    · exact List.mem_of_mem_drop hc
    · rw [hsplit, List.length_append, List.drop_append, List.mem_append] at hc
      rcases hc with hc | hc
      · rw [List.drop_of_length_le (by omega)] at hc
        exact absurd hc List.not_mem_nil
      · exact List.mem_of_mem_drop hc
  obtain ⟨p, hp, hcp⟩ := List.mem_flatMap.mp hmem
  obtain ⟨i, hi⟩ := List.mem_iff_getElem?.mp hp
  rw [List.getElem?_drop] at hi
  exact ⟨m + i, p, hi, hcp, by omega⟩

/-! ## The label -/

theorem atOrAfter_iff (t b : BitVec 64) :
    metadataTimestampAtOrAfter t b = true ↔ (2 ^ 64 - b.toNat + t.toNat) % 2 ^ 64 < 2 ^ 63 := by
  rw [metadataTimestampAtOrAfter, decide_eq_true_eq, BitVec.toNat_sub]

theorem start_lt (h : OpenedInOrder previous epochs) {i j : ℕ} {p q : OpenedEpoch}
    (hp : epochs[i]? = some p) (hq : epochs[j]? = some q) (hij : i < j) :
    p.start.toNat < q.start.toNat := by
  obtain ⟨hi, rfl⟩ := List.getElem?_eq_some_iff.mp hp
  obtain ⟨hj, rfl⟩ := List.getElem?_eq_some_iff.mp hq
  have : IsTrans OpenedEpoch fun p q => p.start.toNat < q.start.toNat := ⟨fun _ _ _ => lt_trans⟩
  exact List.pairwise_iff_getElem.mp h.increasing.pairwise i j hi hj hij

/-- Where every epoch has left an event and no two timestamps are 2^63 apart, a
late report gets the label of its own epoch or none. -/
theorem source_right (h : OpenedInOrder previous epochs) (hs : s.events = eventsOf epochs)
    (hevents : ∀ p ∈ epochs, p.events ≠ []) (hcap : CapturedIn previous epochs k e)
    (hnear : ∀ p ∈ epochs, e.fpgaTimestamp.toNat < p.start.toNat + 2 ^ 63 ∧
      p.start.toNat < e.fpgaTimestamp.toNat + 2 ^ 63) : SourceRight s epochs k e := by
  obtain ⟨own, hown, hstart⟩ := hcap.own
  have htlt := e.fpgaTimestamp.isLt
  have happly : s.applySourceProvenance e =
      (RxNotify.sourceEpoch s.retained e.epochId e.fpgaTimestamp).elim e e.withSource := by
    rw [RxNotify.applySourceProvenance, if_neg hcap.timestamp]
    cases RxNotify.sourceEpoch s.retained e.epochId e.fpgaTimestamp <;> rfl
  obtain ⟨hsome, hnone⟩ := sourceEpoch_spec s.retained e.epochId e.fpgaTimestamp
  cases hfound : RxNotify.sourceEpoch s.retained e.epochId e.fpgaTimestamp with
  | none =>
      rw [hfound] at happly
      refine ⟨.inl happly, fun p c hp hc htype hret => absurd ?_ (hnone hfound c hret)⟩
      obtain ⟨hid, hts⟩ := h.certificate k p hp c hc htype
      obtain rfl := Option.some.inj (hown.symm.trans hp)
      refine ⟨htype, hid.trans hcap.tag.symm, (atOrAfter_iff _ _).mpr ?_⟩
      have hlt := (hnear own (List.mem_of_getElem? hown)).1
      rw [hts]
      omega
  | some best =>
      rw [hfound] at happly
      obtain ⟨hret, htype, hid, hafter⟩ := hsome best hfound
      obtain ⟨j, p, hp, hbest, hj⟩ := mem_retained hs hevents hret
      obtain ⟨hbid, hts⟩ := h.certificate j p hp best hbest htype
      have hjlt := (List.getElem?_eq_some_iff.mp hp).1
      have hklt := (List.getElem?_eq_some_iff.mp hown).1
      have hjk : j ≤ k := by
        by_contra hlater
        have hnext := hcap.next epochs[k + 1] (List.getElem?_eq_getElem (by omega))
        have hle : epochs[k + 1].start.toNat ≤ p.start.toNat := by
          rcases Nat.lt_or_ge (k + 1) j with hlt | hge
          · exact (start_lt h (List.getElem?_eq_getElem (by omega)) hp hlt).le
          · obtain rfl : j = k + 1 := by omega
            rw [(List.getElem?_eq_some_iff.mp hp).2]
        have hlt := (hnear p (List.mem_of_getElem? hp)).2
        have hslt := p.start.isLt
        rw [hts, atOrAfter_iff] at hafter
        omega
      have htag : epochIdAt previous j = epochIdAt previous k := by
        have hwide := congrArg (BitVec.setWidth 8) (hbid.symm.trans (hid.trans hcap.tag))
        rwa [BitVec.setWidth_setWidth_of_le _ (by decide), BitVec.setWidth_eq,
          BitVec.setWidth_setWidth_of_le _ (by decide), BitVec.setWidth_eq] at hwide
      obtain rfl := epochIdAt_inj htag (by omega) (by unfold rfEventHistorySize at hj; omega)
      have hlabel : OwnLabel s epochs j e := ⟨p, best, hp, hbest, htype, happly⟩
      exact ⟨.inr hlabel, fun _ _ _ _ _ _ => hlabel⟩

end

def certificateOf (start : BitVec 64) : RxEvent :=
  { RxEvent.zero with
    eventType := .epochValid, epochId := 1, transactionId := 7, fpgaTimestamp := start }

def reportOf (timestamp : BitVec 64) : RxEvent :=
  { RxEvent.zero with
    epochId := 1, fpgaTimestamp := timestamp, flags := bladerfRfEventFFpgaTimestampValid }

/-- One certified epoch, and `n` epochs that left no event. -/
def silentEpochs (n : ℕ) : List OpenedEpoch :=
  ⟨0, [certificateOf 0]⟩ :: (List.range n).map fun i => ⟨BitVec.ofNat 64 (i + 1), []⟩

theorem silentEpochs_inOrder {n : ℕ}
    (h : (silentEpochs n).IsChain fun p q => p.start.toNat < q.start.toNat) :
    OpenedInOrder 0 (silentEpochs n) where
  increasing := h
  certificate := by
    rintro (_ | k) p hp c hc _
    · obtain rfl := Option.some.inj hp
      rw [List.mem_singleton.mp hc]
      exact ⟨rfl, rfl⟩
    · obtain ⟨i, _, rfl⟩ := List.mem_map.mp (List.mem_of_getElem? hp)
      cases hc

/-- An epoch of a long session: its transition leaves an event, and one in three
is aborted before its certificate. -/
def longEpoch (k : ℕ) : OpenedEpoch where
  start := BitVec.ofNat 64 (1000 * k)
  events :=
    RxEvent.zero ::
      if k % 3 = 1 then []
      else [{ certificateOf (BitVec.ofNat 64 (1000 * k)) with
        epochId := (epochIdAt 0 k).setWidth 32, transactionId := k + 1 }]

def longEpochs : List OpenedEpoch := (List.range 256).map longEpoch

/-- A late report of a packet of the `k`-th epoch. -/
def lateReport (k : ℕ) : RxEvent :=
  { reportOf (BitVec.ofNat 64 (1000 * k + 5)) with epochId := (epochIdAt 0 k).setWidth 32 }

theorem longEpochs_eq_some {k : ℕ} {p : OpenedEpoch} :
    longEpochs[k]? = some p ↔ k < 256 ∧ p = longEpoch k := by
  rw [List.getElem?_eq_some_iff]
  simp [longEpochs, eq_comm]

theorem longEpoch_start {k : ℕ} (hk : k < 256) : (longEpoch k).start.toNat = 1000 * k :=
  (BitVec.toNat_ofNat _ _).trans (Nat.mod_eq_of_lt (by omega))

theorem lateReport_timestamp {k : ℕ} (hk : k < 256) :
    (lateReport k).fpgaTimestamp.toNat = 1000 * k + 5 :=
  (BitVec.toNat_ofNat _ _).trans (Nat.mod_eq_of_lt (by omega))

theorem longEpochs_inOrder : OpenedInOrder 0 longEpochs where
  increasing := by decide +kernel
  certificate := by
    intro k p hp c hc htype
    obtain ⟨-, rfl⟩ := longEpochs_eq_some.mp hp
    rcases List.mem_cons.mp hc with rfl | hc
    · cases htype
    · split at hc
      · cases hc
      · obtain rfl := List.mem_singleton.mp hc
        exact ⟨rfl, rfl⟩

theorem lateReport_captured {k : ℕ} (hk : k < 256) :
    CapturedIn 0 longEpochs k (lateReport k) where
  timestamp := by
    show bladerfRfEventFFpgaTimestampValid &&& bladerfRfEventFFpgaTimestampValid ≠ 0
    decide
  tag := rfl
  own := by
    refine ⟨_, longEpochs_eq_some.mpr ⟨hk, rfl⟩, ?_⟩
    rw [longEpoch_start hk, lateReport_timestamp hk]
    omega
  next := by
    intro p hp
    obtain ⟨hnext, rfl⟩ := longEpochs_eq_some.mp hp
    rw [longEpoch_start hnext, lateReport_timestamp hk]
    omega

theorem lateReport_near {k : ℕ} (hk : k < 256) : ∀ p ∈ longEpochs,
    (lateReport k).fpgaTimestamp.toNat < p.start.toNat + 2 ^ 63 ∧
      p.start.toNat < (lateReport k).fpgaTimestamp.toNat + 2 ^ 63 := by
  intro p hp
  obtain ⟨j, hget⟩ := List.mem_iff_getElem?.mp hp
  obtain ⟨hj, rfl⟩ := longEpochs_eq_some.mp hget
  rw [longEpoch_start hj, lateReport_timestamp hk]
  omega

/-- The first and the last epoch of the long session have one tag: the last gets its
own label, the first none, since its certificate is evicted, and an aborted one none. -/
theorem source_right_repeated :
    let s := { RxNotify.closed with events := eventsOf longEpochs }
    (epochIdAt 0 0 = epochIdAt 0 255 ∧ SourceRight s longEpochs 0 (lateReport 0) ∧
      s.applySourceProvenance (lateReport 0) = lateReport 0) ∧
    (SourceRight s longEpochs 253 (lateReport 253) ∧
      s.applySourceProvenance (lateReport 253) = lateReport 253) ∧
    (SourceRight s longEpochs 255 (lateReport 255) ∧
      (s.applySourceProvenance (lateReport 255)).transactionId = 256) := by
  intro s
  have hevents : ∀ p ∈ longEpochs, p.events ≠ [] := by
    intro p hp
    obtain ⟨k, -, rfl⟩ := List.mem_map.mp hp
    exact List.cons_ne_nil _ _
  have hright : ∀ k < 256, SourceRight s longEpochs k (lateReport k) := fun k hk =>
    source_right longEpochs_inOrder rfl hevents (lateReport_captured hk) (lateReport_near hk)
  exact ⟨⟨by decide +kernel, hright 0 (by decide), by decide +kernel⟩,
    ⟨hright 253 (by decide), by decide +kernel⟩, hright 255 (by decide), by decide +kernel⟩

/-- With 255 epochs that left no event the label is another epoch's, and 2^63
samples after its start an epoch's own label is not found. -/
theorem not_source_right :
    (OpenedInOrder 0 (silentEpochs 255) ∧ CapturedIn 0 (silentEpochs 255) 255 (reportOf 300) ∧
      ¬SourceRight { RxNotify.closed with events := eventsOf (silentEpochs 255) }
        (silentEpochs 255) 255 (reportOf 300)) ∧
    (OpenedInOrder 0 (silentEpochs 0) ∧ CapturedIn 0 (silentEpochs 0) 0 (reportOf (1 <<< 63)) ∧
      ¬SourceRight { RxNotify.closed with events := eventsOf (silentEpochs 0) }
        (silentEpochs 0) 0 (reportOf (1 <<< 63))) := by
  refine ⟨⟨silentEpochs_inOrder (by decide +kernel), ⟨by decide, by decide +kernel,
      ⟨_, rfl, by decide⟩, nofun⟩, fun h => ?_⟩,
    ⟨silentEpochs_inOrder (by decide), ⟨by decide, by decide, ⟨_, rfl, by decide⟩, nofun⟩,
      fun h => ?_⟩⟩
  · rcases h.1 with h | ⟨p, c, hp, hc, _⟩
    · exact absurd h (by decide +kernel)
    · obtain ⟨i, _, rfl⟩ := List.mem_map.mp (List.mem_of_getElem? hp)
      cases hc
  · obtain ⟨p, c, hp, hc, _, happly⟩ := h.2 _ _ rfl List.mem_cons_self rfl List.mem_cons_self
    obtain rfl := Option.some.inj hp
    rw [List.mem_singleton.mp hc] at happly
    exact absurd happly (by decide)

end BladeRF
