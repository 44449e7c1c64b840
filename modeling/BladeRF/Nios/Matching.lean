/-
# `Nios.Matching` — which requests one answer can belong to

The validator accepts an answer by the fields it echoes, so one answer may be
accepted for several requests.  What the transaction layer relies on is that
certain pairs of requests share no answer: a tagged RFIC write and the reads
that recover it, an unanswered read and the barrier chosen for it, a RETUNE2
request and anything of another format.
-/
import BladeRF.Nios.Transaction

namespace BladeRF

variable {q r p w a : Packet} {v u : Bool} {g k : ℕ}

/-! ## The validator, one format at a time -/

theorem matches_8x32_iff (hq : q.byte 0 = niosPkt8x32Magic) :
    niosResponseMatchesRequest q a v g = true ↔
      a.byte 0 = niosPkt8x32Magic ∧ niosPkt8x32.standardMatches q a = true := by
  simp [niosResponseMatchesRequest, hq, niosPktLegacyMagic, niosPkt8x8Magic, niosPkt8x16Magic,
    niosPkt8x32Magic, @eq_comm _ (a.byte 0)]

theorem matches_16x64_iff (hq : q.byte 0 = niosPkt16x64Magic) :
    niosResponseMatchesRequest q a v g = true ↔
      a.byte 0 = niosPkt16x64Magic ∧ nios16x64Matches q a = true := by
  simp [niosResponseMatchesRequest, hq, niosPktLegacyMagic, niosPkt8x8Magic, niosPkt8x16Magic,
    niosPkt8x32Magic, niosPkt8x64Magic, niosPkt16x64Magic, @eq_comm _ (a.byte 0)]

theorem matches_retune2_iff (hq : q.byte 0 = niosPktRetune2Magic) :
    niosResponseMatchesRequest q a v g = true ↔
      a.byte 0 = niosPktRetune2Magic ∧ niosRetune2Matches q a v g = true := by
  simp [niosResponseMatchesRequest, hq, niosPktLegacyMagic, niosPkt8x8Magic, niosPkt8x16Magic,
    niosPkt8x32Magic, niosPkt8x64Magic, niosPkt16x64Magic, niosPkt32x32Magic,
    niosPktRetuneMagic, niosPktRetune2Magic, @eq_comm _ (a.byte 0)]

theorem magic_of_matches (hl : q.byte 0 ≠ niosPktLegacyMagic)
    (h : niosResponseMatchesRequest q a v g = true) : a.byte 0 = q.byte 0 := by
  by_contra hne
  have hne' : q.byte 0 ≠ a.byte 0 := fun heq => hne heq.symm
  simp [niosResponseMatchesRequest, hl, hne'] at h

theorem matches_session_irrelevant (hq : q.byte 0 ≠ niosPktRetune2Magic) :
    niosResponseMatchesRequest q a v g = niosResponseMatchesRequest q a u k := by
  simp only [niosResponseMatchesRequest, if_neg hq]

theorem echoes_of_8x32 (hq : q.byte 0 = niosPkt8x32Magic)
    (h : niosResponseMatchesRequest q a v g = true) :
    a.byte 1 = q.byte 1 ∧ a.flag 2 1 = q.flag 2 1 ∧ a.field 4 1 = q.field 4 1 := by
  have hm := ((matches_8x32_iff hq).mp h).2
  simp only [RegFormat.standardMatches, RegFormat.echoes, RegFormat.unpack, niosPkt8x32,
    Bool.and_eq_true, beq_iff_eq] at hm
  obtain ⟨-, ⟨⟨ht, hw⟩, ha⟩, -⟩ := hm
  exact ⟨ht.symm, hw.symm, ha.symm⟩

theorem write_of_16x64 (hq : q.byte 0 = niosPkt16x64Magic)
    (h : niosResponseMatchesRequest q a v g = true) : a.flag 2 1 = q.flag 2 1 := by
  have hm := ((matches_16x64_iff hq).mp h).2
  by_contra hne
  have hne' : (q.flag 2 1 != a.flag 2 1) = true := by
    rw [bne_iff_ne]
    exact fun heq => hne heq.symm
  simp only [nios16x64Matches, RegFormat.unpack, hne', Bool.or_true, Bool.true_or, if_true] at hm
  split_ifs at hm

theorem token_of_retune2 (hq : q.byte 0 = niosPktRetune2Magic)
    (h : niosResponseMatchesRequest q a v g = true) :
    a.field 10 2 = niosPktRetune2UnpackRequestToken q := by
  have hm := ((matches_retune2_iff hq).mp h).2
  simp only [niosRetune2Matches, Bool.not_eq_true', Bool.or_eq_false_iff,
    Bool.and_eq_false_iff] at hm
  obtain ⟨⟨⟨⟨⟨⟨⟨⟨-, htail⟩, htoken⟩, -⟩, -⟩, -⟩, -⟩, -⟩, -⟩ := hm
  by_cases h0 : niosPktRetune2UnpackRequestToken q = 0
  · rw [h0]
    have hz : niosResponseHasZeroTail a 10 = true := by simpa [h0] using htail
    simp only [niosResponseHasZeroTail, List.all_eq_true, beq_iff_eq] at hz
    rw [Packet.field, Lib.leNat_eq_zero]
    intro b hb
    exact hz b (List.mem_of_mem_take hb)
  · simpa [h0] using htoken

theorem matches_tokenless (ht : niosPktRetune2UnpackRequestToken q = 0) :
    niosResponseMatchesRequest q a v g = niosResponseMatchesRequest q a u k := by
  simp [niosResponseMatchesRequest, niosRetune2Matches, ht]

/-! ## Requests that share no answer -/

theorem no_shared_answer_of_magic (hql : q.byte 0 ≠ niosPktLegacyMagic)
    (hrl : r.byte 0 ≠ niosPktLegacyMagic) (hne : q.byte 0 ≠ r.byte 0)
    (hq : niosResponseMatchesRequest q a v g = true) :
    niosResponseMatchesRequest r a u k = false := by
  rw [Bool.eq_false_iff]
  intro hr
  exact hne ((magic_of_matches hql hq).symm.trans (magic_of_matches hrl hr))

theorem Packet.field_one (p : Packet) (i : ℕ) : p.field i 1 = (p.byte i).toNat := by
  have hget : p.byte i = (p.bytes.drop i).headD 0 := by
    simp [Packet.byte, List.headD_eq_head?_getD, List.head?_drop]
  rw [hget, Packet.field]
  cases p.bytes.drop i with
  | nil => rfl
  | cons b bs => simp [Lib.leNat]

theorem niosIsTaggedRficWrite_spec (h : niosIsTaggedRficWrite w = true) :
    w.byte 0 = niosPkt16x64Magic ∧ w.flag 2 1 = true := by
  simp only [niosIsTaggedRficWrite, Bool.and_eq_true, beq_iff_eq] at h
  exact ⟨h.1.1.1, h.1.2⟩

theorem niosIsRecoveryStatusRead_spec (h : niosIsRecoveryStatusRead q = true) :
    q.byte 0 = niosPkt16x64Magic ∧ q.flag 2 1 = false := by
  simp only [niosIsRecoveryStatusRead, Bool.and_eq_true, beq_iff_eq, Bool.not_eq_true'] at h
  exact ⟨h.1.1.1, h.1.2⟩

theorem niosIsRetune2ReadoutRequest_spec (h : niosIsRetune2ReadoutRequest q = true) :
    q.byte 0 = niosPkt8x32Magic := by
  simp only [niosIsRetune2ReadoutRequest, Bool.and_eq_true, beq_iff_eq] at h
  exact h.1.1

theorem niosIsRetune2ClearQueue_spec (h : niosIsRetune2ClearQueue q = true) :
    q.byte 0 = niosPktRetune2Magic := by
  simp only [niosIsRetune2ClearQueue, Bool.and_eq_true, beq_iff_eq] at h
  exact h.1

theorem niosIsFixedReadRequest_spec (h : niosIsFixedReadRequest r = true) :
    r.byte 0 ≠ niosPktLegacyMagic ∧ r.byte 0 ≠ niosPktRetune2Magic ∧ r.flag 2 1 = false := by
  unfold niosIsFixedReadRequest at h
  split_ifs at h with h1 h2 h3 h4 h5 h6
  · exact ⟨by rw [h1]; decide, by rw [h1]; decide, by simpa [RegFormat.unpack] using h⟩
  · exact ⟨by rw [h2]; decide, by rw [h2]; decide, by simpa [RegFormat.unpack] using h⟩
  · exact ⟨by rw [h3]; decide, by rw [h3]; decide, by simpa [RegFormat.unpack] using h⟩
  · exact ⟨by rw [h4]; decide, by rw [h4]; decide, by simpa [RegFormat.unpack] using h⟩
  · rw [Bool.and_eq_true] at h
    exact ⟨by rw [h5]; decide, by rw [h5]; decide, by simpa [RegFormat.unpack] using h.1⟩
  · exact ⟨by rw [h6]; decide, by rw [h6]; decide, by simpa [RegFormat.unpack] using h⟩

/-- What a call may send while a RETUNE2 answer is missing: the clearing of the
queue, or a request of another format that has answers of its own. -/
theorem niosIsRetune2RecoveryRequest_spec (h : niosIsRetune2RecoveryRequest q = true) :
    q.byte 0 ≠ niosPktLegacyMagic ∧
      (q.byte 0 = niosPktRetune2Magic → niosIsRetune2ClearQueue q = true) := by
  unfold niosIsRetune2RecoveryRequest at h
  split_ifs at h with h1
  · refine ⟨by rw [h1]; decide, fun h2 => ?_⟩
    rw [h1] at h2
    exact absurd h2 (by decide)
  · rcases Bool.or_eq_true_iff.mp h with hs | hc
    · have hm := (niosIsRecoveryStatusRead_spec hs).1
      refine ⟨by rw [hm]; decide, fun h2 => ?_⟩
      rw [hm] at h2
      exact absurd h2 (by decide)
    · have hm := niosIsRetune2ClearQueue_spec hc
      exact ⟨by rw [hm]; decide, fun _ => hc⟩

theorem rfic_write_and_readout (hw : niosIsTaggedRficWrite w = true)
    (hq : niosIsRecoveryStatusRead q = true ∨ niosIsRetune2ReadoutRequest q = true)
    (h : niosResponseMatchesRequest w a v g = true) :
    niosResponseMatchesRequest q a u k = false := by
  obtain ⟨hm, hwrite⟩ := niosIsTaggedRficWrite_spec hw
  rcases hq with hs | hr
  · obtain ⟨hqm, hread⟩ := niosIsRecoveryStatusRead_spec hs
    rw [Bool.eq_false_iff]
    intro h'
    have heq := (write_of_16x64 hm h).symm.trans (write_of_16x64 hqm h')
    rw [hwrite, hread] at heq
    exact absurd heq (by decide)
  · have hqm := niosIsRetune2ReadoutRequest_spec hr
    refine no_shared_answer_of_magic ?_ ?_ ?_ h
    · rw [hm]; decide
    · rw [hqm]; decide
    · rw [hm, hqm]; decide

theorem niosDrainBarrier_magic (r : Packet) : (niosDrainBarrier r).byte 0 = niosPkt8x32Magic := by
  unfold niosDrainBarrier
  split_ifs <;> rfl

theorem drain_barrier_and_read (h : niosResponseMatchesRequest r a v g = true)
    (hl : r.byte 0 ≠ niosPktLegacyMagic) :
    niosResponseMatchesRequest (niosDrainBarrier r) a u k = false := by
  have hb := niosDrainBarrier_magic r
  by_cases hr : r.byte 0 = niosPkt8x32Magic
  · rw [Bool.eq_false_iff]
    intro h'
    obtain ⟨ht, -, ha⟩ := echoes_of_8x32 hr h
    obtain ⟨ht', -, ha'⟩ := echoes_of_8x32 hb h'
    have htarget : r.byte 1 = (niosDrainBarrier r).byte 1 := ht.symm.trans ht'
    have haddr : (r.byte 4).toNat = ((niosDrainBarrier r).byte 4).toNat := by
      rw [← Packet.field_one, ← Packet.field_one]
      exact ha.symm.trans ha'
    unfold niosDrainBarrier at htarget haddr
    split_ifs at htarget haddr with hv
    · rw [hv.2.1] at htarget
      exact absurd htarget (by decide)
    · exact hv ⟨hr, htarget, BitVec.eq_of_toNat_eq haddr⟩
  · refine no_shared_answer_of_magic hl ?_ ?_ h
    · rw [hb]; decide
    · rw [hb]; exact hr

end BladeRF
