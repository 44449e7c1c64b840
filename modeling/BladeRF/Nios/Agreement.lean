/-
# `Nios.Agreement` — the validator accepts what the firmware answers

The validator forbids combinations of flags, and the firmware sets flags in
many branches.  The two meet in the list of flag bytes a RETUNE2 response can
carry (`Retune2Flags`), each with what the request must have been, and in the
fields a 16x64 response repeats.
-/
import BladeRF.Nios.Device
import BladeRF.Nios.Matching

namespace BladeRF

/-! ## Fields of packed packets -/

namespace Packet

variable {p : Packet}

theorem field_segment (pre mid post : List (BitVec 8)) {off len : ℕ}
    (h : p.bytes = pre ++ mid ++ post) (hoff : pre.length = off) (hlen : mid.length = len) :
    p.field off len = Lib.leNat mid := by
  rw [Packet.field, h, List.append_assoc, List.drop_left' hoff, List.take_left' hlen]

theorem field_congr {r : Packet} {off len : ℕ} (h : p.bytes.drop off = r.bytes.drop off) :
    p.field off len = r.field off len := by
  rw [Packet.field, Packet.field, h]

end Packet

variable {q a : Packet}

variable (target : BitVec 8)

theorem niosPkt16x64Bytes_fields (flags : BitVec 8) (addr : BitVec 16) (data : BitVec 64)
    (tid : BitVec 16) :
    (niosPkt16x64Bytes target flags addr data tid).field 4 2 = addr.toNat ∧
      (niosPkt16x64Bytes target flags addr data tid).field 6 8 = data.toNat ∧
      (niosPkt16x64Bytes target flags addr data tid).field 14 2 = tid.toNat := by
  have hb : (niosPkt16x64Bytes target flags addr data tid).bytes =
      [niosPkt16x64Magic, target, flags, 0] ++ Lib.leBytes 2 addr.toNat
        ++ Lib.leBytes 8 data.toNat ++ Lib.leBytes 2 tid.toNat := rfl
  have haddr : (niosPkt16x64Bytes target flags addr data tid).field 4 2 =
      Lib.leNat (Lib.leBytes 2 addr.toNat) :=
    Packet.field_segment [niosPkt16x64Magic, target, flags, 0] _
      (Lib.leBytes 8 data.toNat ++ Lib.leBytes 2 tid.toNat) (by simp [hb]) rfl (by simp)
  have hdata : (niosPkt16x64Bytes target flags addr data tid).field 6 8 =
      Lib.leNat (Lib.leBytes 8 data.toNat) :=
    Packet.field_segment ([niosPkt16x64Magic, target, flags, 0] ++ Lib.leBytes 2 addr.toNat) _
      (Lib.leBytes 2 tid.toNat) hb (by simp) (by simp)
  have htid : (niosPkt16x64Bytes target flags addr data tid).field 14 2 =
      Lib.leNat (Lib.leBytes 2 tid.toNat) :=
    Packet.field_segment ([niosPkt16x64Magic, target, flags, 0] ++ Lib.leBytes 2 addr.toNat
      ++ Lib.leBytes 8 data.toNat) _ [] (by simp [hb]) (by simp) (by simp)
  rw [haddr, hdata, htid]
  exact ⟨Lib.leNat_leBytes_of_lt addr.isLt, Lib.leNat_leBytes_of_lt data.isLt,
    Lib.leNat_leBytes_of_lt tid.isLt⟩

theorem niosPkt16x64Bytes_unpack (flags : BitVec 8) (addr : BitVec 16) (data : BitVec 64)
    (tid : BitVec 16) :
    niosPkt16x64.unpack (niosPkt16x64Bytes target flags addr data tid) =
      ⟨target, flags &&& 1 != 0, addr.toNat, data.toNat⟩ := by
  obtain ⟨haddr, hdata, -⟩ := niosPkt16x64Bytes_fields target flags addr data tid
  have ha : (niosPkt16x64Bytes target flags addr data tid).field 4 niosPkt16x64.addrLen =
      addr.toNat := haddr
  have hd : (niosPkt16x64Bytes target flags addr data tid).field niosPkt16x64.dataIdx
      niosPkt16x64.dataLen = data.toNat := hdata
  rw [RegFormat.unpack, ha, hd]
  rfl

theorem niosPkt16x64Bytes_zeroTail (flags : BitVec 8) (addr : BitVec 16) (data : BitVec 64) :
    niosResponseHasZeroTail (niosPkt16x64Bytes target flags addr data 0) niosPkt16x64.resvIdx =
      true := rfl

/-! ## 16x64 -/

theorem nios16x64Matches_echo {target flags : BitVec 8} {write : Bool} {addr : BitVec 16}
    {data data' : BitVec 64} {tid : BitVec 16}
    (hwrite : (flags &&& 1 != 0) = write) (hresv : (flags &&& 0xf0 != 0) = false)
    (hbusy : (flags &&& 4 != 0) = false)
    (hfull : (flags &&& 8 != 0) = true →
      target = niosPkt16x64TargetRfic ∧ write = true ∧ (flags &&& 2 != 0) = false)
    (htid : tid = 0 ∨ (target = niosPkt16x64TargetRfic ∧ write = true))
    (hdata : write = true → target = niosPkt16x64TargetAd9361 ∨ target = niosPkt16x64TargetRfic ∨
      target = niosPkt16x64TargetGainTableRow → data' = data) :
    nios16x64Matches (niosPkt16x64PackWithTransactionId target write addr data tid)
      (niosPkt16x64Bytes target flags addr data' tid) = true := by
  have hq : niosPkt16x64.unpack (niosPkt16x64PackWithTransactionId target write addr data tid) =
      ⟨target, write, addr.toNat, data.toNat⟩ := by
    rw [niosPkt16x64PackWithTransactionId, niosPkt16x64Bytes_unpack]
    cases write <;> rfl
  have hr := niosPkt16x64Bytes_unpack target flags addr data' tid
  rw [hwrite] at hr
  have htq : niosPkt16x64TransactionId
      (niosPkt16x64PackWithTransactionId target write addr data tid) = tid.toNat :=
    (niosPkt16x64Bytes_fields _ _ _ _ _).2.2
  have htr : niosPkt16x64TransactionId (niosPkt16x64Bytes target flags addr data' tid) =
      tid.toNat := (niosPkt16x64Bytes_fields _ _ _ _ _).2.2
  have hf0 : (niosPkt16x64Bytes target flags addr data' tid).flag 2 0xf0 = false := hresv
  have hb4 : niosPkt16x64RespIsBusy (niosPkt16x64Bytes target flags addr data' tid) = false :=
    hbusy
  have hb3 : (niosPkt16x64Bytes target flags addr data' tid).byte 3 = 0 := rfl
  have hqf : niosPkt16x64RespIsQueueFull (niosPkt16x64Bytes target flags addr data' tid) =
      (flags &&& 8 != 0) := rfl
  have hs : (niosPkt16x64Bytes target flags addr data' tid).flag 2 2 = (flags &&& 2 != 0) := rfl
  have htail : (!(target == niosPkt16x64TargetRfic && write) &&
      (tid.toNat != 0 || !niosResponseHasZeroTail (niosPkt16x64Bytes target flags addr data' tid)
        niosPkt16x64.resvIdx)) = false := by
    rcases htid with rfl | ⟨rfl, rfl⟩
    · rw [niosPkt16x64Bytes_zeroTail]
      simp
    · simp
  have hfull' : ((flags &&& 8 != 0) && (!(target == niosPkt16x64TargetRfic && write) ||
      (flags &&& 2 != 0))) = false := by
    cases hfl : (flags &&& 8 != 0) with
    | false => rfl
    | true =>
        obtain ⟨rfl, rfl, h2⟩ := hfull hfl
        rw [h2]
        rfl
  simp only [nios16x64Matches, hq, hr, htq, htr, hf0, hb4, hb3, hqf, hs, htail, hfull',
    bne_self_eq_false, Bool.or_false, Bool.and_false, Bool.false_and, Bool.false_eq_true, if_false]
  split
  · rename_i hw
    simp only [Bool.and_eq_true, Bool.or_eq_true, beq_iff_eq, or_assoc] at hw
    rw [hdata hw.1 hw.2]
    exact beq_self_eq_true _
  · rfl

theorem Device16x64.execute_data (dev : Device16x64) {id : BitVec 8} (addr : BitVec 16)
    (data : BitVec 64) (tid : BitVec 16)
    (hid : id = niosPkt16x64TargetAd9361 ∨ id = niosPkt16x64TargetRfic ∨
      id = niosPkt16x64TargetGainTableRow) : (dev.execute id true addr data tid).1.2 = data := by
  rcases hid with rfl | rfl | rfl
  all_goals
    unfold Device16x64.execute
    split
    · rfl
    · rfl

theorem pkt16x64_matches (dev : Device16x64) (target : BitVec 8) (write : Bool)
    (addr : BitVec 16) (data : BitVec 64) (tid : BitVec 16)
    (htid : tid = 0 ∨ (target = niosPkt16x64TargetRfic ∧ write = true)) (v : Bool) (g : ℕ) :
    niosResponseMatchesRequest (niosPkt16x64PackWithTransactionId target write addr data tid)
      (dev.pkt16x64 (niosPkt16x64PackWithTransactionId target write addr data tid)) v g = true := by
  have hq : niosPkt16x64.unpack (niosPkt16x64PackWithTransactionId target write addr data tid) =
      ⟨target, write, addr.toNat, data.toNat⟩ := by
    rw [niosPkt16x64PackWithTransactionId, niosPkt16x64Bytes_unpack]
    cases write <;> rfl
  have htq : niosPkt16x64TransactionId
      (niosPkt16x64PackWithTransactionId target write addr data tid) = tid.toNat :=
    (niosPkt16x64Bytes_fields _ _ _ _ _).2.2
  have hdata : write = true → target = niosPkt16x64TargetAd9361 ∨
      target = niosPkt16x64TargetRfic ∨ target = niosPkt16x64TargetGainTableRow →
      (dev.execute target write addr data tid).1.2 = data := by
    rintro rfl hid
    exact dev.execute_data addr data tid hid
  simp only [Device16x64.pkt16x64, hq, htq, BitVec.ofNat_toNat, BitVec.setWidth_eq]
  generalize dev.execute target write addr data tid = r at hdata ⊢
  obtain ⟨⟨success, data'⟩, full⟩ := r
  dsimp only at hdata ⊢
  have hecho : niosResponseMatchesRequest
      (niosPkt16x64PackWithTransactionId target write addr data tid)
      (niosPkt16x64RespPackWithTransactionId target write addr data' success tid) v g = true := by
    rw [matches_16x64_iff rfl]
    refine ⟨rfl, nios16x64Matches_echo ?_ ?_ ?_ ?_ htid hdata⟩
    · cases write <;> cases success <;> rfl
    · cases write <;> cases success <;> rfl
    · cases write <;> cases success <;> rfl
    · intro h
      cases write <;> cases success <;> exact absurd h (by decide)
  split
  · rename_i hrw
    simp only [Bool.and_eq_true, beq_iff_eq] at hrw
    obtain ⟨rfl, rfl⟩ := hrw
    split
    · rw [matches_16x64_iff rfl]
      exact ⟨rfl, nios16x64Matches_echo rfl rfl rfl (fun _ => ⟨rfl, rfl, rfl⟩) htid hdata⟩
    · exact hecho
  · rename_i hrw
    rcases htid with rfl | ⟨rfl, rfl⟩
    · exact hecho
    · exact absurd rfl hrw

/-! ## RETUNE2 -/

/-- The flag bytes of RETUNE2 responses, each with the requests it answers. -/
inductive Retune2Flags (timestamp token : ℕ) : BitVec 8 → Prop
  | failure : Retune2Flags timestamp token 0x00
  | success : Retune2Flags timestamp token 0x02
  | tuned : timestamp = niosPktRetuneNow → Retune2Flags timestamp token 0x03
  | asyncPending : timestamp = niosPktRetuneNow → token ≠ 0 → Retune2Flags timestamp token 0x42
  | cancelFailed : timestamp = niosPktRetuneClearQueue → Retune2Flags timestamp token 0x08
  | cancelPending : timestamp = niosPktRetuneClearQueue → Retune2Flags timestamp token 0x10
  | invalidTimestamp : timestamp ≠ niosPktRetuneNow → timestamp ≠ niosPktRetuneClearQueue →
      Retune2Flags timestamp token 0x04

structure Retune2Answer (request response : Packet) (generation : ℕ) : Prop where
  magic : response.byte 0 = niosPktRetune2Magic
  flags : Retune2Flags (niosPktRetuneTime request) (niosPktRetune2UnpackRequestToken request)
    (response.byte 9)
  token : response.field 10 2 = niosPktRetune2UnpackRequestToken request
  session : response.field 12 4 =
    if niosPktRetune2UnpackRequestToken request ≠ 0 then generation else 0

theorem Retune2Answer.zeroTail {generation : ℕ} (h : Retune2Answer q a generation)
    (h0 : niosPktRetune2UnpackRequestToken q = 0) : niosResponseHasZeroTail a 10 = true := by
  have htok := h.token
  have hses := h.session
  rw [h0] at htok
  rw [h0, if_neg (by simp)] at hses
  rw [Packet.field, Lib.leNat_eq_zero] at htok hses
  have hsplit : a.bytes.drop 10 = (a.bytes.drop 10).take 2 ++ (a.bytes.drop 12).take 4 := by
    have hall : (a.bytes.drop 12).take 4 = a.bytes.drop 12 := by
      refine List.take_of_length_le ?_
      simp [a.length_eq]
    rw [hall]
    have := List.take_append_drop 2 (a.bytes.drop 10)
    rw [List.drop_drop] at this
    exact this.symm
  rw [niosResponseHasZeroTail, List.all_eq_true]
  intro b hb
  rw [hsplit] at hb
  rw [beq_iff_eq]
  rcases List.mem_append.mp hb with hb | hb
  · exact htok b hb
  · exact hses b hb

theorem Retune2Answer.matches {generation : ℕ} (h : Retune2Answer q a generation)
    (hq : q.byte 0 = niosPktRetune2Magic) :
    niosResponseMatchesRequest q a true generation = true := by
  rw [matches_retune2_iff hq]
  refine ⟨h.magic, ?_⟩
  have htail : (niosPktRetune2UnpackRequestToken q == 0 && !niosResponseHasZeroTail a 10) =
      false := by
    cases h0 : niosPktRetune2UnpackRequestToken q == 0 with
    | false => rfl
    | true =>
        rw [h.zeroTail (beq_iff_eq.mp h0)]
        rfl
  have htoken : (niosPktRetune2UnpackRequestToken q != 0 &&
      a.field 10 2 != niosPktRetune2UnpackRequestToken q) = false := by
    rw [h.token]
    simp
  have hsession : (niosPktRetune2UnpackRequestToken q != 0 &&
      (!true || a.field 12 4 != generation)) = false := by
    rw [h.session]
    by_cases h0 : niosPktRetune2UnpackRequestToken q = 0
    · simp [h0]
    · simp [h0]
  have hflags := h.flags
  simp only [niosRetune2Matches, htail, htoken, hsession, Packet.flag]
  generalize a.byte 9 = flags at hflags ⊢
  cases hflags with
  | failure => simp
  | success => simp
  | tuned ht => simp [ht]
  | asyncPending ht h0 => simp [ht, h0]
  | cancelFailed ht => simp [ht]
  | cancelPending ht => simp [ht]
  | invalidTimestamp hnow hclear => simp [hnow, hclear]

theorem niosPktRetune2UnpackRequestToken_lt (q : Packet) :
    niosPktRetune2UnpackRequestToken q < 2 ^ 16 := by
  refine lt_of_lt_of_le (Lib.leNat_lt _) ?_
  have hlen : ((q.bytes.drop 14).take 2).length ≤ 2 := by simp
  exact Nat.pow_le_pow_right (by decide) hlen

theorem niosPktRetune2RespPack_answer (duration : BitVec 64) {flags : BitVec 8}
    (failure : NiosPktRetune2Failure) (generation : BitVec 32)
    (hflags : Retune2Flags (niosPktRetuneTime q) (niosPktRetune2UnpackRequestToken q) flags) :
    Retune2Answer q (niosPktRetune2RespPack duration flags failure
      (BitVec.ofNat 16 (niosPktRetune2UnpackRequestToken q)) generation) generation.toNat := by
  have htok : (BitVec.ofNat 16 (niosPktRetune2UnpackRequestToken q)).toNat =
      niosPktRetune2UnpackRequestToken q := by
    rw [BitVec.toNat_ofNat, Nat.mod_eq_of_lt (niosPktRetune2UnpackRequestToken_lt q)]
  have hzero : BitVec.ofNat 16 (niosPktRetune2UnpackRequestToken q) ≠ 0 ↔
      niosPktRetune2UnpackRequestToken q ≠ 0 := by
    refine not_congr ⟨fun h => ?_, fun h => ?_⟩
    · rw [← htok, h]
      rfl
    · rw [h]
      rfl
  generalize hd : (if failure ≠ .none ∧ flags &&& 0x02 = 0 then
      niosPktRetune2FailureDurationTag ||| BitVec.ofNat 64 failure.code else duration) = d
  have hb : (niosPktRetune2RespPack duration flags failure
      (BitVec.ofNat 16 (niosPktRetune2UnpackRequestToken q)) generation).bytes =
      [niosPktRetune2Magic] ++ Lib.leBytes 8 d.toNat ++ [flags]
        ++ Lib.leBytes 2 (niosPktRetune2UnpackRequestToken q)
        ++ Lib.leBytes 4 (if niosPktRetune2UnpackRequestToken q ≠ 0 then generation.toNat
          else 0) := by
    simp only [niosPktRetune2RespPack, hd, htok, hzero]
  refine ⟨?_, ?_, ?_, ?_⟩
  · rw [Packet.byte, hb]
    rfl
  · rw [Packet.byte, hb]
    exact hflags
  · rw [Packet.field_segment ([niosPktRetune2Magic] ++ Lib.leBytes 8 d.toNat ++ [flags])
      (Lib.leBytes 2 (niosPktRetune2UnpackRequestToken q)) _ hb (by simp) (by simp)]
    exact Lib.leNat_leBytes_of_lt (niosPktRetune2UnpackRequestToken_lt q)
  · rw [Packet.field_segment ([niosPktRetune2Magic] ++ Lib.leBytes 8 d.toNat ++ [flags]
      ++ Lib.leBytes 2 (niosPktRetune2UnpackRequestToken q)) _ []
      (by rw [hb, List.append_nil]) (by simp) (Lib.length_leBytes 4 _)]
    refine Lib.leNat_leBytes_of_lt ?_
    split
    · exact generation.isLt
    · decide

theorem Retune2Answer.setAsyncBaseline {generation : ℕ} (h : Retune2Answer q a generation)
    (successCount failureCount : BitVec 32) :
    Retune2Answer q (niosPktRetune2RespSetAsyncBaseline a successCount failureCount)
      generation := by
  have hb : (niosPktRetune2RespSetAsyncBaseline a successCount failureCount).bytes =
      (a.bytes.take 1 ++ Lib.leBytes 4 successCount.toNat ++ Lib.leBytes 4 failureCount.toNat)
        ++ a.bytes.drop 9 := rfl
  have hdrop : (niosPktRetune2RespSetAsyncBaseline a successCount failureCount).bytes.drop 9 =
      a.bytes.drop 9 := by
    rw [hb]
    exact List.drop_left' (by simp [a.length_eq])
  have hbyte : (niosPktRetune2RespSetAsyncBaseline a successCount failureCount).byte 9 =
      a.byte 9 := by
    have h9 := congrArg List.head? hdrop
    rw [List.head?_drop, List.head?_drop] at h9
    simp [Packet.byte, h9]
  have hfield : ∀ k len, (niosPktRetune2RespSetAsyncBaseline a successCount failureCount).field
      (9 + k) len = a.field (9 + k) len := by
    intro k len
    refine Packet.field_congr ?_
    rw [← List.drop_drop, ← List.drop_drop, hdrop]
  refine ⟨?_, ?_, ?_, ?_⟩
  · rw [← h.magic, Packet.byte, Packet.byte, hb]
    cases hbs : a.bytes with
    | nil =>
        have := a.length_eq
        rw [hbs] at this
        exact absurd this (by decide)
    | cons b bs => rfl
  · rw [hbyte]
    exact h.flags
  · exact (hfield 1 2).trans h.token
  · exact (hfield 3 4).trans h.session

theorem Retune2Result.flagByte_ok (flags : BitVec 8) (failure : NiosPktRetune2Failure)
    (deferred : Bool) :
    (⟨flags, true, failure, deferred⟩ : Retune2Result).flagByte = 0x02 ||| flags := rfl

namespace DeviceRetune2

variable (dev : DeviceRetune2)

theorem clearQueue_flags {timestamp : ℕ} (token : ℕ) (ht : timestamp = niosPktRetuneClearQueue) :
    Retune2Flags timestamp token dev.clearQueue.flagByte := by
  unfold clearQueue
  cases dev.clearQueueAsync with
  | cleared => exact .success
  | cancelFailed => exact .cancelFailed ht
  | cancelPending => exact .cancelPending ht

theorem retuneNow_flags {timestamp token : ℕ} (ht : timestamp = niosPktRetuneNow) :
    Retune2Flags timestamp token (dev.retuneNow (BitVec.ofNat 16 token)).flagByte := by
  unfold retuneNow
  dsimp only
  split
  · exact .failure
  · split
    · exact .failure
    · split
      · exact .failure
      · split
        · split
          · exact .failure
          · split
            · exact .failure
            · by_cases h0 : BitVec.ofNat 16 token = 0
              · rw [Retune2Result.flagByte_ok, h0]
                exact .success
              · have hne : token ≠ 0 := by
                  rintro rfl
                  exact h0 rfl
                rw [Retune2Result.flagByte_ok, bne_iff_ne.mpr h0]
                exact .asyncPending ht hne
        · split
          · exact .failure
          · split
            · exact .failure
            · split
              · exact .tuned ht
              · exact .failure

theorem retuneScheduled_flags (time startTime : BitVec 64)
    {timestamp : ℕ} (token : ℕ) (hnow : timestamp ≠ niosPktRetuneNow)
    (hclear : timestamp ≠ niosPktRetuneClearQueue) :
    Retune2Flags timestamp token (dev.retuneScheduled time startTime).flagByte := by
  unfold retuneScheduled
  split
  · exact .invalidTimestamp hnow hclear
  · cases dev.enqueue with
    | queued => exact .success
    | full => exact .failure
    | invalidTimestamp => exact .invalidTimestamp hnow hclear

theorem dispatch_cases (request : Packet) (startTime : BitVec 64) :
    (niosPktRetuneTime request = niosPktRetuneClearQueue ∧
        dev.dispatch request startTime = dev.clearQueue) ∨
      (∃ failure, dev.dispatch request startTime = .failed failure) ∨
      (niosPktRetuneTime request = niosPktRetuneNow ∧
        dev.dispatch request startTime =
          dev.retuneNow (BitVec.ofNat 16 (niosPktRetune2UnpackRequestToken request))) ∨
      (niosPktRetuneTime request ≠ niosPktRetuneNow ∧
        niosPktRetuneTime request ≠ niosPktRetuneClearQueue ∧
        dev.dispatch request startTime =
          dev.retuneScheduled (BitVec.ofNat 64 (niosPktRetuneTime request)) startTime) := by
  unfold dispatch
  dsimp only
  split
  · rename_i hclear
    exact .inl ⟨hclear, rfl⟩
  · rename_i hclear
    split
    · exact .inr (.inl ⟨_, rfl⟩)
    · split
      · exact .inr (.inl ⟨_, rfl⟩)
      · split
        · rename_i hnow
          exact .inr (.inr (.inl ⟨hnow, rfl⟩))
        · rename_i hnow
          exact .inr (.inr (.inr ⟨hnow, hclear, rfl⟩))

theorem dispatch_flags (request : Packet) (startTime : BitVec 64) :
    Retune2Flags (niosPktRetuneTime request) (niosPktRetune2UnpackRequestToken request)
      (dev.dispatch request startTime).flagByte := by
  rcases dev.dispatch_cases request startTime with
    ⟨hclear, heq⟩ | ⟨failure, heq⟩ | ⟨hnow, heq⟩ | ⟨hnow, hclear, heq⟩
  · rw [heq]
    exact dev.clearQueue_flags _ hclear
  · rw [heq]
    exact .failure
  · rw [heq]
    exact dev.retuneNow_flags hnow
  · rw [heq]
    exact dev.retuneScheduled_flags _ _ _ hnow hclear

theorem dispatch_deferred (request : Packet) (startTime : BitVec 64)
    (h : (dev.dispatch request startTime).responseDeferred = true) :
    niosPktRetuneTime request = niosPktRetuneNow := by
  rcases dev.dispatch_cases request startTime with
    ⟨-, heq⟩ | ⟨failure, heq⟩ | ⟨hnow, -⟩ | ⟨-, -, heq⟩
  · rw [heq, clearQueue] at h
    split at h <;> exact absurd h (by decide)
  · rw [heq] at h
    exact absurd h (by simp [Retune2Result.failed])
  · exact hnow
  · rw [heq, retuneScheduled] at h
    split at h
    · exact absurd h (by decide)
    · split at h <;> exact absurd h (by decide)

theorem respond_answer (request : Packet) (duration : BitVec 64) (result : Retune2Result)
    (h : Retune2Flags (niosPktRetuneTime request) (niosPktRetune2UnpackRequestToken request)
      result.flagByte) :
    Retune2Answer request (dev.respond request duration result) dev.sessionGeneration.toNat := by
  unfold respond
  dsimp only
  split
  · exact (niosPktRetune2RespPack_answer duration _ dev.sessionGeneration h).setAsyncBaseline _ _
  · exact niosPktRetune2RespPack_answer duration _ dev.sessionGeneration h

theorem pktRetune2_answer (request : Packet) :
    Retune2Answer request (dev.pktRetune2 request) dev.sessionGeneration.toNat := by
  unfold pktRetune2
  split
  · cases dev.startTime with
    | none => exact niosPktRetune2RespPack_answer 0 .none dev.sessionGeneration .failure
    | some startTime =>
        exact dev.respond_answer request _ _ (dev.dispatch_flags request startTime)
  · dsimp only
    split
    · rename_i hdefer
      have hnow := dev.dispatch_deferred request 0 hdefer
      unfold respondDeferred
      cases dev.deferred with
      | none => exact niosPktRetune2RespPack_answer 0 .none dev.sessionGeneration (.tuned hnow)
      | some failure => exact niosPktRetune2RespPack_answer 0 failure dev.sessionGeneration .failure
    · exact dev.respond_answer request _ _ (dev.dispatch_flags request 0)

end DeviceRetune2

/-- Whatever state the device is in, the host accepts its response to a RETUNE2
request, in the session both are in, and its response to a 16x64 request that
carries a transaction id only as an RFIC write. -/
theorem nios_validator_accepts_device_responses (retune2 : DeviceRetune2) (dev : Device16x64) :
    (∀ (module : BladerfModule) (timestamp : BitVec 64) (niosProfile : BitVec 16)
      (rffeProfile port spdt : BitVec 8) (requestToken : BitVec 16),
      niosResponseMatchesRequest
        (niosPktRetune2PackToken module timestamp niosProfile rffeProfile port spdt requestToken)
        (retune2.pktRetune2 (niosPktRetune2PackToken module timestamp niosProfile rffeProfile port
          spdt requestToken)) true retune2.sessionGeneration.toNat = true) ∧
    (∀ (target : BitVec 8) (write : Bool) (addr : BitVec 16) (data : BitVec 64) (v : Bool) (g : ℕ),
      niosResponseMatchesRequest (niosPkt16x64Pack target write addr data)
        (dev.pkt16x64 (niosPkt16x64Pack target write addr data)) v g = true) ∧
    (∀ (addr : BitVec 16) (data : BitVec 64) (transactionId : BitVec 16) (v : Bool) (g : ℕ),
      niosResponseMatchesRequest
        (niosPkt16x64PackWithTransactionId niosPkt16x64TargetRfic true addr data transactionId)
        (dev.pkt16x64 (niosPkt16x64PackWithTransactionId niosPkt16x64TargetRfic true addr data
          transactionId)) v g = true) := by
  refine ⟨?_, ?_, ?_⟩
  · intro module timestamp niosProfile rffeProfile port spdt requestToken
    exact (retune2.pktRetune2_answer _).matches rfl
  · intro target write addr data v g
    exact pkt16x64_matches dev target write addr data 0 (.inl rfl) v g
  · intro addr data transactionId v g
    exact pkt16x64_matches dev _ true addr data transactionId (.inr ⟨rfl, rfl⟩) v g

def workingDevice : Device16x64 where
  micro := true
  libad936x := true
  epochRegisters := true
  directAd9361WriteAllowed := true
  directAd9361BatchAllowed := fun _ _ => true
  directGainTableWriteAllowed := true
  adiSpiWrite := fun _ _ => true
  adiSpiReadChecked := fun _ => (true, 0)
  adiSpiGainTableRow := fun _ _ => true
  adiSpiWriteRegisterBatch := fun addr _ => (true, addr.setWidth 8)
  adiSpiUpdateBits := fun _ _ value => (true, value)
  gainTableRegionWrite := fun _ _ => true
  gainTableRegionDigest := fun _ => (true, 0)
  rficCommandWriteAdmit := fun _ _ _ => .accepted
  rficCommandRead := fun _ => (true, 0)
  rxEpochStatusSnapshotRead := 0
  fastlockProfileCacheWrite := fun _ _ => 0
  fastlockProfileCacheRead := fun _ => (0, 0)
  retune2RecordRead := fun _ _ => (0, 0)

/-- A register write with a transaction id: the device refuses it, and the host
takes the refusal for a response to something else. -/
theorem nios_validator_rejects_tagged_register_write :
    niosResponseMatchesRequest
      (niosPkt16x64PackWithTransactionId niosPkt16x64TargetAd9361 true 0x10 0x55 1)
      (workingDevice.pkt16x64
        (niosPkt16x64PackWithTransactionId niosPkt16x64TargetAd9361 true 0x10 0x55 1))
      true 0 = false := by
  decide

end BladeRF
