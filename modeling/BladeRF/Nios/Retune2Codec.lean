/-
# `Nios.Retune2Codec` — RETUNE2 packets are read back

The unpackers of `nios_pkt_retune2.h` beside its packers.  A request has a field
of its own for everything it carries.  A response has not: the failure code of a
rejected request, the duration of an executed one and the two baselines of an
asynchronous one share bytes 1 to 8, and a tag in the upper bytes says that the
low byte is a failure code.  `nios_pkt_retune2_resp_failure` compares that byte
with the last code it knows, which is not the last one there is.
-/
import BladeRF.Nios.Agreement

namespace BladeRF

/-! ## Unpackers -/

/-- What `nios_pkt_retune2_unpack_token` returns. -/
structure Retune2Request where
  module : BladerfModule
  timestamp : BitVec 64
  niosProfile : BitVec 16
  rffeProfile : BitVec 8
  port : BitVec 8
  spdt : BitVec 8
  requestToken : BitVec 16

def niosPktRetune2UnpackToken (p : Packet) : Retune2Request :=
  { module := if p.flag 12 0x80 then .rx else .tx
    timestamp := BitVec.ofNat 64 (p.field 1 8)
    niosProfile := BitVec.ofNat 16 (p.field 9 2)
    rffeProfile := p.byte 11
    port := p.byte 12
    spdt := p.byte 13
    requestToken := BitVec.ofNat 16 (p.field 14 2) }

/-- `nios_pkt_retune2_resp_unpack`: duration and flags. -/
def niosPktRetune2RespUnpack (p : Packet) : BitVec 64 × BitVec 8 :=
  (BitVec.ofNat 64 (p.field 1 8), p.byte 9)

/-- The host's reading of `RESP_IDX_TOKEN`. -/
def niosPktRetune2RespToken (p : Packet) : BitVec 16 := BitVec.ofNat 16 (p.field 10 2)

/-- The host's reading of `RESP_IDX_SESSION_GENERATION`. -/
def niosPktRetune2RespSessionGeneration (p : Packet) : BitVec 32 := BitVec.ofNat 32 (p.field 12 4)

def niosPktRetune2FailureDurationMask : BitVec 64 := 0xffffffffffff0000

/-- The failure code in a duration, as `nios_pkt_retune2_resp_failure` finds it. -/
def niosPktRetune2DurationFailure (duration : BitVec 64) : BitVec 8 :=
  if duration &&& niosPktRetune2FailureDurationMask ≠ niosPktRetune2FailureDurationTag then
    BitVec.ofNat 8 NiosPktRetune2Failure.none.code
  else
    let failure := duration.setWidth 8
    if failure.toNat ≤ NiosPktRetune2Failure.rficContextUnavailable.code then failure
    else BitVec.ofNat 8 NiosPktRetune2Failure.none.code

def niosPktRetune2RespFailure (p : Packet) : BitVec 8 :=
  niosPktRetune2DurationFailure (BitVec.ofNat 64 (p.field 1 8))

/-- `nios_pkt_retune2_resp_get_async_baseline`: successes and failures. -/
def niosPktRetune2RespGetAsyncBaseline (p : Packet) : BitVec 32 × BitVec 32 :=
  (BitVec.ofNat 32 (p.field 1 4), BitVec.ofNat 32 (p.field 5 4))

/-! ## Requests -/

theorem Packet.ofNat_field {p : Packet} {w off len : ℕ} (v : BitVec w)
    (pre post : List (BitVec 8)) (hb : p.bytes = pre ++ Lib.leBytes len v.toNat ++ post)
    (hoff : pre.length = off) (hw : 2 ^ w ≤ 256 ^ len) : BitVec.ofNat w (p.field off len) = v := by
  rw [Packet.field_segment pre _ post hb hoff (Lib.length_leBytes _ _),
    Lib.leNat_leBytes_of_lt (Nat.lt_of_lt_of_le v.isLt hw), BitVec.ofNat_toNat,
    BitVec.setWidth_eq]

/-- The port as it is sent: the `IS_RX` bit says the module. -/
def niosPktRetune2Port (module : BladerfModule) (port : BitVec 8) : BitVec 8 :=
  (port &&& 0x7f) ||| (if module = .tx then 0x00 else 0x80)

theorem niosPktRetune2Port_module (module : BladerfModule) (port : BitVec 8) :
    (if niosPktRetune2Port module port &&& 0x80 != 0 then BladerfModule.rx else .tx) = module := by
  cases module <;> revert port <;> decide

theorem niosPktRetune2_unpack_pack (module : BladerfModule) (timestamp : BitVec 64)
    (niosProfile : BitVec 16) (rffeProfile port spdt : BitVec 8) (requestToken : BitVec 16) :
    niosPktRetune2UnpackToken (niosPktRetune2PackToken module timestamp niosProfile rffeProfile
        port spdt requestToken) =
      ⟨module, timestamp, niosProfile, rffeProfile, niosPktRetune2Port module port, spdt,
        requestToken⟩ := by
  let time := Lib.leBytes 8 timestamp.toNat
  let profile := Lib.leBytes 2 niosProfile.toNat
  let route := [rffeProfile, niosPktRetune2Port module port, spdt]
  let token := Lib.leBytes 2 requestToken.toNat
  generalize hp : niosPktRetune2PackToken module timestamp niosProfile rffeProfile port spdt
    requestToken = p
  have hb : p.bytes = [niosPktRetune2Magic] ++ time ++ profile ++ route ++ token := by
    rw [← hp]
    rfl
  have hport : p.byte 12 = niosPktRetune2Port module port := by rw [← hp]; rfl
  have hmodule : (if p.flag 12 0x80 then BladerfModule.rx else .tx) = module := by
    rw [Packet.flag, hport]
    exact niosPktRetune2Port_module module port
  have htime : BitVec.ofNat 64 (p.field 1 8) = timestamp :=
    Packet.ofNat_field timestamp [niosPktRetune2Magic] (profile ++ route ++ token)
      (by rw [hb]; simp [time]) rfl (by decide)
  have hprofile : BitVec.ofNat 16 (p.field 9 2) = niosProfile :=
    Packet.ofNat_field niosProfile ([niosPktRetune2Magic] ++ time) (route ++ token)
      (by rw [hb]; simp [profile]) (by simp [time]) (by decide)
  have htoken : BitVec.ofNat 16 (p.field 14 2) = requestToken :=
    Packet.ofNat_field requestToken ([niosPktRetune2Magic] ++ time ++ profile ++ route) []
      (by rw [hb, List.append_nil]) (by simp [time, profile, route]) (by decide)
  rw [niosPktRetune2UnpackToken, hmodule, htime, hprofile, hport, htoken]
  rw [← hp]
  rfl

/-! ## Responses -/

def niosPktRetune2RespDuration (duration : BitVec 64) (flags : BitVec 8)
    (failure : NiosPktRetune2Failure) : BitVec 64 :=
  if failure ≠ .none ∧ flags &&& 0x02 = 0 then
    niosPktRetune2FailureDurationTag ||| BitVec.ofNat 64 failure.code
  else duration

section

variable (duration : BitVec 64) (flags : BitVec 8) (failure : NiosPktRetune2Failure)
  (requestToken : BitVec 16) (sessionGeneration : BitVec 32)

theorem niosPktRetune2RespPack_bytes :
    (niosPktRetune2RespPack duration flags failure requestToken sessionGeneration).bytes =
      [niosPktRetune2Magic]
        ++ Lib.leBytes 8 (niosPktRetune2RespDuration duration flags failure).toNat ++ [flags]
        ++ Lib.leBytes 2 requestToken.toNat
        ++ Lib.leBytes 4 (if requestToken ≠ 0 then sessionGeneration else 0).toNat := by
  rw [apply_ite BitVec.toNat]
  rfl

theorem niosPktRetune2RespPack_duration :
    BitVec.ofNat 64 ((niosPktRetune2RespPack duration flags failure requestToken
        sessionGeneration).field 1 8) = niosPktRetune2RespDuration duration flags failure :=
  Packet.ofNat_field _ [niosPktRetune2Magic]
    ([flags] ++ Lib.leBytes 2 requestToken.toNat
      ++ Lib.leBytes 4 (if requestToken ≠ 0 then sessionGeneration else 0).toNat)
    (by rw [niosPktRetune2RespPack_bytes]; simp) rfl (by decide)

theorem niosPktRetune2RespPack_token :
    niosPktRetune2RespToken (niosPktRetune2RespPack duration flags failure requestToken
      sessionGeneration) = requestToken :=
  Packet.ofNat_field _ ([niosPktRetune2Magic]
      ++ Lib.leBytes 8 (niosPktRetune2RespDuration duration flags failure).toNat ++ [flags])
    (Lib.leBytes 4 (if requestToken ≠ 0 then sessionGeneration else 0).toNat)
    (by rw [niosPktRetune2RespPack_bytes]) (by simp) (by decide)

theorem niosPktRetune2RespPack_sessionGeneration :
    niosPktRetune2RespSessionGeneration (niosPktRetune2RespPack duration flags failure
      requestToken sessionGeneration) = if requestToken ≠ 0 then sessionGeneration else 0 :=
  Packet.ofNat_field _ ([niosPktRetune2Magic]
      ++ Lib.leBytes 8 (niosPktRetune2RespDuration duration flags failure).toNat ++ [flags]
      ++ Lib.leBytes 2 requestToken.toNat) []
    (by rw [niosPktRetune2RespPack_bytes, List.append_nil]) (by simp) (by decide)

end

theorem niosPktRetune2_asyncBaseline (p : Packet) (successCount failureCount : BitVec 32) :
    niosPktRetune2RespGetAsyncBaseline
        (niosPktRetune2RespSetAsyncBaseline p successCount failureCount) =
      (successCount, failureCount) ∧
    (niosPktRetune2RespSetAsyncBaseline p successCount failureCount).bytes.drop 9 =
      p.bytes.drop 9 := by
  have hb : (niosPktRetune2RespSetAsyncBaseline p successCount failureCount).bytes =
      p.bytes.take 1 ++ Lib.leBytes 4 successCount.toNat ++ Lib.leBytes 4 failureCount.toNat
        ++ p.bytes.drop 9 := rfl
  refine ⟨Prod.ext ?_ ?_, ?_⟩
  · exact Packet.ofNat_field successCount (p.bytes.take 1)
      (Lib.leBytes 4 failureCount.toNat ++ p.bytes.drop 9) (by rw [hb]; simp)
      (by simp [p.length_eq]) (by decide)
  · exact Packet.ofNat_field failureCount (p.bytes.take 1 ++ Lib.leBytes 4 successCount.toNat)
      (p.bytes.drop 9) (by rw [hb]) (by simp [p.length_eq]) (by decide)
  · rw [hb]
    exact List.drop_left' (by simp [p.length_eq])

/-! ## Failure codes -/

/-- The duration carries the tag and a failure code that the host knows. -/
def CarriesFailure (duration : BitVec 64) : Prop :=
  duration &&& niosPktRetune2FailureDurationMask = niosPktRetune2FailureDurationTag ∧
    duration.setWidth 8 ≠ 0#8 ∧
    (duration.setWidth 8).toNat ≤ NiosPktRetune2Failure.rficContextUnavailable.code

theorem niosPktRetune2DurationFailure_eq_zero {duration : BitVec 64} :
    niosPktRetune2DurationFailure duration = 0 ↔ ¬CarriesFailure duration := by
  rw [niosPktRetune2DurationFailure, CarriesFailure]
  split
  · rename_i hne
    exact iff_of_true rfl fun h => hne h.1
  · rename_i htag
    have htag := not_not.mp htag
    by_cases hle : (duration.setWidth 8).toNat ≤ NiosPktRetune2Failure.rficContextUnavailable.code
    · rw [if_pos hle]
      exact ⟨fun hzero h => h.2.1 hzero, fun h => by_contra fun hne => h ⟨htag, hne, hle⟩⟩
    · rw [if_neg hle]
      exact iff_of_true rfl fun h => hle h.2.2

theorem not_carriesFailure_of_lt {duration : BitVec 64} (h : duration.toNat < 2 ^ 63) :
    ¬CarriesFailure duration := by
  rintro ⟨htag, -⟩
  have hbit := congrArg (fun x : BitVec 64 => x.getLsbD 63) htag
  have hlow : duration.getLsbD 63 = false := Nat.testBit_lt_two_pow h
  rw [BitVec.getLsbD_and, hlow] at hbit
  exact absurd hbit (by decide)

theorem niosPktRetune2DurationFailure_tagged {failure : NiosPktRetune2Failure} :
    niosPktRetune2DurationFailure
        (niosPktRetune2FailureDurationTag ||| BitVec.ofNat 64 failure.code) =
      BitVec.ofNat 8 failure.code ↔ failure ≠ .gainTable := by
  cases failure <;> decide

/-- A response that is read back as it was packed: the flags, the token, the
generation of a tokened request (the tail is zero without a token), the
duration unless a failure code takes its place, the failure code, and the
baselines that are put over the duration. -/
structure Retune2RespLossless (duration : BitVec 64) (flags : BitVec 8)
    (failure : NiosPktRetune2Failure) (requestToken : BitVec 16) (sessionGeneration : BitVec 32)
    (p : Packet) : Prop where
  unpackFlags : (niosPktRetune2RespUnpack p).2 = flags
  unpackToken : niosPktRetune2RespToken p = requestToken
  unpackSessionGeneration : niosPktRetune2RespSessionGeneration p =
    if requestToken ≠ 0 then sessionGeneration else 0
  unpackDuration : failure = .none ∨ flags &&& 0x02 ≠ 0 → (niosPktRetune2RespUnpack p).1 = duration
  failed : flags &&& 0x02 = 0 → niosPktRetune2RespFailure p = BitVec.ofNat 8 failure.code
  succeeded : flags &&& 0x02 ≠ 0 → duration.toNat < 2 ^ 63 →
    niosPktRetune2RespFailure p = BitVec.ofNat 8 NiosPktRetune2Failure.none.code
  baseline : ∀ successCount failureCount,
    niosPktRetune2RespGetAsyncBaseline
        (niosPktRetune2RespSetAsyncBaseline p successCount failureCount) =
      (successCount, failureCount) ∧
    (niosPktRetune2RespSetAsyncBaseline p successCount failureCount).bytes.drop 9 =
      p.bytes.drop 9

/-- Requests are read back.  A response is read back unless it reports failure
with the code `GAIN_TABLE`, or with no code and a duration that carries one. -/
theorem niosPktRetune2_lossless (duration : BitVec 64) (flags : BitVec 8)
    (failure : NiosPktRetune2Failure) (requestToken : BitVec 16) (sessionGeneration : BitVec 32) :
    (∀ (module : BladerfModule) (timestamp : BitVec 64) (niosProfile : BitVec 16)
        (rffeProfile port spdt : BitVec 8) (requestToken : BitVec 16),
      niosPktRetune2UnpackToken (niosPktRetune2PackToken module timestamp niosProfile
          rffeProfile port spdt requestToken) =
        ⟨module, timestamp, niosProfile, rffeProfile, niosPktRetune2Port module port, spdt,
          requestToken⟩) ∧
    (Retune2RespLossless duration flags failure requestToken sessionGeneration
        (niosPktRetune2RespPack duration flags failure requestToken sessionGeneration) ↔
      (flags &&& 0x02 = 0 →
        failure ≠ .gainTable ∧ (failure = .none → ¬CarriesFailure duration))) := by
  refine ⟨niosPktRetune2_unpack_pack, ?_⟩
  have hduration := niosPktRetune2RespPack_duration duration flags failure requestToken
    sessionGeneration
  have hfailure : niosPktRetune2RespFailure (niosPktRetune2RespPack duration flags failure
      requestToken sessionGeneration) =
      niosPktRetune2DurationFailure (niosPktRetune2RespDuration duration flags failure) := by
    rw [niosPktRetune2RespFailure, hduration]
  have hcode : flags &&& 0x02 = 0 →
      (niosPktRetune2DurationFailure (niosPktRetune2RespDuration duration flags failure) =
        BitVec.ofNat 8 failure.code ↔
      failure ≠ .gainTable ∧ (failure = .none → ¬CarriesFailure duration)) := by
    intro hflags
    by_cases hnone : failure = .none
    · subst hnone
      rw [niosPktRetune2RespDuration, if_neg fun h => h.1 rfl]
      exact niosPktRetune2DurationFailure_eq_zero.trans
        ⟨fun h => ⟨by decide, fun _ => h⟩, fun h => h.2 rfl⟩
    · rw [niosPktRetune2RespDuration, if_pos ⟨hnone, hflags⟩,
        niosPktRetune2DurationFailure_tagged]
      exact ⟨fun h => ⟨h, fun h0 => absurd h0 hnone⟩, fun h => h.1⟩
  constructor
  · intro h hflags
    exact (hcode hflags).mp (hfailure.symm.trans (h.failed hflags))
  · intro h
    refine {
      unpackFlags := rfl
      unpackToken := niosPktRetune2RespPack_token ..
      unpackSessionGeneration := niosPktRetune2RespPack_sessionGeneration ..
      unpackDuration := fun hkept => hduration.trans (if_neg fun hcond => ?_)
      failed := fun hflags => hfailure.trans ((hcode hflags).mpr (h hflags))
      succeeded := fun hflags hticks => ?_
      baseline := niosPktRetune2_asyncBaseline _ }
    · rcases hkept with hnone | hflags
      · exact hcond.1 hnone
      · exact hflags hcond.2
    · rw [hfailure, niosPktRetune2RespDuration, if_neg fun hcond => hflags hcond.2]
      exact niosPktRetune2DurationFailure_eq_zero.mpr (not_carriesFailure_of_lt hticks)

/-- The code that the enumeration ends with is read back as `NONE`. -/
theorem niosPktRetune2_gainTable_lost :
    ¬Retune2RespLossless 0 0 .gainTable 0 0 (niosPktRetune2RespPack 0 0 .gainTable 0 0) :=
  fun h => absurd (h.failed rfl) (by decide)

end BladeRF
