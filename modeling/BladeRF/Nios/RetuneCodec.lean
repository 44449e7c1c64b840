/-
# `Nios.RetuneCodec` — bladeRF1 retune packets from the host to the queue

The packer of `nios_pkt_retune.h` cuts `nint` to nine bits and `nfrac` to 23, and
puts flags over the two upper bits of `freqsel` and `vcocap`.  A request that has
room in the packet is read back as it was, and is queued as it was.
-/
import BladeRF.Lib.BitFields
import BladeRF.Nios.Retune2Codec
import BladeRF.Nios.RetuneScheduled

namespace BladeRF

/-- `FLAG_TX` or `FLAG_RX`; there is none for a module that should not occur. -/
def retuneModuleFlag : Option BladerfModule → BitVec 8
  | some .tx => 0x80
  | some .rx => 0x40
  | none => 0

/-- `FLAG_LOW_BAND` and `FLAG_QUICK_TUNE`. -/
def retuneBandFlags (lowBand quickTune : Bool) : BitVec 8 :=
  (if lowBand then 0x80 else 0) ||| (if quickTune then 0x40 else 0)

def niosPktRetunePack (r : RetuneRequest) : Packet :=
  ⟨[niosPktRetuneMagic] ++ Lib.leBytes 8 r.timestamp.toNat ++
    [(r.nint >>> 1).setWidth 8,
      ((r.nint &&& 1).setWidth 8 <<< 7) ||| ((r.nfrac >>> 16) &&& 0x7f).setWidth 8,
      (r.nfrac >>> 8).setWidth 8, r.nfrac.setWidth 8,
      r.freqsel ||| retuneModuleFlag r.module,
      retuneBandFlags r.lowBand r.quickTune ||| r.vcocap, r.xbGpio], by simp⟩

def RetuneRequest.Fits (r : RetuneRequest) : Prop :=
  r.nint.toNat < 2 ^ 9 ∧ r.nfrac.toNat < 2 ^ 23 ∧ r.freqsel.toNat < 2 ^ 6 ∧ r.vcocap.toNat < 2 ^ 6

/-- `nios_pkt_retune_resp_unpack`: duration, VCOCAP and flags. -/
def niosPktRetuneRespUnpack (p : Packet) : BitVec 64 × BitVec 8 × BitVec 8 :=
  (BitVec.ofNat 64 (p.field 1 8), p.byte 9, p.byte 10)

section

variable (r : RetuneRequest)

theorem retunePack_intfrac : ((niosPktRetunePack r).byte 10).toNat =
    r.nint.toNat % 2 * 2 ^ 7 + r.nfrac.toNat / 2 ^ 16 % 2 ^ 7 := by
  have hhigh : ((r.nint &&& 1).setWidth 8).toNat = r.nint.toNat % 2 := by
    rw [BitVec.toNat_setWidth, Lib.toNat_and_mask (k := 1) _ _ rfl]
    omega
  have hlow : (((r.nfrac >>> 16) &&& 0x7f).setWidth 8).toNat =
      r.nfrac.toNat / 2 ^ 16 % 2 ^ 7 := by
    rw [BitVec.toNat_setWidth, Lib.toNat_and_mask (k := 7) _ _ rfl, BitVec.toNat_ushiftRight,
      Nat.shiftRight_eq_div_pow]
    omega
  show (((r.nint &&& 1).setWidth 8 <<< 7) ||| ((r.nfrac >>> 16) &&& 0x7f).setWidth 8).toNat = _
  rw [Lib.toNat_shift_or (k := 7) (by omega) (by omega), hlow, hhigh]

theorem unpack_nint : (niosPktRetuneUnpack (niosPktRetunePack r)).nint.toNat =
    r.nint.toNat % 2 ^ 9 := by
  have h10 := retunePack_intfrac r
  have h9 : ((niosPktRetunePack r).byte 9).toNat = r.nint.toNat / 2 % 2 ^ 8 :=
    Lib.toNat_field r.nint 1 8
  show (((niosPktRetunePack r).byte 9).setWidth 16 <<< 1 |||
    ((niosPktRetunePack r).byte 10 >>> 7).setWidth 16).toNat = _
  rw [Lib.toNat_shift_or (k := 1) ?_ ?_, Lib.toNat_field, Lib.toNat_widen _ (by decide), h9, h10]
  · omega
  · rw [Lib.toNat_field]
    omega
  · rw [Lib.toNat_widen _ (by decide)]
    omega

theorem unpack_nfrac : (niosPktRetuneUnpack (niosPktRetunePack r)).nfrac.toNat =
    r.nfrac.toNat % 2 ^ 23 := by
  have h10 : ((niosPktRetunePack r).byte 10 &&& 0x7f).toNat = r.nfrac.toNat / 2 ^ 16 % 2 ^ 7 := by
    rw [Lib.toNat_and_mask (k := 7) _ _ rfl, retunePack_intfrac]
    omega
  have h11 : ((niosPktRetunePack r).byte 11).toNat = r.nfrac.toNat / 2 ^ 8 % 2 ^ 8 :=
    Lib.toNat_field r.nfrac 8 8
  have h12 : ((niosPktRetunePack r).byte 12).toNat = r.nfrac.toNat % 2 ^ 8 :=
    BitVec.toNat_setWidth 8 r.nfrac
  have hlow : (((niosPktRetunePack r).byte 11).setWidth 32 <<< 8 |||
      ((niosPktRetunePack r).byte 12).setWidth 32).toNat = r.nfrac.toNat % 2 ^ 16 := by
    rw [Lib.toNat_shift_or (k := 8)] <;>
      simp only [Lib.toNat_widen _ (show 8 ≤ 32 by decide), h11, h12]
    all_goals omega
  show (((niosPktRetunePack r).byte 10 &&& 0x7f).setWidth 32 <<< 16 |||
    ((niosPktRetunePack r).byte 11).setWidth 32 <<< 8 |||
    ((niosPktRetunePack r).byte 12).setWidth 32).toNat = _
  rw [BitVec.or_assoc, Lib.toNat_shift_or (k := 16), hlow, Lib.toNat_widen _ (by decide), h10]
  · omega
  · omega
  · rw [Lib.toNat_widen _ (by decide)]
    omega

end

theorem freqsel_read (module : Option BladerfModule) : ∀ f : BitVec 8,
    ((f ||| retuneModuleFlag module) &&& 0x3f = f ↔ f.toNat < 2 ^ 6) ∧
      (f.toNat < 2 ^ 6 → (if (f ||| retuneModuleFlag module) &&& 0x80 != 0 then some .tx
        else if (f ||| retuneModuleFlag module) &&& 0x40 != 0 then some .rx else none) =
          module) := by
  rcases module with _ | _ | _ <;> decide

theorem vcocap_read (lowBand quickTune : Bool) : ∀ v : BitVec 8,
    ((retuneBandFlags lowBand quickTune ||| v) &&& 0x3f = v ↔ v.toNat < 2 ^ 6) ∧
      (v.toNat < 2 ^ 6 →
        ((retuneBandFlags lowBand quickTune ||| v) &&& 0x80 != 0) = lowBand ∧
          ((retuneBandFlags lowBand quickTune ||| v) &&& 0x40 != 0) = quickTune) := by
  cases lowBand <;> cases quickTune <;> decide

theorem niosPktRetune_unpack_pack_iff (r : RetuneRequest) :
    niosPktRetuneUnpack (niosPktRetunePack r) = r ↔ r.Fits := by
  have hnint := unpack_nint r
  have hnfrac := unpack_nfrac r
  have htime : (niosPktRetuneUnpack (niosPktRetunePack r)).timestamp = r.timestamp :=
    Packet.ofNat_field r.timestamp [niosPktRetuneMagic] _
      (List.append_assoc [niosPktRetuneMagic] (Lib.leBytes 8 r.timestamp.toNat) _) rfl (by decide)
  obtain ⟨hfreqsel, hmodule⟩ := freqsel_read r.module r.freqsel
  obtain ⟨hvcocap, hband⟩ := vcocap_read r.lowBand r.quickTune r.vcocap
  have h13 : (niosPktRetunePack r).byte 13 = r.freqsel ||| retuneModuleFlag r.module := rfl
  have h14 : (niosPktRetunePack r).byte 14 =
      retuneBandFlags r.lowBand r.quickTune ||| r.vcocap := rfl
  have h15 : (niosPktRetunePack r).byte 15 = r.xbGpio := rfl
  rw [← h13] at hfreqsel hmodule
  rw [← h14] at hvcocap hband
  generalize niosPktRetunePack r = p at *
  constructor
  · intro h
    rw [h] at hnint hnfrac
    exact ⟨by omega, by omega, hfreqsel.mp (congrArg RetuneRequest.freqsel h),
      hvcocap.mp (congrArg RetuneRequest.vcocap h)⟩
  · rintro ⟨h1, h2, h3, h4⟩
    have hn := BitVec.eq_of_toNat_eq (hnint.trans (Nat.mod_eq_of_lt h1))
    have hf := BitVec.eq_of_toNat_eq (hnfrac.trans (Nat.mod_eq_of_lt h2))
    obtain ⟨hlow, hquick⟩ := hband h4
    cases r
    exact RetuneRequest.mk.injEq .. ▸ ⟨hmodule h3, htime, hn, hf, hfreqsel.mpr h3, hvcocap.mpr h4,
      hlow, h15, hquick⟩

/-- A request comes back if and only if it fits the packet, a response always. -/
theorem nios_pkt_retune_lossless :
    (∀ r : RetuneRequest, niosPktRetuneUnpack (niosPktRetunePack r) = r ↔ r.Fits) ∧
    ∀ (duration : BitVec 64) (vcocap flags : BitVec 8),
      niosPktRetuneRespUnpack (niosPktRetuneRespPack duration vcocap flags) =
        (duration, vcocap, flags) := by
  refine ⟨niosPktRetune_unpack_pack_iff, fun duration vcocap flags => ?_⟩
  have hduration := Packet.ofNat_field (p := niosPktRetuneRespPack duration vcocap flags)
    duration [niosPktRetuneMagic] [vcocap, flags, 0, 0, 0, 0, 0] rfl rfl (by decide)
  exact congrArg (·, vcocap, flags) hduration

/-! ## The queue -/

namespace Retune

def QueueEntry.Queued (e : QueueEntry) (a : Accepted) : Prop :=
  ∀ r : RetuneRequest, r.Fits → a.packet = niosPktRetunePack r →
    e.freq = r.lmsFreq a.stack ∧ e.timestamp = r.timestamp

/-- In every run the queue of a module holds the requests that were accepted for
it and have not left it, oldest first, each with the words and the time that the
host packed. -/
theorem retune_queue_in_order {σ : Type} (b : LmsBoard σ) {s : Run σ} (hstart : s.Start)
    (events : List Event) (module : BladerfModule) :
    List.Forall₂ QueueEntry.Queued ((events.foldl (Run.step b) s).queues module).ring.items
        ((events.foldl (Run.step b) s).owed module) ∧
      (∀ a ∈ (events.foldl (Run.step b) s).owed module,
        a.request.module = some module ∧ a.request.scheduled = true) ∧
      ((events.foldl (Run.step b) s).owed module).length ≤ retuneQueueMax := by
  obtain ⟨hcarries, hown⟩ := (hstart.inv.run b events) module
  generalize events.foldl (Run.step b) s = t at hcarries hown
  have hlength : (t.queues module).ring.count = (t.owed module).length := by
    rw [← (t.queues module).ring.length_items, hcarries.length_eq]
  refine ⟨hcarries.imp ?_, hown, hlength ▸ (t.queues module).ring.count_le⟩
  rintro e a ⟨hfreq, htime⟩ r hfits hpacket
  have hrequest : a.request = r := by
    rw [Accepted.request, hpacket]
    exact (niosPktRetune_unpack_pack_iff r).mpr hfits
  exact ⟨hrequest ▸ hfreq, hrequest ▸ htime⟩

def tick2000 : RetuneRequest where
  module := some .rx
  timestamp := 2000
  nint := 0x17d
  nfrac := 0x7fffff
  freqsel := 0x25
  vcocap := 0x1c
  lowBand := true
  xbGpio := 0
  quickTune := true

def tick3000 : RetuneRequest := { tick2000 with timestamp := 3000, nint := 0x17e }

def twoTicks : List Event :=
  [.packet clearCall (niosPktRetunePack tick2000), .packet clearCall (niosPktRetunePack tick3000)]

/-- Two requests for one module wait in the order of their packets. -/
theorem retune_queue_in_order_two :
    ∃ e e', ((twoTicks.foldl (Run.step (recordingBoard true)) booted).queues .rx).ring.items =
        [e, e'] ∧
      (e.freq = tick2000.lmsFreq 0 ∧ e.timestamp = 2000) ∧
      e'.freq = tick3000.lmsFreq 0 ∧ e'.timestamp = 3000 := by
  obtain ⟨hqueued, -, -⟩ :=
    retune_queue_in_order (recordingBoard true) booted_start twoTicks .rx
  have htwo : (twoTicks.foldl (Run.step (recordingBoard true)) booted).owed .rx =
      [⟨niosPktRetunePack tick2000, 0⟩, ⟨niosPktRetunePack tick3000, 0⟩] := by
    rfl
  rw [htwo] at hqueued
  obtain ⟨e, rest, he, hrest, hitems⟩ := List.forall₂_cons_right_iff.mp hqueued
  obtain ⟨e', rest', he', hrest', rfl⟩ := List.forall₂_cons_right_iff.mp hrest
  obtain rfl := List.forall₂_nil_right_iff.mp hrest'
  exact ⟨e, e', hitems, he tick2000 (by unfold RetuneRequest.Fits; decide) rfl,
    he' tick3000 (by unfold RetuneRequest.Fits; decide) rfl⟩

end Retune

end BladeRF
