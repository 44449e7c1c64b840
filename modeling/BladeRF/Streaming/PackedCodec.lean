/-
# `Streaming.PackedCodec` — samples in three bytes

`BLADERF_FORMAT_SC16_Q11_PACKED` puts the low twelve bits of I and Q into three
bytes.  `sync_tx` packs what a call brings behind what the buffer holds already,
and `sync_rx` unpacks what a call asks for from where the last one stopped, so
the calls of the two sides cut the stream at places of their own.  Neither the
calls nor the buffers are seen in what is read back.
-/
import BladeRF.Lib.CString
import Mathlib.Algebra.BigOperators.Group.List.Basic
import Mathlib.Tactic.IntervalCases

namespace BladeRF

open Lib (Memory bytesAt writeBytes)

/-- A pair of `int16_t`. -/
structure IqSample where
  i : BitVec 16
  q : BitVec 16

/-! ## The codec -/

/-- The three bytes of `packed_sample`. -/
def IqSample.pack (s : IqSample) : List (BitVec 8) :=
  let iSample := s.i &&& 0x0fff
  let qSample := s.q &&& 0x0fff
  [iSample.setWidth 8, ((iSample >>> 8) ||| ((qSample &&& 0x0f) <<< 4)).setWidth 8,
    (qSample >>> 4).setWidth 8]

/-- `(int16_t)((raw ^ 0x0800) - 0x0800)`, in `int`. -/
def signExtendRaw (raw : BitVec 16) : BitVec 16 :=
  ((raw.setWidth 32 ^^^ 0x0800) - 0x0800).setWidth 16

def unpackBytes (b0 b1 b2 : BitVec 8) : IqSample :=
  let iRaw : BitVec 16 := b0.setWidth 16 ||| ((b1 &&& 0x0f).setWidth 16 <<< 8)
  let qRaw : BitVec 16 := (b1 >>> 4).setWidth 16 ||| (b2.setWidth 16 <<< 4)
  ⟨signExtendRaw iRaw, signExtendRaw qRaw⟩

/-- `sc16q11_pack_samples`: the loop over the samples of `src`. -/
def sc16q11PackSamples : List IqSample → ℕ → Memory → Memory
  | [], _, m => m
  | s :: src, dst, m => sc16q11PackSamples src (dst + 3) (writeBytes m dst s.pack)

/-- `sc16q11_unpack_samples`: the loop over `n_samples`. -/
def sc16q11UnpackSamples (m : Memory) : ℕ → ℕ → List IqSample
  | _, 0 => []
  | src, n + 1 =>
      unpackBytes (m src) (m (src + 1)) (m (src + 2)) :: sc16q11UnpackSamples m (src + 3) n

/-- `samples2bytes`, with the `bytes_per_sample` of the packed format. -/
def packedBytes (n : ℕ) : ℕ := 3 * n

def IqSample.low12 (s : IqSample) : IqSample :=
  ⟨(s.i.setWidth 12).signExtend 16, (s.q.setWidth 12).signExtend 16⟩

/-- Both components are in `[-2048, 2047]`. -/
def IqSample.InRange (s : IqSample) : Prop :=
  (-2048 ≤ s.i.toInt ∧ s.i.toInt ≤ 2047) ∧ (-2048 ≤ s.q.toInt ∧ s.q.toInt ≤ 2047)

theorem length_pack (s : IqSample) : s.pack.length = 3 := rfl

theorem signExtendRaw_setWidth (x : BitVec 12) :
    signExtendRaw (x.setWidth 16) = x.signExtend 16 := by
  revert x
  decide +kernel

theorem iRaw_pack (x y : BitVec 16) :
    ((x &&& 0x0fff).setWidth 8 : BitVec 8).setWidth 16 |||
        (((((x &&& 0x0fff) >>> 8) ||| ((y &&& 0x0fff &&& 0x0f) <<< 4)).setWidth 8 : BitVec 8)
          &&& 0x0f).setWidth 16 <<< 8 = (x.setWidth 12).setWidth 16 := by
  ext i hi
  simp only [BitVec.getElem_or, BitVec.getElem_setWidth, BitVec.getLsbD_and,
    BitVec.getElem_shiftLeft, BitVec.getLsbD_setWidth, BitVec.getLsbD_or,
    BitVec.getLsbD_ushiftRight, BitVec.getLsbD_shiftLeft]
  interval_cases i <;> simp

theorem qRaw_pack (x y : BitVec 16) :
    (((((x &&& 0x0fff) >>> 8) ||| ((y &&& 0x0fff &&& 0x0f) <<< 4)).setWidth 8 : BitVec 8)
          >>> 4).setWidth 16 |||
        ((((y &&& 0x0fff) >>> 4).setWidth 8 : BitVec 8).setWidth 16 <<< 4) =
      (y.setWidth 12).setWidth 16 := by
  ext i hi
  simp only [BitVec.getElem_or, BitVec.getElem_setWidth, BitVec.getLsbD_and,
    BitVec.getElem_shiftLeft, BitVec.getLsbD_setWidth, BitVec.getLsbD_or,
    BitVec.getLsbD_ushiftRight, BitVec.getLsbD_shiftLeft]
  interval_cases i <;> simp

theorem signExtend_setWidth_of_range {x : BitVec 16} (hlow : -2048 ≤ x.toInt)
    (hhigh : x.toInt ≤ 2047) : (x.setWidth 12).signExtend 16 = x := by
  apply BitVec.eq_of_toInt_eq
  rw [BitVec.toInt_signExtend, BitVec.toInt_setWidth]
  rw [BitVec.toInt_eq_toNat_cond] at hlow hhigh ⊢
  have hpow : ((2 ^ 12 : ℕ) : ℤ) = 4096 := rfl
  rw [show min 16 12 = 12 from rfl]
  simp only [Int.bmod, hpow]
  split at hlow <;> split <;> split <;> omega

theorem low12_of_inRange {s : IqSample} (h : s.InRange) : s.low12 = s := by
  rw [IqSample.low12, signExtend_setWidth_of_range h.1.1 h.1.2,
    signExtend_setWidth_of_range h.2.1 h.2.2]

/-! ### On lists of bytes -/

def decode : List (BitVec 8) → List IqSample
  | b0 :: b1 :: b2 :: rest => unpackBytes b0 b1 b2 :: decode rest
  | _ => []

theorem decode_pack (src : List IqSample) :
    decode (src.flatMap IqSample.pack) = src.map IqSample.low12 := by
  induction src with
  | nil => rfl
  | cons s src ih =>
      rw [List.flatMap_cons, List.map_cons, ← ih]
      show unpackBytes _ _ _ :: decode (src.flatMap IqSample.pack) = _
      rw [unpackBytes, iRaw_pack, qRaw_pack, signExtendRaw_setWidth, signExtendRaw_setWidth]
      rfl

theorem length_pack_flatMap (src : List IqSample) :
    (src.flatMap IqSample.pack).length = 3 * src.length := by
  induction src with
  | nil => rfl
  | cons s src ih =>
      rw [List.flatMap_cons, List.length_append, ih, List.length_cons]
      show 3 + 3 * src.length = 3 * (src.length + 1)
      omega

theorem flatMap_pack_take (src : List IqSample) (n : ℕ) :
    (src.flatMap IqSample.pack).take (3 * n) = (src.take n).flatMap IqSample.pack := by
  induction src generalizing n with
  | nil => simp
  | cons s src ih =>
      cases n with
      | zero => rfl
      | succ n =>
          rw [List.flatMap_cons, List.take_succ_cons, List.flatMap_cons, ← ih n]
          rw [List.take_append, List.take_of_length_le (by rw [length_pack]; omega), length_pack,
            show 3 * (n + 1) - 3 = 3 * n by omega]

theorem decode_append {l l' : List (BitVec 8)} {n : ℕ} (h : l.length = 3 * n) :
    decode (l ++ l') = decode l ++ decode l' := by
  induction n generalizing l with
  | zero =>
      obtain rfl := List.eq_nil_of_length_eq_zero h
      rfl
  | succ n ih =>
      match l, h with
      | b0 :: b1 :: b2 :: l, h =>
          have hl : l.length = 3 * n := by
            simp only [List.length_cons] at h
            omega
          show _ :: decode (l ++ l') = _ :: (decode l ++ decode l')
          rw [ih hl]

theorem sc16q11UnpackSamples_eq (m : Memory) (src n : ℕ) :
    sc16q11UnpackSamples m src n = decode (bytesAt m src (3 * n)) := by
  induction n generalizing src with
  | zero => rfl
  | succ n ih =>
      have hbytes : bytesAt m src (3 * (n + 1)) =
          m src :: m (src + 1) :: m (src + 2) :: bytesAt m (src + 3) (3 * n) := by
        rw [show 3 * (n + 1) = 3 + 3 * n by omega, Lib.bytesAt_add]
        rfl
      rw [sc16q11UnpackSamples, hbytes, decode, ih]

theorem sc16q11PackSamples_eq (src : List IqSample) (dst : ℕ) (m : Memory) :
    sc16q11PackSamples src dst m = writeBytes m dst (src.flatMap IqSample.pack) := by
  induction src generalizing dst m with
  | nil =>
      funext i
      simp [sc16q11PackSamples, writeBytes]
  | cons s src ih =>
      rw [sc16q11PackSamples, ih, List.flatMap_cons, ← Lib.writeBytes_append]
      rfl

/-! ## The calls -/

/-- `sync->state`, as far as samples move: `waiting` stands for the states in
which the next buffer is not ready. -/
inductive PackedState where
  | waiting
  | bufferReady
  | usingBuffer
deriving DecidableEq

def PackedState.distance : PackedState → ℕ
  | .waiting => 2
  | .bufferReady => 1
  | .usingBuffer => 0

theorem PackedState.distance_le (p : PackedState) : p.distance ≤ 2 := by
  cases p <;> decide

/-- The TX side: the memory of the ring buffers, where the next sample goes, and
what the buffers held that were submitted, oldest first. -/
structure PackedTx where
  buffers : ℕ → Memory
  prodI : ℕ
  partialOff : ℕ
  state : PackedState
  submitted : List (List (BitVec 8))

namespace PackedTx

/-- `sync_config`: the size of a buffer, and of the ring.  `empty i` says whether
the buffer after the `i`-th submission is free at once. -/
structure Config where
  samplesPerBuffer : ℕ
  numBuffers : ℕ
  empty : ℕ → Bool

variable (cfg : Config)

def samplesToCopy (s : PackedTx) (rest : List IqSample) : ℕ :=
  min rest.length (cfg.samplesPerBuffer - s.partialOff)

def copy (s : PackedTx) (rest : List IqSample) : PackedTx :=
  let n := s.samplesToCopy cfg rest
  { s with
    buffers := Function.update s.buffers s.prodI
      (sc16q11PackSamples (rest.take n) (packedBytes s.partialOff) (s.buffers s.prodI))
    partialOff := s.partialOff + n }

/-- `advance_tx_buffer`, of a submission that is accepted or deferred. -/
def advance (s : PackedTx) : PackedTx :=
  { s with
    submitted := s.submitted ++
      [bytesAt (s.buffers s.prodI) 0 (packedBytes cfg.samplesPerBuffer)]
    prodI := (s.prodI + 1) % cfg.numBuffers
    state := if cfg.empty s.submitted.length then .bufferReady else .waiting }

/-- One turn of the loop of `sync_tx`, with the samples of the call that are left. -/
def turn (s : PackedTx) (rest : List IqSample) : PackedTx × List IqSample :=
  match s.state with
  | .waiting => ({ s with state := .bufferReady }, rest)
  | .bufferReady => ({ s with state := .usingBuffer, partialOff := 0 }, rest)
  | .usingBuffer =>
      let s' := s.copy cfg rest
      (if cfg.samplesPerBuffer ≤ s'.partialOff then s'.advance cfg else s',
        rest.drop (s.samplesToCopy cfg rest))

def loop : ℕ → PackedTx → List IqSample → PackedTx × List IqSample
  | 0, s, rest => (s, rest)
  | fuel + 1, s, rest =>
      if rest = [] then (s, [])
      else loop fuel (s.turn cfg rest).1 (s.turn cfg rest).2

def syncTx (s : PackedTx) (samples : List IqSample) : PackedTx :=
  (loop cfg (3 * samples.length) s samples).1

end PackedTx

/-- The RX side: what the ring buffers hold that are full, from `cons_i` on, and
where the next sample is. -/
structure PackedRx where
  full : List Memory
  partialOff : ℕ
  state : PackedState

namespace PackedRx

variable (samplesPerBuffer : ℕ)

/-- One turn of the loop of `sync_rx`, with what the call still wants. -/
def turn (s : PackedRx) (left : ℕ) : PackedRx × List IqSample :=
  match s.state with
  | .waiting => (if s.full = [] then s else { s with state := .bufferReady }, [])
  | .bufferReady => ({ s with state := .usingBuffer, partialOff := 0 }, [])
  | .usingBuffer =>
      match s.full with
      | [] => (s, [])
      | m :: full =>
          let n := min left (samplesPerBuffer - s.partialOff)
          let samples := sc16q11UnpackSamples m (packedBytes s.partialOff) n
          let s := { s with partialOff := s.partialOff + n }
          (if samplesPerBuffer ≤ s.partialOff then { s with full := full, state := .waiting }
            else s, samples)

def loop : ℕ → PackedRx → ℕ → PackedRx × List IqSample
  | 0, s, _ => (s, [])
  | fuel + 1, s, left =>
      if left = 0 then (s, [])
      else
        let r := s.turn samplesPerBuffer left
        let r' := loop fuel r.1 (left - r.2.length)
        (r'.1, r.2 ++ r'.2)

def syncRx (s : PackedRx) (numSamples : ℕ) : PackedRx × List IqSample :=
  loop samplesPerBuffer (3 * numSamples) s numSamples

def reads : PackedRx → List ℕ → List (List IqSample)
  | _, [] => []
  | s, n :: counts =>
      (s.syncRx samplesPerBuffer n).2 :: reads (s.syncRx samplesPerBuffer n).1 counts

end PackedRx

/-! ## What the TX side has written -/

namespace PackedTx

variable {cfg : Config} {s : PackedTx} {rest sent : List IqSample}

def filled (s : PackedTx) : ℕ := if s.state = .usingBuffer then s.partialOff else 0

def Room (cfg : Config) (s : PackedTx) : Prop :=
  s.state = .usingBuffer → s.partialOff < cfg.samplesPerBuffer

/-- What the buffers hold that were submitted, and the one that is filled. -/
def written (s : PackedTx) : List (BitVec 8) :=
  s.submitted.flatten ++ bytesAt (s.buffers s.prodI) 0 (packedBytes s.filled)

def Carries (s : PackedTx) (samples : List IqSample) : Prop :=
  s.written = samples.flatMap IqSample.pack

theorem advance_state (cfg : Config) (s : PackedTx) :
    (s.advance cfg).state = .bufferReady ∨ (s.advance cfg).state = .waiting := by
  simp only [PackedTx.advance]
  split
  · exact .inl rfl
  · exact .inr rfl

theorem advance_not_using (s : PackedTx) : (s.advance cfg).state ≠ .usingBuffer := by
  rcases advance_state cfg s with h | h <;> rw [h] <;> decide

theorem room_turn (hsize : 0 < cfg.samplesPerBuffer) (s : PackedTx) (rest : List IqSample) :
    (s.turn cfg rest).1.Room cfg := by
  unfold PackedTx.turn
  cases hstate : s.state with
  | waiting => exact fun h => by cases h
  | bufferReady => exact fun _ => hsize
  | usingBuffer =>
      dsimp only
      split
      · exact fun hnext => absurd hnext (advance_not_using _)
      · rename_i hroom
        exact fun _ => Nat.lt_of_not_le hroom

theorem samplesToCopy_le : s.samplesToCopy cfg rest ≤ rest.length := Nat.min_le_left _ _

theorem turn_progress (h : s.Room cfg) (hrest : rest ≠ []) :
    3 * (s.turn cfg rest).2.length + (s.turn cfg rest).1.state.distance <
      3 * rest.length + s.state.distance := by
  have hdist := (s.turn cfg rest).1.state.distance_le
  cases hstate : s.state with
  | waiting =>
      simp only [PackedTx.turn, hstate]
      exact Nat.lt_succ_self _
  | bufferReady =>
      simp only [PackedTx.turn, hstate]
      exact Nat.lt_succ_self _
  | usingBuffer =>
      have hroom := h hstate
      have hlen := List.length_pos_iff.mpr hrest
      have hmoved : 0 < s.samplesToCopy cfg rest := by
        rw [samplesToCopy]
        omega
      have hleft : (s.turn cfg rest).2.length = rest.length - s.samplesToCopy cfg rest := by
        simp only [PackedTx.turn, hstate]
        exact List.length_drop
      have hle : s.samplesToCopy cfg rest ≤ rest.length := samplesToCopy_le
      omega

theorem loop_rest (hsize : 0 < cfg.samplesPerBuffer) {fuel : ℕ} (h : s.Room cfg)
    (hfuel : 3 * rest.length + s.state.distance ≤ fuel + 2) :
    (loop cfg fuel s rest).2 = [] := by
  induction fuel generalizing s rest with
  | zero =>
      obtain rfl : rest = [] := List.eq_nil_of_length_eq_zero (by omega)
      rfl
  | succ fuel ih =>
      unfold loop
      split
      · rfl
      · rename_i hrest
        have hprogress := turn_progress h hrest
        exact ih (room_turn hsize s rest) (by omega)

theorem bytesAt_pack (m : Memory) (off : ℕ) (src : List IqSample) :
    bytesAt (sc16q11PackSamples src (packedBytes off) m) 0 (packedBytes (off + src.length)) =
      bytesAt m 0 (packedBytes off) ++ src.flatMap IqSample.pack := by
  have hlen := length_pack_flatMap src
  have hsplit : packedBytes (off + src.length) =
      packedBytes off + (src.flatMap IqSample.pack).length := by
    rw [hlen]
    exact Nat.mul_add 3 off src.length
  rw [hsplit, Lib.bytesAt_add, Nat.zero_add, sc16q11PackSamples_eq, Lib.bytesAt_writeBytes]
  congr 1
  exact Lib.bytesAt_congr fun i _ hi => Lib.writeBytes_lt (by omega)

theorem copy_bytes (s : PackedTx) (rest : List IqSample) :
    bytesAt ((s.copy cfg rest).buffers s.prodI) 0 (packedBytes (s.copy cfg rest).partialOff) =
      bytesAt (s.buffers s.prodI) 0 (packedBytes s.partialOff) ++
        (rest.take (s.samplesToCopy cfg rest)).flatMap IqSample.pack := by
  have hcopied : (rest.take (s.samplesToCopy cfg rest)).length = s.samplesToCopy cfg rest := by
    rw [List.length_take, Nat.min_eq_left samplesToCopy_le]
  have hbytes := bytesAt_pack (s.buffers s.prodI) s.partialOff
    (rest.take (s.samplesToCopy cfg rest))
  rw [hcopied] at hbytes
  rw [← hbytes]
  simp only [copy, Function.update_self]

theorem Carries.advance (hfull : s.partialOff = cfg.samplesPerBuffer)
    (hstate : s.state = .usingBuffer) (hc : s.Carries sent) :
    (s.advance cfg).Carries sent := by
  have hnone : (s.advance cfg).filled = 0 := if_neg (advance_not_using s)
  have hfilled : s.filled = cfg.samplesPerBuffer := (if_pos hstate).trans hfull
  unfold Carries written at hc ⊢
  rw [hfilled] at hc
  rw [hnone, ← hc]
  simp only [PackedTx.advance, List.flatten_append, List.append_assoc]
  simp [packedBytes, bytesAt]

theorem Carries.turn (hc : s.Carries sent) (h : s.Room cfg) :
    ∃ copied, rest = copied ++ (s.turn cfg rest).2 ∧
      (s.turn cfg rest).1.Carries (sent ++ copied) := by
  unfold PackedTx.turn
  cases hstate : s.state with
  | waiting =>
      refine ⟨[], rfl, ?_⟩
      rw [List.append_nil]
      simpa [Carries, written, filled, hstate] using hc
  | bufferReady =>
      refine ⟨[], rfl, ?_⟩
      rw [List.append_nil]
      simpa [Carries, written, filled, hstate] using hc
  | usingBuffer =>
      have hroom := h hstate
      have hfilled : s.filled = s.partialOff := if_pos hstate
      have hcopy : (s.copy cfg rest).Carries
          (sent ++ rest.take (s.samplesToCopy cfg rest)) := by
        have hfilled' : (s.copy cfg rest).filled = (s.copy cfg rest).partialOff := if_pos hstate
        unfold Carries written at hc ⊢
        rw [hfilled] at hc
        rw [hfilled', List.flatMap_append, ← hc, List.append_assoc, ← copy_bytes]
        rfl
      refine ⟨rest.take (s.samplesToCopy cfg rest), (List.take_append_drop _ rest).symm, ?_⟩
      dsimp only
      split
      · rename_i hfull
        have hle : s.samplesToCopy cfg rest ≤ cfg.samplesPerBuffer - s.partialOff :=
          Nat.min_le_right _ _
        have hsize : (s.copy cfg rest).partialOff = cfg.samplesPerBuffer := by
          refine Nat.le_antisymm ?_ hfull
          show s.partialOff + s.samplesToCopy cfg rest ≤ _
          omega
        exact hcopy.advance hsize hstate
      · exact hcopy

theorem Carries.loop (hsize : 0 < cfg.samplesPerBuffer) (hc : s.Carries sent)
    (h : s.Room cfg) (fuel : ℕ) (rest : List IqSample) :
    ∃ copied, rest = copied ++ (loop cfg fuel s rest).2 ∧
      (PackedTx.loop cfg fuel s rest).1.Carries (sent ++ copied) ∧
      (PackedTx.loop cfg fuel s rest).1.Room cfg := by
  induction fuel generalizing s rest sent with
  | zero => exact ⟨[], rfl, (List.append_nil sent).symm ▸ hc, h⟩
  | succ fuel ih =>
      unfold PackedTx.loop
      split
      · rename_i hrest
        exact ⟨[], hrest, (List.append_nil sent).symm ▸ hc, h⟩
      · obtain ⟨copied, hcopied, hturn⟩ := hc.turn h
        obtain ⟨copied', hcopied', hloop⟩ := ih hturn (room_turn hsize s rest) _
        refine ⟨copied ++ copied', ?_, ?_⟩
        · rw [List.append_assoc, ← hcopied', ← hcopied]
        · rw [← List.append_assoc]
          exact hloop

theorem Carries.syncTx (hsize : 0 < cfg.samplesPerBuffer) (hc : s.Carries sent)
    (h : s.Room cfg) (samples : List IqSample) :
    (s.syncTx cfg samples).Carries (sent ++ samples) ∧ (s.syncTx cfg samples).Room cfg := by
  have hdone : (PackedTx.loop cfg (3 * samples.length) s samples).2 = [] :=
    loop_rest hsize h (Nat.add_le_add_left s.state.distance_le _)
  obtain ⟨copied, hcopied, hloop⟩ := hc.loop hsize h (3 * samples.length) samples
  rw [hdone, List.append_nil] at hcopied
  exact hcopied ▸ hloop

theorem Carries.calls (hsize : 0 < cfg.samplesPerBuffer) (hc : s.Carries sent)
    (h : s.Room cfg) (chunks : List (List IqSample)) :
    (chunks.foldl (PackedTx.syncTx cfg) s).Carries (sent ++ chunks.flatten) := by
  induction chunks generalizing s sent with
  | nil => exact (List.append_nil sent).symm ▸ hc
  | cons samples chunks ih =>
      obtain ⟨hcarries, hroom⟩ := hc.syncTx hsize h samples
      rw [List.flatten_cons, ← List.append_assoc]
      exact ih hcarries hroom

end PackedTx

/-! ## What the RX side returns -/

namespace PackedRx

variable {samplesPerBuffer : ℕ} {s : PackedRx} {left : ℕ}

/-- How much of the buffer at `cons_i` was returned. -/
def used (s : PackedRx) : ℕ := if s.state = .usingBuffer then s.partialOff else 0

def stream (samplesPerBuffer : ℕ) (s : PackedRx) : List (BitVec 8) :=
  (s.full.flatMap (bytesAt · 0 (packedBytes samplesPerBuffer))).drop (packedBytes s.used)

structure Ready (samplesPerBuffer : ℕ) (s : PackedRx) : Prop where
  there : s.state ≠ .waiting → s.full ≠ []
  room : s.state = .usingBuffer → s.partialOff < samplesPerBuffer

theorem length_unpack (m : Memory) (src n : ℕ) : (sc16q11UnpackSamples m src n).length = n := by
  induction n generalizing src with
  | zero => rfl
  | succ n ih => rw [sc16q11UnpackSamples, List.length_cons, ih]

/-- What a turn of the loop comes to: the sample count, the beginning of the
stream decoded, and the rest of it. -/
structure Turned (samplesPerBuffer : ℕ) (s s' : PackedRx) (samples : List IqSample) : Prop where
  decoded : samples =
    decode ((s.stream samplesPerBuffer).take (packedBytes samples.length))
  rest : s'.stream samplesPerBuffer =
    (s.stream samplesPerBuffer).drop (packedBytes samples.length)

theorem Turned.idle {s' : PackedRx} (hfull : s'.full = s.full) (hused : s'.used = s.used) :
    Turned samplesPerBuffer s s' [] where
  decoded := rfl
  rest := by
    unfold stream
    rw [hfull, hused]
    rfl

theorem turn_using {m : Memory} {full : List Memory} (hstate : s.state = .usingBuffer)
    (hfull : s.full = m :: full) (hroom : s.partialOff < samplesPerBuffer) :
    Turned samplesPerBuffer s (s.turn samplesPerBuffer left).1
      (s.turn samplesPerBuffer left).2 := by
  let n := min left (samplesPerBuffer - s.partialOff)
  have hn : s.partialOff + n ≤ samplesPerBuffer := by
    have hle : n ≤ samplesPerBuffer - s.partialOff := Nat.min_le_right _ _
    omega
  have hused : s.used = s.partialOff := if_pos hstate
  have hout : (s.turn samplesPerBuffer left).2 =
      sc16q11UnpackSamples m (packedBytes s.partialOff) n := by
    simp only [turn, hstate, hfull]
    rfl
  have hlen : (s.turn samplesPerBuffer left).2.length = n := by rw [hout, length_unpack]
  have hstream : s.stream samplesPerBuffer =
      bytesAt m (packedBytes s.partialOff) (packedBytes (samplesPerBuffer - s.partialOff)) ++
        full.flatMap (bytesAt · 0 (packedBytes samplesPerBuffer)) := by
    have hsplit : packedBytes samplesPerBuffer =
        packedBytes s.partialOff + packedBytes (samplesPerBuffer - s.partialOff) := by
      unfold packedBytes
      omega
    rw [stream, hused, hfull, List.flatMap_cons, hsplit, Lib.bytesAt_add, List.append_assoc,
      List.drop_left' (Lib.length_bytesAt _ _ _), Nat.zero_add]
  refine ⟨?_, ?_⟩
  · have hle : packedBytes n ≤ packedBytes (samplesPerBuffer - s.partialOff) := by
      unfold packedBytes
      omega
    rw [hlen, hout, sc16q11UnpackSamples_eq, hstream,
      List.take_append_of_le_length (by rw [Lib.length_bytesAt]; exact hle),
      ← Lib.bytesAt_take _ _ hle]
    rfl
  · rw [hlen]
    rcases Nat.lt_or_ge (s.partialOff + n) samplesPerBuffer with hpartial | hdone
    · have hnext : (s.turn samplesPerBuffer left).1 =
          { s with partialOff := s.partialOff + n } := by
        simp only [turn, hstate, hfull]
        exact if_neg (Nat.not_le.mpr hpartial)
      have hused' : (s.turn samplesPerBuffer left).1.used = s.partialOff + n := by
        rw [hnext]
        exact if_pos hstate
      have hbytes : packedBytes (s.partialOff + n) = packedBytes s.partialOff + packedBytes n :=
        Nat.mul_add 3 _ _
      rw [stream, hused', hnext, stream, hused, List.drop_drop, hbytes]
    · have hsize : n = samplesPerBuffer - s.partialOff := by omega
      have hnext : (s.turn samplesPerBuffer left).1 =
          { s with full := full, partialOff := s.partialOff + n, state := .waiting } := by
        simp only [turn, hstate, hfull]
        exact if_pos hdone
      rw [hstream, hsize, List.drop_left' (Lib.length_bytesAt _ _ _), hnext]
      rfl

theorem turn_turned (h : s.Ready samplesPerBuffer) :
    Turned samplesPerBuffer s (s.turn samplesPerBuffer left).1
      (s.turn samplesPerBuffer left).2 := by
  cases hstate : s.state with
  | waiting =>
      simp only [turn, hstate]
      split
      · exact .idle rfl rfl
      · exact .idle rfl (by simp [used, hstate])
  | bufferReady =>
      simp only [turn, hstate]
      exact .idle rfl (by simp [used, hstate])
  | usingBuffer =>
      obtain ⟨m, full, hfull⟩ := List.exists_cons_of_ne_nil (h.there (by rw [hstate]; decide))
      exact turn_using hstate hfull (h.room hstate)

theorem ready_turn (hsize : 0 < samplesPerBuffer) (h : s.Ready samplesPerBuffer) :
    (s.turn samplesPerBuffer left).1.Ready samplesPerBuffer := by
  cases hstate : s.state with
  | waiting =>
      simp only [turn, hstate]
      split
      · exact h
      · rename_i hfull
        exact ⟨fun _ => hfull, fun h => by cases h⟩
  | bufferReady =>
      simp only [turn, hstate]
      exact ⟨fun _ => h.there (by rw [hstate]; decide), fun _ => hsize⟩
  | usingBuffer =>
      obtain ⟨m, full, hfull⟩ := List.exists_cons_of_ne_nil (h.there (by rw [hstate]; decide))
      simp only [turn, hstate, hfull]
      split
      · exact ⟨fun h => absurd rfl h, fun h => by cases h⟩
      · rename_i hroom
        exact ⟨fun _ => List.cons_ne_nil _ _, fun _ => Nat.lt_of_not_le hroom⟩

theorem full_ne_nil_of_stream (h : s.stream samplesPerBuffer ≠ []) : s.full ≠ [] := by
  intro hnil
  apply h
  rw [stream, hnil]
  exact List.drop_nil

theorem turn_progress (h : s.Ready samplesPerBuffer) (hdata : s.full ≠ []) (hleft : left ≠ 0) :
    3 * (left - (s.turn samplesPerBuffer left).2.length) +
        (s.turn samplesPerBuffer left).1.state.distance <
      3 * left + s.state.distance := by
  have hdist := (s.turn samplesPerBuffer left).1.state.distance_le
  cases hstate : s.state with
  | waiting =>
      simp only [turn, hstate, if_neg hdata]
      exact Nat.lt_succ_self _
  | bufferReady =>
      simp only [turn, hstate]
      exact Nat.lt_succ_self _
  | usingBuffer =>
      obtain ⟨m, full, hfull⟩ := List.exists_cons_of_ne_nil hdata
      have hroom := h.room hstate
      have hlen : (s.turn samplesPerBuffer left).2.length =
          min left (samplesPerBuffer - s.partialOff) := by
        simp only [turn, hstate, hfull]
        exact length_unpack _ _ _
      omega

theorem turn_length_le : (s.turn samplesPerBuffer left).2.length ≤ left := by
  cases hstate : s.state with
  | waiting | bufferReady =>
      simp only [turn, hstate]
      exact Nat.zero_le _
  | usingBuffer =>
      cases hfull : s.full with
      | nil =>
          simp only [turn, hstate, hfull]
          exact Nat.zero_le _
      | cons m full =>
          simp only [turn, hstate, hfull, length_unpack]
          exact Nat.min_le_left _ _

theorem Turned.append {s' s'' : PackedRx} {first second : List IqSample}
    (h : Turned samplesPerBuffer s s' first) (h' : Turned samplesPerBuffer s' s'' second)
    (hdata : packedBytes first.length ≤ (s.stream samplesPerBuffer).length) :
    Turned samplesPerBuffer s s'' (first ++ second) := by
  have hbytes : packedBytes (first ++ second).length =
      packedBytes first.length + packedBytes second.length := by
    rw [List.length_append]
    exact Nat.mul_add 3 _ _
  refine ⟨?_, ?_⟩
  · have hfirst : ((s.stream samplesPerBuffer).take (packedBytes first.length)).length =
        3 * first.length := by
      rw [List.length_take]
      exact Nat.min_eq_left hdata
    rw [hbytes, List.take_add, decode_append hfirst, ← h.decoded, ← h.rest, ← h'.decoded]
  · rw [h'.rest, h.rest, List.drop_drop, hbytes]

theorem loop_turned (hsize : 0 < samplesPerBuffer) (fuel : ℕ) (h : s.Ready samplesPerBuffer)
    (hdata : packedBytes left ≤ (s.stream samplesPerBuffer).length)
    (hfuel : 3 * left + s.state.distance ≤ fuel + 2) :
    Turned samplesPerBuffer s (loop samplesPerBuffer fuel s left).1
        (loop samplesPerBuffer fuel s left).2 ∧
      (loop samplesPerBuffer fuel s left).2.length = left ∧
      (loop samplesPerBuffer fuel s left).1.Ready samplesPerBuffer := by
  induction fuel generalizing s left with
  | zero =>
      obtain rfl : left = 0 := by omega
      exact ⟨.idle rfl rfl, rfl, h⟩
  | succ fuel ih =>
      unfold loop
      split
      · rename_i hleft
        exact ⟨.idle rfl rfl, hleft.symm, h⟩
      · rename_i hleft
        have hstream : s.stream samplesPerBuffer ≠ [] := by
          intro hnil
          rw [hnil] at hdata
          unfold packedBytes at hdata
          simp only [List.length_nil] at hdata
          omega
        have hturn : Turned samplesPerBuffer s (s.turn samplesPerBuffer left).1
            (s.turn samplesPerBuffer left).2 := turn_turned h
        have hprogress := turn_progress h (full_ne_nil_of_stream hstream) hleft
        have hle : (s.turn samplesPerBuffer left).2.length ≤ left := turn_length_le
        generalize hr : s.turn samplesPerBuffer left = r at hturn hprogress hle
        have hready : r.1.Ready samplesPerBuffer := hr ▸ ready_turn hsize h
        have hdata' : packedBytes (left - r.2.length) ≤
            (r.1.stream samplesPerBuffer).length := by
          rw [hturn.rest, List.length_drop]
          unfold packedBytes at hdata ⊢
          omega
        obtain ⟨hloop, hlen, hready'⟩ := ih hready hdata' (by omega)
        have hfirst : packedBytes r.2.length ≤ (s.stream samplesPerBuffer).length :=
          Nat.le_trans (Nat.mul_le_mul_left 3 hle) hdata
        refine ⟨hturn.append hloop hfirst, ?_, hready'⟩
        rw [List.length_append, hlen]
        omega

theorem syncRx_turned (hsize : 0 < samplesPerBuffer) (h : s.Ready samplesPerBuffer)
    (hdata : packedBytes left ≤ (s.stream samplesPerBuffer).length) :
    Turned samplesPerBuffer s (s.syncRx samplesPerBuffer left).1
        (s.syncRx samplesPerBuffer left).2 ∧
      (s.syncRx samplesPerBuffer left).2.length = left ∧
      (s.syncRx samplesPerBuffer left).1.Ready samplesPerBuffer :=
  loop_turned hsize _ h hdata (Nat.add_le_add_left s.state.distance_le _)

theorem reads_eq (hsize : 0 < samplesPerBuffer) (h : s.Ready samplesPerBuffer)
    (counts : List ℕ)
    (hdata : packedBytes counts.sum ≤ (s.stream samplesPerBuffer).length) :
    (reads samplesPerBuffer s counts).map List.length = counts ∧
      (reads samplesPerBuffer s counts).flatten =
        decode ((s.stream samplesPerBuffer).take (packedBytes counts.sum)) := by
  induction counts generalizing s with
  | nil => exact ⟨rfl, rfl⟩
  | cons n counts ih =>
      have hbytes : packedBytes (n :: counts).sum = packedBytes n + packedBytes counts.sum := by
        rw [List.sum_cons]
        exact Nat.mul_add 3 _ _
      rw [hbytes] at hdata ⊢
      obtain ⟨hturn, hlen, hready⟩ :=
        syncRx_turned hsize h (Nat.le_trans (Nat.le_add_right _ _) hdata)
      have hfirst : ((s.stream samplesPerBuffer).take (packedBytes n)).length = 3 * n := by
        rw [List.length_take]
        exact Nat.min_eq_left (Nat.le_trans (Nat.le_add_right _ _) hdata)
      have hrest : packedBytes counts.sum ≤
          ((s.syncRx samplesPerBuffer n).1.stream samplesPerBuffer).length := by
        rw [hturn.rest, hlen, List.length_drop]
        omega
      obtain ⟨hlens, hflat⟩ := ih hready hrest
      have hdecoded := hturn.decoded
      have hnext := hturn.rest
      rw [hlen] at hdecoded hnext
      refine ⟨?_, ?_⟩
      · rw [reads, List.map_cons, hlen, hlens]
      · rw [reads, List.flatten_cons, hflat, List.take_add, decode_append hfirst, ← hdecoded,
          hnext]

end PackedRx

/-! ## Both sides -/

theorem sc16q11PackSamples_frame {m : Memory} {src : List IqSample} {off a : ℕ}
    (h : a < packedBytes off ∨ packedBytes (off + src.length) ≤ a) :
    sc16q11PackSamples src (packedBytes off) m a = m a := by
  have hend : packedBytes (off + src.length) =
      packedBytes off + (src.flatMap IqSample.pack).length := by
    rw [length_pack_flatMap]
    exact Nat.mul_add 3 off src.length
  rw [sc16q11PackSamples_eq]
  rcases h with hbelow | habove
  · exact Lib.writeBytes_lt hbelow
  · exact Lib.writeBytes_ge (hend ▸ habove)

theorem PackedTx.turn_frame {cfg : PackedTx.Config} {s : PackedTx} {rest : List IqSample}
    {k a : ℕ} (h : (s.turn cfg rest).1.buffers k a ≠ s.buffers k a) :
    k = s.prodI ∧ packedBytes s.partialOff ≤ a ∧
      a < packedBytes (s.partialOff + s.samplesToCopy cfg rest) := by
  have hcopy : ((s.copy cfg rest).buffers k a) ≠ s.buffers k a := by
    intro hsame
    apply h
    unfold turn
    split
    · rfl
    · rfl
    · dsimp only
      split
      · exact hsame
      · exact hsame
  have hlen : (rest.take (s.samplesToCopy cfg rest)).length = s.samplesToCopy cfg rest := by
    rw [List.length_take, Nat.min_eq_left samplesToCopy_le]
  by_cases hk : k = s.prodI
  · subst hk
    simp only [copy, Function.update_self] at hcopy
    refine ⟨rfl, ?_, ?_⟩
    · exact Nat.le_of_not_lt fun hbelow => hcopy (sc16q11PackSamples_frame (.inl hbelow))
    · refine Nat.lt_of_not_le fun habove => hcopy (sc16q11PackSamples_frame (.inr ?_))
      rwa [hlen]
  · refine absurd ?_ hcopy
    simp only [copy, Function.update_of_ne hk]

/-- The calls of `sync_tx` cut the stream at `chunks`, those of `sync_rx` at
`counts`, and the buffers of the two sides may differ in size: every sample is
written, and where the bytes that are read are the bytes that were written, the
samples are. -/
theorem reads_syncTx (cfg : PackedTx.Config) (hsize : 0 < cfg.samplesPerBuffer)
    (start : PackedTx) (hsubmitted : start.submitted = []) (hfilled : start.filled = 0)
    (chunks : List (List IqSample)) (samplesPerBuffer : ℕ) (hsize' : 0 < samplesPerBuffer)
    (full : List Memory) (counts : List ℕ)
    (hcounts : counts.sum ≤ full.length * samplesPerBuffer)
    (hbytes : (full.flatMap (bytesAt · 0 (packedBytes samplesPerBuffer))).take
        (packedBytes counts.sum) =
      (chunks.foldl (PackedTx.syncTx cfg) start).written.take (packedBytes counts.sum)) :
    (chunks.foldl (PackedTx.syncTx cfg) start).written = chunks.flatten.flatMap IqSample.pack ∧
      (PackedRx.reads samplesPerBuffer ⟨full, 0, .waiting⟩ counts).map List.length = counts ∧
      (PackedRx.reads samplesPerBuffer ⟨full, 0, .waiting⟩ counts).flatten =
        (chunks.flatten.take counts.sum).map IqSample.low12 ∧
      ((∀ s ∈ chunks.flatten, s.InRange) →
        (PackedRx.reads samplesPerBuffer ⟨full, 0, .waiting⟩ counts).flatten =
          chunks.flatten.take counts.sum) ∧
      ∀ (s : PackedTx) (rest : List IqSample) (k a : ℕ),
        (s.turn cfg rest).1.buffers k a ≠ s.buffers k a →
          k = s.prodI ∧ packedBytes s.partialOff ≤ a ∧
            a < packedBytes (s.partialOff + s.samplesToCopy cfg rest) := by
  have hroom : start.Room cfg := by
    intro hstate
    have hoff : start.partialOff = 0 := by rw [← hfilled, PackedTx.filled, if_pos hstate]
    rw [hoff]
    exact hsize
  have hnone : start.Carries [] := by
    unfold PackedTx.Carries PackedTx.written
    rw [hsubmitted, hfilled]
    rfl
  have hcarries : (chunks.foldl (PackedTx.syncTx cfg) start).Carries chunks.flatten :=
    hnone.calls hsize hroom chunks
  have hstream : (PackedRx.mk full 0 .waiting).stream samplesPerBuffer =
      full.flatMap (bytesAt · 0 (packedBytes samplesPerBuffer)) := rfl
  have hlen : packedBytes counts.sum ≤
      ((PackedRx.mk full 0 .waiting).stream samplesPerBuffer).length := by
    rw [hstream, List.length_flatMap]
    simp only [Lib.length_bytesAt, List.map_const', List.sum_replicate_nat]
    unfold packedBytes
    rw [Nat.mul_left_comm]
    exact Nat.mul_le_mul_left 3 hcounts
  have hready : (PackedRx.mk full 0 .waiting).Ready samplesPerBuffer :=
    ⟨fun h => absurd rfl h, fun h => by cases h⟩
  obtain ⟨hlens, hflat⟩ := PackedRx.reads_eq hsize' hready counts hlen
  have hread : (PackedRx.reads samplesPerBuffer ⟨full, 0, .waiting⟩ counts).flatten =
      (chunks.flatten.take counts.sum).map IqSample.low12 := by
    rw [hflat, hstream, hbytes, hcarries]
    show decode ((chunks.flatten.flatMap IqSample.pack).take (3 * counts.sum)) = _
    rw [flatMap_pack_take, decode_pack]
  refine ⟨hcarries, hlens, hread, fun hrange => ?_, fun s rest k a => PackedTx.turn_frame⟩
  have hsame : ∀ s ∈ chunks.flatten.take counts.sum, s.low12 = s := fun s hs =>
    low12_of_inRange (hrange s (List.mem_of_mem_take hs))
  rw [hread, List.map_congr_left hsame, List.map_id']

def pairConfig : PackedTx.Config where
  samplesPerBuffer := 2
  numBuffers := 2
  empty := fun _ => true

def pairStart : PackedTx := ⟨fun _ _ => 0, 0, 0, .bufferReady, []⟩

def oddChunks : List (List IqSample) :=
  [[⟨2047, -2048⟩], [⟨-1, 1⟩, ⟨0x123, 0x456⟩, ⟨2048, -2049⟩]]

def triples : List Memory :=
  let bytes := (oddChunks.foldl (PackedTx.syncTx pairConfig) pairStart).written
  [fun i => bytes.getD i 0, fun i => bytes.getD (9 + i) 0]

theorem reads_syncTx_oddChunks :
    (oddChunks.foldl (PackedTx.syncTx pairConfig) pairStart).written =
        oddChunks.flatten.flatMap IqSample.pack ∧
      (PackedRx.reads 3 ⟨triples, 0, .waiting⟩ [1, 1, 2]).flatten =
        [⟨2047, -2048⟩, ⟨-1, 1⟩, ⟨0x123, 0x456⟩, ⟨-2048, 2047⟩] := by
  obtain ⟨hwritten, -, hread, -⟩ := reads_syncTx pairConfig (by decide) pairStart rfl rfl
    oddChunks 3 (by decide) triples [1, 1, 2] (by decide) (by decide +kernel)
  exact ⟨hwritten, hread⟩

end BladeRF
