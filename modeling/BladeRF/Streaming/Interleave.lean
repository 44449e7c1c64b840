/-
# `Streaming.Interleave` — the buffers of two channels, blockwise and interleaved

`_interleave_interleave_buf` and `_interleave_deinterleave_buf` rearrange a
buffer in place, by way of a block from `malloc`.  The samples of a metadata
format begin behind a header, and the header counts in samples when the share of
a channel is worked out.

* A block has the length it was asked for and whatever contents; a copy that leaves
  its block has no outcome.
* `sizeMax` is `SIZE_MAX`; a layout or format of none of the known values is `none`,
  and so is a NULL buffer.
-/
import BladeRF.Lib.Memcpy
import BladeRF.Board.SampleFormat
import BladeRF.Streaming.RxRing

namespace BladeRF

open Lib (memcpy copyCell Rearranged)

/-- `malloc`: NULL, or a block of that length. -/
abbrev Malloc := (n : ℕ) → Option { block : List (BitVec 8) // block.length = n }

def interleaveCalcNumChannels : Option BladerfChannelLayout → ℕ
  | some .rxX1 | some .txX1 => 1
  | some .rxX2 | some .txX2 => 2
  | none => 0

def interleaveCalcBytesPerSample : Option BladerfFormat → ℕ
  | some .sc8Q7 | some .sc8Q7Meta => 2
  | some .sc16Q11Packed | some .sc16Q11 | some .sc16Q11Meta | some .packetMeta => 4
  | none => 0

def interleaveCalcMetadataBytes : Option BladerfFormat → ℕ
  | some .sc8Q7Meta | some .sc16Q11Meta | some .packetMeta => 0x10
  | some .sc8Q7 | some .sc16Q11Packed | some .sc16Q11 => 0
  | none => 0

/-- The loops of a rearrangement: the number of channels, the samples of each, the
sizes of the header and of a sample, then source and destination. -/
abbrev InterleaveLoops :=
  ℕ → ℕ → ℕ → ℕ → List (BitVec 8) → List (BitVec 8) → Option (List (BitVec 8))

def interleaveLoops : InterleaveLoops := fun numChannels sampsPerCh metaSize sampSize samples buf =>
  (List.range numChannels).foldlM (fun buf ch =>
    (List.range sampsPerCh).foldlM (fun buf samp =>
      copyCell metaSize sampSize samples buf (samp * numChannels + ch)
        (sampsPerCh * ch + samp)) buf) buf

def deinterleaveLoops : InterleaveLoops := fun numChannels sampsPerCh metaSize sampSize samples buf =>
  (List.range sampsPerCh).foldlM (fun buf samp =>
    (List.range numChannels).foldlM (fun buf ch =>
      copyCell metaSize sampSize samples buf (sampsPerCh * ch + samp)
        (numChannels * samp + ch)) buf) buf

variable (sizeMax : ℕ) (layout : Option BladerfChannelLayout) (format : Option BladerfFormat)
  (bufferSize : ℕ)

/-- The checks that both functions make, apart from the one for NULL. -/
def InterleaveAccepts : Prop :=
  interleaveCalcNumChannels layout ≠ 0 ∧ bufferSize ≠ 0 ∧
    interleaveCalcBytesPerSample format ≠ 0 ∧
    bufferSize % interleaveCalcNumChannels layout = 0 ∧
    interleaveCalcMetadataBytes format / interleaveCalcBytesPerSample format ≤ bufferSize ∧
    bufferSize ≤ sizeMax / interleaveCalcBytesPerSample format

instance : Decidable (InterleaveAccepts sizeMax layout format bufferSize) :=
  inferInstanceAs (Decidable (_ ∧ _ ∧ _ ∧ _ ∧ _ ∧ _))

/-- The way through `buf`: header, loops, and back. -/
def interleaveThrough (loops : InterleaveLoops) (samples buf : List (BitVec 8)) :
    Option (List (BitVec 8)) := do
  let numChannels := interleaveCalcNumChannels layout
  let sampSize := interleaveCalcBytesPerSample format
  let metaSize := interleaveCalcMetadataBytes format
  let buf ← (if 0 < metaSize then memcpy buf 0 samples 0 metaSize else some buf)
  let sampsPerCh := bufferSize / numChannels -
    (if 0 < metaSize then metaSize / sampSize / numChannels else 0)
  let buf ← loops numChannels sampsPerCh metaSize sampSize samples buf
  memcpy samples 0 buf 0 (bufferSize * sampSize)

/-- What the two functions share, around their `loops`: the return code and the
buffer behind the call. -/
def interleaveRearrange (loops : InterleaveLoops) (malloc : Malloc) :
    Option (List (BitVec 8)) → Option (ℤ × Option (List (BitVec 8)))
  | none => some (bladerfErrInval, none)
  | some samples =>
      if ¬InterleaveAccepts sizeMax layout format bufferSize then
        some (bladerfErrInval, some samples)
      else if interleaveCalcNumChannels layout < 2 then some (0, some samples)
      else match malloc (interleaveCalcBytesPerSample format * bufferSize) with
        | none => some (bladerfErrMem, some samples)
        | some buf =>
            (interleaveThrough layout format bufferSize loops samples buf).map fun samples =>
              (0, some samples)

def interleaveInterleaveBuf (malloc : Malloc) (samples : Option (List (BitVec 8))) :
    Option (ℤ × Option (List (BitVec 8))) :=
  interleaveRearrange sizeMax layout format bufferSize interleaveLoops malloc samples

def interleaveDeinterleaveBuf (malloc : Malloc) (samples : Option (List (BitVec 8))) :
    Option (ℤ × Option (List (BitVec 8))) :=
  interleaveRearrange sizeMax layout format bufferSize deinterleaveLoops malloc samples

/-! ## The loops -/

/-- Where interleaving takes the cell `i` from, with `n` samples for each channel. -/
def interleaveFrom (n i : ℕ) : ℕ := n * (i % 2) + i / 2

/-- Where deinterleaving takes the cell `i` from. -/
def deinterleaveFrom (n i : ℕ) : ℕ := 2 * (i % n) + i / n

section

variable {n i : ℕ}

theorem interleaveFrom_lt (h : i < 2 * n) : interleaveFrom n i < 2 * n := by
  unfold interleaveFrom
  rcases Nat.mod_two_eq_zero_or_one i with hmod | hmod
  · rw [hmod]
    omega
  · rw [hmod]
    omega

theorem deinterleaveFrom_lt (h : i < 2 * n) : deinterleaveFrom n i < 2 * n := by
  have hmod : i % n < n := Nat.mod_lt _ (by omega)
  have hdiv : i / n < 2 := Nat.div_lt_of_lt_mul (by rw [Nat.mul_comm]; exact h)
  unfold deinterleaveFrom
  omega

theorem interleaveFrom_deinterleaveFrom (h : i < 2 * n) :
    interleaveFrom n (deinterleaveFrom n i) = i := by
  have hdiv : i / n < 2 := Nat.div_lt_of_lt_mul (by rw [Nat.mul_comm]; exact h)
  have hchannel : (2 * (i % n) + i / n) % 2 = i / n := by
    rw [Nat.mul_add_mod, Nat.mod_eq_of_lt hdiv]
  have hsample : (2 * (i % n) + i / n) / 2 = i % n := by
    rw [Nat.mul_add_div Nat.two_pos, Nat.div_eq_of_lt hdiv, Nat.add_zero]
  unfold interleaveFrom deinterleaveFrom
  rw [hchannel, hsample]
  exact Nat.div_add_mod i n

theorem deinterleaveFrom_interleaveFrom (h : i < 2 * n) :
    deinterleaveFrom n (interleaveFrom n i) = i := by
  have hpos : 0 < n := by omega
  have hhalf : i / 2 < n := by omega
  have hsample : (n * (i % 2) + i / 2) % n = i / 2 := by
    rw [Nat.mul_add_mod, Nat.mod_eq_of_lt hhalf]
  have hchannel : (n * (i % 2) + i / 2) / n = i % 2 := by
    rw [Nat.mul_add_div hpos, Nat.div_eq_of_lt hhalf, Nat.add_zero]
  unfold deinterleaveFrom interleaveFrom
  rw [hsample, hchannel]
  omega

end

/-- What a pair of loops does: the cells move by `g`, and nothing leaves the blocks. -/
def LoopsMove (loops : InterleaveLoops) (g : ℕ → ℕ → ℕ) : Prop :=
  ∀ {n metaSize sampSize : ℕ} {samples buf : List (BitVec 8)}, 0 < sampSize →
    samples.length = metaSize + 2 * n * sampSize → buf.length = samples.length →
    (∀ p < metaSize, buf[p]? = samples[p]?) →
    ∃ out, loops 2 n metaSize sampSize samples buf = some out ∧
      Rearranged metaSize sampSize (2 * n) (g n) samples out

theorem rearranged_of_copies {ι : Type*} {n metaSize sampSize : ℕ} (g : ℕ → ℕ)
    {samples buf : List (BitVec 8)} (hsize : 0 < sampSize)
    (hsamples : samples.length = metaSize + 2 * n * sampSize) (hbuf : buf.length = samples.length)
    (hheader : ∀ p < metaSize, buf[p]? = samples[p]?) (target source : ι → ℕ) (xs : List ι)
    (hcells : ∀ x ∈ xs, target x < 2 * n ∧ source x < 2 * n ∧ g (target x) = source x)
    (hall : ∀ i < 2 * n, i ∈ xs.map target) :
    ∃ out, xs.foldlM (fun buf x =>
        copyCell metaSize sampSize samples buf (target x) (source x)) buf = some out ∧
      Rearranged metaSize sampSize (2 * n) g samples out := by
  obtain ⟨out, hrun, hlength, hout⟩ := Lib.foldlM_copyCell (n := 2 * n) (g := g) hsize
    hsamples.ge (hsamples.symm.trans hbuf.symm).le target source xs hcells
  refine ⟨out, hrun, hlength.trans hbuf, fun p hp => ?_, fun i hi k hk => ?_⟩
  · rw [hout, if_neg (by omega)]
    exact hheader p hp
  · obtain ⟨hdiv, hmod⟩ := @Lib.cell_at metaSize _ _ i hk
    rw [hout, hdiv, hmod, if_pos ⟨by omega, hall i hi⟩]

theorem interleaveLoops_move : LoopsMove interleaveLoops interleaveFrom := by
  intro n metaSize sampSize samples buf hsize hsamples hbuf hheader
  unfold interleaveLoops
  rw [Lib.foldlM_nested]
  refine rearranged_of_copies (interleaveFrom n) hsize hsamples hbuf hheader
    (fun z : ℕ × ℕ => z.2 * 2 + z.1) (fun z => n * z.1 + z.2) _ ?_ fun i hi => ?_
  · rintro ⟨ch, samp⟩ hmem
    obtain ⟨hch, hsamp⟩ : ch < 2 ∧ samp < n := by
      simpa [List.mem_flatMap, List.mem_map, List.mem_range] using hmem
    have hfrom : interleaveFrom n (samp * 2 + ch) = n * ch + samp := by
      unfold interleaveFrom
      have hmod : (samp * 2 + ch) % 2 = ch := by omega
      have hdiv : (samp * 2 + ch) / 2 = samp := by omega
      rw [hmod, hdiv]
    refine ⟨by dsimp only; omega, ?_, hfrom⟩
    rw [← hfrom]
    exact interleaveFrom_lt (by omega)
  · refine List.mem_map.mpr ⟨(i % 2, i / 2), ?_, by dsimp only; omega⟩
    simp only [List.mem_flatMap, List.mem_map, List.mem_range]
    exact ⟨i % 2, Nat.mod_lt _ (by omega), i / 2, by omega, rfl⟩

theorem deinterleaveLoops_move : LoopsMove deinterleaveLoops deinterleaveFrom := by
  intro n metaSize sampSize samples buf hsize hsamples hbuf hheader
  unfold deinterleaveLoops
  rw [Lib.foldlM_nested]
  refine rearranged_of_copies (deinterleaveFrom n) hsize hsamples hbuf hheader
    (fun z : ℕ × ℕ => n * z.2 + z.1) (fun z => 2 * z.1 + z.2) _ ?_ fun i hi => ?_
  · rintro ⟨samp, ch⟩ hmem
    obtain ⟨hsamp, hch⟩ : samp < n ∧ ch < 2 := by
      simpa [List.mem_flatMap, List.mem_map, List.mem_range] using hmem
    have hcell : interleaveFrom n (2 * samp + ch) = n * ch + samp := by
      unfold interleaveFrom
      have hmod : (2 * samp + ch) % 2 = ch := by omega
      have hdiv : (2 * samp + ch) / 2 = samp := by omega
      rw [hmod, hdiv]
    have hlt : 2 * samp + ch < 2 * n := by omega
    dsimp only
    rw [← hcell]
    exact ⟨interleaveFrom_lt hlt, hlt, deinterleaveFrom_interleaveFrom hlt⟩
  · have hpos : 0 < n := by omega
    have hdiv : i / n < 2 := Nat.div_lt_of_lt_mul (by rw [Nat.mul_comm]; exact hi)
    refine List.mem_map.mpr ⟨(i % n, i / n), ?_, Nat.div_add_mod i n⟩
    simp only [List.mem_flatMap, List.mem_map, List.mem_range]
    exact ⟨i % n, Nat.mod_lt _ hpos, i / n, hdiv, rfl⟩

/-! ## The calls -/

def sampsPerChannel : ℕ :=
  (bufferSize - interleaveCalcMetadataBytes format / interleaveCalcBytesPerSample format) / 2

section

variable {sizeMax layout format bufferSize}

theorem InterleaveAccepts.split (h : InterleaveAccepts sizeMax layout format bufferSize)
    (hpair : interleaveCalcNumChannels layout = 2) :
    bufferSize * interleaveCalcBytesPerSample format = interleaveCalcMetadataBytes format +
        2 * sampsPerChannel format bufferSize * interleaveCalcBytesPerSample format ∧
      sampsPerChannel format bufferSize = bufferSize / 2 -
        if 0 < interleaveCalcMetadataBytes format then
          interleaveCalcMetadataBytes format / interleaveCalcBytesPerSample format / 2
        else 0 := by
  obtain ⟨-, -, -, heven, hheader, -⟩ := h
  rw [hpair] at heven
  unfold sampsPerChannel
  rcases format with - | (- | - | - | - | - | -) <;>
    simp [interleaveCalcMetadataBytes, interleaveCalcBytesPerSample] at hheader ⊢ <;> omega

theorem interleaveRearrange_refused (loops : InterleaveLoops) (malloc : Malloc)
    (samples : List (BitVec 8)) (h : ¬InterleaveAccepts sizeMax layout format bufferSize) :
    interleaveRearrange sizeMax layout format bufferSize loops malloc (some samples) =
      some (bladerfErrInval, some samples) := by
  show (if ¬_ then _ else _) = _
  rw [if_pos h]

theorem interleaveRearrange_single (loops : InterleaveLoops) (malloc : Malloc)
    (samples : List (BitVec 8)) (h : InterleaveAccepts sizeMax layout format bufferSize)
    (hsingle : interleaveCalcNumChannels layout = 1) :
    interleaveRearrange sizeMax layout format bufferSize loops malloc (some samples) =
      some (0, some samples) := by
  show (if ¬_ then _ else _) = _
  rw [if_neg (not_not.mpr h), if_pos (by omega)]

theorem interleaveThrough_pair {loops : InterleaveLoops} {g : ℕ → ℕ → ℕ}
    (hloops : LoopsMove loops g) {samples block : List (BitVec 8)}
    (h : InterleaveAccepts sizeMax layout format bufferSize)
    (hpair : interleaveCalcNumChannels layout = 2)
    (hlength : samples.length = bufferSize * interleaveCalcBytesPerSample format)
    (hblock : block.length = samples.length) :
    ∃ out, interleaveThrough layout format bufferSize loops samples block = some out ∧
      Rearranged (interleaveCalcMetadataBytes format) (interleaveCalcBytesPerSample format)
        (2 * sampsPerChannel format bufferSize) (g (sampsPerChannel format bufferSize))
        samples out := by
  obtain ⟨hsplit, hshare⟩ := h.split hpair
  have hsize : 0 < interleaveCalcBytesPerSample format := Nat.pos_of_ne_zero h.2.2.1
  -- the header goes first
  obtain ⟨buf, hheader, hlen, hcopied⟩ : ∃ buf : List (BitVec 8),
      (if 0 < interleaveCalcMetadataBytes format then
        memcpy block 0 samples 0 (interleaveCalcMetadataBytes format) else some block) = some buf ∧
        buf.length = samples.length ∧
        ∀ p < interleaveCalcMetadataBytes format, buf[p]? = samples[p]? := by
    split
    · obtain ⟨buf, hcopy, hlen, hget⟩ := Lib.memcpy_inside block samples (d := 0) (s := 0)
        (n := interleaveCalcMetadataBytes format) (by omega) (by omega)
      refine ⟨buf, hcopy, hlen.trans hblock, fun p hp => ?_⟩
      rw [hget, if_pos ⟨Nat.zero_le p, by omega⟩, Nat.zero_add, Nat.sub_zero]
    · exact ⟨block, rfl, hblock, fun p hp => by omega⟩
  obtain ⟨out, hrun, hout⟩ := hloops hsize (hlength.trans hsplit) hlen hcopied
  refine ⟨out, ?_, hout⟩
  unfold interleaveThrough
  dsimp only
  rw [hheader, hpair, ← hshare]
  show (loops _ _ _ _ _ _).bind _ = _
  rw [hrun]
  show memcpy _ _ _ _ _ = _
  rw [← hlength, Lib.memcpy_all hout.length rfl]

theorem interleaveRearrange_pair {loops : InterleaveLoops} {g : ℕ → ℕ → ℕ}
    (hloops : LoopsMove loops g) (malloc : Malloc) {samples : List (BitVec 8)}
    (h : InterleaveAccepts sizeMax layout format bufferSize)
    (hpair : interleaveCalcNumChannels layout = 2)
    (hlength : samples.length = bufferSize * interleaveCalcBytesPerSample format)
    (hmalloc : (malloc (interleaveCalcBytesPerSample format * bufferSize)).isSome = true) :
    ∃ out, interleaveRearrange sizeMax layout format bufferSize loops malloc (some samples) =
        some (0, some out) ∧
      Rearranged (interleaveCalcMetadataBytes format) (interleaveCalcBytesPerSample format)
        (2 * sampsPerChannel format bufferSize) (g (sampsPerChannel format bufferSize))
        samples out := by
  obtain ⟨⟨block, hblock⟩, hbuf⟩ := Option.isSome_iff_exists.mp hmalloc
  obtain ⟨out, hthrough, hout⟩ := interleaveThrough_pair hloops h hpair hlength
    (hblock.trans ((Nat.mul_comm ..).trans hlength.symm))
  refine ⟨out, ?_, hout⟩
  show (if ¬_ then _ else _) = _
  rw [if_neg (not_not.mpr h), if_neg (by omega), hbuf]
  dsimp only
  rw [hthrough]
  rfl

theorem interleaveRearrange_refuses_iff {loops : InterleaveLoops} {g : ℕ → ℕ → ℕ}
    (hloops : LoopsMove loops g) (malloc : Malloc) {samples : Option (List (BitVec 8))}
    (hlength : ∀ bytes ∈ samples,
      bytes.length = bufferSize * interleaveCalcBytesPerSample format) :
    (interleaveRearrange sizeMax layout format bufferSize loops malloc samples).map Prod.fst =
        some bladerfErrInval ↔
      samples = none ∨ ¬InterleaveAccepts sizeMax layout format bufferSize := by
  cases samples with
  | none => exact ⟨fun _ => .inl rfl, fun _ => rfl⟩
  | some bytes =>
      by_cases h : InterleaveAccepts sizeMax layout format bufferSize
      · have hzero : (0 : ℤ) ≠ bladerfErrInval := by decide
        have hmem : bladerfErrMem ≠ bladerfErrInval := by decide
        have hcode : (interleaveRearrange sizeMax layout format bufferSize loops malloc
            (some bytes)).map Prod.fst ≠ some bladerfErrInval := by
          obtain hsingle | hpair : interleaveCalcNumChannels layout = 1 ∨
              interleaveCalcNumChannels layout = 2 := by
            rcases layout with - | (- | - | - | -)
            · exact absurd rfl h.1
            all_goals simp [interleaveCalcNumChannels]
          · rw [interleaveRearrange_single loops malloc bytes h hsingle]
            exact fun he => absurd (Option.some.inj he) hzero
          · cases hbuf : malloc (interleaveCalcBytesPerSample format * bufferSize) with
            | none =>
                show (if ¬_ then _ else _ : Option _).map _ ≠ _
                rw [if_neg (not_not.mpr h), if_neg (by omega), hbuf]
                exact fun he => absurd (Option.some.inj he) hmem
            | some block =>
                obtain ⟨out, hout, -⟩ := interleaveRearrange_pair hloops malloc h hpair
                  (hlength bytes rfl) (by rw [hbuf]; rfl)
                rw [hout]
                exact fun he => absurd (Option.some.inj he) hzero
        exact ⟨fun hrefused => absurd hrefused hcode, fun hargs => absurd h (by simpa using hargs)⟩
      · rw [interleaveRearrange_refused loops malloc bytes h]
        exact ⟨fun _ => .inr h, fun _ => rfl⟩

theorem InterleaveAccepts.cells (h : InterleaveAccepts sizeMax layout format bufferSize)
    (hpair : interleaveCalcNumChannels layout = 2) {samples : List (BitVec 8)}
    (hlength : samples.length = bufferSize * interleaveCalcBytesPerSample format) :
    samples.length = interleaveCalcMetadataBytes format +
      2 * sampsPerChannel format bufferSize * interleaveCalcBytesPerSample format :=
  hlength.trans (h.split hpair).1

end

/-- **The two functions undo each other**, accept the same arguments and do nothing
for one channel; interleaving takes sample `s` of channel `c` to place `2 * s + c`
behind the header.  No copy leaves the buffer. -/
theorem interleave_deinterleave {samples : List (BitVec 8)}
    (hlength : samples.length = bufferSize * interleaveCalcBytesPerSample format)
    (malloc malloc' : Malloc) :
    (∀ samples' ∈ [none, some samples],
      ((interleaveInterleaveBuf sizeMax layout format bufferSize malloc samples').map Prod.fst =
          some bladerfErrInval ↔
        samples' = none ∨ ¬InterleaveAccepts sizeMax layout format bufferSize) ∧
      ((interleaveDeinterleaveBuf sizeMax layout format bufferSize malloc samples').map Prod.fst =
          some bladerfErrInval ↔
        samples' = none ∨ ¬InterleaveAccepts sizeMax layout format bufferSize)) ∧
    (InterleaveAccepts sizeMax layout format bufferSize →
      (interleaveCalcNumChannels layout = 1 →
        interleaveInterleaveBuf sizeMax layout format bufferSize malloc (some samples) =
            some (0, some samples) ∧
          interleaveDeinterleaveBuf sizeMax layout format bufferSize malloc (some samples) =
            some (0, some samples)) ∧
      (interleaveCalcNumChannels layout = 2 →
        (malloc (interleaveCalcBytesPerSample format * bufferSize)).isSome = true →
        (malloc' (interleaveCalcBytesPerSample format * bufferSize)).isSome = true →
        ∃ out out' : List (BitVec 8),
          interleaveInterleaveBuf sizeMax layout format bufferSize malloc (some samples) =
              some (0, some out) ∧
            interleaveDeinterleaveBuf sizeMax layout format bufferSize malloc' (some out) =
              some (0, some samples) ∧
            interleaveDeinterleaveBuf sizeMax layout format bufferSize malloc (some samples) =
              some (0, some out') ∧
            interleaveInterleaveBuf sizeMax layout format bufferSize malloc' (some out') =
              some (0, some samples) ∧
            out.length = samples.length ∧ out'.length = samples.length ∧
            (∀ p < interleaveCalcMetadataBytes format, out[p]? = samples[p]?) ∧
            ∀ s < sampsPerChannel format bufferSize, ∀ c < 2,
              ∀ k < interleaveCalcBytesPerSample format,
                out[interleaveCalcMetadataBytes format +
                    (2 * s + c) * interleaveCalcBytesPerSample format + k]? =
                  samples[interleaveCalcMetadataBytes format +
                    (sampsPerChannel format bufferSize * c + s) *
                      interleaveCalcBytesPerSample format + k]?)) := by
  refine ⟨fun samples' hmem => ?_, fun h => ⟨fun hsingle => ?_, fun hpair hmalloc hmalloc' => ?_⟩⟩
  · have hbytes : ∀ bytes ∈ samples',
        bytes.length = bufferSize * interleaveCalcBytesPerSample format := by
      rintro bytes hsome
      rcases List.mem_cons.mp hmem with hnull | hmem
      · rw [hnull] at hsome
        cases hsome
      · rw [List.mem_singleton.mp hmem] at hsome
        rw [← Option.some.inj hsome]
        exact hlength
    exact ⟨interleaveRearrange_refuses_iff interleaveLoops_move malloc hbytes,
      interleaveRearrange_refuses_iff deinterleaveLoops_move malloc hbytes⟩
  · exact ⟨interleaveRearrange_single _ malloc samples h hsingle,
      interleaveRearrange_single _ malloc samples h hsingle⟩
  · obtain ⟨out, hout, hmoved⟩ :=
      interleaveRearrange_pair interleaveLoops_move malloc h hpair hlength hmalloc
    obtain ⟨out', hout', hmoved'⟩ :=
      interleaveRearrange_pair deinterleaveLoops_move malloc h hpair hlength hmalloc
    obtain ⟨back, hback, hmovedBack⟩ := interleaveRearrange_pair deinterleaveLoops_move malloc' h hpair
      (hmoved.length.trans hlength) hmalloc'
    obtain ⟨back', hback', hmovedBack'⟩ := interleaveRearrange_pair interleaveLoops_move malloc' h hpair
      (hmoved'.length.trans hlength) hmalloc'
    have hsame : back = samples := hmoved.inverse hmovedBack (fun i => deinterleaveFrom_lt)
      (fun i => interleaveFrom_deinterleaveFrom) (h.cells hpair hlength)
    have hsame' : back' = samples := hmoved'.inverse hmovedBack' (fun i => interleaveFrom_lt)
      (fun i => deinterleaveFrom_interleaveFrom) (h.cells hpair hlength)
    subst hsame hsame'
    refine ⟨out, out', hout, hback, hout', hback', hmoved.length, hmoved'.length, hmoved.header,
      fun s hs c hc k hk => ?_⟩
    have hmod : (2 * s + c) % 2 = c := by omega
    have hdiv : (2 * s + c) / 2 = s := by omega
    rw [hmoved.cells (2 * s + c) (by omega) k hk, interleaveFrom, hmod, hdiv]

def zeroHeap : Malloc := fun n => some ⟨List.replicate n 0, List.length_replicate⟩

def twoChannels : List (BitVec 8) := (List.range 24).map fun i => BitVec.ofNat 8 i

theorem interleave_deinterleave_twoChannels :
    ∃ out : List (BitVec 8),
      interleaveInterleaveBuf (2 ^ 64 - 1) (some .rxX2) (some .sc8Q7Meta) 12 zeroHeap
          (some twoChannels) = some (0, some out) ∧
        interleaveDeinterleaveBuf (2 ^ 64 - 1) (some .rxX2) (some .sc8Q7Meta) 12 zeroHeap
          (some out) = some (0, some twoChannels) ∧
        out.drop 16 = [16, 17, 20, 21, 18, 19, 22, 23] := by
  obtain ⟨-, hpair⟩ := @interleave_deinterleave (2 ^ 64 - 1) (some .rxX2) (some .sc8Q7Meta) 12
    twoChannels (by decide) zeroHeap zeroHeap
  obtain ⟨-, hpair⟩ := hpair (by decide)
  obtain ⟨out, -, hout, hback, -⟩ := hpair rfl rfl rfl
  refine ⟨out, hout, hback, ?_⟩
  have hrun : (interleaveInterleaveBuf (2 ^ 64 - 1) (some .rxX2) (some .sc8Q7Meta) 12 zeroHeap
      (some twoChannels)).map (fun r => r.2.map (List.drop 16)) =
        some (some [16, 17, 20, 21, 18, 19, 22, 23]) := by
    decide +kernel
  rw [hout] at hrun
  exact Option.some.inj (Option.some.inj hrun)

end BladeRF
