/-
# `Flash.Loader` — what the loaders send

Flipping a page in place is safe because word `i` lies behind byte `i`.  The
reader of frames has the rest of the stream in its page buffer and in flash, and
every read takes the next bytes of it.  So each loader sends the words of the
bitstream and two more, and reads no page behind the last byte.
-/
import BladeRF.Flash.Boot

namespace BladeRF

open Lib (Memory bytesAt writeBytes leBytes leNat)

-- omega goes deep on pages of 256 bytes
set_option maxRecDepth 4000

/-! ## One transfer -/

section

variable {flipLut : BitVec 8 → BitVec 16} {buf : Memory}

theorem flipBytes_above (n : ℕ) : ∀ (buf : Memory) (i : ℕ), 2 * n ≤ i →
    flipBytes flipLut n buf i = buf i := by
  induction n with
  | zero => intro buf i _; rfl
  | succ n ih =>
      intro buf i hi
      show flipBytes flipLut n (writeBytes buf _ _) i = buf i
      rw [ih _ i (by omega), Lib.writeBytes_ge]
      rw [Lib.length_leBytes]
      omega

theorem wordAt_flipBytes (n : ℕ) : ∀ (buf : Memory) (i : ℕ), i < n →
    wordAt (flipBytes flipLut n buf) i = flipLut (buf i) := by
  induction n with
  | zero => intro buf i hi; exact absurd hi (Nat.not_lt_zero i)
  | succ n ih =>
      intro buf i hi
      show wordAt (flipBytes flipLut n (writeBytes buf _ _)) i = _
      rcases Nat.lt_succ_iff_lt_or_eq.mp hi with hlt | rfl
      · rw [ih _ i hlt, Lib.writeBytes_lt (by omega)]
      · have hkept : bytesAt (flipBytes flipLut i (writeBytes buf (2 * i)
            (leBytes 2 (flipLut (buf i)).toNat))) (2 * i) 2 =
            leBytes 2 (flipLut (buf i)).toNat := by
          rw [Lib.bytesAt_congr fun j hj _ => flipBytes_above i _ j hj]
          have hback := Lib.bytesAt_writeBytes buf (2 * i) (leBytes 2 (flipLut (buf i)).toNat)
          rwa [Lib.length_leBytes] at hback
        unfold wordAt
        rw [hkept, Lib.leNat_leBytes_of_lt (flipLut (buf i)).isLt, BitVec.ofNat_toNat,
          BitVec.setWidth_eq]

theorem fpgaSendFlashBytes_words (flipLut : BitVec 8 → BitVec 16) (buf : Memory) {count : ℕ}
    (hcount : count ≤ 256) (last : Bool) :
    ∃ extra : List (BitVec 16), extra.length = (if last then 2 else 0) ∧
      (fpgaSendFlashBytes flipLut buf count last).2 =
        (bytesAt buf 0 count).map flipLut ++ extra := by
  have hwords : (List.range count).map (wordAt (flipBytes flipLut 256 buf)) =
      (bytesAt buf 0 count).map flipLut := by
    unfold bytesAt
    rw [List.map_map]
    refine List.map_congr_left fun i hi => ?_
    rw [wordAt_flipBytes 256 buf i (lt_of_lt_of_le (List.mem_range.mp hi) hcount)]
    simp
  cases last with
  | false => exact ⟨[], rfl, by rw [List.append_nil]; exact hwords⟩
  | true =>
      refine ⟨[wordAt (flipBytes flipLut 256 buf) count,
        wordAt (flipBytes flipLut 256 buf) (count + 1)], rfl, ?_⟩
      show (List.range (count + 2)).map _ = _
      rw [List.range_succ, List.range_succ, List.map_append, List.map_append, hwords]
      simp

end

theorem bytesAt_spiTransfer {flash : Memory} {page : ℕ} (hpage : page < 65536) (buf : Memory)
    {offset n : ℕ} (hn : offset + n ≤ 256) :
    bytesAt (cyFxSpiTransfer flash page buf) offset n = bytesAt flash (page * 256 + offset) n := by
  unfold bytesAt cyFxSpiTransfer
  refine List.map_congr_left fun i hi => ?_
  have hlt := List.mem_range.mp hi
  rw [if_pos (by omega), Nat.mod_eq_of_lt hpage, Nat.add_assoc]

/-! ## Bitstreams as they are -/

theorem nuandLoadFrom_sends (flipLut : BitVec 8 → BitVec 16) (flash : Memory) (fuel : ℕ) :
    ∀ (nleft sector : ℕ) (buf : Memory), nleft ≠ 0 → nleft ≤ fuel →
      sector * 256 + nleft ≤ 2 ^ 24 →
      ∃ extra : List (BitVec 16), extra.length = 2 ∧
        (nuandLoadFrom flipLut flash fuel nleft sector buf).words =
          (bytesAt flash (sector * 256) nleft).map flipLut ++ extra ∧
        ∀ p ∈ (nuandLoadFrom flipLut flash fuel nleft sector buf).pages,
          sector ≤ p ∧ (p - sector) * 256 < nleft := by
  induction fuel with
  | zero => intro nleft sector buf h0 hle; exact absurd (Nat.le_zero.mp hle) h0
  | succ fuel ih =>
      intro nleft sector buf h0 hle hsize
      have hsector : sector < 65536 := by omega
      unfold nuandLoadFrom
      dsimp only
      split_ifs with hmore
      · obtain ⟨first, hfirst, hsent⟩ := fpgaSendFlashBytes_words flipLut
          (cyFxSpiTransfer flash sector buf) le_rfl false
        obtain rfl : first = [] := List.length_eq_zero_iff.mp hfirst
        obtain ⟨extra, hextra, hwords, hpages⟩ := ih (nleft - 256) (sector + 1)
          (fpgaSendFlashBytes flipLut (cyFxSpiTransfer flash sector buf) 256 false).1
          (by omega) (by omega) (by omega)
        have hpage : 0 + 256 ≤ 256 := by omega
        refine ⟨extra, hextra, ?_, fun p hp => ?_⟩
        · rw [hwords, hsent, bytesAt_spiTransfer hsector buf hpage, List.append_nil,
            ← List.append_assoc, ← List.map_append]
          have hsplit := Lib.bytesAt_add flash (sector * 256) 256 (nleft - 256)
          rw [show 256 + (nleft - 256) = nleft by omega] at hsplit
          rw [hsplit, Nat.add_mul, Nat.one_mul, Nat.add_zero]
        · rcases List.mem_cons.mp hp with rfl | hp
          · exact ⟨le_rfl, by omega⟩
          · obtain ⟨hlow, hhigh⟩ := hpages p hp
            exact ⟨by omega, by omega⟩
      · obtain ⟨extra, hextra, hsent⟩ := fpgaSendFlashBytes_words flipLut
          (cyFxSpiTransfer flash sector buf) (not_lt.mp hmore) true
        have hpage : 0 + nleft ≤ 256 := by omega
        refine ⟨extra, hextra, ?_, fun p hp => ?_⟩
        · rw [hsent, bytesAt_spiTransfer hsector buf hpage, Nat.add_zero]
        · obtain rfl := List.mem_singleton.mp hp
          exact ⟨le_rfl, by omega⟩

/-! ## The reader of frames -/

namespace FrameReader

def rest (flash : Memory) (r : FrameReader) : List (BitVec 8) :=
  bytesAt r.page r.offset r.avail ++ bytesAt flash (r.sector * 256) r.nleft

/-- The reader is inside a stream of `stored` bytes. -/
structure Inside (stored : ℕ) (r : FrameReader) : Prop where
  sector : 1025 ≤ r.sector
  left : r.nleft ≠ 0 → (r.sector - 1025) * 256 + r.nleft = stored
  bound : r.sector * 256 + r.nleft ≤ 2 ^ 24
  pages : ∀ p ∈ r.pages, 1025 ≤ p ∧ (p - 1025) * 256 < stored

variable {flash : Memory} {stored : ℕ} {r : FrameReader}

theorem length_rest (flash : Memory) (r : FrameReader) :
    (r.rest flash).length = r.avail + r.nleft := by
  unfold rest
  rw [List.length_append, Lib.length_bytesAt, Lib.length_bytesAt]

theorem rest_eq_nil : r.rest flash = [] ↔ r.nleft = 0 ∧ r.avail = 0 := by
  rw [← List.length_eq_zero_iff, length_rest]
  omega

theorem inside_start (page : Memory) (h : 1025 * 256 + stored ≤ 2 ^ 24) :
    Inside stored ⟨page, 1025, stored, 0, 0, []⟩ := by
  refine ⟨le_rfl, fun _ => ?_, h, fun p hp => (nomatch hp)⟩
  show (1025 - 1025) * 256 + stored = stored
  rw [Nat.sub_self, Nat.zero_mul, Nat.zero_add]

theorem refill_spec (h : r.Inside stored) (hrest : r.rest flash ≠ []) :
    ∃ r', r.refill flash = some r' ∧ r'.Inside stored ∧ r'.rest flash = r.rest flash ∧
      0 < r'.avail := by
  have hlen := length_rest flash r
  have hpos := List.length_pos_iff.mpr hrest
  unfold refill
  split
  · next havail => exact ⟨r, rfl, h, rfl, Nat.pos_of_ne_zero havail⟩
  · next havail =>
      rw [ne_eq, not_not] at havail
      rw [if_neg (show r.nleft ≠ 0 by omega)]
      have hleft : r.nleft ≠ 0 := by omega
      have hbound := h.bound
      have hstored := h.left hleft
      have hsector := h.sector
      dsimp only
      have hpage : ∃ avail, (if r.nleft > 256 then 256 else r.nleft) = avail ∧ 0 < avail ∧
          avail ≤ 256 ∧ avail ≤ r.nleft ∧ (avail = r.nleft ∨ avail = 256) := by
        refine ⟨_, rfl, ?_⟩
        split_ifs <;> omega
      obtain ⟨avail, hif, hpos', hmax, hle, hall⟩ := hpage
      rw [hif]
      refine ⟨_, rfl, ⟨?_, ?_, ?_, ?_⟩, ?_, hpos'⟩
      · exact Nat.le_succ_of_le hsector
      · intro hne
        have hne' : r.nleft - avail ≠ 0 := hne
        show (r.sector + 1 - 1025) * 256 + (r.nleft - avail) = stored
        omega
      · show (r.sector + 1) * 256 + (r.nleft - avail) ≤ 2 ^ 24
        omega
      · intro p hp
        rcases List.mem_append.mp hp with hp | hp
        · exact h.pages p hp
        · obtain rfl := List.mem_singleton.mp hp
          exact ⟨hsector, by omega⟩
      · show bytesAt (cyFxSpiTransfer flash r.sector r.page) 0 avail ++
          bytesAt flash ((r.sector + 1) * 256) (r.nleft - avail) = r.rest flash
        have hsplit := Lib.bytesAt_add flash (r.sector * 256) avail (r.nleft - avail)
        rw [show avail + (r.nleft - avail) = r.nleft by omega] at hsplit
        unfold rest
        rw [bytesAt_spiTransfer (by omega) r.page (by omega), havail, hsplit, Nat.add_zero]
        show _ = [] ++ _
        rcases hall with rfl | rfl
        · rw [Nat.sub_self]
          rfl
        · rw [Nat.add_mul, Nat.one_mul, List.nil_append]

theorem fpgaReadCompressedBytes_spec (fuel : ℕ) : ∀ (r : FrameReader) (count : ℕ),
    r.Inside stored → count ≤ fuel → count ≤ (r.rest flash).length →
    ∃ r', fpgaReadCompressedBytes flash fuel r count = some ((r.rest flash).take count, r') ∧
      r'.Inside stored ∧ r'.rest flash = (r.rest flash).drop count := by
  induction fuel with
  | zero =>
      intro r count h hfuel _
      obtain rfl := Nat.le_zero.mp hfuel
      exact ⟨r, rfl, h, rfl⟩
  | succ fuel ih =>
      intro r count h hfuel hlen
      cases count with
      | zero => exact ⟨r, rfl, h, rfl⟩
      | succ count =>
          have hne : r.rest flash ≠ [] := List.length_pos_iff.mp (by omega)
          obtain ⟨r₁, hfill, h₁, hrest₁, hpos⟩ := refill_spec h hne
          rw [← hrest₁] at hlen ⊢
          have htake : (if count + 1 < r₁.avail then count + 1 else r₁.avail) ≤ r₁.avail ∧
              (if count + 1 < r₁.avail then count + 1 else r₁.avail) ≤ count + 1 ∧
              0 < (if count + 1 < r₁.avail then count + 1 else r₁.avail) := by
            split_ifs <;> omega
          unfold fpgaReadCompressedBytes
          rw [hfill, Option.bind_some]
          dsimp only
          generalize (if count + 1 < r₁.avail then count + 1 else r₁.avail) = take at htake ⊢
          obtain ⟨hle, hcount, hpos'⟩ := htake
          have hsplit : r₁.rest flash = bytesAt r₁.page r₁.offset take ++
              rest flash { r₁ with
                offset := r₁.offset + take
                avail := r₁.avail - take } := by
            have hadd := Lib.bytesAt_add r₁.page r₁.offset take (r₁.avail - take)
            rw [show take + (r₁.avail - take) = r₁.avail by omega] at hadd
            unfold rest
            rw [hadd, List.append_assoc]
          have hinside : Inside stored { r₁ with
              offset := r₁.offset + take
              avail := r₁.avail - take } := ⟨h₁.sector, h₁.left, h₁.bound, h₁.pages⟩
          have hlen' := congrArg List.length hsplit
          rw [List.length_append, Lib.length_bytesAt] at hlen'
          obtain ⟨r', hread, h', hrest'⟩ := ih _ (count + 1 - take) hinside (by omega) (by omega)
          rw [hread]
          refine ⟨r', ?_, h', ?_⟩
          · rw [hsplit, List.take_append, Lib.length_bytesAt,
              List.take_of_length_le (le_of_eq_of_le (Lib.length_bytesAt _ _ _) hcount)]
            rfl
          · rw [hrest', hsplit, List.drop_append, Lib.length_bytesAt,
              List.drop_of_length_le (le_of_eq_of_le (Lib.length_bytesAt _ _ _) hcount),
              List.nil_append]

theorem read_spec (h : r.Inside stored) {bs rest : List (BitVec 8)}
    (hrest : r.rest flash = bs ++ rest) :
    ∃ r', r.read flash bs.length = some (bs, r') ∧ r'.Inside stored ∧ r'.rest flash = rest := by
  have hlen : bs.length ≤ (r.rest flash).length := by
    rw [hrest, List.length_append]
    exact Nat.le_add_right _ _
  obtain ⟨r', hread, h', hrest'⟩ := fpgaReadCompressedBytes_spec bs.length r bs.length h le_rfl hlen
  rw [hrest, List.take_left] at hread
  rw [hrest, List.drop_left] at hrest'
  exact ⟨r', hread, h', hrest'⟩

end FrameReader

/-! ## Frames -/

theorem fpgaSendDecodedBlock_words (flipLut : BitVec 8 → BitVec 16) (fuel : ℕ) :
    ∀ (page : Memory) (block : List (BitVec 8)) (nleft : ℕ), block ≠ [] → block.length ≤ fuel →
      block.length ≤ nleft →
      ∃ extra : List (BitVec 16), extra.length = (if block.length = nleft then 2 else 0) ∧
        (fpgaSendDecodedBlock flipLut fuel page block nleft).2 = block.map flipLut ++ extra := by
  induction fuel with
  | zero =>
      intro page block nleft hne hfuel _
      exact absurd (List.length_eq_zero_iff.mp (Nat.le_zero.mp hfuel)) hne
  | succ fuel ih =>
      intro page block nleft hne hfuel hleft
      have hcopied : ∀ count, bytesAt (writeBytes (writeBytes page 0 (List.replicate 256 0xff)) 0
          (block.take count)) 0 (block.take count).length = block.take count :=
        fun count => Lib.bytesAt_writeBytes _ 0 _
      unfold fpgaSendDecodedBlock
      rw [if_neg hne]
      dsimp only
      rcases Nat.lt_or_ge 256 block.length with hmore | hlast
      · rw [if_pos hmore]
        have hdrop : (block.drop 256).length = block.length - 256 := List.length_drop
        have hcopy := hcopied 256
        rw [List.length_take_of_le hmore.le] at hcopy
        rw [decide_eq_false (show nleft - 256 ≠ 0 by omega)]
        obtain ⟨first, hfirst, hsent⟩ := fpgaSendFlashBytes_words flipLut
          (writeBytes (writeBytes page 0 (List.replicate 256 0xff)) 0 (block.take 256)) le_rfl false
        obtain rfl : first = [] := List.length_eq_zero_iff.mp hfirst
        obtain ⟨extra, hextra, hrest⟩ := ih (fpgaSendFlashBytes flipLut
          (writeBytes (writeBytes page 0 (List.replicate 256 0xff)) 0 (block.take 256)) 256 false).1
          (block.drop 256) (nleft - 256)
          (List.length_pos_iff.mp (by omega)) (by omega) (by omega)
        refine ⟨extra, ?_, ?_⟩
        · rw [hextra, hdrop]
          congr 1
          rw [eq_iff_iff]
          omega
        · rw [hrest, hsent, hcopy, List.append_nil, ← List.append_assoc, ← List.map_append,
            List.take_append_drop]
      · rw [if_neg (not_lt.mpr hlast)]
        have hcopy := hcopied block.length
        rw [List.take_length] at hcopy ⊢
        obtain ⟨extra, hextra, hsent⟩ := fpgaSendFlashBytes_words flipLut
          (writeBytes (writeBytes page 0 (List.replicate 256 0xff)) 0 block) hlast
          (decide (nleft - block.length = 0))
        have hdone : ∀ page n, fpgaSendDecodedBlock flipLut fuel page [] n = (page, []) := by
          intro page n
          cases fuel with
          | zero => rfl
          | succ fuel => rfl
        refine ⟨extra, ?_, ?_⟩
        · rw [hextra]
          congr 1
          rw [decide_eq_true_eq, eq_iff_iff]
          omega
        · rw [List.drop_length, hdone, hsent, hcopy, List.append_nil]

/-- `stored` is the frames of the blocks of a bitstream. -/
inductive Frames (lzma : Lzma) : List (BitVec 8) → List (BitVec 8) → Prop
  | done : Frames lzma [] []
  | block {bs props data stored : List (BitVec 8)} : bs ≠ [] →
      lzma.encode (bs.take fpgaLzmaBlockBytes) = .ok (props, data) →
      props.length = lzmaPropsSize → props.length + data.length ≤ fpgaLzmaMaxBlockBytes →
      Frames lzma (bs.drop fpgaLzmaBlockBytes) stored →
      Frames lzma bs (leBytes 4 (props.length + data.length) ++ ((props ++ data) ++ stored))

section

variable {lzma : Lzma} {bs stored : List (BitVec 8)}

theorem lzmaEncodeBlock_eq_ok {block frame : List (BitVec 8)}
    (h : lzmaEncodeBlock lzma block = .ok frame) :
    ∃ props data, lzma.encode block = .ok (props, data) ∧ props.length = lzmaPropsSize ∧
      props.length + data.length ≤ fpgaLzmaMaxBlockBytes ∧
      frame = leBytes 4 (props.length + data.length) ++ (props ++ data) := by
  unfold lzmaEncodeBlock at h
  split at h
  · exact nomatch h
  · exact nomatch h
  · next props data henc =>
      dsimp only at h
      split_ifs at h with hbad
      rw [not_or, not_not, not_lt] at hbad
      exact ⟨props, data, henc, hbad.1, hbad.2, (Except.ok.inj h).symm⟩

theorem frames_of_lzmaEncodeFrom (fuel : ℕ) : ∀ bs stored : List (BitVec 8), bs.length ≤ fuel →
    lzmaEncodeFrom lzma fuel bs = .ok stored → Frames lzma bs stored := by
  induction fuel with
  | zero =>
      intro bs stored hfuel h
      obtain rfl := List.length_eq_zero_iff.mp (Nat.le_zero.mp hfuel)
      obtain rfl := Except.ok.inj h
      exact .done
  | succ fuel ih =>
      intro bs stored hfuel h
      unfold lzmaEncodeFrom at h
      split_ifs at h with hnil
      · obtain rfl := hnil
        obtain rfl := Except.ok.inj h
        exact .done
      · obtain ⟨frame, hframe, h⟩ := bind_eq_ok.mp h
        obtain ⟨rest, hrest, h⟩ := bind_eq_ok.mp h
        obtain rfl := Except.ok.inj h
        obtain ⟨props, data, henc, hprops, hmax, rfl⟩ := lzmaEncodeBlock_eq_ok hframe
        rw [List.append_assoc]
        have hdrop : (bs.drop fpgaLzmaBlockBytes).length ≤ fuel := by
          have hpos := List.length_pos_iff.mpr hnil
          rw [List.length_drop]
          unfold fpgaLzmaBlockBytes
          omega
        exact .block hnil henc hprops hmax (ih _ _ hdrop hrest)

theorem Frames.ne_nil (h : Frames lzma bs stored) (hbs : bs ≠ []) : stored ≠ [] := by
  cases h with
  | done => exact absurd rfl hbs
  | block _ _ _ _ _ => exact fun hnil => (nomatch hnil)

end

section

variable {lzma : Lzma} {flash : Memory} {r : FrameReader} {stored : ℕ}

theorem fpgaDecodeLzmaBlock_append {props data : List (BitVec 8)}
    (hprops : props.length = lzmaPropsSize) (hdata : data ≠ []) (blockLen : ℕ) :
    fpgaDecodeLzmaBlock lzma (props ++ data) blockLen =
      (lzma.decode props data blockLen).bind fun out =>
        if out.1.length = blockLen ∧ out.2 = data.length then some out.1 else none := by
  have hpos := List.length_pos_iff.mpr hdata
  unfold fpgaDecodeLzmaBlock
  rw [if_neg (by rw [List.length_append]; omega), List.take_left' hprops, List.drop_left' hprops,
    List.length_append, hprops, Nat.add_sub_cancel_left]

theorem loadBlocks_frame (lzma : Lzma) (flipLut : BitVec 8 → BitVec 16) (h : r.Inside stored)
    {props data rest : List (BitVec 8)} (hprops : props.length = lzmaPropsSize)
    (hmax : props.length + data.length ≤ fpgaLzmaMaxBlockBytes)
    (hrest : r.rest flash =
      leBytes 4 (props.length + data.length) ++ ((props ++ data) ++ rest)) :
    ∃ r' : FrameReader, r'.Inside stored ∧ r'.rest flash = rest ∧
      ∀ (fuel left : ℕ) (buf : Memory), left ≠ 0 →
        loadBlocks lzma flipLut flash (fuel + 1) left r buf =
          (fpgaDecodeLzmaBlock lzma (props ++ data) (min left fpgaLzmaBlockBytes)).bind fun block =>
            (loadBlocks lzma flipLut flash fuel (left - min left fpgaLzmaBlockBytes) r'
              (fpgaSendDecodedBlock flipLut block.length (writeBytes buf 0 (props ++ data))
                block left).1).map fun more =>
              ((fpgaSendDecodedBlock flipLut block.length (writeBytes buf 0 (props ++ data))
                block left).2 ++ more.1, more.2) := by
  obtain ⟨header, hheader, hinside, hrest₁⟩ := FrameReader.read_spec h hrest
  obtain ⟨r', hframe, h', hrest'⟩ := FrameReader.read_spec hinside hrest₁
  refine ⟨r', h', hrest', fun fuel left buf hleft => ?_⟩
  have hlen := FrameReader.length_rest flash header
  rw [hrest₁, List.length_append, List.length_append] at hlen
  rw [Lib.length_leBytes] at hheader
  rw [List.length_append] at hframe
  have hmin : (if left > fpgaLzmaBlockBytes then fpgaLzmaBlockBytes else left) =
      min left fpgaLzmaBlockBytes := by
    unfold fpgaLzmaBlockBytes
    split_ifs <;> omega
  have hclen : leNat (leBytes 4 (props.length + data.length)) = props.length + data.length := by
    refine Lib.leNat_leBytes_of_lt ?_
    unfold fpgaLzmaMaxBlockBytes at hmax
    omega
  have hok : ¬ (props.length + data.length = 0 ∨
      props.length + data.length > fpgaLzmaMaxBlockBytes ∨
      props.length + data.length > header.nleft + header.avail) := by
    unfold lzmaPropsSize at hprops
    omega
  conv_lhs => unfold loadBlocks
  rw [if_neg hleft]
  dsimp only
  rw [hheader, Option.bind_some, hclen, if_neg hok, hframe, Option.bind_some, hmin]

theorem fpgaDecodeLzmaBlock_encode (hinv : lzma.Inverts) {block props data : List (BitVec 8)}
    (hne : block ≠ []) (hlen : block.length ≤ fpgaLzmaBlockBytes)
    (henc : lzma.encode block = .ok (props, data)) (hprops : props.length = lzmaPropsSize) :
    fpgaDecodeLzmaBlock lzma (props ++ data) block.length = some block := by
  obtain ⟨hdata, hdec⟩ := hinv _ props data hne hlen henc
  rw [fpgaDecodeLzmaBlock_append hprops hdata, hdec, Option.bind_some]
  exact if_pos ⟨rfl, rfl⟩

theorem length_take_block (bs : List (BitVec 8)) :
    (bs.take fpgaLzmaBlockBytes).length = min bs.length fpgaLzmaBlockBytes := by
  rw [List.length_take, Nat.min_comm]

variable {bs frames : List (BitVec 8)}

theorem take_block_ne_nil (h : bs ≠ []) :
    bs.take fpgaLzmaBlockBytes ≠ [] := by
  have hpos := List.length_pos_iff.mpr h
  refine List.length_pos_iff.mp ?_
  rw [length_take_block]
  unfold fpgaLzmaBlockBytes
  omega

theorem loadBlocks_sends (hinv : lzma.Inverts) (flipLut : BitVec 8 → BitVec 16)
    (hframes : Frames lzma bs frames) :
    ∀ (fuel : ℕ) (r : FrameReader) (buf : Memory), r.Inside stored → r.rest flash = frames →
      bs.length < fuel →
      ∃ (extra : List (BitVec 16)) (r' : FrameReader),
        extra.length = (if bs = [] then 0 else 2) ∧
        loadBlocks lzma flipLut flash fuel bs.length r buf =
          some (bs.map flipLut ++ extra, r') ∧ r'.Inside stored ∧ r'.rest flash = [] := by
  induction hframes with
  | done =>
      intro fuel r buf h hrest hfuel
      cases fuel with
      | zero => exact absurd hfuel (Nat.not_lt_zero _)
      | succ fuel => exact ⟨[], r, rfl, rfl, h, hrest⟩
  | @block bs props data frames hne henc hprops hmax _ ih =>
      intro fuel r buf h hrest hfuel
      cases fuel with
      | zero => exact absurd hfuel (Nat.not_lt_zero _)
      | succ fuel =>
          have hpos := List.length_pos_iff.mpr hne
          have hsize := length_take_block bs
          have hdrop : (bs.drop fpgaLzmaBlockBytes).length =
              bs.length - (bs.take fpgaLzmaBlockBytes).length := by
            rw [List.length_drop, hsize]
            omega
          have hblock := take_block_ne_nil hne
          obtain ⟨r₁, h₁, hrest₁, hstep⟩ := loadBlocks_frame lzma flipLut h hprops hmax
            hrest
          obtain ⟨first, hfirst, hsent⟩ := fpgaSendDecodedBlock_words flipLut
            (bs.take fpgaLzmaBlockBytes).length (writeBytes buf 0 (props ++ data))
            (bs.take fpgaLzmaBlockBytes) bs.length hblock le_rfl (by omega)
          obtain ⟨extra, r', hextra, hload, h', hrest'⟩ := ih fuel r₁
            (fpgaSendDecodedBlock flipLut (bs.take fpgaLzmaBlockBytes).length
              (writeBytes buf 0 (props ++ data)) (bs.take fpgaLzmaBlockBytes) bs.length).1 h₁ hrest₁
            (by unfold fpgaLzmaBlockBytes at *; omega)
          rw [hdrop] at hload
          have hwords : bs.map flipLut ++ (first ++ extra) =
              (bs.take fpgaLzmaBlockBytes).map flipLut ++ first ++
                ((bs.drop fpgaLzmaBlockBytes).map flipLut ++ extra) ∧
              (first ++ extra).length = 2 := by
            rcases eq_or_ne (bs.drop fpgaLzmaBlockBytes) [] with hnil | hmore
            · rw [if_pos hnil] at hextra
              rw [hnil, List.length_nil] at hdrop
              rw [if_pos (by omega)] at hfirst
              obtain rfl := List.length_eq_zero_iff.mp hextra
              have htake : bs.take fpgaLzmaBlockBytes = bs :=
                List.take_of_length_le (List.drop_eq_nil_iff.mp hnil)
              rw [hnil, htake]
              simp [hfirst]
            · have hmore' := List.length_pos_iff.mpr hmore
              rw [if_neg hmore] at hextra
              rw [if_neg (by omega)] at hfirst
              obtain rfl := List.length_eq_zero_iff.mp hfirst
              rw [List.append_nil, List.nil_append, ← List.append_assoc, ← List.map_append,
                List.take_append_drop]
              exact ⟨rfl, hextra⟩
          refine ⟨first ++ extra, r', ?_, ?_, h', hrest'⟩
          · rw [if_neg hne]
            exact hwords.2
          · rw [hstep fuel bs.length buf (by omega), ← hsize,
              fpgaDecodeLzmaBlock_encode hinv hblock (by omega) henc hprops, Option.bind_some,
              hload, Option.map_some, hsent, hwords.1]

theorem loadBlocks_leaves (flipLut : BitVec 8 → BitVec 16) (hframes : Frames lzma bs frames) :
    ∀ (fuel left : ℕ) (r : FrameReader) (buf : Memory), r.Inside stored → r.rest flash = frames →
      left + fpgaLzmaBlockBytes ≤ bs.length →
      ∀ done ∈ loadBlocks lzma flipLut flash fuel left r buf, done.2.rest flash ≠ [] := by
  induction hframes with
  | done =>
      intro fuel left r buf _ _ hleft
      exact absurd hleft (by simp [fpgaLzmaBlockBytes])
  | @block bs props data frames hne henc hprops hmax hmore ih =>
      intro fuel left r buf h hrest hleft done hdone
      cases fuel with
      | zero => exact nomatch hdone
      | succ fuel =>
          rcases Nat.eq_zero_or_pos left with rfl | hpos
          · obtain rfl : ([], r) = done := Option.some.inj hdone
            exact fun hnil => (nomatch hrest.symm.trans hnil)
          · obtain ⟨r₁, h₁, hrest₁, hstep⟩ := loadBlocks_frame lzma flipLut h hprops hmax
              hrest
            rw [hstep fuel left buf (by omega)] at hdone
            obtain ⟨block, hblock, hdone⟩ := Option.bind_eq_some_iff.mp hdone
            obtain ⟨more, hload, rfl⟩ := Option.map_eq_some_iff.mp hdone
            rcases Nat.lt_or_ge left fpgaLzmaBlockBytes with hshort | hfull
            · -- the last block is cut, so this was its frame
              rw [Nat.min_eq_left hshort.le, Nat.sub_self] at hload
              have hbehind : bs.drop fpgaLzmaBlockBytes ≠ [] := by
                refine List.length_pos_iff.mp ?_
                rw [List.length_drop]
                omega
              cases fuel with
              | zero => exact nomatch hload
              | succ fuel =>
                  obtain rfl : ([], r₁) = more := Option.some.inj hload
                  show r₁.rest flash ≠ []
                  rw [hrest₁]
                  exact hmore.ne_nil hbehind
            · rw [Nat.min_eq_right hfull] at hload
              refine ih fuel _ r₁ _ h₁ hrest₁ ?_ more hload
              rw [List.length_drop]
              omega

/-! ## The loader of frames -/

theorem nuandLoadCompressedFromFlash_sends (hinv : lzma.Inverts) (flipLut : BitVec 8 → BitVec 16)
    (page buf : Memory) (hframes : Frames lzma bs frames)
    (hne : bs ≠ []) (hsize : 1025 * 256 + frames.length ≤ 2 ^ 24)
    (hflash : bytesAt flash (1025 * 256) frames.length = frames) :
    ∃ (extra : List (BitVec 16)) (pages : List ℕ), extra.length = 2 ∧
      nuandLoadCompressedFromFlash lzma flipLut flash page buf bs.length frames.length =
        some ⟨bs.map flipLut ++ extra, pages⟩ ∧
      ∀ p ∈ pages, 1025 ≤ p ∧ (p - 1025) * 256 < frames.length := by
  have hlen := List.length_pos_iff.mpr hne
  have hlen' := List.length_pos_iff.mpr (hframes.ne_nil hne)
  obtain ⟨extra, r', hextra, hload, h', hrest'⟩ := loadBlocks_sends hinv flipLut
    hframes (bs.length + 1) _ buf (FrameReader.inside_start page hsize) hflash (Nat.lt_succ_self _)
  refine ⟨extra, r'.pages, hextra.trans (if_neg hne), ?_, h'.pages⟩
  unfold nuandLoadCompressedFromFlash
  rw [if_neg (by omega), hload, Option.bind_some]
  exact if_pos (FrameReader.rest_eq_nil.mp hrest')

theorem nuandLoadCompressedFromFlash_short (flipLut : BitVec 8 → BitVec 16) (page buf : Memory)
    (hframes : Frames lzma bs frames)
    {fpgaLen : ℕ} (hshort : fpgaLen + fpgaLzmaBlockBytes ≤ bs.length)
    (hsize : 1025 * 256 + frames.length ≤ 2 ^ 24)
    (hflash : bytesAt flash (1025 * 256) frames.length = frames) :
    nuandLoadCompressedFromFlash lzma flipLut flash page buf fpgaLen frames.length = none := by
  unfold nuandLoadCompressedFromFlash
  split_ifs with hzero
  · rfl
  · refine Option.bind_eq_none_iff.mpr fun done hdone => if_neg fun hboth => ?_
    have hrest := loadBlocks_leaves flipLut hframes _ fpgaLen _ buf
      (FrameReader.inside_start page hsize) hflash hshort done hdone
    exact hrest (FrameReader.rest_eq_nil.mpr hboth)

end

end BladeRF
