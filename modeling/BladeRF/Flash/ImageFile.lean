/-
# `Flash.ImageFile` — the image files of the host

`bladerf_image_write` puts a header, a digest over the whole file and the data into
a file, and `bladerf_image_read` checks the digest, walks over the header with its own
widths and slides the data to the front.  The two agree, and the reader accepts no
other file: what it returns spells the file.  An image without data is written, but
not read.
-/
import BladeRF.Lib.Layout

namespace BladeRF

open Lib (beBytes beNat cut overwrite)

/-- `image_magic`, `"bladeRF"`. -/
def imageMagic : List (BitVec 8) := [0x62, 0x6c, 0x61, 0x64, 0x65, 0x52, 0x46]

/-- `BLADERF_IMAGE_TYPE_RAW`, 0, to `BLADERF_IMAGE_TYPE_GAIN_CAL`, 12. -/
def imageTypeIsValid (type : BitVec 32) : Bool := type.toNat ≤ 12

/-- `CALC_IMAGE_SIZE` -/
def calcImageSize (len : ℕ) : ℕ := 7 + 32 + 3 * 2 + 8 + 33 + 128 + 3 * 4 + len

/-- `BLADERF_ERR_*` of the image files. -/
inductive ImageError
  | inval
  | checksum
  deriving DecidableEq

/-- `struct bladerf_image`; the strings without the terminator behind them. -/
structure BladerfImage where
  magic : List (BitVec 8)
  checksum : List (BitVec 8)
  major : BitVec 16
  minor : BitVec 16
  patch : BitVec 16
  timestamp : BitVec 64
  serial : List (BitVec 8)
  reserved : List (BitVec 8)
  type : BitVec 32
  address : BitVec 32
  length : BitVec 32
  data : List (BitVec 8)
  deriving DecidableEq

/-- The arrays have the sizes of the struct, and there are `length` bytes of data. -/
structure BladerfImage.Sized (img : BladerfImage) : Prop where
  magic : img.magic.length = 7
  checksum : img.checksum.length = 32
  serial : img.serial.length = 33
  reserved : img.reserved.length = 128
  data : img.data.length = img.length.toNat

section

variable (sha256 : List (BitVec 8) → {d : List (BitVec 8) // d.length = 32})

/-! ## The writer -/

def packImage (img : BladerfImage) : List (BitVec 8) :=
  let buf := [img.magic, List.replicate 32 0, beBytes 2 img.major.toNat, beBytes 2 img.minor.toNat,
    beBytes 2 img.patch.toNat, beBytes 8 img.timestamp.toNat, img.serial, List.replicate 128 0,
    beBytes 4 img.type.toNat, beBytes 4 img.address.toNat, beBytes 4 img.length.toNat,
    img.data.take img.length.toNat].flatten
  overwrite buf 7 (sha256 buf).val

/-- `bladerf_image_write` up to the file; `ebsize` is the size of an erase block. -/
def bladerfImageWrite (ebsize : ℕ) (img : BladerfImage) : Except ImageError (List (BitVec 8)) :=
  if img.magic ≠ imageMagic then .error .inval
  else if !imageTypeIsValid img.type then .error .inval
  else if img.type = 0 ∧ img.address ≠ 0xffffffff ∧
      (img.address.toNat % ebsize ≠ 0 ∨ img.length.toNat % ebsize ≠ 0) then .error .inval
  else .ok (packImage sha256 img)

/-! ## The reader -/

/-- `verify_checksum`, with the buffer as it leaves it. -/
def verifyChecksum (buf : List (BitVec 8)) : Except ImageError (List (BitVec 8)) :=
  if buf.length ≤ calcImageSize 0 then .error .inval
  else
    let expected := (buf.drop 7).take 32
    let cleared := overwrite buf 7 (List.replicate 32 0)
    if expected ≠ (sha256 cleared).val then .error .checksum
    else .ok (overwrite cleared 7 expected)

/-- The widths `unpack_image` walks with. -/
def imageWidths : List ℕ := [7, 32, 2, 2, 2, 8, 33, 128, 4, 4, 4]

/-- The `k`-th field, with the data behind the last one. -/
def imageField (buf : List (BitVec 8)) (k : ℕ) : List (BitVec 8) := (cut imageWidths buf).getD k []

def unpackImage (buf : List (BitVec 8)) : Except ImageError BladerfImage :=
  let type := BitVec.ofNat 32 (beNat (imageField buf 8))
  let length := BitVec.ofNat 32 (beNat (imageField buf 10))
  if buf.length < calcImageSize 0 then .error .inval
  else if imageField buf 0 ≠ imageMagic then .error .inval
  else if !imageTypeIsValid type then .error .inval
  else if buf.length ≠ calcImageSize length.toNat then .error .inval
  else .ok
    { magic := imageField buf 0
      checksum := imageField buf 1
      major := BitVec.ofNat 16 (beNat (imageField buf 2))
      minor := BitVec.ofNat 16 (beNat (imageField buf 3))
      patch := BitVec.ofNat 16 (beNat (imageField buf 4))
      timestamp := BitVec.ofNat 64 (beNat (imageField buf 5))
      serial := imageField buf 6
      reserved := imageField buf 7
      type := type
      address := BitVec.ofNat 32 (beNat (imageField buf 9))
      length := length
      data := (imageField buf 11).take length.toNat }

/-- `bladerf_image_read` behind the file. -/
def bladerfImageRead (buf : List (BitVec 8)) : Except ImageError BladerfImage := do
  let buf ← verifyChecksum sha256 buf
  unpackImage buf

/-! ## What the reader accepts -/

/-- The header of a file that holds `img`, field by field. -/
def BladerfImage.fields (img : BladerfImage) : List (List (BitVec 8)) :=
  [img.magic, img.checksum, beBytes 2 img.major.toNat, beBytes 2 img.minor.toNat,
    beBytes 2 img.patch.toNat, beBytes 8 img.timestamp.toNat, img.serial, img.reserved,
    beBytes 4 img.type.toNat, beBytes 4 img.address.toNat, beBytes 4 img.length.toNat]

/-- The file that holds `img`. -/
def BladerfImage.bytes (img : BladerfImage) : List (BitVec 8) := (img.fields ++ [img.data]).flatten

def BladerfImage.cleared (img : BladerfImage) : BladerfImage :=
  { img with checksum := List.replicate 32 0 }

structure BladerfImage.Valid (img : BladerfImage) : Prop extends img.Sized where
  known : img.magic = imageMagic
  typed : imageTypeIsValid img.type = true

/-- The image as `pack_image` writes it. -/
def BladerfImage.written (img : BladerfImage) : BladerfImage :=
  let blank := { img with checksum := List.replicate 32 0, reserved := List.replicate 128 0 }
  { blank with checksum := (sha256 blank.bytes).val }

section

variable {sha256} {img : BladerfImage} {buf : List (BitVec 8)}

theorem BladerfImage.Sized.map_length (h : img.Sized) :
    img.fields.map List.length = imageWidths := by
  simp only [BladerfImage.fields, List.map_cons, List.map_nil, Lib.length_beBytes, h.magic,
    h.checksum, h.serial, h.reserved]
  rfl

theorem BladerfImage.Sized.length_bytes (h : img.Sized) :
    img.bytes.length = calcImageSize img.data.length := by
  rw [BladerfImage.bytes, List.length_flatten, List.map_append, h.map_length, List.sum_append,
    List.map_singleton, List.sum_singleton]
  rfl

theorem BladerfImage.Sized.cut_bytes (h : img.Sized) :
    cut imageWidths img.bytes = img.fields ++ [img.data] := by
  rw [← h.map_length]
  exact Lib.cut_flatten img.fields img.data

theorem length_imageField (hbuf : calcImageSize 0 ≤ buf.length) (k : ℕ) :
    (imageField buf k).length = (imageWidths ++ [buf.length - imageWidths.sum]).getD k 0 := by
  have hwidths : (cut imageWidths buf).map List.length =
      imageWidths ++ [buf.length - imageWidths.sum] := Lib.map_length_cut hbuf
  have hmap := congrArg (·[k]?) hwidths
  rw [imageField, List.getD_eq_getElem?_getD, List.getD_eq_getElem?_getD, ← hmap,
    List.getElem?_map]
  cases (cut imageWidths buf)[k]? <;> rfl

theorem unpackImage_eq_ok_iff : unpackImage buf = .ok img ↔ img.Valid ∧ buf = img.bytes := by
  unfold unpackImage
  dsimp only
  constructor
  · intro h
    split_ifs at h with hsize hmagic htype hlength
    cases h
    have hw := fun k => length_imageField (Nat.not_lt.mp hsize) k
    have hdata : (imageField buf 11).length =
        (BitVec.ofNat 32 (beNat (imageField buf 10))).toNat := by
      rw [hw 11]
      show buf.length - calcImageSize 0 = _
      rw [not_not.mp hlength]
      exact Nat.add_sub_cancel_left ..
    have htake := List.take_of_length_le hdata.le
    refine ⟨⟨⟨hw 0, hw 1, hw 6, hw 7, ?_⟩, not_not.mp hmagic, by simpa using htype⟩, ?_⟩
    · rw [htake]
      exact hdata
    · unfold BladerfImage.bytes BladerfImage.fields
      dsimp only
      have half : ∀ k, (imageField buf k).length = 2 →
          beBytes 2 (BitVec.ofNat 16 (beNat (imageField buf k))).toNat = imageField buf k :=
        fun _ h => Lib.beBytes_beNat rfl h
      have word : ∀ k, (imageField buf k).length = 4 →
          beBytes 4 (BitVec.ofNat 32 (beNat (imageField buf k))).toNat = imageField buf k :=
        fun _ h => Lib.beBytes_beNat rfl h
      have time : beBytes 8 (BitVec.ofNat 64 (beNat (imageField buf 5))).toNat =
          imageField buf 5 := Lib.beBytes_beNat rfl (hw 5)
      rw [htake, half 2 (hw 2), half 3 (hw 3), half 4 (hw 4), time, word 8 (hw 8), word 9 (hw 9),
        word 10 (hw 10)]
      exact (Lib.flatten_cut imageWidths buf).symm
  · rintro ⟨h, rfl⟩
    have hfield : ∀ k, imageField img.bytes k = (img.fields ++ [img.data]).getD k [] :=
      fun k => by rw [imageField, h.cut_bytes]
    have hmagic : imageField img.bytes 0 = img.magic := hfield 0
    have half : ∀ {k v}, (img.fields ++ [img.data]).getD k [] = beBytes 2 v.toNat →
        BitVec.ofNat 16 (beNat (imageField img.bytes k)) = v :=
      fun {k v} hv => by rw [hfield, hv, Lib.ofNat_beNat_beBytes rfl v]
    have word : ∀ {k v}, (img.fields ++ [img.data]).getD k [] = beBytes 4 v.toNat →
        BitVec.ofNat 32 (beNat (imageField img.bytes k)) = v :=
      fun {k v} hv => by rw [hfield, hv, Lib.ofNat_beNat_beBytes rfl v]
    have time : BitVec.ofNat 64 (beNat (imageField img.bytes 5)) = img.timestamp := by
      rw [hfield]
      exact Lib.ofNat_beNat_beBytes rfl img.timestamp
    have hdata : (imageField img.bytes 11).take img.length.toNat = img.data := by
      rw [hfield]
      exact List.take_of_length_le h.data.le
    rw [@half 2 img.major rfl, @half 3 img.minor rfl, @half 4 img.patch rfl, time,
      @word 8 img.type rfl, @word 9 img.address rfl, @word 10 img.length rfl, hdata, hmagic,
      hfield 1, hfield 6, hfield 7, h.length_bytes, h.data, if_neg (by simp [calcImageSize]),
      if_neg (not_not.mpr h.known), if_neg (by simp [h.typed]), if_neg (not_not.mpr rfl)]
    rfl

theorem verifyChecksum_ok {out : List (BitVec 8)} (h : verifyChecksum sha256 buf = .ok out) :
    out = buf ∧ calcImageSize 0 < buf.length := by
  unfold verifyChecksum at h
  dsimp only at h
  split_ifs at h with hsize
  cases h
  have hlt := Nat.not_le.mp hsize
  refine ⟨@Lib.overwrite_back _ _ (List.replicate 32 0) _ ?_, hlt⟩
  exact le_trans (by decide) hlt.le

theorem BladerfImage.Sized.cleared (h : img.Sized) : img.cleared.Sized :=
  ⟨h.magic, List.length_replicate, h.serial, h.reserved, h.data⟩

theorem BladerfImage.Sized.overwrite_checksum (h : img.Sized) {d : List (BitVec 8)}
    (hd : d.length = 32) : overwrite img.bytes 7 d = { img with checksum := d }.bytes :=
  Lib.overwrite_field h.magic (h.checksum.trans hd.symm)

theorem verifyChecksum_bytes (h : img.Sized) (hlength : img.length ≠ 0) :
    verifyChecksum sha256 img.bytes =
      if img.checksum = (sha256 img.cleared.bytes).val then .ok img.bytes
      else .error .checksum := by
  have hpos : img.length.toNat ≠ 0 := fun h0 => hlength (BitVec.eq_of_toNat_eq h0)
  have hsize : ¬img.bytes.length ≤ calcImageSize 0 := by
    rw [h.length_bytes, h.data]
    unfold calcImageSize
    omega
  have hold : (img.bytes.drop 7).take 32 = img.checksum := by
    show ((img.magic ++ (img.checksum ++ _)).drop 7).take 32 = _
    rw [List.drop_left' h.magic, List.take_left' h.checksum]
  have hcleared : overwrite img.bytes 7 (List.replicate 32 0) = img.cleared.bytes :=
    h.overwrite_checksum List.length_replicate
  unfold verifyChecksum
  dsimp only
  rw [if_neg hsize, hold, hcleared, h.cleared.overwrite_checksum h.checksum, ite_not]
  rfl

theorem bladerfImageRead_eq_ok_iff : bladerfImageRead sha256 buf = .ok img ↔
    (img.Valid ∧ img.length ≠ 0 ∧ img.checksum = (sha256 img.cleared.bytes).val) ∧
      buf = img.bytes := by
  constructor
  · intro h
    cases hout : verifyChecksum sha256 buf with
    | error e =>
        rw [bladerfImageRead, hout] at h
        cases h
    | ok out =>
        obtain ⟨rfl, hsize⟩ := verifyChecksum_ok hout
        rw [bladerfImageRead, hout] at h
        obtain ⟨hvalid, rfl⟩ := unpackImage_eq_ok_iff.mp h
        have hlength : img.length ≠ 0 := by
          intro h0
          rw [hvalid.toSized.length_bytes, hvalid.data, h0] at hsize
          exact absurd hsize (lt_irrefl _)
        refine ⟨⟨hvalid, hlength, ?_⟩, rfl⟩
        rw [verifyChecksum_bytes hvalid.toSized hlength] at hout
        by_contra hdigest
        rw [if_neg hdigest] at hout
        cases hout
  · rintro ⟨⟨hvalid, hlength, hdigest⟩, rfl⟩
    rw [bladerfImageRead, verifyChecksum_bytes hvalid.toSized hlength, if_pos hdigest]
    exact unpackImage_eq_ok_iff.mpr ⟨hvalid, rfl⟩

theorem packImage_eq (h : img.Sized) : packImage sha256 img = (img.written sha256).bytes := by
  have hblank : BladerfImage.Sized
      { img with checksum := List.replicate 32 0, reserved := List.replicate 128 0 } :=
    ⟨h.magic, List.length_replicate, h.serial, List.length_replicate, h.data⟩
  unfold packImage
  rw [List.take_of_length_le h.data.le]
  exact hblank.overwrite_checksum (sha256 _).property

end

end

/-- What is read is what the file spells, and what is written is read back; only an
image without data is not. -/
theorem image_file_exact (sha256 : List (BitVec 8) → {d : List (BitVec 8) // d.length = 32}) :
    (∀ buf img, bladerfImageRead sha256 buf = .ok img ↔
      (img.Valid ∧ img.length ≠ 0 ∧ img.checksum = (sha256 img.cleared.bytes).val) ∧
        buf = img.bytes) ∧
    ∀ ebsize img file, img.Sized → bladerfImageWrite sha256 ebsize img = .ok file →
      bladerfImageRead sha256 file =
        if img.length = 0 then .error .inval else .ok (img.written sha256) := by
  refine ⟨fun _ _ => bladerfImageRead_eq_ok_iff, fun ebsize img file h hwrite => ?_⟩
  unfold bladerfImageWrite at hwrite
  split_ifs at hwrite with hmagic htype
  cases hwrite
  have hsized : (img.written sha256).Sized :=
    ⟨h.magic, (sha256 _).property, h.serial, List.length_replicate, h.data⟩
  rw [packImage_eq h]
  split_ifs with hlength
  · have hshort : (img.written sha256).bytes.length ≤ calcImageSize 0 := by
      rw [hsized.length_bytes, hsized.data]
      show calcImageSize img.length.toNat ≤ _
      rw [hlength]
      exact le_rfl
    rw [bladerfImageRead, verifyChecksum, if_pos hshort]
    rfl
  · have htyped : imageTypeIsValid img.type = true := by simpa using htype
    exact bladerfImageRead_eq_ok_iff.mpr
      ⟨⟨⟨hsized, not_not.mp hmagic, htyped⟩, hlength, rfl⟩, rfl⟩

end BladeRF
