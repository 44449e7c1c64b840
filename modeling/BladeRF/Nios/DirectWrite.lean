/-
# `Nios.DirectWrite` — AD9361 registers written past the driver

`UPDATE_BITS` changes bits of one AD9361 register and `WRITE_BATCH` writes up to
three, each in a single request.  Firmware that does not know them echoes the
request, and the host falls back to single reads and writes.  The module follows
both from the host function through the two places where the firmware answers a
request, `pkt_16x64` and the safe-point hook, down to the SPI commands, and says
which answers make the host fall back.
-/
import BladeRF.Nios.Agreement
import BladeRF.Nios.Dispatch
import Mathlib.Tactic.IntervalCases

namespace BladeRF

/-! ## The SPI bus -/

/-- What the firmware does on the bus it shares with the other SPI masters. -/
inductive SpiOp where
  | lock
  | unlock
  /-- `bladerf_spi_command_bounded` without a read -/
  | write (out : List (BitVec 8))
  /-- `bladerf_spi_command_bounded` that reads one byte -/
  | read (out : List (BitVec 8)) (current : BitVec 8)

/-- The bus: whether the `n`-th operation succeeds and what it would read, and
the operations so far. -/
structure SpiBus where
  answers : ℕ → Bool
  input : ℕ → BitVec 8
  log : List (SpiOp × Bool)

namespace SpiBus

def act (bus : SpiBus) (op : SpiOp) : Bool × SpiBus :=
  let ok := bus.answers bus.log.length
  (ok, { bus with log := bus.log ++ [(op, ok)] })

def adiSpiWriteUnlocked (bus : SpiBus) (addr : BitVec 16) (data : BitVec 64) : Bool × SpiBus :=
  if addr &&& 0x0c00 ≠ 0 then (false, bus)
  else
    let bytes := ((addr >>> 12) &&& 0x7).toNat + 1
    let data8 := (List.range 8).map fun i => (data >>> (8 * (7 - i))).setWidth 8
    bus.act (.write ([((addr >>> 8) ||| 0x80).setWidth 8, addr.setWidth 8] ++ data8.take bytes))

/-- `adi_spi_update_bits`: success, `*result`, and the bus. -/
def adiSpiUpdateBits (bus : SpiBus) (addr : BitVec 16) (mask value : BitVec 8) :
    (Bool × BitVec 8) × SpiBus :=
  if mask = 0 ∨ 0x03ff < addr.toNat then ((false, 0), bus)
  else
    let (locked, bus) := bus.act .lock
    if !locked then ((false, 0), bus)
    else
      let current := bus.input bus.log.length
      let (ok, bus) := bus.act (.read [(addr >>> 8).setWidth 8, addr.setWidth 8] current)
      if !ok then ((false, 0), (bus.act .unlock).2)
      else
        let result := (current &&& ~~~mask) ||| (value &&& mask)
        let (ok, bus) := bus.act
          (.write [((addr >>> 8) ||| 0x80).setWidth 8, addr.setWidth 8, result])
        let (unlocked, bus) := bus.act .unlock
        ((unlocked && ok, result), bus)

/-- The register and the value of the `i`-th entry of a batch. -/
def batchEntry (data : BitVec 64) (i : ℕ) : BitVec 16 × BitVec 8 :=
  let entry := (data >>> (18 * i)) &&& 0x3ffff
  ((entry &&& 0x3ff).setWidth 16, ((entry >>> 10) &&& 0xff).setWidth 8)

/-- The loop of `adi_spi_write_register_batch` over the `n` entries from the
`i`-th on: success, `*completed`, and the bus. -/
def writeEntries (data : BitVec 64) : ℕ → ℕ → SpiBus → (Bool × ℕ) × SpiBus
  | 0, i, bus => ((true, i), bus)
  | n + 1, i, bus =>
      let (reg, value) := batchEntry data i
      let (ok, bus) := bus.adiSpiWriteUnlocked (0x8000 ||| reg) (value.setWidth 64 <<< 56)
      if ok then writeEntries data n (i + 1) bus else ((false, i), bus)

def adiSpiWriteRegisterBatch (bus : SpiBus) (count : BitVec 16) (data : BitVec 64) :
    (Bool × BitVec 8) × SpiBus :=
  if count = 0 ∨ 3 < count.toNat then ((false, 0), bus)
  else
    let (locked, bus) := bus.act .lock
    if !locked then ((false, 0xff), bus)
    else
      let ((success, completed), bus) := writeEntries data count.toNat 0 bus
      let (unlocked, bus) := bus.act .unlock
      ((unlocked && success, BitVec.ofNat 8 completed), bus)

end SpiBus

/-! ## The firmware -/

def rficDirectAd9361WriteAllowed (faulted deviceOwned niosPhyPresent : Bool) : Bool :=
  (!faulted && !deviceOwned) && !niosPhyPresent

def rficDirectAd9361BatchAllowed (faulted deviceOwned niosPhyPresent : Bool)
    (count : BitVec 16) : Bool :=
  if count = 0 ∨ 3 < count.toNat then false
  else rficDirectAd9361WriteAllowed faulted deviceOwned niosPhyPresent

/-- The NIOS of a bladeRF-micro as a direct write finds it; `rest` is what the
other targets ask for. -/
structure DirectNios where
  libad936x : Bool
  faulted : Bool
  owners : Owners
  /-- `rfic_phy_present()` -/
  phyPresent : Bool
  bus : SpiBus
  rest : Device16x64

/-- Who answers: `pkt_16x64` from the main loop, or the hook at a safe point,
where a request goes that arrived behind the arrival fence. -/
inductive DispatchPath where
  | mainLoop
  | safePoint

namespace DirectNios

variable (s : DirectNios)

def admits : Bool :=
  !s.libad936x || rficDirectAd9361WriteAllowed s.faulted s.owners.ownsDevice s.phyPresent

/-- What `pkt_16x64` asks. -/
def device : Device16x64 :=
  { s.rest with
    micro := true
    libad936x := s.libad936x
    directAd9361WriteAllowed :=
      rficDirectAd9361WriteAllowed s.faulted s.owners.ownsDevice s.phyPresent
    directAd9361BatchAllowed := fun count _ =>
      rficDirectAd9361BatchAllowed s.faulted s.owners.ownsDevice s.phyPresent count
    adiSpiWriteRegisterBatch := fun count data => (s.bus.adiSpiWriteRegisterBatch count data).1
    adiSpiUpdateBits := fun addr mask value => (s.bus.adiSpiUpdateBits addr mask value).1 }

/-- The bus after `pkt_16x64`, as far as the two targets go. -/
def busAfter (p : Packet) : SpiBus :=
  let req := niosPkt16x64.unpack p
  let addr := BitVec.ofNat 16 req.addr
  let data := BitVec.ofNat 64 req.data
  let mask : BitVec 8 := (data >>> 48).setWidth 8
  let value : BitVec 8 := (data >>> 40).setWidth 8
  if niosPkt16x64TransactionId p ≠ 0 ∨ !req.write then s.bus
  else if req.target = niosPkt16x64TargetAd9361WriteBatch then
    if (!s.libad936x || s.device.directAd9361BatchAllowed addr data) &&
        niosPkt16x64BatchPayloadValid addr data then
      (s.bus.adiSpiWriteRegisterBatch addr data).2
    else s.bus
  else if req.target = niosPkt16x64TargetAd9361UpdateBits then
    if (!s.libad936x || s.device.directAd9361WriteAllowed) && data >>> 56 == 0xa6 &&
        mask != 0 && value &&& ~~~mask == 0 && decide (addr.toNat ≤ 0x03ff) &&
        data &&& 0x000000ffffffffff == 0 then
      (s.bus.adiSpiUpdateBits addr mask value).2
    else s.bus
  else s.bus

/-- The answer to a request of a target other than the RFIC, with the bus after
it; none while the hook keeps the request. -/
def answer (path : DispatchPath) (p : Packet) : Option Packet × SpiBus :=
  match path with
  | .mainLoop => (some (s.device.pkt16x64 p), s.busAfter p)
  | .safePoint =>
      if heldForOwner p s.owners then (none, s.bus)
      else
        match serviceAction p s.owners with
        | .answer .handler => (some (s.device.pkt16x64 p), s.busAfter p)
        | .answer .packed =>
            let req := niosPkt16x64.unpack p
            (some (niosPkt16x64RespPack req.target req.write (BitVec.ofNat 16 req.addr)
              (BitVec.ofNat 64 req.data) false), s.bus)
        | _ => (none, s.bus)

end DirectNios

/-! ## The host -/

inductive DirectStatus where
  | ok
  | inval
  | unsupported
  | fpgaOp
  | access
deriving DecidableEq

/-- `NIOS_PKT_16x64_UPDATE_BITS_REQUEST`, with its marker. -/
def updateBitsRequest (mask value : BitVec 8) : BitVec 64 :=
  0xa6 <<< 56 ||| (mask.setWidth 64 <<< 48) ||| (value.setWidth 64 <<< 40)

/-- `nios_ad9361_spi_update_bits`; `access` is the response of `nios_access`. -/
def niosAd9361SpiUpdateBits (access : Packet → Option Packet) (reg : BitVec 16)
    (mask value : BitVec 8) : DirectStatus :=
  let requestData := updateBitsRequest mask value
  if 0x03ff < reg.toNat ∨ mask = 0 ∨ value &&& ~~~mask ≠ 0 then .inval
  else
    match access (niosPkt16x64Pack niosPkt16x64TargetAd9361UpdateBits true reg requestData) with
    | none => .access
    | some buf =>
        let responseData := (niosPkt16x64.unpack buf).data
        let success := buf.flag 2 2
        if !success ∧ responseData = requestData.toNat then .unsupported
        else if !success ∨ 0xff < responseData then .fpgaOp
        else .ok

/-- The loop of `nios_ad9361_spi_write_batch` that packs the entries from the
`i`-th on behind `data`. -/
def packEntries : ℕ → BitVec 64 → List (BitVec 16 × BitVec 8) → BitVec 64
  | _, data, [] => data
  | i, data, (reg, value) :: entries =>
      packEntries (i + 1)
        (data ||| ((reg.setWidth 64 ||| (value.setWidth 64 <<< 10)) <<< (18 * i))) entries

def batchRequest (entries : List (BitVec 16 × BitVec 8)) : BitVec 64 :=
  packEntries 0 (0xa5 <<< 56) entries

def BatchArgs (entries : List (BitVec 16 × BitVec 8)) : Prop :=
  entries ≠ [] ∧ entries.length ≤ 3 ∧ ∀ e ∈ entries, e.1.toNat ≤ 0x3ff

instance (entries : List (BitVec 16 × BitVec 8)) : Decidable (BatchArgs entries) :=
  have := List.decidableBAll (fun e : BitVec 16 × BitVec 8 => e.1.toNat ≤ 0x3ff) entries
  inferInstanceAs (Decidable (_ ∧ _ ∧ _))

def niosAd9361SpiWriteBatch (access : Packet → Option Packet)
    (entries : List (BitVec 16 × BitVec 8)) : DirectStatus :=
  if ¬ BatchArgs entries then .inval
  else
    match access (niosPkt16x64Pack niosPkt16x64TargetAd9361WriteBatch true
        (BitVec.ofNat 16 entries.length) (batchRequest entries)) with
    | none => .access
    | some buf =>
        let responseData := (niosPkt16x64.unpack buf).data
        let success := buf.flag 2 2
        if !success ∧ responseData >>> 56 = 0xa5 then .unsupported
        else if !success ∨ responseData ≠ entries.length then .fpgaOp
        else .ok

/-! ## Entries -/

def entryBits (e : BitVec 16 × BitVec 8) : BitVec 18 :=
  (e.1.setWidth 10).setWidth 18 ||| (e.2.setWidth 18 <<< 10)

theorem entryBits_eq {e : BitVec 16 × BitVec 8} (h : e.1.toNat ≤ 0x3ff) :
    (e.1.setWidth 64 ||| (e.2.setWidth 64 <<< 10) : BitVec 64) = (entryBits e).setWidth 64 := by
  have hshift : e.1 >>> 10 = 0 := by bv_omega
  have hhigh : ∀ i, e.1.getLsbD (10 + i) = false := by
    intro i
    have hbit := congrArg (fun b : BitVec 16 => b.getLsbD i) hshift
    simpa using hbit
  apply BitVec.eq_of_getLsbD_eq
  intro j hj
  simp only [entryBits, BitVec.getLsbD_or, BitVec.getLsbD_setWidth, BitVec.getLsbD_shiftLeft]
  rcases Nat.lt_or_ge j 10 with hlow | hlow
  · have hentry : j < 18 := by omega
    simp [hlow, hj, hentry]
  · obtain ⟨k, rfl⟩ := Nat.exists_eq_add_of_le hlow
    rcases Nat.lt_or_ge k 8 with hk | hk
    · have hentry : 10 + k < 18 := by omega
      have hword : k < 64 := by omega
      have hvalue : k < 18 := by omega
      simp [hhigh, hj, hentry, hword, hvalue]
    · simp [hhigh, BitVec.getLsbD_of_ge _ _ hk]

theorem entryBits_decode {e : BitVec 16 × BitVec 8} (h : e.1.toNat ≤ 0x3ff) :
    ((((entryBits e).setWidth 64 : BitVec 64) &&& 0x3ff).setWidth 16,
      ((((entryBits e).setWidth 64 : BitVec 64) >>> 10) &&& 0xff).setWidth 8) = e := by
  have hreg : e.1 &&& 0x3ff = e.1 := by
    apply BitVec.eq_of_toNat_eq
    rw [BitVec.toNat_and]
    show e.1.toNat &&& (2 ^ 10 - 1) = e.1.toNat
    rw [Nat.and_two_pow_sub_one_eq_mod, Nat.mod_eq_of_lt (by omega)]
  refine Prod.ext ?_ ?_
  · rw [← hreg]
    apply BitVec.eq_of_getLsbD_eq
    intro j hj
    simp only [entryBits]
    interval_cases j <;> simp
  · apply BitVec.eq_of_getLsbD_eq
    intro j hj
    simp only [entryBits]
    interval_cases j <;> simp

def packedBits (a b c : BitVec 18) : BitVec 64 :=
  0xa5 <<< 56 ||| a.setWidth 64 ||| (b.setWidth 64 <<< 18) ||| (c.setWidth 64 <<< 36)

theorem packedBits_getLsbD (a b c : BitVec 18) {j : ℕ} (hj : j < 56) :
    (packedBits a b c).getLsbD j = (a.getLsbD j || !decide (j < 18) && b.getLsbD (j - 18) ||
      !decide (j < 36) && c.getLsbD (j - 36)) := by
  have hmark : (0xa5 <<< 56 : BitVec 64).getLsbD j = false := by
    revert j
    decide
  simp only [packedBits, BitVec.getLsbD_or, hmark, BitVec.getLsbD_shiftLeft,
    BitVec.getLsbD_setWidth, Bool.false_or]
  simp [show j < 64 by omega, show j - 18 < 64 by omega, show j - 36 < 64 by omega]

theorem packedBits_entry (a b c : BitVec 18) :
    (packedBits a b c >>> 0) &&& 0x3ffff = a.setWidth 64 ∧
      (packedBits a b c >>> 18) &&& 0x3ffff = b.setWidth 64 ∧
      (packedBits a b c >>> 36) &&& 0x3ffff = c.setWidth 64 := by
  have hmask {j : ℕ} (hj : j < 64) : (0x3ffff : BitVec 64).getLsbD j = decide (j < 18) := by
    revert j
    decide
  refine ⟨?_, ?_, ?_⟩
  all_goals
    apply BitVec.eq_of_getLsbD_eq
    intro j hj
    rw [BitVec.getLsbD_and, hmask hj, BitVec.getLsbD_setWidth, BitVec.getLsbD_ushiftRight]
    by_cases h : j < 18
    · rw [packedBits_getLsbD _ _ _ (by omega)]
      simp (disch := omega) [h, hj, BitVec.getLsbD_of_ge]
      try omega
    · simp [h, BitVec.getLsbD_of_ge _ j (Nat.le_of_not_lt h)]

theorem packedBits_marker (a b c : BitVec 18) : packedBits a b c >>> 56 = 0xa5 := by
  unfold packedBits
  apply BitVec.eq_of_getLsbD_eq
  intro j hj
  interval_cases j <;> simp

theorem packedBits_reserved (a b c : BitVec 18) :
    packedBits a b c &&& ~~~((1 <<< (18 * 3) - 1) ||| (0xff <<< 56) : BitVec 64) = 0 ∧
      packedBits a b 0 &&& ~~~((1 <<< (18 * 2) - 1) ||| (0xff <<< 56) : BitVec 64) = 0 ∧
      packedBits a 0 0 &&& ~~~((1 <<< (18 * 1) - 1) ||| (0xff <<< 56) : BitVec 64) = 0 := by
  have hmask : ∀ n ≤ 3, ∀ j < 64,
      (~~~((1 <<< (18 * n) - 1) ||| (0xff <<< 56) : BitVec 64)).getLsbD j = true →
        18 * n ≤ j ∧ j < 56 := by decide
  have hzero (n : ℕ) (hn : n ≤ 3) {x : BitVec 64}
      (hx : ∀ j, 18 * n ≤ j → j < 56 → x.getLsbD j = false) :
      x &&& ~~~((1 <<< (18 * n) - 1) ||| (0xff <<< 56) : BitVec 64) = 0 := by
    apply BitVec.eq_of_getLsbD_eq
    intro j hj
    rw [BitVec.getLsbD_and]
    by_cases hm : 18 * n ≤ j ∧ j < 56
    · simp [hx j hm.1 hm.2]
    · rw [eq_false_of_ne_true fun hbit => hm (hmask n hn j hj hbit)]
      simp
  refine ⟨hzero 3 (by omega) fun j h1 h2 => ?_, hzero 2 (by omega) fun j h1 h2 => ?_,
    hzero 1 (by omega) fun j h1 h2 => ?_⟩
  all_goals
    rw [packedBits_getLsbD _ _ _ h2]
    simp (disch := omega) [BitVec.getLsbD_of_ge]

theorem batchRequest_eq {a b c : BitVec 16 × BitVec 8} (ha : a.1.toNat ≤ 0x3ff)
    (hb : b.1.toNat ≤ 0x3ff) (hc : c.1.toNat ≤ 0x3ff) :
    batchRequest [a] = packedBits (entryBits a) 0 0 ∧
      batchRequest [a, b] = packedBits (entryBits a) (entryBits b) 0 ∧
      batchRequest [a, b, c] = packedBits (entryBits a) (entryBits b) (entryBits c) := by
  simp [batchRequest, packEntries, packedBits, entryBits_eq ha, entryBits_eq hb,
    entryBits_eq hc]

variable {entries : List (BitVec 16 × BitVec 8)}

theorem BatchArgs.cases (h : BatchArgs entries) :
    (∃ a, entries = [a] ∧ a.1.toNat ≤ 0x3ff) ∨
      (∃ a b, entries = [a, b] ∧ a.1.toNat ≤ 0x3ff ∧ b.1.toNat ≤ 0x3ff) ∨
      ∃ a b c, entries = [a, b, c] ∧ a.1.toNat ≤ 0x3ff ∧ b.1.toNat ≤ 0x3ff ∧
        c.1.toNat ≤ 0x3ff := by
  obtain ⟨hne, hlen, hreg⟩ := h
  match entries, hne with
  | [a], _ => exact .inl ⟨a, rfl, hreg a (by simp)⟩
  | [a, b], _ => exact .inr (.inl ⟨a, b, rfl, hreg a (by simp), hreg b (by simp)⟩)
  | [a, b, c], _ =>
      exact .inr (.inr ⟨a, b, c, rfl, hreg a (by simp), hreg b (by simp), hreg c (by simp)⟩)
  | _ :: _ :: _ :: _ :: _, _ =>
      simp only [List.length_cons] at hlen
      omega

theorem BatchArgs.count (h : BatchArgs entries) :
    (BitVec.ofNat 16 entries.length).toNat = entries.length ∧
      ¬ (BitVec.ofNat 16 entries.length = 0 ∨ 3 < (BitVec.ofNat 16 entries.length).toNat) := by
  rcases h.cases with ⟨a, rfl, -⟩ | ⟨a, b, rfl, -⟩ | ⟨a, b, c, rfl, -⟩
  all_goals
    simp only [List.length_cons, List.length_nil]
    decide

theorem batchEntry_of {data : BitVec 64} {i : ℕ} {e : BitVec 16 × BitVec 8}
    (hreg : e.1.toNat ≤ 0x3ff)
    (h : (data >>> (18 * i)) &&& 0x3ffff = (entryBits e).setWidth 64) :
    SpiBus.batchEntry data i = e := by
  unfold SpiBus.batchEntry
  rw [h]
  exact entryBits_decode hreg

theorem batchEntry_request (h : BatchArgs entries) :
    (List.range entries.length).map (SpiBus.batchEntry (batchRequest entries)) = entries := by
  rcases h.cases with ⟨a, rfl, ha⟩ | ⟨a, b, rfl, ha, hb⟩ | ⟨a, b, c, rfl, ha, hb, hc⟩
  · rw [(batchRequest_eq ha ha ha).1]
    show [SpiBus.batchEntry _ 0] = [a]
    rw [batchEntry_of ha (packedBits_entry _ _ _).1]
  · rw [(batchRequest_eq ha hb ha).2.1]
    show [SpiBus.batchEntry _ 0, SpiBus.batchEntry _ 1] = [a, b]
    rw [batchEntry_of ha (packedBits_entry _ _ _).1,
      batchEntry_of hb (packedBits_entry _ _ _).2.1]
  · rw [(batchRequest_eq ha hb hc).2.2]
    show [SpiBus.batchEntry _ 0, SpiBus.batchEntry _ 1, SpiBus.batchEntry _ 2] = [a, b, c]
    rw [batchEntry_of ha (packedBits_entry _ _ _).1,
      batchEntry_of hb (packedBits_entry _ _ _).2.1,
      batchEntry_of hc (packedBits_entry _ _ _).2.2]

theorem batchRequest_valid (h : BatchArgs entries) :
    niosPkt16x64BatchPayloadValid (BitVec.ofNat 16 entries.length) (batchRequest entries) =
      true := by
  rcases h.cases with ⟨a, rfl, ha⟩ | ⟨a, b, rfl, ha, hb⟩ | ⟨a, b, c, rfl, ha, hb, hc⟩
  · have hreserved := (packedBits_reserved (entryBits a) 0 0).2.2
    rw [(batchRequest_eq ha ha ha).1]
    simpa [niosPkt16x64BatchPayloadValid, packedBits_marker] using hreserved
  · have hreserved := (packedBits_reserved (entryBits a) (entryBits b) 0).2.1
    rw [(batchRequest_eq ha hb ha).2.1]
    simpa [niosPkt16x64BatchPayloadValid, packedBits_marker] using hreserved
  · have hreserved := (packedBits_reserved (entryBits a) (entryBits b) (entryBits c)).1
    rw [(batchRequest_eq ha hb hc).2.2]
    simpa [niosPkt16x64BatchPayloadValid, packedBits_marker] using hreserved

/-! ## What a success means on the bus -/

def registerWrite (reg : BitVec 16) (value : BitVec 8) : SpiOp :=
  .write [((reg >>> 8) ||| 0x80).setWidth 8, reg.setWidth 8, value]

namespace SpiBus

variable {bus : SpiBus}

theorem act_log {op : SpiOp} {ok : Bool} {bus' : SpiBus} (h : bus.act op = (ok, bus')) :
    bus'.log = bus.log ++ [(op, ok)] := by
  cases h
  rfl

theorem adiSpiWriteUnlocked_reg {reg : BitVec 16} (h : reg.toNat ≤ 0x3ff) (value : BitVec 8) :
    bus.adiSpiWriteUnlocked (0x8000 ||| reg) (value.setWidth 64 <<< 56) =
      bus.act (registerWrite reg value) := by
  have hshift : reg >>> 10 = 0 := by bv_omega
  have hhigh : ∀ i, reg.getLsbD (10 + i) = false := by
    intro i
    have hbit := congrArg (fun b : BitVec 16 => b.getLsbD i) hshift
    simpa using hbit
  have h10 := hhigh 0
  have h11 := hhigh 1
  have h12 := hhigh 2
  have h13 := hhigh 3
  have h14 := hhigh 4
  have hguard : (0x8000 ||| reg) &&& 0x0c00 = 0 := by
    apply BitVec.eq_of_getLsbD_eq
    intro j hj
    interval_cases j <;> simp_all
  have hcount : ((0x8000 ||| reg) >>> 12) &&& 0x7 = 0 := by
    apply BitVec.eq_of_getLsbD_eq
    intro j hj
    interval_cases j <;> simp_all
  have hbyte : (((0x8000 ||| reg) >>> 8) ||| 0x80).setWidth 8 =
      (((reg >>> 8) ||| 0x80).setWidth 8 : BitVec 8) := by
    apply BitVec.eq_of_getLsbD_eq
    intro j hj
    interval_cases j <;> simp
  have hlow : (0x8000 ||| reg).setWidth 8 = (reg.setWidth 8 : BitVec 8) := by
    apply BitVec.eq_of_getLsbD_eq
    intro j hj
    interval_cases j <;> simp
  have hvalue : (((value.setWidth 64 : BitVec 64) <<< 56) >>> 56).setWidth 8 = value := by
    apply BitVec.eq_of_getLsbD_eq
    intro j hj
    interval_cases j <;> simp
  unfold adiSpiWriteUnlocked
  rw [if_neg (not_not.mpr hguard), hcount, hbyte, hlow]
  show bus.act (.write ([_, _] ++ [(((value.setWidth 64 : BitVec 64) <<< 56) >>> 56).setWidth 8])) =
    bus.act (registerWrite reg value)
  rw [hvalue]
  rfl

theorem batchEntry_reg (data : BitVec 64) (i : ℕ) : (batchEntry data i).1.toNat ≤ 0x3ff := by
  have hle : ((data >>> (18 * i)) &&& 0x3ffff &&& 0x3ff).toNat ≤ 0x3ff := by
    rw [BitVec.toNat_and]
    exact Nat.and_le_right
  have hlt : ((data >>> (18 * i)) &&& 0x3ffff &&& 0x3ff).toNat < 2 ^ 16 := by omega
  show (((data >>> (18 * i)) &&& 0x3ffff &&& 0x3ff).setWidth 16).toNat ≤ 0x3ff
  rw [BitVec.toNat_setWidth, Nat.mod_eq_of_lt hlt]
  exact hle

theorem writeEntries_spec (data : BitVec 64) (n i : ℕ) (bus : SpiBus) :
    (writeEntries data n i bus).1.2 ≤ i + n ∧
      ((writeEntries data n i bus).1.1 = true →
        (writeEntries data n i bus).1.2 = i + n ∧
        (writeEntries data n i bus).2.log = bus.log ++
          ((List.range' i n).map (batchEntry data)).map
            (fun e => (registerWrite e.1 e.2, true))) := by
  induction n generalizing i bus with
  | zero => exact ⟨Nat.le_refl _, fun _ => ⟨rfl, (List.append_nil _).symm⟩⟩
  | succ n ih =>
      obtain ⟨hle, hdone⟩ := ih (i + 1)
        (bus.act (registerWrite (batchEntry data i).1 (batchEntry data i).2)).2
      unfold writeEntries
      simp only [adiSpiWriteUnlocked_reg (batchEntry_reg data i)]
      cases hok : (bus.act (registerWrite (batchEntry data i).1 (batchEntry data i).2)).1 with
      | false =>
          simp only [Bool.false_eq_true, if_false]
          exact ⟨Nat.le_add_right _ _, fun h => by cases h⟩
      | true =>
          simp only [if_true]
          refine ⟨by omega, fun h => ?_⟩
          obtain ⟨hcount, hlog⟩ := hdone h
          refine ⟨by omega, ?_⟩
          rw [hlog]
          simp only [act] at hok ⊢
          rw [hok, List.range'_succ, List.map_cons, List.map_cons, List.append_assoc]
          rfl

theorem adiSpiWriteRegisterBatch_ok {count : BitVec 16} {data : BitVec 64}
    (h : (bus.adiSpiWriteRegisterBatch count data).1.1 = true) :
    (bus.adiSpiWriteRegisterBatch count data).2.log = bus.log ++ [(SpiOp.lock, true)] ++
      ((List.range count.toNat).map (batchEntry data)).map
        (fun e => (registerWrite e.1 e.2, true)) ++ [(SpiOp.unlock, true)] := by
  unfold adiSpiWriteRegisterBatch at h ⊢
  split at h
  · cases h
  · rename_i hcount
    rw [if_neg hcount]
    cases hlock : (bus.act .lock).1 with
    | false =>
        simp [hlock] at h
    | true =>
        simp only [hlock, Bool.not_true, Bool.false_eq_true, if_false, Bool.and_eq_true] at h ⊢
        obtain ⟨hunlock, hwritten⟩ := h
        obtain ⟨-, hdone⟩ := writeEntries_spec data count.toNat 0 (bus.act .lock).2
        obtain ⟨-, hlog⟩ := hdone hwritten
        simp only [act] at hlock hunlock hlog ⊢
        rw [hunlock, hlog, hlock, ← List.range_eq_range']

theorem adiSpiWriteRegisterBatch_completed {count : BitVec 16} {data : BitVec 64}
    (h : ¬ (count = 0 ∨ 3 < count.toNat)) :
    (bus.answers bus.log.length = false ∧
        (bus.adiSpiWriteRegisterBatch count data).1 = (false, 0xff) ∧
        (bus.adiSpiWriteRegisterBatch count data).2.log = bus.log ++ [(SpiOp.lock, false)]) ∨
      (bus.answers bus.log.length = true ∧
        (bus.adiSpiWriteRegisterBatch count data).1.2.toNat ≤ 3 ∧
        ((bus.adiSpiWriteRegisterBatch count data).1.1 = true →
          (bus.adiSpiWriteRegisterBatch count data).1.2.toNat = count.toNat)) := by
  have hle := (writeEntries_spec data count.toNat 0 (bus.act .lock).2).1
  have hdone := (writeEntries_spec data count.toNat 0 (bus.act .lock).2).2
  have hcount : count.toNat ≤ 3 := by omega
  unfold adiSpiWriteRegisterBatch
  rw [if_neg h]
  cases hlock : bus.answers bus.log.length with
  | false =>
      have hact : (bus.act .lock).1 = false := hlock
      refine .inl ⟨rfl, ?_, ?_⟩
      · simp only [hact, Bool.not_false, if_true]
      · simp only [hact, Bool.not_false, if_true]
        simp only [act, hlock]
  | true =>
      have hact : (bus.act .lock).1 = true := hlock
      rcases hr : writeEntries data count.toNat 0 (bus.act .lock).2 with
        ⟨⟨success, completed⟩, bus'⟩
      rw [hr] at hle hdone
      have hsmall : completed < 2 ^ 8 := by
        have hcompleted : completed ≤ 0 + count.toNat := hle
        omega
      have hnat : (BitVec.ofNat 8 completed).toNat = completed := by
        rw [BitVec.toNat_ofNat, Nat.mod_eq_of_lt hsmall]
      simp only [hact, hr, Bool.not_true, Bool.false_eq_true, if_false, hnat, Bool.and_eq_true]
      refine .inr ⟨trivial, ?_, fun hok => ?_⟩
      · have hcompleted : completed ≤ 0 + count.toNat := hle
        omega
      · have hall : completed = 0 + count.toNat := (hdone hok.2).1
        omega

theorem adiSpiUpdateBits_ok {addr : BitVec 16} {mask value : BitVec 8}
    (h : (bus.adiSpiUpdateBits addr mask value).1.1 = true) :
    ∃ current, (bus.adiSpiUpdateBits addr mask value).2.log = bus.log ++
      [(.lock, true), (.read [(addr >>> 8).setWidth 8, addr.setWidth 8] current, true),
        (registerWrite addr ((current &&& ~~~mask) ||| (value &&& mask)), true),
        (.unlock, true)] := by
  unfold adiSpiUpdateBits at h ⊢
  split at h
  · cases h
  · rename_i hargs
    rw [if_neg hargs]
    rcases hlock : bus.act .lock with ⟨locked, bus₁⟩
    obtain ⟨current, hcurrent⟩ : ∃ c, bus₁.input bus₁.log.length = c := ⟨_, rfl⟩
    rcases hread : bus₁.act (.read [(addr >>> 8).setWidth 8, addr.setWidth 8] current) with
      ⟨read, bus₂⟩
    rcases hwrite : bus₂.act (.write [((addr >>> 8) ||| 0x80).setWidth 8, addr.setWidth 8,
        (current &&& ~~~mask) ||| (value &&& mask)]) with ⟨written, bus₃⟩
    rcases hunlock : bus₃.act .unlock with ⟨unlocked, bus₄⟩
    simp only [hlock, hcurrent, hread] at h ⊢
    cases locked with
    | false => cases h
    | true =>
        cases read with
        | false => cases h
        | true =>
            simp only [Bool.not_true, Bool.false_eq_true, if_false, hwrite, hunlock,
              Bool.and_eq_true] at h ⊢
            refine ⟨current, ?_⟩
            rw [act_log hunlock, act_log hwrite, act_log hread, act_log hlock, h.1, h.2]
            simp only [List.append_assoc, List.cons_append, List.nil_append]
            rfl

end SpiBus

/-! ## The two requests at the firmware -/

section Request

variable {target : BitVec 8} {addr : BitVec 16} {data : BitVec 64}

theorem niosPkt16x64Pack_unpack :
    niosPkt16x64.unpack (niosPkt16x64Pack target true addr data) =
      ⟨target, true, addr.toNat, data.toNat⟩ :=
  niosPkt16x64Bytes_unpack target 0x01 addr data 0

theorem niosPkt16x64Pack_transactionId :
    niosPkt16x64TransactionId (niosPkt16x64Pack target true addr data) = 0 :=
  (niosPkt16x64Bytes_fields target 0x01 addr data 0).2.2

theorem niosPkt16x64RespPack_read (success : Bool) :
    (niosPkt16x64.unpack (niosPkt16x64RespPack target true addr data success)).data =
        data.toNat ∧
      (niosPkt16x64RespPack target true addr data success).flag 2 2 = success := by
  refine ⟨?_, ?_⟩
  · rw [niosPkt16x64RespPack, niosPkt16x64RespPackWithTransactionId, niosPkt16x64Bytes_unpack]
  · show ((niosPkt16x64WriteFlag true ||| niosPkt16x64SuccessFlag success) &&& 2 != 0) = success
    cases success <;> decide

theorem serviceAction_pack (target : BitVec 8) (addr : BitVec 16) (data : BitVec 64)
    (o : Owners) :
    heldForOwner (niosPkt16x64Pack target true addr data) o = false ∧
      serviceAction (niosPkt16x64Pack target true addr data) o =
        service16x64 (niosPkt16x64Pack target true addr data) o := by
  have hmagic : (niosPkt16x64Pack target true addr data).byte 0 = niosPkt16x64Magic := rfl
  have hwrite : (niosPkt16x64Pack target true addr data).flag 2 1 = true := by
    show (niosPkt16x64WriteFlag true &&& 1 != 0) = true
    decide
  have hlegacy : legacyVersionRead (niosPkt16x64Pack target true addr data) false = false := by
    unfold legacyVersionRead
    rw [hmagic]
    rfl
  refine ⟨?_, ?_⟩
  · unfold heldForOwner
    rw [hmagic, hwrite]
    simp [niosPkt16x64Magic, niosPkt32x32Magic, niosPkt8x32Magic, niosPkt8x16Magic]
  · unfold serviceAction
    rw [hmagic, hlegacy]
    simp [niosPkt16x64Magic, niosPkt32x32Magic, niosPkt8x32Magic, niosPkt8x16Magic,
      niosPkt8x8Magic, niosPkt8x64Magic, niosPktLegacyMagic, niosPktRetune2Magic]

end Request

namespace DirectNios

variable (s : DirectNios)

theorem answer_batch (path : DispatchPath) (addr : BitVec 16) (data : BitVec 64) :
    s.answer path (niosPkt16x64Pack niosPkt16x64TargetAd9361WriteBatch true addr data) =
      (some (niosPkt16x64RespPack niosPkt16x64TargetAd9361WriteBatch true addr
          (s.device.writeBatch addr data).2 (s.device.writeBatch addr data).1),
        s.busAfter (niosPkt16x64Pack niosPkt16x64TargetAd9361WriteBatch true addr data)) := by
  have hpkt : s.device.pkt16x64 (niosPkt16x64Pack niosPkt16x64TargetAd9361WriteBatch true addr
      data) = niosPkt16x64RespPack niosPkt16x64TargetAd9361WriteBatch true addr
        (s.device.writeBatch addr data).2 (s.device.writeBatch addr data).1 := by
    unfold Device16x64.pkt16x64
    rw [niosPkt16x64Pack_unpack, niosPkt16x64Pack_transactionId]
    simp only [BitVec.ofNat_toNat, BitVec.setWidth_eq]
    rfl
  cases path with
  | mainLoop => rw [answer, hpkt]
  | safePoint =>
      obtain ⟨hheld, hservice⟩ :=
        serviceAction_pack niosPkt16x64TargetAd9361WriteBatch addr data s.owners
      have haction : service16x64
          (niosPkt16x64Pack niosPkt16x64TargetAd9361WriteBatch true addr data) s.owners =
          .answer .handler := by
        unfold service16x64
        rw [niosPkt16x64Pack_unpack, niosPkt16x64Pack_transactionId]
        rfl
      rw [answer, hheld, hservice, haction, ← hpkt]
      rfl

theorem answer_update (path : DispatchPath) (addr : BitVec 16) (data : BitVec 64) :
    s.answer path (niosPkt16x64Pack niosPkt16x64TargetAd9361UpdateBits true addr data) =
      match path with
      | .mainLoop =>
          (some (niosPkt16x64RespPack niosPkt16x64TargetAd9361UpdateBits true addr
              (s.device.updateBits addr data).2 (s.device.updateBits addr data).1),
            s.busAfter (niosPkt16x64Pack niosPkt16x64TargetAd9361UpdateBits true addr data))
      | .safePoint =>
          (some (niosPkt16x64RespPack niosPkt16x64TargetAd9361UpdateBits true addr data false),
            s.bus) := by
  cases path with
  | mainLoop =>
      have hpkt : s.device.pkt16x64 (niosPkt16x64Pack niosPkt16x64TargetAd9361UpdateBits true
          addr data) = niosPkt16x64RespPack niosPkt16x64TargetAd9361UpdateBits true addr
            (s.device.updateBits addr data).2 (s.device.updateBits addr data).1 := by
        unfold Device16x64.pkt16x64
        rw [niosPkt16x64Pack_unpack, niosPkt16x64Pack_transactionId]
        simp only [BitVec.ofNat_toNat, BitVec.setWidth_eq]
        rfl
      rw [answer, hpkt]
  | safePoint =>
      obtain ⟨hheld, hservice⟩ :=
        serviceAction_pack niosPkt16x64TargetAd9361UpdateBits addr data s.owners
      have haction : service16x64
          (niosPkt16x64Pack niosPkt16x64TargetAd9361UpdateBits true addr data) s.owners =
          .answer .packed := by
        unfold service16x64
        rw [niosPkt16x64Pack_unpack, niosPkt16x64Pack_transactionId]
        rfl
      simp only [answer, hheld, hservice, haction, niosPkt16x64Pack_unpack, BitVec.ofNat_toNat,
        BitVec.setWidth_eq, Bool.false_eq_true, if_false]

theorem batch_guard {count : BitVec 16} (h : ¬ (count = 0 ∨ 3 < count.toNat))
    (data : BitVec 64) :
    (!s.libad936x || s.device.directAd9361BatchAllowed count data) = s.admits := by
  show (!s.libad936x || rficDirectAd9361BatchAllowed s.faulted s.owners.ownsDevice s.phyPresent
    count) = _
  rw [rficDirectAd9361BatchAllowed, if_neg h]
  rfl

theorem batch_answer {entries : List (BitVec 16 × BitVec 8)} (h : BatchArgs entries)
    (path : DispatchPath) :
    let count := BitVec.ofNat 16 entries.length
    let run := s.bus.adiSpiWriteRegisterBatch count (batchRequest entries)
    s.answer path (niosPkt16x64Pack niosPkt16x64TargetAd9361WriteBatch true count
        (batchRequest entries)) =
      if s.admits then
        (some (niosPkt16x64RespPack niosPkt16x64TargetAd9361WriteBatch true count
            (if !run.1.1 && run.1.2 == 0xff then 0xa500000000000000 else run.1.2.setWidth 64)
            run.1.1),
          run.2)
      else
        (some (niosPkt16x64RespPack niosPkt16x64TargetAd9361WriteBatch true count 0 false),
          s.bus) := by
  intro count run
  have hcount : ¬ (count = 0 ∨ 3 < count.toNat) := h.count.2
  have hvalid : niosPkt16x64BatchPayloadValid count (batchRequest entries) = true :=
    batchRequest_valid h
  have hguard := s.batch_guard hcount (batchRequest entries)
  have hguard' : (!s.device.libad936x ||
      s.device.directAd9361BatchAllowed count (batchRequest entries)) = s.admits := hguard
  rw [answer_batch, Device16x64.writeBatch, busAfter, niosPkt16x64Pack_unpack,
    niosPkt16x64Pack_transactionId]
  simp only [BitVec.ofNat_toNat, BitVec.setWidth_eq, hguard, hguard', hvalid, Bool.and_true]
  cases s.admits with
  | true => rfl
  | false => rfl

/-- `nios_access` on this firmware. -/
def access (path : DispatchPath) (p : Packet) : Option Packet := (s.answer path p).1

end DirectNios

/-! ## What the host makes of the answers -/

theorem niosAd9361SpiWriteBatch_response {access : Packet → Option Packet}
    (h : BatchArgs entries) {data : BitVec 64}
    {success : Bool}
    (hanswer : access (niosPkt16x64Pack niosPkt16x64TargetAd9361WriteBatch true
        (BitVec.ofNat 16 entries.length) (batchRequest entries)) =
      some (niosPkt16x64RespPack niosPkt16x64TargetAd9361WriteBatch true
        (BitVec.ofNat 16 entries.length) data success)) :
    niosAd9361SpiWriteBatch access entries =
      if !success ∧ data.toNat >>> 56 = 0xa5 then .unsupported
      else if !success ∨ data.toNat ≠ entries.length then .fpgaOp
      else .ok := by
  unfold niosAd9361SpiWriteBatch
  rw [if_neg (not_not.mpr h), hanswer]
  simp only [(niosPkt16x64RespPack_read success).1, (niosPkt16x64RespPack_read success).2]

theorem niosAd9361SpiUpdateBits_response {access : Packet → Option Packet} {reg : BitVec 16}
    {mask value : BitVec 8} (hreg : reg.toNat ≤ 0x3ff) (hmask : mask ≠ 0)
    (hvalue : value &&& ~~~mask = 0) {data : BitVec 64} {success : Bool}
    (hanswer : access (niosPkt16x64Pack niosPkt16x64TargetAd9361UpdateBits true reg
        (updateBitsRequest mask value)) =
      some (niosPkt16x64RespPack niosPkt16x64TargetAd9361UpdateBits true reg data success)) :
    niosAd9361SpiUpdateBits access reg mask value =
      if !success ∧ data.toNat = (updateBitsRequest mask value).toNat then .unsupported
      else if !success ∨ 0xff < data.toNat then .fpgaOp
      else .ok := by
  have hargs : ¬ (0x03ff < reg.toNat ∨ mask = 0 ∨ value &&& ~~~mask ≠ 0) := by
    rintro (hlarge | hzero | hbits)
    · omega
    · exact hmask hzero
    · exact hbits hvalue
  unfold niosAd9361SpiUpdateBits
  rw [if_neg hargs, hanswer]
  simp only [(niosPkt16x64RespPack_read success).1, (niosPkt16x64RespPack_read success).2]

theorem updateBitsRequest_fields (mask value : BitVec 8) :
    updateBitsRequest mask value >>> 56 = 0xa6 ∧
      (updateBitsRequest mask value >>> 48).setWidth 8 = mask ∧
      (updateBitsRequest mask value >>> 40).setWidth 8 = value ∧
      updateBitsRequest mask value &&& 0x000000ffffffffff = 0 := by
  unfold updateBitsRequest
  refine ⟨?_, ?_, ?_, ?_⟩
  all_goals
    apply BitVec.eq_of_getLsbD_eq
    intro j hj
    interval_cases j <;> simp

theorem updateBits_error_ne (mask value : BitVec 8) :
    (0x5a00000000000000 : BitVec 64).toNat ≠ (updateBitsRequest mask value).toNat := by
  intro h
  have hmarker := (updateBitsRequest_fields mask value).1
  rw [← BitVec.eq_of_toNat_eq h] at hmarker
  revert hmarker
  decide

namespace DirectNios

variable (s : DirectNios)

theorem update_answer {reg : BitVec 16} {mask value : BitVec 8} (hreg : reg.toNat ≤ 0x3ff)
    (hmask : mask ≠ 0) (hvalue : value &&& ~~~mask = 0) :
    s.answer .mainLoop (niosPkt16x64Pack niosPkt16x64TargetAd9361UpdateBits true reg
        (updateBitsRequest mask value)) =
      let run := s.bus.adiSpiUpdateBits reg mask value
      (some (niosPkt16x64RespPack niosPkt16x64TargetAd9361UpdateBits true reg
          (if s.admits && run.1.1 then run.1.2.setWidth 64 else 0x5a00000000000000)
          (s.admits && run.1.1)),
        if s.admits then run.2 else s.bus) := by
  obtain ⟨hmarker, hmask', hvalue', hreserved⟩ := updateBitsRequest_fields mask value
  have hguard : (!s.libad936x || s.device.directAd9361WriteAllowed) = s.admits := rfl
  have hguard' : (!s.device.libad936x || s.device.directAd9361WriteAllowed) = s.admits := rfl
  have hmicro : s.device.micro = true := rfl
  have hrun : s.device.adiSpiUpdateBits reg mask value =
      (s.bus.adiSpiUpdateBits reg mask value).1 := rfl
  rw [answer_update, Device16x64.updateBits, busAfter, niosPkt16x64Pack_unpack,
    niosPkt16x64Pack_transactionId]
  simp only [BitVec.ofNat_toNat, BitVec.setWidth_eq, hguard, hguard', hmicro, hmarker, hmask',
    hvalue', hreserved, hvalue, hreg, hrun, bne_iff_ne.mpr hmask, beq_self_eq_true,
    decide_true, Bool.and_true, Bool.not_true, Bool.false_eq_true, if_false]
  cases s.admits <;> cases (s.bus.adiSpiUpdateBits reg mask value).1.1 <;> rfl

theorem writeBatch_status {entries : List (BitVec 16 × BitVec 8)} (h : BatchArgs entries)
    (path : DispatchPath) :
    let run := s.bus.adiSpiWriteRegisterBatch (BitVec.ofNat 16 entries.length)
      (batchRequest entries)
    niosAd9361SpiWriteBatch (s.access path) entries =
      if s.admits then
        if s.bus.answers s.bus.log.length then
          if run.1.1 then .ok else .fpgaOp
        else .unsupported
      else .fpgaOp := by
  intro run
  obtain ⟨hnat, hcount⟩ := h.count
  have hanswer := s.batch_answer h path
  cases hadmits : s.admits with
  | false =>
      rw [hadmits] at hanswer
      rw [niosAd9361SpiWriteBatch_response h (congrArg Prod.fst hanswer)]
      rfl
  | true =>
      rw [hadmits] at hanswer
      rw [niosAd9361SpiWriteBatch_response h (congrArg Prod.fst hanswer)]
      rcases SpiBus.adiSpiWriteRegisterBatch_completed hcount with
        ⟨hlock, hrun, -⟩ | ⟨hlock, hle, hall⟩
      · rw [hrun, hlock]
        rfl
      · have hfew : run.1.2.toNat ≤ 3 := hle
        have hcount' : (run.1.2 == 0xff) = false := by
          rw [beq_eq_false_iff_ne]
          intro hfull
          have hlarge : run.1.2.toNat = 0xff := by
            rw [hfull]
            rfl
          omega
        have hdata : (run.1.2.setWidth 64 : BitVec 64).toNat = run.1.2.toNat := by
          rw [BitVec.toNat_setWidth, Nat.mod_eq_of_lt (by omega)]
        have hmarker : run.1.2.toNat >>> 56 ≠ 0xa5 := by
          rw [Nat.shiftRight_eq_div_pow]
          omega
        rw [hcount', Bool.and_false, if_neg Bool.false_ne_true, hdata, hlock]
        cases hok : run.1.1 with
        | false => simp [hmarker]
        | true =>
            have hdone : run.1.2.toNat = entries.length := (hall hok).trans hnat
            simp [hdone]

theorem updateBits_status {reg : BitVec 16} {mask value : BitVec 8} (hreg : reg.toNat ≤ 0x3ff)
    (hmask : mask ≠ 0) (hvalue : value &&& ~~~mask = 0) (path : DispatchPath) :
    niosAd9361SpiUpdateBits (s.access path) reg mask value =
      match path with
      | .mainLoop =>
          if s.admits && (s.bus.adiSpiUpdateBits reg mask value).1.1 then .ok else .fpgaOp
      | .safePoint => .unsupported := by
  cases path with
  | mainLoop =>
      have hanswer := s.update_answer hreg hmask hvalue
      have hbyte : ((s.bus.adiSpiUpdateBits reg mask value).1.2.setWidth 64 : BitVec 64).toNat ≤
          0xff := by
        rw [BitVec.toNat_setWidth]
        omega
      rw [niosAd9361SpiUpdateBits_response hreg hmask hvalue (congrArg Prod.fst hanswer)]
      cases s.admits && (s.bus.adiSpiUpdateBits reg mask value).1.1 with
      | false =>
          have hne := updateBits_error_ne mask value
          simp only [Bool.false_eq_true, if_false, Bool.not_false, true_and, if_neg hne, true_or,
            if_true]
      | true =>
          have hle := Nat.not_lt.mpr hbyte
          simp only [if_true, Bool.not_true, Bool.false_eq_true, false_and, if_false, false_or,
            if_neg hle]
  | safePoint =>
      have hanswer := s.answer_update .safePoint reg (updateBitsRequest mask value)
      rw [niosAd9361SpiUpdateBits_response hreg hmask hvalue (congrArg Prod.fst hanswer)]
      simp

/-- A batch falls back only where the bus was not to be had, with nothing
written; an update that `pkt_16x64` answers never does.  A success means that
all of it was done under one lock. -/
theorem direct_writes (path : DispatchPath) :
    (∀ entries : List (BitVec 16 × BitVec 8), BatchArgs entries →
      let status := niosAd9361SpiWriteBatch (s.access path) entries
      let bus := (s.answer path (niosPkt16x64Pack niosPkt16x64TargetAd9361WriteBatch true
        (BitVec.ofNat 16 entries.length) (batchRequest entries))).2
      (status = .ok ∨ status = .fpgaOp ∨ status = .unsupported) ∧
        (status = .unsupported ↔ s.admits = true ∧ s.bus.answers s.bus.log.length = false) ∧
        (status = .unsupported → bus.log = s.bus.log ++ [(SpiOp.lock, false)]) ∧
        (status = .ok → bus.log = s.bus.log ++ [(SpiOp.lock, true)] ++
          entries.map (fun e => (registerWrite e.1 e.2, true)) ++ [(SpiOp.unlock, true)])) ∧
    ∀ (reg : BitVec 16) (mask value : BitVec 8),
      reg.toNat ≤ 0x3ff → mask ≠ 0 → value &&& ~~~mask = 0 →
      let status := niosAd9361SpiUpdateBits (s.access path) reg mask value
      let bus := (s.answer path (niosPkt16x64Pack niosPkt16x64TargetAd9361UpdateBits true reg
        (updateBitsRequest mask value))).2
      (path = .mainLoop → status = .ok ∨ status = .fpgaOp) ∧
        (status = .ok → ∃ current, bus.log = s.bus.log ++
          [(SpiOp.lock, true), (.read [(reg >>> 8).setWidth 8, reg.setWidth 8] current, true),
            (registerWrite reg ((current &&& ~~~mask) ||| (value &&& mask)), true),
            (.unlock, true)]) := by
  refine ⟨fun entries h => ?_, fun reg mask value hreg hmask hvalue => ?_⟩
  · intro status bus
    obtain ⟨hnat, hcount⟩ := h.count
    have hstatus := s.writeBatch_status h path
    have hanswer := s.batch_answer h path
    cases hadmits : s.admits with
    | false =>
        rw [hadmits] at hstatus
        have hrefused : status = .fpgaOp := hstatus
        rw [hrefused]
        exact ⟨.inr (.inl rfl), by simp, fun h => (by cases h), fun h => (by cases h)⟩
    | true =>
        rw [hadmits] at hstatus hanswer
        have hbus : bus = (s.bus.adiSpiWriteRegisterBatch (BitVec.ofNat 16 entries.length)
            (batchRequest entries)).2 := congrArg Prod.snd hanswer
        rcases SpiBus.adiSpiWriteRegisterBatch_completed hcount with
          ⟨hlock, -, hlog⟩ | ⟨hlock, -, -⟩
        · rw [hlock] at hstatus ⊢
          have hback : status = .unsupported := hstatus
          rw [hback, hbus]
          exact ⟨.inr (.inr rfl), by simp, fun _ => hlog, fun h => (by cases h)⟩
        · rw [hlock] at hstatus ⊢
          have hran : status = if (s.bus.adiSpiWriteRegisterBatch
              (BitVec.ofNat 16 entries.length) (batchRequest entries)).1.1 then .ok
                else .fpgaOp := hstatus
          cases hok : (s.bus.adiSpiWriteRegisterBatch (BitVec.ofNat 16 entries.length)
              (batchRequest entries)).1.1 with
          | false =>
              rw [hok] at hran
              have hfailed : status = .fpgaOp := hran
              rw [hfailed]
              exact ⟨.inr (.inl rfl), by simp, fun h => (by cases h), fun h => (by cases h)⟩
          | true =>
              rw [hok] at hran
              have hdone : status = .ok := hran
              have hlog := SpiBus.adiSpiWriteRegisterBatch_ok hok
              rw [hnat, batchEntry_request h] at hlog
              rw [hdone, hbus]
              exact ⟨.inl rfl, by simp, fun h => (by cases h), fun _ => hlog⟩
  · intro status bus
    have hstatus := s.updateBits_status hreg hmask hvalue path
    cases path with
    | safePoint =>
        have hback : status = .unsupported := hstatus
        rw [hback]
        exact ⟨fun h => (by cases h), fun h => (by cases h)⟩
    | mainLoop =>
        have hanswer := s.update_answer hreg hmask hvalue
        have hbus : bus = if s.admits then (s.bus.adiSpiUpdateBits reg mask value).2
          else s.bus := congrArg Prod.snd hanswer
        cases hok : (s.admits && (s.bus.adiSpiUpdateBits reg mask value).1.1) with
        | false =>
            have hfailed : status = .fpgaOp := by simpa [hok] using hstatus
            rw [hfailed]
            exact ⟨fun _ => .inr rfl, fun h => (by cases h)⟩
        | true =>
            have hdone : status = .ok := by simpa [hok] using hstatus
            rw [Bool.and_eq_true] at hok
            rw [hdone, hbus, if_pos hok.1]
            exact ⟨fun _ => .inl rfl, fun _ => SpiBus.adiSpiUpdateBits_ok hok.2⟩

/-- An idle NIOS without a PHY of its own, whose bus answers as told. -/
def idleNios (answers : ℕ → Bool) : DirectNios where
  libad936x := true
  faulted := false
  owners := .none
  phyPresent := false
  bus := ⟨answers, fun _ => 0x5f, []⟩
  rest := workingDevice

theorem direct_writes_idle :
    (niosAd9361SpiWriteBatch ((idleNios fun _ => true).access .safePoint) [(0x13a, 0x08)] =
        .unsupported ↔ False) ∧
      ∃ current, ((idleNios fun _ => true).answer .mainLoop (niosPkt16x64Pack
        niosPkt16x64TargetAd9361UpdateBits true 0x014 (updateBitsRequest 0x21 0x20))).2.log =
        [] ++ [(SpiOp.lock, true), (.read [0x00, 0x14] current, true),
          (registerWrite 0x014 ((current &&& ~~~0x21) ||| (0x20 &&& 0x21)), true),
          (.unlock, true)] := by
  have hbatch := ((idleNios fun _ => true).direct_writes .safePoint).1 [(0x13a, 0x08)] (by decide)
  have hupdate := ((idleNios fun _ => true).direct_writes .mainLoop).2 0x014 0x21 0x20
    (by decide) (by decide) (by decide)
  exact ⟨hbatch.2.1.trans (by decide), hupdate.2 (by decide +kernel)⟩

/-- A batch that finds the bus taken, and an update that arrives behind the
fence. -/
theorem direct_writes_fall_back :
    niosAd9361SpiWriteBatch ((idleNios fun _ => false).access .mainLoop) [(0x13a, 0x08)] =
        .unsupported ∧
      niosAd9361SpiUpdateBits ((idleNios fun _ => true).access .safePoint) 0x014 0x21 0x20 =
        .unsupported := by
  decide +kernel

end DirectNios

end BladeRF
