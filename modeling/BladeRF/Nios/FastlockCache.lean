/-
# `Nios.FastlockCache` — staging and committing a fastlock profile

`fastlock_profile_cache.c`: the host writes a profile in two halves and then
commits it.  One staging area serves every slot of both directions, so a COMMIT
is about the halves that the calls before it have left there, and about the
RETUNE2 entries that hold the slot.  Whatever else NIOS does with the queues and
with the caches is one event of a run, with any result.
-/
import BladeRF.Nios.Packet

namespace BladeRF

local instance twoHalves : NeZero 2 := ⟨by decide⟩

/-! ## `nios_pkt_16x64.h` -/

/-- The ops of a profile address: `OP_HALF0`, `OP_HALF1` and `OP_COMMIT`. -/
inductive FastlockProfileOp where
  | half (h : Fin 2)
  | commit
deriving DecidableEq

/-- What `nios_pkt_16x64_fastlock_profile_addr_unpack` returns. -/
structure FastlockProfileAddr where
  tx : Bool
  slot : BitVec 8
  op : FastlockProfileOp

/-- `nios_pkt_16x64_fastlock_profile_addr_unpack`: none for reserved bits or an
undefined op. -/
def niosPkt16x64FastlockProfileAddrUnpack (addr : BitVec 16) : Option FastlockProfileAddr :=
  let decodedOp := (addr >>> 10) &&& 0x3
  if addr &&& 0xf200 ≠ 0 ∨ 2 < decodedOp.toNat then none
  else
    some
      { tx := addr &&& 0x100 != 0
        slot := (addr &&& 0xff).setWidth 8
        op := if decodedOp = 0 then .half 0 else if decodedOp = 1 then .half 1 else .commit }

def niosPkt16x64FastlockProfileAddr (tx : Bool) (slot op : BitVec 8) : BitVec 16 :=
  ((op &&& 0x3).setWidth 16 <<< 10) ||| (if tx then 0x100 else 0) ||| slot.setWidth 16

def niosPkt16x64FastlockProfileHalfPack (words : Fin 8 → BitVec 8) : BitVec 64 :=
  BitVec.ofNat 64 (Lib.leNat (List.ofFn words))

def niosPkt16x64FastlockProfileHalfUnpack (data : BitVec 64) (i : Fin 8) : BitVec 8 :=
  (data >>> (8 * i.val)).setWidth 8

/-- `NIOS_PKT_16x64_FASTLOCK_PROFILE_OK` and the errors that are returned. -/
inductive FastlockProfileCode where
  | ok
  | errInvalid
  | errLoading
  | errQueued
  | errNotStaged
  | errEmpty

/-! ## The caches and the queues -/

inductive FastlockState where
  | invalid
  | bbp
  | rffe
  | bbpRffe
deriving DecidableEq

/-- `fastlock_profile`, without the route. -/
structure FastlockProfile where
  profileNum : BitVec 8
  profileData : Fin 16 → BitVec 8
  state : FastlockState

/-- `enum entry_state` of `pkt_retune2.c` -/
inductive Retune2EntryState where
  | invalid
  | new
  | schedulePending
  | scheduled
  | cancelPending
  | profileLoadPending
  | profileLoadFailed
  | ready
  | gainTablePending
  | pllPending
  | txqPending
  | done
deriving DecidableEq

/-- `struct queue_entry`, as far as the slot use reads it. -/
structure Retune2Entry where
  state : Retune2EntryState
  niosProfile : BitVec 16

/-- `struct queue`, as far as the slot use reads it. -/
structure Retune2Queue where
  count : ℕ
  remIdx : ℕ
  entries : ℕ → Retune2Entry

/-- The entries from `peek_next_retune_offset(q, 0)` on. -/
def Retune2Queue.live (q : Retune2Queue) : List Retune2Entry :=
  (List.range q.count).map fun i => q.entries ((q.remIdx + i) % 16)

inductive Retune2SlotUse where
  | free
  | queued
  | loading
deriving DecidableEq

/-- The loop of `pkt_retune2_profile_slot_use`. -/
def pktRetune2ProfileSlotUseFrom (niosProfile : BitVec 16) :
    List Retune2Entry → Retune2SlotUse → Retune2SlotUse
  | [], use => use
  | e :: es, use =>
      if e.niosProfile ≠ niosProfile ∨ e.state = .invalid ∨ e.state = .done ∨
          e.state = .profileLoadFailed then
        pktRetune2ProfileSlotUseFrom niosProfile es use
      else if e.state = .profileLoadPending then .loading
      else pktRetune2ProfileSlotUseFrom niosProfile es .queued

def pktRetune2ProfileSlotUse (q : Retune2Queue) (niosProfile : BitVec 16) : Retune2SlotUse :=
  pktRetune2ProfileSlotUseFrom niosProfile q.live .free

def Retune2Entry.uses (e : Retune2Entry) (niosProfile : BitVec 16) : Prop :=
  e.niosProfile = niosProfile ∧ e.state ≠ .invalid ∧ e.state ≠ .done ∧
    e.state ≠ .profileLoadFailed

theorem pktRetune2ProfileSlotUseFrom_eq_free {niosProfile : BitVec 16} {es : List Retune2Entry}
    {use : Retune2SlotUse} :
    pktRetune2ProfileSlotUseFrom niosProfile es use = .free ↔
      use = .free ∧ ∀ e ∈ es, ¬e.uses niosProfile := by
  induction es generalizing use with
  | nil => simp [pktRetune2ProfileSlotUseFrom]
  | cons e es ih =>
      rw [pktRetune2ProfileSlotUseFrom]
      by_cases hskip : e.niosProfile ≠ niosProfile ∨ e.state = .invalid ∨ e.state = .done ∨
          e.state = .profileLoadFailed
      · have hunused : ¬e.uses niosProfile := by
          rintro ⟨h1, h2, h3, h4⟩
          rcases hskip with h | h | h | h
          · exact h h1
          · exact h2 h
          · exact h3 h
          · exact h4 h
        rw [if_pos hskip, ih, List.forall_mem_cons]
        exact and_congr_right fun _ => (and_iff_right hunused).symm
      · have hused : e.uses niosProfile := by
          simp only [not_or, not_not] at hskip
          exact hskip
        have hfalse : ¬(use = .free ∧ ∀ x ∈ e :: es, ¬x.uses niosProfile) := fun h =>
          h.2 e List.mem_cons_self hused
        rw [if_neg hskip]
        split
        · exact iff_of_false (by decide) hfalse
        · rw [ih]
          exact iff_of_false (fun h => by cases h.1) hfalse

theorem pktRetune2ProfileSlotUse_eq_free {q : Retune2Queue} {niosProfile : BitVec 16} :
    pktRetune2ProfileSlotUse q niosProfile = .free ↔ ∀ e ∈ q.live, ¬e.uses niosProfile :=
  pktRetune2ProfileSlotUseFrom_eq_free.trans (and_iff_right rfl)

/-! ## `fastlock_profile_cache.c` -/

/-- `stage`; `halves` has a bit for each half. -/
structure FastlockStage where
  tx : Bool := false
  slot : BitVec 8 := 0
  halves : Fin 2 → Bool := fun _ => false
  words : Fin 16 → BitVec 8 := fun _ => 0

/-- The eight words from `words[8 * h]` on. -/
def profileHalf (words : Fin 16 → BitVec 8) (h : Fin 2) (i : Fin 8) : BitVec 8 :=
  words ⟨8 * h.val + i.val, by omega⟩

/-- Words written from `words[8 * h]` on. -/
def setProfileHalf (words : Fin 16 → BitVec 8) (h : Fin 2) (v : Fin 8 → BitVec 8) (j : Fin 16) :
    BitVec 8 :=
  if j.val / 8 = h.val then v ⟨j.val % 8, Nat.mod_lt _ (by decide)⟩ else words j

theorem profileHalf_setProfileHalf (words : Fin 16 → BitVec 8) (h k : Fin 2)
    (v : Fin 8 → BitVec 8) :
    profileHalf (setProfileHalf words h v) k = if k = h then v else profileHalf words k := by
  funext i
  have hdiv : (8 * k.val + i.val) / 8 = k.val := by omega
  have hmod : (8 * k.val + i.val) % 8 = i.val := by omega
  rw [profileHalf, setProfileHalf]
  simp only [hdiv, hmod, ← Fin.ext_iff]
  split <;> rfl

/-- The staging area, the caches of both directions (`tx` for the second) and
their retune queues. -/
structure FastlockCache where
  stage : FastlockStage := {}
  fastlocks : Bool → Fin 16 → FastlockProfile
  queue : Bool → Retune2Queue

namespace FastlockCache

/-- `slot_profile`: the index of the slot. -/
def slotIndex (slot : BitVec 8) : Option (Fin 16) :=
  if h : slot.toNat < 16 then some ⟨slot.toNat, h⟩ else none

def decode (addr : BitVec 16) : Option (Bool × Fin 16 × FastlockProfileOp) :=
  (niosPkt16x64FastlockProfileAddrUnpack addr).bind fun a =>
    (slotIndex a.slot).map fun slot => (a.tx, slot, a.op)

def slotByte (slot : Fin 16) : BitVec 8 := BitVec.ofNat 8 slot.val

variable {slot' : Fin 16} {tx' : Bool}

theorem slotByte_inj {slot : Fin 16} : slotByte slot = slotByte slot' ↔ slot = slot' := by
  revert slot slot'
  decide

theorem decode_addr (tx : Bool) (slot : Fin 16) (h : Fin 2) :
    decode (niosPkt16x64FastlockProfileAddr tx (slotByte slot) (BitVec.ofNat 8 h.val)) =
      some (tx, slot, .half h) := by
  revert tx slot h
  decide

/-- `stage.halves = 0`. -/
def clearHalves (s : FastlockCache) : FastlockCache :=
  { s with stage := { s.stage with halves := fun _ => false } }

def setProfile (s : FastlockCache) (tx : Bool) (slot : Fin 16) (p : FastlockProfile) :
    FastlockCache :=
  { s with fastlocks := Function.update s.fastlocks tx (Function.update (s.fastlocks tx) slot p) }

def commit (s : FastlockCache) (tx : Bool) (slot : Fin 16) : FastlockCache × FastlockProfileCode :=
  let staged := s.stage.halves 0 && s.stage.halves 1 && s.stage.tx == tx &&
    s.stage.slot == slotByte slot
  let s' := s.clearHalves
  if !staged then (s', .errNotStaged)
  else
    match pktRetune2ProfileSlotUse (s.queue tx) ((slotByte slot).setWidth 16) with
    | .loading => (s', .errLoading)
    | .queued => (s', .errQueued)
    | .free =>
        (s'.setProfile tx slot
          { s.fastlocks tx slot with state := .bbp, profileData := s.stage.words }, .ok)

def stageHalf (s : FastlockCache) (tx : Bool) (slot : Fin 16) (h : Fin 2) (data : BitVec 64) :
    FastlockCache :=
  let halves :=
    if (s.stage.halves 0 || s.stage.halves 1) && (s.stage.tx != tx ||
        s.stage.slot != slotByte slot) then fun _ => false
    else s.stage.halves
  { s with
    stage :=
      { tx := tx
        slot := slotByte slot
        halves := Function.update halves h true
        words := setProfileHalf s.stage.words h (niosPkt16x64FastlockProfileHalfUnpack data) } }

/-- `fastlock_profile_cache_write`. -/
def write (s : FastlockCache) (addr : BitVec 16) (data : BitVec 64) :
    FastlockCache × FastlockProfileCode :=
  match decode addr with
  | none => (s.clearHalves, .errInvalid)
  | some (tx, slot, .commit) =>
      if data ≠ 0 then (s.clearHalves, .errInvalid) else s.commit tx slot
  | some (tx, slot, .half h) => (s.stageHalf tx slot h data, .ok)

/-- `fastlock_profile_cache_read`; without an error the data is valid. -/
def read (s : FastlockCache) (addr : BitVec 16) : FastlockProfileCode × BitVec 64 :=
  match decode addr with
  | none => (.errInvalid, 0)
  | some (tx, slot, .commit) =>
      let p := s.fastlocks tx slot
      (.ok, BitVec.ofNat 64 p.state.ctorIdx ||| p.profileNum.setWidth 64 <<< 8)
  | some (tx, slot, .half h) =>
      let p := s.fastlocks tx slot
      if p.state = .invalid then (.errEmpty, 0)
      else (.ok, niosPkt16x64FastlockProfileHalfPack (profileHalf p.profileData h))

/-! ## Runs -/

/-- A call of `fastlock_profile_cache_write`, or anything else: the queues
become others and the caches change. -/
inductive Event where
  | write (addr : BitVec 16) (data : BitVec 64)
  | retune2 (queue : Bool → Retune2Queue)
      (change : (Bool → Fin 16 → FastlockProfile) → Bool → Fin 16 → FastlockProfile)

def step (s : FastlockCache) : Event → FastlockCache
  | .write addr data => (s.write addr data).1
  | .retune2 queue change => { s with queue := queue, fastlocks := change s.fastlocks }

def after (s : FastlockCache) : List Event → FastlockCache
  | [] => s
  | e :: es => (s.after es).step e

/-- The half as it was staged last, unless a COMMIT, a malformed write or a half
of another direction or slot came after it. -/
def staged (tx : Bool) (slot : Fin 16) (h : Fin 2) : List Event → Option (BitVec 64)
  | [] => none
  | .retune2 .. :: es => staged tx slot h es
  | .write addr data :: es =>
      match decode addr with
      | some (tx', slot', .half h') =>
          if tx' = tx ∧ slot' = slot then if h' = h then some data else staged tx slot h es
          else none
      | some (_, _, .commit) => none
      | none => none

def heldHalf (s : FastlockCache) (tx : Bool) (slot : Fin 16) (h : Fin 2) :
    Option (Fin 8 → BitVec 8) :=
  if s.stage.halves h ∧ s.stage.tx = tx ∧ s.stage.slot = slotByte slot then
    some (profileHalf s.stage.words h)
  else none

variable {s : FastlockCache} {tx : Bool} {slot : Fin 16} {h : Fin 2}

@[simp] theorem heldHalf_clearHalves : s.clearHalves.heldHalf tx slot h = none :=
  if_neg fun hheld => Bool.false_ne_true hheld.1

@[simp] theorem heldHalf_setProfile {p : FastlockProfile} :
    (s.setProfile tx' slot' p).heldHalf tx slot h = s.heldHalf tx slot h := rfl

theorem commit_heldHalf :
    (s.commit tx' slot').1.heldHalf tx slot h = none := by
  rw [commit]
  simp only
  split
  · exact heldHalf_clearHalves
  · split <;> simp

theorem stageHalf_heldHalf {h' : Fin 2} (data : BitVec 64) :
    (s.stageHalf tx' slot' h' data).heldHalf tx slot h =
      if tx' = tx ∧ slot' = slot then
        if h' = h then some (niosPkt16x64FastlockProfileHalfUnpack data) else s.heldHalf tx slot h
      else none := by
  by_cases hsame : tx' = tx ∧ slot' = slot
  · obtain ⟨rfl, rfl⟩ := hsame
    rw [if_pos ⟨rfl, rfl⟩, stageHalf, heldHalf, heldHalf]
    simp only [profileHalf_setProfileHalf]
    by_cases hh : h' = h
    · subst hh
      simp
    · have hne : h ≠ h' := fun heq => hh heq.symm
      have hbits : s.stage.halves h = true → (s.stage.halves 0 || s.stage.halves 1) = true := by
        intro hset
        match h with
        | 0 => simp [hset]
        | 1 => simp [hset]
      rw [if_neg hh, if_neg hne, Function.update_of_ne hne]
      by_cases hstage : s.stage.tx = tx' ∧ s.stage.slot = slotByte slot'
      · simp [hstage.1, hstage.2]
      · have hother : (s.stage.tx != tx' || s.stage.slot != slotByte slot') = true := by
          rw [Bool.or_eq_true, bne_iff_ne, bne_iff_ne]
          exact not_and_or.mp hstage
        rw [hother, Bool.and_true, if_neg, if_neg]
        · exact fun hheld => hstage hheld.2
        · rintro ⟨hset, -, -⟩
          split at hset
          · exact Bool.false_ne_true hset
          · rename_i hzero
            exact hzero (hbits hset)
  · rw [if_neg hsame, heldHalf, if_neg]
    rintro ⟨-, htx, hslot⟩
    exact hsame ⟨htx, slotByte_inj.mp hslot⟩

theorem heldHalf_after (hstage : s.stage = {}) (hist : List Event) :
    (s.after hist).heldHalf tx slot h =
      (staged tx slot h hist).map niosPkt16x64FastlockProfileHalfUnpack := by
  induction hist with
  | nil =>
      rw [after, heldHalf, hstage]
      rfl
  | cons e es ih =>
      rw [after]
      cases e with
      | retune2 queue change => exact ih
      | write addr data =>
          rw [step, write, staged]
          cases decode addr with
          | none => exact heldHalf_clearHalves
          | some d =>
              obtain ⟨tx', slot', op⟩ := d
              cases op with
              | commit =>
                  simp only
                  split
                  · exact heldHalf_clearHalves
                  · exact commit_heldHalf
              | half h' =>
                  simp only [stageHalf_heldHalf, ih]
                  split
                  · split <;> rfl
                  · rfl

/-! ## A COMMIT -/

def BothStaged (hist : List Event) (tx : Bool) (slot : Fin 16) (d : Fin 2 → BitVec 64) : Prop :=
  ∀ h, staged tx slot h hist = some (d h)

def SlotUnused (s : FastlockCache) (tx : Bool) (slot : Fin 16) : Prop :=
  ∀ e ∈ (s.queue tx).live, ¬e.uses ((slotByte slot).setWidth 16)

/-- The profile a COMMIT leaves: the staged words, and the state `BBP`. -/
def committed (p : FastlockProfile) (d : Fin 2 → BitVec 64) : FastlockProfile :=
  { p with
    state := .bbp
    profileData := fun j =>
      niosPkt16x64FastlockProfileHalfUnpack (d ⟨j.val / 8, by omega⟩) ⟨j.val % 8, by omega⟩ }

theorem words_ext {words words' : Fin 16 → BitVec 8}
    (heq : ∀ h, profileHalf words h = profileHalf words' h) : words = words' := by
  funext j
  have hj := congrFun (heq ⟨j.val / 8, by omega⟩) ⟨j.val % 8, by omega⟩
  have hidx : (⟨8 * (j.val / 8) + j.val % 8, by omega⟩ : Fin 16) = j :=
    Fin.ext (Nat.div_add_mod j.val 8)
  simpa only [profileHalf, hidx] using hj

theorem profileHalf_committed (p : FastlockProfile) (d : Fin 2 → BitVec 64) (h : Fin 2) :
    profileHalf (committed p d).profileData h = niosPkt16x64FastlockProfileHalfUnpack (d h) := by
  funext i
  have hdiv : (⟨(8 * h.val + i.val) / 8, by omega⟩ : Fin 2) = h := Fin.ext (by simp; omega)
  have hmod : (⟨(8 * h.val + i.val) % 8, by omega⟩ : Fin 8) = i := Fin.ext (by simp)
  simp only [profileHalf, committed, hdiv, hmod]

theorem commit_cases (tx : Bool) (slot : Fin 16) (hstage : s.stage = {}) (hist : List Event) :
    (∃ d, BothStaged hist tx slot d ∧ (s.after hist).SlotUnused tx slot ∧
      (s.after hist).commit tx slot =
        ((s.after hist).clearHalves.setProfile tx slot
          (committed ((s.after hist).fastlocks tx slot) d), .ok)) ∨
    ((¬∃ d, BothStaged hist tx slot d ∧ (s.after hist).SlotUnused tx slot) ∧
      ((s.after hist).commit tx slot).2 ≠ .ok ∧
      ((s.after hist).commit tx slot).1.fastlocks = (s.after hist).fastlocks) := by
  have hheld : ∀ h, (s.after hist).heldHalf tx slot h =
      (staged tx slot h hist).map niosPkt16x64FastlockProfileHalfUnpack :=
    fun h => heldHalf_after hstage hist
  generalize s.after hist = u at hheld
  by_cases hstaged : (u.stage.halves 0 && u.stage.halves 1 && u.stage.tx == tx &&
      u.stage.slot == slotByte slot) = true
  · have hall : ∀ h, u.heldHalf tx slot h = some (profileHalf u.stage.words h) := by
      simp only [Bool.and_eq_true, beq_iff_eq] at hstaged
      obtain ⟨⟨⟨h0, h1⟩, htx⟩, hslot⟩ := hstaged
      intro h
      refine if_pos ⟨?_, htx, hslot⟩
      match h with
      | 0 => exact h0
      | 1 => exact h1
    have hsome : ∀ h, ∃ d, staged tx slot h hist = some d ∧
        niosPkt16x64FastlockProfileHalfUnpack d = profileHalf u.stage.words h := fun h =>
      Option.map_eq_some_iff.mp ((hheld h).symm.trans (hall h))
    choose d hd hwords using hsome
    have hfree : pktRetune2ProfileSlotUse (u.queue tx) ((slotByte slot).setWidth 16) = .free ↔
        u.SlotUnused tx slot := pktRetune2ProfileSlotUse_eq_free
    rw [commit]
    simp only [hstaged, Bool.not_true, if_neg Bool.false_ne_true]
    cases huse : pktRetune2ProfileSlotUse (u.queue tx) ((slotByte slot).setWidth 16) with
    | free =>
        refine .inl ⟨d, hd, hfree.mp huse, ?_⟩
        have hprofile : { u.fastlocks tx slot with
            state := .bbp, profileData := u.stage.words } =
            committed (u.fastlocks tx slot) d := by
          have heq : u.stage.words = (committed (u.fastlocks tx slot) d).profileData :=
            words_ext fun h => by rw [profileHalf_committed, hwords]
          rw [heq]
          rfl
        rw [hprofile]
    | queued =>
        refine .inr ⟨?_, (fun hok => by cases hok), rfl⟩
        rintro ⟨_, _, hunused⟩
        cases (hfree.mpr hunused).symm.trans huse
    | loading =>
        refine .inr ⟨?_, (fun hok => by cases hok), rfl⟩
        rintro ⟨_, _, hunused⟩
        cases (hfree.mpr hunused).symm.trans huse
  · refine .inr ⟨?_, ?_, ?_⟩
    · rintro ⟨d, hd, -⟩
      have hbit : ∀ h, u.stage.halves h = true ∧ u.stage.tx = tx ∧
          u.stage.slot = slotByte slot := by
        intro h
        by_contra hnot
        have hnone : u.heldHalf tx slot h = none := if_neg hnot
        rw [hheld h, hd h] at hnone
        cases hnone
      apply hstaged
      simp [(hbit 0).1, (hbit 1).1, (hbit 0).2.1, (hbit 0).2.2]
    · simp [commit, hstaged]
    · simp [commit, hstaged, clearHalves]

theorem halfPack_halfUnpack (data : BitVec 64) :
    niosPkt16x64FastlockProfileHalfPack (niosPkt16x64FastlockProfileHalfUnpack data) = data := by
  have hbytes : List.ofFn (niosPkt16x64FastlockProfileHalfUnpack data) =
      Lib.leBytes 8 data.toNat := by
    rw [Lib.leBytes_eq_ofFn]
    congr 1
    funext i
    apply BitVec.eq_of_toNat_eq
    rw [niosPkt16x64FastlockProfileHalfUnpack, BitVec.toNat_setWidth, BitVec.toNat_ushiftRight,
      BitVec.toNat_ofNat, Nat.shiftRight_eq_div_pow, Nat.pow_mul]
  rw [niosPkt16x64FastlockProfileHalfPack, hbytes, Lib.leNat_leBytes_of_lt data.isLt,
    BitVec.ofNat_toNat, BitVec.setWidth_eq]

/-- The event leaves the words of the slot: it is not a COMMIT for it, or it is
a change of the caches that keeps them and does not invalidate the profile. -/
def Event.spares (tx : Bool) (slot : Fin 16) : Event → Prop
  | .write addr _ => decode addr ≠ some (tx, slot, .commit)
  | .retune2 _ change => ∀ fastlocks,
      (change fastlocks tx slot).profileData = (fastlocks tx slot).profileData ∧
        ((fastlocks tx slot).state ≠ .invalid → (change fastlocks tx slot).state ≠ .invalid)

def IsCommit (addr : BitVec 16) (data : BitVec 64) (tx : Bool) (slot : Fin 16) : Prop :=
  decode addr = some (tx, slot, .commit) ∧ data = 0

theorem commit_fastlocks_of_ne (hne : ¬(tx' = tx ∧ slot' = slot)) :
    (s.commit tx' slot').1.fastlocks tx slot = s.fastlocks tx slot := by
  rw [commit]
  simp only
  split
  · rfl
  · split
    · rfl
    · rfl
    · rw [setProfile]
      simp only
      by_cases htx : tx = tx'
      · subst htx
        have hslot : slot ≠ slot' := fun heq => hne ⟨rfl, heq.symm⟩
        rw [Function.update_self, Function.update_of_ne hslot]
        rfl
      · rw [Function.update_of_ne htx]
        rfl

theorem write_fastlocks (addr : BitVec 16) (data : BitVec 64)
    (hspare : ¬IsCommit addr data tx slot) :
    (s.write addr data).1.fastlocks tx slot = s.fastlocks tx slot := by
  rw [write]
  cases hdecode : decode addr with
  | none => rfl
  | some d =>
      obtain ⟨tx', slot', op⟩ := d
      cases op with
      | half h => rfl
      | commit =>
          simp only
          split
          · rfl
          · rename_i hdata
            refine commit_fastlocks_of_ne ?_
            rintro ⟨rfl, rfl⟩
            exact hspare ⟨hdecode, not_not.mp hdata⟩

theorem after_spared {later : List Event} (hlater : ∀ e ∈ later, e.spares tx slot)
    (hstate : (s.fastlocks tx slot).state ≠ .invalid) :
    ((s.after later).fastlocks tx slot).state ≠ .invalid ∧
      ((s.after later).fastlocks tx slot).profileData = (s.fastlocks tx slot).profileData := by
  induction later with
  | nil => exact ⟨hstate, rfl⟩
  | cons e es ih =>
      obtain ⟨hvalid, hwords⟩ := ih fun x hx => hlater x (List.mem_cons_of_mem _ hx)
      have hspare := hlater e List.mem_cons_self
      rw [after]
      cases e with
      | write addr data =>
          have hkeep : (((s.after es).write addr data).1).fastlocks tx slot =
              (s.after es).fastlocks tx slot := write_fastlocks addr data fun hc => hspare hc.1
          rw [step, hkeep]
          exact ⟨hvalid, hwords⟩
      | retune2 queue change =>
          obtain ⟨hkept, hstays⟩ := hspare (s.after es).fastlocks
          exact ⟨hstays hvalid, hkept.trans hwords⟩

theorem after_append (later hist : List Event) :
    s.after (later ++ hist) = (s.after hist).after later := by
  induction later with
  | nil => rfl
  | cons e es ih => rw [List.cons_append, after, after, ih]

/-- A staged profile is committed as a whole or not at all.  A COMMIT is accepted
exactly if both halves were staged for its slot since the last COMMIT, malformed
write or half of another slot, and no queued or loading entry uses the slot.  It
then leaves the staged words and the state `BBP` in that slot only, and both
halves are read back until something else touches the slot.  A rejected COMMIT
and every other write change no cache. -/
theorem fastlockProfileCache_atomic (fastlocks : Bool → Fin 16 → FastlockProfile)
    (queue : Bool → Retune2Queue) (hist : List Event) (addr : BitVec 16) (data : BitVec 64) :
    let start : FastlockCache := { fastlocks := fastlocks, queue := queue }
    let s := start.after hist
    (∀ tx slot, IsCommit addr data tx slot →
      ((s.write addr data).2 = .ok ↔
        (∃ d, BothStaged hist tx slot d) ∧ s.SlotUnused tx slot) ∧
      (∀ d, BothStaged hist tx slot d → (s.write addr data).2 = .ok →
        (s.write addr data).1.fastlocks =
          Function.update s.fastlocks tx
            (Function.update (s.fastlocks tx) slot (committed (s.fastlocks tx slot) d)) ∧
        ∀ later, (∀ e ∈ later, e.spares tx slot) → ∀ h : Fin 2,
          (start.after (later ++ .write addr data :: hist)).read
            (niosPkt16x64FastlockProfileAddr tx (slotByte slot) (BitVec.ofNat 8 h.val)) =
              (.ok, d h)) ∧
      ((s.write addr data).2 ≠ .ok → (s.write addr data).1.fastlocks = s.fastlocks)) ∧
    ((¬∃ tx slot, IsCommit addr data tx slot) →
      (s.write addr data).1.fastlocks = s.fastlocks) := by
  intro start s
  refine ⟨?_, ?_⟩
  · rintro tx slot ⟨hdecode, hdata⟩
    have hwrite : s.write addr data = s.commit tx slot := by
      rw [write, hdecode]
      simp [hdata]
    rcases commit_cases tx slot (rfl : start.stage = {}) hist with
      ⟨d, hd, hunused, hcommit⟩ | ⟨hnot, hcode, hsame⟩
    · have hresult : s.write addr data =
          (s.clearHalves.setProfile tx slot (committed (s.fastlocks tx slot) d), .ok) :=
        hwrite.trans hcommit
      rw [hresult]
      refine ⟨iff_of_true rfl ⟨⟨d, hd⟩, hunused⟩, ?_, fun hne => absurd rfl hne⟩
      intro d' hd' _
      have hdd : d' = d := by
        funext h
        exact Option.some.inj ((hd' h).symm.trans (hd h))
      subst hdd
      refine ⟨rfl, ?_⟩
      intro later hlater h
      let u := s.clearHalves.setProfile tx slot (committed (s.fastlocks tx slot) d')
      have hu : start.after (.write addr data :: hist) = u := by
        rw [after, step]
        exact congrArg Prod.fst hresult
      have hprofile : u.fastlocks tx slot = committed (s.fastlocks tx slot) d' := by
        simp [u, setProfile]
      have hvalid : (u.fastlocks tx slot).state ≠ .invalid := by
        rw [hprofile]
        exact fun hbad => by cases hbad
      obtain ⟨hstate, hwords⟩ := after_spared hlater hvalid
      rw [after_append, hu, read, decode_addr]
      simp only
      rw [if_neg hstate, hwords, hprofile, profileHalf_committed, halfPack_halfUnpack]
    · rw [hwrite]
      refine ⟨iff_of_false hcode fun hall => ?_, fun _ _ hok => absurd hok hcode, fun _ => hsame⟩
      obtain ⟨⟨d, hd⟩, hunused⟩ := hall
      exact hnot ⟨d, hd, hunused⟩
  · intro hnone
    funext tx slot
    exact write_fastlocks addr data fun hc => hnone ⟨tx, slot, hc⟩

/-- Slot 3 of the RX cache: the second half, the first half, COMMIT. -/
theorem fastlockProfileCache_atomic_slot3 :
    (FastlockCache.write
      (after
        { fastlocks := fun _ _ => ⟨0, fun _ => 0, .invalid⟩
          queue := fun _ => ⟨0, 0, fun _ => ⟨.invalid, 0⟩⟩ }
        [.write 0x0003 0x1122334455667788, .write 0x0403 0x99aabbccddeeff00]) 0x0803 0).2 = .ok :=
  ((fastlockProfileCache_atomic _ _ _ _ _).1 false 3 ⟨by decide, rfl⟩).1.mpr
    ⟨⟨fun h => if h = 0 then 0x1122334455667788 else 0x99aabbccddeeff00, by
      intro h
      match h with
      | 0 => rfl
      | 1 => rfl⟩, fun e he => absurd he List.not_mem_nil⟩

end FastlockCache

end BladeRF
