/-
# `Nios.VcocapSearch` — the search for VCOCAP under any VTUNE

`tune_vcocap` walks VCOCAP by what the VTUNE comparator says.  Here the
comparator says what it likes and any SPI access may fail.  Every value written
is a VCOCAP, and a search that succeeds has seen NORM at the value it leaves;
but an estimate that is HIGH up to the end of the range, or a reading that is no
region at all, reaches an assertion.
-/
import BladeRF.Nios.LmsTune

namespace BladeRF

open Lib.StatusM

inductive LmsAccess
  | read (addr : BitVec 8) (data : Option (BitVec 8))
  | write (addr data : BitVec 8)

/-- What was accessed, in order, with the number of reads and writes. -/
structure LmsTrace where
  reads : ℕ
  writes : ℕ
  log : List LmsAccess

/-- What the accesses give: the `n`-th read and whether the `n`-th write goes
through. -/
structure LmsScript where
  read : ℕ → Option (BitVec 8)
  write : ℕ → Bool

def LmsScript.board (c : LmsScript) : LmsBoard LmsTrace where
  lms6Read addr t := (c.read t.reads,
    { t with reads := t.reads + 1, log := t.log ++ [.read addr (c.read t.reads)] })
  lms6Write addr data t := (c.write t.writes,
    { t with writes := t.writes + 1, log := t.log ++ [.write addr data] })
  controlRegRead _ := 0
  controlRegWrite _ t := (true, t)
  expansionPortRead _ := 0
  expansionPortWrite _ t := (true, t)
  busyWait _ t := t

def LmsTrace.fresh : LmsState LmsTrace := ⟨⟨0, 0, []⟩, 0xff⟩

/-- The switch on VTUNE that asserts: `default` of the one that is reached. -/
def invalidState (vtune : BitVec 8) (limits : BitVec 8 × BitVec 8) : Bool :=
  if limits.1 ≠ vcocapMaxValue then ¬(vtune = vcoHigh ∨ vtune = vcoNorm)
  else ¬(vtune = vcoLow ∨ vtune = vcoNorm)

/-- The search comes to `assert(!"Invalid state")`. -/
def ReachesInvalid (c : LmsScript) (est base reg : BitVec 8) : Prop :=
  ∃ vtune t limits t',
    (getVtune c.board base vtuneDelayLarge).exec LmsTrace.fresh = (.ok vtune, t) ∧
      (firstVtuneLimit c.board vtune est base reg).exec t = (.ok limits, t') ∧
      invalidState vtune limits = true

/-- Only a VCOCAP is written, the upper bits being `reg`. -/
def LmsAccess.Fits (base reg : BitVec 8) : LmsAccess → Prop
  | .read _ _ => True
  | .write addr data => addr = base + 9 ∧ ∃ v : BitVec 8, v.toNat ≤ 63 ∧ data = v ||| reg

/-- The search left `v`: it was written last, and VTUNE was NORM after that. -/
def Settled (base reg : BitVec 8) (s : LmsState LmsTrace) : Prop :=
  ∃ (l : List LmsAccess) (d : BitVec 8), s.dev.log = l ++
      [.write (base + 9) (s.vcocapResult ||| reg), .read (base + 10) (some d)] ∧
    d >>> 6 = vcoNorm

structure SearchSafe (c : LmsScript) (est base reg : BitVec 8) : Prop where
  valid : ¬ReachesInvalid c est base reg
  fits : ∀ x ∈ ((tuneVcocap c.board est base reg).exec LmsTrace.fresh).2.dev.log, x.Fits base reg
  settled : ((tuneVcocap c.board est base reg).exec LmsTrace.fresh).1 = .ok () →
    Settled base reg ((tuneVcocap c.board est base reg).exec LmsTrace.fresh).2

/-- The first reading is no region, or it is HIGH and no later one is NORM on the
way to the end of the range. -/
def NoWayUp (c : LmsScript) (est : BitVec 8) : Prop :=
  ∃ d, c.read 0 = some d ∧
    (d >>> 6 = 3 ∨ d >>> 6 = vcoHigh ∧ 44 ≤ est.toNat ∧
      ∀ i < 63 - est.toNat, c.write i = true ∧
        ∃ d', c.read (i + 1) = some d' ∧ d' >>> 6 ≠ vcoNorm)

section

variable {c : LmsScript} {est base reg v : BitVec 8} {s : LmsState LmsTrace}

/-! ## The accesses -/

theorem getVtune_exec (delay : ℕ) (s : LmsState LmsTrace) :
    (getVtune c.board base delay).exec s =
      (match c.read s.dev.reads with
        | some d => .ok (d >>> 6)
        | none => .error (-1),
        { s with dev := (c.board.lms6Read (base + 10) s.dev).2 }) := by
  have hread : (lmsRead c.board (base + 10) >>= fun vtune => pure (vtune >>> 6)).exec s =
      (match c.read s.dev.reads with
        | some d => .ok (d >>> 6)
        | none => .error (-1),
        { s with dev := (c.board.lms6Read (base + 10) s.dev).2 }) := by
    rw [exec_bind, lmsRead_exec]
    dsimp only [LmsScript.board]
    cases c.read s.dev.reads <;> rfl
  unfold getVtune
  split <;> exact hread

theorem writeVcocap_exec (s : LmsState LmsTrace) :
    (writeVcocap c.board base v reg).exec s =
      (if c.write s.dev.writes then .ok () else .error (-1),
        { s with dev := (c.board.lms6Write (base + 9) (v ||| reg) s.dev).2 }) :=
  lmsWrite_exec c.board (base + 9) (v ||| reg) s

/-! ## What is written -/

def Within (base reg : BitVec 8) (s : LmsState LmsTrace) : Prop :=
  ∀ x ∈ s.dev.log, x.Fits base reg

def Limit (base reg : BitVec 8) (v : BitVec 8) (s : LmsState LmsTrace) : Prop :=
  v.toNat ≤ 63 ∧ Within base reg s

theorem getVtune_within (delay : ℕ) :
    Keeps (Within base reg) (getVtune c.board base delay) := by
  intro s hs
  have hnew : Within base reg { s with dev := (c.board.lms6Read (base + 10) s.dev).2 } := by
    intro x hx
    rcases List.mem_append.mp hx with hx | hx
    · exact hs x hx
    · rw [List.mem_singleton.mp hx]
      trivial
  rw [getVtune_exec]
  cases c.read s.dev.reads <;> exact hnew

theorem writeVcocap_within (hv : v.toNat ≤ 63) :
    Keeps (Within base reg) (writeVcocap c.board base v reg) := by
  intro s hs
  have hnew : Within base reg
      { s with dev := (c.board.lms6Write (base + 9) (v ||| reg) s.dev).2 } := by
    intro x hx
    rcases List.mem_append.mp hx with hx | hx
    · exact hs x hx
    · rw [List.mem_singleton.mp hx]
      exact ⟨rfl, v, hv, rfl⟩
  rw [writeVcocap_exec]
  cases c.write s.dev.writes <;> exact hnew

theorem probe_within {α : Type} {f : BitVec 8 → LmsM LmsTrace α}
    {Q : α → LmsState LmsTrace → Prop} (hv : v.toNat ≤ 63)
    (hf : ∀ vtune, Meets (Within base reg) (f vtune) Q fun _ => Within base reg) :
    Meets (Within base reg)
      (writeVcocap c.board base v reg >>= fun _ =>
        getVtune c.board base vtuneDelaySmall >>= f) Q fun _ => Within base reg :=
  Meets.bind (writeVcocap_within hv) fun _ => Meets.bind (getVtune_within _) hf

def VtuneWalk.Inside (w : VtuneWalk) : Prop :=
  w.endLimit.toNat ≤ 63 ∧ ∀ v : BitVec 8, v.toNat ≤ 63 → w.atEnd v = false →
    (v + w.inc).toNat ≤ 63 ∧ (v + w.inc + w.limitOffset).toNat ≤ 63

theorem vtuneWalk_within {w : VtuneWalk} (hw : w.Inside) :
    ∀ (n : ℕ) (v : BitVec 8), v.toNat ≤ 63 →
      Meets (Within base reg) (vtuneWalk c.board w base reg n v) (Limit base reg)
        fun _ => Within base reg := by
  intro n
  induction n with
  | zero => exact fun v _ => Meets.throw fun _ => id
  | succ n ih =>
      intro v hv
      rw [vtuneWalk]
      refine Meets.ite (fun _ => Meets.pure fun _ hs => ⟨hw.1, hs⟩) fun hend => ?_
      obtain ⟨hnext, hlimit⟩ := hw.2 v hv (by simpa using hend)
      exact probe_within hnext fun _ =>
        Meets.ite (fun _ => Meets.pure fun _ hs => ⟨hlimit, hs⟩) fun _ => ih _ hnext

theorem walks_inside :
    VtuneWalk.Inside ⟨fun v => vcocapMaxValue ≤ v, vcocapMaxValue, 1, vcoNorm, -1⟩ ∧
      VtuneWalk.Inside ⟨fun v => v = 0, 0, -1, vcoHigh, 0⟩ ∧
      VtuneWalk.Inside ⟨fun v => v = 0, 0, -1, vcoNorm, 1⟩ := by
  unfold VtuneWalk.Inside
  decide +kernel

theorem retryVtune_within (target : BitVec 8) (n : ℕ) :
    Keeps (Within base reg) (retryVtune c.board base target n) := by
  induction n with
  | zero => exact Keeps.pure _
  | succ n ih =>
      refine Keeps.bind (getVtune_within 0) fun vtune => Keeps.ite (Keeps.pure _) ?_
      exact Keeps.bind (Keeps.modify fun _ => id) fun _ => ih

theorem walkVcocap_within {inc : BitVec 8} (target : BitVec 8) :
    ∀ (n : ℕ) (v : BitVec 8), (inc = 1 ∧ v.toNat + n ≤ 63 ∨ inc = -1 ∧ n ≤ v.toNat ∧ v.toNat ≤ 63) →
      Meets (Within base reg) (walkVcocap c.board base target reg inc n v) (Limit base reg)
        fun _ => Within base reg := by
  intro n
  induction n with
  | zero => exact fun v hv => Meets.pure fun _ hs => ⟨by omega, hs⟩
  | succ n ih =>
      intro v hv
      have hstep : (inc = 1 ∧ (v + inc).toNat + n ≤ 63 ∨
          inc = -1 ∧ n ≤ (v + inc).toNat ∧ (v + inc).toNat ≤ 63) := by
        rcases hv with ⟨rfl, hv⟩ | ⟨rfl, hn, hv⟩
        · exact .inl ⟨rfl, by bv_omega⟩
        · exact .inr ⟨rfl, by bv_omega, by bv_omega⟩
      have hnext : (v + inc).toNat ≤ 63 := by omega
      rw [walkVcocap]
      exact probe_within hnext fun _ =>
        Meets.ite (fun _ => Meets.pure fun _ hs => ⟨hnext, hs⟩) fun _ => ih _ hstep

theorem waitForVtuneValue_within (target : BitVec 8) (hv : v.toNat ≤ 63) :
    Meets (Within base reg) (waitForVtuneValue c.board base target v reg) (Limit base reg)
      fun _ => Within base reg := by
  unfold waitForVtuneValue
  refine Meets.bind (retryVtune_within target 15) fun found => ?_
  refine Meets.ite (fun _ => Meets.pure fun _ hs => ⟨hv, hs⟩) fun _ => Meets.ite (fun _ => ?_)
    fun _ => ?_
  · exact walkVcocap_within target _ _ (.inr ⟨rfl, le_rfl, hv⟩)
  · refine walkVcocap_within target _ _ (.inl ⟨rfl, ?_⟩)
    unfold vcocapMaxValue
    bv_omega

def Limits (base reg : BitVec 8) (l : BitVec 8 × BitVec 8) (s : LmsState LmsTrace) : Prop :=
  l.1.toNat ≤ 63 ∧ l.2.toNat ≤ 63 ∧ Within base reg s

theorem firstVtuneLimit_within (vtune : BitVec 8) (hest : est.toNat ≤ 63) :
    Meets (Within base reg) (firstVtuneLimit c.board vtune est base reg) (Limits base reg)
      fun _ => Within base reg := by
  unfold firstVtuneLimit
  refine Meets.ite (fun _ => ?_) fun _ => Meets.ite (fun _ => ?_) fun _ =>
    Meets.ite (fun _ => ?_) fun _ => Meets.pure fun _ hs => ⟨by decide, by decide, hs⟩
  · exact (vtuneWalk_within walks_inside.1 _ _ hest).bind fun _ =>
      Meets.pure fun _ hs => ⟨hs.1, Nat.zero_le _, hs.2⟩
  · exact (vtuneWalk_within walks_inside.2.1 _ _ hest).bind fun _ =>
      Meets.pure fun _ hs => ⟨hs.1, Nat.zero_le _, hs.2⟩
  · exact (vtuneWalk_within walks_inside.2.2 _ _ hest).bind fun _ =>
      Meets.pure fun _ hs => ⟨le_rfl, hs.1, hs.2⟩

theorem far_within {α : Type} {w : VtuneWalk} {f : BitVec 8 → LmsM LmsTrace α}
    {Q : α → LmsState LmsTrace → Prop} (target : BitVec 8) (hw : w.Inside) (hv : v.toNat ≤ 63)
    (hf : ∀ l, Meets (Limit base reg l) (f l) Q fun _ => Within base reg) :
    Meets (Within base reg)
      (writeVcocap c.board base v reg >>= fun _ =>
        waitForVtuneValue c.board base target v reg >>= fun v =>
          vtuneWalk c.board w base reg vtuneMaxIterations v >>= f) Q fun _ => Within base reg := by
  refine Meets.bind (writeVcocap_within hv) fun _ =>
    Meets.bind (waitForVtuneValue_within _ hv) fun v => Meets.of_state fun s hs => ?_
  refine Meets.weaken (Meets.bind (vtuneWalk_within hw _ _ hs.1) hf) (fun t ht => ht ▸ hs.2)
    (fun _ _ => id) fun _ _ => id

theorem secondVtuneLimit_within (vtune : BitVec 8) (l : BitVec 8 × BitVec 8) :
    Meets (Limits base reg l) (secondVtuneLimit c.board vtune l base reg) (Limits base reg)
      fun _ => Within base reg := by
  refine Meets.of_state fun s hs => Meets.weaken (P := Within base reg) ?_
    (fun t ht => ht ▸ hs.2.2) (fun _ _ => id) fun _ _ => id
  obtain ⟨hhigh, hlow, -⟩ := hs
  unfold secondVtuneLimit
  refine Meets.ite (fun _ => Meets.ite (fun _ => Meets.throw fun _ => id) fun _ => ?_)
    fun _ => Meets.ite (fun _ => Meets.throw fun _ => id) fun _ => ?_
  · refine far_within vcoLow walks_inside.2.2 ?_ fun _ =>
      Meets.pure fun _ ht => ⟨hhigh, ht.1, ht.2⟩
    unfold vcocapMaxLowHigh vcocapMaxValue
    split_ifs <;> bv_omega
  · refine far_within vcoHigh walks_inside.1 ?_ fun _ =>
      Meets.pure fun _ ht => ⟨ht.1, hlow, ht.2⟩
    unfold vcocapMaxLowHigh
    split_ifs <;> bv_omega

theorem vcocapMidpoint_le {x y : BitVec 8} (hx : x.toNat ≤ 63) (hy : y.toNat ≤ 63) :
    (vcocapMidpoint x y).toNat ≤ 63 := by
  unfold vcocapMidpoint
  rw [BitVec.toNat_ofInt, Int.tdiv_eq_ediv, show Int.sign 2 = 1 from rfl]
  split_ifs <;> omega

theorem settle_meets (hv : v.toNat ≤ 63) :
    Meets (Within base reg)
      (do
        writeVcocap c.board base v reg
        modify fun s => { s with vcocapResult := v }
        let vtune ← getVtune c.board base vtuneDelaySmall
        if vtune ≠ vcoNorm then throw lmsErrUnexpected : LmsM LmsTrace Unit)
      (fun _ s => Within base reg s ∧ Settled base reg s) fun _ => Within base reg := by
  refine Meets.bind (Q := fun _ s => Within base reg s ∧
    ∃ l, s.dev.log = l ++ [LmsAccess.write (base + 9) (v ||| reg)]) (fun s hs => ?_) fun _ => ?_
  · have hwithin := writeVcocap_within (c := c) hv s hs
    rw [writeVcocap_exec] at hwithin ⊢
    cases hok : c.write s.dev.writes with
    | false =>
        rw [hok] at hwithin
        exact hwithin
    | true =>
        rw [hok] at hwithin
        exact ⟨hwithin, s.dev.log, rfl⟩
  refine Meets.bind (Q := fun _ s => Within base reg s ∧ s.vcocapResult = v ∧
    ∃ l, s.dev.log = l ++ [LmsAccess.write (base + 9) (v ||| reg)])
    (Meets.modify fun s hs => ⟨hs.1, rfl, hs.2⟩) fun _ => ?_
  refine Meets.bind (Q := fun vtune s => Within base reg s ∧ (vtune = vcoNorm → Settled base reg s))
    (fun s hs => ?_) fun vtune => Meets.ite (fun _ => Meets.throw fun _ hs => hs.1) fun hn =>
      Meets.pure fun _ hs => ⟨hs.1, hs.2 (not_not.mp hn)⟩
  obtain ⟨hs, rfl, l, hl⟩ := hs
  have hwithin := getVtune_within (c := c) vtuneDelaySmall s hs
  rw [getVtune_exec] at hwithin ⊢
  cases hread : c.read s.dev.reads with
  | none =>
      rw [hread] at hwithin
      exact hwithin
  | some d =>
      rw [hread] at hwithin
      refine ⟨hwithin, fun hn => ⟨l, d, ?_, hn⟩⟩
      show s.dev.log ++ [.read (base + 10) (c.read s.dev.reads)] = _
      rw [hl, hread, List.append_assoc]
      rfl

theorem tuneVcocap_meets (hest : est.toNat ≤ 63) :
    Meets (Within base reg) (tuneVcocap c.board est base reg)
      (fun _ s => Within base reg s ∧ Settled base reg s) fun _ => Within base reg := by
  unfold tuneVcocap
  refine Meets.bind (getVtune_within _) fun vtune =>
    Meets.bind (firstVtuneLimit_within vtune hest) fun l =>
    Meets.bind (secondVtuneLimit_within vtune l) fun l => Meets.of_state fun s hs => ?_
  refine Meets.weaken (P := Within base reg) ?_ (fun t ht => ht ▸ hs.2.2) (fun _ _ => id) fun _ _ => id
  exact settle_meets (vcocapMidpoint_le hs.1 hs.2.1)

/-! ## The assertion -/

def probed (c : LmsScript) (base reg v : BitVec 8) (s : LmsState LmsTrace) : LmsState LmsTrace :=
  { s with
    dev := (c.board.lms6Read (base + 10) (c.board.lms6Write (base + 9) (v ||| reg) s.dev).2).2 }

theorem probe_ok_iff {α : Type} {f : BitVec 8 → LmsM LmsTrace α} {r : α} :
    (∃ t, (writeVcocap c.board base v reg >>= fun _ =>
        getVtune c.board base vtuneDelaySmall >>= f).exec s = (.ok r, t)) ↔
      c.write s.dev.writes = true ∧ ∃ d, c.read s.dev.reads = some d ∧
        ∃ t, (f (d >>> 6)).exec (probed c base reg v s) = (.ok r, t) := by
  rw [exec_bind, writeVcocap_exec]
  cases hok : c.write s.dev.writes with
  | false => simp
  | true =>
      show (∃ t, (getVtune c.board base vtuneDelaySmall >>= f).exec
        { s with dev := (c.board.lms6Write (base + 9) (v ||| reg) s.dev).2 } = (.ok r, t)) ↔ _
      have hget : (getVtune c.board base vtuneDelaySmall).exec
          { s with dev := (c.board.lms6Write (base + 9) (v ||| reg) s.dev).2 } =
          (match c.read s.dev.reads with
            | some d => .ok (d >>> 6)
            | none => .error (-1), probed c base reg v s) := getVtune_exec _ _
      rw [exec_bind, hget]
      cases c.read s.dev.reads <;> simp

theorem vtuneHighToNorm_end_iff :
    ∀ (n : ℕ) (v : BitVec 8) (s : LmsState LmsTrace), v.toNat ≤ 63 →
      ((∃ t, (vtuneWalk c.board ⟨fun v => vcocapMaxValue ≤ v, vcocapMaxValue, 1, vcoNorm, -1⟩
          base reg n v).exec s = (.ok vcocapMaxValue, t)) ↔
        63 - v.toNat < n ∧ ∀ i < 63 - v.toNat, c.write (s.dev.writes + i) = true ∧
          ∃ d, c.read (s.dev.reads + i) = some d ∧ d >>> 6 ≠ vcoNorm) := by
  intro n
  induction n with
  | zero => exact fun v s _ => ⟨nofun, fun h => absurd h.1 (Nat.not_lt_zero _)⟩
  | succ n ih =>
      intro v s hv
      rw [vtuneWalk]
      split_ifs with hend
      · have hv63 : v.toNat = 63 := le_antisymm hv (BitVec.le_def.mp (of_decide_eq_true hend))
        rw [hv63]
        exact ⟨fun _ => ⟨Nat.succ_pos n, fun i hi => absurd hi (Nat.not_lt_zero i)⟩,
          fun _ => ⟨s, rfl⟩⟩
      · have hlt : v.toNat < 63 := lt_of_not_ge fun hge => hend (decide_eq_true (BitVec.le_def.mpr hge))
        have hnext : (v + 1).toNat = v.toNat + 1 := by bv_omega
        rw [probe_ok_iff]
        constructor
        · rintro ⟨hw, d, hd, t, ht⟩
          split_ifs at ht with hnorm
          · have hback : v + 1 + -1 = vcocapMaxValue := Except.ok.inj (congrArg Prod.fst ht)
            unfold vcocapMaxValue at hback
            bv_omega
          · obtain ⟨hlen, hrest⟩ := (ih (v + 1) (probed c base reg (v + 1) s) (by omega)).mp ⟨t, ht⟩
            refine ⟨by omega, fun i hi => ?_⟩
            cases i with
            | zero => exact ⟨hw, d, hd, hnorm⟩
            | succ i =>
                have hstep := hrest i (by omega)
                rw [Nat.add_comm i 1, ← Nat.add_assoc, ← Nat.add_assoc]
                exact hstep
        · rintro ⟨hlen, hall⟩
          obtain ⟨hw, d, hd, hnorm⟩ := hall 0 (by omega)
          refine ⟨hw, d, hd, ?_⟩
          rw [if_neg hnorm]
          refine (ih (v + 1) (probed c base reg (v + 1) s) (by omega)).mpr ⟨by omega, fun i hi => ?_⟩
          have hstep := hall (i + 1) (by omega)
          rw [Nat.add_comm i 1, ← Nat.add_assoc, ← Nat.add_assoc] at hstep
          exact hstep

theorem reachesInvalid_iff (hest : est.toNat ≤ 63) :
    ReachesInvalid c est base reg ↔ NoWayUp c est := by
  have hfirst : (getVtune c.board base vtuneDelayLarge).exec LmsTrace.fresh =
      (match c.read 0 with
        | some d => .ok (d >>> 6)
        | none => .error (-1),
        { LmsTrace.fresh with dev := (c.board.lms6Read (base + 10) LmsTrace.fresh.dev).2 }) :=
    getVtune_exec _ _
  have hwalk := @vtuneHighToNorm_end_iff c base reg vtuneMaxIterations est
    { LmsTrace.fresh with dev := (c.board.lms6Read (base + 10) LmsTrace.fresh.dev).2 } hest
  obtain ⟨t, ht⟩ : ∃ t, t = { LmsTrace.fresh with
    dev := (c.board.lms6Read (base + 10) LmsTrace.fresh.dev).2 } := ⟨_, rfl⟩
  rw [← ht] at hfirst hwalk
  unfold ReachesInvalid NoWayUp
  rw [hfirst]
  cases hread : c.read 0 with
  | none => exact ⟨nofun, nofun⟩
  | some d =>
      have hreach : (∃ vtune u limits t', ((.ok (d >>> 6), t) : Except ℤ _ × _) = (.ok vtune, u) ∧
          (firstVtuneLimit c.board vtune est base reg).exec u = (.ok limits, t') ∧
            invalidState vtune limits = true) ↔
          ∃ limits t', (firstVtuneLimit c.board (d >>> 6) est base reg).exec t = (.ok limits, t') ∧
            invalidState (d >>> 6) limits = true := by
        constructor
        · rintro ⟨_, _, limits, t', ⟨⟩, h⟩
          exact ⟨limits, t', h⟩
        · rintro ⟨limits, t', h⟩
          exact ⟨_, _, limits, t', rfl, h⟩
      refine hreach.trans ?_
      have hregions : d >>> 6 = vcoNorm ∨ d >>> 6 = vcoLow ∨ d >>> 6 = vcoHigh ∨ d >>> 6 = 3 := by
        unfold vcoNorm vcoLow vcoHigh
        bv_omega
      simp only [Option.some.injEq, exists_eq_left']
      rcases hregions with h | h | h | h
      all_goals rw [h]
      · simp [invalidState, vcoNorm, vcoHigh]
      · refine (exec_bind_pure_iff (m := vtuneLowToNorm c.board base est reg)).trans ?_
        simp [invalidState, vcoNorm, vcoHigh, vcoLow]
      · refine (exec_bind_pure_iff (m := vtuneHighToNorm c.board base est reg)).trans ?_
        have hend : (∃ h t', (vtuneHighToNorm c.board base est reg).exec t = (.ok h, t') ∧
            invalidState vcoHigh (h, 0) = true) ↔
            ∃ t', (vtuneHighToNorm c.board base est reg).exec t = (.ok vcocapMaxValue, t') := by
          constructor
          · rintro ⟨h, t', hexec, hinvalid⟩
            obtain rfl : h = vcocapMaxValue := by
              by_contra hne
              simp [invalidState, hne] at hinvalid
            exact ⟨t', hexec⟩
          · rintro ⟨t', hexec⟩
            exact ⟨_, t', hexec, by decide⟩
        refine hend.trans (hwalk.trans ?_)
        rw [ht]
        show (_ < 20 ∧ ∀ i < 63 - est.toNat, c.write (0 + i) = true ∧
          ∃ d, c.read (1 + i) = some d ∧ _) ↔ _
        simp only [Nat.zero_add, Nat.add_comm 1]
        constructor
        · exact fun h => .inr ⟨trivial, by omega, h.2⟩
        · rintro (h | ⟨-, hlow, h⟩)
          · exact absurd h (by decide)
          · exact ⟨by omega, h⟩
      · exact ⟨fun _ => .inl rfl, fun _ => ⟨(vcocapMaxValue, 0), t, rfl, by decide⟩⟩

/-- The search is safe exactly when it does not start from a HIGH that leads
nowhere or from no region. -/
theorem vcocap_search_iff (c : LmsScript) (est base reg : BitVec 8) (hest : est.toNat ≤ 63) :
    SearchSafe c est base reg ↔ ¬NoWayUp c est := by
  have hrun := @tuneVcocap_meets c est base reg hest LmsTrace.fresh
    fun x hx => absurd hx List.not_mem_nil
  refine ⟨fun h => mt (reachesInvalid_iff hest).mpr h.valid, fun h => ?_⟩
  cases hexec : (tuneVcocap c.board est base reg).exec LmsTrace.fresh with
  | mk r t =>
      rw [hexec] at hrun
      cases r with
      | ok u =>
          refine ⟨mt (reachesInvalid_iff hest).mp h, ?_, fun _ => ?_⟩
          all_goals rw [hexec]
          · exact hrun.1
          · exact hrun.2
      | error e =>
          refine ⟨mt (reachesInvalid_iff hest).mp h, ?_, fun hok => ?_⟩
          · rw [hexec]
            exact hrun
          · rw [hexec] at hok
            cases hok

end

/-- A comparator that says NORM, then HIGH, then LOW, then NORM again. -/
def calmScript : LmsScript where
  read n := some ([0x00, 0x80, 0x40, 0x00].getD n 0x00)
  write _ := true

def highScript : LmsScript := ⟨fun _ => some 0x80, fun _ => true⟩

theorem vcocap_search_calm : SearchSafe calmScript 32 0x20 0 := by
  refine (vcocap_search_iff calmScript 32 0x20 0 (by decide)).mpr ?_
  rintro ⟨d, hd, hregion⟩
  obtain rfl : 0x00 = d := Option.some.inj hd
  rcases hregion with hthree | ⟨hhigh, -⟩
  · exact absurd hthree (by decide)
  · exact absurd hhigh (by decide)

/-- With VTUNE HIGH at the end of the range an assertion is reached. -/
theorem vcocap_search_high : ¬SearchSafe highScript 63 0x20 0 := fun h =>
  h.valid ⟨vcoHigh, _, (vcocapMaxValue, 0), _, rfl, rfl, by decide⟩

end BladeRF
