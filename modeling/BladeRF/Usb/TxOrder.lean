/-
# `Usb.TxOrder` — what the device gets of a TX stream

The OUT endpoint takes whole transfers in the order libusb got them, and any of
them that has not moved a byte may come back timed out.  `lusb_stream_cb` submits
such a buffer again, behind whatever was queued meanwhile.  The bytes are still
those of the buffers in the order they were first submitted, as long as the
device takes nothing ahead of a timed-out buffer and what is submitted again was
first submitted with the length of the stream, which is what a retry sends.
-/
import BladeRF.Lib.Steps
import BladeRF.Usb.Passes
import Mathlib.Data.List.Perm.Basic

namespace BladeRF.Usb

open Transfer

open Lib (Along countP_modify forall_mem_modify)

/-! ## The endpoint -/

structure Entry where
  slot : ℕ
  /-- Its buffer's place in first-submission order. -/
  serial : ℕ
  data : List (BitVec 8)
  length : ℕ
  deriving DecidableEq

structure Line where
  stream : Stream
  /-- What the device has not taken, first in first out. -/
  queue : List Entry
  /-- What it has taken and libusb has not reported. -/
  taken : List Entry
  /-- What timed out without a byte and libusb has not reported. -/
  expired : List Entry
  /-- What the device took, in order. -/
  sent : List Entry
  late : List ℕ

inductive LineLabel
  | stream (l : Label)
  /-- The device takes a transfer. -/
  | take
  /-- A transfer times out without having moved a byte. -/
  | expire (i : ℕ)
  /-- libusb reports a transfer that the device took. -/
  | completed (i : ℕ)
  /-- libusb reports a timed-out transfer. -/
  | timedOut (i : ℕ)

/-- The buffer `n` is about to be submitted again in the transfer. -/
def Stream.retriedBy (n : ℕ) (x : Transfer) : Bool :=
  match x.hold with
  | .window _ => x.serial = some n
  | _ => false

namespace Line

variable (L : Line)

def step (l : Label) : Line := { L with stream := L.stream.next l }

def next : LineLabel → Line
  | .stream (.accept j) =>
      match L.stream.pool.all[j]? with
      | some x =>
          match x.hold with
          | .window _ =>
              { L.step (.accept j) with
                queue := L.queue ++
                  [⟨j, x.serial.getD L.stream.pool.firsts.length, x.data, x.length⟩] }
          | _ => L
      | none => L
  | .stream (.complete _ _ _) => L
  | .stream l => L.step l
  | .take =>
      match L.queue with
      | e :: rest =>
          { L with
            queue := rest
            taken := e :: L.taken
            sent := L.sent ++ [e] }
      | [] => L
  | .expire i =>
      match L.queue[i]? with
      | some e =>
          { L with
            queue := L.queue.eraseIdx i
            expired := e :: L.expired
            late := e.serial :: L.late }
      | none => L
  | .completed i =>
      match L.stream.holder, L.taken[i]? with
      | none, some e =>
          { L.step (.complete e.slot .completed e.length) with taken := L.taken.eraseIdx i }
      | _, _ => L
  | .timedOut i =>
      match L.stream.holder, L.expired[i]? with
      | none, some e =>
          { L.step (.complete e.slot .timedOut 0) with expired := L.expired.eraseIdx i }
      | _, _ => L

/-- The device takes nothing ahead of a buffer that timed out, and a buffer that is
submitted again had the length of the stream when it first was. -/
def InTurn : LineLabel → Prop
  | .take => ∀ e ∈ L.queue.head?, ∀ n ∈ L.late, n < e.serial → n ∈ L.sent.map Entry.serial
  | .stream (.accept j) =>
      ∀ x ∈ L.stream.pool.all[j]?, ∀ n ∈ x.serial, Stream.retriedBy n x →
        ∀ b ∈ L.stream.pool.firsts[n]?, b.2 = L.stream.bufBytes
  | _ => True

def bytes (b : List (BitVec 8) × ℕ) : List (BitVec 8) := b.1.take b.2

/-- The device accepted a prefix of the buffers in first-submission order. -/
structure Delivers (L : Line) : Prop where
  buffers : L.sent.map (fun e => (e.data, e.length)) <+: L.stream.pool.firsts
  stream : (L.sent.flatMap fun e => bytes (e.data, e.length)) <+:
    L.stream.pool.firsts.flatMap bytes

end Line

/-! ## Old buffers in the stream -/

namespace Stream

variable {s t u : Stream} {late : List ℕ}

/-- The buffer that the thread with the lock is about to submit again. -/
def retrySerial (s : Stream) : Option ℕ :=
  match s.holder with
  | some (.submit req _) => req.serial
  | some (.handle j .timedOut _ _) => (s.pool.all[j]?).bind serial
  | _ => none

/-- How often the buffer `n` is on its way back to libusb. -/
def retries (s : Stream) (n : ℕ) : ℕ :=
  s.pool.all.countP (retriedBy n) + (decide (s.retrySerial = some n)).toNat

/-- `b` is the buffer `n`, which timed out before, with the length of the stream. -/
def IsLate (s : Stream) (late : List ℕ) (n : ℕ) (b : List (BitVec 8) × ℕ) : Prop :=
  (∃ first, s.pool.firsts[n]? = some (b.1, first)) ∧ b.2 = s.bufBytes ∧ n ∈ late

def Carries (s : Stream) (late : List ℕ) : Point → Prop
  | .submit req _ => ∀ n, req.serial = some n → s.IsLate late n (req.data, req.length)
  | .handle j .timedOut _ _ => ∀ x, s.pool.all[j]? = some x → x.hold = .free ∧
      ∀ n, x.serial = some n → s.IsLate late n (x.data, s.bufBytes)
  | pt => pt.Fresh

structure Orderly (s : Stream) (late : List ℕ) : Prop where
  avail : ∀ x ∈ s.pool.all, x.status = .avail → x.hold = .free
  waiting : ∀ pt ∈ s.waiting, pt.Fresh
  window : ∀ x ∈ s.pool.all, ∀ caller, x.hold = .window caller → ∀ n, x.serial = some n →
    s.IsLate late n (x.data, x.length)
  holder : ∀ pt, s.holder = some pt → s.Carries late pt

/-- A step that leaves libusb its transfers and takes up no other buffer again. -/
structure Forwards (s t : Stream) (late : List ℕ) : Prop where
  orderly : t.Orderly late
  firsts : t.pool.firsts = s.pool.firsts
  libusb : ∀ (j : ℕ) (x : Transfer), s.pool.all[j]? = some x → x.hold = .libusb →
    ∃ y : Transfer, t.pool.all[j]? = some y ∧ y.hold = .libusb ∧ y.serial = x.serial ∧
      y.data = x.data ∧ y.length = x.length
  retries : ∀ n, t.retries n ≤ s.retries n

theorem Carries.of_fresh {pt : Point} (h : pt.Fresh) : s.Carries late pt := by
  cases pt with
  | submit req caller => exact fun n hn => nomatch (show req.serial = none from h).symm.trans hn
  | handle j status actualLength retire =>
      cases status with
      | timedOut => exact absurd rfl h
      | _ => exact h
  | _ => exact h

theorem retrySerial_fresh (h : ∀ pt, s.holder = some pt → pt.Fresh) : s.retrySerial = none := by
  unfold retrySerial
  split
  · rename_i req caller hh
    exact h _ hh
  · rename_i j len retire hh
    exact absurd rfl (h _ hh)
  · rfl

theorem Forwards.refl (h : s.Orderly late) : Forwards s s late :=
  ⟨h, rfl, fun _ x hx hlib => ⟨x, hx, hlib, rfl, rfl, rfl⟩, fun _ => le_rfl⟩

theorem Orderly.same (h : s.Orderly late) (hall : t.pool.all = s.pool.all)
    (hfirsts : t.pool.firsts = s.pool.firsts) (hbuf : t.bufBytes = s.bufBytes)
    (hw : ∀ pt ∈ t.waiting, pt.Fresh) (hh : ∀ pt, t.holder = some pt → pt.Fresh) :
    Forwards s t late := by
  refine ⟨⟨?_, hw, ?_, fun pt hp => .of_fresh (hh pt hp)⟩, hfirsts, ?_, fun n => ?_⟩
  · rw [hall]
    exact h.avail
  · rw [hall]
    intro x hx caller hc n hn
    obtain ⟨hf, hlen, hl⟩ := h.window x hx caller hc n hn
    exact ⟨hfirsts ▸ hf, hbuf ▸ hlen, hl⟩
  · rw [hall]
    exact fun _ x hx hlib => ⟨x, hx, hlib, rfl, rfl, rfl⟩
  · unfold Stream.retries
    rw [hall, retrySerial_fresh hh]
    exact Nat.add_le_add_left (Nat.zero_le _) _

/-- … such as a stretch of a thread that carries nothing old. -/
theorem Orderly.passes (h : s.Orderly late) {pt : Point} (hp : Passes s t pt) (hpt : pt.Fresh) :
    Forwards s t late := by
  have hall : t.pool.all = s.pool.all := congrArg Transfers.all hp.pool
  have hfirsts : t.pool.firsts = s.pool.firsts := congrArg Transfers.firsts hp.pool
  have hsome : ∀ {q r : Point}, q.Fresh → some q = some r → r.Fresh := fun hq hr =>
    Option.some.inj hr ▸ hq
  cases hp.moved with
  | ends _ hh hw =>
      exact h.same hall hfirsts hp.bufBytes (hw ▸ h.waiting) fun q hq => nomatch hh.symm.trans hq
  | goes q hq hh hw =>
      exact h.same hall hfirsts hp.bufBytes (hw ▸ h.waiting) fun r hr =>
        hsome (hq.2 hpt) (hh.symm.trans hr)
  | waits q hq hh hw =>
      refine h.same hall hfirsts hp.bufBytes (fun r hr => ?_) fun r hr => nomatch hh.symm.trans hr
      rw [hw] at hr
      rcases List.mem_append.mp hr with hr | hr
      · exact h.waiting r hr
      · obtain rfl := List.mem_singleton.mp hr
        exact hq.2 hpt

theorem handle_timedOut (j : ℕ) (actualLength : ℤ) (retire : Bool) (env : Env) :
    (∃ u q, Alike s u ∧ q.Fresh ∧ s.handle j .timedOut actualLength retire env = u.go q) ∨
      ∃ x, s.pool.all[j]? = some x ∧ s.handle j .timedOut actualLength retire env =
        s.go (.submit ⟨x.data, s.bufBytes, x.generation, x.serial⟩ (.requeue retire)) := by
  have hs := Alike.refl s
  unfold handle
  cases hx : s.pool.all[j]? with
  | none => exact .inl ⟨s, .tail retire, hs, trivial, rfl⟩
  | some x =>
      dsimp only
      split
      · split_ifs
        · exact .inl ⟨_, .errored .timedOut retire true, (hs.setError .wouldBlock).shutDown,
            trivial, rfl⟩
        · exact .inr ⟨x, rfl, rfl⟩
      · exact .inl ⟨s, .errored .timedOut retire false, hs, trivial, rfl⟩

variable {j : ℕ} {x : Transfer} {caller : Caller}

section

variable (h : s.Orderly late)

include h

theorem handle_forwards {actualLength : ℤ} {retire : Bool}
    (env : Env) (hh : s.holder = some (.handle j .timedOut actualLength retire)) :
    Forwards s (s.handle j .timedOut actualLength retire env) late := by
  rcases @handle_timedOut s j actualLength retire env with ⟨u, q, hu, hq, heq⟩ | ⟨x, hx, heq⟩
  · rw [heq]
    refine h.same (congrArg Transfers.all hu.pool) (congrArg Transfers.firsts hu.pool) hu.bufBytes
      (fun pt hp => h.waiting pt (hu.waiting ▸ hp)) fun pt hp => ?_
    exact Option.some.inj hp ▸ hq
  · rw [heq]
    obtain ⟨-, hlate⟩ := h.holder _ hh x hx
    refine ⟨⟨h.avail, h.waiting, h.window, fun pt hp => ?_⟩, rfl,
      fun _ y hy hlib => ⟨y, hy, hlib, rfl, rfl, rfl⟩, fun n => ?_⟩
    · obtain rfl := Option.some.inj hp
      exact hlate
    · have hserial : s.retrySerial = x.serial := by
        unfold retrySerial
        rw [hh]
        dsimp only
        rw [hx]
        rfl
      show s.pool.all.countP (retriedBy n) + (decide (x.serial = some n)).toNat ≤ s.retries n
      unfold Stream.retries
      rw [hserial]

theorem Orderly.modify {i : ℕ} {f : Transfer → Transfer}
    (hx : s.pool.all[i]? = some x) (hnot : x.hold ≠ .libusb)
    (hall : t.pool.all = s.pool.all.modify i f) (hfirsts : t.pool.firsts = s.pool.firsts)
    (hbuf : t.bufBytes = s.bufBytes) (hw : ∀ pt ∈ t.waiting, pt.Fresh)
    (hh : ∀ pt, t.holder = some pt → pt.Fresh)
    (havail : (f x).status = .avail → (f x).hold = .free)
    (hwin : ∀ caller, (f x).hold = .window caller → ∀ n, (f x).serial = some n →
      s.IsLate late n ((f x).data, (f x).length))
    (hret : ∀ n, (retriedBy n (f x)).toNat ≤ (decide (s.retrySerial = some n)).toNat) :
    Forwards s t late := by
  have hone : ∀ y, s.pool.all[i]? = some y → x = y := fun y hy => Option.some.inj (hx.symm.trans hy)
  refine ⟨⟨?_, hw, ?_, fun pt hp => .of_fresh (hh pt hp)⟩, hfirsts, ?_, fun n => ?_⟩
  · rw [hall]
    refine forall_mem_modify h.avail fun y hy => ?_
    obtain rfl := hone y hy
    exact havail
  · rw [hall]
    unfold IsLate
    rw [hfirsts, hbuf]
    refine forall_mem_modify h.window fun y hy => ?_
    obtain rfl := hone y hy
    exact hwin
  · intro j y hy hlib
    refine ⟨y, ?_, hlib, rfl, rfl, rfl⟩
    rw [hall, List.getElem?_modify, hy]
    by_cases hij : i = j
    · subst hij
      exact absurd (hone y hy ▸ hlib) hnot
    · simp [hij]
  · have hcount := countP_modify (retriedBy n) f hx
    have hle := hret n
    unfold Stream.retries
    rw [hall, retrySerial_fresh hh]
    simp only [reduceCtorEq, decide_false, Bool.toNat_false]
    omega

theorem submitTransfer_forwards {req : Request} (env : Env)
    (hh : s.holder = some (.submit req caller)) :
    Forwards s (s.submitTransfer req caller env) late := by
  have hserial : s.retrySerial = req.serial := by
    unfold retrySerial
    rw [hh]
  have hlate : ∀ n, req.serial = some n → s.IsLate late n (req.data, req.length) := h.holder _ hh
  have hback : ∀ pt, some (Point.returned caller (some StreamError.wouldBlock)) = some pt →
      pt.Fresh := fun pt hp => Option.some.inj hp ▸ trivial
  unfold submitTransfer
  cases hnext : s.pool.nextAvailable with
  | none => exact h.same rfl rfl rfl h.waiting hback
  | some i =>
      obtain ⟨x, hx, havail⟩ := Transfers.nextAvailable_spec hnext
      have hnot : x.hold ≠ .libusb := by
        rw [h.avail x (List.mem_of_getElem? hx) havail]
        exact Hold.noConfusion
      have hcarried : ∀ n, (decide (req.serial = some n)).toNat ≤
          (decide (s.retrySerial = some n)).toNat := by
        rw [hserial]
        exact fun _ => le_rfl
      dsimp only
      cases s.direction with
      | rx =>
          exact h.modify hx hnot rfl rfl rfl h.waiting (fun pt hp => nomatch hp)
            (fun ha => nomatch ha) (fun _ _ => hlate) hcarried
      | tx =>
          cases env.leaseAcquire with
          | some err =>
              refine h.modify (f := free ∘ (·.claim req caller)) hx hnot
                (List.modify_modify_eq ..) rfl rfl h.waiting
                (fun pt hp => Option.some.inj hp ▸ trivial) (fun _ => rfl) (fun _ hc => nomatch hc)
                fun n => ?_
              exact Nat.zero_le _
          | none =>
              exact h.modify (f := lease ∘ (·.claim req caller)) hx hnot
                (List.modify_modify_eq ..) rfl rfl h.waiting (fun pt hp => nomatch hp)
                (fun ha => nomatch ha) (fun _ _ => hlate) hcarried

theorem cancel_forwards (env : Env) {after : Point} (hf : after.Fresh) :
    Forwards s ((s.cancelAllTransfers env).go after) late := by
  have hafter : ∀ pt, some after = some pt → pt.Fresh := fun pt hp => Option.some.inj hp ▸ hf
  unfold cancelAllTransfers
  split_ifs
  · exact h.same rfl rfl rfl h.waiting hafter
  · refine ⟨⟨?_, h.waiting, ?_, fun pt hp => .of_fresh (hafter pt hp)⟩, rfl, ?_, fun n => ?_⟩
    · intro x hx ha
      obtain ⟨j, hj, rfl⟩ := List.mem_mapIdx.mp hx
      rw [hold_cancel]
      refine h.avail _ (List.getElem_mem hj) (of_decide_eq_true ?_)
      show isAvail _ = true
      rw [← isAvail_cancel (env.cancelRefused j)]
      exact decide_eq_true ha
    · intro x hx caller hc n hn
      obtain ⟨j, hj, rfl⟩ := List.mem_mapIdx.mp hx
      rw [hold_cancel] at hc
      rw [serial_cancel] at hn
      rw [data_cancel, length_cancel]
      exact h.window _ (List.getElem_mem hj) caller hc n hn
    · intro j x hx hlib
      refine ⟨x.cancel (env.cancelRefused j), ?_, ?_⟩
      · show (s.pool.all.mapIdx _)[j]? = _
        rw [List.getElem?_mapIdx, hx]
        rfl
      · simp [hlib]
    · unfold Stream.retries
      rw [retrySerial_fresh (s := (s.setPool _).go after) hafter]
      have hkept : ∀ j x, retriedBy n (x.cancel (env.cancelRefused j)) = retriedBy n x := by
        intro j x
        unfold retriedBy
        rw [hold_cancel, serial_cancel]
      show (s.pool.all.mapIdx _).countP (retriedBy n) + 0 ≤ _
      rw [Lib.countP_mapIdx hkept]
      exact Nat.le_add_right _ _

theorem run_forwards (env : Env) {pt : Point} (hh : s.holder = some pt) :
    Forwards s (s.run env pt) late := by
  have hc := h.holder pt hh
  cases hw : pt.works with
  | true =>
      cases pt with
      | submit req caller => exact submitTransfer_forwards h env hh
      | cancel after => exact cancel_forwards h env hc
      | finish retire => exact h.same rfl rfl rfl h.waiting fun pt hp => nomatch hp
      | _ => exact absurd hw (by simp [Point.works])
  | false =>
      by_cases hf : pt.Fresh
      · exact h.passes (run_passes env hw) hf
      · cases pt with
        | submit req caller => exact absurd hw (by simp [Point.works])
        | handle j status actualLength retire =>
            cases status with
            | timedOut => exact handle_forwards h env hh
            | _ => exact absurd hc hf
        | _ => exact absurd hc hf

theorem reject_forwards
    (err : StreamError) (hx : s.pool.all[j]? = some x) (hw : x.hold = .window caller) :
    Forwards s ((s.setPool (s.pool.reject j)).go (.returned caller (some err))) late := by
  have hnot : x.hold ≠ .libusb := by
    rw [hw]
    exact Hold.noConfusion
  exact h.modify (f := free) hx hnot rfl rfl rfl h.waiting
    (fun pt hp => Option.some.inj hp ▸ trivial) (fun _ => rfl) (fun _ hc => nomatch hc)
    fun _ => Nat.zero_le _

theorem settle_forwards (hall : u.pool = s.pool)
    (hbuf : u.bufBytes = s.bufBytes) (hw : u.waiting = s.waiting) (hu : u.holder = none) :
    Forwards s u.settle late := by
  unfold settle
  split_ifs
  · exact h.same (congrArg Transfers.all hall) (congrArg Transfers.firsts hall) hbuf
      (hw ▸ h.waiting) fun pt hp => nomatch hu.symm.trans hp
  · exact h.same (congrArg Transfers.all hall) (congrArg Transfers.firsts hall) hbuf
      (hw ▸ h.waiting) fun pt hp => Option.some.inj hp ▸ trivial

theorem next_forwards (l : Label) (ha : ∀ j, l ≠ .accept j)
    (hc : ∀ j status len, l ≠ .complete j status len) : Forwards s (s.next l) late := by
  have hsame : Forwards s s late := .refl h
  have hnone : s.holder = none → ∀ pt, s.holder = some pt → pt.Fresh := fun hn pt hp =>
    nomatch hn.symm.trans hp
  have hfresh : ∀ (pt : Point) {q : Point}, pt.Fresh → some pt = some q → q.Fresh :=
    fun _ _ hpt hq => Option.some.inj hq ▸ hpt
  cases l with
  | run env =>
      dsimp only [next]
      cases hh : s.holder with
      | none => exact hsame
      | some pt => exact run_forwards h env hh
  | lock k =>
      dsimp only [next]
      split
      · rename_i pt hh hk
        exact h.same rfl rfl rfl (fun p hp => h.waiting p (List.mem_of_mem_eraseIdx hp))
          fun p hp => hfresh pt (h.waiting pt (List.mem_of_getElem? hk)) hp
      · exact hsame
  | accept j => exact absurd rfl (ha j)
  | reject j err =>
      dsimp only [next]
      split
      · rename_i caller hh hwin
        obtain ⟨x, hx, hw⟩ := Option.map_eq_some_iff.mp hwin
        exact reject_forwards h err hx hw
      · exact hsame
  | complete j status actualLength => exact absurd rfl (hc j status actualLength)
  | submit req nonblock =>
      dsimp only [next]
      split
      · exact hsame
      · rename_i hbusy
        rw [not_or, not_not, not_not] at hbusy
        split_ifs
        · exact h.same rfl rfl rfl h.waiting fun pt hp =>
            hfresh (.submitterGo req nonblock none) hbusy.2 hp
        · exact hsame
        · refine h.same rfl rfl rfl (fun pt hp => ?_) fun pt hp => nomatch hp
          rcases List.mem_append.mp hp with hp | hp
          · exact h.waiting pt hp
          · obtain rfl := List.mem_singleton.mp hp
            exact hbusy.2
  | submitShutdown =>
      dsimp only [next]
      split_ifs with hh hd
      · exact hsame
      · exact h.same rfl rfl rfl h.waiting (hnone (not_not.mp hh))
      · exact h.same rfl rfl rfl h.waiting (hnone (not_not.mp hh))
  | shutdown =>
      dsimp only [next]
      split
      · exact hsame
      · rename_i hbusy
        rw [not_or, not_not] at hbusy
        exact settle_forwards h rfl rfl rfl hbusy.1
  | deinit =>
      exact ⟨⟨h.avail, h.waiting, h.window, h.holder⟩, rfl,
        fun _ x hx hlib => ⟨x, hx, hlib, rfl, rfl, rfl⟩, fun _ => le_rfl⟩
  | eventError err =>
      dsimp only [next]
      split
      · exact hsame
      · exact h.same rfl rfl rfl h.waiting fun pt hp =>
          hfresh (.failRx err (.eventFailed err)) trivial hp
  | tick =>
      dsimp only [next]
      split
      · exact hsame
      · rename_i hbusy
        rw [not_or, not_not] at hbusy
        exact settle_forwards h rfl rfl rfl hbusy.1

end

/-! ### A submission is accepted -/

theorem firsts_accept (p : Transfers) (j n : ℕ) (b : List (BitVec 8) × ℕ)
    (h : p.firsts[n]? = some b) : (p.accept j).firsts[n]? = some b := by
  obtain ⟨hlt, -⟩ := List.getElem?_eq_some_iff.mp h
  show (p.firsts ++ _)[n]? = _
  rw [List.getElem?_append_left hlt, h]

theorem IsLate.accept {n : ℕ} {b : List (BitVec 8) × ℕ} (h : s.IsLate late n b) (j : ℕ)
    (caller : Caller) : (s.accepted j caller).IsLate late n b :=
  ⟨h.1.imp fun _ hf => firsts_accept s.pool j n _ hf, h.2⟩

theorem accept_serial (h : s.Orderly late)
    (hx : s.pool.all[j]? = some x) (hw : x.hold = .window caller)
    (hfirst : ∀ n ∈ x.serial, retriedBy n x → ∀ b ∈ s.pool.firsts[n]?, b.2 = s.bufBytes) :
    (s.pool.accept j).firsts[x.serial.getD s.pool.firsts.length]? = some (x.data, x.length) := by
  cases hs : x.serial with
  | some n =>
      obtain ⟨⟨first, hf⟩, hlen, -⟩ := h.window x (List.mem_of_getElem? hx) caller hw n hs
      have hretried : retriedBy n x := by simp [retriedBy, hw, hs]
      have heq : first = x.length := (hfirst n hs hretried _ hf).trans hlen.symm
      exact firsts_accept s.pool j n _ (heq ▸ hf)
  | none =>
      show (s.pool.firsts ++ ((s.pool.all[j]?).filter fun t => t.serial = none).toList.map
        fun t => (t.data, t.length))[s.pool.firsts.length]? = _
      rw [hx, Option.filter_some_pos (by simp [hs])]
      exact List.getElem?_concat_length

theorem accepted_orderly (h : s.Orderly late)
    (hx : s.pool.all[j]? = some x) (hw : x.hold = .window caller) :
    (s.accepted j caller).Orderly late := by
  have hone : ∀ y, s.pool.all[j]? = some y → x = y := fun y hy => Option.some.inj (hx.symm.trans hy)
  refine ⟨?_, fun pt hp => ?_, ?_, fun pt hp => ?_⟩
  · refine forall_mem_modify h.avail fun y hy ha => ?_
    obtain rfl := hone y hy
    exact Hold.noConfusion ((h.avail x (List.mem_of_getElem? hx) ha).symm.trans hw)
  · rcases List.mem_append.mp hp with hp | hp
    · exact h.waiting pt hp
    · obtain rfl := List.mem_singleton.mp hp
      trivial
  · refine forall_mem_modify (fun y hy c hc n hn => ?_) fun y hy c hc => nomatch hc
    exact (h.window y hy c hc n hn).accept j caller
  · have hcarries := h.holder pt hp
    cases pt with
    | submit req c => exact fun n hn => (hcarries n hn).accept j caller
    | handle i status len retire =>
        cases status with
        | timedOut =>
            intro y hy
            -- the callback's transfer is free, so it is not the accepted one
            rw [show (s.accepted j caller).pool.all = s.pool.all.modify j _ from rfl,
              List.getElem?_modify] at hy
            obtain ⟨z, hz, hzy⟩ := Option.map_eq_some_iff.mp hy
            obtain ⟨hfree, hlate⟩ := hcarries z hz
            by_cases hij : j = i
            · subst hij
              exact Hold.noConfusion (hw.symm.trans (hone z hz ▸ hfree))
            · rw [if_neg hij] at hzy
              obtain rfl : z = y := hzy
              exact ⟨hfree, fun n hn => (hlate n hn).accept j caller⟩
        | _ => exact hcarries
    | _ => exact hcarries

theorem accepted_retries (h : s.Orderly late)
    (hx : s.pool.all[j]? = some x) (hw : x.hold = .window caller) (n : ℕ) :
    (s.accepted j caller).retries n + (decide (x.serial = some n)).toNat = s.retries n := by
  have hcount := countP_modify (retriedBy n) (·.accept s.pool.firsts.length) hx
  have hwin : retriedBy n x = decide (x.serial = some n) := by simp [retriedBy, hw]
  rw [hwin, show retriedBy n (x.accept _) = false from rfl] at hcount
  have hretry : (s.accepted j caller).retrySerial = s.retrySerial := by
    unfold retrySerial
    rw [show (s.accepted j caller).holder = s.holder from rfl]
    split
    · rfl
    · rename_i i len retire hh
      show ((s.pool.all.modify j _)[i]?).bind serial = _
      rw [List.getElem?_modify]
      by_cases hij : j = i
      · subst hij
        exact Hold.noConfusion (hw.symm.trans (h.holder _ hh x hx).1)
      · simp [hij]
    · rfl
  unfold Stream.retries
  rw [hretry]
  simp only [Bool.toNat_false] at hcount
  show (s.pool.all.modify j _).countP _ + _ + _ = _
  omega

/-! ### A transfer comes back -/

theorem completion_orderly (h : s.Orderly late) (status : CompletionStatus) (actualLength : ℤ)
    (hc : status = .timedOut → ∀ x n, s.pool.all[j]? = some x → x.serial = some n →
      s.IsLate late n (x.data, s.bufBytes)) :
    (s.completion j status actualLength).Orderly late := by
  refine ⟨?_, h.waiting, ?_, fun pt hp => ?_⟩
  · exact forall_mem_modify h.avail fun _ _ _ => rfl
  · exact forall_mem_modify h.window fun _ _ _ hw => nomatch hw
  · obtain rfl := Option.some.inj hp
    cases status with
    | timedOut =>
        intro y hy
        rw [show (s.completion j .timedOut actualLength).pool.all = s.pool.all.modify j _ from rfl,
          List.getElem?_modify] at hy
        obtain ⟨x, hx, hxy⟩ := Option.map_eq_some_iff.mp hy
        rw [if_pos rfl] at hxy
        subst hxy
        exact ⟨rfl, fun n hn => hc rfl x n hx hn⟩
    | _ => exact CompletionStatus.noConfusion

theorem completion_retrySerial (status : CompletionStatus)
    (actualLength : ℤ) (hx : s.pool.all[j]? = some x) :
    (s.completion j status actualLength).retrySerial =
      if status = .timedOut then x.serial else none := by
  cases status with
  | timedOut =>
      show ((s.pool.all.modify j free)[j]?).bind serial = _
      rw [List.getElem?_modify, hx]
      simp [free]
  | _ => rfl

theorem completion_retries (status : CompletionStatus)
    (actualLength : ℤ) (hh : s.holder = none) (hx : s.pool.all[j]? = some x)
    (hlib : x.hold = .libusb) (n : ℕ) :
    (s.completion j status actualLength).retries n = s.retries n +
      (decide ((if status = .timedOut then x.serial else none) = some n)).toNat := by
  have hcount := countP_modify (retriedBy n) free hx
  have hnone : retriedBy n x = false := by simp [retriedBy, hlib]
  rw [hnone, show retriedBy n x.free = false from rfl] at hcount
  have hstart : s.retrySerial = none := by
    unfold retrySerial
    rw [hh]
  unfold Stream.retries
  rw [completion_retrySerial status actualLength hx, hstart]
  simp only [Bool.toNat_false, reduceCtorEq, decide_false] at hcount ⊢
  show (s.pool.all.modify j free).countP _ + _ = _
  omega

theorem Orderly.retries_eq_zero (h : s.Orderly late) {n : ℕ} (hn : s.pool.firsts[n]? = none) :
    s.retries n = 0 := by
  have hwindow : s.pool.all.countP (retriedBy n) = 0 := by
    rw [List.countP_eq_zero]
    intro x hx hr
    unfold retriedBy at hr
    split at hr
    · rename_i caller hw
      obtain ⟨⟨_, hf⟩, -⟩ := h.window x hx caller hw n (of_decide_eq_true hr)
      exact nomatch hn.symm.trans hf
    · exact Bool.noConfusion hr
  have hholder : s.retrySerial ≠ some n := by
    unfold retrySerial
    split
    · rename_i req caller hh
      intro hr
      obtain ⟨⟨_, hf⟩, -⟩ := h.holder _ hh n hr
      exact nomatch hn.symm.trans hf
    · rename_i j len retire hh
      intro hr
      obtain ⟨x, hx, hxn⟩ := Option.bind_eq_some_iff.mp hr
      obtain ⟨⟨_, hf⟩, -⟩ := (h.holder _ hh x hx).2 n hxn
      exact nomatch hn.symm.trans hf
    · exact fun hr => nomatch hr
  unfold Stream.retries
  rw [hwindow, decide_eq_false hholder]
  rfl

theorem Orderly.mono (h : s.Orderly late) {late' : List ℕ} (hl : ∀ n ∈ late, n ∈ late') :
    s.Orderly late' := by
  have hlate : ∀ {n b}, s.IsLate late n b → s.IsLate late' n b := fun ⟨hf, hlen, hn⟩ =>
    ⟨hf, hlen, hl _ hn⟩
  refine ⟨h.avail, h.waiting, fun x hx c hc n hn => hlate (h.window x hx c hc n hn),
    fun pt hp => ?_⟩
  have hcarries := h.holder pt hp
  cases pt with
  | submit req c => exact fun n hn => hlate (hcarries n hn)
  | handle j status len retire =>
      cases status with
      | timedOut =>
          exact fun x hx => ⟨(hcarries x hx).1, fun n hn => hlate ((hcarries x hx).2 n hn)⟩
      | _ => exact hcarries
  | _ => exact hcarries

end Stream

/-! ## The order of the line -/

def Entry.Held (e : Entry) (x : Transfer) : Prop :=
  x.hold = .libusb ∧ x.serial = some e.serial ∧ x.data = e.data ∧ x.length = e.length

/-- The entry is the buffer `n`. -/
def Entry.carries (n : ℕ) (e : Entry) : Bool := e.serial = n

theorem head_in_turn {n k : ℕ} (total : ℕ) (rest late : List ℕ)
    (horder : (n :: rest).Pairwise fun a b => b ∉ late → a < b)
    (hcover : ∀ m < total, m < k ∨ m ∈ n :: rest ∨ m ∈ late) (hn : n < total) (hk : k ≤ n)
    (hturn : ∀ m ∈ late, m < n → m < k) : n = k := by
  rcases Nat.lt_or_ge k n with hlt | hge
  · rcases hcover k (hlt.trans hn) with h | h | h
    · exact absurd h (lt_irrefl k)
    · rcases List.mem_cons.mp h with h | h
      · exact h.symm
      · by_cases hl : k ∈ late
        · exact absurd (hturn k hl hlt) (lt_irrefl k)
        · exact absurd ((List.pairwise_cons.mp horder).1 k h hl) (not_lt.mpr hlt.le)
    · exact absurd (hturn k h hlt) (lt_irrefl k)
  · exact le_antisymm hge hk

namespace Line

variable {L : Line}

def outstanding (L : Line) : List Entry := L.queue ++ (L.taken ++ L.expired)

/-- How often the buffer `n` is somewhere between libusb and the device. -/
def copies (L : Line) (n : ℕ) : ℕ :=
  L.queue.countP (Entry.carries n) + L.expired.countP (Entry.carries n) +
    L.sent.countP (Entry.carries n) + L.stream.retries n

structure Ordered (L : Line) : Prop where
  stream : L.stream.Orderly L.late
  turn : L.sent.map Entry.serial = List.range L.sent.length
  known : ∀ e, e ∈ L.queue ∨ e ∈ L.expired ∨ e ∈ L.sent →
    L.stream.pool.firsts[e.serial]? = some (e.data, e.length)
  held : ∀ e ∈ L.outstanding, ∃ x, L.stream.pool.all[e.slot]? = some x ∧ e.Held x
  slots : (L.outstanding.map Entry.slot).Nodup
  once : ∀ n, L.copies n ≤ 1
  covered : ∀ n < L.stream.pool.firsts.length,
    n ∈ L.sent.map Entry.serial ∨ n ∈ L.queue.map Entry.serial ∨ n ∈ L.late
  order : L.queue.Pairwise fun a b => b.serial ∉ L.late → a.serial < b.serial
  expired : ∀ e ∈ L.expired, e.serial ∈ L.late

theorem Ordered.delivers (h : L.Ordered) : L.Delivers := by
  have hbuffers : L.sent.map (fun e => (e.data, e.length)) <+: L.stream.pool.firsts := by
    rw [List.prefix_iff_getElem?]
    intro i hi
    rw [List.length_map] at hi
    have hserial : L.sent[i].serial = i := by
      have := List.getElem_of_eq h.turn (i := i) (by rwa [List.length_map])
      rwa [List.getElem_map, List.getElem_range] at this
    have hknown := h.known L.sent[i] (.inr (.inr (List.getElem_mem hi)))
    rw [hserial] at hknown
    rw [hknown, List.getElem_map]
  refine ⟨hbuffers, ?_⟩
  have hmap : L.sent.flatMap (fun e => bytes (e.data, e.length)) =
      (L.sent.map fun e => (e.data, e.length)).flatMap bytes := by
    rw [List.flatMap_map]
  rw [hmap]
  obtain ⟨rest, hrest⟩ := hbuffers
  exact ⟨rest.flatMap bytes, by rw [← hrest, List.flatMap_append]⟩

theorem Ordered.forwards (h : L.Ordered) {t : Stream} (ht : L.stream.Forwards t L.late) :
    { L with stream := t }.Ordered := by
  refine ⟨ht.orderly, h.turn, ?_, ?_, h.slots, fun n => ?_, ?_, h.order, h.expired⟩
  · intro e he
    show t.pool.firsts[e.serial]? = _
    rw [ht.firsts]
    exact h.known e he
  · intro e he
    obtain ⟨x, hx, hlib, hserial, hdata, hlength⟩ := h.held e he
    obtain ⟨y, hy, hylib, hys, hyd, hyl⟩ := ht.libusb e.slot x hx hlib
    exact ⟨y, hy, hylib, hys.trans hserial, hyd.trans hdata, hyl.trans hlength⟩
  · have hle := ht.retries n
    have hone := h.once n
    unfold copies at hone ⊢
    exact (Nat.add_le_add_left hle _).trans hone
  · show ∀ n < t.pool.firsts.length, _
    rw [ht.firsts]
    exact h.covered

theorem Ordered.copies_eq_zero (h : L.Ordered) {n : ℕ} (hn : L.stream.pool.firsts[n]? = none) :
    L.copies n = 0 := by
  have hnone : ∀ {l : List Entry},
      (∀ e ∈ l, L.stream.pool.firsts[e.serial]? = some (e.data, e.length)) →
      l.countP (Entry.carries n) = 0 := by
    intro l hl
    rw [List.countP_eq_zero]
    intro e he hc
    have hserial : e.serial = n := of_decide_eq_true hc
    exact nomatch (hserial ▸ hn).symm.trans (hl e he)
  unfold copies
  rw [hnone fun e he => h.known e (.inl he), hnone fun e he => h.known e (.inr (.inl he)),
    hnone fun e he => h.known e (.inr (.inr he)), h.stream.retries_eq_zero hn]

theorem Ordered.accept (h : L.Ordered) {j : ℕ} {x : Transfer} {caller : Caller}
    (hx : L.stream.pool.all[j]? = some x) (hw : x.hold = .window caller)
    (hturn : L.InTurn (.stream (.accept j))) :
    Ordered { L.step (.accept j) with
      queue := L.queue ++
        [⟨j, x.serial.getD L.stream.pool.firsts.length, x.data, x.length⟩] } := by
  have hstep : L.stream.next (.accept j) = L.stream.accepted j caller := by
    dsimp only [Stream.next]
    rw [hx, Option.map_some, hw]
  have hserial := L.stream.accept_serial h.stream hx hw (hturn x hx)
  have hone : ∀ y, L.stream.pool.all[j]? = some y → x = y := fun y hy =>
    Option.some.inj (hx.symm.trans hy)
  -- the slot was in its window, so it is not among those that libusb has
  have hslot : ∀ e ∈ L.outstanding, e.slot ≠ j := by
    rintro e he rfl
    obtain ⟨y, hy, hlib, -⟩ := h.held e he
    exact Hold.noConfusion (hw.symm.trans (hone y hy ▸ hlib))
  unfold step
  rw [hstep]
  generalize he : (⟨j, x.serial.getD L.stream.pool.firsts.length, x.data, x.length⟩ : Entry) = e
  have heslot : e.slot = j := by rw [← he]
  have heserial : e.serial = x.serial.getD L.stream.pool.firsts.length := by rw [← he]
  have hperm : ((L.queue ++ [e]) ++ (L.taken ++ L.expired)).Perm (e :: L.outstanding) := by
    unfold outstanding
    rw [List.append_assoc]
    exact List.perm_middle
  refine ⟨L.stream.accepted_orderly h.stream hx hw, h.turn, fun f hf => ?_, fun f hf => ?_, ?_,
    fun n => ?_, fun n hn => ?_, ?_, h.expired⟩
  · by_cases hfe : f = e
    · rw [hfe, ← he]
      exact hserial
    · refine Stream.firsts_accept L.stream.pool j _ _ (h.known f ?_)
      rcases hf with hf | hf
      · rcases List.mem_append.mp hf with hf | hf
        · exact .inl hf
        · exact absurd (List.mem_singleton.mp hf) hfe
      · exact .inr hf
  · show ∃ y, (L.stream.pool.all.modify j _)[f.slot]? = some y ∧ _
    rw [List.getElem?_modify]
    rcases List.mem_cons.mp (hperm.mem_iff.mp hf) with rfl | hf
    · refine ⟨x.accept L.stream.pool.firsts.length, by simp [heslot, hx], rfl, ?_, ?_, ?_⟩
      · rw [heserial]
        rfl
      · rw [← he]
        rfl
      · rw [← he]
        rfl
    · obtain ⟨y, hy, hheld⟩ := h.held f hf
      exact ⟨y, by simp [hy, (hslot f hf).symm], hheld⟩
  · refine (hperm.map Entry.slot).nodup_iff.mpr (List.nodup_cons.mpr ⟨fun hmem => ?_, h.slots⟩)
    obtain ⟨f, hf, hfe⟩ := List.mem_map.mp hmem
    exact hslot f hf (hfe.trans heslot)
  · have hone := h.once n
    have hretries := L.stream.accepted_retries h.stream hx hw n
    unfold copies at hone
    show (L.queue ++ [e]).countP _ + L.expired.countP _ + L.sent.countP _ +
      (L.stream.accepted j caller).retries n ≤ 1
    rw [List.countP_append, List.countP_singleton]
    cases hs : x.serial with
    | some m =>
        have hcarries : Entry.carries n e = decide (x.serial = some n) := by
          simp [Entry.carries, heserial, hs]
        rw [hcarries]
        cases hd : decide (x.serial = some n) <;> simp [hd] at hretries ⊢ <;> omega
    | none =>
        by_cases hn : L.stream.pool.firsts.length = n
        · have hzero := h.copies_eq_zero (n := n) (List.getElem?_eq_none_iff.mpr hn.le)
          unfold copies at hzero
          split_ifs <;> omega
        · have hcarries : Entry.carries n e = false := by
            simp [Entry.carries, heserial, hs, hn]
          rw [hcarries]
          simp only [Bool.false_eq_true, if_false]
          omega
  · by_cases hlt : n < L.stream.pool.firsts.length
    · rcases h.covered n hlt with hs | hs | hs
      · exact .inl hs
      · exact .inr (.inl (by simp [hs]))
      · exact .inr (.inr hs)
    · have hnew : n = L.stream.pool.firsts.length ∧ x.serial = none := by
        have hlen : n < (L.stream.pool.firsts ++ _).length := hn
        rw [hx] at hlen
        cases hs : x.serial with
        | some m =>
            rw [Option.filter_some_neg (by simp [hs])] at hlen
            exact absurd (by simpa using hlen) hlt
        | none =>
            rw [Option.filter_some_pos (by simp [hs]), List.length_append] at hlen
            exact ⟨le_antisymm (Nat.lt_succ_iff.mp hlen) (not_lt.mp hlt), rfl⟩
      have hmem : n ∈ (L.queue ++ [e]).map Entry.serial := by
        rw [hnew.1, List.map_append]
        exact List.mem_append_right _ (by simp [heserial, hnew.2])
      exact .inr (.inl hmem)
  · refine List.pairwise_append.mpr ⟨h.order, List.pairwise_singleton _ _, fun a ha b hb hl => ?_⟩
    obtain rfl := List.mem_singleton.mp hb
    cases hs : x.serial with
    | some m =>
        rw [heserial, hs, Option.getD_some] at hl
        exact absurd (h.stream.window x (List.mem_of_getElem? hx) caller hw m hs).2.2 hl
    | none =>
        obtain ⟨hlt, -⟩ := List.getElem?_eq_some_iff.mp (h.known a (.inl ha))
        rw [heserial, hs]
        exact hlt

variable {e : Entry} {i : ℕ}

theorem Ordered.take (h : L.Ordered) {rest : List Entry} (hq : L.queue = e :: rest)
    (hturn : L.InTurn .take) :
    Ordered { L with
      queue := rest
      taken := e :: L.taken
      sent := L.sent ++ [e] } := by
  have hknown := h.known e (.inl (by simp [hq]))
  have hsent : ∀ {n}, n ∈ L.sent.map Entry.serial → n < L.sent.length := by
    intro n hn
    rw [h.turn] at hn
    exact List.mem_range.mp hn
  have hnew : L.sent.length ≤ e.serial := by
    by_contra hlt
    have hmem : e.serial ∈ L.sent.map Entry.serial := by
      rw [h.turn]
      exact List.mem_range.mpr (not_le.mp hlt)
    obtain ⟨f, hf, hfe⟩ := List.mem_map.mp hmem
    have hone := h.once e.serial
    have hcount : 0 < L.sent.countP (Entry.carries e.serial) :=
      List.countP_pos_iff.mpr ⟨f, hf, decide_eq_true hfe⟩
    have hhead : 0 < L.queue.countP (Entry.carries e.serial) :=
      List.countP_pos_iff.mpr ⟨e, by simp [hq], decide_eq_true rfl⟩
    unfold copies at hone
    omega
  have hserial : e.serial = L.sent.length := by
    have horder := h.order
    rw [hq] at horder
    refine head_in_turn L.stream.pool.firsts.length (rest.map Entry.serial) L.late ?_ ?_ ?_ hnew ?_
    · exact (List.pairwise_map (f := Entry.serial) (l := e :: rest)).mpr horder
    · intro m hm
      rcases h.covered m hm with hs | hs | hs
      · exact .inl (hsent hs)
      · rw [hq] at hs
        exact .inr (.inl hs)
      · exact .inr (.inr hs)
    · obtain ⟨hlt, -⟩ := List.getElem?_eq_some_iff.mp hknown
      exact hlt
    · intro m hm hlt
      exact hsent (hturn e (by simp [hq]) m hm hlt)
  have hperm : (rest ++ ((e :: L.taken) ++ L.expired)).Perm L.outstanding := by
    unfold outstanding
    rw [hq]
    exact List.perm_middle
  refine ⟨h.stream, ?_, fun f hf => ?_, fun f hf => ?_, ?_, fun n => ?_, fun n hn => ?_, ?_,
    h.expired⟩
  · show (L.sent ++ [e]).map Entry.serial = List.range (L.sent ++ [e]).length
    rw [List.map_append, h.turn, List.length_append, List.length_singleton, List.range_succ,
      List.map_singleton, hserial]
  · rcases hf with hf | hf | hf
    · exact h.known f (.inl (by rw [hq]; exact List.mem_cons_of_mem _ hf))
    · exact h.known f (.inr (.inl hf))
    · rcases List.mem_append.mp hf with hf | hf
      · exact h.known f (.inr (.inr hf))
      · obtain rfl := List.mem_singleton.mp hf
        exact hknown
  · exact h.held f (hperm.mem_iff.mp hf)
  · exact (hperm.map Entry.slot).nodup_iff.mpr h.slots
  · have hone := h.once n
    unfold copies at hone
    rw [hq, List.countP_cons] at hone
    show rest.countP _ + L.expired.countP _ + (L.sent ++ [e]).countP _ + L.stream.retries n ≤ 1
    rw [List.countP_append, List.countP_singleton]
    omega
  · rcases h.covered n hn with hs | hs | hs
    · exact .inl (by simp [hs])
    · rw [hq] at hs
      rcases List.mem_cons.mp hs with hs | hs
      · exact .inl (by simp [hs])
      · exact .inr (.inl hs)
    · exact .inr (.inr hs)
  · have horder := h.order
    rw [hq] at horder
    exact (List.pairwise_cons.mp horder).2

theorem perm_eraseIdx {l : List Entry} (h : l[i]? = some e) :
    (e :: l.eraseIdx i).Perm l := by
  obtain ⟨hi, rfl⟩ := List.getElem?_eq_some_iff.mp h
  exact List.getElem_cons_eraseIdx_perm hi

theorem Ordered.expire (h : L.Ordered) (he : L.queue[i]? = some e) :
    Ordered { L with
      queue := L.queue.eraseIdx i
      expired := e :: L.expired
      late := e.serial :: L.late } := by
  have hmem : e ∈ L.queue := List.mem_of_getElem? he
  have hqueue : ∀ {f}, f ∈ L.queue.eraseIdx i → f ∈ L.queue := List.mem_of_mem_eraseIdx
  have hlate : ∀ n ∈ L.late, n ∈ e.serial :: L.late := fun n => List.mem_cons_of_mem _
  have hperm : (L.queue.eraseIdx i ++ (L.taken ++ e :: L.expired)).Perm L.outstanding := by
    have hmove : (L.queue.eraseIdx i ++ (L.taken ++ e :: L.expired)).Perm
        (e :: L.queue.eraseIdx i ++ (L.taken ++ L.expired)) := by
      rw [← List.append_assoc, ← List.append_assoc]
      exact List.perm_middle
    exact hmove.trans ((perm_eraseIdx he).append_right _)
  refine ⟨h.stream.mono hlate, h.turn, fun f hf => ?_, fun f hf => h.held f (hperm.mem_iff.mp hf),
    (hperm.map Entry.slot).nodup_iff.mpr h.slots, fun n => ?_, fun n hn => ?_, ?_, fun f hf => ?_⟩
  · rcases hf with hf | hf | hf
    · exact h.known f (.inl (hqueue hf))
    · rcases List.mem_cons.mp hf with rfl | hf
      · exact h.known f (.inl hmem)
      · exact h.known f (.inr (.inl hf))
    · exact h.known f (.inr (.inr hf))
  · have hone := h.once n
    have hcount := Lib.countP_eraseIdx (Entry.carries n) he
    unfold copies at hone
    show (L.queue.eraseIdx i).countP _ + (e :: L.expired).countP _ + L.sent.countP _ +
      L.stream.retries n ≤ 1
    rw [List.countP_cons]
    cases hc : Entry.carries n e <;> simp [hc] at hcount ⊢ <;> omega
  · rcases h.covered n hn with hs | hs | hs
    · exact .inl hs
    · obtain ⟨f, hf, hfn⟩ := List.mem_map.mp hs
      rcases List.mem_cons.mp ((perm_eraseIdx he).mem_iff.mpr hf) with rfl | hf
      · exact .inr (.inr (by simp [hfn]))
      · exact .inr (.inl (List.mem_map.mpr ⟨f, hf, hfn⟩))
    · exact .inr (.inr (hlate n hs))
  · exact (h.order.sublist (List.eraseIdx_sublist ..)).imp fun hab hl =>
      hab fun hb => hl (hlate _ hb)
  · rcases List.mem_cons.mp hf with rfl | hf
    · exact List.mem_cons_self
    · exact hlate _ (h.expired f hf)

theorem held_complete {j : ℕ} {l : List Entry} {p : Transfers}
    (h : ∀ e ∈ l, ∃ x, p.all[e.slot]? = some x ∧ e.Held x) (hj : ∀ e ∈ l, e.slot ≠ j) :
    ∀ e ∈ l, ∃ x, (p.complete j).all[e.slot]? = some x ∧ e.Held x := by
  intro e he
  obtain ⟨x, hx, hheld⟩ := h e he
  refine ⟨x, ?_, hheld⟩
  show (p.all.modify j _)[e.slot]? = _
  rw [List.getElem?_modify, hx]
  simp [(hj e he).symm]

theorem Ordered.report (h : L.Ordered) (status : CompletionStatus) {len : ℤ}
    {taken expired : List Entry} (hh : L.stream.holder = none)
    (hperm : (e :: (L.queue ++ (taken ++ expired))).Perm L.outstanding)
    (hexpired : ∀ f ∈ expired, f ∈ L.expired)
    (hlate : status = .timedOut → e ∈ L.expired)
    (hcount : ∀ n, expired.countP (Entry.carries n) +
      (decide (status = .timedOut ∧ e.serial = n)).toNat ≤ L.expired.countP (Entry.carries n)) :
    Ordered { L.step (.complete e.slot status len) with
      taken := taken
      expired := expired } := by
  have hmem : e ∈ L.outstanding := hperm.mem_iff.mp List.mem_cons_self
  obtain ⟨x, hx, hlib, hserial, hdata, hlength⟩ := h.held e hmem
  have hstep : L.stream.next (.complete e.slot status len) =
      L.stream.completion e.slot status len := by
    dsimp only [Stream.next]
    rw [hh, hx, Option.map_some, hlib]
  have hnodup := (hperm.map Entry.slot).nodup_iff.mpr h.slots
  rw [List.map_cons, List.nodup_cons] at hnodup
  have hslot : ∀ f ∈ L.queue ++ (taken ++ expired), f.slot ≠ e.slot := fun f hf hfe =>
    hnodup.1 (List.mem_map.mpr ⟨f, hf, hfe⟩)
  unfold step
  rw [hstep]
  refine ⟨L.stream.completion_orderly h.stream status len fun hs y n hy hn => ?_, h.turn,
    fun f hf => ?_, held_complete (fun f hf => h.held f (hperm.mem_iff.mp
      (List.mem_cons_of_mem _ hf))) hslot, hnodup.2, fun n => ?_, h.covered, h.order,
    fun f hf => h.expired f (hexpired f hf)⟩
  · obtain rfl := Option.some.inj (hx.symm.trans hy)
    obtain rfl := Option.some.inj (hserial.symm.trans hn)
    rw [hdata]
    exact ⟨⟨_, h.known e (.inr (.inl (hlate hs)))⟩, rfl, h.expired e (hlate hs)⟩
  · rcases hf with hf | hf | hf
    · exact h.known f (.inl hf)
    · exact h.known f (.inr (.inl (hexpired f hf)))
    · exact h.known f (.inr (.inr hf))
  · have hone := h.once n
    have hle := hcount n
    have hretries := L.stream.completion_retries status len hh hx hlib n
    unfold copies at hone
    show L.queue.countP _ + expired.countP _ + L.sent.countP _ +
      (L.stream.completion e.slot status len).retries n ≤ 1
    rw [hretries, hserial]
    cases status <;> simp at hle ⊢ <;> omega

theorem Ordered.completed (h : L.Ordered) (hh : L.stream.holder = none)
    (he : L.taken[i]? = some e) :
    Ordered { L.step (.complete e.slot .completed e.length) with taken := L.taken.eraseIdx i } := by
  refine h.report .completed hh ?_ (fun _ hf => hf) (fun hs => nomatch hs) fun n => ?_
  · refine List.perm_middle.symm.trans (List.Perm.append_left _ ?_)
    exact (perm_eraseIdx he).append_right _
  · exact le_rfl

theorem Ordered.timedOut (h : L.Ordered) (hh : L.stream.holder = none)
    (he : L.expired[i]? = some e) :
    Ordered { L.step (.complete e.slot .timedOut 0) with expired := L.expired.eraseIdx i } := by
  refine h.report .timedOut hh ?_ (fun _ hf => List.mem_of_mem_eraseIdx hf)
    (fun _ => List.mem_of_getElem? he) fun n => ?_
  · have hmove : (L.queue ++ (L.taken ++ e :: L.expired.eraseIdx i)).Perm
        (e :: (L.queue ++ (L.taken ++ L.expired.eraseIdx i))) := by
      rw [← List.append_assoc, ← List.append_assoc]
      exact List.perm_middle
    exact hmove.symm.trans (((perm_eraseIdx he).append_left _).append_left _)
  · have hcount := Lib.countP_eraseIdx (Entry.carries n) he
    simp only [true_and]
    exact hcount.le

theorem Ordered.next (h : L.Ordered) (l : LineLabel) (hl : L.InTurn l) : (L.next l).Ordered := by
  cases l with
  | stream l =>
      cases l with
      | accept j =>
          dsimp only [Line.next]
          cases hx : L.stream.pool.all[j]? with
          | none => exact h
          | some x =>
              cases hw : x.hold with
              | window caller =>
                  dsimp only
                  rw [hw]
                  exact h.accept hx hw hl
              | free =>
                  dsimp only
                  rw [hw]
                  exact h
              | libusb =>
                  dsimp only
                  rw [hw]
                  exact h
      | complete j status len => exact h
      | _ =>
          exact h.forwards (Stream.next_forwards h.stream _ (fun _ hc => nomatch hc)
            fun _ _ _ hc => nomatch hc)
  | take =>
      dsimp only [Line.next]
      split
      · rename_i e rest hq
        exact h.take hq hl
      · exact h
  | expire i =>
      dsimp only [Line.next]
      cases he : L.queue[i]? with
      | none => exact h
      | some e => exact h.expire he
  | completed i =>
      dsimp only [Line.next]
      split
      · rename_i e hh he
        exact h.completed hh he
      · exact h
  | timedOut i =>
      dsimp only [Line.next]
      split
      · rename_i e hh he
        exact h.timedOut hh he
      · exact h

end Line

/-! ## Runs -/

/-- Nothing was submitted yet, and no thread has a buffer from before. -/
structure Empty (L : Line) : Prop where
  queue : L.queue = []
  taken : L.taken = []
  expired : L.expired = []
  sent : L.sent = []
  late : L.late = []
  firsts : L.stream.pool.firsts = []
  free : ∀ x ∈ L.stream.pool.all, x.hold = .free
  holder : ∀ pt, L.stream.holder = some pt → pt.Fresh
  waiting : ∀ pt ∈ L.stream.waiting, pt.Fresh

theorem Empty.ordered {L : Line} (h : Empty L) : L.Ordered := by
  have hstream : L.stream.Orderly L.late := by
    refine ⟨fun x hx _ => h.free x hx, h.waiting, fun x hx c hc => ?_, fun pt hp =>
      .of_fresh (h.holder pt hp)⟩
    exact Hold.noConfusion ((h.free x hx).symm.trans hc)
  refine ⟨hstream, ?_, ?_, ?_, ?_, fun n => ?_, ?_, ?_, ?_⟩
  · rw [h.sent]
    rfl
  · simp [h.queue, h.expired, h.sent]
  · simp [Line.outstanding, h.queue, h.taken, h.expired]
  · simp [Line.outstanding, h.queue, h.taken, h.expired]
  · have hretries := hstream.retries_eq_zero (n := n) (by simp [h.firsts])
    unfold Line.copies
    rw [h.queue, h.expired, h.sent, hretries]
    exact Nat.zero_le 1
  · simp [h.firsts]
  · rw [h.queue]
    exact .nil
  · simp [h.expired]

/-- In every run in which the device keeps the turn and what is submitted again had
the length of the stream before, it accepts a prefix of the buffers as they were first
submitted. -/
theorem tx_timeouts_keep_order (L : Line) (hL : Empty L) (ls : List LineLabel)
    (hl : Along Line.next (fun L l _ => L.InTurn l) L ls) :
    Along Line.next (fun _ _ L => L.Delivers) L ls :=
  Lib.along_of_invariant (I := Line.Ordered)
    (fun _ l h hq => ⟨(h.next l hq).delivers, h.next l hq⟩) ls L hL.ordered hl

/-- A line of two unused transfers at the start of `lusb_stream`. -/
def idleLine (packetMeta : Bool) : Line :=
  { stream := { opening .tx with packetMeta := packetMeta }
    queue := []
    taken := []
    expired := []
    sent := []
    late := [] }

theorem empty_idleLine (packetMeta : Bool) : Empty (idleLine packetMeta) := by
  refine ⟨rfl, rfl, rfl, rfl, rfl, rfl, fun x hx => ?_, fun pt hp => ?_, fun pt hp => nomatch hp⟩
  · obtain rfl : x = unused := by simpa [idleLine, opening] using hx
    rfl
  · exact Option.some.inj hp ▸ trivial

/-- The application offers a buffer; with packet metadata it is two bytes of it. -/
def offer (data : List (BitVec 8)) : LineLabel :=
  .stream (.run { smooth with
    next := .buffer data
    packetLength := some 2 })

/-- The initial submission of a buffer in the transfer `j`, to its acceptance. -/
def submission (j : ℕ) (data : List (BitVec 8)) : List LineLabel :=
  [offer data, .stream (.lock 0), offer data, offer data, .stream (.accept j), .stream (.lock 0),
    offer data]

/-- The rest of the initial loop without a buffer, then the first queued transfer
times out, is submitted again in the transfer `j`, and the device takes one. -/
def retried (j : ℕ) : List LineLabel :=
  List.replicate 3 (.stream (.run { smooth with next := .noData })) ++
    [.expire 0, .timedOut 0, offer [], offer [], .stream (.accept j), .take]

/-- The initial loop ends, and two queued buffers time out before the device takes
either. -/
def bothRetried : List LineLabel :=
  List.replicate 3 (.stream (.run { smooth with next := .noData })) ++
    [.expire 0, .expire 0, .timedOut 1, offer [], offer [], .stream (.accept 0), .timedOut 0,
      offer [], offer [], .stream (.accept 1), .take, .take]

/-- They are submitted again in their order. -/
theorem tx_timeouts_keep_order_retried :
    let run := submission 0 [1, 2, 3, 4] ++ submission 1 [5, 6, 7, 8] ++ bothRetried
    Along Line.next (fun _ _ L => L.Delivers) (idleLine false) run ∧
      (run.foldl Line.next (idleLine false)).sent.map Entry.data =
        [[1, 2, 3, 4], [5, 6, 7, 8]] := by
  refine ⟨tx_timeouts_keep_order (idleLine false) (empty_idleLine false) _
    ⟨trivial, trivial, trivial, trivial, ?_, trivial, trivial, trivial, trivial, trivial,
      trivial, ?_, trivial, trivial, trivial, trivial, trivial, trivial, trivial, trivial,
      trivial, trivial, ?_, trivial, trivial, trivial, ?_, ?_, ?_, trivial⟩, by decide⟩
  all_goals
    show ∀ x ∈ _, _
    decide

/-- Behind a second buffer the retry of the first comes too late, and the retry of a
packet has the length of the stream. -/
theorem tx_timeouts_keep_order_not_always :
    let behind : List LineLabel :=
      submission 0 [1, 2, 3, 4] ++ submission 1 [5, 6, 7, 8] ++ retried 0
    let packet : List LineLabel := submission 0 [1, 2, 3, 4] ++ retried 1
    (behind.foldl Line.next (idleLine false)).sent.map Entry.data = [[5, 6, 7, 8]] ∧
      (packet.foldl Line.next (idleLine true)).sent.map Entry.length = [4] ∧
      ¬ ∀ L, Empty L → ∀ ls, Along Line.next (fun _ _ L => L.Delivers) L ls := by
  intro behind packet
  refine ⟨by decide, by decide, fun h => ?_⟩
  obtain ⟨-, -, -, -, -, -, -, -, -, -, -, -, -, -, -, -, -, -, -, -, -, -, hlast, -⟩ :=
    h (idleLine false) (empty_idleLine false) behind
  exact absurd hlast.buffers (by decide)

end BladeRF.Usb
