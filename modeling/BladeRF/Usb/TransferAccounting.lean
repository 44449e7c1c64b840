/-
# `Usb.TransferAccounting` — the transfer table and libusb agree

The status of a transfer, the count of available ones and the lease flags are
written on every exit of the backend.  They agree with who has the transfers as
long as no cancel pass meets a submission in its window: there libusb answers
not found for a transfer it is about to take, which is then marked as if its
cancel were on its way.
-/
import BladeRF.Lib.Steps
import BladeRF.Usb.Passes

namespace BladeRF.Usb

open Transfer Transfers

open Lib (Along countP_modify forall_mem_modify)

/-! ## A transfer -/

structure Transfer.Ok (t : Transfer) : Prop where
  free : t.status = .avail ↔ t.hold = .free
  lease : t.leaseActive → t.status ≠ .avail
  pending : t.status = .cancelPending → t.hold = .libusb ∧ t.cancelled

/-- A callback keeps a lease while its submission is in the window. -/
def Transfer.windowKeeps (t : Transfer) : Bool :=
  match t.hold with
  | .window caller => caller.retires
  | _ => false

namespace Transfer

variable {t : Transfer}

theorem Ok.claim (h : t.Ok) (havail : t.status = .avail) (req : Request) (caller : Caller) :
    (t.claim req caller).Ok := by
  have hlease : t.leaseActive ≠ true := fun hl => h.lease hl havail
  exact ⟨by simp [Transfer.claim], fun hl => absurd hl hlease, by simp [Transfer.claim]⟩

theorem ok_free : t.free.Ok := ⟨by simp [free], by simp [free], by simp [free]⟩

theorem Ok.accept {caller : Caller} (h : t.Ok) (hw : t.hold = .window caller) (n : ℕ) :
    (t.accept n).Ok := by
  have havail : t.status ≠ .avail := by
    rw [Ne, h.free, hw]
    exact Hold.noConfusion
  have hpending : t.status ≠ .cancelPending := by
    intro hp
    exact Hold.noConfusion (hw.symm.trans (h.pending hp).1)
  exact ⟨by simp [Transfer.accept, havail], h.lease, fun hp => absurd hp hpending⟩

theorem Ok.cancel (h : t.Ok) (hw : ∀ caller, t.hold ≠ .window caller) (refused : Bool) :
    (t.cancel refused).Ok := by
  unfold Transfer.cancel
  split_ifs with hflight hrefused
  · refine ⟨?_, fun _ => by simp, by simp⟩
    have := h.free
    rw [hflight] at this
    simpa using this
  · have hlib : t.hold = .libusb := by
      cases hh : t.hold with
      | free => exact absurd (h.free.mpr hh) (by simp [hflight])
      | window caller => exact absurd hh (hw caller)
      | libusb => rfl
    exact ⟨by simp [hlib], fun _ => by simp, fun _ => ⟨hlib, by simp [hlib]⟩⟩
  · exact h

@[simp] theorem windowKeeps_cancel (refused : Bool) :
    (t.cancel refused).windowKeeps = t.windowKeeps := by
  unfold windowKeeps
  rw [hold_cancel]

end Transfer

/-! ## The pool -/

namespace Transfers

structure Ok (p : Transfers) : Prop where
  counted : p.numAvail = p.all.countP Transfer.isAvail
  each : ∀ t ∈ p.all, t.Ok
  asserted : p.asserted = false

/-- The leases of the transfers: those flagged and those that a callback in its
window keeps. -/
def flagged (p : Transfers) : ℕ :=
  p.all.countP leaseActive + p.all.countP windowKeeps

variable {p : Transfers} {j : ℕ} {t : Transfer}

section

variable (h : p.Ok)

include h

section

variable (ht : p.all[j]? = some t)

include ht

theorem Ok.at : t.Ok := h.each t (List.mem_of_getElem? ht)

theorem Ok.isAvail_eq (hh : t.hold ≠ .free) :
    t.isAvail = false := by
  simp only [Transfer.isAvail, decide_eq_false_iff_not]
  exact fun havail => hh ((h.at ht).free.mp havail)

theorem Ok.claim (havail : t.status = .avail)
    (req : Request) (caller : Caller) : (p.claim j req caller).Ok := by
  have hone : t.isAvail = true := by simpa [Transfer.isAvail] using havail
  have hcount := countP_modify Transfer.isAvail (·.claim req caller) ht
  rw [hone, ← h.counted, show (t.claim req caller).isAvail = false from rfl] at hcount
  simp only [Bool.toNat_true, Bool.toNat_false] at hcount
  refine ⟨?_, ?_, ?_⟩
  · show p.numAvail - 1 = (p.all.modify j (·.claim req caller)).countP Transfer.isAvail
    omega
  · refine forall_mem_modify h.each fun x hx => ?_
    obtain rfl : t = x := Option.some.inj (ht.symm.trans hx)
    exact (h.at ht).claim havail req caller
  · show (p.asserted || decide (p.numAvail = 0)) = false
    rw [h.asserted, Bool.false_or, decide_eq_false_iff_not]
    omega

theorem Ok.lease (hh : t.hold ≠ .free) :
    (p.lease j).Ok := by
  have hcount := countP_modify Transfer.isAvail Transfer.lease ht
  rw [show t.lease.isAvail = t.isAvail from rfl] at hcount
  refine ⟨?_, ?_, h.asserted⟩
  · show p.numAvail = (p.all.modify j Transfer.lease).countP Transfer.isAvail
    rw [h.counted]
    omega
  · refine forall_mem_modify h.each fun x hx => ?_
    obtain rfl : t = x := Option.some.inj (ht.symm.trans hx)
    have hok := h.at ht
    exact ⟨hok.free, fun _ havail => hh (hok.free.mp havail), hok.pending⟩

theorem Ok.free_each (hh : t.hold ≠ .free) :
    p.numAvail + 1 = (p.all.modify j free).countP Transfer.isAvail ∧
      ∀ x ∈ p.all.modify j free, x.Ok := by
  have hcount := countP_modify Transfer.isAvail free ht
  rw [h.isAvail_eq ht hh, ← h.counted, show t.free.isAvail = true from rfl] at hcount
  simp only [Bool.toNat_true, Bool.toNat_false] at hcount
  exact ⟨by omega, forall_mem_modify h.each fun _ _ => ok_free⟩

theorem Ok.unclaim (hh : t.hold ≠ .free) :
    (p.unclaim j).Ok :=
  ⟨(h.free_each ht hh).1, (h.free_each ht hh).2, h.asserted⟩

theorem Ok.reject {caller : Caller}
    (hw : t.hold = .window caller) : (p.reject j).Ok := by
  have hh : t.hold ≠ .free := by rw [hw]; exact Hold.noConfusion
  refine ⟨(h.free_each ht hh).1, (h.free_each ht hh).2, ?_⟩
  show (p.asserted || (p.all[j]?).any fun t => t.status ≠ .inFlight) = false
  have hstatus : t.status = .inFlight := by
    cases hs : t.status with
    | avail => exact absurd ((h.at ht).free.mp hs) hh
    | inFlight => rfl
    | cancelPending => exact Hold.noConfusion (hw.symm.trans ((h.at ht).pending hs).1)
  rw [h.asserted, ht]
  simp [hstatus]

theorem Ok.complete (hlib : t.hold = .libusb) :
    (p.complete j).Ok := by
  have hh : t.hold ≠ .free := by rw [hlib]; exact Hold.noConfusion
  refine ⟨(h.free_each ht hh).1, (h.free_each ht hh).2, ?_⟩
  show (p.asserted || (p.all[j]?).any fun t => t.status = .avail) = false
  have havail : t.status ≠ .avail := fun hs => hh ((h.at ht).free.mp hs)
  rw [h.asserted, ht]
  simp [havail]

theorem Ok.accept {caller : Caller}
    (hw : t.hold = .window caller) : (p.accept j).Ok := by
  have hcount := countP_modify Transfer.isAvail (·.accept p.firsts.length) ht
  rw [show (t.accept p.firsts.length).isAvail = t.isAvail from rfl] at hcount
  refine ⟨?_, ?_, h.asserted⟩
  · show p.numAvail = (p.all.modify j (·.accept p.firsts.length)).countP Transfer.isAvail
    rw [h.counted]
    omega
  · refine forall_mem_modify h.each fun x hx => ?_
    obtain rfl : t = x := Option.some.inj (ht.symm.trans hx)
    exact (h.at ht).accept hw _

end

theorem Ok.cancelAll (hw : ∀ t ∈ p.all, ∀ caller, t.hold ≠ .window caller)
    (refused : ℕ → Bool) : (p.cancelAll refused).Ok := by
  refine ⟨?_, ?_, h.asserted⟩
  · show p.numAvail = (p.all.mapIdx _).countP Transfer.isAvail
    rw [Lib.countP_mapIdx fun _ _ => isAvail_cancel _, h.counted]
  · intro x hx
    obtain ⟨j, hj, rfl⟩ := List.mem_mapIdx.mp hx
    have hmem : p.all[j] ∈ p.all := List.getElem_mem hj
    exact (h.each _ hmem).cancel (hw _ hmem) _

end

/-! ### Transfers of libusb -/

/-- What libusb has in `p` it has in `q`. -/
def Holds (p q : Transfers) : Prop :=
  ∀ (j : ℕ) (x : Transfer), p.all[j]? = some x → x.hold = .libusb →
    ∃ y : Transfer, q.all[j]? = some y ∧ y.hold = .libusb

theorem Holds.refl (p : Transfers) : p.Holds p := fun _ x hx hlib => ⟨x, hx, hlib⟩

theorem Holds.trans {q r : Transfers} (h : p.Holds q) (h' : q.Holds r) : p.Holds r := by
  intro j x hx hlib
  obtain ⟨y, hy, hylib⟩ := h j x hx hlib
  exact h' j y hy hylib

theorem holds_modify {i : ℕ} {f : Transfer → Transfer} {q : Transfers}
    (hq : q.all = p.all.modify i f)
    (hi : ∀ x, p.all[i]? = some x → x.hold ≠ .libusb ∨ (f x).hold = .libusb) : p.Holds q := by
  intro j x hx hlib
  rw [hq, List.getElem?_modify, hx]
  by_cases hij : i = j
  · subst hij
    rcases hi x hx with h | h
    · exact absurd hlib h
    · exact ⟨f x, by simp, h⟩
  · exact ⟨x, by simp [hij], hlib⟩

theorem holds_cancelAll (refused : ℕ → Bool) : p.Holds (p.cancelAll refused) := by
  intro j x hx hlib
  refine ⟨x.cancel (refused j), ?_, by rw [hold_cancel, hlib]⟩
  show (p.all.mapIdx _)[j]? = _
  rw [List.getElem?_mapIdx, hx]
  rfl

/-! ### Leases -/

theorem flagged_claim (h : p.Ok) (ht : p.all[j]? = some t) (havail : t.status = .avail)
    (req : Request) (caller : Caller) :
    (p.claim j req caller).flagged = p.flagged + caller.retires.toNat := by
  have hactive := countP_modify leaseActive (·.claim req caller) ht
  have hwindow := countP_modify windowKeeps (·.claim req caller) ht
  have hnone : t.windowKeeps = false := by
    simp [windowKeeps, (h.at ht).free.mp havail]
  rw [hnone, show (t.claim req caller).windowKeeps = caller.retires from rfl] at hwindow
  rw [show (t.claim req caller).leaseActive = t.leaseActive from rfl] at hactive
  simp only [Bool.toNat_false] at hwindow
  show (p.all.modify j _).countP _ + (p.all.modify j _).countP _ =
    p.all.countP _ + p.all.countP _ + _
  omega

theorem flagged_lease (ht : p.all[j]? = some t) (hl : t.leaseActive = false) :
    (p.lease j).flagged = p.flagged + 1 := by
  have hactive := countP_modify Transfer.leaseActive Transfer.lease ht
  have hwindow := countP_modify Transfer.windowKeeps Transfer.lease ht
  rw [hl, show t.lease.leaseActive = true from rfl] at hactive
  rw [show t.lease.windowKeeps = t.windowKeeps from rfl] at hwindow
  simp only [Bool.toNat_false, Bool.toNat_true] at hactive
  show (p.all.modify j _).countP _ + (p.all.modify j _).countP _ =
    p.all.countP _ + p.all.countP _ + 1
  omega

theorem flagged_free (ht : p.all[j]? = some t) :
    (p.all.modify j free).countP leaseActive +
        (p.all.modify j free).countP windowKeeps +
      t.leaseActive.toNat + t.windowKeeps.toNat = p.flagged := by
  have hactive := countP_modify leaseActive free ht
  have hwindow := countP_modify windowKeeps free ht
  rw [show t.free.leaseActive = false from rfl] at hactive
  rw [show t.free.windowKeeps = false from rfl] at hwindow
  simp only [Bool.toNat_false] at hactive hwindow
  show _ = p.all.countP _ + p.all.countP _
  omega

theorem flagged_accept {caller : Caller} (ht : p.all[j]? = some t)
    (hw : t.hold = .window caller) :
    (p.accept j).flagged + caller.retires.toNat = p.flagged := by
  have hactive := countP_modify leaseActive (·.accept p.firsts.length) ht
  have hwindow := countP_modify windowKeeps (·.accept p.firsts.length) ht
  have hkeeps : t.windowKeeps = caller.retires := by simp [windowKeeps, hw]
  rw [show (t.accept p.firsts.length).leaseActive = t.leaseActive from rfl] at hactive
  rw [hkeeps, show (t.accept p.firsts.length).windowKeeps = false from rfl] at hwindow
  simp only [Bool.toNat_false] at hwindow
  show (p.all.modify j _).countP _ + (p.all.modify j _).countP _ + _ =
    p.all.countP _ + p.all.countP _
  omega

theorem flagged_cancelAll (refused : ℕ → Bool) : (p.cancelAll refused).flagged = p.flagged := by
  show (p.all.mapIdx _).countP _ + (p.all.mapIdx _).countP _ = p.all.countP _ + p.all.countP _
  rw [Lib.countP_mapIdx fun _ _ => leaseActive_cancel _,
    Lib.countP_mapIdx fun _ _ => windowKeeps_cancel _]

end Transfers

/-! ## The invariant -/

namespace Stream

variable {s t u : Stream}

structure Tracked (s : Stream) : Prop where
  pool : s.pool.Ok
  leases : s.pool.leases = s.pool.flagged + s.kept
  rx : s.direction = .rx → ∀ x ∈ s.pool.all, x.leaseActive = false

theorem Tracked.of_passes {pt : Point} (h : s.Tracked) (hp : Passes s t pt)
    (hk : s.kept = pt.keeps.toNat + s.waiting.countP Point.keeps) : t.Tracked := by
  refine ⟨by rw [hp.pool]; exact h.pool, ?_, ?_⟩
  · rw [hp.pool, h.leases, hp.moved.kept, hk]
  · rw [hp.direction, hp.pool]
    exact h.rx

theorem Tracked.all_avail (h : s.Tracked) (hd : s.drained) :
    ∀ x ∈ s.pool.all, x.status = .avail := by
  have hnum : s.pool.numAvail = s.pool.all.length := of_decide_eq_true hd
  rw [h.pool.counted, List.countP_eq_length] at hnum
  intro x hx
  simpa [Transfer.isAvail] using hnum x hx

/-- What the transfers are to satisfy whenever the lock is free. -/
structure Settled (s : Stream) : Prop where
  counted : s.pool.numAvail = s.pool.all.countP Transfer.isAvail
  owned : ∀ x ∈ s.pool.all, x.hold = .libusb → x.status ≠ .avail
  /-- A lease belongs to a transfer that is not available, or to a callback that
  still works for the transfer it completed. -/
  flagged : ∀ x ∈ s.pool.all, x.leaseActive → x.status ≠ .avail
  leases : s.pool.leases = s.pool.all.countP leaseActive +
    (s.pool.all.countP windowKeeps + s.waiting.countP Point.keeps)
  asserted : s.pool.asserted = false
  cancelled : s.state = .shuttingDown →
    ∀ x ∈ s.pool.all, x.status = .cancelPending → x.hold = .libusb ∧ x.cancelled

theorem Tracked.settled (h : s.Tracked) (hh : s.holder = none) : s.Settled := by
  refine ⟨h.pool.counted, ?_, fun x hx => (h.pool.each x hx).lease, ?_, h.pool.asserted,
    fun _ x hx => (h.pool.each x hx).pending⟩
  · intro x hx hlib havail
    exact Hold.noConfusion (((h.pool.each x hx).free.mp havail).symm.trans hlib)
  · have hkept : s.kept = s.waiting.countP Point.keeps := by
      show s.holder.elim 0 _ + _ = _
      rw [hh]
      exact Nat.zero_add _
    rw [h.leases, hkept]
    exact Nat.add_assoc _ _ _

structure Kept (s : Stream) (l : Label) (t : Stream) : Prop where
  settled : t.holder = none → t.Settled
  /-- Only its completion takes a transfer from libusb; none is submitted again. -/
  owned : s.pool.Holds t.pool ∨ ∃ j status actualLength, l = .complete j status actualLength ∧
    ∀ i x, i ≠ j → s.pool.all[i]? = some x → t.pool.all[i]? = some x
  done : s.state ≠ .done → t.state = .done → ∀ x ∈ t.pool.all, x.status = .avail

def CancelsOutsideWindows (s : Stream) (l : Label) : Prop :=
  match l, s.holder with
  | .run env, some (.cancel _) =>
      s.direction = .tx ∧ env.deferCancel ∨
        ∀ x ∈ s.pool.all, ∀ caller, x.hold ≠ .window caller
  | _, _ => True

/-! ### The points that work on the transfers -/

theorem submitTransfer_tracked (h : s.Tracked) {req : Request} {caller : Caller} (env : Env)
    (hk : s.kept = caller.retires.toNat + s.waiting.countP Point.keeps) :
    (s.submitTransfer req caller env).Tracked ∧
      s.pool.Holds (s.submitTransfer req caller env).pool ∧
      (s.submitTransfer req caller env).state = s.state := by
  unfold submitTransfer
  cases hnext : s.pool.nextAvailable with
  | none =>
      have hgo := (Alike.refl s).go (.refl (.returned caller (some .wouldBlock)))
      exact ⟨h.of_passes hgo hk, Transfers.Holds.refl _, rfl⟩
  | some i =>
      obtain ⟨t, ht, havail⟩ := nextAvailable_spec hnext
      have hfree : t.hold ≠ .libusb := by
        rw [(h.pool.at ht).free.mp havail]
        exact Hold.noConfusion
      have hlease : t.leaseActive = false := by
        cases hl : t.leaseActive with
        | false => rfl
        | true => exact absurd havail ((h.pool.at ht).lease hl)
      have hclaim := h.pool.claim ht havail req caller
      have hflag := flagged_claim h.pool ht havail req caller
      have hget : (s.pool.claim i req caller).all[i]? = some (t.claim req caller) := by
        show (s.pool.all.modify i _)[i]? = _
        rw [List.getElem?_modify, ht]
        simp
      have howned : s.pool.Holds (s.pool.claim i req caller) :=
        holds_modify rfl fun y hy => .inl (Option.some.inj (ht.symm.trans hy) ▸ hfree)
      have hleases := h.leases
      have hcleases : (s.pool.claim i req caller).leases = s.pool.leases := rfl
      dsimp only
      cases hd : s.direction with
      | rx =>
          refine ⟨⟨hclaim, ?_, ?_⟩, howned, rfl⟩
          · show (s.pool.claim i req caller).leases = (s.pool.claim i req caller).flagged +
              (0 + s.waiting.countP Point.keeps)
            omega
          · intro _
            exact forall_mem_modify (h.rx hd) fun x hx => h.rx hd x (List.mem_of_getElem? hx)
      | tx =>
          have hrx : ∀ {p : Prop}, s.direction = .rx → p := fun hr =>
            Direction.noConfusion (hd.symm.trans hr)
          have hwin : (t.claim req caller).hold ≠ .libusb := Hold.noConfusion
          cases env.leaseAcquire with
          | some err =>
              have hback := hclaim.unclaim hget Hold.noConfusion
              have hfreed := flagged_free hget
              rw [show (t.claim req caller).leaseActive = t.leaseActive from rfl, hlease,
                show (t.claim req caller).windowKeeps = caller.retires from rfl] at hfreed
              have hul : ((s.pool.claim i req caller).unclaim i).leases = s.pool.leases := by
                show s.pool.leases - (Option.any _ _).toNat = _
                rw [hget, Option.any_some,
                  show (t.claim req caller).leaseActive = false from hlease]
                rfl
              refine ⟨⟨hback, ?_, hrx⟩, howned.trans (holds_modify rfl fun z hz =>
                .inl (Option.some.inj (hget.symm.trans hz) ▸ hwin)), rfl⟩
              · show ((s.pool.claim i req caller).unclaim i).leases =
                  ((s.pool.claim i req caller).unclaim i).flagged +
                    (caller.retires.toNat + s.waiting.countP Point.keeps)
                have hflagged : ((s.pool.claim i req caller).unclaim i).flagged =
                  (((s.pool.claim i req caller).all.modify i free).countP
                    leaseActive +
                  ((s.pool.claim i req caller).all.modify i free).countP
                    windowKeeps) := rfl
                simp only [Bool.toNat_false] at hfreed
                omega
          | none =>
              refine ⟨⟨hclaim.lease hget Hold.noConfusion, ?_, hrx⟩,
                howned.trans (holds_modify rfl fun z hz =>
                  .inl (Option.some.inj (hget.symm.trans hz) ▸ hwin)), rfl⟩
              · have hgranted := flagged_lease hget hlease
                show (s.pool.claim i req caller).leases + 1 =
                  ((s.pool.claim i req caller).lease i).flagged +
                    (0 + s.waiting.countP Point.keeps)
                omega

theorem finish_tracked (h : s.Tracked) {retire : Bool}
    (hk : s.kept = retire.toNat + s.waiting.countP Point.keeps) : (s.finish retire).Tracked := by
  refine ⟨⟨h.pool.counted, h.pool.each, h.pool.asserted⟩, ?_, h.rx⟩
  have hleases := h.leases
  show s.pool.leases - retire.toNat = s.pool.flagged + (0 + s.waiting.countP Point.keeps)
  omega

theorem cancelAll_tracked (h : s.Tracked) (env : Env) (after : Point)
    (hk : s.kept = after.keeps.toNat + s.waiting.countP Point.keeps)
    (hc : s.direction = .tx ∧ env.deferCancel ∨
      ∀ x ∈ s.pool.all, ∀ caller, x.hold ≠ .window caller) :
    ((s.cancelAllTransfers env).go after).Tracked ∧
      s.pool.Holds ((s.cancelAllTransfers env).go after).pool ∧
      ((s.cancelAllTransfers env).go after).state = s.state := by
  unfold cancelAllTransfers
  split_ifs with hdefer
  · exact ⟨h.of_passes ((Alike.refl s).go (.refl after)) hk, Transfers.Holds.refl _, rfl⟩
  · rcases hc with hc | hw
    · exact absurd hc hdefer
    refine ⟨⟨h.pool.cancelAll hw _, ?_, ?_⟩, holds_cancelAll _, rfl⟩
    · show s.pool.leases = (s.pool.cancelAll _).flagged +
        (after.keeps.toNat + s.waiting.countP Point.keeps)
      rw [flagged_cancelAll, h.leases, hk]
    · intro hd x hx
      obtain ⟨j, hj, rfl⟩ := List.mem_mapIdx.mp hx
      rw [leaseActive_cancel]
      exact h.rx hd _ (List.getElem_mem hj)

/-! ### Steps -/

theorem Tracked.step {l : Label} (ht : t.Tracked) (hown : s.pool.Holds t.pool)
    (hdone : t.state = .done → s.state = .done ∨ t.drained) : Kept s l t ∧ t.Tracked := by
  refine ⟨⟨fun hh => ht.settled hh, .inl hown, ?_⟩, ht⟩
  intro hs hd
  rcases hdone hd with h | h
  · exact absurd h hs
  · exact ht.all_avail h

section

variable (h : s.Tracked)

include h

theorem Tracked.step_passes {l : Label} {pt : Point} (hp : Passes s t pt)
    (hk : s.kept = pt.keeps.toNat + s.waiting.countP Point.keeps) : Kept s l t ∧ t.Tracked := by
  refine Tracked.step (h.of_passes hp hk) (by rw [hp.pool]; exact .refl _) fun hd => ?_
  rcases hp.done hd with hs | hs
  · exact .inl hs
  · right
    show decide (t.pool.numAvail = t.pool.num) = true
    rw [hp.pool]
    exact hs

theorem run_kept (env : Env) {pt : Point} (hh : s.holder = some pt)
    (hc : s.CancelsOutsideWindows (.run env)) :
    Kept s (.run env) (s.run env pt) ∧ (s.run env pt).Tracked := by
  have hk := kept_of_holder hh
  cases hw : pt.works with
  | false => exact h.step_passes (run_passes env hw) hk
  | true =>
      cases pt with
      | submit req caller =>
          obtain ⟨htr, hown, hstate⟩ := submitTransfer_tracked h env hk
          exact htr.step hown fun hd => .inl (hstate ▸ hd)
      | cancel after =>
          have hcond : s.direction = .tx ∧ env.deferCancel ∨
              ∀ x ∈ s.pool.all, ∀ caller, x.hold ≠ .window caller := by
            simpa only [CancelsOutsideWindows, hh] using hc
          obtain ⟨htr, hown, hstate⟩ := cancelAll_tracked h env after hk hcond
          exact htr.step hown fun hd => .inl (hstate ▸ hd)
      | finish retire => exact (finish_tracked h hk).step (.refl _) fun hd => .inl hd
      | _ => exact absurd hw (by simp [Point.works])

theorem lock_kept {k : ℕ} {pt : Point} (hh : s.holder = none)
    (hk : s.waiting[k]? = some pt) :
    Kept s (.lock k) ({ s with waiting := s.waiting.eraseIdx k }.go pt) ∧
      ({ s with waiting := s.waiting.eraseIdx k }.go pt).Tracked := by
  refine Tracked.step ⟨h.pool, ?_, h.rx⟩ (.refl _) fun hd => .inl hd
  show s.pool.leases = s.pool.flagged +
    (pt.keeps.toNat + (s.waiting.eraseIdx k).countP Point.keeps)
  have hcount := Lib.countP_eraseIdx Point.keeps hk
  rw [h.leases, kept_of_free hh]
  omega

theorem accept_kept {j : ℕ} {t : Transfer} {caller : Caller}
    (ht : s.pool.all[j]? = some t) (hw : t.hold = .window caller) :
    Kept s (.accept j) (s.accepted j caller) ∧ (s.accepted j caller).Tracked := by
  refine Tracked.step ⟨h.pool.accept ht hw, ?_, ?_⟩ (holds_modify rfl fun x hx => ?_)
    fun hd => .inl hd
  · show s.pool.leases = (s.pool.accept j).flagged + (s.holder.elim 0 (·.keeps.toNat) +
      (s.waiting ++ [Point.returned caller none]).countP Point.keeps)
    have hflag := flagged_accept ht hw
    have hleases := h.leases
    have hkept : s.kept = s.holder.elim 0 (·.keeps.toNat) + s.waiting.countP Point.keeps := rfl
    have hone : [Point.returned caller none].countP Point.keeps = caller.retires.toNat := by
      rw [List.countP_singleton]
      show (if caller.retires = true then 1 else 0) = _
      cases caller.retires <;> rfl
    rw [List.countP_append, hone]
    omega
  · intro hd
    exact forall_mem_modify (h.rx hd) fun x hx => h.rx hd x (List.mem_of_getElem? hx)
  · exact .inr rfl

theorem reject_kept {j : ℕ} {t : Transfer} {caller : Caller} (err : StreamError)
    (hh : s.holder = none) (ht : s.pool.all[j]? = some t) (hw : t.hold = .window caller) :
    let u := (s.setPool (s.pool.reject j)).go (.returned caller (some err))
    Kept s (.reject j err) u ∧ u.Tracked := by
  refine Tracked.step ⟨h.pool.reject ht hw, ?_, ?_⟩ (holds_modify rfl fun x hx => ?_)
    fun hd => .inl hd
  · show s.pool.leases - ((s.pool.all[j]?).any leaseActive).toNat =
      (s.pool.all.modify j free).countP leaseActive +
        (s.pool.all.modify j free).countP windowKeeps +
      (caller.retires.toNat + s.waiting.countP Point.keeps)
    have hflag := flagged_free ht
    have hkeeps : t.windowKeeps = caller.retires := by simp [windowKeeps, hw]
    have hleases := h.leases
    rw [kept_of_free hh] at hleases
    rw [hkeeps] at hflag
    rw [ht, Option.any_some]
    omega
  · intro hd
    exact forall_mem_modify (h.rx hd) fun _ _ => rfl
  · left
    obtain rfl : t = x := Option.some.inj (ht.symm.trans hx)
    rw [hw]
    exact Hold.noConfusion

theorem complete_kept {j : ℕ} {t : Transfer} (status : CompletionStatus)
    (actualLength : ℤ) (hh : s.holder = none) (ht : s.pool.all[j]? = some t)
    (hlib : t.hold = .libusb) :
    Kept s (.complete j status actualLength) (s.completion j status actualLength) ∧
      (s.completion j status actualLength).Tracked := by
  have htr : (s.completion j status actualLength).Tracked := by
    refine ⟨h.pool.complete ht hlib, ?_, ?_⟩
    · show s.pool.leases = (s.pool.all.modify j free).countP leaseActive +
          (s.pool.all.modify j free).countP windowKeeps +
        ((decide (s.direction = .tx ∧ (s.pool.all[j]?).any leaseActive)).toNat +
          s.waiting.countP Point.keeps)
      have hflag := flagged_free ht
      have hkeeps : t.windowKeeps = false := by simp [windowKeeps, hlib]
      have hleases := h.leases
      rw [kept_of_free hh] at hleases
      have hretire : decide (s.direction = .tx ∧ (s.pool.all[j]?).any leaseActive) =
          t.leaseActive := by
        rw [ht, Option.any_some]
        cases hd : s.direction with
        | rx => simp [h.rx hd t (List.mem_of_getElem? ht)]
        | tx => simp
      rw [hkeeps] at hflag
      rw [hretire]
      simp only [Bool.toNat_false] at hflag
      omega
    · intro hd
      exact forall_mem_modify (h.rx hd) fun _ _ => rfl
  refine ⟨⟨fun hf => htr.settled hf, .inr ⟨j, status, actualLength, rfl, ?_⟩, fun hs hd => ?_⟩,
    htr⟩
  · intro i x hi hx
    show (s.pool.all.modify j free)[i]? = _
    rw [List.getElem?_modify, hx]
    simp [Ne.symm hi]
  · exact absurd hd hs

theorem settle_kept {l : Label} (hh : s.holder = none)
    (hs : u.pool = s.pool ∧ u.direction = s.direction ∧ u.waiting = s.waiting)
    (hu : u.holder = none) (hstate : u.state ≠ .done) :
    Kept s l u.settle ∧ u.settle.Tracked := by
  obtain ⟨hpool, hdir, hwait⟩ := hs
  have hk : u.kept = s.kept := by rw [kept_of_free hu, kept_of_free hh, hwait]
  have htr : u.Tracked := by
    refine ⟨by rw [hpool]; exact h.pool, by rw [hpool, hk]; exact h.leases, ?_⟩
    rw [hdir, hpool]
    exact h.rx
  unfold settle
  split_ifs with hd
  · refine Tracked.step ⟨htr.pool, htr.leases, htr.rx⟩ ?_ fun _ => .inr hd
    show s.pool.Holds u.pool
    rw [hpool]
    exact .refl _
  · have hpass := (Alike.refl u).go (.refl (.cancel .unlock))
    refine Tracked.step (htr.of_passes hpass ?_) ?_ fun hdn => absurd hdn hstate
    · rw [kept_of_free hu]
      exact (Nat.zero_add _).symm
    · show s.pool.Holds u.pool
      rw [hpool]
      exact .refl _

theorem next_kept (l : Label) (hc : s.CancelsOutsideWindows l) :
    Kept s l (s.next l) ∧ (s.next l).Tracked := by
  have hsame : Kept s l s ∧ s.Tracked := h.step (.refl _) fun hd => .inl hd
  cases l with
  | run env =>
      dsimp only [next]
      cases hh : s.holder with
      | none => exact hsame
      | some pt => exact run_kept h env hh hc
  | lock k =>
      dsimp only [next]
      split
      · rename_i pt hh hk
        exact lock_kept h hh hk
      · exact hsame
  | accept j =>
      dsimp only [next]
      split
      · rename_i caller hwin
        obtain ⟨t, ht, hw⟩ := Option.map_eq_some_iff.mp hwin
        exact accept_kept h ht hw
      · exact hsame
  | reject j err =>
      dsimp only [next]
      split
      · rename_i caller hh hwin
        obtain ⟨t, ht, hw⟩ := Option.map_eq_some_iff.mp hwin
        exact reject_kept h err hh ht hw
      · exact hsame
  | complete j status actualLength =>
      dsimp only [next]
      split
      · rename_i hh hown
        obtain ⟨t, ht, hlib⟩ := Option.map_eq_some_iff.mp hown
        exact complete_kept h status actualLength hh ht hlib
      · exact hsame
  | submit req nonblock =>
      dsimp only [next]
      split
      · exact hsame
      · rename_i hbusy
        have hh : s.holder = none := not_not.mp fun hs => hbusy (.inl hs)
        have hk : s.kept = Bool.toNat false + s.waiting.countP Point.keeps := by
          rw [kept_of_free hh]
          exact (Nat.zero_add _).symm
        split_ifs
        · exact h.step_passes ((Alike.refl s).go (.refl (.submitterGo req nonblock none))) hk
        · exact hsame
        · exact h.step_passes ((Alike.refl s).wait (.refl (.submitterWoken req))) hk
  | submitShutdown =>
      dsimp only [next]
      split_ifs with hh hd
      · exact hsame
      · exact Tracked.step ⟨h.pool, h.leases, h.rx⟩ (.refl _) fun _ => .inr hd
      · exact Tracked.step ⟨h.pool, h.leases, h.rx⟩ (.refl _) fun hd => StreamState.noConfusion hd
  | shutdown =>
      dsimp only [next]
      split
      · exact hsame
      · rename_i hbusy
        have hh : s.holder = none := not_not.mp fun hs => hbusy (.inl hs)
        exact settle_kept h hh ⟨rfl, rfl, rfl⟩ hh StreamState.noConfusion
  | deinit => exact Tracked.step ⟨h.pool, h.leases, h.rx⟩ (.refl _) fun hd => .inl hd
  | eventError err =>
      dsimp only [next]
      split
      · exact hsame
      · rename_i hbusy
        have hh : s.holder = none := not_not.mp fun hs => hbusy (.inl hs)
        have hk : s.kept = Bool.toNat false + s.waiting.countP Point.keeps := by
          rw [kept_of_free hh]
          exact (Nat.zero_add _).symm
        exact h.step_passes
          (((Alike.refl s).setLooping false).go (.refl (.failRx err (.eventFailed err)))) hk
  | tick =>
      dsimp only [next]
      split
      · exact hsame
      · rename_i hbusy
        simp only [not_or, not_not] at hbusy
        obtain ⟨hh, _, hstate⟩ := hbusy
        refine settle_kept h hh ⟨rfl, rfl, rfl⟩ hh ?_
        rw [hstate]
        exact StreamState.noConfusion

end

end Stream

/-- The transfers of a stream that `lusb_stream` starts: every one is available, or
in flight since a submitter got in first. -/
structure Fresh (s : Stream) : Prop where
  started : Started s
  each : ∀ x ∈ s.pool.all, x.status = .avail ∧ x.hold = .free ∧ x.leaseActive = false ∨
    x.status = .inFlight ∧ x.hold = .libusb ∧ (s.direction = .rx → x.leaseActive = false)
  counted : s.pool.numAvail = s.pool.all.countP Transfer.isAvail
  leases : s.pool.leases = s.pool.all.countP leaseActive
  asserted : s.pool.asserted = false

namespace Fresh

variable {s : Stream}

theorem each_ok (h : Fresh s) : ∀ x ∈ s.pool.all, x.Ok := by
  intro x hx
  rcases h.each x hx with ⟨havail, hfree, hlease⟩ | ⟨hflight, hlib, -⟩
  · exact ⟨by simp [havail, hfree], by simp [hlease], by simp [havail]⟩
  · exact ⟨by simp [hflight, hlib], fun _ => by simp [hflight], by simp [hflight]⟩

theorem windowKeeps_eq (h : Fresh s) : s.pool.all.countP windowKeeps = 0 := by
  rw [List.countP_eq_zero]
  intro x hx
  rcases h.each x hx with ⟨-, hfree, -⟩ | ⟨-, hlib, -⟩
  · simp [windowKeeps, hfree]
  · simp [windowKeeps, hlib]

theorem tracked (h : Fresh s) : s.Tracked := by
  refine ⟨⟨h.counted, h.each_ok, h.asserted⟩, ?_, ?_⟩
  · have hkept : s.kept = 0 := by
      rw [Stream.kept_of_holder h.started.holder, h.started.waiting]
      rfl
    show s.pool.leases = s.pool.all.countP leaseActive +
      s.pool.all.countP windowKeeps + s.kept
    rw [h.windowKeeps_eq, hkept, h.leases]
    rfl
  · intro hd x hx
    rcases h.each x hx with ⟨-, -, hlease⟩ | ⟨-, -, hlease⟩
    · exact hlease
    · exact hlease hd

end Fresh

/-! ## Runs -/

/-- In every run without a cancel pass over an open submission window the transfers
stay accounted for, whatever the threads, libusb and the board do. -/
theorem transfers_accounted (s : Stream) (hs : Fresh s) (ls : List Label)
    (hc : Along Stream.next (fun s l _ => s.CancelsOutsideWindows l) s ls) :
    Along Stream.next Stream.Kept s ls :=
  Lib.along_of_invariant (I := Stream.Tracked) (fun _ l ht hq => Stream.next_kept ht l hq) ls s
    hs.tracked hc

theorem fresh_opening (direction : Direction) : Fresh (opening direction) := by
  refine ⟨started_opening direction, fun x hx => .inl ?_, rfl, rfl, rfl⟩
  obtain rfl : x = unused := by simpa [opening] using hx
  exact ⟨rfl, rfl, rfl⟩

/-- A submission is accepted before the shutdown cancels it. -/
theorem transfers_accounted_shutdown :
    Along Stream.next Stream.Kept (opening .rx)
      [.run smooth, .run smooth, .accept 0, .shutdown, .run smooth, .run smooth] := by
  refine transfers_accounted (opening .rx) (fresh_opening .rx) _
    ⟨trivial, trivial, trivial, trivial, ?_, trivial, trivial⟩
  exact .inr fun x hx caller hw => by
    rcases List.mem_pair.mp hx with rfl | rfl <;> exact Hold.noConfusion hw

/-- The shutdown cancels a submission that libusb does not have yet, and then libusb
refuses it: first the transfer is marked without a cancel for it, then the assertion
of the rollback fails. -/
theorem transfers_accounted_not_always :
    let ls : List Label :=
      [.run smooth, .run smooth, .shutdown, .run smooth, .run smooth, .reject 0 .io]
    (ls.foldl Stream.next (opening .rx)).pool.asserted = true ∧
      ¬ ∀ s, Fresh s → ∀ ls, Along Stream.next Stream.Kept s ls := by
  intro ls
  refine ⟨by decide, fun h => ?_⟩
  obtain ⟨-, -, -, -, ⟨hsettled, -, -⟩, -⟩ := h (opening .rx) (fresh_opening .rx) ls
  obtain ⟨hlib, -⟩ := (hsettled rfl).cancelled rfl _ (.head _) rfl
  exact Hold.noConfusion hlib

end BladeRF.Usb
