/-
# `Usb.Transfers` — the transfers of a libusb stream

`lusb_stream_data` keeps a status for every transfer and counts the available
ones.  `submit_transfer` takes an available transfer, marks it in flight and
drops `stream->lock` before libusb accepts it, so a transfer has a second life
that the status does not show: it is free, in that window, or libusb's.  Every
function of the backend changes the transfers through the operations here.
-/
import BladeRF.Lib.Table
import Mathlib.Algebra.Order.Ring.Nat

namespace BladeRF.Usb

/-- `transfer_status`, without the one of a stream that is not initialised. -/
inductive TransferStatus
  | avail
  | inFlight
  | cancelPending
  deriving DecidableEq

/-- Who called `submit_transfer`, and so what follows its return. -/
inductive Caller
  /-- The initial submission of `lusb_stream` with this index. -/
  | initial (k : ℕ)
  /-- The zero-byte timeout of `lusb_stream_cb`; the flag is `retire_tx_lease`. -/
  | requeue (retire : Bool)
  /-- The next buffer of `lusb_stream_cb`. -/
  | replacement (retire : Bool)
  /-- `lusb_submit_stream_buffer`. -/
  | submitter
  deriving DecidableEq

/-- The callback behind the call keeps the lease of the transfer it completed. -/
def Caller.retires : Caller → Bool
  | .requeue retire => retire
  | .replacement retire => retire
  | _ => false

inductive Hold
  | free
  /-- A `submit_transfer` that has dropped the lock and not called libusb yet. -/
  | window (caller : Caller)
  | libusb
  deriving DecidableEq

/-- What `submit_transfer` is asked to send. -/
structure Request where
  data : List (BitVec 8)
  length : ℕ
  generation : ℕ
  serial : Option ℕ

structure Transfer where
  status : TransferStatus
  leaseActive : Bool
  /-- `tx_generation`. -/
  generation : ℕ
  data : List (BitVec 8)
  /-- `transfer->length`. -/
  length : ℕ
  hold : Hold
  cancelled : Bool
  /-- libusb had it before in this run. -/
  used : Bool
  serial : Option ℕ

namespace Transfer

def claim (t : Transfer) (req : Request) (caller : Caller) : Transfer :=
  { t with
    status := .inFlight
    generation := req.generation
    data := req.data
    length := req.length
    hold := .window caller
    cancelled := false
    serial := req.serial }

def lease (t : Transfer) : Transfer := { t with leaseActive := true }

/-- libusb's, as the submission number `fresh` if it is a first one. -/
def accept (t : Transfer) (fresh : ℕ) : Transfer :=
  { t with
    hold := .libusb
    used := true
    serial := some (t.serial.getD fresh) }

def free (t : Transfer) : Transfer :=
  { t with
    status := .avail
    leaseActive := false
    hold := .free }

/-- A cancel of a transfer that libusb does not have answers not found, which
counts as pending like the cancel of one it has. -/
def cancel (t : Transfer) (refused : Bool) : Transfer :=
  if t.status = .inFlight then
    { t with
      status := if t.hold = .libusb ∧ refused then .inFlight else .cancelPending
      cancelled := t.cancelled || decide (t.hold = .libusb) }
  else t

def isAvail (t : Transfer) : Bool := t.status = .avail

section cancel

variable {t : Transfer} (refused : Bool)

@[simp] theorem isAvail_cancel : (t.cancel refused).isAvail = t.isAvail := by
  unfold cancel isAvail
  split_ifs with hflight hrefused <;> simp [hflight]

@[simp] theorem leaseActive_cancel : (t.cancel refused).leaseActive = t.leaseActive := by
  unfold cancel
  split_ifs <;> rfl

@[simp] theorem hold_cancel : (t.cancel refused).hold = t.hold := by
  unfold cancel
  split_ifs <;> rfl

@[simp] theorem used_cancel : (t.cancel refused).used = t.used := by
  unfold cancel
  split_ifs <;> rfl

@[simp] theorem serial_cancel : (t.cancel refused).serial = t.serial := by
  unfold cancel
  split_ifs <;> rfl

@[simp] theorem data_cancel : (t.cancel refused).data = t.data := by
  unfold cancel
  split_ifs <;> rfl

@[simp] theorem length_cancel : (t.cancel refused).length = t.length := by
  unfold cancel
  split_ifs <;> rfl

end cancel

end Transfer

/-- The transfer part of `lusb_stream_data`. -/
structure Transfers where
  all : List Transfer
  /-- `num_avail`. -/
  numAvail : ℕ
  /-- The cursor of `get_next_available_transfer`. -/
  i : ℕ
  leases : ℕ
  /-- An assertion of the backend failed. -/
  asserted : Bool
  firsts : List (List (BitVec 8) × ℕ)

namespace Transfers

variable (p : Transfers)

/-- `num_transfers`. -/
def num : ℕ := p.all.length

/-- `get_next_available_transfer`: the first available transfer from the cursor on. -/
def nextAvailable : Option ℕ :=
  ((List.range p.num).map fun k => (p.i + k) % p.num).find? fun j =>
    (p.all[j]?).any fun t => t.status = .avail

variable {p} in
theorem nextAvailable_spec {j : ℕ} (h : p.nextAvailable = some j) :
    ∃ t, p.all[j]? = some t ∧ t.status = .avail := by
  have hfound := List.find?_some h
  cases ht : p.all[j]? with
  | none => rw [ht] at hfound; exact absurd hfound (by simp)
  | some t =>
      rw [ht] at hfound
      exact ⟨t, rfl, by simpa using hfound⟩

/-- The bookkeeping of `submit_transfer` before it drops the lock. -/
def claim (j : ℕ) (req : Request) (caller : Caller) : Transfers :=
  { p with
    all := p.all.modify j (·.claim req caller)
    numAvail := p.numAvail - 1
    i := (j + 1) % p.num
    asserted := p.asserted || decide (p.numAvail = 0) }

def lease (j : ℕ) : Transfers :=
  { p with
    all := p.all.modify j Transfer.lease
    leases := p.leases + 1 }

/-- The rollback of a submission: the status, the count, the cursor and the lease
if it has one. -/
def unclaim (j : ℕ) : Transfers :=
  { p with
    all := p.all.modify j Transfer.free
    numAvail := p.numAvail + 1
    i := j
    leases := p.leases - ((p.all[j]?).any Transfer.leaseActive).toNat }

def accept (j : ℕ) : Transfers :=
  { p with
    all := p.all.modify j (·.accept p.firsts.length)
    firsts := p.firsts ++ ((p.all[j]?).filter fun t => t.serial = none).toList.map fun t =>
      (t.data, t.length) }

/-- libusb refuses it; `submit_transfer` takes the lock again and rolls back. -/
def reject (j : ℕ) : Transfers :=
  { p.unclaim j with
    asserted := p.asserted || (p.all[j]?).any fun t => t.status ≠ .inFlight }

/-- The completion callback gets the transfer back; it keeps the lease. -/
def complete (j : ℕ) : Transfers :=
  { p with
    all := p.all.modify j Transfer.free
    numAvail := p.numAvail + 1
    asserted := p.asserted || (p.all[j]?).any fun t => t.status = .avail }

/-- `cancel_all_transfers` past its TX deadline; `refused` are the transfers that
libusb fails to cancel. -/
def cancelAll (refused : ℕ → Bool) : Transfers :=
  { p with all := p.all.mapIdx fun j t => t.cancel (refused j) }

def release (retire : Bool) : Transfers := { p with leases := p.leases - retire.toNat }

end Transfers

end BladeRF.Usb
