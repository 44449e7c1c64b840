/-
# `Nios.RficRetry` — the answer to a retried RFIC write

A tagged write is answered by `rfic_command_write_admit` behind `pkt_16x64`, or
by the safe-point hook, which looks the transaction up itself.  Both look in the
same queue, but not at the same point: the admission asks for the calibration
fault first, and the hook knows RESULT_ACK by its full address only.  What a
retry meets is the place its transaction has in the queue, `Stands`, and that is
what a run carries along.
-/
import BladeRF.Nios.Dispatch
import BladeRF.Nios.RficExactlyOnce

namespace BladeRF

open RficQueue

/-! ## The two paths -/

inductive WriteAnswer where
  | accepted
  | rejected
  | queueFull
  | busy
deriving DecidableEq

inductive WritePath where
  /-- `pkt_16x64` -/
  | handler
  /-- `service_rfic_status_request_impl`, under these owners -/
  | safePoint (o : Owners)

namespace RficState

def commandTransactionIsDuplicate (s : RficState) (addr : BitVec 16) (data : BitVec 64)
    (id : BitVec 16) : Bool :=
  if id = 0 ∨ !addressFieldsValid addr then false
  else s.queue.findTransaction id (unpackChan addr) (unpackCmd addr) data = some true

/-- An RFIC write in `pkt_16x64`. -/
def pkt16x64Write (s : RficState) (addr : BitVec 16) (data : BitVec 64) (id : BitVec 16) :
    RficState × WriteAnswer :=
  let admission := s.commandWriteAdmit addr data id
  (admission.1,
    match admission.2 with
    | .accepted => .accepted
    | .rejected => .rejected
    | .queueFull => .queueFull)

/-- The tagged writes the hook leaves to `pkt_16x64`. -/
def handledAtSafePoint (o : Owners) (addr id : BitVec 16) : Bool :=
  id ≠ 0 ∧ (addr = 0x0f01 ∧ !o.dispatchBlocked ∨ addr = 0x0f0e)

def safePointWrite (o : Owners) (s : RficState) (addr : BitVec 16) (data : BitVec 64)
    (id : BitVec 16) : RficState × WriteAnswer :=
  if handledAtSafePoint o addr id then s.pkt16x64Write addr data id
  else if s.commandTransactionIsDuplicate addr data id then (s, .accepted)
  else (s, if id ≠ 0 then .busy else .rejected)

def answerWrite (s : RficState) (p : WritePath) (addr : BitVec 16) (data : BitVec 64)
    (id : BitVec 16) : RficState × WriteAnswer :=
  match p with
  | .handler => s.pkt16x64Write addr data id
  | .safePoint o => s.safePointWrite o addr data id

end RficState

def WritePath.admits (p : WritePath) (addr id : BitVec 16) : Bool :=
  match p with
  | .handler => true
  | .safePoint o => RficState.handledAtSafePoint o addr id

/-! ## Where a write stands -/

namespace RficQueue

def overtaken (q : RficQueue) (id : BitVec 16) : Bool :=
  q.entries.items.any fun e => e.transactionId ≠ id

/-- The queue holds a command, or the last result of this transaction. -/
def remembers (q : RficQueue) (id : BitVec 16) : Bool :=
  q.count ≠ 0 ∨ q.lastRvTransactionId = id

end RficQueue

/-- Where an accepted command stands while no other one is accepted: it is in the
queue, or its result was recorded last; a `late` answer was given with another
command in the queue, whose result replaces this one's. -/
inductive Stands (late : Bool) (q : RficQueue) (w : TaggedWrite) : Prop
  | queued (e : RficQueueEntry) (hi : q.entries.items = [e]) (hw : e.write = w)
  | last (hi : q.entries.items = []) (hr : q.recorded = w)
  | late (hl : late = true) (e : RficQueueEntry) (hi : q.entries.items = [e])
      (hid : e.transactionId ≠ w.id) (hr : q.recorded = w)
  | gone (hl : late = true) (hi : q.entries.items = []) (hid : q.recorded.id ≠ w.id)

namespace Stands

variable {late : Bool} {q q' : RficQueue} {w : TaggedWrite}

theorem plain (h : Stands late q w) : Stands late q.plain w := by
  cases h with
  | queued e hi hw =>
      exact .queued e.plain (by rw [plain_items, hi]; rfl)
        (by rw [plain_write, hw])
  | last hi hr => exact .last (by rw [plain_items, hi]; rfl) hr
  | late hl e hi hid hr =>
      exact .late hl e.plain (by rw [plain_items, hi]; rfl)
        (by rwa [RficQueueEntry.plain_transactionId]) hr
  | gone hl hi hid => exact .gone hl (by rw [plain_items, hi]; rfl) hid

theorem of_plain (h : Stands late q.plain w) : Stands late q w := by
  cases h with
  | queued e hi hw =>
      obtain ⟨e', hi', rfl⟩ := mem_items_of_plain hi
      exact .queued e' hi' (by rw [← plain_write, hw])
  | last hi hr => exact .last (items_nil_of_plain hi) hr
  | late hl e hi hid hr =>
      obtain ⟨e', hi', rfl⟩ := mem_items_of_plain hi
      exact .late hl e' hi' (by rwa [RficQueueEntry.plain_transactionId] at hid) hr
  | gone hl hi hid => exact .gone hl (items_nil_of_plain hi) hid

theorem congr (h : Stands late q w) (hq : q'.plain = q.plain) : Stands late q' w := by
  apply of_plain
  rw [hq]
  exact h.plain

theorem modifyHead (h : Stands late q w) {f : RficQueueEntry → RficQueueEntry}
    (hf : ∀ e, q.peek = some e → (f e).write = e.write) : Stands late (q.modifyHead f) w := by
  have hpeek {e : RficQueueEntry} (hi : q.entries.items = [e]) : q.peek = some e := by
    simp [peek, Lib.Fifo.peek, hi]
  have hitems {e : RficQueueEntry} (hi : q.entries.items = [e]) :
      (q.modifyHead f).entries.items = [f e] := by
    rw [modifyHead_items_of_peek f (hpeek hi), hi]
    rfl
  have hnil (hi : q.entries.items = []) : (q.modifyHead f).entries.items = [] := by
    simp [RficQueue.modifyHead, hi]
  cases h with
  | queued e hi hw => exact .queued (f e) (hitems hi) (by rw [hf e (hpeek hi), hw])
  | last hi hr => exact .last (hnil hi) hr
  | late hl e hi hid hr =>
      have hsame : (f e).transactionId = e.transactionId :=
        congrArg TaggedWrite.id (hf e (hpeek hi))
      exact .late hl (f e) (hitems hi) (by rwa [hsame]) hr
  | gone hl hi hid => exact .gone hl (hnil hi) hid

theorem retire (h : Stands late q w) {e : RficQueueEntry} (hp : q.peek = some e) :
    Stands late (q.retire e) w := by
  have hnil {e₁ : RficQueueEntry} (hi : q.entries.items = [e₁]) :
      (q.retire e).entries.items = [] ∧ e₁ = e := by
    have hpeek : q.peek = some e₁ := by simp [peek, Lib.Fifo.peek, hi]
    exact ⟨by simp [RficQueue.retire, hi], Option.some.inj (hpeek.symm.trans hp)⟩
  cases h with
  | queued e₁ hi hw =>
      obtain ⟨hempty, rfl⟩ := hnil hi
      exact .last hempty hw
  | last hi =>
      rw [peek_of_nil hi] at hp
      cases hp
  | late hl e₁ hi hid hr =>
      obtain ⟨hempty, rfl⟩ := hnil hi
      exact .gone hl hempty hid
  | gone hl hi =>
      rw [peek_of_nil hi] at hp
      cases hp

theorem findTransaction (h : Stands late q w) (hid : w.id ≠ 0) :
    q.findTransaction w.id w.ch w.cmd w.value =
      if q.remembers w.id then some true else none := by
  have hlast (hr : q.recorded = w) : q.lastRvTransactionId = w.id ∧ q.lastRvCh = w.ch ∧
      q.lastRvCmd = w.cmd ∧ q.lastRvValue = w.value := by
    rw [← hr]
    exact ⟨rfl, rfl, rfl, rfl⟩
  unfold RficQueue.findTransaction RficQueue.remembers RficQueue.count
  rw [if_neg hid]
  cases h with
  | queued e hi hw =>
      have hsame : e.transactionId = w.id ∧ e.ch = w.ch ∧ e.cmd = w.cmd ∧ e.value = w.value := by
        rw [← hw]
        exact ⟨rfl, rfl, rfl, rfl⟩
      simp [hi, hsame, sameCommand]
  | last hi hr => simp [hi, hlast hr]
  | late hl e hi hne hr => simp [hi, hne, hlast hr]
  | gone hl hi hne =>
      have hne' : q.lastRvTransactionId ≠ w.id := hne
      simp [hi, hne']

end Stands

namespace RficState

/-- Another tagged write of the same sort is accepted: a command, or a RESULT_ACK. -/
def superseded (s : RficState) (addr : BitVec 16) (data : BitVec 64) (id : BitVec 16) :
    RficAct → Bool
  | .write addr' data' id' =>
      id' ≠ 0 ∧ isResultAck addr' = isResultAck addr ∧ (addr', data', id') ≠ (addr, data, id) ∧
        (s.commandWriteAdmit addr' data' id').2 = .accepted
  | _ => false

variable {late : Bool} {addr : BitVec 16} {data : BitVec 64} {id : BitVec 16}

variable {s : RficState} {q : RficQueue}

theorem eq_of_not_superseded {addr' : BitVec 16} {data' : BitVec 64}
    {id' : BitVec 16} (hkeep : s.superseded addr data id (.write addr' data' id') = false)
    (hid : id' ≠ 0) (hsort : isResultAck addr' = isResultAck addr)
    (haccepted : (s.commandWriteAdmit addr' data' id').2 = .accepted) :
    addr' = addr ∧ data' = data ∧ id' = id := by
  simp only [superseded, decide_eq_false_iff_not, not_and] at hkeep
  by_contra hne
  exact hkeep hid hsort (by simpa using hne) haccepted

theorem step_stands {s' : RficState} {act : RficAct} (hs : s.step act = some s')
    (hid : id ≠ 0) (hcommand : isResultAck addr = false)
    (hkeep : s.superseded addr data id act = false)
    (h : Stands late s.queue (sentWrite addr data id))
    (htagged : s.queue.taggedProtocolEnabled = true) :
    Stands late s'.queue (sentWrite addr data id) ∧ s'.queue.taggedProtocolEnabled = true := by
  cases step_queue hs with
  | records hq =>
      exact ⟨h.congr hq, (congrArg taggedProtocolEnabled hq).trans htagged⟩
  | head e e₁ hp hw _ hq =>
      refine ⟨.of_plain ?_, (congrArg taggedProtocolEnabled hq).trans htagged⟩
      rw [hq]
      refine h.plain.modifyHead fun e' hp' => ?_
      have hpeek : s.queue.plain.peek = some e.plain := by
        simp [peek, Lib.Fifo.peek, plain_items_of_peek hp]
      rw [Option.some.inj (hp'.symm.trans hpeek), plain_write, hw]
  | retire e hp hq =>
      rw [hq]
      exact ⟨h.retire hp, htagged⟩
  | ack addr' data' id' _ _ _ _ hq =>
      rw [hq]
      refine ⟨?_, htagged⟩
      cases h with
      | queued e hi hw => exact .queued e hi hw
      | last hi hr => exact .last hi hr
      | late hl e hi hne hr => exact .late hl e hi hne hr
      | gone hl hi hne => exact .gone hl hi hne
  | enqueue addr' data' id' hact hack haccepted hnone huntagged hallowed q hq hqueue =>
      have hid' : id' ≠ 0 := by
        intro hzero
        rw [huntagged hzero] at htagged
        cases htagged
      have hempty : s.queue.entries.items = [] := by
        have hcount := hallowed hid'
        apply items_nil_of_count
        simp only [taggedWriteAllowed, decide_eq_true_eq] at hcount
        omega
      -- Only the write itself can be queued, and only when it was forgotten.
      subst hact
      obtain ⟨rfl, rfl, rfl⟩ := eq_of_not_superseded hkeep hid' (hack.trans hcommand.symm) haccepted
      rw [hqueue]
      refine ⟨.queued ⟨.new, true, unpackChan addr', unpackCmd addr', id', data', .noResult,
        .success⟩ ?_ rfl, afterEnqueue_tagged q hid'⟩
      rw [afterEnqueue_entries, (enqueue_eq hq).2, hempty]
      rfl

theorem run_stands {t : RficState} {acts : List RficAct} (hid : id ≠ 0)
    (hcommand : isResultAck addr = false)
    (hrun : Lib.Steps step (fun s act => s.superseded addr data id act = false) s acts t)
    (h : Stands late s.queue (sentWrite addr data id))
    (htagged : s.queue.taggedProtocolEnabled = true) :
    Stands late t.queue (sentWrite addr data id) :=
  (hrun.invariant (P := fun s => Stands late s.queue (sentWrite addr data id) ∧
      s.queue.taggedProtocolEnabled = true) ⟨h, htagged⟩
    fun hstate hkeep hs => step_stands hs hid hcommand hkeep hstate.1 hstate.2).1

def Acked (q : RficQueue) (id : BitVec 16) (sequence : BitVec 32) : Prop :=
  q.lastAckedTransactionId = id ∧ q.lastAckedSequence = sequence

theorem afterEnqueue_acked (q : RficQueue) (id' : BitVec 16) {sequence : BitVec 32} :
    Acked (q.afterEnqueue id') id sequence ↔ Acked q id sequence := by
  unfold afterEnqueue
  split_ifs <;> exact Iff.rfl

theorem Acked.congr {q' : RficQueue} {sequence : BitVec 32} (h : Acked q id sequence)
    (hq : q'.plain = q.plain) : Acked q' id sequence :=
  ⟨(congrArg lastAckedTransactionId hq).trans h.1,
    (congrArg lastAckedSequence hq).trans h.2⟩

theorem run_acked {t : RficState} {acts : List RficAct} (hack : isResultAck addr = true)
    (hrun : Lib.Steps step (fun s act => s.superseded addr data id act = false) s acts t)
    (h : Acked s.queue id (data.setWidth 32)) : Acked t.queue id (data.setWidth 32) := by
  refine hrun.invariant (P := fun s => Acked s.queue id (data.setWidth 32)) h
    fun {s act s'} h hkeep hs => ?_
  cases step_queue hs with
  | records hq => exact h.congr hq
  | head e e₁ _ _ _ hq =>
      exact ⟨(congrArg lastAckedTransactionId hq).trans h.1,
        (congrArg lastAckedSequence hq).trans h.2⟩
  | retire e _ hq =>
      rw [hq]
      exact h
  | ack addr' data' id' hact hack' hid' haccepted hq =>
      subst hact
      obtain ⟨rfl, rfl, rfl⟩ := eq_of_not_superseded hkeep hid' (hack'.trans hack.symm) haccepted
      rw [hq]
      exact ⟨rfl, rfl⟩
  | enqueue addr' data' id' _ _ _ _ _ _ q hq hqueue =>
      rw [hqueue, afterEnqueue_acked, (enqueue_eq hq).1]
      exact h

def Commands (q : RficQueue) : Prop :=
  (∀ e ∈ q.entries.items, e.cmd ≠ bladerfRficCommandResultAck) ∧
    q.lastRvCmd ≠ bladerfRficCommandResultAck

theorem Commands.of_plain (h : Commands q.plain) : Commands q := by
  refine ⟨fun e hmem => ?_, h.2⟩
  have hcmd := h.1 e.plain (by rw [plain_items]; exact List.mem_map_of_mem hmem)
  rwa [show e.plain.cmd = e.cmd from congrArg TaggedWrite.cmd (plain_write e)] at hcmd

theorem Commands.plain (h : Commands q) : Commands q.plain := by
  refine ⟨fun e hmem => ?_, h.2⟩
  rw [plain_items] at hmem
  obtain ⟨e', hmem', rfl⟩ := List.mem_map.mp hmem
  rw [show e'.plain.cmd = e'.cmd from congrArg TaggedWrite.cmd (plain_write e')]
  exact h.1 e' hmem'

theorem commandInit_commands : Commands commandInit.queue :=
  ⟨fun _ hmem => (by cases hmem), by decide⟩

theorem step_commands {s' : RficState} {act : RficAct} (hs : s.step act = some s')
    (h : Commands s.queue) : Commands s'.queue := by
  cases step_queue hs with
  | records hq =>
      apply Commands.of_plain
      rw [hq]
      exact h.plain
  | head e e₁ hp hw _ hq =>
      apply Commands.of_plain
      rw [hq]
      refine ⟨fun e' hmem => ?_, h.2⟩
      have hpeek : s.queue.plain.peek = some e.plain := by
        simp [peek, Lib.Fifo.peek, plain_items_of_peek hp]
      rw [modifyHead_items_of_peek _ hpeek] at hmem
      rcases List.mem_cons.mp hmem with rfl | htail
      · rw [show e'.cmd = e.cmd from congrArg TaggedWrite.cmd hw]
        apply h.1
        rw [peek_eq_some hp]
        exact List.mem_cons_self
      · exact h.plain.1 e' (List.mem_of_mem_tail htail)
  | retire e hp hq =>
      rw [hq]
      refine ⟨fun e' hmem => h.1 e' (List.mem_of_mem_tail hmem), ?_⟩
      apply h.1
      rw [peek_eq_some hp]
      exact List.mem_cons_self
  | ack addr' data' id' _ _ _ _ hq =>
      rw [hq]
      exact h
  | enqueue addr' data' id' _ hack _ _ _ _ q hq hqueue =>
      have hrecorded : (q.afterEnqueue id').lastRvCmd = s.queue.lastRvCmd := by
        rw [show (q.afterEnqueue id').lastRvCmd = q.lastRvCmd from
          congrArg TaggedWrite.cmd (afterEnqueue_recorded q id'),
          (enqueue_eq hq).1]
      rw [hqueue]
      refine ⟨fun e hmem => ?_, by rw [hrecorded]; exact h.2⟩
      rw [afterEnqueue_entries, (enqueue_eq hq).2] at hmem
      rcases List.mem_append.mp hmem with hmem | hmem
      · exact h.1 e hmem
      · rw [List.mem_singleton.mp hmem]
        simpa [isResultAck] using hack

theorem Commands.findTransaction (h : Commands q) (hack : isResultAck addr = true) :
    q.findTransaction id (unpackChan addr) (unpackCmd addr) data ≠ some true := by
  intro hfind
  have hcmd : unpackCmd addr = bladerfRficCommandResultAck := by simpa [isResultAck] using hack
  rcases findTransaction_eq_true hfind with ⟨e, hmem, hw⟩ | hw
  · exact h.1 e hmem ((congrArg TaggedWrite.cmd hw).trans hcmd)
  · exact h.2 ((congrArg TaggedWrite.cmd hw).trans hcmd)

/-! ## The accepted answer -/

theorem pkt16x64Write_accepted :
    (s.pkt16x64Write addr data id).2 = .accepted ↔
      (s.commandWriteAdmit addr data id).2 = .accepted := by
  simp only [pkt16x64Write]
  split <;> simp_all

variable (p : WritePath)

theorem answerWrite_accepted :
    (s.answerWrite p addr data id).2 = .accepted ↔
      if p.admits addr id then (s.commandWriteAdmit addr data id).2 = .accepted
      else s.commandTransactionIsDuplicate addr data id = true := by
  cases p with
  | handler => simp [answerWrite, WritePath.admits, pkt16x64Write_accepted]
  | safePoint o =>
      simp only [answerWrite, WritePath.admits, safePointWrite]
      rcases Bool.eq_false_or_eq_true (handledAtSafePoint o addr id) with hserved | hserved
      · simp only [hserved, if_true]
        exact pkt16x64Write_accepted
      · rcases Bool.eq_false_or_eq_true (s.commandTransactionIsDuplicate addr data id) with
          hfound | hfound
        · simp [hserved, hfound]
        · simp only [hserved, hfound, Bool.false_eq_true, if_false, iff_false]
          split <;> exact fun h => by cases h

theorem answerWrite_state :
    (s.answerWrite p addr data id).1 =
      if p.admits addr id then (s.commandWriteAdmit addr data id).1 else s := by
  cases p with
  | handler => rfl
  | safePoint o =>
      simp only [answerWrite, WritePath.admits, safePointWrite]
      rcases Bool.eq_false_or_eq_true (handledAtSafePoint o addr id) with hserved | hserved
      · simp only [hserved, if_true]
        rfl
      · rcases Bool.eq_false_or_eq_true (s.commandTransactionIsDuplicate addr data id) with
          hfound | hfound
        · simp [hserved, hfound]
        · simp [hserved, hfound]

theorem current_of_steps {acts : List RficAct}
    (hs : Lib.Steps step (fun _ _ => True) commandInit acts s) :
    ∃ accepted started, Current s.queue.plain accepted started := by
  have htrace : ∃ t : RficTrace, t.Sound ∧ t.state = s := by
    refine hs.invariant (P := fun s => ∃ t : RficTrace, t.Sound ∧ t.state = s)
      ⟨RficTrace.start, RficTrace.start_sound, rfl⟩ ?_
    rintro s act s' ⟨t, ht, rfl⟩ - hstep
    have htstep : t.step act = some ⟨s', t.accepted ++ t.newlyAccepted act,
        t.started ++ t.newlyStarted act, t.newlyAcked act⟩ := by
      rw [RficTrace.step, hstep]
      rfl
    exact ⟨_, ht.step htstep, rfl⟩
  obtain ⟨t, ht, rfl⟩ := htrace
  exact ⟨_, _, ht.current⟩

theorem duplicate_stands {accepted started : List TaggedWrite}
    (h : Current q.plain accepted started) (hid : id ≠ 0)
    (hfind : q.findTransaction id (unpackChan addr) (unpackCmd addr) data = some true) :
    Stands (q.overtaken id) q (sentWrite addr data id) ∧ q.taggedProtocolEnabled = true := by
  have hfound := findTransaction_eq_true hfind
  cases h with
  | untagged _ _ hq hrec =>
      rcases hfound with ⟨e, he, hw⟩ | hw
      · have hzero := hq e.plain (plain_items q ▸ List.mem_map_of_mem he)
        rw [RficQueueEntry.plain_transactionId] at hzero
        exact absurd ((congrArg TaggedWrite.id hw).symm.trans hzero) hid
      · exact absurd ((congrArg TaggedWrite.id hw).symm.trans hrec) hid
  | queued e older hi _ _ _ _ _ hp =>
      obtain ⟨e', hi', -⟩ := mem_items_of_plain hi
      refine ⟨?_, hp⟩
      by_cases hsame : e'.transactionId = id
      · refine .queued e' hi' ?_
        simp only [findTransaction, hid, hi', hsame, if_false, List.find?_cons,
          decide_true, Option.some.injEq, sameCommand, decide_eq_true_eq] at hfind
        simp only [RficQueueEntry.write, sentWrite, hsame, hfind.1, hfind.2.1, hfind.2.2]
      · refine .late (by simp [overtaken, hi', hsame]) e' hi' hsame ?_
        rcases hfound with ⟨e₁, hmem, hw⟩ | hw
        · rw [hi', List.mem_singleton] at hmem
          rw [hmem] at hw
          exact absurd (congrArg TaggedWrite.id hw) hsame
        · exact hw
  | retired older hi _ _ _ hp =>
      have hempty := items_nil_of_plain hi
      refine ⟨.last hempty ?_, hp⟩
      rcases hfound with ⟨e, hmem, -⟩ | hw
      · rw [hempty] at hmem
        cases hmem
      · exact hw

theorem accepted_stands {accepted started : List TaggedWrite}
    (h : Current s.queue.plain accepted started) (hid : id ≠ 0)
    (hcommand : isResultAck addr = false)
    (haccepted : (s.answerWrite p addr data id).2 = .accepted) :
    Stands (s.queue.overtaken id) (s.answerWrite p addr data id).1.queue
        (sentWrite addr data id) ∧
      (s.answerWrite p addr data id).1.queue.taggedProtocolEnabled = true := by
  rw [answerWrite_accepted] at haccepted
  rw [answerWrite_state]
  split at haccepted
  · rename_i hserved
    rw [if_pos hserved]
    rcases s.commandWriteAdmit_cases addr data id with
      ⟨-, hrefused⟩ | ⟨hack, -⟩ | ⟨hack, -⟩ | ⟨-, hfind, hwrite⟩ |
        ⟨-, -, -, hallowed, q, hq, hwrite⟩
    · exact absurd haccepted hrefused
    · rw [hack] at hcommand
      cases hcommand
    · rw [hack] at hcommand
      cases hcommand
    · rw [hwrite]
      exact duplicate_stands h hid hfind
    · have hempty : s.queue.entries.items = [] := by
        have hcount := hallowed hid
        apply items_nil_of_count
        simp only [taggedWriteAllowed, decide_eq_true_eq] at hcount
        omega
      rw [hwrite]
      refine ⟨.queued ⟨.new, true, unpackChan addr, unpackCmd addr, id, data, .noResult,
        .success⟩ ?_ rfl, afterEnqueue_tagged q hid⟩
      rw [afterEnqueue_entries, (enqueue_eq hq).2, hempty]
      rfl
  · rename_i hserved
    rw [if_neg hserved]
    unfold commandTransactionIsDuplicate at haccepted
    split at haccepted
    · cases haccepted
    · exact duplicate_stands h hid (by simpa using haccepted)

/-! ## The answer to a retry -/

/-- Nothing stands between the retry and the lookup of its transaction: the
admission has no calibration fault before it, the hook knows the address. -/
def RetryPasses (m : RficState) (p : WritePath) (addr : BitVec 16) : Prop :=
  match p with
  | .handler => isResultAck addr = true ∨ m.commandAllowed (unpackCmd addr) = true
  | .safePoint _ => isResultAck addr = true → addr = 0x0f0e

def AdmitsAnew (m : RficState) (p : WritePath) (addr id : BitVec 16) : Prop :=
  p.admits addr id = true ∧ m.queue.taggedWriteAllowed = true ∧
    ∃ f, getCmdPtr (unpackCmd addr) = some f ∧ m.checkValidity f (unpackChan addr) = true

theorem accepted_address (haccepted : (s.answerWrite p addr data id).2 = .accepted) :
    addressFieldsValid addr = true := by
  rw [answerWrite_accepted] at haccepted
  rcases Bool.eq_false_or_eq_true (addressFieldsValid addr) with hvalid | hinvalid
  · exact hvalid
  · split at haccepted
    · simp [commandWriteAdmit, hinvalid] at haccepted
    · simp [commandTransactionIsDuplicate, hinvalid] at haccepted

theorem ack_retry {m : RficState} (hvalid : addressFieldsValid addr = true)
    (hack : isResultAck addr = true) (hid : id ≠ 0) (hdata : data >>> 32 = 0)
    (hacked : Acked m.queue id (data.setWidth 32)) :
    (m.commandWriteAdmit addr data id).2 = .accepted := by
  have hcmd : unpackCmd addr = bladerfRficCommandResultAck := by simpa [isResultAck] using hack
  have hduplicate : m.queue.ackIsDuplicate id (data.setWidth 32) = true := by
    simp only [ackIsDuplicate, decide_eq_true_eq]
    exact ⟨hid, hacked.1, hacked.2⟩
  have hresult : m.queue.ackResult id (data.setWidth 32) = (m.queue, true) := by
    rw [ackResult, if_neg hid, if_pos hduplicate]
  have hrefused : ¬(data >>> 32 ≠ 0 ∨ id = 0) := by
    rintro (hwide | hzero)
    · exact hwide hdata
    · exact hid hzero
  unfold commandWriteAdmit
  dsimp only
  rw [hvalid, if_neg (by simp), if_pos hcmd, if_neg hrefused, hresult]
  rfl

theorem accepted_acked (hcommands : Commands s.queue) (hack : isResultAck addr = true)
    (haccepted : (s.answerWrite p addr data id).2 = .accepted) :
    data >>> 32 = 0 ∧ Acked (s.answerWrite p addr data id).1.queue id (data.setWidth 32) := by
  have hcmd : unpackCmd addr = bladerfRficCommandResultAck := by simpa [isResultAck] using hack
  have hvalid := accepted_address p haccepted
  rw [answerWrite_accepted] at haccepted
  rw [answerWrite_state]
  split at haccepted
  · rename_i hserved
    rw [if_pos hserved]
    have hdata : data >>> 32 = 0 := by
      by_contra hwide
      unfold commandWriteAdmit at haccepted
      dsimp only at haccepted
      rw [hvalid, if_neg (by simp), if_pos hcmd, if_pos (.inl hwide)] at haccepted
      cases haccepted
    refine ⟨hdata, ?_⟩
    rcases s.commandWriteAdmit_cases addr data id with
      ⟨-, hrefused⟩ | ⟨-, hduplicate, hwrite⟩ | ⟨-, -, -, hwrite⟩ | ⟨hno, -⟩ | ⟨hno, -⟩
    · exact absurd haccepted hrefused
    · rw [hwrite]
      simp only [ackIsDuplicate, decide_eq_true_eq] at hduplicate
      exact hduplicate.2
    · rw [hwrite]
      exact ⟨rfl, rfl⟩
    · rw [hack] at hno
      cases hno
    · rw [hack] at hno
      cases hno
  · unfold commandTransactionIsDuplicate at haccepted
    split at haccepted
    · cases haccepted
    · exact absurd (by simpa using haccepted) (hcommands.findTransaction hack)

theorem command_retry {m : RficState} (hvalid : addressFieldsValid addr = true)
    (hcommand : isResultAck addr = false) (hid : id ≠ 0)
    (h : Stands late m.queue (sentWrite addr data id)) :
    (m.commandWriteAdmit addr data id).2 = .accepted ↔
      m.commandAllowed (unpackCmd addr) = true ∧
        (m.queue.remembers id = true ∨ m.queue.taggedWriteAllowed = true ∧
          ∃ f, getCmdPtr (unpackCmd addr) = some f ∧
            m.checkValidity f (unpackChan addr) = true) := by
  have hcmd : unpackCmd addr ≠ bladerfRficCommandResultAck := by
    simpa [isResultAck] using hcommand
  have hid' : ¬id = 0#16 := hid
  have hfind : m.queue.findTransaction id (unpackChan addr) (unpackCmd addr) data =
      if m.queue.remembers id then some true else none := h.findTransaction hid
  unfold commandWriteAdmit
  dsimp only
  rw [hfind]
  cases hallowed : m.commandAllowed (unpackCmd addr) with
  | false => simp [hvalid, hcmd]
  | true =>
      cases hknown : m.queue.remembers id with
      | true => simp [hvalid, hcmd, hid']
      | false =>
          have hempty : m.queue.entries.items = [] := by
            apply items_nil_of_count
            simp only [remembers, decide_eq_false_iff_not] at hknown
            omega
          have hpush (ch cmd : BitVec 8) :
              (m.queue.enqueue ch cmd data id).isSome = true := by
            simp [enqueue, Lib.Fifo.push, hempty, commandQueueMax]
          cases hfree : m.queue.taggedWriteAllowed with
          | false => simp [hvalid, hcmd, hid']
          | true =>
              obtain ⟨q, hq⟩ :=
                Option.isSome_iff_exists.mp (hpush (unpackChan addr) (unpackCmd addr))
              cases hf : getCmdPtr (unpackCmd addr) with
              | none => simp [hvalid, hcmd, hid', enqueueWrite, hf]
              | some f =>
                  cases hcheck : m.checkValidity f (unpackChan addr) with
                  | false => simp [hvalid, hcmd, hid', enqueueWrite, hf, hcheck]
                  | true => simp [hvalid, hcmd, hid', enqueueWrite, hf, hcheck, hq]

theorem duplicate_retry {m : RficState} (hvalid : addressFieldsValid addr = true) (hid : id ≠ 0)
    (h : Stands late m.queue (sentWrite addr data id)) :
    m.commandTransactionIsDuplicate addr data id = m.queue.remembers id := by
  have hfind : m.queue.findTransaction id (unpackChan addr) (unpackCmd addr) data =
      if m.queue.remembers id then some true else none := h.findTransaction hid
  have hid' : ¬id = 0#16 := hid
  unfold commandTransactionIsDuplicate
  rw [hfind]
  cases m.queue.remembers id <;> simp [hvalid, hid']

theorem Stands_remembers (h : Stands false q (sentWrite addr data id)) :
    q.remembers id = true := by
  cases h with
  | queued e hi _ => simp [remembers, count, hi]
  | last hi hr =>
      have hlast : q.lastRvTransactionId = id := congrArg TaggedWrite.id hr
      simp [remembers, hlast]
  | late hl => cases hl
  | gone hl => cases hl

theorem answerWrite_commands (h : Commands s.queue) :
    Commands (s.answerWrite p addr data id).1.queue := by
  rw [answerWrite_state]
  split
  · have hstep : s.step (.write addr data id) = some (s.commandWriteAdmit addr data id).1 := rfl
    exact step_commands hstep h
  · exact h

/-- **The answer to a retry**: after an accepted tagged write, in any later state
before another one is accepted, and in the middle of a turn too, its retry is
accepted exactly when it gets past the checks in front of the lookup and, where
the first answer was given late, with another command in the queue, it has not
been forgotten or could be queued again. -/
theorem retry_accepted_iff {acts acts' : List RficAct} {s t m : RficState} {p p' : WritePath}
    (hs : Lib.Steps step (fun _ _ => True) commandInit acts s) (hid : id ≠ 0)
    (haccepted : (s.answerWrite p addr data id).2 = .accepted)
    (hrun : Lib.Steps step (fun s act => s.superseded addr data id act = false)
      (s.answerWrite p addr data id).1 acts' t)
    (hm : m.queue.plain = t.queue.plain) :
    (m.answerWrite p' addr data id).2 = .accepted ↔
      m.RetryPasses p' addr ∧
        (isResultAck addr = true ∨ s.queue.overtaken id = false ∨
          m.queue.remembers id = true ∨ m.AdmitsAnew p' addr id) := by
  have hvalid := accepted_address p haccepted
  have hcommands : Commands s.queue :=
    hs.invariant (P := fun s => Commands s.queue) commandInit_commands
      (fun h _ hstep => step_commands hstep h)
  rw [answerWrite_accepted]
  cases hack : isResultAck addr with
  | true =>
      obtain ⟨hdata, hacked⟩ := accepted_acked p hcommands hack haccepted
      have hmacked : Acked m.queue id (data.setWidth 32) :=
        (run_acked hack hrun hacked).congr hm
      have hmcommands : Commands m.queue := by
        apply Commands.of_plain
        rw [hm]
        exact (hrun.invariant (P := fun s => Commands s.queue)
          (answerWrite_commands p hcommands) (fun h _ hstep => step_commands hstep h)).plain
      have hretry := ack_retry hvalid hack hid hdata hmacked
      simp only [true_or, and_true]
      cases p' with
      | handler => simp [WritePath.admits, RetryPasses, hack, hretry]
      | safePoint o =>
          rcases Bool.eq_false_or_eq_true ((WritePath.safePoint o).admits addr id) with
            hserved | hserved
          · rw [if_pos hserved]
            refine ⟨fun _ _ => ?_, fun _ => hretry⟩
            simp only [WritePath.admits, handledAtSafePoint, decide_eq_true_eq] at hserved
            rcases hserved.2 with ⟨rfl, -⟩ | hfull
            · cases hack
            · exact hfull
          · rw [if_neg (by simp [hserved])]
            refine ⟨fun hduplicate => ?_, fun hpasses => ?_⟩
            · unfold commandTransactionIsDuplicate at hduplicate
              split at hduplicate
              · cases hduplicate
              · exact absurd (by simpa using hduplicate) (hmcommands.findTransaction hack)
            · simp [WritePath.admits, handledAtSafePoint, hpasses hack,
                show ¬id = 0#16 from hid] at hserved
  | false =>
      obtain ⟨accepted, started, hcurrent⟩ := current_of_steps hs
      obtain ⟨hstart, htagged⟩ := accepted_stands p hcurrent hid hack haccepted
      have hstands : Stands (s.queue.overtaken id) m.queue (sentWrite addr data id) :=
        (run_stands hid hack hrun hstart htagged).congr hm
      have hknown : s.queue.overtaken id = false → m.queue.remembers id = true := by
        intro hnot
        rw [hnot] at hstands
        exact Stands_remembers hstands
      have hallowed (o : Owners) (hserved : handledAtSafePoint o addr id = true) :
          m.commandAllowed (unpackCmd addr) = true := by
        simp only [handledAtSafePoint, decide_eq_true_eq] at hserved
        rcases hserved.2 with ⟨rfl, -⟩ | rfl
        · rw [commandAllowed, show unpackCmd 0x0f01 = bladerfRficCommandInit from rfl]
          simp
        · cases hack
      rw [command_retry hvalid hack hid hstands, duplicate_retry hvalid hid hstands]
      simp only [Bool.false_eq_true, false_or, AdmitsAnew]
      cases p' with
      | handler =>
          simp only [WritePath.admits, RetryPasses, hack, if_true, true_and, Bool.false_eq_true,
            false_or]
          refine and_congr_right fun _ => ⟨.inr, ?_⟩
          rintro (hnot | hretry)
          · exact .inl (hknown hnot)
          · exact hretry
      | safePoint o =>
          have hpasses : m.RetryPasses (.safePoint o) addr := by
            intro hno
            rw [hack] at hno
            cases hno
          simp only [hpasses, true_and]
          rcases Bool.eq_false_or_eq_true ((WritePath.safePoint o).admits addr id) with
            hserved | hserved
          · rw [if_pos hserved]
            simp only [hallowed o hserved, hserved, true_and]
            refine ⟨.inr, ?_⟩
            rintro (hnot | hretry)
            · exact .inl (hknown hnot)
            · exact hretry
          · rw [if_neg (by simp [hserved])]
            simp only [hserved, Bool.false_eq_true, false_and, or_false]
            refine ⟨.inr, ?_⟩
            rintro (hnot | hretry)
            · exact hknown hnot
            · exact hretry

def initialized : List RficAct := .write 0x0f01 1 0 :: List.replicate 22 (.work Adi.calm)

/-- The drivers answer at once, but a finished command leaves the calibration
state unknown. -/
def unknownAtEnd : Adi := { Adi.calm with test := fun t => t = .unknownComplete || Adi.calm.test t }

def muteFaults : List RficAct := [.work Adi.calm, .work unknownAtEnd, .work Adi.calm]

theorem muteFaults_run :
    ∃ s t : RficState, Lib.Steps step (fun _ _ => True) commandInit initialized s ∧
      (s.answerWrite .handler 0x010a 1 1).2 = .accepted ∧
      Lib.Steps step (fun s act => s.superseded 0x010a 1 1 act = false)
        (s.answerWrite .handler 0x010a 1 1).1 muteFaults t ∧
      s.queue.overtaken 1 = false ∧ t.calibrationFaulted = true ∧
      (t.answerWrite .handler 0x010a 1 1).2 = .rejected := by
  have hrun : ((Lib.exec step (fun _ _ => True) commandInit initialized).any fun s =>
      decide ((s.answerWrite .handler 0x010a 1 1).2 = .accepted) && !s.queue.overtaken 1 &&
        (Lib.exec step (fun s act => s.superseded 0x010a 1 1 act = false)
          (s.answerWrite .handler 0x010a 1 1).1 muteFaults).any fun t =>
            t.calibrationFaulted &&
              decide ((t.answerWrite .handler 0x010a 1 1).2 = .rejected)) = true := by
    decide +kernel
  obtain ⟨s, hs, hrun⟩ := (Option.any_eq_true _ _).mp hrun
  simp only [Bool.and_eq_true, decide_eq_true_eq, Bool.not_eq_true'] at hrun
  obtain ⟨⟨haccepted, hnot⟩, hrun⟩ := hrun
  obtain ⟨t, ht, hend⟩ := (Option.any_eq_true _ _).mp hrun
  simp only [Bool.and_eq_true, decide_eq_true_eq] at hend
  exact ⟨s, t, Lib.Steps.of_exec hs, haccepted, Lib.Steps.of_exec ht, hnot, hend.1, hend.2⟩

/-- The hook acknowledges that retry. -/
theorem retry_accepted_iff_safePoint :
    ∃ t : RficState, t.calibrationFaulted = true ∧
      (t.answerWrite .handler 0x010a 1 1).2 = .rejected ∧
      (t.answerWrite (.safePoint Owners.none) 0x010a 1 1).2 = .accepted := by
  obtain ⟨s, t, hs, haccepted, hrun, hnot, hfault, hrejected⟩ := muteFaults_run
  refine ⟨t, hfault, hrejected, (retry_accepted_iff hs (by decide) haccepted hrun rfl).mpr ?_⟩
  exact ⟨fun hack => (by cases hack), .inr (.inl hnot)⟩

/-- `pkt_16x64` rejects it: the command ran, and its host is told that it did
not. -/
theorem retry_rejected :
    ¬∀ (acts acts' : List RficAct) (s t : RficState) (p p' : WritePath) (addr : BitVec 16)
        (data : BitVec 64) (id : BitVec 16),
      Lib.Steps step (fun _ _ => True) commandInit acts s → id ≠ 0 →
      (s.answerWrite p addr data id).2 = .accepted →
      Lib.Steps step (fun s act => s.superseded addr data id act = false)
        (s.answerWrite p addr data id).1 acts' t →
      (t.answerWrite p' addr data id).2 = .accepted := by
  intro hclaim
  obtain ⟨s, t, hs, haccepted, hrun, -, -, hrejected⟩ := muteFaults_run
  have hretry := hclaim initialized muteFaults s t .handler .handler 0x010a 1 1 hs (by decide)
    haccepted hrun
  rw [hrejected] at hretry
  cases hretry

end RficState

end BladeRF
