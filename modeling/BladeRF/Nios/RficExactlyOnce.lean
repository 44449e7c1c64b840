/-
# `Nios.RficExactlyOnce` — tagged RFIC writes execute exactly once

The trace keeps the tagged writes in the order in which they were queued and
the tagged commands in the order in which they started.  What is queued and not
yet started is the one NEW entry of the queue.

Deduplication remembers two commands at most.  `Current` says which: the newest
tagged write is the only entry of the queue, or the queue is empty and the
record of the last result carries its identity; while it is in the queue the
record still carries the one before it.  An older write or acknowledgement is
forgotten by design, and counts as a new one when it comes back.
-/
import BladeRF.Nios.RficFrame

namespace BladeRF

open RficState RficQueue RficQueueEntry

/-! ## Traces -/

structure TaggedWrite where
  id : BitVec 16
  ch : BitVec 8
  cmd : BitVec 8
  value : BitVec 64
deriving DecidableEq

def RficQueueEntry.write (e : RficQueueEntry) : TaggedWrite :=
  ⟨e.transactionId, e.ch, e.cmd, e.value⟩

structure LastResult where
  rv : Bool
  sequence : BitVec 32
  write : TaggedWrite
  resultCode : RficResult
  cleanupResultCode : RficResult

namespace RficQueue

def recorded (q : RficQueue) : TaggedWrite :=
  ⟨q.lastRvTransactionId, q.lastRvCh, q.lastRvCmd, q.lastRvValue⟩

/-- The terminal result of a tagged command that awaits its acknowledgement. -/
def result (q : RficQueue) : Option LastResult :=
  if q.lastRvValid ∧ q.lastRvTransactionId ≠ 0 then
    some ⟨q.lastRv, q.lastRvSequence, q.recorded, q.lastResultCode, q.lastCleanupResultCode⟩
  else none

def tagged (q : RficQueue) : List RficQueueEntry :=
  q.entries.items.filter fun e => e.transactionId ≠ 0

def waiting (q : RficQueue) : List TaggedWrite :=
  (q.tagged.filter fun e => e.state = .new).map RficQueueEntry.write

end RficQueue

def sentWrite (addr : BitVec 16) (data : BitVec 64) (id : BitVec 16) : TaggedWrite :=
  ⟨id, unpackChan addr, unpackCmd addr, data⟩

def isResultAck (addr : BitVec 16) : Bool := unpackCmd addr = bladerfRficCommandResultAck

structure RficTrace where
  state : RficState
  accepted : List TaggedWrite
  started : List TaggedWrite
  /-- the RESULT_ACK accepted last -/
  acked : Option (BitVec 16 × BitVec 32)

namespace RficTrace

def newlyAccepted (t : RficTrace) : RficAct → List TaggedWrite
  | .write addr data id =>
      if id ≠ 0 ∧ (t.state.commandWriteAdmit addr data id).1.queue.count ≠ t.state.queue.count then
        [sentWrite addr data id]
      else []
  | _ => []

def newlyStarted (t : RficTrace) : RficAct → List TaggedWrite
  | .work _ =>
      match t.state.queue.peek with
      | some e =>
          if e.state = .new ∧ !t.state.jobs.txQuadRetuneOwner ∧ e.transactionId ≠ 0 then [e.write]
          else []
      | none => []
  | _ => []

def newlyAcked (t : RficTrace) : RficAct → Option (BitVec 16 × BitVec 32)
  | .write addr data id =>
      if isResultAck addr ∧ (t.state.commandWriteAdmit addr data id).2 = .accepted then
        some (id, data.setWidth 32)
      else t.acked
  | _ => t.acked

def step (t : RficTrace) (act : RficAct) : Option RficTrace :=
  (t.state.step act).map fun s =>
    { state := s
      accepted := t.accepted ++ t.newlyAccepted act
      started := t.started ++ t.newlyStarted act
      acked := t.newlyAcked act }

def start : RficTrace := ⟨RficState.commandInit, [], [], none⟩

end RficTrace

/-! ## The outcome of a write -/

namespace RficState

theorem commandWriteAdmit_cases (s : RficState) (addr : BitVec 16) (data : BitVec 64)
    (id : BitVec 16) :
    (s.commandWriteAdmit addr data id).1 = s ∧
        (s.commandWriteAdmit addr data id).2 ≠ .accepted ∨
      (isResultAck addr ∧ s.queue.ackIsDuplicate id (data.setWidth 32) ∧
        s.commandWriteAdmit addr data id = (s, .accepted)) ∨
      (isResultAck addr ∧ s.queue.ackMatches id (data.setWidth 32) ∧
        s.queue.lastResultCode ≠ .noResult ∧
        s.commandWriteAdmit addr data id =
          ({ s with queue :=
            { s.queue.clearResult with
              lastAckedTransactionId := id
              lastAckedSequence := data.setWidth 32 } }, .accepted)) ∨
      (isResultAck addr = false ∧
        s.queue.findTransaction id (unpackChan addr) (unpackCmd addr) data = some true ∧
        s.commandWriteAdmit addr data id = (s, .accepted)) ∨
      (isResultAck addr = false ∧
        s.queue.findTransaction id (unpackChan addr) (unpackCmd addr) data = none ∧
        (id = 0 → s.queue.taggedProtocolEnabled = false) ∧
        (id ≠ 0 → s.queue.taggedWriteAllowed) ∧
        ∃ q, s.queue.enqueue (unpackChan addr) (unpackCmd addr) data id = some q ∧
          s.commandWriteAdmit addr data id =
            ({ s with queue := q.afterEnqueue id }, .accepted)) := by
  unfold commandWriteAdmit
  dsimp only
  split
  · exact .inl (by simp)
  · split
    · rename_i hack
      have hack' : isResultAck addr = true := by simpa [isResultAck] using hack
      split
      · exact .inl (by simp)
      · unfold ackResult
        split
        · exact .inl (by simp)
        · split
          · rename_i hdup
            exact .inr (.inl ⟨hack', hdup, rfl⟩)
          · split
            · exact .inl (by simp)
            · rename_i hm
              simp only [not_or, Bool.not_eq_true', Bool.not_eq_false] at hm
              exact .inr (.inr (.inl ⟨hack', hm.1, hm.2, rfl⟩))
    · rename_i hack
      have hack' : isResultAck addr = false := by simpa [isResultAck] using hack
      split
      · exact .inl (by simp)
      · split
        · exact .inl (by simp)
        · rename_i huntagged
          split
          · rename_i same hfind
            cases same
            · exact .inl (by simp)
            · exact .inr (.inr (.inr (.inl ⟨hack', hfind, by simp⟩)))
          · rename_i hfind
            split
            · exact .inl (by simp)
            · rename_i hallowed
              unfold enqueueWrite
              split
              · exact .inl (by simp)
              · split
                · exact .inl (by simp)
                · split
                  · exact .inl (by simp)
                  · rename_i q hq
                    refine .inr (.inr (.inr (.inr ⟨hack', hfind, ?_, ?_, q, hq, rfl⟩)))
                    · intro h0
                      simpa [h0] using huntagged
                    · intro h0
                      by_contra hno
                      exact hallowed ⟨h0, by simpa using hno⟩

end RficState

/-! ## The invariant -/

inductive Current (q : RficQueue) (accepted started : List TaggedWrite) : Prop
  | untagged (ha : accepted = []) (hs : started = [])
      (hq : ∀ e ∈ q.entries.items, e.transactionId = 0) (hr : q.recorded.id = 0)
      (hp : q.taggedProtocolEnabled = false)
  | queued (e : RficQueueEntry) (older : List TaggedWrite) (hi : q.entries.items = [e])
      (hid : e.transactionId ≠ 0) (ha : accepted = older ++ [e.write])
      (hs : started = if e.state = .new then older else accepted)
      (ho : q.recorded.id = 0 ∨ older.getLast? = some q.recorded)
      (hr : q.lastRvValid = false) (hp : q.taggedProtocolEnabled = true)
      (hc : e.state = .complete → e.resultCode ≠ .noResult)
  | retired (older : List TaggedWrite) (hi : q.entries.items = [])
      (hid : q.recorded.id ≠ 0) (ha : accepted = older ++ [q.recorded]) (hs : started = accepted)
      (hp : q.taggedProtocolEnabled = true)
      (hc : q.lastRvValid → q.lastResultCode ≠ .noResult)

def LastAcked (q : RficQueue) : Option (BitVec 16 × BitVec 32) → Prop
  | none => q.lastAckedTransactionId = 0
  | some (id, n) => id ≠ 0 ∧ q.lastAckedTransactionId = id ∧ q.lastAckedSequence = n

structure RficTrace.Sound (t : RficTrace) : Prop where
  current : Current t.state.queue.plain t.accepted t.started
  acked : LastAcked t.state.queue t.acked

namespace Current

variable {q : RficQueue} {accepted started : List TaggedWrite}

theorem plain_congr {q' : RficQueue} (h : Current q.plain accepted started)
    (hq : q'.plain = q.plain) : Current q'.plain accepted started := hq ▸ h

end Current

theorem LastAcked.plain_congr {q q' : RficQueue} {r : Option (BitVec 16 × BitVec 32)}
    (h : LastAcked q r) (hq : q'.plain = q.plain) : LastAcked q' r := by
  have h1 : q'.plain.lastAckedTransactionId = q.plain.lastAckedTransactionId :=
    congrArg lastAckedTransactionId hq
  have h2 : q'.plain.lastAckedSequence = q.plain.lastAckedSequence :=
    congrArg lastAckedSequence hq
  cases r with
  | none => exact h1.trans h
  | some p => exact ⟨h.1, h1.trans h.2.1, h2.trans h.2.2⟩

namespace RficQueue

theorem plain_items_of_peek {q : RficQueue} {e : RficQueueEntry} (h : q.peek = some e) :
    q.plain.entries.items = e.plain :: q.entries.items.tail.map RficQueueEntry.plain := by
  rw [plain_items, peek_eq_some h, List.map_cons, List.tail_cons]

theorem plain_write (e : RficQueueEntry) : e.plain.write = e.write := by
  unfold RficQueueEntry.plain
  split <;> rfl

end RficQueue

/-! ## The worker -/

namespace RficQueue

theorem plain_count (q : RficQueue) : q.plain.count = q.count := by
  simp [count, plain_items]

theorem afterEnqueue_recorded (q : RficQueue) (id : BitVec 16) :
    (q.afterEnqueue id).recorded = q.recorded := by
  unfold afterEnqueue
  split_ifs <;> rfl

theorem modifyHead_items_of_peek {q : RficQueue} {e : RficQueueEntry}
    (f : RficQueueEntry → RficQueueEntry) (h : q.peek = some e) :
    (q.modifyHead f).entries.items = f e :: q.entries.items.tail := by
  have hi := peek_eq_some h
  simp only [modifyHead, Lib.Fifo.modifyHead_items]
  rw [hi]
  rfl

end RficQueue

namespace RficState

inductive QueueMove (s : RficState) (act : RficAct) (s' : RficState) : Prop
  /-- nothing, but for what a running command records -/
  | records (h : s'.queue.plain = s.queue.plain)
  /-- the head starts, or is published -/
  | head (e e₁ : RficQueueEntry) (hp : s.queue.peek = some e) (hw : e₁.write = e.write)
      (hstate : e₁.state ≠ .new)
      (h : s'.queue.plain = s.queue.plain.modifyHead fun _ => e₁)
  | retire (e : RficQueueEntry) (hp : s.queue.peek = some e) (h : s'.queue = s.queue.retire e)
  | ack (addr : BitVec 16) (data : BitVec 64) (id : BitVec 16) (hact : act = .write addr data id)
      (hack : isResultAck addr = true) (hid : id ≠ 0)
      (haccepted : (s.commandWriteAdmit addr data id).2 = .accepted)
      (h : s'.queue =
        { s.queue.clearResult with
          lastAckedTransactionId := id
          lastAckedSequence := data.setWidth 32 })
  | enqueue (addr : BitVec 16) (data : BitVec 64) (id : BitVec 16)
      (hact : act = .write addr data id) (hack : isResultAck addr = false)
      (haccepted : (s.commandWriteAdmit addr data id).2 = .accepted)
      (hnone : s.queue.findTransaction id (unpackChan addr) (unpackCmd addr) data = none)
      (huntagged : id = 0 → s.queue.taggedProtocolEnabled = false)
      (htagged : id ≠ 0 → s.queue.taggedWriteAllowed = true) (q : RficQueue)
      (hq : s.queue.enqueue (unpackChan addr) (unpackCmd addr) data id = some q)
      (h : s'.queue = q.afterEnqueue id)

theorem step_queue {s s' : RficState} {act : RficAct} (hs : s.step act = some s') :
    QueueMove s act s' := by
  cases act with
  | write addr data id =>
      cases hs
      rcases s.commandWriteAdmit_cases addr data id with
        ⟨hsame, -⟩ | ⟨-, -, hwrite⟩ | ⟨hack, hm, -, hwrite⟩ | ⟨-, -, hwrite⟩ |
          ⟨hack, hnone, hzero, htagged, q, hq, hwrite⟩
      · exact .records (by rw [hsame])
      · exact .records (by rw [hwrite])
      · have hid : id ≠ 0 := by
          simp only [ackMatches, decide_eq_true_eq] at hm
          exact hm.2.2.1
        exact .ack addr data id rfl hack hid (by rw [hwrite]) (by rw [hwrite])
      · exact .records (by rw [hwrite])
      · exact .enqueue addr data id rfl hack (by rw [hwrite]) hnone hzero htagged q hq
          (by rw [hwrite])
  | work a =>
      simp only [step] at hs
      split at hs
      · cases hs
      · cases hs
        rcases s.commandWork_queue (a := a) with
          ⟨hplain, -⟩ | ⟨e, hp, -, ⟨hnew, hq⟩ |
            ⟨-, e', hc, hid, hch, hcmd, hv, -, hq⟩ | ⟨-, hq⟩⟩
        · exact .records hplain
        · refine .head e _ hp ?_ ?_ (by
            rw [hq]
            exact modifyHead_plain_of_peek _ rfl hp)
          · rw [plain_write]
            rfl
          · rw [plain_state]
            exact fun h => by cases h
        · refine .head e e' hp ?_ (by rw [hc]; decide) hq
          rw [RficQueueEntry.write, RficQueueEntry.write, hid, hch, hcmd, hv]
        · exact .retire e hp hq
  | retuneTxQuadStart a => exact .records (step_retune_plain hs rfl)
  | retuneTxQuadPoll a => exact .records (step_retune_plain hs rfl)
  | retuneGainTableStart a r => exact .records (step_retune_plain hs rfl)
  | retuneGainTablePoll a => exact .records (step_retune_plain hs rfl)
  | retuneFrequency tx invalid => exact .records (step_retune_plain hs rfl)

end RficState

namespace Current

variable {q : RficQueue} {e : RficQueueEntry} {accepted started : List TaggedWrite}

section

variable (h : Current q.plain accepted started)

include h

theorem start (hp : q.peek = some e)
    (he : e.state = .new) :
    Current (q.modifyHead fun e => { e with state := .running }).plain accepted
      (started ++ if e.transactionId ≠ 0 then [e.write] else []) := by
  have hitems := plain_items_of_peek hp
  have hplain : e.plain = e := plain_of_not_running (by simp [he])
  rw [hplain] at hitems
  have hnew : (q.modifyHead fun e => { e with state := .running }).plain.entries.items =
      RficQueueEntry.plain { e with state := .running } ::
        q.entries.items.tail.map RficQueueEntry.plain := by
    rw [plain_items, modifyHead_items_of_peek _ hp, List.map_cons]
  cases h with
  | untagged ha hs hq hr hpr =>
      have hid : e.transactionId = 0 := hq e (hitems ▸ List.mem_cons_self)
      refine .untagged ha (by simp [hs, hid]) ?_ hr hpr
      intro e' he'
      rw [hnew, List.mem_cons] at he'
      rcases he' with rfl | he'
      · simpa using hid
      · exact hq e' (by rw [hitems]; exact List.mem_cons_of_mem _ he')
  | queued e₁ older hi hid ha hs ho hr hpr hc =>
      rw [hitems, List.cons.injEq] at hi
      obtain ⟨rfl, htail⟩ := hi
      refine .queued (RficQueueEntry.plain { e with state := .running }) older ?_ ?_ ?_ ?_ ho hr
        hpr ?_
      · rw [hnew, htail]
      · simpa using hid
      · rw [ha, plain_write]
        rfl
      · simp only [he, if_true] at hs
        rw [hs, if_pos hid, ha]
        rfl
      · simp
  | retired older hi =>
      rw [hitems] at hi
      cases hi

theorem finish {e' : RficQueueEntry}
    (hp : q.peek = some e) (he : e.state = .running) (hc : e'.state = .complete)
    (hw : e'.write = e.write) (hr : e'.resultCode ≠ .noResult) :
    Current (q.plain.modifyHead fun _ => e') accepted started := by
  have hitems := plain_items_of_peek hp
  have hid : e'.transactionId = e.transactionId := congrArg TaggedWrite.id hw
  have hpeek : q.plain.peek = some e.plain := by
    rw [peek, Lib.Fifo.peek, hitems]
    rfl
  have hnew : (q.plain.modifyHead fun _ => e').entries.items =
      e' :: q.entries.items.tail.map RficQueueEntry.plain := by
    rw [modifyHead_items_of_peek _ hpeek, hitems, List.tail_cons]
  cases h with
  | untagged ha hs hq hrec hpr =>
      refine .untagged ha hs ?_ hrec hpr
      intro e₁ he₁
      rw [hnew, List.mem_cons] at he₁
      rcases he₁ with rfl | he₁
      · rw [hid]
        simpa using hq e.plain (hitems ▸ List.mem_cons_self)
      · exact hq e₁ (by rw [hitems]; exact List.mem_cons_of_mem _ he₁)
  | queued e₁ older hi hid₁ ha hs ho hrv hpr hc₁ =>
      rw [hitems, List.cons.injEq] at hi
      obtain ⟨rfl, htail⟩ := hi
      refine .queued e' older ?_ ?_ ?_ ?_ ho hrv hpr (fun _ => hr)
      · rw [hnew, htail]
      · rw [hid]
        simpa using hid₁
      · rw [ha, plain_write, hw]
      · simpa [he, hc] using hs
  | retired older hi =>
      rw [hitems] at hi
      cases hi

theorem retire (hp : q.peek = some e)
    (he : e.state = .complete) : Current (q.retire e).plain accepted started := by
  have hitems := plain_items_of_peek hp
  have hplain : e.plain = e := plain_of_not_running (by simp [he])
  rw [hplain] at hitems
  have hnew : (q.retire e).plain.entries.items =
      q.entries.items.tail.map RficQueueEntry.plain := rfl
  cases h with
  | untagged ha hs hq hrec hpr =>
      refine .untagged ha hs ?_ (hq e (hitems ▸ List.mem_cons_self)) hpr
      intro e₁ he₁
      rw [hnew] at he₁
      exact hq e₁ (by rw [hitems]; exact List.mem_cons_of_mem _ he₁)
  | queued e₁ older hi hid ha hs ho hrv hpr hc =>
      rw [hitems, List.cons.injEq] at hi
      obtain ⟨rfl, htail⟩ := hi
      refine .retired older (hnew.trans htail) hid ha ?_ hpr (fun _ => hc he)
      simpa [he] using hs
  | retired older hi =>
      rw [hitems] at hi
      cases hi

end

/-! ## The host -/

theorem ack {id : BitVec 16} {n : BitVec 32} (h : Current q.plain accepted started)
    (hm : q.ackMatches id n) :
    Current { q.clearResult with
      lastAckedTransactionId := id
      lastAckedSequence := n }.plain accepted started := by
  simp only [ackMatches, decide_eq_true_eq] at hm
  cases h with
  | untagged ha hs hq hrec hpr => exact absurd hrec (by rw [← hm.2.2.2.1] at hm; exact hm.2.2.1)
  | queued e₁ older hi =>
      have hcount : q.plain.entries.items.length = 0 := q.plain_count.trans hm.2.1
      simp [hi] at hcount
  | retired older hi hid ha hs hpr hc =>
      refine .retired older hi hid ha hs hpr ?_
      intro h
      cases h

theorem enqueue {q' : RficQueue} {ch cmd : BitVec 8} {value : BitVec 64} {id : BitVec 16}
    (h : Current q.plain accepted started) (hq : q.enqueue ch cmd value id = some q')
    (huntagged : id = 0 → q.taggedProtocolEnabled = false)
    (hallowed : id ≠ 0 → q.taggedWriteAllowed) :
    Current (q'.afterEnqueue id).plain
      (accepted ++ if id ≠ 0 then [⟨id, ch, cmd, value⟩] else []) started := by
  obtain ⟨hq', hes⟩ := enqueue_eq hq
  have hitems : (q'.afterEnqueue id).plain.entries.items =
      q.plain.entries.items ++ [⟨.new, true, ch, cmd, id, value, .noResult, .success⟩] := by
    rw [plain_items, afterEnqueue_entries, hes, List.map_append,
      plain_items]
    rfl
  have hrec : (q'.afterEnqueue id).plain.recorded = q.plain.recorded := by
    show (q'.afterEnqueue id).recorded = q.recorded
    rw [afterEnqueue_recorded, hq']
    rfl
  have hempty (hid : id ≠ 0) : q.plain.entries.items = [] := by
    have h := hallowed hid
    simp only [taggedWriteAllowed, decide_eq_true_eq] at h
    have : q.plain.count = 0 := by
      rw [plain_count]
      omega
    exact List.length_eq_zero_iff.mp this
  by_cases hid : id = 0
  · have hafter : q'.afterEnqueue id = q' := if_pos hid
    have hoff : q.plain.taggedProtocolEnabled = false := huntagged hid
    cases h with
    | untagged ha hs hq hr hpr =>
        refine .untagged (by simp [ha, hid]) hs ?_ (by rw [hrec]; exact hr) ?_
        · intro e he
          rw [hitems, List.mem_append, List.mem_singleton] at he
          rcases he with he | rfl
          · exact hq e he
          · exact hid
        · rw [hafter, hq']
          exact hoff
    | queued _ _ _ _ _ _ _ _ hpr => rw [hoff] at hpr; cases hpr
    | retired _ _ _ _ _ hpr => rw [hoff] at hpr; cases hpr
  · rw [hempty hid] at hitems
    have hvalid : (q'.afterEnqueue id).plain.lastRvValid = false :=
      q'.afterEnqueue_lastRvValid hid
    have htagged : (q'.afterEnqueue id).plain.taggedProtocolEnabled = true :=
      q'.afterEnqueue_tagged hid
    rw [if_pos hid]
    cases h with
    | untagged ha hs hq hr hpr =>
        exact .queued _ [] hitems hid (by rw [ha]; rfl) hs (.inl (by rw [hrec]; exact hr)) hvalid
          htagged nofun
    | queued _ _ hi =>
        rw [hempty hid] at hi
        cases hi
    | retired older hi hid' ha hs hpr =>
        refine .queued _ accepted hitems hid rfl hs (.inr ?_) hvalid htagged nofun
        rw [hrec, ha, List.getLast?_append]
        rfl

end Current

/-! ## One step keeps the trace sound -/

namespace RficTrace

variable {t t' : RficTrace}

theorem start_sound : start.Sound where
  current := .untagged rfl rfl nofun rfl rfl
  acked := rfl

theorem Sound.work (h : t.Sound) {a : Adi} (hs : t.step (.work a) = some t') : t'.Sound := by
  simp only [step, Option.map_eq_some_iff, RficState.step] at hs
  obtain ⟨s', hs', rfl⟩ := hs
  split at hs'
  · cases hs'
  cases hs'
  -- both parts of the invariant are about the plain queue
  suffices h' : Current (t.state.commandWork a).queue.plain (t.accepted ++ [])
      (t.started ++ t.newlyStarted (.work a)) ∧
      LastAcked (t.state.commandWork a).queue.plain t.acked from ⟨h'.1, h'.2⟩
  rw [List.append_nil]
  rcases t.state.commandWork_queue a with ⟨hq, hrun⟩ | ⟨e, hp, ho, hcase⟩
  · have hnone : t.newlyStarted (.work a) = [] := by
      simp only [newlyStarted]
      split
      · rename_i e hp
        rw [if_neg]
        rintro ⟨hnew, hoff, -⟩
        have := hrun (by simpa using hoff) e hp
        rw [hnew] at this
        cases this
      · rfl
    rw [hnone, List.append_nil, hq]
    exact ⟨h.current, h.acked⟩
  · rcases hcase with ⟨he, hq⟩ | ⟨he, e', hc, hid, hch, hcmd, hv, hr, hq⟩ | ⟨he, hq⟩
    · have hstart : t.newlyStarted (.work a) = if e.transactionId ≠ 0 then [e.write] else [] := by
        simp [newlyStarted, hp, he, ho]
      rw [hstart, hq]
      exact ⟨h.current.start hp he, h.acked⟩
    · have hstart : t.newlyStarted (.work a) = [] := by simp [newlyStarted, hp, he]
      have hw : e'.write = e.write := by simp only [RficQueueEntry.write, hid, hch, hcmd, hv]
      rw [hstart, List.append_nil, hq]
      exact ⟨h.current.finish hp he hc hw hr, h.acked⟩
    · have hstart : t.newlyStarted (.work a) = [] := by simp [newlyStarted, hp, he]
      rw [hstart, List.append_nil, hq]
      exact ⟨h.current.retire hp he, h.acked⟩

theorem Sound.write (h : t.Sound) {addr : BitVec 16} {data : BitVec 64} {id : BitVec 16}
    (hs : t.step (.write addr data id) = some t') : t'.Sound := by
  cases hs
  rcases t.state.commandWriteAdmit_cases addr data id with
    ⟨hstate, hadm⟩ | ⟨hack, hdup, hr⟩ | ⟨hack, hm, -, hr⟩ | ⟨hack, -, hr⟩ |
      ⟨hack, -, huntagged, hallowed, q, hq, hr⟩
  · refine ⟨?_, ?_⟩
    · simpa [newlyAccepted, newlyStarted, hstate] using h.current
    · simpa [newlyAcked, hadm, hstate] using h.acked
  · refine ⟨?_, ?_⟩
    · simpa [newlyAccepted, newlyStarted, hr] using h.current
    · simp only [ackIsDuplicate, decide_eq_true_eq] at hdup
      simpa [newlyAcked, hack, hr, LastAcked] using hdup
  · refine ⟨?_, ?_⟩
    · simpa [newlyAccepted, newlyStarted, hr, count, clearResult]
        using h.current.ack hm
    · simp only [ackMatches, decide_eq_true_eq] at hm
      simpa [newlyAcked, hack, hr, LastAcked] using hm.2.2.1
  · refine ⟨?_, ?_⟩
    · simpa [newlyAccepted, newlyStarted, hr] using h.current
    · simpa [newlyAcked, hack, hr] using h.acked
  · obtain ⟨hq', hitems⟩ := enqueue_eq hq
    have hcount : (q.afterEnqueue id).count ≠ t.state.queue.count := by
      simp [count, hitems]
    refine ⟨?_, ?_⟩
    · simpa [newlyAccepted, newlyStarted, hr, hcount, sentWrite]
        using h.current.enqueue hq huntagged hallowed
    · have hacked : LastAcked (q.afterEnqueue id) t.acked := by
        unfold afterEnqueue
        rw [hq']
        split_ifs <;> exact h.acked
      simpa [newlyAcked, hack, hr] using hacked

theorem Sound.step (h : t.Sound) {act : RficAct} (hs : t.step act = some t') : t'.Sound := by
  cases act with
  | write addr data id => exact h.write hs
  | work a => exact h.work hs
  | _ =>
      obtain ⟨s', hs', rfl⟩ := Option.map_eq_some_iff.mp hs
      have hq := step_retune_plain hs' rfl
      refine ⟨?_, h.acked.plain_congr hq⟩
      simpa [newlyAccepted, newlyStarted] using h.current.plain_congr hq

/-! ## What the invariant says of the queue -/

end RficTrace

namespace RficQueue

variable {q : RficQueue}

theorem result_eq_some {r : LastResult} (h : q.result = some r) :
    q.lastRvValid = true ∧ q.recorded.id ≠ 0 ∧ r.write = q.recorded ∧
      r.sequence = q.lastRvSequence := by
  unfold result at h
  split at h
  · rename_i hc
    cases h
    exact ⟨hc.1, hc.2, rfl, rfl⟩
  · cases h

theorem findTransaction_eq_none {id : BitVec 16} {ch cmd : BitVec 8}
    {value : BitVec 64} (h : q.findTransaction id ch cmd value = none) (hid : id ≠ 0) :
    (∀ e ∈ q.entries.items, e.transactionId ≠ id) ∧ q.recorded.id ≠ id := by
  simp only [findTransaction, hid, if_false] at h
  split at h
  · cases h
  · rename_i hfind
    refine ⟨by simpa using hfind, ?_⟩
    intro hrec
    rw [if_pos (show q.lastRvTransactionId = id from hrec)] at h
    cases h

theorem findTransaction_eq_true {id : BitVec 16} {ch cmd : BitVec 8}
    {value : BitVec 64} (h : q.findTransaction id ch cmd value = some true) :
    (∃ e ∈ q.entries.items, e.write = ⟨id, ch, cmd, value⟩) ∨
      q.recorded = ⟨id, ch, cmd, value⟩ := by
  unfold findTransaction at h
  split at h
  · cases h
  · split at h
    · rename_i e hfind
      left
      refine ⟨e, List.mem_of_find?_eq_some hfind, ?_⟩
      have hid : e.transactionId = id := by simpa using List.find?_some hfind
      simp only [Option.some.injEq, sameCommand, decide_eq_true_eq] at h
      simp only [RficQueueEntry.write, hid, h.1, h.2.1, h.2.2]
    · split at h
      · rename_i hid
        right
        simp only [Option.some.injEq, decide_eq_true_eq] at h
        simp only [recorded, hid, h.1, h.2.1, h.2.2]
      · cases h

theorem mem_items_of_plain {e : RficQueueEntry} (h : q.plain.entries.items = [e]) :
    ∃ e', q.entries.items = [e'] ∧ e'.plain = e := by
  rw [plain_items] at h
  obtain ⟨e', es, hq, he, hes⟩ := List.map_eq_cons_iff.mp h
  rw [List.map_eq_nil_iff] at hes
  exact ⟨e', hes ▸ hq, he⟩

theorem items_nil_of_plain (h : q.plain.entries.items = []) :
    q.entries.items = [] := by
  rw [plain_items] at h
  exact List.map_eq_nil_iff.mp h

theorem tagged_of_nil (h : q.entries.items = []) : q.tagged = [] := by
  simp [tagged, h]

theorem waiting_of_nil (h : q.tagged = []) : q.waiting = [] := by
  simp [waiting, h]

theorem result_congr {q' : RficQueue} (h : q'.plain = q.plain) : q'.result = q.result := by
  have : q'.plain.result = q.plain.result := congrArg result h
  exact this

theorem peek_of_nil (h : q.entries.items = []) : q.peek = none := by
  simp [peek, Lib.Fifo.peek, h]

theorem items_nil_of_count (h : q.count = 0) : q.entries.items = [] :=
  List.length_eq_zero_iff.mp h

end RficQueue

namespace Current

variable {q : RficQueue} {accepted started : List TaggedWrite}

theorem of_result {r : LastResult} (h : Current q.plain accepted started)
    (hr : q.result = some r) :
    q.entries.items = [] ∧ q.taggedProtocolEnabled = true ∧ q.lastResultCode ≠ .noResult := by
  obtain ⟨hv, hid, -, -⟩ := result_eq_some hr
  cases h with
  | untagged _ _ _ hrec => exact absurd hrec hid
  | queued _ _ _ _ _ _ _ hrv =>
      have : q.lastRvValid = false := hrv
      rw [hv] at this
      cases this
  | retired _ hi _ _ _ hp hc => exact ⟨items_nil_of_plain hi, hp, hc hv⟩

theorem tagged_of_untagged (h : ∀ e ∈ q.plain.entries.items, e.transactionId = 0) :
    q.tagged = [] := by
  rw [tagged, List.filter_eq_nil_iff]
  intro e he
  have := h e.plain (plain_items q ▸ List.mem_map_of_mem he)
  simpa using this

section

variable (h : Current q.plain accepted started)

include h

theorem once : accepted = started ++ q.waiting := by
  cases h with
  | untagged ha hs hq =>
      rw [ha, hs, waiting_of_nil (tagged_of_untagged hq)]
      rfl
  | queued e older hi hid ha hs =>
      obtain ⟨e', hi', rfl⟩ := mem_items_of_plain hi
      rw [plain_transactionId] at hid
      rw [plain_write] at ha
      have htagged : q.tagged = [e'] := by
        rw [tagged, hi']
        exact List.filter_eq_self.mpr (by simpa using hid)
      rw [plain_state] at hs
      by_cases hnew : e'.state = .new
      · have hw : q.waiting = [e'.write] := by simp [waiting, htagged, hnew]
        rw [if_pos hnew] at hs
        rw [ha, hs, hw]
      · have hw : q.waiting = [] := by simp [waiting, htagged, hnew]
        rw [if_neg hnew] at hs
        rw [hs, hw, List.append_nil]
  | retired older hi hid ha hs =>
      rw [hs, waiting_of_nil (tagged_of_nil (items_nil_of_plain hi)),
        List.append_nil]

theorem waiting_of_head
    (hhead : ∀ e, q.peek = some e → e.state ≠ .new) : q.waiting = [] := by
  cases h with
  | untagged _ _ hq => exact waiting_of_nil (tagged_of_untagged hq)
  | queued e older hi =>
      obtain ⟨e', hi', rfl⟩ := mem_items_of_plain hi
      have := hhead e' (by simp [peek, Lib.Fifo.peek, hi'])
      by_cases hid : e'.transactionId = 0
      · simp [waiting, tagged, hi', hid]
      · simp [waiting, tagged, hi', this]
  | retired older hi =>
      exact waiting_of_nil (tagged_of_nil (items_nil_of_plain hi))

theorem tagged_of_retire {e : RficQueueEntry} :
    (q.retire e).tagged = [] := by
  cases h with
  | untagged _ _ hq =>
      have hall := tagged_of_untagged hq
      rw [tagged, List.filter_eq_nil_iff] at hall ⊢
      intro e₁ he₁
      exact hall e₁ (List.mem_of_mem_tail he₁)
  | queued e₁ older hi =>
      obtain ⟨e', hi', -⟩ := mem_items_of_plain hi
      refine tagged_of_nil ?_
      simp [RficQueue.retire, hi']
  | retired older hi =>
      refine tagged_of_nil ?_
      simp [RficQueue.retire, RficQueue.items_nil_of_plain hi]

theorem stopAndWait :
    q.tagged.length + q.result.toList.length ≤ 1 := by
  have hresult : q.result.toList.length ≤ 1 := by cases q.result <;> simp
  cases h with
  | untagged ha hs hq => simp [tagged_of_untagged hq, hresult]
  | queued e older hi hid ha hs ho hrv =>
      obtain ⟨e', hi', rfl⟩ := mem_items_of_plain hi
      have hnone : q.result = none := if_neg fun hc => by
        have : q.lastRvValid = false := hrv
        rw [hc.1] at this
        cases this
      have hlen : q.tagged.length ≤ 1 := by
        have := List.length_filter_le (fun e : RficQueueEntry => decide (e.transactionId ≠ 0)) [e']
        rw [tagged, hi']
        exact this
      simpa [hnone] using hlen
  | retired older hi =>
      simp [tagged_of_nil (items_nil_of_plain hi), hresult]

theorem find_newest {w : TaggedWrite}
    (hw : accepted.getLast? = some w) :
    w.id ≠ 0 ∧ q.findTransaction w.id w.ch w.cmd w.value ≠ none := by
  cases h with
  | untagged ha =>
      rw [ha] at hw
      cases hw
  | queued e older hi hid ha =>
      obtain ⟨e', hi', rfl⟩ := mem_items_of_plain hi
      rw [ha, List.getLast?_append, plain_write] at hw
      cases hw
      rw [plain_transactionId] at hid
      refine ⟨hid, ?_⟩
      intro hnone
      exact (findTransaction_eq_none hnone hid).1 e' (by simp [hi']) rfl
  | retired older hi hid ha =>
      rw [ha, List.getLast?_append] at hw
      cases hw
      refine ⟨hid, ?_⟩
      intro hnone
      exact (findTransaction_eq_none hnone hid).2 rfl

theorem of_find {w : TaggedWrite} (hid : w.id ≠ 0)
    (hf : q.findTransaction w.id w.ch w.cmd w.value = some true) :
    accepted.getLast? = some w ∨ accepted.dropLast.getLast? = some w ∧ q.tagged ≠ [] := by
  have hfound := findTransaction_eq_true hf
  cases h with
  | untagged ha hs hq hrec =>
      rcases hfound with ⟨e, he, hw⟩ | hw
      · have := hq e.plain (plain_items q ▸ List.mem_map_of_mem he)
        rw [plain_transactionId] at this
        exact absurd ((congrArg TaggedWrite.id hw).symm.trans this) hid
      · exact absurd ((congrArg TaggedWrite.id hw).symm.trans hrec) hid
  | queued e older hi hid₁ ha hs ho =>
      obtain ⟨e', hi', rfl⟩ := mem_items_of_plain hi
      rw [plain_write] at ha
      rcases hfound with ⟨e₁, he₁, hw⟩ | hw
      · rw [hi', List.mem_singleton] at he₁
        left
        rw [ha, List.getLast?_append, ← he₁, hw]
        rfl
      · right
        refine ⟨?_, ?_⟩
        · rcases ho with ho | ho
          · exact absurd ((congrArg TaggedWrite.id hw).symm.trans ho) hid
          · rw [ha, List.dropLast_concat, ho]
            exact congrArg some hw
        · rw [tagged, hi']
          rw [plain_transactionId] at hid₁
          simpa using hid₁
  | retired older hi hid₁ ha =>
      rcases hfound with ⟨e, he, -⟩ | hw
      · rw [items_nil_of_plain hi] at he
        cases he
      · left
        rw [ha, List.getLast?_append]
        exact congrArg some hw

end

end Current

namespace RficTrace

variable {t t' : RficTrace}

/-! ## Exactly once -/

structure ExactlyOnce (t : RficTrace) : Prop where
  /-- every queued tagged write starts once, in order -/
  once : t.accepted = t.started ++ t.state.queue.waiting
  /-- a turn of the worker starts what waits -/
  next : ∀ a t', t.step (.work a) = some t' → t.state.jobs.txQuadRetuneOwner = false →
    t'.state.queue.waiting = []
  /-- one tagged command is queued or unacknowledged -/
  stopAndWait : t.state.queue.tagged.length + t.state.queue.result.toList.length ≤ 1
  /-- a retry of the newest tagged write is queued by no one and changes nothing -/
  retry : ∀ addr data id, isResultAck addr = false →
    t.accepted.getLast? = some (sentWrite addr data id) →
    (t.state.commandWriteAdmit addr data id).1 = t.state
  /-- a tagged write that is accepted and not queued repeats one of the last two -/
  duplicate : ∀ addr data id, id ≠ 0 → isResultAck addr = false →
    t.state.commandWriteAdmit addr data id = (t.state, .accepted) →
    t.accepted.getLast? = some (sentWrite addr data id) ∨
      t.accepted.dropLast.getLast? = some (sentWrite addr data id) ∧
        t.state.queue.tagged ≠ []
  /-- a result stays as it is until it is acknowledged by name -/
  result : ∀ act t' r, t.step act = some t' → t.state.queue.result = some r →
    t'.state.queue.result = some r ∨
      ∃ addr data, act = .write addr data r.write.id ∧ isResultAck addr ∧
        data.setWidth 32 = r.sequence
  /-- the acknowledgement that names a result is accepted -/
  ackAccepted : ∀ addr data r, t.state.queue.result = some r → isResultAck addr →
    addressFieldsValid addr → data = r.sequence.setWidth 64 →
    (t.state.commandWriteAdmit addr data r.write.id).2 = .accepted
  /-- an acknowledgement clears the result it names and nothing else -/
  ack : ∀ addr data id, isResultAck addr → (t.state.commandWriteAdmit addr data id).1 ≠ t.state →
    ∃ r, t.state.queue.result = some r ∧ r.write.id = id ∧ r.sequence = data.setWidth 32
  /-- repeating the acknowledgement accepted last is accepted and changes nothing -/
  ackRetry : ∀ addr data id n, t.acked = some (id, n) → isResultAck addr →
    addressFieldsValid addr → data = n.setWidth 64 →
    t.state.commandWriteAdmit addr data id = (t.state, .accepted)

theorem commandWriteAdmit_ack (s : RficState) {addr : BitVec 16} {id : BitVec 16} (n : BitVec 32)
    (hack : isResultAck addr) (haddr : addressFieldsValid addr) (hid : id ≠ 0) :
    s.commandWriteAdmit addr (n.setWidth 64) id =
      ({ s with queue := (s.queue.ackResult id n).1 },
        if (s.queue.ackResult id n).2 then .accepted else .rejected) := by
  have hcmd : unpackCmd addr = bladerfRficCommandResultAck := by simpa [isResultAck] using hack
  have hhigh : (n.setWidth 64 : BitVec 64) >>> 32 = 0 := by
    apply BitVec.eq_of_toNat_eq
    simp only [BitVec.toNat_ushiftRight, BitVec.toNat_setWidth, Nat.shiftRight_eq_div_pow]
    have := n.isLt
    have h0 : (0 : BitVec 64).toNat = 0 := rfl
    rw [h0]
    omega
  have hlow : ((n.setWidth 64 : BitVec 64).setWidth 32 : BitVec 32) = n := by
    apply BitVec.eq_of_toNat_eq
    simp only [BitVec.toNat_setWidth]
    have := n.isLt
    omega
  unfold commandWriteAdmit
  simp only [haddr, hcmd, hhigh, hlow, Bool.not_true, Bool.false_eq_true, if_false, if_true,
    ne_eq, not_true_eq_false, false_or, hid]

theorem Sound.next (h : t.Sound) {a : Adi} (hs : t.step (.work a) = some t')
    (ho : t.state.jobs.txQuadRetuneOwner = false) : t'.state.queue.waiting = [] := by
  have hcur := (h.work hs).current
  obtain ⟨s', hs', rfl⟩ := Option.map_eq_some_iff.mp hs
  have hwork : s' = t.state.commandWork a := by
    simp only [RficState.step] at hs'
    split at hs' <;> cases hs'
    rfl
  subst hwork
  rcases t.state.commandWork_queue a with ⟨hq, hrun⟩ | ⟨e, hp, -, hcase⟩
  · refine hcur.waiting_of_head fun e he => ?_
    obtain ⟨e', he', hplain⟩ := peek_plain hq.symm he
    rw [← plain_state, ← hplain, plain_state, hrun ho e' he']
    intro hrunning
    cases hrunning
  · rcases hcase with ⟨-, hq⟩ | ⟨-, e', hc, -, -, -, -, -, hq⟩ | ⟨-, hq⟩
    · refine hcur.waiting_of_head fun e₁ he₁ => ?_
      rw [hq, peek, modifyHead, Lib.Fifo.peek_modifyHead] at he₁
      obtain ⟨e₂, -, rfl⟩ := Option.map_eq_some_iff.mp he₁
      intro hrunning
      cases hrunning
    · refine hcur.waiting_of_head fun e₁ he₁ => ?_
      have hitems := plain_items_of_peek he₁
      have hpeek : t.state.queue.plain.peek = some e.plain := by
        rw [peek, Lib.Fifo.peek, plain_items_of_peek hp]
        rfl
      rw [hq, modifyHead_items_of_peek _ hpeek, List.cons.injEq] at hitems
      rw [← plain_state, ← hitems.1, hc]
      intro hrunning
      cases hrunning
    · rw [hq]
      exact waiting_of_nil h.current.tagged_of_retire

theorem Sound.result (h : t.Sound) {act : RficAct} {r : LastResult} (hs : t.step act = some t')
    (hr : t.state.queue.result = some r) :
    t'.state.queue.result = some r ∨
      ∃ addr data, act = .write addr data r.write.id ∧ isResultAck addr ∧
        data.setWidth 32 = r.sequence := by
  obtain ⟨hv, hrid, hw, hseq⟩ := result_eq_some hr
  obtain ⟨hitems, htagged, -⟩ := h.current.of_result hr
  obtain ⟨s', hs', rfl⟩ := Option.map_eq_some_iff.mp hs
  cases act with
  | write addr data id =>
      cases hs'
      rcases t.state.commandWriteAdmit_cases addr data id with
        ⟨h', -⟩ | ⟨-, -, h'⟩ | ⟨hack, hm, -⟩ | ⟨-, -, h'⟩ | ⟨-, -, huntagged, hallowed, -⟩
      · exact .inl (by rw [h']; exact hr)
      · exact .inl (by rw [h']; exact hr)
      · simp only [ackMatches, decide_eq_true_eq] at hm
        refine .inr ⟨addr, data, ?_, hack, ?_⟩
        · rw [hw, ← hm.2.2.2.1]
          rfl
        · rw [hseq, hm.2.2.2.2]
      · exact .inl (by rw [h']; exact hr)
      · -- the result still occupies the one tagged slot
        exfalso
        by_cases hid : id = 0
        · rw [huntagged hid] at htagged
          cases htagged
        · have := hallowed hid
          rw [taggedWriteAllowed, if_pos ⟨hv, hrid⟩] at this
          simp at this
  | work a =>
      left
      simp only [RficState.step] at hs'
      split at hs' <;> cases hs'
      rcases t.state.commandWork_queue a with ⟨hq, -⟩ | ⟨e, hp, -⟩
      · rw [result_congr hq, hr]
      · rw [peek_of_nil hitems] at hp
        cases hp
  | _ =>
      left
      rw [result_congr (step_retune_plain hs' rfl), hr]

theorem Sound.exactlyOnce (h : t.Sound) : ExactlyOnce t where
  once := h.current.once
  next a t' hs ho := h.next hs ho
  stopAndWait := h.current.stopAndWait
  retry addr data id hack hw := by
    obtain ⟨hid, hfind⟩ := h.current.find_newest hw
    rcases t.state.commandWriteAdmit_cases addr data id with
      ⟨hr, -⟩ | ⟨-, -, hr⟩ | ⟨hack', -⟩ | ⟨-, -, hr⟩ | ⟨-, hnone, -⟩
    · exact hr
    · rw [hr]
    · rw [hack] at hack'
      cases hack'
    · rw [hr]
    · exact absurd hnone hfind
  duplicate addr data id hid hack hr := by
    rcases t.state.commandWriteAdmit_cases addr data id with
      ⟨-, hadm⟩ | ⟨hack', -⟩ | ⟨hack', -⟩ | ⟨-, hfind, -⟩ | ⟨-, -, -, -, q, hq, hr'⟩
    · rw [hr] at hadm
      exact absurd rfl hadm
    · rw [hack] at hack'
      cases hack'
    · rw [hack] at hack'
      cases hack'
    · exact h.current.of_find (w := sentWrite addr data id) hid hfind
    · -- the queue has grown
      rw [hr] at hr'
      have hqueue : t.state.queue = q.afterEnqueue id :=
        congrArg (fun r : RficState × WriteAdmission => r.1.queue) hr'
      have hitems := (enqueue_eq hq).2
      have := congrArg count hqueue
      simp [count, hitems] at this
  result act t' r hs hr := h.result hs hr
  ackAccepted addr data r hr hack haddr hdata := by
    obtain ⟨hv, hid, hw, hseq⟩ := result_eq_some hr
    obtain ⟨hitems, -, hcode⟩ := h.current.of_result hr
    have hm : t.state.queue.ackMatches r.write.id r.sequence = true := by
      rw [hw, hseq]
      simp only [ackMatches, decide_eq_true_eq]
      exact ⟨hv, by simp [count, hitems], hid, rfl, trivial⟩
    have hid' : r.write.id ≠ 0 := hw ▸ hid
    have hacc : (t.state.queue.ackResult r.write.id r.sequence).2 = true := by
      unfold ackResult
      rw [if_neg hid']
      split
      · rfl
      · rw [if_neg]
        simp [hm, hcode]
    rw [hdata, commandWriteAdmit_ack t.state r.sequence hack haddr hid', hacc]
    rfl
  ack addr data id hack hne := by
    rcases t.state.commandWriteAdmit_cases addr data id with
      ⟨hr, -⟩ | ⟨-, -, hr⟩ | ⟨-, hm, hcode, hr⟩ | ⟨hack', -⟩ | ⟨hack', -⟩
    · exact absurd hr hne
    · exact absurd (congrArg Prod.fst hr) hne
    · simp only [ackMatches, decide_eq_true_eq] at hm
      obtain ⟨hv, -, hid, hlast, hseq⟩ := hm
      exact ⟨_, if_pos ⟨hv, by rw [hlast]; exact hid⟩, hlast, hseq⟩
    · rw [hack] at hack'
      cases hack'
    · rw [hack] at hack'
      cases hack'
  ackRetry addr data id n hacked hack haddr hdata := by
    have hlast : LastAcked t.state.queue (some (id, n)) := hacked ▸ h.acked
    obtain ⟨hid, hlid, hseq⟩ := hlast
    have hdup : t.state.queue.ackResult id n = (t.state.queue, true) := by
      unfold ackResult
      rw [if_neg hid, if_pos]
      simp [ackIsDuplicate, hlid, hseq]
      exact hid
    rw [hdata, commandWriteAdmit_ack t.state n hack haddr hid, hdup]
    rfl

/-- Tagged writes execute exactly once, whatever is retried, acknowledged or
polled in between. -/
theorem rfic_tagged_writes_execute_once {acts : List RficAct} {t : RficTrace}
    (hrun : Lib.Steps step (fun _ _ => True) start acts t) : ExactlyOnce t :=
  (hrun.invariant start_sound (fun h _ hs => h.step hs)).exactlyOnce

def initOff (id : BitVec 16) : RficAct := .write 0x0f01 0 id

def resultAck (id : BitVec 16) (n : BitVec 64) : RficAct := .write 0x0f0e n id

def threeTurns : List RficAct := [.work Adi.calm, .work Adi.calm, .work Adi.calm]

/-- One command, retried before, during and after its execution. -/
theorem rfic_tagged_writes_execute_once_retried :
    ∃ t, Lib.exec step (fun _ _ => True) start
        ([initOff 1, initOff 1, .work Adi.calm, initOff 1, .work Adi.calm, .work Adi.calm,
          initOff 1, resultAck 1 1, initOff 1, resultAck 1 1]) = some t ∧
      t.started = [⟨1, 0x0f, 1, 0⟩] ∧ ExactlyOnce t := by
  have hrun : Lib.exec step (fun _ _ => True) start
      ([initOff 1, initOff 1, .work Adi.calm, initOff 1, .work Adi.calm, .work Adi.calm,
        initOff 1, resultAck 1 1, initOff 1, resultAck 1 1]) = some _ := rfl
  exact ⟨_, hrun, rfl, rfic_tagged_writes_execute_once (Lib.Steps.of_exec hrun)⟩

/-- A write that comes back after another command has been acknowledged is
executed again, and its acknowledgement is refused. -/
theorem rfic_tagged_write_forgotten :
    ∃ t, Lib.Steps step (fun _ _ => True) start
        ([initOff 1] ++ threeTurns ++ [resultAck 1 1, initOff 2] ++ threeTurns ++
          [resultAck 2 2, initOff 1, .work Adi.calm]) t ∧
      t.started.count ⟨1, 0x0f, 1, 0⟩ = 2 ∧
      (t.state.commandWriteAdmit 0x0f0e 1 1).2 = .rejected :=
  ⟨_, Lib.Steps.of_exec rfl, by decide, rfl⟩

/-- Once a tagged write was accepted, an untagged one is never queued again. -/
theorem tagged_protocol_stays {acts : List RficAct} {t : RficTrace}
    (hrun : Lib.Steps step (fun _ _ => True) start acts t) (ha : t.accepted ≠ []) :
    (∀ e ∈ t.state.queue.entries.items, e.transactionId ≠ 0) ∧
      ∀ addr data, (t.state.commandWriteAdmit addr data 0).1 = t.state ∧
        (t.state.commandWriteAdmit addr data 0).2 ≠ .accepted := by
  have hsound : t.Sound := hrun.invariant start_sound (fun h _ hs => h.step hs)
  have hqueue : t.state.queue.taggedProtocolEnabled = true ∧
      ∀ e ∈ t.state.queue.plain.entries.items, e.transactionId ≠ 0 := by
    cases hsound.current with
    | untagged hempty => exact absurd hempty ha
    | queued e older hi hid _ _ _ _ hp => 
        rw [hi]
        exact ⟨hp, fun e' he => List.mem_singleton.mp he ▸ hid⟩
    | retired older hi _ _ _ hp => 
        rw [hi]
        exact ⟨hp, fun _ he => absurd he List.not_mem_nil⟩
  constructor
  · intro e he
    have hmem : e.plain ∈ t.state.queue.plain.entries.items := by
      rw [plain_items]
      exact List.mem_map_of_mem he
    have := hqueue.2 e.plain hmem
    rwa [plain_transactionId] at this
  · intro addr data
    rcases t.state.commandWriteAdmit_cases addr data 0 with
      hsame | ⟨-, hdup, -⟩ | ⟨-, hm, -, -⟩ | ⟨-, hfound, -⟩ | ⟨-, -, hzero, -⟩
    · exact hsame
    · simp [ackIsDuplicate] at hdup
    · simp [ackMatches] at hm
    · simp [findTransaction] at hfound
    · exact absurd (hqueue.1.symm.trans (hzero rfl)) (by decide)

/-- One tagged write, and from then on no untagged one. -/
theorem tagged_protocol_stays_after_one :
    ∃ t, Lib.exec step (fun _ _ => True) start [initOff 1] = some t ∧
      ∀ addr data, (t.state.commandWriteAdmit addr data 0).2 ≠ .accepted := by
  have hrun : Lib.exec step (fun _ _ => True) start [initOff 1] = some _ := rfl
  refine ⟨_, hrun, fun addr data => ?_⟩
  exact ((tagged_protocol_stays (Lib.Steps.of_exec hrun) (List.cons_ne_nil _ _)).2 addr data).2

end RficTrace
end BladeRF
