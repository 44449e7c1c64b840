/-
# `Nios.AtMostOnce` — a command is dispatched at most once

A request is open from its capture to the moment it is answered or retired.
`Handled` says what the flags of the packet buffer mean for the newest request:
while the interrupt is on nothing is open; a request the hook or the main loop
could still dispatch has not run; and an open request has no frame yet.

One path of the main loop does not look at `response_prepared`: a response that
the UART refused twice, with no RFIC owner about, leaves the buffer ready and
without the arrival fence, and the next turn executes the request again.  Every
run that never takes this path keeps `Handled`.
-/
import BladeRF.Nios.Dispatch

namespace BladeRF
namespace NiosLoop

/-! ## What is claimed of a state -/

structure AtMostOnce (s : NiosLoop) : Prop where
  ran : s.ran.Nodup
  answered : (s.frames.map (·.request)).Nodup
  sessions : ∀ f ∈ s.frames, s.requests[f.request]? = some f.session
  fenced : s.uart.isrEnabled → ∀ i < s.requests.length, i ∈ s.settled

/-- The main loop does not execute a request whose response is prepared. -/
def preparedNotExecuted (s : NiosLoop) : LoopAct → Bool
  | .main _ _ _ => !(s.dispatches ∧ s.pkt.responsePrepared)
  | _ => true

/-! ## The invariant -/

structure Quiet (s : NiosLoop) : Prop where
  ready : s.pkt.ready = false
  deferred : s.deferredResponsePkt = false
  servicing : s.servicing = false
  settled : ∀ i < s.requests.length, i ∈ s.settled

structure Open (s : NiosLoop) : Prop where
  isr : s.uart.isrEnabled = false
  fault : s.uart.faultLatched = false
  newest : s.pkt.request + 1 = s.requests.length
  session : s.requests[s.pkt.request]? = some s.pkt.sessionGeneration
  unsettled : s.pkt.request ∉ s.settled

/-- The histories speak of captured requests, each at most once. -/
structure Histories (s : NiosLoop) : Prop where
  ran : s.ran.Nodup
  ran_lt : ∀ i ∈ s.ran, i < s.requests.length
  answered : (s.frames.map (·.request)).Nodup
  frames_settled : ∀ f ∈ s.frames, f.request ∈ s.settled
  sessions : ∀ f ∈ s.frames, s.requests[f.request]? = some f.session
  settled_lt : ∀ i ∈ s.settled, i < s.requests.length
  older : ∀ i < s.requests.length, i ≠ s.pkt.request → i ∈ s.settled

/-- What the flags say about the newest request, wherever `main` stands. -/
structure Handled (s : NiosLoop) : Prop where
  hist : Histories s
  fault : s.uart.faultLatched = true → s.uart.isrEnabled = false
  quiet : s.uart.isrEnabled = true ∨ s.uart.faultLatched = true → Quiet s
  ready : s.pkt.ready = true → Open s ∧ s.deferredResponsePkt = false
  fresh : s.pkt.ready = true → s.pkt.responsePrepared = false → s.servicing = false →
    s.pkt.request ∉ s.ran
  servicing : s.servicing = true → s.pkt.ready = true
  deferred : s.deferredResponsePkt = true → Open s ∧ s.pkt.ready = false

/-- What the place of `main` adds: inside a handler the request is nobody
else's, and after an invalid magic there is no request. -/
structure Placed (s : NiosLoop) : Prop where
  exec : s.pc = .exec → Open s ∧ s.pkt.ready = false ∧ s.deferredResponsePkt = false ∧
    s.servicing = false
  discard : s.pc = .pass true ∨ (∃ k, s.pc = .doWork k true) →
    Quiet s ∧ s.uart.isrEnabled = false

/-! ## Quiet states -/

variable {s : NiosLoop}

theorem Quiet.handled (h : Quiet s) (hh : Histories s)
    (hf : s.uart.faultLatched = true → s.uart.isrEnabled = false) : Handled s where
  hist := hh
  fault := hf
  quiet _ := h
  ready hr := by simp [h.ready] at hr
  fresh hr := by simp [h.ready] at hr
  servicing hs := by simp [h.servicing] at hs
  deferred hd := by simp [h.deferred] at hd

theorem Handled.retire (h : Handled s) (hr : s.pkt.ready = true)
    (hs : s.servicing = false) : Quiet s.retirePkt ∧ Histories s.retirePkt := by
  obtain ⟨hopen, hdef⟩ := h.ready hr
  have hlast := hopen.newest
  constructor
  · refine ⟨rfl, hdef, hs, fun i hi => ?_⟩
    by_cases hi' : i = s.pkt.request
    · exact hi' ▸ List.mem_cons_self ..
    · exact List.mem_cons_of_mem _ (h.hist.older i hi hi')
  · exact
      { ran := h.hist.ran
        ran_lt := h.hist.ran_lt
        answered := h.hist.answered
        frames_settled := fun f hf => List.mem_cons_of_mem _ (h.hist.frames_settled f hf)
        sessions := h.hist.sessions
        settled_lt := fun i hi => by
          rcases List.mem_cons.mp hi with rfl | hi
          · show s.pkt.request < s.requests.length
            omega
          · exact h.hist.settled_lt i hi
        older := fun i hi hne => List.mem_cons_of_mem _ (h.hist.older i hi hne) }

theorem Quiet.withUart (h : Quiet s) (u : CommandUart) :
    Quiet { s with uart := u } :=
  ⟨h.ready, h.deferred, h.servicing, h.settled⟩

theorem Histories.withUart (h : Histories s) (u : CommandUart) :
    Histories { s with uart := u } :=
  ⟨h.ran, h.ran_lt, h.answered, h.frames_settled, h.sessions, h.settled_lt, h.older⟩

theorem enableIsr_fault {u : CommandUart} (h : u.faultLatched = true → u.isrEnabled = false) :
    u.enableIsr.faultLatched = true → u.enableIsr.isrEnabled = false := by
  unfold CommandUart.enableIsr
  split
  · exact h
  · rename_i hf
    intro hf'
    exact absurd hf' hf

theorem Handled.release (h : Handled s) (hr : s.pkt.ready = true)
    (hs : s.servicing = false) (o : Owners) :
    Quiet (s.release o) ∧ Histories (s.release o) ∧
      ((s.release o).uart.faultLatched = true → (s.release o).uart.isrEnabled = false) := by
  obtain ⟨hq, hh⟩ := h.retire hr hs
  exact ⟨hq.withUart _, hh.withUart _, enableIsr_fault h.fault⟩

theorem Histories.frame {t : NiosLoop} (h : Histories t) (hs : Handled s)
    (hr : s.pkt.ready = true) (hf : t.frames = s.frames) (hreq : t.requests = s.requests)
    (hset : s.pkt.request ∈ t.settled) :
    Histories { t with frames := ⟨s.pkt.request, s.pkt.sessionGeneration⟩ :: s.frames } := by
  obtain ⟨hopen, -⟩ := hs.ready hr
  refine ⟨h.ran, h.ran_lt, ?_, ?_, ?_, h.settled_lt, h.older⟩
  · show (s.pkt.request :: s.frames.map (·.request)).Nodup
    refine List.nodup_cons.mpr ⟨fun hmem => ?_, hs.hist.answered⟩
    obtain ⟨f, hf', heq⟩ := List.mem_map.mp hmem
    exact hopen.unsettled (heq ▸ hs.hist.frames_settled f hf')
  · intro f hf'
    rcases List.mem_cons.mp hf' with rfl | hf'
    · exact hset
    · exact h.frames_settled f (hf ▸ hf')
  · intro f hf'
    show t.requests[f.request]? = some f.session
    rw [hreq]
    rcases List.mem_cons.mp hf' with rfl | hf'
    · exact hopen.session
    · exact hs.hist.sessions f hf'

/-! ## The parts of a step -/

theorem Handled.retryPrepared (h : Handled s) (hs : s.servicing = false)
    (o : Owners) (w : TryPublish) : Handled (s.retryPrepared o w) := by
  unfold NiosLoop.retryPrepared
  split
  · rename_i hrp
    obtain ⟨hq, hh, hf⟩ := h.release hrp.1 hs o
    split
    · exact hq.handled hh hf
    · cases w with
      | ok =>
          refine Quiet.handled ⟨hq.ready, hq.deferred, hq.servicing, hq.settled⟩ ?_ hf
          exact hh.frame h hrp.1 rfl rfl (List.mem_cons_self ..)
      | stale => exact hq.handled hh hf
      | backpressure => exact h
      | error =>
          obtain ⟨hq', hh'⟩ := h.retire hrp.1 hs
          exact (hq'.withUart _).handled (hh'.withUart _) (fun _ => rfl)
  · exact h

theorem retryPrepared_of_not_ready (h : s.pkt.ready = false) (o : Owners)
    (w : TryPublish) : s.retryPrepared o w = s := by
  simp [NiosLoop.retryPrepared, h]

/-- Busy bit, arrival fence and place of `main`: what `marked` changes is no
part of the evidence. -/
def marked (s : NiosLoop) (b f : Bool) (pc : MainPc) : NiosLoop :=
  { s with
    pkt := { s.pkt with deferredWorkActiveAtAccept := f }
    uart := { s.uart with workerBusy := b }
    pc := pc }

theorem Open.marked (h : Open s) (b f : Bool) (pc : MainPc) :
    Open (s.marked b f pc) :=
  ⟨h.isr, h.fault, h.newest, h.session, h.unsettled⟩

theorem Quiet.marked (h : Quiet s) (b f : Bool) (pc : MainPc) :
    Quiet (s.marked b f pc) :=
  ⟨h.ready, h.deferred, h.servicing, h.settled⟩

theorem Handled.marked (h : Handled s) (b f : Bool) (pc : MainPc) :
    Handled (s.marked b f pc) where
  hist := ⟨h.hist.ran, h.hist.ran_lt, h.hist.answered, h.hist.frames_settled, h.hist.sessions,
    h.hist.settled_lt, h.hist.older⟩
  fault := h.fault
  quiet hq := (h.quiet hq).marked b f pc
  ready hr := ⟨(h.ready hr).1.marked b f pc, (h.ready hr).2⟩
  fresh := h.fresh
  servicing := h.servicing
  deferred hd := ⟨(h.deferred hd).1.marked b f pc, (h.deferred hd).2⟩

theorem beginDeferredWorker_marked (s : NiosLoop) (o : Owners) :
    ∃ b f, s.beginDeferredWorker o = s.marked b f s.pc := by
  unfold beginDeferredWorker
  dsimp only
  split
  · exact ⟨_, true, rfl⟩
  · exact ⟨_, s.pkt.deferredWorkActiveAtAccept, rfl⟩

theorem endDeferredWorker_marked (s : NiosLoop) (o : Owners) :
    ∃ b f, s.endDeferredWorker o = s.marked b f s.pc := by
  unfold endDeferredWorker
  dsimp only
  split
  · exact ⟨_, true, rfl⟩
  · exact ⟨_, s.pkt.deferredWorkActiveAtAccept, rfl⟩

/-! ## The safe-point hook -/

theorem service_of_not_ready (h : s.pkt.ready = false) (o : Owners)
    (w : TryPublish) : s.service o w = s := by
  simp [service, h]

theorem Handled.dispatch (h : Handled s) (hr : s.pkt.ready = true)
    (hs : s.servicing = false) (hp : s.pkt.responsePrepared = false) :
    Histories { s with ran := s.pkt.request :: s.ran } := by
  obtain ⟨hopen, -⟩ := h.ready hr
  have hlast := hopen.newest
  refine ⟨?_, ?_, h.hist.answered, h.hist.frames_settled, h.hist.sessions, h.hist.settled_lt,
    h.hist.older⟩
  · exact List.nodup_cons.mpr ⟨h.fresh hr hp hs, h.hist.ran⟩
  · intro i hi
    rcases List.mem_cons.mp hi with rfl | hi
    · show s.pkt.request < s.requests.length
      omega
    · exact h.hist.ran_lt i hi

theorem Handled.service (h : Handled s) (o : Owners) (w : TryPublish) :
    Handled (s.service o w) := by
  unfold NiosLoop.service
  split
  · exact h
  rename_i hs
  rw [Bool.not_eq_true] at hs
  split
  · exact h
  rename_i hr
  simp only [Bool.not_eq_true', Bool.not_eq_false] at hr
  split
  · obtain ⟨hq, hh, hf⟩ := h.release hr hs o
    exact hq.handled hh hf
  split
  · exact h
  have hm : Handled (s.marked s.uart.workerBusy false s.pc) := h.marked _ _ _
  dsimp only
  split
  · exact hm.retryPrepared hs o w
  rename_i hp
  rw [Bool.not_eq_true] at hp
  split
  · exact hm
  · have hd := hm.dispatch hr hs hp
    exact
      { hist := ⟨hd.ran, hd.ran_lt, hd.answered, hd.frames_settled, hd.sessions, hd.settled_lt,
          hd.older⟩
        fault := h.fault
        quiet := fun hq => absurd (h.quiet hq).ready (by simp [hr])
        ready := fun _ => ⟨⟨(h.ready hr).1.isr, (h.ready hr).1.fault, (h.ready hr).1.newest,
          (h.ready hr).1.session, (h.ready hr).1.unsettled⟩, (h.ready hr).2⟩
        fresh := fun _ _ hserv => absurd hserv (by simp)
        servicing := fun _ => hr
        deferred := fun hdef => absurd (h.deferred hdef).2 (by simp [hr]) }

theorem Handled.serviceReturn (h : Handled s) (hs : s.servicing = true)
    (o : Owners) (w : TryPublish) : Handled (s.serviceReturn o w) := by
  have hr := h.servicing hs
  refine Handled.retryPrepared ?_ rfl o w
  exact
    { hist := ⟨h.hist.ran, h.hist.ran_lt, h.hist.answered, h.hist.frames_settled,
        h.hist.sessions, h.hist.settled_lt, h.hist.older⟩
      fault := h.fault
      quiet := fun hq => absurd (h.quiet hq).servicing (by simp [hs])
      ready := fun _ => ⟨⟨(h.ready hr).1.isr, (h.ready hr).1.fault, (h.ready hr).1.newest,
        (h.ready hr).1.session, (h.ready hr).1.unsettled⟩, (h.ready hr).2⟩
      fresh := fun _ hp => absurd hp (by simp)
      servicing := fun hserv => absurd hserv (by simp)
      deferred := fun hdef => absurd (h.deferred hdef).2 (by simp [hr]) }

/-! ## The main loop -/

/-- A place of `main` that asks for nothing. -/
def Free (pc : MainPc) : Prop :=
  pc ≠ .exec ∧ pc ≠ .pass true ∧ ∀ k, pc ≠ .doWork k true

theorem Placed.of_free (h : Free s.pc) : Placed s where
  exec hp := absurd hp h.1
  discard hp := by
    rcases hp with hp | ⟨k, hp⟩
    · exact absurd hp h.2.1
    · exact absurd hp (h.2.2 k)

theorem free_pass : Free (.pass false) := ⟨by simp, by simp, by simp⟩
theorem free_top : Free .top := ⟨by simp, by simp, by simp⟩
theorem free_revisit : Free .revisit := ⟨by simp, by simp, by simp⟩

section

variable (h : Handled s)

include h

theorem Handled.goto {pc : MainPc} (hpc : Free pc) :
    Handled { s with pc := pc } ∧ Placed { s with pc := pc } :=
  ⟨h.marked s.uart.workerBusy s.pkt.deferredWorkActiveAtAccept pc, Placed.of_free hpc⟩

theorem Handled.top :
    Handled { s with uart := s.uart.checkSessionRecovery, pc := .poll } ∧
      Placed { s with uart := s.uart.checkSessionRecovery, pc := .poll } := by
  refine ⟨?_, Placed.of_free ⟨by simp, by simp, by simp⟩⟩
  unfold CommandUart.checkSessionRecovery
  split
  · rename_i hl
    -- a latched fault means that nothing is open, so the interrupt may come back
    obtain ⟨hready, hdef, hserv, hset⟩ := h.quiet (.inr hl.1)
    refine Quiet.handled ⟨hready, hdef, hserv, hset⟩ ?_ (fun hf => absurd hf (by simp))
    exact ⟨h.hist.ran, h.hist.ran_lt, h.hist.answered, h.hist.frames_settled, h.hist.sessions,
      h.hist.settled_lt, h.hist.older⟩
  · exact (h.goto (show Free .poll from ⟨by simp, by simp, by simp⟩)).1

theorem Handled.poll (hs : s.servicing = false) (hpc : s.pc = .poll)
    (hok : ¬(s.dispatches = true ∧ s.pkt.responsePrepared = true)) (o : Owners) (w : TryPublish) :
    Handled (s.poll o w) ∧ Placed (s.poll o w) := by
  unfold NiosLoop.poll
  split
  · exact h.goto free_pass
  rename_i hr
  simp only [Bool.not_eq_true', Bool.not_eq_false] at hr
  obtain ⟨hopen, hdef⟩ := h.ready hr
  split
  · obtain ⟨hq, hh⟩ := h.retire hr hs
    exact ((hq.withUart _).handled (hh.withUart _) (enableIsr_fault h.fault)).goto free_pass
  rename_i hsession
  split
  · exact (h.service o w).goto free_pass
  rename_i hfence
  split
  · rename_i hmagic
    -- the only place where the main loop runs a request
    have hp : s.pkt.responsePrepared = false := by
      rw [← Bool.not_eq_true]
      intro hp
      refine hok ⟨?_, hp⟩
      simp only [ne_eq, not_not] at hsession
      simp [dispatches, hpc, hr, hsession, hfence, hmagic]
    have hd := h.dispatch hr hs hp
    have hopen' : ∀ ran ready, Open
        { s with
          pkt := { s.pkt with ready := ready }
          uart := { s.uart with workerBusy := true }
          ran := ran
          pc := .exec } :=
      fun _ _ => ⟨hopen.isr, hopen.fault, hopen.newest, hopen.session, hopen.unsettled⟩
    refine ⟨?_, ⟨fun _ => ⟨hopen' _ _, rfl, hdef, hs⟩, fun hp => by simp at hp⟩⟩
    exact
      { hist := ⟨hd.ran, hd.ran_lt, hd.answered, hd.frames_settled, hd.sessions, hd.settled_lt,
          hd.older⟩
        fault := h.fault
        quiet := fun hq => absurd (h.quiet hq).ready (by simp [hr])
        ready := fun hready => absurd hready (by simp)
        fresh := fun hready => absurd hready (by simp)
        servicing := fun hserv => absurd hserv (by simp [hs])
        deferred := fun hdef' => absurd hdef' (by simp [hdef]) }
  · obtain ⟨hq, hh⟩ := h.retire hr hs
    have hquiet : Quiet
        { s with
          pkt := { s.pkt with ready := false }
          settled := s.pkt.request :: s.settled
          pc := .pass true } := ⟨rfl, hq.deferred, hq.servicing, hq.settled⟩
    refine ⟨hquiet.handled ?_ h.fault, ⟨fun hp => by simp at hp, fun _ => ⟨hquiet, hopen.isr⟩⟩⟩
    exact ⟨hh.ran, hh.ran_lt, hh.answered, hh.frames_settled, hh.sessions, hh.settled_lt,
      hh.older⟩

theorem Handled.execReturn (hp : Placed s) (hpc : s.pc = .exec)
    (o : Owners) (w : TryPublish) (retained : Bool) :
    Handled (s.execReturn o w retained) ∧ Placed (s.execReturn o w retained) := by
  obtain ⟨hopen, hready, hdef, hserv⟩ := hp.exec hpc
  have hist : ∀ {pkt : PktBuf} {d : Bool}, pkt.request = s.pkt.request →
      Histories { s with pkt := pkt, deferredResponsePkt := d } := by
    intro pkt d heq
    exact ⟨h.hist.ran, h.hist.ran_lt, h.hist.answered, h.hist.frames_settled, h.hist.sessions,
      h.hist.settled_lt, heq ▸ h.hist.older⟩
  have opened : ∀ {f p r : Bool} {d e : Bool},
      Open { s with
        pkt := { s.pkt with
          deferredWorkActiveAtAccept := f
          responsePrepared := p
          responseDeferred := d
          ready := r }
        deferredResponsePkt := e } :=
    ⟨hopen.isr, hopen.fault, hopen.newest, hopen.session, hopen.unsettled⟩
  have noisr : ¬(s.uart.isrEnabled = true ∨ s.uart.faultLatched = true) := by
    simp [hopen.isr, hopen.fault]
  unfold NiosLoop.execReturn
  by_cases hret : retained ∧ s.pkt.req.byte 0 = niosPktRetune2Magic
  · -- the queue entry answers later
    simp only [hret, and_self, if_true]
    have hkept : Handled
        { s with
          pkt := { s.pkt with
            responseDeferred := true
            ready := false
            deferredWorkActiveAtAccept := false }
          deferredResponsePkt := true } :=
      { hist := hist rfl
        fault := h.fault
        quiet := fun hq => absurd hq noisr
        ready := fun hr => absurd hr (by simp)
        fresh := fun hr => absurd hr (by simp)
        servicing := fun hs => absurd hs (by simp [hserv])
        deferred := fun _ => ⟨opened, rfl⟩ }
    exact hkept.goto free_pass
  · simp only [hret, if_false]
    split
    · have hleft : Handled
          { s with pkt := { s.pkt with
              ready := false
              deferredWorkActiveAtAccept := false } } :=
        { hist := hist rfl
          fault := h.fault
          quiet := fun hq => absurd hq noisr
          ready := fun hr => absurd hr (by simp)
          fresh := fun hr => absurd hr (by simp)
          servicing := fun hs => absurd hs (by simp [hserv])
          deferred := fun hd => absurd hd (by simp [hdef]) }
      exact hleft.goto free_pass
    · have hprepared : Handled
          { s with pkt := { s.pkt with
              responsePrepared := true
              ready := true
              deferredWorkActiveAtAccept := false } } :=
        { hist := hist rfl
          fault := h.fault
          quiet := fun hq => absurd hq noisr
          ready := fun _ => ⟨opened, hdef⟩
          fresh := fun _ hprep => absurd hprep (by simp)
          servicing := fun hs => absurd hs (by simp [hserv])
          deferred := fun hd => absurd hd (by simp [hdef]) }
      exact (hprepared.retryPrepared hserv o w).goto free_pass

theorem Handled.passEnd (hs : s.servicing = false) (o : Owners)
    (w : TryPublish) (discard : Bool) (hq : discard = true → Quiet s) :
    Handled (s.passEnd o w discard) ∧ Placed (s.passEnd o w discard) := by
  unfold NiosLoop.passEnd
  dsimp only
  split
  · rename_i hdis
    have hquiet := hq hdis
    rw [retryPrepared_of_not_ready hquiet.ready]
    exact ((hquiet.withUart _).handled (h.hist.withUart _) (enableIsr_fault h.fault)).goto free_top
  · exact (h.retryPrepared hs o w).goto free_revisit

theorem Handled.work (o : Owners) (k : Worker) (discard : Bool)
    (hq : discard = true → Quiet s ∧ s.uart.isrEnabled = false) :
    Handled { s.beginDeferredWorker o with pc := .doWork k discard } ∧
      Placed { s.beginDeferredWorker o with pc := .doWork k discard } := by
  obtain ⟨b, f, heq⟩ := beginDeferredWorker_marked s o
  rw [heq]
  refine ⟨h.marked b f _, ⟨fun hp => by simp at hp, fun hp => ?_⟩⟩
  have hdis : discard = true := by
    rcases hp with hp | ⟨k', hp⟩
    · simp at hp
    · simp only [MainPc.doWork.injEq] at hp
      exact hp.2
  exact ⟨(hq hdis).1.marked b f _, (hq hdis).2⟩

theorem Handled.workReturn (hs : s.servicing = false) (o : Owners)
    (w : TryPublish) (k : Worker) (discard : Bool)
    (hq : discard = true → Quiet s ∧ s.uart.isrEnabled = false) :
    Handled (s.workReturn o w k discard) ∧ Placed (s.workReturn o w k discard) := by
  obtain ⟨b, f, heq⟩ := endDeferredWorker_marked s o
  have hm : Handled (s.marked b f s.pc) := h.marked b f _
  have hqm : discard = true →
      Quiet (s.marked b f s.pc) ∧ (s.marked b f s.pc).uart.isrEnabled = false :=
    fun hd => ⟨(hq hd).1.marked b f _, (hq hd).2⟩
  unfold NiosLoop.workReturn
  dsimp only
  rw [heq]
  cases k with
  | retune2Owner => exact hm.passEnd hs o w discard (fun hd => (hqm hd).1)
  | retune2Last =>
      exact (h.marked _ f s.pc).passEnd hs o w discard (fun hd => (hq hd).1.marked _ f _)
  | rfic =>
      dsimp only
      split
      · split
        · exact hm.work o _ discard hqm
        · exact hm.passEnd hs o w discard (fun hd => (hqm hd).1)
      · exact hm.work o _ discard hqm

theorem Handled.mainStep (hp : Placed s) (hs : s.servicing = false)
    (hok : ¬(s.dispatches = true ∧ s.pkt.responsePrepared = true)) (o : Owners) (w : TryPublish)
    (retained : Bool) :
    Handled (s.mainStep o w retained) ∧ Placed (s.mainStep o w retained) := by
  unfold NiosLoop.mainStep
  cases hpc : s.pc with
  | top => exact h.top
  | poll => exact h.poll hs hpc hok o w
  | exec => exact h.execReturn hp hpc o w retained
  | pass discard =>
      exact h.work o _ discard (fun hd => hp.discard (.inl (hd ▸ hpc)))
  | doWork k discard =>
      exact h.workReturn hs o w k discard (fun hd => hp.discard (.inr ⟨k, hd ▸ hpc⟩))
  | revisit =>
      dsimp only
      split
      · exact (h.service o w).goto free_top
      · exact h.goto free_top

end

/-! ## Runs -/

theorem Handled.commandUartIsr (h : Handled s) (hisr : s.uart.isrEnabled = true)
    (req : Packet) (session : ℕ) (fence : Bool) : Handled (s.commandUartIsr req session fence) := by
  obtain ⟨hready, hdef, hserv, hset⟩ := h.quiet (.inl hisr)
  have hlen : (s.requests ++ [session]).length = s.requests.length + 1 := by simp
  have hfault : s.uart.faultLatched = false := by
    by_contra hf
    rw [Bool.not_eq_false] at hf
    exact absurd (h.fault hf) (by simp [hisr])
  have hnew : ∀ i ∈ s.settled, i ≠ s.requests.length :=
    fun i hi => Nat.ne_of_lt (h.hist.settled_lt i hi)
  have hopen : Open (s.commandUartIsr req session fence) :=
    { isr := rfl
      fault := hfault
      newest := hlen.symm
      session := by simp [NiosLoop.commandUartIsr]
      unsettled := fun hi => hnew _ hi rfl }
  exact
    { hist :=
        { ran := h.hist.ran
          ran_lt := fun i hi => hlen ▸ Nat.lt_succ_of_lt (h.hist.ran_lt i hi)
          answered := h.hist.answered
          frames_settled := h.hist.frames_settled
          sessions := fun f hf => by
            show (s.requests ++ [session])[f.request]? = some f.session
            rw [List.getElem?_append_left (h.hist.settled_lt _ (h.hist.frames_settled f hf))]
            exact h.hist.sessions f hf
          settled_lt := fun i hi => hlen ▸ Nat.lt_succ_of_lt (h.hist.settled_lt i hi)
          older := fun i hi hne => hset i (by
            have hi' : i < s.requests.length + 1 := hlen ▸ hi
            have hne' : i ≠ s.requests.length := hne
            omega) }
      fault := fun _ => rfl
      quiet := fun hq => by
        rcases hq with hq | hq
        · exact absurd hq (by simp [NiosLoop.commandUartIsr])
        · exact absurd hq (by simp [NiosLoop.commandUartIsr, hfault])
      ready := fun _ => ⟨hopen, hdef⟩
      fresh := fun _ _ _ hmem => absurd (h.hist.ran_lt _ hmem) (lt_irrefl _)
      servicing := fun hs => absurd hs (by simp [NiosLoop.commandUartIsr, hserv])
      deferred := fun hd => absurd hd (by simp [NiosLoop.commandUartIsr, hdef]) }

theorem Handled.answerDeferred (h : Handled s)
    (hd : s.deferredResponsePkt = true) : Handled s.answerDeferred := by
  obtain ⟨hopen, hready⟩ := h.deferred hd
  exact
    { hist := ⟨h.hist.ran, h.hist.ran_lt, h.hist.answered, h.hist.frames_settled,
        h.hist.sessions, h.hist.settled_lt, h.hist.older⟩
      fault := h.fault
      quiet := fun hq => absurd (h.quiet hq).deferred (by simp [hd])
      ready := fun _ => ⟨⟨hopen.isr, hopen.fault, hopen.newest, hopen.session,
        hopen.unsettled⟩, rfl⟩
      fresh := fun _ hp => absurd hp (by simp [NiosLoop.answerDeferred])
      servicing := fun hs => absurd (h.servicing hs) (by simp [hready])
      deferred := fun hd' => absurd hd' (by simp [NiosLoop.answerDeferred]) }

@[simp] theorem retryPrepared_pc (s : NiosLoop) (o : Owners) (w : TryPublish) :
    (s.retryPrepared o w).pc = s.pc := by
  unfold NiosLoop.retryPrepared
  split
  · split
    · rfl
    · cases w <;> rfl
  · rfl

theorem service_pc (s : NiosLoop) (o : Owners) (w : TryPublish) :
    (s.service o w).pc = s.pc := by
  unfold NiosLoop.service
  split
  · rfl
  split
  · rfl
  split
  · rfl
  split
  · rfl
  dsimp only
  split
  · simp
  · split <;> rfl

theorem Placed.free_of_ready (h : Placed s) (hr : s.pkt.ready = true) :
    Free s.pc := by
  refine ⟨fun hpc => ?_, fun hpc => ?_, fun k hpc => ?_⟩
  · exact absurd (h.exec hpc).2.1 (by simp [hr])
  · exact absurd (h.discard (.inl hpc)).1.ready (by simp [hr])
  · exact absurd (h.discard (.inr ⟨k, hpc⟩)).1.ready (by simp [hr])

theorem Handled.step {t : NiosLoop} {a : LoopAct} (h : Handled s ∧ Placed s)
    (hok : s.preparedNotExecuted a = true) (hstep : s.step a = some t) :
    Handled t ∧ Placed t := by
  obtain ⟨hh, hp⟩ := h
  cases a with
  | isr req session fence =>
      obtain ⟨hisr, ⟨⟩⟩ := Option.ite_none_right_eq_some.mp hstep
      refine ⟨hh.commandUartIsr hisr req session fence, ⟨fun hpc => ?_, fun hpc => ?_⟩⟩
      · exact absurd (hp.exec hpc).1.isr (by simp [hisr])
      · exact absurd (hp.discard hpc).2 (by simp [hisr])
  | session g =>
      simp only [NiosLoop.step, Option.some.injEq] at hstep
      subst hstep
      refine ⟨?_, ⟨fun hpc => ?_, fun hpc => ?_⟩⟩
      · exact
          { hist := hh.hist.withUart _
            fault := hh.fault
            quiet := fun hq => (hh.quiet hq).withUart _
            ready := fun hr => ⟨⟨(hh.ready hr).1.isr, (hh.ready hr).1.fault,
              (hh.ready hr).1.newest, (hh.ready hr).1.session, (hh.ready hr).1.unsettled⟩,
              (hh.ready hr).2⟩
            fresh := hh.fresh
            servicing := hh.servicing
            deferred := fun hd => ⟨⟨(hh.deferred hd).1.isr, (hh.deferred hd).1.fault,
              (hh.deferred hd).1.newest, (hh.deferred hd).1.session,
              (hh.deferred hd).1.unsettled⟩, (hh.deferred hd).2⟩ }
      · obtain ⟨hopen, hrest⟩ := hp.exec hpc
        exact ⟨⟨hopen.isr, hopen.fault, hopen.newest, hopen.session, hopen.unsettled⟩, hrest⟩
      · exact ⟨(hp.discard hpc).1.withUart _, (hp.discard hpc).2⟩
  | main o w retained =>
      simp only [NiosLoop.step, Option.ite_none_left_eq_some, Option.some.injEq] at hstep
      obtain ⟨hs, rfl⟩ := hstep
      rw [Bool.not_eq_true] at hs
      refine hh.mainStep hp hs ?_ o w retained
      rintro ⟨hd, hprep⟩
      simp [preparedNotExecuted, hd, hprep] at hok
  | hook o w =>
      obtain ⟨-, ⟨⟩⟩ := Option.ite_none_right_eq_some.mp hstep
      cases hr : s.pkt.ready with
      | false =>
          rw [service_of_not_ready hr]
          exact ⟨hh, hp⟩
      | true =>
          refine ⟨hh.service o w, Placed.of_free ?_⟩
          rw [service_pc]
          exact hp.free_of_ready hr
  | hookReturn o w =>
      obtain ⟨hs, ⟨⟩⟩ := Option.ite_none_right_eq_some.mp hstep
      refine ⟨hh.serviceReturn hs o w, Placed.of_free ?_⟩
      show Free (({ s with servicing := false, pkt := _ } : NiosLoop).retryPrepared o w).pc
      rw [retryPrepared_pc]
      exact hp.free_of_ready (hh.servicing hs)
  | deferredResponse =>
      obtain ⟨⟨hd, -⟩, ⟨⟩⟩ := Option.ite_none_right_eq_some.mp hstep
      refine ⟨hh.answerDeferred hd, ⟨fun hpc => ?_, fun hpc => ?_⟩⟩
      · exact absurd (hp.exec hpc).2.2.1 (by simp [hd])
      · exact absurd (hp.discard hpc).1.deferred (by simp [hd])

theorem start_handled (req : Packet) : Handled (start req) ∧ Placed (start req) := by
  refine ⟨Quiet.handled ⟨rfl, rfl, rfl, by simp [start]⟩ ?_ (by simp [start]),
    Placed.of_free ⟨by simp [start], by simp [start], by simp [start]⟩⟩
  exact ⟨by simp [start], by simp [start], by simp [start], by simp [start], by simp [start],
    by simp [start], by simp [start]⟩

theorem Handled.atMostOnce (h : Handled s) : AtMostOnce s :=
  ⟨h.hist.ran, h.hist.answered, h.hist.sessions, fun hisr => (h.quiet (.inl hisr)).settled⟩

/-- In every run in which the main loop never executes a request whose response
is already prepared, side effects run at most once, a request gets at most one
frame, of its own session, and the interrupt stays off until the request is
answered or retired. -/
theorem nios_dispatch_at_most_once {req : Packet} {acts : List LoopAct} {s : NiosLoop}
    (hrun : Lib.Steps step (fun s a => s.preparedNotExecuted a = true) (start req) acts s) :
    AtMostOnce s :=
  (hrun.invariant (start_handled req) (fun h hok hs => Handled.step h hok hs)).1.atMostOnce

/-- A request of the given format: `magic`, target, flags, and zeros. -/
def probe (magic target flags : BitVec 8) : Packet :=
  ⟨[magic, target, flags] ++ List.replicate 13 0, by simp⟩

def userWrite : Packet := probe niosPkt8x32Magic 0x80 1

/-- One turn of the main loop with a waiting request and an idle worker pass:
`w` answers the publication after the handler, `w'` the one at the end. -/
def idleTurn (w w' : TryPublish) : List LoopAct :=
  [.main Owners.none w false, .main Owners.none w false, .main Owners.none w false,
    .main Owners.none w false, .main Owners.none w false, .main Owners.none w' false,
    .main Owners.none w' false]

/-- A response that the UART refuses once is published by the next retry. -/
theorem nios_dispatch_at_most_once_after_backpressure :
    ∃ s, Lib.exec step (fun s a => s.preparedNotExecuted a = true) (start userWrite)
        (.isr userWrite 0 false :: idleTurn .backpressure .ok) = some s ∧
      s.ran = [0] ∧ s.frames = [⟨0, 0⟩] ∧ AtMostOnce s := by
  have hrun : Lib.exec step (fun s a => s.preparedNotExecuted a = true) (start userWrite)
      (.isr userWrite 0 false :: idleTurn .backpressure .ok) = some _ := rfl
  exact ⟨_, hrun, rfl, rfl, nios_dispatch_at_most_once (Lib.Steps.of_exec hrun)⟩

/-- Refused twice with no RFIC owner, the response is forgotten: the next turn
of the main loop executes the request again. -/
theorem nios_dispatch_twice :
    ∃ s, Lib.Steps step (fun _ _ => True) (start userWrite)
        ([LoopAct.isr userWrite 0 false] ++ idleTurn .backpressure .backpressure ++
          idleTurn .backpressure .backpressure) s ∧ s.ran = [0, 0] ∧ ¬AtMostOnce s :=
  ⟨_, Lib.Steps.of_exec rfl, rfl, fun h => absurd h.ran (by decide)⟩

end NiosLoop
end BladeRF
