/-
# `Streaming.TxSubmit` — the operations of `sync_tx` keep the queue

`advance_tx_buffer`, the reclaim loop of `SYNC_STATE_WAIT_FOR_BUFFER` and the
code after a submission, each from a ring in which nobody is submitting
(`Resting`) or from the point where the lock is taken again.
-/
import BladeRF.Streaming.TxQueue

namespace BladeRF

open TxBufferMgmt

namespace TxSync

variable {n : ℕ} [NeZero n]

/-! ## The producer's operations -/

variable {t : TxSync n} {body : List (Fin n)} {idx : Fin n} {caller : TxSubmitCaller n}
  {r : SubmitResult}

omit [NeZero n] in
theorem Backend.of_producer {u : TxSync n} (h : t.Backend)
    (hsame : u.usb = t.usb ∧ u.stream = t.stream ∧ u.worker = t.worker ∧
      u.pending = t.pending ∧ u.rejected = t.rejected)
    (hst : ∀ i ∈ t.usb, u.b.status i = .inFlight) : u.Backend := by
  obtain ⟨husb, hstream, hworker, hpending, hrejected⟩ := hsame
  have hlimbo : u.limbo = t.limbo := by simp [limbo, hpending, hworker, hrejected]
  refine ⟨?_, ?_, ?_, ?_, ?_, ?_⟩
  · rwa [husb]
  · rw [husb, hlimbo]
    exact h.usb_limbo
  · rw [husb]
    exact h.usb_nodup
  · rw [hstream, hworker]
    exact h.running
  · rw [hstream, hworker, husb]
    exact h.usb_nil
  · rw [hrejected, hpending, hstream]
    exact h.rejected

omit [NeZero n] in
theorem Backend.setStatus (h : t.Backend) {i : Fin n} (st : SyncBufferStatus)
    (hi : i ∉ t.usb) : ∀ j ∈ t.usb, (t.b.setStatus i st).status j = .inFlight := by
  intro j hj
  have hne : j ≠ i := fun heq => hi (heq ▸ hj)
  simpa [TxBufferMgmt.setStatus, Function.update_of_ne hne] using h.usb_inFlight j hj

omit [NeZero n] in
theorem Backend.not_mem (h : t.Backend) {i : Fin n} (hi : t.b.status i ≠ .inFlight) : i ∉ t.usb :=
  fun hmem => hi (h.usb_inFlight i hmem)

/-- What the producer's operations rely on when they begin: the queue, with no
submission open, and `cons_i` as it should be. -/
structure Resting (t : TxSync n) (body : List (Fin n)) (next : Fin n) : Prop where
  queue : TxQueue t.b.status t.limbo.toList none body next t.accepted t.fillOf t.fills
  settled : t.b.Settled body next
  backend : t.Backend

theorem Resting.oldestFullBuffer
    (h : t.Resting body t.b.prodI) : t.b.oldestFullBuffer = body.head? :=
  oldestFullBuffer_eq h.queue h.settled.atHead (fun _ => rfl)

theorem afterAdvance_inv (h : t.TxInv body)
    (hp : t.point = .outside) : t.afterAdvance.TxInv body := by
  unfold afterAdvance
  split
  · exact h
  · exact h
  · exact h
  all_goals
    refine ⟨h.queue, h.duty, ?_, ?_, h.usb_open⟩
    · simp [Place, hp]
    · exact h.backend.of_producer ⟨rfl, rfl, rfl, rfl, rfl⟩ h.backend.usb_inFlight

theorem advanceDone_inv (h : t.Resting body (t.b.prodI + 1)) : t.advanceDone.TxInv body := by
  refine afterAdvance_inv ⟨h.queue, ?_, ?_, ?_, fun i _ => by simp [openSlot]⟩ rfl
  · exact ⟨h.settled.atHead, h.settled.fn⟩
  · by_cases hempty : t.b.status (t.b.prodI + 1) = .empty
    · simp [Place, hempty]
    · simp [Place, hempty]
  · exact h.backend.of_producer ⟨rfl, rfl, rfl, rfl, rfl⟩ h.backend.usb_inFlight

theorem reclaim_open_inv {rest : List (Fin n)} {next : Fin n}
    (h : t.Resting (idx :: rest) next) (caller : TxSubmitCaller n) (hcaller : caller ≠ .advance)
    (hnext : next = nextI { t with point := .submitting caller idx none })
    (hplace : Place { t with point := .submitting caller idx none }) :
    TxInv { t with
      b := t.b.setStatus idx .inFlight
      point := .submitting caller idx none } (idx :: rest) := by
  have hfull : t.b.status idx = .full := (h.queue.full_iff idx).mpr (by simp)
  have husb : idx ∉ t.usb := h.backend.not_mem (by simp [hfull])
  refine ⟨?_, ?_, ?_, ?_, ?_⟩
  · have hq := h.queue.open_head
    rw [hnext] at hq
    exact hq
  · have hd : DutyReclaim
        { t with b := t.b.setStatus idx .inFlight, point := .submitting caller idx none }
        (idx :: rest) idx none := by
      refine ⟨?_, Or.inl rfl⟩
      have hat := h.settled.atHead
      rw [hnext] at hat
      exact hat
    cases caller with
    | advance => exact absurd rfl hcaller
    | reclaimAdvance => exact hd
    | reclaimWait before => exact hd
    | reclaimTimeout => exact hd
  · cases caller with
    | advance => exact absurd rfl hcaller
    | reclaimAdvance => trivial
    | reclaimWait before => exact hplace
    | reclaimTimeout => exact hplace
  · exact h.backend.of_producer ⟨rfl, rfl, rfl, rfl, rfl⟩ (h.backend.setStatus .inFlight husb)
  · intro i hi ho
    obtain rfl : idx = i := by simpa [openSlot] using ho
    exact husb hi

theorem TxInv.resting (h : t.TxInv body)
    (hp : t.point = .outside ∨ t.point = .starting ∨ t.point = .waiting) :
    t.Resting body t.b.prodI := by
  have hopen : t.openSlot = none := by
    rcases hp with hp | hp | hp <;> simp [openSlot, hp]
  have hnext : t.nextI = t.b.prodI := by
    rcases hp with hp | hp | hp <;> simp [nextI, hp]
  have hd : t.b.Settled body t.b.prodI := by
    have := h.duty
    rcases hp with hp | hp | hp <;> simpa [Duty, hp] using this
  have hq := h.queue
  rw [hopen, hnext] at hq
  exact ⟨hq, hd, h.backend⟩

section

variable (h : t.Resting body t.b.prodI)

include h

theorem fill_inv (hst : t.b.status t.b.prodI = .partlyUsed)
    (hfn : t.b.submitter = .fn → t.b.oldestFullBuffer = none) :
    ∃ body', t.filled.advanceTxBuffer.TxInv body' := by
  have husb : t.b.prodI ∉ t.usb := h.backend.not_mem (by simp [hst])
  have hpush := h.queue.push_full (by simp [hst]) (by simp [hst])
  cases hsub : t.b.submitter with
  | fn =>
      have hbody : body = [] := by
        have hhead := h.oldestFullBuffer
        rw [hfn hsub] at hhead
        exact List.head?_eq_none_iff.mp hhead.symm
      subst hbody
      have hcons : t.b.consI = none := (h.settled.fn hsub).resolve_right (by simp)
      have hq := hpush.open_head
      rw [Function.update_idem] at hq
      have heq : t.filled.advanceTxBuffer =
          { t.filled with
            b := t.b.setStatus t.b.prodI .inFlight
            point := .submitting .advance t.b.prodI none } := by
        simp [advanceTxBuffer, filled, hsub]
      rw [heq]
      refine ⟨[t.b.prodI], hq, ?_, trivial, ?_, ?_⟩
      · exact ⟨rfl, hsub, hcons, rfl⟩
      · exact h.backend.of_producer ⟨rfl, rfl, rfl, rfl, rfl⟩ (h.backend.setStatus .inFlight husb)
      · intro i hi ho
        obtain rfl : t.b.prodI = i := by simpa [openSlot] using ho
        exact husb hi
  | callback =>
      -- the slot joins the deferred ones before anything is submitted
      have hrest : Resting { t.filled with b := t.b.setStatus t.b.prodI .full }
          (body ++ [t.b.prodI]) (t.b.prodI + 1) := by
        refine ⟨hpush, ⟨?_, ?_⟩, ?_⟩
        · intro c hc
          rw [h.settled.atHead c hc]
          cases body <;> rfl
        · intro hfn'
          exact absurd (hsub.symm.trans hfn') (by simp)
        · exact h.backend.of_producer ⟨rfl, rfl, rfl, rfl, rfl⟩ (h.backend.setStatus .full husb)
      cases hcons : t.b.consI with
      | none =>
          have heq : t.filled.advanceTxBuffer =
              advanceDone { t.filled with b := t.b.setStatus t.b.prodI .full } := by
            simp [advanceTxBuffer, filled, hsub, setStatus, hcons]
          rw [heq]
          exact ⟨_, advanceDone_inv hrest⟩
      | some c =>
          have hold : (t.b.setStatus t.b.prodI .full).oldestFullBuffer
              = (body ++ [t.b.prodI]).head? := by
            refine oldestFullBuffer_eq hpush hrest.settled.atHead (fun hnone => ?_)
            exact absurd (hcons.symm.trans hnone) (by simp)
          rcases reclaimBegin_cases hold with ⟨hnil, -⟩ | ⟨idx, rest, hbody, hbegin⟩
          · simp at hnil
          · have heq : t.filled.advanceTxBuffer =
                { t.filled with
                  b := (t.b.setStatus t.b.prodI .full).setStatus idx .inFlight
                  point := .submitting .reclaimAdvance idx none } := by
              have hsome : (t.b.setStatus t.b.prodI .full).consI.isSome = true := by
                simp [setStatus, hcons]
              simp only [advanceTxBuffer, filled, hsub, hsome, if_true, hbegin]
            rw [heq]
            rw [hbody] at hrest
            exact ⟨_, reclaim_open_inv hrest .reclaimAdvance (by simp) rfl trivial⟩

theorem Resting.inv {point : TxPoint n} (hstate : t.state.filling = false)
    (hp : point = .outside ∨ point = .starting ∨ point = .waiting) :
    TxInv { t with point := point } body := by
  have hb : Backend { t with point := point } :=
    h.backend.of_producer ⟨rfl, rfl, rfl, rfl, rfl⟩ h.backend.usb_inFlight
  rcases hp with rfl | rfl | rfl
  · refine ⟨h.queue, h.settled, ?_, hb, fun i _ => by simp [openSlot]⟩
    cases hs : t.state <;> simp_all [SyncState.filling, Place]
  · exact ⟨h.queue, h.settled, hstate, hb, fun i _ => by simp [openSlot]⟩
  · exact ⟨h.queue, h.settled, hstate, hb, fun i _ => by simp [openSlot]⟩

theorem Resting.takeBack :
    Resting { t with b := t.b.takeBack } body t.b.prodI :=
  ⟨h.queue, t.b.takeBack_settled body _,
    h.backend.of_producer ⟨rfl, rfl, rfl, rfl, rfl⟩ h.backend.usb_inFlight⟩

theorem waitTail_inv
    (hstate : t.state.filling = false) : t.waitTail.TxInv body := by
  refine h.inv hstate ?_
  by_cases hempty : t.b.status t.b.prodI = .empty
  · simp [hempty]
  · simp [hempty]

theorem waitLoop_inv
    (hstate : t.state.filling = false) : t.waitLoop.TxInv body := by
  unfold waitLoop
  split
  · rcases reclaimBegin_cases h.oldestFullBuffer with
      ⟨-, hbegin⟩ | ⟨idx, rest, hbody, hbegin⟩
    · rw [hbegin]
      exact waitTail_inv h.takeBack hstate
    · rw [hbegin]
      subst hbody
      exact reclaim_open_inv h _ (by simp) rfl hstate
  · exact waitTail_inv h hstate

theorem waitStatus_inv
    (hstate : t.state.filling = false) (status : ℤ) : (t.waitStatus status).TxInv body := by
  unfold waitStatus
  split
  · rcases reclaimBegin_cases h.oldestFullBuffer with
      ⟨-, hbegin⟩ | ⟨idx, rest, hbody, hbegin⟩
    · rw [hbegin]
      exact h.takeBack.inv hstate (Or.inl rfl)
    · rw [hbegin]
      subst hbody
      exact reclaim_open_inv h _ (by simp) rfl hstate
  · exact h.inv hstate (Or.inl rfl)

end

/-! ## After a submission -/

section

variable (h : t.TxInv body)

include h

theorem TxInv.open_not_usb (hopen : t.openSlot = some idx) : idx ∉ t.usb :=
  fun hmem => h.usb_open idx hmem hopen

theorem reclaimEnd_resting
    (hp : t.point = .submitting caller idx (some r)) (hd : t.DutyReclaim body idx (some r)) :
    Resting { t with b := t.b.reclaimEnd idx r } body t.nextI := by
  have hq := h.queue
  by_cases hr : r = .accepted
  · subst hr
    have hopen : t.openSlot = none := by simp [openSlot, hp]
    rw [hopen] at hq
    simp only [DutyReclaim, if_true] at hd
    obtain ⟨-, hsucc, -⟩ := hd
    have hat : ({ t.b with consI := some (idx + 1) } : TxBufferMgmt n).AtHead body t.nextI := by
      intro c hc
      obtain rfl := Option.some.inj hc
      exact hsucc
    have hold : ({ t.b with consI := some (idx + 1) } : TxBufferMgmt n).oldestFullBuffer
        = body.head? :=
      oldestFullBuffer_eq hq hat (fun hnone => by simp at hnone)
    simp only [reclaimEnd, hold]
    split
    · exact ⟨hq, takeBack_settled _ _ _,
        h.backend.of_producer ⟨rfl, rfl, rfl, rfl, rfl⟩ h.backend.usb_inFlight⟩
    · rename_i hne
      refine ⟨hq, ⟨hat, fun _ => Or.inr (fun hnil => hne (by simp [hnil]))⟩, ?_⟩
      exact h.backend.of_producer ⟨rfl, rfl, rfl, rfl, rfl⟩ h.backend.usb_inFlight
  · have hr' : some r ≠ some SubmitResult.accepted := fun heq => hr (Option.some.inj heq)
    have hopen : t.openSlot = some idx := by simp [openSlot, hp, hr]
    have hend : t.b.reclaimEnd idx r = t.b.setStatus idx .full := by
      cases r with
      | accepted => exact absurd rfl hr
      | wouldBlock => rfl
      | failed => rfl
    simp only [DutyReclaim, if_neg hr'] at hd
    rw [hopen] at hq
    rw [hend]
    refine ⟨hq.close_full, ⟨hd.1, fun _ => Or.inr ?_⟩, ?_⟩
    · exact List.ne_nil_of_mem (hq.open_mem idx rfl).1
    · exact h.backend.of_producer ⟨rfl, rfl, rfl, rfl, rfl⟩
        (h.backend.setStatus .full (h.open_not_usb hopen))

theorem ownReturn_inv (hp : t.point = .submitting .advance idx (some r)) :
    ∃ body', (t.submitReturn idx r .advance).TxInv body' := by
  have hq := h.queue
  have hd := h.duty
  have hnext : t.nextI = t.b.prodI + 1 := by simp [nextI, hp]
  simp only [Duty, hp] at hd
  obtain ⟨hidx, -, hcons, hbody⟩ := hd
  cases r with
  | accepted =>
      have hopen : t.openSlot = none := by simp [openSlot, hp]
      simp only [if_true] at hbody
      subst hbody
      rw [hopen, hnext] at hq
      refine ⟨[], advanceDone_inv ⟨hq, ⟨fun c hc => ?_, fun _ => Or.inl hcons⟩, h.backend⟩⟩
      exact absurd (hcons.symm.trans hc) (by simp)
  | wouldBlock =>
      have hopen : t.openSlot = some idx := by simp [openSlot, hp]
      rw [if_neg (by simp)] at hbody
      subst hbody
      rw [hopen, hnext] at hq
      refine ⟨[idx], advanceDone_inv ⟨hq.close_full, ⟨fun c hc => ?_, ?_⟩, ?_⟩⟩
      · exact (Option.some.inj hc).symm
      · intro hfn
        exact absurd hfn (by simp)
      · exact h.backend.of_producer ⟨rfl, rfl, rfl, rfl, rfl⟩
          (h.backend.setStatus .full (h.open_not_usb hopen))
  | failed =>
      have hopen : t.openSlot = some idx := by simp [openSlot, hp]
      rw [if_neg (by simp)] at hbody
      subst hbody
      rw [hopen] at hq
      refine ⟨[], afterAdvance_inv ⟨?_, ⟨fun c hc => ?_, fun _ => Or.inl hcons⟩, ?_, ?_,
        fun i _ => by simp [openSlot]⟩ rfl⟩
      · have := hq.drop_open
        rw [hidx] at this ⊢
        exact this
      · exact absurd (hcons.symm.trans hc) (by simp)
      · simp [Place, hidx, setStatus]
      · exact h.backend.of_producer ⟨rfl, rfl, rfl, rfl, rfl⟩
          (h.backend.setStatus .empty (h.open_not_usb hopen))

theorem submitReturn_inv (hp : t.point = .submitting caller idx (some r))
    (hok : ¬ (caller = .reclaimAdvance ∧ r = .failed)) :
    ∃ body', (t.submitReturn idx r caller).TxInv body' := by
  have hd := h.duty
  have hpl := h.place
  cases caller with
  | advance => exact ownReturn_inv h hp
  | reclaimAdvance =>
      simp only [Duty, hp] at hd
      have hr : r ≠ .failed := fun heq => hok ⟨rfl, heq⟩
      have hrest := reclaimEnd_resting h hp hd
      have hnext : t.nextI = (t.b.reclaimEnd idx r).prodI + 1 := by
        simp [nextI, hp, reclaimEnd_prodI]
      rw [hnext] at hrest
      simp only [submitReturn, if_neg hr]
      exact ⟨body, advanceDone_inv hrest⟩
  | reclaimWait before =>
      simp only [Duty, hp] at hd
      simp only [Place, hp] at hpl
      have hrest := reclaimEnd_resting h hp hd
      have hnext : t.nextI = (t.b.reclaimEnd idx r).prodI := by
        simp [nextI, hp, reclaimEnd_prodI]
      rw [hnext] at hrest
      simp only [submitReturn]
      split
      · exact ⟨body, hrest.inv hpl (Or.inl rfl)⟩
      · split
        · exact ⟨body, waitTail_inv hrest hpl⟩
        · exact ⟨body, waitLoop_inv hrest hpl⟩
  | reclaimTimeout =>
      simp only [Duty, hp] at hd
      simp only [Place, hp] at hpl
      have hrest := reclaimEnd_resting h hp hd
      have hnext : t.nextI = (t.b.reclaimEnd idx r).prodI := by
        simp [nextI, hp, reclaimEnd_prodI]
      rw [hnext] at hrest
      exact ⟨body, hrest.inv hpl (Or.inl rfl)⟩

theorem submitDone_inv
    (hp : t.point = .submitting caller idx none) (hr : r ≠ .accepted) :
    TxInv { t with point := .submitting caller idx (some r) } body := by
  have hr' : some r ≠ some SubmitResult.accepted := fun heq => hr (Option.some.inj heq)
  have hopen : openSlot { t with point := .submitting caller idx (some r) } = t.openSlot := by
    simp [openSlot, hp, hr]
  have hnext : nextI { t with point := .submitting caller idx (some r) } = t.nextI := by
    cases caller <;> simp [nextI, hp]
  have hq := h.queue
  have hd := h.duty
  have hpl := h.place
  refine ⟨?_, ?_, ?_, h.backend.of_producer ⟨rfl, rfl, rfl, rfl, rfl⟩ h.backend.usb_inFlight, ?_⟩
  · rw [← hopen, ← hnext] at hq
    exact hq
  · cases caller <;> simp only [Duty, hp, DutyReclaim, if_neg hr', hnext] at hd ⊢ <;> exact hd
  · cases caller <;> simp only [Place, hp] at hpl ⊢ <;> exact hpl
  · intro i hi
    rw [hopen]
    exact h.usb_open i hi

end

omit [NeZero n] in
theorem Backend.limbo_running (h : t.Backend) (hrun : t.stream = .running)
    (hpend : t.pending = none) : t.limbo = none ∧ t.rejected = none := by
  have hrej : t.rejected = none := by
    cases hr : t.rejected with
    | none => rfl
    | some c => exact absurd hrun (h.rejected c hr).2
  exact ⟨by simp [limbo, hpend, hrej], hrej⟩

theorem TxInv.body_eq_cons (h : t.TxInv body) {r : Option SubmitResult}
    (hp : t.point = .submitting caller idx r) (hr : r ≠ some .accepted)
    (hrun : t.stream = .running) : ∃ rest, body = idx :: rest := by
  have hworker := h.backend.running hrun
  have hhead : body.head? = some idx := by
    have hd := h.duty
    cases caller with
    | advance =>
        simp only [Duty, hp, if_neg hr] at hd
        rw [hd.2.2.2]
        rfl
    | reclaimAdvance | reclaimWait before | reclaimTimeout =>
        simp only [Duty, hp, DutyReclaim, if_neg hr] at hd
        exact hd.2.resolve_right (fun hno => hno.2 hworker)
  cases body with
  | nil => simp at hhead
  | cons i rest => exact ⟨rest, by rw [Option.some.inj hhead]⟩

theorem submitAccepted_inv (h : t.TxInv body) (hp : t.point = .submitting caller idx none)
    (hrun : t.stream = .running) (hpend : t.pending = none) :
    ∃ body',
      TxInv (accept { t with point := .submitting caller idx (some .accepted) } idx) body' := by
  obtain ⟨hlimbo, hrej⟩ := h.backend.limbo_running hrun hpend
  have hopen : t.openSlot = some idx := by simp [openSlot, hp]
  have hnext : nextI { t with point := .submitting caller idx (some .accepted) } = t.nextI := by
    cases caller <;> simp [nextI, hp]
  obtain ⟨rest, rfl⟩ := h.body_eq_cons hp (by simp) hrun
  have hq := h.queue
  rw [hlimbo, hopen] at hq
  have hnodup := List.nodup_cons.mp hq.nodup
  refine ⟨rest, ?_, ?_, ?_, ⟨?_, ?_, ?_, ?_, ?_, ?_⟩, fun i _ => by simp [accept, openSlot]⟩
  · have hq' := hq.accept_open
    rw [← hnext] at hq'
    have hlimbo' : limbo (accept { t with point := .submitting caller idx (some .accepted) } idx)
        = none := hlimbo
    rw [hlimbo']
    exact hq'
  · have hd := h.duty
    have hreclaim : t.b.AtHead (idx :: rest) t.nextI →
        DutyReclaim (accept { t with point := .submitting caller idx (some .accepted) } idx) rest
          idx (some .accepted) := by
      intro hat
      simp only [DutyReclaim, if_true]
      refine ⟨fun c hc => hat c hc, ?_, hnodup.1, hpend, hrej⟩
      exact hq.runs.1.trans (congrArg (fun x => rest.headD x) hnext.symm)
    cases caller with
    | advance =>
        simp only [Duty, hp] at hd
        obtain ⟨hidx, hfn, hcons, hbody⟩ := hd
        rw [if_neg (by simp)] at hbody
        exact ⟨hidx, hfn, hcons, (List.cons.inj hbody).2⟩
    | reclaimAdvance =>
        simp only [Duty, hp] at hd
        exact hreclaim hd.1
    | reclaimWait before =>
        simp only [Duty, hp] at hd
        exact hreclaim hd.1
    | reclaimTimeout =>
        simp only [Duty, hp] at hd
        exact hreclaim hd.1
  · have hpl := h.place
    cases caller <;> simp only [Place, hp, accept] at hpl ⊢ <;> exact hpl
  · intro i hi
    rcases List.mem_append.mp hi with hi | hi
    · exact h.backend.usb_inFlight i hi
    · rw [List.mem_singleton.mp hi]
      exact (hq.open_mem idx rfl).2
  · intro i _ hi
    exact absurd (hlimbo.symm.trans hi) (by simp)
  · refine List.nodup_append.mpr ⟨h.backend.usb_nodup, List.nodup_singleton _, ?_⟩
    intro i hi j hj heq
    exact h.open_not_usb hopen (List.mem_singleton.mp hj ▸ heq ▸ hi)
  · exact h.backend.running
  · intro hor
    have hworker := h.backend.running hrun
    rcases hor with hdone | hw
    · exact absurd (hrun.symm.trans hdone) (by simp)
    · exact absurd hworker hw
  · exact h.backend.rejected

end TxSync

end BladeRF
