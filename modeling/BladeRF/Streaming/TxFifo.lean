/-
# `Streaming.TxFifo` — buffers leave in the order in which `sync_tx` filled them

Completions, restarts and the producer's steps keep the queue, except for five
steps that break its shape; `Orderly` excludes exactly these.  The runs at the
end show what two of the five do.
-/
import BladeRF.Streaming.TxSubmit

namespace BladeRF

namespace TxSync

variable {n : ℕ} [NeZero n]

/-! ## The backend's steps -/

variable {t u : TxSync n} {body : List (Fin n)} {i c : Fin n} {a : TxAct n}

omit [NeZero n] in
theorem Place.of_backend (h : t.Place)
    (hsame : u.point = t.point ∧ u.state = t.state ∧ u.cfg = t.cfg ∧ u.b.prodI = t.b.prodI ∧
      u.b.partialOff = t.b.partialOff)
    (hst : ∀ i, t.b.status i ≠ .full → t.b.status i ≠ .inFlight → u.b.status i = t.b.status i) :
    u.Place := by
  obtain ⟨hpoint, hstate, hcfg, hprod, hoff⟩ := hsame
  have hkeep : ∀ st : SyncBufferStatus, st ≠ .full → st ≠ .inFlight →
      t.b.status t.b.prodI = st → u.b.status u.b.prodI = st := by
    intro st hfull hflight heq
    rw [hprod, hst _ (heq ▸ hfull) (heq ▸ hflight), heq]
  unfold Place at h ⊢
  rw [hpoint, hstate, hcfg, hoff]
  cases hp : t.point with
  | outside =>
      simp only [hp] at h
      cases hs : t.state with
      | bufferReady =>
          simp only [hs] at h ⊢
          exact hkeep .empty (by simp) (by simp) h
      | usingBuffer =>
          simp only [hs] at h ⊢
          exact ⟨hkeep .partlyUsed (by simp) (by simp) h.1, h.2⟩
      | usingBufferMeta =>
          simp only [hs] at h ⊢
          exact hkeep .partlyUsed (by simp) (by simp) h
      | usingPacketMeta =>
          simp only [hs] at h ⊢
          exact hkeep .partlyUsed (by simp) (by simp) h
      | checkWorker => trivial
      | resetBufMgmt => trivial
      | startWorker => trivial
      | waitForBuffer => trivial
  | starting => simpa only [hp] using h
  | waiting => simpa only [hp] using h
  | submitting caller idx r =>
      simp only [hp] at h
      cases caller <;> exact h

theorem point_cases (t : TxSync n) :
    (t.point = .outside ∨ t.point = .starting ∨ t.point = .waiting) ∨
    (∃ idx r, t.point = .submitting .advance idx r) ∨
    (∃ caller idx r, t.point = .submitting caller idx r ∧ caller ≠ .advance) := by
  cases t.point with
  | outside => simp
  | starting => simp
  | waiting => simp
  | submitting caller idx r =>
      cases caller <;> simp

theorem Duty.of_backend (h : t.Duty body)
    (hring : u.point = t.point ∧ u.b.prodI = t.b.prodI ∧ u.b.submitter = t.b.submitter ∧
      u.b.consI = t.b.consI)
    (hworker : t.worker ≠ .starting ∧ t.worker ≠ .streaming →
      u.worker ≠ .starting ∧ u.worker ≠ .streaming)
    (hpend : t.pending = none ∧ t.rejected = none → u.pending = none ∧ u.rejected = none) :
    u.Duty body := by
  obtain ⟨hpoint, hprod, hsub, hcons⟩ := hring
  have hnext : u.nextI = t.nextI := by simp only [nextI, hpoint, hprod]
  rcases t.point_cases with hp | ⟨idx, r, hp⟩ | ⟨caller, idx, r, hp, hc⟩
  · have hd := (duty_rest hp).mp h
    rw [← hpoint] at hp
    refine (duty_rest hp).mpr ⟨?_, ?_⟩
    · intro c hcu
      rw [hprod]
      exact hd.atHead c (hcons ▸ hcu)
    · intro hfn
      rw [hcons]
      exact hd.fn (hsub ▸ hfn)
  · have hd := (duty_own hp).mp h
    rw [← hpoint] at hp
    refine (duty_own hp).mpr ?_
    rw [hprod, hsub, hcons]
    exact hd
  · have hd := (duty_reclaim hp hc).mp h
    rw [← hpoint] at hp
    refine (duty_reclaim hp hc).mpr ?_
    by_cases hr : r = some .accepted
    · simp only [DutyReclaim, if_pos hr, hcons, hnext] at hd ⊢
      exact ⟨hd.1, hd.2.1, hd.2.2.1, hpend hd.2.2.2⟩
    · simp only [DutyReclaim, if_neg hr, hnext] at hd ⊢
      refine ⟨fun c hcu => hd.1 c (hcons ▸ hcu), hd.2.imp_right hworker⟩

theorem Duty.takeBack (h : t.Duty body) :
    Duty { t with b := t.b.takeBack } body := by
  rcases t.point_cases with hp | ⟨idx, r, hp⟩ | ⟨caller, idx, r, hp, hc⟩
  · exact (duty_rest (t := { t with b := t.b.takeBack }) hp).mpr (t.b.takeBack_settled body _)
  · obtain ⟨hidx, -, -, hbody⟩ := (duty_own hp).mp h
    exact (duty_own (t := { t with b := t.b.takeBack }) hp).mpr ⟨hidx, rfl, rfl, hbody⟩
  · refine (duty_reclaim (t := { t with b := t.b.takeBack }) hp hc).mpr ?_
    have hd := (duty_reclaim hp hc).mp h
    by_cases hr : r = some .accepted
    · simp only [DutyReclaim, if_pos hr] at hd ⊢
      exact ⟨by simp [TxBufferMgmt.takeBack], hd.2⟩
    · simp only [DutyReclaim, if_neg hr] at hd ⊢
      exact ⟨by intro c hc; simp [TxBufferMgmt.takeBack] at hc, hd.2⟩

omit [NeZero n] in
theorem Backend.erase (h : t.Backend)
    (hsame : u.usb = t.usb.erase i ∧ u.worker = t.worker ∧ u.pending = t.pending ∧
      u.rejected = t.rejected)
    (hstream : u.stream = t.stream ∨ u.stream = .shuttingDown)
    (hst : ∀ j ∈ t.usb, j ≠ i → u.b.status j = .inFlight) : u.Backend := by
  obtain ⟨husb, hworker, hpending, hrejected⟩ := hsame
  have hlimbo : u.limbo = t.limbo := by simp [limbo, hpending, hworker, hrejected]
  have hmem : ∀ j ∈ u.usb, j ∈ t.usb ∧ j ≠ i := by
    intro j hj
    rw [husb] at hj
    exact ⟨List.mem_of_mem_erase hj, (h.usb_nodup.mem_erase_iff.mp hj).1⟩
  refine ⟨fun j hj => hst j (hmem j hj).1 (hmem j hj).2, ?_, ?_, ?_, ?_, ?_⟩
  · intro j hj
    rw [hlimbo]
    exact h.usb_limbo j (hmem j hj).1
  · rw [husb]
    exact h.usb_nodup.erase i
  · intro hrun
    rcases hstream with hs | hs
    · rw [hworker]
      exact h.running (hs ▸ hrun)
    · exact absurd (hs.symm.trans hrun) (by simp)
  · intro hor
    have hnil : t.usb = [] := by
      rw [hworker] at hor
      rcases hstream with hs | hs
      · exact h.usb_nil (hs ▸ hor)
      · exact h.usb_nil (hor.imp_left (fun hdone => absurd (hs.symm.trans hdone) (by simp)))
    rw [husb, hnil]
    rfl
  · intro c hc
    rw [hrejected] at hc
    obtain ⟨hpend, hrun⟩ := h.rejected c hc
    refine ⟨hpending.trans hpend, fun heq => ?_⟩
    rcases hstream with hs | hs
    · exact hrun (hs ▸ heq)
    · exact absurd (hs.symm.trans heq) (by simp)

theorem TxInv.queue_complete (h : t.TxInv body) (hi : i ∈ t.usb) :
    TxQueue (t.b.setStatus i .empty).status t.limbo.toList t.openSlot body t.nextI t.accepted
      t.fillOf t.fills := by
  have hflight := h.backend.usb_inFlight i hi
  refine h.queue.update_status (by simp [hflight]) (by simp) ?_ (h.usb_open i hi)
  intro hmem
  exact h.backend.usb_limbo i hi (Option.mem_toList.mp hmem)

theorem TxInv.status_complete (h : t.TxInv body)
    (hi : i ∈ t.usb) (j : Fin n) (hflight : t.b.status j ≠ .inFlight) :
    (t.b.setStatus i .empty).status j = t.b.status j := by
  have hne : j ≠ i := fun heq => hflight (heq ▸ h.backend.usb_inFlight i hi)
  exact Function.update_of_ne hne _ _

theorem complete_noData_inv (h : t.TxInv body) (hi : i ∈ t.usb) {b' : TxBufferMgmt n}
    (hb' : b' = t.b.setStatus i .empty ∨ b' = (t.b.setStatus i .empty).takeBack) :
    TxInv { t with b := b', usb := t.usb.erase i } body := by
  have hstatus : b'.status = (t.b.setStatus i .empty).status := by
    rcases hb' with rfl | rfl <;> rfl
  have hprod : b'.prodI = t.b.prodI ∧ b'.partialOff = t.b.partialOff := by
    rcases hb' with rfl | rfl <;> exact ⟨rfl, rfl⟩
  refine ⟨?_, ?_, ?_, ?_, fun j hj => h.usb_open j (List.mem_of_mem_erase hj)⟩
  · have hq := h.queue_complete hi
    have hnext : nextI { t with b := b', usb := t.usb.erase i } = t.nextI := by
      simp [nextI, hprod.1]
    rw [hnext]
    rw [← hstatus] at hq
    exact hq
  · have hd : Duty { t with b := t.b.setStatus i .empty, usb := t.usb.erase i } body :=
      h.duty.of_backend ⟨rfl, rfl, rfl, rfl⟩ id id
    rcases hb' with rfl | rfl
    · exact hd
    · exact hd.takeBack
  · refine h.place.of_backend ⟨rfl, rfl, rfl, hprod.1, hprod.2⟩ (fun j _ hflight => ?_)
    change b'.status j = _
    rw [hstatus]
    exact h.status_complete hi j hflight
  · refine h.backend.erase (i := i) ⟨rfl, rfl, rfl, rfl⟩ (Or.inl rfl) (fun j hj hne => ?_)
    change b'.status j = _
    rw [hstatus]
    exact (Function.update_of_ne hne _ _).trans (h.backend.usb_inFlight j hj)

theorem TxInv.ship_head (h : t.TxInv body)
    (hrun : t.stream = .running) (hsub : t.b.submitter = .callback)
    (hcons : t.b.consI = some c) (hfull : t.b.status c = .full) :
    (t.point = .outside ∨ t.point = .starting ∨ t.point = .waiting) ∧
      ∃ rest, body = c :: rest := by
  have hmem := (h.queue.full_iff c).mp hfull
  rcases t.point_cases with hp | ⟨idx, r, hp⟩ | ⟨caller, idx, r, hp, hc⟩
  · refine ⟨hp, ?_⟩
    have hhead := ((duty_rest hp).mp h.duty).atHead c hcons
    cases body with
    | nil => simp at hmem
    | cons i rest => exact ⟨rest, by rw [hhead]; rfl⟩
  · have hd := (duty_own hp).mp h.duty
    exact absurd (hsub.symm.trans hd.2.1) (by simp)
  · have hd := (duty_reclaim hp hc).mp h.duty
    by_cases hr : r = some .accepted
    · simp only [DutyReclaim, if_pos hr] at hd
      exact absurd (hd.1 c hcons ▸ hmem.1) hd.2.2.1
    · -- the head is the slot being submitted, which is not `FULL`
      obtain ⟨rest, rfl⟩ := h.body_eq_cons hp hr hrun
      simp only [DutyReclaim, if_neg hr] at hd
      have hidx : c = idx := hd.1 c hcons
      exact absurd (by simp [openSlot, hp, hr, hidx]) hmem.2

/-- The slot `i` has completed and the callback ships the slot `c`. -/
def shipped (t : TxSync n) (i c : Fin n) : TxSync n :=
  { t with
    b := { (t.b.setStatus i .empty).setStatus c .inFlight with consI := some (c + 1) }
    usb := t.usb.erase i
    pending := some c }

section

variable (h : t.TxInv body)

include h

theorem complete_ship_inv
    (hrun : t.stream = .running) (hpend : t.pending = none) (hi : i ∈ t.usb)
    (hsub : t.b.submitter = .callback) (hcons : t.b.consI = some c)
    (hfull : (t.b.setStatus i .empty).status c = .full) :
    ∃ body', (t.shipped i c).TxInv body' := by
  have hci : c ≠ i := by
    rintro rfl
    simp [TxBufferMgmt.setStatus] at hfull
  have hfull' : t.b.status c = .full := by
    simpa [TxBufferMgmt.setStatus, Function.update_of_ne hci] using hfull
  obtain ⟨hp, rest, rfl⟩ := h.ship_head hrun hsub hcons hfull'
  obtain ⟨hlimbo, hrej⟩ := h.backend.limbo_running hrun hpend
  have hopen : t.openSlot = none := by rcases hp with hp | hp | hp <;> simp [openSlot, hp]
  have hnext : t.nextI = t.b.prodI := by rcases hp with hp | hp | hp <;> simp [nextI, hp]
  have hq := h.queue_complete hi
  rw [hlimbo, hopen, hnext] at hq
  have husb : c ∉ t.usb := h.backend.not_mem (by simp [hfull'])
  have hne : ∀ j ∈ t.usb, j ≠ i →
      ((t.b.setStatus i .empty).setStatus c .inFlight).status j = .inFlight := by
    intro j hj hji
    have hjc : j ≠ c := fun heq => husb (heq ▸ hj)
    simpa [TxBufferMgmt.setStatus, Function.update_of_ne hjc, Function.update_of_ne hji] using
      h.backend.usb_inFlight j hj
  have hmem : ∀ j ∈ t.usb.erase i, j ∈ t.usb ∧ j ≠ i := fun j hj =>
    ⟨List.mem_of_mem_erase hj, (h.backend.usb_nodup.mem_erase_iff.mp hj).1⟩
  refine ⟨rest, ?_, ?_, ?_, ⟨fun j hj => hne j (hmem j hj).1 (hmem j hj).2, ?_, ?_,
    h.backend.running, ?_, ?_⟩, ?_⟩
  · have hopen' : (t.shipped i c).openSlot = none := hopen
    have hnext' : (t.shipped i c).nextI = t.b.prodI := hnext
    rw [hopen', hnext']
    exact hq.ship
  · refine (duty_rest ?_).mpr ⟨?_, fun hfn => ?_⟩
    · exact hp
    · intro d hd
      obtain rfl := Option.some.inj hd
      exact hq.runs.1
    · exact absurd (hsub.symm.trans hfn) (by simp)
  · refine h.place.of_backend ⟨rfl, rfl, rfl, rfl, rfl⟩ (fun j hjfull hjflight => ?_)
    have hjc : j ≠ c := fun heq => hjfull (heq ▸ hfull')
    exact (Function.update_of_ne hjc _ _).trans (h.status_complete hi j hjflight)
  · intro j hj heq
    have hjc : c = j := Option.some.inj heq
    exact husb (hjc ▸ (hmem j hj).1)
  · exact h.backend.usb_nodup.erase i
  · intro hor
    have hnil := h.backend.usb_nil hor
    rw [hnil] at hi
    simp at hi
  · intro d hd
    exact absurd (hrej.symm.trans hd) (by simp)
  · intro j _ hj
    exact absurd (hopen.symm.trans hj) (by simp)

theorem complete_inv
    (hs : t.stepBackend (.complete i) = some u) : ∃ body', u.TxInv body' := by
  simp only [stepBackend] at hs
  split at hs
  · rename_i hguard
    obtain ⟨hrun, hpend, hi⟩ := hguard
    split at hs
    · simp at hs
    · rename_i b' ret hcb
      obtain rfl := Option.some.inj hs
      rcases TxBufferMgmt.txCallback_cases hcb with ⟨rfl, rfl⟩ | ⟨hb', rfl⟩ |
        ⟨c, hsub, hcons, hfull, rfl, rfl⟩
      · -- the stop request: the ring is left as it is
        refine ⟨body, h.queue, h.duty, h.place, ?_, ?_⟩
        · exact h.backend.erase (i := i) ⟨rfl, rfl, rfl, rfl⟩ (Or.inr rfl)
            (fun j hj _ => h.backend.usb_inFlight j hj)
        · exact fun j hj => h.usb_open j (List.mem_of_mem_erase hj)
      · exact ⟨body, complete_noData_inv h hi hb'⟩
      · exact complete_ship_inv h hrun hpend hi hsub hcons hfull
  · simp at hs

theorem callbackAccepted_inv
    (hpend : t.pending = some c) (hrun : t.stream = .running) :
    TxInv (accept { t with pending := none } c) body := by
  have hlimbo : t.limbo = some c := by simp [limbo, hpend]
  have hrej : t.rejected = none := by
    cases hr : t.rejected with
    | none => rfl
    | some d => exact absurd hrun (h.backend.rejected d hr).2
  have hlimbo' : limbo (accept { t with pending := none } c) = none := by
    simp [limbo, accept, hrej]
  have hq := h.queue
  rw [hlimbo] at hq
  refine ⟨?_, ?_, h.place, ⟨?_, ?_, ?_, h.backend.running, ?_, ?_⟩, ?_⟩
  · rw [hlimbo']
    exact hq.accept_lead
  · refine h.duty.of_backend ⟨rfl, rfl, rfl, rfl⟩ id (fun hnone => ?_)
    exact absurd (hpend.symm.trans hnone.1) (by simp)
  · intro i hi
    rcases List.mem_append.mp hi with hi | hi
    · exact h.backend.usb_inFlight i hi
    · rw [List.mem_singleton.mp hi]
      exact hq.lead_inFlight c (by simp)
  · intro i _ hi
    exact absurd (hlimbo'.symm.trans hi) (by simp)
  · refine List.nodup_append.mpr ⟨h.backend.usb_nodup, List.nodup_singleton _, ?_⟩
    intro i hi j hj heq
    have hic : i = c := heq.trans (List.mem_singleton.mp hj)
    exact h.backend.usb_limbo i hi (hlimbo.trans (congrArg some hic.symm))
  · intro hor
    have hworker := h.backend.running hrun
    rcases hor with hdone | hw
    · exact absurd (hrun.symm.trans hdone) (by simp)
    · exact absurd hworker hw
  · intro d hd
    exact absurd (hrej.symm.trans hd) (by simp)
  · intro i hi hopen
    rcases List.mem_append.mp hi with hi | hi
    · exact h.usb_open i hi hopen
    · -- the slot of the callback is not the one `sync_tx` is submitting
      rw [List.mem_singleton.mp hi] at hopen
      have hbody := (hq.open_mem c hopen).1
      exact (List.nodup_cons.mp hq.nodup).1 hbody

theorem callbackRefused_inv (hpend : t.pending = some c)
    (hu : u = { t with pending := none, rejected := some c, stream := .shuttingDown } ∨
      u = { t with pending := none, stream := .shuttingDown }) :
    u.TxInv body := by
  have hlimbo : t.limbo = some c := by simp [limbo, hpend]
  have hrej : t.rejected = none := by
    cases hr : t.rejected with
    | none => rfl
    | some d => exact absurd (hpend.symm.trans (h.backend.rejected d hr).1) (by simp)
  have hlimbo' : u.limbo = some c ∨ u.limbo = none := by
    rcases hu with rfl | rfl
    · by_cases hw : t.worker = .streaming <;> simp [limbo, hw]
    · simp [limbo, hrej]
  have hq := h.queue
  rw [hlimbo] at hq
  have hq' : TxQueue t.b.status u.limbo.toList t.openSlot body t.nextI t.accepted t.fillOf
      t.fills := by
    rcases hlimbo' with hl | hl
    · rw [hl]
      exact hq
    · rw [hl]
      have hq' : TxQueue t.b.status ([c] ++ []) t.openSlot body t.nextI t.accepted t.fillOf
          t.fills := hq
      exact hq'.drop_lead
  have hb : u.Backend := by
    have hu' : u.usb = t.usb ∧ u.b = t.b ∧ u.worker = t.worker ∧ u.pending = none ∧
        u.stream = .shuttingDown := by
      rcases hu with rfl | rfl <;> exact ⟨rfl, rfl, rfl, rfl, rfl⟩
    obtain ⟨husb, hbb, hworker, hup, hus⟩ := hu'
    refine ⟨?_, ?_, ?_, ?_, ?_, ?_⟩
    · rw [husb, hbb]
      exact h.backend.usb_inFlight
    · intro i hi heq
      rw [husb] at hi
      rcases hlimbo' with hl | hl
      · exact h.backend.usb_limbo i hi (hlimbo.trans (hl.symm.trans heq))
      · exact absurd (hl.symm.trans heq) (by simp)
    · rw [husb]
      exact h.backend.usb_nodup
    · intro hrun
      exact absurd (hus.symm.trans hrun) (by simp)
    · intro hor
      rw [husb]
      rw [hworker] at hor
      exact h.backend.usb_nil (hor.imp_left (fun hdone => absurd (hus.symm.trans hdone) (by simp)))
    · intro d _
      exact ⟨hup, by simp [hus]⟩
  have hd : u.Duty body := by
    rcases hu with rfl | rfl <;>
      exact h.duty.of_backend ⟨rfl, rfl, rfl, rfl⟩ id
        (fun hnone => absurd (hpend.symm.trans hnone.1) (by simp))
  rcases hu with rfl | rfl
  · exact ⟨hq', hd, h.place, hb, h.usb_open⟩
  · exact ⟨hq', hd, h.place, hb, h.usb_open⟩

theorem stepBackend_inv
    (hs : t.stepBackend a = some u) : ∃ body', u.TxInv body' := by
  cases a with
  | complete i => exact complete_inv h hs
  | cancelled i =>
      simp only [stepBackend] at hs
      split at hs
      · obtain rfl := Option.some.inj hs
        refine ⟨body, h.queue, h.duty, h.place, ?_, ?_⟩
        · exact h.backend.erase (i := i) ⟨rfl, rfl, rfl, rfl⟩ (Or.inl rfl)
            (fun j hj _ => h.backend.usb_inFlight j hj)
        · exact fun j hj => h.usb_open j (List.mem_of_mem_erase hj)
      · simp at hs
  | callbackSubmit r =>
      simp only [stepBackend] at hs
      cases hpend : t.pending with
      | none => simp [hpend] at hs
      | some c =>
          simp only [hpend] at hs
          cases r with
          | accepted =>
              simp only at hs
              split at hs
              · rename_i hrun
                obtain rfl := Option.some.inj hs
                exact ⟨body, callbackAccepted_inv h hpend hrun⟩
              · simp at hs
          | rejected =>
              obtain rfl := Option.some.inj hs
              exact ⟨body, callbackRefused_inv h hpend (Or.inl rfl)⟩
          | lost =>
              obtain rfl := Option.some.inj hs
              exact ⟨body, callbackRefused_inv h hpend (Or.inr rfl)⟩
  | streamStop =>
      simp only [stepBackend] at hs
      split at hs
      · obtain rfl := Option.some.inj hs
        refine ⟨body, h.queue, h.duty, h.place, ⟨h.backend.usb_inFlight, h.backend.usb_limbo,
          h.backend.usb_nodup, by simp, ?_, fun c hc => ⟨(h.backend.rejected c hc).1, by simp⟩⟩,
          h.usb_open⟩
        intro hor
        exact h.backend.usb_nil (hor.imp_left (fun hdone => by simp at hdone))
      · simp at hs
  | streamDone =>
      simp only [stepBackend] at hs
      split at hs
      · rename_i hguard
        obtain rfl := Option.some.inj hs
        exact ⟨body, h.queue, h.duty, h.place, ⟨h.backend.usb_inFlight, h.backend.usb_limbo,
          h.backend.usb_nodup, by simp, fun _ => hguard.2,
          fun c hc => ⟨(h.backend.rejected c hc).1, by simp⟩⟩, h.usb_open⟩
      · simp at hs
  | _ => simp [stepBackend] at hs

end

/-! ## The steps that keep the order -/

/-- `sync_tx` is inside `async_submit_stream_buffer`. -/
def submitting (t : TxSync n) : Bool :=
  match t.point with
  | .submitting _ _ _ => true
  | _ => false

def submittingOwn (t : TxSync n) : Bool :=
  match t.point with
  | .submitting .advance _ _ => true
  | _ => false

/-- A reclaim that `advance_tx_buffer` made has failed. -/
def advanceReclaimFailed (t : TxSync n) : Bool :=
  match t.point with
  | .submitting .reclaimAdvance _ (some .failed) => true
  | _ => false

/-- The step hands the slot at `prod_i` to `advance_tx_buffer`. -/
def entersAdvance (t : TxSync n) : TxAct n → Bool
  | .usingBuffer remaining => t.cfg.samplesPerBuffer ≤ t.copiedOff remaining
  | .usingBufferMeta endMsg => t.cfg.msgPerBuf ≤ t.copiedMsgs endMsg
  | .usingPacketMeta => true
  | _ => false

/-- The steps that keep the order:
* the backend takes a buffer from `sync_tx` only if no callback's buffer is
  being checked;
* a reclaim that `advance_tx_buffer` makes does not fail;
* the worker does not restart while a submission is open;
* a refused buffer is not restored while `sync_tx` submits a buffer it has just
  filled;
* `advance_tx_buffer` submits the new buffer itself only if no older one is
  still `FULL`. -/
def Orderly (t : TxSync n) : TxAct n → Prop
  | .submitDone .accepted => t.pending = none
  | .submitReturn => t.advanceReclaimFailed = false
  | .execIdle => t.submitting = false ∧ t.pending = none
  | .streamEnd => t.submittingOwn = true → t.rejected = none
  | a => t.entersAdvance a = true → t.b.submitter = .fn → t.b.oldestFullBuffer = none

instance (t : TxSync n) (a : TxAct n) : Decidable (t.Orderly a) :=
  match a with
  | .submitDone .accepted => inferInstanceAs (Decidable (t.pending = none))
  | .submitReturn => inferInstanceAs (Decidable (t.advanceReclaimFailed = false))
  | .execIdle => inferInstanceAs (Decidable (t.submitting = false ∧ t.pending = none))
  | .streamEnd => inferInstanceAs (Decidable (t.submittingOwn = true → t.rejected = none))
  | .submitDone .wouldBlock | .submitDone .failed | .checkWorker | .startWorker
  | .startWorkerDone _ | .waitForBuffer | .waitDone _ | .bufferReady | .usingBuffer _
  | .usingBufferMeta _ | .usingPacketMeta | .complete _ | .cancelled _ | .callbackSubmit _
  | .streamStop | .streamDone | .requestStop | .runStream | .publish _ =>
      inferInstanceAs (Decidable (t.entersAdvance _ = true → t.b.submitter = .fn →
        t.b.oldestFullBuffer = none))

/-! ## The worker's steps -/

theorem execIdle_inv (h : t.TxInv body)
    (hok : t.Orderly .execIdle) (hs : t.stepWorker .execIdle = some u) :
    ∃ body', u.TxInv body' := by
  obtain ⟨hsub, hpend⟩ := hok
  have hp : t.point = .outside ∨ t.point = .starting ∨ t.point = .waiting := by
    cases hpt : t.point with
    | outside => simp
    | starting => simp
    | waiting => simp
    | submitting caller idx r => simp [submitting, hpt] at hsub
  simp only [stepWorker] at hs
  split at hs
  · simp at hs
  · rename_i hidle
    have hidle : t.worker = .idle := not_not.mp hidle
    have hlimbo : t.limbo = none := by simp [limbo, hpend, hidle]
    have husb : t.usb = [] := h.backend.usb_nil (Or.inr (by simp [hidle]))
    have hrun : t.stream ≠ .running := fun hr => by
      have := h.backend.running hr
      simp [hidle] at this
    have hb : ∀ (b : TxBufferMgmt n) (w : TxWorker) (start stop : Bool), w ≠ .streaming →
        Backend { t with b := b, worker := w, startRequested := start, stopRequested := stop } := by
      intro b w start stop hw
      refine ⟨by simp [husb], by simp [husb], by simp [husb], fun hr => absurd hr hrun,
        fun _ => husb, h.backend.rejected⟩
    have hq := h.queue
    split at hs
    · obtain rfl := Option.some.inj hs
      refine ⟨body, ?_, ?_, h.place, hb _ .stopped _ _ (by simp), by simp [husb]⟩
      · have hl : limbo { t with worker := .stopped } = t.limbo := by simp [limbo, hpend, hidle]
        rw [← hl] at hq
        exact hq
      · refine h.duty.of_backend ⟨rfl, rfl, rfl, rfl⟩ (fun _ => by simp) id
    · split at hs
      · obtain rfl := Option.some.inj hs
        refine ⟨body, ?_, ?_, ?_, hb _ .starting _ _ (by simp), by simp [husb]⟩
        · have hl : limbo { t with worker := .starting } = t.limbo := by
            simp [limbo, hpend, hidle]
          rw [← hl] at hq
          refine hq.congr_status (fun i => ?_) (fun i hi => ?_)
          · by_cases hf : t.b.status i = .inFlight <;> simp [TxBufferMgmt.retireInFlight, hf]
          · rw [hl, hlimbo] at hi
            have hopen : t.openSlot = none := by
              rcases hp with hp | hp | hp <;> simp [openSlot, hp]
            have hi' : t.openSlot = some i := hi.resolve_left (by simp)
            exact absurd (hopen.symm.trans hi') (by simp)
        · refine (duty_rest ?_).mpr ?_
          · exact hp
          · have hset := (duty_rest hp).mp h.duty
            exact ⟨hset.atHead, hset.fn⟩
        · refine h.place.of_backend ⟨rfl, rfl, rfl, rfl, rfl⟩ (fun i _ hflight => ?_)
          simp [TxBufferMgmt.retireInFlight, hflight]
      · simp at hs

theorem streamEnd_inv (h : t.TxInv body)
    (hok : t.Orderly .streamEnd) (hs : t.stepWorker .streamEnd = some u) :
    ∃ body', u.TxInv body' := by
  simp only [stepWorker] at hs
  split at hs
  · rename_i hguard
    obtain ⟨hworker, hdone⟩ := hguard
    obtain rfl := Option.some.inj hs
    have husb : t.usb = [] := h.backend.usb_nil (Or.inl hdone)
    have hq := h.queue
    cases hrej : t.rejected with
    | none =>
        have heq : t.restoreRejected = t := by simp [restoreRejected, hrej]
        rw [heq]
        refine ⟨body, ?_, ?_, h.place, ⟨h.backend.usb_inFlight, by simp [husb],
          h.backend.usb_nodup, by simp [hdone], fun _ => husb, h.backend.rejected⟩, h.usb_open⟩
        · have hl : limbo { t with worker := .ended } = t.limbo := by
            cases hpend : t.pending <;> simp [limbo, hpend, hrej]
          rw [hl]
          exact hq
        · exact h.duty.of_backend ⟨rfl, rfl, rfl, rfl⟩ (fun _ => by simp) id
    | some c =>
        obtain ⟨hpend, -⟩ := h.backend.rejected c hrej
        have hlimbo : t.limbo = some c := by simp [limbo, hpend, hworker, hrej]
        rw [hlimbo] at hq
        have hflight : t.b.status c = .inFlight := hq.lead_inFlight c (by simp)
        have heq : t.restoreRejected =
            { t with
              b := { t.b.setStatus c .full with submitter := .callback, consI := some c }
              rejected := none } := by
          simp [restoreRejected, hrej, TxBufferMgmt.restoreRejectedTxBuffer, hflight]
        rw [heq]
        refine ⟨c :: body, ?_, ?_, ?_, ⟨by simp [husb], by simp [husb], by simp [husb],
          by simp [hdone], fun _ => husb, by simp⟩, by simp [husb]⟩
        · have hl : limbo { t with rejected := none, worker := .ended } = none := by
            simp [limbo, hpend]
          have hq' := hq.restore
          change TxQueue _ (Option.toList (limbo { t with rejected := none, worker := .ended }))
            _ _ _ _ _ _
          rw [hl]
          exact hq'
        · rcases t.point_cases with hp | ⟨idx, r, hp⟩ | ⟨caller, idx, r, hp, hc⟩
          · refine (duty_rest ?_).mpr ⟨?_, by simp⟩
            · exact hp
            · intro d hd
              exact (Option.some.inj hd).symm
          · have hown : t.submittingOwn = true := by simp [submittingOwn, hp]
            exact absurd (hrej.symm.trans (hok hown)) (by simp)
          · have hd := (duty_reclaim hp hc).mp h.duty
            have hp' : point { t with
                b := { t.b.setStatus c .full with submitter := .callback, consI := some c }
                rejected := none
                worker := .ended } = .submitting caller idx r := hp
            refine (duty_reclaim hp' hc).mpr ?_
            by_cases hr : r = some .accepted
            · simp only [DutyReclaim, if_pos hr] at hd
              exact absurd (hrej.symm.trans hd.2.2.2.2) (by simp)
            · simp only [DutyReclaim, if_neg hr]
              refine ⟨?_, Or.inr (by simp)⟩
              intro d hd
              exact (Option.some.inj hd).symm
        · refine h.place.of_backend ⟨rfl, rfl, rfl, rfl, rfl⟩ (fun i _ hif => ?_)
          have hne : i ≠ c := fun heq => hif (heq ▸ hflight)
          exact Function.update_of_ne hne _ _
  · simp at hs

theorem stepWorker_inv (h : t.TxInv body)
    (hok : t.Orderly a) (hs : t.stepWorker a = some u) : ∃ body', u.TxInv body' := by
  cases a with
  | execIdle => exact execIdle_inv h hok hs
  | streamEnd => exact streamEnd_inv h hok hs
  | requestStop =>
      obtain rfl := Option.some.inj hs
      exact ⟨body, h.queue, h.duty, h.place, h.backend.of_producer ⟨rfl, rfl, rfl, rfl, rfl⟩
        h.backend.usb_inFlight, h.usb_open⟩
  | runStream =>
      simp only [stepWorker] at hs
      split at hs
      · simp at hs
      · rename_i hstart
        have hstart : t.worker = .starting := not_not.mp hstart
        have husb : t.usb = [] := h.backend.usb_nil (Or.inr (by simp [hstart]))
        obtain rfl := Option.some.inj hs
        refine ⟨body, ?_, ?_, h.place, ⟨by simp [husb], by simp [husb], by simp [husb],
          fun _ => rfl, fun _ => husb, by simp⟩, by simp [husb]⟩
        · have hl : limbo { t with stream := .running, rejected := none, worker := .streaming }
              = t.limbo := by
            cases hpend : t.pending <;> simp [limbo, hpend, hstart]
          rw [hl]
          exact h.queue
        · exact h.duty.of_backend ⟨rfl, rfl, rfl, rfl⟩ (fun hw => absurd hstart hw.1)
            (fun hp => ⟨hp.1, rfl⟩)
  | publish status =>
      simp only [stepWorker] at hs
      split at hs
      · simp at hs
      · rename_i hended
        have hended : t.worker = .ended := not_not.mp hended
        have husb : t.usb = [] := h.backend.usb_nil (Or.inr (by simp [hended]))
        obtain rfl := Option.some.inj hs
        refine ⟨body, ?_, ?_, h.place, ⟨by simp [husb], by simp [husb], by simp [husb], ?_,
          fun _ => husb, h.backend.rejected⟩, by simp [husb]⟩
        · have hl : limbo { t with errCode := status, worker := .idle } = t.limbo := by
            cases hpend : t.pending <;> simp [limbo, hpend, hended]
          rw [hl]
          exact h.queue
        · exact h.duty.of_backend ⟨rfl, rfl, rfl, rfl⟩ (fun _ => by simp) id
        · intro hrun
          have := h.backend.running hrun
          simp [hended] at this
  | _ => simp [stepWorker] at hs

/-! ## The producer's steps -/

section

variable (h : t.TxInv body)

include h

theorem copySamples_inv {remaining : ℕ}
    (hp : t.point = .outside) (hstate : t.state = .usingBuffer)
    (hok : t.Orderly (.usingBuffer remaining)) : ∃ body', (t.copySamples remaining).TxInv body' := by
  have hrest := h.resting (Or.inl hp)
  have hpl := h.place
  simp only [Place, hp, hstate] at hpl
  obtain ⟨hst, hoff⟩ := hpl
  have hrest' : Resting { t with b := { t.b with partialOff := t.copiedOff remaining } } body
      t.b.prodI :=
    ⟨hrest.queue, ⟨hrest.settled.atHead, hrest.settled.fn⟩,
      h.backend.of_producer ⟨rfl, rfl, rfl, rfl, rfl⟩ h.backend.usb_inFlight⟩
  simp only [copySamples, if_pos hoff]
  split
  · rename_i hfull
    exact fill_inv hrest' hst (hok (by simpa [entersAdvance] using hfull))
  · rename_i hfull
    refine ⟨body, ?_, ?_, ?_, hrest'.backend, fun i _ => by simp [openSlot, hp]⟩
    · have hopen : t.openSlot = none := by simp [openSlot, hp]
      have hnext : t.nextI = t.b.prodI := by simp [nextI, hp]
      have hq := h.queue
      rw [hopen, hnext] at hq
      have hopen' : openSlot { t with b := { t.b with partialOff := t.copiedOff remaining } }
          = none := hopen
      have hnext' : nextI { t with b := { t.b with partialOff := t.copiedOff remaining } }
          = t.b.prodI := hnext
      rw [hopen', hnext']
      exact hq
    · exact h.duty.of_backend ⟨rfl, rfl, rfl, rfl⟩ id id
    · simp only [Place, hp, hstate]
      exact ⟨hst, Nat.lt_of_not_le hfull⟩

theorem copyMessage_inv {endMsg : Bool}
    (hp : t.point = .outside) (hstate : t.state = .usingBufferMeta)
    (hok : t.Orderly (.usingBufferMeta endMsg)) : ∃ body', (t.copyMessage endMsg).TxInv body' := by
  have hrest := h.resting (Or.inl hp)
  have hst := h.place
  simp only [Place, hp, hstate] at hst
  have hb : Backend { t with msgNum := t.copiedMsgs endMsg } :=
    h.backend.of_producer ⟨rfl, rfl, rfl, rfl, rfl⟩ h.backend.usb_inFlight
  simp only [copyMessage]
  split
  · rename_i hfull
    exact fill_inv (t := { t with msgNum := t.copiedMsgs endMsg })
      ⟨hrest.queue, hrest.settled, hb⟩ hst (hok (by simpa [entersAdvance] using hfull))
  · exact ⟨body, h.queue, h.duty, h.place, hb, h.usb_open⟩

theorem bufferReady_inv
    (hp : t.point = .outside) (hs : t.stepState .bufferReady = some u) :
    ∃ body', u.TxInv body' := by
  simp only [stepState] at hs
  split at hs
  · simp at hs
  · rename_i hstate
    have hstate : t.state = .bufferReady := not_not.mp hstate
    have hempty := h.place
    simp only [Place, hp, hstate] at hempty
    have husb : t.b.prodI ∉ t.usb := h.backend.not_mem (by simp [hempty])
    have hopen : t.openSlot = none := by simp [openSlot, hp]
    obtain rfl := Option.some.inj hs
    refine ⟨body, ?_, ?_, ?_, h.backend.of_producer ⟨rfl, rfl, rfl, rfl, rfl⟩
      (h.backend.setStatus .partlyUsed husb), h.usb_open⟩
    · refine h.queue.update_status (by simp [hempty]) (by simp) ?_ (by simp [hopen])
      intro hmem
      have := h.queue.lead_inFlight _ hmem
      simp [hempty] at this
    · exact h.duty.of_backend ⟨rfl, rfl, rfl, rfl⟩ id id
    · cases t.cfg.format <;>
        simp [Place, hp, usingState, TxBufferMgmt.setStatus, t.cfg.samplesPerBuffer_pos]

theorem stepState_inv
    (hp : t.point = .outside) (hok : t.Orderly a) (hs : t.stepState a = some u) :
    ∃ body', u.TxInv body' := by
  have hrest := h.resting (Or.inl hp)
  -- a step that only moves to a state in which no slot is being filled
  have hmove : ∀ (state : SyncState) (err : ℤ), state.filling = false →
      TxInv { t with state := state, errCode := err } body := by
    intro state err hstate
    have hrest' : Resting { t with state := state, errCode := err } body t.b.prodI :=
      ⟨hrest.queue, hrest.settled,
        h.backend.of_producer ⟨rfl, rfl, rfl, rfl, rfl⟩ h.backend.usb_inFlight⟩
    have hinv := hrest'.inv hstate (Or.inl hp)
    exact hinv
  cases a with
  | checkWorker =>
      simp only [stepState] at hs
      split at hs
      · simp at hs
      · rename_i hstate
        have hstate : t.state = .checkWorker := not_not.mp hstate
        split at hs
        · obtain rfl := Option.some.inj hs
          refine ⟨body, h.queue, h.duty, h.place, ?_, h.usb_open⟩
          exact h.backend.of_producer ⟨rfl, rfl, rfl, rfl, rfl⟩ h.backend.usb_inFlight
        · split at hs
          · obtain rfl := Option.some.inj hs
            exact ⟨body, hmove .startWorker t.errCode rfl⟩
          · split at hs
            · obtain rfl := Option.some.inj hs
              exact ⟨body, h⟩
            · obtain rfl := Option.some.inj hs
              exact ⟨body, hmove .waitForBuffer t.errCode rfl⟩
  | startWorker =>
      simp only [stepState] at hs
      split at hs
      · simp at hs
      · rename_i hstate
        have hstate : t.state = .startWorker := not_not.mp hstate
        obtain rfl := Option.some.inj hs
        have hrest' : Resting { t with startRequested := true } body t.b.prodI :=
          ⟨hrest.queue, hrest.settled,
            h.backend.of_producer ⟨rfl, rfl, rfl, rfl, rfl⟩ h.backend.usb_inFlight⟩
        have hfill : t.state.filling = false := by simp [hstate, SyncState.filling]
        exact ⟨body, hrest'.inv hfill (Or.inr (Or.inl rfl))⟩
  | waitForBuffer =>
      simp only [stepState] at hs
      split at hs
      · simp at hs
      · rename_i hstate
        have hstate : t.state = .waitForBuffer := not_not.mp hstate
        split at hs
        · rename_i hempty
          obtain rfl := Option.some.inj hs
          refine ⟨body, h.queue, h.duty, ?_, ?_, h.usb_open⟩
          · simp only [Place, hp]
            exact hempty
          · exact h.backend.of_producer ⟨rfl, rfl, rfl, rfl, rfl⟩ h.backend.usb_inFlight
        · obtain rfl := Option.some.inj hs
          exact ⟨body, waitLoop_inv hrest (by simp [hstate, SyncState.filling])⟩
  | bufferReady => exact bufferReady_inv h hp hs
  | usingBuffer remaining =>
      simp only [stepState] at hs
      split at hs
      · simp at hs
      · rename_i hguard
        obtain ⟨hstate, -⟩ := not_or.mp hguard
        obtain rfl := Option.some.inj hs
        exact copySamples_inv h hp (not_not.mp hstate) hok
  | usingBufferMeta endMsg =>
      simp only [stepState] at hs
      split at hs
      · simp at hs
      · rename_i hstate
        obtain rfl := Option.some.inj hs
        exact copyMessage_inv h hp (not_not.mp hstate) hok
  | usingPacketMeta =>
      simp only [stepState] at hs
      split at hs
      · simp at hs
      · rename_i hstate
        have hstate : t.state = .usingPacketMeta := not_not.mp hstate
        have hst := h.place
        simp only [Place, hp, hstate] at hst
        obtain rfl := Option.some.inj hs
        exact fill_inv hrest hst (hok rfl)
  | _ => simp [stepState] at hs

theorem stepInside_inv
    (hok : t.Orderly a) (hs : t.stepInside a = some u) : ∃ body', u.TxInv body' := by
  cases a with
  | startWorkerDone reached =>
      simp only [stepInside] at hs
      split at hs
      · simp at hs
      · rename_i hp
        have hp : t.point = .starting := not_not.mp hp
        have hrest := h.resting (Or.inr (Or.inl hp))
        have hfill := h.place
        simp only [Place, hp] at hfill
        split at hs
        · split at hs
          · simp at hs
          · obtain rfl := Option.some.inj hs
            have hrest' : Resting { t with state := .waitForBuffer } body t.b.prodI :=
              ⟨hrest.queue, hrest.settled,
                h.backend.of_producer ⟨rfl, rfl, rfl, rfl, rfl⟩ h.backend.usb_inFlight⟩
            exact ⟨body, hrest'.inv rfl (Or.inl rfl)⟩
        · obtain rfl := Option.some.inj hs
          exact ⟨body, hrest.inv hfill (Or.inl rfl)⟩
  | waitDone result =>
      simp only [stepInside] at hs
      split at hs
      · simp at hs
      · rename_i hp
        have hp : t.point = .waiting := not_not.mp hp
        have hrest := h.resting (Or.inr (Or.inr hp))
        have hfill := h.place
        simp only [Place, hp] at hfill
        cases result with
        | woken =>
            simp only at hs
            split at hs
            · obtain rfl := Option.some.inj hs
              have hrest' : Resting { t with state := .checkWorker } body t.b.prodI :=
                ⟨hrest.queue, hrest.settled,
                  h.backend.of_producer ⟨rfl, rfl, rfl, rfl, rfl⟩ h.backend.usb_inFlight⟩
              exact ⟨body, waitStatus_inv hrest' rfl _⟩
            · obtain rfl := Option.some.inj hs
              exact ⟨body, waitStatus_inv hrest hfill _⟩
        | timedOut =>
            obtain rfl := Option.some.inj hs
            exact ⟨body, waitStatus_inv hrest hfill _⟩
        | failed =>
            obtain rfl := Option.some.inj hs
            exact ⟨body, waitStatus_inv hrest hfill _⟩
  | submitDone r =>
      simp only [stepInside] at hs
      split at hs
      · rename_i caller idx hp
        by_cases hr : r = .accepted
        · subst hr
          simp only [if_true] at hs
          split at hs
          · rename_i hrun
            obtain rfl := Option.some.inj hs
            exact submitAccepted_inv h hp hrun hok
          · simp at hs
        · rw [if_neg hr] at hs
          obtain rfl := Option.some.inj hs
          exact ⟨body, submitDone_inv h hp hr⟩
      · simp at hs
  | submitReturn =>
      simp only [stepInside] at hs
      split at hs
      · rename_i caller idx r hp
        obtain rfl := Option.some.inj hs
        refine submitReturn_inv h hp ?_
        rintro ⟨rfl, rfl⟩
        have hfail : t.advanceReclaimFailed = false := hok
        simp [advanceReclaimFailed, hp] at hfail
      · simp at hs
  | _ => simp [stepInside] at hs

end

/-! ## Runs -/

theorem step_inv (h : ∃ body, t.TxInv body) (hok : t.Orderly a)
    (hs : t.step a = some u) : ∃ body, u.TxInv body := by
  obtain ⟨body, h⟩ := h
  have hstate : (if t.point = .outside then t.stepState a else none) = some u →
      ∃ body', u.TxInv body' := by
    intro hs
    split at hs
    · rename_i hp
      exact stepState_inv h hp hok hs
    · simp at hs
  cases a with
  | checkWorker | startWorker | waitForBuffer | bufferReady | usingBuffer _ | usingBufferMeta _
  | usingPacketMeta => exact hstate hs
  | startWorkerDone _ | waitDone _ | submitDone _ | submitReturn => exact stepInside_inv h hok hs
  | complete _ | cancelled _ | callbackSubmit _ | streamStop | streamDone =>
      simp only [step] at hs
      exact stepBackend_inv h hs
  | requestStop | execIdle | runStream | streamEnd | publish _ => exact stepWorker_inv h hok hs

/-- In every run of orderly steps, the backend accepts buffers in the order in
which `sync_tx` filled them, and none of them twice. -/
theorem tx_fifo_of_orderly (cfg : TxConfig) {acts : List (TxAct n)} {t : TxSync n}
    (h : Lib.Steps step Orderly (init cfg) acts t) :
    t.accepted.Pairwise (· < ·) ∧ ∀ k ∈ t.accepted, k < t.fills := by
  obtain ⟨body, hinv⟩ := h.invariant (P := fun t => ∃ body, t.TxInv body) ⟨[], init_inv cfg⟩
    step_inv
  refine ⟨(List.pairwise_append.mp hinv.queue.line).1, fun k hk => ?_⟩
  exact hinv.queue.bound k (List.mem_append_left _ hk)

def smallConfig : TxConfig := ⟨.sc16Q11, 1, Nat.one_pos, 1⟩

/-- The worker starts, the first buffer is accepted, and the second finds no free
transfer: the duty is with the callback. -/
def deferred : List (TxAct 3) :=
  [.checkWorker, .startWorker, .execIdle, .runStream, .startWorkerDone true, .waitForBuffer,
    .bufferReady, .usingBuffer 1, .submitDone .accepted, .submitReturn,
    .bufferReady, .usingBuffer 1, .submitDone .wouldBlock, .submitReturn,
    .bufferReady, .usingBuffer 1]

/-- A callback ships the deferred buffers in turn, and the duty comes back. -/
theorem tx_fifo_of_orderly_deferred : ∃ t, Lib.Steps step Orderly (init smallConfig)
    (deferred ++ [TxAct.submitDone .wouldBlock, .submitReturn, .complete 0, .callbackSubmit .accepted,
      .complete 1, .callbackSubmit .accepted, .complete 2, .checkWorker, .waitForBuffer,
      .bufferReady, .usingBuffer 1, .submitDone .accepted]) t ∧ t.accepted = [0, 1, 2, 3] ∧ t.accepted.Pairwise (· < ·) := by
  have hrun : ∃ t, Lib.exec step Orderly (init smallConfig)
      (deferred ++ [TxAct.submitDone .wouldBlock, .submitReturn, .complete 0, .callbackSubmit .accepted,
        .complete 1, .callbackSubmit .accepted, .complete 2, .checkWorker, .waitForBuffer,
        .bufferReady, .usingBuffer 1, .submitDone .accepted]) = some t ∧ t.accepted = [0, 1, 2, 3] := ⟨_, rfl, rfl⟩
  obtain ⟨t, ht, hacc⟩ := hrun
  have hsteps := Lib.Steps.of_exec ht
  exact ⟨t, hsteps, hacc, (tx_fifo_of_orderly smallConfig hsteps).1⟩

/-- The order breaks when the first buffer completes while `sync_tx` is inside the
reclaim: the callback sees the deferred buffer `IN_FLIGHT` and gives the duty
back, the submission blocks, and the next fill overtakes both deferred buffers.
A buffer goes out twice when that reclaim fails instead: the producer index stays
at a slot the callback then ships, and the next call hands it over again. -/
theorem tx_fifo_broken :
    (∃ acts t, Lib.Steps step (fun _ _ => True) (init (n := 3) smallConfig) acts t ∧
      t.accepted = [0, 3, 1] ∧ ¬ t.accepted.Pairwise (· < ·)) ∧
    (∃ acts t, Lib.Steps step (fun _ _ => True) (init (n := 3) smallConfig) acts t ∧
      t.accepted = [0, 1, 2, 2] ∧ ¬ t.accepted.Nodup) := by
  have hrace : ∃ t, Lib.exec step (fun _ _ => True) (init smallConfig)
      (deferred ++ [TxAct.complete 0, .submitDone .wouldBlock, .submitReturn,
        .bufferReady, .usingBuffer 1, .submitDone .accepted, .submitReturn,
        .checkWorker, .waitForBuffer, .submitDone .accepted]) = some t ∧
      t.accepted = [0, 3, 1] := ⟨_, rfl, rfl⟩
  have htwice : ∃ t, Lib.exec step (fun _ _ => True) (init smallConfig)
      (deferred ++ [TxAct.submitDone .failed, .submitReturn, .complete 0, .callbackSubmit .accepted,
        .complete 1, .callbackSubmit .accepted, .complete 2,
        .usingBuffer 1, .submitDone .accepted]) = some t ∧
      t.accepted = [0, 1, 2, 2] := ⟨_, rfl, rfl⟩
  obtain ⟨t, ht, hacc⟩ := hrace
  obtain ⟨u, hu, hacc'⟩ := htwice
  refine ⟨⟨_, t, Lib.Steps.of_exec ht, hacc, ?_⟩, ⟨_, u, Lib.Steps.of_exec hu, hacc', ?_⟩⟩
  · rw [hacc]
    decide
  · rw [hacc']
    decide

end TxSync

end BladeRF
