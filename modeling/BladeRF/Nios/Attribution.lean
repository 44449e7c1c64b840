/-
# `Nios.Attribution` — runs of the command channel

The two invariants of the channel over whole runs.  `Latched` holds of every
run: a call that latches `desynchronized` returns at once, and no later call
sends anything.  `Accounted` (`Nios.Channel`) holds of every run whose frames
leave a missing RETUNE2 answer its identity; it gives the attribution of
answers to calls and the account of what is still unread.
-/
import BladeRF.Nios.Channel

namespace BladeRF

open NiosLink

namespace NiosLink

variable {l l' : NiosLink} {request : Packet} {id : ℕ} {recW recR : Bool}

/-! ## The latch -/

/-- Whatever latches `desynchronized` returns in the same step. -/
def Latched (l : NiosLink) : Prop :=
  l.state.desynchronized = true → l.phase = .idle

theorem Latched.in_use (h : l.Latched) (hp : l.phase ≠ .idle) :
    l.state.desynchronized = false := by
  rw [Bool.eq_false_iff]
  exact fun hd => hp (h hd)

theorem Latched.startRequest (hd : l.state.desynchronized = false) : (l.startRequest request).Latched := by
  unfold NiosLink.startRequest
  split
  · exact fun h => absurd (hd.symm.trans h) (by decide)
  · exact fun _ => rfl

variable {status : NiosStatus} {a : NiosAct}

theorem Latched.drainTransfer {barrier : Packet} (h : l.Latched)
    (hp : l.phase ≠ .idle) : (l.drainTransfer request barrier status).Latched := by
  have hd := h.in_use hp
  unfold NiosLink.drainTransfer
  split
  · split
    · exact fun _ => rfl
    · split
      · exact fun h' => absurd (hd.symm.trans h') (by decide)
      · exact Latched.startRequest hd
      · exact fun _ => rfl
  · split
    · exact fun _ => rfl
    · exact fun _ => rfl

theorem Latched.responseTransfer {len : ℕ} (h : l.Latched)
    (hp : l.phase ≠ .idle) : (l.responseTransfer request id recW recR len status).Latched := by
  have hd := h.in_use hp
  unfold NiosLink.responseTransfer
  split
  · rename_i e _
    split
    · exact fun _ => rfl
    · have hst : ∀ st, l.state.responseFrame recW recR request e.answer = (st, .consumed) →
          st.desynchronized = false := by
        intro st heq
        unfold PeripheralState.responseFrame at heq
        dsimp only at heq
        split at heq
        · exact absurd (Prod.mk.inj heq).2 (by simp)
        · split at heq
          · obtain rfl := (Prod.mk.inj heq).1
            split <;> exact hd
          · exact absurd (Prod.mk.inj heq).2 (by simp)
      generalize l.state.responseFrame recW recR request e.answer = r at hst ⊢
      obtain ⟨st, out⟩ := r
      cases out with
      | complete => exact fun _ => rfl
      | mismatch => exact fun _ => rfl
      | consumed => exact fun h' => absurd ((hst st rfl).symm.trans h') (by decide)
  · split
    · exact fun _ => rfl
    · split
      · unfold timedOut
        split
        · exact fun _ => rfl
        · exact fun _ => rfl
      · split
        · exact fun _ => rfl
        · exact h

theorem Latched.step (h : l.Latched) (hs : l.step a = some l') : l'.Latched := by
  cases a with
  | call request =>
      simp only [step] at hs
      split at hs
      · split at hs
        · obtain rfl := Option.some.inj hs
          exact fun _ => rfl
        · rename_i hd
          split at hs
          · obtain rfl := Option.some.inj hs
            exact fun h' => absurd h' hd
          · obtain rfl := Option.some.inj hs
            exact Latched.startRequest (by simpa using hd)
      · simp at hs
  | outFailed status =>
      simp only [step] at hs
      split at hs
      · simp at hs
      · split at hs
        · obtain rfl := Option.some.inj hs
          exact fun _ => rfl
        · obtain rfl := Option.some.inj hs
          exact fun _ => rfl
        · simp at hs
  | out answer gen =>
      simp only [step] at hs
      split at hs
      · rename_i hphase _
        split at hs
        · obtain rfl := Option.some.inj hs
          exact fun h' => absurd ((h.in_use (by rw [hphase]; simp)).symm.trans h') (by decide)
        · simp at hs
      · rename_i hphase
        split at hs
        · obtain rfl := Option.some.inj hs
          exact fun h' => absurd ((h.in_use (by rw [hphase]; simp)).symm.trans h') (by decide)
        · simp at hs
      · simp at hs
  | transfer pick len status =>
      simp only [step] at hs
      split at hs
      · rename_i hphase
        obtain ⟨l₁, hrecv, rfl⟩ := Option.map_eq_some_iff.mp hs
        have hfr := receive_frame hrecv
        have hl₁ : l₁.Latched := by rw [hfr]; exact h
        exact hl₁.drainTransfer (by rw [hfr]; show l.phase ≠ _; rw [hphase]; simp)
      · rename_i hphase
        obtain ⟨l₁, hrecv, rfl⟩ := Option.map_eq_some_iff.mp hs
        have hfr := receive_frame hrecv
        have hl₁ : l₁.Latched := by rw [hfr]; exact h
        exact hl₁.responseTransfer (by rw [hfr]; show l.phase ≠ _; rw [hphase]; simp)
      · simp at hs
  | clockFailed | deadline | transferInvalid =>
      simp only [step, timedOut] at hs
      split at hs
      all_goals
        first
          | (obtain rfl := Option.some.inj hs; first | exact fun _ => rfl | (split <;> exact fun _ => rfl))
          | simp at hs

theorem step_latched (hd : l.state.desynchronized = true) (hp : l.phase = .idle)
    (hs : l.step a = some l') :
    l'.state.desynchronized = true ∧ l'.phase = .idle ∧ l'.outs = l.outs := by
  cases a with
  | call request =>
      simp only [step, hp, hd, if_true] at hs
      obtain rfl := Option.some.inj hs
      exact ⟨hd, rfl, rfl⟩
  | outFailed status =>
      simp only [step, hp] at hs
      split at hs <;> simp at hs
  | out answer gen => simp [step, hp] at hs
  | transfer pick len status => simp [step, hp] at hs
  | clockFailed => simp [step, hp] at hs
  | deadline => simp [step, hp] at hs
  | transferInvalid => simp [step, hp] at hs

/-! ## The account -/

/-- The frame this step completes leaves a missing RETUNE2 answer its
identity. -/
def keepsRetune2 (l : NiosLink) : NiosAct → Bool
  | .transfer pick len status =>
      match l.phase, l.receive pick len with
      | .reading request id _ _, some l' =>
          match l'.frame with
          | some e => (status != .success && status != .timeout) ||
              l.state.retains request id e l'.unread
          | none => true
      | _, _ => true
  | _ => true

theorem Accounted.step_call (h : l.Accounted) (hs : l.step (.call request) = some l') :
    l'.Accounted := by
  have hg' : ({ l with result := none } : NiosLink).Genuine :=
    h.genuine.congr rfl rfl rfl
  simp only [step] at hs
  split at hs
  · rename_i hphase
    split at hs
    · rename_i hd
      obtain rfl := Option.some.inj hs
      exact .ret_latched h.genuine hd (by decide)
    · rename_i hd
      have hd' : l.state.desynchronized = false := by simpa using hd
      have hw := h.wellFormed hd'
      have ht := h.tracked hd'
      rw [hphase] at ht
      split at hs
      · obtain rfl := Option.some.inj hs
        exact ⟨hg'.congr rfl rfl rfl, .of_none rfl, fun _ => hw,
          fun _ => ⟨ht.1, ht.2, rfl⟩⟩
      · rename_i hr
        obtain rfl := Option.some.inj hs
        exact .startRequest hg' hw ht.1 ht.2 rfl (by simpa using hr)
  · simp at hs

theorem Accounted.step_outFailed (h : l.Accounted)
    (hs : l.step (.outFailed status) = some l') : l'.Accounted := by
  have hg' : ({ l with outs := l.outs + 1 } : NiosLink).Genuine :=
    h.genuine.congr rfl rfl rfl
  simp only [step] at hs
  split at hs
  · simp at hs
  · rename_i hne
    split at hs
    · obtain rfl := Option.some.inj hs
      exact .fail hg' hne
    · obtain rfl := Option.some.inj hs
      exact .fail hg' hne
    · simp at hs

theorem answers_spec {answer : Packet} {gen : ℕ} (h : l.answers request answer gen = true) :
    (l.state.sessionGenerationValid = true → gen = l.state.sessionGeneration) ∧
      niosResponseMatchesRequest request answer true gen = true := by
  simp only [answers, Bool.and_eq_true, Bool.or_eq_true, Bool.not_eq_true', beq_iff_eq] at h
  refine ⟨fun hv => h.1.elim (fun hf => ?_) (fun he => he), h.2⟩
  rw [hv] at hf
  exact absurd hf (by decide)

theorem Reading.of_send {answer : Packet} {gen : ℕ} (hg : l.Genuine) (hwire : l.wire = none)
    (hleft : Leftover l.state l.unread) (hread : l.state.pendingRead = none)
    (hadm : l.state.admits request = true) (ha : l.answers request answer gen = true) :
    ({ l.send request answer gen with
      phase := .reading request l.log.length l.state.pendingRfic.isSome
        l.state.pendingRetune2.isSome } : NiosLink).Reading request l.log.length
      l.state.pendingRfic.isSome l.state.pendingRetune2.isSome
      ⟨l.log.length, request, answer, gen⟩ l.unread := by
  simp only [PeripheralState.admits, Bool.and_eq_true, Bool.or_eq_true] at hadm
  refine ⟨hread, rfl, fun hs => hs, fun hs => ?_, fun w hp => ?_, rfl, rfl, (answers_spec ha).1,
    hleft, fun x hx => hg.numbered x (hg.unread_mem x hx), ?_⟩
  · rcases hadm.2 with hn | hr
    · rw [Option.isNone_iff_eq_none] at hn
      rw [hn] at hs
      exact absurd hs (by decide)
    · exact hr
  · have hp' : l.state.pendingRfic = some w := hp
    have hall := hadm.1
    rw [hp', Option.all_some] at hall
    simpa [or_assoc] using hall
  · show Carries _ l.unread l.wire (l.unread ++ [_])
    rw [hwire]
    exact .before

theorem Accounted.step_out {answer : Packet} {gen : ℕ} (h : l.Accounted) (hl : l.Latched)
    (hs : l.step (.out answer gen) = some l') : l'.Accounted := by
  simp only [step] at hs
  split at hs
  · rename_i q r hphase hread
    have hd := hl.in_use (by rw [hphase]; simp)
    have ht := h.tracked hd
    rw [hphase] at ht
    obtain ⟨hwire, hleft, hres⟩ := ht
    split at hs
    · rename_i ha
      obtain rfl := Option.some.inj hs
      have hg' := h.genuine.send (answers_spec ha).2
      refine ⟨hg'.congr rfl rfl rfl, .of_none hres,
        fun _ => h.wellFormed hd,
        fun _ => ⟨hres, r, ⟨l.log.length, niosDrainBarrier r, answer, gen⟩, l.unread, hread, rfl,
          rfl, hleft, ?_⟩⟩
      show Carries _ l.unread l.wire (l.unread ++ [_])
      rw [hwire]
      exact .before
    · simp at hs
  · rename_i q _ hphase
    have hd := hl.in_use (by rw [hphase]; simp)
    have ht := h.tracked hd
    rw [hphase] at ht
    obtain ⟨hwire, hleft, hres, hread, hadm⟩ := ht
    split at hs
    · rename_i ha
      obtain rfl := Option.some.inj hs
      have hg' := h.genuine.send (answers_spec ha).2
      exact ⟨hg'.congr rfl rfl rfl, .of_none hres,
        fun _ => h.wellFormed hd,
        fun _ => ⟨hres, _, _, .of_send h.genuine hwire hleft hread hadm ha⟩⟩
    · simp at hs
  · simp at hs

theorem Accounted.step_transfer {pick len : ℕ} (h : l.Accounted) (hl : l.Latched)
    (hok : l.keepsRetune2 (.transfer pick len status) = true)
    (hs : l.step (.transfer pick len status) = some l') : l'.Accounted := by
  simp only [step] at hs
  split at hs
  · rename_i q barrier hphase
    obtain ⟨l₁, hrecv, rfl⟩ := Option.map_eq_some_iff.mp hs
    have hd := hl.in_use (by rw [hphase]; simp)
    have ht := h.tracked hd
    rw [hphase] at ht
    obtain ⟨hres, r, b, rs, hr, hb, hbr, hleft, hc⟩ := ht
    have hg := receive_genuine hrecv h.genuine
    have hc' := receive_carries hrecv hc
    have hfr := receive_frame hrecv
    generalize l₁.wire = w at hfr hc'
    generalize l₁.unread = u at hfr hc'
    subst hfr
    exact .drainTransfer status hg (h.wellFormed hd) hphase ⟨hres, r, b, rs, hr, hb, hbr, hleft, hc'⟩
  · rename_i q n rw' rr hphase
    obtain ⟨l₁, hrecv, rfl⟩ := Option.map_eq_some_iff.mp hs
    have hd := hl.in_use (by rw [hphase]; simp)
    have ht := h.tracked hd
    rw [hphase] at ht
    obtain ⟨hres, own, rs, hread⟩ := ht
    have hg := receive_genuine hrecv h.genuine
    have hc' := receive_carries hrecv hread.carries
    have hret : ∀ e, l₁.frame = some e → (status = .success ∨ status = .timeout) →
        l.state.retains q n e l₁.unread = true := by
      intro e hf hst
      simp only [keepsRetune2, hphase, hrecv, hf, Bool.or_eq_true, Bool.and_eq_true,
        bne_iff_ne] at hok
      rcases hok with hno | hk
      · rcases hst with hst | hst
        · exact absurd hst hno.1
        · exact absurd hst hno.2
      · exact hk
    have hfr := receive_frame hrecv
    have hst : l₁.state = l.state := by rw [hfr]
    have hph : l₁.phase = l.phase := by rw [hfr]
    have hrs : l₁.result = l.result := by rw [hfr]
    have hread₁ : l₁.Reading q n rw' rr own rs := by
      obtain ⟨h1, h2, h3, h4, h5, h6, h7, h8, h9, h10, -⟩ := hread
      rw [← hst] at h1 h2 h3 h5 h8 h9
      exact ⟨h1, h2, h3, h4, h5, h6, h7, h8, h9, h10, hc'⟩
    exact .responseTransfer hg (hst ▸ h.wellFormed hd) (hph.trans hphase) (hrs.trans hres)
      hread₁ (hst ▸ hret)
  · simp at hs

theorem Accounted.step_clock (h : l.Accounted) (hl : l.Latched)
    (ha : a = .clockFailed ∨ a = .deadline ∨ a = .transferInvalid)
    (hs : l.step a = some l') : l'.Accounted := by
  have htimeout : ∀ q n rw' rr, l.phase = .reading q n rw' rr →
      (l.timedOut q n).Accounted := by
    intro q n rw' rr hphase
    have hd := hl.in_use (by rw [hphase]; simp)
    have ht := h.tracked hd
    rw [hphase] at ht
    obtain ⟨-, own, rs, hread⟩ := ht
    exact .timedOut h.genuine (h.wellFormed hd) hread
  rcases ha with rfl | rfl | rfl
  · simp only [step] at hs
    split at hs
    · obtain rfl := Option.some.inj hs
      exact .fail h.genuine (by decide)
    · obtain rfl := Option.some.inj hs
      exact .fail h.genuine (by decide)
    · obtain rfl := Option.some.inj hs
      exact .fail h.genuine (by decide)
    · simp at hs
  · simp only [step] at hs
    split at hs
    · obtain rfl := Option.some.inj hs
      exact .fail h.genuine (by decide)
    · rename_i hphase
      obtain rfl := Option.some.inj hs
      exact htimeout _ _ _ _ hphase
    · simp at hs
  · simp only [step] at hs
    split at hs
    · obtain rfl := Option.some.inj hs
      exact .fail h.genuine (by decide)
    · obtain rfl := Option.some.inj hs
      exact .fail h.genuine (by decide)
    · simp at hs

theorem Accounted.step (h : l.Accounted) (hl : l.Latched) (hok : l.keepsRetune2 a = true)
    (hs : l.step a = some l') : l'.Accounted := by
  cases a with
  | call request => exact h.step_call hs
  | outFailed status => exact h.step_outFailed hs
  | out answer gen => exact h.step_out hl hs
  | transfer pick len status => exact h.step_transfer hl hok hs
  | clockFailed => exact h.step_clock hl (.inl rfl) hs
  | deadline => exact h.step_clock hl (.inr (.inl rfl)) hs
  | transferInvalid => exact h.step_clock hl (.inr (.inr rfl)) hs

theorem run_accounted {acts : List NiosAct}
    (hrun : Lib.Steps step (fun l a => l.keepsRetune2 a = true) start acts l) : l.Accounted := by
  have h : l.Accounted ∧ l.Latched := by
    refine hrun.invariant (P := fun l => l.Accounted ∧ l.Latched)
      ⟨start_accounted, fun hd => absurd hd (by decide)⟩ ?_
    intro a b c hinv hok hs
    exact ⟨hinv.1.step hinv.2 hok hs, hinv.2.step hs⟩
  exact h.1

theorem run_latched {acts : List NiosAct}
    (hrun : Lib.Steps step (fun _ _ => True) start acts l) : l.Latched :=
  hrun.invariant (fun hd => absurd hd (by decide)) (fun h _ hs => h.step hs)

theorem run_silent {acts : List NiosAct}
    (hrun : Lib.Steps step (fun _ _ => True) l acts l') (hl : l.Latched)
    (hd : l.state.desynchronized = true) :
    l'.state.desynchronized = true ∧ l'.outs = l.outs := by
  have h : l'.state.desynchronized = true ∧ l'.phase = .idle ∧ l'.outs = l.outs := by
    refine hrun.invariant
      (P := fun t => t.state.desynchronized = true ∧ t.phase = .idle ∧ t.outs = l.outs)
      ⟨hd, hl hd, rfl⟩ ?_
    intro a b c hinv _ hs
    obtain ⟨h1, h2, h3⟩ := step_latched hinv.1 hinv.2.1 hs
    exact ⟨h1, h2, h3.trans hinv.2.2⟩
  exact ⟨h.1, h.2.2⟩

/-! ## Results -/

/-- Whenever a call returns 0, the buffer has the device's answer to its request,
or to an earlier tagged RFIC write of the same bytes. -/
theorem nios_response_attributed {acts : List NiosAct}
    (hrun : Lib.Steps step (fun l a => l.keepsRetune2 a = true) start acts l) : l.Attributed :=
  (run_accounted hrun).attributed

/-- A tagged RFIC write (transaction 7) and its acknowledgement. -/
def rficWrite : Packet :=
  ⟨[0x45, 0x01, 0x01, 0, 0x02, 0x01, 9, 0, 0, 0, 0, 0, 0, 0, 7, 0], rfl⟩

def rficWriteAck : Packet :=
  ⟨[0x45, 0x01, 0x03, 0, 0x02, 0x01, 9, 0, 0, 0, 0, 0, 0, 0, 7, 0], rfl⟩

def rficStatusRead : Packet :=
  ⟨[0x45, 0x01, 0, 0, 0x00, 0x0f, 0, 0, 0, 0, 0, 0, 0, 0, 0, 0], rfl⟩

def rficStatusAnswer : Packet :=
  ⟨[0x45, 0x01, 0x02, 0, 0x00, 0x0f, 1, 0, 0, 0, 0, 0, 0, 0, 0, 0], rfl⟩

/-- The acknowledgement of a tagged write is late; the retry returns it. -/
theorem nios_response_attributed_to_retry :
    ∃ l r, Lib.exec step (fun l a => l.keepsRetune2 a = true) start
        [.call rficWrite, .out rficWriteAck 0, .transfer 0 0 .timeout,
          .call rficWrite, .out rficWriteAck 0, .transfer 0 16 .success] = some l ∧
      l.result = some r ∧ r.status = .success ∧ l.Attributed := by
  have hres : (Lib.exec step (fun l a => l.keepsRetune2 a = true) start
      [.call rficWrite, .out rficWriteAck 0, .transfer 0 0 .timeout,
        .call rficWrite, .out rficWriteAck 0, .transfer 0 16 .success]).map result =
      some (some ⟨rficWrite, some 1, .success, .complete, some rficWriteAck⟩) := by decide
  obtain ⟨l, hl, hr⟩ := Option.map_eq_some_iff.mp hres
  exact ⟨l, _, hl, hr, rfl, nios_response_attributed (Lib.Steps.of_exec hl)⟩

/-- The read of the session generation, answered with generation 5. -/
def generationRead : Packet :=
  niosPkt8x32Pack niosPkt8x32TargetCommandSessionGeneration false 0 0

def generationAnswer : Packet :=
  ⟨[0x43, 0x90, 0x02, 0, 0, 5, 0, 0, 0, 0, 0, 0, 0, 0, 0, 0], rfl⟩

/-- A scheduled retune without a token, acknowledged with `SUCCESS`. -/
def scheduledRetune : Packet :=
  ⟨[0x55, 0xe8, 0x03, 0, 0, 0, 0, 0, 0, 0, 0, 0, 0, 0, 0, 0], rfl⟩

def scheduledRetuneAck : Packet :=
  ⟨[0x55, 0, 0, 0, 0, 0, 0, 0, 0, 0x02, 0, 0, 0, 0, 0, 0], rfl⟩

/-- A queue clear, which the device answers with `CANCEL_FAILED`. -/
def queueClear : Packet :=
  ⟨[0x55, 0xff, 0xff, 0xff, 0xff, 0xff, 0xff, 0xff, 0xff, 0, 0, 0, 0, 0, 0, 0], rfl⟩

def queueClearFailed : Packet :=
  ⟨[0x55, 0, 0, 0, 0, 0, 0, 0, 0, 0x08, 0, 0, 0, 0, 0, 0], rfl⟩

/-- A scheduled retune times out; the queue clear after it returns the retune's
acknowledgement as its own. -/
theorem nios_queue_clear_misattributed :
    ∃ l r, Lib.Steps step (fun _ _ => True) start
        [.call generationRead, .out generationAnswer 5, .transfer 0 16 .success,
          .call scheduledRetune, .out scheduledRetuneAck 5, .transfer 0 0 .timeout,
          .call queueClear, .out queueClearFailed 5, .transfer 0 16 .success] l ∧
      l.result = some r ∧ r.status = .success ∧ ¬ l.Attributed := by
  have hres : (Lib.exec step (fun _ _ => True) start
      [.call generationRead, .out generationAnswer 5, .transfer 0 16 .success,
        .call scheduledRetune, .out scheduledRetuneAck 5, .transfer 0 0 .timeout,
        .call queueClear, .out queueClearFailed 5, .transfer 0 16 .success]).map
        (fun l => (l.result, l.log)) =
      some (some ⟨queueClear, some 2, .success, .complete, some scheduledRetuneAck⟩,
        [⟨0, generationRead, generationAnswer, 5⟩, ⟨1, scheduledRetune, scheduledRetuneAck, 5⟩,
          ⟨2, queueClear, queueClearFailed, 5⟩]) := by decide
  obtain ⟨l, hl, hr⟩ := Option.map_eq_some_iff.mp hres
  obtain ⟨hresult, hlog⟩ := Prod.mk.inj hr
  refine ⟨l, _, Lib.Steps.of_exec hl, hresult, rfl, fun hatt => ?_⟩
  obtain ⟨e, he, hbuf, hreq, -⟩ := hatt _ hresult rfl
  rw [hlog] at he
  simp only [List.mem_cons, List.not_mem_nil, or_false] at he
  rcases he with rfl | rfl | rfl
  · exact absurd hreq (by decide)
  · exact absurd hreq (by decide)
  · exact absurd hbuf (by decide)

/-- After a call on a channel that is not desynchronized, every unread answer
belongs to a remembered request and none has been read in part.  A
desynchronized channel stays desynchronized and sends nothing. -/
theorem nios_residual_responses_remembered (acts : List NiosAct) (l : NiosLink) :
    (Lib.Steps step (fun l a => l.keepsRetune2 a = true) start acts l →
      l.phase = .idle → l.state.desynchronized = false →
      l.wire = none ∧ ∀ e ∈ l.unread, l.state.Remembers e) ∧
    (Lib.Steps step (fun _ _ => True) start acts l → l.state.desynchronized = true →
      ∀ (acts' : List NiosAct) (l' : NiosLink), Lib.Steps step (fun _ _ => True) l acts' l' →
      l'.state.desynchronized = true ∧ l'.outs = l.outs) := by
  constructor
  · intro hrun hphase hd
    have ht := (run_accounted hrun).tracked hd
    rw [hphase] at ht
    exact ⟨ht.1, ht.2.remembered⟩
  · intro hrun hd acts' l' hrun'
    exact run_silent hrun' (run_latched hrun) hd

/-- The first part, where a read and an RFIC write are both unanswered. -/
theorem nios_residual_responses_remembered_after_timeouts :
    ∃ l, Lib.exec step (fun l a => l.keepsRetune2 a = true) start
        [.call rficWrite, .out rficWriteAck 0, .transfer 0 0 .timeout,
          .call rficStatusRead, .out rficStatusAnswer 0, .transfer 0 0 .timeout] = some l ∧
      l.unread.length = 2 ∧ l.wire = none ∧ ∀ e ∈ l.unread, l.state.Remembers e := by
  have hres : (Lib.exec step (fun l a => l.keepsRetune2 a = true) start
      [.call rficWrite, .out rficWriteAck 0, .transfer 0 0 .timeout,
        .call rficStatusRead, .out rficStatusAnswer 0, .transfer 0 0 .timeout]).map
        (fun l => (l.phase, l.state.desynchronized, l.unread.length)) =
      some (.idle, false, 2) := by decide
  obtain ⟨l, hl, hr⟩ := Option.map_eq_some_iff.mp hres
  simp only [Prod.mk.injEq] at hr
  exact ⟨l, hl, hr.2.2, (nios_residual_responses_remembered _ l).1 (Lib.Steps.of_exec hl) hr.1
    hr.2.1⟩

/-- A queue clear acknowledged with the retune's answer drops the identity of the
retune and leaves its own answer behind. -/
theorem nios_queue_clear_answer_forgotten :
    ∃ l, Lib.Steps step (fun _ _ => True) start
        [.call generationRead, .out generationAnswer 5, .transfer 0 16 .success,
          .call scheduledRetune, .out scheduledRetuneAck 5, .transfer 0 0 .timeout,
          .call queueClear, .out queueClearFailed 5, .transfer 0 16 .success] l ∧
      l.phase = .idle ∧ l.state.desynchronized = false ∧ ∃ e ∈ l.unread, ¬ l.state.Remembers e :=
  ⟨_, Lib.Steps.of_exec rfl, rfl, rfl, by decide⟩

end NiosLink

end BladeRF
