/-
# `Nios.Channel` — what the host remembers about unread answers

An answer that is still to be read belongs to a request the host remembers: the
read, the RFIC write or the RETUNE2 request whose answer did not come in time.
A call reads the answers left over from earlier calls before its own, and what
makes it stop at the right one is that a leftover answer is not accepted for
the request of the call (`Nios.Matching`).

The exception is a RETUNE2 answer.  The request that clears the retune queue
accepts it as its own, and both that request and a new session generation drop
the remembered identity whether or not the answer has been read.  `retains`
says that a frame does neither.
-/
import Mathlib.Data.List.Perm.Basic
import BladeRF.Nios.Matching

namespace BladeRF

open PeripheralState

/-! ## Leftover answers -/

namespace PeripheralState

/-- `e.request` is one of the three remembered requests. -/
def Remembers (st : PeripheralState) (e : Exchange) : Prop :=
  st.pendingRead = some e.request ∨ st.pendingRfic = some e.request ∨
    st.pendingRetune2.map Prod.fst = some e.request

instance (st : PeripheralState) (e : Exchange) : Decidable (st.Remembers e) :=
  inferInstanceAs (Decidable (_ ∨ _ ∨ _))

structure WellFormed (st : PeripheralState) : Prop where
  read : ∀ r, st.pendingRead = some r → niosIsFixedReadRequest r = true
  rfic : ∀ w, st.pendingRfic = some w → niosIsTaggedRficWrite w = true
  retune2 : ∀ p, st.pendingRetune2 = some p → p.1.byte 0 = niosPktRetune2Magic ∧
    (st.sessionGenerationValid = true ∨ niosPktRetune2UnpackRequestToken p.1 = 0)
  exclusive : st.pendingRfic = none ∨ st.pendingRetune2 = none

/-- The frame `e`, read for `request` with `rest` still unread, leaves a missing
RETUNE2 answer its identity: the answer is not taken for that of a queue clear,
and neither a queue clear nor a new session generation drops the identity while
the answer is unread.  `id` is the number of the call's own exchange. -/
def retains (st : PeripheralState) (request : Packet) (id : ℕ) (e : Exchange)
    (rest : List Exchange) : Bool :=
  match st.pendingRetune2 with
  | none => true
  | some p =>
      if e.id = id then
        rest.isEmpty || !(niosIsRetune2ClearQueue request ||
          (niosIsSessionGenerationRead request && e.answer.flag 2 2 &&
            st.sessionGenerationValid && (niosPkt8x32.unpack e.answer).data != p.2))
      else !(niosIsRetune2ClearQueue request && st.accepts request e.answer)

end PeripheralState

/-- Leftover answers: all remembered, and at most one of them to a RETUNE2
request, since the host remembers one. -/
structure Leftover (st : PeripheralState) (es : List Exchange) : Prop where
  remembered : ∀ e ∈ es, st.Remembers e
  oneRetune2 : es.Pairwise (fun a b =>
    ¬(a.request.byte 0 = niosPktRetune2Magic ∧ b.request.byte 0 = niosPktRetune2Magic))

/-- Where the answer `own` and the leftover answers `rs` are: `own` is last, or
it has overtaken all of `rs`. -/
inductive Carries (own : Exchange) (rs : List Exchange) :
    Option (Exchange × ℕ) → List Exchange → Prop
  | before : Carries own rs none (rs ++ [own])
  | older (e : Exchange) (k : ℕ) (rs' : List Exchange) (hperm : rs.Perm (e :: rs')) :
      Carries own rs (some (e, k)) (rs' ++ [own])
  | own (k : ℕ) (hdefer : ∀ e ∈ rs, e.deferrable = true) : Carries own rs (some (own, k)) rs

namespace Leftover

variable {st : PeripheralState} {es : List Exchange} {e : Exchange}

theorem nil (st : PeripheralState) : Leftover st [] :=
  ⟨fun _ he => absurd he List.not_mem_nil, .nil⟩

theorem perm {es' : List Exchange} (h : Leftover st es) (hp : es.Perm es') : Leftover st es' :=
  ⟨fun e he => h.remembered e (hp.mem_iff.mpr he),
    h.oneRetune2.perm hp (fun hab hba => hab ⟨hba.2, hba.1⟩)⟩

theorem tail (h : Leftover st (e :: es)) : Leftover st es :=
  ⟨fun x hx => h.remembered x (List.mem_cons_of_mem _ hx), (List.pairwise_cons.mp h.oneRetune2).2⟩

theorem mono {st' : PeripheralState} (h : Leftover st es)
    (hst : ∀ e ∈ es, st.Remembers e → st'.Remembers e) : Leftover st' es :=
  ⟨fun e he => hst e he (h.remembered e he), h.oneRetune2⟩

theorem snoc (h : Leftover st es) (he : st.Remembers e)
    (hm : e.request.byte 0 ≠ niosPktRetune2Magic) : Leftover st (es ++ [e]) := by
  constructor
  · intro x hx
    rcases List.mem_append.mp hx with hx | hx
    · exact h.remembered x hx
    · obtain rfl := List.mem_singleton.mp hx
      exact he
  · rw [List.pairwise_append]
    refine ⟨h.oneRetune2, List.pairwise_singleton _ _, fun x _ y hy hxy => ?_⟩
    obtain rfl := List.mem_singleton.mp hy
    exact hm hxy.2

end Leftover

namespace PeripheralState

variable {st : PeripheralState} {e : Exchange}

theorem WellFormed.remembers_retune2 (h : st.WellFormed) (hr : st.Remembers e)
    (hm : e.request.byte 0 = niosPktRetune2Magic) :
    st.pendingRetune2.map Prod.fst = some e.request := by
  rcases hr with hr | hr | hr
  · exact absurd hm (niosIsFixedReadRequest_spec (h.read _ hr)).2.1
  · have hw := (niosIsTaggedRficWrite_spec (h.rfic _ hr)).1
    rw [hm] at hw
    exact absurd hw (by decide)
  · exact hr

theorem WellFormed.acceptsRfic_of_magic {q a : Packet} {v : Bool} {g : ℕ} (h : st.WellFormed)
    (hq : niosResponseMatchesRequest q a v g = true) (hl : q.byte 0 ≠ niosPktLegacyMagic)
    (hne : q.byte 0 ≠ niosPkt16x64Magic) : st.acceptsRfic a = false := by
  unfold acceptsRfic
  cases hw : st.pendingRfic with
  | none => rfl
  | some w =>
      have hm := (niosIsTaggedRficWrite_spec (h.rfic w hw)).1
      exact no_shared_answer_of_magic hl (by rw [hm]; decide) (by rw [hm]; exact hne) hq

theorem WellFormed.acceptsRetune2_of_magic {q a : Packet} {v : Bool} {g : ℕ}
    (h : st.WellFormed) (hq : niosResponseMatchesRequest q a v g = true)
    (hl : q.byte 0 ≠ niosPktLegacyMagic) (hne : q.byte 0 ≠ niosPktRetune2Magic) :
    st.acceptsRetune2 a = false := by
  unfold acceptsRetune2
  cases hp : st.pendingRetune2 with
  | none => rfl
  | some p =>
      have hm := (h.retune2 p hp).1
      exact no_shared_answer_of_magic hl (by rw [hm]; decide) (by rw [hm]; exact hne) hq

theorem deferrable_magic (h : e.deferrable = true) : e.request.byte 0 = niosPktRetune2Magic := by
  simp only [Exchange.deferrable, Bool.and_eq_true, beq_iff_eq] at h
  exact h.1

end PeripheralState

/-! ## The invariant -/

namespace NiosLink

/-- Every exchange is an answer to its request, and what is still to be read is
in the log. -/
structure Genuine (l : NiosLink) : Prop where
  answered : ∀ e ∈ l.log, niosResponseMatchesRequest e.request e.answer true e.gen = true
  numbered : ∀ e ∈ l.log, e.id < l.log.length
  unread_mem : ∀ e ∈ l.unread, e ∈ l.log
  wire_mem : ∀ e k, l.wire = some (e, k) → e ∈ l.log

/-- What a successful call leaves in the buffer is the device's answer to its
request, or to an earlier RFIC write of the same bytes. -/
def Attributed (l : NiosLink) : Prop :=
  ∀ r, l.result = some r → r.status = .success →
    ∃ e ∈ l.log, r.buffer = some e.answer ∧ e.request = r.request ∧
      (r.id = some e.id ∨
        ((∃ n, r.id = some n ∧ e.id < n) ∧ niosIsTaggedRficWrite r.request = true))

/-- The response loop: what admission has established, and where the answers
are. -/
structure Reading (l : NiosLink) (request : Packet) (id : ℕ)
    (recoveringWrite recoveringRetune2 : Bool) (own : Exchange) (rs : List Exchange) : Prop where
  noRead : l.state.pendingRead = none
  write_iff : recoveringWrite = l.state.pendingRfic.isSome
  retune2_of : l.state.pendingRetune2.isSome = true → recoveringRetune2 = true
  recovery : recoveringRetune2 = true → niosIsRetune2RecoveryRequest request = true
  ordered : ∀ w, l.state.pendingRfic = some w → niosIsRecoveryStatusRead request = true ∨
    niosIsRetune2ReadoutRequest request = true ∨ request = w
  own_id : own.id = id
  own_request : own.request = request
  own_gen : l.state.sessionGenerationValid = true → own.gen = l.state.sessionGeneration
  leftover : Leftover l.state rs
  earlier : ∀ e ∈ rs, e.id < id
  carries : Carries own rs l.wire l.unread

def Tracked (l : NiosLink) : NiosPhase → Prop
  | .idle => l.wire = none ∧ Leftover l.state l.unread
  | .drainOut _ => l.wire = none ∧ Leftover l.state l.unread ∧ l.result = none
  | .draining _ barrier => l.result = none ∧ ∃ r b rs, l.state.pendingRead = some r ∧
      barrier = niosDrainBarrier r ∧ b.request = barrier ∧ Leftover l.state rs ∧
      Carries b rs l.wire l.unread
  | .out request => l.wire = none ∧ Leftover l.state l.unread ∧ l.result = none ∧
      l.state.pendingRead = none ∧ l.state.admits request = true
  | .reading request id recoveringWrite recoveringRetune2 => l.result = none ∧
      ∃ own rs, l.Reading request id recoveringWrite recoveringRetune2 own rs

/-- The invariant: until the channel is given up, every unread answer has its
place. -/
structure Accounted (l : NiosLink) : Prop where
  genuine : l.Genuine
  attributed : l.Attributed
  wellFormed : l.state.desynchronized = false → l.state.WellFormed
  tracked : l.state.desynchronized = false → l.Tracked l.phase

variable {l l' : NiosLink}

theorem Genuine.congr (h : l.Genuine) (hlog : l'.log = l.log) (hunread : l'.unread = l.unread)
    (hwire : l'.wire = l.wire) : l'.Genuine := by
  refine ⟨?_, ?_, ?_, ?_⟩
  · rw [hlog]
    exact h.answered
  · rw [hlog]
    exact h.numbered
  · rw [hlog, hunread]
    exact h.unread_mem
  · rw [hlog, hwire]
    exact h.wire_mem

theorem start_accounted : start.Accounted where
  genuine := by constructor <;> simp [start]
  attributed := by
    intro r hr
    simp [start] at hr
  wellFormed := fun _ => by constructor <;> simp [start]
  tracked := fun _ => ⟨rfl, Leftover.nil _⟩

/-! ## Receiving -/

variable {pick len : ℕ} {e : Exchange} {request : Packet} {id : Option ℕ} {status : NiosStatus}
  {stage : NiosStage}

section

variable (h : l.receive pick len = some l')

include h

theorem receive_cases :
    l' = l ∨
      (∃ e k, l.wire = some (e, k) ∧ l' = { l with wire := some (e, k + len) }) ∨
      ∃ e, l.wire = none ∧ l.unread[pick]? = some e ∧
        (∀ x ∈ l.unread.take pick, x.deferrable = true) ∧
        l' = { l with unread := l.unread.eraseIdx pick, wire := some (e, len) } := by
  unfold receive at h
  by_cases h0 : len = 0
  · rw [if_pos h0] at h
    exact .inl (Option.some.inj h).symm
  · rw [if_neg h0] at h
    split at h
    · rename_i e k hw
      split at h
      · exact .inr (.inl ⟨e, k, hw, (Option.some.inj h).symm⟩)
      · simp at h
    · rename_i hw
      split at h
      · rename_i e hget
        split at h
        · rename_i hok
          exact .inr (.inr ⟨e, hw, hget, List.all_eq_true.mp hok.2, (Option.some.inj h).symm⟩)
        · simp at h
      · simp at h

theorem receive_frame :
    l' = { l with unread := l'.unread, wire := l'.wire } := by
  obtain rfl | ⟨e, k, -, rfl⟩ | ⟨e, -, -, -, rfl⟩ := receive_cases h
  · rfl
  · rfl
  · rfl

theorem receive_genuine (hl : l.Genuine) :
    l'.Genuine := by
  obtain rfl | ⟨e, k, hw, rfl⟩ | ⟨e, -, hget, -, rfl⟩ := receive_cases h
  · exact hl
  · refine ⟨hl.answered, hl.numbered, hl.unread_mem, fun e' k' he => ?_⟩
    obtain ⟨rfl, -⟩ := Prod.mk.inj (Option.some.inj he)
    exact hl.wire_mem _ _ hw
  · refine ⟨hl.answered, hl.numbered,
      fun x hx => hl.unread_mem x (List.mem_of_mem_eraseIdx hx), fun e' k' he => ?_⟩
    obtain ⟨rfl, -⟩ := Prod.mk.inj (Option.some.inj he)
    exact hl.unread_mem _ (List.mem_of_getElem? hget)

theorem receive_carries {own : Exchange} {rs : List Exchange} (hc : Carries own rs l.wire l.unread) :
    Carries own rs l'.wire l'.unread := by
  obtain rfl | ⟨e, k, hw, rfl⟩ | ⟨e, hw, hget, hdefer, rfl⟩ := receive_cases h
  · exact hc
  · show Carries own rs (some (e, k + len)) l.unread
    rw [hw] at hc
    generalize l.unread = u at hc ⊢
    cases hc with
    | older _ _ rs' hperm => exact .older e _ rs' hperm
    | own _ hdefer => exact .own _ hdefer
  · show Carries own rs (some (e, len)) (l.unread.eraseIdx pick)
    rw [hw] at hc
    generalize l.unread = u at hc hget hdefer ⊢
    cases hc with
    | before =>
        by_cases hpick : pick < rs.length
        · rw [List.getElem?_append_left hpick] at hget
          rw [List.eraseIdx_append_of_lt_length hpick]
          obtain ⟨_, he⟩ := List.getElem?_eq_some_iff.mp hget
          refine .older e _ _ ?_
          rw [← he]
          exact (List.getElem_cons_eraseIdx_perm hpick).symm
        · -- the call's own answer is last, so all of `rs` has been overtaken
          have hlt : pick < (rs ++ [own]).length := (List.getElem?_eq_some_iff.mp hget).1
          have hp : pick = rs.length := by
            simp only [List.length_append, List.length_singleton] at hlt
            omega
          subst hp
          have he : own = e := by simpa using hget
          subst he
          rw [List.eraseIdx_append_of_length_le le_rfl]
          simp only [Nat.sub_self, List.eraseIdx_cons_zero, List.append_nil]
          rw [List.take_left] at hdefer
          exact .own _ hdefer

end

theorem frame_of_carries {own : Exchange} {rs : List Exchange}
    (hc : Carries own rs l.wire l.unread) (hf : l.frame = some e) :
    (∃ rs', rs.Perm (e :: rs') ∧ l.unread = rs' ++ [own]) ∨
      (e = own ∧ l.unread = rs ∧ ∀ x ∈ rs, x.deferrable = true) := by
  unfold NiosLink.frame at hf
  split at hf
  · rename_i e' k hw
    split_ifs at hf
    obtain rfl := Option.some.inj hf
    rw [hw] at hc
    generalize hu : l.unread = u at hc
    cases hc with
    | older _ _ rs' hperm => exact .inl ⟨rs', hperm, rfl⟩
    | own _ hdefer => exact .inr ⟨rfl, rfl, hdefer⟩
  · simp at hf

/-! ## Returning from a call -/

theorem Attributed.of_failure {buffer : Option Packet} (hs : status ≠ .success) :
    (l.ret request id status stage buffer).Attributed := by
  intro r hr hr'
  obtain rfl := Option.some.inj hr
  exact absurd hr' hs

theorem Accounted.ret_latched {buffer : Option Packet} (hg : l.Genuine)
    (hd : l.state.desynchronized = true) (hs : status ≠ .success) :
    (l.ret request id status stage buffer).Accounted where
  genuine := hg.congr rfl rfl rfl
  attributed := Attributed.of_failure hs
  wellFormed := fun h => absurd (hd.symm.trans h) (by decide)
  tracked := fun h => absurd (hd.symm.trans h) (by decide)

theorem Accounted.fail (hg : l.Genuine) (hs : status ≠ .success) :
    (l.fail request id status stage).Accounted :=
  .ret_latched (hg.congr rfl rfl rfl) rfl hs

theorem Accounted.ret {buffer : Option Packet} (hg : l.Genuine)
    (ha : (l.ret request id status stage buffer).Attributed) (hw : l.state.WellFormed)
    (hwire : l.wire = none) (hleft : Leftover l.state l.unread) :
    (l.ret request id status stage buffer).Accounted where
  genuine := hg.congr rfl rfl rfl
  attributed := ha
  wellFormed := fun _ => hw
  tracked := fun _ => ⟨hwire, hleft⟩

theorem Attributed.of_none (h : l.result = none) : l.Attributed := by
  intro r hr
  rw [h] at hr
  exact absurd hr (by simp)

theorem Accounted.startRequest (hg : l.Genuine) (hw : l.state.WellFormed)
    (hwire : l.wire = none) (hleft : Leftover l.state l.unread)
    (hres : l.result = none) (hread : l.state.pendingRead = none) :
    (l.startRequest request).Accounted := by
  unfold NiosLink.startRequest
  split
  · rename_i hadm
    exact ⟨hg.congr rfl rfl rfl, Attributed.of_none hres,
      fun _ => hw,
      fun _ => ⟨hwire, hleft, hres, hread, hadm⟩⟩
  · exact Accounted.ret hg (Attributed.of_failure (by decide)) hw hwire hleft

theorem Genuine.send {answer : Packet} {gen : ℕ} (hg : l.Genuine)
    (h : niosResponseMatchesRequest request answer true gen = true) :
    (l.send request answer gen).Genuine where
  answered := by
    intro e he
    rcases List.mem_append.mp he with he | he
    · exact hg.answered e he
    · obtain rfl := List.mem_singleton.mp he
      exact h
  numbered := by
    intro e he
    have hlen : (l.send request answer gen).log.length = l.log.length + 1 := by simp [NiosLink.send]
    rw [hlen]
    rcases List.mem_append.mp he with he | he
    · exact Nat.lt_succ_of_lt (hg.numbered e he)
    · obtain rfl := List.mem_singleton.mp he
      exact Nat.lt_succ_self _
  unread_mem := by
    intro e he
    rcases List.mem_append.mp he with he | he
    · exact List.mem_append_left _ (hg.unread_mem e he)
    · exact List.mem_append_right _ he
  wire_mem := fun e k he => List.mem_append_left _ (hg.wire_mem e k he)

theorem Genuine.of_frame (hg : l.Genuine) (hf : l.frame = some e) : e ∈ l.log := by
  unfold NiosLink.frame at hf
  split at hf
  · rename_i e' k hw
    split at hf
    · obtain rfl := Option.some.inj hf
      exact hg.wire_mem _ _ hw
    · simp at hf
  · simp at hf

theorem Genuine.consume (st : PeripheralState) (hg : l.Genuine) :
    ({ l with state := st, wire := none } : NiosLink).Genuine :=
  ⟨hg.answered, hg.numbered, hg.unread_mem, fun _ _ h => absurd h (by simp)⟩

/-! ## The drain barrier -/

theorem barrier_not_leftover {r : Packet} {v : Bool} {g : ℕ}
    (hw : l.state.WellFormed) (hr : l.state.pendingRead = some r) (hrem : l.state.Remembers e)
    (h : niosResponseMatchesRequest e.request e.answer true e.gen = true) :
    niosResponseMatchesRequest (niosDrainBarrier r) e.answer v g = false := by
  have hb := niosDrainBarrier_magic r
  have hother : ∀ m, e.request.byte 0 = m → m ≠ niosPktLegacyMagic → m ≠ niosPkt8x32Magic →
      niosResponseMatchesRequest (niosDrainBarrier r) e.answer v g = false := by
    intro m hm hl hne
    refine no_shared_answer_of_magic ?_ ?_ ?_ h
    · rw [hm]; exact hl
    · rw [hb]; decide
    · rw [hm, hb]; exact hne
  rcases hrem with hrem | hrem | hrem
  · obtain rfl : r = e.request := Option.some.inj (hr.symm.trans hrem)
    exact drain_barrier_and_read h (niosIsFixedReadRequest_spec (hw.read _ hr)).1
  · exact hother _ (niosIsTaggedRficWrite_spec (hw.rfic _ hrem)).1 (by decide) (by decide)
  · obtain ⟨p, hp, hpe⟩ := Option.map_eq_some_iff.mp hrem
    refine hother niosPktRetune2Magic ?_ (by decide) (by decide)
    rw [← hpe]
    exact (hw.retune2 p hp).1

theorem drainFrame_leftover {r : Packet} (hw : l.state.WellFormed)
    (hr : l.state.pendingRead = some r) (hrem : l.state.Remembers e)
    (h : niosResponseMatchesRequest e.request e.answer true e.gen = true) :
    l.state.drainFrame (niosDrainBarrier r) e.answer ≠ .complete := by
  have hb : l.state.accepts (niosDrainBarrier r) e.answer = false :=
    barrier_not_leftover hw hr hrem h
  simp only [drainFrame, hb]
  split <;> simp

theorem drainFrame_barrier {b : Exchange} {r : Packet} (hw : l.state.WellFormed)
    (hr : l.state.pendingRead = some r) (hb : b.request = niosDrainBarrier r)
    (h : niosResponseMatchesRequest b.request b.answer true b.gen = true) :
    l.state.drainFrame (niosDrainBarrier r) b.answer = .complete := by
  have hm := niosDrainBarrier_magic r
  rw [hb] at h
  have hown : l.state.accepts (niosDrainBarrier r) b.answer = true := by
    rw [accepts, matches_session_irrelevant (u := true) (k := b.gen), h]
    rw [hm]; decide
  have hread : l.state.accepts r b.answer = false := by
    rw [Bool.eq_false_iff]
    intro hacc
    have := drain_barrier_and_read (u := true) (k := b.gen) hacc
      (niosIsFixedReadRequest_spec (hw.read _ hr)).1
    rw [h] at this
    exact absurd this (by decide)
  have hrfic : l.state.acceptsRfic b.answer = false :=
    hw.acceptsRfic_of_magic h (by rw [hm]; decide) (by rw [hm]; decide)
  have hretune : l.state.acceptsRetune2 b.answer = false :=
    hw.acceptsRetune2_of_magic h (by rw [hm]; decide) (by rw [hm]; decide)
  simp [drainFrame, hr, hown, hread, hrfic, hretune]

theorem Accounted.drainTransfer {barrier : Packet} (status : NiosStatus)
    (hg : l.Genuine) (hw : l.state.WellFormed)
    (hphase : l.phase = .draining request barrier) (ht : l.Tracked (.draining request barrier)) :
    (l.drainTransfer request barrier status).Accounted := by
  obtain ⟨hres, r, b, rs, hr, rfl, hb, hleft, hc⟩ := ht
  unfold NiosLink.drainTransfer
  cases hf : l.frame with
  | none =>
      dsimp only
      split
      · exact .fail hg (by decide)
      · refine .fail hg ?_
        split
        · decide
        · assumption
  | some e =>
      dsimp only
      split
      · rename_i hst
        exact .fail hg hst.1
      · have hmatch := hg.answered e (hg.of_frame hf)
        rcases frame_of_carries hc hf with ⟨rs', hperm, hunread⟩ | ⟨rfl, hunread, hdefer⟩
        · have hleft' := hleft.perm hperm
          have hne := drainFrame_leftover hw hr (hleft'.remembered e List.mem_cons_self) hmatch
          split
          · exact ⟨hg.consume l.state, .of_none hres,  fun _ => hw, fun _ => by
                rw [hphase]
                exact ⟨hres, r, b, rs', hr, rfl, hb, hleft'.tail, hunread ▸ .before⟩⟩
          · exact absurd (by assumption) hne
          · exact .fail hg (by decide)
        · rw [drainFrame_barrier hw hr hb hmatch]
          have hw' : ({ l.state with pendingRead := none } : PeripheralState).WellFormed :=
            ⟨fun _ h => absurd h (by simp), hw.rfic, hw.retune2, hw.exclusive⟩
          refine .startRequest (hg.consume _) hw' rfl ?_ hres rfl
          -- what the barrier has overtaken are RETUNE2 answers, which have their own slot
          rw [hunread]
          refine hleft.mono (fun x hx hrem => ?_)
          have hm := deferrable_magic (hdefer x hx)
          exact .inr (.inr (hw.remembers_retune2 hrem hm))

end NiosLink

/-! ## The response loop -/

namespace PeripheralState

variable {st st' : PeripheralState} {request response : Packet} {recW recR : Bool}

structure Drops (st st' : PeripheralState) : Prop where
  desynchronized : st'.desynchronized = st.desynchronized
  read : st'.pendingRead = st.pendingRead
  rfic : st'.pendingRfic = st.pendingRfic ∨ st'.pendingRfic = none
  retune2 : st'.pendingRetune2 = st.pendingRetune2 ∨ st'.pendingRetune2 = none
  session : st.sessionGenerationValid = true → st'.sessionGenerationValid = true

theorem Drops.trans {st'' : PeripheralState} (h : st.Drops st') (h' : st'.Drops st'') :
    st.Drops st'' where
  desynchronized := h'.desynchronized.trans h.desynchronized
  read := h'.read.trans h.read
  rfic := h'.rfic.elim (fun e => e ▸ h.rfic) .inr
  retune2 := h'.retune2.elim (fun e => e ▸ h.retune2) .inr
  session := fun hv => h'.session (h.session hv)

theorem WellFormed.drops (h : st.WellFormed) (hd : st.Drops st') : st'.WellFormed where
  read := fun r hr => h.read r (hd.read ▸ hr)
  rfic := by
    intro w hw
    rcases hd.rfic with he | he
    · exact h.rfic w (he ▸ hw)
    · rw [he] at hw
      exact absurd hw (by simp)
  retune2 := by
    intro p hp
    rcases hd.retune2 with he | he
    · obtain ⟨hm, hv⟩ := h.retune2 p (he ▸ hp)
      exact ⟨hm, hv.imp_left hd.session⟩
    · rw [he] at hp
      exact absurd hp (by simp)
  exclusive := by
    rcases h.exclusive with he | he
    · left
      rcases hd.rfic with h' | h'
      · rw [h', he]
      · exact h'
    · right
      rcases hd.retune2 with h' | h'
      · rw [h', he]
      · exact h'

theorem readGeneration_drops (st : PeripheralState) (recR : Bool) (request response : Packet) :
    st.Drops (st.readGeneration recR request response) := by
  unfold readGeneration
  split
  · dsimp only
    split
    · exact ⟨rfl, rfl, .inl rfl, .inr rfl, fun _ => rfl⟩
    · exact ⟨rfl, rfl, .inl rfl, .inl rfl, fun _ => rfl⟩
  · exact ⟨rfl, rfl, .inl rfl, .inl rfl, id⟩

theorem settleRfic_drops (st : PeripheralState) (recW : Bool) (request : Packet) :
    st.Drops (st.settleRfic recW request) := by
  unfold settleRfic
  split
  · exact ⟨rfl, rfl, .inr rfl, .inl rfl, id⟩
  · exact ⟨rfl, rfl, .inl rfl, .inl rfl, id⟩

theorem settleQueueClear_drops (st : PeripheralState) (recR : Bool) (request : Packet) :
    st.Drops (st.settleQueueClear recR request) := by
  unfold settleQueueClear
  split
  · exact ⟨rfl, rfl, .inl rfl, .inr rfl, id⟩
  · exact ⟨rfl, rfl, .inl rfl, .inl rfl, id⟩

theorem acknowledge_drops (st : PeripheralState) (recW recR : Bool) (request response : Packet) :
    st.Drops (st.acknowledge recW recR request response) :=
  ((settleRfic_drops st recW request).trans (readGeneration_drops _ recR request response)).trans
    (settleQueueClear_drops _ recR request)

theorem acknowledge_retune2 {p : Packet × ℕ} (hp : st.pendingRetune2 = some p)
    (hclear : niosIsRetune2ClearQueue request = false)
    (hgen : (niosIsSessionGenerationRead request && response.flag 2 2 &&
      st.sessionGenerationValid && (niosPkt8x32.unpack response).data != p.2) = false) :
    (st.acknowledge recW recR request response).pendingRetune2 = some p := by
  have h₁ : (st.settleRfic recW request).pendingRetune2 = some p := by
    unfold settleRfic
    split <;> exact hp
  have hv : (st.settleRfic recW request).sessionGenerationValid = st.sessionGenerationValid := by
    unfold settleRfic
    split <;> rfl
  have h₂ : ((st.settleRfic recW request).readGeneration recR request response).pendingRetune2
      = some p := by
    unfold readGeneration
    split
    · rename_i hg
      rw [hg, Bool.true_and] at hgen
      dsimp only
      rw [h₁, hv, Option.any_some, Bool.and_assoc, hgen, Bool.and_false, if_neg (by decide)]
    · exact h₁
  unfold acknowledge settleQueueClear
  rw [hclear, Bool.and_false, if_neg (by decide)]
  exact h₂

end PeripheralState

namespace NiosLink

variable {l l' : NiosLink} {request : Packet} {id : ℕ} {recW recR : Bool} {own e : Exchange}
  {rs rs' : List Exchange}

section

variable (h : l.Reading request id recW recR own rs)

include h

theorem Reading.rfic_none (hw : l.state.WellFormed)
    (hp : l.state.pendingRetune2.isSome = true) : l.state.pendingRfic = none ∧ recW = false := by
  have hnone : l.state.pendingRfic = none := by
    rcases hw.exclusive with h' | h'
    · exact h'
    · rw [h'] at hp
      exact absurd hp (by decide)
  exact ⟨hnone, by rw [h.write_iff, hnone]; rfl⟩

theorem Reading.accepts_own
    (hm : niosResponseMatchesRequest own.request own.answer true own.gen = true)
    (hacc : l.state.accepts request own.answer = false) :
    request.byte 0 = niosPktRetune2Magic ∧ l.state.sessionGenerationValid = false ∧
      niosPktRetune2UnpackRequestToken request ≠ 0 := by
  rw [h.own_request] at hm
  unfold accepts at hacc
  refine ⟨?_, ?_, ?_⟩
  · by_contra hne
    rw [matches_session_irrelevant hne (u := true) (k := own.gen), hm] at hacc
    exact absurd hacc (by decide)
  · by_contra hv
    have hv' : l.state.sessionGenerationValid = true := by simpa using hv
    rw [hv', ← h.own_gen hv', hm] at hacc
    exact absurd hacc (by decide)
  · intro ht
    rw [matches_tokenless ht (u := true) (k := own.gen), hm] at hacc
    exact absurd hacc (by decide)

section

variable (hw : l.state.WellFormed)

include hw

theorem Reading.own_mismatch
    (hm : niosResponseMatchesRequest own.request own.answer true own.gen = true)
    (hacc : l.state.accepts request own.answer = false) :
    (l.state.responseFrame recW recR request own.answer).2 = .mismatch := by
  obtain ⟨hmagic, hv, htok⟩ := h.accepts_own hm hacc
  rw [h.own_request] at hm
  have hrfic : l.state.acceptsRfic own.answer = false :=
    hw.acceptsRfic_of_magic hm (by rw [hmagic]; decide) (by rw [hmagic]; decide)
  have hretune : l.state.acceptsRetune2 own.answer = false := by
    unfold acceptsRetune2
    cases hp : l.state.pendingRetune2 with
    | none => rfl
    | some p =>
        obtain ⟨hpm, hor⟩ := hw.retune2 p hp
        have hp0 : niosPktRetune2UnpackRequestToken p.1 = 0 := by
          rcases hor with h' | h'
          · rw [hv] at h'
            exact absurd h' (by decide)
          · exact h'
        rw [Option.any_some, Bool.eq_false_iff]
        intro hpa
        have htp := token_of_retune2 hpm hpa
        rw [token_of_retune2 hmagic hm, hp0] at htp
        exact htok htp
  simp [responseFrame, hacc, hrfic, hretune]

theorem Reading.own_accepted
    (hm : niosResponseMatchesRequest own.request own.answer true own.gen = true)
    (hdefer : ∀ x ∈ rs, x.deferrable = true)
    (hret : l.state.retains request id own rs = true)
    (hacc : l.state.accepts request own.answer = true) :
    ∃ st, l.state.responseFrame recW recR request own.answer = (st, .complete) ∧
      l.state.Drops st ∧ Leftover st rs := by
  rw [h.own_request] at hm
  have hdrop : l.state.Drops (if (recR && l.state.acceptsRetune2 own.answer) = true
      then { l.state with pendingRetune2 := none } else l.state) := by
    split
    · exact ⟨rfl, rfl, .inl rfl, .inr rfl, fun hv => hv⟩
    · exact ⟨rfl, rfl, .inl rfl, .inl rfl, fun hv => hv⟩
  refine ⟨_, by simp only [responseFrame, hacc, if_true],
    hdrop.trans (acknowledge_drops _ recW recR request own.answer), ?_⟩
  cases hp : l.state.pendingRetune2 with
  | none =>
      -- nothing of `rs` can be left: only a remembered RETUNE2 answer is overtaken
      have hnil : rs = [] := by
        rw [List.eq_nil_iff_forall_not_mem]
        intro x hx
        have hr := hw.remembers_retune2 (h.leftover.remembered x hx)
          (deferrable_magic (hdefer x hx))
        rw [hp] at hr
        exact absurd hr (by simp)
      rw [hnil]
      exact Leftover.nil _
  | some p =>
      by_cases hnil : rs = []
      · rw [hnil]
        exact Leftover.nil _
      · have hrec : recR = true := h.retune2_of (by rw [hp]; rfl)
        obtain ⟨hleg, hclr⟩ := niosIsRetune2RecoveryRequest_spec (h.recovery hrec)
        have hempty : rs.isEmpty = false := by simpa using hnil
        simp only [retains, hp, h.own_id, if_true, hempty, Bool.false_or,
          Bool.not_eq_true', Bool.or_eq_false_iff] at hret
        obtain ⟨hclear, hgen⟩ := hret
        have hmagic : request.byte 0 ≠ niosPktRetune2Magic := by
          intro h2
          rw [hclr h2] at hclear
          exact absurd hclear (by decide)
        have hnot : l.state.acceptsRetune2 own.answer = false :=
          hw.acceptsRetune2_of_magic hm hleg hmagic
        rw [hnot, Bool.and_false, if_neg (by decide)]
        refine h.leftover.mono (fun x hx hrem => ?_)
        have hr := hw.remembers_retune2 hrem (deferrable_magic (hdefer x hx))
        refine .inr (.inr ?_)
        rw [acknowledge_retune2 hp hclear hgen, ← hp]
        exact hr

theorem Reading.older_rfic
    (hm : niosResponseMatchesRequest e.request e.answer true e.gen = true)
    (hr : l.state.pendingRfic = some e.request) :
    (l.state.responseFrame recW recR request e.answer = (l.state, .complete) ∧
        request = e.request) ∨
      l.state.responseFrame recW recR request e.answer = (l.state, .consumed) := by
  have htag := hw.rfic _ hr
  obtain ⟨hmagic, hwrite⟩ := niosIsTaggedRficWrite_spec htag
  have hrecW : recW = true := by rw [h.write_iff, hr]; rfl
  have hnone : l.state.pendingRetune2 = none := by
    rcases hw.exclusive with h' | h'
    · rw [hr] at h'
      exact absurd h' (by simp)
    · exact h'
  have hno : l.state.acceptsRetune2 e.answer = false := by
    simp [acceptsRetune2, hnone]
  have hpend : l.state.acceptsRfic e.answer = true := by
    rw [acceptsRfic, hr, Option.any_some, accepts,
      matches_session_irrelevant (u := true) (k := e.gen), hm]
    rw [hmagic]; decide
  cases hacc : l.state.accepts request e.answer with
  | false =>
      right
      simp [responseFrame, hacc, hno, hpend, hrecW]
  | true =>
      left
      have hreq : request = e.request := by
        rcases h.ordered _ hr with hs | hs | hs
        · have := rfic_write_and_readout (u := l.state.sessionGenerationValid)
            (k := l.state.sessionGeneration) htag (.inl hs) hm
          exact absurd (hacc.symm.trans this) (by decide)
        · have := rfic_write_and_readout (u := l.state.sessionGenerationValid)
            (k := l.state.sessionGeneration) htag (.inr hs) hm
          exact absurd (hacc.symm.trans this) (by decide)
        · exact hs
      refine ⟨?_, hreq⟩
      rw [← hreq] at hmagic hwrite
      have hstatus : niosIsRecoveryStatusRead request = false := by
        rw [Bool.eq_false_iff]
        intro hs
        exact absurd (hwrite.symm.trans (niosIsRecoveryStatusRead_spec hs).2) (by decide)
      have hreadout : niosIsRetune2ReadoutRequest request = false := by
        simp [niosIsRetune2ReadoutRequest, hmagic, niosPkt16x64Magic, niosPkt8x32Magic]
      have hgen : niosIsSessionGenerationRead request = false := by
        simp [niosIsSessionGenerationRead, hmagic, niosPkt16x64Magic, niosPkt8x32Magic]
      simp [responseFrame, hacc, hno, acknowledge,
        settleRfic, readGeneration,
        settleQueueClear, hstatus, hreadout, hgen, hnone]

theorem Reading.older_retune2
    (hm : niosResponseMatchesRequest e.request e.answer true e.gen = true)
    (hr : l.state.pendingRetune2.map Prod.fst = some e.request) (hid : e.id < id)
    (hret : l.state.retains request id e (rs' ++ [own]) = true) :
    l.state.responseFrame recW recR request e.answer =
        ({ l.state with pendingRetune2 := none }, .consumed) ∨
      (l.state.responseFrame recW recR request e.answer).2 = .mismatch := by
  obtain ⟨p, hp, hpe⟩ := Option.map_eq_some_iff.mp hr
  have hsome : l.state.pendingRetune2.isSome = true := by rw [hp]; rfl
  have hmagic : e.request.byte 0 = niosPktRetune2Magic := hpe ▸ (hw.retune2 p hp).1
  obtain ⟨hleg, hclr⟩ := niosIsRetune2RecoveryRequest_spec (h.recovery (h.retune2_of hsome))
  have hacc : l.state.accepts request e.answer = false := by
    by_cases h2 : request.byte 0 = niosPktRetune2Magic
    · simpa [retains, hp, hid.ne, hclr h2] using hret
    · refine no_shared_answer_of_magic ?_ hleg ?_ hm
      · rw [hmagic]; decide
      · rw [hmagic]; exact fun heq => h2 heq.symm
  have hrecW := (h.rfic_none hw hsome).2
  cases hpend : l.state.acceptsRetune2 e.answer with
  | true =>
      left
      simp [responseFrame, hacc, hpend, h.retune2_of hsome]
  | false =>
      right
      simp [responseFrame, hacc, hpend, hrecW]

end

end

theorem responseFrame_mismatch {st : PeripheralState} {response : Packet}
    (h : (st.responseFrame recW recR request response).2 = .mismatch) :
    (st.responseFrame recW recR request response).1.desynchronized = true := by
  unfold responseFrame at h ⊢
  dsimp only at h ⊢
  split at h
  · exact absurd h (by simp)
  · rename_i hc
    split at h
    · exact absurd h (by simp)
    · rename_i hp
      rw [if_neg hc, if_neg hp]

theorem Attributed.earlier_write (he : e ∈ l.log) (hreq : request = e.request) (hid : e.id < id)
    (htag : niosIsTaggedRficWrite request = true) :
    (l.ret request (some id) .success .complete (some e.answer)).Attributed := by
  intro r hr _
  obtain rfl := Option.some.inj hr
  exact ⟨e, he, rfl, hreq.symm, .inr ⟨⟨id, rfl, hid⟩, htag⟩⟩

theorem Attributed.own_answer (he : own ∈ l.log) (hreq : own.request = request) (hid : own.id = id) :
    (l.ret request (some id) .success .complete (some own.answer)).Attributed := by
  intro r hr _
  obtain rfl := Option.some.inj hr
  exact ⟨own, he, rfl, hreq, .inl (by rw [hid])⟩

theorem Accounted.frame_mismatch {answer : Packet} {response : Packet} (hg : l.Genuine)
    (h : (l.state.responseFrame recW recR request response).2 = .mismatch) :
    (l.frameRead request id answer
      (l.state.responseFrame recW recR request response)).Accounted := by
  have hd := responseFrame_mismatch h
  generalize l.state.responseFrame recW recR request response = r at h hd ⊢
  obtain ⟨st, out⟩ := r
  obtain rfl : out = .mismatch := h
  exact .ret_latched (hg.consume st) hd (by decide)

theorem Accounted.frame_rfic (hg : l.Genuine) (hw : l.state.WellFormed)
    (hphase : l.phase = .reading request id recW recR)
    (hres : l.result = none) (h : l.Reading request id recW recR own rs) (hmem : e ∈ l.log)
    (hperm : rs.Perm (e :: rs')) (hunread : l.unread = rs' ++ [own])
    (hr : l.state.pendingRfic = some e.request) :
    (l.frameRead request id e.answer
      (l.state.responseFrame recW recR request e.answer)).Accounted := by
  have hleft := (h.leftover.perm hperm).tail
  have htag := hw.rfic _ hr
  rcases h.older_rfic hw (hg.answered e hmem) hr with ⟨heq, hreq⟩ | heq
  · have hid := h.earlier e (hperm.mem_iff.mpr List.mem_cons_self)
    rw [heq]
    refine .ret (hg.consume _) (.earlier_write hmem hreq hid (hreq ▸ htag)) hw rfl ?_
    show Leftover l.state l.unread
    rw [hunread]
    refine hleft.snoc (.inr (.inl ?_)) ?_
    · rw [hr, h.own_request, hreq]
    · rw [h.own_request, hreq, (niosIsTaggedRficWrite_spec htag).1]
      decide
  · have hearlier : ∀ x ∈ rs', x.id < id := fun x hx =>
      h.earlier x (hperm.mem_iff.mpr (List.mem_cons_of_mem _ hx))
    rw [heq]
    exact ⟨hg.consume _, .of_none hres, fun _ => hw, fun _ => by
        rw [NiosLink.frameRead, hphase]
        exact ⟨hres, own, rs', h.noRead, h.write_iff, h.retune2_of, h.recovery, h.ordered,
          h.own_id, h.own_request, h.own_gen, hleft, hearlier, hunread ▸ .before⟩⟩

theorem Accounted.frame_retune2 (hg : l.Genuine) (hw : l.state.WellFormed)
    (hphase : l.phase = .reading request id recW recR)
    (hres : l.result = none) (h : l.Reading request id recW recR own rs) (hmem : e ∈ l.log)
    (hperm : rs.Perm (e :: rs')) (hunread : l.unread = rs' ++ [own])
    (hret : l.state.retains request id e l.unread = true)
    (hr : l.state.pendingRetune2.map Prod.fst = some e.request) :
    (l.frameRead request id e.answer
      (l.state.responseFrame recW recR request e.answer)).Accounted := by
  have hleft := h.leftover.perm hperm
  have hid := h.earlier e (hperm.mem_iff.mpr List.mem_cons_self)
  rcases h.older_retune2 hw (hg.answered e hmem) hr hid (hunread ▸ hret) with heq | hmism
  · obtain ⟨p, hp, hpe⟩ := Option.map_eq_some_iff.mp hr
    have hmagic : e.request.byte 0 = niosPktRetune2Magic := hpe ▸ (hw.retune2 p hp).1
    have hearlier : ∀ x ∈ rs', x.id < id := fun x hx =>
      h.earlier x (hperm.mem_iff.mpr (List.mem_cons_of_mem _ hx))
    -- no second RETUNE2 answer is left, so nothing else goes with the identity
    have hkept : Leftover { l.state with pendingRetune2 := none } rs' := by
      refine hleft.tail.mono (fun x hx hrem => ?_)
      rcases hrem with hx' | hx' | hx'
      · exact .inl hx'
      · exact .inr (.inl hx')
      · refine absurd ⟨hmagic, ?_⟩ ((List.pairwise_cons.mp hleft.oneRetune2).1 x hx)
        rw [hp] at hx'
        rw [← Option.some.inj hx']
        exact (hw.retune2 p hp).1
    have hw' : ({ l.state with pendingRetune2 := none } : PeripheralState).WellFormed :=
      hw.drops ⟨rfl, rfl, .inl rfl, .inr rfl, fun hv => hv⟩
    rw [heq]
    exact ⟨hg.consume _, .of_none hres, fun _ => hw', fun _ => by
        rw [NiosLink.frameRead, hphase]
        exact ⟨hres, own, rs', h.noRead, h.write_iff, fun hs => absurd hs (by simp),
          h.recovery, h.ordered, h.own_id, h.own_request, h.own_gen, hkept, hearlier,
          hunread ▸ .before⟩⟩
  · exact .frame_mismatch hg hmism

theorem Accounted.frame_own (hg : l.Genuine) (hw : l.state.WellFormed)
    (h : l.Reading request id recW recR own rs) (hmem : own ∈ l.log) (hunread : l.unread = rs)
    (hdefer : ∀ x ∈ rs, x.deferrable = true)
    (hret : l.state.retains request id own l.unread = true) :
    (l.frameRead request id own.answer
      (l.state.responseFrame recW recR request own.answer)).Accounted := by
  have hm := hg.answered own hmem
  cases hacc : l.state.accepts request own.answer with
  | true =>
      obtain ⟨st, heq, hdrop, hkept⟩ := h.own_accepted hw hm hdefer (hunread ▸ hret) hacc
      rw [heq]
      refine .ret (hg.consume st) (.own_answer hmem h.own_request h.own_id) (hw.drops hdrop) rfl ?_
      show Leftover st l.unread
      rw [hunread]
      exact hkept
  | false => exact .frame_mismatch hg (h.own_mismatch hw hm hacc)

theorem Accounted.frameRead (hg : l.Genuine) (hw : l.state.WellFormed)
    (hphase : l.phase = .reading request id recW recR)
    (hres : l.result = none) (h : l.Reading request id recW recR own rs)
    (hf : l.frame = some e) (hret : l.state.retains request id e l.unread = true) :
    (l.frameRead request id e.answer
      (l.state.responseFrame recW recR request e.answer)).Accounted := by
  have hmem := hg.of_frame hf
  rcases frame_of_carries h.carries hf with ⟨rs', hperm, hunread⟩ | ⟨rfl, hunread, hdefer⟩
  · rcases h.leftover.remembered e (hperm.mem_iff.mpr List.mem_cons_self) with hr | hr | hr
    · rw [h.noRead] at hr
      exact absurd hr (by simp)
    · exact .frame_rfic hg hw hphase hres h hmem hperm hunread hr
    · exact .frame_retune2 hg hw hphase hres h hmem hperm hunread hret hr
  · exact .frame_own hg hw h hmem hunread hdefer hret

theorem responseTimeout_cases (st : PeripheralState) (request : Packet) :
    (st.responseTimeout request).2 ≠ .success ∧
      ((st.responseTimeout request).1.desynchronized = true ∨
        (request.byte 0 = niosPktRetune2Magic ∧ st.pendingRetune2 = none ∧
          (st.sessionGenerationValid = true ∨ niosPktRetune2UnpackRequestToken request = 0) ∧
          ∃ g, (st.responseTimeout request).1 = { st with pendingRetune2 := some (request, g) }) ∨
        (niosIsTaggedRficWrite request = true ∧
          (∀ w, st.pendingRfic = some w → request = w) ∧
          (st.responseTimeout request).1 = { st with pendingRfic := some request }) ∨
        (niosIsFixedReadRequest request = true ∧
          (st.responseTimeout request).1 = { st with pendingRead := some request })) := by
  unfold responseTimeout
  split
  · rename_i hm
    dsimp only
    split
    · exact ⟨by simp, .inl rfl⟩
    · rename_i hp
      split
      · exact ⟨by simp, .inl rfl⟩
      · rename_i hv
        refine ⟨by simp, .inr (.inl ⟨hm, by simpa using hp, ?_, _, rfl⟩)⟩
        by_cases h : st.sessionGenerationValid = true
        · exact .inl h
        · simp only [h, Bool.not_eq_true', Bool.and_eq_true, not_and, Bool.not_eq_false,
            beq_iff_eq] at hv
          exact .inr (hv (by simp)).1
  · split
    · rename_i hw
      rw [Bool.and_eq_true] at hw
      refine ⟨by simp, .inr (.inr (.inl ⟨hw.1, fun w hp => ?_, rfl⟩))⟩
      have := hw.2
      rw [hp] at this
      simpa using this
    · split
      · rename_i hr
        exact ⟨by simp, .inr (.inr (.inr ⟨hr, rfl⟩))⟩
      · exact ⟨by simp, .inl rfl⟩

theorem Reading.timeout_retune2 (h : l.Reading request id recW recR own rs)
    (hw : l.state.WellFormed) (hm : request.byte 0 = niosPktRetune2Magic) (hnone : l.state.pendingRetune2 = none) :
    l.state.pendingRfic = none ∧ rs = [] := by
  have hrfic : l.state.pendingRfic = none := by
    cases hp : l.state.pendingRfic with
    | none => rfl
    | some w =>
        exfalso
        rcases h.ordered w hp with hs | hs | hs
        · rw [(niosIsRecoveryStatusRead_spec hs).1] at hm
          exact absurd hm (by decide)
        · rw [niosIsRetune2ReadoutRequest_spec hs] at hm
          exact absurd hm (by decide)
        · rw [hs, (niosIsTaggedRficWrite_spec (hw.rfic w hp)).1] at hm
          exact absurd hm (by decide)
  refine ⟨hrfic, List.eq_nil_iff_forall_not_mem.mpr (fun x hx => ?_)⟩
  rcases h.leftover.remembered x hx with hr | hr | hr
  · rw [h.noRead] at hr
    exact absurd hr (by simp)
  · rw [hrfic] at hr
    exact absurd hr (by simp)
  · rw [hnone] at hr
    exact absurd hr (by simp)

theorem Reading.timeout_rfic (h : l.Reading request id recW recR own rs)
    (htag : niosIsTaggedRficWrite request = true) : l.state.pendingRetune2 = none := by
  obtain ⟨hm, hwrite⟩ := niosIsTaggedRficWrite_spec htag
  cases hp : l.state.pendingRetune2 with
  | none => rfl
  | some p =>
      exfalso
      have hrec := h.recovery (h.retune2_of (by rw [hp]; rfl))
      unfold niosIsRetune2RecoveryRequest at hrec
      rw [if_neg (by rw [hm]; decide)] at hrec
      rcases Bool.or_eq_true_iff.mp hrec with hs | hs
      · exact absurd (hwrite.symm.trans (niosIsRecoveryStatusRead_spec hs).2) (by decide)
      · have := niosIsRetune2ClearQueue_spec hs
        rw [hm] at this
        exact absurd this (by decide)

theorem Accounted.timedOut (hg : l.Genuine) (hw : l.state.WellFormed)
    (h : l.Reading request id recW recR own rs) : (l.timedOut request id).Accounted := by
  unfold NiosLink.timedOut
  split
  · rename_i hwire
    have hnone : l.wire = none := by simpa using hwire
    have hunread : l.unread = rs ++ [own] := by
      have hc := h.carries
      rw [hnone] at hc
      generalize l.unread = u at hc
      cases hc with
      | before => rfl
    have hg' : ∀ st, ({ l with state := st } : NiosLink).Genuine := fun st =>
      hg.congr rfl rfl rfl
    obtain ⟨hs, hcases⟩ := responseTimeout_cases l.state request
    dsimp only
    rcases hcases with hd | ⟨hm, hp, hv, g, heq⟩ | ⟨htag, hall, heq⟩ | ⟨hread, heq⟩
    · exact .ret_latched (hg' _) hd hs
    · obtain ⟨hrfic, hnil⟩ := h.timeout_retune2 hw hm hp
      refine .ret (hg' _) (.of_failure hs) ?_ hnone ?_
      · show (l.state.responseTimeout request).1.WellFormed
        rw [heq]
        refine ⟨hw.read, hw.rfic, fun p hp' => ?_, .inl hrfic⟩
        obtain rfl := Option.some.inj hp'
        exact ⟨hm, hv⟩
      · show Leftover (l.state.responseTimeout request).1 l.unread
        rw [heq, hunread, hnil]
        refine ⟨fun x hx => ?_, List.pairwise_singleton _ _⟩
        obtain rfl := List.mem_singleton.mp hx
        exact .inr (.inr (by rw [h.own_request]; rfl))
    · have hp := h.timeout_rfic htag
      refine .ret (hg' _) (.of_failure hs) ?_ hnone ?_
      · show (l.state.responseTimeout request).1.WellFormed
        rw [heq]
        refine ⟨hw.read, fun w hw' => ?_, hw.retune2, .inr hp⟩
        obtain rfl := Option.some.inj hw'
        exact htag
      · show Leftover (l.state.responseTimeout request).1 l.unread
        rw [heq, hunread]
        refine (h.leftover.mono (fun x _ hrem => ?_)).snoc (.inr (.inl ?_)) ?_
        · rcases hrem with hr | hr | hr
          · exact .inl hr
          · exact .inr (.inl (by rw [hall _ hr]))
          · exact .inr (.inr hr)
        · rw [h.own_request]
        · rw [h.own_request, (niosIsTaggedRficWrite_spec htag).1]
          decide
    · refine .ret (hg' _) (.of_failure hs) ?_ hnone ?_
      · show (l.state.responseTimeout request).1.WellFormed
        rw [heq]
        refine ⟨fun r hr => ?_, hw.rfic, hw.retune2, hw.exclusive⟩
        obtain rfl := Option.some.inj hr
        exact hread
      · show Leftover (l.state.responseTimeout request).1 l.unread
        rw [heq, hunread]
        refine (h.leftover.mono (fun x _ hrem => ?_)).snoc (.inl ?_) ?_
        · rcases hrem with hr | hr | hr
          · rw [h.noRead] at hr
            exact absurd hr (by simp)
          · exact .inr (.inl hr)
          · exact .inr (.inr hr)
        · rw [h.own_request]
        · rw [h.own_request]
          exact (niosIsFixedReadRequest_spec hread).2.1
  · exact .fail hg (by decide)

theorem Accounted.responseTransfer {len : ℕ} {status : NiosStatus} (hg : l.Genuine)
    (hw : l.state.WellFormed)
    (hphase : l.phase = .reading request id recW recR) (hres : l.result = none)
    (h : l.Reading request id recW recR own rs)
    (hret : ∀ e, l.frame = some e → (status = .success ∨ status = .timeout) →
      l.state.retains request id e l.unread = true) :
    (l.responseTransfer request id recW recR len status).Accounted := by
  unfold NiosLink.responseTransfer
  cases hf : l.frame with
  | some e =>
      dsimp only
      split
      · rename_i hst
        exact .fail hg hst.1
      · rename_i hst
        have hst' : status = .success ∨ status = .timeout := by
          by_contra hno
          exact hst (not_or.mp hno)
        exact .frameRead hg hw hphase hres h hf (hret e hf hst')
  | none =>
      dsimp only
      split
      · rename_i hst
        exact .fail hg hst.1
      · split
        · exact .timedOut hg hw h
        · split
          · exact .fail hg (by decide)
          · exact ⟨hg, .of_none hres, fun _ => hw, fun _ => by
                rw [hphase]
                exact ⟨hres, own, rs, h⟩⟩

end NiosLink

end BladeRF
