/-
# `Streaming.TxQueue` — the filled buffers as a queue, and the invariant

The buffers that are filled and not yet accepted form a queue in consecutive
slots: first the one between `tx_callback` and the backend, if there is one,
then the deferred ones.  The fills accepted so far, followed by the fills in the
queue, are one increasing list; every operation of the ring either leaves this
list alone, moves the border between its two parts, or puts the next fill at its
end.  What the operations need for that is that `cons_i`, when it is valid,
points at the head of the deferred buffers.
-/
import BladeRF.Lib.Arc
import BladeRF.Streaming.TxRing

namespace BladeRF

/-! ## The queue -/

/-- The queue behind the accepted fills: `lead` is the slot between `tx_callback`
and the backend, `body` the deferred slots in order, `opn` the one of them that
`sync_tx` is submitting, and `next` the slot after the last. -/
structure TxQueue {n : ℕ} [NeZero n] (status : Fin n → SyncBufferStatus) (lead : List (Fin n))
    (opn : Option (Fin n)) (body : List (Fin n)) (next : Fin n) (accepted : List ℕ)
    (fillOf : Fin n → ℕ) (fills : ℕ) : Prop where
  runs : Lib.RunsTo next (lead ++ body)
  nodup : (lead ++ body).Nodup
  lead_inFlight : ∀ i ∈ lead, status i = .inFlight
  full_iff : ∀ i, status i = .full ↔ i ∈ body ∧ opn ≠ some i
  open_mem : ∀ i, opn = some i → i ∈ body ∧ status i = .inFlight
  line : (accepted ++ (lead ++ body).map fillOf).Pairwise (· < ·)
  bound : ∀ k ∈ accepted ++ (lead ++ body).map fillOf, k < fills

namespace TxQueue

variable {n : ℕ} [NeZero n] {status : Fin n → SyncBufferStatus} {lead body : List (Fin n)}
  {opn : Option (Fin n)} {next : Fin n} {accepted : List ℕ} {fillOf : Fin n → ℕ} {fills : ℕ}

section

variable (h : TxQueue status lead opn body next accepted fillOf fills)

include h

theorem congr_status
    {status' : Fin n → SyncBufferStatus}
    (hfull : ∀ i, status' i = .full ↔ status i = .full)
    (hflight : ∀ i, i ∈ lead ∨ opn = some i → status' i = .inFlight) :
    TxQueue status' lead opn body next accepted fillOf fills where
  runs := h.runs
  nodup := h.nodup
  lead_inFlight i hi := hflight i (Or.inl hi)
  full_iff i := (hfull i).trans (h.full_iff i)
  open_mem i hi := ⟨(h.open_mem i hi).1, hflight i (Or.inr hi)⟩
  line := h.line
  bound := h.bound

theorem update_status {i : Fin n}
    {st : SyncBufferStatus} (hi : status i ≠ .full) (hst : st ≠ .full)
    (hlead : i ∉ lead) (hopn : opn ≠ some i) :
    TxQueue (Function.update status i st) lead opn body next accepted fillOf fills := by
  refine h.congr_status (fun j => ?_) (fun j hj => ?_)
  · by_cases hji : j = i
    · subst hji
      simp [hi, hst]
    · rw [Function.update_of_ne hji]
  · have hji : j ≠ i := by
      rintro rfl
      exact hj.elim hlead hopn
    rw [Function.update_of_ne hji]
    rcases hj with hj | hj
    · exact h.lead_inFlight j hj
    · exact (h.open_mem j hj).2

theorem not_mem_of_status {i : Fin n}
    (hfull : status i ≠ .full) (hflight : status i ≠ .inFlight) : i ∉ lead ++ body := by
  intro hi
  rcases List.mem_append.mp hi with hi | hi
  · exact hflight (h.lead_inFlight i hi)
  · by_cases hopn : opn = some i
    · exact hflight (h.open_mem i hopn).2
    · exact hfull ((h.full_iff i).mpr ⟨hi, hopn⟩)

theorem line_push
    (hmem : next ∉ lead ++ body) :
    (accepted ++ (lead ++ (body ++ [next])).map (Function.update fillOf next fills)).Pairwise
      (· < ·) ∧
    ∀ k ∈ accepted ++ (lead ++ (body ++ [next])).map (Function.update fillOf next fills),
      k < fills + 1 := by
  have hmap : (lead ++ (body ++ [next])).map (Function.update fillOf next fills)
      = (lead ++ body).map fillOf ++ [fills] := by
    rw [← List.append_assoc, List.map_append]
    congr 1
    · refine List.map_congr_left (fun i hi => ?_)
      have hne : i ≠ next := fun heq => hmem (heq ▸ hi)
      exact Function.update_of_ne hne _ _
    · simp
  rw [hmap, ← List.append_assoc]
  refine ⟨List.pairwise_append.mpr ⟨h.line, List.pairwise_singleton _ _, ?_⟩, ?_⟩
  · intro k hk m hm
    rw [List.mem_singleton.mp hm]
    exact h.bound k hk
  · intro k hk
    rcases List.mem_append.mp hk with hk | hk
    · exact Nat.lt_succ_of_lt (h.bound k hk)
    · exact (List.mem_singleton.mp hk) ▸ Nat.lt_succ_self _

end

theorem push_full (h : TxQueue status lead none body next accepted fillOf fills)
    (hfull : status next ≠ .full) (hflight : status next ≠ .inFlight) :
    TxQueue (Function.update status next .full) lead none (body ++ [next]) (next + 1) accepted
      (Function.update fillOf next fills) (fills + 1) := by
  have hmem := h.not_mem_of_status hfull hflight
  have hline := h.line_push hmem
  refine ⟨?_, ?_, fun i hi => ?_, fun i => ?_, by simp, hline.1, hline.2⟩
  · rw [← List.append_assoc]
    exact h.runs.push
  · rw [← List.append_assoc]
    exact List.nodup_append.mpr ⟨h.nodup, List.nodup_singleton _, fun i hi j hj heq =>
      hmem (List.mem_singleton.mp hj ▸ heq ▸ hi)⟩
  · have hne : i ≠ next := fun heq => hmem (heq ▸ List.mem_append_left _ hi)
    rw [Function.update_of_ne hne]
    exact h.lead_inFlight i hi
  · by_cases hne : i = next
    · subst hne
      simp
    · rw [Function.update_of_ne hne, h.full_iff]
      simp [hne]

variable {idx : Fin n}

theorem open_head {rest : List (Fin n)}
    (h : TxQueue status lead none (idx :: rest) next accepted fillOf fills) :
    TxQueue (Function.update status idx .inFlight) lead (some idx) (idx :: rest) next accepted
      fillOf fills := by
  refine ⟨h.runs, h.nodup, fun i hi => ?_, fun i => ?_, ?_, h.line, h.bound⟩
  · by_cases hne : i = idx
    · subst hne
      simp
    · rw [Function.update_of_ne hne]
      exact h.lead_inFlight i hi
  · by_cases hne : i = idx
    · subst hne
      simp
    · rw [Function.update_of_ne hne, h.full_iff]
      simp [Ne.symm hne]
  · rintro i hi
    obtain rfl := Option.some.inj hi
    simp

theorem close_full (h : TxQueue status lead (some idx) body next accepted fillOf fills) :
    TxQueue (Function.update status idx .full) lead none body next accepted fillOf fills := by
  have hidx := (h.open_mem idx rfl).1
  have hlead : idx ∉ lead := fun hl =>
    (List.nodup_append.mp h.nodup).2.2 idx hl idx hidx rfl
  refine ⟨h.runs, h.nodup, fun i hi => ?_, fun i => ?_, by simp, h.line, h.bound⟩
  · have hne : i ≠ idx := fun heq => hlead (heq ▸ hi)
    rw [Function.update_of_ne hne]
    exact h.lead_inFlight i hi
  · by_cases hne : i = idx
    · subst hne
      simpa using hidx
    · rw [Function.update_of_ne hne, h.full_iff]
      simp [Ne.symm hne]

theorem drop_open (h : TxQueue status lead (some idx) [idx] next accepted fillOf fills) :
    TxQueue (Function.update status idx .empty) lead none [] idx accepted fillOf fills := by
  have hlead : idx ∉ lead := fun hl =>
    (List.nodup_append.mp h.nodup).2.2 idx hl idx (by simp) rfl
  have hsub : (accepted ++ (lead ++ []).map fillOf).Sublist
      (accepted ++ (lead ++ [idx]).map fillOf) :=
    (List.Sublist.refl _).append (((List.Sublist.refl _).append (List.nil_sublist _)).map _)
  refine ⟨?_, ?_, fun i hi => ?_, fun i => ?_, by simp, h.line.sublist hsub,
    fun k hk => h.bound k (hsub.subset hk)⟩
  · rw [List.append_nil]
    exact h.runs.pop
  · rw [List.append_nil]
    exact (List.nodup_append.mp h.nodup).1
  · have hne : i ≠ idx := fun heq => hlead (heq ▸ hi)
    rw [Function.update_of_ne hne]
    exact h.lead_inFlight i hi
  · by_cases hne : i = idx
    · subst hne
      simp
    · rw [Function.update_of_ne hne, h.full_iff]
      simp [hne]

theorem accept_open {rest : List (Fin n)}
    (h : TxQueue status [] (some idx) (idx :: rest) next accepted fillOf fills) :
    TxQueue status [] none rest next (accepted ++ [fillOf idx]) fillOf fills := by
  have hidx : idx ∉ rest := (List.nodup_cons.mp h.nodup).1
  refine ⟨h.runs.tail, (List.nodup_cons.mp h.nodup).2, by simp, fun i => ?_, by simp,
    by simpa using h.line, by simpa using h.bound⟩
  rw [h.full_iff]
  by_cases hne : i = idx
  · subst hne
    simp [hidx]
  · simp [hne, Ne.symm hne]

theorem ship {rest : List (Fin n)}
    (h : TxQueue status [] none (idx :: rest) next accepted fillOf fills) :
    TxQueue (Function.update status idx .inFlight) [idx] none rest next accepted fillOf fills := by
  have hidx : idx ∉ rest := (List.nodup_cons.mp h.nodup).1
  refine ⟨h.runs, h.nodup, fun i hi => ?_, fun i => ?_, by simp, h.line, h.bound⟩
  · rw [List.mem_singleton.mp hi]
    simp
  · by_cases hne : i = idx
    · subst hne
      simp [hidx]
    · rw [Function.update_of_ne hne, h.full_iff]
      simp [hne]

theorem accept_lead (h : TxQueue status [idx] opn body next accepted fillOf fills) :
    TxQueue status [] opn body next (accepted ++ [fillOf idx]) fillOf fills :=
  ⟨h.runs.tail, (List.nodup_cons.mp h.nodup).2, by simp, h.full_iff, h.open_mem,
    by simpa using h.line, by simpa using h.bound⟩

theorem drop_lead {lead' : List (Fin n)}
    (h : TxQueue status (lead' ++ lead) opn body next accepted fillOf fills) :
    TxQueue status lead opn body next accepted fillOf fills := by
  have hsub : (accepted ++ (lead ++ body).map fillOf).Sublist
      (accepted ++ (lead' ++ lead ++ body).map fillOf) := by
    rw [List.append_assoc]
    exact (List.Sublist.refl _).append ((List.sublist_append_right lead' _).map _)
  have hruns := h.runs
  have hnodup := h.nodup
  rw [List.append_assoc] at hruns hnodup
  exact ⟨hruns.of_append, (List.nodup_append.mp hnodup).2.1,
    fun i hi => h.lead_inFlight i (List.mem_append_right _ hi), h.full_iff, h.open_mem,
    h.line.sublist hsub, fun k hk => h.bound k (hsub.subset hk)⟩

theorem restore (h : TxQueue status [idx] opn body next accepted fillOf fills) :
    TxQueue (Function.update status idx .full) [] opn (idx :: body) next accepted fillOf fills := by
  have hidx : idx ∉ body := (List.nodup_cons.mp h.nodup).1
  have hopn : opn ≠ some idx := fun ho => hidx (h.open_mem idx ho).1
  refine ⟨h.runs, h.nodup, by simp, fun i => ?_, fun i hi => ?_, h.line, h.bound⟩
  · by_cases hne : i = idx
    · subst hne
      simpa using hopn
    · rw [Function.update_of_ne hne, h.full_iff]
      simp [hne]
  · have hi' := h.open_mem i hi
    have hne : i ≠ idx := fun heq => hidx (heq ▸ hi'.1)
    exact ⟨List.mem_cons_of_mem _ hi'.1, by rw [Function.update_of_ne hne]; exact hi'.2⟩

end TxQueue

/-! ## The scan finds the head of the queue -/

namespace TxBufferMgmt

variable {n : ℕ} [NeZero n]

/-- `cons_i`, when it is valid, points at the head of the deferred slots. -/
def AtHead (b : TxBufferMgmt n) (body : List (Fin n)) (next : Fin n) : Prop :=
  ∀ c, b.consI = some c → c = body.headD next

/-- Nobody is in the middle of a submission: `cons_i` is right, and `sync_tx` has
the duty with a stale `cons_i` only while something is deferred. -/
structure Settled (b : TxBufferMgmt n) (body : List (Fin n)) (next : Fin n) : Prop where
  atHead : b.AtHead body next
  fn : b.submitter = .fn → b.consI = none ∨ body ≠ []

theorem oldestFullBuffer_eq {b : TxBufferMgmt n} {lead body : List (Fin n)} {next : Fin n}
    {accepted : List ℕ} {fillOf : Fin n → ℕ} {fills : ℕ}
    (h : TxQueue b.status lead none body next accepted fillOf fills)
    (hhead : b.AtHead body next) (hnone : b.consI = none → b.prodI = next) :
    b.oldestFullBuffer = body.head? := by
  have hpred : (fun i => decide (b.status i = .full)) = fun i => decide (i ∈ body) := by
    funext i
    simp [h.full_iff i]
  unfold oldestFullBuffer
  rw [hpred]
  cases hc : b.consI with
  | none =>
      rw [Option.getD_none, hnone hc]
      exact h.runs.of_append.findFrom_stop (List.nodup_append.mp h.nodup).2.1
  | some c =>
      rw [Option.getD_some, hhead c hc]
      exact Lib.findFrom_headD body

theorem reclaimBegin_cases {b : TxBufferMgmt n} {body : List (Fin n)}
    (h : b.oldestFullBuffer = body.head?) :
    (body = [] ∧ b.reclaimBegin = (b.takeBack, none)) ∨
    (∃ idx rest, body = idx :: rest ∧
      b.reclaimBegin = (b.setStatus idx .inFlight, some idx)) := by
  cases body with
  | nil =>
      refine Or.inl ⟨rfl, ?_⟩
      simp only [reclaimBegin, h, List.head?_nil]
  | cons idx rest =>
      refine Or.inr ⟨idx, rest, rfl, ?_⟩
      simp only [reclaimBegin, h, List.head?_cons]

omit [NeZero n] in
theorem takeBack_settled (b : TxBufferMgmt n) (body : List (Fin n)) (next : Fin n) :
    b.takeBack.Settled body next :=
  ⟨by rintro c hc; simp [takeBack] at hc, fun _ => Or.inl rfl⟩

theorem txCallback_cases {b b' : TxBufferMgmt n} {stop : Bool} {i : Fin n} {ret : StreamReturn n}
    (h : b.txCallback stop (some i) = some (b', ret)) :
    (b' = b ∧ ret = .shutdown) ∨
    ((b' = b.setStatus i .empty ∨ b' = (b.setStatus i .empty).takeBack) ∧ ret = .noData) ∨
    (∃ c, b.submitter = .callback ∧ b.consI = some c ∧ (b.setStatus i .empty).status c = .full ∧
      b' = { (b.setStatus i .empty).setStatus c .inFlight with consI := some (c + 1) } ∧
      ret = .buffer c) := by
  simp only [txCallback] at h
  split at h
  · obtain ⟨rfl, rfl⟩ := Prod.mk.inj (Option.some.inj h)
    exact Or.inl ⟨rfl, rfl⟩
  · refine Or.inr ?_
    simp only [txCompleted] at h
    split at h
    · simp at h
    · split at h
      · obtain ⟨rfl, rfl⟩ := Prod.mk.inj (Option.some.inj h)
        exact Or.inl ⟨Or.inl rfl, rfl⟩
      · simp at h
      · rename_i c hsub hcons
        split at h
        · rename_i hfull
          obtain ⟨rfl, rfl⟩ := Prod.mk.inj (Option.some.inj h)
          exact Or.inr ⟨c, hsub, hcons, hfull, rfl, rfl⟩
        · obtain ⟨rfl, rfl⟩ := Prod.mk.inj (Option.some.inj h)
          exact Or.inl ⟨Or.inr rfl, rfl⟩

theorem reclaimEnd_prodI (b : TxBufferMgmt n) (idx : Fin n) (r : SubmitResult) :
    (b.reclaimEnd idx r).prodI = b.prodI := by
  cases r with
  | accepted =>
      simp only [reclaimEnd]
      split <;> rfl
  | wouldBlock => rfl
  | failed => rfl

end TxBufferMgmt

/-! ## The invariant -/

/-- The states in which the slot at `prod_i` is being filled, or is about to be. -/
def SyncState.filling : SyncState → Bool
  | .bufferReady | .usingBuffer | .usingBufferMeta | .usingPacketMeta => true
  | .checkWorker | .resetBufMgmt | .startWorker | .waitForBuffer => false

namespace TxSync

variable {n : ℕ} [NeZero n]

/-- The slot between `tx_callback` and the backend: not decided yet, or refused
and about to be restored. -/
def limbo (t : TxSync n) : Option (Fin n) :=
  match t.pending with
  | some c => some c
  | none => if t.worker = .streaming then t.rejected else none

/-- The slot that `sync_tx` is submitting, until the backend takes it. -/
def openSlot (t : TxSync n) : Option (Fin n) :=
  match t.point with
  | .submitting _ idx r => if r = some .accepted then none else some idx
  | _ => none

/-- The slot after the last filled one.  Inside `advance_tx_buffer` the producer
index is one behind. -/
def nextI (t : TxSync n) : Fin n :=
  match t.point with
  | .submitting .advance _ _ | .submitting .reclaimAdvance _ _ => t.b.prodI + 1
  | _ => t.b.prodI

/-- Who submits next, inside `reclaim_tx_submission`.  A buffer may be restored
in front of the slot being submitted only while no stream runs. -/
def DutyReclaim (t : TxSync n) (body : List (Fin n)) (idx : Fin n) (r : Option SubmitResult) :
    Prop :=
  if r = some .accepted then
    (∀ c, t.b.consI = some c → c = idx) ∧ idx + 1 = body.headD t.nextI ∧ idx ∉ body ∧
      t.pending = none ∧ t.rejected = none
  else
    t.b.AtHead body t.nextI ∧
      (body.head? = some idx ∨ (t.worker ≠ .starting ∧ t.worker ≠ .streaming))

def Duty (t : TxSync n) (body : List (Fin n)) : Prop :=
  match t.point with
  | .submitting .advance idx r =>
      idx = t.b.prodI ∧ t.b.submitter = .fn ∧ t.b.consI = none ∧
        body = if r = some .accepted then [] else [idx]
  | .submitting .reclaimAdvance idx r | .submitting (.reclaimWait _) idx r
  | .submitting .reclaimTimeout idx r => t.DutyReclaim body idx r
  | .outside | .starting | .waiting => t.b.Settled body t.b.prodI

theorem duty_own {t : TxSync n} {body : List (Fin n)} {idx : Fin n} {r : Option SubmitResult}
    (hp : t.point = .submitting .advance idx r) :
    t.Duty body ↔ idx = t.b.prodI ∧ t.b.submitter = .fn ∧ t.b.consI = none ∧
      body = if r = some .accepted then [] else [idx] := by
  simp only [Duty, hp]

theorem duty_reclaim {t : TxSync n} {body : List (Fin n)} {caller : TxSubmitCaller n} {idx : Fin n}
    {r : Option SubmitResult} (hp : t.point = .submitting caller idx r) (hc : caller ≠ .advance) :
    t.Duty body ↔ t.DutyReclaim body idx r := by
  cases caller with
  | advance => exact absurd rfl hc
  | reclaimAdvance => simp only [Duty, hp]
  | reclaimWait before => simp only [Duty, hp]
  | reclaimTimeout => simp only [Duty, hp]

theorem duty_rest {t : TxSync n} {body : List (Fin n)}
    (hp : t.point = .outside ∨ t.point = .starting ∨ t.point = .waiting) :
    t.Duty body ↔ t.b.Settled body t.b.prodI := by
  rcases hp with hp | hp | hp <;> simp only [Duty, hp]

/-- The slot at `prod_i`, by the producer's state. -/
def Place (t : TxSync n) : Prop :=
  match t.point with
  | .outside =>
      match t.state with
      | .bufferReady => t.b.status t.b.prodI = .empty
      | .usingBuffer =>
          t.b.status t.b.prodI = .partlyUsed ∧ t.b.partialOff < t.cfg.samplesPerBuffer
      | .usingBufferMeta | .usingPacketMeta => t.b.status t.b.prodI = .partlyUsed
      | .checkWorker | .resetBufMgmt | .startWorker | .waitForBuffer => True
  | .submitting .advance _ _ | .submitting .reclaimAdvance _ _ => True
  | .starting | .waiting | .submitting (.reclaimWait _) _ _ | .submitting .reclaimTimeout _ _ =>
      t.state.filling = false

structure Backend (t : TxSync n) : Prop where
  usb_inFlight : ∀ i ∈ t.usb, t.b.status i = .inFlight
  usb_limbo : ∀ i ∈ t.usb, t.limbo ≠ some i
  usb_nodup : t.usb.Nodup
  running : t.stream = .running → t.worker = .streaming
  usb_nil : t.stream = .done ∨ t.worker ≠ .streaming → t.usb = []
  rejected : ∀ c, t.rejected = some c → t.pending = none ∧ t.stream ≠ .running

/-- `body` is the list of deferred slots. -/
structure TxInv (t : TxSync n) (body : List (Fin n)) : Prop where
  queue : TxQueue t.b.status t.limbo.toList t.openSlot body t.nextI t.accepted t.fillOf t.fills
  duty : t.Duty body
  place : t.Place
  backend : t.Backend
  usb_open : ∀ i ∈ t.usb, t.openSlot ≠ some i

theorem init_inv (cfg : TxConfig) : (init cfg : TxSync n).TxInv [] where
  queue := ⟨trivial, List.nodup_nil, by simp [limbo, init], by simp [init, TxBufferMgmt.init],
    by simp [openSlot, init], by simp [limbo, init], by simp [limbo, init]⟩
  duty := ⟨by rintro c hc; simp [init, TxBufferMgmt.init] at hc, fun _ => Or.inl rfl⟩
  place := trivial
  backend := ⟨by simp [init], by simp [init], by simp [init], by simp [init], by simp [init],
    by simp [init]⟩
  usb_open := by simp [init]

end TxSync

end BladeRF
