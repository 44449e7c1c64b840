/-
# `Board.RxActivation` — staging and activating an RX epoch

A transition stages its epoch in the parser while samples are still fenced, and
activates it in a second call: under `sync->lock`, the generation lock and
`rx_async_epoch_lock` the certificate is committed and the fence is released.

A revocation advances the generation under the generation lock alone, and only
then takes `sync->lock` for the fence.  The activation certifies the generation
that it finds.  When the advance came between the staging and the activation,
the generation it finds is the revoked one.
-/
import BladeRF.Board.RxAlternation
import BladeRF.Streaming.RxMeta

namespace BladeRF

/-! ## The sync side -/

/-- The epoch part of `struct bladerf_sync`. -/
structure RxEpochSync where
  initialized : Bool
  rxLayout : Bool
  metaFormat : Bool
  fence : RxEpochFence
  generation : ℕ
  certifiedGeneration : ℕ
  deriving DecidableEq

namespace RxEpochSync

variable (s : RxEpochSync)

/-- `sync_rx_epoch_require_metadata`. -/
def requireMetadata : RetCode :=
  if s.initialized ∧ s.rxLayout ∧ !s.metaFormat then .unsupported else .ok

/-- The section of `sync_rx_epoch_stage_min_timestamp_before_deadline`. -/
def stage (minTimestamp : BitVec 64) (epochId : BitVec 8) (deadlineNs : ℕ) (clock : Option ℕ) :
    RxEpochSync × RetCode :=
  if !s.rxLayout then (s, .inval)
  else
    let status := RxNotify.admissionDeadlineStatus clock deadlineNs
    if status ≠ .ok then (s, status)
    else
      ({ s with fence := ⟨true, minTimestamp, true, true, true, epochId⟩ }, .ok)

/-- What `sync_rx_epoch_activate_with_admission_before_deadline` checks under
`sync->lock`. -/
def activationStatus (deadlineNs : ℕ) (clock : Option ℕ) : RetCode :=
  if !s.rxLayout then .inval
  else if !s.fence.boundaryEnabled ∨ !s.fence.idFilterEnabled then .unexpected
  else RxNotify.admissionDeadlineStatus clock deadlineNs

def commit : RxEpochSync :=
  { s with
    certifiedGeneration := s.generation
    fence := { s.fence with dataInvalidated := false, transitionPending := false } }

/-- The generation part of `rx_epoch_generation_advance_with_callback`. -/
def advance : RxEpochSync := { s with generation := s.generation + 1 }

/-- The section of `sync_rx_epoch_invalidate_with_revoke`, as far as the fence
goes. -/
def invalidate : RxEpochSync :=
  if s.rxLayout ∧ s.metaFormat then
    { s with
      fence := { s.fence with
        boundaryEnabled := true
        minTimestamp := 0
        idFilterEnabled := true
        dataInvalidated := true
        transitionPending := false } }
  else s

/-- Samples pass: the fence is open, and `rx_epoch_delivery_revoked` is false. -/
def released : Bool := !s.fence.dataInvalidated && s.certifiedGeneration = s.generation

theorem released_iff : s.released = true ↔
    s.fence.dataInvalidated = false ∧ s.certifiedGeneration = s.generation := by
  simp only [released, Bool.and_eq_true, Bool.not_eq_true', decide_eq_true_eq]

theorem stage_cases (minTimestamp : BitVec 64) (epochId : BitVec 8) (deadlineNs : ℕ)
    (clock : Option ℕ) :
    (∃ status, status ≠ .ok ∧ s.stage minTimestamp epochId deadlineNs clock = (s, status)) ∨
    s.stage minTimestamp epochId deadlineNs clock =
      ({ s with fence := ⟨true, minTimestamp, true, true, true, epochId⟩ }, .ok) := by
  unfold stage
  split
  · exact .inl ⟨_, by decide, rfl⟩
  · dsimp only
    split
    · rename_i hstatus
      exact .inl ⟨_, hstatus, rfl⟩
    · exact .inr rfl

theorem released_invalidate (h : s.invalidate.released = true) : s.released = true := by
  unfold invalidate at h
  split at h
  · cases h
  · exact h

end RxEpochSync

inductive RxRevoke
  | null
  /-- `bladerf2_rx_epoch_revoke_admission` -/
  | admission
  | failedTransition (status : RetCode)
  /-- `_revoke_rx_fault_and_publish_event`, with the events it publishes -/
  | fault (es : List RxEvent)

def RxRevoke.apply (s : RxNotify) : RxRevoke → RxNotify
  | .null => s
  | .admission => s.epochRevokeAdmission
  | .failedTransition status => s.revokeFailedTransitionAdmission status
  | .fault es => { s.epochRevokeAdmission with events := s.events ++ es }

/-- The part of `bladerf2_rx_epoch_admission_prepare` that needs no lock. -/
def rxAdmissionStatus (e : RxEvent) (deadlineNs : ℕ) (clock : Option ℕ) : RetCode :=
  if e.eventType ≠ .epochValid ∨ e.fpgaState ≠ .dataValid then .inval
  else RxNotify.admissionDeadlineStatus clock deadlineNs

/-! ## The calls -/

structure RxActivation where
  event : RxEvent
  deadlineNs : ℕ
  deriving DecidableEq

inductive RxEpochPc
  | idle
  | staging (minTimestamp : BitVec 64) (epochId : BitVec 8) (deadlineNs : ℕ)
  | activating (a : RxActivation)
  /-- `sync->lock` is held, and its checks have passed -/
  | locked (a : RxActivation)
  /-- the generation lock is held as well -/
  | admitting (a : RxActivation)
  | invalidating
  | fencing
  deriving DecidableEq

namespace RxEpochPc

def activates : RxEpochPc → Bool
  | .activating _ | .locked _ | .admitting _ => true
  | _ => false

end RxEpochPc

structure RxShared where
  sync : RxEpochSync
  board : RxNotify
  deriving DecidableEq

structure RxActivated where
  status : RetCode
  /-- some step of it changed the parser, the generations or the board -/
  changed : Bool
  /-- the generation is not the one that the epoch was staged at -/
  advanced : Bool
  released : Bool
  certified : Bool

namespace RxActivated

structure Upheld (r : RxActivated) : Prop where
  revoked : r.advanced = true → r.released = false ∧ r.certified = false
  failed : r.status ≠ .ok → r.changed = false

end RxActivated

/-- The system; `ι` are the threads. -/
structure RxEpochs (ι : Type*) where
  shared : RxShared
  /-- the holder of `sync->lock` between two steps -/
  syncLock : Option ι
  generationLock : Option ι
  pc : ι → RxEpochPc
  /-- ghost: the generation at which the epoch in the fence was staged -/
  staged : Option ℕ
  /-- ghost: the running activation of the thread has changed something -/
  changed : ι → Bool
  /-- ghost: the finished activations -/
  log : List RxActivated

inductive RxEpochLabel (ι : Type*)
  | stageBegin (i : ι) (minTimestamp : BitVec 64) (epochId : BitVec 8) (deadlineNs : ℕ)
  | stage (i : ι) (clock : Option ℕ)
  | activateBegin (i : ι) (a : RxActivation)
  /-- the checks under `sync->lock`; without a sync stream the whole admission -/
  | activateLock (i : ι) (clock clock₁ clock₂ : Option ℕ) (now : ℕ)
  | activateGeneration (i : ι) (clock : Option ℕ)
  | activateAdmission (i : ι) (clock : Option ℕ) (now : ℕ)
  | invalidate (i : ι) (revoke : RxRevoke)
  | invalidateCheck (i : ι)
  | invalidateFence (i : ι)
  | revokeDelivery (i : ι) (revoke : RxRevoke)
  /-- any section of `rx_async_epoch_lock` that certifies nothing -/
  | board (c : RxNotifySection)

def RxNotifySection.certifies : RxNotifySection → Bool
  | .prepare _ _ _ _ _ => true
  | _ => false

namespace RxEpochs

variable {ι : Type*} [DecidableEq ι] (v : RxEpochs ι)

def advanced : Bool := v.staged.any (· ≠ v.shared.sync.generation)

def setPc (i : ι) (p : RxEpochPc) : RxEpochs ι := { v with pc := Function.update v.pc i p }

def goOn (i : ι) (p : RxEpochPc) : RxEpochs ι := v.setPc i p

def finish (i : ι) (shared : RxShared) (status : RetCode) : RxEpochs ι :=
  let changed := v.changed i || decide (shared ≠ v.shared)
  { v.setPc i .idle with
    shared := shared
    changed := Function.update v.changed i changed
    log := v.log ++ [{
      status := status
      changed := changed
      advanced := v.advanced
      released := changed && shared.sync.released
      certified := changed && shared.board.epochCertified }] }

/-- A revocation: the generation moves, and the board loses its certificate, in
one critical section. -/
def revoke (r : RxRevoke) : RxEpochs ι :=
  { v with shared := ⟨v.shared.sync.advance, r.apply v.shared.board⟩ }

def unlock : RxEpochs ι := { v with syncLock := none, generationLock := none }

def step : RxEpochLabel ι → Option (RxEpochs ι)
  | .stageBegin i minTimestamp epochId deadlineNs =>
      if v.pc i = .idle ∧ v.syncLock = none then
        some (if v.shared.sync.requireMetadata = .ok then
          v.setPc i (.staging minTimestamp epochId deadlineNs) else v)
      else none
  | .stage i clock =>
      match v.pc i with
      | .staging minTimestamp epochId deadlineNs =>
          if !v.shared.sync.initialized then some (v.setPc i .idle)
          else if v.syncLock = none then
            let (sync, status) := v.shared.sync.stage minTimestamp epochId deadlineNs clock
            some { v.setPc i .idle with
              shared := { v.shared with sync := sync }
              staged := if status = .ok then some v.shared.sync.generation else v.staged }
          else none
      | _ => none
  | .activateBegin i a =>
      if v.pc i = .idle ∧ v.syncLock = none then
        let w := { v with changed := Function.update v.changed i false }
        some (if v.shared.sync.requireMetadata = .ok then w.goOn i (.activating a)
          else w.finish i v.shared v.shared.sync.requireMetadata)
      else none
  | .activateLock i clock clock₁ clock₂ now =>
      match v.pc i with
      | .activating a =>
          if !v.shared.sync.initialized then
            let status := RxNotify.admissionDeadlineStatus clock a.deadlineNs
            if status ≠ .ok then some (v.finish i v.shared status)
            else
              let (board, status) :=
                v.shared.board.epochAdmissionPrepare a.event a.deadlineNs clock₁ clock₂ now
              some (v.finish i { v.shared with board := board } status)
          else if v.syncLock = none then
            let status := v.shared.sync.activationStatus a.deadlineNs clock
            some (if status ≠ .ok then v.finish i v.shared status
              else { v.goOn i (.locked a) with syncLock := some i })
          else none
      | _ => none
  | .activateGeneration i clock =>
      match v.pc i with
      | .locked a =>
          if v.generationLock = none then
            let status := rxAdmissionStatus a.event a.deadlineNs clock
            some (if status ≠ .ok then (v.finish i v.shared status).unlock
              else { v.goOn i (.admitting a) with generationLock := some i })
          else none
      | _ => none
  | .activateAdmission i clock now =>
      match v.pc i with
      | .admitting a =>
          let (board, status) := v.shared.board.certify a.event a.deadlineNs clock now
          some (v.finish i
            ⟨if status = .ok then v.shared.sync.commit else v.shared.sync, board⟩ status).unlock
      | _ => none
  | .invalidate i r =>
      if v.pc i = .idle then
        if !v.shared.sync.initialized then
          some { v with shared := { v.shared with board := r.apply v.shared.board } }
        else if v.generationLock = none then some ((v.revoke r).setPc i .invalidating)
        else none
      else none
  | .invalidateCheck i =>
      if v.pc i = .invalidating ∧ v.syncLock = none then
        some (v.setPc i (if v.shared.sync.requireMetadata = .ok then .fencing else .idle))
      else none
  | .invalidateFence i =>
      if v.pc i = .fencing ∧ v.syncLock = none then
        some { v.setPc i .idle with shared := { v.shared with sync := v.shared.sync.invalidate } }
      else none
  | .revokeDelivery i r =>
      if v.pc i = .idle then
        if !v.shared.sync.initialized then
          some { v with shared := { v.shared with board := r.apply v.shared.board } }
        else if v.generationLock = none then some (v.revoke r)
        else none
      else none
  | .board c =>
      if c.admissible ∧ !c.certifies then
        some { v with shared := { v.shared with board := v.shared.board.run c } }
      else none

/-! ## The promise -/

structure Start : Prop where
  idle : ∀ i, v.pc i = .idle
  staged : v.staged = none
  log : v.log = []
  certified : v.shared.sync.certifiedGeneration ≤ v.shared.sync.generation

/-- No revocation is undone: not by an activation, and not in what the parser
lets pass. -/
structure Revoked : Prop where
  activations : ∀ r ∈ v.log, r.Upheld
  released : v.shared.sync.released = true → v.advanced = false

def refuses (a : RxActivation) (clock : Option ℕ) : Bool :=
  RxNotify.admissionDeadlineStatus clock a.deadlineNs ≠ .ok ∨ !v.shared.board.epochContractEnabled

/-- No revocation came between the staging and this admission, or the admission
is refused for another reason. -/
def unmoved : RxEpochLabel ι → Bool
  | .activateAdmission i clock _ =>
      match v.pc i with
      | .admitting a => !v.advanced || v.refuses a clock
      | _ => true
  | _ => true

/-! ## Proof -/

structure Inv : Prop where
  certified : v.shared.sync.certifiedGeneration ≤ v.shared.sync.generation
  unstaged : v.shared.sync.initialized = false → v.staged = none
  unchanged : ∀ i, (v.pc i).activates = true → v.changed i = false
  activations : ∀ r ∈ v.log, r.Upheld
  released : v.shared.sync.released = true → v.advanced = false

variable {v} {w : RxEpochs ι} {i : ι} {a : RxActivation} {p : RxEpochPc} {shared : RxShared}
  {status : RetCode}

omit [DecidableEq ι] in
theorem Start.inv (h : v.Start) : v.Inv where
  certified := h.certified
  unstaged _ := h.staged
  unchanged i hi := by
    rw [h.idle i] at hi
    cases hi
  activations r hr := by
    rw [h.log] at hr
    cases hr
  released _ := by simp [RxEpochs.advanced, h.staged]

theorem Inv.setPc (h : v.Inv) (hp : p.activates = true → v.changed i = false) :
    (v.setPc i p).Inv where
  certified := h.certified
  unstaged := h.unstaged
  unchanged j hj := by
    by_cases hji : j = i
    · subst hji
      exact hp (by simpa [RxEpochs.setPc] using hj)
    · exact h.unchanged j (by simpa [RxEpochs.setPc, Function.update_of_ne hji] using hj)
  activations := h.activations
  released := h.released

omit [DecidableEq ι] in
theorem Inv.share (h : v.Inv) (hgeneration : shared.sync.generation = v.shared.sync.generation)
    (hcertified : shared.sync.certifiedGeneration = v.shared.sync.certifiedGeneration)
    (hinit : shared.sync.initialized = v.shared.sync.initialized)
    (hreleased : shared.sync.released = true → v.shared.sync.released = true) :
    ({ v with shared := shared } : RxEpochs ι).Inv where
  certified := by
    rw [hgeneration, hcertified]
    exact h.certified
  unstaged hno := h.unstaged (hinit.symm.trans hno)
  unchanged := h.unchanged
  activations := h.activations
  released hr := by
    have hold := h.released (hreleased hr)
    unfold RxEpochs.advanced at hold ⊢
    rwa [hgeneration]

omit [DecidableEq ι] in
theorem Inv.revoke (h : v.Inv) (r : RxRevoke) (hinit : v.shared.sync.initialized = true) :
    (v.revoke r).Inv where
  certified := Nat.le_succ_of_le h.certified
  unstaged hno := absurd (hinit.symm.trans hno) (by decide)
  unchanged := h.unchanged
  activations := h.activations
  released hr := by
    have hc := h.certified
    have hmoved : v.shared.sync.certifiedGeneration = v.shared.sync.generation + 1 :=
      ((RxEpochSync.released_iff _).mp hr).2
    omega

theorem Inv.finish (h : v.Inv) (hi : v.changed i = false)
    (hgeneration : shared.sync.generation = v.shared.sync.generation)
    (hcertified : shared.sync.certifiedGeneration ≤ shared.sync.generation)
    (hinit : shared.sync.initialized = v.shared.sync.initialized)
    (hstatus : status ≠ .ok → shared = v.shared)
    (hadvanced : shared ≠ v.shared → v.advanced = false) : (v.finish i shared status).Inv where
  certified := hcertified
  unstaged hno := h.unstaged (hinit.symm.trans hno)
  unchanged j hj := by
    by_cases hji : j = i
    · subst hji
      simp [RxEpochs.finish, RxEpochs.setPc, RxEpochPc.activates] at hj
    · have hj' : (v.pc j).activates = true := by
        simpa [RxEpochs.finish, RxEpochs.setPc, Function.update_of_ne hji] using hj
      simpa [RxEpochs.finish, Function.update_of_ne hji] using h.unchanged j hj'
  activations r hr := by
    rcases List.mem_append.mp hr with hr | hr
    · exact h.activations r hr
    · rw [List.mem_singleton.mp hr]
      refine ⟨fun hadv => ?_, fun hs => ?_⟩
      · have hsame : shared = v.shared := by
          by_contra hne
          exact absurd ((hadvanced hne).symm.trans hadv) (by decide)
        simp [hi, hsame]
      · simp [hi, hstatus hs]
  released hr := by
    have hold : v.advanced = false := by
      by_cases hsame : shared = v.shared
      · exact h.released (hsame ▸ hr)
      · exact hadvanced hsame
    unfold RxEpochs.advanced at hold ⊢
    rwa [← hgeneration] at hold

theorem Inv.refuse (h : v.Inv) (hi : v.changed i = false) : (v.finish i v.shared status).Inv :=
  h.finish hi rfl h.certified rfl (fun _ => rfl) fun hne => absurd rfl hne

omit [DecidableEq ι] in
theorem Inv.locks {s g : Option ι} (h : v.Inv) :
    ({ v with syncLock := s, generationLock := g } : RxEpochs ι).Inv :=
  ⟨h.certified, h.unstaged, h.unchanged, h.activations, h.released⟩

theorem Inv.stage (h : v.Inv) (hinit : v.shared.sync.initialized = true)
    (minTimestamp : BitVec 64) (epochId : BitVec 8) (deadlineNs : ℕ) (clock : Option ℕ) :
    ({ v.setPc i .idle with
      shared := { v.shared with
        sync := (v.shared.sync.stage minTimestamp epochId deadlineNs clock).1 }
      staged := if (v.shared.sync.stage minTimestamp epochId deadlineNs clock).2 = .ok then
        some v.shared.sync.generation else v.staged } : RxEpochs ι).Inv := by
  have hidle : (v.setPc i .idle).Inv := h.setPc fun hp => by cases hp
  rcases v.shared.sync.stage_cases minTimestamp epochId deadlineNs clock with
    ⟨status, hstatus, heq⟩ | heq
  · rw [heq, if_neg hstatus]
    exact hidle
  · rw [heq, if_pos rfl]
    exact {
      certified := h.certified
      unstaged := fun hno => absurd (hinit.symm.trans hno) (by decide)
      unchanged := hidle.unchanged
      activations := h.activations
      released := fun hr => by cases hr }

omit [DecidableEq ι] in
theorem Inv.revoked (h : v.Inv) (r : RxRevoke) :
    ({ v with shared := { v.shared with board := r.apply v.shared.board } } : RxEpochs ι).Inv :=
  h.share rfl rfl rfl id

theorem Inv.admitRead (h : v.Inv) (hi : v.changed i = false) {clock : Option ℕ} (now : ℕ)
    (hok : (!v.advanced || v.refuses a clock) = true) :
    (v.finish i ⟨if (v.shared.board.certify a.event a.deadlineNs clock now).2 = .ok then
        v.shared.sync.commit else v.shared.sync,
      (v.shared.board.certify a.event a.deadlineNs clock now).1⟩
      (v.shared.board.certify a.event a.deadlineNs clock now).2).Inv := by
  by_cases hrefuse : v.refuses a clock = true
  · obtain ⟨status, hstatus, heq⟩ := v.shared.board.certify_refused
      (by simpa [refuses] using hrefuse) a.event now
    rw [heq, if_neg hstatus]
    exact h.refuse hi
  · have hadv : v.advanced = false := by simpa [hrefuse] using hok
    obtain ⟨hdeadline, hon⟩ : RxNotify.admissionDeadlineStatus clock a.deadlineNs = .ok ∧
        v.shared.board.epochContractEnabled = true := by simpa [refuses] using hrefuse
    rw [v.shared.board.certify_accepted hdeadline hon a.event now, if_pos rfl]
    exact h.finish hi rfl le_rfl rfl (fun hne => absurd rfl hne) fun _ => hadv

theorem Inv.step (h : v.Inv) {l : RxEpochLabel ι} (hok : v.unmoved l = true)
    (hs : v.step l = some w) : w.Inv := by
  cases l with
  | stageBegin i minTimestamp epochId deadlineNs =>
      simp only [RxEpochs.step] at hs
      split at hs <;> cases hs
      split
      · exact h.setPc fun hp => by cases hp
      · exact h
  | stage i clock =>
      simp only [RxEpochs.step] at hs
      split at hs
      · split at hs
        · cases hs
          exact h.setPc fun hp => by cases hp
        · rename_i hinit
          split at hs <;> cases hs
          exact h.stage (by simpa using hinit) _ _ _ _
      · cases hs
  | activateBegin i a =>
      have hw : ({ v with changed := Function.update v.changed i false } : RxEpochs ι).Inv := by
        refine ⟨h.certified, h.unstaged, fun j hj => ?_, h.activations, h.released⟩
        by_cases hji : j = i
        · subst hji
          exact Function.update_self _ _ _
        · simpa [Function.update_of_ne hji] using h.unchanged j hj
      have hi : Function.update v.changed i false i = false := Function.update_self _ _ _
      simp only [RxEpochs.step] at hs
      split at hs <;> cases hs
      split
      · exact hw.setPc fun _ => hi
      · exact hw.refuse hi
  | activateLock i clock clock₁ clock₂ now =>
      simp only [RxEpochs.step] at hs
      split at hs
      · rename_i a hpc
        have hi : v.changed i = false := h.unchanged i (by rw [hpc]; rfl)
        split at hs
        · rename_i hinit
          have hstaged : v.staged = none := h.unstaged (by simpa using hinit)
          split at hs <;> cases hs
          · exact h.refuse hi
          · rcases v.shared.board.epochAdmissionPrepare_cases a.event a.deadlineNs clock₁ clock₂
              now with ⟨status, -, heq⟩ | ⟨-, -, heq⟩
            · rw [heq]
              exact h.refuse hi
            · rw [heq]
              exact h.finish hi rfl h.certified rfl (fun hne => absurd rfl hne)
                fun _ => by simp [RxEpochs.advanced, hstaged]
        · split at hs <;> cases hs
          split
          · exact h.refuse hi
          · exact (h.setPc fun _ => hi).locks
      · cases hs
  | activateGeneration i clock =>
      simp only [RxEpochs.step] at hs
      split at hs
      · rename_i a hpc
        have hi : v.changed i = false := h.unchanged i (by rw [hpc]; rfl)
        split at hs <;> cases hs
        split
        · exact (h.refuse hi).locks
        · exact (h.setPc fun _ => hi).locks
      · cases hs
  | activateAdmission i clock now =>
      simp only [RxEpochs.step] at hs
      split at hs
      · rename_i a hpc
        have hi : v.changed i = false := h.unchanged i (by rw [hpc]; rfl)
        cases hs
        refine (h.admitRead hi now ?_).locks
        simpa [unmoved, hpc] using hok
      · cases hs
  | invalidate i r =>
      simp only [RxEpochs.step] at hs
      split at hs
      · split at hs
        · cases hs
          exact h.revoked r
        · rename_i hinit
          split at hs <;> cases hs
          exact (h.revoke r (by simpa using hinit)).setPc fun hp => by cases hp
      · cases hs
  | invalidateCheck i =>
      simp only [RxEpochs.step] at hs
      split at hs <;> cases hs
      exact h.setPc fun hp => by split at hp <;> cases hp
  | invalidateFence i =>
      simp only [RxEpochs.step] at hs
      split at hs <;> cases hs
      have hidle : (v.setPc i .idle).Inv := h.setPc fun hp => by cases hp
      refine hidle.share ?_ ?_ ?_ (RxEpochSync.released_invalidate _)
      all_goals
        unfold RxEpochSync.invalidate
        split <;> rfl
  | revokeDelivery i r =>
      simp only [RxEpochs.step] at hs
      split at hs
      · split at hs
        · cases hs
          exact h.revoked r
        · rename_i hinit
          split at hs <;> cases hs
          exact h.revoke r (by simpa using hinit)
      · cases hs
  | board c =>
      simp only [RxEpochs.step] at hs
      split at hs <;> cases hs
      exact h.share rfl rfl rfl id

/-- In every run in which no accepted admission finds its epoch revoked since
the staging, no activation undoes a revocation, and one that fails leaves the
parser, the certificate and the events as they were. -/
theorem revocation_not_undone (h : v.Start) {ls : List (RxEpochLabel ι)}
    (hrun : Lib.Steps step (fun v l => v.unmoved l = true) v ls w) : w.Revoked := by
  have hinv : w.Inv := hrun.invariant h.inv fun hi hok hs => hi.step hok hs
  exact ⟨hinv.activations, hinv.released⟩

inductive EpochThread
  | transition
  | monitor
  deriving DecidableEq

/-- A sync stream and a board that know no epoch yet, the contract enabled. -/
def fresh : RxEpochs EpochThread where
  shared := ⟨⟨true, true, true, ⟨false, 0, false, false, false, 0⟩, 0, 0⟩,
    { RxNotify.closed with epochContractEnabled := true }⟩
  syncLock := none
  generationLock := none
  pc := fun _ => .idle
  staged := none
  changed := fun _ => false
  log := []

def someActivation : RxActivation where
  event := { RxEvent.zero with
    fpgaTimestamp := 100
    transactionId := 1
    epochId := 5
    fpgaState := .dataValid
    eventType := .epochValid }
  deadlineNs := 50

def stageSome : List (RxEpochLabel EpochThread) :=
  [.stageBegin .transition 100 5 50, .stage .transition (some 10)]

def activateSome : List (RxEpochLabel EpochThread) :=
  [.activateBegin .transition someActivation, .activateLock .transition (some 11) none none 0,
    .activateGeneration .transition (some 12), .activateAdmission .transition (some 13) 14]

theorem fresh_start : fresh.Start := ⟨fun _ => rfl, rfl, rfl, le_rfl⟩

theorem revocation_not_undone_after : ∃ w : RxEpochs EpochThread,
    Lib.Steps step (fun v l => v.unmoved l = true) fresh
      (stageSome ++ activateSome ++ [RxEpochLabel.revokeDelivery .monitor .admission]) w ∧ w.Revoked ∧
        w.log = [⟨.ok, true, false, true, true⟩] ∧ w.shared.board.epochCertified = false := by
  have hexec : (Lib.exec step (fun v l => v.unmoved l = true) fresh
      (stageSome ++ activateSome ++ [RxEpochLabel.revokeDelivery .monitor .admission])).map
        (fun w => (w.log, w.shared.board.epochCertified)) =
          some ([⟨.ok, true, false, true, true⟩], false) := by rfl
  obtain ⟨w, hw, hlog⟩ := Option.map_eq_some_iff.mp hexec
  have hrun := Lib.Steps.of_exec hw
  exact ⟨w, hrun, revocation_not_undone fresh_start hrun, (Prod.mk.inj hlog).1,
    (Prod.mk.inj hlog).2⟩

/-- A fault revokes the epoch between its staging and its activation, which
commits all the same. -/
theorem revocation_undone : ¬ ∀ (v w : RxEpochs EpochThread) (ls : List (RxEpochLabel EpochThread)),
    v.Start → Lib.Steps step (fun _ _ => True) v ls w → w.Revoked := by
  intro hall
  have hexec : (Lib.exec step (fun _ _ => True) fresh
      (stageSome ++ [RxEpochLabel.revokeDelivery .monitor .admission] ++ activateSome)).map (·.log) =
        some [⟨.ok, true, true, true, true⟩] := by rfl
  obtain ⟨w, hw, hlog⟩ := Option.map_eq_some_iff.mp hexec
  have hupheld := (hall fresh w _ fresh_start (.of_exec hw)).activations
    ⟨.ok, true, true, true, true⟩ (by rw [hlog]; exact List.mem_singleton_self _)
  exact absurd (hupheld.revoked rfl).1 (by decide)

end RxEpochs
end BladeRF
