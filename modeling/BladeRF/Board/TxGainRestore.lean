/-
# `Board.TxGainRestore` — what an unmute restores

A mute saves the attenuation that it reads back from the RFIC, unless that is the
mute's own; then it keeps what was saved before.  A gain set meanwhile goes to the
saved value, a gain set before goes to the RFIC only and leaves the saved value
behind.  So the least gain, and a mute that fails, bring an old gain back.
-/
import BladeRF.Board.RficEnable

namespace BladeRF

/-- What becomes of `ad9361_set_tx_attenuation`: a write that fails may have taken effect. -/
inductive AttenWrite where
  | done
  | failed
  | lost
  deriving DecidableEq

/-- A TX channel, and the attenuation of the last gain that was accepted for it. -/
structure TxGain where
  mute : TxMute
  requested : ℕ

inductive TxGainCall where
  | txmuteSet (state read : Bool) (write : AttenWrite)
  /-- the gain less its offset, if there is an offset -/
  | setGain (val : Option ℤ) (write : AttenWrite)

def AttenWrite.register (w : AttenWrite) (old new : ℕ) : ℕ := if w = .failed then old else new

/-- `clamp_to_range` of the "dsa" range, in whole dB. -/
def clampDsa (value : ℤ) : ℤ :=
  let value := if 1000 * value < -89750 then -90 else value
  if 0 < 1000 * value then 0 else value

/-- The attenuation that `_rfic_host_set_gain` saves. -/
def savedAtten (val : ℤ) : ℕ := if val < -89 then 89750 else (-(1000 * clampDsa val)).toNat

/-- The attenuation that `_rfic_host_set_gain_stage` writes. -/
def stageAtten (gain : ℤ) : ℕ :=
  (-(if gain < -89 then -89750 else 1000 * clampDsa gain)).toNat

theorem stageAtten_eq (val : ℤ) : stageAtten val = savedAtten val := by
  unfold stageAtten savedAtten
  split <;> rfl

namespace TxMute

variable (m : TxMute)

/-- `txmute_set` on an RFIC that may fail: it returns 0, and the channel. -/
def trySet (state read : Bool) (write : AttenWrite) : Bool × TxMute :=
  if m.mutedValid ∧ m.muted = state then (true, m)
  else if (state || !m.attenCachedValid) && !read then (false, m)
  else
    match m.set state with
    | none => (false, m)
    | some m' =>
        if write = .done then (true, m')
        else (false, { m with mutedValid := false, atten := write.register m.atten m'.atten })

/-- `_rfic_host_set_gain` of a TX channel. -/
def setGain (val : Option ℤ) (write : AttenWrite) : Bool × TxMute :=
  match val with
  | none => (false, m)
  | some val =>
      if !m.mutedValid then (false, m)
      else if m.muted then (true, { m with attenCached := savedAtten val, attenCachedValid := true })
      else (write = .done, { m with atten := write.register m.atten (stageAtten val) })

theorem trySet_cases (state read : Bool) (write : AttenWrite) :
    (m.mutedValid ∧ m.muted = state) ∧ m.trySet state read write = (true, m) ∨
      m.trySet state read write = (false, m) ∨
      ∃ m', m.set state = some m' ∧ ¬ (m.mutedValid ∧ m.muted = state) ∧ (state → read) ∧
        m.trySet state read write =
          if write = .done then (true, m')
          else (false, { m with mutedValid := false, atten := write.register m.atten m'.atten }) := by
  unfold trySet
  split
  · rename_i hsame
    exact .inl ⟨hsame, rfl⟩
  rename_i hsame
  split
  · exact .inr (.inl rfl)
  rename_i hread
  cases hset : m.set state with
  | none => exact .inr (.inl rfl)
  | some m' => exact .inr (.inr ⟨m', rfl, hsame, fun h => by simpa [h] using hread, rfl⟩)

theorem trySet_done (state : Bool) :
    m.trySet state true .done = ((m.set state).isSome, (m.set state).getD m) := by
  unfold trySet
  split
  · rename_i hsame
    simp [TxMute.set, hsame]
  · cases m.set state <;> simp

/-- The attenuation `requested` is in the register, or saved where the channel is
muted; while the mute is unknown, the register may be muted already. -/
def Holds (requested : ℕ) : Prop :=
  if m.mutedValid then
    if m.muted then m.atten = mutedAtten ∧ m.attenCachedValid ∧ m.attenCached = requested
    else m.atten = requested
  else
    (m.atten = requested ∨ m.atten = mutedAtten) ∧
      (m.attenCachedValid → m.attenCached = requested)

variable {m} {requested : ℕ}

theorem set_saves {state : Bool} {m' : TxMute} (hset : m.set state = some m')
    (hne : ¬ (m.mutedValid ∧ m.muted = state)) :
    m'.mutedValid ∧ m'.muted = state ∧ m'.attenCachedValid ∧
      (m'.atten = if state then mutedAtten else m'.attenCached) ∧
      (m'.attenCached = m.attenCached ∧ m.attenCachedValid ∧ (state → m.atten = mutedAtten) ∨
        m'.attenCached = m.atten ∧ m.atten ≠ mutedAtten ∧ (state ∨ m.attenCachedValid = false)) := by
  unfold TxMute.set at hset
  split_ifs at hset with hstate hatten hvalid hvalid hatten <;> obtain rfl := Option.some.inj hset
  · simp_all
  · simp_all
  · simp_all
  · simp_all

theorem Holds.register (h : m.Holds requested) : m.atten = requested ∨ m.atten = mutedAtten := by
  unfold Holds at h
  split_ifs at h with hvalid hmuted
  · exact .inr h.1
  · exact .inl h
  · exact h.1

theorem Holds.saved (h : m.Holds requested) (hopen : m.mutedValid → m.muted) :
    m.attenCachedValid → m.attenCached = requested := by
  unfold Holds at h
  split_ifs at h with hvalid hmuted
  · exact fun _ => h.2.2
  · exact absurd (hopen hvalid) hmuted
  · exact h.2

theorem Holds.unmute (h : m.Holds requested) {m' : TxMute} (hset : m.set false = some m')
    (hne : ¬ (m.mutedValid ∧ m.muted = false)) : m'.atten = requested := by
  obtain ⟨_, _, _, hatten, ⟨hsaved, hc, _⟩ | ⟨hsaved, hopen, _⟩⟩ := set_saves hset hne
  · exact hatten.trans (hsaved.trans (h.saved (fun hv => by simpa [hv] using hne) hc))
  · exact hatten.trans (hsaved.trans (h.register.resolve_right hopen))

end TxMute

namespace TxGain

variable (s : TxGain)

def call : TxGainCall → Bool × TxGain
  | .txmuteSet state read write =>
      let r := s.mute.trySet state read write
      (r.1, { s with mute := r.2 })
  | .setGain val write =>
      let r := s.mute.setGain val write
      (r.1, ⟨r.2, if r.1 then (val.map savedAtten).getD s.requested else s.requested⟩)

def step (c : TxGainCall) : Option TxGain := some (s.call c).2

/-- A mute finds nothing saved or the present attenuation, or it saves that one; and
no gain is written by a call that fails. -/
def Keeps : TxGainCall → Prop
  | .txmuteSet true read write =>
      s.mute.mutedValid → s.mute.muted = false → read = true → s.mute.attenCachedValid →
        s.mute.attenCached = s.mute.atten ∨ s.mute.atten ≠ mutedAtten ∧ write = .done
  | .txmuteSet false _ _ => True
  | .setGain val write =>
      s.mute.mutedValid → s.mute.muted = false → write = .lost →
        ∀ v ∈ val, savedAtten v = s.mute.atten

variable {s}

theorem holds_txmuteSet {state read : Bool} {write : AttenWrite} (h : s.mute.Holds s.requested)
    (hkeep : s.Keeps (.txmuteSet state read write)) :
    (s.mute.trySet state read write).2.Holds s.requested := by
  obtain ⟨-, heq⟩ | heq | ⟨m', hset, hsame, hread, heq⟩ := s.mute.trySet_cases state read write
  · rwa [heq]
  · rwa [heq]
  rw [heq]
  obtain ⟨hvalid, hmuted, hcached, hatten, hsaved⟩ := TxMute.set_saves hset hsame
  -- what was saved before is the gain requested, or it is replaced
  have hold (hc : s.mute.attenCachedValid) :
      state ∧ write = .done ∧ s.mute.atten ≠ mutedAtten ∨ s.mute.attenCached = s.requested := by
    by_cases hopen : s.mute.mutedValid ∧ s.mute.muted = false
    · have hreq : s.mute.atten = s.requested := by simpa [TxMute.Holds, hopen] using h
      have hstate : state = true := by
        by_contra hstate
        exact hsame ⟨hopen.1, by simp [hopen.2, hstate]⟩
      subst hstate
      rcases hkeep hopen.1 hopen.2 (hread rfl) hc with hsaved | ⟨hatten, hdone⟩
      · exact .inr (hsaved.trans hreq)
      · exact .inl ⟨rfl, hdone, hatten⟩
    · exact .inr (h.saved (fun hv => by simpa [hv] using hopen) hc)
  split
  · rename_i hdone
    cases state with
    | true =>
        have hnew : m'.attenCached = s.requested := by
          rcases hsaved with ⟨hsaved, hc, hmute⟩ | ⟨hsaved, hopen, _⟩
          · exact hsaved.trans ((hold hc).resolve_left fun ⟨_, _, hne⟩ => hne (hmute rfl))
          · exact hsaved.trans (h.register.resolve_right hopen)
        simp_all [TxMute.Holds]
    | false =>
        have hnew := h.unmute hset hsame
        simp_all [TxMute.Holds]
  · rename_i hdone
    refine ⟨?_, fun hc => (hold hc).resolve_left fun ⟨_, hw, _⟩ => hdone hw⟩
    dsimp only [AttenWrite.register]
    split
    · exact h.register
    · cases state with
      | true => exact .inr hatten
      | false => exact .inl (h.unmute hset hsame)

theorem holds_setGain {val : Option ℤ} {write : AttenWrite} (h : s.mute.Holds s.requested)
    (hkeep : s.Keeps (.setGain val write)) :
    (s.call (.setGain val write)).2.mute.Holds (s.call (.setGain val write)).2.requested := by
  cases val with
  | none => exact h
  | some val =>
      dsimp only [call, TxMute.setGain]
      split
      · exact h
      · rename_i hvalid
        split
        · rename_i hmuted
          simp_all [TxMute.Holds]
        · rename_i hmuted
          have hkeep := hkeep (by simpa using hvalid) (by simpa using hmuted)
          cases write <;> simp_all [TxMute.Holds, AttenWrite.register, stageAtten_eq]

theorem holds_step {t : TxGain} {c : TxGainCall} (h : s.mute.Holds s.requested)
    (hkeep : s.Keeps c) (hs : s.step c = some t) : t.mute.Holds t.requested := by
  obtain rfl := Option.some.inj hs
  cases c with
  | txmuteSet state read write => exact holds_txmuteSet h hkeep
  | setGain val write => exact holds_setGain h hkeep

theorem trySet_atten {state read : Bool} {write : AttenWrite} (h : s.mute.Holds s.requested)
    (hret : (s.mute.trySet state read write).1 = true) :
    (s.mute.trySet state read write).2.atten = if state then mutedAtten else s.requested := by
  obtain ⟨hsame, heq⟩ | heq | ⟨m', hset, hsame, -, heq⟩ := s.mute.trySet_cases state read write
  · rw [heq]
    cases state <;> simp_all [TxMute.Holds]
  · rw [heq] at hret
    exact absurd hret Bool.false_ne_true
  rw [heq] at hret ⊢
  split at hret
  · rename_i hdone
    rw [if_pos hdone]
    cases state with
    | true => exact (TxMute.set_saves hset hsame).2.2.2.1
    | false => exact h.unmute hset hsame
  · exact absurd hret Bool.false_ne_true

/-- In every run in which the calls keep the saved attenuation, an unmute that returns 0
leaves the attenuation of the last accepted gain, and a mute its own. -/
theorem txmuteSet_restores {cs : List TxGainCall} {t : TxGain}
    (hrun : Lib.Steps step Keeps s cs t) (hstart : s.mute.Holds s.requested)
    (state read : Bool) (write : AttenWrite) :
    let r := t.call (.txmuteSet state read write)
    r.1 = true → r.2.mute.atten = if state then mutedAtten else t.requested :=
  trySet_atten (hrun.invariant (P := fun s => s.mute.Holds s.requested) hstart holds_step)

def fresh : TxGain := ⟨⟨false, false, 0, false, 10000⟩, 10000⟩

theorem txmuteSet_restores_fresh :
    let r := (fresh.call (.txmuteSet true true .done)).2.call (.txmuteSet false true .done)
    r.1 = true → r.2.mute.atten = 10000 := by
  have hstart : Lib.Steps step Keeps fresh [] fresh := .nil
  have hrun := hstart.snoc (l := .txmuteSet true true .done) (by simp [Keeps, fresh]) rfl
  exact txmuteSet_restores hrun ⟨.inl rfl, fun h => nomatch h⟩ false true .done

/-- Muted at 10000 and unmuted, set to the least gain, muted: the unmute brings 10000 back. -/
theorem txmuteSet_least_gain :
    ¬ ∀ cs t, Lib.Steps step (fun _ _ => True) fresh cs t →
      let r := t.call (.txmuteSet false true .done)
      r.1 = true → r.2.mute.atten = t.requested := by
  intro h
  have hstart : Lib.Steps step (fun _ _ => True) fresh [] fresh := .nil
  have hmuted := hstart.snoc (l := .txmuteSet true true .done) trivial rfl
  have hopen := hmuted.snoc (l := .txmuteSet false true .done) trivial rfl
  have hleast := hopen.snoc (l := .setGain (some (-90)) .done) trivial rfl
  have hagain := hleast.snoc (l := .txmuteSet true true .done) trivial rfl
  exact absurd (h _ _ hagain (by decide)) (by decide)

end TxGain

end BladeRF
