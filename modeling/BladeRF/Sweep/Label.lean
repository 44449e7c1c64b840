/-
# `Sweep.Label` — a label never names the wrong LO

`bladerf2_rx_sweep_label` searches the records by schedule and then checks the
record it lands on against the one behind it.  The search needs sorted input;
the checks do not.  Whatever list of a session's records it is given, a label
it returns is right; on a gap-free sorted list it returns every label that the
recorded schedules allow.  A recorded schedule is not always the requested one:
`bladerf2_rx_sweep_end` moves the schedule of a cancelled request back to the
end of the session.
-/
import BladeRF.Lib.Bisect
import BladeRF.Sweep.Record

namespace BladeRF

open SweepRecord

/-- `bladerf2_rx_sweep_label`: the index written when it returns true.  A read
past the list has no record. -/
def rxSweepLabel (records : Option (List SweepRecord)) (count timestamp : ℕ) : Option ℕ :=
  match records with
  | none => none
  | some records =>
      if count < 2 then none
      else
        -- first record scheduled after timestamp; k is the one before it
        let lo := Lib.bisect
          (fun mid => (records[mid]?).any fun r => r.scheduledTimestamp ≤ timestamp) count 0 count
        if lo = 0 ∨ lo ≥ count then none
        else
          match records[lo - 1]?, records[lo - 1 + 1]? with
          | some r, some r' =>
              if r.status ≠ .success ∨ ¬ r.Certified ∨ timestamp < r.certifiedStart ∨
                  r.scheduledTimestamp > timestamp ∨
                  r'.sequence ≠ (r.sequence + 1) % counterModulus ∨
                  timestamp ≥ r'.scheduledTimestamp then none
              else some (lo - 1)
          | _, _ => none

/-! ## Genuine sessions -/

inductive SweepOutcome
  | success (nios : NiosRetune2Record) (expected : Option (List (BitVec 8)))
      (gainTableRequired : Bool)
  | failed (stage : ℕ)
  | lost
  | cancelled

structure SweepRequest where
  timestamp : ℕ
  niosProfile : ℕ
  frequency : ℕ
  outcome : SweepOutcome

/-- A session: requests numbered from 1 in a 32-bit field, due at strictly
increasing timestamps, closed by `bladerf2_rx_sweep_end`. -/
structure SweepSession where
  requests : List SweepRequest
  refclkHz : ℕ
  settleSamples : ℕ
  /-- The timestamp read after the queue clear, 0 when it could not be read. -/
  endTimestamp : ℕ
  increasing : requests.Pairwise fun a b => a.timestamp < b.timestamp
  timestamps : ∀ r ∈ requests, r.timestamp < timestampModulus
  numbered : requests.length < counterModulus

namespace SweepSession

variable (s : SweepSession)

/-- `sweep_record_from_ledger` for the request with index `i`. -/
def base (i : ℕ) (req : SweepRequest) (status : SweepStatus) : SweepRecord where
  sequence := i + 1
  status := status
  flags := 0
  failureStage := 0
  gainTable := 0
  niosProfile := req.niosProfile
  frequency := req.frequency
  readbackFrequency := 0
  scheduledTimestamp := req.timestamp
  executedTimestamp := 0
  certifiedStart := 0

/-- The record of the request with index `i`; a cancelled request due after the
end of the session is recorded at the end. -/
def record (i : ℕ) (req : SweepRequest) : SweepRecord :=
  match req.outcome with
  | .success nios expected gt =>
      ofNiosSuccess (base i req .success) nios expected s.refclkHz s.settleSamples gt
  | .failed stage => { base i req .failed with failureStage := stage }
  | .lost => base i req .lost
  | .cancelled =>
      { base i req .cancelled with
        scheduledTimestamp :=
          if req.timestamp > s.endTimestamp then s.endTimestamp else req.timestamp }

def endRecord : SweepRecord where
  sequence := (s.requests.length + 1) % counterModulus
  status := .ended
  flags := 0
  failureStage := 0
  gainTable := 0
  niosProfile := 0
  frequency := 0
  readbackFrequency := 0
  scheduledTimestamp := s.endTimestamp
  executedTimestamp := 0
  certifiedStart := 0

def records : List SweepRecord := s.requests.mapIdx s.record ++ [s.endRecord]

/-- `t` lies between the schedule of request `i` and that of the next. -/
def InTuningInterval (i t : ℕ) : Prop :=
  ∃ req, s.requests[i]? = some req ∧ req.timestamp ≤ t ∧
    ∀ next, s.requests[i + 1]? = some next → t < next.timestamp

variable {s}

theorem mem_records {r : SweepRecord} (h : r ∈ s.records) :
    (∃ i req, s.requests[i]? = some req ∧ r = s.record i req) ∨ r = s.endRecord := by
  rcases List.mem_append.mp h with h | h
  · obtain ⟨i, hi, rfl⟩ := List.mem_mapIdx.mp h
    exact .inl ⟨i, s.requests[i], List.getElem?_eq_getElem hi, rfl⟩
  · exact .inr (List.mem_singleton.mp h)

@[simp] theorem record_sequence (i : ℕ) (req : SweepRequest) :
    (s.record i req).sequence = i + 1 := by
  unfold record
  split <;> rfl

theorem record_scheduledTimestamp_le (i : ℕ) (req : SweepRequest) :
    (s.record i req).scheduledTimestamp ≤ req.timestamp := by
  unfold record
  split
  · exact le_rfl
  · exact le_rfl
  · exact le_rfl
  · dsimp only
    split_ifs <;> omega

theorem record_success {i : ℕ} {req : SweepRequest} (h : (s.record i req).status = .success) :
    (s.record i req).scheduledTimestamp = req.timestamp ∧
      ((s.record i req).Certified → req.timestamp ≤ (s.record i req).certifiedStart) := by
  unfold record at h ⊢
  split at h
  · exact ⟨rfl, fun hc => ofNiosSuccess_certified _ _ _ _ _ _ hc⟩
  · cases h
  · cases h
  · cases h

theorem requests_lt {i j : ℕ} {a b : SweepRequest} (hi : s.requests[i]? = some a)
    (hj : s.requests[j]? = some b) (hij : i < j) : a.timestamp < b.timestamp := by
  obtain ⟨hi', rfl⟩ := List.getElem?_eq_some_iff.mp hi
  obtain ⟨hj', rfl⟩ := List.getElem?_eq_some_iff.mp hj
  exact List.pairwise_iff_getElem.mp s.increasing i j hi' hj' hij

theorem index_lt {i : ℕ} {req : SweepRequest} (h : s.requests[i]? = some req) :
    i < s.requests.length :=
  (List.getElem?_eq_some_iff.mp h).1

theorem follows_le {i : ℕ} {next : SweepRequest} {r : SweepRecord} (hr : r ∈ s.records)
    (hseq : r.sequence = (i + 1 + 1) % counterModulus) (hnext : s.requests[i + 1]? = some next) :
    r.scheduledTimestamp ≤ next.timestamp := by
  have hlt := index_lt hnext
  have hnum := s.numbered
  have hmod : (i + 1 + 1) % counterModulus = i + 1 + 1 := Nat.mod_eq_of_lt (by omega)
  rcases mem_records hr with ⟨j, req', hj, rfl⟩ | rfl
  · rw [record_sequence, hmod] at hseq
    obtain rfl : j = i + 1 := by omega
    rw [hnext] at hj
    obtain rfl : next = req' := by simpa using hj
    exact record_scheduledTimestamp_le _ _
  · exfalso
    have hend : s.endRecord.sequence = (s.requests.length + 1) % counterModulus := rfl
    rw [hend, hmod] at hseq
    rcases Nat.lt_or_ge (s.requests.length + 1) counterModulus with h | h
    · rw [Nat.mod_eq_of_lt h] at hseq
      omega
    · rw [show s.requests.length + 1 = counterModulus by omega, Nat.mod_self] at hseq
      omega

end SweepSession

/-! ## Soundness -/

/-- The records `r` and `r'` certify the timestamp. -/
structure LabelPair (r r' : SweepRecord) (t : ℕ) : Prop where
  success : r.status = .success
  certified : r.Certified
  started : r.certifiedStart ≤ t
  scheduled : r.scheduledTimestamp ≤ t
  follows : r'.sequence = (r.sequence + 1) % counterModulus
  before : t < r'.scheduledTimestamp

theorem labelPair_of_label {l : List SweepRecord} {count t k : ℕ}
    (h : rxSweepLabel (some l) count t = some k) :
    ∃ r r', l[k]? = some r ∧ l[k + 1]? = some r' ∧ LabelPair r r' t := by
  unfold rxSweepLabel at h
  dsimp only at h
  split_ifs at h with hcount hlo
  split at h
  · rename_i r r' hr hr'
    split_ifs at h with hbad
    obtain rfl := Option.some.inj h
    push Not at hbad
    obtain ⟨h1, h2, h3, h4, h5, h6⟩ := hbad
    exact ⟨r, r', hr, hr', h1, h2, h3, h4, h5, h6⟩
  · cases h

/-- What a label with index `k` promises of the session. -/
def LabelSound (s : SweepSession) (l : List SweepRecord) (t k : ℕ) : Prop :=
  ∃ i req, s.requests[i]? = some req ∧ l[k]? = some (s.record i req) ∧
    (s.record i req).status = .success ∧ (s.record i req).Certified ∧
    (s.record i req).certifiedStart ≤ t ∧
    (∀ next, s.requests[i + 1]? = some next → t < next.timestamp) ∧
    ∀ j, j ≠ i → ¬ s.InTuningInterval j t

theorem labelSound_of_pair {s : SweepSession} {l : List SweepRecord} {k t : ℕ}
    {r r' : SweepRecord} (hl : ∀ x ∈ l, x ∈ s.records) (hk : l[k]? = some r)
    (hk' : l[k + 1]? = some r') (h : LabelPair r r' t) : LabelSound s l t k := by
  rcases SweepSession.mem_records (hl _ (List.mem_of_getElem? hk)) with ⟨i, req, hi, rfl⟩ | rfl
  · have hfollows := h.follows
    rw [SweepSession.record_sequence] at hfollows
    have hnext : ∀ next, s.requests[i + 1]? = some next → t < next.timestamp := fun next hn =>
      lt_of_lt_of_le h.before
        (SweepSession.follows_le (hl _ (List.mem_of_getElem? hk')) hfollows hn)
    refine ⟨i, req, hi, hk, h.success, h.certified, h.started, hnext, ?_⟩
    rintro j hj ⟨reqj, hjreq, hjle, hjnext⟩
    have hreq : req.timestamp ≤ t := by
      rw [← (SweepSession.record_success h.success).1]
      exact h.scheduled
    rcases Nat.lt_or_gt_of_ne hj with hlt | hgt
    · -- an earlier request: the next one is due at or before request i
      have hlen := SweepSession.index_lt hi
      obtain ⟨next, hn⟩ : ∃ next, s.requests[j + 1]? = some next :=
        ⟨_, List.getElem?_eq_getElem (by omega)⟩
      have hlate := hjnext next hn
      rcases Nat.lt_or_ge (j + 1) i with h1 | h1
      · have := SweepSession.requests_lt hn hi h1
        omega
      · obtain rfl : j + 1 = i := by omega
        rw [hi] at hn
        obtain rfl : req = next := by simpa using hn
        omega
    · -- a later request is not due before request i + 1
      have hlen := SweepSession.index_lt hjreq
      obtain ⟨next, hn⟩ : ∃ next, s.requests[i + 1]? = some next :=
        ⟨_, List.getElem?_eq_getElem (by omega)⟩
      have hlate := hnext next hn
      rcases Nat.lt_or_ge (i + 1) j with h1 | h1
      · have := SweepSession.requests_lt hn hjreq h1
        omega
      · obtain rfl : j = i + 1 := by omega
        rw [hn] at hjreq
        obtain rfl : next = reqj := by simpa using hjreq
        omega
  · have hst := h.success
    cases hst

/-! ## Completeness -/

/-- In sequence order without gaps, at nondecreasing schedule timestamps. -/
structure GapFree (l : List SweepRecord) : Prop where
  sequence : ∀ i a b, l[i]? = some a → l[i + 1]? = some b →
    b.sequence = (a.sequence + 1) % counterModulus
  schedule : ∀ i a b, l[i]? = some a → l[i + 1]? = some b →
    a.scheduledTimestamp ≤ b.scheduledTimestamp

theorem GapFree.schedule_le {l : List SweepRecord} (h : GapFree l) {i j : ℕ} {a b : SweepRecord}
    (hi : l[i]? = some a) (hj : l[j]? = some b) (hij : i ≤ j) :
    a.scheduledTimestamp ≤ b.scheduledTimestamp := by
  induction j, hij using Nat.le_induction generalizing b with
  | base =>
      rw [hi] at hj
      obtain rfl : a = b := by simpa using hj
      exact le_rfl
  | succ j hle ih =>
      obtain ⟨hlt, rfl⟩ := List.getElem?_eq_some_iff.mp hj
      have hprev : l[j]? = some l[j] := List.getElem?_eq_getElem (by omega)
      exact (ih hprev).trans (h.schedule j _ _ hprev hj)

theorem rxSweepLabel_of_pair {l : List SweepRecord} {k t : ℕ} {r r' : SweepRecord}
    (h : GapFree l) (hk : l[k]? = some r) (hk' : l[k + 1]? = some r') (hpair : LabelPair r r' t) :
    rxSweepLabel (some l) l.length t = some k := by
  have hlen : k + 1 < l.length := (List.getElem?_eq_some_iff.mp hk').1
  have hsearch : Lib.bisect
      (fun mid => (l[mid]?).any fun r => decide (r.scheduledTimestamp ≤ t)) l.length 0 l.length =
        k + 1 := by
    refine Lib.bisect_eq ?_ (by omega) (by omega) (by omega) ?_
    · intro i hi
      have hget : l[i]? = some l[i] := List.getElem?_eq_getElem (by omega)
      have hle := h.schedule_le hget hk (by omega)
      have hsch := hpair.scheduled
      simp only [hget, Option.any_some, decide_eq_true_eq]
      omega
    · intro i hi hilt
      have hget : l[i]? = some l[i] := List.getElem?_eq_getElem (by omega)
      have hle := h.schedule_le hk' hget hi
      have hbef := hpair.before
      simp only [hget, Option.any_some, decide_eq_false_iff_not]
      omega
  unfold rxSweepLabel
  dsimp only
  rw [hsearch, if_neg (by omega), if_neg (by omega), Nat.add_sub_cancel, hk, hk']
  dsimp only
  rw [if_neg]
  push Not
  exact ⟨hpair.success, hpair.certified, hpair.started, hpair.scheduled, hpair.follows,
    hpair.before⟩

/-! ## The label of a session's records -/

/-- Every label of a list of a session's records is right, and on a gap-free
sorted list the label `k` is returned for every certified record `k` and sample
between its certified start and the recorded schedule of record `k + 1`. -/
theorem rx_sweep_label_sound (s : SweepSession) (l : List SweepRecord)
    (hl : ∀ x ∈ l, x ∈ s.records) :
    (∀ count t k, rxSweepLabel (some l) count t = some k → LabelSound s l t k) ∧
    (GapFree l → ∀ t k r r', l[k]? = some r → l[k + 1]? = some r' →
      r.status = .success → r.Certified → r.certifiedStart ≤ t → t < r'.scheduledTimestamp →
      rxSweepLabel (some l) l.length t = some k) := by
  constructor
  · intro count t k h
    obtain ⟨r, r', hk, hk', hpair⟩ := labelPair_of_label h
    exact labelSound_of_pair hl hk hk' hpair
  · intro hgap t k r r' hk hk' hst hc hstart hbefore
    refine rxSweepLabel_of_pair hgap hk hk' ⟨hst, hc, hstart, ?_, hgap.sequence k r r' hk hk',
      hbefore⟩
    rcases SweepSession.mem_records (hl _ (List.mem_of_getElem? hk)) with ⟨i, req, _, rfl⟩ | rfl
    · obtain ⟨hsch, hle⟩ := SweepSession.record_success hst
      rw [hsch]
      exact (hle hc).trans hstart
    · cases hst

/-- A NIOS record that earns a certificate 10 samples after the schedule. -/
def certifiedNios : NiosRetune2Record where
  requestToken := 1
  niosProfile := 0
  executionFlags := 0x03
  sessionGenerationLow := 0
  failureStage := 0
  executedDelta := 10
  readbackFrequencyHz := 2400000000
  synth := none

/-- Two requests, due at 100 and 1000; the session ends at 500 with the second
still queued. -/
def cutSession : SweepSession where
  requests :=
    [⟨100, 0, 2400000000, .success certifiedNios none false⟩, ⟨1000, 1, 2500000000, .cancelled⟩]
  refclkHz := 0
  settleSamples := 5
  endTimestamp := 500
  increasing := by simp
  timestamps := by simp [timestampModulus]
  numbered := by simp [counterModulus]

theorem rx_sweep_label_sound_cut :
    (∀ count t k, rxSweepLabel (some cutSession.records) count t = some k →
      LabelSound cutSession cutSession.records t k) ∧
    rxSweepLabel (some cutSession.records) 3 200 = some 0 := by
  have h := rx_sweep_label_sound cutSession cutSession.records fun _ hx => hx
  refine ⟨h.1, h.2 ⟨?_, ?_⟩ 200 0 _ _ rfl rfl rfl (by decide) (by decide) (by decide)⟩
  · intro i a b ha hb
    match i with
    | 0 | 1 => cases ha; cases hb; rfl
    | i + 2 => cases hb
  · intro i a b ha hb
    match i with
    | 0 | 1 => cases ha; cases hb; decide
    | i + 2 => cases hb

/-- The whole session is gap-free and sorted, record 0 is certified from 115 on
and request 2 is due at 1000; the sample at 600 gets no label, because the
record of the cancelled request ends the range at 500. -/
theorem rx_sweep_label_cut_unlabelled :
    GapFree cutSession.records ∧
    (∃ r, cutSession.records[0]? = some r ∧ r.status = .success ∧ r.Certified ∧
      r.certifiedStart ≤ 600) ∧
    (∀ next, cutSession.requests[1]? = some next → 600 < next.timestamp) ∧
    rxSweepLabel (some cutSession.records) cutSession.records.length 600 ≠ some 0 := by
  refine ⟨⟨?_, ?_⟩, ⟨_, rfl, rfl, by decide, by decide⟩, ?_, by decide⟩
  · intro i a b ha hb
    match i with
    | 0 | 1 => cases ha; cases hb; rfl
    | i + 2 => cases hb
  · intro i a b ha hb
    match i with
    | 0 | 1 => cases ha; cases hb; decide
    | i + 2 => cases hb
  · intro next h
    cases h
    decide

end BladeRF
