/-
# `Streaming.EpochAdmission` — two ways to let a message in

An async transfer is judged in one piece by `metadata_rx_buffer_epoch_contiguous`;
`sync_rx` judges header by header with `metadata_rx_epoch_disposition`, from the
timestamp it expects next.  Both look at the tag, at the boundary and at the
continuity, but the header-level decision also asks whether the timestamp it
expects is at or after the boundary.  The two agree as long as no expected
timestamp leaves the half-range in which that comparison means anything.
-/
import BladeRF.Streaming.RxMeta

namespace BladeRF

open MetadataScan

/-- The message is not let in: it is dropped, skipped, or kept for the next call
to drop, where the call has samples. -/
def MetadataRxEpochDisposition.refuses : MetadataRxEpochDisposition → Bool
  | .dropMessage | .skipTimestampPrefix | .returnValidPrefix => true
  | .accept | .discontinuity => false

/-- The dispositions of the messages of a transfer, as `sync_rx` takes them with
a boundary and an epoch filter: `copied` says which of them find samples in the
call already, and each message moves the timestamp expected next. -/
def epochDispositions (expectedEpochId : BitVec 8) (minimumTimestamp timestampStep : BitVec 64) :
    (ℕ → Bool) → Bool → BitVec 64 → List MetaHeader → List MetadataRxEpochDisposition
  | _, _, _, [] => []
  | copied, known, expected, header :: rest =>
      metadataRxEpochDisposition true true (metadataRxEpochMatches header expectedEpochId)
          header.timestamp expected minimumTimestamp known (copied 0) ::
        epochDispositions expectedEpochId minimumTimestamp timestampStep (fun i => copied (i + 1))
          true (header.timestamp + timestampStep) rest

section

variable {epochId : BitVec 8} {minimum timestampStep expected : BitVec 64} {known copied : Bool}
  {header : MetaHeader}

theorem disposition_refuses_iff
    (hknown : known = true → metadataTimestampAtOrAfter expected minimum = true) :
    (metadataRxEpochDisposition true true (metadataRxEpochMatches header epochId)
      header.timestamp expected minimum known copied).refuses =
        !metadataRxMessageAdmissible epochId minimum header := by
  unfold metadataRxEpochDisposition metadataRxMessageAdmissible
  cases metadataRxEpochMatches header epochId with
  | false => cases copied <;> rfl
  | true =>
      cases metadataTimestampAtOrAfter header.timestamp minimum with
      | false => rfl
      | true =>
          cases known with
          | false => rfl
          | true =>
              rw [hknown rfl]
              simp only [Bool.and_true, Bool.not_true, Bool.and_false, Bool.false_eq_true,
                if_false, Bool.or_false, Bool.true_and]
              split <;> rfl

theorem disposition_eq_accept_iff :
    metadataRxEpochDisposition true true (metadataRxEpochMatches header epochId)
        header.timestamp expected minimum known copied = .accept ↔
      metadataRxMessageAdmissible epochId minimum header = true ∧
        (known = true → header.timestamp = expected) := by
  constructor
  · intro h
    obtain ⟨hmatches, hafter, hnext⟩ := disposition_accept h
    exact ⟨Bool.and_eq_true_iff.mpr ⟨hmatches rfl rfl, hafter rfl⟩, hnext⟩
  · rintro ⟨hadmissible, hnext⟩
    obtain ⟨hmatches, hafter⟩ := Bool.and_eq_true_iff.mp hadmissible
    unfold metadataRxEpochDisposition
    cases known with
    | false => simp [hmatches, hafter]
    | true => simp [hmatches, hnext rfl ▸ hafter, hnext rfl]

end

section

variable {epochId : BitVec 8} {minimum timestampStep : BitVec 64}

theorem scan_discontinuity (messages : List MetaHeader) (known : Bool) (expected : BitVec 64)
    (gap : Bool) :
    (messages.foldl (message timestampStep) ⟨known, expected, gap⟩).discontinuity =
      (gap || (messages.foldl (message timestampStep)
        ⟨known, expected, false⟩).discontinuity) := by
  induction messages generalizing known expected gap with
  | nil => exact (Bool.or_false gap).symm
  | cons header rest ih =>
      rw [List.foldl_cons, List.foldl_cons, message, message, ih]
      rw [ih true _ (false || _), Bool.false_or, Bool.or_assoc]

variable {messages : List MetaHeader}

theorem scan_expected {scan : MetadataScan} (h : messages ≠ []) :
    some (messages.foldl (message timestampStep) scan).expected =
      nextTimestamp timestampStep messages := by
  obtain ⟨front, last, rfl⟩ := (List.eq_nil_or_concat messages).resolve_left h
  rw [List.concat_eq_append, List.foldl_append]
  simp [nextTimestamp, message]

theorem epochDispositions_accept_iff {copied : ℕ → Bool} {known : Bool} {expected : BitVec 64} :
    (∀ d ∈ epochDispositions epochId minimum timestampStep copied known expected messages,
        d = .accept) ↔
      messages.all (metadataRxMessageAdmissible epochId minimum) = true ∧
        (messages.foldl (message timestampStep)
          ⟨known, expected, false⟩).discontinuity = false := by
  induction messages generalizing copied known expected with
  | nil => simp [epochDispositions]
  | cons header rest ih =>
      have hgap : (header :: rest).foldl (message timestampStep)
          ⟨known, expected, false⟩ = rest.foldl (message timestampStep)
            ⟨true, header.timestamp + timestampStep, known && header.timestamp != expected⟩ := rfl
      have hcontinues : (known = true → header.timestamp = expected) ↔
          (known && header.timestamp != expected) = false := by
        simp
      rw [epochDispositions, List.forall_mem_cons, ih, disposition_eq_accept_iff, List.all_cons,
        Bool.and_eq_true, hgap, scan_discontinuity rest true _ (known && _), Bool.or_eq_false_iff, hcontinues]
      exact and_and_and_comm

/-- What is expected after an admissible message is at or after the boundary,
except perhaps after the last. -/
def StaysAfter (epochId : BitVec 8) (minimum timestampStep : BitVec 64)
    (messages : List MetaHeader) : Prop :=
  ∀ m ∈ messages.dropLast, metadataRxMessageAdmissible epochId minimum m = true →
    metadataTimestampAtOrAfter (m.timestamp + timestampStep) minimum = true

theorem findIdx_refuses {copied : ℕ → Bool} {known : Bool}
    {expected : BitVec 64} (hstays : StaysAfter epochId minimum timestampStep messages)
    (hknown : known = true → metadataTimestampAtOrAfter expected minimum = true) :
    (epochDispositions epochId minimum timestampStep copied known expected messages).findIdx?
        (·.refuses) =
      messages.findIdx? (!metadataRxMessageAdmissible epochId minimum ·) := by
  induction messages generalizing copied known expected with
  | nil => rfl
  | cons header rest ih =>
      rw [epochDispositions, List.findIdx?_cons, List.findIdx?_cons,
        disposition_refuses_iff hknown]
      cases hadmissible : metadataRxMessageAdmissible epochId minimum header with
      | false => rfl
      | true =>
          cases rest with
          | nil => rfl
          | cons header' rest =>
              have hnext := hstays header (by simp) hadmissible
              rw [ih (fun m hm => hstays m (by
                rw [List.dropLast_cons_cons]
                exact List.mem_cons_of_mem _ hm)) fun _ => hnext]

theorem refuses_iff {copied : ℕ → Bool} {known : Bool}
    {expected : BitVec 64} (hstays : StaysAfter epochId minimum timestampStep messages)
    (hknown : known = true → metadataTimestampAtOrAfter expected minimum = true) :
    (∃ d ∈ epochDispositions epochId minimum timestampStep copied known expected messages,
        d.refuses = true) ↔
      messages.all (metadataRxMessageAdmissible epochId minimum) = false := by
  have hany : (epochDispositions epochId minimum timestampStep copied known expected
      messages).any (·.refuses) =
        messages.any (!metadataRxMessageAdmissible epochId minimum ·) := by
    rw [← List.findIdx?_isSome, ← List.findIdx?_isSome, findIdx_refuses hstays hknown]
  rw [← List.any_eq_true, hany, ← List.not_all_eq_any_not, Bool.not_eq_true']

theorem invalidSource_of_findIdx {i : ℕ}
    (htagged : ∀ m ∈ messages, (metadataGetRxEpochId m).isSome = true)
    (h : messages.findIdx? (!metadataRxMessageAdmissible epochId minimum ·) = some i) :
    ∃ m id, messages[i]? = some m ∧ metadataGetRxEpochId m = some id ∧
      metadataRxInvalidSource epochId minimum messages = some (id, m.timestamp) := by
  induction messages generalizing i with
  | nil => cases h
  | cons header rest ih =>
      obtain ⟨id, hid⟩ := Option.isSome_iff_exists.mp (htagged header List.mem_cons_self)
      have hmatches : metadataRxEpochMatches header epochId = decide (id = epochId) := by
        rw [metadataRxEpochMatches, hid]
        exact Bool.eq_iff_iff.mpr (by simp)
      rw [metadataRxInvalidSource, hid]
      rw [List.findIdx?_cons] at h
      cases hadmissible : metadataRxMessageAdmissible epochId minimum header with
      | false =>
          rw [hadmissible] at h
          obtain rfl : 0 = i := Option.some.inj h
          refine ⟨header, id, rfl, hid, ?_⟩
          rw [metadataRxMessageAdmissible, hmatches, Bool.and_eq_false_iff,
            decide_eq_false_iff_not] at hadmissible
          exact if_pos (hadmissible.imp_right fun hafter => by rw [hafter]; rfl)
      | true =>
          rw [hadmissible] at h
          obtain ⟨j, hj, rfl⟩ := Option.map_eq_some_iff.mp h
          obtain ⟨m, id', hm, hid', hsource⟩ :=
            ih (fun m hm => htagged m (List.mem_cons_of_mem _ hm)) hj
          refine ⟨m, id', hm, hid', ?_⟩
          rw [metadataRxMessageAdmissible, hmatches, Bool.and_eq_true, decide_eq_true_iff]
            at hadmissible
          rw [← hsource]
          refine if_neg ?_
          rintro (hne | hbefore)
          · exact hne hadmissible.1
          · rw [hadmissible.2] at hbefore
            cases hbefore

end

/-! ## The transfer and its messages -/

section

variable {b : MetaBuffer} {messageSize : ℕ} {epochId : BitVec 8}
  {minimum timestampStep expected : BitVec 64} {known : Bool}

structure MetaBuffer.Whole (b : MetaBuffer) (messageSize : ℕ) : Prop where
  header : metadataHeaderSize < messageSize
  nonempty : b.length ≠ 0
  whole : b.length % messageSize = 0

section

variable (h : b.Whole messageSize)

include h

theorem MetaBuffer.Whole.messages_ne_nil :
    b.messages messageSize ≠ [] := by
  have hdiv : b.length / messageSize ≠ 0 := by
    intro hzero
    have hsplit := Nat.div_add_mod b.length messageSize
    rw [hzero, h.whole, Nat.mul_zero, Nat.add_zero] at hsplit
    exact h.nonempty hsplit.symm
  intro hnil
  have hlen := congrArg List.length hnil
  rw [MetaBuffer.messages, List.length_map, List.length_range] at hlen
  exact hdiv hlen

theorem MetaBuffer.Whole.matchesEpoch :
    metadataRxBufferMatchesEpoch b messageSize epochId minimum =
      (b.messages messageSize).all (metadataRxMessageAdmissible epochId minimum) := by
  rw [metadataRxBufferMatchesEpoch, if_neg]
  rintro (hsize | hlen | hmod)
  · exact absurd h.header (Nat.not_lt.mpr hsize)
  · exact h.nonempty hlen
  · exact hmod h.whole

theorem MetaBuffer.Whole.invalidSource :
    metadataRxBufferInvalidSource b messageSize epochId minimum =
      metadataRxInvalidSource epochId minimum (b.messages messageSize) := by
  rw [metadataRxBufferInvalidSource, if_neg]
  rintro (hsize | hlen | hmod)
  · exact absurd h.header (Nat.not_lt.mpr hsize)
  · exact h.nonempty hlen
  · exact hmod h.whole

theorem MetaBuffer.Whole.epochContiguous (hstep : timestampStep ≠ 0) :
    metadataRxBufferEpochContiguous b messageSize epochId minimum known expected timestampStep =
      if (b.messages messageSize).all (metadataRxMessageAdmissible epochId minimum) then
        let scan := (b.messages messageSize).foldl (message timestampStep)
          ⟨known, expected, false⟩
        if scan.discontinuity then .discontinuity scan.expected else .contiguous scan.expected
      else .invalid := by
  rw [metadataRxBufferEpochContiguous, h.matchesEpoch]
  cases (b.messages messageSize).all (metadataRxMessageAdmissible epochId minimum) with
  | false => rw [if_pos (.inr rfl)]; rfl
  | true => rw [if_neg (by simpa using hstep), if_pos rfl]

end

theorem discontinuity_mem_iff {l : List MetadataRxEpochDisposition}
    (h : ∀ d ∈ l, d.refuses = false) : .discontinuity ∈ l ↔ ¬∀ d ∈ l, d = .accept := by
  constructor
  · intro hmem hall
    cases hall _ hmem
  · intro hsome
    push Not at hsome
    obtain ⟨d, hd, hne⟩ := hsome
    have hquiet := h d hd
    cases d with
    | accept => exact absurd rfl hne
    | discontinuity => exact hd
    | dropMessage | skipTimestampPrefix | returnValidPrefix => cases hquiet

/-- A transfer is contiguous exactly where each of its messages is accepted.  As
long as no expected timestamp leaves the half-range ahead of the boundary, it is
invalid exactly where one is refused, and the first that is refused is named as
the source if all are tagged; and there is a gap exactly where none is refused and
one is a discontinuity. -/
theorem epochContiguous_iff_dispositions (b : MetaBuffer) (messageSize : ℕ)
    (epochId : BitVec 8) (minimum timestampStep expected : BitVec 64) (known : Bool)
    (h : b.Whole messageSize) (hstep : timestampStep ≠ 0)
    (hknown : known = true → metadataTimestampAtOrAfter expected minimum = true)
    (copied : ℕ → Bool) :
    let messages := b.messages messageSize
    let dispositions :=
      epochDispositions epochId minimum timestampStep copied known expected messages
    let result := metadataRxBufferEpochContiguous b messageSize epochId minimum known expected
      timestampStep
    ((∃ next, result = .contiguous next) ↔ ∀ d ∈ dispositions, d = .accept) ∧
    (∀ next, result = .contiguous next ∨ result = .discontinuity next →
      some next = nextTimestamp timestampStep messages) ∧
    (StaysAfter epochId minimum timestampStep messages →
      ((∃ next, result = .discontinuity next) ↔
        (∀ d ∈ dispositions, d.refuses = false) ∧ .discontinuity ∈ dispositions) ∧
      (result = .invalid ↔ ∃ d ∈ dispositions, d.refuses = true) ∧
      (result = .invalid → (∀ m ∈ messages, (metadataGetRxEpochId m).isSome = true) →
        ∃ i m id, dispositions.findIdx? (·.refuses) = some i ∧ messages[i]? = some m ∧
          metadataGetRxEpochId m = some id ∧
          metadataRxBufferInvalidSource b messageSize epochId minimum =
            some (id, m.timestamp))) := by
  intro messages dispositions result
  let scan := messages.foldl (message timestampStep) ⟨known, expected, false⟩
  have haccept : (∀ d ∈ dispositions, d = .accept) ↔
      messages.all (metadataRxMessageAdmissible epochId minimum) = true ∧
        scan.discontinuity = false := epochDispositions_accept_iff
  have hnext : some scan.expected = nextTimestamp timestampStep messages :=
    scan_expected h.messages_ne_nil
  have hresult : result =
      if messages.all (metadataRxMessageAdmissible epochId minimum) then
        if scan.discontinuity then .discontinuity scan.expected else .contiguous scan.expected
      else .invalid := h.epochContiguous hstep
  refine ⟨?_, ?_, fun hstays => ?_⟩
  · rw [haccept, hresult]
    cases messages.all (metadataRxMessageAdmissible epochId minimum) with
    | false => simp
    | true => cases scan.discontinuity <;> simp
  · intro next hends
    rw [← hnext]
    rw [hresult] at hends
    split_ifs at hends
    · have heq : scan.expected = next := by simpa using hends
      rw [heq]
    · have heq : scan.expected = next := by simpa using hends
      rw [heq]
    · simp at hends
  · have hrefuses : (∃ d ∈ dispositions, d.refuses = true) ↔
        messages.all (metadataRxMessageAdmissible epochId minimum) = false :=
      refuses_iff hstays hknown
    have hinvalid : result = .invalid ↔
        messages.all (metadataRxMessageAdmissible epochId minimum) = false := by
      rw [hresult]
      cases messages.all (metadataRxMessageAdmissible epochId minimum) with
      | false => simp
      | true => cases scan.discontinuity <;> simp
    refine ⟨?_, hinvalid.trans hrefuses.symm, fun hinv htagged => ?_⟩
    · have hquiet : (∀ d ∈ dispositions, d.refuses = false) ↔
          messages.all (metadataRxMessageAdmissible epochId minimum) = true := by
        rw [← Bool.not_eq_false, ← hrefuses]
        simp
      constructor
      · rintro ⟨next, hdisc⟩
        rw [hresult] at hdisc
        split_ifs at hdisc with hall hgap
        have hnone := hquiet.mpr hall
        refine ⟨hnone, (discontinuity_mem_iff hnone).mpr fun hacc => ?_⟩
        rw [(haccept.mp hacc).2] at hgap
        cases hgap
      · rintro ⟨hnone, hmem⟩
        have hall := hquiet.mp hnone
        have hgap : scan.discontinuity = true := by
          cases hd : scan.discontinuity with
          | true => rfl
          | false => exact absurd (haccept.mpr ⟨hall, hd⟩) ((discontinuity_mem_iff hnone).mp hmem)
        rw [hresult, if_pos hall, if_pos hgap]
        exact ⟨_, rfl⟩
    · have hfind : dispositions.findIdx? (·.refuses) =
          messages.findIdx? (!metadataRxMessageAdmissible epochId minimum ·) :=
        findIdx_refuses hstays hknown
      have hsome : (dispositions.findIdx? (·.refuses)).isSome = true := by
        rw [List.findIdx?_isSome, List.any_eq_true]
        exact hrefuses.mpr (hinvalid.mp hinv)
      obtain ⟨i, hi⟩ := Option.isSome_iff_exists.mp hsome
      obtain ⟨m, id, hm, hid, hsource⟩ := invalidSource_of_findIdx htagged (hfind ▸ hi)
      exact ⟨i, m, id, hi, hm, hid, h.invalidSource.trans hsource⟩

end

def epoch1Buffer (timestamps : List (BitVec 64)) : MetaBuffer where
  length := 32 * timestamps.length
  header offset := ⟨0x80000001, timestamps.getD (offset / 32) 0, 0⟩

/-- The third message is before the boundary at 100. -/
theorem epochContiguous_iff_dispositions_stale :
    metadataRxBufferEpochContiguous (epoch1Buffer [100, 108, 90]) 32 1 100 false 0 8 = .invalid ∧
      metadataRxBufferInvalidSource (epoch1Buffer [100, 108, 90]) 32 1 100 = some (1, 90) := by
  have hwhole : (epoch1Buffer [100, 108, 90]).Whole 32 := ⟨by decide, by decide, by decide⟩
  obtain ⟨-, -, hstays⟩ := epochContiguous_iff_dispositions _ 32 1 100 8 0 false hwhole
    (by decide) (by simp) fun _ => false
  obtain ⟨-, hinvalid, hsource⟩ := hstays (by unfold StaysAfter; decide +kernel)
  have hinv := hinvalid.mpr (by decide +kernel)
  obtain ⟨i, m, id, hi, hm, hid, heq⟩ := hsource hinv (by decide +kernel)
  refine ⟨hinv, heq.trans ?_⟩
  have hfind : (epochDispositions 1 100 8 (fun _ => false) false 0
      ((epoch1Buffer [100, 108, 90]).messages 32)).findIdx? (·.refuses) = some 2 := by
    decide +kernel
  obtain rfl : i = 2 := Option.some.inj (hi.symm.trans hfind)
  obtain rfl : m = ⟨0x80000001, 90, 0⟩ := Option.some.inj (hm.symm.trans (by decide +kernel))
  obtain rfl : id = 1 := Option.some.inj (hid.symm.trans (by decide +kernel))
  rfl

/-- A message at the end of the half-range and one back at the boundary: the
transfer has a gap, and `sync_rx` skips the second message.  And a transfer
without a message is invalid, though none is refused. -/
theorem epochContiguous_not_dispositions :
    ((metadataRxBufferEpochContiguous (epoch1Buffer [0x7fffffffffffffff, 0]) 32 1 0 false 0 1 =
        .discontinuity 1) ∧
      epochDispositions 1 0 1 (fun _ => false) false 0
          ((epoch1Buffer [0x7fffffffffffffff, 0]).messages 32) =
        [.accept, .skipTimestampPrefix]) ∧
    (metadataRxBufferEpochContiguous (epoch1Buffer []) 32 1 0 false 0 1 = .invalid ∧
      epochDispositions 1 0 1 (fun _ => false) false 0 ((epoch1Buffer []).messages 32) = []) := by
  decide +kernel

end BladeRF
