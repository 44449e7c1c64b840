/-
# `Fpga.GpifLevels` — no queue is popped when empty or pushed when full

`can_rx` and `can_tx` are computed from waterlines that were computed from
counts: a grant rests on what a queue held two clocks earlier, as far as this
side had noticed.  The margins of the waterlines cover that, the words that are
still on their way at the start and those the count has not seen yet.
-/
import BladeRF.Fpga.GpifSchedule

namespace BladeRF
namespace GpifSystem

open Gpif

variable {e : Generics} {u : Bool} {s s' : GpifSystem e} {i : GpifInput}

/-! ## The buffer size -/

/-- The registered buffer size is the one of the bus speed before a grant can use
it. -/
structure Sized (u : Bool) (s : GpifSystem e) : Prop where
  used : s.gpif.current.dmaIdle = true → s.gpif.gpifBufSize = bufSize u
  le : bufSize u ≤ s.gpif.gpifBufSize

theorem sized_init : Sized u ({} : GpifSystem e) :=
  ⟨fun h => (Bool.false_ne_true h).elim, by
    show bufSize u ≤ gpifBufSizeSs
    cases u <;> decide⟩

theorem sized_step : Sized u (step (config u) s i) :=
  ⟨fun _ => rfl, le_refl (bufSize u)⟩

/-! ## When a queue is accessed -/

theorem Phase.of_txWr (h : Phase u s) (hwr : s.gpif.current.txFifoWr = true) :
    ∃ w, s.ongoing = some ⟨.tx, w⟩ ∧ 10 ≤ w.length ∧ w.length ≤ bufSize u + 5 := by
  cases h with
  | idle _ hq =>
      rw [hq.txWr] at hwr
      cases hwr
  | rx w _ hr =>
      rw [hr.txWr] at hwr
      cases hwr
  | tx w ho hw =>
      rw [hw.txWr] at hwr
      exact ⟨w, ho, of_decide_eq_true (Bool.and_eq_true_iff.mp hwr).2⟩

theorem Phase.of_txmWr (h : Phase u s) (hwr : s.gpif.current.txmFifoWr = true) :
    ∃ w, s.ongoing = some ⟨.tx, w⟩ ∧ 10 ≤ w.length ∧ w.length ≤ 13 := by
  cases h with
  | idle _ hq =>
      rw [hq.txmWr] at hwr
      cases hwr
  | rx w _ hr =>
      rw [hr.txmWr] at hwr
      cases hwr
  | tx w ho hw =>
      rw [hw.txmWr] at hwr
      exact ⟨w, ho, of_decide_eq_true (Bool.and_eq_true_iff.mp hwr).2⟩

theorem Phase.of_rxRd (h : Phase u s) (hrd : s.gpif.current.rxFifoRd = true) :
    ∃ w, s.ongoing = some ⟨.rx, w⟩ ∧ 5 ≤ w.length ∧ w.length ≤ bufSize u := by
  cases h with
  | idle _ hq =>
      rw [hq.rxRd] at hrd
      cases hrd
  | rx w ho hr =>
      rw [hr.rxRd] at hrd
      exact ⟨w, ho, of_decide_eq_true hrd⟩
  | tx w _ hw =>
      rw [hw.rxRd] at hrd
      cases hrd

theorem Phase.of_rxmRd (h : Phase u s) (hrd : s.gpif.current.rxmFifoRd = true) :
    ∃ w, s.ongoing = some ⟨.rx, w⟩ ∧ 1 ≤ w.length ∧ w.length ≤ 4 := by
  cases h with
  | idle _ hq =>
      rw [hq.rxmRd] at hrd
      cases hrd
  | rx w ho hr =>
      rw [hr.rxmRd] at hrd
      exact ⟨w, ho, of_decide_eq_true hrd⟩
  | tx w _ hw =>
      rw [hw.rxmRd] at hrd
      cases hrd

/-! ## The TX queues -/

def half (e : Generics) : ℕ := 2 ^ (e.txMetaFifoUsedwBits - 1)

theorem txMetaDepth_eq (h : 5 ≤ half e) : e.txMetaDepth = 2 * half e := by
  have hbits : e.txMetaFifoUsedwBits ≠ 0 := by
    intro h0
    rw [half, h0] at h
    omega
  obtain ⟨b, hb⟩ := Nat.exists_eq_succ_of_ne_zero hbits
  rw [Generics.txMetaDepth, half, hb, Nat.succ_sub_one, Nat.pow_succ, Nat.mul_comm]

theorem txDepth_le (e : Generics) : e.txDepth ≤ 2 ^ e.txFifoUsedwBits := by
  have := e.tx_fits
  rw [Generics.txDepth, depthOr]
  split_ifs
  · exact this
  · exact le_rfl

structure TxLevels (u : Bool) (s : GpifSystem e) : Prop where
  enough : s.gpif.txFifoEnough = true →
    s.txFifo.shown + bufSize u ≤ e.txDepth + e.lag ∧
      5 ≤ half e ∧ s.txMetaFifo.shown + 4 ≤ half e + e.lag
  can : s.gpif.canTx = true →
    s.txFifo.shown + bufSize u ≤ e.txDepth + e.lag + 1 ∧
      5 ≤ half e ∧ s.txMetaFifo.shown + 3 ≤ half e + e.lag
  span : s.txMetaFifo.shown = 0 ∨ 5 ≤ half e ∧ s.txMetaFifo.shown ≤ half e + 4
  writing : ∀ w, s.ongoing = some ⟨.tx, w⟩ →
    s.txFifo.shown + bufSize u ≤ e.txDepth + e.lag + 1 + (w.length - 10) ∧
      5 ≤ half e ∧ s.txMetaFifo.shown + 3 ≤ half e + e.lag + min (w.length - 10) 4

theorem txLevels_init : TxLevels u ({} : GpifSystem e) where
  enough h := (Bool.false_ne_true h).elim
  can h := (Bool.false_ne_true h).elim
  span := .inl rfl
  writing _ h := nomatch h

theorem txShown_step :
    (step (config u) s i).txFifo.shown ≤ s.txFifo.shown + s.gpif.current.txFifoWr.toNat := by
  refine (Lib.Sink.shown_notice_le _ _).trans ?_
  rw [Lib.Sink.shown_drain]
  split
  · rename_i h
    rw [h]
    exact Lib.Sink.shown_push_le _ _
  · exact Nat.le_add_right _ _

theorem txMetaShown_step :
    (step (config u) s i).txMetaFifo.shown ≤
      s.txMetaFifo.shown + s.gpif.current.txmFifoWr.toNat := by
  refine (Lib.Sink.shown_notice_le _ _).trans ?_
  rw [Lib.Sink.shown_drain]
  split
  · rename_i h
    rw [h]
    exact Lib.Sink.shown_push_le _ _
  · exact Nat.le_add_right _ _

theorem TxLevels.waterline (h : TxLevels u s) (hsize : Sized u s)
    (henough : (step (config u) s i).gpif.txFifoEnough = true) :
    s.txFifo.shown + bufSize u + 1 ≤ e.txDepth + e.lag ∧
      5 ≤ half e ∧ s.txMetaFifo.shown + 5 ≤ half e + e.lag := by
  obtain ⟨hroom, hmeta⟩ := Bool.and_eq_true_iff.mp henough
  obtain ⟨hfull, hused⟩ := Bool.and_eq_true_iff.mp hroom
  have hused := of_decide_eq_true hused
  have hmeta := of_decide_eq_true hmeta
  have hle := hsize.le
  have hdepth := txDepth_le e
  have hbound := s.txFifo.bounded
  have hcount : s.txFifo.shown ≤ s.txCount i + e.lag := by
    simp only [txCount]
    omega
  have hcountle : s.txCount i ≤ s.txFifo.shown := Nat.sub_le _ _
  have hne : s.txCount i ≠ e.txDepth := by simpa [ports] using hfull
  have hmetacount : s.txMetaFifo.shown ≤ s.txMetaCount i + e.lag := by
    simp only [txMetaCount]
    omega
  have hmetale : s.txMetaCount i ≤ s.txMetaFifo.shown := Nat.sub_le _ _
  have hlt : s.txMetaCount i < 2 ^ e.txMetaFifoUsedwBits := by
    rcases h.span with h0 | ⟨h5, hspan⟩
    · rw [show s.txMetaCount i = 0 by omega]
      exact Nat.two_pow_pos _
    · have := txMetaDepth_eq h5
      rw [Generics.txMetaDepth] at this
      omega
  dsimp only [ports] at hused hmeta
  rw [Nat.mod_eq_of_lt (by omega)] at hused
  rw [Nat.mod_eq_of_lt hlt] at hmeta
  have hhalf : ((half e : ℕ) : ℤ) = 2 ^ (e.txMetaFifoUsedwBits - 1) := by simp [half]
  rw [← hhalf] at hmeta
  omega

theorem TxLevels.room (h : TxLevels u s) (hp : Phase u s) :
    (s.gpif.current.txFifoWr = true → s.txFifo.shown < e.txDepth) ∧
      (s.gpif.current.txmFifoWr = true → s.txMetaFifo.shown < e.txMetaDepth) := by
  have hlag := e.lag_le
  constructor
  · intro hwr
    obtain ⟨w, ho, hlo, hhi⟩ := hp.of_txWr hwr
    have := (h.writing w ho).1
    omega
  · intro hwr
    obtain ⟨w, ho, hlo, hhi⟩ := hp.of_txmWr hwr
    obtain ⟨-, h5, hm⟩ := h.writing w ho
    have := txMetaDepth_eq h5
    omega

theorem TxLevels.step (h : TxLevels u s) (hsize : Sized u s) (hp : Phase u s)
    (hmove : Move u i s (step (config u) s i)) : TxLevels u (step (config u) s i) := by
  have htx := txShown_step (s := s) (u := u) (i := i)
  have hmeta := txMetaShown_step (s := s) (u := u) (i := i)
  have hb1 := s.gpif.current.txFifoWr.toNat_le
  have hb2 := s.gpif.current.txmFifoWr.toNat_le
  refine ⟨fun henough => ?_, fun hcan => ?_, ?_, fun w' ho' => ?_⟩
  · have := h.waterline hsize henough
    omega
  · have henough : s.gpif.txFifoEnough = true :=
      (Bool.and_eq_true_iff.mp (Bool.and_eq_true_iff.mp hcan).1).2
    have := h.enough henough
    omega
  · have hlag := e.lag_le
    by_cases hwr : s.gpif.current.txmFifoWr = true
    · obtain ⟨w, ho, hlo, hhi⟩ := hp.of_txmWr hwr
      obtain ⟨-, h5, hm⟩ := h.writing w ho
      rw [hwr, Bool.toNat_true] at hmeta
      exact .inr ⟨h5, by omega⟩
    · rw [Bool.not_eq_true] at hwr
      rw [hwr, Bool.toNat_false] at hmeta
      have := h.span
      omega
  · cases hmove with
    | wait _ _ ho _ _ _ => rw [ho] at ho'; cases ho'
    | startRx _ _ _ ho _ _ => rw [ho] at ho'; cases ho'
    | startTx _ hq hcan ho _ _ =>
        rw [ho] at ho'
        cases ho'
        rw [hq.txWr, Bool.toNat_false] at htx
        rw [hq.txmWr, Bool.toNat_false] at hmeta
        have := h.can hcan
        rw [List.length_nil]
        omega
    | read w _ _ _ ho _ _ => rw [ho] at ho'; cases ho'
    | readEnd w _ _ _ ho _ _ _ => rw [ho] at ho'; cases ho'
    | write w hold _ _ _ ho _ _ =>
        rw [ho] at ho'
        cases ho'
        rw [List.length_append, List.length_singleton]
        obtain ⟨h1, h5, h2⟩ := h.writing w hold
        refine ⟨?_, h5, ?_⟩
        · by_cases hwr : s.gpif.current.txFifoWr = true
          · obtain ⟨w', ho, hlo, hhi⟩ := hp.of_txWr hwr
            obtain rfl : w = w' := by simpa [hold] using ho
            omega
          · rw [Bool.not_eq_true] at hwr
            rw [hwr, Bool.toNat_false] at htx
            omega
        · by_cases hwr : s.gpif.current.txmFifoWr = true
          · obtain ⟨w', ho, hlo, hhi⟩ := hp.of_txmWr hwr
            obtain rfl : w = w' := by simpa [hold] using ho
            omega
          · rw [Bool.not_eq_true] at hwr
            rw [hwr, Bool.toNat_false] at hmeta
            omega
    | writeEnd w _ _ _ ho _ _ _ => rw [ho] at ho'; cases ho'

/-! ## The RX queues -/

def headerTaken (s : GpifSystem e) : ℕ :=
  match s.ongoing with
  | some ⟨.rx, w⟩ => min (w.length - 1) 4
  | _ => 0

/-- No read of the last `n` clocks is younger than this. -/
def Rested (u : Bool) (n : ℕ) (s : GpifSystem e) : Prop :=
  ∀ w, s.ongoing = some ⟨.rx, w⟩ → bufSize u + n ≤ w.length

structure RxLevels (u : Bool) (s : GpifSystem e) : Prop where
  noticed : 4 ∣ s.rxMetaFifo.unseen
  /-- whole headers are taken -/
  taken : 4 ∣ s.rxMetaFifo.shown + headerTaken s
  enough : s.gpif.rxFifoEnough = true → Rested u 2 s → bufSize u ≤ s.rxFifo.shown + e.lag
  can : s.gpif.canRx = true → Rested u 3 s →
    bufSize u ≤ s.rxFifo.shown + e.lag ∧ 0 < s.rxMetaFifo.shown
  reading : ∀ w, s.ongoing = some ⟨.rx, w⟩ →
    (w.length ≤ bufSize u → bufSize u ≤ s.rxFifo.shown + e.lag + (w.length - 5)) ∧
      (w.length ≤ 4 → 4 ≤ s.rxMetaFifo.shown + (w.length - 1))

theorem rxLevels_init : RxLevels u ({} : GpifSystem e) where
  noticed := ⟨0, rfl⟩
  taken := ⟨0, rfl⟩
  enough h := (Bool.false_ne_true h).elim
  can h := (Bool.false_ne_true h).elim
  reading _ h := nomatch h

theorem rxShown_step :
    s.rxFifo.shown ≤ (step (config u) s i).rxFifo.shown + s.gpif.current.rxFifoRd.toNat := by
  refine le_trans ?_ (Nat.add_le_add_right (Lib.Source.le_shown_notice _ _) _)
  rw [Lib.Source.shown_supply]
  split
  · rename_i h
    rw [h, Lib.Source.shown_pop, Bool.toNat_true]
    omega
  · exact Nat.le_add_right _ _

theorem RxLevels.filled (h : RxLevels u s) (hp : Phase u s) :
    (s.gpif.current.rxFifoRd = true → 0 < s.rxFifo.shown) ∧
      (s.gpif.current.rxmFifoRd = true → 0 < s.rxMetaFifo.shown) := by
  have hlag := e.lag_le
  constructor
  · intro hrd
    obtain ⟨w, ho, hlo, hhi⟩ := hp.of_rxRd hrd
    have := (h.reading w ho).1 hhi
    omega
  · intro hrd
    obtain ⟨w, ho, hlo, hhi⟩ := hp.of_rxmRd hrd
    have := (h.reading w ho).2 hhi
    omega

theorem four_dvd_dwords (hs : List (Dword × Dword × Dword × Dword)) :
    4 ∣ (hs.flatMap dwords).length := by
  induction hs with
  | nil => exact ⟨0, rfl⟩
  | cons h hs ih =>
      rw [List.flatMap_cons, List.length_append]
      exact Nat.dvd_add ⟨1, rfl⟩ ih

theorem RxLevels.meta_step (h : RxLevels u s) (hp : Phase u s) :
    4 ∣ (step (config u) s i).rxMetaFifo.unseen ∧
      ∃ k, (step (config u) s i).rxMetaFifo.shown + s.gpif.current.rxmFifoRd.toNat =
        s.rxMetaFifo.shown + 4 * k := by
  have hfilled := (h.filled hp).2
  obtain ⟨q, hq, hpop, hunseen⟩ : ∃ q : Lib.Source Dword e.rxMetaFifoWords,
      q = (if s.gpif.current.rxmFifoRd then s.rxMetaFifo.pop else s.rxMetaFifo) ∧
        q.shown + s.gpif.current.rxmFifoRd.toNat = s.rxMetaFifo.shown ∧ 4 ∣ q.unseen := by
    refine ⟨_, rfl, ?_⟩
    split
    · rename_i hrd
      have := hfilled hrd
      rw [hrd, Lib.Source.shown_pop, Bool.toNat_true, Lib.Source.unseen_pop]
      exact ⟨by omega, h.noticed⟩
    · rename_i hrd
      rw [Bool.not_eq_true] at hrd
      rw [hrd]
      exact ⟨rfl, h.noticed⟩
  have hstep : (step (config u) s i).rxMetaFifo =
      (q.supply (i.headers.flatMap dwords)).notice (4 * i.noticeRxMeta) := by
    rw [hq]
    rfl
  obtain ⟨hdvd, k, hk⟩ := (q.supply (i.headers.flatMap dwords)).dvd_notice
    (q.dvd_unseen_supply hunseen (four_dvd_dwords i.headers)) i.noticeRxMeta
  rw [hstep]
  refine ⟨hdvd, k, ?_⟩
  rw [hk, Lib.Source.shown_supply]
  omega

theorem rx_waterline (hsize : Sized u s)
    (henough : (step (config u) s i).gpif.rxFifoEnough = true) :
    bufSize u ≤ s.rxFifo.shown + e.lag := by
  have hle := hsize.le
  have hholds : bufSize u < e.rxDepth := by
    have : gpifBufSizeSs < e.rxDepth := e.rx_holds
    have : bufSize u ≤ gpifBufSizeSs := by cases u <;> decide
    omega
  have hdepth : e.rxDepth ≤ 2 ^ e.rxFifoUsedwBits := by
    have := e.rx_fits
    rw [Generics.rxDepth, depthOr]
    split_ifs
    · exact this
    · exact le_rfl
  have hcount : s.rxCount i ≤ s.rxFifo.shown + e.lag := by
    simp only [rxCount]
    omega
  have hused := of_decide_eq_true henough
  by_cases hfull : s.rxCount i = e.rxDepth
  · omega
  · have hlt : s.rxCount i < e.rxDepth := lt_of_le_of_ne (min_le_left _ _) hfull
    have hport : (s.ports i).rxFifoFull = false := decide_eq_false hfull
    rw [hport, if_neg Bool.false_ne_true, show (s.ports i).rxFifoUsedw =
      s.rxCount i % 2 ^ e.rxFifoUsedwBits from rfl, Nat.mod_eq_of_lt (by omega)] at hused
    omega

theorem rested_of_step {n : ℕ} (hn : n ≤ 10) (hmove : Move u i s (step (config u) s i))
    (h : Rested u (n + 1) (step (config u) s i)) : Rested u n s := by
  intro w ho
  cases hmove with
  | wait hold _ _ _ _ _ => rw [hold] at ho; cases ho
  | startRx hold _ _ _ _ _ => rw [hold] at ho; cases ho
  | startTx hold _ _ _ _ _ => rw [hold] at ho; cases ho
  | read w' hold _ _ hnew _ _ =>
      rw [hold] at ho
      cases ho
      have := h _ hnew
      rw [List.length_append, List.length_singleton] at this
      omega
  | readEnd w' hold hr hlen _ _ _ _ =>
      rw [hold] at ho
      cases ho
      omega
  | write w' hold _ _ _ _ _ _ => rw [hold] at ho; cases ho
  | writeEnd w' hold _ _ _ _ _ _ => rw [hold] at ho; cases ho

theorem Phase.rested (hp : Phase u s) {n : ℕ} (hn : 1 ≤ n) (h : Rested u n s) :
    s.gpif.current.rxFifoRd = false ∧ s.gpif.current.rxmFifoRd = false := by
  have hle := le_bufSize u
  constructor
  · rw [← Bool.not_eq_true]
    intro hrd
    obtain ⟨w, ho, hlo, hhi⟩ := hp.of_rxRd hrd
    have := h w ho
    omega
  · rw [← Bool.not_eq_true]
    intro hrd
    obtain ⟨w, ho, hlo, hhi⟩ := hp.of_rxmRd hrd
    have := h w ho
    omega

theorem headerTaken_step (hmove : Move u i s (step (config u) s i)) :
    ∃ k, headerTaken (step (config u) s i) + 4 * k =
      headerTaken s + s.gpif.current.rxmFifoRd.toNat := by
  have hle := le_bufSize u
  cases hmove with
  | wait hold hq hnew _ _ _ =>
      rw [hq.rxmRd]
      exact ⟨0, by simp [headerTaken, hold, hnew]⟩
  | startRx hold hq _ hnew _ _ =>
      rw [hq.rxmRd]
      exact ⟨0, by simp [headerTaken, hold, hnew]⟩
  | startTx hold hq _ hnew _ _ =>
      rw [hq.rxmRd]
      exact ⟨0, by simp [headerTaken, hold, hnew]⟩
  | read w hold hr _ hnew _ _ =>
      refine ⟨0, ?_⟩
      simp only [headerTaken, hold, hnew, List.length_append, List.length_singleton]
      rw [hr.rxmRd]
      by_cases h : 1 ≤ w.length ∧ w.length ≤ 4
      · rw [decide_eq_true h, Bool.toNat_true]
        omega
      · rw [decide_eq_false h, Bool.toNat_false]
        omega
  | readEnd w hold hr hlen hnew _ _ _ =>
      refine ⟨1, ?_⟩
      rw [hr.rxmRd, decide_eq_false (by omega)]
      simp only [headerTaken, hold, hnew, Bool.toNat_false]
      omega
  | write w hold hw _ _ hnew _ _ =>
      rw [hw.rxmRd]
      exact ⟨0, by simp [headerTaken, hold, hnew]⟩
  | writeEnd w hold hw _ hnew _ _ _ =>
      rw [hw.rxmRd]
      exact ⟨0, by simp [headerTaken, hold, hnew]⟩

theorem RxLevels.step (h : RxLevels u s) (hsize : Sized u s) (hp : Phase u s)
    (hmove : Move u i s (step (config u) s i)) : RxLevels u (step (config u) s i) := by
  have hrx := rxShown_step (s := s) (u := u) (i := i)
  obtain ⟨hunseen, k, hk⟩ := h.meta_step (i := i) hp
  obtain ⟨m, hm⟩ := headerTaken_step hmove
  have htaken := h.taken
  have hb := s.gpif.current.rxFifoRd.toNat_le
  refine ⟨hunseen, by omega, fun henough hrest => ?_, fun hcan hrest => ?_, fun w' ho' => ?_⟩
  · obtain ⟨hrd, -⟩ := hp.rested le_rfl (rested_of_step (by omega) hmove hrest)
    rw [hrd, Bool.toNat_false] at hrx
    have := rx_waterline hsize henough
    omega
  · have hrest2 := rested_of_step (by omega) hmove hrest
    obtain ⟨hrd, hrdm⟩ := hp.rested (by omega) hrest2
    rw [hrd, Bool.toNat_false] at hrx
    rw [hrdm, Bool.toNat_false] at hk
    obtain ⟨hleft, hmeta⟩ := Bool.and_eq_true_iff.mp hcan
    have henough : s.gpif.rxFifoEnough = true :=
      (Bool.and_eq_true_iff.mp (Bool.and_eq_true_iff.mp hleft).1).2
    have hne : s.rxMetaFifo.shown ≠ 0 := by simpa [ports] using hmeta
    have := h.enough henough hrest2
    exact ⟨by omega, by omega⟩
  · cases hmove with
    | wait _ _ ho _ _ _ => rw [ho] at ho'; cases ho'
    | startRx hold hq hcan ho _ _ =>
        rw [ho] at ho'
        cases ho'
        rw [hq.rxRd, Bool.toNat_false] at hrx
        rw [hq.rxmRd, Bool.toNat_false] at hk
        have hnone : headerTaken s = 0 := by simp [headerTaken, hold]
        have := h.can hcan fun w ho => by rw [hold] at ho; cases ho
        rw [List.length_nil]
        exact ⟨fun _ => by omega, fun _ => by omega⟩
    | startTx _ _ _ ho _ _ => rw [ho] at ho'; cases ho'
    | read w hold hr _ ho _ _ =>
        rw [ho] at ho'
        cases ho'
        rw [List.length_append, List.length_singleton]
        obtain ⟨h1, h2⟩ := h.reading w hold
        rw [hr.rxRd] at hrx
        rw [hr.rxmRd] at hk
        constructor
        · intro hle
          by_cases h5 : 5 ≤ w.length
          · rw [decide_eq_true (by omega), Bool.toNat_true] at hrx
            omega
          · rw [decide_eq_false (by omega), Bool.toNat_false] at hrx
            omega
        · intro hle
          by_cases h1 : 1 ≤ w.length
          · rw [decide_eq_true (by omega), Bool.toNat_true] at hk
            omega
          · rw [decide_eq_false (by omega), Bool.toNat_false] at hk
            omega
    | readEnd w _ _ _ ho _ _ _ => rw [ho] at ho'; cases ho'
    | write w _ _ _ _ ho _ _ => rw [ho] at ho'; cases ho'
    | writeEnd w _ _ _ ho _ _ _ => rw [ho] at ho'; cases ho'

end GpifSystem
end BladeRF
