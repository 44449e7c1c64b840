/-
# `Lib.Memcpy` — copies between blocks, and blocks of cells

A block is a list, and a copy that leaves one of its blocks has no outcome.
A block of cells is a header and then cells of one width; a run of copies that
takes cell `g i` to cell `i` rearranges it, and two rearrangements that undo each
other on the cell numbers undo each other on the block.
-/
import Mathlib.Data.List.Basic
import Mathlib.Tactic.Ring

namespace Lib

variable {α : Type*}

def memcpy (dst : List α) (d : ℕ) (src : List α) (s n : ℕ) : Option (List α) :=
  if d + n ≤ dst.length ∧ s + n ≤ src.length then
    some (dst.take d ++ (src.drop s).take n ++ dst.drop (d + n))
  else none

theorem memcpy_inside (dst src : List α) {d s n : ℕ} (hd : d + n ≤ dst.length)
    (hs : s + n ≤ src.length) :
    ∃ out, memcpy dst d src s n = some out ∧ out.length = dst.length ∧
      ∀ p, out[p]? = if d ≤ p ∧ p < d + n then src[s + (p - d)]? else dst[p]? := by
  have hcopied : ((src.drop s).take n).length = n := by
    rw [List.length_take, List.length_drop]
    omega
  have hfront : (dst.take d).length = d := by
    rw [List.length_take]
    omega
  refine ⟨_, if_pos ⟨hd, hs⟩, ?_, fun p => ?_⟩
  · rw [List.length_append, List.length_append, hfront, hcopied, List.length_drop]
    omega
  · rcases Nat.lt_or_ge p d with hlt | hge
    · rw [if_neg (by omega), List.append_assoc, List.getElem?_append_left (by omega),
        List.getElem?_take_of_lt hlt]
    · rcases Nat.lt_or_ge p (d + n) with hin | hout
      · rw [if_pos ⟨hge, hin⟩, List.append_assoc, List.getElem?_append_right (by omega), hfront,
          List.getElem?_append_left (by omega), List.getElem?_take_of_lt (by omega),
          List.getElem?_drop]
      · rw [if_neg (by omega), List.getElem?_append_right (by rw [List.length_append]; omega),
          List.length_append, hfront, hcopied, List.getElem?_drop]
        congr 1
        omega

/-- The whole of a block of the same length. -/
theorem memcpy_all {dst src : List α} {n : ℕ} (hsrc : src.length = n) (hdst : dst.length = n) :
    memcpy dst 0 src 0 n = some src := by
  unfold memcpy
  rw [if_pos (by omega), List.drop_zero, List.take_zero, List.nil_append,
    List.take_of_length_le hsrc.le, List.drop_eq_nil_of_le (by omega), List.append_nil]

/-! ## Cells -/

/-- Cell `j` of `src` goes to cell `i` of `buf`. -/
def copyCell (base w : ℕ) (src : List α) (buf : List α) (i j : ℕ) : Option (List α) :=
  memcpy buf (base + i * w) src (base + j * w) w

theorem cell_at {base w k : ℕ} (i : ℕ) (hk : k < w) :
    (base + i * w + k - base) / w = i ∧ (base + i * w + k - base) % w = k := by
  have hpos : 0 < w := Nat.zero_lt_of_lt hk
  have hoff : base + i * w + k - base = k + i * w := by omega
  rw [hoff, Nat.add_mul_div_right _ _ hpos, Nat.div_eq_of_lt hk, Nat.add_mul_mod_self_right,
    Nat.mod_eq_of_lt hk, Nat.zero_add]
  exact ⟨rfl, rfl⟩

theorem cell_le {i n : ℕ} (w : ℕ) (h : i < n) : i * w + w ≤ n * w := by
  have hle := Nat.mul_le_mul_right w (Nat.succ_le_of_lt h)
  rwa [Nat.succ_mul] at hle

/-- Two loops, one inside the other. -/
theorem foldlM_nested {β ι κ : Type*} (xs : List ι) (ys : List κ) (f : β → ι → κ → Option β)
    (b : β) :
    xs.foldlM (fun b x => ys.foldlM (fun b y => f b x y) b) b =
      (xs.flatMap fun x => ys.map fun y => (x, y)).foldlM (fun b z => f b z.1 z.2) b := by
  induction xs generalizing b with
  | nil => rfl
  | cons x xs ih =>
      rw [List.foldlM_cons, List.flatMap_cons, List.foldlM_append, List.foldlM_map]
      simp only [ih]

/-- A run of copies: every cell it reaches holds its source, and the rest stays. -/
theorem foldlM_copyCell {ι : Type*} {base w n : ℕ} (hw : 0 < w) {src dst : List α}
    (hsrc : base + n * w ≤ src.length) (hdst : base + n * w ≤ dst.length) (target source : ι → ℕ)
    (g : ℕ → ℕ) (xs : List ι)
    (hcells : ∀ x ∈ xs, target x < n ∧ source x < n ∧ g (target x) = source x) :
    ∃ out, xs.foldlM (fun buf x => copyCell base w src buf (target x) (source x)) dst = some out ∧
      out.length = dst.length ∧
      ∀ p, out[p]? = if base ≤ p ∧ (p - base) / w ∈ xs.map target then
        src[base + g ((p - base) / w) * w + (p - base) % w]? else dst[p]? := by
  induction xs generalizing dst with
  | nil => exact ⟨dst, rfl, rfl, fun p => by simp⟩
  | cons x xs ih =>
      obtain ⟨htarget, hsource, hg⟩ := hcells x List.mem_cons_self
      have hi := cell_le w htarget
      have hj := cell_le w hsource
      obtain ⟨buf, hcopy, hlength, hbuf⟩ : ∃ buf,
          copyCell base w src dst (target x) (source x) = some buf ∧ buf.length = dst.length ∧
            ∀ p, buf[p]? = if base + target x * w ≤ p ∧ p < base + target x * w + w then
              src[base + source x * w + (p - (base + target x * w))]? else dst[p]? :=
        memcpy_inside dst src (by omega) (by omega)
      obtain ⟨out, hrun, hlength', hout⟩ := @ih buf (by omega) fun y hy =>
        hcells y (List.mem_cons_of_mem x hy)
      refine ⟨out, ?_, hlength'.trans hlength, fun p => ?_⟩
      · rw [List.foldlM_cons, hcopy]
        exact hrun
      · rw [hout, hbuf, List.map_cons]
        by_cases hlater : base ≤ p ∧ (p - base) / w ∈ xs.map target
        · rw [if_pos hlater, if_pos ⟨hlater.1, List.mem_cons_of_mem _ hlater.2⟩]
        · rw [if_neg hlater]
          have hdiv := Nat.div_add_mod (p - base) w
          have hmod := Nat.mod_lt (p - base) hw
          by_cases hhere : base ≤ p ∧ (p - base) / w = target x
          · -- the cell written first
            have hat : p = base + target x * w + (p - base) % w := by
              rw [hhere.2, Nat.mul_comm] at hdiv
              omega
            rw [if_pos (by omega), if_pos ⟨hhere.1, by rw [hhere.2]; exact List.mem_cons_self⟩,
              hhere.2, hg]
            congr 1
            omega
          · have hoff : ¬(base + target x * w ≤ p ∧ p < base + target x * w + w) := by
              rintro ⟨hle, hlt⟩
              apply hhere
              obtain ⟨k, rfl⟩ := Nat.exists_eq_add_of_le hle
              exact ⟨by omega, (cell_at (target x) (by omega)).1⟩
            rw [if_neg hoff, if_neg]
            rintro ⟨hle, hmem⟩
            rcases List.mem_cons.mp hmem with heq | hmem
            · exact hhere ⟨hle, heq⟩
            · exact hlater ⟨hle, hmem⟩

/-- `out` is `src` with cell `g i` at place `i`, behind the same header. -/
structure Rearranged (base w n : ℕ) (g : ℕ → ℕ) (src out : List α) : Prop where
  length : out.length = src.length
  header : ∀ p < base, out[p]? = src[p]?
  cells : ∀ i < n, ∀ k < w, out[base + i * w + k]? = src[base + g i * w + k]?

/-- Rearrangements that undo each other on the cell numbers. -/
theorem Rearranged.inverse {base w n : ℕ} {g g' : ℕ → ℕ} {src out src' : List α}
    (h : Rearranged base w n g src out) (h' : Rearranged base w n g' out src')
    (hinto : ∀ i < n, g' i < n) (hinverse : ∀ i < n, g (g' i) = i)
    (hlength : src.length = base + n * w) : src' = src := by
  refine List.ext_getElem? fun p => ?_
  rcases Nat.lt_or_ge p base with hlt | hge
  · rw [h'.header p hlt, h.header p hlt]
  · rcases Nat.lt_or_ge p src.length with hin | hout
    · have hw : 0 < w := by
        by_contra hzero
        rw [Nat.le_zero.mp (Nat.not_lt.mp hzero), Nat.mul_zero] at hlength
        omega
      have hdiv := Nat.div_add_mod (p - base) w
      have hmod := Nat.mod_lt (p - base) hw
      have hcell : (p - base) / w < n := Nat.div_lt_of_lt_mul (by rw [Nat.mul_comm]; omega)
      have hat : p = base + (p - base) / w * w + (p - base) % w := by
        rw [Nat.mul_comm] at hdiv
        omega
      rw [hat, h'.cells _ hcell _ hmod, h.cells _ (hinto _ hcell) _ hmod, hinverse _ hcell]
    · rw [List.getElem?_eq_none hout, List.getElem?_eq_none]
      rw [h'.length, h.length]
      exact hout

end Lib
