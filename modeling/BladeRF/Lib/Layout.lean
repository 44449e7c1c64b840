/-
# `Lib.Layout` — a buffer as fields, one behind the other

A packer writes its fields one behind the other, and a reader walks over the
buffer with the widths it expects.  It finds the fields where its widths are
theirs, and what it finds always spells the buffer.  Numbers stand most
significant byte first.
-/
import BladeRF.Lib.Bytes

namespace Lib

/-- The `w` low bytes of `v`, most significant first. -/
def beBytes (w v : ℕ) : List (BitVec 8) := (leBytes w v).reverse

/-- The number a list of bytes spells, most significant first. -/
def beNat (bs : List (BitVec 8)) : ℕ := leNat bs.reverse

@[simp] theorem length_beBytes (w v : ℕ) : (beBytes w v).length = w := by
  rw [beBytes, List.length_reverse, length_leBytes]

/-- A number in a field of its own width. -/
theorem ofNat_beNat_beBytes {k w : ℕ} (h : 2 ^ k = 256 ^ w) (v : BitVec k) :
    BitVec.ofNat k (beNat (beBytes w v.toNat)) = v := by
  rw [beNat, beBytes, List.reverse_reverse, leNat_leBytes_of_lt (h ▸ v.isLt), BitVec.ofNat_toNat,
    BitVec.setWidth_eq]

theorem beBytes_beNat {k w : ℕ} (h : 2 ^ k = 256 ^ w) {bs : List (BitVec 8)} (hbs : bs.length = w) :
    beBytes w (BitVec.ofNat k (beNat bs)).toNat = bs := by
  have hlt := leNat_lt bs.reverse
  rw [List.length_reverse, hbs, ← h] at hlt
  rw [BitVec.toNat_ofNat, beNat, Nat.mod_eq_of_lt hlt, beBytes, ← hbs, ← List.length_reverse,
    leBytes_leNat, List.reverse_reverse]

section

variable {α : Type*}

/-- The fields of the widths `ws`, and what is behind them. -/
def cut : List ℕ → List α → List (List α)
  | [], l => [l]
  | w :: ws, l => l.take w :: cut ws (l.drop w)

theorem flatten_cut (ws : List ℕ) (l : List α) : (cut ws l).flatten = l := by
  induction ws generalizing l with
  | nil => exact List.append_nil l
  | cons w ws ih => rw [cut, List.flatten_cons, ih, List.take_append_drop]

theorem cut_flatten (fields : List (List α)) (rest : List α) :
    cut (fields.map List.length) (fields ++ [rest]).flatten = fields ++ [rest] := by
  induction fields with
  | nil => exact congrArg (fun l => [l]) (List.append_nil rest)
  | cons f fs ih =>
      rw [List.map_cons, List.cons_append, List.flatten_cons, cut, List.take_left, List.drop_left,
        ih]

theorem map_length_cut {ws : List ℕ} {l : List α} (h : ws.sum ≤ l.length) :
    (cut ws l).map List.length = ws ++ [l.length - ws.sum] := by
  induction ws generalizing l with
  | nil => rfl
  | cons w ws ih =>
      rw [List.sum_cons] at h
      have hrest : ws.sum ≤ (l.drop w).length := by
        rw [List.length_drop]
        omega
      rw [cut, List.map_cons, ih hrest, List.length_take, List.length_drop, List.sum_cons,
        Nat.min_eq_left (by omega), Nat.sub_sub, List.cons_append]

/-- A write of `xs` at `i`. -/
def overwrite (l : List α) (i : ℕ) (xs : List α) : List α :=
  l.take i ++ (xs ++ l.drop (i + xs.length))

theorem overwrite_field {pre mid post xs : List α} {i : ℕ} (hi : pre.length = i)
    (hmid : mid.length = xs.length) : overwrite (pre ++ (mid ++ post)) i xs = pre ++ (xs ++ post) := by
  rw [overwrite, ← hi, ← hmid, List.take_left, ← List.drop_drop, List.drop_left, List.drop_left]

/-- What was there before is written back. -/
theorem overwrite_back {l xs : List α} {i : ℕ} (h : i + xs.length ≤ l.length) :
    overwrite (overwrite l i xs) i ((l.drop i).take xs.length) = l := by
  obtain ⟨pre, mid, post, rfl, hpre, hmid⟩ : ∃ pre mid post, l = pre ++ (mid ++ post) ∧
      pre.length = i ∧ mid.length = xs.length := by
    refine ⟨l.take i, (l.drop i).take xs.length, (l.drop i).drop xs.length, ?_, ?_, ?_⟩
    · rw [List.take_append_drop, List.take_append_drop]
    · rw [List.length_take]
      omega
    · rw [List.length_take, List.length_drop]
      omega
  rw [overwrite_field hpre hmid, List.drop_left' hpre, List.take_left' hmid,
    overwrite_field hpre hmid.symm]

end

end Lib
