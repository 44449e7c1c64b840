/-
# `Lib.CString` — strings and byte ranges in a flat memory

A memory is a function from addresses to bytes, so a read past a buffer is a
read of what happens to lie there.  `CStr` is a string without its terminator;
`bytesAt` and `writeBytes` are the range read and write, `strncmpEq` and
`strncpy` the two library calls as far as their callers use them.
-/
import BladeRF.Lib.Bytes
import Mathlib.Data.List.Basic
import Mathlib.Data.List.TakeWhile

namespace Lib

abbrev Memory := ℕ → BitVec 8

/-- The characters of a C string, none of which is the terminator. -/
structure CStr where
  chars : List (BitVec 8)
  noNul : 0 ∉ chars
  deriving DecidableEq

namespace CStr

def length (s : CStr) : ℕ := s.chars.length

theorem zero_notMem_takeWhile (bs : List (BitVec 8)) : 0 ∉ bs.takeWhile (· ≠ 0) := fun h =>
  absurd (List.mem_takeWhile_imp h) (by decide)

/-- The string at the front of a buffer. -/
def ofBytes (bs : List (BitVec 8)) : CStr := ⟨bs.takeWhile (· ≠ 0), zero_notMem_takeWhile bs⟩

theorem ofBytes_chars {bs : List (BitVec 8)} (h : 0 ∉ bs) : (ofBytes bs).chars = bs :=
  List.takeWhile_eq_self_iff.mpr fun _ hb => decide_eq_true fun he => h (he ▸ hb)

/-- `s` is a prefix of `t`. -/
def IsPrefix (s t : CStr) : Prop := s.chars <+: t.chars

instance (s t : CStr) : Decidable (IsPrefix s t) :=
  inferInstanceAs (Decidable (s.chars <+: t.chars))

end CStr

/-- The `n` bytes from `addr` on. -/
def bytesAt (m : Memory) (addr n : ℕ) : List (BitVec 8) :=
  (List.range n).map fun i => m (addr + i)

/-- Store a list of bytes from `addr` on. -/
def writeBytes (m : Memory) (addr : ℕ) (bs : List (BitVec 8)) : Memory := fun i =>
  if addr ≤ i then (bs[i - addr]?).getD (m i) else m i

/-- `strncmp(src, s, strlen(s)) == 0`. -/
def strncmpEq (m : Memory) (src : ℕ) (s : CStr) : Bool :=
  bytesAt m src s.length = s.chars

/-- The bytes `strncpy(dst, src, n)` stores: up to the terminator, then zeros. -/
def strncpy (m : Memory) (src n : ℕ) : List (BitVec 8) :=
  let str := (bytesAt m src n).takeWhile (· ≠ 0)
  str ++ List.replicate (n - str.length) 0

@[simp] theorem length_bytesAt (m : Memory) (addr n : ℕ) : (bytesAt m addr n).length = n := by
  simp [bytesAt]

theorem getElem_bytesAt {m : Memory} {addr n i : ℕ} (h : i < (bytesAt m addr n).length) :
    (bytesAt m addr n)[i] = m (addr + i) := by
  simp [bytesAt]

theorem bytesAt_add (m : Memory) (addr n k : ℕ) :
    bytesAt m addr (n + k) = bytesAt m addr n ++ bytesAt m (addr + n) k := by
  unfold bytesAt
  rw [List.range_add, List.map_append, List.map_map]
  simp [Function.comp_def, Nat.add_assoc]

/-- A range that holds two lists holds each of them. -/
theorem bytesAt_append {m : Memory} {addr : ℕ} {bs cs : List (BitVec 8)}
    (h : bytesAt m addr (bs.length + cs.length) = bs ++ cs) :
    bytesAt m addr bs.length = bs ∧ bytesAt m (addr + bs.length) cs.length = cs := by
  rw [bytesAt_add] at h
  exact List.append_inj h (by simp)

theorem bytesAt_congr {m m' : Memory} {addr n : ℕ}
    (h : ∀ i, addr ≤ i → i < addr + n → m i = m' i) : bytesAt m addr n = bytesAt m' addr n := by
  refine List.map_congr_left fun i hi => ?_
  have hlt := List.mem_range.mp hi
  exact h _ (by omega) (by omega)

/-- A prefix of a range. -/
theorem bytesAt_take (m : Memory) (addr : ℕ) {n k : ℕ} (h : k ≤ n) :
    bytesAt m addr k = (bytesAt m addr n).take k := by
  obtain ⟨d, rfl⟩ := Nat.exists_eq_add_of_le h
  rw [bytesAt_add, List.take_left' (by simp)]

theorem writeBytes_lt {m : Memory} {addr i : ℕ} {bs : List (BitVec 8)} (h : i < addr) :
    writeBytes m addr bs i = m i := by
  simp [writeBytes, Nat.not_le.mpr h]

theorem writeBytes_ge {m : Memory} {addr i : ℕ} {bs : List (BitVec 8)}
    (h : addr + bs.length ≤ i) : writeBytes m addr bs i = m i := by
  have hnone : bs[i - addr]? = none := List.getElem?_eq_none (by omega)
  simp [writeBytes, hnone]

/-- Two stores one behind the other. -/
theorem writeBytes_append (m : Memory) (addr : ℕ) (bs cs : List (BitVec 8)) :
    writeBytes (writeBytes m addr bs) (addr + bs.length) cs = writeBytes m addr (bs ++ cs) := by
  funext i
  rcases Nat.lt_or_ge i addr with hlt | hge
  · rw [writeBytes_lt (by omega), writeBytes_lt hlt, writeBytes_lt hlt]
  · rcases Nat.lt_or_ge i (addr + bs.length) with hin | hout
    · have hidx : i - addr < bs.length := by omega
      rw [writeBytes_lt hin]
      simp only [writeBytes, if_pos hge, List.getElem?_append_left hidx]
    · rw [writeBytes, if_pos hout, writeBytes_ge hout]
      simp only [writeBytes, if_pos hge]
      rw [List.getElem?_append_right (by omega), Nat.sub_sub]

/-- What was stored is read back. -/
theorem bytesAt_writeBytes (m : Memory) (addr : ℕ) (bs : List (BitVec 8)) :
    bytesAt (writeBytes m addr bs) addr bs.length = bs := by
  refine List.ext_getElem (by simp) fun i h1 h2 => ?_
  rw [getElem_bytesAt]
  simp [writeBytes, List.getElem?_eq_getElem h2]

/-- A range that holds a string without a terminator is copied as it is. -/
theorem strncpy_eq {m : Memory} {src : ℕ} {cs : List (BitVec 8)} (hnul : 0 ∉ cs)
    (h : bytesAt m src cs.length = cs) : strncpy m src cs.length = cs := by
  have htake : cs.takeWhile (· ≠ 0) = cs := by
    rw [List.takeWhile_eq_self_iff]
    intro b hb
    rw [decide_eq_true_eq]
    rintro rfl
    exact hnul hb
  unfold strncpy
  dsimp only
  rw [h, htake, Nat.sub_self, List.replicate_zero, List.append_nil]

/-! ## Inside a block

Here the bytes up to the end of a block are all there is to read, and a read past
them has no outcome. -/

/-- `strncmp(src, s, strlen(s)) == 0` -/
def strncmpIn : List (BitVec 8) → List (BitVec 8) → Option Bool
  | _, [] => some true
  | [], _ :: _ => none
  | b :: bs, k :: ks => if b = k then strncmpIn bs ks else some false

/-- The bytes `strncpy(dst, src, n)` stores. -/
def strncpyIn : List (BitVec 8) → ℕ → Option (List (BitVec 8))
  | _, 0 => some []
  | [], _ + 1 => none
  | b :: bs, n + 1 =>
      if b = 0 then some (List.replicate (n + 1) 0) else (strncpyIn bs n).map fun cs => b :: cs

section

variable {bs ks cs : List (BitVec 8)} {n : ℕ}

theorem strncmpIn_eq_true : strncmpIn bs ks = some true ↔ ks <+: bs := by
  induction ks generalizing bs with
  | nil => simp [strncmpIn]
  | cons k ks ih =>
      cases bs with
      | nil => simp [strncmpIn]
      | cons b bs =>
          rw [strncmpIn, List.cons_prefix_cons]
          split
          · rename_i heq
            rw [ih]
            exact ⟨fun h => ⟨heq.symm, h⟩, fun h => h.2⟩
          · rename_i hne
            exact ⟨fun h => (by cases h), fun h => absurd h.1.symm hne⟩

/-- The comparison runs over the end if the block is the front of the string. -/
theorem strncmpIn_eq_none : strncmpIn bs ks = none ↔ bs <+: ks ∧ bs.length < ks.length := by
  induction ks generalizing bs with
  | nil => simp [strncmpIn]
  | cons k ks ih =>
      cases bs with
      | nil => simp [strncmpIn]
      | cons b bs =>
          rw [strncmpIn, List.cons_prefix_cons, List.length_cons, List.length_cons]
          split
          · rename_i heq
            rw [ih]
            exact ⟨fun h => ⟨⟨heq, h.1⟩, by omega⟩, fun h => ⟨h.1.2, by omega⟩⟩
          · rename_i hne
            exact ⟨fun h => (by cases h), fun h => absurd h.1.1 hne⟩

/-- A copy runs over the end if there is neither a terminator nor room. -/
theorem strncpyIn_eq_none : strncpyIn bs n = none ↔ 0 ∉ bs ∧ bs.length < n := by
  induction n generalizing bs with
  | zero => simp [strncpyIn]
  | succ n ih =>
      cases bs with
      | nil => simp [strncpyIn]
      | cons b bs =>
          rw [strncpyIn, List.length_cons]
          split
          · rename_i heq
            exact ⟨fun h => (by cases h), fun h => absurd (List.mem_cons.mpr (.inl heq.symm)) h.1⟩
          · rename_i hne
            rw [Option.map_eq_none_iff, ih, List.mem_cons, not_or]
            exact ⟨fun h => ⟨⟨fun he => hne he.symm, h.1⟩, by omega⟩, fun h => ⟨h.1.2, by omega⟩⟩

/-- The string that a copy stores. -/
theorem takeWhile_strncpyIn (h : strncpyIn bs n = some cs) :
    cs.takeWhile (· ≠ 0) = (bs.take n).takeWhile (· ≠ 0) := by
  induction n generalizing bs cs with
  | zero =>
      rw [strncpyIn] at h
      cases h
      rfl
  | succ n ih =>
      cases bs with
      | nil => cases h
      | cons b bs =>
          rw [strncpyIn] at h
          split at h
          · rename_i heq
            cases h
            rw [heq, List.replicate_succ]
            rfl
          · rename_i hne
            obtain ⟨cs', hcs, rfl⟩ := Option.map_eq_some_iff.mp h
            rw [List.take_succ_cons, List.takeWhile_cons_of_pos (by simpa using hne),
              List.takeWhile_cons_of_pos (by simpa using hne), ih hcs]

end

end Lib
