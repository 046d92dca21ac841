import Mathlib.Data.List.Basic
import Mathlib.Tactic.Common

/-!
# Lists cut into parts

`chunks n l` cuts a list into parts of `n` elements, of which the last may be shorter. It is
undone by `List.flatten`, and undoes it for lists of `n` elements each.
-/

universe u

variable {α : Type u} {n : ℕ} {part l : List α} {parts : List (List α)}

/-- The parts of `n` elements of a list, from its start. -/
def chunks (n : ℕ) (l : List α) : List (List α) :=
  (List.range ((l.length + n - 1) / n)).map fun k => (l.drop (k * n)).take n

/-- The first part is cut off first. -/
theorem chunks_append (hn : 0 < n) (hpart : part.length = n) :
    chunks n (part ++ l) = part :: chunks n l := by
  have hcount : ((part ++ l).length + n - 1) / n = (l.length + n - 1) / n + 1 := by
    rw [List.length_append, hpart, ← Nat.add_div_right _ hn]
    congr 1
    omega
  rw [chunks, hcount, List.range_succ_eq_map, List.map_cons, List.map_map, Nat.zero_mul,
    List.drop_zero, ← hpart, List.take_left]
  refine congrArg (List.cons part) (List.map_congr_left fun k _ => ?_)
  have hshift : (k.succ * part.length) = part.length + k * part.length := by
    rw [Nat.succ_mul, Nat.add_comm]
  rw [Function.comp_apply, hshift, ← List.drop_drop, List.drop_left]

theorem chunks_nil (hn : 0 < n) : chunks n ([] : List α) = [] := by
  have hcount : (([] : List α).length + n - 1) / n = 0 := by
    rw [List.length_nil]
    exact Nat.div_eq_of_lt (by omega)
  rw [chunks, hcount]
  rfl

/-- What is left after the first part is cut likewise. -/
theorem chunks_of_ne_nil (hn : 0 < n) (hl : l ≠ []) :
    chunks n l = l.take n :: chunks n (l.drop n) := by
  have hlength := List.length_pos_iff.2 hl
  have hcount : (l.length + n - 1) / n = ((l.drop n).length + n - 1) / n + 1 := by
    rw [List.length_drop]
    rcases Nat.lt_or_ge l.length n with hlt | hge
    · have hnone : (l.length - n + n - 1) / n = 0 := Nat.div_eq_of_lt (by omega)
      have hone : (l.length + n - 1) / n = 1 := by
        rw [Nat.div_eq_iff hn]
        omega
      rw [hnone, hone]
    · rw [← Nat.add_div_right _ hn]
      congr 1
      omega
  rw [chunks, hcount, List.range_succ_eq_map, List.map_cons, List.map_map, Nat.zero_mul,
    List.drop_zero]
  refine congrArg (List.cons _) (List.map_congr_left fun k _ => ?_)
  rw [Function.comp_apply, List.drop_drop, Nat.succ_mul, Nat.add_comm]

/-- Parts of the same length are found again. -/
theorem chunks_flatten (hn : 0 < n) (hparts : ∀ part ∈ parts, part.length = n) :
    chunks n parts.flatten = parts := by
  induction parts with
  | nil => exact chunks_nil hn
  | cons part parts ih =>
    rw [List.forall_mem_cons] at hparts
    rw [List.flatten_cons, chunks_append hn hparts.1, ih hparts.2]

/-- Parts of the same length make up a list of so many elements. -/
theorem length_flatten_of_length (hparts : ∀ part ∈ parts, part.length = n) :
    parts.flatten.length = parts.length * n := by
  induction parts with
  | nil => rw [List.flatten_nil, List.length_nil, List.length_nil, Nat.zero_mul]
  | cons part parts ih =>
    rw [List.forall_mem_cons] at hparts
    rw [List.flatten_cons, List.length_append, hparts.1, ih hparts.2, List.length_cons,
      Nat.succ_mul, Nat.add_comm]

/-- The elements of parts of the same length. -/
theorem getElem?_flatten_of_length {j : ℕ} (hparts : ∀ part ∈ parts, part.length = n) (hj : j < n)
    (k : ℕ) : parts.flatten[k * n + j]? = parts[k]?.bind (·[j]?) := by
  induction parts generalizing k with
  | nil => rfl
  | cons part parts ih =>
    rw [List.forall_mem_cons] at hparts
    rw [List.flatten_cons]
    cases k with
    | zero =>
      rw [Nat.zero_mul, Nat.zero_add, List.getElem?_append_left (hparts.1.symm ▸ hj)]
      rfl
    | succ k =>
      have hindex : (k + 1) * n + j = part.length + (k * n + j) := by
        rw [hparts.1, Nat.succ_mul]
        omega
      rw [hindex, List.getElem?_append_right (Nat.le_add_right _ _), Nat.add_sub_cancel_left,
        ih hparts.2, List.getElem?_cons_succ]

/-- A list is its parts, one after the other. -/
theorem exists_chunks {k : ℕ} (hl : l.length = k * n) :
    ∃ parts : List (List α), parts.length = k ∧ (∀ part ∈ parts, part.length = n) ∧
      l = parts.flatten := by
  induction k generalizing l with
  | zero =>
    rw [Nat.zero_mul, List.length_eq_zero_iff] at hl
    exact ⟨[], rfl, nofun, hl⟩
  | succ k ih =>
    rw [Nat.succ_mul] at hl
    obtain ⟨parts, hlength, hparts, hdrop⟩ := @ih (l.drop n) (by rw [List.length_drop]; omega)
    refine ⟨l.take n :: parts, by rw [List.length_cons, hlength], ?_, ?_⟩
    · rw [List.forall_mem_cons]
      exact ⟨by rw [List.length_take]; omega, hparts⟩
    · rw [List.flatten_cons, ← hdrop, List.take_append_drop]

theorem flatten_chunks (hn : 0 < n) (l : List α) : (chunks n l).flatten = l := by
  induction hlength : l.length using Nat.strongRecOn generalizing l with
  | ind length ih =>
    by_cases hl : l = []
    · rw [hl, chunks_nil hn]
      rfl
    · have hdrop : (l.drop n).length < length := by
        have hpos := List.length_pos_iff.2 hl
        rw [List.length_drop]
        omega
      rw [chunks_of_ne_nil hn hl, List.flatten_cons, ih _ hdrop _ rfl, List.take_append_drop]

/-- No part is empty. -/
theorem ne_nil_of_mem_chunks (hn : 0 < n) (hpart : part ∈ chunks n l) : part ≠ [] := by
  rw [chunks, List.mem_map] at hpart
  obtain ⟨k, hk, rfl⟩ := hpart
  have hlt : k * n < l.length := by
    have hmul := (Nat.le_div_iff_mul_le hn).1 (Nat.succ_le_of_lt (List.mem_range.1 hk))
    rw [Nat.succ_mul] at hmul
    omega
  rw [Ne, ← List.length_eq_zero_iff, List.length_take, List.length_drop]
  omega

theorem length_chunks (hn : 0 < n) {k : ℕ} (hl : l.length = k * n) :
    (chunks n l).length = k ∧ ∀ part ∈ chunks n l, part.length = n := by
  obtain ⟨parts, hlength, hparts, rfl⟩ := exists_chunks hl
  rw [chunks_flatten hn hparts]
  exact ⟨hlength, hparts⟩
