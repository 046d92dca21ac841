import Admc.Lib.KeepFirst
import Mathlib.Data.List.Infix

/-!
# Ancestors

A place in a tree is the list of the steps from it up to the root, so that its ancestors are
the suffixes of this list. The places from below one of its ancestors down to it (`pathTo`), for
several places one after the other, come after their ancestors (`grounded_flatMap_pathTo`).
-/

namespace Ancestry

variable {α : Type*} {base p place : List α}

/-- The places below one, down to the one that such steps lead to. -/
def chain (base : List α) : List α → List (List α)
  | [] => []
  | a :: p => chain base p ++ [a :: (p ++ base)]

theorem mem_chain : place ∈ chain base p ↔
    place <:+ p ++ base ∧ base <:+ place ∧ place ≠ base := by
  induction p with
  | nil =>
    refine iff_of_false List.not_mem_nil fun ⟨h, h', hne⟩ => hne ?_
    exact h.eq_of_length (Nat.le_antisymm h.length_le h'.length_le)
  | cons a p ih =>
    rw [chain, List.mem_append, List.mem_singleton, ih, List.cons_append, List.suffix_cons_iff]
    constructor
    · rintro (⟨h, h', hne⟩ | rfl)
      · exact ⟨.inr h, h', hne⟩
      · refine ⟨.inl rfl, List.suffix_append (a :: p) base, fun h => ?_⟩
        exact absurd (congrArg List.length h) (by simp; omega)
    · rintro ⟨rfl | h, h', hne⟩
      · exact .inr rfl
      · exact .inl ⟨h, h', hne⟩

theorem chain_concat (base p : List α) (a : α) :
    chain base (p ++ [a]) = (a :: base) :: chain (a :: base) p := by
  induction p with
  | nil => rfl
  | cons b p ih =>
    rw [List.cons_append, chain, ih, chain, List.append_assoc]
    rfl

/-- A place is between another one and one that is below it. -/
structure Between (base place place' : List α) : Prop where
  below : base <:+ place
  ne_base : place ≠ base
  above : place <:+ place'
  ne : place ≠ place'

theorem grounded_chain (done : List (List α)) :
    List.Grounded (Between base) done (chain base p) := by
  induction p with
  | nil => trivial
  | cons a p ih =>
    refine ih.append ⟨fun place h => List.mem_append_right _ (mem_chain.2 ?_), trivial⟩
    rcases List.suffix_cons_iff.1 h.above with rfl | habove
    · exact absurd rfl h.ne
    · exact ⟨habove, h.below, h.ne_base⟩

variable [DecidableEq α]

/-- The places below one, down to another one, if this is below it. -/
def pathTo (base place : List α) : List (List α) :=
  if base <:+ place then chain base (place.take (place.length - base.length)) else []

theorem pathTo_append (p base : List α) : pathTo base (p ++ base) = chain base p := by
  have htake : (p ++ base).take ((p ++ base).length - base.length) = p := by
    rw [List.length_append, Nat.add_sub_cancel, List.take_left]
  rw [pathTo, if_pos (List.suffix_append p base), htake]

theorem mem_pathTo {place' : List α} :
    place ∈ pathTo base place' ↔ place <:+ place' ∧ base <:+ place ∧ place ≠ base := by
  by_cases hbase : base <:+ place'
  · rcases hbase with ⟨p, rfl⟩
    rw [pathTo_append, mem_chain]
  · rw [pathTo, if_neg hbase]
    exact iff_of_false List.not_mem_nil fun h => hbase (h.2.1.trans h.1)

theorem grounded_pathTo (base place : List α) (done : List (List α)) :
    List.Grounded (Between base) done (pathTo base place) := by
  rw [pathTo]
  split_ifs
  · exact grounded_chain done
  · trivial

/-- The paths to several places. -/
theorem grounded_flatMap_pathTo (base : List α) (places done : List (List α)) :
    List.Grounded (Between base) done (places.flatMap (pathTo base)) := by
  induction places generalizing done with
  | nil => trivial
  | cons place places ih => exact (grounded_pathTo base place done).append (ih _)

end Ancestry
