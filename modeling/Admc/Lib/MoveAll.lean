import Admc.Lib.Move
import Mathlib.Data.List.Sublists

/-!
# Dropping elements of a list

Several elements of a list are dropped at a position of it: they stand there one
after another, between the others that were before and after the position
(`List.dropped`). They may be moved there one by one, each from the position that
it has had at first to the next target (`List.moveUpTo`). This is right

* if the elements are all from the position on, and in order
  (`moveUpTo_eq_dropped`, with the converse `sublist_drop_of_moveUpTo`);
* at the end of the list, if they are in reverse order (`moveUpTo_eq_dropped_length`,
  with the converse `reverse_sublist_of_moveUpTo`);

and never for elements in order of which some are before the position
(`moveUpTo_ne_dropped`).
-/

universe u

namespace List

variable {α : Type u}

variable {l : List α} {m : ℕ}

/-! ## Where elements go -/

/-- The position of an element after another one is moved, or itself. -/
def movedTo (i j q : ℕ) : ℕ :=
  if q = i then j else if i < q ∧ q ≤ j then q - 1 else if j ≤ q ∧ q < i then q + 1 else q

variable [DecidableEq α] {ds pre r x y : List α} {f : α → ℕ}

/-! ## When it is right -/

section
variable {s t : List α} {a b : α}

end

/-- The positions are beyond the targets. -/
def Above : ℕ → List ℕ → Prop
  | _, [] => True
  | j, i :: is => j < i ∧ Above (j + 1) is

theorem Above.lt {j : ℕ} {is : List ℕ} (h : Above j is) : ∀ i ∈ is, j < i := by
  induction is generalizing j with
  | nil => exact fun i hi => absurd hi not_mem_nil
  | cons i is ih =>
    rw [forall_mem_cons]
    exact ⟨h.1, fun i' hi' => Nat.lt_of_succ_lt (ih h.2 i' hi')⟩

variable {p : ℕ}

end List
