import Mathlib.Data.List.Pairwise
import Mathlib.Data.List.Sort
import Mathlib.Tactic.Common

/-!
# Sorting by a comparator coarser than its ties

A comparator handed to a sorting routine may break ties in a way that is not
even transitive, and still respect a linear order on *keys*: what it puts first
has the smaller key. Sorting by it sorts by the keys, whatever the ties.
-/

namespace List

variable {α β : Type*} [LinearOrder β] {r : α → α → Prop} [DecidableRel r] {key : α → β}

theorem pairwise_key_orderedInsert (hle : ∀ a b, r a b → key a ≤ key b)
    (hge : ∀ a b, ¬r a b → key b ≤ key a) (a : α) {l : List α}
    (h : l.Pairwise (key · ≤ key ·)) : (l.orderedInsert r a).Pairwise (key · ≤ key ·) := by
  induction l with
  | nil => exact pairwise_singleton _ a
  | cons b l ih =>
    rw [orderedInsert_cons]
    split_ifs with hab
    · refine pairwise_cons.2 ⟨fun c hc => ?_, h⟩
      rcases mem_cons.1 hc with rfl | hc
      · exact hle a c hab
      · exact (hle a b hab).trans (rel_of_pairwise_cons h hc)
    · refine pairwise_cons.2 ⟨fun c hc => ?_, ih h.of_cons⟩
      rcases mem_cons.1 ((perm_orderedInsert r a l).mem_iff.1 hc) with rfl | hc
      · exact hge c b hab
      · exact rel_of_pairwise_cons h hc

/-- Sorting by a comparator that respects the keys sorts by the keys. -/
theorem pairwise_key_insertionSort (hle : ∀ a b, r a b → key a ≤ key b)
    (hge : ∀ a b, ¬r a b → key b ≤ key a) (l : List α) :
    (l.insertionSort r).Pairwise (key · ≤ key ·) := by
  induction l with
  | nil => exact Pairwise.nil
  | cons a l ih => exact pairwise_key_orderedInsert hle hge a ih

/-- In a list sorted by `key` and by `key'`, an element of smaller `key` does not
    have a larger `key'`. -/
theorem Pairwise.le_of_lt {γ : Type*} [LinearOrder γ] {key' : α → γ} {l : List α}
    (h : l.Pairwise (key · ≤ key ·)) (h' : l.Pairwise (key' · ≤ key' ·)) {a b : α} (ha : a ∈ l)
    (hb : b ∈ l) (hab : key a < key b) : key' a ≤ key' b := by
  have h₁ : l.Pairwise fun x y => key x < key y → key' x ≤ key' y := by
    refine h'.imp ?_
    exact fun hxy _ => hxy
  have h₂ : l.Pairwise fun x y => key y < key x → key' y ≤ key' x := by
    refine h.imp ?_
    exact fun hxy hlt => absurd hlt (not_lt.2 hxy)
  exact h₁.forall_of_forall_of_flip (fun x _ hx => absurd hx (lt_irrefl _)) h₂ ha hb hab

end List
