import Mathlib.Data.List.Iterate
import Mathlib.Data.List.Nodup
import Mathlib.Data.Nat.Find
import Mathlib.Logic.Function.Iterate

/-!
# The way up to a fixed point

A function is applied again and again until its value does not change any more (`Reaches`: the
number of steps up to the first fixed point). The values on the way are different ones
(`Reaches.nodup_iterate`).
-/

namespace FixedPoint

variable {α : Type*} {f : α → α} {a : α} {m n : ℕ}

/-- The first fixed point from `a` on is reached after `n` steps. -/
structure Reaches (f : α → α) (a : α) (n : ℕ) : Prop where
  fixed : f (f^[n] a) = f^[n] a
  first : ∀ m < n, f (f^[m] a) ≠ f^[m] a

theorem exists_reaches_iff : (∃ n, Reaches f a n) ↔ ∃ n, f (f^[n] a) = f^[n] a := by
  classical
  constructor
  · rintro ⟨n, h⟩
    exact ⟨n, h.fixed⟩
  · intro h
    exact ⟨Nat.find h, Nat.find_spec h, fun m hm => Nat.find_min h hm⟩

theorem reaches_zero : Reaches f a 0 ↔ f a = a :=
  ⟨fun h => h.fixed, fun h => ⟨h, fun m hm => absurd hm (Nat.not_lt_zero m)⟩⟩

theorem reaches_succ : Reaches f a (n + 1) ↔ f a ≠ a ∧ Reaches f (f a) n := by
  constructor
  · intro h
    exact ⟨h.first 0 n.succ_pos, h.fixed, fun m hm => h.first (m + 1) (Nat.succ_lt_succ hm)⟩
  · rintro ⟨hne, h⟩
    refine ⟨h.fixed, fun m hm => ?_⟩
    cases m with
    | zero => exact hne
    | succ m => exact h.first m (Nat.lt_of_succ_lt_succ hm)

/-- A value that comes again would be followed by the fixed point too early. -/
theorem Reaches.iterate_ne (h : Reaches f a n) {k : ℕ} (hk : m < k) (hkn : k ≤ n) :
    f^[m] a ≠ f^[k] a := by
  intro heq
  have hend : f^[n - k + m] a = f^[n] a := by
    calc f^[n - k + m] a = f^[n - k] (f^[k] a) := by rw [Function.iterate_add_apply, heq]
      _ = f^[n] a := by rw [← Function.iterate_add_apply, Nat.sub_add_cancel hkn]
  refine h.first (n - k + m) (by omega) ?_
  rw [hend, h.fixed]

theorem Reaches.nodup_iterate (h : Reaches f a n) : (List.iterate f a (n + 1)).Nodup := by
  rw [List.nodup_iff_injective_getElem]
  intro i j hij
  have hi := i.2
  have hj := j.2
  simp only [List.length_iterate] at hi hj
  simp only [List.getElem_iterate] at hij
  rcases lt_trichotomy i.1 j.1 with hlt | heq | hlt
  · exact absurd hij (h.iterate_ne hlt (by omega))
  · exact Fin.ext heq
  · exact absurd hij.symm (h.iterate_ne hlt (by omega))

end FixedPoint
