import Mathlib.Data.List.Basic
import Mathlib.Tactic.Common

/-!
# Computations that are stopped

A computation that is stopped by a failing check, beside one that goes on regardless. The first is
guarded by a condition if it comes to an end just when the condition holds, and then with the
result of the second (`Guarded`).

Conditions are put together as the computations are, by the rules for sequences and loops.
-/

universe u v

variable {α β : Type u} {γ : Type v} {x : Option α} {a : α} {p p' : Prop}

/-- The computation comes to an end just when the condition holds, with the value. -/
structure Guarded (x : Option α) (p : Prop) (a : α) : Prop where
  eq_some : p → x = some a
  eq_none : ¬p → x = none

namespace Guarded

theorem isSome_iff (h : Guarded x p a) : x.isSome = true ↔ p := by
  by_cases hp : p
  · exact iff_of_true (by rw [h.eq_some hp]; rfl) hp
  · exact iff_of_false (by rw [h.eq_none hp]; exact Bool.false_ne_true) hp

theorem congr (h : Guarded x p a) (hp : p ↔ p') : Guarded x p' a :=
  ⟨fun hp' => h.eq_some (hp.2 hp'), fun hp' => h.eq_none (mt hp.1 hp')⟩

theorem pure (a : α) : Guarded (some a) True a := ⟨fun _ => rfl, fun h => absurd trivial h⟩

theorem map (h : Guarded x p a) (f : α → β) : Guarded (x.map f) p (f a) :=
  ⟨fun hp => by rw [h.eq_some hp]; rfl, fun hp => by rw [h.eq_none hp]; rfl⟩

theorem bind {f : α → Option β} {b : β} {q : Prop} (h : Guarded x p a)
    (hf : p → Guarded (f a) q b) : Guarded (x >>= f) (p ∧ q) b where
  eq_some hpq := by
    rw [h.eq_some hpq.1]
    exact (hf hpq.1).eq_some hpq.2
  eq_none hpq := by
    by_cases hp : p
    · rw [h.eq_some hp]
      exact (hf hp).eq_none fun hq => hpq ⟨hp, hq⟩
    · rw [h.eq_none hp]
      rfl

/-- An element that is looked up in a list. -/
theorem getElem? (l : List α) (i : ℕ) (default : α) :
    Guarded l[i]? (i < l.length) (l.getD i default) where
  eq_some h := by
    rw [List.getD_eq_getElem?_getD, List.getElem?_eq_getElem h]
    rfl
  eq_none h := List.getElem?_eq_none (Nat.le_of_not_lt h)

theorem foldlM {f : α → γ → Option α} {g : α → γ → α} {P : γ → Prop} {l : List γ}
    (h : ∀ c ∈ l, ∀ a, Guarded (f a c) (P c) (g a c)) (a : α) :
    Guarded (l.foldlM f a) (∀ c ∈ l, P c) (l.foldl g a) := by
  induction l generalizing a with
  | nil => exact (pure a).congr (iff_of_true trivial nofun)
  | cons c l ih =>
    rw [List.foldlM_cons]
    refine ((h c List.mem_cons_self a).bind fun _ =>
      ih (fun c' hc' => h c' (List.mem_cons_of_mem c hc')) (g a c)).congr ?_
    rw [List.forall_mem_cons]

theorem mapM {f : γ → Option α} {g : γ → α} {P : γ → Prop} {l : List γ}
    (h : ∀ c ∈ l, Guarded (f c) (P c) (g c)) : Guarded (l.mapM f) (∀ c ∈ l, P c) (l.map g) := by
  induction l with
  | nil => exact (pure []).congr (iff_of_true trivial nofun)
  | cons c l ih =>
    rw [List.mapM_cons]
    have hrest := ih fun c' hc' => h c' (List.mem_cons_of_mem c hc')
    refine ((h c List.mem_cons_self).bind fun _ => hrest.bind fun _ =>
      pure (g c :: l.map g)).congr ?_
    rw [List.forall_mem_cons, and_true]

end Guarded
