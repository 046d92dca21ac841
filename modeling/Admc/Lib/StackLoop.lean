import Admc.Lib.Except
import Mathlib.Data.List.Nodup
import Mathlib.Data.List.Perm.Basic

/-!
# Loops over a stack

A loop that pops an element off a stack, changes a state, and pushes further
elements, until the stack is empty (`stackLoop`).

* `stackLoop_yields` is the rule for an invariant of the state, of the number of
  elements that have been popped, and of the stack. It also says that the loop ends,
  if the invariant bounds the number.
* If what is pushed for an element are its children in a tree, the loop comes to each
  element of the subtrees of the initial stack once, and to the parent of an element
  before the element itself: `stackLoop_tree_yields` is the rule for an invariant of
  the state and of the elements that have been popped.
-/

universe u v

variable {σ ι : Type u} {ε : Type v}

/-- Popping up to a number of elements off a stack: `body` gives the next state and what
    is pushed, the last one of which is popped first. The error `stuck` says that the
    stack has not become empty. -/
def stackLoop (stuck : ε) (body : σ → ι → Except ε (σ × List ι)) :
    ℕ → σ → List ι → Except ε σ
  | _, s, [] => .ok s
  | 0, _, _ :: _ => .error stuck
  | n + 1, s, i :: stack => do
    let (s, pushed) ← body s i
    stackLoop stuck body n s (pushed.reverse ++ stack)

section
variable {stuck : ε} {body : σ → ι → Except ε (σ × List ι)} {E : ε → Prop} {s : σ}

/-- The rule of a loop over a stack, of which at most `N` elements are popped. -/
theorem stackLoop_yields (Inv : σ → ℕ → List ι → Prop) {N : ℕ}
    (hbody : ∀ s m i stack, Inv s m (i :: stack) →
      (body s i).Yields E fun r => Inv r.1 (m + 1) (r.2.reverse ++ stack))
    (hbound : ∀ s m i stack, Inv s m (i :: stack) → m < N) {m n : ℕ} {stack : List ι}
    (hs : Inv s m stack) (hn : N ≤ m + n) :
    (stackLoop stuck body n s stack).Yields E fun s' => ∃ m, Inv s' m [] := by
  induction n generalizing s m stack with
  | zero =>
    cases stack with
    | nil => exact ⟨m, hs⟩
    | cons i stack => exact absurd (hbound s m i stack hs) (Nat.not_lt.2 hn)
  | succ n ih =>
    cases stack with
    | nil => exact ⟨m, hs⟩
    | cons i stack =>
      refine (hbody s m i stack hs).bind fun r hr => ih hr ?_
      omega

end

/-! ## Loops over trees -/

section
variable {stuck : ε} {body : σ → ι → Except ε (σ × List ι)} {kids : ι → List ι}
  {subtree : ι → List ι} {E : ε → Prop} {start : List ι}

/-- An element may be popped after others: it is new, in the subtrees of the initial stack,
    and its parent has been popped, unless it was in the initial stack. -/
structure PopsNext (kids subtree : ι → List ι) (start done : List ι) (i : ι) : Prop where
  not_mem : i ∉ done
  mem_subtree : i ∈ start.flatMap subtree
  parent : i ∈ start ∨ ∃ p ∈ done, i ∈ kids p

/-- What has been popped and the subtrees of the stack make up those of the initial stack,
    and the parents of what is in the stack have been popped. -/
structure CoversTree (kids subtree : ι → List ι) (start done stack : List ι) : Prop where
  perm : (done ++ stack.flatMap subtree).Perm (start.flatMap subtree)
  parent : ∀ i ∈ stack, i ∈ start ∨ ∃ p ∈ done, i ∈ kids p

namespace CoversTree

variable {done stack : List ι} {i : ι}

theorem popsNext (h : CoversTree kids subtree start done (i :: stack))
    (hsubtree : ∀ i, (subtree i).Perm (i :: (kids i).flatMap subtree))
    (hstart : (start.flatMap subtree).Nodup) : PopsNext kids subtree start done i := by
  have hi : i ∈ (i :: stack).flatMap subtree :=
    List.mem_flatMap.2 ⟨i, List.mem_cons_self, (hsubtree i).mem_iff.2 List.mem_cons_self⟩
  exact
    { not_mem := fun hdone =>
        List.disjoint_of_nodup_append (h.perm.nodup_iff.2 hstart) hdone hi
      mem_subtree := h.perm.mem_iff.1 (List.mem_append_right _ hi)
      parent := h.parent i List.mem_cons_self }

/-- The subtree of an element is the element, which is popped, and those of its children,
    which are pushed. -/
theorem step (h : CoversTree kids subtree start done (i :: stack))
    (hsubtree : ∀ i, (subtree i).Perm (i :: (kids i).flatMap subtree)) :
    CoversTree kids subtree start (done ++ [i]) ((kids i).reverse ++ stack) where
  perm := by
    have hstack : (((kids i).reverse ++ stack).flatMap subtree).Perm
        ((kids i).flatMap subtree ++ stack.flatMap subtree) := by
      rw [List.flatMap_append]
      exact ((List.reverse_perm _).flatMap_right _).append_right _
    refine .trans ?_ h.perm
    rw [List.append_assoc, List.flatMap_cons]
    exact ((hstack.cons i).trans ((hsubtree i).append_right _).symm).append_left done
  parent j hj := by
    obtain hj | hj := List.mem_append.1 hj
    · exact .inr ⟨i, List.mem_append_right _ List.mem_cons_self, List.mem_reverse.1 hj⟩
    · refine (h.parent j (List.mem_cons_of_mem _ hj)).imp_right ?_
      rintro ⟨p, hp, hkids⟩
      exact ⟨p, List.mem_append_left _ hp, hkids⟩

end CoversTree

/-- The rule of a loop over subtrees. -/
theorem stackLoop_tree_yields (Inv : σ → List ι → Prop)
    (hsubtree : ∀ i, (subtree i).Perm (i :: (kids i).flatMap subtree))
    (hbody : ∀ s done i, Inv s done → PopsNext kids subtree start done i →
      (body s i).Yields E fun r => r.2 = kids i ∧ Inv r.1 (done ++ [i]))
    (hstart : (start.flatMap subtree).Nodup) {s : σ} {n : ℕ} (hs : Inv s [])
    (hn : (start.flatMap subtree).length ≤ n) :
    (stackLoop stuck body n s start).Yields E fun s' =>
      ∃ done, Inv s' done ∧ done.Perm (start.flatMap subtree) := by
  refine (stackLoop_yields (fun s m stack => ∃ done, Inv s done ∧ done.length = m ∧
    CoversTree kids subtree start done stack) ?_ ?_
    ⟨[], hs, rfl, ⟨.refl _, fun _ h => .inl h⟩⟩ ((Nat.zero_add n).symm ▸ hn)).mono ?_
  · rintro s m i stack ⟨done, hinv, hm, hcovers⟩
    refine (hbody s done i hinv (hcovers.popsNext hsubtree hstart)).mono ?_
    rintro r ⟨hpushed, hinv⟩
    refine ⟨done ++ [i], hinv, by rw [List.length_append, hm, List.length_singleton], ?_⟩
    exact hpushed ▸ hcovers.step hsubtree
  · rintro s m i stack ⟨done, -, rfl, hcovers⟩
    have hlength := hcovers.perm.length_eq
    have hi := (hsubtree i).length_eq
    simp only [List.length_append, List.flatMap_cons, List.length_cons] at hlength hi
    omega
  · rintro s' ⟨-, done, hinv, -, hcovers⟩
    exact ⟨done, hinv, by simpa using hcovers.perm⟩

end
