/-!
# Runs

The states that are reached by steps from a start. Each step is made by an action, which
may be taken in some states only.

`Run.invariant` is the rule for a property that holds at the start and that each step keeps.
-/

universe u v

/-- A state is reached from a start by actions that may be taken. -/
inductive Run {σ : Type u} {α : Type v} (start : σ → Prop) (allowed : σ → α → Prop)
    (step : σ → α → σ) : σ → Prop
  | start {s : σ} (h : start s) : Run start allowed step s
  | next {s : σ} {a : α} (h : Run start allowed step s) (ha : allowed s a) :
    Run start allowed step (step s a)

namespace Run

variable {σ : Type u} {α : Type v} {start : σ → Prop} {allowed : σ → α → Prop}
  {step : σ → α → σ} {s : σ}

/-- The rule of an invariant. -/
theorem invariant {Inv : σ → Prop} (hstart : ∀ s, start s → Inv s)
    (hstep : ∀ s a, Inv s → allowed s a → Inv (step s a)) (h : Run start allowed step s) :
    Inv s := by
  induction h with
  | start h => exact hstart _ h
  | next h ha ih => exact hstep _ _ ih ha

/-- More may be allowed. -/
theorem mono {allowed' : σ → α → Prop} (hallowed : ∀ s a, allowed s a → allowed' s a)
    (h : Run start allowed step s) : Run start allowed' step s := by
  induction h with
  | start h => exact .start h
  | next h ha ih => exact .next ih (hallowed _ _ ha)

end Run
