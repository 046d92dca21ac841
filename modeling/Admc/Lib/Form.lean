import Admc.Lib.Run
import Mathlib.Logic.Function.Basic

/-!
# Forms

A form is loaded with an input, edited by its user, and loaded again with another input. Does
it then show the input, or also what has been there before? It should not matter whether it is
loaded anew (`Form.ShowsLoaded`); where it does, `Form.LoadsWhen` says when it does not, for the
states after any history.

* `Form.loadsWhen_of_invariant`, `Form.loadsWhen_of_constant`: the rules for a form, with what its
  loads and edits keep, or do not change;
* `Form.loadsWhen_always`: the rule for a form of which a load overwrites all that is seen;
* `Form.loadsWhen_pane`: forms beside each other.
-/

universe u

/-- A form for inputs `ι`. -/
structure Form (ι : Type u) where
  State : Type u
  /-- What the user can do. -/
  Edit : Type u
  /-- What is seen of a state. -/
  View : Type u
  new : State
  load : ι → State → State
  edit : Edit → State → State
  view : State → View

namespace Form

variable {ι : Type u}

section
variable (F : Form ι)

/-- A load or an edit. -/
def step (s : F.State) : ι ⊕ F.Edit → F.State
  | .inl i => F.load i s
  | .inr e => F.edit e s

/-- The states of a form after any loads and edits. -/
def Reached : F.State → Prop := Run (· = F.new) (fun _ _ => True) F.step

/-- Once loaded, the form shows what a new one would. -/
def ShowsLoaded (s : F.State) (i : ι) : Prop := F.view (F.load i s) = F.view (F.load i F.new)

/-- After any history, the form shows what it is loaded with exactly under a condition. -/
def LoadsWhen (cond : F.State → ι → Prop) : Prop :=
  ∀ s, F.Reached s → ∀ i, F.ShowsLoaded s i ↔ cond s i

end

variable {F : Form ι} {s : F.State} {cond : F.State → ι → Prop}

theorem reached_new : F.Reached F.new := .start rfl

theorem Reached.step (h : F.Reached s) (a : ι ⊕ F.Edit) : F.Reached (F.step s a) := .next h trivial

theorem Reached.load (h : F.Reached s) (i : ι) : F.Reached (F.load i s) := h.step (.inl i)

/-- The rule of an invariant. -/
theorem Reached.invariant (Inv : F.State → Prop) (hnew : Inv F.new)
    (hload : ∀ i s, Inv s → Inv (F.load i s)) (hedit : ∀ e s, Inv s → Inv (F.edit e s))
    (h : F.Reached s) : Inv s := by
  refine Run.invariant (fun s hs => ?_) (fun s a hs _ => ?_) h
  · rw [hs]
    exact hnew
  · cases a with
    | inl i => exact hload i s hs
    | inr e => exact hedit e s hs

/-- What nothing changes is as in a new form. -/
theorem Reached.constant {α : Type*} (part : F.State → α)
    (hload : ∀ i s, part (F.load i s) = part s) (hedit : ∀ e s, part (F.edit e s) = part s)
    (h : F.Reached s) : part s = part F.new :=
  h.invariant (fun s => part s = part F.new) rfl
    (fun i s hs => (hload i s).trans hs) (fun e s hs => (hedit e s).trans hs)

/-- A form with an invariant. -/
theorem loadsWhen_of_invariant (Inv : F.State → Prop) (hnew : Inv F.new)
    (hload : ∀ i s, Inv s → Inv (F.load i s)) (hedit : ∀ e s, Inv s → Inv (F.edit e s))
    (h : ∀ s, Inv s → ∀ i, F.ShowsLoaded s i ↔ cond s i) : F.LoadsWhen cond :=
  fun s hs i => h s (hs.invariant Inv hnew hload hedit) i

/-- A form with a part that nothing changes. -/
theorem loadsWhen_of_constant {α : Type*} (part : F.State → α)
    (hload : ∀ i s, part (F.load i s) = part s) (hedit : ∀ e s, part (F.edit e s) = part s)
    (h : ∀ s, part s = part F.new → ∀ i, F.ShowsLoaded s i ↔ cond s i) : F.LoadsWhen cond :=
  fun s hs i => h s (hs.constant part hload hedit) i

/-- A form of which a load overwrites all that is seen. -/
theorem loadsWhen_always (h : ∀ i s s', F.view (F.load i s) = F.view (F.load i s')) :
    F.LoadsWhen fun _ _ => True :=
  fun s _ i => iff_true_intro (h i s F.new)

/-! ## Forms beside each other -/

section
variable {κ : Type u} [DecidableEq κ] (G : κ → Form ι) (target : κ → ι → ι)

/-- Forms that are loaded together, each with its part of the input. The user edits them, or has
    one of them loaded with anything else. -/
def pane : Form ι where
  State := ∀ k, (G k).State
  Edit := Σ k, ι ⊕ (G k).Edit
  View := ∀ k, (G k).View
  new k := (G k).new
  load i s k := (G k).load (target k i) (s k)
  edit e s := Function.update s e.1 ((G e.1).step (s e.1) e.2)
  view s k := (G k).view (s k)

variable {G target}

/-- What happens to a pane happens to its forms. -/
theorem Reached.components {s : (pane G target).State} (h : (pane G target).Reached s) :
    ∀ k, (G k).Reached (s k) := by
  refine h.invariant (fun s : ∀ k, (G k).State => ∀ k, (G k).Reached (s k))
    (fun k => reached_new) (fun i s hs k => (hs k).load _) fun e s hs k => ?_
  -- what is done to one form leaves the others as they are
  by_cases hk : k = e.1
  · subst hk
    have hself : (pane G target).edit e s e.1 = (G e.1).step (s e.1) e.2 :=
      Function.update_self _ _ _
    rw [hself]
    exact (hs e.1).step e.2
  · have hother : (pane G target).edit e s k = s k := Function.update_of_ne hk _ _
    rw [hother]
    exact hs k

/-- A pane shows what it is loaded with exactly when all of its forms do. -/
theorem loadsWhen_pane {cond : ∀ k, (G k).State → ι → Prop} (h : ∀ k, (G k).LoadsWhen (cond k)) :
    (pane G target).LoadsWhen fun s i => ∀ k, cond k (s k) (target k i) := by
  intro s hs i
  have hview : (pane G target).ShowsLoaded s i ↔ ∀ k, (G k).ShowsLoaded (s k) (target k i) :=
    funext_iff
  rw [hview]
  exact forall_congr' fun k => h k (s k) (hs.components k) (target k i)

end

end Form
