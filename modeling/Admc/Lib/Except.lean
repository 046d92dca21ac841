import Mathlib.Data.List.Basic
import Mathlib.Data.List.Chain
import Mathlib.Data.List.Forall2
import Mathlib.Tactic.Common

/-!
# Computations that may fail

Inversion of sequences and loops in `Except`: what it means that they return a
value.

* `Except.bind_eq_ok`, to take apart a sequence;
* `List.foldlM_invariant`, the rule for a property that every returning step of
  a loop preserves, and `List.foldlM_refines`, for the states of a loop that
  follows one on abstract states;
* `List.foldlM_establishes` and `List.foldlM_returns`, for a loop each of whose
  steps has a postcondition of its own, which the later steps keep and the next
  one needs;
* `List.mapM_eq_ok`, for a loop that collects values;
* `Except.Yields`, a postcondition with a condition on the errors, and its rules
  for sequences and loops.
-/

universe u v

namespace Except

variable {ε : Type u} {α β : Type v}

@[simp] theorem bind_eq_ok {x : Except ε α} {f : α → Except ε β} {b : β} :
    (x >>= f) = .ok b ↔ ∃ a, x = .ok a ∧ f a = .ok b := by
  cases x <;> simp [bind, Except.bind]

@[simp] theorem ok_bind (a : α) (f : α → Except ε β) : (Except.ok a >>= f) = f a := rfl

@[simp] theorem pure_eq_ok {a b : α} : (pure a : Except ε α) = .ok b ↔ a = b := by
  simp [pure, Except.pure]

/-- The computation returns a value in `Q`, or fails with an error in `E`. -/
def Yields (E : ε → Prop) (Q : α → Prop) : Except ε α → Prop
  | .ok a => Q a
  | .error e => E e

section Yields
variable {E : ε → Prop} {Q : α → Prop} {Q' : β → Prop}

theorem yields_iff {x : Except ε α} :
    x.Yields E Q ↔ (∀ a, x = .ok a → Q a) ∧ ∀ e, x = .error e → E e := by
  cases x <;> simp [Yields]

theorem Yields.mono {P : α → Prop} {x : Except ε α} (h : x.Yields E P) (hQ : ∀ a, P a → Q a) :
    x.Yields E Q :=
  match x, h with
  | .ok a, h => hQ a h
  | .error _, h => h

/-- The rule of a sequence. -/
theorem Yields.bind {x : Except ε α} {f : α → Except ε β} (h : x.Yields E Q)
    (hf : ∀ a, Q a → (f a).Yields E Q') : (x >>= f).Yields E Q' :=
  match x, h with
  | .ok a, h => hf a h
  | .error _, h => h

/-- The rule of a sequence, where nothing is known of the first value. -/
theorem yields_bind_any {x : Except ε α} {f : α → Except ε β} (hE : ∀ e, x = .error e → E e)
    (hf : ∀ a, x = .ok a → (f a).Yields E Q') : (x >>= f).Yields E Q' :=
  match x, hE, hf with
  | .ok a, _, hf => hf a rfl
  | .error e, hE, _ => hE e rfl

end Yields

/-- What is said of the value a computation returns is decided on it. -/
instance decidableForallOk (x : Except ε α) (P : α → Prop) [DecidablePred P] :
    Decidable (∀ a, x = .ok a → P a) :=
  match x with
  | .ok a => decidable_of_iff (P a) (by simp)
  | .error _ => isTrue (by simp)

@[inherit_doc decidableForallOk]
instance decidableExistsOk (x : Except ε α) (P : α → Prop) [DecidablePred P] :
    Decidable (∃ a, x = .ok a ∧ P a) :=
  match x with
  | .ok a => decidable_of_iff (P a) (by simp)
  | .error _ => isFalse (by simp)

end Except

namespace List

variable {ε α σ τ : Type*}

/-- The invariant rule of a loop. -/
theorem foldlM_invariant {P : σ → Prop} {f : σ → α → Except ε σ} {l : List α}
    (hf : ∀ s s', ∀ a ∈ l, f s a = .ok s' → P s → P s') {s s' : σ} (hs : P s)
    (h : l.foldlM f s = .ok s') : P s' := by
  induction l generalizing s with
  | nil => exact Except.pure_eq_ok.1 h ▸ hs
  | cons a l ih =>
    rw [foldlM_cons, Except.bind_eq_ok] at h
    obtain ⟨t, ht, h⟩ := h
    exact ih (fun s s' b hb => hf s s' b (mem_cons_of_mem a hb)) (hf s t a mem_cons_self ht hs) h

/-- A loop whose steps follow those on abstract states follows the abstract loop. -/
theorem foldlM_refines {R : σ → τ → Prop} {f : σ → α → Except ε σ} {g : τ → α → τ} {l : List α}
    (hf : ∀ s s' t, ∀ a ∈ l, f s a = .ok s' → R s t → R s' (g t a)) {s s' : σ} {t : τ}
    (hs : R s t) (h : l.foldlM f s = .ok s') : R s' (l.foldl g t) := by
  induction l generalizing s t with
  | nil => exact Except.pure_eq_ok.1 h ▸ hs
  | cons a l ih =>
    rw [foldlM_cons, Except.bind_eq_ok] at h
    obtain ⟨u, hu, h⟩ := h
    exact ih (fun s s' t b hb => hf s s' t b (mem_cons_of_mem a hb))
      (hf s u t a mem_cons_self hu hs) h

/-- A loop whose steps leave the state alone. -/
theorem foldlM_fixed {f : σ → α → Except ε σ} {l : List α} {s : σ} (h : ∀ a ∈ l, f s a = .ok s) :
    l.foldlM f s = .ok s := by
  induction l with
  | nil => rfl
  | cons a l ih =>
    rw [foldlM_cons, h a mem_cons_self, Except.ok_bind]
    exact ih fun b hb => h b (mem_cons_of_mem a hb)

/-- A loop that collects values. -/
theorem mapM_eq_ok {f : α → Except ε σ} {l : List α} {l' : List σ} :
    l.mapM f = .ok l' ↔ l.Forall₂ (fun a b => f a = .ok b) l' := by
  induction l generalizing l' with
  | nil => rw [mapM_nil, Except.pure_eq_ok, forall₂_nil_left_iff, eq_comm]
  | cons a l ih =>
    simp only [mapM_cons, Except.bind_eq_ok, Except.pure_eq_ok, forall₂_cons_left_iff, ih]
    constructor
    · rintro ⟨b, hb, l', hl', rfl⟩
      exact ⟨b, l', hb, hl', rfl⟩
    · rintro ⟨b, l', hb, hl', rfl⟩
      exact ⟨b, hb, l', hl', rfl⟩

theorem mapM_eq_map {f : α → Except ε σ} {g : α → σ} {l : List α}
    (h : ∀ a ∈ l, f a = .ok (g a)) : l.mapM f = .ok (l.map g) :=
  mapM_eq_ok.2 (forall₂_map_right_iff.2 (forall₂_same.2 h))

/-- What holds of the value that a turn of the loop collects holds of them all. -/
theorem forall_of_mapM {f : α → Except ε σ} {P : σ → Prop} (hf : ∀ a b, f a = .ok b → P b)
    {l : List α} {l' : List σ} (h : l.mapM f = .ok l') : ∀ b ∈ l', P b :=
  ((forall₂_and_left l' l).1 ((mapM_eq_ok.1 h).flip.imp fun b a hb => ⟨hf a b hb, hb⟩)).1

/-- The rule of a loop for a postcondition that each step keeps. -/
theorem foldlM_yields {E : ε → Prop} {P : σ → Prop} {f : σ → α → Except ε σ} {l : List α}
    (hf : ∀ s, P s → ∀ a ∈ l, (f s a).Yields E P) {s : σ} (hs : P s) :
    (l.foldlM f s).Yields E P := by
  induction l generalizing s with
  | nil => exact hs
  | cons a l ih =>
    rw [foldlM_cons]
    exact (hf s hs a mem_cons_self).bind fun t ht =>
      ih (fun s hs b hb => hf s hs b (mem_cons_of_mem a hb)) ht

/-- What each step of a loop establishes holds at its end, if the steps after it keep it. -/
theorem foldlM_establishes {P : α → σ → Prop} {f : σ → α → Except ε σ} {l : List α}
    (hstep : ∀ s s', ∀ a ∈ l, f s a = .ok s' → P a s')
    (hkeep : l.Pairwise fun a b => ∀ s s', f s b = .ok s' → P a s → P a s') {s s' : σ}
    (h : l.foldlM f s = .ok s') : ∀ a ∈ l, P a s' := by
  induction l generalizing s with
  | nil => exact fun a ha => absurd ha not_mem_nil
  | cons a l ih =>
    rw [foldlM_cons, Except.bind_eq_ok] at h
    obtain ⟨t, ht, h⟩ := h
    rw [pairwise_cons] at hkeep
    intro b hb
    rcases mem_cons.1 hb with rfl | hb
    · -- the first step establishes it, and all others keep it
      exact foldlM_invariant (fun s s' c hc hs => hkeep.1 c hc s s' hs) (hstep s t b hb ht) h
    · exact ih (fun s s' c hc => hstep s s' c (mem_cons_of_mem a hc)) hkeep.2 h b hb

/-- A loop whose first step returns, and each of whose steps establishes what the next one needs
    to return. -/
theorem foldlM_returns {P : α → σ → Prop} {f : σ → α → Except ε σ} {l : List α}
    (hstep : ∀ s s', ∀ a ∈ l, f s a = .ok s' → P a s')
    (hnext : l.IsChain fun a b => ∀ s, P a s → ∃ s', f s b = .ok s') {s : σ}
    (hfirst : ∀ a ∈ l.head?, ∃ s', f s a = .ok s') : ∃ s', l.foldlM f s = .ok s' := by
  induction l generalizing s with
  | nil => exact ⟨s, rfl⟩
  | cons a l ih =>
    obtain ⟨t, ht⟩ := hfirst a rfl
    rw [isChain_cons] at hnext
    rw [foldlM_cons, ht, Except.ok_bind]
    have hP := hstep s t a mem_cons_self ht
    exact ih (fun s s' b hb => hstep s s' b (mem_cons_of_mem a hb)) hnext.2
      fun b hb => hnext.1 b hb t hP

/-- Each step of a loop is taken from a state that meets a condition. -/
def StepsMeet (C : σ → α → Prop) (f : σ → α → Except ε σ) : σ → List α → Prop
  | _, [] => True
  | s, a :: l => C s a ∧ ∀ s', f s a = .ok s' → StepsMeet C f s' l

instance decidableStepsMeet (C : σ → α → Prop) [∀ s a, Decidable (C s a)]
    (f : σ → α → Except ε σ) : ∀ (l : List α) (s : σ), Decidable (l.StepsMeet C f s)
  | [], _ => isTrue trivial
  | a :: l, s =>
    have := fun s => decidableStepsMeet C f l s
    inferInstanceAs (Decidable (C s a ∧ ∀ s', f s a = .ok s' → StepsMeet C f s' l))

/-- The invariant rule of a run whose steps meet a condition. -/
theorem StepsMeet.invariant {C : σ → α → Prop} {P : σ → Prop} {f : σ → α → Except ε σ}
    {l : List α} (hf : ∀ s s', ∀ a ∈ l, C s a → f s a = .ok s' → P s → P s') {s s' : σ}
    (hC : l.StepsMeet C f s) (hs : P s) (h : l.foldlM f s = .ok s') : P s' := by
  induction l generalizing s with
  | nil => exact Except.pure_eq_ok.1 h ▸ hs
  | cons a l ih =>
    rw [foldlM_cons, Except.bind_eq_ok] at h
    obtain ⟨t, ht, h⟩ := h
    exact ih (fun s s' b hb => hf s s' b (mem_cons_of_mem a hb)) (hC.2 t ht)
      (hf s t a mem_cons_self hC.1 ht hs) h

/-- The rule of a run whose steps meet a condition, for a postcondition that such a step
    keeps. -/
theorem StepsMeet.yields {E : ε → Prop} {C : σ → α → Prop} {P : σ → Prop}
    {f : σ → α → Except ε σ} {l : List α}
    (hf : ∀ s, P s → ∀ a ∈ l, C s a → (f s a).Yields E P) {s : σ}
    (hC : l.StepsMeet C f s) (hs : P s) : (l.foldlM f s).Yields E P := by
  induction l generalizing s with
  | nil => exact hs
  | cons a l ih =>
    rw [foldlM_cons]
    refine Except.yields_bind_any (fun e he => ?_) fun t ht => ?_
    · exact (Except.yields_iff.1 (hf s hs a mem_cons_self hC.1)).2 e he
    · exact ih (fun s hs b hb => hf s hs b (mem_cons_of_mem a hb)) (hC.2 t ht)
        ((Except.yields_iff.1 (hf s hs a mem_cons_self hC.1)).1 t ht)

/-- A run returns exactly if its steps meet the condition under which a step returns. -/
theorem foldlM_returns_iff {C : σ → α → Prop} {f : σ → α → Except ε σ} {l : List α}
    (hC : ∀ s, ∀ a ∈ l, (∃ s', f s a = .ok s') ↔ C s a) {s : σ} :
    (∃ s', l.foldlM f s = .ok s') ↔ l.StepsMeet C f s := by
  induction l generalizing s with
  | nil => exact iff_of_true ⟨s, rfl⟩ trivial
  | cons a l ih =>
    have ih := fun t => @ih (fun s b hb => hC s b (mem_cons_of_mem a hb)) t
    rw [StepsMeet, ← hC s a mem_cons_self, foldlM_cons]
    simp only [Except.bind_eq_ok]
    constructor
    · rintro ⟨s', t, ht, h⟩
      refine ⟨⟨t, ht⟩, fun t' ht' => (ih t').1 ⟨s', ?_⟩⟩
      rwa [← Except.ok.inj (ht.symm.trans ht')]
    · rintro ⟨⟨t, ht⟩, hrest⟩
      obtain ⟨s', h⟩ := (ih t).2 (hrest t ht)
      exact ⟨s', t, ht, h⟩

end List
