import Mathlib.Data.List.Count
import Mathlib.Data.Set.Insert
import Mathlib.Tactic.Common

/-!
# Tokens that are allocated and released

The events of a program that allocates tokens, uses them and releases them. Its events are clean
if it releases what it has allocated once, and nothing is used or released after that
(`Clean`). This is so if the events are owned, token for token (`Owned`), with none left at the
end (`Owned.clean`).
-/

universe u

/-- An event about a token. -/
inductive TokenEvent (τ : Type u)
  | allocate (t : τ)
  | use (t : τ)
  | release (t : τ)
  deriving DecidableEq

namespace TokenEvent

variable {τ : Type u}

/-- The token of an event. -/
def token : TokenEvent τ → τ
  | allocate t => t
  | use t => t
  | release t => t

/-- The event `e` may come after `e'`: it does not use or release what `e'` has released. -/
def MayFollow (e' e : TokenEvent τ) : Prop := ∀ t, e' = release t → e ≠ use t ∧ e ≠ release t

/-- Each token that is allocated is released once, and not used or released after that. -/
structure Clean [DecidableEq τ] (events : List (TokenEvent τ)) : Prop where
  releasedOnce : ∀ t, allocate t ∈ events → events.count (release t) = 1
  mayFollow : events.Pairwise MayFollow

/-- The events allocate new tokens only, use and release those that are live, and leave those
    live that are given. -/
inductive Owned : List (TokenEvent τ) → Set τ → Prop
  | nil : Owned [] ∅
  | allocate {events live t} (h : Owned events live) (ht : ∀ e ∈ events, e.token ≠ t) :
    Owned (events ++ [allocate t]) (insert t live)
  | use {events live t} (h : Owned events live) (ht : t ∈ live) :
    Owned (events ++ [use t]) live
  | release {events live t} (h : Owned events live) (ht : t ∈ live) :
    Owned (events ++ [release t]) (live \ {t})

namespace Owned

variable {events : List (TokenEvent τ)} {live : Set τ} {t : τ}

/-- A token that is live has been allocated, and has not been released. -/
theorem of_mem_live (h : Owned events live) (ht : t ∈ live) :
    .allocate t ∈ events ∧ .release t ∉ events := by
  induction h with
  | nil => exact absurd ht (Set.notMem_empty t)
  | allocate h hnew ih =>
    rcases ht with rfl | ht
    · refine ⟨List.mem_append_right _ List.mem_cons_self, fun hmem => ?_⟩
      rcases List.mem_append.1 hmem with hmem | hmem
      · exact hnew _ hmem rfl
      · cases List.mem_singleton.1 hmem
    · exact ⟨List.mem_append_left _ (ih ht).1, by simpa using (ih ht).2⟩
  | use h _ ih => simpa using ih ht
  | release h _ ih =>
    obtain ⟨hall, hrel⟩ := ih ht.1
    refine ⟨List.mem_append_left _ hall, fun hmem => ?_⟩
    rcases List.mem_append.1 hmem with hmem | hmem
    · exact hrel hmem
    · cases List.mem_singleton.1 hmem
      exact ht.2 rfl

theorem mayFollow (h : Owned events live) : events.Pairwise MayFollow := by
  induction h with
  | nil => exact List.Pairwise.nil
  | allocate h _ ih =>
    refine List.pairwise_append.2 ⟨ih, List.pairwise_singleton _ _, fun e _ e' he' t _ => ?_⟩
    rw [List.mem_singleton.1 he']
    exact ⟨nofun, nofun⟩
  | use h ht ih =>
    refine List.pairwise_append.2 ⟨ih, List.pairwise_singleton _ _, fun e he e' he' t' hrel => ?_⟩
    rw [List.mem_singleton.1 he']
    refine ⟨fun heq => ?_, nofun⟩
    cases heq
    exact (h.of_mem_live ht).2 (hrel ▸ he)
  | release h ht ih =>
    refine List.pairwise_append.2 ⟨ih, List.pairwise_singleton _ _, fun e he e' he' t' hrel => ?_⟩
    rw [List.mem_singleton.1 he']
    refine ⟨nofun, fun heq => ?_⟩
    cases heq
    exact (h.of_mem_live ht).2 (hrel ▸ he)

variable [DecidableEq τ]

/-- A token that is not live any more has been released once. -/
theorem count_release (h : Owned events live) (hall : .allocate t ∈ events) (ht : t ∉ live) :
    events.count (.release t) = 1 := by
  induction h with
  | nil => exact absurd hall List.not_mem_nil
  | @allocate events live t' h _ ih =>
    have hne : t ≠ t' := fun heq => ht (heq ▸ Set.mem_insert t live)
    have hmem : TokenEvent.allocate t ∈ events := by simpa [hne] using hall
    have hcount := ih hmem fun hlive => ht (Set.mem_insert_of_mem t' hlive)
    simpa using hcount
  | use h _ ih =>
    have hcount := ih (by simpa using hall) ht
    simpa using hcount
  | @release events live t' h ht' ih =>
    by_cases heq : t = t'
    · subst heq
      have hzero := List.count_eq_zero.2 (h.of_mem_live ht').2
      rw [List.count_append, hzero]
      simp
    · have hcount := ih (by simpa using hall) fun hlive => ht ⟨hlive, heq⟩
      rw [List.count_append, hcount]
      simp [Ne.symm heq]

/-- Events that leave no token live are clean. -/
theorem clean (h : Owned events ∅) : Clean events :=
  ⟨fun t hall => h.count_release hall (Set.notMem_empty t), h.mayFollow⟩

end Owned

end TokenEvent
