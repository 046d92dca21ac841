import Mathlib.Data.List.Nodup
import Mathlib.Tactic.Common

/-!
# The first of each kind

A list without the elements whose key is that of an earlier one (`List.keepFirst`), which is
what a loop computes that goes through the list with the keys that it has seen
(`List.keepFirstFrom_eq`). If everything comes after what must be done before it, then this also
holds of what is left (`List.Grounded.pairwise_keepFirstFrom`).
-/

namespace List

variable {α β κ κ' : Type*} [DecidableEq κ] {key : α → κ}

/-- The elements of a list whose key is that of no earlier one. -/
def keepFirst (key : α → κ) : List α → List α
  | [] => []
  | a :: l => a :: (keepFirst key l).filter (key · ≠ key a)

/-- The elements of a list whose key is that of no earlier one, and not among those seen. -/
def keepFirstFrom (key : α → κ) : List κ → List α → List α
  | _, [] => []
  | seen, a :: l =>
    if key a ∈ seen then keepFirstFrom key seen l else a :: keepFirstFrom key (seen ++ [key a]) l

theorem keepFirstFrom_eq (seen : List κ) (l : List α) :
    keepFirstFrom key seen l = (keepFirst key l).filter (key · ∉ seen) := by
  induction l generalizing seen with
  | nil => rfl
  | cons a l ih =>
    rw [keepFirstFrom, keepFirst, ih, ih]
    split_ifs with hseen
    · rw [filter_cons_of_neg (by simpa using hseen), filter_filter]
      refine filter_congr fun b _ => ?_
      -- what is not seen has another key than what is
      by_cases hb : key b ∈ seen
      · simp [hb]
      · have hne : key b ≠ key a := fun h => hb (h ▸ hseen)
        simp [hb, hne]
    · rw [filter_cons_of_pos (by simpa using hseen), filter_filter]
      refine congrArg (a :: ·) (filter_congr fun b _ => ?_)
      by_cases hb : key b ∈ seen <;> simp [hb]

theorem keepFirst_sublist (key : α → κ) (l : List α) : keepFirst key l <+ l := by
  induction l with
  | nil => exact .slnil
  | cons a l ih => exact (filter_sublist.trans ih).cons_cons a

/-- Each key comes once, -/
theorem nodup_map_keepFirst (key : α → κ) (l : List α) : ((keepFirst key l).map key).Nodup := by
  induction l with
  | nil => exact nodup_nil
  | cons a l ih =>
    rw [keepFirst, map_cons, nodup_cons]
    refine ⟨fun hmem => ?_, ih.sublist (filter_sublist.map key)⟩
    rcases mem_map.1 hmem with ⟨b, hb, hkey⟩
    exact absurd hkey (by simpa using (mem_filter.1 hb).2)

/-- and each key that comes at all does. -/
theorem mem_map_keepFirst {k : κ} {l : List α} : k ∈ (keepFirst key l).map key ↔ k ∈ l.map key := by
  refine ⟨fun h => (keepFirst_sublist key l).map key |>.subset h, fun h => ?_⟩
  induction l with
  | nil => exact h
  | cons a l ih =>
    rw [keepFirst, map_cons, mem_cons]
    rcases mem_cons.1 h with rfl | h
    · exact .inl rfl
    · by_cases hk : k = key a
      · exact .inl hk
      · rcases mem_map.1 (ih h) with ⟨b, hb, rfl⟩
        exact .inr (mem_map_of_mem (mem_filter.2 ⟨hb, by simpa using hk⟩))

/-- Elements may be replaced, if those with equal keys still have equal keys. -/
theorem keepFirst_map {f : α → β} {key' : β → κ'} [DecidableEq κ'] {l : List α}
    (h : ∀ a ∈ l, ∀ b ∈ l, key' (f a) = key' (f b) ↔ key a = key b) :
    keepFirst key' (l.map f) = (keepFirst key l).map f := by
  induction l with
  | nil => rfl
  | cons a l ih =>
    have htail := ih fun b hb c hc => h b (mem_cons_of_mem _ hb) c (mem_cons_of_mem _ hc)
    rw [map_cons, keepFirst, keepFirst, map_cons, htail, filter_map]
    refine congrArg (f a :: map f ·) (filter_congr fun b hb => ?_)
    have hkey := h b (mem_cons_of_mem _ ((keepFirst_sublist key l).subset hb)) a mem_cons_self
    simp [hkey]

theorem mem_keepFirstFrom {seen l : List κ} {k : κ} :
    k ∈ keepFirstFrom id seen l ↔ k ∈ l ∧ k ∉ seen := by
  have hmem := @mem_map_keepFirst _ _ _ id k l
  rw [map_id, map_id] at hmem
  rw [keepFirstFrom_eq, mem_filter, hmem, decide_eq_true_iff]
  rfl

theorem nodup_keepFirstFrom (seen l : List κ) : (keepFirstFrom id seen l).Nodup := by
  have hnodup := nodup_map_keepFirst id l
  rw [map_id] at hnodup
  rw [keepFirstFrom_eq]
  exact hnodup.sublist filter_sublist

theorem keepFirstFrom_append (seen : List κ) (l l' : List α) :
    keepFirstFrom key seen (l ++ l') = keepFirstFrom key seen l ++
      keepFirstFrom key (seen ++ (keepFirstFrom key seen l).map key) l' := by
  induction l generalizing seen with
  | nil => rw [nil_append, keepFirstFrom, map_nil, append_nil, nil_append]
  | cons a l ih =>
    rw [cons_append, keepFirstFrom, keepFirstFrom]
    split_ifs with hseen
    · exact ih seen
    · rw [ih, map_cons, cons_append, append_assoc, singleton_append]

theorem keepFirstFrom_congr {seen seen' : List κ} (h : ∀ k, k ∈ seen ↔ k ∈ seen') (l : List α) :
    keepFirstFrom key seen l = keepFirstFrom key seen' l := by
  rw [keepFirstFrom_eq, keepFirstFrom_eq]
  simp only [h]

/-- Nothing is left of what was seen before. -/
theorem keepFirstFrom_eq_nil {seen : List κ} {l : List α} (h : ∀ a ∈ l, key a ∈ seen) :
    keepFirstFrom key seen l = [] := by
  induction l with
  | nil => rfl
  | cons a l ih =>
    rw [keepFirstFrom, if_pos (h a mem_cons_self)]
    exact ih fun b hb => h b (mem_cons_of_mem _ hb)

/-- Keys may be replaced by others, each by its own. -/
theorem keepFirstFrom_map [DecidableEq κ'] {f : κ → κ'} (hf : Function.Injective f)
    (seen l : List κ) :
    keepFirstFrom id (seen.map f) (l.map f) = (keepFirstFrom id seen l).map f := by
  induction l generalizing seen with
  | nil => rfl
  | cons k l ih =>
    rw [map_cons, keepFirstFrom, keepFirstFrom, id, id, ih]
    split_ifs with hf' h h
    · rfl
    · exact absurd ((mem_map_of_injective hf).1 hf') h
    · exact absurd (mem_map_of_mem h) hf'
    · have hseen : seen.map f ++ [f k] = (seen ++ [k]).map f := by rw [map_append, map_singleton]
      rw [hseen, ih, map_cons]

/-! ## Order -/

variable {before : κ → κ → Prop} {done done' l l' : List κ}

/-- Everything comes after what must be done before it. -/
def Grounded (before : κ → κ → Prop) : List κ → List κ → Prop
  | _, [] => True
  | done, k :: l => (∀ j, before j k → j ∈ done) ∧ Grounded before (done ++ [k]) l

omit [DecidableEq κ] in
theorem Grounded.mono (h : Grounded before done l) (hsub : done ⊆ done') :
    Grounded before done' l := by
  induction l generalizing done done' with
  | nil => trivial
  | cons k l ih =>
    refine ⟨fun j hj => hsub (h.1 j hj), ih h.2 ?_⟩
    exact append_subset.2 ⟨List.Subset.trans hsub (subset_append_left _ _), subset_append_right _ _⟩

omit [DecidableEq κ] in
theorem Grounded.append (h : Grounded before done l) (h' : Grounded before (done ++ l) l') :
    Grounded before done (l ++ l') := by
  induction l generalizing done with
  | nil => rwa [append_nil] at h'
  | cons k l ih =>
    refine ⟨h.1, ih h.2 ?_⟩
    rwa [append_assoc, singleton_append]

/-- The first ones of each kind are in order. -/
theorem Grounded.pairwise_keepFirstFrom (h : Grounded before done l) :
    (keepFirstFrom id done l).Pairwise fun k j => ¬before j k := by
  induction l generalizing done with
  | nil => exact .nil
  | cons k l ih =>
    rw [keepFirstFrom]
    split_ifs with hdone
    · refine ih (h.2.mono (append_subset.2 ⟨Subset.refl done, fun j hj => ?_⟩))
      exact mem_singleton.1 hj ▸ hdone
    · refine pairwise_cons.2 ⟨fun j hj hbefore => ?_, ih h.2⟩
      -- what must be before it was seen
      exact (mem_keepFirstFrom.1 hj).2 (mem_append_left _ (h.1 j hbefore))

end List
