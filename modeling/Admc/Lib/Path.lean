import Mathlib.Data.List.Basic
import Mathlib.Data.List.Infix
import Mathlib.Tactic.Common

/-!
# Paths

Paths as texts, with components between separators, and where they lead from a
root: a component may stay, go up or go down (`Step`), and going up from the root
stays there.

* `splitOn_find?_tails`: searching a text for a name between separators is
  searching its components for the name, before the last one.
* `mem_dropLast_of_walk`: a walk that leads two names deep goes down to the first
  one before its last step.
-/

universe u v

namespace Path

/-! ## Components of a text -/

section
variable {α : Type u} [DecidableEq α]

/-- The components from the first one with the name, unless it is the last. -/
def fromName (name : List α) : List (List α) → Option (List (List α))
  | c :: c' :: cs => if c = name then some (c :: c' :: cs) else fromName name (c' :: cs)
  | _ => none

theorem fromName_eq_some {name : List α} {cs tail : List (List α)}
    (h : fromName name cs = some tail) : ∃ tail', tail = name :: tail' ∧ tail' ≠ [] := by
  induction cs with
  | nil => exact absurd h nofun
  | cons c cs ih =>
    cases cs with
    | nil => exact absurd h nofun
    | cons c' cs =>
      rw [fromName] at h
      split_ifs at h with hc
      · exact ⟨c' :: cs, hc ▸ (Option.some.inj h).symm, List.cons_ne_nil _ _⟩
      · exact ih h

theorem fromName_eq_none {name : List α} {cs : List (List α)} :
    fromName name cs = none ↔ name ∉ cs.dropLast := by
  induction cs with
  | nil => simp [fromName]
  | cons c cs ih =>
    cases cs with
    | nil => simp [fromName]
    | cons c' cs =>
      rw [fromName]
      rw [List.dropLast_cons_of_ne_nil (List.cons_ne_nil _ _), List.mem_cons, not_or, ← ih]
      split_ifs with hc
      · simp [hc]
      · simp [Ne.symm hc]

/-- A name between separators is a prefix of a text that starts with a separator when it is
    the first component after it, but not the last. -/
theorem isPrefixOf_iff_splitOn {sep : α} {name t : List α} (hname : sep ∉ name) :
    (sep :: (name ++ [sep])).isPrefixOf (sep :: t) = true ↔
      ∃ cs, cs ≠ [] ∧ t.splitOn sep = name :: cs := by
  rw [List.isPrefixOf_iff_prefix, List.cons_prefix_cons, and_iff_right rfl]
  constructor
  · rintro ⟨t', rfl⟩
    refine ⟨t'.splitOn sep, List.splitOn_ne_nil sep t', ?_⟩
    rw [List.append_assoc, List.singleton_append, List.splitOn_append_cons_self,
      List.splitOn_eq_singleton hname]
    rfl
  · rintro ⟨cs, hcs, ht⟩
    obtain ⟨c, cs, rfl⟩ := List.exists_cons_of_ne_nil hcs
    refine ⟨[sep].intercalate (c :: cs), ?_⟩
    rw [← @List.intercalate_splitOn _ t _ _ sep, ht]
    simp [List.intercalate]

theorem find?_tails_append {sep : α} {first p t : List α} (hfirst : sep ∉ first) :
    (first ++ t).tails.find? (sep :: p).isPrefixOf = t.tails.find? (sep :: p).isPrefixOf := by
  induction first with
  | nil => rfl
  | cons a first ih =>
    rw [List.mem_cons, not_or] at hfirst
    rw [List.cons_append, List.tails, List.find?_cons_of_neg, ih hfirst.2]
    simp [hfirst.1]

/-- The first component of a text is what comes before its first separator. -/
theorem exists_of_splitOn_eq_cons {sep : α} {t c : List α} {cs : List (List α)}
    (h : t.splitOn sep = c :: cs) : sep ∉ c ∧
      (cs = [] ∧ t = c ∨ ∃ t', t = c ++ sep :: t' ∧ t'.splitOn sep = cs) := by
  induction t generalizing c with
  | nil =>
    obtain ⟨rfl, rfl⟩ := List.cons.inj ((List.splitOn_nil sep).symm.trans h)
    exact ⟨List.not_mem_nil, .inl ⟨rfl, rfl⟩⟩
  | cons a t ih =>
    rw [List.splitOn_cons_eq_if_modifyHead] at h
    split_ifs at h with ha
    · obtain ⟨rfl, rfl⟩ := List.cons.inj h
      exact ⟨List.not_mem_nil, .inr ⟨t, by rw [beq_iff_eq.1 ha]; rfl, rfl⟩⟩
    · obtain ⟨c', cs', ht⟩ := List.exists_cons_of_ne_nil (List.splitOn_ne_nil sep t)
      rw [ht, List.modifyHead_cons] at h
      obtain ⟨rfl, rfl⟩ := List.cons.inj h
      obtain ⟨hc', hcs⟩ := ih ht
      refine ⟨?_, hcs.imp (fun h => ⟨h.1, by rw [h.2]⟩) fun ⟨t', h, h'⟩ => ⟨t', by rw [h]; rfl, h'⟩⟩
      rw [List.mem_cons, not_or]
      exact ⟨fun h => ha (beq_iff_eq.2 h.symm), hc'⟩

omit [DecidableEq α] in
theorem intercalate_pair (sep : α) (c c' : List α) :
    [sep].intercalate [c, c'] = c ++ sep :: c' := by
  rw [List.intercalate_cons_cons, List.intercalate_singleton, List.append_assoc,
    List.singleton_append]

omit [DecidableEq α] in
theorem intercalate_cons_cons (sep : α) (c c' : List α) (cs : List (List α)) :
    [sep].intercalate (c :: c' :: cs) = c ++ sep :: [sep].intercalate (c' :: cs) := by
  rw [List.intercalate_cons_cons, List.append_assoc, List.singleton_append]

omit [DecidableEq α] in
theorem exists_intercalate_cons (sep : α) (c : List α) (cs : List (List α)) :
    ∃ rest, [sep].intercalate (c :: cs) = c ++ rest := by
  cases cs with
  | nil => exact ⟨[], by rw [List.intercalate_singleton, List.append_nil]⟩
  | cons c' cs => exact ⟨_, intercalate_cons_cons sep c c' cs⟩

omit [DecidableEq α] in
/-- The first components, and the one after them, by which they end. -/
theorem exists_intercalate_takeWhile (sep : α) {p : List α → Bool} {cs : List (List α)}
    (h : ∃ c ∈ cs, p c = false) (hne : cs.takeWhile p ≠ []) : ∃ c rest, p c = false ∧
      [sep].intercalate cs = [sep].intercalate (cs.takeWhile p) ++ sep :: (c ++ rest) := by
  induction cs with
  | nil => exact absurd rfl hne
  | cons c cs ih =>
    cases hc : p c with
    | false => exact absurd (List.takeWhile_cons_of_neg (Bool.eq_false_iff.1 hc)) hne
    | true =>
      rw [List.exists_mem_cons_iff, or_iff_right (by rw [hc]; exact nofun)] at h
      obtain ⟨c', cs, rfl⟩ := List.exists_cons_of_ne_nil (List.ne_nil_of_mem h.choose_spec.1)
      rw [List.takeWhile_cons_of_pos hc, intercalate_cons_cons]
      cases hc' : p c' with
      | false =>
        obtain ⟨rest, hrest⟩ := exists_intercalate_cons sep c' cs
        refine ⟨c', rest, hc', ?_⟩
        rw [List.takeWhile_cons_of_neg (Bool.eq_false_iff.1 hc'), hrest, List.intercalate_singleton]
      | true =>
        have htake := List.takeWhile_cons_of_pos (l := cs) hc'
        obtain ⟨d, rest, hd, heq⟩ := ih h (by rw [htake]; exact List.cons_ne_nil _ _)
        refine ⟨d, rest, hd, ?_⟩
        rw [heq, htake, intercalate_cons_cons, List.append_assoc, List.cons_append]

/-- Texts with as many of an element in each component have as many of it. -/
theorem count_intercalate_congr {sep a : α} {f : List α → List α} {cs : List (List α)}
    (h : ∀ c ∈ cs, (f c).count a = c.count a) :
    ([sep].intercalate (cs.map f)).count a = ([sep].intercalate cs).count a := by
  induction cs with
  | nil => rfl
  | cons c cs ih =>
    rw [List.forall_mem_cons] at h
    cases cs with
    | nil => simpa using h.1
    | cons c' cs =>
      have htail := ih h.2
      rw [List.map_cons] at htail
      rw [List.map_cons, List.map_cons, intercalate_cons_cons, intercalate_cons_cons,
        List.count_append, List.count_append, List.count_cons, List.count_cons, h.1, htail]

omit [DecidableEq α] in
/-- Changing the elements of a text, other than the separator, changes its components. -/
theorem flatMap_intercalate {sep : α} {f : α → List α} (hsep : f sep = [sep])
    (cs : List (List α)) :
    ([sep].intercalate cs).flatMap f = [sep].intercalate (cs.map (List.flatMap f)) := by
  induction cs with
  | nil => rfl
  | cons c cs ih =>
    cases cs with
    | nil => simp [List.intercalate]
    | cons c' cs =>
      rw [List.map_cons] at ih
      rw [intercalate_cons_cons, List.flatMap_append, List.flatMap_cons, hsep, ih, List.map_cons,
        List.map_cons, intercalate_cons_cons, List.singleton_append]

/-- There is one component more than there are separators. -/
theorem length_splitOn (sep : α) (t : List α) : (t.splitOn sep).length = t.count sep + 1 := by
  induction t with
  | nil => rw [List.splitOn_nil, List.count_nil]; rfl
  | cons a t ih =>
    rw [List.splitOn_cons_eq_if_modifyHead, List.count_cons]
    split_ifs
    · rw [List.length_cons, ih]
    · rw [List.length_modifyHead, ih]

theorem not_mem_of_mem_splitOn {sep : α} {t c : List α} (h : c ∈ t.splitOn sep) : sep ∉ c := by
  induction hcs : t.splitOn sep generalizing t with
  | nil => exact absurd hcs (List.splitOn_ne_nil sep t)
  | cons c' cs ih =>
    obtain ⟨hc', hrest⟩ := exists_of_splitOn_eq_cons hcs
    rw [hcs] at h
    rcases List.mem_cons.1 h with rfl | h
    · exact hc'
    · obtain ⟨rfl, -⟩ | ⟨t', -, ht'⟩ := hrest
      · exact absurd h List.not_mem_nil
      · exact ih (ht' ▸ h) ht'

/-- The elements of a text other than the separator are those of its components. -/
theorem exists_mem_splitOn {sep a : α} {t : List α} (h : a ∈ t) (hne : a ≠ sep) :
    ∃ c ∈ t.splitOn sep, a ∈ c := by
  induction hcs : t.splitOn sep generalizing t with
  | nil => exact absurd hcs (List.splitOn_ne_nil sep t)
  | cons c cs ih =>
    obtain ⟨-, ⟨rfl, rfl⟩ | ⟨t', rfl, ht'⟩⟩ := exists_of_splitOn_eq_cons hcs
    · exact ⟨t, List.mem_cons_self, h⟩
    · rcases List.mem_append.1 h with h | h
      · exact ⟨c, List.mem_cons_self, h⟩
      · obtain ⟨c', hc', ha⟩ := ih ((List.mem_cons.1 h).resolve_left hne) ht'
        exact ⟨c', List.mem_cons_of_mem _ hc', ha⟩

theorem count_le_of_mem_splitOn {sep : α} {t c : List α} (h : c ∈ t.splitOn sep) (a : α) :
    c.count a ≤ t.count a := by
  induction hcs : t.splitOn sep generalizing t with
  | nil => exact absurd hcs (List.splitOn_ne_nil sep t)
  | cons c' cs ih =>
    obtain ⟨-, hrest⟩ := exists_of_splitOn_eq_cons hcs
    rw [hcs] at h
    obtain ⟨rfl, rfl⟩ | ⟨t', rfl, ht'⟩ := hrest
    · rw [List.mem_singleton.1 h]
    · rw [List.count_append, List.count_cons]
      rcases List.mem_cons.1 h with rfl | h
      · exact Nat.le_add_right _ _
      · have := ih (ht' ▸ h) ht'
        omega

/-- A text in two components. -/
theorem exists_of_count_eq_one {sep : α} {t : List α} (h : t.count sep = 1) :
    ∃ c c', sep ∉ c ∧ sep ∉ c' ∧ t = c ++ sep :: c' ∧ t.splitOn sep = [c, c'] := by
  have hlength := length_splitOn sep t
  rw [h] at hlength
  obtain ⟨c, c', hsplit⟩ := List.length_eq_two.1 hlength
  obtain ⟨hc, ⟨habs, -⟩ | ⟨t', rfl, ht'⟩⟩ := exists_of_splitOn_eq_cons hsplit
  · exact absurd habs (List.cons_ne_nil _ _)
  · obtain ⟨hc', ⟨-, rfl⟩ | ⟨_, -, habs⟩⟩ := exists_of_splitOn_eq_cons ht'
    · exact ⟨c, t', hc, hc', rfl, hsplit⟩
    · exact absurd habs (List.splitOn_ne_nil sep _)

/-- The components of texts that are each closed by the separator. -/
theorem splitOn_flatten_map {sep : α} {cs : List (List α)} (h : ∀ c ∈ cs, sep ∉ c) :
    (cs.map (· ++ [sep])).flatten.splitOn sep = cs ++ [[]] := by
  induction cs with
  | nil => exact List.splitOn_nil sep
  | cons c cs ih =>
    rw [List.forall_mem_cons] at h
    rw [List.map_cons, List.flatten_cons, List.append_assoc, List.singleton_append,
      List.splitOn_append_cons_self_of_not_mem h.1, ih h.2]
    rfl

/-- Changing the characters one by one, other than the separator, changes the components. -/
theorem splitOn_flatMap {sep : α} {f : α → List α} (hsep : f sep = [sep])
    (hf : ∀ a, a ≠ sep → sep ∉ f a) (t : List α) :
    (t.flatMap f).splitOn sep = (t.splitOn sep).map (List.flatMap f) := by
  have hcomponent : ∀ c : List α, sep ∉ c → sep ∉ c.flatMap f := by
    intro c hc h
    obtain ⟨a, ha, hmem⟩ := List.mem_flatMap.1 h
    exact hf a (fun heq => hc (heq ▸ ha)) hmem
  induction h : t.splitOn sep generalizing t with
  | nil => exact absurd h (List.splitOn_ne_nil sep t)
  | cons c cs ih =>
    obtain ⟨hc, ⟨rfl, rfl⟩ | ⟨t', rfl, ht'⟩⟩ := exists_of_splitOn_eq_cons h
    · rw [List.splitOn_eq_singleton (hcomponent t hc)]
      rfl
    · rw [List.flatMap_append, List.flatMap_cons, hsep, List.singleton_append,
        List.splitOn_append_cons_self, List.splitOn_eq_singleton (hcomponent c hc), ih t' ht']
      rfl

/-- The part of a text from the first name between separators has the components from
    the first one with the name. -/
theorem splitOn_find?_tails {sep : α} {name : List α} (hname : sep ∉ name) (t : List α) :
    ((sep :: t).tails.find? (sep :: (name ++ [sep])).isPrefixOf).map (List.splitOn sep) =
      (fromName name (t.splitOn sep)).map ([] :: ·) := by
  induction h : t.splitOn sep generalizing t with
  | nil => exact absurd h (List.splitOn_ne_nil sep t)
  | cons c cs ih =>
    obtain ⟨hc, ⟨rfl, rfl⟩ | ⟨t', rfl, ht'⟩⟩ := exists_of_splitOn_eq_cons h
    · have hno : ¬(sep :: (name ++ [sep])).isPrefixOf (sep :: t) = true := by
        rw [isPrefixOf_iff_splitOn hname, h]
        rintro ⟨cs, hcs, heq⟩
        exact hcs (List.cons.inj heq).2.symm
      have htails := find?_tails_append (p := name ++ [sep]) (t := []) hc
      rw [List.append_nil] at htails
      rw [List.tails, List.find?_cons_of_neg hno, htails]
      rfl
    · obtain ⟨c', cs', rfl⟩ := List.exists_cons_of_ne_nil (ht' ▸ List.splitOn_ne_nil sep t')
      rw [fromName]
      split_ifs with hcname
      · have hyes : (sep :: (name ++ [sep])).isPrefixOf (sep :: (c ++ sep :: t')) = true := by
          rw [isPrefixOf_iff_splitOn hname, h]
          exact ⟨c' :: cs', List.cons_ne_nil _ _, by rw [hcname]⟩
        rw [List.tails, List.find?_cons_of_pos hyes, Option.map_some, Option.map_some,
          List.splitOn_cons_eq_if_modifyHead, if_pos (beq_self_eq_true sep), h]
      · have hno : ¬(sep :: (name ++ [sep])).isPrefixOf (sep :: (c ++ sep :: t')) = true := by
          rw [isPrefixOf_iff_splitOn hname, h]
          rintro ⟨cs, -, heq⟩
          exact hcname (List.cons.inj heq).1
        rw [List.tails, List.find?_cons_of_neg hno, find?_tails_append hc]
        exact ih t' ht'

omit [DecidableEq α] in
/-- The last separator of a text comes before a name without one. -/
theorem append_cons_inj {sep : α} {t t' name name' : List α} (hname : sep ∉ name)
    (hname' : sep ∉ name') (h : t ++ sep :: name = t' ++ sep :: name') :
    t = t' ∧ name = name' := by
  obtain ⟨s, rfl, hs⟩ | ⟨s, rfl, hs⟩ := List.append_eq_append_iff.1 h
  · cases s with
    | nil => exact ⟨(List.append_nil t).symm, (List.cons.inj hs).2⟩
    | cons a s =>
      have htail : name = s ++ sep :: name' := (List.cons.inj hs).2
      exact absurd (htail ▸ List.mem_append_right s List.mem_cons_self) hname
  · cases s with
    | nil => exact ⟨List.append_nil t', (List.cons.inj hs).2.symm⟩
    | cons a s =>
      have htail : name' = s ++ sep :: name := (List.cons.inj hs).2
      exact absurd (htail ▸ List.mem_append_right s List.mem_cons_self) hname'

end

/-! ## Walks -/

/-- Where a component of a path leads. -/
inductive Step (κ : Type v)
  | stay
  | up
  | down (name : κ)

section
variable {κ : Type v}

/-- Where a step leads from a place below the root. -/
def Step.from (place : List κ) : Step κ → List κ
  | .stay => place
  | .up => place.dropLast
  | .down name => place ++ [name]

/-- Where steps lead from the root. -/
def walk (steps : List (Step κ)) : List κ := steps.foldl Step.from []

theorem walk_append_singleton (steps : List (Step κ)) (step : Step κ) :
    walk (steps ++ [step]) = step.from (walk steps) := by
  rw [walk, List.foldl_append]
  rfl

/-- A place is reached by going down to it. -/
theorem mem_of_mem_walk {steps : List (Step κ)} {name : κ} (h : name ∈ walk steps) :
    .down name ∈ steps := by
  induction steps using List.reverseRecOn with
  | nil => exact absurd h List.not_mem_nil
  | append_singleton steps step ih =>
    rw [walk_append_singleton] at h
    cases step with
    | stay => exact List.mem_append_left _ (ih h)
    | up => exact List.mem_append_left _ (ih (List.dropLast_subset _ h))
    | down name' =>
      rcases List.mem_append.1 h with h | h
      · exact List.mem_append_left _ (ih h)
      · exact List.mem_append_right _ (by rw [List.mem_singleton.1 h]; exact List.mem_singleton_self _)

theorem mem_dropLast_of_walk {steps : List (Step κ)} {x y : κ} {places : List κ}
    (h : walk steps = x :: y :: places) : .down x ∈ steps.dropLast := by
  induction steps using List.reverseRecOn generalizing y places with
  | nil => exact absurd h nofun
  | append_singleton steps step ih =>
    rw [List.dropLast_concat]
    rw [walk_append_singleton] at h
    cases step with
    | stay => exact List.dropLast_subset _ (ih h)
    | up =>
      have hne : walk steps ≠ [] := by
        intro hnil
        rw [Step.from, hnil] at h
        exact absurd h nofun
      have hmem : x ∈ walk steps := List.dropLast_subset _ (by
        rw [Step.from] at h
        rw [h]
        exact List.mem_cons_self)
      exact mem_of_mem_walk hmem
    | down name =>
      rw [Step.from] at h
      cases hw : walk steps with
      | nil => rw [hw] at h; exact absurd h nofun
      | cons z zs =>
        rw [hw, List.cons_append] at h
        exact mem_of_mem_walk (by rw [hw, (List.cons.inj h).1]; exact List.mem_cons_self)

end

end Path
