import Admc.Config.Reload
import Admc.Lib.FixedPoint

/-!
# The chain of the superclasses of a class

The chain ends at the first class that is its own parent, where a class without an entry has
the parent with the empty name.

* `getInheritChain_eq_some_iff`: the chain is the way up to the first fixed point of the parents.
* `inheritChain_iff`: there is a chain, without a class twice or an empty name, just if the way
  up from the class passes through names that are not empty, to a class that is its own parent.
-/

namespace Admc

namespace AdConfigPrivate

open FixedPoint

variable {d : AdConfigPrivate} {objectClass parentClass : String} {chain : List String} {n : ℕ}

/-- A class has an entry in the map, for its parent. -/
def IsParentClass (d : AdConfigPrivate) (objectClass parentClass : String) : Prop :=
  d.subClassOfMap.contains objectClass = true ∧ d.getParentClass objectClass = parentClass

/-- A chain starts with a class and follows the map, with no class twice and no empty name. -/
structure IsInheritChain (d : AdConfigPrivate) (objectClass : String) (chain : List String) :
    Prop where
  head : chain.head? = some objectClass
  follows : chain.IsChain d.IsParentClass
  nodup : chain.Nodup
  not_mem_empty : "" ∉ chain

/-- The way up from a class, through names that are not empty, ends at its own parent. -/
def ReachesTopClass (d : AdConfigPrivate) (objectClass : String) : Prop :=
  ∃ n, d.getParentClass (d.getParentClass^[n] objectClass) = d.getParentClass^[n] objectClass ∧
    ∀ m ≤ n, d.getParentClass^[m] objectClass ≠ ""

/-! ## The loop -/

theorem getInheritChain_eq_some_iff : d.getInheritChain n objectClass = some chain ↔
    ∃ m < n, Reaches d.getParentClass objectClass m ∧
      chain = .iterate d.getParentClass objectClass (m + 1) := by
  induction n generalizing objectClass chain with
  | zero => simp [getInheritChain]
  | succ n ih =>
    by_cases hend : d.getParentClass objectClass = objectClass
    · rw [getInheritChain, if_pos hend, Option.some.injEq]
      constructor
      · rintro rfl
        exact ⟨0, n.succ_pos, reaches_zero.2 hend, rfl⟩
      · rintro ⟨m, -, hm, rfl⟩
        cases m with
        | zero => rfl
        | succ m => exact absurd hend (reaches_succ.1 hm).1
    · simp only [getInheritChain, if_neg hend, Option.map_eq_some_iff, ih]
      constructor
      · rintro ⟨-, ⟨m, hm, hreaches, rfl⟩, rfl⟩
        exact ⟨m + 1, Nat.succ_lt_succ hm, reaches_succ.2 ⟨hend, hreaches⟩, rfl⟩
      · rintro ⟨m, hm, hreaches, rfl⟩
        cases m with
        | zero => exact absurd (reaches_zero.1 hreaches) hend
        | succ m =>
          exact ⟨_, ⟨m, Nat.lt_of_succ_lt_succ hm, (reaches_succ.1 hreaches).2, rfl⟩, rfl⟩

/-- The loop ends just if a class that is its own parent is reached. -/
theorem getInheritChain_returns_iff : (∃ n chain, d.getInheritChain n objectClass = some chain) ↔
    ∃ n, d.getParentClass (d.getParentClass^[n] objectClass) =
      d.getParentClass^[n] objectClass := by
  simp only [getInheritChain_eq_some_iff, ← exists_reaches_iff]
  constructor
  · rintro ⟨n, chain, m, -, h, -⟩
    exact ⟨m, h⟩
  · rintro ⟨m, h⟩
    exact ⟨m + 1, _, m, m.lt_succ_self, h, rfl⟩

/-! ## The chain -/

/-- A class without an entry has the parent with the empty name. -/
theorem isParentClass_of_ne (h : d.getParentClass objectClass ≠ "") :
    d.IsParentClass objectClass (d.getParentClass objectClass) := by
  refine ⟨QHash.contains_iff.2 (not_imp_comm.1 (fun hkey => ?_) h), rfl⟩
  exact QHash.value_of_not_mem_keys hkey

theorem isChain_iterate (h : ∀ m ≤ n, d.getParentClass^[m] objectClass ≠ "") :
    (List.iterate d.getParentClass objectClass (n + 1)).IsChain d.IsParentClass := by
  rw [List.isChain_iff_getElem]
  intro i hi
  rw [List.length_iterate] at hi
  have hne := h (i + 1) (by omega)
  simp only [List.getElem_iterate, Function.iterate_succ_apply'] at hne ⊢
  exact isParentClass_of_ne hne

/-- The chain of a class is finite, and clean, just if the way up from it is. -/
theorem inheritChain_iff (d : AdConfigPrivate) (objectClass : String) :
    (∃ n chain, d.getInheritChain n objectClass = some chain ∧
      d.IsInheritChain objectClass chain) ↔ d.ReachesTopClass objectClass := by
  simp only [getInheritChain_eq_some_iff]
  constructor
  · rintro ⟨n, -, ⟨m, -, hreaches, rfl⟩, hchain⟩
    refine ⟨m, hreaches.fixed, fun k hk hempty => hchain.not_mem_empty ?_⟩
    exact List.mem_iterate.2 ⟨k, Nat.lt_succ_of_le hk, hempty.symm⟩
  · rintro ⟨n, hfixed, hne⟩
    obtain ⟨m, hm⟩ := exists_reaches_iff.2 ⟨n, hfixed⟩
    -- the loop ends at the first such class, which is not above the one that is given
    have hmn : m ≤ n := not_lt.1 fun hlt => hm.first n hlt hfixed
    have hne' : ∀ k ≤ m, d.getParentClass^[k] objectClass ≠ "" :=
      fun k hk => hne k (hk.trans hmn)
    refine ⟨m + 1, _, ⟨m, m.lt_succ_self, hm, rfl⟩, rfl, isChain_iterate hne',
      hm.nodup_iterate, fun hmem => ?_⟩
    obtain ⟨k, hk, hempty⟩ := List.mem_iterate.1 hmem
    exact hne' k (Nat.le_of_lt_succ hk) hempty.symm

/-! ## A cycle, and a class without an entry -/

/-- A schema of classes, each with its parent. -/
def parentsDirectory (classes : List (String × String)) : AdConnection where
  domain := "alt"
  clientUser := "user"
  results _ := classes.map fun entry =>
    ("CN=" ++ entry.1, ⟨"CN=" ++ entry.1, [("lDAPDisplayName", [asciiBytes entry.1]),
      ("subClassOf", [asciiBytes entry.2])]⟩)

/-- Of two classes with each other as their parents there is no chain, and that of a class
    whose parent has no entry has an empty name at its end. -/
theorem not_inheritChain_parentsDirectory :
    (∀ n, (loadClassSchemas asciiRuntime (parentsDirectory [("a", "b"), ("b", "a")])
      new).getInheritChain n "a" = none) ∧
    (loadClassSchemas asciiRuntime (parentsDirectory [("user", "person")])
      new).getInheritChain 3 "user" = some ["user", "person", ""] := by
  refine ⟨fun n => ?_, by decide⟩
  have hcycle : ∀ n, (loadClassSchemas asciiRuntime (parentsDirectory [("a", "b"), ("b", "a")])
      new).getInheritChain n "a" = none ∧
      (loadClassSchemas asciiRuntime (parentsDirectory [("a", "b"), ("b", "a")])
        new).getInheritChain n "b" = none := by
    intro n
    induction n with
    | zero => exact ⟨rfl, rfl⟩
    | succ n ih => exact ⟨congrArg (Option.map _) ih.2, congrArg (Option.map _) ih.1⟩
  exact (hcycle n).1

end AdConfigPrivate

end Admc
