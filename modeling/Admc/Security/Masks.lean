import Admc.Security.Table

/-!
# The masks of rights

Facts about the masks of the common rights, all but the three generic ones of
which are single bits (`Mask.Atom`), and about what they include. They are finite,
and checked by evaluation.
-/

namespace Admc

open Mask

/-- Facts about the masks of a list are decided on the list, rather than on all
    masks. -/
instance (priority := 2000) decidableForallMask (l : List AccessMask) (p : AccessMask → Prop)
    [DecidablePred p] : Decidable (∀ m ∈ l, p m) := List.decidableBAll p l

@[inherit_doc decidableForallMask]
instance (priority := 2000) decidableExistsMask (l : List AccessMask) (p : AccessMask → Prop)
    [DecidablePred p] : Decidable (∃ m ∈ l, p m) := List.decidableBEx p l

/-- The masks of the generic rights. -/
def genericMaskList : List AccessMask := [secAdsGenericAll, secAdsGenericRead, secAdsGenericWrite]

theorem map_eq_of_not_generic {m : AccessMask} (h : m ∉ genericMaskList) :
    adSecurityMapAccessMask m = m := by
  refine if_neg ?_
  rintro rfl
  exact h (by simp [genericMaskList])

theorem atom_of_common : ∀ m ∈ commonRightsList, m ∉ genericMaskList → Atom m := by
  unfold Atom
  decide

theorem unsetMask_eq_of_not_generic : ∀ m ∈ commonRightsList, m ∉ genericMaskList →
    ∀ M, Scope.unsetMask m M = m := by
  have hne : ∀ m ∈ commonRightsList, m ∉ genericMaskList →
      m ≠ genericReadFixed ∧ m ≠ secAdsGenericWrite := by decide
  intro m hm hg M
  rw [Scope.unsetMask, getMaskToUnset, if_neg (hne m hm hg).1, if_neg (hne m hm hg).2]

/-- A single right that is removed is taken out whole. -/
theorem not_includes_andNot_unsetMask {m : AccessMask} (hm : m ∈ commonRightsList)
    (hg : m ∉ genericMaskList) (M : AccessMask) :
    ¬Includes (M &&& ~~~Scope.unsetMask m M) m := by
  rw [unsetMask_eq_of_not_generic m hm hg]
  exact (atom_of_common m hm hg).not_includes_andNot (includes_refl m) M

/-- A right includes its subordinates. -/
theorem includes_subordinate : ∀ m ∈ commonRightsList, ∀ m' ∈ commonRightsList, ∀ present,
    isSubordinateRight m m' present →
      Includes (adSecurityMapAccessMask m) (adSecurityMapAccessMask m') := by
  decide

/-- The single rights that a right includes are itself, its subordinates, and "read
    control" for generic read and write. -/
theorem single_of_includes : ∀ m ∈ commonRightsList, ∀ m' ∈ commonRightsList,
    m' ∉ genericMaskList → Includes (adSecurityMapAccessMask m) m' →
      m = m' ∨ (∀ present, isSubordinateRight m m' present) ∨
        (m = secAdsGenericRead ∨ m = secAdsGenericWrite) ∧ m' = secStdReadControl := by
  decide

/-- Each generic right includes a single one other than "read control". -/
theorem exists_single_of_generic : ∀ m ∈ genericMaskList, ∃ m' ∈ commonRightsList,
    m' ∉ genericMaskList ∧ m' ≠ secStdReadControl ∧ Includes (adSecurityMapAccessMask m) m' := by
  decide

theorem objectMask_not_generic : ∀ m ∈ objectMaskList, m ∉ genericMaskList := by
  decide

/-- Rights on all objects have the rights of their mask with an object type as
    subordinates, and those only, -/
theorem isSubordinateRight_objectMask : ∀ m ∈ objectMaskList,
    isSubordinateRight m m true ∧ ∀ m' ∈ commonRightsList, ¬isSubordinateRight m m' false := by
  decide

/-- and these have the same mask. -/
theorem objectMask_subordinate : ∀ m ∈ objectMaskList, ∀ m' ∈ commonRightsList, ∀ present,
    isSubordinateRight m m' present → m' = m := by
  decide

theorem objectMask_disjoint : ∀ m ∈ objectMaskList, ∀ m' ∈ objectMaskList, m ≠ m' →
    m &&& m' = 0 := by
  decide

/-- The masks of the superiors of a right, from its mask and whether it has an object
    type. -/
def superiorMasks (accessMask : AccessMask) (objectPresent : Bool) : List AccessMask :=
  if objectPresent then
    if accessMask = secAdsReadProp then [secAdsGenericAll, secAdsGenericRead, secAdsReadProp]
    else if accessMask = secAdsWriteProp then
      [secAdsGenericAll, secAdsGenericWrite, secAdsWriteProp]
    else if accessMask = secAdsControlAccess then [secAdsGenericAll, secAdsControlAccess]
    else if accessMask = secAdsCreateChild then [secAdsGenericAll, secAdsCreateChild]
    else if accessMask = secAdsDeleteChild then [secAdsGenericAll, secAdsDeleteChild]
    else []
  else if accessMask = secAdsGenericRead ∨ accessMask = secAdsGenericWrite then [secAdsGenericAll]
  else []

theorem superiorRightList_eq_map (right : SecurityRight) : adSecurityGetSuperiorRightList right =
    (superiorMasks right.accessMask right.objectType.isSome).map right.withMask := by
  simp only [adSecurityGetSuperiorRightList, superiorMasks, apply_ite (List.map right.withMask),
    List.map_cons, List.map_nil]

theorem mem_common_of_superiorMasks : ∀ m ∈ commonRightsList, ∀ present,
    ∀ superior ∈ superiorMasks m present, superior ∈ commonRightsList := by
  decide

/-- A superior includes the right it is superior to. -/
theorem includes_of_superior : ∀ m ∈ commonRightsList, ∀ present,
    ∀ superior ∈ superiorMasks m present,
      Includes (adSecurityMapAccessMask superior) (adSecurityMapAccessMask m) := by
  decide

/-- The last superior of a right with an object type is the one of its mask without. -/
theorem superiorMasks_objectMask : ∀ m ∈ objectMaskList,
    (superiorMasks m true).getLast? = some m := by
  decide

/-- The superiors of generic read and write. -/
theorem superiorMasks_generic {m : AccessMask}
    (h : m = secAdsGenericRead ∨ m = secAdsGenericWrite) :
    superiorMasks m false = [secAdsGenericAll] :=
  if_pos h

end Admc
