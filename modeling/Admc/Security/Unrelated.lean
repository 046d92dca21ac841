import Admc.Security.Exclusive

/-!
# Removing a right and the rights unrelated to it

Removing a right takes its superiors apart and its subordinates away. A right that
is neither keeps its state (`removeRight_unrelated`), with two provisos. A right
is gone, of course, once the mask of the right removed is taken out of it: generic
read without "list contents" is not generic read. And "read control" may go along
with a generic right that is removed.

On the table, each removal and each addition on the way leaves such a right alone,
because the masks have nothing in common (`Apart`).
-/

namespace Admc

open Mask Scope

/-- The masks have no bit in common, or are those of generic read and write, of which
    removing one keeps the bit they share. -/
def Apart (m m' : AccessMask) : Prop :=
  adSecurityMapAccessMask m &&& adSecurityMapAccessMask m' = 0 ∨
    m ∈ genericReadWriteList ∧ m' ∈ genericReadWriteList ∧ m ≠ m'

instance (m m' : AccessMask) : Decidable (Apart m m') := inferInstanceAs (Decidable (_ ∨ _))

/-- Removing the right of mask `m` may take "read control" along: the right is generic
    read or write, or one on an object that these are superior to. -/
def MayTakeReadControl (m : AccessMask) (objectPresent : Bool) : Prop :=
  m ∈ genericReadWriteList ∨ objectPresent = true ∧ (m = secAdsReadProp ∨ m = secAdsWriteProp)

instance (m : AccessMask) (objectPresent : Bool) :
    Decidable (MayTakeReadControl m objectPresent) := inferInstanceAs (Decidable (_ ∨ _))

/-! ## The masks -/

theorem map_ne_zero : ∀ m ∈ commonRightsList, adSecurityMapAccessMask m ≠ 0 := by
  decide

/-- What is taken out of an entry that includes both masks leaves the other alone. -/
theorem Apart.unsetMask_and {m m' : AccessMask} (h : Apart m m') {M : AccessMask}
    (hi : Includes M (adSecurityMapAccessMask m')) :
    unsetMask (adSecurityMapAccessMask m) M &&& adSecurityMapAccessMask m' = 0 := by
  have hshared : ∀ m ∈ genericReadWriteList, ∀ m' ∈ genericReadWriteList, m ≠ m' →
      otherGeneric m = adSecurityMapAccessMask m' ∧
        adSecurityMapAccessMask m &&& ~~~secStdReadControl &&& adSecurityMapAccessMask m' = 0 := by
    decide
  rcases h with h | ⟨hm, hm', hne⟩
  · have hrc : adSecurityMapAccessMask m &&& ~~~secStdReadControl &&&
        adSecurityMapAccessMask m' = 0 := by
      rw [BitVec.and_assoc, BitVec.and_comm (~~~secStdReadControl), ← BitVec.and_assoc, h]
      exact BitVec.zero_and
    rw [unsetMask, getMaskToUnset]
    split_ifs
    exacts [hrc, h, hrc, h, h]
  · obtain ⟨hother, hand⟩ := hshared m hm m' hm' hne
    rw [unsetMask_genericReadWrite hm, if_pos (hother ▸ hi)]
    exact hand

/-- A right that is not superior is, to each superior, a subordinate or apart from it, -/
theorem subordinate_or_apart : ∀ m ∈ commonRightsList, ∀ present, ∀ m' ∈ commonRightsList,
    ∀ present' : Bool, (present' = true → m' ∈ objectMaskList) →
      ¬(present' = false ∧ m' ∈ superiorMasks m present) →
      ¬(m' = secStdReadControl ∧ MayTakeReadControl m present) →
      ∀ superior ∈ superiorMasks m present,
        isSubordinateRight superior m' present' = true ∨ Apart superior m' := by
  decide

/-- in which case it has nothing in common with the subordinates of the superior. -/
theorem and_eq_zero_of_subordinate : ∀ m ∈ commonRightsList, ∀ present, ∀ m' ∈ commonRightsList,
    ∀ present' : Bool, (present' = true → m' ∈ objectMaskList) →
      ¬(present' = false ∧ m' ∈ superiorMasks m present) →
      ¬(m' = secStdReadControl ∧ MayTakeReadControl m present) →
      ∀ superior ∈ superiorMasks m present, isSubordinateRight superior m' present' = false →
        ∀ m'' ∈ commonRightsList, ∀ present'', isSubordinateRight superior m'' present'' = true →
          adSecurityMapAccessMask m'' &&& adSecurityMapAccessMask m' = 0 := by
  decide

/-- An unrelated right is apart from one on all objects, -/
theorem apart_of_unrelated : ∀ m ∈ commonRightsList, ∀ m' ∈ commonRightsList, ∀ present' : Bool,
    (present' = true → m' ∈ objectMaskList) →
      ¬(present' = false ∧ (m' ∈ superiorMasks m false ∨
        Includes (adSecurityMapAccessMask m') (adSecurityMapAccessMask m))) →
      ¬(m' = secStdReadControl ∧ MayTakeReadControl m false) →
      isSubordinateRight m m' present' = false → Apart m m' := by
  decide

/-- from its subordinates, -/
theorem apart_subordinate_of_unrelated : ∀ m ∈ commonRightsList, ∀ m'' ∈ commonRightsList,
    ∀ present'', isSubordinateRight m m'' present'' = true →
      ∀ m' ∈ commonRightsList, ∀ present' : Bool, (present' = true → m' ∈ objectMaskList) →
        (present'' = false ∨ present'' = present') →
        ¬(present' = false ∧ m' ∈ superiorMasks m false) →
        ¬(present' = false ∧ Includes (adSecurityMapAccessMask m') (adSecurityMapAccessMask m)) →
        isSubordinateRight m m' present' = false → Apart m'' m' := by
  decide

/-- and from another right on the same object. -/
theorem apart_of_objectMask : ∀ m ∈ objectMaskList, ∀ m' ∈ objectMaskList, m ≠ m' →
    Apart m m' := by
  decide

/-! ## On the table -/

/-- The right `r'` is unrelated to `r`: another right, neither superior nor subordinate
    to it, that does not include it, and is not "read control" where that may be taken
    along. -/
structure Unrelated (r r' : SecurityRight) : Prop where
  ne : ¬(r'.accessMask = r.accessMask ∧ r'.objectType = r.objectType)
  not_superior : ¬(r'.objectType = none ∧
    r'.accessMask ∈ superiorMasks r.accessMask r.objectType.isSome)
  not_subordinate : r.objectType = none →
    isSubordinateRight r.accessMask r'.accessMask r'.objectType.isSome = false
  not_includes : ¬(r'.objectType = r.objectType ∧
    Includes (adSecurityMapAccessMask r'.accessMask) (adSecurityMapAccessMask r.accessMask))
  not_readControl : ¬(r'.accessMask = secStdReadControl ∧
    MayTakeReadControl r.accessMask r.objectType.isSome)

variable {g : Globals} {classList : List String} {rightList : List SecurityRight}
  {T : Table Guid 32} {s s' : Bool} {r r' : SecurityRight}

theorem Unrelated.not_superior' (h : Unrelated r r') : ¬(r'.objectType.isSome = false ∧
    r'.accessMask ∈ superiorMasks r.accessMask r.objectType.isSome) := fun ⟨ho, hm⟩ =>
  h.not_superior ⟨Option.isNone_iff_eq_none.1 (by simpa using ho), hm⟩

variable (hR : adSecurityGetRightListForClass g classList = .ok rightList)
include hR

/-- Breaking up the superiors keeps an unrelated right. -/
theorem Unrelated.isSet_breakUpAll_iff (h : Unrelated r r') (hr : r.HasRightMask)
    (hr' : r' ∈ rightList) :
    (T.breakUpAll unsetMask s (superiorKeys rightList r)).IsSet s' (key r').1 (key r').2 ↔
      T.IsSet s' (key r').1 (key r').2 := by
  have hm' := hasRightMask_of_mem hR hr'
  refine Table.isSet_breakUpAll_iff fun sup hsup T => ?_
  rw [superiorKeys, superiorRightList_eq_map, List.map_map] at hsup
  obtain ⟨m, hm, rfl⟩ := List.mem_map.1 hsup
  have hmc := mem_common_of_superiorMasks _ hr.1 _ m hm
  cases hsub : isSubordinateRight m r'.accessMask r'.objectType.isSome with
  | true =>
    refine Table.isSet_breakUp_iff_of_mem ?_ (includes_subordinate _ hmc _ hm'.1 _ hsub)
    exact List.mem_map.2 ⟨_, mem_subordinatesIn.2 ⟨r', hr', hsub, rfl⟩, rfl⟩
  | false =>
    have hapart := (subordinate_or_apart _ hr.1 _ _ hm'.1 _ hm'.of_isSome h.not_superior'
      h.not_readControl m hm).resolve_left (by simp [hsub])
    refine Table.isSet_breakUp_iff_of_disjoint (map_ne_zero _ hm'.1)
      (fun M _ hi => hapart.unsetMask_and hi) fun q hq _ => ?_
    obtain ⟨subordinate, hs, rfl⟩ := List.mem_map.1 hq
    obtain ⟨classRight, hc, hsub', rfl⟩ := mem_subordinatesIn.1 hs
    exact and_eq_zero_of_subordinate _ hr.1 _ _ hm'.1 _ hm'.of_isSome h.not_superior'
      h.not_readControl m hm hsub _ (hasRightMask_of_mem hR hc).1 _ hsub'

/-- Removing a right keeps an unrelated one. -/
theorem Unrelated.isSet_removeRight_iff (h : Unrelated r r') (hr : r.HasRightMask)
    (hr' : r' ∈ rightList) :
    (T.removeRight unsetMask s (superiorKeys rightList r) (key r)
      (subordinateKeys rightList r)).IsSet s' (key r').1 (key r').2 ↔
        T.IsSet s' (key r').1 (key r').2 := by
  have hm' := hasRightMask_of_mem hR hr'
  have hne : (key r').2 ≠ 0 := map_ne_zero _ hm'.1
  have hinc : r.objectType = none → ¬(r'.objectType.isSome = false ∧
      (r'.accessMask ∈ superiorMasks r.accessMask false ∨
        Includes (adSecurityMapAccessMask r'.accessMask) (adSecurityMapAccessMask r.accessMask))) := by
    rintro ho ⟨ho', hm⟩
    have ho'' : r'.objectType = none := Option.isNone_iff_eq_none.1 (by simpa using ho')
    rcases hm with hm | hm
    · exact h.not_superior ⟨ho'', by rwa [ho]⟩
    · exact h.not_includes ⟨ho''.trans ho.symm, hm⟩
  rw [Table.removeRight, Table.isSet_removeAll_iff hne, Table.isSet_remove_iff hne,
    h.isSet_breakUpAll_iff hR hr hr']
  · -- the right itself
    intro ho M _ hi
    refine Apart.unsetMask_and ?_ hi
    by_cases hnone : r.objectType = none
    · have hrc := h.not_readControl
      rw [hnone] at hrc
      exact apart_of_unrelated _ hr.1 _ hm'.1 _ hm'.of_isSome (hinc hnone) hrc
        (h.not_subordinate hnone)
    · have ho : r.objectType = r'.objectType := ho.resolve_left hnone
      exact apart_of_objectMask _ (hr.2 hnone) _ (hm'.2 (ho ▸ hnone)) fun hm =>
        h.ne ⟨hm.symm, ho.symm⟩
  · -- its subordinates
    intro q hq ho M _ hi
    rw [subordinateKeys] at hq
    split_ifs at hq with hnone
    · obtain ⟨subordinate, hs, rfl⟩ := List.mem_map.1 hq
      obtain ⟨classRight, hc, hsub, rfl⟩ := mem_subordinatesIn.1 hs
      refine Apart.unsetMask_and (apart_subordinate_of_unrelated _ hr.1 _
        (hasRightMask_of_mem hR hc).1 _ hsub _ hm'.1 _ hm'.of_isSome ?_
        (fun hm => hinc hnone (hm.imp_right .inl)) (fun hm => hinc hnone (hm.imp_right .inr))
        (h.not_subordinate hnone)) hi
      exact ho.imp (fun ho => by rw [show classRight.objectType = none from ho]; rfl)
        fun ho => by rw [show classRight.objectType = r'.objectType from ho]
    · exact absurd hq List.not_mem_nil

omit hR

/-! ## On the descriptor -/

variable {trustee : DomSid} {flags : AceFlags} {inheritedObjectType : Option Guid} {allow : Bool}
  {sd sd' : SecurityDescriptor}

/-- Removing a right leaves the non-inherited states of the unrelated rights of the
    class as they were. -/
theorem removeRight_unrelated (hR : adSecurityGetRightListForClass g classList = .ok rightList)
    (hr : r ∈ rightList) (hr' : r' ∈ rightList)
    (hne : r'.appliedTo flags inheritedObjectType ≠ r.appliedTo flags inheritedObjectType)
    (hsup : r'.appliedTo flags inheritedObjectType ∉
      adSecurityGetSuperiorRightList (r.appliedTo flags inheritedObjectType))
    (hsub : ∀ l, adSecurityGetSubordinateRightList g (r.appliedTo flags inheritedObjectType)
      classList = .ok l → r'.appliedTo flags inheritedObjectType ∉ l)
    (hinc : r'.objectType = r.objectType → bitmaskIsSet (adSecurityMapAccessMask r'.accessMask)
      (adSecurityMapAccessMask r.accessMask) = false)
    (hrc : r'.accessMask = secStdReadControl →
      ¬MayTakeReadControl r.accessMask r.objectType.isSome)
    (h : securityDescriptorRemoveRight g sd classList trustee
      (r.appliedTo flags inheritedObjectType) allow = .ok sd') :
    ∃ state state', securityDescriptorGetRightState sd trustee
        (r'.appliedTo flags inheritedObjectType) = .ok state ∧
      securityDescriptorGetRightState sd' trustee
        (r'.appliedTo flags inheritedObjectType) = .ok state' ∧
      state'.get .no = state.get .no := by
  obtain ⟨hd, hd'⟩ := dacl_of_removeRight h
  obtain ⟨state, hs⟩ := getRightState_isOk hd trustee (r'.appliedTo flags inheritedObjectType)
  obtain ⟨state', hs'⟩ := getRightState_isOk hd' trustee (r'.appliedTo flags inheritedObjectType)
  refine ⟨state, state', hs, hs', funext fun type => ?_⟩
  cases hf : bitmaskIsSet flags secAceFlagInheritedAce with
  | true => rw [get_no_of_inherited hf hs, get_no_of_inherited hf hs']
  | false =>
    let sc : Scope := ⟨trustee, flags, inheritedObjectType, hf⟩
    have hunrel : Unrelated (r.appliedTo flags inheritedObjectType) r' := by
      refine ⟨fun ⟨hm, ho⟩ => hne ?_, fun ⟨ho, hm⟩ => hsup ?_, fun ho => ?_, fun ⟨ho, hi⟩ => ?_,
        fun ⟨hm, ht⟩ => hrc hm ht⟩
      · rw [SecurityRight.appliedTo, SecurityRight.appliedTo, hm, ho]
        rfl
      · rw [superiorRightList_eq_map]
        refine List.mem_map.2 ⟨_, hm, ?_⟩
        rw [SecurityRight.appliedTo.eq_def r', ho]
        rfl
      · rw [Bool.eq_false_iff]
        exact fun hs => hsub _ ((getSubordinateRightList_eq_ok hR).2 (if_pos ho))
          (mem_subordinatesIn.2 ⟨r', hr', hs, rfl⟩)
      · exact Bool.eq_false_iff.1 (hinc ho) (bitmaskIsSet_iff.2 hi)
    have hview := @view_removeRight sc _ _ _ allow _ _ _ hR (sc.covers_appliedTo r) h
    obtain ⟨s, rfl⟩ : ∃ s, type = .ofAllow s := by
      cases type
      exacts [⟨true, rfl⟩, ⟨false, rfl⟩]
    rw [Bool.eq_iff_iff, @getRightState_view sc _ _ _ (sc.covers_appliedTo r') _ hs,
      @getRightState_view sc _ _ _ (sc.covers_appliedTo r') _ hs', ← hview.isSet_iff]
    have hm := hasRightMask_of_mem hR hr
    rw [key_appliedTo r']
    exact hunrel.isSet_removeRight_iff hR hm hr'

/-- Removing "list contents" keeps "standard delete". -/
theorem removeRight_unrelated_list :
    ∃ sd', securityDescriptorRemoveRight .empty (everyoneDescriptor (secAdsList ||| secStdDelete))
        ["user"] sidWorld (.ofMask secAdsList) true = .ok sd' ∧
      ∃ state state', securityDescriptorGetRightState
          (everyoneDescriptor (secAdsList ||| secStdDelete)) sidWorld (.ofMask secStdDelete) =
            .ok state ∧
        securityDescriptorGetRightState sd' sidWorld (.ofMask secStdDelete) = .ok state' ∧
        state'.get .no = state.get .no := by
  have hR : adSecurityGetRightListForClass .empty ["user"] = .ok adSecurityGetCommonRights := rfl
  have hrun : ∃ sd', securityDescriptorRemoveRight .empty
      (everyoneDescriptor (secAdsList ||| secStdDelete)) ["user"] sidWorld (.ofMask secAdsList)
        true = .ok sd' ∧ True := by
    decide
  obtain ⟨sd', hsd', -⟩ := hrun
  have hsub : ∀ l, adSecurityGetSubordinateRightList .empty (.ofMask secAdsList) ["user"] = .ok l →
      SecurityRight.ofMask secStdDelete ∉ l := by
    decide
  exact ⟨sd', hsd', @removeRight_unrelated _ _ _ (.ofMask secAdsList) (.ofMask secStdDelete) _ 0
    none _ _ _ hR (by decide) (by decide) (by decide) (by decide)
    hsub (fun _ => by decide) (fun h => absurd h (by decide)) hsd'⟩

/-- Removing "read control" takes away generic read, which is neither superior nor
    subordinate to it. -/
theorem not_removeRight_unrelated_genericRead :
    adSecurityGetRightListForClass .empty ["user"] = .ok adSecurityGetCommonRights ∧
      SecurityRight.ofMask secStdReadControl ∈ adSecurityGetCommonRights ∧
      SecurityRight.ofMask secAdsGenericRead ∈ adSecurityGetCommonRights ∧
      SecurityRight.ofMask secAdsGenericRead ∉
        adSecurityGetSuperiorRightList (.ofMask secStdReadControl) ∧
      adSecurityGetSubordinateRightList .empty (.ofMask secStdReadControl) ["user"] = .ok [] ∧
      ∃ sd', securityDescriptorRemoveRight .empty (everyoneDescriptor secAdsGenericRead) ["user"]
          sidWorld (.ofMask secStdReadControl) true = .ok sd' ∧
        (∃ state, securityDescriptorGetRightState (everyoneDescriptor secAdsGenericRead) sidWorld
          (.ofMask secAdsGenericRead) = .ok state ∧ state.get .no .allow = true) ∧
        ∃ state, securityDescriptorGetRightState sd' sidWorld (.ofMask secAdsGenericRead) =
          .ok state ∧ state.get .no .allow = false :=
  ⟨rfl, by decide, by decide, by decide, rfl, by decide⟩

end Admc
