import Admc.Security.Masks

/-!
# Rights allowed and denied at once

Adding a right on one side removes it from the other, with the rights superior
and subordinate to it. Rights also overlap without being related so: generic read
and generic write include the bit of "read control", which is superior to neither
and subordinate to neither. So an entry that denies "read control" survives adding
generic read to the allowing side, unless removing generic read from the denying
side happens to take the bit along.

* `exclusive_step_iff`: from a descriptor in which no right is both allowed and
  denied, an edit leads to another one exactly when it does not leave "read
  control" behind (`SplitsReadControl`).
* `exclusive_run`: a run of such edits keeps rights exclusive.
-/

namespace Admc

open Mask Scope

variable (g : Globals) (classList : List String) (rightList : List SecurityRight)
  (trustee : DomSid) (flags : AceFlags) (inheritedObjectType : Option Guid)

/-- No right of the list, taken for the given flags and inherited object type, is both
    allowed and denied by non-inherited entries for the trustee. -/
def Exclusive (sd : SecurityDescriptor) : Prop :=
  ∀ right ∈ rightList, ∀ state, securityDescriptorGetRightState sd trustee
    (right.appliedTo flags inheritedObjectType) = .ok state →
      ¬(state.get .no .allow = true ∧ state.get .no .deny = true)

instance (sd : SecurityDescriptor) :
    Decidable (Exclusive rightList trustee flags inheritedObjectType sd) :=
  inferInstanceAs (Decidable (∀ right ∈ rightList, ∀ state : SecurityRightState,
    securityDescriptorGetRightState sd trustee (right.appliedTo flags inheritedObjectType) =
      .ok state → ¬(state.get .no .allow = true ∧ state.get .no .deny = true)))

/-- A call of `security_descriptor_add_right` (`add`) or
    `security_descriptor_remove_right`. -/
structure RightEdit where
  add : Bool
  right : SecurityRight
  allow : Bool

/-- The descriptor edited, for entries of the given flags and inherited object
    type. -/
def RightEdit.apply (sd : SecurityDescriptor) (edit : RightEdit) :
    Except Fault SecurityDescriptor :=
  let right := edit.right.appliedTo flags inheritedObjectType
  if edit.add then securityDescriptorAddRight g sd classList trustee right edit.allow
  else securityDescriptorRemoveRight g sd classList trustee right edit.allow

/-- The generic right that shares "read control" with the one given, as mapped. -/
def otherGeneric (accessMask : AccessMask) : AccessMask :=
  if accessMask = secAdsGenericRead then secAdsGenericWrite else genericReadFixed

/-- An edit that leaves no "read control" behind: if it adds generic read or write,
    then every entry of the other side that includes "read control" includes that
    right, and not the other of the two. -/
def SplitsReadControl (sd : SecurityDescriptor) (edit : RightEdit) : Prop :=
  edit.add = true →
    (edit.right.accessMask = secAdsGenericRead ∨ edit.right.accessMask = secAdsGenericWrite) →
      ∀ ace ∈ sd.aces, aceMatchWithoutAccessMask ace trustee
          (edit.right.appliedTo flags inheritedObjectType) (!edit.allow) editMatchFlags = true →
        bitmaskIsSet ace.accessMask secStdReadControl = true →
          bitmaskIsSet ace.accessMask (adSecurityMapAccessMask edit.right.accessMask) = true ∧
            bitmaskIsSet ace.accessMask (otherGeneric edit.right.accessMask) = false

instance (sd : SecurityDescriptor) (edit : RightEdit) :
    Decidable (SplitsReadControl trustee flags inheritedObjectType sd edit) :=
  inferInstanceAs (Decidable (_ = _ → _ = _ ∨ _ = _ → ∀ ace ∈ sd.aces, _ = _ → _ = _ → _ ∧ _))

variable {g classList rightList trustee flags inheritedObjectType}

/-! ## On the table -/

section
variable (hR : adSecurityGetRightListForClass g classList = .ok rightList)
  {T T' : Table Guid 32} {s : Bool} {right : SecurityRight}

/-- No right of the list is set on both sides of the table. -/
def ExclusiveTable (rightList : List SecurityRight) (T : Table Guid 32) : Prop :=
  ∀ p ∈ rightList, ∀ s, T.IsSet s (key p).1 (key p).2 → ¬T.IsSet (!s) (key p).1 (key p).2

include hR

/-- It is enough to look at the single rights. -/
theorem exclusiveTable_of_single
    (h : ∀ p ∈ rightList, p.accessMask ∉ genericMaskList → ∀ s,
      T.IsSet s p.objectType p.accessMask → ¬T.IsSet (!s) p.objectType p.accessMask) :
    ExclusiveTable rightList T := by
  intro p hp s hs hs'
  by_cases hg : p.accessMask ∈ genericMaskList
  · obtain ⟨m, hm, hmg, -, hi⟩ := exists_single_of_generic _ hg
    have ho : p.objectType = none := by
      by_contra ho
      exact objectMask_not_generic _ ((hasRightMask_of_mem hR hp).2 ho) hg
    rw [key_fst, ho] at hs hs'
    exact h ⟨m, none, none, 0⟩ (mem_rightList_of_common hR hm) hmg s (hs.of_none hi)
      (hs'.of_none hi)
  · rw [key_fst, key_snd, map_eq_of_not_generic hg] at hs hs'
    exact h p hp hg s hs hs'

/-- What a superior is broken up into, it includes. -/
theorem includes_of_mem_superiorKeys (hr : right.HasRightMask) :
    ∀ sup ∈ superiorKeys rightList right, ∀ r ∈ sup.2, Includes sup.1 r.2 := by
  intro sup hsup r hr'
  rw [superiorKeys, superiorRightList_eq_map, List.map_map] at hsup
  obtain ⟨m, hm, rfl⟩ := List.mem_map.1 hsup
  obtain ⟨subordinate, hs, rfl⟩ := List.mem_map.1 hr'
  obtain ⟨classRight, hc, hsub, rfl⟩ := mem_subordinatesIn.1 hs
  exact includes_subordinate _ (mem_common_of_superiorMasks _ hr.1 _ m hm) _
    (hasRightMask_of_mem hR hc).1 _ hsub

omit hR in
theorem mem_subordinateKeys {p : SecurityRight} (ho : right.objectType = none)
    (hp : p ∈ rightList)
    (hsub : isSubordinateRight right.accessMask p.accessMask p.objectType.isSome = true) :
    key p ∈ subordinateKeys rightList right := by
  rw [subordinateKeys, if_pos ho]
  exact List.mem_map.2 ⟨_, mem_subordinatesIn.2 ⟨p, hp, hsub, rfl⟩, rfl⟩

/-- Removing a right keeps the table exclusive. -/
theorem ExclusiveTable.removeRight (hr : right.HasRightMask) (h : ExclusiveTable rightList T) :
    ExclusiveTable rightList (T.removeRight unsetMask s (superiorKeys rightList right) (key right)
      (subordinateKeys rightList right)) := by
  refine exclusiveTable_of_single hR fun p hp hg s' hs hs' => ?_
  have ha := atom_of_common _ (hasRightMask_of_mem hR hp).1 hg
  have h := h p hp s'
  rw [key_fst, key_snd, map_eq_of_not_generic hg] at h
  exact h (hs.of_removeRight_atom ha (includes_of_mem_superiorKeys hR hr))
    (hs'.of_removeRight_atom ha (includes_of_mem_superiorKeys hR hr))

/-- A right on one object is gone once it is removed: the last superior is the single right on
    all of them, which is broken up. -/
theorem not_isSet_removeRight_of_object (hr : right.HasRightMask) (hobj : right.objectType ≠ none) :
    ¬(T.removeRight unsetMask s (superiorKeys rightList right) (key right)
      (subordinateKeys rightList right)).IsSet s right.objectType right.accessMask := by
  have hmem := hr.2 hobj
  have hg := objectMask_not_generic _ hmem
  have hgone := not_includes_andNot_unsetMask hr.1 hg
  obtain ⟨superiors, hsup⟩ := List.getLast?_eq_some_iff.1 (superiorMasks_objectMask _ hmem)
  have hself : key right = (right.objectType, right.accessMask) := by
    rw [key, map_eq_of_not_generic hg]
  have hkey : (key (right.withMask right.accessMask)).2 = right.accessMask :=
    map_eq_of_not_generic hg
  rw [Table.not_isSet_iff, hself]
  refine ⟨Table.Free.removeRight ?_, Table.free_removeRight_self hgone⟩
  suffices hfree : (T.breakUpAll unsetMask s (superiorKeys rightList right)).Free s none
      (key (right.withMask right.accessMask)).2 by rwa [hkey] at hfree
  rw [superiorKeys, superiorRightList_eq_map, Option.isSome_iff_ne_none.2 hobj, hsup,
    List.map_append, List.map_append]
  refine Table.free_breakUpAll (hkey.symm ▸ hgone) fun r hr' => ?_
  obtain ⟨subordinate, hs, rfl⟩ := List.mem_map.1 hr'
  obtain ⟨classRight, hc, hsub, rfl⟩ := mem_subordinatesIn.1 hs
  intro hnone
  rw [show classRight.objectType = none from hnone] at hsub
  exact (isSubordinateRight_objectMask _ hmem).2 _ (hasRightMask_of_mem hR hc).1 hsub

/-- The single rights that a right sets are gone once it is removed, other than "read
    control" for generic read and write. -/
theorem not_isSet_removeRight (hr : right.HasRightMask) {p : SecurityRight} (hp : p ∈ rightList)
    (hg : p.accessMask ∉ genericMaskList)
    (ho : right.objectType = none ∨ right.objectType = p.objectType)
    (hi : Includes (key right).2 p.accessMask)
    (hrc : ¬((right.accessMask = secAdsGenericRead ∨ right.accessMask = secAdsGenericWrite) ∧
      p.accessMask = secStdReadControl)) :
    ¬(T.removeRight unsetMask s (superiorKeys rightList right) (key right)
      (subordinateKeys rightList right)).IsSet s p.objectType p.accessMask := by
  have hpm := hasRightMask_of_mem hR hp
  have hgone := not_includes_andNot_unsetMask hpm.1 hg
  have hkey : (key p) = (p.objectType, p.accessMask) := by rw [key, map_eq_of_not_generic hg]
  have hsubs : right.objectType = none → ∀ q ∈ rightList, q.accessMask = p.accessMask →
      isSubordinateRight right.accessMask p.accessMask q.objectType.isSome = true →
        (q.objectType, p.accessMask) ∈ subordinateKeys rightList right := by
    intro ho q hq hqp hsub
    have := mem_subordinateKeys ho hq (hqp ▸ hsub)
    rwa [key, hqp, map_eq_of_not_generic hg] at this
  rw [Table.not_isSet_iff]
  by_cases hobj : right.objectType = none
  · rcases single_of_includes _ hr.1 _ hpm.1 hg hi with hm | hsub | hrc'
    · -- a single right on all objects: those on one are its subordinates
      have hself : key right = (none, p.accessMask) := by
        rw [key, hobj, hm, map_eq_of_not_generic hg]
      rw [hself]
      refine ⟨Table.free_removeRight_self hgone, ?_⟩
      cases hpo : p.objectType with
      | none => exact Table.free_removeRight_self hgone
      | some o =>
        have hmem := hpm.2 (by rw [hpo]; exact Option.some_ne_none o)
        refine hpo ▸ Table.free_removeRight_of_mem hgone (hsubs hobj p hp rfl ?_)
        rw [hpo, hm]
        exact (isSubordinateRight_objectMask _ hmem).1
    · exact ⟨Table.free_removeRight_of_mem hgone (hsubs hobj ⟨p.accessMask, none, none, 0⟩
        (mem_rightList_of_common hR hpm.1) rfl (hsub _)),
        Table.free_removeRight_of_mem hgone (hsubs hobj p hp rfl (hsub _))⟩
    · exact absurd hrc' hrc
  · -- a right on one object, which is the single right itself
    have hm : right.accessMask = p.accessMask := by
      rcases single_of_includes _ hr.1 _ hpm.1 hg hi with hm | hsub | hrc'
      · exact hm
      · exact absurd (hsub false)
          ((isSubordinateRight_objectMask _ (hr.2 hobj)).2 _ hpm.1)
      · exact absurd hrc' hrc
    rw [← Table.not_isSet_iff, ← ho.resolve_left hobj, ← hm]
    exact not_isSet_removeRight_of_object hR hr hobj

/-- They are gone from the other side once the right is added. -/
theorem not_isSet_addRight (hr : right.HasRightMask) {p : SecurityRight} (hp : p ∈ rightList)
    (hg : p.accessMask ∉ genericMaskList)
    (ho : right.objectType = none ∨ right.objectType = p.objectType)
    (hi : Includes (key right).2 p.accessMask)
    (hrc : ¬((right.accessMask = secAdsGenericRead ∨ right.accessMask = secAdsGenericWrite) ∧
      p.accessMask = secStdReadControl)) :
    ¬(T.addRight unsetMask s (superiorKeys rightList right) (key right)
      (subordinateKeys rightList right)).IsSet (!s) p.objectType p.accessMask :=
  mt (Table.isSet_congr (Table.addRight_opposite s)).1
    (not_isSet_removeRight hR hr hp hg ho hi hrc)

/-! ### Read control -/

/-- Generic read and write. -/
def genericReadWriteList : List AccessMask := [secAdsGenericRead, secAdsGenericWrite]

omit hR in
theorem includes_readControl : ∀ m ∈ genericReadWriteList,
    Includes (adSecurityMapAccessMask m) secStdReadControl ∧
      Includes (otherGeneric m) secStdReadControl ∧
      Includes secAdsGenericAll (adSecurityMapAccessMask m) ∧
      Includes secAdsGenericAll (otherGeneric m) := by
  decide

omit hR in
/-- The subordinates of generic read and write leave "read control" alone. -/
theorem subordinate_readControl : ∀ m ∈ genericReadWriteList, ∀ m' ∈ commonRightsList, ∀ present,
    isSubordinateRight m m' present →
      m' ∉ genericMaskList ∧ m' &&& secStdReadControl = 0 := by
  decide

omit hR in
/-- What is taken out of an entry for generic read or write. -/
theorem unsetMask_genericReadWrite {m : AccessMask} (hm : m ∈ genericReadWriteList)
    (M : AccessMask) : unsetMask (adSecurityMapAccessMask m) M =
      if Includes M (otherGeneric m) then adSecurityMapAccessMask m &&& ~~~secStdReadControl
      else adSecurityMapAccessMask m := by
  have hmap : ∀ m ∈ genericReadWriteList,
      adSecurityMapAccessMask m = genericReadFixed ∧ otherGeneric m = secAdsGenericWrite ∨
        adSecurityMapAccessMask m = secAdsGenericWrite ∧ otherGeneric m = genericReadFixed ∧
          secAdsGenericWrite ≠ genericReadFixed := by
    decide
  rw [unsetMask, getMaskToUnset]
  rcases hmap m hm with ⟨h, ho⟩ | ⟨h, ho, hne⟩
  · rw [h, ho, if_pos rfl]
    exact if_congr bitmaskIsSet_iff rfl rfl
  · rw [h, ho, if_neg hne, if_pos rfl]
    exact if_congr bitmaskIsSet_iff rfl rfl

/-- Every entry of the other side that includes "read control" includes the generic
    right `m`, and not the other one. -/
def ReadControlSplit (T : Table Guid 32) (s : Bool) (m : AccessMask) : Prop :=
  ∀ M ∈ T (!s) none, Includes M secStdReadControl →
    Includes M (adSecurityMapAccessMask m) ∧ ¬Includes M (otherGeneric m)

omit hR in
theorem superiorKeys_genericReadWrite (hm : right.accessMask ∈ genericReadWriteList)
    (ho : right.objectType = none) : superiorKeys rightList right = [(secAdsGenericAll,
      (subordinatesIn rightList (right.withMask secAdsGenericAll)).map key)] := by
  have hm : right.accessMask = secAdsGenericRead ∨ right.accessMask = secAdsGenericWrite := by
    simpa [genericReadWriteList] using hm
  rw [superiorKeys, superiorRightList_eq_map, ho, Option.isSome_none, superiorMasks_generic hm]
  rfl

omit hR in
/-- Where "read control" goes with the generic right, adding that right on one side
    takes it away from the other. -/
theorem not_isSet_addRight_readControl (hm : right.accessMask ∈ genericReadWriteList)
    (ho : right.objectType = none) (hT : ReadControlSplit T s right.accessMask) :
    ¬(T.addRight unsetMask s (superiorKeys rightList right) (key right)
      (subordinateKeys rightList right)).IsSet (!s) none secStdReadControl := by
  obtain ⟨hrc, horc, hall, hoall⟩ := includes_readControl _ hm
  have hatom : Atom secStdReadControl := atom_of_common _ (by simp [commonRightsList])
    (by simp [genericMaskList, secStdReadControl, secAdsGenericAll, secAdsGenericRead,
      secAdsGenericWrite])
  have hne : (!s) ≠ s := by cases s <;> decide
  -- generic all is not set on the other side, as it includes both generic rights
  have hunset : ¬T.IsSet (!s) none secAdsGenericAll := by
    rintro ⟨M, hM, hi⟩
    have hM := or_self_iff.1 hM
    exact (hT M hM (hi.trans (hall.trans hrc))).2 (hi.trans hoall)
  have hfree : (((T.removeAll unsetMask s (subordinateKeys rightList right)).remove unsetMask (!s)
      (key right).1 (key right).2).removeAll unsetMask (!s)
        (subordinateKeys rightList right)).Free (!s) none secStdReadControl := by
    refine Table.Free.removeAll fun M' hM' => ?_
    rw [key_fst, ho] at hM'
    rw [Table.remove, Table.modify, if_pos ⟨rfl, rfl⟩, Table.removeAll_other hne] at hM'
    obtain ⟨M, hM, hs⟩ := List.mem_filterMap.1 hM'
    intro hi
    rcases Table.mem_strip hs with ⟨him, rfl⟩ | ⟨-, rfl⟩
    · exact him (hT _ hM hi).1
    · obtain ⟨-, hno⟩ := hT M hM hi.of_andNot
      rw [key_snd, unsetMask_genericReadWrite hm, if_neg hno] at hi
      exact hatom.not_includes_andNot hrc M hi
  rw [superiorKeys_genericReadWrite hm ho, Table.not_isSet_iff]
  rw [Table.addRight]
  rw [Table.Free, Table.add_other hne, Table.breakUpAll, List.foldl_cons, List.foldl_nil,
    Table.breakUp, if_neg hunset]
  exact ⟨hfree, hfree⟩

/-- Elsewhere, the other side has an entry with "read control" out of which removing the generic
    right takes other bits only, when generic all is broken up. -/
theorem exists_mem_breakUpAll_readControl (hm : right.accessMask ∈ genericReadWriteList)
    (ho : right.objectType = none) (hT : ¬ReadControlSplit T s right.accessMask) :
    ∃ M ∈ T.breakUpAll unsetMask (!s) (superiorKeys rightList right) (!s) none,
      Includes M secStdReadControl ∧ (Includes M (adSecurityMapAccessMask right.accessMask) →
        Includes M (otherGeneric right.accessMask)) := by
  obtain ⟨-, horc, -⟩ := includes_readControl _ hm
  rw [superiorKeys_genericReadWrite hm ho, Table.breakUpAll, List.foldl_cons, List.foldl_nil,
    Table.breakUp]
  split_ifs with hset
  · have hsub : ∀ m ∈ commonRightsList, m ≠ secAdsGenericAll →
        (none, adSecurityMapAccessMask m) ∈
          (subordinatesIn rightList (right.withMask secAdsGenericAll)).map key := by
      intro m hm hne
      refine List.mem_map.2 ⟨⟨m, none, right.inheritedObjectType, right.flags⟩,
        mem_subordinatesIn.2 ⟨_, mem_rightList_of_common hR hm, ?_, rfl⟩, rfl⟩
      exact (if_pos rfl).trans (decide_eq_true hne)
    have hread := hsub secAdsGenericRead (by simp [commonRightsList]) (by decide)
    have hwrite := hsub secAdsGenericWrite (by simp [commonRightsList]) (by decide)
    obtain ⟨M, hM, hi⟩ := Table.exists_mem_addAll_all
      (T := T.remove unsetMask (!s) none secAdsGenericAll) (s := !s) hread
    have hother : ∀ m ∈ genericReadWriteList, Includes M (otherGeneric m) := by
      have hmap : ∀ m ∈ genericReadWriteList,
          otherGeneric m = adSecurityMapAccessMask secAdsGenericRead ∨
            otherGeneric m = adSecurityMapAccessMask secAdsGenericWrite := by decide
      intro m hm
      rcases hmap m hm with h | h
      · exact h ▸ hi _ hread
      · exact h ▸ hi _ hwrite
    exact ⟨M, hM, (hother _ hm).trans horc, fun _ => hother _ hm⟩
  · rw [ReadControlSplit] at hT
    push Not at hT
    exact hT

/-- So adding the generic right leaves "read control" on the other side. -/
theorem isSet_addRight_readControl (hm : right.accessMask ∈ genericReadWriteList)
    (ho : right.objectType = none) (hT : ¬ReadControlSplit T s right.accessMask) :
    (T.addRight unsetMask s (superiorKeys rightList right) (key right)
      (subordinateKeys rightList right)).IsSet (!s) none secStdReadControl := by
  have hne : (!s) ≠ s := by cases s <;> decide
  have hrc0 : secStdReadControl ≠ 0 := by decide
  obtain ⟨M, hM, hi, hother⟩ := exists_mem_breakUpAll_readControl hR hm ho hT
  have hset : ∀ T' : Table Guid 32, T' (!s) =
      T.breakUpAll unsetMask (!s) (superiorKeys rightList right) (!s) →
        (T'.remove unsetMask (!s) (key right).1 (key right).2).IsSet (!s) none
          secStdReadControl := by
    intro T' hT'
    have hM : M ∈ T' (!s) none := hT' ▸ hM
    have hd : none = (key right).1 → Includes M (key right).2 →
        unsetMask (key right).2 M &&& secStdReadControl = 0 := by
      intro _ him
      rw [key_snd, unsetMask_genericReadWrite hm, if_pos (hother him)]
      exact andNot_and_self _ _
    obtain ⟨N, hN, hiN⟩ := Table.exists_mem_remove (s := !s) hrc0 hd hM hi
    exact ⟨N, .inl hN, hiN⟩
  rw [Table.addRight]
  refine Table.IsSet.add ?_ _ _ _
  rw [Table.isSet_removeAll_iff hrc0]
  · exact hset _ (Table.removeAll_other hne)
  · -- the subordinates have nothing in common with "read control"
    intro r hr _ N _ _
    rw [subordinateKeys, if_pos ho] at hr
    obtain ⟨subordinate, hs, rfl⟩ := List.mem_map.1 hr
    obtain ⟨classRight, hc, hsub, rfl⟩ := mem_subordinatesIn.1 hs
    have hcm := (hasRightMask_of_mem hR hc).1
    obtain ⟨hg, hd⟩ := subordinate_readControl _ hm _ hcm _ hsub
    rw [key_snd, map_eq_of_not_generic hg, unsetMask_eq_of_not_generic _ hcm hg]
    exact hd

/-- Adding a right keeps the table exclusive exactly when it splits "read control". -/
theorem exclusiveTable_addRight_iff (h : ExclusiveTable rightList T) (hr : right.HasRightMask) :
    ExclusiveTable rightList (T.addRight unsetMask s (superiorKeys rightList right) (key right)
      (subordinateKeys rightList right)) ↔
        (right.accessMask ∈ genericReadWriteList → ReadControlSplit T s right.accessMask) := by
  have ho : right.accessMask ∈ genericReadWriteList → right.objectType = none := by
    intro hm
    by_contra ho
    exact objectMask_not_generic _ (hr.2 ho) (List.mem_cons_of_mem _ hm)
  constructor
  · -- otherwise "read control" is set on both sides
    intro hT hm
    by_contra hsplit
    have hmem : ⟨secStdReadControl, none, none, 0⟩ ∈ rightList :=
      mem_rightList_of_common hR (by simp [commonRightsList])
    have hrc := hT _ hmem s
    have hmap : adSecurityMapAccessMask secStdReadControl = secStdReadControl := by decide
    rw [key_fst, key_snd, hmap] at hrc
    refine hrc ?_ (isSet_addRight_readControl hR hm (ho hm) hsplit)
    exact Table.isSet_add_self (.inl (ho hm)) (includes_readControl _ hm).1
  · intro hsplit
    refine exclusiveTable_of_single hR fun p hp hg s' hs hs' => ?_
    have hpm := hasRightMask_of_mem hR hp
    have ha := atom_of_common _ hpm.1 hg
    have hexcl := h p hp
    simp only [key_fst, key_snd, map_eq_of_not_generic hg] at hexcl
    -- what an added right sets on its side is not set on the other
    have hadded : right.objectType = none ∨ right.objectType = p.objectType →
        Includes (key right).2 p.accessMask →
          ¬(T.addRight unsetMask s (superiorKeys rightList right) (key right)
            (subordinateKeys rightList right)).IsSet (!s) p.objectType p.accessMask := by
      intro hro hi
      by_cases hrc : (right.accessMask = secAdsGenericRead ∨
          right.accessMask = secAdsGenericWrite) ∧ p.accessMask = secStdReadControl
      · have hm : right.accessMask ∈ genericReadWriteList := by
          simpa [genericReadWriteList] using hrc.1
        have hpo : p.objectType = none := by
          by_contra hpo
          have := hpm.2 hpo
          rw [hrc.2] at this
          exact absurd this (by simp [objectMaskList, secStdReadControl, secAdsReadProp,
            secAdsWriteProp, secAdsControlAccess, secAdsCreateChild, secAdsDeleteChild])
        rw [hrc.2, hpo]
        exact not_isSet_addRight_readControl hm (ho hm) (hsplit hm)
      · exact not_isSet_addRight hR hr hp hg hro hi hrc
    have hkeys := includes_of_mem_superiorKeys hR hr
    rcases hs.of_addRight_atom ha hkeys with hs₀ | ⟨rfl, hro, hi⟩
    · rcases hs'.of_addRight_atom ha hkeys with hs₀' | ⟨hss, hro, hi⟩
      · exact hexcl s' hs₀ hs₀'
      · have hss' : s' = !s := by rw [← hss, Bool.not_not]
        exact hadded hro hi (hss' ▸ hs)
    · exact hadded hro hi hs'

end

/-! ## On the descriptor -/

theorem ExclusiveTable.congr {T T' : Table Guid 32} (h : ExclusiveTable rightList T)
    (hT : T.Equiv T') : ExclusiveTable rightList T' := fun p hp s hs hs' =>
  h p hp s (hT.isSet_iff.2 hs) (hT.isSet_iff.2 hs')

/-- Exclusive rights, on the table. -/
theorem exclusive_iff (sc : Scope) {sd : SecurityDescriptor} :
    Exclusive rightList sc.trustee sc.flags sc.inheritedObjectType sd ↔
      ExclusiveTable rightList (sc.view sd) := by
  constructor
  · intro h p hp s hs hs'
    have hdacl : sd.dacl ≠ none := by
      obtain ⟨M, hM, -⟩ := hs
      obtain ⟨ace, ha⟩ : ∃ ace, ace ∈ sd.aces := by
        rcases hM with hM | hM
        · exact (mem_view.1 hM).imp fun _ => And.left
        · exact (mem_view.1 hM).imp fun _ => And.left
      intro hnone
      rw [SecurityDescriptor.aces, hnone] at ha
      exact List.not_mem_nil ha
    obtain ⟨state, hstate⟩ := getRightState_isOk hdacl sc.trustee
      (p.appliedTo sc.flags sc.inheritedObjectType)
    have hget := fun s => (getRightState_view (s := s) (sc.covers_appliedTo p) hstate).2
    cases s with
    | true => exact h p hp state hstate ⟨hget true hs, hget false hs'⟩
    | false => exact h p hp state hstate ⟨hget true hs', hget false hs⟩
  · rintro h p hp state hstate ⟨ha, hd⟩
    have hget := fun s => (getRightState_view (s := s) (sc.covers_appliedTo p) hstate).1
    exact h p hp true (hget true ha) (hget false hd)

/-- What an edit leaves behind, on the table. -/
theorem splitsReadControl_iff (sc : Scope) {sd : SecurityDescriptor} {edit : RightEdit}
    (hr : edit.right.HasRightMask) :
    SplitsReadControl sc.trustee sc.flags sc.inheritedObjectType sd edit ↔
      (edit.add = true → edit.right.accessMask ∈ genericReadWriteList →
        ReadControlSplit (sc.view sd) edit.allow edit.right.accessMask) := by
  refine imp_congr Iff.rfl ?_
  refine imp_congr_ctx (by simp [genericReadWriteList]) fun hm => ?_
  have ho : edit.right.objectType = none := by
    by_contra ho
    exact objectMask_not_generic _ (hr.2 ho) (List.mem_cons_of_mem _ hm)
  simp only [ReadControlSplit, mem_view, editMatch_iff_holds (sc.covers_appliedTo edit.right),
    bitmaskIsSet_iff, ← Bool.not_eq_true]
  constructor
  · rintro h _ ⟨ace, ha, hh, rfl⟩ hrc
    exact h ace ha (by rwa [SecurityRight.appliedTo, ho]) hrc
  · intro h ace ha hh hrc
    exact h _ ⟨ace, ha, by rwa [SecurityRight.appliedTo, ho] at hh, rfl⟩ hrc

/-- An edit of a descriptor whose rights are exclusive keeps them so exactly when it
    splits "read control". -/
theorem exclusive_step_iff (hR : adSecurityGetRightListForClass g classList = .ok rightList)
    (sc : Scope) {sd sd' : SecurityDescriptor} {edit : RightEdit} (hr : edit.right ∈ rightList)
    (h : Exclusive rightList sc.trustee sc.flags sc.inheritedObjectType sd)
    (hedit : edit.apply g classList sc.trustee sc.flags sc.inheritedObjectType sd = .ok sd') :
    Exclusive rightList sc.trustee sc.flags sc.inheritedObjectType sd' ↔
      SplitsReadControl sc.trustee sc.flags sc.inheritedObjectType sd edit := by
  have hmask := hasRightMask_of_mem hR hr
  have hc := sc.covers_appliedTo edit.right
  rw [exclusive_iff] at h
  rw [exclusive_iff, splitsReadControl_iff sc hmask]
  simp only [RightEdit.apply] at hedit
  split_ifs at hedit with hadd
  · have heq := view_addRight hR hc hedit
    have hiff := @exclusiveTable_addRight_iff _ _ _ hR _ edit.allow
      (edit.right.appliedTo sc.flags sc.inheritedObjectType) h hmask
    rw [imp_iff_right hadd]
    refine Iff.trans ⟨fun h' => ?_, fun h' => ?_⟩ hiff
    · exact h'.congr fun s o => (heq s o).symm
    · exact h'.congr heq
  · have hmask : (edit.right.appliedTo sc.flags sc.inheritedObjectType).HasRightMask := hmask
    have heq := view_removeRight hR hc hedit
    exact iff_of_true ((h.removeRight hR hmask).congr heq) fun hadd' => absurd hadd' hadd

/-- Rights stay exclusive along every run of edits of rights of the class, each of
    which splits "read control". -/
theorem exclusive_run (hR : adSecurityGetRightListForClass g classList = .ok rightList)
    {sd sd' : SecurityDescriptor} {edits : List RightEdit}
    (hsd : Exclusive rightList trustee flags inheritedObjectType sd)
    (hedits : ∀ edit ∈ edits, edit.right ∈ rightList)
    (hsteps : edits.StepsMeet (SplitsReadControl trustee flags inheritedObjectType)
      (RightEdit.apply g classList trustee flags inheritedObjectType) sd)
    (hrun : edits.foldlM (RightEdit.apply g classList trustee flags inheritedObjectType) sd =
      .ok sd') : Exclusive rightList trustee flags inheritedObjectType sd' := by
  cases hf : bitmaskIsSet flags secAceFlagInheritedAce with
  | true =>
    intro right _ state hstate ⟨ha, _⟩
    exact Bool.false_ne_true ((get_no_of_inherited hf hstate .allow).symm.trans ha)
  | false =>
    refine hsteps.invariant (fun sd sd' edit he hsplit hstep h => ?_) hsd hrun
    exact (exclusive_step_iff hR ⟨trustee, flags, inheritedObjectType, hf⟩ (hedits edit he) h
      hstep).2 hsplit

/-- Denying generic write, then allowing "read control", for "Everyone". -/
theorem exclusive_run_sample :
    ∃ sd', [⟨true, .ofMask secAdsGenericWrite, false⟩,
        ⟨true, .ofMask secStdReadControl, true⟩].foldlM
      (RightEdit.apply .empty ["user"] sidWorld 0 none) sampleDescriptor = .ok sd' ∧
      Exclusive adSecurityGetCommonRights sidWorld 0 none sd' := by
  have hR : adSecurityGetRightListForClass .empty ["user"] = .ok adSecurityGetCommonRights := rfl
  have hrun : ∃ sd', [⟨true, .ofMask secAdsGenericWrite, false⟩,
        ⟨true, .ofMask secStdReadControl, true⟩].foldlM
      (RightEdit.apply .empty ["user"] sidWorld 0 none) sampleDescriptor = .ok sd' ∧ True := by
    decide
  obtain ⟨sd', hsd', -⟩ := hrun
  exact ⟨sd', hsd', exclusive_run hR (by decide) (by decide) (by decide)
    hsd'⟩

/-- Denying "read control", then allowing generic read: "read control" is then both
    allowed and denied. -/
theorem not_exclusive_run_genericRead :
    adSecurityGetRightListForClass .empty ["user"] = .ok adSecurityGetCommonRights ∧
      Exclusive adSecurityGetCommonRights sidWorld 0 none sampleDescriptor ∧
      ∃ sd', [⟨true, .ofMask secStdReadControl, false⟩,
          ⟨true, .ofMask secAdsGenericRead, true⟩].foldlM
        (RightEdit.apply .empty ["user"] sidWorld 0 none) sampleDescriptor = .ok sd' ∧
        ¬Exclusive adSecurityGetCommonRights sidWorld 0 none sd' :=
  ⟨rfl, by decide, by decide⟩

end Admc
