import Admc.Config

/-!
# The rights of a class

The list of the rights of a class, in the order of the editor, and the relations
between them it maintains: the rights superior to one, taken away with it when
they are set, and the rights subordinate to one, set and taken away with it.

* `hasRightMask_of_mem`: the masks that occur in the list, those of the common
  rights for rights without an object type, and five of them for the others.
* `mem_subordinateRightList`: the subordinates of a right, by their masks.
-/

namespace Admc

variable (g : Globals)

/-- `ad_security_get_common_rights`. -/
def adSecurityGetCommonRights : List SecurityRight :=
  commonRightsList.map fun accessMask => ⟨accessMask, none, none, 0⟩

/-- `ad_security_get_extended_rights_for_class`. -/
def adSecurityGetExtendedRightsForClass (classList : List String) : List SecurityRight :=
  (g.adconfig.getExtendedRightsList classList).flatMap fun rights =>
    let validAccesses := g.adconfig.getRightsValidAccesses rights
    let rightsGuid := g.adconfig.getRightGuid rights
    ([secAdsControlAccess, secAdsReadProp, secAdsWriteProp].filter
      (bitmaskIsSet validAccesses)).map fun accessMask => ⟨accessMask, rightsGuid, none, 0⟩

/-- The rights of common tasks that the loop of `ad_security_get_right_list_for_class`
    over the inferior classes collects, from the rights on child objects so far. -/
def commonTaskRightsFrom (childObjectsRights : List SecurityRight) :
    List String → List SecurityRight
  | [] => []
  | inferiorClass :: inferiors =>
    let childObjectsRights :=
      childObjectsRights ++ creationDeletionRightsForClass g.adconfig inferiorClass
    let inferiorClassRights :=
      if g.commonTaskManager.classCommonTaskRightsMap.keys.contains inferiorClass then
        (g.commonTaskManager.rightsForClass inferiorClass).filter fun right =>
          !childObjectsRights.contains right
      else []
    inferiorClassRights ++ commonTaskRightsFrom childObjectsRights inferiors

/-- `ad_security_get_right_list_for_class`: the rights of the last class. -/
def adSecurityGetRightListForClass (classList : List String) :
    Except Fault (List SecurityRight) :=
  match classList.getLast? with
  | none => .error .emptyList
  | some objClass =>
    let permissionableAttrsRights := (g.adconfig.getPermissionableAttributes objClass).flatMap
      (readWritePropertyRights g.adconfig)
    let inferiors := g.adconfig.allInferiorsList objClass
    let childObjectsRights := inferiors.flatMap (creationDeletionRightsForClass g.adconfig)
    let commonTaskRights := commonTaskRightsFrom g [] inferiors
    .ok (adSecurityGetCommonRights ++ adSecurityGetExtendedRightsForClass g classList ++
      permissionableAttrsRights ++ childObjectsRights ++ commonTaskRights)

/-- The right for the entries of other flags and another inherited object type. -/
def SecurityRight.appliedTo (right : SecurityRight) (flags : AceFlags)
    (inheritedObjectType : Option Guid) : SecurityRight :=
  { right with inheritedObjectType, flags }

/-- The right of the mask, without an object type, for the entries of `right`. -/
def SecurityRight.withMask (right : SecurityRight) (accessMask : AccessMask) : SecurityRight :=
  { right with accessMask, objectType := none }

/-- `ad_security_get_superior_right_list`: "more superior" rights first. -/
def adSecurityGetSuperiorRightList (right : SecurityRight) : List SecurityRight :=
  let objectPresent := right.objectType.isSome
  if objectPresent then
    if right.accessMask = secAdsReadProp then
      [right.withMask secAdsGenericAll, right.withMask secAdsGenericRead,
        right.withMask secAdsReadProp]
    else if right.accessMask = secAdsWriteProp then
      [right.withMask secAdsGenericAll, right.withMask secAdsGenericWrite,
        right.withMask secAdsWriteProp]
    else if right.accessMask = secAdsControlAccess then
      [right.withMask secAdsGenericAll, right.withMask secAdsControlAccess]
    else if right.accessMask = secAdsCreateChild then
      [right.withMask secAdsGenericAll, right.withMask secAdsCreateChild]
    else if right.accessMask = secAdsDeleteChild then
      [right.withMask secAdsGenericAll, right.withMask secAdsDeleteChild]
    else []
  else if right.accessMask = secAdsGenericRead ∨ right.accessMask = secAdsGenericWrite then
    [right.withMask secAdsGenericAll]
  else []

/-- The `switch` of `ad_security_get_subordinate_right_list`, on the mask of a right
    of the class and whether it has an object type. -/
def isSubordinateRight (accessMask classMask : AccessMask) (rightObjectPresent : Bool) : Bool :=
  if accessMask = secAdsGenericAll then classMask ≠ accessMask
  else if accessMask = secAdsGenericRead then classMask = secAdsReadProp ∨ classMask = secAdsList
  else if accessMask = secAdsReadProp then classMask = secAdsReadProp ∧ rightObjectPresent
  else if accessMask = secAdsGenericWrite then
    classMask = secAdsWriteProp ∨ classMask = secAdsSelfWrite
  else if accessMask = secAdsWriteProp then classMask = secAdsWriteProp ∧ rightObjectPresent
  else if accessMask = secAdsControlAccess then
    classMask = secAdsControlAccess ∧ rightObjectPresent
  else if accessMask = secAdsCreateChild then classMask = secAdsCreateChild ∧ rightObjectPresent
  else if accessMask = secAdsDeleteChild then classMask = secAdsDeleteChild ∧ rightObjectPresent
  else false

/-- The loop of `ad_security_get_subordinate_right_list`: the subordinates among the
    rights of the list, with the flags and the inherited type of `right`. -/
def subordinatesIn (rightList : List SecurityRight) (right : SecurityRight) :
    List SecurityRight :=
  (rightList.filter fun classRight =>
    isSubordinateRight right.accessMask classRight.accessMask classRight.objectType.isSome).map
    fun classRight =>
      ⟨classRight.accessMask, classRight.objectType, right.inheritedObjectType, right.flags⟩

/-- `ad_security_get_subordinate_right_list`. -/
def adSecurityGetSubordinateRightList (right : SecurityRight) (classList : List String) :
    Except Fault (List SecurityRight) := do
  let objectPresent := right.objectType.isSome
  if objectPresent then return []
  let rightListForTarget ← adSecurityGetRightListForClass g classList
  return subordinatesIn rightListForTarget right

/-! ## Superiors and subordinates -/

section
variable {g} {classList : List String} {rightList : List SecurityRight} {right : SecurityRight}

/-- Superiors have the flags and the inherited type of the right, and no object
    type. -/
theorem eq_withMask_of_mem_superior {superior : SecurityRight}
    (h : superior ∈ adSecurityGetSuperiorRightList right) :
    superior = right.withMask superior.accessMask := by
  rw [adSecurityGetSuperiorRightList] at h
  grind [SecurityRight.withMask]

theorem mem_subordinatesIn {subordinate : SecurityRight} :
    subordinate ∈ subordinatesIn rightList right ↔ ∃ classRight ∈ rightList,
      isSubordinateRight right.accessMask classRight.accessMask classRight.objectType.isSome ∧
        subordinate =
        ⟨classRight.accessMask, classRight.objectType, right.inheritedObjectType, right.flags⟩ := by
  simp only [subordinatesIn, List.mem_map, List.mem_filter, and_assoc, eq_comm]

/-- The subordinates of a right, given the list of the class. -/
theorem getSubordinateRightList_eq_ok
    (hR : adSecurityGetRightListForClass g classList = .ok rightList) {l : List SecurityRight} :
    adSecurityGetSubordinateRightList g right classList = .ok l ↔
      (if right.objectType = none then subordinatesIn rightList right else []) = l := by
  rw [adSecurityGetSubordinateRightList]
  cases right.objectType <;> simp [hR]

/-- Only a right without an object type has subordinates, from the list of the class. -/
theorem getSubordinateRightList_cases {l : List SecurityRight}
    (h : adSecurityGetSubordinateRightList g right classList = .ok l) :
    right.objectType ≠ none ∧ l = [] ∨ right.objectType = none ∧ ∃ rightList,
      adSecurityGetRightListForClass g classList = .ok rightList ∧
        l = subordinatesIn rightList right := by
  rw [adSecurityGetSubordinateRightList] at h
  cases ho : right.objectType with
  | some o =>
    rw [ho] at h
    exact .inl ⟨Option.some_ne_none o, (Except.ok.inj h).symm⟩
  | none =>
    rw [ho] at h
    obtain ⟨rightList, hR, hl⟩ := Except.bind_eq_ok.1 h
    exact .inr ⟨rfl, rightList, hR, (Except.ok.inj hl).symm⟩

end

/-! ## The masks of the list -/

/-- The masks that rights with an object type have. -/
def objectMaskList : List AccessMask :=
  [secAdsReadProp, secAdsWriteProp, secAdsControlAccess, secAdsCreateChild, secAdsDeleteChild]

/-- The mask of the right is one that rights with its kind of object type have. -/
def SecurityRight.HasRightMask (right : SecurityRight) : Prop :=
  right.accessMask ∈ commonRightsList ∧
    (right.objectType ≠ none → right.accessMask ∈ objectMaskList)

theorem SecurityRight.HasRightMask.of_isSome {right : SecurityRight} (h : right.HasRightMask)
    (ho : right.objectType.isSome = true) : right.accessMask ∈ objectMaskList :=
  h.2 (Option.isSome_iff_ne_none.1 ho)

theorem objectMaskList_subset : objectMaskList ⊆ commonRightsList := by
  simp [objectMaskList, commonRightsList]

theorem hasRightMask_of_object {right : SecurityRight} (h : right.accessMask ∈ objectMaskList) :
    right.HasRightMask :=
  ⟨objectMaskList_subset h, fun _ => h⟩

theorem hasRightMask_of_common {right : SecurityRight} (h : right.accessMask ∈ commonRightsList)
    (ho : right.objectType = none) : right.HasRightMask :=
  ⟨h, fun hne => absurd ho hne⟩

theorem hasRightMask_creationDeletion {conf : AdConfig} {objClass : String} {right : SecurityRight}
    (h : right ∈ creationDeletionRightsForClass conf objClass) : right.HasRightMask := by
  rw [creationDeletionRightsForClass] at h
  refine hasRightMask_of_object ?_
  simp only [objectMaskList]
  grind

theorem hasRightMask_readWriteProperty {conf : AdConfig} {attr : String}
    {right : SecurityRight} (h : right ∈ readWritePropertyRights conf attr) :
    right.HasRightMask := by
  rw [readWritePropertyRights] at h
  refine hasRightMask_of_object ?_
  simp only [objectMaskList]
  grind

theorem hasRightMask_commonTask {manager : CommonTaskManager} {task : CommonTask}
    {right : SecurityRight} (h : right ∈ manager.commonTaskRights task) : right.HasRightMask := by
  have hcontrol : ∀ conf objClass, right ∈ controlChildrenClassRight conf objClass →
      right.HasRightMask := by
    intro conf objClass h
    rw [List.mem_singleton.1 h]
    exact hasRightMask_of_common (List.mem_of_getElem? (i := 0) rfl) rfl
  have hreadWrite : ∀ conf objClass attr,
      right ∈ childrenClassReadWritePropRights conf objClass attr → right.HasRightMask := by
    intro conf objClass attr h
    rw [childrenClassReadWritePropRights] at h
    refine hasRightMask_of_object ?_
    simp only [objectMaskList]
    grind
  have hreadAll : ∀ conf objClass, right ∈ readAllChildrenClassInfoRights conf objClass →
      right.HasRightMask := by
    intro conf objClass h
    rw [List.mem_singleton.1 h]
    exact hasRightMask_of_common (List.mem_of_getElem? (i := 4) rfl) rfl
  have hcreate : ∀ conf objClass, right ∈ createChildrenClassRight conf objClass →
      right.HasRightMask := by
    intro conf objClass h
    rw [createChildrenClassRight] at h
    refine hasRightMask_of_object ?_
    simp only [objectMaskList]
    grind
  rw [CommonTaskManager.commonTaskRights] at h
  obtain ⟨_ | conf⟩ := manager
  · exact absurd h List.not_mem_nil
  · cases task <;>
      simp only [CommonTaskManager.loadCommonTaskRights, List.mem_append] at h
    case userControl => exact h.elim hasRightMask_creationDeletion (hcontrol _ _)
    case changeUserPassword => exact hreadWrite _ _ _ h
    case readAllUserInformation => exact hreadAll _ _ h
    case groupControl => exact h.elim hasRightMask_creationDeletion (hcontrol _ _)
    case inetOrgPersonControl => exact h.elim hasRightMask_creationDeletion (hcontrol _ _)
    case changeInetOrgPersonPassword => exact hreadWrite _ _ _ h
    case readAllInetOrgPersonInformation => exact hreadAll _ _ h
    case groupMembership => exact hreadWrite _ _ _ h
    case manageGPLinks =>
      exact h.elim hasRightMask_readWriteProperty hasRightMask_readWriteProperty
    case domainComputerJoin => exact hcreate _ _ h

variable {g}

theorem hasRightMask_commonTaskRightsFrom {childObjectsRights : List SecurityRight}
    {inferiors : List String} {right : SecurityRight}
    (h : right ∈ commonTaskRightsFrom g childObjectsRights inferiors) : right.HasRightMask := by
  induction inferiors generalizing childObjectsRights with
  | nil => exact absurd h List.not_mem_nil
  | cons inferiorClass inferiors ih =>
    rw [commonTaskRightsFrom, List.mem_append] at h
    rcases h with h | h
    · split_ifs at h with hc
      · have h := (List.mem_filter.1 h).1
        rw [CommonTaskManager.rightsForClass, hc] at h
        obtain ⟨task, -, h⟩ := List.mem_flatMap.1 h
        exact hasRightMask_commonTask h
      · exact absurd h List.not_mem_nil
    · exact ih h

/-- The common rights are in the list of every class. -/
theorem mem_rightList_of_common {classList : List String} {rightList : List SecurityRight}
    (h : adSecurityGetRightListForClass g classList = .ok rightList) {accessMask : AccessMask}
    (hm : accessMask ∈ commonRightsList) : ⟨accessMask, none, none, 0⟩ ∈ rightList := by
  rw [adSecurityGetRightListForClass] at h
  cases hl : classList.getLast? with
  | none => exact absurd (hl ▸ h) (by simp)
  | some objClass =>
    rw [hl] at h
    rw [← Except.ok.inj h]
    simp only [List.append_assoc]
    exact List.mem_append_left _ (List.mem_map_of_mem hm)

/-- The masks that occur in the list of a class. -/
theorem hasRightMask_of_mem {classList : List String} {rightList : List SecurityRight}
    (h : adSecurityGetRightListForClass g classList = .ok rightList) {right : SecurityRight}
    (hr : right ∈ rightList) : right.HasRightMask := by
  rw [adSecurityGetRightListForClass] at h
  cases hl : classList.getLast? with
  | none => exact absurd (hl ▸ h) (by simp)
  | some objClass =>
    rw [hl] at h
    rw [← Except.ok.inj h] at hr
    simp only [List.mem_append, List.mem_flatMap] at hr
    rcases hr with (((hr | hr) | ⟨attr, -, hr⟩) | ⟨inferiorClass, -, hr⟩) | hr
    · obtain ⟨accessMask, hm, rfl⟩ := List.mem_map.1 hr
      exact hasRightMask_of_common hm rfl
    · obtain ⟨rights, -, hr⟩ := List.mem_flatMap.1 hr
      obtain ⟨accessMask, hm, rfl⟩ := List.mem_map.1 hr
      have hmem := (List.mem_filter.1 hm).1
      refine hasRightMask_of_object ?_
      simp only [objectMaskList]
      grind
    · exact hasRightMask_readWriteProperty hr
    · exact hasRightMask_creationDeletion hr
    · exact hasRightMask_commonTaskRightsFrom hr

end Admc
