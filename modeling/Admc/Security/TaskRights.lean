import Admc.Security.Frame
import Admc.Security.Postconditions

/-!
# Rights that are edited together

A task is a list of rights, which are added one after the other, or removed. An edit of one right
changes its superiors and its subordinates as well, so that it could undo the edit of another right
before it. The rights of a task are *separate*: two of them are for different entries, or are
single rights, which do not take each other along (`SecurityRight.Separate`).

* `taskRights_commonTask`: the rights of a common task are separate;
* `addRights_allow` and `removeRights_clear`: once they are all added, each of them is allowed,
  and once they are all removed, none is;
* `addRights_returns_iff`: if the first of them can be added, then all can, since an entry that
  allows a right stays when the next one is added;
* `removeRights_returns_iff`: they can all be removed if each removal leaves an entry.
-/

namespace Admc

open Mask Scope

/-! ## The rights of a task -/

namespace SecurityRight

variable (right right' : SecurityRight)

/-- The rights are for different entries, or both have masks that rights with an object type
    have. -/
def Separate : Prop :=
  ¬right.SameEntries right' ∨
    right.accessMask ∈ objectMaskList ∧ right'.accessMask ∈ objectMaskList

/-- The rights are separate, and if they are for the same entries, then their masks differ. -/
def Apart : Prop :=
  right.Separate right' ∧ (right.SameEntries right' → right.accessMask ≠ right'.accessMask)

variable {right right'}

theorem Separate.of_flags (h : right'.flags ≠ right.flags) : right.Separate right' :=
  .inl fun hsame => h hsame.1

theorem Apart.of_flags (h : right'.flags ≠ right.flags) : right.Apart right' :=
  ⟨.of_flags h, fun hsame => absurd hsame.1 h⟩

theorem Apart.of_masks (h : right.accessMask ∈ objectMaskList)
    (h' : right'.accessMask ∈ objectMaskList) (hne : right.accessMask ≠ right'.accessMask) :
    right.Apart right' :=
  ⟨.inr ⟨h, h'⟩, fun _ => hne⟩

end SecurityRight

open SecurityRight (Separate Apart)

/-- What the rights of a task have in common. -/
structure TaskRights (rights : List SecurityRight) : Prop where
  hasRightMask : ∀ right ∈ rights, right.HasRightMask
  not_inherited : ∀ right ∈ rights, bitmaskIsSet right.flags secAceFlagInheritedAce = false
  separate : rights.Pairwise Separate
  apart : rights.IsChain Apart

/-- The flags of rights on an object and its children, and of those on its children only. -/
theorem not_inherited_of_flags : ∀ flags ∈ [secAceFlagContainerInherit,
    secAceFlagContainerInherit ||| secAceFlagInheritOnly],
      bitmaskIsSet flags secAceFlagInheritedAce = false := by
  decide

/-- The masks of single rights in tasks. -/
theorem mem_objectMaskList : secAdsReadProp ∈ objectMaskList ∧ secAdsWriteProp ∈ objectMaskList ∧
    secAdsCreateChild ∈ objectMaskList ∧ secAdsDeleteChild ∈ objectMaskList := by
  decide

theorem readProp_ne_writeProp : secAdsReadProp ≠ secAdsWriteProp := by decide

namespace TaskRights

theorem nil : TaskRights [] where
  hasRightMask _ h := absurd h List.not_mem_nil
  not_inherited _ h := absurd h List.not_mem_nil
  separate := .nil
  apart := .nil

theorem singleton {right : SecurityRight} (hr : right.HasRightMask)
    (hf : bitmaskIsSet right.flags secAceFlagInheritedAce = false) : TaskRights [right] where
  hasRightMask _ h := List.mem_singleton.1 h ▸ hr
  not_inherited _ h := List.mem_singleton.1 h ▸ hf
  separate := List.pairwise_singleton ..
  apart := .singleton right

/-- A right is put before the others. -/
theorem cons {right right' : SecurityRight} {rights : List SecurityRight}
    (hr : right.accessMask ∈ objectMaskList)
    (hf : bitmaskIsSet right.flags secAceFlagInheritedAce = false) (hap : right.Apart right')
    (hsep : ∀ right' ∈ rights, right.Separate right') (h : TaskRights (right' :: rights)) :
    TaskRights (right :: right' :: rights) where
  hasRightMask := List.forall_mem_cons.2 ⟨hasRightMask_of_object hr, h.hasRightMask⟩
  not_inherited := List.forall_mem_cons.2 ⟨hf, h.not_inherited⟩
  separate := List.pairwise_cons.2 ⟨List.forall_mem_cons.2 ⟨hap.1, hsep⟩, h.separate⟩
  apart := .cons_cons hap h.apart

/-- Creating and deleting children, which is for the object itself, and all rights on them. -/
theorem control (conf : AdConfig) (objClass : String) :
    TaskRights (creationDeletionRightsForClass conf objClass ++
      controlChildrenClassRight conf objClass) := by
  have hall : TaskRights (controlChildrenClassRight conf objClass) :=
    singleton (hasRightMask_of_common (List.mem_of_getElem? (i := 0) rfl) rfl)
      (not_inherited_of_flags _ (by simp))
  have hne : secAceFlagContainerInherit ||| secAceFlagInheritOnly ≠ secAceFlagContainerInherit := by
    decide
  have hobject : bitmaskIsSet secAceFlagContainerInherit secAceFlagInheritedAce = false :=
    not_inherited_of_flags _ (by simp)
  obtain ⟨-, -, hcreate, hdelete⟩ := mem_objectMaskList
  rw [creationDeletionRightsForClass]
  split_ifs
  · exact hall
  · refine cons hcreate hobject (.of_masks hcreate hdelete ?_) ?_ <|
      cons hdelete hobject (.of_flags hne) (fun _ h => absurd h List.not_mem_nil) hall
    · have hmasks : secAdsCreateChild ≠ secAdsDeleteChild := by decide
      exact hmasks
    · exact List.forall_mem_singleton.2 (.of_flags hne)

section
variable {objectType objectType' inheritedObjectType : Option Guid} {flags : AceFlags}
  (hf : bitmaskIsSet flags secAceFlagInheritedAce = false)
include hf

/-- Reading and writing a property. -/
theorem readWrite : TaskRights [⟨secAdsReadProp, objectType, inheritedObjectType, flags⟩,
    ⟨secAdsWriteProp, objectType, inheritedObjectType, flags⟩] := by
  obtain ⟨hread, hwrite, -⟩ := mem_objectMaskList
  exact cons hread hf (.of_masks hread hwrite readProp_ne_writeProp)
    (fun _ h => absurd h List.not_mem_nil) (singleton (hasRightMask_of_object hwrite) hf)

/-- Reading and writing two properties. -/
theorem readWrite_two : TaskRights [⟨secAdsReadProp, objectType, inheritedObjectType, flags⟩,
    ⟨secAdsWriteProp, objectType, inheritedObjectType, flags⟩,
    ⟨secAdsReadProp, objectType', inheritedObjectType, flags⟩,
    ⟨secAdsWriteProp, objectType', inheritedObjectType, flags⟩] := by
  obtain ⟨hread, hwrite, -⟩ := mem_objectMaskList
  refine cons hread hf (.of_masks hread hwrite readProp_ne_writeProp) ?_ <|
    cons hwrite hf (.of_masks hwrite hread readProp_ne_writeProp.symm) ?_ (readWrite hf)
  · exact List.forall_mem_cons.2 ⟨.inr ⟨hread, hread⟩,
      List.forall_mem_singleton.2 (.inr ⟨hread, hwrite⟩)⟩
  · exact List.forall_mem_singleton.2 (.inr ⟨hwrite, hwrite⟩)

end

end TaskRights

/-- The rights of each common task are separate. -/
theorem taskRights_commonTask (manager : CommonTaskManager) (task : CommonTask) :
    TaskRights (manager.commonTaskRights task) := by
  obtain ⟨_ | conf⟩ := manager
  · exact .nil
  · obtain ⟨hread, -, hcreate, -⟩ := mem_objectMaskList
    have hobject := not_inherited_of_flags _ List.mem_cons_self
    have hchildren := not_inherited_of_flags _ (List.mem_cons_of_mem _ List.mem_cons_self)
    cases task
    case userControl => exact .control conf _
    case changeUserPassword => exact .readWrite hchildren
    case readAllUserInformation => exact .singleton (hasRightMask_of_object hread) hchildren
    case groupControl => exact .control conf _
    case inetOrgPersonControl => exact .control conf _
    case changeInetOrgPersonPassword => exact .readWrite hchildren
    case readAllInetOrgPersonInformation =>
      exact .singleton (hasRightMask_of_object hread) hchildren
    case groupMembership => exact .readWrite hchildren
    case manageGPLinks => exact .readWrite_two hobject
    case domainComputerJoin =>
      simp only [CommonTaskManager.commonTaskRights, CommonTaskManager.loadCommonTaskRights,
        createChildrenClassRight]
      split_ifs
      exacts [.nil, .singleton (hasRightMask_of_object hcreate) hobject]

/-! ## On the table -/

section
variable {g : Globals} {classList : List String} {rightList : List SecurityRight}
  (hR : adSecurityGetRightListForClass g classList = .ok rightList)
  {T : Table Guid 32} {s : Bool} {right right' : SecurityRight}
include hR

/-- A single right that is set stays set when another one is added: its subordinates have its
    mask, and if that is the mask of the first one, then the first one is set with it. -/
theorem isSet_addRight_of_separate (hm : right.accessMask ∈ objectMaskList)
    (hm' : right'.accessMask ∈ objectMaskList) (h : T.IsSet s (key right).1 (key right).2) :
    (T.addRight unsetMask s (superiorKeys rightList right') (key right')
      (subordinateKeys rightList right')).IsSet s (key right).1 (key right).2 := by
  have hkey : ∀ {p : SecurityRight}, p.accessMask ∈ objectMaskList → (key p).2 = p.accessMask :=
    fun hp => map_eq_of_not_generic (objectMask_not_generic _ hp)
  by_cases hall : right'.objectType = none ∧ right'.accessMask = right.accessMask
  · -- the same right of all objects is added itself
    refine Table.isSet_add_self (.inl hall.1) ?_
    rw [hkey hm, hkey hm', hall.2]
    exact includes_refl _
  · -- only subordinates are removed, which have no bits in common with it
    refine Table.IsSet.addRight ?_
    have hatom := atom_of_common _ (objectMaskList_subset hm) (objectMask_not_generic _ hm)
    refine (Table.isSet_removeAll_iff (hkey hm ▸ hatom.ne_zero) ?_).2 h
    rintro r hr - M - -
    rw [subordinateKeys] at hr
    split_ifs at hr with ho
    · obtain ⟨subordinate, hs, rfl⟩ := List.mem_map.1 hr
      obtain ⟨classRight, hc, hsub, rfl⟩ := mem_subordinatesIn.1 hs
      have hcommon := (hasRightMask_of_mem hR hc).1
      have hmask := objectMask_subordinate _ hm' _ hcommon _ hsub
      have hc' : classRight.accessMask ∈ objectMaskList := hmask ▸ hm'
      have hne : classRight.accessMask ≠ right.accessMask := fun h => hall ⟨ho, hmask ▸ h⟩
      rw [key_snd, map_eq_of_not_generic (objectMask_not_generic _ hc'), hkey hm,
        unsetMask_eq_of_not_generic _ hcommon (objectMask_not_generic _ hc')]
      exact objectMask_disjoint _ hc' _ hm hne
    · exact absurd hr List.not_mem_nil

/-- A right is gone once it is removed, whether or not it is in the list of the class. -/
theorem not_isSet_removeRight_self (hr : right.HasRightMask) :
    ¬(T.removeRight unsetMask s (superiorKeys rightList right) (key right)
      (subordinateKeys rightList right)).IsSet s (key right).1 (key right).2 := by
  by_cases ho : right.objectType = none
  · -- the right on all objects is in the list
    have hcov : Covered right ⟨right.accessMask, none, none, 0⟩ :=
      ⟨.inl ho, includes_refl _, not_generic_readControl⟩
    have hgone := hcov.not_isSet_removeRight hR (T := T) (s := s) hr
      (mem_rightList_of_common hR hr.1)
    rw [key_fst, ho]
    exact hgone
  · have hg := objectMask_not_generic _ (hr.2 ho)
    rw [key_fst, key_snd, map_eq_of_not_generic hg]
    exact not_isSet_removeRight_of_object hR hr ho

/-- A single right that is removed stays so when another one is. -/
theorem isSet_of_removeRight_separate (hm : right.accessMask ∈ objectMaskList)
    (hr : right'.HasRightMask)
    (h : (T.removeRight unsetMask s (superiorKeys rightList right') (key right')
      (subordinateKeys rightList right')).IsSet s (key right).1 (key right).2) :
    T.IsSet s (key right).1 (key right).2 := by
  have hg := objectMask_not_generic _ hm
  rw [key_snd, map_eq_of_not_generic hg] at h ⊢
  have hatom := atom_of_common _ (objectMaskList_subset hm) hg
  exact h.of_removeRight_atom hatom (includes_of_mem_superiorKeys hR hr)

end

/-! ## What an edit does to the state of a right -/

/-- The right is allowed by entries for the trustee, inherited ones or others, or is not. -/
def AllowState (sd : SecurityDescriptor) (trustee : DomSid)
    (inherited : SecurityRightStateInherited) (right : SecurityRight) (allowed : Bool) : Prop :=
  ∃ state, securityDescriptorGetRightState sd trustee right = .ok state ∧
    state.get inherited .allow = allowed

theorem AllowState.dacl_ne_none {sd : SecurityDescriptor} {trustee : DomSid}
    {inherited : SecurityRightStateInherited} {right : SecurityRight} {allowed : Bool}
    (h : AllowState sd trustee inherited right allowed) : sd.dacl ≠ none := by
  obtain ⟨state, hstate, -⟩ := h
  obtain ⟨aces, haces, -⟩ := Except.bind_eq_ok.1 hstate
  exact (securityDescriptorGetDacl_eq_ok.1 haces).1

/-- The entries that the right is for. -/
def SecurityRight.scope (right : SecurityRight) (trustee : DomSid)
    (hf : bitmaskIsSet right.flags secAceFlagInheritedAce = false) : Scope :=
  ⟨trustee, right.flags, right.inheritedObjectType, hf⟩

section
variable {g : Globals} {classList : List String} {rightList : List SecurityRight} {trustee : DomSid}
  {right right' : SecurityRight} {sd sd' : SecurityDescriptor}
  (hf : bitmaskIsSet right.flags secAceFlagInheritedAce = false)
  (hf' : bitmaskIsSet right'.flags secAceFlagInheritedAce = false)

theorem covers_scope : (right.scope trustee hf).Covers right := ⟨rfl, rfl⟩

theorem allowState_iff (hd : sd.dacl ≠ none) {allowed : Bool} :
    AllowState sd trustee .no right allowed ↔
      (((right.scope trustee hf).view sd).IsSet true (key right).1 (key right).2 ↔
        allowed = true) := by
  obtain ⟨state, hstate⟩ := getRightState_isOk hd trustee right
  have hview := getRightState_view (s := true) (covers_scope hf) hstate
  rw [← hview, ← Bool.eq_iff_iff]
  constructor
  · rintro ⟨state', hstate', h⟩
    rwa [Except.ok.inj (hstate.symm.trans hstate')]
  · exact fun h => ⟨state, hstate, h⟩

include hf hf'

/-- The entries that a right is for are outside the reach of edits of rights for others. -/
theorem view_of_sameOutside (hne : ¬right.SameEntries right')
    (h : SameOutside trustee right' sd sd') :
    ((right.scope trustee hf).view sd).Equiv ((right.scope trustee hf).view sd') := by
  have houtside : ∀ s o ace, (right.scope trustee hf).Holds s o ace →
      Outside trustee right' ace := by
    rintro s o ace ⟨-, hflags, -, hinherited, -⟩
    by_cases hflags' : right'.flags = right.flags
    · refine .inr (.inr (.inr ⟨fun h => hne ⟨hflags', ?_⟩, not_inheritedInheritable hf'⟩))
      exact h.symm.trans hinherited
    · exact .inr (.inl fun h => hflags' (h.symm.trans hflags))
  have hfilter : ∀ s o (aces : List SecurityAce),
      (aces.filter fun ace => Outside trustee right' ace).filter
        (fun ace => (right.scope trustee hf).Holds s o ace) =
      aces.filter fun ace => (right.scope trustee hf).Holds s o ace := by
    intro s o aces
    rw [List.filter_filter]
    refine List.filter_congr fun ace _ => ?_
    simpa using houtside s o ace
  intro s o
  rw [view, viewAces, view, viewAces, ← hfilter, ← hfilter s o sd'.aces]
  exact ((h.aces.filter _).map _).symm

end

section
variable {g : Globals} {classList : List String} {rightList : List SecurityRight} {trustee : DomSid}
  {right right' : SecurityRight} {sd sd' : SecurityDescriptor}
  (hR : adSecurityGetRightListForClass g classList = .ok rightList)
  (hf : bitmaskIsSet right.flags secAceFlagInheritedAce = false)
  (hf' : bitmaskIsSet right'.flags secAceFlagInheritedAce = false)
include hR hf

/-- A right that is added is allowed. -/
theorem allowState_addRight
    (h : securityDescriptorAddRight g sd classList trustee right true = .ok sd') :
    AllowState sd' trustee .no right true := by
  rw [allowState_iff hf (dacl_of_addRight h).2,
    ← (view_addRight hR (covers_scope hf) h).isSet_iff]
  exact iff_of_true (Table.isSet_add_self (.inr rfl) (includes_refl _)) rfl

/-- A right that is removed is not. -/
theorem allowState_removeRight (hr : right.HasRightMask)
    (h : securityDescriptorRemoveRight g sd classList trustee right true = .ok sd') :
    AllowState sd' trustee .no right false := by
  rw [allowState_iff hf (dacl_of_removeRight h).2,
    ← (view_removeRight hR (covers_scope hf) h).isSet_iff]
  exact iff_of_false (not_isSet_removeRight_self hR hr) Bool.false_ne_true

include hf'

/-- A right stays allowed when a separate one is added, -/
theorem allowState_addRight_separate (hsep : right.Separate right')
    (h : securityDescriptorAddRight g sd classList trustee right' true = .ok sd')
    (hallow : AllowState sd trustee .no right true) : AllowState sd' trustee .no right true := by
  obtain ⟨hd, hd'⟩ := dacl_of_addRight h
  rw [allowState_iff hf hd, iff_true_right rfl] at hallow
  rw [allowState_iff hf hd', iff_true_right rfl]
  by_cases hsame : right.SameEntries right'
  · obtain ⟨hm, hm'⟩ := hsep.resolve_left (not_not_intro hsame)
    have hview := @view_addRight (right.scope trustee hf) _ _ _ true _ _ _ hR hsame h
    rw [← hview.isSet_iff]
    exact isSet_addRight_of_separate hR hm hm' hallow
  · have houtside := (baseInvariant_sameOutside g.rt trustee right' sd).addRight (.refl sd) h
    rwa [← (view_of_sameOutside hf hf' hsame houtside).isSet_iff]

/-- and it stays cleared when a separate one is removed. -/
theorem allowState_removeRight_separate (hsep : right.Separate right') (hr' : right'.HasRightMask)
    (h : securityDescriptorRemoveRight g sd classList trustee right' true = .ok sd')
    (hclear : AllowState sd trustee .no right false) : AllowState sd' trustee .no right false := by
  obtain ⟨hd, hd'⟩ := dacl_of_removeRight h
  rw [allowState_iff hf hd, iff_false_right Bool.false_ne_true] at hclear
  rw [allowState_iff hf hd', iff_false_right Bool.false_ne_true]
  refine mt (fun hset => ?_) hclear
  by_cases hsame : right.SameEntries right'
  · obtain ⟨hm, -⟩ := hsep.resolve_left (not_not_intro hsame)
    have hview := @view_removeRight (right.scope trustee hf) _ _ _ true _ _ _ hR hsame h
    rw [← hview.isSet_iff] at hset
    exact isSet_of_removeRight_separate hR hm hr' hset
  · have houtside := (baseInvariant_sameOutside g.rt trustee right' sd).removeRight (.refl sd) h
    rwa [(view_of_sameOutside hf hf' hsame houtside).isSet_iff]

end

/-! ## Entries that stay -/

section
variable {trustee : DomSid} {right right' : SecurityRight} {sc : Scope} {s : Bool}
  {o : Option Guid} {m : AccessMask}

/-- The entry is one of the scope, and includes the mask. -/
def Scope.HasMask (sc : Scope) (s : Bool) (o : Option Guid) (m : AccessMask)
    (ace : SecurityAce) : Prop :=
  sc.Holds s o ace ∧ Includes ace.accessMask m

theorem grows_hasMask : Grows (sc.HasMask s o m) := fun _ n h => ⟨h.1, h.2.or_left n⟩

/-- An entry withstands the removal of a right that does not match it, -/
theorem withstands_of_not_match {allow : Bool}
    (h : ∀ ace, sc.Holds s o ace →
      aceMatchWithoutAccessMask ace sc.trustee right allow editMatchFlags = false) :
    Withstands sc.trustee (sc.HasMask s o m) (right, allow) := by
  intro ace hace
  refine ⟨ace, ?_, hace⟩
  rw [removeAccessRightsStep, h ace hace.1]
  rfl

/-- such as one on the opposite side, -/
theorem withstands_opposite : Withstands sc.trustee (sc.HasMask s o m) (right, !s) := by
  refine withstands_of_not_match fun ace hace => ?_
  rw [Bool.eq_false_iff, Ne, editMatch_iff]
  rintro ⟨hside, -⟩
  rw [hace.1] at hside
  exact absurd (Option.some.inj hside) (by cases s <;> decide)

/-- or for other entries. -/
theorem withstands_of_not_covers (hne : ¬sc.Covers right)
    (hf : bitmaskIsSet right.flags secAceFlagInheritedAce = false) :
    Withstands sc.trustee (sc.HasMask s o m) (right, s) := by
  refine withstands_of_not_match fun ace hace => ?_
  rw [Bool.eq_false_iff, Ne, editMatch_iff]
  rintro ⟨-, hflags, -, hinherited, -⟩
  refine hne ⟨hflags.symm.trans hace.2.1, ?_⟩
  exact (hinherited.resolve_right (hflags ▸ not_inheritedInheritable hf)).symm.trans hace.2.2.2.1

/-- An entry also withstands the removal of a right that has nothing in common with its mask. -/
theorem withstands_of_disjoint {allow : Bool} (hm : m ≠ 0)
    (hd : adSecurityMapAccessMask right.accessMask &&& m = 0) :
    Withstands sc.trustee (sc.HasMask s o m) (right, allow) := by
  have hincludes : Withstands sc.trustee (fun ace => Includes ace.accessMask m) (right, allow) :=
    withstands_includes hm hd
  intro ace hace
  obtain ⟨ace', hstep, hi⟩ := hincludes ace hace.2
  obtain ⟨n, rfl⟩ := eq_setMask_of_removeAccessRightsStep hstep
  exact ⟨_, hstep, hace.1, hi⟩

end

section
variable {g : Globals} {classList : List String} {rightList : List SecurityRight} {trustee : DomSid}
  {right right' : SecurityRight} {allow : Bool} {sd : SecurityDescriptor}

/-- An edit that adds a right leaves an entry that withstands its removals. -/
theorem leavesEntry_of_withstands {Q : SecurityAce → Prop} (hQ : Grows Q)
    (hopposite : ∀ right, Withstands trustee Q (right, !allow))
    (hsubs : ∀ subordinate ∈ subordinatesOf g classList right,
      Withstands trustee Q (subordinate, allow)) (h : sd.Has Q) :
    (DaclEdit.addRight classList trustee right allow).LeavesEntry g sd := by
  obtain ⟨ace, hace, hQace⟩ := h
  simp only [DaclEdit.LeavesEntry, LeavesEntryOfRight]
  cases firstSuperiorSet sd trustee right (!allow) with
  | none =>
    -- there is no superior to break up, and every removal leaves the entry
    refine ⟨ace, hace, survives_of_withstands (fun removal hr => ?_) hQace⟩
    simp only [addRemovals, List.mem_append, List.mem_map, List.mem_cons] at hr
    rcases hr with ⟨subordinate, hs, rfl⟩ | rfl | ⟨subordinate, -, rfl⟩
    exacts [hsubs subordinate hs, hopposite right, hopposite subordinate]
  | some superior =>
    -- the superior is removed from the entry, and its subordinates are put back
    obtain ⟨ace', hstep, hQ'⟩ := hopposite superior ace hQace
    have hmem : ace' ∈ sd.aces.filterMap (removeAccessRightsStep trustee superior (!allow)) :=
      List.mem_filterMap.2 ⟨ace, hace, hstep⟩
    refine ⟨List.ne_nil_of_mem hmem, .inr ?_⟩
    have hput : ∃ ace'' ∈ putBack g classList trustee superior right (!allow)
        (sd.aces.filterMap (removeAccessRightsStep trustee superior (!allow))), Q ace'' := by
      rw [putBack]
      split_ifs
      exacts [⟨ace', hmem, hQ'⟩, exists_mem_addRightAces hQ hmem hQ']
    obtain ⟨ace'', hmem'', hQ''⟩ := hput
    exact ⟨ace'', hmem'', survives_of_withstands
      (List.forall_mem_singleton.2 (hopposite right)) hQ''⟩

/-- Once a right is allowed, the next right of a task can be added. -/
theorem addRight_returns_of_apart
    (hR : adSecurityGetRightListForClass g classList = .ok rightList)
    (hf : bitmaskIsSet right.flags secAceFlagInheritedAce = false)
    (hf' : bitmaskIsSet right'.flags secAceFlagInheritedAce = false) (hap : right.Apart right')
    (hallow : AllowState sd trustee .no right true) :
    ∃ sd', securityDescriptorAddRight g sd classList trustee right' true = .ok sd' := by
  -- the entry that allows the right is still there when the other one is added
  let sc := right.scope trustee hf
  have hhas : ∃ o, sd.Has (sc.HasMask true o (key right).2) := by
    rw [allowState_iff hf hallow.dacl_ne_none, iff_true_right rfl] at hallow
    obtain ⟨M, hM, hi⟩ := hallow
    simp only [mem_view] at hM
    rcases hM with ⟨ace, hace, hh, rfl⟩ | ⟨ace, hace, hh, rfl⟩
    exacts [⟨_, ace, hace, hh, hi⟩, ⟨_, ace, hace, hh, hi⟩]
  obtain ⟨o, hhas⟩ := hhas
  rw [addRight_returns_iff hR]
  refine leavesEntry_of_withstands grows_hasMask (fun _ => withstands_opposite) ?_ hhas
  intro subordinate hs
  obtain ⟨-, hcommon, hsub⟩ := of_mem_subordinatesOf hs
  have hsubs := (@getSubordinateRightList_eq_ok _ _ _ right' hR _).2 rfl
  have hentries := sameEntries_of_mem_subordinate hsubs (subordinatesOf_eq hsubs ▸ hs)
  by_cases hsame : right.SameEntries right'
  · -- single rights of different masks
    obtain ⟨hm, hm'⟩ := hap.1.resolve_left (not_not_intro hsame)
    have hmask := objectMask_subordinate _ hm' _ hcommon _ hsub
    have hg := objectMask_not_generic _ hm
    have hatom := atom_of_common _ (objectMaskList_subset hm) hg
    rw [key_snd, map_eq_of_not_generic hg]
    refine withstands_of_disjoint hatom.ne_zero ?_
    rw [hmask, map_eq_of_not_generic (objectMask_not_generic _ hm')]
    exact objectMask_disjoint _ hm' _ hm (hap.2 hsame).symm
  · -- entries of another object or class are not touched
    refine withstands_of_not_covers (fun hc => hsame ?_) (hentries.1 ▸ hf')
    exact ⟨hentries.1.symm.trans hc.1, hentries.2.symm.trans hc.2⟩

end

/-! ## Editing the rights of a task -/

variable (g : Globals) (classList : List String) (trustee : DomSid) (checked : Bool)

/-- The edit of one right of a task: it is added to the allowing side, or removed from it. -/
def taskEdit (right : SecurityRight) : DaclEdit :=
  if checked then .addRight classList trustee right true
  else .removeRight classList trustee right true

/-- A right of a task is edited. -/
def editTaskRight (sd : SecurityDescriptor) (right : SecurityRight) :
    Except Fault SecurityDescriptor :=
  (taskEdit classList trustee checked right).apply g sd

/-- The edit of a right of a task leaves an entry. -/
def LeavesEntryOfTask (sd : SecurityDescriptor) (right : SecurityRight) : Prop :=
  (taskEdit classList trustee checked right).LeavesEntry g sd

instance : DecidableRel (LeavesEntryOfTask g classList trustee checked) := fun sd _ =>
  inferInstanceAs (Decidable (DaclEdit.LeavesEntry g sd _))

/-- The edits of the rights of a task leave entries: adding the first one does, or each removal
    does, in turn. -/
def TaskLeavesEntries (sd : SecurityDescriptor) (rights : List SecurityRight) : Prop :=
  if checked then ∀ right ∈ rights.head?, LeavesEntryOfTask g classList trustee checked sd right
  else rights.StepsMeet (LeavesEntryOfTask g classList trustee checked)
    (editTaskRight g classList trustee checked) sd

section
variable {g classList trustee checked} {rightList : List SecurityRight}
  {rights : List SecurityRight} {sd sd' : SecurityDescriptor}
  (hR : adSecurityGetRightListForClass g classList = .ok rightList) (htask : TaskRights rights)
include hR

/-- The edit of a right returns exactly if it leaves an entry. -/
theorem editTaskRight_returns_iff (right : SecurityRight) :
    (∃ sd', editTaskRight g classList trustee checked sd right = .ok sd') ↔
      LeavesEntryOfTask g classList trustee checked sd right := by
  cases checked with
  | true => exact addRight_returns_iff hR
  | false => exact removeRight_returns_iff hR

include htask

/-- Once the rights of a task are edited, they are all allowed, or none is. -/
theorem allowState_editTask
    (h : rights.foldlM (editTaskRight g classList trustee checked) sd = .ok sd') :
    ∀ right ∈ rights, AllowState sd' trustee .no right checked := by
  cases checked with
  | true =>
    refine List.foldlM_establishes (P := fun right sd => AllowState sd trustee .no right true)
      (fun _ _ right hr => allowState_addRight hR (htask.not_inherited right hr)) ?_ h
    exact htask.separate.imp_of_mem fun hr hr' hsep _ _ => allowState_addRight_separate hR
      (htask.not_inherited _ hr) (htask.not_inherited _ hr') hsep
  | false =>
    refine List.foldlM_establishes (P := fun right sd => AllowState sd trustee .no right false)
      (fun _ _ right hr => allowState_removeRight hR (htask.not_inherited right hr)
        (htask.hasRightMask right hr)) ?_ h
    exact htask.separate.imp_of_mem fun hr hr' hsep _ _ => allowState_removeRight_separate hR
      (htask.not_inherited _ hr) (htask.not_inherited _ hr') hsep (htask.hasRightMask _ hr')

/-- The rights of a task are all edited exactly if the edits leave entries. -/
theorem editTask_returns_iff :
    (∃ sd', rights.foldlM (editTaskRight g classList trustee checked) sd = .ok sd') ↔
      TaskLeavesEntries g classList trustee checked sd rights := by
  rw [TaskLeavesEntries]
  cases checked with
  | true =>
    rw [if_pos rfl]
    constructor
    · rintro ⟨sd', h⟩ right hr
      obtain ⟨rest, rfl⟩ := List.head?_eq_some_iff.1 hr
      obtain ⟨sd₁, h₁, -⟩ := Except.bind_eq_ok.1 (List.foldlM_cons.symm.trans h)
      exact (editTaskRight_returns_iff hR right).1 ⟨sd₁, h₁⟩
    · intro hfirst
      refine List.foldlM_returns (P := fun right sd => AllowState sd trustee .no right true)
        (fun _ _ right hr => allowState_addRight hR (htask.not_inherited right hr)) ?_
        fun right hr => (editTaskRight_returns_iff hR right).2 (hfirst right hr)
      exact htask.apart.imp_of_mem_imp fun _ _ hr hr' hap _ => addRight_returns_of_apart hR
        (htask.not_inherited _ hr) (htask.not_inherited _ hr') hap
  | false =>
    exact List.foldlM_returns_iff fun sd right _ => editTaskRight_returns_iff hR right

end

end Admc
