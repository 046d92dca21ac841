import Admc.Security.Exclusive
import Admc.Security.NullDacl

/-!
# What adding and removing a right are for

A right that is added is set on its side, and a right that is removed is not, and so
are the rights subordinate to it; the side opposite to an added right is clear, and so
are the superiors of a removed one (`RightAdded`, `RightRemoved`).

Whenever the edits return, they do this. They return exactly if they leave an entry in
the DACL (`DaclEdit.LeavesEntry`): an edit that takes the last one out runs into the
null DACL that is left.

* `addRight_sets`, `removeRight_clears`: what holds when an edit returns;
* `addRight_returns_iff`, `removeRight_returns_iff`: when it does.
-/

namespace Admc

open Mask Scope

variable (g : Globals)

/-- The edit returns a descriptor in which the right and its subordinates are set on the
    side, and are not on the opposite one. -/
def RightAdded (sd : SecurityDescriptor) (classList : List String) (trustee : DomSid)
    (right : SecurityRight) (allow : Bool) : Prop :=
  ∃ sd', securityDescriptorAddRight g sd classList trustee right allow = .ok sd' ∧
    ∀ subordinates, adSecurityGetSubordinateRightList g right classList = .ok subordinates →
      ∀ r ∈ right :: subordinates,
        ∃ state, securityDescriptorGetRightState sd' trustee r = .ok state ∧
          state.get .no (.ofAllow allow) = true ∧ state.get .no (.ofAllow !allow) = false

/-- The edit returns a descriptor in which the right, its superiors and its subordinates
    are not set on the side. -/
def RightRemoved (sd : SecurityDescriptor) (classList : List String) (trustee : DomSid)
    (right : SecurityRight) (allow : Bool) : Prop :=
  ∃ sd', securityDescriptorRemoveRight g sd classList trustee right allow = .ok sd' ∧
    ∀ subordinates, adSecurityGetSubordinateRightList g right classList = .ok subordinates →
      ∀ r ∈ right :: (adSecurityGetSuperiorRightList right ++ subordinates),
        ∃ state, securityDescriptorGetRightState sd' trustee r = .ok state ∧
          state.get .no (.ofAllow allow) = false

variable {g} {classList : List String} {rightList : List SecurityRight} {trustee : DomSid}
  {flags : AceFlags} {inheritedObjectType : Option Guid} {right : SecurityRight} {allow : Bool}
  {sd sd' : SecurityDescriptor}

/-! ## Rights that an edit covers -/

/-- The right `p` is set wherever `right` is, by its mask and object type, and is not
    just the bit that generic read and write share. -/
structure Covered (right p : SecurityRight) : Prop where
  objectType : right.objectType = none ∨ right.objectType = p.objectType
  includes : Includes (key right).2 (key p).2
  not_readControl : ¬((right.accessMask = secAdsGenericRead ∨
    right.accessMask = secAdsGenericWrite) ∧ p.accessMask = secStdReadControl)

theorem not_generic_readControl {m : AccessMask} :
    ¬((m = secAdsGenericRead ∨ m = secAdsGenericWrite) ∧ m = secStdReadControl) := by
  rintro ⟨rfl | rfl, h⟩ <;> exact absurd h (by decide)

theorem Covered.appliedTo (right : SecurityRight) (flags : AceFlags)
    (inheritedObjectType : Option Guid) :
    Covered (right.appliedTo flags inheritedObjectType) right :=
  ⟨.inr rfl, includes_refl _, not_generic_readControl⟩

theorem SecurityRight.HasRightMask.appliedTo (h : right.HasRightMask) (flags : AceFlags)
    (inheritedObjectType : Option Guid) :
    (right.appliedTo flags inheritedObjectType).HasRightMask := h

/-- A right covers those among its subordinates. -/
theorem Covered.subordinate {p : SecurityRight} (hr : right.HasRightMask)
    (hp : p.accessMask ∈ commonRightsList) (ho : right.objectType = none)
    (hsub : isSubordinateRight right.accessMask p.accessMask p.objectType.isSome = true) :
    Covered right p where
  objectType := .inl ho
  includes := includes_subordinate _ hr.1 _ hp _ hsub
  not_readControl := by
    rintro ⟨hm, hrc⟩
    have hm : right.accessMask ∈ genericReadWriteList := by simpa [genericReadWriteList] using hm
    obtain ⟨-, hzero⟩ := subordinate_readControl _ hm _ hp _ hsub
    rw [hrc, BitVec.and_self] at hzero
    exact absurd hzero (by decide)

/-- A right and its subordinates are rights of the class that it covers. -/
theorem covered_of_mem (hR : adSecurityGetRightListForClass g classList = .ok rightList)
    (hr : right ∈ rightList) {subordinates : List SecurityRight}
    (hsubs : adSecurityGetSubordinateRightList g (right.appliedTo flags inheritedObjectType)
      classList = .ok subordinates) {r : SecurityRight}
    (hmem : r ∈ right.appliedTo flags inheritedObjectType :: subordinates) :
    ∃ p ∈ rightList, r = p.appliedTo flags inheritedObjectType ∧
      Covered (right.appliedTo flags inheritedObjectType) p := by
  rcases List.mem_cons.1 hmem with rfl | hmem
  · exact ⟨right, hr, rfl, .appliedTo right ..⟩
  · rcases getSubordinateRightList_cases hsubs with ⟨-, rfl⟩ | ⟨ho, rightList', hR', rfl⟩
    · exact absurd hmem List.not_mem_nil
    · rcases mem_subordinatesIn.1 hmem with ⟨p, hp, hsub, rfl⟩
      have hp : p ∈ rightList := Except.ok.inj (hR'.symm.trans hR) ▸ hp
      have hrm := (hasRightMask_of_mem hR hr).appliedTo flags inheritedObjectType
      exact ⟨p, hp, rfl, .subordinate hrm (hasRightMask_of_mem hR hp).1 ho hsub⟩

/-! ## On the table -/

section
variable (hR : adSecurityGetRightListForClass g classList = .ok rightList)
  {T : Table Guid 32} {s : Bool} {p : SecurityRight}
include hR

/-- Once a right is removed, what it covers is gone. -/
theorem Covered.not_isSet_removeRight (h : Covered right p) (hr : right.HasRightMask)
    (hp : p ∈ rightList) :
    ¬(T.removeRight unsetMask s (superiorKeys rightList right) (key right)
      (subordinateKeys rightList right)).IsSet s (key p).1 (key p).2 := by
  have hpm := hasRightMask_of_mem hR hp
  by_cases hg : p.accessMask ∈ genericMaskList
  · -- a generic right goes with any single one of those it includes
    rcases exists_single_of_generic _ hg with ⟨m, hm, hmg, hne, hi⟩
    have hpo : p.objectType = none := by
      by_contra hpo
      exact objectMask_not_generic _ (hpm.2 hpo) hg
    intro hset
    rw [key_fst, hpo] at hset
    exact Admc.not_isSet_removeRight hR hr (mem_rightList_of_common hR hm) hmg
      (h.objectType.imp_right fun ho => ho.trans hpo) (h.includes.trans hi) (fun hrc => hne hrc.2)
      (hset.of_none hi)
  · have hi := h.includes
    rw [key_snd p, map_eq_of_not_generic hg] at hi
    rw [key_fst, key_snd, map_eq_of_not_generic hg]
    exact Admc.not_isSet_removeRight hR hr hp hg h.objectType hi h.not_readControl

/-- Once a right is removed, its superiors are gone. -/
theorem not_isSet_superior_removeRight (hr : right ∈ rightList) {m : AccessMask}
    (hm : m ∈ superiorMasks right.accessMask right.objectType.isSome) :
    ¬(T.removeRight unsetMask s
      (superiorKeys rightList (right.appliedTo flags inheritedObjectType)) (key right)
      (subordinateKeys rightList (right.appliedTo flags inheritedObjectType))).IsSet s none
        (adSecurityMapAccessMask m) := by
  have hrm := hasRightMask_of_mem hR hr
  have hcov : Covered (right.appliedTo flags inheritedObjectType) right := .appliedTo right ..
  exact fun hset => hcov.not_isSet_removeRight hR (hrm.appliedTo ..) hr
    (hset.of_none (includes_of_superior _ hrm.1 _ m hm))

end

/-! ## On the descriptor -/

/-- Once it is added, a right of the class is set with its subordinates, and none of them
    is on the opposite side. -/
theorem addRight_sets (hR : adSecurityGetRightListForClass g classList = .ok rightList)
    (hr : right ∈ rightList) (hf : bitmaskIsSet flags secAceFlagInheritedAce = false)
    (h : securityDescriptorAddRight g sd classList trustee
      (right.appliedTo flags inheritedObjectType) allow = .ok sd') :
    RightAdded g sd classList trustee (right.appliedTo flags inheritedObjectType) allow := by
  let sc : Scope := ⟨trustee, flags, inheritedObjectType, hf⟩
  have hview := @view_addRight sc _ _ _ allow _ _ _ hR (sc.covers_appliedTo right) h
  refine ⟨sd', h, fun subordinates hsubs r hmem => ?_⟩
  rcases covered_of_mem hR hr hsubs hmem with ⟨p, hp, rfl, hcov⟩
  rcases getRightState_isOk (dacl_of_addRight h).2 trustee (p.appliedTo flags inheritedObjectType)
    with ⟨state, hstate⟩
  refine ⟨state, hstate, ?_, ?_⟩
  · rw [@getRightState_view sc _ _ _ (sc.covers_appliedTo p) _ hstate, ← hview.isSet_iff]
    exact Table.isSet_add_self hcov.objectType hcov.includes
  · rw [Bool.eq_false_iff, Ne, @getRightState_view sc _ _ _ (sc.covers_appliedTo p) _ hstate,
      ← hview.isSet_iff, Table.isSet_congr (Table.addRight_opposite allow)]
    exact hcov.not_isSet_removeRight hR ((hasRightMask_of_mem hR hr).appliedTo ..) hp

/-- Once it is removed, a right of the class is not set, and neither are its superiors
    and subordinates. -/
theorem removeRight_clears (hR : adSecurityGetRightListForClass g classList = .ok rightList)
    (hr : right ∈ rightList) (hf : bitmaskIsSet flags secAceFlagInheritedAce = false)
    (h : securityDescriptorRemoveRight g sd classList trustee
      (right.appliedTo flags inheritedObjectType) allow = .ok sd') :
    RightRemoved g sd classList trustee (right.appliedTo flags inheritedObjectType) allow := by
  let sc : Scope := ⟨trustee, flags, inheritedObjectType, hf⟩
  have hview := @view_removeRight sc _ _ _ allow _ _ _ hR (sc.covers_appliedTo right) h
  refine ⟨sd', h, fun subordinates hsubs r hmem => ?_⟩
  rcases getRightState_isOk (dacl_of_removeRight h).2 trustee r with ⟨state, hstate⟩
  refine ⟨state, hstate, ?_⟩
  have hclear : ∀ p : SecurityRight, r = p.appliedTo flags inheritedObjectType →
      ¬(((sc.view sd).removeRight unsetMask allow
        (superiorKeys rightList (right.appliedTo flags inheritedObjectType)) (key right)
        (subordinateKeys rightList (right.appliedTo flags inheritedObjectType))).IsSet allow
          (key p).1 (key p).2) →
      state.get .no (.ofAllow allow) = false := by
    rintro p rfl hp
    rwa [Bool.eq_false_iff, Ne, @getRightState_view sc _ _ _ (sc.covers_appliedTo p) _ hstate,
      ← hview.isSet_iff]
  rw [List.mem_cons, List.mem_append, or_left_comm, ← List.mem_cons] at hmem
  rcases hmem with hmem | hmem
  · -- a superior
    rw [superiorRightList_eq_map] at hmem
    rcases List.mem_map.1 hmem with ⟨m, hm, hr'⟩
    exact hclear ⟨m, none, none, 0⟩ hr'.symm (not_isSet_superior_removeRight hR hr hm)
  · -- the right, or a subordinate
    rcases covered_of_mem hR hr hsubs hmem with ⟨p, hp, hr', hcov⟩
    exact hclear p hr' (hcov.not_isSet_removeRight hR ((hasRightMask_of_mem hR hr).appliedTo ..) hp)

/-! ## When an edit returns -/

section
variable {removals : List (SecurityRight × Bool)} {Q : SecurityAce → Prop}

/-- The DACL that is left by removing a right is null or has an entry. -/
theorem aces_ne_nil_of_removeRightBase
    (h : securityDescriptorRemoveRightBase sd trustee right allow = .ok sd')
    (hd : sd'.dacl ≠ none) : sd'.aces ≠ [] := by
  rcases removeRightBase_eq_ok.1 h with ⟨-, rfl⟩
  intro hnil
  rw [aces_replaceDacl] at hnil
  exact hd (by rw [hnil]; rfl)

theorem has_of_removeRightBase
    (h : securityDescriptorRemoveRightBase sd trustee right allow = .ok sd') (hs : sd'.Has Q) :
    sd.Has fun ace => ∃ ace' ∈ removeAccessRightsStep trustee right allow ace, Q ace' := by
  rcases removeRightBase_eq_ok.1 h with ⟨-, rfl⟩
  rcases hs with ⟨ace', hace', hQ⟩
  rw [aces_replaceDacl] at hace'
  rcases List.mem_filterMap.1 hace' with ⟨ace, hace, hstep⟩
  exact ⟨ace, hace, ace', hstep, hQ⟩

/-- What survives once the rights of a list are removed survived their removal. -/
theorem has_of_removeRightListBase {rights : List SecurityRight}
    (h : removeRightListBase trustee allow rights sd = .ok sd')
    (hs : sd'.Has (Survives trustee removals)) :
    sd.Has (Survives trustee (rights.map (·, allow) ++ removals)) := by
  induction rights generalizing sd with
  | nil => exact Except.pure_eq_ok.1 h ▸ hs
  | cons right rights ih =>
    rw [removeRightListBase, List.foldlM_cons, Except.bind_eq_ok] at h
    rcases h with ⟨sd₁, h₁, h₂⟩
    refine (has_of_removeRightBase h₁ (ih h₂)).mono fun ace hace => ?_
    rw [List.map_cons, List.cons_append]
    exact survives_cons.2 hace

/-- The superiors are broken up on a DACL that is left an entry. -/
theorem leavesEntry_of_breakUpSuperiors
    (hobject : right.objectType ≠ none → removals = [(right, allow)])
    (h : (adSecurityGetSuperiorRightList right).foldlM
      (breakUpSuperior g classList trustee allow) sd = .ok sd')
    (hs : sd'.Has (Survives trustee removals)) :
    LeavesEntryOfRight g sd classList trustee right allow removals := by
  have hd : sd.dacl ≠ none :=
    (baseInvariant_dacl g.rt sd).breakUpSuperiors (List.Subset.refl _) id h hs.dacl_ne_none
  rw [LeavesEntryOfRight]
  cases hfirst : firstSuperiorSet sd trustee right allow with
  | none =>
    rw [List.foldlM_fixed fun superior hs => breakUpSuperior_of_not_set hd
      (by simpa using List.find?_eq_none.1 hfirst superior hs)] at h
    exact Except.ok.inj h ▸ hs
  | some superior =>
    rcases List.find?_eq_some_iff_append.1 hfirst with ⟨hset, before, after, hsplit, hbefore⟩
    have hset := of_decide_eq_true hset
    have hsub : superior :: after ⊆ adSecurityGetSuperiorRightList right :=
      hsplit ▸ List.subset_append_right before _
    rw [hsplit, List.foldlM_append, List.foldlM_fixed fun superior hs =>
      breakUpSuperior_of_not_set hd (by simpa using hbefore superior hs), Except.ok_bind,
      List.foldlM_cons, Except.bind_eq_ok] at h
    rcases h with ⟨sd₂, hbreak, hafter⟩
    simp only [breakUpSuperior, hset, Except.ok_bind, Bool.not_true, Bool.false_eq_true, if_false,
      Except.bind_eq_ok] at hbreak
    rcases hbreak with ⟨sd₁, hremove, subordinates, hsubs, hadd⟩
    have haces : sd₁.aces =
        sd.aces.filterMap (removeAccessRightsStep trustee superior allow) := by
      rw [← (removeRightBase_eq_ok.1 hremove).2, aces_replaceDacl]
    have hd₂ : sd₂.dacl ≠ none := (baseInvariant_dacl g.rt sd₂).breakUpSuperiors
      (fun _ hmem => hsub (List.mem_cons_of_mem _ hmem)) id hafter hs.dacl_ne_none
    have hd₁ : sd₁.dacl ≠ none := (baseInvariant_dacl g.rt sd₁).addRightListBase
      (fun _ => sameEntries_of_mem_subordinate hsubs) id hadd hd₂
    have hne := aces_ne_nil_of_removeRightBase hremove hd₁
    refine ⟨haces ▸ hne, or_iff_not_imp_left.2 fun hother => ?_⟩
    rw [subordinatesOf_eq hsubs] at hother
    rcases superiorMasks_split hsplit with ⟨hm, hsup, hmem, hsplitAfter⟩
    have hall : ∀ subordinate ∈ subordinates, subordinate = right := by simpa using hother
    -- a generic superior has a subordinate that is not the right
    have hg : superior.accessMask ∉ genericMaskList := by
      intro hg
      rcases spareMask_spec _ hg with ⟨hspare, hsub, hne, hmap⟩
      have ho : superior.objectType = none := by rw [hsup]; rfl
      have heq := hall _ (mem_subordinates_of_common hsubs ho hspare hsub)
      have hzero := spareMask_and _ hm _ _ hmem hg
      rw [← heq, hmap, BitVec.and_self] at hzero
      exact hne hzero
    have hnil : after = [] :=
      List.eq_nil_iff_forall_not_mem.2 fun s hs => hg (hsplitAfter s hs).1
    have hpresent := (superiorMask_eq_of_not_generic _ hm _ _ hmem hg).1
    rw [hnil, List.foldlM_nil, Except.pure_eq_ok] at hafter
    rcases Except.yields_iff.1 (addRightListBase_replicate hall ⟨_, List.head_mem hne, trivial⟩)
      with ⟨hyields, -⟩
    have haces₂ := hyields sd₂ hadd
    rw [hobject (Option.isSome_iff_ne_none.1 hpresent), ← hafter] at hs
    rw [putBack, subordinatesOf_eq hsubs, ← haces, ← haces₂]
    exact hs

/-- A DACL that is not null has an entry, along the removals of an edit. -/
theorem aces_ne_nil_of_removeRightListBase {rights : List SecurityRight}
    (h : removeRightListBase trustee allow rights sd = .ok sd')
    (hsd : sd.dacl ≠ none → sd.aces ≠ []) (hd : sd'.dacl ≠ none) : sd'.aces ≠ [] :=
  List.foldlM_invariant (fun _ _ _ _ h _ => aces_ne_nil_of_removeRightBase h) hsd h hd

theorem has_of_aces_ne_nil (h : sd.aces ≠ []) : sd.Has (Survives trustee []) :=
  ⟨_, List.head_mem h, rfl⟩

/-- An edit adding a right that returns leaves an entry. -/
theorem leavesEntry_of_addRight
    (h : securityDescriptorAddRight g sd classList trustee right allow = .ok sd') :
    (DaclEdit.addRight classList trustee right allow).LeavesEntry g sd := by
  simp only [securityDescriptorAddRight, Except.bind_eq_ok] at h
  rcases h with ⟨sd₁, h₁, subordinates, hsubs, sd₂, h₂, sd₃, h₃, sd₄, h₄, sd₅, h₅, -⟩
  have hd₄ : sd₄.dacl ≠ none := by
    rcases addRightBase_eq_ok h₅ with ⟨dacl, hd, -⟩
    exact hd ▸ Option.some_ne_none dacl
  have hs₄ : sd₄.Has (Survives trustee []) := has_of_aces_ne_nil
    (aces_ne_nil_of_removeRightListBase h₄ (aces_ne_nil_of_removeRightBase h₃) hd₄)
  have hs₂ : sd₂.Has (Survives trustee ((right, !allow) :: subordinates.map (·, !allow))) := by
    have hs₃ := has_of_removeRightListBase h₄ hs₄
    rw [List.append_nil] at hs₃
    exact (has_of_removeRightBase h₃ hs₃).mono fun ace hace => survives_cons.2 hace
  refine leavesEntry_of_breakUpSuperiors addRemovals_of_object h₁ ?_
  rw [addRemovals, subordinatesOf_eq hsubs]
  exact has_of_removeRightListBase h₂ hs₂

/-- An edit removing a right that returns leaves an entry. -/
theorem leavesEntry_of_removeRight
    (h : securityDescriptorRemoveRight g sd classList trustee right allow = .ok sd') :
    (DaclEdit.removeRight classList trustee right allow).LeavesEntry g sd := by
  simp only [securityDescriptorRemoveRight, Except.bind_eq_ok] at h
  rcases h with ⟨sd₁, h₁, sd₂, h₂, subordinates, hsubs, sd₃, h₃, h₄⟩
  have hd₃ : sd₃.dacl ≠ none := by
    rcases sortDacl_eq_ok.1 h₄ with ⟨dacl, hd, -⟩
    exact hd ▸ Option.some_ne_none dacl
  have hs₃ : sd₃.Has (Survives trustee []) := has_of_aces_ne_nil
    (aces_ne_nil_of_removeRightListBase h₃ (aces_ne_nil_of_removeRightBase h₂) hd₃)
  have hs₂ := has_of_removeRightListBase h₃ hs₃
  rw [List.append_nil] at hs₂
  refine leavesEntry_of_breakUpSuperiors removeRemovals_of_object h₁ ?_
  rw [removeRemovals, subordinatesOf_eq hsubs]
  exact (has_of_removeRightBase h₂ hs₂).mono fun ace hace => survives_cons.2 hace

end

/-! ### Faults -/

/-- The computation can only fail on a null DACL. -/
abbrev FailsOnNullDacl (x : Except Fault SecurityDescriptor) : Prop :=
  x.Yields (· = .nullDacl) fun _ => True

theorem addRightBase_fails (rt : Runtime) (sd : SecurityDescriptor) (right : SecurityRight) :
    FailsOnNullDacl (securityDescriptorAddRightBase rt sd trustee right allow) := by
  by_cases hd : sd.dacl = none
  · rw [securityDescriptorAddRightBase, hd]
    rfl
  · rcases @addRightBase_returns rt sd trustee right allow hd with ⟨sd', h⟩
    rw [h]
    trivial

theorem removeRightBase_fails (sd : SecurityDescriptor) (right : SecurityRight) :
    FailsOnNullDacl (securityDescriptorRemoveRightBase sd trustee right allow) := by
  by_cases hd : sd.dacl = none
  · rw [securityDescriptorRemoveRightBase, removeAccessRights, securityDescriptorGetDacl, hd]
    rfl
  · rw [removeRightBase_eq_ok.2 ⟨hd, rfl⟩]
    trivial

theorem removeRightListBase_fails (rights : List SecurityRight) (sd : SecurityDescriptor) :
    FailsOnNullDacl (removeRightListBase trustee allow rights sd) :=
  List.foldlM_yields (fun sd _ right _ => removeRightBase_fails sd right) trivial

theorem sortDacl_fails (rt : Runtime) (sd : SecurityDescriptor) :
    FailsOnNullDacl (securityDescriptorSortDacl rt sd) := by
  rw [securityDescriptorSortDacl]
  cases sd.dacl with
  | none => rfl
  | some dacl => trivial

section
variable (hR : adSecurityGetRightListForClass g classList = .ok rightList)
include hR

theorem breakUpSuperiors_fails (superiors : List SecurityRight) (sd : SecurityDescriptor) :
    FailsOnNullDacl (superiors.foldlM (breakUpSuperior g classList trustee allow) sd) := by
  refine List.foldlM_yields (fun sd _ superior _ => ?_) trivial
  by_cases hd : sd.dacl = none
  · rw [breakUpSuperior, isSuperiorSet, securityDescriptorGetRightState,
      securityDescriptorGetDacl, hd]
    rfl
  · rcases @isSuperiorSet_eq sd trustee allow hd superior with ⟨_ | _, hset⟩
    · rw [breakUpSuperior_of_not_set hd (by simp [hset])]
      trivial
    · rw [breakUpSuperior, hset, (getSubordinateRightList_eq_ok hR).2 rfl]
      exact (removeRightBase_fails sd superior).bind fun sd₁ _ =>
        List.foldlM_yields (fun sd _ right _ => addRightBase_fails g.rt sd right) trivial

omit hR in
/-- What keeps an entry, and can only fail on a null DACL, returns. -/
theorem returns_of_keepsEntry {Q : SecurityAce → Prop} {x : Except Fault SecurityDescriptor}
    (hx : KeepsEntry Q x) (hfails : FailsOnNullDacl x) : ∃ sd', x = .ok sd' := by
  cases x with
  | ok sd' => exact ⟨sd', rfl⟩
  | error e => exact absurd hfails hx

/-- An edit adding a right of the class returns exactly if it leaves an entry. -/
theorem addRight_returns_iff :
    (∃ sd', securityDescriptorAddRight g sd classList trustee right allow = .ok sd') ↔
      (DaclEdit.addRight classList trustee right allow).LeavesEntry g sd := by
  refine ⟨fun ⟨sd', h⟩ => leavesEntry_of_addRight h, fun h => ?_⟩
  refine returns_of_keepsEntry (addRight_keeps h) ?_
  rw [securityDescriptorAddRight, (getSubordinateRightList_eq_ok hR).2 rfl]
  exact (breakUpSuperiors_fails hR _ sd).bind fun sd₁ _ =>
    (removeRightListBase_fails _ sd₁).bind fun sd₂ _ =>
      (removeRightBase_fails sd₂ right).bind fun sd₃ _ =>
        (removeRightListBase_fails _ sd₃).bind fun sd₄ _ =>
          (addRightBase_fails g.rt sd₄ right).bind fun sd₅ _ => sortDacl_fails g.rt sd₅

/-- An edit removing a right of the class returns exactly if it leaves an entry. -/
theorem removeRight_returns_iff :
    (∃ sd', securityDescriptorRemoveRight g sd classList trustee right allow = .ok sd') ↔
      (DaclEdit.removeRight classList trustee right allow).LeavesEntry g sd := by
  refine ⟨fun ⟨sd', h⟩ => leavesEntry_of_removeRight h, fun h => ?_⟩
  refine returns_of_keepsEntry (removeRight_keeps h) ?_
  rw [securityDescriptorRemoveRight, (getSubordinateRightList_eq_ok hR).2 rfl]
  exact (breakUpSuperiors_fails hR _ sd).bind fun sd₁ _ =>
    (removeRightBase_fails sd₁ right).bind fun sd₂ _ =>
      (removeRightListBase_fails _ sd₂).bind fun sd₃ _ => sortDacl_fails g.rt sd₃

end

/-! ## The edits -/

/-- Adding a right of the class sets it with its subordinates, and clears the opposite
    side, exactly if it leaves an entry of the DACL. -/
theorem rightAdded_iff (hR : adSecurityGetRightListForClass g classList = .ok rightList)
    (hr : right ∈ rightList) (hf : bitmaskIsSet flags secAceFlagInheritedAce = false) :
    RightAdded g sd classList trustee (right.appliedTo flags inheritedObjectType) allow ↔
      (DaclEdit.addRight classList trustee (right.appliedTo flags inheritedObjectType)
        allow).LeavesEntry g sd := by
  rw [← addRight_returns_iff hR]
  exact ⟨fun ⟨sd', h, _⟩ => ⟨sd', h⟩, fun ⟨sd', h⟩ => addRight_sets hR hr hf h⟩

/-- Allowing generic read to "Everyone", in a DACL with an entry for another trustee. -/
theorem rightAdded_genericRead :
    RightAdded .empty sampleDescriptor ["user"] sidWorld
      ((SecurityRight.ofMask secAdsGenericRead).appliedTo 0 none) true :=
  have hR : adSecurityGetRightListForClass .empty ["user"] = .ok adSecurityGetCommonRights := rfl
  (rightAdded_iff hR (by decide) (by decide)).2 (by decide)

/-- Allowing "list contents" to a trustee who is denied it, by the only entry of the
    DACL. -/
theorem not_rightAdded_onlyEntry :
    adSecurityGetRightListForClass .empty ["user"] = .ok adSecurityGetCommonRights ∧
      SecurityRight.ofMask secAdsList ∈ adSecurityGetCommonRights ∧
      ¬RightAdded .empty (.ofAces [{ zeroAce with
        type := .accessDenied, accessMask := secAdsList, trustee := sidWorld }]) ["user"] sidWorld
          (.ofMask secAdsList) true := by
  refine ⟨rfl, by decide, ?_⟩
  have hrun : securityDescriptorAddRight .empty (.ofAces [{ zeroAce with
      type := .accessDenied, accessMask := secAdsList, trustee := sidWorld }]) ["user"] sidWorld
        (.ofMask secAdsList) true = .error .nullDacl := by
    decide
  rintro ⟨sd', h, -⟩
  rw [hrun] at h
  exact absurd h nofun

/-- Removing a right of the class clears it, its superiors and its subordinates, exactly
    if it leaves an entry of the DACL. -/
theorem rightRemoved_iff (hR : adSecurityGetRightListForClass g classList = .ok rightList)
    (hr : right ∈ rightList) (hf : bitmaskIsSet flags secAceFlagInheritedAce = false) :
    RightRemoved g sd classList trustee (right.appliedTo flags inheritedObjectType) allow ↔
      (DaclEdit.removeRight classList trustee (right.appliedTo flags inheritedObjectType)
        allow).LeavesEntry g sd := by
  rw [← removeRight_returns_iff hR]
  exact ⟨fun ⟨sd', h, _⟩ => ⟨sd', h⟩, fun ⟨sd', h⟩ => removeRight_clears hR hr hf h⟩

/-- Removing generic read from "Everyone", who has full control, in a DACL with an entry
    for another trustee. -/
theorem rightRemoved_genericRead :
    RightRemoved .empty (everyoneDescriptor secAdsGenericAll) ["user"] sidWorld
      ((SecurityRight.ofMask secAdsGenericRead).appliedTo 0 none) true :=
  have hR : adSecurityGetRightListForClass .empty ["user"] = .ok adSecurityGetCommonRights := rfl
  (rightRemoved_iff hR (by decide) (by decide)).2 (by decide)

/-- Removing full control from the only trustee of the DACL. -/
theorem not_rightRemoved_onlyEntry :
    adSecurityGetRightListForClass .empty ["user"] = .ok adSecurityGetCommonRights ∧
      SecurityRight.ofMask secAdsGenericAll ∈ adSecurityGetCommonRights ∧
      ¬RightRemoved .empty sampleDescriptor ["user"] sidNtSelf (.ofMask secAdsGenericAll) true := by
  refine ⟨rfl, by decide, ?_⟩
  have hrun : securityDescriptorRemoveRight .empty sampleDescriptor ["user"] sidNtSelf
      (.ofMask secAdsGenericAll) true = .error .nullDacl := by
    decide
  rintro ⟨sd', h, -⟩
  rw [hrun] at h
  exact absurd h nofun

end Admc
