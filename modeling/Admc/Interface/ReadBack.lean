import Admc.Interface.CheckBoxes
import Admc.Security.Postconditions

/-!
# Reading check boxes back

What a check box of a descriptor shows once it has been set.

* `passwordReadsBack_iff`: "cannot change password" shows what was set just if the edit
  leaves an entry of the DACL, and if it is not cleared where the right is denied otherwise,
  as by an entry that denies all extended rights.
* `setProtectedEdit_readsBack`: the protection against deletion shows what was set, if an
  entry is left for others; but a descriptor that is protected only half is not touched.
-/

namespace Admc

section
variable {g : Globals} {sd sd₁ sd' : SecurityDescriptor} {enabled : Bool}

/-! ## Changing the password -/

/-- Setting "cannot change password" is read back. -/
def PasswordReadsBack (g : Globals) (sd : SecurityDescriptor) (enabled : Bool) : Prop :=
  ∃ sd₁ sd', setUserCantChangePass g sd enabled = .ok sd₁ ∧
    securityDescriptorSortDacl g.rt sd₁ = .ok sd' ∧ isPasswordChangeDenied g sd' = .ok enabled

/-- An entry is left once the right to change the password is taken from the first trustee, on
    the side that is not set. -/
def LeavesPasswordEntry (conf : AdConfig) (sd : SecurityDescriptor) (enabled : Bool) : Prop :=
  sd.Has (Survives sidNtSelf [(changePassRight conf, enabled)])

/-- An entry of one side is left alone when a right is removed on the other one. -/
theorem removeAccessRightsStep_other_side {trustee : DomSid} {right : SecurityRight}
    {allow : Bool} {ace : SecurityAce} (hside : ace.side = some (!allow)) :
    removeAccessRightsStep trustee right allow ace = some ace := by
  have hmatch : aceMatchWithoutAccessMask ace trustee right allow editMatchFlags = false := by
    rw [Bool.eq_false_iff, Ne, editMatch_iff]
    rintro ⟨hallow, -⟩
    have hsides := Option.some.inj (hside.symm.trans hallow)
    cases allow <;> exact nomatch hsides
  rw [removeAccessRightsStep, hmatch]
  rfl

theorem sortDacl_returns {rt : Runtime} (hd : sd.dacl ≠ none) :
    ∃ sd', securityDescriptorSortDacl rt sd = .ok sd' := by
  rcases Option.ne_none_iff_exists'.1 hd with ⟨dacl, hd⟩
  exact ⟨_, sortDacl_eq_ok.2 ⟨dacl, hd, rfl⟩⟩

/-- A right is taken from one side and given to the other one, if that leaves an entry. -/
theorem removeThenAdd_returns {rt : Runtime} {trustee : DomSid} {right : SecurityRight}
    {allow : Bool} (h : sd.Has fun ace =>
      ∃ ace' ∈ removeAccessRightsStep trustee right allow ace, Survives trustee [] ace') :
    ∃ sd₁ sd₂, securityDescriptorRemoveRightBase sd trustee right allow = .ok sd₁ ∧
      securityDescriptorAddRightBase rt sd₁ trustee right (!allow) = .ok sd₂ ∧
      sd₂.Has fun ace => ace.side = some (!allow) := by
  let sd₁ := adSecurityReplaceDacl sd (sd.aces.filterMap
    (removeAccessRightsStep trustee right allow))
  have hremove : securityDescriptorRemoveRightBase sd trustee right allow = .ok sd₁ :=
    removeRightBase_eq_ok.2 ⟨h.dacl_ne_none, rfl⟩
  have hleft : sd₁.Has (Survives trustee []) := by
    have hkeeps := removeRightBase_keeps h
    rwa [hremove] at hkeeps
  rcases @addRightBase_returns rt sd₁ trustee right (!allow) hleft.dacl_ne_none with ⟨sd₂, hadd⟩
  rcases @exists_mem_addRightAces_matching rt trustee right (!allow) sd₁.aces with
    ⟨ace, hace, hmatch, -⟩
  exact ⟨sd₁, sd₂, hremove, hadd, ace, aces_addRightBase hadd ▸ hace, (editMatch_iff.1 hmatch).1⟩

/-- Setting "cannot change password" returns just if an entry is left for the first trustee:
    the entry that is given to this one is left for the second. -/
theorem setUserCantChangePass_returns_iff :
    (∃ sd₁, setUserCantChangePass g sd enabled = .ok sd₁) ↔
      LeavesPasswordEntry g.adconfig sd enabled := by
  have hleaves : LeavesPasswordEntry g.adconfig sd enabled ↔ sd.Has fun ace =>
      ∃ ace' ∈ removeAccessRightsStep sidNtSelf (changePassRight g.adconfig) enabled ace,
        Survives sidNtSelf [] ace' :=
    exists_congr fun _ => and_congr_right fun _ => survives_cons
  simp only [setUserCantChangePass, cantChangePassTrusteeCnList, List.foldlM_cons,
    List.foldlM_nil, Except.bind_eq_ok, Except.pure_eq_ok, Bool.not_not]
  constructor
  · rintro ⟨_, sd₂, ⟨sd₁, hremove, hadd⟩, -⟩
    rcases addRightBase_eq_ok hadd with ⟨dacl, hd, -⟩
    have hdacl : sd₁.dacl ≠ none := fun hnone => nomatch hd.symm.trans hnone
    have hleft : sd₁.Has (Survives sidNtSelf []) :=
      has_of_aces_ne_nil (aces_ne_nil_of_removeRightBase hremove hdacl)
    exact hleaves.2 (has_of_removeRightBase hremove hleft)
  · intro h
    rcases removeThenAdd_returns (hleaves.1 h) with ⟨sd₁, sd₂, hremove, hadd, hself⟩
    have hother : sd₂.Has fun ace => ∃ ace' ∈ removeAccessRightsStep sidWorld
        (changePassRight g.adconfig) enabled ace, Survives sidWorld [] ace' :=
      hself.mono fun ace hside => ⟨ace, removeAccessRightsStep_other_side hside, rfl⟩
    rcases removeThenAdd_returns hother with ⟨sd₃, sd₄, hremove', hadd', -⟩
    exact ⟨sd₄, sd₂, ⟨sd₁, hremove, hadd⟩, sd₄, ⟨sd₃, hremove', hadd'⟩, rfl⟩

/-- Setting "cannot change password" is read back just if the edit leaves an entry, and if it
    is not cleared where the right is denied otherwise. -/
theorem passwordReadsBack_iff (g : Globals) (sd : SecurityDescriptor) (enabled : Bool) :
    PasswordReadsBack g sd enabled ↔ LeavesPasswordEntry g.adconfig sd enabled ∧
      (enabled = false → ¬PasswordDeniedOtherwise g.adconfig sd.aces) := by
  rw [← setUserCantChangePass_returns_iff]
  constructor
  · rintro ⟨sd₁, sd', hset, hsort, hread⟩
    exact ⟨⟨sd₁, hset⟩, (setUserCantChangePass_spec hset hsort).2.2.2.1 hread⟩
  · rintro ⟨⟨sd₁, hset⟩, hdenied⟩
    have hdacl : sd₁.dacl ≠ none := by
      simp only [setUserCantChangePass, cantChangePassTrusteeCnList, List.foldlM_cons,
        List.foldlM_nil, Except.bind_eq_ok, Except.pure_eq_ok] at hset
      rcases hset with ⟨_, -, _, ⟨_, -, hadd⟩, rfl⟩
      rcases addRightBase_eq_ok hadd with ⟨dacl, -, rfl | ⟨ace, rfl, -⟩⟩
      · exact Option.some_ne_none _
      · exact dacl_daclAdd_ne_none _ _
    rcases @sortDacl_returns sd₁ g.rt hdacl with ⟨sd', hsort⟩
    exact ⟨sd₁, sd', hset, hsort, (setUserCantChangePass_spec hset hsort).2.2.2.2 hdenied⟩

/-- Globals where the right to change the password has a GUID. -/
def passwordGlobals : Globals :=
  { Globals.empty with
    adconfig := { AdConfig.empty with rightToGuidMap := [("User-Change-Password", some ⟨1⟩)] } }

/-- An entry of the first trustee about the right to change the password. -/
def passwordAce (type : SecurityAceType) (objectFlags : BitVec 32) : SecurityAce :=
  { zeroAce with
    type, accessMask := secAdsControlAccess, object := ⟨objectFlags, ⟨1⟩, ⟨0⟩⟩
    trustee := sidNtSelf }

/-- A user whose extended rights are all denied still cannot change the password when this is
    cleared, and one who is just allowed to change it is not denied it when this is set. -/
theorem not_passwordReadsBack :
    ¬(∀ (g : Globals) (sd : SecurityDescriptor) (enabled : Bool), sd.dacl ≠ none →
        PasswordReadsBack g sd enabled) ∧
      ¬PasswordReadsBack passwordGlobals (.ofAces [passwordAce .accessDenied 0]) false ∧
      ¬PasswordReadsBack passwordGlobals
        (.ofAces [passwordAce .accessAllowedObject secAceObjectTypePresent]) true := by
  have hclear : ¬PasswordReadsBack passwordGlobals
      (.ofAces [passwordAce .accessDenied 0]) false := by
    have hrun : (do
        let sd₁ ← setUserCantChangePass passwordGlobals
          (.ofAces [passwordAce .accessDenied 0]) false
        let sd' ← securityDescriptorSortDacl passwordGlobals.rt sd₁
        isPasswordChangeDenied passwordGlobals sd') = .ok true := by
      decide
    rintro ⟨sd₁, sd', hset, hsort, hread⟩
    rw [hset, Except.ok_bind, hsort, Except.ok_bind, hread] at hrun
    exact nomatch hrun
  have hset : setUserCantChangePass passwordGlobals
      (.ofAces [passwordAce .accessAllowedObject secAceObjectTypePresent]) true =
        .error .nullDacl := by
    decide
  exact ⟨fun h => hclear (h _ _ _ (by decide)), hclear,
    fun ⟨sd₁, _, hsd₁, _⟩ => nomatch hset.symm.trans hsd₁⟩

/-! ## Protection against deletion -/

/-- Entries that deny to "Everyone", explicit and without object types. -/
def IsProtectionAce (ace : SecurityAce) : Prop :=
  ace.side = some false ∧ ace.flags = 0 ∧ ace.trustee = sidWorld ∧ ace.objectType = none ∧
    ace.inheritedObjectType = none

instance (ace : SecurityAce) : Decidable (IsProtectionAce ace) :=
  inferInstanceAs (Decidable (_ ∧ _ ∧ _ ∧ _ ∧ _))

/-- The bits of the protection. -/
def protectionMask : AccessMask := secStdDelete ||| secAdsDeleteTree

/-- What an entry is but for the bits of the protection, if there is anything else to it. -/
def withoutProtection (ace : SecurityAce) : Option SecurityAce :=
  if IsProtectionAce ace then
    if ace.accessMask &&& ~~~protectionMask = 0 then none
    else some { ace with accessMask := ace.accessMask &&& ~~~protectionMask }
  else some ace

/-- No entry denies a bit of the protection. -/
def DeniesNoProtection (sd : SecurityDescriptor) : Prop :=
  ∀ ace ∈ sd.aces, IsProtectionAce ace →
    ∀ mask ∈ protectDeletionMaskList, bitmaskIsSet ace.accessMask mask = false

/-- An entry is left once the bits of the protection are taken away. -/
def LeavesOtherEntry (sd : SecurityDescriptor) : Prop :=
  sd.Has (Survives sidWorld (protectDeletionMaskList.map fun mask => (.ofMask mask, false)))

theorem editMatch_ofMask_iff {ace : SecurityAce} {mask : AccessMask} :
    aceMatchWithoutAccessMask ace sidWorld (.ofMask mask) false editMatchFlags = true ↔
      IsProtectionAce ace := by
  have hflags : ¬SecurityAce.IsInheritedInheritable 0 := by decide
  rw [editMatch_iff, IsProtectionAce]
  constructor
  · rintro ⟨hside, hzero, htrustee, hinherited, htype⟩
    rw [hzero] at hinherited
    exact ⟨hside, hzero, htrustee, htype, hinherited.resolve_right hflags⟩
  · rintro ⟨hside, hzero, htrustee, htype, hinherited⟩
    exact ⟨hside, hzero, htrustee, .inl hinherited, htype⟩

theorem isProtectionAce_setMask {ace : SecurityAce} {mask : AccessMask} :
    IsProtectionAce { ace with accessMask := mask } ↔ IsProtectionAce ace := Iff.rfl

/-- Two masks are the same for an entry but for the bits of the protection. -/
theorem withoutProtection_congr {ace : SecurityAce} {mask : AccessMask} (h : IsProtectionAce ace)
    (hmask : mask &&& ~~~protectionMask = ace.accessMask &&& ~~~protectionMask) :
    withoutProtection { ace with accessMask := mask } = withoutProtection ace := by
  rw [withoutProtection, withoutProtection, if_pos h, if_pos (isProtectionAce_setMask.2 h)]
  simp only [hmask]

theorem and_not_protectionMask (mask : AccessMask) :
    ∀ bit ∈ protectDeletionMaskList,
      mask &&& ~~~bit &&& ~~~protectionMask = mask &&& ~~~protectionMask ∧
        (mask ||| bit) &&& ~~~protectionMask = mask &&& ~~~protectionMask := by
  have hmasks : ∀ bit ∈ protectDeletionMaskList,
      ~~~bit &&& ~~~protectionMask = ~~~protectionMask ∧ bit &&& ~~~protectionMask = 0 := by
    decide
  intro bit hbit
  rcases hmasks bit hbit with ⟨hnot, hzero⟩
  constructor
  · rw [BitVec.and_assoc, hnot]
  · rw [BitVec.and_or_distrib_right, hzero]
    exact BitVec.or_zero

instance (sd : SecurityDescriptor) : Decidable (DeniesNoProtection sd) :=
  inferInstanceAs (Decidable (∀ _ ∈ _, _ → ∀ _ ∈ _, _))

instance (sd : SecurityDescriptor) : Decidable (LeavesOtherEntry sd) :=
  inferInstanceAs (Decidable (∃ _ ∈ _, _))

variable {rt : Runtime} {aces : List SecurityAce} {mask : AccessMask}

/-- Taking a bit of the protection away makes no other difference, -/
theorem withoutProtection_removeAccessRightsStep (hmask : mask ∈ protectDeletionMaskList)
    (ace : SecurityAce) :
    (removeAccessRightsStep sidWorld (.ofMask mask) false ace).bind withoutProtection =
      withoutProtection ace := by
  rcases ofMask_isBit mask hmask with ⟨i, hbit⟩
  have hmap : adSecurityMapAccessMask mask = mask := hbit.map_eq
  have hunset : getMaskToUnset ace.accessMask mask = mask := hbit.unset_eq ace.accessMask
  simp only [removeAccessRightsStep, SecurityRight.ofMask, hmap, aceUnsetMask, hunset]
  split_ifs with hmatch hzero
  · -- the entry is dropped, as it has no other bit
    have hprotection := editMatch_ofMask_iff.1 (Bool.and_eq_true_iff.1 hmatch).1
    have hnone : ace.accessMask &&& ~~~protectionMask = 0 := by
      rw [← (and_not_protectionMask ace.accessMask mask hmask).1]
      exact (congrArg (· &&& ~~~protectionMask) hzero).trans BitVec.zero_and
    rw [withoutProtection, if_pos hprotection, if_pos hnone]
    rfl
  · have hprotection := editMatch_ofMask_iff.1 (Bool.and_eq_true_iff.1 hmatch).1
    exact withoutProtection_congr hprotection (and_not_protectionMask ace.accessMask mask hmask).1
  · rfl

/-- and neither does adding it. -/
theorem filterMap_withoutProtection_add (hmask : mask ∈ protectDeletionMaskList) :
    (addRightAces rt sidWorld (.ofMask mask) false aces).filterMap withoutProtection =
      aces.filterMap withoutProtection := by
  rcases ofMask_isBit mask hmask with ⟨i, hbit⟩
  have hmap : adSecurityMapAccessMask (SecurityRight.ofMask mask).accessMask = mask := hbit.map_eq
  induction aces with
  | nil =>
    rcases makeSecurityAce_parts rt sidWorld (.ofMask mask) mask false with
      ⟨hside, hflags, htrustee, hinherited, htype⟩
    have hnew :
        withoutProtection (makeSecurityAce rt sidWorld (.ofMask mask) mask false) = none := by
      have hzero : mask &&& ~~~protectionMask = 0 :=
        (by decide : ∀ bit ∈ protectDeletionMaskList, bit &&& ~~~protectionMask = 0) mask hmask
      rw [withoutProtection, if_pos ⟨hside, hflags, htrustee, htype, hinherited⟩]
      exact if_pos hzero
    rw [addRightAces, hmap, List.filterMap_cons_none hnew]
  | cons ace aces ih =>
    rw [addRightAces, hmap]
    split_ifs with hmatch
    · have hsame := withoutProtection_congr (editMatch_ofMask_iff.1 hmatch)
        (and_not_protectionMask ace.accessMask mask hmask).2
      rw [List.filterMap_cons, List.filterMap_cons, hsame]
    · rw [List.filterMap_cons, List.filterMap_cons, ih]

theorem filterMap_withoutProtection_protect
    (h : protectAgainstDeletion rt sd enabled = .ok sd') :
    sd'.aces.filterMap withoutProtection = sd.aces.filterMap withoutProtection := by
  refine List.foldlM_invariant (P := fun s => s.aces.filterMap withoutProtection =
    sd.aces.filterMap withoutProtection) (fun s s' mask hmask h hs => Eq.trans ?_ hs) rfl h
  split_ifs at h
  · rw [aces_addRightBase h, filterMap_withoutProtection_add hmask]
  · obtain ⟨-, rfl⟩ := removeRightBase_eq_ok.1 h
    rw [aces_replaceDacl, List.filterMap_filterMap]
    exact List.filterMap_congr fun ace _ => withoutProtection_removeAccessRightsStep hmask ace

/-- Once the protection is taken away no bit of it is denied. -/
theorem deniesNoProtection_protect (h : protectAgainstDeletion rt sd false = .ok sd') :
    DeniesNoProtection sd' := by
  simp only [protectAgainstDeletion, protectDeletionMaskList, List.foldlM_cons, List.foldlM_nil,
    Except.bind_eq_ok, Except.pure_eq_ok, if_neg Bool.false_ne_true] at h
  rcases h with ⟨sd₁, h₁, sd₂, h₂, rfl⟩
  intro ace hace hprotection mask hmask
  have hmatch : ∀ mask, ace.kind.MatchesEdit sidWorld (.ofMask mask) false := fun mask =>
    editMatch_kind.1 (editMatch_ofMask_iff.2 hprotection)
  rw [Bool.eq_false_iff]
  intro hset
  rcases List.mem_pair.1 hmask with rfl | rfl
  · have hbit : BitSet sd₂.aces ace.kind 16 :=
      ⟨ace, hace, rfl, ofMask_isBit_delete.isSet_iff.1 hset⟩
    rw [bitSet_removeRightBase ofMask_isBit_deleteTree h₂,
      bitSet_removeRightBase ofMask_isBit_delete h₁] at hbit
    exact hbit.1.2 ⟨hmatch _, rfl⟩
  · have hbit : BitSet sd₂.aces ace.kind 6 :=
      ⟨ace, hace, rfl, ofMask_isBit_deleteTree.isSet_iff.1 hset⟩
    rw [bitSet_removeRightBase ofMask_isBit_deleteTree h₂] at hbit
    exact hbit.2 ⟨hmatch _, rfl⟩

theorem protectAgainstDeletion_returns (hother : LeavesOtherEntry sd) :
    ∃ sd', protectAgainstDeletion rt sd enabled = .ok sd' ∧ sd'.dacl ≠ none := by
  have hkeeps := @protectAgainstDeletion_keeps rt sd enabled (hother.mono fun _ _ => trivial)
    (.inr hother)
  have hfails : FailsOnNullDacl (protectAgainstDeletion rt sd enabled) := by
    refine List.foldlM_yields (fun sd _ mask _ => ?_) trivial
    split_ifs
    exacts [addRightBase_fails rt sd _, removeRightBase_fails sd _]
  rcases returns_of_keepsEntry hkeeps hfails with ⟨sd', h⟩
  rw [h] at hkeeps
  exact ⟨sd', h, hkeeps.dacl_ne_none⟩

theorem aces_sortDacl (h : securityDescriptorSortDacl rt sd = .ok sd') :
    sd'.aces.Perm sd.aces := by
  rcases sortDacl_eq_ok.1 h with ⟨dacl, hd, rfl⟩
  simp only [SecurityDescriptor.aces, hd, Option.map_some, Option.getD_some]
  exact sortAces_perm rt dacl.aces

theorem setProtectedEdit_of_ne {isEnabled : Bool} {sd₁ : SecurityDescriptor}
    (hisEnabled : isDeleteProtectedForTrustee sd sidWorld = .ok isEnabled)
    (hne : isEnabled ≠ enabled) (h : protectAgainstDeletion rt sd enabled = .ok sd₁)
    (hsort : securityDescriptorSortDacl rt sd₁ = .ok sd') :
    setProtectedEdit rt sd enabled = .ok (some sd') := by
  simp only [setProtectedEdit, hisEnabled, Except.ok_bind, if_neg hne, h, hsort]
  rfl

/-- Setting the protection of a descriptor that has another entry is read back, and makes no
    other difference; it makes none at all if it is as it should be already, and leaves no bit
    of it denied if it is taken away. -/
theorem setProtectedEdit_readsBack (rt : Runtime) (sd : SecurityDescriptor) (enabled : Bool)
    (hother : LeavesOtherEntry sd) : ∃ out, setProtectedEdit rt sd enabled = .ok out ∧
      isDeleteProtectedForTrustee (out.getD sd) sidWorld = .ok enabled ∧
      ((out.getD sd).aces.filterMap withoutProtection).Perm
        (sd.aces.filterMap withoutProtection) ∧
      (isDeleteProtectedForTrustee sd sidWorld = .ok enabled → out = none) ∧
      (enabled = false → isDeleteProtectedForTrustee sd sidWorld = .ok true →
        DeniesNoProtection (out.getD sd)) := by
  rcases @isDeleteProtected_returns sd sidWorld hother.dacl_ne_none with ⟨isEnabled, hisEnabled⟩
  by_cases heq : isEnabled = enabled
  · have hedit : setProtectedEdit rt sd enabled = .ok none := by
      rw [setProtectedEdit, hisEnabled, Except.ok_bind, if_pos heq]
      rfl
    refine ⟨none, hedit, heq ▸ hisEnabled, .refl _, fun _ => rfl, ?_⟩
    rintro rfl hprotected
    cases heq ▸ hisEnabled.symm.trans hprotected
  · rcases @protectAgainstDeletion_returns sd enabled rt hother with ⟨sd₁, h₁, hdacl⟩
    rcases @sortDacl_returns sd₁ rt hdacl with ⟨sd₂, hsort⟩
    have hperm := aces_sortDacl hsort
    have hedit := setProtectedEdit_of_ne hisEnabled heq h₁ hsort
    refine ⟨_, hedit, (setProtectedEdit_spec hedit).2.2, ?_, ?_, ?_⟩
    · rw [← filterMap_withoutProtection_protect h₁]
      exact hperm.filterMap _
    · intro hprotected
      exact absurd (Except.ok.inj (hisEnabled.symm.trans hprotected)) heq
    · rintro rfl - ace hace
      exact deniesNoProtection_protect h₁ ace (hperm.mem_iff.1 hace)

/-- A descriptor that denies `mask` to "Everyone", with an entry for another trustee. -/
def denyingDescriptor (mask : AccessMask) : SecurityDescriptor :=
  .ofAces [{ zeroAce with type := .accessDenied, accessMask := mask, trustee := sidWorld },
    { zeroAce with accessMask := secAdsGenericAll, trustee := sidNtSelf }]

/-- Taking the protection away from a descriptor that is protected. -/
theorem setProtectedEdit_readsBack_denying :
    ∃ out, setProtectedEdit zeroRuntime (denyingDescriptor protectionMask) false = .ok out ∧
      isDeleteProtectedForTrustee (out.getD (denyingDescriptor protectionMask)) sidWorld =
        .ok false ∧
      DeniesNoProtection (out.getD (denyingDescriptor protectionMask)) := by
  have hother : LeavesOtherEntry (denyingDescriptor protectionMask) := by decide
  rcases setProtectedEdit_readsBack zeroRuntime _ false hother with
    ⟨out, hedit, hread, -, -, hcleared⟩
  exact ⟨out, hedit, hread, hcleared rfl (by decide)⟩

/-- An object that is protected only half is not touched when the protection is taken away, so
    that half of it stays. -/
theorem not_setProtectedEdit_clears :
    ¬∀ (rt : Runtime) (sd : SecurityDescriptor) (enabled : Bool), LeavesOtherEntry sd →
      ∃ out, setProtectedEdit rt sd enabled = .ok out ∧
        isDeleteProtectedForTrustee (out.getD sd) sidWorld = .ok enabled ∧
        ((out.getD sd).aces.filterMap withoutProtection).Perm
          (sd.aces.filterMap withoutProtection) ∧
        (enabled = false → DeniesNoProtection (out.getD sd)) := by
  intro h
  have hedit : setProtectedEdit zeroRuntime (denyingDescriptor secStdDelete) false = .ok none := by
    decide
  rcases h zeroRuntime (denyingDescriptor secStdDelete) false (by decide) with
    ⟨out, hout, -, -, hcleared⟩
  obtain rfl : none = out := Except.ok.inj (hedit.symm.trans hout)
  exact absurd (hcleared rfl) (by decide)

end

end Admc
