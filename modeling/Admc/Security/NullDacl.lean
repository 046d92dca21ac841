import Admc.Security.Masks

/-!
# When the DACL of a descriptor becomes null

An edit that takes the last entry out of a DACL leaves a null DACL behind: the
access of everyone to everything, where an empty DACL would be that of no one,
and a fault for whatever reads the descriptor next. A run of edits keeps the
DACL and its entries as long as each of them leaves an entry in it
(`DaclEdit.LeavesEntry`), which depends on the descriptor before the edit:

* an edit of a right with no superior set takes its removals out of the entries
  one after the other (`leftOf`), and must not use them up;
* if a superior is set, removing it must leave an entry; what is put back for it
  stays, unless that is the edited right alone.
-/

namespace Admc

open Mask

/-! ## Edits -/

/-- An edit of a DACL. -/
inductive DaclEdit
  | addRight (classList : List String) (trustee : DomSid) (right : SecurityRight) (allow : Bool)
  | removeRight (classList : List String) (trustee : DomSid) (right : SecurityRight) (allow : Bool)
  | removeTrustee (trusteeList : List DomSid)
  | setProtected (enabled : Bool)

variable (g : Globals)

/-- The descriptor after an edit. -/
def DaclEdit.apply (sd : SecurityDescriptor) : DaclEdit → Except Fault SecurityDescriptor
  | .addRight classList trustee right allow =>
    securityDescriptorAddRight g sd classList trustee right allow
  | .removeRight classList trustee right allow =>
    securityDescriptorRemoveRight g sd classList trustee right allow
  | .removeTrustee trusteeList => securityDescriptorRemoveTrustee sd trusteeList
  | .setProtected enabled => do return (← setProtectedEdit g.rt sd enabled).getD sd

/-! ## What is left of an entry -/

/-- What a list of rights, each on a side, leaves of an entry once they are removed from
    it one after the other. -/
def leftOf (trustee : DomSid) (removals : List (SecurityRight × Bool)) (ace : SecurityAce) :
    Option SecurityAce :=
  removals.foldlM (fun ace removal => removeAccessRightsStep trustee removal.1 removal.2 ace) ace

/-- An entry is not used up by the removals. -/
abbrev Survives (trustee : DomSid) (removals : List (SecurityRight × Bool)) (ace : SecurityAce) :
    Prop :=
  (leftOf trustee removals ace).isSome = true

/-- The subordinates of a right, none if there is no list of rights for the class. -/
def subordinatesOf (classList : List String) (right : SecurityRight) : List SecurityRight :=
  match adSecurityGetSubordinateRightList g right classList with
  | .ok subordinates => subordinates
  | .error _ => []

/-- The first superior of a right that is set in the descriptor. -/
def firstSuperiorSet (sd : SecurityDescriptor) (trustee : DomSid) (right : SecurityRight)
    (allow : Bool) : Option SecurityRight :=
  (adSecurityGetSuperiorRightList right).find? fun superior =>
    isSuperiorSet sd trustee superior allow = .ok true

/-- The entries left by removing a superior, once the edited right is put back if the
    superior has any subordinate. -/
def putBack (classList : List String) (trustee : DomSid) (superior right : SecurityRight)
    (allow : Bool) (aces : List SecurityAce) : List SecurityAce :=
  if subordinatesOf g classList superior = [] then aces
  else addRightAces g.rt trustee right allow aces

/-- The edit of a right leaves an entry of the DACL, given the first superior that is set:
    `removals` are the rights it removes itself, and `allow` is the side on which it breaks
    up superiors. -/
def LeavesEntryAfter (sd : SecurityDescriptor) (classList : List String) (trustee : DomSid)
    (right : SecurityRight) (allow : Bool) (removals : List (SecurityRight × Bool)) :
    Option SecurityRight → Prop
  | none => ∃ ace ∈ sd.aces, Survives trustee removals ace
  | some superior =>
    sd.aces.filterMap (removeAccessRightsStep trustee superior allow) ≠ [] ∧
      ((∃ subordinate ∈ subordinatesOf g classList superior, subordinate ≠ right) ∨
        ∃ ace ∈ putBack g classList trustee superior right allow
          (sd.aces.filterMap (removeAccessRightsStep trustee superior allow)),
          Survives trustee [(right, allow)] ace)

instance (sd : SecurityDescriptor) (classList : List String) (trustee : DomSid)
    (right : SecurityRight) (allow : Bool) (removals : List (SecurityRight × Bool)) :
    DecidablePred (LeavesEntryAfter g sd classList trustee right allow removals)
  | none => inferInstanceAs (Decidable (∃ _ ∈ _, _))
  | some _ => inferInstanceAs (Decidable (_ ∧ (_ ∨ _)))

/-- The edit of a right leaves an entry of the DACL. -/
def LeavesEntryOfRight (sd : SecurityDescriptor) (classList : List String) (trustee : DomSid)
    (right : SecurityRight) (allow : Bool) (removals : List (SecurityRight × Bool)) : Prop :=
  LeavesEntryAfter g sd classList trustee right allow removals
    (firstSuperiorSet sd trustee right allow)

instance (sd : SecurityDescriptor) (classList : List String) (trustee : DomSid)
    (right : SecurityRight) (allow : Bool) (removals : List (SecurityRight × Bool)) :
    Decidable (LeavesEntryOfRight g sd classList trustee right allow removals) :=
  inferInstanceAs (Decidable (LeavesEntryAfter ..))

/-- The rights that an edit adding a right removes itself. -/
def addRemovals (classList : List String) (right : SecurityRight) (allow : Bool) :
    List (SecurityRight × Bool) :=
  (subordinatesOf g classList right).map (·, allow) ++ (right, !allow) ::
    (subordinatesOf g classList right).map (·, !allow)

/-- The rights that an edit removing a right removes itself. -/
def removeRemovals (classList : List String) (right : SecurityRight) (allow : Bool) :
    List (SecurityRight × Bool) :=
  (right, allow) :: (subordinatesOf g classList right).map (·, allow)

/-- The edit leaves an entry of the DACL. -/
def DaclEdit.LeavesEntry (sd : SecurityDescriptor) : DaclEdit → Prop
  | .addRight classList trustee right allow =>
    LeavesEntryOfRight g sd classList trustee right (!allow) (addRemovals g classList right allow)
  | .removeRight classList trustee right allow =>
    LeavesEntryOfRight g sd classList trustee right allow (removeRemovals g classList right allow)
  | .removeTrustee trusteeList => ∃ ace ∈ sd.aces, areTrusteesMatch ace trusteeList = false
  | .setProtected enabled => enabled = true ∨ isDeleteProtectedForTrustee sd sidWorld = .ok false ∨
    ∃ ace ∈ sd.aces,
      Survives sidWorld (protectDeletionMaskList.map fun mask => (.ofMask mask, false)) ace

instance (sd : SecurityDescriptor) : DecidablePred (DaclEdit.LeavesEntry g sd)
  | .addRight .. => inferInstanceAs (Decidable (LeavesEntryOfRight ..))
  | .removeRight .. => inferInstanceAs (Decidable (LeavesEntryOfRight ..))
  | .removeTrustee _ => inferInstanceAs (Decidable (∃ _ ∈ _, _))
  | .setProtected _ => inferInstanceAs (Decidable (_ ∨ _ ∨ _))

/-! ## Removals and additions that leave an entry -/

section
variable {g} {rt : Runtime} {sd : SecurityDescriptor} {classList : List String} {trustee : DomSid}
  {right : SecurityRight} {allow : Bool} {Q : SecurityAce → Prop}

/-- The descriptor has an entry in `Q`. -/
def SecurityDescriptor.Has (Q : SecurityAce → Prop) (sd : SecurityDescriptor) : Prop :=
  ∃ ace ∈ sd.aces, Q ace

/-- The computation does not run into a null DACL, and leaves an entry in `Q`. -/
abbrev KeepsEntry (Q : SecurityAce → Prop) (x : Except Fault SecurityDescriptor) : Prop :=
  x.Yields (· ≠ .nullDacl) (SecurityDescriptor.Has Q)

theorem SecurityDescriptor.Has.mono {Q' : SecurityAce → Prop} (h : sd.Has Q)
    (hQ : ∀ ace, Q ace → Q' ace) : sd.Has Q' :=
  h.imp fun ace hace => ⟨hace.1, hQ ace hace.2⟩

theorem SecurityDescriptor.Has.dacl_ne_none (h : sd.Has Q) : sd.dacl ≠ none := by
  intro hd
  obtain ⟨ace, hace, -⟩ := h
  rw [SecurityDescriptor.aces, hd] at hace
  exact List.not_mem_nil hace

/-- Removing a right keeps the entries it leaves something of. -/
theorem removeRightBase_keeps
    (h : sd.Has fun ace => ∃ ace' ∈ removeAccessRightsStep trustee right allow ace, Q ace') :
    KeepsEntry Q (securityDescriptorRemoveRightBase sd trustee right allow) := by
  rw [removeRightBase_eq_ok.2 ⟨h.dacl_ne_none, rfl⟩]
  obtain ⟨ace, hace, ace', hstep, hQ⟩ := h
  exact ⟨ace', aces_replaceDacl ▸ List.mem_filterMap.2 ⟨ace, hace, hstep⟩, hQ⟩

theorem survives_cons {removal : SecurityRight × Bool} {removals : List (SecurityRight × Bool)}
    {ace : SecurityAce} : Survives trustee (removal :: removals) ace ↔
      ∃ ace' ∈ removeAccessRightsStep trustee removal.1 removal.2 ace,
        Survives trustee removals ace' := by
  simp only [Survives, leftOf, List.foldlM_cons, Option.isSome_iff_exists, Option.mem_def]
  exact ⟨fun ⟨a, h⟩ => (Option.bind_eq_some_iff.1 h).imp fun _ h => ⟨h.1, a, h.2⟩,
    fun ⟨ace', h, a, ha⟩ => ⟨a, Option.bind_eq_some_iff.2 ⟨ace', h, ha⟩⟩⟩

/-- Removing a list of rights leaves the removals after it to be survived. -/
theorem removeRightListBase_keeps {rights : List SecurityRight}
    {removals : List (SecurityRight × Bool)}
    (h : sd.Has (Survives trustee (rights.map (·, allow) ++ removals))) :
    KeepsEntry (Survives trustee removals) (removeRightListBase trustee allow rights sd) := by
  induction rights generalizing sd with
  | nil => exact h
  | cons right rights ih =>
    rw [removeRightListBase, List.foldlM_cons]
    exact Except.Yields.bind (removeRightBase_keeps (h.mono fun _ => survives_cons.1))
      fun sd hsd => ih hsd

/-- A property of entries that adding to the mask keeps. -/
def Grows (Q : SecurityAce → Prop) : Prop :=
  ∀ ace m, Q ace → Q { ace with accessMask := ace.accessMask ||| m }

theorem exists_mem_addRightAces (hQ : Grows Q) {aces : List SecurityAce} {ace : SecurityAce}
    (hace : ace ∈ aces) (h : Q ace) :
    ∃ ace' ∈ addRightAces rt trustee right allow aces, Q ace' := by
  induction aces with
  | nil => exact absurd hace List.not_mem_nil
  | cons ace₁ aces ih =>
    rw [addRightAces]
    rcases List.mem_cons.1 hace with rfl | hace
    · split_ifs
      · exact ⟨_, List.mem_cons_self, hQ _ _ h⟩
      · exact ⟨_, List.mem_cons_self, h⟩
    · split_ifs
      · exact ⟨ace, List.mem_cons_of_mem _ hace, h⟩
      · obtain ⟨ace', hace', h'⟩ := ih hace
        exact ⟨ace', List.mem_cons_of_mem _ hace', h'⟩

/-- Adding a right makes an entry that matches it and includes its mask. -/
theorem exists_mem_addRightAces_matching (aces : List SecurityAce) :
    ∃ ace ∈ addRightAces rt trustee right allow aces,
      aceMatchWithoutAccessMask ace trustee right allow editMatchFlags = true ∧
        Includes ace.accessMask (adSecurityMapAccessMask right.accessMask) := by
  induction aces with
  | nil =>
    refine ⟨_, List.mem_singleton_self _, ?_, includes_refl _⟩
    obtain ⟨hside, hflags, htrustee, hinherited, hobject⟩ := makeSecurityAce_parts rt trustee right
      (adSecurityMapAccessMask right.accessMask) allow
    exact editMatch_iff.2 ⟨hside, hflags, htrustee, .inl hinherited, hobject⟩
  | cons ace aces ih =>
    rw [addRightAces]
    split_ifs with hm
    · exact ⟨_, List.mem_cons_self, hm, includes_or_right _ _⟩
    · obtain ⟨ace', hace', h'⟩ := ih
      exact ⟨ace', List.mem_cons_of_mem _ hace', h'⟩

/-- Adding a right does nothing the second time. -/
theorem addRightAces_addRightAces (aces : List SecurityAce) :
    addRightAces rt trustee right allow (addRightAces rt trustee right allow aces) =
      addRightAces rt trustee right allow aces := by
  induction aces with
  | nil =>
    obtain ⟨ace, hace, hm, hi⟩ := @exists_mem_addRightAces_matching rt trustee right allow []
    rw [addRightAces, List.mem_singleton] at hace
    rw [addRightAces, ← hace, addRightAces, if_pos hm, or_eq_left hi]
  | cons ace aces ih =>
    rw [addRightAces]
    split_ifs with hm
    · rw [addRightAces, if_pos (by exact hm), or_eq_left (includes_or_right _ _)]
    · rw [addRightAces, if_neg hm, ih]

/-- Adding a right keeps what growing masks keep, -/
theorem addRightBase_keeps (hQ : Grows Q) (h : sd.Has Q) :
    KeepsEntry Q (securityDescriptorAddRightBase rt sd trustee right allow) := by
  obtain ⟨sd', hsd'⟩ := addRightBase_returns h.dacl_ne_none
  obtain ⟨ace, hace, hQace⟩ := h
  rw [hsd', KeepsEntry, Except.Yields, SecurityDescriptor.Has, aces_addRightBase hsd']
  exact exists_mem_addRightAces hQ hace hQace

theorem addRightListBase_keeps (hQ : Grows Q) {rights : List SecurityRight} (h : sd.Has Q) :
    KeepsEntry Q (addRightListBase g trustee allow rights sd) :=
  List.foldlM_yields (fun _ hsd _ _ => addRightBase_keeps hQ hsd) h

/-- and the entry made for one right of a list. -/
theorem addRightListBase_makes (hQ : Grows Q) {rights : List SecurityRight}
    (hr : right ∈ rights) (hmake : ∀ ace : SecurityAce,
      aceMatchWithoutAccessMask ace trustee right allow editMatchFlags = true →
        Includes ace.accessMask (adSecurityMapAccessMask right.accessMask) → Q ace)
    (h : sd.Has fun _ => True) : KeepsEntry Q (addRightListBase g trustee allow rights sd) := by
  obtain ⟨before, after, rfl⟩ := List.append_of_mem hr
  rw [addRightListBase, List.foldlM_append]
  refine Except.Yields.bind (addRightListBase_keeps (fun _ _ => id) h) fun sd hsd => ?_
  rw [List.foldlM_cons]
  obtain ⟨sd', hsd'⟩ := addRightBase_returns hsd.dacl_ne_none
  rw [hsd']
  refine addRightListBase_keeps hQ ?_
  obtain ⟨ace, hace, hm, hi⟩ := exists_mem_addRightAces_matching sd.aces
  exact ⟨ace, aces_addRightBase hsd' ▸ hace, hmake ace hm hi⟩

/-! ## Superiors -/

/-- Removing the right from an entry in `Q` leaves an entry in `Q`. -/
def Withstands (trustee : DomSid) (Q : SecurityAce → Prop) (removal : SecurityRight × Bool) :
    Prop :=
  ∀ ace, Q ace → ∃ ace' ∈ removeAccessRightsStep trustee removal.1 removal.2 ace, Q ace'

theorem survives_of_withstands {removals : List (SecurityRight × Bool)}
    (h : ∀ removal ∈ removals, Withstands trustee Q removal) {ace : SecurityAce} (hQ : Q ace) :
    Survives trustee removals ace := by
  induction removals generalizing ace with
  | nil => rfl
  | cons removal removals ih =>
    obtain ⟨ace', h', hQ'⟩ := h removal List.mem_cons_self ace hQ
    exact survives_cons.2 ⟨ace', h', ih (fun r hr => h r (List.mem_cons_of_mem _ hr)) hQ'⟩

theorem getSubordinateRightList_ne_nullDacl {e : Fault}
    (h : adSecurityGetSubordinateRightList g right classList = .error e) : e ≠ .nullDacl := by
  rw [adSecurityGetSubordinateRightList, adSecurityGetRightListForClass] at h
  cases ho : right.objectType with
  | some o =>
    rw [ho] at h
    cases h
  | none =>
    cases hc : classList.getLast? with
    | some objClass =>
      rw [ho, hc] at h
      cases h
    | none =>
      rw [ho, hc] at h
      rw [← Except.error.inj h]
      exact Fault.noConfusion

theorem subordinatesOf_eq {subordinates : List SecurityRight}
    (h : adSecurityGetSubordinateRightList g right classList = .ok subordinates) :
    subordinatesOf g classList right = subordinates := by
  rw [subordinatesOf, h]

/-- Breaking up a superior that is set: its removal must leave an entry, and adding its
    subordinates to what is left give one in `Q`. -/
theorem breakUpSuperior_of_set {superior : SecurityRight}
    (hset : isSuperiorSet sd trustee superior allow = .ok true)
    (hremain : sd.aces.filterMap (removeAccessRightsStep trustee superior allow) ≠ [])
    (hadd : ∀ sd' : SecurityDescriptor,
      sd'.aces = sd.aces.filterMap (removeAccessRightsStep trustee superior allow) →
      ∀ subordinates,
        adSecurityGetSubordinateRightList g superior classList = .ok subordinates →
        KeepsEntry Q (addRightListBase g trustee allow subordinates sd')) :
    KeepsEntry Q (breakUpSuperior g classList trustee allow sd superior) := by
  have hd : sd.dacl ≠ none := by
    obtain ⟨ace', hace'⟩ := List.exists_mem_of_ne_nil _ hremain
    obtain ⟨ace, hace, -⟩ := List.mem_filterMap.1 hace'
    exact SecurityDescriptor.Has.dacl_ne_none (Q := fun _ => True) ⟨ace, hace, trivial⟩
  simp only [breakUpSuperior, hset, removeRightBase_eq_ok.2 ⟨hd, rfl⟩, Except.ok_bind,
    Bool.not_true, Bool.false_eq_true, if_false]
  exact Except.yields_bind_any (fun e he => getSubordinateRightList_ne_nullDacl he)
    fun subordinates hsub => hadd _ aces_replaceDacl subordinates hsub

theorem isSuperiorSet_eq (h : sd.dacl ≠ none) (superior : SecurityRight) :
    ∃ isSet, isSuperiorSet sd trustee superior allow = .ok isSet := by
  obtain ⟨state, hstate⟩ := getRightState_isOk h trustee superior
  exact ⟨_, by rw [isSuperiorSet, hstate]; rfl⟩

/-- A superior that is not set is left alone. -/
theorem breakUpSuperior_of_not_set {superior : SecurityRight} (hd : sd.dacl ≠ none)
    (hset : isSuperiorSet sd trustee superior allow ≠ .ok true) :
    breakUpSuperior g classList trustee allow sd superior = .ok sd := by
  obtain ⟨_ | _, hisSet⟩ := @isSuperiorSet_eq sd trustee allow hd superior
  · simp only [breakUpSuperior, hisSet, Except.ok_bind, Bool.not_false, if_true]
    rfl
  · exact absurd hisSet hset

theorem breakUpSuperior_keeps (hQ : Grows Q) {superior : SecurityRight}
    (hw : Withstands trustee Q (superior, allow)) (h : sd.Has Q) :
    KeepsEntry Q (breakUpSuperior g classList trustee allow sd superior) := by
  obtain ⟨_ | _, hset⟩ := @isSuperiorSet_eq sd trustee allow h.dacl_ne_none superior
  · rw [breakUpSuperior_of_not_set h.dacl_ne_none (by simp [hset])]
    exact h
  · obtain ⟨ace, hace, hQace⟩ := h
    obtain ⟨ace', hace', hQ'⟩ := hw ace hQace
    have hmem : ace' ∈ sd.aces.filterMap (removeAccessRightsStep trustee superior allow) :=
      List.mem_filterMap.2 ⟨ace, hace, hace'⟩
    exact breakUpSuperior_of_set hset (List.ne_nil_of_mem hmem) fun sd' hsd' subs _ =>
      addRightListBase_keeps hQ ⟨ace', hsd' ▸ hmem, hQ'⟩

/-- The bit that stays of a generic right once it is broken up, whatever subordinate
    is then removed. -/
def spareMask (accessMask : AccessMask) : AccessMask :=
  if accessMask = secAdsGenericAll then secStdDelete
  else if accessMask = secAdsGenericRead then secAdsList
  else secAdsSelfWrite

theorem spareMask_spec : ∀ m ∈ genericMaskList, spareMask m ∈ commonRightsList ∧
    isSubordinateRight m (spareMask m) false ∧ spareMask m ≠ 0 ∧
    adSecurityMapAccessMask (spareMask m) = spareMask m := by
  decide

/-- Superiors but the last are generic, and the spare bit of one is not in those that
    come after it, -/
theorem superiorMasks_pairwise : ∀ m ∈ commonRightsList, ∀ present,
    (superiorMasks m present).Pairwise fun s s' =>
      s ∈ genericMaskList ∧ adSecurityMapAccessMask s' &&& spareMask s = 0 := by
  decide

/-- nor in the right itself, -/
theorem spareMask_and : ∀ m ∈ commonRightsList, ∀ present, ∀ s ∈ superiorMasks m present,
    s ∈ genericMaskList → adSecurityMapAccessMask m &&& spareMask s = 0 := by
  decide

/-- nor in its subordinates. -/
theorem spareMask_and_subordinate : ∀ m ∈ commonRightsList, ∀ s ∈ superiorMasks m false,
    ∀ m' ∈ commonRightsList, ∀ present, isSubordinateRight m m' present →
      adSecurityMapAccessMask m' &&& spareMask s = 0 := by
  decide

theorem mem_common_of_superior {m : AccessMask} {present : Bool}
    (h : superiorMasks m present ≠ []) : m ∈ commonRightsList := by
  by_contra hm
  simp only [commonRightsList, List.mem_cons, not_or] at hm
  exact h (by simp [superiorMasks, hm])

/-- A superior that is not generic is the right without its object type. -/
theorem superiorMask_eq_of_not_generic : ∀ m ∈ commonRightsList, ∀ present,
    ∀ s ∈ superiorMasks m present, s ∉ genericMaskList →
      present = true ∧ s = m ∧ ∀ m' ∈ commonRightsList, ∀ present,
        isSubordinateRight s m' present → m' = m := by
  decide

theorem includes_getMaskToUnset (M m : AccessMask) : Includes m (getMaskToUnset M m) := by
  have hand : ∀ n, Includes m (m &&& n) := fun n => by
    rw [Includes, ← BitVec.and_assoc, BitVec.and_self]
  rw [getMaskToUnset]
  split_ifs
  exacts [hand _, includes_refl m, hand _, includes_refl m, includes_refl m]

/-- An entry withstands the removal of what has nothing in common with a bit of it. -/
theorem withstands_includes {b : AccessMask} (hb : b ≠ 0) {removal : SecurityRight × Bool}
    (hd : adSecurityMapAccessMask removal.1.accessMask &&& b = 0) :
    Withstands trustee (fun ace => Includes ace.accessMask b) removal := by
  intro ace hi
  have hunset : getMaskToUnset ace.accessMask (adSecurityMapAccessMask removal.1.accessMask) &&&
      b = 0 := by
    rw [← includes_getMaskToUnset ace.accessMask, BitVec.and_comm, ← BitVec.and_assoc,
      BitVec.and_comm b, hd]
    exact BitVec.zero_and
  have hi' : Includes (aceUnsetMask ace
      (adSecurityMapAccessMask removal.1.accessMask)).accessMask b := hi.andNot hunset
  simp only [removeAccessRightsStep]
  split_ifs with hm h0
  · exact absurd h0 (hi'.ne_zero hb)
  · exact ⟨_, rfl, hi'⟩
  · exact ⟨ace, rfl, hi⟩

/-- The bits of the common rights that are subordinates of a superior are among its own. -/
theorem mem_subordinates_of_common {superior : SecurityRight} {subordinates : List SecurityRight}
    (h : adSecurityGetSubordinateRightList g superior classList = .ok subordinates)
    (ho : superior.objectType = none) {m : AccessMask} (hm : m ∈ commonRightsList)
    (hsub : isSubordinateRight superior.accessMask m false = true) :
    ⟨m, none, superior.inheritedObjectType, superior.flags⟩ ∈ subordinates := by
  obtain ⟨ho', -⟩ | ⟨-, rightList, hR, rfl⟩ := getSubordinateRightList_cases h
  · exact absurd ho ho'
  · exact mem_subordinatesIn.2 ⟨_, mem_rightList_of_common hR hm, hsub, rfl⟩

/-- What the subordinates of a right are. -/
theorem of_mem_subordinates {subordinate : SecurityRight} {subordinates : List SecurityRight}
    (h : adSecurityGetSubordinateRightList g right classList = .ok subordinates)
    (hmem : subordinate ∈ subordinates) :
    right.objectType = none ∧ subordinate.accessMask ∈ commonRightsList ∧
      isSubordinateRight right.accessMask subordinate.accessMask
        subordinate.objectType.isSome = true := by
  obtain ⟨-, rfl⟩ | ⟨ho, rightList, hR, rfl⟩ := getSubordinateRightList_cases h
  · exact absurd hmem List.not_mem_nil
  · obtain ⟨classRight, hc, hsub, rfl⟩ := mem_subordinatesIn.1 hmem
    exact ⟨ho, (hasRightMask_of_mem hR hc).1, hsub⟩

theorem of_mem_subordinatesOf {subordinate : SecurityRight}
    (hmem : subordinate ∈ subordinatesOf g classList right) :
    right.objectType = none ∧ subordinate.accessMask ∈ commonRightsList ∧
      isSubordinateRight right.accessMask subordinate.accessMask
        subordinate.objectType.isSome = true := by
  rw [subordinatesOf] at hmem
  split at hmem
  case h_1 subordinates h => exact of_mem_subordinates h hmem
  case h_2 => exact absurd hmem List.not_mem_nil

/-- The superiors of a right, by their masks, up to one of them. -/
theorem superiorMasks_split {superior : SecurityRight} {before after : List SecurityRight}
    (h : adSecurityGetSuperiorRightList right = before ++ superior :: after) :
    right.accessMask ∈ commonRightsList ∧ superior = right.withMask superior.accessMask ∧
      superior.accessMask ∈ superiorMasks right.accessMask right.objectType.isSome ∧
      ∀ superior' ∈ after, superior.accessMask ∈ genericMaskList ∧
        adSecurityMapAccessMask superior'.accessMask &&& spareMask superior.accessMask = 0 := by
  rw [superiorRightList_eq_map] at h
  obtain ⟨before, rest, hmasks, rfl, hrest⟩ := List.map_eq_append_iff.1 h
  obtain ⟨m, after, rfl, rfl, rfl⟩ := List.map_eq_cons_iff.1 hrest
  have hmem : m ∈ superiorMasks right.accessMask right.objectType.isSome := by simp [hmasks]
  have hm := mem_common_of_superior (List.ne_nil_of_mem hmem)
  have hpair := superiorMasks_pairwise _ hm right.objectType.isSome
  rw [hmasks, List.pairwise_append, List.pairwise_cons] at hpair
  refine ⟨hm, rfl, hmem, fun superior' hs => ?_⟩
  obtain ⟨m', hm', rfl⟩ := List.mem_map.1 hs
  exact hpair.2.1.1 m' hm'

/-- Adding the same right any number of times adds it once. -/
theorem addRightListBase_replicate {subordinates : List SecurityRight}
    (hsub : ∀ subordinate ∈ subordinates, subordinate = right) (h : sd.Has fun _ => True) :
    (addRightListBase g trustee allow subordinates sd).Yields (· ≠ .nullDacl) fun sd' =>
      sd'.aces = if subordinates = [] then sd.aces else
        addRightAces g.rt trustee right allow sd.aces := by
  cases subordinates with
  | nil => exact (if_pos rfl).symm
  | cons subordinate subordinates =>
    obtain ⟨sd₁, hsd₁⟩ := @addRightBase_returns g.rt sd trustee subordinate allow h.dacl_ne_none
    rw [addRightListBase, List.foldlM_cons, hsd₁, Except.ok_bind]
    rw [hsub _ List.mem_cons_self] at hsd₁
    have hadd : ∃ ace, ace ∈ addRightAces g.rt trustee right allow sd.aces :=
      (exists_mem_addRightAces_matching sd.aces).imp fun ace h => h.1
    simp only [List.cons_ne_nil, if_false]
    refine List.foldlM_yields (fun sd₂ hsd₂ subordinate' hs' => ?_) (aces_addRightBase hsd₁)
    obtain ⟨ace, hace⟩ := hadd
    have hd : sd₂.dacl ≠ none :=
      SecurityDescriptor.Has.dacl_ne_none (Q := fun _ => True) ⟨ace, hsd₂ ▸ hace, trivial⟩
    obtain ⟨sd₃, hsd₃⟩ := @addRightBase_returns g.rt sd₂ trustee subordinate' allow hd
    rw [hsd₃]
    rw [hsub _ (List.mem_cons_of_mem _ hs')] at hsd₃
    exact (aces_addRightBase hsd₃).trans (by rw [hsd₂, addRightAces_addRightAces])

/-- A generic superior that is set: its spare bit stays. -/
theorem breakUpGeneric_keeps {removals : List (SecurityRight × Bool)}
    (hrem : ∀ removal ∈ removals,
      removal.1 = right ∨ removal.1 ∈ subordinatesOf g classList right)
    {superior : SecurityRight} {before after : List SecurityRight}
    (hsplit : adSecurityGetSuperiorRightList right = before ++ superior :: after)
    (hg : superior.accessMask ∈ genericMaskList)
    (hset : isSuperiorSet sd trustee superior allow = .ok true)
    (hremain : sd.aces.filterMap (removeAccessRightsStep trustee superior allow) ≠ []) :
    KeepsEntry (Survives trustee removals)
      ((superior :: after).foldlM (breakUpSuperior g classList trustee allow) sd) := by
  obtain ⟨hm, hsup, hmem, hafter⟩ := superiorMasks_split hsplit
  obtain ⟨hspare, hsub, hne, hmap⟩ := spareMask_spec _ hg
  have hgrows : Grows fun ace => Includes ace.accessMask (spareMask superior.accessMask) :=
    fun _ m h => h.or_left m
  have hremoval : ∀ removal ∈ removals, Withstands trustee
      (fun ace => Includes ace.accessMask (spareMask superior.accessMask)) removal := by
    intro removal hr
    refine withstands_includes hne ?_
    rcases hrem removal hr with hr | hr
    · exact hr ▸ spareMask_and _ hm _ _ hmem hg
    · obtain ⟨ho, hc, hs⟩ := of_mem_subordinatesOf hr
      rw [ho, Option.isSome_none] at hmem
      exact spareMask_and_subordinate _ hm _ hmem _ hc _ hs
  have hbreak : KeepsEntry (fun ace => Includes ace.accessMask (spareMask superior.accessMask))
      (breakUpSuperior g classList trustee allow sd superior) := by
    refine breakUpSuperior_of_set hset hremain fun sd' hsd' subordinates hsubs => ?_
    have ho : superior.objectType = none := by rw [hsup]; rfl
    refine addRightListBase_makes hgrows (mem_subordinates_of_common hsubs ho hspare hsub)
      (fun ace _ hi => hmap ▸ hi) ?_
    obtain ⟨ace, hace⟩ := List.exists_mem_of_ne_nil _ hremain
    exact ⟨ace, hsd' ▸ hace, trivial⟩
  have hrest : KeepsEntry (fun ace => Includes ace.accessMask (spareMask superior.accessMask))
      ((superior :: after).foldlM (breakUpSuperior g classList trustee allow) sd) := by
    rw [List.foldlM_cons]
    exact hbreak.bind fun sd₁ hsd₁ => List.foldlM_yields (fun _ hsd superior' hs =>
      breakUpSuperior_keeps hgrows (withstands_includes hne (hafter superior' hs).2) hsd) hsd₁
  exact hrest.mono fun sd' h => h.mono fun ace => survives_of_withstands hremoval

/-- Another superior that is set: it is the right without its object type, and what is
    put back for it is either the right itself or left alone by its removal. -/
theorem breakUpObject_keeps {superior : SecurityRight} {before after : List SecurityRight}
    (hsplit : adSecurityGetSuperiorRightList right = before ++ superior :: after)
    (hg : superior.accessMask ∉ genericMaskList)
    (hset : isSuperiorSet sd trustee superior allow = .ok true)
    (hremain : sd.aces.filterMap (removeAccessRightsStep trustee superior allow) ≠ [])
    (h : (∃ subordinate ∈ subordinatesOf g classList superior, subordinate ≠ right) ∨
      ∃ ace ∈ putBack g classList trustee superior right allow
        (sd.aces.filterMap (removeAccessRightsStep trustee superior allow)),
        Survives trustee [(right, allow)] ace) :
    KeepsEntry (Survives trustee [(right, allow)])
      ((superior :: after).foldlM (breakUpSuperior g classList trustee allow) sd) := by
  obtain ⟨hm, hsup, hmem, hafter⟩ := superiorMasks_split hsplit
  have hnil : after = [] := List.eq_nil_iff_forall_not_mem.2 fun s hs => hg (hafter s hs).1
  obtain ⟨-, hmask, hsubmask⟩ := superiorMask_eq_of_not_generic _ hm _ _ hmem hg
  rw [hnil, List.foldlM_cons]
  refine Except.Yields.bind ?_ fun sd' h => h
  refine breakUpSuperior_of_set hset hremain fun sd₁ hsd₁ subordinates hsubs => ?_
  have hhas : sd₁.Has fun _ => True := by
    obtain ⟨ace, hace⟩ := List.exists_mem_of_ne_nil _ hremain
    exact ⟨ace, hsd₁ ▸ hace, trivial⟩
  simp only [putBack, subordinatesOf_eq hsubs] at h
  by_cases hother : ∃ subordinate ∈ subordinates, subordinate ≠ right
  · obtain ⟨subordinate, hs, hne⟩ := hother
    obtain ⟨-, hc, hs'⟩ := of_mem_subordinates hsubs hs
    have hsame := sameEntries_of_mem_subordinate hsubs hs
    -- a subordinate other than the right differs from it in the object type only
    have hobject : subordinate.objectType ≠ right.objectType := by
      intro ho
      have hmask' := hsubmask _ hc _ hs'
      have hflags := hsame.1
      have hinherited := hsame.2
      rw [hsup] at hflags hinherited
      refine hne ?_
      obtain ⟨m, o, i, f⟩ := subordinate
      obtain ⟨m', o', i', f'⟩ := right
      exact congr (congr (congrArg₂ SecurityRight.mk hmask' ho) hinherited) hflags
    refine (addRightListBase_makes (Q := fun ace => aceMatchWithoutAccessMask ace trustee
      subordinate allow editMatchFlags = true) (fun _ _ => id) hs (fun _ h _ => h) hhas).mono
      fun sd₂ h => h.mono fun ace hace => survives_cons.2 ⟨ace, ?_, rfl⟩
    have hno : aceMatchWithoutAccessMask ace trustee right allow editMatchFlags = false := by
      rw [← Bool.not_eq_true, editMatch_iff]
      exact fun h => hobject ((editMatch_iff.1 hace).2.2.2.2.symm.trans h.2.2.2.2)
    simp [removeAccessRightsStep, hno]
  · have hall : ∀ subordinate ∈ subordinates, subordinate = right := by
      simpa using hother
    refine (addRightListBase_replicate hall hhas).mono fun sd₂ hsd₂ => ?_
    obtain ⟨ace, hace, hstep⟩ := h.resolve_left hother
    exact ⟨ace, hsd₂ ▸ hsd₁ ▸ hace, hstep⟩

/-- The loop over the superiors leaves an entry that the removals do not use up. -/
theorem breakUpSuperiors_keep {removals : List (SecurityRight × Bool)}
    (hrem : ∀ removal ∈ removals,
      removal.1 = right ∨ removal.1 ∈ subordinatesOf g classList right)
    (hobject : right.objectType ≠ none → removals = [(right, allow)])
    (h : LeavesEntryOfRight g sd classList trustee right allow removals) :
    KeepsEntry (Survives trustee removals)
      ((adSecurityGetSuperiorRightList right).foldlM
        (breakUpSuperior g classList trustee allow) sd) := by
  rw [LeavesEntryOfRight] at h
  cases hfirst : firstSuperiorSet sd trustee right allow with
  | none =>
    rw [hfirst] at h
    have hhas : sd.Has (Survives trustee removals) := h
    rw [List.foldlM_fixed fun superior hs => breakUpSuperior_of_not_set hhas.dacl_ne_none
      (by simpa using List.find?_eq_none.1 hfirst superior hs)]
    exact hhas
  | some superior =>
    rw [hfirst] at h
    obtain ⟨hset, before, after, hsplit, hbefore⟩ := List.find?_eq_some_iff_append.1 hfirst
    have hset := of_decide_eq_true hset
    have hd : sd.dacl ≠ none := by
      obtain ⟨ace', hace'⟩ := List.exists_mem_of_ne_nil _ h.1
      obtain ⟨ace, hace, -⟩ := List.mem_filterMap.1 hace'
      exact SecurityDescriptor.Has.dacl_ne_none (Q := fun _ => True) ⟨ace, hace, trivial⟩
    rw [hsplit, List.foldlM_append, List.foldlM_fixed fun superior hs =>
      breakUpSuperior_of_not_set hd (by simpa using hbefore superior hs), Except.ok_bind]
    by_cases hg : superior.accessMask ∈ genericMaskList
    · exact breakUpGeneric_keeps hrem hsplit hg hset h.1
    · obtain ⟨hm, -, hmem, -⟩ := superiorMasks_split hsplit
      obtain ⟨hpresent, -⟩ := superiorMask_eq_of_not_generic _ hm _ _ hmem hg
      rw [hobject (Option.isSome_iff_ne_none.1 hpresent)]
      exact breakUpObject_keeps hsplit hg hset h.1 h.2

/-! ## Edits that leave an entry -/

/-- A right with an object type has no subordinates to remove. -/
theorem subordinatesOf_of_object (ho : right.objectType ≠ none) :
    subordinatesOf g classList right = [] :=
  List.eq_nil_iff_forall_not_mem.2 fun _ hs => ho (of_mem_subordinatesOf hs).1

theorem removeRemovals_of_object (ho : right.objectType ≠ none) :
    removeRemovals g classList right allow = [(right, allow)] := by
  rw [removeRemovals, subordinatesOf_of_object ho]
  rfl

theorem addRemovals_of_object (ho : right.objectType ≠ none) :
    addRemovals g classList right allow = [(right, !allow)] := by
  rw [addRemovals, subordinatesOf_of_object ho]
  rfl

/-- The entries of the descriptor are what its readers need. -/
theorem readable_of_has (h : sd.Has fun _ => True) :
    (∃ dacl, securityDescriptorGetDacl sd = .ok dacl) ∧
      (∃ sd', securityDescriptorSortDacl rt sd = .ok sd') ∧
      ∃ b, securityDescriptorVerifyAclOrder rt sd = .ok b := by
  obtain ⟨dacl, hd⟩ := Option.ne_none_iff_exists'.1 h.dacl_ne_none
  have hget : securityDescriptorGetDacl sd = .ok sd.aces :=
    securityDescriptorGetDacl_eq_ok.2 ⟨h.dacl_ne_none, rfl⟩
  refine ⟨⟨_, hget⟩, ⟨_, sortDacl_eq_ok.2 ⟨dacl, hd, rfl⟩⟩, ?_⟩
  obtain ⟨ace, hace, -⟩ := h
  rw [securityDescriptorVerifyAclOrder, isOrderCorrect, hget, Except.ok_bind]
  cases haces : sd.aces with
  | nil => exact absurd (haces ▸ hace) List.not_mem_nil
  | cons curr dacl => exact ⟨_, rfl⟩

theorem sortDacl_keeps (h : sd.Has fun _ => True) :
    KeepsEntry (fun _ => True) (securityDescriptorSortDacl rt sd) := by
  obtain ⟨dacl, hd⟩ := Option.ne_none_iff_exists'.1 h.dacl_ne_none
  rw [sortDacl_eq_ok.2 ⟨dacl, hd, rfl⟩]
  obtain ⟨ace, hace, -⟩ := h
  have haces : ace ∈ dacl.aces := by simpa [SecurityDescriptor.aces, hd] using hace
  exact ⟨ace, (sortAces_perm rt dacl.aces).mem_iff.2 haces, trivial⟩

theorem removeRight_keeps (h : LeavesEntryOfRight g sd classList trustee right allow
    (removeRemovals g classList right allow)) :
    KeepsEntry (fun _ => True)
      (securityDescriptorRemoveRight g sd classList trustee right allow) := by
  refine Except.Yields.bind (breakUpSuperiors_keep ?_ removeRemovals_of_object h) fun sd₁ h₁ => ?_
  · rintro removal hr
    rcases List.mem_cons.1 hr with rfl | hr
    · exact .inl rfl
    · obtain ⟨s, hs, rfl⟩ := List.mem_map.1 hr
      exact .inr hs
  · refine Except.Yields.bind (removeRightBase_keeps (h₁.mono fun _ => survives_cons.1))
      fun sd₂ h₂ => ?_
    refine Except.yields_bind_any (fun e he => getSubordinateRightList_ne_nullDacl he)
      fun subordinates hsubs => ?_
    rw [subordinatesOf_eq hsubs, ← List.append_nil (List.map _ _)] at h₂
    exact (removeRightListBase_keeps h₂).bind fun sd₃ h₃ =>
      sortDacl_keeps (h₃.mono fun _ _ => trivial)

theorem addRight_keeps (h : LeavesEntryOfRight g sd classList trustee right (!allow)
    (addRemovals g classList right allow)) :
    KeepsEntry (fun _ => True) (securityDescriptorAddRight g sd classList trustee right allow) := by
  refine Except.Yields.bind (breakUpSuperiors_keep ?_ addRemovals_of_object h) fun sd₁ h₁ => ?_
  · simp only [addRemovals, List.mem_append, List.mem_map, List.mem_cons]
    rintro removal (⟨s, hs, rfl⟩ | rfl | ⟨s, hs, rfl⟩)
    exacts [.inr hs, .inl rfl, .inr hs]
  · refine Except.yields_bind_any (fun e he => getSubordinateRightList_ne_nullDacl he)
      fun subordinates hsubs => ?_
    rw [addRemovals, subordinatesOf_eq hsubs] at h₁
    refine (removeRightListBase_keeps h₁).bind fun sd₂ h₂ => ?_
    refine Except.Yields.bind (removeRightBase_keeps (h₂.mono fun _ => survives_cons.1))
      fun sd₃ h₃ => ?_
    rw [← List.append_nil (List.map _ _)] at h₃
    refine (removeRightListBase_keeps h₃).bind fun sd₄ h₄ => ?_
    refine (addRightBase_keeps (fun _ _ => id) (h₄.mono fun _ _ => trivial)).bind
      fun sd₅ h₅ => sortDacl_keeps h₅

theorem removeTrustee_keeps {trusteeList : List DomSid}
    (h : sd.Has fun ace => areTrusteesMatch ace trusteeList = false) :
    KeepsEntry (fun _ => True) (securityDescriptorRemoveTrustee sd trusteeList) := by
  rw [securityDescriptorRemoveTrustee, removeTrustee,
    securityDescriptorGetDacl_eq_ok.2 ⟨h.dacl_ne_none, rfl⟩]
  obtain ⟨ace, hace, hm⟩ := h
  refine ⟨ace, ?_, trivial⟩
  rw [aces_replaceDacl]
  exact List.mem_filter.2 ⟨hace, by rw [hm]; rfl⟩

theorem protectAgainstDeletion_keeps {enabled : Bool} (hd : sd.Has fun _ => True)
    (h : enabled = true ∨ sd.Has
      (Survives sidWorld (protectDeletionMaskList.map fun mask => (.ofMask mask, false)))) :
    KeepsEntry (fun _ => True) (protectAgainstDeletion rt sd enabled) := by
  cases enabled with
  | true => exact List.foldlM_yields (fun _ hsd _ _ => addRightBase_keeps (fun _ _ => id) hsd) hd
  | false =>
    have hrights : sd.Has (Survives sidWorld
        ((protectDeletionMaskList.map SecurityRight.ofMask).map (·, false) ++ [])) := by
      rw [List.append_nil, List.map_map]
      exact h.resolve_left nofun
    have hrun := removeRightListBase_keeps hrights
    rw [removeRightListBase, List.foldlM_map] at hrun
    exact hrun.mono fun sd' h => h.mono fun _ _ => trivial

theorem isDeleteProtected_returns (h : sd.dacl ≠ none) :
    ∃ isEnabled, isDeleteProtectedForTrustee sd trustee = .ok isEnabled := by
  rw [isDeleteProtectedForTrustee]
  induction protectDeletionMaskList with
  | nil => exact ⟨true, rfl⟩
  | cons mask masks ih =>
    obtain ⟨state, hstate⟩ := getRightState_isOk h trustee (.ofMask mask)
    rw [isDeleteProtectedFrom, hstate, Except.ok_bind]
    dsimp only
    split_ifs
    exacts [⟨false, rfl⟩, ih]

theorem setProtected_keeps {enabled : Bool} (hd : sd.Has fun _ => True)
    (h : (DaclEdit.setProtected enabled).LeavesEntry g sd) :
    KeepsEntry (fun _ => True) ((DaclEdit.setProtected enabled).apply g sd) := by
  obtain ⟨isEnabled, hprot⟩ := @isDeleteProtected_returns sd sidWorld hd.dacl_ne_none
  simp only [DaclEdit.LeavesEntry, hprot] at h
  simp only [DaclEdit.apply, setProtectedEdit, hprot, Except.ok_bind]
  split_ifs with he
  · exact hd
  · have hleaves : enabled = true ∨ sd.Has
        (Survives sidWorld (protectDeletionMaskList.map fun mask => (.ofMask mask, false))) := by
      rcases h with h | h | h
      · exact .inl h
      · exact .inl (by cases enabled <;> simp_all)
      · exact .inr h
    have hnew : Except.Yields (· ≠ Fault.nullDacl)
        (fun newSd : Option SecurityDescriptor => (newSd.getD sd).Has fun _ => True) (do
          let newSd ← protectAgainstDeletion g.rt sd enabled
          let newSd ← securityDescriptorSortDacl g.rt newSd
          return some newSd) :=
      (protectAgainstDeletion_keeps hd hleaves).bind fun sd₁ h₁ =>
        (sortDacl_keeps h₁).bind fun sd₂ h₂ => h₂
    exact hnew.bind fun newSd h => h

/-- An edit that leaves an entry does not run into a null DACL, nor leave one. -/
theorem DaclEdit.apply_keeps {edit : DaclEdit} (hd : sd.Has fun _ => True)
    (h : edit.LeavesEntry g sd) : KeepsEntry (fun _ => True) (edit.apply g sd) := by
  cases edit with
  | addRight classList trustee right allow => exact addRight_keeps h
  | removeRight classList trustee right allow => exact removeRight_keeps h
  | removeTrustee trusteeList => exact removeTrustee_keeps h
  | setProtected enabled => exact setProtected_keeps hd h

/-- A run of edits, each of which leaves an entry, does not run into a null DACL; and the
    DACL it ends with is not null, and has an entry, so that it is read, sorted and
    checked without a fault. -/
theorem dacl_ne_none_run {sd : SecurityDescriptor} {edits : List DaclEdit} (hsd : sd.aces ≠ [])
    (hsteps : edits.StepsMeet (DaclEdit.LeavesEntry g) (DaclEdit.apply g) sd) :
    edits.foldlM (DaclEdit.apply g) sd ≠ .error .nullDacl ∧
      ∀ sd', edits.foldlM (DaclEdit.apply g) sd = .ok sd' → sd'.dacl ≠ none ∧ sd'.aces ≠ [] ∧
        (∃ dacl, securityDescriptorGetDacl sd' = .ok dacl) ∧
        (∃ sd'', securityDescriptorSortDacl g.rt sd' = .ok sd'') ∧
        ∃ b, securityDescriptorVerifyAclOrder g.rt sd' = .ok b := by
  have hhas : sd.Has fun _ => True := by
    obtain ⟨ace, hace⟩ := List.exists_mem_of_ne_nil _ hsd
    exact ⟨ace, hace, trivial⟩
  have hrun := List.StepsMeet.yields (E := (· ≠ Fault.nullDacl))
    (fun sd h edit _ hleaves => DaclEdit.apply_keeps h hleaves) hsteps hhas
  rw [Except.yields_iff] at hrun
  refine ⟨fun h => hrun.2 _ h rfl, fun sd' h => ?_⟩
  have h := hrun.1 sd' h
  refine ⟨h.dacl_ne_none, ?_, readable_of_has h⟩
  obtain ⟨ace, hace, -⟩ := h
  exact List.ne_nil_of_mem hace

end

/-- Edits for "Everyone" of a descriptor with an entry for another trustee. -/
theorem dacl_ne_none_run_sample :
    let edits : List DaclEdit := [.addRight ["user"] sidWorld (.ofMask secAdsGenericAll) true,
      .removeRight ["user"] sidWorld (.ofMask secAdsGenericRead) true,
      .setProtected true, .setProtected false, .removeTrustee [sidWorld]]
    edits.foldlM (DaclEdit.apply .empty) sampleDescriptor ≠ .error .nullDacl ∧
      ∀ sd', edits.foldlM (DaclEdit.apply .empty) sampleDescriptor = .ok sd' →
        sd'.dacl ≠ none ∧ sd'.aces ≠ [] ∧ (∃ dacl, securityDescriptorGetDacl sd' = .ok dacl) ∧
        (∃ sd'', securityDescriptorSortDacl zeroRuntime sd' = .ok sd'') ∧
        ∃ b, securityDescriptorVerifyAclOrder zeroRuntime sd' = .ok b :=
  dacl_ne_none_run (by decide) (by decide)

/-- Removing the only trustee of a DACL makes it null; removing the only right of the only
    trustee runs into a null DACL. -/
theorem not_dacl_ne_none_run_removeTrustee :
    sampleDescriptor.dacl ≠ none ∧ sampleDescriptor.aces ≠ [] ∧
      (∃ sd', [DaclEdit.removeTrustee [sidNtSelf]].foldlM (DaclEdit.apply .empty)
        sampleDescriptor = .ok sd' ∧ sd'.dacl = none ∧
        securityDescriptorGetDacl sd' = .error .nullDacl) ∧
      [DaclEdit.removeRight ["user"] sidNtSelf (.ofMask secAdsGenericAll) true].foldlM
        (DaclEdit.apply .empty) sampleDescriptor = .error .nullDacl := by
  decide

end Admc
