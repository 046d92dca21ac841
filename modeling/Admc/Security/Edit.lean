import Admc.Security.Rights

/-!
# Editing the rights in a descriptor

The edits of a DACL: adding and removing one right (`securityDescriptorAddRight`,
`securityDescriptorRemoveRight`), which look after the rights superior and
subordinate to it, in terms of "base" functions that touch the entries of one
right only; removing trustees; and the protection against deletion.

An edit reads the DACL, so that it is a fault on a null one; when it returns, it
gives the edited descriptor. Removing goes through `adSecurityReplaceDacl`,
which leaves a null DACL behind if there is nothing to fill it with.
-/

namespace Admc

/-! ## Base functions -/

/-- `get_security_ace_type`. -/
def getSecurityAceType (objectPresent inheritedObjectPresent allow : Bool) : SecurityAceType :=
  if allow then
    if objectPresent || inheritedObjectPresent then .accessAllowedObject else .accessAllowed
  else if objectPresent || inheritedObjectPresent then .accessDeniedObject else .accessDenied

/-- `get_security_ace_object_flags`. -/
def getSecurityAceObjectFlags (objectPresent inheritedObjectPresent : Bool) : BitVec 32 :=
  if objectPresent && inheritedObjectPresent then
    secAceObjectTypePresent ||| secAceInheritedObjectTypePresent
  else if objectPresent then secAceObjectTypePresent
  else if inheritedObjectPresent then secAceInheritedObjectTypePresent
  else 0

/-- `make_security_ace`: what it does not set is what the memory of `out` holds. -/
def makeSecurityAce (rt : Runtime) (trustee : DomSid) (right : SecurityRight)
    (accessMask : AccessMask) (allow : Bool) : SecurityAce :=
  let objectPresent := right.objectType.isSome
  let inheritedObjectPresent := right.inheritedObjectType.isSome
  { rt.uninit with
    type := getSecurityAceType objectPresent inheritedObjectPresent allow
    flags := right.flags
    accessMask
    object :=
      { flags := getSecurityAceObjectFlags objectPresent inheritedObjectPresent
        type := right.objectType.getD rt.uninit.object.type
        inheritedType := right.inheritedObjectType.getD rt.uninit.object.inheritedType }
    trustee }

/-- `get_mask_to_unset`: generic read and write share the "read control" bit, which
    is kept if the other of the two is set. -/
def getMaskToUnset (aceMask accessMask : AccessMask) : AccessMask :=
  if accessMask = genericReadFixed then
    if bitmaskIsSet aceMask secAdsGenericWrite then accessMask &&& ~~~secStdReadControl
    else accessMask
  else if accessMask = secAdsGenericWrite then
    if bitmaskIsSet aceMask genericReadFixed then accessMask &&& ~~~secStdReadControl
    else accessMask
  else accessMask

/-- `ace_unset_mask`. -/
def aceUnsetMask (ace : SecurityAce) (accessMask : AccessMask) : SecurityAce :=
  let maskToUnset := getMaskToUnset ace.accessMask accessMask
  { ace with accessMask := bitmaskSet ace.accessMask maskToUnset false }

/-- The body of the loop of `remove_access_rights`: what becomes of an entry. -/
def removeAccessRightsStep (trustee : DomSid) (right : SecurityRight) (allow : Bool)
    (ace : SecurityAce) : Option SecurityAce :=
  let accessMask := adSecurityMapAccessMask right.accessMask
  if aceMatchWithoutAccessMask ace trustee right allow editMatchFlags &&
      bitmaskIsSet ace.accessMask accessMask then
    let editedAce := aceUnsetMask ace accessMask
    if editedAce.accessMask = 0 then none else some editedAce
  else some ace

/-- `remove_access_rights`. -/
def removeAccessRights (sd : SecurityDescriptor) (trustee : DomSid) (right : SecurityRight)
    (allow : Bool) : Except Fault (List SecurityAce) := do
  let oldDacl ← securityDescriptorGetDacl sd
  return oldDacl.filterMap (removeAccessRightsStep trustee right allow)

/-- `ad_security_replace_dacl`. -/
def adSecurityReplaceDacl (sd : SecurityDescriptor) (newDacl : List SecurityAce) :
    SecurityDescriptor :=
  newDacl.foldl securityDescriptorDaclAdd { sd with dacl := none }

/-- `security_descriptor_remove_right_base`. -/
def securityDescriptorRemoveRightBase (sd : SecurityDescriptor) (trustee : DomSid)
    (right : SecurityRight) (allow : Bool) : Except Fault SecurityDescriptor := do
  let newDacl ← removeAccessRights sd trustee right allow
  return adSecurityReplaceDacl sd newDacl

/-- `security_descriptor_add_right_base`. -/
def securityDescriptorAddRightBase (rt : Runtime) (sd : SecurityDescriptor) (trustee : DomSid)
    (right : SecurityRight) (allow : Bool) : Except Fault SecurityDescriptor :=
  let accessMask := adSecurityMapAccessMask right.accessMask
  match sd.dacl with
  | none => .error .nullDacl
  | some dacl =>
    match matchDaclIndex trustee dacl.aces right allow with
    | some matchingIndex =>
      let matchingAce := dacl.aces.getD matchingIndex zeroAce
      -- reuse the matching entry, unless the right is already set in it
      if bitmaskIsSet matchingAce.accessMask accessMask then .ok sd
      else
        let newAce :=
          { matchingAce with accessMask := bitmaskSet matchingAce.accessMask accessMask true }
        .ok { sd with dacl := some { dacl with aces := dacl.aces.set matchingIndex newAce } }
    | none =>
      .ok (securityDescriptorDaclAdd sd (makeSecurityAce rt trustee right accessMask allow))

/-! ## Adding and removing rights -/

/-- `is_superior_set`, which is `is_opposite_superior_set` for the opposite side. -/
def isSuperiorSet (sd : SecurityDescriptor) (trustee : DomSid) (superior : SecurityRight)
    (allow : Bool) : Except Fault Bool := do
  let state ← securityDescriptorGetRightState sd trustee superior
  return state.get .no (.ofAllow allow)

variable (g : Globals)

/-- The loop that adds the base rights of a list. -/
def addRightListBase (trustee : DomSid) (allow : Bool) (rights : List SecurityRight)
    (sd : SecurityDescriptor) : Except Fault SecurityDescriptor :=
  rights.foldlM (fun sd right => securityDescriptorAddRightBase g.rt sd trustee right allow) sd

/-- The loop that removes the base rights of a list. -/
def removeRightListBase (trustee : DomSid) (allow : Bool) (rights : List SecurityRight)
    (sd : SecurityDescriptor) : Except Fault SecurityDescriptor :=
  rights.foldlM (fun sd right => securityDescriptorRemoveRightBase sd trustee right allow) sd

/-- The body of the loop over the superiors, on the side `allow`: a superior that is
    set is broken up into its subordinates. -/
def breakUpSuperior (classList : List String) (trustee : DomSid) (allow : Bool)
    (sd : SecurityDescriptor) (superior : SecurityRight) : Except Fault SecurityDescriptor := do
  if !(← isSuperiorSet sd trustee superior allow) then return sd
  let sd ← securityDescriptorRemoveRightBase sd trustee superior allow
  let superiorSubordinateList ← adSecurityGetSubordinateRightList g superior classList
  addRightListBase g trustee allow superiorSubordinateList sd

/-- `security_descriptor_add_right`. -/
def securityDescriptorAddRight (sd : SecurityDescriptor) (classList : List String)
    (trustee : DomSid) (right : SecurityRight) (allow : Bool) :
    Except Fault SecurityDescriptor := do
  let sd ← (adSecurityGetSuperiorRightList right).foldlM
    (breakUpSuperior g classList trustee (!allow)) sd
  let subordinateList ← adSecurityGetSubordinateRightList g right classList
  let sd ← removeRightListBase trustee allow subordinateList sd
  let sd ← securityDescriptorRemoveRightBase sd trustee right (!allow)
  let sd ← removeRightListBase trustee (!allow) subordinateList sd
  let sd ← securityDescriptorAddRightBase g.rt sd trustee right allow
  securityDescriptorSortDacl g.rt sd

/-- `security_descriptor_remove_right`. -/
def securityDescriptorRemoveRight (sd : SecurityDescriptor) (classList : List String)
    (trustee : DomSid) (right : SecurityRight) (allow : Bool) :
    Except Fault SecurityDescriptor := do
  let sd ← (adSecurityGetSuperiorRightList right).foldlM
    (breakUpSuperior g classList trustee allow) sd
  let sd ← securityDescriptorRemoveRightBase sd trustee right allow
  let subordinateList ← adSecurityGetSubordinateRightList g right classList
  let sd ← removeRightListBase trustee allow subordinateList sd
  securityDescriptorSortDacl g.rt sd

/-! ## Removing trustees -/

/-- `are_trustees_match`. -/
def areTrusteesMatch (ace : SecurityAce) (trusteeList : List DomSid) : Bool :=
  let trusteeMatch := trusteeList.any fun trustee => domSidCompare ace.trustee trustee = 0
  let inherited := bitmaskIsSet ace.flags secAceFlagInheritedAce
  trusteeMatch && !inherited

/-- `remove_trustee`. -/
def removeTrustee (sd : SecurityDescriptor) (trusteeList : List DomSid) :
    Except Fault (List SecurityAce) := do
  let oldDacl ← securityDescriptorGetDacl sd
  return oldDacl.filter fun ace => !areTrusteesMatch ace trusteeList

/-- `security_descriptor_remove_trustee`. -/
def securityDescriptorRemoveTrustee (sd : SecurityDescriptor) (trusteeList : List DomSid) :
    Except Fault SecurityDescriptor := do
  let newDacl ← removeTrustee sd trusteeList
  return adSecurityReplaceDacl sd newDacl

/-! ## Protection against deletion -/

/-- `PROTECT_DELETION_MASK_LIST`. -/
def protectDeletionMaskList : List AccessMask := [secStdDelete, secAdsDeleteTree]

/-- The right of a mask, without types or flags. -/
def SecurityRight.ofMask (mask : AccessMask) : SecurityRight := ⟨mask, none, none, 0⟩

/-- The loop of `is_delete_protected_for_trustee`. -/
def isDeleteProtectedFrom (sd : SecurityDescriptor) (trustee : DomSid) :
    List AccessMask → Except Fault Bool
  | [] => return true
  | mask :: masks => do
    let state ← securityDescriptorGetRightState sd trustee (.ofMask mask)
    let deny := state.get .no .deny
    if !deny then return false
    isDeleteProtectedFrom sd trustee masks

/-- `is_delete_protected_for_trustee`. -/
def isDeleteProtectedForTrustee (sd : SecurityDescriptor) (trustee : DomSid) :
    Except Fault Bool :=
  isDeleteProtectedFrom sd trustee protectDeletionMaskList

/-- The loop of `protect_against_deletion`: denying entries are added or removed, and
    allowing ones are left alone. -/
def protectAgainstDeletion (rt : Runtime) (sd : SecurityDescriptor) (enabled : Bool) :
    Except Fault SecurityDescriptor :=
  protectDeletionMaskList.foldlM (fun sd mask =>
    if enabled then securityDescriptorAddRightBase rt sd sidWorld (.ofMask mask) false
    else securityDescriptorRemoveRightBase sd sidWorld (.ofMask mask) false) sd

/-- The edit of `ad_security_set_protected_against_deletion`: the descriptor it
    writes, none if it does not need to change. -/
def setProtectedEdit (rt : Runtime) (sd : SecurityDescriptor) (enabled : Bool) :
    Except Fault (Option SecurityDescriptor) := do
  let isEnabled ← isDeleteProtectedForTrustee sd sidWorld
  if isEnabled = enabled then return none
  let newSd ← protectAgainstDeletion rt sd enabled
  let newSd ← securityDescriptorSortDacl rt newSd
  return some newSd

/-! ## What the base functions do -/

section ReplaceDacl
variable {sd : SecurityDescriptor} {newDacl : List SecurityAce}

theorem aces_foldl_daclAdd :
    (newDacl.foldl securityDescriptorDaclAdd sd).aces = sd.aces ++ newDacl := by
  induction newDacl generalizing sd with
  | nil => simp
  | cons ace newDacl ih => simp [ih]

@[simp] theorem aces_replaceDacl : (adSecurityReplaceDacl sd newDacl).aces = newDacl := by
  rw [adSecurityReplaceDacl, aces_foldl_daclAdd]
  rfl

end ReplaceDacl

section Base
variable {rt : Runtime} {sd sd' : SecurityDescriptor} {trustee : DomSid} {right : SecurityRight}
  {allow : Bool}

/-- A new entry holds its right. -/
theorem makeSecurityAce_parts (rt : Runtime) (trustee : DomSid) (right : SecurityRight)
    (accessMask : AccessMask) (allow : Bool) :
    let ace := makeSecurityAce rt trustee right accessMask allow
    ace.side = some allow ∧ ace.flags = right.flags ∧ ace.trustee = trustee ∧
      ace.inheritedObjectType = right.inheritedObjectType ∧ ace.objectType = right.objectType := by
  have htype : ∀ op ip s, aceTypesWithObject.contains (getSecurityAceType op ip s) = (op || ip) ∧
      aceTypeAllowSet.contains (getSecurityAceType op ip s) = s ∧
      aceTypeDenySet.contains (getSecurityAceType op ip s) = !s := by decide
  have hflags : ∀ op ip,
      bitmaskIsSet (getSecurityAceObjectFlags op ip) secAceObjectTypePresent = op ∧
      bitmaskIsSet (getSecurityAceObjectFlags op ip) secAceInheritedObjectTypePresent = ip := by
    decide
  refine ⟨?_, rfl, rfl, ?_, ?_⟩
  · simp only [SecurityAce.side, makeSecurityAce, htype]
    cases allow <;> rfl
  · simp only [SecurityAce.inheritedObjectType, makeSecurityAce, htype, hflags]
    cases right.objectType <;> cases right.inheritedObjectType <;> rfl
  · simp only [SecurityAce.objectType, makeSecurityAce, htype, hflags]
    cases right.objectType <;> cases right.inheritedObjectType <;> rfl

/-- What is left of an entry differs from it in the mask. -/
theorem eq_setMask_of_removeAccessRightsStep {ace ace' : SecurityAce}
    (h : removeAccessRightsStep trustee right allow ace = some ace') :
    ∃ m, ace' = { ace with accessMask := m } := by
  simp only [removeAccessRightsStep] at h
  split_ifs at h
  · exact ⟨_, (Option.some.inj h).symm⟩
  · exact ⟨_, (Option.some.inj h).symm⟩

/-- Removing a base right, which is defined on a non-null DACL. -/
theorem removeRightBase_eq_ok :
    securityDescriptorRemoveRightBase sd trustee right allow = .ok sd' ↔ sd.dacl ≠ none ∧
      adSecurityReplaceDacl sd (sd.aces.filterMap (removeAccessRightsStep trustee right allow)) =
        sd' := by
  simp only [securityDescriptorRemoveRightBase, removeAccessRights, Except.bind_eq_ok,
    Except.pure_eq_ok, securityDescriptorGetDacl_eq_ok]
  constructor
  · rintro ⟨_, ⟨_, ⟨h, rfl⟩, rfl⟩, rfl⟩
    exact ⟨h, rfl⟩
  · rintro ⟨h, rfl⟩
    exact ⟨_, ⟨_, ⟨h, rfl⟩, rfl⟩, rfl⟩

/-- The entries once a base right is added: the first matching entry is changed, or
    an entry is appended. -/
def addRightAces (rt : Runtime) (trustee : DomSid) (right : SecurityRight) (allow : Bool) :
    List SecurityAce → List SecurityAce
  | [] => [makeSecurityAce rt trustee right (adSecurityMapAccessMask right.accessMask) allow]
  | ace :: aces =>
    if aceMatchWithoutAccessMask ace trustee right allow editMatchFlags then
      { ace with accessMask := ace.accessMask ||| adSecurityMapAccessMask right.accessMask } :: aces
    else ace :: addRightAces rt trustee right allow aces

theorem addRightAces_of_matchDaclIndex {aces : List SecurityAce} {i : ℕ}
    (h : matchDaclIndex trustee aces right allow = some i) :
    addRightAces rt trustee right allow aces = aces.set i { aces.getD i zeroAce with
      accessMask := (aces.getD i zeroAce).accessMask |||
        adSecurityMapAccessMask right.accessMask } := by
  induction aces generalizing i with
  | nil => exact absurd h (by simp [matchDaclIndex])
  | cons ace aces ih =>
    rw [matchDaclIndex, List.findIdx?_cons] at h
    rw [addRightAces]
    split_ifs at h ⊢ with hm
    · obtain rfl := Option.some.inj h
      rfl
    · obtain ⟨j, hj, rfl⟩ := Option.map_eq_some_iff.1 h
      rw [ih hj]
      rfl

theorem addRightAces_of_matchDaclIndex_none {aces : List SecurityAce}
    (h : matchDaclIndex trustee aces right allow = none) :
    addRightAces rt trustee right allow aces = aces ++
      [makeSecurityAce rt trustee right (adSecurityMapAccessMask right.accessMask) allow] := by
  induction aces with
  | nil => rfl
  | cons ace aces ih =>
    rw [matchDaclIndex, List.findIdx?_cons] at h
    rw [addRightAces]
    split_ifs at h ⊢ with hm
    rw [ih (Option.map_eq_none_iff.1 h)]
    rfl

/-- Adding a base right, which is defined on a non-null DACL: the descriptor is left
    alone, an entry of it is changed, or one is appended. -/
theorem addRightBase_eq_ok (h : securityDescriptorAddRightBase rt sd trustee right allow = .ok sd') :
    ∃ dacl, sd.dacl = some dacl ∧ (sd' = { sd with dacl := some { dacl with
        aces := addRightAces rt trustee right allow dacl.aces } } ∨
      ∃ ace, sd' = securityDescriptorDaclAdd sd ace ∧
        dacl.aces ++ [ace] = addRightAces rt trustee right allow dacl.aces) := by
  rw [securityDescriptorAddRightBase] at h
  cases hd : sd.dacl with
  | none => exact absurd (hd ▸ h) (by simp)
  | some dacl =>
    simp only [hd] at h
    refine ⟨dacl, rfl, ?_⟩
    cases hi : matchDaclIndex trustee dacl.aces right allow with
    | none =>
      simp only [hi] at h
      exact .inr ⟨_, (Except.ok.inj h).symm, (addRightAces_of_matchDaclIndex_none hi).symm⟩
    | some i =>
      simp only [hi] at h
      have hlt : i < dacl.aces.length := (List.findIdx?_eq_some_iff_getElem.1 hi).1
      rw [addRightAces_of_matchDaclIndex hi]
      refine .inl ?_
      split_ifs at h with hset
      · -- the right is already set in the entry: adding its mask again changes nothing
        have hmask : (dacl.aces.getD i zeroAce).accessMask |||
            adSecurityMapAccessMask right.accessMask = (dacl.aces.getD i zeroAce).accessMask :=
          Mask.or_eq_left (bitmaskIsSet_iff.1 hset)
        have hget : dacl.aces.getD i zeroAce = dacl.aces[i] := by simp [hlt]
        rw [hmask, ← Except.ok.inj h, hget, List.set_getElem_self, ← hd]
      · exact (Except.ok.inj h).symm

theorem aces_addRightBase (h : securityDescriptorAddRightBase rt sd trustee right allow = .ok sd') :
    sd'.aces = addRightAces rt trustee right allow sd.aces := by
  obtain ⟨dacl, hd, rfl | ⟨ace, rfl, ha⟩⟩ := addRightBase_eq_ok h
  · simp [SecurityDescriptor.aces, hd]
  · rw [aces_daclAdd]
    simpa [SecurityDescriptor.aces, hd] using ha

/-- Adding a base right is defined on a non-null DACL. -/
theorem addRightBase_returns (h : sd.dacl ≠ none) :
    ∃ sd', securityDescriptorAddRightBase rt sd trustee right allow = .ok sd' := by
  obtain ⟨dacl, hd⟩ := Option.ne_none_iff_exists'.1 h
  rw [securityDescriptorAddRightBase]
  simp only [hd]
  split
  · split_ifs
    exacts [⟨_, rfl⟩, ⟨_, rfl⟩]
  · exact ⟨_, rfl⟩

end Base

/-! ## Edits as runs of base functions -/

/-- The rights are for the same entries: of the same flags and inherited object
    type. -/
def SecurityRight.SameEntries (right right' : SecurityRight) : Prop :=
  right'.flags = right.flags ∧ right'.inheritedObjectType = right.inheritedObjectType

theorem sameEntries_of_mem_superior {right superior : SecurityRight}
    (h : superior ∈ adSecurityGetSuperiorRightList right) : right.SameEntries superior := by
  rw [eq_withMask_of_mem_superior h]
  exact ⟨rfl, rfl⟩

theorem sameEntries_of_mem_subordinate {g : Globals} {classList : List String}
    {right subordinate : SecurityRight} {l : List SecurityRight}
    (h : adSecurityGetSubordinateRightList g right classList = .ok l) (hmem : subordinate ∈ l) :
    right.SameEntries subordinate := by
  obtain ⟨-, rfl⟩ | ⟨-, rightList, -, rfl⟩ := getSubordinateRightList_cases h
  · exact absurd hmem List.not_mem_nil
  · obtain ⟨classRight, -, -, rfl⟩ := mem_subordinatesIn.1 hmem
    exact ⟨rfl, rfl⟩

/-- A property of descriptors that the base functions preserve, on rights for the same
    entries as `right`. -/
structure BaseInvariant (rt : Runtime) (trustee : DomSid) (right : SecurityRight)
    (P : SecurityDescriptor → Prop) : Prop where
  remove : ∀ {sd sd' right' allow}, right.SameEntries right' → P sd →
    securityDescriptorRemoveRightBase sd trustee right' allow = .ok sd' → P sd'
  add : ∀ {sd sd' right' allow}, right.SameEntries right' → P sd →
    securityDescriptorAddRightBase rt sd trustee right' allow = .ok sd' → P sd'
  sort : ∀ {sd sd'}, P sd → securityDescriptorSortDacl rt sd = .ok sd' → P sd'

namespace BaseInvariant

variable {g : Globals} {classList : List String} {trustee : DomSid} {right : SecurityRight}
  {allow : Bool} {P : SecurityDescriptor → Prop} {sd sd' : SecurityDescriptor}
  (hP : BaseInvariant g.rt trustee right P)
include hP

theorem addRightListBase {rights : List SecurityRight}
    (hr : ∀ right' ∈ rights, right.SameEntries right') (hsd : P sd)
    (h : Admc.addRightListBase g trustee allow rights sd = .ok sd') : P sd' :=
  List.foldlM_invariant (fun _ _ right' hmem h hsd => hP.add (hr right' hmem) hsd h) hsd h

theorem removeRightListBase {rights : List SecurityRight}
    (hr : ∀ right' ∈ rights, right.SameEntries right') (hsd : P sd)
    (h : Admc.removeRightListBase trustee allow rights sd = .ok sd') : P sd' :=
  List.foldlM_invariant (fun _ _ right' hmem h hsd => hP.remove (hr right' hmem) hsd h) hsd h

theorem breakUpSuperior {superior : SecurityRight}
    (hmem : superior ∈ adSecurityGetSuperiorRightList right) (hsd : P sd)
    (h : Admc.breakUpSuperior g classList trustee allow sd superior = .ok sd') : P sd' := by
  have hsame := sameEntries_of_mem_superior hmem
  simp only [Admc.breakUpSuperior, Except.bind_eq_ok] at h
  obtain ⟨isSet, -, h⟩ := h
  cases isSet with
  | false => exact Except.pure_eq_ok.1 h ▸ hsd
  | true =>
    simp only [Bool.not_true, Bool.false_eq_true, if_false, Except.bind_eq_ok] at h
    obtain ⟨sd₁, h₁, subs, hsubs, h₂⟩ := h
    refine hP.addRightListBase (fun right' hmem => ?_) (hP.remove hsame hsd h₁) h₂
    have hsub := sameEntries_of_mem_subordinate hsubs hmem
    exact ⟨hsub.1.trans hsame.1, hsub.2.trans hsame.2⟩

theorem breakUpSuperiors {superiors : List SecurityRight}
    (hsup : superiors ⊆ adSecurityGetSuperiorRightList right) (hsd : P sd)
    (h : superiors.foldlM (Admc.breakUpSuperior g classList trustee allow) sd = .ok sd') :
    P sd' :=
  List.foldlM_invariant (fun _ _ _ hmem h hsd => hP.breakUpSuperior (hsup hmem) hsd h) hsd h

/-- An edit that adds a right preserves what the base functions do. -/
theorem addRight (hsd : P sd)
    (h : securityDescriptorAddRight g sd classList trustee right allow = .ok sd') : P sd' := by
  simp only [securityDescriptorAddRight, Except.bind_eq_ok] at h
  obtain ⟨sd₁, h₁, subs, hsubs, sd₂, h₂, sd₃, h₃, sd₄, h₄, sd₅, h₅, h₆⟩ := h
  have hsub := fun right' => @sameEntries_of_mem_subordinate _ _ _ right' _ hsubs
  have hsd₂ := hP.removeRightListBase hsub (hP.breakUpSuperiors (List.Subset.refl _) hsd h₁) h₂
  have hsd₄ := hP.removeRightListBase hsub (hP.remove ⟨rfl, rfl⟩ hsd₂ h₃) h₄
  exact hP.sort (hP.add ⟨rfl, rfl⟩ hsd₄ h₅) h₆

/-- An edit that removes a right preserves what the base functions do. -/
theorem removeRight (hsd : P sd)
    (h : securityDescriptorRemoveRight g sd classList trustee right allow = .ok sd') : P sd' := by
  simp only [securityDescriptorRemoveRight, Except.bind_eq_ok] at h
  obtain ⟨sd₁, h₁, sd₂, h₂, subs, hsubs, sd₃, h₃, h₄⟩ := h
  have hsub := fun right' => @sameEntries_of_mem_subordinate _ _ _ right' _ hsubs
  have hsd₂ := hP.remove ⟨rfl, rfl⟩ (hP.breakUpSuperiors (List.Subset.refl _) hsd h₁) h₂
  exact hP.sort (hP.removeRightListBase hsub hsd₂ h₃) h₄

end BaseInvariant

section
variable {g : Globals} {classList : List String} {trustee : DomSid} {right : SecurityRight}
  {allow : Bool} {sd sd' : SecurityDescriptor}

/-- The base functions are defined on descriptors with a DACL only. -/
theorem baseInvariant_dacl (rt : Runtime) (sd : SecurityDescriptor) :
    BaseInvariant rt trustee right fun sd' => sd'.dacl ≠ none → sd.dacl ≠ none where
  remove _ hsd h _ := hsd (removeRightBase_eq_ok.1 h).1
  add _ hsd h _ := by
    obtain ⟨dacl, hd, -⟩ := addRightBase_eq_ok h
    exact hsd (hd ▸ Option.some_ne_none dacl)
  sort hsd h _ := by
    obtain ⟨dacl, hd, -⟩ := sortDacl_eq_ok.1 h
    exact hsd (hd ▸ Option.some_ne_none dacl)

theorem dacl_sortDacl_ne_none {rt : Runtime} (h : securityDescriptorSortDacl rt sd = .ok sd') :
    sd'.dacl ≠ none := by
  obtain ⟨dacl, -, rfl⟩ := sortDacl_eq_ok.1 h
  exact Option.some_ne_none _

theorem dacl_of_addRight
    (h : securityDescriptorAddRight g sd classList trustee right allow = .ok sd') :
    sd.dacl ≠ none ∧ sd'.dacl ≠ none := by
  have hsd' : sd'.dacl ≠ none := by
    simp only [securityDescriptorAddRight, Except.bind_eq_ok] at h
    rcases h with ⟨sd₁, h₁, subs, hsubs, sd₂, h₂, sd₃, h₃, sd₄, h₄, sd₅, h₅, h₆⟩
    exact dacl_sortDacl_ne_none h₆
  exact ⟨(baseInvariant_dacl g.rt sd).addRight id h hsd', hsd'⟩

theorem dacl_of_removeRight
    (h : securityDescriptorRemoveRight g sd classList trustee right allow = .ok sd') :
    sd.dacl ≠ none ∧ sd'.dacl ≠ none := by
  have hsd' : sd'.dacl ≠ none := by
    simp only [securityDescriptorRemoveRight, Except.bind_eq_ok] at h
    obtain ⟨sd₁, h₁, sd₂, h₂, subs, hsubs, sd₃, h₃, h₄⟩ := h
    exact dacl_sortDacl_ne_none h₄
  exact ⟨(baseInvariant_dacl g.rt sd).removeRight id h hsd', hsd'⟩

end

/-- A descriptor of one entry, for a trustee other than "Everyone". -/
def sampleDescriptor : SecurityDescriptor :=
  .ofAces [{ zeroAce with accessMask := secAdsGenericAll, trustee := sidNtSelf }]

/-- A descriptor with an entry that allows `mask` to "Everyone". -/
def everyoneDescriptor (mask : AccessMask) : SecurityDescriptor :=
  .ofAces [{ zeroAce with accessMask := mask, trustee := sidWorld },
    { zeroAce with accessMask := secAdsGenericAll, trustee := sidNtSelf }]

end Admc
