import Admc.Interface.Attribute
import Admc.Security.Edit

/-!
# Descriptors of objects in the directory

The functions that read the descriptor of an object, or write an edited one back,
and the deletion of an object, which checks that it is not protected.

Decoding gives a null descriptor for bytes that are not those of one, such as the
empty bytes of a missing attribute, and none of these functions looks before it
uses the descriptor: each is free of this fault exactly when the bytes it is
about decode, or the check is not reached (`descriptor_defined_iff`).
-/

namespace Admc

/-- The encoding of descriptors: `ndr_pull_security_descriptor` and
    `ndr_push_security_descriptor`, which may fail. -/
structure Ndr where
  pull : QByteArray → Option SecurityDescriptor
  push : SecurityDescriptor → Option QByteArray

/-- `ATTRIBUTE_SECURITY_DESCRIPTOR`. -/
def attributeSecurityDescriptor : String := "nTSecurityDescriptor"

variable {σ : Type} (g : Globals) (ldap : Ldap σ) (ndr : Ndr)

/-- `security_descriptor_make_from_bytes`: the result may be null. -/
def securityDescriptorMakeFromBytes (sdBytes : QByteArray) : Option SecurityDescriptor :=
  ndr.pull sdBytes

/-- `AdObject::get_security_descriptor`. -/
def AdObject.getSecurityDescriptor (object : AdObject) : Option SecurityDescriptor :=
  securityDescriptorMakeFromBytes ndr (object.getValue attributeSecurityDescriptor)

/-- `descriptor_to_bytes`: null bytes, which are empty, if the encoding fails. -/
def descriptorToBytes (newSd : SecurityDescriptor) : QByteArray := (ndr.push newSd).getD []

/-- `ad_security_replace_security_descriptor`. -/
def adSecurityReplaceSecurityDescriptor (s : σ) (dn : String) (newSd : SecurityDescriptor) :
    σ × Bool :=
  attributeReplaceValue ldap s dn attributeSecurityDescriptor (descriptorToBytes ndr newSd) true

/-! ## Protection against deletion -/

/-- `ad_security_get_protected_against_deletion`. -/
def adSecurityGetProtectedAgainstDeletion (object : AdObject) : Except Fault Bool := do
  let sd ← deref (object.getSecurityDescriptor ndr)
  isDeleteProtectedForTrustee sd sidWorld

/-- `ad_security_set_protected_against_deletion`. -/
def adSecuritySetProtectedAgainstDeletion (s : σ) (dn : String) (enabled : Bool) :
    Except Fault (σ × Bool) := do
  let (s, object) := adSearchObject ldap s dn [] false
  let isEnabled ← adSecurityGetProtectedAgainstDeletion ndr object
  if isEnabled = enabled then return (s, true)
  -- the descriptor is decoded a second time, for the edit
  let newSd ← deref (object.getSecurityDescriptor ndr)
  let newSd ← protectAgainstDeletion g.rt newSd enabled
  let newSd ← securityDescriptorSortDacl g.rt newSd
  return adSecurityReplaceSecurityDescriptor ldap ndr s dn newSd

/-! ## Changing the password -/

/-- `CANT_CHANGE_PASS_TRUSTEE_CN_LIST`. -/
def cantChangePassTrusteeCnList : List DomSid := [sidNtSelf, sidWorld]

/-- The right to change the password. -/
def changePassRight (conf : AdConfig) : SecurityRight :=
  ⟨secAdsControlAccess, conf.getRightGuid "User-Change-Password", none, 0⟩

/-- `is_password_change_denied_for_trustee`. -/
def isPasswordChangeDeniedForTrustee (sd : SecurityDescriptor) (trustee : DomSid) :
    Except Fault Bool := do
  let state ← securityDescriptorGetRightState sd trustee (changePassRight g.adconfig)
  return state.get .no .deny

/-- The loop of `is_password_change_denied`: one denied trustee is enough. -/
def isPasswordChangeDeniedFor (sd : SecurityDescriptor) : List DomSid → Except Fault Bool
  | [] => return false
  | trustee :: trustees => do
    let isDenied ← isPasswordChangeDeniedForTrustee g sd trustee
    if isDenied then return true
    isPasswordChangeDeniedFor sd trustees

/-- `is_password_change_denied`. -/
def isPasswordChangeDenied (sd : SecurityDescriptor) : Except Fault Bool :=
  isPasswordChangeDeniedFor g sd cantChangePassTrusteeCnList

/-- `ad_security_get_user_cant_change_pass`. -/
def adSecurityGetUserCantChangePass (object : AdObject) : Except Fault Bool := do
  let sd ← deref (object.getSecurityDescriptor ndr)
  isPasswordChangeDenied g sd

/-- The loop of `ad_security_set_user_cant_change_pass`: "enabled" means "denied". -/
def setUserCantChangePass (sd : SecurityDescriptor) (enabled : Bool) :
    Except Fault SecurityDescriptor :=
  cantChangePassTrusteeCnList.foldlM (fun sd trustee => do
    let right := changePassRight g.adconfig
    let allow := !enabled
    let sd ← securityDescriptorRemoveRightBase sd trustee right (!allow)
    securityDescriptorAddRightBase g.rt sd trustee right allow) sd

/-- `ad_security_set_user_cant_change_pass`. -/
def adSecuritySetUserCantChangePass (s : σ) (dn : String) (enabled : Bool) :
    Except Fault (σ × Bool) := do
  let (s, object) := adSearchObject ldap s dn [attributeSecurityDescriptor] false
  let sd ← deref (object.getSecurityDescriptor ndr)
  let sd ← setUserCantChangePass g sd enabled
  let sd ← securityDescriptorSortDacl g.rt sd
  return adSecurityReplaceSecurityDescriptor ldap ndr s dn sd

/-! ## Deletion -/

/-- `LDAP_CONTROL_X_TREE_DELETE`. -/
def ldapControlXTreeDelete : String := "1.2.840.113556.1.4.805"

/-- `QHash::operator[]`, which inserts a missing key. -/
def QHash.touch (hash : QHash String AdObject) (key : String) : QHash String AdObject :=
  if hash.keys.contains key then hash else hash.insert key .empty

/-- The loop of `AdInterface::object_delete` over the subtree. -/
def deleteSubtree (s : σ) : List String → σ × Bool
  | [] => (s, true)
  | childDn :: childrenDnList =>
    let (s, result) := ldap.delete s childDn false
    if result ≠ .success then (s, false) else deleteSubtree s childrenDnList

/-- `AdInterface::object_delete`. -/
def objectDelete (s : σ) (dn : String) : Except Fault (σ × Bool) := do
  if ldap.createTreeDeleteControl s ≠ .success then return (s, false)
  let treeDeleteIsSupported := g.adconfig.controlIsSupported ldapControlXTreeDelete
  let (s, result) := ldap.delete s dn treeDeleteIsSupported
  if result = .success then return (s, true)
  -- search results include the parent too
  let (s, childrenObjMap) := adSearch ldap s dn .all ""
    ["distinguishedName", attributeSecurityDescriptor] false
  let childrenObjMap := childrenObjMap.touch dn
  let deletableObj := childrenObjMap.value dn .empty
  if ← adSecurityGetProtectedAgainstDeletion ndr deletableObj then return (s, false)
  let (s, result) := ldap.delete s dn false
  if result ≠ .success ∧ result ≠ .notAllowedOnNonleaf then return (s, false)
  -- deepest first, to delete children before parents
  let childrenDnList := childrenObjMap.keys.insertionSort fun a b =>
    b.toList.count ',' ≤ a.toList.count ','
  return deleteSubtree ldap s childrenDnList

/-! ## Null descriptors -/

/-- The computation does not use a null descriptor. -/
abbrev Defined {α : Type} (x : Except Fault α) : Prop :=
  x.Yields (· ≠ .nullDescriptor) fun _ => True

section
variable {g ldap ndr} {sd : SecurityDescriptor} {rt : Runtime} {trustee : DomSid}
  {right : SecurityRight} {allow enabled : Bool}

theorem defined_iff {α : Type} {x : Except Fault α} :
    Defined x ↔ x ≠ .error .nullDescriptor := by
  rw [Defined, Except.yields_iff]
  exact ⟨fun h he => h.2 _ he rfl, fun h => ⟨fun _ _ => trivial, fun e he hn => h (hn ▸ he)⟩⟩

theorem Defined.bind {α β : Type} {x : Except Fault α} {f : α → Except Fault β} (hx : Defined x)
    (hf : ∀ a, Defined (f a)) : Defined (x >>= f) :=
  Except.Yields.bind hx fun a _ => hf a

theorem defined_bind_iff {α β : Type} {x : Except Fault α} {f : α → Except Fault β}
    (hf : ∀ a, Defined (f a)) : Defined (x >>= f) ↔ Defined x :=
  match x with
  | .ok a => iff_of_true (hf a) trivial
  | .error _ => Iff.rfl

theorem defined_pure {α : Type} (a : α) : Defined (pure a) := trivial

/-- A descriptor that is used at once, and not lost thereafter. -/
theorem deref_bind_defined {α : Type} {sd : Option SecurityDescriptor}
    {f : SecurityDescriptor → Except Fault α} (hf : ∀ sd, Defined (f sd)) :
    Defined (deref sd >>= f) ↔ sd ≠ none := by
  rw [defined_bind_iff hf]
  cases sd with
  | none => exact iff_of_false (fun h => h rfl) fun h => h rfl
  | some sd => exact iff_of_true trivial (Option.some_ne_none sd)

theorem getDacl_defined : Defined (securityDescriptorGetDacl sd) := by
  rw [defined_iff, securityDescriptorGetDacl]
  cases sd.dacl <;> simp

theorem getRightState_defined : Defined (securityDescriptorGetRightState sd trustee right) :=
  getDacl_defined.bind fun _ => trivial

theorem removeRightBase_defined :
    Defined (securityDescriptorRemoveRightBase sd trustee right allow) :=
  (getDacl_defined.bind fun _ => defined_pure _).bind fun _ => defined_pure _

theorem addRightBase_defined :
    Defined (securityDescriptorAddRightBase rt sd trustee right allow) := by
  by_cases hd : sd.dacl = none
  · rw [defined_iff, securityDescriptorAddRightBase, hd]
    simp
  · obtain ⟨sd', hsd'⟩ := @addRightBase_returns rt sd trustee right allow hd
    rw [hsd']
    trivial

theorem sortDacl_defined : Defined (securityDescriptorSortDacl rt sd) := by
  rw [defined_iff, securityDescriptorSortDacl]
  cases sd.dacl <;> simp

theorem isDeleteProtected_defined : Defined (isDeleteProtectedForTrustee sd trustee) := by
  rw [isDeleteProtectedForTrustee]
  induction protectDeletionMaskList with
  | nil => trivial
  | cons mask masks ih =>
    refine getRightState_defined.bind fun state => ?_
    dsimp only
    split_ifs
    exacts [trivial, ih]

theorem protectAgainstDeletion_defined : Defined (protectAgainstDeletion rt sd enabled) := by
  refine List.foldlM_yields (fun sd _ mask _ => ?_) trivial
  split_ifs
  exacts [addRightBase_defined, removeRightBase_defined]

theorem isPasswordChangeDenied_defined : Defined (isPasswordChangeDenied g sd) := by
  rw [isPasswordChangeDenied]
  induction cantChangePassTrusteeCnList with
  | nil => trivial
  | cons trustee trustees ih =>
    refine (getRightState_defined.bind fun _ => defined_pure _).bind fun isDenied => ?_
    split_ifs
    exacts [trivial, ih]

theorem setUserCantChangePass_defined : Defined (setUserCantChangePass g sd enabled) :=
  List.foldlM_yields (fun _ _ _ _ => removeRightBase_defined.bind fun _ => addRightBase_defined)
    trivial

theorem getProtected_defined_iff {object : AdObject} :
    Defined (adSecurityGetProtectedAgainstDeletion ndr object) ↔
      object.getSecurityDescriptor ndr ≠ none :=
  deref_bind_defined fun _ => isDeleteProtected_defined

theorem setProtected_defined_iff {s : σ} {dn : String} :
    Defined (adSecuritySetProtectedAgainstDeletion g ldap ndr s dn enabled) ↔
      (adSearchObject ldap s dn [] false).2.getSecurityDescriptor ndr ≠ none := by
  unfold adSecuritySetProtectedAgainstDeletion adSecurityGetProtectedAgainstDeletion
  cases hsd : (adSearchObject ldap s dn [] false).2.getSecurityDescriptor ndr with
  | none => simp [hsd, defined_iff, bind, Except.bind]
  | some sd =>
    simp only [hsd, deref_some, Except.ok_bind]
    refine iff_of_true (isDeleteProtected_defined.bind fun isEnabled => ?_) (Option.some_ne_none sd)
    split_ifs
    · exact defined_pure _
    · exact protectAgainstDeletion_defined.bind fun _ => sortDacl_defined.bind fun _ =>
        defined_pure _

theorem setUserCantChangePass_defined_iff {s : σ} {dn : String} :
    Defined (adSecuritySetUserCantChangePass g ldap ndr s dn enabled) ↔
      (adSearchObject ldap s dn [attributeSecurityDescriptor] false).2.getSecurityDescriptor
        ndr ≠ none :=
  deref_bind_defined fun _ => setUserCantChangePass_defined.bind fun _ =>
    sortDacl_defined.bind fun _ => defined_pure _

/-- The deletion of an object reaches the check of its protection: the tree delete control
    is created, and the first request fails. -/
def ReachesProtectionCheck (g : Globals) (ldap : Ldap σ) (s : σ) (dn : String) : Prop :=
  ldap.createTreeDeleteControl s = .success ∧
    (ldap.delete s dn (g.adconfig.controlIsSupported ldapControlXTreeDelete)).2 ≠ .success

/-- The object whose protection is checked. -/
def checkedObject (g : Globals) (ldap : Ldap σ) (s : σ) (dn : String) : AdObject :=
  let s := (ldap.delete s dn (g.adconfig.controlIsSupported ldapControlXTreeDelete)).1
  ((adSearch ldap s dn .all "" ["distinguishedName", attributeSecurityDescriptor]
    false).2.touch dn).value dn .empty

theorem objectDelete_defined_iff {s : σ} {dn : String} :
    Defined (objectDelete g ldap ndr s dn) ↔ (ReachesProtectionCheck g ldap s dn →
      (checkedObject g ldap s dn).getSecurityDescriptor ndr ≠ none) := by
  rw [objectDelete, ReachesProtectionCheck]
  by_cases hcontrol : ldap.createTreeDeleteControl s = .success
  · by_cases hdelete :
        (ldap.delete s dn (g.adconfig.controlIsSupported ldapControlXTreeDelete)).2 = .success
    · simp [hcontrol, hdelete, defined_pure]
    · rw [imp_iff_right ⟨hcontrol, hdelete⟩, ← getProtected_defined_iff]
      simp only [hcontrol, hdelete, ne_eq, not_true_eq_false, if_false]
      refine defined_bind_iff fun isProtected => ?_
      split_ifs <;> exact defined_pure _
  · simp [hcontrol, defined_pure]

/-- The five functions use no null descriptor exactly when the bytes they decode are those
    of a descriptor; the deletion of an object, also when it does not come to the check. -/
theorem descriptor_defined_iff (g : Globals) (ldap : Ldap σ) (ndr : Ndr) (s : σ) (dn : String)
    (object : AdObject) (enabled : Bool) :
    (adSecurityGetProtectedAgainstDeletion ndr object ≠ .error .nullDescriptor ↔
      object.getSecurityDescriptor ndr ≠ none) ∧
    (adSecurityGetUserCantChangePass g ndr object ≠ .error .nullDescriptor ↔
      object.getSecurityDescriptor ndr ≠ none) ∧
    (adSecuritySetProtectedAgainstDeletion g ldap ndr s dn enabled ≠ .error .nullDescriptor ↔
      (adSearchObject ldap s dn [] false).2.getSecurityDescriptor ndr ≠ none) ∧
    (adSecuritySetUserCantChangePass g ldap ndr s dn enabled ≠ .error .nullDescriptor ↔
      (adSearchObject ldap s dn [attributeSecurityDescriptor] false).2.getSecurityDescriptor
        ndr ≠ none) ∧
    (objectDelete g ldap ndr s dn ≠ .error .nullDescriptor ↔
      (ReachesProtectionCheck g ldap s dn →
        (checkedObject g ldap s dn).getSecurityDescriptor ndr ≠ none)) := by
  simp only [← defined_iff]
  exact ⟨getProtected_defined_iff, deref_bind_defined fun _ => isPasswordChangeDenied_defined,
    setProtected_defined_iff, setUserCantChangePass_defined_iff, objectDelete_defined_iff⟩

end

/-- A server whose searches give nothing, and which deletes nothing. -/
def silentLdap : Ldap Unit where
  search _ _ := ((), [.failure])
  createSdControl _ := .success
  createTreeDeleteControl _ := .success
  modifyReplace _ _ _ _ _ := ((), .failure)
  delete _ _ _ := ((), .failure)

/-- Any bytes but none are those of a descriptor. -/
def sampleNdr : Ndr where
  pull bytes := if bytes = [] then none else some sampleDescriptor
  push _ := some [0]

/-- An object without a descriptor, and one that is not found, make each of the functions
    use a null one. -/
theorem not_descriptor_defined_missing :
    let object : AdObject := ⟨"CN=user,DC=domain", [("name", [[117]])]⟩
    adSecurityGetProtectedAgainstDeletion sampleNdr object = .error .nullDescriptor ∧
      adSecurityGetUserCantChangePass .empty sampleNdr object = .error .nullDescriptor ∧
      adSecuritySetProtectedAgainstDeletion .empty silentLdap sampleNdr () object.dn true =
        .error .nullDescriptor ∧
      adSecuritySetUserCantChangePass .empty silentLdap sampleNdr () object.dn true =
        .error .nullDescriptor ∧
      objectDelete .empty silentLdap sampleNdr () object.dn = .error .nullDescriptor := by
  decide

end Admc
