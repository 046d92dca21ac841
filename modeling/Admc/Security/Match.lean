import Admc.Lib.Except
import Admc.Lib.Mask
import Admc.Security.Order

/-!
# Rights and the entries that hold them

A right is an access mask, with an object type and an inherited object type if
it has them, and the flags of its entries. Two predicates match entries with a
right, for a trustee and a side (to allow or to deny):

* `aceMatch`, by which the state of a right is read: the entry may be inherited
  or have no object type, and its mask includes the one of the right;
* `aceMatchWithoutAccessMask` with the flags of the edits
  (`editMatchFlags`): the entry has the flags and the types of the right.

`aceMatch_iff` and `editMatch_iff` say what they mean on the parts of an entry.
-/

namespace Admc

/-- `enum SecurityRightStateType`. -/
inductive SecurityRightStateType
  | allow
  | deny
  deriving DecidableEq, Repr

/-- `enum SecurityRightStateInherited`. -/
inductive SecurityRightStateInherited
  | yes
  | no
  deriving DecidableEq, Repr

/-- `struct SecurityRight`. An object type is none when its bytes are empty. -/
structure SecurityRight where
  accessMask : AccessMask
  objectType : Option Guid
  inheritedObjectType : Option Guid
  flags : AceFlags
  deriving DecidableEq

/-! ## Masks -/

def secAdsCreateChild : AccessMask := 0x00000001
def secAdsDeleteChild : AccessMask := 0x00000002
def secAdsList : AccessMask := 0x00000004
def secAdsSelfWrite : AccessMask := 0x00000008
def secAdsReadProp : AccessMask := 0x00000010
def secAdsWriteProp : AccessMask := 0x00000020
def secAdsDeleteTree : AccessMask := 0x00000040
def secAdsListObject : AccessMask := 0x00000080
def secAdsControlAccess : AccessMask := 0x00000100
def secStdDelete : AccessMask := 0x00010000
def secStdReadControl : AccessMask := 0x00020000
def secStdWriteDac : AccessMask := 0x00040000
def secStdWriteOwner : AccessMask := 0x00080000
def secAdsGenericRead : AccessMask := 0x00020094
def secAdsGenericWrite : AccessMask := 0x00020028
def secAdsGenericAll : AccessMask := 0x000F01FF

/-- `GENERIC_READ_FIXED`: generic read without the "list object" right. -/
def genericReadFixed : AccessMask := secAdsGenericRead &&& ~~~secAdsListObject

/-- `COMMON_RIGHTS_LIST`. -/
def commonRightsList : List AccessMask :=
  [secAdsGenericAll, secAdsGenericRead, secAdsGenericWrite, secAdsList, secAdsReadProp,
    secAdsWriteProp, secStdDelete, secAdsDeleteTree, secStdReadControl, secStdWriteDac,
    secStdWriteOwner, secAdsSelfWrite, secAdsControlAccess, secAdsCreateChild, secAdsDeleteChild]

/-- `bitmask_is_set`. -/
def bitmaskIsSet {w : ℕ} (inputMask maskToRead : BitVec w) : Bool :=
  inputMask &&& maskToRead = maskToRead

/-- `bitmask_set`. -/
def bitmaskSet {w : ℕ} (inputMask maskToSet : BitVec w) (isSet : Bool) : BitVec w :=
  if isSet then inputMask ||| maskToSet else inputMask &&& ~~~maskToSet

theorem bitmaskIsSet_iff {w : ℕ} {M m : BitVec w} :
    bitmaskIsSet M m = true ↔ Mask.Includes M m := decide_eq_true_iff

/-- `ad_security_map_access_mask`. -/
def adSecurityMapAccessMask (accessMask : AccessMask) : AccessMask :=
  if accessMask = secAdsGenericRead then genericReadFixed else accessMask

/-! ## Matching -/

/-- `struct ace_match_flags`. -/
structure AceMatchFlags where
  matchInheritance : Bool
  matchObjectType : Bool

/-- `ACE_TYPES_WITH_OBJECT`. -/
def aceTypesWithObject : List SecurityAceType :=
  [.accessAllowedObject, .accessDeniedObject, .systemAuditObject, .systemAlarmObject]

/-- `ACE_TYPE_ALLOW_SET`. -/
def aceTypeAllowSet : List SecurityAceType := [.accessAllowed, .accessAllowedObject]

/-- `ACE_TYPE_DENY_SET`. -/
def aceTypeDenySet : List SecurityAceType := [.accessDenied, .accessDeniedObject]

/-- `ace_match_without_access_mask`. -/
def aceMatchWithoutAccessMask (ace : SecurityAce) (trustee : DomSid) (right : SecurityRight)
    (allow : Bool) (matchFlags : AceMatchFlags) : Bool :=
  let aceAllow := aceTypeAllowSet.contains ace.type
  let aceDeny := aceTypeDenySet.contains ace.type
  let typeMatch := (allow && aceAllow) || (!allow && aceDeny)
  -- inherited and at the same time inheritable entries match for children too
  let aceIsInherited :=
    bitmaskIsSet ace.flags (secAceFlagContainerInherit ||| secAceFlagInheritedAce)
  let flagsMatch := if matchFlags.matchInheritance then aceIsInherited || ace.flags == right.flags
    else ace.flags == right.flags
  let objectPresent := aceTypesWithObject.contains ace.type &&
    bitmaskIsSet ace.object.flags secAceObjectTypePresent
  let inheritedObjectPresent := aceTypesWithObject.contains ace.type &&
    bitmaskIsSet ace.object.flags secAceInheritedObjectTypePresent
  let objectMatch := if objectPresent then some ace.object.type == right.objectType
    else if matchFlags.matchObjectType then right.objectType.isNone else true
  let inheritedObjectMatch :=
    if inheritedObjectPresent then
      some ace.object.inheritedType == right.inheritedObjectType || aceIsInherited
    else right.inheritedObjectType.isNone || aceIsInherited
  let trusteeMatch := domSidCompare ace.trustee trustee == 0
  inheritedObjectMatch && typeMatch && flagsMatch && trusteeMatch && objectMatch

/-- The flags `ace_match` matches with: inherited entries match, and entries without
    an object type match for any. -/
def stateMatchFlags : AceMatchFlags := ⟨true, false⟩

/-- The flags the edits match with: inherited entries do not match, and object types
    do. -/
def editMatchFlags : AceMatchFlags := ⟨false, true⟩

/-- `ace_match`. -/
def aceMatch (ace : SecurityAce) (trustee : DomSid) (right : SecurityRight) (allow : Bool) : Bool :=
  let accessMask := adSecurityMapAccessMask right.accessMask
  let accessMaskMatch := bitmaskIsSet ace.accessMask accessMask
  accessMaskMatch && aceMatchWithoutAccessMask ace trustee right allow stateMatchFlags

/-- `match_dacl_index`. -/
def matchDaclIndex (trustee : DomSid) (dacl : List SecurityAce) (right : SecurityRight)
    (allow : Bool) : Option ℕ :=
  dacl.findIdx? fun ace => aceMatchWithoutAccessMask ace trustee right allow editMatchFlags

/-! ### The parts of an entry -/

/-- The side an entry is on, if it allows or denies. -/
def SecurityAce.side (ace : SecurityAce) : Option Bool :=
  if aceTypeAllowSet.contains ace.type then some true
  else if aceTypeDenySet.contains ace.type then some false
  else none

/-- The object type an entry names. -/
def SecurityAce.objectType (ace : SecurityAce) : Option Guid :=
  if aceTypesWithObject.contains ace.type && bitmaskIsSet ace.object.flags secAceObjectTypePresent
  then some ace.object.type else none

/-- The inherited object type an entry names. -/
def SecurityAce.inheritedObjectType (ace : SecurityAce) : Option Guid :=
  if aceTypesWithObject.contains ace.type &&
      bitmaskIsSet ace.object.flags secAceInheritedObjectTypePresent
  then some ace.object.inheritedType else none

/-- An entry that is inherited and inheritable. -/
def SecurityAce.IsInheritedInheritable (flags : AceFlags) : Prop :=
  bitmaskIsSet flags (secAceFlagContainerInherit ||| secAceFlagInheritedAce) = true

instance (flags : AceFlags) : Decidable (SecurityAce.IsInheritedInheritable flags) :=
  inferInstanceAs (Decidable (_ = _))

theorem typeMatch_iff (ace : SecurityAce) (allow : Bool) :
    (allow && aceTypeAllowSet.contains ace.type || !allow && aceTypeDenySet.contains ace.type) =
      true ↔ ace.side = some allow := by
  have hdisj : aceTypeAllowSet.contains ace.type = true →
      aceTypeDenySet.contains ace.type = false := by
    cases ace.type <;> simp [aceTypeAllowSet, aceTypeDenySet]
  rw [SecurityAce.side]
  cases allow <;> grind

theorem typeIs_iff {present : Bool} {t : Guid} {o : Option Guid} :
    (if present then some t == o else o.isNone) = true ↔
      (if present then some t else none) = o := by
  cases present <;> cases o <;> simp

theorem typeIs_or_iff {present : Bool} {t : Guid} {o : Option Guid} {b : Bool} :
    (if present then some t == o || b else o.isNone || b) = true ↔
      (if present then some t else none) = o ∨ b = true := by
  cases present <;> cases o <;> simp

theorem typeIsOrNone_iff {present : Bool} {t : Guid} {o : Option Guid} :
    (if present then some t == o else true) = true ↔
      (if present then some t else none) = none ∨ (if present then some t else none) = o := by
  cases present <;> simp

/-- What an entry that matches for an edit is: it has the flags and the types of the
    right (any inherited type, if the flags are those of an inherited entry that is
    inheritable). -/
theorem editMatch_iff {ace : SecurityAce} {trustee : DomSid} {right : SecurityRight}
    {allow : Bool} :
    aceMatchWithoutAccessMask ace trustee right allow editMatchFlags = true ↔
      ace.side = some allow ∧ ace.flags = right.flags ∧ ace.trustee = trustee ∧
      (ace.inheritedObjectType = right.inheritedObjectType ∨
        SecurityAce.IsInheritedInheritable ace.flags) ∧
      ace.objectType = right.objectType := by
  rw [← typeMatch_iff, ← domSidCompare_eq_zero, SecurityAce.objectType,
    SecurityAce.inheritedObjectType, SecurityAce.IsInheritedInheritable, ← typeIs_or_iff,
    ← typeIs_iff]
  simp only [aceMatchWithoutAccessMask, editMatchFlags, Bool.and_eq_true, Bool.false_eq_true,
    if_false, if_true, beq_iff_eq]
  tauto

/-- What an entry that matches for the state of a right is. -/
theorem aceMatch_iff {ace : SecurityAce} {trustee : DomSid} {right : SecurityRight}
    {allow : Bool} :
    aceMatch ace trustee right allow = true ↔
      bitmaskIsSet ace.accessMask (adSecurityMapAccessMask right.accessMask) = true ∧
      ace.side = some allow ∧
      (SecurityAce.IsInheritedInheritable ace.flags ∨ ace.flags = right.flags) ∧
      ace.trustee = trustee ∧
      (ace.inheritedObjectType = right.inheritedObjectType ∨
        SecurityAce.IsInheritedInheritable ace.flags) ∧
      (ace.objectType = none ∨ ace.objectType = right.objectType) := by
  rw [← typeMatch_iff, ← domSidCompare_eq_zero, SecurityAce.objectType,
    SecurityAce.inheritedObjectType, SecurityAce.IsInheritedInheritable, ← typeIsOrNone_iff,
    ← typeIs_or_iff]
  simp only [aceMatch, aceMatchWithoutAccessMask, stateMatchFlags, Bool.and_eq_true,
    Bool.or_eq_true, Bool.false_eq_true, if_false, if_true, beq_iff_eq]
  tauto

/-! ## The state of a right -/

/-- `class SecurityRightState`. -/
structure SecurityRightState where
  data : SecurityRightStateInherited → SecurityRightStateType → Bool

/-- `SecurityRightState::get`. -/
def SecurityRightState.get (state : SecurityRightState) (inherited : SecurityRightStateInherited)
    (type : SecurityRightStateType) : Bool := state.data inherited type

/-- `bitmask_to_inherited_state`. -/
def bitmaskToInheritedState (ace : SecurityAce) : SecurityRightStateInherited :=
  if bitmaskIsSet ace.flags secAceFlagInheritedAce then .yes else .no

/-- The body of the loop of `security_descriptor_get_right_state`. -/
def rightStateStep (trustee : DomSid) (right : SecurityRight) (out : SecurityRightState)
    (ace : SecurityAce) : SecurityRightState :=
  let matchForAllow := aceMatch ace trustee right true
  let matchForDeny := aceMatch ace trustee right false
  if !(matchForAllow || matchForDeny) then out
  else
    let stateInherited := bitmaskToInheritedState ace
    let stateAllowed := if matchForAllow then .allow else .deny
    ⟨fun inherited type =>
      if inherited = stateInherited ∧ type = stateAllowed then true else out.data inherited type⟩

/-- `security_descriptor_get_right_state`. -/
def securityDescriptorGetRightState (sd : SecurityDescriptor) (trustee : DomSid)
    (right : SecurityRight) : Except Fault SecurityRightState := do
  let dacl ← securityDescriptorGetDacl sd
  return dacl.foldl (rightStateStep trustee right) ⟨fun _ _ => false⟩

/-- The type of state that an entry for the side `allow` sets. -/
def SecurityRightStateType.ofAllow (allow : Bool) : SecurityRightStateType :=
  if allow then .allow else .deny

theorem not_aceMatch_both {ace : SecurityAce} {trustee : DomSid} {right : SecurityRight}
    (ha : aceMatch ace trustee right true = true) : aceMatch ace trustee right false = false := by
  rw [Bool.eq_false_iff, Ne, aceMatch_iff]
  rintro ⟨-, hs, -⟩
  rw [(aceMatch_iff.1 ha).2.1] at hs
  exact absurd hs (by decide)

theorem get_foldl_rightStateStep {trustee : DomSid} {right : SecurityRight}
    {out : SecurityRightState} {dacl : List SecurityAce} {inherited : SecurityRightStateInherited}
    {allow : Bool} :
    (dacl.foldl (rightStateStep trustee right) out).get inherited (.ofAllow allow) = true ↔
      out.get inherited (.ofAllow allow) = true ∨ ∃ ace ∈ dacl,
        bitmaskToInheritedState ace = inherited ∧ aceMatch ace trustee right allow = true := by
  induction dacl generalizing out with
  | nil => simp
  | cons ace dacl ih =>
    have hstep : (rightStateStep trustee right out ace).get inherited (.ofAllow allow) = true ↔
        out.get inherited (.ofAllow allow) = true ∨
          bitmaskToInheritedState ace = inherited ∧ aceMatch ace trustee right allow = true := by
      have := @not_aceMatch_both ace trustee right
      cases allow <;> grind [rightStateStep, SecurityRightState.get, SecurityRightStateType.ofAllow]
    rw [List.foldl_cons, ih, hstep, or_assoc]
    simp

/-- A state is set by some entry that matches the right. -/
theorem getRightState_get_iff {sd : SecurityDescriptor} {trustee : DomSid} {right : SecurityRight}
    {state : SecurityRightState} (h : securityDescriptorGetRightState sd trustee right = .ok state)
    {inherited : SecurityRightStateInherited} {allow : Bool} :
    state.get inherited (.ofAllow allow) = true ↔ ∃ ace ∈ sd.aces,
      bitmaskToInheritedState ace = inherited ∧ aceMatch ace trustee right allow = true := by
  simp only [securityDescriptorGetRightState, Except.bind_eq_ok, Except.pure_eq_ok,
    securityDescriptorGetDacl_eq_ok] at h
  obtain ⟨_, ⟨_, rfl⟩, rfl⟩ := h
  rw [get_foldl_rightStateStep]
  simp [SecurityRightState.get]

/-- Reading a state is defined when the DACL is not null. -/
theorem getRightState_isOk {sd : SecurityDescriptor} (h : sd.dacl ≠ none) (trustee : DomSid)
    (right : SecurityRight) :
    ∃ state, securityDescriptorGetRightState sd trustee right = .ok state :=
  ⟨_, Except.bind_eq_ok.2 ⟨_, securityDescriptorGetDacl_eq_ok.2 ⟨h, rfl⟩, rfl⟩⟩

end Admc
