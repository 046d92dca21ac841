import Mathlib.Data.Int.Notation
import Mathlib.Data.List.Basic
import Mathlib.Tactic.Common

/-!
# Security descriptors

The Samba structures the rights editor works on, as its vendored sources
declare them: security identifiers with the order of `dom_sid_compare`, access
control entries (ACE) of every type, access control lists (ACL) and security
descriptors, with the constants of `security.h`.

A descriptor is handled through pointers, two of which the code dereferences:
the descriptor itself, null when its bytes did not decode, and its DACL, null
when the descriptor has none. A null dereference is a `Fault`, and functions
that may run into one return in `Except Fault`.

Allocation is assumed to succeed throughout.
-/

namespace Admc

/-- The undefined behaviour a rights edit can run into. -/
inductive Fault
  /-- A null `security_descriptor` is dereferenced. -/
  | nullDescriptor
  /-- A null `dacl` is dereferenced. -/
  | nullDacl
  /-- The first element of an empty list is taken. -/
  | emptyList
  deriving DecidableEq, Repr

/-- Dereferencing a descriptor pointer. -/
def deref {α : Type*} : Option α → Except Fault α
  | none => .error .nullDescriptor
  | some a => .ok a

@[simp] theorem deref_some {α : Type*} (a : α) : deref (some a) = .ok a := rfl
@[simp] theorem deref_none {α : Type*} : deref (none : Option α) = .error .nullDescriptor := rfl

/-! ## Identifiers -/

/-- The 16 bytes of a GUID, as one word. -/
structure Guid where
  bytes : BitVec 128
  deriving DecidableEq

/-- A security identifier, with the sub-authorities in use (`num_auths` is their
    number). -/
structure DomSid where
  sidRevNum : BitVec 8
  idAuth : List (BitVec 8)
  subAuths : List (BitVec 32)
  idAuth_length : idAuth.length = 6
  subAuths_length : subAuths.length ≤ 15
  deriving DecidableEq

/-- The macro `NUMERIC_CMP`. -/
def numericCmp {α : Type*} [LT α] [DecidableLT α] (a b : α) : ℤ :=
  (if b < a then 1 else 0) - (if a < b then 1 else 0)

/-- Comparing two arrays of the same length at their first difference. -/
def compareFrom {w : ℕ} : List (BitVec w) → List (BitVec w) → ℤ
  | a :: as, b :: bs => if a ≠ b then numericCmp a b else compareFrom as bs
  | _, _ => 0

/-- `dom_sid_compare_auth`. -/
def domSidCompareAuth (sid1 sid2 : DomSid) : ℤ :=
  if sid1.sidRevNum ≠ sid2.sidRevNum then numericCmp sid1.sidRevNum sid2.sidRevNum
  else compareFrom sid1.idAuth sid2.idAuth

/-- `dom_sid_compare`: the sub-authorities are compared from the last one. -/
def domSidCompare (sid1 sid2 : DomSid) : ℤ :=
  if sid1.subAuths.length ≠ sid2.subAuths.length then
    numericCmp sid1.subAuths.length sid2.subAuths.length
  else
    let c := compareFrom sid1.subAuths.reverse sid2.subAuths.reverse
    if c ≠ 0 then c else domSidCompareAuth sid1 sid2

theorem numericCmp_ne_zero {w : ℕ} {a b : BitVec w} (h : a ≠ b) : numericCmp a b ≠ 0 := by
  have hne : a.toNat ≠ b.toNat := fun e => h (BitVec.eq_of_toNat_eq e)
  simp only [numericCmp, BitVec.lt_def]
  split_ifs <;> omega

@[simp] theorem compareFrom_self {w : ℕ} (l : List (BitVec w)) : compareFrom l l = 0 := by
  induction l with
  | nil => rfl
  | cons a l ih => simp [compareFrom, ih]

theorem eq_of_compareFrom {w : ℕ} {l m : List (BitVec w)} (hlen : l.length = m.length)
    (h : compareFrom l m = 0) : l = m := by
  induction l generalizing m with
  | nil => exact (List.length_eq_zero_iff.1 hlen.symm).symm
  | cons a l ih =>
    obtain _ | ⟨b, m⟩ := m
    · exact absurd hlen (Nat.succ_ne_zero _)
    · by_cases hab : a = b
      · rw [compareFrom, if_neg (not_not.2 hab)] at h
        rw [hab, ih (Nat.succ.inj hlen) h]
      · rw [compareFrom, if_pos hab] at h
        exact absurd h (numericCmp_ne_zero hab)

/-- Two identifiers compare equal exactly when they are the same. -/
theorem domSidCompare_eq_zero {sid1 sid2 : DomSid} :
    domSidCompare sid1 sid2 = 0 ↔ sid1 = sid2 := by
  refine ⟨fun h => ?_, fun h => by simp [h, domSidCompare, domSidCompareAuth]⟩
  simp only [domSidCompare] at h
  split_ifs at h with hlen hsub
  · rw [numericCmp] at h
    split_ifs at h <;> omega
  · exact absurd h hsub
  · have hs : sid1.subAuths = sid2.subAuths := List.reverse_injective
      (eq_of_compareFrom (by simpa using hlen) (not_not.1 hsub))
    rw [domSidCompareAuth] at h
    split_ifs at h with hrev
    · exact absurd h (numericCmp_ne_zero hrev)
    · have ha : sid1.idAuth = sid2.idAuth :=
        eq_of_compareFrom (by rw [sid1.idAuth_length, sid2.idAuth_length]) h
      obtain ⟨r, a, s, _, _⟩ := sid1
      obtain ⟨r', a', s', _, _⟩ := sid2
      simp only [not_not] at hrev ha hs
      subst hrev ha hs
      rfl

/-- `SID_WORLD`, S-1-1-0. -/
def sidWorld : DomSid := ⟨1, [0, 0, 0, 0, 0, 1], [0], rfl, by decide⟩

/-- `SID_NT_SELF`, S-1-5-10. -/
def sidNtSelf : DomSid := ⟨1, [0, 0, 0, 0, 0, 5], [10], rfl, by decide⟩

/-! ## Access control entries -/

/-- `enum security_ace_type`, in the order of the codes. The code comes from the
    wire unchecked: `reserved n` is the code `0x14 + n`. -/
inductive SecurityAceType
  | accessAllowed
  | accessDenied
  | systemAudit
  | systemAlarm
  | allowedCompound
  | accessAllowedObject
  | accessDeniedObject
  | systemAuditObject
  | systemAlarmObject
  | accessAllowedCallback
  | accessDeniedCallback
  | accessAllowedCallbackObject
  | accessDeniedCallbackObject
  | systemAuditCallback
  | systemAlarmCallback
  | systemAuditCallbackObject
  | systemAlarmCallbackObject
  | systemMandatoryLabel
  | systemResourceAttribute
  | systemScopedPolicyId
  | reserved (n : ℕ)
  deriving DecidableEq, Repr

/-- The code of a type. -/
def SecurityAceType.code : SecurityAceType → ℕ
  | .accessAllowed => 0x00
  | .accessDenied => 0x01
  | .systemAudit => 0x02
  | .systemAlarm => 0x03
  | .allowedCompound => 0x04
  | .accessAllowedObject => 0x05
  | .accessDeniedObject => 0x06
  | .systemAuditObject => 0x07
  | .systemAlarmObject => 0x08
  | .accessAllowedCallback => 0x09
  | .accessDeniedCallback => 0x0A
  | .accessAllowedCallbackObject => 0x0B
  | .accessDeniedCallbackObject => 0x0C
  | .systemAuditCallback => 0x0D
  | .systemAlarmCallback => 0x0E
  | .systemAuditCallbackObject => 0x0F
  | .systemAlarmCallbackObject => 0x10
  | .systemMandatoryLabel => 0x11
  | .systemResourceAttribute => 0x12
  | .systemScopedPolicyId => 0x13
  | .reserved n => 0x14 + n

abbrev AccessMask := BitVec 32
abbrev AceFlags := BitVec 8

/-- `SEC_ACE_FLAG_*`. -/
def secAceFlagContainerInherit : AceFlags := 0x02
def secAceFlagInheritOnly : AceFlags := 0x08
def secAceFlagInheritedAce : AceFlags := 0x10

/-- `SEC_ACE_OBJECT_TYPE_PRESENT`. -/
def secAceObjectTypePresent : BitVec 32 := 0x1
/-- `SEC_ACE_INHERITED_OBJECT_TYPE_PRESENT`. -/
def secAceInheritedObjectTypePresent : BitVec 32 := 0x2

/-- `struct security_ace_object`. -/
structure AceObject where
  flags : BitVec 32
  type : Guid
  inheritedType : Guid
  deriving DecidableEq

/-- The values of a claim, of the type given by `value_type`; a value may be
    null. -/
inductive ClaimValues
  | int64 (values : List (Option (BitVec 64)))
  | uint64 (values : List (Option (BitVec 64)))
  | string (values : List (Option String))
  | sid (values : List (Option (List (BitVec 8))))
  | boolean (values : List (Option (BitVec 64)))
  | octetString (values : List (Option (List (BitVec 8))))
  | other (valueType : BitVec 16) (valueCount : ℕ)
  deriving DecidableEq

/-- `struct CLAIM_SECURITY_ATTRIBUTE_RELATIVE_V1`. -/
structure Claim where
  name : Option String
  flags : BitVec 32
  values : ClaimValues
  deriving DecidableEq

/-- `union security_ace_coda`, as the readers of its members see it. -/
structure AceCoda where
  conditions : List (BitVec 8)
  claim : Claim
  deriving DecidableEq

/-- `struct security_ace`. -/
structure SecurityAce where
  type : SecurityAceType
  flags : AceFlags
  size : BitVec 16
  accessMask : AccessMask
  object : AceObject
  trustee : DomSid
  coda : AceCoda
  deriving DecidableEq

/-- An entry of zeroed memory. -/
def zeroAce : SecurityAce where
  type := .accessAllowed
  flags := 0
  size := 0
  accessMask := 0
  object := ⟨0, ⟨0⟩, ⟨0⟩⟩
  trustee := ⟨0, [0, 0, 0, 0, 0, 0], [], rfl, by decide⟩
  coda := ⟨[], ⟨none, 0, .other 0 0⟩⟩

/-- `sec_ace_object`. -/
def secAceObject : SecurityAceType → Bool
  | .accessAllowedObject | .accessDeniedObject | .systemAuditObject | .systemAlarmObject
  | .accessAllowedCallbackObject | .accessDeniedCallbackObject
  | .systemAuditCallbackObject => true
  | _ => false

/-- `sec_ace_callback`. -/
def secAceCallback : SecurityAceType → Bool
  | .accessAllowedCallback | .accessDeniedCallback | .accessAllowedCallbackObject
  | .accessDeniedCallbackObject | .systemAuditCallback | .systemAuditCallbackObject => true
  | _ => false

/-- `sec_ace_resource`. -/
def secAceResource (type : SecurityAceType) : Bool := type = .systemResourceAttribute

/-! ## Lists and descriptors -/

/-- `struct security_acl` (`num_aces` is the length of `aces`). -/
structure SecurityAcl where
  revision : BitVec 8
  size : BitVec 16
  aces : List SecurityAce
  deriving DecidableEq

/-- `SEC_DESC_DACL_PRESENT`. -/
def secDescDaclPresent : BitVec 16 := 0x0004
/-- `SECURITY_ACL_REVISION_NT4`. -/
def securityAclRevisionNt4 : BitVec 8 := 2
/-- `SECURITY_ACL_REVISION_ADS`. -/
def securityAclRevisionAds : BitVec 8 := 4

/-- `struct security_descriptor`. -/
structure SecurityDescriptor where
  revision : BitVec 8
  type : BitVec 16
  ownerSid : Option DomSid
  groupSid : Option DomSid
  sacl : Option SecurityAcl
  dacl : Option SecurityAcl
  deriving DecidableEq

/-- The descriptor of a DACL alone, as read from the wire. -/
def SecurityDescriptor.ofAces (aces : List SecurityAce) : SecurityDescriptor where
  revision := 1
  type := secDescDaclPresent
  ownerSid := none
  groupSid := none
  sacl := none
  dacl := some ⟨securityAclRevisionAds, 0, aces⟩

/-- `security_descriptor_acl_add` to the DACL at the index `-1`, i.e., at the end:
    a missing ACL is allocated first. -/
def securityDescriptorDaclAdd (sd : SecurityDescriptor) (ace : SecurityAce) :
    SecurityDescriptor :=
  let acl := sd.dacl.getD ⟨securityAclRevisionNt4, 0, []⟩
  { sd with
    dacl := some { acl with
      aces := acl.aces ++ [ace]
      revision := if secAceObject ace.type then securityAclRevisionAds else acl.revision }
    type := sd.type ||| secDescDaclPresent }

/-- `security_descriptor_get_dacl`. -/
def securityDescriptorGetDacl (sd : SecurityDescriptor) : Except Fault (List SecurityAce) :=
  match sd.dacl with
  | none => .error .nullDacl
  | some dacl => .ok dacl.aces

/-- The entries of the DACL, none if it is null. -/
def SecurityDescriptor.aces (sd : SecurityDescriptor) : List SecurityAce :=
  (sd.dacl.map SecurityAcl.aces).getD []

theorem securityDescriptorGetDacl_eq_ok {sd : SecurityDescriptor} {l : List SecurityAce} :
    securityDescriptorGetDacl sd = .ok l ↔ sd.dacl ≠ none ∧ sd.aces = l := by
  rw [securityDescriptorGetDacl, SecurityDescriptor.aces]
  cases sd.dacl <;> simp

@[simp] theorem aces_daclAdd (sd : SecurityDescriptor) (ace : SecurityAce) :
    (securityDescriptorDaclAdd sd ace).aces = sd.aces ++ [ace] := by
  unfold securityDescriptorDaclAdd SecurityDescriptor.aces
  cases sd.dacl <;> rfl

@[simp] theorem dacl_daclAdd_ne_none (sd : SecurityDescriptor) (ace : SecurityAce) :
    (securityDescriptorDaclAdd sd ace).dacl ≠ none := Option.some_ne_none _

end Admc
