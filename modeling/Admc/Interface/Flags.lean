import Admc.Interface.Descriptor
import Admc.Text

/-!
# Flags of accounts and groups

The options of an account and the type and scope of a group are bits of one number, which
is read, changed and written back. What cannot be read counts as zero, so that a failed
read clears every other bit. A group does not change from global to domain local or back
at once, but by way of universal: but if this change is refused, or the scope cannot be
read, the other is made nevertheless.

* `userSetAccountOption_keeps_iff`, `groupSetType_keeps_iff`: an option or a type keeps
  the other bits, and writes nothing else, exactly when the number is read.
* `groupSetScope_keeps_iff`: a scope does so, and makes no direct change, exactly when the
  number is read before each write, and the change to universal is made if one is needed.
-/

namespace Admc

/-- `AdObject::get_ints`. -/
def AdObject.getInts (object : AdObject) (rt : Runtime) (attr : String) : List (BitVec 32) :=
  (object.getStrings rt attr).map fun string => BitVec.ofInt 32 (toInt string.toList)

/-- `AdObject::get_int`. -/
def AdObject.getInt (object : AdObject) (rt : Runtime) (attr : String) : BitVec 32 :=
  (object.getInts rt attr).headD 0

/-- `ATTRIBUTE_USER_ACCOUNT_CONTROL`. -/
def attributeUserAccountControl : String := "userAccountControl"

/-- `ATTRIBUTE_GROUP_TYPE`. -/
def attributeGroupType : String := "groupType"

/-- `ATTRIBUTE_PWD_LAST_SET`. -/
def attributePwdLastSet : String := "pwdLastSet"

/-- `enum AccountOption`. -/
inductive AccountOption
  | disabled
  | cantChangePassword
  | allowReversibleEncryption
  | passwordExpired
  | dontExpirePassword
  | useDesKey
  | smartcardRequired
  | cantDelegate
  | dontRequirePreauth
  | trustedForDelegation
  deriving DecidableEq

/-- `account_option_bit`. -/
def accountOptionBit : AccountOption → BitVec 32
  | .disabled => 0x00000002
  | .allowReversibleEncryption => 0x00000080
  | .dontExpirePassword => 0x00010000
  | .useDesKey => 0x00200000
  | .smartcardRequired => 0x00040000
  | .dontRequirePreauth => 0x00400000
  | .cantDelegate => 0x00100000
  | .trustedForDelegation => 0x00080000
  | .cantChangePassword | .passwordExpired => 0

/-- The option is a bit of its own. -/
def AccountOption.IsBit (option : AccountOption) : Prop :=
  option ≠ .cantChangePassword ∧ option ≠ .passwordExpired

/-- `enum GroupScope`. -/
inductive GroupScope
  | global
  | domainLocal
  | universal
  deriving DecidableEq

/-- The scopes, in the order of their numbers. -/
def groupScopes : List GroupScope := [.global, .domainLocal, .universal]

/-- `group_scope_bit`. -/
def groupScopeBit : GroupScope → BitVec 32
  | .global => 0x00000002
  | .domainLocal => 0x00000004
  | .universal => 0x00000008

/-- `enum GroupType`. -/
inductive GroupType
  | security
  | distribution
  deriving DecidableEq

/-- `GROUP_TYPE_BIT_SECURITY`. -/
def groupTypeBitSecurity : BitVec 32 := 0x80000000

/-- The scope of a group of that type, as `AdObject::get_group_scope` finds it. -/
def groupScopeOf (groupType : BitVec 32) : GroupScope :=
  (groupScopes.find? fun scope => bitmaskIsSet groupType (groupScopeBit scope)).getD .global

section
variable {σ : Type} (g : Globals) (ldap : Ldap σ) (ndr : Ndr)

/-- `AdInterface::attribute_replace_int`. -/
def attributeReplaceInt (s : σ) (dn attr : String) (value : BitVec 32) : σ × Bool :=
  attributeReplaceString ldap s dn attr (String.ofList (number value.toInt))

/-- `AdInterface::get_uac`. -/
def getUac (s : σ) (dn : String) : σ × BitVec 32 :=
  let (s, object) := adSearchObject ldap s dn [attributeUserAccountControl] false
  (s, object.getInt g.rt attributeUserAccountControl)

/-- `AdInterface::user_set_account_option`. -/
def userSetAccountOption (s : σ) (dn : String) (option : AccountOption) (set : Bool) :
    Except Fault (σ × Bool) :=
  if dn = "" then pure (s, false)
  else
    match option with
    | .cantChangePassword => adSecuritySetUserCantChangePass g ldap ndr s dn set
    | .passwordExpired =>
      let pwdLastSetValue := if set then "0" else "-1"
      pure (attributeReplaceString ldap s dn attributePwdLastSet pwdLastSetValue)
    | option =>
      let (s, uac) := getUac g ldap s dn
      let bit := accountOptionBit option
      let updatedUac := bitmaskSet uac bit set
      pure (attributeReplaceInt ldap s dn attributeUserAccountControl updatedUac)

/-- An option that is a bit is set in the number that is read. -/
theorem userSetAccountOption_of_isBit (s : σ) {dn : String} (hdn : dn ≠ "")
    {option : AccountOption} (hbit : option.IsBit) (set : Bool) :
    userSetAccountOption g ldap ndr s dn option set =
      .ok (attributeReplaceInt ldap
        (adSearchObject ldap s dn [attributeUserAccountControl] false).1 dn
        attributeUserAccountControl
        (bitmaskSet ((adSearchObject ldap s dn [attributeUserAccountControl] false).2.getInt g.rt
          attributeUserAccountControl) (accountOptionBit option) set)) := by
  unfold userSetAccountOption
  rw [if_neg hdn]
  cases option with
  | cantChangePassword => exact absurd rfl hbit.1
  | passwordExpired => exact absurd rfl hbit.2
  | _ => rfl

/-- `AdInterface::group_set_type`. -/
def groupSetType (s : σ) (dn : String) (type : GroupType) : σ × Bool :=
  let (s, object) := adSearchObject ldap s dn [attributeGroupType] false
  let groupType := object.getInt g.rt attributeGroupType
  let setSecurityBit := type = .security
  let updateGroupType := bitmaskSet groupType groupTypeBitSecurity setSecurityBit
  attributeReplaceString ldap s dn attributeGroupType
    (String.ofList (number updateGroupType.toInt))

/-- The type is set in the number that is read. -/
theorem groupSetType_eq (s : σ) (dn : String) (type : GroupType) :
    groupSetType g ldap s dn type =
      attributeReplaceInt ldap (adSearchObject ldap s dn [attributeGroupType] false).1 dn
        attributeGroupType
        (bitmaskSet ((adSearchObject ldap s dn [attributeGroupType] false).2.getInt g.rt
          attributeGroupType) groupTypeBitSecurity (type = .security)) := rfl

/-- A change from global to domain local, or back. -/
def Opposite (current scope : GroupScope) : Prop :=
  current = .global ∧ scope = .domainLocal ∨ current = .domainLocal ∧ scope = .global

instance (current scope : GroupScope) : Decidable (Opposite current scope) :=
  inferInstanceAs (Decidable (_ ∨ _))

theorem not_opposite_universal {current : GroupScope} : ¬Opposite current .universal := by
  rintro (⟨-, h⟩ | ⟨-, h⟩) <;> exact nomatch h

/-- `AdInterface::is_universal_scope_needed`. -/
def isUniversalScopeNeeded (s : σ) (dn : String) (scope : GroupScope) : σ × Bool :=
  let (s, object) := adSearchObject ldap s dn [attributeGroupType] false
  let currentScope := groupScopeOf (object.getInt g.rt attributeGroupType)
  (s, Opposite currentScope scope)

/-- The scope bits of a group type, replaced by one of a scope. -/
def withScope (groupType : BitVec 32) (scope : GroupScope) : BitVec 32 :=
  -- unset all scope bits, because they are exclusive
  let groupType := groupScopes.foldl (fun groupType thisScope =>
    bitmaskSet groupType (groupScopeBit thisScope) false) groupType
  bitmaskSet groupType (groupScopeBit scope) true

/-- The body of `AdInterface::group_set_scope`, with the call that it makes of itself. -/
def groupSetScopeBody (groupSetScope : σ → GroupScope → σ × Bool) (s : σ) (dn : String)
    (scope : GroupScope) : σ × Bool :=
  let (s, isNeeded) := isUniversalScopeNeeded g ldap s dn scope
  -- whether this change succeeds is not looked at
  let s := if isNeeded then (groupSetScope s .universal).1 else s
  let (s, object) := adSearchObject ldap s dn [attributeGroupType] false
  let groupType := withScope (object.getInt g.rt attributeGroupType) scope
  attributeReplaceInt ldap s dn attributeGroupType groupType

/-- `AdInterface::group_set_scope`: the call for universal makes no further one. -/
def groupSetScope (s : σ) (dn : String) (scope : GroupScope) : σ × Bool :=
  groupSetScopeBody g ldap
    (fun s scope => groupSetScopeBody g ldap (fun s _ => (s, false)) s dn scope) s dn scope

/-- The change to universal needs no other before. -/
theorem isUniversalScopeNeeded_universal (s : σ) (dn : String) :
    (isUniversalScopeNeeded g ldap s dn .universal).2 = false := by
  simp [isUniversalScopeNeeded, Opposite]

/-- Setting the scope calls itself, as in the source. -/
theorem groupSetScope_eq (s : σ) (dn : String) (scope : GroupScope) :
    groupSetScope g ldap s dn scope =
      groupSetScopeBody g ldap (fun s scope => groupSetScope g ldap s dn scope) s dn scope := by
  have hbody : ∀ call call' : σ → GroupScope → σ × Bool, ∀ s,
      groupSetScopeBody g ldap call s dn .universal =
        groupSetScopeBody g ldap call' s dn .universal := by
    intro call call' s
    simp only [groupSetScopeBody, isUniversalScopeNeeded_universal, Bool.false_eq_true, if_false]
  unfold groupSetScope
  rw [groupSetScopeBody, groupSetScopeBody]
  simp only [hbody _ fun s scope => groupSetScopeBody g ldap (fun s _ => (s, false)) s dn scope]

end

/-! ## A server for one number -/

/-- What a read gives: the values, or none for one of three reasons. -/
inductive ReadOutcome
  | value
  | failure
  | noObject
  | noAttribute
  deriving DecidableEq

/-- How each read and each write comes out, by the number of those before it. -/
structure RequestOutcomes where
  read : ℕ → ReadOutcome
  accepts : ℕ → Bool

/-- A request: a read, or a write over the values that are stored. -/
inductive FlagEvent
  | read (outcome : ReadOutcome)
  | write (before written : List QByteArray)
  deriving DecidableEq

/-- The values of an attribute of an object, and the requests so far. -/
structure FlagState where
  stored : List QByteArray
  reads : ℕ
  writes : ℕ
  events : List FlagEvent
  deriving DecidableEq

/-- A server with one attribute of one object, on which requests come out so. -/
def flagLdap (attr : String) (outcomes : RequestOutcomes) : Ldap FlagState where
  search s request :=
    (⟨s.stored, s.reads + 1, s.writes, s.events ++ [.read (outcomes.read s.reads)]⟩,
      match outcomes.read s.reads with
      | .value => [.page [(request.base, [(attr, s.stored)])] false]
      | .failure => [.failure]
      | .noObject => [.page [] false]
      | .noAttribute => [.page [(request.base, [])] false])
  createSdControl _ := .success
  createTreeDeleteControl _ := .success
  modifyReplace s _ _ values _ :=
    (⟨if outcomes.accepts s.writes then values else s.stored, s.reads, s.writes + 1,
      s.events ++ [.write s.stored values]⟩,
      if outcomes.accepts s.writes then .success else .failure)
  delete s _ _ := (s, .failure)

/-- The values of an attribute that is a number. -/
def numberValues (value : BitVec 32) : List QByteArray :=
  [toUtf8 (String.ofList (number value.toInt))]

/-- The number that is read from values. -/
def valuesNumber (rt : Runtime) (values : List QByteArray) : BitVec 32 :=
  (values.map fun value => BitVec.ofInt 32 (toInt (rt.fromUtf8 value).toList)).headD 0

/-- Before any request. -/
def FlagState.init (value : BitVec 32) : FlagState := ⟨numberValues value, 0, 0, []⟩

section
variable {rt : Runtime} (hrt : rt.DecodesUtf8)
include hrt

/-- A number that is written is read again. -/
theorem valuesNumber_numberValues (value : BitVec 32) :
    valuesNumber rt (numberValues value) = value := by
  have hint : toInt (number value.toInt) = value.toInt :=
    toInteger_number (BitVec.le_toInt value) (BitVec.toInt_lt)
  simp only [valuesNumber, numberValues, List.map_cons, List.map_nil, List.headD_cons, hrt _,
    String.toList_ofList, hint, BitVec.ofInt_toInt]

theorem valueToList_number (value : BitVec 32) :
    valueToList (toUtf8 (String.ofList (number value.toInt))) = numberValues value := by
  rw [valueToList, numberValues, if_neg]
  rw [List.isEmpty_iff]
  refine toUtf8_ne_nil hrt fun h => ?_
  have hempty : number value.toInt = [] := String.ofList_injective (h.trans rfl)
  rw [number] at hempty
  split_ifs at hempty
  exact Nat.toDigits_ne_nil hempty

end

theorem AdObject.getInt_eq (object : AdObject) (rt : Runtime) (attr : String) :
    object.getInt rt attr = valuesNumber rt (object.getValues attr) := by
  rw [AdObject.getInt, AdObject.getInts, AdObject.getStrings, List.map_map]
  rfl

/-- What a read gives of a number. -/
def ReadOutcome.given (outcome : ReadOutcome) (value : BitVec 32) : BitVec 32 :=
  if outcome = .value then value else 0

section
variable {rt : Runtime} {attr dn : String} {outcomes : RequestOutcomes} {s : FlagState}

/-- A read gives the values that are stored, or none. -/
theorem getValues_flagLdap :
    (adSearchObject (flagLdap attr outcomes) s dn [attr] false).2.getValues attr =
      if outcomes.read s.reads = .value then s.stored else [] := by
  rw [adSearchObject, adSearch, flagLdap]
  cases houtcome : outcomes.read s.reads <;>
    simp [houtcome, searchResults, searchResultsFrom, AdObject.getValues, AdObject.empty,
      QHash.insert, QHash.value]

theorem getInt_flagLdap :
    (adSearchObject (flagLdap attr outcomes) s dn [attr] false).2.getInt rt attr =
      (outcomes.read s.reads).given (valuesNumber rt s.stored) := by
  rw [AdObject.getInt_eq, getValues_flagLdap, ReadOutcome.given]
  split_ifs <;> rfl

theorem searchObject_flagLdap :
    (adSearchObject (flagLdap attr outcomes) s dn [attr] false).1 =
      ⟨s.stored, s.reads + 1, s.writes, s.events ++ [.read (outcomes.read s.reads)]⟩ := rfl

/-- A number is written after a read of the old values. -/
theorem attributeReplaceInt_flagLdap (hrt : rt.DecodesUtf8) (value : BitVec 32) :
    (attributeReplaceInt (flagLdap attr outcomes) s dn attr value).1 =
      ⟨if outcomes.accepts s.writes then numberValues value else s.stored, s.reads + 1,
        s.writes + 1,
        s.events ++ [.read (outcomes.read s.reads), .write s.stored (numberValues value)]⟩ := by
  rw [attributeReplaceInt, attributeReplaceString, attributeReplaceValue,
    valueToList_number hrt, attributeReplaceValues]
  simp [numberValues, adSearchObject, adSearch, flagLdap]

/-- The number is read, changed and written. -/
def FlagState.changed (s : FlagState) (rt : Runtime) (outcomes : RequestOutcomes)
    (change : BitVec 32 → BitVec 32) : FlagState :=
  let written := numberValues (change ((outcomes.read s.reads).given (valuesNumber rt s.stored)))
  ⟨if outcomes.accepts s.writes then written else s.stored, s.reads + 2, s.writes + 1,
    s.events ++ [.read (outcomes.read s.reads), .read (outcomes.read (s.reads + 1)),
      .write s.stored written]⟩

theorem changed_eq (hrt : rt.DecodesUtf8) (change : BitVec 32 → BitVec 32) :
    (attributeReplaceInt (flagLdap attr outcomes)
        (adSearchObject (flagLdap attr outcomes) s dn [attr] false).1 dn attr
        (change ((adSearchObject (flagLdap attr outcomes) s dn [attr] false).2.getInt rt
          attr))).1 = s.changed rt outcomes change := by
  rw [attributeReplaceInt_flagLdap hrt, searchObject_flagLdap, getInt_flagLdap,
    FlagState.changed, List.append_assoc]
  rfl

end

/-! ## Keeping the other flags -/

/-- Each write comes after two reads, of which the first gives the values: it is the one that
    the number is taken from, while the second is for `attribute_replace_values`. -/
def WritesWhatIsRead : List FlagEvent → Prop
  | [] => True
  | .read outcome :: .read _ :: .write _ _ :: events =>
    outcome = .value ∧ WritesWhatIsRead events
  | .read _ :: events => WritesWhatIsRead events
  | .write _ _ :: _ => False

/-- The number has changed in no bit outside a mask, and nothing has been written where it
    could not be read. -/
structure FlagsKept (rt : Runtime) (mask value : BitVec 32) (s : FlagState) : Prop where
  others : valuesNumber rt s.stored &&& ~~~mask = value &&& ~~~mask
  readFirst : WritesWhatIsRead s.events

/-- No write has changed the scope directly from global to domain local, or back. -/
def NoDirectChange (rt : Runtime) (events : List FlagEvent) : Prop :=
  ∀ before written, .write before written ∈ events →
    ¬Opposite (groupScopeOf (valuesNumber rt before)) (groupScopeOf (valuesNumber rt written))

section
variable {rt : Runtime} {events : List FlagEvent}

@[simp] theorem noDirectChange_nil : NoDirectChange rt [] := fun _ _ h => nomatch h

@[simp] theorem noDirectChange_read {outcome : ReadOutcome} :
    NoDirectChange rt (.read outcome :: events) ↔ NoDirectChange rt events := by
  simp only [NoDirectChange, List.mem_cons, reduceCtorEq, false_or]

@[simp] theorem noDirectChange_write {before written : List QByteArray} :
    NoDirectChange rt (.write before written :: events) ↔
      ¬Opposite (groupScopeOf (valuesNumber rt before)) (groupScopeOf (valuesNumber rt written)) ∧
        NoDirectChange rt events := by
  simp only [NoDirectChange, List.mem_cons, FlagEvent.write.injEq, or_imp, forall_and]
  refine and_congr_left fun _ => ⟨fun h => h _ _ ⟨rfl, rfl⟩, ?_⟩
  rintro h before' written' ⟨rfl, rfl⟩
  exact h

end

/-- The bits of the scopes. -/
def groupScopeMask : BitVec 32 :=
  groupScopeBit .global ||| groupScopeBit .domainLocal ||| groupScopeBit .universal

theorem bitmaskSet_and_not {w : ℕ} (value mask : BitVec w) (isSet : Bool) :
    bitmaskSet value mask isSet &&& ~~~mask = value &&& ~~~mask := by
  refine BitVec.eq_of_getLsbD_eq fun i hi => ?_
  cases isSet <;> cases hm : mask.getLsbD i <;>
    simp only [bitmaskSet, if_true, Bool.false_eq_true, if_false, BitVec.getLsbD_and,
      BitVec.getLsbD_or, BitVec.getLsbD_not, hi, hm] <;> simp

theorem bitmaskIsSet_twoPow {value : BitVec 32} {i : ℕ} (hi : i < 32) :
    bitmaskIsSet value (BitVec.twoPow 32 i) = value.getLsbD i := by
  rw [bitmaskIsSet, BitVec.and_twoPow]
  cases value.getLsbD i with
  | true => simp
  | false =>
    rw [if_neg Bool.false_ne_true, decide_eq_false_iff_not]
    intro h
    have hbit := congrArg (BitVec.getLsbD · i) h
    simp [hi] at hbit

theorem groupScopeBit_eq (scope : GroupScope) : groupScopeBit scope =
    BitVec.twoPow 32 (match scope with | .global => 1 | .domainLocal => 2 | .universal => 3) := by
  cases scope <;> rfl

/-- A scope that is set is the scope of the group. -/
theorem groupScopeOf_withScope (value : BitVec 32) (scope : GroupScope) :
    groupScopeOf (withScope value scope) = scope := by
  cases scope <;>
    simp [groupScopeOf, groupScopes, withScope, groupScopeBit_eq, bitmaskIsSet_twoPow, bitmaskSet,
      List.find?]

/-- Setting a scope changes the bits of the scopes only. -/
theorem withScope_and_not (value : BitVec 32) (scope : GroupScope) :
    withScope value scope &&& ~~~groupScopeMask = value &&& ~~~groupScopeMask := by
  refine BitVec.eq_of_getLsbD_eq fun i hi => ?_
  cases scope <;>
    simp only [withScope, groupScopes, groupScopeMask, groupScopeBit_eq, bitmaskSet, List.foldl,
      BitVec.getLsbD_and, BitVec.getLsbD_or, BitVec.getLsbD_not, BitVec.getLsbD_twoPow, hi] <;>
    grind

section
variable {g : Globals} {ndr : Ndr} {outcomes : RequestOutcomes} {value : BitVec 32} {dn : String}

/-- A number that is changed within a mask keeps the other bits if it is read. -/
theorem flagsKept_changed_iff {rt : Runtime} (hrt : rt.DecodesUtf8) {mask : BitVec 32}
    {change : BitVec 32 → BitVec 32}
    (hchange : ∀ value, change value &&& ~~~mask = value &&& ~~~mask) :
    FlagsKept rt mask value ((FlagState.init value).changed rt outcomes change) ↔
      outcomes.read 0 = .value := by
  constructor
  · intro h
    exact h.readFirst.1
  · intro hread
    have hgiven : (outcomes.read 0).given (valuesNumber rt (numberValues value)) = value := by
      rw [hread, valuesNumber_numberValues hrt]
      rfl
    refine ⟨?_, hread, trivial⟩
    simp only [FlagState.changed, FlagState.init, hgiven]
    split_ifs <;> rw [valuesNumber_numberValues hrt]
    exact hchange value

theorem userSetAccountOption_keeps_iff (hrt : g.rt.DecodesUtf8) {option : AccountOption}
    (hbit : option.IsBit) {set : Bool} :
    (∃ s success, userSetAccountOption g (flagLdap attributeUserAccountControl outcomes) ndr
        (.init value) dn option set = .ok (s, success) ∧
      FlagsKept g.rt (accountOptionBit option) value s) ↔
      (dn ≠ "" → outcomes.read 0 = .value) := by
  by_cases hdn : dn = ""
  · have hkept : FlagsKept g.rt (accountOptionBit option) value (.init value) :=
      ⟨by rw [FlagState.init, valuesNumber_numberValues hrt], trivial⟩
    exact iff_of_true ⟨.init value, false, if_pos hdn, hkept⟩ (absurd hdn)
  · have hrun := userSetAccountOption_of_isBit g (flagLdap attributeUserAccountControl outcomes)
      ndr (.init value) hdn hbit set
    have hchanged := @changed_eq g.rt attributeUserAccountControl dn outcomes (.init value) hrt
      fun uac => bitmaskSet uac (accountOptionBit option) set
    have hkept := @flagsKept_changed_iff outcomes value g.rt hrt (accountOptionBit option) _
      fun uac => bitmaskSet_and_not uac (accountOptionBit option) set
    rw [imp_iff_right hdn, ← hkept, ← hchanged, hrun]
    constructor
    · rintro ⟨s, success, hs, hkept⟩
      rw [congrArg Prod.fst (Except.ok.inj hs)]
      exact hkept
    · intro hkept
      exact ⟨_, _, rfl, hkept⟩

theorem groupSetType_keeps_iff (hrt : g.rt.DecodesUtf8) {type : GroupType} :
    FlagsKept g.rt groupTypeBitSecurity value
        (groupSetType g (flagLdap attributeGroupType outcomes) (.init value) dn type).1 ↔
      outcomes.read 0 = .value := by
  have hchanged := @changed_eq g.rt attributeGroupType dn outcomes (.init value) hrt
    fun groupType => bitmaskSet groupType groupTypeBitSecurity (type = .security)
  rw [groupSetType_eq, hchanged]
  exact flagsKept_changed_iff hrt fun groupType =>
    bitmaskSet_and_not groupType groupTypeBitSecurity (type = .security)

/-- The read of `is_universal_scope_needed`. -/
def FlagState.readScope (s : FlagState) (outcomes : RequestOutcomes) : FlagState :=
  ⟨s.stored, s.reads + 1, s.writes, s.events ++ [.read (outcomes.read s.reads)]⟩

theorem isUniversalScopeNeeded_flagLdap (s : FlagState) (scope : GroupScope) :
    isUniversalScopeNeeded g (flagLdap attributeGroupType outcomes) s dn scope =
      (s.readScope outcomes, decide (Opposite
        (groupScopeOf ((outcomes.read s.reads).given (valuesNumber g.rt s.stored))) scope)) := by
  rw [← @getInt_flagLdap g.rt attributeGroupType dn outcomes s]
  rfl

theorem groupSetScopeBody_flagLdap (hrt : g.rt.DecodesUtf8)
    (call : FlagState → GroupScope → FlagState × Bool) (s : FlagState) (scope : GroupScope) :
    (groupSetScopeBody g (flagLdap attributeGroupType outcomes) call s dn scope).1 =
      (if Opposite (groupScopeOf ((outcomes.read s.reads).given (valuesNumber g.rt s.stored)))
          scope then (call (s.readScope outcomes) .universal).1
        else s.readScope outcomes).changed g.rt outcomes fun groupType =>
          withScope groupType scope := by
  rw [← changed_eq hrt, groupSetScopeBody, isUniversalScopeNeeded_flagLdap]
  simp only [decide_eq_true_eq]
  rfl

/-- The requests of `group_set_scope`, once it is known whether universal comes first. -/
def FlagState.scopeSet (value : BitVec 32) (rt : Runtime) (outcomes : RequestOutcomes)
    (scope : GroupScope) : FlagState :=
  let s := (FlagState.init value).readScope outcomes
  let s := if Opposite (groupScopeOf ((outcomes.read 0).given value)) scope then
    (s.readScope outcomes).changed rt outcomes fun groupType => withScope groupType .universal
    else s
  s.changed rt outcomes fun groupType => withScope groupType scope

theorem groupSetScope_flagLdap (hrt : g.rt.DecodesUtf8) (scope : GroupScope) :
    (groupSetScope g (flagLdap attributeGroupType outcomes) (.init value) dn scope).1 =
      .scopeSet value g.rt outcomes scope := by
  rw [groupSetScope, groupSetScopeBody_flagLdap hrt, groupSetScopeBody_flagLdap hrt,
    if_neg not_opposite_universal]
  simp only [FlagState.init, valuesNumber_numberValues hrt]
  rfl

/-- When a scope is set, the number is read before each write, and universal comes first if
    it has to. -/
def ScopeReads (value : BitVec 32) (outcomes : RequestOutcomes) (scope : GroupScope) : Prop :=
  -- a scope that cannot be read counts as global
  let isNeeded := Opposite (groupScopeOf ((outcomes.read 0).given value)) scope
  if isNeeded then
    outcomes.read 2 = .value ∧ outcomes.read 4 = .value ∧
      (Opposite (groupScopeOf value) scope → outcomes.accepts 0 = true)
  else outcomes.read 1 = .value ∧ ¬Opposite (groupScopeOf value) scope

instance {value : BitVec 32} {outcomes : RequestOutcomes} {scope : GroupScope} :
    Decidable (ScopeReads value outcomes scope) :=
  inferInstanceAs (Decidable (ite _ _ _))

/-- The number after a change that may be refused. -/
def changedNumber (change : BitVec 32 → BitVec 32) (outcome : ReadOutcome) (accepted : Bool)
    (value : BitVec 32) : BitVec 32 :=
  if accepted then change (outcome.given value) else value

theorem changed_of_stored {rt : Runtime} (hrt : rt.DecodesUtf8)
    (change : BitVec 32 → BitVec 32) (reads writes : ℕ) (events : List FlagEvent) :
    FlagState.changed ⟨numberValues value, reads, writes, events⟩ rt outcomes change =
      ⟨numberValues (changedNumber change (outcomes.read reads) (outcomes.accepts writes) value),
        reads + 2, writes + 1,
        events ++ [.read (outcomes.read reads), .read (outcomes.read (reads + 1)),
          .write (numberValues value)
            (numberValues (change ((outcomes.read reads).given value)))]⟩ := by
  simp only [FlagState.changed, changedNumber, valuesNumber_numberValues hrt,
    apply_ite numberValues]

/-- A change of scope keeps the other bits if it is made to the number that is read. -/
theorem changedNumber_withScope (scope : GroupScope) {outcome : ReadOutcome}
    (hread : outcome = .value) (accepted : Bool) (value : BitVec 32) :
    changedNumber (fun groupType => withScope groupType scope) outcome accepted value &&&
        ~~~groupScopeMask = value &&& ~~~groupScopeMask := by
  rw [hread, changedNumber, ReadOutcome.given, if_pos rfl]
  split_ifs
  · exact withScope_and_not value scope
  · rfl

/-- After a change to universal, the next one is direct only if it has been refused. -/
theorem opposite_changedNumber_universal (outcome : ReadOutcome) {accepted : Bool}
    {scope : GroupScope} :
    ¬Opposite (groupScopeOf (changedNumber (fun groupType => withScope groupType .universal)
        outcome accepted value)) scope ↔
      (Opposite (groupScopeOf value) scope → accepted = true) := by
  cases accepted with
  | true =>
    rw [changedNumber, if_pos rfl, groupScopeOf_withScope]
    refine iff_of_true ?_ fun _ => rfl
    rintro (⟨h, -⟩ | ⟨h, -⟩) <;> exact nomatch h
  | false =>
    rw [changedNumber, if_neg Bool.false_ne_true]
    exact ⟨fun h ho => absurd ho h, fun h ho => Bool.false_ne_true (h ho)⟩

theorem scopeSet_keeps_iff {rt : Runtime} (hrt : rt.DecodesUtf8) (scope : GroupScope) :
    FlagsKept rt groupScopeMask value (.scopeSet value rt outcomes scope) ∧
        NoDirectChange rt (FlagState.scopeSet value rt outcomes scope).events ↔
      ScopeReads value outcomes scope := by
  have hvalue := valuesNumber_numberValues hrt
  rw [ScopeReads]
  by_cases hneeded : Opposite (groupScopeOf ((outcomes.read 0).given value)) scope
  · simp only [FlagState.scopeSet, if_pos hneeded, FlagState.init, FlagState.readScope,
      changed_of_stored hrt]
    rw [← opposite_changedNumber_universal (outcomes.read 2)]
    constructor
    · rintro ⟨hkept, hdirect⟩
      refine ⟨hkept.readFirst.1, hkept.readFirst.2.1, ?_⟩
      simp only [List.nil_append, List.cons_append, noDirectChange_read, noDirectChange_write,
        hvalue, groupScopeOf_withScope] at hdirect
      exact hdirect.2.1
    · rintro ⟨hfirst, hsecond, hdirect⟩
      refine ⟨⟨?_, hfirst, hsecond, trivial⟩, ?_⟩
      · rw [hvalue, changedNumber_withScope scope hsecond,
          changedNumber_withScope .universal hfirst]
      · simpa [hvalue, groupScopeOf_withScope, not_opposite_universal] using hdirect
  · simp only [FlagState.scopeSet, if_neg hneeded, FlagState.init, FlagState.readScope,
      changed_of_stored hrt]
    constructor
    · rintro ⟨hkept, hdirect⟩
      refine ⟨hkept.readFirst.1, ?_⟩
      simp only [List.nil_append, List.cons_append, noDirectChange_read,
        noDirectChange_write, hvalue, groupScopeOf_withScope] at hdirect
      exact hdirect.1
    · rintro ⟨hread, hdirect⟩
      refine ⟨⟨?_, hread, trivial⟩, ?_⟩
      · rw [hvalue, changedNumber_withScope scope hread]
      · simpa [hvalue, groupScopeOf_withScope] using hdirect

end

/-- Setting an option that is a bit, the type or the scope of a group keeps the other flags,
    writes nothing where the number could not be read, and makes no direct change of scope,
    exactly when the number is read before each write, and a group becomes universal first
    if it has to. -/
theorem flagsKept_iff (g : Globals) (ndr : Ndr) (outcomes : RequestOutcomes) (value : BitVec 32)
    (dn : String) (option : AccountOption) (set : Bool) (type : GroupType) (scope : GroupScope)
    (hrt : g.rt.DecodesUtf8) (hbit : option.IsBit) :
    ((∃ s success, userSetAccountOption g (flagLdap attributeUserAccountControl outcomes) ndr
        (.init value) dn option set = .ok (s, success) ∧
      FlagsKept g.rt (accountOptionBit option) value s) ↔
      (dn ≠ "" → outcomes.read 0 = .value)) ∧
    (FlagsKept g.rt groupTypeBitSecurity value
        (groupSetType g (flagLdap attributeGroupType outcomes) (.init value) dn type).1 ↔
      outcomes.read 0 = .value) ∧
    (FlagsKept g.rt groupScopeMask value
        (groupSetScope g (flagLdap attributeGroupType outcomes) (.init value) dn scope).1 ∧
      NoDirectChange g.rt
        (groupSetScope g (flagLdap attributeGroupType outcomes) (.init value) dn scope).1.events ↔
      ScopeReads value outcomes scope) := by
  refine ⟨userSetAccountOption_keeps_iff hrt hbit, groupSetType_keeps_iff hrt, ?_⟩
  rw [groupSetScope_flagLdap hrt]
  exact scopeSet_keeps_iff hrt scope

/-- Every read gives the values, but for one, and every write is accepted, but for one. -/
def outcomesBut (failedRead refusedWrite : Option ℕ) : RequestOutcomes where
  read n := if failedRead = some n then .failure else .value
  accepts n := refusedWrite ≠ some n

theorem flagsKept_iff_disabled :
    (∃ s success, userSetAccountOption .empty (flagLdap attributeUserAccountControl
        (outcomesBut none none)) sampleNdr (.init 0x10200) "CN=user" .disabled true =
          .ok (s, success) ∧
      FlagsKept zeroRuntime (accountOptionBit .disabled) 0x10200 s) ∧
    FlagsKept zeroRuntime groupScopeMask 0x80000002
        (groupSetScope .empty (flagLdap attributeGroupType (outcomesBut none none))
          (.init 0x80000002) "CN=group" .domainLocal).1 :=
  ⟨(flagsKept_iff .empty sampleNdr (outcomesBut none none) 0x10200 "CN=user" .disabled true
      .security .global decodesUtf8_zeroRuntime ⟨by decide, by decide⟩).1.2 fun _ => rfl,
    ((flagsKept_iff .empty sampleNdr (outcomesBut none none) 0x80000002 "CN=group" .disabled true
      .security .domainLocal decodesUtf8_zeroRuntime ⟨by decide, by decide⟩).2.2.2 (by decide)).1⟩

/-- An account that cannot be read loses its other options when it is disabled; and a global
    group becomes domain local directly when the change to universal is refused. -/
theorem not_flagsKept :
    (¬∃ s success, userSetAccountOption .empty (flagLdap attributeUserAccountControl
        (outcomesBut (some 0) none)) sampleNdr (.init 0x10200) "CN=user" .disabled true =
          .ok (s, success) ∧
      FlagsKept zeroRuntime (accountOptionBit .disabled) 0x10200 s) ∧
    ¬(FlagsKept zeroRuntime groupScopeMask 0x80000002
        (groupSetScope .empty (flagLdap attributeGroupType (outcomesBut none (some 0)))
          (.init 0x80000002) "CN=group" .domainLocal).1 ∧
      NoDirectChange zeroRuntime
        (groupSetScope .empty (flagLdap attributeGroupType (outcomesBut none (some 0)))
          (.init 0x80000002) "CN=group" .domainLocal).1.events) := by
  have hrt : Globals.empty.rt.DecodesUtf8 := decodesUtf8_zeroRuntime
  constructor
  · intro h
    exact absurd ((userSetAccountOption_keeps_iff hrt ⟨by decide, by decide⟩).1 h (by decide))
      (by decide)
  · intro h
    rw [groupSetScope_flagLdap hrt] at h
    exact absurd ((scopeSet_keeps_iff hrt _).1 h) (by decide)

end Admc
