import Admc.Interface.Flags
import Admc.TimeSpan

/-!
# Password settings

One widget edits the password settings of the domain, whose switches are bits of one number,
and those of password settings objects, which have an attribute for each switch.

The check box for storing passwords with reversible encryption stands for the opposite of the
bit of the domain: it is unchecked if the bit is set, and a settings object made from the
settings of the domain says the opposite of them (`not_sameMeaning`). Saving the settings of
the domain undoes the negation, but clears the bits that have no check box
(`pwdProperties_update`).
-/

namespace Admc

/-- `ATTRIBUTE_PWD_PROPERTIES`. -/
def attributePwdProperties : String := "pwdProperties"

/-- `ATTRIBUTE_MS_DS_PASSWORD_COMPLEXITY_ENABLED`. -/
def attributePasswordComplexityEnabled : String := "msDS-PasswordComplexityEnabled"

/-- `ATTRIBUTE_MS_DS_PASSWORD_REVERSIBLE_ENCRYPTION_ENABLED`. -/
def attributePasswordReversibleEncryptionEnabled : String :=
  "msDS-PasswordReversibleEncryptionEnabled"

/-- `ATTRIBUTE_PSO_APPLIES_TO`. -/
def attributePsoAppliesTo : String := "msDS-PSOAppliesTo"

/-- `SAM_MASK_DOMAIN_PASSWORD_COMPLEX`. -/
def samMaskDomainPasswordComplex : BitVec 32 := 1

/-- `SAM_MASK_DOMAIN_PASSWORD_STORE_CLEARTEXT`. -/
def samMaskDomainPasswordStoreCleartext : BitVec 32 := 16

/-- `pso_attributes_to_global_attributes`. -/
def psoAttributesToGlobalAttributes : QHash String String :=
  [("msDS-MinimumPasswordLength", "minPwdLength"),
    ("msDS-PasswordHistoryLength", "pwdHistoryLength"),
    ("msDS-LockoutThreshold", "lockoutThreshold"),
    ("msDS-LockoutDuration", "lockoutDuration"),
    ("msDS-LockoutObservationWindow", "lockOutObservationWindow"),
    ("msDS-MinimumPasswordAge", "minPwdAge"),
    ("msDS-MaximumPasswordAge", "maxPwdAge")]

/-- `PSOEditWidget`: its fields and whether it shows the settings of the domain. -/
structure PSOEditWidget where
  name : String
  precedence : ℤ
  minPasswdLen : ℤ
  historyLength : ℤ
  logonAttempts : ℤ
  lockoutDuration : ℤ
  resetLockout : ℤ
  minAge : ℤ
  maxAge : ℤ
  complexityReq : Bool
  storePasswd : Bool
  dnAppliedList : List String
  isGlobal : Bool

namespace PSOEditWidget

/-- `QSpinBox::setValue`. -/
def spinBoxValue (minimum value maximum : ℤ) : ℤ := max minimum (min value maximum)

/-- `PSOEditWidget::replace_attribute`. -/
def replaceAttribute (attributeName : String) (global : Bool) : String :=
  if !global then attributeName
  else psoAttributesToGlobalAttributes.value attributeName ""

/-! ## Time units -/

/-- `PSOEditWidget::ad_time_units_to_miliseconds`. -/
def adTimeUnitsToMiliseconds (rt : Runtime) (value : QByteArray) : ℤ :=
  (Int.bmod (-toLongLong (rt.fromUtf8 value).toList) (2 ^ 64)).tdiv millisTo100Nanos

/-- `PSOEditWidget::ad_time_units_to_mintes`. -/
def adTimeUnitsToMintes (rt : Runtime) (value : QByteArray) : ℤ :=
  Int.bmod ((adTimeUnitsToMiliseconds rt value).tdiv 60000) (2 ^ 32)

/-- `PSOEditWidget::ad_time_units_to_days`. -/
def adTimeUnitsToDays (rt : Runtime) (value : QByteArray) : ℤ :=
  Int.bmod (((adTimeUnitsToMiliseconds rt value).tdiv 3600000).tdiv 24) (2 ^ 32)

/-- `PSOEditWidget::miliseconds_to_ad_time_units`. -/
def milisecondsToAdTimeUnits (value : ℤ) : QByteArray :=
  toUtf8 (String.ofList (number (-value * millisTo100Nanos)))

/-- `PSOEditWidget::minutes_to_ad_time_units`. -/
def minutesToAdTimeUnits (value : ℤ) : QByteArray := milisecondsToAdTimeUnits (value * 60000)

/-- `PSOEditWidget::days_to_ad_time_units`. -/
def daysToAdTimeUnits (value : ℤ) : QByteArray := milisecondsToAdTimeUnits (value * 86400000)

/-! ## Loading -/

section
variable (rt : Runtime)

/-- `PSOEditWidget::update_fields`. -/
def updateFields (w : PSOEditWidget) (object : AdObject) (global : Bool) : PSOEditWidget :=
  let attr := fun name => replaceAttribute name global
  let int := fun name => (object.getInt rt (attr name)).toInt
  let pwdProperties := object.getInt rt attributePwdProperties
  { w with
    name := object.getString rt (attr "cn")
    precedence := spinBoxValue 1 (int "msDS-PasswordSettingsPrecedence") 99
    minPasswdLen := spinBoxValue 0 (int "msDS-MinimumPasswordLength") 99
    historyLength := spinBoxValue 0 (int "msDS-PasswordHistoryLength") 99
    logonAttempts := spinBoxValue 0 (int "msDS-LockoutThreshold") 99
    lockoutDuration := spinBoxValue 0
      (adTimeUnitsToMintes rt (object.getValue (attr "msDS-LockoutDuration"))) 99
    resetLockout := spinBoxValue 0
      (adTimeUnitsToMintes rt (object.getValue (attr "msDS-LockoutObservationWindow"))) 99
    minAge := spinBoxValue 0
      (adTimeUnitsToDays rt (object.getValue (attr "msDS-MinimumPasswordAge"))) 99
    maxAge := spinBoxValue 0
      (adTimeUnitsToDays rt (object.getValue (attr "msDS-MaximumPasswordAge"))) 99
    complexityReq :=
      if global then pwdProperties &&& samMaskDomainPasswordComplex ≠ 0
      else object.getBool rt attributePasswordComplexityEnabled
    storePasswd :=
      if global then !decide (pwdProperties &&& samMaskDomainPasswordStoreCleartext ≠ 0)
      else object.getBool rt attributePasswordReversibleEncryptionEnabled
    dnAppliedList := object.getStrings rt attributePsoAppliesTo }

/-- The widget that has not been filled. -/
def empty : PSOEditWidget :=
  ⟨"", 1, 0, 0, 0, 0, 0, 0, 0, false, false, [], false⟩

/-- `PSOEditWidget::PSOEditWidget`, for the object with the settings of the domain. -/
def opened (globalPasswordSettings : AdObject) : PSOEditWidget :=
  updateFields rt empty globalPasswordSettings true

/-- `PSOEditWidget::update`. -/
def update (w : PSOEditWidget) (object : AdObject) : PSOEditWidget :=
  let isGlobal := object.attributesData.contains attributePwdProperties
  updateFields rt { w with isGlobal := isGlobal } object isGlobal

end

/-! ## Saving -/

section
variable (w : PSOEditWidget)

/-- The number for the switches of the domain. -/
def pwdProperties : ℤ :=
  w.complexityReq.toInt * samMaskDomainPasswordComplex.toInt +
    (!w.storePasswd).toInt * samMaskDomainPasswordStoreCleartext.toInt

/-- `LDAP_BOOL_TRUE` and `LDAP_BOOL_FALSE`. -/
def ldapBool (value : Bool) : QByteArray := toUtf8 (if value then "TRUE" else "FALSE")

/-- `QByteArray::number`. -/
def numberBytes (value : ℤ) : QByteArray := toUtf8 (String.ofList (number value))

/-- `PSOEditWidget::pso_settings_values`. -/
def psoSettingsValues : QHash String (List QByteArray) :=
  let attr := fun name => replaceAttribute name w.isGlobal
  let settings : QHash String (List QByteArray) := []
  let settings := settings.insert (attr "cn")
    [toUtf8 (String.ofList (trimmed w.name.toList))]
  let settings := settings.insert (attr "msDS-PasswordSettingsPrecedence")
    [numberBytes w.precedence]
  let settings := settings.insert (attr "msDS-MinimumPasswordLength") [numberBytes w.minPasswdLen]
  let settings := settings.insert (attr "msDS-PasswordHistoryLength")
    [numberBytes w.historyLength]
  let settings := settings.insert (attr "msDS-LockoutThreshold") [numberBytes w.logonAttempts]
  let settings := settings.insert (attr "msDS-LockoutDuration")
    [minutesToAdTimeUnits w.lockoutDuration]
  let settings := settings.insert (attr "msDS-LockoutObservationWindow")
    [minutesToAdTimeUnits w.resetLockout]
  let settings := settings.insert (attr "msDS-MinimumPasswordAge") [daysToAdTimeUnits w.minAge]
  let settings := settings.insert (attr "msDS-MaximumPasswordAge") [daysToAdTimeUnits w.maxAge]
  let settings :=
    if w.isGlobal then settings.insert attributePwdProperties [numberBytes w.pwdProperties]
    else
      (settings.insert attributePasswordComplexityEnabled [ldapBool w.complexityReq]).insert
        attributePasswordReversibleEncryptionEnabled [ldapBool w.storePasswd]
  settings.insert attributePsoAppliesTo (w.dnAppliedList.map toUtf8)

/-- `PSOEditWidget::settings_are_default`, for the object with the settings of the domain. -/
def settingsAreDefault (rt : Runtime) (globalPasswordSettings : AdObject) : Bool :=
  let currentValues := w.psoSettingsValues
  let excludedAttrs := ["cn", "msDS-PasswordSettingsPrecedence", attributePsoAppliesTo,
    attributePasswordComplexityEnabled, attributePasswordReversibleEncryptionEnabled]
  let defaults := globalPasswordSettings.attributesData
  let pwdProperties := globalPasswordSettings.getInt rt attributePwdProperties
  currentValues.keys.all (fun attr => excludedAttrs.contains attr ||
      defaults.value (psoAttributesToGlobalAttributes.value attr "") [] =
        currentValues.value attr []) &&
    (decide (pwdProperties &&& samMaskDomainPasswordComplex ≠ 0) =
      ((currentValues.value attributePasswordComplexityEnabled []).headD [] =
        ldapBool true)) &&
    ((!decide (pwdProperties &&& samMaskDomainPasswordStoreCleartext ≠ 0)) =
      ((currentValues.value attributePasswordReversibleEncryptionEnabled []).headD [] =
        ldapBool true))

end

/-! ## What the settings mean -/

/-- Passwords are stored with reversible encryption in the domain. -/
def StoresCleartext (rt : Runtime) (object : AdObject) : Prop :=
  object.getInt rt attributePwdProperties &&& samMaskDomainPasswordStoreCleartext ≠ 0

instance (rt : Runtime) (object : AdObject) : Decidable (StoresCleartext rt object) :=
  inferInstanceAs (Decidable (_ ≠ _))

/-- Passwords have to be complex in the domain. -/
def IsComplex (rt : Runtime) (object : AdObject) : Prop :=
  object.getInt rt attributePwdProperties &&& samMaskDomainPasswordComplex ≠ 0

/-- The settings of the domain, the check box for reversible encryption and the settings object
    that is made from them mean the same, and the other bits survive. -/
structure SameMeaning (rt : Runtime) (object : AdObject) : Prop where
  shown : (opened rt object).storePasswd = true ↔ StoresCleartext rt object
  reversible : (opened rt object).psoSettingsValues.value
    attributePasswordReversibleEncryptionEnabled [] = [ldapBool true] ↔ StoresCleartext rt object
  complexity : (opened rt object).psoSettingsValues.value
    attributePasswordComplexityEnabled [] = [ldapBool true] ↔ IsComplex rt object
  otherBits : ∀ i, i ≠ 0 → i ≠ 4 →
    (BitVec.ofInt 32 (empty.update rt object).pwdProperties).getLsbD i =
      (object.getInt rt attributePwdProperties).getLsbD i

section
variable {rt : Runtime} {object : AdObject} {w : PSOEditWidget}

theorem storePasswd_updateFields : (updateFields rt w object true).storePasswd = true ↔
    ¬StoresCleartext rt object := by
  simp [updateFields, StoresCleartext]

theorem complexityReq_updateFields : (updateFields rt w object true).complexityReq = true ↔
    IsComplex rt object := by
  simp [updateFields, IsComplex]

theorem ldapBool_eq_true {value : Bool} : [ldapBool value] = [ldapBool true] ↔ value = true := by
  cases value with
  | true => exact iff_of_true rfl rfl
  | false => exact iff_of_false (by decide) Bool.false_ne_true

/-- A settings object has an attribute for each switch. -/
theorem value_psoSettingsValues (h : w.isGlobal = false) :
    w.psoSettingsValues.value attributePasswordReversibleEncryptionEnabled [] =
        [ldapBool w.storePasswd] ∧
      w.psoSettingsValues.value attributePasswordComplexityEnabled [] =
        [ldapBool w.complexityReq] := by
  rw [psoSettingsValues]
  simp only [h, Bool.false_eq_true, if_false, QHash.value]
  constructor
  · rw [QHash.lookup_insert, if_neg (by decide), QHash.lookup_insert, if_pos rfl,
      Option.getD_some]
  · rw [QHash.lookup_insert, if_neg (by decide), QHash.lookup_insert, if_neg (by decide),
      QHash.lookup_insert, if_pos rfl, Option.getD_some]

/-- The settings object that is made from the settings of the domain asks for complex passwords
    if they do, and stores passwords with reversible encryption if they do not. -/
theorem psoSettingsValues_opened :
    ((opened rt object).psoSettingsValues.value attributePasswordComplexityEnabled [] =
      [ldapBool true] ↔ IsComplex rt object) ∧
    ((opened rt object).psoSettingsValues.value
      attributePasswordReversibleEncryptionEnabled [] = [ldapBool true] ↔
        ¬StoresCleartext rt object) := by
  have hvalues := @value_psoSettingsValues (opened rt object) rfl
  rw [hvalues.1, hvalues.2, ldapBool_eq_true, ldapBool_eq_true]
  exact ⟨complexityReq_updateFields, storePasswd_updateFields⟩

/-- Of the bits of the domain, those with a check box are saved as they were, and the others
    are cleared. -/
theorem pwdProperties_update
    (h : object.attributesData.contains attributePwdProperties = true) :
    BitVec.ofInt 32 (w.update rt object).pwdProperties =
      object.getInt rt attributePwdProperties &&&
        (samMaskDomainPasswordComplex ||| samMaskDomainPasswordStoreCleartext) := by
  have hbit : ∀ v : BitVec 32, ∀ i < 32, v &&& BitVec.twoPow 32 i = 0 ∨
      v &&& BitVec.twoPow 32 i = BitVec.twoPow 32 i := fun v i hi => by
    rw [BitVec.and_twoPow]
    split_ifs
    · exact .inr rfl
    · exact .inl rfl
  have hcomplex : object.getInt rt attributePwdProperties &&& samMaskDomainPasswordComplex = 0 ∨
      object.getInt rt attributePwdProperties &&& samMaskDomainPasswordComplex =
        samMaskDomainPasswordComplex := hbit _ 0 (by decide)
  have hstore : object.getInt rt attributePwdProperties &&&
        samMaskDomainPasswordStoreCleartext = 0 ∨
      object.getInt rt attributePwdProperties &&& samMaskDomainPasswordStoreCleartext =
        samMaskDomainPasswordStoreCleartext := hbit _ 4 (by decide)
  rw [BitVec.and_or_distrib_left]
  rw [update, updateFields, pwdProperties]
  simp only [h, if_true]
  rcases hcomplex with hcomplex | hcomplex <;> rcases hstore with hstore | hstore <;>
    rw [hcomplex, hstore] <;> decide

end

/-- Whatever the bits of the domain, they are not shown and saved with the same meaning. -/
theorem not_sameMeaning (rt : Runtime) (object : AdObject) : ¬SameMeaning rt object := by
  intro hsame
  have hstore := @storePasswd_updateFields rt object empty
  exact iff_not_self (hsame.shown.symm.trans hstore)

/-- A domain that stores passwords with reversible encryption. -/
theorem not_sameMeaning_cleartext :
    ¬SameMeaning zeroRuntime ⟨"DC=domain", [(attributePwdProperties, [numberBytes 17])]⟩ :=
  fun hsame => absurd (hsame.shown.2 (by decide)) (by decide)

end PSOEditWidget

end Admc
