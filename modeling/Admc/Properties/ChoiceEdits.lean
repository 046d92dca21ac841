import Admc.Properties.TextEdits

/-!
# Edits of choices and times

The edits of the properties dialogs that choose among items or show a time. A load does not
overwrite what they show on all paths: a country that is not among the items leaves the former
one, a time that is invalid leaves the former one as well, and the edits of a group that is
critical for the system are disabled and never enabled again.

* `CountryEdit.loadsWhen_form`, `ExpiryWidget.loadsWhen_form`, `DateTimeEdit.loadsWhen_form` and
  `GroupEdit.loadsWhen_form`: exactly when what is loaded shows, after any history.
-/

namespace Admc

section
variable {σ : Type} (ctx : EditContext σ)

/-! ## Countries -/

namespace CountryManager

variable (countries : CountryManager)

/-- `CountryManager::get_name_map`. -/
def getNameMap : QHash ℤ String :=
  if countries.locale = .russian then countries.countryStringsRu else countries.countryStrings

/-- `CountryManager::get_code`. -/
def getCode (abbreviation : String) : ℤ := countries.abbreviationToCode.value abbreviation 0

/-- `CountryManager::get_country`. -/
def getCountry (code : ℤ) : String := countries.countryStrings.value code ""

/-- `CountryManager::get_abbreviation`. -/
def getAbbreviation (code : ℤ) : String := countries.countryAbbreviations.value code ""

end CountryManager

/-- `COUNTRY_CODE_NONE`. -/
def countryCodeNone : ℤ := 0

/-- `country_combo_init`. -/
def countryComboInit : QComboBox ℤ :=
  let nameMap := ctx.countries.getNameMap
  let localeName := if ctx.countries.currentLocaleFirst then ctx.countries.localeName else "ru_RU"
  let countryRussia :=
    match localeName.toList.splitOn '_' with
    | [_, abbreviation] => nameMap.value (ctx.countries.getCode (.ofList abbreviation)) ""
    | _ => ""
  let countryList := nameMap.values.mergeSort fun country country' =>
    AdConfigPrivate.utf16 country ≤ AdConfigPrivate.utf16 country'
  let countryList := countryRussia :: countryList.filter (· ≠ countryRussia)
  ⟨(ctx.translate "None", countryCodeNone) ::
    countryList.map fun country => (country.toList, nameMap.key country 0), 0⟩

/-- The code that `country_combo_load` looks for. -/
def loadedCountryCode (object : AdObject) : ℤ :=
  if object.attributesData.contains "countryCode" then (object.getInt ctx.g.rt "countryCode").toInt
  else countryCodeNone

/-- `country_combo_load`. -/
def countryComboLoad (object : AdObject) (combo : QComboBox ℤ) : QComboBox ℤ :=
  match combo.findData (loadedCountryCode ctx object) with
  | some index => { combo with currentIndex := index }
  | none => combo

/-- `country_combo_apply`, for the current item: without a country, the texts are empty. -/
def countryComboApply (currentItem : Option (QString × ℤ)) : Applies σ := fun s dn =>
  let code := (currentItem.map Prod.snd).getD 0
  let (s, success) := attributeReplaceString ctx.ldap s dn "countryCode" (.ofList (number code))
  if !success then (s, false)
  else
    let (s, success) :=
      attributeReplaceString ctx.ldap s dn "c" (ctx.countries.getAbbreviation code)
    if !success then (s, false)
    else attributeReplaceString ctx.ldap s dn "co" (ctx.countries.getCountry code)

/-- `CountryEdit`. -/
structure CountryEdit where
  combo : QComboBox ℤ
  enabled : Bool

namespace CountryEdit

variable (enabled : Bool)

/-- `CountryEdit::CountryEdit`. -/
def new : CountryEdit := ⟨countryComboInit ctx, enabled⟩

/-- `CountryEdit::load`. -/
def load (loading : Loading) (d : CountryEdit) : CountryEdit :=
  { d with combo := countryComboLoad ctx loading.object d.combo }

/-- The user chooses an item. -/
def choose (index : ℕ) (d : CountryEdit) : CountryEdit :=
  if index < d.combo.items.length then { d with combo := { d.combo with currentIndex := index } }
  else d

/-- The edit. -/
def form : Form Loading where
  State := CountryEdit
  Edit := ℕ
  View := Option (QString × ℤ) × Bool × Applies σ
  new := new ctx enabled
  load := load ctx
  edit := choose
  view d := (d.combo.currentItem, d.enabled, countryComboApply ctx d.combo.currentItem)

/-- The country of the object is among the items, or no country is chosen. -/
def Overwrites (d : CountryEdit) (loading : Loading) : Prop :=
  (∃ item ∈ (countryComboInit ctx).items, item.2 = loadedCountryCode ctx loading.object) ∨
    d.combo.currentItem = (countryComboInit ctx).currentItem

variable {ctx enabled}

/-- A code that is found is that of an item. -/
theorem exists_of_findData {combo : QComboBox ℤ} {code : ℤ} {index : ℕ}
    (h : combo.findData code = some index) : ∃ item ∈ combo.items, item.2 = code := by
  rw [QComboBox.findData, List.findIdx?_eq_some_iff_getElem] at h
  obtain ⟨hindex, hcode, -⟩ := h
  exact ⟨combo.items[index], List.getElem_mem hindex, of_decide_eq_true hcode⟩

theorem not_exists_of_findData {combo : QComboBox ℤ} {code : ℤ} (h : combo.findData code = none) :
    ¬∃ item ∈ combo.items, item.2 = code := by
  rw [QComboBox.findData, List.findIdx?_eq_none_iff] at h
  rintro ⟨item, hitem, hcode⟩
  exact of_decide_eq_false (h item hitem) hcode

theorem items_countryComboLoad (object : AdObject) (combo : QComboBox ℤ) :
    (countryComboLoad ctx object combo).items = combo.items := by
  rw [countryComboLoad]
  split
  · rfl
  · rfl

theorem items_choose (index : ℕ) (d : CountryEdit) :
    (d.choose index).combo.items = d.combo.items ∧ (d.choose index).enabled = d.enabled := by
  rw [choose]
  split_ifs
  · exact ⟨rfl, rfl⟩
  · exact ⟨rfl, rfl⟩

theorem showsLoaded_iff {d : CountryEdit} {loading : Loading}
    (hitems : d.combo.items = (countryComboInit ctx).items) (henabled : d.enabled = enabled) :
    (form ctx enabled).ShowsLoaded d loading ↔ Overwrites ctx d loading := by
  have hfind : d.combo.findData (loadedCountryCode ctx loading.object) =
      (countryComboInit ctx).findData (loadedCountryCode ctx loading.object) := by
    rw [QComboBox.findData, QComboBox.findData, hitems]
  cases hcode : (countryComboInit ctx).findData (loadedCountryCode ctx loading.object) with
  | some index =>
    -- both edits choose the item of the country
    refine iff_of_true ?_ (.inl (exists_of_findData hcode))
    have hload : d.load ctx loading = (new ctx enabled).load ctx loading := by
      simp only [load, countryComboLoad, new, hfind, hcode, hitems, henabled]
    exact congrArg (form ctx enabled).view hload
  | none =>
    -- neither edit changes what is chosen
    have hload : d.load ctx loading = d := by
      simp only [load, countryComboLoad, hfind, hcode]
    have hnew : (new ctx enabled).load ctx loading = new ctx enabled := by
      simp only [load, countryComboLoad, new, hcode]
    have hview : (form ctx enabled).ShowsLoaded d loading ↔
        d.combo.currentItem = (countryComboInit ctx).currentItem := by
      simp only [Form.ShowsLoaded, form, hload, hnew, Prod.mk.injEq, henabled]
      simp only [new, true_and, and_iff_left_iff_imp]
      exact fun h => congrArg (countryComboApply ctx) h
    exact hview.trans (or_iff_right (not_exists_of_findData hcode)).symm

/-- A load shows the object, unless its country is not among the items. -/
theorem loadsWhen_form : (form ctx enabled).LoadsWhen (Overwrites ctx) :=
  Form.loadsWhen_of_constant (fun d : CountryEdit => (d.combo.items, d.enabled))
    (fun loading d => congrArg (·, _) (items_countryComboLoad loading.object d.combo))
    (fun index d => Prod.ext (items_choose index d).1 (items_choose index d).2)
    fun _ hd _ => showsLoaded_iff (Prod.mk.inj hd).1 (Prod.mk.inj hd).2

end CountryEdit

/-! ## Dates -/

/-- `AdObject::get_datetime`. -/
def AdObject.getDatetime (object : AdObject) (rt : Runtime) (adconfig : AttributeSchemas)
    (attr : String) : Option ℤ :=
  datetimeStringToQdatetime rt (some adconfig) attr (object.getString rt attr).toList

/-- `AdInterface::attribute_replace_datetime`. -/
def attributeReplaceDatetime (attr : String) (datetime : ℤ) : Applies σ := fun s dn =>
  let datetimeString :=
    datetimeQdatetimeToString ctx.g.rt (some ctx.adconfig.attributeSchemas) attr datetime
  attributeReplaceString ctx.ldap s dn attr (.ofList datetimeString)

/-- `AD_LARGE_INTEGER_DATETIME_NEVER_2`. -/
def largeIntegerDatetimeNever : String := "9223372036854775807"

/-- `large_integer_datetime_is_never`. -/
def largeIntegerDatetimeIsNever (value : String) : Bool :=
  value = "0" || value = largeIntegerDatetimeNever

/-- The milliseconds of a day. -/
def dayMsecs : ℤ := 86400000

/-- The day that a `QDateEdit` shows at first. -/
def initialDate : ℤ := editInitial.instant / dayMsecs

/-- A date in the range of a `QDateEdit`. -/
def boundDate (date : ℤ) : ℤ :=
  max (editMinimum.instant / dayMsecs) (min (editMaximum.instant / dayMsecs) date)

/-- The radio buttons of `ExpiryWidget`, of which one is checked at most. -/
inductive ExpiryCheck
  | never
  | endOf
  deriving DecidableEq

/-- `ExpiryWidget`, with the date in days. -/
structure ExpiryWidget where
  checked : Option ExpiryCheck
  dateEnabled : Bool
  dateEdit : ℤ
  enabled : Bool

namespace ExpiryWidget

variable (enabled : Bool)

/-- `ExpiryWidget::ExpiryWidget`. -/
def new : ExpiryWidget := ⟨none, true, initialDate, enabled⟩

/-- A radio button is checked, with `ExpiryWidget::on_never_check` and `on_end_of_check`. The
    other one is not checked any more; that of a group cannot be made so otherwise. -/
def setChecked (check : ExpiryCheck) (d : ExpiryWidget) : ExpiryWidget :=
  if d.checked = some check then d
  else { d with checked := some check, dateEnabled := check = .endOf }

/-- `QDateEdit::setDate`: an invalid date changes nothing. -/
def setDate (date : Option ℤ) (d : ExpiryWidget) : ExpiryWidget :=
  match date with
  | some date => { d with dateEdit := boundDate date }
  | none => d

/-- The expiry is never. -/
def loadedNever (object : AdObject) : Bool :=
  largeIntegerDatetimeIsNever (object.getString ctx.g.rt "accountExpires")

/-- The date of the expiry, if it is valid. -/
def loadedDate (object : AdObject) : Option ℤ :=
  (object.getDatetime ctx.g.rt ctx.adconfig.attributeSchemas "accountExpires").map (· / dayMsecs)

/-- `ExpiryWidget::load`. -/
def load (loading : Loading) (d : ExpiryWidget) : ExpiryWidget :=
  let never := loadedNever ctx loading.object
  let d := d.setChecked (if never then .never else .endOf)
  let d := { d with dateEnabled := !never }
  d.setDate (if never then some loading.today else loadedDate ctx loading.object)

/-- `ExpiryWidget::apply`. -/
def apply (d : ExpiryWidget) : Applies σ :=
  if d.checked = some .never then fun s dn =>
    attributeReplaceString ctx.ldap s dn "accountExpires" largeIntegerDatetimeNever
  else
    -- at the end of the day, which is 23:59
    attributeReplaceDatetime ctx "accountExpires" (d.dateEdit * dayMsecs + 86340000)

/-- What the user does: a radio button is clicked, or another date chosen. -/
inductive Edit
  | check (check : ExpiryCheck)
  | date (date : ℤ)

/-- An edit by the user. -/
def edit : Edit → ExpiryWidget → ExpiryWidget
  | .check check, d => d.setChecked check
  | .date date, d => if d.dateEnabled then d.setDate (some date) else d

/-- `ExpiryEdit`. -/
def form : Form Loading where
  State := ExpiryWidget
  Edit := Edit
  View := Option ExpiryCheck × Bool × ℤ × Bool × Applies σ
  new := new enabled
  load := load ctx
  edit := edit
  view d := (d.checked, d.dateEnabled, d.dateEdit, d.enabled, d.apply ctx)

/-- There is a date to be shown, or the edit shows the first one. -/
def Overwrites (d : ExpiryWidget) (loading : Loading) : Prop :=
  loadedNever ctx loading.object = true ∨ (loadedDate ctx loading.object).isSome = true ∨
    d.dateEdit = initialDate

variable {ctx enabled}

theorem enabled_setChecked (check : ExpiryCheck) (d : ExpiryWidget) :
    (d.setChecked check).enabled = d.enabled ∧ (d.setChecked check).dateEdit = d.dateEdit ∧
      (d.setChecked check).checked = some check := by
  rw [setChecked]
  split_ifs with h
  · exact ⟨rfl, rfl, h⟩
  · exact ⟨rfl, rfl, rfl⟩

theorem enabled_setDate (date : Option ℤ) (d : ExpiryWidget) :
    (d.setDate date).enabled = d.enabled := by
  cases date <;> rfl

theorem enabled_edit (e : Edit) (d : ExpiryWidget) : (d.edit e).enabled = d.enabled := by
  cases e with
  | check check => exact (enabled_setChecked check d).1
  | date date =>
    rw [edit]
    split_ifs
    · exact enabled_setDate _ d
    · rfl

/-- What a load leaves of the edit: the date, if there is none to be shown. -/
theorem load_eq (loading : Loading) (d : ExpiryWidget) :
    d.load ctx loading =
      setDate (if loadedNever ctx loading.object then some loading.today
          else loadedDate ctx loading.object)
        ⟨some (if loadedNever ctx loading.object then .never else .endOf),
          !loadedNever ctx loading.object, d.dateEdit, d.enabled⟩ := by
  obtain ⟨henabled, hdate, hchecked⟩ :=
    enabled_setChecked (if loadedNever ctx loading.object then .never else .endOf) d
  rw [load, ← henabled, ← hdate, ← hchecked]

theorem showsLoaded_iff {d : ExpiryWidget} {loading : Loading} (henabled : d.enabled = enabled) :
    (form ctx enabled).ShowsLoaded d loading ↔ Overwrites ctx d loading := by
  have hload := @load_eq _ ctx loading d
  have hnew := @load_eq _ ctx loading (new enabled)
  rw [henabled] at hload
  cases hdate : if loadedNever ctx loading.object then some loading.today
      else loadedDate ctx loading.object with
  | some date =>
    rw [hdate] at hload hnew
    -- both edits show the date
    refine iff_of_true (congrArg (form ctx enabled).view (hload.trans hnew.symm)) ?_
    cases hnever : loadedNever ctx loading.object with
    | true => exact .inl hnever
    | false =>
      rw [hnever, if_neg Bool.false_ne_true] at hdate
      exact .inr (.inl (Option.isSome_iff_exists.2 ⟨date, hdate⟩))
  | none =>
    -- the date stays, which is that of a new edit at first
    have hnever : loadedNever ctx loading.object = false := by
      by_contra h
      rw [Bool.not_eq_false] at h
      rw [h, if_pos rfl] at hdate
      exact nomatch hdate
    rw [hdate] at hload hnew
    rw [hnever, if_neg Bool.false_ne_true] at hdate
    have hview : (form ctx enabled).ShowsLoaded d loading ↔ d.dateEdit = initialDate := by
      simp only [Form.ShowsLoaded, form, hload, hnew, setDate, Prod.mk.injEq, true_and]
      refine and_iff_left_of_imp fun h => ⟨rfl, ?_⟩
      rw [h]
      rfl
    simp only [hview, Overwrites, hnever, hdate, Option.isSome_none, Bool.false_eq_true, false_or]

/-- A load shows the object, unless its expiry is no valid date. -/
theorem loadsWhen_form : (form ctx enabled).LoadsWhen (Overwrites ctx) := by
  refine Form.loadsWhen_of_constant (fun d : ExpiryWidget => d.enabled) (fun loading d => ?_)
    (fun e d => ?_) fun _ hd _ => showsLoaded_iff hd
  · exact (congrArg ExpiryWidget.enabled (load_eq loading d)).trans (enabled_setDate _ _)
  · exact enabled_edit e d

end ExpiryWidget

/-! ## Times -/

namespace DateTimeEdit

variable (attr : String)

/-- `DateTimeEdit::load`, and `LAPSExpiryEdit::load`. -/
def load (loading : Loading) (edit : QDateTimeEdit) : QDateTimeEdit :=
  edit.setDateTime (loading.object.getDatetime ctx.g.rt ctx.adconfig.attributeSchemas attr)

/-- `DateTimeEdit::apply`, and `LAPSExpiryEdit::apply`. -/
def apply (edit : QDateTimeEdit) : Applies σ := attributeReplaceDatetime ctx attr edit.dateTime

/-- `DateTimeEdit`, and `LAPSExpiryEdit`: the user sets times, that of the day among them. -/
def form : Form Loading where
  State := QDateTimeEdit
  Edit := ℤ
  View := ℤ × Applies σ
  new := .new ctx.zone
  load := load ctx attr
  edit datetime d := d.setDateTime (some datetime)
  view d := (d.dateTime, apply ctx attr d)

/-- There is a time to be shown, or the edit shows the first one. -/
def Overwrites (d : QDateTimeEdit) (loading : Loading) : Prop :=
  (loading.object.getDatetime ctx.g.rt ctx.adconfig.attributeSchemas attr).isSome = true ∨
    d.dateTime = (QDateTimeEdit.new ctx.zone).dateTime

variable {ctx attr}

theorem range_setDateTime (datetime : Option ℤ) (d : QDateTimeEdit) :
    (d.setDateTime datetime).minimum = d.minimum ∧
      (d.setDateTime datetime).maximum = d.maximum := by
  cases datetime <;> exact ⟨rfl, rfl⟩

theorem view_eq_iff {d d' : QDateTimeEdit} :
    (form ctx attr).view d = (form ctx attr).view d' ↔ d.dateTime = d'.dateTime := by
  simp only [form, Prod.mk.injEq]
  exact and_iff_left_of_imp fun h => congrArg (attributeReplaceDatetime ctx attr) h

theorem showsLoaded_iff {d : QDateTimeEdit} {loading : Loading}
    (hmin : d.minimum = (QDateTimeEdit.new ctx.zone).minimum)
    (hmax : d.maximum = (QDateTimeEdit.new ctx.zone).maximum) :
    (form ctx attr).ShowsLoaded d loading ↔ Overwrites ctx attr d loading := by
  refine view_eq_iff.trans ?_
  change (load ctx attr loading d).dateTime = (load ctx attr loading (.new ctx.zone)).dateTime ↔ _
  rw [Overwrites, load, load]
  cases loading.object.getDatetime ctx.g.rt ctx.adconfig.attributeSchemas attr with
  | some datetime =>
    refine iff_of_true ?_ (.inl rfl)
    -- the time is put into the range, which is always the same
    change max d.minimum (min d.maximum datetime) = _
    rw [hmin, hmax]
    rfl
  | none => exact (or_iff_right Bool.false_ne_true).symm

/-- A load shows the object, unless its time is invalid. -/
theorem loadsWhen_form : (form ctx attr).LoadsWhen (Overwrites ctx attr) :=
  Form.loadsWhen_of_constant (fun d : QDateTimeEdit => (d.minimum, d.maximum))
    (fun _ d => Prod.ext (range_setDateTime _ d).1 (range_setDateTime _ d).2) (fun _ _ => rfl)
    fun _ hd _ => showsLoaded_iff (Prod.mk.inj hd).1 (Prod.mk.inj hd).2

end DateTimeEdit

/-! ## Groups -/

/-- The combo box of `GroupScopeEdit` or of `GroupTypeEdit`, with the value that is chosen. -/
structure GroupEdit (α : Type) where
  current : α
  enabled : Bool

namespace GroupEdit

variable {α : Type} (getValue : AdObject → α) (setValue : α → Applies σ) (first : α)

/-- The group is critical for the system. -/
def isCriticalSystemObject (object : AdObject) : Bool :=
  object.getBool ctx.g.rt "isCriticalSystemObject"

/-- `GroupScopeEdit::load`, and `GroupTypeEdit::load`, for what is read of the object. -/
def load (loading : Loading) (d : GroupEdit α) : GroupEdit α :=
  let d := { d with current := getValue loading.object }
  if isCriticalSystemObject ctx loading.object then { d with enabled := false } else d

/-- The edit for a value that is read and written, with the first one of its items. The user
    chooses one as long as it is enabled. -/
def form : Form Loading where
  State := GroupEdit α
  Edit := α
  View := α × Bool × Applies σ
  new := ⟨first, true⟩
  load := load ctx getValue
  edit value d := if d.enabled then { d with current := value } else d
  view d := (d.current, d.enabled, setValue d.current)

/-- The load disables the edit, or it is enabled. -/
def Overwrites (d : GroupEdit α) (loading : Loading) : Prop :=
  isCriticalSystemObject ctx loading.object = true ∨ d.enabled = true

variable {ctx getValue setValue first}

/-- A load shows the object, unless the edit is disabled for a former one. -/
theorem loadsWhen_form : (form ctx getValue setValue first).LoadsWhen (Overwrites ctx) := by
  intro d _ loading
  cases hcritical : isCriticalSystemObject ctx loading.object with
  | true => simp [Form.ShowsLoaded, Overwrites, form, load, hcritical]
  | false => simp [Form.ShowsLoaded, Overwrites, form, load, hcritical]

end GroupEdit

/-- `GroupScopeEdit`. -/
def groupScopeEditForm : Form Loading :=
  GroupEdit.form ctx (fun object => groupScopeOf (object.getInt ctx.g.rt attributeGroupType))
    (fun scope s dn => groupSetScope ctx.g ctx.ldap s dn scope) .global

/-- `AdObject::get_group_type`. -/
def groupTypeOf (groupType : BitVec 32) : GroupType :=
  if groupType &&& groupTypeBitSecurity ≠ 0 then .security else .distribution

/-- `GroupTypeEdit`. -/
def groupTypeEditForm : Form Loading :=
  GroupEdit.form ctx (fun object => groupTypeOf (object.getInt ctx.g.rt attributeGroupType))
    (fun type s dn => groupSetType ctx.g ctx.ldap s dn type) .security

end

end Admc
