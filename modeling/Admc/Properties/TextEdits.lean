import Admc.AttributeDialogs
import Admc.Config.Load
import Admc.Console.MoveAndRename
import Admc.DatetimeDialog
import Admc.Interface.Attribute
import Admc.Lib.Form

/-!
# Edits of texts and values

The edits of the properties dialogs that keep a text or values: they take them from the object
and write them to it. What such an edit shows once it is loaded does not depend on what it has
shown before, as a load overwrites all of it; a text is cut to the length that the schema allows,
which no load changes.

`StringEdit.loadsWhen_form`, `ManagerWidget.loadsWhen_form` and their like: the edits show what
they are loaded with after any history.
-/

namespace Admc

/-! ## Loading -/

/-- What an edit is loaded with: the connection, the object, and the day. -/
structure Loading where
  ad : AdConnection
  isConnected : Bool
  object : AdObject
  /-- `QDate::currentDate`, in days from 1970 on. -/
  today : ℤ

/-- `CountryManager`, with the locale of the settings. -/
structure CountryManager where
  countryStrings : QHash ℤ String
  countryStringsRu : QHash ℤ String
  countryAbbreviations : QHash ℤ String
  abbreviationToCode : QHash String ℤ
  locale : QLocale
  localeName : String
  /-- The setting that the country of the locale comes first. -/
  currentLocaleFirst : Bool

/-- What the edits use, and what stays as it is while the program runs. -/
structure EditContext (σ : Type) where
  g : Globals
  ldap : Ldap σ
  /-- `g_adconfig`. -/
  adconfig : AdConfigPrivate
  tables : CaseTables
  zone : LocalTime
  countries : CountryManager
  translate : String → QString
  /-- `attribute_display_value`, of a SID. -/
  sidDisplayValue : QByteArray → QString

/-- What an edit writes to the object of a DN, and whether it succeeds. -/
abbrev Applies (σ : Type) := σ → (dn : String) → σ × Bool

/-! ## Widgets -/

/-- `QString::lastIndexOf`. -/
def lastIndexOf (text : QString) (c : Char) : ℤ :=
  if c ∈ text then text.length - 1 - text.reverse.idxOf c else -1

/-- A text that is cut to a length, unless this is negative. -/
def cutText (maxLength : ℤ) (text : QString) : QString :=
  if maxLength < 0 then text else leftText maxLength.toNat text

section
variable {text : QString} {limit : ℤ} {n : ℕ}

theorem leftText_of_le (h : utf16Length text ≤ n) : leftText n text = text := by
  induction text generalizing n with
  | nil => rfl
  | cons c text ih =>
    rw [utf16Length, List.map_cons, List.sum_cons] at h
    rw [leftText, if_pos (by omega), ih (by rw [utf16Length]; omega)]

theorem length_leftText_le : (leftText n text).length ≤ text.length := by
  induction text generalizing n with
  | nil => exact Nat.le_refl 0
  | cons c text ih =>
    rw [leftText]
    split_ifs with hc
    · rw [List.length_cons, List.length_cons]
      exact Nat.succ_le_succ ih
    · have hunits : utf16Units c ≤ 2 := by
        rw [utf16Units]
        split_ifs <;> omega
      rw [List.length_replicate, List.length_cons]
      omega

/-- A text stays as it is exactly when it fits. -/
theorem cutText_eq_iff : cutText limit text = text ↔ limit < 0 ∨ utf16Length text ≤ limit := by
  rw [cutText]
  split_ifs with hlimit
  · exact iff_of_true rfl (.inl hlimit)
  · rw [or_iff_right hlimit]
    constructor
    · intro h
      have hle := utf16Length_leftText_le limit.toNat text
      rw [h] at hle
      omega
    · intro h
      exact leftText_of_le (by omega)

theorem length_cutText_le : (cutText limit text).length ≤ text.length := by
  rw [cutText]
  split_ifs
  · exact Nat.le_refl _
  · exact length_leftText_le

/-- A text that is cut and trimmed stays as it is exactly if neither changes it. -/
theorem trimmed_cutText_eq_iff :
    trimmed (cutText limit text) = text ↔ trimmed text = text ∧ cutText limit text = text := by
  constructor
  · intro h
    have hlength : (cutText limit text).length ≤ (trimmed (cutText limit text)).length := by
      rw [h]
      exact length_cutText_le
    have hcut : cutText limit text = text := (trimmed_sublist.eq_of_length_le hlength).symm.trans h
    exact ⟨(congrArg trimmed hcut).symm.trans h, hcut⟩
  · rintro ⟨htrimmed, hcut⟩
    rw [hcut, htrimmed]

end

/-- `QLineEdit`. -/
structure QLineEdit where
  text : QString
  maxLength : ℤ

namespace QLineEdit

/-- `QLineEdit::QLineEdit`. -/
def new : QLineEdit := ⟨[], 32767⟩

variable (edit : QLineEdit)

/-- `QLineEdit::setText`. -/
def setText (text : QString) : QLineEdit := { edit with text := cutText edit.maxLength text }

/-- `QLineEdit::setMaxLength`. -/
def setMaxLength (maxLength : ℤ) : QLineEdit := ⟨cutText maxLength edit.text, maxLength⟩

variable {edit} {edit' : QLineEdit}

/-- A text that is set overwrites the former one. -/
theorem setText_congr (h : edit.maxLength = edit'.maxLength) (text : QString) :
    edit.setText text = edit'.setText text := by
  rw [setText, setText, h]

/-- A text that is in an edit stays as it is when it is set again. -/
theorem setText_setText (text : QString) :
    new.setText (new.setText text).text = new.setText text := by
  have hle : (utf16Length (cutText 32767 text) : ℤ) ≤ 32767 := by
    rw [cutText, if_neg (by decide)]
    exact Int.ofNat_le.2 (utf16Length_leftText_le 32767 text)
  exact congrArg (fun text => (⟨text, 32767⟩ : QLineEdit)) (cutText_eq_iff.2 (.inr hle))

end QLineEdit

/-- `QComboBox`, with the data of its items. -/
structure QComboBox (α : Type) where
  items : List (QString × α)
  currentIndex : ℕ

namespace QComboBox

variable {α : Type} (combo : QComboBox α)

/-- `QComboBox::addItem`. -/
def addItem (text : QString) (data : α) : QComboBox α :=
  { combo with items := combo.items ++ [(text, data)] }

/-- `QComboBox::findText`. -/
def findText (text : QString) : Option ℕ := combo.items.findIdx? fun item => item.1 = text

/-- `QComboBox::findData`. -/
def findData [DecidableEq α] (data : α) : Option ℕ :=
  combo.items.findIdx? fun item => item.2 = data

/-- The current item. -/
def currentItem : Option (QString × α) := combo.items[combo.currentIndex]?

/-- `QComboBox::currentText`. -/
def currentText : QString := (combo.currentItem.map Prod.fst).getD []

/-- The choices. -/
def texts : List QString := combo.items.map Prod.fst

variable {combo} {text : QString} {data : α} {i : ℕ}

theorem currentText_eq : combo.currentText = combo.texts[combo.currentIndex]?.getD [] := by
  rw [currentText, currentItem, texts, List.getElem?_map]

theorem texts_addItem : (combo.addItem text data).texts = combo.texts ++ [text] := by
  rw [texts, addItem, List.map_append]
  rfl

theorem findText_eq : combo.findText text = combo.texts.findIdx? fun choice => choice = text := by
  rw [texts, List.findIdx?_map]
  rfl

/-- A text that is found is the choice. -/
theorem getElem?_of_findText (h : combo.findText text = some i) : combo.texts[i]? = some text := by
  rw [findText_eq, List.findIdx?_eq_some_iff_getElem] at h
  obtain ⟨hi, htext, -⟩ := h
  rw [List.getElem?_eq_getElem hi]
  exact congrArg some (of_decide_eq_true htext)

theorem exists_findText (h : text ∈ combo.texts) : ∃ i, combo.findText text = some i := by
  rw [← Option.isSome_iff_exists, findText_eq, List.findIdx?_isSome, List.any_eq_true]
  exact ⟨text, h, decide_eq_true rfl⟩

theorem findText_eq_none (h : text ∉ combo.texts) : combo.findText text = none := by
  rw [findText_eq, List.findIdx?_eq_none_iff]
  exact fun choice hchoice => decide_eq_false fun heq => h (heq ▸ hchoice)

end QComboBox

/-! ## Texts -/

section
variable {σ : Type} (ctx : EditContext σ)

/-- `line_edit_limit_edit`. -/
def lineEditLimitEdit (edit : QLineEdit) (attr : String) : QLineEdit :=
  let rangeUpper := adGetRangeUpper ctx.adconfig.attributeSchemas ctx.g.rt attr
  if rangeUpper > 0 then edit.setMaxLength rangeUpper else edit

/-- `StringEdit`, for an attribute. -/
structure StringEdit where
  edit : QLineEdit
  enabled : Bool

namespace StringEdit

variable (attr : String) (enabled : Bool)

/-- `StringEdit::StringEdit`. That numbers only can be typed into some edits is left out. -/
def new : StringEdit := ⟨lineEditLimitEdit ctx .new attr, enabled⟩

/-- `StringEdit::load`. -/
def load (loading : Loading) (d : StringEdit) : StringEdit :=
  let value := loading.object.getString ctx.g.rt attr
  { d with edit := d.edit.setText value.toList }

/-- `StringEdit::apply`. -/
def apply (d : StringEdit) : Applies σ := fun s dn =>
  let newValue := trimmed d.edit.text
  attributeReplaceString ctx.ldap s dn attr (.ofList newValue)

/-- The edit, into which the user types texts. -/
def form : Form Loading where
  State := StringEdit
  Edit := QString
  View := QString × Bool × Applies σ
  new := new ctx attr enabled
  load := load ctx attr
  edit text d := { d with edit := d.edit.setText text }
  view d := (d.edit.text, d.enabled, d.apply ctx attr)

variable {ctx attr enabled}

theorem load_congr {d d' : StringEdit} (hlength : d.edit.maxLength = d'.edit.maxLength)
    (henabled : d.enabled = d'.enabled) (loading : Loading) :
    d.load ctx attr loading = d'.load ctx attr loading := by
  rw [load, load, henabled, QLineEdit.setText_congr hlength]

theorem loadsWhen_form : (form ctx attr enabled).LoadsWhen fun _ _ => True := by
  refine Form.loadsWhen_of_constant (fun d : StringEdit => (d.edit.maxLength, d.enabled))
    (fun _ _ => rfl) (fun _ _ => rfl) fun d hd loading => iff_true_intro ?_
  rw [Prod.mk.injEq] at hd
  exact congrArg (form ctx attr enabled).view (load_congr hd.1 hd.2 loading)

end StringEdit

/-! ## Values -/

/-- `StringListEdit`, for an attribute. -/
structure StringListEdit where
  values : List QByteArray

namespace StringListEdit

variable (attr : String)

/-- `StringListEdit::load`. -/
def load (loading : Loading) (_ : StringListEdit) : StringListEdit :=
  ⟨loading.object.getValues attr⟩

/-- `StringListEdit::apply`. -/
def apply (d : StringListEdit) : Applies σ := fun s dn =>
  attributeReplaceValues ctx.ldap s dn attr d.values false

/-- The edit, for which the user accepts dialogs with values. -/
def form : Form Loading where
  State := StringListEdit
  Edit := List QByteArray
  View := List QByteArray × Applies σ
  new := ⟨[]⟩
  load := load attr
  edit values _ := ⟨values⟩
  view d := (d.values, d.apply ctx attr)

theorem loadsWhen_form : (form ctx attr).LoadsWhen fun _ _ => True :=
  Form.loadsWhen_always fun _ _ _ => rfl

end StringListEdit

/-- `StringOtherEdit`, for a main attribute and the one of the other values. -/
structure StringOtherEdit where
  mainEdit : StringEdit
  otherValues : List QByteArray

namespace StringOtherEdit

/-- What the user does: texts are typed, and dialogs accepted. -/
inductive Edit
  | main (text : QString)
  | other (values : List QByteArray)

variable (mainAttribute otherAttribute : String) (enabled : Bool)

/-- `StringOtherEdit::StringOtherEdit`. -/
def new : StringOtherEdit := ⟨.new ctx mainAttribute enabled, []⟩

/-- `StringOtherEdit::load`. -/
def load (loading : Loading) (d : StringOtherEdit) : StringOtherEdit :=
  ⟨d.mainEdit.load ctx mainAttribute loading, loading.object.getValues otherAttribute⟩

/-- `StringOtherEdit::apply`. -/
def apply (d : StringOtherEdit) : Applies σ := fun s dn =>
  let (s, mainSuccess) := d.mainEdit.apply ctx mainAttribute s dn
  let (s, otherSuccess) := attributeReplaceValues ctx.ldap s dn otherAttribute d.otherValues false
  (s, mainSuccess && otherSuccess)

/-- An edit by the user. -/
def edit : Edit → StringOtherEdit → StringOtherEdit
  | .main text, d => { d with mainEdit := { d.mainEdit with edit := d.mainEdit.edit.setText text } }
  | .other values, d => { d with otherValues := values }

/-- The edit. -/
def form : Form Loading where
  State := StringOtherEdit
  Edit := Edit
  View := QString × Bool × List QByteArray × Applies σ
  new := new ctx mainAttribute enabled
  load := load ctx mainAttribute otherAttribute
  edit := edit
  view d := (d.mainEdit.edit.text, d.mainEdit.enabled, d.otherValues,
    d.apply ctx mainAttribute otherAttribute)

variable {ctx mainAttribute otherAttribute enabled}

theorem loadsWhen_form :
    (form ctx mainAttribute otherAttribute enabled).LoadsWhen fun _ _ => True := by
  refine Form.loadsWhen_of_constant
    (fun d : StringOtherEdit => (d.mainEdit.edit.maxLength, d.mainEdit.enabled))
    (fun _ _ => rfl) (fun e _ => by cases e <;> rfl) fun d hd loading => iff_true_intro ?_
  rw [Prod.mk.injEq] at hd
  have hmain := @StringEdit.load_congr _ ctx mainAttribute _ _ hd.1 hd.2 loading
  exact congrArg (fun main => (form ctx mainAttribute otherAttribute enabled).view ⟨main, _⟩) hmain

end StringOtherEdit

/-- `ScheduleHoursEdit`. -/
structure ScheduleHoursEdit where
  scheduleAttribute : String
  currentValue : QByteArray

namespace ScheduleHoursEdit

/-- `ScheduleHoursEdit::load`. -/
def load (loading : Loading) (_ : ScheduleHoursEdit) : ScheduleHoursEdit :=
  let object := loading.object
  let scheduleAttribute :=
    if object.isClass ctx.g.rt "user" || object.isClass ctx.g.rt "inetOrgPerson" then "logonHours"
    else if object.isClass ctx.g.rt "siteLink" then "schedule"
    else ""
  ⟨scheduleAttribute, object.getValue scheduleAttribute⟩

/-- `ScheduleHoursEdit::apply`. -/
def apply (d : ScheduleHoursEdit) : Applies σ := fun s dn =>
  if d.scheduleAttribute = "" then (s, false)
  else attributeReplaceValue ctx.ldap s dn d.scheduleAttribute d.currentValue false

/-- The edit, for which the user accepts dialogs with schedules. -/
def form : Form Loading where
  State := ScheduleHoursEdit
  Edit := QByteArray
  View := String × QByteArray × Applies σ
  new := ⟨"", []⟩
  load := load ctx
  edit value d := { d with currentValue := value }
  view d := (d.scheduleAttribute, d.currentValue, d.apply ctx)

theorem loadsWhen_form : (form ctx).LoadsWhen fun _ _ => True :=
  Form.loadsWhen_always fun _ _ _ => rfl

end ScheduleHoursEdit

/-- `LogonComputersEdit`. -/
structure LogonComputersEdit where
  currentValue : String

namespace LogonComputersEdit

/-- `LogonComputersEdit::load`. -/
def load (loading : Loading) (_ : LogonComputersEdit) : LogonComputersEdit :=
  ⟨ctx.g.rt.fromUtf8 (loading.object.getValue "userWorkstations")⟩

/-- `LogonComputersEdit::apply`. -/
def apply (d : LogonComputersEdit) : Applies σ := fun s dn =>
  attributeReplaceString ctx.ldap s dn "userWorkstations" d.currentValue

/-- The edit, for which the user accepts dialogs with workstations. -/
def form : Form Loading where
  State := LogonComputersEdit
  Edit := String
  View := String × Applies σ
  new := ⟨""⟩
  load := load ctx
  edit value _ := ⟨value⟩
  view d := (d.currentValue, d.apply ctx)

theorem loadsWhen_form : (form ctx).LoadsWhen fun _ _ => True :=
  Form.loadsWhen_always fun _ _ _ => rfl

end LogonComputersEdit

/-! ## Managers -/

/-- `ManagerWidget`, for an attribute. -/
structure ManagerWidget where
  currentValue : String
  managerDisplay : QLineEdit
  propertiesEnabled : Bool
  clearEnabled : Bool
  enabled : Bool

namespace ManagerWidget

variable (attr : String) (enabled : Bool)

/-- `ManagerWidget::ManagerWidget`. -/
def new : ManagerWidget := ⟨"", .new, true, true, enabled⟩

/-- `ManagerWidget::load_value`. -/
def loadValue (value : String) (d : ManagerWidget) : ManagerWidget :=
  let name := dnGetName value.toList
  let haveManager := value ≠ ""
  { d with
    currentValue := value
    managerDisplay := d.managerDisplay.setText name
    propertiesEnabled := haveManager
    clearEnabled := haveManager }

/-- `ManagerWidget::load`. -/
def load (loading : Loading) : ManagerWidget → ManagerWidget :=
  loadValue (loading.object.getString ctx.g.rt attr)

/-- `ManagerWidget::apply`. -/
def apply (d : ManagerWidget) : Applies σ := fun s dn =>
  attributeReplaceString ctx.ldap s dn attr d.currentValue

/-- `ManagerEdit`, for which the user selects managers, or none. -/
def form : Form Loading where
  State := ManagerWidget
  Edit := String
  View := String × QString × Bool × Bool × Bool × Applies σ
  new := new enabled
  load := load ctx attr
  edit := loadValue
  view d := (d.currentValue, d.managerDisplay.text, d.propertiesEnabled, d.clearEnabled, d.enabled,
    d.apply ctx attr)

variable {ctx attr enabled}

theorem loadValue_congr {d d' : ManagerWidget}
    (hlength : d.managerDisplay.maxLength = d'.managerDisplay.maxLength)
    (henabled : d.enabled = d'.enabled) (value : String) :
    d.loadValue value = d'.loadValue value := by
  simp only [loadValue, henabled, QLineEdit.setText_congr hlength]

theorem loadsWhen_form : (form ctx attr enabled).LoadsWhen fun _ _ => True := by
  refine Form.loadsWhen_of_constant
    (fun d : ManagerWidget => (d.managerDisplay.maxLength, d.enabled))
    (fun _ _ => rfl) (fun _ _ => rfl) fun d hd loading => iff_true_intro ?_
  rw [Prod.mk.injEq] at hd
  exact congrArg (form ctx attr enabled).view (loadValue_congr hd.1 hd.2 _)

end ManagerWidget

end

end Admc
