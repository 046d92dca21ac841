import Admc.Octet
import Admc.Schema
import Admc.Security.SdText

/-!
# Editing octets, numbers and texts

The dialogs that edit the values of an attribute, apart from those for times, and which of them
`AttributeDialog::make` opens. Each of them writes the stored values in its own way and reads
them back when it is accepted, also if nothing was edited in it.

They do not all give back what is stored: a hexadecimal number that is not set is shown as zero,
and so is one that is no signed number; an octet string of no bytes is not set afterwards; a
text is cut at the length that the schema allows; and a list of security descriptors is opened
as one of texts, so that bytes that are no text are lost.

* `OctetAttributeDialog.Shows.selectFormat`: the display format says nothing about the bytes;
* `HexNumberAttributeDialog.givesBack_iff`, `StringAttributeDialog.givesBack_iff`,
  `ListAttributeDialog.givesBack_iff`: the values that each dialog gives back;
* `attributeDialogs_iff`: all of them, by the dialog that is opened.
-/

namespace Admc

/-! ## The dialog of an attribute -/

/-- The classes that are derived from `AttributeDialog`. -/
inductive AttributeDialogClass
  | octet
  | list
  | bool
  | number
  | hexNumber
  | string
  | datetime
  | timeSpan
  deriving DecidableEq, Repr

/-- `attribute_value_is_hex_displayed`. -/
def attributeValueIsHexDisplayed (attr : String) : Bool :=
  attr = attributeGroupType || attr = attributeUserAccountControl ||
    attr = "msDS-SupportedEncryptionTypes" || attr = "systemFlags"

section
variable (schemas : AttributeSchemas) (rt : Runtime) (attr : String)

/-- `AdConfig::get_attribute_is_number`. -/
def AttributeSchemas.getAttributeIsNumber : Bool :=
  [AttributeType.integer, .largeInteger, .enumeration, .numeric].contains
    (schemas.getAttributeType rt attr)

/-- `AdConfig::get_attribute_range_upper`. -/
def AttributeSchemas.getAttributeRangeUpper : BitVec 32 :=
  (schemas.value attr .empty).getInt rt "rangeUpper"

/-- `ad_get_range_upper`: the schema has no limit for suffixes, and half of that for whole names
    is taken. -/
def adGetRangeUpper : ℤ :=
  if attr = "uPNSuffixes" then
    let upnMaxLength := schemas.getAttributeRangeUpper rt "userPrincipalName"
    upnMaxLength.toInt.tdiv 2
  else (schemas.getAttributeRangeUpper rt attr).toInt

/-- `AttributeDialog::make`: the class of the dialog that is opened, if there is one. -/
def AttributeDialogClass.make (singleValued : Bool) : Option AttributeDialogClass :=
  let octetAttributeDialog := if singleValued then octet else list
  let stringAttributeDialog :=
    if singleValued then
      let attributeIsNumber := schemas.getAttributeIsNumber rt attr
      if attributeIsNumber then if attributeValueIsHexDisplayed attr then hexNumber else number
      else string
    else list
  let boolAttributeDialog := if singleValued then bool else list
  let datetimeAttributeDialog := if singleValued then some datetime else none
  let timeSpanAttributeDialog := if singleValued then some timeSpan else none
  let type := schemas.getAttributeType rt attr
  let largeIntSubtype := getAttributeLargeIntegerSubtype attr
  let type :=
    if type = .largeInteger ∧ largeIntSubtype = .datetime then AttributeType.utcTime else type
  match type with
  | .octet | .sid | .ntSecDesc => some octetAttributeDialog
  | .boolean => some boolAttributeDialog
  | .unicode | .stringCase | .dsdn | .ia5 | .teletex | .objectIdentifier | .integer
  | .enumeration | .numeric | .printable | .dnString => some stringAttributeDialog
  | .largeInteger =>
    if largeIntSubtype = .timespan then timeSpanAttributeDialog else some stringAttributeDialog
  | .utcTime | .generalizedTime => datetimeAttributeDialog
  | .replicaLink | .dnBinary => none

end

/-! ## Octets -/

/-- `class OctetAttributeDialog`: the text, the format in the combo box, and the one that the
    text is in. -/
structure OctetAttributeDialog where
  edit : QString
  formatCombo : OctetDisplayFormat
  prevFormat : OctetDisplayFormat

namespace OctetAttributeDialog

/-- `OctetAttributeDialog::OctetAttributeDialog`. -/
def new (valueList : List QByteArray) : OctetAttributeDialog :=
  let value := valueList.headD []
  ⟨octetBytesToString value .hexadecimal, .hexadecimal, .hexadecimal⟩

variable (dialog : OctetAttributeDialog)

/-- `OctetAttributeDialog::check_input`. -/
def checkInput (format : OctetDisplayFormat) : Bool :=
  if dialog.edit.isEmpty then true else attributeValidateInput format dialog.edit

/-- `OctetAttributeDialog::on_format_combo`. -/
def onFormatCombo : OctetAttributeDialog :=
  let inputOkForPrevFormat := dialog.checkInput dialog.prevFormat
  if inputOkForPrevFormat then
    let bytes := octetStringToBytes dialog.edit dialog.prevFormat
    let newText := octetBytesToString bytes dialog.formatCombo
    { dialog with edit := newText, prevFormat := dialog.formatCombo }
  else { dialog with formatCombo := dialog.prevFormat }

/-- The choice of a format in the combo box, which reports it only if it is another one. -/
def selectFormat (format : OctetDisplayFormat) : OctetAttributeDialog :=
  if format = dialog.formatCombo then dialog
  else onFormatCombo { dialog with formatCombo := format }

/-- `OctetAttributeDialog::accept`: whether the dialog is closed. -/
def accept : Bool := dialog.checkInput dialog.formatCombo

/-- `OctetAttributeDialog::get_value_list`. -/
def getValueList : List QByteArray :=
  if !dialog.edit.isEmpty then [octetStringToBytes dialog.edit dialog.formatCombo] else []

/-- The text is that of some bytes, in the format of the combo box. -/
structure Shows (bytes : QByteArray) : Prop where
  edit_eq : dialog.edit = octetBytesToString bytes dialog.formatCombo
  prevFormat_eq : dialog.prevFormat = dialog.formatCombo

variable {dialog} {bytes : QByteArray}

theorem isEmpty_octetBytesToString {format : OctetDisplayFormat} :
    (octetBytesToString bytes format).isEmpty = true ↔ bytes = [] := by
  rw [List.isEmpty_iff]
  constructor
  · intro hnil
    rw [← octetStringToBytes_octetBytesToString format bytes, hnil]
    rfl
  · rintro rfl
    rfl

theorem shows_new (valueList : List QByteArray) : (new valueList).Shows (valueList.headD []) :=
  ⟨rfl, rfl⟩

/-- What is shown is accepted, in the format that it is shown in. -/
theorem Shows.checkInput (h : dialog.Shows bytes) :
    dialog.checkInput dialog.formatCombo = true := by
  rw [OctetAttributeDialog.checkInput, h.edit_eq]
  split_ifs with hempty
  · rfl
  · exact (octetRoundTrip dialog.formatCombo).2.1 bytes (mt isEmpty_octetBytesToString.2 hempty)

/-- Another format shows the same bytes. -/
theorem Shows.selectFormat (h : dialog.Shows bytes) (format : OctetDisplayFormat) :
    (dialog.selectFormat format).Shows bytes := by
  obtain ⟨edit, formatCombo, prevFormat⟩ := dialog
  obtain rfl : prevFormat = formatCombo := h.prevFormat_eq
  obtain rfl : edit = octetBytesToString bytes prevFormat := h.edit_eq
  have hcheck : OctetAttributeDialog.checkInput
      ⟨octetBytesToString bytes prevFormat, format, prevFormat⟩ prevFormat = true :=
    h.checkInput
  rw [OctetAttributeDialog.selectFormat]
  split_ifs with hsame
  · exact h
  · rw [onFormatCombo]
    dsimp only
    rw [if_pos hcheck, octetStringToBytes_octetBytesToString]
    exact ⟨rfl, rfl⟩

theorem Shows.foldl_selectFormat (h : dialog.Shows bytes) (formats : List OctetDisplayFormat) :
    (formats.foldl OctetAttributeDialog.selectFormat dialog).Shows bytes := by
  induction formats generalizing dialog with
  | nil => exact h
  | cons format formats ih => exact ih (h.selectFormat format)

theorem Shows.getValueList (h : dialog.Shows bytes) :
    dialog.getValueList = if bytes = [] then [] else [bytes] := by
  rw [OctetAttributeDialog.getValueList, h.edit_eq, octetStringToBytes_octetBytesToString]
  by_cases hbytes : bytes = []
  · rw [if_pos hbytes, isEmpty_octetBytesToString.2 hbytes]
    rfl
  · rw [if_neg hbytes, Bool.eq_false_iff.2 (mt isEmpty_octetBytesToString.1 hbytes)]
    rfl

/-- After any choices of the format, the dialog is accepted, and gives back all but an empty
    value. -/
theorem givesBack_iff {valueList : List QByteArray} (hlength : valueList.length ≤ 1)
    (formats : List OctetDisplayFormat) :
    (formats.foldl OctetAttributeDialog.selectFormat (new valueList)).accept = true ∧
      ((formats.foldl OctetAttributeDialog.selectFormat (new valueList)).getValueList =
        valueList ↔ valueList ≠ [[]]) := by
  have hshows := (shows_new valueList).foldl_selectFormat formats
  refine ⟨hshows.checkInput, ?_⟩
  rw [hshows.getValueList]
  match valueList, hlength with
  | [], _ => simp
  | [value], _ => by_cases hvalue : value = [] <;> simp [hvalue]

end OctetAttributeDialog

/-! ## Hexadecimal numbers -/

/-- The values of the digits of a text, in base 16. -/
def hexDigitValues (text : QString) : List ℕ := text.map fun c => (strtolDigit c).getD 16

/-- The number of a text of digits in base 16. -/
def ofHexDigits (text : QString) : Option ℕ :=
  if text ≠ [] ∧ (hexDigitValues text).all (· < 16) then
    some (Nat.ofDigits 16 (hexDigitValues text).reverse)
  else none

/-- What is skipped before the digits: a sign, -/
def skipPlus : QString → QString
  | '+' :: text => text
  | text => text

/-- and the mark of hexadecimal numbers. -/
def skipHexMark : QString → QString
  | '0' :: 'x' :: text | '0' :: 'X' :: text => text
  | text => text

/-- `QString::toUInt`, in base 16. -/
def toUIntHex (text : QString) : Option ℕ :=
  (ofHexDigits (skipHexMark (skipPlus (trimmed text)))).filter (· < 2 ^ 32)

/-- A number that is written in base 16 has digits, with its value, -/
theorem hexDigitValues_toDigits (n : ℕ) :
    (∀ d ∈ hexDigitValues (Nat.toDigits 16 n), d < 16) ∧
      Nat.ofDigits 16 (hexDigitValues (Nat.toDigits 16 n)).reverse = n := by
  induction n using Nat.strong_induction_on with
  | _ n ih =>
    have hdigit : ∀ d < 16, hexDigitValues [Nat.digitChar d] = [d] := fun d hd => by
      rw [hexDigitValues, List.map_singleton, strtolDigit_natDigitChar d hd]
      rfl
    rw [Nat.toDigits_eq_if (by decide)]
    split_ifs with hn
    · rw [hdigit n hn, List.reverse_singleton, Nat.ofDigits_singleton]
      exact ⟨fun d hd => List.mem_singleton.1 hd ▸ hn, rfl⟩
    · have hmod : n % 16 < 16 := Nat.mod_lt n (by decide)
      have hsplit : hexDigitValues (Nat.toDigits 16 (n / 16) ++ [Nat.digitChar (n % 16)]) =
          hexDigitValues (Nat.toDigits 16 (n / 16)) ++ [n % 16] := by
        rw [← hdigit _ hmod]
        exact List.map_append
      obtain ⟨hlt, hvalue⟩ := ih (n / 16) (Nat.div_lt_self (by omega) (by decide))
      rw [hsplit, List.reverse_append, List.reverse_singleton, List.singleton_append,
        Nat.ofDigits_cons, hvalue]
      refine ⟨fun d hd => ?_, Nat.mod_add_div n 16⟩
      rcases List.mem_append.1 hd with hd | hd
      · exact hlt d hd
      · exact List.mem_singleton.1 hd ▸ hmod

/-- and is read again. -/
theorem toUIntHex_toDigits {n : ℕ} (hn : n < 2 ^ 32) : toUIntHex (Nat.toDigits 16 n) = some n := by
  -- There is nothing to skip.
  have hchar : ∀ c ∈ Nat.toDigits 16 n, isSpace c = false ∧ c ≠ '+' ∧ c ≠ 'x' ∧ c ≠ 'X' := by
    intro c hc
    obtain ⟨d, hd, rfl⟩ := exists_of_mem_toDigits (by decide) le_rfl hc
    have hprops : ∀ d < 16, isSpace (Nat.digitChar d) = false ∧ Nat.digitChar d ≠ '+' ∧
        Nat.digitChar d ≠ 'x' ∧ Nat.digitChar d ≠ 'X' := by decide
    exact hprops d hd
  obtain ⟨hlt, hvalue⟩ := hexDigitValues_toDigits n
  have hdigits : ofHexDigits (Nat.toDigits 16 n) = some n := by
    rw [ofHexDigits, if_pos, hvalue]
    exact ⟨Nat.toDigits_ne_nil, List.all_eq_true.2 fun d hd => decide_eq_true (hlt d hd)⟩
  have hplus : skipPlus (Nat.toDigits 16 n) = Nat.toDigits 16 n := by
    unfold skipPlus
    split
    · rename_i htext
      exact absurd rfl (hchar '+' (htext ▸ List.mem_cons_self)).2.1
    · rfl
  have hmark : skipHexMark (Nat.toDigits 16 n) = Nat.toDigits 16 n := by
    unfold skipHexMark
    split
    · rename_i htext
      exact absurd rfl (hchar 'x' (htext ▸ List.mem_cons_of_mem _ List.mem_cons_self)).2.2.1
    · rename_i htext
      exact absurd rfl (hchar 'X' (htext ▸ List.mem_cons_of_mem _ List.mem_cons_self)).2.2.2
    · rfl
  rw [toUIntHex, trimmed_of_all fun c hc => (hchar c hc).1, hplus, hmark, hdigits,
    Option.filter_some, if_pos (decide_eq_true hn)]

/-- `class HexNumberAttributeDialog`: the text of the edit. -/
structure HexNumberAttributeDialog where
  edit : QString

namespace HexNumberAttributeDialog

variable (rt : Runtime)

/-- `HexNumberAttributeDialog::HexNumberAttributeDialog`. The edit has room for two digits for
    each byte of a number. -/
def new (valueList : List QByteArray) : HexNumberAttributeDialog :=
  let value := valueList.headD []
  let valueText := Nat.toDigits 16 (BitVec.ofInt 32 (toInt (rt.fromUtf8 value).toList)).toNat
  ⟨valueText.take (2 * 4)⟩

/-- `HexNumberAttributeDialog::get_value_list`. -/
def getValueList (dialog : HexNumberAttributeDialog) : List QByteArray :=
  match toUIntHex dialog.edit with
  | some n =>
    let intValue := (BitVec.ofNat 32 n).toInt
    if dialog.edit.isEmpty then [] else [toUtf8 (.ofList (number intValue))]
  | none => []

variable {rt}

/-- The number of the value is written again, and zero for one that is not set. -/
theorem getValueList_new (valueList : List QByteArray) :
    (new rt valueList).getValueList =
      numberValues (.ofInt 32 (toInt (rt.fromUtf8 (valueList.headD [])).toList)) := by
  generalize hbits : BitVec.ofInt 32 (toInt (rt.fromUtf8 (valueList.headD [])).toList) = bits
  have hlength : (Nat.toDigits 16 bits.toNat).length ≤ 8 :=
    (Nat.length_toDigits_le_iff (by decide) (by decide)).2 (bits.isLt.trans_le (by decide))
  have hempty : ¬(Nat.toDigits 16 bits.toNat).isEmpty = true :=
    mt List.isEmpty_iff.1 Nat.toDigits_ne_nil
  rw [new, getValueList]
  simp only [hbits]
  rw [List.take_of_length_le hlength, toUIntHex_toDigits bits.isLt]
  dsimp only
  rw [if_neg hempty, BitVec.ofNat_toNat, BitVec.setWidth_eq]
  rfl

/-- The dialog gives back the decimals of signed numbers of 32 bits, and nothing else. -/
theorem givesBack_iff (hrt : rt.DecodesUtf8) (valueList : List QByteArray) :
    (new rt valueList).getValueList = valueList ↔ ∃ n, valueList = numberValues n := by
  rw [getValueList_new]
  constructor
  · exact fun h => ⟨_, h.symm⟩
  · rintro ⟨n, rfl⟩
    exact congrArg numberValues (valuesNumber_numberValues hrt n)

end HexNumberAttributeDialog

/-! ## Texts -/

/-- The units of a character in UTF-16. -/
def utf16Units (c : Char) : ℕ := if c.toNat < 0x10000 then 1 else 2

/-- `QString::length`. -/
def utf16Length (text : QString) : ℕ := (text.map utf16Units).sum

/-- `QString::left`. A question mark stands for the half of a pair of units, as it does in
    UTF-8. -/
def leftText : ℕ → QString → QString
  | _, [] => []
  | n, c :: cs =>
    if utf16Units c ≤ n then c :: leftText (n - utf16Units c) cs else List.replicate n '?'

/-- The text of an edit after `limit_plain_text_edit`, once it has been set. -/
def limitPlainTextEdit (rangeUpper : ℤ) (text : QString) : QString :=
  if rangeUpper > 0 then
    if utf16Length text > rangeUpper then leftText rangeUpper.toNat text else text
  else text

theorem utf16Length_leftText_le (n : ℕ) (text : QString) : utf16Length (leftText n text) ≤ n := by
  induction text generalizing n with
  | nil => exact Nat.zero_le n
  | cons c cs ih =>
    rw [leftText]
    split_ifs with hc
    · have htail := ih (n - utf16Units c)
      rw [utf16Length] at htail
      rw [utf16Length, List.map_cons, List.sum_cons]
      omega
    · have hmark : utf16Units '?' = 1 := rfl
      rw [utf16Length, List.map_replicate, hmark, List.sum_replicate_nat, Nat.mul_one]

/-- A text stays as it is exactly when it fits. -/
theorem limitPlainTextEdit_eq_iff {rangeUpper : ℤ} {text : QString} :
    limitPlainTextEdit rangeUpper text = text ↔
      rangeUpper ≤ 0 ∨ utf16Length text ≤ rangeUpper := by
  have hleft := utf16Length_leftText_le rangeUpper.toNat text
  rw [limitPlainTextEdit]
  split_ifs with hpos hlong
  · refine iff_of_false (fun h => ?_) (by omega)
    rw [h] at hleft
    omega
  · exact iff_of_true rfl (.inr (by omega))
  · exact iff_of_true rfl (.inl (by omega))

/-- A value that is a text, and one that an edit shows in one line. -/
def IsText (value : QByteArray) : Prop :=
  ∃ text : QString, text ≠ [] ∧ (∀ c ∈ text, c.toNat ∉ [0x0a, 0x0d, 0x2028, 0x2029]) ∧
    value = toUtf8 (.ofList text)

/-- `class StringAttributeDialog`: the text of the edit. -/
structure StringAttributeDialog where
  edit : QString

namespace StringAttributeDialog

variable (schemas : AttributeSchemas) (rt : Runtime) (attr : String)

/-- `StringAttributeDialog::StringAttributeDialog`. -/
def new (valueList : List QByteArray) : StringAttributeDialog :=
  let value := valueList.headD []
  let valueString := (rt.fromUtf8 value).toList
  ⟨limitPlainTextEdit (adGetRangeUpper schemas rt attr) valueString⟩

/-- `StringAttributeDialog::get_value_list`. -/
def getValueList (dialog : StringAttributeDialog) : List QByteArray :=
  if dialog.edit.isEmpty then [] else [toUtf8 (.ofList dialog.edit)]

variable {schemas rt attr}

/-- The dialog gives back the texts that are no longer than the schema allows. -/
theorem givesBack_iff (hrt : rt.DecodesUtf8) {valueList : List QByteArray}
    (hlength : valueList.length ≤ 1) (htext : ∀ value ∈ valueList, IsText value) :
    (new schemas rt attr valueList).getValueList = valueList ↔
      adGetRangeUpper schemas rt attr ≤ 0 ∨ ∀ value ∈ valueList,
        utf16Length (rt.fromUtf8 value).toList ≤ adGetRangeUpper schemas rt attr := by
  match valueList, hlength with
  | [], _ =>
    have hempty : limitPlainTextEdit (adGetRangeUpper schemas rt attr) [] = [] :=
      limitPlainTextEdit_eq_iff.2 ((le_or_gt _ 0).imp_right le_of_lt)
    refine iff_of_true ?_ (.inr nofun)
    have hread : (rt.fromUtf8 []).toList = [] := congrArg String.toList (hrt "")
    rw [new, getValueList, List.headD_nil, hread]
    dsimp only
    rw [hempty]
    rfl
  | [value], _ =>
    obtain ⟨text, hne, -, rfl⟩ := htext value (List.mem_singleton_self value)
    have hread : (rt.fromUtf8 (toUtf8 (.ofList text))).toList = text := by
      rw [hrt, String.toList_ofList]
    simp only [List.forall_mem_singleton, hread]
    rw [← limitPlainTextEdit_eq_iff, new, getValueList, List.headD_cons, hread]
    dsimp only
    split_ifs with hcut
    · -- A text that is not empty is shown as one that is not.
      rw [List.isEmpty_iff] at hcut
      exact iff_of_false nofun fun h => hne (h.symm.trans hcut)
    · rw [List.cons.injEq, and_iff_left rfl]
      refine ⟨fun h => ?_, fun h => by rw [h]⟩
      have hsame := congrArg (fun value => (rt.fromUtf8 value).toList) h
      simpa only [hrt _, String.toList_ofList] using hsame

end StringAttributeDialog

/-! ## Lists -/

/-- `enum ListAttributeDialogType`. -/
inductive ListAttributeDialogType
  | string
  | octet
  | datetime
  deriving DecidableEq, Repr

/-- `attribute_type_to_list_dialog_type`. -/
def attributeTypeToListDialogType : AttributeType → ListAttributeDialogType
  | .octet | .sid => .octet
  | .utcTime => .datetime
  | .generalizedTime => .datetime
  | _ => .string

/-- `bytes_to_string`. -/
def bytesToString (rt : Runtime) (bytes : QByteArray) : ListAttributeDialogType → QString
  | .octet => octetBytesToString bytes .hexadecimal
  | .string | .datetime => (rt.fromUtf8 bytes).toList

/-- `string_to_bytes`. -/
def stringToBytes (string : QString) : ListAttributeDialogType → QByteArray
  | .octet => octetStringToBytes string .hexadecimal
  | .string | .datetime => toUtf8 (.ofList string)

/-- `does_list_contain_empty_values`. -/
def doesListContainEmptyValues (valueList : List QByteArray) : Bool :=
  valueList.any fun value =>
    let valueIsAllSpaces := value.count 0x20 = value.length
    value.isEmpty || valueIsAllSpaces

/-- `class ListAttributeDialog`: the texts of the list. -/
structure ListAttributeDialog where
  attr : String
  listWidget : List QString

namespace ListAttributeDialog

variable (schemas : AttributeSchemas) (rt : Runtime) (dialog : ListAttributeDialog)

/-- `ListAttributeDialog::get_type`. -/
def getType : ListAttributeDialogType :=
  attributeTypeToListDialogType (schemas.getAttributeType rt dialog.attr)

/-- `ListAttributeDialog::add_value`. -/
def addValue (value : QByteArray) : ListAttributeDialog :=
  let text := bytesToString rt value (dialog.getType schemas rt)
  let valueAlreadyExists := text ∈ dialog.listWidget
  if !valueAlreadyExists then { dialog with listWidget := dialog.listWidget ++ [text] }
  else dialog

/-- `ListAttributeDialog::ListAttributeDialog`. -/
def new (valueList : List QByteArray) (attr : String) : ListAttributeDialog :=
  valueList.foldl (addValue schemas rt) ⟨attr, []⟩

/-- `ListAttributeDialog::get_value_list`. -/
def getValueList : List QByteArray :=
  dialog.listWidget.map fun newValueString =>
    stringToBytes newValueString (dialog.getType schemas rt)

/-- `ListAttributeDialog::accept`: whether the dialog is closed. -/
def accept : Bool :=
  let type := schemas.getAttributeType rt dialog.attr
  let containsEmptyValues :=
    if type ≠ .boolean then doesListContainEmptyValues (dialog.getValueList schemas rt) else false
  !containsEmptyValues

variable {schemas rt dialog} {valueList : List QByteArray} {attr : String}

theorem attr_foldl_addValue :
    (valueList.foldl (addValue schemas rt) dialog).attr = dialog.attr := by
  induction valueList generalizing dialog with
  | nil => rfl
  | cons value valueList ih =>
    rw [List.foldl_cons, ih, addValue]
    split <;> rfl

theorem getType_new :
    (new schemas rt valueList attr).getType schemas rt =
      attributeTypeToListDialogType (schemas.getAttributeType rt attr) := by
  rw [getType, new, attr_foldl_addValue]

/-- Texts that are different, and not in the list, are added to its end. -/
theorem listWidget_foldl_addValue
    (h : (dialog.listWidget ++
      valueList.map (bytesToString rt · (dialog.getType schemas rt))).Nodup) :
    (valueList.foldl (addValue schemas rt) dialog).listWidget =
      dialog.listWidget ++ valueList.map (bytesToString rt · (dialog.getType schemas rt)) := by
  induction valueList generalizing dialog with
  | nil => exact (List.append_nil _).symm
  | cons value valueList ih =>
    rw [List.map_cons, List.append_cons] at h ⊢
    have hnew : bytesToString rt value (dialog.getType schemas rt) ∉ dialog.listWidget :=
      fun hmem => (List.nodup_append.1 (List.nodup_append.1 h).1).2.2 _ hmem _
        (List.mem_singleton_self _) rfl
    have hadd : dialog.addValue schemas rt value = ⟨dialog.attr,
        dialog.listWidget ++ [bytesToString rt value (dialog.getType schemas rt)]⟩ := by
      rw [addValue]
      exact if_pos (by simpa using hnew)
    rw [List.foldl_cons, hadd]
    exact ih h

/-- Different values that are read back from their texts are given back. -/
theorem getValueList_new (hnodup : valueList.Nodup)
    (hback : ∀ value ∈ valueList,
      let type := attributeTypeToListDialogType (schemas.getAttributeType rt attr)
      stringToBytes (bytesToString rt value type) type = value) :
    (new schemas rt valueList attr).getValueList schemas rt = valueList := by
  have htexts : (valueList.map (bytesToString rt ·
      (attributeTypeToListDialogType (schemas.getAttributeType rt attr)))).Nodup := by
    refine hnodup.map_on fun value hvalue value' hvalue' hsame => ?_
    rw [← hback value hvalue, ← hback value' hvalue', hsame]
  have hlist := @listWidget_foldl_addValue schemas rt ⟨attr, []⟩ valueList htexts
  rw [getValueList, getType_new, new, hlist, List.nil_append, List.map_map]
  exact (List.map_congr_left hback).trans (List.map_id valueList)

/-- The types whose values are any bytes. -/
def IsOctetType (type : AttributeType) : Prop :=
  type = .octet ∨ type = .sid ∨ type = .ntSecDesc

/-- The dialog gives back different values, if they are not security descriptors whose bytes are
    no texts. -/
theorem givesBack_iff (hrt : rt.DecodesUtf8) (hnodup : valueList.Nodup)
    (hstored : ¬IsOctetType (schemas.getAttributeType rt attr) →
      ∀ value ∈ valueList, IsText value) :
    (new schemas rt valueList attr).getValueList schemas rt = valueList ↔
      schemas.getAttributeType rt attr ≠ .ntSecDesc ∨
        ∀ value ∈ valueList, ∃ text, value = toUtf8 text := by
  constructor
  · intro h
    rw [or_iff_not_imp_left, not_not]
    intro htype value hvalue
    rw [← h, getValueList, getType_new, htype] at hvalue
    obtain ⟨text, -, rfl⟩ := List.mem_map.1 hvalue
    exact ⟨_, rfl⟩
  · intro h
    refine getValueList_new hnodup fun value hvalue => ?_
    have hback : attributeTypeToListDialogType (schemas.getAttributeType rt attr) = .octet ∨
        ∃ text, value = toUtf8 text := by
      by_cases hoctet : IsOctetType (schemas.getAttributeType rt attr)
      · rcases hoctet with htype | htype | htype
        · exact .inl (by rw [htype]; rfl)
        · exact .inl (by rw [htype]; rfl)
        · exact .inr (h.resolve_left (not_not.2 htype) value hvalue)
      · obtain ⟨text, -, -, rfl⟩ := hstored hoctet value hvalue
        exact .inr ⟨_, rfl⟩
    rcases hback with htype | ⟨text, rfl⟩
    · rw [htype]
      exact octetStringToBytes_octetBytesToString .hexadecimal value
    · cases attributeTypeToListDialogType (schemas.getAttributeType rt attr) with
      | octet => exact octetStringToBytes_octetBytesToString .hexadecimal _
      | string | datetime => exact congrArg toUtf8 (String.ofList_toList.trans (hrt text))

end ListAttributeDialog

/-! ## All of them -/

section
variable (rt : Runtime) (schemas : AttributeSchemas) (attr : String)

/-- What the dialog of an attribute gives back when nothing was edited in it: octets unless they
    are an empty value, in whatever format they were looked at; numbers that are set, and signed;
    texts that are no longer than the schema allows; and lists, unless they are security
    descriptors whose bytes are no texts. -/
theorem attributeDialogs_iff (hrt : rt.DecodesUtf8) (singleValued : Bool) :
    (AttributeDialogClass.make schemas rt attr singleValued = some .octet →
      ∀ valueList : List QByteArray, valueList.length ≤ 1 → ∀ formats : List OctetDisplayFormat,
        let dialog := formats.foldl OctetAttributeDialog.selectFormat (.new valueList)
        dialog.accept = true ∧ (dialog.getValueList = valueList ↔ valueList ≠ [[]])) ∧
    (AttributeDialogClass.make schemas rt attr singleValued = some .hexNumber →
      ∀ valueList : List QByteArray, valueList.length ≤ 1 →
        ((HexNumberAttributeDialog.new rt valueList).getValueList = valueList ↔
          ∃ n, valueList = numberValues n)) ∧
    (AttributeDialogClass.make schemas rt attr singleValued = some .string →
      ∀ valueList : List QByteArray, valueList.length ≤ 1 → (∀ value ∈ valueList, IsText value) →
        ((StringAttributeDialog.new schemas rt attr valueList).getValueList = valueList ↔
          adGetRangeUpper schemas rt attr ≤ 0 ∨ ∀ value ∈ valueList,
            utf16Length (rt.fromUtf8 value).toList ≤ adGetRangeUpper schemas rt attr)) ∧
    (AttributeDialogClass.make schemas rt attr singleValued = some .list →
      ∀ valueList : List QByteArray, valueList.Nodup →
        (¬ListAttributeDialog.IsOctetType (schemas.getAttributeType rt attr) →
          ∀ value ∈ valueList, IsText value) →
        ((ListAttributeDialog.new schemas rt valueList attr).getValueList schemas rt = valueList ↔
          schemas.getAttributeType rt attr ≠ .ntSecDesc ∨
            ∀ value ∈ valueList, ∃ text, value = toUtf8 text)) :=
  ⟨fun _ _ hlength formats => OctetAttributeDialog.givesBack_iff hlength formats,
    fun _ valueList _ => HexNumberAttributeDialog.givesBack_iff hrt valueList,
    fun _ _ hlength htext => StringAttributeDialog.givesBack_iff hrt hlength htext,
    fun _ _ hnodup hstored => ListAttributeDialog.givesBack_iff hrt hnodup hstored⟩

end

theorem make_userAccountControl :
    AttributeDialogClass.make (syntaxSchemas "userAccountControl" "2.5.5.9" "2") zeroRuntime
      "userAccountControl" true = some .hexNumber := by
  have htype := (getAttributeType_syntaxSchemas "userAccountControl" "2.5.5.9" "2").trans
    (by decide : _ = AttributeType.integer)
  simp only [AttributeDialogClass.make, AttributeSchemas.getAttributeIsNumber, htype]
  decide

/-- A text of one character is one that an edit shows. -/
theorem isText_singleton {c : Char} (h : c.toNat ∉ [0x0a, 0x0d, 0x2028, 0x2029]) :
    IsText (toUtf8 (.ofList [c])) :=
  ⟨[c], List.cons_ne_nil _ _, fun _ hc => List.mem_singleton.1 hc ▸ h, rfl⟩

/-- A picture that is looked at in other formats, the number of a normal account, a text, and a
    list of texts. -/
theorem attributeDialogs_iff_values :
    ([.octal, .binary].foldl OctetAttributeDialog.selectFormat (.new [[0xff, 0]])).getValueList =
      [[0xff, 0]] ∧
    (HexNumberAttributeDialog.new zeroRuntime (numberValues 512)).getValueList =
      numberValues 512 ∧
    (StringAttributeDialog.new (syntaxSchemas "info" "2.5.5.12" "64") zeroRuntime "info"
      [toUtf8 (.ofList ['a'])]).getValueList = [toUtf8 (.ofList ['a'])] ∧
    (ListAttributeDialog.new (syntaxSchemas "url" "2.5.5.12" "64") zeroRuntime
      [toUtf8 (.ofList ['b']), toUtf8 (.ofList ['a'])] "url").getValueList
        (syntaxSchemas "url" "2.5.5.12" "64") zeroRuntime =
          [toUtf8 (.ofList ['b']), toUtf8 (.ofList ['a'])] := by
  have hphoto := (getAttributeType_syntaxSchemas "jpegPhoto" "2.5.5.10" "4").trans
    (by decide : _ = AttributeType.octet)
  have hinfo := (getAttributeType_syntaxSchemas "info" "2.5.5.12" "64").trans
    (by decide : _ = AttributeType.unicode)
  have hurl := (getAttributeType_syntaxSchemas "url" "2.5.5.12" "64").trans
    (by decide : _ = AttributeType.unicode)
  have hall := attributeDialogs_iff zeroRuntime
  refine ⟨?_, ?_, ?_, ?_⟩
  · refine (((hall (syntaxSchemas "jpegPhoto" "2.5.5.10" "4") "jpegPhoto" decodesUtf8_zeroRuntime
      true).1 ?_ [[0xff, 0]] (by decide) [.octal, .binary]).2).2 (by decide)
    simp only [AttributeDialogClass.make, hphoto]
    rfl
  · exact ((hall _ _ decodesUtf8_zeroRuntime true).2.1 make_userAccountControl _ le_rfl).2
      ⟨512, rfl⟩
  · refine ((hall _ "info" decodesUtf8_zeroRuntime true).2.2.1 ?_ [toUtf8 (.ofList ['a'])]
      (by decide) ?_).2 (.inl ?_)
    · simp only [AttributeDialogClass.make, AttributeSchemas.getAttributeIsNumber, hinfo]
      decide
    · exact fun _ h => List.mem_singleton.1 h ▸ isText_singleton (by decide)
    · decide
  · refine ((hall _ "url" decodesUtf8_zeroRuntime false).2.2.2 ?_ _ ?_ fun _ => ?_).2 (.inl ?_)
    · simp only [AttributeDialogClass.make, hurl]
      decide
    · decide
    · simp only [List.forall_mem_cons]
      exact ⟨isText_singleton (by decide), isText_singleton (by decide), nofun⟩
    · rw [hurl]
      decide

/-- The account control of an object that has none: when the dialog is accepted, zero is
    stored. -/
theorem not_attributeDialogs :
    AttributeDialogClass.make (syntaxSchemas "userAccountControl" "2.5.5.9" "2") zeroRuntime
        "userAccountControl" true = some .hexNumber ∧
      (HexNumberAttributeDialog.new zeroRuntime []).getValueList = numberValues 0 ∧
      numberValues 0 ≠ [] := by
  refine ⟨make_userAccountControl, ?_, List.cons_ne_nil _ _⟩
  have hread : (zeroRuntime.fromUtf8 []).toList = [] :=
    congrArg String.toList (decodesUtf8_zeroRuntime "")
  rw [HexNumberAttributeDialog.getValueList_new, List.headD_nil, hread]
  rfl

end Admc
