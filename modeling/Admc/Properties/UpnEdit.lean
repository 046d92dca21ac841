import Admc.Properties.TextEdits

/-!
# The edit of user names

A user name has a suffix, which is chosen, and a first part, which is typed. The suffix limits the
length of the first part. The suffix of an object is added to the choices when the edit is loaded,
unless it is there, and stays among them when other objects are loaded.

* `UpnEdit.HasAdded.shown_load`: what is chosen and typed after a load depends on the object only;
* `UpnEdit.loadsWhen_form`: the edit shows what it is loaded with exactly if no suffixes of other
  objects have been added to the choices.
-/

namespace Admc

section
variable {σ : Type} (ctx : EditContext σ)

/-- `AdObject::get_split_upn`. -/
def AdObject.getSplitUpn (object : AdObject) (rt : Runtime) : QString × QString :=
  let upn := (object.getString rt "userPrincipalName").toList
  let splitIndex := lastIndexOf upn '@'
  (mid upn 0 splitIndex, mid upn (splitIndex + 1) (-1))

/-- `AdObject::get_upn_prefix`. -/
def AdObject.getUpnPrefix (object : AdObject) (rt : Runtime) : QString := (object.getSplitUpn rt).1

/-- `AdObject::get_upn_suffix`. -/
def AdObject.getUpnSuffix (object : AdObject) (rt : Runtime) : QString := (object.getSplitUpn rt).2

/-- `UpnEdit`. -/
structure UpnEdit where
  prefixEdit : QLineEdit
  upnSuffixCombo : QComboBox Unit

namespace UpnEdit

/-- The length that is left for the first part of a name with a suffix. -/
def prefixRangeUpper (suffix : QString) : ℤ :=
  let totalRangeUpper :=
    (ctx.adconfig.attributeSchemas.getAttributeRangeUpper ctx.g.rt "userPrincipalName").toInt
  totalRangeUpper - 1 - utf16Length suffix

/-- `UpnEdit::on_suffix_combo_changed`. -/
def onSuffixComboChanged (d : UpnEdit) : UpnEdit :=
  let maxLength := prefixRangeUpper ctx d.upnSuffixCombo.currentText
  { d with prefixEdit := d.prefixEdit.setMaxLength maxLength }

/-- `QComboBox::setCurrentIndex`, with the signal if the index changes. -/
def setCurrentIndex (index : ℕ) (d : UpnEdit) : UpnEdit :=
  if index = d.upnSuffixCombo.currentIndex then d
  else onSuffixComboChanged ctx
    { d with upnSuffixCombo := { d.upnSuffixCombo with currentIndex := index } }

/-- `upn_suffix_combo_init`. -/
def upnSuffixComboInit (ad : AdConnection) : QComboBox Unit :=
  let partitionsDn := "CN=Partitions," ++ ctx.adconfig.configurationDn
  let partitionsObject := ad.searchObject partitionsDn []
  let suffixes := partitionsObject.getStrings ctx.g.rt "uPNSuffixes"
  let domainSuffix := String.ofList (ctx.tables.lower ctx.adconfig.domain.toList)
  let suffixes := if domainSuffix ∈ suffixes then suffixes else suffixes ++ [domainSuffix]
  ⟨suffixes.map fun suffix => (suffix.toList, ()), 0⟩

/-- `UpnEdit::UpnEdit`, and `UpnEdit::init_suffixes`. -/
def new (ad : AdConnection) : UpnEdit :=
  onSuffixComboChanged ctx ⟨.new, upnSuffixComboInit ctx ad⟩

/-- `upn_suffix_combo_load`. -/
def upnSuffixComboLoad (suffix : QString) (d : UpnEdit) : UpnEdit :=
  match d.upnSuffixCombo.findText suffix with
  | some suffixIndex => d.setCurrentIndex ctx suffixIndex
  | none =>
    let d := { d with upnSuffixCombo := d.upnSuffixCombo.addItem suffix () }
    match d.upnSuffixCombo.findText suffix with
    | some addedIndex => d.setCurrentIndex ctx addedIndex
    | none => d

/-- `UpnEdit::load`. -/
def load (loading : Loading) (d : UpnEdit) : UpnEdit :=
  let d := d.upnSuffixComboLoad ctx (loading.object.getUpnSuffix ctx.g.rt)
  { d with prefixEdit := d.prefixEdit.setText (loading.object.getUpnPrefix ctx.g.rt) }

/-- `UpnEdit::get_new_value`. -/
def getNewValue (d : UpnEdit) : QString :=
  trimmed d.prefixEdit.text ++ '@' :: d.upnSuffixCombo.currentText

/-- `UpnEdit::apply`. -/
def apply (d : UpnEdit) : Applies σ := fun s dn =>
  attributeReplaceString ctx.ldap s dn "userPrincipalName" (.ofList d.getNewValue)

/-- What the user does: the first part is typed, and one of the suffixes is chosen. -/
inductive Edit
  | type (text : QString)
  | choose (index : ℕ)

/-- An edit by the user. -/
def edit : Edit → UpnEdit → UpnEdit
  | .type text, d => { d with prefixEdit := d.prefixEdit.setText text }
  | .choose index, d =>
    if index < d.upnSuffixCombo.items.length then d.setCurrentIndex ctx index else d

/-- The edit. -/
def form (ad : AdConnection) : Form Loading where
  State := UpnEdit
  Edit := Edit
  View := List QString × QString × QString × Applies σ
  new := new ctx ad
  load := load ctx
  edit := edit ctx
  view d := (d.upnSuffixCombo.texts, d.upnSuffixCombo.currentText, d.prefixEdit.text, d.apply ctx)

/-- The suffixes that have been added to the choices, with the length for the first part. -/
structure HasAdded (initial : List QString) (d : UpnEdit) (added : List QString) : Prop where
  texts : d.upnSuffixCombo.texts = initial ++ added
  nodup : added.Nodup
  disjoint : ∀ text ∈ added, text ∉ initial
  current : d.upnSuffixCombo.currentIndex < d.upnSuffixCombo.texts.length
  maxLength : d.prefixEdit.maxLength = prefixRangeUpper ctx d.upnSuffixCombo.currentText

variable {ctx} {initial added : List QString} {d : UpnEdit} {suffix : QString} {index : ℕ}

theorem texts_setCurrentIndex :
    (d.setCurrentIndex ctx index).upnSuffixCombo.texts = d.upnSuffixCombo.texts := by
  rw [setCurrentIndex]
  split_ifs
  · rfl
  · rfl

theorem currentIndex_setCurrentIndex :
    (d.setCurrentIndex ctx index).upnSuffixCombo.currentIndex = index := by
  rw [setCurrentIndex]
  split_ifs with h
  · exact h.symm
  · rfl

/-- Choosing a suffix. -/
theorem HasAdded.setCurrentIndex (h : HasAdded ctx initial d added)
    (hindex : index < d.upnSuffixCombo.texts.length) :
    HasAdded ctx initial (d.setCurrentIndex ctx index) added where
  texts := texts_setCurrentIndex.trans h.texts
  nodup := h.nodup
  disjoint := h.disjoint
  current := by rwa [currentIndex_setCurrentIndex, texts_setCurrentIndex]
  maxLength := by
    rw [UpnEdit.setCurrentIndex]
    split_ifs
    · exact h.maxLength
    · rfl

theorem currentText_setCurrentIndex {text : QString}
    (h : d.upnSuffixCombo.texts[index]? = some text) :
    (d.setCurrentIndex ctx index).upnSuffixCombo.currentText = text := by
  rw [QComboBox.currentText_eq, currentIndex_setCurrentIndex, texts_setCurrentIndex, h]
  rfl

/-- One more choice, unless it is there. -/
def addChoice (text : QString) (texts : List QString) : List QString :=
  if text ∈ texts then texts else texts ++ [text]

/-- Another suffix among the choices. -/
theorem HasAdded.addItem (h : HasAdded ctx initial d added)
    (hsuffix : suffix ∉ d.upnSuffixCombo.texts) :
    HasAdded ctx initial { d with upnSuffixCombo := d.upnSuffixCombo.addItem suffix () }
      (added ++ [suffix]) := by
  have hnew := hsuffix
  rw [h.texts, List.mem_append, not_or] at hnew
  have htexts : (d.upnSuffixCombo.addItem suffix ()).texts = d.upnSuffixCombo.texts ++ [suffix] :=
    QComboBox.texts_addItem
  constructor
  · rw [htexts, h.texts, List.append_assoc]
  · exact h.nodup.append (List.nodup_singleton suffix) (by simpa using hnew.2)
  · intro text htext
    rcases List.mem_append.1 htext with hmem | hmem
    · exact h.disjoint text hmem
    · exact List.mem_singleton.1 hmem ▸ hnew.1
  · rw [htexts, List.length_append]
    exact Nat.lt_add_right _ h.current
  · refine h.maxLength.trans (congrArg (prefixRangeUpper ctx) ?_)
    -- the current choice is one of the former ones
    rw [QComboBox.currentText_eq, QComboBox.currentText_eq, htexts]
    exact congrArg (·.getD []) (List.getElem?_append_left h.current).symm

/-- After a load, the suffix of the object is chosen, and is among the choices. -/
theorem HasAdded.upnSuffixComboLoad (h : HasAdded ctx initial d added) (suffix : QString) :
    (∃ added', HasAdded ctx initial (d.upnSuffixComboLoad ctx suffix) added') ∧
      (d.upnSuffixComboLoad ctx suffix).upnSuffixCombo.texts =
        addChoice suffix d.upnSuffixCombo.texts ∧
      (d.upnSuffixComboLoad ctx suffix).upnSuffixCombo.currentText = suffix := by
  by_cases hsuffix : suffix ∈ d.upnSuffixCombo.texts
  · obtain ⟨i, hi⟩ := QComboBox.exists_findText hsuffix
    -- the suffix is found, and its index becomes the current one
    have hget := QComboBox.getElem?_of_findText hi
    have hload : d.upnSuffixComboLoad ctx suffix = d.setCurrentIndex ctx i := by
      rw [UpnEdit.upnSuffixComboLoad, hi]
    rw [hload, addChoice, if_pos hsuffix]
    exact ⟨⟨added, h.setCurrentIndex (List.getElem?_eq_some_iff.1 hget).1⟩, texts_setCurrentIndex,
      currentText_setCurrentIndex hget⟩
  · have hadd := h.addItem hsuffix
    -- it is not found at first, and is found after it has been added
    have htexts : (d.upnSuffixCombo.addItem suffix ()).texts = d.upnSuffixCombo.texts ++ [suffix] :=
      QComboBox.texts_addItem
    obtain ⟨i, hi⟩ : ∃ i, (d.upnSuffixCombo.addItem suffix ()).findText suffix = some i :=
      QComboBox.exists_findText (by simp [htexts])
    have hget := QComboBox.getElem?_of_findText hi
    have hload : d.upnSuffixComboLoad ctx suffix = UpnEdit.setCurrentIndex ctx i
        { d with upnSuffixCombo := d.upnSuffixCombo.addItem suffix () } := by
      rw [UpnEdit.upnSuffixComboLoad, QComboBox.findText_eq_none hsuffix]
      simp only [hi]
    rw [hload, addChoice, if_neg hsuffix]
    exact ⟨⟨_, hadd.setCurrentIndex (List.getElem?_eq_some_iff.1 hget).1⟩,
      texts_setCurrentIndex.trans htexts, currentText_setCurrentIndex hget⟩

/-- The choices of a new edit. -/
def initialSuffixes (ctx : EditContext σ) (ad : AdConnection) : List QString :=
  (upnSuffixComboInit ctx ad).texts

variable {ad : AdConnection} {loading : Loading}

theorem hasAdded_new : HasAdded ctx (initialSuffixes ctx ad) (new ctx ad) [] where
  texts := (List.append_nil _).symm
  nodup := .nil
  disjoint _ h := nomatch h
  current := by
    -- the suffix of the domain is a choice
    have hpos : 0 < (upnSuffixComboInit ctx ad).items.length := by
      rw [upnSuffixComboInit]
      dsimp only
      rw [List.length_map]
      split_ifs with hmem
      · exact List.length_pos_of_mem hmem
      · simp
    rw [QComboBox.texts, List.length_map]
    exact hpos
  maxLength := rfl

theorem HasAdded.setText (h : HasAdded ctx initial d added) (text : QString) :
    HasAdded ctx initial { d with prefixEdit := d.prefixEdit.setText text } added :=
  ⟨h.texts, h.nodup, h.disjoint, h.current, h.maxLength⟩

theorem HasAdded.load (h : HasAdded ctx initial d added) (loading : Loading) :
    ∃ added', HasAdded ctx initial (d.load ctx loading) added' :=
  let ⟨added', hadded⟩ := (h.upnSuffixComboLoad (loading.object.getUpnSuffix ctx.g.rt)).1
  ⟨added', hadded.setText _⟩

theorem HasAdded.edit (h : HasAdded ctx initial d added) (e : Edit) :
    HasAdded ctx initial (d.edit ctx e) added := by
  cases e with
  | type text => exact h.setText text
  | choose index =>
    rw [UpnEdit.edit]
    split_ifs with hindex
    · exact h.setCurrentIndex (by rwa [QComboBox.texts, List.length_map])
    · exact h

/-- What is chosen and typed after a load, and with it what would be written, depends on the
    object only. -/
theorem HasAdded.shown_load (h : HasAdded ctx initial d added) (loading : Loading) :
    (d.load ctx loading).upnSuffixCombo.currentText = loading.object.getUpnSuffix ctx.g.rt ∧
      (d.load ctx loading).prefixEdit.text =
        cutText (prefixRangeUpper ctx (loading.object.getUpnSuffix ctx.g.rt))
          (loading.object.getUpnPrefix ctx.g.rt) := by
  obtain ⟨⟨added', hadded⟩, -, htext⟩ :=
    h.upnSuffixComboLoad (loading.object.getUpnSuffix ctx.g.rt)
  refine ⟨htext, ?_⟩
  rw [UpnEdit.load, QLineEdit.setText, hadded.maxLength, htext]

/-- One choice more does not tell apart the choices that have been added, but for itself. -/
theorem addChoice_append_iff (hnodup : added.Nodup) (hdisjoint : ∀ text ∈ added, text ∉ initial) :
    addChoice suffix (initial ++ added) = addChoice suffix initial ↔
      ∀ text ∈ added, text = suffix := by
  have hmem : suffix ∈ initial ++ added ↔ suffix ∈ initial ∨ suffix ∈ added := List.mem_append
  rw [addChoice, addChoice]
  by_cases hinitial : suffix ∈ initial
  · rw [if_pos (hmem.2 (.inl hinitial)), if_pos hinitial, List.append_right_eq_self,
      List.eq_nil_iff_forall_not_mem]
    -- none is added on either side, and nothing that has been added equals the suffix
    refine forall₂_congr fun text htext => iff_of_false id ?_
    exact fun h => hdisjoint text htext (h ▸ hinitial)
  · rw [if_neg hinitial]
    by_cases hadded : suffix ∈ added
    · rw [if_pos (hmem.2 (.inr hadded)), List.append_cancel_left_eq]
      -- it has been added before: alone, since nothing is added twice
      constructor
      · intro h text htext
        rw [h] at htext
        exact List.mem_singleton.1 htext
      · intro h
        have hreplicate : added = List.replicate added.length suffix := List.eq_replicate_of_mem h
        have hle : added.length ≤ 1 := by
          rw [hreplicate] at hnodup
          exact List.nodup_replicate.1 hnodup
        have hpos : 0 < added.length := List.length_pos_of_mem hadded
        rw [hreplicate, Nat.le_antisymm hle hpos]
        rfl
    · rw [if_neg fun h => (hmem.1 h).elim hinitial hadded, List.append_assoc,
        List.append_cancel_left_eq, List.append_left_eq_self, List.eq_nil_iff_forall_not_mem]
      -- it is added on both sides
      refine forall₂_congr fun text htext => iff_of_false id ?_
      exact fun h => hadded (h ▸ htext)

/-- No other suffix than that of the object has been added to the choices of the edit. -/
def Overwrites (ctx : EditContext σ) (ad : AdConnection) (d : UpnEdit) (loading : Loading) : Prop :=
  ∀ text ∈ d.upnSuffixCombo.texts,
    text ∈ initialSuffixes ctx ad ∨ text = loading.object.getUpnSuffix ctx.g.rt

/-- The suffixes that have been added show. -/
theorem HasAdded.overwrites_iff (h : HasAdded ctx (initialSuffixes ctx ad) d added) :
    Overwrites ctx ad d loading ↔ ∀ text ∈ added, text = loading.object.getUpnSuffix ctx.g.rt := by
  rw [Overwrites, h.texts]
  constructor
  · intro hall text htext
    exact (hall text (List.mem_append_right _ htext)).resolve_left (h.disjoint text htext)
  · intro hall text htext
    exact (List.mem_append.1 htext).imp id (hall text)

/-- Two edits with the same suffix and first part differ in the choices at most. -/
theorem view_eq_iff {d' : UpnEdit}
    (hcurrent : d.upnSuffixCombo.currentText = d'.upnSuffixCombo.currentText)
    (htext : d.prefixEdit.text = d'.prefixEdit.text) :
    (form ctx ad).view d = (form ctx ad).view d' ↔
      d.upnSuffixCombo.texts = d'.upnSuffixCombo.texts := by
  have happly : d.apply ctx = d'.apply ctx := by
    funext s dn
    rw [apply, apply, getNewValue, getNewValue, hcurrent, htext]
  simp only [form, Prod.mk.injEq, hcurrent, htext, happly, and_true]

/-- A load shows the object, and the choices that have been added. -/
theorem loadsWhen_form : (form ctx ad).LoadsWhen (Overwrites ctx ad) := by
  refine Form.loadsWhen_of_invariant
    (fun d : UpnEdit => ∃ added, HasAdded ctx (initialSuffixes ctx ad) d added)
    ⟨[], hasAdded_new⟩ (fun loading _ ⟨_, h⟩ => h.load loading)
    (fun e _ ⟨_, h⟩ => ⟨_, h.edit e⟩) fun d ⟨added, hadded⟩ loading => ?_
  have hnew : HasAdded ctx (initialSuffixes ctx ad) (new ctx ad) [] := hasAdded_new
  have hshown := hadded.shown_load loading
  have hshown' := hnew.shown_load loading
  -- only the choices are left, and both sides get one more
  rw [hadded.overwrites_iff, ← addChoice_append_iff hadded.nodup hadded.disjoint, ← hadded.texts]
  refine (view_eq_iff (hshown.1.trans hshown'.1.symm) (hshown.2.trans hshown'.2.symm)).trans ?_
  exact Eq.congr (hadded.upnSuffixComboLoad _).2.1 (hnew.upnSuffixComboLoad _).2.1

end UpnEdit

end

end Admc
