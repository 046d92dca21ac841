import Admc.Filter.Widget
import Admc.Lib.Run

/-!
# The filter of the console

The user chooses in a dialog whether the console shows all objects, those of some classes, or those
of a custom filter, which is edited in a filter dialog. What is accepted is in effect, and is stored
in the settings, with the state of the dialog.

The custom filter is not restored from the state of the filter dialog: it is the filter that has
been in effect last, whatever this was made of.

* `agrees_run_iff`: when the custom filter is the one that the filter dialog shows;
* `expresses_restoreState`: a dialog that is opened again shows what the last one did;
* `keeps_iff`: exactly which dialogs make what they show the filter in effect;
* `consoleFilter_iff`: in a run of such dialogs, and restarts, the filter in effect is always what
  the dialog shows.
-/

namespace Admc

open StateVariant (field)

/-! ## States by names -/

/-- What is stored for each of some things under its name is found there. -/
theorem field_map {α : Type} {name : α → String} (hname : name.Injective)
    (value : α → StateVariant) {l : List α} {a : α} (h : a ∈ l) :
    field (l.map fun a => (name a, value a)) (name a) = value a := by
  induction l with
  | nil => exact nomatch h
  | cons b l ih =>
    rw [List.map_cons, StateVariant.field, QHash.value, List.lookup_cons]
    split
    · rename_i heq
      rw [hname (eq_of_beq heq)]
      rfl
    · rename_i hne
      have hab : a ≠ b := fun hab => absurd hne (by rw [hab, BEq.rfl]; decide)
      exact ih ((List.mem_cons.1 h).resolve_left hab)

/-! ## The class boxes -/

/-- `ClassFilterWidget`, with a box for each class. -/
structure ClassFilterWidget (classList : List String) where
  checkboxMap : String → Bool

namespace ClassFilterWidget

variable {classList : List String} (w : ClassFilterWidget classList)

/-- `ClassFilterWidget::set_classes`. -/
def setClasses (selectedList : List String) : ClassFilterWidget classList :=
  ⟨fun objectClass => selectedList.contains objectClass⟩

/-- `ClassFilterWidget::get_filter`. -/
def getFilter : QString := getClassesFilter ((classList.filter w.checkboxMap).map String.toList)

/-- `ClassFilterWidget::save_state`. -/
def saveState : StateVariant :=
  .hash (classList.map fun objectClass => (objectClass, .bool (w.checkboxMap objectClass)))

/-- `ClassFilterWidget::restore_state`. -/
def restoreState (stateVariant : StateVariant) : ClassFilterWidget classList :=
  let state := stateVariant.toHash
  ⟨fun objectClass =>
    if state.contains objectClass then (field state objectClass).toBool else false⟩

/-- The boxes are restored. -/
theorem getFilter_restoreState :
    (restoreState w.saveState : ClassFilterWidget classList).getFilter = w.getFilter := by
  have hchecked : ∀ objectClass ∈ classList,
      (restoreState w.saveState : ClassFilterWidget classList).checkboxMap objectClass =
        w.checkboxMap objectClass := by
    intro objectClass hclass
    have hcontains : QHash.contains w.saveState.toHash objectClass = true := by
      rw [QHash.contains_iff, QHash.keys, saveState, StateVariant.toHash, List.map_map]
      exact List.mem_map_of_mem hclass
    have hfield : field w.saveState.toHash objectClass = .bool (w.checkboxMap objectClass) :=
      field_map Function.injective_id (fun objectClass => .bool (w.checkboxMap objectClass)) hclass
    exact (if_pos hcontains).trans (congrArg StateVariant.toBool hfield)
  rw [getFilter, getFilter, List.filter_congr hchecked]

end ClassFilterWidget

/-! ## The dialog -/

/-- The radio buttons, of which exactly one is checked. -/
inductive FilterButton
  | all
  | classes
  | custom
  deriving DecidableEq

/-- The name of the state of a button. -/
def FilterButton.stateName : FilterButton → String
  | all => "ALL_BUTTON_STATE"
  | classes => "CLASSES_BUTTON_STATE"
  | custom => "CUSTOM_BUTTON_STATE"

/-- The keys of `button_state_name_map`, in the order in which they are iterated, which the code
    does not control. -/
structure ButtonStateNames where
  keys : List FilterButton
  mem_keys : ∀ button, button ∈ keys

/-- `QAbstractButton::setChecked`, of a button in an exclusive group: the button that is checked
    cannot be unchecked. -/
def FilterButton.setChecked (button checkedButton : FilterButton) (checked : Bool) : FilterButton :=
  if checked then button else checkedButton

/-- The classes of the boxes in the dialog. -/
def classListForWidget : List String :=
  ["user", "group", "contact", "computer", "printQueue", "volume"]

/-- `ConsoleFilterDialog`. -/
structure ConsoleFilterDialog where
  checkedButton : FilterButton
  classFilterWidget : ClassFilterWidget classListForWidget
  customFilter : QString
  filterDialogState : StateVariant

/-- A `FilterDialog`, with its filter widget. -/
def filterDialog (classList selectedList : List QString) : FilterWidget :=
  FilterWidget.new.setClasses classList selectedList

/-- What the user does in the dialog: a button is checked, a box is checked or not, or a filter
    dialog is accepted. -/
inductive ConsoleFilterChange
  | check (button : FilterButton)
  | setClass (objectClass : String) (checked : Bool)
  | custom (dialog : FilterWidget)

namespace ConsoleFilterDialog

variable (names : ButtonStateNames) (d : ConsoleFilterDialog)

/-- `ConsoleFilterDialog::ConsoleFilterDialog`, with the filter that is stored. -/
def new (objectFilter : QString) : ConsoleFilterDialog where
  checkedButton := .all
  classFilterWidget := .setClasses classListForWidget
  customFilter := objectFilter
  filterDialogState := .invalid

/-- `ConsoleFilterDialog::get_filter_enabled`. -/
def getFilterEnabled : Bool := d.checkedButton ≠ .all

/-- `ConsoleFilterDialog::get_filter`. -/
def getFilter : QString :=
  match d.checkedButton with
  | .all => "(objectClass=*)".toList
  | .classes => d.classFilterWidget.getFilter
  | .custom => d.customFilter

/-- `ConsoleFilterDialog::save_state`. -/
def saveState : StateVariant :=
  .hash (("FILTER_CUSTOM_DIALOG_STATE", d.filterDialogState) ::
    ("FILTER_CLASSES_STATE", d.classFilterWidget.saveState) ::
    names.keys.map fun button => (button.stateName, .bool (d.checkedButton = button)))

/-- `ConsoleFilterDialog::restore_state`. -/
def restoreState (stateVariant : StateVariant) : ConsoleFilterDialog :=
  let state := stateVariant.toHash
  { d with
    filterDialogState := field state "FILTER_CUSTOM_DIALOG_STATE"
    classFilterWidget := .restoreState (field state "FILTER_CLASSES_STATE")
    checkedButton := names.keys.foldl (fun checkedButton button =>
      button.setChecked checkedButton (field state button.stateName).toBool) d.checkedButton }

/-- `ConsoleFilterDialog::open_custom_dialog`, where the dialog is accepted. -/
def openCustomDialog (dialog : FilterWidget) : ConsoleFilterDialog :=
  { d with filterDialogState := dialog.saveState, customFilter := dialog.getFilter }

/-- The effect of a change: the boxes, and the button for the filter dialog, are disabled unless
    their radio button is checked. -/
def change : ConsoleFilterChange → ConsoleFilterDialog
  | .check button => { d with checkedButton := button }
  | .setClass objectClass checked =>
    if d.checkedButton = .classes then
      { d with classFilterWidget :=
          ⟨Function.update d.classFilterWidget.checkboxMap objectClass checked⟩ }
    else d
  | .custom dialog => if d.checkedButton = .custom then d.openCustomDialog dialog else d

/-- The dialog after some changes. -/
def run (changes : List ConsoleFilterChange) : ConsoleFilterDialog := changes.foldl change d

/-- A filter dialog is accepted among some changes. -/
def Customizes (changes : List ConsoleFilterChange) : Prop :=
  ∃ before dialog after, changes = before ++ .custom dialog :: after ∧
    (d.run before).checkedButton = .custom

end ConsoleFilterDialog

/-! ## The console -/

/-- The settings of the filter. -/
structure ConsoleFilterSettings where
  objectFilter : QString
  objectFilterEnabled : Bool
  consoleFilterDialogState : StateVariant

/-- The filter in effect, in `ObjectImpl`, and the settings. -/
structure ConsoleFilter where
  objectFilter : QString
  objectFilterEnabled : Bool
  settings : ConsoleFilterSettings

/-- What happens: the dialog is opened, changed, and accepted or not; or the program restarts. -/
inductive ConsoleFilterEvent
  | dialog (changes : List ConsoleFilterChange) (accepted : Bool)
  | restart

namespace ConsoleFilter

variable (names : ButtonStateNames) (s : ConsoleFilter)

/-- `ObjectImpl::setup_filters`, when the program starts. -/
def setupFilters (settings : ConsoleFilterSettings) : ConsoleFilter where
  objectFilter := settings.objectFilter
  objectFilterEnabled := settings.objectFilterEnabled
  settings := settings

/-- The program starts with the defaults of the settings. -/
def Starts : Prop := s = setupFilters ⟨[], false, .invalid⟩

/-- The dialog that `ObjectImpl::open_console_filter_dialog` opens. -/
def openDialog : ConsoleFilterDialog :=
  (ConsoleFilterDialog.new s.settings.objectFilter).restoreState names
    s.settings.consoleFilterDialogState

/-- The handler of `ObjectImpl::open_console_filter_dialog`, when the dialog is accepted. -/
def accepted (d : ConsoleFilterDialog) : ConsoleFilter where
  objectFilter := d.getFilter
  objectFilterEnabled := d.getFilterEnabled
  settings := ⟨d.getFilter, d.getFilterEnabled, d.saveState names⟩

/-- The effect of an event. -/
def handle : ConsoleFilterEvent → ConsoleFilter
  | .dialog changes true => accepted names ((s.openDialog names).run changes)
  | .dialog _ false => s
  | .restart => setupFilters s.settings

end ConsoleFilter

/-! ## What the dialog shows -/

section
variable (noncontainerClasses : List QString)

/-- The filter of a filter dialog that is restored, unless a list is read outside its bounds. -/
def restoredFilter (filterDialogState : StateVariant) : Option QString :=
  ((filterDialog noncontainerClasses noncontainerClasses).restoreState filterDialogState).map
    FilterWidget.getFilter

namespace ConsoleFilterDialog

variable (names : ButtonStateNames) (d : ConsoleFilterDialog)

/-- A filter, enabled or not, is what the dialog shows: all objects, the classes that are checked,
    or what the filter dialog has. -/
def Expresses (objectFilter : QString) (objectFilterEnabled : Bool) : Prop :=
  match d.checkedButton with
  | .all => objectFilterEnabled = false
  | .classes => objectFilterEnabled = true ∧ objectFilter = d.classFilterWidget.getFilter
  | .custom => objectFilterEnabled = true ∧
      restoredFilter noncontainerClasses d.filterDialogState = some objectFilter

/-- The custom filter is what the filter dialog has. -/
def Agrees : Prop :=
  restoredFilter noncontainerClasses d.filterDialogState = some d.customFilter

variable {noncontainerClasses names d} {changes : List ConsoleFilterChange}
  {objectFilter : QString} {objectFilterEnabled : Bool}

theorem restoredFilter_saveState (dialog : FilterWidget) :
    restoredFilter noncontainerClasses dialog.saveState = some dialog.getFilter := by
  obtain ⟨restored, hrestored, hfilter, hindex⟩ :=
    dialog.restores_saveState (filterDialog noncontainerClasses noncontainerClasses)
  have hsame : restored.getFilter = dialog.getFilter :=
    calc restored.getFilter
      _ = { restored with currentIndex := dialog.currentIndex }.getFilter := by rw [← hindex]
      _ = dialog.getFilter := hfilter dialog.currentIndex
  rw [restoredFilter, hrestored, Option.map_some, hsame]

/-- One change makes the custom filter that of the filter dialog, or leaves both. -/
theorem agrees_change_iff {c : ConsoleFilterChange} :
    (d.change c).Agrees noncontainerClasses ↔
      (∃ dialog, c = .custom dialog ∧ d.checkedButton = .custom) ∨
        d.Agrees noncontainerClasses := by
  cases c with
  | check button => exact (or_iff_right fun ⟨_, h, _⟩ => nomatch h).symm
  | setClass objectClass checked =>
    rw [change]
    refine Iff.trans ?_ (or_iff_right fun ⟨_, h, _⟩ => nomatch h).symm
    split_ifs <;> exact Iff.rfl
  | custom dialog =>
    rw [change]
    split_ifs with hbutton
    · exact iff_of_true (restoredFilter_saveState dialog) (.inl ⟨dialog, rfl, hbutton⟩)
    · exact (or_iff_right fun ⟨_, _, h⟩ => hbutton h).symm

theorem customizes_cons {c : ConsoleFilterChange} :
    d.Customizes (c :: changes) ↔
      (∃ dialog, c = .custom dialog ∧ d.checkedButton = .custom) ∨
        (d.change c).Customizes changes := by
  constructor
  · rintro ⟨before, dialog, after, hchanges, hbutton⟩
    cases before with
    | nil =>
      obtain ⟨rfl, rfl⟩ := List.cons_eq_cons.1 hchanges
      exact .inl ⟨dialog, rfl, hbutton⟩
    | cons c' before =>
      obtain ⟨rfl, rfl⟩ := List.cons_eq_cons.1 hchanges
      exact .inr ⟨before, dialog, after, rfl, hbutton⟩
  · rintro (⟨dialog, rfl, hbutton⟩ | ⟨before, dialog, after, rfl, hbutton⟩)
    · exact ⟨[], dialog, changes, rfl, hbutton⟩
    · exact ⟨c :: before, dialog, after, rfl, hbutton⟩

/-- The custom filter is the one of the filter dialog exactly if that has been accepted, or it was
    so before. -/
theorem agrees_run_iff : (d.run changes).Agrees noncontainerClasses ↔
    d.Customizes changes ∨ d.Agrees noncontainerClasses := by
  induction changes generalizing d with
  | nil =>
    refine (or_iff_right ?_).symm
    rintro ⟨before, dialog, after, hchanges, -⟩
    exact absurd hchanges.symm (by simp)
  | cons c changes ih =>
    rw [customizes_cons, or_right_comm, ← agrees_change_iff, or_comm]
    exact ih

/-- What is accepted is what the dialog shows, unless this is another custom filter. -/
theorem expresses_getFilter_iff :
    d.Expresses noncontainerClasses d.getFilter d.getFilterEnabled ↔
      (d.checkedButton = .custom → d.Agrees noncontainerClasses) := by
  rw [Expresses, getFilter, getFilterEnabled]
  cases hbutton : d.checkedButton with
  | all => exact iff_of_true rfl nofun
  | classes => exact iff_of_true ⟨rfl, rfl⟩ nofun
  | custom => exact ⟨fun h _ => h.2, fun h => ⟨rfl, h rfl⟩⟩

theorem stateName_injective : FilterButton.stateName.Injective := by
  intro button button' h
  cases button <;> cases button' <;> first | rfl | exact absurd h (by decide)

/-- Only the button that was checked is checked again. -/
theorem foldl_setChecked {keys : List FilterButton} {checked : FilterButton → Bool}
    {button start : FilterButton} (hchecked : ∀ other, checked other = decide (button = other))
    (h : button ∈ keys ∨ start = button) :
    keys.foldl (fun checkedButton other => other.setChecked checkedButton (checked other)) start =
      button := by
  induction keys generalizing start with
  | nil => exact h.resolve_left List.not_mem_nil
  | cons other keys ih =>
    rw [List.foldl_cons, hchecked, FilterButton.setChecked]
    by_cases hother : button = other
    · rw [if_pos (decide_eq_true hother)]
      exact ih (.inr hother.symm)
    · rw [if_neg (by simpa using hother)]
      exact ih (h.imp_left fun hmem => (List.mem_cons.1 hmem).resolve_left hother)

/-- A dialog that is opened again shows what the last one did. -/
theorem expresses_restoreState {other : ConsoleFilterDialog} :
    (other.restoreState names (d.saveState names)).Expresses noncontainerClasses objectFilter
      objectFilterEnabled ↔ d.Expresses noncontainerClasses objectFilter objectFilterEnabled := by
  have hchecked : ∀ button, (field (d.saveState names).toHash button.stateName).toBool =
      decide (d.checkedButton = button) := by
    intro button
    have hfield := field_map stateName_injective
      (fun button => .bool (decide (d.checkedButton = button))) (names.mem_keys button)
    cases button <;> exact congrArg StateVariant.toBool hfield
  have hbutton : (other.restoreState names (d.saveState names)).checkedButton = d.checkedButton :=
    foldl_setChecked hchecked (.inl (names.mem_keys _))
  have hclasses : (other.restoreState names (d.saveState names)).classFilterWidget.getFilter =
      d.classFilterWidget.getFilter := d.classFilterWidget.getFilter_restoreState
  rw [Expresses, Expresses, hbutton, hclasses]
  rfl

end ConsoleFilterDialog

/-! ## The filter in effect -/

namespace ConsoleFilter

variable (names : ButtonStateNames) (s : ConsoleFilter)

/-- A dialog that is accepted shows the filter that is then in effect, and otherwise the filter in
    effect stays. -/
def Keeps (event : ConsoleFilterEvent) : Prop :=
  let s' := s.handle names event
  match event with
  | .dialog changes true => ((s.openDialog names).run changes).Expresses noncontainerClasses
      s'.objectFilter s'.objectFilterEnabled
  | .dialog _ false | .restart =>
    s'.objectFilter = s.objectFilter ∧ s'.objectFilterEnabled = s.objectFilterEnabled

/-- A dialog is only accepted with a custom filter if the filter dialog has been accepted in it, or
    the filter that is stored is that of the filter dialog. -/
def Meets : ConsoleFilterEvent → Prop
  | .dialog changes true => ((s.openDialog names).run changes).checkedButton = .custom →
      (s.openDialog names).Customizes changes ∨
        restoredFilter noncontainerClasses
          (field s.settings.consoleFilterDialogState.toHash "FILTER_CUSTOM_DIALOG_STATE") =
            some s.settings.objectFilter
  | .dialog _ false | .restart => True

/-- The filter that is stored is in effect. -/
structure Stored : Prop where
  objectFilter : s.objectFilter = s.settings.objectFilter
  objectFilterEnabled : s.objectFilterEnabled = s.settings.objectFilterEnabled

/-- The dialog, when it is opened, shows the filter in effect. -/
def Shows : Prop :=
  (s.openDialog names).Expresses noncontainerClasses s.objectFilter s.objectFilterEnabled

/-- The invariant: the filter in effect is stored, and is what the dialog shows. -/
structure Coherent : Prop where
  stored : s.Stored
  shows : s.Shows noncontainerClasses names

variable {noncontainerClasses names s} {event : ConsoleFilterEvent}

theorem Stored.handle (h : s.Stored) : (s.handle names event).Stored := by
  match event with
  | .dialog changes true => exact ⟨rfl, rfl⟩
  | .dialog changes false => exact h
  | .restart => exact ⟨rfl, rfl⟩

theorem Starts.stored (h : s.Starts) : s.Stored := by
  rw [h]
  exact ⟨rfl, rfl⟩

theorem stored_of_run (h : Run Starts (fun _ _ => True) (handle names) s) : s.Stored :=
  h.invariant (fun _ hstarts => hstarts.stored) fun _ _ hstored _ => hstored.handle

/-- Exactly which events keep what is shown in effect. -/
theorem keeps_iff (h : s.Stored) :
    s.Keeps noncontainerClasses names event ↔ s.Meets noncontainerClasses names event := by
  match event with
  | .dialog changes true =>
    exact ConsoleFilterDialog.expresses_getFilter_iff.trans
      (imp_congr_right fun _ => ConsoleFilterDialog.agrees_run_iff)
  | .dialog changes false => exact iff_of_true ⟨rfl, rfl⟩ trivial
  | .restart =>
    exact iff_of_true ⟨h.objectFilter.symm, h.objectFilterEnabled.symm⟩ trivial

/-- At first all objects are shown. -/
theorem Starts.shows (h : s.Starts) : s.Shows noncontainerClasses names := by
  have hbutton : (s.openDialog names).checkedButton = .all := by
    rw [h]
    exact List.foldl_fixed names.keys
  rw [Shows, ConsoleFilterDialog.Expresses, hbutton, h]
  rfl

theorem Coherent.handle (h : s.Coherent noncontainerClasses names)
    (hmeets : s.Meets noncontainerClasses names event) :
    (s.handle names event).Coherent noncontainerClasses names := by
  refine ⟨h.stored.handle, ?_⟩
  match event with
  | .dialog changes true =>
    exact ConsoleFilterDialog.expresses_restoreState.2 ((keeps_iff h.stored).2 hmeets)
  | .dialog changes false => exact h.shows
  | .restart =>
    have hshows := h.shows
    rw [Shows, h.stored.objectFilter, h.stored.objectFilterEnabled] at hshows
    exact hshows

theorem coherent_of_run (h : Run Starts (Meets noncontainerClasses names) (handle names) s) :
    s.Coherent noncontainerClasses names :=
  h.invariant (fun _ hstarts => ⟨hstarts.stored, hstarts.shows⟩) fun _ _ hcoherent hmeets =>
    hcoherent.handle hmeets

end ConsoleFilter

end

/-- In any run, exactly the events that meet the condition keep what is shown in effect; and where
    all events do, the dialog always shows the filter in effect. -/
theorem consoleFilter_iff (names : ButtonStateNames) (noncontainerClasses : List QString) :
    (∀ s, Run ConsoleFilter.Starts (fun _ _ => True) (ConsoleFilter.handle names) s →
      ∀ event, s.Keeps noncontainerClasses names event ↔ s.Meets noncontainerClasses names event) ∧
    ∀ s, Run ConsoleFilter.Starts (ConsoleFilter.Meets noncontainerClasses names)
      (ConsoleFilter.handle names) s → s.Shows noncontainerClasses names :=
  ⟨fun _ hrun _ => ConsoleFilter.keeps_iff (ConsoleFilter.stored_of_run hrun),
    fun _ hrun => (ConsoleFilter.coherent_of_run hrun).shows⟩

/-- The buttons, from the first one on. -/
def buttonsInOrder : ButtonStateNames :=
  ⟨[.all, .classes, .custom], fun button => by cases button <;> decide⟩

/-- The state in which the program starts for the first time. -/
def firstStart : ConsoleFilter := ConsoleFilter.setupFilters ⟨[], false, .invalid⟩

/-- A custom filter is accepted in the first dialog. -/
theorem consoleFilter_iff_custom :
    (firstStart.handle buttonsInOrder (.dialog [.check .custom, .custom .new] true)).Shows []
      buttonsInOrder := by
  refine (consoleFilter_iff buttonsInOrder []).2 _ (.next (.start rfl) fun _ => .inl ?_)
  exact ⟨[.check .custom], .new, [], rfl, rfl⟩

/-- After the filter for classes, a custom filter may be accepted that no filter dialog has. -/
theorem not_consoleFilter :
    ¬∀ (names : ButtonStateNames) (noncontainerClasses : List QString) (s : ConsoleFilter),
      Run ConsoleFilter.Starts (fun _ _ => True) (ConsoleFilter.handle names) s →
      ∀ event, s.Keeps noncontainerClasses names event := by
  intro h
  have hrun : Run ConsoleFilter.Starts (fun _ _ => True) (ConsoleFilter.handle buttonsInOrder)
      (firstStart.handle buttonsInOrder (.dialog [.check .classes, .setClass "user" true] true)) :=
    .next (.start rfl) trivial
  have hkeeps := h buttonsInOrder [] _ hrun (.dialog [.check .custom] true)
  rw [ConsoleFilter.keeps_iff (ConsoleFilter.stored_of_run hrun)] at hkeeps
  obtain ⟨before, dialog, after, hchanges, -⟩ | hstored := hkeeps rfl
  · have hmem : .custom dialog ∈ [ConsoleFilterChange.check .custom] := by
      rw [hchanges]
      exact List.mem_append_right before List.mem_cons_self
    exact nomatch List.mem_singleton.1 hmem
  · exact absurd hstored (by decide)

end Admc
