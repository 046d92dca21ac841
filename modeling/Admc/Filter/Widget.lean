import Admc.Filter.Variant
import Admc.Interface.SearchCondition
import Admc.Lib.Guarded
import Admc.Properties.TextEdits

/-!
# Filter widgets

A filter is edited on three tabs: by a name and classes, by conditions and classes, or as a text.
The widget saves the states of all tabs, and which tab is the current one.

* `restores_saveState`: another widget that restores a saved state has the same filters;
* `guarded_restoreFilters`: the conditions are restored from two lists, of their texts and of their
  filters, and the second one is read as far as the first one goes;
* `filterWidget_iff`: so exactly the states whose second list is long enough are read within bounds.
-/

namespace Admc

open StateVariant (field)

/-! ## Classes -/

/-- `get_classes_filter`. -/
def getClassesFilter (classList : List QString) : QString :=
  filterOr (classList.map (filterCondition .equals "objectClass".toList))

/-- `string_list_to_variant_list`. -/
def stringListToVariantList (stringList : List QString) : List StateVariant :=
  stringList.map .string

/-- `variant_list_to_string_list`. -/
def variantListToStringList (variantList : List StateVariant) : List QString :=
  variantList.map StateVariant.toString

/-- `SelectClassesWidget`. -/
structure SelectClassesWidget where
  classList : List QString
  selectedList : List QString
  allIsChecked : Bool

namespace SelectClassesWidget

variable (w w' : SelectClassesWidget)

/-- `SelectClassesWidget::SelectClassesWidget`. -/
def new : SelectClassesWidget := ⟨[], [], false⟩

/-- `SelectClassesWidget::set_classes`. -/
def setClasses (classList selectedList : List QString) : SelectClassesWidget :=
  { w with classList, selectedList }

/-- `SelectClassesWidget::get_filter`. -/
def getFilter : QString := if w.allIsChecked then [] else getClassesFilter w.selectedList

/-- `SelectClassesWidget::save_state`. -/
def saveState : StateVariant :=
  .hash [("selected_list", .list (stringListToVariantList w.selectedList)),
    ("m_all_is_checked", .bool w.allIsChecked)]

/-- `SelectClassesWidget::restore_state`. -/
def restoreState (stateVariant : StateVariant) : SelectClassesWidget :=
  let state := stateVariant.toHash
  { w with
    selectedList := variantListToStringList (field state "selected_list").toList
    allIsChecked := (field state "m_all_is_checked").toBool }

theorem restoreState_saveState :
    w'.restoreState w.saveState = { w with classList := w'.classList } := by
  have hlist : variantListToStringList (stringListToVariantList w.selectedList) =
      w.selectedList := by
    rw [variantListToStringList, stringListToVariantList, List.map_map]
    exact List.map_id w.selectedList
  exact congrArg (fun selectedList => { w with classList := w'.classList, selectedList }) hlist

theorem getFilter_restoreState : (w'.restoreState w.saveState).getFilter = w.getFilter := by
  rw [restoreState_saveState]
  rfl

end SelectClassesWidget

/-! ## The simple tab -/

/-- `FilterWidgetSimpleTab`, where the name is in a line edit without a limit of its own. -/
structure FilterWidgetSimpleTab where
  selectClassesWidget : SelectClassesWidget
  nameEdit : QLineEdit
  nameEdit_eq : QLineEdit.new.setText nameEdit.text = nameEdit

namespace FilterWidgetSimpleTab

variable (tab tab' : FilterWidgetSimpleTab)

/-- `FilterWidgetSimpleTab::FilterWidgetSimpleTab`. -/
def new : FilterWidgetSimpleTab := ⟨.new, .new, rfl⟩

/-- `FilterWidgetSimpleTab::set_classes`. -/
def setClasses (classList selectedList : List QString) : FilterWidgetSimpleTab :=
  { tab with selectClassesWidget := tab.selectClassesWidget.setClasses classList selectedList }

/-- The filter for a name in `FilterWidgetSimpleTab::get_filter`. -/
def nameFilter (name : QString) : QString :=
  if name ≠ [] then
    filterOr [filterCondition .contains "name".toList name,
      filterCondition .contains "sAMAccountName".toList name]
  else []

/-- `FilterWidgetSimpleTab::get_filter`. -/
def getFilter : QString :=
  filterAnd [nameFilter tab.nameEdit.text, tab.selectClassesWidget.getFilter]

/-- `FilterWidgetSimpleTab::save_state`. -/
def saveState : StateVariant :=
  .hash [("select_classes_widget", tab.selectClassesWidget.saveState),
    ("name", .string tab.nameEdit.text)]

/-- `FilterWidgetSimpleTab::restore_state`. -/
def restoreState (stateVariant : StateVariant) : FilterWidgetSimpleTab :=
  let state := stateVariant.toHash
  { selectClassesWidget :=
      tab.selectClassesWidget.restoreState (field state "select_classes_widget")
    nameEdit := QLineEdit.new.setText (field state "name").toString
    nameEdit_eq := QLineEdit.setText_setText _ }

theorem getFilter_restoreState : (tab'.restoreState tab.saveState).getFilter = tab.getFilter := by
  have hname : (tab'.restoreState tab.saveState).nameEdit = tab.nameEdit := tab.nameEdit_eq
  have hclasses : (tab'.restoreState tab.saveState).selectClassesWidget.getFilter =
      tab.selectClassesWidget.getFilter := SelectClassesWidget.getFilter_restoreState _ _
  rw [getFilter, getFilter, hname, hclasses]

end FilterWidgetSimpleTab

/-! ## The normal tab -/

/-- `FilterWidgetNormalTab`, with the texts and the filters of the conditions. -/
structure FilterWidgetNormalTab where
  selectClassesWidget : SelectClassesWidget
  filterList : List (QString × QString)

namespace FilterWidgetNormalTab

variable (tab tab' : FilterWidgetNormalTab) (stateVariant : StateVariant)

/-- `FilterWidgetNormalTab::FilterWidgetNormalTab`. -/
def new : FilterWidgetNormalTab := ⟨.new, []⟩

/-- `FilterWidgetNormalTab::set_classes`. -/
def setClasses (classList selectedList : List QString) : FilterWidgetNormalTab :=
  { tab with selectClassesWidget := tab.selectClassesWidget.setClasses classList selectedList }

/-- `FilterWidgetNormalTab::get_filter`. -/
def getFilter : QString :=
  let attributeFilter := filterAnd (tab.filterList.map Prod.snd)
  let classFilter := tab.selectClassesWidget.getFilter
  let classes := classFilter ≠ []
  let attributes := attributeFilter ≠ []
  if classes ∧ attributes then filterAnd [classFilter, attributeFilter]
  else if ¬classes ∧ attributes then attributeFilter
  else if classes ∧ ¬attributes then classFilter
  else []

/-- `FilterWidgetNormalTab::save_state`. -/
def saveState : StateVariant :=
  .hash [("select_classes_widget", tab.selectClassesWidget.saveState),
    ("filter_display_list", .stringList (tab.filterList.map Prod.fst)),
    ("filter_value_list", .stringList (tab.filterList.map Prod.snd))]

/-- The texts of the conditions in a state. -/
def filterDisplayList : List QString :=
  (field stateVariant.toHash "filter_display_list").toStringList

/-- The filters of the conditions in a state. -/
def filterValueList : List QString :=
  (field stateVariant.toHash "filter_value_list").toStringList

/-- The loop of `FilterWidgetNormalTab::restore_state`, unless it reads a list outside its
    bounds. -/
def restoreFilters (filterDisplayList filterValueList : List QString) :
    Option (List (QString × QString)) :=
  (List.range filterDisplayList.length).mapM fun i => do
    let filterDisplay ← filterDisplayList[i]?
    let filterValue ← filterValueList[i]?
    return (filterDisplay, filterValue)

/-- `FilterWidgetNormalTab::restore_state`, unless it reads a list outside its bounds. -/
def restoreState : Option FilterWidgetNormalTab := do
  let selectClassesWidget := tab.selectClassesWidget.restoreState
    (field stateVariant.toHash "select_classes_widget")
  let filterList ← restoreFilters (filterDisplayList stateVariant) (filterValueList stateVariant)
  return { selectClassesWidget, filterList }

theorem guarded_restoreFilters (displays values : List QString) :
    Guarded (restoreFilters displays values) (displays.length ≤ values.length)
      ((List.range displays.length).map fun i => (displays.getD i [], values.getD i [])) := by
  refine Guarded.congr (Guarded.mapM fun i _ => Guarded.bind (Guarded.getElem? displays i [])
    fun _ => Guarded.bind (Guarded.getElem? values i []) fun _ => Guarded.pure _) ?_
  simp only [List.mem_range, and_true]
  constructor
  · intro h
    by_contra hlt
    exact absurd (h values.length (Nat.lt_of_not_le hlt)).2 (lt_irrefl _)
  · exact fun h i hi => ⟨hi, hi.trans_le h⟩

/-- The state of a tab is restored exactly when it has a filter for each text. -/
theorem isSome_restoreState : (tab.restoreState stateVariant).isSome = true ↔
    (filterDisplayList stateVariant).length ≤ (filterValueList stateVariant).length := by
  have hfilters := guarded_restoreFilters (filterDisplayList stateVariant)
    (filterValueList stateVariant)
  have hstate : Guarded (tab.restoreState stateVariant) _ _ :=
    hfilters.bind fun _ => Guarded.pure _
  rw [hstate.isSome_iff, and_true]

/-- The lists of some conditions are read back. -/
theorem restoreFilters_map (filterList : List (QString × QString)) :
    restoreFilters (filterList.map Prod.fst) (filterList.map Prod.snd) = some filterList := by
  rw [(guarded_restoreFilters _ _).eq_some (by rw [List.length_map, List.length_map])]
  congr 1
  refine List.ext_getElem (by simp) fun i hi hi' => ?_
  simp [List.getD_eq_getElem?_getD, hi']

theorem restoreState_saveState :
    tab'.restoreState tab.saveState = some
      { tab with selectClassesWidget :=
          tab'.selectClassesWidget.restoreState tab.selectClassesWidget.saveState } := by
  have hlists : restoreFilters (filterDisplayList tab.saveState) (filterValueList tab.saveState) =
      some tab.filterList := restoreFilters_map tab.filterList
  rw [restoreState, hlists]
  rfl

/-- How the filter is made of the filters of the classes and of the conditions. -/
theorem getFilter_congr (hclasses : tab.selectClassesWidget.getFilter =
    tab'.selectClassesWidget.getFilter) (hlist : tab.filterList = tab'.filterList) :
    tab.getFilter = tab'.getFilter := by
  rw [getFilter, getFilter, hclasses, hlist]

end FilterWidgetNormalTab

/-! ## The advanced tab -/

/-- `FilterWidgetAdvancedTab`. -/
structure FilterWidgetAdvancedTab where
  ldapFilterEdit : QTextEdit

namespace FilterWidgetAdvancedTab

variable (tab : FilterWidgetAdvancedTab)

/-- `FilterWidgetAdvancedTab::FilterWidgetAdvancedTab`. -/
def new : FilterWidgetAdvancedTab := ⟨.setPlainText []⟩

/-- `FilterWidgetAdvancedTab::get_filter`. -/
def getFilter : QString := tab.ldapFilterEdit.text

/-- `FilterWidgetAdvancedTab::save_state`. -/
def saveState : StateVariant := .string tab.ldapFilterEdit.text

/-- `FilterWidgetAdvancedTab::restore_state`. -/
def restoreState (stateVariant : StateVariant) : FilterWidgetAdvancedTab :=
  ⟨.setPlainText stateVariant.toString⟩

theorem restoreState_saveState : restoreState tab.saveState = tab :=
  congrArg mk tab.ldapFilterEdit.setPlainText_text

end FilterWidgetAdvancedTab

/-! ## All tabs -/

/-- `FilterWidget`. -/
structure FilterWidget where
  currentIndex : Fin 3
  simpleTab : FilterWidgetSimpleTab
  normalTab : FilterWidgetNormalTab
  advancedTab : FilterWidgetAdvancedTab

namespace FilterWidget

variable (w w' : FilterWidget) (stateVariant : StateVariant)

/-- `FilterWidget::FilterWidget`. -/
def new : FilterWidget := ⟨0, .new, .new, .new⟩

/-- `FilterWidget::set_classes`. -/
def setClasses (classList selectedList : List QString) : FilterWidget :=
  { w with
    simpleTab := w.simpleTab.setClasses classList selectedList
    normalTab := w.normalTab.setClasses classList selectedList }

/-- `QTabWidget::setCurrentIndex`, of three tabs: another index changes nothing. -/
def setCurrentIndex (currentIndex : Fin 3) (index : ℤ) : Fin 3 :=
  if h : 0 ≤ index ∧ index < 3 then ⟨index.toNat, by omega⟩ else currentIndex

/-- `FilterWidget::get_filter`. -/
def getFilter : QString :=
  match w.currentIndex with
  | 0 => w.simpleTab.getFilter
  | 1 => w.normalTab.getFilter
  | 2 => w.advancedTab.getFilter

/-- `FilterWidget::save_state`. -/
def saveState : StateVariant :=
  .hash [("current_tab_index", .int w.currentIndex), ("simple_state", w.simpleTab.saveState),
    ("normal_state", w.normalTab.saveState), ("advanced_state", w.advancedTab.saveState)]

/-- `FilterWidget::restore_state`, unless it reads a list outside its bounds. -/
def restoreState : Option FilterWidget := do
  let state := stateVariant.toHash
  let currentIndex := setCurrentIndex w.currentIndex (field state "current_tab_index").toInt
  let simpleTab := w.simpleTab.restoreState (field state "simple_state")
  let normalTab ← w.normalTab.restoreState (field state "normal_state")
  let advancedTab := FilterWidgetAdvancedTab.restoreState (field state "advanced_state")
  return { currentIndex, simpleTab, normalTab, advancedTab }

/-- `w'` restores the state that `w` saves, and then has the same filter on each tab, and the same
    current tab. -/
def Restores : Prop :=
  ∃ restored, w'.restoreState w.saveState = some restored ∧
    (∀ tab, { restored with currentIndex := tab }.getFilter =
      { w with currentIndex := tab }.getFilter) ∧
    restored.currentIndex = w.currentIndex

theorem setCurrentIndex_coe (currentIndex tab : Fin 3) :
    setCurrentIndex currentIndex (tab : ℕ) = tab :=
  dif_pos ⟨Int.natCast_nonneg _, Int.ofNat_lt.2 tab.isLt⟩

/-- What is saved is restored, by any widget. -/
theorem restores_saveState : Restores w w' := by
  have hnormal := w.normalTab.restoreState_saveState w'.normalTab
  refine ⟨_, congrArg (· >>= _) hnormal, fun tab => ?_, setCurrentIndex_coe _ w.currentIndex⟩
  match tab with
  | 0 => exact w.simpleTab.getFilter_restoreState w'.simpleTab
  | 1 =>
    exact FilterWidgetNormalTab.getFilter_congr _ _
      (w.normalTab.selectClassesWidget.getFilter_restoreState _) rfl
  | 2 => exact congrArg FilterWidgetAdvancedTab.getFilter w.advancedTab.restoreState_saveState

/-- The lists of the conditions in a state. -/
def normalState : StateVariant := field stateVariant.toHash "normal_state"

theorem isSome_restoreState : (w.restoreState stateVariant).isSome = true ↔
    (FilterWidgetNormalTab.filterDisplayList (normalState stateVariant)).length ≤
      (FilterWidgetNormalTab.filterValueList (normalState stateVariant)).length := by
  rw [← w.normalTab.isSome_restoreState, normalState, restoreState]
  cases w.normalTab.restoreState (field stateVariant.toHash "normal_state") with
  | none => exact Iff.rfl
  | some normalTab => exact Iff.rfl

/-- Filter widgets restore what they have saved, and exactly the states with a filter for each text
    are read within the bounds of their lists. -/
theorem filterWidget_iff (w w' : FilterWidget) (stateVariant : StateVariant) :
    Restores w w' ∧
      ((w.restoreState stateVariant).isSome = true ↔
        (FilterWidgetNormalTab.filterDisplayList (normalState stateVariant)).length ≤
          (FilterWidgetNormalTab.filterValueList (normalState stateVariant)).length) :=
  ⟨restores_saveState w w', isSome_restoreState w stateVariant⟩

/-- A state may have a text without a filter. -/
theorem not_filterWidget :
    ¬((∀ w w' : FilterWidget, Restores w w') ∧
      ∀ (w : FilterWidget) (stateVariant : StateVariant),
        (w.restoreState stateVariant).isSome = true) := by
  rintro ⟨-, h⟩
  have hread := h .new (.hash [("normal_state",
    .hash [("filter_display_list", .stringList ["Name Set".toList])])])
  rw [isSome_restoreState] at hread
  exact absurd hread (by decide)

end FilterWidget

end Admc
