import Admc.Config.Load
import Admc.Lib.Run

/-!
# The filter of the attributes tab

The tab shows the attributes that its filters accept. The filters are actions of a menu; those
for kinds of attributes that are read-only can be checked only while the one for all of these
is, and are cleared with it. What is checked is saved when the menu is destroyed.

`AttributesView.wanted_of_run`: in every run the tab shows the attributes that are wanted by the
filters, of which that for read-only attributes need not be looked at; and a menu that is made
anew is as the one before.
-/

namespace Admc

/-- `enum AttributeFilter`. -/
inductive AttributeFilter
  | unset
  | readOnly
  | mandatory
  | optional
  | systemOnly
  | constructed
  | backlink
  deriving DecidableEq, Repr

namespace AttributeFilter

/-- The filters, in the order of their numbers. -/
def all : List AttributeFilter :=
  [unset, readOnly, mandatory, optional, systemOnly, constructed, backlink]

/-- `read_only_sub_filters`. -/
def readOnlySubFilters : List AttributeFilter := [systemOnly, constructed, backlink]

end AttributeFilter

/-- `class AttributesTabFilterMenu`: which of its actions are checked, and which are enabled. -/
structure AttributesTabFilterMenu where
  isChecked : AttributeFilter → Bool
  isEnabled : AttributeFilter → Bool

/-- `class AttributesTabProxy`. -/
structure AttributesTabProxy where
  mandatoryAttributes : List String
  optionalAttributes : List String
  setAttributes : List String
  quickFilter : QString

/-- The tab: its menu, the proxy, the attributes in its model, and those that are shown. -/
structure AttributesView where
  menu : AttributesTabFilterMenu
  proxy : AttributesTabProxy
  rows : List String
  shown : List String

/-! ## The configuration -/

namespace AdConfigPrivate

variable (rt : Runtime) (d : AdConfigPrivate)

/-- `AdConfigPrivate::add_auxiliary_classes`. -/
def addAuxiliaryClasses (objectClasses : List String) : List String :=
  (objectClasses ++ objectClasses.flatMap fun objectClass =>
    let schema := d.classSchemas.value objectClass .empty
    schema.getStrings rt "auxiliaryClass" ++ schema.getStrings rt "systemAuxiliaryClass").eraseDups

/-- `AdConfig::get_optional_attributes`. -/
def getOptionalAttributes (objectClasses : List String) : List String :=
  ((d.addAuxiliaryClasses rt objectClasses).flatMap fun objectClass =>
    let schema := d.classSchemas.value objectClass .empty
    schema.getStrings rt "mayContain" ++ schema.getStrings rt "systemMayContain").eraseDups

/-- `AdConfig::get_mandatory_attributes`. -/
def getMandatoryAttributes (objectClasses : List String) : List String :=
  ((d.addAuxiliaryClasses rt objectClasses).flatMap fun objectClass =>
    let schema := d.classSchemas.value objectClass .empty
    schema.getStrings rt "mustContain" ++ schema.getStrings rt "systemMustContain").eraseDups

end AdConfigPrivate

/-! ## The menu -/

namespace AttributesTabFilterMenu

variable (menu : AttributesTabFilterMenu)

/-- The list that `~AttributesTabFilterMenu` saves. -/
def savedState : List Bool := AttributeFilter.all.map menu.isChecked

/-- The menu before `on_read_only_changed` in `AttributesTabFilterMenu::AttributesTabFilterMenu`,
    given the list that has been saved. -/
def ofSavedState (state : List Bool) : AttributesTabFilterMenu where
  isChecked filter := (state[AttributeFilter.all.idxOf filter]?).getD true
  isEnabled _ := true

end AttributesTabFilterMenu

section
variable (tables : CaseTables) (rt : Runtime) (d : AdConfigPrivate)

/-- `AttributesTabProxy::filterAcceptsRow`, for the row of an attribute. -/
def filterAcceptsRow (menu : AttributesTabFilterMenu) (proxy : AttributesTabProxy)
    (attr : String) : Bool :=
  let systemOnly := d.attributeSchemas.getAttributeIsSystemOnly rt attr
  let unset := !proxy.setAttributes.contains attr
  let mandatory := proxy.mandatoryAttributes.contains attr
  let optional := proxy.optionalAttributes.contains attr
  let constructed := d.attributeSchemas.getAttributeIsConstructed rt attr
  let backlink := d.attributeSchemas.getAttributeIsBacklink rt attr
  let readOnly := menu.isChecked .readOnly && systemOnly
  if !menu.isChecked .unset && unset then false
  else if !menu.isChecked .mandatory && mandatory then false
  else if !menu.isChecked .optional && optional then false
  else if readOnly && !menu.isChecked .systemOnly && !constructed && !backlink then false
  else if readOnly && !menu.isChecked .constructed && constructed then false
  else if readOnly && !menu.isChecked .backlink && backlink then false
  else if !menu.isChecked .readOnly && systemOnly then false
  else (tables.lower proxy.quickFilter) <:+: tables.lower attr.toList

namespace AttributesView

variable (view : AttributesView)

/-- `QSortFilterProxyModel::invalidate`: all rows are looked at again. -/
def invalidate : AttributesView :=
  { view with shown := view.rows.filter (filterAcceptsRow tables rt d view.menu view.proxy) }

/-- `QAction::setChecked`, with the handler of `filter_changed` if this is a change. -/
def setChecked (filter : AttributeFilter) (checked : Bool) : AttributesView :=
  if view.menu.isChecked filter = checked then view
  else
    { view with menu :=
        { view.menu with
          isChecked := Function.update view.menu.isChecked filter checked } }.invalidate tables rt d

/-- `QAction::setEnabled`. -/
def setEnabled (filter : AttributeFilter) (enabled : Bool) : AttributesView :=
  { view with menu :=
      { view.menu with isEnabled := Function.update view.menu.isEnabled filter enabled } }

/-- `AttributesTabFilterMenu::on_read_only_changed`. -/
def onReadOnlyChanged : AttributesView :=
  let readOnlyIsEnabled := view.menu.isChecked .readOnly
  AttributeFilter.readOnlySubFilters.foldl (fun view filter =>
    let view := view.setEnabled filter readOnlyIsEnabled
    if !readOnlyIsEnabled then view.setChecked tables rt d filter false else view) view

/-- A filter is clicked in the menu, if it is enabled. -/
def click (filter : AttributeFilter) : AttributesView :=
  if !view.menu.isEnabled filter then view
  else
    let view := view.setChecked tables rt d filter !view.menu.isChecked filter
    if filter = .readOnly then view.onReadOnlyChanged tables rt d else view

/-- `AttributesTabProxy::set_quick_filter`. -/
def setQuickFilter (text : QString) : AttributesView :=
  { view with proxy := { view.proxy with quickFilter := text } }.invalidate tables rt d

/-- `AttributesTabProxy::load`, before the model is filled with the attributes of the object and
    with those that it may have. -/
def load (object : AdObject) (rows : List String) : AttributesView :=
  let objectClasses := object.getStrings rt "objectClass"
  { view with
    proxy := { view.proxy with
      mandatoryAttributes := d.getMandatoryAttributes rt objectClasses
      optionalAttributes := d.getOptionalAttributes rt objectClasses
      setAttributes := object.attributesData.keys }
    rows := rows }.invalidate tables rt d

/-- `AttributesTabProxy::update_set_attributes`, before the model is filled again. -/
def updateSetAttributes (attributes rows : List String) : AttributesView :=
  { view with
    proxy := { view.proxy with setAttributes := view.proxy.setAttributes ++ attributes }
    rows := rows }.invalidate tables rt d

/-- A tab, given what its menu has saved. -/
def ofSavedState (state : List Bool) : AttributesView :=
  ({ menu := .ofSavedState state
     proxy := ⟨[], [], [], []⟩
     rows := []
     shown := [] } : AttributesView).onReadOnlyChanged tables rt d

end AttributesView

end

/-- What happens to the tab; the last is that another tab is made after it is gone. -/
inductive AttributesViewOp
  | click (filter : AttributeFilter)
  | setQuickFilter (text : QString)
  | load (object : AdObject) (rows : List String)
  | updateSetAttributes (attributes rows : List String)
  | reopen

/-- The effect of an operation. -/
def AttributesViewOp.run (tables : CaseTables) (rt : Runtime) (d : AdConfigPrivate)
    (view : AttributesView) : AttributesViewOp → AttributesView
  | click filter => view.click tables rt d filter
  | setQuickFilter text => view.setQuickFilter tables rt d text
  | load object rows => view.load tables rt d object rows
  | updateSetAttributes attributes rows => view.updateSetAttributes tables rt d attributes rows
  | reopen => .ofSavedState tables rt d view.menu.savedState

namespace AttributesView

/-! ## Changes of the menu -/

/-- The rows that are shown are those that the proxy accepts. -/
def Current (tables : CaseTables) (rt : Runtime) (d : AdConfigPrivate) (view : AttributesView) :
    Prop := view.shown = view.rows.filter (filterAcceptsRow tables rt d view.menu view.proxy)

section
variable {tables : CaseTables} {rt : Runtime} {d : AdConfigPrivate} {view : AttributesView}
  {filter : AttributeFilter} {checked : Bool}

theorem current_invalidate : (view.invalidate tables rt d).Current tables rt d := rfl

theorem setChecked_menu : (view.setChecked tables rt d filter checked).menu =
    { view.menu with isChecked := Function.update view.menu.isChecked filter checked } := by
  rw [setChecked]
  split_ifs with hsame
  · rw [← hsame, Function.update_eq_self]
  · rfl

theorem setChecked_frame : (view.setChecked tables rt d filter checked).proxy = view.proxy ∧
    (view.setChecked tables rt d filter checked).rows = view.rows := by
  rw [setChecked]
  split_ifs <;> exact ⟨rfl, rfl⟩

theorem Current.setChecked (h : view.Current tables rt d) :
    (view.setChecked tables rt d filter checked).Current tables rt d := by
  rw [AttributesView.setChecked]
  split_ifs
  · exact h
  · exact current_invalidate

/-- The view once some filters are enabled with another, or cleared with it. -/
structure Follow (tables : CaseTables) (rt : Runtime) (d : AdConfigPrivate)
    (filters : List AttributeFilter) (readOnlyIsEnabled : Bool) (view view' : AttributesView) :
    Prop where
  isChecked : ∀ filter, view'.menu.isChecked filter =
    if filter ∈ filters ∧ readOnlyIsEnabled = false then false else view.menu.isChecked filter
  isEnabled : ∀ filter, view'.menu.isEnabled filter =
    if filter ∈ filters then readOnlyIsEnabled else view.menu.isEnabled filter
  frame : view'.proxy = view.proxy ∧ view'.rows = view.rows
  current : view.Current tables rt d → view'.Current tables rt d

theorem follow_foldl {filters : List AttributeFilter} {readOnlyIsEnabled : Bool} :
    Follow tables rt d filters readOnlyIsEnabled view (filters.foldl (fun view filter =>
      let view := view.setEnabled filter readOnlyIsEnabled
      if !readOnlyIsEnabled then view.setChecked tables rt d filter false else view) view) := by
  induction filters generalizing view with
  | nil => exact ⟨fun _ => by simp, fun _ => by simp, ⟨rfl, rfl⟩, id⟩
  | cons filter filters ih =>
    rw [List.foldl_cons]
    cases readOnlyIsEnabled with
    | true =>
      have hrest := @ih (view.setEnabled filter true)
      refine ⟨fun filter' => ?_, fun filter' => ?_, hrest.frame, hrest.current⟩
      · refine (hrest.isChecked filter').trans ?_
        simp [setEnabled]
      · refine (hrest.isEnabled filter').trans ?_
        by_cases heq : filter' = filter <;> simp [setEnabled, heq]
    | false =>
      have hrest := @ih ((view.setEnabled filter false).setChecked tables rt d filter false)
      refine ⟨fun filter' => ?_, fun filter' => ?_, ?_, fun h =>
        hrest.current (@Current.setChecked tables rt d (view.setEnabled filter false) _ _ h)⟩
      · refine (hrest.isChecked filter').trans ?_
        rw [setChecked_menu]
        by_cases heq : filter' = filter <;> simp [setEnabled, heq]
      · refine (hrest.isEnabled filter').trans ?_
        rw [setChecked_menu]
        by_cases heq : filter' = filter <;> simp [setEnabled, heq]
      · exact ⟨hrest.frame.1.trans setChecked_frame.1, hrest.frame.2.trans setChecked_frame.2⟩

/-- The filters for kinds of read-only attributes follow the one for all of them, and the rows
    that are shown are those that are accepted. -/
structure Settled (tables : CaseTables) (rt : Runtime) (d : AdConfigPrivate)
    (view : AttributesView) : Prop where
  isEnabled : ∀ filter, view.menu.isEnabled filter =
    if filter ∈ AttributeFilter.readOnlySubFilters then view.menu.isChecked .readOnly else true
  cleared : ∀ filter ∈ AttributeFilter.readOnlySubFilters, view.menu.isChecked .readOnly = false →
    view.menu.isChecked filter = false
  current : view.Current tables rt d

theorem isChecked_onReadOnlyChanged (filter : AttributeFilter) :
    (view.onReadOnlyChanged tables rt d).menu.isChecked filter =
      if filter ∈ AttributeFilter.readOnlySubFilters ∧ view.menu.isChecked .readOnly = false then
        false
      else view.menu.isChecked filter := follow_foldl.isChecked filter

theorem readOnly_onReadOnlyChanged :
    (view.onReadOnlyChanged tables rt d).menu.isChecked .readOnly =
      view.menu.isChecked .readOnly := by
  rw [isChecked_onReadOnlyChanged, if_neg fun h => absurd h.1 (by decide)]

theorem settled_onReadOnlyChanged (hcurrent : view.Current tables rt d)
    (hothers : ∀ filter ∉ AttributeFilter.readOnlySubFilters, view.menu.isEnabled filter = true) :
    (view.onReadOnlyChanged tables rt d).Settled tables rt d where
  isEnabled filter := by
    rw [readOnly_onReadOnlyChanged]
    refine (follow_foldl.isEnabled filter).trans ?_
    split_ifs with hfilter
    · rfl
    · exact hothers filter hfilter
  cleared filter hfilter hreadOnly := by
    rw [readOnly_onReadOnlyChanged] at hreadOnly
    rw [isChecked_onReadOnlyChanged, if_pos ⟨hfilter, hreadOnly⟩]
  current := follow_foldl.current hcurrent

theorem settled_click (h : view.Settled tables rt d) :
    (view.click tables rt d filter).Settled tables rt d := by
  rw [click]
  split_ifs with hdisabled hreadOnly
  · exact h
  · -- the handler of the filter for read-only attributes settles the others
    refine settled_onReadOnlyChanged h.current.setChecked fun filter' hfilter => ?_
    rw [setChecked_menu, h.isEnabled, if_neg hfilter]
  · have hchecked : (view.setChecked tables rt d filter !view.menu.isChecked filter).menu.isChecked
        .readOnly = view.menu.isChecked .readOnly := by
      rw [setChecked_menu]
      exact Function.update_of_ne (Ne.symm hreadOnly) _ _
    refine ⟨fun filter' => ?_, fun filter' hfilter hno => ?_, h.current.setChecked⟩
    · rw [hchecked, setChecked_menu]
      exact h.isEnabled filter'
    · rw [hchecked] at hno
      rw [setChecked_menu]
      -- a filter that is cleared with the other is disabled, so it is not the one clicked
      have hne : filter' ≠ filter := by
        rintro rfl
        rw [h.isEnabled, if_pos hfilter, hno] at hdisabled
        exact hdisabled rfl
      exact (Function.update_of_ne hne _ _).trans (h.cleared filter' hfilter hno)

theorem settled_ofSavedState (state : List Bool) :
    (ofSavedState tables rt d state).Settled tables rt d :=
  settled_onReadOnlyChanged rfl fun _ _ => rfl

theorem settled_run {op : AttributesViewOp} (h : view.Settled tables rt d) :
    (op.run tables rt d view).Settled tables rt d := by
  cases op with
  | click filter => exact settled_click h
  | setQuickFilter text => exact ⟨h.isEnabled, h.cleared, rfl⟩
  | load object rows => exact ⟨h.isEnabled, h.cleared, rfl⟩
  | updateSetAttributes attributes rows => exact ⟨h.isEnabled, h.cleared, rfl⟩
  | reopen => exact settled_ofSavedState _

/-! ## What is wanted -/

/-- The filters and the text want the row of an attribute: whether the object has it, whether its
    classes must or may have it, and of which kinds it is if it is read-only. -/
structure Wants (tables : CaseTables) (rt : Runtime) (d : AdConfigPrivate)
    (view : AttributesView) (attr : String) : Prop where
  unset : attr ∉ view.proxy.setAttributes → view.menu.isChecked .unset = true
  mandatory : attr ∈ view.proxy.mandatoryAttributes → view.menu.isChecked .mandatory = true
  optional : attr ∈ view.proxy.optionalAttributes → view.menu.isChecked .optional = true
  constructed : d.attributeSchemas.getAttributeIsSystemOnly rt attr = true →
    d.attributeSchemas.getAttributeIsConstructed rt attr = true →
      view.menu.isChecked .constructed = true
  backlink : d.attributeSchemas.getAttributeIsSystemOnly rt attr = true →
    d.attributeSchemas.getAttributeIsBacklink rt attr = true →
      view.menu.isChecked .backlink = true
  systemOnly : d.attributeSchemas.getAttributeIsSystemOnly rt attr = true →
    d.attributeSchemas.getAttributeIsConstructed rt attr = false →
      d.attributeSchemas.getAttributeIsBacklink rt attr = false →
        view.menu.isChecked .systemOnly = true
  quickFilter : tables.lower view.proxy.quickFilter <:+: tables.lower attr.toList

theorem Settled.readOnly_of_sub (h : view.Settled tables rt d)
    (hfilter : filter ∈ AttributeFilter.readOnlySubFilters)
    (hchecked : view.menu.isChecked filter = true) : view.menu.isChecked .readOnly = true := by
  by_contra hno
  rw [h.cleared filter hfilter (Bool.not_eq_true _ ▸ hno)] at hchecked
  exact Bool.false_ne_true hchecked

/-- A row is hidden if its kind is not checked. -/
theorem not_hidden_iff {checked kind : Bool} :
    ¬(!checked && kind) = true ↔ (kind = true → checked = true) := by
  cases checked <;> cases kind <;> simp

theorem not_hidden_iff_of_readOnly {readOnly systemOnly checked kind : Bool} :
    ¬(readOnly && systemOnly && !checked && kind) = true ↔
      (readOnly = true → systemOnly = true → kind = true → checked = true) := by
  cases readOnly <;> cases systemOnly <;> simp [← not_hidden_iff]

/-- Where the menu is settled, the filter for all read-only attributes makes no difference. -/
theorem filterAcceptsRow_iff (h : view.Settled tables rt d) {attr : String} :
    filterAcceptsRow tables rt d view.menu view.proxy attr = true ↔
      view.Wants tables rt d attr := by
  unfold filterAcceptsRow
  dsimp only
  constructor
  · intro haccepts
    split_ifs at haccepts with hunset hmandatory hoptional hs hc hb hreadOnly
    rw [not_hidden_iff] at hunset hmandatory hoptional hreadOnly
    rw [Bool.and_assoc _ (!_) (!_), not_hidden_iff_of_readOnly] at hs
    rw [not_hidden_iff_of_readOnly] at hc hb
    refine ⟨fun hattr => hunset ?_, fun hattr => hmandatory ?_, fun hattr => hoptional ?_,
      fun hattr => hc (hreadOnly hattr) hattr, fun hattr => hb (hreadOnly hattr) hattr,
      fun hattr hno hno' => hs (hreadOnly hattr) hattr ?_, of_decide_eq_true haccepts⟩
    · simpa using hattr
    · simpa using hattr
    · simpa using hattr
    · rw [hno, hno']
      rfl
  · rintro ⟨hunset, hmandatory, hoptional, hconstructed, hbacklink, hsystemOnly, hquick⟩
    rw [if_neg, if_neg, if_neg, if_neg, if_neg, if_neg, if_neg]
    · exact decide_eq_true hquick
    · rw [not_hidden_iff]
      intro hattr
      -- the filter of its kind is checked, and so the one for all kinds is
      cases hc : d.attributeSchemas.getAttributeIsConstructed rt attr with
      | true => exact h.readOnly_of_sub (by decide) (hconstructed hattr hc)
      | false =>
        cases hb : d.attributeSchemas.getAttributeIsBacklink rt attr with
        | true => exact h.readOnly_of_sub (by decide) (hbacklink hattr hb)
        | false => exact h.readOnly_of_sub (by decide) (hsystemOnly hattr hc hb)
    · rw [not_hidden_iff_of_readOnly]
      exact fun _ hattr => hbacklink hattr
    · rw [not_hidden_iff_of_readOnly]
      exact fun _ hattr => hconstructed hattr
    · rw [Bool.and_assoc _ (!_) (!_), not_hidden_iff_of_readOnly]
      intro _ hattr hkind
      rw [Bool.and_eq_true, Bool.not_eq_true', Bool.not_eq_true'] at hkind
      exact hsystemOnly hattr hkind.1 hkind.2
    · rw [not_hidden_iff]
      exact fun hattr => hoptional (by simpa using hattr)
    · rw [not_hidden_iff]
      exact fun hattr => hmandatory (by simpa using hattr)
    · rw [not_hidden_iff]
      exact fun hattr => hunset (by simpa using hattr)

/-- A menu that is made from what another has saved is as that one. -/
theorem ofSavedState_savedState (h : view.Settled tables rt d) :
    (ofSavedState tables rt d view.menu.savedState).menu = view.menu := by
  have hread : ∀ filter, (AttributesTabFilterMenu.ofSavedState view.menu.savedState).isChecked
      filter = view.menu.isChecked filter := by
    intro filter
    cases filter <;> rfl
  have hchecked : ∀ filter, (ofSavedState tables rt d view.menu.savedState).menu.isChecked filter =
      view.menu.isChecked filter := by
    intro filter
    refine (isChecked_onReadOnlyChanged filter).trans ?_
    dsimp only
    rw [hread, hread]
    split_ifs with hcleared
    · exact (h.cleared filter hcleared.1 hcleared.2).symm
    · rfl
  have henabled : ∀ filter, (ofSavedState tables rt d view.menu.savedState).menu.isEnabled filter =
      view.menu.isEnabled filter := by
    intro filter
    rw [(settled_ofSavedState _).isEnabled, hchecked, h.isEnabled]
  exact congrArg₂ AttributesTabFilterMenu.mk (funext hchecked) (funext henabled)

end

/-- In every run of the tab, those of its attributes are shown that are wanted, and a menu that is
    made anew is as the one before. -/
theorem wanted_of_run (tables : CaseTables) (rt : Runtime) (d : AdConfigPrivate)
    (view : AttributesView)
    (h : Run (fun view => ∃ state, view = ofSavedState tables rt d state) (fun _ _ => True)
      (AttributesViewOp.run tables rt d) view) :
    (∀ attr, attr ∈ view.shown ↔ attr ∈ view.rows ∧ view.Wants tables rt d attr) ∧
    (AttributesViewOp.reopen.run tables rt d view).menu = view.menu := by
  have hsettled : view.Settled tables rt d := by
    refine h.invariant ?_ fun _ _ h _ => settled_run h
    rintro view ⟨state, rfl⟩
    exact settled_ofSavedState state
  refine ⟨fun attr => ?_, ofSavedState_savedState hsettled⟩
  rw [hsettled.current, List.mem_filter, filterAcceptsRow_iff hsettled]

/-- Before anything has been saved, the filter for read-only attributes is cleared. -/
theorem wanted_of_run_cleared :
    let clear : AttributesViewOp := .click .readOnly
    let view := clear.run .ascii zeroRuntime .new (ofSavedState .ascii zeroRuntime .new [])
    (∀ attr, attr ∈ view.shown ↔ attr ∈ view.rows ∧ view.Wants .ascii zeroRuntime .new attr) ∧
    (AttributesViewOp.reopen.run .ascii zeroRuntime .new view).menu = view.menu :=
  wanted_of_run .ascii zeroRuntime .new _ (.next (.start ⟨[], rfl⟩) trivial)

end AttributesView

end Admc
