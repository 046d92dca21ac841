import Admc.Filter.Variant
import Admc.Interface.Naming
import Admc.Properties.TextEdits
import Admc.Query.Operations

/-!
# The base of a search

The containers to search in are items of a combo box, with their names as texts. A container that is
selected in a dialog is looked up by its name there, so another one of the same name is taken for
it.

A query item stores its base, and stores it again in the state of the dialog that edits it. The
dialog shows the second one.

* `showsChosen_of_run`: the base is the container chosen last, as long as containers that are
  selected in the dialog are not those of a name that another item has;
* `isKeptBy_acceptUnchanged_iff`: exactly which query items stay as they are when the dialog is
  accepted without changes;
* `isKeptBy_edited`: those that the dialog has made are among them;
* `searchBase_iff`: both, for all runs and all query items.
-/

namespace Admc

open StateVariant (field)

/-! ## The widget -/

/-- `SelectBaseWidget`. -/
structure SelectBaseWidget where
  combo : QComboBox QString

namespace SelectBaseWidget

variable (w : SelectBaseWidget)

/-- `SelectBaseWidget::SelectBaseWidget`. -/
def new (domainDn : QString) : SelectBaseWidget := ⟨[(dnGetName domainDn, domainDn)], 0⟩

/-- `QComboBox::addItem`, where the new item becomes the current one. -/
def addBase (base : QString) : SelectBaseWidget :=
  let combo := w.combo.addItem (dnGetName base) base
  ⟨{ combo with currentIndex := combo.items.length - 1 }⟩

/-- `SelectBaseWidget::set_default_base`. -/
def setDefaultBase (defaultBase : QString) : SelectBaseWidget := w.addBase defaultBase

/-- `SelectBaseWidget::get_base`. -/
def getBase : QString := (w.combo.currentItem.map Prod.snd).getD []

/-- `SelectBaseWidget::open_browse_dialog`, where a container is selected. -/
def openBrowseDialog (selected : QString) : SelectBaseWidget :=
  match w.combo.findText (dnGetName selected) with
  | some addedBaseIndex => ⟨{ w.combo with currentIndex := addedBaseIndex }⟩
  | none => w.addBase selected

/-- `QComboBox::setCurrentIndex`, by the user. -/
def choose (index : ℕ) : SelectBaseWidget := ⟨{ w.combo with currentIndex := index }⟩

/-- `SelectBaseWidget::save_state`. -/
def saveState : StateVariant := .string w.getBase

/-- `SelectBaseWidget::restore_state`: the combo box is cleared first. -/
def restoreState (stateVariant : StateVariant) : SelectBaseWidget :=
  let base := stateVariant.toString
  ⟨[(dnGetName base, base)], 0⟩

theorem getBase_addBase (base : QString) : (w.addBase base).getBase = base := by
  rw [addBase, getBase, QComboBox.currentItem, QComboBox.addItem]
  simp

/-- The first item with the name of a container, if there is one, is this container. -/
def FirstNamed (dn : QString) : Prop :=
  ∀ item, w.combo.items.find? (fun item => item.1 = dnGetName dn) = some item → item.2 = dn

/-- A container that is selected becomes the base exactly when it is found under its name. -/
theorem getBase_openBrowseDialog_iff (dn : QString) :
    (w.openBrowseDialog dn).getBase = dn ↔ w.FirstNamed dn := by
  rw [openBrowseDialog]
  cases hfound : w.combo.findText (dnGetName dn) with
  | none =>
    have hfind : w.combo.items.find? (fun item => item.1 = dnGetName dn) = none := by
      rw [List.find?_eq_none]
      exact fun item hitem htext =>
        absurd htext (by rw [List.findIdx?_eq_none_iff.1 hfound item hitem]; decide)
    refine iff_of_true (getBase_addBase _ _) fun item hitem => ?_
    rw [hfind] at hitem
    exact nomatch hitem
  | some index =>
    obtain ⟨hindex, hname, hfirst⟩ := List.findIdx?_eq_some_iff_getElem.1 hfound
    have hfind : w.combo.items.find? (fun item => item.1 = dnGetName dn) =
        some w.combo.items[index] := by
      rw [List.find?_eq_some_iff_getElem]
      exact ⟨hname, index, hindex, rfl, fun j hj => by simpa using hfirst j hj⟩
    have hbase : (⟨{ w.combo with currentIndex := index }⟩ : SelectBaseWidget).getBase =
        w.combo.items[index].2 := by
      rw [getBase, QComboBox.currentItem, List.getElem?_eq_getElem hindex]
      rfl
    rw [FirstNamed, hfind, hbase]
    constructor
    · rintro hdn item ⟨⟩
      exact hdn
    · exact fun h => h _ rfl

end SelectBaseWidget

/-! ## Runs -/

/-- The widget, and the container that the user has chosen last. -/
structure SelectBaseSession where
  widget : SelectBaseWidget
  chosen : QString

/-- What the user does. -/
inductive SelectBaseEvent
  | choose (index : ℕ)
  | browse (dn : QString)

namespace SelectBaseSession

variable (s : SelectBaseSession) (domainDn : QString)

/-- A widget that has been made, and may have got a default base or restored a state. -/
def Starts : Prop :=
  s = ⟨.new domainDn, domainDn⟩ ∨
  (∃ defaultBase, s = ⟨(SelectBaseWidget.new domainDn).setDefaultBase defaultBase, defaultBase⟩) ∨
  ∃ stateVariant : StateVariant, s = ⟨.restoreState stateVariant, stateVariant.toString⟩

/-- The effect of an event. -/
def handle : SelectBaseEvent → SelectBaseSession
  | .choose index =>
    ⟨s.widget.choose index, ((s.widget.combo.items[index]?).map Prod.snd).getD []⟩
  | .browse dn => ⟨s.widget.openBrowseDialog dn, dn⟩

/-- Only items that are there can be chosen. -/
def Possible : SelectBaseEvent → Prop
  | .choose index => index < s.widget.combo.items.length
  | .browse _ => True

/-- A container that is selected is found under its name, if anything is. -/
def FindsChosen : SelectBaseEvent → Prop
  | .choose _ => True
  | .browse dn => s.widget.FirstNamed dn

/-- The base is the container that the user has chosen last. -/
def ShowsChosen : Prop := s.widget.getBase = s.chosen

variable {s domainDn}

theorem Starts.showsChosen (h : s.Starts domainDn) : s.ShowsChosen := by
  obtain rfl | ⟨defaultBase, rfl⟩ | ⟨stateVariant, rfl⟩ := h
  · rfl
  · exact SelectBaseWidget.getBase_addBase _ _
  · rfl

/-- Each event alone decides whether the base is then the container chosen last. -/
theorem showsChosen_handle_iff {event : SelectBaseEvent} :
    (s.handle event).ShowsChosen ↔ s.FindsChosen event := by
  cases event with
  | choose index => exact iff_of_true rfl trivial
  | browse dn => exact s.widget.getBase_openBrowseDialog_iff dn

theorem showsChosen_of_run (h : Run (Starts · domainDn)
    (fun s event => s.Possible event ∧ s.FindsChosen event) handle s) : s.ShowsChosen :=
  h.invariant (fun _ hstarts => hstarts.showsChosen) fun _ _ _ hallowed =>
    showsChosen_handle_iff.2 hallowed.2

end SelectBaseSession

/-! ## Query items -/

/-- How a `QDataStream` writes the state of the dialog, and reads it. -/
structure StateStream where
  encode : QHash String StateVariant → QByteArray
  decode : QByteArray → QHash String StateVariant

/-- `EditQueryItemWidget`. -/
structure EditQueryItemWidget where
  nameEdit : QLineEdit
  descriptionEdit : QLineEdit
  filterDisplay : QTextEdit
  selectBaseWidget : SelectBaseWidget
  scopeCheckbox : Bool
  filterDialogState : StateVariant

namespace EditQueryItemWidget

variable (stream : StateStream) (w : EditQueryItemWidget)

/-- `EditQueryItemWidget::EditQueryItemWidget`. -/
def new (domainDn : QString) : EditQueryItemWidget :=
  ⟨.new, .new, .setPlainText [], .new domainDn, false, .invalid⟩

/-- The state in `EditQueryItemWidget::filter_state`. -/
def state : QHash String StateVariant :=
  [("select_base_widget", w.selectBaseWidget.saveState),
    ("filter_dialog_state", w.filterDialogState), ("filter", .string w.filterDisplay.text)]

/-- The data of the widget, where the name has its blanks still. -/
def edited : QueryItem where
  name := w.nameEdit.text
  description := w.descriptionEdit.text
  filter := w.filterDisplay.text
  filterState := stream.encode w.state
  base := w.selectBaseWidget.getBase
  scopeIsChildren := !w.scopeCheckbox

/-- `EditQueryItemWidget::set_data`. -/
def setData (name description : QString) (scopeIsChildren : Bool) (filterState : QByteArray)
    (filter : QString) : EditQueryItemWidget :=
  let state := stream.decode filterState
  { nameEdit := w.nameEdit.setText name
    descriptionEdit := w.descriptionEdit.setText description
    filterDisplay := .setPlainText filter
    selectBaseWidget := .restoreState (field state "select_base_widget")
    scopeCheckbox := !scopeIsChildren
    filterDialogState := field state "filter_dialog_state" }

/-- The dialog of `QueryItemImpl::on_edit_query_item`, when it has been opened. -/
def opened (domainDn : QString) (query : QueryItem) : EditQueryItemWidget :=
  (new domainDn).setData stream query.name query.description query.scopeIsChildren
    query.filterState query.filter

end EditQueryItemWidget

/-- The base that is stored in the state of the dialog. -/
def baseOfState (stream : StateStream) (filterState : QByteArray) : QString :=
  (field (stream.decode filterState) "select_base_widget").toString

/-- The query item at an index. -/
def QueryTree.queryAt (tree : QueryTree) (index : Index) : Option QueryItem :=
  match (tree.row? index).map Row.data with
  | some (.item query) => some query
  | _ => none

/-- `QueryItemImpl::on_edit_query_item`, when the dialog is accepted without changes. -/
def acceptUnchanged (stream : StateStream) (domainDn : QString) (tree : QueryTree) (index : Index)
    (query : QueryItem) : QueryTree :=
  onEditQueryItem tree ((EditQueryItemWidget.opened stream domainDn query).edited stream) index

/-- A query item has the base, the filter, the scope and the description of another. -/
structure QueryItem.Keeps (query query' : QueryItem) : Prop where
  base : query'.base = query.base
  filter : query'.filter = query.filter
  scopeIsChildren : query'.scopeIsChildren = query.scopeIsChildren
  description : query'.description = query.description

/-- A tree has such a query item at an index. -/
def QueryItem.IsKeptBy (query : QueryItem) (tree : QueryTree) (index : Index) : Prop :=
  ∃ query', tree.queryAt index = some query' ∧ query.Keeps query'

/-- The dialog does not accept the name of a query item. -/
def RejectsName (tree : QueryTree) (index : Index) (query : QueryItem) : Prop :=
  consoleQueryOrFolderNameIsGood (trimmed (cutText 32767 query.name))
    (tree.getSiblingNameList (tree.parent index) (some index)) = false

section
variable {stream : StateStream} {domainDn : QString} {tree : QueryTree} {index : Index}
  {query : QueryItem}

theorem queryAt_eq_some : tree.queryAt index = some query ↔
    ∃ row ∈ tree.rows, row.id = index ∧ row.data = .item query := by
  have hrow : tree.queryAt index = some query ↔
      (tree.row? index).map Row.data = some (.item query) := by
    rw [QueryTree.queryAt]
    split
    · rename_i query' hdata
      rw [hdata, Option.some_inj, Option.some_inj, QueryNode.item.injEq]
    · rename_i hne
      exact iff_of_false nofun fun h => hne query h
  rw [hrow, Option.map_eq_some_iff]
  constructor
  · rintro ⟨row, hfound, hdata⟩
    exact ⟨row, (Forest.row?_eq_some.1 hfound).1, (Forest.row?_eq_some.1 hfound).2, hdata⟩
  · rintro ⟨row, hmem, hid, hdata⟩
    exact ⟨row, Forest.row?_eq_some.2 ⟨hmem, hid⟩, hdata⟩

/-- The query item that is stored when the dialog is accepted. -/
theorem queryAt_setData (h : tree.queryAt index = some query) (query' : QueryItem) :
    QueryTree.queryAt (tree.setData index (.item query')) index = some query' := by
  obtain ⟨row, hrow, rfl, -⟩ := queryAt_eq_some.1 h
  exact queryAt_eq_some.2 ⟨_, (mem_rows_setData hrow).2 (.inl rfl), rfl, rfl⟩

/-- A query item stays as it is exactly if its name is not accepted, or it is what the edits of the
    dialog show, and its base is also the one in the state of the dialog. -/
theorem isKeptBy_acceptUnchanged_iff (h : tree.queryAt index = some query) :
    query.IsKeptBy (acceptUnchanged stream domainDn tree index query) index ↔
      RejectsName tree index query ∨ baseOfState stream query.filterState = query.base ∧
        (∀ c ∈ query.filter, plainChar c = c) ∧ utf16Length query.description ≤ 32767 := by
  by_cases hgood : RejectsName tree index query
  · have hsame : acceptUnchanged stream domainDn tree index query = tree :=
      if_neg (ne_true_of_eq_false hgood)
    rw [hsame]
    exact iff_of_true ⟨query, h, rfl, rfl, rfl, rfl⟩ (.inl hgood)
  · have hset : acceptUnchanged stream domainDn tree index query = _ :=
      if_pos (eq_true_of_ne_false hgood)
    have hdescription : cutText 32767 query.description = query.description ↔
        utf16Length query.description ≤ 32767 := by
      rw [cutText_eq_iff]
      omega
    rw [hset, QueryItem.IsKeptBy, queryAt_setData h, or_iff_right hgood, ← plainText_eq_iff,
      ← hdescription]
    constructor
    · rintro ⟨query', ⟨⟩, hkeeps⟩
      exact ⟨hkeeps.base, hkeeps.filter, hkeeps.description⟩
    · rintro ⟨hbase, hfilter, hdescription⟩
      exact ⟨_, rfl, hbase, hfilter, Bool.not_not _, hdescription⟩

/-- What a dialog has stored stays as it is, if its state is read back. -/
theorem isKeptBy_edited {w : EditQueryItemWidget} (name : QString)
    (hstate : stream.decode (stream.encode w.state) = w.state)
    (hdescription : QLineEdit.new.setText w.descriptionEdit.text = w.descriptionEdit)
    (h : tree.queryAt index = some { w.edited stream with name := name }) :
    QueryItem.IsKeptBy { w.edited stream with name := name }
      (acceptUnchanged stream domainDn tree index { w.edited stream with name := name }) index := by
  refine (isKeptBy_acceptUnchanged_iff h).2 (.inr ⟨?_, ?_, ?_⟩)
  · have hbase : baseOfState stream (stream.encode w.state) = w.selectBaseWidget.getBase := by
      rw [baseOfState, hstate]
      rfl
    exact hbase
  · exact plainText_eq_iff.1 w.filterDisplay.plain
  · have hcut : cutText 32767 w.descriptionEdit.text = w.descriptionEdit.text :=
      congrArg QLineEdit.text hdescription
    exact Int.ofNat_le.1 ((cutText_eq_iff.1 hcut).resolve_left (by decide))

end

/-! ## Both -/

/-- In every run, the base is the container chosen last, as long as containers that are selected are
    found under their names, and it is only then. Exactly the query items whose base is the one in
    the state of the dialog, and which its edits show as they are, or whose name is not accepted,
    stay as they are when the dialog is accepted without changes. -/
theorem searchBase_iff (stream : StateStream) (domainDn : QString) :
    (∀ s, Run (SelectBaseSession.Starts · domainDn)
      (fun s event => s.Possible event ∧ s.FindsChosen event) SelectBaseSession.handle s →
      s.ShowsChosen) ∧
    (∀ (s : SelectBaseSession) event, (s.handle event).ShowsChosen ↔ s.FindsChosen event) ∧
    ∀ (tree : QueryTree) (index : Index) (query : QueryItem), tree.queryAt index = some query →
      (query.IsKeptBy (acceptUnchanged stream domainDn tree index query) index ↔
        RejectsName tree index query ∨ baseOfState stream query.filterState = query.base ∧
          (∀ c ∈ query.filter, plainChar c = c) ∧ utf16Length query.description ≤ 32767) :=
  ⟨fun _ => SelectBaseSession.showsChosen_of_run,
    fun _ _ => SelectBaseSession.showsChosen_handle_iff,
    fun _ _ _ => isKeptBy_acceptUnchanged_iff⟩

/-- A stream that reads an empty hash from a state without bytes. -/
def emptyStream : StateStream := ⟨fun _ => [], fun _ => []⟩

/-- The data of a query item in a file, without a state of the dialog. -/
def importedData (base : QString) : QHash String QVariant :=
  [("name", .string "Users".toList), ("base", .string base)]

/-- The tree with one query item, which has been imported. -/
def importedTree (base : QString) : QueryTree :=
  Forest.empty.add (.item (queryOfHash (importedData base))) 0 (.inl rfl)

/-- The same unit in the domain and below a unit. -/
def usersOf (parent : String) : QString := "OU=Users,".toList ++ parent.toList

theorem searchBase_iff_users :
    (SelectBaseSession.handle ⟨.new "DC=alt".toList, "DC=alt".toList⟩
      (.browse (usersOf "DC=alt"))).ShowsChosen ∧
    (queryOfHash (importedData [])).IsKeptBy
      (acceptUnchanged emptyStream "DC=alt".toList (importedTree []) 1
        (queryOfHash (importedData []))) 1 := by
  obtain ⟨hrun, -, hkept⟩ := searchBase_iff emptyStream "DC=alt".toList
  refine ⟨hrun _ (.next (.start (.inl rfl)) ⟨trivial, ?_⟩), ?_⟩
  · exact (SelectBaseWidget.getBase_openBrowseDialog_iff _ _).1 (by decide)
  · exact (hkept (importedTree []) 1 _ rfl).2 (.inr ⟨rfl, nofun, by decide⟩)

/-- Two units may have the same name, and an imported query item may have a base without a state of
    the dialog. -/
theorem not_searchBase :
    (¬∀ domainDn s, Run (SelectBaseSession.Starts · domainDn) SelectBaseSession.Possible
      SelectBaseSession.handle s → s.ShowsChosen) ∧
    ¬∀ (stream : StateStream) (domainDn : QString) (tree : QueryTree) (index : Index)
      (query : QueryItem), tree.queryAt index = some query →
      query.IsKeptBy (acceptUnchanged stream domainDn tree index query) index := by
  constructor
  · intro h
    have hfirst : Run (SelectBaseSession.Starts · "DC=alt".toList) SelectBaseSession.Possible
        SelectBaseSession.handle (SelectBaseSession.handle ⟨.new "DC=alt".toList, "DC=alt".toList⟩
          (.browse (usersOf "DC=alt"))) := .next (.start (.inl rfl)) trivial
    have hsecond := h _ _
      (hfirst.next (a := SelectBaseEvent.browse (usersOf "OU=B,DC=alt")) trivial)
    rw [SelectBaseSession.ShowsChosen] at hsecond
    exact absurd hsecond (by decide)
  · intro h
    have hkept := h emptyStream "DC=alt".toList (importedTree "DC=alt".toList) 1 _ rfl
    rw [isKeptBy_acceptUnchanged_iff rfl] at hkept
    obtain hname | ⟨hbase, -⟩ := hkept
    · exact absurd hname (by unfold RejectsName; decide)
    · exact absurd hbase (by decide)

end Admc
