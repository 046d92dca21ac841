import Admc.Properties.PermissionsWidgets
import Mathlib.Data.List.Lex

/-!
# The security tab

The tab has one descriptor, which it edits in place, a view of the trustees in it, and the
permission widgets, each of which keeps the address of the descriptor, the trustee and the class
that its check boxes are about. The widgets learn of another trustee by the signal
`currentChanged` of the view, of another class by the combo box, and of another descriptor when
they are initialised.

The signal is not heeded when no trustee is selected any more, and it is blocked while the
previous descriptor is restored. The delegation widget never learns of a class.
-/

namespace Admc

open AdConfigPrivate (utf16)
open CommonPermissionsWidget (AppliedObjects)

/-! ## The state -/

/-- An item of `trustee_model`. The number tells items apart. -/
structure TrusteeItem where
  id : ℕ
  text : String
  sid : SidBytes
  deriving DecidableEq

/-- What the tab is about: the addresses of its descriptors, and what is selected. A trustee is
    selected by making its item the current one. -/
structure SecurityTabView where
  sd : Option ℕ
  previousSd : Option ℕ
  targetClassList : List String
  trusteeModel : List TrusteeItem
  nextItem : ℕ
  current : Option TrusteeItem
  appliedObjectsCmbBox : List (AppliedObjects × String)
  appliedObjectsIndex : Option ℕ

namespace SecurityTabView

variable (view : SecurityTabView)

/-- `SecurityTab::get_current_trustee`. -/
def getCurrentTrustee : SidBytes :=
  match view.current with
  | none => .empty
  | some item => item.sid

/-- `currentData` of the combo box: the applied objects, and the class of child objects. -/
def currentAppliedObjects : AppliedObjects × String :=
  match view.appliedObjectsIndex.bind (view.appliedObjectsCmbBox[·]?) with
  | none => (.thisObject, "")
  | some data => data

end SecurityTabView

/-- `SecurityTab`, with the memory its descriptors are in. -/
structure SecurityTab extends SecurityTabView where
  currentTab : PermissionsKind
  delegationTabEnabled : Bool
  memory : List (Option SecurityDescriptor)
  widgets : PermissionsKind → PermissionsWidget

/-- What the tab reads besides the globals: the names of trustees, as they are displayed and
    as a connection finds them, the orders of sets, and the tables of the classes. -/
structure SecurityTabContext where
  g : Globals
  objectSidDisplayValue : DomSid → String
  trusteeSetValues : List SidBytes → List SidBytes
  mem_trusteeSetValues : ∀ l sid, sid ∈ trusteeSetValues l ↔ sid ∈ l
  superiorKeys : List AccessMask
  superiorKeys_perm : superiorKeys.Perm CommonPermissionsWidget.objectTypedMasks
  classDisplayNames : QHash String String
  classCategories : QHash String ℤ

/-- `ad_security_get_trustee_name`, over a connection. -/
abbrev TrusteeNames := SidBytes → String

namespace SecurityTab

/-- The tab before anything is loaded. -/
def new : SecurityTab where
  sd := none
  previousSd := none
  targetClassList := []
  trusteeModel := []
  nextItem := 0
  current := none
  appliedObjectsCmbBox := []
  appliedObjectsIndex := none
  currentTab := .common
  delegationTabEnabled := true
  memory := []
  widgets _ := .new

section Memory
variable (tab : SecurityTab)

/-- The descriptor at an address. -/
def descriptor (sd : Option ℕ) : Except Fault SecurityDescriptor :=
  deref (sd.bind fun address => tab.memory[address]?.join)

/-- The descriptor at an address is changed. -/
def setDescriptor (sd : Option ℕ) (descriptor : SecurityDescriptor) : SecurityTab :=
  match sd with
  | none => tab
  | some address => { tab with memory := tab.memory.set address (some descriptor) }

/-- `security_descriptor_free`. -/
def freeDescriptor (sd : Option ℕ) : SecurityTab :=
  match sd with
  | none => tab
  | some address => { tab with memory := tab.memory.set address none }

/-- The address of a descriptor that is allocated, null if there is none. -/
def newAddress (descriptor : Option SecurityDescriptor) : Option ℕ :=
  descriptor.map fun _ => tab.memory.length

/-- A descriptor is allocated. -/
def allocDescriptor (descriptor : Option SecurityDescriptor) : SecurityTab :=
  { tab with memory := tab.memory ++ descriptor.toList.map some }

/-- A widget is changed. -/
def setWidget (kind : PermissionsKind) (w : PermissionsWidget) : SecurityTab :=
  { tab with widgets := Function.update tab.widgets kind w }

end Memory

variable (ctx : SecurityTabContext)

/-! ## The widgets in the tab -/

section Widgets
variable (tab : SecurityTab)

/-- `PermissionsWidget::update_permissions`, with the current applied objects. -/
def updateRows (kind : PermissionsKind) : Except Fault SecurityTab := do
  let w := tab.widgets kind
  let rightsModel ← w.rightsModel.mapM fun row => do
    let sd ← tab.descriptor w.sd
    CommonPermissionsWidget.updateRowCheckState sd (domSidFromBytes ctx.g.rt w.trustee) row
  return tab.setWidget kind { w with rightsModel := rightsModel }

/-- `CommonPermissionsWidget::update_permissions`. Calls from within, by check boxes that are
    checked, are nested five levels deep at most (`updatePermissions_depth`). -/
def updateCommon : Except Fault SecurityTab := do
  let w := tab.widgets .common
  if w.rightsModel.isEmpty then return tab
  let sd ← tab.descriptor w.sd
  let common ← CommonPermissionsWidget.updatePermissions ctx.g 5
    ⟨sd, domSidFromBytes ctx.g.rt w.trustee, w.appliableClass, w.rightsModel,
      w.objectTypedSuperiors⟩
  return (tab.setDescriptor w.sd common.sd).setWidget .common
    { w with rightsModel := common.rightsModel }

/-- `DelegationPermissionsWidget::update_permissions`. -/
def updateTasks : Except Fault SecurityTab := do
  let w := tab.widgets .delegation
  let tasks ← w.tasks.mapM fun row => do
    let sd ← tab.descriptor w.sd
    updateTaskCheckState sd (domSidFromBytes ctx.g.rt w.trustee) row
  return tab.setWidget .delegation { w with tasks := tasks }

/-- `update_permissions` of a widget, with the current applied objects. -/
def updatePermissions : PermissionsKind → Except Fault SecurityTab
  | .common => updateCommon ctx tab
  | .delegation => updateTasks ctx tab
  | kind => updateRows ctx tab kind

/-- `appliable_class`, for some class of child objects. -/
def appliableClassFor (appliableChildClass : String) (targetClassList : List String) :
    Except Fault String :=
  if appliableChildClass.isEmpty then lastClass targetClassList else .ok appliableChildClass

/-- `update_permissions` of a widget, for some applied objects. -/
def updatePermissionsFor (appliedObjs : AppliedObjects) (appliableChildClass : String)
    (kind : PermissionsKind) : Except Fault SecurityTab :=
  match kind with
  | .delegation => return tab
  | kind => do
    let w := tab.widgets kind
    let appliableClass ← appliableClassFor appliableChildClass w.targetClassList
    updateRows ctx (tab.setWidget kind
      { w with
        appliableClass := appliableClass
        rightsModel := w.rightsModel.map
          (kind.updateRow ctx.g appliedObjs appliableChildClass appliableClass) }) kind

/-- `PermissionsWidget::set_current_trustee`. -/
def setCurrentTrustee (currentTrustee : SidBytes) (kind : PermissionsKind) :
    Except Fault SecurityTab :=
  updatePermissions ctx
    (tab.setWidget kind { tab.widgets kind with trustee := currentTrustee }) kind

/-- The class that `init` of a widget looks up: the rights of the common widget are the same
    for all classes. -/
def initClass (kind : PermissionsKind) (targetClasses : List String) : Except Fault String :=
  if kind = .common then .ok "" else lastClass targetClasses

/-- `init` of a widget. -/
def initWidget (targetClasses : List String) (sd : Option ℕ) (kind : PermissionsKind) :
    Except Fault SecurityTab := do
  let targetClass ← initClass kind targetClasses
  return tab.setWidget kind
    { tab.widgets kind with
      sd := sd
      targetClassList := targetClasses
      rightsModel := (kind.rights ctx.g targetClass).map fun right => ⟨right, false, false⟩
      tasks := kind.tasks ctx.g targetClass
      objectTypedSuperiors := if kind = .common then ctx.superiorKeys else [] }

/-- A loop over the widgets. -/
def forWidgets (f : SecurityTab → PermissionsKind → Except Fault SecurityTab) :
    Except Fault SecurityTab :=
  permissionsWidgets.foldlM f tab

end Widgets

/-! ## Trustees -/

section Trustees
variable (tab : SecurityTab)

/-- The handler of `currentChanged`. -/
def onCurrentChanged : Except Fault SecurityTab :=
  let currentTrustee := tab.getCurrentTrustee
  if currentTrustee = .empty then return tab
  else tab.forWidgets fun tab kind => tab.setCurrentTrustee ctx currentTrustee kind

/-- `QItemSelectionModel::setCurrentIndex`, with the signal, unless it is blocked. -/
def setCurrentIndex (blocked : Bool) (item : Option TrusteeItem) : Except Fault SecurityTab :=
  if item = tab.current then return tab
  else
    let tab := { tab with current := item }
    if blocked then return tab else onCurrentChanged ctx tab

/-- `SecurityTab::add_trustees`. The current item stays the same when the view is sorted. -/
def addTrustees (names : TrusteeNames) (sidList : List SidBytes) : SecurityTab :=
  let sidString := fun sid => ctx.objectSidDisplayValue (domSidFromBytes ctx.g.rt sid)
  let currentSidStringList := tab.trusteeModel.map fun item => sidString item.sid
  let added := sidList.filter fun sid => !currentSidStringList.contains (sidString sid)
  let items := added.zipIdx.map fun (sid, i) => TrusteeItem.mk (tab.nextItem + i) (names sid) sid
  { tab with
    trusteeModel := (tab.trusteeModel ++ items).insertionSort fun item item' =>
      utf16 item.text ≤ utf16 item'.text
    nextItem := tab.nextItem + added.length }

/-- `security_descriptor_get_trustee_list`. -/
def securityDescriptorGetTrusteeList (sd : SecurityDescriptor) : Except Fault (List SidBytes) := do
  let dacl ← securityDescriptorGetDacl sd
  return ctx.trusteeSetValues (dacl.map fun ace => domSidToBytes ace.trustee)

/-- The item that `load_sd` selects: one of the trustee that was selected before, or the first
    one. -/
def selectedTrustee (previousSelectedTrustee : SidBytes) (trusteeModel : List TrusteeItem) :
    Option TrusteeItem :=
  let matchList := trusteeModel.filter fun item => item.sid = previousSelectedTrustee
  matchList.head?.orElse fun _ => trusteeModel.head?

/-- `SecurityTab::load_sd`, for the descriptor of the tab. -/
def loadSd (blocked : Bool) (names : TrusteeNames) : Except Fault SecurityTab := do
  let previousSelectedTrustee := tab.getCurrentTrustee
  -- when all rows are removed, no item is the current one
  let tab ← setCurrentIndex ctx tab blocked none
  let trusteeList ← securityDescriptorGetTrusteeList ctx (← tab.descriptor tab.sd)
  let tab := addTrustees ctx { tab with trusteeModel := [] } names trusteeList
  setCurrentIndex ctx tab blocked (selectedTrustee previousSelectedTrustee tab.trusteeModel)

/-- `security_descriptor_remove_trustee`, on the descriptor of the tab. -/
def removeTrustees (removedTrusteeList : List SidBytes) : Except Fault SecurityTab := do
  let sd ← tab.descriptor tab.sd
  let sd ← securityDescriptorRemoveTrustee sd
    (removedTrusteeList.map (domSidFromBytes ctx.g.rt))
  return tab.setDescriptor tab.sd sd

end Trustees

/-! ## Applied objects -/

section AppliedObjects
variable (tab : SecurityTab)

/-- The tab for delegation is enabled for the object itself only. If it is the current one when
    it is disabled, its neighbour is shown instead. -/
def enableDelegation : AppliedObjects → Except Fault SecurityTab
  | .thisObject => return { tab with delegationTabEnabled := true }
  | _ =>
    if tab.currentTab = .delegation then
      updatePermissions ctx { tab with delegationTabEnabled := false, currentTab := .readWrite }
        .readWrite
    else return { tab with delegationTabEnabled := false }

/-- `SecurityTab::on_applied_objs_cmbbox`. -/
def onAppliedObjsCmbbox : Except Fault SecurityTab := do
  let applied := tab.currentAppliedObjects
  let tab ← enableDelegation ctx tab applied.1
  tab.forWidgets fun tab kind => tab.updatePermissionsFor ctx applied.1 applied.2 kind

/-- `AdConfig::class_is_auxiliary`. -/
def classIsAuxiliary (objClass : String) : Bool := ctx.classCategories.value objClass 0 = 3

/-- The items of `SecurityTab::load_applied_objects_cmbbox` for child classes: those with a
    name first. -/
def childClassItems (targetClass : String) : List (AppliedObjects × String) :=
  let inferiors := (ctx.g.adconfig.allInferiorsList targetClass).filter fun inferior =>
    !classIsAuxiliary ctx inferior
  let text := fun inferior => ctx.classDisplayNames.value inferior inferior
  let textClassMap : QHash String String :=
    inferiors.foldl (fun map inferior => map.insert (text inferior) inferior) []
  let sorted := fun names : List String => names.insertionSort fun name name' =>
    utf16 name ≤ utf16 name'
  let translatedClassNames := (inferiors.filter fun inferior => text inferior ≠ inferior).map text
  let notTranslatedClassNames := inferiors.filter fun inferior => text inferior = inferior
  (sorted translatedClassNames ++ sorted notTranslatedClassNames).map fun className =>
    (.childObjectClass, textClassMap.value className "")

/-- `SecurityTab::load_applied_objects_cmbbox`: the first item becomes the current one. -/
def loadAppliedObjectsCmbbox : Except Fault SecurityTab := do
  let tab ← onAppliedObjsCmbbox ctx
    { tab with appliedObjectsCmbBox := [(.thisObject, "")], appliedObjectsIndex := some 0 }
  let targetClass ← lastClass tab.targetClassList
  return { tab with
    appliedObjectsCmbBox := [(.thisObject, ""), (.thisAndChildObjects, ""),
      (.allChildObjects, "")] ++ childClassItems ctx targetClass }

end AppliedObjects

/-! ## Loading and editing -/

section Editing
variable (tab : SecurityTab)

/-- `SecurityTab::load`, for an object of these classes, with this descriptor, null if its bytes
    cannot be decoded. -/
def load (names : TrusteeNames) (objectClass : List String)
    (descriptor : Option SecurityDescriptor) : Except Fault SecurityTab := do
  let tab := tab.freeDescriptor tab.sd
  let tab :=
    { tab.allocDescriptor descriptor with
      sd := tab.newAddress descriptor
      targetClassList := objectClass }
  let tab ← tab.forWidgets fun t kind => t.initWidget ctx objectClass tab.sd kind
  let tab ← loadSd ctx tab false names
  if tab.appliedObjectsCmbBox.isEmpty then loadAppliedObjectsCmbbox ctx tab
  else onAppliedObjsCmbbox ctx tab

/-- `SecurityTab::on_remove_trustee_button`. -/
def onRemoveTrusteeButton (names : TrusteeNames) : Except Fault SecurityTab := do
  let removedTrusteeList := (tab.current.map TrusteeItem.sid).toList
  let tab ← removeTrustees ctx tab removedTrusteeList
  loadSd ctx tab false names

/-- `SecurityTab::on_clear_all`. -/
def onClearAll : Except Fault SecurityTab := do
  let trustee := tab.getCurrentTrustee
  if trustee = .empty then return tab
  let tab ← removeTrustees ctx tab [trustee]
  tab.forWidgets fun tab kind => tab.updatePermissions ctx kind

/-- `SecurityTab::on_restore_previous_sd`, when connected. -/
def onRestorePreviousSd (names : TrusteeNames) : Except Fault SecurityTab := do
  if tab.previousSd = none then return tab
  let tab := tab.freeDescriptor tab.sd
  let copy ← tab.descriptor tab.previousSd
  let tab := { tab.allocDescriptor (some copy) with sd := tab.newAddress (some copy) }
  let tab ← loadSd ctx tab true names
  let tab ← tab.forWidgets fun t kind => t.initWidget ctx tab.targetClassList tab.sd kind
  onAppliedObjsCmbbox ctx tab

/-- `SecurityTabEdit::apply`: the descriptor of the object, if it is found, becomes the previous
    one. -/
def apply (target : Option (Option SecurityDescriptor)) : SecurityTab :=
  match target with
  | none => tab
  | some descriptor =>
    let tab := tab.freeDescriptor tab.previousSd
    { tab.allocDescriptor descriptor with previousSd := tab.newAddress descriptor }

/-- The loop of `PermissionsWidget::on_item_changed`, for one right. -/
def editRight (target : EditTarget) (allow checked : Bool) (tab : SecurityTab)
    (right : SecurityRight) : Except Fault SecurityTab := do
  let trustee := domSidFromBytes ctx.g.rt target.trustee
  let classList := [target.appliableClass]
  let sd ← tab.descriptor target.sd
  let edited :=
    if checked then securityDescriptorAddRight ctx.g sd classList trustee right allow
    else securityDescriptorRemoveRight ctx.g sd classList trustee right allow
  return tab.setDescriptor target.sd (← edited)

/-- `PermissionsWidget::on_item_changed`. -/
def onItemChanged (kind : PermissionsKind) (rights : List SecurityRight) (allow checked : Bool) :
    Except Fault SecurityTab := do
  let target := (tab.widgets kind).toEditTarget
  let tab ← rights.foldlM (editRight ctx target allow checked) tab
  tab.updatePermissions ctx kind

/-- The check box of a task is toggled. -/
def toggleTask (row : ℕ) (task : TaskRow) : Except Fault SecurityTab :=
  let w := tab.widgets .delegation
  let tasks := w.tasks.set row { task with assigned := !task.assigned }
  onItemChanged ctx (tab.setWidget .delegation { w with tasks := tasks }) .delegation task.rights
    true (!task.assigned)

/-- A check box of a right is toggled. -/
def toggleRight (kind : PermissionsKind) (row : ℕ) (item : PermissionRow) (allow : Bool) :
    Except Fault SecurityTab :=
  let w := tab.widgets kind
  let checked := if allow then !item.allowed else !item.denied
  let item' :=
    if allow then { item with allowed := checked } else { item with denied := checked }
  onItemChanged ctx (tab.setWidget kind { w with rightsModel := w.rightsModel.set row item' }) kind
    [item.right] allow checked

/-- A check box in a row of the current tab is toggled, if there is one: a task can only be
    allowed. -/
def toggle (row : ℕ) (allow : Bool) : Except Fault SecurityTab :=
  match tab.currentTab with
  | .delegation =>
    match (tab.widgets .delegation).tasks[row]? with
    | some task => if allow then toggleTask ctx tab row task else return tab
    | none => return tab
  | kind =>
    match (tab.widgets kind).rightsModel[row]? with
    | some item => toggleRight ctx tab kind row item allow
    | none => return tab

end Editing

/-! ## Runs -/

/-- What is done with the tab. -/
inductive Action
  | load (names : TrusteeNames) (objectClass : List String)
    (descriptor : Option SecurityDescriptor)
  | select (item : TrusteeItem)
  | addTrustees (names : TrusteeNames) (sidList : List SidBytes)
  | removeTrustee (names : TrusteeNames)
  | clearAll
  | restorePrevious (names : TrusteeNames)
  | chooseAppliedObjects (index : ℕ)
  | switchTab (kind : PermissionsKind)
  | toggle (row : ℕ) (allow : Bool)
  | apply (target : Option (Option SecurityDescriptor))

/-- A step of a run. -/
def step (tab : SecurityTab) : Action → Except Fault SecurityTab
  | .load names objectClass descriptor => load ctx tab names objectClass descriptor
  | .select item =>
    if item ∈ tab.trusteeModel then setCurrentIndex ctx tab false (some item) else return tab
  | .addTrustees names sidList => return addTrustees ctx tab names sidList
  | .removeTrustee names => onRemoveTrusteeButton ctx tab names
  | .clearAll => onClearAll ctx tab
  | .restorePrevious names => onRestorePreviousSd ctx tab names
  | .chooseAppliedObjects index =>
    -- the signal of the combo box is emitted if another item is chosen
    if index < tab.appliedObjectsCmbBox.length ∧ tab.appliedObjectsIndex ≠ some index then
      onAppliedObjsCmbbox ctx { tab with appliedObjectsIndex := some index }
    else return tab
  | .switchTab kind =>
    if kind = tab.currentTab ∨ (kind = .delegation ∧ !tab.delegationTabEnabled) then return tab
    else updatePermissions ctx { tab with currentTab := kind } kind
  | .toggle row allow => toggle ctx tab row allow
  | .apply target => return tab.apply target

end SecurityTab

end Admc
