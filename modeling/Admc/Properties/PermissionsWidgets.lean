import Admc.Config.Load
import Admc.Security.CommonPermissions

/-!
# The permission widgets

Each tab for permissions is a widget with rows of rights. There is a row for each of the common
rights, for each right of an extended right, and so on, of the class of the object and of its
inferiors; the rows of the delegation widget are tasks, of several rights each. A widget keeps
the descriptor, the trustee and the class with which it edits (`EditTarget`).

The rights that are shown for a class, and the flags they get for the applied objects, are set
by `updateRow`. Rows that are hidden are kept all the same.
-/

namespace Admc

/-! ## Identifiers in bytes -/

/-- The bytes of an identifier: those of the structure, or those that the directory has. -/
inductive SidBytes
  | empty
  | ofStructure (sid : DomSid)
  | ofAttribute (sid : DomSid)
  deriving DecidableEq

/-- `dom_sid_from_bytes`: past the end of the bytes is what the memory holds. -/
def domSidFromBytes (rt : Runtime) : SidBytes → DomSid
  | .empty => rt.uninit.trustee
  | .ofStructure sid | .ofAttribute sid => sid

/-- `dom_sid_to_bytes`. -/
def domSidToBytes (sid : DomSid) : SidBytes := .ofStructure sid

/-! ## Rows -/

/-- A row of `DelegationPermissionsWidget`, for a task. -/
structure TaskRow where
  rights : List SecurityRight
  assigned : Bool
  deriving DecidableEq

/-- `QStringList::last`. -/
def lastClass (classList : List String) : Except Fault String :=
  match classList.getLast? with
  | none => .error .emptyList
  | some objClass => .ok objClass

namespace AdConfig

variable (conf : AdConfig)

/-- `AdConfig::guid_to_class`. -/
def guidToClass (guid : Option Guid) : String := conf.guidToClassMap.value guid "<unknown class>"

/-- `AdConfig::guid_to_attribute`. -/
def guidToAttribute (guid : Option Guid) : String :=
  conf.guidToAttributeMap.value guid "<unknown attribute>"

/-- `AdConfig::all_extended_right_classes`. -/
def allExtendedRightClasses : List String :=
  conf.setValues.toFun conf.rightsAppliesToMap.values.flatten

end AdConfig

/-- The permission widgets. -/
inductive PermissionsKind
  | common
  | extended
  | creationDeletion
  | readWrite
  | delegation
  deriving DecidableEq

/-- `permissions_widgets`. -/
def permissionsWidgets : List PermissionsKind :=
  [.common, .extended, .creationDeletion, .readWrite, .delegation]

namespace PermissionsKind

open CommonPermissionsWidget

variable (g : Globals)

/-- The classes that rights are shown for: the inferiors, with the class itself. -/
def rightClasses (targetClass : String) : List String :=
  let inferiorList := g.adconfig.allInferiorsList targetClass
  if inferiorList.contains targetClass then inferiorList else inferiorList ++ [targetClass]

/-- The rights in the rows that `init` of a widget appends, for the class of the object. -/
def rights : PermissionsKind → String → List SecurityRight
  | common, _ => adSecurityGetCommonRights
  | extended, targetClass =>
    let allInferiors := g.adconfig.allInferiorsList targetClass
    let extRightsClasses := allInferiors.filter g.adconfig.allExtendedRightClasses.contains
    adSecurityGetExtendedRightsForClass g
      (g.adconfig.setValues.toFun (extRightsClasses ++ [targetClass]))
  | creationDeletion, targetClass =>
    (rightClasses g targetClass).flatMap (creationDeletionRightsForClass g.adconfig)
  | readWrite, targetClass =>
    let allAttrs := g.adconfig.setValues.toFun
      ((rightClasses g targetClass).flatMap g.adconfig.getPermissionableAttributes)
    allAttrs.flatMap (readWritePropertyRights g.adconfig)
  | delegation, _ => []

/-- `DelegationPermissionsWidget::append_common_tasks`. -/
def commonTasks (targetClass : String) : List CommonTask :=
  let childClasses := g.adconfig.getPossibleInferiors targetClass
  (g.commonTaskManager.classCommonTaskRightsMap.keys.filter childClasses.contains).flatMap
    fun objClass => g.commonTaskManager.classCommonTaskRightsMap.value objClass []

/-- The tasks in the rows that `init` of a widget appends. -/
def tasks : PermissionsKind → String → List TaskRow
  | delegation, targetClass => (commonTasks g targetClass).map fun task =>
    ⟨g.commonTaskManager.commonTaskRights task, false⟩
  | _, _ => []

/-- `there_are_rights_for_class`. -/
def thereAreRightsForClass : PermissionsKind → String → Bool
  | common, _ => true
  | extended, objClass => g.adconfig.allExtendedRightClasses.contains objClass
  | creationDeletion, objClass => !(g.adconfig.getPossibleInferiors objClass).isEmpty
  | readWrite, objClass => !(g.adconfig.getPermissionableAttributes objClass).isEmpty
  | delegation, objClass => g.commonTaskManager.classCommonTaskRightsMap.keys.any
    (objClass :: g.adconfig.allInferiorsList objClass).contains

/-- `right_applies_to_class`. -/
def rightAppliesToClass : PermissionsKind → SecurityRight → String → Bool
  | common, right, objClass => CommonPermissionsWidget.rightAppliesToClass g.adconfig right objClass
  | extended, right, objClass =>
    (adSecurityGetExtendedRightsForClass g [objClass]).any fun extRight =>
      extRight.accessMask = right.accessMask ∧ extRight.objectType = right.objectType
  | creationDeletion, right, objClass =>
    let childObjClass := g.adconfig.guidToClass right.objectType
    (g.adconfig.getPossibleInferiors objClass).contains childObjClass
  | readWrite, right, objClass =>
    let attr := g.adconfig.guidToAttribute right.objectType
    (g.adconfig.getPermissionableAttributes objClass).contains attr
  | delegation, _, _ => true

/-- The loop of `PermissionsWidget::update_permissions` for some applied objects: what the
    right of a row becomes. -/
def updateRow (kind : PermissionsKind) (appliedObjs : AppliedObjects)
    (appliableChildClass appliableClass : String) (row : PermissionRow) : PermissionRow :=
  if !kind.thereAreRightsForClass g appliableClass ||
      !kind.rightAppliesToClass g row.right appliableClass then row
  else
    let inheritedObjectType :=
      match appliedObjs with
      | .childObjectClass => g.adconfig.guidFromClass appliableChildClass
      | _ => none
    { row with right := row.right.appliedTo appliedObjs.flags inheritedObjectType }

/-- The rows of the common rights are those of `CommonPermissionsWidget`. -/
theorem updatePermissionsFor_common (w : CommonPermissionsWidget)
    (targetClass : String) (appliedObjs : AppliedObjects) (appliableChildClass : String) :
    w.updatePermissionsFor g.adconfig targetClass appliedObjs appliableChildClass =
      let appliableClass :=
        if appliableChildClass.isEmpty then targetClass else appliableChildClass
      updateRows { w with
        appliableClass := appliableClass
        rightsModel :=
          w.rightsModel.map (updateRow g common appliedObjs appliableChildClass appliableClass) } :=
  rfl

end PermissionsKind

/-! ## Widgets -/

/-- What a widget edits with: the descriptor, by its address, the trustee and the class. They
    are handed on to all that `on_item_changed` calls. -/
structure EditTarget where
  sd : Option ℕ
  trustee : SidBytes
  appliableClass : String
  deriving DecidableEq

/-- What a widget keeps besides its rows. -/
structure WidgetCache extends EditTarget where
  targetClassList : List String
  deriving DecidableEq

/-- `PermissionsWidget`, with `object_typed_superior_indexes` of the common one. -/
structure PermissionsWidget extends WidgetCache where
  rightsModel : List PermissionRow
  tasks : List TaskRow
  objectTypedSuperiors : List AccessMask

/-- A widget that has not been initialised. -/
def PermissionsWidget.new : PermissionsWidget where
  sd := none
  trustee := .empty
  appliableClass := ""
  targetClassList := []
  rightsModel := []
  tasks := []
  objectTypedSuperiors := []

/-- `DelegationPermissionsWidget::update_task_check_state`: the check box shows the state of the
    last right that is looked at, and rights are looked at up to one that is unset. -/
def updateTaskCheckState (sd : SecurityDescriptor) (trustee : DomSid) (row : TaskRow) :
    Except Fault TaskRow := do
  let checked ← row.rights.mapM fun right => do
    let state ← securityDescriptorGetRightState sd trustee right
    return state.get .no .allow || state.get .yes .allow
  return { row with assigned := if checked.isEmpty then row.assigned else checked.all id }

end Admc
