import Admc.Security.Match
import Mathlib.Data.List.Dedup

/-!
# The loaded configuration

What `AdConfig` has loaded from the schema and the configuration of the domain,
as far as the rights of a class depend on it, with the queries on it, and the
common tasks that may be delegated.

Hash tables are lists of pairs (of distinct keys), in the order in which they
are iterated, which the code does not control.
-/

namespace Admc

/-- The entries of a `QHash`. -/
abbrev QHash (κ ν : Type*) := List (κ × ν)

/-- `QHash::value`. -/
def QHash.value {κ ν : Type*} [BEq κ] (hash : QHash κ ν) (key : κ) (default : ν) : ν :=
  (hash.lookup key).getD default

/-- `QHash::key`: the first key with the value. -/
def QHash.key {κ ν : Type*} [DecidableEq ν] (hash : QHash κ ν) (value : ν) (default : κ) : κ :=
  ((hash.find? fun entry => entry.2 = value).map Prod.fst).getD default

/-- `QHash::insert`: a key that is there gets the new value. -/
def QHash.insert {κ ν : Type*} [DecidableEq κ] (hash : QHash κ ν) (key : κ) (value : ν) :
    QHash κ ν :=
  if hash.any (·.1 = key) then hash.map fun entry => if entry.1 = key then (key, value) else entry
  else hash ++ [(key, value)]

/-- `QHash::keys`. -/
def QHash.keys {κ ν : Type*} (hash : QHash κ ν) : List κ := hash.map Prod.fst

/-- `QHash::values`. -/
def QHash.values {κ ν : Type*} (hash : QHash κ ν) : List ν := hash.map Prod.snd

/-- `QHash::contains`. -/
def QHash.contains {κ ν : Type*} [DecidableEq κ] (hash : QHash κ ν) (key : κ) : Bool :=
  key ∈ hash.keys

/-- `QHash::remove`. -/
def QHash.remove {κ ν : Type*} [DecidableEq κ] (hash : QHash κ ν) (key : κ) : QHash κ ν :=
  hash.filter (·.1 ≠ key)

section
variable {κ ν : Type*} [DecidableEq κ] {hash : QHash κ ν} {key key' : κ} {value default : ν}

theorem QHash.contains_iff : hash.contains key = true ↔ key ∈ hash.keys := decide_eq_true_iff

/-- Inserting keeps the keys, in their order, and adds a missing one. -/
theorem QHash.keys_insert : (hash.insert key value).keys =
    if key ∈ hash.keys then hash.keys else hash.keys ++ [key] := by
  have hany : hash.any (·.1 = key) = true ↔ key ∈ hash.keys := by
    simp [QHash.keys]
  rw [QHash.insert]
  simp only [hany]
  split_ifs
  · rw [QHash.keys, List.map_map]
    refine List.map_congr_left fun entry _ => ?_
    rw [Function.comp_apply]
    split_ifs with h
    exacts [h.symm, rfl]
  · rw [QHash.keys, List.map_append]
    rfl

theorem QHash.mem_keys_insert :
    key' ∈ (hash.insert key value).keys ↔ key' = key ∨ key' ∈ hash.keys := by
  rw [keys_insert]
  split_ifs with h
  · rw [iff_or_self]
    rintro rfl
    exact h
  · rw [List.mem_append, List.mem_singleton, or_comm]

theorem QHash.nodup_keys_insert (h : hash.keys.Nodup) : (hash.insert key value).keys.Nodup := by
  rw [keys_insert]
  split_ifs with hkey
  · exact h
  · exact h.append (List.nodup_singleton key) (List.disjoint_singleton.2 hkey)

theorem QHash.mem_keys_remove :
    key' ∈ (hash.remove key).keys ↔ key' ≠ key ∧ key' ∈ hash.keys := by
  unfold QHash.remove QHash.keys
  simp only [List.mem_map, List.mem_filter, decide_eq_true_eq]
  constructor
  · rintro ⟨entry, ⟨hmem, hne⟩, rfl⟩
    exact ⟨hne, entry, hmem, rfl⟩
  · rintro ⟨hne, entry, hmem, rfl⟩
    exact ⟨entry, ⟨hmem, hne⟩, rfl⟩

variable [BEq κ] [LawfulBEq κ]

@[simp] theorem QHash.value_cons {entry : κ × ν} : QHash.value (entry :: hash) key default =
    if key = entry.1 then entry.2 else hash.value key default := by
  rw [QHash.value, List.lookup_cons]
  split_ifs with h
  · rw [beq_iff_eq.2 h]
    rfl
  · rw [beq_eq_false_iff_ne.2 h]
    rfl

omit [BEq κ] [LawfulBEq κ] in
theorem QHash.insert_cons_of_ne {entry : κ × ν} (h : entry.1 ≠ key) :
    QHash.insert (entry :: hash) key value = entry :: hash.insert key value := by
  unfold QHash.insert
  simp only [List.any_cons, h, decide_false, Bool.false_or, List.map_cons, if_false,
    List.cons_append]
  split_ifs <;> rfl

theorem QHash.lookup_insert :
    (hash.insert key value).lookup key' = if key' = key then some value else hash.lookup key' := by
  -- the entries of other keys are left as they are
  have hmap : ∀ hash : QHash κ ν, key' ≠ key → List.lookup key' (hash.map fun entry =>
      if entry.1 = key then (key, value) else entry) = hash.lookup key' := by
    intro hash hne
    induction hash with
    | nil => rfl
    | cons entry hash ih =>
      rw [List.map_cons, List.lookup_cons, List.lookup_cons, ih]
      split_ifs with hkey
      · rw [hkey, beq_eq_false_iff_ne.2 hne]
      · rfl
  induction hash with
  | nil =>
    rw [QHash.insert, if_neg (by simp), List.nil_append, List.lookup_cons]
    split_ifs with h
    · rw [beq_iff_eq.2 h]
    · rw [beq_eq_false_iff_ne.2 h]
  | cons entry hash ih =>
    by_cases hkey : entry.1 = key
    · have hinsert : QHash.insert (entry :: hash) key value =
          (key, value) :: hash.map fun entry => if entry.1 = key then (key, value) else entry := by
        simp [QHash.insert, hkey]
      rw [hinsert, List.lookup_cons]
      split_ifs with h
      · rw [beq_iff_eq.2 h]
      · rw [beq_eq_false_iff_ne.2 h, List.lookup_cons, beq_eq_false_iff_ne.2 (hkey ▸ h)]
        exact hmap hash h
    · rw [insert_cons_of_ne hkey, List.lookup_cons, List.lookup_cons, ih]
      by_cases h : key' = entry.1
      · rw [beq_iff_eq.2 h]
        exact (if_neg fun h' => hkey (h.symm.trans h')).symm
      · rw [beq_eq_false_iff_ne.2 h]

theorem QHash.value_insert :
    (hash.insert key value).value key' default =
      if key' = key then value else hash.value key' default := by
  rw [QHash.value, lookup_insert]
  split_ifs <;> rfl

theorem QHash.value_of_not_mem_keys (h : key ∉ hash.keys) : hash.value key default = default := by
  induction hash with
  | nil => rfl
  | cons entry hash ih =>
    rw [QHash.keys, List.map_cons, List.mem_cons, not_or] at h
    rw [value_cons, if_neg h.1]
    exact ih h.2

/-- The value of an entry is found, if no other entry has its key. -/
theorem QHash.value_of_mem {entry : κ × ν} (hnodup : hash.keys.Nodup) (h : entry ∈ hash) :
    hash.value entry.1 default = entry.2 := by
  induction hash with
  | nil => exact absurd h List.not_mem_nil
  | cons first hash ih =>
    rw [QHash.keys, List.map_cons, List.nodup_cons] at hnodup
    rw [value_cons]
    rcases List.mem_cons.1 h with rfl | hmem
    · exact if_pos rfl
    · have hne : entry.1 ≠ first.1 := fun heq => hnodup.1 (heq ▸ List.mem_map_of_mem hmem)
      rw [if_neg hne]
      exact ih hnodup.2 hmem

theorem QHash.mem_values (default : ν) (hnodup : hash.keys.Nodup) :
    value ∈ hash.values ↔ ∃ key ∈ hash.keys, hash.value key default = value := by
  constructor
  · intro h
    obtain ⟨entry, hentry, rfl⟩ := List.mem_map.1 h
    exact ⟨entry.1, List.mem_map_of_mem hentry, value_of_mem hnodup hentry⟩
  · rintro ⟨key, hkey, rfl⟩
    obtain ⟨entry, hentry, rfl⟩ := List.mem_map.1 hkey
    rw [value_of_mem hnodup hentry]
    exact List.mem_map_of_mem hentry

omit [BEq κ] [LawfulBEq κ] in
theorem QHash.mem_values_insert {value' : ν} (h : value' ∈ (hash.insert key value).values) :
    value' = value ∨ value' ∈ hash.values := by
  rw [QHash.insert, QHash.values] at h
  split_ifs at h
  · rw [List.map_map] at h
    obtain ⟨entry, hentry, rfl⟩ := List.mem_map.1 h
    by_cases hkey : entry.1 = key
    · exact .inl (by simp [hkey])
    · refine .inr (List.mem_map.2 ⟨entry, hentry, by simp [hkey]⟩)
  · rw [List.map_append, List.mem_append] at h
    exact h.symm.imp_left List.mem_singleton.1

theorem QHash.lookup_remove :
    (hash.remove key).lookup key' = if key' = key then none else hash.lookup key' := by
  induction hash with
  | nil => exact (ite_self none).symm
  | cons entry hash ih =>
    rw [QHash.remove, List.filter_cons, List.lookup_cons]
    split_ifs with hkey heq heq
    · rw [List.lookup_cons, beq_eq_false_iff_ne.2 (heq ▸ Ne.symm (of_decide_eq_true hkey))]
      exact ih.trans (if_pos heq)
    · rw [List.lookup_cons]
      cases key' == entry.1 with
      | false => exact ih.trans (if_neg heq)
      | true => rfl
    · exact ih.trans (if_pos heq)
    · have hentry : entry.1 = key := by simpa using hkey
      rw [beq_eq_false_iff_ne.2 (hentry ▸ heq)]
      exact ih.trans (if_neg heq)

theorem QHash.value_remove (h : key' ≠ key) :
    (hash.remove key).value key' default = hash.value key' default := by
  rw [QHash.value, lookup_remove, if_neg h]
  rfl

end

/-- `QSet<QString>(..).values()`: an order of the elements. -/
structure QSetValues where
  toFun : List String → List String
  mem_toFun : ∀ l s, s ∈ toFun l ↔ s ∈ l
  nodup_toFun : ∀ l, (toFun l).Nodup

/-- The order of the first occurrences. -/
def QSetValues.dedup : QSetValues := ⟨List.dedup, fun _ _ => List.mem_dedup, List.nodup_dedup⟩

/-- The tables of `AdConfigPrivate` (a GUID is none when its bytes are empty). -/
structure AdConfig where
  rightToGuidMap : QHash String (Option Guid)
  rightsNameToGuidMap : QHash String (Option Guid)
  rightsAppliesToMap : QHash (Option Guid) (List String)
  extendedRightsList : List String
  rightsValidAccessesMap : QHash String AccessMask
  guidToAttributeMap : QHash (Option Guid) String
  guidToClassMap : QHash (Option Guid) String
  classPossibleInferiorsMap : QHash String (List String)
  classPermissionableAttributesMap : QHash String (List String)
  supportedControlList : List String
  setValues : QSetValues

namespace AdConfig

/-- A configuration with nothing loaded. -/
def empty : AdConfig := ⟨[], [], [], [], [], [], [], [], [], [], .dedup⟩

variable (conf : AdConfig)

/-- `AdConfig::get_right_guid`. -/
def getRightGuid (rightCn : String) : Option Guid := conf.rightToGuidMap.value rightCn none

/-- `AdConfig::rights_applies_to_class`. -/
def rightsAppliesToClass (rightsCn : String) (classList : List String) : Bool :=
  let rightsGuid := conf.rightsNameToGuidMap.value rightsCn none
  let appliesToList := conf.rightsAppliesToMap.value rightsGuid []
  appliesToList.any classList.contains

/-- `AdConfig::get_extended_rights_list`. -/
def getExtendedRightsList (classList : List String) : List String :=
  conf.extendedRightsList.filter fun rights => conf.rightsAppliesToClass rights classList

/-- `AdConfig::get_rights_valid_accesses`: group membership cannot be written. -/
def getRightsValidAccesses (rightsCn : String) : AccessMask :=
  if rightsCn = "Membership" then secAdsReadProp
  else conf.rightsValidAccessesMap.value rightsCn 0

/-- `AdConfig::attribute_to_guid`. -/
def attributeToGuid (attr : String) : Option Guid := conf.guidToAttributeMap.key attr none

/-- `AdConfig::guid_from_class`. -/
def guidFromClass (objectClass : String) : Option Guid := conf.guidToClassMap.key objectClass none

/-- `AdConfig::get_possible_inferiors`. -/
def getPossibleInferiors (objClass : String) : List String :=
  conf.classPossibleInferiorsMap.value objClass []

/-- `AdConfig::get_permissionable_attributes`. -/
def getPermissionableAttributes (objClass : String) : List String :=
  conf.classPermissionableAttributesMap.value objClass []

/-- `AdConfig::control_is_supported`. -/
def controlIsSupported (controlOid : String) : Bool :=
  conf.supportedControlList.contains controlOid

/-- `AdConfig::all_inferiors_list`. -/
def allInferiorsList (objClass : String) : List String :=
  conf.setValues.toFun ((conf.getPossibleInferiors objClass).flatMap fun inferiorClass =>
    inferiorClass :: conf.getPossibleInferiors inferiorClass)

end AdConfig

/-! ## Rights built from the configuration -/

section
variable (conf : AdConfig)

/-- `creation_deletion_rights_for_class`. -/
def creationDeletionRightsForClass (objClass : String) : List SecurityRight :=
  let objClassGuid := conf.guidFromClass objClass
  if objClassGuid.isNone then []
  else [⟨secAdsCreateChild, objClassGuid, none, secAceFlagContainerInherit⟩,
    ⟨secAdsDeleteChild, objClassGuid, none, secAceFlagContainerInherit⟩]

/-- `control_children_class_right`. -/
def controlChildrenClassRight (objClass : String) : List SecurityRight :=
  [⟨secAdsGenericAll, none, conf.guidFromClass objClass,
    secAceFlagContainerInherit ||| secAceFlagInheritOnly⟩]

/-- `children_class_read_write_prop_rights`. -/
def childrenClassReadWritePropRights (objClass attr : String) : List SecurityRight :=
  let objClassGuid := conf.guidFromClass objClass
  let propertyGuid := conf.attributeToGuid attr
  [⟨secAdsReadProp, propertyGuid, objClassGuid,
      secAceFlagContainerInherit ||| secAceFlagInheritOnly⟩,
    ⟨secAdsWriteProp, propertyGuid, objClassGuid,
      secAceFlagContainerInherit ||| secAceFlagInheritOnly⟩]

/-- `read_all_children_class_info_rights`. -/
def readAllChildrenClassInfoRights (objClass : String) : List SecurityRight :=
  [⟨secAdsReadProp, none, conf.guidFromClass objClass,
    secAceFlagContainerInherit ||| secAceFlagInheritOnly⟩]

/-- `read_write_property_rights`. -/
def readWritePropertyRights (attr : String) : List SecurityRight :=
  let propertyGuid := conf.attributeToGuid attr
  [⟨secAdsReadProp, propertyGuid, none, secAceFlagContainerInherit⟩,
    ⟨secAdsWriteProp, propertyGuid, none, secAceFlagContainerInherit⟩]

/-- `create_children_class_right`. -/
def createChildrenClassRight (objClass : String) : List SecurityRight :=
  let objClassGuid := conf.guidFromClass objClass
  if objClassGuid.isNone then []
  else [⟨secAdsCreateChild, objClassGuid, none, secAceFlagContainerInherit⟩]

end

/-! ## Common tasks -/

/-- `enum CommonTask`. -/
inductive CommonTask
  | userControl
  | changeUserPassword
  | readAllUserInformation
  | groupControl
  | inetOrgPersonControl
  | changeInetOrgPersonPassword
  | readAllInetOrgPersonInformation
  | groupMembership
  | manageGPLinks
  | domainComputerJoin
  deriving DecidableEq, Repr

/-- The global `common_task_manager`: the configuration it was initialised from, none
    before `init`. -/
structure CommonTaskManager where
  adConf : Option AdConfig

namespace CommonTaskManager

/-- `CommonTaskManager::init`. -/
def init (adconfig : AdConfig) : CommonTaskManager := ⟨some adconfig⟩

variable (manager : CommonTaskManager)

/-- The table `class_common_task_rights_map` that `init` fills. -/
def classCommonTaskRightsMap : QHash String (List CommonTask) :=
  if manager.adConf.isNone then []
  else
    [("user", [.userControl, .changeUserPassword, .readAllUserInformation]),
      ("group", [.groupControl, .groupMembership]),
      ("inetOrgPerson", [.inetOrgPersonControl, .changeInetOrgPersonPassword,
        .readAllInetOrgPersonInformation]),
      ("organizationalUnit", [.manageGPLinks]),
      ("domainDNS", [.domainComputerJoin])]

/-- The rights of a task that `load_common_tasks_rights` loads. -/
def loadCommonTaskRights (adConf : AdConfig) : CommonTask → List SecurityRight
  | .userControl =>
    creationDeletionRightsForClass adConf "user" ++ controlChildrenClassRight adConf "user"
  | .changeUserPassword => childrenClassReadWritePropRights adConf "user" "pwdLastSet"
  | .readAllUserInformation => readAllChildrenClassInfoRights adConf "user"
  | .groupControl =>
    creationDeletionRightsForClass adConf "group" ++ controlChildrenClassRight adConf "group"
  | .inetOrgPersonControl =>
    creationDeletionRightsForClass adConf "inetOrgPerson" ++
      controlChildrenClassRight adConf "inetOrgPerson"
  | .changeInetOrgPersonPassword =>
    childrenClassReadWritePropRights adConf "inetOrgPerson" "pwdLastSet"
  | .readAllInetOrgPersonInformation => readAllChildrenClassInfoRights adConf "inetOrgPerson"
  | .groupMembership => childrenClassReadWritePropRights adConf "group" "member"
  | .manageGPLinks =>
    readWritePropertyRights adConf "gPOptions" ++ readWritePropertyRights adConf "gPLink"
  | .domainComputerJoin => createChildrenClassRight adConf "computer"

/-- The table `common_task_rights`. -/
def commonTaskRights (task : CommonTask) : List SecurityRight :=
  match manager.adConf with
  | none => []
  | some adConf => loadCommonTaskRights adConf task

/-- `CommonTaskManager::rights_for_class`. -/
def rightsForClass (objClass : String) : List SecurityRight :=
  if !manager.classCommonTaskRightsMap.keys.contains objClass then []
  else (manager.classCommonTaskRightsMap.value objClass []).flatMap manager.commonTaskRights

end CommonTaskManager

/-- The globals the rights of a class are built from, with the runtime. -/
structure Globals where
  rt : Runtime
  adconfig : AdConfig
  commonTaskManager : CommonTaskManager

/-- Globals to evaluate the model with: nothing is loaded. -/
def Globals.empty : Globals := ⟨zeroRuntime, .empty, ⟨none⟩⟩

end Admc
