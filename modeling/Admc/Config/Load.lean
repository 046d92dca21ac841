import Admc.Interface.SearchCondition
import Admc.Lib.DepthFirst
import Admc.Schema

/-!
# Loading the configuration

The tables of `AdConfigPrivate`, and how `AdConfig::load` fills them from the directory:
the root DSE, the schema, the display specifiers and the extended rights. Eight of the
tables are cleared first; the others keep what they have, but for the keys that are
loaded again.

The attributes that permissions can be given for are loaded by a walk over the classes,
from the domain to the classes of its possible inferiors, and past those that are in the
table already (`loadPermissionableAttributes`).
-/

namespace Admc

/-! ## The directory -/

/-- What is asked of the connection while the configuration is loaded, in one state of the
    directory. The results of a search are in the order of the hash. -/
structure AdConnection where
  domain : String
  clientUser : String
  results : SearchRequest → QHash String AdObject

namespace AdConnection

variable (ad : AdConnection)

/-- `AdInterface::search`. -/
def search (base : String) (scope : SearchScope) (filter : QString) (attributes : List String) :
    QHash String AdObject := ad.results ⟨base, scope, .ofList filter, attributes, false⟩

/-- `AdInterface::search_object`. -/
def searchObject (dn : String) (attributes : List String) : AdObject :=
  let results := ad.search dn .object [] attributes
  if results.contains dn then results.value dn .empty else .empty

end AdConnection

/-- `QLocale`, by its language. -/
inductive QLocale
  | english
  | russian
  | other (code : ℕ)
  deriving DecidableEq

/-- `lcid_from_locale`. -/
def lcidFromLocale (locale : QLocale) : ℤ :=
  QHash.value [(QLocale.english, (409 : ℤ)), (.russian, 419)] locale 409

/-- `lcid_string_from_locale`. -/
def lcidStringFromLocale (locale : QLocale) : QString := number (lcidFromLocale locale)

/-! ## The tables -/

/-- `class AdConfigPrivate`. -/
structure AdConfigPrivate where
  domain : String
  domainDn : String
  configurationDn : String
  schemaDn : String
  domainSid : String
  rootDomainDn : String
  user : String
  filterContainers : List String
  columns : List String
  columnDisplayNames : QHash String String
  classDisplayNames : QHash String String
  findAttributes : QHash String (List String)
  attributeDisplayNames : QHash String (QHash String String)
  attributeSchemas : AttributeSchemas
  classSchemas : QHash String AdObject
  rightToGuidMap : QHash String QByteArray
  rightGuidToCnMap : QHash QByteArray String
  rightsGuidToNameMap : QHash QByteArray String
  rightsNameToGuidMap : QHash String QByteArray
  rightsAppliesToMap : QHash QByteArray (List String)
  extendedRightsList : List String
  rightsValidAccessesMap : QHash String (BitVec 32)
  guidToAttributeMap : QHash QByteArray String
  guidToClassMap : QHash QByteArray String
  supportedControlList : List String
  subClassOfMap : QHash String String
  classPossibleInferiorsMap : QHash String (List String)
  classPermissionableAttributesMap : QHash String (List String)

/-- `AdConfigPrivate::AdConfigPrivate`. -/
def AdConfigPrivate.new : AdConfigPrivate :=
  ⟨"", "", "", "", "", "", "", [], [], [], [], [], [], [], [], [], [], [], [], [], [], [], [], [],
    [], [], [], []⟩

/-- `QHash::operator[]`, where entries are assigned one after the other. -/
def QHash.insertAll {κ ν : Type*} [DecidableEq κ] (hash : QHash κ ν) (pairs : List (κ × ν)) :
    QHash κ ν := pairs.foldl (fun hash pair => hash.insert pair.1 pair.2) hash

/-- `QString::split`, at a comma. -/
def splitComma (text : String) : List String := (text.toList.splitOn ',').map .ofList

/-! ### GUIDs -/

/-- The value of a hexadecimal digit. -/
def hexValue (c : Char) : Option ℕ :=
  if '0' ≤ c ∧ c ≤ '9' then some (c.toNat - '0'.toNat)
  else if 'a' ≤ c ∧ c ≤ 'f' then some (c.toNat - 'a'.toNat + 10)
  else if 'A' ≤ c ∧ c ≤ 'F' then some (c.toNat - 'A'.toNat + 10)
  else none

/-- The bytes of hexadecimal digits, from the last ones on. -/
def hexBytes : List ℕ → QByteArray
  | [] => []
  | [low] => [.ofNat low]
  | low :: high :: digits => .ofNat (16 * high + low) :: hexBytes digits

/-- `QByteArray::fromHex`: other characters are skipped. -/
def fromHex (text : QString) : QByteArray := (hexBytes (text.filterMap hexValue).reverse).reverse

/-- `guid_string_to_segment_list`: the first three segments are reversed. -/
def guidStringToSegmentList (guidString : QString) : List QByteArray :=
  let out := (guidString.splitOn '-').map fromHex
  (out.take 3).map List.reverse ++ out.drop 3

/-- `guid_string_to_bytes`. -/
def guidStringToBytes (guidString : String) : QByteArray :=
  if guidString = "" then [] else (guidStringToSegmentList guidString.toList).flatten

/-! ## Loading -/

section
variable (rt : Runtime) (translate : String → String → String)
  (objectSidDisplayValue : QByteArray → String) (ad : AdConnection) (locale : QLocale)

/-- The filter for the objects of a class. -/
def objectClassFilter (objectClass : String) : QString :=
  filterCondition .equals "objectClass".toList objectClass.toList

namespace AdConfigPrivate

/-- `AdConfig::get_locale_dir`. -/
def getLocaleDir (d : AdConfigPrivate) : String :=
  "CN=" ++ .ofList (lcidStringFromLocale locale) ++ ",CN=DisplaySpecifiers," ++ d.configurationDn

/-- The part of `AdConfig::load` up to the loaders: what is cleared, and what the root DSE says. -/
def loadRootDse (d : AdConfigPrivate) : AdConfigPrivate :=
  let rootDse := ad.searchObject "" []
  let domainDn := rootDse.getString rt "defaultNamingContext"
  let domainObject := ad.searchObject domainDn []
  { d with
    domain := ad.domain
    user := ad.clientUser
    filterContainers := []
    columns := []
    columnDisplayNames := []
    classDisplayNames := []
    findAttributes := []
    attributeDisplayNames := []
    attributeSchemas := []
    classSchemas := []
    domainDn := domainDn
    schemaDn := rootDse.getString rt "schemaNamingContext"
    configurationDn := rootDse.getString rt "configurationNamingContext"
    supportedControlList := rootDse.getStrings rt "supportedControl"
    rootDomainDn := rootDse.getString rt "rootDomainNamingContext"
    domainSid := objectSidDisplayValue (domainObject.getValue "objectSid") }

/-- The results of the search in `AdConfig::load_attribute_schemas`. -/
def attributeSchemaObjects (schemaDn : String) : List AdObject :=
  (ad.search schemaDn .children (objectClassFilter "attributeSchema")
    ["lDAPDisplayName", "attributeSyntax", "oMSyntax", "isSingleValued", "systemOnly", "rangeUpper",
      "linkID", "systemFlags", "schemaIDGUID"]).values

/-- The loop of `AdConfig::load_attribute_schemas`, for one object. -/
def loadAttributeSchema (d : AdConfigPrivate) (object : AdObject) : AdConfigPrivate :=
  let attr := object.getString rt "lDAPDisplayName"
  let guid := object.getValue "schemaIDGUID"
  { d with
    attributeSchemas := d.attributeSchemas.insert attr object
    guidToAttributeMap := d.guidToAttributeMap.insert guid attr }

/-- `AdConfig::load_attribute_schemas`. -/
def loadAttributeSchemas (d : AdConfigPrivate) : AdConfigPrivate :=
  (attributeSchemaObjects ad d.schemaDn).foldl (loadAttributeSchema rt) d

/-- The results of the search in `AdConfig::load_class_schemas`. -/
def classSchemaObjects (schemaDn : String) : List AdObject :=
  (ad.search schemaDn .children (objectClassFilter "classSchema")
    ["lDAPDisplayName", "possSuperiors", "systemPossSuperiors", "mayContain", "systemMayContain",
      "mustContain", "systemMustContain", "auxiliaryClass", "systemAuxiliaryClass", "schemaIDGUID",
      "subClassOf", "schemaIDGUID", "possibleInferiors"]).values

/-- The loop of `AdConfig::load_class_schemas`, for one object. -/
def loadClassSchema (d : AdConfigPrivate) (object : AdObject) : AdConfigPrivate :=
  let objectClass := object.getString rt "lDAPDisplayName"
  let guid := object.getValue "schemaIDGUID"
  let subClassOf := object.getString rt "subClassOf"
  let possibleInferiors := object.getStrings rt "possibleInferiors"
  { d with
    classSchemas := d.classSchemas.insert objectClass object
    guidToClassMap := d.guidToClassMap.insert guid objectClass
    subClassOfMap := d.subClassOfMap.insert objectClass subClassOf
    classPossibleInferiorsMap := d.classPossibleInferiorsMap.insert objectClass possibleInferiors }

/-- `AdConfig::load_class_schemas`. -/
def loadClassSchemas (d : AdConfigPrivate) : AdConfigPrivate :=
  (classSchemaObjects ad d.schemaDn).foldl (loadClassSchema rt) d

/-- `QString::remove`, of a text whose letters are among those of ASCII, in any case. -/
def removeIgnoringCase (before : QString) : ℕ → QString → QString
  | _, [] => []
  | skip + 1, _ :: cs => removeIgnoringCase before skip cs
  | 0, c :: cs =>
    if (before.map Char.toLower).isPrefixOf ((c :: cs).map Char.toLower) then
      removeIgnoringCase before (before.length - 1) cs
    else c :: removeIgnoringCase before 0 cs

/-- `dn_to_object_class`: the class of the DN of a display specifier. -/
def dnToObjectClass (dn : String) : String :=
  let rdn := (splitComma dn).headD ""
  let out := removeIgnoringCase "CN=".toList 0 rdn.toList
  .ofList (removeText "-Display".toList out)

/-- `display_names_to_attributes`. -/
def displayNamesToAttributes (displayNames : List String) : List String :=
  displayNames.map fun displayNamePair => (splitComma displayNamePair).headD ""

/-- The inner loop of `AdConfig::load_display_names`, for one pair, which has a comma. -/
def loadAttributeDisplayName (objectClass : String) (d : AdConfigPrivate)
    (displayNamePair : String) : AdConfigPrivate :=
  let split := splitComma displayNamePair
  let attributeName := split.headD ""
  let displayName := split.getD 1 ""
  let names := d.attributeDisplayNames.value objectClass []
  { d with
    attributeDisplayNames :=
      d.attributeDisplayNames.insert objectClass (names.insert attributeName displayName) }

/-- The loop of `AdConfig::load_display_names`, for one object. -/
def loadDisplayName (d : AdConfigPrivate) (object : AdObject) : AdConfigPrivate :=
  let objectClass := dnToObjectClass object.dn
  let d :=
    if object.attributesData.contains "classDisplayName" then
      { d with
        classDisplayNames :=
          d.classDisplayNames.insert objectClass (object.getString rt "classDisplayName") }
    else d
  if object.attributesData.contains "attributeDisplayNames" then
    let displayNames := object.getStrings rt "attributeDisplayNames"
    let d := displayNames.foldl (loadAttributeDisplayName objectClass) d
    { d with
      findAttributes :=
        d.findAttributes.insert objectClass (displayNamesToAttributes displayNames) }
  else d

/-- `AdConfig::load_display_names`. -/
def loadDisplayNames (localeDir : String) (d : AdConfigPrivate) : AdConfigPrivate :=
  let results := ad.search localeDir .children [] ["classDisplayName", "attributeDisplayNames"]
  results.values.foldl (loadDisplayName rt) d

/-- `get_column_values`. -/
def getColumnValues (localeDir : String) : List String :=
  let object := ad.searchObject ("CN=default-Display," ++ localeDir) ["extraColumns"]
  (object.getStrings rt "extraColumns").reverse

/-- The lambda `add_custom` of `AdConfig::load_columns`. -/
def addCustom (attr displayName : String) (d : AdConfigPrivate) : AdConfigPrivate :=
  { d with
    columns := attr :: d.columns
    columnDisplayNames := d.columnDisplayNames.insert attr displayName }

/-- The loop of `AdConfig::load_columns`, for one value. -/
def loadColumn (d : AdConfigPrivate) (value : String) : AdConfigPrivate :=
  match splitComma value with
  | attr :: attributeDisplayName :: _ =>
    { d with
      columns := d.columns ++ [attr]
      columnDisplayNames := d.columnDisplayNames.insert attr attributeDisplayName }
  | _ => d

/-- `AdConfig::load_columns`. -/
def loadColumns (localeDir : String) (d : AdConfigPrivate) : AdConfigPrivate :=
  let d := (getColumnValues rt ad localeDir).foldl loadColumn d
  let d := d.addCustom "distinguishedName" (translate "AdConfig" "Distinguished name")
  let d := d.addCustom "description" (translate "AdConfig" "Description")
  let d := d.addCustom "objectClass" (translate "AdConfig" "Class")
  d.addCustom "name" (translate "AdConfig" "Name")

/-- `get_categories`. -/
def getCategories (object : AdObject) : List String :=
  (object.getStrings rt "msDS-FilterContainers").map fun category =>
    .ofList (replaceText "dns-Zone".toList "Dns-Zone".toList category.toList)

/-- `AdConfig::load_filter_containers`. -/
def loadFilterContainers (localeDir : String) (d : AdConfigPrivate) : AdConfigPrivate :=
  let object :=
    ad.searchObject ("CN=DS-UI-Default-Settings," ++ localeDir) ["msDS-FilterContainers"]
  let objectClasses := (getCategories rt object).map fun objectCategory =>
    let categoryObject :=
      ad.searchObject ("CN=" ++ objectCategory ++ "," ++ d.schemaDn) ["lDAPDisplayName"]
    categoryObject.getString rt "lDAPDisplayName"
  { d with
    filterContainers :=
      d.filterContainers ++ objectClasses ++ ["domainDNS", "configuration", "dMD"] }

/-- `AdConfig::guid_to_class`. -/
def guidToClass (d : AdConfigPrivate) (guid : QByteArray) : String :=
  d.guidToClassMap.value guid "<unknown class>"

/-- `AdConfig::get_applies_to_classes`. -/
def getAppliesToClasses (d : AdConfigPrivate) (object : AdObject) : List String :=
  (object.getStrings rt "appliesTo").map fun classGuidString =>
    d.guidToClass (guidStringToBytes classGuidString)

/-- The results of the search in `AdConfig::load_extended_rights`. -/
def extendedRightObjects (configurationDn : String) : List AdObject :=
  (ad.search ("CN=Extended-Rights," ++ configurationDn) .children
    (objectClassFilter "controlAccessRight")
    ["cn", "displayName", "rightsGuid", "appliesTo", "validAccesses"]).values

/-- The loop of `AdConfig::load_extended_rights`, for one object. -/
def loadExtendedRight (d : AdConfigPrivate) (object : AdObject) : AdConfigPrivate :=
  let cn := object.getString rt "cn"
  let guidString := object.getString rt "rightsGuid"
  let guid := guidStringToBytes guidString
  let displayName := object.getValue "displayName"
  let appliesTo := getAppliesToClasses rt d object
  let validAccesses := object.getInt rt "validAccesses"
  { d with
    rightToGuidMap := d.rightToGuidMap.insert cn guid
    rightGuidToCnMap := d.rightGuidToCnMap.insert guid cn
    rightsGuidToNameMap := d.rightsGuidToNameMap.insert guid (rt.fromUtf8 displayName)
    rightsNameToGuidMap := d.rightsNameToGuidMap.insert cn guid
    rightsAppliesToMap := d.rightsAppliesToMap.insert guid appliesTo
    extendedRightsList := d.extendedRightsList ++ [cn]
    rightsValidAccessesMap := d.rightsValidAccessesMap.insert cn validAccesses }

/-- `AdConfig::load_extended_rights`. -/
def loadExtendedRights (d : AdConfigPrivate) : AdConfigPrivate :=
  (extendedRightObjects ad d.configurationDn).foldl (loadExtendedRight rt) d

/-- `AdConfig::get_class_possible_inferiors`. -/
def getClassPossibleInferiors (d : AdConfigPrivate) (klass : String) : List String :=
  d.classPossibleInferiorsMap.value klass []

/-- `AdConfig::is_permissionable`. -/
def isPermissionable (d : AdConfigPrivate) (inferior : String) : Bool :=
  d.classPermissionableAttributesMap.contains inferior

/-- The results of the search in `AdConfig::load_permissionable_attributes`. -/
def permissionableObjects (schemaDn objClass : String) : List AdObject :=
  (ad.search schemaDn .children
    (filterCondition .equals "lDAPDisplayName".toList objClass.toList)
    ["allowedAttributes", "systemMayContain"]).values

/-- The code units of a text in UTF-16, by which `QString` is ordered. -/
def utf16 (text : String) : List ℕ :=
  text.toList.flatMap fun c =>
    if c.toNat < 0x10000 then [c.toNat]
    else [0xd800 + (c.toNat - 0x10000) / 0x400, 0xdc00 + (c.toNat - 0x10000) % 0x400]

/-- The part of `AdConfig::load_permissionable_attributes` that finds the attributes of a class:
    backlinks, constructed and system-only attributes are removed. -/
def permissionableAttrs (schemas : AttributeSchemas) (classSchemaObject : AdObject) : List String :=
  let allowedAttrs := classSchemaObject.getStrings rt "allowedAttributes"
  let attrsSystemMayContain := classSchemaObject.getStrings rt "systemMayContain"
  let allowedAttrsSet := (allowedAttrs ++ attrsSystemMayContain).dedup
  let permissionableAttrsSet := allowedAttrsSet.filter fun attr =>
    !(schemas.getAttributeIsBacklink rt attr || schemas.getAttributeIsConstructed rt attr ||
      schemas.getAttributeIsSystemOnly rt attr)
  permissionableAttrsSet.insertionSort fun attr attr' => utf16 attr ≤ utf16 attr'

/-- `AdConfig::load_permissionable_attributes`, in so many levels of the recursion. -/
def loadPermissionableAttributes : ℕ → String → AdConfigPrivate → Option AdConfigPrivate
  | 0, _, _ => none
  | n + 1, objClass, d =>
    match permissionableObjects ad d.schemaDn objClass with
    | [] => some d
    | classSchemaObject :: _ =>
      let attrs := permissionableAttrs rt d.attributeSchemas classSchemaObject
      let d := { d with
        classPermissionableAttributesMap :=
          d.classPermissionableAttributesMap.insert objClass attrs }
      (d.getClassPossibleInferiors objClass).foldlM (fun d inferior =>
        if inferior = objClass || d.isPermissionable inferior then some d
        else loadPermissionableAttributes n inferior d) d

/-- `AdConfig::load` up to the last loader. -/
def loadTables (d : AdConfigPrivate) : AdConfigPrivate :=
  let d := loadRootDse rt objectSidDisplayValue ad d
  let localeDir := d.getLocaleDir locale
  let d := loadAttributeSchemas rt ad d
  let d := loadClassSchemas rt ad d
  let d := loadDisplayNames rt ad localeDir d
  let d := loadColumns rt translate ad localeDir d
  let d := loadFilterContainers rt ad localeDir d
  loadExtendedRights rt ad d

/-- `AdConfig::load`. There are no more levels than classes. -/
def load (d : AdConfigPrivate) : Option AdConfigPrivate :=
  let d := loadTables rt translate objectSidDisplayValue ad locale d
  loadPermissionableAttributes rt ad (d.classPossibleInferiorsMap.values.flatten.length + 1)
    "domainDNS" d

/-! ## Queries -/

section
variable (d : AdConfigPrivate)

/-- `AdConfig::get_fallback_display_names`. -/
def getFallbackDisplayNames : QHash String String :=
  let tr := translate "AdConfig"
  .ofPairs [
    ("name", tr "Name"),
    ("distinguishedName", tr "Distinguished name"),
    ("objectClass", tr "Object class"),
    ("whenCreated", tr "Created"),
    ("whenChanged", tr "Changed"),
    ("uSNCreated", tr "USN created"),
    ("uSNChanged", tr "USN changed"),
    ("accountExpires", tr "Account expires"),
    ("objectCategory", tr "Type"),
    ("profilePath", tr "Profile path"),
    ("scriptPath", tr "Logon script"),
    ("sAMAccountName", tr "Logon name (pre-Windows 2000)"),
    ("mail", tr "E-mail"),
    ("location", tr "Location"),
    ("managedBy", translate "managedBy" "Managed by")]

/-- `AdConfig::does_attribute_display_name_exist`. -/
def doesAttributeDisplayNameExist (attr objectClass : String) : Bool :=
  d.attributeDisplayNames.contains objectClass &&
    (d.attributeDisplayNames.value objectClass []).contains attr

/-- `AdConfig::get_attribute_display_name`. -/
def getAttributeDisplayName (attr objectClass : String) : String :=
  if d.doesAttributeDisplayNameExist attr objectClass then
    (d.attributeDisplayNames.value objectClass []).value attr ""
  else (getFallbackDisplayNames translate).value attr attr

/-- `AdConfig::get_class_display_name`. -/
def getClassDisplayName (objectClass : String) : String :=
  d.classDisplayNames.value objectClass objectClass

/-- `AdConfig::get_possible_superiors`. -/
def getPossibleSuperiors (objectClasses : List String) : List String :=
  (objectClasses.flatMap fun objectClass =>
    let schema := d.classSchemas.value objectClass .empty
    schema.getStrings rt "possSuperiors" ++ schema.getStrings rt "systemPossSuperiors").eraseDups

/-- `AdConfig::get_parent_class`. -/
def getParentClass (objectClass : String) : String := d.subClassOfMap.value objectClass ""

/-- `AdConfig::get_inherit_chain`, if it ends in so many turns. -/
def getInheritChain : ℕ → String → Option (List String)
  | 0, _ => none
  | n + 1, currentClass =>
    let parentClass := d.getParentClass currentClass
    if parentClass = currentClass then some [currentClass]
    else (getInheritChain n parentClass).map fun chain => currentClass :: chain

/-- The table `cn_to_map_russian` of `AdConfig::get_right_name`. -/
def cnToMapRussian : QHash String String :=
  let tr := translate "AdConfig"
  .ofPairs [
    ("DS-Replication-Get-Changes", tr "DS Replication Get Changes"),
    ("DS-Replication-Get-Changes-All", tr "DS Replication Get Changes All"),
    ("Email-Information", tr "Phone and Mail Options"),
    ("DS-Bypass-Quota", tr "Bypass the quota restrictions during creation."),
    ("Receive-As", tr "Receive As"),
    ("Unexpire-Password", tr "Unexpire Password"),
    ("Do-Garbage-Collection", tr "Do Garbage Collection"),
    ("Allowed-To-Authenticate", tr "Allowed To Authenticate"),
    ("Change-PDC", tr "Change PDC"),
    ("Reanimate-Tombstones", tr "Reanimate Tombstones"),
    ("msmq-Peek-Dead-Letter", tr "msmq Peek Dead Letter"),
    ("Certificate-AutoEnrollment", tr "AutoEnrollment"),
    ("DS-Install-Replica", tr "DS Install Replica"),
    ("Domain-Password", tr "Domain Password & Lockout Policies"),
    ("Generate-RSoP-Logging", tr "Generate RSoP Logging"),
    ("Run-Protect-Admin-Groups-Task", tr "Run Protect Admin Groups Task"),
    ("Self-Membership", tr "Self Membership"),
    ("DS-Clone-Domain-Controller", tr "Allow a DC to create a clone of itself"),
    ("Domain-Other-Parameters", tr "Other Domain Parameters (for use by SAM)"),
    ("SAM-Enumerate-Entire-Domain", tr "SAM Enumerate Entire Domain"),
    ("DS-Write-Partition-Secrets", tr "Write secret attributes of objects in a Partition"),
    ("Send-As", tr "Send As"),
    ("DS-Replication-Manage-Topology", tr "DS Replication Manage Topology"),
    ("DS-Set-Owner", tr "Set Owner of an object during creation."),
    ("Generate-RSoP-Planning", tr "Generate RSoP Planning"),
    ("Certificate-Enrollment", tr "Certificate Enrollment"),
    ("Web-Information", tr "Web Information"),
    ("Create-Inbound-Forest-Trust", tr "Create Inbound Forest Trust"),
    ("Migrate-SID-History", tr "Migrate SID History"),
    ("Update-Password-Not-Required-Bit", tr "Update Password Not Required Bit"),
    ("MS-TS-GatewayAccess", tr "MS-TS-GatewayAccess"),
    ("Validated-MS-DS-Additional-DNS-Host-Name",
      tr "Validated write to MS DS Additional DNS Host Name"),
    ("msmq-Receive", tr "msmq Receive"),
    ("Validated-DNS-Host-Name", tr "Validated DNS Host Name"),
    ("Send-To", tr "Send To"),
    ("DS-Replication-Get-Changes-In-Filtered-Set", tr "DS Replication Get Changes In Filtered Set"),
    ("Read-Only-Replication-Secret-Synchronization",
      tr "Read Only Replication Secret Synchronization"),
    ("Validated-MS-DS-Behavior-Version", tr "Validated write to MS DS behavior version"),
    ("msmq-Open-Connector", tr "msmq Open Connector"),
    ("Terminal-Server-License-Server", tr "Terminal Server License Server"),
    ("Change-Schema-Master", tr "Change Schema Master"),
    ("Recalculate-Hierarchy", tr "Recalculate Hierarchy"),
    ("DS-Check-Stale-Phantoms", tr "DS Check Stale Phantoms"),
    ("msmq-Receive-computer-Journal", tr "msmq Receive computer Journal"),
    ("User-Force-Change-Password", tr "User Force Change Password"),
    ("Domain-Administer-Server", tr "Domain Administer Server"),
    ("DS-Replication-Synchronize", tr "DS Replication Synchronize"),
    ("Personal-Information", tr "Personal Information"),
    ("msmq-Peek", tr "msmq Peek"),
    ("General-Information", tr "General Information"),
    ("Membership", tr "Group Membership"),
    ("Add-GUID", tr "Add GUID"),
    ("RAS-Information", tr "Remote Access Information"),
    ("DS-Execute-Intentions-Script", tr "DS Execute Intentions Script"),
    ("Allocate-Rids", tr "Allocate Rids"),
    ("Update-Schema-Cache", tr "Update Schema Cache"),
    ("Apply-Group-Policy", tr "Apply Group Policy"),
    ("User-Account-Restrictions", tr "Account Restrictions"),
    ("Validated-SPN", tr "Validated SPN"),
    ("DS-Read-Partition-Secrets", tr "Read secret attributes of objects in a Partition"),
    ("User-Logon", tr "Logon Information"),
    ("DS-Query-Self-Quota", tr "DS Query Self Quota"),
    ("Change-Infrastructure-Master", tr "Change Infrastructure Master"),
    ("Open-Address-Book", tr "Open Address Book"),
    ("User-Change-Password", tr "User Change Password"),
    ("msmq-Peek-computer-Journal", tr "msmq Peek computer Journal"),
    ("Change-Domain-Master", tr "Change Domain Master"),
    ("msmq-Send", tr "msmq Send"),
    ("Change-Rid-Master", tr "Change Rid Master"),
    ("Recalculate-Security-Inheritance", tr "Recalculate Security Inheritance"),
    ("Refresh-Group-Cache", tr "Refresh Group Cache"),
    ("Manage-Optional-Features", tr "Manage Optional Features"),
    ("Reload-SSL-Certificate", tr "Reload SSL Certificate"),
    ("Enable-Per-User-Reversibly-Encrypted-Password",
      tr "Enable Per User Reversibly Encrypted Password"),
    ("DS-Replication-Monitor-Topology", tr "DS Replication Monitor Topology"),
    ("Public-Information", tr "Public Information"),
    ("Private-Information", tr "Private Information"),
    ("msmq-Receive-Dead-Letter", tr "msmq Receive Dead Letter"),
    ("msmq-Receive-journal", tr "msmq Receive journal"),
    ("DNS-Host-Name-Attributes", tr "DNS Host Name Attributes")]

/-- `AdConfig::get_right_name`. -/
def getRightName (rightGuid : QByteArray) (language : QLocale) : String :=
  let rightCn := d.rightGuidToCnMap.value rightGuid ""
  if language = .russian && (cnToMapRussian translate).contains rightCn then
    (cnToMapRussian translate).value rightCn ""
  else d.rightsGuidToNameMap.value rightGuid (translate "AdConfig" "<unknown rights>")

/-- `AdConfig::rights_applies_to_class`. -/
def rightsAppliesToClass (rightsCn : String) (classList : List String) : Bool :=
  let rightsGuid := d.rightsNameToGuidMap.value rightsCn []
  let appliesToList := d.rightsAppliesToMap.value rightsGuid []
  appliesToList.any classList.contains

/-- `AdConfig::get_extended_rights_list`. -/
def getExtendedRightsList (classList : List String) : List String :=
  d.extendedRightsList.filter fun rights => d.rightsAppliesToClass rights classList

/-- `AdConfig::get_permissionable_attributes`. -/
def getPermissionableAttributes (objClass : String) : List String :=
  d.classPermissionableAttributesMap.value objClass []

end

end AdConfigPrivate

end

end Admc
