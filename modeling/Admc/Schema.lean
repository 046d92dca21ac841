import Admc.Interface.Flags

/-!
# The attributes of the schema

What `AdConfig` says of an attribute, from the object in the schema that describes it:
its type, by the syntax, and whether its values can be written.
-/

namespace Admc

/-- A `QHash` from the pairs of an initializer list. -/
def QHash.ofPairs {κ ν : Type*} [DecidableEq κ] (pairs : List (κ × ν)) : QHash κ ν :=
  pairs.foldl (fun hash pair => hash.insert pair.1 pair.2) []

/-- `enum AttributeType`. -/
inductive AttributeType
  | boolean
  | enumeration
  | integer
  | largeInteger
  | stringCase
  | ia5
  | ntSecDesc
  | numeric
  | objectIdentifier
  | octet
  | replicaLink
  | printable
  | sid
  | teletex
  | unicode
  | utcTime
  | generalizedTime
  | dnString
  | dnBinary
  | dsdn
  deriving DecidableEq, Repr

/-- `enum LargeIntegerSubtype`. -/
inductive LargeIntegerSubtype
  | integer
  | datetime
  | timespan
  deriving DecidableEq, Repr

/-- The table `type_map` of `get_attribute_type`: the types by syntax and OM syntax. A syntax
    that is listed twice has the types of its last pair. -/
def typeMap : QHash String (QHash String AttributeType) :=
  .ofPairs [
    ("2.5.5.8", .ofPairs [("1", .boolean)]),
    ("2.5.5.9", .ofPairs [("10", .enumeration), ("2", .integer)]),
    ("2.5.5.16", .ofPairs [("65", .largeInteger)]),
    ("2.5.5.3", .ofPairs [("27", .stringCase)]),
    ("2.5.5.5", .ofPairs [("22", .ia5)]),
    ("2.5.5.15", .ofPairs [("66", .ntSecDesc)]),
    ("2.5.5.6", .ofPairs [("18", .numeric)]),
    ("2.5.5.2", .ofPairs [("6", .objectIdentifier)]),
    ("2.5.5.10", .ofPairs [("4", .octet), ("127", .replicaLink)]),
    ("2.5.5.5", .ofPairs [("19", .printable)]),
    ("2.5.5.17", .ofPairs [("4", .sid)]),
    ("2.5.5.4", .ofPairs [("20", .teletex)]),
    ("2.5.5.12", .ofPairs [("64", .unicode)]),
    ("2.5.5.11", .ofPairs [("23", .utcTime), ("24", .generalizedTime)]),
    ("2.5.5.14", .ofPairs [("127", .dnString)]),
    ("2.5.5.7", .ofPairs [("127", .dnBinary)]),
    ("2.5.5.1", .ofPairs [("127", .dsdn)])]

/-- The attributes that `get_attribute_large_integer_subtype` lists as times. -/
def datetimeAttributes : List String :=
  ["accountExpires", "lastLogon", "lastLogonTimestamp", "pwdLastSet", "badPasswordTime",
    "creationTime", "msDS-UserPasswordExpiryTimeComputed", "msLAPS-PasswordExpirationTime"]

/-- The attributes that it lists as time spans. -/
def timespanAttributes : List String :=
  ["maxPwdAge", "minPwdAge", "lockoutDuration", "lockOutObservationWindow", "forceLogoff",
    "msDS-LockoutDuration", "msDS-LockoutObservationWindow", "msDS-MaximumPasswordAge",
    "msDS-MinimumPasswordAge"]

/-- `AdConfig::get_attribute_large_integer_subtype`. -/
def getAttributeLargeIntegerSubtype (attr : String) : LargeIntegerSubtype :=
  if datetimeAttributes.contains attr then .datetime
  else if timespanAttributes.contains attr then .timespan
  else .integer

/-- The table `attribute_schemas` of `AdConfigPrivate`. -/
abbrev AttributeSchemas := QHash String AdObject

namespace AttributeSchemas

variable (schemas : AttributeSchemas) (rt : Runtime) (attr : String)

/-- `AdConfig::get_attribute_type`. -/
def getAttributeType : AttributeType :=
  let schema := schemas.value attr .empty
  let attributeSyntax := schema.getString rt "attributeSyntax"
  let omSyntax := schema.getString rt "oMSyntax"
  if typeMap.contains attributeSyntax && (typeMap.value attributeSyntax []).contains omSyntax then
    (typeMap.value attributeSyntax []).value omSyntax .stringCase
  else .stringCase

/-- `AdConfig::get_attribute_is_system_only`. -/
def getAttributeIsSystemOnly : Bool := (schemas.value attr .empty).getBool rt "systemOnly"

/-- `AdConfig::get_attribute_is_backlink`: links have even numbers, and the links back have
    odd ones. -/
def getAttributeIsBacklink : Bool :=
  let schema := schemas.value attr .empty
  if schema.attributesData.contains "linkID" then (schema.getInt rt "linkID").toInt % 2 ≠ 0
  else false

/-- `AdConfig::get_attribute_is_constructed`. -/
def getAttributeIsConstructed : Bool :=
  bitmaskIsSet ((schemas.value attr .empty).getInt rt "systemFlags") 0x00000004

end AttributeSchemas

/-- The schema of one attribute, by its syntax and its OM syntax. -/
def syntaxSchemas (attr syn omSyntax : String) : AttributeSchemas :=
  [(attr, ⟨"", [("attributeSyntax", [toUtf8 syn]), ("oMSyntax", [toUtf8 omSyntax])]⟩)]

theorem getAttributeType_syntaxSchemas (attr syn omSyntax : String) :
    (syntaxSchemas attr syn omSyntax).getAttributeType zeroRuntime attr =
      if typeMap.contains syn && (typeMap.value syn []).contains omSyntax then
        (typeMap.value syn []).value omSyntax .stringCase
      else .stringCase := by
  have hschema : (syntaxSchemas attr syn omSyntax).value attr .empty =
      ⟨"", [("attributeSyntax", [toUtf8 syn]), ("oMSyntax", [toUtf8 omSyntax])]⟩ := by
    simp [syntaxSchemas, QHash.value]
  have hsyntax : AdObject.getString ⟨"", [("attributeSyntax", [toUtf8 syn]),
      ("oMSyntax", [toUtf8 omSyntax])]⟩ zeroRuntime "attributeSyntax" = syn :=
    decodesUtf8_zeroRuntime syn
  have homSyntax : AdObject.getString ⟨"", [("attributeSyntax", [toUtf8 syn]),
      ("oMSyntax", [toUtf8 omSyntax])]⟩ zeroRuntime "oMSyntax" = omSyntax :=
    decodesUtf8_zeroRuntime omSyntax
  rw [AttributeSchemas.getAttributeType, hschema, hsyntax, homSyntax]

end Admc
