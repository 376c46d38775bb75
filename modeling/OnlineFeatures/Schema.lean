import OnlineFeatures.Rpc.Basic
import OnlineFeatures.Status

/-!
# The schema

The messages, enumerations and calls of the service as they are described to others: every field
with its number, its type and the union it belongs to.
-/

namespace OnlineFeatures

/-- The types of fields. A message or enumeration type is given by its full name. -/
inductive FieldType where
  | double
  | float
  | int64
  | int32
  | bool
  | text
  | message (name : String)
  | bytes
  | enumeration (name : String)
  deriving DecidableEq, Repr

namespace FieldType

/-- The number of a type. -/
def code : FieldType → Nat
  | double => 1
  | float => 2
  | int64 => 3
  | int32 => 5
  | bool => 8
  | text => 9
  | message _ => 11
  | bytes => 12
  | enumeration _ => 14

/-- The name that a type refers to. -/
def reference? : FieldType → Option String
  | message name | enumeration name => some name
  | _ => none

end FieldType

structure FieldDescription where
  number : Nat
  name : String
  type : FieldType
  repeated : Bool
  union : Option String
  deriving DecidableEq, Repr

structure MessageDescription where
  name : String
  fields : List FieldDescription
  /-- The names of the messages declared inside. -/
  nested : List String
  deriving DecidableEq, Repr

namespace Schema

/-- The name of a type within the schema's package. -/
def fullName (name : String) : String := "feast_serving.proto." ++ name

/-- A single field. -/
def single (number : Nat) (name : String) (type : FieldType) : FieldDescription :=
  ⟨number, name, type, false, none⟩

/-- A repeated field. -/
def repeated (number : Nat) (name : String) (type : FieldType) : FieldDescription :=
  ⟨number, name, type, true, none⟩

/-- A member of the value union. -/
def member (number : Nat) (name : String) (type : FieldType) : FieldDescription :=
  ⟨number, name, type, false, some "val"⟩

/-- A message type of the package. -/
def messageType (name : String) : FieldType := .message (fullName name)

def listMessage (name : String) (type : FieldType) : MessageDescription :=
  ⟨name, [repeated 1 "val" type], []⟩

/-- The entry message of a map. -/
def entryMessage (name : String) (value : FieldType) : MessageDescription :=
  ⟨name, [single 1 "key" .text, single 2 "value" value], []⟩

/-- The status enumeration's name. -/
def statusName : String := "GetOnlineFeaturesResponse.FieldStatus"

def messages : List MessageDescription := [
  ⟨"Value", [
    member 1 "bytes_val" .bytes,
    member 2 "string_val" .text,
    member 3 "int32_val" .int32,
    member 4 "int64_val" .int64,
    member 5 "double_val" .double,
    member 6 "float_val" .float,
    member 7 "bool_val" .bool,
    member 11 "bytes_list_val" (messageType "BytesList"),
    member 12 "string_list_val" (messageType "StringList"),
    member 13 "int32_list_val" (messageType "Int32List"),
    member 14 "int64_list_val" (messageType "Int64List"),
    member 15 "double_list_val" (messageType "DoubleList"),
    member 16 "float_list_val" (messageType "FloatList"),
    member 17 "bool_list_val" (messageType "BoolList"),
    member 19 "null_val" (.enumeration (fullName "Null"))], []⟩,
  listMessage "BytesList" .bytes,
  listMessage "StringList" .text,
  listMessage "Int32List" .int32,
  listMessage "Int64List" .int64,
  listMessage "DoubleList" .double,
  listMessage "FloatList" .float,
  listMessage "BoolList" .bool,
  ⟨"GetFeastServingInfoRequest", [], []⟩,
  ⟨"GetFeastServingInfoResponse", [
    single 1 "version" .text,
    single 2 "type" (.enumeration (fullName "FeastServingType")),
    single 10 "job_staging_location" .text], []⟩,
  ⟨"FeatureReferenceV2", [single 1 "feature_table" .text, single 2 "name" .text], []⟩,
  ⟨"GetOnlineFeaturesRequestV2", [
    repeated 2 "entity_rows" (messageType "GetOnlineFeaturesRequestV2.EntityRow"),
    repeated 4 "features" (messageType "FeatureReferenceV2"),
    single 5 "project" .text], ["EntityRow"]⟩,
  ⟨"GetOnlineFeaturesRequestV2.EntityRow", [
    single 1 "timestamp" (.message "google.protobuf.Timestamp"),
    repeated 2 "fields" (messageType "GetOnlineFeaturesRequestV2.EntityRow.FieldsEntry")],
    ["FieldsEntry"]⟩,
  entryMessage "GetOnlineFeaturesRequestV2.EntityRow.FieldsEntry" (messageType "Value"),
  ⟨"GetOnlineFeaturesResponse", [
    repeated 1 "field_values" (messageType "GetOnlineFeaturesResponse.FieldValues")],
    ["FieldValues"]⟩,
  ⟨"GetOnlineFeaturesResponse.FieldValues", [
    repeated 1 "fields" (messageType "GetOnlineFeaturesResponse.FieldValues.FieldsEntry"),
    repeated 2 "statuses" (messageType "GetOnlineFeaturesResponse.FieldValues.StatusesEntry")],
    ["FieldsEntry", "StatusesEntry"]⟩,
  entryMessage "GetOnlineFeaturesResponse.FieldValues.FieldsEntry" (messageType "Value"),
  entryMessage "GetOnlineFeaturesResponse.FieldValues.StatusesEntry"
    (.enumeration (fullName statusName))]

/-- The message of a name. -/
def message? (name : String) : Option MessageDescription := messages.find? fun m => m.name = name

/-- The names of the kinds of serving, by number. -/
def servingKinds : List (String × Nat) :=
  [("FEAST_SERVING_TYPE_INVALID", 0), ("FEAST_SERVING_TYPE_ONLINE", 1),
    ("FEAST_SERVING_TYPE_BATCH", 2)]

/-- The enumerations, each with its names and numbers. -/
def enumerations : List (String × List (String × Nat)) := [
  ("Null", [("NULL", 0)]),
  ("FeastServingType", servingKinds),
  (statusName, FieldStatus.all.map fun s => (s.name, s.number))]

/-- The names and numbers of an enumeration. -/
def enumeration? (name : String) : Option (List (String × Nat)) := enumerations.lookup name

/-- The service's name in the schema. -/
def serviceName : String := "ServingService"

/-- The name of a call's request and that of its answer. -/
def callTypes : RpcMethod → String × String
  | .info => ("GetFeastServingInfoRequest", "GetFeastServingInfoResponse")
  | .features => ("GetOnlineFeaturesRequestV2", "GetOnlineFeaturesResponse")

/-- The calls of the service: name, request and answer. -/
def calls : List (String × String × String) :=
  RpcMethod.all.map fun m => (m.name, fullName (callTypes m).1, fullName (callTypes m).2)

end Schema

end OnlineFeatures
