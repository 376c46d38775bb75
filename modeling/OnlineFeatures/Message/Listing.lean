import OnlineFeatures.Conversion.Unwrapped
import OnlineFeatures.Message.Features
import OnlineFeatures.Message.Info

/-!
# Listings

A message is listed as the fields that are set, in the order of their numbers, each with its name. A
field without presence is set when it differs from its default. Unknown fields are not listed.
-/

namespace OnlineFeatures

/-- What a field holds. -/
inductive Listed where
  | scalar (v : Native)
  /-- A number of an enumeration, in a map. -/
  | number (i : Int)
  | message (fields : List (String × Listed))
  | items (xs : List Listed)
  | entries (es : List (String × Listed))
  deriving Inhabited

/-- The set fields of a message. -/
abbrev Listing := List (String × Listed)

/-- A message that can be listed. -/
class Listable (μ : Type) where
  list : μ → Listing

namespace Listing

/-- A text without presence. -/
def text (name s : String) : Listing := if s = "" then [] else [(name, .scalar (.text s))]

/-- A number without presence. -/
def int (name : String) (i : Int) : Listing := if i = 0 then [] else [(name, .scalar (.int i))]

/-- A repeated field. -/
def repeated {α : Type} (name : String) (f : α → Listed) (xs : List α) : Listing :=
  if xs.isEmpty then [] else [(name, .items (xs.map f))]

/-- A map. -/
def map {α : Type} (name : String) (f : α → Listed) (m : FieldMap α) : Listing :=
  if m.entries.isEmpty then [] else [(name, .entries (m.entries.map fun (k, a) => (k, f a)))]

/-- The message that a field holds. -/
def nested {μ : Type} [Listable μ] (m : μ) : Listed := .message (Listable.list m)

/-- The list message that a field holds. -/
def items {α : Type} (f : α → Native) (l : ListMessage α) : Listing :=
  repeated "val" (fun a => .scalar (f a)) l.items

end Listing

instance : Listable Timestamp where
  list t := Listing.int "seconds" t.seconds.toInt ++ Listing.int "nanos" t.nanos.toInt

/-- What a value's member holds. -/
def Content.listed : Content → Listed
  | .bytesList l => .message (Listing.items .bytes l)
  | .textList l => .message (Listing.items .text l)
  | .int32List l => .message (Listing.items (fun i => .int i.toInt) l)
  | .int64List l => .message (Listing.items (fun i => .int i.toInt) l)
  | .doubleList l => .message (Listing.items .float l)
  | .floatList l => .message (Listing.items (fun x => .float x.toDouble) l)
  | .boolList l => .message (Listing.items .bool l)
  | .null n => .scalar (.int n.toInt)
  | c => .scalar c.unwrap

instance : Listable Value where
  list v := (v.content.map fun c => (c.member, c.listed)).toList

instance : Listable ReferenceMessage where
  list m := Listing.text "feature_table" m.table ++ Listing.text "name" m.name

instance : Listable InfoRequest where
  list _ := []

instance : Listable InfoResponse where
  list m :=
    Listing.text "version" m.version ++ Listing.int "type" m.kind.toInt ++
      Listing.text "job_staging_location" m.jobStagingLocation

instance : Listable EntityRow where
  list m :=
    (m.timestamp.map fun t => ("timestamp", Listing.nested t)).toList ++
      Listing.map "fields" Listing.nested m.fields

instance : Listable FeaturesRequest where
  list m :=
    Listing.repeated "entity_rows" Listing.nested m.entityRows ++
      Listing.repeated "features" Listing.nested m.features ++ Listing.text "project" m.project

instance : Listable FieldValues where
  list m :=
    Listing.map "fields" Listing.nested m.fields ++
      Listing.map "statuses" (fun n => .number n.toInt) m.statuses

instance : Listable FeaturesResponse where
  list m := Listing.repeated "field_values" Listing.nested m.fieldValues

instance : Listable (MapEntry Value) where
  list e :=
    Listing.text "key" e.key ++ (e.value.map fun v => ("value", Listing.nested v)).toList

instance : Listable (MapEntry Int32) where
  list e :=
    Listing.text "key" e.key ++ Listing.int "value" ((e.value.map (·.toInt)).getD 0)

instance : Listable (ListMessage Bytes) := ⟨Listing.items .bytes⟩
instance : Listable (ListMessage String) := ⟨Listing.items .text⟩
instance : Listable (ListMessage Int32) := ⟨Listing.items fun i => .int i.toInt⟩
instance : Listable (ListMessage Int64) := ⟨Listing.items fun i => .int i.toInt⟩
instance : Listable (ListMessage Double) := ⟨Listing.items .float⟩
instance : Listable (ListMessage Single) := ⟨Listing.items fun x => .float x.toDouble⟩
instance : Listable (ListMessage Bool) := ⟨Listing.items .bool⟩

/-! ## Reading by name -/

/-- Reads a message, lists it and writes it again. -/
def Message.relist? (μ : Type) [Message μ] [Listable μ] (bs : Bytes) : Option (Listing × Bytes) :=
  (Message.decode? (μ := μ) bs).map fun m => (Listable.list m, Message.encode m)

/-- The reader of the message of a name. -/
def Message.reader? (name : String) : Option (Bytes → Option (Listing × Bytes)) :=
  match name with
  | "Value" => some (relist? Value)
  | "BytesList" => some (relist? (ListMessage Bytes))
  | "StringList" => some (relist? (ListMessage String))
  | "Int32List" => some (relist? (ListMessage Int32))
  | "Int64List" => some (relist? (ListMessage Int64))
  | "DoubleList" => some (relist? (ListMessage Double))
  | "FloatList" => some (relist? (ListMessage Single))
  | "BoolList" => some (relist? (ListMessage Bool))
  | "GetFeastServingInfoRequest" => some (relist? InfoRequest)
  | "GetFeastServingInfoResponse" => some (relist? InfoResponse)
  | "FeatureReferenceV2" => some (relist? ReferenceMessage)
  | "GetOnlineFeaturesRequestV2" => some (relist? FeaturesRequest)
  | "GetOnlineFeaturesRequestV2.EntityRow" => some (relist? EntityRow)
  | "GetOnlineFeaturesRequestV2.EntityRow.FieldsEntry" => some (relist? (MapEntry Value))
  | "GetOnlineFeaturesResponse" => some (relist? FeaturesResponse)
  | "GetOnlineFeaturesResponse.FieldValues" => some (relist? FieldValues)
  | "GetOnlineFeaturesResponse.FieldValues.FieldsEntry" => some (relist? (MapEntry Value))
  | "GetOnlineFeaturesResponse.FieldValues.StatusesEntry" => some (relist? (MapEntry Int32))
  | _ => none

end OnlineFeatures
