import OnlineFeatures.Row.Basic
import OnlineFeatures.Message.TimestampText
import OnlineFeatures.Text.Json

/-!
# The text of rows

A row is shown with the plain text of its values, the names of its statuses and its point in time,
and is sent to standard output as a JSON object, where bytes stand as the text they are shown with.
-/

namespace OnlineFeatures

/-- Texts between two brackets, separated by commas. -/
def bracketed (left right : String) (items : List String) : String :=
  left ++ String.intercalate ", " items ++ right

/-- Names with the texts of what they are mapped to, between braces. -/
def bracedMap (entries : List (String × String)) : String :=
  bracketed "\x7b" "\x7d" (entries.map fun (k, s) => quoted k ++ ": " ++ s)

/-- A truth value as it is shown. -/
def shownBool (b : Bool) : String := if b then "True" else "False"

namespace Value

/-- A list as it is shown. -/
def shownList {α : Type} (f : α → String) (l : ListMessage α) : String :=
  bracketed "[" "]" (l.items.map f)

/-- The text that a value is shown with. -/
def shown (v : Value) : String :=
  match v.content with
  | none | some (.null _) => "None"
  | some (.bytes b) => quotedBytes b
  | some (.text s) => quoted s
  | some (.int32 i) => toString i.toInt
  | some (.int64 i) => toString i.toInt
  | some (.double x) => x.text
  | some (.float x) => x.toDouble.text
  | some (.bool b) => shownBool b
  | some (.bytesList l) => shownList quotedBytes l
  | some (.textList l) => shownList quoted l
  | some (.int32List l) => shownList (fun i => toString i.toInt) l
  | some (.int64List l) => shownList (fun i => toString i.toInt) l
  | some (.doubleList l) => shownList Double.text l
  | some (.floatList l) => shownList (fun x => x.toDouble.text) l
  | some (.boolList l) => shownList shownBool l

/-- A list as a JSON array. -/
def jsonList {α : Type} (f : α → Json) (l : ListMessage α) : Json := .array (l.items.map f)

/-- The JSON value of a value. -/
def json (v : Value) : Json :=
  match v.content with
  | none | some (.null _) => .null
  | some (.bytes b) => .text (quotedBytes b)
  | some (.text s) => .text s
  | some (.int32 i) => .int i.toInt
  | some (.int64 i) => .int i.toInt
  | some (.double x) => .float x
  | some (.float x) => .float x.toDouble
  | some (.bool b) => .bool b
  | some (.bytesList l) => jsonList (fun b => .text (quotedBytes b)) l
  | some (.textList l) => jsonList .text l
  | some (.int32List l) => jsonList (fun i => .int i.toInt) l
  | some (.int64List l) => jsonList (fun i => .int i.toInt) l
  | some (.doubleList l) => jsonList .float l
  | some (.floatList l) => jsonList (fun x => .float x.toDouble) l
  | some (.boolList l) => jsonList .bool l

end Value

namespace Row

/-- The text that a row is shown with, unless its point in time has none. -/
def shown (r : Row) : Except TimestampInvalid String :=
  r.timestamp.rfc3339.map fun moment =>
    "Row(fields=" ++ bracedMap (r.fields.entries.map fun (k, v) => (k, v.shown)) ++
      ", statuses=" ++ bracedMap (r.statuses.entries.map fun (k, s) => (k, quoted s.name)) ++
      ", entity_timestamp=" ++ moment ++ ")"

/-- The JSON object of a row. -/
def json (r : Row) : Json :=
  .object [
    ("fields", .object (r.fields.entries.map fun (k, v) => (k, v.json))),
    ("statuses", .object (r.statuses.entries.map fun (k, s) => (k, .text s.name)))]

end Row

end OnlineFeatures
