import OnlineFeatures.Native.Basic

/-!
# Unwrapping

The native value of a wire value. No member and the explicit null both unwrap to no value, and a
32-bit float to the 64-bit float of the same number.
-/

namespace OnlineFeatures

/-- The native list of a list member. -/
def ListMessage.unwrap {α : Type} (f : α → Native) (l : ListMessage α) : Native :=
  .list (l.items.map f)

namespace Content

/-- The native value of a member. -/
def unwrap : Content → Native
  | bytes b => .bytes b
  | text s => .text s
  | int32 i => .int i.toInt
  | int64 i => .int i.toInt
  | double x => .float x
  | float x => .float x.toDouble
  | bool b => .bool b
  | bytesList l => l.unwrap .bytes
  | textList l => l.unwrap .text
  | int32List l => l.unwrap fun i => .int i.toInt
  | int64List l => l.unwrap fun i => .int i.toInt
  | doubleList l => l.unwrap .float
  | floatList l => l.unwrap fun x => .float x.toDouble
  | boolList l => l.unwrap .bool
  | null _ => .none

end Content

/-- The native value of a value. -/
def Value.unwrap (v : Value) : Native := (v.content.map (·.unwrap)).getD .none

end OnlineFeatures
