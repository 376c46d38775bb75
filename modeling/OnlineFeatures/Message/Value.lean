import OnlineFeatures.Wire.FieldMap

/-!
# Values

A value holds at most one member of a union of scalars and lists. On the wire the last member wins;
a list that comes again right after itself grows, while any other member in between discards it. A
member is sent even when it holds the default of its type, and so differs from no member at all.
-/

namespace OnlineFeatures

/-- What a value holds. -/
inductive Content where
  | bytes (b : Bytes)
  | text (s : String)
  | int32 (i : Int32)
  | int64 (i : Int64)
  | double (x : Double)
  | float (x : Single)
  | bool (b : Bool)
  | bytesList (l : ListMessage Bytes)
  | textList (l : ListMessage String)
  | int32List (l : ListMessage Int32)
  | int64List (l : ListMessage Int64)
  | doubleList (l : ListMessage Double)
  | floatList (l : ListMessage Single)
  | boolList (l : ListMessage Bool)
  /-- The explicit absence of a value; its one name has the number 0, but any number may come. -/
  | null (number : Int32)
  deriving DecidableEq, Repr

/-- A value as it is sent. -/
structure Value where
  content : Option Content
  unknown : List Record
  deriving DecidableEq, Repr

namespace Content

/-- The name of the union's member. -/
def member : Content → String
  | bytes _ => "bytes_val"
  | text _ => "string_val"
  | int32 _ => "int32_val"
  | int64 _ => "int64_val"
  | double _ => "double_val"
  | float _ => "float_val"
  | bool _ => "bool_val"
  | bytesList _ => "bytes_list_val"
  | textList _ => "string_list_val"
  | int32List _ => "int32_list_val"
  | int64List _ => "int64_list_val"
  | doubleList _ => "double_list_val"
  | floatList _ => "float_list_val"
  | boolList _ => "bool_list_val"
  | null _ => "null_val"

/-- The record that a member is sent as. -/
def record : Content → Record
  | bytes b => .bytes 1 b
  | text s => .bytes 2 (Utf8.encode s)
  | int32 i => .varint 3 (VarintCoded.toVarint i)
  | int64 i => .varint 4 (VarintCoded.toVarint i)
  | double x => .fixed64 5 x.bits
  | float x => .fixed32 6 x.bits
  | bool b => .varint 7 (VarintCoded.toVarint b)
  | bytesList l => Message.nested 11 l
  | textList l => Message.nested 12 l
  | int32List l => Message.nested 13 l
  | int64List l => Message.nested 14 l
  | doubleList l => Message.nested 15 l
  | floatList l => Message.nested 16 l
  | boolList l => Message.nested 17 l
  | null n => .varint 19 (VarintCoded.toVarint n)

/-- The list that a further record of a list member adds to. -/
def listFrom {α : Type} [Element α] (held : Option (ListMessage α)) (content : Bytes) :
    Option (ListMessage α) :=
  Message.mergeFrom (held.getD Message.empty) content

/-- What a value holds after one more record. -/
def absorb (held : Option Content) : Field → Reading Content
  | .bytes 1 c => .taken (.bytes c)
  | .bytes 2 c => ofOption ((Utf8.decode? c).map .text)
  | .varint 3 v => .taken (.int32 (VarintCoded.ofVarint v))
  | .varint 4 v => .taken (.int64 (VarintCoded.ofVarint v))
  | .fixed64 5 v => .taken (.double ⟨v⟩)
  | .fixed32 6 v => .taken (.float ⟨v⟩)
  | .varint 7 v => .taken (.bool (VarintCoded.ofVarint v))
  | .bytes 11 c =>
    ofOption
      ((listFrom (match held with | some (.bytesList l) => some l | _ => none) c).map .bytesList)
  | .bytes 12 c =>
    ofOption
      ((listFrom (match held with | some (.textList l) => some l | _ => none) c).map .textList)
  | .bytes 13 c =>
    ofOption
      ((listFrom (match held with | some (.int32List l) => some l | _ => none) c).map .int32List)
  | .bytes 14 c =>
    ofOption
      ((listFrom (match held with | some (.int64List l) => some l | _ => none) c).map .int64List)
  | .bytes 15 c =>
    ofOption
      ((listFrom (match held with | some (.doubleList l) => some l | _ => none) c).map .doubleList)
  | .bytes 16 c =>
    ofOption
      ((listFrom (match held with | some (.floatList l) => some l | _ => none) c).map .floatList)
  | .bytes 17 c =>
    ofOption
      ((listFrom (match held with | some (.boolList l) => some l | _ => none) c).map .boolList)
  | .varint 19 v => .taken (.null (VarintCoded.ofVarint v))
  | _ => .foreign
where
  /-- Content that was read, or that could not be. -/
  ofOption : Option Content → Reading Content
    | some c => .taken c
    | none => .malformed

end Content

instance : Message Value where
  empty := ⟨none, []⟩
  absorb v r :=
    match Content.absorb v.content r.field with
    | .taken c => some { v with content := some c }
    | .foreign => some { v with unknown := v.unknown ++ [r] }
    | .malformed => none
  records v := v.content.toList.map Content.record ++ v.unknown

namespace Value

/-- The value without a member. -/
def unset : Value := ⟨none, []⟩

/-- The value that holds a member. -/
def ofContent (c : Content) : Value := ⟨some c, []⟩

/-- The name of the member held, if any. -/
def member? (v : Value) : Option String := v.content.map (·.member)

end Value

instance : EntryValue Value where
  missing := .unset
  absorb
    | held, .bytes 2 c =>
      match Message.mergeFrom (held.getD .unset) c with
      | some v => .taken v
      | none => .malformed
    | _, _ => .foreign
  write v := Message.nested 2 v
  repeated _ := true

/-! ## Agreement

Two values agree when they hold the same and their unknown records say the same, however these are
spelled and in whatever order records of different tags came. -/

namespace ListMessage

/-- The list without its unknown records. -/
def known {α : Type} (l : ListMessage α) : ListMessage α := { l with unknown := [] }

end ListMessage

namespace Content

/-- The unknown records of a list member. -/
def unknown : Content → List Record
  | bytesList l => l.unknown
  | textList l => l.unknown
  | int32List l => l.unknown
  | int64List l => l.unknown
  | doubleList l => l.unknown
  | floatList l => l.unknown
  | boolList l => l.unknown
  | _ => []

/-- The member without the unknown records of its list. -/
def known : Content → Content
  | bytesList l => .bytesList l.known
  | textList l => .textList l.known
  | int32List l => .int32List l.known
  | int64List l => .int64List l.known
  | doubleList l => .doubleList l.known
  | floatList l => .floatList l.known
  | boolList l => .boolList l.known
  | c => c

/-- Whether two members hold the same. -/
def agree (c d : Content) : Bool := c.known == d.known && Record.agree c.unknown d.unknown

end Content

/-- Whether two values hold the same. -/
def Value.agree (v w : Value) : Bool :=
  (match v.content, w.content with
    | none, none => true
    | some c, some d => c.agree d
    | _, _ => false) && Record.agree v.unknown w.unknown

end OnlineFeatures
