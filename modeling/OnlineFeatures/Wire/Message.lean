import OnlineFeatures.Wire.Record
import OnlineFeatures.Text.Utf8
import OnlineFeatures.Number.Binary

/-!
# Messages

A message type says how it takes up one record and which records it is sent as. Reading bytes is
then a fold over their records, so that a later record of a single field replaces an earlier one,
repeated fields grow, and a record with no meaning for the type is kept as it came.
-/

namespace OnlineFeatures

/-- A type that can be sent as a sequence of records. -/
class Message (μ : Type) where
  /-- The message of no records. -/
  empty : μ
  /-- Takes up one more record; `none` when its content is malformed. -/
  absorb : μ → Record → Option μ
  /-- The records of a message: the known ones in the order of their numbers, then the unknown. -/
  records : μ → List Record

namespace Message

variable {μ : Type} [Message μ]

/-- Takes up the records of `bs` on top of what a message already holds. -/
def mergeFrom (m : μ) (bs : Bytes) : Option μ :=
  (Record.readAll? bs).bind fun rs => rs.foldlM absorb m

def decode? (bs : Bytes) : Option μ := mergeFrom empty bs

/-- The bytes of a message. -/
def encode (m : μ) : Bytes := Record.writeAll (records m)

/-- A message as a length-delimited record of an enclosing one. -/
def nested (number : Nat) (m : μ) : Record := .bytes number (encode m)

end Message

/-! ## Repeated fields -/

/-- What a record is to a repeated field: not one of its records, one with malformed content, or one
that brings elements. -/
inductive Reading (α : Type) where
  | foreign
  | malformed
  | taken (a : α)

/-- A type of which field 1 of a list message holds a sequence. -/
class Element (α : Type) where
  /-- The elements that a record brings. -/
  read : Field → Reading (List α)
  /-- The records of a sequence of elements. -/
  write : List α → List Record

/-- Reads varints to the end of the input. -/
def Varint.readAll? : Nat → Bytes → Option (List UInt64)
  | _, [] => some []
  | 0, _ :: _ => none
  | fuel + 1, bs =>
    match Varint.readValue? bs with
    | some (v, rest) => (Varint.readAll? fuel rest).map (v :: ·)
    | none => none

/-- Reads numbers of `width` bytes to the end of the input. -/
def FixedWidth.readAll? (width : Nat) : Nat → Bytes → Option (List Nat)
  | _, [] => some []
  | 0, _ :: _ => none
  | fuel + 1, bs =>
    match FixedWidth.read? width bs with
    | some (n, rest) => (FixedWidth.readAll? width fuel rest).map (n :: ·)
    | none => none

/-- A number sent as a varint. -/
class VarintCoded (α : Type) where
  ofVarint : UInt64 → α
  toVarint : α → UInt64

/-- Only the low 32 bits count; a negative number is sent with its sign extended to 64 bits. -/
instance : VarintCoded Int32 where
  ofVarint v := v.toUInt32.toInt32
  toVarint i := i.toInt64.toUInt64

instance : VarintCoded Int64 where
  ofVarint v := v.toInt64
  toVarint i := i.toUInt64

/-- Every number but zero is true. -/
instance : VarintCoded Bool where
  ofVarint v := v != 0
  toVarint b := if b then 1 else 0

/-- A single packed record, none for no elements. -/
def packed (content : Bytes) : List Record := if content = [] then [] else [.bytes 1 content]

/-- The reading of a packed record, which has to be well formed to its end. -/
def Reading.ofPacked {α : Type} : Option (List α) → Reading (List α)
  | some xs => .taken xs
  | none => .malformed

instance {α : Type} [VarintCoded α] : Element α where
  read
    | .varint 1 v => .taken [VarintCoded.ofVarint v]
    | .bytes 1 content =>
      .ofPacked ((Varint.readAll? content.length content).map (·.map VarintCoded.ofVarint))
    | _ => .foreign
  write xs := packed (xs.flatMap fun x => Varint.encode (VarintCoded.toVarint x).toNat)

instance : Element Double where
  read
    | .fixed64 1 v => .taken [⟨v⟩]
    | .bytes 1 content =>
      .ofPacked ((FixedWidth.readAll? 8 content.length content).map (·.map fun n => ⟨.ofNat n⟩))
    | _ => .foreign
  write xs := packed (xs.flatMap fun x => FixedWidth.encode 8 x.bits.toNat)

instance : Element Single where
  read
    | .fixed32 1 v => .taken [⟨v⟩]
    | .bytes 1 content =>
      .ofPacked ((FixedWidth.readAll? 4 content.length content).map (·.map fun n => ⟨.ofNat n⟩))
    | _ => .foreign
  write xs := packed (xs.flatMap fun x => FixedWidth.encode 4 x.bits.toNat)

instance : Element Bytes where
  read
    | .bytes 1 content => .taken [content]
    | _ => .foreign
  write xs := xs.map (.bytes 1)

instance : Element String where
  read
    | .bytes 1 content => .ofPacked ((Utf8.decode? content).map ([·]))
    | _ => .foreign
  write xs := xs.map fun s => .bytes 1 (Utf8.encode s)

/-- A message whose one field is a sequence. -/
structure ListMessage (α : Type) where
  items : List α
  unknown : List Record
  deriving DecidableEq, Repr

instance {α : Type} [Element α] : Message (ListMessage α) where
  empty := ⟨[], []⟩
  absorb m r :=
    match Element.read r.field with
    | .taken xs => some { m with items := m.items ++ xs }
    | .foreign => some { m with unknown := m.unknown ++ [r] }
    | .malformed => none
  records m := Element.write m.items ++ m.unknown

/-- The list message of a sequence. -/
def ListMessage.ofList {α : Type} (items : List α) : ListMessage α := ⟨items, []⟩

end OnlineFeatures
