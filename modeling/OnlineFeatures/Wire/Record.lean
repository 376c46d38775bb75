import OnlineFeatures.Wire.Varint

/-!
# Records

A message on the wire is a sequence of records, each a tag followed by a payload; the tag holds a
field number and says how the payload is delimited. A record keeps its own spelling beside what it
says, so that one whose meaning is unknown can be sent on exactly as it came.
-/

namespace OnlineFeatures

/-! ## Fields -/

/-- What a record says: a field number and a payload. A group holds records up to its own end
tag. -/
inductive Field where
  | varint (number : Nat) (value : UInt64)
  | fixed64 (number : Nat) (value : UInt64)
  | bytes (number : Nat) (content : Bytes)
  | group (number : Nat) (fields : List Field)
  | fixed32 (number : Nat) (value : UInt32)
  deriving Repr, Inhabited

namespace Field

mutual

def decEq : (a b : Field) → Decidable (a = b)
  | .varint m v, .varint n w => decidable_of_iff (m = n ∧ v = w) (by simp)
  | .fixed64 m v, .fixed64 n w => decidable_of_iff (m = n ∧ v = w) (by simp)
  | .bytes m v, .bytes n w => decidable_of_iff (m = n ∧ v = w) (by simp)
  | .fixed32 m v, .fixed32 n w => decidable_of_iff (m = n ∧ v = w) (by simp)
  | .group m fs, .group n gs =>
    have := decEqList fs gs
    decidable_of_iff (m = n ∧ fs = gs) (by simp)
  | .varint .., .fixed64 .. | .varint .., .bytes .. | .varint .., .group ..
  | .varint .., .fixed32 .. | .fixed64 .., .varint .. | .fixed64 .., .bytes ..
  | .fixed64 .., .group .. | .fixed64 .., .fixed32 .. | .bytes .., .varint ..
  | .bytes .., .fixed64 .. | .bytes .., .group .. | .bytes .., .fixed32 ..
  | .group .., .varint .. | .group .., .fixed64 .. | .group .., .bytes ..
  | .group .., .fixed32 .. | .fixed32 .., .varint .. | .fixed32 .., .fixed64 ..
  | .fixed32 .., .bytes .. | .fixed32 .., .group .. => isFalse (by simp)

def decEqList : (as bs : List Field) → Decidable (as = bs)
  | [], [] => isTrue rfl
  | [], _ :: _ | _ :: _, [] => isFalse (by simp)
  | a :: as, b :: bs =>
    have := decEq a b
    have := decEqList as bs
    decidable_of_iff (a = b ∧ as = bs) (by simp)

end

instance : DecidableEq Field := decEq

def number : Field → Nat
  | varint n _ | fixed64 n _ | bytes n _ | group n _ | fixed32 n _ => n

end Field

/-! ## Tags -/

/-- How a payload is delimited. -/
inductive WireKind where
  | varint
  | fixed64
  | bytes
  | groupStart
  | groupEnd
  | fixed32
  deriving DecidableEq, Repr

namespace WireKind

/-- The number of a kind in a tag. -/
def code : WireKind → Nat
  | varint => 0
  | fixed64 => 1
  | bytes => 2
  | groupStart => 3
  | groupEnd => 4
  | fixed32 => 5

/-- The kind of a number. -/
def ofCode? : Nat → Option WireKind
  | 0 => some varint
  | 1 => some fixed64
  | 2 => some bytes
  | 3 => some groupStart
  | 4 => some groupEnd
  | 5 => some fixed32
  | _ => none

theorem ofCode?_code (k : WireKind) : ofCode? k.code = some k := by cases k <;> rfl

end WireKind

/-- The kind of a field's payload. -/
def Field.kind : Field → WireKind
  | varint .. => .varint
  | fixed64 .. => .fixed64
  | bytes .. => .bytes
  | group .. => .groupStart
  | fixed32 .. => .fixed32

namespace Tag

/-- The number that stands for a tag. -/
def code (number : Nat) (kind : WireKind) : Nat := 8 * number + kind.code

def encode (number : Nat) (kind : WireKind) : Bytes := Varint.encode (code number kind)

/-- Reads a tag, which must fit 32 bits and have a positive number. -/
def read? (bs : Bytes) : Option (Nat × WireKind × Bytes) :=
  match Varint.read? Varint.shortLimit bs with
  | none => none
  | some (code, rest) =>
    if code < 0x100000000 ∧ 8 ≤ code then
      (WireKind.ofCode? (code % 8)).map fun kind => (code / 8, kind, rest)
    else none

/-- Field numbers that a tag has room for. -/
def Fits (number : Nat) : Prop := 0 < number ∧ number < 0x20000000

theorem read?_encode {number : Nat} (kind : WireKind) (rest : Bytes) (h : Fits number) :
    read? (encode number kind ++ rest) = some (number, kind, rest) := by
  obtain ⟨pos, small⟩ := h
  have hk : kind.code < 6 := by cases kind <;> decide
  have hc : code number kind < Nat.pow 128 5 := by simp [code]; omega
  rw [read?, encode, Varint.shortLimit, Varint.read?_encode 4 _ rest hc]
  have hd : code number kind / 8 = number := by simp [code]; omega
  have hm : code number kind % 8 = kind.code := by simp [code]; omega
  have : code number kind < 0x100000000 ∧ 8 ≤ code number kind := by simp [code]; omega
  simp only [if_pos this, hd, hm, WireKind.ofCode?_code, Option.map_some]

end Tag

/-! ## Reading -/

/-- Reads the payload of a kind that is not a group. -/
def Field.readPlain? (number : Nat) (kind : WireKind) (bs : Bytes) : Option (Field × Bytes) :=
  match kind with
  | .varint => (Varint.readValue? bs).map fun (v, rest) => (.varint number v, rest)
  | .fixed64 => (FixedWidth.read? 8 bs).map fun (n, rest) => (.fixed64 number (.ofNat n), rest)
  | .fixed32 => (FixedWidth.read? 4 bs).map fun (n, rest) => (.fixed32 number (.ofNat n), rest)
  | .bytes =>
    match Varint.readLength? bs with
    | some (size, rest) =>
      if size ≤ rest.length then some (.bytes number (rest.take size), rest.drop size) else none
    | none => none
  | .groupStart | .groupEnd => none

mutual

/-- Reads one record, going at most `fuel` steps into groups. -/
def Field.readWith? : Nat → Bytes → Option (Field × Bytes)
  | 0, _ => none
  | fuel + 1, bs =>
    match Tag.read? bs with
    | some (number, .groupStart, rest) =>
      (Field.readGroup? fuel number rest).map fun (fs, rest) => (.group number fs, rest)
    | some (number, kind, rest) => Field.readPlain? number kind rest
    | none => none

/-- Reads records up to the end tag of the group `number`. -/
def Field.readGroup? : Nat → Nat → Bytes → Option (List Field × Bytes)
  | 0, _, _ => none
  | fuel + 1, number, bs =>
    match Tag.read? bs with
    | some (found, .groupEnd, rest) => if found = number then some ([], rest) else none
    | _ =>
      match Field.readWith? fuel bs with
      | some (f, rest) =>
        (Field.readGroup? fuel number rest).map fun (fs, rest) => (f :: fs, rest)
      | none => none

end

/-- Reads one record. Each byte opens at most one group and adds at most one record to one, so twice
the number of bytes is enough fuel. -/
def Field.read? (bs : Bytes) : Option (Field × Bytes) := Field.readWith? (2 * bs.length) bs

/-- A field together with the bytes it was spelled with. -/
structure Record where
  field : Field
  spelling : Bytes
  deriving DecidableEq, Repr

namespace Record

/-- Reads one record and keeps its spelling. -/
def read? (bs : Bytes) : Option (Record × Bytes) :=
  (Field.read? bs).map fun (f, rest) => (⟨f, bs.take (bs.length - rest.length)⟩, rest)

/-- Reads at most `fuel` records, which must use up the input. -/
def readAllWith? : Nat → Bytes → Option (List Record)
  | _, [] => some []
  | 0, _ :: _ => none
  | fuel + 1, bs =>
    match read? bs with
    | some (r, rest) => (readAllWith? fuel rest).map (r :: ·)
    | none => none

/-- Reads a sequence of records. -/
def readAll? (bs : Bytes) : Option (List Record) := readAllWith? bs.length bs

/-- The bytes of a sequence of records. -/
def writeAll (rs : List Record) : Bytes := rs.flatMap (·.spelling)

/-! ## The plain spelling -/

/-- A varint record. -/
def varint (number : Nat) (value : UInt64) : Record :=
  ⟨.varint number value, Tag.encode number .varint ++ Varint.encode value.toNat⟩

/-- A record of eight bytes. -/
def fixed64 (number : Nat) (value : UInt64) : Record :=
  ⟨.fixed64 number value, Tag.encode number .fixed64 ++ FixedWidth.encode 8 value.toNat⟩

/-- A record of four bytes. -/
def fixed32 (number : Nat) (value : UInt32) : Record :=
  ⟨.fixed32 number value, Tag.encode number .fixed32 ++ FixedWidth.encode 4 value.toNat⟩

/-- A length-delimited record. -/
def bytes (number : Nat) (content : Bytes) : Record :=
  ⟨.bytes number content, Tag.encode number .bytes ++ Varint.encode content.length ++ content⟩

end Record

/-! ## Agreement of unknown fields -/

/-- The order of tags. -/
def Field.tagLe (a b : Field) : Bool :=
  Tag.code a.number a.kind ≤ Tag.code b.number b.kind

mutual

/-- A field with the records of every group inside it in the order of their tags. -/
def Field.arranged : Field → Field
  | .group n fs => .group n ((Field.arrangedEach fs).mergeSort Field.tagLe)
  | f => f

/-- Arranges each field of a list. -/
def Field.arrangedEach : List Field → List Field
  | [] => []
  | f :: fs => f.arranged :: Field.arrangedEach fs

end

/-- Whether two messages' unknown records agree: in the order of their tags, those of one tag in the
order they came in, they say the same. -/
def Record.agree (rs ss : List Record) : Bool :=
  let view (rs : List Record) := (Field.arrangedEach (rs.map (·.field))).mergeSort Field.tagLe
  view rs == view ss

end OnlineFeatures
