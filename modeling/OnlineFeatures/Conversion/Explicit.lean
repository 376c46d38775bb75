import OnlineFeatures.Native.Basic

/-!
# Explicit conversion

A converter puts a native value into one chosen member of the wire union. It takes what the member's
type can hold and refuses the rest: an integer member takes integers within its range but no truth
values and no floats, a float member takes every real number, a text member takes texts and bytes
that spell one. How many bytes there is room for depends on the machine, and is a parameter.
-/

namespace OnlineFeatures

/-- Why a native value does not go into a member. -/
inductive ConversionFault where
  /-- It is of a type that the member does not take. -/
  | wrongType
  /-- It is a number outside the member's range. -/
  | outOfRange
  /-- It is a number too large for the machine's arithmetic. -/
  | tooLarge
  /-- It is a byte string that spells no text. -/
  | notText
  /-- It asks for more bytes than there is room for. -/
  | outOfMemory
  deriving DecidableEq, Repr

/-- The types of scalars that the union has, each alone and as a list. -/
inductive ScalarType where
  | bytes
  | text
  | int32
  | int64
  | double
  | float
  | bool
  deriving DecidableEq, Repr

namespace Native

/-! ## Scalars -/

/-- The integer that a value is, if it lies in a range. -/
def integerIn (low high : Int) (v : Native) : Except ConversionFault Int :=
  match v.integer? with
  | some i => if low ≤ i ∧ i ≤ high then .ok i else .error .outOfRange
  | Option.none => .error .wrongType

/-- Stores an integer of 32 bits. -/
def toInt32 (v : Native) : Except ConversionFault Int32 :=
  (v.integerIn (-0x80000000) 0x7fffffff).map Int32.ofInt

/-- Stores an integer of 64 bits. -/
def toInt64 (v : Native) : Except ConversionFault Int64 :=
  (v.integerIn (-0x8000000000000000) 0x7fffffffffffffff).map Int64.ofInt

/-- Stores a number as the nearest 64-bit float. -/
def toDouble : Native → Except ConversionFault Double
  | float x => .ok x
  | fraction num den => (Double.ofFraction? (num < 0) num.natAbs den).elim (.error .tooLarge) .ok
  | decimal d => d.toDouble?.elim (.error .outOfRange) .ok
  | v =>
    match v.count? with
    | some i => (Double.ofInt? i).elim (.error .tooLarge) .ok
    | Option.none => .error .wrongType

/-- Stores a number as the 32-bit float nearest to its 64-bit one. -/
def toSingle (v : Native) : Except ConversionFault Single := v.toDouble.map (·.toSingle)

/-- Stores a truth value; of integers, all but zero are true. -/
def toBool (v : Native) : Except ConversionFault Bool :=
  match v.count? with
  | some i =>
    if -0x8000000000000000 ≤ i ∧ i ≤ 0x7fffffffffffffff then .ok (i ≠ 0) else .error .tooLarge
  | Option.none => .error .wrongType

/-- Stores a text, also one that is given by its bytes. -/
def toText : Native → Except ConversionFault String
  | text s => .ok s
  | octets .bytes content => (Utf8.decode? content).elim (.error .notText) .ok
  | _ => .error .wrongType

/-- The byte that an item of a collection counts as. -/
def toByte (v : Native) : Except ConversionFault UInt8 :=
  match v.count? with
  | some i => if 0 ≤ i ∧ i < 256 then .ok (.ofNat i.toNat) else .error .outOfRange
  | Option.none => .error .wrongType

/-- The length from which on a byte string and what is kept beside it cannot be addressed. -/
def addressLimit : Int := 0x7fffffffffffffdf

/-- As many zero bytes as an integer says, if there is room for so many. -/
def zeroBytes (room : Nat) (n : Int) : Except ConversionFault Bytes :=
  if n < -0x8000000000000000 ∨ addressLimit ≤ n then .error .tooLarge
  else if n < 0 then .error .outOfRange
  else if room ≤ n then .error .outOfMemory
  else .ok (List.replicate n.toNat 0)

/-- Stores bytes: those of a byte string, as many zero bytes as an integer says, or the bytes that
the items of a collection count as. -/
def toBytes (room : Nat) : Native → Except ConversionFault Bytes
  | octets _ content => .ok content
  | text _ => .error .wrongType
  | range stop => ((rangeItems (min stop 257)).mapM toByte)
  | v =>
    match v.count? with
    | some i => zeroBytes room i
    | Option.none =>
      match v.items? with
      | some items => items.mapM toByte
      | Option.none => .error .wrongType

end Native

/-! ## Converters -/

namespace ScalarType

/-- Stores a scalar in the member of its type. -/
def store (room : Nat) (v : Native) : ScalarType → Except ConversionFault Content
  | bytes => (v.toBytes room).map .bytes
  | text => v.toText.map .text
  | int32 => v.toInt32.map .int32
  | int64 => v.toInt64.map .int64
  | double => v.toDouble.map .double
  | float => v.toSingle.map .float
  | bool => v.toBool.map .bool

/-- Stores each item in the list of a type. -/
def storeList (room : Nat) (items : List Native) : ScalarType → Except ConversionFault Content
  | bytes => (items.mapM (Native.toBytes room)).map (.bytesList <| .ofList ·)
  | text => (items.mapM Native.toText).map (.textList <| .ofList ·)
  | int32 => (items.mapM Native.toInt32).map (.int32List <| .ofList ·)
  | int64 => (items.mapM Native.toInt64).map (.int64List <| .ofList ·)
  | double => (items.mapM Native.toDouble).map (.doubleList <| .ofList ·)
  | float => (items.mapM Native.toSingle).map (.floatList <| .ofList ·)
  | bool => (items.mapM Native.toBool).map (.boolList <| .ofList ·)

/-- Converts to a scalar. No value at all leaves the union unset, except where bytes are asked
for. -/
def convert (room : Nat) (type : ScalarType) (v : Native) : Except ConversionFault Value :=
  match type, v with
  | .bytes, .none => .error .wrongType
  | _, .none => .ok .unset
  | type, v => (type.store room v).map .ofContent

/-- Converts what can be iterated over to a list. -/
def convertList (room : Nat) (type : ScalarType) (v : Native) : Except ConversionFault Value :=
  match v.items? with
  | some items => (type.storeList room items).map .ofContent
  | none => .error .wrongType

end ScalarType

/-- The explicit converters. -/
inductive Converter where
  | scalar (type : ScalarType)
  | list (type : ScalarType)
  | null
  deriving DecidableEq, Repr

/-- Applies a converter to its argument, if one is given; only the null converter takes none. There
is room for byte strings shorter than the first argument. -/
def Converter.apply (room : Nat) : Converter → Option Native → Except ConversionFault Value
  | scalar type, some v => type.convert room v
  | list type, some v => type.convertList room v
  | null, none => .ok (.ofContent (.null 0))
  | _, _ => .error .wrongType

end OnlineFeatures
