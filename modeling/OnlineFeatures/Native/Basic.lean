import OnlineFeatures.Number.Decimal
import OnlineFeatures.Calendar
import OnlineFeatures.Row.Basic

/-!
# Native values

What callers hand over before it becomes a wire value. Callers are dynamically typed, and what
becomes of a value is decided by its type, so the types are kept apart here even where their
contents agree. Texts are Unicode texts: lone surrogates, which have no form in UTF-8, are not among
their characters.
-/

namespace OnlineFeatures

inductive OctetType where
  | bytes
  | byteArray
  | memoryView
  deriving DecidableEq, Repr

inductive CollectionType where
  | list
  | tuple
  | set
  | frozenSet
  | generator
  deriving DecidableEq, Repr

/-- A value as callers know it. -/
inductive Native where
  | none
  | bool (b : Bool)
  | int (i : Int)
  /-- A field status, which is also the integer of its number. -/
  | status (s : FieldStatus)
  | float (x : Double)
  /-- A quotient in lowest terms. -/
  | fraction (num : Int) (den : Nat)
  | decimal (d : Decimal)
  | complex (re im : Double)
  | text (s : String)
  | octets (type : OctetType) (content : Bytes)
  | collection (type : CollectionType) (items : List Native)
  | dict (entries : List (Native × Native))
  /-- The integers from 0 up to a bound. -/
  | range (stop : Int)
  | date (d : Date)
  | dateTime (t : DateTime)
  | timestamp (t : Timestamp)
  | value (v : Value)
  | row (r : Row)
  /-- A value of which nothing is known but its identity. -/
  | object
  deriving Inhabited

namespace Native

def list (items : List Native) : Native := .collection .list items

def bytes (content : Bytes) : Native := .octets .bytes content

/-- The quotient of two integers in lowest terms. -/
def quotient (num : Int) (den : Nat) : Native :=
  let g := Nat.gcd num.natAbs den
  .fraction (num / g) (den / g)

/-- The name of a value's type. -/
def typeName : Native → String
  | none => "NoneType"
  | bool _ => "bool"
  | int _ => "int"
  | status _ => "FieldStatus"
  | float _ => "float"
  | fraction .. => "Fraction"
  | decimal _ => "Decimal"
  | complex .. => "complex"
  | text _ => "str"
  | octets .bytes _ => "bytes"
  | octets .byteArray _ => "bytearray"
  | octets .memoryView _ => "memoryview"
  | collection .list _ => "list"
  | collection .tuple _ => "tuple"
  | collection .set _ => "set"
  | collection .frozenSet _ => "frozenset"
  | collection .generator _ => "generator"
  | dict _ => "dict"
  | range _ => "range"
  | date _ => "date"
  | dateTime _ => "datetime"
  | timestamp _ => "Timestamp"
  | value _ => "Value"
  | row _ => "Row"
  | object => "object"

/-- The integer that a value is, truth values apart. -/
def integer? : Native → Option Int
  | int i => some i
  | status s => some s.number
  | _ => Option.none

/-- The integer that a value counts as, truth values among them. -/
def count? : Native → Option Int
  | bool b => some (if b then 1 else 0)
  | v => v.integer?

/-- The integers from 0 up to a bound. -/
def rangeItems (stop : Int) : List Native := (List.range stop.toNat).map fun (i : Nat) => .int i

/-- The items that a value is iterated over, if it can be. -/
def items? : Native → Option (List Native)
  | text s => some (s.toList.map fun c => .text (String.singleton c))
  | octets _ content => some (content.map fun b => .int b.toNat)
  | collection _ items => some items
  | dict entries => some (entries.map (·.1))
  | range stop => some (rangeItems stop)
  | _ => Option.none

end Native

end OnlineFeatures
