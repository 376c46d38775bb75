import OnlineFeatures.OrderedMap
import OnlineFeatures.Status
import OnlineFeatures.Message.Value
import OnlineFeatures.Message.Timestamp

/-!
# Rows

A row is what is known of one entity: its fields, a status for some of them and a point in time. A
request takes the fields of a row as entity keys; in an answer they hold features too, each with its
status.
-/

namespace OnlineFeatures

/-- One entity's fields. -/
structure Row where
  fields : OrderedMap Value
  statuses : OrderedMap FieldStatus
  timestamp : Timestamp
  deriving DecidableEq, Repr

namespace Row

/-- The row without fields at a point in time. -/
def emptyAt (timestamp : Timestamp) : Row := ⟨.empty, .empty, timestamp⟩

/-- Stores a value. -/
def storeField (r : Row) (field : String) (v : Value) : Row :=
  { r with fields := r.fields.set field v }

/-- Gives a field a status, or takes away the one it has. -/
def storeStatus (r : Row) (field : String) : Option FieldStatus → Row
  | some s => { r with statuses := r.statuses.set field s }
  | none => { r with statuses := r.statuses.erase field }

/-- Stores a value together with its status. -/
def store (r : Row) (field : String) (v : Value) (status : Option FieldStatus) : Row :=
  (r.storeField field v).storeStatus field status

/-! ## Equality

Rows are equal when they have the same names with values that agree and the same statuses, in
whatever order; the point in time is not compared. -/

/-- Whether two maps have the same keys with matching values. -/
def mapsMatch {α : Type} (same : α → α → Bool) (m n : OrderedMap α) : Bool :=
  m.entries.length == n.entries.length &&
    m.entries.all fun (k, a) =>
      match n.find? k with
      | some b => same a b
      | none => false

/-- Whether two rows are equal. -/
def agree (r s : Row) : Bool :=
  mapsMatch Value.agree r.fields s.fields && mapsMatch (· == ·) r.statuses s.statuses

/-- What the hash of a row is taken of: the names with the bytes of their values, and the names with
their statuses, each in the order of the names. -/
def hashed (r : Row) : List (String × Bytes) × List (String × FieldStatus) :=
  ((FieldMap.ofList (r.fields.entries.map fun (k, v) => (k, Message.encode v))).entries,
    (FieldMap.ofList r.statuses.entries).entries)

end Row

end OnlineFeatures
