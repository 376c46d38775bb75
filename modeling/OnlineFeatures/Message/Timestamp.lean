import OnlineFeatures.Wire.Message

/-!
# Timestamps

A point in time as seconds and nanoseconds since 1970-01-01T00:00:00Z. The wire form bounds neither.
-/

namespace OnlineFeatures

/-- A point in time. -/
structure Timestamp where
  seconds : Int64
  nanos : Int32
  unknown : List Record
  deriving DecidableEq, Repr

/-- A number of a field without presence: nothing is sent for zero. -/
def Record.unlessZero {α : Type} [VarintCoded α] (number : Nat) (a : α) : List Record :=
  let v := VarintCoded.toVarint a
  if v = 0 then [] else [.varint number v]

/-- A text of a field without presence: nothing is sent for the empty text. -/
def Record.unlessBlank (number : Nat) (s : String) : List Record :=
  if s = "" then [] else [.bytes number (Utf8.encode s)]

instance : Message Timestamp where
  empty := ⟨0, 0, []⟩
  absorb t r :=
    match r.field with
    | .varint 1 v => some { t with seconds := VarintCoded.ofVarint v }
    | .varint 2 v => some { t with nanos := VarintCoded.ofVarint v }
    | _ => some { t with unknown := t.unknown ++ [r] }
  records t := Record.unlessZero 1 t.seconds ++ Record.unlessZero 2 t.nanos ++ t.unknown

/-- A timestamp of whole seconds. -/
def Timestamp.ofSeconds (seconds : Int64) : Timestamp := ⟨seconds, 0, []⟩

end OnlineFeatures
