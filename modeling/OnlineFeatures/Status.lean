/-!
# Field statuses

Why a returned field does or does not carry a value.
-/

namespace OnlineFeatures

/-- The status of a returned field. -/
inductive FieldStatus where
  | invalid
  | present
  | nullValue
  | notFound
  | outsideMaxAge
  deriving DecidableEq, Repr, Inhabited

namespace FieldStatus

/-- All statuses, in the order of their numbers. -/
def all : List FieldStatus := [invalid, present, nullValue, notFound, outsideMaxAge]

/-- The number that a status is sent as. -/
def number : FieldStatus → Nat
  | invalid => 0
  | present => 1
  | nullValue => 2
  | notFound => 3
  | outsideMaxAge => 4

def name : FieldStatus → String
  | invalid => "INVALID"
  | present => "PRESENT"
  | nullValue => "NULL_VALUE"
  | notFound => "NOT_FOUND"
  | outsideMaxAge => "OUTSIDE_MAX_AGE"

/-- The status of a number, if it is one of theirs. -/
def ofNumber? (n : Int) : Option FieldStatus := all.find? fun s => (s.number : Int) = n

/-- The status of a number. A newer server may send numbers that are not known here, and they count
as invalid. -/
def ofNumber (n : Int) : FieldStatus := (ofNumber? n).getD invalid

theorem ofNumber_number (s : FieldStatus) : ofNumber s.number = s := by cases s <;> rfl

end FieldStatus

end OnlineFeatures
