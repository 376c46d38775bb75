import OnlineFeatures.Conversion.Inferred
import OnlineFeatures.Conversion.Status
import OnlineFeatures.Conversion.Moment
import OnlineFeatures.Conversion.Unwrapped

/-!
# Building and reading rows

A field is set to a native value, with or without a status; setting it again replaces both. The
value is converted before anything is stored, while the status is looked up after the value is
stored.
-/

namespace OnlineFeatures

/-- Why a field is not set, or not fully. -/
inductive RowFault where
  | value (why : InferenceFault)
  | status (why : StatusFault)
  deriving DecidableEq, Repr

namespace Row

/-- The row of no fields at a time of the clock, in whole seconds. -/
def create (now : Double) : Except MomentFault Row :=
  match now.truncated with
  | .ok n => (Timestamp.ofWholeSeconds n).map emptyAt
  | .error why => .error (.notWhole why)

/-- The status that an argument gives, where no value stands for none. -/
def givenStatus : Native → Except StatusFault (Option FieldStatus)
  | .none => .ok none
  | v => v.toStatus.map some

/-- Sets a field. The row is answered also when the status is refused, since the value is stored by
then and the old status stays. -/
def set (r : Row) (field : String) (v status : Native) : Row × Except RowFault Unit :=
  match v.infer with
  | .error why => (r, .error (.value why))
  | .ok stored =>
    match givenStatus status with
    | .error why => (r.storeField field stored, .error (.status why))
    | .ok given => (r.store field stored given, .ok ())

/-- Sets the point in time. -/
def setTimestamp (r : Row) (v : Native) : Row × Except MomentFault Unit :=
  match v.toTimestamp with
  | .ok timestamp => ({ r with timestamp }, .ok ())
  | .error why => (r, .error why)

/-- The native value of a field, or a default where the field is not set. -/
def get (r : Row) (field : String) (default : Native) : Native :=
  (r.fields.find? field).elim default Value.unwrap

def status? (r : Row) (field : String) : Option FieldStatus := r.statuses.find? field

/-- The native values of all fields. -/
def toDict (r : Row) : List (String × Native) := r.fields.entries.map fun (k, v) => (k, v.unwrap)

end Row

end OnlineFeatures
