import OnlineFeatures.Native.Print

/-!
# Timestamps from native values

A point in time is given as a timestamp, which is taken as it is, as a date with a time, as whole
seconds since 1970, or as a float of seconds, which is taken to the nearest nanosecond. Floats and
dates are held to the years 1 to 9999; whole seconds only to 64 bits.
-/

namespace OnlineFeatures

/-- Why a value is no point in time. -/
inductive MomentFault where
  /-- A truth value, shown as `shown`. -/
  | bool (shown : String)
  /-- A value of a type that is never a point in time. -/
  | unsupported (typeName shown : String)
  /-- Such a value without a text. -/
  | unshowable (why : Unshowable)
  /-- Whole seconds beyond 64 bits. -/
  | wideSeconds
  /-- A float that is no number. -/
  | notWhole (why : Double.NotWhole)
  /-- A float outside the calendar. -/
  | invalid (why : TimestampInvalid)
  /-- A time whose UTC form lies outside the calendar. -/
  | calendar
  deriving DecidableEq, Repr

/-- The text of the complaint about a float that is no number. -/
def Double.NotWhole.message : Double.NotWhole → String
  | infinity => "cannot convert float infinity to integer"
  | nan => "cannot convert float NaN to integer"

namespace Timestamp

/-- The timestamp of a point in time within the calendar. -/
def ofMoment (seconds nanos : Int) : Except TimestampInvalid Timestamp :=
  (checkMoment seconds nanos).map fun () => ⟨.ofInt seconds, .ofInt nanos, []⟩

/-- The timestamp of nanoseconds since 1970. -/
def ofNanoseconds (n : Int) : Except TimestampInvalid Timestamp :=
  ofMoment (n / nanosPerSecond) (n % nanosPerSecond)

/-- The timestamp of whole seconds since 1970. -/
def ofWholeSeconds (n : Int) : Except MomentFault Timestamp :=
  if -0x8000000000000000 ≤ n ∧ n ≤ 0x7fffffffffffffff then .ok (.ofSeconds (.ofInt n))
    else .error .wideSeconds

def billion : Double := .ofFraction false nanosPerSecond 1

/-- The timestamp of a float of seconds: the float nearest to a billion times it, rounded to a whole
number of nanoseconds. -/
def ofFloat (x : Double) : Except MomentFault Timestamp :=
  match (x.mul billion).rounded with
  | .ok n => (ofNanoseconds n).mapError .invalid
  | .error why => .error (.notWhole why)

/-- The timestamp of a time. -/
def ofDateTime (t : DateTime) : Except MomentFault Timestamp :=
  let second := t.utcSecond
  if 0 ≤ second ∧ second < calendarEnd then
    (ofMoment (second - epochSecond) (t.microsecond * 1000)).mapError .invalid
  else .error .calendar

end Timestamp

namespace Native

/-- A complaint that shows the value. -/
def shownFault (v : Native) (fault : String → MomentFault) : MomentFault :=
  match v.shown with
  | .ok shown => fault shown
  | .error why => .unshowable why

def toTimestamp (v : Native) : Except MomentFault Timestamp :=
  match v with
  | timestamp t => .ok t
  | dateTime t => Timestamp.ofDateTime t
  | bool _ => .error (v.shownFault .bool)
  | int n => Timestamp.ofWholeSeconds n
  | status s => Timestamp.ofWholeSeconds s.number
  | float x => Timestamp.ofFloat x
  | _ => .error (v.shownFault (.unsupported v.typeName))

end Native

end OnlineFeatures
