import OnlineFeatures.Message.Timestamp
import OnlineFeatures.Calendar

/-!
# Timestamps as text

A timestamp within the years 1 to 9999 is written as an RFC 3339 text in UTC, with as many groups of
three fraction digits as its nanoseconds need.
-/

namespace OnlineFeatures

/-- What keeps a timestamp from being written. -/
inductive TimestampInvalid where
  | seconds (n : Int)
  | nanos (n : Int)
  deriving DecidableEq, Repr

def TimestampInvalid.message : TimestampInvalid → String
  | .seconds n =>
    "Timestamp is not valid: Seconds " ++ toString n ++
      " must be in range [-62135596800, 253402300799]."
  | .nanos n =>
    "Timestamp is not valid: Nanos " ++ toString n ++ " must be in a range [0, 999999]."

/-- The first second of the year 1, counted from 1970. -/
def firstSecond : Int := -epochSecond

/-- The last second of the year 9999, counted from 1970. -/
def lastSecond : Int := (calendarEnd : Int) - epochSecond - 1

def nanosPerSecond : Nat := 1000000000

/-- Complains about a point in time outside the years 1 to 9999; the seconds are looked at first. -/
def checkMoment (seconds nanos : Int) : Except TimestampInvalid Unit :=
  if seconds < firstSecond ∨ lastSecond < seconds then .error (.seconds seconds)
  else if nanos < 0 ∨ (nanosPerSecond : Int) ≤ nanos then .error (.nanos nanos)
  else .ok ()

namespace Timestamp

/-- The fraction of a second: none, or 3, 6 or 9 digits behind a point. -/
def fractionText (nanos : Nat) : String :=
  if nanos = 0 then ""
  else if nanos % 1000000 = 0 then "." ++ paddedDecimal 3 (nanos / 1000000)
  else if nanos % 1000 = 0 then "." ++ paddedDecimal 6 (nanos / 1000)
  else "." ++ paddedDecimal 9 nanos

/-- The RFC 3339 text of a timestamp. -/
def rfc3339 (t : Timestamp) : Except TimestampInvalid String :=
  (checkMoment t.seconds.toInt t.nanos.toInt).map fun () =>
    (DateTime.ofSecond (t.seconds.toInt + epochSecond).toNat 0).isoText ++
      fractionText t.nanos.toInt.toNat ++ "Z"

end Timestamp

end OnlineFeatures
