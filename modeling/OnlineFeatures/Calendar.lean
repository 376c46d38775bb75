/-!
# The calendar

Dates of the Gregorian calendar, extended to all years from 1 to 9999, as days counted from the
first of January of the year 1, and the UTC instants of local times.
-/

namespace OnlineFeatures

/-! ## Dates -/

structure Date where
  year : Nat
  month : Nat
  day : Nat
  deriving DecidableEq, Repr, Inhabited

/-- Whether a year has a 29th of February. -/
def isLeapYear (year : Nat) : Bool := year % 4 == 0 && (year % 100 != 0 || year % 400 == 0)

/-- The days of each month of a year. -/
def monthLengths (year : Nat) : List Nat :=
  [31, if isLeapYear year then 29 else 28, 31, 30, 31, 30, 31, 31, 30, 31, 30, 31]

/-- The days of all years before a year. -/
def daysBeforeYear (year : Nat) : Nat :=
  let y := year - 1
  365 * y + y / 4 - y / 100 + y / 400

namespace Date

/-- The number of days from the first of January of the year 1. -/
def dayIndex (d : Date) : Nat :=
  daysBeforeYear d.year + ((monthLengths d.year).take (d.month - 1)).foldl (· + ·) 0 + (d.day - 1)

/-- The year of a day: the mean length of a year gives it up to one. -/
def yearOfDay (n : Nat) : Nat :=
  let guess := n * 400 / 146097 + 1
  if n < daysBeforeYear guess then guess - 1
  else if daysBeforeYear (guess + 1) ≤ n then guess + 1
  else guess

/-- The month and the day of it, both from 0, of a day of the year, by the lengths of the months. -/
def monthOfDay : List Nat → Nat → Nat × Nat
  | [], n => (0, n)
  | length :: lengths, n =>
    if n < length then (0, n)
    else
      let (month, day) := monthOfDay lengths (n - length)
      (month + 1, day)

/-- The date of a day index. -/
def ofDayIndex (n : Nat) : Date :=
  let year := yearOfDay n
  let (month, day) := monthOfDay (monthLengths year) (n - daysBeforeYear year)
  ⟨year, month + 1, day + 1⟩

end Date

/-! ## Times -/

/-- A date with a time of day. The offset is in seconds east of UTC; a time without one is meant as
UTC. -/
structure DateTime where
  date : Date
  hour : Nat
  minute : Nat
  second : Nat
  microsecond : Nat
  offset : Option Int
  deriving DecidableEq, Repr, Inhabited

def secondsPerDay : Nat := 86400

/-- The first second after the year 9999, counted from the year 1. -/
def calendarEnd : Nat := daysBeforeYear 10000 * secondsPerDay

/-- The second at which 1970 begins, counted from the year 1. -/
def epochSecond : Nat := daysBeforeYear 1970 * secondsPerDay

namespace DateTime

/-- The seconds of the local time, counted from the year 1. -/
def localSecond (t : DateTime) : Nat :=
  t.date.dayIndex * secondsPerDay + t.hour * 3600 + t.minute * 60 + t.second

/-- The seconds in UTC, counted from the year 1. -/
def utcSecond (t : DateTime) : Int := t.localSecond - t.offset.getD 0

/-- The time in UTC of a second counted from the year 1. -/
def ofSecond (n microsecond : Nat) : DateTime :=
  let time := n % secondsPerDay
  ⟨.ofDayIndex (n / secondsPerDay), time / 3600, time / 60 % 60, time % 60, microsecond, some 0⟩

end DateTime

/-! ## Text -/

/-- A number with leading zeros up to a width. -/
def paddedDecimal (width n : Nat) : String :=
  let digits := Nat.toDigits 10 n
  String.ofList (List.replicate (width - digits.length) '0' ++ digits)

def Date.isoText (d : Date) : String :=
  paddedDecimal 4 d.year ++ "-" ++ paddedDecimal 2 d.month ++ "-" ++ paddedDecimal 2 d.day

namespace DateTime

/-- The time of day as a text of whole seconds. -/
def clockText (t : DateTime) : String :=
  paddedDecimal 2 t.hour ++ ":" ++ paddedDecimal 2 t.minute ++ ":" ++ paddedDecimal 2 t.second

/-- The date and the time as a text without fraction and zone. -/
def isoText (t : DateTime) : String := t.date.isoText ++ "T" ++ t.clockText

end DateTime

end OnlineFeatures
