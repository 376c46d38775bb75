import OnlineFeatures.Native.Print
import OnlineFeatures.Text.Blank
import OnlineFeatures.Text.Digit

/-!
# Numbers on the command line

Numbers are read leniently: blanks may stand around them, their digits may be of any script, and
single underscores may stand between digits. What is left without all that is an integer or a float
in the plain notation; a float may also be one of the names of infinities and of what is no number,
in any case.
-/

namespace OnlineFeatures

namespace Lenient

/-- A digit of any script as the plain digit of its value, and every other character as it is. -/
def plainDigit (c : Char) : Char := (digitValue? c).elim c Nat.digitChar

/-- A numeral without its underscores, if each of them stands between two digits. The first argument
tells whether a digit stands before. -/
def dropUnderscores? : Bool → List Char → Option (List Char)
  | _, [] => some []
  | _, ['_'] => none
  | afterDigit, '_' :: c :: r =>
    if afterDigit && c.isDigit then (dropUnderscores? true r).map (c :: ·) else none
  | _, c :: r => (dropUnderscores? c.isDigit r).map (c :: ·)

/-- The plain characters of a lenient numeral. -/
def plainChars? (s : String) : Option (List Char) :=
  dropUnderscores? false ((trimChars isWhiteSpace s.toList).map plainDigit)

/-- The integer that plain characters write: a sign and digits, of which there are not too many. -/
def plainInteger? (cs : List Char) : Option Int :=
  let (negative, ds) := Numeral.takeSign cs
  if ds ≠ [] ∧ ds.all Char.isDigit ∧ ds.length ≤ numeralLimit then
    let n : Int := Numeral.digitsValue ds
    some (if negative then -n else n)
  else none

/-- The float that plain characters write or name. -/
def plainFloat? (cs : List Char) : Option Double :=
  let (negative, rest) := Numeral.takeSign cs
  let name := rest.map Char.toLower
  if name = "inf".toList ∨ name = "infinity".toList then some (.infinity negative)
  else if name = "nan".toList then some (.quietNaN negative)
  else (Numeral.ofChars? cs).map (·.toDouble)

/-- Reads an integer. -/
def integer? (s : String) : Option Int := (plainChars? s).bind plainInteger?

/-- Reads a float, which is infinite where the number is too large. -/
def float? (s : String) : Option Double := (plainChars? s).bind plainFloat?

end Lenient

end OnlineFeatures
