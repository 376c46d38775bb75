import OnlineFeatures.Number.Shortest

/-!
# Text of floats

A float is written with the fewest digits that read back, positionally while its first digit stands
within 10^-4 … 10^15 and with an exponent of at least two digits beyond. Reading takes any decimal
numeral and rounds once.
-/

namespace OnlineFeatures

/-! ## Writing -/

/-- What a notation of floats leaves open. -/
structure FloatStyle where
  /-- A whole number in positional form ends in `.0`. -/
  wholePoint : Bool
  infinity : String
  nan : String

namespace FloatStyle

/-- The plain notation. -/
def plain : FloatStyle := ⟨true, "inf", "nan"⟩

/-- The plain notation without the `.0` of whole numbers. -/
def bare : FloatStyle := ⟨false, "inf", "nan"⟩

/-- The notation of JSON text, with its unofficial names for what JSON cannot write. -/
def json : FloatStyle := ⟨true, "Infinity", "NaN"⟩

end FloatStyle

/-- The characters of a whole number in base ten. -/
def decimalChars (n : Nat) : List Char := Nat.toDigits 10 n

/-- An exponent of ten with its sign and at least two digits. -/
def exponentChars (e : Int) : List Char :=
  let digits := decimalChars e.natAbs
  (if e < 0 then '-' else '+') :: (List.replicate (2 - digits.length) '0' ++ digits)

namespace DecimalDigits

/-- The number in positional form. -/
def positional (wholePoint : Bool) (d : DecimalDigits) : List Char :=
  let ds := decimalChars d.digits
  match d.exponent with
  | .ofNat k => ds ++ List.replicate k '0' ++ (if wholePoint then ['.', '0'] else [])
  | .negSucc k =>
    let places := k + 1
    let padded := List.replicate (places + 1 - ds.length) '0' ++ ds
    padded.take (padded.length - places) ++ '.' :: padded.drop (padded.length - places)

/-- The number with one digit before the point and an exponent. -/
def scientific (d : DecimalDigits) : List Char :=
  match decimalChars d.digits with
  | [] => []
  | first :: more =>
    first :: (if more.isEmpty then [] else '.' :: more) ++
      'e' :: exponentChars (d.exponent + more.length)

/-- The number in positional form where its first digit stands within 10^-4 and a limit. -/
def charsBelow (limit : Nat) (wholePoint : Bool) (d : DecimalDigits) : List Char :=
  let lead := d.exponent + digitCount d.digits - 1
  if -4 ≤ lead ∧ lead < limit then d.positional wholePoint else d.scientific

/-- The number in positional form where its first digit stands within 10^-4 … 10^15. -/
def chars (wholePoint : Bool) (d : DecimalDigits) : List Char := d.charsBelow 16 wholePoint

end DecimalDigits

namespace Double

/-- The characters of a float in the given notation. -/
def chars (style : FloatStyle) (x : Double) : List Char :=
  match x.view with
  | .nan .. => style.nan.toList
  | .infinite s => (if s then ['-'] else []) ++ style.infinity.toList
  | .finite s m e =>
    let target := x.bits.toNat % FloatFormat.double.signWeight
    let digits := if m = 0 then ⟨0, 0⟩ else shortestDecimal target m e
    (if s then ['-'] else []) ++ digits.chars style.wholePoint

/-- The text of a float in the given notation. -/
def textIn (style : FloatStyle) (x : Double) : String := String.ofList (x.chars style)

/-- The text of a float in the plain notation. -/
def text (x : Double) : String := x.textIn .plain

end Double

/-! ## Reading -/

/-- A decimal numeral: a sign and a decimal number. -/
structure Numeral where
  negative : Bool
  magnitude : DecimalDigits
  deriving DecidableEq, Repr

namespace Numeral

/-- Splits off a sign. -/
def takeSign : List Char → Bool × List Char
  | '-' :: r => (true, r)
  | '+' :: r => (false, r)
  | r => (false, r)

/-- The number that digits spell. -/
def digitsValue (ds : List Char) : Nat := Nat.ofDigitChars 10 ds 0

/-- An exponent: an optional sign and digits. -/
def exponent? (cs : List Char) : Option Int :=
  let (negative, ds) := takeSign cs
  if ds ≠ [] ∧ ds.all Char.isDigit then
    let n : Int := digitsValue ds
    some (if negative then -n else n)
  else none

/-- What follows the digits of a numeral: nothing, or an exponent. -/
def tail? : List Char → Option Int
  | [] => some 0
  | c :: r => if c = 'e' ∨ c = 'E' then exponent? r else none

/-- The digits after a point, if there is one, and the rest. -/
def takeFraction : List Char → List Char × List Char
  | '.' :: r => (r.takeWhile Char.isDigit, r.dropWhile Char.isDigit)
  | r => ([], r)

/-- Reads a numeral: a sign, digits with at most one point among or beside them, an exponent. -/
def ofChars? (cs : List Char) : Option Numeral :=
  let (negative, cs) := takeSign cs
  let whole := cs.takeWhile Char.isDigit
  let (fraction, cs) := takeFraction (cs.dropWhile Char.isDigit)
  if whole = [] ∧ fraction = [] then none
  else (tail? cs).map fun e =>
    ⟨negative, digitsValue (whole ++ fraction), e - fraction.length⟩

/-- A bound on the position of the first digit of every number that is neither too large nor too
small for a float. -/
def farthestDigit : Int := 400

/-- The nearest float; infinite when the number is too large. -/
def toDouble (n : Numeral) : Double :=
  let lead := n.magnitude.exponent + digitCount n.magnitude.digits
  Double.ofPattern n.negative <|
    if n.magnitude.digits = 0 ∨ lead < -farthestDigit then 0
    else if farthestDigit < lead then FloatFormat.double.infinity
    else n.magnitude.pattern

end Numeral

end OnlineFeatures
