import OnlineFeatures.Number.FloatText

/-!
# Floats with a given number of digits

A float can also be written with few digits where these read back, and otherwise with so many that
they always do. The notation is positional while the first digit stands within 10^-4 and the number
of digits tried.
-/

namespace OnlineFeatures

/-- The number `num / den` rounded to `count` digits, without trailing zeros. -/
def roundedDecimal (count num den : Nat) : DecimalDigits :=
  if num = 0 then ⟨0, 0⟩
  else
    let exponent := leadingExponent num den - (count - 1 : Nat)
    let (n, d) := scaleDown 10 num den exponent
    DecimalDigits.trimmed ⟨roundHalfEven n d, exponent⟩

namespace FloatFormat

/-- The numbers of digits that a format is written with: few, and enough. -/
structure DigitChoice where
  few : Nat
  enough : Nat

def doubleDigits : DigitChoice := ⟨15, 17⟩

def singleDigits : DigitChoice := ⟨6, 9⟩

/-- The text of the float of a pattern. -/
def roundedText (f : FloatFormat) (choice : DigitChoice) (bits : Nat) : String :=
  match f.view bits with
  | .nan .. => "nan"
  | .infinite s => if s then "-inf" else "inf"
  | .finite s m e =>
    let (num, den) := binaryFraction m e
    let written (count : Nat) : String :=
      String.ofList ((if s then ['-'] else []) ++
        (roundedDecimal count num den).charsBelow count false)
    let (n, d) := (roundedDecimal choice.few num den).fraction
    if f.pattern n d = bits % f.signWeight then written choice.few else written choice.enough

end FloatFormat

end OnlineFeatures
