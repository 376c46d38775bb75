import OnlineFeatures.Number.Binary

/-!
# The shortest decimal that reads back

Among the decimals that round to a given float, `shortestDecimal` picks one with the fewest digits,
and of those the nearest. For each digit count it looks only at the two decimals of that length next
to the number: if any decimal of the length reads back, one of these two does, since the numbers
that round to a float lie in an interval around it. Seventeen digits are always enough; the number's
own decimal expansion stands behind the search, so that what is found reads back whatever the search
does.
-/

namespace OnlineFeatures

/-- How many decimal digits a number is written with. -/
def digitCount (n : Nat) : Nat := (Nat.toDigits 10 n).length

/-- The exponent of the first decimal digit of the positive number `num / den`: the largest `e` with
`10 ^ e ≤ num / den`. -/
def leadingExponent (num den : Nat) : Int :=
  if den ≤ num then digitCount (num / den) - 1
  else -(digitCount ((den + num - 1) / num - 1) : Int)

/-- The decimal number `digits * 10 ^ exponent`. -/
structure DecimalDigits where
  digits : Nat
  exponent : Int
  deriving DecidableEq, Repr

namespace DecimalDigits

/-- The number as a fraction. -/
def fraction (d : DecimalDigits) : Nat × Nat :=
  match d.exponent with
  | .ofNat k => (d.digits * Nat.pow 10 k, 1)
  | .negSucc k => (d.digits, Nat.pow 10 (k + 1))

/-- The same number with at most `count` trailing zeros dropped. -/
def dropZeros : Nat → DecimalDigits → DecimalDigits
  | 0, d => d
  | count + 1, d =>
    if d.digits ≠ 0 ∧ d.digits % 10 = 0 then dropZeros count ⟨d.digits / 10, d.exponent + 1⟩ else d

/-- The same number without trailing zeros. -/
def trimmed (d : DecimalDigits) : DecimalDigits := d.dropZeros (digitCount d.digits)

/-- The pattern of the nearest float. -/
def pattern (d : DecimalDigits) : Nat :=
  let (num, den) := d.fraction
  FloatFormat.double.pattern num den

/-- The decimal expansion of `significand * 2 ^ exponent`, which is always finite. -/
def ofBinary (significand : Nat) : Int → DecimalDigits
  | .ofNat k => ⟨significand * Nat.pow 2 k, 0⟩
  | .negSucc k => ⟨significand * Nat.pow 5 (k + 1), .negSucc k⟩

end DecimalDigits

/-- Of the two decimals with `count` digits next to `num / den`, the nearer one whose pattern is
`target`. -/
def shortestOfLength? (target num den count : Nat) : Option DecimalDigits :=
  let exponent := leadingExponent num den - (count - 1 : Nat)
  let (n, d) := scaleDown 10 num den exponent
  let below : DecimalDigits := ⟨n / d, exponent⟩
  let above : DecimalDigits := ⟨n / d + 1, exponent⟩
  match below.pattern == target, above.pattern == target with
  | true, true => some (if roundHalfEven n d = n / d then below else above)
  | true, false => some below
  | false, true => some above
  | false, false => none

/-- The number of digits that every 64-bit float can be written with. -/
def enoughDigits : Nat := 17

/-- The shortest decimal of the positive number `significand * 2 ^ exponent` that rounds to the
pattern `target`. -/
def shortestDecimal (target significand : Nat) (exponent : Int) : DecimalDigits :=
  let (num, den) := binaryFraction significand exponent
  let found := (List.range enoughDigits).findSome? fun k => shortestOfLength? target num den (k + 1)
  (found.getD (.ofBinary significand exponent)).trimmed

end OnlineFeatures
