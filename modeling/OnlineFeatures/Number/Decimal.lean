import OnlineFeatures.Number.FloatText

/-!
# Decimal numbers

A decimal number keeps its coefficient and its power of ten apart, so that `1.50` and `1.5` differ.
Its text is positional while the exponent is not positive and at most six zeros follow the point.
-/

namespace OnlineFeatures

inductive Decimal where
  | finite (negative : Bool) (magnitude : DecimalDigits)
  | infinite (negative : Bool)
  | nan (negative : Bool) (signaling : Bool) (payload : Nat)
  deriving DecidableEq, Repr, Inhabited

namespace Decimal

def ofText? (s : String) : Option Decimal :=
  let (negative, cs) := Numeral.takeSign s.toList
  let word := String.ofList (cs.map Char.toLower)
  if word = "inf" ∨ word = "infinity" then some (.infinite negative)
  else
    let letters := (cs.takeWhile fun c => !c.isDigit).map Char.toLower
    let digits := cs.dropWhile fun c => !c.isDigit
    if letters = "nan".toList ∧ digits.all Char.isDigit then
      some (.nan negative false (Numeral.digitsValue digits))
    else if letters = "snan".toList ∧ digits.all Char.isDigit then
      some (.nan negative true (Numeral.digitsValue digits))
    else (Numeral.ofChars? s.toList).map fun n => .finite n.negative n.magnitude

/-- A minus sign where there is one. -/
def signText (negative : Bool) : String := if negative then "-" else ""

def text : Decimal → String
  | .infinite negative => signText negative ++ "Infinity"
  | .nan negative signaling payload =>
    signText negative ++ (if signaling then "sNaN" else "NaN") ++
      (if payload = 0 then "" else toString payload)
  | .finite negative ⟨coefficient, exponent⟩ =>
    let digits := decimalChars coefficient
    let lead := exponent + digits.length
    let point : Int := if exponent ≤ 0 ∧ -6 < lead then lead else 1
    let body :=
      if point ≤ 0 then "0.".toList ++ List.replicate (-point).toNat '0' ++ digits
      else if digits.length ≤ point then
        digits ++ List.replicate (point - digits.length).toNat '0'
      else digits.take point.toNat ++ '.' :: digits.drop point.toNat
    let tail :=
      if lead = point then ""
      else "E" ++ (if lead < point then "-" else "+") ++ toString (lead - point).natAbs
    signText negative ++ String.ofList body ++ tail

/-- The nearest float, infinite for a number too large; a signaling NaN has none. -/
def toDouble? : Decimal → Option Double
  | .finite negative magnitude => some (Numeral.toDouble ⟨negative, magnitude⟩)
  | .infinite negative => some (Double.infinity negative)
  | .nan negative signaling _ => if signaling then none else some (Double.quietNaN negative)

/-- The whole number that a decimal number is, if it is one. -/
def exactInt? : Decimal → Option Int
  | .finite negative magnitude =>
    match magnitude.trimmed with
    | ⟨0, _⟩ => some 0
    | ⟨m, .ofNat k⟩ =>
      let n : Int := (m * Nat.pow 10 k : Nat)
      some (if negative then -n else n)
    | ⟨_, .negSucc _⟩ => none
  | _ => none

/-- The whole number from -9 to 9 that a decimal number is, if it is one. -/
def digit? : Decimal → Option Int
  | .finite negative magnitude =>
    let m := magnitude.trimmed
    if m.digits = 0 then some 0
    else if m.exponent = 0 ∧ m.digits < 10 then some (if negative then -m.digits else m.digits)
    else none
  | _ => none

end Decimal

end OnlineFeatures
