/-!
# Binary floating-point numbers

A float is kept as its bit pattern and computed with as the exact rational number the pattern stands
for. `FloatFormat.pattern` is the one place where a number is rounded: every conversion, sum and
product below rounds its exact result there, to the nearest pattern and to the even one of two
equally near. Nothing depends on the machine's own floating-point unit.
-/

namespace OnlineFeatures

/-! ## Rounding a quotient -/

/-- The quotient `num / den` rounded to a whole number; an exact half goes to the even neighbour. -/
def roundHalfEven (num den : Nat) : Nat :=
  let q := num / den
  let r := num % den
  if 2 * r < den then q else if den < 2 * r then q + 1 else q + q % 2

/-- The fraction `num / den` divided by `b ^ e`, as a numerator and a denominator. -/
def scaleDown (b num den : Nat) : Int → Nat × Nat
  | .ofNat k => (num, den * Nat.pow b k)
  | .negSucc k => (num * Nat.pow b (k + 1), den)

/-- The exponent of the largest power of two that does not exceed `num / den`, for positive `num`
and `den`. -/
def floorLog2 (num den : Nat) : Int :=
  let e : Int := (num.log2 : Int) - den.log2
  let (n, d) := scaleDown 2 num den e
  if d ≤ n then e else e - 1

/-! ## Formats -/

/-- A binary interchange format: a sign bit, `exponentBits` bits of exponent and `precision - 1`
stored bits of significand. -/
structure FloatFormat where
  precision : Nat
  exponentBits : Nat

namespace FloatFormat

/-- The 64-bit format. -/
def double : FloatFormat := ⟨53, 11⟩

/-- The 32-bit format. -/
def single : FloatFormat := ⟨24, 8⟩

/-- The exponent of the smallest positive number, a power of two. -/
def minExponent (f : FloatFormat) : Int := 3 - (Nat.pow 2 (f.exponentBits - 1) : Nat) - f.precision

/-- The pattern of positive infinity. -/
def infinity (f : FloatFormat) : Nat := (Nat.pow 2 f.exponentBits - 1) * Nat.pow 2 (f.precision - 1)

/-- The weight of the sign bit. -/
def signWeight (f : FloatFormat) : Nat := Nat.pow 2 (f.exponentBits + f.precision - 1)

/-- The bit that marks a quiet NaN. -/
def quietBit (f : FloatFormat) : Nat := Nat.pow 2 (f.precision - 2)

/-- The pattern of the NaN that an invalid operation answers. -/
def invalidResult (f : FloatFormat) : Nat := f.signWeight + f.infinity + f.quietBit

/-- The pattern nearest to the nonnegative number `num / den`, ties to even; numbers too large for
the format give infinity. Patterns of one sign count upward with the numbers they stand for, so the
rounded significand is simply added to the pattern that its binade starts from. -/
def pattern (f : FloatFormat) (num den : Nat) : Nat :=
  if num = 0 then 0 else
    let quantum := max (floorLog2 num den - (f.precision - 1 : Nat)) f.minExponent
    let (n, d) := scaleDown 2 num den quantum
    min ((quantum - f.minExponent).toNat * Nat.pow 2 (f.precision - 1) + roundHalfEven n d)
      f.infinity

end FloatFormat

/-- What a pattern stands for. A finite number is `significand * 2 ^ exponent` with a sign. -/
inductive FloatView where
  | finite (negative : Bool) (significand : Nat) (exponent : Int)
  | infinite (negative : Bool)
  | nan (negative : Bool) (payload : Nat)
  deriving DecidableEq, Repr

namespace FloatFormat

/-- Reads a pattern. -/
def view (f : FloatFormat) (bits : Nat) : FloatView :=
  let negative := f.signWeight ≤ bits
  let magnitude := bits % f.signWeight
  let field := magnitude / Nat.pow 2 (f.precision - 1)
  let fraction := magnitude % Nat.pow 2 (f.precision - 1)
  if field = 0 then .finite negative fraction f.minExponent
  else if field = Nat.pow 2 f.exponentBits - 1 then
    if fraction = 0 then .infinite negative else .nan negative fraction
  else .finite negative (fraction + Nat.pow 2 (f.precision - 1)) (f.minExponent + field - 1)

/-- The pattern with a sign put on a magnitude. -/
def withSign (f : FloatFormat) (negative : Bool) (magnitude : Nat) : Nat :=
  if negative then f.signWeight + magnitude else magnitude

end FloatFormat

/-- The magnitude `significand * 2 ^ exponent` as a fraction. -/
def binaryFraction (significand : Nat) : Int → Nat × Nat
  | .ofNat k => (significand * Nat.pow 2 k, 1)
  | .negSucc k => (significand, Nat.pow 2 (k + 1))

/-! ## The two formats as types -/

/-- A 64-bit float, by its pattern. Two NaNs are equal only if their bits are, and the two zeros
differ. -/
structure Double where
  bits : UInt64
  deriving DecidableEq, Repr, Inhabited

/-- A 32-bit float, by its pattern. -/
structure Single where
  bits : UInt32
  deriving DecidableEq, Repr, Inhabited

namespace Double

/-- What the pattern stands for. -/
def view (x : Double) : FloatView := FloatFormat.double.view x.bits.toNat

/-- The float of a sign and a magnitude pattern. -/
def ofPattern (negative : Bool) (magnitude : Nat) : Double :=
  ⟨.ofNat (FloatFormat.double.withSign negative magnitude)⟩

/-- The float nearest to `±num / den`, infinite when the number is too large. -/
def ofFraction (negative : Bool) (num den : Nat) : Double :=
  ofPattern negative (FloatFormat.double.pattern num den)

def zero : Double := ⟨0⟩
def infinity (negative : Bool) : Double := ofPattern negative FloatFormat.double.infinity
/-- The quiet NaN with no payload. -/
def quietNaN (negative : Bool) : Double :=
  ofPattern negative (FloatFormat.double.infinity + FloatFormat.double.quietBit)

/-- The float nearest to `±num / den`; `none` when the number rounds to no finite float. -/
def ofFraction? (negative : Bool) (num den : Nat) : Option Double :=
  if FloatFormat.double.pattern num den < FloatFormat.double.infinity then
    some (ofFraction negative num den)
  else none

/-- The float nearest to a whole number, if there is a finite one. -/
def ofInt? (i : Int) : Option Double := ofFraction? (i < 0) i.natAbs 1

def isFinite (x : Double) : Bool :=
  match x.view with
  | .finite .. => true
  | _ => false

def isNaN (x : Double) : Bool :=
  match x.view with
  | .nan .. => true
  | _ => false

/-- The same NaN made quiet, which is what an operation on a NaN answers. -/
def quieted (x : Double) : Double := ⟨x.bits ||| .ofNat FloatFormat.double.quietBit⟩

/-- Applies an operation to two floats neither of which is a NaN; the first NaN wins otherwise. -/
def lift₂ (op : FloatView → FloatView → Double) (x y : Double) : Double :=
  if x.isNaN then x.quieted else if y.isNaN then y.quieted else op x.view y.view

/-- The NaN of an operation without a result, such as `∞ - ∞`. -/
def invalid : Double := ⟨.ofNat FloatFormat.double.invalidResult⟩

/-- A whole multiple of `2 ^ exponent`, rounded. A zero takes the given sign. -/
def ofScaled (zeroNegative : Bool) (n : Int) (exponent : Int) : Double :=
  let negative := if n = 0 then zeroNegative else decide (n < 0)
  let (num, den) := binaryFraction n.natAbs exponent
  ofFraction negative num den

/-- A signed significand moved to a smaller exponent. -/
def aligned (negative : Bool) (significand : Nat) (exponent target : Int) : Int :=
  let n : Int := significand * (Nat.pow 2 (exponent - target).toNat : Nat)
  if negative then -n else n

/-- The sum, rounded once. A zero sum is negative only if both summands are. -/
protected def add (x y : Double) : Double :=
  lift₂ (fun
    | .finite s m e, .finite t n d =>
      let low := min e d
      ofScaled (s && t) (aligned s m e low + aligned t n d low) low
    | .infinite s, .infinite t => if s = t then infinity s else invalid
    | .infinite s, _ => infinity s
    | _, .infinite t => infinity t
    | _, _ => invalid) x y

/-- The number with the other sign; a NaN is left as it is. -/
def negated (x : Double) : Double :=
  if x.isNaN then x else ⟨x.bits ^^^ .ofNat FloatFormat.double.signWeight⟩

/-- The difference, rounded once. -/
protected def sub (x y : Double) : Double := x.add y.negated

/-- The product, rounded once. -/
protected def mul (x y : Double) : Double :=
  lift₂ (fun
    | .finite s m e, .finite t n d =>
      let (num, den) := binaryFraction (m * n) (e + d)
      ofFraction (s ^^ t) num den
    | .infinite s, .finite t n _ => if n = 0 then invalid else infinity (s ^^ t)
    | .finite s m _, .infinite t => if m = 0 then invalid else infinity (s ^^ t)
    | .infinite s, .infinite t => infinity (s ^^ t)
    | _, _ => invalid) x y

/-- The order of the numbers; a NaN is comparable with nothing. -/
protected def le (x y : Double) : Bool :=
  match x.view, y.view with
  | .nan .., _ => false
  | _, .nan .. => false
  | .infinite s, .infinite t => s || !t
  | .infinite s, .finite .. => s
  | .finite .., .infinite t => !t
  | .finite s m e, .finite t n d =>
    let low := min e d
    decide (aligned s m e low ≤ aligned t n d low)

/-- Strictly below; false when either is a NaN. -/
protected def lt (x y : Double) : Bool := x.le y && !y.le x

/-- Why a float is no whole number: it has no number at all. -/
inductive NotWhole where
  | infinity
  | nan
  deriving DecidableEq, Repr

/-- The number as a whole number, by a rule for the magnitude of a fraction. -/
def toWhole (round : Nat → Nat → Nat) (x : Double) : Except NotWhole Int :=
  match x.view with
  | .nan .. => .error .nan
  | .infinite _ => .error .infinity
  | .finite s m e =>
    let (num, den) := binaryFraction m e
    let n : Int := round num den
    .ok (if s then -n else n)

/-- The nearest whole number, ties to even. -/
def rounded : Double → Except NotWhole Int := toWhole roundHalfEven

/-- The whole number toward zero. -/
def truncated : Double → Except NotWhole Int := toWhole (· / ·)

/-- The whole number that the float is, if it is one. -/
def exactInt? (x : Double) : Option Int :=
  match x.view with
  | .finite s m e =>
    let (num, den) := binaryFraction m e
    if num % den = 0 then
      let n : Int := (num / den : Nat)
      some (if s then -n else n)
    else none
  | _ => none

/-- The nearest 32-bit float. The payload of a NaN keeps its upper bits. -/
def toSingle (x : Double) : Single :=
  match x.view with
  | .finite s m e =>
    let (num, den) := binaryFraction m e
    ⟨.ofNat (FloatFormat.single.withSign s (FloatFormat.single.pattern num den))⟩
  | .infinite s => ⟨.ofNat (FloatFormat.single.withSign s FloatFormat.single.infinity)⟩
  | .nan s payload =>
    ⟨.ofNat (FloatFormat.single.withSign s
      (FloatFormat.single.infinity + (payload / 0x20000000 ||| FloatFormat.single.quietBit)))⟩

end Double

namespace Single

/-- What the pattern stands for. -/
def view (x : Single) : FloatView := FloatFormat.single.view x.bits.toNat

/-- The 64-bit float of the same number. A NaN becomes quiet and keeps its payload. -/
def toDouble (x : Single) : Double :=
  match x.view with
  | .finite s m e =>
    let (num, den) := binaryFraction m e
    Double.ofFraction s num den
  | .infinite s => Double.infinity s
  | .nan s payload =>
    Double.ofPattern s
      (FloatFormat.double.infinity + (payload * 0x20000000 ||| FloatFormat.double.quietBit))

end Single

end OnlineFeatures
