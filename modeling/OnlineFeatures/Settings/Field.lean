import OnlineFeatures.Settings.Basic
import OnlineFeatures.Conversion.Explicit
import OnlineFeatures.Native.Print
import OnlineFeatures.Text.Blank

/-!
# Reading one setting

Settings come as texts from the environment and as native values from callers, and one lenient rule
for each type reads both. Bytes count as the text they spell.
-/

namespace OnlineFeatures

namespace Setting

/-! ## Texts -/

/-- Reads a text. A status is given by the text of its number. -/
def readText : Native → Except SettingFault String
  | .text s => .ok s
  | .octets .bytes b | .octets .byteArray b => (Utf8.decode? b).elim (.error .undecodableText) .ok
  | .status s => .ok (toString s.number)
  | _ => .error .notText

/-- The text that a number or a truth value is spelled with: a text or a byte string, the inner
option empty where the bytes are no text. -/
def spelling? : Native → Option (Option String)
  | .text s => some (some s)
  | .octets .bytes b => some (Utf8.decode? b)
  | _ => none

/-- Reads a text that may be left out. -/
def readOptionalText : Native → Except SettingFault (Option String)
  | .none => .ok none
  | v => (readText v).map some

/-! ## Integers -/

/-- A canonical numeral: an optional minus and digits without leading zeros. -/
def canonicalInt? (cs : List Char) : Option Int :=
  let (negative, ds) := match cs with
    | '-' :: r => (true, r)
    | r => (false, r)
  let canonical := match ds with
    | [] => false
    | '0' :: r => r.isEmpty
    | r => r.all Char.isDigit
  if canonical then
    let n : Int := Numeral.digitsValue ds
    some (if negative then -n else n)
  else none

/-- A numeral without its leading zeros, among which underscores may stand; one zero is left. -/
def dropLeadingZeros : Char → List Char → Option (List Char)
  | last, [] => some [last]
  | last, c :: r =>
    if c = '0' ∨ c = '_' then dropLeadingZeros c r
    else if c.isDigit then some (c :: r)
    else if c = '.' then some (last :: c :: r)
    else none

/-- A numeral without a fraction of zeros. -/
def dropZeroFraction (cs : List Char) : List Char :=
  match cs.dropWhile (· ≠ '.') with
  | _ :: zeros => if zeros.all (· = '0') then cs.takeWhile (· ≠ '.') else cs
  | [] => cs

/-- Whether underscores stand only one by one between other characters. -/
def underscoresBetween : List Char → Bool
  | [] => true
  | [c] => c ≠ '_'
  | c :: d :: r => (c ≠ '_' || d ≠ '_') && underscoresBetween (d :: r)

/-- A numeral without its underscores, if these stand right. -/
def dropUnderscores (cs : List Char) : List Char :=
  if underscoresBetween cs && cs.head? ≠ some '_' then cs.filter (· ≠ '_') else cs

/-- A lenient numeral in its canonical form: without blanks around it, a plus sign, leading zeros, a
fraction of zeros, and underscores between digits. -/
def cleanNumeral? (s : String) : Option (List Char) :=
  let cs := trimChars isWhiteSpace s.toList
  let cs := match cs with
    | '+' :: r => r
    | r => r
  let stripped := match cs with
    | '0' :: r => dropLeadingZeros '0' r
    | c :: r => if c.isDigit ∨ c = '-' then some (c :: r) else none
    | [] => none
  stripped.map fun cs => dropUnderscores (dropZeroFraction cs)

/-- Reads an integer from a text. -/
def readNumeral (s : String) : Except SettingFault Int :=
  match canonicalInt? s.toList with
  | some i => if numeralLimit < s.length then .error .longInteger else .ok i
  | none =>
    match cleanNumeral? s with
    | some cs =>
      if numeralLimit < cs.length then .error .unparsableInteger
      else (canonicalInt? cs).elim (.error .unparsableInteger) .ok
    | none => .error .unparsableInteger

/-- Reads an integer from a float, which must be whole and within 64 bits. -/
def readFloat (x : Double) : Except SettingFault Int :=
  if !x.isFinite then .error .notFinite
  else
    match x.exactInt? with
    | none => .error .fractional
    | some i => if i.natAbs ≤ 0x8000000000000000 then .ok i else .error .longInteger

/-- Reads an integer from a decimal number, which must be whole. -/
def readDecimal : Decimal → Except SettingFault Int
  | .finite negative magnitude =>
    (Decimal.exactInt? (.finite negative magnitude)).elim (.error .fractional) .ok
  | _ => .error .notFinite

/-- Reads an integer; a truth value counts as 0 or 1. -/
def readInt (v : Native) : Except SettingFault Int :=
  match spelling? v with
  | some s => s.elim (.error .unparsableInteger) readNumeral
  | none =>
    match v with
    | .float x => readFloat x
    | .decimal d => readDecimal d
    | .fraction num den => if den = 1 then .ok num else .error .fractional
    | v => v.count?.elim (.error .notInteger) .ok

def lastPort : Int := 65535

def readPort (v : Native) : Except SettingFault Int :=
  (readInt v).bind fun i =>
    if lastPort < i then .error .tooLarge
    else if i < 1 then .error .tooSmall
    else .ok i

/-! ## Truth values -/

def trueWords : List String := ["1", "on", "t", "true", "y", "yes"]

def falseWords : List String := ["0", "off", "f", "false", "n", "no"]

/-- Reads a truth value from a text, in any case of its letters. -/
def readWord (s : String) : Except SettingFault Bool :=
  let word := String.ofList (s.toList.map Char.toLower)
  if word ∈ trueWords then .ok true
  else if word ∈ falseWords then .ok false
  else .error .unparsableBool

/-- Reads a truth value from an integer. -/
def readBit (i : Int) : Except SettingFault Bool :=
  if i = 1 then .ok true else if i = 0 then .ok false else .error .unparsableBool

/-- Reads a truth value: a word, or the numbers 0 and 1. -/
def readBool (v : Native) : Except SettingFault Bool :=
  match v with
  | .bool b => .ok b
  | _ =>
    match spelling? v with
    | some s => s.elim (.error .unparsableBool) readWord
    | none =>
      match v.count? with
      | some i =>
        if -0x8000000000000000 ≤ i ∧ i < 0x8000000000000000 then readBit i else .error .notBool
      | none =>
        match v.toDouble.toOption.map readFloat with
        | some (.ok i) => readBit i
        | _ => .error .notBool

end Setting

end OnlineFeatures
