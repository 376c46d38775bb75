import OnlineFeatures.Number.Rounded
import OnlineFeatures.Message.Timestamp
import OnlineFeatures.Message.Value
import OnlineFeatures.Schema

/-!
# Messages as text

A message is shown with one line for each field that is set, and a list with one line for each of
its items, set in between braces. Text stands between double quotes with its quotes, backslashes and
control characters escaped; of bytes everything beyond ASCII is written in octal as well. Unknown
fields are not shown.
-/

namespace OnlineFeatures

namespace TextForm

/-! ## Scalars -/

/-- A byte in octal. -/
def octalChars (b : UInt8) : List Char :=
  let digits := Nat.toDigits 8 b.toNat
  '\\' :: (List.replicate (3 - digits.length) '0' ++ digits)

/-- The escapes with a short name. -/
def shortName? (c : Char) : Option Char :=
  if c = '\n' then some 'n'
  else if c = '\r' then some 'r'
  else if c = '\t' then some 't'
  else if c = '"' ∨ c = '\'' ∨ c = '\\' then some c
  else none

/-- A character of ASCII as it stands between the quotes. -/
def asciiChars (c : Char) : List Char :=
  match shortName? c with
  | some name => ['\\', name]
  | none => if ' ' ≤ c ∧ c ≤ '~' then [c] else octalChars (.ofNat c.toNat)

/-- A character as it stands between the quotes. -/
def textChars (c : Char) : List Char := if c.toNat < 0x80 then asciiChars c else [c]

/-- A byte as it stands between the quotes. -/
def byteChars (b : UInt8) : List Char :=
  if b < 0x80 then asciiChars (Char.ofNat b.toNat) else octalChars b

/-- Characters between double quotes. -/
def between (cs : List Char) : String := String.ofList ('"' :: cs ++ ['"'])

def text (s : String) : String := between (s.toList.flatMap textChars)

def bytes (b : Bytes) : String := between (b.flatMap byteChars)

def bool (b : Bool) : String := if b then "true" else "false"

def double (x : Double) : String :=
  FloatFormat.double.roundedText FloatFormat.doubleDigits x.bits.toNat

def single (x : Single) : String :=
  FloatFormat.single.roundedText FloatFormat.singleDigits x.bits.toNat

/-- A number of an enumeration, by its name where it has one. -/
def enumeration (names : List (String × Nat)) (n : Int) : String :=
  ((names.find? fun (_, k) => (k : Int) = n).map (·.1)).getD (toString n)

/-! ## Lines -/

/-- The line of a field. -/
def line (name content : String) : String := name ++ ": " ++ content ++ "\n"

/-- The line of a number, unless it is zero. -/
def numberLine (name : String) (i : Int) : String := if i = 0 then "" else line name (toString i)

/-- The lines of a list. -/
def listLines {α : Type} (name : String) (f : α → String) (l : ListMessage α) : String :=
  name ++ " \x7b\n" ++ String.join (l.items.map fun a => "  " ++ line "val" (f a)) ++ "\x7d\n"

end TextForm

def Timestamp.textForm (t : Timestamp) : String :=
  TextForm.numberLine "seconds" t.seconds.toInt ++ TextForm.numberLine "nanos" t.nanos.toInt

/-- The lines of a value's member. -/
def Content.textForm (c : Content) : String :=
  match c with
  | .bytes b => TextForm.line c.member (TextForm.bytes b)
  | .text s => TextForm.line c.member (TextForm.text s)
  | .int32 i => TextForm.line c.member (toString i.toInt)
  | .int64 i => TextForm.line c.member (toString i.toInt)
  | .double x => TextForm.line c.member (TextForm.double x)
  | .float x => TextForm.line c.member (TextForm.single x)
  | .bool b => TextForm.line c.member (TextForm.bool b)
  | .null n =>
    TextForm.line c.member (TextForm.enumeration ((Schema.enumeration? "Null").getD []) n.toInt)
  | .bytesList l => TextForm.listLines c.member TextForm.bytes l
  | .textList l => TextForm.listLines c.member TextForm.text l
  | .int32List l => TextForm.listLines c.member (fun i => toString i.toInt) l
  | .int64List l => TextForm.listLines c.member (fun i => toString i.toInt) l
  | .doubleList l => TextForm.listLines c.member TextForm.double l
  | .floatList l => TextForm.listLines c.member TextForm.single l
  | .boolList l => TextForm.listLines c.member TextForm.bool l

def Value.textForm (v : Value) : String := (v.content.map (·.textForm)).getD ""

end OnlineFeatures
