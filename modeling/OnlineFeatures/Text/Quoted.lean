import OnlineFeatures.Text.Printable

/-!
# Quoted text

A text is quoted between single quotes, or between double quotes when it holds single quotes and no
double ones. Inside, the quote and the backslash are escaped, line and tab characters have short
names, and what is not printable is written by its number. Bytes are quoted alike, with everything
beyond ASCII written by its number.
-/

namespace OnlineFeatures

/-- The lower-case hexadecimal digits of a number, at least `width` of them. -/
def hexChars (width n : Nat) : List Char :=
  let digits := Nat.toDigits 16 n
  List.replicate (width - digits.length) '0' ++ digits

/-- The quote that a text is put between. -/
def quoteFor (hasSingle hasDouble : Bool) : Char :=
  if hasSingle && !hasDouble then '"' else '\''

/-- The escapes that quoted text and quoted bytes share. -/
def shortEscape? (quote c : Char) : Option (List Char) :=
  if c = quote ∨ c = '\\' then some ['\\', c]
  else if c = '\t' then some ['\\', 't']
  else if c = '\n' then some ['\\', 'n']
  else if c = '\r' then some ['\\', 'r']
  else none

/-- A character as it stands in quoted text. -/
def quotedChar (quote c : Char) : List Char :=
  match shortEscape? quote c with
  | some cs => cs
  | none =>
    if isPrintable c then [c]
    else if c.toNat < 0x100 then '\\' :: 'x' :: hexChars 2 c.toNat
    else if c.toNat < 0x10000 then '\\' :: 'u' :: hexChars 4 c.toNat
    else '\\' :: 'U' :: hexChars 8 c.toNat

/-- A text between quotes. -/
def quoted (s : String) : String :=
  let cs := s.toList
  let quote := quoteFor (cs.contains '\'') (cs.contains '"')
  String.ofList (quote :: cs.flatMap (quotedChar quote) ++ [quote])

/-- A byte as it stands in quoted bytes. -/
def quotedByte (quote : Char) (b : UInt8) : List Char :=
  let c := Char.ofNat b.toNat
  match shortEscape? quote c with
  | some cs => cs
  | none => if 0x20 ≤ b ∧ b < 0x7f then [c] else '\\' :: 'x' :: hexChars 2 b.toNat

/-- Bytes between quotes, marked by a `b`. -/
def quotedBytes (bs : List UInt8) : String :=
  let quote := quoteFor (bs.contains 0x27) (bs.contains 0x22)
  String.ofList ('b' :: quote :: bs.flatMap (quotedByte quote) ++ [quote])

end OnlineFeatures
