/-!
# Blank characters

Two sets of blanks are in use: the wide one, which has the information separators, and the narrow
one of the Unicode property, which has not.
-/

namespace OnlineFeatures

/-- A character with the Unicode property of white space. -/
def isWhiteSpace (c : Char) : Bool :=
  let n := c.toNat
  (0x9 ≤ n && n ≤ 0xd) || n == 0x20 || n == 0x85 || n == 0xa0 || n == 0x1680 ||
    (0x2000 ≤ n && n ≤ 0x200a) || n == 0x2028 || n == 0x2029 || n == 0x202f || n == 0x205f ||
    n == 0x3000

/-- White space or one of the four information separators. -/
def isBlank (c : Char) : Bool := isWhiteSpace c || (0x1c ≤ c.toNat && c.toNat ≤ 0x1f)

/-- The text without the characters of a class at its two ends. -/
def trimChars (p : Char → Bool) (cs : List Char) : List Char :=
  ((cs.dropWhile p).reverse.dropWhile p).reverse

/-- The text without blanks at its two ends. -/
def stripped (s : String) : String := String.ofList (trimChars isBlank s.toList)

end OnlineFeatures
