import OnlineFeatures.Text.Quoted
import OnlineFeatures.Number.FloatText

/-!
# JSON text

Values and their text. Strings are written in ASCII, everything else escaped by UTF-16 units; object
members keep their order. A float that is no number is written with a bare name, which JSON itself
has not.
-/

namespace OnlineFeatures

inductive Json where
  | null
  | bool (b : Bool)
  | int (i : Int)
  | float (x : Double)
  | text (s : String)
  | array (items : List Json)
  | object (members : List (String × Json))
  deriving Inhabited

namespace Json

/-! ## Strings -/

/-- A UTF-16 unit by its number. -/
def unitEscape (n : Nat) : List Char := '\\' :: 'u' :: hexChars 4 n

/-- A character as it stands in a JSON string. -/
def stringChar (c : Char) : List Char :=
  if c = '"' ∨ c = '\\' then ['\\', c]
  else if c = '\n' then ['\\', 'n']
  else if c = '\r' then ['\\', 'r']
  else if c = '\t' then ['\\', 't']
  else if c = '\x0c' then ['\\', 'f']
  else if c = '\x08' then ['\\', 'b']
  else if ' ' ≤ c ∧ c ≤ '~' then [c]
  else if c.toNat < 0x10000 then unitEscape c.toNat
  else
    let n := c.toNat - 0x10000
    unitEscape (0xd800 + n / 0x400) ++ unitEscape (0xdc00 + n % 0x400)

def stringChars (s : String) : List Char := '"' :: s.toList.flatMap stringChar ++ ['"']

/-! ## Values -/

/-- How the items of arrays and objects are set out. -/
inductive Layout where
  /-- On one line, with a blank after each comma. -/
  | inline
  /-- One to a line, each level indented by two blanks. -/
  | lines

/-- The break before an item at a depth. -/
def Layout.itemBreak : Layout → Nat → List Char
  | .inline, _ => []
  | .lines, depth => '\n' :: List.replicate (2 * depth) ' '

/-- What stands after a comma. -/
def Layout.afterComma : Layout → Nat → List Char
  | .inline, _ => [' ']
  | .lines, depth => Layout.lines.itemBreak depth

mutual

/-- The text of a value at a depth. -/
def chars (layout : Layout) (depth : Nat) : Json → List Char
  | .null => "null".toList
  | .bool b => (if b then "true" else "false").toList
  | .int i => (toString i).toList
  | .float x => x.chars .json
  | .text s => stringChars s
  | .array [] => "[]".toList
  | .array (item :: items) =>
    '[' :: layout.itemBreak (depth + 1) ++ item.chars layout (depth + 1) ++
      moreItems layout (depth + 1) items ++ layout.itemBreak depth ++ [']']
  | .object [] => "\x7b\x7d".toList
  | .object ((name, item) :: members) =>
    '\x7b' :: layout.itemBreak (depth + 1) ++ stringChars name ++ ": ".toList ++
      item.chars layout (depth + 1) ++ moreMembers layout (depth + 1) members ++
      layout.itemBreak depth ++ ['\x7d']

/-- The items after the first, each behind a comma. -/
def moreItems (layout : Layout) (depth : Nat) : List Json → List Char
  | [] => []
  | item :: items =>
    ',' :: layout.afterComma depth ++ item.chars layout depth ++ moreItems layout depth items

/-- The members after the first, each behind a comma. -/
def moreMembers (layout : Layout) (depth : Nat) : List (String × Json) → List Char
  | [] => []
  | (name, item) :: members =>
    ',' :: layout.afterComma depth ++ stringChars name ++ ": ".toList ++ item.chars layout depth ++
      moreMembers layout depth members

end

/-- The text of a value. -/
def render (layout : Layout) (j : Json) : String := String.ofList (j.chars layout 0)

end Json

end OnlineFeatures
